import Mathlib.Data.Char
import Mathlib.Data.List.Lex
import Ssp.Controller.Sip
import Ssp.Fs.Monitor
import Ssp.Lib.OrdMap
import Ssp.Lib.Run

/-!
# The stateless agent

In its stateless mode the controller keeps no transactions. It sends the first INVITE of a
Call-ID to a FreeSWITCH server and remembers which one it was, so that all later requests of
the Call-ID go there too (`statelessCallback`). A Call-ID that is *completed* is forgotten by
`processWatchdogTimer` after a while without requests.

What nta makes of a message that is sent on comes with the message. A message whose
`setCompleted` reads the end iterator of the table has no defined behaviour; this is recorded as
a fault, like the assertion that fails in `processWatchdogTimer`.
-/

namespace Ssp

/-- `agent_mode`. -/
inductive AgentMode
  | stateless
  | stateful
  deriving DecidableEq

/-- `MAX_RETRANSMISSION_WAIT`, in seconds. -/
def maxRetransmissionWait : ℕ := 8

/-- `SipInboundCall`. -/
structure SipInboundCall where
  strCallId : Bytes
  strDestUrl : Bytes
  latestStatus : UInt32 := 0
  bComplete : Bool := false
  expireTime : ℕ := 0
  deriving DecidableEq

namespace SipInboundCall

def setLatestStatus (call : SipInboundCall) (status : UInt32) : SipInboundCall :=
  { call with latestStatus := status }

def updateExpireTime (call : SipInboundCall) (now : ℕ) : SipInboundCall :=
  { call with expireTime := now + maxRetransmissionWait }

def setCompleted (call : SipInboundCall) (now : ℕ) : SipInboundCall :=
  { call with bComplete := true }.updateExpireTime now

end SipInboundCall

/-- A message without a transaction. -/
inductive SipMessage
  | request (sip : Request)
  | response (callId : Bytes) (sip : Response)

/-- What becomes of a message. -/
inductive Disposition
  /-- `nta_msg_tsend` to a URL. -/
  | sent (url : Bytes)
  /-- `nta_msg_tsend` of a response, along its Via headers. -/
  | sentBack
  /-- `nta_msg_treply`. -/
  | replied (status : ℤ)
  /-- `nta_msg_discard`. -/
  | discarded
  /-- Nothing is done with it but to return a status. -/
  | returned (status : ℤ)
  deriving DecidableEq

inductive StatelessFault
  /-- `setCompleted` reads the end iterator. -/
  | endIterator
  /-- The assertion in the loop of `processWatchdogTimer`. -/
  | completedNotFound
  deriving DecidableEq

/-- The controller, as far as its stateless mode uses it. `counter` counts the idle ticks of
    the watchdog before it shuts down. -/
structure StatelessAgent where
  mapInvitesInProgress : OrdMap Bytes SipInboundCall := .empty
  deqCompletedCallIds : List Bytes := []
  fsMonitor : FsMonitor := {}
  agentMode : AgentMode := .stateless
  bIsActive : Bool := true
  nIterationCount : ℤ := -1
  counter : ℤ := 5
  now : ℕ := 0
  stopped : Bool := false
  faults : List StatelessFault := []

namespace StatelessAgent

def fault (s : StatelessAgent) (f : StatelessFault) : StatelessAgent := { s with faults := f :: s.faults }

/-- A change of a call in the table. -/
def updateCall (s : StatelessAgent) (callId : Bytes) (f : SipInboundCall → SipInboundCall) : StatelessAgent :=
  { s with mapInvitesInProgress := s.mapInvitesInProgress.modify callId f }

/-! ## Messages -/

/-- `setCompleted`, with the Call-ID whose iterator it is given. -/
def setCompleted (s : StatelessAgent) (callId : Bytes) : StatelessAgent :=
  match s.mapInvitesInProgress.find? callId with
  | none => s.fault .endIterator
  | some call =>
    if call.bComplete then s
    else
      { s.updateCall callId fun call => call.setCompleted s.now with
        deqCompletedCallIds := s.deqCompletedCallIds ++ [call.strCallId] }

/-- The URL of a user at a server. -/
def destUrl (user : Option Bytes) (server : FsInstance) : Bytes :=
  sipUri user (server.strSipAddress ++ ':' :: (toString server.nSipPort.toNat).toList)

/-- The INVITE case of `statelessCallback`; `rv` is what `nta_msg_tsend` returns. -/
def processNewInvite (s : StatelessAgent) (sip : Request) (rv : ℤ) : StatelessAgent × Disposition :=
  if !s.bIsActive ∨ s.nIterationCount = 0 then (s, .discarded)
  else
    let (fsMonitor, results) := s.fsMonitor.getAvailableServers
    let s := { s with fsMonitor := fsMonitor }
    match results.bind fun results => results.head?.bind fun i => fsMonitor.servers[i]? with
    | none => (s, .returned 486)
    | some server =>
      let url := destUrl sip.sipTo.url.user server
      -- A call whose INVITE cannot be sent is not remembered.
      if rv ≠ 0 then (s, .sent url)
      else
        let iip : SipInboundCall := { strCallId := sip.callId, strDestUrl := url }
        ({ s with
            mapInvitesInProgress := s.mapInvitesInProgress.insert iip.strCallId iip
            nIterationCount := if 0 < s.nIterationCount then s.nIterationCount - 1 else s.nIterationCount },
          .sent url)

/-- A request whose Call-ID is not in the table. -/
def processNewRequest (s : StatelessAgent) (sip : Request) (rv : ℤ) : StatelessAgent × Disposition :=
  match sip.method with
  | .options => if !s.bIsActive then (s, .discarded) else (s, .replied 200)
  | .invite => s.processNewInvite sip rv
  -- The Call-ID is not in the table here, so the iterator is the end.
  | .ack => (s.setCompleted sip.callId, .discarded)
  | .bye | .cancel | .other _ => (s, .discarded)

/-- `statelessCallback`. -/
def statelessCallback (s : StatelessAgent) (msg : SipMessage) (rv : ℤ) : StatelessAgent × Disposition :=
  match msg with
  | .request sip =>
    match s.mapInvitesInProgress.find? sip.callId with
    | some iip => (s.updateCall sip.callId fun iip => iip.updateExpireTime s.now, .sent iip.strDestUrl)
    | none => s.processNewRequest sip rv
  | .response callId sip =>
    -- A response is sent back whether its call is known or not.
    if (s.mapInvitesInProgress.find? callId).isSome ∧ sip.cseqMethod = .invite then
      let s := s.updateCall callId fun iip => iip.setLatestStatus (UInt32.ofInt sip.status)
      (if sip.status = 200 then s.setCompleted callId else s, .sentBack)
    else (s, .sentBack)

/-! ## The watchdog -/

/-- The loop of `processWatchdogTimer`, over what is left of the queue: `none` where its
    assertion fails. -/
def sweep (now : ℕ) : OrdMap Bytes SipInboundCall → List Bytes → Option (OrdMap Bytes SipInboundCall × List Bytes)
  | calls, [] => some (calls, [])
  | calls, callId :: rest =>
    match calls.find? callId with
    | none => none
    | some call =>
      -- The queue is in the order of completion: the first that is not due ends the loop.
      if now < call.expireTime then some (calls, callId :: rest)
      else sweep now (calls.erase callId) rest

/-- The end of the stateless case: the agent stops once it is idle for some ticks. -/
def shutDownIfIdle (s : StatelessAgent) : StatelessAgent :=
  if s.nIterationCount = 0 ∧ s.deqCompletedCallIds = [] ∧ s.mapInvitesInProgress.entries = [] then
    { s with counter := s.counter - 1, stopped := s.counter - 1 = 0 }
  else s

/-- `processWatchdogTimer`; where the mode was changed, `idle` says that there are no calls and
    no transactions. -/
def processWatchdogTimer (s : StatelessAgent) (idle : Bool) : StatelessAgent :=
  match s.agentMode with
  | .stateless =>
    match sweep s.now s.mapInvitesInProgress s.deqCompletedCallIds with
    | none => (s.fault .completedNotFound).fault .endIterator
    | some (calls, callIds) =>
      shutDownIfIdle { s with mapInvitesInProgress := calls, deqCompletedCallIds := callIds }
  | .stateful => if s.nIterationCount = 0 ∧ idle then { s with stopped := true } else s

end StatelessAgent

/-! ## Runs -/

/-- What can happen. -/
inductive StatelessEvent
  /-- A message; `rv` is what nta says to sending it. -/
  | message (msg : SipMessage) (rv : ℤ)
  /-- The watchdog. -/
  | watchdog (idle : Bool)
  /-- Time goes by. -/
  | clock (now : ℕ)
  /-- The servers change. -/
  | monitor (fsMonitor : FsMonitor)
  /-- `installConfig` of a new configuration. -/
  | installConfig (agentMode : AgentMode) (bIsActive : Bool)

namespace StatelessAgent

/-- The agent after an event. -/
def next (s : StatelessAgent) : StatelessEvent → StatelessAgent
  | .message msg rv => (s.statelessCallback msg rv).1
  | .watchdog idle => s.processWatchdogTimer idle
  | .clock now => { s with now := now }
  | .monitor fsMonitor => { s with fsMonitor := fsMonitor }
  | .installConfig agentMode bIsActive => { s with agentMode := agentMode, bIsActive := bIsActive }

/-- The clock does not go back, and no message comes once the agent is stopped. -/
def Possible (s : StatelessAgent) : StatelessEvent → Prop
  | .clock now => s.now ≤ now
  | _ => s.stopped = false

instance (s : StatelessAgent) : (e : StatelessEvent) → Decidable (s.Possible e)
  | .clock now => inferInstanceAs (Decidable (s.now ≤ now))
  | .message _ _ | .watchdog _ | .monitor _ | .installConfig _ _ => inferInstanceAs (Decidable (s.stopped = false))

/-- The process is gone. -/
def Crashed (s : StatelessAgent) : Prop := .endIterator ∈ s.faults

instance (s : StatelessAgent) : Decidable s.Crashed := inferInstanceAs (Decidable (_ ∈ _))

/-- The agent as it starts, with any configuration. -/
structure Initial (s : StatelessAgent) : Prop where
  mapInvitesInProgress : s.mapInvitesInProgress = .empty
  deqCompletedCallIds : s.deqCompletedCallIds = []
  faults : s.faults = []

/-- The runs of the agent, as long as it does not crash. -/
def machine : Machine StatelessAgent StatelessEvent where
  init := { s | s.Initial }
  enabled s e := s.Possible e ∧ ¬(s.next e).Crashed
  next := next

instance (s : StatelessAgent) (e : StatelessEvent) : Decidable (machine.enabled s e) :=
  inferInstanceAs (Decidable (_ ∧ _))

end StatelessAgent

end Ssp
