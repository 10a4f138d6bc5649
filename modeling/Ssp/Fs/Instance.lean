import Ssp.Fs.Message

/-!
# A monitored FreeSWITCH server

An `FsInstance` keeps an event-socket connection to one FreeSWITCH server: it
resolves the server's address, connects, authenticates, asks for the SIP profile,
and then for the status, again and again. All of this runs in handlers of
asynchronous operations of boost::asio. What is pending is part of the state
(`ops`): starting an operation adds to it, and a handler runs when an operation of
it completes. A cancelled operation completes too, with an error, unless it was
done before.

Writing to the socket and closing it are synchronous, and throw a
`boost::system::system_error` when they fail. No handler does more than one of
them, so whether it fails is one `Bool` (`io`) of each handler.
-/

namespace Ssp

/-- `CONNECTION_STATE`. -/
inductive ConnectionState
  | starting
  | resolving
  | resolveFailed
  | connecting
  | connectFailed
  | waitingForGreeting
  | authenticating
  | authenticationFailed
  | obtainingSipConfiguration
  | obtainingSipConfigurationFailed
  | queryingStatus
  | disconnecting
  deriving DecidableEq, Repr

/-- A pending asynchronous operation. `connect` comes with the number of endpoints
    left to try, `timer` with its time. -/
inductive Op
  | resolve
  | connect (left : ℕ)
  | read
  | timer (nMilliseconds : ℕ)
  deriving DecidableEq, Repr

/-- What is written to the event socket. -/
inductive Command
  | auth
  | sofiaStatus
  | status
  | reloadxml
  deriving DecidableEq, Repr

def Command.text : Command → Bytes
  | auth => "auth ClueCon\r\n\r\n".toList
  | sofiaStatus => "api sofia status\r\n\r\n".toList
  | status => "api status\r\n\r\n".toList
  | reloadxml => "api reloadxml\r\n\r\n".toList

/-- A server, with its pending operations and what was written to its socket.
    `healthCheckMsecs` is the controller's `getFSHealthCheckTimerTimeMsecs`. -/
structure FsInstance where
  strAddress : Bytes
  nEventSocketPort : UInt32
  healthCheckMsecs : ℕ := 0
  bDisconnected : Bool := false
  bReloadingXml : Bool := false
  nMaxSessions : UInt32 := 0
  nCurrentSessions : UInt32 := 0
  strSipAddress : Bytes := []
  nSipPort : UInt32 := 0
  state : ConnectionState := .starting
  fsMsg : FsMessage := .reset
  ops : List Op := []
  sent : List Command := []
  deriving DecidableEq, Repr

/-- How a handler ends. -/
inductive Exit
  | returned
  | fsDisconnectException
  | fsReconnectException
  /-- A write or close of the socket failed. -/
  | systemError
  /-- An assertion failed, the process is gone. -/
  | aborted
  deriving DecidableEq, Repr

/-- The instance after a handler, how the handler ended, and the addresses it gave
    to `FsMonitor::notifySipServerAddress`. -/
structure Outcome where
  fs : FsInstance
  exit : Exit := .returned
  notified : Option (Bytes × Bytes) := none

/-- What the `switch` of `read_handler` decides. -/
structure Reaction where
  fs : FsInstance
  out : Option Command := none
  bReadAgain : Bool := false
  bSetTimer : Bool := false
  bNotifyReconnect : Bool := false
  notified : Option (Bytes × Bytes) := none

namespace FsInstance

def isAvailable (fs : FsInstance) : Bool :=
  fs.state = .queryingStatus && fs.nCurrentSessions < fs.nMaxSessions - 2

def isOnline (fs : FsInstance) : Bool := fs.state = .queryingStatus

def getAvailableSessions (fs : FsInstance) : UInt32 := fs.nMaxSessions - fs.nCurrentSessions

/-- `FsInstance::start_timer`. -/
def startTimer (fs : FsInstance) (nMilliseconds : ℕ) : FsInstance :=
  { fs with ops := .timer nMilliseconds :: fs.ops }

/-- `m_socket.async_read_some`. -/
def asyncReadSome (fs : FsInstance) : FsInstance := { fs with ops := .read :: fs.ops }

/-- `m_socket.async_connect` to an endpoint, with `left` more to try. -/
def asyncConnect (fs : FsInstance) (left : ℕ) : FsInstance :=
  { fs with ops := .connect left :: fs.ops }

/-- `FsInstance::start`. -/
def start (fs : FsInstance) : FsInstance :=
  { fs with state := .resolving, fsMsg := .reset, ops := .resolve :: fs.ops }

/-- `FsInstance::resolve_handler`: on success there is an endpoint, and `left` more. -/
def resolveHandler (fs : FsInstance) : Option ℕ → Outcome
  | some left => { fs := { fs with state := .connecting }.asyncConnect left }
  | none => { fs := { fs with state := .resolveFailed }.startTimer 5000 }

/-- `FsInstance::connect_handler`. -/
def connectHandler (fs : FsInstance) (ok : Bool) (left : ℕ) (io : Bool) : Outcome :=
  if ok then { fs := { fs with state := .waitingForGreeting }.asyncReadSome }
  else
    match left with
    | left + 1 =>
      -- The socket is closed before the next endpoint is tried.
      if io then { fs := fs.asyncConnect left } else { fs := fs, exit := .systemError }
    | 0 => { fs := { fs with state := .connectFailed }.startTimer 5000 }

/-- A complete message is the answer to an `api` command. -/
def isApiResponse (m : FsMessage) : Bool := m.category = .api && m.type = .response

def isDisconnectNotice (m : FsMessage) : Bool := m.category = .text && m.type = .disconnectNotice

/-- The `switch` of `read_handler` on a complete message; `none` if an assertion of
    a token iterator fails. -/
def processMessage (fs : FsInstance) : Option Reaction :=
  match fs.state with
  | .waitingForGreeting =>
    if fs.fsMsg.category ≠ .auth then some { fs := fs, bSetTimer := true }
    else some { fs := { fs with state := .authenticating }, out := some .auth, bReadAgain := true }
  | .authenticating =>
    if fs.fsMsg.replyStatus ≠ .ok then
      some { fs := { fs with state := .authenticationFailed }, bSetTimer := true }
    else
      some { fs := { fs with state := .obtainingSipConfiguration }, out := some .sofiaStatus
             bReadAgain := true }
  | .obtainingSipConfiguration =>
    if isApiResponse fs.fsMsg then
      match fs.fsMsg.getSipProfile "internal".toList with
      | .asserts => none
      | .notFound =>
        some { fs := { fs with state := .obtainingSipConfigurationFailed }, bSetTimer := true }
      | .found address port =>
        some { fs := { fs with strSipAddress := address, nSipPort := port, state := .queryingStatus }
               out := some .status, bReadAgain := true, notified := some (fs.strAddress, address) }
    else some { fs := fs }
  | .queryingStatus =>
    if isApiResponse fs.fsMsg then
      -- The reply to `reloadxml`: no timer is started, the one for the status is still to come.
      if fs.bReloadingXml then some { fs := { fs with bReloadingXml := false } }
      else
        match fs.fsMsg.getFsStatus with
        | .asserts => none
        | .parsed nCurrentSessions nMaxSessions =>
          let fs := { fs with nCurrentSessions := nCurrentSessions.getD fs.nCurrentSessions
                              nMaxSessions := nMaxSessions.getD fs.nMaxSessions }
          -- `getFsStatus` returns whether it has set both.
          if nCurrentSessions.isSome && nMaxSessions.isSome && fs.bDisconnected then
            some { fs := { fs with bDisconnected := false }, bSetTimer := true
                   bNotifyReconnect := true }
          else some { fs := fs, bSetTimer := true }
    else some { fs := fs }
  | _ => some { fs := fs }

end FsInstance

/-- The end of `read_handler`, from the write on. -/
def Reaction.finish (r : Reaction) (io : Bool) : Outcome :=
  if r.out.isSome && !io then { fs := r.fs, exit := .systemError, notified := r.notified }
  else
    let fs := { r.fs with sent := r.fs.sent ++ r.out.toList, fsMsg := .reset }
    let fs := if r.bReadAgain then fs.asyncReadSome else fs
    let fs := if r.bSetTimer then
        fs.startTimer (if fs.state = .queryingStatus then fs.healthCheckMsecs else 5000)
      else fs
    { fs := fs, exit := if r.bNotifyReconnect then .fsReconnectException else .returned
      notified := r.notified }

namespace FsInstance

/-- `read_handler`, after what was read is added to the message. -/
def processData (fs : FsInstance) (io : Bool) : Outcome :=
  if !fs.fsMsg.bComplete then { fs := fs.asyncReadSome }
  else if isDisconnectNotice fs.fsMsg then
    if io then
      -- The message is not reset here; `start` does it.
      { fs := { fs with bDisconnected := true, state := .starting }.startTimer 1000
        exit := .fsDisconnectException }
    else { fs := fs, exit := .systemError }
  else
    match fs.processMessage with
    | none => { fs := fs, exit := .aborted }
    | some r => r.finish io

def appendData (fs : FsInstance) (data : Bytes) : FsInstance :=
  { fs with fsMsg := fs.fsMsg.append data }

/-- `FsInstance::read_handler`: the bytes that were read, or an error. -/
def readHandler (fs : FsInstance) (data : Option Bytes) (io : Bool) : Outcome :=
  match data with
  | none => { fs := fs }
  | some data => (fs.appendData data).processData io

/-- `FsInstance::timer_handler`. -/
def timerHandler (fs : FsInstance) (ok : Bool) (io : Bool) : Outcome :=
  if ok then
    match fs.state with
    | .starting => { fs := fs.start }
    | .connectFailed =>
      if io then { fs := { fs with state := .starting }.start }
      else { fs := fs, exit := .systemError }
    -- Nothing is done in these states: no timer, no read.
    | .resolveFailed | .waitingForGreeting | .authenticationFailed
    | .obtainingSipConfigurationFailed => { fs := fs }
    | _ =>
      if io then { fs := { fs with sent := fs.sent ++ [Command.status] }.asyncReadSome }
      else { fs := fs, exit := .systemError }
  else { fs := fs }

/-- `FsInstance::reloadxml`. -/
def reloadxml (fs : FsInstance) (io : Bool) : Outcome :=
  if fs.state ≠ .queryingStatus then { fs := fs }
  else if io then
    { fs := { fs with sent := fs.sent ++ [Command.reloadxml], bReloadingXml := true }.asyncReadSome }
  else { fs := fs, exit := .systemError }

end FsInstance

/-! ## Steps -/

/-- What an operation completed with. -/
inductive Completion
  | resolve (left : Option ℕ)
  | connect (left : ℕ) (ok : Bool)
  | read (data : Option Bytes)
  | timer (nMilliseconds : ℕ) (ok : Bool)
  deriving DecidableEq, Repr

def Completion.op : Completion → Op
  | resolve _ => .resolve
  | connect left _ => .connect left
  | read _ => .read
  | timer nMilliseconds _ => .timer nMilliseconds

/-- The size of `m_buffer`. -/
def bufferSize : ℕ := 8132

/-- What happens to an instance: an operation completes, or another thread calls
    `reloadxml`. -/
inductive FsEvent
  | completed (c : Completion) (io : Bool)
  | reloadxml (io : Bool)
  deriving DecidableEq, Repr

namespace FsInstance

/-- The handler of an operation. -/
def handle (fs : FsInstance) (c : Completion) (io : Bool) : Outcome :=
  match c with
  | .resolve left => fs.resolveHandler left
  | .connect left ok => fs.connectHandler ok left io
  | .read data => fs.readHandler data io
  | .timer _ ok => fs.timerHandler ok io

/-- An operation completes and its handler runs, or `reloadxml` is called. -/
def step (fs : FsInstance) : FsEvent → Outcome
  | .completed c io => { fs with ops := fs.ops.erase c.op }.handle c io
  | .reloadxml io => fs.reloadxml io

/-- What may happen: a pending operation completes; a successful read brings at
    least one byte, and no more than the buffer holds. -/
def ready (fs : FsInstance) : FsEvent → Bool
  | .completed (.read (some data)) _ => .read ∈ fs.ops && data ≠ [] && data.length ≤ bufferSize
  | .completed c _ => c.op ∈ fs.ops
  | .reloadxml _ => true

/-- A server as `FsMonitor::reset` makes it. -/
def new (strAddress : Bytes) (nEventSocketPort : UInt32) (healthCheckMsecs : ℕ) : FsInstance :=
  ({ strAddress, nEventSocketPort, healthCheckMsecs } : FsInstance).start

end FsInstance

end Ssp
