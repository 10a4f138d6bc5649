import Ssp.Controller.Responses
import Ssp.Lib.Run

/-!
# Runs of the controller

The callbacks of the controller run one after the other in the thread of nta; the writer
of the records and the monitor of the servers have threads of their own, which come in
between. `Controller.machine` has all their steps.

nta calls back on a leg that lives and on a transaction that was not destroyed, and the
timer of a dialog runs as long as its `SipDialogInfo` is there.
-/

namespace Ssp

/-- What can happen. -/
inductive ControllerEvent
  /-- A request outside of a dialog. `uuid` is the UUID that is generated for it. -/
  | requestOutsideDialog (sip : Request) (uuid : Bytes) (nta : Creations)
  /-- A response to the INVITE of a call. -/
  | inviteResponse (orq : Orq) (sip : Response) (nta : Creations)
  /-- A CANCEL or ACK for the INVITE of a call. -/
  | ackOrCancel (irq : Irq) (method : Method)
  /-- A request on a leg. -/
  | requestInsideDialog (leg : Leg) (sip : Request) (nta : Creations)
  /-- A response to a request sent on inside of a dialog. -/
  | responseInsideDialog (orq : Orq) (sip : Response)
  /-- The session timer of a leg expires. -/
  | sessionRefreshTimer (leg : Leg)
  /-- A response that belongs to no transaction, with the leg of its Call-ID. -/
  | retransmittedResponse (leg : Leg) (sip : Response)
  /-- The writer takes a record from its queue. -/
  | writeCdr (connected : Bool)
  /-- Time goes by. -/
  | clock (now : ℕ)
  /-- The servers change. -/
  | monitor (fsMonitor : FsMonitor)
  /-- `resetOutboundTrunkStats`. -/
  | resetTrunkStats

namespace Controller

/-- The controller after an event. -/
def next (c : Controller) : ControllerEvent → Controller
  | .requestOutsideDialog sip uuid nta => c.requestOutsideDialog sip uuid nta
  | .inviteResponse orq sip nta => c.processInviteResponseInsideDialog orq sip nta
  | .ackOrCancel irq method => c.processAckOrCancel irq method
  | .requestInsideDialog leg sip nta => c.requestInsideDialog leg sip nta
  | .responseInsideDialog orq sip => c.processResponseInsideDialog orq sip
  | .sessionRefreshTimer leg => c.processSessionRefreshTimer leg
  | .retransmittedResponse leg sip => c.processRetransmittedResponse leg sip
  | .writeCdr connected => { c with cdrWriter := c.cdrWriter.map fun w => w.writeCdr c.cdrs connected }
  | .clock now => { c with now := now }
  | .monitor fsMonitor => { c with fsMonitor := fsMonitor }
  | .resetTrunkStats =>
    { c with mapTrunkStats := fun trunk => (c.mapTrunkStats trunk).map TrunkStats.reset }

/-- The events that nta and the other threads may bring about. -/
def Possible (c : Controller) : ControllerEvent → Prop
  | .inviteResponse orq _ _ =>
    ∃ o ∈ c.calls.outgoing orq, o.callback = .responseToInvite ∧ o.destroyed = 0
  | .ackOrCancel irq _ => ∃ i ∈ c.calls.incoming irq, i.bound = true ∧ i.destroyed = 0
  | .requestInsideDialog leg _ _ => leg ∈ c.calls.legs
  | .responseInsideDialog orq _ =>
    ∃ o ∈ c.calls.outgoing orq, o.callback = .responseToRequestInsideDialog ∧ o.destroyed = 0
  | .sessionRefreshTimer leg => ∃ d ∈ c.calls.mapDialogInfo leg, d.timerSessionRefresh ≠ none
  | .clock now => c.now ≤ now
  | .requestOutsideDialog _ _ _ | .retransmittedResponse _ _ | .writeCdr _ | .monitor _
  | .resetTrunkStats => True

instance (c : Controller) : (e : ControllerEvent) → Decidable (c.Possible e)
  | .inviteResponse orq _ _ =>
    inferInstanceAs (Decidable (∃ o ∈ c.calls.outgoing orq, o.callback = .responseToInvite ∧ o.destroyed = 0))
  | .ackOrCancel irq _ => inferInstanceAs (Decidable (∃ i ∈ c.calls.incoming irq, i.bound = true ∧ i.destroyed = 0))
  | .requestInsideDialog leg _ _ => inferInstanceAs (Decidable (leg ∈ c.calls.legs))
  | .responseInsideDialog orq _ =>
    inferInstanceAs (Decidable (∃ o ∈ c.calls.outgoing orq,
      o.callback = .responseToRequestInsideDialog ∧ o.destroyed = 0))
  | .sessionRefreshTimer leg =>
    inferInstanceAs (Decidable (∃ d ∈ c.calls.mapDialogInfo leg, d.timerSessionRefresh ≠ none))
  | .clock now => inferInstanceAs (Decidable (c.now ≤ now))
  | .requestOutsideDialog _ _ _ | .retransmittedResponse _ _ | .writeCdr _ | .monitor _
  | .resetTrunkStats => inferInstanceAs (Decidable True)

/-- The process is gone: something was used that is not there. -/
def Crashed (c : Controller) : Prop :=
  c.absent ≠ [] ∨ .endIterator ∈ c.calls.faults ∨ .legDestroyedTwice ∈ c.calls.faults

instance (c : Controller) : Decidable c.Crashed := inferInstanceAs (Decidable (_ ∨ _ ∨ _))

/-- The controller as it starts, with any configuration; `installConfig` sets how many
    routes are tried. -/
structure Initial (c : Controller) : Prop where
  nTerminationRetries : c.nTerminationRetries =
    min (UInt32.ofNat c.config.getCountOfOutboundTrunks) c.config.nMaxTerminationAttempts
  calls : c.calls = {}
  cdrs : c.cdrs = []
  attempts : c.attempts = []
  cdrWriter : ∀ w ∈ c.cdrWriter, w.queue = [] ∧ w.written = []
  absent : c.absent = []
  asserts : c.asserts = []

/-- The runs of the controller, as long as it does not crash. -/
def machine : Machine Controller ControllerEvent where
  init := { c | c.Initial }
  enabled c e := c.Possible e ∧ ¬(c.next e).Crashed
  next := next

instance (c : Controller) (e : ControllerEvent) : Decidable (machine.enabled c e) :=
  inferInstanceAs (Decidable (_ ∧ _))

/-! ## An example: a call to the only server -/

def exampleConfig : SspConfig :=
  let outbound : Outbound := { addresses := [{ address := ['t'] }], chargeNumber := ['9'] }
  (SspConfig.load [{ name := ['c'], outbound := some outbound }] 1 []).get (by decide)

/-- A controller with one carrier, whose host is `c`, and one server. -/
def exampleStart : Controller where
  config := exampleConfig
  nTerminationRetries :=
    min (UInt32.ofNat exampleConfig.getCountOfOutboundTrunks) exampleConfig.nMaxTerminationAttempts
  mapInboundCarrier := [(['c'], ['c'])]
  cdrWriter := some {}
  fsMonitor :=
    { servers := [{ strAddress := ['f'], nEventSocketPort := 8021, nMaxSessions := 10
                    state := .queryingStatus }] }

theorem exampleStart_initial : exampleStart.Initial := by
  -- The writer is there, and its queue is empty.
  refine ⟨rfl, rfl, rfl, rfl, ?_, rfl, rfl⟩
  rintro w ⟨⟩
  exact ⟨rfl, rfl⟩

/-- An INVITE of the carrier. -/
def exampleInvite : Request where
  method := .invite
  sipFrom := { tag := some ['a'] }
  sipTo := { url := { user := some ['b'] } }
  sipContact := some { url := { host := some ['c'] } }

def exampleInviteEvent : ControllerEvent := .requestOutsideDialog exampleInvite ['u'] {}

/-- The controller with the call: the transactions are `1` and `4`, the legs `2` and `3`. -/
def exampleCall : Controller := exampleStart.next exampleInviteEvent

example : exampleCall.calls.transactions.pairs = [(⟨1⟩, ⟨4⟩)] ∧
    exampleCall.calls.dialogs.pairs = [(⟨2⟩, ⟨3⟩)] := by decide

/-- An INVITE of the server `host`. -/
def serverInvite (host : Bytes) : Request where
  method := .invite
  sipFrom := { tag := some [] }
  sipTo := { url := { user := some [] } }
  sipContact := some { url := { host := some host } }
  sipPayload := some []

theorem exampleInviteEvent_enabled : machine.enabled exampleStart exampleInviteEvent :=
  ⟨trivial, by decide⟩

end Controller

end Ssp
