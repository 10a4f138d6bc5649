import Mathlib.Logic.Relation
import Ssp.Controller.Machine

/-!
# How the tables change

Every event of the controller changes the tables by a few steps of the kinds that
`CallStep` lists, each with what is known when it is taken
(`Controller.callSteps_next`). An invariant of the tables is proved for these steps; how
the controller comes to take them does not matter any more.

Two parameters say how the environment behaves. `granted`: nta grants what the code asks
for without a check, the A leg of a termination call and the transaction for a request
inside of a dialog. `calm`: no leg is taken away while a pair of transactions is on it,
other than the one that ends with it.
-/

namespace Ssp

namespace Calls

/-! ## The steps -/

/-- No pair of transactions is on a leg. -/
def Quiet (s : Calls) (leg : Leg) : Prop :=
  ∀ irq orq, (irq, orq) ∈ s.transactions → s.incomingLeg irq ≠ some leg ∧ s.outgoingLeg orq ≠ some leg

/-- Why an assertion fails. -/
def Violated (s : Calls) : Assertion → Prop
  | .inviteResponseNoIncoming | .responseNoIncoming =>
    ∃ orq, (∃ o ∈ s.outgoing orq, o.destroyed = 0) ∧ s.getAssociatedIncoming orq = .null
  | .inviteResponseNoBLeg | .responseNoLeg =>
    ∃ irq orq, (irq, orq) ∈ s.transactions ∧ (∃ o ∈ s.outgoing orq, o.destroyed = 0) ∧
      s.legFromOutgoing orq = .null
  | .inviteResponseNoALeg =>
    ∃ irq orq, (irq, orq) ∈ s.transactions ∧ (∃ o ∈ s.outgoing orq, o.destroyed = 0) ∧
      s.legFromIncoming irq = .null
  | .requestNoOther | .sessionTimerNoOther => ∃ leg, s.getAssociatedDialog leg = some .null
  | .inviteResponseNoCdr | .clearDialogNoOther | .updateDialogNull | .updateDialogNoInfo
  | .failureCountStatus => False

/-- A response to `orq` can be passed on to `irq`. -/
structure Relayable (s : Calls) (irq : Irq) (orq : Orq) : Prop where
  pair : (irq, orq) ∈ s.transactions
  pending : ∃ o ∈ s.outgoing orq, o.destroyed = 0 ∧
    (o.callback = .responseToInvite → s.legFromIncoming irq ≠ .null)

/-- The call of a new INVITE. -/
def openCall (s : Calls) (callType : CallType) (aLeg bLeg : Leg) (orq : Orq)
    (request : OutgoingRequest) (info : SipDialogInfo) (t n : ℕ) : Calls :=
  { s with
    next := n
    legs := if aLeg = .null then bLeg :: s.legs else bLeg :: aLeg :: s.legs
    incoming := Function.update s.incoming ⟨s.next⟩ (some ⟨aLeg, true, 0⟩)
    outgoing := Function.update s.outgoing orq (some ⟨bLeg, .responseToInvite, request, 0⟩)
    transactions := s.transactions.insert ⟨s.next⟩ orq
    dialogs := s.dialogs.insert aLeg bLeg
    mapTerminationAttempts :=
      if callType = .termination then insertNew s.mapTerminationAttempts orq t
      else s.mapTerminationAttempts
    mapDialogInfo := insertNew s.mapDialogInfo info.leg info
    callType := Function.update s.callType aLeg callType
    log := .created ⟨s.next⟩ orq :: s.log }

/-- A request inside of a dialog, sent on if `orq` is not `NULL`. -/
def forward (s : Calls) (leg other : Leg) (orq : Orq) (request : OutgoingRequest) (n : ℕ) : Calls :=
  { s with
    next := n
    incoming := Function.update s.incoming ⟨s.next⟩ (some ⟨leg, false, 0⟩)
    outgoing :=
      if orq = .null then s.outgoing
      else Function.update s.outgoing orq
        (some ⟨other, .responseToRequestInsideDialog, request, 0⟩)
    transactions := s.transactions.insert ⟨s.next⟩ orq
    log := if orq = .null then s.log else .created ⟨s.next⟩ orq :: s.log }

/-- A request that no call comes from; `status` is what it is answered with, unless it is an ACK. -/
def refuse (s : Calls) (i : Incoming) (status : Option ℤ) (n : ℕ) : Calls :=
  { s with
    next := n
    incoming := Function.update s.incoming ⟨s.next⟩ (some i)
    log := (status.map (.returned ⟨s.next⟩)).toList ++ s.log }

/-- A final response is passed on, and acknowledged on the legs `acks`. -/
def settle (s : Calls) (irq : Irq) (orq : Orq) (reply : Reply) (acks : List Leg) : Calls :=
  clearTransaction { s with log := acks.map (.sent · .ack) ++ .replied irq orq reply :: s.log } orq

/-- Another attempt takes the place of the one of `orq`. -/
def replaceAttempt (s : Calls) (irq : Irq) (orq orqNew : Orq) (bLeg bLegNew : Leg)
    (request : OutgoingRequest) (t n : ℕ) : Calls :=
  let s :=
    { s with
      next := n
      legs := bLegNew :: s.legs
      outgoing := Function.update s.outgoing orqNew (some ⟨bLegNew, .responseToInvite, request, 0⟩)
      log := .created irq orqNew :: s.log }
  let s := s.updateOutgoingTransaction irq orq orqNew
  ((s.eraseAttempt orq).insertAttempt orqNew t).updateDialog bLeg bLegNew

section

variable (s : Calls) (irq : Irq) (orq orqNew : Orq) (bLeg bLegNew : Leg) (request : OutgoingRequest)
  (t n : ℕ)

@[simp]
theorem replaceAttempt_next :
    (s.replaceAttempt irq orq orqNew bLeg bLegNew request t n).next = n := by
  simp only [replaceAttempt, updateDialog_next]
  rfl

@[simp]
theorem replaceAttempt_incoming :
    (s.replaceAttempt irq orq orqNew bLeg bLegNew request t n).incoming = s.incoming := by
  simp only [replaceAttempt, updateDialog_incoming]
  rfl

@[simp]
theorem replaceAttempt_outgoing :
    (s.replaceAttempt irq orq orqNew bLeg bLegNew request t n).outgoing =
      (destroyOutgoing { s with
        outgoing := Function.update s.outgoing orqNew (some ⟨bLegNew, .responseToInvite, request, 0⟩) }
        orq).outgoing := by
  simp only [replaceAttempt, updateDialog_outgoing]
  rfl

@[simp]
theorem replaceAttempt_transactions :
    (s.replaceAttempt irq orq orqNew bLeg bLegNew request t n).transactions =
      (s.transactions.eraseRight orq).insert irq orqNew := by
  simp only [replaceAttempt, updateDialog_transactions]
  rfl

@[simp]
theorem replaceAttempt_mapTerminationAttempts :
    (s.replaceAttempt irq orq orqNew bLeg bLegNew request t n).mapTerminationAttempts =
      insertNew (Function.update s.mapTerminationAttempts orq none) orqNew t := by
  simp only [replaceAttempt, updateDialog_mapTerminationAttempts]
  rfl

@[simp]
theorem replaceAttempt_log :
    (s.replaceAttempt irq orq orqNew bLeg bLegNew request t n).log = .created irq orqNew :: s.log := by
  simp only [replaceAttempt, updateDialog_log]
  rfl

/-- The attempt is on its new leg; nothing else moves. -/
theorem outgoingLeg_replaceAttempt (o : Orq) :
    (s.replaceAttempt irq orq orqNew bLeg bLegNew request t n).outgoingLeg o =
      if o = orqNew then some bLegNew else s.outgoingLeg o := by
  rw [outgoingLeg, replaceAttempt_outgoing]
  refine (outgoingLeg_destroyOutgoing _ orq o).trans ?_
  change Option.map _ (Function.update s.outgoing orqNew _ o) = _
  split_ifs with heq
  · rw [heq, Function.update_self]
    rfl
  · rw [Function.update_of_ne heq]
    rfl

end

end Calls

/-- A step of the tables. -/
inductive CallStep (granted calm : Prop) (s : Calls) : Calls → Prop
  | sent (leg : Leg) (method : Method) : CallStep granted calm s (s.record (.sent leg method))
  | assertion (a : Assertion) (h : s.Violated a) : CallStep granted calm s (s.fault (.assertion a))
  | endIterator (leg : Leg) (hleg : leg ∈ s.legs ∨ s.mapDialogInfo leg ≠ none)
      (h : s.getAssociatedDialog leg = none) : CallStep granted calm s (s.fault .endIterator)
  | receive (leg : Leg) : CallStep granted calm s (s.receive leg)
  | advance (n : ℕ) (hn : s.next ≤ n) : CallStep granted calm s { s with next := n }
  | refuse (i : Incoming) (status : Option ℤ) (n : ℕ) (hn : s.next < n) (hstatus : ∀ r ∈ status, 200 ≤ r) :
      CallStep granted calm s (s.refuse i status n)
  | openCall (callType : CallType) (aLeg bLeg : Leg) (orq : Orq) (request : OutgoingRequest)
      (info : SipDialogInfo) (t n : ℕ) (hinfo : info.leg = if callType = .termination then bLeg else aLeg)
      (htype : callType ≠ .unknown ∧ info.bOrigination = decide (callType = .origination))
      (ha : aLeg = .null ∨ s.next < aLeg.address ∧ aLeg.address < bLeg.address)
      (hgranted : aLeg = .null → callType = .termination ∧ ¬granted)
      (hb : s.next < bLeg.address) (horq : bLeg.address < orq.address) (hn : orq.address < n) :
      CallStep granted calm s (s.openCall callType aLeg bLeg orq request info t n)
  | forward (leg other : Leg) (orq : Orq) (request : OutgoingRequest) (n : ℕ) (hleg : leg ∈ s.legs)
      (hother : s.getAssociatedDialog leg = some other) (hnull : other ≠ .null)
      (horq : orq = .null ∨ s.next < orq.address ∧ orq.address < n) (hgranted : orq = .null → ¬granted)
      (hn : s.next < n) : CallStep granted calm s (s.forward leg other orq request n)
  | updateDialogInfo (leg : Leg) (f : SipDialogInfo → SipDialogInfo)
      (hf : ∀ d, (f d).leg = d.leg ∧ (f d).bOrigination = d.bOrigination) :
      CallStep granted calm s (s.updateDialogInfo leg f)
  | eraseAttempt (orq : Orq) : CallStep granted calm s (s.eraseAttempt orq)
  | relay (irq : Irq) (orq : Orq) (reply : Reply) (h : s.Relayable irq orq)
      (hstatus : reply.status < 200) : CallStep granted calm s (s.record (.replied irq orq reply))
  | settle (irq : Irq) (orq : Orq) (reply : Reply) (acks : List Leg) (h : s.Relayable irq orq)
      (hstatus : 200 ≤ reply.status) : CallStep granted calm s (s.settle irq orq reply acks)
  | cancel (irq : Irq) (orq : Orq) (hpair : (irq, orq) ∈ s.transactions)
      (hleg : s.legFromIncoming irq ≠ .null) :
      CallStep granted calm s
        (((s.record (.cancelled irq)).destroyOutgoing orq).clearTransaction orq)
  | cancelLate (irq : Irq) (hbound : ∃ i ∈ s.incoming irq, i.bound = true)
      (h : s.getAssociatedOutgoing irq = .null ∨ s.legFromIncoming irq = .null) :
      CallStep granted calm s (s.record (.cancelled irq))
  | clearDialog (leg : Leg) (hleg : leg ∈ s.legs ∨ s.mapDialogInfo leg ≠ none)
      (hcalm : calm → s.Quiet leg) : CallStep granted calm s (s.clearDialog leg)
  | replaceAttempt (irq : Irq) (orq orqNew : Orq) (bLeg bLegNew : Leg) (request : OutgoingRequest)
      (t n : ℕ) (h : s.Relayable irq orq) (hleg : s.legFromOutgoing orq = bLeg) (hlive : bLeg ∈ s.legs)
      (hinvite : ∃ o ∈ s.outgoing orq, o.callback = .responseToInvite)
      (ht : s.mapTerminationAttempts orq ≠ none)
      (hcalm : calm → Calls.Quiet { s with transactions := s.transactions.eraseRight orq } bLeg)
      (hb : s.next ≤ bLegNew.address) (horq : bLegNew.address < orqNew.address)
      (hn : orqNew.address < n) :
      CallStep granted calm s (s.replaceAttempt irq orq orqNew bLeg bLegNew request t n)

/-- The steps of one event. -/
abbrev CallSteps (granted calm : Prop) : Calls → Calls → Prop :=
  Relation.ReflTransGen (CallStep granted calm)

/-! ## The environment -/

/-- The INVITE of a termination call: it goes to `processTerminationRequest`. -/
def Controller.Terminates (c : Controller) (sip : Request) : Prop :=
  sip.validateSipMessage = 0 ∧ sip.method = .invite ∧
    (c.determineCallType (sip.contactHost?.getD [])).1 = .termination

/-- A request on a leg that is sent on to the other side. -/
def Controller.Forwards (c : Controller) (leg : Leg) (sip : Request) : Prop :=
  sip.method ≠ .bye ∧ sip.method ≠ .ack ∧ ∃ other ∈ c.calls.getAssociatedDialog leg, other ≠ .null

/-- nta grants what the code asks for without a check: the A leg of a termination call, and the
    transaction of a request that is sent on. -/
def Controller.Provided (c : Controller) : ControllerEvent → Prop
  | .requestOutsideDialog sip _ nta => c.Terminates sip → nta.aLeg = true
  | .requestInsideDialog leg sip nta => c.Forwards leg sip → nta.orq = true
  | _ => True

/-- An event that takes legs away, a failure or a redirect of the INVITE, a CANCEL, a BYE or
    the session timer, comes when no other pair of transactions is on the call. -/
def Controller.Undisturbed (c : Controller) : ControllerEvent → Prop
  | .inviteResponse orq sip _ => 200 ≤ sip.status → sip.status ≠ 200 → ∀ leg ∈ c.calls.outgoingLeg orq,
    Calls.Quiet { c.calls with transactions := c.calls.transactions.eraseRight orq } leg
  | .ackOrCancel irq method => method = .cancel → ∀ leg ∈ c.calls.incomingLeg irq,
    Calls.Quiet { c.calls with transactions := c.calls.transactions.eraseLeft irq } leg
  | .requestInsideDialog leg sip _ => sip.method = .bye → c.calls.Quiet leg
  | .sessionRefreshTimer leg => c.calls.Quiet leg
  | _ => True

/-- Moreover, every request inside of a dialog was sent on. -/
def Controller.Calm (c : Controller) (e : ControllerEvent) : Prop :=
  c.Undisturbed e ∧ ∀ irq, (irq, .null) ∉ c.calls.transactions

end Ssp
