import Mathlib.Logic.Function.Basic
import Ssp.Controller.Sip
import Ssp.Lib.Bimap

/-!
# The tables of the calls

A call that goes through the controller has two *legs*: the A leg, on which the INVITE
came in, and the B leg, on which it is sent on. `dialogs` pairs the legs of a call, and
`transactions` pairs each request that came in with the one sent on for it, as long as
that one has no final response. Legs and transactions belong to the SIP stack (nta) and
are known by their handles; which of them exist is part of the state here.

nta gives out a handle that was never given out before, or `NULL` where it fails. A leg
is found by the Call-ID and the tags of a message exactly as long as it lives, so a
transaction is taken to know the leg it is on.

An assertion that fails is recorded as a `Fault`, and the code goes on behind it. What
has no defined behaviour at all, the end iterator that `getAssociatedDialog` reads if a
leg is on neither side, is recorded too, but then there is no next state.
-/

namespace Ssp

/-- The kinds of handles. -/
inductive HandleKind
  | leg
  | incoming
  | outgoing

/-- A handle of nta. -/
structure Handle (k : HandleKind) where
  address : ℕ
  deriving DecidableEq

/-- `NULL`. -/
def Handle.null {k : HandleKind} : Handle k := ⟨0⟩

/-- `nta_leg_t*`. -/
abbrev Leg := Handle .leg

/-- `nta_incoming_t*`. -/
abbrev Irq := Handle .incoming

/-- `nta_outgoing_t*`. -/
abbrev Orq := Handle .outgoing

/-- `call_type_t`. -/
inductive CallType
  | origination
  | termination
  | unknown
  deriving DecidableEq

/-- A server transaction: the leg it is on, whether it is bound to `handleAckOrCancel`,
    and how often it was destroyed. -/
structure Incoming where
  leg : Leg := .null
  bound : Bool := false
  destroyed : ℕ := 0
  deriving DecidableEq

/-- The callback of a client transaction. -/
inductive Callback
  | responseToInvite
  | responseToRequestInsideDialog
  deriving DecidableEq

/-- A client transaction: the leg it is on, its callback, the request, and how often it
    was destroyed. -/
structure Outgoing where
  leg : Leg
  callback : Callback
  request : OutgoingRequest
  destroyed : ℕ := 0

/-- `SipDialogInfo`. The timer has its time in milliseconds; the record of the call is
    given by its address. -/
structure SipDialogInfo where
  leg : Leg
  bOrigination : Bool
  nSessionTimer : UInt64 := 0
  timerSessionRefresh : Option UInt32 := none
  localSdp : Bytes := []
  cdr : Option ℕ := none

/-- `getSessionTimerSecs`. -/
def SipDialogInfo.getSessionTimerSecs (d : SipDialogInfo) : UInt32 := d.nSessionTimer.toUInt32

/-- A response that is passed on. -/
structure Reply where
  status : ℤ
  payload : Option Bytes := none
  /-- Session-Expires, where the controller gives its own. -/
  sessionExpires : Option Bytes := none
  /-- X-Terminating-Carrier and X-Terminating-Carrier-IP. -/
  terminatingCarrier : Option (Bytes × Bytes) := none
  deriving DecidableEq

/-- What was done, in the order it was done. -/
inductive CallEvent
  /-- `orq` was created to send on `irq`. -/
  | created (irq : Irq) (orq : Orq)
  /-- A response to `orq` was passed on to `irq`. -/
  | replied (irq : Irq) (orq : Orq) (reply : Reply)
  /-- nta answered `irq` with the status that its callback returned. -/
  | returned (irq : Irq) (status : ℤ)
  /-- A CANCEL of `irq` was handled. -/
  | cancelled (irq : Irq)
  /-- A request without a callback was sent on a leg. -/
  | sent (leg : Leg) (method : Method)

/-- The assertions of the controller. -/
inductive Assertion
  | inviteResponseNoIncoming
  | inviteResponseNoBLeg
  | inviteResponseNoALeg
  | inviteResponseNoCdr
  | requestNoOther
  | responseNoIncoming
  | responseNoLeg
  | sessionTimerNoOther
  | clearDialogNoOther
  | updateDialogNull
  | updateDialogNoInfo
  | failureCountStatus
  deriving DecidableEq

/-- What may go wrong with the tables. -/
inductive Fault
  | assertion (a : Assertion)
  /-- `getAssociatedDialog` reads the end iterator. -/
  | endIterator
  /-- `nta_leg_destroy` of a leg that is gone. -/
  | legDestroyedTwice
  deriving DecidableEq

/-- The legs and transactions of nta, and the tables of the controller. `callType` says
    of an A leg which kind of call it is of. -/
structure Calls where
  next : ℕ := 1
  legs : List Leg := []
  incoming : Irq → Option Incoming := fun _ => none
  outgoing : Orq → Option Outgoing := fun _ => none
  transactions : Bimap Irq Orq := .empty
  dialogs : Bimap Leg Leg := .empty
  mapTerminationAttempts : Orq → Option ℕ := fun _ => none
  mapDialogInfo : Leg → Option SipDialogInfo := fun _ => none
  callType : Leg → CallType := fun _ => .unknown
  log : List CallEvent := []
  faults : List Fault := []

namespace Calls

/-! ## nta -/

def fault (s : Calls) (f : Fault) : Calls := { s with faults := f :: s.faults }

def record (s : Calls) (e : CallEvent) : Calls := { s with log := e :: s.log }

/-- A new server transaction. -/
def receive (s : Calls) (leg : Leg) : Calls :=
  { s with
    next := s.next + 1
    incoming := Function.update s.incoming ⟨s.next⟩ (some { leg := leg }) }

/-- `nta_leg_tcreate`. -/
def createLeg (s : Calls) (granted : Bool) : Leg × Calls :=
  if granted then (⟨s.next⟩, { s with next := s.next + 1, legs := ⟨s.next⟩ :: s.legs })
  else (.null, s)

/-- `nta_outgoing_tcreate`, to send on `irq`. -/
def createOutgoing (s : Calls) (granted : Bool) (irq : Irq) (leg : Leg) (callback : Callback)
    (request : OutgoingRequest) : Orq × Calls :=
  if granted then
    (⟨s.next⟩,
      { s with
        next := s.next + 1
        outgoing := Function.update s.outgoing ⟨s.next⟩ (some ⟨leg, callback, request, 0⟩)
        log := .created irq ⟨s.next⟩ :: s.log })
  else (.null, s)

/-- `nta_leg_destroy`. -/
def destroyLeg (s : Calls) (leg : Leg) : Calls :=
  if leg = .null then s
  else if leg ∈ s.legs then { s with legs := s.legs.erase leg }
  else s.fault .legDestroyedTwice

/-- `nta_incoming_destroy`. -/
def destroyIncoming (s : Calls) (irq : Irq) : Calls :=
  { s with
    incoming := Function.update s.incoming irq
      ((s.incoming irq).map fun i => { i with destroyed := i.destroyed + 1 }) }

/-- `nta_outgoing_destroy`. -/
def destroyOutgoing (s : Calls) (orq : Orq) : Calls :=
  { s with
    outgoing := Function.update s.outgoing orq
      ((s.outgoing orq).map fun o => { o with destroyed := o.destroyed + 1 }) }

/-- `nta_incoming_bind`, and `nta_leg_tag` with the tag of the transaction, by which its
    leg is found later. -/
def bindIncoming (s : Calls) (irq : Irq) (leg : Leg) : Calls :=
  { s with
    incoming := Function.update s.incoming irq
      ((s.incoming irq).map fun i => { i with leg := leg, bound := true }) }

/-- The B leg of a call and the INVITE on it, to send on `irq`. The leg goes away again if
    there is no transaction for the INVITE. -/
def createInvite (s : Calls) (irq : Irq) (bLegGranted orqGranted : Bool) (request : OutgoingRequest) :
    Calls × Option (Orq × Leg) :=
  match s.createLeg bLegGranted with
  | (bLeg, s) =>
    if bLeg = .null then (s, none)
    else
      match s.createOutgoing orqGranted irq bLeg .responseToInvite request with
      | (orq, s) => if orq = .null then (s.destroyLeg bLeg, none) else (s, some (orq, bLeg))

/-- A leg, or `NULL` if it is gone. -/
def liveLeg (s : Calls) (leg : Leg) : Leg := if leg ∈ s.legs then leg else .null

/-- The leg that a server transaction is on. -/
def incomingLeg (s : Calls) (irq : Irq) : Option Leg := (s.incoming irq).map (·.leg)

/-- The leg that a client transaction is on. -/
def outgoingLeg (s : Calls) (orq : Orq) : Option Leg := (s.outgoing orq).map (·.leg)

/-- `getLegFromTransaction` of a server transaction. -/
def legFromIncoming (s : Calls) (irq : Irq) : Leg := (s.incomingLeg irq).elim .null s.liveLeg

/-- `getLegFromTransaction` of a client transaction. -/
def legFromOutgoing (s : Calls) (orq : Orq) : Leg := (s.outgoingLeg orq).elim .null s.liveLeg

/-- The status that nta's `leg_recv` answers a request with, for the status that the callback
    returned: `0` for none. -/
def legRecvStatus (destroyed : Bool) (method : Method) (status : ℤ) : ℤ :=
  let status := if destroyed ∧ status < 200 then 500 else status
  if status = 0 then 0
  else if status < 100 ∨ 699 < status then 500
  else if method = .invite ∧ 200 ≤ status ∧ status < 300 then 500
  else status

/-- The end of nta's `leg_recv`. -/
def legRecv (s : Calls) (irq : Irq) (method : Method) (status : ℤ) : Calls :=
  let status := legRecvStatus ((s.incoming irq).any fun i => i.destroyed ≠ 0) method status
  if status = 0 then s
  else
    -- The `irq_status` of an ACK is 700 from the start, so that it is never answered.
    let s := if method = .ack then s else s.record (.returned irq status)
    if 200 ≤ status then s.destroyIncoming irq else s

/-! ## Transactions -/

/-- `getAssociatedTransaction` of a client transaction. -/
def getAssociatedIncoming (s : Calls) (orq : Orq) : Irq := (s.transactions.right? orq).getD .null

/-- `getAssociatedTransaction` of a server transaction. -/
def getAssociatedOutgoing (s : Calls) (irq : Irq) : Orq := (s.transactions.left? irq).getD .null

/-- `addTransactions`. -/
def addTransactions (s : Calls) (irq : Irq) (orq : Orq) : Calls :=
  { s with transactions := s.transactions.insert irq orq }

/-- `clearTransaction` of a client transaction. -/
def clearTransaction (s : Calls) (orq : Orq) : Calls :=
  let irq := s.getAssociatedIncoming orq
  let s := { s with transactions := s.transactions.eraseRight orq }
  (s.destroyIncoming irq).destroyOutgoing orq

/-- `updateOutgoingTransaction`. -/
def updateOutgoingTransaction (s : Calls) (irq : Irq) (orq newOrq : Orq) : Calls :=
  let s := { s with transactions := s.transactions.eraseRight orq }
  (s.destroyOutgoing orq).addTransactions irq newOrq

/-! ## Attempts -/

/-- Insertion into a map that does not have the key yet. -/
def insertNew {κ ν : Type} [DecidableEq κ] (m : κ → Option ν) (k : κ) (v : ν) : κ → Option ν :=
  if (m k).isSome then m else Function.update m k (some v)

/-- `m_mapTerminationAttempts.insert`. -/
def insertAttempt (s : Calls) (orq : Orq) (t : ℕ) : Calls :=
  { s with mapTerminationAttempts := insertNew s.mapTerminationAttempts orq t }

/-- `m_mapTerminationAttempts.erase`. -/
def eraseAttempt (s : Calls) (orq : Orq) : Calls :=
  { s with mapTerminationAttempts := Function.update s.mapTerminationAttempts orq none }

/-! ## Dialogs -/

/-- `m_mapDialogInfo.insert`. -/
def insertDialogInfo (s : Calls) (leg : Leg) (d : SipDialogInfo) : Calls :=
  { s with mapDialogInfo := insertNew s.mapDialogInfo leg d }

/-- `m_mapDialogInfo.erase`. -/
def eraseDialogInfo (s : Calls) (leg : Leg) : Calls :=
  { s with mapDialogInfo := Function.update s.mapDialogInfo leg none }

/-- Setters called on the `SipDialogInfo` of a leg. -/
def updateDialogInfo (s : Calls) (leg : Leg) (f : SipDialogInfo → SipDialogInfo) : Calls :=
  { s with mapDialogInfo := Function.update s.mapDialogInfo leg ((s.mapDialogInfo leg).map f) }

/-- `getAssociatedDialog`: `none` where it reads the end iterator. -/
def getAssociatedDialog (s : Calls) (leg : Leg) : Option Leg :=
  match s.dialogs.left? leg with
  | some other => some other
  | none => s.dialogs.right? leg

/-- `addDialogs`. -/
def addDialogs (s : Calls) (aLeg bLeg : Leg) : Calls :=
  { s with dialogs := s.dialogs.insert aLeg bLeg }

/-- The erasures of `clearDialog`. -/
def eraseDialog (s : Calls) (leg : Leg) : Calls :=
  { s with dialogs := (s.dialogs.eraseLeft leg).eraseRight leg }

/-- `clearDialog`. -/
def clearDialog (s : Calls) (leg : Leg) : Calls :=
  match s.getAssociatedDialog leg with
  | none => s.fault .endIterator
  | some other =>
    let s := ((s.destroyLeg leg).eraseDialog leg).eraseDialogInfo leg
    if other = .null then s.fault (.assertion .clearDialogNoOther)
    else (s.destroyLeg other).eraseDialogInfo other

/-- `updateDialog`, after its first assertion. -/
def moveDialog (s : Calls) (oldBLeg newBLeg : Leg) : Calls :=
  match s.getAssociatedDialog oldBLeg with
  | none => s.fault .endIterator
  | some aLeg =>
    let s := { s with dialogs := s.dialogs.eraseRight oldBLeg }
    let s := (s.addDialogs aLeg newBLeg).destroyLeg oldBLeg
    match s.mapDialogInfo oldBLeg with
    | none => s.fault (.assertion .updateDialogNoInfo)
    | some p => (s.insertDialogInfo newBLeg { p with leg := newBLeg }).eraseDialogInfo oldBLeg

/-- `updateDialog`. -/
def updateDialog (s : Calls) (oldBLeg newBLeg : Leg) : Calls :=
  if oldBLeg = .null ∨ newBLeg = .null then
    (s.fault (.assertion .updateDialogNull)).moveDialog oldBLeg newBLeg
  else s.moveDialog oldBLeg newBLeg

/-! ## What the operations leave alone -/

theorem destroyLeg_frame (s : Calls) (leg : Leg) :
    ∃ legs faults, s.destroyLeg leg = { s with legs := legs, faults := faults } := by
  unfold destroyLeg
  split_ifs
  · exact ⟨s.legs, s.faults, rfl⟩
  · exact ⟨s.legs.erase leg, s.faults, rfl⟩
  · exact ⟨s.legs, _, rfl⟩

theorem clearDialog_frame (s : Calls) (leg : Leg) :
    ∃ legs dialogs info faults, s.clearDialog leg =
      { s with legs := legs, dialogs := dialogs, mapDialogInfo := info, faults := faults } := by
  unfold clearDialog
  cases s.getAssociatedDialog leg with
  | none => exact ⟨s.legs, s.dialogs, s.mapDialogInfo, _, rfl⟩
  | some other =>
    obtain ⟨legs, faults, h⟩ := s.destroyLeg_frame leg
    obtain ⟨legs', faults', h'⟩ :=
      (((s.destroyLeg leg).eraseDialog leg).eraseDialogInfo leg).destroyLeg_frame other
    dsimp only
    split_ifs
    · rw [h]
      exact ⟨_, _, _, _, rfl⟩
    · rw [h', h]
      exact ⟨_, _, _, _, rfl⟩

theorem moveDialog_frame (s : Calls) (oldBLeg newBLeg : Leg) :
    ∃ legs dialogs info faults, s.moveDialog oldBLeg newBLeg =
      { s with legs := legs, dialogs := dialogs, mapDialogInfo := info, faults := faults } := by
  unfold moveDialog
  cases s.getAssociatedDialog oldBLeg with
  | none => exact ⟨s.legs, s.dialogs, s.mapDialogInfo, _, rfl⟩
  | some aLeg =>
    obtain ⟨legs, faults, h⟩ := (addDialogs { s with dialogs := s.dialogs.eraseRight oldBLeg } aLeg
      newBLeg).destroyLeg_frame oldBLeg
    dsimp only
    rw [h]
    split <;> exact ⟨_, _, _, _, rfl⟩

theorem updateDialog_frame (s : Calls) (oldBLeg newBLeg : Leg) :
    ∃ legs dialogs info faults, s.updateDialog oldBLeg newBLeg =
      { s with legs := legs, dialogs := dialogs, mapDialogInfo := info, faults := faults } := by
  unfold updateDialog
  split_ifs
  · exact (s.fault (.assertion .updateDialogNull)).moveDialog_frame oldBLeg newBLeg
  · exact s.moveDialog_frame oldBLeg newBLeg

/-- Destroying a transaction does not change the leg that it is on. -/
@[simp]
theorem incomingLeg_clearTransaction (s : Calls) (orq : Orq) (irq : Irq) :
    (s.clearTransaction orq).incomingLeg irq = s.incomingLeg irq := by
  change (Function.update s.incoming _ _ irq).map _ = _
  by_cases h : irq = s.getAssociatedIncoming orq
  · subst h
    rw [Function.update_self, Option.map_map]
    rfl
  · rw [Function.update_of_ne h]
    rfl

theorem outgoingLeg_destroyOutgoing (s : Calls) (orq orq' : Orq) :
    (s.destroyOutgoing orq).outgoingLeg orq' = s.outgoingLeg orq' := by
  change (Function.update s.outgoing _ _ orq').map _ = _
  by_cases h : orq' = orq
  · subst h
    rw [Function.update_self, Option.map_map]
    rfl
  · rw [Function.update_of_ne h]
    rfl

@[simp]
theorem outgoingLeg_clearTransaction (s : Calls) (orq orq' : Orq) :
    (s.clearTransaction orq).outgoingLeg orq' = s.outgoingLeg orq' :=
  outgoingLeg_destroyOutgoing _ orq orq'

@[simp]
theorem clearTransaction_transactions (s : Calls) (orq : Orq) :
    (s.clearTransaction orq).transactions = s.transactions.eraseRight orq := rfl

/-- A transaction that is destroyed keeps what else is known about it. -/
theorem mem_destroyIncoming {s : Calls} {irq irq' : Irq} {i' : Incoming}
    (h : i' ∈ (s.destroyIncoming irq).incoming irq') :
    ∃ i ∈ s.incoming irq', i.leg = i'.leg ∧ i.bound = i'.bound := by
  change i' ∈ Function.update s.incoming irq _ irq' at h
  by_cases heq : irq' = irq
  · rw [heq, Function.update_self] at h
    obtain ⟨i, hi, rfl⟩ := Option.map_eq_some_iff.1 h
    exact ⟨i, heq ▸ hi, rfl, rfl⟩
  · rw [Function.update_of_ne heq] at h
    exact ⟨i', h, rfl, rfl⟩

theorem mem_destroyOutgoing {s : Calls} {orq orq' : Orq} {o' : Outgoing}
    (h : o' ∈ (s.destroyOutgoing orq).outgoing orq') :
    ∃ o ∈ s.outgoing orq', o.leg = o'.leg ∧ o.callback = o'.callback := by
  change o' ∈ Function.update s.outgoing orq _ orq' at h
  by_cases heq : orq' = orq
  · rw [heq, Function.update_self] at h
    obtain ⟨o, ho, rfl⟩ := Option.map_eq_some_iff.1 h
    exact ⟨o, heq ▸ ho, rfl, rfl⟩
  · rw [Function.update_of_ne heq] at h
    exact ⟨o', h, rfl, rfl⟩

section Frame

variable (s : Calls) (leg newLeg : Leg)

@[simp]
theorem clearDialog_next : (s.clearDialog leg).next = s.next := by
  obtain ⟨_, _, _, _, h⟩ := s.clearDialog_frame leg
  rw [h]

@[simp]
theorem clearDialog_incoming : (s.clearDialog leg).incoming = s.incoming := by
  obtain ⟨_, _, _, _, h⟩ := s.clearDialog_frame leg
  rw [h]

@[simp]
theorem clearDialog_outgoing : (s.clearDialog leg).outgoing = s.outgoing := by
  obtain ⟨_, _, _, _, h⟩ := s.clearDialog_frame leg
  rw [h]

@[simp]
theorem clearDialog_transactions : (s.clearDialog leg).transactions = s.transactions := by
  obtain ⟨_, _, _, _, h⟩ := s.clearDialog_frame leg
  rw [h]

@[simp]
theorem clearDialog_mapTerminationAttempts :
    (s.clearDialog leg).mapTerminationAttempts = s.mapTerminationAttempts := by
  obtain ⟨_, _, _, _, h⟩ := s.clearDialog_frame leg
  rw [h]

@[simp]
theorem clearDialog_callType : (s.clearDialog leg).callType = s.callType := by
  obtain ⟨_, _, _, _, h⟩ := s.clearDialog_frame leg
  rw [h]

@[simp]
theorem clearDialog_log : (s.clearDialog leg).log = s.log := by
  obtain ⟨_, _, _, _, h⟩ := s.clearDialog_frame leg
  rw [h]

@[simp]
theorem updateDialog_next : (s.updateDialog leg newLeg).next = s.next := by
  obtain ⟨_, _, _, _, h⟩ := s.updateDialog_frame leg newLeg
  rw [h]

@[simp]
theorem updateDialog_incoming : (s.updateDialog leg newLeg).incoming = s.incoming := by
  obtain ⟨_, _, _, _, h⟩ := s.updateDialog_frame leg newLeg
  rw [h]

@[simp]
theorem updateDialog_outgoing : (s.updateDialog leg newLeg).outgoing = s.outgoing := by
  obtain ⟨_, _, _, _, h⟩ := s.updateDialog_frame leg newLeg
  rw [h]

@[simp]
theorem updateDialog_transactions : (s.updateDialog leg newLeg).transactions = s.transactions := by
  obtain ⟨_, _, _, _, h⟩ := s.updateDialog_frame leg newLeg
  rw [h]

@[simp]
theorem updateDialog_mapTerminationAttempts :
    (s.updateDialog leg newLeg).mapTerminationAttempts = s.mapTerminationAttempts := by
  obtain ⟨_, _, _, _, h⟩ := s.updateDialog_frame leg newLeg
  rw [h]

@[simp]
theorem updateDialog_callType : (s.updateDialog leg newLeg).callType = s.callType := by
  obtain ⟨_, _, _, _, h⟩ := s.updateDialog_frame leg newLeg
  rw [h]

@[simp]
theorem updateDialog_log : (s.updateDialog leg newLeg).log = s.log := by
  obtain ⟨_, _, _, _, h⟩ := s.updateDialog_frame leg newLeg
  rw [h]

end Frame

end Calls

end Ssp
