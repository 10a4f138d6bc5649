import Ssp.Controller.Typed

/-!
# Requests that are sent on, or not

Three handlers send a request on: `processOriginationRequest`, `processTerminationRequest` and
the last branch of `processRequestInsideDialog`. They ask nta for legs and transactions, and
each of these may be denied. A handler should then undo what it has done and refuse the
request (`Refused`), or put it into the tables with what it was granted (`Registered`).

`allOrNothing_iff`: the handler of origination calls does so always. The one of termination
calls does not ask whether it has got an A leg, and the one of requests inside of a dialog
not whether it has got a transaction; they do so exactly if nta grants it where it matters.
-/

namespace Ssp

namespace Calls

/-- The tables and the live legs are as they were. -/
structure Untouched (s s' : Calls) : Prop where
  transactions : s'.transactions = s.transactions
  dialogs : s'.dialogs = s.dialogs
  mapDialogInfo : s'.mapDialogInfo = s.mapDialogInfo
  mapTerminationAttempts : s'.mapTerminationAttempts = s.mapTerminationAttempts
  legs : s'.legs = s.legs

/-- The request `irq` is in the tables, with a transaction and two legs that are not `NULL`, and
    no pair with a `NULL` side has come in. -/
structure Registered (s s' : Calls) (irq : Irq) : Prop where
  request : ∃ orq leg other, (irq, orq) ∈ s'.transactions ∧ s'.incomingLeg irq = some leg ∧
    s'.outgoingLeg orq = some other ∧ s'.getAssociatedDialog leg = some other ∧
    orq ≠ .null ∧ leg ≠ .null ∧ other ≠ .null
  transactions : ∀ p ∈ s'.transactions, p ∈ s.transactions ∨ p.1 ≠ .null ∧ p.2 ≠ .null
  dialogs : ∀ p ∈ s'.dialogs, p ∈ s.dialogs ∨ p.1 ≠ .null ∧ p.2 ≠ .null

section

variable {s : Calls}

theorem untouched_with (s : Calls) (n : ℕ) (incoming : Irq → Option Incoming) :
    s.Untouched { s with next := n, incoming := incoming } := ⟨rfl, rfl, rfl, rfl, rfl⟩

/-- A new request is not in the tables yet. -/
theorem Typed.irq_fresh (h : s.Typed) (orq : Orq) : (⟨s.next⟩, orq) ∉ s.transactions :=
  fun hp => (h.pairs_lt _ _ hp).1.false

theorem Typed.orq_fresh (h : s.Typed) {orq : Orq} (horq : s.next < orq.address) (irq : Irq) :
    (irq, orq) ∉ s.transactions :=
  fun hp => absurd (h.pairs_lt _ _ hp).2 (not_lt.2 horq.le)

/-- A new call is registered if it has an A leg. -/
theorem Typed.registered_openCall (h : s.Typed) {callType : CallType} {aLeg bLeg : Leg} {orq : Orq}
    {n : ℕ} (hf : Fresh s callType aLeg bLeg orq n) (request : OutgoingRequest) (info : SipDialogInfo) (t : ℕ) :
    s.Registered (s.openCall callType aLeg bLeg orq request info t n) ⟨s.next⟩ ↔ aLeg ≠ .null := by
  constructor
  · rintro ⟨⟨orq', leg, other, -, hleg, -, -, -, hnull, -⟩, -, -⟩
    have hupdate : (s.openCall callType aLeg bLeg orq request info t n).incomingLeg ⟨s.next⟩ = some aLeg := by
      change Option.map _ (Function.update s.incoming _ _ _) = _
      rw [Function.update_self]
      rfl
    rw [hupdate] at hleg
    obtain rfl := Option.some.inj hleg
    exact hnull
  · intro hnull
    have hirq : (⟨s.next⟩ : Irq) ≠ .null := Handle.mk_ne_null h.next_pos
    refine ⟨⟨orq, aLeg, bLeg, ?_, ?_, ?_, ?_, hf.orq_ne_null, hnull, hf.b_ne_null⟩, fun p hp => ?_, fun p hp => ?_⟩
    · exact (Bimap.mem_insert_of_new h.irq_fresh (h.orq_fresh hf.orq_lt)).2 (.inl rfl)
    · change Option.map _ (Function.update s.incoming _ _ _) = _
      rw [Function.update_self]
      rfl
    · change Option.map _ (Function.update s.outgoing _ _ _) = _
      rw [Function.update_self]
      rfl
    · have hleft : (s.openCall callType aLeg bLeg orq request info t n).dialogs.left? aLeg = some bLeg :=
        Bimap.left?_eq_some_iff.2 (h.mem_dialogs_openCall hf hnull)
      unfold getAssociatedDialog
      rw [hleft]
    · rcases Bimap.mem_of_mem_insert hp with rfl | hp
      · exact .inr ⟨hirq, hf.orq_ne_null⟩
      · exact .inl hp
    · rcases Bimap.mem_of_mem_insert hp with rfl | hp
      · exact .inr ⟨hnull, hf.b_ne_null⟩
      · exact .inl hp

/-- A request inside of a dialog is registered if it has a transaction. -/
theorem Typed.registered_forward (h : s.Typed) {leg other : Leg} (hleg : leg ∈ s.legs)
    (hother : s.getAssociatedDialog leg = some other) (hnull : other ≠ .null) {orq : Orq} {n : ℕ}
    (horq : orq = .null ∨ s.next < orq.address) (request : OutgoingRequest) :
    s.Registered (s.forward leg other orq request n) ⟨s.next⟩ ↔ orq ≠ .null := by
  constructor
  · rintro ⟨⟨orq', -, -, hpair, -, -, -, hnull', -⟩, -, -⟩ rfl
    rcases Bimap.mem_of_mem_insert hpair with heq | hpair
    · exact hnull' (congrArg Prod.snd heq)
    · exact h.irq_fresh orq' hpair
  · intro hne
    have hlt := horq.resolve_left hne
    have hirq : (⟨s.next⟩ : Irq) ≠ .null := Handle.mk_ne_null h.next_pos
    refine ⟨⟨orq, leg, other, ?_, ?_, ?_, hother, hne, ?_, hnull⟩, fun p hp => ?_, fun p hp => .inl hp⟩
    · exact (Bimap.mem_insert_of_new h.irq_fresh (h.orq_fresh hlt)).2 (.inl rfl)
    · change Option.map _ (Function.update s.incoming _ _ _) = _
      rw [Function.update_self]
      rfl
    · change Option.map _ ((if orq = .null then _ else _ : Orq → Option Outgoing) orq) = _
      rw [if_neg hne, Function.update_self]
      rfl
    · rintro rfl
      exact absurd (h.legs_lt _ hleg).1 (lt_irrefl 0)
    · rcases Bimap.mem_of_mem_insert hp with rfl | hp
      · exact .inr ⟨hirq, hne⟩
      · exact .inl hp

end

end Calls

namespace Controller

section

variable {c : Controller} {s : Calls} {callType : CallType} {granted : Bool} {sent : Prop} {r : Controller × ℤ}

/-! ## New calls -/

/-- What the handler of a new INVITE does: it refuses the INVITE, and nothing but the request is
    new, or the call is in the tables. It has an A leg if that was `granted`. -/
inductive Handled (s : Calls) (callType : CallType) (granted : Bool) (sent : Prop) (r : Controller × ℤ) : Prop
  | refused (n : ℕ) (incoming : Irq → Option Incoming) (hstatus : r.2 ≠ 0) (hsent : ¬sent)
      (hcalls : r.1.calls = { s with next := n, incoming := incoming })
  | opened (aLeg bLeg : Leg) (orq : Orq) (request : OutgoingRequest) (info : SipDialogInfo) (t n : ℕ)
      (hstatus : r.2 = 0) (hsent : sent) (hf : Calls.Fresh s callType aLeg bLeg orq n)
      (hgranted : aLeg ≠ .null ↔ granted = true)
      (hcalls : r.1.calls = s.openCall callType aLeg bLeg orq request info t n)

theorem Handled.imp {sent' : Prop} (h : Handled s callType granted sent r) (himp : sent ↔ sent') :
    Handled s callType granted sent' r := by
  cases h with
  | refused n incoming hstatus hsent hcalls => exact .refused n incoming hstatus (mt himp.2 hsent) hcalls
  | opened aLeg bLeg orq request info t n hstatus hsent hf hgranted hcalls =>
    exact .opened aLeg bLeg orq request info t n hstatus (himp.1 hsent) hf hgranted hcalls

theorem originate_handled (hs : c.calls = s.receive .null) (sip : Request) (carrier uuid : Bytes) (pCdr : ℕ)
    (server : FsInstance) (nta : Creations) :
    Handled s .origination true ((c.originate ⟨s.next⟩ sip carrier uuid pCdr server nta).2 = 0)
      (c.originate ⟨s.next⟩ sip carrier uuid pCdr server nta) := by
  have ha : (⟨s.next + 1⟩ : Leg) ≠ .null := Handle.mk_ne_null (by omega)
  unfold originate
  rw [hs]
  rcases createOrigination_spec s nta (c.originationInvite sip carrier uuid server) with
    ⟨n, i, -, heq⟩ | heq
  · rw [heq]
    exact .refused n _ (by simp [reject]) (by simp [reject]) rfl
  · rw [heq]
    refine .opened ⟨s.next + 1⟩ ⟨s.next + 2⟩ ⟨s.next + 3⟩ (c.originationInvite sip carrier uuid server)
      { leg := ⟨s.next + 1⟩, bOrigination := true, nSessionTimer := c.sessionTimerSecs sip
        cdr := some pCdr } 0 (s.next + 4) rfl rfl ?_ (iff_of_true ha rfl) ?_
    · exact ⟨by decide, .inr ⟨by simp, by simp⟩, by simp, by simp, by simp⟩
    · unfold Calls.openCall
      rw [if_neg ha]
      rfl

/-- **An origination call**: every failure is undone. -/
theorem processOriginationRequest_handled (hs : c.calls = s.receive .null) (sip : Request)
    (carrier uuid : Bytes) (nta : Creations) :
    Handled s .origination true ((c.processOriginationRequest ⟨s.next⟩ sip carrier uuid nta).2 = 0)
      (c.processOriginationRequest ⟨s.next⟩ sip carrier uuid nta) := by
  unfold processOriginationRequest
  have hsel := selectServer_calls (c.originationCdr sip carrier uuid).2
  rw [originationCdr_calls, hs] at hsel
  rcases heq : (c.originationCdr sip carrier uuid).2.selectServer with ⟨c', _ | server⟩ <;>
    rw [heq] at hsel <;> simp only [heq]
  -- No server is available: 486.
  · exact .refused _ _ (by simp [reject]) (by simp [reject]) hsel
  · exact originate_handled hsel sip carrier uuid _ server nta

/-- A termination call whose A leg is `aLeg`, possibly `NULL`. -/
theorem terminateOn_handled (aLeg : Leg) {n : ℕ}
    (hs : c.calls =
      { s with
        next := n
        legs := if aLeg = .null then s.legs else aLeg :: s.legs
        incoming := Function.update s.incoming ⟨s.next⟩ (some ⟨aLeg, true, 0⟩) })
    (hn : s.next < n) (haLeg : aLeg = .null ∨ s.next < aLeg.address ∧ aLeg.address < n)
    (hgranted : aLeg ≠ .null ↔ granted = true) {t : ℕ} {a : TerminationAttempt}
    (ha : c.attempts[t]? = some a) (sip : Request) (nta : Creations) :
    Handled s .termination granted (GrantsInvite nta a)
      (c.terminateOn ⟨s.next⟩ aLeg sip t nta) := by
  have hnext : c.calls.next = n := by rw [hs]
  rcases generateTerminationRequest_cases (by omega) ha ⟨s.next⟩ nta with
    ⟨hnta, n', -, heq⟩ | ⟨hnta, -⟩
  · -- The A leg goes away again.
    unfold terminateOn
    rw [heq]
    refine .refused n' (Function.update s.incoming ⟨s.next⟩ (some ⟨aLeg, true, 0⟩)) (by simp) hnta ?_
    simp only [withCalls_calls, hs]
    by_cases hnull : aLeg = .null <;> simp [Calls.destroyLeg, hnull]
  · obtain ⟨c', heq, hcalls, -⟩ := terminateOn_granted aLeg n hs hn ha hnta sip
    rw [heq]
    refine .opened aLeg ⟨n⟩ ⟨n + 1⟩ _ _ t (n + 2) rfl hnta ⟨by decide, ?_, hn, by simp, by simp⟩ hgranted hcalls
    exact haLeg.imp (fun hnull => ⟨hnull, rfl⟩) id

/-- A termination call goes on whether or not it gets an A leg. -/
theorem terminate_handled (hs : c.calls = s.receive .null) {t : ℕ} {a : TerminationAttempt}
    (ha : c.attempts[t]? = some a) (sip : Request) (nta : Creations) :
    Handled s .termination nta.aLeg (GrantsInvite nta a) (c.terminate ⟨s.next⟩ sip t nta) := by
  unfold terminate
  rw [hs]
  cases nta.aLeg with
  | false =>
    -- The transaction is bound to `NULL`.
    exact terminateOn_handled (c := c.withCalls _) .null s.bindIncoming_receive (Nat.lt_succ_self _) (.inl rfl)
      (by simp) ha sip nta
  | true =>
    have hnull : (⟨s.next + 1⟩ : Leg) ≠ .null := Handle.mk_ne_null (by omega)
    refine terminateOn_handled (s := s) (n := s.next + 2) (c := c.withCalls (Calls.bindIncoming _ _ _))
      ⟨s.next + 1⟩ ?_ (by omega) (.inr ⟨by simp, by simp⟩) (iff_of_true hnull rfl) ha sip nta
    rw [if_neg hnull]
    exact s.bindIncoming_createLeg

/-- **A termination call**: the failures that are asked for are undone. -/
theorem processTerminationRequest_handled (hs : c.calls = s.receive .null) (sip : Request) (nta : Creations) :
    Handled s .termination nta.aLeg (c.HasChargedRoute sip ∧ nta.bLeg = true ∧ nta.orq = true)
      (c.processTerminationRequest ⟨s.next⟩ sip nta) := by
  unfold processTerminationRequest HasChargedRoute
  rcases c.firstRoute sip with _ | ⟨route, config⟩
  -- No route: 480, before anything is created.
  · exact .refused _ _ (by simp) (by simp) hs
  · have hcalls : (newAttempt { c with config := config } sip route).2.calls = s.receive .null := by
      rw [newAttempt_calls, hs]
    obtain ⟨a, ha, -, hheader⟩ := newAttempt_attempt { c with config := config } sip route
    have hsent : GrantsInvite nta a ↔
        (∃ p ∈ some (route, config), p.1.chargeNumber ≠ []) ∧ nta.bLeg = true ∧ nta.orq = true := by
      simpa using grantsInvite_first hheader nta
    exact (terminate_handled hcalls ha sip nta).imp hsent

end

end Controller

/-- A handler that sends a request on. -/
inductive SendingHandler
  | processOriginationRequest (sip : Request) (carrier uuid : Bytes)
  | processTerminationRequest (sip : Request)
  | processRequestInsideDialog (leg : Leg) (sip : Request)

namespace Controller

/-- The handler runs, for a request that nta has just received. -/
def send (c : Controller) (nta : Creations) : SendingHandler → Controller × ℤ
  | .processOriginationRequest sip carrier uuid =>
    (c.withCalls (c.calls.receive .null)).processOriginationRequest ⟨c.calls.next⟩ sip carrier uuid nta
  | .processTerminationRequest sip =>
    (c.withCalls (c.calls.receive .null)).processTerminationRequest ⟨c.calls.next⟩ sip nta
  | .processRequestInsideDialog leg sip =>
    (c.withCalls (c.calls.receive leg)).processRequestInsideDialog leg ⟨c.calls.next⟩ sip nta

/-- A request inside of a dialog is sent on if it is no BYE or ACK, and its leg has another one. -/
def SendsOn (c : Controller) : SendingHandler → Prop
  | .processOriginationRequest _ _ _ | .processTerminationRequest _ => True
  | .processRequestInsideDialog leg sip => leg ∈ c.calls.legs ∧ sip.method ≠ .bye ∧ sip.method ≠ .ack ∧
    ∃ other, c.calls.getAssociatedDialog leg = some other ∧ other ≠ .null

/-- The request is refused and nothing has changed, or it is in the tables. -/
def AllOrNothing (c : Controller) (r : Controller × ℤ) : Prop :=
  r.2 ≠ 0 ∧ c.calls.Untouched r.1.calls ∨ r.2 = 0 ∧ c.calls.Registered r.1.calls ⟨c.calls.next⟩

/-- nta grants what is not asked for: the A leg of a termination call that is sent on, and the
    transaction of a request inside of a dialog. -/
def GrantsUnasked (c : Controller) (nta : Creations) : SendingHandler → Prop
  | .processOriginationRequest _ _ _ => True
  | .processTerminationRequest sip =>
    c.HasChargedRoute sip → nta.bLeg = true → nta.orq = true → nta.aLeg = true
  | .processRequestInsideDialog _ _ => nta.orq = true

section

variable {c : Controller}

/-- A handler that returns `0` has registered the request. -/
theorem allOrNothing_of_sentOn {r : Controller × ℤ} (hstatus : r.2 = 0) :
    c.AllOrNothing r ↔ c.calls.Registered r.1.calls ⟨c.calls.next⟩ :=
  ⟨fun h => (h.resolve_left fun h => h.1 hstatus).2, fun h => .inr ⟨hstatus, h⟩⟩

/-- A new call is registered, or nothing is left of it, if it has an A leg. -/
theorem Handled.allOrNothing {callType : CallType} {granted : Bool} {sent : Prop} {r : Controller × ℤ}
    (hr : Handled c.calls callType granted sent r) (h : c.calls.Typed) :
    c.AllOrNothing r ↔ (sent → granted = true) := by
  cases hr with
  | refused n incoming hstatus hsent hcalls =>
    -- Only the request is new, and it is in no table.
    refine iff_of_true (.inl ⟨hstatus, ?_⟩) fun hs => absurd hs hsent
    rw [hcalls]
    exact c.calls.untouched_with n incoming
  | opened aLeg bLeg orq request info t n hstatus hsent hf hgranted hcalls =>
    rw [allOrNothing_of_sentOn hstatus, hcalls, h.registered_openCall hf, hgranted]
    exact ⟨fun hg _ => hg, fun hg => hg hsent⟩

/-- A request inside of a dialog is registered, whether or not there is a transaction for it. -/
theorem requestInsideDialog_allOrNothing_iff (h : c.calls.Typed) {leg : Leg} {sip : Request}
    (hsends : c.SendsOn (.processRequestInsideDialog leg sip)) (nta : Creations) :
    c.AllOrNothing (c.send nta (.processRequestInsideDialog leg sip)) ↔ nta.orq = true := by
  obtain ⟨hleg, hbye, hack, other, hother, hnull⟩ := hsends
  have horq : (⟨c.calls.next + 1⟩ : Orq) ≠ .null := Handle.mk_ne_null (by omega)
  have hsend : c.send nta (.processRequestInsideDialog leg sip) =
      ((c.withCalls (c.calls.receive leg)).sendOn other ⟨c.calls.next⟩ sip nta, 0) := by
    change (c.withCalls (c.calls.receive leg)).processRequestInsideDialog leg _ sip nta = _
    unfold processRequestInsideDialog
    rw [show (c.withCalls (c.calls.receive leg)).calls.getAssociatedDialog leg = some other from hother]
    dsimp only
    rw [if_neg hnull]
    unfold processMethod
    cases hm : sip.method with
    | bye => exact absurd hm hbye
    | ack => exact absurd hm hack
    | invite | cancel | options | other name => simp only [if_neg hnull]
  rw [hsend, allOrNothing_of_sentOn rfl]
  unfold sendOn
  cases nta.orq with
  | false =>
    -- The pair with `NULL` is in the tables, which is no registration.
    have hreg := h.registered_forward hleg hother hnull (n := c.calls.next + 1) (.inl rfl) (forwardedRequest sip)
    exact hreg.trans (iff_of_false (fun hne => hne rfl) Bool.false_ne_true)
  | true =>
    have hlt : (⟨c.calls.next + 1⟩ : Orq) = .null ∨ c.calls.next < c.calls.next + 1 := .inr (Nat.lt_succ_self _)
    have hreg := h.registered_forward hleg hother hnull (n := c.calls.next + 2) hlt (forwardedRequest sip)
    unfold Calls.forward at hreg
    rw [if_neg horq, if_neg horq] at hreg
    exact hreg.trans (iff_of_true horq rfl)

/-- **All or nothing**: a handler that sends a request on refuses it and leaves everything as it
    was, or registers it, exactly if nta grants what the handler does not ask for. -/
theorem allOrNothing_iff (hc : machine.Reachable c) {h : SendingHandler} (hsends : c.SendsOn h)
    (nta : Creations) : c.AllOrNothing (c.send nta h) ↔ c.GrantsUnasked nta h := by
  have htyped := typed_of_reachable hc
  cases h with
  | processOriginationRequest sip carrier uuid =>
    have hhandled := processOriginationRequest_handled (c := c.withCalls (c.calls.receive .null)) rfl sip carrier
      uuid nta
    exact iff_of_true ((hhandled.allOrNothing htyped).2 fun _ => rfl) trivial
  | processTerminationRequest sip =>
    have hhandled := processTerminationRequest_handled (c := c.withCalls (c.calls.receive .null)) rfl sip nta
    refine (hhandled.allOrNothing htyped).trans ?_
    exact ⟨fun h hroute hb ho => h ⟨hroute, hb, ho⟩, fun h hsent => h hsent.1 hsent.2.1 hsent.2.2⟩
  | processRequestInsideDialog leg sip => exact requestInsideDialog_allOrNothing_iff htyped hsends nta

end

/-- An OPTIONS inside of a dialog is sent on. -/
theorem allOrNothing_exampleCall :
    exampleCall.AllOrNothing
      (exampleCall.send {} (.processRequestInsideDialog ⟨2⟩ { method := .options })) :=
  (allOrNothing_iff (c := exampleCall) (h := .processRequestInsideDialog ⟨2⟩ { method := .options })
    (.step (.init exampleStart_initial) exampleInviteEvent_enabled)
    ⟨by decide, by decide, by decide, ⟨3⟩, by decide, by decide⟩ {}).2 rfl

/-- The transaction for an OPTIONS inside of a dialog is denied. -/
theorem denied_not_allOrNothing :
    ¬∀ (c : Controller) (h : SendingHandler) (nta : Creations), machine.Reachable c → c.SendsOn h →
      c.AllOrNothing (c.send nta h) := by
  intro h
  have hreach : machine.Reachable exampleCall := .step (.init exampleStart_initial) exampleInviteEvent_enabled
  have hbad := h exampleCall (.processRequestInsideDialog ⟨2⟩ { method := .options }) { orq := false } hreach
    ⟨by decide, by decide, by decide, ⟨3⟩, by decide, by decide⟩
  rcases hbad with ⟨hstatus, -⟩ | ⟨-, hreg⟩
  · exact hstatus (by decide)
  · rcases hreg.transactions (⟨5⟩, .null) (by decide) with hmem | ⟨-, hnull⟩
    · exact absurd hmem (by decide)
    · exact hnull rfl

end Controller

end Ssp
