import Ssp.Controller.CallStep

/-!
# The controller takes the steps of the tables

One lemma for each callback of the controller says how it changes the tables;
`callSteps_next` puts them together. The lemmas say all that can happen and nothing of
how it is decided: the statuses of responses, routes, servers and records are gone.
-/

namespace Ssp

theorem Handle.mk_ne_null {k : HandleKind} {n : ℕ} (h : 0 < n) : (⟨n⟩ : Handle k) ≠ .null := by
  intro heq
  have := congrArg Handle.address heq
  simp [Handle.null] at this
  omega

namespace Calls

/-- What is asked of nta with an INVITE: it fails and leaves nothing behind, or there are a new
    leg and a new transaction. -/
theorem createInvite_spec {s : Calls} (hs : 0 < s.next) (irq : Irq) (bLegGranted orqGranted : Bool)
    (request : OutgoingRequest) :
    (∃ n, s.next ≤ n ∧
        s.createInvite irq bLegGranted orqGranted request = ({ s with next := n }, none)) ∨
      s.createInvite irq bLegGranted orqGranted request =
        ({ s with
            next := s.next + 2
            legs := ⟨s.next⟩ :: s.legs
            outgoing := Function.update s.outgoing ⟨s.next + 1⟩
              (some ⟨⟨s.next⟩, .responseToInvite, request, 0⟩)
            log := .created irq ⟨s.next + 1⟩ :: s.log },
          some (⟨s.next + 1⟩, ⟨s.next⟩)) := by
  have hb : (⟨s.next⟩ : Leg) ≠ .null := Handle.mk_ne_null hs
  have ho : (⟨s.next + 1⟩ : Orq) ≠ .null := Handle.mk_ne_null (by omega)
  cases bLegGranted with
  | false => exact .inl ⟨s.next, le_rfl, by simp [createInvite, createLeg]⟩
  | true =>
    cases orqGranted with
    | false =>
      refine .inl ⟨s.next + 1, by omega, ?_⟩
      simp [createInvite, createLeg, createOutgoing, destroyLeg, hb]
    | true =>
      right
      simp [createInvite, createLeg, createOutgoing, hb, ho]

/-- The A leg of a call for a new request, and the request bound to it. -/
theorem bindIncoming_createLeg (s : Calls) :
    ((s.receive .null).createLeg true).2.bindIncoming ⟨s.next⟩ ⟨s.next + 1⟩ =
      { s with
        next := s.next + 2
        legs := ⟨s.next + 1⟩ :: s.legs
        incoming := Function.update s.incoming ⟨s.next⟩ (some ⟨⟨s.next + 1⟩, true, 0⟩) } := by
  simp [createLeg, receive, bindIncoming]

theorem bindIncoming_receive (s : Calls) :
    (s.receive .null).bindIncoming ⟨s.next⟩ .null =
      { s with
        next := s.next + 1
        incoming := Function.update s.incoming ⟨s.next⟩ (some ⟨.null, true, 0⟩) } := by
  simp [receive, bindIncoming]

theorem destroyLeg_with (s : Calls) (n : ℕ) (incoming : Irq → Option Incoming) (leg : Leg) :
    destroyLeg { s with next := n, incoming := incoming } leg =
      { s.destroyLeg leg with next := n, incoming := incoming } := by
  by_cases hnull : leg = .null
  · simp [destroyLeg, hnull]
  · by_cases hleg : leg ∈ s.legs <;> simp [destroyLeg, hnull, hleg, fault]

/-- `clearDialog` has nothing to do with the handles and the server transactions. -/
theorem clearDialog_with (s : Calls) (n : ℕ) (incoming : Irq → Option Incoming) (leg : Leg) :
    clearDialog { s with next := n, incoming := incoming } leg =
      { s.clearDialog leg with next := n, incoming := incoming } := by
  unfold clearDialog
  have hother : getAssociatedDialog { s with next := n, incoming := incoming } leg =
    s.getAssociatedDialog leg := rfl
  rw [hother]
  cases s.getAssociatedDialog leg with
  | none => rfl
  | some other =>
    dsimp only
    by_cases hnull : other = .null
    · simp only [hnull, if_true, destroyLeg_with]
      rfl
    · simp only [hnull, if_false, destroyLeg_with]
      exact congrArg (eraseDialogInfo · other)
        (destroyLeg_with (((s.destroyLeg leg).eraseDialog leg).eraseDialogInfo leg) n incoming other)

end Calls

namespace Controller

/-! ## New requests -/

/-- What becomes of a new request: it is refused, or it is sent on. -/
inductive RequestOutcome (granted : Prop) (s : Calls) (r : Controller × ℤ) : Prop
  | refused (n : ℕ) (i : Incoming) (hn : s.next < n)
      (hcalls : r.1.calls =
        { s with next := n, incoming := Function.update s.incoming ⟨s.next⟩ (some i) })
      (hstatus : 200 ≤ r.2 ∨ i.destroyed ≠ 0)
  | sentOn (hstep : ∀ calm, CallStep granted calm s r.1.calls)
      (hpending : ∃ i ∈ r.1.calls.incoming ⟨s.next⟩, i.destroyed = 0) (hstatus : r.2 = 0)

/-- The legs and the INVITE of an origination call, if they can be had. -/
theorem createOrigination_spec (s : Calls) (nta : Creations) (request : OutgoingRequest) :
    (∃ n i, s.next < n ∧ createOrigination (s.receive .null) ⟨s.next⟩ nta request =
        ({ s with next := n, incoming := Function.update s.incoming ⟨s.next⟩ (some i) }, none)) ∨
      createOrigination (s.receive .null) ⟨s.next⟩ nta request =
        ({ s with
            next := s.next + 4
            legs := ⟨s.next + 2⟩ :: ⟨s.next + 1⟩ :: s.legs
            incoming := Function.update s.incoming ⟨s.next⟩ (some ⟨⟨s.next + 1⟩, true, 0⟩)
            outgoing := Function.update s.outgoing ⟨s.next + 3⟩
              (some ⟨⟨s.next + 2⟩, .responseToInvite, request, 0⟩)
            log := .created ⟨s.next⟩ ⟨s.next + 3⟩ :: s.log },
          some (⟨s.next + 1⟩, ⟨s.next + 3⟩, ⟨s.next + 2⟩)) := by
  have ha : (⟨s.next + 1⟩ : Leg) ≠ .null := Handle.mk_ne_null (by omega)
  unfold createOrigination
  cases nta.aLeg with
  | false => exact .inl ⟨s.next + 1, {}, by omega, rfl⟩
  | true =>
    have hleg : ((s.receive .null).createLeg true).1 = ⟨s.next + 1⟩ := rfl
    simp only [hleg, if_neg ha, s.bindIncoming_createLeg]
    rcases Calls.createInvite_spec
        (s := { s with
          next := s.next + 2
          legs := ⟨s.next + 1⟩ :: s.legs
          incoming := Function.update s.incoming ⟨s.next⟩ (some ⟨⟨s.next + 1⟩, true, 0⟩) })
        (by exact Nat.succ_pos _) ⟨s.next⟩ nta.bLeg nta.orq request with ⟨n, hn, heq⟩ | heq
    · refine .inl ⟨n, ⟨⟨s.next + 1⟩, true, 0⟩, ?_, ?_⟩
      · change s.next + 2 ≤ n at hn
        omega
      · simp [heq, Calls.destroyLeg, ha]
    · exact .inr (by simp [heq])

theorem originate_outcome {c : Controller} {s : Calls} (hc : c.calls = s.receive .null)
    (granted : Prop) (sip : Request) (carrier uuid : Bytes) (pCdr : ℕ) (server : FsInstance)
    (nta : Creations) :
    RequestOutcome granted s (c.originate ⟨s.next⟩ sip carrier uuid pCdr server nta) := by
  have ha : (⟨s.next + 1⟩ : Leg) ≠ .null := Handle.mk_ne_null (by omega)
  unfold originate
  rw [hc]
  rcases createOrigination_spec s nta (c.originationInvite sip carrier uuid server) with
    ⟨n, i, hn, heq⟩ | heq
  · rw [heq]
    exact .refused n i hn rfl (.inl (by simp [reject]))
  · rw [heq]
    refine .sentOn (fun calm => ?_) ⟨⟨⟨s.next + 1⟩, true, 0⟩, ?_, rfl⟩ rfl
    · have hopen := @CallStep.openCall granted calm s .origination ⟨s.next + 1⟩ ⟨s.next + 2⟩ ⟨s.next + 3⟩
        (c.originationInvite sip carrier uuid server)
        { leg := ⟨s.next + 1⟩, bOrigination := true, nSessionTimer := c.sessionTimerSecs sip, cdr := some pCdr }
        0 (s.next + 4) rfl ⟨by decide, rfl⟩ (.inr ⟨by simp, by simp⟩) (fun h => absurd h ha)
        (by simp) (by simp) (by simp)
      unfold Calls.openCall at hopen
      rw [if_neg ha] at hopen
      exact hopen
    · exact Function.update_self _ _ _

theorem processOriginationRequest_outcome {c : Controller} {s : Calls}
    (hc : c.calls = s.receive .null) (granted : Prop) (sip : Request) (carrier uuid : Bytes)
    (nta : Creations) :
    RequestOutcome granted s (c.processOriginationRequest ⟨s.next⟩ sip carrier uuid nta) := by
  unfold processOriginationRequest
  have hsel := selectServer_calls (c.originationCdr sip carrier uuid).2
  rw [originationCdr_calls, hc] at hsel
  rcases h : (c.originationCdr sip carrier uuid).2.selectServer with ⟨c', _ | server⟩ <;>
    rw [h] at hsel <;> simp only [h]
  · exact .refused (s.next + 1) {} (by omega) hsel (.inl (by simp [reject]))
  · exact originate_outcome hsel granted sip carrier uuid _ server nta

/-- Another INVITE for an attempt: it fails and leaves nothing behind, or there are a new leg
    and a new transaction. -/
theorem generateTerminationRequest_spec {c : Controller} (hs : 0 < c.calls.next) (t : ℕ) (irq : Irq)
    (nta : Creations) :
    (∃ n, c.calls.next ≤ n ∧ (c.generateTerminationRequest t irq nta).2 = none ∧
        (c.generateTerminationRequest t irq nta).1.calls = { c.calls with next := n }) ∨
      (∃ request, (c.generateTerminationRequest t irq nta).2 =
          some (⟨c.calls.next + 1⟩, ⟨c.calls.next⟩) ∧
        (c.generateTerminationRequest t irq nta).1.calls =
          { c.calls with
            next := c.calls.next + 2
            legs := ⟨c.calls.next⟩ :: c.calls.legs
            outgoing := Function.update c.calls.outgoing ⟨c.calls.next + 1⟩
              (some ⟨⟨c.calls.next⟩, .responseToInvite, request, 0⟩)
            log := .created irq ⟨c.calls.next + 1⟩ :: c.calls.log }) := by
  unfold generateTerminationRequest
  cases c.attempts[t]? with
  | none => exact .inl ⟨c.calls.next, le_rfl, rfl, rfl⟩
  | some a =>
    rcases Calls.createInvite_spec hs irq nta.bLeg (orqGranted nta a) (terminationInvite a) with
      ⟨n, hn, heq⟩ | heq
    · exact .inl ⟨n, hn, by simp [heq], by simp [heq]⟩
    · exact .inr ⟨terminationInvite a, by simp [heq], by simp [heq]⟩

/-- A termination call whose A leg is `aLeg`, possibly `NULL`. -/
theorem terminateOn_outcome {c : Controller} {s : Calls} (aLeg : Leg) (n : ℕ) {granted : Prop}
    (hc : c.calls =
      { s with
        next := n
        legs := if aLeg = .null then s.legs else aLeg :: s.legs
        incoming := Function.update s.incoming ⟨s.next⟩ (some ⟨aLeg, true, 0⟩) })
    (hn : s.next < n) (ha : aLeg = .null ∨ s.next < aLeg.address ∧ aLeg.address < n)
    (hgranted : aLeg = .null → ¬granted) (sip : Request) (t : ℕ) (nta : Creations) :
    RequestOutcome granted s (c.terminateOn ⟨s.next⟩ aLeg sip t nta) := by
  unfold terminateOn
  have hnext : c.calls.next = n := by rw [hc]
  rcases hgen : c.generateTerminationRequest t ⟨s.next⟩ nta with ⟨c', r⟩
  have hspec := generateTerminationRequest_spec (c := c) (by omega) t ⟨s.next⟩ nta
  rw [hgen] at hspec
  rcases hspec with ⟨n', hn', hr, hcalls⟩ | ⟨request, hr, hcalls⟩
  · -- The A leg goes away again.
    rw [hnext] at hn'
    obtain rfl : r = none := hr
    refine .refused n' ⟨aLeg, true, 0⟩ (by omega) ?_ (.inl (by simp))
    change c'.calls.destroyLeg aLeg = _
    change c'.calls = _ at hcalls
    rw [hcalls, hc]
    by_cases hnull : aLeg = .null <;> simp [Calls.destroyLeg, hnull]
  · rw [hnext] at hr hcalls
    obtain rfl : r = some (⟨n + 1⟩, ⟨n⟩) := hr
    change c'.calls = _ at hcalls
    refine .sentOn (fun calm => ?_) ⟨⟨aLeg, true, 0⟩, ?_, rfl⟩ rfl
    · have hopen := @CallStep.openCall granted calm s .termination aLeg ⟨n⟩ ⟨n + 1⟩ request
        { leg := ⟨n⟩, bOrigination := false, localSdp := sip.sipPayload.getD [] }
        t (n + 2) rfl ⟨by decide, rfl⟩ ha (fun h => ⟨rfl, hgranted h⟩) hn (by simp) (by simp)
      convert hopen using 1
      simp only [withCalls_calls, require_calls, hcalls, hc]
      by_cases hnull : aLeg = .null <;>
        simp [addTermination, Calls.openCall, Calls.insertAttempt, Calls.insertDialogInfo,
          Calls.addTransactions, Calls.addDialogs, hnull]
    · simp [addTermination, Calls.insertAttempt, Calls.insertDialogInfo,
          Calls.addTransactions, Calls.addDialogs, hcalls, hc]

theorem terminate_outcome {c : Controller} {s : Calls} (hc : c.calls = s.receive .null)
    (sip : Request) (t : ℕ) {nta : Creations} {granted : Prop} (hgranted : granted → nta.aLeg = true) :
    RequestOutcome granted s (c.terminate ⟨s.next⟩ sip t nta) := by
  have ha : (⟨s.next + 1⟩ : Leg) ≠ .null := Handle.mk_ne_null (by omega)
  unfold terminate
  rw [hc]
  cases hgrant : nta.aLeg with
  | false =>
    exact terminateOn_outcome .null (s.next + 1) s.bindIncoming_receive (by omega) (.inl rfl)
      (fun _ h => Bool.false_ne_true (hgrant.symm.trans (hgranted h))) sip t nta
  | true =>
    refine terminateOn_outcome ⟨s.next + 1⟩ (s.next + 2) ?_ (by omega) (.inr ⟨by simp, by simp⟩)
      (fun h => absurd h ha) sip t nta
    rw [if_neg ha]
    exact s.bindIncoming_createLeg

theorem processTerminationRequest_outcome {c : Controller} {s : Calls}
    (hc : c.calls = s.receive .null) (sip : Request) {nta : Creations} {granted : Prop}
    (hgranted : granted → nta.aLeg = true) :
    RequestOutcome granted s (c.processTerminationRequest ⟨s.next⟩ sip nta) := by
  unfold processTerminationRequest
  rcases c.firstRoute sip with _ | ⟨route, config⟩
  · exact .refused (s.next + 1) {} (by omega) hc (.inl (by simp))
  · have hc' : (newAttempt { c with config := config } sip route).2.calls = s.receive .null := by
      rw [newAttempt_calls, hc]
    exact terminate_outcome hc' sip _ hgranted

theorem RequestOutcome.countDown {granted : Prop} {s : Calls} {r : Controller × ℤ}
    (h : RequestOutcome granted s r) : RequestOutcome granted s (countDown r) := by
  obtain ⟨n, i, hn, hcalls, hstatus⟩ | ⟨hstep, hpending, hstatus⟩ := h
  · exact .refused n i hn ((countDown_calls r).trans hcalls) hstatus
  · refine .sentOn ?_ ?_ hstatus <;> rwa [countDown_calls]

theorem determineCallType_require (c : Controller) (a : Absent) (there : Bool) (host : Bytes) :
    (c.require a there).determineCallType host = c.determineCallType host := by
  unfold require
  split_ifs <;> rfl

theorem processInvite_outcome {c : Controller} {s : Calls} (hc : c.calls = s.receive .null)
    (sip : Request) (uuid : Bytes) {nta : Creations} {granted : Prop}
    (hgranted : (c.determineCallType (sip.contactHost?.getD [])).1 = .termination → granted → nta.aLeg = true) :
    RequestOutcome granted s (c.processInvite ⟨s.next⟩ sip uuid nta) := by
  have hc' := require_calls c .requestContactHost sip.contactHost?.isSome
  rw [hc] at hc'
  unfold processInvite
  dsimp only
  rw [determineCallType_require]
  rcases hcall : c.determineCallType (sip.contactHost?.getD []) with ⟨_ | _ | _, carrier⟩ <;> rw [hcall] at hgranted
  · dsimp only
    split_ifs
    · exact .refused (s.next + 1) {} (by omega) hc' (.inl (by simp [reject]))
    · exact (processOriginationRequest_outcome hc' _ sip _ uuid nta).countDown
  · exact (processTerminationRequest_outcome hc' sip (hgranted rfl)).countDown
  · exact .refused (s.next + 1) {} (by omega) hc' (.inl (by simp [reject]))

theorem validateSipMessage_of_ne {sip : Request} (h : sip.validateSipMessage ≠ 0) :
    sip.validateSipMessage = 400 := by
  unfold Request.validateSipMessage at *
  split_ifs at * <;> simp_all

theorem processRequestOutsideDialog_outcome {c : Controller} {s : Calls}
    (hc : c.calls = s.receive .null) (sip : Request) (uuid : Bytes) {nta : Creations} {granted : Prop}
    (hgranted : c.Terminates sip → granted → nta.aLeg = true) :
    RequestOutcome granted s (c.processRequestOutsideDialog ⟨s.next⟩ sip uuid nta) := by
  -- A request that is destroyed in its callback.
  have hdestroyed : RequestOutcome granted s
      (c.withCalls (c.calls.destroyIncoming ⟨s.next⟩), 0) := by
    refine .refused (s.next + 1) ⟨.null, false, 1⟩ (by omega) ?_ (.inr (by simp))
    simp [hc, Calls.receive, Calls.destroyIncoming]
  -- A request that is answered at once.
  have hanswered : ∀ c' : Controller, c'.calls = c.calls → ∀ status : ℤ, 200 ≤ status →
      RequestOutcome granted s (c', status) := fun c' hc' status hstatus =>
    .refused (s.next + 1) {} (by omega) (hc'.trans hc) (.inl hstatus)
  unfold processRequestOutsideDialog
  split
  · exact hanswered c rfl _ (by rw [validateSipMessage_of_ne ‹_›]; decide)
  · rename_i hvalid
    split
    · split
      · exact hdestroyed
      · dsimp only
        split
        · exact hanswered _ (require_calls c _ _) 200 (by decide)
        · exact hanswered _ (require_calls c _ _) 403 (by decide)
    · exact hdestroyed
    · rename_i hinvite
      exact processInvite_outcome hc sip uuid fun htype => hgranted ⟨not_not.1 hvalid, hinvite, htype⟩
    · exact hanswered c rfl 481 (by decide)
    · exact hanswered c rfl 501 (by decide)
    · exact hanswered c rfl 501 (by decide)

theorem legRecvStatus_final {destroyed : Bool} {status : ℤ} (h : 200 ≤ status ∨ destroyed = true)
    (method : Method) : 200 ≤ Calls.legRecvStatus destroyed method status := by
  unfold Calls.legRecvStatus
  dsimp only
  split_ifs <;> grind

/-- The end of a request that is refused. -/
theorem legRecv_eq_refuse {s : Calls} {n : ℕ} {i : Incoming} {status : ℤ}
    (hstatus : 200 ≤ status ∨ i.destroyed ≠ 0) (method : Method) : ∃ i' status', i'.destroyed ≠ 0 ∧
      (∀ r ∈ status', 200 ≤ r) ∧
      Calls.legRecv { s with next := n, incoming := Function.update s.incoming ⟨s.next⟩ (some i) } ⟨s.next⟩
        method status = s.refuse i' status' n := by
  have hfinal : 200 ≤ Calls.legRecvStatus (decide (i.destroyed ≠ 0)) method status :=
    legRecvStatus_final (by simpa using hstatus) method
  refine ⟨{ i with destroyed := i.destroyed + 1 },
    if method = .ack then none else some (Calls.legRecvStatus (decide (i.destroyed ≠ 0)) method status),
    Nat.succ_ne_zero _, fun r hr => ?_, ?_⟩
  · split_ifs at hr
    · cases hr
    · exact Option.some_inj.1 hr ▸ hfinal
  · simp only [Calls.legRecv, Function.update_self, Option.any_some]
    rw [if_neg (by omega), if_pos hfinal]
    split_ifs <;> simp [Calls.record, Calls.destroyIncoming, Calls.refuse]

theorem legRecv_refused {granted calm : Prop} {s : Calls} {n : ℕ} {i : Incoming} {status : ℤ}
    (hn : s.next < n) (hstatus : 200 ≤ status ∨ i.destroyed ≠ 0) (method : Method) :
    CallStep granted calm s
      (Calls.legRecv { s with next := n, incoming := Function.update s.incoming ⟨s.next⟩ (some i) }
        ⟨s.next⟩ method status) := by
  obtain ⟨i', status', -, hfinal, heq⟩ := @legRecv_eq_refuse s n i status hstatus method
  rw [heq]
  exact .refuse i' status' n hn hfinal

/-- The end of a request: nta answers it if it was refused. -/
theorem RequestOutcome.legRecv {granted calm : Prop} {s : Calls} {r : Controller × ℤ}
    (h : RequestOutcome granted s r) (method : Method) :
    CallStep granted calm s (r.1.calls.legRecv ⟨s.next⟩ method r.2) := by
  obtain ⟨n, i, hn, hcalls, hstatus⟩ | ⟨hstep, ⟨i, hi, hdestroyed⟩, hstatus⟩ := h
  · rw [hcalls]
    exact legRecv_refused hn hstatus method
  · have hi' : r.1.calls.incoming ⟨s.next⟩ = some i := hi
    simp only [Calls.legRecv, Calls.legRecvStatus, hi', hstatus, Option.any_some, hdestroyed]
    exact hstep calm

theorem callStep_requestOutsideDialog (c : Controller) (sip : Request) (uuid : Bytes)
    {nta : Creations} (calm : Prop) {granted : Prop} (hgranted : c.Terminates sip → granted → nta.aLeg = true) :
    CallStep granted calm c.calls (c.requestOutsideDialog sip uuid nta).calls :=
  (processRequestOutsideDialog_outcome (c := c.withCalls (c.calls.receive .null)) (s := c.calls) rfl sip uuid
    hgranted).legRecv sip.method

/-! ## Requests inside of a dialog -/

/-- The state of a request inside of a dialog that is refused. -/
theorem refused_receive {granted calm : Prop} {s : Calls} {leg : Leg} {destroyed : ℕ} {status : ℤ}
    (h : 200 ≤ status ∨ destroyed ≠ 0) (method : Method) :
    CallStep granted calm s
      (Calls.legRecv
        { s with
          next := s.next + 1
          incoming := Function.update s.incoming ⟨s.next⟩ (some ⟨leg, false, destroyed⟩) }
        ⟨s.next⟩ method status) :=
  legRecv_refused (by omega) h method

/-- A BYE, once it was sent on. -/
theorem callSteps_clearDialog {granted calm : Prop} {s : Calls} {leg : Leg} (hleg : leg ∈ s.legs)
    (hcalm : calm → s.Quiet leg) (method : Method) :
    CallSteps granted calm s
      ((((s.receive leg).clearDialog leg).destroyIncoming ⟨s.next⟩).legRecv ⟨s.next⟩ method 200) := by
  refine .tail (.single (.clearDialog leg (.inl hleg) hcalm)) ?_
  have hstep := @refused_receive granted calm (s.clearDialog leg) leg 1 200 (.inl le_rfl) method
  rw [Calls.clearDialog_next, Calls.clearDialog_incoming] at hstep
  convert hstep using 2
  rw [Calls.receive, Calls.clearDialog_with]
  simp [Calls.destroyIncoming]

theorem callSteps_bye {granted calm : Prop} {c : Controller} {s : Calls} {leg : Leg}
    (hc : c.calls = s.receive leg) (hleg : leg ∈ s.legs) (hcalm : calm → s.Quiet leg) (other : Leg)
    (method : Method) :
    CallSteps granted calm s
      ((c.processBye leg other ⟨s.next⟩).calls.legRecv ⟨s.next⟩ method 200) := by
  unfold processBye
  by_cases hnull : other = .null
  · simp only [if_pos hnull, hc]
    exact callSteps_clearDialog hleg hcalm method
  · simp only [if_neg hnull, reportBye_calls, withCalls_calls, hc]
    exact .head (.sent other .bye) (callSteps_clearDialog (s := s.record (.sent other .bye)) hleg hcalm method)

theorem sendOn_outcome {c : Controller} {s : Calls} {leg other : Leg} (hc : c.calls = s.receive leg)
    (hleg : leg ∈ s.legs) (hother : s.getAssociatedDialog leg = some other) (hnull : other ≠ .null)
    (sip : Request) {nta : Creations} {granted : Prop} (hgranted : granted → nta.orq = true) :
    RequestOutcome granted s (c.sendOn other ⟨s.next⟩ sip nta, 0) := by
  have horq : (⟨s.next + 1⟩ : Orq) ≠ .null := Handle.mk_ne_null (by omega)
  unfold sendOn
  rw [hc]
  cases hgrant : nta.orq with
  | false =>
    refine .sentOn (fun calm => ?_) ⟨⟨leg, false, 0⟩, Function.update_self _ _ _, rfl⟩ rfl
    exact @CallStep.forward _ calm s leg other .null (forwardedRequest sip) (s.next + 1) hleg hother
      hnull (.inl rfl) (fun _ h => Bool.false_ne_true (hgrant.symm.trans (hgranted h))) (by omega)
  | true =>
    refine .sentOn (fun calm => ?_) ⟨⟨leg, false, 0⟩, Function.update_self _ _ _, rfl⟩ rfl
    have hstep := @CallStep.forward granted calm s leg other ⟨s.next + 1⟩
      (forwardedRequest sip) (s.next + 2) hleg hother hnull (.inr ⟨by simp, by simp⟩)
      (fun h => absurd h horq) (by omega)
    unfold Calls.forward at hstep
    rw [if_neg horq, if_neg horq] at hstep
    exact hstep

/-- A request on a leg, of any method. -/
theorem callSteps_processMethod {calm : Prop} {c : Controller} {s : Calls} {leg other : Leg}
    (hc : c.calls = s.receive leg) (hleg : leg ∈ s.legs) (hother : s.getAssociatedDialog leg = some other)
    {sip : Request} {nta : Creations} {granted : Prop}
    (hgranted : sip.method ≠ .bye → sip.method ≠ .ack → other ≠ .null → granted → nta.orq = true)
    (hcalm : calm → sip.method = .bye → s.Quiet leg) :
    CallSteps granted calm s
      ((c.processMethod leg other ⟨s.next⟩ sip nta).1.calls.legRecv ⟨s.next⟩ sip.method
        (c.processMethod leg other ⟨s.next⟩ sip nta).2) := by
  have hforward : sip.method ≠ .bye → sip.method ≠ .ack → RequestOutcome granted s
      (if other = .null then (c, 481) else (c.sendOn other ⟨s.next⟩ sip nta, 0)) := by
    intro hbye hack
    by_cases hnull : other = .null
    · rw [if_pos hnull]
      exact .refused (s.next + 1) ⟨leg, false, 0⟩ (by omega) hc (.inl (by simp))
    · rw [if_neg hnull]
      exact sendOn_outcome hc hleg hother hnull sip (hgranted hbye hack hnull)
  unfold processMethod
  cases hm : sip.method with
  | bye => exact callSteps_bye hc hleg (fun h => hcalm h hm) other .bye
  | ack =>
    refine .single ?_
    convert @refused_receive _ calm s leg 1 0 (.inr one_ne_zero) .ack using 2
    simp [hc, Calls.receive, Calls.destroyIncoming]
  | invite => exact .single ((hforward (by simp [hm]) (by simp [hm])).legRecv .invite)
  | cancel => exact .single ((hforward (by simp [hm]) (by simp [hm])).legRecv .cancel)
  | options => exact .single ((hforward (by simp [hm]) (by simp [hm])).legRecv .options)
  | other name => exact .single ((hforward (by simp [hm]) (by simp [hm])).legRecv (.other name))

theorem callSteps_requestInsideDialog {c : Controller} {leg : Leg} (hleg : leg ∈ c.calls.legs)
    {sip : Request} {nta : Creations} {granted calm : Prop}
    (hgranted : c.Forwards leg sip → granted → nta.orq = true)
    (hcalm : calm → sip.method = .bye → c.calls.Quiet leg) :
    CallSteps granted calm c.calls (c.requestInsideDialog leg sip nta).calls := by
  unfold requestInsideDialog processRequestInsideDialog
  have hdialog : (c.withCalls (c.calls.receive leg)).calls.getAssociatedDialog leg =
    c.calls.getAssociatedDialog leg := rfl
  simp only [hdialog]
  cases hother : c.calls.getAssociatedDialog leg with
  | none =>
    -- The end iterator was read.
    refine .tail (.single (.receive leg)) ?_
    have hstep := @CallStep.endIterator granted calm (c.calls.receive leg) leg (.inl hleg) hother
    convert hstep using 1
    simp [Calls.legRecv, Calls.legRecvStatus, Calls.fault, Calls.receive]
  | some other =>
    by_cases hnull : other = .null
    · simp only [if_pos hnull]
      refine .head (.assertion .requestNoOther ⟨leg, hnull ▸ hother⟩) ?_
      exact callSteps_processMethod (s := c.calls.fault (.assertion .requestNoOther)) rfl hleg hother
        (fun _ _ h => absurd hnull h) hcalm
    · simp only [if_neg hnull]
      exact callSteps_processMethod rfl hleg hother (fun hbye hack _ => hgranted ⟨hbye, hack, other, hother, hnull⟩)
        hcalm

/-! ## CANCEL -/

theorem mem_of_getAssociatedOutgoing {s : Calls} {irq : Irq} (h : s.getAssociatedOutgoing irq ≠ .null) :
    (irq, s.getAssociatedOutgoing irq) ∈ s.transactions := by
  unfold Calls.getAssociatedOutgoing at *
  cases hl : s.transactions.left? irq with
  | none => simp [hl] at h
  | some orq => exact Bimap.left?_eq_some_iff.1 hl

theorem not_mem_of_getAssociatedOutgoing {s : Calls} (hs : ∀ irq, (irq, .null) ∉ s.transactions)
    {irq : Irq} (h : s.getAssociatedOutgoing irq = .null) (orq : Orq) : (irq, orq) ∉ s.transactions := by
  intro hmem
  unfold Calls.getAssociatedOutgoing at h
  rw [Bimap.left?_eq_some_iff.2 hmem] at h
  obtain rfl : orq = .null := h
  exact hs irq hmem

theorem legFromIncoming_spec {s : Calls} {irq : Irq} (h : s.legFromIncoming irq ≠ .null) :
    s.incomingLeg irq = some (s.legFromIncoming irq) ∧ s.legFromIncoming irq ∈ s.legs := by
  unfold Calls.legFromIncoming Calls.liveLeg at *
  cases hi : s.incomingLeg irq with
  | none => simp [hi] at h
  | some leg =>
    by_cases hleg : leg ∈ s.legs
    · simp [hleg]
    · simp [hi, hleg] at h

theorem legFromOutgoing_spec {s : Calls} {orq : Orq} (h : s.legFromOutgoing orq ≠ .null) :
    s.outgoingLeg orq = some (s.legFromOutgoing orq) ∧ s.legFromOutgoing orq ∈ s.legs := by
  unfold Calls.legFromOutgoing Calls.liveLeg at *
  cases ho : s.outgoingLeg orq with
  | none => simp [ho] at h
  | some leg =>
    by_cases hleg : leg ∈ s.legs
    · simp [hleg]
    · simp [ho, hleg] at h

theorem callSteps_cancel {granted : Prop} {c : Controller} {irq : Irq}
    (hbound : ∃ i ∈ c.calls.incoming irq, i.bound = true) :
    CallSteps granted (c.Calm (.ackOrCancel irq .cancel)) c.calls (c.processCancel irq).calls := by
  unfold processCancel
  have horq : (c.withCalls (c.calls.record (.cancelled irq))).calls.getAssociatedOutgoing irq =
    c.calls.getAssociatedOutgoing irq := rfl
  have hleg : (c.withCalls (c.calls.record (.cancelled irq))).calls.legFromIncoming irq =
    c.calls.legFromIncoming irq := rfl
  simp only [horq, hleg]
  by_cases hnull : c.calls.getAssociatedOutgoing irq = .null
  · rw [if_pos hnull]
    by_cases hleg : c.calls.legFromIncoming irq = .null
    · rw [if_pos hleg]
      exact .single (.cancelLate irq hbound (.inl hnull))
    · rw [if_neg hleg]
      obtain ⟨hon, hlive⟩ := legFromIncoming_spec hleg
      refine .tail (.single (.cancelLate irq hbound (.inl hnull))) (.clearDialog _ (.inl hlive) ?_)
      rintro ⟨hcalm, hsent⟩ i o hmem
      refine hcalm rfl _ hon i o (Bimap.mem_eraseLeft.2 ⟨hmem, ?_⟩)
      rintro rfl
      exact not_mem_of_getAssociatedOutgoing hsent hnull o hmem
  · rw [if_neg hnull]
    by_cases hleg : c.calls.legFromIncoming irq = .null
    · rw [if_pos hleg]
      exact .single (.cancelLate irq hbound (.inr hleg))
    · rw [if_neg hleg]
      obtain ⟨hon, hlive⟩ := legFromIncoming_spec hleg
      have hpair := mem_of_getAssociatedOutgoing hnull
      rw [withCalls_calls, reportCancel_calls, withCalls_calls]
      refine .tail (.tail (.single (.cancel irq _ hpair hleg)) (.clearDialog _ (.inl hlive) ?_))
        (.eraseAttempt _)
      rintro ⟨hcalm, -⟩ i o hmem
      obtain ⟨hmem, hne⟩ := Bimap.mem_eraseRight.1 hmem
      rw [Calls.incomingLeg_clearTransaction, Calls.outgoingLeg_clearTransaction,
        Calls.outgoingLeg_destroyOutgoing]
      refine hcalm rfl _ hon i o (Bimap.mem_eraseLeft.2 ⟨hmem, ?_⟩)
      rintro rfl
      exact hne (Bimap.left_unique hmem hpair)

/-! ## The session timer -/

theorem callSteps_sessionRefreshTimer {granted : Prop} (c : Controller) (leg : Leg) :
    CallSteps granted (c.Calm (.sessionRefreshTimer leg)) c.calls
      (c.processSessionRefreshTimer leg).calls := by
  unfold processSessionRefreshTimer
  cases hd : c.calls.mapDialogInfo leg with
  | none => exact .refl
  | some d =>
    refine .head (.updateDialogInfo leg (fun d => { d with timerSessionRefresh := none })
      fun _ => ⟨rfl, rfl⟩) ?_
    have hinfo : (c.calls.updateDialogInfo leg fun d =>
        { d with timerSessionRefresh := none }).mapDialogInfo leg ≠ none := by
      simp [Calls.updateDialogInfo, hd]
    dsimp only
    cases hother : (c.calls.updateDialogInfo leg fun d =>
      { d with timerSessionRefresh := none }).getAssociatedDialog leg with
    | none => exact .single (.endIterator leg (.inr hinfo) hother)
    | some other =>
      by_cases hnull : other = .null
      · simp only [if_pos hnull]
        exact .head (.assertion .sessionTimerNoOther ⟨leg, hnull ▸ hother⟩)
          (.single (.clearDialog leg (.inr hinfo) fun h => h.1))
      · simp only [if_neg hnull]
        exact .single (.clearDialog leg (.inr hinfo) fun h => h.1)

/-! ## Responses -/

theorem mem_of_getAssociatedIncoming {s : Calls} {orq : Orq} (h : s.getAssociatedIncoming orq ≠ .null) :
    (s.getAssociatedIncoming orq, orq) ∈ s.transactions := by
  unfold Calls.getAssociatedIncoming at *
  cases hr : s.transactions.right? orq with
  | none => simp [hr] at h
  | some irq => exact Bimap.right?_eq_some_iff.1 hr

theorem callSteps_responseInsideDialog {granted calm : Prop} {c : Controller} {orq : Orq}
    (horq : ∃ o ∈ c.calls.outgoing orq, o.callback = .responseToRequestInsideDialog ∧ o.destroyed = 0)
    (sip : Response) :
    CallSteps granted calm c.calls (c.processResponseInsideDialog orq sip).calls := by
  obtain ⟨o, ho, hcallback, hdestroyed⟩ := horq
  unfold processResponseInsideDialog
  by_cases hnull : c.calls.getAssociatedIncoming orq = .null
  · rw [if_pos hnull]
    exact .single (.assertion .responseNoIncoming ⟨orq, ⟨o, ho, hdestroyed⟩, hnull⟩)
  · rw [if_neg hnull]
    have hpair := mem_of_getAssociatedIncoming hnull
    have hrelay : c.calls.Relayable (c.calls.getAssociatedIncoming orq) orq :=
      ⟨hpair, o, ho, hdestroyed, fun h => by simp [hcallback] at h⟩
    unfold acknowledge
    by_cases hfinal : 200 ≤ sip.status
    · simp only [if_pos hfinal]
      split_ifs with hack hleg
      · -- The leg is gone.
        refine .head (.assertion .responseNoLeg ⟨_, orq, hpair, ⟨o, ho, hdestroyed⟩, hleg⟩) ?_
        exact .single (.settle (s := c.calls.fault (.assertion .responseNoLeg)) _ orq _ []
          ⟨hrelay.pair, hrelay.pending⟩ hfinal)
      · simp only [withCalls_calls, require_calls]
        exact .single (.settle _ orq _ [_] hrelay hfinal)
      · exact .single (.settle _ orq _ [] hrelay hfinal)
    · rw [if_neg hfinal, if_neg (by omega)]
      exact .single (.relay _ orq _ hrelay (not_le.1 hfinal))

theorem callSteps_retransmittedResponse {granted calm : Prop} (c : Controller) (leg : Leg)
    (sip : Response) :
    CallSteps granted calm c.calls (c.processRetransmittedResponse leg sip).calls := by
  unfold processRetransmittedResponse
  split
  · simp only [withCalls_calls, require_calls]
    exact .single (.sent leg .ack)
  · exact .refl

/-! ## Responses to the INVITE -/

/-- What is decided about a final response: the call is answered, it fails, or another attempt
    takes its place. -/
inductive Decided (s : Calls) (irq : Irq) (orq : Orq) (bLeg : Leg) (status : ℤ) (d : Decision) : Prop
  | answered (info : Leg → Option SipDialogInfo)
      (hsteps : ∀ granted calm, CallSteps granted calm s d.controller.calls)
      (hcalls : d.controller.calls =
        { s with mapDialogInfo := info, log := .sent bLeg .ack :: s.log })
      (hflags : d.bProxyResponse = true ∧ d.bClearTransaction = true ∧ d.bDestroyLegs = false)
  | failed (hstatus : status ≠ 200) (n : ℕ) (hn : s.next ≤ n) (hcalls : d.controller.calls = { s with next := n })
      (hflags : d.bProxyResponse = true ∧ d.bClearTransaction = true ∧ d.bDestroyLegs = true)
  | replaced (hstatus : status ≠ 200) (request : OutgoingRequest) (t : ℕ) (ht : s.mapTerminationAttempts orq ≠ none)
      (hcalls : d.controller.calls =
        s.replaceAttempt irq orq ⟨s.next + 1⟩ bLeg ⟨s.next⟩ request t (s.next + 2))
      (hflags : d.bProxyResponse = false ∧ d.bClearTransaction = false ∧ d.bDestroyLegs = false)

theorem Decided.fail {s : Calls} {c : Controller} (hc : c.calls = s) (irq : Irq) (orq : Orq)
    (bLeg : Leg) {status : ℤ} (hstatus : status ≠ 200) : Decided s irq orq bLeg status (.fail c) :=
  .failed hstatus s.next le_rfl hc ⟨rfl, rfl, rfl⟩

theorem retry_decided {s : Calls} {c : Controller} (hc : c.calls = s) (hs : 0 < s.next) (t : ℕ)
    (irq : Irq) {orq : Orq} (ht : s.mapTerminationAttempts orq ≠ none) (bLeg : Leg) (nta : Creations)
    {status : ℤ} (hstatus : status ≠ 200) :
    Decided s irq orq bLeg status (c.retry t irq orq bLeg nta) := by
  subst hc
  unfold retry
  have hspec := generateTerminationRequest_spec hs t irq nta
  rcases hgen : c.generateTerminationRequest t irq nta with ⟨c', r⟩
  rw [hgen] at hspec
  rcases hspec with ⟨n, hn, hr, hcalls⟩ | ⟨request, hr, hcalls⟩
  · obtain rfl : r = none := hr
    exact .failed hstatus n hn hcalls ⟨rfl, rfl, rfl⟩
  · obtain rfl : r = some (⟨c.calls.next + 1⟩, ⟨c.calls.next⟩) := hr
    refine .replaced hstatus request t ht ?_ ⟨rfl, rfl, rfl⟩
    change c'.calls = _ at hcalls
    simp only [Decision.swallow, withCalls_calls, hcalls]
    rfl

theorem processRedirect_decided {s : Calls} {c : Controller} (hc : c.calls = s) (hs : 0 < s.next)
    (t : ℕ) (irq : Irq) {orq : Orq} (ht : s.mapTerminationAttempts orq ≠ none) (bLeg : Leg)
    (sip : Response) (nta : Creations) (hstatus : sip.status ≠ 200) :
    Decided s irq orq bLeg sip.status (c.processRedirect t irq orq bLeg sip nta) := by
  unfold processRedirect
  refine retry_decided ?_ hs t irq ht bLeg nta hstatus
  rw [redirect_calls, require_calls, hc]

theorem processCrankback_decided {s : Calls} {c : Controller} (hc : c.calls = s) (hs : 0 < s.next)
    (t : ℕ) (a : TerminationAttempt) (irq : Irq) {orq : Orq}
    (ht : s.mapTerminationAttempts orq ≠ none) (bLeg : Leg) (sip : Response) (nta : Creations)
    (hstatus : sip.status ≠ 200) :
    Decided s irq orq bLeg sip.status (c.processCrankback t a irq orq bLeg sip nta) := by
  unfold processCrankback
  split_ifs
  · rcases c.config.getTerminationRouteForAltCarrier a.carrier with _ | ⟨route, config⟩
    · exact .fail hc irq orq bLeg hstatus
    · refine retry_decided ?_ hs t irq ht bLeg nta hstatus
      rw [crankback_calls, postFinalResponse_calls]
      exact hc
  · exact .fail hc irq orq bLeg hstatus

/-- The session timer changes nothing but the information about the A leg. -/
theorem startSessionTimer_spec (c : Controller) (aLeg : Leg) (d : SipDialogInfo) (nta : Creations) :
    (∃ info, (c.startSessionTimer aLeg d nta).calls = { c.calls with mapDialogInfo := info }) ∧
      ∀ granted calm, CallSteps granted calm c.calls (c.startSessionTimer aLeg d nta).calls := by
  unfold startSessionTimer
  split_ifs
  · exact ⟨⟨_, rfl⟩, fun _ _ => .single (.updateDialogInfo aLeg _ fun _ => ⟨rfl, rfl⟩)⟩
  · exact ⟨⟨_, rfl⟩, fun _ _ => .refl⟩

theorem processAnswer_decided {s : Calls} {c : Controller} (hc : c.calls = s) (irq : Irq) (orq : Orq)
    (aLeg bLeg : Leg) (pDialog : Option SipDialogInfo) (sip : Response) (nta : Creations) :
    Decided s irq orq bLeg sip.status (c.processAnswer aLeg bLeg pDialog sip nta) := by
  subst hc
  unfold processAnswer
  cases pDialog with
  | none =>
    have hcalls : (withCalls (c.require .responseContact sip.sipContact.isSome)
        ((c.require .responseContact sip.sipContact.isSome).calls.record (.sent bLeg .ack))).calls =
        c.calls.record (.sent bLeg .ack) := by
      rw [withCalls_calls, require_calls]
    refine .answered c.calls.mapDialogInfo (fun _ _ => ?_) hcalls ⟨rfl, rfl, rfl⟩
    rw [hcalls]
    exact .single (.sent bLeg .ack)
  | some d =>
    have hdecided : ∀ c' : Controller,
        c'.calls = (c.calls.record (.sent bLeg .ack)).updateDialogInfo aLeg
          (fun d => { d with localSdp := sip.sipPayload.getD [] }) →
        Decided c.calls irq orq bLeg sip.status
          { controller := c'.startSessionTimer aLeg d nta, bClearTransaction := true
            sessionExpires := sessionExpires d nta } := by
      intro c' hc'
      obtain ⟨⟨info, hinfo⟩, hsteps⟩ := startSessionTimer_spec c' aLeg d nta
      refine .answered info (fun granted calm => ?_) ?_ ⟨rfl, rfl, rfl⟩
      · have hsent : CallSteps granted calm c.calls c'.calls := by
          rw [hc']
          exact .tail (.single (.sent bLeg .ack)) (.updateDialogInfo aLeg _ fun _ => ⟨rfl, rfl⟩)
        exact hsent.trans (hsteps granted calm)
      · rw [hinfo, hc']
        rfl
    exact hdecided _ (by simp only [withCalls_calls, require_calls])

theorem processFinalResponse_decided {s : Calls} {c : Controller} (hc : c.calls = s) (hs : 0 < s.next)
    (irq : Irq) {orq : Orq} (aLeg bLeg : Leg) {t : Option (ℕ × TerminationAttempt)}
    (ht : t ≠ none → s.mapTerminationAttempts orq ≠ none) (pDialog : Option SipDialogInfo)
    (sip : Response) (nta : Creations) :
    Decided s irq orq bLeg sip.status
      (c.processFinalResponse irq orq aLeg bLeg t pDialog sip nta) := by
  unfold processFinalResponse
  by_cases hstatus : sip.status = 200
  · rw [if_pos hstatus]
    exact processAnswer_decided hc irq orq aLeg bLeg pDialog sip nta
  · rw [if_neg hstatus]
    rcases t with _ | ⟨t, a⟩
    · exact .fail hc irq orq bLeg hstatus
    · have ht := ht (by simp)
      dsimp only
      split_ifs
      · exact processRedirect_decided hc hs t irq ht bLeg sip nta hstatus
      · exact processCrankback_decided hc hs t a irq ht bLeg sip nta hstatus
      · exact .fail hc irq orq bLeg hstatus

/-! ### Another attempt -/

/-- Another attempt takes the place of the one of `orq` that fails with the response `sip`: it is
    a redirect, or a crankback for which there are attempts and another carrier left, and nta
    grants the leg and the transaction. -/
def Retries (c : Controller) (orq : Orq) (sip : Response) (nta : Creations) : Prop :=
  ∃ t a, c.calls.mapTerminationAttempts orq = some t ∧ c.attempts[t]? = some a ∧
    (300 ≤ sip.status ∧ sip.status ≤ 399 ∨
      (sip.status = 503 ∨ sip.status = 480) ∧ a.nAttemptCount < c.nTerminationRetries - 1 ∧
        c.config.getTerminationRouteForAltCarrier a.carrier ≠ none) ∧
    nta.bLeg = true ∧ nta.orq = true

/-- The attempts whose INVITEs are in the table have a P-Charge-Info header. -/
def Charged (c : Controller) : Prop :=
  ∀ orq t, c.calls.mapTerminationAttempts orq = some t →
    ∃ a, c.attempts[t]? = some a ∧ a.pChargeInfoHeader ≠ []

theorem retry_swallows_iff {c : Controller} (hs : 0 < c.calls.next) {t : ℕ} {a : TerminationAttempt}
    (ha : c.attempts[t]? = some a) (irq : Irq) (orq : Orq) (bLeg : Leg) (nta : Creations) :
    (c.retry t irq orq bLeg nta).bProxyResponse = false ↔ GrantsInvite nta a := by
  have hb : (⟨c.calls.next⟩ : Leg) ≠ .null := Handle.mk_ne_null hs
  have ho : (⟨c.calls.next + 1⟩ : Orq) ≠ .null := Handle.mk_ne_null (by omega)
  unfold retry generateTerminationRequest
  rw [ha, GrantsInvite, ← orqGranted_iff]
  dsimp only
  cases nta.bLeg <;> cases orqGranted nta a <;>
    simp [Calls.createInvite, Calls.createLeg, Calls.createOutgoing, Decision.fail, Decision.swallow,
      hb, ho]

theorem check_frame (c : Controller) (a : Assertion) (holds : Bool) :
    ∃ asserts, c.check a holds = { c with asserts := asserts } := by
  unfold check
  split_ifs
  · exact ⟨c.asserts, rfl⟩
  · exact ⟨_, rfl⟩

/-- Counting a failure changes nothing but the statistics. -/
theorem reportFailure_frame (c : Controller) (t : Option (ℕ × TerminationAttempt)) (status : ℤ) :
    ∃ asserts stats, c.reportFailure t status =
      { c with asserts := asserts, mapTrunkStats := stats } := by
  unfold reportFailure countFailure
  rcases t with _ | ⟨t, a⟩
  · exact ⟨c.asserts, c.mapTrunkStats, rfl⟩
  · dsimp only
    split_ifs
    · obtain ⟨asserts, heq⟩ := check_frame c .failureCountStatus (UInt32.ofInt status < 700)
      cases c.mapTrunkStats a.sipTrunk with
      | none => exact ⟨c.asserts, c.mapTrunkStats, rfl⟩
      | some tr =>
        dsimp only
        rw [heq]
        exact ⟨_, _, rfl⟩
    · exact ⟨c.asserts, c.mapTrunkStats, rfl⟩

/-- The check for a record and the counts of the trunks use nothing of the response. -/
theorem reported_frame (c : Controller) (t : Option (ℕ × TerminationAttempt)) (holds : Bool) (status : ℤ) :
    ∃ asserts stats, (c.check .inviteResponseNoCdr holds).reportFailure t status =
      { c with asserts := asserts, mapTrunkStats := stats } := by
  obtain ⟨asserts, hcheck⟩ := check_frame c .inviteResponseNoCdr holds
  rw [hcheck]
  exact reportFailure_frame { c with asserts := asserts } t status

theorem require_attempts (c : Controller) (a : Absent) (there : Bool) :
    (c.require a there).attempts = c.attempts := by
  unfold require
  split_ifs <;> rfl

theorem processRedirect_swallows_iff {c : Controller} (hs : 0 < c.calls.next) {t : ℕ} {a : TerminationAttempt}
    (ha : c.attempts[t]? = some a) (irq : Irq) (orq : Orq) (bLeg : Leg) (sip : Response) (nta : Creations) :
    (c.processRedirect t irq orq bLeg sip nta).bProxyResponse = false ↔ GrantsInvite nta a := by
  unfold processRedirect
  -- The URL of the attempt has nothing to do with it.
  have ha' : ((c.require .responseContact sip.sipContact.isSome).redirect t
      (redirectUri (sip.sipContact.getD {}))).attempts[t]? =
        some { a with url := redirectUri (sip.sipContact.getD {}) } := by
    simp [redirect, require_attempts, ha]
  refine retry_swallows_iff ?_ ha' irq orq bLeg nta
  rwa [redirect_calls, require_calls]

/-- A report has nothing to do with the attempts. -/
theorem postFinalResponse_attempts (c : Controller) (pCdr : ℕ) (cdrType : CdrEvent) (status : ℤ) :
    (c.postFinalResponse pCdr cdrType status).attempts = c.attempts := by
  unfold postFinalResponse
  split <;> rfl

theorem crankback_attempts {c : Controller} {t : ℕ} {a : TerminationAttempt} (ha : c.attempts[t]? = some a)
    (url carrier sipTrunk header : Bytes) :
    ∃ a', (c.crankback t url carrier sipTrunk header).attempts[t]? = some a' ∧ a'.pChargeInfoHeader = header := by
  unfold crankback
  rw [ha]
  have hlt : t < c.attempts.length := (List.getElem?_eq_some_iff.1 ha).1
  refine ⟨{ a with
    url := url, carrier := carrier, sipTrunk := sipTrunk
    pChargeInfoHeader := header, nAttemptCount := a.nAttemptCount + 1 }, ?_, rfl⟩
  simp [setCdr, hlt]

theorem processCrankback_swallows_iff {c : Controller} (hs : 0 < c.calls.next) {t : ℕ} {a : TerminationAttempt}
    (ha : c.attempts[t]? = some a) (irq : Irq) (orq : Orq) (bLeg : Leg) (sip : Response) (nta : Creations) :
    (c.processCrankback t a irq orq bLeg sip nta).bProxyResponse = false ↔
      (a.nAttemptCount < c.nTerminationRetries - 1 ∧
        c.config.getTerminationRouteForAltCarrier a.carrier ≠ none) ∧
      nta.bLeg = true ∧ nta.orq = true := by
  unfold processCrankback
  split_ifs with hcount
  · cases c.config.getTerminationRouteForAltCarrier a.carrier with
    | none => simp [Decision.fail]
    | some r =>
      obtain ⟨route, config⟩ := r
      dsimp only
      have ha₁ : (postFinalResponse { c with config := config } a.cdr .terminationAttempt sip.status).attempts[t]? =
          some a := by
        rw [postFinalResponse_attempts]
        exact ha
      obtain ⟨a', ha', hheader⟩ := crankback_attempts ha₁ (sipUri sip.sipTo.url.user route.trunk.text) route.carrier
        route.trunk.text (pChargeInfo route.chargeNumber route.trunk.text)
      rw [retry_swallows_iff (by simpa using hs) ha', GrantsInvite, hheader]
      simp [hcount, pChargeInfo_ne_nil]
  · simp [Decision.fail, hcount]

theorem processFinalResponse_swallows_iff {c : Controller} (hs : 0 < c.calls.next) (irq : Irq) (orq : Orq)
    (aLeg bLeg : Leg) {t : Option (ℕ × TerminationAttempt)}
    (ht : ∀ p ∈ t, c.attempts[p.1]? = some p.2 ∧ p.2.pChargeInfoHeader ≠ []) (pDialog : Option SipDialogInfo)
    (sip : Response) (nta : Creations) :
    (c.processFinalResponse irq orq aLeg bLeg t pDialog sip nta).bProxyResponse = false ↔
      ∃ p ∈ t, (300 ≤ sip.status ∧ sip.status ≤ 399 ∨
        (sip.status = 503 ∨ sip.status = 480) ∧ p.2.nAttemptCount < c.nTerminationRetries - 1 ∧
          c.config.getTerminationRouteForAltCarrier p.2.carrier ≠ none) ∧
        nta.bLeg = true ∧ nta.orq = true := by
  unfold processFinalResponse
  by_cases hstatus : sip.status = 200
  · rw [if_pos hstatus]
    have hproxy : (c.processAnswer aLeg bLeg pDialog sip nta).bProxyResponse = true := by
      cases pDialog <;> rfl
    rw [hproxy, hstatus]
    simp
  · rw [if_neg hstatus]
    rcases t with _ | ⟨t, a⟩
    · simp [Decision.fail]
    · obtain ⟨ha, hheader⟩ := ht (t, a) rfl
      simp only [Option.mem_some_iff, exists_eq_left']
      split_ifs with hredirect hcrankback
      · rw [processRedirect_swallows_iff hs ha, GrantsInvite]
        simp [hredirect, hheader]
      · rw [processCrankback_swallows_iff hs ha]
        simp [hredirect, hcrankback]
      · simp [Decision.fail, hredirect, hcrankback]

/-! ### The end of the response -/

/-- A final response that is passed on. -/
theorem conclude_settled {d : Decision} (hproxy : d.bProxyResponse = true)
    (hclear : d.bClearTransaction = true) (irq : Irq) (orq : Orq) (bLeg : Leg) (t pCdr : Option ℕ)
    (sip : Response) : ∃ s reply, (s = d.controller.calls ∨ s = d.controller.calls.eraseAttempt orq) ∧
      reply.status = sip.status ∧ (d.conclude irq orq bLeg t pCdr sip).calls =
        if d.bDestroyLegs then (s.settle irq orq reply []).clearDialog bLeg
        else s.settle irq orq reply [] := by
  refine ⟨if 200 ≤ sip.status ∧ t.isSome then d.controller.calls.eraseAttempt orq
    else d.controller.calls, d.controller.proxyReply t d.sessionExpires sip, ?_, rfl, ?_⟩
  · split_ifs
    · exact .inr rfl
    · exact .inl rfl
  · unfold Decision.conclude
    rw [reportFinalResponse_calls]
    simp only [hproxy, hclear, if_true, withCalls_calls, proxyResponse_calls]
    cases d.bDestroyLegs <;> rfl

/-- A response whose attempt was replaced. -/
theorem conclude_replaced {d : Decision} (hproxy : d.bProxyResponse = false)
    (hclear : d.bClearTransaction = false) (hdestroy : d.bDestroyLegs = false) (irq : Irq) (orq : Orq)
    (bLeg : Leg) (t pCdr : Option ℕ) (sip : Response) :
    (d.conclude irq orq bLeg t pCdr sip).calls = d.controller.calls := by
  unfold Decision.conclude
  rw [reportFinalResponse_calls]
  simp [hproxy, hclear, hdestroy]

/-- The steps of a final response. -/
theorem Decided.callSteps {granted calm : Prop} {s : Calls} {irq : Irq} {orq : Orq} {bLeg : Leg}
    {d : Decision} {sip : Response} (h : Decided s irq orq bLeg sip.status d)
    (hrelay : s.Relayable irq orq) (hbLeg : s.legFromOutgoing orq = bLeg) (hlive : bLeg ∈ s.legs)
    (hinvite : ∃ o ∈ s.outgoing orq, o.callback = .responseToInvite) (hfinal : 200 ≤ sip.status)
    (hcalm : calm → sip.status ≠ 200 →
      Calls.Quiet { s with transactions := s.transactions.eraseRight orq } bLeg) (t pCdr : Option ℕ) :
    CallSteps granted calm s (d.conclude irq orq bLeg t pCdr sip).calls := by
  rcases h with ⟨info, hsteps, hcalls, hproxy, hclear, hdestroy⟩ |
    ⟨hstatus, n, hn, hcalls, hproxy, hclear, hdestroy⟩ |
    ⟨hstatus, request, t', ht, hcalls, hproxy, hclear, hdestroy⟩
  · -- Answered: nothing that the response needs has changed.
    obtain ⟨s', reply, hs', hreply, heq⟩ := conclude_settled hproxy hclear irq orq bLeg t pCdr sip
    rw [heq, hdestroy, if_neg (by simp)]
    have hsteps := hsteps granted calm
    rw [hcalls] at hsteps hs'
    rcases hs' with rfl | rfl
    · exact hsteps.tail (.settle irq orq reply [] ⟨hrelay.pair, hrelay.pending⟩ (hreply ▸ hfinal))
    · exact (hsteps.tail (.eraseAttempt orq)).tail
        (.settle irq orq reply [] ⟨hrelay.pair, hrelay.pending⟩ (hreply ▸ hfinal))
  · obtain ⟨s', reply, hs', hreply, heq⟩ := conclude_settled hproxy hclear irq orq bLeg t pCdr sip
    rw [heq, hdestroy, if_pos rfl]
    have hsteps : CallSteps granted calm s { s with next := n } := .single (.advance n hn)
    rw [hcalls] at hs'
    have hquiet : calm → (s'.settle irq orq reply []).Quiet bLeg := by
      intro h i o hmem
      rw [Calls.settle, Calls.incomingLeg_clearTransaction, Calls.outgoingLeg_clearTransaction]
      rcases hs' with rfl | rfl <;> exact hcalm h hstatus i o hmem
    rcases hs' with rfl | rfl
    · exact (hsteps.tail (.settle irq orq reply [] ⟨hrelay.pair, hrelay.pending⟩ (hreply ▸ hfinal))).tail
        (.clearDialog bLeg (.inl hlive) hquiet)
    · exact ((hsteps.tail (.eraseAttempt orq)).tail
        (.settle irq orq reply [] ⟨hrelay.pair, hrelay.pending⟩ (hreply ▸ hfinal))).tail
        (.clearDialog bLeg (.inl hlive) hquiet)
  · rw [conclude_replaced hproxy hclear hdestroy, hcalls]
    exact .single (.replaceAttempt irq orq _ bLeg _ request t' _ hrelay hbLeg hlive hinvite ht
      (fun h => hcalm h hstatus) le_rfl (Nat.lt_succ_self _) (Nat.lt_succ_self _))

/-- A provisional response that is passed on. -/
theorem conclude_provisional (c : Controller) (irq : Irq) (orq : Orq) (bLeg : Leg) (t pCdr : Option ℕ)
    {sip : Response} (hstatus : sip.status < 200) : ∃ reply, reply.status = sip.status ∧
      (Decision.conclude { controller := c } irq orq bLeg t pCdr sip).calls =
        c.calls.record (.replied irq orq reply) := by
  refine ⟨c.proxyReply t none sip, rfl, ?_⟩
  unfold Decision.conclude
  rw [reportFinalResponse_calls]
  simp [not_le.2 hstatus]

/-- What is decided about a final response, in the call of its transaction. nta takes the INVITE of
    a redirect if the attempt has a header for it. -/
theorem processInviteResponse_final {c : Controller} (hs : 0 < c.calls.next) (irq : Irq) (orq : Orq)
    (aLeg bLeg : Leg) {sip : Response} (hfinal : 200 ≤ sip.status) (nta : Creations) :
    ∃ (d : Decision) (t pCdr : Option ℕ), Decided c.calls irq orq bLeg sip.status d ∧
      (c.Charged → (d.bProxyResponse = false ↔ c.Retries orq sip nta)) ∧
      c.processInviteResponse irq orq aLeg bLeg sip nta = d.conclude irq orq bLeg t pCdr sip := by
  unfold processInviteResponse
  dsimp only
  rw [if_neg (by omega), if_pos hfinal]
  refine ⟨_, _, _, ?_, ?_, rfl⟩
  · refine processFinalResponse_decided (by simp) hs irq aLeg bLeg ?_ _ sip nta
    intro ht hnone
    simp [hnone] at ht
  · intro hcharged
    generalize hpCdr : Option.isSome _ = holds
    generalize ht : ((c.calls.mapTerminationAttempts orq).bind fun t => c.attempts[t]?.map fun a => (t, a)) = t
    obtain ⟨asserts, stats, heq⟩ := reportFailure_frame (c.check .inviteResponseNoCdr holds) t sip.status
    obtain ⟨asserts', heq'⟩ := check_frame c .inviteResponseNoCdr holds
    rw [heq'] at heq
    have hmem : ∀ p, p ∈ t ↔ c.calls.mapTerminationAttempts orq = some p.1 ∧ c.attempts[p.1]? = some p.2 := by
      rintro ⟨t', a⟩
      rw [← ht]
      simp [Option.bind_eq_some_iff]
    rw [heq', heq, processFinalResponse_swallows_iff (by exact hs)]
    · unfold Retries
      constructor
      · rintro ⟨⟨t', a⟩, hp, h⟩
        exact ⟨t', a, ((hmem _).1 hp).1, ((hmem _).1 hp).2, h⟩
      · rintro ⟨t', a, ht', ha, h⟩
        exact ⟨(t', a), (hmem _).2 ⟨ht', ha⟩, h⟩
    · intro p hp
      obtain ⟨ht', ha⟩ := (hmem p).1 hp
      obtain ⟨a, ha', hheader⟩ := hcharged orq p.1 ht'
      obtain rfl := Option.some_inj.1 (ha.symm.trans ha')
      exact ⟨ha, hheader⟩

theorem callSteps_inviteResponse {granted : Prop} {c : Controller} (hs : 0 < c.calls.next) {orq : Orq}
    (horq : ∃ o ∈ c.calls.outgoing orq, o.callback = .responseToInvite ∧ o.destroyed = 0)
    (sip : Response) (nta : Creations) :
    CallSteps granted (c.Calm (.inviteResponse orq sip nta)) c.calls
      (c.processInviteResponseInsideDialog orq sip nta).calls := by
  obtain ⟨o, ho, hcallback, hdestroyed⟩ := horq
  unfold processInviteResponseInsideDialog
  by_cases hirq : c.calls.getAssociatedIncoming orq = .null
  · rw [if_pos hirq]
    exact .single (.assertion .inviteResponseNoIncoming ⟨orq, ⟨o, ho, hdestroyed⟩, hirq⟩)
  rw [if_neg hirq]
  have hpair := mem_of_getAssociatedIncoming hirq
  by_cases hbLeg : c.calls.legFromOutgoing orq = .null
  · rw [if_pos hbLeg]
    exact .single (.assertion .inviteResponseNoBLeg ⟨_, orq, hpair, ⟨o, ho, hdestroyed⟩, hbLeg⟩)
  rw [if_neg hbLeg]
  by_cases haLeg : c.calls.legFromIncoming (c.calls.getAssociatedIncoming orq) = .null
  · rw [if_pos haLeg]
    exact .single (.assertion .inviteResponseNoALeg ⟨_, orq, hpair, ⟨o, ho, hdestroyed⟩, haLeg⟩)
  rw [if_neg haLeg]
  have hrelay : c.calls.Relayable (c.calls.getAssociatedIncoming orq) orq :=
    ⟨hpair, o, ho, hdestroyed, fun _ => haLeg⟩
  obtain ⟨hon, hlive⟩ := legFromOutgoing_spec hbLeg
  by_cases hfinal : 200 ≤ sip.status
  · obtain ⟨d, t, pCdr, hd, -, heq⟩ := processInviteResponse_final hs _ orq _ _ hfinal nta
    rw [heq]
    exact hd.callSteps hrelay rfl hlive ⟨o, ho, hcallback⟩ hfinal
      (fun h hstatus => h.1 hfinal hstatus _ hon) t pCdr
  · unfold processInviteResponse
    dsimp only
    by_cases htrying : sip.status = 100
    · rw [if_pos htrying, conclude_replaced rfl rfl rfl]
      simp only [Decision.swallow, check_calls]
      exact .refl
    · rw [if_neg htrying, if_neg hfinal]
      obtain ⟨reply, hreply, heq⟩ := conclude_provisional (c.check .inviteResponseNoCdr _)
        (c.calls.getAssociatedIncoming orq) orq (c.calls.legFromOutgoing orq) _ _ (not_le.1 hfinal)
      rw [heq, check_calls]
      exact .single (.relay _ orq reply hrelay (hreply ▸ not_le.1 hfinal))

/-! ## All events -/

/-- **Every event changes the tables by steps of the tables.** -/
theorem callSteps_next {c : Controller} (hs : 0 < c.calls.next) {e : ControllerEvent}
    (he : c.Possible e) : CallSteps (c.Provided e) (c.Calm e) c.calls (c.next e).calls := by
  cases e with
  | requestOutsideDialog sip uuid nta => exact .single (c.callStep_requestOutsideDialog sip uuid _ fun h hp => hp h)
  | inviteResponse orq sip nta => exact callSteps_inviteResponse hs he sip nta
  | ackOrCancel irq method =>
    change CallSteps _ _ _ (c.processAckOrCancel irq method).calls
    unfold processAckOrCancel
    split_ifs with hmethod
    · subst hmethod
      obtain ⟨i, hi, hbound, -⟩ := he
      exact callSteps_cancel ⟨i, hi, hbound⟩
    · exact .refl
  | requestInsideDialog leg sip nta =>
    exact callSteps_requestInsideDialog he (fun h hp => hp h) fun h => h.1
  | responseInsideDialog orq sip => exact callSteps_responseInsideDialog he sip
  | sessionRefreshTimer leg => exact callSteps_sessionRefreshTimer c leg
  | retransmittedResponse leg sip => exact callSteps_retransmittedResponse c leg sip
  | writeCdr connected => exact .refl
  | clock now => exact .refl
  | monitor fsMonitor => exact .refl
  | resetTrunkStats => exact .refl

end Controller

end Ssp
