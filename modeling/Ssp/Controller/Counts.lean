import Ssp.Controller.Attribution
import Ssp.Controller.Statistics

/-!
# What an event counts

`Tally` has the statistics of the trunks. An event sends at most one INVITE for an attempt, and that is
the attempt it counts; what else it counts is the failure of the INVITE that a response is to
(`invites_next`). So the statistics can be read off what is sent and what comes back.
-/

namespace Ssp

namespace Controller

/-- An event sends at most one INVITE for an attempt. `y` is what is counted but for it. -/
inductive Invites (c c' : Controller) (y : Tally) : Prop
  | none (hnone : ∀ orq, c.calls.outgoing orq = none → c'.attemptOf orq = none) (htally : c'.tally = y)
  | one (orq : Orq) (t : ℕ) (a : TerminationAttempt) (hold : c.calls.outgoing orq = none)
      (hnew : c'.attemptOf orq = some (t, a))
      (honly : ∀ orq' ≠ orq, c.calls.outgoing orq' = none → c'.attemptOf orq' = none)
      (htally : c'.tally = y.attempt a.sipTrunk a.carrier)

/-- What an event counts, but for an INVITE that it sends. -/
def settled (c : Controller) : ControllerEvent → Tally
  | .inviteResponse orq sip _ =>
    (c.failed? orq sip).elim c.tally fun a => c.tally.failure a.sipTrunk (UInt32.ofInt sip.status)
  | .resetTrunkStats => c.tally.reset
  | _ => c.tally

section

variable {c c' : Controller} {y : Tally} {irq : Irq} {orq : Orq} {t : ℕ} {a : TerminationAttempt} {sip : Response}
  {nta : Creations}

theorem attemptOf_of_none (h : c.calls.mapTerminationAttempts orq = none) : c.attemptOf orq = none := by
  rw [attemptOf, h]
  rfl

theorem AttemptInv.attempt_of_new (h : c.AttemptInv) (hnone : c.calls.outgoing orq = none) :
    c.calls.mapTerminationAttempts orq = none := by
  by_contra hne
  obtain ⟨o, ho, -⟩ := h.live orq hne
  rw [hnone] at ho
  cases ho

/-- Attempts only go. -/
theorem invites_of_sub (h : c.AttemptInv)
    (hattempts : ∀ orq t, c'.calls.mapTerminationAttempts orq = some t → c.calls.mapTerminationAttempts orq = some t)
    (htally : c'.tally = y) : Invites c c' y := by
  refine .none (fun orq hnone => attemptOf_of_none ?_) htally
  rw [Option.eq_none_iff_forall_ne_some]
  intro t ht
  have hold := hattempts orq t ht
  rw [h.attempt_of_new hnone] at hold
  cases hold

theorem invites_of_closed (h : c.AttemptInv)
    (hattempts : c'.calls.mapTerminationAttempts = Function.update c.calls.mapTerminationAttempts orq none)
    (htally : c'.tally = y) : Invites c c' y := by
  refine invites_of_sub h (fun orq t ht => ?_) htally
  rw [hattempts, Function.update_apply] at ht
  split_ifs at ht
  exact ht

/-- An attempt comes in. -/
theorem invites_of_update {attempts : Orq → Option ℕ} (h : c.AttemptInv) (hold : c.calls.outgoing orq = none)
    (hattempts : c'.calls.mapTerminationAttempts = Function.update attempts orq (some t))
    (hsub : ∀ orq, c.calls.mapTerminationAttempts orq = none → attempts orq = none)
    (ha : c'.attempts[t]? = some a) (htally : c'.tally = y.attempt a.sipTrunk a.carrier) : Invites c c' y := by
  refine .one orq t a hold ?_ (fun orq' hne hnone => attemptOf_of_none ?_) htally
  · rw [attemptOf, hattempts, Function.update_self, Option.bind_some, ha]
    rfl
  · rw [hattempts, Function.update_of_ne hne]
    exact hsub orq' (h.attempt_of_new hnone)

/-! ## New requests -/

/-- What is counted when an INVITE may be sent for a new call: it, or nothing. -/
def CountsNew (c c' : Controller) (n : ℕ) : Prop :=
  (c'.calls.mapTerminationAttempts = c.calls.mapTerminationAttempts ∧ c'.tally = c.tally) ∨
    ∃ (orq : Orq) (t : ℕ) (a : TerminationAttempt), n ≤ orq.address ∧ c'.attempts[t]? = some a ∧
      c'.calls.mapTerminationAttempts = Function.update c.calls.mapTerminationAttempts orq (some t) ∧
      c'.tally = c.tally.attempt a.sipTrunk a.carrier

theorem destroyLeg_attempts (s : Calls) (leg : Leg) :
    (s.destroyLeg leg).mapTerminationAttempts = s.mapTerminationAttempts := by
  unfold Calls.destroyLeg
  split_ifs <;> rfl

theorem CountsNew.of_eq {n : ℕ} {c₁ : Controller} (h : c₁.CountsNew c' n)
    (hattempts : c₁.calls.mapTerminationAttempts = c.calls.mapTerminationAttempts) (htally : c₁.tally = c.tally) :
    c.CountsNew c' n := by
  unfold CountsNew at h ⊢
  rwa [hattempts, htally] at h

theorem attempts_generateTerminationRequest (c : Controller) (t : ℕ) (irq : Irq) (nta : Creations) :
    (c.generateTerminationRequest t irq nta).1.attempts = c.attempts := by
  unfold generateTerminationRequest
  split
  · rfl
  · split <;> rfl

theorem terminateOn_countsNew {n : ℕ} (hn : 0 < n) (hnext : n ≤ c.calls.next)
    (hfree : ∀ orq : Orq, n ≤ orq.address → c.calls.mapTerminationAttempts orq = none)
    (ha : c.attempts[t]? = some a) (irq : Irq) (aLeg : Leg) (sip : Request) (nta : Creations) :
    c.CountsNew (c.terminateOn irq aLeg sip t nta).1 n := by
  have htally := tally_generateTerminationRequest (hn.trans_le hnext) ha irq nta
  have hattempts := c.attempts_generateTerminationRequest t irq nta
  unfold terminateOn
  rcases generateTerminationRequest_cases (hn.trans_le hnext) ha irq nta with
    ⟨hnta, n', -, heq⟩ | ⟨hnta, c', heq, hcalls, -⟩
  · rw [heq, if_neg hnta] at htally
    rw [heq]
    refine .inl ⟨?_, htally⟩
    exact destroyLeg_attempts _ _
  · rw [heq] at htally hattempts ⊢
    rw [if_pos hnta] at htally
    have horq : n ≤ c.calls.next + 1 := hnext.trans (Nat.le_succ _)
    refine .inr ⟨⟨c.calls.next + 1⟩, t, a, horq, ?_, ?_, ?_⟩
    · have hkept : ∀ there s, ((c'.require .requestPayload there).withCalls s).attempts = c'.attempts :=
        fun there _ => congrArg Records.attempts (c'.records_require .requestPayload there)
      dsimp only
      rw [hkept, hattempts]
      exact ha
    · have hadd : ∀ s : Calls, (addTermination s irq ⟨c.calls.next + 1⟩ aLeg ⟨c.calls.next⟩ t
          { leg := ⟨c.calls.next⟩, bOrigination := false, localSdp := sip.sipPayload.getD [] }).mapTerminationAttempts =
            Calls.insertNew s.mapTerminationAttempts ⟨c.calls.next + 1⟩ t := fun _ => rfl
      dsimp only
      rw [withCalls_calls, hadd, require_calls, hcalls]
      exact Calls.insertNew_of_none (hfree _ horq) t
    · dsimp only
      rw [tally_withCalls, tally_require]
      exact htally

theorem processTerminationRequest_countsNew (hs : c.calls.Typed) {c₁ : Controller}
    (hcalls : c₁.calls = c.calls.receive .null) (htally : c₁.tally = c.tally) (irq : Irq) (sip : Request)
    (nta : Creations) : c.CountsNew (c₁.processTerminationRequest irq sip nta).1 c.calls.next := by
  have hattempts : c₁.calls.mapTerminationAttempts = c.calls.mapTerminationAttempts := by rw [hcalls]; rfl
  have hfree : ∀ orq : Orq, c.calls.next ≤ orq.address → c.calls.mapTerminationAttempts orq = none := by
    intro orq horq
    by_contra hne
    exact absurd (hs.attempt_lt orq hne) (not_lt.2 horq)
  unfold processTerminationRequest
  rcases c₁.firstRoute sip with _ | ⟨route, config⟩
  · exact .inl ⟨hattempts, htally⟩
  · obtain ⟨a, ha⟩ : ∃ a, (newAttempt { c₁ with config := config } sip route).2.attempts[c₁.attempts.length]? =
        some a := ⟨_, List.getElem?_concat_length⟩
    have ht : (newAttempt { c₁ with config := config } sip route).1 = c₁.attempts.length := rfl
    have hcalls₂ : (newAttempt { c₁ with config := config } sip route).2.calls = c.calls.receive .null := hcalls
    have htally₂ : (newAttempt { c₁ with config := config } sip route).2.tally = c.tally := htally
    dsimp only
    rw [ht]
    generalize (newAttempt { c₁ with config := config } sip route).2 = c₂ at ha hcalls₂ htally₂ ⊢
    unfold terminate
    rw [hcalls₂]
    have hterminate : ∀ (s : Calls) (aLeg : Leg), s.mapTerminationAttempts = c.calls.mapTerminationAttempts →
        c.calls.next ≤ s.next → c.CountsNew ((c₂.withCalls s).terminateOn irq aLeg sip c₁.attempts.length nta).1
          c.calls.next := by
      intro s aLeg hsame hnext
      refine (terminateOn_countsNew (c := c₂.withCalls s) hs.next_pos hnext ?_ ha irq aLeg sip nta).of_eq hsame htally₂
      intro orq horq
      exact (congrFun hsame orq).trans (hfree orq horq)
    unfold Calls.createLeg
    split_ifs
    · exact hterminate _ _ rfl (Nat.le_add_right _ 2)
    · exact hterminate _ _ rfl (Nat.le_add_right _ 1)

/-- Other requests count nothing. -/
theorem tally_of_not_terminates {sip : Request} (hterminates : ¬c.Terminates sip) (uuid : Bytes) (nta : Creations) :
    (c.requestOutsideDialog sip uuid nta).tally = c.tally := by
  unfold requestOutsideDialog processRequestOutsideDialog
  dsimp only
  rw [tally_withCalls]
  split
  · rfl
  next hvalid =>
    split
    · split
      · rfl
      · split
        · exact tally_require _ _
        · exact tally_require _ _
    · rfl
    next hmethod =>
      have hrequire := tally_require (c := c.withCalls (c.calls.receive .null)) .requestContactHost
        sip.contactHost?.isSome
      unfold processInvite
      dsimp only
      split
      · split_ifs
        · exact hrequire
        · rw [tally_countDown, tally_processOriginationRequest]
          exact hrequire
      next htype =>
        refine absurd ⟨not_not.1 hvalid, hmethod, ?_⟩ hterminates
        rw [determineCallType_require] at htype
        exact congrArg Prod.fst htype
      · exact hrequire
    · rfl
    · rfl
    · rfl

theorem CountsNew.invites (hs : c.calls.Typed) (h : c.AttemptInv) (hnew : c.CountsNew c' c.calls.next) :
    Invites c c' c.tally := by
  rcases hnew with ⟨hattempts, htally⟩ | ⟨orq, t, a, horq, ha, hattempts, htally⟩
  · exact invites_of_sub h (fun orq t ht => hattempts ▸ ht) htally
  · have hold : c.calls.outgoing orq = none := by
      rw [Option.eq_none_iff_forall_ne_some]
      exact fun o ho => absurd (hs.outgoing_lt orq o ho).1 (not_lt.2 horq)
    exact invites_of_update h hold hattempts (fun _ hnone => hnone) ha htally

/-- A request sends an INVITE to a trunk if it is counted for it. -/
theorem invites_requestOutsideDialog (hs : c.calls.Typed) (h : c.AttemptInv) (sip : Request) (uuid : Bytes)
    (nta : Creations) : Invites c (c.requestOutsideDialog sip uuid nta) c.tally := by
  by_cases hterminates : c.Terminates sip
  · obtain ⟨hvalid, hmethod, htype⟩ := hterminates
    refine CountsNew.invites hs h ?_
    have hcounts : c.CountsNew
        ((c.withCalls (c.calls.receive .null)).processRequestOutsideDialog ⟨c.calls.next⟩ sip uuid nta).1
        c.calls.next := by
      unfold processRequestOutsideDialog
      rw [if_neg (not_not.2 hvalid), hmethod]
      dsimp only
      unfold processInvite
      dsimp only
      rw [determineCallType_require]
      rcases hdetermine : (c.withCalls (c.calls.receive .null)).determineCallType (sip.contactHost?.getD [])
        with ⟨callType, carrier⟩
      obtain rfl : callType = .termination := (congrArg Prod.fst hdetermine).symm.trans htype
      dsimp only
      have hcalls : ((c.withCalls (c.calls.receive .null)).require .requestContactHost sip.contactHost?.isSome).calls =
          c.calls.receive .null := require_calls _ _ _
      have hcounts := processTerminationRequest_countsNew hs hcalls (tally_require _ _) ⟨c.calls.next⟩ sip nta
      unfold CountsNew at hcounts ⊢
      rwa [countDown_calls, tally_countDown, show ∀ r : Controller × ℤ, (countDown r).1.attempts = r.1.attempts from
        fun r => congrArg Records.attempts (countDown_records r)]
    -- What nta does with the status at the end is about the server transaction only.
    unfold CountsNew at hcounts ⊢
    unfold requestOutsideDialog
    dsimp only
    rwa [tally_withCalls, withCalls_calls, (legRecv_tables _ _ _ _).2.1]
  · refine invites_of_sub h (fun orq t ht => ?_) (tally_of_not_terminates hterminates uuid nta)
    cases turn_requestOutsideDialog hs sip uuid nta with
    | idle hidle hbecomes => exact hbecomes.attempts ▸ ht
    | opened orqNew t' hinvite ht' hcharged horq hbecomes =>
      obtain rfl : t' = none := not_not.1 fun hne => hterminates (ht'.1 hne)
      rw [hbecomes.attempts, Function.update_apply] at ht
      split_ifs at ht
      exact ht

/-! ## Responses to an INVITE -/

theorem tally_processRedirect (hs : 0 < c.calls.next) (ha : c.attempts[t]? = some a) (irq : Irq) (orq : Orq)
    (bLeg : Leg) (sip : Response) (nta : Creations) :
    (c.processRedirect t irq orq bLeg sip nta).controller.tally =
      if GrantsInvite nta a then c.tally.attempt a.sipTrunk a.carrier else c.tally := by
  obtain ⟨c₁, heq, htally, hrecords, hcalls⟩ : ∃ c₁ : Controller, c.processRedirect t irq orq bLeg sip nta =
      (c₁.redirect t (redirectUri (sip.sipContact.getD {}))).retry t irq orq bLeg nta ∧
        c₁.tally = c.tally ∧ c₁.records = c.records ∧ c₁.calls = c.calls :=
    ⟨_, rfl, tally_require _ _, records_require _ _ _, require_calls _ _ _⟩
  have ha₁ : (c₁.redirect t (redirectUri (sip.sipContact.getD {}))).attempts[t]? =
      some { a with url := redirectUri (sip.sipContact.getD {}) } := by
    have ha' : c₁.records.attempts[t]? = some a := hrecords ▸ ha
    exact Records.getElem?_modifyAttempt ha' _
  have hs₁ : 0 < (c₁.redirect t (redirectUri (sip.sipContact.getD {}))).calls.next := by
    rw [redirect_calls, hcalls]
    exact hs
  rw [heq, tally_retry hs₁ ha₁, tally_redirect, htally]
  rfl

/-- A response that is no failure counts at most the INVITE of a redirect. -/
theorem tally_processFinalResponse_of_not_failed (hs : 0 < c.calls.next) {t : Option (ℕ × TerminationAttempt)}
    (ht : ∀ p, t = some p → c.attempts[p.1]? = some p.2 ∧ p.2.pChargeInfoHeader ≠ [] ∧
      (sip.status < 400 ∨ 700 < sip.status)) (irq : Irq) (orq : Orq)
    (aLeg bLeg : Leg) (pDialog : Option SipDialogInfo) (nta : Creations) :
    (c.processFinalResponse irq orq aLeg bLeg t pDialog sip nta).controller.tally =
      if (300 ≤ sip.status ∧ sip.status ≤ 399) ∧ Granted nta then
        t.elim c.tally fun p => c.tally.attempt p.2.sipTrunk p.2.carrier
      else c.tally := by
  unfold processFinalResponse
  by_cases hok : sip.status = 200
  · rw [if_pos hok, if_neg (by omega)]
    exact tally_processAnswer aLeg bLeg pDialog sip nta
  · rw [if_neg hok]
    cases t with
    | none => rw [Option.elim_none, ite_self]; rfl
    | some p =>
      obtain ⟨ha, hheader, hstatus⟩ := ht p rfl
      dsimp only
      by_cases hredirect : 300 ≤ sip.status ∧ sip.status ≤ 399
      · rw [if_pos hredirect, tally_processRedirect hs ha]
        simp only [hredirect, and_self, true_and, Option.elim_some, grantsInvite_iff hheader]
        rfl
      · rw [if_neg hredirect, if_neg (by omega), if_neg fun h => hredirect h.1]
        rfl

theorem tally_of_not_failed (hs : 0 < c.calls.next) (h : c.AttemptInv) (hfailed : c.failed? orq sip = none) (nta : Creations) :
    (c.processInviteResponseInsideDialog orq sip nta).tally =
      if c.Reached orq ∧ (300 ≤ sip.status ∧ sip.status ≤ 399) ∧ Granted nta then
        (c.attemptOf orq).elim c.tally fun p => c.tally.attempt p.2.sipTrunk p.2.carrier
      else c.tally := by
  by_cases hreached : c.Reached orq
  · rw [inviteResponse_of_reached hreached]
    unfold processInviteResponse
    rw [tally_conclude, show ((c.calls.mapTerminationAttempts orq).bind fun t => c.attempts[t]?.map fun a => (t, a)) =
      c.attemptOf orq from rfl]
    generalize Option.isSome _ = there
    have hcheck : (c.check .inviteResponseNoCdr there).tally = c.tally := tally_check (by decide) there
    by_cases htrying : sip.status = 100
    · rw [if_pos htrying, if_neg fun h => by omega]
      exact hcheck
    rw [if_neg htrying]
    by_cases hfinal : 200 ≤ sip.status
    · rw [if_pos hfinal]
      have hstatus : ∀ p, c.attemptOf orq = some p → sip.status < 400 ∨ 700 < sip.status := by
        intro p hp
        by_contra hnot
        push Not at hnot
        rw [failed?, if_pos ⟨hreached, hnot⟩, hp] at hfailed
        cases hfailed
      -- The response itself is not counted.
      have hreport : ∀ c' : Controller, c'.reportFailure (c.attemptOf orq) sip.status = c' := by
        intro c'
        unfold reportFailure
        split
        next p heq => rw [if_neg (by have := hstatus _ heq; omega)]
        · rfl
      have hcalls := c.check_calls .inviteResponseNoCdr there
      have hrecords := c.records_check .inviteResponseNoCdr there
      rw [hreport, tally_processFinalResponse_of_not_failed (hcalls ▸ hs), hcheck]
      · simp only [hreached, true_and]
      · intro p hp
        refine ⟨?_, h.charged.header_ne_nil hp, hstatus p hp⟩
        rw [show (c.check .inviteResponseNoCdr there).attempts = c.attempts from congrArg Records.attempts hrecords]
        exact (attemptOf_eq_some hp).2
    · rw [if_neg hfinal, if_neg fun h => by omega]
      exact hcheck
  · obtain ⟨assertion, heq⟩ := inviteResponse_of_not_reached hreached sip nta
    rw [heq, if_neg fun h => hreached h.1]
    rfl

/-- The failure that a response is counted as. -/
theorem settled_of_failed (hreached : c.Reached orq) (ht : c.attemptOf orq = some (t, a))
    (hstatus : 400 ≤ sip.status ∧ sip.status ≤ 700) (nta : Creations) : c.failed? orq sip = some a ∧
      c.settled (.inviteResponse orq sip nta) = c.tally.failure a.sipTrunk (UInt32.ofInt sip.status) := by
  have hfailed : c.failed? orq sip = some a := by
    rw [failed?, if_pos ⟨hreached, hstatus⟩, ht]
    rfl
  rw [settled, hfailed]
  exact ⟨rfl, rfl⟩

theorem settled_of_not_failed (hstatus : ¬(400 ≤ sip.status ∧ sip.status ≤ 700)) (orq : Orq) (nta : Creations) :
    c.failed? orq sip = none ∧ c.settled (.inviteResponse orq sip nta) = c.tally := by
  have hfailed : c.failed? orq sip = none := if_neg fun h => hstatus h.2
  rw [settled, hfailed]
  exact ⟨rfl, rfl⟩

/-- The final response to an INVITE of an attempt. -/
theorem invites_of_ending (hs : c.calls.Typed) (h : c.AttemptInv) (hreached : c.Reached orq)
    (hfinal : 200 ≤ sip.status) (ht : c.attemptOf orq = some (t, a)) (nta : Creations) :
    Invites c (c.processInviteResponseInsideDialog orq sip nta) (c.settled (.inviteResponse orq sip nta)) := by
  obtain ⟨ht', ha⟩ := attemptOf_eq_some ht
  have hgrants := h.charged.grantsInvite_iff ht nta
  have hnew : c.calls.outgoing ⟨c.calls.next + 1⟩ = none := by
    rw [Option.eq_none_iff_forall_ne_some]
    exact fun o ho => Nat.not_succ_lt_self (hs.outgoing_lt _ o ho).1
  have hsub : ∀ orq', c.calls.mapTerminationAttempts orq' = none →
      Function.update c.calls.mapTerminationAttempts orq none orq' = none := by
    intro orq' hnone
    rw [Function.update_apply, hnone, ite_self]
  -- No redirect that is followed, and no crankback that is.
  have hcounted : ¬((300 ≤ sip.status ∧ sip.status ≤ 399) ∧ Granted nta) → ¬(c.CranksBack a sip ∧ Granted nta) →
      (c.processInviteResponseInsideDialog orq sip nta).tally = c.settled (.inviteResponse orq sip nta) := by
    intro hredirect hcrank
    by_cases hstatus : 400 ≤ sip.status ∧ sip.status ≤ 700
    · obtain ⟨hfailed, hsettled⟩ := settled_of_failed hreached ht hstatus nta
      have hroute : c.nextRoute? a sip nta = none := if_neg hcrank
      rw [tally_of_failed hs.next_pos hfailed, hsettled, hroute]
      rfl
    · obtain ⟨hfailed, hsettled⟩ := settled_of_not_failed (c := c) hstatus orq nta
      rw [tally_of_not_failed hs.next_pos h hfailed, hsettled, if_neg fun hif => hredirect hif.2]
  have hending := processInviteResponse_ending hs.next_pos ht hfinal (c.calls.getAssociatedIncoming orq)
    (c.calls.legFromIncoming (c.calls.getAssociatedIncoming orq)) (c.calls.legFromOutgoing orq) nta
  rw [← inviteResponse_of_reached hreached] at hending
  cases hending with
  | answered reply hstatus hreply hcalls hrecords =>
    have hclosed : (c.processInviteResponseInsideDialog orq sip nta).calls.mapTerminationAttempts =
        Function.update c.calls.mapTerminationAttempts orq none := by
      rw [hcalls]
      rfl
    refine invites_of_closed h hclosed (hcounted (fun hredirect => ?_) fun hcrank => ?_)
    · omega
    · exact hcrank.1.status_ne.1 hstatus
  | failed n g hstatus hcrank hredirect hn hg hcalls hrecords =>
    refine invites_of_closed h (failed_tables hcalls).2.1 (hcounted (fun hboth => ?_) fun h => hcrank h.1)
    exact hredirect hboth.1 (hgrants.2 hboth.2)
  | redirected hstatus hnta hcalls hrecords =>
    have hnot : ¬(400 ≤ sip.status ∧ sip.status ≤ 700) := by omega
    obtain ⟨hfailed, hsettled⟩ := settled_of_not_failed (c := c) hnot orq nta
    refine invites_of_update (a := redirectedTo sip a) h hnew (replaced_tables hs h ht' hcalls).1 hsub ?_ ?_
    · exact (congrArg (fun b : Records => b.attempts[t]?) hrecords).trans (Records.getElem?_modifyAttempt ha _)
    · rw [tally_of_not_failed hs.next_pos h hfailed, hsettled, if_pos ⟨hreached, hstatus, hgrants.1 hnta⟩, ht]
      rfl
  | crankedBack route config hcrank hroute hnta hcalls hrecords =>
    have hstatus : 400 ≤ sip.status ∧ sip.status ≤ 700 := by rcases hcrank.1 with h | h <;> omega
    obtain ⟨hfailed, hsettled⟩ := settled_of_failed hreached ht hstatus nta
    refine invites_of_update (a := crankedTo sip route a) h hnew (replaced_tables hs h ht' hcalls).1 hsub ?_ ?_
    · have ha₁ : (c.records.postCopy a.cdr (c.finalCopy .terminationAttempt sip.status)).attempts[t]? = some a := by
        rw [Records.postCopy_attempts]
        exact ha
      exact (congrArg (fun b : Records => b.attempts[t]?) hrecords).trans (Records.getElem?_modifyAttempt ha₁ _)
    · have hnext : c.nextRoute? a sip nta = some route := by
        rw [nextRoute?, if_pos ⟨hcrank, hnta⟩, hroute]
        rfl
      rw [tally_of_failed hs.next_pos hfailed, hsettled, hnext]
      rfl
  | crankbackFailed n route config hcrank hroute hnta hn hcalls hrecords =>
    refine invites_of_closed h (failed_tables hcalls).2.1 (hcounted (fun h => ?_) fun h => hnta h.2)
    exact hcrank.status_ne.2 h.1

/-- **A response** sends an INVITE if it is counted, and is a failure of its own trunk before that. -/
theorem invites_inviteResponse (hs : c.calls.Typed) (h : c.AttemptInv) (orq : Orq) (sip : Response) (nta : Creations) :
    Invites c (c.processInviteResponseInsideDialog orq sip nta) (c.settled (.inviteResponse orq sip nta)) := by
  have hnot : c.failed? orq sip = none → ¬(c.Reached orq ∧ (300 ≤ sip.status ∧ sip.status ≤ 399) ∧ Granted nta ∧
      c.attemptOf orq ≠ none) → (c.processInviteResponseInsideDialog orq sip nta).tally =
        c.settled (.inviteResponse orq sip nta) := by
    intro hfailed hredirects
    rw [tally_of_not_failed hs.next_pos h hfailed, settled, hfailed, Option.elim_none]
    split_ifs with hif
    · have hnone : c.attemptOf orq = none := not_not.1 fun hne => hredirects ⟨hif.1, hif.2.1, hif.2.2, hne⟩
      rw [hnone]
      rfl
    · rfl
  cases ht : c.attemptOf orq with
  | none =>
    have hfailed : c.failed? orq sip = none := by
      rw [failed?, ht]
      split_ifs <;> rfl
    have htally := hnot hfailed fun h => h.2.2.2 ht
    cases turn_inviteResponse hs h orq sip nta with
    | idle hidle hbecomes => exact invites_of_sub h (fun orq t ht => hbecomes.attempts ▸ ht) htally
    | answered hreached hfinal hretries hbecomes => exact invites_of_closed h hbecomes.attempts htally
    | replaced orqNew t hreached hfinal hretries ht' horq hbecomes =>
      exact absurd hretries (not_retries_of_none ht sip nta)
  | some p =>
    obtain ⟨t, a⟩ := p
    obtain ⟨ht', ha⟩ := attemptOf_eq_some ht
    by_cases hreached : c.Reached orq ∧ 200 ≤ sip.status
    · obtain ⟨hreached, hfinal⟩ := hreached
      exact invites_of_ending hs h hreached hfinal ht nta
    · have hfailed : c.failed? orq sip = none := by
        rw [failed?, if_neg fun h => hreached ⟨h.1, by omega⟩]
      have htally := hnot hfailed fun h => hreached ⟨h.1, by omega⟩
      cases turn_inviteResponse hs h orq sip nta with
      | idle hidle hbecomes => exact invites_of_sub h (fun orq t ht => hbecomes.attempts ▸ ht) htally
      | answered hreached' hfinal hretries hbecomes => exact absurd ⟨hreached', hfinal⟩ hreached
      | replaced orqNew t hreached' hfinal hretries ht' horq hbecomes => exact absurd ⟨hreached', hfinal⟩ hreached

/-- No new request, and no response to an INVITE. -/
def SendsNone : ControllerEvent → Prop
  | .requestOutsideDialog _ _ _ | .inviteResponse _ _ _ => False
  | _ => True

theorem invites_of_turn {e : ControllerEvent} (h : c.AttemptInv) (hturn : Turn c c' e) (hnone : SendsNone e)
    (htally : c'.tally = y) : Invites c c' y := by
  cases hturn with
  | idle hidle hbecomes => exact invites_of_sub h (fun orq t ht => hbecomes.attempts ▸ ht) htally
  | opened orqNew t hinvite ht horq hbecomes => exact hnone.elim
  | forwarded orqNew hmethod horq hbecomes => exact invites_of_sub h (fun orq t ht => hbecomes.attempts ▸ ht) htally
  | answered hreached hfinal hretries hbecomes => exact hnone.elim
  | replaced orqNew t hreached hfinal hretries ht horq hbecomes => exact hnone.elim
  | settled hirq hfinal hbecomes => exact invites_of_closed h hbecomes.attempts htally
  | cancelled hnull hleg hbecomes => exact invites_of_closed h hbecomes.attempts htally

/-- **What an event counts** is what it sends and what fails in it. -/
theorem invites_next (hs : c.calls.Typed) (h : c.AttemptInv) {e : ControllerEvent} (he : machine.enabled c e) :
    Invites c (c.next e) (c.settled e) := by
  have hturn := turn_next hs h he
  cases e with
  | requestOutsideDialog sip uuid nta => exact invites_requestOutsideDialog hs h sip uuid nta
  | inviteResponse orq sip nta => exact invites_inviteResponse hs h orq sip nta
  | ackOrCancel irq method => exact invites_of_turn h hturn trivial (tally_processAckOrCancel irq method)
  | requestInsideDialog leg sip nta => exact invites_of_turn h hturn trivial (tally_requestInsideDialog leg sip nta)
  | responseInsideDialog orq sip => exact invites_of_turn h hturn trivial (tally_processResponseInsideDialog orq sip)
  | sessionRefreshTimer leg => exact invites_of_turn h hturn trivial (tally_processSessionRefreshTimer leg)
  | retransmittedResponse leg sip =>
    exact invites_of_turn h hturn trivial (tally_processRetransmittedResponse leg sip)
  | writeCdr connected => exact invites_of_turn h hturn trivial rfl
  | clock now => exact invites_of_turn h hturn trivial rfl
  | monitor fsMonitor => exact invites_of_turn h hturn trivial rfl
  | resetTrunkStats => exact invites_of_turn h hturn trivial rfl

end

end Controller

namespace Tally

/-- The attempts on a trunk. -/
def attempts (y : Tally) (trunk : Bytes) : UInt32 := (y.trunks trunk).elim 0 (·.attempts)

/-- The failures on a trunk with a status. -/
def fails (y : Tally) (trunk : Bytes) (status : ℕ) : UInt32 := (y.trunks trunk).elim 0 (·.fails status)

section

variable (y : Tally) (trunk trunk' carrier : Bytes)

theorem attempts_attempt : (y.attempt trunk carrier).attempts trunk' =
    y.attempts trunk' + if trunk' = trunk then 1 else 0 := by
  unfold attempts attempt
  dsimp only
  split_ifs with heq
  · subst heq
    rw [Function.update_self, Option.elim_some, TrunkStats.attempts_incrementAttemptCount]
    cases y.trunks trunk' <;> rfl
  · rw [Function.update_of_ne heq, UInt32.add_zero]

/-- The failures start from zero with the attempts. -/
theorem fails_attempt (hwrap : trunk' = trunk → y.attempts trunk + 1 ≠ 0) (status : ℕ) :
    (y.attempt trunk carrier).fails trunk' status = y.fails trunk' status := by
  unfold attempts at hwrap
  unfold fails attempt
  dsimp only
  by_cases heq : trunk' = trunk
  · subst heq
    have hne := hwrap rfl
    rw [Function.update_self, Option.elim_some]
    unfold TrunkStats.incrementAttemptCount
    cases htr : y.trunks trunk' with
    | none => rfl
    | some tr =>
      rw [htr, Option.elim_some] at hne
      rw [Option.getD_some, if_neg hne]
      rfl
  · rw [Function.update_of_ne heq]

theorem attempts_failure (status : UInt32) : (y.failure trunk status).attempts trunk' = y.attempts trunk' := by
  unfold attempts failure
  cases htr : y.trunks trunk with
  | none => rfl
  | some tr =>
    dsimp only
    by_cases heq : trunk' = trunk
    · subst heq
      rw [Function.update_self, htr, Option.elim_some, TrunkStats.attempts_incrementFailureCount, Option.elim_some]
    · rw [Function.update_of_ne heq]

theorem fails_failure (hknown : y.trunks trunk ≠ none) (status : UInt32) {status' : ℕ} (hstatus : status' < 700) :
    (y.failure trunk status).fails trunk' status' =
      y.fails trunk' status' + if trunk' = trunk ∧ status' = status.toNat then 1 else 0 := by
  obtain ⟨tr, htr⟩ := Option.ne_none_iff_exists'.1 hknown
  rw [failure_of_some htr]
  unfold fails
  dsimp only
  by_cases heq : trunk' = trunk
  · subst heq
    rw [Function.update_self, htr, Option.elim_some, Option.elim_some]
    unfold TrunkStats.incrementFailureCount
    by_cases hsame : status' = status.toNat
    · subst hsame
      rw [if_pos (UInt32.lt_iff_toNat_lt.2 hstatus), if_pos ⟨rfl, rfl⟩]
      exact Function.update_self _ _ _
    · rw [if_neg fun h : _ ∧ _ => hsame h.2, UInt32.add_zero]
      split_ifs
      · exact Function.update_of_ne hsame _ _
      · rfl
  · rw [Function.update_of_ne heq, if_neg fun h => heq h.1, UInt32.add_zero]

variable {y trunk}

/-- A trunk that is known stays so. -/
theorem attempt_known (h : y.trunks trunk ≠ none) (trunk' carrier : Bytes) :
    (y.attempt trunk' carrier).trunks trunk ≠ none := by
  unfold attempt
  dsimp only
  rw [Function.update_apply]
  split_ifs
  · exact Option.some_ne_none _
  · exact h

theorem attempt_known_self (y : Tally) (trunk carrier : Bytes) : (y.attempt trunk carrier).trunks trunk ≠ none := by
  unfold attempt
  dsimp only
  rw [Function.update_self]
  exact Option.some_ne_none _

theorem failure_known (h : y.trunks trunk ≠ none) (trunk' : Bytes) (status : UInt32) :
    (y.failure trunk' status).trunks trunk ≠ none := by
  unfold failure
  cases y.trunks trunk' with
  | none => exact h
  | some tr =>
    dsimp only
    rw [Function.update_apply]
    split_ifs
    · exact Option.some_ne_none _
    · exact h

theorem reset_known (h : y.trunks trunk ≠ none) : y.reset.trunks trunk ≠ none := fun hnone =>
  h (Option.map_eq_none_iff.1 hnone)

variable (y trunk)

theorem attempts_reset : y.reset.attempts trunk = 0 := by
  unfold attempts reset
  dsimp only
  cases y.trunks trunk <;> rfl

theorem fails_reset (status : ℕ) : y.reset.fails trunk status = 0 := by
  unfold fails reset
  dsimp only
  cases y.trunks trunk <;> rfl

end

end Tally

end Ssp
