import Ssp.Controller.Outcome
import Ssp.Controller.Relay

/-!
# The P-Charge-Info header of an INVITE

`processTerminationRequest` leaves the header of an attempt empty if its route has no charge number. nta
takes no INVITE with an empty header, so such a call fails at once, and the attempts that are in the
table all have a header (`charged_of_reachable`). A redirect keeps the header of its attempt, and a
crankback always makes one.
-/

namespace Ssp

namespace Controller

section

variable {c c' : Controller} {orq : Orq} {t : ℕ} {a : TerminationAttempt}

theorem insertNew_eq_some {m : Orq → Option ℕ} {orqNew : Orq} {t' : ℕ}
    (h : Calls.insertNew m orqNew t orq = some t') : m orq = some t' ∨ t' = t := by
  unfold Calls.insertNew at h
  split_ifs at h
  · exact .inl h
  · by_cases heq : orq = orqNew
    · subst heq
      rw [Function.update_self] at h
      exact .inr (Option.some_inj.1 h).symm
    · rw [Function.update_of_ne heq] at h
      exact .inl h

/-- No attempt loses its header, and an INVITE that comes into the table is one of an attempt with a header. -/
theorem Charged.of_invites (h : c.Charged)
    (hattempts : ∀ (t : ℕ) (a : TerminationAttempt), c.attempts[t]? = some a → a.pChargeInfoHeader ≠ [] →
      ∃ a' : TerminationAttempt, c'.attempts[t]? = some a' ∧ a'.pChargeInfoHeader ≠ [])
    (hinvites : ∀ orq (t : ℕ), c'.calls.mapTerminationAttempts orq = some t →
      c.calls.mapTerminationAttempts orq = some t ∨
        ∃ a : TerminationAttempt, c'.attempts[t]? = some a ∧ a.pChargeInfoHeader ≠ []) :
    c'.Charged := by
  intro orq t ht
  rcases hinvites orq t ht with hold | hnew
  · obtain ⟨a, ha, hheader⟩ := h orq t hold
    exact hattempts t a ha hheader
  · exact hnew

/-- The attempts stay, and no INVITE comes into the table. -/
theorem Charged.of_attempts (h : c.Charged) (hattempts : c'.records.attempts = c.records.attempts)
    (hinvites : ∀ orq t, c'.calls.mapTerminationAttempts orq = some t →
      c.calls.mapTerminationAttempts orq = some t) : c'.Charged :=
  h.of_invites (fun _ a ha hheader => ⟨a, (congrArg (·[_]?) hattempts).trans ha, hheader⟩)
    fun orq t ht => .inl (hinvites orq t ht)

/-- The table stays, too. -/
theorem Charged.of_eq (h : c.Charged) (hrecords : c'.records = c.records)
    (htable : c'.calls.mapTerminationAttempts = c.calls.mapTerminationAttempts) : c'.Charged :=
  h.of_attempts (congrArg Records.attempts hrecords) fun orq _ ht => (congrFun htable orq).symm.trans ht

/-- An INVITE goes out of the table. -/
theorem eq_some_of_update_none {m : Orq → Option ℕ} {orq' : Orq}
    (h : Function.update m orq none orq' = some t) : m orq' = some t := by
  by_cases heq : orq' = orq
  · subst heq
    rw [Function.update_self] at h
    cases h
  · rwa [Function.update_of_ne heq] at h

/-- An attempt is changed and keeps a header, and only it may have another INVITE. -/
theorem Charged.of_modify (h : c.Charged) {g : TerminationAttempt → TerminationAttempt}
    (hg : ∀ a, a.pChargeInfoHeader ≠ [] → (g a).pChargeInfoHeader ≠ [])
    (hattempts : c'.records.attempts = c.attempts.modify t g)
    (hinvites : ∀ orq t', c'.calls.mapTerminationAttempts orq = some t' →
      c.calls.mapTerminationAttempts orq = some t' ∨
        t' = t ∧ ∃ a, c.attempts[t]? = some a ∧ (g a).pChargeInfoHeader ≠ []) : c'.Charged := by
  have hself : ∀ a : TerminationAttempt, c.attempts[t]? = some a → c'.attempts[t]? = some (g a) := by
    intro a ha
    change c'.records.attempts[t]? = _
    rw [hattempts, List.getElem?_modify_eq, ha]
    rfl
  refine h.of_invites (fun t' a ha hheader => ?_) fun orq t' ht' => (hinvites orq t' ht').imp_right ?_
  · by_cases heq : t = t'
    · subst heq
      exact ⟨g a, hself a ha, hg a hheader⟩
    · refine ⟨a, ?_, hheader⟩
      change c'.records.attempts[t']? = _
      rw [hattempts, List.getElem?_modify_ne _ _ heq, ha]
  · rintro ⟨rfl, a, ha, hheader⟩
    exact ⟨g a, hself a ha, hheader⟩

theorem Charged.header_ne_nil (h : c.Charged) (ht : c.attemptOf orq = some (t, a)) : a.pChargeInfoHeader ≠ [] := by
  obtain ⟨ht', ha⟩ := attemptOf_eq_some ht
  obtain ⟨a', ha', hheader⟩ := h orq t ht'
  obtain rfl := Option.some_inj.1 (ha.symm.trans ha')
  exact hheader

/-- nta takes every INVITE of an attempt in the table. -/
theorem Charged.grantsInvite_iff (h : c.Charged) (ht : c.attemptOf orq = some (t, a)) (nta : Creations) :
    GrantsInvite nta a ↔ nta.bLeg = true ∧ nta.orq = true := Controller.grantsInvite_iff (h.header_ne_nil ht) nta

/-! ## The events -/

/-- A new call. -/
theorem charged_requestOutsideDialog (h : c.Charged) (sip : Request) (uuid : Bytes) (nta : Creations) :
    (c.requestOutsideDialog sip uuid nta).Charged := by
  rcases c.requestOutsideDialog_cases sip uuid nta with ⟨⟨i, status, n, -, -, -, hcalls⟩, hrefused⟩ | hopened
  · have htable : (c.requestOutsideDialog sip uuid nta).calls.mapTerminationAttempts =
        c.calls.mapTerminationAttempts := by
      rw [hcalls]
      rfl
    cases hrefused with
    | unreported hrecords => exact h.of_eq hrecords htable
    | reported cdr htype huuid hrecords =>
      exact h.of_attempts (by rw [hrecords]; rfl) fun orq t ht => (congrFun htable orq).symm.trans ht
    | attempted cdr a ha hrecords =>
      have hattempts : (c.requestOutsideDialog sip uuid nta).attempts = c.attempts ++ [a] :=
        congrArg Records.attempts hrecords
      refine h.of_invites (fun t a' ha' hheader => ⟨a', ?_, hheader⟩) fun orq t ht =>
        .inl ((congrFun htable orq).symm.trans ht)
      rw [hattempts, List.getElem?_append_left (List.getElem?_eq_some_iff.1 ha').1, ha']
  · cases hopened with
    | origination request info cdr hinfo hcalls hcdr hrecords =>
      exact h.of_attempts (by rw [hrecords]; rfl) fun orq t ht => by rwa [hcalls] at ht
    | termination aLeg n request info cdr a hn haLeg hinfo hcalls ha hcdr hrecords hheader =>
      have hattempts : (c.requestOutsideDialog sip uuid nta).attempts = c.attempts ++ [a] :=
        congrArg Records.attempts hrecords
      refine h.of_invites (fun t a' ha' hheader' => ⟨a', ?_, hheader'⟩) fun orq t ht => ?_
      · rw [hattempts, List.getElem?_append_left (List.getElem?_eq_some_iff.1 ha').1, ha']
      · -- The new INVITE is the one of the new attempt.
        rw [hcalls] at ht
        rcases insertNew_eq_some ht with hold | rfl
        · exact .inl hold
        · exact .inr ⟨a, by rw [hattempts]; exact List.getElem?_concat_length, hheader⟩

/-- The attempt of the INVITE that failed has no other one. -/
theorem eq_some_of_failed {irq : Irq} {bLeg : Leg} {n : ℕ} {reply : Reply} {orq' : Orq} {t' : ℕ}
    (hcalls : c'.calls = ((Calls.eraseAttempt { c.calls with next := n } orq).settle irq orq reply []).clearDialog bLeg)
    (ht' : c'.calls.mapTerminationAttempts orq' = some t') : c.calls.mapTerminationAttempts orq' = some t' := by
  rw [hcalls, Calls.clearDialog_mapTerminationAttempts] at ht'
  exact eq_some_of_update_none ht'

/-- The attempt has another INVITE. -/
theorem eq_some_or_of_replaced {irq : Irq} {orqNew : Orq} {bLeg bLegNew : Leg} {request : OutgoingRequest} {n : ℕ}
    {orq' : Orq} {t' : ℕ}
    (hcalls : c'.calls = c.calls.replaceAttempt irq orq orqNew bLeg bLegNew request t n)
    (ht' : c'.calls.mapTerminationAttempts orq' = some t') :
    c.calls.mapTerminationAttempts orq' = some t' ∨ t' = t := by
  rw [hcalls, Calls.replaceAttempt_mapTerminationAttempts] at ht'
  exact (insertNew_eq_some ht').imp_left eq_some_of_update_none

/-- The final response to the INVITE of an attempt. -/
theorem Ending.charged {irq : Irq} {bLeg : Leg} {sip : Response} {nta : Creations} (h : c.Charged)
    (hending : Ending c irq orq bLeg t a sip nta c') (ha : c.attempts[t]? = some a) : c'.Charged := by
  cases hending with
  | answered reply hstatus hreply hcalls hrecords =>
    refine h.of_attempts (by rw [hrecords, Records.postCopy_attempts]) fun orq' t' ht' => ?_
    rw [hcalls] at ht'
    exact eq_some_of_update_none ht'
  | failed n g hstatus hcrank hredirect hn hg hcalls hrecords =>
    have hattempts : c'.records.attempts = c.attempts.modify t g := by
      rw [hrecords, Records.postCopy_attempts]
      rfl
    refine h.of_modify ?_ hattempts fun orq' t' ht' => .inl (eq_some_of_failed hcalls ht')
    rcases hg with ⟨rfl, -⟩ | ⟨-, rfl⟩
    · exact fun _ hheader => hheader
    · exact fun _ hheader => hheader
  | redirected hstatus hnta hcalls hrecords =>
    have hattempts : c'.records.attempts = c.attempts.modify t (redirectedTo sip) := by
      rw [hrecords]
      rfl
    exact h.of_modify (g := redirectedTo sip) (fun _ hheader => hheader) hattempts fun orq' t' ht' =>
      (eq_some_or_of_replaced hcalls ht').imp_right fun heq => ⟨heq, a, ha, hnta.2.2⟩
  | crankedBack route config hcrank hroute hnta hcalls hrecords =>
    have hattempts : c'.records.attempts = c.attempts.modify t (crankedTo sip route) := by
      rw [hrecords]
      exact congrArg (List.modify · t _) (Records.postCopy_attempts _ _ _)
    exact h.of_modify (fun _ _ => pChargeInfo_ne_nil _ _) hattempts fun orq' t' ht' =>
      (eq_some_or_of_replaced hcalls ht').imp_right fun heq => ⟨heq, a, ha, pChargeInfo_ne_nil _ _⟩
  | crankbackFailed n route config hcrank hroute hnta hn hcalls hrecords =>
    have hattempts : c'.records.attempts = c.attempts.modify t (crankedTo sip route) := by
      rw [hrecords, Records.postCopy_attempts]
      exact congrArg (List.modify · t _) (Records.postCopy_attempts _ _ _)
    exact h.of_modify (fun _ _ => pChargeInfo_ne_nil _ _) hattempts fun orq' t' ht' =>
      .inl (eq_some_of_failed hcalls ht')

/-- A response to the INVITE of a call. -/
theorem charged_inviteResponse (hs : 0 < c.calls.next) (h : c.Charged) (orq : Orq) (sip : Response)
    (nta : Creations) : (c.processInviteResponseInsideDialog orq sip nta).Charged := by
  by_cases hreached : c.Reached orq
  · rw [inviteResponse_of_reached hreached]
    generalize c.calls.getAssociatedIncoming orq = irq
    generalize c.calls.legFromOutgoing orq = bLeg
    by_cases hfinal : 200 ≤ sip.status
    · cases ht : c.attemptOf orq with
      | some p =>
        have hending := processInviteResponse_ending hs ht hfinal irq (c.calls.legFromIncoming irq) bLeg nta
        exact hending.charged h (attemptOf_eq_some ht).2
      | none =>
        obtain ⟨reply, f, -, -, hcalls, hrecords⟩ := processInviteResponse_origination ht hfinal irq
          (c.calls.legFromIncoming irq) bLeg nta
        refine h.of_attempts ?_ fun orq' t' ht' => ?_
        · rw [hrecords]
          cases c.calls.recordOf (c.calls.legFromIncoming irq) with
          | none => rfl
          | some p => exact Records.postCopy_attempts _ _ _
        · rcases hcalls with ⟨-, k, -, heq⟩ | ⟨-, heq⟩
          · rwa [heq] at ht'
          · rwa [heq, Calls.clearDialog_mapTerminationAttempts] at ht'
    · obtain ⟨hcalls, hrecords⟩ := processInviteResponse_provisional (not_le.1 hfinal) c irq orq
        (c.calls.legFromIncoming irq) bLeg nta
      rcases hcalls with heq | ⟨reply, -, heq⟩
      · exact h.of_eq hrecords (by rw [heq])
      · exact h.of_eq hrecords (by rw [heq]; rfl)
  · obtain ⟨assertion, heq⟩ := inviteResponse_of_not_reached hreached sip nta
    rw [heq]
    exact h

theorem charged_cancel {irq : Irq} (h : c.Charged) (hcrash : ¬(c.processCancel irq).Crashed) :
    (c.processCancel irq).Charged := by
  rcases processCancel_cases hcrash with ⟨-, hrecords, heq | ⟨-, -, heq⟩⟩ | ⟨-, -, heq, hcancel⟩
  · exact h.of_eq hrecords (by rw [heq]; rfl)
  · exact h.of_eq hrecords (by rw [heq, Calls.clearDialog_mapTerminationAttempts]; rfl)
  · refine h.of_attempts ?_ fun orq' t' ht' => ?_
    · cases hcancel with
      | origination p f hp hf hrecords => rw [hrecords]; rfl
      | termination t a f hinfo ht hf hrecords => rw [hrecords, Records.postCopy_attempts]
      | unreported hinfo ht hrecords => rw [hrecords]
    · rw [heq, Calls.eraseAttempt, Calls.clearDialog_mapTerminationAttempts] at ht'
      exact eq_some_of_update_none ht'

theorem charged_requestInsideDialog {leg : Leg} {sip : Request} {nta : Creations} (h : c.Charged)
    (hcrash : ¬(c.requestInsideDialog leg sip nta).Crashed) : (c.requestInsideDialog leg sip nta).Charged := by
  obtain ⟨other, u, -, hu, hcases⟩ := requestInsideDialog_cases hcrash
  have hu' : u.mapTerminationAttempts = c.calls.mapTerminationAttempts := by
    rcases hu with rfl | rfl <;> rfl
  rcases hcases with ⟨-, ⟨i, status, n, -, -, -, heq⟩, hbye⟩ | ⟨-, hcalls, hrecords⟩
  · have htable : (c.requestInsideDialog leg sip nta).calls.mapTerminationAttempts =
        c.calls.mapTerminationAttempts := by
      rw [heq, Calls.refuse, Calls.clearDialog_mapTerminationAttempts]
      split_ifs <;> exact hu'
    refine h.of_attempts ?_ fun orq' t' ht' => (congrFun htable orq').symm.trans ht'
    cases hbye with
    | unreported hbye hrecords => rw [hrecords]
    | reported d released p f hnull hbye hp hf hrecords => rw [hrecords]; rfl
  · refine h.of_eq hrecords (Eq.trans ?_ hu')
    rcases hcalls with ⟨i, status, n, -, -, -, heq⟩ | ⟨orq, request, n, -, -, heq⟩ <;> rw [heq] <;> rfl

theorem charged_responseInsideDialog (h : c.Charged) (orq : Orq) (sip : Response) :
    (c.processResponseInsideDialog orq sip).Charged := by
  obtain ⟨hrecords, hcases⟩ := c.responseInsideDialog_cases orq sip
  refine h.of_eq hrecords ?_
  rcases hcases with ⟨assertion, heq⟩ | ⟨-, u, reply, hu, hcalls⟩
  · rw [heq]
    rfl
  · have hu' : u.mapTerminationAttempts = c.calls.mapTerminationAttempts := by
      rcases hu with rfl | ⟨assertion, rfl⟩ <;> rfl
    rcases hcalls with heq | ⟨acks, heq⟩ <;> rw [heq] <;> exact hu'

/-! ## All runs -/

/-- Every event leaves the attempts in the table with a header. -/
theorem charged_next (hs : 0 < c.calls.next) (h : c.Charged) {e : ControllerEvent} (he : machine.enabled c e) :
    (c.next e).Charged := by
  obtain ⟨hpossible, hcrash⟩ := he
  cases e with
  | requestOutsideDialog sip uuid nta => exact charged_requestOutsideDialog h sip uuid nta
  | inviteResponse orq sip nta => exact charged_inviteResponse hs h orq sip nta
  | ackOrCancel irq method =>
    change (c.processAckOrCancel irq method).Charged
    change ¬(c.processAckOrCancel irq method).Crashed at hcrash
    unfold processAckOrCancel at hcrash ⊢
    split_ifs at hcrash ⊢
    · exact charged_cancel h hcrash
    · exact h
  | requestInsideDialog leg sip nta => exact charged_requestInsideDialog h hcrash
  | responseInsideDialog orq sip => exact charged_responseInsideDialog h orq sip
  | sessionRefreshTimer leg =>
    obtain ⟨d, hd, -⟩ := hpossible
    obtain ⟨hrecords, other, u, -, hu, heq⟩ :=
      sessionRefreshTimer_cases (Option.ne_none_iff_exists'.2 ⟨d, hd⟩) hcrash
    refine h.of_eq hrecords ((congrArg Calls.mapTerminationAttempts heq).trans ?_)
    rw [Calls.clearDialog_mapTerminationAttempts]
    rcases hu with rfl | ⟨assertion, rfl⟩ <;> rfl
  | retransmittedResponse leg sip =>
    obtain ⟨hrecords, heq | heq⟩ := c.retransmittedResponse_cases leg sip
    · exact h.of_eq hrecords (congrArg Calls.mapTerminationAttempts heq)
    · exact h.of_eq hrecords ((congrArg Calls.mapTerminationAttempts heq).trans rfl)
  | writeCdr connected | clock now | monitor fsMonitor | resetTrunkStats => exact h

theorem Initial.charged (hc : c.Initial) : c.Charged := by
  intro orq t ht
  rw [hc.calls] at ht
  cases ht

/-- **Only calls with a charge number are attempted**: in every run, the attempts in the table have a header. -/
theorem charged_of_reachable (hc : machine.Reachable c) : c.Charged := by
  induction hc with
  | init hc => exact Initial.charged hc
  | step hc he ih => exact charged_next (relayInv_of_reachable hc).next_pos ih he

end

end Controller

end Ssp
