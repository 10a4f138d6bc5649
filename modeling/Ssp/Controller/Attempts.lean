import Mathlib.Data.Fintype.EquivFin
import Ssp.Config.Crankback
import Ssp.Config.Offered
import Ssp.Controller.Headers
import Ssp.Controller.Pending
import Ssp.Controller.Setup

/-!
# How often a termination call is attempted

A termination call keeps one `TerminationAttempt` through all its INVITEs. After a 503 or 480
the next carrier is tried as long as `m_nAttemptCount` is less than `m_nTerminationRetries - 1`,
and counted. After a redirect nothing is counted.

`crankbacks_le_iff`: the crankbacks of a call are bounded as the configuration says, unless
`m_nTerminationRetries` is `0` and the subtraction wraps. `invites_bounded_iff`: with redirects,
the INVITEs for a call are not bounded at all. Both need a call that is attempted, so a first
route with a charge number (`SspConfig.ChargesFirst`).
-/

namespace Ssp

namespace Records

/-! ## The counters -/

/-- `m_nAttemptCount` of an attempt, `0` as long as there is none. -/
def attemptCount (b : Records) (t : ℕ) : UInt32 :=
  (b.attempts[t]?.map fun a => a.nAttemptCount).getD 0

/-- Between `b` and `b'`, the attempt `k` was counted up, if there is one. -/
structure Counted (b b' : Records) (k : Option ℕ) : Prop where
  retries : b'.nTerminationRetries = b.nTerminationRetries
  count : ∀ t, b'.attemptCount t = b.attemptCount t + if k = some t then 1 else 0

section

variable {b b' : Records} {k : Option ℕ} {t : ℕ} {a : TerminationAttempt}
  {g : TerminationAttempt → TerminationAttempt}

/-- Nothing is counted where the attempts stay as they are. -/
theorem Counted.of_same (hretries : b'.nTerminationRetries = b.nTerminationRetries)
    (hattempts : b'.attempts = b.attempts) : Counted b b' none := by
  refine ⟨hretries, fun t => ?_⟩
  rw [attemptCount, hattempts, if_neg (Option.some_ne_none t).symm, UInt32.add_zero]
  rfl

/-- A change of other things after the count. -/
theorem Counted.trans_same {b'' : Records} (h : Counted b b' k)
    (hretries : b''.nTerminationRetries = b'.nTerminationRetries)
    (hattempts : b''.attempts = b'.attempts) : Counted b b'' k := by
  refine ⟨hretries.trans h.retries, fun t => ?_⟩
  rw [attemptCount, hattempts]
  exact h.count t

theorem postCopy_retries (b : Records) (p : ℕ) (f : CdrInfo → CdrInfo) :
    (b.postCopy p f).nTerminationRetries = b.nTerminationRetries := by
  unfold postCopy
  cases b.cdrs.at? p <;> rfl

theorem attemptCount_modifyAttempt (ha : b.attempts[t]? = some a) {n : UInt32}
    (hg : Controller.Counts n g) (t' : ℕ) :
    (b.modifyAttempt t g).attemptCount t' = b.attemptCount t' + if t = t' then n else 0 := by
  by_cases heq : t = t'
  · subst heq
    rw [attemptCount, getElem?_modifyAttempt ha, attemptCount, ha, if_pos rfl]
    exact (hg a).2
  · rw [attemptCount, modifyAttempt, List.getElem?_modify_ne _ _ heq, if_neg heq, UInt32.add_zero]
    rfl

/-- An attempt changes, and is counted if `n` is `1`. -/
theorem counted_modifyAttempt (ha : b.attempts[t]? = some a) (hg : Controller.Counts 1 g) :
    Counted b (b.modifyAttempt t g) (some t) := by
  refine ⟨rfl, fun t' => ?_⟩
  rw [attemptCount_modifyAttempt ha hg]
  simp

theorem counted_modifyAttempt_zero (ha : b.attempts[t]? = some a) (hg : Controller.Counts 0 g) :
    Counted b (b.modifyAttempt t g) none := by
  refine ⟨rfl, fun t' => ?_⟩
  rw [attemptCount_modifyAttempt ha hg]
  simp

/-- A new attempt has not been counted yet. -/
theorem counted_addAttempt (b : Records) (cdr : CdrInfo) (ha : a.nAttemptCount = 0) :
    Counted b ((b.draft cdr).addAttempt a) none := by
  refine ⟨rfl, fun t => ?_⟩
  rw [if_neg (Option.some_ne_none t).symm, UInt32.add_zero]
  change ((b.attempts ++ [a])[t]?.map _).getD 0 = _
  rcases lt_trichotomy t b.attempts.length with hlt | rfl | hgt
  · rw [List.getElem?_append_left hlt]
    rfl
  · rw [List.getElem?_concat_length, attemptCount, List.getElem?_eq_none le_rfl]
    exact ha
  · have hlength : (b.attempts ++ [a]).length ≤ t := by
      rw [List.length_append]
      exact hgt
    rw [List.getElem?_eq_none hlength, attemptCount, List.getElem?_eq_none hgt.le]

end

end Records

namespace Controller

/-! ## Crankbacks -/

/-- The attempt that is cranked back by an event: a 503 or 480 comes for its INVITE, and the next
    carrier is tried. -/
def crankbackOf (c : Controller) : ControllerEvent → Option ℕ
  | .inviteResponse orq sip _ =>
    if c.Reached orq then
      (c.attemptOf orq).bind fun p => if c.CranksBack p.2 sip then some p.1 else none
    else none
  | _ => none

/-- The number of crankbacks of an attempt in a run. -/
def crankbacks (c : Controller) (t : ℕ) (es : List ControllerEvent) : ℕ :=
  machine.count (fun c e => c.crankbackOf e = some t) c es

section

variable {c : Controller} {orq : Orq} {sip : Response}

theorem crankbackOf_of_not_reached (h : ¬c.Reached orq) (nta : Creations) :
    c.crankbackOf (.inviteResponse orq sip nta) = none := if_neg h

/-- What is cranked back is the attempt of the INVITE. -/
theorem crankbackOf_of_attempt (h : c.Reached orq) {t : ℕ} {a : TerminationAttempt}
    (ht : c.attemptOf orq = some (t, a)) (nta : Creations) :
    c.crankbackOf (.inviteResponse orq sip nta) = if c.CranksBack a sip then some t else none := by
  change (if _ then _ else _) = _
  rw [if_pos h, ht]
  rfl

theorem crankbackOf_of_no_attempt (ht : c.attemptOf orq = none) (nta : Creations) :
    c.crankbackOf (.inviteResponse orq sip nta) = none := by
  change (if _ then _ else _) = _
  rw [ht]
  exact ite_self _

/-- The final response to an attempt counts it if it is cranked back. -/
theorem Outcome.counted {irq : Irq} {bLeg : Leg} {t : ℕ} {a : TerminationAttempt} {nta : Creations}
    {c' : Controller} (h : Outcome c irq orq bLeg t a sip nta c') (ha : c.attempts[t]? = some a) :
    Records.Counted c.records c'.records (if c.CranksBack a sip then some t else none) := by
  have ha' : ∀ f, (c.records.postCopy a.cdr f).attempts[t]? = some a := by
    intro f
    rw [Records.postCopy_attempts]
    exact ha
  -- The report before the count.
  have hreport : ∀ f b k, Records.Counted (c.records.postCopy a.cdr f) b k →
      Records.Counted c.records b k := by
    intro f b k hb
    refine ⟨hb.retries.trans (Records.postCopy_retries _ _ _), fun t' => (hb.count t').trans ?_⟩
    rw [Records.attemptCount, Records.postCopy_attempts]
    rfl
  cases h with
  | answered reply f hstatus hreply hf hcalls hrecords =>
    rw [if_neg fun h => h.status_ne.1 hstatus, hrecords]
    exact .of_same (Records.postCopy_retries _ _ _) (Records.postCopy_attempts _ _ _)
  | failed n reply g f hstatus hcrank hredirect hn hreply hg hf hcalls hrecords =>
    rw [if_neg hcrank, hrecords]
    exact (Records.counted_modifyAttempt_zero (b := c.records) ha hg).trans_same
      (Records.postCopy_retries _ _ _) (Records.postCopy_attempts _ _ _)
  | redirected request g hstatus hnta hg hcalls hrecords =>
    rw [if_neg fun h => h.status_ne.2 hstatus, hrecords]
    exact (Records.counted_modifyAttempt_zero (b := c.records) ha hg).trans_same rfl rfl
  | crankedBack request f g k hcrank hnta hf hg hk hcalls hrecords =>
    rw [if_pos hcrank, hrecords]
    exact hreport f _ _ ((Records.counted_modifyAttempt (ha' f) hg).trans_same rfl rfl)
  | crankbackFailed n reply f f' g k hcrank hnta hn hreply hf hf' hg hk hcalls hrecords =>
    rw [if_pos hcrank, hrecords]
    exact hreport f _ _ ((Records.counted_modifyAttempt (ha' f) hg).trans_same
      (Records.postCopy_retries _ _ _) (Records.postCopy_attempts _ _ _))

/-- A response to the INVITE of a call. -/
theorem counted_inviteResponse (hs : 0 < c.calls.next) (orq : Orq) (sip : Response) (nta : Creations) :
    Records.Counted c.records (c.processInviteResponseInsideDialog orq sip nta).records
      (c.crankbackOf (.inviteResponse orq sip nta)) := by
  by_cases hreached : c.Reached orq
  · rw [inviteResponse_of_reached hreached]
    by_cases hfinal : 200 ≤ sip.status
    · cases ht : c.attemptOf orq with
      | none =>
        obtain ⟨reply, f, -, -, -, hrecords⟩ := processInviteResponse_origination ht hfinal
          (c.calls.getAssociatedIncoming orq) (c.calls.legFromIncoming (c.calls.getAssociatedIncoming orq))
          (c.calls.legFromOutgoing orq) nta
        rw [crankbackOf_of_no_attempt ht, hrecords]
        cases c.calls.recordOf _ with
        | none => exact .of_same rfl rfl
        | some p => exact .of_same (Records.postCopy_retries _ _ _) (Records.postCopy_attempts _ _ _)
      | some p =>
        rw [crankbackOf_of_attempt hreached ht]
        exact (processInviteResponse_outcome hs ht hfinal _ _ _ nta).counted (attemptOf_eq_some ht).2
    · -- A provisional response is not one to crank back for.
      have hnone : c.crankbackOf (.inviteResponse orq sip nta) = none := by
        cases ht : c.attemptOf orq with
        | none => exact crankbackOf_of_no_attempt ht nta
        | some p =>
          rw [crankbackOf_of_attempt hreached ht, if_neg]
          rintro ⟨h | h, -⟩ <;> omega
      obtain ⟨-, hrecords⟩ := processInviteResponse_provisional (not_le.1 hfinal) c
        (c.calls.getAssociatedIncoming orq) orq
        (c.calls.legFromIncoming (c.calls.getAssociatedIncoming orq)) (c.calls.legFromOutgoing orq) nta
      rw [hnone, hrecords]
      exact .of_same rfl rfl
  · obtain ⟨a, heq⟩ := inviteResponse_of_not_reached hreached sip nta
    rw [crankbackOf_of_not_reached hreached, heq]
    exact .of_same rfl rfl

/-- **The crankbacks are the steps that count an attempt up.** -/
theorem counted_next (hs : 0 < c.calls.next) {e : ControllerEvent} (he : machine.enabled c e) :
    Records.Counted c.records (c.next e).records (c.crankbackOf e) := by
  obtain ⟨hpossible, hcrash⟩ := he
  cases e with
  | requestOutsideDialog sip uuid nta =>
    rcases c.requestOutsideDialog_cases sip uuid nta with ⟨-, hrefused⟩ | hopened
    · cases hrefused with
      | unreported h => exact h ▸ .of_same rfl rfl
      | reported cdr htype huuid h => exact .of_same (h ▸ rfl) (h ▸ rfl)
      | attempted cdr a ha h =>
        change Records.Counted _ (c.requestOutsideDialog sip uuid nta).records none
        rw [h]
        exact Records.counted_addAttempt _ cdr ha.2
    · cases hopened with
      | origination request info cdr hinfo hcalls hcdr hrecords =>
        exact .of_same (hrecords ▸ rfl) (hrecords ▸ rfl)
      | termination aLeg n request info cdr a hn haLeg hinfo hcalls ha hcdr hrecords =>
        change Records.Counted _ (c.requestOutsideDialog sip uuid nta).records none
        rw [hrecords]
        exact Records.counted_addAttempt _ cdr ha.2
  | inviteResponse orq sip nta => exact counted_inviteResponse hs orq sip nta
  | ackOrCancel irq method =>
    change Records.Counted _ (c.processAckOrCancel irq method).records none
    change ¬(c.processAckOrCancel irq method).Crashed at hcrash
    unfold processAckOrCancel at hcrash ⊢
    split_ifs at hcrash ⊢
    · rcases processCancel_cases hcrash with ⟨-, h, -⟩ | ⟨-, -, -, h⟩
      · exact h ▸ .of_same rfl rfl
      · cases h with
        | origination p f hp hf h => exact h ▸ .of_same rfl rfl
        | termination t a f hinfo ht hf h =>
          exact h ▸ .of_same (Records.postCopy_retries _ _ _) (Records.postCopy_attempts _ _ _)
        | unreported hinfo ht h => exact h ▸ .of_same rfl rfl
    · exact .of_same rfl rfl
  | requestInsideDialog leg sip nta =>
    obtain ⟨other, u, -, -, ⟨-, -, h⟩ | ⟨-, -, h⟩⟩ := requestInsideDialog_cases hcrash
    · cases h with
      | unreported hbye h => exact .of_same (h ▸ rfl) (h ▸ rfl)
      | reported d released p f hnull hbye hp hf h => exact .of_same (h ▸ rfl) (h ▸ rfl)
    · exact .of_same (h ▸ rfl) (h ▸ rfl)
  | responseInsideDialog orq sip =>
    have h := (c.responseInsideDialog_cases orq sip).1
    exact .of_same (h ▸ rfl) (h ▸ rfl)
  | sessionRefreshTimer leg =>
    obtain ⟨d, hd, -⟩ := hpossible
    have hleg : c.calls.mapDialogInfo leg ≠ none := by
      rw [show c.calls.mapDialogInfo leg = some d from hd]
      exact Option.some_ne_none _
    have h := (sessionRefreshTimer_cases hleg hcrash).1
    exact .of_same (h ▸ rfl) (h ▸ rfl)
  | retransmittedResponse leg sip =>
    have h := (c.retransmittedResponse_cases leg sip).1
    exact .of_same (h ▸ rfl) (h ▸ rfl)
  | writeCdr connected | clock now | monitor fsMonitor | resetTrunkStats => exact .of_same rfl rfl

/-- An attempt is cranked back only as long as it was counted often enough. -/
theorem lt_of_crankbackOf {e : ControllerEvent} {t : ℕ} (h : c.crankbackOf e = some t) :
    c.records.attemptCount t < c.nTerminationRetries - 1 := by
  cases e with
  | inviteResponse orq sip nta =>
    change (if _ then _ else _) = _ at h
    split_ifs at h
    obtain ⟨⟨t', a⟩, ht, hcrank⟩ := Option.bind_eq_some_iff.1 h
    dsimp only at hcrank
    split_ifs at hcrank with hcranks
    obtain rfl : t' = t := Option.some.inj hcrank
    have hcount : c.records.attemptCount t' = a.nAttemptCount := by
      unfold Records.attemptCount
      rw [show c.records.attempts[t']? = some a from (attemptOf_eq_some ht).2]
      rfl
    rw [hcount]
    exact hcranks.2.1
  | requestOutsideDialog | ackOrCancel | requestInsideDialog | responseInsideDialog
  | sessionRefreshTimer | retransmittedResponse | writeCdr | clock | monitor | resetTrunkStats => cases h

/-- The crankbacks of a call, for any number of attempts that does not let the subtraction wrap. -/
theorem crankbacks_lt (hs : c.calls.RelayInv) (hretries : c.nTerminationRetries ≠ 0) {t : ℕ}
    (ht : c.records.attemptCount t = 0) {es : List ControllerEvent}
    (hes : machine.Along machine.enabled c es) :
    c.crankbacks t es ≤ c.nTerminationRetries.toNat - 1 := by
  have hpos : 0 < c.nTerminationRetries.toNat :=
    Nat.pos_of_ne_zero fun h => hretries (UInt32.toNat_inj.1 h)
  have hsub : (c.nTerminationRetries - 1).toNat = c.nTerminationRetries.toNat - 1 := by
    have hle : (1 : UInt32) ≤ c.nTerminationRetries := UInt32.le_iff_toNat_le.2 hpos
    rw [UInt32.toNat_sub_of_le _ _ hle]
    rfl
  have hle := Machine.count_add_le (m := machine)
    (I := fun c' => c'.calls.RelayInv ∧ c'.nTerminationRetries = c.nTerminationRetries)
    (f := fun c' => (c'.records.attemptCount t).toNat)
    (p := fun c' e => c'.crankbackOf e = some t) (n := c.nTerminationRetries.toNat - 1) ?_
    (s := c) ⟨hs, rfl⟩ (by simp [ht]) hes
  · exact (Nat.le_add_right _ _).trans hle
  · rintro c' e ⟨hinv, hsame⟩ he
    have hcounted := counted_next hinv.next_pos he
    have hlt : c'.crankbackOf e = some t →
        (c'.records.attemptCount t).toNat < c.nTerminationRetries.toNat - 1 := by
      intro h
      rw [← hsub, ← hsame]
      exact UInt32.lt_iff_toNat_lt.1 (lt_of_crankbackOf h)
    refine ⟨⟨hinv.callSteps (callSteps_next hinv.next_pos he.1), hcounted.retries.trans hsame⟩, ?_, ?_⟩
    · change ((c'.next e).records.attemptCount t).toNat = _
      rw [hcounted.count t]
      by_cases h : c'.crankbackOf e = some t
      · have hroom : (c'.records.attemptCount t).toNat + 1 < 2 ^ 32 := by
          have := hlt h
          have := c.nTerminationRetries.toNat_lt
          omega
        simp only [h, if_true, decide_true, Bool.toNat_true]
        rw [UInt32.toNat_add, UInt32.toNat_one, Nat.mod_eq_of_lt hroom]
      · simp [h]
    · exact fun h => hlt (of_decide_eq_true h)

end

/-! ## A call that goes on -/

/-! ### Nothing is missing -/

/-- A failure that has all that is read of it. -/
def failure (status : ℤ) : Response where
  status := status
  sipContact := some {}

theorem absent_inviteResponse (c : Controller) {status : ℤ} (hfinal : 200 < status) (orq : Orq)
    (nta : Creations) : (c.processInviteResponseInsideDialog orq (failure status) nta).absent = c.absent := by
  refine (c.absent_inviteResponse_iff orq (failure status) nta).2 fun _ => ⟨fun _ => by simp [failure], ?_⟩
  cases c.attemptOf orq with
  | none => exact fun hstatus => absurd hstatus (by change ¬status = 200; omega)
  | some p => exact fun _ => by simp [failure]

theorem not_crashed {c : Controller} (habsent : c.absent = []) (hfaults : c.calls.faults = []) :
    ¬c.Crashed := by
  rintro (h | h | h)
  · exact h habsent
  · rw [hfaults] at h
    cases h
  · rw [hfaults] at h
    cases h

/-! ### The only call -/

/-- There is one call, a termination call: `orq` is the INVITE for the attempt `t` to send on
    `irq`, and has no final response yet. -/
structure SoleCall (c : Controller) (irq : Irq) (orq : Orq) (t : ℕ) : Prop where
  inv : c.calls.PairInv
  pair : (irq, orq) ∈ c.calls.transactions
  sole : ∀ p ∈ c.calls.transactions, p = (irq, orq)
  attempt : ∃ a, c.attemptOf orq = some (t, a)
  pending : ∃ o ∈ c.calls.outgoing orq, o.callback = .responseToInvite ∧ o.destroyed = 0
  type : ∃ leg ∈ c.calls.incomingLeg irq, c.calls.callType leg = .termination
  absent : c.absent = []
  charged : c.Charged

section

variable {c : Controller} {irq : Irq} {orq : Orq} {t : ℕ}

theorem SoleCall.reached (h : c.SoleCall irq orq t) : c.Reached orq := by
  obtain ⟨hirqLeg, horqLeg⟩ := h.inv.legs_of_mem h.pair
  have hirq := Calls.getAssociatedIncoming_of_mem h.pair
  unfold Reached
  rw [hirq]
  exact ⟨h.inv.irq_ne_null h.pair, horqLeg, hirqLeg⟩

/-- A failure may come for the INVITE, and nothing goes wrong. -/
theorem SoleCall.enabled (h : c.SoleCall irq orq t) {status : ℤ} (hstatus : 200 < status) :
    machine.enabled c (.inviteResponse orq (failure status) {}) ∧
      (c.next (.inviteResponse orq (failure status) {})).calls.PairInv := by
  have hinv : (c.next (.inviteResponse orq (failure status) {})).calls.PairInv := by
    refine pairInv_next h.inv h.pending trivial fun _ _ leg _ i o hmem => ?_
    obtain ⟨hmem, hne⟩ := Bimap.mem_eraseRight.1 hmem
    exact absurd (congrArg Prod.snd (h.sole _ hmem)) hne
  exact ⟨⟨h.pending,
    not_crashed ((c.absent_inviteResponse hstatus orq {}).trans h.absent) hinv.no_faults⟩, hinv⟩

/-- Another INVITE takes the place of the one that failed. -/
theorem SoleCall.of_replaced (h : c.SoleCall irq orq t) {c' : Controller} (hinv : c'.calls.PairInv)
    (hcharged : c'.Charged) {request : OutgoingRequest}
    (hcalls : c'.calls = c.calls.replaceAttempt irq orq ⟨c.calls.next + 1⟩ (c.calls.legFromOutgoing orq)
      ⟨c.calls.next⟩ request t (c.calls.next + 2))
    (hattempt : ∃ a, c'.attempts[t]? = some a) (habsent : c'.absent = []) :
    c'.SoleCall irq ⟨c.calls.next + 1⟩ t := by
  have hfresh : ∀ p : Irq × Orq, p ∈ c.calls.transactions → p.2 ≠ ⟨c.calls.next + 1⟩ := by
    rintro ⟨i, o⟩ hp rfl
    have := (h.inv.bounds _ _ hp).2.2.2
    dsimp only at this
    omega
  have hmem : ∀ p, p ∈ c'.calls.transactions ↔ p = (irq, ⟨c.calls.next + 1⟩) := by
    intro p
    rw [hcalls, Calls.replaceAttempt_transactions, Bimap.mem_insert_of_new, Bimap.mem_eraseRight]
    · refine or_iff_left_of_imp fun ⟨hp, hne⟩ => absurd (congrArg Prod.snd (h.sole p hp)) hne
    · intro o ho
      obtain ⟨ho, hne⟩ := Bimap.mem_eraseRight.1 ho
      exact hne (congrArg Prod.snd (h.sole _ ho))
    · exact fun i hi => hfresh _ (Bimap.mem_eraseRight.1 hi).1 rfl
  have hne : (⟨c.calls.next + 1⟩ : Orq) ≠ orq := fun heq => hfresh _ h.pair heq.symm
  refine ⟨hinv, (hmem _).2 rfl, fun p hp => (hmem p).1 hp, ?_, ?_, ?_, habsent, hcharged⟩
  · obtain ⟨a, ha⟩ := hattempt
    refine ⟨a, ?_⟩
    have hnew : c.calls.mapTerminationAttempts ⟨c.calls.next + 1⟩ = none :=
      h.inv.attempt_of_fresh (Nat.le_succ _)
    rw [attemptOf, hcalls, Calls.replaceAttempt_mapTerminationAttempts, Calls.insertNew_of_none]
    · simp [ha]
    · rw [Function.update_of_ne hne]
      exact hnew
  · refine ⟨⟨⟨c.calls.next⟩, .responseToInvite, request, 0⟩, ?_, rfl, rfl⟩
    rw [hcalls, Calls.replaceAttempt_outgoing]
    change Function.update (Function.update c.calls.outgoing _ _) orq _ _ = _
    rw [Function.update_of_ne hne, Function.update_self]
  · obtain ⟨leg, hleg, htype⟩ := h.type
    refine ⟨leg, ?_, ?_⟩
    · rw [hcalls, Calls.incomingLeg, Calls.replaceAttempt_incoming]
      exact hleg
    · rw [hcalls]
      simp only [Calls.replaceAttempt, Calls.updateDialog_callType]
      exact htype

/-- **A redirect makes another INVITE for the call**, and the call goes on. -/
theorem SoleCall.redirect (h : c.SoleCall irq orq t) : ∃ e orq', machine.enabled c e ∧
    (c.next e).SoleCall irq orq' t ∧ (c.next e).calls.log = .created irq orq' :: c.calls.log := by
  obtain ⟨a, ha⟩ := h.attempt
  have hirq := Calls.getAssociatedIncoming_of_mem h.pair
  obtain ⟨henabled, hinv⟩ := h.enabled (show (200 : ℤ) < 302 by decide)
  have houtcome := processInviteResponse_outcome h.inv.next_pos ha
    (show 200 ≤ (failure 302).status by decide) (c.calls.getAssociatedIncoming orq)
    (c.calls.legFromIncoming (c.calls.getAssociatedIncoming orq)) (c.calls.legFromOutgoing orq) {}
  rw [← inviteResponse_of_reached h.reached, hirq] at houtcome
  refine ⟨_, ⟨c.calls.next + 1⟩, henabled, ?_⟩
  have habsent := (c.absent_inviteResponse (show (200 : ℤ) < 302 by decide) orq {}).trans h.absent
  have hcharged := charged_next h.inv.next_pos h.charged henabled
  cases houtcome with
  | redirected request g hstatus hnta hg hcalls hrecords =>
    refine ⟨h.of_replaced hinv hcharged hcalls ⟨g a, ?_⟩ habsent, ?_⟩
    · change (c.processInviteResponseInsideDialog orq (failure 302) {}).records.attempts[t]? = _
      rw [hrecords]
      exact Records.getElem?_modifyAttempt (r := c.records) (attemptOf_eq_some ha).2 g
    · exact (congrArg Calls.log hcalls).trans (Calls.replaceAttempt_log ..)
  | answered reply f hstatus => exact absurd hstatus (by decide)
  | failed n reply g f hstatus hcrank hredirect =>
    exact absurd ((h.charged.grantsInvite_iff ha {}).2 ⟨rfl, rfl⟩) (hredirect (by decide))
  | crankedBack request f g k hcrank => exact absurd (by decide) hcrank.status_ne.2
  | crankbackFailed n reply f f' g k hcrank => exact absurd (by decide) hcrank.status_ne.2

/-- A crankback, where there may be one. -/
theorem SoleCall.crankback (h : c.SoleCall irq orq t)
    (hcount : c.records.attemptCount t < c.nTerminationRetries - 1) : ∃ e orq', machine.enabled c e ∧
    (c.next e).SoleCall irq orq' t ∧ c.crankbackOf e = some t := by
  obtain ⟨a, ha⟩ := h.attempt
  have hirq := Calls.getAssociatedIncoming_of_mem h.pair
  obtain ⟨henabled, hinv⟩ := h.enabled (show (200 : ℤ) < 503 by decide)
  have houtcome := processInviteResponse_outcome h.inv.next_pos ha
    (show 200 ≤ (failure 503).status by decide) (c.calls.getAssociatedIncoming orq)
    (c.calls.legFromIncoming (c.calls.getAssociatedIncoming orq)) (c.calls.legFromOutgoing orq) {}
  rw [← inviteResponse_of_reached h.reached, hirq] at houtcome
  have habsent := (c.absent_inviteResponse (show (200 : ℤ) < 503 by decide) orq {}).trans h.absent
  have hcharged := charged_next h.inv.next_pos h.charged henabled
  -- There is always another route.
  have hcranks : c.CranksBack a (failure 503) := by
    refine ⟨.inl rfl, ?_, ?_⟩
    · unfold Records.attemptCount at hcount
      rw [show c.records.attempts[t]? = some a from (attemptOf_eq_some ha).2] at hcount
      exact hcount
    · obtain ⟨route, config, -, hroute, -⟩ := c.config.getTerminationRouteForAltCarrier_spec a.carrier
      rw [hroute]
      exact Option.some_ne_none _
  refine ⟨_, ⟨c.calls.next + 1⟩, henabled, ?_, ?_⟩
  · cases houtcome with
    | crankedBack request f g k hcrank hnta hf hg hk hcalls hrecords =>
      refine h.of_replaced hinv hcharged hcalls ⟨g a, ?_⟩ habsent
      change (c.processInviteResponseInsideDialog orq (failure 503) {}).records.attempts[t]? = _
      rw [hrecords]
      refine Records.getElem?_modifyAttempt ?_ g
      rw [Records.postCopy_attempts]
      exact (attemptOf_eq_some ha).2
    | crankbackFailed n reply f f' g k hcrank hnta => exact absurd ⟨rfl, rfl⟩ hnta
    | answered reply f hstatus => exact absurd hstatus hcranks.status_ne.1
    | failed n reply g f hstatus hcrank => exact absurd hcranks hcrank
    | redirected request g hstatus => exact absurd hstatus hcranks.status_ne.2
  · rw [crankbackOf_of_attempt h.reached ha, if_pos hcranks]

end

/-! ### The call comes in -/

/-- An INVITE of the server `host` that has all that is read of it. -/
structure Complete (sip : Request) (host : Bytes) : Prop where
  method : sip.method = .invite
  valid : sip.validateSipMessage = 0
  contactHost : sip.contactHost? = some host
  payload : sip.sipPayload ≠ none

theorem complete_serverInvite (host : Bytes) : Complete (serverInvite host) host :=
  ⟨rfl, rfl, rfl, Option.some_ne_none _⟩

/-- An INVITE with a telephone number in its From header. -/
def numberInvite (host : Bytes) : Request :=
  { serverInvite host with sipFrom := { url := { user := some ['1'] }, tag := some [] } }

theorem complete_numberInvite (host : Bytes) : Complete (numberInvite host) host :=
  ⟨rfl, rfl, rfl, Option.some_ne_none _⟩

/-- There is no call, and the server `host` is none of the carriers. -/
structure Waiting (c : Controller) (host : Bytes) : Prop where
  reachable : machine.Reachable c
  inv : c.calls.PairInv
  idle : ∀ p, p ∉ c.calls.transactions
  carrier : c.mapInboundCarrier.find? (·.1 = host) = none
  absent : c.absent = []

/-- A run leads to a state with one call, which was not cranked back yet. -/
def CanBeCalled (c : Controller) : Prop :=
  ∃ es irq orq t, machine.Along machine.enabled c es ∧ (machine.exec c es).SoleCall irq orq t ∧
    (machine.exec c es).records.attemptCount t = 0 ∧
    (machine.exec c es).nTerminationRetries = c.nTerminationRetries

/-- The server has reported its address. -/
def known (c : Controller) (host : Bytes) : Controller := c.next (.monitor { setServers := {host} })

section

variable {c : Controller} {sip : Request} {host : Bytes}

theorem Complete.terminates (h : Complete sip host) (htype : (c.determineCallType host).1 = .termination) :
    c.Terminates sip := by
  refine ⟨h.valid, h.method, ?_⟩
  rw [h.contactHost]
  exact htype

theorem Waiting.known (h : c.Waiting host) : machine.enabled c (.monitor { setServers := {host} }) ∧
    (c.known host).Waiting host ∧ ((c.known host).determineCallType host).1 = .termination := by
  have henabled : machine.enabled c (.monitor { setServers := {host} }) :=
    ⟨trivial, not_crashed h.absent h.inv.no_faults⟩
  refine ⟨henabled, ⟨h.reachable.step henabled, h.inv, h.idle, h.carrier, h.absent⟩, ?_⟩
  rw [determineCallType_of_none (c := c.known host) h.carrier]
  exact congrArg Prod.fst (if_pos (decide_eq_true (Finset.mem_singleton_self host)))

/-- An INVITE may come, and nothing goes wrong. -/
theorem Waiting.enabled (h : c.Waiting host) (hsip : Complete sip host) :
    machine.enabled c (.requestOutsideDialog sip [] {}) ∧ (c.requestOutsideDialog sip [] {}).calls.PairInv ∧
      (c.requestOutsideDialog sip [] {}).absent = [] := by
  have hinv : (c.next (.requestOutsideDialog sip [] {})).calls.PairInv :=
    pairInv_next h.inv trivial (fun _ => rfl) trivial
  have habsent : (c.requestOutsideDialog sip [] {}).absent = [] := by
    refine ((absent_requestOutsideDialog_iff hsip.valid [] {}).2 ⟨fun hoptions => ?_, fun _ _ _ _ _ => ?_⟩).trans h.absent
    · rw [hsip.method] at hoptions
      cases hoptions
    · exact hsip.payload
  exact ⟨⟨trivial, not_crashed habsent hinv.no_faults⟩, hinv, habsent⟩

/-- A termination call whose route has a charge number, where nta grants all that is asked for. -/
theorem processTerminationRequest_granted {s : Calls} (hs : c.calls = s.receive .null) (hcharged : c.HasChargedRoute sip) :
    ∃ (c' : Controller) (a : TerminationAttempt) (request : OutgoingRequest) (info : SipDialogInfo),
      a.nAttemptCount = 0 ∧
      c.processTerminationRequest ⟨s.next⟩ sip {} = (c', 0) ∧
      c'.calls = s.openCall .termination ⟨s.next + 1⟩ ⟨s.next + 2⟩ ⟨s.next + 3⟩ request info
        c.attempts.length (s.next + 4) ∧
      c'.records.attempts = c.attempts ++ [a] ∧ c'.records.nTerminationRetries = c.nTerminationRetries := by
  have hnull : (⟨s.next + 1⟩ : Leg) ≠ .null := Handle.mk_ne_null (by omega)
  obtain ⟨⟨route, config⟩, hroute, hnumber⟩ := hcharged
  obtain ⟨ht, cdr, a, ha, hrecords⟩ := newAttempt_spec { c with config := config } sip route
  obtain ⟨a', ha', -, hheader⟩ := newAttempt_attempt { c with config := config } sip route
  have hcalls := (newAttempt_calls { c with config := config } sip route).trans hs
  unfold processTerminationRequest
  rw [show c.firstRoute sip = some (route, config) from hroute]
  dsimp only
  generalize newAttempt { c with config := config } sip route = r at ht ha' hrecords hcalls ⊢
  obtain ⟨t, c₁⟩ := r
  obtain rfl : t = c.attempts.length := ht
  have hattempt : c₁.attempts[c.attempts.length]? = some a := by
    change c₁.records.attempts[_]? = _
    rw [show c₁.records = _ from hrecords]
    exact List.getElem?_concat_length
  obtain rfl := Option.some_inj.1 (hattempt.symm.trans ha')
  unfold terminate
  rw [show c₁.calls = s.receive .null from hcalls]
  obtain ⟨c', heq, hcalls', hrecords', -⟩ := terminateOn_granted
    (c := c₁.withCalls (((s.receive .null).createLeg true).2.bindIncoming ⟨s.next⟩ ⟨s.next + 1⟩)) (s := s)
    ⟨s.next + 1⟩ (s.next + 2) (by rw [if_neg hnull]; exact s.bindIncoming_createLeg) (by omega)
    hattempt ((grantsInvite_first hheader {}).2 ⟨hnumber, rfl, rfl⟩) sip
  refine ⟨c', a, _, _, ha.2, heq, hcalls', ?_, ?_⟩
  · rw [hrecords']
    exact congrArg Records.attempts hrecords
  · rw [hrecords']
    exact congrArg Records.nTerminationRetries hrecords

/-- The INVITE of a server, where nta grants all that is asked for. -/
theorem requestOutsideDialog_server (hsip : Complete sip host)
    (htype : (c.determineCallType host).1 = .termination) (hcharged : c.HasChargedRoute sip) :
    ∃ (a : TerminationAttempt) (request : OutgoingRequest) (info : SipDialogInfo), a.nAttemptCount = 0 ∧
      (c.requestOutsideDialog sip [] {}).calls =
        c.calls.openCall .termination ⟨c.calls.next + 1⟩ ⟨c.calls.next + 2⟩ ⟨c.calls.next + 3⟩ request
          info c.attempts.length (c.calls.next + 4) ∧
      (c.requestOutsideDialog sip [] {}).attempts = c.attempts ++ [a] ∧
      (c.requestOutsideDialog sip [] {}).nTerminationRetries = c.nTerminationRetries := by
  obtain ⟨c', a, request, info, ha, heq, hcalls, hattempts, hretries⟩ :=
    processTerminationRequest_granted (c := c.withCalls (c.calls.receive .null)) (s := c.calls) rfl hcharged
  have hprocess : processRequestOutsideDialog (c.withCalls (c.calls.receive .null)) ⟨c.calls.next⟩ sip [] {} =
      countDown (c', 0) := by
    have hthere : require (c.withCalls (c.calls.receive .null)) .requestContactHost sip.contactHost?.isSome =
        c.withCalls (c.calls.receive .null) := by
      rw [hsip.contactHost]
      rfl
    rcases hcall : c.determineCallType host with ⟨callType, carrier⟩
    obtain rfl : callType = .termination := by rwa [hcall] at htype
    have hcall' : (c.withCalls (c.calls.receive .null)).determineCallType host = (.termination, carrier) := hcall
    unfold processRequestOutsideDialog
    rw [if_neg (not_not.2 hsip.valid), hsip.method]
    change processInvite _ _ _ _ _ = _
    unfold processInvite
    dsimp only
    rw [hthere, hsip.contactHost, Option.getD_some, hcall']
    exact congrArg countDown heq
  -- What the count of the calls leaves alone.
  obtain ⟨n, hcount⟩ : ∃ n, countDown (c', (0 : ℤ)) = ({ c' with nIterationCount := n }, 0) := by
    unfold countDown
    split_ifs
    · exact ⟨_, rfl⟩
    · exact ⟨c'.nIterationCount, rfl⟩
  have hlegRecv : c'.calls.legRecv ⟨c.calls.next⟩ sip.method 0 = c'.calls := by
    have hi : c'.calls.incoming ⟨c.calls.next⟩ = some ⟨⟨c.calls.next + 1⟩, true, 0⟩ := by
      rw [hcalls]
      exact Function.update_self _ _ _
    simp [Calls.legRecv, Calls.legRecvStatus, hi]
  have hrequest : c.requestOutsideDialog sip [] {} =
      withCalls { c' with nIterationCount := n } (c'.calls.legRecv ⟨c.calls.next⟩ sip.method 0) := by
    unfold requestOutsideDialog
    dsimp only
    rw [hprocess, hcount]
  rw [hrequest]
  exact ⟨a, request, info, ha, hlegRecv.trans hcalls, hattempts, hretries⟩

/-- **A call comes in** if its route has a charge number. -/
theorem Waiting.soleCall (h : c.Waiting host) (hsip : Complete sip host)
    (htype : (c.determineCallType host).1 = .termination) (hcharged : c.HasChargedRoute sip) :
    (c.requestOutsideDialog sip [] {}).SoleCall ⟨c.calls.next⟩ ⟨c.calls.next + 3⟩ c.attempts.length ∧
      (c.requestOutsideDialog sip [] {}).records.attemptCount c.attempts.length = 0 ∧
      (c.requestOutsideDialog sip [] {}).nTerminationRetries = c.nTerminationRetries := by
  obtain ⟨henabled, hinv, habsent⟩ := h.enabled hsip
  obtain ⟨a, request, info, ha, hcalls, hattempts, hretries⟩ := requestOutsideDialog_server hsip htype hcharged
  have hattempt : (c.requestOutsideDialog sip [] {}).attempts[c.attempts.length]? = some a := by
    rw [hattempts]
    exact List.getElem?_concat_length
  have hmem : ∀ p, p ∈ (c.requestOutsideDialog sip [] {}).calls.transactions ↔
      p = (⟨c.calls.next⟩, ⟨c.calls.next + 3⟩) := by
    intro p
    rw [hcalls]
    exact (Bimap.mem_insert_of_new (fun _ => h.idle _) fun _ => h.idle _).trans (or_iff_left (h.idle p))
  refine ⟨⟨hinv, (hmem _).2 rfl, fun p hp => (hmem p).1 hp, ⟨a, ?_⟩, ?_, ?_, habsent, ?_⟩, ?_, hretries⟩
  · have hnone : c.calls.mapTerminationAttempts ⟨c.calls.next + 3⟩ = none :=
      h.inv.attempt_of_fresh (Nat.le_add_right _ 3)
    rw [attemptOf, hcalls, show (c.calls.openCall .termination _ _ _ request info _ _).mapTerminationAttempts =
      Calls.insertNew c.calls.mapTerminationAttempts _ _ from rfl, Calls.insertNew_of_none hnone,
      Function.update_self, Option.bind_some, hattempt]
    rfl
  · rw [hcalls]
    exact ⟨_, Function.update_self _ _ _, rfl, rfl⟩
  · rw [hcalls]
    refine ⟨⟨c.calls.next + 1⟩, ?_, Function.update_self _ _ _⟩
    change Option.map _ (Function.update c.calls.incoming _ _ _) = _
    rw [Function.update_self]
    rfl
  · exact charged_next h.inv.next_pos (charged_of_reachable h.reachable) henabled
  · unfold Records.attemptCount
    rw [show (c.requestOutsideDialog sip [] {}).records.attempts[c.attempts.length]? = some a from hattempt]
    exact ha

/-- **A call is refused** if its route has none, and the next one has the next route. -/
theorem Waiting.refused (h : c.Waiting host) (hsip : Complete sip host)
    (htype : (c.determineCallType host).1 = .termination) (hcharged : ¬c.HasChargedRoute sip) :
    (c.requestOutsideDialog sip [] {}).Waiting host ∧
      (c.requestOutsideDialog sip [] {}).config = SspConfig.routing.exec c.config (c.firstCalls sip) ∧
      (c.requestOutsideDialog sip [] {}).nTerminationRetries = c.nTerminationRetries := by
  obtain ⟨henabled, hinv, habsent⟩ := h.enabled hsip
  have hterminates := hsip.terminates htype
  obtain ⟨n, hsetup⟩ := c.setup_next_frame (.requestOutsideDialog sip [] {})
  change (c.requestOutsideDialog sip [] {}).setup = _ at hsetup
  rw [show c.routeCalls (.requestOutsideDialog sip [] {}) = c.firstCalls sip from if_pos hterminates] at hsetup
  have hpairs : (c.requestOutsideDialog sip [] {}).calls.transactions = c.calls.transactions := by
    have hturn := turn_next (typed_of_reachable h.reachable) (attemptInv_of_reachable h.reachable) henabled
    cases hturn with
    | idle hidle hbecomes => exact hbecomes.pairs
    | opened orq t hinvite ht hcharged' => exact absurd (hcharged' hterminates) hcharged
  refine ⟨⟨h.reachable.step henabled, hinv, ?_, ?_, habsent⟩, congrArg Setup.config hsetup,
    congrArg Setup.nTerminationRetries hsetup⟩
  · rw [hpairs]
    exact h.idle
  · rw [show (c.requestOutsideDialog sip [] {}).mapInboundCarrier = c.mapInboundCarrier from
      congrArg Setup.mapInboundCarrier hsetup]
    exact h.carrier

theorem firstCalls_number (c : Controller) (host : Bytes) :
    c.firstCalls (numberInvite host) = [.next] ∧ c.firstRoute (numberInvite host) = c.config.getTerminationRoute := by
  have hnumber : (numberInvite host).isAnonymousCall = false := by
    unfold Request.isAnonymousCall
    rw [Bool.and_eq_false_iff]
    exact .inr rfl
  unfold firstCalls firstRoute
  simp [hnumber]

theorem hasChargedRoute_number (c : Controller) (host : Bytes) :
    c.HasChargedRoute (numberInvite host) ↔ c.config.ChargesFor c.config.currentCarrier := by
  obtain ⟨route, cfg', hnext, -⟩ := c.config.serves_next
  unfold HasChargedRoute
  rw [(c.firstCalls_number host).2, ← SspConfig.chargesFor_of_next hnext, hnext]
  simp

theorem Waiting.canBeCalled_of_charged (h : c.Waiting host) (hsip : Complete sip host)
    (hcharged : c.HasChargedRoute sip) : c.CanBeCalled := by
  obtain ⟨hmonitor, hknown, htype⟩ := h.known
  have henabled := (hknown.enabled hsip).1
  exact ⟨[.monitor { setServers := {host} }, .requestOutsideDialog sip [] {}], _, _, _, ⟨hmonitor, henabled, trivial⟩,
    hknown.soleCall hsip htype hcharged⟩

/-- The calls with a telephone number go on to the carrier that is `d` turns away. -/
theorem Waiting.canBeCalled_of_turns (h : c.Waiting host) {d : ℕ} {carrier : Bytes}
    (hcarrier : c.config.vecTerminationCarrier[(c.config.nCurrentTerminationCarrier + d) %
      c.config.vecTerminationCarrier.length]? = some carrier) (hcharges : c.config.ChargesFor carrier) :
    c.CanBeCalled := by
  induction d generalizing c with
  | zero =>
    rw [Nat.add_zero, Nat.mod_eq_of_lt c.config.current_lt, List.getElem?_eq_getElem c.config.current_lt,
      Option.some_inj] at hcarrier
    refine h.canBeCalled_of_charged (complete_numberInvite host) ((c.hasChargedRoute_number host).2 ?_)
    rwa [SspConfig.currentCarrier, List.get_eq_getElem, hcarrier]
  | succ d ih =>
    by_cases hcharged : c.HasChargedRoute (numberInvite host)
    · exact h.canBeCalled_of_charged (complete_numberInvite host) hcharged
    -- The call is refused, and the next carrier has its turn.
    obtain ⟨hmonitor, hknown, htype⟩ := h.known
    obtain ⟨hwaiting, hconfig, hretries⟩ := hknown.refused (complete_numberInvite host) htype hcharged
    obtain ⟨route, cfg', hnext, hserves, -, hturn⟩ := c.config.serves_next
    have hconfig' : ((c.known host).requestOutsideDialog (numberInvite host) [] {}).config = cfg' := by
      rw [hconfig, (firstCalls_number _ host).1]
      exact SspConfig.routing_next_of_some c.config (show c.config.ask .next = some (route, cfg') from hnext)
    rw [← hserves.chargesFor_iff, ← hconfig'] at hcharges
    have hturn' : (cfg'.nCurrentTerminationCarrier + d) % c.config.vecTerminationCarrier.length =
        (c.config.nCurrentTerminationCarrier + 1 + d) % c.config.vecTerminationCarrier.length := hturn.add_right d
    rw [← Nat.add_assoc, Nat.add_right_comm, ← hturn', ← hserves.carriers, ← hconfig'] at hcarrier
    obtain ⟨es, irq, orq, t, hes, hcall⟩ := ih hwaiting hcarrier hcharges
    exact ⟨.monitor { setServers := {host} } :: .requestOutsideDialog (numberInvite host) [] {} :: es, irq, orq, t,
      ⟨hmonitor, (hknown.enabled (complete_numberInvite host)).1, hes⟩, hcall.1, hcall.2.1, hcall.2.2.trans hretries⟩

/-- **A call can come in**, if calls may go to a carrier with a charge number first. -/
theorem Initial.canBeCalled (h : c.Initial) (hcharges : c.config.ChargesFirst) : c.CanBeCalled := by
  -- A server whose host is none of the carriers'.
  obtain ⟨host, hhost⟩ := Infinite.exists_notMem_finset (c.mapInboundCarrier.map Prod.fst).toFinset
  have hwaiting : c.Waiting host := by
    refine ⟨.init h, h.calls ▸ Calls.pairInv_empty, fun p => ?_, ?_, h.absent⟩
    · rw [h.calls]
      exact Bimap.not_mem_empty p
    · refine List.find?_eq_none.2 fun p hp heq => hhost ?_
      rw [List.mem_toFinset]
      exact List.mem_map.2 ⟨p, hp, of_decide_eq_true heq⟩
  rcases hcharges with ⟨carrier, hmem, hcharges⟩ | ⟨hanonymous, hcharges⟩
  · obtain ⟨i, hi⟩ := List.mem_iff_getElem?.1 hmem
    have hlt := (List.getElem?_eq_some_iff.1 hi).1
    have hcurrent := c.config.current_lt
    -- The number of turns to the carrier.
    refine hwaiting.canBeCalled_of_turns
      (d := c.config.vecTerminationCarrier.length - c.config.nCurrentTerminationCarrier + i) ?_ hcharges
    rw [← hi, show c.config.nCurrentTerminationCarrier + (c.config.vecTerminationCarrier.length -
      c.config.nCurrentTerminationCarrier + i) = i + c.config.vecTerminationCarrier.length by omega,
      Nat.add_mod_right, Nat.mod_eq_of_lt hlt]
  · -- A call without a telephone number.
    refine hwaiting.canBeCalled_of_charged (complete_serverInvite host) ?_
    obtain ⟨r, hr, hnumber⟩ := hcharges
    refine ⟨(⟨r.getNextTrunk.1, c.config.strAnonymousCallRoutingCarrier, r.chargeNumber⟩,
      c.config.takeTrunk c.config.strAnonymousCallRoutingCarrier), ?_, hnumber⟩
    have hroute : c.config.getTerminationRouteForCarrier c.config.strAnonymousCallRoutingCarrier =
        some (⟨r.getNextTrunk.1, c.config.strAnonymousCallRoutingCarrier, r.chargeNumber⟩,
          c.config.takeTrunk c.config.strAnonymousCallRoutingCarrier) := by
      unfold SspConfig.getTerminationRouteForCarrier
      rw [show c.config.mapTerminationCarrierByName.find? c.config.strAnonymousCallRoutingCarrier = some r from hr]
    unfold firstRoute
    dsimp only
    rw [if_pos ⟨hanonymous, rfl⟩, hroute]
    rfl

end

/-! ### No call is attempted -/

section

variable {c : Controller}

/-- The first route of a call has a charge number only if there is one to be had. -/
theorem HasChargedRoute.chargesFirst {sip : Request} (h : c.HasChargedRoute sip) : c.config.ChargesFirst := by
  obtain ⟨⟨route, config⟩, hroute, hnumber⟩ := h
  unfold firstRoute at hroute
  dsimp only at hroute
  have hnext : c.config.getTerminationRoute = some (route, config) → c.config.ChargesFirst := fun hroute =>
    .inl ⟨c.config.currentCarrier, List.get_mem _ _, (SspConfig.chargesFor_of_next hroute).1 hnumber⟩
  split_ifs at hroute with hanonymous
  · cases hcarrier : c.config.getTerminationRouteForCarrier c.config.strAnonymousCallRoutingCarrier with
    | none =>
      rw [hcarrier] at hroute
      exact hnext hroute
    | some r =>
      rw [hcarrier] at hroute
      obtain rfl := Option.some_inj.1 hroute
      exact .inr ⟨hanonymous.1, (SspConfig.chargesFor_of_forCarrier hcarrier).1 hnumber⟩
  · exact hnext hroute

/-- There is no termination call, and none was there before. -/
structure Unattempted (c : Controller) : Prop where
  reachable : machine.Reachable c
  config : ¬c.config.ChargesFirst
  attempts : ∀ orq, c.calls.mapTerminationAttempts orq = none
  types : ∀ leg, c.calls.callType leg ≠ .termination

theorem Unattempted.attemptOf (h : c.Unattempted) (orq : Orq) : c.attemptOf orq = none := by
  unfold Controller.attemptOf
  rw [h.attempts]
  rfl

theorem Unattempted.attempts_next (h : c.Unattempted) {e : ControllerEvent} (he : machine.enabled c e) (orq : Orq) :
    (c.next e).calls.mapTerminationAttempts orq = none := by
  have hupdate : ∀ orq', Function.update c.calls.mapTerminationAttempts orq' none orq = none := by
    intro orq'
    rw [Function.update_apply, h.attempts, ite_self]
  cases turn_next (typed_of_reachable h.reachable) (attemptInv_of_reachable h.reachable) he with
  | idle hidle hbecomes => rw [hbecomes.attempts, h.attempts]
  | opened orq' t hinvite ht hcharged horq hbecomes =>
    obtain rfl : t = none := not_not.1 fun hne => h.config (hcharged (ht.1 hne)).chargesFirst
    rw [hbecomes.attempts, hupdate]
  | forwarded orq' hmethod horq hbecomes => rw [hbecomes.attempts, h.attempts]
  | answered hreached hfinal hretries hbecomes => rw [hbecomes.attempts, hupdate]
  | replaced orqNew t hreached hfinal hretries ht =>
    rw [h.attempts] at ht
    cases ht
  | settled hirq hfinal hbecomes => rw [hbecomes.attempts, hupdate]
  | cancelled hnull hleg hbecomes => rw [hbecomes.attempts, hupdate]

theorem Unattempted.types_requestOutsideDialog (h : c.Unattempted) {sip : Request} {uuid : Bytes} {nta : Creations}
    (hattempts : ∀ orq, (c.requestOutsideDialog sip uuid nta).calls.mapTerminationAttempts orq = none) (leg : Leg) :
    (c.requestOutsideDialog sip uuid nta).calls.callType leg ≠ .termination := by
  rcases c.requestOutsideDialog_cases sip uuid nta with ⟨⟨i, status, n, -, -, -, heq⟩, -⟩ | hopened
  · rw [heq]
    exact h.types leg
  · cases hopened with
    | origination request info cdr hinfo hcalls =>
      rw [hcalls]
      change Function.update c.calls.callType _ _ leg ≠ _
      rw [Function.update_apply]
      split_ifs
      · exact CallType.noConfusion
      · exact h.types leg
    | termination aLeg n request info cdr a hn haLeg hinfo hcalls =>
      have hnew := hattempts ⟨n + 1⟩
      rw [hcalls] at hnew
      change Calls.insertNew _ _ _ _ = none at hnew
      rw [Calls.insertNew_of_none (h.attempts _), Function.update_self] at hnew
      cases hnew

theorem Unattempted.callType_inviteResponse (h : c.Unattempted) (orq : Orq) (sip : Response) (nta : Creations) :
    (c.processInviteResponseInsideDialog orq sip nta).calls.callType = c.calls.callType := by
  by_cases hreached : c.Reached orq
  · rw [inviteResponse_of_reached hreached]
    generalize c.calls.getAssociatedIncoming orq = irq
    by_cases hfinal : 200 ≤ sip.status
    · obtain ⟨reply, f, -, -, hcalls, -⟩ := processInviteResponse_origination (h.attemptOf orq) hfinal irq
        (c.calls.legFromIncoming irq) (c.calls.legFromOutgoing orq) nta
      rcases hcalls with ⟨-, k, -, heq⟩ | ⟨-, heq⟩ <;> rw [heq]
      · rfl
      · exact Calls.clearDialog_callType _ _
    · obtain ⟨hcalls, -⟩ := processInviteResponse_provisional (not_le.1 hfinal) c irq orq
        (c.calls.legFromIncoming irq) (c.calls.legFromOutgoing orq) nta
      rcases hcalls with heq | ⟨reply, -, heq⟩ <;> rw [heq]
      rfl
  · obtain ⟨assertion, heq⟩ := inviteResponse_of_not_reached hreached sip nta
    rw [heq]
    rfl

theorem callType_cancel {irq : Irq} (hcrash : ¬(c.processCancel irq).Crashed) :
    (c.processCancel irq).calls.callType = c.calls.callType := by
  rcases processCancel_cases hcrash with ⟨-, -, heq | ⟨-, -, heq⟩⟩ | ⟨-, -, heq, -⟩ <;> rw [heq]
  · rfl
  · exact Calls.clearDialog_callType _ _
  · exact Calls.clearDialog_callType _ _

theorem callType_requestInsideDialog {leg : Leg} {sip : Request} {nta : Creations}
    (hcrash : ¬(c.requestInsideDialog leg sip nta).Crashed) :
    (c.requestInsideDialog leg sip nta).calls.callType = c.calls.callType := by
  obtain ⟨other, u, -, hu, hcases⟩ := requestInsideDialog_cases hcrash
  have hu' : u.callType = c.calls.callType := by rcases hu with rfl | rfl <;> rfl
  rcases hcases with ⟨-, ⟨i, status, n, -, -, -, heq⟩, -⟩ | ⟨-, hcalls, -⟩
  · rw [heq, Calls.refuse, Calls.clearDialog_callType]
    split_ifs <;> exact hu'
  · rcases hcalls with ⟨i, status, n, -, -, -, heq⟩ | ⟨orq, request, n, -, -, heq⟩ <;> rw [heq] <;> exact hu'

theorem callType_responseInsideDialog (c : Controller) (orq : Orq) (sip : Response) :
    (c.processResponseInsideDialog orq sip).calls.callType = c.calls.callType := by
  obtain ⟨-, ⟨assertion, heq⟩ | ⟨-, u, reply, hu, hcalls⟩⟩ := c.responseInsideDialog_cases orq sip
  · rw [heq]
    rfl
  · have hu' : u.callType = c.calls.callType := by rcases hu with rfl | ⟨assertion, rfl⟩ <;> rfl
    rcases hcalls with heq | ⟨acks, heq⟩ <;> rw [heq] <;> exact hu'

/-- Only a new call has a type. -/
theorem Unattempted.types_next (h : c.Unattempted) {e : ControllerEvent} (he : machine.enabled c e) (leg : Leg) :
    (c.next e).calls.callType leg ≠ .termination := by
  have hattempts := h.attempts_next he
  have hsame : ∀ c' : Controller, c'.calls.callType = c.calls.callType → c'.calls.callType leg ≠ .termination :=
    fun _ heq => heq ▸ h.types leg
  obtain ⟨hpossible, hcrash⟩ := he
  cases e with
  | requestOutsideDialog sip uuid nta => exact h.types_requestOutsideDialog hattempts leg
  | inviteResponse orq sip nta => exact hsame _ (h.callType_inviteResponse orq sip nta)
  | ackOrCancel irq method =>
    change (c.processAckOrCancel irq method).calls.callType leg ≠ _
    change ¬(c.processAckOrCancel irq method).Crashed at hcrash
    unfold processAckOrCancel at hcrash ⊢
    split_ifs at hcrash ⊢
    · exact hsame _ (callType_cancel hcrash)
    · exact h.types leg
  | requestInsideDialog leg' sip nta => exact hsame _ (callType_requestInsideDialog hcrash)
  | responseInsideDialog orq sip => exact hsame _ (c.callType_responseInsideDialog orq sip)
  | sessionRefreshTimer leg' =>
    obtain ⟨d, hd, -⟩ := hpossible
    obtain ⟨-, other, u, -, hu, heq⟩ := sessionRefreshTimer_cases (Option.ne_none_iff_exists'.2 ⟨d, hd⟩) hcrash
    refine hsame _ ((congrArg Calls.callType heq).trans ((Calls.clearDialog_callType _ _).trans ?_))
    rcases hu with rfl | ⟨assertion, rfl⟩ <;> rfl
  | retransmittedResponse leg' sip =>
    obtain ⟨-, heq | heq⟩ := c.retransmittedResponse_cases leg' sip
    · exact hsame _ (congrArg Calls.callType heq)
    · exact hsame _ ((congrArg Calls.callType heq).trans rfl)
  | writeCdr connected | clock now | monitor fsMonitor | resetTrunkStats => exact h.types leg

theorem Unattempted.next (h : c.Unattempted) {e : ControllerEvent} (he : machine.enabled c e) :
    (c.next e).Unattempted := by
  refine ⟨h.reachable.step he, ?_, h.attempts_next he, h.types_next he⟩
  rw [c.config_next, SspConfig.chargesFirst_exec]
  exact h.config

theorem Initial.unattempted (h : c.Initial) (hcharges : ¬c.config.ChargesFirst) : c.Unattempted :=
  ⟨.init h, hcharges, fun _ => congrFun (congrArg Calls.mapTerminationAttempts h.calls) _,
    fun leg htype => by rw [h.calls] at htype; cases htype⟩

/-- **Without a charge number there are no attempts**, in all runs. -/
theorem Unattempted.exec (h : c.Unattempted) {es : List ControllerEvent} (hes : machine.Along machine.enabled c es) :
    (machine.exec c es).Unattempted :=
  Machine.exec_invariant (m := machine) (P := fun _ => True) (fun _ _ h he _ => h.next he) h hes fun _ _ => trivial

end

/-! ## The bounds -/

/-- The number of INVITEs created to send on `irq`. -/
def invitesFor (c : Controller) (irq : Irq) : ℕ :=
  c.calls.log.countP fun e => (e.createdFor irq).isSome

/-- `irq` is the INVITE of a termination call. -/
def IsTermination (c : Controller) (irq : Irq) : Prop :=
  ∃ leg ∈ c.calls.incomingLeg irq, c.calls.callType leg = .termination

/-- In all runs, no termination call has more than `n` INVITEs. -/
def InvitesBounded (c : Controller) (n : ℕ) : Prop :=
  ∀ es, machine.Along machine.enabled c es → ∀ irq, (machine.exec c es).IsTermination irq →
    (machine.exec c es).invitesFor irq ≤ n

/-- In all runs, no call is cranked back more often than the configuration says. -/
def CrankbacksBounded (c : Controller) : Prop :=
  ∀ es, machine.Along machine.enabled c es → ∀ t, c.crankbacks t es ≤
    max 1 (min c.config.getCountOfOutboundTrunks c.config.nMaxTerminationAttempts.toNat) - 1

section

variable {c : Controller} {irq : Irq} {orq : Orq} {t : ℕ}

/-- A call with any number of INVITEs more. -/
theorem SoleCall.exists_invites (h : c.SoleCall irq orq t) (n : ℕ) : ∃ es orq',
    machine.Along machine.enabled c es ∧ (machine.exec c es).SoleCall irq orq' t ∧
      (machine.exec c es).invitesFor irq = c.invitesFor irq + n := by
  induction n generalizing c orq with
  | zero => exact ⟨[], orq, trivial, h, rfl⟩
  | succ n ih =>
    obtain ⟨e, orq₁, he, h₁, hlog⟩ := h.redirect
    obtain ⟨es, orq', hes, h', hcount⟩ := ih h₁
    refine ⟨e :: es, orq', ⟨he, hes⟩, h', hcount.trans ?_⟩
    have hone : (c.next e).invitesFor irq = c.invitesFor irq + 1 := by
      unfold invitesFor
      rw [hlog, List.countP_cons_of_pos]
      simp [CallEvent.createdFor]
    rw [hone]
    omega

/-- **The INVITEs of a call are not bounded** if there can be one. -/
theorem Initial.not_invitesBounded (h : c.Initial) (hcharges : c.config.ChargesFirst) (n : ℕ) :
    ¬c.InvitesBounded n := by
  intro hbounded
  obtain ⟨es, irq, orq, t, hes, hsole, -, -⟩ := h.canBeCalled hcharges
  obtain ⟨es', orq', hes', hsole', hcount⟩ := hsole.exists_invites (n + 1)
  have hle := hbounded (es ++ es') (Machine.along_append hes hes') irq ?_
  · rw [Machine.exec_append, hcount] at hle
    omega
  · rw [Machine.exec_append]
    exact hsole'.type

/-- A call with any number of crankbacks, up to the largest count, where the subtraction wraps. -/
theorem SoleCall.exists_crankbacks (h : c.SoleCall irq orq t) (hretries : c.nTerminationRetries = 0)
    (n : ℕ) (hn : (c.records.attemptCount t).toNat + n < 2 ^ 32) : ∃ es,
    machine.Along machine.enabled c es ∧ c.crankbacks t es = n := by
  induction n generalizing c orq with
  | zero => exact ⟨[], trivial, rfl⟩
  | succ n ih =>
    have hcount : c.records.attemptCount t < c.nTerminationRetries - 1 := by
      rw [hretries, UInt32.lt_iff_toNat_lt]
      have hwrap : (0 - 1 : UInt32).toNat = 2 ^ 32 - 1 := rfl
      omega
    obtain ⟨e, orq₁, he, h₁, hcrank⟩ := h.crankback hcount
    have hcounted := counted_next h.inv.next_pos he
    have hone : ((c.next e).records.attemptCount t).toNat = (c.records.attemptCount t).toNat + 1 := by
      rw [hcounted.count t, hcrank, if_pos rfl, UInt32.toNat_add, UInt32.toNat_one, Nat.mod_eq_of_lt]
      omega
    obtain ⟨es, hes, heq⟩ := ih h₁ (hcounted.retries.trans hretries) (by omega)
    refine ⟨e :: es, ⟨he, hes⟩, ?_⟩
    change (decide (c.crankbackOf e = some t)).toNat + (c.next e).crankbacks t es = _
    rw [heq, hcrank]
    simp [Nat.add_comm]

/-- Where the subtraction wraps, there are more crankbacks than the configuration says. -/
theorem Initial.not_crankbacksBounded (h : c.Initial) (hcharges : c.config.ChargesFirst)
    (hretries : c.nTerminationRetries = 0) : ¬c.CrankbacksBounded := by
  intro hbounded
  obtain ⟨es, irq, orq, t, hes, hsole, hcount, hsame⟩ := h.canBeCalled hcharges
  obtain ⟨es', hes', heq⟩ := hsole.exists_crankbacks (hsame.trans hretries)
    (max 1 (min c.config.getCountOfOutboundTrunks c.config.nMaxTerminationAttempts.toNat)) (by
      have := c.config.nMaxTerminationAttempts.toNat_lt
      rw [hcount, UInt32.toNat_zero]
      omega)
  have hle := hbounded (es ++ es') (Machine.along_append hes hes') t
  unfold crankbacks at hle heq
  rw [Machine.count_append, heq] at hle
  omega

/-- `m_nTerminationRetries` as a number. -/
theorem Initial.toNat_retries (h : c.Initial) : c.nTerminationRetries.toNat =
    min (c.config.getCountOfOutboundTrunks % 2 ^ 32) c.config.nMaxTerminationAttempts.toNat := by
  have hofNat : (UInt32.ofNat c.config.getCountOfOutboundTrunks).toNat =
      c.config.getCountOfOutboundTrunks % 2 ^ 32 := UInt32.toNat_ofNat'
  rw [h.nTerminationRetries, ← hofNat]
  change (if _ ≤ _ then _ else _ : UInt32).toNat = _
  split_ifs with hle
  · exact (min_eq_left (UInt32.le_iff_toNat_le.1 hle)).symm
  · exact (min_eq_right (not_le.1 fun hle' => hle (UInt32.le_iff_toNat_le.2 hle')).le).symm

/-- `m_nTerminationRetries` is `0` exactly if one of the two numbers it is the minimum of is. -/
theorem Initial.retries_eq_zero_iff (h : c.Initial) : c.nTerminationRetries = 0 ↔
    c.config.nMaxTerminationAttempts = 0 ∨ c.config.getCountOfOutboundTrunks % 2 ^ 32 = 0 := by
  rw [← UInt32.toNat_inj, ← UInt32.toNat_inj, h.toNat_retries, UInt32.toNat_zero]
  omega

/-- A call that is not attempted is not cranked back. -/
theorem Unattempted.crankbacks_eq_zero (h : c.Unattempted) {es : List ControllerEvent}
    (hes : machine.Along machine.enabled c es) : c.crankbacks t es = 0 := by
  have hle := Machine.count_add_le (m := machine) (I := Unattempted) (f := fun _ => 0)
    (p := fun c e => c.crankbackOf e = some t) (n := 0) ?_ h le_rfl hes
  · exact Nat.eq_zero_of_le_zero hle
  · intro c e h he
    have hnone : c.crankbackOf e ≠ some t := by
      intro hcrank
      cases e with
      | inviteResponse orq sip nta =>
        rw [crankbackOf_of_no_attempt (h.attemptOf orq)] at hcrank
        cases hcrank
      | _ => cases hcrank
    exact ⟨h.next he, by simp [hnone], fun hcrank => absurd (of_decide_eq_true hcrank) hnone⟩

/-- **How often a call is cranked back.** The bound of the configuration holds exactly if the
number the count is compared to does not wrap: `max-termination-attempts` is not `0`, and neither
is the number of trunks. Or if no call is attempted, as no carrier that is called first has a
charge number. -/
theorem crankbacks_le_iff (h : c.Initial) : c.CrankbacksBounded ↔
    (c.config.nMaxTerminationAttempts ≠ 0 ∧ c.config.getCountOfOutboundTrunks % 2 ^ 32 ≠ 0) ∨
      ¬c.config.ChargesFirst := by
  have hzero := h.retries_eq_zero_iff
  constructor
  · intro hbounded
    refine or_iff_not_imp_right.2 fun hcharges => ?_
    have hretries : c.nTerminationRetries ≠ 0 := fun hretries =>
      h.not_crankbacksBounded (not_not.1 hcharges) hretries hbounded
    exact not_or.1 fun hor => hretries (hzero.2 hor)
  · rintro (hne | hcharges) es hes t
    · have hretries : c.nTerminationRetries ≠ 0 := fun hretries => not_or.2 hne (hzero.1 hretries)
      have hcount : c.records.attemptCount t = 0 := by
        unfold Records.attemptCount
        rw [show c.records.attempts = [] from h.attempts]
        rfl
      have hrelay : c.calls.RelayInv := h.calls ▸ Calls.relayInv_empty
      have hle := crankbacks_lt hrelay hretries hcount hes
      have hmod : c.config.getCountOfOutboundTrunks % 2 ^ 32 ≤ c.config.getCountOfOutboundTrunks :=
        Nat.mod_le _ _
      rw [h.toNat_retries] at hle
      omega
    · rw [(h.unattempted hcharges).crankbacks_eq_zero hes]
      exact Nat.zero_le _

/-- The bound holds for the example. -/
theorem crankbacks_le_exampleStart : exampleStart.CrankbacksBounded :=
  (crankbacks_le_iff exampleStart_initial).2 (.inl ⟨by decide, by decide⟩)

/-- A controller with one trunk and no attempts. -/
def exampleNoAttempts : Controller :=
  let outbound : Outbound := { addresses := [{ address := ['t'] }], chargeNumber := ['9'] }
  let config := (SspConfig.load [{ name := ['c'], outbound := some outbound }] 0 []).get (by decide)
  { exampleStart with
    config := config
    nTerminationRetries := min (UInt32.ofNat config.getCountOfOutboundTrunks) config.nMaxTerminationAttempts }

/-- With `max-termination-attempts` set to `0`, calls are cranked back. -/
theorem exampleNoAttempts_unbounded : exampleNoAttempts.Initial ∧
    exampleNoAttempts.config.getCountOfOutboundTrunks = 1 ∧
      exampleNoAttempts.config.nMaxTerminationAttempts = 0 ∧ ¬exampleNoAttempts.CrankbacksBounded := by
  have hinit : exampleNoAttempts.Initial := { exampleStart_initial with nTerminationRetries := rfl }
  exact ⟨hinit, by decide, by decide, hinit.not_crankbacksBounded (by decide) (by decide)⟩

/-- **The INVITEs of a termination call are not bounded**, unless no call is attempted at all: no
    carrier that is called first has a charge number. -/
theorem invites_bounded_iff (h : c.Initial) : (∃ n, c.InvitesBounded n) ↔ ¬c.config.ChargesFirst := by
  constructor
  · rintro ⟨n, hn⟩ hcharges
    exact h.not_invitesBounded hcharges n hn
  · intro hcharges
    refine ⟨0, fun es hes irq htermination => ?_⟩
    -- There is no termination call then.
    obtain ⟨leg, -, htype⟩ := htermination
    exact absurd htype (((h.unattempted hcharges).exec hes).types leg)

/-- The example has no bound. -/
theorem invites_unbounded_exampleStart : ¬∃ n, exampleStart.InvitesBounded n := fun hbounded =>
  (invites_bounded_iff exampleStart_initial).1 hbounded (by decide)

/-- More INVITEs than any number that is guessed. -/
theorem exampleStart_not_bounded :
    exampleStart.Initial ∧ ∀ n, ¬exampleStart.InvitesBounded n :=
  ⟨exampleStart_initial, exampleStart_initial.not_invitesBounded (by decide)⟩

end

end Controller

end Ssp
