import Ssp.Controller.Typed

/-!
# The statistics of the trunks

An attempt on a trunk is counted in `generateTerminationRequest`, when its INVITE is sent, and its
failure in `processInviteResponseInsideDialog`, when the response comes. In between, the counts may
have been reset from the stats connection.

`Tally` has what is counted. A response takes it through a failure and perhaps an attempt
(`tally_of_failed`), and any other event through at most one attempt, so what a step does to the counts
is known from the state before it (`consistent_next_iff`). The counts stay consistent exactly as
long as every failure that comes finds an attempt that it can be the failure of, and no response has
the status 700 (`always_consistent_iff`).
-/

namespace Ssp

/-! ## The counts of a trunk -/

/-- `TrunkStats::getFailureCount`. -/
def TrunkStats.getFailureCount (tr : TrunkStats) : UInt32 :=
  (List.range 700).foldl (fun total i => total + tr.fails i) 0

section

variable {f g : ℕ → UInt32} {l : List ℕ} {i : ℕ}

theorem foldl_add_eq (f : ℕ → UInt32) (l : List ℕ) (n : UInt32) :
    l.foldl (fun total i => total + f i) n = n + l.foldl (fun total i => total + f i) 0 := by
  induction l generalizing n with
  | nil => exact (UInt32.add_zero n).symm
  | cons i l ih =>
    rw [List.foldl_cons, List.foldl_cons, ih, ih (0 + f i), UInt32.zero_add, UInt32.add_assoc]

theorem foldl_add_cons (f : ℕ → UInt32) (i : ℕ) (l : List ℕ) :
    (i :: l).foldl (fun total i => total + f i) 0 = f i + l.foldl (fun total i => total + f i) 0 := by
  rw [List.foldl_cons, foldl_add_eq, UInt32.zero_add]

theorem foldl_add_congr (h : ∀ i ∈ l, f i = g i) :
    l.foldl (fun total i => total + f i) 0 = l.foldl (fun total i => total + g i) 0 := by
  induction l with
  | nil => rfl
  | cons i l ih =>
    rw [foldl_add_cons, foldl_add_cons, h i List.mem_cons_self, ih fun j hj => h j (List.mem_cons_of_mem i hj)]

/-- One more at a place that is added once. -/
theorem foldl_add_update (f : ℕ → UInt32) (hnodup : l.Nodup) (hi : i ∈ l) :
    l.foldl (fun total j => total + Function.update f i (f i + 1) j) 0 =
      l.foldl (fun total j => total + f j) 0 + 1 := by
  induction l with
  | nil => cases hi
  | cons j l ih =>
    obtain ⟨hj, hnodup⟩ := List.nodup_cons.1 hnodup
    rw [foldl_add_cons, foldl_add_cons]
    by_cases heq : i = j
    · subst heq
      have hrest : ∀ k ∈ l, Function.update f i (f i + 1) k = f k :=
        fun k hk => Function.update_of_ne (ne_of_mem_of_not_mem hk hj) _ _
      rw [Function.update_self, foldl_add_congr hrest, UInt32.add_assoc, UInt32.add_comm 1,
        ← UInt32.add_assoc]
    · rw [Function.update_of_ne (Ne.symm heq), ih hnodup ((List.mem_cons.1 hi).resolve_left heq),
        UInt32.add_assoc]

end

namespace TrunkStats

variable (tr : TrunkStats)

theorem getFailureCount_of_none (hfails : tr.fails = fun _ => 0) : tr.getFailureCount = 0 := by
  unfold getFailureCount
  rw [hfails]
  generalize List.range 700 = l
  induction l with
  | nil => rfl
  | cons i l ih =>
    rw [foldl_add_cons, ih]
    rfl

@[simp]
theorem getFailureCount_reset : tr.reset.getFailureCount = 0 := getFailureCount_of_none _ rfl

theorem getFailureCount_incrementFailureCount {status : UInt32} (h : status < 700) :
    (tr.incrementFailureCount status).getFailureCount = tr.getFailureCount + 1 := by
  unfold incrementFailureCount
  rw [if_pos h]
  exact foldl_add_update tr.fails List.nodup_range (List.mem_range.2 (UInt32.lt_iff_toNat_lt.1 h))

/-- After the largest number of attempts, both counts start from zero. -/
theorem getFailureCount_incrementAttemptCount : tr.incrementAttemptCount.getFailureCount =
    if tr.attempts + 1 = 0 then 0 else tr.getFailureCount := by
  unfold incrementAttemptCount
  dsimp only
  split_ifs with h
  · exact getFailureCount_of_none _ rfl
  · rfl

theorem attempts_incrementAttemptCount : tr.incrementAttemptCount.attempts = tr.attempts + 1 := by
  unfold incrementAttemptCount
  dsimp only
  split_ifs <;> rfl

theorem attempts_incrementFailureCount (status : UInt32) :
    (tr.incrementFailureCount status).attempts = tr.attempts := by
  unfold incrementFailureCount
  split_ifs <;> rfl

/-- No more failures than attempts. -/
def Consistent : Prop := tr.getFailureCount ≤ tr.attempts

variable {tr}

theorem consistent_reset : tr.reset.Consistent := by
  unfold Consistent
  rw [getFailureCount_reset]
  exact UInt32.zero_le

theorem add_one_eq_zero_iff (n : UInt32) : n + 1 = 0 ↔ n.toNat + 1 = 2 ^ 32 := by
  have hlt := n.toNat_lt
  rw [← UInt32.toNat_inj, UInt32.toNat_add, UInt32.toNat_one, UInt32.toNat_zero]
  omega

theorem Consistent.incrementAttemptCount (h : tr.Consistent) : tr.incrementAttemptCount.Consistent := by
  have hlt := tr.attempts.toNat_lt
  unfold Consistent at *
  rw [getFailureCount_incrementAttemptCount, attempts_incrementAttemptCount]
  split_ifs with hwrap
  · exact UInt32.zero_le
  · rw [add_one_eq_zero_iff] at hwrap
    rw [UInt32.le_iff_toNat_le] at *
    rw [UInt32.toNat_add, UInt32.toNat_one]
    omega

/-- A failure keeps the counts consistent if there is an attempt left for it. -/
theorem Consistent.incrementFailureCount_iff (h : tr.Consistent) {status : UInt32} (hstatus : status < 700) :
    (tr.incrementFailureCount status).Consistent ↔ tr.getFailureCount < tr.attempts ∨ tr.attempts + 1 = 0 := by
  have hlt := tr.attempts.toNat_lt
  unfold Consistent at *
  rw [getFailureCount_incrementFailureCount tr hstatus, attempts_incrementFailureCount, add_one_eq_zero_iff]
  rw [UInt32.le_iff_toNat_le] at *
  rw [UInt32.lt_iff_toNat_lt, UInt32.toNat_add, UInt32.toNat_one]
  omega

/-- A failure that is followed by another attempt on the trunk does not matter. -/
theorem Consistent.retry (h : tr.Consistent) {status : UInt32} (hstatus : status < 700) :
    (tr.incrementFailureCount status).incrementAttemptCount.Consistent := by
  have hlt := tr.attempts.toNat_lt
  unfold Consistent at *
  rw [getFailureCount_incrementAttemptCount, attempts_incrementAttemptCount, attempts_incrementFailureCount,
    getFailureCount_incrementFailureCount tr hstatus]
  split_ifs with hwrap
  · exact UInt32.zero_le
  · rw [add_one_eq_zero_iff] at hwrap
    rw [UInt32.le_iff_toNat_le] at *
    rw [UInt32.toNat_add, UInt32.toNat_add, UInt32.toNat_one]
    omega

end TrunkStats

/-! ## The counts of all trunks -/

/-- What is counted of the trunks; `violated`: the assertion of `incrementFailureCount` has failed. -/
@[ext]
structure Tally where
  trunks : Bytes → Option TrunkStats
  violated : Prop

namespace Tally

/-- An attempt is counted. -/
def attempt (y : Tally) (trunk carrier : Bytes) : Tally :=
  { y with
    trunks := Function.update y.trunks trunk
      (some ((y.trunks trunk).getD ⟨trunk, carrier, 0, fun _ => 0⟩).incrementAttemptCount) }

/-- A failure is counted, if the trunk is known. -/
def failure (y : Tally) (trunk : Bytes) (status : UInt32) : Tally :=
  match y.trunks trunk with
  | none => y
  | some tr =>
    { trunks := Function.update y.trunks trunk (some (tr.incrementFailureCount status))
      violated := ¬status < 700 ∨ y.violated }

/-- All counts are reset. -/
def reset (y : Tally) : Tally := { y with trunks := fun trunk => (y.trunks trunk).map TrunkStats.reset }

/-- At most one more attempt is counted. -/
def Grows (y y' : Tally) : Prop := y' = y ∨ ∃ trunk carrier, y' = y.attempt trunk carrier

/-- The counts of every trunk are consistent, and the assertion has not failed. -/
structure Consistent (y : Tally) : Prop where
  trunks : ∀ trunk, ∀ tr ∈ y.trunks trunk, tr.Consistent
  sound : ¬y.violated

section

variable {y : Tally} {trunk trunk' carrier : Bytes} {status : UInt32}

theorem Consistent.reset (h : y.Consistent) : y.reset.Consistent := by
  refine ⟨fun trunk tr htr => ?_, h.sound⟩
  obtain ⟨tr', -, rfl⟩ := Option.map_eq_some_iff.1 htr
  exact TrunkStats.consistent_reset

theorem Consistent.attempt (h : y.Consistent) (trunk carrier : Bytes) : (y.attempt trunk carrier).Consistent := by
  refine ⟨fun trunk' tr htr => ?_, h.sound⟩
  change Function.update y.trunks trunk _ trunk' = some tr at htr
  by_cases heq : trunk' = trunk
  · rw [heq, Function.update_self] at htr
    obtain rfl := Option.some.inj htr
    refine TrunkStats.Consistent.incrementAttemptCount ?_
    cases hold : y.trunks trunk with
    | none => exact (TrunkStats.getFailureCount_of_none _ rfl).trans_le UInt32.zero_le
    | some tr => exact h.trunks trunk tr hold
  · rw [Function.update_of_ne heq] at htr
    exact h.trunks trunk' tr htr

theorem Consistent.grows {y' : Tally} (h : y.Consistent) (hgrows : Grows y y') : y'.Consistent := by
  obtain rfl | ⟨trunk, carrier, rfl⟩ := hgrows
  · exact h
  · exact h.attempt trunk carrier

/-- What one trunk is changed to decides. -/
theorem Consistent.update_iff (h : y.Consistent) {tr : TrunkStats} {broken : Prop} :
    Consistent ⟨Function.update y.trunks trunk (some tr), broken ∨ y.violated⟩ ↔ tr.Consistent ∧ ¬broken := by
  constructor
  · exact fun h' => ⟨h'.trunks trunk tr (Function.update_self ..), fun hb => h'.sound (.inl hb)⟩
  · rintro ⟨htr, hb⟩
    refine ⟨fun trunk' tr' htr' => ?_, fun hv => hv.elim hb h.sound⟩
    change Function.update y.trunks trunk _ trunk' = some tr' at htr'
    by_cases heq : trunk' = trunk
    · rw [heq, Function.update_self] at htr'
      exact Option.some.inj htr' ▸ htr
    · rw [Function.update_of_ne heq] at htr'
      exact h.trunks trunk' tr' htr'

theorem Consistent.failure_iff (h : y.Consistent) : (y.failure trunk status).Consistent ↔
    ∀ tr ∈ y.trunks trunk, status < 700 ∧ (tr.getFailureCount < tr.attempts ∨ tr.attempts + 1 = 0) := by
  unfold failure
  cases htr : y.trunks trunk with
  | none => exact iff_of_true h fun tr htr' => by cases htr'
  | some tr =>
    simp only [Option.mem_def, Option.some.injEq, forall_eq']
    rw [h.update_iff, not_not, and_comm]
    exact and_congr_right fun hstatus => (h.trunks trunk tr htr).incrementFailureCount_iff hstatus

theorem failure_of_some {tr : TrunkStats} (h : y.trunks trunk = some tr) : y.failure trunk status =
    ⟨Function.update y.trunks trunk (some (tr.incrementFailureCount status)), ¬status < 700 ∨ y.violated⟩ := by
  rw [failure, h]

/-- A failure followed by an attempt on the same trunk keeps the counts consistent. -/
theorem Consistent.failure_attempt_iff (h : y.Consistent) :
    ((y.failure trunk status).attempt trunk' carrier).Consistent ↔ ∀ tr ∈ y.trunks trunk,
      status < 700 ∧ (tr.getFailureCount < tr.attempts ∨ tr.attempts + 1 = 0 ∨ trunk' = trunk) := by
  by_cases hsame : trunk' = trunk
  · subst hsame
    cases htr : y.trunks trunk' with
    | none =>
      rw [failure, htr]
      exact iff_of_true (h.attempt trunk' carrier) fun tr htr' => by cases htr'
    | some tr =>
      rw [failure_of_some htr]
      simp only [Tally.attempt, Function.update_self, Function.update_idem, Option.getD_some, Option.mem_def,
        Option.some.injEq, forall_eq', or_true, and_true]
      rw [h.update_iff, not_not]
      exact and_iff_right_of_imp fun hstatus => (h.trunks trunk' tr htr).retry hstatus
  · simp only [hsame, or_false]
    rw [← h.failure_iff]
    refine ⟨fun h' => ?_, fun h' => h'.attempt trunk' carrier⟩
    -- The other trunk is as it was.
    cases htr : y.trunks trunk with
    | none =>
      rw [failure, htr]
      exact h
    | some tr =>
      rw [failure_of_some htr] at h' ⊢
      refine h.update_iff.2 ⟨h'.trunks trunk _ ?_, fun hb => h'.sound (.inl hb)⟩
      change Function.update (Function.update y.trunks trunk _) trunk' _ trunk = _
      rw [Function.update_of_ne (Ne.symm hsame), Function.update_self]

end

end Tally

namespace Controller

/-- What the controller has counted. -/
def tally (c : Controller) : Tally := ⟨c.mapTrunkStats, .failureCountStatus ∈ c.asserts⟩

section

variable {c : Controller}

/-! ### What counts nothing -/

theorem tally_of_eq {c' : Controller} (hstats : c'.mapTrunkStats = c.mapTrunkStats)
    (hasserts : c'.asserts = c.asserts) : c'.tally = c.tally := by
  rw [tally, tally, hstats, hasserts]

@[simp]
theorem tally_withCalls (s : Calls) : (c.withCalls s).tally = c.tally := rfl

@[simp]
theorem tally_setCdr (p : ℕ) (f : CdrInfo → CdrInfo) : (c.setCdr p f).tally = c.tally := rfl

@[simp]
theorem tally_postCdr (p : ℕ) : (c.postCdr p).tally = c.tally := rfl

@[simp]
theorem tally_require (a : Absent) (there : Bool) : (c.require a there).tally = c.tally := by
  obtain ⟨absent, heq⟩ := c.require_frame a there
  rw [heq]
  rfl

@[simp]
theorem tally_postFinalResponse (p : ℕ) (cdrType : CdrEvent) (status : ℤ) :
    (c.postFinalResponse p cdrType status).tally = c.tally := by
  obtain ⟨cdrs, cdrWriter, heq⟩ := c.postFinalResponse_frame p cdrType status
  rw [heq]
  rfl

@[simp]
theorem tally_redirect (t : ℕ) (url : Bytes) : (c.redirect t url).tally = c.tally := rfl

@[simp]
theorem tally_crankback (t : ℕ) (url carrier sipTrunk header : Bytes) :
    (c.crankback t url carrier sipTrunk header).tally = c.tally := by
  obtain ⟨attempts, cdrs, heq⟩ := c.crankback_frame t url carrier sipTrunk header
  rw [heq]
  rfl

/-- Another assertion. -/
theorem tally_check {a : Assertion} (ha : a ≠ .failureCountStatus) (holds : Bool) :
    (c.check a holds).tally = c.tally := by
  unfold check
  split_ifs
  · rfl
  · refine Tally.ext rfl (propext ?_)
    change Assertion.failureCountStatus ∈ a :: c.asserts ↔ _
    rw [List.mem_cons, or_iff_right ha.symm]
    rfl

@[simp]
theorem tally_reject (p : ℕ) (status : ℤ) (cause : ReleaseCause) :
    (c.reject p status cause).1.tally = c.tally := rfl

@[simp]
theorem tally_countDown (r : Controller × ℤ) : (countDown r).1.tally = r.1.tally := by
  unfold countDown
  split_ifs <;> rfl

@[simp]
theorem tally_reportCancel (orq : Orq) (leg : Leg) : (c.reportCancel orq leg).tally = c.tally := by
  unfold reportCancel
  split
  · split <;> rfl
  · split
    · exact tally_postFinalResponse _ _ _
    · rfl

@[simp]
theorem tally_reportBye (leg other : Leg) : (c.reportBye leg other).tally = c.tally := by
  unfold reportBye
  split
  · rfl
  · split <;> rfl

@[simp]
theorem tally_reportFinalResponse (pCdr : Option ℕ) (bT bP : Bool) (status : ℤ) :
    (c.reportFinalResponse pCdr bT bP status).tally = c.tally := by
  unfold reportFinalResponse
  split
  · rfl
  · split_ifs <;> simp

/-! ### What is counted -/

theorem tally_countAttempt (trunk carrier : Bytes) :
    (c.countAttempt trunk carrier).tally = c.tally.attempt trunk carrier := rfl

theorem tally_countFailure (trunk : Bytes) (status : ℤ) :
    (c.countFailure trunk status).tally = c.tally.failure trunk (UInt32.ofInt status) := by
  unfold countFailure Tally.failure
  rw [show c.tally.trunks trunk = c.mapTrunkStats trunk from rfl]
  cases htr : c.mapTrunkStats trunk with
  | none => rfl
  | some tr =>
    dsimp only
    refine Tally.ext ?_ (propext ?_)
    · unfold check
      split_ifs <;> rfl
    · unfold check
      split_ifs with hstatus <;> simp_all [tally]

/-- An attempt is counted if its INVITE can be sent. -/
theorem tally_generateTerminationRequest {t : ℕ} {a : TerminationAttempt} (hs : 0 < c.calls.next)
    (ha : c.attempts[t]? = some a) (irq : Irq) (nta : Creations) :
    (c.generateTerminationRequest t irq nta).1.tally =
      if GrantsInvite nta a then c.tally.attempt a.sipTrunk a.carrier else c.tally := by
  have hb : (⟨c.calls.next⟩ : Leg) ≠ .null := Handle.mk_ne_null hs
  have ho : (⟨c.calls.next + 1⟩ : Orq) ≠ .null := Handle.mk_ne_null (by omega)
  unfold generateTerminationRequest GrantsInvite
  rw [ha]
  simp only [← orqGranted_iff]
  cases nta.bLeg <;> cases orqGranted nta a <;>
    simp [Calls.createInvite, Calls.createLeg, Calls.createOutgoing, hb, ho, tally_countAttempt]

/-! ### Requests -/

theorem grows_generateTerminationRequest (t : ℕ) (irq : Irq) (nta : Creations) :
    c.tally.Grows (c.generateTerminationRequest t irq nta).1.tally := by
  unfold generateTerminationRequest
  rcases c.attempts[t]? with _ | a
  · exact .inl rfl
  · dsimp only
    rcases c.calls.createInvite irq nta.bLeg (orqGranted nta a) (terminationInvite a) with ⟨s, _ | ⟨orq, bLeg⟩⟩
    · exact .inl rfl
    · exact .inr ⟨_, _, rfl⟩

theorem grows_terminateOn (irq : Irq) (aLeg : Leg) (sip : Request) (t : ℕ) (nta : Creations) :
    c.tally.Grows (c.terminateOn irq aLeg sip t nta).1.tally := by
  have hgrows := c.grows_generateTerminationRequest t irq nta
  unfold terminateOn
  rcases heq : c.generateTerminationRequest t irq nta with ⟨c', _ | ⟨orq, bLeg⟩⟩ <;> rw [heq] at hgrows
  · exact hgrows
  · simpa using hgrows

theorem grows_processTerminationRequest (irq : Irq) (sip : Request) (nta : Creations) :
    c.tally.Grows (c.processTerminationRequest irq sip nta).1.tally := by
  unfold processTerminationRequest
  rcases c.firstRoute sip with _ | ⟨route, config⟩
  · exact .inl rfl
  · exact grows_terminateOn irq _ sip _ nta

theorem tally_processOriginationRequest (irq : Irq) (sip : Request) (carrier uuid : Bytes) (nta : Creations) :
    (c.processOriginationRequest irq sip carrier uuid nta).1.tally = c.tally := by
  unfold processOriginationRequest
  dsimp only
  have hselect : (c.originationCdr sip carrier uuid).2.selectServer.1.tally = c.tally := rfl
  rcases heq : (c.originationCdr sip carrier uuid).2.selectServer with ⟨c', _ | server⟩ <;> rw [heq] at hselect
  · exact hselect
  · dsimp only
    unfold originate
    split <;> exact hselect

theorem grows_processInvite (irq : Irq) (sip : Request) (uuid : Bytes) (nta : Creations) :
    c.tally.Grows (c.processInvite irq sip uuid nta).1.tally := by
  unfold processInvite
  dsimp only
  have hrequire := tally_require (c := c) .requestContactHost sip.contactHost?.isSome
  split
  · split_ifs
    · exact .inl hrequire
    · rw [tally_countDown, tally_processOriginationRequest]
      exact .inl hrequire
  · rw [tally_countDown, ← hrequire]
    exact grows_processTerminationRequest irq sip nta
  · exact .inl hrequire

theorem grows_requestOutsideDialog (sip : Request) (uuid : Bytes) (nta : Creations) :
    c.tally.Grows (c.requestOutsideDialog sip uuid nta).tally := by
  unfold requestOutsideDialog processRequestOutsideDialog
  dsimp only
  rw [tally_withCalls]
  split
  · exact .inl rfl
  · split
    · split
      · exact .inl rfl
      · split
        · exact .inl (tally_require _ _)
        · exact .inl (tally_require _ _)
    · exact .inl rfl
    · exact grows_processInvite (c := c.withCalls (c.calls.receive .null)) _ sip uuid nta
    · exact .inl rfl
    · exact .inl rfl
    · exact .inl rfl

/-! ### Responses to an INVITE -/

/-- The trunk that a call is sent to next, after a failure. -/
def nextRoute? (c : Controller) (a : TerminationAttempt) (sip : Response) (nta : Creations) : Option Route :=
  if c.CranksBack a sip ∧ nta.bLeg = true ∧ nta.orq = true then
    (c.config.getTerminationRouteForAltCarrier a.carrier).map Prod.fst
  else none

theorem tally_retry {t : ℕ} {a : TerminationAttempt} (hs : 0 < c.calls.next) (ha : c.attempts[t]? = some a)
    (irq : Irq) (orq : Orq) (bLeg : Leg) (nta : Creations) :
    (c.retry t irq orq bLeg nta).controller.tally =
      if GrantsInvite nta a then c.tally.attempt a.sipTrunk a.carrier else c.tally := by
  rw [← tally_generateTerminationRequest hs ha irq nta]
  unfold retry
  rcases c.generateTerminationRequest t irq nta with ⟨c', _ | ⟨orqNew, bLegNew⟩⟩ <;> rfl

theorem tally_conclude (d : Decision) (irq : Irq) (orq : Orq) (bLeg : Leg) (t pCdr : Option ℕ) (sip : Response) :
    (d.conclude irq orq bLeg t pCdr sip).tally = d.controller.tally := by
  unfold Decision.conclude
  dsimp only
  rw [tally_reportFinalResponse]
  split_ifs <;> rfl

theorem tally_processAnswer (aLeg bLeg : Leg) (pDialog : Option SipDialogInfo) (sip : Response) (nta : Creations) :
    (c.processAnswer aLeg bLeg pDialog sip nta).controller.tally = c.tally := by
  unfold processAnswer
  cases pDialog with
  | none => exact tally_require _ _
  | some d =>
    dsimp only
    unfold startSessionTimer
    split_ifs <;> simp

theorem grows_retry (t : ℕ) (irq : Irq) (orq : Orq) (bLeg : Leg) (nta : Creations) :
    c.tally.Grows (c.retry t irq orq bLeg nta).controller.tally := by
  have hgrows := c.grows_generateTerminationRequest t irq nta
  unfold retry
  rcases heq : c.generateTerminationRequest t irq nta with ⟨c', _ | ⟨orqNew, bLegNew⟩⟩ <;> rw [heq] at hgrows <;>
    exact hgrows

theorem grows_processRedirect (t : ℕ) (irq : Irq) (orq : Orq) (bLeg : Leg) (sip : Response) (nta : Creations) :
    c.tally.Grows (c.processRedirect t irq orq bLeg sip nta).controller.tally := by
  have hretry : ∀ c' : Controller, c'.tally = c.tally → c.tally.Grows (c'.retry t irq orq bLeg nta).controller.tally :=
    fun c' h => h ▸ c'.grows_retry t irq orq bLeg nta
  exact hretry _ (by simp)

theorem tally_processCrankback {t : ℕ} {a : TerminationAttempt} (hs : 0 < c.calls.next)
    (ha : c.attempts[t]? = some a) (irq : Irq) (orq : Orq) (bLeg : Leg) {sip : Response}
    (hstatus : sip.status = 503 ∨ sip.status = 480) (nta : Creations) :
    (c.processCrankback t a irq orq bLeg sip nta).controller.tally =
      (c.nextRoute? a sip nta).elim c.tally fun route => c.tally.attempt route.trunk.text route.carrier := by
  unfold nextRoute?
  by_cases hcrank : c.CranksBack a sip
  · obtain ⟨⟨route, config⟩, hroute⟩ := Option.ne_none_iff_exists'.1 hcrank.2.2
    obtain ⟨c₁, heq₁, hcalls, -, ⟨hstats, hasserts⟩, ha₁, -⟩ :=
      processCrankback_eq ha hcrank hroute irq orq bLeg nta
    rw [heq₁, tally_retry (hcalls ▸ hs) ha₁, tally_of_eq hstats hasserts, hroute]
    have hheader : (crankedTo sip route a).pChargeInfoHeader ≠ [] := pChargeInfo_ne_nil _ _
    simp only [hcrank, true_and, grantsInvite_iff hheader]
    split_ifs <;> rfl
  · rw [processCrankback_of_not hstatus hcrank, if_neg fun h => hcrank h.1]
    rfl

theorem tally_processFinalResponse {t : ℕ} {a : TerminationAttempt} (hs : 0 < c.calls.next)
    (ha : c.attempts[t]? = some a) {sip : Response} (hstatus : 400 ≤ sip.status) (irq : Irq) (orq : Orq)
    (aLeg bLeg : Leg) (pDialog : Option SipDialogInfo) (nta : Creations) :
    (c.processFinalResponse irq orq aLeg bLeg (some (t, a)) pDialog sip nta).controller.tally =
      (c.nextRoute? a sip nta).elim c.tally fun route => c.tally.attempt route.trunk.text route.carrier := by
  unfold processFinalResponse
  rw [if_neg (by omega)]
  dsimp only
  rw [if_neg (by omega)]
  split_ifs with hcrank
  · exact tally_processCrankback hs ha irq orq bLeg hcrank nta
  · rw [nextRoute?, if_neg fun h => hcrank h.1.1]
    rfl

theorem grows_processFinalResponse {t : Option (ℕ × TerminationAttempt)} {sip : Response}
    (ht : t = none ∨ sip.status < 400 ∨ 700 < sip.status) (irq : Irq) (orq : Orq) (aLeg bLeg : Leg)
    (pDialog : Option SipDialogInfo) (nta : Creations) :
    c.tally.Grows (c.processFinalResponse irq orq aLeg bLeg t pDialog sip nta).controller.tally := by
  unfold processFinalResponse
  split
  · exact .inl (tally_processAnswer aLeg bLeg pDialog sip nta)
  · split
    · exact .inl rfl
    · split_ifs with hredirect hcrank
      · exact grows_processRedirect _ irq orq bLeg sip nta
      · rcases ht with ht | ht
        · cases ht
        · omega
      · exact .inl rfl

/-- The attempt whose failure the response `sip` to `orq` is counted as. -/
def failed? (c : Controller) (orq : Orq) (sip : Response) : Option TerminationAttempt :=
  if c.Reached orq ∧ 400 ≤ sip.status ∧ sip.status ≤ 700 then (c.attemptOf orq).map Prod.snd else none

/-- A failure is counted for the trunk that the INVITE was sent to. -/
theorem tally_reportFailure (t : ℕ) (a : TerminationAttempt) {status : ℤ} (hstatus : 400 ≤ status ∧ status ≤ 700) :
    (c.reportFailure (some (t, a)) status).tally = c.tally.failure a.sipTrunk (UInt32.ofInt status) := by
  unfold reportFailure
  dsimp only
  rw [if_pos hstatus, tally_countFailure]

/-- A failure is counted, and then the next attempt, if there is one. -/
theorem tally_of_failed (hs : 0 < c.calls.next) {orq : Orq} {sip : Response} {a : TerminationAttempt}
    (ha : c.failed? orq sip = some a) (nta : Creations) :
    (c.processInviteResponseInsideDialog orq sip nta).tally =
      (c.nextRoute? a sip nta).elim (c.tally.failure a.sipTrunk (UInt32.ofInt sip.status)) fun route =>
        (c.tally.failure a.sipTrunk (UInt32.ofInt sip.status)).attempt route.trunk.text route.carrier := by
  unfold failed? at ha
  split_ifs at ha with hcounted
  obtain ⟨hreached, hstatus⟩ := hcounted
  obtain ⟨⟨t, a⟩, ht, rfl⟩ := Option.map_eq_some_iff.1 ha
  obtain ⟨-, ha⟩ := attemptOf_eq_some ht
  rw [inviteResponse_of_reached hreached]
  unfold processInviteResponse
  rw [show ((c.calls.mapTerminationAttempts orq).bind fun t => c.attempts[t]?.map fun a => (t, a)) =
    some (t, a) from ht]
  dsimp only
  rw [if_neg (by omega), if_pos (by omega), tally_conclude]
  have htally := tally_reportFailure (c := c.check .inviteResponseNoCdr true) t a hstatus
  rw [tally_check (by decide)] at htally
  -- Nothing else is changed by it.
  obtain ⟨asserts, stats, heq⟩ := c.reported_frame (some (t, a)) true sip.status
  rw [← htally]
  simp only [Option.isSome_some, Option.map_some, if_true]
  rw [heq]
  exact tally_processFinalResponse (c := { c with asserts := asserts, mapTrunkStats := stats }) hs ha hstatus.1 _ orq
    _ _ _ nta

/-- Any other response counts at most another attempt. -/
theorem grows_of_not_failed {orq : Orq} {sip : Response} (ha : c.failed? orq sip = none) (nta : Creations) :
    c.tally.Grows (c.processInviteResponseInsideDialog orq sip nta).tally := by
  by_cases hreached : c.Reached orq
  · rw [inviteResponse_of_reached hreached]
    unfold processInviteResponse
    rw [tally_conclude]
    have hcheck : ∀ holds, (c.check .inviteResponseNoCdr holds).tally = c.tally :=
      fun holds => tally_check (by decide) holds
    by_cases htrying : sip.status = 100
    · rw [if_pos htrying]
      exact .inl (hcheck _)
    · rw [if_neg htrying]
      by_cases hfinal : 200 ≤ sip.status
      · rw [if_pos hfinal]
        have ht : c.attemptOf orq = none ∨ sip.status < 400 ∨ 700 < sip.status := by
          rw [failed?] at ha
          split_ifs at ha with hcounted
          · exact .inl (Option.map_eq_none_iff.1 ha)
          · by_contra hnot
            push Not at hnot
            exact hcounted ⟨hreached, hnot.2⟩
        -- The response itself is not counted.
        have hreport : ∀ c' : Controller, c'.reportFailure (c.attemptOf orq) sip.status = c' := by
          intro c'
          rcases ht with ht | ht
          · rw [ht]
            rfl
          · unfold reportFailure
            split
            · rw [if_neg (by omega)]
            · rfl
        rw [show ((c.calls.mapTerminationAttempts orq).bind fun t => c.attempts[t]?.map fun a => (t, a)) =
          c.attemptOf orq from rfl, hreport, ← hcheck]
        exact grows_processFinalResponse ht _ orq _ _ _ nta
      · rw [if_neg hfinal]
        exact .inl (hcheck _)
  · obtain ⟨assertion, heq⟩ := inviteResponse_of_not_reached hreached sip nta
    rw [heq]
    exact .inl rfl

/-! ### All events -/

/-- What the other callbacks do is not counted. -/
theorem tally_processCancel (irq : Irq) : (c.processCancel irq).tally = c.tally := by
  unfold processCancel
  dsimp only
  split_ifs <;> simp

theorem tally_processAckOrCancel (irq : Irq) (method : Method) :
    (c.processAckOrCancel irq method).tally = c.tally := by
  unfold processAckOrCancel
  split_ifs
  · exact tally_processCancel irq
  · rfl

theorem tally_processBye (leg other : Leg) (irq : Irq) : (c.processBye leg other irq).tally = c.tally := by
  unfold processBye
  dsimp only
  split_ifs <;> simp

theorem tally_processMethod (leg other : Leg) (irq : Irq) (sip : Request) (nta : Creations) :
    (c.processMethod leg other irq sip nta).1.tally = c.tally := by
  unfold processMethod
  split
  · exact tally_processBye leg other irq
  · rfl
  all_goals
    split
    · rfl
    · rfl

theorem tally_requestInsideDialog (leg : Leg) (sip : Request) (nta : Creations) :
    (c.requestInsideDialog leg sip nta).tally = c.tally := by
  unfold requestInsideDialog processRequestInsideDialog
  dsimp only
  rw [tally_withCalls]
  split
  · rfl
  · split_ifs
    · exact tally_processMethod _ _ _ sip nta
    · exact tally_processMethod _ _ _ sip nta

theorem tally_acknowledge (orq : Orq) (sip : Response) : (c.acknowledge orq sip).tally = c.tally := by
  unfold acknowledge
  dsimp only
  split_ifs <;> simp

theorem tally_processResponseInsideDialog (orq : Orq) (sip : Response) :
    (c.processResponseInsideDialog orq sip).tally = c.tally := by
  unfold processResponseInsideDialog
  dsimp only
  split_ifs <;> simp [tally_acknowledge]

theorem tally_processSessionRefreshTimer (leg : Leg) : (c.processSessionRefreshTimer leg).tally = c.tally := by
  unfold processSessionRefreshTimer
  split
  · rfl
  · dsimp only
    split <;> rfl

theorem tally_processRetransmittedResponse (leg : Leg) (sip : Response) :
    (c.processRetransmittedResponse leg sip).tally = c.tally := by
  unfold processRetransmittedResponse
  split_ifs <;> simp

/-- A failure is counted only as long as there is an attempt that it may be the failure of, before the
    step or in it, and its status is a place of `m_fails`. -/
def Countable (c : Controller) : ControllerEvent → Prop
  | .inviteResponse orq sip nta =>
    ∀ a ∈ c.failed? orq sip, ∀ tr ∈ c.mapTrunkStats a.sipTrunk, sip.status ≠ 700 ∧
      (tr.getFailureCount < tr.attempts ∨ tr.attempts + 1 = 0 ∨
        ∃ route ∈ c.nextRoute? a sip nta, route.trunk.text = a.sipTrunk)
  | _ => True

theorem failed?_status {orq : Orq} {sip : Response} {a : TerminationAttempt} (ha : c.failed? orq sip = some a) :
    400 ≤ sip.status ∧ sip.status ≤ 700 := by
  unfold failed? at ha
  split_ifs at ha with h
  exact h.2

theorem ofInt_lt_iff {status : ℤ} (h : 400 ≤ status ∧ status ≤ 700) : UInt32.ofInt status < 700 ↔ status ≠ 700 := by
  have hnat : (UInt32.ofInt status).toNat = status.toNat := by
    rw [UInt32.ofInt, UInt32.toNat_ofNat']
    omega
  rw [UInt32.lt_iff_toNat_lt, hnat]
  change status.toNat < 700 ↔ _
  omega

theorem consistent_inviteResponse_iff (hs : 0 < c.calls.next) (hc : c.tally.Consistent) (orq : Orq) (sip : Response)
    (nta : Creations) : (c.processInviteResponseInsideDialog orq sip nta).tally.Consistent ↔
      c.Countable (.inviteResponse orq sip nta) := by
  unfold Countable
  cases ha : c.failed? orq sip with
  | none =>
    refine iff_of_true (hc.grows (grows_of_not_failed ha nta)) fun a ha' => ?_
    rw [ha] at ha'
    cases ha'
  | some a =>
    have hstatus := ofInt_lt_iff (failed?_status ha)
    rw [tally_of_failed hs ha]
    simp only [Option.mem_def, ha, Option.some.injEq, forall_eq']
    cases hroute : c.nextRoute? a sip nta with
    | none =>
      rw [Option.elim_none, hc.failure_iff, hstatus]
      simp [tally]
    | some route =>
      rw [Option.elim_some, hc.failure_attempt_iff, hstatus]
      simp [tally]

/-- **A step keeps the counts consistent exactly if what it counts can be counted.** -/
theorem consistent_next_iff (h : c.calls.Typed) (hc : c.tally.Consistent) (e : ControllerEvent) :
    (c.next e).tally.Consistent ↔ c.Countable e := by
  have hkept : ∀ {c' : Controller}, c'.tally = c.tally → c'.tally.Consistent := fun heq => heq ▸ hc
  cases e with
  | inviteResponse orq sip nta => exact consistent_inviteResponse_iff h.next_pos hc orq sip nta
  | requestOutsideDialog sip uuid nta =>
    exact iff_of_true (hc.grows (grows_requestOutsideDialog sip uuid nta)) trivial
  | resetTrunkStats => exact iff_of_true hc.reset trivial
  | ackOrCancel irq method => exact iff_of_true (hkept (tally_processAckOrCancel irq method)) trivial
  | requestInsideDialog leg sip nta => exact iff_of_true (hkept (tally_requestInsideDialog leg sip nta)) trivial
  | responseInsideDialog orq sip => exact iff_of_true (hkept (tally_processResponseInsideDialog orq sip)) trivial
  | sessionRefreshTimer leg => exact iff_of_true (hkept (tally_processSessionRefreshTimer leg)) trivial
  | retransmittedResponse leg sip =>
    exact iff_of_true (hkept (tally_processRetransmittedResponse leg sip)) trivial
  | writeCdr connected => exact iff_of_true hc trivial
  | clock now => exact iff_of_true hc trivial
  | monitor fsMonitor => exact iff_of_true hc trivial

/-- The statistics of a process that has just started. -/
theorem consistent_initial (h : c.Initial) (hnone : c.mapTrunkStats = fun _ => none) : c.tally.Consistent := by
  refine ⟨fun trunk tr htr => ?_, ?_⟩
  · change c.mapTrunkStats trunk = some tr at htr
    rw [hnone] at htr
    cases htr
  · change Assertion.failureCountStatus ∉ c.asserts
    rw [h.asserts]
    exact List.not_mem_nil

/-- **The statistics stay consistent exactly in the runs in which every failure can be counted.** -/
theorem always_consistent_iff {es : List ControllerEvent} (hrun : machine.IsRun c es)
    (hnone : c.mapTrunkStats = fun _ => none) :
    machine.Always (fun c => c.tally.Consistent) c es ↔ machine.Along Countable c es :=
  Machine.always_iff_along (Q := fun c => c.tally.Consistent) (I := fun c => c.calls.Typed)
    (fun _ _ h _ he _ => typed_next h he) (fun _ e h hc _ => consistent_next_iff h hc e)
    (hrun.1.calls ▸ Calls.typed_empty) (consistent_initial hrun.1 hnone) hrun.2

end

/-! ## An example -/

/-- The controller of the example, whose server is known to be one. -/
def exampleCounting : Controller :=
  { exampleStart with fsMonitor := { exampleStart.fsMonitor with setServers := {['f']} } }

/-- The server makes a call. The INVITE for the carrier is `4`. -/
def exampleCounted : ControllerEvent := .requestOutsideDialog (serverInvite ['f']) [] {}

/-- The carrier refuses the call. -/
def exampleFailure (status : ℤ) : ControllerEvent := .inviteResponse ⟨4⟩ { status := status } {}

theorem exampleCounting_initial : exampleCounting.Initial := { exampleStart_initial with }

theorem consistent_exampleCounting :
    machine.Always (fun c => c.tally.Consistent) exampleCounting [exampleCounted, exampleFailure 486] ↔
      machine.Along Countable exampleCounting [exampleCounted, exampleFailure 486] :=
  always_consistent_iff ⟨exampleCounting_initial, by decide +kernel⟩ rfl

/-- With a reset in between, the failure is counted and the attempt is not; a status of 700 is out of
    range. -/
theorem exampleCounting_inconsistent :
    (machine.IsRun exampleCounting [exampleCounted, .resetTrunkStats, exampleFailure 486] ∧
      exampleCounting.mapTrunkStats = (fun _ => none) ∧
      ¬machine.Always (fun c => c.tally.Consistent) exampleCounting
        [exampleCounted, .resetTrunkStats, exampleFailure 486]) ∧
    machine.IsRun exampleCounting [exampleCounted, exampleFailure 700] ∧
      ¬machine.Always (fun c => c.tally.Consistent) exampleCounting [exampleCounted, exampleFailure 700] := by
  refine ⟨⟨⟨exampleCounting_initial, by decide +kernel⟩, rfl, fun h => ?_⟩,
    ⟨exampleCounting_initial, by decide +kernel⟩, fun h => ?_⟩
  · obtain ⟨tr, htr, hlt⟩ : ∃ tr ∈ (machine.exec exampleCounting
        [exampleCounted, .resetTrunkStats, exampleFailure 486]).mapTrunkStats ['t'],
        tr.attempts < tr.getFailureCount := by decide +kernel
    exact absurd (h.2.2.2.trunks ['t'] tr htr) (UInt32.not_le.2 hlt)
  · refine h.2.2.sound ?_
    change Assertion.failureCountStatus ∈ (machine.exec exampleCounting
      [exampleCounted, exampleFailure 700]).asserts
    decide +kernel

end Controller

end Ssp
