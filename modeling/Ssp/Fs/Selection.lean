import Ssp.Fs.LeastLoaded

/-!
# The servers of a result

In round robin, `getAvailableServers` gives the first available servers in the order of the scan,
around the end, three at most (`selected_of_reachable`). A least loaded call puts one more at the
front of them, whether or not it is among them already: its results are too many or have one server
twice (`shape_iff`).
-/

namespace Ssp

namespace FsMonitor

/-! ## The rounds of the scan -/

/-- A round of the loop: the position that is looked at, and `m_nLastServer` and the results
    after it. -/
structure Round where
  current : ℕ
  nLastServer : ℕ
  results : List ℕ
  deriving DecidableEq

/-- The rounds of `scan`. -/
def rounds (available : ℕ → Bool) (total start nReturnCount : ℕ) : ℕ → ℕ → ℕ → List ℕ → List Round
  | 0, _, _, _ => []
  | fuel + 1, current, nLastServer, results =>
    let results := if available current then results ++ [current] else results
    let nLastServer :=
      if !available current && nLastServer = current then nLastServer + 1 else nLastServer
    let next := nextPosition total current
    ⟨current, nLastServer, results⟩ ::
      if next = start ∨ nReturnCount ≤ results.length then []
      else rounds available total start nReturnCount fuel next nLastServer results

section

variable {available : ℕ → Bool} {total start nReturnCount : ℕ}

/-- `scan` ends with the last round. -/
theorem scan_eq_rounds (fuel current nLastServer : ℕ) (results : List ℕ) :
    scan available total start nReturnCount fuel current nLastServer results =
      (((rounds available total start nReturnCount fuel current nLastServer results).getLast?).map
        fun r => (r.nLastServer, r.results)).getD (nLastServer, results) := by
  induction fuel generalizing current nLastServer results with
  | zero => rfl
  | succ fuel ih =>
    rw [scan, rounds]
    split_ifs
    all_goals first | rfl | rw [ih, List.getLast?_cons]
    all_goals
      cases (rounds available total start nReturnCount fuel _ _ _).getLast? <;> rfl

/-- The positions that are looked at follow on each other around the end, no more than there are. -/
theorem rounds_current (hs : start < total) {fuel j : ℕ} (hj : j + fuel = total) (nLastServer : ℕ)
    (results : List ℕ) :
    (rounds available total start nReturnCount fuel ((start + j) % total) nLastServer results).map Round.current <+:
      (List.range' j fuel).map fun i => (start + i) % total := by
  induction fuel generalizing j nLastServer results with
  | zero => exact List.nil_prefix
  | succ fuel ih =>
    rw [rounds, List.range'_succ, List.map_cons, List.map_cons, nextPosition_offset hs (by omega)]
    refine List.cons_prefix_cons.2 ⟨rfl, ?_⟩
    split_ifs
    all_goals first | exact List.nil_prefix | exact ih (j := j + 1) (by omega) _ _

/-- The cursor is never past the end. -/
theorem rounds_nLastServer (hs : start < total) {fuel j : ℕ} (hj : j + fuel = total) {nLastServer : ℕ}
    (hl : nLastServer ≤ total) (results : List ℕ) {r : Round}
    (hr : r ∈ rounds available total start nReturnCount fuel ((start + j) % total) nLastServer results) :
    r.nLastServer ≤ total := by
  induction fuel generalizing j nLastServer results with
  | zero => cases hr
  | succ fuel ih =>
    have hpos : (start + j) % total < total := Nat.mod_lt _ (by omega)
    have hnext : (if (!available ((start + j) % total) && decide (nLastServer = (start + j) % total)) = true
        then nLastServer + 1 else nLastServer) ≤ total := by
      split_ifs with h
      · simp only [Bool.and_eq_true, decide_eq_true_eq] at h
        omega
      · exact hl
    rw [rounds, nextPosition_offset hs (by omega)] at hr
    generalize (if (!available ((start + j) % total) && decide (nLastServer = (start + j) % total)) = true
      then nLastServer + 1 else nLastServer) = next at hr hnext
    generalize (if available ((start + j) % total) = true then _ else results) = results at hr
    rcases List.mem_cons.1 hr with rfl | hr
    · exact hnext
    · split_ifs at hr
      · cases hr
      · exact ih (j := j + 1) (by omega) hnext _ hr

/-- The results are the first available positions in the order of the scan, as many as are asked for. -/
theorem scan_results (hs : start < total) {fuel j : ℕ} (hj : j + fuel = total) (nLastServer : ℕ) {results : List ℕ}
    (hlen : results.length < nReturnCount) :
    (scan available total start nReturnCount fuel ((start + j) % total) nLastServer results).2 =
      results ++ (((List.range' j fuel).map fun i => (start + i) % total).filter available).take
        (nReturnCount - results.length) := by
  induction fuel generalizing j nLastServer results with
  | zero => simp [scan]
  | succ fuel ih =>
    have hlast : (start + (j + 1)) % total = start ↔ fuel = 0 := by
      rw [offset_eq_start_iff hs (by omega)]
      omega
    rw [scan, nextPosition_offset hs (by omega), List.range'_succ, List.map_cons]
    cases hav : available ((start + j) % total) with
    | true =>
      obtain ⟨k, hk⟩ : ∃ k, nReturnCount - results.length = k + 1 :=
        Nat.exists_eq_succ_of_ne_zero (by omega)
      rw [List.filter_cons_of_pos hav, hk, List.take_succ_cons]
      simp only [if_true, Bool.not_true, Bool.false_and, Bool.false_eq_true, if_false, List.length_append,
        List.length_singleton, hlast]
      split_ifs with hend
      · -- The last round: all have been looked at, or there are enough.
        have hnil : (((List.range' (j + 1) fuel).map fun i => (start + i) % total).filter available).take k = [] := by
          rcases hend with rfl | hge
          · simp
          · rw [show k = 0 by omega, List.take_zero]
        rw [hnil]
      · rw [ih (j := j + 1) (by omega) _ (by simp only [List.length_append, List.length_singleton]; omega), List.append_assoc]
        simp only [List.length_append, List.length_singleton, List.singleton_append]
        rw [show nReturnCount - (results.length + 1) = k by omega]
    | false =>
      rw [List.filter_cons_of_neg (by simp [hav])]
      simp only [Bool.false_eq_true, if_false, hlast]
      generalize (if (!false && decide (nLastServer = (start + j) % total)) = true
        then nLastServer + 1 else nLastServer) = next
      split_ifs with hend
      · have hzero : fuel = 0 := hend.resolve_right (by omega)
        rw [hzero]
        simp
      · exact ih (j := j + 1) (by omega) _ hlen

end

/-! ## One call -/

variable {m : FsMonitor}

/-- The positions from the start of the scan on, around the end. -/
def circle (m : FsMonitor) : List ℕ := (List.range m.servers.length).map fun i => (m.start + i) % m.servers.length

/-- The available servers in the order of the scan. -/
def candidates (m : FsMonitor) : List ℕ := m.circle.filter m.available

/-- `nReturnCount`. -/
def returnCount (m : FsMonitor) : ℕ := min maxServersToTry m.servers.length

/-- The rounds of a call. -/
def callRounds (m : FsMonitor) : List Round :=
  rounds m.available m.servers.length m.start m.returnCount m.servers.length m.start m.start []

theorem scan_of_call (hpos : 0 < m.servers.length) :
    (scan m.available m.servers.length m.start m.returnCount m.servers.length m.start m.start []).2 =
      m.candidates.take m.returnCount := by
  have hs : m.start < m.servers.length := nextPosition_lt hpos
  have hcount : ([] : List ℕ).length < m.returnCount := by
    unfold returnCount maxServersToTry
    simp only [List.length_nil]
    omega
  have hscan := @scan_results m.available _ _ _ hs _ 0 (Nat.zero_add _) m.start [] hcount
  rw [Nat.add_zero, Nat.mod_eq_of_lt hs, ← List.range_eq_range'] at hscan
  exact hscan

theorem nodup_circle (m : FsMonitor) : m.circle.Nodup := by
  refine List.Nodup.map_on ?_ List.nodup_range
  intro i hi j hj heq
  have hi := List.mem_range.1 hi
  have hj := List.mem_range.1 hj
  have hs : m.start < m.servers.length := nextPosition_lt (by omega)
  rw [offset_eq hs hi.le, offset_eq hs hj.le] at heq
  split_ifs at heq <;> omega

theorem mem_circle {i : ℕ} : i ∈ m.circle ↔ i < m.servers.length := by
  constructor
  · intro h
    obtain ⟨j, hj, rfl⟩ := List.mem_map.1 h
    exact Nat.mod_lt _ (Nat.zero_lt_of_lt (List.mem_range.1 hj))
  · intro hi
    have hs : m.start < m.servers.length := nextPosition_lt (by omega)
    refine List.mem_map.2 ⟨(i + (m.servers.length - m.start)) % m.servers.length,
      List.mem_range.2 (Nat.mod_lt _ (by omega)), ?_⟩
    rw [Nat.add_mod_mod, show m.start + (i + (m.servers.length - m.start)) = i + m.servers.length by omega,
      Nat.add_mod_right, Nat.mod_eq_of_lt hi]

theorem lt_of_available {i : ℕ} (h : m.available i = true) : i < m.servers.length := by
  obtain ⟨fs, hfs, -⟩ := available_iff.1 h
  exact (List.getElem?_eq_some_iff.1 hfs).1

theorem mem_candidates {i : ℕ} : i ∈ m.candidates ↔ m.available i = true := by
  unfold candidates
  rw [List.mem_filter, mem_circle]
  exact and_iff_right_of_imp lt_of_available

theorem candidates_eq_nil_iff : m.candidates = [] ↔ ∀ i, m.available i = false := by
  simp [List.eq_nil_iff_forall_not_mem, mem_candidates]

/-- What a call returns. -/
theorem getAvailableServers_results (m : FsMonitor) : m.getAvailableServers.2 =
    if m.candidates = [] then none
    else some ((if m.doLeastLoaded then m.leastLoaded else []) ++ m.candidates.take m.returnCount) := by
  by_cases hpos : m.servers.length = 0
  · have hnil : m.candidates = [] := by simp [candidates, circle, hpos]
    unfold getAvailableServers
    rw [if_pos (by rw [hpos, Nat.min_zero]), if_pos hnil]
  · have hcount : m.returnCount ≠ 0 := by
      unfold returnCount maxServersToTry
      omega
    have hscan := scan_of_call (m := m) (by omega)
    have htake : m.candidates.take m.returnCount = [] ↔ m.candidates = [] := by
      rw [List.take_eq_nil_iff, or_iff_right hcount]
    cases heq : scan m.available m.servers.length m.start m.returnCount m.servers.length m.start m.start [] with
    | mk nLastServer results =>
      rw [heq] at hscan
      dsimp only at hscan
      simp only [← htake, ← hscan]
      unfold getAvailableServers doLeastLoaded
      unfold start returnCount at heq
      rw [if_neg (show min maxServersToTry m.servers.length ≠ 0 from hcount)]
      simp only [heq]
      by_cases hnil : results = []
      · simp only [hnil, if_true]
      · simp only [hnil, if_false]
        by_cases hrr : 0 < m.nRRInterval ∧ 1 < m.servers.length
        · by_cases hdo : m.nRRInterval < m.nLastRR + 1
          · simp [hrr.1, hrr.2, hdo]
            rfl
          · simp [hrr.1, hrr.2, hdo]
        · have hfalse : (decide (0 < m.nRRInterval) && decide (1 < m.servers.length)) = false := by
            simpa using hrr
          simp [hrr, hfalse]

/-- The cursor after a call that scans. -/
theorem getAvailableServers_nLastServer (hpos : 0 < m.servers.length) : m.getAvailableServers.1.nLastServer =
    (scan m.available m.servers.length m.start m.returnCount m.servers.length m.start m.start []).1 := by
  have hcount : min maxServersToTry m.servers.length ≠ 0 := by
    unfold maxServersToTry
    omega
  unfold getAvailableServers start returnCount
  rw [if_neg hcount]
  dsimp only
  split_ifs <;> rfl

theorem getAvailableServers_servers (m : FsMonitor) : m.getAvailableServers.1.servers = m.servers := by
  unfold getAvailableServers
  dsimp only
  split_ifs <;> rfl

/-- A call fails if no server is available, and otherwise the first of its results is available. -/
theorem getAvailableServers_cases (m : FsMonitor) :
    m.getAvailableServers.2 = none ∧ (∀ i, m.available i = false) ∨
      ∃ i rest, m.getAvailableServers.2 = some (i :: rest) ∧ m.available i = true := by
  rw [getAvailableServers_results]
  by_cases hnil : m.candidates = []
  · exact .inl ⟨if_pos hnil, candidates_eq_nil_iff.1 hnil⟩
  · rw [if_neg hnil]
    obtain ⟨a, candidates, hcandidates⟩ := List.exists_cons_of_ne_nil hnil
    have ha : m.available a = true := mem_candidates.1 (hcandidates ▸ List.mem_cons_self)
    have hpos := lt_of_available ha
    obtain ⟨k, hk⟩ : ∃ k, m.returnCount = k + 1 := by
      refine Nat.exists_eq_succ_of_ne_zero ?_
      unfold returnCount maxServersToTry
      omega
    right
    cases m.doLeastLoaded with
    | false => exact ⟨a, candidates.take k, by rw [hcandidates, hk]; rfl, ha⟩
    | true =>
      obtain ⟨b, hb, hava, -⟩ := leastLoaded_spec ⟨a, ha⟩
      exact ⟨b, m.candidates.take m.returnCount, by rw [hb]; rfl, hava⟩

theorem getAvailableServers_nRRInterval (m : FsMonitor) : m.getAvailableServers.1.nRRInterval = m.nRRInterval := by
  unfold getAvailableServers
  dsimp only
  split_ifs <;> rfl

/-- No round leaves the cursor past the end. -/
theorem nLastServer_le_of_mem {r : Round} (hr : r ∈ m.callRounds) : r.nLastServer ≤ m.servers.length := by
  have hpos : 0 < m.servers.length := by
    by_contra hzero
    have hnil : m.callRounds = [] := by
      unfold callRounds
      rw [show m.servers.length = 0 by omega]
      rfl
    rw [hnil] at hr
    cases hr
  have hs : m.start < m.servers.length := nextPosition_lt hpos
  have hstart : m.start = (m.start + 0) % m.servers.length := (Nat.mod_eq_of_lt hs).symm
  unfold callRounds at hr
  nth_rewrite 2 [hstart] at hr
  exact rounds_nLastServer hs (Nat.zero_add m.servers.length) hs.le [] hr

theorem nLastServer_le (hl : m.nLastServer ≤ m.servers.length) :
    m.getAvailableServers.1.nLastServer ≤ m.servers.length := by
  rcases Nat.eq_zero_or_pos m.servers.length with hzero | hpos
  · have hsame : m.getAvailableServers.1 = m := by
      unfold getAvailableServers
      rw [if_pos (by rw [hzero, Nat.min_zero])]
    rwa [hsame]
  · rw [getAvailableServers_nLastServer hpos, scan_eq_rounds]
    cases hlast : (rounds m.available m.servers.length m.start m.returnCount m.servers.length m.start m.start
      []).getLast? with
    | none => exact (nextPosition_lt hpos).le
    | some r => exact nLastServer_le_of_mem (List.mem_of_getLast? hlast)

/-! ## Round robin -/

/-- Every value that `m_nLastServer` has before, during and after the scan of a call. -/
def cursors (m : FsMonitor) : List ℕ := m.nLastServer :: m.start :: m.callRounds.map Round.nLastServer

/-- What a call in round robin selects, and how. -/
structure Selected (m : FsMonitor) : Prop where
  none_iff : m.getAvailableServers.2 = none ↔
    m.servers.length = 0 ∨ ∀ i < m.servers.length, m.available i = false
  results : ∀ results, m.getAvailableServers.2 = some results →
    results = m.candidates.take (min maxServersToTry m.servers.length)
  visited_nodup : (m.callRounds.map Round.current).Nodup
  visited_lt : ∀ i ∈ m.callRounds.map Round.current, i < m.servers.length
  cursor_le : ∀ i ∈ m.cursors, i ≤ m.servers.length
  nLastServer_le : m.getAvailableServers.1.nLastServer ≤ m.servers.length

/-- The positions that a call looks at. -/
theorem visited_prefix (m : FsMonitor) : m.callRounds.map Round.current <+: m.circle := by
  rcases Nat.eq_zero_or_pos m.servers.length with hzero | hpos
  · unfold callRounds
    rw [hzero]
    exact List.nil_prefix
  · have hs : m.start < m.servers.length := nextPosition_lt hpos
    have hprefix := @rounds_current m.available _ _ m.returnCount hs _ 0 (Nat.zero_add _) m.start []
    rw [Nat.add_zero, Nat.mod_eq_of_lt hs, ← List.range_eq_range'] at hprefix
    exact hprefix

theorem selected_of_le (hrr : m.nRRInterval = 0) (hl : m.nLastServer ≤ m.servers.length) : m.Selected := by
  have hdo : m.doLeastLoaded = false := by simp [doLeastLoaded, hrr]
  have hresults := m.getAvailableServers_results
  rw [hdo] at hresults
  simp only [Bool.false_eq_true, if_false, List.nil_append] at hresults
  refine ⟨?_, ?_, m.nodup_circle.sublist m.visited_prefix.sublist,
    fun i hi => mem_circle.1 (m.visited_prefix.subset hi), ?_, nLastServer_le hl⟩
  · rw [hresults]
    simp only [ite_eq_left_iff, reduceCtorEq, imp_false, not_not, candidates_eq_nil_iff]
    constructor
    · exact fun h => .inr fun i _ => h i
    · intro h i
      by_contra hav
      have hlt := lt_of_available (Bool.eq_true_of_not_eq_false hav)
      rcases h with hzero | hnone
      · omega
      · exact hav (hnone i hlt)
  · intro results h
    rw [hresults] at h
    split_ifs at h
    exact (Option.some_inj.1 h).symm
  · intro i hi
    rcases List.mem_cons.1 hi with rfl | hi
    · exact hl
    rcases List.mem_cons.1 hi with rfl | hi
    · unfold start nextPosition
      split_ifs <;> omega
    · obtain ⟨r, hr, rfl⟩ := List.mem_map.1 hi
      exact nLastServer_le_of_mem hr

/-- A call leaves the interval, and the cursor in the list. -/
theorem reachable_invariant {n : ℕ} (h : (calls n).Reachable m) : m.nRRInterval = 0 ∧ m.nLastServer ≤ n := by
  refine h.invariant (I := fun m => m.nRRInterval = 0 ∧ m.nLastServer ≤ n) ?_ ?_
  · rintro m ⟨-, hrr, hlast⟩
    exact ⟨hrr, hlast ▸ Nat.zero_le n⟩
  · rintro m servers ⟨hrr, hl⟩ rfl
    exact ⟨(getAvailableServers_nRRInterval _).trans hrr, nLastServer_le (m := { m with servers := servers }) hl⟩

/-- **Selection.** A call in round robin, with any servers available, after any calls before. -/
theorem selected_of_reachable {n : ℕ} (h : (calls n).Reachable m) {servers : List FsInstance}
    (hn : servers.length = n) : ({ m with servers := servers } : FsMonitor).Selected := by
  obtain ⟨hrr, hl⟩ := reachable_invariant h
  exact selected_of_le hrr (hn ▸ hl)

/-- The first call on three servers. -/
theorem selected_lastDown : ({ servers := lastDown } : FsMonitor).Selected :=
  selected_of_reachable (m := { servers := lastDown }) (.init ⟨rfl, rfl, rfl⟩) (rfl : lastDown.length = 3)

/-! ## Least loaded calls -/

/-- The results of a successful call are not too many, all available, and each of them only once. -/
def Shape (m : FsMonitor) : Prop :=
  ∀ results, m.getAvailableServers.2 = some results →
    results.length ≤ min maxServersToTry m.servers.length ∧ (∀ i ∈ results, m.available i = true) ∧ results.Nodup

theorem nodup_candidates (m : FsMonitor) : m.candidates.Nodup := m.nodup_circle.filter _

/-- **The shape of the results.** It is right exactly if the call is not a least loaded one, or no
    server is available. -/
theorem shape_iff (m : FsMonitor) : m.Shape ↔ m.doLeastLoaded = false ∨ ∀ i, m.available i = false := by
  unfold Shape
  rw [getAvailableServers_results, ← candidates_eq_nil_iff]
  by_cases hnil : m.candidates = []
  · simp [hnil]
  · simp only [if_neg hnil, Option.some_inj, forall_eq', or_iff_left hnil]
    cases hdo : m.doLeastLoaded with
    | false =>
      simp only [Bool.false_eq_true, if_false, List.nil_append, iff_true]
      exact ⟨List.length_take_le _ _, fun i hi => mem_candidates.1 (List.mem_of_mem_take hi),
        m.nodup_candidates.sublist (List.take_sublist _ _)⟩
    | true =>
      refine iff_of_false ?_ (by simp)
      rintro ⟨hlength, -, hnodup⟩
      obtain ⟨i, hi⟩ := List.exists_mem_of_ne_nil _ hnil
      obtain ⟨a, ha, hav, -⟩ := leastLoaded_spec ⟨i, mem_candidates.1 hi⟩
      simp only [ha, if_true, List.singleton_append, List.length_cons, List.length_take, List.nodup_cons] at hlength hnodup
      -- There are enough others, or the server is one of them.
      rcases Nat.le_total m.returnCount m.candidates.length with hle | hle
      · change _ ≤ m.returnCount at hlength
        omega
      · rw [List.take_of_length_le hle] at hnodup
        exact hnodup.1 (mem_candidates.2 hav)

/-- Calls with any servers, with an interval for least loaded ones. -/
def callsEvery (n : ℕ) (nRRInterval : UInt32) : Machine FsMonitor (List FsInstance) where
  init := {m | m.servers.length = n ∧ m.nRRInterval = nRRInterval ∧ m.nLastServer = 0 ∧ m.nLastRR = 0}
  enabled _ servers := servers.length = n
  next m servers := ({ m with servers := servers } : FsMonitor).getAvailableServers.1

/-- The first least loaded call has the least loaded server twice. -/
theorem not_shape_unevenServers :
    ¬∀ (n : ℕ) (nRRInterval : UInt32) (m : FsMonitor) (servers : List FsInstance),
      (callsEvery n nRRInterval).Reachable m → servers.length = n → ({ m with servers := servers } : FsMonitor).Shape := by
  intro h
  have hreach : (callsEvery 2 1).Reachable
      ((callsEvery 2 1).next { servers := unevenServers, nRRInterval := 1 } unevenServers) :=
    .step (.init ⟨rfl, rfl, rfl, rfl⟩) rfl
  have hshape := h 2 1 _ unevenServers hreach rfl _ rfl
  exact absurd hshape.2.2 (by decide)

end FsMonitor

end Ssp
