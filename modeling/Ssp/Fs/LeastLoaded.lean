import Mathlib.Algebra.Group.Nat.Defs
import Mathlib.Data.Nat.Find
import Ssp.Fs.RoundRobin

/-!
# The least loaded server

With an interval `N` for least loaded servers, `getAvailableServers` counts the calls that
find a server (`m_nLastRR`). After `N` of them in round robin, the next one gets the least
loaded server at the front of its results, and the count starts again
(`cadence`). Calls that find no server do not count.
-/

namespace Ssp

namespace FsMonitor

/-! ## The order of the servers -/

/-- `getAvailableSessions` of the server at a position. -/
def sessions (m : FsMonitor) (i : ℕ) : UInt32 :=
  (m.servers[i]?.map FsInstance.getAvailableSessions).getD 0

/-- What `capacity_sorter` goes by: unavailable servers come last. -/
def capacity (fs : FsInstance) : ℕ := if fs.isAvailable then fs.getAvailableSessions.toNat + 1 else 0

theorem capacitySorter_eq (a b : FsInstance) : capacitySorter a b = decide (capacity b < capacity a) := by
  unfold capacitySorter capacity
  cases a.isAvailable <;> cases b.isAvailable <;> simp [UInt32.lt_iff_toNat_lt]

theorem available_iff {m : FsMonitor} {i : ℕ} :
    m.available i = true ↔ ∃ fs, m.servers[i]? = some fs ∧ fs.isAvailable = true := by
  simp [available, Option.any_eq_true]

/-- Whichever of the equals `std::sort` puts first, it is available and has the most
    sessions, if there is an available server at all. -/
theorem maximal_of_sorted {m : FsMonitor} {sorted : List ℕ}
    (hperm : sorted.Perm (List.range m.servers.length))
    (hsorted : sorted.Pairwise fun i j => ∀ a ∈ m.servers[i]?, ∀ b ∈ m.servers[j]?,
      capacitySorter b a = false) (h : ∃ i, m.available i = true) :
    ∃ a, sorted.head? = some a ∧ m.available a = true ∧
      ∀ b, m.available b = true → m.sessions b ≤ m.sessions a := by
  have hmem : ∀ {i fs}, m.servers[i]? = some fs → i ∈ sorted := fun hi =>
    hperm.mem_iff.2 (List.mem_range.2 (List.getElem?_eq_some_iff.1 hi).1)
  obtain ⟨i, hi⟩ := h
  obtain ⟨fsi, hfsi, havi⟩ := available_iff.1 hi
  cases hs : sorted with
  | nil =>
    have hnil := hmem hfsi
    simp [hs] at hnil
  | cons a rest =>
    rw [hs] at hmem hsorted hperm
    obtain ⟨fsa, hfsa⟩ : ∃ fsa, m.servers[a]? = some fsa :=
      ⟨_, List.getElem?_eq_getElem (List.mem_range.1 (hperm.mem_iff.1 List.mem_cons_self))⟩
    -- No server has more than the first one.
    have hle : ∀ {b : ℕ} {fsb}, m.servers[b]? = some fsb → capacity fsb ≤ capacity fsa := by
      intro b fsb hfsb
      rcases List.mem_cons.1 (hmem hfsb) with rfl | hb
      · rw [hfsa, Option.some_inj] at hfsb
        rw [hfsb]
      · have := (List.pairwise_cons.1 hsorted).1 b hb fsa hfsa fsb hfsb
        simpa [capacitySorter_eq] using this
    have hava : fsa.isAvailable = true := by
      by_contra hne
      have := hle hfsi
      simp [capacity, havi, hne] at this
    refine ⟨a, rfl, available_iff.2 ⟨fsa, hfsa, hava⟩, fun b hb => ?_⟩
    obtain ⟨fsb, hfsb, havb⟩ := available_iff.1 hb
    have := hle hfsb
    rw [sessions, sessions, hfsb, hfsa, Option.map_some, Option.map_some, Option.getD_some,
      Option.getD_some, UInt32.le_iff_toNat_le]
    simpa [capacity, hava, havb] using this

/-- The server that is put at the front. -/
theorem leastLoaded_spec {m : FsMonitor} (h : ∃ i, m.available i = true) :
    ∃ a, m.leastLoaded = [a] ∧ m.available a = true ∧
      ∀ b, m.available b = true → m.sessions b ≤ m.sessions a := by
  -- On the positions of the servers, the order is that of their capacities.
  let cap : ℕ → ℕ := fun i => (m.servers[i]?.map capacity).getD 0
  have hcap : ∀ i ∈ List.range m.servers.length, ∀ j ∈ List.range m.servers.length,
      (∀ a ∈ m.servers[i]?, ∀ b ∈ m.servers[j]?, capacitySorter b a = false) ↔ cap j ≤ cap i := by
    intro i hi j hj
    rw [List.getElem?_eq_getElem (List.mem_range.1 hi), List.getElem?_eq_getElem (List.mem_range.1 hj)]
    simp [cap, capacitySorter_eq, List.mem_range.1 hi, List.mem_range.1 hj]
  have htotal : Std.Total fun i j => cap j ≤ cap i := ⟨fun i j => le_total _ _⟩
  have htrans : IsTrans ℕ fun i j => cap j ≤ cap i := ⟨fun _ _ _ h₁ h₂ => le_trans h₂ h₁⟩
  have hsort := List.map_insertionSort _ (fun i j => cap j ≤ cap i) id _ hcap
  rw [List.map_id, List.map_id] at hsort
  have hperm := List.perm_insertionSort (fun i j => cap j ≤ cap i) (List.range m.servers.length)
  have hpair := List.pairwise_insertionSort (fun i j => cap j ≤ cap i) (List.range m.servers.length)
  rw [← hsort] at hperm hpair
  obtain ⟨a, ha, hmax⟩ := maximal_of_sorted hperm (hpair.imp_of_mem fun {i j} hi hj hij =>
    (hcap i (hperm.mem_iff.1 hi) j (hperm.mem_iff.1 hj)).2 hij) h
  obtain ⟨rest, hrest⟩ := List.head?_eq_some_iff.1 ha
  refine ⟨a, ?_, hmax⟩
  unfold leastLoaded
  rw [hrest]
  rfl

/-! ## One call -/

/-- Nothing is found where no server is available. -/
theorem scan_of_none {available : ℕ → Bool} (h : ∀ i, available i = false)
    (total start nReturnCount fuel current nLastServer : ℕ) :
    (scan available total start nReturnCount fuel current nLastServer []).2 = [] := by
  induction fuel generalizing current nLastServer with
  | zero => rfl
  | succ fuel ih =>
    rw [scan]
    simp only [h, Bool.false_eq_true, if_false]
    by_cases hend : nextPosition total current = start ∨ nReturnCount ≤ ([] : List ℕ).length
    · rw [if_pos hend]
    · rw [if_neg hend]
      exact ih _ _

/-- The first available server at or after the start, around the end. -/
def IsFirstAvailable (m : FsMonitor) (a : ℕ) : Prop :=
  ∃ j < m.servers.length, a = (m.start + j) % m.servers.length ∧ m.available a = true ∧
    ∀ j' < j, m.available ((m.start + j') % m.servers.length) = false

theorem exists_isFirstAvailable {m : FsMonitor} (h : ∃ i, m.available i = true) :
    ∃ a, m.IsFirstAvailable a := by
  obtain ⟨i, hi⟩ := h
  obtain ⟨fs, hfs, -⟩ := available_iff.1 hi
  have hlt : i < m.servers.length := (List.getElem?_eq_some_iff.1 hfs).1
  have hs : m.start < m.servers.length := nextPosition_lt (by omega)
  have hex : ∃ j, m.available ((m.start + j) % m.servers.length) = true := by
    refine ⟨i + (m.servers.length - m.start), ?_⟩
    rwa [show m.start + (i + (m.servers.length - m.start)) = i + m.servers.length by omega,
      Nat.add_mod_right, Nat.mod_eq_of_lt hlt]
  have hfirst := Nat.find_spec hex
  refine ⟨_, Nat.find hex, ?_, rfl, hfirst, fun j' hj' => by simpa using Nat.find_min hex hj'⟩
  -- One time around is enough.
  by_contra hge
  have hsub : Nat.find hex - m.servers.length < Nat.find hex := by omega
  refine Nat.find_min hex hsub ?_
  rwa [show m.start + Nat.find hex = m.start + (Nat.find hex - m.servers.length) + m.servers.length by omega,
    Nat.add_mod_right] at hfirst

/-- The condition of `getAvailableServers` for a call that gets the least loaded server. -/
def doLeastLoaded (m : FsMonitor) : Bool :=
  0 < m.nRRInterval && 1 < m.servers.length && m.nRRInterval < m.nLastRR + 1

/-- A call that finds a server, or not. -/
theorem getAvailableServers_spec {m : FsMonitor} (htwo : 2 ≤ m.servers.length) (hrr : 0 < m.nRRInterval) :
    (∃ m', m.getAvailableServers = (m', none) ∧ m'.nLastRR = m.nLastRR ∧
      m'.nRRInterval = m.nRRInterval) ∨
    ∃ m' results, m.getAvailableServers = (m', some results) ∧ m'.nRRInterval = m.nRRInterval ∧
      (∃ i, m.available i = true) ∧
      if m.doLeastLoaded then m'.nLastRR = 0 ∧ ∃ a ∈ m.leastLoaded, results.head? = some a
      else m'.nLastRR = m.nLastRR + 1 ∧ ∃ a, m.IsFirstAvailable a ∧ results.head? = some a := by
  have hs : m.start < m.servers.length := nextPosition_lt (by omega)
  have hcount : 0 < min maxServersToTry m.servers.length := by
    unfold maxServersToTry
    omega
  by_cases hex : ∃ i, m.available i = true
  · right
    obtain ⟨a, hfirst⟩ := exists_isFirstAvailable hex
    obtain ⟨j, hj, ha, hav, hn⟩ := hfirst
    obtain ⟨more, hscan⟩ := scan_first m.available hs hcount hj (ha ▸ hav)
      (Nat.zero_add m.servers.length) (Nat.zero_le j) fun i' _ h => hn i' h
    rw [Nat.add_zero, Nat.mod_eq_of_lt hs, min_eq_left hs.le, ← ha] at hscan
    obtain ⟨b, hb, -⟩ := leastLoaded_spec hex
    unfold start at hscan
    have htwo' : 1 < m.servers.length := htwo
    by_cases hdo : m.nRRInterval < m.nLastRR + 1
    · have heq : m.getAvailableServers =
          ({ m with nLastServer := min (m.start + j) m.servers.length, nLastRR := 0 },
            some (m.leastLoaded ++ a :: more)) := by
        unfold getAvailableServers
        rw [if_neg (by omega)]
        simp only [hscan, hrr, htwo', hdo]
        rfl
      refine ⟨_, _, heq, rfl, hex, ?_⟩
      rw [doLeastLoaded, hb, if_pos (by simp [hrr, htwo', hdo])]
      exact ⟨rfl, b, List.mem_cons_self, rfl⟩
    · have heq : m.getAvailableServers =
          ({ m with nLastServer := min (m.start + j) m.servers.length, nLastRR := m.nLastRR + 1 },
            some (a :: more)) := by
        unfold getAvailableServers
        rw [if_neg (by omega)]
        simp only [hscan, hrr, htwo', hdo]
        rfl
      refine ⟨_, _, heq, rfl, hex, ?_⟩
      rw [doLeastLoaded, if_neg (by simp [hdo])]
      exact ⟨rfl, a, ⟨j, hj, ha, hav, hn⟩, rfl⟩
  · left
    have hnone : ∀ i, m.available i = false := by simpa using hex
    have hscan := scan_of_none hnone m.servers.length m.start (min maxServersToTry m.servers.length)
      m.servers.length m.start m.start
    refine ⟨_, Prod.ext rfl ?_, ?_, ?_⟩
    all_goals
      unfold getAvailableServers
      rw [if_neg (by omega)]
      unfold start at hscan
      simp [hscan]

/-! ## Calls in a row -/

/-- A call that found a server: the monitor it was made on, and its results. -/
structure Success where
  monitor : FsMonitor
  results : List ℕ

/-- The successful ones of calls in a row. The servers may change before each call. -/
def successes : FsMonitor → List (List FsInstance) → List Success
  | _, [] => []
  | m, servers :: rest =>
    match { m with servers := servers }.getAvailableServers with
    | (m', none) => successes m' rest
    | (m', some results) => ⟨{ m with servers := servers }, results⟩ :: successes m' rest

/-- What the first entry of the results is. -/
structure Success.Right (s : Success) : Prop where
  leastLoaded : s.monitor.doLeastLoaded = true →
    ∃ a, s.results.head? = some a ∧ s.monitor.available a = true ∧
      ∀ b, s.monitor.available b = true → s.monitor.sessions b ≤ s.monitor.sessions a
  roundRobin : s.monitor.doLeastLoaded = false →
    ∃ a, s.results.head? = some a ∧ s.monitor.IsFirstAvailable a

/-- A count that starts again after `n`. -/
theorem succ_mod_eq (k n : ℕ) :
    (k + 1) % (n + 1) = if k % (n + 1) = n then 0 else k % (n + 1) + 1 := by
  have hlt : k % (n + 1) < n + 1 := Nat.mod_lt k (Nat.succ_pos n)
  rw [← Nat.mod_add_mod]
  split_ifs with h
  · rw [h, Nat.mod_self]
  · exact Nat.mod_eq_of_lt (by omega)

/-- The count of the calls is that of the successful ones, modulo `N + 1`. -/
theorem successes_spec {N : UInt32} (hN : 0 < N) (hmax : N.toNat < 2 ^ 32 - 1)
    {calls : List (List FsInstance)} (hcalls : ∀ servers ∈ calls, 2 ≤ servers.length) {m : FsMonitor}
    (hm : m.nRRInterval = N) {k : ℕ} (hk : m.nLastRR.toNat = k % (N.toNat + 1)) {i : ℕ} {s : Success}
    (hs : (m.successes calls)[i]? = some s) :
    (s.monitor.doLeastLoaded = true ↔ N.toNat + 1 ∣ k + i + 1) ∧ s.Right := by
  induction calls generalizing m k i with
  | nil => simp [successes] at hs
  | cons servers rest ih =>
    obtain ⟨htwo, hrest⟩ := List.forall_mem_cons.1 hcalls
    have hspec := getAvailableServers_spec (m := { m with servers := servers }) htwo (hm ▸ hN)
    rw [successes] at hs
    rcases hspec with ⟨m', heq, hlast, hint⟩ | ⟨m', results, heq, hint, hex, hout⟩
    · -- A failed call leaves the count.
      rw [heq] at hs
      exact ih hrest (hint.trans hm) (by rw [hlast]; exact hk) hs
    · rw [heq] at hs
      -- The condition for the least loaded server, in terms of the count.
      have hlt : m.nLastRR.toNat < N.toNat + 1 := hk ▸ Nat.mod_lt _ (Nat.succ_pos _)
      have hsucc : (m.nLastRR + 1).toNat = m.nLastRR.toNat + 1 := by
        rw [UInt32.toNat_add]
        exact Nat.mod_eq_of_lt (by simp; omega)
      have hdo : FsMonitor.doLeastLoaded { m with servers := servers } = true ↔
          m.nLastRR.toNat = N.toNat := by
        have hiff : N < m.nLastRR + 1 ↔ m.nLastRR.toNat = N.toNat := by
          rw [UInt32.lt_iff_toNat_lt, hsucc]
          omega
        have htwo' : 1 < servers.length := htwo
        simp only [doLeastLoaded, hm, hN, htwo', decide_true, Bool.true_and, decide_eq_true_eq, hiff]
      cases i with
      | zero =>
        obtain rfl : _ = s := by simpa using hs
        refine ⟨?_, fun hll => ?_, fun hrr => ?_⟩
        · rw [hdo, hk, Nat.add_zero, Nat.dvd_iff_mod_eq_zero, succ_mod_eq]
          split_ifs with h <;> simp [h]
        · rw [if_pos hll] at hout
          obtain ⟨-, a, ha, hhead⟩ := hout
          obtain ⟨b, hb, hmaximal⟩ := leastLoaded_spec hex
          rw [hb, List.mem_singleton] at ha
          exact ⟨a, hhead, ha ▸ hmaximal⟩
        · rw [if_neg (by simpa using hrr)] at hout
          obtain ⟨-, a, ha, hhead⟩ := hout
          exact ⟨a, hhead, ha⟩
      | succ i =>
        have hcount : m'.nLastRR.toNat = (k + 1) % (N.toNat + 1) := by
          rw [succ_mod_eq, ← hk]
          split_ifs at hout with hll
          · rw [hout.1, if_pos (hdo.1 hll)]
            rfl
          · rw [hout.1, if_neg fun hN' => hll (hdo.2 hN')]
            exact hsucc
        have hih := ih hrest (hint.trans hm) hcount (by simpa using hs)
        rwa [show k + 1 + i + 1 = k + (i + 1) + 1 by omega] at hih

/-- **The cadence of least loaded servers.** From a new monitor on, whatever the servers are
    at each call, every `N + 1`st of the successful calls gets the least loaded one of the
    available servers at the front of its results, and the others get the first available
    server at or after the start of the scan. -/
theorem cadence {N : UInt32} (hN : 0 < N) (hmax : N.toNat < 2 ^ 32 - 1)
    {calls : List (List FsInstance)} (hcalls : ∀ servers ∈ calls, 2 ≤ servers.length) {i : ℕ}
    {s : Success} (hs : (successes { nRRInterval := N } calls)[i]? = some s) :
    (s.monitor.doLeastLoaded = true ↔ N.toNat + 1 ∣ i + 1) ∧ s.Right := by
  have h := successes_spec hN hmax hcalls (k := 0) rfl (by simp) hs
  rwa [Nat.zero_add] at h

/-- Two servers, the second one with more sessions left. -/
def unevenServers : List FsInstance :=
  [{ strAddress := ['a'], nEventSocketPort := 8021, state := .queryingStatus, nMaxSessions := 10
     nCurrentSessions := 5 },
    { strAddress := ['b'], nEventSocketPort := 8021, state := .queryingStatus, nMaxSessions := 10
      nCurrentSessions := 3 }]

/-- After one call in round robin, the next one goes to the least loaded server. -/
theorem cadence_unevenServers :
    ∃ s, (successes { nRRInterval := 1 } [unevenServers, unevenServers])[1]? = some s ∧
      s.monitor.doLeastLoaded = true ∧ s.Right := by
  have hcalls : ∀ servers ∈ [unevenServers, unevenServers], 2 ≤ servers.length := by decide
  refine ⟨_, rfl, ?_⟩
  have h := cadence (N := 1) (by decide) (by decide) hcalls (i := 1) rfl
  exact ⟨h.1.2 (by decide), h.2⟩

end FsMonitor

end Ssp
