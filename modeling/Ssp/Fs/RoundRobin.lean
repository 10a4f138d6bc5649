import Mathlib.Data.List.Pairwise
import Ssp.Fs.Monitor
import Ssp.Lib.Run

/-!
# Round robin

Without an interval for least loaded servers, `getAvailableServers` puts one
available server after the other at the front of its results: `firstEntries` are the
ones that the following calls begin with, as long as the same servers are available.

A call begins the scan after the server it gave out last (`m_nLastServer`), and
moves this cursor along over unavailable servers, but not around the end: from the
last position it goes to `total`, and the next call begins at the first server
again. So if there is no available server from the start of the scan to the end of
the list, the first one is given out twice in a row. `fair_iff` says when this
happens among as many calls as there are available servers.
-/

namespace Ssp

namespace FsMonitor

/-! ## One call -/

/-- After the first result, the cursor is not moved. -/
theorem scan_of_results {available : ℕ → Bool} {total start nReturnCount : ℕ} (hs : start < total)
    {nLastServer : ℕ} {fuel j : ℕ} (hj : j + fuel = total)
    (hl : ∀ i, j ≤ i → i < total → nLastServer ≠ (start + i) % total) (results : List ℕ) :
    ∃ more, scan available total start nReturnCount fuel ((start + j) % total) nLastServer results =
      (nLastServer, results ++ more) := by
  induction fuel generalizing j results with
  | zero => exact ⟨[], by simp [scan]⟩
  | succ fuel ih =>
    have hne : (!available ((start + j) % total) && decide (nLastServer = (start + j) % total)) = false := by
      simp [hl j le_rfl (by omega)]
    rw [scan, hne, nextPosition_offset hs (by omega)]
    obtain ⟨new, hnew⟩ : ∃ new, (if available ((start + j) % total) = true
        then results ++ [(start + j) % total] else results) = results ++ new := by
      split_ifs
      · exact ⟨_, rfl⟩
      · exact ⟨[], by simp⟩
    rw [hnew]
    simp only [Bool.false_eq_true, if_false]
    split_ifs
    · exact ⟨new, rfl⟩
    · obtain ⟨more, hmore⟩ := ih (j := j + 1) (by omega) (fun i hi => hl i (by omega)) (results ++ new)
      exact ⟨new ++ more, by rw [hmore, List.append_assoc]⟩

/-- The first available server in the order of the scan, `i` positions after the
    start, is the first result; the cursor has followed up to it, or to the end. -/
theorem scan_first (available : ℕ → Bool) {total start nReturnCount : ℕ} (hs : start < total)
    (hc : 0 < nReturnCount) {i : ℕ} (hi : i < total) (ha : available ((start + i) % total) = true)
    {fuel j : ℕ} (hj : j + fuel = total) (hji : j ≤ i)
    (hn : ∀ i', j ≤ i' → i' < i → available ((start + i') % total) = false) :
    ∃ more, scan available total start nReturnCount fuel ((start + j) % total) (min (start + j) total) [] =
      (min (start + i) total, (start + i) % total :: more) := by
  induction fuel generalizing j with
  | zero => omega
  | succ fuel ih =>
    rw [scan, nextPosition_offset hs (by omega)]
    rcases Nat.eq_or_lt_of_le hji with rfl | hlt
    · -- The available server.
      simp only [ha, if_true, Bool.not_true, Bool.false_and, Bool.false_eq_true, if_false,
        List.nil_append]
      split_ifs
      · exact ⟨[], rfl⟩
      · refine scan_of_results hs (by omega) (fun i' h₁ h₂ => ?_) [(start + j) % total]
        rw [offset_eq hs h₂.le]
        split_ifs <;> omega
    · -- An unavailable one: the cursor follows, unless it is at the end.
      have hun := hn j le_rfl hlt
      have hcur : (if (!available ((start + j) % total) && decide (min (start + j) total = (start + j) % total)) = true
          then min (start + j) total + 1 else min (start + j) total) = min (start + (j + 1)) total := by
        rw [hun, offset_eq hs (by omega)]
        simp only [Bool.not_false, Bool.true_and, decide_eq_true_eq]
        split_ifs <;> omega
      rw [hcur]
      simp only [hun, Bool.false_eq_true, if_false]
      rw [if_neg]
      · exact ih (by omega) (by omega) (fun i' h₁ h₂ => hn i' (by omega) h₂)
      · simp only [offset_eq_start_iff hs (show j < total by omega), List.length_nil]
        omega

/-- The positions of the available servers, in order. -/
def availableServers (m : FsMonitor) : List ℕ := (List.range m.servers.length).filter m.available

/-- Where the scan of the next call starts. -/
def start (m : FsMonitor) : ℕ := nextPosition m.servers.length m.nLastServer

/-- The available servers from the start of the scan to the end of the list. -/
def fromStart (m : FsMonitor) : List ℕ := m.availableServers.filter (m.start ≤ ·)

/-- The available servers before the start of the scan. -/
def belowStart (m : FsMonitor) : List ℕ := m.availableServers.filter (· < m.start)

/-- The monitor with the cursor at `i`. -/
def setLast (m : FsMonitor) (i : ℕ) : FsMonitor := { m with nLastServer := i }

@[simp]
theorem setLast_setLast (m : FsMonitor) (i j : ℕ) : (m.setLast i).setLast j = m.setLast j := rfl

@[simp]
theorem availableServers_setLast (m : FsMonitor) (i : ℕ) :
    (m.setLast i).availableServers = m.availableServers := rfl

theorem pairwise_availableServers (m : FsMonitor) : m.availableServers.Pairwise (· < ·) :=
  List.Pairwise.filter _ List.pairwise_lt_range

theorem mem_availableServers {m : FsMonitor} {i : ℕ} :
    i ∈ m.availableServers ↔ i < m.servers.length ∧ m.available i = true := by
  simp [availableServers]

/-- A call, where the first available server in the order of the scan is `i` positions
    after the start. -/
theorem getAvailableServers_of_offset {m : FsMonitor} (hrr : m.nRRInterval = 0) {i : ℕ}
    (hi : i < m.servers.length) (ha : m.available ((m.start + i) % m.servers.length) = true)
    (hn : ∀ i' < i, m.available ((m.start + i') % m.servers.length) = false) :
    ∃ more, m.getAvailableServers = (m.setLast (min (m.start + i) m.servers.length),
      some ((m.start + i) % m.servers.length :: more)) := by
  have hpos : 0 < m.servers.length := by omega
  have hs : m.start < m.servers.length := nextPosition_lt hpos
  have hcount : 0 < min maxServersToTry m.servers.length := by
    unfold maxServersToTry
    omega
  obtain ⟨more, hmore⟩ := scan_first m.available hs hcount hi ha
    (Nat.zero_add m.servers.length) (Nat.zero_le i) (fun i' _ h => hn i' h)
  rw [Nat.add_zero, Nat.mod_eq_of_lt hs, min_eq_left hs.le] at hmore
  refine ⟨more, ?_⟩
  unfold getAvailableServers
  rw [if_neg (by omega)]
  unfold start at hmore ⊢
  simp [hmore, hrr, setLast]

/-- A call that finds an available server before the end of the list. -/
theorem getAvailableServers_of_fromStart {m : FsMonitor} (hrr : m.nRRInterval = 0) {a : ℕ}
    {rest : List ℕ} (h : m.fromStart = a :: rest) :
    ∃ more, m.getAvailableServers = (m.setLast a, some (a :: more)) := by
  have hsorted := m.pairwise_availableServers.filter (m.start ≤ ·)
  rw [show m.availableServers.filter _ = _ from h] at hsorted
  obtain ⟨hmem, hle⟩ : a ∈ m.availableServers ∧ m.start ≤ a := by
    simpa using List.mem_filter.1 (show a ∈ m.fromStart by simp [h])
  obtain ⟨hlt, hav⟩ := mem_availableServers.1 hmem
  have hoff : m.start + (a - m.start) = a := by omega
  have hnone : ∀ i' < a - m.start, m.available ((m.start + i') % m.servers.length) = false := by
    intro i' hi'
    rw [Nat.mod_eq_of_lt (by omega)]
    by_contra hne
    have hin : m.start + i' ∈ m.fromStart :=
      List.mem_filter.2 ⟨mem_availableServers.2 ⟨by omega, by simpa using hne⟩, by simp⟩
    rw [h] at hin
    rcases List.mem_cons.1 hin with heq | hin
    · omega
    · have := List.rel_of_pairwise_cons hsorted hin
      omega
  obtain ⟨more, hmore⟩ := getAvailableServers_of_offset hrr (by omega)
    (by rwa [hoff, Nat.mod_eq_of_lt hlt]) hnone
  refine ⟨more, ?_⟩
  rwa [hoff, Nat.mod_eq_of_lt hlt, min_eq_left hlt.le] at hmore

/-- A call that finds one only around the end: the cursor is left at the end. -/
theorem getAvailableServers_of_belowStart {m : FsMonitor} (hrr : m.nRRInterval = 0) {a : ℕ}
    {rest : List ℕ} (h : m.fromStart = []) (hav : m.availableServers = a :: rest) :
    ∃ more, m.getAvailableServers = (m.setLast m.servers.length, some (a :: more)) := by
  have hsorted := m.pairwise_availableServers
  obtain ⟨hlt, ha⟩ := mem_availableServers.1 (show a ∈ m.availableServers by simp [hav])
  have hs : m.start < m.servers.length := nextPosition_lt (by omega)
  have hbelow : ∀ x ∈ m.availableServers, x < m.start := by
    simpa [fromStart, List.filter_eq_nil_iff] using h
  have hastart := hbelow a (by simp [hav])
  -- From the start, the server is reached around the end.
  have hoff : (m.start + (m.servers.length - m.start + a)) % m.servers.length = a := by
    rw [offset_eq hs (by omega), if_neg (by omega)]
    omega
  have hnone : ∀ i' < m.servers.length - m.start + a,
      m.available ((m.start + i') % m.servers.length) = false := by
    intro i' hi'
    by_contra hne
    have hmem : (m.start + i') % m.servers.length ∈ m.availableServers :=
      mem_availableServers.2 ⟨Nat.mod_lt _ (by omega), by simpa using hne⟩
    have hlt' := hbelow _ hmem
    rw [hav] at hmem hsorted
    have hle : a ≤ (m.start + i') % m.servers.length := by
      rcases List.mem_cons.1 hmem with heq | hin
      · omega
      · exact (List.rel_of_pairwise_cons hsorted hin).le
    rw [offset_eq hs (by omega)] at hle hlt'
    split_ifs at hle hlt' <;> omega
  obtain ⟨more, hmore⟩ := getAvailableServers_of_offset hrr (by omega) (by rwa [hoff]) hnone
  refine ⟨more, ?_⟩
  rwa [hoff, min_eq_right (by omega)] at hmore

/-! ## Calls in a row -/

/-- The first entries of the results of calls in a row. -/
def firstEntries (m : FsMonitor) : ℕ → List (Option ℕ)
  | 0 => []
  | k + 1 => m.getAvailableServers.2.bind List.head? :: m.getAvailableServers.1.firstEntries k

theorem firstEntries_take (m : FsMonitor) (j k : ℕ) :
    (m.firstEntries (j + k)).take j = m.firstEntries j := by
  induction j generalizing m with
  | zero => simp [firstEntries]
  | succ j ih =>
    rw [Nat.succ_add, firstEntries, firstEntries, List.take_succ_cons, ih]

/-- After a server, the scan goes on with the ones after it. -/
theorem fromStart_setLast {m : FsMonitor} {a b : ℕ} {rest : List ℕ}
    (h : m.fromStart = a :: b :: rest) : (m.setLast a).fromStart = b :: rest := by
  have hsorted := m.pairwise_availableServers.filter (m.start ≤ ·)
  rw [show m.availableServers.filter _ = _ from h] at hsorted
  have hab := List.rel_of_pairwise_cons hsorted List.mem_cons_self
  have hb : b < m.servers.length :=
    (mem_availableServers.1 (List.mem_filter.1 (show b ∈ m.fromStart by simp [h])).1).1
  have ha : m.start ≤ a := by
    simpa using (List.mem_filter.1 (show a ∈ m.fromStart by simp [h])).2
  have hstart : (m.setLast a).start = a + 1 := if_pos (show a + 1 < m.servers.length by omega)
  -- What comes from `a + 1` on is what came from the start on, less `a`.
  have hfilter : (m.setLast a).fromStart = m.fromStart.filter (a + 1 ≤ ·) := by
    unfold fromStart
    rw [hstart, availableServers_setLast, List.filter_filter]
    refine List.filter_congr fun x _ => ?_
    rw [Bool.eq_iff_iff]
    simp only [decide_eq_true_eq, Bool.and_eq_true]
    omega
  rw [hfilter, h, List.filter_cons_of_neg (by simp)]
  refine List.filter_eq_self.2 fun x hx => ?_
  simpa using Nat.succ_le_of_lt (List.rel_of_pairwise_cons hsorted hx)

/-- Calls give out the servers from the start of the scan on, one after the other. -/
theorem firstEntries_fromStart {m : FsMonitor} (hrr : m.nRRInterval = 0) {a : ℕ} {rest : List ℕ}
    (h : m.fromStart = a :: rest) (k : ℕ) :
    m.firstEntries ((a :: rest).length + k) = (a :: rest).map some ++
      (m.setLast ((a :: rest).getLast (List.cons_ne_nil a rest))).firstEntries k := by
  induction rest generalizing m a with
  | nil =>
    obtain ⟨more, hmore⟩ := getAvailableServers_of_fromStart hrr h
    rw [List.length_singleton, Nat.add_comm, firstEntries, hmore]
    rfl
  | cons b rest ih =>
    obtain ⟨more, hmore⟩ := getAvailableServers_of_fromStart hrr h
    rw [List.length_cons, Nat.add_right_comm, firstEntries, hmore]
    rw [ih (m := m.setLast a) hrr (fromStart_setLast h), List.getLast_cons (List.cons_ne_nil b rest),
      setLast_setLast]
    rfl

theorem firstEntries_take_fromStart {m : FsMonitor} (hrr : m.nRRInterval = 0) {k : ℕ}
    (hk : k ≤ m.fromStart.length) : m.firstEntries k = (m.fromStart.take k).map some := by
  obtain ⟨j, hj⟩ := Nat.exists_eq_add_of_le hk
  cases h : m.fromStart with
  | nil =>
    rw [h] at hk
    obtain rfl : k = 0 := by simpa using hk
    rfl
  | cons a rest =>
    have := firstEntries_fromStart hrr h 0
    rw [firstEntries, List.append_nil, Nat.add_zero, ← h, hj] at this
    rw [← firstEntries_take m k j, this, h, List.map_take]

/-- The first server follows on the last one of the list, and on the end. -/
theorem fromStart_setLast_end {m : FsMonitor} {i : ℕ} (hi : m.servers.length ≤ i + 1) :
    (m.setLast i).fromStart = m.availableServers := by
  have hstart : (m.setLast i).start = 0 := if_neg (show ¬i + 1 < m.servers.length by omega)
  unfold fromStart
  rw [hstart, availableServers_setLast]
  simp

theorem filter_lt_append_filter_le {l : List ℕ} (h : l.Pairwise (· < ·)) (s : ℕ) :
    l.filter (· < s) ++ l.filter (s ≤ ·) = l := by
  induction l with
  | nil => rfl
  | cons a l ih =>
    have hl := ih (List.Pairwise.of_cons h)
    by_cases ha : a < s
    · rw [List.filter_cons_of_pos (by simpa using ha), List.filter_cons_of_neg (by simpa using ha),
        List.cons_append, hl]
    · -- Nothing after `a` is below the start.
      have hnone : l.filter (· < s) = [] := by
        refine List.filter_eq_nil_iff.2 fun x hx => ?_
        have := List.rel_of_pairwise_cons h hx
        simp only [decide_eq_true_eq]
        omega
      rw [hnone, List.nil_append] at hl
      rw [List.filter_cons_of_neg (by simpa using ha), List.filter_cons_of_pos (by simpa using ha),
        hnone, hl, List.nil_append]

theorem belowStart_append_fromStart (m : FsMonitor) :
    m.belowStart ++ m.fromStart = m.availableServers :=
  filter_lt_append_filter_le m.pairwise_availableServers m.start

theorem nodup_availableServers (m : FsMonitor) : m.availableServers.Nodup :=
  m.pairwise_availableServers.imp fun h => Nat.ne_of_lt h

theorem le_getLast_fromStart {m : FsMonitor} {a x : ℕ} {rest : List ℕ}
    (h : m.fromStart = a :: rest) (hx : x ∈ m.fromStart) :
    x ≤ (a :: rest).getLast (List.cons_ne_nil a rest) := by
  have hsorted : m.fromStart.Pairwise (· ≤ ·) :=
    (m.pairwise_availableServers.filter _).imp fun h => Nat.le_of_lt h
  rw [h] at hsorted hx
  exact hsorted.rel_getLast hx

/-- As many calls as there are available servers, if the last server is available. -/
theorem firstEntries_of_last {m : FsMonitor} (hrr : m.nRRInterval = 0)
    (hn : m.servers ≠ []) (hl : m.available (m.servers.length - 1) = true) :
    m.firstEntries m.availableServers.length = (m.fromStart ++ m.belowStart).map some := by
  have hpos : 0 < m.servers.length := List.length_pos_iff.2 hn
  have hs : m.start < m.servers.length := nextPosition_lt hpos
  have happ := m.belowStart_append_fromStart
  have hmem : m.servers.length - 1 ∈ m.fromStart :=
    List.mem_filter.2 ⟨mem_availableServers.2 ⟨by omega, hl⟩, by simp; omega⟩
  cases h : m.fromStart with
  | nil => simp [h] at hmem
  | cons a rest =>
    -- The last one given out before the end is the last server.
    have hlast := le_getLast_fromStart h hmem
    set last := (a :: rest).getLast (List.cons_ne_nil a rest) with hlastdef
    have hfrom : (m.setLast last).fromStart = m.availableServers := fromStart_setLast_end (by omega)
    have hlen : m.availableServers.length = (a :: rest).length + m.belowStart.length := by
      rw [← happ, h, List.length_append, Nat.add_comm]
    have hrest : (m.setLast last).firstEntries m.belowStart.length = m.belowStart.map some := by
      rw [firstEntries_take_fromStart (m := m.setLast last) hrr (by rw [hfrom, hlen]; omega), hfrom,
        ← happ, List.take_left]
    rw [hlen, firstEntries_fromStart hrr h, hrest, List.map_append]

/-- From a start after all available servers, the first one is given out, and then all
    of them from the first one on. -/
theorem firstEntries_wrapped {m : FsMonitor} (hrr : m.nRRInterval = 0) {a : ℕ} {l : List ℕ}
    (hav : m.availableServers = a :: l) (h : m.fromStart = []) {j : ℕ}
    (hj : j ≤ m.availableServers.length) :
    m.firstEntries (j + 1) = (a :: m.availableServers.take j).map some := by
  obtain ⟨more, hmore⟩ := getAvailableServers_of_belowStart hrr h hav
  have hfrom : (m.setLast m.servers.length).fromStart = m.availableServers :=
    fromStart_setLast_end (by omega)
  rw [firstEntries, hmore, firstEntries_take_fromStart (m := m.setLast m.servers.length) hrr
    (by rwa [hfrom]), hfrom]
  rfl

/-- After the last available server, if it is not the last one of all. -/
theorem fromStart_setLast_getLast {m : FsMonitor} {a : ℕ} {rest : List ℕ}
    (h : m.fromStart = a :: rest) (hl : m.available (m.servers.length - 1) = false) :
    (m.setLast ((a :: rest).getLast (List.cons_ne_nil a rest))).fromStart = [] := by
  set last := (a :: rest).getLast (List.cons_ne_nil a rest) with hlast
  have hmem : last ∈ m.fromStart := h ▸ List.getLast_mem (List.cons_ne_nil a rest)
  obtain ⟨hav, hle⟩ : last ∈ m.availableServers ∧ m.start ≤ last := by
    simpa using List.mem_filter.1 hmem
  obtain ⟨hlt, hava⟩ := mem_availableServers.1 hav
  have hne : last ≠ m.servers.length - 1 := by
    intro heq
    rw [heq, hl] at hava
    simp at hava
  have hstart : (m.setLast last).start = last + 1 :=
    if_pos (show last + 1 < m.servers.length by omega)
  refine List.filter_eq_nil_iff.2 fun x hx => ?_
  rw [hstart, decide_eq_true_eq]
  rw [availableServers_setLast, ← belowStart_append_fromStart, List.mem_append] at hx
  rcases hx with hx | hx
  · have : x < m.start := by simpa using (List.mem_filter.1 hx).2
    omega
  · have := le_getLast_fromStart h hx
    omega

/-- As many calls as there are available servers, if the last server is not available
    and there are some before the start of the scan: the first one is given out around
    the end, and then again. -/
theorem firstEntries_of_not_last {m : FsMonitor} (hrr : m.nRRInterval = 0) {a j : ℕ} {l : List ℕ}
    (hav : m.availableServers = a :: l) (hl : m.available (m.servers.length - 1) = false)
    (hj : m.belowStart.length = j + 1) :
    m.firstEntries m.availableServers.length =
      (m.fromStart ++ a :: m.availableServers.take j).map some := by
  have hlen : m.availableServers.length = m.fromStart.length + (j + 1) := by
    rw [← belowStart_append_fromStart, List.length_append, hj, Nat.add_comm]
  rw [hlen]
  cases h : m.fromStart with
  | nil =>
    rw [h, List.length_nil, Nat.zero_add] at hlen
    rw [List.length_nil, Nat.zero_add, firstEntries_wrapped hrr hav h (by omega), List.nil_append]
  | cons b rest =>
    have hwrap := fromStart_setLast_getLast h hl
    set m' := m.setLast ((b :: rest).getLast (List.cons_ne_nil b rest)) with hm'
    have hrest : m'.firstEntries (j + 1) = (a :: m.availableServers.take j).map some :=
      firstEntries_wrapped (m := m') hrr hav hwrap (by rw [hm', availableServers_setLast]; omega)
    rw [firstEntries_fromStart hrr h, ← hm', hrest, List.map_append]

/-! ## Fairness -/

/-- Among as many calls as there are available servers, each of them is the first
    entry of the results exactly once. -/
def Fair (m : FsMonitor) : Prop :=
  ∀ i ∈ m.availableServers, (m.firstEntries m.availableServers.length).count (some i) = 1

theorem fair_of_perm {m : FsMonitor} {l : List ℕ} (h : l.Perm m.availableServers)
    (hf : m.firstEntries m.availableServers.length = l.map some) : m.Fair := by
  intro i hi
  rw [hf, List.count_map_of_injective _ _ (Option.some_injective ℕ), h.count_eq]
  exact List.count_eq_one_of_mem m.nodup_availableServers hi

/-- **Round robin.** The calls are fair exactly if the last server is available or at
    most one available server is before the start of the scan. -/
theorem fair_iff {m : FsMonitor} (hrr : m.nRRInterval = 0) (hav : m.availableServers ≠ []) :
    m.Fair ↔ m.available (m.servers.length - 1) = true ∨ m.belowStart.length ≤ 1 := by
  obtain ⟨a, l, hal⟩ := List.exists_cons_of_ne_nil hav
  have happ := m.belowStart_append_fromStart
  cases hl : m.available (m.servers.length - 1) with
  | true =>
    have hn : m.servers ≠ [] := by
      rintro hn
      simp [availableServers, hn] at hav
    have hperm : (m.fromStart ++ m.belowStart).Perm m.availableServers :=
      happ ▸ List.perm_append_comm
    exact iff_of_true (fair_of_perm hperm (firstEntries_of_last hrr hn hl)) (.inl rfl)
  | false =>
    rw [or_iff_right (by simp)]
    cases hb : m.belowStart with
    | nil =>
      rw [hb, List.nil_append] at happ
      refine iff_of_true (fair_of_perm (List.Perm.refl _) ?_) (by simp)
      rw [firstEntries_take_fromStart hrr (by rw [happ]), happ, List.take_length]
    | cons b bs =>
      have hf := firstEntries_of_not_last hrr hal hl (j := bs.length) (by simp [hb])
      obtain rfl : b = a := by
        rw [hb, hal, List.cons_append] at happ
        exact (List.cons.inj happ).1
      cases bs with
      | nil =>
        refine iff_of_true (fair_of_perm (l := m.fromStart ++ [b]) ?_ (by simpa using hf)) (by simp)
        rw [← happ, hb]
        exact List.perm_append_comm
      | cons c bs =>
        -- The first available server comes twice.
        refine iff_of_false (fun hfair => ?_) (by simp)
        have hone := hfair b (by simp [hal])
        rw [hf, hal] at hone
        simp only [List.length_cons, List.take_succ_cons, List.map_append, List.map_cons,
          List.count_append, List.count_cons_self] at hone
        omega

/-- Calls with any servers available at each of them: `n` servers, and no interval for
    least loaded ones. -/
def calls (n : ℕ) : Machine FsMonitor (List FsInstance) where
  init := {m | m.servers.length = n ∧ m.nRRInterval = 0 ∧ m.nLastServer = 0}
  enabled _ servers := servers.length = n
  next m servers := ({ m with servers := servers } : FsMonitor).getAvailableServers.1

/-- A server, available or not. -/
def sampleServer (available : Bool) : FsInstance :=
  { strAddress := [], nEventSocketPort := 8021, nMaxSessions := 10
    state := if available then .queryingStatus else .starting }

/-- Three servers, the last of them not available. -/
def lastDown : List FsInstance := [sampleServer true, sampleServer true, sampleServer false]

/-- With the last server down, a new monitor is fair: it begins after the first one. -/
theorem fair_lastDown : ({ servers := lastDown } : FsMonitor).Fair :=
  (fair_iff rfl (by decide)).2 (.inr (by decide))

/-- After one call it is not: the first server is given out twice. -/
theorem not_fair_lastDown :
    ¬∀ (n : ℕ) (m : FsMonitor) (servers : List FsInstance), (calls n).Reachable m →
      servers.length = n → ({ m with servers := servers } : FsMonitor).availableServers ≠ [] →
      ({ m with servers := servers } : FsMonitor).Fair := by
  intro h
  have hreach : (calls 3).Reachable ((calls 3).next { servers := lastDown } lastDown) :=
    .step (.init ⟨rfl, rfl, rfl⟩) rfl
  have hfair := h 3 _ lastDown hreach rfl (by decide)
  exact absurd (hfair 0 (by decide)) (by decide)

end FsMonitor

end Ssp
