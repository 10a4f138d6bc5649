import Mathlib.Data.Int.Notation
import Ssp.Fs.Body
import Ssp.Fs.LeastLoaded
import Ssp.Fs.Lookup

/-!
# Capacity

`isAvailable` and `getAvailableSessions` subtract in 32 bits without a sign. A status reply can set
the counters to any two values (`getFsStatus_statusOf`), and with a maximum below `2`, the limit of
`isAvailable` is close to `2 ^ 32`: a server without any room is available then, and may be taken for
the least loaded one. `capacityRight_iff` says for which counters the arithmetic is that of the
integers.
-/

namespace Ssp

/-! ## What a status reply sets -/

/-- The content of a status reply with two counters. -/
def statusOf (current max : UInt32) : Bytes :=
  terminate '\n' [['a'], ['b'], ['c'], decimal current.toNat, decimal max.toNat]

theorem parseLeadingInteger_decimal (n : UInt32) : parseLeadingInteger (decimal n.toNat) = some (some n) := by
  have hdecimal := isDecimal_decimal n.toNat
  have hwords : blankWords (decimal n.toNat) = [decimal n.toNat] := by
    refine tokens_of_forall hdecimal.1 fun c hc => beq_eq_false_iff_ne.2 ?_
    rintro rfl
    exact absurd (hdecimal.2 _ hc) (by decide)
  rw [FsMessage.parseLeadingInteger_of_some (by rw [hwords]; rfl), if_pos hdecimal.hasDigit]
  exact congrArg (some ∘ some) (UInt32.toNat.inj (toNat_atoi_decimal n.toNat_lt))

/-- Every two counters can be set. -/
theorem getFsStatus_statusOf {m : FsMessage} {current max : UInt32} (h : m.strContent = statusOf current max) :
    m.getFsStatus = .parsed (some current) (some max) := by
  have hclean : ∀ n : UInt32, ∀ c ∈ decimal n.toNat, (c == '\n') = false := by
    intro n c hc
    refine beq_eq_false_iff_ne.2 ?_
    rintro rfl
    exact absurd (isDigit_of_mem_decimal hc) (by decide)
  have hlines : lines m.strContent = [['a'], ['b'], ['c'], decimal current.toNat, decimal max.toNat] := by
    rw [h]
    unfold lines statusOf
    rw [tokens_terminate rfl]
    · simp [decimal_ne_nil]
    · simp only [List.forall_mem_cons]
      exact ⟨by simp, by simp, by simp, hclean current, hclean max, by simp⟩
  unfold FsMessage.getFsStatus
  rw [hlines]
  simp only [parseLeadingInteger_decimal]

/-! ## One server -/

namespace FsInstance

variable {fs : FsInstance}

/-- The sessions that are left, over the integers. -/
def room (fs : FsInstance) : ℤ := (fs.nMaxSessions.toNat : ℤ) - fs.nCurrentSessions.toNat

/-- The limit of `isAvailable` does not wrap around, or is not reached all the same. -/
def Fits (fs : FsInstance) : Prop :=
  2 ≤ fs.nMaxSessions.toNat ∨ 2 ^ 32 + fs.nMaxSessions.toNat ≤ fs.nCurrentSessions.toNat + 2

theorem isAvailable_iff_of_querying (hstate : fs.state = .queryingStatus) :
    fs.isAvailable = true ↔ fs.nCurrentSessions < fs.nMaxSessions - 2 := by
  simp [isAvailable, hstate]

theorem state_of_isAvailable (h : fs.isAvailable = true) : fs.state = .queryingStatus := by
  unfold isAvailable at h
  simp only [Bool.and_eq_true, decide_eq_true_eq] at h
  exact h.1

theorem fits_iff (hstate : fs.state = .queryingStatus) :
    (fs.isAvailable = true ↔ fs.nCurrentSessions.toNat + 2 < fs.nMaxSessions.toNat) ↔ fs.Fits := by
  have hcurrent := fs.nCurrentSessions.toNat_lt
  have hmax := fs.nMaxSessions.toNat_lt
  have htwo : (2 : UInt32).toNat = 2 := rfl
  rw [isAvailable_iff_of_querying hstate, UInt32.lt_iff_toNat_lt, UInt32.toNat_sub, htwo]
  unfold Fits
  omega

/-- With room, the subtraction does not wrap around. -/
theorem toNat_getAvailableSessions (h : fs.nCurrentSessions.toNat ≤ fs.nMaxSessions.toNat) :
    (fs.getAvailableSessions.toNat : ℤ) = fs.room := by
  unfold getAvailableSessions room
  rw [UInt32.toNat_sub_of_le _ _ (UInt32.le_iff_toNat_le.2 h)]
  omega

theorem capacitySorter_iff_room {a b : FsInstance} (ha : a.isAvailable = true) (hb : b.isAvailable = true)
    (hfa : a.Fits) (hfb : b.Fits) : capacitySorter a b = true ↔ b.room < a.room := by
  have hroom : ∀ {fs : FsInstance}, fs.isAvailable = true → fs.Fits →
      (fs.getAvailableSessions.toNat : ℤ) = fs.room := by
    intro fs hav hfits
    have hlt := ((fits_iff (state_of_isAvailable hav)).2 hfits).1 hav
    exact toNat_getAvailableSessions (by omega)
  unfold capacitySorter
  rw [ha, hb, ← hroom ha hfa, ← hroom hb hfb]
  simp [UInt32.lt_iff_toNat_lt]

end FsInstance

/-! ## The servers of a monitor -/

namespace FsMonitor

open FsInstance

/-- The arithmetic is that of the integers: for whether a server is available, for the order of two
    available servers, and so for the server at the front of a least loaded call, which has room. -/
structure CapacityRight (m : FsMonitor) : Prop where
  isAvailable : ∀ fs ∈ m.servers, fs.state = .queryingStatus →
    (fs.isAvailable = true ↔ fs.nCurrentSessions.toNat + 2 < fs.nMaxSessions.toNat)
  order : ∀ a ∈ m.servers, ∀ b ∈ m.servers, a.isAvailable = true → b.isAvailable = true →
    (capacitySorter a b = true ↔ b.room < a.room)
  leastLoaded : m.doLeastLoaded = true → ∀ results, m.getAvailableServers.2 = some results →
    ∀ i ∈ results.head?, ∀ fs ∈ m.servers[i]?, fs.nCurrentSessions.toNat < fs.nMaxSessions.toNat

/-- The server at the front of a least loaded call is available. -/
theorem available_of_leastLoaded {m : FsMonitor} (hdo : m.doLeastLoaded = true) {results : List ℕ}
    (hresults : m.getAvailableServers.2 = some results) {i : ℕ} (hi : results.head? = some i) :
    m.available i = true := by
  have hcall := hdo
  simp only [doLeastLoaded, Bool.and_eq_true, decide_eq_true_eq] at hcall
  obtain ⟨⟨hrr, htwo⟩, -⟩ := hcall
  rcases getAvailableServers_spec htwo hrr with ⟨_, heq, -⟩ | ⟨_, _, heq, -, hex, hfirst⟩
  · rw [heq] at hresults
    cases hresults
  · rw [heq] at hresults
    obtain rfl := Option.some_inj.1 hresults
    rw [if_pos hdo] at hfirst
    obtain ⟨-, a, ha, hhead⟩ := hfirst
    obtain ⟨b, hb, hav, -⟩ := leastLoaded_spec hex
    rw [hb, List.mem_singleton] at ha
    rw [hhead, ha] at hi
    rwa [← Option.some_inj.1 hi]

/-- **Capacity.** The arithmetic is right exactly if every server that is queried has a maximum of
    at least `2`, or more sessions in use than its wrapped limit. -/
theorem capacityRight_iff (m : FsMonitor) :
    m.CapacityRight ↔ ∀ fs ∈ m.servers, fs.state = .queryingStatus → fs.Fits := by
  constructor
  · intro h fs hfs hstate
    exact (fits_iff hstate).1 (h.isAvailable fs hfs hstate)
  · intro h
    have hfits : ∀ fs ∈ m.servers, fs.isAvailable = true → fs.Fits :=
      fun fs hfs hav => h fs hfs (state_of_isAvailable hav)
    refine ⟨fun fs hfs hstate => (fits_iff hstate).2 (h fs hfs hstate), ?_, ?_⟩
    · intro a ha b hb hava havb
      exact capacitySorter_iff_room hava havb (hfits a ha hava) (hfits b hb havb)
    · intro hdo results hresults i hi fs hfs
      have hav := available_of_leastLoaded hdo hresults hi
      rw [available, hfs] at hav
      have hmem := List.mem_of_getElem? hfs
      have hlt := ((fits_iff (state_of_isAvailable hav)).2 (hfits fs hmem hav)).1 hav
      omega

/-- A server that allows no session, and has one, is available, with more room than any other. -/
theorem not_capacityRight_full : ¬∀ m : FsMonitor, m.CapacityRight := by
  intro h
  let full : FsInstance :=
    { strAddress := [], nEventSocketPort := 8021, state := .queryingStatus, nCurrentSessions := 1 }
  have hfull := (h { servers := [full] }).isAvailable full List.mem_cons_self rfl
  exact absurd (hfull.1 (by decide)) (by decide)

end FsMonitor

end Ssp
