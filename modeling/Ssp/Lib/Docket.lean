import Mathlib.Logic.Function.Basic
import Mathlib.Data.Nat.Notation
import Mathlib.Tactic.SplitIfs

/-!
# Matters and the reports about them

Matters are opened, each under an identifier that no other one has, and closed. The reports
only say which identifier they are about. A docket has, next to what the code knows, the
identifiers of all matters that were ever opened.

A docket is *settled* if there is exactly one report about each matter that was closed.
`Docket.Step.settled_iff_once`: a step keeps this exactly if it reports what it closes once.
-/

namespace Ssp

/-- Matters `κ` with identifiers `ι`: those opened so far, those still open, and the number
    of reports for each identifier. -/
@[ext]
structure Docket (κ ι : Type*) where
  given : κ → Option ι
  pending : κ → Option ι
  reports : ι → ℕ

namespace Docket

variable {κ ι : Type*}

/-- There is exactly one report about each matter that was closed. -/
def Settled (d : Docket κ ι) : Prop :=
  ∀ k i, d.given k = some i → d.pending k = none → d.reports i = 1

/-- What is open was opened and not reported yet; only what was opened is reported, and the
    identifiers are different. -/
structure Valid (d : Docket κ ι) : Prop where
  given : ∀ k i, d.pending k = some i → d.given k = some i
  unreported : ∀ k i, d.pending k = some i → d.reports i = 0
  known : ∀ i, d.reports i ≠ 0 → ∃ k, d.given k = some i
  distinct : ∀ k k' i, d.given k = some i → d.given k' = some i → k = k'

variable [DecidableEq κ] [DecidableEq ι]

/-- A matter is opened. -/
def enter (d : Docket κ ι) (k : κ) (i : ι) : Docket κ ι :=
  { d with given := Function.update d.given k (some i), pending := Function.update d.pending k (some i) }

/-- The matter `k` with the identifier `i` is closed, with `n` reports. -/
def close (d : Docket κ ι) (k : κ) (i : ι) (n : ℕ) : Docket κ ι :=
  { d with
    pending := Function.update d.pending k none
    reports := Function.update d.reports i (d.reports i + n) }

section

variable (d : Docket κ ι) (k : κ) (i : ι) (n : ℕ)

omit [DecidableEq ι] in
@[simp]
theorem enter_given (k' : κ) : (d.enter k i).given k' = if k' = k then some i else d.given k' :=
  Function.update_apply _ _ _ _

omit [DecidableEq ι] in
@[simp]
theorem enter_pending (k' : κ) : (d.enter k i).pending k' = if k' = k then some i else d.pending k' :=
  Function.update_apply _ _ _ _

omit [DecidableEq ι] in
@[simp]
theorem enter_reports (i' : ι) : (d.enter k i).reports i' = d.reports i' := rfl

@[simp]
theorem close_given (k' : κ) : (d.close k i n).given k' = d.given k' := rfl

@[simp]
theorem close_pending (k' : κ) : (d.close k i n).pending k' = if k' = k then none else d.pending k' :=
  Function.update_apply _ _ _ _

@[simp]
theorem close_reports (i' : ι) :
    (d.close k i n).reports i' = d.reports i' + if i' = i then n else 0 := by
  change Function.update d.reports i _ i' = _
  rw [Function.update_apply]
  split_ifs with heq
  · rw [heq]
  · rfl

end

/-- A step of a docket: a matter is opened or closed, or one takes the place of another.
    `Once` says whether what is closed is reported once. -/
inductive Step (Once : Prop) (d : Docket κ ι) : Docket κ ι → Prop
  | same (h : Once) : Step Once d d
  | opened (k : κ) (i : ι) (h : Once) (hk : d.given k = none) (hi : ∀ k', d.given k' ≠ some i) :
      Step Once d (d.enter k i)
  | closed (k : κ) (i : ι) (n : ℕ) (hk : d.pending k = some i) (h : Once ↔ n = 1) :
      Step Once d (d.close k i n)
  | replaced (k : κ) (i : ι) (n : ℕ) (k' : κ) (i' : ι) (hk : d.pending k = some i) (h : Once ↔ n = 1)
      (hk' : d.given k' = none) (hi' : ∀ k, d.given k ≠ some i') :
      Step Once d ((d.close k i n).enter k' i')

section

variable {Once : Prop} {d d' : Docket κ ι} {k k' : κ} {i : ι} {n : ℕ}

omit [DecidableEq ι] in
theorem Valid.enter (h : d.Valid) (hk : d.given k = none) (hi : ∀ k', d.given k' ≠ some i) :
    (d.enter k i).Valid := by
  refine ⟨fun k' i' hp => ?_, fun k' i' hp => ?_, fun i' hi' => ?_, fun k₁ k₂ i' h₁ h₂ => ?_⟩
  · rw [enter_pending] at hp
    rw [enter_given]
    split_ifs at hp ⊢
    · exact hp
    · exact h.given k' i' hp
  · rw [enter_pending] at hp
    split_ifs at hp
    · -- Nothing was ever reported under a new identifier.
      obtain rfl : i = i' := Option.some_inj.1 hp
      by_contra hne
      obtain ⟨k', hk'⟩ := h.known i hne
      exact hi k' hk'
    · exact h.unreported k' i' hp
  · obtain ⟨k', hk'⟩ := h.known i' hi'
    refine ⟨k', ?_⟩
    rw [enter_given, if_neg]
    · exact hk'
    · rintro rfl
      rw [hk] at hk'
      cases hk'
  · rw [enter_given] at h₁ h₂
    split_ifs at h₁ h₂ with heq₁ heq₂ heq₂
    · exact heq₁.trans heq₂.symm
    · exact absurd (h₂.trans h₁.symm) (hi k₂)
    · exact absurd (h₁.trans h₂.symm) (hi k₁)
    · exact h.distinct k₁ k₂ i' h₁ h₂

theorem Valid.close (h : d.Valid) (hk : d.pending k = some i) (n : ℕ) : (d.close k i n).Valid := by
  refine ⟨fun k' i' hp => ?_, fun k' i' hp => ?_, fun i' hi' => ?_, h.distinct⟩
  · rw [close_pending] at hp
    split_ifs at hp
    exact h.given k' i' hp
  · rw [close_pending] at hp
    split_ifs at hp with hne
    -- Another matter has another identifier.
    have hi : i' ≠ i := by
      rintro rfl
      exact hne (h.distinct k' k i' (h.given k' i' hp) (h.given k i' hk))
    rw [close_reports, if_neg hi, h.unreported k' i' hp]
  · rw [close_reports] at hi'
    by_cases heq : i' = i
    · exact ⟨k, heq ▸ h.given k i hk⟩
    · rw [if_neg heq] at hi'
      exact h.known i' hi'

theorem Step.valid (hstep : Step Once d d') (h : d.Valid) : d'.Valid := by
  cases hstep with
  | same _ => exact h
  | opened k i _ hk hi => exact h.enter hk hi
  | closed k i n hk _ => exact h.close hk n
  | replaced k i n k' i' hk _ hk' hi' => exact (h.close hk n).enter hk' hi'

omit [DecidableEq ι] in
/-- A new matter is open. -/
theorem settled_enter (hk : d.given k = none) : (d.enter k i).Settled ↔ d.Settled := by
  refine forall_congr' fun k' => forall_congr' fun i' => ?_
  by_cases heq : k' = k
  · simp [heq, hk]
  · simp [heq]

theorem Valid.settled_close (h : d.Valid) (hs : d.Settled) (hk : d.pending k = some i) :
    (d.close k i n).Settled ↔ n = 1 := by
  have hgiven := h.given k i hk
  have hself : (d.close k i n).reports i = n := by
    rw [close_reports, if_pos rfl, h.unreported k i hk, Nat.zero_add]
  constructor
  · intro hs'
    rw [← hself]
    exact hs' k i hgiven (Function.update_self _ _ _)
  · rintro rfl k' i' hk' hp'
    by_cases heq : k' = k
    · subst heq
      obtain rfl : i = i' := Option.some_inj.1 (hgiven.symm.trans hk')
      exact hself
    · have hi : i' ≠ i := by
        rintro rfl
        exact heq (h.distinct k' k i' hk' hgiven)
      rw [close_pending, if_neg heq] at hp'
      rw [close_reports, if_neg hi]
      exact hs k' i' hk' hp'

/-- **A step keeps the docket settled exactly if it reports what it closes once.** -/
theorem Step.settled_iff_once (hstep : Step Once d d') (h : d.Valid) (hs : d.Settled) :
    d'.Settled ↔ Once := by
  cases hstep with
  | same honce => exact iff_of_true hs honce
  | opened k i honce hk _ => exact iff_of_true ((settled_enter hk).2 hs) honce
  | closed k i n hk honce => exact (h.settled_close hs hk).trans honce.symm
  | replaced k i n k' i' hk honce hk' _ =>
    exact ((settled_enter (d := d.close k i n) hk').trans (h.settled_close hs hk)).trans honce.symm

end

end Docket

end Ssp
