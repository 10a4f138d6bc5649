import Mathlib.Data.Finset.Erase
import Mathlib.Data.Finset.Insert
import Mathlib.Logic.Function.Basic

/-!
# Flat sets of current values

A table gives every owner its current value, and a flat set is kept beside it to answer
"is this the value of someone?". The set *stands for* the table when it has the values
of the table and no others (`Stands`).

The set does not know whose value is whose. When an owner gets a new value, one value is
taken out of the set and the new one put in; `stands_insert_erase_iff` says exactly when
the set still stands for the table: what is taken out must not be the value of another
owner, and the value the owner had must not be left behind.
-/

namespace Ssp

variable {ι α : Type*} [DecidableEq ι]

/-- The set has the values of the table, and no others. -/
def Stands (S : Finset α) (f : ι → Option α) : Prop := ∀ x, x ∈ S ↔ ∃ i, f i = some x

theorem exists_update_iff {f : ι → Option α} {i : ι} {b x : α} :
    (∃ j, Function.update f i (some b) j = some x) ↔ x = b ∨ ∃ j, j ≠ i ∧ f j = some x := by
  constructor
  · rintro ⟨j, hj⟩
    by_cases hji : j = i
    · subst hji
      rw [Function.update_self] at hj
      exact .inl (Option.some.inj hj).symm
    · rw [Function.update_of_ne hji] at hj
      exact .inr ⟨j, hji, hj⟩
  · rintro (rfl | ⟨j, hji, hj⟩)
    · exact ⟨i, Function.update_self ..⟩
    · exact ⟨j, (Function.update_of_ne hji ..).trans hj⟩

/-- **When the set still stands for the table** after the owner `i`, which had `c`, gets
    `b`, and `a` is taken out of the set. -/
theorem stands_insert_erase_iff [DecidableEq α] {S : Finset α} {f : ι → Option α} (h : Stands S f)
    {i : ι} {a b c : α} (hc : f i = some c) :
    Stands (insert b (S.erase a)) (Function.update f i (some b)) ↔
      (a = b ∨ ∀ j, j ≠ i → f j ≠ some a) ∧ (c = a ∨ c = b ∨ ∃ j, j ≠ i ∧ f j = some c) := by
  -- A value other than `a` and `b` is in the set before and after.
  have hmem (x : α) : x ∈ insert b (S.erase a) ↔ x = b ∨ x ≠ a ∧ ∃ j, f j = some x := by
    rw [Finset.mem_insert, Finset.mem_erase, h x]
  constructor
  · intro h'
    constructor
    · by_contra! hne
      obtain ⟨hab, j, hji, hj⟩ := hne
      have hin := (h' a).2 (exists_update_iff.2 (.inr ⟨j, hji, hj⟩))
      rcases (hmem a).1 hin with hb | ⟨ha, -⟩
      · exact hab hb
      · exact ha rfl
    · by_contra! hne
      obtain ⟨hca, hcb, hother⟩ := hne
      have hin := (hmem c).2 (.inr ⟨hca, i, hc⟩)
      rcases exists_update_iff.1 ((h' c).1 hin) with hb | ⟨j, hji, hj⟩
      · exact hcb hb
      · exact hother j hji hj
  · rintro ⟨hout, hleft⟩ x
    rw [hmem, exists_update_iff]
    by_cases hxb : x = b
    · simp only [hxb, true_or]
    simp only [hxb, false_or]
    constructor
    · rintro ⟨hxa, j, hj⟩
      by_cases hji : j = i
      · subst hji
        obtain rfl := Option.some.inj (hc.symm.trans hj)
        exact (hleft.resolve_left hxa).resolve_left hxb
      · exact ⟨j, hji, hj⟩
    · rintro ⟨j, hji, hj⟩
      refine ⟨?_, j, hj⟩
      rintro rfl
      exact (hout.resolve_left hxb) j hji hj

end Ssp
