import Mathlib.Data.List.Nodup
import Mathlib.Data.List.Perm.Basic

/-!
# Hash tables

The elements of a `boost::unordered_set` or `unordered_map`. A table has no two elements of the
same key, and an element whose key is there already is not inserted, although it may differ
in the rest: what goes in is the first element with its key (`mem_insertAll_iff`).

The elements are listed as they came in. A table is iterated over in any order, that is, by
any permutation of its elements.
-/

namespace Ssp

variable {α κ : Type*} [DecidableEq κ]

/-- A table of elements with different keys. -/
structure KeyedSet (key : α → κ) where
  elems : List α := []
  nodup : (elems.map key).Nodup := by exact List.nodup_nil

namespace KeyedSet

variable {key : α → κ} {s : KeyedSet key} {x y : α} {k : κ}

/-- The element with a key. -/
def find? (s : KeyedSet key) (k : κ) : Option α := s.elems.find? fun x => key x = k

theorem mem_keys_iff : k ∈ s.elems.map key ↔ (s.find? k).isSome := by
  rw [find?, List.find?_isSome, List.mem_map]
  simp only [decide_eq_true_eq]

/-- An insertion that tells whether the element was inserted. -/
def insertNew (s : KeyedSet key) (x : α) : Option (KeyedSet key) :=
  if h : key x ∈ s.elems.map key then none
  else
    some
      { elems := s.elems ++ [x]
        nodup := by
          rw [List.map_append, List.map_singleton, ← List.concat_eq_append]
          exact s.nodup.concat h }

def insert (s : KeyedSet key) (x : α) : KeyedSet key := (s.insertNew x).getD s

theorem insertNew_eq_some_iff {s' : KeyedSet key} :
    s.insertNew x = some s' ↔ key x ∉ s.elems.map key ∧ s'.elems = s.elems ++ [x] := by
  unfold insertNew
  split_ifs with h
  · exact iff_of_false not_false fun hs => hs.1 h
  · rw [and_iff_right h, Option.some_inj]
    exact ⟨fun heq => heq ▸ rfl, fun helems => by cases s'; cases helems; rfl⟩

/-- An insertion puts an element behind the others, where a search finds it last. -/
theorem find?_insert (s : KeyedSet key) (x : α) (k : κ) :
    (s.insert x).find? k = (s.elems ++ [x]).find? fun y => key y = k := by
  unfold insert insertNew
  split_ifs with h
  · rw [Option.getD_none, List.find?_append]
    cases hs : s.find? k with
    | some y => rw [show s.elems.find? _ = some y from hs, Option.some_or]
    | none =>
      -- The element in the table has another key.
      have hne : key x ≠ k := by
        rintro rfl
        rw [mem_keys_iff, hs] at h
        exact Bool.false_ne_true h
      rw [show s.elems.find? _ = none from hs, Option.none_or]
      exact (List.find?_eq_none.2 (by simpa using hne)).symm
  · rfl

/-- All insertions, one after the other. -/
def insertAll (s : KeyedSet key) (xs : List α) : KeyedSet key := xs.foldl insert s

theorem find?_insertAll (s : KeyedSet key) (xs : List α) (k : κ) :
    (s.insertAll xs).find? k = (s.elems ++ xs).find? fun y => key y = k := by
  induction xs generalizing s with
  | nil => rw [List.append_nil]; rfl
  | cons x xs ih =>
    rw [insertAll, List.foldl_cons, ← insertAll, ih, List.find?_append, ← find?, find?_insert,
      ← List.find?_append, List.append_assoc, List.singleton_append]

theorem mem_elems_iff : x ∈ s.elems ↔ s.find? (key x) = some x := by
  constructor
  · intro hx
    obtain ⟨y, hy⟩ := Option.isSome_iff_exists.1 (mem_keys_iff.1 (List.mem_map_of_mem hx))
    have hkey : key y = key x := by simpa using List.find?_some hy
    rw [hy, List.inj_on_of_nodup_map s.nodup (List.mem_of_find?_eq_some hy) hx hkey]
  · exact List.mem_of_find?_eq_some

/-- **What is in a table**: the first of the elements with its key. -/
theorem mem_insertAll_iff {xs : List α} :
    x ∈ (insertAll ({} : KeyedSet key) xs).elems ↔ xs.find? (fun y => key y = key x) = some x := by
  rw [mem_elems_iff, find?_insertAll]
  rfl

end KeyedSet

end Ssp
