import Mathlib.Data.List.Nodup
import Mathlib.Data.List.Pairwise
import Mathlib.Order.Lattice

/-!
# Maps in the order of their keys

The entries of a `std::map`, in the order of iteration: sorted by their keys, with no
key twice.
-/

namespace Ssp

/-- A map from `α` to `β`, with its entries in order. -/
structure OrdMap (α β : Type*) [LinearOrder α] where
  entries : List (α × β)
  sorted : (entries.map Prod.fst).Pairwise (· < ·)

namespace OrdMap

variable {α β : Type*} [LinearOrder α]

def empty : OrdMap α β := ⟨[], List.Pairwise.nil⟩

/-- The keys, in order. -/
def keys (m : OrdMap α β) : List α := m.entries.map Prod.fst

/-- `std::map::find` on the entries. -/
def findEntries (es : List (α × β)) (k : α) : Option β := (es.find? (·.1 = k)).map Prod.snd

/-- `std::map::find`. -/
def find? (m : OrdMap α β) (k : α) : Option β := findEntries m.entries k

/-- `std::map::insert` on the entries: an entry of the same key stays. -/
def insertEntries (k : α) (v : β) : List (α × β) → List (α × β)
  | [] => [(k, v)]
  | e :: es =>
    if k < e.1 then (k, v) :: e :: es
    else if k = e.1 then e :: es
    else e :: insertEntries k v es

theorem mem_keys_insertEntries {k x : α} {v : β} {es : List (α × β)} :
    x ∈ (insertEntries k v es).map Prod.fst ↔ x = k ∨ x ∈ es.map Prod.fst := by
  induction es with
  | nil => simp [insertEntries]
  | cons e es ih =>
    unfold insertEntries
    split_ifs with h₁ h₂
    · simp
    · subst h₂
      simp
    · rw [List.map_cons, List.mem_cons, ih, List.map_cons, List.mem_cons]
      tauto

theorem sorted_insertEntries {k : α} {v : β} {es : List (α × β)}
    (h : (es.map Prod.fst).Pairwise (· < ·)) :
    ((insertEntries k v es).map Prod.fst).Pairwise (· < ·) := by
  induction es with
  | nil => simp [insertEntries]
  | cons e es ih =>
    obtain ⟨he, hes⟩ := List.pairwise_cons.1 h
    unfold insertEntries
    split_ifs with h₁ h₂
    · refine List.pairwise_cons.2 ⟨fun x hx => ?_, h⟩
      rcases List.mem_cons.1 hx with rfl | hx
      · exact h₁
      · exact lt_trans h₁ (he x hx)
    · exact h
    · refine List.pairwise_cons.2 ⟨fun x hx => ?_, ih hes⟩
      rcases mem_keys_insertEntries.1 hx with rfl | hx
      · exact lt_of_le_of_ne (not_lt.1 h₁) (Ne.symm h₂)
      · exact he x hx

/-- `std::map::insert`. -/
def insert (m : OrdMap α β) (k : α) (v : β) : OrdMap α β :=
  ⟨insertEntries k v m.entries, sorted_insertEntries m.sorted⟩

theorem mem_keys_insert {m : OrdMap α β} {k x : α} {v : β} :
    x ∈ (m.insert k v).keys ↔ x = k ∨ x ∈ m.keys := mem_keys_insertEntries

/-- Assignment to the value of a key, on the entries. -/
def modifyEntries (k : α) (f : β → β) (es : List (α × β)) : List (α × β) :=
  es.map fun e => if e.1 = k then (e.1, f e.2) else e

theorem keys_modifyEntries (k : α) (f : β → β) (es : List (α × β)) :
    (modifyEntries k f es).map Prod.fst = es.map Prod.fst := by
  rw [modifyEntries, List.map_map]
  refine List.map_congr_left fun e _ => ?_
  simp only [Function.comp_apply]
  split_ifs <;> rfl

/-- Assignment to the value of a key. -/
def modify (m : OrdMap α β) (k : α) (f : β → β) : OrdMap α β :=
  ⟨modifyEntries k f m.entries, keys_modifyEntries k f m.entries ▸ m.sorted⟩

@[simp]
theorem keys_modify (m : OrdMap α β) (k : α) (f : β → β) : (m.modify k f).keys = m.keys :=
  keys_modifyEntries k f m.entries

/-- `std::map::erase`. -/
def erase (m : OrdMap α β) (k : α) : OrdMap α β where
  entries := m.entries.filter (·.1 ≠ k)
  sorted := m.sorted.sublist (List.filter_sublist.map Prod.fst)

theorem nodup_keys (m : OrdMap α β) : m.keys.Nodup := m.sorted.imp ne_of_lt

theorem findEntries_eq_some_iff {es : List (α × β)} (hn : (es.map Prod.fst).Nodup) {k : α} {v : β} :
    findEntries es k = some v ↔ (k, v) ∈ es := by
  induction es with
  | nil => simp [findEntries]
  | cons e es ih =>
    obtain ⟨he, hes⟩ := List.nodup_cons.1 hn
    by_cases h : e.1 = k
    · rw [findEntries, List.find?_cons_of_pos (by simpa using h), Option.map_some, Option.some_inj,
        List.mem_cons]
      constructor
      · rintro rfl
        exact .inl (by rw [← h])
      · rintro (rfl | hmem)
        · rfl
        · exact absurd (List.mem_map.2 ⟨(k, v), hmem, h.symm⟩) he
    · rw [findEntries, List.find?_cons_of_neg (by simpa using h), ← findEntries, ih hes, List.mem_cons]
      refine ⟨.inr, ?_⟩
      rintro (rfl | hmem)
      · exact absurd rfl h
      · exact hmem

theorem find?_eq_some_iff {m : OrdMap α β} {k : α} {v : β} :
    m.find? k = some v ↔ (k, v) ∈ m.entries :=
  findEntries_eq_some_iff m.nodup_keys

theorem mem_keys_of_find? {m : OrdMap α β} {k : α} {v : β} (h : m.find? k = some v) : k ∈ m.keys :=
  List.mem_map.2 ⟨(k, v), find?_eq_some_iff.1 h, rfl⟩

theorem exists_find?_of_mem {m : OrdMap α β} {k : α} (h : k ∈ m.keys) : ∃ v, m.find? k = some v := by
  obtain ⟨⟨k', v⟩, hmem, rfl⟩ := List.mem_map.1 h
  exact ⟨v, find?_eq_some_iff.2 hmem⟩

theorem findEntries_modifyEntries (k x : α) (f : β → β) (es : List (α × β)) :
    findEntries (modifyEntries k f es) x =
      if x = k then (findEntries es x).map f else findEntries es x := by
  induction es with
  | nil => simp [findEntries, modifyEntries]
  | cons e es ih =>
    unfold findEntries modifyEntries at *
    by_cases hx : e.1 = x
    · subst hx
      by_cases hk : e.1 = k <;> simp [hk]
    · rw [List.map_cons, List.find?_cons_of_neg (by split_ifs <;> simpa using hx),
        List.find?_cons_of_neg (by simpa using hx)]
      exact ih

theorem findEntries_cons (e : α × β) (es : List (α × β)) (x : α) :
    findEntries (e :: es) x = if x = e.1 then some e.2 else findEntries es x := by
  unfold findEntries
  split_ifs with h
  · rw [List.find?_cons_of_pos (by simpa using h.symm), Option.map_some]
  · rw [List.find?_cons_of_neg (by simpa using Ne.symm h)]

theorem findEntries_insertEntries {es : List (α × β)} (h : (es.map Prod.fst).Pairwise (· < ·))
    (k x : α) (v : β) : findEntries (insertEntries k v es) x =
      if x = k then some ((findEntries es k).getD v) else findEntries es x := by
  induction es with
  | nil => exact findEntries_cons _ _ _
  | cons e es ih =>
    obtain ⟨he, hes⟩ := List.pairwise_cons.1 h
    unfold insertEntries
    by_cases h₁ : k < e.1
    · -- All keys are above the new one.
      have hnone : findEntries (e :: es) k = none := by
        rw [findEntries, Option.map_eq_none_iff, List.find?_eq_none]
        intro y hy
        rcases List.mem_cons.1 hy with rfl | hy
        · simpa using ne_of_gt h₁
        · simpa using ne_of_gt (lt_trans h₁ (he y.1 (List.mem_map_of_mem hy)))
      rw [if_pos h₁, findEntries_cons, hnone, Option.getD_none]
    · rw [if_neg h₁]
      by_cases h₂ : k = e.1
      · rw [if_pos h₂, findEntries_cons, findEntries_cons, if_pos h₂, Option.getD_some, h₂]
        split_ifs <;> rfl
      · rw [if_neg h₂, findEntries_cons, ih hes, findEntries_cons, findEntries_cons, if_neg h₂]
        by_cases h₃ : x = k
        · rw [if_neg (h₃ ▸ h₂), if_pos h₃, if_pos h₃]
        · rw [if_neg h₃, if_neg h₃]

/-- An entry of the same key stays. -/
theorem find?_insert (m : OrdMap α β) (k x : α) (v : β) :
    (m.insert k v).find? x = if x = k then some ((m.find? k).getD v) else m.find? x :=
  findEntries_insertEntries m.sorted k x v

theorem find?_erase (m : OrdMap α β) (k x : α) :
    (m.erase k).find? x = if x = k then none else m.find? x := by
  refine Option.ext fun v => ?_
  rw [find?_eq_some_iff, erase, List.mem_filter, decide_eq_true_iff]
  split_ifs with h
  · exact iff_of_false (fun hmem => hmem.2 h) not_false
  · rw [find?_eq_some_iff]
    exact and_iff_left h

theorem find?_modify (m : OrdMap α β) (k x : α) (f : β → β) :
    (m.modify k f).find? x = if x = k then (m.find? x).map f else m.find? x :=
  findEntries_modifyEntries k x f m.entries

end OrdMap

end Ssp
