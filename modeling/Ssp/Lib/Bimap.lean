import Mathlib.Data.List.Nodup

/-!
# Bidirectional maps

`boost::bimap`: pairs that can be looked up and erased by either side. No two of them
have the same left side or the same right side, and the insertion of a pair that would
break this does nothing.
-/

namespace Ssp

/-- A one-to-one map between some `α` and some `β`. -/
structure Bimap (α β : Type*) where
  pairs : List (α × β)
  nodup_left : (pairs.map Prod.fst).Nodup
  nodup_right : (pairs.map Prod.snd).Nodup

namespace Bimap

variable {α β : Type*}

instance : Membership (α × β) (Bimap α β) := ⟨fun m p => p ∈ m.pairs⟩

theorem mem_def {m : Bimap α β} {p : α × β} : p ∈ m ↔ p ∈ m.pairs := Iff.rfl

def empty : Bimap α β := ⟨[], List.nodup_nil, List.nodup_nil⟩

@[simp]
theorem not_mem_empty (p : α × β) : p ∉ (empty : Bimap α β) := List.not_mem_nil

theorem left_unique {m : Bimap α β} {a : α} {b b' : β} (h : (a, b) ∈ m) (h' : (a, b') ∈ m) :
    b = b' :=
  congrArg Prod.snd (List.inj_on_of_nodup_map m.nodup_left h h' rfl)

theorem right_unique {m : Bimap α β} {a a' : α} {b : β} (h : (a, b) ∈ m) (h' : (a', b) ∈ m) :
    a = a' :=
  congrArg Prod.fst (List.inj_on_of_nodup_map m.nodup_right h h' rfl)

variable [DecidableEq α] [DecidableEq β]

instance (p : α × β) (m : Bimap α β) : Decidable (p ∈ m) :=
  inferInstanceAs (Decidable (p ∈ m.pairs))

/-! ## Lookup -/

/-- `left.find`. -/
def left? (m : Bimap α β) (a : α) : Option β := (m.pairs.find? (·.1 = a)).map Prod.snd

/-- `right.find`. -/
def right? (m : Bimap α β) (b : β) : Option α := (m.pairs.find? (·.2 = b)).map Prod.fst

omit [DecidableEq β] in
theorem left?_eq_some_iff {m : Bimap α β} {a : α} {b : β} : m.left? a = some b ↔ (a, b) ∈ m := by
  constructor
  · intro h
    obtain ⟨⟨x, y⟩, hf, rfl⟩ := Option.map_eq_some_iff.1 h
    have hx : x = a := by simpa using List.find?_some hf
    exact hx ▸ List.mem_of_find?_eq_some hf
  · intro h
    cases hf : m.pairs.find? (·.1 = a) with
    | none => exact absurd (List.find?_eq_none.1 hf _ h) (by simp)
    | some p =>
      have hp : p.1 = a := by simpa using List.find?_some hf
      have := List.inj_on_of_nodup_map m.nodup_left (List.mem_of_find?_eq_some hf) h hp
      rw [left?, hf, this]
      rfl

omit [DecidableEq α] in
theorem right?_eq_some_iff {m : Bimap α β} {a : α} {b : β} : m.right? b = some a ↔ (a, b) ∈ m := by
  constructor
  · intro h
    obtain ⟨⟨x, y⟩, hf, rfl⟩ := Option.map_eq_some_iff.1 h
    have hy : y = b := by simpa using List.find?_some hf
    exact hy ▸ List.mem_of_find?_eq_some hf
  · intro h
    cases hf : m.pairs.find? (·.2 = b) with
    | none => exact absurd (List.find?_eq_none.1 hf _ h) (by simp)
    | some p =>
      have hp : p.2 = b := by simpa using List.find?_some hf
      have := List.inj_on_of_nodup_map m.nodup_right (List.mem_of_find?_eq_some hf) h hp
      rw [right?, hf, this]
      rfl

omit [DecidableEq β] in
theorem left?_eq_none_iff {m : Bimap α β} {a : α} : m.left? a = none ↔ ∀ b, (a, b) ∉ m := by
  rw [Option.eq_none_iff_forall_not_mem]
  exact forall_congr' fun b => not_congr left?_eq_some_iff

/-! ## Erasing -/

/-- `left.erase`. -/
def eraseLeft (m : Bimap α β) (a : α) : Bimap α β where
  pairs := m.pairs.filter (·.1 ≠ a)
  nodup_left := m.nodup_left.sublist (List.filter_sublist.map _)
  nodup_right := m.nodup_right.sublist (List.filter_sublist.map _)

/-- `right.erase`. -/
def eraseRight (m : Bimap α β) (b : β) : Bimap α β where
  pairs := m.pairs.filter (·.2 ≠ b)
  nodup_left := m.nodup_left.sublist (List.filter_sublist.map _)
  nodup_right := m.nodup_right.sublist (List.filter_sublist.map _)

omit [DecidableEq β] in
@[simp]
theorem mem_eraseLeft {m : Bimap α β} {a : α} {p : α × β} :
    p ∈ m.eraseLeft a ↔ p ∈ m ∧ p.1 ≠ a := by
  simp [mem_def, eraseLeft]

omit [DecidableEq α] in
@[simp]
theorem mem_eraseRight {m : Bimap α β} {b : β} {p : α × β} :
    p ∈ m.eraseRight b ↔ p ∈ m ∧ p.2 ≠ b := by
  simp [mem_def, eraseRight]

/-! ## Insertion -/

/-- `insert`. -/
def insert (m : Bimap α β) (a : α) (b : β) : Bimap α β :=
  if h : a ∉ m.pairs.map Prod.fst ∧ b ∉ m.pairs.map Prod.snd then
    ⟨(a, b) :: m.pairs, List.nodup_cons.2 ⟨h.1, m.nodup_left⟩, List.nodup_cons.2 ⟨h.2, m.nodup_right⟩⟩
  else m

/-- Only the new pair can come in. -/
theorem mem_of_mem_insert {m : Bimap α β} {a : α} {b : β} {p : α × β} (h : p ∈ m.insert a b) :
    p = (a, b) ∨ p ∈ m := by
  unfold insert at h
  split_ifs at h with hnew
  · exact List.mem_cons.1 h
  · exact .inr h

theorem mem_insert_of_mem {m : Bimap α β} {p : α × β} (h : p ∈ m) (a : α) (b : β) : p ∈ m.insert a b := by
  unfold insert
  split_ifs
  · exact List.mem_cons_of_mem _ h
  · exact h

/-- A pair with new sides comes in. -/
theorem mem_insert_of_new {m : Bimap α β} {a : α} {b : β} (ha : ∀ y, (a, y) ∉ m)
    (hb : ∀ x, (x, b) ∉ m) {p : α × β} : p ∈ m.insert a b ↔ p = (a, b) ∨ p ∈ m := by
  have hnew : a ∉ m.pairs.map Prod.fst ∧ b ∉ m.pairs.map Prod.snd := by
    refine ⟨fun h => ?_, fun h => ?_⟩
    · obtain ⟨⟨x, y⟩, hxy, rfl⟩ := List.mem_map.1 h
      exact ha y hxy
    · obtain ⟨⟨x, y⟩, hxy, rfl⟩ := List.mem_map.1 h
      exact hb x hxy
  rw [insert, dif_pos hnew]
  exact List.mem_cons

/-- The right sides, if the left side is new: the pair is refused if the right side is there. -/
theorem exists_mem_insert {m : Bimap α β} {a : α} {b b' : β} (ha : ∀ y, (a, y) ∉ m) :
    (∃ x, (x, b') ∈ m.insert a b) ↔ (∃ x, (x, b') ∈ m) ∨ b' = b := by
  constructor
  · rintro ⟨x, hx⟩
    rcases mem_of_mem_insert hx with heq | hx
    · exact .inr (congrArg Prod.snd heq)
    · exact .inl ⟨x, hx⟩
  · rintro (⟨x, hx⟩ | rfl)
    · exact ⟨x, mem_insert_of_mem hx a b⟩
    · by_cases hb : ∃ x, (x, b') ∈ m
      · obtain ⟨x, hx⟩ := hb
        exact ⟨x, mem_insert_of_mem hx a b'⟩
      · exact ⟨a, (mem_insert_of_new ha (not_exists.1 hb)).2 (.inl rfl)⟩

omit [DecidableEq α] in
theorem exists_mem_eraseRight {m : Bimap α β} {b b' : β} :
    (∃ x, (x, b') ∈ m.eraseRight b) ↔ (∃ x, (x, b') ∈ m) ∧ b' ≠ b := by
  simp only [mem_eraseRight, exists_and_right]

end Bimap

end Ssp
