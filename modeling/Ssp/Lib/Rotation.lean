import Mathlib.Data.List.Nodup
import Mathlib.Data.List.Range
import Mathlib.Data.List.Rotate
import Mathlib.Data.Nat.ModEq
import Mathlib.Logic.Function.Iterate

/-!
# Weighted rotations

A rotation gives out the positions `0, …, size - 1` in turn, each as many times as
its weight says before it goes on to the next one. A position of weight `0` is given
out once when it is its turn, like one of weight `1`.

`nodup_given_iff` says when the positions given out by calls in a row are all
different. Where no weight is `0`, a rotation reads its `schedule` around and around
(`given_eq_readAround`).
-/

namespace Ssp

/-! ## Reading a list around and around -/

section ReadAround

variable {α β : Type*}

/-- `k` entries of a list, from position `s` on and around its end. -/
def readAround (l : List α) : ℕ → ℕ → List α
  | _, 0 => []
  | s, k + 1 => l[s % l.length]?.toList ++ readAround l (s + 1) k

variable {l : List α}

theorem readAround_cons (s k : ℕ) {a : α} (h : l[s % l.length]? = some a) :
    readAround l s (k + 1) = a :: readAround l (s + 1) k := by
  rw [readAround, h]
  rfl

theorem exists_readAround_cons (hl : l ≠ []) (s : ℕ) : ∃ a, l[s % l.length]? = some a :=
  ⟨_, List.getElem?_eq_getElem (Nat.mod_lt s (List.length_pos_of_ne_nil hl))⟩

@[simp]
theorem length_readAround (hl : l ≠ []) (s k : ℕ) : (readAround l s k).length = k := by
  induction k generalizing s with
  | zero => rfl
  | succ k ih =>
    obtain ⟨a, ha⟩ := exists_readAround_cons hl s
    rw [readAround_cons s k ha, List.length_cons, ih]

theorem mem_of_mem_readAround {s k : ℕ} {a : α} (h : a ∈ readAround l s k) : a ∈ l := by
  induction k generalizing s with
  | zero => cases h
  | succ k ih =>
    refine (List.mem_append.1 h).elim (fun hfirst => ?_) ih
    exact List.mem_of_getElem? (Option.mem_toList.1 hfirst)

theorem getElem?_readAround (hl : l ≠ []) (s : ℕ) {i k : ℕ} (hi : i < k) :
    (readAround l s k)[i]? = l[(s + i) % l.length]? := by
  induction k generalizing s i with
  | zero => omega
  | succ k ih =>
    obtain ⟨a, ha⟩ := exists_readAround_cons hl s
    rw [readAround_cons s k ha]
    cases i with
    | zero => exact ha.symm
    | succ i => rw [List.getElem?_cons_succ, ih (s + 1) (by omega), Nat.add_right_comm, Nat.add_assoc]

theorem readAround_add (s j k : ℕ) :
    readAround l s (j + k) = readAround l s j ++ readAround l (s + j) k := by
  induction j generalizing s with
  | zero => simp [readAround]
  | succ j ih => rw [Nat.succ_add, readAround, ih, readAround, List.append_assoc, Nat.succ_add_eq_add_succ]

/-- Only the position in the list matters. -/
theorem readAround_congr {s s' : ℕ} (h : s ≡ s' [MOD l.length]) (k : ℕ) :
    readAround l s k = readAround l s' k := by
  induction k generalizing s s' with
  | zero => rfl
  | succ k ih => rw [readAround, readAround, show s % l.length = s' % l.length from h, ih (h.add_right 1)]

theorem readAround_map (f : α → β) (s k : ℕ) :
    readAround (l.map f) s k = (readAround l s k).map f := by
  induction k generalizing s with
  | zero => rfl
  | succ k ih =>
    rw [readAround, readAround, List.map_append, ih, List.length_map, List.getElem?_map,
      Option.toList_map]

/-- Once around. -/
theorem readAround_length_perm (l : List α) (s : ℕ) : (readAround l s l.length).Perm l := by
  by_cases hl : l = []
  · subst hl
    exact List.Perm.refl _
  · have hrotate : readAround l s l.length = l.rotate s := by
      refine List.ext_getElem? fun i => ?_
      by_cases hi : i < l.length
      · rw [getElem?_readAround hl s hi, List.getElem?_rotate hi, Nat.add_comm]
      · rw [List.getElem?_eq_none (by simpa [hl] using hi), List.getElem?_eq_none (by simpa using hi)]
    rw [hrotate]
    exact l.rotate_perm s

/-- `m` times around. -/
theorem readAround_mul_perm (l : List α) (s m : ℕ) :
    (readAround l s (m * l.length)).Perm (List.replicate m l).flatten := by
  induction m generalizing s with
  | zero => simp [readAround]
  | succ m ih =>
    rw [Nat.succ_mul, Nat.add_comm, readAround_add, List.replicate_succ, List.flatten_cons]
    exact (readAround_length_perm l s).append (ih _)

end ReadAround

/-! ## Rotations -/

/-- A rotation: the position it is at, and how often that was given out. -/
@[ext]
structure Rotation where
  size : ℕ
  weight : ℕ → ℕ
  pos : ℕ
  used : ℕ
  pos_lt : pos < size
  used_le : used ≤ weight pos

namespace Rotation

variable (r : Rotation)

/-- The position was given out as often as its weight says. -/
def Spent : Prop := r.used = r.weight r.pos

instance : Decidable r.Spent := inferInstanceAs (Decidable (r.used = r.weight r.pos))

theorem mod_size_lt (i : ℕ) : i % r.size < r.size :=
  Nat.mod_lt i (Nat.zero_lt_of_lt r.pos_lt)

/-- The position that is given out next. -/
def first : ℕ := if r.Spent then (r.pos + 1) % r.size else r.pos

/-- After giving out `first`. -/
def next : Rotation :=
  if h : r.Spent then
    { r with pos := (r.pos + 1) % r.size, used := min 1 (r.weight ((r.pos + 1) % r.size))
             pos_lt := r.mod_size_lt _, used_le := min_le_right _ _ }
  else { r with used := r.used + 1, used_le := Nat.lt_of_le_of_ne r.used_le h }

/-- The positions given out by `k` calls. -/
def given : Rotation → ℕ → List ℕ
  | _, 0 => []
  | r, k + 1 => r.first :: given r.next k

@[simp]
theorem next_size : r.next.size = r.size := by
  unfold next
  split <;> rfl

@[simp]
theorem next_weight : r.next.weight = r.weight := by
  unfold next
  split <;> rfl

@[simp]
theorem next_pos : r.next.pos = r.first := by
  unfold next first
  split <;> simp_all

theorem next_used : r.next.used = if r.Spent then min 1 (r.weight r.first) else r.used + 1 := by
  unfold next first
  split <;> simp_all

/-- A position that is its turn is spent at once if its weight is at most `1`. -/
theorem next_spent_iff :
    r.next.Spent ↔ if r.Spent then r.weight r.first ≤ 1 else r.used + 1 = r.weight r.pos := by
  rw [Spent, next_used, next_weight, next_pos]
  by_cases h : r.Spent
  · rw [if_pos h, if_pos h]
    omega
  · rw [if_neg h, if_neg h, first, if_neg h]

@[simp]
theorem length_given (k : ℕ) : (r.given k).length = k := by
  induction k generalizing r with
  | zero => rfl
  | succ k ih => rw [given, List.length_cons, ih]

@[simp]
theorem iterate_next_size (i : ℕ) : (next^[i] r).size = r.size := by
  induction i generalizing r with
  | zero => rfl
  | succ i ih => rw [Function.iterate_succ_apply, ih, next_size]

@[simp]
theorem iterate_next_weight (i : ℕ) : (next^[i] r).weight = r.weight := by
  induction i generalizing r with
  | zero => rfl
  | succ i ih => rw [Function.iterate_succ_apply, ih, next_weight]

theorem given_eq_map (k : ℕ) : r.given k = (List.range k).map fun i => (next^[i] r).first := by
  induction k generalizing r with
  | zero => rfl
  | succ k ih =>
    rw [given, ih, List.range_succ_eq_map, List.map_cons, List.map_map]
    rfl

/-- As long as every position is spent after it was given out, the next one follows. -/
theorem iterate_first_of_spent {i : ℕ} (h : ∀ j < i, (next^[j + 1] r).Spent) :
    (next^[i] r).first = (r.first + i) % r.size := by
  induction i with
  | zero =>
    rw [Function.iterate_zero_apply, Nat.add_zero, ← next_pos, Nat.mod_eq_of_lt]
    simpa using r.next.pos_lt
  | succ i ih =>
    have hi := ih fun j hj => h j (by omega)
    have hs : (next^[i + 1] r).Spent := h i (by omega)
    rw [first, if_pos hs, iterate_next_size, Function.iterate_succ_apply', next_pos, hi,
      Nat.mod_add_mod, Nat.add_assoc]

/-- Whether a position is spent after it was given out, in terms of its weight. -/
theorem iterate_spent_iff {i : ℕ} (h : ∀ j < i + 1, (next^[j + 1] r).Spent) :
    (next^[i + 2] r).Spent ↔ r.weight ((r.first + (i + 1)) % r.size) ≤ 1 := by
  have hs : (next^[i + 1] r).Spent := h i (by omega)
  rw [Function.iterate_succ_apply', next_spent_iff, if_pos hs, iterate_next_weight,
    r.iterate_first_of_spent fun j hj => h j hj]

/-- `k` calls give out different positions: there are that many, the first one is
    given out for the last time, and the ones in between have a weight of at most
    `1`. -/
def FreshFor (k : ℕ) : Prop :=
  k ≤ r.size ∧
    (1 < k → if r.Spent then r.weight r.first ≤ 1 else r.used + 1 = r.weight r.pos) ∧
    ∀ i, 1 ≤ i → i + 1 < k → r.weight ((r.first + i) % r.size) ≤ 1

instance (k : ℕ) : Decidable (r.FreshFor k) :=
  decidable_of_iff (k ≤ r.size ∧
      (1 < k → if r.Spent then r.weight r.first ≤ 1 else r.used + 1 = r.weight r.pos) ∧
      ∀ i < k, 1 ≤ i → i + 1 < k → r.weight ((r.first + i) % r.size) ≤ 1)
    (and_congr_right fun _ => and_congr_right fun _ =>
      ⟨fun h i h₁ h₂ => h i (by omega) h₁ h₂, fun h i _ h₁ h₂ => h i h₁ h₂⟩)

theorem spent_iff_freshFor (k : ℕ) :
    (∀ i, i + 1 < k → (next^[i + 1] r).Spent) ↔
      (1 < k → if r.Spent then r.weight r.first ≤ 1 else r.used + 1 = r.weight r.pos) ∧
        ∀ i, 1 ≤ i → i + 1 < k → r.weight ((r.first + i) % r.size) ≤ 1 := by
  constructor
  · intro h
    refine ⟨fun hk => (next_spent_iff r).1 (h 0 hk), fun i hi hk => ?_⟩
    obtain ⟨i, rfl⟩ := Nat.exists_eq_add_of_le' hi
    exact (r.iterate_spent_iff fun j hj => h j (by omega)).1 (h (i + 1) hk)
  · rintro ⟨h₁, h₂⟩ i
    -- Each position is spent because the ones before it are.
    induction i using Nat.strong_induction_on with
    | _ i ih =>
      intro hk
      cases i with
      | zero => exact (next_spent_iff r).2 (h₁ hk)
      | succ i =>
        exact (r.iterate_spent_iff fun j hj => ih j (by omega) (by omega)).2 (h₂ (i + 1) (by omega) hk)

/-- **Different positions.** -/
theorem nodup_given_iff (k : ℕ) : (r.given k).Nodup ↔ r.FreshFor k := by
  rw [FreshFor, ← spent_iff_freshFor, given_eq_map, List.nodup_map_iff_inj_on List.nodup_range]
  simp only [List.mem_range]
  constructor
  · intro h
    have hspent : ∀ i, i + 1 < k → (next^[i + 1] r).Spent := by
      intro i hi
      by_contra hne
      -- The position would be given out again.
      have heq : (next^[i] r).first = (next^[i + 1] r).first := by
        conv_rhs => rw [first, if_neg hne]
        rw [Function.iterate_succ_apply', next_pos]
      have := h i (by omega) (i + 1) hi heq
      omega
    refine ⟨?_, hspent⟩
    by_contra hk
    have heq : (next^[0] r).first = (next^[r.size] r).first := by
      rw [r.iterate_first_of_spent fun j hj => hspent j (by omega),
        r.iterate_first_of_spent fun j hj => hspent j (by omega)]
      simp
    have := h 0 (by omega) r.size (by omega) heq
    have := r.pos_lt
    omega
  · rintro ⟨hk, hspent⟩ i hi j hj heq
    rw [r.iterate_first_of_spent fun l hl => hspent l (by omega),
      r.iterate_first_of_spent fun l hl => hspent l (by omega)] at heq
    have hmod : i % r.size = j % r.size := Nat.ModEq.add_left_cancel' r.first heq
    rwa [Nat.mod_eq_of_lt (by omega), Nat.mod_eq_of_lt (by omega)] at hmod

/-! ### Every position has its turn -/

/-- A position is given out until it is spent. -/
theorem exists_spent (r : Rotation) : ∃ k, (next^[k] r).Spent ∧ (next^[k] r).pos = r.pos := by
  generalize hleft : r.weight r.pos - r.used = left
  induction left generalizing r with
  | zero => exact ⟨0, Nat.le_antisymm r.used_le (Nat.le_of_sub_eq_zero hleft), rfl⟩
  | succ left ih =>
    have hs : ¬r.Spent := fun hs => by rw [show r.used = r.weight r.pos from hs, Nat.sub_self] at hleft; omega
    have hpos : r.next.pos = r.pos := by rw [next_pos, first, if_neg hs]
    have hused : r.next.used = r.used + 1 := by rw [next_used, if_neg hs]
    obtain ⟨k, hspent, hk⟩ := ih r.next (by rw [next_weight, hpos, hused]; omega)
    exact ⟨k + 1, hspent, hk.trans hpos⟩

/-- After a position, the next one is given out some time. -/
theorem exists_iterate_first_add (r : Rotation) (n : ℕ) : ∃ k, (next^[k] r).first = (r.first + n) % r.size := by
  induction n with
  | zero =>
    have hlt := r.next.pos_lt
    rw [next_pos, next_size] at hlt
    exact ⟨0, (Nat.mod_eq_of_lt hlt).symm⟩
  | succ n ih =>
    obtain ⟨k, hk⟩ := ih
    obtain ⟨l, hspent, hl⟩ := exists_spent (next^[k + 1] r)
    refine ⟨l + (k + 1), ?_⟩
    rw [Function.iterate_add_apply, first, if_pos hspent, hl, iterate_next_size, iterate_next_size,
      Function.iterate_succ_apply', next_pos, hk, Nat.mod_add_mod, Nat.add_assoc]

/-- **Every position is given out**, whatever its weight. -/
theorem exists_mem_given (r : Rotation) {i : ℕ} (hi : i < r.size) : ∃ k, i ∈ r.given k := by
  obtain ⟨k, hk⟩ := r.exists_iterate_first_add (i + r.size - r.first % r.size)
  have hmod : (r.first + (i + r.size - r.first % r.size)) % r.size = i := by
    have hlt := r.mod_size_lt r.first
    have hdiv := Nat.mod_add_div r.first r.size
    have heq : r.first + (i + r.size - r.first % r.size) = i + r.size * (r.first / r.size + 1) := by
      rw [Nat.mul_add, Nat.mul_one]
      omega
    rw [heq, Nat.add_mul_mod_self_left, Nat.mod_eq_of_lt hi]
  refine ⟨k + 1, ?_⟩
  rw [given_eq_map]
  exact List.mem_map.2 ⟨k, List.mem_range.2 (Nat.lt_succ_self k), hk.trans hmod⟩

/-! ### The schedule -/

/-- The first `n` positions, each as often in a row as its weight says. -/
def scheduleTo (n : ℕ) : List ℕ := (List.range n).flatMap fun i => List.replicate (r.weight i) i

/-- All positions, each as often in a row as its weight says. -/
def schedule : List ℕ := r.scheduleTo r.size

/-- Where in the schedule the rotation is. -/
def phase : ℕ := (r.scheduleTo r.pos).length + r.used

theorem scheduleTo_succ (n : ℕ) :
    r.scheduleTo (n + 1) = r.scheduleTo n ++ List.replicate (r.weight n) n := by
  simp [scheduleTo, List.range_succ]

theorem length_scheduleTo_succ (n : ℕ) :
    (r.scheduleTo (n + 1)).length = (r.scheduleTo n).length + r.weight n := by
  rw [scheduleTo_succ, List.length_append, List.length_replicate]

/-- The entries of a position stand one after the other. -/
theorem getElem?_scheduleTo {i j n : ℕ} (hi : i < n) (hj : j < r.weight i) :
    (r.scheduleTo n)[(r.scheduleTo i).length + j]? = some i := by
  induction n with
  | zero => omega
  | succ n ih =>
    rw [scheduleTo_succ]
    rcases Nat.lt_succ_iff_lt_or_eq.1 hi with hlt | rfl
    · have hentry := ih hlt
      rw [List.getElem?_append_left (List.getElem?_eq_some_iff.1 hentry).1, hentry]
    · rw [List.getElem?_append_right (by omega), List.getElem?_replicate]
      exact if_pos (by omega)

@[simp]
theorem next_schedule : r.next.schedule = r.schedule := by
  unfold schedule scheduleTo
  rw [next_size, next_weight]

variable {r}

/-- The entry of the schedule at the phase is given out next. -/
theorem getElem?_schedule_phase (hw : ∀ i < r.size, 1 ≤ r.weight i) :
    r.schedule[r.phase % r.schedule.length]? = some r.first := by
  have hpos := r.pos_lt
  have hentry : ∀ {i j : ℕ}, i < r.size → j < r.weight i →
      r.schedule[((r.scheduleTo i).length + j) % r.schedule.length]? = some i := by
    intro i j hi hj
    have h := r.getElem?_scheduleTo hi hj
    rwa [← schedule, ← Nat.mod_eq_of_lt (List.getElem?_eq_some_iff.1 h).1] at h
  unfold phase first
  by_cases hs : r.Spent
  · rw [if_pos hs, show r.used = r.weight r.pos from hs, ← length_scheduleTo_succ]
    rcases Nat.lt_or_eq_of_le (show r.pos + 1 ≤ r.size from hpos) with hlt | heq
    · rw [Nat.mod_eq_of_lt hlt]
      exact hentry hlt (hw _ hlt)
    · -- Around the end.
      rw [heq, Nat.mod_self, ← schedule, Nat.mod_self]
      simpa [scheduleTo] using hentry (by omega) (hw 0 (by omega))
  · rw [if_neg hs]
    exact hentry hpos (Nat.lt_of_le_of_ne r.used_le hs)

theorem next_phase (hw : ∀ i < r.size, 1 ≤ r.weight i) :
    r.next.phase ≡ r.phase + 1 [MOD r.schedule.length] := by
  have hpos := r.pos_lt
  have hto : r.next.scheduleTo = r.scheduleTo := by
    funext n
    rw [scheduleTo, scheduleTo, next_weight]
  unfold phase
  rw [hto, next_pos, next_used]
  by_cases hs : r.Spent
  · have hfirst : r.first = (r.pos + 1) % r.size := if_pos hs
    have hone : min 1 (r.weight r.first) = 1 := by
      have := hw r.first (hfirst ▸ r.mod_size_lt _)
      omega
    rw [if_pos hs, hone, hfirst, show r.used = r.weight r.pos from hs, ← length_scheduleTo_succ]
    rcases Nat.lt_or_eq_of_le (show r.pos + 1 ≤ r.size from hpos) with hlt | heq
    · rw [Nat.mod_eq_of_lt hlt]
    · rw [heq, Nat.mod_self, ← schedule]
      exact (Nat.add_modEq_left (n := r.schedule.length) (a := 1)).symm
  · rw [if_neg hs, first, if_neg hs, Nat.add_assoc]

/-- **A rotation reads its schedule.** -/
theorem given_eq_readAround (hw : ∀ i < r.size, 1 ≤ r.weight i) (k : ℕ) :
    r.given k = readAround r.schedule r.phase k := by
  induction k generalizing r with
  | zero => rfl
  | succ k ih =>
    rw [given, readAround_cons _ k (getElem?_schedule_phase hw), ih (by simpa using hw), next_schedule,
      readAround_congr (next_phase hw)]

end Rotation

end Ssp
