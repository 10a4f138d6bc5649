import Mathlib.Algebra.Ring.Nat
import Mathlib.Data.List.Basic

/-!
# Tokens

The tokens of a list over a set of separators are its maximal non-empty runs of
elements that are not separators (adjacent separators make no empty token).

What matters for a stream read in pieces is how the tokens of a concatenation
come from those of its parts (`tokens_append_cases`): either the two lists of
tokens are put one after the other, or the last token of the first part and the
first token of the second are two halves of one.

`terminate x` writes tokens back, each followed by `x`. Writing back drops
adjacent separators and adds a missing last one, so it gives the list back only
when there was nothing of either (`length_terminate_tokens_le`,
`head_terminate_tokens`).
-/

namespace Ssp

variable {α : Type*} {sep : α → Bool}

/-- The maximal non-empty runs of non-separators. -/
def tokens (sep : α → Bool) (l : List α) : List (List α) :=
  (l.splitOnP sep).filter fun t => !t.isEmpty

@[simp]
theorem tokens_nil : tokens sep [] = [] := rfl

/-- A separator splits the tokens. -/
theorem tokens_append_cons {x : α} (hx : sep x = true) (u v : List α) :
    tokens sep (u ++ x :: v) = tokens sep u ++ tokens sep v := by
  rw [tokens, List.splitOnP_append_cons u v hx, List.filter_append]
  rfl

theorem tokens_cons_of_sep {x : α} (hx : sep x = true) (l : List α) :
    tokens sep (x :: l) = tokens sep l :=
  tokens_append_cons hx [] l

/-- A non-empty run without separators is its own only token. -/
theorem tokens_of_forall {l : List α} (hl : l ≠ []) (h : ∀ x ∈ l, sep x = false) :
    tokens sep l = [l] := by
  rw [tokens, List.splitOnP_eq_singleton h]
  simp [hl]

/-- A non-separator before a separator, or before nothing, is a token. -/
theorem tokens_cons_of_head_sep {x : α} (hx : sep x = false) {l : List α}
    (hl : ∀ y ∈ l.head?, sep y = true) : tokens sep (x :: l) = [x] :: tokens sep l := by
  cases l with
  | nil => exact tokens_of_forall (by simp) (by simpa using hx)
  | cons y l =>
    have hy : sep y = true := hl y rfl
    rw [← List.singleton_append, tokens_append_cons hy, tokens_cons_of_sep hy,
      tokens_of_forall (by simp) (by simpa using hx)]
    rfl

/-- A non-separator before another one is the beginning of the same token. -/
theorem tokens_cons_cons {x y : α} (hx : sep x = false) (hy : sep y = false) (l : List α) :
    ∃ t ts, tokens sep (y :: l) = t :: ts ∧ tokens sep (x :: y :: l) = (x :: t) :: ts := by
  obtain ⟨w, ws, hw⟩ := List.exists_cons_of_ne_nil (List.splitOnP_ne_nil sep l)
  refine ⟨y :: w, ws.filter fun t => !t.isEmpty, ?_, ?_⟩ <;>
    simp [tokens, List.splitOnP_cons_eq_if_modifyHead, hx, hy, hw]

/-- A token is non-empty and without separators. -/
theorem tokens_mem {l t : List α} (ht : t ∈ tokens sep l) :
    t ≠ [] ∧ ∀ x ∈ t, sep x = false := by
  induction l generalizing t with
  | nil => simp at ht
  | cons x l ih =>
    cases hx : sep x with
    | true => exact ih (tokens_cons_of_sep hx l ▸ ht)
    | false =>
      by_cases hl : ∀ y ∈ l.head?, sep y = true
      · rw [tokens_cons_of_head_sep hx hl] at ht
        rcases List.mem_cons.1 ht with rfl | ht
        · exact ⟨by simp, by simpa using hx⟩
        · exact ih ht
      · obtain ⟨y, l, rfl⟩ : ∃ y l', l = y :: l' := by cases l <;> simp_all
        have hy : sep y = false := by simpa using hl
        obtain ⟨w, ws, hw, hxw⟩ := tokens_cons_cons hx hy l
        rw [hxw] at ht
        rcases List.mem_cons.1 ht with rfl | ht
        · refine ⟨by simp, fun z hz => ?_⟩
          rcases List.mem_cons.1 hz with rfl | hz
          · exact hx
          · exact (ih (hw ▸ List.mem_cons_self)).2 z hz
        · exact ih (hw ▸ List.mem_cons_of_mem _ ht)

/-! ## Tokens and separators -/

theorem length_tokens_le_one {l : List α} (h : ∀ x ∈ l, sep x = false) : (tokens sep l).length ≤ 1 := by
  by_cases hl : l = []
  · simp [hl]
  · rw [tokens_of_forall hl h, List.length_singleton]

/-- There is at most one token before, between and after the separators. -/
theorem length_tokens_le (sep : α → Bool) (l : List α) : (tokens sep l).length ≤ (l.filter sep).length + 1 := by
  generalize hseps : l.filter sep = seps
  induction seps generalizing l with
  | nil => exact length_tokens_le_one (by simpa using hseps)
  | cons x seps ih =>
    obtain ⟨u, v, rfl, hu, hx, hv⟩ := List.filter_eq_cons_iff.1 hseps
    have hone : (tokens sep u).length ≤ 1 := length_tokens_le_one (by simpa using hu)
    have hrest := ih v hv
    rw [tokens_append_cons hx, List.length_append, List.length_cons]
    omega

/-- If no place is without a token, then the first one is before the first separator. -/
theorem exists_token_of_length {l : List α} {x : α} {seps : List α} (hseps : l.filter sep = x :: seps)
    (hlength : (tokens sep l).length = seps.length + 2) :
    ∃ u v, l = u ++ x :: v ∧ u ≠ [] ∧ (∀ y ∈ u, sep y = false) ∧ v.filter sep = seps ∧
      (tokens sep v).length = seps.length + 1 := by
  obtain ⟨u, v, rfl, hu, hx, hv⟩ := List.filter_eq_cons_iff.1 hseps
  replace hu : ∀ y ∈ u, sep y = false := by simpa using hu
  have hrest := length_tokens_le sep v
  rw [hv] at hrest
  rw [tokens_append_cons hx, List.length_append] at hlength
  have hone := length_tokens_le_one hu
  refine ⟨u, v, rfl, ?_, hu, hv, by omega⟩
  rintro rfl
  rw [tokens_nil, List.length_nil] at hlength
  omega

/-! ## Concatenation -/

/-- The tokens of a concatenation: those of the parts, or, where the cut is in the
    middle of a token, with its two halves put together. -/
theorem tokens_append_cases (sep : α → Bool) (u v : List α) :
    (tokens sep (u ++ v) = tokens sep u ++ tokens sep v ∧
        ((∀ x ∈ u.getLast?, sep x = true) ∨ ∀ x ∈ v.head?, sep x = true)) ∨
      ∃ ts w z zs, tokens sep u = ts ++ [w] ∧ tokens sep v = z :: zs ∧
        tokens sep (u ++ v) = ts ++ (w ++ z) :: zs ∧ (∃ x ∈ u.getLast?, sep x = false) ∧
        ∃ x ∈ v.head?, sep x = false := by
  induction u with
  | nil => exact .inl ⟨rfl, .inl (by simp)⟩
  | cons x u ih =>
    cases hx : sep x with
    | true =>
      rw [List.cons_append, tokens_cons_of_sep hx, tokens_cons_of_sep hx]
      cases u with
      | nil => exact .inl ⟨rfl, .inl (by simpa using hx)⟩
      | cons y u => rwa [List.getLast?_cons_cons]
    | false =>
      cases u with
      | nil =>
        cases v with
        | nil => exact .inl ⟨by simp, .inr (by simp)⟩
        | cons y v =>
          cases hy : sep y with
          | true =>
            refine .inl ⟨?_, .inr (by simpa using hy)⟩
            rw [tokens_of_forall (l := [x]) (by simp) (by simpa using hx)]
            exact tokens_cons_of_head_sep hx (by simpa using hy)
          | false =>
            obtain ⟨t, ts, ht, hxt⟩ := tokens_cons_cons hx hy v
            exact .inr ⟨[], [x], t, ts, tokens_of_forall (by simp) (by simpa using hx), ht, hxt,
              by simpa using hx, by simpa using hy⟩
      | cons y u =>
        rw [List.getLast?_cons_cons]
        cases hy : sep y with
        | true =>
          -- `x` is a token of its own, on both sides.
          rw [List.cons_append, tokens_cons_of_head_sep (l := y :: u) hx (by simpa using hy),
            tokens_cons_of_head_sep (l := y :: u ++ v) hx (by simpa using hy)]
          rcases ih with ⟨h, hc⟩ | ⟨ts, w, z, zs, h₁, h₂, h₃, hc⟩
          · exact .inl ⟨by rw [h, List.cons_append], hc⟩
          · exact .inr ⟨[x] :: ts, w, z, zs, by rw [h₁, List.cons_append], h₂,
              by rw [h₃, List.cons_append], hc⟩
        | false =>
          -- `x` begins the first token, on both sides.
          obtain ⟨t, ts, ht, hxt⟩ := tokens_cons_cons hx hy u
          obtain ⟨t', ts', ht', hxt'⟩ := tokens_cons_cons hx hy (u ++ v)
          rw [List.cons_append, List.cons_append, hxt, hxt']
          rw [List.cons_append, ht, ht'] at ih
          rcases ih with ⟨h, hc⟩ | ⟨us, w, z, zs, h₁, h₂, h₃, hc⟩
          · obtain ⟨rfl, rfl⟩ := List.cons_eq_cons.1 h
            exact .inl ⟨by simp, hc⟩
          · cases us with
            | nil =>
              rw [List.nil_append, List.cons.injEq] at h₁ h₃
              exact .inr ⟨[], x :: w, z, zs, by rw [h₁.1, h₁.2, List.nil_append], h₂,
                by rw [h₃.1, h₃.2, List.nil_append, List.cons_append], hc⟩
            | cons u₀ us =>
              rw [List.cons_append, List.cons.injEq] at h₁ h₃
              exact .inr ⟨(x :: u₀) :: us, w, z, zs, by rw [h₁.1, h₁.2, List.cons_append], h₂,
                by rw [h₃.1, h₃.2, List.cons_append], hc⟩

/-! ## Writing tokens back -/

/-- Every token followed by `x`. -/
def terminate (x : α) (ts : List (List α)) : List α := ts.flatMap (· ++ [x])

@[simp]
theorem terminate_nil (x : α) : terminate x [] = [] := rfl

@[simp]
theorem terminate_cons (x : α) (t : List α) (ts : List (List α)) :
    terminate x (t :: ts) = t ++ x :: terminate x ts := by
  simp [terminate]

@[simp]
theorem terminate_append (x : α) (ts us : List (List α)) :
    terminate x (ts ++ us) = terminate x ts ++ terminate x us :=
  List.flatMap_append

theorem length_terminate (x : α) (ts : List (List α)) :
    (terminate x ts).length = (ts.map fun t => t.length + 1).sum := by
  simp [terminate, List.length_flatMap]

/-- What is written back never begins with a separator. -/
theorem head_terminate_tokens (sep : α → Bool) (x : α) (l : List α) :
    ∀ y ∈ (terminate x (tokens sep l)).head?, sep y = false := by
  cases ht : tokens sep l with
  | nil => simp
  | cons t ts =>
    obtain ⟨hne, hs⟩ := tokens_mem (l := l) (t := t) (ht ▸ List.mem_cons_self)
    obtain ⟨y, t, rfl⟩ := List.exists_cons_of_ne_nil hne
    simpa using hs y List.mem_cons_self

/-- Writing back adds at most the one separator missing at the end. -/
theorem length_terminate_tokens_le (sep : α → Bool) (x : α) (l : List α) :
    (terminate x (tokens sep l)).length ≤ l.length + 1 := by
  -- A list that begins with a separator leaves room for one more.
  suffices h : (terminate x (tokens sep l)).length ≤ l.length + 1 ∧
      ((∀ y ∈ l.head?, sep y = true) → (terminate x (tokens sep l)).length ≤ l.length) from h.1
  induction l with
  | nil => simp
  | cons y l ih =>
    cases hy : sep y with
    | true =>
      rw [tokens_cons_of_sep hy, List.length_cons]
      exact ⟨Nat.le_succ_of_le ih.1, fun _ => ih.1⟩
    | false =>
      refine ⟨?_, fun h => absurd (h y rfl) (by simp [hy])⟩
      by_cases hl : ∀ z ∈ l.head?, sep z = true
      · have := ih.2 hl
        rw [tokens_cons_of_head_sep hy hl]
        simpa using this
      · obtain ⟨z, l, rfl⟩ : ∃ z l', l = z :: l' := by cases l <;> simp_all
        obtain ⟨t, ts, ht, hyt⟩ := tokens_cons_cons hy (by simpa using hl) l
        have := ih.1
        rw [ht] at this
        rw [hyt]
        simp only [terminate_cons, List.length_append, List.length_cons] at this ⊢
        omega

/-- The tokens of runs that are written with a separator each are the runs that are not empty. -/
theorem tokens_terminate {x : α} (hx : sep x = true) {ts : List (List α)}
    (h : ∀ t ∈ ts, ∀ y ∈ t, sep y = false) :
    tokens sep (terminate x ts) = ts.filter fun t => !t.isEmpty := by
  induction ts with
  | nil => rfl
  | cons t ts ih =>
    obtain ⟨ht, hts⟩ := List.forall_mem_cons.1 h
    rw [terminate_cons, tokens_append_cons hx, ih hts]
    cases t with
    | nil => rfl
    | cons y t =>
      rw [tokens_of_forall (List.cons_ne_nil y t) ht]
      rfl

/-- A list is written back as it was exactly if it is made of non-empty runs that end with one
    separator each. -/
theorem terminate_tokens_eq_iff {x : α} (hx : ∀ a, sep a = true ↔ a = x) (l : List α) :
    terminate x (tokens sep l) = l ↔ l.head? ≠ some x ∧ ¬[x, x] <:+: l ∧ ∀ y ∈ l.getLast?, y = x := by
  induction hn : l.length using Nat.strongRecOn generalizing l with
  | ind n ih =>
    have hsep : ∀ {a}, a ≠ x → sep a = false := fun ha => Bool.eq_false_iff.2 (mt (hx _).1 ha)
    match l with
    | [] => simp
    | y :: l =>
      by_cases hy : y = x
      · -- What is written back never begins with a separator.
        subst hy
        refine iff_of_false (fun heq => ?_) (by simp)
        have hhead := head_terminate_tokens sep y (y :: l) y (by rw [heq]; rfl)
        exact Bool.false_ne_true (hhead.symm.trans ((hx y).2 rfl))
      · match l with
        | [] =>
          rw [tokens_of_forall (List.cons_ne_nil y []) (by simpa using hsep hy)]
          simp [hy]
        | z :: l =>
          by_cases hz : z = x
          · -- A token of one element, and its separator.
            subst hz
            have hz : sep z = true := (hx z).2 rfl
            have hih := ih l.length (by simp only [← hn, List.length_cons]; omega) l rfl
            have hinfix : [z, z] <:+: y :: z :: l ↔ l.head? = some z ∨ [z, z] <:+: l := by
              rw [List.infix_cons_iff, List.infix_cons_iff]
              cases l <;> simp [Ne.symm hy, eq_comm (a := z)]
            rw [tokens_cons_of_head_sep (hsep hy) (by simpa using hz), tokens_cons_of_sep hz, terminate_cons,
              List.singleton_append, List.cons_inj_right, List.cons_inj_right, hih, hinfix, not_or]
            cases l <;> simp [hy, and_assoc]
          · obtain ⟨t, ts, ht, hyt⟩ := tokens_cons_cons (hsep hy) (hsep hz) l
            have hih := ih (z :: l).length (by simp only [← hn, List.length_cons]; omega) (z :: l) rfl
            rw [ht] at hih
            have hinfix : [x, x] <:+: y :: z :: l ↔ [x, x] <:+: z :: l := by
              rw [List.infix_cons_iff]
              simp [Ne.symm hy]
            rw [hyt, terminate_cons, List.cons_append, List.cons_inj_right, ← terminate_cons, hih, hinfix]
            simp [hy, hz]

end Ssp
