import Mathlib.Data.List.Basic

/-!
# Handles that are used linearly

A program is given handles, keeps them in a table for some time and gives each of them back with
`destroy`. It uses them *linearly* if a handle is not given back as long as it is in the table,
exactly once when it leaves the table, and not used after that.

`Usage.linear_step_iff` says what this comes down to for one step, and handle by handle: a handle
that stays is only used, one that leaves is destroyed last, and one that has left is left alone.
-/

namespace Ssp

/-- What is done to a handle. -/
inductive HandleOp
  | use
  | destroy
  deriving DecidableEq, Repr

namespace HandleOp

/-- The handle is not destroyed. -/
def Live (l : List HandleOp) : Prop := .destroy ∉ l

/-- The handle is destroyed once, and last. -/
def Spent (l : List HandleOp) : Prop := ∃ l', Live l' ∧ l = l' ++ [.destroy]

instance (l : List HandleOp) : Decidable (Live l) := inferInstanceAs (Decidable (_ ∉ _))

theorem live_nil : Live [] := List.not_mem_nil

theorem live_append {l l' : List HandleOp} : Live (l ++ l') ↔ Live l ∧ Live l' := by
  unfold Live
  rw [List.mem_append, not_or]

theorem Spent.not_live {l : List HandleOp} (h : Spent l) : ¬Live l := by
  obtain ⟨l', -, rfl⟩ := h
  exact fun hlive => hlive (List.mem_append_right _ List.mem_cons_self)

theorem spent_destroy {l : List HandleOp} (h : Live l) : Spent (l ++ [.destroy]) := ⟨l, h, rfl⟩

/-- A handle is not destroyed twice. -/
theorem not_spent_of_twice (l : List HandleOp) : ¬Spent (l ++ [.destroy, .destroy]) := by
  rintro ⟨l', hlive, heq⟩
  rw [show l ++ [HandleOp.destroy, .destroy] = l ++ [.destroy] ++ [.destroy] by simp] at heq
  obtain ⟨rfl, -⟩ := List.append_inj' heq rfl
  exact hlive (List.mem_append_right _ List.mem_cons_self)

/-- What comes after uses only decides whether the handle is spent. -/
theorem Live.spent_append {l l' : List HandleOp} (h : Live l) : Spent (l ++ l') ↔ Spent l' := by
  constructor
  · rintro ⟨k, hk, heq⟩
    rcases List.eq_nil_or_concat l' with rfl | ⟨k', op, rfl⟩
    · rw [List.append_nil] at heq
      subst heq
      exact absurd h (Spent.not_live ⟨k, hk, rfl⟩)
    · rw [List.concat_eq_append, ← List.append_assoc] at heq
      obtain ⟨rfl, hop⟩ := List.append_inj' heq rfl
      rw [List.concat_eq_append, hop]
      exact spent_destroy (live_append.1 hk).2
  · rintro ⟨k, hk, rfl⟩
    rw [← List.append_assoc]
    exact spent_destroy (live_append.2 ⟨h, hk⟩)

/-- Nothing can be done to a handle that is spent. -/
theorem Spent.spent_append {l l' : List HandleOp} (h : Spent l) : Spent (l ++ l') ↔ l' = [] := by
  constructor
  · intro hspent
    rcases List.eq_nil_or_concat l' with rfl | ⟨k', op, rfl⟩
    · rfl
    · obtain ⟨k, hk, heq⟩ := hspent
      rw [List.concat_eq_append, ← List.append_assoc] at heq
      obtain ⟨rfl, -⟩ := List.append_inj' heq rfl
      exact absurd (live_append.1 hk).1 h.not_live
  · rintro rfl
    rwa [List.append_nil]

end HandleOp

open HandleOp

/-- What a program did with its handles, which of them are in the table, and which have been. -/
structure Usage (η : Type*) where
  trace : List (η × HandleOp)
  held : η → Prop
  entered : η → Prop

section

variable {η : Type*} [DecidableEq η]

/-- What was done to one handle. -/
def opsOn (l : List (η × HandleOp)) (h : η) : List HandleOp := (l.filter (·.1 = h)).map Prod.snd

theorem opsOn_append (l l' : List (η × HandleOp)) (h : η) : opsOn (l ++ l') h = opsOn l h ++ opsOn l' h := by
  simp [opsOn]

theorem opsOn_eq_nil_iff {l : List (η × HandleOp)} {h : η} : opsOn l h = [] ↔ ∀ op, (h, op) ∉ l := by
  simp only [opsOn, List.map_eq_nil_iff, List.filter_eq_nil_iff, decide_eq_true_eq, Prod.forall]
  exact ⟨fun hl op hmem => hl h op hmem rfl, fun hl h' op hmem heq => hl op (heq ▸ hmem)⟩

theorem mem_opsOn {l : List (η × HandleOp)} {h : η} {op : HandleOp} : op ∈ opsOn l h ↔ (h, op) ∈ l := by
  simp [opsOn]

/-- Uses leave a handle alive. -/
theorem live_opsOn {l : List (η × HandleOp)} (hl : ∀ p ∈ l, p.2 = .use) (h : η) : Live (opsOn l h) := by
  intro hmem
  obtain ⟨p, hfilter, hp⟩ := List.mem_map.1 hmem
  rw [hl p (List.mem_filter.1 hfilter).1] at hp
  cases hp

namespace Usage

/-- The handles are used linearly. -/
def Linear (u : Usage η) : Prop :=
  ∀ h, u.entered h → (u.held h → Live (opsOn u.trace h)) ∧ (¬u.held h → Spent (opsOn u.trace h))

/-- The program does `ops`, and the table is `held` then. -/
def step (u : Usage η) (ops : List (η × HandleOp)) (held : η → Prop) : Usage η where
  trace := u.trace ++ ops
  held := held
  entered h := u.entered h ∨ held h

/-- What a step may do to a handle. -/
structure Permits (u : Usage η) (ops : List (η × HandleOp)) (held : η → Prop) (h : η) : Prop where
  stays : u.held h → held h → Live (opsOn ops h)
  leaves : u.held h → ¬held h → Spent (opsOn ops h)
  gone : u.entered h → ¬u.held h → ¬held h ∧ opsOn ops h = []
  enters : ¬u.entered h → held h → Live (opsOn ops h)

/-- **One step.** A handle that comes into the table is a new one. -/
theorem linear_step_iff {u : Usage η} (hu : u.Linear) (hentered : ∀ h, u.held h → u.entered h)
    {ops : List (η × HandleOp)} {held : η → Prop}
    (hnew : ∀ h, ¬u.entered h → held h → opsOn u.trace h = []) :
    (u.step ops held).Linear ↔ ∀ h, u.Permits ops held h := by
  have hops : ∀ h, opsOn (u.step ops held).trace h = opsOn u.trace h ++ opsOn ops h := opsOn_append u.trace ops
  -- What was done before the step leaves the handle alive if it was held, and spent if it was not.
  constructor
  · refine fun hstep h => ⟨fun hin hin' => ?_, fun hin hout => ?_, fun hold hout => ?_, fun hfresh hin => ?_⟩
    · have hlive := (hstep h (.inr hin')).1 hin'
      rw [hops, live_append] at hlive
      exact hlive.2
    · have hspent := (hstep h (.inl (hentered h hin))).2 hout
      rwa [hops, ((hu h (hentered h hin)).1 hin).spent_append] at hspent
    · have hspent := (hu h hold).2 hout
      have hout' : ¬held h := by
        intro hin
        have hlive := (hstep h (.inr hin)).1 hin
        rw [hops, live_append] at hlive
        exact hspent.not_live hlive.1
      have hspent' := (hstep h (.inl hold)).2 hout'
      rw [hops, hspent.spent_append] at hspent'
      exact ⟨hout', hspent'⟩
    · have hlive := (hstep h (.inr hin)).1 hin
      rw [hops, live_append] at hlive
      exact hlive.2
  · refine fun hpermits h hin => ⟨fun hheld => ?_, fun hout => ?_⟩
    · rw [hops, live_append]
      by_cases hold : u.entered h
      · by_cases hheld' : u.held h
        · exact ⟨(hu h hold).1 hheld', (hpermits h).stays hheld' hheld⟩
        · exact absurd hheld ((hpermits h).gone hold hheld').1
      · rw [hnew h hold hheld]
        exact ⟨live_nil, (hpermits h).enters hold hheld⟩
    · have hold : u.entered h := hin.resolve_right hout
      rw [hops]
      by_cases hheld' : u.held h
      · exact ((hu h hold).1 hheld').spent_append.2 ((hpermits h).leaves hheld' hout)
      · exact ((hu h hold).2 hheld').spent_append.2 ((hpermits h).gone hold hheld').2

/-- One lemma for the steps that are all right: the handles that are `gone` are spent, those that
    are `new` come in, and nothing is done to the others but that they are used. -/
theorem permits_of_step {u : Usage η} (hentered : ∀ h, u.held h → u.entered h) {ops : List (η × HandleOp)}
    {held : η → Prop} (gone new : η → Prop) (hheld : ∀ h, held h ↔ u.held h ∧ ¬gone h ∨ new h)
    (hnew : ∀ h, new h → ¬u.entered h) (hgone : ∀ h, gone h → u.held h ∧ Spent (opsOn ops h))
    (hops : ∀ h op, (h, op) ∈ ops → ¬gone h → held h ∧ op = .use ∨ ¬u.entered h ∧ ¬held h) (h : η) :
    u.Permits ops held h := by
  -- A handle that stays is only used.
  have hlive : held h → ¬gone h → Live (opsOn ops h) := by
    intro hin hstays hmem
    obtain ⟨⟨h', op⟩, hfilter, rfl⟩ := List.mem_map.1 hmem
    obtain ⟨hmem', heq⟩ := List.mem_filter.1 hfilter
    obtain rfl : h' = h := of_decide_eq_true heq
    rcases hops h' _ hmem' hstays with ⟨-, hop⟩ | ⟨-, hout⟩
    · cases hop
    · exact hout hin
  refine ⟨fun hin hin' => hlive hin' fun hg => ?_, fun hin hout => ?_, fun hold hout => ?_, fun hfresh hin => ?_⟩
  · rcases (hheld h).1 hin' with ⟨-, hstays⟩ | hn
    · exact hstays hg
    · exact hnew h hn (hentered h hin)
  · refine (hgone h ?_).2
    by_contra hstays
    exact hout ((hheld h).2 (.inl ⟨hin, hstays⟩))
  · have hout' : ¬held h := by
      intro hin
      rcases (hheld h).1 hin with ⟨hin, -⟩ | hn
      · exact hout hin
      · exact hnew h hn hold
    refine ⟨hout', opsOn_eq_nil_iff.2 fun op hmem => ?_⟩
    rcases hops h op hmem fun hg => hout (hgone h hg).1 with ⟨hin, -⟩ | ⟨hfresh, -⟩
    · exact hout' hin
    · exact hfresh hold
  · exact hlive hin fun hg => hfresh (hentered h (hgone h hg).1)

end Usage

end

end Ssp
