import Mathlib.Logic.Function.Basic

/-!
# Loops that may fail

A loop with an early exit is a `foldlM` in `Except`. If it ends, what it leaves in a part of
its state is what a loop without exits over that part leaves there (`observe_foldlM`).
-/

namespace Ssp

universe u

variable {ε α δ τ : Type*} {β γ σ : Type u}

theorem bind_eq_ok_iff {x : Except ε β} {f : β → Except ε γ} {c : γ} :
    x >>= f = .ok c ↔ ∃ b, x = .ok b ∧ f b = .ok c := by
  cases x with
  | error e => exact iff_of_false (fun h => nomatch h) fun ⟨_, h, _⟩ => nomatch h
  | ok a => exact ⟨fun h => ⟨a, rfl, h⟩, fun ⟨_, heq, h⟩ => Except.ok.inj heq ▸ h⟩

/-- **The run of a loop** whose steps do something to a part of the state where there is an
    `element` in them, and leave that part alone elsewhere. -/
theorem observe_foldlM (observe : σ → τ) (element : α → Option δ) (step : τ → δ → τ) {f : σ → α → Except ε σ}
    (hf : ∀ s x s', f s x = .ok s' → observe s' = (element x).elim (observe s) (step (observe s)))
    {xs : List α} {s s' : σ} (h : xs.foldlM f s = .ok s') :
    observe s' = (xs.filterMap element).foldl step (observe s) := by
  induction xs generalizing s with
  | nil =>
    cases h
    rfl
  | cons x xs ih =>
    rw [List.foldlM_cons, bind_eq_ok_iff] at h
    obtain ⟨t, hx, hxs⟩ := h
    rw [ih hxs, hf s x t hx, List.filterMap_cons]
    cases element x <;> rfl

/-- A part of the state that no step changes. -/
theorem observe_foldlM_of_eq (observe : σ → τ) {f : σ → α → Except ε σ}
    (hf : ∀ s x s', f s x = .ok s' → observe s' = observe s) {xs : List α} {s s' : σ}
    (h : xs.foldlM f s = .ok s') : observe s' = observe s := by
  rw [observe_foldlM observe (fun _ => (none : Option Empty)) (fun t _ => t) hf h]
  exact congrArg (List.foldl _ _) (List.filterMap_eq_nil_iff.2 fun _ _ => rfl)

/-- A list to which each step adds one element, or none. -/
theorem observe_foldlM_of_append (observe : σ → List τ) (element : α → Option τ) {f : σ → α → Except ε σ}
    (hf : ∀ s x s', f s x = .ok s' → observe s' = observe s ++ (element x).toList) {xs : List α} {s s' : σ}
    (h : xs.foldlM f s = .ok s') : observe s' = observe s ++ xs.filterMap element := by
  have hstep : ∀ s x s', f s x = .ok s' →
      observe s' = (element x).elim (observe s) fun t => observe s ++ [t] := by
    intro s x s' hs
    rw [hf s x s' hs]
    cases element x with
    | none => exact List.append_nil _
    | some t => rfl
  rw [observe_foldlM observe element (fun l t => l ++ [t]) hstep h, List.foldl_append_eq_append,
    ← List.flatMap_def, List.flatMap_singleton']

end Ssp
