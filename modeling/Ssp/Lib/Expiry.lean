import Mathlib.Data.List.Nodup
import Mathlib.Data.List.Pairwise
import Mathlib.Logic.Function.Basic
import Mathlib.Order.Lattice
import Mathlib.Tactic.SplitIfs

/-!
# Queues of what expires

A queue whose elements are due at some time is *swept* by a loop that takes them out from the
front and stops at the first one that is not due yet (`Swept`). The loop takes out all that are
due, at whatever time it runs, exactly if the queue is in the order of the times
(`inOrder_iff_complete`).

What is added at the end with the latest time keeps the order. What is put off to the latest
time keeps it exactly if all behind it are due no earlier (`inOrder_update_iff`).
-/

namespace Ssp

section

variable {α τ : Type*} [LinearOrder τ] {due due' : α → τ} {l gone rest : List α} {now : τ}

/-- The queue is in the order of the times. -/
def InOrder (due : α → τ) (l : List α) : Prop := l.Pairwise fun x y => due x ≤ due y

/-- A loop over the queue has taken out what is due, up to the first that is not. -/
structure Swept (due : α → τ) (now : τ) (l gone rest : List α) : Prop where
  split : l = gone ++ rest
  gone : ∀ x ∈ gone, due x ≤ now
  first : ∀ x ∈ rest.head?, now < due x

theorem inOrder_nil : InOrder due [] := List.Pairwise.nil

theorem InOrder.congr (h : InOrder due l) (heq : ∀ x ∈ l, due' x = due x) : InOrder due' l :=
  List.Pairwise.imp_of_mem (fun hx hy hle => by rwa [heq _ hx, heq _ hy]) h

theorem InOrder.of_append (h : InOrder due (gone ++ rest)) : InOrder due rest := (List.pairwise_append.1 h).2.1

/-- The newest element is the last one. -/
theorem InOrder.append_singleton (h : InOrder due l) {a : α} (hle : ∀ x ∈ l, due x ≤ due a) :
    InOrder due (l ++ [a]) := by
  refine List.pairwise_append.2 ⟨h, List.pairwise_singleton _ a, fun x hx y hy => ?_⟩
  rw [List.mem_singleton.1 hy]
  exact hle x hx

/-- In a queue that is in order, nothing that is due is left. -/
theorem Swept.complete (hs : Swept due now l gone rest) (h : InOrder due l) : ∀ x ∈ rest, now < due x := by
  have hl : InOrder due (gone ++ rest) := hs.split ▸ h
  have hrest : InOrder due rest := hl.of_append
  cases rest with
  | nil => exact fun _ hx => absurd hx List.not_mem_nil
  | cons a rest =>
    have hfirst := hs.first a rfl
    intro x hx
    rcases List.mem_cons.1 hx with rfl | hx
    · exact hfirst
    · exact hfirst.trans_le ((List.pairwise_cons.1 hrest).1 x hx)

/-- **A sweep is complete at any time** exactly if the queue is in order. -/
theorem inOrder_iff_complete {gone rest : τ → List α} (hs : ∀ now, Swept due now l (gone now) (rest now)) :
    InOrder due l ↔ ∀ now, ∀ x ∈ rest now, now < due x := by
  refine ⟨fun h now => (hs now).complete h, fun h => List.pairwise_iff_forall_sublist.2 fun {x y} hxy => ?_⟩
  by_contra hlt
  -- At the time of `y` the loop stops at `x`, or before it.
  have hy := h (due y)
  rw [(hs (due y)).split] at hxy
  obtain ⟨l₁, l₂, heq, h₁, h₂⟩ := List.sublist_append_iff.1 hxy
  have hx : x ∉ l₁ := fun hx => hlt ((hs (due y)).gone x (h₁.subset hx))
  cases l₁ with
  | nil =>
    rw [List.nil_append] at heq
    exact lt_irrefl _ (hy y (h₂.subset (heq ▸ by simp)))
  | cons a l₁ =>
    obtain ⟨rfl, -⟩ := List.cons.inj heq
    exact hx List.mem_cons_self

variable [DecidableEq α]

/-- An element is put off to the latest time. -/
theorem inOrder_update_iff {a : α} {m : τ} (h : InOrder due l) (hnodup : l.Nodup) (hle : ∀ x ∈ l, due x ≤ m) :
    InOrder (Function.update due a m) l ↔ ∀ pre post, l = pre ++ a :: post → ∀ x ∈ post, m ≤ due x := by
  constructor
  · rintro hupdate pre post rfl x hx
    have hpost := (List.pairwise_cons.1 (List.pairwise_append.1 hupdate).2.1).1 x hx
    have hne : x ≠ a := by
      rintro rfl
      exact (List.nodup_cons.1 (List.nodup_append'.1 hnodup).2.1).1 hx
    rwa [Function.update_self, Function.update_of_ne hne] at hpost
  · intro hpost
    by_cases ha : a ∈ l
    · obtain ⟨pre, post, rfl⟩ := List.append_of_mem ha
      obtain ⟨-, hcons, hdisjoint⟩ := List.nodup_append'.1 hnodup
      have hpre : a ∉ pre := fun hmem => hdisjoint hmem List.mem_cons_self
      obtain ⟨hp, hq, hpq⟩ := List.pairwise_append.1 h
      obtain ⟨-, hq⟩ := List.pairwise_cons.1 hq
      have hsame : ∀ l' : List α, a ∉ l' → InOrder due l' → InOrder (Function.update due a m) l' := fun l' hl' h' =>
        h'.congr fun x hx => Function.update_of_ne (ne_of_mem_of_not_mem hx hl') m due
      have hnot := (List.nodup_cons.1 hcons).1
      have hother : ∀ x ∈ post, Function.update due a m x = due x := fun x hx =>
        Function.update_of_ne (ne_of_mem_of_not_mem hx hnot) m due
      refine List.pairwise_append.2 ⟨hsame pre hpre hp, List.pairwise_cons.2 ⟨fun x hx => ?_, hsame post hnot hq⟩,
        fun x hx y hy => ?_⟩
      · rw [Function.update_self, hother x hx]
        exact hpost pre post rfl x hx
      · rw [Function.update_of_ne (ne_of_mem_of_not_mem hx hpre)]
        rcases List.mem_cons.1 hy with rfl | hy'
        · rw [Function.update_self]
          exact hle x (List.mem_append_left _ hx)
        · rw [hother y hy']
          exact hpq x hx y hy
    · exact h.congr fun x hx => Function.update_of_ne (ne_of_mem_of_not_mem hx ha) m due

end

end Ssp
