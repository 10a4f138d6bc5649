import Mathlib.Data.Nat.Notation

/-!
# A value that is changed between ticks

A *latch* has a value and takes offers for another one. The first offer waits for the next tick, and
is the value from then on; the offers that come while one is waiting are lost.

The events are of any type: `tick` says which of them are ticks, and `offer` what the others offer.
`value_run`: the value is what the first offer of each round between two ticks makes of it.
-/

namespace Ssp

/-- A latch. -/
structure Latch (α : Type*) where
  value : α
  waiting : Option α := none

namespace Latch

variable {α ε : Type*} (tick : ε → Bool) (offer : ε → Option α)

/-- The latch after an event. -/
def next (l : Latch α) (e : ε) : Latch α :=
  if tick e then { value := l.waiting.getD l.value } else { l with waiting := l.waiting.or (offer e) }

/-- The latch after some events. -/
def run (l : Latch α) (es : List ε) : Latch α := es.foldl (next tick offer) l

/-- The value after a round, which ends with a tick. -/
def settle (value : α) (round : List ε) : α := (round.findSome? offer).getD value

variable {tick offer}

theorem run_cons (l : Latch α) (e : ε) (es : List ε) :
    l.run tick offer (e :: es) = (l.next tick offer e).run tick offer es := rfl

theorem next_of_tick {e : ε} (h : tick e = true) (l : Latch α) :
    l.next tick offer e = { value := l.waiting.getD l.value } := if_pos h

theorem next_of_not_tick {e : ε} (h : tick e = false) (l : Latch α) :
    l.next tick offer e = { l with waiting := l.waiting.or (offer e) } :=
  if_neg (h ▸ Bool.false_ne_true)

/-- The first round goes on from what is waiting already. -/
theorem value_run_of_splitOnP {es first : List ε} {rounds : List (List ε)} (h : es.splitOnP tick = first :: rounds)
    (l : Latch α) : (l.run tick offer es).value =
      if rounds = [] then l.value
      else rounds.dropLast.foldl (settle offer) ((l.waiting.or (first.findSome? offer)).getD l.value) := by
  induction es generalizing l first rounds with
  | nil =>
    obtain ⟨-, rfl⟩ := List.cons.inj h
    rfl
  | cons e es ih =>
    rw [run_cons]
    rw [List.splitOnP_cons_eq_if_modifyHead] at h
    obtain ⟨first', rounds', hes⟩ := List.exists_cons_of_ne_nil (List.splitOnP_ne_nil tick es)
    rw [hes] at h
    rw [ih hes]
    cases htick : tick e with
    | true =>
      -- The round is over: the next one is the first of the others.
      rw [if_pos htick] at h
      obtain ⟨rfl, rfl⟩ := List.cons.inj h
      rw [next_of_tick htick, if_neg (List.cons_ne_nil first' rounds'), List.findSome?_nil, Option.or_none]
      cases rounds' with
      | nil => rfl
      | cons round rounds'' => rfl
    | false =>
      rw [htick, if_neg Bool.false_ne_true] at h
      obtain ⟨rfl, rfl⟩ := List.cons.inj h
      rw [next_of_not_tick htick, Option.or_assoc, List.findSome?_cons]
      cases offer e <;> rfl

/-- **The value after some events**: the first offer of each round is taken. -/
theorem value_run {l : Latch α} (h : l.waiting = none) (es : List ε) :
    (l.run tick offer es).value = (es.splitOnP tick).dropLast.foldl (settle offer) l.value := by
  obtain ⟨first, rounds, hes⟩ := List.exists_cons_of_ne_nil (List.splitOnP_ne_nil tick es)
  rw [value_run_of_splitOnP hes, hes, h, Option.none_or]
  cases rounds with
  | nil => rfl
  | cons round rounds => rfl

end Latch

end Ssp
