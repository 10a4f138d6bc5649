import Mathlib.Data.Nat.Notation
import Mathlib.Data.Set.Defs

/-!
# Machines and their runs

A *machine* has initial states, a set of events that may happen in each state,
and the state each event leads to. It is deterministic: whatever the
environment chooses (a message, the outcome of a system call) is part of the
event, so a *run* is an initial state and a list of events, and "for every
order of events" is a quantifier over lists.

Properties of runs come in two forms:

* `Along P s es`: every *step* of the run of `es` from `s` meets `P`, a
  relation between the state before the step and its event;
* `Always Q s es`: every *state* of the run meets `Q`.

`count p s es` is the number of steps that meet `p`. A counter in the state that goes up at
these steps and is bounded bounds them (`count_add_le`).

A safety property is an invariant of the reachable states
(`Reachable.invariant`), of all of them or of those reached by steps that keep
to a condition (`restrict`). Where a property fails exactly at the steps that
break a condition, `always_iff_along` turns the statement about one step into
the one about runs; `along_iff_along` does so for a property of the steps themselves.
-/

namespace Ssp

/-- A deterministic machine with states `σ` and events `ε`. -/
structure Machine (σ ε : Type*) where
  /-- The initial states. -/
  init : Set σ
  /-- The events that may happen in a state. -/
  enabled : σ → ε → Prop
  /-- The state after an event. -/
  next : σ → ε → σ

namespace Machine

variable {σ ε : Type*} (m : Machine σ ε)

/-- The state after the events `es`, in order. -/
def exec (s : σ) (es : List ε) : σ := es.foldl m.next s

@[simp]
theorem exec_nil (s : σ) : m.exec s [] = s := rfl

@[simp]
theorem exec_cons (s : σ) (e : ε) (es : List ε) :
    m.exec s (e :: es) = m.exec (m.next s e) es := rfl

/-- Every step of the run of `es` from `s` meets `P`. -/
def Along (P : σ → ε → Prop) : σ → List ε → Prop
  | _, [] => True
  | s, e :: es => P s e ∧ Along P (m.next s e) es

/-- A run on fixed events can be checked by evaluation. -/
instance decidableAlong (P : σ → ε → Prop) [∀ s e, Decidable (P s e)] :
    (s : σ) → (es : List ε) → Decidable (m.Along P s es)
  | _, [] => inferInstanceAs (Decidable True)
  | s, e :: es => @instDecidableAnd _ _ _ (decidableAlong P (m.next s e) es)

/-- Every state of the run of `es` from `s` meets `Q`, the first and the last
    included. -/
def Always (Q : σ → Prop) : σ → List ε → Prop
  | s, [] => Q s
  | s, e :: es => Q s ∧ Always Q (m.next s e) es

/-- The number of steps of the run of `es` from `s` that meet `p`. -/
def count (p : σ → ε → Bool) : σ → List ε → ℕ
  | _, [] => 0
  | s, e :: es => (p s e).toNat + count p (m.next s e) es

/-- The state in which the first event that meets `p` happens. -/
def first? (p : ε → Bool) : σ → List ε → Option σ
  | _, [] => none
  | s, e :: es => if p e then some s else first? p (m.next s e) es

/-- A run: it starts in an initial state, and its events may happen. -/
def IsRun (s : σ) (es : List ε) : Prop := s ∈ m.init ∧ m.Along m.enabled s es

/-- The states of the runs. -/
inductive Reachable : σ → Prop
  | init {s : σ} : s ∈ m.init → Reachable s
  | step {s : σ} {e : ε} : Reachable s → m.enabled s e → Reachable (m.next s e)

/-- The machine restricted to the steps that meet `P`. -/
def restrict (P : σ → ε → Prop) : Machine σ ε :=
  { m with enabled := fun s e => m.enabled s e ∧ P s e }

variable {m}

/-- What holds initially and is kept by every step of a run is an invariant. -/
theorem Reachable.invariant {I : σ → Prop} (init : ∀ s ∈ m.init, I s)
    (step : ∀ s e, I s → m.enabled s e → I (m.next s e)) {s : σ} (h : m.Reachable s) : I s := by
  induction h with
  | init hs => exact init _ hs
  | step _ he ih => exact step _ _ ih he

/-- A run from a reachable state ends in a reachable state. -/
theorem Reachable.exec {s : σ} (h : m.Reachable s) {es : List ε}
    (hes : m.Along m.enabled s es) : m.Reachable (m.exec s es) := by
  induction es generalizing s with
  | nil => exact h
  | cons e es ih => exact ih (.step h hes.1) hes.2

theorem Along.mono {P Q : σ → ε → Prop} (hPQ : ∀ s e, P s e → Q s e) {s : σ} {es : List ε}
    (h : m.Along P s es) : m.Along Q s es := by
  induction es generalizing s with
  | nil => trivial
  | cons e es ih => exact ⟨hPQ _ _ h.1, ih h.2⟩

/-- Where, from the states that meet the invariant `I`, a step that meets `P` meets `Q`, so does a run. -/
theorem Along.imp {I : σ → Prop} {P Q : σ → ε → Prop} (inv : ∀ s e, I s → m.enabled s e → I (m.next s e))
    (step : ∀ s e, I s → m.enabled s e → P s e → Q s e) {s : σ} (hI : I s) {es : List ε}
    (hes : m.Along m.enabled s es) (h : m.Along P s es) : m.Along Q s es := by
  induction es generalizing s with
  | nil => trivial
  | cons e es ih => exact ⟨step s e hI hes.1 h.1, ih (inv s e hI hes.1) hes.2 h.2⟩

/-- A condition on the events alone. -/
theorem along_iff_forall {P : ε → Prop} {s : σ} {es : List ε} : m.Along (fun _ => P) s es ↔ ∀ e ∈ es, P e := by
  induction es generalizing s with
  | nil => exact iff_of_true trivial fun _ he => absurd he List.not_mem_nil
  | cons e es ih => rw [List.forall_mem_cons, Along, ih]

theorem Along.and {P Q : σ → ε → Prop} {s : σ} {es : List ε} (hP : m.Along P s es) (hQ : m.Along Q s es) :
    m.Along (fun s e => P s e ∧ Q s e) s es := by
  induction es generalizing s with
  | nil => trivial
  | cons e es ih => exact ⟨⟨hP.1, hQ.1⟩, ih hP.2 hQ.2⟩

theorem Always.mono {Q R : σ → Prop} (hQR : ∀ s, Q s → R s) {s : σ} {es : List ε}
    (h : m.Always Q s es) : m.Always R s es := by
  induction es generalizing s with
  | nil => exact hQR _ h
  | cons e es ih => exact ⟨hQR _ h.1, ih h.2⟩

theorem Always.head {Q : σ → Prop} {s : σ} {es : List ε} (h : m.Always Q s es) : Q s := by
  cases es with
  | nil => exact h
  | cons e es => exact h.1

theorem exec_append (s : σ) (es es' : List ε) : m.exec s (es ++ es') = m.exec (m.exec s es) es' :=
  List.foldl_append

theorem along_append_iff {P : σ → ε → Prop} {s : σ} {es es' : List ε} :
    m.Along P s (es ++ es') ↔ m.Along P s es ∧ m.Along P (m.exec s es) es' := by
  induction es generalizing s with
  | nil => exact (iff_of_eq (true_and _)).symm
  | cons e es ih => exact (and_congr_right fun _ => ih).trans and_assoc.symm

theorem along_append {P : σ → ε → Prop} {s : σ} {es es' : List ε} (h : m.Along P s es)
    (h' : m.Along P (m.exec s es) es') : m.Along P s (es ++ es') :=
  along_append_iff.2 ⟨h, h'⟩

theorem always_append {Q : σ → Prop} {s : σ} {es es' : List ε} (h : m.Always Q s (es ++ es')) :
    m.Always Q s es ∧ m.Always Q (m.exec s es) es' := by
  induction es generalizing s with
  | nil => exact ⟨h.head, h⟩
  | cons e es ih => exact ⟨⟨h.1, (ih h.2).1⟩, (ih h.2).2⟩

theorem first?_append (p : ε → Bool) (s : σ) (es es' : List ε) :
    m.first? p s (es ++ es') = (m.first? p s es).or (m.first? p (m.exec s es) es') := by
  induction es generalizing s with
  | nil => exact Option.none_or.symm
  | cons e es ih =>
    rw [List.cons_append, first?, first?, ih]
    cases p e <;> rfl

theorem count_append (p : σ → ε → Bool) (s : σ) (es es' : List ε) :
    m.count p s (es ++ es') = m.count p s es + m.count p (m.exec s es) es' := by
  induction es generalizing s with
  | nil => exact (Nat.zero_add _).symm
  | cons e es ih =>
    change (p s e).toNat + m.count p (m.next s e) (es ++ es') = _ + _ + _
    rw [ih, ← Nat.add_assoc]
    rfl

/-- Where the steps that meet `p` are counted in the state, and are taken only as long as the
    count is less than `n`, there are at most as many of them. -/
theorem count_add_le {I : σ → Prop} {f : σ → ℕ} {p : σ → ε → Bool} {n : ℕ}
    (step : ∀ s e, I s → m.enabled s e →
      I (m.next s e) ∧ f (m.next s e) = f s + (p s e).toNat ∧ (p s e = true → f s < n))
    {s : σ} (hI : I s) (hs : f s ≤ n) {es : List ε} (hes : m.Along m.enabled s es) :
    m.count p s es + f s ≤ n := by
  induction es generalizing s with
  | nil => simpa [count] using hs
  | cons e es ih =>
    obtain ⟨hI', hf, hp⟩ := step s e hI hes.1
    have hle : f (m.next s e) ≤ n := by
      rw [hf]
      cases hpe : p s e with
      | false => exact hs
      | true => exact hp hpe
    calc m.count p s (e :: es) + f s = m.count p (m.next s e) es + f (m.next s e) := by
          rw [hf, count]
          omega
      _ ≤ n := ih hI' hle hes.2

/-- An invariant of the steps whose events meet `P` holds after a run of such events. -/
theorem exec_invariant {I : σ → Prop} {P : ε → Prop} (step : ∀ s e, I s → m.enabled s e → P e → I (m.next s e))
    {s : σ} (hI : I s) {es : List ε} (hes : m.Along m.enabled s es) (hP : ∀ e ∈ es, P e) : I (m.exec s es) := by
  induction es generalizing s with
  | nil => exact hI
  | cons e es ih =>
    exact ih (step s e hI hes.1 (hP e List.mem_cons_self)) hes.2 fun e' he' => hP e' (List.mem_cons_of_mem e he')

/-- A number that goes down by one at the steps that meet `p`, and stays at the others. -/
theorem count_add_exec {I : σ → Prop} {f : σ → ℕ} {p : σ → ε → Bool}
    (step : ∀ s e, I s → m.enabled s e → I (m.next s e) ∧ f (m.next s e) + (p s e).toNat = f s)
    {s : σ} (hI : I s) {es : List ε} (hes : m.Along m.enabled s es) :
    m.count p s es + f (m.exec s es) = f s := by
  induction es generalizing s with
  | nil => exact Nat.zero_add _
  | cons e es ih =>
    obtain ⟨hI', hf⟩ := step s e hI hes.1
    rw [exec_cons, count, Nat.add_assoc, ih hI' hes.2, Nat.add_comm]
    exact hf

/-- Where the steps that meet `p` meet `q`, there are no more of them. -/
theorem count_le_count {I : σ → Prop} {p q : σ → ε → Bool}
    (step : ∀ s e, I s → m.enabled s e → I (m.next s e) ∧ (p s e = true → q s e = true))
    {s : σ} (hI : I s) {es : List ε} (hes : m.Along m.enabled s es) : m.count p s es ≤ m.count q s es := by
  induction es generalizing s with
  | nil => exact Nat.le_refl _
  | cons e es ih =>
    obtain ⟨hI', hpq⟩ := step s e hI hes.1
    refine Nat.add_le_add ?_ (ih hI' hes.2)
    cases hp : p s e with
    | false => exact Nat.zero_le _
    | true => exact Nat.le_of_eq (congrArg Bool.toNat (hpq hp)).symm

/-- Where, from the states that meet the invariant `I`, a step meets `P` exactly when it meets `P'`,
    and keeps `I` then, so do the runs. -/
theorem along_iff_along {I : σ → Prop} {P P' : σ → ε → Prop}
    (inv : ∀ s e, I s → m.enabled s e → P' s e → I (m.next s e))
    (step : ∀ s e, I s → m.enabled s e → (P s e ↔ P' s e)) {s : σ} (hI : I s) {es : List ε}
    (hes : m.Along m.enabled s es) : m.Along P s es ↔ m.Along P' s es := by
  induction es generalizing s with
  | nil => exact Iff.rfl
  | cons e es ih =>
    have hstep := step s e hI hes.1
    constructor
    · rintro ⟨hP, h⟩
      exact ⟨hstep.1 hP, (ih (inv s e hI hes.1 (hstep.1 hP)) hes.2).1 h⟩
    · rintro ⟨hP', h⟩
      exact ⟨hstep.2 hP', (ih (inv s e hI hes.1 hP') hes.2).2 h⟩

/-- Where, from the states that meet the invariant `I` and `Q`, a step keeps `Q`
    exactly when it meets `P`, and keeps `I` then, a run meets `Q` throughout exactly
    when all its steps meet `P`. -/
theorem always_iff_along {I Q : σ → Prop} {P : σ → ε → Prop}
    (inv : ∀ s e, I s → Q s → m.enabled s e → P s e → I (m.next s e))
    (step : ∀ s e, I s → Q s → m.enabled s e → (Q (m.next s e) ↔ P s e))
    {s : σ} (hI : I s) (hQ : Q s) {es : List ε} (hes : m.Along m.enabled s es) :
    m.Always Q s es ↔ m.Along P s es := by
  induction es generalizing s with
  | nil => exact ⟨fun _ => trivial, fun _ => hQ⟩
  | cons e es ih =>
    have hI' := inv s e hI hQ hes.1
    constructor
    · rintro ⟨-, h⟩
      have hP := (step s e hI hQ hes.1).1 h.head
      exact ⟨hP, (ih (hI' hP) h.head hes.2).1 h⟩
    · rintro ⟨hP, h⟩
      have hQ' := (step s e hI hQ hes.1).2 hP
      exact ⟨hQ, (ih (hI' hP) hQ' hes.2).2 h⟩

end Machine

end Ssp
