import Mathlib.Data.List.Induction
import Mathlib.Data.Option.Basic
import Mathlib.Logic.Function.Basic
import Mathlib.Tactic.SplitIfs

/-!
# What is recorded about each thing

Records about many things come in one after the other, each under the key of one of them. The
*trail* of a key is what was recorded under it. A `Course` says which record may come next, by the
stage that the earlier ones have reached.

Things have a status while they go on, and their stage is to be the one that goes with it
(`Affairs.Traced`). In a step, a thing begins, moves on, ends or is dropped; a step that drops
nothing has a record of what it does (`Affairs.Recording`), and keeps the records traced
(`Recording.traced`). They are *closed* if what does not go on any more is over in the records as
well. A step keeps this exactly if it drops nothing (`Recording.closed_iff`).

Who reads the records may miss some of them. What is made of them step by step still fits the stage
that has been reached, if this is so for one record (`Course.fits_of_heard`).
-/

namespace Ssp

/-- Which record may come next about a thing, and at which stages nothing more is to come. -/
structure Course (σ ρ : Type*) where
  start : σ
  step : σ → ρ → Option σ
  final : σ → Prop

/-- The records under a key. -/
def trail {ρ κ : Type*} [DecidableEq κ] (about : ρ → κ) (k : κ) (rs : List ρ) : List ρ :=
  rs.filter fun r => about r = k

namespace Course

variable {σ ρ κ : Type*} (C : Course σ ρ)

/-- The stage that records lead to: `none` if one of them came where it may not. -/
def stage (rs : List ρ) : Option σ := rs.foldlM C.step C.start

theorem stage_concat (rs : List ρ) (r : ρ) : C.stage (rs ++ [r]) = (C.stage rs).bind (C.step · r) := by
  rw [stage, List.foldlM_append]
  change (C.stage rs).bind (fun s => (C.step s r).bind some) = _
  exact congrArg _ (funext fun s => Option.bind_fun_some _)

variable [DecidableEq κ] {about : ρ → κ} {rs : List ρ} {r : ρ} {k : κ}

/-- A record counts for its own key. -/
theorem stage_trail_self (hk : about r = k) :
    C.stage (trail about k (rs ++ [r])) = (C.stage (trail about k rs)).bind (C.step · r) := by
  have hself : trail about k [r] = [r] := List.filter_cons_of_pos (decide_eq_true hk)
  rw [trail, List.filter_append]
  change C.stage (_ ++ trail about k [r]) = _
  rw [hself]
  exact C.stage_concat _ r

/-- It does not count for another one. -/
theorem stage_trail_of_ne (hk : about r ≠ k) :
    C.stage (trail about k (rs ++ [r])) = C.stage (trail about k rs) := by
  have hnone : trail about k [r] = [] := List.filter_cons_of_neg (ne_true_of_eq_false (decide_eq_false hk))
  rw [trail, List.filter_append]
  change C.stage (_ ++ trail about k [r]) = _
  rw [hnone, List.append_nil]
  rfl

/-- Records that no stage minds leave the stages alone. -/
theorem stage_trail_append {new : List ρ} (hnew : ∀ r ∈ new, ∀ s, C.step s r = some s) (k : κ) :
    C.stage (trail about k (rs ++ new)) = C.stage (trail about k rs) := by
  induction new generalizing rs with
  | nil => rw [List.append_nil]
  | cons r new ih =>
    rw [List.append_cons, ih fun r' hr' => hnew r' (List.mem_cons_of_mem r hr')]
    by_cases hk : about r = k
    · rw [C.stage_trail_self hk, funext (hnew r List.mem_cons_self)]
      exact Option.bind_fun_some _
    · exact C.stage_trail_of_ne hk

end Course

/-- Things `α` that go on, each with a status and a key, and what was recorded. -/
structure Affairs (α τ κ ρ : Type*) where
  status : α → Option τ
  key : α → Option κ
  records : List ρ

namespace Affairs

variable {α σ τ κ ρ : Type*} [DecidableEq κ]

/-- The things that go on keep their keys. -/
def Keeps (x x' : Affairs α τ κ ρ) : Prop :=
  ∀ a, x.status a ≠ none → x'.status a ≠ none → x'.key a = x.key a

section

variable (C : Course σ ρ) (about : ρ → κ) (place : τ → σ)

/-- The stage of a key. -/
def stage (x : Affairs α τ κ ρ) (k : κ) : Option σ := C.stage (trail about k x.records)

/-- Every record came where it may, and what goes on is at the stage of its status. -/
structure Traced (x : Affairs α τ κ ρ) : Prop where
  stage : ∀ k, x.stage C about k ≠ none
  place : ∀ a t k, x.status a = some t → x.key a = some k → x.stage C about k = some (place t)

/-- What was recorded of is over in the records, or goes on. -/
def Closed (x : Affairs α τ κ ρ) : Prop :=
  ∀ k s, x.stage C about k = some s → s = C.start ∨ C.final s ∨ ∃ a, x.status a ≠ none ∧ x.key a = some k

/-- Nothing that goes on has the key. -/
def Free (x : Affairs α τ κ ρ) (k : κ) : Prop := ∀ a, x.status a ≠ none → x.key a ≠ some k

/-- Nothing else that goes on has the key of `a`. -/
def Sole (x : Affairs α τ κ ρ) (a : α) : Prop := ∀ b, x.status b ≠ none → x.key b = x.key a → b = a

end

section

variable {C : Course σ ρ} {about : ρ → κ} {place : τ → σ} {x x' : Affairs α τ κ ρ}

/-- A record moves the stage of its key on, and that of no other key. -/
theorem stage_next {r : ρ} {s : σ} (hrecords : x'.records = x.records ++ [r])
    (hs : x.stage C about (about r) = some s) (k : κ) :
    x'.stage C about k = if about r = k then C.step s r else x.stage C about k := by
  rw [stage, hrecords]
  split_ifs with hk
  · subst hk
    rw [C.stage_trail_self rfl]
    change (x.stage C about (about r)).bind _ = _
    rw [hs, Option.bind_some]
  · exact C.stage_trail_of_ne hk

/-- One lemma for all steps with a record that counts. -/
theorem Traced.of_record (h : Traced C about place x) {r : ρ} {s s' : σ} (hrecords : x'.records = x.records ++ [r])
    (hs : x.stage C about (about r) = some s) (hs' : C.step s r = some s')
    (hlive : ∀ a t k, x'.status a = some t → x'.key a = some k →
      (about r = k ∧ s' = place t) ∨ (about r ≠ k ∧ x.status a = some t ∧ x.key a = some k)) :
    Traced C about place x' := by
  have hnext := stage_next hrecords hs
  refine ⟨fun k => ?_, fun a t k ha hk => ?_⟩
  · rw [hnext]
    split_ifs
    · rw [hs']
      exact Option.some_ne_none s'
    · exact h.stage k
  · rw [hnext]
    rcases hlive a t k ha hk with ⟨heq, rfl⟩ | ⟨hne, ha, hk⟩
    · rw [if_pos heq, hs']
    · rw [if_neg hne]
      exact h.place a t k ha hk

/-- The same for what is closed. -/
theorem Closed.of_record (h : Closed C about x) {r : ρ} {s s' : σ} (hrecords : x'.records = x.records ++ [r])
    (hs : x.stage C about (about r) = some s) (hs' : C.step s r = some s')
    (hself : C.final s' ∨ ∃ a, x'.status a ≠ none ∧ x'.key a = some (about r))
    (hother : ∀ a k, about r ≠ k → x.status a ≠ none → x.key a = some k → x'.status a ≠ none ∧ x'.key a = some k) :
    Closed C about x' := by
  intro k s₁ hs₁
  rw [stage_next hrecords hs] at hs₁
  split_ifs at hs₁ with hk
  · obtain rfl := Option.some_inj.1 (hs'.symm.trans hs₁)
    exact .inr (hk ▸ hself)
  · rcases h k s₁ hs₁ with hstart | hfinal | ⟨a, ha, hka⟩
    · exact .inl hstart
    · exact .inr (.inl hfinal)
    · exact .inr (.inr ⟨a, hother a k hk ha hka⟩)

end

/-! ## Steps -/

variable [DecidableEq α]

/-- A step. `Told` says whether there is a record of what ends. -/
inductive Recording (C : Course σ ρ) (about : ρ → κ) (place : τ → σ) (Told : Prop) (x x' : Affairs α τ κ ρ) : Prop
  /-- Nothing begins, moves on or ends. -/
  | same (new : List ρ) (h : Told) (hstatus : x'.status = x.status) (hkeys : x.Keeps x')
      (hnew : ∀ r ∈ new, ∀ s, C.step s r = some s) (hrecords : x'.records = x.records ++ new)
  /-- A record about something that does not even begin. -/
  | filed (r : ρ) (s : σ) (h : Told) (hstart : x.stage C about (about r) = some C.start) (hfree : x.Free (about r))
      (hs : C.step C.start r = some s) (hfinal : C.final s) (hstatus : x'.status = x.status) (hkeys : x.Keeps x')
      (hrecords : x'.records = x.records ++ [r])
  /-- Something begins. -/
  | began (a : α) (t : τ) (r : ρ) (h : Told) (hstart : x.stage C about (about r) = some C.start)
      (hfree : x.Free (about r)) (hs : C.step C.start r = some (place t)) (ha : x.status a = none)
      (hstatus : x'.status = Function.update x.status a (some t)) (hk : x'.key a = some (about r))
      (hkeys : x.Keeps x') (hrecords : x'.records = x.records ++ [r])
  /-- Something moves on. -/
  | moved (a : α) (t t' : τ) (r : ρ) (h : Told) (ha : x.status a = some t) (hk : x.key a = some (about r))
      (hsole : x.Sole a) (hs : C.step (place t) r = some (place t'))
      (hstatus : x'.status = Function.update x.status a (some t')) (hkeys : x.Keeps x')
      (hrecords : x'.records = x.records ++ [r])
  /-- Something ends. -/
  | ended (a : α) (t : τ) (r : ρ) (s : σ) (h : Told) (ha : x.status a = some t) (hk : x.key a = some (about r))
      (hsole : x.Sole a) (hs : C.step (place t) r = some s) (hfinal : C.final s)
      (hstatus : x'.status = Function.update x.status a none) (hkeys : x.Keeps x')
      (hrecords : x'.records = x.records ++ [r])
  /-- Something is dropped, and there is no record of it. -/
  | dropped (a : α) (t : τ) (k : κ) (h : ¬Told) (ha : x.status a = some t) (hk : x.key a = some k) (hsole : x.Sole a)
      (hstatus : x'.status = Function.update x.status a none) (hkeys : x.Keeps x') (hrecords : x'.records = x.records)

section

variable {C : Course σ ρ} {about : ρ → κ} {place : τ → σ} {x x' : Affairs α τ κ ρ} {Told : Prop}

omit [DecidableEq κ] in
/-- What goes on besides `a` has another key, and goes on as before. -/
theorem Sole.other {a b : α} {t' : Option τ} {t : τ} {k k' : κ} (hsole : x.Sole a) (hk : x.key a = some k)
    (hstatus : x'.status = Function.update x.status a t') (hkeys : x.Keeps x') (hne : b ≠ a)
    (hb : x'.status b = some t) (hk' : x'.key b = some k') : k ≠ k' ∧ x.status b = some t ∧ x.key b = some k' := by
  have hb₀ : x.status b = some t := by
    rw [← hb, hstatus, Function.update_of_ne hne]
  have hk₀ : x.key b = some k' := by
    rw [← hk', hkeys b (hb₀ ▸ Option.some_ne_none t) (hb ▸ Option.some_ne_none t)]
  refine ⟨?_, hb₀, hk₀⟩
  rintro rfl
  exact hne (hsole b (hb₀ ▸ Option.some_ne_none t) (hk₀.trans hk.symm))

/-- **A step keeps the records traced.** -/
theorem Recording.traced (hstep : Recording C about place Told x x') (h : Traced C about place x) :
    Traced C about place x' := by
  cases hstep with
  | same new _ hstatus hkeys hnew hrecords =>
    have hstage : ∀ k, x'.stage C about k = x.stage C about k := by
      intro k
      rw [stage, hrecords]
      exact C.stage_trail_append hnew k
    refine ⟨fun k => hstage k ▸ h.stage k, fun a t k ha hk => ?_⟩
    have ha₀ : x.status a = some t := hstatus ▸ ha
    rw [hkeys a (ha₀ ▸ Option.some_ne_none t) (ha ▸ Option.some_ne_none t)] at hk
    rw [hstage]
    exact h.place a t k ha₀ hk
  | filed r s _ hstart hfree hs _ hstatus hkeys hrecords =>
    refine h.of_record hrecords hstart hs fun a t k ha hk => .inr ?_
    have ha₀ : x.status a = some t := hstatus ▸ ha
    rw [hkeys a (ha₀ ▸ Option.some_ne_none t) (ha ▸ Option.some_ne_none t)] at hk
    refine ⟨?_, ha₀, hk⟩
    rintro rfl
    exact hfree a (ha₀ ▸ Option.some_ne_none t) hk
  | began a t r _ hstart hfree hs ha hstatus hk hkeys hrecords =>
    refine h.of_record hrecords hstart hs fun b t' k hb hk' => ?_
    by_cases heq : b = a
    · subst heq
      rw [hstatus, Function.update_self] at hb
      obtain rfl := Option.some_inj.1 hb
      exact .inl ⟨Option.some_inj.1 (hk.symm.trans hk'), rfl⟩
    · have hb₀ : x.status b = some t' := by
        rw [← hb, hstatus, Function.update_of_ne heq]
      rw [hkeys b (hb₀ ▸ Option.some_ne_none t') (hb ▸ Option.some_ne_none t')] at hk'
      refine .inr ⟨?_, hb₀, hk'⟩
      rintro rfl
      exact hfree b (hb₀ ▸ Option.some_ne_none t') hk'
  | moved a t t' r _ ha hk hsole hs hstatus hkeys hrecords =>
    refine h.of_record hrecords (h.place a t _ ha hk) hs fun b t₁ k hb hk' => ?_
    by_cases heq : b = a
    · subst heq
      have hne : x'.status b ≠ none := hb ▸ Option.some_ne_none t₁
      rw [hkeys b (ha ▸ Option.some_ne_none t) hne] at hk'
      rw [hstatus, Function.update_self] at hb
      obtain rfl := Option.some_inj.1 hb
      exact .inl ⟨Option.some_inj.1 (hk.symm.trans hk'), rfl⟩
    · exact .inr (hsole.other hk hstatus hkeys heq hb hk')
  | ended a t r s _ ha hk hsole hs _ hstatus hkeys hrecords =>
    refine h.of_record hrecords (h.place a t _ ha hk) hs fun b t₁ k hb hk' => .inr ?_
    refine hsole.other hk hstatus hkeys ?_ hb hk'
    rintro rfl
    rw [hstatus, Function.update_self] at hb
    cases hb
  | dropped a t k _ ha hk hsole hstatus hkeys hrecords =>
    have hstage : ∀ k, x'.stage C about k = x.stage C about k := fun k =>
      congrArg (fun rs => C.stage (trail about k rs)) hrecords
    refine ⟨fun k => hstage k ▸ h.stage k, fun b t₁ k' hb hk' => ?_⟩
    have hne : b ≠ a := by
      rintro rfl
      rw [hstatus, Function.update_self] at hb
      cases hb
    obtain ⟨-, hb₀, hk₀⟩ := hsole.other hk hstatus hkeys hne hb hk'
    rw [hstage]
    exact h.place b t₁ k' hb₀ hk₀

/-- **A step keeps the records closed exactly if it drops nothing.** -/
theorem Recording.closed_iff (hplace : ∀ t, place t ≠ C.start ∧ ¬C.final (place t))
    (hstep : Recording C about place Told x x') (h : Traced C about place x) (hclosed : Closed C about x) :
    Closed C about x' ↔ Told := by
  -- What goes on besides `a` still does.
  have hother : ∀ {a : α} {t : Option τ} {b : α} {k : κ}, x'.status = Function.update x.status a t → x.Keeps x' →
      b ≠ a → x.status b ≠ none → x.key b = some k → x'.status b ≠ none ∧ x'.key b = some k := by
    intro a t b k hstatus hkeys hne hb hk
    have hb' : x'.status b ≠ none := by
      rwa [hstatus, Function.update_of_ne hne]
    exact ⟨hb', (hkeys b hb hb').trans hk⟩
  have hsame : ∀ {b : α} {k : κ}, x'.status = x.status → x.Keeps x' → x.status b ≠ none → x.key b = some k →
      x'.status b ≠ none ∧ x'.key b = some k := by
    intro b k hstatus hkeys hb hk
    have hb' : x'.status b ≠ none := hstatus ▸ hb
    exact ⟨hb', (hkeys b hb hb').trans hk⟩
  cases hstep with
  | same new htold hstatus hkeys hnew hrecords =>
    refine iff_of_true (fun k s hs => ?_) htold
    rw [stage, hrecords, C.stage_trail_append hnew] at hs
    exact (hclosed k s hs).imp_right (Or.imp_right fun ⟨b, hb, hk⟩ => ⟨b, hsame hstatus hkeys hb hk⟩)
  | filed r s htold hstart hfree hs hfinal hstatus hkeys hrecords =>
    exact iff_of_true (hclosed.of_record hrecords hstart hs (.inl hfinal) fun _ _ _ hb hk =>
      hsame hstatus hkeys hb hk) htold
  | began a t r htold hstart hfree hs ha hstatus hk hkeys hrecords =>
    refine iff_of_true (hclosed.of_record hrecords hstart hs (.inr ⟨a, ?_, hk⟩) fun b k _ hb hkb => ?_) htold
    · rw [hstatus, Function.update_self]
      exact Option.some_ne_none t
    · refine hother hstatus hkeys ?_ hb hkb
      rintro rfl
      exact hb ha
  | moved a t t' r htold ha hk hsole hs hstatus hkeys hrecords =>
    have ha' : x'.status a ≠ none := by
      rw [hstatus, Function.update_self]
      exact Option.some_ne_none t'
    have hk' : x'.key a = some (about r) := (hkeys a (ha ▸ Option.some_ne_none t) ha').trans hk
    refine iff_of_true (hclosed.of_record hrecords (h.place a t _ ha hk) hs (.inr ⟨a, ha', hk'⟩) ?_) htold
    intro b k hne hb hkb
    refine hother hstatus hkeys ?_ hb hkb
    rintro rfl
    exact hne (Option.some_inj.1 (hk.symm.trans hkb))
  | ended a t r s htold ha hk hsole hs hfinal hstatus hkeys hrecords =>
    refine iff_of_true (hclosed.of_record hrecords (h.place a t _ ha hk) hs (.inl hfinal) ?_) htold
    intro b k hne hb hkb
    refine hother hstatus hkeys ?_ hb hkb
    rintro rfl
    exact hne (Option.some_inj.1 (hk.symm.trans hkb))
  | dropped a t k htold ha hk hsole hstatus hkeys hrecords =>
    refine iff_of_false (fun hclosed' => ?_) htold
    -- Its stage is that of something that goes on.
    have hstage : x'.stage C about k = some (place t) := by
      rw [stage, hrecords]
      exact h.place a t k ha hk
    rcases hclosed' k _ hstage with hstart | hfinal | ⟨b, hb, hkb⟩
    · exact (hplace t).1 hstart
    · exact (hplace t).2 hfinal
    · obtain ⟨t', ht'⟩ := Option.ne_none_iff_exists'.1 hb
      have hne : b ≠ a := by
        rintro rfl
        rw [hstatus, Function.update_self] at ht'
        cases ht'
      exact (hsole.other hk hstatus hkeys hne ht' hkb).1 rfl

end

end Affairs

/-! ## Readers -/

/-- Records that come in as time goes by; `holds t r` is what is known of one that comes in at the
    time `t`. -/
inductive Dated {τ ρ : Type*} [LE τ] (holds : τ → ρ → Prop) : τ → List ρ → Prop
  | nil (t : τ) : Dated holds t []
  | later {t t' : τ} {rs : List ρ} (h : Dated holds t rs) (hle : t ≤ t') : Dated holds t' rs
  | concat {t : τ} {rs : List ρ} {r : ρ} (h : Dated holds t rs) (hr : holds t r) : Dated holds t (rs ++ [r])

/-- What a reader hears of the records: all of them, or only some if they may get lost. -/
inductive Heard {ρ : Type*} (lossy : Prop) : List ρ → List ρ → Prop
  | nil : Heard lossy [] []
  | heard {rs ws : List ρ} (r : ρ) (h : Heard lossy rs ws) : Heard lossy (rs ++ [r]) (ws ++ [r])
  | missed {rs ws : List ρ} (r : ρ) (hlossy : lossy) (h : Heard lossy rs ws) : Heard lossy (rs ++ [r]) ws

section

variable {σ τ υ κ ρ : Type*} {lossy : Prop} {rs ws : List ρ} {r : ρ}

theorem Dated.append [LE τ] {holds : τ → ρ → Prop} {t : τ} {new : List ρ} (h : Dated holds t rs)
    (hnew : ∀ r ∈ new, holds t r) : Dated holds t (rs ++ new) := by
  induction new generalizing rs with
  | nil => rwa [List.append_nil]
  | cons r new ih =>
    rw [List.append_cons]
    exact ih (h.concat (hnew r List.mem_cons_self)) fun r' hr' => hnew r' (List.mem_cons_of_mem r hr')

/-- What is missed at the end. -/
theorem Heard.append (hlossy : lossy) (h : Heard lossy rs ws) (new : List ρ) : Heard lossy (rs ++ new) ws := by
  induction new generalizing rs with
  | nil => rwa [List.append_nil]
  | cons r new ih =>
    rw [List.append_cons]
    exact ih (h.missed r hlossy)

theorem Heard.refl (lossy : Prop) (rs : List ρ) : Heard lossy rs rs := by
  induction rs using List.reverseRecOn with
  | nil => exact .nil
  | append_singleton rs r ih => exact ih.heard r

/-- The last record was heard or missed. -/
theorem Heard.cases_concat (h : Heard lossy (rs ++ [r]) ws) :
    (∃ ws', ws = ws' ++ [r] ∧ Heard lossy rs ws') ∨ lossy ∧ Heard lossy rs ws := by
  generalize hrs : rs ++ [r] = rs' at h
  cases h with
  | nil => exact absurd hrs (by simp)
  | heard r' h =>
    obtain ⟨rfl, hr⟩ := List.append_inj' hrs rfl
    obtain rfl := List.singleton_inj.1 hr
    exact .inl ⟨_, rfl, h⟩
  | missed r' hlossy h =>
    obtain ⟨rfl, -⟩ := List.append_inj' hrs rfl
    exact .inr ⟨hlossy, h⟩

variable [DecidableEq κ] {about : ρ → κ} {k : κ}

theorem trail_cons_self (hk : about r = k) (rs : List ρ) : trail about k (r :: rs) = r :: trail about k rs := by
  simp [trail, hk]

theorem trail_cons_of_ne (hk : about r ≠ k) (rs : List ρ) : trail about k (r :: rs) = trail about k rs := by
  simp [trail, hk]

theorem trail_concat_self (hk : about r = k) (rs : List ρ) : trail about k (rs ++ [r]) = trail about k rs ++ [r] := by
  rw [trail, List.filter_append]
  exact congrArg _ (List.filter_cons_of_pos (decide_eq_true hk))

theorem trail_concat_of_ne (hk : about r ≠ k) (rs : List ρ) : trail about k (rs ++ [r]) = trail about k rs := by
  have hnone : [r].filter (fun r => decide (about r = k)) = [] := List.filter_cons_of_neg (by simpa using hk)
  rw [trail, List.filter_append, hnone, List.append_nil]
  rfl

/-- **What a reader makes of the records fits them**: `Fits t tr s v` is to hold of the stage `s`
    that the trail `tr` of a key has reached at the time `t`, and of what the reader has made of the
    part of it that it has heard. It is enough that every record keeps this, heard or missed. -/
theorem Course.fits_of_heard [LE τ] (C : Course σ ρ) (Fits : τ → List ρ → σ → υ → Prop)
    {holds : τ → ρ → Prop} {see : υ → ρ → υ} {v₀ : υ} (hstart : ∀ t, Fits t [] C.start v₀)
    (hlater : ∀ {t t' tr s v}, t ≤ t' → Fits t tr s v → Fits t' tr s v)
    (hheard : ∀ {t tr s v r s'}, Fits t tr s v → about r = k → C.step s r = some s' → holds t r →
      Fits t (tr ++ [r]) s' (see v r))
    (hmissed : lossy → ∀ {t tr s v r s'}, Fits t tr s v → about r = k → C.step s r = some s' → holds t r →
      Fits t (tr ++ [r]) s' v)
    {t : τ} (hdated : Dated holds t rs) (h : Heard lossy rs ws) {s : σ} (hs : C.stage (trail about k rs) = some s) :
    Fits t (trail about k rs) s ((trail about k ws).foldl see v₀) := by
  induction hdated generalizing ws s with
  | nil t =>
    obtain rfl : C.start = s := Option.some_inj.1 hs
    generalize hrs : ([] : List ρ) = rs at h
    cases h with
    | nil => exact hstart t
    | heard r h => exact absurd hrs.symm (by simp)
    | missed r hlossy h => exact absurd hrs.symm (by simp)
  | later hdated hle ih => exact hlater hle (ih h hs)
  | @concat t rs r hdated hr ih =>
    by_cases hk : about r = k
    · rw [C.stage_trail_self hk] at hs
      obtain ⟨s₀, hs₀, hs⟩ := Option.bind_eq_some_iff.1 hs
      rw [trail_concat_self hk]
      rcases h.cases_concat with ⟨ws', rfl, h'⟩ | ⟨hlossy, h'⟩
      · rw [trail_concat_self hk, List.foldl_append]
        exact hheard (ih h' hs₀) hk hs hr
      · exact hmissed hlossy (ih h' hs₀) hk hs hr
    · rw [C.stage_trail_of_ne hk] at hs
      rw [trail_concat_of_ne hk]
      rcases h.cases_concat with ⟨ws', rfl, h'⟩ | ⟨-, h'⟩
      · rw [trail_concat_of_ne hk]
        exact ih h' hs
      · exact ih h' hs

end

end Ssp
