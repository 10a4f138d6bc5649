import Mathlib.Data.List.Nodup
import Mathlib.Data.List.Perm.Subperm
import Mathlib.Data.Option.Basic
import Mathlib.Logic.Function.Basic
import Mathlib.Tactic.SplitIfs

/-!
# What goes on, and the entries about it

Things begin, may be under way after a while, and are over. A ledger has, next to them, a list
of entries, each under the key of one thing, that say whether it has started and whether it
has ended. Entries are added, and changed by their keys; none is ever removed.

A ledger is *right* if its standing entries, those that say of something that it has started and
not ended, are about things that are under way. Then there are as many of them
(`Valid.right_iff_count`). `Step.right_iff`: a step keeps this exactly if it does not drop
something that is under way without telling the entries.
-/

namespace Ssp

/-- What is known of a thing under its key. -/
@[ext]
structure Entry (κ : Type*) where
  key : κ
  started : Bool
  ended : Bool

/-- The entry says of something that it is under way. -/
def Entry.standing {κ : Type*} (e : Entry κ) : Bool := e.started && !e.ended

/-- Things `α` with keys `κ`. The status of a thing is `none` before it begins and after it is
    over, and says in between whether it is under way. -/
structure Ledger (α κ : Type*) where
  status : α → Option Bool
  key : α → Option κ
  entries : List (Entry κ)

namespace Ledger

variable {α κ : Type*}

/-- The standing entries are about things that are under way. -/
def Right (l : Ledger α κ) : Prop :=
  ∀ e ∈ l.entries, e.standing = true → ∃ a, l.status a = some true ∧ l.key a = some e.key

/-- Every thing has its entry, and no two of them have the same key. -/
structure Valid (l : Ledger α κ) : Prop where
  nodup : (l.entries.map (·.key)).Nodup
  entry : ∀ a b, l.status a = some b → ∃ k, l.key a = some k ∧ ⟨k, b, false⟩ ∈ l.entries
  inj : ∀ a a', l.status a ≠ none → l.status a' ≠ none → l.key a = l.key a' → a = a'

/-- The things that go on keep their keys. -/
def Keeps (l l' : Ledger α κ) : Prop :=
  ∀ a, l.status a ≠ none → l'.status a ≠ none → l'.key a = l.key a

section

variable {l : Ledger α κ}

/-- What is under way has a standing entry. -/
theorem Valid.standing (h : l.Valid) {a : α} (ha : l.status a = some true) :
    ∃ e ∈ l.entries, e.standing = true ∧ l.key a = some e.key := by
  obtain ⟨k, hk, hmem⟩ := h.entry a true ha
  exact ⟨_, hmem, rfl, hk⟩

/-- **A ledger is right exactly if the numbers agree**, of its standing entries and of what is
    under way. -/
theorem Valid.right_iff_count (h : l.Valid) {as : List α} (hnodup : as.Nodup)
    (has : ∀ a, a ∈ as ↔ l.status a = some true) :
    l.Right ↔ l.entries.countP Entry.standing = as.length := by
  have hkeys : ((l.entries.filter Entry.standing).map fun e => some e.key).Nodup := by
    have hsublist : ((l.entries.filter Entry.standing).map (·.key)).Sublist (l.entries.map (·.key)) :=
      List.filter_sublist.map _
    have hsome := (h.nodup.sublist hsublist).map (Option.some_injective κ)
    rwa [List.map_map] at hsome
  have hunder : (as.map l.key).Nodup := by
    refine List.Nodup.map_on (fun a ha a' ha' heq => h.inj a a' ?_ ?_ heq) hnodup
    · rw [(has a).1 ha]
      exact Option.some_ne_none _
    · rw [(has a').1 ha']
      exact Option.some_ne_none _
  have hsub : as.map l.key ⊆ (l.entries.filter Entry.standing).map fun e => some e.key := by
    intro k hk
    obtain ⟨a, ha, rfl⟩ := List.mem_map.1 hk
    obtain ⟨e, he, hstanding, hkey⟩ := h.standing ((has a).1 ha)
    exact List.mem_map.2 ⟨e, List.mem_filter.2 ⟨he, hstanding⟩, hkey.symm⟩
  have hsubperm := hunder.subperm hsub
  rw [List.countP_eq_length_filter]
  constructor
  · intro hright
    -- Each way, one list is in the other.
    have hsub' : ((l.entries.filter Entry.standing).map fun e => some e.key) ⊆ as.map l.key := by
      intro k hk
      obtain ⟨e, he, rfl⟩ := List.mem_map.1 hk
      obtain ⟨he, hstanding⟩ := List.mem_filter.1 he
      obtain ⟨a, ha, hkey⟩ := hright e he hstanding
      exact List.mem_map.2 ⟨a, (has a).2 ha, hkey⟩
    have hperm := hsubperm.antisymm (hkeys.subperm hsub')
    simpa using hperm.length_eq.symm
  · intro hcount e he hstanding
    have hperm := hsubperm.perm_of_length_le (by simp [hcount])
    have hmem : some e.key ∈ as.map l.key :=
      hperm.mem_iff.2 (List.mem_map.2 ⟨e, List.mem_filter.2 ⟨he, hstanding⟩, rfl⟩)
    obtain ⟨a, ha, hkey⟩ := List.mem_map.1 hmem
    exact ⟨a, (has a).1 ha, hkey⟩

end

/-! ## Changes of the entries -/

section

variable [DecidableEq κ]

/-- The entry under a key changes. -/
def change (entries : List (Entry κ)) (k : κ) (f : Entry κ → Entry κ) : List (Entry κ) :=
  entries.map fun e => if e.key = k then f e else e

variable {entries : List (Entry κ)} {k : κ} {f : Entry κ → Entry κ}

theorem map_key_change (hf : ∀ e, (f e).key = e.key) :
    (change entries k f).map (·.key) = entries.map (·.key) := by
  rw [change, List.map_map]
  refine List.map_congr_left fun e _ => ?_
  dsimp only [Function.comp_apply]
  split_ifs
  · exact hf e
  · rfl

/-- An entry is a changed one, or one under another key. -/
theorem mem_change {e' : Entry κ} :
    e' ∈ change entries k f ↔
      (∃ e ∈ entries, e.key = k ∧ e' = f e) ∨ e' ∈ entries ∧ e'.key ≠ k := by
  rw [change, List.mem_map]
  constructor
  · rintro ⟨e, he, rfl⟩
    split_ifs with hk
    · exact .inl ⟨e, he, hk, rfl⟩
    · exact .inr ⟨he, hk⟩
  · rintro (⟨e, he, hk, rfl⟩ | ⟨he, hk⟩)
    · exact ⟨e, he, if_pos hk⟩
    · exact ⟨e', he, if_neg hk⟩

end

/-! ## What stays valid -/
section

variable {l l' : Ledger α κ} {a : α} {k : κ}

/-- What goes on and is not changed keeps its entry. -/
theorem Valid.entry_of_keeps (h : l.Valid) (hkeys : l.Keeps l') {b : Bool} (hb : l.status a = some b)
    (hb' : l'.status a = some b) : ∃ k, l.key a = some k ∧ l'.key a = some k ∧ ⟨k, b, false⟩ ∈ l.entries := by
  obtain ⟨k, hk, hmem⟩ := h.entry a b hb
  refine ⟨k, hk, ?_, hmem⟩
  rw [hkeys a (hb ▸ Option.some_ne_none b) (hb' ▸ Option.some_ne_none b), hk]

/-- Where nothing begins, the keys stay different. -/
theorem Valid.inj_of_keeps (h : l.Valid) (hkeys : l.Keeps l') (hold : ∀ x, l'.status x ≠ none → l.status x ≠ none)
    {x x' : α} (hx : l'.status x ≠ none) (hx' : l'.status x' ≠ none) (heq : l'.key x = l'.key x') : x = x' := by
  rw [hkeys x (hold x hx) hx, hkeys x' (hold x' hx') hx'] at heq
  exact h.inj x x' (hold x hx) (hold x' hx') heq

/-- A new entry is the only one under its key. -/
theorem Valid.nodup_append (h : l.Valid) {e : Entry κ} (hnew : ∀ e' ∈ l.entries, e'.key ≠ e.key) :
    ((l.entries ++ [e]).map (·.key)).Nodup := by
  rw [List.map_append]
  refine h.nodup.append (List.nodup_singleton _) fun k hk hk' => ?_
  obtain ⟨e', he', rfl⟩ := List.mem_map.1 hk
  exact hnew e' he' (List.mem_singleton.1 hk')

/-- Nothing begins or ends. -/
theorem Valid.same (h : l.Valid) (hstatus : l'.status = l.status) (hkeys : l.Keeps l')
    (hentries : ∀ e ∈ l.entries, e ∈ l'.entries) (hnodup : (l'.entries.map (·.key)).Nodup) : l'.Valid := by
  refine ⟨hnodup, fun x b hx => ?_, fun x x' hx hx' => h.inj_of_keeps hkeys (fun x => hstatus ▸ id) hx hx'⟩
  obtain ⟨k, -, hk, hmem⟩ := h.entry_of_keeps hkeys (hstatus ▸ hx) hx
  exact ⟨k, hk, hentries _ hmem⟩

variable [DecidableEq α]

/-- Something begins, under a new key. -/
theorem Valid.began (h : l.Valid) (hnew : ∀ e ∈ l.entries, e.key ≠ k)
    (hstatus : l'.status = Function.update l.status a (some false)) (hk : l'.key a = some k)
    (hkeys : l.Keeps l') (hentries : l'.entries = l.entries ++ [⟨k, false, false⟩]) : l'.Valid := by
  have hold : ∀ x ≠ a, l'.status x = l.status x := fun x hne => by
    rw [hstatus, Function.update_of_ne hne]
  have hne : ∀ x ≠ a, l'.status x ≠ none → l'.key x ≠ some k := by
    intro x hne hx heq
    obtain ⟨b, hb⟩ := Option.ne_none_iff_exists'.1 hx
    obtain ⟨k', -, hk', hmem⟩ := h.entry_of_keeps hkeys (hold x hne ▸ hb) hb
    exact hnew _ hmem (Option.some_inj.1 (hk'.symm.trans heq))
  refine ⟨hentries ▸ h.nodup_append hnew, fun x b hx => ?_, fun x x' hx hx' heq => ?_⟩
  · rw [hentries]
    by_cases heq : x = a
    · rw [hstatus, heq, Function.update_self] at hx
      obtain rfl := Option.some_inj.1 hx
      exact ⟨k, heq ▸ hk, List.mem_append_right _ (List.mem_singleton_self _)⟩
    · obtain ⟨k', -, hk', hmem⟩ := h.entry_of_keeps hkeys (hold x heq ▸ hx) hx
      exact ⟨k', hk', List.mem_append_left _ hmem⟩
  · by_cases hxa : x = a <;> by_cases hxa' : x' = a
    · exact hxa.trans hxa'.symm
    · exact absurd (heq.symm.trans (hxa ▸ hk)) (hne x' hxa' hx')
    · exact absurd (heq.trans (hxa' ▸ hk)) (hne x hxa hx)
    · have hx₀ : l.status x ≠ none := hold x hxa ▸ hx
      have hx₀' : l.status x' ≠ none := hold x' hxa' ▸ hx'
      rw [hkeys x hx₀ hx, hkeys x' hx₀' hx'] at heq
      exact h.inj x x' hx₀ hx₀' heq

variable [DecidableEq κ]

/-- The status of something changes, and its entry with it. -/
theorem Valid.change {b' : Option Bool} {f : Entry κ → Entry κ} (h : l.Valid) (ha : l.status a ≠ none)
    (hk : l.key a = some k) (hf : ∀ e, (f e).key = e.key) (hb' : ∀ b ∈ b', ∀ e, f e = ⟨e.key, b, false⟩)
    (hstatus : l'.status = Function.update l.status a b') (hkeys : l.Keeps l')
    (hentries : l'.entries = Ledger.change l.entries k f) : l'.Valid := by
  have hold : ∀ x, l'.status x ≠ none → l.status x ≠ none := by
    intro x hx
    by_cases heq : x = a
    · exact heq ▸ ha
    · rwa [hstatus, Function.update_of_ne heq] at hx
  refine ⟨?_, fun x b hx => ?_, fun x x' hx hx' => h.inj_of_keeps hkeys hold hx hx'⟩
  · rw [hentries, map_key_change hf]
    exact h.nodup
  · rw [hentries]
    by_cases heq : x = a
    · subst heq
      have hb : b' = some b := by
        rw [← hx, hstatus, Function.update_self]
      obtain ⟨b₀, hb₀⟩ := Option.ne_none_iff_exists'.1 ha
      obtain ⟨k', hk', hmem⟩ := h.entry x b₀ hb₀
      obtain rfl : k' = k := Option.some_inj.1 (hk'.symm.trans hk)
      refine ⟨k', ?_, mem_change.2 (.inl ⟨_, hmem, rfl, (hb' b hb ⟨k', b₀, false⟩).symm⟩)⟩
      rw [hkeys x ha (hx ▸ Option.some_ne_none b), hk]
    · have hx₀ : l.status x = some b := by
        rw [← hx, hstatus, Function.update_of_ne heq]
      obtain ⟨k', hk', hk'', hmem⟩ := h.entry_of_keeps hkeys hx₀ hx
      refine ⟨k', hk'', mem_change.2 (.inr ⟨hmem, ?_⟩)⟩
      -- Another thing has another key.
      rintro rfl
      exact heq (h.inj x a (hx₀ ▸ Option.some_ne_none b) ha (hk'.trans hk.symm))

end

/-! ## Steps -/

variable [DecidableEq α] [DecidableEq κ]

/-- A step of a ledger. `Told` says whether the entries are told of what is over. -/
inductive Step (Told : Prop) (l l' : Ledger α κ) : Prop
  /-- Nothing begins or ends. -/
  | same (h : Told) (hstatus : l'.status = l.status) (hkeys : l.Keeps l') (hentries : l'.entries = l.entries)
  /-- An entry about something that does not even begin. -/
  | filed (e : Entry κ) (h : Told) (hnew : ∀ e' ∈ l.entries, e'.key ≠ e.key) (he : e.started = false)
      (hstatus : l'.status = l.status) (hkeys : l.Keeps l') (hentries : l'.entries = l.entries ++ [e])
  /-- Something begins. -/
  | began (a : α) (k : κ) (h : Told) (hnew : ∀ e ∈ l.entries, e.key ≠ k) (ha : l.status a = none)
      (hstatus : l'.status = Function.update l.status a (some false)) (hk : l'.key a = some k)
      (hkeys : l.Keeps l') (hentries : l'.entries = l.entries ++ [⟨k, false, false⟩])
  /-- Something gets under way. -/
  | started (a : α) (k : κ) (h : Told) (ha : l.status a ≠ none) (hk : l.key a = some k)
      (hstatus : l'.status = Function.update l.status a (some true)) (hkeys : l.Keeps l')
      (hentries : l'.entries = change l.entries k fun e => { e with started := true, ended := false })
  /-- Something is over. -/
  | ended (a : α) (k : κ) (f : Entry κ → Entry κ) (h : Told) (ha : l.status a ≠ none) (hk : l.key a = some k)
      (hf : ∀ e, (f e).key = e.key ∧ (f e).ended = true)
      (hstatus : l'.status = Function.update l.status a none) (hkeys : l.Keeps l')
      (hentries : l'.entries = change l.entries k f)
  /-- Something that is under way is dropped. -/
  | dropped (a : α) (h : ¬Told) (ha : l.status a = some true)
      (hstatus : l'.status = Function.update l.status a none) (hkeys : l.Keeps l')
      (hentries : l'.entries = l.entries)

section

variable {Told : Prop} {l l' : Ledger α κ}

theorem Step.valid (hstep : Step Told l l') (h : l.Valid) : l'.Valid := by
  cases hstep with
  | same _ hstatus hkeys hentries => exact h.same hstatus hkeys (fun _ => hentries ▸ id) (hentries ▸ h.nodup)
  | filed e _ hnew _ hstatus hkeys hentries =>
    exact h.same hstatus hkeys (fun _ he => hentries ▸ List.mem_append_left _ he) (hentries ▸ h.nodup_append hnew)
  | began a k _ hnew _ hstatus hk hkeys hentries => exact h.began hnew hstatus hk hkeys hentries
  | started a k _ ha hk hstatus hkeys hentries =>
    refine h.change ha hk (fun e => ?_) (fun b hb e => ?_) hstatus hkeys hentries
    · rfl
    · obtain rfl := Option.some_inj.1 hb
      rfl
  | ended a k f _ ha hk hf hstatus hkeys hentries =>
    exact h.change ha hk (fun e => (hf e).1) (fun b hb => absurd hb (Option.not_mem_none b)) hstatus hkeys hentries
  | dropped a _ ha hstatus hkeys hentries =>
    have hne : l.status a ≠ none := ha ▸ Option.some_ne_none true
    obtain ⟨k, hk, -⟩ := h.entry a true ha
    refine h.change hne hk (f := id) (fun _ => rfl) (fun b hb => absurd hb (Option.not_mem_none b)) hstatus hkeys ?_
    rw [hentries, Ledger.change]
    simp

theorem Step.keeps (hstep : Step Told l l') : l.Keeps l' := by
  cases hstep <;> assumption

/-- **A step keeps a ledger right exactly if it drops nothing.** -/
theorem Step.right_iff (hstep : Step Told l l') (h : l.Valid) (hright : l.Right) : l'.Right ↔ Told := by
  -- What is under way stays so, if it is not what the step is about.
  have hold : ∀ {a : α} {b : Option Bool} {e : Entry κ}, l'.status = Function.update l.status a b → l.Keeps l' →
      e ∈ l.entries → e.standing = true → l.key a ≠ some e.key → ∃ x, l'.status x = some true ∧ l'.key x = some e.key := by
    intro a b e hstatus hkeys he hstanding hne
    obtain ⟨x, hx, hk⟩ := hright e he hstanding
    have hxa : x ≠ a := by
      rintro rfl
      exact hne hk
    have hx' : l'.status x = some true := by
      rw [hstatus, Function.update_of_ne hxa, hx]
    refine ⟨x, hx', ?_⟩
    rw [hkeys x (hx ▸ Option.some_ne_none true) (hx' ▸ Option.some_ne_none true), hk]
  have hsame : ∀ {e : Entry κ}, l'.status = l.status → l.Keeps l' → e ∈ l.entries → e.standing = true →
      ∃ x, l'.status x = some true ∧ l'.key x = some e.key := by
    intro e hstatus hkeys he hstanding
    obtain ⟨x, hx, hk⟩ := hright e he hstanding
    have hx' : l'.status x = some true := hstatus ▸ hx
    refine ⟨x, hx', ?_⟩
    rw [hkeys x (hx ▸ Option.some_ne_none true) (hx' ▸ Option.some_ne_none true), hk]
  cases hstep with
  | same htold hstatus hkeys hentries =>
    exact iff_of_true (fun e he hstanding => hsame hstatus hkeys (hentries ▸ he) hstanding) htold
  | filed e htold _ hstarted hstatus hkeys hentries =>
    refine iff_of_true (fun e' he' hstanding => ?_) htold
    rw [hentries, List.mem_append, List.mem_singleton] at he'
    rcases he' with he' | rfl
    · exact hsame hstatus hkeys he' hstanding
    · rw [Entry.standing, hstarted] at hstanding
      exact absurd hstanding Bool.false_ne_true
  | began a k htold _ ha hstatus hk hkeys hentries =>
    refine iff_of_true (fun e he hstanding => ?_) htold
    rw [hentries, List.mem_append, List.mem_singleton] at he
    rcases he with he | rfl
    · obtain ⟨x, hx, hkey⟩ := hright e he hstanding
      have hx' : l'.status x = some true := by
        rw [hstatus, Function.update_of_ne, hx]
        rintro rfl
        exact Option.some_ne_none _ (hx.symm.trans ha)
      refine ⟨x, hx', ?_⟩
      rw [hkeys x (hx ▸ Option.some_ne_none true) (hx' ▸ Option.some_ne_none true), hkey]
    · exact absurd hstanding Bool.false_ne_true
  | started a k htold ha hk hstatus hkeys hentries =>
    refine iff_of_true (fun e' he' hstanding => ?_) htold
    rw [hentries, mem_change] at he'
    rcases he' with ⟨e, he, rfl, rfl⟩ | ⟨he', hne⟩
    · have ha' : l'.status a = some true := by
        rw [hstatus, Function.update_self]
      exact ⟨a, ha', by rw [hkeys a ha (ha' ▸ Option.some_ne_none true), hk]⟩
    · refine hold hstatus hkeys he' hstanding fun heq => hne ?_
      exact Option.some_inj.1 (heq.symm.trans hk)
  | ended a k f htold ha hk hf hstatus hkeys hentries =>
    refine iff_of_true (fun e' he' hstanding => ?_) htold
    rw [hentries, mem_change] at he'
    rcases he' with ⟨e, he, -, rfl⟩ | ⟨he', hne⟩
    · rw [Entry.standing, (hf e).2, Bool.not_true, Bool.and_false] at hstanding
      exact absurd hstanding Bool.false_ne_true
    · refine hold hstatus hkeys he' hstanding fun heq => hne ?_
      exact Option.some_inj.1 (heq.symm.trans hk)
  | dropped a htold ha hstatus hkeys hentries =>
    refine iff_of_false (fun hright' => ?_) htold
    -- Its entry still stands.
    obtain ⟨e, he, hstanding, hk⟩ := h.standing ha
    obtain ⟨x, hx, hkey⟩ := hright' e (hentries ▸ he) hstanding
    have hxa : x ≠ a := by
      rintro rfl
      rw [hstatus, Function.update_self] at hx
      cases hx
    have hx₀ : l.status x = some true := by
      rw [← hx, hstatus, Function.update_of_ne hxa]
    rw [hkeys x (hx₀ ▸ Option.some_ne_none true) (hx ▸ Option.some_ne_none true), ← hk] at hkey
    exact hxa (h.inj x a (hx₀ ▸ Option.some_ne_none true) (ha ▸ Option.some_ne_none true) hkey)

end

end Ledger

end Ssp
