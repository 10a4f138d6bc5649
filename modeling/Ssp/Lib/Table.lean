import Mathlib.Data.List.Nodup
import Ssp.Lib.Trail

/-!
# Tables with a unique key

Rows are inserted, which fails if there is one with the same key, and updated by their keys. Of
one row, only the edits of its key matter: it is what they make of it one after the other
(`row?_foldl`).
-/

namespace Ssp

/-- What a statement does to a table. -/
inductive Edit (κ ρ : Type*)
  | insert (row : ρ)
  | update (k : κ) (f : ρ → ρ)

namespace Edit

variable {κ ρ : Type*} [DecidableEq κ] (key : ρ → κ)

/-- The key it is about. -/
def target : Edit κ ρ → κ
  | insert row => key row
  | update k _ => k

/-- The rows afterwards. -/
def apply (rows : List ρ) : Edit κ ρ → List ρ
  | insert row => if rows.any (key · = key row) then rows else rows ++ [row]
  | update k f => rows.map fun row => if key row = k then f row else row

/-- What becomes of the row with its key. -/
def on (row? : Option ρ) : Edit κ ρ → Option ρ
  | insert row => some (row?.getD row)
  | update _ f => row?.map f

/-- An update leaves the keys alone. -/
def Lawful : Edit κ ρ → Prop
  | insert _ => True
  | update _ f => ∀ row, key (f row) = key row

/-- The row with a key. -/
def row? (rows : List ρ) (k : κ) : Option ρ := rows.find? fun row => key row = k

section

variable {key} {rows : List ρ} {e : Edit κ ρ} {k : κ}

theorem key_of_row? {row : ρ} (h : row? key rows k = some row) : key row = k := by
  simpa using List.find?_some h

theorem mem_of_row? {row : ρ} (h : row? key rows k = some row) : row ∈ rows := List.mem_of_find?_eq_some h

theorem row?_eq_none_iff : row? key rows k = none ↔ ∀ row ∈ rows, key row ≠ k := by
  simp [row?, List.find?_eq_none]

/-- As the keys are unique, a row is found. -/
theorem row?_of_mem (hnodup : (rows.map key).Nodup) {row : ρ} (hrow : row ∈ rows) :
    row? key rows (key row) = some row := by
  have hsome : (row? key rows (key row)).isSome := by
    rw [Option.isSome_iff_ne_none]
    exact fun hnone => row?_eq_none_iff.1 hnone row hrow rfl
  obtain ⟨row', hrow'⟩ := Option.isSome_iff_exists.1 hsome
  rw [hrow', List.inj_on_of_nodup_map hnodup (mem_of_row? hrow') hrow (key_of_row? hrow')]

theorem row?_map_update {f : ρ → ρ} (hf : ∀ row, key (f row) = key row) (k' : κ) (rows : List ρ) :
    row? key (rows.map fun row => if key row = k' then f row else row) k =
      if k' = k then (row? key rows k).map f else row? key rows k := by
  induction rows with
  | nil => simp [row?]
  | cons row rows ih =>
    have hkey : key (if key row = k' then f row else row) = key row := by
      split_ifs
      · exact hf row
      · rfl
    rw [List.map_cons]
    by_cases hk : key row = k
    · have hhead : ∀ r rs, key r = k → row? key (r :: rs) k = some r := fun r rs h =>
        List.find?_cons_of_pos (decide_eq_true h)
      rw [hhead _ _ (hkey.trans hk), hhead row rows hk]
      by_cases hk' : k' = k
      · rw [if_pos hk', if_pos (hk.trans hk'.symm), Option.map_some]
      · rw [if_neg hk', if_neg fun heq => hk' (heq.symm.trans hk)]
    · have htail : ∀ r rs, key r ≠ k → row? key (r :: rs) k = row? key rs k := fun r rs h =>
        List.find?_cons_of_neg fun hdec => h (of_decide_eq_true hdec)
      rw [htail _ _ fun heq => hk (hkey.symm.trans heq), htail row rows hk, ih]

/-- **An edit is seen in the row of its key**, and in no other one. -/
theorem row?_apply (he : e.Lawful key) (rows : List ρ) (k : κ) :
    row? key (e.apply key rows) k = if e.target key = k then e.on (row? key rows k) else row? key rows k := by
  cases e with
  | insert row =>
    change row? key (if _ then _ else _) k = if key row = k then some ((row? key rows k).getD row) else _
    by_cases hany : rows.any (key · = key row) = true
    · rw [if_pos hany]
      split_ifs with hk
      · obtain ⟨row', hrow', heq⟩ := List.any_eq_true.1 hany
        have hsome : row? key rows k ≠ none := fun hnone =>
          row?_eq_none_iff.1 hnone row' hrow' ((of_decide_eq_true heq).trans hk)
        obtain ⟨found, hfound⟩ := Option.ne_none_iff_exists'.1 hsome
        rw [hfound, Option.getD_some]
      · rfl
    · rw [if_neg hany]
      have hnew : ∀ row' ∈ rows, key row' ≠ key row := fun row' hrow' heq =>
        hany (List.any_eq_true.2 ⟨row', hrow', decide_eq_true heq⟩)
      rw [row?, List.find?_append]
      change (row? key rows k).or (row? key [row] k) = _
      split_ifs with hk
      · have hnone : row? key rows k = none := row?_eq_none_iff.2 (hk ▸ hnew)
        rw [hnone, Option.none_or, Option.getD_none]
        exact List.find?_cons_of_pos (decide_eq_true hk)
      · have hnone : row? key [row] k = none := row?_eq_none_iff.2 (by simpa using hk)
        rw [hnone, Option.or_none]
  | update k' f => exact row?_map_update he k' rows

/-- The keys stay unique. -/
theorem nodup_apply (he : e.Lawful key) (hnodup : (rows.map key).Nodup) : ((e.apply key rows).map key).Nodup := by
  cases e with
  | insert row =>
    change (List.map key (if _ then _ else _)).Nodup
    split_ifs with hany
    · exact hnodup
    · rw [List.map_append]
      refine hnodup.append (List.nodup_singleton _) ?_
      rw [List.map_cons, List.map_nil, List.disjoint_singleton]
      intro hmem
      obtain ⟨row', hrow', heq⟩ := List.mem_map.1 hmem
      exact hany (List.any_eq_true.2 ⟨row', hrow', decide_eq_true heq⟩)
  | update k f =>
    have hkeys : (rows.map fun row => if key row = k then f row else row).map key = rows.map key := by
      rw [List.map_map]
      refine List.map_congr_left fun row _ => ?_
      change key (if _ then _ else _) = _
      split_ifs
      · exact he row
      · rfl
    change (List.map key (List.map _ rows)).Nodup
    rwa [hkeys]

/-- Of one row, only the edits of its key matter. -/
theorem row?_foldl {es : List (Edit κ ρ)} (hes : ∀ e ∈ es, e.Lawful key) (rows : List ρ) (k : κ) :
    row? key (es.foldl (apply key) rows) k = (trail (target key) k es).foldl on (row? key rows k) := by
  induction es generalizing rows with
  | nil => rfl
  | cons e es ih =>
    rw [List.foldl_cons, ih (fun e' he' => hes e' (List.mem_cons_of_mem e he')), row?_apply (hes e List.mem_cons_self)]
    by_cases hk : e.target key = k
    · rw [if_pos hk, trail_cons_self hk, List.foldl_cons]
    · rw [if_neg hk, trail_cons_of_ne hk]

theorem nodup_foldl {es : List (Edit κ ρ)} (hes : ∀ e ∈ es, e.Lawful key) (hnodup : (rows.map key).Nodup) :
    ((es.foldl (apply key) rows).map key).Nodup := by
  induction es generalizing rows with
  | nil => exact hnodup
  | cons e es ih =>
    rw [List.foldl_cons]
    exact ih (fun e' he' => hes e' (List.mem_cons_of_mem e he')) (nodup_apply (hes e List.mem_cons_self) hnodup)

end

end Edit

/-! ## Statements one after the other -/

section

variable {σ τ α : Type*}

/-- Statements are executed until one is refused. -/
def untilRefused (execute : σ → α → Option σ) : σ → List α → σ
  | s, [] => s
  | s, a :: as => ((execute s a).map fun s' => untilRefused execute s' as).getD s

variable {execute : σ → α → Option σ} {execute' : τ → α → Option τ} {s s' : σ} {a : α} {as : List α}

theorem untilRefused_of_some (h : execute s a = some s') (as : List α) :
    untilRefused execute s (a :: as) = untilRefused execute s' as := by
  rw [untilRefused, h]
  rfl

theorem untilRefused_of_none (h : execute s a = none) (as : List α) : untilRefused execute s (a :: as) = s := by
  rw [untilRefused, h]
  rfl

/-- Where a view of the state is all that a statement is about, it is executed there. -/
theorem view_untilRefused (view : σ → τ) (h : ∀ a ∈ as, ∀ s, (execute s a).map view = execute' (view s) a) (s : σ) :
    view (untilRefused execute s as) = untilRefused execute' (view s) as := by
  induction as generalizing s with
  | nil => rfl
  | cons a as ih =>
    have ha := h a List.mem_cons_self s
    cases hs : execute s a with
    | none =>
      rw [hs] at ha
      rw [untilRefused_of_none hs, untilRefused_of_none ha.symm]
    | some s' =>
      rw [hs] at ha
      rw [untilRefused_of_some hs, untilRefused_of_some ha.symm]
      exact ih (fun a' ha' => h a' (List.mem_cons_of_mem a ha')) s'

theorem untilRefused_invariant {I : σ → Prop} (h : ∀ a ∈ as, ∀ s s', I s → execute s a = some s' → I s') (hs : I s) :
    I (untilRefused execute s as) := by
  induction as generalizing s with
  | nil => exact hs
  | cons a as ih =>
    cases ha : execute s a with
    | none => rwa [untilRefused_of_none ha]
    | some s' =>
      rw [untilRefused_of_some ha]
      exact ih (fun a' ha' => h a' (List.mem_cons_of_mem a ha')) (h a List.mem_cons_self s s' hs ha)

/-- What no statement is about stays as it is. -/
theorem untilRefused_keeps (view : σ → τ) (h : ∀ a ∈ as, ∀ s s', execute s a = some s' → view s' = view s) (s : σ) :
    view (untilRefused execute s as) = view s :=
  untilRefused_invariant (I := fun s' => view s' = view s) (fun a ha s₁ s₂ h₁ h₂ => (h a ha s₁ s₂ h₂).trans h₁) rfl

end

end Ssp
