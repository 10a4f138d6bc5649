import Ssp.Controller.Turns

/-!
# The table of the attempts

A `TerminationAttempt` is kept in `m_mapTerminationAttempts` under the transaction of its
INVITE. That table and `m_transactions` are changed one after the other: for a new call, for a
crankback or a redirect, for a final response and for a CANCEL.

`Generating` remembers which transactions come from `generateTerminationRequest`.
`attemptTable_of_reachable`: in every reachable state, the keys of the table are those of them
that are in `m_transactions`, no two of them have the same attempt, and the next crankback or
redirect moves the attempt from the one transaction to the other. nta may grant or deny whatever
it is asked for.
-/

namespace Ssp

namespace Calls

/-- The client transaction is in `m_transactions`. -/
def Paired (s : Calls) (orq : Orq) : Prop := ∃ irq, (irq, orq) ∈ s.transactions

/-- The client transaction is there only now. -/
def Created (s s' : Calls) (orq : Orq) : Prop := s.outgoing orq = none ∧ s'.outgoing orq ≠ none

section

variable {s s' : Calls} {orq : Orq}

theorem Typed.outgoing_of_fresh (h : s.Typed) (horq : s.next ≤ orq.address) : s.outgoing orq = none := by
  rw [Option.eq_none_iff_forall_not_mem]
  exact fun o ho => absurd (h.outgoing_lt orq o ho).1 (not_lt.2 horq)

theorem Becomes.created_iff {pairs : Bimap Irq Orq} {attempts : Orq → Option ℕ} {new : Orq → Prop}
    (h : s.Becomes s' pairs attempts new) (hfresh : ∀ orq, new orq → s.outgoing orq = none) :
    s.Created s' orq ↔ new orq := by
  unfold Created
  rw [h.creates orq]
  constructor
  · exact fun ⟨hnone, h⟩ => h.resolve_left fun hne => hne hnone
  · exact fun hnew => ⟨hfresh orq hnew, .inr hnew⟩

end

end Calls

namespace Controller

/-- `generateTerminationRequest` creates the transaction `orq` in an event: it is called for the
    INVITE of a termination call, and nothing else creates a transaction when the response to an
    INVITE is handled. -/
def Generates (c : Controller) (e : ControllerEvent) (orq : Orq) : Prop :=
  match e with
  | .requestOutsideDialog sip _ _ => c.Terminates sip ∧ c.calls.Created (c.next e).calls orq
  | .inviteResponse _ _ _ => c.calls.Created (c.next e).calls orq
  | _ => False

theorem Generates.created {c : Controller} {e : ControllerEvent} {orq : Orq} (h : c.Generates e orq) :
    c.calls.Created (c.next e).calls orq := by
  cases e with
  | requestOutsideDialog sip uuid nta => exact h.2
  | inviteResponse orq sip nta => exact h
  | _ => exact h.elim

end Controller

/-- The controller, and what `generateTerminationRequest` has created. -/
structure Generating where
  controller : Controller
  generated : Orq → Prop

namespace Generating

def next (x : Generating) (e : ControllerEvent) : Generating where
  controller := x.controller.next e
  generated orq := x.generated orq ∨ x.controller.Generates e orq

def machine : Machine Generating ControllerEvent where
  init := { x | x.controller.Initial ∧ x.generated = fun _ => False }
  enabled x e := Controller.machine.enabled x.controller e
  next := next

/-- The table is in order. -/
structure AttemptTable (x : Generating) : Prop where
  keys : ∀ orq, x.controller.calls.mapTerminationAttempts orq ≠ none ↔
    x.controller.calls.Paired orq ∧ x.generated orq
  inj : ∀ orq orq' t, x.controller.calls.mapTerminationAttempts orq = some t →
    x.controller.calls.mapTerminationAttempts orq' = some t → orq = orq'

/-- The response `sip` to `orq` leads to the other transaction `orqNew`, which has the attempt and
    the server transaction of `orq` now. -/
structure Moved (x : Generating) (orq : Orq) (sip : Response) (nta : Creations) (orqNew : Orq) : Prop where
  generated : x.controller.Generates (.inviteResponse orq sip nta) orqNew
  gone : (x.next (.inviteResponse orq sip nta)).controller.calls.mapTerminationAttempts orq = none
  attempt : (x.next (.inviteResponse orq sip nta)).controller.calls.mapTerminationAttempts orqNew =
    x.controller.calls.mapTerminationAttempts orq
  pair : (x.controller.calls.getAssociatedIncoming orq, orqNew) ∈
    (x.next (.inviteResponse orq sip nta)).controller.calls.transactions

structure Inv (x : Generating) : Prop where
  typed : x.controller.calls.Typed
  attempts : x.controller.AttemptInv
  created : ∀ orq, x.generated orq → x.controller.calls.outgoing orq ≠ none
  table : x.AttemptTable

section

variable {x : Generating} {e : ControllerEvent}

theorem Inv.generated_null (h : x.Inv) : ¬x.generated .null :=
  fun hgenerated => h.created .null hgenerated h.typed.outgoing_null

/-- The transactions that are `new` come in, with a key if `gen`, and those that are `gone` go. -/
theorem keys_of_becomes (h : x.Inv) (gone : Orq → Prop) (gen : Prop) {pairs : Bimap Irq Orq}
    {attempts : Orq → Option ℕ} {new : Orq → Prop}
    (hbecomes : x.controller.calls.Becomes (x.next e).controller.calls pairs attempts new)
    (hnew : ∀ orq, new orq → x.controller.calls.outgoing orq = none ∧ orq ≠ .null ∧
      (x.controller.Generates e orq ↔ gen))
    (hattempts : ∀ orq, attempts orq ≠ none ↔
      x.controller.calls.mapTerminationAttempts orq ≠ none ∧ ¬gone orq ∨ new orq ∧ gen)
    (hpairs : ∀ orq ≠ .null, (∃ irq, (irq, orq) ∈ pairs) ↔ x.controller.calls.Paired orq ∧ ¬gone orq ∨ new orq)
    (orq : Orq) :
    (x.next e).controller.calls.mapTerminationAttempts orq ≠ none ↔
      (x.next e).controller.calls.Paired orq ∧ (x.next e).generated orq := by
  -- A transaction is generated exactly if it is one of the new ones, and they have keys.
  have hgenerates : x.controller.Generates e orq ↔ new orq ∧ gen := by
    refine ⟨fun hg => ?_, fun ⟨hn, hg⟩ => (hnew orq hn).2.2.2 hg⟩
    have hn := (hbecomes.created_iff fun orq hn => (hnew orq hn).1).1 hg.created
    exact ⟨hn, (hnew orq hn).2.2.1 hg⟩
  have hgenerated : (x.next e).generated orq ↔ x.generated orq ∨ new orq ∧ gen := or_congr_right hgenerates
  have hold : new orq → ¬x.generated orq := fun hn hg => h.created orq hg (hnew orq hn).1
  have hnull : x.generated orq ∨ new orq ∧ gen → orq ≠ .null := by
    rintro (hg | ⟨hn, -⟩)
    · rintro rfl
      exact h.generated_null hg
    · exact (hnew orq hn).2.1
  rw [hbecomes.attempts, hattempts, hgenerated, Calls.Paired, hbecomes.pairs]
  -- Both sides are told apart by whether the transaction was there before.
  constructor
  · rintro (⟨hkey, hgone⟩ | hn)
    · obtain ⟨hpaired, hg⟩ := (h.table.keys orq).1 hkey
      exact ⟨(hpairs orq (hnull (.inl hg))).2 (.inl ⟨hpaired, hgone⟩), .inl hg⟩
    · exact ⟨(hpairs orq (hnull (.inr hn))).2 (.inr hn.1), .inr hn⟩
  · rintro ⟨hpaired, hg⟩
    rcases (hpairs orq (hnull hg)).1 hpaired with ⟨hpaired, hgone⟩ | hn
    · exact hg.imp (fun hg => ⟨(h.table.keys orq).2 ⟨hpaired, hg⟩, hgone⟩) id
    · exact .inr (hg.resolve_left (hold hn))

/-- A transaction goes. -/
theorem keys_of_erase (h : x.Inv) (gone : Orq)
    (hbecomes : x.controller.calls.Becomes (x.next e).controller.calls
      (x.controller.calls.transactions.eraseRight gone)
      (Function.update x.controller.calls.mapTerminationAttempts gone none) fun _ => False) (orq : Orq) :
    (x.next e).controller.calls.mapTerminationAttempts orq ≠ none ↔
      (x.next e).controller.calls.Paired orq ∧ (x.next e).generated orq := by
  refine keys_of_becomes h (· = gone) False hbecomes (fun orq hnew => hnew.elim) (fun orq => ?_) (fun orq _ => ?_) orq
  · by_cases heq : orq = gone
    · simp [heq]
    · simp [heq]
  · rw [Bimap.exists_mem_eraseRight, or_false]
    rfl

/-- **The keys**, after an event. -/
theorem keys_next (h : x.Inv) (he : machine.enabled x e) (orq : Orq) :
    (x.next e).controller.calls.mapTerminationAttempts orq ≠ none ↔
      (x.next e).controller.calls.Paired orq ∧ (x.next e).generated orq := by
  have hturn := Controller.turn_next h.typed h.attempts he
  have hirq := h.typed.irq_fresh
  cases hturn with
  | idle hidle hbecomes =>
    refine keys_of_becomes h (fun _ => False) False hbecomes (fun orq hnew => hnew.elim) ?_ ?_ orq
    · simp
    · simp [Calls.Paired]
  | opened orqNew t hinvite ht hcharged horq hbecomes =>
    have hfresh := h.typed.outgoing_of_fresh horq.le
    have hnone : x.controller.calls.mapTerminationAttempts orqNew = none := by
      by_contra hne
      exact absurd (h.typed.attempt_lt orqNew hne) (not_lt.2 horq.le)
    refine keys_of_becomes h (fun _ => False) (t ≠ none) hbecomes ?_ (fun orq => ?_) (fun orq _ => ?_) orq
    · rintro _ rfl
      refine ⟨hfresh, Handle.mk_ne_null (by omega), ?_⟩
      rw [ht]
      refine and_iff_left ((hbecomes.created_iff ?_).2 rfl)
      rintro _ rfl
      exact hfresh
    · by_cases heq : orq = orqNew
      · simp [heq, hnone]
      · simp [heq]
    · rw [Bimap.exists_mem_insert hirq]
      simp [Calls.Paired]
  -- A request that is sent on has a pair, but it was not generated, so it gets no key.
  | forwarded orqNew hmethod horq hbecomes =>
    refine keys_of_becomes h (fun _ => False) False hbecomes ?_ (fun orq => ?_) (fun orq hnull => ?_) orq
    · rintro _ ⟨rfl, hnull⟩
      exact ⟨h.typed.outgoing_of_fresh (horq.resolve_left hnull).le, hnull, Iff.rfl⟩
    · simp
    · rw [Bimap.exists_mem_insert hirq]
      have hnew : orq = orqNew ↔ orq = orqNew ∧ orqNew ≠ .null :=
        ⟨fun heq => ⟨heq, heq ▸ hnull⟩, fun hnew => hnew.1⟩
      simp only [not_false_eq_true, and_true, ← hnew]
      rfl
  | answered hreached hfinal hretries hbecomes => exact keys_of_erase h _ hbecomes orq
  | @replaced orq₀ sip nta orqNew t hreached hfinal hretries ht horq hbecomes =>
    have hfresh := h.typed.outgoing_of_fresh horq.le
    have hne : orqNew ≠ orq₀ := by
      rintro rfl
      exact absurd (h.typed.attempt_lt orqNew (ht ▸ Option.some_ne_none t)) (not_lt.2 horq.le)
    refine keys_of_becomes h (· = orq₀) True hbecomes ?_ (fun orq => ?_) (fun orq _ => ?_) orq
    · rintro _ rfl
      refine ⟨hfresh, Handle.mk_ne_null (by omega), iff_of_true ((hbecomes.created_iff ?_).2 rfl) trivial⟩
      rintro _ rfl
      exact hfresh
    · by_cases heq : orq = orqNew
      · simp [heq]
      · by_cases hgone : orq = orq₀
        · simp [hgone, hne.symm]
        · simp [heq, hgone]
    · have hpair := hreached.spec.1
      rw [Bimap.exists_mem_insert, Bimap.exists_mem_eraseRight]
      · rfl
      · intro orq' hmem
        obtain ⟨hmem, hne'⟩ := Bimap.mem_eraseRight.1 hmem
        exact hne' (Bimap.left_unique hmem hpair)
  | settled hirq hfinal hbecomes => exact keys_of_erase h _ hbecomes orq
  | cancelled hnull hleg hbecomes => exact keys_of_erase h _ hbecomes orq

theorem Inv.next (h : x.Inv) (he : machine.enabled x e) : (x.next e).Inv := by
  have hattempts := Controller.attemptInv_next h.typed h.attempts he
  refine ⟨Controller.typed_next h.typed he, hattempts, ?_, keys_next h he, hattempts.inj⟩
  rintro orq (hgenerated | hgenerates)
  · exact (Controller.turn_next h.typed h.attempts he).outgoing_ne_none (h.created orq hgenerated)
  · exact hgenerates.created.2

theorem inv_of_init (hx : x ∈ machine.init) : x.Inv := by
  obtain ⟨hinit, hgenerated⟩ := hx
  have hattempts := hinit.attemptInv
  refine ⟨hinit.calls ▸ Calls.typed_empty, hattempts, fun orq hg => ?_, fun orq => ?_, hattempts.inj⟩
  · rw [hgenerated] at hg
    exact hg.elim
  · rw [hgenerated, hinit.calls]
    exact ⟨fun hne => absurd rfl hne, fun h => h.2.elim⟩

theorem inv_of_reachable (hx : machine.Reachable x) : x.Inv :=
  hx.invariant (I := Inv) (fun _ hx => inv_of_init hx) fun _ _ h he => h.next he

/-- Another INVITE is sent exactly for a crankback or a redirect, and it is given the attempt. -/
theorem Inv.moved (h : x.Inv) {orq : Orq} {sip : Response} {nta : Creations}
    (he : machine.enabled x (.inviteResponse orq sip nta)) :
    (x.controller.Reached orq ∧ x.controller.Retries orq sip nta ↔
        ∃ orqNew, x.controller.Generates (.inviteResponse orq sip nta) orqNew) ∧
      ∀ orqNew, x.controller.Generates (.inviteResponse orq sip nta) orqNew → x.Moved orq sip nta orqNew := by
  have hturn := Controller.turn_next h.typed h.attempts he
  -- Nothing is sent where no transaction is new.
  have hnone : ∀ {pairs attempts}, x.controller.calls.Becomes (x.controller.next _).calls pairs attempts
      (fun _ => False) → ∀ orqNew, ¬x.controller.Generates (.inviteResponse orq sip nta) orqNew :=
    fun hbecomes orqNew hg => (hbecomes.created_iff fun _ hnew => hnew.elim).1 hg
  cases hturn with
  | idle hidle hbecomes =>
    refine ⟨iff_of_false (fun hretry => hidle ⟨hretry.1, ?_⟩) ?_, fun orqNew hg => absurd hg (hnone hbecomes orqNew)⟩
    · obtain ⟨t, a, -, -, ⟨hstatus, -⟩ | ⟨hstatus | hstatus, -⟩, -⟩ := hretry.2 <;> omega
    · exact fun ⟨orqNew, hg⟩ => hnone hbecomes orqNew hg
  | answered hreached hfinal hretries hbecomes =>
    refine ⟨iff_of_false (fun hretry => hretries hretry.2) ?_, fun orqNew hg => absurd hg (hnone hbecomes orqNew)⟩
    exact fun ⟨orqNew, hg⟩ => hnone hbecomes orqNew hg
  | replaced orqNew t hreached hfinal hretries ht horq hbecomes =>
    have hne : orq ≠ orqNew := by
      rintro rfl
      exact absurd (h.typed.attempt_lt orq (ht ▸ Option.some_ne_none t)) (not_lt.2 horq.le)
    have hgenerates : ∀ orq', x.controller.Generates (.inviteResponse orq sip nta) orq' ↔ orq' = orqNew := by
      refine fun orq' => hbecomes.created_iff ?_
      rintro _ rfl
      exact h.typed.outgoing_of_fresh horq.le
    -- There is only one new transaction, and the attempt is under it now.
    refine ⟨iff_of_true ⟨hreached, hretries⟩ ⟨orqNew, (hgenerates orqNew).2 rfl⟩, fun orq' hg => ?_⟩
    obtain rfl := (hgenerates orq').1 hg
    refine ⟨hg, ?_, ?_, ?_⟩
    · refine (congrFun hbecomes.attempts orq).trans ?_
      rw [Function.update_of_ne hne, Function.update_self]
    · refine (congrFun hbecomes.attempts orq').trans ?_
      rw [Function.update_self, ht]
    · have hpairs : (x.next (.inviteResponse orq sip nta)).controller.calls.transactions = _ := hbecomes.pairs
      rw [hpairs]
      refine (Bimap.mem_insert_of_new (fun orq'' hmem => ?_) fun irq hmem => ?_).2 (.inl rfl)
      · obtain ⟨hmem, hne'⟩ := Bimap.mem_eraseRight.1 hmem
        exact hne' (Bimap.left_unique hmem hreached.spec.1)
      · exact h.typed.orq_fresh horq irq (Bimap.mem_eraseRight.1 hmem).1

/-- **The table of the attempts**, in every reachable state: it is in order, and a response that
    leads to another INVITE, as a crankback or a redirect does, moves the attempt to it. -/
theorem attemptTable_of_reachable (hx : machine.Reachable x) :
    x.AttemptTable ∧ ∀ orq sip nta, machine.enabled x (.inviteResponse orq sip nta) →
      (x.controller.Reached orq ∧ x.controller.Retries orq sip nta ↔
          ∃ orqNew, x.controller.Generates (.inviteResponse orq sip nta) orqNew) ∧
        ∀ orqNew, x.controller.Generates (.inviteResponse orq sip nta) orqNew → x.Moved orq sip nta orqNew :=
  have h := inv_of_reachable hx
  ⟨h.table, fun _ _ _ he => h.moved he⟩

end

/-! ## An example -/

/-- The server of the example makes a call. -/
def exampleServerCalls : Generating :=
  next ⟨Reporting.exampleReporting.controller, fun _ => False⟩ Reporting.exampleServerCall

theorem exampleServerCalls_reachable : machine.Reachable exampleServerCalls :=
  .step (.init ⟨Reporting.exampleReporting_init.1, rfl⟩) Reporting.exampleServerCall_enabled.1

/-- The carrier sends the call elsewhere: the attempt is not at the INVITE `4` any more. -/
theorem attemptTable_exampleRedirect :
    exampleServerCalls.AttemptTable ∧
      ∃ orqNew, (exampleServerCalls.next Reporting.exampleRedirect).generated orqNew ∧
        (exampleServerCalls.next Reporting.exampleRedirect).controller.calls.mapTerminationAttempts ⟨4⟩ = none ∧
        ((⟨1⟩ : Irq), orqNew) ∈ (exampleServerCalls.next Reporting.exampleRedirect).controller.calls.transactions := by
  obtain ⟨htable, hmoved⟩ := attemptTable_of_reachable exampleServerCalls_reachable
  have henabled : machine.enabled exampleServerCalls Reporting.exampleRedirect := ⟨⟨_, rfl, rfl, rfl⟩, by decide⟩
  obtain ⟨hiff, hmoved⟩ := hmoved ⟨4⟩ _ _ henabled
  obtain ⟨orqNew, hgenerates⟩ := hiff.1 ⟨by decide, 0, _, rfl, rfl, .inl ⟨by decide, by decide⟩, rfl, rfl⟩
  have h := hmoved orqNew hgenerates
  exact ⟨htable, orqNew, .inr hgenerates, h.gone, h.pair⟩

end Generating

end Ssp
