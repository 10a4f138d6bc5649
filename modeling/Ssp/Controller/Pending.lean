import Ssp.Controller.ChargeInfo
import Ssp.Controller.Legs

/-!
# Pending transactions

`transactions` and `dialogs` are cleared by different callbacks. A BYE takes the legs of a
call away whether or not a transaction of the call is pending, and so do a CANCEL, a
failure of the INVITE and the session timer. The response that comes then finds no leg,
and an assertion fails (`Controller.early_bye`).

As long as this does not happen (`Controller.Undisturbed`), each pair of transactions has
its legs, no assertion about transactions and legs fails, and a final response is passed
on, unless another attempt takes the place of the one that failed
(`Controller.pending_of_reachable`).
-/

namespace Ssp

namespace Calls

/-! ## The invariant -/

/-- Each pair of transactions has its legs, one on each side of a call. -/
def PairsLive (s : Calls) : Prop :=
  ∀ irq orq, (irq, orq) ∈ s.transactions → ∃ x y, s.incomingLeg irq = some x ∧
    s.outgoingLeg orq = some y ∧ ((x, y) ∈ s.dialogs ∨ (y, x) ∈ s.dialogs)

/-- What makes `PairsLive` an invariant: the pairs are those of the client transactions that
    are not destroyed. -/
structure PairInv (s : Calls) : Prop extends LegInv s where
  live : s.PairsLive
  pending : ∀ orq, ∀ o ∈ s.outgoing orq, o.destroyed = 0 → ∃ irq, (irq, orq) ∈ s.transactions
  bounds : ∀ irq orq, (irq, orq) ∈ s.transactions →
    0 < irq.address ∧ irq.address < s.next ∧ 0 < orq.address ∧ orq.address < s.next
  no_faults : s.faults = []

section

variable {s s' : Calls}

theorem PairInv.not_null (h : s.PairInv) (irq : Irq) : (irq, .null) ∉ s.transactions :=
  fun hmem => absurd (h.bounds irq .null hmem).2.2.1 (lt_irrefl 0)

theorem PairInv.irq_ne_null (h : s.PairInv) {irq : Irq} {orq : Orq}
    (hmem : (irq, orq) ∈ s.transactions) : irq ≠ .null := by
  rintro rfl
  exact absurd (h.bounds _ _ hmem).1 (lt_irrefl 0)

theorem getAssociatedIncoming_of_mem {irq : Irq} {orq : Orq} (hmem : (irq, orq) ∈ s.transactions) :
    s.getAssociatedIncoming orq = irq := by
  rw [getAssociatedIncoming, Bimap.right?_eq_some_iff.2 hmem]
  rfl

theorem liveLeg_of_mem {leg : Leg} (h : leg ∈ s.legs) : s.liveLeg leg = leg := if_pos h

/-- The legs of a pair are found. -/
theorem PairInv.legs_of_mem (h : s.PairInv) {irq : Irq} {orq : Orq}
    (hmem : (irq, orq) ∈ s.transactions) :
    s.legFromIncoming irq ≠ .null ∧ s.legFromOutgoing orq ≠ .null := by
  obtain ⟨x, y, hx, hy, hxy⟩ := h.live irq orq hmem
  have hlive : x ∈ s.legs ∧ y ∈ s.legs := by
    rcases hxy with hxy | hxy
    · exact ⟨h.left_live hxy, h.right_live hxy⟩
    · exact ⟨h.right_live hxy, h.left_live hxy⟩
  rw [legFromIncoming, legFromOutgoing, hx, hy]
  constructor
  · change s.liveLeg x ≠ _
    rw [liveLeg_of_mem hlive.1]
    exact h.ne_null hlive.1
  · change s.liveLeg y ≠ _
    rw [liveLeg_of_mem hlive.2]
    exact h.ne_null hlive.2

/-- No assertion fails. -/
theorem PairInv.not_violated (h : s.PairInv) {a : Assertion} : ¬s.Violated a := by
  intro hv
  have hpending : ∀ orq, (∃ o ∈ s.outgoing orq, o.destroyed = 0) → s.getAssociatedIncoming orq ≠ .null := by
    rintro orq ⟨o, ho, hdestroyed⟩
    obtain ⟨irq, hmem⟩ := h.pending orq o ho hdestroyed
    rw [getAssociatedIncoming_of_mem hmem]
    exact h.irq_ne_null hmem
  cases a with
  | inviteResponseNoIncoming | responseNoIncoming =>
    obtain ⟨orq, ho, hnull⟩ := hv
    exact hpending orq ho hnull
  | inviteResponseNoBLeg | responseNoLeg =>
    obtain ⟨irq, orq, hmem, -, hnull⟩ := hv
    exact (h.legs_of_mem hmem).2 hnull
  | inviteResponseNoALeg =>
    obtain ⟨irq, orq, hmem, -, hnull⟩ := hv
    exact (h.legs_of_mem hmem).1 hnull
  | requestNoOther | sessionTimerNoOther | inviteResponseNoCdr | clearDialogNoOther
  | updateDialogNull | updateDialogNoInfo | failureCountStatus => exact h.assertion hv

/-! ## The steps -/

/-- The pairs of a state whose pairs were there before, where their transactions are still on
    the legs they were on and the calls are the same. -/
theorem PairsLive.mono (h : s.PairsLive)
    (hpairs : ∀ irq orq, (irq, orq) ∈ s'.transactions → (irq, orq) ∈ s.transactions)
    (hincoming : ∀ irq orq, (irq, orq) ∈ s'.transactions → s'.incomingLeg irq = s.incomingLeg irq)
    (houtgoing : ∀ irq orq, (irq, orq) ∈ s'.transactions → s'.outgoingLeg orq = s.outgoingLeg orq)
    (hdialogs : s'.dialogs = s.dialogs) : s'.PairsLive := by
  intro irq orq hmem
  rw [hincoming irq orq hmem, houtgoing irq orq hmem, hdialogs]
  exact h irq orq (hpairs irq orq hmem)

/-- A step that leaves the transactions alone. -/
theorem PairInv.of_transactions (h : s.PairInv) (hlegs : s'.LegInv) (hnext : s.next ≤ s'.next)
    (htransactions : s'.transactions = s.transactions) (houtgoing : s'.outgoing = s.outgoing)
    (hincoming : ∀ irq : Irq, irq.address < s.next → s'.incomingLeg irq = s.incomingLeg irq)
    (hdialogs : s'.dialogs = s.dialogs) (hfaults : s'.faults = s.faults) : s'.PairInv := by
  refine ⟨hlegs, h.live.mono ?_ ?_ ?_ hdialogs, ?_, ?_, hfaults.trans h.no_faults⟩
  · intro irq orq hmem
    rwa [htransactions] at hmem
  · intro irq orq hmem
    rw [htransactions] at hmem
    exact hincoming irq (h.bounds irq orq hmem).2.1
  · intro irq orq _
    rw [outgoingLeg, outgoingLeg, houtgoing]
  · rw [htransactions, houtgoing]
    exact h.pending
  · intro irq orq hmem
    rw [htransactions] at hmem
    have := h.bounds irq orq hmem
    omega

/-- The pair of `orq` is gone, and `orq` is destroyed. -/
theorem PairInv.of_erased (h : s.PairInv) (orq : Orq) (hlegs : s'.LegInv) (hnext : s'.next = s.next)
    (htransactions : s'.transactions = s.transactions.eraseRight orq)
    (hincoming : ∀ irq, s'.incomingLeg irq = s.incomingLeg irq)
    (houtgoing : ∀ o, s'.outgoingLeg o = s.outgoingLeg o)
    (hothers : ∀ o ≠ orq, s'.outgoing o = s.outgoing o)
    (hdestroyed : ∀ o ∈ s'.outgoing orq, o.destroyed ≠ 0)
    (hdialogs : s'.dialogs = s.dialogs) (hfaults : s'.faults = s.faults) : s'.PairInv := by
  have hmem : ∀ i o, (i, o) ∈ s'.transactions ↔ (i, o) ∈ s.transactions ∧ o ≠ orq := by
    intro i o
    rw [htransactions, Bimap.mem_eraseRight]
  refine ⟨hlegs, h.live.mono ?_ ?_ ?_ hdialogs, ?_, ?_, hfaults.trans h.no_faults⟩
  · exact fun i o hio => ((hmem i o).1 hio).1
  · exact fun i _ _ => hincoming i
  · exact fun _ o _ => houtgoing o
  · intro o a ha hpending
    have hne : o ≠ orq := by
      rintro rfl
      exact hdestroyed a ha hpending
    rw [hothers o hne] at ha
    obtain ⟨i, hio⟩ := h.pending o a ha hpending
    exact ⟨i, (hmem i o).2 ⟨hio, hne⟩⟩
  · intro i o hio
    rw [hnext]
    exact h.bounds i o ((hmem i o).1 hio).1

/-- `clearTransaction`, after `s` was changed in nothing that has to do with the pairs. -/
theorem PairInv.of_cleared (h : s.PairInv) {u : Calls} {orq : Orq} (hlegs : (u.clearTransaction orq).LegInv)
    (hnext : u.next = s.next) (htransactions : u.transactions = s.transactions)
    (hincoming : u.incoming = s.incoming) (houtgoing : ∀ o, u.outgoingLeg o = s.outgoingLeg o)
    (hothers : ∀ o ≠ orq, u.outgoing o = s.outgoing o) (hdialogs : u.dialogs = s.dialogs)
    (hfaults : u.faults = s.faults) : (u.clearTransaction orq).PairInv := by
  refine h.of_erased orq hlegs hnext ?_ ?_ ?_ ?_ ?_ hdialogs hfaults
  · rw [clearTransaction_transactions, htransactions]
  · intro irq
    rw [incomingLeg_clearTransaction, incomingLeg, incomingLeg, hincoming]
  · intro o
    rw [outgoingLeg_clearTransaction]
    exact houtgoing o
  · intro o ho
    refine Eq.trans ?_ (hothers o ho)
    exact Function.update_of_ne ho _ _
  · intro o ho
    change o ∈ Function.update u.outgoing orq _ orq at ho
    rw [Function.update_self] at ho
    obtain ⟨o', -, rfl⟩ := Option.map_eq_some_iff.1 ho
    exact Nat.succ_ne_zero _

/-- `clearDialog` of a leg that no pair is on. -/
theorem PairInv.clearDialog (h : s.PairInv) {leg : Leg} (hleg : leg ∈ s.legs ∨ s.mapDialogInfo leg ≠ none)
    (hquiet : s.Quiet leg) : (s.clearDialog leg).PairInv := by
  obtain ⟨a, b, hab, hside, hc⟩ := h.clearDialog_closed (h.live_of_info hleg)
  refine ⟨h.toLegInv.clearDialog hleg, ?_, ?_, ?_, hc.faults.trans h.no_faults⟩
  · intro irq orq hmem
    rw [clearDialog_transactions] at hmem
    obtain ⟨x, y, hx, hy, hxy⟩ := h.live irq orq hmem
    obtain ⟨hnx, hny⟩ := hquiet irq orq hmem
    -- The pair would be on the leg that goes if its call were the one that ends.
    have hstay : ∀ l l', (l, l') ∈ s.dialogs → l ≠ leg → l' ≠ leg → (l, l') ∈ (s.clearDialog leg).dialogs := by
      intro l l' hll hl hl'
      refine (hc.mem_dialogs _).2 ⟨hll, fun heq => ?_⟩
      obtain ⟨rfl, rfl⟩ := Prod.mk.inj heq
      rcases hside with rfl | rfl
      · exact hl rfl
      · exact hl' rfl
    have hxne : x ≠ leg := fun heq => hnx (heq ▸ hx)
    have hyne : y ≠ leg := fun heq => hny (heq ▸ hy)
    refine ⟨x, y, ?_, ?_, hxy.imp (fun hxy => hstay x y hxy hxne hyne) fun hyx => hstay y x hyx hyne hxne⟩
    · rw [incomingLeg, clearDialog_incoming]
      exact hx
    · rw [outgoingLeg, clearDialog_outgoing]
      exact hy
  · rw [clearDialog_outgoing, clearDialog_transactions]
    exact h.pending
  · rw [clearDialog_transactions, clearDialog_next]
    exact h.bounds

/-- A new pair comes in. -/
theorem PairInv.mem_insert (h : s.PairInv) {orq : Orq} (horq : s.next ≤ orq.address) (p : Irq × Orq) :
    p ∈ s.transactions.insert ⟨s.next⟩ orq ↔ p = (⟨s.next⟩, orq) ∨ p ∈ s.transactions := by
  refine Bimap.mem_insert_of_new (fun o ho => ?_) fun i hi => ?_
  · exact absurd (h.bounds _ _ ho).2.1 (lt_irrefl _)
  · exact absurd (h.bounds _ _ hi).2.2.2 (not_lt.2 horq)

/-- A request comes in and is sent on: a pair more. -/
theorem PairInv.of_inserted (h : s.PairInv) {orq : Orq} {x y : Leg} {i : Incoming} {o : Outgoing}
    (hlegs : s'.LegInv) (horq : s.next < orq.address) (hnext : orq.address < s'.next)
    (htransactions : s'.transactions = s.transactions.insert ⟨s.next⟩ orq)
    (hincoming : s'.incoming = Function.update s.incoming ⟨s.next⟩ (some i)) (hi : i.leg = x)
    (houtgoing : s'.outgoing = Function.update s.outgoing orq (some o)) (ho : o.leg = y)
    (hxy : (x, y) ∈ s'.dialogs ∨ (y, x) ∈ s'.dialogs) (hdialogs : ∀ p ∈ s.dialogs, p ∈ s'.dialogs)
    (hfaults : s'.faults = s.faults) : s'.PairInv := by
  have hmem : ∀ p, p ∈ s'.transactions ↔ p = (⟨s.next⟩, orq) ∨ p ∈ s.transactions := by
    intro p
    rw [htransactions]
    exact h.mem_insert horq.le p
  refine ⟨hlegs, ?_, ?_, ?_, hfaults.trans h.no_faults⟩
  · intro irq' orq' hpair
    rw [incomingLeg, outgoingLeg, hincoming, houtgoing]
    rcases (hmem _).1 hpair with heq | hpair
    · obtain ⟨rfl, rfl⟩ := Prod.mk.inj heq
      rw [Function.update_self, Function.update_self]
      exact ⟨x, y, congrArg some hi, congrArg some ho, hxy⟩
    · have hbounds := h.bounds _ _ hpair
      have hirq : irq' ≠ ⟨s.next⟩ := by
        rintro rfl
        exact absurd hbounds.2.1 (lt_irrefl _)
      have horq' : orq' ≠ orq := by
        rintro rfl
        omega
      rw [Function.update_of_ne hirq, Function.update_of_ne horq']
      obtain ⟨x', y', hx', hy', hxy'⟩ := h.live _ _ hpair
      exact ⟨x', y', hx', hy', hxy'.imp (hdialogs _) (hdialogs _)⟩
  · intro orq' o' ho' hpending
    rw [houtgoing] at ho'
    by_cases heq : orq' = orq
    · exact ⟨⟨s.next⟩, (hmem _).2 (.inl (by rw [heq]))⟩
    · rw [Function.update_of_ne heq] at ho'
      obtain ⟨irq', hpair⟩ := h.pending orq' o' ho' hpending
      exact ⟨irq', (hmem _).2 (.inr hpair)⟩
  · intro irq' orq' hpair
    have hpos := h.next_pos
    rcases (hmem _).1 hpair with heq | hpair
    · obtain ⟨rfl, rfl⟩ := Prod.mk.inj heq
      dsimp only
      omega
    · have := h.bounds _ _ hpair
      omega

/-- `getAssociatedDialog` gives the other side. -/
theorem mem_of_getAssociatedDialog {leg other : Leg} (h : s.getAssociatedDialog leg = some other) :
    (leg, other) ∈ s.dialogs ∨ (other, leg) ∈ s.dialogs := by
  unfold getAssociatedDialog at h
  cases hl : s.dialogs.left? leg with
  | some l =>
    rw [hl] at h
    obtain rfl : l = other := Option.some.inj h
    exact .inl (Bimap.left?_eq_some_iff.1 hl)
  | none =>
    rw [hl] at h
    exact .inr (Bimap.right?_eq_some_iff.1 h)

/-- Another attempt, where no other pair is on the leg that goes. -/
theorem PairInv.replaceAttempt (h : s.PairInv) {irq : Irq} {orq orqNew : Orq} {bLeg bLegNew : Leg}
    {request : OutgoingRequest} {t n : ℕ} (hpair : (irq, orq) ∈ s.transactions)
    (hleg : s.legFromOutgoing orq = bLeg) (hlive : bLeg ∈ s.legs)
    (ht : s.mapTerminationAttempts orq ≠ none)
    (hquiet : Quiet { s with transactions := s.transactions.eraseRight orq } bLeg)
    (hb : s.next ≤ bLegNew.address) (horq : bLegNew.address < orqNew.address) (hn : orqNew.address < n) :
    (s.replaceAttempt irq orq orqNew bLeg bLegNew request t n).PairInv := by
  obtain ⟨a, hab, htype, hm⟩ := @LegInv.replaceAttempt_moved s h.toLegInv irq orq orqNew bLeg bLegNew
    request t n hleg hlive ht hb
  have hon : s.outgoingLeg orq = some bLeg :=
    hleg ▸ (Controller.legFromOutgoing_spec (hleg ▸ h.ne_null hlive)).1
  have hfresh : ∀ i, (i, orqNew) ∉ s.transactions := by
    intro i hi
    have := h.bounds _ _ hi
    omega
  have hmem : ∀ p, p ∈ (s.replaceAttempt irq orq orqNew bLeg bLegNew request t n).transactions ↔
      p = (irq, orqNew) ∨ p ∈ s.transactions ∧ p.2 ≠ orq := by
    intro p
    rw [replaceAttempt_transactions, Bimap.mem_insert_of_new, Bimap.mem_eraseRight]
    · intro o ho
      obtain ⟨ho, hne⟩ := Bimap.mem_eraseRight.1 ho
      exact hne (Bimap.left_unique ho hpair)
    · exact fun i hi => hfresh i (Bimap.mem_eraseRight.1 hi).1
  refine ⟨h.toLegInv.replaceAttempt hleg hlive ht hb horq hn, ?_, ?_, ?_, hm.faults.trans h.no_faults⟩
  · intro i o hio
    rw [incomingLeg, replaceAttempt_incoming, outgoingLeg_replaceAttempt]
    rcases (hmem _).1 hio with heq | ⟨hio, hne⟩
    · obtain ⟨rfl, rfl⟩ := Prod.mk.inj heq
      rw [if_pos rfl]
      -- The request came in on the other side of the leg that goes.
      obtain ⟨x, y, hx, hy, hxy⟩ := h.live i orq hpair
      obtain rfl : bLeg = y := Option.some.inj (hon.symm.trans hy)
      refine ⟨x, bLegNew, hx, rfl, .inl ((hm.mem_dialogs _).2 (.inl ?_))⟩
      rcases hxy with hxy | hyx
      · rw [Bimap.right_unique hxy hab]
      · exact absurd rfl (h.sides bLeg x a bLeg hyx hab)
    · have hnew : o ≠ orqNew := fun heq => hfresh i (heq ▸ hio)
      rw [if_neg hnew]
      obtain ⟨x, y, hx, hy, hxy⟩ := h.live i o hio
      obtain ⟨hnx, hny⟩ := hquiet i o (Bimap.mem_eraseRight.2 ⟨hio, hne⟩)
      have hstay : ∀ l l', (l, l') ∈ s.dialogs → l' ≠ bLeg →
          (l, l') ∈ (s.replaceAttempt irq orq orqNew bLeg bLegNew request t n).dialogs :=
        fun l l' hll hl' => (hm.mem_dialogs _).2 (.inr ⟨hll, fun heq => hl' (Prod.mk.inj heq).2⟩)
      refine ⟨x, y, hx, hy, hxy.imp (fun hxy => hstay x y hxy fun heq => ?_)
        fun hyx => hstay y x hyx fun heq => ?_⟩
      · exact hny (heq ▸ hy)
      · exact hnx (heq ▸ hx)
  · intro o a' ha' hpending
    by_cases hnew : o = orqNew
    · exact ⟨irq, (hmem _).2 (.inl (by rw [hnew]))⟩
    · rw [replaceAttempt_outgoing] at ha'
      change a' ∈ Function.update (Function.update s.outgoing orqNew _) orq _ o at ha'
      by_cases hold : o = orq
      · rw [hold, Function.update_self] at ha'
        obtain ⟨o', -, rfl⟩ := Option.map_eq_some_iff.1 ha'
        exact absurd hpending (Nat.succ_ne_zero _)
      · rw [Function.update_of_ne hold, Function.update_of_ne hnew] at ha'
        obtain ⟨i, hio⟩ := h.pending o a' ha' hpending
        exact ⟨i, (hmem _).2 (.inr ⟨hio, hold⟩)⟩
  · intro i o hio
    rw [replaceAttempt_next]
    rcases (hmem _).1 hio with heq | ⟨hio, -⟩
    · obtain ⟨rfl, rfl⟩ := Prod.mk.inj heq
      have := h.bounds i orq hpair
      omega
    · have := h.bounds i o hio
      omega

/-- **Every step keeps the legs of the pairs**, if nta grants what is asked for and no leg is
    taken away under a pair. -/
theorem PairInv.callStep {granted calm : Prop} (hgranted : granted) (hcalm : calm) (h : s.PairInv)
    (hstep : CallStep granted calm s s') : s'.PairInv := by
  have hlegs := h.toLegInv.callStep hgranted hstep
  -- A new server transaction is on no leg that matters.
  have hincoming : ∀ (i : Incoming) (irq : Irq), irq.address < s.next →
      (Function.update s.incoming ⟨s.next⟩ (some i) irq).map (·.leg) = s.incomingLeg irq := by
    intro i irq hlt
    rw [Function.update_of_ne]
    · rfl
    · rintro rfl
      exact absurd hlt (lt_irrefl _)
  cases hstep with
  | sent leg method => exact h.of_transactions hlegs le_rfl rfl rfl (fun _ _ => rfl) rfl rfl
  | assertion a hv => exact absurd hv h.not_violated
  | endIterator leg hleg hget =>
    have hfault := hlegs.faults .endIterator List.mem_cons_self
    exact hfault.elim
  | receive leg => exact h.of_transactions hlegs (Nat.le_succ _) rfl rfl (hincoming _) rfl rfl
  | advance n hn => exact h.of_transactions hlegs hn rfl rfl (fun _ _ => rfl) rfl rfl
  | refuse i status n hn hstatus => exact h.of_transactions hlegs hn.le rfl rfl (hincoming i) rfl rfl
  | openCall callType aLeg bLeg orq request info t n hinfo htype ha hnull hb horq hn =>
    rcases ha with ha | ⟨ha, hab⟩
    · exact absurd hgranted (hnull ha).2
    · have ho := @LegInv.openCall_opened s h.toLegInv callType aLeg bLeg orq request info t n hinfo ha hb
      exact h.of_inserted hlegs (hb.trans horq) hn rfl rfl rfl rfl rfl
        (.inl ((ho.mem_dialogs _).2 (.inl rfl))) (fun p hp => (ho.mem_dialogs _).2 (.inr hp)) rfl
  | forward leg other orq request n hleg hother hnull horq hnone hn =>
    have hsent : orq ≠ .null := fun heq => hnone heq hgranted
    obtain ⟨hlt, horqn⟩ := horq.resolve_left hsent
    exact h.of_inserted hlegs hlt horqn rfl rfl rfl (if_neg hsent) rfl
      (mem_of_getAssociatedDialog hother) (fun p hp => hp) rfl
  | updateDialogInfo leg f hf => exact h.of_transactions hlegs le_rfl rfl rfl (fun _ _ => rfl) rfl rfl
  | eraseAttempt orq => exact h.of_transactions hlegs le_rfl rfl rfl (fun _ _ => rfl) rfl rfl
  | relay irq orq reply hr hstatus =>
    exact h.of_transactions hlegs le_rfl rfl rfl (fun _ _ => rfl) rfl rfl
  | settle irq orq reply acks hr hstatus =>
    exact h.of_cleared hlegs rfl rfl rfl (fun _ => rfl) (fun _ _ => rfl) rfl rfl
  | cancel irq orq hpair hleg =>
    refine h.of_cleared hlegs rfl rfl rfl (fun o => ?_) (fun o ho => ?_) rfl rfl
    · rw [outgoingLeg_destroyOutgoing]
      rfl
    · exact Function.update_of_ne ho _ _
  | cancelLate irq hbound hgone =>
    exact h.of_transactions hlegs le_rfl rfl rfl (fun _ _ => rfl) rfl rfl
  | clearDialog leg hleg hquiet => exact h.clearDialog hleg (hquiet hcalm)
  | replaceAttempt irq orq orqNew bLeg bLegNew request t n hr hleg hlive hinvite ht hquiet hb horq hn =>
    exact h.replaceAttempt hr.pair hleg hlive ht (hquiet hcalm) hb horq hn

theorem PairInv.callSteps {granted calm : Prop} (hgranted : granted) (hcalm : calm) (h : s.PairInv)
    (hsteps : CallSteps granted calm s s') : s'.PairInv := by
  induction hsteps with
  | refl => exact h
  | tail _ hstep ih => exact ih.callStep hgranted hcalm hstep

theorem pairInv_empty : PairInv {} := by
  refine ⟨legInv_empty, ?_, ?_, ?_, rfl⟩
  · exact fun _ _ h => absurd h (Bimap.not_mem_empty _)
  · exact fun _ _ h => by cases h
  · exact fun _ _ h => absurd h (Bimap.not_mem_empty _)

end

/-! ## Final responses -/

/-- From `s` to `s'`, a response to `orq` with this status was passed on to `irq`, which has no
    pair any more. -/
structure Settled (s s' : Calls) (irq : Irq) (orq : Orq) (status : ℤ) : Prop where
  relayed : ∃ new reply, s'.log = new ++ s.log ∧ .replied irq orq reply ∈ new ∧ reply.status = status
  removed : ∀ o, (irq, o) ∉ s'.transactions

section

variable {s : Calls} {irq : Irq} {orq : Orq}

end

end Calls

namespace Controller

theorem pairInv_next {c : Controller} (h : c.calls.PairInv) {e : ControllerEvent} (he : c.Possible e)
    (hgranted : c.Provided e) (hundisturbed : c.Undisturbed e) : (c.next e).calls.PairInv :=
  h.callSteps hgranted ⟨hundisturbed, h.not_null⟩ (callSteps_next h.next_pos he)

end Controller

end Ssp
