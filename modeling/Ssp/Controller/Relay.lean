import Ssp.Controller.Refine

/-!
# What is passed on

Which responses a request gets, over whole runs: at most one final response, and only
responses to the last request sent on for it, none of them after a CANCEL
(`Controller.relay_of_reachable`). Nothing is asked of nta here but that it does not call
back on a transaction that was destroyed; it may fail to create legs and transactions.

The log of the tables says what was done. It is *orderly* if each entry is one that may
come after the entries before it; that the next entry may come follows from the pair of
the transaction it is about.
-/

namespace Ssp

namespace CallEvent

/-! ## The log -/

/-- The request that an entry is about. -/
def about : CallEvent → Option Irq
  | created irq _ | replied irq _ _ | returned irq _ | cancelled irq => some irq
  | sent _ _ => none

/-- A final response to `irq`, passed on or given by nta. -/
def isFinal (irq : Irq) : CallEvent → Bool
  | replied irq' _ reply => irq' = irq ∧ 200 ≤ reply.status
  | returned irq' status => irq' = irq ∧ 200 ≤ status
  | _ => false

/-- A final response that is passed on to `irq`. -/
def isFinalReply (irq : Irq) : CallEvent → Bool
  | replied irq' _ reply => irq' = irq ∧ 200 ≤ reply.status
  | _ => false

/-- The transaction created to send on `irq`. -/
def createdFor (irq : Irq) : CallEvent → Option Orq
  | created irq' orq => if irq' = irq then some orq else none
  | _ => none

/-- Whether an entry may come after those of `past`. -/
def Allowed (past : List CallEvent) : CallEvent → Prop
  | created irq _ => (∀ e ∈ past, e.isFinal irq = false) ∧ cancelled irq ∉ past
  | replied irq orq _ =>
    past.findSome? (createdFor irq) = some orq ∧ (∀ e ∈ past, e.isFinal irq = false) ∧
      cancelled irq ∉ past
  | returned irq _ => ∀ e ∈ past, e.about ≠ some irq
  | cancelled _ | sent _ _ => True

end CallEvent

/-- Each entry of the log, the newest first, may come after the older ones. -/
def Orderly : List CallEvent → Prop
  | [] => True
  | e :: past => e.Allowed past ∧ Orderly past

section

variable {log new old : List CallEvent} {irq : Irq} {orq : Orq} {reply : Reply} {e : CallEvent}

theorem Orderly.allowed (h : Orderly (new ++ e :: old)) : e.Allowed old := by
  induction new with
  | nil => exact h.1
  | cons _ _ ih => exact ih h.2

theorem CallEvent.isFinal_of_isFinalReply (h : e.isFinalReply irq = true) : e.isFinal irq = true := by
  cases e with
  | replied irq' orq' reply' => exact h
  | created _ _ | returned _ _ | cancelled _ | sent _ _ => cases h

/-- A final response is the last entry of its kind. -/
theorem Orderly.not_final (h : Orderly (e :: old)) (he : e.isFinalReply irq = true) :
    ∀ e' ∈ old, e'.isFinalReply irq = false := by
  intro e' he'
  cases e with
  | replied irq' orq' reply' =>
    -- The older entries have no final response at all, given by nta or passed on.
    obtain ⟨rfl, -⟩ : irq' = irq ∧ 200 ≤ reply'.status := of_decide_eq_true he
    have hfinal := h.1.2.1 e' he'
    exact Bool.eq_false_iff.2 fun h' =>
      Bool.false_ne_true (hfinal.symm.trans (CallEvent.isFinal_of_isFinalReply h'))
  | created _ _ | returned _ _ | cancelled _ | sent _ _ => cases he

/-- At most one final response is passed on. -/
theorem Orderly.countP_le_one (h : Orderly log) (irq : Irq) :
    log.countP (CallEvent.isFinalReply irq) ≤ 1 := by
  induction log with
  | nil => exact Nat.zero_le _
  | cons e past ih =>
    cases he : e.isFinalReply irq with
    | false =>
      rw [List.countP_cons_of_neg (by simp [he])]
      exact ih h.2
    | true =>
      have hnone : past.countP (CallEvent.isFinalReply irq) = 0 :=
        List.countP_eq_zero.2 fun e' he' => by simp [h.not_final he e' he']
      rw [List.countP_cons_of_pos he, hnone]

/-- Nothing is sent on after the final response. -/
theorem Orderly.lastCreated_of_final (h : Orderly (new ++ .replied irq orq reply :: old))
    (hfinal : 200 ≤ reply.status) :
    (new ++ .replied irq orq reply :: old).findSome? (CallEvent.createdFor irq) = some orq := by
  induction new with
  | nil => exact h.1.1
  | cons e new ih =>
    -- A later transaction for `irq` would have been created after its final response.
    have hnone : e.createdFor irq = none := by
      cases e with
      | created irq' orq' =>
        by_contra hsome
        have hirq : irq' = irq := by
          by_contra hne
          exact hsome (if_neg hne)
        subst hirq
        have hlast := h.1.1 (.replied irq' orq reply) (by simp)
        simp [CallEvent.isFinal, hfinal] at hlast
      | replied _ _ _ | returned _ _ | cancelled _ | sent _ _ => rfl
    rw [List.cons_append, List.findSome?_cons, hnone]
    exact ih h.2

end

namespace Calls

/-! ## The legs that are gone -/

section

variable (s : Calls) (leg newLeg : Leg)

theorem mem_of_mem_destroyLeg {l : Leg} (h : l ∈ (s.destroyLeg leg).legs) : l ∈ s.legs := by
  unfold destroyLeg at h
  split_ifs at h
  · exact h
  · exact List.mem_of_mem_erase h
  · exact h

theorem mem_of_mem_clearDialog {l : Leg} (h : l ∈ (s.clearDialog leg).legs) : l ∈ s.legs := by
  unfold clearDialog at h
  cases hother : s.getAssociatedDialog leg with
  | none =>
    rw [hother] at h
    exact h
  | some other =>
    rw [hother] at h
    dsimp only at h
    split_ifs at h
    · exact s.mem_of_mem_destroyLeg leg h
    · exact s.mem_of_mem_destroyLeg leg
        (mem_of_mem_destroyLeg (((s.destroyLeg leg).eraseDialog leg).eraseDialogInfo leg) other h)

theorem mem_of_mem_moveDialog {l : Leg} (h : l ∈ (s.moveDialog leg newLeg).legs) : l ∈ s.legs := by
  unfold moveDialog at h
  cases hother : s.getAssociatedDialog leg with
  | none =>
    rw [hother] at h
    exact h
  | some aLeg =>
    rw [hother] at h
    dsimp only at h
    have hdestroy := mem_of_mem_destroyLeg
      (addDialogs { s with dialogs := s.dialogs.eraseRight leg } aLeg newLeg) leg (l := l)
    split at h
    · exact hdestroy h
    · exact hdestroy h

theorem mem_of_mem_updateDialog {l : Leg} (h : l ∈ (s.updateDialog leg newLeg).legs) : l ∈ s.legs := by
  unfold updateDialog at h
  split_ifs at h
  · exact mem_of_mem_moveDialog (s.fault (.assertion .updateDialogNull)) leg newLeg h
  · exact s.mem_of_mem_moveDialog leg newLeg h

end

/-! ## The invariant -/

/-- What is known of a pair whose request was sent on: `orq` is the last transaction created
    for `irq`, and `irq` has no final response. If it was cancelled, then its leg is gone, and
    so no response can be passed on. -/
structure Pairing (s : Calls) (irq : Irq) (orq : Orq) : Prop where
  irq_lt : irq.address < s.next
  orq_lt : orq.address < s.next
  leg_lt : ∀ i ∈ s.incoming irq, i.leg.address < s.next
  last : s.log.findSome? (CallEvent.createdFor irq) = some orq
  unfinished : ∀ e ∈ s.log, e.isFinal irq = false
  bound : ∀ i ∈ s.incoming irq, i.bound = true → ∀ o ∈ s.outgoing orq, o.callback = .responseToInvite
  cancelled : .cancelled irq ∈ s.log →
    (∀ o ∈ s.outgoing orq, o.callback = .responseToInvite) ∧ ∀ i ∈ s.incoming irq, i.leg ∉ s.legs

/-- What makes the log orderly. -/
structure RelayInv (s : Calls) : Prop where
  next_pos : 0 < s.next
  legs_lt : ∀ l ∈ s.legs, 0 < l.address ∧ l.address < s.next
  incoming_lt : ∀ irq, ∀ i ∈ s.incoming irq, irq.address < s.next
  log_lt : ∀ e ∈ s.log, ∀ irq ∈ e.about, irq.address < s.next
  outgoing_null : s.outgoing .null = none
  orderly : Orderly s.log
  pairs : ∀ irq orq, (irq, orq) ∈ s.transactions →
    irq.address < s.next ∧ (orq ≠ .null → s.Pairing irq orq)

section

variable {s s' : Calls} {irq : Irq} {orq : Orq}

/-- The log has nothing about a request that is new. -/
theorem RelayInv.about_fresh (h : s.RelayInv) : ∀ e ∈ s.log, e.about ≠ some ⟨s.next⟩ :=
  fun e he habout => absurd (h.log_lt e he _ habout) (lt_irrefl _)

theorem isFinal_of_about {e : CallEvent} (h : e.about ≠ some irq) : e.isFinal irq = false := by
  cases e with
  | replied irq' _ _ | returned irq' _ =>
    have hne : irq' ≠ irq := fun heq => h (by rw [heq]; rfl)
    simp [CallEvent.isFinal, hne]
  | created _ _ | cancelled _ | sent _ _ => rfl

theorem createdFor_of_about {e : CallEvent} (h : e.about ≠ some irq) : e.createdFor irq = none := by
  cases e with
  | created irq' _ =>
    have hne : irq' ≠ irq := fun heq => h (by rw [heq]; rfl)
    exact if_neg hne
  | replied _ _ _ | returned _ _ | cancelled _ | sent _ _ => rfl

theorem not_cancelled_of_about {log : List CallEvent} (h : ∀ e ∈ log, e.about ≠ some irq) :
    CallEvent.cancelled irq ∉ log := fun hmem => h _ hmem rfl

/-- An entry that does not matter for `irq`: it is about another request, or a provisional
    response. -/
def Harmless (irq : Irq) (e : CallEvent) : Prop :=
  e.about ≠ some irq ∨ ∃ orq reply, e = .replied irq orq reply ∧ reply.status < 200

theorem Harmless.createdFor {e : CallEvent} (h : Harmless irq e) : e.createdFor irq = none := by
  rcases h with h | ⟨orq, reply, rfl, -⟩
  · exact createdFor_of_about h
  · rfl

theorem Harmless.isFinal {e : CallEvent} (h : Harmless irq e) : e.isFinal irq = false := by
  rcases h with h | ⟨orq, reply, rfl, hstatus⟩
  · exact isFinal_of_about h
  · simp [CallEvent.isFinal, hstatus]

/-- A pair stays as it is in a step that does nothing to it. -/
theorem Pairing.mono (h : s.Pairing irq orq) (hnext : s.next ≤ s'.next)
    (hincoming : ∀ i' ∈ s'.incoming irq, ∃ i ∈ s.incoming irq, i.leg = i'.leg ∧ i.bound = i'.bound)
    (houtgoing : ∀ o' ∈ s'.outgoing orq, ∃ o ∈ s.outgoing orq, o.callback = o'.callback)
    {new : List CallEvent} (hlog : s'.log = new ++ s.log) (hnew : ∀ e ∈ new, Harmless irq e)
    (hlegs : ∀ l ∈ s'.legs, l ∈ s.legs ∨ s.next ≤ l.address) : s'.Pairing irq orq := by
  refine ⟨h.irq_lt.trans_le hnext, h.orq_lt.trans_le hnext, ?_, ?_, ?_, ?_, ?_⟩
  · intro i' hi'
    obtain ⟨i, hi, hleg, -⟩ := hincoming i' hi'
    rw [← hleg]
    exact (h.leg_lt i hi).trans_le hnext
  · have hnone : new.findSome? (CallEvent.createdFor irq) = none :=
      List.findSome?_eq_none_iff.2 fun e he => (hnew e he).createdFor
    rw [hlog, List.findSome?_append, hnone]
    exact h.last
  · intro e he
    rw [hlog] at he
    rcases List.mem_append.1 he with he | he
    · exact (hnew e he).isFinal
    · exact h.unfinished e he
  · intro i' hi' hbound o' ho'
    obtain ⟨i, hi, -, hbound'⟩ := hincoming i' hi'
    obtain ⟨o, ho, hcallback⟩ := houtgoing o' ho'
    rw [← hcallback]
    exact h.bound i hi (hbound'.trans hbound) o ho
  · intro hcancelled
    rw [hlog] at hcancelled
    have hcancelled' : .cancelled irq ∈ s.log := by
      rcases List.mem_append.1 hcancelled with hmem | hmem
      · rcases hnew _ hmem with habout | ⟨_, _, heq, -⟩
        · exact absurd rfl habout
        · cases heq
      · exact hmem
    obtain ⟨hcallback, hdead⟩ := h.cancelled hcancelled'
    refine ⟨fun o' ho' => ?_, fun i' hi' hlive => ?_⟩
    · obtain ⟨o, ho, heq⟩ := houtgoing o' ho'
      rw [← heq]
      exact hcallback o ho
    · obtain ⟨i, hi, hleg, -⟩ := hincoming i' hi'
      rw [← hleg] at hlive
      rcases hlegs _ hlive with hlive | hfresh
      · exact hdead i hi hlive
      · exact absurd (h.leg_lt i hi) (not_lt.2 hfresh)

/-- A response can only be passed on to a request that was not cancelled. -/
theorem RelayInv.relayable (h : s.RelayInv) (hr : s.Relayable irq orq) :
    orq ≠ .null ∧ s.Pairing irq orq ∧ .cancelled irq ∉ s.log := by
  obtain ⟨o, ho, -, hlegs⟩ := hr.pending
  have hne : orq ≠ .null := by
    rintro rfl
    rw [h.outgoing_null] at ho
    cases ho
  have hp := (h.pairs irq orq hr.pair).2 hne
  refine ⟨hne, hp, fun hcancelled => ?_⟩
  obtain ⟨hcallback, hdead⟩ := hp.cancelled hcancelled
  obtain ⟨hon, hlive⟩ := Controller.legFromIncoming_spec (hlegs (hcallback o ho))
  obtain ⟨i, hi, hleg⟩ := Option.map_eq_some_iff.1 hon
  rw [← hleg] at hlive
  exact hdead i hi hlive

/-! ## The steps -/

theorem mem_update {i i' : Incoming} {irq' : Irq} (h : s'.incoming = Function.update s.incoming irq (some i))
    (hi' : i' ∈ s'.incoming irq') : i' ∈ s.incoming irq' ∨ irq' = irq := by
  by_cases heq : irq' = irq
  · exact .inr heq
  · rw [h, Function.update_of_ne heq] at hi'
    exact .inl hi'

/-- One lemma for all steps: the pairs that were there keep their transactions, and what the
    step logs does not matter for them; what is known of the other pairs is given. -/
theorem RelayInv.of_step (h : s.RelayInv) (hnext : s.next ≤ s'.next)
    (hlegs : ∀ l ∈ s'.legs, l ∈ s.legs ∨ s.next ≤ l.address ∧ l.address < s'.next)
    (hincoming : ∀ irq, ∀ i' ∈ s'.incoming irq,
      (∃ i ∈ s.incoming irq, i.leg = i'.leg ∧ i.bound = i'.bound) ∨
        s.next ≤ irq.address ∧ irq.address < s'.next)
    (houtgoing : ∀ orq : Orq, orq.address < s.next → ∀ o' ∈ s'.outgoing orq,
      ∃ o ∈ s.outgoing orq, o.callback = o'.callback)
    (new : List CallEvent) (hlog : s'.log = new ++ s.log) (horderly : Orderly s'.log)
    (hnew : ∀ e ∈ new, ∀ irq ∈ e.about, irq.address < s'.next)
    (hpairs : ∀ irq orq, (irq, orq) ∈ s'.transactions →
      ((irq, orq) ∈ s.transactions ∧ ∀ e ∈ new, Harmless irq e) ∨
        irq.address < s'.next ∧ (orq ≠ .null → s'.Pairing irq orq)) : s'.RelayInv := by
  refine ⟨h.next_pos.trans_le hnext, ?_, ?_, ?_, ?_, horderly, ?_⟩
  · intro l hl
    have hpos := h.next_pos
    rcases hlegs l hl with hl | hl
    · have := h.legs_lt l hl
      omega
    · omega
  · intro irq i' hi'
    rcases hincoming irq i' hi' with ⟨i, hi, -⟩ | ⟨-, hlt⟩
    · exact (h.incoming_lt irq i hi).trans_le hnext
    · exact hlt
  · intro e he irq hirq
    rw [hlog] at he
    rcases List.mem_append.1 he with he | he
    · exact hnew e he irq hirq
    · exact (h.log_lt e he irq hirq).trans_le hnext
  · rw [Option.eq_none_iff_forall_not_mem]
    intro o' ho'
    obtain ⟨o, ho, -⟩ := houtgoing .null h.next_pos o' ho'
    rw [h.outgoing_null] at ho
    cases ho
  · intro irq orq hmem
    rcases hpairs irq orq hmem with ⟨hmem, hharmless⟩ | hp
    · obtain ⟨hlt, hp⟩ := h.pairs irq orq hmem
      refine ⟨hlt.trans_le hnext, fun hne => ?_⟩
      have hp := hp hne
      refine hp.mono hnext (fun i' hi' => ?_) (houtgoing orq hp.orq_lt) hlog hharmless
        fun l hl => (hlegs l hl).imp_right And.left
      exact (hincoming irq i' hi').resolve_right fun hfresh => absurd hlt (not_lt.2 hfresh.1)
    · exact hp

/-- Steps that only change other tables. -/
theorem RelayInv.of_same (h : s.RelayInv) (hnext : s.next ≤ s'.next) (hlegs : s'.legs = s.legs)
    (hincoming : s'.incoming = s.incoming) (houtgoing : s'.outgoing = s.outgoing)
    (hlog : s'.log = s.log) (htransactions : s'.transactions = s.transactions) : s'.RelayInv := by
  refine h.of_step hnext ?_ ?_ ?_ [] hlog (hlog ▸ h.orderly) (fun _ he => absurd he List.not_mem_nil) ?_
  · exact fun l hl => .inl (hlegs ▸ hl)
  · intro irq i' hi'
    rw [hincoming] at hi'
    exact .inl ⟨i', hi', rfl, rfl⟩
  · intro orq _ o' ho'
    rw [houtgoing] at ho'
    exact ⟨o', ho', rfl⟩
  · intro irq orq hmem
    rw [htransactions] at hmem
    exact .inl ⟨hmem, fun _ he => absurd he List.not_mem_nil⟩

/-- Steps that only log. -/
theorem RelayInv.of_record (h : s.RelayInv) {e : CallEvent} (hallowed : e.Allowed s.log)
    (hlt : ∀ irq ∈ e.about, irq.address < s.next)
    (hpairs : ∀ irq orq, (irq, orq) ∈ s.transactions → orq ≠ .null →
      Harmless irq e ∨ (s.record e).Pairing irq orq) : (s.record e).RelayInv := by
  refine h.of_step le_rfl (fun _ hl => .inl hl) ?_ ?_ [e] rfl ⟨hallowed, h.orderly⟩ ?_ ?_
  · exact fun irq i' hi' => .inl ⟨i', hi', rfl, rfl⟩
  · exact fun orq _ o' ho' => ⟨o', ho', rfl⟩
  · intro e' he' irq hirq
    rw [List.mem_singleton.1 he'] at hirq
    exact hlt irq hirq
  · intro irq orq hmem
    by_cases hnull : orq = .null
    · exact .inr ⟨(h.pairs irq orq hmem).1, fun hne => absurd hnull hne⟩
    · rcases hpairs irq orq hmem hnull with hharmless | hp
      · refine .inl ⟨hmem, fun e' he' => ?_⟩
        rw [List.mem_singleton.1 he']
        exact hharmless
      · exact .inr ⟨hp.irq_lt, fun _ => hp⟩

/-- A provisional response. -/
theorem RelayInv.relay (h : s.RelayInv) (hr : s.Relayable irq orq) {reply : Reply}
    (hstatus : reply.status < 200) : (s.record (.replied irq orq reply)).RelayInv := by
  obtain ⟨-, hp, hcancelled⟩ := h.relayable hr
  refine h.of_record ⟨hp.last, hp.unfinished, hcancelled⟩ ?_ ?_
  · intro irq' hirq'
    obtain rfl : irq = irq' := Option.some.inj hirq'
    exact hp.irq_lt
  · intro irq' orq' _ _
    by_cases heq : irq = irq'
    · exact .inl (.inr ⟨orq, reply, by rw [heq], hstatus⟩)
    · exact .inl (.inl fun habout => heq (Option.some.inj habout))

/-- The pair of `orq` goes, and entries about its request come. -/
theorem RelayInv.of_cleared (h : s.RelayInv) (hpair : (irq, orq) ∈ s.transactions)
    (new : List CallEvent) (hnew : ∀ e ∈ new, ∀ irq' ∈ e.about, irq' = irq)
    {u : Calls} (hu : u.outgoing = s.outgoing ∨ u.outgoing = (s.destroyOutgoing orq).outgoing)
    (hnext : u.next = s.next) (hlegs : u.legs = s.legs) (hincoming : u.incoming = s.incoming)
    (hlog : u.log = new ++ s.log) (htransactions : u.transactions = s.transactions)
    (horderly : Orderly u.log) : (u.clearTransaction orq).RelayInv := by
  refine h.of_step (Eq.ge hnext) ?_ ?_ ?_ new hlog horderly ?_ ?_
  · exact fun l hl => .inl (hlegs ▸ hl)
  · intro irq' i' hi'
    obtain ⟨i, hi, hsame⟩ := mem_destroyIncoming
      (s := { u with transactions := u.transactions.eraseRight orq }) hi'
    exact .inl ⟨i, hincoming ▸ hi, hsame⟩
  · intro orq' _ o' ho'
    obtain ⟨o, ho, -, hsame⟩ := mem_destroyOutgoing (s := u) ho'
    rcases hu with hu | hu
    · rw [hu] at ho
      exact ⟨o, ho, hsame⟩
    · rw [hu] at ho
      obtain ⟨o'', ho'', -, hsame'⟩ := mem_destroyOutgoing ho
      exact ⟨o'', ho'', hsame'.trans hsame⟩
  · intro e he irq' hirq'
    rw [hnew e he irq' hirq']
    exact (h.pairs irq orq hpair).1.trans_eq hnext.symm
  · intro irq' orq' hmem
    rw [clearTransaction_transactions, htransactions] at hmem
    obtain ⟨hmem, hne⟩ := Bimap.mem_eraseRight.1 hmem
    refine .inl ⟨hmem, fun e he => .inl fun habout => hne ?_⟩
    obtain rfl := hnew e he irq' habout
    exact Bimap.left_unique hmem hpair

theorem orderly_acks {log : List CallEvent} (h : Orderly log) (acks : List Leg) :
    Orderly (acks.map (.sent · .ack) ++ log) := by
  induction acks with
  | nil => exact h
  | cons leg acks ih => exact ⟨trivial, ih⟩

/-- A final response. -/
theorem RelayInv.settle (h : s.RelayInv) (hr : s.Relayable irq orq) (reply : Reply) (acks : List Leg) :
    (s.settle irq orq reply acks).RelayInv := by
  obtain ⟨-, hp, hcancelled⟩ := h.relayable hr
  have hallowed : Orderly (.replied irq orq reply :: s.log) :=
    ⟨⟨hp.last, hp.unfinished, hcancelled⟩, h.orderly⟩
  refine h.of_cleared hr.pair (acks.map (.sent · .ack) ++ [.replied irq orq reply]) ?_ (.inl rfl)
    rfl rfl rfl ?_ rfl (orderly_acks hallowed acks)
  · intro e he irq' hirq'
    rcases List.mem_append.1 he with he | he
    · obtain ⟨leg, -, rfl⟩ := List.mem_map.1 he
      cases hirq'
    · rw [List.mem_singleton.1 he] at hirq'
      exact (Option.some.inj hirq').symm
  · rw [List.append_assoc]
    rfl

/-- A CANCEL that ends the call. -/
theorem RelayInv.cancel (h : s.RelayInv) (hpair : (irq, orq) ∈ s.transactions) :
    (((s.record (.cancelled irq)).destroyOutgoing orq).clearTransaction orq).RelayInv := by
  refine h.of_cleared hpair [.cancelled irq] ?_ (.inr rfl) rfl rfl rfl rfl rfl
    ⟨trivial, h.orderly⟩
  intro e he irq' hirq'
  rw [List.mem_singleton.1 he] at hirq'
  exact (Option.some.inj hirq').symm

/-- A CANCEL that finds no transaction or no leg. -/
theorem RelayInv.cancelLate (h : s.RelayInv) (hbound : ∃ i ∈ s.incoming irq, i.bound = true)
    (hgone : s.getAssociatedOutgoing irq = .null ∨ s.legFromIncoming irq = .null) :
    (s.record (.cancelled irq)).RelayInv := by
  obtain ⟨i, hi, hbound⟩ := hbound
  refine h.of_record trivial ?_ ?_
  · intro irq' hirq'
    rw [← show irq = irq' from Option.some.inj hirq']
    exact h.incoming_lt irq i hi
  · intro irq' orq hmem hne
    by_cases heq : irq = irq'
    · -- The pair of the request stays, but its leg is gone.
      subst heq
      have hp := (h.pairs irq orq hmem).2 hne
      have hassociated : s.getAssociatedOutgoing irq = orq := by
        rw [getAssociatedOutgoing, Bimap.left?_eq_some_iff.2 hmem]
        rfl
      have hdead : i.leg ∉ s.legs := by
        intro hlive
        have hleg : s.legFromIncoming irq = i.leg := by
          rw [legFromIncoming, incomingLeg, show s.incoming irq = some i from hi]
          exact if_pos hlive
        rcases hgone with hnull | hnull
        · exact hne (hassociated.symm.trans hnull)
        · rw [hleg] at hnull
          exact absurd (h.legs_lt _ hlive).1 (by rw [hnull]; exact lt_irrefl 0)
      refine .inr ⟨hp.irq_lt, hp.orq_lt, hp.leg_lt, hp.last, ?_, hp.bound, fun _ => ⟨hp.bound i hi hbound, ?_⟩⟩
      · intro e he
        rcases List.mem_cons.1 he with rfl | he
        · rfl
        · exact hp.unfinished e he
      · intro i' hi'
        rwa [Option.mem_unique hi' hi]
    · exact .inl (.inl fun habout => heq (Option.some.inj habout))

/-- A new request that is sent on. -/
theorem RelayInv.of_sentOn (h : s.RelayInv) {i : Incoming} {o : Outgoing} (horq : s.next < orq.address)
    (hnext : orq.address < s'.next) (hleg : i.leg.address < s'.next)
    (hbound : i.bound = true → o.callback = .responseToInvite)
    (hlegs : ∀ l ∈ s'.legs, l ∈ s.legs ∨ s.next ≤ l.address ∧ l.address < s'.next)
    (hincoming : s'.incoming = Function.update s.incoming ⟨s.next⟩ (some i))
    (houtgoing : s'.outgoing = Function.update s.outgoing orq (some o))
    (hlog : s'.log = .created ⟨s.next⟩ orq :: s.log)
    (htransactions : s'.transactions = s.transactions.insert ⟨s.next⟩ orq) : s'.RelayInv := by
  have hcreated : (CallEvent.created ⟨s.next⟩ orq).Allowed s.log :=
    ⟨fun e he => isFinal_of_about (h.about_fresh e he), not_cancelled_of_about h.about_fresh⟩
  refine h.of_step (by omega) hlegs ?_ ?_ [.created ⟨s.next⟩ orq] hlog ?_ ?_ ?_
  · intro irq' i' hi'
    exact (mem_update hincoming hi').imp (fun hi => ⟨i', hi, rfl, rfl⟩) fun heq => by
      rw [heq]
      exact ⟨le_rfl, horq.trans hnext⟩
  · intro orq' hlt o' ho'
    rw [houtgoing, Function.update_of_ne] at ho'
    · exact ⟨o', ho', rfl⟩
    · rintro rfl
      omega
  · rw [hlog]
    exact ⟨hcreated, h.orderly⟩
  · intro e he irq' hirq'
    rw [List.mem_singleton.1 he] at hirq'
    rw [← show (⟨s.next⟩ : Irq) = irq' from Option.some.inj hirq']
    exact horq.trans hnext
  · intro irq' orq' hmem
    rw [htransactions] at hmem
    rcases Bimap.mem_of_mem_insert hmem with heq | hmem
    · obtain ⟨rfl, rfl⟩ := Prod.mk.inj heq
      refine .inr ⟨horq.trans hnext, fun _ => ⟨horq.trans hnext, hnext, ?_, ?_, ?_, ?_, ?_⟩⟩
      · intro i' hi'
        rw [hincoming, Function.update_self] at hi'
        rwa [← show i = i' from Option.some.inj hi']
      · rw [hlog, List.findSome?_cons_of_isSome]
        · exact if_pos rfl
        · simp [CallEvent.createdFor]
      · intro e he
        rw [hlog] at he
        rcases List.mem_cons.1 he with rfl | he
        · rfl
        · exact isFinal_of_about (h.about_fresh e he)
      · intro i' hi' hb o' ho'
        rw [hincoming, Function.update_self] at hi'
        rw [houtgoing, Function.update_self] at ho'
        rw [← show i = i' from Option.some.inj hi'] at hb
        rw [← show o = o' from Option.some.inj ho']
        exact hbound hb
      · intro hcancelled
        rw [hlog] at hcancelled
        rcases List.mem_cons.1 hcancelled with heq | hcancelled
        · cases heq
        · exact absurd hcancelled hcreated.2
    · refine .inl ⟨hmem, fun e he => .inl fun habout => ?_⟩
      rw [List.mem_singleton.1 he] at habout
      have hlt := (h.pairs irq' orq' hmem).1
      rw [← show (⟨s.next⟩ : Irq) = irq' from Option.some.inj habout] at hlt
      exact absurd hlt (lt_irrefl _)

/-- A new request that is not sent on. -/
theorem RelayInv.of_received (h : s.RelayInv) {i : Incoming} (new : List CallEvent) (hnext : s.next < s'.next)
    (hlegs : s'.legs = s.legs) (hincoming : s'.incoming = Function.update s.incoming ⟨s.next⟩ (some i))
    (houtgoing : s'.outgoing = s.outgoing) (hlog : s'.log = new ++ s.log)
    (hnew : new = [] ∨ ∃ status, new = [.returned ⟨s.next⟩ status])
    (htransactions : ∀ irq orq, (irq, orq) ∈ s'.transactions →
      (irq, orq) = (⟨s.next⟩, .null) ∨ (irq, orq) ∈ s.transactions) : s'.RelayInv := by
  have habout : ∀ e ∈ new, ∀ irq ∈ e.about, irq = ⟨s.next⟩ := by
    intro e he irq hirq
    rcases hnew with rfl | ⟨status, rfl⟩
    · exact absurd he List.not_mem_nil
    · rw [List.mem_singleton.1 he] at hirq
      exact (Option.some.inj hirq).symm
  refine h.of_step hnext.le (fun l hl => .inl (hlegs ▸ hl)) ?_ ?_ new hlog ?_ ?_ ?_
  · intro irq' i' hi'
    exact (mem_update hincoming hi').imp (fun hi => ⟨i', hi, rfl, rfl⟩) fun heq => by
      rw [heq]
      exact ⟨le_rfl, hnext⟩
  · intro orq' _ o' ho'
    rw [houtgoing] at ho'
    exact ⟨o', ho', rfl⟩
  · rw [hlog]
    rcases hnew with rfl | ⟨status, rfl⟩
    · exact h.orderly
    · exact ⟨h.about_fresh, h.orderly⟩
  · intro e he irq' hirq'
    rw [habout e he irq' hirq']
    exact hnext
  · intro irq' orq' hmem
    rcases htransactions irq' orq' hmem with heq | hmem
    · obtain ⟨rfl, rfl⟩ := Prod.mk.inj heq
      exact .inr ⟨hnext, fun hne => absurd rfl hne⟩
    · refine .inl ⟨hmem, fun e he => .inl fun hirq' => ?_⟩
      have hlt := (h.pairs irq' orq' hmem).1
      rw [habout e he irq' hirq'] at hlt
      exact absurd hlt (lt_irrefl _)

theorem RelayInv.openCall (h : s.RelayInv) {callType : CallType} {aLeg bLeg : Leg}
    {request : OutgoingRequest} {info : SipDialogInfo} {t n : ℕ}
    (ha : aLeg = .null ∨ s.next < aLeg.address ∧ aLeg.address < bLeg.address)
    (hb : s.next < bLeg.address) (horq : bLeg.address < orq.address) (hn : orq.address < n) :
    (s.openCall callType aLeg bLeg orq request info t n).RelayInv := by
  have halt : aLeg.address < n := by
    rcases ha with rfl | ha
    · exact Nat.zero_lt_of_lt hn
    · omega
  refine h.of_sentOn (hb.trans horq) hn halt (fun _ => rfl) ?_ rfl rfl rfl rfl
  intro l hl
  change l ∈ (if aLeg = .null then bLeg :: s.legs else bLeg :: aLeg :: s.legs) at hl
  change _ ∨ _ ∧ l.address < n
  split_ifs at hl with hnull
  · rcases List.mem_cons.1 hl with rfl | hl
    · exact .inr (by omega)
    · exact .inl hl
  · have ha := ha.resolve_left hnull
    rcases List.mem_cons.1 hl with rfl | hl
    · exact .inr (by omega)
    · rcases List.mem_cons.1 hl with rfl | hl
      · exact .inr (by omega)
      · exact .inl hl

theorem RelayInv.forward (h : s.RelayInv) {leg other : Leg} {request : OutgoingRequest} {n : ℕ}
    (hleg : leg ∈ s.legs) (horq : orq = .null ∨ s.next < orq.address ∧ orq.address < n) (hn : s.next < n) :
    (s.forward leg other orq request n).RelayInv := by
  rcases horq with rfl | ⟨hlt, horqn⟩
  · -- nta gave no transaction, but the pair goes into the table.
    refine h.of_received [] hn rfl rfl rfl rfl (.inl rfl) ?_
    exact fun irq' orq' hmem => Bimap.mem_of_mem_insert hmem
  · have hnull : orq ≠ .null := by
      rintro rfl
      exact absurd hlt (Nat.not_lt_zero _)
    have hleglt : leg.address < n := (h.legs_lt leg hleg).2.trans hn
    exact h.of_sentOn hlt horqn hleglt (fun hb => by cases hb) (fun l hl => .inl hl) rfl (if_neg hnull)
      (if_neg hnull) rfl

theorem RelayInv.clearDialog (h : s.RelayInv) (leg : Leg) : (s.clearDialog leg).RelayInv := by
  refine h.of_step (Eq.ge (s.clearDialog_next leg)) ?_ ?_ ?_ [] (s.clearDialog_log leg) ?_ ?_ ?_
  · exact fun l hl => .inl (s.mem_of_mem_clearDialog leg hl)
  · intro irq' i' hi'
    rw [clearDialog_incoming] at hi'
    exact .inl ⟨i', hi', rfl, rfl⟩
  · intro orq' _ o' ho'
    rw [clearDialog_outgoing] at ho'
    exact ⟨o', ho', rfl⟩
  · rw [clearDialog_log]
    exact h.orderly
  · exact fun e he => absurd he List.not_mem_nil
  · intro irq' orq' hmem
    rw [clearDialog_transactions] at hmem
    exact .inl ⟨hmem, fun e he => absurd he List.not_mem_nil⟩

/-- Another attempt: its transaction is the last one created from now on. -/
theorem RelayInv.replaceAttempt (h : s.RelayInv) {orqNew : Orq} {bLeg bLegNew : Leg}
    {request : OutgoingRequest} {t n : ℕ} (hr : s.Relayable irq orq) (hb : s.next ≤ bLegNew.address)
    (horq : bLegNew.address < orqNew.address) (hn : orqNew.address < n) :
    (s.replaceAttempt irq orq orqNew bLeg bLegNew request t n).RelayInv := by
  obtain ⟨hnull, hp, hcancelled⟩ := h.relayable hr
  have hlegs : ∀ l ∈ (s.replaceAttempt irq orq orqNew bLeg bLegNew request t n).legs,
      l = bLegNew ∨ l ∈ s.legs := fun l hl =>
    List.mem_cons.1 (mem_of_mem_updateDialog _ bLeg bLegNew hl)
  have houtgoing : ∀ orq', ∀ o' ∈ (s.replaceAttempt irq orq orqNew bLeg bLegNew request t n).outgoing orq',
      o'.callback = .responseToInvite ∧ orq' = orqNew ∨ ∃ o ∈ s.outgoing orq', o.callback = o'.callback := by
    intro orq' o' ho'
    rw [replaceAttempt_outgoing] at ho'
    obtain ⟨o, ho, -, hsame⟩ := mem_destroyOutgoing ho'
    change o ∈ Function.update s.outgoing orqNew _ orq' at ho
    by_cases heq : orq' = orqNew
    · rw [heq, Function.update_self] at ho
      rw [← show _ = o from Option.some.inj ho] at hsame
      exact .inl ⟨hsame.symm, heq⟩
    · rw [Function.update_of_ne heq] at ho
      exact .inr ⟨o, ho, hsame⟩
  have hlog := s.replaceAttempt_log irq orq orqNew bLeg bLegNew request t n
  have hnext := s.replaceAttempt_next irq orq orqNew bLeg bLegNew request t n
  refine h.of_step ?_ ?_ ?_ ?_ [.created irq orqNew] hlog ?_ ?_ ?_
  · omega
  · intro l hl
    rcases hlegs l hl with rfl | hl
    · exact .inr (by omega)
    · exact .inl hl
  · intro irq' i' hi'
    rw [replaceAttempt_incoming] at hi'
    exact .inl ⟨i', hi', rfl, rfl⟩
  · intro orq' hlt o' ho'
    refine (houtgoing orq' o' ho').resolve_left fun ⟨_, heq⟩ => ?_
    rw [heq] at hlt
    omega
  · rw [hlog]
    exact ⟨⟨hp.unfinished, hcancelled⟩, h.orderly⟩
  · intro e he irq' hirq'
    rw [List.mem_singleton.1 he] at hirq'
    rw [← show irq = irq' from Option.some.inj hirq']
    have := hp.irq_lt
    omega
  · intro irq' orq' hmem
    rw [replaceAttempt_transactions] at hmem
    rcases Bimap.mem_of_mem_insert hmem with heq | hmem
    · obtain ⟨rfl, rfl⟩ := Prod.mk.inj heq
      have hirq := hp.irq_lt
      refine .inr ⟨by omega, fun _ => ⟨by omega, by omega, ?_, ?_, ?_, ?_, ?_⟩⟩
      · intro i' hi'
        rw [replaceAttempt_incoming] at hi'
        have := hp.leg_lt i' hi'
        omega
      · rw [hlog, List.findSome?_cons_of_isSome]
        · exact if_pos rfl
        · simp [CallEvent.createdFor]
      · intro e he
        rw [hlog] at he
        rcases List.mem_cons.1 he with rfl | he
        · rfl
        · exact hp.unfinished e he
      · intro i' hi' hbound o' ho'
        rw [replaceAttempt_incoming] at hi'
        rcases houtgoing orq' o' ho' with ⟨hcallback, -⟩ | ⟨o, ho, hsame⟩
        · exact hcallback
        · -- The old transactions have other addresses.
          rw [replaceAttempt_outgoing] at ho'
          obtain ⟨o'', ho'', -, hsame'⟩ := mem_destroyOutgoing ho'
          change o'' ∈ Function.update s.outgoing orq' _ orq' at ho''
          rw [Function.update_self] at ho''
          rw [← hsame', ← show _ = o'' from Option.some.inj ho'']
      · intro hmem'
        rw [hlog] at hmem'
        rcases List.mem_cons.1 hmem' with heq | hmem'
        · cases heq
        · exact absurd hmem' hcancelled
    · obtain ⟨hmem, hne⟩ := Bimap.mem_eraseRight.1 hmem
      refine .inl ⟨hmem, fun e he => .inl fun habout => hne ?_⟩
      rw [List.mem_singleton.1 he] at habout
      rw [← show irq = irq' from Option.some.inj habout] at hmem
      exact Bimap.left_unique hmem hr.pair

/-- **Every step keeps the log orderly.** -/
theorem RelayInv.callStep {granted calm : Prop} (h : s.RelayInv) (hstep : CallStep granted calm s s') :
    s'.RelayInv := by
  cases hstep with
  | sent leg method =>
    exact h.of_record trivial (fun _ hirq => by cases hirq) fun _ _ _ _ => .inl (.inl fun habout => by cases habout)
  | assertion a hv => exact h.of_same le_rfl rfl rfl rfl rfl rfl
  | endIterator leg hleg hget => exact h.of_same le_rfl rfl rfl rfl rfl rfl
  | receive leg =>
    exact h.of_received [] (Nat.lt_succ_self _) rfl rfl rfl rfl (.inl rfl) fun _ _ hmem => .inr hmem
  | advance n hn => exact h.of_same hn rfl rfl rfl rfl rfl
  | refuse i status n hn hstatus =>
    refine h.of_received (status.map (.returned ⟨s.next⟩)).toList hn rfl rfl rfl rfl ?_ fun _ _ hmem => .inr hmem
    cases status with
    | none => exact .inl rfl
    | some status => exact .inr ⟨status, rfl⟩
  | openCall callType aLeg bLeg orq request info t n hinfo htype ha hnull hb horq hn =>
    exact h.openCall ha hb horq hn
  | forward leg other orq request n hleg hother hnull horq hnone hn => exact h.forward hleg horq hn
  | updateDialogInfo leg f hf => exact h.of_same le_rfl rfl rfl rfl rfl rfl
  | eraseAttempt orq => exact h.of_same le_rfl rfl rfl rfl rfl rfl
  | relay irq orq reply hr hstatus => exact h.relay hr hstatus
  | settle irq orq reply acks hr hstatus => exact h.settle hr reply acks
  | cancel irq orq hpair hleg => exact h.cancel hpair
  | cancelLate irq hbound hgone => exact h.cancelLate hbound hgone
  | clearDialog leg hleg hquiet => exact h.clearDialog leg
  | replaceAttempt irq orq orqNew bLeg bLegNew request t n hr hleg hlive hinvite ht hquiet hb horq hn =>
    exact h.replaceAttempt hr hb horq hn

theorem RelayInv.callSteps {granted calm : Prop} (h : s.RelayInv) (hsteps : CallSteps granted calm s s') :
    s'.RelayInv := by
  induction hsteps with
  | refl => exact h
  | tail _ hstep ih => exact ih.callStep hstep

theorem relayInv_empty : RelayInv {} := by
  refine ⟨one_pos, ?_, ?_, ?_, rfl, trivial, ?_⟩
  · exact fun _ h => absurd h List.not_mem_nil
  · exact fun _ _ h => by cases h
  · exact fun _ h => absurd h List.not_mem_nil
  · exact fun _ _ h => absurd h (Bimap.not_mem_empty _)

end

end Calls

/-! ## All runs -/

namespace Controller

theorem relayInv_of_reachable {c : Controller} (hc : machine.Reachable c) : c.calls.RelayInv := by
  refine hc.invariant (I := fun c => c.calls.RelayInv) ?_ ?_
  · intro c hc
    rw [hc.calls]
    exact Calls.relayInv_empty
  · rintro c e h ⟨he, -⟩
    exact h.callSteps (callSteps_next h.next_pos he)

/-- **What a request is answered with, in every run.** It is paired with at most one transaction
    at a time; at most one final response is passed on to it, the one of the last transaction
    created for it; and every response that is passed on, provisional ones too, is one of the
    transaction that was the last created for it then, and comes before any CANCEL. -/
theorem relay_of_reachable {c : Controller} (hc : machine.Reachable c) :
    (∀ irq orq orq', (irq, orq) ∈ c.calls.transactions → (irq, orq') ∈ c.calls.transactions →
        orq = orq') ∧
      (∀ irq, c.calls.log.countP (CallEvent.isFinalReply irq) ≤ 1) ∧
      ∀ new old irq orq reply, c.calls.log = new ++ .replied irq orq reply :: old →
        old.findSome? (CallEvent.createdFor irq) = some orq ∧ .cancelled irq ∉ old ∧
          (200 ≤ reply.status → c.calls.log.findSome? (CallEvent.createdFor irq) = some orq) := by
  have horderly := (relayInv_of_reachable hc).orderly
  refine ⟨fun irq orq orq' => Bimap.left_unique, horderly.countP_le_one, ?_⟩
  intro new old irq orq reply hlog
  rw [hlog] at horderly ⊢
  obtain ⟨hlast, -, hcancelled⟩ := horderly.allowed
  exact ⟨hlast, hcancelled, horderly.lastCreated_of_final⟩

/-- The call is refused by the server. -/
def exampleRefused : Controller := exampleCall.next (.inviteResponse ⟨4⟩ { status := 486 } {})

theorem relay_exampleRefused : machine.Reachable exampleRefused ∧
    exampleRefused.calls.log.countP (CallEvent.isFinalReply ⟨1⟩) ≤ 1 ∧
      exampleRefused.calls.log.findSome? (CallEvent.createdFor ⟨1⟩) = some ⟨4⟩ := by
  have hcall : machine.Reachable exampleCall :=
    .step (.init exampleStart_initial) exampleInviteEvent_enabled
  have hpossible : exampleCall.Possible (.inviteResponse ⟨4⟩ { status := 486 } {}) := ⟨_, rfl, rfl, rfl⟩
  have henabled : machine.enabled exampleCall (.inviteResponse ⟨4⟩ { status := 486 } {}) :=
    ⟨hpossible, by decide⟩
  have hrefused : machine.Reachable (machine.next exampleCall (.inviteResponse ⟨4⟩ { status := 486 } {})) :=
    .step hcall henabled
  obtain ⟨-, hcount, hreply⟩ := relay_of_reachable hrefused
  exact ⟨hrefused, hcount ⟨1⟩, (hreply [] [.created ⟨1⟩ ⟨4⟩] ⟨1⟩ ⟨4⟩ { status := 486 } rfl).2.2 (by decide)⟩

end Controller

end Ssp
