import Ssp.Controller.Outcome
import Ssp.Controller.Pending

/-!
# The calls behind the tables

Which legs and transactions belong to one call, whatever nta grants: `Calls.Typed`. The A leg
of a call has its type for good, no B leg has one, and the A leg of an origination call lives
exactly as long as its dialog. An INVITE that is not finished is on the B leg of the call that
its request came in for.

This is kept by every event after which the controller has not crashed (`typed_next`). It does
not need what `LegInv` needs: a termination call may have no A leg, and a request inside of a
dialog no transaction.
-/

namespace Ssp

namespace Calls

/-- `orq` is the INVITE of the call with the legs `a` and `b`. -/
structure OfCall (s : Calls) (a b : Leg) (orq : Orq) : Prop where
  typed : s.callType a ≠ .unknown
  other : s.callType b = .unknown ∧ b ≠ .null
  sole : ∀ x, (x, b) ∈ s.dialogs → x = a
  dialog : s.callType a = .origination → a ∈ s.legs → (a, b) ∈ s.dialogs
  attempt : s.mapTerminationAttempts orq ≠ none → s.callType a = .termination

/-- What is known of the calls in the tables. -/
structure Typed (s : Calls) : Prop where
  next_pos : 0 < s.next
  legs_lt : ∀ l ∈ s.legs, 0 < l.address ∧ l.address < s.next
  legs_nodup : s.legs.Nodup
  pairs_lt : ∀ irq orq, (irq, orq) ∈ s.transactions → irq.address < s.next ∧ orq.address < s.next
  outgoing_null : s.outgoing .null = none
  type_lt : ∀ l, s.callType l ≠ .unknown → l.address < s.next
  type_null : s.callType .null ≠ .origination
  outgoing_lt : ∀ orq, ∀ o ∈ s.outgoing orq, orq.address < s.next ∧ o.leg.address < s.next
  attempt_lt : ∀ orq, s.mapTerminationAttempts orq ≠ none → orq.address < s.next
  dialogs : ∀ a b, (a, b) ∈ s.dialogs →
    s.callType a ≠ .unknown ∧ s.callType b = .unknown ∧ b ≠ .null ∧ b.address < s.next
  live : ∀ a, s.callType a = .origination → (a ∈ s.legs ↔ ∃ b, (a, b) ∈ s.dialogs)
  info : ∀ l, ∀ d ∈ s.mapDialogInfo l,
    (0 < l.address ∧ l.address < s.next) ∧ s.callType l = if d.bOrigination then .origination else .unknown
  record : ∀ a, s.callType a = .origination → a ∈ s.legs → s.recordOf a ≠ none
  info_b : ∀ a b, (a, b) ∈ s.dialogs → s.callType a = .termination → s.mapDialogInfo b ≠ none
  invite : ∀ irq orq, (irq, orq) ∈ s.transactions → ∀ o ∈ s.outgoing orq, o.callback = .responseToInvite →
    ∃ a ∈ s.incomingLeg irq, s.OfCall a o.leg orq
  bound : ∀ irq, ∀ i ∈ s.incoming irq, i.bound = true → i.destroyed = 0 →
    ∃ orq ≠ .null, (irq, orq) ∈ s.transactions

section

variable {s s' : Calls} {irq : Irq} {orq : Orq} {leg : Leg}

/-- What a dialog knows of its call. -/
def aboutCall (s : Calls) (l : Leg) : Option (Bool × Option ℕ) :=
  (s.mapDialogInfo l).map fun d => (d.bOrigination, d.cdr)

theorem recordOf_eq_aboutCall (s : Calls) (l : Leg) : s.recordOf l = (s.aboutCall l).bind Prod.snd := by
  unfold recordOf aboutCall
  cases s.mapDialogInfo l <;> rfl

/-- A leg with a dialog is a B leg or that of an origination call. -/
theorem Typed.origination_of_info (h : s.Typed) {d : SipDialogInfo} (hd : d ∈ s.mapDialogInfo leg)
    (hne : s.callType leg ≠ .unknown) : s.callType leg = .origination := by
  have htype := (h.info leg d hd).2
  split_ifs at htype
  · exact htype
  · exact absurd htype hne

/-- The A leg of a termination call has no dialog. -/
theorem Typed.info_eq_none (h : s.Typed) (hne : s.callType leg ≠ .unknown) (hne' : s.callType leg ≠ .origination) :
    s.mapDialogInfo leg = none :=
  Option.eq_none_iff_forall_not_mem.2 fun _ hd => hne' (h.origination_of_info hd hne)

/-- One lemma for all steps that leave the legs and the dialogs alone: no new INVITE comes in,
    and a request that is still open keeps its pair. -/
theorem Typed.of_frame (h : s.Typed) (hnext : s.next ≤ s'.next)
    (hlegs : s'.legs = s.legs) (htype : s'.callType = s.callType) (hdialogs : s'.dialogs = s.dialogs)
    (hinfo : s'.aboutCall = s.aboutCall)
    (hattempts : ∀ orq, s'.mapTerminationAttempts orq ≠ none → s.mapTerminationAttempts orq ≠ none)
    (houtgoing : ∀ orq, ∀ o' ∈ s'.outgoing orq,
      (∃ o ∈ s.outgoing orq, o.leg = o'.leg ∧ o.callback = o'.callback) ∨
        orq ≠ .null ∧ (orq.address < s'.next ∧ o'.leg.address < s'.next) ∧ o'.callback ≠ .responseToInvite)
    (hincoming : ∀ irq : Irq, irq.address < s.next → s'.incomingLeg irq = s.incomingLeg irq)
    (htransactions : ∀ irq orq, (irq, orq) ∈ s'.transactions →
      (irq, orq) ∈ s.transactions ∨
        (irq.address < s'.next ∧ orq.address < s'.next) ∧ (orq = .null ∨ s.next ≤ orq.address))
    (hbound : ∀ irq, ∀ i ∈ s'.incoming irq, i.bound = true → i.destroyed = 0 →
      ∃ orq ≠ .null, (irq, orq) ∈ s'.transactions) : s'.Typed := by
  refine ⟨h.next_pos.trans_le hnext, ?_, ?_, ?_, ?_, ?_, ?_, ?_, ?_, ?_, ?_, ?_, ?_, ?_, ?_, hbound⟩
  · rw [hlegs]
    exact fun l hl => ⟨(h.legs_lt l hl).1, (h.legs_lt l hl).2.trans_le hnext⟩
  · rw [hlegs]
    exact h.legs_nodup
  · intro irq orq hpair
    rcases htransactions irq orq hpair with hold | ⟨hlt, -⟩
    · obtain ⟨hirq, horq⟩ := h.pairs_lt irq orq hold
      exact ⟨hirq.trans_le hnext, horq.trans_le hnext⟩
    · exact hlt
  · refine Option.eq_none_iff_forall_not_mem.2 fun o' ho' => ?_
    rcases houtgoing .null o' ho' with ⟨o, ho, -⟩ | ⟨hnull, -⟩
    · rw [h.outgoing_null] at ho
      cases ho
    · exact hnull rfl
  · rw [htype]
    exact fun l hl => (h.type_lt l hl).trans_le hnext
  · rw [htype]
    exact h.type_null
  · intro orq o' ho'
    rcases houtgoing orq o' ho' with ⟨o, ho, hleg, -⟩ | ⟨-, hlt, -⟩
    · rw [← hleg]
      exact ⟨(h.outgoing_lt orq o ho).1.trans_le hnext, (h.outgoing_lt orq o ho).2.trans_le hnext⟩
    · exact hlt
  · exact fun orq horq => (h.attempt_lt orq (hattempts orq horq)).trans_le hnext
  · rw [hdialogs, htype]
    intro a b hab
    obtain ⟨ha, hb, hnull, hlt⟩ := h.dialogs a b hab
    exact ⟨ha, hb, hnull, hlt.trans_le hnext⟩
  · rw [hdialogs, htype, hlegs]
    exact h.live
  · intro l d hd
    have habout : s.aboutCall l = some (d.bOrigination, d.cdr) := by
      rw [← hinfo, aboutCall, show s'.mapDialogInfo l = some d from hd]
      rfl
    obtain ⟨d', hd', heq⟩ := Option.map_eq_some_iff.1 habout
    obtain ⟨hlt, htype'⟩ := h.info l d' hd'
    rw [htype, ← (Prod.mk.inj heq).1]
    exact ⟨⟨hlt.1, hlt.2.trans_le hnext⟩, htype'⟩
  · intro a ha hlive
    rw [recordOf_eq_aboutCall, hinfo, ← recordOf_eq_aboutCall]
    exact h.record a (htype ▸ ha) (hlegs ▸ hlive)
  · intro a b hab ha hnone
    have habout : s.aboutCall b = none := by
      rw [← hinfo, aboutCall, hnone]
      rfl
    exact h.info_b a b (hdialogs ▸ hab) (htype ▸ ha) (Option.map_eq_none_iff.1 habout)
  · intro irq orq hpair o' ho' hcallback
    -- The INVITE was there before, and so was the pair.
    rcases houtgoing orq o' ho' with ⟨o, ho, hleg, hcallback'⟩ | ⟨-, -, hne⟩
    · have hold : (irq, orq) ∈ s.transactions := by
        rcases htransactions irq orq hpair with hold | ⟨-, rfl | hfresh⟩
        · exact hold
        · rw [h.outgoing_null] at ho
          cases ho
        · exact absurd (h.outgoing_lt orq o ho).1 (not_lt.2 hfresh)
      obtain ⟨a, ha, hcall⟩ := h.invite irq orq hold o ho (hcallback'.trans hcallback)
      rw [hleg] at hcall
      refine ⟨a, ?_, ?_⟩
      · rw [hincoming irq (h.pairs_lt irq orq hold).1]
        exact ha
      · refine ⟨?_, ?_, ?_, ?_, fun ht => ?_⟩
        · rw [htype]
          exact hcall.typed
        · rw [htype]
          exact hcall.other
        · rw [hdialogs]
          exact hcall.sole
        · rw [htype, hlegs, hdialogs]
          exact hcall.dialog
        · rw [htype]
          exact hcall.attempt (hattempts orq ht)
    · exact absurd hcallback hne

/-! ## Steps that leave the dialogs alone -/

/-- A step that changes only the log and the faults. -/
theorem Typed.of_log (h : s.Typed) (log : List CallEvent) (faults : List Fault) :
    Typed { s with log := log, faults := faults } :=
  h.of_frame le_rfl rfl rfl rfl rfl (fun _ ht => ht) (fun _ o ho => .inl ⟨o, ho, rfl, rfl⟩)
    (fun _ _ => rfl) (fun _ _ hp => .inl hp) h.bound

theorem Typed.record_event (h : s.Typed) (e : CallEvent) : (s.record e).Typed :=
  h.of_log _ _

theorem Typed.fault (h : s.Typed) (f : Fault) : (s.fault f).Typed := h.of_log _ _

theorem Typed.advance (h : s.Typed) {n : ℕ} (hn : s.next ≤ n) :
    Typed { s with next := n } :=
  h.of_frame hn rfl rfl rfl rfl (fun _ ht => ht) (fun _ o ho => .inl ⟨o, ho, rfl, rfl⟩)
    (fun _ _ => rfl) (fun _ _ hp => .inl hp) h.bound

theorem Typed.eraseAttempt (h : s.Typed) (orq : Orq) : (s.eraseAttempt orq).Typed := by
  refine h.of_frame le_rfl rfl rfl rfl rfl (fun orq' ht => ?_) (fun _ o ho => .inl ⟨o, ho, rfl, rfl⟩)
    (fun _ _ => rfl) (fun _ _ hp => .inl hp) h.bound
  change Function.update s.mapTerminationAttempts orq none orq' ≠ none at ht
  by_cases heq : orq' = orq
  · subst heq
    exact absurd (Function.update_self _ _ _) ht
  · rwa [Function.update_of_ne heq] at ht

theorem Typed.updateDialogInfo (h : s.Typed) {k : SipDialogInfo → SipDialogInfo}
    (hk : Controller.KeepsDialog k) (leg : Leg) : (s.updateDialogInfo leg k).Typed := by
  refine h.of_frame le_rfl rfl rfl rfl (funext fun l => ?_) (fun _ ht => ht)
    (fun _ o ho => .inl ⟨o, ho, rfl, rfl⟩) (fun _ _ => rfl) (fun _ _ hp => .inl hp) h.bound
  change (Function.update s.mapDialogInfo leg _ l).map _ = _
  by_cases heq : l = leg
  · subst heq
    rw [Function.update_self, Option.map_map]
    refine congrArg (Option.map · _) (funext fun d => ?_)
    exact Prod.ext (hk d).2.1 (hk d).2.2
  · rw [Function.update_of_ne heq]
    rfl

theorem Typed.destroyOutgoing (h : s.Typed) (orq : Orq) :
    (s.destroyOutgoing orq).Typed :=
  h.of_frame le_rfl rfl rfl rfl rfl (fun _ ht => ht)
    (fun _ _ ho' => .inl (mem_destroyOutgoing ho')) (fun _ _ => rfl) (fun _ _ hp => .inl hp) h.bound

/-- The request of a pair that goes is destroyed with it. -/
theorem Typed.clearTransaction (h : s.Typed) (orq : Orq) :
    (s.clearTransaction orq).Typed := by
  refine h.of_frame le_rfl rfl rfl rfl rfl (fun _ ht => ht)
    (fun orq' o' ho' => .inl (mem_destroyOutgoing (s := s) ho'))
    (fun irq' _ => s.incomingLeg_clearTransaction orq irq')
    (fun irq' orq' hp => .inl (Bimap.mem_eraseRight.1 hp).1) ?_
  intro irq i' hi' hbound hdestroyed
  change i' ∈ Function.update s.incoming _ _ irq at hi'
  by_cases heq : irq = s.getAssociatedIncoming orq
  · rw [heq, Function.update_self] at hi'
    obtain ⟨i, -, rfl⟩ := Option.map_eq_some_iff.1 hi'
    exact absurd hdestroyed (Nat.succ_ne_zero _)
  · rw [Function.update_of_ne heq] at hi'
    obtain ⟨orq', hnull, hpair⟩ := h.bound irq i' hi' hbound hdestroyed
    refine ⟨orq', hnull, Bimap.mem_eraseRight.2 ⟨hpair, ?_⟩⟩
    rintro rfl
    exact heq (getAssociatedIncoming_of_mem hpair).symm

theorem Typed.settle (h : s.Typed) (irq : Irq) (orq : Orq) (reply : Reply)
    (acks : List Leg) : (s.settle irq orq reply acks).Typed := by
  exact (h.of_log (acks.map (.sent · .ack) ++ .replied irq orq reply :: s.log) s.faults).clearTransaction orq

/-- A new server transaction that is not bound, or not open any more. -/
theorem incomingLeg_update (s : Calls) (i : Incoming) {irq' : Irq} (h : irq'.address < s.next) :
    (Function.update s.incoming ⟨s.next⟩ (some i) irq').map (·.leg) = s.incomingLeg irq' := by
  rw [Function.update_of_ne]
  · rfl
  · rintro rfl
    exact lt_irrefl _ h

theorem bound_update {i : Incoming} (h : s.Typed) (hi : i.bound = true → i.destroyed ≠ 0)
    {irq' : Irq} {i' : Incoming} (hi' : i' ∈ Function.update s.incoming ⟨s.next⟩ (some i) irq')
    (hbound : i'.bound = true) (hdestroyed : i'.destroyed = 0) :
    ∃ orq ≠ .null, (irq', orq) ∈ s.transactions := by
  by_cases heq : irq' = ⟨s.next⟩
  · subst heq
    rw [Function.update_self] at hi'
    obtain rfl : i = i' := Option.some_inj.1 hi'
    exact absurd hdestroyed (hi hbound)
  · rw [Function.update_of_ne heq] at hi'
    exact h.bound irq' i' hi' hbound hdestroyed

theorem Typed.refuse (h : s.Typed) (hs : Controller.RefusedCalls s s') : s'.Typed := by
  obtain ⟨i, status, n, hn, hi, -, rfl⟩ := hs
  exact h.of_frame hn.le rfl rfl rfl rfl (fun _ ht => ht) (fun _ o ho => .inl ⟨o, ho, rfl, rfl⟩)
    (fun irq' hirq' => s.incomingLeg_update i hirq') (fun _ _ hp => .inl hp)
    fun irq' i' hi' hbound hdestroyed => bound_update h (fun _ => hi) hi' hbound hdestroyed

theorem Typed.forward (h : s.Typed) {other : Leg} {n : ℕ} (hother : other.address < s.next)
    (horq : orq = .null ∨ s.next < orq.address ∧ orq.address < n) (hn : s.next < n) (leg : Leg)
    (request : OutgoingRequest) : (s.forward leg other orq request n).Typed := by
  refine h.of_frame hn.le rfl rfl rfl rfl (fun _ ht => ht) (fun orq' o' ho' => ?_)
    (fun irq' hirq' => s.incomingLeg_update _ hirq') (fun irq' orq' hp => ?_) ?_
  · change o' ∈ (if orq = .null then s.outgoing else Function.update s.outgoing orq _) orq' at ho'
    split_ifs at ho' with hnull
    · exact .inl ⟨o', ho', rfl, rfl⟩
    · obtain ⟨hlt, hlt'⟩ := horq.resolve_left hnull
      by_cases heq : orq' = orq
      · subst heq
        rw [Function.update_self] at ho'
        obtain rfl := Option.some_inj.1 ho'
        exact .inr ⟨hnull, ⟨hlt', hother.trans hn⟩, Callback.noConfusion⟩
      · rw [Function.update_of_ne heq] at ho'
        exact .inl ⟨o', ho', rfl, rfl⟩
  · rcases Bimap.mem_of_mem_insert hp with heq | hold
    · obtain ⟨rfl, rfl⟩ := Prod.mk.inj heq
      refine .inr ⟨⟨hn, ?_⟩, horq.imp_right fun hlt => hlt.1.le⟩
      rcases horq with rfl | ⟨-, hlt⟩
      · exact h.next_pos.trans hn
      · exact hlt
    · exact .inl hold
  · intro irq' i' hi' hbound hdestroyed
    obtain ⟨orq', hnull, hpair⟩ := bound_update h (by simp) hi' hbound hdestroyed
    exact ⟨orq', hnull, Bimap.mem_insert_of_mem hpair _ _⟩

/-! ## A call ends -/

/-- The call with the legs `a` and `b` is gone. -/
structure Cleared (s s' : Calls) (a b : Leg) : Prop where
  legs_nodup : s'.legs.Nodup
  mem_legs : ∀ l, l ∈ s'.legs ↔ l ∈ s.legs ∧ l ≠ a ∧ l ≠ b
  mem_dialogs : ∀ p, p ∈ s'.dialogs ↔ p ∈ s.dialogs ∧ p ≠ (a, b)
  info : ∀ l, s'.mapDialogInfo l = if l = a ∨ l = b then none else s.mapDialogInfo l

/-- No pair of legs has a side in common with another one, and no leg is on both sides. -/
theorem Typed.sides (h : s.Typed) {a b x y : Leg} (hab : (a, b) ∈ s.dialogs) (hxy : (x, y) ∈ s.dialogs) :
    x ≠ b := by
  rintro rfl
  exact (h.dialogs _ _ hxy).1 (h.dialogs _ _ hab).2.1

/-- Nothing went wrong that ends the process. -/
def Intact (s : Calls) : Prop := .endIterator ∉ s.faults ∧ .legDestroyedTwice ∉ s.faults

/-- A leg that is destroyed was there. -/
theorem destroyLeg_of_intact (hs : (s.destroyLeg leg).Intact) (hnull : leg ≠ .null) :
    leg ∈ s.legs ∧ s.destroyLeg leg = { s with legs := s.legs.erase leg } := by
  by_cases hleg : leg ∈ s.legs
  · exact ⟨hleg, destroyLeg_of_mem hnull hleg⟩
  · rw [destroyLeg, if_neg hnull, if_neg hleg] at hs
    exact absurd List.mem_cons_self hs.2

theorem intact_of_destroyLeg (hs : (s.destroyLeg leg).Intact) : s.Intact := by
  unfold destroyLeg at hs
  split_ifs at hs
  · exact hs
  · exact hs
  · exact ⟨fun h => hs.1 (List.mem_cons_of_mem _ h), fun h => hs.2 (List.mem_cons_of_mem _ h)⟩

/-- What `clearDialog` does where nothing goes wrong: the other side may be `NULL`. -/
theorem clearDialog_eq (hs : (s.clearDialog leg).Intact) (hnull : leg ≠ .null) :
    ∃ other, s.getAssociatedDialog leg = some other ∧ leg ∈ s.legs ∧
      (other = .null ∧ (s.clearDialog leg) =
          { s with
            legs := s.legs.erase leg
            dialogs := (s.dialogs.eraseLeft leg).eraseRight leg
            mapDialogInfo := Function.update s.mapDialogInfo leg none
            faults := .assertion .clearDialogNoOther :: s.faults } ∨
        other ≠ .null ∧ other ∈ s.legs.erase leg ∧ (s.clearDialog leg) =
          { s with
            legs := (s.legs.erase leg).erase other
            dialogs := (s.dialogs.eraseLeft leg).eraseRight leg
            mapDialogInfo := Function.update (Function.update s.mapDialogInfo leg none) other none }) := by
  unfold clearDialog at hs ⊢
  cases hother : s.getAssociatedDialog leg with
  | none =>
    rw [hother] at hs
    exact absurd List.mem_cons_self hs.1
  | some other =>
    rw [hother] at hs
    dsimp only at hs ⊢
    by_cases hnull' : other = .null
    · rw [if_pos hnull'] at hs ⊢
      have hs' : (s.destroyLeg leg).Intact :=
        ⟨fun h => hs.1 (List.mem_cons_of_mem _ h), fun h => hs.2 (List.mem_cons_of_mem _ h)⟩
      obtain ⟨hleg, heq⟩ := destroyLeg_of_intact hs' hnull
      refine ⟨other, rfl, hleg, .inl ⟨hnull', ?_⟩⟩
      rw [heq]
      rfl
    · rw [if_neg hnull'] at hs ⊢
      obtain ⟨hleg', heq'⟩ := destroyLeg_of_intact (s := ((s.destroyLeg leg).eraseDialog leg).eraseDialogInfo leg)
        hs hnull'
      have hs' : (s.destroyLeg leg).Intact :=
        intact_of_destroyLeg (s := ((s.destroyLeg leg).eraseDialog leg).eraseDialogInfo leg) hs
      obtain ⟨hleg, heq⟩ := destroyLeg_of_intact hs' hnull
      rw [heq] at hleg' heq'
      refine ⟨other, rfl, hleg, .inr ⟨hnull', hleg', ?_⟩⟩
      rw [heq, heq']
      rfl

/-- `clearDialog` takes a call away. -/
theorem Typed.cleared (h : s.Typed) (hs : (s.clearDialog leg).Intact) (hnull : leg ≠ .null) :
    ∃ a b, (a, b) ∈ s.dialogs ∧ (leg = a ∨ leg = b) ∧ leg ∈ s.legs ∧ Cleared s (s.clearDialog leg) a b := by
  obtain ⟨other, hget, hleg, hcases⟩ := clearDialog_eq hs hnull
  obtain ⟨a, b, hab, hside⟩ : ∃ a b, (a, b) ∈ s.dialogs ∧ (leg = a ∧ other = b ∨ leg = b ∧ other = a) := by
    rcases mem_of_getAssociatedDialog hget with hab | hab
    · exact ⟨leg, other, hab, .inl ⟨rfl, rfl⟩⟩
    · exact ⟨other, leg, hab, .inr ⟨rfl, rfl⟩⟩
  refine ⟨a, b, hab, hside.imp And.left And.left, hleg, ?_⟩
  have hdialogs : ∀ p, p ∈ (s.dialogs.eraseLeft leg).eraseRight leg ↔ p ∈ s.dialogs ∧ p ≠ (a, b) := by
    rintro ⟨x, y⟩
    rw [Bimap.mem_eraseRight, Bimap.mem_eraseLeft]
    constructor
    · rintro ⟨⟨hxy, hx⟩, hy⟩
      refine ⟨hxy, fun heq => ?_⟩
      obtain ⟨rfl, rfl⟩ := Prod.mk.inj heq
      rcases hside with ⟨rfl, -⟩ | ⟨rfl, -⟩
      · exact hx rfl
      · exact hy rfl
    · rintro ⟨hxy, hne⟩
      rcases hside with ⟨rfl, -⟩ | ⟨rfl, -⟩
      · refine ⟨⟨hxy, fun hx => hne ?_⟩, fun hy => h.sides hxy hab hy.symm⟩
        obtain rfl : x = leg := hx
        rw [Bimap.left_unique hxy hab]
      · refine ⟨⟨hxy, h.sides hab hxy⟩, fun hy => hne ?_⟩
        obtain rfl : y = leg := hy
        rw [Bimap.right_unique hxy hab]
  have hlegNull : .null ∉ s.legs := fun hl => lt_irrefl _ (h.legs_lt _ hl).1
  have hinfoNull : s.mapDialogInfo .null = none :=
    Option.eq_none_iff_forall_not_mem.2 fun d hd => lt_irrefl _ (h.info _ d hd).1.1
  rcases hcases with ⟨rfl, heq⟩ | ⟨hnull', -, heq⟩
  · -- Only the B leg can be alone.
    obtain ⟨rfl, rfl⟩ : leg = b ∧ a = .null := by
      rcases hside with ⟨rfl, hb⟩ | ⟨rfl, ha⟩
      · exact absurd hb.symm (h.dialogs _ _ hab).2.2.1
      · exact ⟨rfl, ha.symm⟩
    rw [heq]
    refine ⟨h.legs_nodup.erase _, fun l => ?_, hdialogs, fun l => ?_⟩
    · rw [h.legs_nodup.mem_erase_iff]
      constructor
      · rintro ⟨hne, hl⟩
        exact ⟨hl, fun h0 => hlegNull (h0 ▸ hl), hne⟩
      · rintro ⟨hl, -, hne⟩
        exact ⟨hne, hl⟩
    · simp only [Function.update_apply]
      by_cases hl : l = leg
      · simp [hl]
      · by_cases hl' : l = .null
        · simp [hl', hinfoNull]
        · simp [hl, hl']
  · rw [heq]
    refine ⟨(h.legs_nodup.erase _).erase _, fun l => ?_, hdialogs, fun l => ?_⟩
    · rw [(h.legs_nodup.erase _).mem_erase_iff, h.legs_nodup.mem_erase_iff]
      rcases hside with ⟨rfl, rfl⟩ | ⟨rfl, rfl⟩ <;> tauto
    · simp only [Function.update_apply]
      rcases hside with ⟨rfl, rfl⟩ | ⟨rfl, rfl⟩ <;> split_ifs <;> tauto

theorem Typed.clearDialog (h : s.Typed) (hs : (s.clearDialog leg).Intact) (hnull : leg ≠ .null) :
    (s.clearDialog leg).Typed := by
  obtain ⟨a, b, hab, -, -, hc⟩ := h.cleared hs hnull
  have hincomingLeg : ∀ irq, (s.clearDialog leg).incomingLeg irq = s.incomingLeg irq := by
    intro irq
    rw [incomingLeg, clearDialog_incoming]
    rfl
  refine ⟨?_, ?_, hc.legs_nodup, ?_, ?_, ?_, ?_, ?_, ?_, ?_, ?_, ?_, ?_, ?_, ?_, ?_⟩ <;>
    simp only [clearDialog_next, clearDialog_transactions, clearDialog_outgoing, clearDialog_callType,
      clearDialog_mapTerminationAttempts, clearDialog_incoming, hincomingLeg]
  · exact h.next_pos
  · exact fun l hl => h.legs_lt l ((hc.mem_legs l).1 hl).1
  · exact h.pairs_lt
  · exact h.outgoing_null
  · exact h.type_lt
  · exact h.type_null
  · exact h.outgoing_lt
  · exact h.attempt_lt
  · exact fun x y hxy => h.dialogs x y ((hc.mem_dialogs _).1 hxy).1
  · intro x hx
    rw [hc.mem_legs, h.live x hx]
    constructor
    · rintro ⟨⟨y, hxy⟩, hxa, -⟩
      exact ⟨y, (hc.mem_dialogs _).2 ⟨hxy, fun heq => hxa (Prod.mk.inj heq).1⟩⟩
    · rintro ⟨y, hxy⟩
      obtain ⟨hxy, hne⟩ := (hc.mem_dialogs _).1 hxy
      refine ⟨⟨y, hxy⟩, ?_, h.sides hab hxy⟩
      rintro rfl
      exact hne (by rw [Bimap.left_unique hxy hab])
  · intro l d hd
    rw [hc.info] at hd
    split_ifs at hd
    · cases hd
    · exact h.info l d hd
  · intro x hx hlive
    obtain ⟨hlive, hxa, hxb⟩ := (hc.mem_legs x).1 hlive
    rw [recordOf, hc.info, if_neg (not_or.2 ⟨hxa, hxb⟩)]
    exact h.record x hx hlive
  · intro x y hxy hx
    obtain ⟨hxy, hne⟩ := (hc.mem_dialogs _).1 hxy
    rw [hc.info, if_neg]
    · exact h.info_b x y hxy hx
    · rintro (rfl | rfl)
      · exact h.sides hxy hab rfl
      · exact hne (by rw [Bimap.right_unique hxy hab])
  · intro irq orq hpair o ho hcallback
    obtain ⟨x, hx, hcall⟩ := h.invite irq orq hpair o ho hcallback
    refine ⟨x, hx, ?_, ?_, fun y hy => hcall.sole y ((hc.mem_dialogs _).1 hy).1, ?_, ?_⟩
    · rw [clearDialog_callType]
      exact hcall.typed
    · rw [clearDialog_callType]
      exact hcall.other
    · rw [clearDialog_callType]
      intro htype hlive
      obtain ⟨hlive, hxa, -⟩ := (hc.mem_legs x).1 hlive
      exact (hc.mem_dialogs _).2 ⟨hcall.dialog htype hlive, fun heq => hxa (Prod.mk.inj heq).1⟩
    · rw [clearDialog_callType, clearDialog_mapTerminationAttempts]
      exact hcall.attempt
  · exact h.bound

/-! ## A call begins -/

theorem Typed.legs_of_fresh (h : s.Typed) {l : Leg} (hl : s.next ≤ l.address) : l ∉ s.legs :=
  fun hmem => absurd (h.legs_lt l hmem).2 (not_lt.2 hl)

theorem Typed.fresh_ne_null (h : s.Typed) {l : Leg} (hl : s.next ≤ l.address) : l ≠ .null := by
  rintro rfl
  exact absurd hl (not_le.2 h.next_pos)

theorem Typed.type_of_fresh (h : s.Typed) {l : Leg} (hl : s.next ≤ l.address) :
    s.callType l = .unknown := by
  by_contra hne
  exact absurd (h.type_lt l hne) (not_lt.2 hl)

theorem Typed.info_of_fresh (h : s.Typed) {l : Leg} (hl : s.next ≤ l.address) :
    s.mapDialogInfo l = none :=
  Option.eq_none_iff_forall_not_mem.2 fun d hd => absurd (h.info l d hd).1.2 (not_lt.2 hl)

theorem Typed.left_of_fresh (h : s.Typed) {l : Leg} (hl : s.next ≤ l.address) (b : Leg) :
    (l, b) ∉ s.dialogs :=
  fun hmem => (h.dialogs l b hmem).1 (h.type_of_fresh hl)

theorem Typed.right_of_fresh (h : s.Typed) {l : Leg} (hl : s.next ≤ l.address) (a : Leg) :
    (a, l) ∉ s.dialogs :=
  fun hmem => absurd (h.dialogs a l hmem).2.2.2 (not_lt.2 hl)

/-- The handles of a new call are new, except that there may be no A leg. -/
structure Fresh (s : Calls) (callType : CallType) (aLeg bLeg : Leg) (orq : Orq) (n : ℕ) : Prop where
  type : callType ≠ .unknown
  a : aLeg = .null ∧ callType = .termination ∨ s.next < aLeg.address ∧ aLeg.address < bLeg.address
  b : s.next < bLeg.address
  invite : bLeg.address < orq.address
  next : orq.address < n

/-- What is known of the dialog of a new call: it is the one of the A leg of an origination call
    and has its record, or of the B leg of a termination call. -/
structure InfoFor (callType : CallType) (aLeg bLeg : Leg) (info : SipDialogInfo) : Prop where
  leg : info.leg = if callType = .termination then bLeg else aLeg
  type : info.bOrigination = decide (callType = .origination)
  cdr : callType = .origination → info.cdr ≠ none

section Open

variable {callType : CallType} {aLeg bLeg : Leg} {info : SipDialogInfo} {n : ℕ}

theorem Fresh.b_ne_null (hf : Fresh s callType aLeg bLeg orq n) : bLeg ≠ .null := by
  rintro rfl
  exact absurd hf.b (Nat.not_lt_zero _)

theorem Fresh.b_ne_a (hf : Fresh s callType aLeg bLeg orq n) : bLeg ≠ aLeg := by
  rintro rfl
  rcases hf.a with ⟨hnull, -⟩ | ⟨-, hlt⟩
  · exact hf.b_ne_null hnull
  · exact hlt.false

theorem Fresh.orq_lt (hf : Fresh s callType aLeg bLeg orq n) : s.next < orq.address := hf.b.trans hf.invite

theorem Fresh.orq_ne_null (hf : Fresh s callType aLeg bLeg orq n) : orq ≠ .null := by
  rintro rfl
  exact absurd hf.invite (Nat.not_lt_zero _)

theorem Fresh.a_lt (hf : Fresh s callType aLeg bLeg orq n) : aLeg.address < n := by
  rcases hf.a with ⟨rfl, -⟩ | ⟨-, hlt⟩
  · exact (Nat.zero_le _).trans_lt (hf.orq_lt.trans hf.next)
  · exact hlt.trans (hf.invite.trans hf.next)

/-- An origination call has an A leg. -/
theorem Fresh.a_ne_null (hf : Fresh s callType aLeg bLeg orq n) (horig : callType = .origination) :
    aLeg ≠ .null := by
  intro hnull
  rcases hf.a with ⟨-, hterm⟩ | ⟨ha, -⟩
  · exact CallType.noConfusion (horig.symm.trans hterm)
  · rw [hnull] at ha
    exact absurd ha (Nat.not_lt_zero _)

theorem Fresh.a_fresh (hf : Fresh s callType aLeg bLeg orq n) (hnull : aLeg ≠ .null) : s.next < aLeg.address :=
  (hf.a.resolve_left fun ha => hnull ha.1).1

theorem Fresh.next_lt (hf : Fresh s callType aLeg bLeg orq n) : s.next < n := hf.orq_lt.trans hf.next

/-- A leg that was there before is the A leg only if that is `NULL`. -/
theorem Fresh.of_lt (hf : Fresh s callType aLeg bLeg orq n) {l : Leg} (hl : l.address < s.next) :
    l ≠ bLeg ∧ (l = aLeg → callType = .termination) := by
  refine ⟨?_, ?_⟩
  · rintro rfl
    exact absurd hl (not_lt.2 hf.b.le)
  · rintro rfl
    exact hf.a.elim And.right fun hlt => absurd hl (not_lt.2 hlt.1.le)

/-- The type of a leg that was there before stays, except that of `NULL`. -/
theorem Fresh.type_of_lt (hf : Fresh s callType aLeg bLeg orq n) {l : Leg} (hl : l.address < s.next) :
    Function.update s.callType aLeg callType l = s.callType l ∨
      Function.update s.callType aLeg callType l = .termination ∧ l = .null := by
  by_cases heq : l = aLeg
  · have hterm := (hf.of_lt hl).2 heq
    refine .inr ⟨by rw [heq, Function.update_self, hterm], ?_⟩
    exact hf.a.elim (fun hnull => heq.trans hnull.1) fun hlt => absurd hl (heq ▸ not_lt.2 hlt.1.le)
  · exact .inl (Function.update_of_ne heq _ _)

theorem mem_legs_openCall (s : Calls) (callType : CallType) (aLeg bLeg : Leg) (orq : Orq)
    (request : OutgoingRequest) (info : SipDialogInfo) (t n : ℕ) (l : Leg) :
    l ∈ (s.openCall callType aLeg bLeg orq request info t n).legs ↔
      l = bLeg ∨ (l = aLeg ∧ aLeg ≠ .null) ∨ l ∈ s.legs := by
  change l ∈ (if _ then _ else _ : List Leg) ↔ _
  split_ifs with ha0 <;> simp [ha0]

theorem openCall_attempt_of_ne (s : Calls) (request : OutgoingRequest) (t : ℕ) {orq' : Orq}
    (hne : orq' ≠ orq) :
    (s.openCall callType aLeg bLeg orq request info t n).mapTerminationAttempts orq' =
      s.mapTerminationAttempts orq' := by
  change (if _ then _ else _ : Orq → Option ℕ) orq' = _
  split_ifs
  · unfold insertNew
    split_ifs
    · rfl
    · exact Function.update_of_ne hne _ _
  · rfl

/-- The pair of a new call that has an A leg goes into the table. -/
theorem Typed.mem_dialogs_openCall (h : s.Typed) (hf : Fresh s callType aLeg bLeg orq n)
    (hnull : aLeg ≠ .null) : (aLeg, bLeg) ∈ s.dialogs.insert aLeg bLeg := by
  have ha := (hf.a.resolve_left fun ha => hnull ha.1).1
  refine (Bimap.mem_insert_of_new (fun y => ?_) fun x => ?_).2 (.inl rfl)
  · exact h.left_of_fresh ha.le y
  · exact h.right_of_fresh hf.b.le x

/-- The dialog of a new call is new. -/
theorem Typed.info_openCall (h : s.Typed) (hf : Fresh s callType aLeg bLeg orq n)
    (hi : InfoFor callType aLeg bLeg info) (request : OutgoingRequest) (t : ℕ) :
    (s.next < info.leg.address ∧ info.leg.address < n) ∧
      (s.openCall callType aLeg bLeg orq request info t n).mapDialogInfo =
        Function.update s.mapDialogInfo info.leg (some info) := by
  have hlt : s.next < info.leg.address ∧ info.leg.address < n := by
    rw [hi.leg]
    split_ifs with hterm
    · exact ⟨hf.b, hf.invite.trans hf.next⟩
    · exact ⟨(hf.a.resolve_left fun ha => hterm ha.2).1, hf.a_lt⟩
  exact ⟨hlt, insertNew_of_none (h.info_of_fresh hlt.1.le) info⟩

theorem Typed.type_info_openCall (h : s.Typed) (hf : Fresh s callType aLeg bLeg orq n)
    (hi : InfoFor callType aLeg bLeg info) :
    Function.update s.callType aLeg callType info.leg =
      if info.bOrigination then .origination else .unknown := by
  rw [hi.leg, hi.type]
  cases callType with
  | origination => simp
  | termination => simpa [Function.update_of_ne hf.b_ne_a] using h.type_of_fresh hf.b.le
  | unknown => exact absurd rfl hf.type

/-- The INVITE of the new call. -/
theorem Typed.ofCall_openCall (h : s.Typed) (hf : Fresh s callType aLeg bLeg orq n)
    (request : OutgoingRequest) (t : ℕ) :
    (s.openCall callType aLeg bLeg orq request info t n).OfCall aLeg bLeg orq := by
  have htype : (s.openCall callType aLeg bLeg orq request info t n).callType aLeg = callType :=
    Function.update_self _ _ _
  refine ⟨?_, ⟨?_, hf.b_ne_null⟩, fun x hx => ?_, fun horig _ => ?_, fun ht => ?_⟩
  · rw [htype]
    exact hf.type
  · exact (Function.update_of_ne hf.b_ne_a _ _).trans (h.type_of_fresh hf.b.le)
  · rcases Bimap.mem_of_mem_insert hx with heq | hold
    · exact (Prod.mk.inj heq).1
    · exact absurd hold (h.right_of_fresh hf.b.le x)
  · rw [htype] at horig
    exact h.mem_dialogs_openCall hf (hf.a_ne_null horig)
  · rw [htype]
    by_contra hterm
    change (if _ then _ else _ : Orq → Option ℕ) orq ≠ none at ht
    rw [if_neg hterm] at ht
    exact absurd (h.attempt_lt orq ht) (not_lt.2 hf.orq_lt.le)

/-- The INVITEs of the other calls. -/
theorem OfCall.openCall {a b : Leg} {orq' : Orq} (hcall : s.OfCall a b orq') (h : s.Typed)
    (hf : Fresh s callType aLeg bLeg orq n) (hb : b.address < s.next) (horq' : orq' ≠ orq)
    (request : OutgoingRequest) (t : ℕ) :
    (s.openCall callType aLeg bLeg orq request info t n).OfCall a b orq' := by
  have hlt := h.type_lt a hcall.typed
  have htype := hf.type_of_lt hlt
  refine ⟨?_, ⟨?_, hcall.other.2⟩, fun x hx => ?_, fun horig hlive => ?_, fun ht => ?_⟩
  · rcases htype with heq | ⟨heq, -⟩
    · exact fun hne => hcall.typed (heq.symm.trans hne)
    · exact fun hne => CallType.noConfusion (heq.symm.trans hne)
  · rcases hf.type_of_lt hb with heq | ⟨-, heq⟩
    · exact heq.trans hcall.other.1
    · exact absurd heq hcall.other.2
  · rcases Bimap.mem_of_mem_insert hx with heq | hold
    · exact absurd (Prod.mk.inj heq).2 (hf.of_lt hb).1
    · exact hcall.sole x hold
  · rcases htype with heq | ⟨heq, -⟩
    · have hlive' : a ∈ s.legs := by
        rcases (mem_legs_openCall s _ _ _ _ _ _ _ _ a).1 hlive with heq | ⟨heq, hnull⟩ | hlive
        · exact absurd heq (hf.of_lt hlt).1
        · have ha := (hf.a.resolve_left fun ha => hnull ha.1).1
          rw [← heq] at ha
          exact absurd hlt (not_lt.2 ha.le)
        · exact hlive
      exact Bimap.mem_insert_of_mem (hcall.dialog (heq.symm.trans horig) hlive') _ _
    · exact absurd (heq.symm.trans horig) CallType.noConfusion
  · rw [openCall_attempt_of_ne s request t horq'] at ht
    rcases htype with heq | ⟨heq, -⟩
    · exact heq.trans (hcall.attempt ht)
    · exact heq

@[simp]
theorem openCall_type_self (s : Calls) (request : OutgoingRequest) (t : ℕ) :
    (s.openCall callType aLeg bLeg orq request info t n).callType aLeg = callType :=
  Function.update_self _ _ _

theorem openCall_type_of_ne (s : Calls) (request : OutgoingRequest) (t : ℕ) {l : Leg} (hl : l ≠ aLeg) :
    (s.openCall callType aLeg bLeg orq request info t n).callType l = s.callType l :=
  Function.update_of_ne hl _ _

section

variable (h : s.Typed) (hf : Fresh s callType aLeg bLeg orq n)

include h hf

theorem Typed.legs_lt_openCall (request : OutgoingRequest) (t : ℕ) :
    ∀ l ∈ (s.openCall callType aLeg bLeg orq request info t n).legs, 0 < l.address ∧ l.address < n := by
  intro l hl
  rcases (mem_legs_openCall s _ _ _ _ _ _ _ _ l).1 hl with rfl | ⟨rfl, hnull⟩ | hold
  · exact ⟨h.next_pos.trans hf.b, hf.invite.trans hf.next⟩
  · exact ⟨h.next_pos.trans (hf.a_fresh hnull), hf.a_lt⟩
  · exact ⟨(h.legs_lt l hold).1, (h.legs_lt l hold).2.trans hf.next_lt⟩

theorem Typed.legs_nodup_openCall (request : OutgoingRequest) (t : ℕ) :
    (s.openCall callType aLeg bLeg orq request info t n).legs.Nodup := by
  have hb : bLeg ∉ s.legs := h.legs_of_fresh hf.b.le
  change (if _ then _ else _ : List Leg).Nodup
  split_ifs with hnull
  · exact List.nodup_cons.2 ⟨hb, h.legs_nodup⟩
  · have ha : aLeg ∉ s.legs := h.legs_of_fresh (hf.a_fresh hnull).le
    refine List.nodup_cons.2 ⟨fun hmem => ?_, List.nodup_cons.2 ⟨ha, h.legs_nodup⟩⟩
    exact (List.mem_cons.1 hmem).elim hf.b_ne_a hb

theorem Typed.outgoing_lt_openCall (request : OutgoingRequest) (t : ℕ) (orq' : Orq) :
    ∀ o ∈ (s.openCall callType aLeg bLeg orq request info t n).outgoing orq', orq'.address < n ∧ o.leg.address < n := by
  intro o ho
  change o ∈ Function.update s.outgoing orq _ orq' at ho
  by_cases heq : orq' = orq
  · subst heq
    rw [Function.update_self] at ho
    obtain rfl := Option.some_inj.1 ho
    exact ⟨hf.next, hf.invite.trans hf.next⟩
  · rw [Function.update_of_ne heq] at ho
    exact ⟨(h.outgoing_lt orq' o ho).1.trans hf.next_lt, (h.outgoing_lt orq' o ho).2.trans hf.next_lt⟩

/-- The A leg of a new dialog has the type of the call, its B leg has none. -/
theorem Typed.types_openCall (request : OutgoingRequest) (t : ℕ) {a b : Leg}
    (hab : (a, b) ∈ (s.openCall callType aLeg bLeg orq request info t n).dialogs) :
    (s.openCall callType aLeg bLeg orq request info t n).callType a ≠ .unknown ∧
      (s.openCall callType aLeg bLeg orq request info t n).callType b = .unknown ∧ b ≠ .null ∧ b.address < n := by
  rcases Bimap.mem_of_mem_insert hab with heq | hold
  · obtain ⟨rfl, rfl⟩ := Prod.mk.inj heq
    refine ⟨by rw [openCall_type_self]; exact hf.type, ?_, hf.b_ne_null, hf.invite.trans hf.next⟩
    rw [openCall_type_of_ne s _ _ hf.b_ne_a]
    exact h.type_of_fresh hf.b.le
  · obtain ⟨ha, hb, hnull, hlt⟩ := h.dialogs a b hold
    refine ⟨?_, ?_, hnull, hlt.trans hf.next_lt⟩
    · rcases hf.type_of_lt (h.type_lt a ha) with heq | ⟨heq, -⟩
      · exact fun hne => ha (heq.symm.trans hne)
      · exact fun hne => CallType.noConfusion (heq.symm.trans hne)
    · rcases hf.type_of_lt hlt with heq | ⟨-, heq⟩
      · exact heq.trans hb
      · exact absurd heq hnull

/-- The A leg of an origination call is there together with its dialog. -/
theorem Typed.live_openCall (request : OutgoingRequest) (t : ℕ) {a : Leg}
    (ha : (s.openCall callType aLeg bLeg orq request info t n).callType a = .origination) :
    a ∈ (s.openCall callType aLeg bLeg orq request info t n).legs ↔
      ∃ b, (a, b) ∈ (s.openCall callType aLeg bLeg orq request info t n).dialogs := by
  by_cases heq : a = aLeg
  · subst heq
    rw [openCall_type_self] at ha
    exact iff_of_true ((mem_legs_openCall s _ _ _ _ _ _ _ _ a).2 (.inr (.inl ⟨rfl, hf.a_ne_null ha⟩)))
      ⟨bLeg, h.mem_dialogs_openCall hf (hf.a_ne_null ha)⟩
  · rw [openCall_type_of_ne s _ _ heq] at ha
    have hab : a ≠ bLeg := by
      rintro rfl
      exact CallType.noConfusion ((h.type_of_fresh hf.b.le).symm.trans ha)
    rw [mem_legs_openCall]
    refine ⟨fun hl => ?_, fun ⟨b, hl⟩ => .inr (.inr ((h.live a ha).2 ⟨b, ?_⟩))⟩
    · obtain ⟨b, hb⟩ := (h.live a ha).1 ((hl.resolve_left hab).resolve_left fun hl => heq hl.1)
      exact ⟨b, Bimap.mem_insert_of_mem hb _ _⟩
    · exact (Bimap.mem_of_mem_insert hl).resolve_left fun hl => heq (Prod.mk.inj hl).1

/-- An INVITE is still that of its call, and the new one is that of the new call. -/
theorem Typed.invite_openCall (request : OutgoingRequest) (t : ℕ) {irq' : Irq} {orq' : Orq}
    (hpair : (irq', orq') ∈ (s.openCall callType aLeg bLeg orq request info t n).transactions) {o : Outgoing}
    (ho : o ∈ (s.openCall callType aLeg bLeg orq request info t n).outgoing orq')
    (hcallback : o.callback = .responseToInvite) :
    ∃ a ∈ (s.openCall callType aLeg bLeg orq request info t n).incomingLeg irq',
      (s.openCall callType aLeg bLeg orq request info t n).OfCall a o.leg orq' := by
  rcases Bimap.mem_of_mem_insert hpair with heq | hold
  · obtain ⟨rfl, rfl⟩ := Prod.mk.inj heq
    change o ∈ Function.update s.outgoing orq' _ orq' at ho
    rw [Function.update_self] at ho
    obtain rfl := Option.some_inj.1 ho
    refine ⟨aLeg, ?_, h.ofCall_openCall hf request t⟩
    change aLeg ∈ (Function.update s.incoming _ _ _).map _
    rw [Function.update_self]
    rfl
  · obtain ⟨hirq, horq⟩ := h.pairs_lt irq' orq' hold
    have hne : orq' ≠ orq := by
      rintro rfl
      exact absurd horq (not_lt.2 hf.orq_lt.le)
    change o ∈ Function.update s.outgoing orq _ orq' at ho
    rw [Function.update_of_ne hne] at ho
    obtain ⟨a, ha, hcall⟩ := h.invite irq' orq' hold o ho hcallback
    refine ⟨a, ?_, hcall.openCall h hf (h.outgoing_lt orq' o ho).2 hne request t⟩
    exact (s.incomingLeg_update _ hirq).trans ha

/-- A request that is open has a pair. -/
theorem Typed.bound_openCall (request : OutgoingRequest) (t : ℕ) {irq' : Irq} {i : Incoming}
    (hi : i ∈ (s.openCall callType aLeg bLeg orq request info t n).incoming irq') (hbound : i.bound = true)
    (hdestroyed : i.destroyed = 0) :
    ∃ orq' ≠ .null, (irq', orq') ∈ (s.openCall callType aLeg bLeg orq request info t n).transactions := by
  by_cases heq : irq' = ⟨s.next⟩
  · refine ⟨orq, hf.orq_ne_null, ?_⟩
    rw [heq]
    refine (Bimap.mem_insert_of_new (fun y hy => ?_) fun x hx => ?_).2 (.inl rfl)
    · exact lt_irrefl _ (h.pairs_lt _ y hy).1
    · exact absurd (h.pairs_lt x orq hx).2 (not_lt.2 hf.orq_lt.le)
  · change i ∈ Function.update s.incoming _ _ irq' at hi
    rw [Function.update_of_ne heq] at hi
    obtain ⟨orq', hnull, hpair⟩ := h.bound irq' i hi hbound hdestroyed
    exact ⟨orq', hnull, Bimap.mem_insert_of_mem hpair _ _⟩

variable (hi : InfoFor callType aLeg bLeg info)

include hi

/-- What is known of the dialogs is of the right type. -/
theorem Typed.type_of_info_openCall (request : OutgoingRequest) (t : ℕ) {l : Leg} {d : SipDialogInfo}
    (hd : d ∈ (s.openCall callType aLeg bLeg orq request info t n).mapDialogInfo l) :
    (0 < l.address ∧ l.address < n) ∧
      (s.openCall callType aLeg bLeg orq request info t n).callType l =
        if d.bOrigination then .origination else .unknown := by
  obtain ⟨hinfoLt, hinfoEq⟩ := h.info_openCall hf hi request t
  rw [hinfoEq] at hd
  by_cases heq : l = info.leg
  · subst heq
    rw [Function.update_self] at hd
    obtain rfl := Option.some_inj.1 hd
    exact ⟨⟨h.next_pos.trans hinfoLt.1, hinfoLt.2⟩, h.type_info_openCall hf hi⟩
  · rw [Function.update_of_ne heq] at hd
    obtain ⟨hlt, htype'⟩ := h.info l d hd
    refine ⟨⟨hlt.1, hlt.2.trans hf.next_lt⟩, ?_⟩
    rcases hf.type_of_lt hlt.2 with heq | ⟨-, hnull⟩
    · exact heq.trans htype'
    · rw [hnull] at hlt
      exact absurd hlt.1 (lt_irrefl _)

/-- An origination call that is there has a record. -/
theorem Typed.record_openCall (request : OutgoingRequest) (t : ℕ) {a : Leg}
    (ha : (s.openCall callType aLeg bLeg orq request info t n).callType a = .origination)
    (hlive : a ∈ (s.openCall callType aLeg bLeg orq request info t n).legs) :
    (s.openCall callType aLeg bLeg orq request info t n).recordOf a ≠ none := by
  obtain ⟨hinfoLt, hinfoEq⟩ := h.info_openCall hf hi request t
  rw [recordOf, hinfoEq]
  by_cases heq : a = aLeg
  · subst heq
    rw [openCall_type_self] at ha
    have hleg : info.leg = a := by
      rw [hi.leg, if_neg]
      exact fun hterm => CallType.noConfusion (ha.symm.trans hterm)
    rw [hleg, Function.update_self]
    exact hi.cdr ha
  · rw [openCall_type_of_ne s _ _ heq] at ha
    have hold : a ∈ s.legs := by
      rcases (mem_legs_openCall s _ _ _ _ _ _ _ _ a).1 hlive with rfl | ⟨heq', -⟩ | hold
      · exact absurd ((h.type_of_fresh hf.b.le).symm.trans ha) CallType.noConfusion
      · exact absurd heq' heq
      · exact hold
    rw [Function.update_of_ne]
    · exact h.record a ha hold
    · rintro rfl
      exact absurd (h.legs_lt _ hold).2 (not_lt.2 hinfoLt.1.le)

/-- The B leg of a termination call has its dialog. -/
theorem Typed.info_b_openCall (request : OutgoingRequest) (t : ℕ) {a b : Leg}
    (hab : (a, b) ∈ (s.openCall callType aLeg bLeg orq request info t n).dialogs)
    (ha : (s.openCall callType aLeg bLeg orq request info t n).callType a = .termination) :
    (s.openCall callType aLeg bLeg orq request info t n).mapDialogInfo b ≠ none := by
  obtain ⟨hinfoLt, hinfoEq⟩ := h.info_openCall hf hi request t
  rw [hinfoEq]
  rcases Bimap.mem_of_mem_insert hab with heq | hold
  · obtain ⟨rfl, rfl⟩ := Prod.mk.inj heq
    rw [openCall_type_self] at ha
    rw [hi.leg, if_pos ha, Function.update_self]
    exact Option.some_ne_none _
  · obtain ⟨ha', -, -, hlt⟩ := h.dialogs a b hold
    rw [Function.update_of_ne]
    · rcases hf.type_of_lt (h.type_lt a ha') with heq | ⟨-, rfl⟩
      · exact h.info_b a b hold (heq.symm.trans ha)
      · refine h.info_b .null b hold ?_
        cases hnull : s.callType .null with
        | origination => exact absurd hnull h.type_null
        | termination => rfl
        | unknown => exact absurd hnull ha'
    · rintro rfl
      exact absurd hlt (not_lt.2 hinfoLt.1.le)

/-- **A call begins.** The tables are those of calls with one more. -/
theorem Typed.openCall (request : OutgoingRequest) (t : ℕ) : (s.openCall callType aLeg bLeg orq request info t n).Typed := by
  refine ⟨h.next_pos.trans hf.next_lt, h.legs_lt_openCall hf request t, h.legs_nodup_openCall hf request t, ?_, ?_,
    ?_, ?_, h.outgoing_lt_openCall hf request t, ?_, fun a b => h.types_openCall hf request t,
    fun a => h.live_openCall hf request t, fun l d => h.type_of_info_openCall hf hi request t,
    fun a => h.record_openCall hf hi request t, fun a b => h.info_b_openCall hf hi request t,
    fun irq' orq' hpair o => h.invite_openCall hf request t hpair,
    fun irq' i => h.bound_openCall hf request t⟩
  · -- pairs_lt
    intro irq' orq' hpair
    rcases Bimap.mem_of_mem_insert hpair with heq | hold
    · obtain ⟨rfl, rfl⟩ := Prod.mk.inj heq
      exact ⟨hf.next_lt, hf.next⟩
    · exact ⟨(h.pairs_lt irq' orq' hold).1.trans hf.next_lt, (h.pairs_lt irq' orq' hold).2.trans hf.next_lt⟩
  · -- outgoing_null
    exact (Function.update_of_ne hf.orq_ne_null.symm _ _).trans h.outgoing_null
  · -- type_lt
    intro l hl
    by_cases heq : l = aLeg
    · rw [heq]
      exact hf.a_lt
    · rw [openCall_type_of_ne s _ _ heq] at hl
      exact (h.type_lt l hl).trans hf.next_lt
  · -- type_null
    by_cases heq : .null = aLeg
    · rw [heq, openCall_type_self]
      exact fun horig => hf.a_ne_null horig heq.symm
    · rw [openCall_type_of_ne s _ _ heq]
      exact h.type_null
  · -- attempt_lt
    intro orq' ht
    by_cases heq : orq' = orq
    · rw [heq]
      exact hf.next
    · rw [openCall_attempt_of_ne s request t heq] at ht
      exact (h.attempt_lt orq' ht).trans hf.next_lt

end

end Open

/-! ## Another attempt -/

/-- What another attempt needs: the INVITE of a call, with a response to it. -/
theorem Typed.moved (h : s.Typed) {a bLeg : Leg} (hcall : s.OfCall a bLeg orq) (hlive : bLeg ∈ s.legs)
    (ht : s.mapTerminationAttempts orq ≠ none) {bLegNew : Leg} (hb : s.next ≤ bLegNew.address)
    (irq : Irq) (orqNew : Orq) (request : OutgoingRequest) (t n : ℕ)
    (hs : (s.replaceAttempt irq orq orqNew bLeg bLegNew request t n).Intact) :
    (a, bLeg) ∈ s.dialogs ∧
      Moved s (s.replaceAttempt irq orq orqNew bLeg bLegNew request t n) a bLeg bLegNew ∧
      ∃ d ∈ s.mapDialogInfo bLeg, (s.replaceAttempt irq orq orqNew bLeg bLegNew request t n).mapDialogInfo =
        Function.update (Function.update s.mapDialogInfo bLegNew (some { d with leg := bLegNew })) bLeg none := by
  have hnull' : bLegNew ≠ .null := h.fresh_ne_null hb
  -- The other side is there, or the end iterator would have been read.
  have hget : s.getAssociatedDialog bLeg = some a := by
    cases hget : s.getAssociatedDialog bLeg with
    | none =>
      refine absurd ?_ hs.1
      unfold replaceAttempt updateDialog
      rw [if_neg (not_or.2 ⟨hcall.other.2, hnull'⟩)]
      unfold moveDialog
      rw [show ∀ u : Calls, u.dialogs = s.dialogs → u.getAssociatedDialog bLeg = none from
        fun u hu => by rw [getAssociatedDialog, hu]; exact hget]
      · exact List.mem_cons_self
      · rfl
    | some x =>
      rcases mem_of_getAssociatedDialog hget with hmem | hmem
      · exact absurd hcall.other.1 (h.dialogs bLeg x hmem).1
      · rw [hcall.sole x hmem]
  have hab : (a, bLeg) ∈ s.dialogs := by
    rcases mem_of_getAssociatedDialog hget with hmem | hmem
    · exact absurd hcall.other.1 (h.dialogs bLeg a hmem).1
    · exact hmem
  obtain ⟨d, hd⟩ := Option.ne_none_iff_exists'.1 (h.info_b a bLeg hab (hcall.attempt ht))
  obtain ⟨hm, hinfo⟩ := replaceAttempt_moved h.legs_nodup hab hget hlive hcall.other.2 hd hnull'
    (h.legs_of_fresh hb) (h.right_of_fresh hb) (h.info_of_fresh hb) irq orq orqNew request t n
  exact ⟨hab, hm, d, hd, hinfo⟩

/-- The INVITE of another call, or the new one of this call, where the call with the legs `a` and
    `b` goes on with `a` and `b'`. -/
theorem OfCall.of_moved {x y a b b' : Leg} {orq orq' : Orq} (hcall : s.OfCall x y orq) (hm : Moved s s' a b b')
    (htype : s.callType a = .termination) (hx : x ≠ b') (hy : y ≠ b')
    (hattempt : s'.mapTerminationAttempts orq' ≠ none → s.mapTerminationAttempts orq ≠ none) :
    s'.OfCall x y orq' := by
  refine ⟨?_, ?_, fun z hz => ?_, fun horig hlive => ?_, fun ht => ?_⟩
  · rw [hm.callType]
    exact hcall.typed
  · rw [hm.callType]
    exact hcall.other
  · rcases (hm.mem_dialogs _).1 hz with heq | ⟨hold, -⟩
    · exact absurd (Prod.mk.inj heq).2 hy
    · exact hcall.sole z hold
  · rw [hm.callType] at horig
    rcases (hm.mem_legs x).1 hlive with heq | ⟨hold, -⟩
    · exact absurd heq hx
    · refine (hm.mem_dialogs _).2 (.inr ⟨hcall.dialog horig hold, fun heq => ?_⟩)
      rw [(Prod.mk.inj heq).1] at horig
      exact CallType.noConfusion (horig.symm.trans htype)
  · rw [hm.callType]
    exact hcall.attempt (hattempt ht)

section Moved

variable {a b b' : Leg} {d : SipDialogInfo}

theorem ne_of_fresh {l l' : Leg} {k : ℕ} (hl : l.address < k) (hl' : k ≤ l'.address) : l ≠ l' := by
  rintro rfl
  exact absurd hl (not_lt.2 hl')

variable (h : s.Typed) (hcall : s.OfCall a b orq) (hm : Moved s s' a b b') (hb' : s.next ≤ b'.address)

include h hcall hm hb'

/-- The INVITE of the next attempt. -/
theorem OfCall.next_attempt (htype : s.callType a = .termination) (orqNew : Orq) : s'.OfCall a b' orqNew := by
  refine ⟨?_, ⟨?_, h.fresh_ne_null hb'⟩, fun z hz => ?_, fun horig _ => ?_, fun _ => ?_⟩
  · rw [hm.callType]
    exact hcall.typed
  · rw [hm.callType]
    exact h.type_of_fresh hb'
  · rcases (hm.mem_dialogs _).1 hz with heq | ⟨hz, -⟩
    · exact (Prod.mk.inj heq).1
    · exact absurd hz (h.right_of_fresh hb' z)
  · rw [hm.callType] at horig
    exact CallType.noConfusion (horig.symm.trans htype)
  · rw [hm.callType]
    exact htype

/-- The new B leg has no type either. -/
theorem Typed.types_of_moved (hlt : b'.address < s'.next) (hnext : s.next ≤ s'.next) {x y : Leg}
    (hxy : (x, y) ∈ s'.dialogs) :
    s.callType x ≠ .unknown ∧ s.callType y = .unknown ∧ y ≠ .null ∧ y.address < s'.next := by
  rcases (hm.mem_dialogs _).1 hxy with heq | ⟨hxy, -⟩
  · obtain ⟨rfl, rfl⟩ := Prod.mk.inj heq
    exact ⟨hcall.typed, h.type_of_fresh hb', h.fresh_ne_null hb', hlt⟩
  · obtain ⟨hx, hy, hnull, hlt'⟩ := h.dialogs x y hxy
    exact ⟨hx, hy, hnull, hlt'.trans_le hnext⟩

omit hm in
/-- An origination call is neither the call that moves nor one of its B legs. -/
theorem Typed.ne_of_origination (htype : s.callType a = .termination) {x : Leg}
    (hx : s.callType x = .origination) : x ≠ a ∧ x ≠ b ∧ x ≠ b' := by
  refine ⟨?_, ?_, ne_of_fresh (h.type_lt x (hx ▸ CallType.noConfusion)) hb'⟩
  · rintro rfl
    exact CallType.noConfusion (hx.symm.trans htype)
  · rintro rfl
    exact CallType.noConfusion (hx.symm.trans hcall.other.1)

theorem Typed.live_of_moved (htype : s.callType a = .termination) {x : Leg} (hx : s.callType x = .origination) :
    x ∈ s'.legs ↔ ∃ y, (x, y) ∈ s'.dialogs := by
  obtain ⟨hxa, hxb, hxb'⟩ := h.ne_of_origination hcall hb' htype hx
  rw [hm.mem_legs, or_iff_right hxb', and_iff_left hxb, h.live x hx]
  refine exists_congr fun y => ?_
  rw [hm.mem_dialogs, or_iff_right fun heq => hxa (Prod.mk.inj heq).1,
    and_iff_left fun heq => hxa (Prod.mk.inj heq).1]

variable (hinfo : s'.mapDialogInfo =
  Function.update (Function.update s.mapDialogInfo b' (some { d with leg := b' })) b none)

include hinfo

/-- The new B leg has the dialog of the old one. -/
theorem Typed.type_of_info_moved (hd : d ∈ s.mapDialogInfo b) (hlt : b'.address < s'.next)
    (hnext : s.next ≤ s'.next) {l : Leg} {d' : SipDialogInfo} (hd' : d' ∈ s'.mapDialogInfo l) :
    (0 < l.address ∧ l.address < s'.next) ∧
      s.callType l = if d'.bOrigination then .origination else .unknown := by
  rw [hinfo] at hd'
  by_cases hlb : l = b
  · rw [hlb, Function.update_self] at hd'
    cases hd'
  rw [Function.update_of_ne hlb] at hd'
  by_cases hlb' : l = b'
  · subst hlb'
    rw [Function.update_self] at hd'
    obtain rfl := Option.some_inj.1 hd'
    refine ⟨⟨h.next_pos.trans_le hb', hlt⟩, ?_⟩
    rw [h.type_of_fresh hb']
    exact hcall.other.1.symm.trans (h.info b d hd).2
  · rw [Function.update_of_ne hlb'] at hd'
    obtain ⟨hl, htype'⟩ := h.info l d' hd'
    exact ⟨⟨hl.1, hl.2.trans_le hnext⟩, htype'⟩

theorem Typed.record_of_moved (htype : s.callType a = .termination) {x : Leg} (hx : s.callType x = .origination)
    (hlive : x ∈ s'.legs) : s'.recordOf x ≠ none := by
  obtain ⟨-, hxb, hxb'⟩ := h.ne_of_origination hcall hb' htype hx
  rw [recordOf, hinfo, Function.update_of_ne hxb, Function.update_of_ne hxb']
  exact h.record x hx (((hm.mem_legs x).1 hlive).resolve_left hxb').1

theorem Typed.info_b_of_moved (hb : b.address < s.next) (hab : (a, b) ∈ s.dialogs) {x y : Leg}
    (hxy : (x, y) ∈ s'.dialogs) (hx : s.callType x = .termination) : s'.mapDialogInfo y ≠ none := by
  rw [hinfo]
  rcases (hm.mem_dialogs _).1 hxy with heq | ⟨hxy, hne⟩
  · obtain ⟨rfl, rfl⟩ := Prod.mk.inj heq
    rw [Function.update_of_ne (ne_of_fresh hb hb').symm, Function.update_self]
    exact Option.some_ne_none _
  · rw [Function.update_of_ne, Function.update_of_ne (ne_of_fresh (h.dialogs x y hxy).2.2.2 hb')]
    · exact h.info_b x y hxy hx
    · rintro rfl
      exact hne (by rw [Bimap.right_unique hxy hab])

end Moved

/-- One more lemma for steps: the attempt `orq` of a call is over, and `orqNew` is the next one. -/
theorem Typed.of_moved (h : s.Typed) {a b b' : Leg} {orqNew : Orq} {d : SipDialogInfo}
    (hpair : (irq, orq) ∈ s.transactions) (ha : a ∈ s.incomingLeg irq) (hcall : s.OfCall a b orq)
    (hb : b.address < s.next) (htype : s.callType a = .termination) (hab : (a, b) ∈ s.dialogs) (hm : Moved s s' a b b')
    (hd : d ∈ s.mapDialogInfo b)
    (hinfo : s'.mapDialogInfo = Function.update (Function.update s.mapDialogInfo b' (some { d with leg := b' })) b none)
    (hb' : s.next ≤ b'.address) (horq : b'.address < orqNew.address) (hn : orqNew.address < s'.next)
    (houtgoing : ∀ orq', ∀ o' ∈ s'.outgoing orq',
      (orq' ≠ orqNew ∧ ∃ o₁ ∈ s.outgoing orq', o₁.leg = o'.leg ∧ o₁.callback = o'.callback) ∨
        orq' = orqNew ∧ o'.leg = b')
    (hattempts : ∀ orq', orq' ≠ orqNew → s'.mapTerminationAttempts orq' ≠ none →
      s.mapTerminationAttempts orq' ≠ none)
    (hpairs : ∀ p, p ∈ s'.transactions ↔ p = (irq, orqNew) ∨ p ∈ s.transactions ∧ p.2 ≠ orq)
    (hincoming : s'.incoming = s.incoming) : s'.Typed := by
  have hnext : s.next < s'.next := (hb'.trans_lt horq).trans hn
  have hnew : s.next ≤ orqNew.address := (hb'.trans_lt horq).le
  have horq0 : orqNew ≠ .null := by
    rintro rfl
    exact absurd horq (Nat.not_lt_zero _)
  have hincomingLeg : ∀ irq', s'.incomingLeg irq' = s.incomingLeg irq' := by
    intro irq'
    rw [incomingLeg, hincoming]
    rfl
  refine ⟨h.next_pos.trans hnext, ?_, hm.legs_nodup, ?_, ?_, ?_, ?_, ?_, ?_, ?_, ?_, ?_, ?_, ?_, ?_, ?_⟩
  · -- legs_lt
    intro l hl
    rcases (hm.mem_legs l).1 hl with rfl | ⟨hl, -⟩
    · exact ⟨h.next_pos.trans_le hb', horq.trans hn⟩
    · exact ⟨(h.legs_lt l hl).1, (h.legs_lt l hl).2.trans hnext⟩
  · -- pairs_lt
    intro irq' orq' hp
    rcases (hpairs _).1 hp with heq | ⟨hp, -⟩
    · obtain ⟨rfl, rfl⟩ := Prod.mk.inj heq
      exact ⟨(h.pairs_lt irq' orq hpair).1.trans hnext, hn⟩
    · exact ⟨(h.pairs_lt irq' orq' hp).1.trans hnext, (h.pairs_lt irq' orq' hp).2.trans hnext⟩
  · -- outgoing_null
    refine Option.eq_none_iff_forall_not_mem.2 fun o' ho' => ?_
    rcases houtgoing .null o' ho' with ⟨-, o₁, ho₁, -⟩ | ⟨heq, -⟩
    · rw [h.outgoing_null] at ho₁
      cases ho₁
    · exact horq0 heq.symm
  · -- type_lt
    rw [hm.callType]
    exact fun l hl => (h.type_lt l hl).trans hnext
  · -- type_null
    rw [hm.callType]
    exact h.type_null
  · -- outgoing_lt
    intro orq' o' ho'
    rcases houtgoing orq' o' ho' with ⟨-, o₁, ho₁, hleg, -⟩ | ⟨rfl, hleg⟩
    · rw [← hleg]
      exact ⟨(h.outgoing_lt orq' o₁ ho₁).1.trans hnext, (h.outgoing_lt orq' o₁ ho₁).2.trans hnext⟩
    · rw [hleg]
      exact ⟨hn, horq.trans hn⟩
  · -- attempt_lt
    intro orq' ht
    by_cases heq : orq' = orqNew
    · rw [heq]
      exact hn
    · exact (h.attempt_lt orq' (hattempts orq' heq ht)).trans hnext
  · -- dialogs
    rw [hm.callType]
    exact fun x y => h.types_of_moved hcall hm hb' (horq.trans hn) hnext.le
  · -- live
    rw [hm.callType]
    exact fun x => h.live_of_moved hcall hm hb' htype
  · -- info
    rw [hm.callType]
    exact fun l d' => h.type_of_info_moved hcall hm hb' hinfo hd (horq.trans hn) hnext.le
  · -- record
    rw [hm.callType]
    exact fun x => h.record_of_moved hcall hm hb' hinfo htype
  · -- info_b
    rw [hm.callType]
    exact fun x y => h.info_b_of_moved hcall hm hb' hinfo hb hab
  · -- invite
    intro irq' orq' hp o' ho' hcallback
    rw [hincomingLeg]
    rcases (hpairs _).1 hp with heq | ⟨hp, hne⟩
    · obtain ⟨rfl, rfl⟩ := Prod.mk.inj heq
      rcases houtgoing orq' o' ho' with ⟨hne, -⟩ | ⟨-, hleg⟩
      · exact absurd rfl hne
      · rw [hleg]
        exact ⟨a, ha, OfCall.next_attempt h hcall hm hb' htype orq'⟩
    · have hlt := (h.pairs_lt irq' orq' hp).2
      have hne' : orq' ≠ orqNew := by
        rintro rfl
        exact absurd hlt (not_lt.2 hnew)
      rcases houtgoing orq' o' ho' with ⟨-, o₁, ho₁, hleg, hcallback'⟩ | ⟨heq, -⟩
      · obtain ⟨x, hx, hcall'⟩ := h.invite irq' orq' hp o₁ ho₁ (hcallback'.trans hcallback)
        refine ⟨x, hx, hleg ▸ hcall'.of_moved hm htype ?_ ?_ (hattempts orq' hne')⟩
        · exact ne_of_fresh (h.type_lt x hcall'.typed) hb'
        · exact ne_of_fresh (h.outgoing_lt orq' o₁ ho₁).2 hb'
      · exact absurd heq hne'
  · -- bound
    rw [hincoming]
    intro irq' i hi hbound hdestroyed
    obtain ⟨orq', hnull, hp⟩ := h.bound irq' i hi hbound hdestroyed
    by_cases heq : orq' = orq
    · subst heq
      refine ⟨orqNew, horq0, (hpairs _).2 (.inl ?_)⟩
      rw [Bimap.right_unique hp hpair]
    · exact ⟨orq', hnull, (hpairs _).2 (.inr ⟨hp, heq⟩)⟩

theorem Typed.replaceAttempt (h : s.Typed) {o : Outgoing} (hpair : (irq, orq) ∈ s.transactions)
    (ho : s.outgoing orq = some o) (hcallback : o.callback = .responseToInvite) (hlive : o.leg ∈ s.legs)
    (ht : s.mapTerminationAttempts orq ≠ none) {bLegNew : Leg} {orqNew : Orq} {n : ℕ}
    (hb : s.next ≤ bLegNew.address) (horq : bLegNew.address < orqNew.address) (hn : orqNew.address < n)
    (request : OutgoingRequest) (t : ℕ)
    (hs : (s.replaceAttempt irq orq orqNew o.leg bLegNew request t n).Intact) :
    (s.replaceAttempt irq orq orqNew o.leg bLegNew request t n).Typed := by
  obtain ⟨a, ha, hcall⟩ := h.invite irq orq hpair o ho hcallback
  obtain ⟨hab, hm, d, hd, hinfo⟩ := h.moved hcall hlive ht hb irq orqNew request t n hs
  refine h.of_moved hpair ha hcall (h.outgoing_lt orq o ho).2 (hcall.attempt ht) hab hm hd hinfo hb horq ?_ ?_ ?_ ?_
    (replaceAttempt_incoming ..)
  · rw [replaceAttempt_next]
    exact hn
  · intro orq' o' ho'
    rw [replaceAttempt_outgoing] at ho'
    obtain ⟨o₁, ho₁, hleg, hcallback⟩ := mem_destroyOutgoing ho'
    change o₁ ∈ Function.update s.outgoing orqNew _ orq' at ho₁
    by_cases heq : orq' = orqNew
    · rw [heq, Function.update_self] at ho₁
      obtain rfl := Option.some_inj.1 ho₁
      exact .inr ⟨heq, hleg.symm⟩
    · rw [Function.update_of_ne heq] at ho₁
      exact .inl ⟨heq, o₁, ho₁, hleg, hcallback⟩
  · intro orq' hne ht'
    rw [replaceAttempt_mapTerminationAttempts] at ht'
    have ht'' : Function.update s.mapTerminationAttempts orq none orq' ≠ none := by
      unfold insertNew at ht'
      split_ifs at ht'
      · exact ht'
      · rwa [Function.update_of_ne hne] at ht'
    by_cases heq : orq' = orq
    · rw [heq, Function.update_self] at ht''
      exact absurd rfl ht''
    · rwa [Function.update_of_ne heq] at ht''
  · intro p
    rw [replaceAttempt_transactions]
    refine (Bimap.mem_insert_of_new ?_ ?_).trans (or_congr_right Bimap.mem_eraseRight)
    · intro orq' hmem
      obtain ⟨hmem, hne⟩ := Bimap.mem_eraseRight.1 hmem
      exact hne (Bimap.left_unique hmem hpair)
    · intro irq' hmem
      exact absurd (h.pairs_lt irq' orqNew (Bimap.mem_eraseRight.1 hmem).1).2
        (not_lt.2 (hb.trans_lt horq).le)

theorem typed_empty : Typed {} := by
  refine ⟨Nat.one_pos, ?_, List.nodup_nil, ?_, rfl, ?_, ?_, ?_, ?_, ?_, ?_, ?_, ?_, ?_, ?_, ?_⟩
  · exact fun l hl => absurd hl List.not_mem_nil
  · exact fun irq orq hp => absurd hp (Bimap.not_mem_empty _)
  · exact fun l hl => absurd rfl hl
  · exact CallType.noConfusion
  · exact fun orq o ho => absurd ho (Option.not_mem_none o)
  · exact fun orq ht => absurd rfl ht
  · exact fun a b hab => absurd hab (Bimap.not_mem_empty _)
  · exact fun a ha => CallType.noConfusion ha
  · exact fun l d hd => absurd hd (Option.not_mem_none d)
  · exact fun a ha => CallType.noConfusion ha
  · exact fun a b hab => absurd hab (Bimap.not_mem_empty _)
  · exact fun irq orq hp => absurd hp (Bimap.not_mem_empty _)
  · exact fun irq i hi => absurd hi (Option.not_mem_none i)

end

end Calls

namespace Controller

/-! ## All events -/

section

variable {c : Controller} {e : ControllerEvent} {orq : Orq}

theorem intact_of_not_crashed (h : ¬c.Crashed) : c.calls.Intact :=
  ⟨fun hf => h (.inr (.inl hf)), fun hf => h (.inr (.inr hf))⟩

/-- What a response that reaches its call finds: the pair, the INVITE and the legs. -/
theorem Reached.spec (h : c.Reached orq) :
    (c.calls.getAssociatedIncoming orq, orq) ∈ c.calls.transactions ∧
      (∃ o ∈ c.calls.outgoing orq, o.leg = c.calls.legFromOutgoing orq) ∧
      c.calls.legFromOutgoing orq ∈ c.calls.legs ∧
      c.calls.incomingLeg (c.calls.getAssociatedIncoming orq) =
        some (c.calls.legFromIncoming (c.calls.getAssociatedIncoming orq)) ∧
      c.calls.legFromIncoming (c.calls.getAssociatedIncoming orq) ∈ c.calls.legs := by
  obtain ⟨hirq, hbLeg, haLeg⟩ := h
  obtain ⟨hb, hbLive⟩ := legFromOutgoing_spec hbLeg
  obtain ⟨ha, haLive⟩ := legFromIncoming_spec haLeg
  obtain ⟨o, ho, hleg⟩ := Option.map_eq_some_iff.1 hb
  exact ⟨mem_of_getAssociatedIncoming hirq, ⟨o, ho, hleg⟩, hbLive, ha, haLive⟩

theorem typed_requestOutsideDialog (h : c.calls.Typed) (sip : Request) (uuid : Bytes) (nta : Creations) :
    (c.requestOutsideDialog sip uuid nta).calls.Typed := by
  rcases c.requestOutsideDialog_cases sip uuid nta with ⟨hcalls, -⟩ | hopening
  · exact h.refuse hcalls
  · cases hopening with
    | origination request info cdr hinfo hcalls hcdr hrecords =>
      rw [hcalls]
      refine h.openCall ⟨CallType.noConfusion, .inr ⟨?_, ?_⟩, ?_, ?_, ?_⟩ ⟨hinfo.1, hinfo.2.1, fun _ => ?_⟩ _ _
      · exact Nat.lt_succ_self _
      · exact Nat.lt_succ_self (c.calls.next + 1)
      · exact Nat.lt_add_of_pos_right Nat.two_pos
      · exact Nat.lt_succ_self (c.calls.next + 2)
      · exact Nat.lt_succ_self (c.calls.next + 3)
      · rw [hinfo.2.2.2]
        exact Option.some_ne_none _
    | termination aLeg n request info cdr a hn haLeg hinfo hcalls ha hcdr hrecords =>
      rw [hcalls]
      refine h.openCall ⟨CallType.noConfusion, ?_, hn, Nat.lt_succ_self n, Nat.lt_succ_self (n + 1)⟩
        ⟨hinfo.1, hinfo.2.1, fun horig => CallType.noConfusion horig⟩ _ _
      exact haLeg.imp (fun hnull => ⟨hnull, rfl⟩) id

/-- The tables after an assertion. -/
theorem typed_asserted {s u : Calls} (h : s.Typed) (hu : u = s ∨ ∃ a, u = s.fault (.assertion a)) :
    u.Typed := by
  rcases hu with rfl | ⟨a, rfl⟩
  · exact h
  · exact h.fault _

theorem typed_requestInsideDialog (h : c.calls.Typed) {leg : Leg} {sip : Request} {nta : Creations}
    (hleg : leg ∈ c.calls.legs) (hcrash : ¬(c.requestInsideDialog leg sip nta).Crashed) :
    (c.requestInsideDialog leg sip nta).calls.Typed := by
  have hnull : leg ≠ .null := by
    rintro rfl
    exact lt_irrefl _ (h.legs_lt _ hleg).1
  obtain ⟨other, u, hother, hu, hcases⟩ := requestInsideDialog_cases hcrash
  have hu' := typed_asserted h (hu.imp_right fun hu => ⟨_, hu⟩)
  rcases hcases with ⟨-, hcalls, -⟩ | ⟨-, hcalls, -⟩
  · -- A BYE.
    refine Calls.Typed.refuse ?_ hcalls
    obtain ⟨i, status, n, -, -, -, heq⟩ := hcalls
    have hintact := intact_of_not_crashed hcrash
    rw [heq] at hintact
    refine Calls.Typed.clearDialog ?_ hintact hnull
    split_ifs
    · exact hu'
    · exact hu'.record_event _
  · rcases hcalls with hcalls | ⟨orq, request, n, horq, hn, heq⟩
    · exact hu'.refuse hcalls
    · rw [heq]
      refine hu'.forward ?_ horq hn leg request
      have hnext : u.next = c.calls.next := by
        rcases hu with rfl | rfl <;> rfl
      rw [hnext]
      rcases Calls.mem_of_getAssociatedDialog hother with hmem | hmem
      · exact (h.dialogs _ _ hmem).2.2.2
      · exact h.type_lt _ (h.dialogs _ _ hmem).1

theorem typed_responseInsideDialog (h : c.calls.Typed) (orq : Orq) (sip : Response) :
    (c.processResponseInsideDialog orq sip).calls.Typed := by
  obtain ⟨-, ⟨a, heq⟩ | ⟨-, u, reply, hu, hcalls⟩⟩ := c.responseInsideDialog_cases orq sip
  · rw [heq]
    exact h.fault _
  · have hu' := typed_asserted h hu
    rcases hcalls with heq | ⟨acks, heq⟩ <;> rw [heq]
    · exact hu'.record_event _
    · exact hu'.settle _ _ _ _

theorem typed_cancel (h : c.calls.Typed) {irq : Irq} (hcrash : ¬(c.processCancel irq).Crashed) :
    (c.processCancel irq).calls.Typed := by
  have hintact := intact_of_not_crashed hcrash
  rcases processCancel_cases hcrash with ⟨-, -, heq | ⟨-, hnull, heq⟩⟩ | ⟨-, hnull, heq, -⟩
  · rw [heq]
    exact h.record_event _
  · rw [heq] at hintact ⊢
    exact (h.record_event _).clearDialog hintact hnull
  · rw [heq] at hintact ⊢
    exact ((((h.record_event _).destroyOutgoing _).clearTransaction _).clearDialog hintact hnull).eraseAttempt _

theorem typed_sessionRefreshTimer (h : c.calls.Typed) {leg : Leg} (hleg : c.calls.mapDialogInfo leg ≠ none)
    (hcrash : ¬(c.processSessionRefreshTimer leg).Crashed) :
    (c.processSessionRefreshTimer leg).calls.Typed := by
  obtain ⟨d, hd⟩ := Option.ne_none_iff_exists'.1 hleg
  have hnull : leg ≠ .null := by
    rintro rfl
    exact lt_irrefl _ (h.info _ d hd).1.1
  have hintact := intact_of_not_crashed hcrash
  obtain ⟨-, other, u, -, hu, heq⟩ := sessionRefreshTimer_cases hleg hcrash
  rw [heq] at hintact ⊢
  have hk : KeepsDialog fun d => { d with timerSessionRefresh := none } := fun _ => ⟨rfl, rfl, rfl⟩
  exact ((typed_asserted h hu).updateDialogInfo hk leg).clearDialog hintact hnull

/-- A final response to the INVITE of a termination call. -/
theorem Outcome.typed {t : ℕ} {a : TerminationAttempt} {sip : Response} {nta : Creations} {c' : Controller}
    (houtcome : Outcome c (c.calls.getAssociatedIncoming orq) orq (c.calls.legFromOutgoing orq) t a sip nta c')
    (h : c.calls.Typed) (hreached : c.Reached orq)
    (hinvite : ∃ o ∈ c.calls.outgoing orq, o.callback = .responseToInvite)
    (ht : c.attemptOf orq = some (t, a)) (hcrash : ¬c'.Crashed) : c'.calls.Typed := by
  have hintact := intact_of_not_crashed hcrash
  cases houtcome with
  | answered reply f hstatus hreply hf hcalls hrecords =>
    rw [hcalls]
    exact ((h.record_event _).eraseAttempt orq).settle _ _ _ _
  | failed n reply g f hstatus hcrank hredirect hn hreply hg hf hcalls hrecords =>
    rw [hcalls] at hintact ⊢
    exact (((h.advance hn).eraseAttempt orq).settle _ _ _ _).clearDialog hintact hreached.2.1
  | crankbackFailed n reply f f' g k hcrank hnta hn hreply hf hf' hg hk hcalls hrecords =>
    rw [hcalls] at hintact ⊢
    exact (((h.advance hn).eraseAttempt orq).settle _ _ _ _).clearDialog hintact hreached.2.1
  | redirected request g hstatus hnta hg hcalls hrecords | crankedBack request f g k hcrank hnta hf hg hk hcalls hrecords =>
    obtain ⟨hpair, ⟨o, ho, hleg⟩, hlive, -, -⟩ := hreached.spec
    obtain ⟨o', ho', hcallback⟩ := hinvite
    obtain rfl : o = o' := Option.mem_unique ho ho'
    rw [← hleg] at hcalls hlive
    rw [hcalls] at hintact ⊢
    refine h.replaceAttempt hpair ho hcallback hlive ?_ le_rfl (Nat.lt_succ_self _)
      (Nat.lt_succ_self (c.calls.next + 1)) request t hintact
    rw [(attemptOf_eq_some ht).1]
    exact Option.some_ne_none _

theorem typed_inviteResponse (h : c.calls.Typed) {sip : Response} {nta : Creations}
    (hinvite : ∃ o ∈ c.calls.outgoing orq, o.callback = .responseToInvite)
    (hcrash : ¬(c.processInviteResponseInsideDialog orq sip nta).Crashed) :
    (c.processInviteResponseInsideDialog orq sip nta).calls.Typed := by
  by_cases hreached : c.Reached orq
  · rw [inviteResponse_of_reached hreached] at hcrash ⊢
    by_cases hfinal : 200 ≤ sip.status
    · cases ht : c.attemptOf orq with
      | some r =>
        obtain ⟨t, a⟩ := r
        exact (processInviteResponse_outcome h.next_pos ht hfinal _ _ _ nta).typed h hreached hinvite ht hcrash
      | none =>
        obtain ⟨reply, f, -, -, hcases, -⟩ := processInviteResponse_origination ht hfinal
          (c.calls.getAssociatedIncoming orq) (c.calls.legFromIncoming (c.calls.getAssociatedIncoming orq))
          (c.calls.legFromOutgoing orq) nta
        have hintact := intact_of_not_crashed hcrash
        rcases hcases with ⟨-, k, hk, heq⟩ | ⟨-, heq⟩ <;> rw [heq] at hintact ⊢
        · exact ((h.record_event _).updateDialogInfo hk _).settle _ _ _ _
        · exact (h.settle _ _ _ _).clearDialog hintact hreached.2.1
    · obtain ⟨heq | ⟨reply, -, heq⟩, -⟩ := processInviteResponse_provisional (not_le.1 hfinal) c
        (c.calls.getAssociatedIncoming orq) orq
        (c.calls.legFromIncoming (c.calls.getAssociatedIncoming orq)) (c.calls.legFromOutgoing orq) nta
      · rw [heq]
        exact h
      · rw [heq]
        exact h.record_event _
  · obtain ⟨a, heq⟩ := inviteResponse_of_not_reached hreached sip nta
    rw [heq]
    exact h.fault _

/-- **The calls behind the tables stay in order.** -/
theorem typed_next (h : c.calls.Typed) (he : machine.enabled c e) : (c.next e).calls.Typed := by
  obtain ⟨hpossible, hcrash⟩ := he
  cases e with
  | requestOutsideDialog sip uuid nta => exact typed_requestOutsideDialog h sip uuid nta
  | inviteResponse orq sip nta =>
    obtain ⟨o, ho, hcallback, -⟩ := hpossible
    exact typed_inviteResponse h ⟨o, ho, hcallback⟩ hcrash
  | ackOrCancel irq method =>
    change (c.processAckOrCancel irq method).calls.Typed
    have hcrash' : ¬(c.processAckOrCancel irq method).Crashed := hcrash
    unfold processAckOrCancel at hcrash' ⊢
    split_ifs at hcrash' ⊢
    · exact typed_cancel h hcrash'
    · exact h
  | requestInsideDialog leg sip nta => exact typed_requestInsideDialog h hpossible hcrash
  | responseInsideDialog orq sip => exact typed_responseInsideDialog h orq sip
  | sessionRefreshTimer leg =>
    obtain ⟨d, hd, -⟩ := hpossible
    exact typed_sessionRefreshTimer h (Option.ne_none_iff_exists'.2 ⟨d, hd⟩) hcrash
  | retransmittedResponse leg sip =>
    change (c.processRetransmittedResponse leg sip).calls.Typed
    obtain ⟨-, heq | heq⟩ := c.retransmittedResponse_cases leg sip <;> rw [heq]
    · exact h
    · exact h.record_event _
  | writeCdr connected | clock now | monitor fsMonitor | resetTrunkStats => exact h

theorem typed_of_reachable (h : machine.Reachable c) : c.calls.Typed := by
  refine h.invariant (I := fun c => c.calls.Typed) ?_ fun c e hc he => typed_next hc he
  intro c hc
  rw [hc.calls]
  exact Calls.typed_empty

end

end Controller

end Ssp
