import Ssp.Controller.Stamps
import Ssp.Lib.Trail

/-!
# The records of a call

The records that are posted under the UUID of an origination call tell its story: it is asked for,
perhaps refused at once; it is answered, fails or is cancelled; and it is cleared. `CallStage` says
how far it has come, and `trails_of_reachable` that the records of every run keep to this, whatever
comes in between: there is never a second answer, nor a CANCEL after it.

What makes this so is that the INVITE of a call is answered once, and that as long as it is pending
it was not answered (`Unanswered`). A final response and a CANCEL are only recorded of such a call
(`tellsOf_next`). `complete_iff`: no call is left open in the records exactly as long as no session
timer expires.
-/

namespace Ssp

namespace Calls

/-! ## The INVITE of a call is answered once -/

/-- A pair of transactions that is the INVITE of a call, from the leg `a`. -/
structure Invites (s : Calls) (irq : Irq) (orq : Orq) (a : Leg) : Prop where
  pair : (irq, orq) ∈ s.transactions
  invite : s.isInvite orq = true
  leg : s.incomingLeg irq = some a
  ne_null : a ≠ .null

/-- As long as the INVITE of a call is pending, it was not answered, and there is no other one from
    its leg. -/
structure Unanswered (s : Calls) : Prop where
  answered : ∀ irq orq a, s.Invites irq orq a → s.answered a = false
  sole : ∀ irq irq' orq orq' a, s.Invites irq orq a → s.Invites irq' orq' a → irq = irq'

section

variable {s s' : Calls} {irq : Irq} {orq : Orq} {a : Leg}

/-- What is known of a pair that is the INVITE of a call. -/
theorem Invites.pairing (h : s.Invites irq orq a) (hr : s.RelayInv) : s.Pairing irq orq := by
  refine (hr.pairs irq orq h.pair).2 ?_
  rintro rfl
  have hinvite := h.invite
  rw [isInvite, hr.outgoing_null] at hinvite
  exact Bool.false_ne_true hinvite

/-- The leg of the INVITE was there. -/
theorem Invites.leg_lt (h : s.Invites irq orq a) (hr : s.RelayInv) : a.address < s.next := by
  obtain ⟨i, hi, rfl⟩ := Option.map_eq_some_iff.1 h.leg
  exact (h.pairing hr).leg_lt i hi

/-- A pair that was there before is an INVITE if it is one afterwards. -/
theorem Invites.of_extends (h : s'.Invites irq orq a) (hr : s.RelayInv) (hx : Extends s s')
    (hpair : (irq, orq) ∈ s.transactions) (hnull : orq ≠ .null) : s.Invites irq orq a := by
  have hpairing := (hr.pairs irq orq hpair).2 hnull
  refine ⟨hpair, ?_, ?_, h.ne_null⟩
  · rw [← hx.isInvite orq hpairing.orq_lt]
    exact h.invite
  · rw [← hx.incoming irq hpairing.irq_lt]
    exact h.leg

theorem Invites.orq_ne_null (h : s.Invites irq orq a) (hr : s.RelayInv) : orq ≠ .null := by
  rintro rfl
  have hinvite := h.invite
  rw [isInvite, hr.outgoing_null] at hinvite
  exact Bool.false_ne_true hinvite

/-- Nothing is answered if nothing is passed on. -/
theorem any_answers_eq_false {new : List CallEvent} (hnew : ∀ e ∈ new, ∀ irq orq reply, e ≠ .replied irq orq reply) :
    new.any (s.answers a) = false := by
  refine List.any_eq_false.2 fun e he hanswers => ?_
  cases e with
  | replied irq orq reply => exact hnew _ he irq orq reply rfl
  | created | returned | cancelled | sent => exact Bool.false_ne_true hanswers

/-- One lemma for all steps in which no INVITE comes in. -/
theorem Unanswered.of_step (h : s.Unanswered) (hl : s.Logged) (hx : Extends s s') (new : List CallEvent)
    (hlog : s'.log = new ++ s.log)
    (hold : ∀ irq orq a, s'.Invites irq orq a → ∃ orq', s.Invites irq orq' a)
    (hnew : ∀ irq orq a, s'.Invites irq orq a → new.any (s'.answers a) = false) : s'.Unanswered := by
  refine ⟨fun irq orq a hi => ?_, fun irq irq' orq orq' a hi hi' => ?_⟩
  · obtain ⟨orq', hi'⟩ := hold irq orq a hi
    rw [hl.answered_eq hx hlog, hnew irq orq a hi, h.answered irq orq' a hi']
    rfl
  · obtain ⟨_, hi⟩ := hold irq orq a hi
    obtain ⟨_, hi'⟩ := hold irq' orq' a hi'
    exact h.sole irq irq' _ _ a hi hi'

/-- The same, where the pairs only go and nothing is passed on. -/
theorem Unanswered.of_log (h : s.Unanswered) (hr : s.RelayInv) (hr' : s'.RelayInv) (hl : s.Logged) (hx : Extends s s')
    (new : List CallEvent) (hlog : s'.log = new ++ s.log)
    (hnew : ∀ e ∈ new, ∀ irq orq reply, e ≠ .replied irq orq reply)
    (hpairs : ∀ p, p ∈ s'.transactions → p ∈ s.transactions) : s'.Unanswered :=
  h.of_step hl hx new hlog
    (fun _ orq _ hi => ⟨orq, hi.of_extends hr hx (hpairs _ hi.pair) (hi.orq_ne_null hr')⟩)
    fun _ _ _ _ => any_answers_eq_false hnew

theorem Unanswered.callStep {granted calm : Prop} (hr : s.RelayInv) (hl : s.Logged) (h : s.Unanswered)
    (hstep : CallStep granted calm s s') : s'.Unanswered := by
  have hr' := hr.callStep hstep
  obtain ⟨hx, -⟩ := hl.callStep hr hstep
  cases hstep with
  | sent leg method => exact h.of_log hr hr' hl hx [.sent leg method] rfl (by simp) fun _ => id
  | assertion a hv => exact h.of_log hr hr' hl hx [] rfl (by simp) fun _ => id
  | endIterator leg hleg hget => exact h.of_log hr hr' hl hx [] rfl (by simp) fun _ => id
  | receive leg => exact h.of_log hr hr' hl hx [] rfl (by simp) fun _ => id
  | advance n hn => exact h.of_log hr hr' hl hx [] rfl (by simp) fun _ => id
  | refuse i status n hn hstatus => exact h.of_log hr hr' hl hx _ rfl (by simp) fun _ => id
  | openCall callType aLeg bLeg orq request info t n hinfo htype ha hnull hb horq hn =>
    -- The leg of the new pair is new, so that nothing was answered there.
    have hcases : ∀ {irq' : Irq} {orq' : Orq} {a : Leg},
        Invites (s.openCall callType aLeg bLeg orq request info t n) irq' orq' a →
        irq' = ⟨s.next⟩ ∧ s.next ≤ a.address ∨ s.Invites irq' orq' a := by
      intro irq' orq' a hi
      rcases Bimap.mem_of_mem_insert hi.pair with heq | hold
      · obtain ⟨rfl, -⟩ := Prod.mk.inj heq
        have hin : (s.openCall callType aLeg bLeg orq request info t n).incoming ⟨s.next⟩ = some ⟨aLeg, true, 0⟩ :=
          Function.update_self _ _ _
        have hleg := hi.leg
        rw [incomingLeg, hin] at hleg
        obtain rfl := Option.some_inj.1 hleg
        exact .inl ⟨rfl, (ha.resolve_left hi.ne_null).1.le⟩
      · exact .inr (hi.of_extends hr hx hold (hi.orq_ne_null hr'))
    refine ⟨fun irq' orq' a hi => ?_, fun irq₁ irq₂ orq₁ orq₂ a h₁ h₂ => ?_⟩
    · have hlog : (s.openCall callType aLeg bLeg orq request info t n).log = [.created ⟨s.next⟩ orq] ++ s.log := rfl
      rw [hl.answered_eq hx hlog, any_answers_eq_false (by simp), Bool.false_or]
      rcases hcases hi with ⟨-, hfresh⟩ | hi
      · exact hl.answered_of_fresh hfresh
      · exact h.answered irq' orq' a hi
    · rcases hcases h₁ with ⟨rfl, hfresh₁⟩ | h₁ <;> rcases hcases h₂ with ⟨rfl, hfresh₂⟩ | h₂
      · rfl
      · exact absurd (h₂.leg_lt hr) (not_lt.2 hfresh₁)
      · exact absurd (h₁.leg_lt hr) (not_lt.2 hfresh₂)
      · exact h.sole irq₁ irq₂ orq₁ orq₂ a h₁ h₂
  | forward leg other orq request n hleg hother hnull horq hgranted hn =>
    have hlog : (s.forward leg other orq request n).log =
        (if orq = .null then [] else [.created ⟨s.next⟩ orq]) ++ s.log := by
      change (if orq = .null then s.log else .created ⟨s.next⟩ orq :: s.log) = _
      split_ifs <;> rfl
    refine h.of_step hl hx _ hlog (fun irq' orq' a hi => ⟨orq', ?_⟩) fun _ _ _ _ => ?_
    · rcases Bimap.mem_of_mem_insert hi.pair with heq | hold
      · -- The new pair is no INVITE of a call.
        obtain ⟨-, rfl⟩ := Prod.mk.inj heq
        have hout : (s.forward leg other orq' request n).outgoing orq' =
            some ⟨other, .responseToRequestInsideDialog, request, 0⟩ :=
          (congrFun (if_neg (hi.orq_ne_null hr')) orq').trans (Function.update_self _ _ _)
        have hinvite := hi.invite
        rw [isInvite, hout] at hinvite
        exact absurd hinvite Bool.false_ne_true
      · exact hi.of_extends hr hx hold (hi.orq_ne_null hr')
    · refine any_answers_eq_false fun e he => ?_
      split_ifs at he
      · cases he
      · rw [List.mem_singleton.1 he]
        exact fun _ _ _ => CallEvent.noConfusion
  | updateDialogInfo leg f hf => exact h.of_log hr hr' hl hx [] rfl (by simp) fun _ => id
  | eraseAttempt orq => exact h.of_log hr hr' hl hx [] rfl (by simp) fun _ => id
  | relay irq orq reply hrel hstatus =>
    refine h.of_step hl hx [.replied irq orq reply] rfl
      (fun _ orq' _ hi => ⟨orq', hi.of_extends hr hx hi.pair (hi.orq_ne_null hr')⟩) fun _ _ _ _ => ?_
    have hne : reply.status ≠ 200 := by omega
    simp [answers, hne]
  | settle irq orq reply acks hrel hstatus =>
    have hlog : (s.settle irq orq reply acks).log = (acks.map (.sent · .ack) ++ [.replied irq orq reply]) ++ s.log :=
      (List.append_assoc _ [_] _).symm
    obtain ⟨-, hpairing, -⟩ := hr.relayable hrel
    have hback : ∀ {irq' : Irq} {orq' : Orq} {a : Leg}, (s.settle irq orq reply acks).Invites irq' orq' a →
        orq' ≠ orq ∧ s.Invites irq' orq' a := by
      intro irq' orq' a hi
      obtain ⟨hmem, hne⟩ := Bimap.mem_eraseRight.1 hi.pair
      exact ⟨hne, hi.of_extends hr hx hmem (hi.orq_ne_null hr')⟩
    refine h.of_step hl hx _ hlog (fun _ orq' _ hi => ⟨orq', (hback hi).2⟩) fun irq' orq' a hi => ?_
    obtain ⟨hne, hi⟩ := hback hi
    refine List.any_eq_false.2 fun e he hanswers => ?_
    rcases List.mem_append.1 he with he | he
    · obtain ⟨_, _, rfl⟩ := List.mem_map.1 he
      exact Bool.false_ne_true hanswers
    · -- The pair that is settled is that of the leg, and so there is no other one.
      obtain rfl := List.mem_singleton.1 he
      simp only [answers, Bool.and_eq_true, decide_eq_true_eq, hx.isInvite orq hpairing.orq_lt,
        hx.incoming irq hpairing.irq_lt] at hanswers
      obtain rfl := h.sole irq irq' orq orq' a ⟨hrel.pair, hanswers.1.1, hanswers.1.2, hi.ne_null⟩ hi
      exact hne (Bimap.left_unique hi.pair hrel.pair)
  | cancel irq orq hpair hleg =>
    exact h.of_log hr hr' hl hx [.cancelled irq] rfl (by simp) fun _ hp => (Bimap.mem_eraseRight.1 hp).1
  | cancelLate irq hbound hgone => exact h.of_log hr hr' hl hx [_] rfl (by simp) fun _ => id
  | clearDialog leg hleg hquiet =>
    exact h.of_log hr hr' hl hx [] (s.clearDialog_log leg) (by simp) fun _ => s.clearDialog_transactions leg ▸ id
  | replaceAttempt irq orq orqNew bLeg bLegNew request t n hrel hleg hlive hinvite ht hquiet hb horq hn =>
    refine h.of_step hl hx [.created irq orqNew] (replaceAttempt_log ..) (fun irq' orq' a hi => ?_) fun _ _ _ _ =>
      any_answers_eq_false (by simp)
    have hpair := hi.pair
    rw [replaceAttempt_transactions] at hpair
    rcases Bimap.mem_of_mem_insert hpair with heq | hold
    · -- The attempt that takes the place of another one has its leg.
      obtain ⟨rfl, -⟩ := Prod.mk.inj heq
      obtain ⟨-, hpairing, -⟩ := hr.relayable hrel
      obtain ⟨o, ho, hcallback⟩ := hinvite
      refine ⟨orq, hrel.pair, ?_, (hx.incoming _ hpairing.irq_lt).symm.trans hi.leg, hi.ne_null⟩
      rw [isInvite, show s.outgoing orq = some o from ho]
      exact decide_eq_true hcallback
    · exact ⟨orq', hi.of_extends hr hx (Bimap.mem_eraseRight.1 hold).1 (hi.orq_ne_null hr')⟩

/-- All steps of an event. -/
theorem Unanswered.callSteps {granted calm : Prop} (hr : s.RelayInv) (hl : s.Logged) (h : s.Unanswered)
    (hsteps : CallSteps granted calm s s') : s'.Unanswered := by
  induction hsteps with
  | refl => exact h
  | tail hsteps hstep ih => exact ih.callStep (hr.callSteps hsteps) (hl.callSteps hr hsteps).2 hstep

theorem unanswered_empty : Unanswered {} :=
  ⟨fun _ _ _ hi => absurd hi.pair (Bimap.not_mem_empty _), fun _ _ _ _ _ hi => absurd hi.pair (Bimap.not_mem_empty _)⟩

end

end Calls

namespace Controller

/-! ## Which event posts which record -/

section

variable {c c' : Controller} {orq : Orq} {irq : Irq} {r : CdrInfo}

/-- What is posted is determined. -/
theorem posts_unique {b b' : Records} {new new' : List CdrInfo} (hwriter : b.posted ≠ none)
    (h : Records.Posts b b' new) (h' : Records.Posts b b' new') : new = new' := by
  obtain ⟨queued, hqueued⟩ := Option.ne_none_iff_exists'.1 hwriter
  have heq : b.posted.map (· ++ new) = b.posted.map (· ++ new') := h.symm.trans h'
  rw [hqueued, Option.map_some, Option.map_some, Option.some_inj] at heq
  exact List.append_cancel_left heq

/-- An event that leaves the records alone posts nothing. -/
theorem not_posts_of_records (hwriter : c.records.posted ≠ none) (hrecords : c'.records = c.records) :
    ¬Records.Posts c.records c'.records [r] := fun hposts =>
  List.cons_ne_nil r [] (posts_unique hwriter hposts (Records.posts_nil (congrArg Records.posted hrecords)))

/-- All that the end of an attempt posts is about the attempt. -/
theorem Outcome.posts {bLeg : Leg} {t : ℕ} {a : TerminationAttempt} {sip : Response} {nta : Creations}
    (houtcome : Outcome c irq orq bLeg t a sip nta c') :
    ∃ new, Records.Posts c.records c'.records new ∧ ∀ r ∈ new, r.cdrType = .terminationAttempt := by
  have hcopy : ∀ {b : Records} {f : CdrInfo → CdrInfo}, IsReport .terminationAttempt sip.status f →
      ∀ r ∈ ((b.cdrs.at? a.cdr).map f).toList, r.cdrType = .terminationAttempt := by
    intro b f hf r hr
    obtain ⟨cdr, -, rfl⟩ := Option.map_eq_some_iff.1 (Option.mem_toList.1 hr)
    exact hf.type cdr
  cases houtcome with
  | answered reply f hstatus hreply hf hcalls hrecords =>
    exact ⟨_, hrecords ▸ Records.posts_copy _ _ _, hcopy hf⟩
  | failed n reply g f hstatus hcrank hredirect hn hreply hg hf hcalls hrecords =>
    exact ⟨_, hrecords ▸ Records.posts_copy (c.records.modifyAttempt t g) _ _, hcopy hf⟩
  | redirected request g hstatus hnta hg hcalls hrecords =>
    exact ⟨[], Records.posts_nil (hrecords ▸ rfl), fun _ hr => absurd hr List.not_mem_nil⟩
  | crankedBack request f g k hcrank hnta hf hg hk hcalls hrecords =>
    have hposts : Records.Posts c.records
        ((((c.records.postCopy a.cdr f).modifyAttempt t g).update a.cdr k).update a.cdr (setDleg nta.callId)) _ :=
      Records.posts_copy c.records a.cdr f
    exact ⟨_, hrecords ▸ hposts, hcopy hf⟩
  | crankbackFailed n reply f f' g k hcrank hnta hn hreply hf hf' hg hk hcalls hrecords =>
    have hposts : Records.Posts c.records (((c.records.postCopy a.cdr f).modifyAttempt t g).update a.cdr k) _ :=
      Records.posts_copy c.records a.cdr f
    exact ⟨_, hrecords ▸ hposts.trans (Records.posts_copy _ a.cdr f'), fun r hr =>
      (List.mem_append.1 hr).elim (hcopy hf r) (hcopy hf' r)⟩

/-- The record tells of an INVITE that is pending, that of an origination call with the same UUID. -/
def TellsOf (c : Controller) (r : CdrInfo) : Prop :=
  ∃ irq orq a, c.calls.Invites irq orq a ∧ c.calls.Originates a ∧ c.uuidOf a = some (.string r.uuid)

/-- What is known of the record of an origination call that a leg has. -/
theorem tellsOf_of_record (h : c.calls.Typed) {a : Leg} {p : ℕ} {r₀ : CdrInfo} (hi : c.calls.Invites irq orq a)
    (hlive : a ∈ c.calls.legs) (htyped : c.calls.callType a ≠ .unknown) (hp : c.calls.recordOf a = some p)
    (hr₀ : c.records.cdrs.at? p = some r₀) (huuid : r.uuid = r₀.uuid) : c.TellsOf r := by
  obtain ⟨d, hd, -⟩ := Option.bind_eq_some_iff.1 hp
  refine ⟨irq, orq, a, hi, ⟨h.origination_of_info hd htyped, hlive⟩, ?_⟩
  rw [uuidOf, hp, Option.bind_some, hr₀, huuid]
  rfl

theorem tellsOf_inviteResponse (h : c.calls.Typed) {sip : Response} {nta : Creations}
    (hinvite : ∃ o ∈ c.calls.outgoing orq, o.callback = .responseToInvite) (hwriter : c.records.posted ≠ none)
    (hposts : Records.Posts c.records (c.processInviteResponseInsideDialog orq sip nta).records [r])
    (htype : r.cdrType ≠ .terminationAttempt) : c.TellsOf r := by
  by_cases hreached : c.Reached orq
  · rw [inviteResponse_of_reached hreached] at hposts
    obtain ⟨hpair, ⟨o, ho, hleg⟩, hlive, hincoming, haLive⟩ := hreached.spec
    obtain ⟨o', ho', hcallback⟩ := hinvite
    obtain rfl : o = o' := Option.mem_unique ho ho'
    obtain ⟨aLeg, haLeg, hcall⟩ := h.invite _ orq hpair o ho hcallback
    obtain rfl : aLeg = c.calls.legFromIncoming (c.calls.getAssociatedIncoming orq) :=
      Option.mem_unique haLeg hincoming
    by_cases hfinal : 200 ≤ sip.status
    · cases ht : c.attemptOf orq with
      | none =>
        obtain ⟨reply, f, -, hf, -, hrecords⟩ := processInviteResponse_origination ht hfinal
          (c.calls.getAssociatedIncoming orq) (c.calls.legFromIncoming (c.calls.getAssociatedIncoming orq))
          (c.calls.legFromOutgoing orq) nta
        have hi : c.calls.Invites (c.calls.getAssociatedIncoming orq) orq
            (c.calls.legFromIncoming (c.calls.getAssociatedIncoming orq)) := by
          refine ⟨hpair, ?_, hincoming, hreached.2.2⟩
          rw [Calls.isInvite, show c.calls.outgoing orq = some o from ho]
          exact decide_eq_true hcallback
        cases hp : c.calls.recordOf (c.calls.legFromIncoming (c.calls.getAssociatedIncoming orq)) with
        | none =>
          rw [hp] at hrecords
          exact absurd hposts (not_posts_of_records hwriter hrecords)
        | some p =>
          rw [hp, Option.elim_some] at hrecords
          rw [hrecords] at hposts
          have heq := posts_unique hwriter hposts (Records.posts_copy _ _ _)
          obtain ⟨r₀, hr₀, rfl⟩ := Option.map_eq_some_iff.1
            (Option.mem_toList.1 (heq ▸ List.mem_singleton_self r))
          exact tellsOf_of_record h hi haLive hcall.typed hp hr₀ (hf.uuid r₀)
      | some t =>
        obtain ⟨new, hnew, htypes⟩ := (processInviteResponse_outcome h.next_pos ht hfinal _ _ _ nta).posts
        exact absurd (htypes r (posts_unique hwriter hposts hnew ▸ List.mem_singleton_self r)) htype
    · obtain ⟨-, hrecords⟩ := processInviteResponse_provisional (not_le.1 hfinal) c
        (c.calls.getAssociatedIncoming orq) orq (c.calls.legFromIncoming (c.calls.getAssociatedIncoming orq))
        (c.calls.legFromOutgoing orq) nta
      exact absurd hposts (not_posts_of_records hwriter hrecords)
  · obtain ⟨a, heq⟩ := inviteResponse_of_not_reached hreached sip nta
    rw [heq] at hposts
    exact absurd hposts (not_posts_of_records hwriter rfl)

theorem tellsOf_cancel (h : c.calls.Typed) (hr : c.calls.RelayInv) (hl : c.calls.Logged)
    (hopen : ∃ i ∈ c.calls.incoming irq, i.bound = true ∧ i.destroyed = 0) (hwriter : c.records.posted ≠ none)
    (hcrash : ¬(c.processCancel irq).Crashed) (hposts : Records.Posts c.records (c.processCancel irq).records [r])
    (htype : r.cdrType ≠ .terminationAttempt) : c.TellsOf r := by
  obtain ⟨i, hi, hbound, hdestroyed⟩ := hopen
  rcases processCancel_cases hcrash with ⟨-, hrecords, -⟩ | ⟨hnull, hleg, -, hrecords⟩
  · exact absurd hposts (not_posts_of_records hwriter hrecords)
  · have hpair := mem_of_getAssociatedOutgoing hnull
    obtain ⟨hincoming, hlive⟩ := legFromIncoming_spec hleg
    -- It is the INVITE of a call, and the leg is its A leg.
    obtain ⟨o, ho⟩ := Option.ne_none_iff_exists'.1 (hl.pending irq _ hpair hnull)
    have hcallback := ((hr.pairs irq _ hpair).2 hnull).bound i hi hbound o ho
    obtain ⟨a, ha, hcall⟩ := h.invite irq _ hpair o ho hcallback
    obtain rfl : c.calls.legFromIncoming irq = a := Option.mem_unique hincoming ha
    have hinvites : c.calls.Invites irq (c.calls.getAssociatedOutgoing irq) (c.calls.legFromIncoming irq) := by
      refine ⟨hpair, ?_, hincoming, hleg⟩
      rw [Calls.isInvite, ho]
      exact decide_eq_true hcallback
    cases hrecords with
    | origination p f hp hf hrecords =>
      rw [hrecords] at hposts
      have heq := posts_unique hwriter hposts (Records.posts_update _ _ _)
      obtain ⟨r₀, hr₀, rfl⟩ := Option.map_eq_some_iff.1 (Option.mem_toList.1 (heq ▸ List.mem_singleton_self r))
      exact tellsOf_of_record h hinvites hlive hcall.typed hp hr₀ (hf.uuid r₀)
    | termination t a f hinfo ht hf hrecords =>
      rw [hrecords] at hposts
      have heq := posts_unique hwriter hposts (Records.posts_copy _ _ _)
      obtain ⟨r₀, -, rfl⟩ := Option.map_eq_some_iff.1 (Option.mem_toList.1 (heq ▸ List.mem_singleton_self r))
      exact absurd (hf.type r₀) htype
    | unreported hinfo ht hrecords => exact absurd hposts (not_posts_of_records hwriter hrecords)

/-- A call that is refused never goes on; one that is sent on does. -/
theorem refuses_or_offers (h : c.calls.Typed) (hl : c.calls.Logged) (hwriter : c.records.posted ≠ none) {sip : Request}
    {uuid : Bytes} {nta : Creations} (hx : Calls.Extends c.calls (c.requestOutsideDialog sip uuid nta).calls)
    (hposts : Records.Posts c.records (c.requestOutsideDialog sip uuid nta).records [r]) :
    r.Refuses c.now ∧ (c.requestOutsideDialog sip uuid nta).calls.status = c.calls.status ∨
      r.Offers c.now ∧ (c.requestOutsideDialog sip uuid nta).calls.status ≠ c.calls.status := by
  rcases requestOutsideDialog_posts sip nta hwriter hposts with ⟨hcdr, i, status, n, -, -, -, hcalls⟩ | ⟨hcdr, hopening⟩
  · refine .inl ⟨hcdr, ?_⟩
    have hanswered := answered_of_log hl hx _ (by rw [hcalls]; rfl) (by simp)
    generalize c.requestOutsideDialog sip uuid nta = c' at *
    have hsteady : Calls.Steady c.calls c'.calls :=
      .of_tables (by rw [hcalls]; rfl) (by rw [hcalls]; rfl) (by rw [hcalls]; rfl) fun x _ => hanswered x
    exact hsteady.status
  · refine .inr ⟨hcdr, ?_⟩
    generalize c.requestOutsideDialog sip uuid nta = c' at *
    cases hopening with
    | origination request info cdr hinfo hcalls hcdr hrecords =>
      have hanswered := answered_of_log hl hx [.created _ _] (by rw [hcalls]; rfl) (by simp)
      have hf : Calls.Fresh c.calls .origination ⟨c.calls.next + 1⟩ ⟨c.calls.next + 2⟩ ⟨c.calls.next + 3⟩
          (c.calls.next + 4) :=
        ⟨CallType.noConfusion, .inr ⟨Nat.lt_succ_self _, Nat.lt_succ_self (_ + 1)⟩,
          Nat.lt_add_of_pos_right Nat.two_pos, Nat.lt_succ_self (_ + 2), Nat.lt_succ_self (_ + 3)⟩
      obtain ⟨hnone, hstatus⟩ := h.status_openOrigination hl hf request info 0 hcalls hanswered
      intro heq
      rw [heq] at hstatus
      have hself := congrFun hstatus ⟨c.calls.next + 1⟩
      rw [Function.update_self, hnone] at hself
      cases hself
    | termination aLeg n request info cdr a hn haLeg hinfo hcalls ha hcdr hrecords =>
      have hnil : Records.Posts c.records c'.records [] := Records.posts_nil (hrecords ▸ rfl)
      exact absurd (posts_unique hwriter hposts hnil) (List.cons_ne_nil r [])

/-- **A final response and a CANCEL are recorded of a call whose INVITE is pending.** -/
theorem tellsOf_next (h : c.calls.Typed) (hr : c.calls.RelayInv) (hl : c.calls.Logged)
    (hwriter : c.records.posted ≠ none) {e : ControllerEvent} (he : machine.enabled c e)
    (hwrite : ∀ connected, e ≠ .writeCdr connected) (hposts : Records.Posts c.records (c.next e).records [r])
    (htype : r.cdrType = .originationFinalResponse ∨ r.cdrType = .originationCancel) : c.TellsOf r := by
  obtain ⟨hpossible, hcrash⟩ := he
  have hattempt : r.cdrType ≠ .terminationAttempt := by
    rcases htype with htype | htype <;> rw [htype] <;> exact CdrEvent.noConfusion
  cases e with
  | requestOutsideDialog sip uuid nta =>
    have hrequest : r.cdrType = .originationRequest := by
      rcases requestOutsideDialog_posts sip nta hwriter hposts with ⟨hcdr, -⟩ | ⟨hcdr, -⟩ <;> exact hcdr.type
    rcases htype with htype | htype <;> cases hrequest.symm.trans htype
  | inviteResponse orq sip nta =>
    obtain ⟨o, ho, hcallback, -⟩ := hpossible
    exact tellsOf_inviteResponse h ⟨o, ho, hcallback⟩ hwriter hposts hattempt
  | ackOrCancel irq method =>
    change ¬(c.processAckOrCancel irq method).Crashed at hcrash
    change Records.Posts c.records (c.processAckOrCancel irq method).records [r] at hposts
    unfold processAckOrCancel at hcrash hposts
    split_ifs at hcrash hposts
    · exact tellsOf_cancel h hr hl hpossible hwriter hcrash hposts hattempt
    · exact absurd hposts (not_posts_of_records hwriter rfl)
  | requestInsideDialog leg sip nta =>
    obtain ⟨other, u, -, -, ⟨-, -, hrecords⟩ | ⟨-, -, hrecords⟩⟩ := requestInsideDialog_cases hcrash
    · cases hrecords with
      | unreported _ hrecords => exact absurd hposts (not_posts_of_records hwriter hrecords)
      | reported d released p f _ _ _ hf hrecords =>
        change Records.Posts c.records (c.requestInsideDialog leg sip nta).records [r] at hposts
        rw [hrecords] at hposts
        have heq := posts_unique hwriter hposts (Records.posts_update _ _ _)
        obtain ⟨r₀, -, rfl⟩ := Option.map_eq_some_iff.1 (Option.mem_toList.1 (heq ▸ List.mem_singleton_self r))
        rcases htype with htype | htype <;> cases (hf.type r₀).symm.trans htype
    · exact absurd hposts (not_posts_of_records hwriter hrecords)
  | responseInsideDialog orq sip =>
    exact absurd hposts (not_posts_of_records hwriter (c.responseInsideDialog_cases orq sip).1)
  | sessionRefreshTimer leg =>
    obtain ⟨d, hd, -⟩ := hpossible
    exact absurd hposts (not_posts_of_records hwriter
      (sessionRefreshTimer_cases (Option.ne_none_iff_exists'.2 ⟨d, hd⟩) hcrash).1)
  | retransmittedResponse leg sip =>
    exact absurd hposts (not_posts_of_records hwriter (c.retransmittedResponse_cases leg sip).1)
  | writeCdr connected => exact absurd rfl (hwrite connected)
  | clock now | monitor fsMonitor | resetTrunkStats => exact absurd hposts (not_posts_of_records hwriter rfl)

end

end Controller

/-- The key of the row that a record is about. -/
def CdrInfo.sessionUuid (cdr : CdrInfo) : SqlValue := .string cdr.uuid

/-! ## The course of a call -/

/-- How far the records of a call have come. -/
inductive CallStage
  | unknown
  | asked
  | answered
  | ended
  deriving DecidableEq, Repr

namespace CallStage

/-- Which record may come next. The attempts of the termination call with the same UUID do not
    matter. -/
def next (s : CallStage) (r : CdrInfo) : Option CallStage :=
  match r.cdrType, s with
  | .terminationAttempt, s => some s
  -- The record of a call that is refused has the status.
  | .originationRequest, unknown => some (if r.sipStatus = 0 then asked else ended)
  | .originationFinalResponse, asked => some (if r.sipStatus = 200 then answered else ended)
  | .originationCancel, asked => some ended
  | .callCleared, asked | .callCleared, answered => some ended
  | _, _ => none

/-- The stage of a call that goes on. -/
def ofAnswered (answered : Bool) : CallStage := if answered then .answered else .asked

/-- The types of the records of a call that has come so far. -/
def shapes : CallStage → List (List CdrEvent)
  | unknown => [[]]
  | asked => [[.originationRequest]]
  | answered => [[.originationRequest, .originationFinalResponse]]
  | ended =>
    [[.originationRequest], [.originationRequest, .originationFinalResponse],
      [.originationRequest, .originationCancel], [.originationRequest, .callCleared],
      [.originationRequest, .originationFinalResponse, .callCleared]]

section

variable {r : CdrInfo}

theorem next_terminationAttempt (h : r.cdrType = .terminationAttempt) (s : CallStage) : next s r = some s := by
  unfold next
  rw [h]

theorem next_originationRequest (h : r.cdrType = .originationRequest) :
    next .unknown r = some (if r.sipStatus = 0 then asked else ended) := by
  unfold next
  rw [h]

theorem next_originationFinalResponse (h : r.cdrType = .originationFinalResponse) :
    next .asked r = some (if r.sipStatus = 200 then answered else ended) := by
  unfold next
  rw [h]

theorem next_originationCancel (h : r.cdrType = .originationCancel) : next .asked r = some ended := by
  unfold next
  rw [h]

theorem next_callCleared (h : r.cdrType = .callCleared) (answered : Bool) :
    next (ofAnswered answered) r = some ended := by
  unfold next
  rw [h]
  cases answered <;> rfl

/-- Another record makes another shape. -/
theorem mem_shapes_next {s s' : CallStage} {types : List CdrEvent} (h : types ∈ s.shapes) (hs : next s r = some s')
    (hr : r.cdrType ≠ .terminationAttempt) : types ++ [r.cdrType] ∈ s'.shapes := by
  unfold next at hs
  split at hs
  next htype => exact absurd htype hr
  next htype =>
    obtain rfl := List.mem_singleton.1 h
    obtain rfl := Option.some_inj.1 hs
    rw [htype]
    split_ifs <;> decide
  next htype =>
    obtain rfl := List.mem_singleton.1 h
    obtain rfl := Option.some_inj.1 hs
    rw [htype]
    split_ifs <;> decide
  next htype =>
    obtain rfl := List.mem_singleton.1 h
    obtain rfl := Option.some_inj.1 hs
    rw [htype]
    decide
  next htype =>
    obtain rfl := List.mem_singleton.1 h
    obtain rfl := Option.some_inj.1 hs
    rw [htype]
    decide
  next htype =>
    obtain rfl := List.mem_singleton.1 h
    obtain rfl := Option.some_inj.1 hs
    rw [htype]
    decide
  next => cases hs

/-- Only the first record of a call comes at the beginning. -/
theorem type_of_next_unknown {s : CallStage} (h : next .unknown r = some s) :
    r.cdrType = .originationRequest ∨ r.cdrType = .terminationAttempt := by
  unfold next at h
  cases hr : r.cdrType with
  | originationRequest => exact .inl rfl
  | terminationAttempt => exact .inr rfl
  | originationFinalResponse | originationCancel | callCleared =>
    rw [hr] at h
    cases h

end

end CallStage

/-- The course of an origination call. -/
def callCourse : Course CallStage CdrInfo where
  start := .unknown
  step := CallStage.next
  final s := s = .ended

/-- The types of the records, without those of the attempts. -/
def callTypes (rs : List CdrInfo) : List CdrEvent :=
  (rs.filter fun r => r.cdrType ≠ .terminationAttempt).map (·.cdrType)

/-- The stage tells which records there are. -/
theorem callTypes_mem_shapes {rs : List CdrInfo} {s : CallStage} (h : callCourse.stage rs = some s) :
    callTypes rs ∈ s.shapes := by
  induction rs using List.reverseRecOn generalizing s with
  | nil =>
    obtain rfl : CallStage.unknown = s := Option.some_inj.1 h
    exact List.mem_singleton_self []
  | append_singleton rs r ih =>
    rw [callCourse.stage_concat] at h
    obtain ⟨s₀, hs₀, hs⟩ := Option.bind_eq_some_iff.1 h
    rw [callTypes, List.filter_append, List.map_append]
    by_cases hr : r.cdrType = .terminationAttempt
    · obtain rfl : s₀ = s := Option.some_inj.1 ((CallStage.next_terminationAttempt hr s₀).symm.trans hs)
      rw [List.filter_cons_of_neg (by simpa using hr), List.filter_nil, List.map_nil, List.append_nil]
      exact ih hs₀
    · rw [List.filter_cons_of_pos (by simpa using hr), List.filter_nil]
      exact CallStage.mem_shapes_next (ih hs₀) hs hr

/-- Where no request was recorded, nothing was. -/
theorem callCourse_stage_of_new {k : SqlValue} {rs : List CdrInfo}
    (hnew : ∀ r ∈ rs, r.cdrType = .originationRequest → SqlValue.string r.uuid ≠ k)
    (hrs : callCourse.stage (trail CdrInfo.sessionUuid k rs) ≠ none) :
    callCourse.stage (trail CdrInfo.sessionUuid k rs) = some .unknown := by
  induction rs using List.reverseRecOn with
  | nil => rfl
  | append_singleton rs r ih =>
    have hnew' : ∀ r ∈ rs, r.cdrType = .originationRequest → SqlValue.string r.uuid ≠ k :=
      fun r hr => hnew r (List.mem_append_left _ hr)
    by_cases hk : SqlValue.string r.uuid = k
    · rw [callCourse.stage_trail_self hk] at hrs ⊢
      have hrs' : callCourse.stage (trail CdrInfo.sessionUuid k rs) ≠ none :=
        fun hnone => hrs (by rw [hnone]; rfl)
      rw [ih hnew' hrs'] at hrs ⊢
      obtain ⟨s, hs⟩ := Option.ne_none_iff_exists'.1 hrs
      rcases CallStage.type_of_next_unknown hs with htype | htype
      · exact absurd hk (hnew r (by simp) htype)
      · exact CallStage.next_terminationAttempt htype .unknown
    · rw [callCourse.stage_trail_of_ne hk] at hrs ⊢
      exact ih hnew' hrs

/-! ## The rows stay -/

/-- A statement takes no row away. -/
theorem Execution.exists_row_apply (x : Execution) {rows : List CdrSession} {row : CdrSession} (hrow : row ∈ rows) :
    ∃ row' ∈ x.apply rows, row'.sessionUuid = row.sessionUuid := by
  have hupdate : ∀ (uuid : SqlValue) (f : CdrSession → CdrSession), (∀ row, (f row).sessionUuid = row.sessionUuid) →
      ∃ row' ∈ CdrSession.update rows uuid f, row'.sessionUuid = row.sessionUuid := by
    intro uuid f hf
    refine ⟨_, List.mem_map_of_mem hrow, ?_⟩
    split_ifs
    · exact hf row
    · rfl
  unfold Execution.apply
  split
  · unfold CdrSession.insert
    split_ifs
    · exact ⟨row, hrow, rfl⟩
    · exact ⟨row, List.mem_append_left _ hrow, rfl⟩
  · exact hupdate _ _ fun _ => rfl
  · exact hupdate _ _ fun _ => rfl
  · exact hupdate _ _ fun _ => rfl
  · exact ⟨row, hrow, rfl⟩

theorem CdrSession.exists_row_insert (rows : List CdrSession) (row : CdrSession) :
    ∃ row' ∈ insert rows row, row'.sessionUuid = row.sessionUuid := by
  unfold insert
  split_ifs with hany
  · obtain ⟨row', hrow', heq⟩ := List.any_eq_true.1 hany
    exact ⟨row', hrow', of_decide_eq_true heq⟩
  · exact ⟨row, List.mem_append_right _ (List.mem_singleton_self row), rfl⟩

namespace CdrInfo

variable {cdr : CdrInfo} {rows : List CdrSession} {rs : List CdrInfo} {row : CdrSession}

theorem exists_row_write (cdr : CdrInfo) (hrow : row ∈ rows) :
    ∃ row' ∈ cdr.write rows, row'.sessionUuid = row.sessionUuid := by
  unfold write
  induction cdr.executions generalizing rows row with
  | nil => exact ⟨row, hrow, rfl⟩
  | cons x xs ih =>
    obtain ⟨row', hrow', heq⟩ := x.exists_row_apply hrow
    obtain ⟨row'', hrow'', heq'⟩ := ih hrow'
    exact ⟨row'', hrow'', heq'.trans heq⟩

theorem exists_row_foldl (rs : List CdrInfo) (hrow : row ∈ rows) :
    ∃ row' ∈ rs.foldl write rows, row'.sessionUuid = row.sessionUuid := by
  induction rs generalizing rows row with
  | nil => exact ⟨row, hrow, rfl⟩
  | cons r rs ih =>
    obtain ⟨row', hrow', heq⟩ := exists_row_write r hrow
    obtain ⟨row'', hrow'', heq'⟩ := ih hrow'
    exact ⟨row'', hrow'', heq'.trans heq⟩

/-- A request that was recorded has its row. -/
theorem exists_row_of_request (hcdr : cdr ∈ rs) (htype : cdr.cdrType = .originationRequest) :
    ∃ row ∈ rs.foldl write rows, row.sessionUuid = .string cdr.uuid := by
  induction rs generalizing rows with
  | nil => cases hcdr
  | cons r rs ih =>
    rcases List.mem_cons.1 hcdr with rfl | hcdr
    · have hrow : ∃ row ∈ cdr.write rows, row.sessionUuid = .string cdr.uuid := by
        rw [write, executions, htype]
        exact CdrSession.exists_row_insert rows _
      obtain ⟨row, hrow, heq⟩ := hrow
      obtain ⟨row', hrow', heq'⟩ := exists_row_foldl rs hrow
      exact ⟨row', hrow', heq'.trans heq⟩
    · exact ih hcdr

end CdrInfo

namespace Bookkeeping

/-! ## Runs -/

/-- The origination calls, and all records that were posted. -/
noncomputable def affairs (x : Bookkeeping) : Affairs Leg Bool SqlValue CdrInfo where
  status := x.controller.calls.status
  key := x.controller.uuidOf
  records := x.posted

/-- The stage of the call with a UUID, as it is in the records. -/
def stageOf (x : Bookkeeping) (uuid : Bytes) : Option CallStage :=
  callCourse.stage (trail CdrInfo.sessionUuid (SqlValue.string uuid) x.posted)

/-- The records follow the course of the calls. -/
abbrev Traced (x : Bookkeeping) : Prop :=
  x.affairs.Traced callCourse CdrInfo.sessionUuid CallStage.ofAnswered

section

variable {x : Bookkeeping} {e : ControllerEvent}

theorem posted_next (h : x.Inv) {new : List CdrInfo} (hwrite : ∀ connected, e ≠ .writeCdr connected)
    (hposts : Records.Posts x.controller.records (x.controller.next e).records new) :
    (x.next e).posted = x.posted ++ new := by
  change (x.taken ++ x.controller.takes e) ++ (x.controller.next e).queued = (x.taken ++ x.controller.queued) ++ new
  rw [Controller.takes_of_ne hwrite, (Controller.queued_of_posts h.writer hposts).2, List.append_nil,
    List.append_assoc]

/-- A call that a record tells of is not answered yet. -/
theorem status_of_tellsOf (h : x.Inv) (hun : x.controller.calls.Unanswered) {r : CdrInfo}
    (htells : x.controller.TellsOf r) {a : Leg} (ha : x.controller.calls.status a ≠ none)
    (hkey : x.controller.uuidOf a = some (.string r.uuid)) : x.controller.calls.status a = some false := by
  obtain ⟨irq, orq, a', hi, horig, hkey'⟩ := htells
  obtain rfl : a = a' := h.ledger.inj a a' ha (Calls.status_ne_none.2 horig) (hkey.trans hkey'.symm)
  rw [Calls.status, if_pos horig, hun.answered irq orq a hi]

/-- A UUID that is generated is new in the records. -/
theorem new_uuid (h : x.Inv) (htraced : x.Traced) (hsound : x.Sound e) {uuid : Bytes} (huuid : e.uuid = some uuid) :
    x.stageOf uuid = some .unknown ∧ x.affairs.Free (.string uuid) := by
  obtain ⟨hrows, hentries⟩ := entries_ne hsound huuid
  refine ⟨callCourse_stage_of_new (fun r hr htype heq => ?_) (htraced.stage _), fun a ha hka => ?_⟩
  · obtain ⟨row, hrow, hkey⟩ := CdrInfo.exists_row_of_request hr htype
    exact hrows row hrow (hkey.trans heq)
  · obtain ⟨b, hb⟩ := Option.ne_none_iff_exists'.1 ha
    obtain ⟨k, hk, hmem⟩ := h.ledger.entry a b hb
    exact hentries _ hmem (Option.some_inj.1 (hk.symm.trans hka))

/-- **Every event goes on in the course of a call.** -/
theorem recording (h : x.Inv) (hun : x.controller.calls.Unanswered) (htraced : x.Traced) (he : machine.enabled x e) :
    Affairs.Recording callCourse CdrInfo.sessionUuid CallStage.ofAnswered
      (∀ leg, e ≠ .sessionRefreshTimer leg) x.affairs (x.next e).affairs := by
  have hkeys : x.affairs.Keeps (x.next e).affairs := (h.step_next he).1.keeps
  have hsole : ∀ {a}, x.controller.calls.status a ≠ none → x.affairs.Sole a := fun ha b hb hkey =>
    h.ledger.inj b _ hb ha hkey
  obtain ⟨he, hsound⟩ := he
  by_cases hwrite : ∃ connected, e = .writeCdr connected
  · obtain ⟨connected, rfl⟩ := hwrite
    refine .same [] (fun _ => ControllerEvent.noConfusion) rfl hkeys (fun _ hr => absurd hr List.not_mem_nil) ?_
    change (x.taken ++ x.controller.takes _) ++ (x.controller.next _).queued = _
    rw [List.append_assoc, Controller.takes_append_queued, List.append_nil]
    rfl
  · have hwrite : ∀ connected, e ≠ .writeCdr connected := fun connected heq => hwrite ⟨connected, heq⟩
    have hint : ∀ orq sip nta, e = .inviteResponse orq sip nta → sip.status < UInt32.size := by
      rintro orq sip nta rfl
      exact hsound
    obtain ⟨hx, -⟩ := h.logged.callSteps h.relay (Controller.callSteps_next h.typed.next_pos he.1)
    have hbearing := Controller.bearing_next h.typed h.relay h.logged h.recorded h.timers he hint hwrite hx
    have htells : ∀ {r : CdrInfo}, Records.Posts x.controller.records (x.controller.next e).records [r] →
        (r.cdrType = .originationFinalResponse ∨ r.cdrType = .originationCancel) → x.controller.TellsOf r :=
      fun hposts => Controller.tellsOf_next h.typed h.relay h.logged h.writer he hwrite hposts
    have hrequest : ∀ {r : CdrInfo}, Records.Posts x.controller.records (x.controller.next e).records [r] →
        e.uuid ≠ none → r.Refuses x.controller.now ∧ (x.controller.next e).calls.status = x.controller.calls.status ∨
          r.Offers x.controller.now ∧ (x.controller.next e).calls.status ≠ x.controller.calls.status := by
      intro r hposts huuid
      cases e with
      | requestOutsideDialog sip uuid nta => exact Controller.refuses_or_offers h.typed h.logged h.writer hx hposts
      | _ => exact absurd rfl huuid
    cases hbearing with
    | steady new htold hsteady huuids hposts hnew =>
      exact .same new htold hsteady.status hkeys (fun r hr => CallStage.next_terminationAttempt (hnew r hr))
        (posted_next h hwrite hposts)
    | refused r htold hsteady huuids hposts htype hr =>
      obtain ⟨hstart, hfree⟩ := new_uuid h htraced hsound hr
      refine .filed r .ended htold hstart hfree ?_ rfl hsteady.status hkeys (posted_next h hwrite hposts)
      rcases hrequest hposts (by rw [hr]; exact Option.some_ne_none _) with ⟨hcdr, -⟩ | ⟨-, hne⟩
      · exact (CallStage.next_originationRequest hcdr.type).trans (congrArg some (if_neg hcdr.sipStatus))
      · exact absurd hsteady.status hne
    | opened a r htold ha hstatus hrecord htimers huuids hposts hr hkey =>
      obtain ⟨uuid, huuid, hr⟩ := hr
      obtain ⟨hstart, hfree⟩ := new_uuid h htraced hsound (hr.uuid ▸ huuid)
      refine .began a false r htold hstart hfree ?_ ha hstatus hkey hkeys (posted_next h hwrite hposts)
      rcases hrequest hposts (by rw [huuid]; exact Option.some_ne_none _) with ⟨-, heq⟩ | ⟨hcdr, -⟩
      · have hself := congrFun (hstatus.symm.trans heq) a
        rw [Function.update_self, ha] at hself
        cases hself
      · exact (CallStage.next_originationRequest hcdr.type).trans (congrArg some (if_pos hcdr.sipStatus))
    | answered a r htold ha hstatus hrecord htimers huuids hposts hr hkey =>
      have hfalse := status_of_tellsOf h hun (htells hposts (.inl hr.1)) ha hkey
      refine .moved a false true r htold hfalse hkey (hsole ha) ?_ hstatus hkeys (posted_next h hwrite hposts)
      exact (CallStage.next_originationFinalResponse hr.1).trans (congrArg some (if_pos hr.2))
    | ended a r htold hends huuids hposts hr hkey =>
      have hended : ∀ b, x.controller.calls.status a = some b →
          callCourse.step (CallStage.ofAnswered b) r = some .ended →
          Affairs.Recording callCourse CdrInfo.sessionUuid CallStage.ofAnswered
            (∀ leg, e ≠ .sessionRefreshTimer leg) x.affairs (x.next e).affairs := fun b hb hs =>
        .ended a b r .ended htold hb hkey (hsole hends.was) hs rfl hends.status hkeys (posted_next h hwrite hposts)
      rcases hr with ⟨htype, hne⟩ | htype | htype
      · refine hended false (status_of_tellsOf h hun (htells hposts (.inl htype)) hends.was hkey) ?_
        exact (CallStage.next_originationFinalResponse htype).trans (congrArg some (if_neg hne))
      · refine hended false (status_of_tellsOf h hun (htells hposts (.inr htype)) hends.was hkey) ?_
        exact CallStage.next_originationCancel htype
      · obtain ⟨b, hb⟩ := Option.ne_none_iff_exists'.1 hends.was
        exact hended b hb (CallStage.next_callCleared htype b)
    | dropped a htold hends ha hrecords =>
      obtain ⟨k, hk, -⟩ := h.ledger.entry a true ha
      refine .dropped a true k htold ha hk (hsole hends.was) hends.status hkeys ?_
      exact (posted_next h hwrite (Records.posts_nil (congrArg Records.posted hrecords))).trans (List.append_nil _)

/-- What holds in every run. -/
structure TrailInv (x : Bookkeeping) : Prop where
  inv : x.Inv
  unanswered : x.controller.calls.Unanswered
  traced : x.Traced

theorem TrailInv.next (h : x.TrailInv) (he : machine.enabled x e) : (x.next e).TrailInv := by
  have hsteps := Controller.callSteps_next h.inv.typed.next_pos he.1.1
  exact ⟨h.inv.next he, h.unanswered.callSteps h.inv.relay h.inv.logged hsteps,
    (recording h.inv h.unanswered h.traced he).traced h.traced⟩

theorem posted_init (hx : x ∈ machine.init) : x.posted = [] := by
  obtain ⟨hinit, -, htaken⟩ := hx
  unfold posted Controller.queued Controller.records
  rw [htaken]
  cases hw : x.controller.cdrWriter with
  | none => rfl
  | some w => simp [(hinit.cdrWriter w hw).1]

theorem trailInv_init (hx : x ∈ machine.init) : x.TrailInv := by
  have hstage : ∀ k, x.affairs.stage callCourse CdrInfo.sessionUuid k = some .unknown := by
    intro k
    change callCourse.stage (trail _ k x.posted) = _
    rw [posted_init hx]
    rfl
  refine ⟨inv_init hx, ?_, fun k => ?_, fun a t k ha => ?_⟩
  · rw [hx.1.calls]
    exact Calls.unanswered_empty
  · rw [hstage]
    exact Option.some_ne_none _
  · have hstatus : x.controller.calls.status a = none := by
      refine Calls.status_of_not_mem ?_
      rw [hx.1.calls]
      exact List.not_mem_nil
    cases hstatus.symm.trans ha

theorem TrailInv.stageOf (h : x.TrailInv) (uuid : Bytes) : ∃ s, x.stageOf uuid = some s :=
  Option.ne_none_iff_exists'.1 (h.traced.stage _)

/-- An origination call has a UUID. -/
theorem TrailInv.exists_uuid (h : x.TrailInv) {a : Leg} (ha : x.controller.calls.status a ≠ none) :
    ∃ uuid, x.controller.uuidOf a = some (.string uuid) := by
  obtain ⟨p, r, -, -, hkey⟩ := h.inv.recorded.copy ha
  exact ⟨r.uuid, hkey⟩

/-- The records that were posted under a UUID. -/
def trailOf (x : Bookkeeping) (uuid : Bytes) : List CdrInfo := x.posted.filter fun r => r.uuid = uuid

theorem trailOf_eq (x : Bookkeeping) (uuid : Bytes) :
    trail CdrInfo.sessionUuid (SqlValue.string uuid) x.posted = x.trailOf uuid := by
  refine List.filter_congr fun r _ => decide_eq_decide.2 ?_
  rw [CdrInfo.sessionUuid, SqlValue.string.injEq]

theorem stageOf_eq (x : Bookkeeping) (uuid : Bytes) : x.stageOf uuid = callCourse.stage (x.trailOf uuid) :=
  congrArg callCourse.stage (x.trailOf_eq uuid)

/-- **The records of a call come in their course.** In every run, the records that were posted under
    a UUID are those of a call as far as it has come: a request, at most one final response to it or
    a CANCEL, and a BYE at the end. While a call goes on, they say whether it was answered. -/
theorem trails_of_reachable (hx : machine.Reachable x) :
    (∀ uuid, ∃ s, callCourse.stage (x.trailOf uuid) = some s ∧ callTypes (x.trailOf uuid) ∈ s.shapes) ∧
      ∀ a, x.controller.calls.Originates a → ∃ uuid, x.controller.uuidOf a = some (.string uuid) ∧
        callCourse.stage (x.trailOf uuid) = some (.ofAnswered (x.controller.calls.answered a)) := by
  have h : x.TrailInv := hx.invariant (fun _ => trailInv_init) fun _ _ h he => h.next he
  refine ⟨fun uuid => ?_, fun a ha => ?_⟩
  · obtain ⟨s, hs⟩ := h.stageOf uuid
    rw [stageOf_eq] at hs
    exact ⟨s, hs, callTypes_mem_shapes hs⟩
  · obtain ⟨uuid, huuid⟩ := h.exists_uuid (Calls.status_ne_none.2 ha)
    refine ⟨uuid, huuid, ?_⟩
    rw [← stageOf_eq]
    exact h.traced.place a _ _ (if_pos ha) huuid

/-- A call that was recorded is over in the records, or goes on. -/
def Complete (x : Bookkeeping) : Prop :=
  ∀ uuid, callCourse.stage (x.trailOf uuid) = some .unknown ∨ callCourse.stage (x.trailOf uuid) = some .ended ∨
    ∃ a, x.controller.calls.Originates a ∧ x.controller.uuidOf a = some (.string uuid)

/-- The same, by what is known of the records. -/
theorem TrailInv.complete_iff_closed (h : x.TrailInv) :
    x.Complete ↔ x.affairs.Closed callCourse CdrInfo.sessionUuid := by
  constructor
  · intro hcomplete k s hs
    by_cases hk : ∃ uuid, k = .string uuid
    · obtain ⟨uuid, rfl⟩ := hk
      have hstage : callCourse.stage (x.trailOf uuid) = some s := x.stageOf_eq uuid ▸ hs
      rcases hcomplete uuid with hstart | hover | ⟨a, ha, hka⟩
      · exact .inl (Option.some_inj.1 (hstage.symm.trans hstart))
      · exact .inr (.inl (Option.some_inj.1 (hstage.symm.trans hover)))
      · exact .inr (.inr ⟨a, Calls.status_ne_none.2 ha, hka⟩)
    · -- No record has such a key.
      have hnil : trail CdrInfo.sessionUuid k x.posted = [] :=
        List.filter_eq_nil_iff.2 fun r _ heq => hk ⟨r.uuid, (of_decide_eq_true heq).symm⟩
      change callCourse.stage (trail _ k x.posted) = some s at hs
      rw [hnil] at hs
      exact .inl (Option.some_inj.1 hs).symm
  · intro hclosed uuid
    obtain ⟨s, hs⟩ := h.stageOf uuid
    rw [← stageOf_eq, hs]
    rcases hclosed _ s hs with hstart | hover | ⟨a, ha, hka⟩
    · exact .inl (congrArg some hstart)
    · exact .inr (.inl (congrArg some hover))
    · exact .inr (.inr ⟨a, Calls.status_ne_none.1 ha, hka⟩)

/-- **No call is left open in the records**, in any run, exactly as long as no session timer
    expires. -/
theorem complete_iff {es : List ControllerEvent} (hrun : machine.IsRun x es) :
    machine.Always Complete x es ↔ ∀ leg, .sessionRefreshTimer leg ∉ es := by
  have hinv := trailInv_init hrun.1
  have hplace : ∀ t, CallStage.ofAnswered t ≠ callCourse.start ∧ ¬callCourse.final (CallStage.ofAnswered t) := by
    rintro (_ | _) <;> exact ⟨CallStage.noConfusion, CallStage.noConfusion⟩
  have hends : machine.Along (fun _ e => ∀ leg, e ≠ .sessionRefreshTimer leg) x es ↔
      ∀ leg, .sessionRefreshTimer leg ∉ es := by
    rw [Machine.along_iff_forall]
    exact ⟨fun h leg hmem => h _ hmem leg rfl, fun h e he leg heq => h leg (heq ▸ he)⟩
  rw [← hends]
  refine Machine.always_iff_along (I := TrailInv) (fun x e h _ he _ => h.next he) (fun x e h hcomplete he => ?_) hinv ?_
    hrun.2
  · refine (h.next he).complete_iff_closed.trans ?_
    exact (recording h.inv h.unanswered h.traced he).closed_iff hplace h.traced (h.complete_iff_closed.1 hcomplete)
  · intro uuid
    left
    rw [trailOf, posted_init hrun.1]
    rfl

end

/-! ## An example -/

/-- The call of the example, up to its BYE. -/
theorem exampleBye_isRun : machine.IsRun exampleBookkeeping (exampleAnswered ++ [exampleBye]) := by
  refine ⟨exampleBookkeeping_init, ⟨⟨trivial, by decide⟩, ?_⟩, ⟨⟨⟨_, rfl, rfl, rfl⟩, by decide⟩, ?_⟩,
    ⟨⟨?_, by decide⟩, trivial⟩, trivial⟩
  · exact fun row hrow => absurd hrow List.not_mem_nil
  · change (200 : ℤ) < UInt32.size
    decide
  · change (⟨3⟩ : Leg) ∈ _
    decide

/-- The records of the call are complete at its end. -/
theorem trails_exampleBye :
    machine.Reachable (machine.exec exampleBookkeeping (exampleAnswered ++ [exampleBye])) ∧
      ∀ uuid, ∃ s : CallStage,
        callTypes (trailOf (machine.exec exampleBookkeeping (exampleAnswered ++ [exampleBye])) uuid) ∈ s.shapes := by
  have hreach := Machine.Reachable.exec (.init exampleBye_isRun.1) exampleBye_isRun.2
  exact ⟨hreach, fun uuid => ((trails_of_reachable hreach).1 uuid).imp fun _ h => h.2⟩

theorem complete_exampleBye : machine.Always Complete exampleBookkeeping (exampleAnswered ++ [exampleBye]) :=
  (complete_iff exampleBye_isRun).2 (by simp [exampleAnswered, exampleBye])

end Bookkeeping

end Ssp
