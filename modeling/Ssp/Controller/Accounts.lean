import Ssp.Controller.Turns

/-!
# What the records say

A `termination_attempt` record says when an INVITE was sent, the Call-ID of its leg, its carrier
and the carrier's address (`CdrInfo.details`), and how and when it ended. There is one record for
all INVITEs of a call, which is changed as the call goes on; what is posted are copies of it.

* An INVITE gets its final response (`Controller.Ends`): `ends_next` says which copies are posted, and
  what the record says about the INVITE that takes its place, if there is one.
* No other event posts such a record (`spares_next`), or changes what is said of the INVITEs that are
  waited for; the record of a new call says what there is to say of its INVITE (`carries_next`).
-/

namespace Ssp

/-- What a record says about an INVITE. -/
structure Details where
  tmStart : ℕ
  dlegCallId : Bytes
  terminatingCarrier : Bytes
  terminatingCarrierAddress : Bytes
  deriving DecidableEq

namespace CdrInfo

def details (cdr : CdrInfo) : Details where
  tmStart := cdr.tmStart
  dlegCallId := cdr.dlegCallId
  terminatingCarrier := cdr.terminatingCarrier
  terminatingCarrierAddress := cdr.terminatingCarrierAddress

/-- The time that is written for the final response, by its status. -/
def finalTime (cdr : CdrInfo) : ℕ := if cdr.sipStatus = 200 then cdr.tmConnect else cdr.tmEnd

end CdrInfo

/-- What the record of an attempt says, and which trunk the attempt is on. -/
def account (a : TerminationAttempt) (cdr : CdrInfo) : Details × Bytes × Bytes :=
  (cdr.details, a.carrier, a.sipTrunk)

namespace Records

/-- The records of the attempts still say what they said, and no report about one is posted. -/
structure Spares (b b' : Records) : Prop where
  seen : b.Own → ∀ t < b.attempts.length, b'.seen account t = b.seen account t
  posts : ∃ new, Posts b b' new ∧ ∀ r ∈ new, r.cdrType ≠ .terminationAttempt

/-- A new attempt, if there is one, is on the trunk that its record says, and begins `now`. -/
def NewAttempt (now : ℕ) (b b' : Records) : Prop :=
  b'.attempts = b.attempts ∨ ∃ cdr a, a.cdr = b.cdrs.length ∧ b' = (b.draft cdr).addAttempt a ∧
    cdr.tmStart = now ∧ cdr.terminatingCarrier = a.carrier ∧ cdr.terminatingCarrierAddress = a.sipTrunk

section

variable {b b' : Records} {p : ℕ} {f : CdrInfo → CdrInfo}

theorem spares_of_eq (h : b' = b) : Spares b b' :=
  ⟨fun _ _ _ => by rw [h], [], posts_nil (h ▸ rfl), fun _ hr => absurd hr List.not_mem_nil⟩

theorem spares_file {cdr : CdrInfo} (htype : cdr.cdrType ≠ .terminationAttempt) : Spares b (b.file cdr) :=
  ⟨fun hb _ _ => seen_file hb cdr, [cdr], posts_file b cdr, fun _ hr => List.mem_singleton.1 hr ▸ htype⟩

theorem spares_postCopy (htype : ∀ cdr, (f cdr).cdrType ≠ .terminationAttempt) : Spares b (b.postCopy p f) := by
  refine ⟨fun hb _ _ => seen_postCopy hb p f, _, posts_copy b p f, fun r hr => ?_⟩
  obtain ⟨cdr, -, rfl⟩ := Option.map_eq_some_iff.1 (Option.mem_toList.1 hr)
  exact htype cdr

theorem spares_update (hdetails : ∀ cdr, (f cdr).details = cdr.details)
    (htype : ∀ cdr, (f cdr).cdrType ≠ .terminationAttempt) : Spares b ((b.update p f).post p) := by
  have haccount : ∀ a cdr, account a (f cdr) = account a cdr := fun a cdr =>
    congrArg (·, a.carrier, a.sipTrunk) (hdetails cdr)
  have hseen : ∀ t, (b.update p f).seen account t = b.seen account t := fun t => seen_update haccount
  refine ⟨fun _ t _ => hseen t, _, posts_update b p f, fun r hr => ?_⟩
  obtain ⟨cdr, -, rfl⟩ := Option.map_eq_some_iff.1 (Option.mem_toList.1 hr)
  exact htype cdr

theorem update_update (b : Records) (p : ℕ) (f k : CdrInfo → CdrInfo) :
    (b.update p f).update p k = b.update p (k ∘ f) :=
  Records.ext (List.modify_modify_eq f k p b.cdrs) rfl rfl rfl

/-- An attempt changes, and its record. -/
theorem seen_change {β : Type*} (π : TerminationAttempt → CdrInfo → β) (f : CdrInfo → CdrInfo)
    (g : TerminationAttempt → TerminationAttempt) {t : ℕ} {a : TerminationAttempt} {cdr : CdrInfo} (hb : b.Own)
    (ha : b.attempts[t]? = some a) (hg : ∀ a, (g a).cdr = a.cdr) (hcdr : b.cdrs.at? a.cdr = some cdr) :
    ((b.modifyAttempt t g).update a.cdr f).seen π t = some (π (g a) (f cdr)) ∧
      ∀ t' ≠ t, ((b.modifyAttempt t g).update a.cdr f).seen π t' = b.seen π t' := by
  have ha' := getElem?_modifyAttempt ha g
  have hown := (keeps_modifyAttempt t hg).own hb
  rw [← hg a] at hcdr ⊢
  exact ⟨seen_update_self ha' hcdr, fun t' hne =>
    (seen_update_of_ne hown ha' hne).trans (seen_modifyAttempt_of_ne hne)⟩

theorem at?_postCopy {q : ℕ} {cdr : CdrInfo} (hcdr : b.cdrs.at? q = some cdr) (p : ℕ) (f : CdrInfo → CdrInfo) :
    (b.postCopy p f).cdrs.at? q = some cdr := by
  unfold postCopy
  cases b.cdrs.at? p with
  | none => exact hcdr
  | some cdr' => exact CdrHeap.at?_alloc_of_some hcdr (f cdr')

theorem spares_addAttempt (cdr : CdrInfo) (a : TerminationAttempt) : Spares b ((b.draft cdr).addAttempt a) :=
  ⟨fun hb _ ht => seen_addAttempt hb cdr ht, [], posts_nil rfl, fun _ hr => absurd hr List.not_mem_nil⟩

end

end Records

namespace Controller

section

variable {c : Controller}

/-! ## New calls -/

theorem records_generateTerminationRequest (c : Controller) (t : ℕ) (irq : Irq) (nta : Creations) :
    (c.generateTerminationRequest t irq nta).1.records = c.records ∨
      ∃ a, c.attempts[t]? = some a ∧
        (c.generateTerminationRequest t irq nta).1.records = c.records.update a.cdr (setDleg nta.callId) := by
  unfold generateTerminationRequest
  cases ha : c.attempts[t]? with
  | none => exact .inl rfl
  | some a =>
    dsimp only
    split
    · exact .inl rfl
    · exact .inr ⟨a, rfl, rfl⟩

theorem terminateOn_records (c : Controller) (irq : Irq) (aLeg : Leg) (sip : Request) (t : ℕ) (nta : Creations) :
    (c.terminateOn irq aLeg sip t nta).1.records = (c.generateTerminationRequest t irq nta).1.records := by
  unfold terminateOn
  rcases c.generateTerminationRequest t irq nta with ⟨c', _ | ⟨orq, bLeg⟩⟩
  · rfl
  · dsimp only
    rw [records_withCalls, records_require]

theorem processTerminationRequest_newAttempt (c : Controller) (irq : Irq) (sip : Request) (nta : Creations) :
    Records.NewAttempt c.now c.records (c.processTerminationRequest irq sip nta).1.records := by
  unfold processTerminationRequest
  rcases c.firstRoute sip with _ | ⟨route, config⟩
  · exact .inl rfl
  right
  dsimp only
  obtain ⟨cdr, a, ha, hrecords, hdetails⟩ : ∃ cdr a, a.cdr = c.cdrs.length ∧
      (newAttempt { c with config := config } sip route).2.records = (c.records.draft cdr).addAttempt a ∧
        cdr.tmStart = c.now ∧ cdr.terminatingCarrier = a.carrier ∧ cdr.terminatingCarrierAddress = a.sipTrunk :=
    ⟨_, _, rfl, congrArg (Records.addAttempt · _) (c.records.update_draft _ _), rfl, rfl, rfl⟩
  have ht : (newAttempt { c with config := config } sip route).1 = c.attempts.length := rfl
  rw [ht]
  generalize (newAttempt { c with config := config } sip route).2 = c' at hrecords ⊢
  unfold terminate
  rcases c'.calls.createLeg nta.aLeg with ⟨aLeg, s⟩
  dsimp only
  rw [terminateOn_records]
  rcases records_generateTerminationRequest (c'.withCalls (s.bindIncoming irq aLeg)) c.attempts.length irq nta with
    heq | ⟨a', ha', heq⟩ <;> rw [heq, records_withCalls, hrecords]
  · exact ⟨cdr, a, ha, rfl, hdetails⟩
  · obtain rfl : a = a' := by
      have hnew : c'.records.attempts[c.attempts.length]? = some a := by
        rw [hrecords]
        exact List.getElem?_concat_length
      exact Option.some_inj.1 (hnew.symm.trans ha')
    refine ⟨setDleg nta.callId cdr, a, ha, ?_, hdetails⟩
    rw [Records.update_addAttempt, ha]
    exact congrArg (Records.addAttempt · a) (c.records.update_draft _ _)

/-- Nothing but a termination call has an attempt. -/
theorem processOriginationRequest_attempts (c : Controller) (irq : Irq) (sip : Request) (carrier uuid : Bytes)
    (nta : Creations) : (c.processOriginationRequest irq sip carrier uuid nta).1.attempts = c.attempts := by
  unfold processOriginationRequest
  have hsel : (c.originationCdr sip carrier uuid).2.selectServer.1.attempts = c.attempts := rfl
  rcases h : (c.originationCdr sip carrier uuid).2.selectServer with ⟨c', _ | server⟩ <;> rw [h] at hsel <;>
    simp only [h]
  · exact hsel
  · unfold originate
    split <;> exact hsel

theorem countDown_records (r : Controller × ℤ) : (countDown r).1.records = r.1.records := by
  unfold countDown
  split_ifs <;> rfl

theorem processInvite_newAttempt (c : Controller) (irq : Irq) (sip : Request) (uuid : Bytes) (nta : Creations) :
    Records.NewAttempt c.now c.records (c.processInvite irq sip uuid nta).1.records := by
  unfold processInvite
  dsimp only
  have hrecords := c.records_require .requestContactHost sip.contactHost?.isSome
  have hnow := c.now_require .requestContactHost sip.contactHost?.isSome
  generalize c.require .requestContactHost sip.contactHost?.isSome = c' at hrecords hnow ⊢
  have hattempts : c'.attempts = c.attempts := congrArg Records.attempts hrecords
  rcases c'.determineCallType _ with ⟨_ | _ | _, carrier⟩
  · dsimp only
    split_ifs
    · exact .inl hattempts
    · left
      rw [countDown_records]
      exact (c'.processOriginationRequest_attempts irq sip carrier uuid nta).trans hattempts
  · dsimp only
    rw [countDown_records, ← hrecords, ← hnow]
    exact c'.processTerminationRequest_newAttempt irq sip nta
  · exact .inl hattempts

theorem requestOutsideDialog_newAttempt (c : Controller) (sip : Request) (uuid : Bytes) (nta : Creations) :
    Records.NewAttempt c.now c.records (c.requestOutsideDialog sip uuid nta).records := by
  change Records.NewAttempt c.now c.records (processRequestOutsideDialog _ _ _ _ _).1.records
  unfold processRequestOutsideDialog
  by_cases hvalid : sip.validateSipMessage = 0
  · rw [if_neg (not_not.2 hvalid)]
    cases sip.method with
    | invite => exact processInvite_newAttempt (c.withCalls (c.calls.receive .null)) _ sip uuid nta
    | options =>
      dsimp only
      split_ifs
      · exact .inl rfl
      · exact .inl (congrArg Records.attempts (records_require _ _ _))
      · exact .inl (congrArg Records.attempts (records_require _ _ _))
    | ack | bye | cancel | other name => exact .inl rfl
  · rw [if_pos hvalid]
    exact .inl rfl

/-! ## CANCEL and BYE -/

theorem populateCancelCdr_details (c : Controller) (cdr : CdrInfo) :
    (c.populateCancelCdr cdr).details = cdr.details := rfl

theorem populateByeCdr_details (c : Controller) (released : Bool) (cdr : CdrInfo) :
    (c.populateByeCdr released cdr).details = cdr.details := rfl

/-- A termination call is cancelled: that is reported like a final response. -/
theorem reportCancel_of_attempt {orq : Orq} {leg : Leg} {t : ℕ} {a : TerminationAttempt}
    (hinfo : c.calls.mapDialogInfo leg = none) (ht : c.attemptOf orq = some (t, a)) :
    (c.reportCancel orq leg).records = c.records.postCopy a.cdr (c.finalCopy .terminationAttempt 487) := by
  obtain ⟨ht', ha⟩ := attemptOf_eq_some ht
  unfold reportCancel
  rw [hinfo]
  dsimp only
  rw [ht', Option.bind_some, ha]
  exact records_postFinalResponse _ _ _ _

/-- Nothing is said of an attempt where there is none. -/
theorem reportCancel_of_none {orq : Orq} {leg : Leg} (ht : c.attemptOf orq = none) :
    Records.Spares c.records (c.reportCancel orq leg).records := by
  unfold reportCancel
  rcases c.calls.mapDialogInfo leg with _ | d
  · dsimp only
    cases ha : (c.calls.mapTerminationAttempts orq).bind fun t => c.attempts[t]? with
    | none => exact Records.spares_of_eq rfl
    | some a =>
      obtain ⟨t, ht', ha'⟩ := Option.bind_eq_some_iff.1 ha
      rw [attemptOf, ht', Option.bind_some, ha'] at ht
      cases ht
  · dsimp only
    cases d.cdr with
    | none => exact Records.spares_of_eq rfl
    | some p =>
      dsimp only
      rw [records_postCdr, records_setCdr]
      exact Records.spares_update c.populateCancelCdr_details fun _ => CdrEvent.noConfusion

theorem reportBye_spares (c : Controller) (leg other : Leg) :
    Records.Spares c.records (c.reportBye leg other).records := by
  unfold reportBye
  rcases c.byeCdr leg other with _ | ⟨d, released⟩
  · exact Records.spares_of_eq rfl
  · dsimp only
    cases d.cdr with
    | none => exact Records.spares_of_eq rfl
    | some p =>
      dsimp only
      rw [records_postCdr, records_setCdr]
      exact Records.spares_update (c.populateByeCdr_details released) fun _ => CdrEvent.noConfusion

theorem processMethod_spares (c : Controller) (leg other : Leg) (irq : Irq) (sip : Request) (nta : Creations) :
    Records.Spares c.records (c.processMethod leg other irq sip nta).1.records := by
  unfold processMethod
  cases sip.method with
  | bye =>
    change Records.Spares c.records (c.processBye leg other irq).records
    unfold processBye
    rw [records_withCalls]
    split_ifs
    · exact Records.spares_of_eq rfl
    · exact reportBye_spares (c.withCalls (c.calls.record (.sent other .bye))) leg other
  | ack => exact Records.spares_of_eq rfl
  | invite | cancel | options | other name =>
    dsimp only
    split_ifs <;> exact Records.spares_of_eq rfl

theorem requestInsideDialog_spares (c : Controller) (leg : Leg) (sip : Request) (nta : Creations) :
    Records.Spares c.records (c.requestInsideDialog leg sip nta).records := by
  unfold requestInsideDialog processRequestInsideDialog
  dsimp only
  cases (c.withCalls (c.calls.receive leg)).calls.getAssociatedDialog leg with
  | none => exact Records.spares_of_eq rfl
  | some other =>
    dsimp only
    rw [records_withCalls]
    split_ifs
    · exact processMethod_spares (c.withCalls ((c.calls.receive leg).fault (.assertion .requestNoOther))) leg
        other _ sip nta
    · exact processMethod_spares (c.withCalls (c.calls.receive leg)) leg other _ sip nta

/-! ## What leaves the INVITEs alone -/

/-- The INVITE `orq` of the attempt `t` gets its final response in an event: it is passed on or
    leads to another INVITE, or it is the 487 of a CANCEL. -/
def Ends (c : Controller) (orq : Orq) (t : ℕ) (a : TerminationAttempt) (status : ℤ) : ControllerEvent → Prop
  | .inviteResponse orq' sip _ =>
    orq' = orq ∧ sip.status = status ∧ 200 ≤ status ∧ c.Reached orq ∧ c.attemptOf orq = some (t, a)
  | .ackOrCancel irq method =>
    method = .cancel ∧ c.calls.getAssociatedOutgoing irq = orq ∧ orq ≠ .null ∧
      c.calls.legFromIncoming irq ≠ .null ∧ status = 487 ∧ c.attemptOf orq = some (t, a)
  | _ => False

theorem Ends.attemptOf {orq : Orq} {t : ℕ} {a : TerminationAttempt} {status : ℤ} {e : ControllerEvent}
    (h : c.Ends orq t a status e) : c.attemptOf orq = some (t, a) := by
  cases e with
  | inviteResponse orq' sip nta => exact h.2.2.2.2
  | ackOrCancel irq method => exact h.2.2.2.2.2
  | _ => exact h.elim

/-- An event ends one INVITE at most. -/
theorem Ends.unique {orq orq' : Orq} {t t' : ℕ} {a a' : TerminationAttempt} {status status' : ℤ}
    {e : ControllerEvent} (h : c.Ends orq t a status e) (h' : c.Ends orq' t' a' status' e) :
    orq' = orq ∧ a' = a := by
  have horq : orq' = orq := by
    cases e with
    | inviteResponse orq₁ sip nta => exact h'.1.symm.trans h.1
    | ackOrCancel irq method => exact h'.2.1.symm.trans h.2.1
    | _ => exact h.elim
  refine ⟨horq, ?_⟩
  have heq := (horq ▸ h'.attemptOf).symm.trans h.attemptOf
  exact (Prod.mk.inj (Option.some_inj.1 heq)).2

theorem requestOutsideDialog_spares (c : Controller) (sip : Request) (uuid : Bytes) (nta : Creations) :
    Records.Spares c.records (c.requestOutsideDialog sip uuid nta).records := by
  rcases c.requestOutsideDialog_cases sip uuid nta with ⟨-, hrefused⟩ | hopened
  · cases hrefused with
    | unreported hrecords => exact Records.spares_of_eq hrecords
    | reported cdr htype huuid hrecords =>
      exact hrecords ▸ Records.spares_file (htype ▸ CdrEvent.noConfusion)
    | attempted cdr a ha hrecords => exact hrecords ▸ Records.spares_addAttempt cdr a
  · cases hopened with
    | origination request info cdr hinfo hcalls hcdr hrecords =>
      exact hrecords ▸ Records.spares_file (hcdr.type ▸ CdrEvent.noConfusion)
    | termination aLeg n request info cdr a hn haLeg hinfo hcalls ha hcdr hrecords =>
      exact hrecords ▸ Records.spares_addAttempt cdr a

theorem inviteResponse_spares {orq : Orq} {sip : Response}
    (hends : ¬(c.Reached orq ∧ 200 ≤ sip.status ∧ c.attemptOf orq ≠ none)) (nta : Creations) :
    Records.Spares c.records (c.processInviteResponseInsideDialog orq sip nta).records := by
  by_cases hreached : c.Reached orq
  · rw [inviteResponse_of_reached hreached]
    by_cases hfinal : 200 ≤ sip.status
    · have ht : c.attemptOf orq = none := not_not.1 fun hne => hends ⟨hreached, hfinal, hne⟩
      obtain ⟨reply, f, -, hf, -, hrecords⟩ := processInviteResponse_origination ht hfinal
        (c.calls.getAssociatedIncoming orq) (c.calls.legFromIncoming (c.calls.getAssociatedIncoming orq))
        (c.calls.legFromOutgoing orq) nta
      rw [hrecords]
      cases c.calls.recordOf (c.calls.legFromIncoming (c.calls.getAssociatedIncoming orq)) with
      | none => exact Records.spares_of_eq rfl
      | some p => exact Records.spares_postCopy fun cdr => hf.type cdr ▸ CdrEvent.noConfusion
    · exact Records.spares_of_eq (processInviteResponse_provisional (not_le.1 hfinal) c _ orq _ _ nta).2
  · obtain ⟨a, heq⟩ := inviteResponse_of_not_reached hreached sip nta
    exact Records.spares_of_eq (heq ▸ rfl)

theorem processCancel_spares {irq : Irq} (hcrash : ¬(c.processCancel irq).Crashed)
    (hends : ¬(c.calls.getAssociatedOutgoing irq ≠ .null ∧ c.calls.legFromIncoming irq ≠ .null ∧
      c.attemptOf (c.calls.getAssociatedOutgoing irq) ≠ none)) :
    Records.Spares c.records (c.processCancel irq).records := by
  rcases processCancel_cases hcrash with ⟨-, hrecords, -⟩ | ⟨hnull, hleg, -, -⟩
  · exact Records.spares_of_eq hrecords
  · have ht : c.attemptOf (c.calls.getAssociatedOutgoing irq) = none :=
      not_not.1 fun hne => hends ⟨hnull, hleg, hne⟩
    rw [processCancel_eq hnull hleg]
    exact reportCancel_of_none (c := c.withCalls (c.calls.record (.cancelled irq))) ht

/-- **What is said of the attempts** does not change unless an INVITE gets its final response. -/
theorem spares_next {e : ControllerEvent} (he : machine.enabled c e)
    (hwrite : ∀ connected, e ≠ .writeCdr connected) (hends : ∀ orq t a status, ¬c.Ends orq t a status e) :
    Records.Spares c.records (c.next e).records := by
  have hnone : ∀ {orq}, (∀ p, c.attemptOf orq = some p → False) → c.attemptOf orq = none := fun h =>
    Option.eq_none_iff_forall_ne_some.2 h
  cases e with
  | requestOutsideDialog sip uuid nta => exact c.requestOutsideDialog_spares sip uuid nta
  | inviteResponse orq sip nta =>
    refine inviteResponse_spares (fun ⟨hreached, hfinal, hne⟩ => hne ?_) nta
    exact hnone fun ⟨t, a⟩ ht => hends orq t a sip.status ⟨rfl, rfl, hfinal, hreached, ht⟩
  | ackOrCancel irq method =>
    obtain ⟨-, hcrash⟩ := he
    change ¬(c.processAckOrCancel irq method).Crashed at hcrash
    change Records.Spares _ (c.processAckOrCancel irq method).records
    unfold processAckOrCancel at hcrash ⊢
    split_ifs at hcrash ⊢ with hmethod
    · refine processCancel_spares hcrash fun ⟨hnull, hleg, hne⟩ => hne ?_
      exact hnone fun ⟨t, a⟩ ht => hends _ t a 487 ⟨hmethod, rfl, hnull, hleg, rfl, ht⟩
    · exact Records.spares_of_eq rfl
  | requestInsideDialog leg sip nta => exact c.requestInsideDialog_spares leg sip nta
  | responseInsideDialog orq sip => exact Records.spares_of_eq (c.responseInsideDialog_cases orq sip).1
  | sessionRefreshTimer leg =>
    obtain ⟨d, hd, -⟩ := he.1
    exact Records.spares_of_eq (sessionRefreshTimer_cases (Option.ne_none_iff_exists'.2 ⟨d, hd⟩) he.2).1
  | retransmittedResponse leg sip => exact Records.spares_of_eq (c.retransmittedResponse_cases leg sip).1
  | writeCdr connected => exact absurd rfl (hwrite connected)
  | clock now | monitor fsMonitor | resetTrunkStats => exact Records.spares_of_eq rfl

/-! ## The final response to an INVITE -/

theorem finalCopy_details (c : Controller) (cdrType : CdrEvent) (status : ℤ) (cdr : CdrInfo) :
    (c.finalCopy cdrType status cdr).details = cdr.details := by
  unfold finalCopy populateFinalResponseCdr
  dsimp only
  split_ifs <;> rfl

/-- It connects or ends now. -/
theorem finalCopy_finalTime (c : Controller) (cdrType : CdrEvent) (status : ℤ) (cdr : CdrInfo) :
    (c.finalCopy cdrType status cdr).finalTime = c.now := by
  have hstatus := (c.finalCopy_isReport cdrType status).sipStatus cdr
  unfold CdrInfo.finalTime
  rw [hstatus]
  unfold finalCopy populateFinalResponseCdr
  dsimp only
  split_ifs <;> rfl

/-- nta grants the leg and the transaction of another INVITE. -/
def Granted (nta : Creations) : Prop := nta.bLeg = true ∧ nta.orq = true

instance (nta : Creations) : Decidable (Granted nta) := inferInstanceAs (Decidable (_ ∧ _))

/-- What is reported when the INVITE of an attempt gets its final response: the record `cdr` of the
    attempt, and once more if it was changed for a crankback that then fails. A redirect that is
    followed is not reported. -/
def reported (c : Controller) (a : TerminationAttempt) (cdr : CdrInfo) : ControllerEvent → List CdrInfo
  | .inviteResponse _ sip nta =>
    if (300 ≤ sip.status ∧ sip.status ≤ 399) ∧ Granted nta then []
    else if c.CranksBack a sip ∧ ¬Granted nta then
      cdr :: ((c.config.getTerminationRouteForAltCarrier a.carrier).map fun r => setRoute r.1 cdr).toList
    else [cdr]
  | _ => [cdr]

theorem posts_finalCopy {b : Records} {p : ℕ} {cdr : CdrInfo} (hcdr : b.cdrs.at? p = some cdr)
    (f : CdrInfo → CdrInfo) : Records.Posts b (b.postCopy p f) [f cdr] := by
  have h := Records.posts_copy b p f
  rwa [hcdr] at h

section

variable {c' : Controller} {irq : Irq} {orq : Orq} {bLeg : Leg} {t : ℕ} {a : TerminationAttempt} {sip : Response}
  {nta : Creations} {cdr : CdrInfo}

theorem reported_once (hredirect : ¬((300 ≤ sip.status ∧ sip.status ≤ 399) ∧ Granted nta))
    (hcrank : ¬(c.CranksBack a sip ∧ ¬Granted nta)) : c.reported a cdr (.inviteResponse orq sip nta) = [cdr] :=
  (if_neg hredirect).trans (if_neg hcrank)

theorem reported_crankbackFailed {route : Route} {config : SspConfig} (hcrank : c.CranksBack a sip)
    (hroute : c.config.getTerminationRouteForAltCarrier a.carrier = some (route, config)) (hnta : ¬Granted nta) :
    c.reported a cdr (.inviteResponse orq sip nta) = [cdr] ++ [setRoute route cdr] := by
  refine ((if_neg fun h => hcrank.status_ne.2 h.1).trans (if_pos ⟨hcrank, hnta⟩)).trans ?_
  rw [hroute]
  rfl

/-- **What is posted** for a final response. -/
theorem Ending.posts (h : Ending c irq orq bLeg t a sip nta c') (hgrants : GrantsInvite nta a ↔ Granted nta)
    (hcdr : c.records.cdrs.at? a.cdr = some cdr) :
    Records.Posts c.records c'.records ((c.reported a cdr (.inviteResponse orq sip nta)).map
      (c.finalCopy .terminationAttempt sip.status)) := by
  have hposts := posts_finalCopy hcdr (c.finalCopy .terminationAttempt sip.status)
  cases h with
  | answered reply hstatus hreply hcalls hrecords =>
    rw [hrecords, reported_once (fun h => by omega) fun h => h.1.status_ne.1 hstatus]
    exact hposts
  | failed n g hstatus hcrank hredirect hn hg hcalls hrecords =>
    rw [hrecords, reported_once (fun h => hredirect h.1 (hgrants.2 h.2)) fun h => hcrank h.1]
    exact posts_finalCopy (b := c.records.modifyAttempt t g) hcdr _
  | redirected hstatus hnta hcalls hrecords =>
    rw [show c.reported a cdr (.inviteResponse orq sip nta) = [] from if_pos ⟨hstatus, hgrants.1 hnta⟩]
    exact Records.posts_nil (hrecords ▸ rfl)
  | crankedBack route config hcrank hroute hnta hcalls hrecords =>
    rw [hrecords, reported_once (fun h => hcrank.status_ne.2 h.1) fun h => h.2 hnta]
    exact hposts
  | crankbackFailed n route config hcrank hroute hnta hn hcalls hrecords =>
    rw [hrecords, reported_crankbackFailed hcrank hroute hnta, List.map_append]
    refine hposts.trans ?_
    -- The record has changed before it is copied again.
    have hat := Records.at?_postCopy hcdr a.cdr (c.finalCopy .terminationAttempt sip.status)
    refine posts_finalCopy (b := Records.update _ a.cdr (setRoute route)) ?_ _
    refine (CdrHeap.at?_update_self _ _ _).trans ?_
    exact congrArg (Option.map (setRoute route)) hat

/-! ### The accounts after it -/

/-- The INVITEs that are waited for: they were waited for before, and the records say the same, or
    they are new, on the trunk that the record says, and it begins at `tmStart`. -/
def Carries (c c' : Controller) (tmStart : ℕ) (callId : Bytes) : Prop :=
  ∀ orq t, c'.calls.mapTerminationAttempts orq = some t →
    c.calls.mapTerminationAttempts orq = some t ∧ c'.records.seen account t = c.records.seen account t ∨
      c.calls.outgoing orq = none ∧ ∃ a, c'.attempts[t]? = some a ∧
        c'.records.seen account t = some (⟨tmStart, callId, a.carrier, a.sipTrunk⟩, a.carrier, a.sipTrunk)

/-- The INVITE of the attempt is over. -/
theorem carries_of_closed {tmStart : ℕ} {callId : Bytes} (h : c.AttemptInv)
    (ht : c.calls.mapTerminationAttempts orq = some t)
    (hattempts : c'.calls.mapTerminationAttempts = Function.update c.calls.mapTerminationAttempts orq none)
    (hseen : ∀ t' ≠ t, c'.records.seen account t' = c.records.seen account t') :
    c.Carries c' tmStart callId := by
  intro orq' t' ht'
  rw [hattempts, Function.update_apply] at ht'
  split_ifs at ht' with heq
  refine .inl ⟨ht', hseen t' ?_⟩
  rintro rfl
  exact heq (h.inj orq' orq t' ht' ht)

/-- Another INVITE takes its place. -/
theorem carries_of_replaced {tmStart : ℕ} {callId : Bytes} (hs : c.calls.Typed) (h : c.AttemptInv)
    (ht : c.calls.mapTerminationAttempts orq = some t)
    (hattempts : c'.calls.mapTerminationAttempts = Function.update
      (Function.update c.calls.mapTerminationAttempts orq none) ⟨c.calls.next + 1⟩ (some t))
    (hseen : ∀ t' ≠ t, c'.records.seen account t' = c.records.seen account t')
    (hnew : ∃ a, c'.attempts[t]? = some a ∧
      c'.records.seen account t = some (⟨tmStart, callId, a.carrier, a.sipTrunk⟩, a.carrier, a.sipTrunk)) :
    c.Carries c' tmStart callId := by
  intro orq' t' ht'
  rw [hattempts, Function.update_apply] at ht'
  split_ifs at ht' with hnew'
  · obtain rfl := Option.some_inj.1 ht'
    refine .inr ⟨?_, hnew⟩
    rw [hnew', Option.eq_none_iff_forall_not_mem]
    exact fun o ho => Nat.not_succ_lt_self (hs.outgoing_lt _ o ho).1
  · rw [Function.update_apply] at ht'
    split_ifs at ht' with heq
    refine .inl ⟨ht', hseen t' ?_⟩
    rintro rfl
    exact heq (h.inj orq' orq t' ht' ht)

/-- **The accounts** after a final response. -/
theorem Ending.carries (hending : Ending c irq orq bLeg t a sip nta c') (hs : c.calls.Typed) (h : c.AttemptInv)
    (ht : c.attemptOf orq = some (t, a)) (hcdr : c.records.cdrs.at? a.cdr = some cdr)
    (hcarrier : cdr.terminatingCarrier = a.carrier) (haddress : cdr.terminatingCarrierAddress = a.sipTrunk) :
    c.Carries c' cdr.tmStart nta.callId := by
  obtain ⟨ht', ha⟩ := attemptOf_eq_some ht
  -- The records once the failure has been reported.
  generalize hb : c.records.postCopy a.cdr (c.finalCopy .terminationAttempt sip.status) = b
  have hown : b.Own := hb ▸ (Records.keeps_postCopy _ _ _).own h.own
  have ha₁ : b.attempts[t]? = some a := by
    rw [← hb, Records.postCopy_attempts]
    exact ha
  have hcdr₁ : b.cdrs.at? a.cdr = some cdr := hb ▸ Records.at?_postCopy hcdr _ _
  have hseen : ∀ t', b.seen account t' = c.records.seen account t' := fun t' =>
    hb ▸ Records.seen_postCopy h.own _ _
  cases hending with
  | answered reply hstatus hreply hcalls hrecords =>
    refine carries_of_closed h ht' (by rw [hcalls]; rfl) fun t' _ => ?_
    rw [hrecords, hb, hseen]
  | failed n g hstatus hcrank hredirect hn hg hcalls hrecords =>
    refine carries_of_closed h ht' (failed_tables hcalls).2.1 fun t' hne => ?_
    have hg' : ∀ a, (g a).cdr = a.cdr := by
      rcases hg with ⟨rfl, -⟩ | ⟨-, rfl⟩ <;> exact fun _ => rfl
    rw [hrecords, Records.seen_postCopy ((Records.keeps_modifyAttempt t hg').own h.own),
      Records.seen_modifyAttempt_of_ne hne]
  | redirected hstatus hnta hcalls hrecords =>
    obtain ⟨hself, hother⟩ := Records.seen_change account (setDleg nta.callId) (redirectedTo sip) h.own ha
      (fun _ => rfl) hcdr
    refine carries_of_replaced hs h ht' (replaced_tables hs h ht' hcalls).1 (fun t' hne => ?_)
      ⟨redirectedTo sip a, ?_, ?_⟩
    · rw [hrecords, hother t' hne]
    · exact (congrArg (fun b : Records => b.attempts[t]?) hrecords).trans (Records.getElem?_modifyAttempt ha _)
    · rw [hrecords, hself, account, CdrInfo.details]
      simp only [setDleg, redirectedTo, hcarrier, haddress]
  | crankedBack route config hcrank hroute hnta hcalls hrecords =>
    rw [hb, Records.update_update] at hrecords
    obtain ⟨hself, hother⟩ := Records.seen_change account (setDleg nta.callId ∘ setRoute route)
      (crankedTo sip route) hown ha₁ (fun _ => rfl) hcdr₁
    refine carries_of_replaced hs h ht' (replaced_tables hs h ht' hcalls).1 (fun t' hne => ?_)
      ⟨crankedTo sip route a, ?_, ?_⟩
    · rw [hrecords, hother t' hne, hseen]
    · exact (congrArg (fun b : Records => b.attempts[t]?) hrecords).trans (Records.getElem?_modifyAttempt ha₁ _)
    · rw [hrecords, hself]
      rfl
  | crankbackFailed n route config hcrank hroute hnta hn hcalls hrecords =>
    rw [hb] at hrecords
    obtain ⟨-, hother⟩ := Records.seen_change account (setRoute route) (crankedTo sip route) hown ha₁
      (fun _ => rfl) hcdr₁
    refine carries_of_closed h ht' (failed_tables hcalls).2.1 fun t' hne => ?_
    have hg : ∀ a, (crankedTo sip route a).cdr = a.cdr := fun _ => rfl
    have hmodify := (Records.keeps_modifyAttempt t hg).own hown
    rw [hrecords, Records.seen_postCopy (hmodify.update _ _), hother t' hne, hseen]

/-- A CANCEL of a termination call. -/
theorem cancel_ends (hs : c.calls.Typed) (h : c.AttemptInv) (tmStart : ℕ) (callId : Bytes)
    (hcrash : ¬(c.processCancel irq).Crashed) (hnull : c.calls.getAssociatedOutgoing irq ≠ .null)
    (hleg : c.calls.legFromIncoming irq ≠ .null)
    (ht : c.attemptOf (c.calls.getAssociatedOutgoing irq) = some (t, a)) :
    (c.processCancel irq).records = c.records.postCopy a.cdr (c.finalCopy .terminationAttempt 487) ∧
      c.Carries (c.processCancel irq) tmStart callId := by
  obtain ⟨ht', -⟩ := attemptOf_eq_some ht
  have hpair := mem_of_getAssociatedOutgoing hnull
  have hrecords : (c.processCancel irq).records =
      c.records.postCopy a.cdr (c.finalCopy .terminationAttempt 487) := by
    rw [processCancel_eq hnull hleg]
    exact reportCancel_of_attempt (c := c.withCalls (c.calls.record (.cancelled irq)))
      (h.no_dialog hs hpair hleg (ht' ▸ Option.some_ne_none t)) ht
  refine ⟨hrecords, ?_⟩
  rcases processCancel_cases hcrash with ⟨hidle, -, -⟩ | ⟨-, -, heq, -⟩
  · exact absurd hidle (not_or.2 ⟨hnull, hleg⟩)
  · exact carries_of_closed h ht' (cancelled_tables heq).2.1 fun t' _ => hrecords ▸ Records.seen_postCopy h.own _ _

/-- **An INVITE gets its final response**: what is posted, and which INVITEs are waited for. -/
theorem ends_next {e : ControllerEvent} {status : ℤ} (hs : c.calls.Typed) (h : c.AttemptInv)
    (he : machine.enabled c e) (hends : c.Ends orq t a status e) (hcdr : c.records.cdrs.at? a.cdr = some cdr)
    (hcarrier : cdr.terminatingCarrier = a.carrier) (haddress : cdr.terminatingCarrierAddress = a.sipTrunk)
    (tmStart : ℕ) (hstart : ∀ sip nta, e = .inviteResponse orq sip nta → tmStart = cdr.tmStart) :
    Records.Posts c.records (c.next e).records ((c.reported a cdr e).map (c.finalCopy .terminationAttempt status)) ∧
      c.Carries (c.next e) tmStart e.callId := by
  cases e with
  | inviteResponse orq' sip nta =>
    obtain ⟨rfl, rfl, hfinal, hreached, ht⟩ := hends
    have hending := processInviteResponse_ending hs.next_pos ht hfinal (c.calls.getAssociatedIncoming orq')
      (c.calls.legFromIncoming (c.calls.getAssociatedIncoming orq')) (c.calls.legFromOutgoing orq') nta
    rw [← inviteResponse_of_reached hreached] at hending
    obtain rfl := hstart sip nta rfl
    have hgrants := h.charged.grantsInvite_iff ht nta
    exact ⟨hending.posts hgrants hcdr, hending.carries hs h ht hcdr hcarrier haddress⟩
  | ackOrCancel irq method =>
    obtain ⟨rfl, rfl, hnull, hleg, rfl, ht⟩ := hends
    obtain ⟨hrecords, hcarries⟩ := cancel_ends hs h tmStart [] he.2 hnull hleg ht
    exact ⟨hrecords ▸ posts_finalCopy hcdr _, hcarries⟩
  | _ => exact hends.elim

/-! ### The accounts after other events -/

theorem carries_of_spares {tmStart : ℕ} {callId : Bytes} (h : c.AttemptInv)
    (hattempts : ∀ orq t, c'.calls.mapTerminationAttempts orq = some t → c.calls.mapTerminationAttempts orq = some t)
    (hspares : Records.Spares c.records c'.records) : c.Carries c' tmStart callId := fun orq t ht =>
  .inl ⟨hattempts orq t ht, hspares.seen h.own t (h.lt orq t (hattempts orq t ht))⟩

/-- No INVITE comes in but for a new request or a final response. -/
theorem attempts_of_turn {e : ControllerEvent} (hturn : Turn c c' e)
    (hrequest : ∀ sip uuid nta, e ≠ .requestOutsideDialog sip uuid nta)
    (hends : ∀ orq t a status, ¬c.Ends orq t a status e) (orq : Orq) (t : ℕ)
    (ht : c'.calls.mapTerminationAttempts orq = some t) : c.calls.mapTerminationAttempts orq = some t := by
  have hgone : ∀ gone, c'.calls.mapTerminationAttempts = Function.update c.calls.mapTerminationAttempts gone none →
      c.calls.mapTerminationAttempts orq = some t := by
    intro gone hattempts
    rw [hattempts, Function.update_apply] at ht
    split_ifs at ht
    exact ht
  cases hturn with
  | idle hidle hbecomes => exact hbecomes.attempts ▸ ht
  | opened orqNew t' hinvite ht' horq hbecomes => exact absurd rfl (hrequest _ _ _)
  | forwarded orqNew hmethod horq hbecomes => exact hbecomes.attempts ▸ ht
  | answered hreached hfinal hretries hbecomes => exact hgone _ hbecomes.attempts
  | replaced orqNew t' hreached hfinal hretries ht' horq hbecomes =>
    obtain ⟨t₁, a, ht₁, ha, -⟩ := hretries
    refine absurd ⟨rfl, rfl, hfinal, hreached, ?_⟩ (hends _ t₁ a _)
    rw [attemptOf, ht₁, Option.bind_some, ha]
    rfl
  | settled hirq hfinal hbecomes => exact hgone _ hbecomes.attempts
  | cancelled hnull hleg hbecomes => exact hgone _ hbecomes.attempts

/-- The new attempt and its record, if there is one. -/
theorem details_of_newAttempt {now : ℕ} {b : Records}
    (hnew : Records.NewAttempt now b ((b.draft cdr).addAttempt a)) :
    cdr.tmStart = now ∧ cdr.terminatingCarrier = a.carrier ∧ cdr.terminatingCarrierAddress = a.sipTrunk := by
  rcases hnew with hsame | ⟨cdr', a', -, heq, hdetails⟩
  · exact absurd hsame (by simp [Records.addAttempt, Records.draft])
  · obtain rfl : cdr = cdr' := List.append_singleton_inj.1 (congrArg Records.cdrs heq) |>.2
    obtain rfl : a = a' := List.append_singleton_inj.1 (congrArg Records.attempts heq) |>.2
    exact hdetails

theorem requestOutsideDialog_carries (hs : c.calls.Typed) (h : c.AttemptInv) (sip : Request) (uuid : Bytes)
    (nta : Creations) : c.Carries (c.requestOutsideDialog sip uuid nta) c.now nta.callId := by
  have hspares := c.requestOutsideDialog_spares sip uuid nta
  rcases c.requestOutsideDialog_cases sip uuid nta with ⟨⟨i, status, n, -, -, -, heq⟩, -⟩ | hopened
  · exact carries_of_spares h (fun orq t ht => by rwa [heq] at ht) hspares
  · cases hopened with
    | origination request info cdr hinfo hcalls hcdr hrecords =>
      exact carries_of_spares h (fun orq t ht => by rwa [hcalls] at ht) hspares
    | termination aLeg n request info cdr a hn haLeg hinfo hcalls ha hcdr hrecords =>
      have hnew := c.requestOutsideDialog_newAttempt sip uuid nta
      rw [hrecords] at hnew hspares
      obtain ⟨hstart, hcarrier, haddress⟩ := details_of_newAttempt hnew
      have hfresh : c.calls.next ≤ n + 1 := (hn.trans (Nat.lt_succ_self n)).le
      have hnone : c.calls.mapTerminationAttempts ⟨n + 1⟩ = none := by
        by_contra hne
        exact absurd (hs.attempt_lt _ hne) (not_lt.2 hfresh)
      have hattempts : (c.requestOutsideDialog sip uuid nta).calls.mapTerminationAttempts =
          Function.update c.calls.mapTerminationAttempts ⟨n + 1⟩ (some c.records.attempts.length) := by
        rw [hcalls]
        exact Calls.insertNew_of_none hnone _
      intro orq t ht
      rw [hattempts, Function.update_apply] at ht
      rw [hrecords]
      split_ifs at ht with hnew'
      · obtain rfl := Option.some_inj.1 ht
        refine .inr ⟨?_, a, ?_, ?_⟩
        · rw [hnew', Option.eq_none_iff_forall_not_mem]
          exact fun o ho => absurd (hs.outgoing_lt _ o ho).1 (not_lt.2 hfresh)
        · refine (congrArg (fun b : Records => b.attempts[c.records.attempts.length]?) hrecords).trans ?_
          exact List.getElem?_concat_length
        · rw [Records.seen_addAttempt_self cdr ha.1, account, CdrInfo.details, hstart, hcdr, hcarrier, haddress]
      · exact .inl ⟨ht, hspares.seen h.own t (h.lt orq t ht)⟩

/-- **The INVITEs that are waited for** after an event that is not a final response. -/
theorem carries_next {e : ControllerEvent} (hs : c.calls.Typed) (h : c.AttemptInv) (he : machine.enabled c e)
    (hends : ∀ orq t a status, ¬c.Ends orq t a status e) {tmStart : ℕ}
    (hstart : ∀ sip uuid nta, e = .requestOutsideDialog sip uuid nta → tmStart = c.now) :
    c.Carries (c.next e) tmStart e.callId := by
  by_cases hwrite : ∃ connected, e = .writeCdr connected
  · obtain ⟨connected, rfl⟩ := hwrite
    exact fun orq t ht => .inl ⟨ht, rfl⟩
  by_cases hrequest : ∃ sip uuid nta, e = .requestOutsideDialog sip uuid nta
  · obtain ⟨sip, uuid, nta, rfl⟩ := hrequest
    obtain rfl := hstart sip uuid nta rfl
    exact requestOutsideDialog_carries hs h sip uuid nta
  · refine carries_of_spares h (attempts_of_turn (turn_next hs h he) (fun sip uuid nta heq => ?_) hends)
      (spares_next he (fun connected heq => hwrite ⟨connected, heq⟩) hends)
    exact hrequest ⟨sip, uuid, nta, heq⟩

end

end

end Controller

end Ssp
