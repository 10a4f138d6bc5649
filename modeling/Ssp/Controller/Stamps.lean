import Ssp.Controller.Standing

/-!
# What the records say when they are posted

The record of a call is filled in bit by bit, and posted several times. Whatever is posted has the
time at which it is, in the field for what it tells of, and a cause that goes with it (`Stamped`).
`stamps_next`: this holds of all that any event posts. Whether the first record of a call has a
status tells if the call was refused (`requestOutsideDialog_posts`).
-/

namespace Ssp

/-- The cause of a call that was not let in. -/
def ReleaseCause.Refuses (cause : ReleaseCause) : Prop :=
  cause = .callRejectedDueToSystemError ∨ cause = .callRejectedDueToUnauthorizedPeer ∨
    cause = .callRejectedDueToBeingOffline

namespace CdrInfo

/-- The first record of a call that is sent on. -/
structure Offers (now : ℕ) (r : CdrInfo) : Prop where
  type : r.cdrType = .originationRequest
  tmStart : r.tmStart = now
  tmEnd : r.tmEnd = 0
  sipStatus : r.sipStatus = 0
  releaseCause : r.releaseCause = .unknownReleaseCause

/-- The only record of a call that is refused. -/
structure Refuses (now : ℕ) (r : CdrInfo) : Prop where
  type : r.cdrType = .originationRequest
  tmStart : r.tmStart = now
  tmEnd : r.tmEnd = 0
  sipStatus : r.sipStatus ≠ 0
  releaseCause : r.releaseCause.Refuses

/-- What a record says that is posted at the time `now`. -/
def Stamped (now : ℕ) (r : CdrInfo) : Prop :=
  match r.cdrType with
  | .originationRequest => r.Offers now ∨ r.Refuses now
  | .originationFinalResponse => if r.sipStatus = 200 then r.tmConnect = now else r.tmEnd = now
  | .originationCancel => r.tmEnd = now
  | .callCleared =>
    r.tmEnd = now ∧ (r.releaseCause = .callingPartyRelease ∨ r.releaseCause = .calledPartyRelease)
  | .terminationAttempt => True

theorem Offers.stamped {now : ℕ} {r : CdrInfo} (h : r.Offers now) : r.Stamped now := by
  unfold Stamped
  rw [h.type]
  exact .inl h

theorem Refuses.stamped {now : ℕ} {r : CdrInfo} (h : r.Refuses now) : r.Stamped now := by
  unfold Stamped
  rw [h.type]
  exact .inr h

end CdrInfo

namespace Controller

/-- The time, what the writer has written, and what was posted and not taken yet. -/
@[ext]
structure Desk where
  now : ℕ
  written : Option (List Written)
  posted : Option (List CdrInfo)

def desk (c : Controller) : Desk := ⟨c.now, c.cdrWriter.map (·.written), c.records.posted⟩

/-- Some records are posted. -/
def Desk.post (d : Desk) (new : List CdrInfo) : Desk := { d with posted := d.posted.map (· ++ new) }

/-- What is posted between `c` and `c'` is stamped with the time. -/
def Stamps (c c' : Controller) : Prop := ∃ new, c'.desk = c.desk.post new ∧ ∀ r ∈ new, r.Stamped c.now

section

variable {c c' c'' : Controller}

theorem Desk.post_nil (d : Desk) : d.post [] = d :=
  Desk.ext rfl rfl (by simp [Desk.post])

theorem Desk.post_post (d : Desk) (new new' : List CdrInfo) : (d.post new).post new' = d.post (new ++ new') := by
  refine Desk.ext rfl rfl ?_
  change (d.posted.map _).map _ = d.posted.map _
  rw [Option.map_map]
  exact congrArg (Option.map · d.posted) (funext fun l => List.append_assoc l new new')

theorem Stamps.of_desk (h : c'.desk = c.desk) : Stamps c c' :=
  ⟨[], h.trans c.desk.post_nil.symm, fun _ hr => absurd hr List.not_mem_nil⟩

theorem Stamps.trans (h : Stamps c c') (h' : Stamps c' c'') : Stamps c c'' := by
  obtain ⟨new, heq, hnew⟩ := h
  obtain ⟨new', heq', hnew'⟩ := h'
  have hnow : c'.now = c.now := congrArg Desk.now heq
  refine ⟨new ++ new', by rw [heq', heq, Desk.post_post], fun r hr => ?_⟩
  rcases List.mem_append.1 hr with hr | hr
  · exact hnew r hr
  · rw [← hnow]
    exact hnew' r hr

/-- The same, where only the desk of the first controller matters. -/
theorem Stamps.of_eq (h : Stamps c' c'') (hdesk : c'.desk = c.desk) : Stamps c c'' :=
  (Stamps.of_desk hdesk).trans h

end

/-! ## The operations of the state -/

section

variable (c : Controller) (s : Calls) (a : Absent) (p t : ℕ) (f : CdrInfo → CdrInfo)

@[simp]
theorem desk_withCalls : (c.withCalls s).desk = c.desk := rfl

@[simp]
theorem desk_missing : (c.missing a).desk = c.desk := rfl

@[simp]
theorem desk_require (there : Bool) : (c.require a there).desk = c.desk := by
  unfold require
  split_ifs <;> rfl

@[simp]
theorem desk_check (x : Assertion) (holds : Bool) : (c.check x holds).desk = c.desk := by
  unfold check
  split_ifs <;> rfl

@[simp]
theorem desk_setCdr : (c.setCdr p f).desk = c.desk := rfl

@[simp]
theorem desk_crankback (url carrier sipTrunk header : Bytes) :
    (c.crankback t url carrier sipTrunk header).desk = c.desk := by
  unfold crankback
  split <;> rfl

@[simp]
theorem desk_reportFailure (x : Option (ℕ × TerminationAttempt)) (status : ℤ) :
    (c.reportFailure x status).desk = c.desk := by
  obtain ⟨_, _, h⟩ := reportFailure_frame c x status
  rw [h]
  rfl

theorem written_postCdr : (c.postCdr p).cdrWriter.map (·.written) = c.cdrWriter.map (·.written) := by
  change (c.cdrWriter.map _).map _ = _
  rw [Option.map_map]
  exact congrArg (Option.map · c.cdrWriter) (funext fun w => postCdr_written w c.cdrs)

/-- The record at an address is changed and posted at once. -/
theorem stamps_post (hf : ∀ cdr, (f cdr).Stamped c.now) : Stamps c ((c.setCdr p f).postCdr p) := by
  refine ⟨((c.records.cdrs.at? p).map f).toList, Desk.ext rfl ((c.setCdr p f).written_postCdr p) ?_, fun r hr => ?_⟩
  · change ((c.setCdr p f).postCdr p).records.posted = _
    rw [records_postCdr, records_setCdr]
    exact Records.posts_update c.records p f
  · obtain ⟨cdr, -, rfl⟩ := Option.map_eq_some_iff.1 (Option.mem_toList.1 hr)
    exact hf cdr

/-- A report about a final response. -/
theorem stamps_postFinalResponse {cdrType : CdrEvent} (status : ℤ)
    (htype : cdrType = .originationFinalResponse ∨ cdrType = .terminationAttempt) :
    Stamps c (c.postFinalResponse p cdrType status) := by
  have hwritten : (c.postFinalResponse p cdrType status).now = c.now ∧
      (c.postFinalResponse p cdrType status).cdrWriter.map (·.written) = c.cdrWriter.map (·.written) := by
    unfold postFinalResponse
    split
    · exact ⟨rfl, rfl⟩
    · exact ⟨rfl, written_postCdr _ _⟩
  refine ⟨((c.records.cdrs.at? p).map (c.finalCopy cdrType status)).toList, Desk.ext hwritten.1 hwritten.2 ?_,
    fun r hr => ?_⟩
  · change (c.postFinalResponse p cdrType status).records.posted = _
    rw [records_postFinalResponse]
    exact Records.posts_copy c.records p _
  · obtain ⟨cdr, -, rfl⟩ := Option.map_eq_some_iff.1 (Option.mem_toList.1 hr)
    rcases htype with rfl | rfl
    · change ite _ _ _
      unfold finalCopy populateFinalResponseCdr
      dsimp only
      by_cases hok : UInt32.ofInt status = 200
      · rw [if_pos hok]
        exact (if_pos hok).symm ▸ rfl
      · rw [if_neg hok]
        exact (if_neg hok).symm ▸ rfl
    · trivial

end

/-! ## Requests outside of a dialog -/

/-- What a request outside of a dialog leaves on the desk: nothing, or the first record of a call,
    which says whether the call is refused. -/
inductive Filing (c : Controller) (r : Controller × ℤ) : Prop
  | silent (h : r.1.desk = c.desk)
  | refused (cdr : CdrInfo) (hcdr : cdr.Refuses c.now) (hstatus : 200 ≤ r.2)
      (h : r.1.desk = c.desk.post [cdr])
  | sent (cdr : CdrInfo) (hcdr : cdr.Offers c.now) (hlog : r.1.calls.log ≠ c.calls.log)
      (h : r.1.desk = c.desk.post [cdr])

section

variable {c c' : Controller} (irq : Irq) (sip : Request) (nta : Creations)

/-- The new record of a call. -/
theorem originationCdr_offers (c : Controller) (sip : Request) (carrier uuid : Bytes) :
    ∃ cdr, CdrInfo.Offers c.now cdr ∧ (c.originationCdr sip carrier uuid).1 = c.records.cdrs.length ∧
      (c.originationCdr sip carrier uuid).2.records = c.records.draft cdr :=
  ⟨c.populateOriginationCdr sip carrier uuid { cdrType := .originationRequest }, ⟨rfl, rfl, rfl, rfl, rfl⟩, rfl,
    c.records.update_draft _ _⟩

/-- A call is refused, with a record about it. -/
theorem reject_filing {cdr : CdrInfo} (hcdr : cdr.Offers c.now) (hdesk : c'.desk = c.desk)
    (hc' : c'.records = c.records.draft cdr) {status : ℤ} (hstatus : status = 403 ∨ status = 486 ∨ status = 503)
    {cause : ReleaseCause} (hcause : cause.Refuses) :
    Filing c (c'.reject c.records.cdrs.length status cause) := by
  have hnow : c'.now = c.now := congrArg Desk.now hdesk
  have hwritten : c'.cdrWriter.map (·.written) = c.cdrWriter.map (·.written) := congrArg Desk.written hdesk
  refine .refused { cdr with sipStatus := UInt32.ofInt status, releaseCause := cause }
    ⟨hcdr.type, hcdr.tmStart, hcdr.tmEnd, ?_, hcause⟩ ?_
    (Desk.ext hnow ((written_postCdr _ _).trans hwritten) ?_)
  · change UInt32.ofInt status ≠ 0
    rcases hstatus with rfl | rfl | rfl <;> decide
  · change 200 ≤ status
    omega
  · change ((c'.setCdr _ _).postCdr _).records.posted = _
    rw [records_postCdr, records_setCdr, hc', Records.update_draft, Records.post_draft]
    rfl

theorem originate_filing {s : Calls} {cdr : CdrInfo} (hs : c'.calls = s.receive .null) (hlog : c.calls.log = s.log)
    (hcdr : cdr.Offers c.now) (hdesk : c'.desk = c.desk) (hc' : c'.records = c.records.draft cdr)
    (carrier uuid : Bytes) (server : FsInstance) :
    Filing c (c'.originate ⟨s.next⟩ sip carrier uuid c.records.cdrs.length server nta) := by
  have hnow : c'.now = c.now := congrArg Desk.now hdesk
  have hwritten : c'.cdrWriter.map (·.written) = c.cdrWriter.map (·.written) := congrArg Desk.written hdesk
  have hdesk' : ∀ u, (c'.withCalls u).desk = c.desk := fun _ => hdesk
  have hrecords : ∀ u, (c'.withCalls u).records = c.records.draft cdr := fun _ => hc'
  unfold originate
  rw [hs]
  rcases createOrigination_spec s nta (c'.originationInvite sip carrier uuid server) with
    ⟨n, i, hn, heq⟩ | heq
  · rw [heq]
    exact reject_filing hcdr (hdesk' _) (hrecords _) (.inr (.inr rfl)) (.inl rfl)
  · rw [heq]
    refine .sent { cdr with blegCallId := nta.callId, fsAddress := server.strSipAddress }
      ⟨hcdr.type, hcdr.tmStart, hcdr.tmEnd, hcdr.sipStatus, hcdr.releaseCause⟩ ?_
      (Desk.ext hnow ((written_postCdr _ _).trans hwritten) ?_)
    · rw [hlog]
      exact List.cons_ne_self _ _
    · change (Controller.postCdr _ _).records.posted = _
      rw [records_postCdr, records_withCalls, records_setCdr, records_withCalls, hc', Records.update_draft,
        Records.post_draft]
      rfl

theorem Filing.of_eq {r : Controller × ℤ} (h : Filing c' r) (hdesk : c'.desk = c.desk)
    (hlog : c'.calls.log = c.calls.log) : Filing c r := by
  have hnow : c'.now = c.now := congrArg Desk.now hdesk
  cases h with
  | silent h => exact .silent (h.trans hdesk)
  | refused cdr hcdr hstatus h => exact .refused cdr (hnow ▸ hcdr) hstatus (by rw [h, hdesk])
  | sent cdr hcdr hlog' h => exact .sent cdr (hnow ▸ hcdr) (hlog ▸ hlog') (by rw [h, hdesk])

theorem Filing.countDown {r : Controller × ℤ} (h : Filing c r) : Filing c (countDown r) := by
  have hdesk : (Controller.countDown r).1.desk = r.1.desk := by
    unfold Controller.countDown
    split_ifs <;> rfl
  cases h with
  | silent h => exact .silent (hdesk.trans h)
  | refused cdr hcdr hstatus h => exact .refused cdr hcdr hstatus (hdesk.trans h)
  | sent cdr hcdr hlog h => exact .sent cdr hcdr (by rwa [countDown_calls]) (hdesk.trans h)

/-- A call is not let in. -/
theorem originationCdr_filing (c : Controller) (carrier uuid : Bytes) {status : ℤ}
    (hstatus : status = 403 ∨ status = 486 ∨ status = 503) {cause : ReleaseCause} (hcause : cause.Refuses) :
    Filing c ((c.originationCdr sip carrier uuid).2.reject (c.originationCdr sip carrier uuid).1 status cause) := by
  obtain ⟨cdr, hcdr, hp, hrecords⟩ := c.originationCdr_offers sip carrier uuid
  rw [hp]
  exact reject_filing hcdr (show (c.originationCdr sip carrier uuid).2.desk = c.desk from rfl) hrecords hstatus hcause

theorem processOriginationRequest_filing {s : Calls} (hs : c.calls = s.receive .null) (carrier uuid : Bytes) :
    Filing c (c.processOriginationRequest ⟨s.next⟩ sip carrier uuid nta) := by
  obtain ⟨cdr, hcdr, hp, hrecords⟩ := c.originationCdr_offers sip carrier uuid
  unfold processOriginationRequest
  have hcalls := selectServer_calls (c.originationCdr sip carrier uuid).2
  rw [originationCdr_calls, hs] at hcalls
  have hlog : c.calls.log = s.log := by
    rw [hs]
    rfl
  have hsel : (c.originationCdr sip carrier uuid).2.selectServer.1.records = c.records.draft cdr := hrecords
  have hdesk : (c.originationCdr sip carrier uuid).2.selectServer.1.desk = c.desk := rfl
  rcases h : (c.originationCdr sip carrier uuid).2.selectServer with ⟨c', _ | server⟩ <;>
    rw [h] at hcalls hsel hdesk <;> simp only [h, hp]
  · exact reject_filing hcdr hdesk hsel (.inr (.inl rfl)) (.inl rfl)
  · exact originate_filing sip nta hcalls hlog hcdr hdesk hsel carrier uuid server

/-- The attempt of a termination call, and another INVITE for it, post nothing. -/
theorem desk_generateTerminationRequest (c : Controller) (t : ℕ) :
    (c.generateTerminationRequest t irq nta).1.desk = c.desk := by
  unfold generateTerminationRequest
  split
  · rfl
  · split <;> rfl

theorem desk_processTerminationRequest (c : Controller) :
    (c.processTerminationRequest irq sip nta).1.desk = c.desk := by
  have hon : ∀ (c : Controller) (aLeg : Leg) (t : ℕ), (c.terminateOn irq aLeg sip t nta).1.desk = c.desk := by
    intro c aLeg t
    have h := desk_generateTerminationRequest irq nta c t
    unfold terminateOn
    split
    next c' hgen =>
      rw [hgen] at h
      exact h
    next c' orq bLeg hgen =>
      rw [hgen] at h
      rw [desk_withCalls, desk_require]
      exact h
  unfold processTerminationRequest
  split
  · rfl
  · exact hon _ _ _

theorem processInvite_filing {s : Calls} (hs : c.calls = s.receive .null) (uuid : Bytes) :
    Filing c (c.processInvite ⟨s.next⟩ sip uuid nta) := by
  have hs' := require_calls c .requestContactHost sip.contactHost?.isSome
  have hdesk := desk_require c .requestContactHost sip.contactHost?.isSome
  unfold processInvite
  dsimp only
  generalize c.require .requestContactHost sip.contactHost?.isSome = c' at *
  have hlog := congrArg Calls.log hs'
  rw [hs] at hs'
  rcases determineCallType _ _ with ⟨_ | _ | _, carrier⟩
  · dsimp only
    split_ifs
    · exact (originationCdr_filing sip c' carrier uuid (.inr (.inr rfl)) (.inr (.inr rfl))).of_eq hdesk hlog
    · exact ((processOriginationRequest_filing sip nta hs' carrier uuid).of_eq hdesk hlog).countDown
  · exact (Filing.silent ((desk_processTerminationRequest _ sip nta c').trans hdesk)).countDown
  · exact (originationCdr_filing sip c' carrier uuid (.inl rfl) (.inr (.inl rfl))).of_eq hdesk hlog

theorem processRequestOutsideDialog_filing {s : Calls} (hs : c.calls = s.receive .null) (uuid : Bytes) :
    Filing c (c.processRequestOutsideDialog ⟨s.next⟩ sip uuid nta) := by
  unfold processRequestOutsideDialog
  split
  · exact .silent rfl
  · split
    · split
      · exact .silent rfl
      · dsimp only
        split <;> exact .silent (desk_require _ _ _)
    · exact .silent rfl
    · exact processInvite_filing sip nta hs uuid
    · exact .silent rfl
    · exact .silent rfl
    · exact .silent rfl

/-- A request outside of a dialog. -/
theorem stamps_requestOutsideDialog (c : Controller) (uuid : Bytes) :
    Stamps c (c.requestOutsideDialog sip uuid nta) := by
  have hfiling := processRequestOutsideDialog_filing sip nta
    (show (c.withCalls (c.calls.receive .null)).calls = c.calls.receive .null from rfl) uuid
  change Stamps c ((c.withCalls (c.calls.receive .null)).processRequestOutsideDialog ⟨c.calls.next⟩ sip uuid nta).1
  cases hfiling with
  | silent h => exact .of_desk h
  | refused cdr hcdr _ h => exact ⟨[cdr], h, fun r hr => List.mem_singleton.1 hr ▸ hcdr.stamped⟩
  | sent cdr hcdr _ h => exact ⟨[cdr], h, fun r hr => List.mem_singleton.1 hr ▸ hcdr.stamped⟩

/-- A call that is sent on is in the tables, with a record that it offers; a call that is refused has
    left nothing but its record. -/
theorem requestOutsideDialog_posts {uuid : Bytes} {r : CdrInfo} (hwriter : c.records.posted ≠ none)
    (hposts : Records.Posts c.records (c.requestOutsideDialog sip uuid nta).records [r]) :
    r.Refuses c.now ∧ RefusedCalls c.calls (c.requestOutsideDialog sip uuid nta).calls ∨
      r.Offers c.now ∧ Opening c.calls c.records uuid nta.callId (c.requestOutsideDialog sip uuid nta) := by
  have hfiling := processRequestOutsideDialog_filing sip nta
    (show (c.withCalls (c.calls.receive .null)).calls = c.calls.receive .null from rfl) uuid
  have hreception := processRequestOutsideDialog_reception
    (show (c.withCalls (c.calls.receive .null)).calls = c.calls.receive .null from rfl)
    (show (c.withCalls (c.calls.receive .null)).records = c.records from rfl) sip uuid nta
  obtain ⟨queued, hqueued⟩ := Option.ne_none_iff_exists'.1 hwriter
  unfold requestOutsideDialog at hposts ⊢
  dsimp only at hposts ⊢
  generalize processRequestOutsideDialog _ _ _ _ _ = r' at *
  obtain ⟨c', status⟩ := r'
  -- There is but one record on the desk.
  have hsole : ∀ {cdr : CdrInfo}, c'.desk = c.desk.post [cdr] → cdr = r := by
    intro cdr hdesk
    have heq : c.records.posted.map (· ++ [cdr]) = c.records.posted.map (· ++ [r]) :=
      (congrArg Desk.posted hdesk).symm.trans hposts
    rw [hqueued, Option.map_some, Option.map_some, Option.some_inj] at heq
    exact List.singleton_inj.1 (List.append_cancel_left heq)
  cases hfiling with
  | silent hdesk =>
    have heq : c.records.posted = c.records.posted.map (· ++ [r]) := (congrArg Desk.posted hdesk).symm.trans hposts
    rw [hqueued, Option.map_some, Option.some_inj] at heq
    exact absurd heq (by simp)
  | refused cdr hcdr hstatus hdesk =>
    obtain rfl := hsole hdesk
    cases hreception with
    | refused n i hn hcalls hstatus' hrecords =>
      obtain ⟨i', status', hi', hstatus', heq⟩ := legRecv_eq_refuse hstatus' sip.method
      refine .inl ⟨hcdr, i', status', n, hn, hi', hstatus', ?_⟩
      change c'.calls = _ at hcalls
      rw [withCalls_calls, hcalls]
      exact heq
    | opened h hzero =>
      change status = 0 at hzero
      change 200 ≤ status at hstatus
      omega
  | sent cdr hcdr hlog hdesk =>
    obtain rfl := hsole hdesk
    cases hreception with
    | refused n i hn hcalls hstatus hrecords => exact absurd (congrArg Calls.log hcalls) hlog
    | opened h hzero =>
      obtain ⟨i, hi, hdestroyed⟩ := h.incoming
      obtain rfl : status = 0 := hzero
      have hcalls : c'.calls.legRecv ⟨c.calls.next⟩ sip.method 0 = c'.calls := by
        have hi' : c'.calls.incoming ⟨c.calls.next⟩ = some i := hi
        simp [Calls.legRecv, Calls.legRecvStatus, hi', hdestroyed]
      rw [hcalls]
      exact .inr ⟨hcdr, h⟩

end

/-! ## Responses -/

section

variable (c : Controller) (irq : Irq) (orq : Orq) (aLeg bLeg leg other : Leg) (t : ℕ) (sip : Response)
  (nta : Creations)

theorem desk_retry : (c.retry t irq orq bLeg nta).controller.desk = c.desk := by
  have h := desk_generateTerminationRequest irq nta c t
  unfold retry
  split
  next c' hgen =>
    rw [hgen] at h
    exact h
  next c' orqNew bLegNew hgen =>
    rw [hgen] at h
    exact h

theorem desk_processRedirect : (c.processRedirect t irq orq bLeg sip nta).controller.desk = c.desk := by
  unfold processRedirect
  dsimp only
  rw [desk_retry]
  exact desk_require _ _ _

theorem stamps_processCrankback (a : TerminationAttempt) :
    Stamps c (c.processCrankback t a irq orq bLeg sip nta).controller := by
  unfold processCrankback
  split_ifs
  · split
    next => exact .of_desk rfl
    next route config hroute =>
      have hreport := stamps_postFinalResponse { c with config := config } a.cdr sip.status (.inr rfl)
      refine (hreport.of_eq (c := c) rfl).trans (.of_desk ?_)
      rw [desk_retry, desk_crankback]
  · exact .of_desk rfl

theorem desk_processAnswer (pDialog : Option SipDialogInfo) :
    (c.processAnswer aLeg bLeg pDialog sip nta).controller.desk = c.desk := by
  unfold processAnswer
  dsimp only
  split
  · exact desk_require _ _ _
  · unfold startSessionTimer
    split_ifs
    · exact (desk_require _ _ _).trans (desk_require c _ _)
    · exact (desk_require _ _ _).trans (desk_require c _ _)

theorem stamps_processFinalResponse (x : Option (ℕ × TerminationAttempt)) (pDialog : Option SipDialogInfo) :
    Stamps c (c.processFinalResponse irq orq aLeg bLeg x pDialog sip nta).controller := by
  unfold processFinalResponse
  by_cases hanswer : sip.status = 200
  · rw [if_pos hanswer]
    exact .of_desk (c.desk_processAnswer aLeg bLeg sip nta pDialog)
  · rw [if_neg hanswer]
    cases x with
    | none => exact .of_desk rfl
    | some a =>
      dsimp only
      split_ifs
      · exact .of_desk (c.desk_processRedirect irq orq bLeg a.1 sip nta)
      · exact c.stamps_processCrankback irq orq bLeg a.1 sip nta a.2
      · exact .of_desk rfl

theorem stamps_reportFinalResponse (pCdr : Option ℕ) (bT bP : Bool) (status : ℤ) :
    Stamps c (c.reportFinalResponse pCdr bT bP status) := by
  unfold reportFinalResponse
  split
  · exact .of_desk rfl
  · split_ifs
    · exact c.stamps_postFinalResponse _ status (.inl rfl)
    · exact c.stamps_postFinalResponse _ status (.inr rfl)
    · exact .of_desk rfl

theorem stamps_conclude (d : Decision) (x : Option ℕ) (pCdr : Option ℕ) :
    Stamps d.controller (d.conclude irq orq bLeg x pCdr sip) := by
  unfold Decision.conclude
  dsimp only
  refine (stamps_reportFinalResponse _ _ _ _ _).of_eq ?_
  split_ifs <;> rfl

theorem stamps_inviteResponse : Stamps c (c.processInviteResponseInsideDialog orq sip nta) := by
  by_cases hreached : c.Reached orq
  · rw [inviteResponse_of_reached hreached]
    unfold processInviteResponse
    refine .trans ?_ (stamps_conclude _ _ _ _ _ _ _)
    by_cases htrying : sip.status = 100
    · rw [if_pos htrying]
      exact .of_desk (desk_check _ _ _)
    · rw [if_neg htrying]
      by_cases hfinal : 200 ≤ sip.status
      · rw [if_pos hfinal]
        refine (stamps_processFinalResponse _ _ _ _ _ _ _ _ _).of_eq ?_
        rw [desk_reportFailure, desk_check]
      · rw [if_neg hfinal]
        exact .of_desk (desk_check _ _ _)
  · obtain ⟨a, heq⟩ := inviteResponse_of_not_reached hreached sip nta
    rw [heq]
    exact .of_desk rfl

/-! ## The other callbacks -/

theorem stamps_reportCancel : Stamps c (c.reportCancel orq leg) := by
  unfold reportCancel
  split
  · split
    · exact c.stamps_post _ _ fun _ => rfl
    · exact .of_desk rfl
  · split
    · exact c.stamps_postFinalResponse _ 487 (.inr rfl)
    · exact .of_desk rfl

theorem stamps_ackOrCancel (method : Method) : Stamps c (c.processAckOrCancel irq method) := by
  unfold processAckOrCancel processCancel
  dsimp only
  split_ifs
  · exact .of_desk rfl
  · exact .of_desk rfl
  · exact .of_desk rfl
  · exact (stamps_reportCancel _ _ _).of_eq rfl
  · exact .of_desk rfl

theorem stamps_reportBye : Stamps c (c.reportBye leg other) := by
  unfold reportBye
  split
  · exact .of_desk rfl
  · split
    · exact .of_desk rfl
    · refine c.stamps_post _ _ fun cdr => ⟨rfl, ?_⟩
      change ite _ _ _ = _ ∨ ite _ _ _ = _
      split_ifs
      · exact .inl rfl
      · exact .inr rfl

theorem stamps_processMethod (sip : Request) (nta : Creations) :
    Stamps c (c.processMethod leg other irq sip nta).1 := by
  unfold processMethod
  split
  · unfold processBye
    dsimp only
    split_ifs
    · exact .of_desk rfl
    · exact (stamps_reportBye _ _ _).of_eq rfl
  · exact .of_desk rfl
  all_goals split_ifs <;> exact .of_desk rfl

theorem stamps_requestInsideDialog (sip : Request) (nta : Creations) :
    Stamps c (c.requestInsideDialog leg sip nta) := by
  have h : Stamps c ((c.withCalls (c.calls.receive leg)).processRequestInsideDialog leg ⟨c.calls.next⟩ sip nta).1 := by
    unfold processRequestInsideDialog
    split
    · exact .of_desk rfl
    · split_ifs
      · exact (stamps_processMethod _ _ _ _ _ _).of_eq rfl
      · exact (stamps_processMethod _ _ _ _ _ _).of_eq rfl
  exact h

theorem desk_responseInsideDialog (sip : Response) : (c.processResponseInsideDialog orq sip).desk = c.desk := by
  have hack : ∀ c' : Controller, (c'.acknowledge orq sip).desk = c'.desk := by
    intro c'
    unfold acknowledge
    dsimp only
    split_ifs
    · rfl
    · exact desk_require _ _ _
    · rfl
  unfold processResponseInsideDialog
  dsimp only
  split_ifs
  · rfl
  · exact hack _
  · exact hack _

theorem desk_sessionRefreshTimer : (c.processSessionRefreshTimer leg).desk = c.desk := by
  unfold processSessionRefreshTimer
  split
  · rfl
  · dsimp only
    split <;> rfl

theorem desk_retransmittedResponse (sip : Response) : (c.processRetransmittedResponse leg sip).desk = c.desk := by
  unfold processRetransmittedResponse
  split_ifs
  · exact desk_require _ _ _
  · rfl

end

/-! ## Events -/

/-- **What an event posts is stamped with the time.** Only the writer takes records away, and only
    time goes by when the clock says so. -/
theorem stamps_next (c : Controller) {e : ControllerEvent} (hwrite : ∀ connected, e ≠ .writeCdr connected)
    (hclock : ∀ now, e ≠ .clock now) : Stamps c (c.next e) := by
  cases e with
  | requestOutsideDialog sip uuid nta => exact stamps_requestOutsideDialog sip nta c uuid
  | inviteResponse orq sip nta => exact c.stamps_inviteResponse orq sip nta
  | ackOrCancel irq method => exact c.stamps_ackOrCancel irq method
  | requestInsideDialog leg sip nta => exact c.stamps_requestInsideDialog leg sip nta
  | responseInsideDialog orq sip => exact .of_desk (c.desk_responseInsideDialog orq sip)
  | sessionRefreshTimer leg => exact .of_desk (c.desk_sessionRefreshTimer leg)
  | retransmittedResponse leg sip => exact .of_desk (c.desk_retransmittedResponse leg sip)
  | writeCdr connected => exact absurd rfl (hwrite connected)
  | clock now => exact absurd rfl (hclock now)
  | monitor fsMonitor => exact .of_desk rfl
  | resetTrunkStats => exact .of_desk rfl

end Controller

end Ssp
