import Ssp.Controller.CdrQueue

/-!
# What the callbacks do to the records

`Controller.records` is what the controller has of its records: the records themselves, the
attempts, and what stands in the queue of the writer, as it was posted. One lemma for each
callback says how it changes the tables and the records together.

A record is *filed* if it is new and posted at once (`Records.file`). The report about a final
response is a copy of the record of the call (`Records.postCopy`); the record of the call itself
is posted when the call comes in, is cancelled or cleared (`Records.post`).
-/

namespace Ssp

/-- The records, the attempts and how many of them there may be for a call, and what is in the
    queue of the writer, if there is one. -/
@[ext]
structure Records where
  cdrs : CdrHeap
  attempts : List TerminationAttempt
  nTerminationRetries : UInt32
  posted : Option (List CdrInfo)

namespace Records

/-- Setters called on the record at an address. -/
def update (r : Records) (p : ℕ) (f : CdrInfo → CdrInfo) : Records :=
  { r with cdrs := r.cdrs.update p f }

/-- The record at an address is posted. -/
def post (r : Records) (p : ℕ) : Records :=
  { r with posted := r.posted.map (· ++ (r.cdrs.at? p).toList) }

/-- A new record. -/
def draft (r : Records) (cdr : CdrInfo) : Records := { r with cdrs := r.cdrs ++ [cdr] }

/-- A new record is posted. -/
def file (r : Records) (cdr : CdrInfo) : Records :=
  { r with cdrs := r.cdrs ++ [cdr], posted := r.posted.map (· ++ [cdr]) }

/-- A changed copy of the record at an address is posted. -/
def postCopy (r : Records) (p : ℕ) (f : CdrInfo → CdrInfo) : Records :=
  (r.cdrs.at? p).elim r fun cdr => r.file (f cdr)

/-- An attempt changes. -/
def modifyAttempt (r : Records) (t : ℕ) (g : TerminationAttempt → TerminationAttempt) : Records :=
  { r with attempts := r.attempts.modify t g }

/-- A new attempt. -/
def addAttempt (r : Records) (a : TerminationAttempt) : Records :=
  { r with attempts := r.attempts ++ [a] }

section

variable (r : Records) (cdr : CdrInfo)

/-- A record is changed right after it was made. -/
@[simp]
theorem update_draft (f : CdrInfo → CdrInfo) :
    (r.draft cdr).update r.cdrs.length f = r.draft (f cdr) := by
  refine Records.ext ?_ rfl rfl rfl
  change List.modify (r.cdrs ++ [cdr]) r.cdrs.length f = r.cdrs ++ [f cdr]
  rw [List.modify_eq_set_getElem?, List.getElem?_concat_length]
  simp

@[simp]
theorem post_draft : (r.draft cdr).post r.cdrs.length = r.file cdr := by
  refine Records.ext rfl rfl rfl ?_
  change r.posted.map (· ++ (CdrHeap.at? (r.cdrs ++ [cdr]) r.cdrs.length).toList) = _
  rw [show CdrHeap.at? (r.cdrs ++ [cdr]) r.cdrs.length = some cdr from r.cdrs.at?_alloc_self cdr]
  rfl

@[simp]
theorem update_addAttempt (a : TerminationAttempt) (p : ℕ) (f : CdrInfo → CdrInfo) :
    (r.addAttempt a).update p f = (r.update p f).addAttempt a := rfl

variable {r}

theorem postCopy_attempts (b : Records) (p : ℕ) (f : CdrInfo → CdrInfo) :
    (b.postCopy p f).attempts = b.attempts := by
  unfold postCopy
  cases b.cdrs.at? p <;> rfl

theorem getElem?_modifyAttempt {t : ℕ} {a : TerminationAttempt} (h : r.attempts[t]? = some a)
    (g : TerminationAttempt → TerminationAttempt) : (r.modifyAttempt t g).attempts[t]? = some (g a) := by
  change (r.attempts.modify t g)[t]? = _
  rw [List.getElem?_modify_eq, h]
  rfl

end

/-! ## What is posted -/

/-- `new` is what was posted between `b` and `b'`. -/
def Posts (b b' : Records) (new : List CdrInfo) : Prop := b'.posted = b.posted.map (· ++ new)

section

variable {b b' b'' : Records} {new new' : List CdrInfo}

theorem Posts.trans (h : Posts b b' new) (h' : Posts b' b'' new') : Posts b b'' (new ++ new') := by
  unfold Posts at *
  rw [h', h, Option.map_map]
  refine congrArg (Option.map · b.posted) (funext fun l => ?_)
  exact List.append_assoc l new new'

theorem posts_nil (h : b'.posted = b.posted) : Posts b b' [] := by
  unfold Posts
  rw [h]
  simp

theorem posts_file (b : Records) (cdr : CdrInfo) : Posts b (b.file cdr) [cdr] := rfl

/-- A copy is posted if there is something to copy. -/
theorem posts_copy (b : Records) (p : ℕ) (f : CdrInfo → CdrInfo) :
    Posts b (b.postCopy p f) ((b.cdrs.at? p).map f).toList := by
  unfold postCopy
  cases b.cdrs.at? p with
  | none => exact posts_nil rfl
  | some cdr => exact posts_file b (f cdr)

/-- A record is changed and posted at once. -/
theorem posts_update (b : Records) (p : ℕ) (f : CdrInfo → CdrInfo) :
    Posts b ((b.update p f).post p) ((b.cdrs.at? p).map f).toList := by
  rw [← CdrHeap.at?_update_self]
  rfl

theorem posts_copy_of {cdr : CdrInfo} {p : ℕ} (h : b.cdrs.at? p = some cdr) (f : CdrInfo → CdrInfo) :
    Posts b (b.postCopy p f) [f cdr] := by
  simpa only [h, Option.map_some, Option.toList_some] using posts_copy b p f

theorem posts_update_of {cdr : CdrInfo} {p : ℕ} (h : b.cdrs.at? p = some cdr) (f : CdrInfo → CdrInfo) :
    Posts b ((b.update p f).post p) [f cdr] := by
  simpa only [h, Option.map_some, Option.toList_some] using posts_update b p f

end

end Records

namespace Controller

/-- The records of the controller. -/
def records (c : Controller) : Records where
  cdrs := c.cdrs
  attempts := c.attempts
  nTerminationRetries := c.nTerminationRetries
  posted := c.cdrWriter.map fun w => w.queue.map (·.record)

/-- The report about a final response, made from the record of the call. -/
def finalCopy (c : Controller) (cdrType : CdrEvent) (status : ℤ) (cdr : CdrInfo) : CdrInfo :=
  { c.populateFinalResponseCdr status cdr with cdrType := cdrType }

/-- A change that leaves what identifies the record. -/
structure KeepsIds (f : CdrInfo → CdrInfo) : Prop where
  uuid : ∀ cdr, (f cdr).uuid = cdr.uuid
  dlegCallId : ∀ cdr, (f cdr).dlegCallId = cdr.dlegCallId

/-- A change that makes the record a report of type `cdrType`. -/
structure Relabels (cdrType : CdrEvent) (f : CdrInfo → CdrInfo) : Prop extends KeepsIds f where
  type : ∀ cdr, (f cdr).cdrType = cdrType

/-- A report of type `cdrType` about a final response. -/
structure IsReport (cdrType : CdrEvent) (status : ℤ) (f : CdrInfo → CdrInfo) : Prop
    extends Relabels cdrType f where
  sipStatus : ∀ cdr, (f cdr).sipStatus = UInt32.ofInt status

theorem finalCopy_isReport (c : Controller) (cdrType : CdrEvent) (status : ℤ) :
    IsReport cdrType status (c.finalCopy cdrType status) := by
  refine ⟨⟨⟨fun _ => ?_, fun _ => ?_⟩, fun _ => rfl⟩, fun _ => ?_⟩ <;>
    unfold finalCopy populateFinalResponseCdr <;> dsimp only <;> split_ifs <;> rfl

/-- The attempt that `orq` is the INVITE of. -/
def attemptOf (c : Controller) (orq : Orq) : Option (ℕ × TerminationAttempt) :=
  (c.calls.mapTerminationAttempts orq).bind fun t => c.attempts[t]?.map fun a => (t, a)

theorem attemptOf_eq_some {c : Controller} {orq : Orq} {t : ℕ} {a : TerminationAttempt}
    (h : c.attemptOf orq = some (t, a)) : c.calls.mapTerminationAttempts orq = some t ∧ c.attempts[t]? = some a := by
  simpa [attemptOf, Option.bind_eq_some_iff] using h

section

variable (c : Controller)

/-! ## The operations -/

@[simp]
theorem records_withCalls (s : Calls) : (c.withCalls s).records = c.records := rfl

@[simp]
theorem records_require (a : Absent) (there : Bool) : (c.require a there).records = c.records := by
  unfold require
  split_ifs <;> rfl

@[simp]
theorem records_check (a : Assertion) (holds : Bool) : (c.check a holds).records = c.records := by
  unfold check
  split_ifs <;> rfl

@[simp]
theorem records_setCdr (p : ℕ) (f : CdrInfo → CdrInfo) :
    (c.setCdr p f).records = c.records.update p f := rfl

@[simp]
theorem records_countAttempt (sipTrunk carrier : Bytes) :
    (c.countAttempt sipTrunk carrier).records = c.records := rfl

@[simp]
theorem records_reportFailure (t : Option (ℕ × TerminationAttempt)) (status : ℤ) :
    (c.reportFailure t status).records = c.records := by
  obtain ⟨_, _, h⟩ := reportFailure_frame c t status
  rw [h]
  rfl

@[simp]
theorem records_redirect (t : ℕ) (url : Bytes) :
    (c.redirect t url).records = c.records.modifyAttempt t fun a => { a with url := url } := rfl

@[simp]
theorem records_postCdr (p : ℕ) : (c.postCdr p).records = c.records.post p := by
  refine Records.ext rfl rfl rfl ?_
  change (c.cdrWriter.map _).map _ = (c.cdrWriter.map _).map _
  rw [Option.map_map, Option.map_map]
  refine congrArg (Option.map · c.cdrWriter) (funext fun w => ?_)
  change ((w.postCdr c.cdrs p).queue.map _) = w.queue.map _ ++ (c.cdrs.at? p).toList
  unfold CdrWriter.postCdr
  cases c.cdrs.at? p with
  | none => simp
  | some cdr => simp

@[simp]
theorem records_newCdr (cdr : CdrInfo) : (c.newCdr cdr).2.records = c.records.draft cdr := rfl

@[simp]
theorem records_postFinalResponse (p : ℕ) (cdrType : CdrEvent) (status : ℤ) :
    (c.postFinalResponse p cdrType status).records =
      c.records.postCopy p (c.finalCopy cdrType status) := by
  unfold postFinalResponse Records.postCopy
  change _ = (c.cdrs.at? p).elim _ _
  cases c.cdrs.at? p with
  | none => rfl
  | some cdr =>
    have hnew : (c.newCdr cdr).1 = c.records.cdrs.length := rfl
    dsimp only [Option.elim_some]
    rw [records_postCdr, records_setCdr, records_newCdr, hnew, Records.update_draft, Records.post_draft]
    rfl

/-- The attempt is changed, and its record. -/
theorem records_crankback {t : ℕ} {a : TerminationAttempt} (ha : c.attempts[t]? = some a)
    (url carrier sipTrunk header : Bytes) :
    (c.crankback t url carrier sipTrunk header).records =
      (c.records.modifyAttempt t fun a =>
        { a with
          url := url, carrier := carrier, sipTrunk := sipTrunk
          pChargeInfoHeader := header, nAttemptCount := a.nAttemptCount + 1 }).update a.cdr fun cdr =>
      { cdr with terminatingCarrier := carrier, terminatingCarrierAddress := sipTrunk } := by
  unfold crankback
  rw [ha]
  refine Records.ext rfl ?_ rfl rfl
  change c.attempts.set t _ = c.attempts.modify t _
  rw [List.modify_eq_set_getElem?, ha]
  rfl

end

/-! ## New requests -/

/-- The record of a new origination call. -/
structure IsRequest (uuid : Bytes) (cdr : CdrInfo) : Prop where
  type : cdr.cdrType = .originationRequest
  uuid : cdr.uuid = uuid
  tmEnd : cdr.tmEnd = 0

/-- The records after a request that no call comes from: an origination call is reported, and
    an attempt that could not be made is left behind. -/
inductive Refused (b : Records) (uuid : Bytes) (b' : Records) : Prop
  | unreported (h : b' = b)
  | reported (cdr : CdrInfo) (htype : cdr.cdrType = .originationRequest) (huuid : cdr.uuid = uuid)
      (h : b' = b.file cdr)
  | attempted (cdr : CdrInfo) (a : TerminationAttempt) (ha : a.cdr = b.cdrs.length ∧ a.nAttemptCount = 0)
      (h : b' = (b.draft cdr).addAttempt a)

/-- A call comes from a new request, with the tables `s` and the records `b` before it. `callId` is
    the Call-ID of the B leg. -/
inductive Opening (s : Calls) (b : Records) (uuid callId : Bytes) (c' : Controller) : Prop
  | origination (request : OutgoingRequest) (info : SipDialogInfo) (cdr : CdrInfo)
      (hinfo : info.leg = ⟨s.next + 1⟩ ∧ info.bOrigination = true ∧ info.timerSessionRefresh = none ∧
        info.cdr = some b.cdrs.length)
      (hcalls : c'.calls = s.openCall .origination ⟨s.next + 1⟩ ⟨s.next + 2⟩ ⟨s.next + 3⟩ request info 0
        (s.next + 4))
      (hcdr : IsRequest uuid cdr) (hrecords : c'.records = b.file cdr)
  | termination (aLeg : Leg) (n : ℕ) (request : OutgoingRequest) (info : SipDialogInfo)
      (cdr : CdrInfo) (a : TerminationAttempt) (hn : s.next < n)
      (haLeg : aLeg = .null ∨ s.next < aLeg.address ∧ aLeg.address < n)
      (hinfo : info.leg = ⟨n⟩ ∧ info.bOrigination = false ∧ info.timerSessionRefresh = none)
      (hcalls : c'.calls = s.openCall .termination aLeg ⟨n⟩ ⟨n + 1⟩ request info b.attempts.length (n + 2))
      (ha : a.cdr = b.cdrs.length ∧ a.nAttemptCount = 0) (hcdr : cdr.dlegCallId = callId)
      (hrecords : c'.records = (b.draft cdr).addAttempt a) (hheader : a.pChargeInfoHeader ≠ [])

/-- What becomes of a new request, before nta answers it. -/
inductive Reception (s : Calls) (b : Records) (uuid callId : Bytes) (r : Controller × ℤ) : Prop
  | refused (n : ℕ) (i : Incoming) (hn : s.next < n)
      (hcalls : r.1.calls =
        { s with next := n, incoming := Function.update s.incoming ⟨s.next⟩ (some i) })
      (hstatus : 200 ≤ r.2 ∨ i.destroyed ≠ 0) (hrecords : Refused b uuid r.1.records)
  | opened (h : Opening s b uuid callId r.1) (hstatus : r.2 = 0)

section

variable {c : Controller} {s : Calls} {b : Records} {uuid : Bytes}

theorem originationCdr_spec (c : Controller) (sip : Request) (carrier uuid : Bytes) :
    (c.originationCdr sip carrier uuid).1 = c.records.cdrs.length ∧
      ∃ cdr, IsRequest uuid cdr ∧
        (c.originationCdr sip carrier uuid).2.records = c.records.draft cdr := by
  refine ⟨rfl, c.populateOriginationCdr sip carrier uuid { cdrType := .originationRequest }, ⟨rfl, rfl, rfl⟩, ?_⟩
  exact c.records.update_draft _ _

/-- A call is refused, with a report about it. -/
theorem reject_reported {cdr : CdrInfo} (hcdr : IsRequest uuid cdr)
    (hc : c.records = b.draft cdr) (status : ℤ) (cause : ReleaseCause) :
    Refused b uuid (c.reject b.cdrs.length status cause).1.records := by
  refine .reported { cdr with sipStatus := UInt32.ofInt status, releaseCause := cause } hcdr.type hcdr.uuid ?_
  change ((c.setCdr _ _).postCdr _).records = _
  rw [records_postCdr, records_setCdr, hc, Records.update_draft, Records.post_draft]

theorem originate_reception {cdr : CdrInfo} (hs : c.calls = s.receive .null)
    (hcdr : IsRequest uuid cdr) (hc : c.records = b.draft cdr)
    (sip : Request) (carrier : Bytes) (server : FsInstance) (nta : Creations) :
    Reception s b uuid nta.callId
      (c.originate ⟨s.next⟩ sip carrier uuid b.cdrs.length server nta) := by
  have ha : (⟨s.next + 1⟩ : Leg) ≠ .null := Handle.mk_ne_null (by omega)
  unfold originate
  rw [hs]
  rcases createOrigination_spec s nta (c.originationInvite sip carrier uuid server) with
    ⟨n, i, hn, heq⟩ | heq
  · rw [heq]
    refine .refused n i hn rfl (.inl (by simp [reject])) (reject_reported hcdr ?_ 503 _)
    rw [records_withCalls, hc]
  · rw [heq]
    refine .opened (.origination (c.originationInvite sip carrier uuid server)
      { leg := ⟨s.next + 1⟩, bOrigination := true, nSessionTimer := c.sessionTimerSecs sip
        cdr := some b.cdrs.length }
      { cdr with blegCallId := nta.callId, fsAddress := server.strSipAddress } ⟨rfl, rfl, rfl, rfl⟩
      ?_ ⟨hcdr.type, hcdr.uuid, hcdr.tmEnd⟩ ?_) rfl
    · unfold Calls.openCall
      rw [if_neg ha]
      rfl
    · rw [records_postCdr, records_withCalls, records_setCdr, records_withCalls, hc,
        Records.update_draft, Records.post_draft]

theorem processOriginationRequest_reception (hs : c.calls = s.receive .null) (hc : c.records = b)
    (sip : Request) (carrier uuid : Bytes) (nta : Creations) :
    Reception s b uuid nta.callId (c.processOriginationRequest ⟨s.next⟩ sip carrier uuid nta) := by
  obtain ⟨hp, cdr, hcdr, hrecords⟩ := c.originationCdr_spec sip carrier uuid
  unfold processOriginationRequest
  have hcalls := selectServer_calls (c.originationCdr sip carrier uuid).2
  have hsel : (c.originationCdr sip carrier uuid).2.selectServer.1.records =
    (c.originationCdr sip carrier uuid).2.records := rfl
  rw [originationCdr_calls, hs] at hcalls
  rw [hrecords, hc] at hsel
  rw [hc] at hp
  rcases h : (c.originationCdr sip carrier uuid).2.selectServer with ⟨c', _ | server⟩ <;>
    rw [h] at hcalls hsel <;> simp only [h, hp]
  · exact .refused (s.next + 1) {} (by omega) hcalls (.inl (by simp [reject]))
      (reject_reported hcdr hsel 486 _)
  · exact originate_reception hcalls hcdr hsel sip carrier server nta

/-- Another INVITE for an attempt, as nta grants it or not. -/
theorem generateTerminationRequest_cases {t : ℕ} {a : TerminationAttempt} (hs : 0 < c.calls.next)
    (ha : c.attempts[t]? = some a) (irq : Irq) (nta : Creations) :
    (¬GrantsInvite nta a ∧ ∃ n, c.calls.next ≤ n ∧
        c.generateTerminationRequest t irq nta = (c.withCalls { c.calls with next := n }, none)) ∨
      GrantsInvite nta a ∧ ∃ c',
        c.generateTerminationRequest t irq nta = (c', some (⟨c.calls.next + 1⟩, ⟨c.calls.next⟩)) ∧
        c'.calls = { c.calls with
          next := c.calls.next + 2
          legs := ⟨c.calls.next⟩ :: c.calls.legs
          outgoing := Function.update c.calls.outgoing ⟨c.calls.next + 1⟩
            (some ⟨⟨c.calls.next⟩, .responseToInvite, terminationInvite a, 0⟩)
          log := .created irq ⟨c.calls.next + 1⟩ :: c.calls.log } ∧
        c'.records = c.records.update a.cdr fun cdr => { cdr with dlegCallId := nta.callId } := by
  have hb : (⟨c.calls.next⟩ : Leg) ≠ .null := Handle.mk_ne_null hs
  have ho : (⟨c.calls.next + 1⟩ : Orq) ≠ .null := Handle.mk_ne_null (by omega)
  unfold generateTerminationRequest
  rw [ha, GrantsInvite, ← orqGranted_iff]
  dsimp only
  cases hbLeg : nta.bLeg with
  | false =>
    refine .inl ⟨by simp, c.calls.next, le_rfl, ?_⟩
    simp [Calls.createInvite, Calls.createLeg]
  | true =>
    cases horq : orqGranted nta a with
    | false =>
      refine .inl ⟨by simp, c.calls.next + 1, Nat.le_succ _, ?_⟩
      simp [Calls.createInvite, Calls.createLeg, Calls.createOutgoing, Calls.destroyLeg, hb]
    | true =>
      refine .inr ⟨⟨rfl, rfl⟩, ?_⟩
      simp only [Calls.createInvite, Calls.createLeg, Calls.createOutgoing, if_true, if_neg hb, if_neg ho]
      exact ⟨_, rfl, rfl, rfl⟩

/-- The attempt of a new termination call. -/
theorem newAttempt_spec (c : Controller) (sip : Request) (route : Route) :
    (c.newAttempt sip route).1 = c.records.attempts.length ∧
      ∃ cdr a, (a.cdr = c.records.cdrs.length ∧ a.nAttemptCount = 0) ∧
        (c.newAttempt sip route).2.records = (c.records.draft cdr).addAttempt a := by
  refine ⟨rfl, _, _, ⟨?_, ?_⟩, congrArg (Records.addAttempt · _) (c.records.update_draft _ _)⟩
  · rfl
  · rfl

theorem absent_generateTerminationRequest (c : Controller) (t : ℕ) (irq : Irq) (nta : Creations) :
    (c.generateTerminationRequest t irq nta).1.absent = c.absent := by
  unfold generateTerminationRequest
  split
  · rfl
  · split <;> rfl

/-- A termination call whose A leg is `aLeg`, possibly `NULL`, where nta grants the INVITE. -/
theorem terminateOn_granted (aLeg : Leg) (n : ℕ) {t : ℕ} {a : TerminationAttempt} {nta : Creations}
    (hs : c.calls =
      { s with
        next := n
        legs := if aLeg = .null then s.legs else aLeg :: s.legs
        incoming := Function.update s.incoming ⟨s.next⟩ (some ⟨aLeg, true, 0⟩) })
    (hn : s.next < n) (ha : c.attempts[t]? = some a) (hnta : GrantsInvite nta a)
    (sip : Request) :
    ∃ c', c.terminateOn ⟨s.next⟩ aLeg sip t nta = (c', 0) ∧
      c'.calls = s.openCall .termination aLeg ⟨n⟩ ⟨n + 1⟩ (terminationInvite a)
        { leg := ⟨n⟩, bOrigination := false, localSdp := sip.sipPayload.getD [] } t (n + 2) ∧
      (c'.records = c.records.update a.cdr fun cdr => { cdr with dlegCallId := nta.callId }) ∧
      (sip.sipPayload.isSome = true → c'.absent = c.absent) := by
  have hnext : c.calls.next = n := by rw [hs]
  have habsent := c.absent_generateTerminationRequest t ⟨s.next⟩ nta
  unfold terminateOn
  rcases generateTerminationRequest_cases (by omega) ha ⟨s.next⟩ nta with
    ⟨hnot, -⟩ | ⟨-, c', heq, hcalls, hrecords⟩
  · exact absurd hnta hnot
  rw [heq] at habsent ⊢
  rw [hnext] at hcalls
  refine ⟨_, rfl, ?_, ?_, fun hpayload => ?_⟩
  · simp only [withCalls_calls, require_calls, hcalls, hs]
    by_cases hnull : aLeg = .null <;>
      simp [addTermination, Calls.openCall, Calls.insertAttempt, Calls.insertDialogInfo,
        Calls.addTransactions, Calls.addDialogs, hnull]
  · rw [records_withCalls, records_require, hrecords]
  · rw [absent_withCalls, absent_require, if_pos hpayload]
    exact habsent

/-- A termination call whose A leg is `aLeg`, possibly `NULL`. -/
theorem terminateOn_reception (aLeg : Leg) (n : ℕ) {cdr : CdrInfo} {a : TerminationAttempt}
    (hs : c.calls =
      { s with
        next := n
        legs := if aLeg = .null then s.legs else aLeg :: s.legs
        incoming := Function.update s.incoming ⟨s.next⟩ (some ⟨aLeg, true, 0⟩) })
    (hn : s.next < n) (haLeg : aLeg = .null ∨ s.next < aLeg.address ∧ aLeg.address < n)
    (ha : a.cdr = b.cdrs.length ∧ a.nAttemptCount = 0) (hc : c.records = (b.draft cdr).addAttempt a)
    (uuid : Bytes) (sip : Request) (nta : Creations) :
    Reception s b uuid nta.callId (c.terminateOn ⟨s.next⟩ aLeg sip b.attempts.length nta) := by
  have hnext : c.calls.next = n := by rw [hs]
  have hattempt : c.attempts[b.attempts.length]? = some a := by
    change c.records.attempts[_]? = _
    rw [hc]
    exact List.getElem?_concat_length
  rcases generateTerminationRequest_cases (by omega) hattempt ⟨s.next⟩ nta with
    ⟨-, n', hn', heq⟩ | ⟨hnta, -⟩
  · -- The A leg goes away again.
    unfold terminateOn
    rw [heq]
    rw [hnext] at hn'
    refine .refused n' ⟨aLeg, true, 0⟩ (by omega) ?_ (.inl (by simp)) (.attempted cdr a ha ?_)
    · simp only [withCalls_calls, hs]
      by_cases hnull : aLeg = .null <;> simp [Calls.destroyLeg, hnull]
    · exact hc
  · obtain ⟨c', heq, hcalls, hrecords, -⟩ := terminateOn_granted aLeg n hs hn hattempt hnta sip
    rw [heq]
    refine .opened (.termination aLeg n _ _ { cdr with dlegCallId := nta.callId } a hn haLeg
      ⟨rfl, rfl, rfl⟩ hcalls ha rfl ?_ hnta.2.2) rfl
    rw [hrecords, hc, ha.1, Records.update_addAttempt, Records.update_draft]

theorem terminate_reception {cdr : CdrInfo} {a : TerminationAttempt} (hs : c.calls = s.receive .null)
    (ha : a.cdr = b.cdrs.length ∧ a.nAttemptCount = 0) (hc : c.records = (b.draft cdr).addAttempt a)
    (uuid : Bytes) (sip : Request) (nta : Creations) :
    Reception s b uuid nta.callId (c.terminate ⟨s.next⟩ sip b.attempts.length nta) := by
  have hnull : (⟨s.next + 1⟩ : Leg) ≠ .null := Handle.mk_ne_null (by omega)
  have hc' : ∀ s', (c.withCalls s').records = (b.draft cdr).addAttempt a := fun _ => hc
  unfold terminate
  rw [hs]
  cases nta.aLeg with
  | false =>
    exact terminateOn_reception .null (s.next + 1) s.bindIncoming_receive (by omega) (.inl rfl) ha (hc' _)
      uuid sip nta
  | true =>
    refine terminateOn_reception ⟨s.next + 1⟩ (s.next + 2) ?_ (by omega) (.inr ⟨by simp, by simp⟩) ha
      (hc' _) uuid sip nta
    rw [if_neg hnull]
    exact s.bindIncoming_createLeg

theorem processTerminationRequest_reception (hs : c.calls = s.receive .null) (hc : c.records = b)
    (uuid : Bytes) (sip : Request) (nta : Creations) :
    Reception s b uuid nta.callId (c.processTerminationRequest ⟨s.next⟩ sip nta) := by
  unfold processTerminationRequest
  rcases c.firstRoute sip with _ | ⟨route, config⟩
  · exact .refused (s.next + 1) {} (by omega) hs (.inl (by simp)) (.unreported hc)
  · obtain ⟨ht, cdr, a, ha, hrecords⟩ := newAttempt_spec { c with config := config } sip route
    rw [show records { c with config := config } = b from hc] at ht ha hrecords
    have hcalls := newAttempt_calls { c with config := config } sip route
    dsimp only
    rw [ht]
    exact terminate_reception (hcalls.trans hs) ha hrecords uuid sip nta

theorem Reception.countDown {callId : Bytes} {r : Controller × ℤ} (h : Reception s b uuid callId r) :
    Reception s b uuid callId (countDown r) := by
  have hrecords : (Controller.countDown r).1.records = r.1.records := by
    unfold Controller.countDown
    split_ifs <;> rfl
  have hcalls := countDown_calls r
  cases h with
  | refused n i hn hc hstatus hr =>
    exact .refused n i hn (hcalls.trans hc) hstatus (by rwa [hrecords])
  | opened h hstatus =>
    refine .opened ?_ hstatus
    cases h with
    | origination request info cdr hinfo hc hcdr hr =>
      exact .origination request info cdr hinfo (hcalls.trans hc) hcdr (hrecords.trans hr)
    | termination aLeg n request info cdr a hn haLeg hinfo hc ha hcdr hr hheader =>
      exact .termination aLeg n request info cdr a hn haLeg hinfo (hcalls.trans hc) ha hcdr
        (hrecords.trans hr) hheader

/-- A call that is not let in, with a report about it. -/
theorem reject_reception (hs : c.calls = s.receive .null) (hc : c.records = b) (sip : Request)
    (carrier uuid callId : Bytes) {status : ℤ} (hstatus : 200 ≤ status) (cause : ReleaseCause) :
    Reception s b uuid callId ((c.originationCdr sip carrier uuid).2.reject
      (c.originationCdr sip carrier uuid).1 status cause) := by
  obtain ⟨hp, cdr, hcdr, hrecords⟩ := c.originationCdr_spec sip carrier uuid
  rw [hc] at hp hrecords
  rw [hp]
  exact .refused (s.next + 1) {} (by omega) hs (.inl hstatus) (reject_reported hcdr hrecords status cause)

theorem processInvite_reception (hs : c.calls = s.receive .null) (hc : c.records = b) (sip : Request)
    (uuid : Bytes) (nta : Creations) :
    Reception s b uuid nta.callId (c.processInvite ⟨s.next⟩ sip uuid nta) := by
  have hs' := require_calls c .requestContactHost sip.contactHost?.isSome
  rw [hs] at hs'
  have hc' := records_require c .requestContactHost sip.contactHost?.isSome
  rw [hc] at hc'
  unfold processInvite
  dsimp only
  rcases determineCallType _ _ with ⟨_ | _ | _, carrier⟩
  · dsimp only
    split_ifs
    · exact reject_reception hs' hc' sip carrier uuid _ (by decide) _
    · exact (processOriginationRequest_reception hs' hc' sip carrier uuid nta).countDown
  · exact (processTerminationRequest_reception hs' hc' uuid sip nta).countDown
  · exact reject_reception hs' hc' sip carrier uuid _ (by decide) _

theorem processRequestOutsideDialog_reception (hs : c.calls = s.receive .null) (hc : c.records = b)
    (sip : Request) (uuid : Bytes) (nta : Creations) :
    Reception s b uuid nta.callId (c.processRequestOutsideDialog ⟨s.next⟩ sip uuid nta) := by
  -- A request that is destroyed in its callback.
  have hdestroyed : Reception s b uuid nta.callId
      (c.withCalls (c.calls.destroyIncoming ⟨s.next⟩), 0) := by
    refine .refused (s.next + 1) ⟨.null, false, 1⟩ (by omega) ?_ (.inr (by simp)) (.unreported hc)
    simp [hs, Calls.receive, Calls.destroyIncoming]
  -- A request that is answered at once.
  have hanswered : ∀ c' : Controller, c'.calls = c.calls → c'.records = c.records → ∀ status : ℤ,
      200 ≤ status → Reception s b uuid nta.callId (c', status) := fun c' hc' hr status hstatus =>
    .refused (s.next + 1) {} (by omega) (hc'.trans hs) (.inl hstatus) (.unreported (hr.trans hc))
  unfold processRequestOutsideDialog
  split
  · exact hanswered c rfl rfl _ (by rw [validateSipMessage_of_ne ‹_›]; decide)
  · split
    · split
      · exact hdestroyed
      · dsimp only
        split
        · exact hanswered _ (require_calls c _ _) (records_require c _ _) 200 (by decide)
        · exact hanswered _ (require_calls c _ _) (records_require c _ _) 403 (by decide)
    · exact hdestroyed
    · exact processInvite_reception hs hc sip uuid nta
    · exact hanswered c rfl rfl 481 (by decide)
    · exact hanswered c rfl rfl 501 (by decide)
    · exact hanswered c rfl rfl 501 (by decide)

/-- The request of a call is not answered yet. -/
theorem Opening.incoming {callId : Bytes} (h : Opening s b uuid callId c) :
    ∃ i ∈ c.calls.incoming ⟨s.next⟩, i.destroyed = 0 := by
  cases h with
  | origination request info cdr hinfo hcalls hcdr hrecords =>
    rw [hcalls]
    exact ⟨_, Function.update_self _ _ _, rfl⟩
  | termination aLeg n request info cdr a hn haLeg hinfo hcalls ha hcdr hrecords =>
    rw [hcalls]
    exact ⟨_, Function.update_self _ _ _, rfl⟩

/-- The tables after a request that no call comes from. -/
def RefusedCalls (s s' : Calls) : Prop :=
  ∃ i status n, s.next < n ∧ i.destroyed ≠ 0 ∧ (∀ r ∈ status, 200 ≤ r) ∧ s' = s.refuse i status n

/-- What becomes of a new request: no call comes from it, or it is sent on. -/
theorem requestOutsideDialog_cases (c : Controller) (sip : Request) (uuid : Bytes) (nta : Creations) :
    RefusedCalls c.calls (c.requestOutsideDialog sip uuid nta).calls ∧
        Refused c.records uuid (c.requestOutsideDialog sip uuid nta).records ∨
      Opening c.calls c.records uuid nta.callId (c.requestOutsideDialog sip uuid nta) := by
  have hreception := processRequestOutsideDialog_reception (c := c.withCalls (c.calls.receive .null))
    (s := c.calls) (b := c.records) rfl rfl sip uuid nta
  unfold requestOutsideDialog
  dsimp only
  generalize processRequestOutsideDialog _ _ _ _ _ = r at hreception
  obtain ⟨c', status⟩ := r
  cases hreception with
  | refused n i hn hcalls hstatus hrecords =>
    obtain ⟨i', status', hi', hstatus', heq⟩ := legRecv_eq_refuse hstatus sip.method
    refine .inl ⟨⟨i', status', n, hn, hi', hstatus', ?_⟩, hrecords⟩
    change c'.calls = _ at hcalls
    rw [withCalls_calls, hcalls]
    exact heq
  | opened h hstatus =>
    right
    obtain ⟨i, hi, hdestroyed⟩ := h.incoming
    obtain rfl : status = 0 := hstatus
    have hcalls : c'.calls.legRecv ⟨c.calls.next⟩ sip.method 0 = c'.calls := by
      have hi' : c'.calls.incoming ⟨c.calls.next⟩ = some i := hi
      simp [Calls.legRecv, Calls.legRecvStatus, hi', hdestroyed]
    rw [hcalls]
    exact h

end

/-! ## Requests inside of a dialog -/

section

variable {c : Controller}

theorem populateByeCdr_relabels (c : Controller) (released : Bool) :
    Relabels .callCleared (c.populateByeCdr released) :=
  ⟨⟨fun _ => rfl, fun _ => rfl⟩, fun _ => rfl⟩

theorem populateCancelCdr_relabels (c : Controller) : Relabels .originationCancel c.populateCancelCdr :=
  ⟨⟨fun _ => rfl, fun _ => rfl⟩, fun _ => rfl⟩

/-- The records after a BYE. -/
inductive ByeRecords (c : Controller) (leg other : Leg) (b' : Records) : Prop
  | unreported (hbye : other = .null ∨ c.byeCdr leg other = none) (h : b' = c.records)
  | reported (d : SipDialogInfo) (released : Bool) (p : ℕ) (f : CdrInfo → CdrInfo) (hnull : other ≠ .null)
      (hbye : c.byeCdr leg other = some (d, released)) (hp : d.cdr = some p)
      (hf : Relabels .callCleared f) (h : b' = (c.records.update p f).post p)

/-- Only what is known of the dialogs matters. -/
theorem ByeRecords.of_withCalls {leg other : Leg} {s : Calls} {b' : Records}
    (h : ByeRecords (c.withCalls s) leg other b') (hs : s.mapDialogInfo = c.calls.mapDialogInfo) :
    ByeRecords c leg other b' := by
  have hbyeCdr : (c.withCalls s).byeCdr leg other = c.byeCdr leg other := by
    unfold byeCdr
    rw [withCalls_calls, hs]
  cases h with
  | unreported hbye h => exact .unreported (hbyeCdr ▸ hbye) h
  | reported d released p f hnull hbye hp hf h =>
    exact .reported d released p f hnull (hbyeCdr ▸ hbye) hp hf h

theorem reportBye_records {leg other : Leg} (hnull : other ≠ .null)
    (habsent : (c.reportBye leg other).absent = []) :
    ByeRecords c leg other (c.reportBye leg other).records := by
  unfold reportBye at habsent ⊢
  cases hbye : c.byeCdr leg other with
  | none => exact .unreported (.inr hbye) rfl
  | some r =>
    obtain ⟨d, released⟩ := r
    rw [hbye] at habsent
    cases hp : d.cdr with
    | none =>
      simp only [hp] at habsent
      exact absurd habsent (List.cons_ne_nil _ _)
    | some p =>
      simp only [hp]
      exact .reported d released p _ hnull hbye hp (c.populateByeCdr_relabels released) (records_postCdr _ _)

/-- A BYE, after its first assertion. -/
theorem processBye_cases {s : Calls} {leg other : Leg} (hc : c.calls = s.receive leg)
    (hcrash : (c.processBye leg other ⟨s.next⟩).absent = []) :
    RefusedCalls ((if other = .null then s else s.record (.sent other .bye)).clearDialog leg)
        ((c.processBye leg other ⟨s.next⟩).calls.legRecv ⟨s.next⟩ .bye 200) ∧
      ByeRecords c leg other (c.processBye leg other ⟨s.next⟩).records := by
  -- The request is over once the dialog is cleared.
  have hend : ∀ u : Calls, u.next = s.next → RefusedCalls (u.clearDialog leg)
      ((((u.receive leg).clearDialog leg).destroyIncoming ⟨s.next⟩).legRecv ⟨s.next⟩ .bye 200) := by
    intro u hu
    obtain ⟨i, status, hi, hstatus, heq⟩ := @legRecv_eq_refuse (u.clearDialog leg) (s.next + 1)
      ⟨leg, false, 1⟩ 200 (.inl le_rfl) .bye
    refine ⟨i, status, s.next + 1, ?_, hi, hstatus, ?_⟩
    · rw [Calls.clearDialog_next, hu]
      exact Nat.lt_succ_self _
    · rw [← heq, Calls.receive, Calls.clearDialog_with]
      simp [Calls.destroyIncoming, hu]
  unfold processBye at hcrash ⊢
  by_cases hnull : other = .null
  · simp only [if_pos hnull, withCalls_calls, hc]
    exact ⟨hend s rfl, .unreported (.inl hnull) rfl⟩
  · simp only [if_neg hnull] at hcrash ⊢
    refine ⟨?_, ?_⟩
    · simp only [withCalls_calls, reportBye_calls, hc]
      exact hend (s.record (.sent other .bye)) rfl
    · exact (reportBye_records hnull hcrash).of_withCalls rfl

/-- A request is sent on inside of a dialog, if nta grants the transaction. -/
theorem sendOn_cases {s : Calls} {leg : Leg} (hc : c.calls = s.receive leg) (other : Leg) (sip : Request)
    (nta : Creations) (method : Method) :
    ∃ orq n, (orq = .null ∨ s.next < orq.address ∧ orq.address < n) ∧ s.next < n ∧
      (c.sendOn other ⟨s.next⟩ sip nta).calls.legRecv ⟨s.next⟩ method 0 =
        s.forward leg other orq (forwardedRequest sip) n := by
  have horq : (⟨s.next + 1⟩ : Orq) ≠ .null := Handle.mk_ne_null (by omega)
  -- nta has nothing to answer yet.
  have hlegRecv : (c.sendOn other ⟨s.next⟩ sip nta).calls.legRecv ⟨s.next⟩ method 0 =
      (c.sendOn other ⟨s.next⟩ sip nta).calls := by
    have hi : (c.sendOn other ⟨s.next⟩ sip nta).calls.incoming ⟨s.next⟩ = some ⟨leg, false, 0⟩ := by
      unfold sendOn
      rw [hc]
      cases nta.orq <;> exact Function.update_self _ _ _
    simp [Calls.legRecv, Calls.legRecvStatus, hi]
  rw [hlegRecv]
  unfold sendOn
  rw [hc]
  cases nta.orq with
  | false => exact ⟨.null, s.next + 1, .inl rfl, Nat.lt_succ_self _, rfl⟩
  | true =>
    refine ⟨⟨s.next + 1⟩, s.next + 2, .inr ⟨by simp, by simp⟩, by omega, ?_⟩
    unfold Calls.forward
    rw [if_neg horq, if_neg horq]
    rfl

/-- The tables after a request on a leg that leaves the call alone: it is refused, or sent on. -/
def RequestCalls (s : Calls) (leg other : Leg) (s' : Calls) : Prop :=
  RefusedCalls s s' ∨ ∃ orq request n, (orq = .null ∨ s.next < orq.address ∧ orq.address < n) ∧
    s.next < n ∧ s' = s.forward leg other orq request n

theorem requestCalls_sendOn {s : Calls} {leg : Leg} (hc : c.calls = s.receive leg) (other : Leg)
    (sip : Request) (nta : Creations) (method : Method) {r : Controller × ℤ}
    (hr : r = if other = .null then (c, 481) else (c.sendOn other ⟨s.next⟩ sip nta, 0)) :
    RequestCalls s leg other (r.1.calls.legRecv ⟨s.next⟩ method r.2) ∧ r.1.records = c.records := by
  by_cases hnull : other = .null
  · rw [if_pos hnull] at hr
    obtain ⟨i, status, hi, hstatus, h⟩ := @legRecv_eq_refuse s (s.next + 1) ⟨leg, false, 0⟩ 481
      (.inl (by decide)) method
    rw [hr]
    refine ⟨.inl ⟨i, status, s.next + 1, Nat.lt_succ_self _, hi, hstatus, ?_⟩, rfl⟩
    rw [hc]
    exact h
  · rw [if_neg hnull] at hr
    obtain ⟨orq, n, horq, hn, h⟩ := sendOn_cases hc other sip nta method
    rw [hr]
    exact ⟨.inr ⟨orq, _, n, horq, hn, h⟩, rfl⟩

/-- A request on a leg, of any method. -/
theorem processMethod_cases {s : Calls} {leg other : Leg} (hc : c.calls = s.receive leg) (sip : Request)
    (nta : Creations) {r : Controller × ℤ} (hr : c.processMethod leg other ⟨s.next⟩ sip nta = r)
    (habsent : r.1.absent = []) :
    sip.method = .bye ∧
        RefusedCalls ((if other = .null then s else s.record (.sent other .bye)).clearDialog leg)
          (r.1.calls.legRecv ⟨s.next⟩ sip.method r.2) ∧ ByeRecords c leg other r.1.records ∨
      sip.method ≠ .bye ∧ RequestCalls s leg other (r.1.calls.legRecv ⟨s.next⟩ sip.method r.2) ∧
        r.1.records = c.records := by
  unfold processMethod at hr
  cases hm : sip.method with
  | bye =>
    rw [hm] at hr
    subst hr
    exact .inl ⟨rfl, processBye_cases hc habsent⟩
  | ack =>
    rw [hm] at hr
    subst hr
    obtain ⟨i, status, hi, hstatus, h⟩ := @legRecv_eq_refuse s (s.next + 1) ⟨leg, false, 1⟩ 0
      (.inr one_ne_zero) .ack
    refine .inr ⟨by simp, .inl ⟨i, status, s.next + 1, Nat.lt_succ_self _, hi, hstatus, ?_⟩, rfl⟩
    rw [← h, withCalls_calls, hc]
    simp [Calls.receive, Calls.destroyIncoming]
  | invite | cancel | options | other name =>
    rw [hm] at hr
    exact .inr ⟨by simp, requestCalls_sendOn hc other sip nta _ hr.symm⟩

/-- What becomes of a request on a leg; `u` has the tables after the assertion that there is
    another side. -/
theorem requestInsideDialog_cases {leg : Leg} {sip : Request} {nta : Creations}
    (hcrash : ¬(c.requestInsideDialog leg sip nta).Crashed) :
    ∃ other u, c.calls.getAssociatedDialog leg = some other ∧
      (u = c.calls ∨ u = c.calls.fault (.assertion .requestNoOther)) ∧
      (sip.method = .bye ∧
          RefusedCalls ((if other = .null then u else u.record (.sent other .bye)).clearDialog leg)
            (c.requestInsideDialog leg sip nta).calls ∧
          ByeRecords c leg other (c.requestInsideDialog leg sip nta).records ∨
        sip.method ≠ .bye ∧ RequestCalls u leg other (c.requestInsideDialog leg sip nta).calls ∧
          (c.requestInsideDialog leg sip nta).records = c.records) := by
  have hdialog : (c.withCalls (c.calls.receive leg)).calls.getAssociatedDialog leg =
    c.calls.getAssociatedDialog leg := rfl
  have habsent : (c.requestInsideDialog leg sip nta).absent = [] := by
    by_contra hne
    exact hcrash (.inl hne)
  unfold requestInsideDialog processRequestInsideDialog at hcrash habsent ⊢
  simp only [hdialog] at hcrash habsent ⊢
  cases hother : c.calls.getAssociatedDialog leg with
  | none =>
    -- The end iterator was read.
    rw [hother] at hcrash
    refine absurd (.inr (.inl ?_)) hcrash
    simp [Calls.legRecv, Calls.legRecvStatus, Calls.fault, Calls.receive]
  | some other =>
    rw [hother] at habsent
    by_cases hnull : other = .null
    · simp only [if_pos hnull] at habsent ⊢
      refine ⟨other, c.calls.fault (.assertion .requestNoOther), rfl, .inr rfl, ?_⟩
      have h := processMethod_cases (s := c.calls.fault (.assertion .requestNoOther)) rfl sip nta rfl habsent
      rcases h with ⟨hm, hcalls, hrecords⟩ | h
      · exact .inl ⟨hm, hcalls, (hrecords.of_withCalls rfl).of_withCalls rfl⟩
      · exact .inr h
    · simp only [if_neg hnull] at habsent ⊢
      refine ⟨other, c.calls, rfl, .inl rfl, ?_⟩
      have h := processMethod_cases (s := c.calls) rfl sip nta rfl habsent
      rcases h with ⟨hm, hcalls, hrecords⟩ | h
      · exact .inl ⟨hm, hcalls, hrecords.of_withCalls rfl⟩
      · exact .inr h

/-- A final response to a request that was sent on settles its pair. -/
theorem responseInsideDialog_final {orq : Orq} (hnull : c.calls.getAssociatedIncoming orq ≠ .null) {sip : Response}
    (hfinal : 200 ≤ sip.status) : (c.processResponseInsideDialog orq sip).records = c.records ∧
      ∃ (u : Calls) (reply : Reply) (acks : List Leg), (u = c.calls ∨ ∃ a, u = c.calls.fault (.assertion a)) ∧
        (c.processResponseInsideDialog orq sip).calls =
          u.settle (c.calls.getAssociatedIncoming orq) orq reply acks := by
  unfold processResponseInsideDialog acknowledge
  simp only [if_neg hnull, if_pos hfinal]
  split_ifs with hack hleg
  · exact ⟨rfl, _, _, [], .inr ⟨.responseNoLeg, rfl⟩, rfl⟩
  · simp only [withCalls_calls, require_calls, records_withCalls, records_require]
    exact ⟨trivial, _, _, [_], .inl rfl, rfl⟩
  · exact ⟨rfl, _, _, [], .inl rfl, rfl⟩

/-- What becomes of a response to a request inside of a dialog; `u` has the tables after the
    assertion that its leg is there. -/
theorem responseInsideDialog_cases (c : Controller) (orq : Orq) (sip : Response) :
    (c.processResponseInsideDialog orq sip).records = c.records ∧
      ((∃ a, (c.processResponseInsideDialog orq sip).calls = c.calls.fault (.assertion a)) ∨
        c.calls.getAssociatedIncoming orq ≠ .null ∧ ∃ (u : Calls) (reply : Reply),
          (u = c.calls ∨ ∃ a, u = c.calls.fault (.assertion a)) ∧
          ((c.processResponseInsideDialog orq sip).calls =
              u.record (.replied (c.calls.getAssociatedIncoming orq) orq reply) ∨
            ∃ acks, (c.processResponseInsideDialog orq sip).calls =
              u.settle (c.calls.getAssociatedIncoming orq) orq reply acks)) := by
  by_cases hnull : c.calls.getAssociatedIncoming orq = .null
  · unfold processResponseInsideDialog
    simp only [if_pos hnull]
    exact ⟨rfl, .inl ⟨_, rfl⟩⟩
  · by_cases hfinal : 200 ≤ sip.status
    · obtain ⟨hrecords, u, reply, acks, hu, hcalls⟩ := responseInsideDialog_final hnull hfinal
      exact ⟨hrecords, .inr ⟨hnull, u, reply, hu, .inr ⟨acks, hcalls⟩⟩⟩
    · unfold processResponseInsideDialog acknowledge
      simp only [if_neg hnull, if_neg hfinal]
      rw [if_neg (by omega)]
      exact ⟨rfl, .inr ⟨hnull, _, _, .inl rfl, .inl rfl⟩⟩

/-! ## CANCEL, timers and the writer -/

/-- The records after a CANCEL that ends a call. -/
inductive CancelRecords (c : Controller) (orq : Orq) (leg : Leg) (b' : Records) : Prop
  | origination (p : ℕ) (f : CdrInfo → CdrInfo) (hp : c.calls.recordOf leg = some p)
      (hf : Relabels .originationCancel f) (h : b' = (c.records.update p f).post p)
  | termination (t : ℕ) (a : TerminationAttempt) (f : CdrInfo → CdrInfo)
      (hinfo : c.calls.mapDialogInfo leg = none) (ht : c.attemptOf orq = some (t, a))
      (hf : IsReport .terminationAttempt 487 f) (h : b' = c.records.postCopy a.cdr f)
  | unreported (hinfo : c.calls.mapDialogInfo leg = none) (ht : c.attemptOf orq = none) (h : b' = c.records)

theorem reportCancel_records {orq : Orq} {leg : Leg} (habsent : (c.reportCancel orq leg).absent = []) :
    CancelRecords c orq leg (c.reportCancel orq leg).records := by
  unfold reportCancel at habsent ⊢
  cases hd : c.calls.mapDialogInfo leg with
  | some d =>
    rw [hd] at habsent
    cases hp : d.cdr with
    | none =>
      simp only [hp] at habsent
      exact absurd habsent (List.cons_ne_nil _ _)
    | some p =>
      simp only [hp]
      refine .origination p _ ?_ c.populateCancelCdr_relabels (records_postCdr _ _)
      rw [Calls.recordOf, hd]
      exact hp
  | none =>
    dsimp only
    cases ht : c.calls.mapTerminationAttempts orq with
    | none => exact .unreported hd (by simp [attemptOf, ht]) rfl
    | some t =>
      cases ha : c.attempts[t]? with
      | none =>
        simp only [Option.bind_some, ha]
        exact .unreported hd (by simp [attemptOf, ht, ha]) rfl
      | some a =>
        simp only [Option.bind_some, ha]
        exact .termination t a _ hd (by simp [attemptOf, ht, ha]) (c.finalCopy_isReport _ _)
          (records_postFinalResponse _ _ _ _)

/-- What becomes of a CANCEL. -/
theorem processCancel_cases {irq : Irq} (hcrash : ¬(c.processCancel irq).Crashed) :
    (c.calls.getAssociatedOutgoing irq = .null ∨ c.calls.legFromIncoming irq = .null) ∧
        (c.processCancel irq).records = c.records ∧
        ((c.processCancel irq).calls = c.calls.record (.cancelled irq) ∨
          c.calls.getAssociatedOutgoing irq = .null ∧ c.calls.legFromIncoming irq ≠ .null ∧
          (c.processCancel irq).calls =
            (c.calls.record (.cancelled irq)).clearDialog (c.calls.legFromIncoming irq)) ∨
      c.calls.getAssociatedOutgoing irq ≠ .null ∧ c.calls.legFromIncoming irq ≠ .null ∧
        (c.processCancel irq).calls =
          ((((c.calls.record (.cancelled irq)).destroyOutgoing
            (c.calls.getAssociatedOutgoing irq)).clearTransaction
            (c.calls.getAssociatedOutgoing irq)).clearDialog (c.calls.legFromIncoming irq)).eraseAttempt
            (c.calls.getAssociatedOutgoing irq) ∧
        CancelRecords c (c.calls.getAssociatedOutgoing irq) (c.calls.legFromIncoming irq)
          (c.processCancel irq).records := by
  have horq : (c.withCalls (c.calls.record (.cancelled irq))).calls.getAssociatedOutgoing irq =
    c.calls.getAssociatedOutgoing irq := rfl
  have hleg : (c.withCalls (c.calls.record (.cancelled irq))).calls.legFromIncoming irq =
    c.calls.legFromIncoming irq := rfl
  by_cases hnull : c.calls.getAssociatedOutgoing irq = .null
  · left
    unfold processCancel
    simp only [horq, hleg, if_pos hnull]
    by_cases hnull' : c.calls.legFromIncoming irq = .null
    · simp only [if_pos hnull']
      exact ⟨.inl hnull, rfl, .inl rfl⟩
    · simp only [if_neg hnull']
      exact ⟨.inl hnull, rfl, .inr ⟨hnull, hnull', rfl⟩⟩
  by_cases hnull' : c.calls.legFromIncoming irq = .null
  · left
    unfold processCancel
    simp only [horq, hleg, if_neg hnull, if_pos hnull']
    exact ⟨.inr hnull', rfl, .inl rfl⟩
  right
  have habsent : (c.processCancel irq).absent = [] := by
    by_contra hne
    exact hcrash (.inl hne)
  rw [processCancel_eq hnull hnull'] at habsent ⊢
  refine ⟨hnull, hnull', rfl, ?_⟩
  have h := reportCancel_records (c := c.withCalls (c.calls.record (.cancelled irq))) habsent
  cases h with
  | origination p f hp hf h => exact .origination p f hp hf h
  | termination t a f hinfo ht hf h => exact .termination t a f hinfo ht hf h
  | unreported hinfo ht h => exact .unreported hinfo ht h

/-- What becomes of a call whose session timer expires; `u` has the tables after the assertion
    that there is another side. -/
theorem sessionRefreshTimer_cases {leg : Leg} (hleg : c.calls.mapDialogInfo leg ≠ none)
    (hcrash : ¬(c.processSessionRefreshTimer leg).Crashed) :
    (c.processSessionRefreshTimer leg).records = c.records ∧
      ∃ other u, c.calls.getAssociatedDialog leg = some other ∧
        (u = c.calls ∨ ∃ a, u = c.calls.fault (.assertion a)) ∧
        (c.processSessionRefreshTimer leg).calls =
          (u.updateDialogInfo leg fun d => { d with timerSessionRefresh := none }).clearDialog leg := by
  obtain ⟨d, hd⟩ := Option.ne_none_iff_exists'.1 hleg
  have hdialog : (c.calls.updateDialogInfo leg fun d =>
    { d with timerSessionRefresh := none }).getAssociatedDialog leg = c.calls.getAssociatedDialog leg := rfl
  unfold processSessionRefreshTimer at hcrash ⊢
  rw [hd] at hcrash ⊢
  simp only [hdialog] at hcrash ⊢
  cases hother : c.calls.getAssociatedDialog leg with
  | none =>
    rw [hother] at hcrash
    exact absurd (.inr (.inl List.mem_cons_self)) hcrash
  | some other =>
    by_cases hnull : other = .null
    · simp only [if_pos hnull]
      exact ⟨rfl, other, c.calls.fault (.assertion .sessionTimerNoOther), rfl, .inr ⟨_, rfl⟩, rfl⟩
    · simp only [if_neg hnull]
      exact ⟨rfl, other, c.calls, rfl, .inl rfl, rfl⟩

theorem retransmittedResponse_cases (c : Controller) (leg : Leg) (sip : Response) :
    (c.processRetransmittedResponse leg sip).records = c.records ∧
      ((c.processRetransmittedResponse leg sip).calls = c.calls ∨
        (c.processRetransmittedResponse leg sip).calls = c.calls.record (.sent leg .ack)) := by
  unfold processRetransmittedResponse
  split_ifs
  · simp
  · exact ⟨rfl, .inl rfl⟩

/-! ## What was posted -/

/-- What is in the queue of the writer, as it was posted. -/
def queued (c : Controller) : List CdrInfo := c.records.posted.getD []

/-- What the writer takes from its queue in an event. -/
def takes (c : Controller) : ControllerEvent → List CdrInfo
  | .writeCdr _ => c.queued.take 1
  | _ => []

theorem takes_of_ne {e : ControllerEvent} (hwrite : ∀ connected, e ≠ .writeCdr connected) : c.takes e = [] := by
  cases e with
  | writeCdr connected => exact absurd rfl (hwrite connected)
  | _ => rfl

/-- What is posted comes at the end of the queue, if there is one. -/
theorem queued_of_posts {c' : Controller} {new : List CdrInfo} (hwriter : c.records.posted ≠ none)
    (hposts : Records.Posts c.records c'.records new) : c'.records.posted ≠ none ∧ c'.queued = c.queued ++ new := by
  obtain ⟨l, hl⟩ := Option.ne_none_iff_exists'.1 hwriter
  unfold queued
  rw [show c'.records.posted = _ from hposts, hl]
  exact ⟨Option.some_ne_none _, rfl⟩

/-- What the writer does to the records. -/
theorem records_writeCdr (c : Controller) (connected : Bool) :
    (c.next (.writeCdr connected)).records = { c.records with posted := c.records.posted.map (·.drop 1) } := by
  refine Records.ext rfl rfl rfl ?_
  change (c.cdrWriter.map _).map _ = (c.cdrWriter.map _).map _
  rw [Option.map_map, Option.map_map]
  refine congrArg (Option.map · c.cdrWriter) (funext fun w => ?_)
  change ((w.writeCdr c.cdrs connected).queue.map _) = (w.queue.map _).drop 1
  unfold CdrWriter.writeCdr
  cases hqueue : w.queue with
  | nil => simp [hqueue]
  | cons e rest =>
    dsimp only
    split <;> rfl

/-- The writer takes the first record from its queue. -/
theorem takes_append_queued (c : Controller) (connected : Bool) :
    c.takes (.writeCdr connected) ++ (c.next (.writeCdr connected)).queued = c.queued := by
  change c.queued.take 1 ++ (c.next _).records.posted.getD [] = _
  rw [records_writeCdr]
  unfold queued
  cases c.records.posted with
  | none => rfl
  | some l => exact List.take_append_drop 1 l

end

end Controller

end Ssp
