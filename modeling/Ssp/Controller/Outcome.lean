import Ssp.Controller.Records

/-!
# What becomes of an INVITE

How a response to the INVITE of a call changes the tables and the records together. The
attempt of a termination call is answered, it fails, or another INVITE takes its place, after
a redirect or a crankback (`Controller.Outcome`).

A crankback reports the attempt that failed before the next one is made, a redirect does not.
If there is no next one after all, the failure is passed on and reported like any other.
-/

namespace Ssp

namespace Controller

/-- A response to `orq` finds its transaction and the legs of the call. -/
def Reached (c : Controller) (orq : Orq) : Prop :=
  c.calls.getAssociatedIncoming orq ≠ .null ∧ c.calls.legFromOutgoing orq ≠ .null ∧
    c.calls.legFromIncoming (c.calls.getAssociatedIncoming orq) ≠ .null

instance (c : Controller) (orq : Orq) : Decidable (c.Reached orq) := inferInstanceAs (Decidable (_ ∧ _ ∧ _))

/-- The attempt fails with a 503 or 480, there may be further ones, and there is another carrier. -/
def CranksBack (c : Controller) (a : TerminationAttempt) (sip : Response) : Prop :=
  (sip.status = 503 ∨ sip.status = 480) ∧ a.nAttemptCount < c.nTerminationRetries - 1 ∧
    c.config.getTerminationRouteForAltCarrier a.carrier ≠ none

instance (c : Controller) (a : TerminationAttempt) (sip : Response) : Decidable (c.CranksBack a sip) :=
  inferInstanceAs (Decidable (_ ∧ _ ∧ _))

/-- A change that leaves an attempt its record, and adds `n` to the count. -/
def Counts (n : UInt32) (g : TerminationAttempt → TerminationAttempt) : Prop :=
  ∀ a, (g a).cdr = a.cdr ∧ (g a).nAttemptCount = a.nAttemptCount + n

/-- The record of the attempt gets the Call-ID of the new leg. -/
def setDleg (callId : Bytes) (cdr : CdrInfo) : CdrInfo := { cdr with dlegCallId := callId }

/-- The attempt after a redirect. -/
def redirectedTo (sip : Response) (a : TerminationAttempt) : TerminationAttempt :=
  { a with url := redirectUri (sip.sipContact.getD {}) }

/-- The attempt after a crankback to a route. -/
def crankedTo (sip : Response) (route : Route) (a : TerminationAttempt) : TerminationAttempt :=
  { a with
    url := sipUri sip.sipTo.url.user route.trunk.text, carrier := route.carrier
    sipTrunk := route.trunk.text
    pChargeInfoHeader := pChargeInfo route.chargeNumber route.trunk.text
    nAttemptCount := a.nAttemptCount + 1 }

/-- The record after a crankback to a route. -/
def setRoute (route : Route) (cdr : CdrInfo) : CdrInfo :=
  { cdr with terminatingCarrier := route.carrier, terminatingCarrierAddress := route.trunk.text }

/-- The failure of an attempt, as it is passed on. -/
def failureReply (a : TerminationAttempt) (sip : Response) : Reply where
  status := sip.status
  payload := sip.sipPayload
  terminatingCarrier := some (a.carrier, a.sipTrunk)

/-- What becomes of the attempt `t` when the final response `sip` comes for its INVITE `orq`. -/
inductive Outcome (c : Controller) (irq : Irq) (orq : Orq) (bLeg : Leg) (t : ℕ) (a : TerminationAttempt)
    (sip : Response) (nta : Creations) (c' : Controller) : Prop
  | answered (reply : Reply) (f : CdrInfo → CdrInfo) (hstatus : sip.status = 200)
      (hreply : reply.status = sip.status) (hf : IsReport .terminationAttempt sip.status f)
      (hcalls : c'.calls =
        ((c.calls.record (.sent bLeg .ack)).eraseAttempt orq).settle irq orq reply [])
      (hrecords : c'.records = c.records.postCopy a.cdr f)
  | failed (n : ℕ) (reply : Reply) (g : TerminationAttempt → TerminationAttempt) (f : CdrInfo → CdrInfo)
      (hstatus : sip.status ≠ 200) (hcrank : ¬c.CranksBack a sip)
      (hredirect : 300 ≤ sip.status ∧ sip.status ≤ 399 → ¬GrantsInvite nta a)
      (hn : c.calls.next ≤ n) (hreply : reply.status = sip.status) (hg : Counts 0 g)
      (hf : IsReport .terminationAttempt sip.status f)
      (hcalls : c'.calls =
        (((Calls.eraseAttempt { c.calls with next := n } orq).settle irq orq reply []).clearDialog bLeg))
      (hrecords : c'.records = (c.records.modifyAttempt t g).postCopy a.cdr f)
  | redirected (request : OutgoingRequest) (g : TerminationAttempt → TerminationAttempt)
      (hstatus : 300 ≤ sip.status ∧ sip.status ≤ 399) (hnta : GrantsInvite nta a)
      (hg : Counts 0 g)
      (hcalls : c'.calls = c.calls.replaceAttempt irq orq ⟨c.calls.next + 1⟩ bLeg ⟨c.calls.next⟩ request t
        (c.calls.next + 2))
      (hrecords : c'.records = (c.records.modifyAttempt t g).update a.cdr (setDleg nta.callId))
  | crankedBack (request : OutgoingRequest) (f : CdrInfo → CdrInfo)
      (g : TerminationAttempt → TerminationAttempt) (k : CdrInfo → CdrInfo) (hcrank : c.CranksBack a sip)
      (hnta : nta.bLeg = true ∧ nta.orq = true) (hf : IsReport .terminationAttempt sip.status f)
      (hg : Counts 1 g) (hk : KeepsIds k)
      (hcalls : c'.calls = c.calls.replaceAttempt irq orq ⟨c.calls.next + 1⟩ bLeg ⟨c.calls.next⟩ request t
        (c.calls.next + 2))
      (hrecords : c'.records = (((c.records.postCopy a.cdr f).modifyAttempt t g).update a.cdr k).update a.cdr
        (setDleg nta.callId))
  | crankbackFailed (n : ℕ) (reply : Reply) (f f' : CdrInfo → CdrInfo)
      (g : TerminationAttempt → TerminationAttempt) (k : CdrInfo → CdrInfo) (hcrank : c.CranksBack a sip)
      (hnta : ¬(nta.bLeg = true ∧ nta.orq = true)) (hn : c.calls.next ≤ n)
      (hreply : reply.status = sip.status) (hf : IsReport .terminationAttempt sip.status f)
      (hf' : IsReport .terminationAttempt sip.status f') (hg : Counts 1 g) (hk : KeepsIds k)
      (hcalls : c'.calls =
        (((Calls.eraseAttempt { c.calls with next := n } orq).settle irq orq reply []).clearDialog bLeg))
      (hrecords : c'.records =
        (((c.records.postCopy a.cdr f).modifyAttempt t g).update a.cdr k).postCopy a.cdr f')

/-- The same, with the records and the failures as they are. -/
inductive Ending (c : Controller) (irq : Irq) (orq : Orq) (bLeg : Leg) (t : ℕ) (a : TerminationAttempt)
    (sip : Response) (nta : Creations) (c' : Controller) : Prop
  | answered (reply : Reply) (hstatus : sip.status = 200) (hreply : reply.status = sip.status)
      (hcalls : c'.calls =
        ((c.calls.record (.sent bLeg .ack)).eraseAttempt orq).settle irq orq reply [])
      (hrecords : c'.records = c.records.postCopy a.cdr (c.finalCopy .terminationAttempt sip.status))
  | failed (n : ℕ) (g : TerminationAttempt → TerminationAttempt) (hstatus : sip.status ≠ 200)
      (hcrank : ¬c.CranksBack a sip)
      (hredirect : 300 ≤ sip.status ∧ sip.status ≤ 399 → ¬GrantsInvite nta a)
      (hn : c.calls.next ≤ n)
      (hg : g = id ∧ n = c.calls.next ∨ (300 ≤ sip.status ∧ sip.status ≤ 399) ∧ g = redirectedTo sip)
      (hcalls : c'.calls = ((Calls.eraseAttempt { c.calls with next := n } orq).settle irq orq
        (failureReply (g a) sip) []).clearDialog bLeg)
      (hrecords : c'.records =
        (c.records.modifyAttempt t g).postCopy a.cdr (c.finalCopy .terminationAttempt sip.status))
  | redirected (hstatus : 300 ≤ sip.status ∧ sip.status ≤ 399) (hnta : GrantsInvite nta a)
      (hcalls : c'.calls = c.calls.replaceAttempt irq orq ⟨c.calls.next + 1⟩ bLeg ⟨c.calls.next⟩
        (terminationInvite (redirectedTo sip a)) t (c.calls.next + 2))
      (hrecords : c'.records =
        (c.records.modifyAttempt t (redirectedTo sip)).update a.cdr (setDleg nta.callId))
  | crankedBack (route : Route) (config : SspConfig) (hcrank : c.CranksBack a sip)
      (hroute : c.config.getTerminationRouteForAltCarrier a.carrier = some (route, config))
      (hnta : nta.bLeg = true ∧ nta.orq = true)
      (hcalls : c'.calls = c.calls.replaceAttempt irq orq ⟨c.calls.next + 1⟩ bLeg ⟨c.calls.next⟩
        (terminationInvite (crankedTo sip route a)) t (c.calls.next + 2))
      (hrecords : c'.records = (((c.records.postCopy a.cdr
        (c.finalCopy .terminationAttempt sip.status)).modifyAttempt t (crankedTo sip route)).update a.cdr
        (setRoute route)).update a.cdr (setDleg nta.callId))
  | crankbackFailed (n : ℕ) (route : Route) (config : SspConfig) (hcrank : c.CranksBack a sip)
      (hroute : c.config.getTerminationRouteForAltCarrier a.carrier = some (route, config))
      (hnta : ¬(nta.bLeg = true ∧ nta.orq = true)) (hn : c.calls.next ≤ n)
      (hcalls : c'.calls = ((Calls.eraseAttempt { c.calls with next := n } orq).settle irq orq
        (failureReply (crankedTo sip route a) sip) []).clearDialog bLeg)
      (hrecords : c'.records = (((c.records.postCopy a.cdr
        (c.finalCopy .terminationAttempt sip.status)).modifyAttempt t (crankedTo sip route)).update a.cdr
        (setRoute route)).postCopy a.cdr (c.finalCopy .terminationAttempt sip.status))

section

variable {c : Controller} {orq : Orq}

theorem CranksBack.status_ne {a : TerminationAttempt} {sip : Response} (h : c.CranksBack a sip) :
    sip.status ≠ 200 ∧ ¬(300 ≤ sip.status ∧ sip.status ≤ 399) := by
  rcases h.1 with h | h <;> omega

/-- A response that does not find its transaction or its legs is lost. -/
theorem inviteResponse_of_not_reached (h : ¬c.Reached orq) (sip : Response) (nta : Creations) :
    ∃ a, c.processInviteResponseInsideDialog orq sip nta =
      c.withCalls (c.calls.fault (.assertion a)) := by
  unfold processInviteResponseInsideDialog
  dsimp only
  split_ifs with hirq hbLeg haLeg
  · exact ⟨_, rfl⟩
  · exact ⟨_, rfl⟩
  · exact ⟨_, rfl⟩
  · exact absurd ⟨hirq, hbLeg, haLeg⟩ h

theorem inviteResponse_of_reached (h : c.Reached orq) (sip : Response) (nta : Creations) :
    c.processInviteResponseInsideDialog orq sip nta =
      c.processInviteResponse (c.calls.getAssociatedIncoming orq) orq
        (c.calls.legFromIncoming (c.calls.getAssociatedIncoming orq)) (c.calls.legFromOutgoing orq) sip
        nta := by
  unfold processInviteResponseInsideDialog
  dsimp only
  rw [if_neg h.1, if_neg h.2.1, if_neg h.2.2]

/-- The call goes on with another INVITE for the attempt, if nta grants it. -/
theorem retry_cases {t : ℕ} {a : TerminationAttempt} (hs : 0 < c.calls.next) (ha : c.attempts[t]? = some a)
    (irq : Irq) (orq : Orq) (bLeg : Leg) (nta : Creations) :
    (¬GrantsInvite nta a ∧ ∃ n, c.calls.next ≤ n ∧
        c.retry t irq orq bLeg nta = .fail (c.withCalls { c.calls with next := n })) ∨
      GrantsInvite nta a ∧ ∃ c', c.retry t irq orq bLeg nta = .swallow c' ∧
        c'.calls = c.calls.replaceAttempt irq orq ⟨c.calls.next + 1⟩ bLeg ⟨c.calls.next⟩ (terminationInvite a) t
          (c.calls.next + 2) ∧
        c'.records = c.records.update a.cdr (setDleg nta.callId) := by
  unfold retry
  rcases generateTerminationRequest_cases hs ha irq nta with
    ⟨hnta, n, hn, heq⟩ | ⟨hnta, c', heq, hcalls, hrecords⟩ <;> rw [heq]
  · exact .inl ⟨hnta, n, hn, rfl⟩
  · refine .inr ⟨hnta, _, rfl, ?_, hrecords⟩
    rw [withCalls_calls, hcalls]
    rfl

/-! ### What a response leaves alone -/

theorem require_frame (c : Controller) (a : Absent) (there : Bool) :
    ∃ absent, c.require a there = { c with absent := absent } := by
  unfold require
  split_ifs
  · exact ⟨c.absent, rfl⟩
  · exact ⟨a :: c.absent, rfl⟩

theorem now_require (c : Controller) (a : Absent) (there : Bool) : (c.require a there).now = c.now := by
  obtain ⟨absent, heq⟩ := c.require_frame a there
  rw [heq]

theorem postFinalResponse_frame (c : Controller) (pCdr : ℕ) (cdrType : CdrEvent) (status : ℤ) :
    ∃ cdrs cdrWriter, c.postFinalResponse pCdr cdrType status =
      { c with cdrs := cdrs, cdrWriter := cdrWriter } := by
  unfold postFinalResponse
  split
  · exact ⟨c.cdrs, c.cdrWriter, rfl⟩
  · exact ⟨_, _, rfl⟩

theorem crankback_frame (c : Controller) (t : ℕ) (url carrier sipTrunk header : Bytes) :
    ∃ attempts cdrs, c.crankback t url carrier sipTrunk header =
      { c with attempts := attempts, cdrs := cdrs } := by
  unfold crankback
  split
  · exact ⟨c.attempts, c.cdrs, rfl⟩
  · exact ⟨_, _, rfl⟩

/-- A report depends on the time only. -/
theorem finalCopy_of_now {c c₁ : Controller} (hnow : c₁.now = c.now) {cdrType : CdrEvent} {status : ℤ} :
    c₁.finalCopy cdrType status = c.finalCopy cdrType status := by
  unfold finalCopy populateFinalResponseCdr
  rw [hnow]

/-! ### The end of the response -/

section

variable (c : Controller) (irq : Irq) (orq : Orq) (bLeg : Leg) (t p : ℕ) {sip : Response}

/-- A failure of a termination call is passed on, and the call is cleared. -/
theorem conclude_fail (hfinal : 200 ≤ sip.status) :
    ((Decision.fail c).conclude irq orq bLeg (some t) (some p) sip).calls =
      ((c.calls.eraseAttempt orq).settle irq orq (c.proxyReply (some t) none sip) []).clearDialog bLeg ∧
    ((Decision.fail c).conclude irq orq bLeg (some t) (some p) sip).records =
      c.records.postCopy p (c.finalCopy .terminationAttempt sip.status) := by
  constructor
  · unfold Decision.conclude
    rw [reportFinalResponse_calls]
    simp only [Decision.fail, if_true, withCalls_calls, proxyResponse_calls, hfinal, Option.isSome_some,
      and_self]
    rfl
  · simp only [Decision.conclude, Decision.fail, reportFinalResponse, hfinal, Option.isSome_some,
      Bool.not_true, Bool.false_eq_true, and_false, and_self, if_true, if_false, records_postFinalResponse]
    rfl

/-- A response that is not passed on. -/
theorem conclude_swallow : ((Decision.swallow c).conclude irq orq bLeg (some t) (some p) sip) = c := by
  simp [Decision.conclude, Decision.swallow, reportFinalResponse]

/-- An answer to a termination call is passed on. -/
theorem conclude_answer (sessionExpires : Option Bytes) (hfinal : 200 ≤ sip.status) :
    (Decision.conclude
        { controller := c, bClearTransaction := true, sessionExpires := sessionExpires }
        irq orq bLeg (some t) (some p) sip).calls =
      (c.calls.eraseAttempt orq).settle irq orq (c.proxyReply (some t) sessionExpires sip) [] ∧
    (Decision.conclude
        { controller := c, bClearTransaction := true, sessionExpires := sessionExpires }
        irq orq bLeg (some t) (some p) sip).records =
      c.records.postCopy p (c.finalCopy .terminationAttempt sip.status) := by
  constructor
  · unfold Decision.conclude
    rw [reportFinalResponse_calls]
    simp only [if_true, if_false, Bool.false_eq_true, withCalls_calls, proxyResponse_calls, hfinal,
      Option.isSome_some, and_self]
    rfl
  · simp only [Decision.conclude, reportFinalResponse, hfinal, Option.isSome_some,
      Bool.not_true, Bool.false_eq_true, and_false, and_self, if_true, if_false, records_postFinalResponse]
    rfl

end

/-! ### Termination calls -/

section

variable {irq : Irq} {bLeg : Leg} {t : ℕ} {a : TerminationAttempt} {sip : Response} {nta : Creations}

/-- A failure is passed on with the tables `s`, by a controller `c'` to which the attempt `a` is known. -/
theorem conclude_failure {c' : Controller} (s : Calls) (irq : Irq) (orq : Orq) (bLeg : Leg) (p : ℕ)
    (ha : c'.attempts[t]? = some a) (hfinal : 200 ≤ sip.status) (hnow : c'.now = c.now) :
    ((Decision.fail (c'.withCalls s)).conclude irq orq bLeg (some t) (some p) sip).calls =
        ((s.eraseAttempt orq).settle irq orq (failureReply a sip) []).clearDialog bLeg ∧
      ((Decision.fail (c'.withCalls s)).conclude irq orq bLeg (some t) (some p) sip).records =
        c'.records.postCopy p (c.finalCopy .terminationAttempt sip.status) := by
  obtain ⟨hcalls, hrecords⟩ := (c'.withCalls s).conclude_fail irq orq bLeg t p hfinal
  have hreply : (c'.withCalls s).proxyReply (some t) none sip = failureReply a sip := by
    simp only [proxyReply, if_pos hfinal, Option.bind_some]
    rw [show (c'.withCalls s).attempts[t]? = some a from ha]
    rfl
  rw [hreply] at hcalls
  rw [show (c'.withCalls s).finalCopy .terminationAttempt sip.status = _ from finalCopy_of_now hnow] at hrecords
  exact ⟨hcalls, hrecords⟩

/-- The failure is passed on as it is. -/
theorem fail_ending (ha : c.attempts[t]? = some a) (hfinal : 200 ≤ sip.status) (hstatus : sip.status ≠ 200)
    (hcrank : ¬c.CranksBack a sip) (hredirect : ¬(300 ≤ sip.status ∧ sip.status ≤ 399)) :
    Ending c irq orq bLeg t a sip nta
      ((Decision.fail c).conclude irq orq bLeg (some t) (some a.cdr) sip) := by
  obtain ⟨hcalls, hrecords⟩ := conclude_failure c.calls irq orq bLeg a.cdr ha hfinal rfl
  refine .failed c.calls.next id hstatus hcrank (fun h => absurd h hredirect) le_rfl (.inl ⟨rfl, rfl⟩) hcalls ?_
  rw [Records.modifyAttempt, List.modify_id]
  exact hrecords

/-- A redirect, up to its INVITE. -/
theorem processRedirect_eq (ha : c.attempts[t]? = some a) (irq : Irq) (orq : Orq) (bLeg : Leg)
    (sip : Response) (nta : Creations) :
    ∃ c' : Controller, c.processRedirect t irq orq bLeg sip nta = c'.retry t irq orq bLeg nta ∧
      c'.calls = c.calls ∧ c'.now = c.now ∧ c'.attempts[t]? = some (redirectedTo sip a) ∧
      c'.records = c.records.modifyAttempt t (redirectedTo sip) := by
  unfold processRedirect
  dsimp only
  obtain ⟨absent, h⟩ := c.require_frame .responseContact sip.sipContact.isSome
  rw [h]
  exact ⟨_, rfl, rfl, rfl, Records.getElem?_modifyAttempt (r := c.records) ha (redirectedTo sip), rfl⟩

/-- A redirect. -/
theorem processRedirect_ending (hs : 0 < c.calls.next) (ha : c.attempts[t]? = some a)
    (hstatus : 300 ≤ sip.status ∧ sip.status ≤ 399) :
    Ending c irq orq bLeg t a sip nta
      ((c.processRedirect t irq orq bLeg sip nta).conclude irq orq bLeg (some t) (some a.cdr) sip) := by
  have hfinal : 200 ≤ sip.status := by omega
  obtain ⟨c₁, heq₁, hcalls₁, hnow₁, ha₁, hrecords₁⟩ :=
    processRedirect_eq ha irq orq bLeg sip nta
  rw [heq₁]
  rcases retry_cases (hcalls₁ ▸ hs) ha₁ irq orq bLeg nta with
    ⟨hnta, n, hn, heq⟩ | ⟨hnta, c', heq, hcalls, hrecords⟩ <;> rw [heq]
  · obtain ⟨hcalls, hrecords⟩ :=
      conclude_failure { c₁.calls with next := n } irq orq bLeg a.cdr ha₁ hfinal hnow₁
    refine .failed n (redirectedTo sip) (by omega) (fun h => h.status_ne.2 hstatus) (fun _ => hnta)
      (hcalls₁ ▸ hn) (.inr ⟨hstatus, rfl⟩) ?_ ?_
    · rw [hcalls, hcalls₁]
    · rw [hrecords, hrecords₁]
  · rw [conclude_swallow]
    refine .redirected hstatus hnta ?_ ?_
    · rw [hcalls, hcalls₁]
    · rw [hrecords, hrecords₁]
      rfl

/-- A crankback to a route, up to its INVITE. -/
theorem processCrankback_eq {route : Route} {config : SspConfig} (ha : c.attempts[t]? = some a)
    (hcrank : c.CranksBack a sip)
    (hroute : c.config.getTerminationRouteForAltCarrier a.carrier = some (route, config)) (irq : Irq)
    (orq : Orq) (bLeg : Leg) (nta : Creations) :
    ∃ c' : Controller, c.processCrankback t a irq orq bLeg sip nta = c'.retry t irq orq bLeg nta ∧
      c'.calls = c.calls ∧ c'.now = c.now ∧ (c'.mapTrunkStats = c.mapTrunkStats ∧ c'.asserts = c.asserts) ∧
      c'.attempts[t]? = some (crankedTo sip route a) ∧
      c'.records = ((c.records.postCopy a.cdr (c.finalCopy .terminationAttempt sip.status)).modifyAttempt t
        (crankedTo sip route)).update a.cdr (setRoute route) := by
  unfold processCrankback
  rw [if_pos hcrank.2.1, hroute]
  dsimp only
  generalize hc₁ : postFinalResponse { c with config := config } _ _ _ = c₁
  have ha₁ : c₁.attempts[t]? = some a := by
    rw [← hc₁, postFinalResponse_attempts]
    exact ha
  have hrecords₁ : c₁.records = c.records.postCopy a.cdr (c.finalCopy .terminationAttempt sip.status) := by
    rw [← hc₁, records_postFinalResponse]
    rfl
  have hrecords := c₁.records_crankback ha₁ (sipUri sip.sipTo.url.user route.trunk.text)
    route.carrier route.trunk.text (pChargeInfo route.chargeNumber route.trunk.text)
  rw [hrecords₁] at hrecords
  have hframe : ∃ cdrs cdrWriter attempts, c₁.crankback t (sipUri sip.sipTo.url.user
      route.trunk.text) route.carrier route.trunk.text (pChargeInfo route.chargeNumber route.trunk.text) =
      { c with
        config := config, cdrs := cdrs, cdrWriter := cdrWriter, attempts := attempts } := by
    obtain ⟨cdrs, cdrWriter, h₁⟩ := postFinalResponse_frame { c with config := config } a.cdr
      .terminationAttempt sip.status
    obtain ⟨attempts, cdrs', h₂⟩ := crankback_frame c₁ t (sipUri sip.sipTo.url.user route.trunk.text)
      route.carrier route.trunk.text (pChargeInfo route.chargeNumber route.trunk.text)
    rw [h₂, ← hc₁, h₁]
    exact ⟨_, _, _, rfl⟩
  obtain ⟨cdrs, cdrWriter, attempts, hframe⟩ := hframe
  refine ⟨_, rfl, ?_, ?_, ⟨?_, ?_⟩, ?_, hrecords⟩
  · rw [hframe]
  · rw [hframe]
  · rw [hframe]
  · rw [hframe]
  · refine (congrArg (fun b : Records => b.attempts[t]?) hrecords).trans ?_
    exact Records.getElem?_modifyAttempt (by rw [Records.postCopy_attempts]; exact ha) (crankedTo sip route)

/-- The failure is passed on. -/
theorem processCrankback_of_not (hstatus : sip.status = 503 ∨ sip.status = 480) (hcrank : ¬c.CranksBack a sip) :
    c.processCrankback t a irq orq bLeg sip nta = .fail c := by
  unfold processCrankback
  split_ifs with hcount
  · rcases hroute : c.config.getTerminationRouteForAltCarrier a.carrier with _ | ⟨route, config⟩
    · rfl
    · exact absurd ⟨hstatus, hcount, hroute ▸ Option.some_ne_none _⟩ hcrank
  · rfl

/-- A response 503 or 480. -/
theorem processCrankback_ending (hs : 0 < c.calls.next) (ha : c.attempts[t]? = some a)
    (hstatus : sip.status = 503 ∨ sip.status = 480) :
    Ending c irq orq bLeg t a sip nta
      ((c.processCrankback t a irq orq bLeg sip nta).conclude irq orq bLeg (some t) (some a.cdr) sip) := by
  have hfinal : 200 ≤ sip.status := by omega
  by_cases hcrank : c.CranksBack a sip
  · obtain ⟨⟨route, config⟩, hroute⟩ := Option.ne_none_iff_exists'.1 hcrank.2.2
    obtain ⟨c₁, heq₁, hcalls₁, hnow₁, -, ha₁, hrecords₁⟩ :=
      processCrankback_eq ha hcrank hroute irq orq bLeg nta
    rw [heq₁]
    -- The header of the next attempt is there in any case.
    have hgrants : GrantsInvite nta (crankedTo sip route a) ↔ nta.bLeg = true ∧ nta.orq = true :=
      grantsInvite_iff (pChargeInfo_ne_nil _ _) nta
    rcases retry_cases (hcalls₁ ▸ hs) ha₁ irq orq bLeg nta with
      ⟨hnta, n, hn, heq⟩ | ⟨hnta, c', heq, hcalls, hrecords⟩ <;> rw [hgrants] at hnta <;> rw [heq]
    · obtain ⟨hcalls, hrecords⟩ :=
        conclude_failure { c₁.calls with next := n } irq orq bLeg a.cdr ha₁ hfinal hnow₁
      refine .crankbackFailed n route config hcrank hroute hnta (hcalls₁ ▸ hn) ?_ ?_
      · rw [hcalls, hcalls₁]
      · rw [hrecords, hrecords₁]
    · rw [conclude_swallow]
      refine .crankedBack route config hcrank hroute hnta ?_ ?_
      · rw [hcalls, hcalls₁]
      · rw [hrecords, hrecords₁]
        rfl
  · rw [processCrankback_of_not hstatus hcrank]
    exact fail_ending ha hfinal (by omega) hcrank (by omega)

theorem processFinalResponse_ending (hs : 0 < c.calls.next) (ha : c.attempts[t]? = some a)
    (hfinal : 200 ≤ sip.status) (aLeg : Leg) :
    Ending c irq orq bLeg t a sip nta
      ((c.processFinalResponse irq orq aLeg bLeg (some (t, a)) none sip nta).conclude irq orq bLeg (some t)
        (some a.cdr) sip) := by
  unfold processFinalResponse
  by_cases hstatus : sip.status = 200
  · rw [if_pos hstatus]
    -- The ACK is sent first.
    obtain ⟨absent, heq⟩ := c.require_frame .responseContact sip.sipContact.isSome
    unfold processAnswer
    rw [heq]
    obtain ⟨hcalls, hrecords⟩ := conclude_answer
      (withCalls { c with absent := absent } (c.calls.record (.sent bLeg .ack))) irq orq bLeg t a.cdr none hfinal
    refine .answered _ hstatus ?_ hcalls hrecords
    rfl
  · rw [if_neg hstatus]
    dsimp only
    split_ifs with hredirect hcrank
    · exact processRedirect_ending hs ha hredirect
    · exact processCrankback_ending hs ha hcrank
    · exact fail_ending ha hfinal hstatus (fun h => hcrank h.1) hredirect

/-- Nothing else of the controller matters. -/
theorem Ending.congr {c₁ c' : Controller} (h : Ending c₁ irq orq bLeg t a sip nta c')
    (hcalls : c₁.calls = c.calls) (hrecords : c₁.records = c.records) (hconfig : c₁.config = c.config)
    (hnow : c₁.now = c.now) : Ending c irq orq bLeg t a sip nta c' := by
  have hretries : c₁.nTerminationRetries = c.nTerminationRetries :=
    congrArg Records.nTerminationRetries hrecords
  have hcrank : c₁.CranksBack a sip ↔ c.CranksBack a sip := by
    unfold CranksBack
    rw [hretries, hconfig]
  have hcopy : c₁.finalCopy .terminationAttempt sip.status = c.finalCopy .terminationAttempt sip.status :=
    finalCopy_of_now hnow
  cases h with
  | answered reply hstatus hreply h h' =>
    exact .answered reply hstatus hreply (hcalls ▸ h) (hcopy ▸ hrecords ▸ h')
  | failed n g hstatus hc hredirect hn hg h h' =>
    exact .failed n g hstatus (hcrank.not.1 hc) hredirect (hcalls ▸ hn) (hcalls ▸ hg) (hcalls ▸ h)
      (hcopy ▸ hrecords ▸ h')
  | redirected hstatus hnta h h' => exact .redirected hstatus hnta (hcalls ▸ h) (hrecords ▸ h')
  | crankedBack route config hc hroute hnta h h' =>
    exact .crankedBack route config (hcrank.1 hc) (hconfig ▸ hroute) hnta (hcalls ▸ h) (hcopy ▸ hrecords ▸ h')
  | crankbackFailed n route config hc hroute hnta hn h h' =>
    exact .crankbackFailed n route config (hcrank.1 hc) (hconfig ▸ hroute) hnta (hcalls ▸ hn) (hcalls ▸ h)
      (hcopy ▸ hrecords ▸ h')

/-- **A final response to the INVITE of a termination call.** -/
theorem processInviteResponse_ending (hs : 0 < c.calls.next) (ht : c.attemptOf orq = some (t, a))
    (hfinal : 200 ≤ sip.status) (irq : Irq) (aLeg bLeg : Leg) (nta : Creations) :
    Ending c irq orq bLeg t a sip nta (c.processInviteResponse irq orq aLeg bLeg sip nta) := by
  obtain ⟨-, ha⟩ := attemptOf_eq_some ht
  -- Counting the failure changes nothing that matters here.
  obtain ⟨asserts, stats, heq⟩ := reportFailure_frame (c.check .inviteResponseNoCdr true) (some (t, a))
    sip.status
  have hending : Ending c irq orq bLeg t a sip nta
      ((((c.check .inviteResponseNoCdr true).reportFailure (some (t, a)) sip.status).processFinalResponse irq
        orq aLeg bLeg (some (t, a)) none sip nta).conclude irq orq bLeg (some t) (some a.cdr) sip) := by
    rw [heq]
    exact (processFinalResponse_ending (by exact hs) (by exact ha) hfinal aLeg).congr rfl rfl rfl rfl
  unfold processInviteResponse
  rw [show ((c.calls.mapTerminationAttempts orq).bind fun t => c.attempts[t]?.map fun a => (t, a)) =
    some (t, a) from ht]
  dsimp only
  rw [if_neg (by omega), if_pos hfinal]
  exact hending

/-- What becomes of the attempt, as far as its record and its count go. -/
theorem Ending.outcome {c' : Controller} (h : Ending c irq orq bLeg t a sip nta c') :
    Outcome c irq orq bLeg t a sip nta c' := by
  have hf := c.finalCopy_isReport .terminationAttempt sip.status
  have hg : Counts 0 (redirectedTo sip) := fun a => ⟨rfl, (UInt32.add_zero _).symm⟩
  have hg' : ∀ route, Counts 1 (crankedTo sip route) := fun _ _ => ⟨rfl, rfl⟩
  have hk : ∀ route, KeepsIds (setRoute route) := fun route => ⟨fun _ => rfl, fun _ => rfl⟩
  cases h with
  | answered reply hstatus hreply hcalls hrecords => exact .answered reply _ hstatus hreply hf hcalls hrecords
  | failed n g hstatus hcrank hredirect hn hsame hcalls hrecords =>
    refine .failed n _ g _ hstatus hcrank hredirect hn rfl ?_ hf hcalls hrecords
    rcases hsame with ⟨rfl, -⟩ | ⟨-, rfl⟩
    · exact fun a => ⟨rfl, (UInt32.add_zero _).symm⟩
    · exact hg
  | redirected hstatus hnta hcalls hrecords => exact .redirected _ _ hstatus hnta hg hcalls hrecords
  | crankedBack route config hcrank hroute hnta hcalls hrecords =>
    exact .crankedBack _ _ _ _ hcrank hnta hf (hg' route) (hk route) hcalls hrecords
  | crankbackFailed n route config hcrank hroute hnta hn hcalls hrecords =>
    exact .crankbackFailed n _ _ _ _ _ hcrank hnta hn rfl hf hf (hg' route) (hk route) hcalls hrecords

theorem processInviteResponse_outcome (hs : 0 < c.calls.next) (ht : c.attemptOf orq = some (t, a))
    (hfinal : 200 ≤ sip.status) (irq : Irq) (aLeg bLeg : Leg) (nta : Creations) :
    Outcome c irq orq bLeg t a sip nta (c.processInviteResponse irq orq aLeg bLeg sip nta) :=
  (processInviteResponse_ending hs ht hfinal irq aLeg bLeg nta).outcome

end

/-! ### Origination calls -/

/-- A change of what is known of a dialog that leaves what it is about. -/
def KeepsDialog (k : SipDialogInfo → SipDialogInfo) : Prop :=
  ∀ d, (k d).leg = d.leg ∧ (k d).bOrigination = d.bOrigination ∧ (k d).cdr = d.cdr

section

variable {irq : Irq} {aLeg bLeg : Leg} {sip : Response} {nta : Creations}

/-- The end of a final response to an origination call. -/
theorem conclude_origination (irq : Irq) (orq : Orq) (bLeg : Leg) (d : Decision)
    (hproxy : d.bProxyResponse = true) (hclear : d.bClearTransaction = true) (hfinal : 200 ≤ sip.status) (pCdr : Option ℕ) :
    ∃ reply f, reply.status = sip.status ∧ IsReport .originationFinalResponse sip.status f ∧
      (d.conclude irq orq bLeg none pCdr sip).calls =
        (if d.bDestroyLegs then (d.controller.calls.settle irq orq reply []).clearDialog bLeg
        else d.controller.calls.settle irq orq reply []) ∧
      (d.conclude irq orq bLeg none pCdr sip).records =
        pCdr.elim d.controller.records fun p => d.controller.records.postCopy p f := by
  refine ⟨d.controller.proxyReply none d.sessionExpires sip,
    d.controller.finalCopy .originationFinalResponse sip.status, rfl, finalCopy_isReport _ _ _, ?_, ?_⟩
  · unfold Decision.conclude
    rw [reportFinalResponse_calls]
    simp only [hproxy, hclear, if_true, withCalls_calls, proxyResponse_calls, Option.isSome_none,
      Bool.false_eq_true, and_false, if_false]
    cases d.bDestroyLegs <;> rfl
  · unfold Decision.conclude
    simp only [hproxy, hclear, if_true]
    cases pCdr with
    | none => cases d.bDestroyLegs <;> rfl
    | some p =>
      simp only [reportFinalResponse, hfinal, Option.isSome_none, Bool.not_false, and_self, if_true,
        records_postFinalResponse]
      cases d.bDestroyLegs <;> rfl

/-- The dialog of an answered origination call. -/
theorem processAnswer_calls (c : Controller) (aLeg bLeg : Leg) (sip : Response) (nta : Creations) :
    ∃ k, KeepsDialog k ∧ (c.processAnswer aLeg bLeg (c.calls.mapDialogInfo aLeg) sip nta).controller.calls =
      (c.calls.record (.sent bLeg .ack)).updateDialogInfo aLeg k := by
  unfold processAnswer
  cases hd : c.calls.mapDialogInfo aLeg with
  | none =>
    refine ⟨id, fun _ => ⟨rfl, rfl, rfl⟩, ?_⟩
    simp only [withCalls_calls, require_calls, Calls.updateDialogInfo, Calls.record, hd, Option.map_none]
    rw [Function.update_eq_self_iff.2 hd.symm]
  | some d =>
    dsimp only
    unfold startSessionTimer
    split_ifs
    · refine ⟨fun d => { d with
          localSdp := sip.sipPayload.getD []
          timerSessionRefresh := some (d.getSessionTimerSecs * 1000) }, fun _ => ⟨rfl, rfl, rfl⟩, ?_⟩
      simp only [withCalls_calls, require_calls, Calls.updateDialogInfo, Calls.record, hd,
        Option.map_some, Function.update_self, Function.update_idem]
      rfl
    · refine ⟨fun d => { d with localSdp := sip.sipPayload.getD [] }, fun _ => ⟨rfl, rfl, rfl⟩, ?_⟩
      simp only [withCalls_calls, require_calls]

theorem processAnswer_records (c : Controller) (aLeg bLeg : Leg) (pDialog : Option SipDialogInfo)
    (sip : Response) (nta : Creations) :
    (c.processAnswer aLeg bLeg pDialog sip nta).controller.records = c.records := by
  unfold processAnswer
  cases pDialog with
  | none => simp
  | some d =>
    dsimp only
    unfold startSessionTimer
    split_ifs <;> simp

/-- **A final response to the INVITE of an origination call.** -/
theorem processInviteResponse_origination (ht : c.attemptOf orq = none) (hfinal : 200 ≤ sip.status)
    (irq : Irq) (aLeg bLeg : Leg) (nta : Creations) :
    ∃ reply f, reply.status = sip.status ∧ IsReport .originationFinalResponse sip.status f ∧
      (sip.status = 200 ∧ (∃ k, KeepsDialog k ∧ (c.processInviteResponse irq orq aLeg bLeg sip nta).calls =
          ((c.calls.record (.sent bLeg .ack)).updateDialogInfo aLeg k).settle irq orq reply []) ∨
        sip.status ≠ 200 ∧ (c.processInviteResponse irq orq aLeg bLeg sip nta).calls =
          (c.calls.settle irq orq reply []).clearDialog bLeg) ∧
      (c.processInviteResponse irq orq aLeg bLeg sip nta).records =
        (c.calls.recordOf aLeg).elim c.records fun p => c.records.postCopy p f := by
  unfold processInviteResponse
  rw [show ((c.calls.mapTerminationAttempts orq).bind fun t => c.attempts[t]?.map fun a => (t, a)) =
    none from ht]
  dsimp only [Option.isSome_none, Option.map_none]
  simp only [Bool.false_eq_true, if_false]
  rw [if_neg (by omega), if_pos hfinal]
  generalize hc' : (c.check .inviteResponseNoCdr _).reportFailure none sip.status = c'
  have hcalls : c'.calls = c.calls := by
    rw [← hc', reportFailure_calls, check_calls]
  have hrecords : c'.records = c.records := by
    rw [← hc', records_reportFailure, records_check]
  unfold processFinalResponse
  by_cases hstatus : sip.status = 200
  · rw [if_pos hstatus, ← hcalls]
    obtain ⟨k, hk, hanswer⟩ := c'.processAnswer_calls aLeg bLeg sip nta
    have hflags : ∀ pDialog, (c'.processAnswer aLeg bLeg pDialog sip nta).bProxyResponse = true ∧
        (c'.processAnswer aLeg bLeg pDialog sip nta).bClearTransaction = true ∧
        (c'.processAnswer aLeg bLeg pDialog sip nta).bDestroyLegs = false := by
      intro pDialog
      cases pDialog <;> exact ⟨rfl, rfl, rfl⟩
    obtain ⟨hproxy, hclear, hdestroy⟩ := hflags (c'.calls.mapDialogInfo aLeg)
    obtain ⟨reply, f, hreply, hf, hc, hr⟩ :=
      conclude_origination irq orq bLeg _ hproxy hclear hfinal
        ((c'.calls.mapDialogInfo aLeg).bind fun d => d.cdr)
    refine ⟨reply, f, hreply, hf, .inl ⟨hstatus, k, hk, ?_⟩, ?_⟩
    · rw [hc, hdestroy, if_neg (by simp), hanswer]
    · rw [hr, processAnswer_records, hrecords]
      rfl
  · rw [if_neg hstatus]
    obtain ⟨reply, f, hreply, hf, hc, hr⟩ :=
      conclude_origination irq orq bLeg (.fail c') rfl rfl hfinal
        ((c.calls.mapDialogInfo aLeg).bind fun d => d.cdr)
    refine ⟨reply, f, hreply, hf, .inr ⟨hstatus, ?_⟩, ?_⟩
    · rw [hc, ← hcalls]
      rfl
    · rw [hr, ← hrecords]
      rfl

/-- A provisional response is passed on, or not. -/
theorem processInviteResponse_provisional (hstatus : sip.status < 200) (c : Controller) (irq : Irq)
    (orq : Orq) (aLeg bLeg : Leg) (nta : Creations) :
    ((c.processInviteResponse irq orq aLeg bLeg sip nta).calls = c.calls ∨
        ∃ reply : Reply, reply.status = sip.status ∧
          (c.processInviteResponse irq orq aLeg bLeg sip nta).calls =
            c.calls.record (.replied irq orq reply)) ∧
      (c.processInviteResponse irq orq aLeg bLeg sip nta).records = c.records := by
  have hreport : ∀ (c : Controller) pCdr bT bP, c.reportFinalResponse pCdr bT bP sip.status = c := by
    intro c pCdr bT bP
    unfold reportFinalResponse
    cases pCdr with
    | none => rfl
    | some p => simp [not_le.2 hstatus]
  unfold processInviteResponse
  dsimp only
  by_cases htrying : sip.status = 100
  · rw [if_pos htrying]
    unfold Decision.conclude
    simp only [Decision.swallow, hreport, Bool.false_eq_true, if_false]
    exact ⟨.inl (check_calls c _ _), records_check c _ _⟩
  · rw [if_neg htrying, if_neg (not_le.2 hstatus)]
    refine ⟨.inr ?_, ?_⟩
    · obtain ⟨reply, hreply, heq⟩ := conclude_provisional (c.check .inviteResponseNoCdr _) irq orq bLeg _ _
        hstatus
      exact ⟨reply, hreply, by rw [heq, check_calls]⟩
    · unfold Decision.conclude
      simp only [hreport, Bool.false_eq_true, if_false, if_true]
      exact records_check c _ _

end

end

end Controller

end Ssp
