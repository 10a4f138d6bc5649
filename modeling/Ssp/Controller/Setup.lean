import Ssp.Config.Fairness
import Ssp.Controller.Outcome
import Ssp.Controller.Turns

/-!
# What the controller decides with

Next to its calls and records, the controller has its configuration, with the turns of the
carriers and their trunks, and the number of calls that it may still take (`Setup`). An event
changes nothing of this but in two ways (`setup_next`): it asks the configuration for routes
(`routeCalls`), and it takes a call (`Admits`).

So the configuration goes through the calls for routes that the events of a run make
(`routeCallsOf`), and whatever holds of these calls holds of the controller.
-/

namespace Ssp

/-- What the controller decides with. -/
structure Setup where
  config : SspConfig
  mapInboundCarrier : List (Bytes × Bytes)
  bIsActive : Bool
  nOriginationSessionTimer : UInt64
  nTerminationRetries : UInt32
  nIterationCount : ℤ
  contactHost : Bytes
  contactPort : Bytes

namespace Setup

/-- Some calls for routes are made. -/
def asked (x : Setup) (calls : List RouteCall) : Setup :=
  { x with config := SspConfig.routing.exec x.config calls }

/-- A call is taken, if `admitted`. -/
def counted (x : Setup) (admitted : Prop) [Decidable admitted] : Setup :=
  if admitted then
    { x with nIterationCount := if 0 < x.nIterationCount then x.nIterationCount - 1 else x.nIterationCount }
  else x

@[simp]
theorem asked_nil (x : Setup) : x.asked [] = x := rfl

theorem counted_of_not {p : Prop} [Decidable p] (h : ¬p) (x : Setup) : x.counted p = x := if_neg h

theorem counted_of {p : Prop} [Decidable p] (h : p) (x : Setup) : x.counted p =
    { x with nIterationCount := if 0 < x.nIterationCount then x.nIterationCount - 1 else x.nIterationCount } :=
  if_pos h

theorem counted_frame (x : Setup) (p : Prop) [Decidable p] : ∃ n, x.counted p = { x with nIterationCount := n } := by
  by_cases h : p
  · exact ⟨_, counted_of h x⟩
  · exact ⟨x.nIterationCount, counted_of_not h x⟩

end Setup

namespace Controller

def setup (c : Controller) : Setup where
  config := c.config
  mapInboundCarrier := c.mapInboundCarrier
  bIsActive := c.bIsActive
  nOriginationSessionTimer := c.nOriginationSessionTimer
  nTerminationRetries := c.nTerminationRetries
  nIterationCount := c.nIterationCount
  contactHost := c.contactHost
  contactPort := c.contactPort

/-! ## The operations of the state -/

section

variable (c : Controller) (s : Calls) (a : Absent) (p t : ℕ) (f : CdrInfo → CdrInfo)

@[simp]
theorem setup_withCalls : (c.withCalls s).setup = c.setup := rfl

@[simp]
theorem setup_missing : (c.missing a).setup = c.setup := rfl

@[simp]
theorem setup_require (there : Bool) : (c.require a there).setup = c.setup := by
  unfold require
  split_ifs <;> rfl

@[simp]
theorem setup_check (x : Assertion) (holds : Bool) : (c.check x holds).setup = c.setup := by
  unfold check
  split_ifs <;> rfl

@[simp]
theorem setup_setCdr : (c.setCdr p f).setup = c.setup := rfl

@[simp]
theorem setup_postCdr : (c.postCdr p).setup = c.setup := rfl

@[simp]
theorem setup_newCdr (cdr : CdrInfo) : (c.newCdr cdr).2.setup = c.setup := rfl

@[simp]
theorem setup_postFinalResponse (cdrType : CdrEvent) (status : ℤ) :
    (c.postFinalResponse p cdrType status).setup = c.setup := by
  unfold postFinalResponse
  split <;> rfl

@[simp]
theorem setup_crankback (url carrier sipTrunk header : Bytes) :
    (c.crankback t url carrier sipTrunk header).setup = c.setup := by
  unfold crankback
  split <;> rfl

@[simp]
theorem setup_countFailure (sipTrunk : Bytes) (status : ℤ) :
    (c.countFailure sipTrunk status).setup = c.setup := by
  unfold countFailure
  split
  · rfl
  · exact c.setup_check _ _

@[simp]
theorem setup_reject (status : ℤ) (cause : ReleaseCause) : (c.reject p status cause).1.setup = c.setup := rfl

@[simp]
theorem setup_originationCdr (sip : Request) (carrier uuid : Bytes) :
    (c.originationCdr sip carrier uuid).2.setup = c.setup := rfl

end

/-! ## New requests -/

/-- The calls for the first route of a termination call. -/
def firstCalls (c : Controller) (sip : Request) : List RouteCall :=
  let carrier := c.config.strAnonymousCallRoutingCarrier
  if carrier ≠ [] ∧ sip.isAnonymousCall then
    match c.config.getTerminationRouteForCarrier carrier with
    | some _ => [.forCarrier carrier]
    | none => [.forCarrier carrier, .next]
  else [.next]

/-- The first route comes from the last of these calls. -/
theorem firstRoute_eq (c : Controller) (sip : Request) :
    ∃ route, c.firstRoute sip = some (route, SspConfig.routing.exec c.config (c.firstCalls sip)) := by
  obtain ⟨route, config, hnext, -⟩ := c.config.serves_next
  have hexec : SspConfig.routing.exec c.config [.next] = config :=
    SspConfig.routing_next_of_some c.config (show c.config.ask .next = some (route, config) from hnext)
  unfold firstRoute firstCalls
  dsimp only
  split_ifs with hanonymous
  · cases hcarrier : c.config.getTerminationRouteForCarrier c.config.strAnonymousCallRoutingCarrier with
    | some r =>
      refine ⟨r.1, ?_⟩
      change some r = some (r.1, SspConfig.routing.next c.config _)
      rw [SspConfig.routing_next_of_some c.config (show c.config.ask (.forCarrier _) = some (r.1, r.2) from hcarrier)]
    | none =>
      refine ⟨route, ?_⟩
      change c.config.getTerminationRoute =
        some (route, SspConfig.routing.exec (SspConfig.routing.next c.config _) [.next])
      rw [SspConfig.routing_next_of_none c.config (show c.config.ask (.forCarrier _) = none from hcarrier), hexec, hnext]
  · exact ⟨route, hexec ▸ hnext⟩

/-- Calls of a type are taken. -/
def Admits (c : Controller) : CallType → Prop
  | .origination => c.bIsActive = true ∧ c.nIterationCount ≠ 0
  | .termination => True
  | .unknown => False

instance (c : Controller) : (callType : CallType) → Decidable (c.Admits callType)
  | .origination => inferInstanceAs (Decidable (_ ∧ _))
  | .termination => inferInstanceAs (Decidable True)
  | .unknown => inferInstanceAs (Decidable False)

/-- An INVITE that is taken as a call: it goes on to `processOriginationRequest` or
    `processTerminationRequest`. -/
def Takes (c : Controller) (sip : Request) : Prop :=
  sip.validateSipMessage = 0 ∧ sip.method = .invite ∧
    c.Admits (c.determineCallType (sip.contactHost?.getD [])).1

instance (c : Controller) (sip : Request) : Decidable (c.Takes sip) :=
  inferInstanceAs (Decidable (_ ∧ _ ∧ _))

instance (c : Controller) (sip : Request) : Decidable (c.Terminates sip) :=
  inferInstanceAs (Decidable (_ ∧ _ ∧ _))

section

variable (c : Controller) (irq : Irq) (sip : Request) (nta : Creations)

@[simp]
theorem setup_selectServer : c.selectServer.1.setup = c.setup := rfl

theorem setup_countDown (r : Controller × ℤ) : (countDown r).1.setup = r.1.setup.counted True := by
  rw [Setup.counted_of trivial]
  unfold countDown
  by_cases hpos : 0 < r.1.nIterationCount
  · have hpos' : 0 < r.1.setup.nIterationCount := hpos
    rw [if_pos hpos, if_pos hpos']
    rfl
  · have hpos' : ¬0 < r.1.setup.nIterationCount := hpos
    rw [if_neg hpos, if_neg hpos']

theorem setup_originate (carrier uuid : Bytes) (pCdr : ℕ) (server : FsInstance) :
    (c.originate irq sip carrier uuid pCdr server nta).1.setup = c.setup := by
  unfold originate
  split <;> rfl

theorem setup_processOriginationRequest (carrier uuid : Bytes) :
    (c.processOriginationRequest irq sip carrier uuid nta).1.setup = c.setup := by
  unfold processOriginationRequest
  dsimp only
  split
  next c' hserver =>
    have h := congrArg (fun r => r.1.setup) hserver
    exact h.symm
  next c' server hserver =>
    rw [setup_originate]
    have h := congrArg (fun r => r.1.setup) hserver
    exact h.symm

theorem setup_generateTerminationRequest (t : ℕ) :
    (c.generateTerminationRequest t irq nta).1.setup = c.setup := by
  unfold generateTerminationRequest
  split
  · rfl
  · split <;> rfl

theorem setup_terminateOn (aLeg : Leg) (t : ℕ) :
    (c.terminateOn irq aLeg sip t nta).1.setup = c.setup := by
  have h := c.setup_generateTerminationRequest irq nta t
  unfold terminateOn
  split
  next c' hgen =>
    rw [hgen] at h
    exact h
  next c' orq bLeg hgen =>
    rw [hgen] at h
    rw [setup_withCalls, setup_require]
    exact h

theorem setup_terminate (t : ℕ) : (c.terminate irq sip t nta).1.setup = c.setup := by
  unfold terminate
  exact setup_terminateOn _ irq sip nta _ t

theorem setup_processTerminationRequest :
    (c.processTerminationRequest irq sip nta).1.setup = c.setup.asked (c.firstCalls sip) := by
  obtain ⟨route, hroute⟩ := c.firstRoute_eq sip
  unfold processTerminationRequest
  rw [hroute]
  dsimp only
  rw [setup_terminate]
  rfl

theorem setup_processInvite (uuid : Bytes) (hinvite : sip.validateSipMessage = 0 ∧ sip.method = .invite) :
    (c.processInvite irq sip uuid nta).1.setup =
      (c.setup.asked (if c.Terminates sip then c.firstCalls sip else [])).counted (c.Takes sip) := by
  obtain ⟨absent, hrequire⟩ := c.require_frame .requestContactHost sip.contactHost?.isSome
  have htype : (c.require .requestContactHost sip.contactHost?.isSome).determineCallType (sip.contactHost?.getD []) =
      c.determineCallType (sip.contactHost?.getD []) := by
    rw [hrequire]
    rfl
  have hcalls : (c.require .requestContactHost sip.contactHost?.isSome).firstCalls sip = c.firstCalls sip := by
    rw [hrequire]
    rfl
  have hterminates : c.Terminates sip ↔
      (c.determineCallType (sip.contactHost?.getD [])).1 = .termination := by
    simp only [Terminates, hinvite.1, hinvite.2, true_and]
  have htakes : c.Takes sip ↔ c.Admits (c.determineCallType (sip.contactHost?.getD [])).1 := by
    simp only [Takes, hinvite.1, hinvite.2, true_and]
  unfold processInvite
  dsimp only
  rw [htype]
  rcases hcall : c.determineCallType (sip.contactHost?.getD []) with ⟨callType, carrier⟩
  rw [hcall] at hterminates htakes
  cases callType with
  | origination =>
    rw [if_neg fun h => nomatch hterminates.1 h]
    have hrefuses : ((!(c.require .requestContactHost sip.contactHost?.isSome).bIsActive) = true ∨
        (c.require .requestContactHost sip.contactHost?.isSome).nIterationCount = 0) ↔ ¬c.Takes sip := by
      rw [htakes, hrequire]
      change _ ↔ ¬(c.bIsActive = true ∧ c.nIterationCount ≠ 0)
      cases c.bIsActive <;> simp
    dsimp only
    split_ifs with hoff
    · rw [Setup.counted_of_not (hrefuses.1 hoff), setup_reject, setup_originationCdr, setup_require]
      rfl
    · rw [setup_countDown, setup_processOriginationRequest, setup_require, Setup.counted_of trivial,
        Setup.counted_of (not_not.1 (hrefuses.not.1 hoff))]
      rfl
  | termination =>
    rw [if_pos (hterminates.2 rfl), Setup.counted_of (htakes.2 trivial), setup_countDown,
      setup_processTerminationRequest, hcalls, setup_require, Setup.counted_of trivial]
  | unknown =>
    have hnot : ¬c.Takes sip := htakes.1
    rw [if_neg fun h => nomatch hterminates.1 h]
    refine Eq.trans ?_ (Setup.counted_of_not hnot _).symm
    exact setup_require _ _ _

theorem setup_requestOutsideDialog (uuid : Bytes) : (c.requestOutsideDialog sip uuid nta).setup =
    (c.setup.asked (if c.Terminates sip then c.firstCalls sip else [])).counted (c.Takes sip) := by
  have hnot : ¬(sip.validateSipMessage = 0 ∧ sip.method = .invite) →
      (c.setup.asked (if c.Terminates sip then c.firstCalls sip else [])).counted (c.Takes sip) = c.setup := by
    intro h
    rw [if_neg fun hterminates => h ⟨hterminates.1, hterminates.2.1⟩,
      Setup.counted_of_not fun htakes => h ⟨htakes.1, htakes.2.1⟩]
    rfl
  unfold requestOutsideDialog
  dsimp only
  rw [setup_withCalls]
  unfold processRequestOutsideDialog
  by_cases hvalid : sip.validateSipMessage = 0
  · rw [if_neg (not_not.2 hvalid)]
    cases hmethod : sip.method with
    | invite => exact setup_processInvite _ _ sip nta uuid ⟨hvalid, hmethod⟩
    | options =>
      rw [hnot fun h => by rw [hmethod] at h; exact nomatch h.2]
      dsimp only
      split_ifs <;> simp
    | ack | bye | cancel | other =>
      rw [hnot fun h => by rw [hmethod] at h; exact nomatch h.2]
      rfl
  · rw [if_pos hvalid]
    exact (hnot fun h => hvalid h.1).symm

end

/-! ## Responses -/

section

variable (c : Controller) (irq : Irq) (orq : Orq) (aLeg bLeg leg other : Leg) (t : ℕ) (sip : Response)
  (nta : Creations)

theorem setup_retry : (c.retry t irq orq bLeg nta).controller.setup = c.setup := by
  have h := c.setup_generateTerminationRequest irq nta t
  unfold retry
  split
  next c' hgen =>
    rw [hgen] at h
    exact h
  next c' orqNew bLegNew hgen =>
    rw [hgen] at h
    exact h

theorem setup_processRedirect : (c.processRedirect t irq orq bLeg sip nta).controller.setup = c.setup := by
  unfold processRedirect
  dsimp only
  rw [setup_retry]
  exact setup_require _ _ _

/-- The call for the route of a crankback. -/
def crankbackCalls (c : Controller) (a : TerminationAttempt) (sip : Response) : List RouteCall :=
  if (sip.status = 503 ∨ sip.status = 480) ∧ a.nAttemptCount < c.nTerminationRetries - 1 then
    [.altCarrier a.carrier]
  else []

theorem crankbackCalls_congr {c c' : Controller} (h : c'.setup = c.setup) (a : TerminationAttempt) (sip : Response) :
    c'.crankbackCalls a sip = c.crankbackCalls a sip := by
  have hretries : c'.nTerminationRetries = c.nTerminationRetries := congrArg Setup.nTerminationRetries h
  rw [crankbackCalls, hretries]
  rfl

theorem setup_processCrankback (a : TerminationAttempt) (hstatus : sip.status = 503 ∨ sip.status = 480) :
    (c.processCrankback t a irq orq bLeg sip nta).controller.setup = c.setup.asked (c.crankbackCalls a sip) := by
  unfold processCrankback crankbackCalls
  by_cases hcount : a.nAttemptCount < c.nTerminationRetries - 1
  · rw [if_pos hcount, if_pos ⟨hstatus, hcount⟩]
    cases hroute : c.config.getTerminationRouteForAltCarrier a.carrier with
    | none =>
      have hexec : SspConfig.routing.exec c.config [.altCarrier a.carrier] = c.config :=
        SspConfig.routing_next_of_none c.config (show c.config.ask (.altCarrier a.carrier) = none from hroute)
      exact (congrArg (fun config => { c.setup with config := config }) hexec).symm
    | some r =>
      have hexec : SspConfig.routing.exec c.config [.altCarrier a.carrier] = r.2 :=
        SspConfig.routing_next_of_some c.config (show c.config.ask (.altCarrier a.carrier) = some (r.1, r.2) from hroute)
      dsimp only
      rw [setup_retry, setup_crankback, setup_postFinalResponse]
      exact (congrArg (fun config => { c.setup with config := config }) hexec).symm
  · rw [if_neg hcount, if_neg fun h => hcount h.2]
    rfl

theorem setup_processAnswer (pDialog : Option SipDialogInfo) :
    (c.processAnswer aLeg bLeg pDialog sip nta).controller.setup = c.setup := by
  unfold processAnswer
  dsimp only
  split
  · exact setup_require _ _ _
  · unfold startSessionTimer
    split_ifs
    · exact (setup_require _ _ _).trans (setup_require c _ _)
    · exact (setup_require _ _ _).trans (setup_require c _ _)

@[simp]
theorem setup_reportFailure (x : Option (ℕ × TerminationAttempt)) (status : ℤ) :
    (c.reportFailure x status).setup = c.setup := by
  unfold reportFailure
  split
  · split_ifs <;> simp
  · rfl

@[simp]
theorem setup_reportFinalResponse (pCdr : Option ℕ) (bT bP : Bool) (status : ℤ) :
    (c.reportFinalResponse pCdr bT bP status).setup = c.setup := by
  unfold reportFinalResponse
  split
  · rfl
  · split_ifs <;> simp

theorem setup_conclude (d : Decision) (x : Option ℕ) (pCdr : Option ℕ) :
    (d.conclude irq orq bLeg x pCdr sip).setup = d.controller.setup := by
  unfold Decision.conclude
  dsimp only
  rw [setup_reportFinalResponse]
  split_ifs <;> rfl

/-- The calls for routes that a response to an INVITE makes. -/
def responseCalls (c : Controller) (orq : Orq) (sip : Response) : List RouteCall :=
  if c.Reached orq then (c.attemptOf orq).elim [] fun a => c.crankbackCalls a.2 sip else []

theorem setup_processFinalResponse (x : Option (ℕ × TerminationAttempt)) (pDialog : Option SipDialogInfo) :
    (c.processFinalResponse irq orq aLeg bLeg x pDialog sip nta).controller.setup =
      c.setup.asked (x.elim [] fun a => c.crankbackCalls a.2 sip) := by
  have hnot : ¬(sip.status = 503 ∨ sip.status = 480) → (x.elim [] fun a => c.crankbackCalls a.2 sip) = [] := by
    intro h
    cases x with
    | none => rfl
    | some a => exact if_neg fun h' => h h'.1
  unfold processFinalResponse
  by_cases hanswer : sip.status = 200
  · rw [if_pos hanswer, hnot (by omega)]
    exact c.setup_processAnswer aLeg bLeg sip nta pDialog
  · rw [if_neg hanswer]
    cases x with
    | none => rfl
    | some a =>
      dsimp only
      by_cases hredirect : 300 ≤ sip.status ∧ sip.status ≤ 399
      · rw [if_pos hredirect, hnot (by omega)]
        exact c.setup_processRedirect irq orq bLeg a.1 sip nta
      · rw [if_neg hredirect]
        by_cases hcrank : sip.status = 503 ∨ sip.status = 480
        · rw [if_pos hcrank]
          exact c.setup_processCrankback irq orq bLeg a.1 sip nta a.2 hcrank
        · rw [if_neg hcrank, hnot hcrank]
          rfl

theorem setup_processInviteResponse :
    (c.processInviteResponse irq orq aLeg bLeg sip nta).setup =
      c.setup.asked ((c.attemptOf orq).elim [] fun a => c.crankbackCalls a.2 sip) := by
  have hnot : sip.status < 200 → ((c.attemptOf orq).elim [] fun a => c.crankbackCalls a.2 sip) = [] := by
    intro h
    cases c.attemptOf orq with
    | none => rfl
    | some a => exact if_neg fun h' => by omega
  unfold processInviteResponse
  dsimp only
  rw [setup_conclude]
  by_cases htrying : sip.status = 100
  · rw [if_pos htrying, hnot (by omega)]
    exact setup_check _ _ _
  · rw [if_neg htrying]
    by_cases hfinal : 200 ≤ sip.status
    · rw [if_pos hfinal, setup_processFinalResponse, setup_reportFailure, setup_check]
      refine congrArg c.setup.asked ?_
      change (c.attemptOf orq).elim _ _ = (c.attemptOf orq).elim _ _
      cases c.attemptOf orq with
      | none => rfl
      | some a => exact crankbackCalls_congr ((setup_reportFailure _ _ _).trans (setup_check _ _ _)) a.2 sip
    · rw [if_neg hfinal, hnot (by omega)]
      exact setup_check _ _ _

theorem setup_inviteResponse :
    (c.processInviteResponseInsideDialog orq sip nta).setup = c.setup.asked (c.responseCalls orq sip) := by
  by_cases hreached : c.Reached orq
  · rw [inviteResponse_of_reached hreached, responseCalls, if_pos hreached]
    exact c.setup_processInviteResponse _ orq _ _ sip nta
  · obtain ⟨a, heq⟩ := inviteResponse_of_not_reached hreached sip nta
    rw [responseCalls, if_neg hreached, heq]
    rfl

end

/-! ## The other callbacks -/

section

variable (c : Controller) (irq : Irq) (orq : Orq) (leg other : Leg)

theorem setup_reportCancel : (c.reportCancel orq leg).setup = c.setup := by
  unfold reportCancel
  split
  · split <;> rfl
  · split
    · exact setup_postFinalResponse _ _ _ _
    · rfl

theorem setup_ackOrCancel (method : Method) : (c.processAckOrCancel irq method).setup = c.setup := by
  unfold processAckOrCancel processCancel
  dsimp only
  split_ifs
  · rfl
  · rfl
  · rfl
  · exact setup_reportCancel _ _ _
  · rfl

theorem setup_reportBye : (c.reportBye leg other).setup = c.setup := by
  unfold reportBye
  split
  · rfl
  · split <;> rfl

theorem setup_processBye : (c.processBye leg other irq).setup = c.setup := by
  unfold processBye
  dsimp only
  split_ifs
  · rfl
  · exact setup_reportBye _ _ _

theorem setup_processMethod (sip : Request) (nta : Creations) :
    (c.processMethod leg other irq sip nta).1.setup = c.setup := by
  unfold processMethod
  split
  · exact c.setup_processBye irq leg other
  · rfl
  all_goals split_ifs <;> rfl

theorem setup_requestInsideDialog (sip : Request) (nta : Creations) :
    (c.requestInsideDialog leg sip nta).setup = c.setup := by
  have h : ((c.withCalls (c.calls.receive leg)).processRequestInsideDialog leg ⟨c.calls.next⟩ sip nta).1.setup =
      c.setup := by
    unfold processRequestInsideDialog
    split
    · rfl
    · split_ifs
      · exact setup_processMethod _ _ _ _ _ _
      · exact setup_processMethod _ _ _ _ _ _
  exact h

theorem setup_responseInsideDialog (sip : Response) : (c.processResponseInsideDialog orq sip).setup = c.setup := by
  have hack : ∀ c' : Controller, (c'.acknowledge orq sip).setup = c'.setup := by
    intro c'
    unfold acknowledge
    dsimp only
    split_ifs
    · rfl
    · exact setup_require _ _ _
    · rfl
  unfold processResponseInsideDialog
  dsimp only
  split_ifs
  · rfl
  · exact hack _
  · exact hack _

theorem setup_sessionRefreshTimer : (c.processSessionRefreshTimer leg).setup = c.setup := by
  unfold processSessionRefreshTimer
  split
  · rfl
  · dsimp only
    split <;> rfl

theorem setup_retransmittedResponse (sip : Response) : (c.processRetransmittedResponse leg sip).setup = c.setup := by
  unfold processRetransmittedResponse
  split_ifs
  · exact setup_require _ _ _
  · rfl

end

/-! ## Events -/

/-- The calls for routes that an event makes. -/
def routeCalls (c : Controller) : ControllerEvent → List RouteCall
  | .requestOutsideDialog sip _ _ => if c.Terminates sip then c.firstCalls sip else []
  | .inviteResponse orq sip _ => c.responseCalls orq sip
  | _ => []

/-- The INVITEs that are taken as calls. -/
def TakesCall (c : Controller) : ControllerEvent → Prop
  | .requestOutsideDialog sip _ _ => c.Takes sip
  | _ => False

instance (c : Controller) : (e : ControllerEvent) → Decidable (c.TakesCall e)
  | .requestOutsideDialog sip _ _ => inferInstanceAs (Decidable (c.Takes sip))
  | .inviteResponse _ _ _ | .ackOrCancel _ _ | .requestInsideDialog _ _ _ | .responseInsideDialog _ _
  | .sessionRefreshTimer _ | .retransmittedResponse _ _ | .writeCdr _ | .clock _ | .monitor _
  | .resetTrunkStats => inferInstanceAs (Decidable False)

/-- **What an event changes** of what the controller decides with. -/
theorem setup_next (c : Controller) (e : ControllerEvent) :
    (c.next e).setup = (c.setup.asked (c.routeCalls e)).counted (c.TakesCall e) := by
  cases e with
  | requestOutsideDialog sip uuid nta => exact c.setup_requestOutsideDialog sip nta uuid
  | inviteResponse orq sip nta => exact c.setup_inviteResponse orq sip nta
  | ackOrCancel irq method => exact c.setup_ackOrCancel irq method
  | requestInsideDialog leg sip nta => exact c.setup_requestInsideDialog leg sip nta
  | responseInsideDialog orq sip => exact c.setup_responseInsideDialog orq sip
  | sessionRefreshTimer leg => exact c.setup_sessionRefreshTimer leg
  | retransmittedResponse leg sip => exact c.setup_retransmittedResponse leg sip
  | writeCdr connected => rfl
  | clock now => rfl
  | monitor fsMonitor => rfl
  | resetTrunkStats => rfl

/-- Only the routes and the count change. -/
theorem setup_next_frame (c : Controller) (e : ControllerEvent) : ∃ n, (c.next e).setup =
    { c.setup with config := SspConfig.routing.exec c.config (c.routeCalls e), nIterationCount := n } := by
  obtain ⟨n, hn⟩ := (c.setup.asked (c.routeCalls e)).counted_frame (c.TakesCall e)
  exact ⟨n, (c.setup_next e).trans hn⟩

theorem config_next (c : Controller) (e : ControllerEvent) :
    (c.next e).config = SspConfig.routing.exec c.config (c.routeCalls e) := by
  obtain ⟨n, h⟩ := c.setup_next_frame e
  exact congrArg Setup.config h

/-- The calls for routes that the events of a run make. -/
def routeCallsOf : Controller → List ControllerEvent → List RouteCall
  | _, [] => []
  | c, e :: es => c.routeCalls e ++ routeCallsOf (c.next e) es

end Controller

end Ssp
