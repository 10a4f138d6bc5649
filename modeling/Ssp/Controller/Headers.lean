import Ssp.Controller.Outcome
import Ssp.Controller.Relay

/-!
# Headers that may be absent

A message comes from the other side, and the stack only makes sure that it has From, To,
Call-ID and CSeq. Contact, the parts of its URL, the user of To and the body may each be
absent; the code reads some of them without asking.

For requests outside of a dialog there is `validateSipMessage`. It looks at an INVITE
only, and not at the body. `requestHeaders_iff` says that nothing absent is used exactly
if an OPTIONS has a Contact header with a host, and the INVITE of a termination call that
is sent on has a body.

For responses there is no such check. `responseHeaders_iff` says for each of the three
callbacks what has to be there.
-/

namespace Ssp

/-- A part of a request that may be absent. -/
inductive RequestPart
  | contact
  | contactHost
  | toUser
  | payload
  deriving DecidableEq

def Request.has (sip : Request) : RequestPart → Bool
  | .contact => sip.sipContact.isSome
  | .contactHost => sip.contactHost?.isSome
  | .toUser => sip.sipTo.url.user.isSome
  | .payload => sip.sipPayload.isSome

/-- What an INVITE has that `validateSipMessage` accepts. -/
theorem Request.has_of_validated {sip : Request} (h : sip.validateSipMessage = 0) (hm : sip.method = .invite) :
    sip.has .contact = true ∧ sip.has .contactHost = true ∧ sip.has .toUser = true := by
  unfold validateSipMessage at h
  have hcontact : sip.contactHost? ≠ none := fun hnone => by simp [hm, hnone] at h
  have hto : sip.sipTo.url.user ≠ none := fun hnone => by
    -- The check for Contact comes first and has passed.
    rw [if_neg (fun hn => hcontact hn.2), if_pos ⟨hm, hnone⟩] at h
    cases h
  have hhost : sip.contactHost?.isSome = true := Option.isSome_iff_ne_none.2 hcontact
  exact ⟨Option.isSome_of_isSome_bind hhost, hhost, Option.isSome_iff_ne_none.2 hto⟩

namespace Controller

/-! ## What is used of a request -/

/-- `determineCallType` makes a string of the host. -/
def determineCallTypeUses : List RequestPart := [.contact, .contactHost]

/-- `populateOriginationCdr` asks for the parts of the URLs, but not for the Contact header. -/
def populateOriginationCdrUses : List RequestPart := [.contact]

/-- `populateTerminationCdr` does not ask. -/
def populateTerminationCdrUses : List RequestPart := [.toUser]

/-- `generateOutgoingContact`. -/
def generateOutgoingContactUses : List RequestPart := [.contact]

/-- `processOriginationRequest`: the request URI, the Contact header, and the host in
    X-Originating-Carrier-IP. -/
def originationUses (c : Controller) (nta : Creations) : List RequestPart :=
  populateOriginationCdrUses ++
    match c.selectServer.2 with
    | none => []
    | some _ =>
      .toUser ::
        if nta.aLeg then
          generateOutgoingContactUses ++ if nta.bLeg then [.contact, .contactHost] else []
        else []

/-- `processTerminationRequest`: the request URI, the Contact header, and the body for the
    `SipDialogInfo`. -/
def terminationUses (c : Controller) (sip : Request) (nta : Creations) : List RequestPart :=
  match c.firstRoute sip with
  | none => []
  | some (route, _) =>
    populateTerminationCdrUses ++ .toUser :: generateOutgoingContactUses ++
      if nta.bLeg && nta.orq && !route.chargeNumber.isEmpty then [.payload] else []

/-- The INVITE case of `processRequestOutsideDialog`. The host of an unknown caller is logged. -/
def inviteUses (c : Controller) (sip : Request) (nta : Creations) : List RequestPart :=
  determineCallTypeUses ++
    match (c.determineCallType (sip.contactHost?.getD [])).1 with
    | .origination =>
      if !c.bIsActive ∨ c.nIterationCount = 0 then populateOriginationCdrUses
      else c.originationUses nta
    | .termination => c.terminationUses sip nta
    | .unknown => .contact :: .contactHost :: populateOriginationCdrUses

/-- `processRequestOutsideDialog`: what it uses of a request, where it does not ask first. -/
def requestUses (c : Controller) (sip : Request) (nta : Creations) : List RequestPart :=
  if sip.validateSipMessage ≠ 0 then []
  else
    match sip.method with
    | .options => if !c.bIsActive then [] else determineCallTypeUses
    | .invite => c.inviteUses sip nta
    | .ack | .bye | .cancel | .other _ => []

/-- An OPTIONS that is answered has a host in its Contact header, and the INVITE of a
    termination call that is sent on has a body. -/
def RequestSupplied (c : Controller) (sip : Request) (nta : Creations) : Prop :=
  (sip.method = .options → c.bIsActive = true → sip.contactHost? ≠ none) ∧
    (sip.method = .invite → (c.determineCallType (sip.contactHost?.getD [])).1 = .termination →
      c.HasChargedRoute sip → nta.bLeg = true → nta.orq = true → sip.sipPayload ≠ none)

section

variable {c : Controller} {sip : Request}

/-- Only the body of an INVITE is not asked for. -/
theorem inviteUses_iff (h : sip.validateSipMessage = 0) (hm : sip.method = .invite) (nta : Creations) :
    (∀ part ∈ c.inviteUses sip nta, sip.has part = true) ↔
      ((c.determineCallType (sip.contactHost?.getD [])).1 = .termination → c.HasChargedRoute sip →
        nta.bLeg = true → nta.orq = true → sip.sipPayload ≠ none) := by
  obtain ⟨hcontact, hhost, hto⟩ := sip.has_of_validated h hm
  unfold inviteUses determineCallTypeUses
  cases (c.determineCallType (sip.contactHost?.getD [])).1 with
  | origination =>
    refine iff_of_true (fun part hpart => ?_) (fun hc => by cases hc)
    -- Whatever the servers and nta do, the body is not among the parts.
    have hmem : part = .contact ∨ part = .contactHost ∨ part = .toUser := by
      revert hpart
      unfold originationUses populateOriginationCdrUses generateOutgoingContactUses
      cases c.selectServer.2 <;> cases nta.aLeg <;> cases nta.bLeg <;> simp only <;> split_ifs <;>
        simp <;> tauto
    rcases hmem with rfl | rfl | rfl
    · exact hcontact
    · exact hhost
    · exact hto
  | termination =>
    unfold terminationUses populateTerminationCdrUses generateOutgoingContactUses HasChargedRoute
    rcases c.firstRoute sip with _ | ⟨route, config⟩
    · simp [hcontact, hhost]
    · by_cases hnumber : route.chargeNumber = []
      · simp [hcontact, hhost, hto, hnumber]
      · cases nta.bLeg <;> cases nta.orq <;> simp [hcontact, hhost, hto, hnumber]
        -- Only with both grants is the body among the parts.
        exact Option.isSome_iff_ne_none
  | unknown => simp [populateOriginationCdrUses, hcontact, hhost]

theorem requestUses_iff (h : sip.validateSipMessage = 0) (nta : Creations) :
    (∀ part ∈ c.requestUses sip nta, sip.has part = true) ↔ c.RequestSupplied sip nta := by
  unfold requestUses RequestSupplied
  rw [if_neg (not_not.2 h)]
  cases hm : sip.method with
  | invite => simpa using inviteUses_iff h hm nta
  | options =>
    cases c.bIsActive with
    | false => simp
    | true =>
      simp only [determineCallTypeUses, Bool.not_true, Bool.false_eq_true, if_false, List.forall_mem_cons,
        List.not_mem_nil, false_implies, implies_true, and_true, true_implies, reduceCtorEq]
      constructor
      · exact fun hparts => Option.isSome_iff_ne_none.1 hparts.2
      · intro hne
        have hhost : sip.contactHost?.isSome = true := Option.isSome_iff_ne_none.2 hne
        exact ⟨Option.isSome_of_isSome_bind hhost, hhost⟩
  | ack => simp
  | bye => simp
  | cancel => simp
  | other name => simp

/-! ### What the handlers come to use -/

theorem absent_require_iff (c : Controller) (a : Absent) (there : Bool) :
    (c.require a there).absent = c.absent ↔ there = true := by
  rw [absent_require]
  cases there <;> simp

theorem absent_countDown (r : Controller × ℤ) : (countDown r).1.absent = r.1.absent := by
  unfold countDown
  split_ifs <;> rfl

theorem absent_processOriginationRequest (c : Controller) (irq : Irq) (sip : Request) (carrier uuid : Bytes)
    (nta : Creations) : (c.processOriginationRequest irq sip carrier uuid nta).1.absent = c.absent := by
  unfold processOriginationRequest selectServer
  dsimp only
  split
  next c' heq => rw [← (Prod.mk.inj heq).1]; rfl
  next c' server heq =>
    rw [← (Prod.mk.inj heq).1]
    unfold originate
    split <;> rfl

/-- The body is used when the INVITE has been sent on. -/
theorem absent_terminateOn_iff {c : Controller} (hs : 0 < c.calls.next) {t : ℕ} {a : TerminationAttempt}
    (ha : c.attempts[t]? = some a) (irq : Irq) (aLeg : Leg) (sip : Request) (nta : Creations) :
    (c.terminateOn irq aLeg sip t nta).1.absent = c.absent ↔ (GrantsInvite nta a → sip.sipPayload ≠ none) := by
  have habsent := c.absent_generateTerminationRequest t irq nta
  unfold terminateOn
  rcases generateTerminationRequest_cases hs ha irq nta with ⟨hnta, n, -, heq⟩ | ⟨hnta, c', heq, -⟩
  · rw [heq] at habsent ⊢
    exact iff_of_true habsent fun h => absurd h hnta
  · rw [heq] at habsent ⊢
    rw [absent_withCalls, ← show c'.absent = c.absent from habsent, absent_require_iff, Option.isSome_iff_ne_none]
    exact ⟨fun h _ => h, fun h => h hnta⟩

theorem absent_terminate_iff {c : Controller} (hs : 0 < c.calls.next) {t : ℕ} {a : TerminationAttempt}
    (ha : c.attempts[t]? = some a) (irq : Irq) (sip : Request) (nta : Creations) :
    (c.terminate irq sip t nta).1.absent = c.absent ↔ (GrantsInvite nta a → sip.sipPayload ≠ none) := by
  unfold terminate
  rcases hleg : Calls.createLeg c.calls nta.aLeg with ⟨aLeg, s⟩
  -- A leg takes a new address, so there are still no objects at `NULL`.
  have hs' : 0 < s.next := by
    have hnext := congrArg (fun r => r.2.next) hleg
    unfold Calls.createLeg at hnext
    dsimp only at hnext
    rw [← hnext]
    split_ifs
    · exact Nat.succ_pos _
    · exact hs
  exact absent_terminateOn_iff (c := c.withCalls (s.bindIncoming irq aLeg)) hs' ha irq aLeg sip nta

/-- There is a route, and it has a charge number. -/
theorem absent_processTerminationRequest_iff {c : Controller} (hs : 0 < c.calls.next) (irq : Irq)
    (sip : Request) (nta : Creations) :
    (c.processTerminationRequest irq sip nta).1.absent = c.absent ↔
      (c.HasChargedRoute sip → nta.bLeg = true → nta.orq = true → sip.sipPayload ≠ none) := by
  unfold processTerminationRequest HasChargedRoute
  rcases c.firstRoute sip with _ | ⟨route, config⟩
  · simp
  · obtain ⟨a, ha, -, hheader⟩ := newAttempt_attempt { c with config := config } sip route
    refine (absent_terminate_iff (c := (newAttempt { c with config := config } sip route).2) hs ha irq sip
      nta).trans ?_
    rw [grantsInvite_first hheader]
    simp

theorem absent_requestOutsideDialog_iff (h : sip.validateSipMessage = 0) (uuid : Bytes) (nta : Creations) :
    (c.requestOutsideDialog sip uuid nta).absent = c.absent ↔ c.RequestSupplied sip nta := by
  unfold requestOutsideDialog RequestSupplied
  change (processRequestOutsideDialog _ _ sip uuid nta).1.absent = _ ↔ _
  unfold processRequestOutsideDialog
  rw [if_neg (not_not.2 h)]
  cases hm : sip.method with
  | invite =>
    obtain ⟨-, hhost, -⟩ := sip.has_of_validated h hm
    -- `validateSipMessage` has asked for the host that is noted here.
    have hthere : require (c.withCalls (c.calls.receive .null)) .requestContactHost sip.contactHost?.isSome =
        c.withCalls (c.calls.receive .null) := by
      rw [show sip.contactHost?.isSome = true from hhost]
      rfl
    have htype : (c.withCalls (c.calls.receive .null)).determineCallType (sip.contactHost?.getD []) =
        c.determineCallType (sip.contactHost?.getD []) := rfl
    simp only [processInvite, hthere, htype]
    rcases c.determineCallType (sip.contactHost?.getD []) with ⟨_ | _ | _, carrier⟩
    · refine iff_of_true ?_ (by simp)
      dsimp only
      split_ifs
      · rfl
      · rw [absent_countDown]
        exact absent_processOriginationRequest _ _ _ _ _ _
    · dsimp only
      rw [absent_countDown]
      refine (absent_processTerminationRequest_iff (c := c.withCalls (c.calls.receive .null))
        (Nat.succ_pos _) _ sip nta).trans ?_
      simp only [reduceCtorEq, false_implies, true_implies, true_and]
      rfl
    · exact iff_of_true rfl (by simp)
  | options =>
    have hactive : (c.withCalls (c.calls.receive .null)).bIsActive = c.bIsActive := rfl
    dsimp only
    rw [hactive]
    cases c.bIsActive with
    | false => exact iff_of_true rfl (by simp)
    | true =>
      -- For a carrier, a server and anybody else, only the host is noted.
      have hpart : ∀ r : Controller × ℤ,
          r.1 = require (c.withCalls (c.calls.receive .null)) .requestContactHost sip.contactHost?.isSome →
          (r.1.absent = c.absent ↔ sip.contactHost? ≠ none) := by
        intro r hr
        rw [hr, ← Option.isSome_iff_ne_none]
        exact absent_require_iff (c.withCalls (c.calls.receive .null)) _ _
      simp only [Bool.not_true, Bool.false_eq_true, if_false, true_implies, reduceCtorEq, false_implies, and_true]
      refine hpart _ ?_
      split_ifs <;> rfl
  | ack => exact iff_of_true rfl (by simp)
  | bye => exact iff_of_true rfl (by simp)
  | cancel => exact iff_of_true rfl (by simp)
  | other name => exact iff_of_true rfl (by simp)

/-- **Requests outside of a dialog**: nothing that is absent is used of a request that
    `validateSipMessage` accepts exactly if what it does not ask for is there. -/
theorem requestHeaders_iff (h : sip.validateSipMessage = 0) (uuid : Bytes) (nta : Creations) :
    ((∀ part ∈ c.requestUses sip nta, sip.has part = true) ∧
      (c.requestOutsideDialog sip uuid nta).absent = c.absent) ↔ c.RequestSupplied sip nta := by
  rw [requestUses_iff h, absent_requestOutsideDialog_iff h]
  exact and_self_iff

end

/-- An INVITE without a body is all right if it comes from a carrier. -/
theorem requestHeaders_exampleInvite :
    (∀ part ∈ exampleStart.requestUses exampleInvite {}, exampleInvite.has part = true) ∧
      (exampleStart.requestOutsideDialog exampleInvite ['u'] {}).absent = [] := by
  have hvalid : exampleInvite.validateSipMessage = 0 := by decide
  exact (requestHeaders_iff (c := exampleStart) hvalid ['u'] {}).2
    ⟨by decide, fun _ htype => absurd htype (by decide)⟩

/-- An OPTIONS without a Contact header is accepted, and its host is used. -/
theorem options_not_requestHeaders :
    ¬∀ (c : Controller) (sip : Request) (uuid : Bytes) (nta : Creations), machine.Reachable c →
      sip.validateSipMessage = 0 → (∀ part ∈ c.requestUses sip nta, sip.has part = true) ∧
        (c.requestOutsideDialog sip uuid nta).absent = c.absent := by
  intro h
  obtain ⟨-, habsent⟩ := h exampleStart { method := .options } [] {} (.init exampleStart_initial) (by decide)
  exact absurd habsent (by decide)

/-! ## What is used of a response -/

/-- The response to an INVITE that finds its call: an answer has a Contact header, and a body if
    it is for an origination call. A redirect of a termination call has a Contact header, too. -/
def InviteResponseSupplied (c : Controller) (orq : Orq) (sip : Response) : Prop :=
  c.Reached orq →
    (sip.status = 200 → sip.sipContact ≠ none) ∧
      match c.attemptOf orq with
      | none => sip.status = 200 →
        c.calls.mapDialogInfo (c.calls.legFromIncoming (c.calls.getAssociatedIncoming orq)) ≠ none →
          sip.sipPayload ≠ none
      | some _ => 300 ≤ sip.status ∧ sip.status ≤ 399 → sip.sipContact ≠ none

/-- The response to a request inside of a dialog: the answer to a re-INVITE has a Contact header. -/
def ResponseSupplied (c : Controller) (orq : Orq) (sip : Response) : Prop :=
  c.calls.getAssociatedIncoming orq ≠ .null → sip.cseqMethod = .invite → sip.status = 200 →
    c.calls.legFromOutgoing orq ≠ .null → sip.sipContact ≠ none

/-- A retransmitted answer has a Contact header. -/
def RetransmissionSupplied (c : Controller) (leg : Leg) (sip : Response) : Prop :=
  sip.cseqMethod = .invite → sip.status = 200 → c.calls.liveLeg leg ≠ .null → sip.sipContact ≠ none

section

variable (c : Controller)

theorem absent_postFinalResponse (p : ℕ) (cdrType : CdrEvent) (status : ℤ) :
    (c.postFinalResponse p cdrType status).absent = c.absent := by
  unfold postFinalResponse
  split <;> rfl

theorem absent_crankback (t : ℕ) (url carrier sipTrunk header : Bytes) :
    (c.crankback t url carrier sipTrunk header).absent = c.absent := by
  unfold crankback
  split <;> rfl

theorem absent_retry (t : ℕ) (irq : Irq) (orq : Orq) (bLeg : Leg) (nta : Creations) :
    (c.retry t irq orq bLeg nta).controller.absent = c.absent := by
  have habsent := c.absent_generateTerminationRequest t irq nta
  unfold retry
  rcases hgen : c.generateTerminationRequest t irq nta with ⟨c', _ | ⟨orqNew, bLegNew⟩⟩ <;>
    rw [hgen] at habsent <;> exact habsent

theorem absent_conclude (d : Decision) (irq : Irq) (orq : Orq) (bLeg : Leg) (t pCdr : Option ℕ)
    (sip : Response) : (d.conclude irq orq bLeg t pCdr sip).absent = d.controller.absent := by
  unfold Decision.conclude reportFinalResponse
  dsimp only
  split
  · cases d.bProxyResponse <;> cases d.bClearTransaction <;> cases d.bDestroyLegs <;> rfl
  · split_ifs <;> first | rfl | exact absent_postFinalResponse _ _ _ _

/-- Two things are used. -/
theorem uses_both_iff {l : List Absent} {a a' : Absent} {there there' : Bool} :
    (if there' then (if there then l else a :: l) else a' :: (if there then l else a :: l)) = l ↔
      there = true ∧ there' = true := by
  have hlength : a' :: a :: l ≠ l := fun h => by
    have := congrArg List.length h
    simp at this
    omega
  cases there <;> cases there' <;> simp [hlength]

theorem absent_processAnswer_iff (aLeg bLeg : Leg) (pDialog : Option SipDialogInfo) (sip : Response)
    (nta : Creations) :
    (c.processAnswer aLeg bLeg pDialog sip nta).controller.absent = c.absent ↔
      sip.sipContact ≠ none ∧ (pDialog ≠ none → sip.sipPayload ≠ none) := by
  unfold processAnswer
  rw [← Option.isSome_iff_ne_none]
  cases pDialog with
  | none =>
    simp only [absent_withCalls, absent_require_iff, ne_eq, not_true_eq_false, false_implies, and_true]
  | some d =>
    have htimer (c' : Controller) : (c'.startSessionTimer aLeg d nta).absent = c'.absent := by
      unfold startSessionTimer
      split_ifs <;> rfl
    dsimp only
    simp only [htimer, absent_withCalls, absent_require]
    rw [uses_both_iff, ← Option.isSome_iff_ne_none (o := sip.sipPayload)]
    simp only [ne_eq, reduceCtorEq, not_false_eq_true, true_implies]

theorem absent_processRedirect_iff (t : ℕ) (irq : Irq) (orq : Orq) (bLeg : Leg) (sip : Response)
    (nta : Creations) :
    (c.processRedirect t irq orq bLeg sip nta).controller.absent = c.absent ↔ sip.sipContact ≠ none := by
  unfold processRedirect
  rw [absent_retry, ← Option.isSome_iff_ne_none]
  exact absent_require_iff c _ _

/-- The next carrier takes the user of To as it is. -/
theorem absent_processCrankback (t : ℕ) (a : TerminationAttempt) (irq : Irq) (orq : Orq) (bLeg : Leg)
    (sip : Response) (nta : Creations) :
    (c.processCrankback t a irq orq bLeg sip nta).controller.absent = c.absent := by
  unfold processCrankback
  split_ifs
  · rcases c.config.getTerminationRouteForAltCarrier a.carrier with _ | ⟨route, config⟩
    · rfl
    · dsimp only
      rw [absent_retry, absent_crankback, absent_postFinalResponse]
  · rfl

theorem absent_processFinalResponse_iff (irq : Irq) (orq : Orq) (aLeg bLeg : Leg)
    (t : Option (ℕ × TerminationAttempt)) (pDialog : Option SipDialogInfo) (sip : Response) (nta : Creations) :
    (c.processFinalResponse irq orq aLeg bLeg t pDialog sip nta).controller.absent = c.absent ↔
      (sip.status = 200 → sip.sipContact ≠ none ∧ (pDialog ≠ none → sip.sipPayload ≠ none)) ∧
        (t ≠ none → 300 ≤ sip.status ∧ sip.status ≤ 399 → sip.sipContact ≠ none) := by
  unfold processFinalResponse
  by_cases hstatus : sip.status = 200
  · rw [if_pos hstatus, absent_processAnswer_iff]
    simp only [hstatus, true_implies, iff_self_and]
    exact fun _ _ h => absurd h (by omega)
  · rw [if_neg hstatus]
    simp only [hstatus, false_implies, true_and]
    rcases t with _ | ⟨t, a⟩
    · exact iff_of_true rfl (by simp)
    · simp only [ne_eq, reduceCtorEq, not_false_eq_true, true_implies]
      split_ifs with hredirect
      · rw [absent_processRedirect_iff]
        exact ⟨fun h _ => h, fun h => h hredirect⟩
      · exact iff_of_true (c.absent_processCrankback t a irq orq bLeg sip nta) fun h => absurd h hredirect
      · exact iff_of_true rfl fun h => absurd h hredirect

theorem absent_processInviteResponse_iff (irq : Irq) (orq : Orq) (aLeg bLeg : Leg) (sip : Response)
    (nta : Creations) :
    (c.processInviteResponse irq orq aLeg bLeg sip nta).absent = c.absent ↔
      (sip.status = 200 → sip.sipContact ≠ none) ∧
        match c.attemptOf orq with
        | none => sip.status = 200 → c.calls.mapDialogInfo aLeg ≠ none → sip.sipPayload ≠ none
        | some _ => 300 ≤ sip.status ∧ sip.status ≤ 399 → sip.sipContact ≠ none := by
  unfold processInviteResponse
  rw [show ((c.calls.mapTerminationAttempts orq).bind fun t => c.attempts[t]?.map fun a => (t, a)) =
    c.attemptOf orq from rfl]
  dsimp only
  rw [absent_conclude]
  by_cases hfinal : 200 ≤ sip.status
  · rw [if_neg (by omega), if_pos hfinal]
    generalize Option.isSome (if (c.attemptOf orq).isSome = true then _ else _) = holds
    obtain ⟨asserts, stats, heq⟩ := c.reported_frame (c.attemptOf orq) holds sip.status
    rw [heq]
    refine (absent_processFinalResponse_iff { c with asserts := asserts, mapTrunkStats := stats } irq orq aLeg
      bLeg (c.attemptOf orq) _ sip nta).trans ?_
    cases c.attemptOf orq with
    | none => simp [forall_and]
    | some p => simp
  · -- A provisional response is passed on, or not.
    have hcheck (holds : Bool) : (c.check .inviteResponseNoCdr holds).absent = c.absent := by
      obtain ⟨asserts, heq⟩ := check_frame c .inviteResponseNoCdr holds
      rw [heq]
    refine iff_of_true ?_ ⟨fun h => absurd h (by omega), ?_⟩
    · rw [if_neg hfinal]
      split_ifs <;> exact hcheck _
    · cases c.attemptOf orq with
      | none => exact fun h => absurd h (by omega)
      | some p => exact fun h => absurd h (by omega)

theorem absent_inviteResponse_iff (orq : Orq) (sip : Response) (nta : Creations) :
    (c.processInviteResponseInsideDialog orq sip nta).absent = c.absent ↔ c.InviteResponseSupplied orq sip := by
  unfold InviteResponseSupplied
  by_cases hreached : c.Reached orq
  · rw [inviteResponse_of_reached hreached, absent_processInviteResponse_iff]
    simp only [hreached, true_implies]
  · obtain ⟨_, heq⟩ := inviteResponse_of_not_reached hreached sip nta
    rw [heq]
    exact iff_of_true rfl fun h => absurd h hreached

theorem absent_acknowledge_iff (orq : Orq) (sip : Response) :
    (c.acknowledge orq sip).absent = c.absent ↔
      (sip.cseqMethod = .invite → sip.status = 200 → c.calls.legFromOutgoing orq ≠ .null →
        sip.sipContact ≠ none) := by
  unfold acknowledge
  dsimp only
  split_ifs with hanswer hleg
  · exact iff_of_true rfl fun _ _ h => absurd hleg h
  · rw [absent_withCalls, absent_require_iff, Option.isSome_iff_ne_none]
    exact ⟨fun h _ _ _ => h, fun h => h hanswer.1 hanswer.2 hleg⟩
  · exact iff_of_true rfl fun hm hs => absurd ⟨hm, hs⟩ hanswer

theorem absent_responseInsideDialog_iff (orq : Orq) (sip : Response) :
    (c.processResponseInsideDialog orq sip).absent = c.absent ↔ c.ResponseSupplied orq sip := by
  unfold processResponseInsideDialog ResponseSupplied
  dsimp only
  by_cases hirq : c.calls.getAssociatedIncoming orq = .null
  · rw [if_pos hirq]
    exact iff_of_true rfl fun h => absurd hirq h
  · rw [if_neg hirq]
    have hclear (c' : Controller) : (if 200 ≤ sip.status then c'.withCalls (c'.calls.clearTransaction orq)
        else c').absent = c'.absent := by
      split_ifs <;> rfl
    rw [hclear]
    refine (absent_acknowledge_iff _ orq sip).trans ?_
    simp only [ne_eq, hirq, not_false_eq_true, true_implies]
    rfl

theorem absent_retransmittedResponse_iff (leg : Leg) (sip : Response) :
    (c.processRetransmittedResponse leg sip).absent = c.absent ↔ c.RetransmissionSupplied leg sip := by
  unfold processRetransmittedResponse RetransmissionSupplied
  split_ifs with h
  · rw [absent_withCalls, absent_require_iff, Option.isSome_iff_ne_none]
    exact ⟨fun hc _ _ _ => hc, fun hc => hc h.2.1 h.1 h.2.2⟩
  · exact iff_of_true rfl fun hm hs hleg => absurd ⟨hs, hm, hleg⟩ h

/-- **Responses**: each of the three callbacks uses nothing that is absent exactly if what it
    does not ask for is there. -/
theorem responseHeaders_iff (sip : Response) :
    (∀ orq nta, (c.processInviteResponseInsideDialog orq sip nta).absent = c.absent ↔
      c.InviteResponseSupplied orq sip) ∧
    (∀ orq, (c.processResponseInsideDialog orq sip).absent = c.absent ↔ c.ResponseSupplied orq sip) ∧
    ∀ leg, (c.processRetransmittedResponse leg sip).absent = c.absent ↔ c.RetransmissionSupplied leg sip :=
  ⟨fun orq nta => c.absent_inviteResponse_iff orq sip nta, fun orq => c.absent_responseInsideDialog_iff orq sip,
    fun leg => c.absent_retransmittedResponse_iff leg sip⟩

end

/-- A 200 without a Contact header. -/
theorem answer_not_responseHeaders :
    ¬∀ (c : Controller) (orq : Orq) (sip : Response) (nta : Creations), machine.Reachable c →
      c.Possible (.inviteResponse orq sip nta) →
      (c.processInviteResponseInsideDialog orq sip nta).absent = c.absent := by
  intro h
  have habsent := h exampleCall ⟨4⟩ { status := 200 } {}
    (.step (.init exampleStart_initial) exampleInviteEvent_enabled) ⟨_, rfl, rfl, rfl⟩
  exact absurd habsent (by decide)

end Controller

end Ssp
