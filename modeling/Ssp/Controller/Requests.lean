import Ssp.Controller.State

/-!
# New requests

What the controller does with a request that belongs to no dialog
(`processRequestOutsideDialog`). An INVITE of a carrier is an *origination* call and goes
to a FreeSWITCH server; an INVITE of a server is a *termination* call and goes to the
trunk of a carrier.
-/

namespace Ssp

namespace Controller

/-- `determineCallType`, with the carrier of an origination call. -/
def determineCallType (c : Controller) (host : Bytes) : CallType × Bytes :=
  match c.mapInboundCarrier.find? (·.1 = host) with
  | some (_, carrier) => (.origination, carrier)
  -- A server that has reported its address may call out.
  | none => if c.fsMonitor.isAppserver host then (.termination, []) else (.unknown, [])

theorem determineCallType_of_none {c : Controller} {host : Bytes}
    (h : c.mapInboundCarrier.find? (·.1 = host) = none) :
    c.determineCallType host = if c.fsMonitor.isAppserver host then (.termination, []) else (.unknown, []) := by
  rw [determineCallType, h]

/-- A call that is answered with `status` is reported in its record. -/
def reject (c : Controller) (pCdr : ℕ) (status : ℤ) (cause : ReleaseCause) : Controller × ℤ :=
  ((c.setCdr pCdr fun cdr =>
    { cdr with sipStatus := UInt32.ofInt status, releaseCause := cause }).postCdr pCdr, status)

@[simp]
theorem reject_calls (c : Controller) (pCdr : ℕ) (status : ℤ) (cause : ReleaseCause) :
    (c.reject pCdr status cause).1.calls = c.calls := rfl

/-- The record of an origination call. -/
def originationCdr (c : Controller) (sip : Request) (carrier uuid : Bytes) : ℕ × Controller :=
  let (pCdr, c) := c.newCdr { cdrType := .originationRequest }
  (pCdr, c.setCdr pCdr (c.populateOriginationCdr sip carrier uuid))

@[simp]
theorem originationCdr_calls (c : Controller) (sip : Request) (carrier uuid : Bytes) :
    (c.originationCdr sip carrier uuid).2.calls = c.calls := rfl

/-- The server for an origination call: the first one that `getAvailableServers` gives. -/
def selectServer (c : Controller) : Controller × Option FsInstance :=
  let (fsMonitor, results) := c.fsMonitor.getAvailableServers
  ({ c with fsMonitor := fsMonitor },
    results.bind fun results => results.head?.bind fun i => fsMonitor.servers[i]?)

@[simp]
theorem selectServer_calls (c : Controller) : (c.selectServer).1.calls = c.calls := rfl

/-! ## Origination calls -/

/-- The INVITE for the server. -/
def originationInvite (c : Controller) (sip : Request) (carrier uuid : Bytes) (server : FsInstance) :
    OutgoingRequest where
  method := .invite
  url := some (sipUri sip.sipTo.url.user
    (server.strSipAddress ++ ':' :: (toString server.nSipPort.toNat).toList))
  contact := some (generateOutgoingContact c.contactHost c.contactPort (sip.sipContact.getD {}))
  payload := sip.sipPayload
  unknown := sip.sipUnknown.map (fun h => h.1 ++ ": ".toList ++ h.2) ++
    ["X-Originating-Carrier: ".toList ++ (if carrier = [] then "unknown".toList else carrier),
      "X-Originating-Carrier-IP: ".toList ++ sip.contactHost?.getD [],
      xSessionUuid ++ ": ".toList ++ uuid]

/-- The session timer of an origination call, in seconds: `0` for none. -/
def sessionTimerSecs (c : Controller) (sip : Request) : UInt64 :=
  if 0 < c.nOriginationSessionTimer ∧ sip.sipSessionExpires then
    max (sip.sipMinSe.getD 0) c.nOriginationSessionTimer
  else 0

/-- The legs of an origination call and the INVITE to the server: nothing of them is left if
    one of them cannot be had. -/
def createOrigination (s : Calls) (irq : Irq) (nta : Creations) (request : OutgoingRequest) :
    Calls × Option (Leg × Orq × Leg) :=
  match s.createLeg nta.aLeg with
  | (aLeg, s) =>
    if aLeg = .null then (s, none)
    else
      -- The transaction of the A leg is bound to it before the other side is there.
      match (s.bindIncoming irq aLeg).createInvite irq nta.bLeg nta.orq request with
      | (s, none) => (s.destroyLeg aLeg, none)
      | (s, some (orq, bLeg)) => (s, some (aLeg, orq, bLeg))

/-- An origination call goes into the tables. -/
def addOrigination (s : Calls) (irq : Irq) (orq : Orq) (aLeg bLeg : Leg) (p : SipDialogInfo) : Calls :=
  let s := ((s.insertDialogInfo aLeg p).addTransactions irq orq).addDialogs aLeg bLeg
  { s with callType := Function.update s.callType aLeg .origination }

/-- `processOriginationRequest`, with the server for the call. -/
def originate (c : Controller) (irq : Irq) (sip : Request) (carrier uuid : Bytes) (pCdr : ℕ)
    (server : FsInstance) (nta : Creations) : Controller × ℤ :=
  match createOrigination c.calls irq nta (c.originationInvite sip carrier uuid server) with
  -- The record is posted with the final response, or when the INVITE is sent.
  | (s, none) => (c.withCalls s).reject pCdr 503 .callRejectedDueToSystemError
  | (s, some (aLeg, orq, bLeg)) =>
    let c := (c.withCalls s).setCdr pCdr fun cdr =>
      { cdr with blegCallId := nta.callId, fsAddress := server.strSipAddress }
    let p : SipDialogInfo :=
      { leg := aLeg, bOrigination := true, nSessionTimer := c.sessionTimerSecs sip, cdr := some pCdr }
    ((c.withCalls (addOrigination c.calls irq orq aLeg bLeg p)).postCdr pCdr, 0)

/-- `processOriginationRequest`. -/
def processOriginationRequest (c : Controller) (irq : Irq) (sip : Request) (carrier uuid : Bytes)
    (nta : Creations) : Controller × ℤ :=
  let (pCdr, c) := c.originationCdr sip carrier uuid
  match c.selectServer with
  | (c, none) => c.reject pCdr 486 .callRejectedDueToSystemError
  | (c, some server) => c.originate irq sip carrier uuid pCdr server nta

/-! ## Termination calls -/

/-- The INVITE for a trunk. -/
def terminationInvite (a : TerminationAttempt) : OutgoingRequest where
  method := .invite
  url := some a.url
  contact := some a.contact
  payload := a.sip.sipPayload
  unknown := [a.pChargeInfoHeader]

/-- What nta grants for the INVITE of an attempt: it makes no header of an empty text, and no
    transaction for a request with such a header. -/
def orqGranted (nta : Creations) (a : TerminationAttempt) : Bool := nta.orq && !a.pChargeInfoHeader.isEmpty

/-- nta grants the leg and the transaction of the INVITE for an attempt. -/
def GrantsInvite (nta : Creations) (a : TerminationAttempt) : Prop :=
  nta.bLeg = true ∧ nta.orq = true ∧ a.pChargeInfoHeader ≠ []

instance (nta : Creations) (a : TerminationAttempt) : Decidable (GrantsInvite nta a) :=
  inferInstanceAs (Decidable (_ ∧ _ ∧ _))

theorem orqGranted_iff {nta : Creations} {a : TerminationAttempt} :
    orqGranted nta a = true ↔ nta.orq = true ∧ a.pChargeInfoHeader ≠ [] := by
  simp [orqGranted]

theorem grantsInvite_iff {a : TerminationAttempt} (h : a.pChargeInfoHeader ≠ []) (nta : Creations) :
    GrantsInvite nta a ↔ nta.bLeg = true ∧ nta.orq = true := by
  simp [GrantsInvite, h]

/-- `generateTerminationRequest`, for the attempt at an address: the transaction and its leg. -/
def generateTerminationRequest (c : Controller) (t : ℕ) (irq : Irq) (nta : Creations) :
    Controller × Option (Orq × Leg) :=
  match c.attempts[t]? with
  | none => (c, none)
  | some a =>
    match c.calls.createInvite irq nta.bLeg (orqGranted nta a) (terminationInvite a) with
    | (s, none) => (c.withCalls s, none)
    | (s, some (orq, bLeg)) =>
      let c := (c.withCalls s).setCdr a.cdr fun cdr => { cdr with dlegCallId := nta.callId }
      (c.countAttempt a.sipTrunk a.carrier, some (orq, bLeg))

/-- The first route of a call: the one for anonymous calls, if there is one and the call is
    anonymous, or the next one. -/
def firstRoute (c : Controller) (sip : Request) : Option (Route × SspConfig) :=
  let carrier := c.config.strAnonymousCallRoutingCarrier
  let anonymous :=
    if carrier ≠ [] ∧ sip.isAnonymousCall then c.config.getTerminationRouteForCarrier carrier
    else none
  match anonymous with
  | some route => some route
  | none => c.config.getTerminationRoute

/-- The first route of a call has a charge number. Without one, its INVITE has no P-Charge-Info header. -/
def HasChargedRoute (c : Controller) (sip : Request) : Prop := ∃ p ∈ c.firstRoute sip, p.1.chargeNumber ≠ []

instance (c : Controller) (sip : Request) : Decidable (c.HasChargedRoute sip) :=
  inferInstanceAs (Decidable (∃ p ∈ c.firstRoute sip, p.1.chargeNumber ≠ []))

/-- The attempt of a new termination call, with its record. -/
def newAttempt (c : Controller) (sip : Request) (route : Route) : ℕ × Controller :=
  let address := route.trunk.text
  let uuid := (sip.findCustomHeaderValue xSessionUuid).getD []
  let avokeBrowser := (sip.findCustomHeaderValue xAvokeBrowser).getD []
  let avokeCallId := (sip.findCustomHeaderValue xAvokeCallId).getD []
  let (pCdr, c) := c.newCdr { cdrType := .terminationAttempt }
  let c := c.setCdr pCdr
    (c.populateTerminationCdr sip route.carrier address avokeBrowser avokeCallId uuid)
  let t : TerminationAttempt :=
    { sip := sip
      strFrom := generateOutgoingFrom c.contactHost c.contactPort sip.sipFrom
      strTo := generateOutgoingTo c.contactHost c.contactPort sip.sipTo
      contact := generateOutgoingContact c.contactHost c.contactPort (sip.sipContact.getD {})
      pChargeInfoHeader :=
        if route.chargeNumber = [] then [] else pChargeInfo route.chargeNumber address
      url := sipUri sip.sipTo.url.user address
      carrier := route.carrier
      sipTrunk := address
      cdr := pCdr }
  (c.attempts.length, { c with attempts := c.attempts ++ [t] })

@[simp]
theorem newAttempt_calls (c : Controller) (sip : Request) (route : Route) :
    (c.newAttempt sip route).2.calls = c.calls := rfl

/-- The attempt of a new call. -/
theorem newAttempt_attempt (c : Controller) (sip : Request) (route : Route) :
    ∃ a, (c.newAttempt sip route).2.attempts[(c.newAttempt sip route).1]? = some a ∧
      a.url = sipUri sip.sipTo.url.user route.trunk.text ∧
      a.pChargeInfoHeader =
        if route.chargeNumber = [] then [] else pChargeInfo route.chargeNumber route.trunk.text :=
  ⟨_, List.getElem?_concat_length, rfl, rfl⟩

/-- nta takes the INVITE of a new call only if its route has a charge number. -/
theorem grantsInvite_first {a : TerminationAttempt} {route : Route} (h : a.pChargeInfoHeader =
      if route.chargeNumber = [] then [] else pChargeInfo route.chargeNumber route.trunk.text) (nta : Creations) :
    GrantsInvite nta a ↔ route.chargeNumber ≠ [] ∧ nta.bLeg = true ∧ nta.orq = true := by
  unfold GrantsInvite
  rw [h]
  by_cases hnumber : route.chargeNumber = []
  · simp [hnumber]
  · simp [hnumber, pChargeInfo_ne_nil]

/-- A termination call goes into the tables. -/
def addTermination (s : Calls) (irq : Irq) (orq : Orq) (aLeg bLeg : Leg) (t : ℕ) (p : SipDialogInfo) :
    Calls :=
  let s := (s.insertAttempt orq t).insertDialogInfo bLeg p
  let s := (s.addTransactions irq orq).addDialogs aLeg bLeg
  { s with callType := Function.update s.callType aLeg .termination }

/-- `processTerminationRequest`, with the attempt and the A leg for the call. -/
def terminateOn (c : Controller) (irq : Irq) (aLeg : Leg) (sip : Request) (t : ℕ) (nta : Creations) :
    Controller × ℤ :=
  match c.generateTerminationRequest t irq nta with
  | (c, none) => (c.withCalls (c.calls.destroyLeg aLeg), 503)
  | (c, some (orq, bLeg)) =>
    let c := c.require .requestPayload sip.sipPayload.isSome
    let p : SipDialogInfo :=
      { leg := bLeg, bOrigination := false, localSdp := sip.sipPayload.getD [] }
    (c.withCalls (addTermination c.calls irq orq aLeg bLeg t p), 0)

/-- `processTerminationRequest`, with the attempt for the call. Nobody asks whether there is
    an A leg. -/
def terminate (c : Controller) (irq : Irq) (sip : Request) (t : ℕ) (nta : Creations) :
    Controller × ℤ :=
  -- A null leg is bound and put into the tables like any other.
  match c.calls.createLeg nta.aLeg with
  | (aLeg, s) => (c.withCalls (s.bindIncoming irq aLeg)).terminateOn irq aLeg sip t nta

/-- `processTerminationRequest`. -/
def processTerminationRequest (c : Controller) (irq : Irq) (sip : Request) (nta : Creations) :
    Controller × ℤ :=
  match c.firstRoute sip with
  -- No record: nothing has been attempted.
  | none => (c, 480)
  | some (route, config) =>
    let (t, c) := newAttempt { c with config := config } sip route
    c.terminate irq sip t nta

/-! ## All requests -/

/-- `m_nIterationCount` counts calls down to `0`, unless it is negative. -/
def countDown (r : Controller × ℤ) : Controller × ℤ :=
  (if 0 < r.1.nIterationCount then { r.1 with nIterationCount := r.1.nIterationCount - 1 } else r.1,
    r.2)

@[simp]
theorem countDown_calls (r : Controller × ℤ) : (countDown r).1.calls = r.1.calls := by
  unfold countDown
  split_ifs <;> rfl

/-- The INVITE case of `processRequestOutsideDialog`. -/
def processInvite (c : Controller) (irq : Irq) (sip : Request) (uuid : Bytes) (nta : Creations) :
    Controller × ℤ :=
  let c := c.require .requestContactHost sip.contactHost?.isSome
  match c.determineCallType (sip.contactHost?.getD []) with
  | (.origination, carrier) =>
    -- Offline, or all calls that were asked for have been made.
    if !c.bIsActive ∨ c.nIterationCount = 0 then
      let (pCdr, c) := c.originationCdr sip carrier uuid
      c.reject pCdr 503 .callRejectedDueToBeingOffline
    else countDown (c.processOriginationRequest irq sip carrier uuid nta)
  | (.termination, _) => countDown (c.processTerminationRequest irq sip nta)
  | (.unknown, carrier) =>
    let (pCdr, c) := c.originationCdr sip carrier uuid
    c.reject pCdr 403 .callRejectedDueToUnauthorizedPeer

/-- `processRequestOutsideDialog`: the status that it returns to nta is `0` where there is
    nothing to answer yet. -/
def processRequestOutsideDialog (c : Controller) (irq : Irq) (sip : Request) (uuid : Bytes)
    (nta : Creations) : Controller × ℤ :=
  if sip.validateSipMessage ≠ 0 then (c, sip.validateSipMessage)
  else
    match sip.method with
    | .options =>
      if !c.bIsActive then (c.withCalls (c.calls.destroyIncoming irq), 0)
      else
        let c := c.require .requestContactHost sip.contactHost?.isSome
        if (c.determineCallType (sip.contactHost?.getD [])).1 = .origination then (c, 200)
        else (c, 403)
    | .ack => (c.withCalls (c.calls.destroyIncoming irq), 0)
    | .invite => c.processInvite irq sip uuid nta
    | .bye => (c, 481)
    | .cancel | .other _ => (c, 501)

/-- A request outside of a dialog, from nta's `leg_recv` to its end. -/
def requestOutsideDialog (c : Controller) (sip : Request) (uuid : Bytes) (nta : Creations) :
    Controller :=
  let irq : Irq := ⟨c.calls.next⟩
  let c := c.withCalls (c.calls.receive .null)
  let (c, status) := c.processRequestOutsideDialog irq sip uuid nta
  c.withCalls (c.calls.legRecv irq sip.method status)

end Controller

end Ssp
