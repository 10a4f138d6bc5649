import Ssp.Controller.Requests

/-!
# Requests and responses of calls

What the controller does with the responses to the INVITE of a call, with a CANCEL of it,
with the requests inside of its dialogs and the responses to them, and when its session
timer expires.

A final response to the INVITE of a termination call is not always passed on: a redirect
goes to the URI in its Contact header, and after a 503 or 480 the next carrier is tried
(a *crankback*). The call then gets a new B leg.
-/

namespace Ssp

namespace Controller

/-! ## Responses to the INVITE -/

/-- What `processInviteResponseInsideDialog` decides. -/
structure Decision where
  controller : Controller
  bClearTransaction : Bool := false
  bDestroyLegs : Bool := false
  bProxyResponse : Bool := true
  /-- Session-Expires, where `bSessionTimer`. -/
  sessionExpires : Option Bytes := none

/-- A final response that is passed on and ends the call. -/
def Decision.fail (c : Controller) : Decision :=
  { controller := c, bClearTransaction := true, bDestroyLegs := true }

/-- A response that is not passed on. -/
def Decision.swallow (c : Controller) : Decision := { controller := c, bProxyResponse := false }

/-- The call goes on with the transaction and the leg that `generateTerminationRequest`
    made. -/
def retry (c : Controller) (t : ℕ) (irq : Irq) (orq : Orq) (outgoingLeg : Leg) (nta : Creations) :
    Decision :=
  match c.generateTerminationRequest t irq nta with
  | (c, none) => .fail c
  | (c, some (orqNew, bLegNew)) =>
    -- The new transaction takes the place of the old one, which is not cancelled.
    let s := c.calls.updateOutgoingTransaction irq orq orqNew
    let s := (s.eraseAttempt orq).insertAttempt orqNew t
    .swallow (c.withCalls (s.updateDialog outgoingLeg bLegNew))

/-- The URI in the Contact header of a redirect. -/
def redirectUri (contact : SipAddr) : Bytes :=
  streamed ([some "sip:".toList, contact.url.user, some ['@'], contact.url.host] ++
    contact.url.port.elim [] fun port => [some [':'], some port])

/-- A response from 300 to 399. -/
def processRedirect (c : Controller) (t : ℕ) (irq : Irq) (orq : Orq) (outgoingLeg : Leg)
    (sip : Response) (nta : Creations) : Decision :=
  -- Nobody looks whether there is a Contact.
  let c := c.require .responseContact sip.sipContact.isSome
  (c.redirect t (redirectUri (sip.sipContact.getD {}))).retry t irq orq outgoingLeg nta

/-- A response 503 or 480. -/
def processCrankback (c : Controller) (t : ℕ) (a : TerminationAttempt) (irq : Irq) (orq : Orq)
    (outgoingLeg : Leg) (sip : Response) (nta : Creations) : Decision :=
  -- Unsigned: without any retries the bound is the largest number.
  if a.nAttemptCount < c.nTerminationRetries - 1 then
    match c.config.getTerminationRouteForAltCarrier a.carrier with
    | none => .fail c
    | some (route, config) =>
      let c := { c with config := config }
      -- The failure is reported before the attempt gets its next trunk.
      let c := c.postFinalResponse a.cdr .terminationAttempt sip.status
      let address := route.trunk.text
      let c := c.crankback t (sipUri sip.sipTo.url.user address) route.carrier address
        (pChargeInfo route.chargeNumber address)
      c.retry t irq orq outgoingLeg nta
  else .fail c

/-- The session timer of an origination call is started when the call is answered. -/
def startSessionTimer (c : Controller) (aLeg : Leg) (d : SipDialogInfo) (nta : Creations) :
    Controller :=
  if 0 < d.getSessionTimerSecs ∧ nta.timer then
    c.withCalls (c.calls.updateDialogInfo aLeg fun d =>
      { d with timerSessionRefresh := some (d.getSessionTimerSecs * 1000) })
  else c

/-- Session-Expires of the answer, if there is to be a session timer; it stays empty if there
    is none. -/
def sessionExpires (d : SipDialogInfo) (nta : Creations) : Option Bytes :=
  if 0 < d.getSessionTimerSecs then
    some (if nta.timer then (toString d.getSessionTimerSecs.toNat).toList else [])
  else none

/-- A response 200: it is acknowledged, and the session timer of an origination call is
    started. -/
def processAnswer (c : Controller) (aLeg outgoingLeg : Leg) (pDialog : Option SipDialogInfo)
    (sip : Response) (nta : Creations) : Decision :=
  let c := c.require .responseContact sip.sipContact.isSome
  -- The ACK is sent before the answer is passed on.
  let c := c.withCalls (c.calls.record (.sent outgoingLeg .ack))
  match pDialog with
  | none => { controller := c, bClearTransaction := true }
  | some d =>
    let c := c.require .responsePayload sip.sipPayload.isSome
    let c := c.withCalls (c.calls.updateDialogInfo aLeg fun d =>
      { d with localSdp := sip.sipPayload.getD [] })
    { controller := c.startSessionTimer aLeg d nta, bClearTransaction := true
      sessionExpires := sessionExpires d nta }

/-- Failures of trunks are counted; `t` is the attempt of a termination call. -/
def reportFailure (c : Controller) (t : Option (ℕ × TerminationAttempt)) (status : ℤ) : Controller :=
  match t with
  | some (_, a) =>
    if 400 ≤ status ∧ status ≤ 700 then c.countFailure a.sipTrunk status else c
  | none => c

@[simp]
theorem reportFailure_calls (c : Controller) (t : Option (ℕ × TerminationAttempt)) (status : ℤ) :
    (c.reportFailure t status).calls = c.calls := by
  unfold reportFailure
  split
  · split_ifs <;> simp
  · rfl

/-- The decision about a final response; `t` is the attempt of a termination call. -/
def processFinalResponse (c : Controller) (irq : Irq) (orq : Orq) (aLeg outgoingLeg : Leg)
    (t : Option (ℕ × TerminationAttempt)) (pDialog : Option SipDialogInfo) (sip : Response)
    (nta : Creations) : Decision :=
  if sip.status = 200 then c.processAnswer aLeg outgoingLeg pDialog sip nta
  else
    match t with
    | none => .fail c
    | some (t, a) =>
      if 300 ≤ sip.status ∧ sip.status ≤ 399 then c.processRedirect t irq orq outgoingLeg sip nta
      else if sip.status = 503 ∨ sip.status = 480 then
        c.processCrankback t a irq orq outgoingLeg sip nta
      else .fail c

/-- The response that is passed on. A final response to a termination call says which carrier
    it comes from. -/
def proxyReply (c : Controller) (t : Option ℕ) (sessionExpires : Option Bytes) (sip : Response) :
    Reply where
  status := sip.status
  payload := sip.sipPayload
  sessionExpires := sessionExpires
  terminatingCarrier :=
    if 200 ≤ sip.status then
      (t.bind fun t => c.attempts[t]?).map fun a => (a.carrier, a.sipTrunk)
    else none

/-- The response is passed on; the attempt of a termination call that has a final response
    is over. -/
def proxyResponse (c : Controller) (irq : Irq) (orq : Orq) (t : Option ℕ)
    (sessionExpires : Option Bytes) (sip : Response) : Controller :=
  let s := if 200 ≤ sip.status ∧ t.isSome then c.calls.eraseAttempt orq else c.calls
  c.withCalls (s.record (.replied irq orq (c.proxyReply t sessionExpires sip)))

@[simp]
theorem proxyResponse_calls (c : Controller) (irq : Irq) (orq : Orq) (t : Option ℕ)
    (sessionExpires : Option Bytes) (sip : Response) :
    (c.proxyResponse irq orq t sessionExpires sip).calls =
      (if 200 ≤ sip.status ∧ t.isSome then c.calls.eraseAttempt orq else c.calls).record
        (.replied irq orq (c.proxyReply t sessionExpires sip)) := rfl

/-- The records about a final response. -/
def reportFinalResponse (c : Controller) (pCdr : Option ℕ) (bTermination bProxyResponse : Bool)
    (status : ℤ) : Controller :=
  match pCdr with
  | none => c
  | some pCdr =>
    if 200 ≤ status ∧ !bTermination then c.postFinalResponse pCdr .originationFinalResponse status
    else if 200 ≤ status ∧ bTermination ∧ bProxyResponse then
      c.postFinalResponse pCdr .terminationAttempt status
    else c

@[simp]
theorem reportFinalResponse_calls (c : Controller) (pCdr : Option ℕ) (bT bP : Bool) (status : ℤ) :
    (c.reportFinalResponse pCdr bT bP status).calls = c.calls := by
  unfold reportFinalResponse
  split
  · rfl
  · split_ifs <;> simp

/-- What is done after the decision. -/
def Decision.conclude (d : Decision) (irq : Irq) (orq : Orq) (outgoingLeg : Leg) (t : Option ℕ)
    (pCdr : Option ℕ) (sip : Response) : Controller :=
  let c := d.controller
  let c := if d.bProxyResponse then c.proxyResponse irq orq t d.sessionExpires sip else c
  let c := if d.bClearTransaction then c.withCalls (c.calls.clearTransaction orq) else c
  let c := if d.bDestroyLegs then c.withCalls (c.calls.clearDialog outgoingLeg) else c
  c.reportFinalResponse pCdr t.isSome d.bProxyResponse sip.status

/-- `processInviteResponseInsideDialog` for a response whose transaction and legs are there. -/
def processInviteResponse (c : Controller) (irq : Irq) (orq : Orq) (aLeg outgoingLeg : Leg)
    (sip : Response) (nta : Creations) : Controller :=
  -- An attempt in the table makes it a termination call, which has no dialog here.
  let t := (c.calls.mapTerminationAttempts orq).bind fun t => c.attempts[t]?.map fun a => (t, a)
  let pDialog := if t.isSome then none else c.calls.mapDialogInfo aLeg
  let pCdr := if t.isSome then t.map fun t => t.2.cdr else pDialog.bind fun d => d.cdr
  let c := c.check .inviteResponseNoCdr pCdr.isSome
  let d : Decision :=
    if sip.status = 100 then .swallow c
    else if 200 ≤ sip.status then
      (c.reportFailure t sip.status).processFinalResponse irq orq aLeg outgoingLeg t pDialog sip nta
    else { controller := c }
  d.conclude irq orq outgoingLeg (t.map Prod.fst) pCdr sip

/-- `processInviteResponseInsideDialog`. -/
def processInviteResponseInsideDialog (c : Controller) (orq : Orq) (sip : Response)
    (nta : Creations) : Controller :=
  let irq := c.calls.getAssociatedIncoming orq
  if irq = .null then c.withCalls (c.calls.fault (.assertion .inviteResponseNoIncoming))
  else
    let outgoingLeg := c.calls.legFromOutgoing orq
    if outgoingLeg = .null then c.withCalls (c.calls.fault (.assertion .inviteResponseNoBLeg))
    else
      let aLeg := c.calls.legFromIncoming irq
      if aLeg = .null then c.withCalls (c.calls.fault (.assertion .inviteResponseNoALeg))
      else c.processInviteResponse irq orq aLeg outgoingLeg sip nta

/-! ## CANCEL -/

/-- The record about a CANCEL. -/
def reportCancel (c : Controller) (orq : Orq) (leg : Leg) : Controller :=
  match c.calls.mapDialogInfo leg with
  | some d =>
    match d.cdr with
    -- The record itself is posted, not a copy.
    | some pCdr => (c.setCdr pCdr c.populateCancelCdr).postCdr pCdr
    | none => c.missing .cdrInfo
  | none =>
    match (c.calls.mapTerminationAttempts orq).bind fun t => c.attempts[t]? with
    | some a => c.postFinalResponse a.cdr .terminationAttempt 487
    | none => c

@[simp]
theorem reportCancel_calls (c : Controller) (orq : Orq) (leg : Leg) :
    (c.reportCancel orq leg).calls = c.calls := by
  unfold reportCancel
  split
  · split <;> rfl
  · split <;> simp

/-- The CANCEL case of `processAckOrCancel`. -/
def processCancel (c : Controller) (irq : Irq) : Controller :=
  let c := c.withCalls (c.calls.record (.cancelled irq))
  let orq := c.calls.getAssociatedOutgoing irq
  let leg := c.calls.legFromIncoming irq
  -- The other side is gone already.
  if orq = .null then
    if leg = .null then c else c.withCalls (c.calls.clearDialog leg)
  else if leg = .null then c
  else
    let c := c.reportCancel orq leg
    -- `clearTransaction` destroys it once more.
    let s := (c.calls.destroyOutgoing orq).clearTransaction orq
    c.withCalls ((s.clearDialog leg).eraseAttempt orq)

/-- `processAckOrCancel`; nothing is done for an ACK. -/
def processAckOrCancel (c : Controller) (irq : Irq) (method : Method) : Controller :=
  if method = .cancel then c.processCancel irq else c

/-! ## Requests inside of a dialog -/

/-- The record of the origination call that a BYE on `leg` ends, and whether it is the
    calling party that ends it. -/
def byeCdr (c : Controller) (leg other : Leg) : Option (SipDialogInfo × Bool) :=
  match c.calls.mapDialogInfo leg with
  | some d =>
    if d.bOrigination then some (d, true)
    else ((c.calls.mapDialogInfo other).filter (·.bOrigination)).map fun d => (d, false)
  | none => ((c.calls.mapDialogInfo other).filter (·.bOrigination)).map fun d => (d, false)

/-- The record about a BYE. -/
def reportBye (c : Controller) (leg other : Leg) : Controller :=
  match c.byeCdr leg other with
  | none => c
  | some (d, callingPartyRelease) =>
    match d.cdr with
    | none => c.missing .cdrInfo
    | some pCdr => (c.setCdr pCdr (c.populateByeCdr callingPartyRelease)).postCdr pCdr

@[simp]
theorem reportBye_calls (c : Controller) (leg other : Leg) :
    (c.reportBye leg other).calls = c.calls := by
  unfold reportBye
  split
  · rfl
  · split <;> rfl

/-- The request that is sent on to the other leg. -/
def forwardedRequest (sip : Request) : OutgoingRequest where
  method := sip.method
  payload := sip.sipPayload

/-- The BYE case of `processRequestInsideDialog`. -/
def processBye (c : Controller) (leg other : Leg) (irq : Irq) : Controller :=
  let c :=
    -- Without another side there is no record either.
    if other = .null then c
    else (c.withCalls (c.calls.record (.sent other .bye))).reportBye leg other
  c.withCalls ((c.calls.clearDialog leg).destroyIncoming irq)

/-- The request is sent on to the other side. -/
def sendOn (c : Controller) (other : Leg) (irq : Irq) (sip : Request) (nta : Creations) : Controller :=
  match c.calls.createOutgoing nta.orq irq other .responseToRequestInsideDialog
    (forwardedRequest sip) with
  | (orq, s) => c.withCalls (s.addTransactions irq orq)

/-- The `switch` of `processRequestInsideDialog`. -/
def processMethod (c : Controller) (leg other : Leg) (irq : Irq) (sip : Request) (nta : Creations) :
    Controller × ℤ :=
  match sip.method with
  | .bye => (c.processBye leg other irq, 200)
  | .ack => (c.withCalls (c.calls.destroyIncoming irq), 0)
  | .invite | .cancel | .options | .other _ =>
    if other = .null then (c, 481) else (c.sendOn other irq sip nta, 0)

/-- `processRequestInsideDialog`. -/
def processRequestInsideDialog (c : Controller) (leg : Leg) (irq : Irq) (sip : Request)
    (nta : Creations) : Controller × ℤ :=
  match c.calls.getAssociatedDialog leg with
  -- `getAssociatedDialog` reads what its search returned, also the end.
  | none => (c.withCalls (c.calls.fault .endIterator), 0)
  | some other =>
    if other = .null then
      processMethod (c.withCalls (c.calls.fault (.assertion .requestNoOther))) leg other irq sip nta
    else c.processMethod leg other irq sip nta

/-- A request on a leg, from nta's `leg_recv` to its end. -/
def requestInsideDialog (c : Controller) (leg : Leg) (sip : Request) (nta : Creations) :
    Controller :=
  let irq : Irq := ⟨c.calls.next⟩
  let c := c.withCalls (c.calls.receive leg)
  match c.processRequestInsideDialog leg irq sip nta with
  | (c, status) => c.withCalls (c.calls.legRecv irq sip.method status)

/-- The ACK of an answer to a re-INVITE. -/
def acknowledge (c : Controller) (orq : Orq) (sip : Response) : Controller :=
  if sip.cseqMethod = .invite ∧ sip.status = 200 then
    let outgoingLeg := c.calls.legFromOutgoing orq
    if outgoingLeg = .null then c.withCalls (c.calls.fault (.assertion .responseNoLeg))
    else
      let c := c.require .responseContact sip.sipContact.isSome
      c.withCalls (c.calls.record (.sent outgoingLeg .ack))
  else c

/-- `processResponseInsideDialog`. -/
def processResponseInsideDialog (c : Controller) (orq : Orq) (sip : Response) : Controller :=
  let irq := c.calls.getAssociatedIncoming orq
  if irq = .null then c.withCalls (c.calls.fault (.assertion .responseNoIncoming))
  else
    let reply : Reply := { status := sip.status, payload := sip.sipPayload }
    let c := (c.withCalls (c.calls.record (.replied irq orq reply))).acknowledge orq sip
    -- A provisional response leaves the pair in the table.
    if 200 ≤ sip.status then c.withCalls (c.calls.clearTransaction orq) else c

/-! ## The session timer -/

/-- `processSessionRefreshTimer`; `terminateLeg` does nothing yet. -/
def processSessionRefreshTimer (c : Controller) (leg : Leg) : Controller :=
  match c.calls.mapDialogInfo leg with
  | none => c
  | some _ =>
    let s := c.calls.updateDialogInfo leg fun d => { d with timerSessionRefresh := none }
    match s.getAssociatedDialog leg with
    | none => c.withCalls (s.fault .endIterator)
    | some other =>
      let s := if other = .null then s.fault (.assertion .sessionTimerNoOther) else s
      c.withCalls (s.clearDialog leg)

/-- `processRetransmittedResponse`, with the leg of the Call-ID of the response. -/
def processRetransmittedResponse (c : Controller) (leg : Leg) (sip : Response) : Controller :=
  if sip.status = 200 ∧ sip.cseqMethod = .invite ∧ c.calls.liveLeg leg ≠ .null then
    let c := c.require .responseContact sip.sipContact.isSome
    c.withCalls (c.calls.record (.sent leg .ack))
  else c

end Controller

end Ssp
