import Ssp.Config.Routing
import Ssp.Controller.Calls
import Ssp.Controller.Cdr
import Ssp.Fs.Monitor

/-!
# The state of the controller

`Controller` has the tables of the calls, the objects that they point to (the records and
the attempts, by their addresses), and what the controller decides with: the routes, the
servers and its configuration.

The text of a generated Call-ID, a UUID and whether nta grants what it is asked for come
from outside, with the event that is handled (`Creations`).
-/

namespace Ssp

/-- `TerminationAttempt`. The INVITE it is for is kept for the next attempts. -/
structure TerminationAttempt where
  nAttemptCount : UInt32 := 0
  sip : Request
  strFrom : Bytes
  strTo : Bytes
  contact : Bytes
  pChargeInfoHeader : Bytes
  url : Bytes
  carrier : Bytes
  sipTrunk : Bytes
  cdr : ℕ

/-- `TrunkStats`. The `usize_t` of the vendored library is an `unsigned`. -/
structure TrunkStats where
  strAddress : Bytes
  strCarrier : Bytes
  attempts : UInt32 := 0
  fails : ℕ → UInt32 := fun _ => 0

/-- `TrunkStats::incrementAttemptCount`. -/
def TrunkStats.incrementAttemptCount (tr : TrunkStats) : TrunkStats :=
  let tr := { tr with attempts := tr.attempts + 1 }
  if tr.attempts = 0 then { tr with fails := fun _ => 0 } else tr

/-- `TrunkStats::incrementFailureCount`, where its assertion holds. -/
def TrunkStats.incrementFailureCount (tr : TrunkStats) (status : UInt32) : TrunkStats :=
  if status < 700 then
    { tr with fails := Function.update tr.fails status.toNat (tr.fails status.toNat + 1) }
  else tr

/-- `TrunkStats::reset`. -/
def TrunkStats.reset (tr : TrunkStats) : TrunkStats := { tr with attempts := 0, fails := fun _ => 0 }

/-- What the code uses without asking whether it is there. -/
inductive Absent
  /-- The Contact header of a request, or its host. -/
  | requestContactHost
  | requestPayload
  | responseContact
  | responsePayload
  /-- `SipDialogInfo::getCdrInfo` of a call without a record. -/
  | cdrInfo
  deriving DecidableEq

/-- What nta and the system grant in a step: the A leg, the B leg and the client
    transaction that it asks for, and a timer. `callId` is the Call-ID of the B leg. -/
structure Creations where
  aLeg : Bool := true
  bLeg : Bool := true
  orq : Bool := true
  timer : Bool := true
  callId : Bytes := []

/-- The controller. `now` is the time, in seconds; `absent` is what was used without being
    there, and `asserts` has the assertions that failed outside of the tables. -/
structure Controller where
  calls : Calls := {}
  cdrs : CdrHeap := []
  attempts : List TerminationAttempt := []
  cdrWriter : Option CdrWriter := none
  config : SspConfig
  mapInboundCarrier : List (Bytes × Bytes) := []
  bIsActive : Bool := true
  nOriginationSessionTimer : UInt64 := 0
  nTerminationRetries : UInt32
  nIterationCount : ℤ := -1
  fsMonitor : FsMonitor := {}
  mapTrunkStats : Bytes → Option TrunkStats := fun _ => none
  contactHost : Bytes := []
  contactPort : Bytes := []
  now : ℕ := 0
  absent : List Absent := []
  asserts : List Assertion := []

namespace Controller

/-- A change of the tables. -/
def withCalls (c : Controller) (s : Calls) : Controller := { c with calls := s }

def missing (c : Controller) (a : Absent) : Controller := { c with absent := a :: c.absent }

/-- `assert`. -/
def check (c : Controller) (a : Assertion) (holds : Bool) : Controller :=
  if holds then c else { c with asserts := a :: c.asserts }

/-- Something is used that must be there. -/
def require (c : Controller) (a : Absent) (there : Bool) : Controller :=
  if there then c else c.missing a

@[simp]
theorem withCalls_calls (c : Controller) (s : Calls) : (c.withCalls s).calls = s := rfl

@[simp]
theorem missing_calls (c : Controller) (a : Absent) : (c.missing a).calls = c.calls := rfl

@[simp]
theorem check_calls (c : Controller) (a : Assertion) (holds : Bool) :
    (c.check a holds).calls = c.calls := by
  unfold check
  split_ifs <;> rfl

@[simp]
theorem require_calls (c : Controller) (a : Absent) (there : Bool) :
    (c.require a there).calls = c.calls := by
  unfold require
  split_ifs <;> rfl

theorem absent_withCalls (c : Controller) (s : Calls) : (c.withCalls s).absent = c.absent := rfl

theorem absent_require (c : Controller) (a : Absent) (there : Bool) :
    (c.require a there).absent = if there then c.absent else a :: c.absent := by
  unfold require
  split_ifs <;> rfl

/-! ## Records -/

/-- `make_shared<CdrInfo>`. -/
def newCdr (c : Controller) (cdr : CdrInfo) : ℕ × Controller :=
  ((c.cdrs.alloc cdr).1, { c with cdrs := (c.cdrs.alloc cdr).2 })

/-- Setters called on the record at an address. -/
def setCdr (c : Controller) (p : ℕ) (f : CdrInfo → CdrInfo) : Controller :=
  { c with cdrs := c.cdrs.update p f }

/-- `if( m_cdrWriter ) m_cdrWriter->postCdr( pCdr )`. -/
def postCdr (c : Controller) (p : ℕ) : Controller :=
  { c with cdrWriter := c.cdrWriter.map fun w => w.postCdr c.cdrs p }

@[simp]
theorem newCdr_calls (c : Controller) (cdr : CdrInfo) : (c.newCdr cdr).2.calls = c.calls := rfl

@[simp]
theorem setCdr_calls (c : Controller) (p : ℕ) (f : CdrInfo → CdrInfo) :
    (c.setCdr p f).calls = c.calls := rfl

@[simp]
theorem postCdr_calls (c : Controller) (p : ℕ) : (c.postCdr p).calls = c.calls := rfl

/-- `populateOriginationCdr`; the status of a new record is `0`. -/
def populateOriginationCdr (c : Controller) (sip : Request) (carrier uuid : Bytes) (cdr : CdrInfo) :
    CdrInfo :=
  { cdr with
    uuid := uuid
    cdrType := .originationRequest
    tmStart := c.now
    originatingCarrier := carrier
    originatingCarrierAddress := sip.contactHost?.getD cdr.originatingCarrierAddress
    alegCallId := sip.callId
    originatingEdgeServerAddress := c.contactHost
    calledPartyNumberIn := sip.sipTo.url.user.getD cdr.calledPartyNumberIn
    callingPartyNumber := sip.sipFrom.url.user.getD cdr.callingPartyNumber
    releaseCause :=
      if cdr.sipStatus = 0 then cdr.releaseCause else .callRejectedDueToSystemError }

/-- `populateTerminationCdr`. -/
def populateTerminationCdr (c : Controller) (sip : Request)
    (carrier carrierAddress avokeBrowser avokeCallId uuid : Bytes) (cdr : CdrInfo) : CdrInfo :=
  { cdr with
    uuid := uuid
    cdrType := .terminationAttempt
    tmStart := c.now
    terminatingCarrier := carrier
    terminatingCarrierAddress := carrierAddress
    clegCallId := sip.callId
    terminatingEdgeServerAddress := c.contactHost
    calledPartyNumberOut := sip.sipTo.url.user.getD []
    customerName := if avokeBrowser = [] then cdr.customerName else avokeBrowser
    avokeCallId := if avokeCallId = [] then cdr.avokeCallId else avokeCallId }

/-- `populateFinalResponseCdr`. -/
def populateFinalResponseCdr (c : Controller) (status : ℤ) (cdr : CdrInfo) : CdrInfo :=
  let cdr := { cdr with cdrType := .originationFinalResponse, sipStatus := UInt32.ofInt status }
  if cdr.sipStatus = 200 then { cdr with tmConnect := c.now }
  else { cdr with tmEnd := c.now, releaseCause := .callRejectedDueToTerminationCarriers }

/-- `populateCancelCdr`. -/
def populateCancelCdr (c : Controller) (cdr : CdrInfo) : CdrInfo :=
  { cdr with cdrType := .originationCancel, tmEnd := c.now, releaseCause := .callCanceled }

/-- `populateByeCdr`. -/
def populateByeCdr (c : Controller) (callingPartyRelease : Bool) (cdr : CdrInfo) : CdrInfo :=
  { cdr with
    cdrType := .callCleared
    releaseCause := if callingPartyRelease then .callingPartyRelease else .calledPartyRelease
    tmEnd := c.now }

/-- A final response is reported in a copy of the record of the call, of type `cdrType`. -/
def postFinalResponse (c : Controller) (pCdr : ℕ) (cdrType : CdrEvent) (status : ℤ) : Controller :=
  match c.cdrs.at? pCdr with
  | none => c
  | some cdr =>
    let (pNewCdr, c) := c.newCdr cdr
    (c.setCdr pNewCdr fun cdr =>
      { c.populateFinalResponseCdr status cdr with cdrType := cdrType }).postCdr pNewCdr

@[simp]
theorem postFinalResponse_calls (c : Controller) (pCdr : ℕ) (cdrType : CdrEvent) (status : ℤ) :
    (c.postFinalResponse pCdr cdrType status).calls = c.calls := by
  unfold postFinalResponse
  split <;> rfl

/-! ## Attempts and trunks -/

/-- `TerminationAttempt::crankback` to another trunk. -/
def crankback (c : Controller) (t : ℕ) (url carrier sipTrunk pChargeInfoHeader : Bytes) : Controller :=
  match c.attempts[t]? with
  | none => c
  | some a =>
    let c := { c with
      attempts := c.attempts.set t
        { a with
          url := url, carrier := carrier, sipTrunk := sipTrunk
          pChargeInfoHeader := pChargeInfoHeader, nAttemptCount := a.nAttemptCount + 1 } }
    c.setCdr a.cdr fun cdr =>
      { cdr with terminatingCarrier := carrier, terminatingCarrierAddress := sipTrunk }

/-- `TerminationAttempt::crankback` to another URI. -/
def redirect (c : Controller) (t : ℕ) (url : Bytes) : Controller :=
  { c with attempts := c.attempts.modify t fun a => { a with url := url } }

@[simp]
theorem crankback_calls (c : Controller) (t : ℕ) (url carrier sipTrunk header : Bytes) :
    (c.crankback t url carrier sipTrunk header).calls = c.calls := by
  unfold crankback
  split <;> rfl

@[simp]
theorem redirect_calls (c : Controller) (t : ℕ) (url : Bytes) : (c.redirect t url).calls = c.calls :=
  rfl

/-- One more attempt on a trunk. -/
def countAttempt (c : Controller) (sipTrunk carrier : Bytes) : Controller :=
  let tr := (c.mapTrunkStats sipTrunk).getD ⟨sipTrunk, carrier, 0, fun _ => 0⟩
  { c with mapTrunkStats := Function.update c.mapTrunkStats sipTrunk (some tr.incrementAttemptCount) }

/-- A failed attempt on a trunk. -/
def countFailure (c : Controller) (sipTrunk : Bytes) (status : ℤ) : Controller :=
  match c.mapTrunkStats sipTrunk with
  | none => c
  | some tr =>
    let c := c.check .failureCountStatus (UInt32.ofInt status < 700)
    { c with
      mapTrunkStats := Function.update c.mapTrunkStats sipTrunk
        (some (tr.incrementFailureCount (UInt32.ofInt status))) }

@[simp]
theorem countAttempt_calls (c : Controller) (sipTrunk carrier : Bytes) :
    (c.countAttempt sipTrunk carrier).calls = c.calls := rfl

@[simp]
theorem countFailure_calls (c : Controller) (sipTrunk : Bytes) (status : ℤ) :
    (c.countFailure sipTrunk status).calls = c.calls := by
  unfold countFailure
  split
  · rfl
  · exact check_calls c _ _

end Controller

end Ssp
