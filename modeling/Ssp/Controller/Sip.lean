import Mathlib.Data.Int.Notation
import Ssp.Lib.CString

/-!
# SIP messages

What the controller reads of the messages that the SIP stack gives it, and what it puts
into its own. The stack accepts no request without From, To and Call-ID; a header or a
part of a URL that may be absent is an `Option`.
-/

namespace Ssp

/-- `sip_method_t`, as far as the controller tells the methods apart. -/
inductive Method
  | invite
  | ack
  | cancel
  | bye
  | options
  | other (name : Bytes)
  deriving DecidableEq

/-- The parts of a `url_t`. -/
structure Url where
  user : Option Bytes := none
  host : Option Bytes := none
  port : Option Bytes := none
  deriving DecidableEq

/-- A From, To or Contact header. -/
structure SipAddr where
  display : Option Bytes := none
  url : Url := {}
  tag : Option Bytes := none
  deriving DecidableEq

/-- A request. `sipUnknown` holds the headers that the stack does not know, by name. -/
structure Request where
  method : Method
  callId : Bytes := []
  sipFrom : SipAddr := {}
  sipTo : SipAddr := {}
  sipContact : Option SipAddr := none
  sipPayload : Option Bytes := none
  sipSessionExpires : Bool := false
  /-- `min_delta` of Min-SE. -/
  sipMinSe : Option UInt64 := none
  sipPAssertedIdentity : Option Url := none
  sipRemotePartyId : Option Url := none
  sipUnknown : List (Bytes × Bytes) := []

/-- A response. -/
structure Response where
  status : ℤ
  cseqMethod : Method := .invite
  sipTo : SipAddr := {}
  sipContact : Option SipAddr := none
  sipPayload : Option Bytes := none

/-- A request that the controller sends: its URI (the stack takes the one of the dialog
    where there is none), its Contact and body, and the headers given as text. -/
structure OutgoingRequest where
  method : Method
  url : Option Bytes := none
  contact : Option Bytes := none
  payload : Option Bytes := none
  unknown : List Bytes := []

/-! ## What the controller reads -/

/-- The host of the Contact header, where there is one. -/
def Request.contactHost? (sip : Request) : Option Bytes :=
  sip.sipContact.bind fun contact => contact.url.host

/-- `validateSipMessage`: `0`, or the status to answer with. -/
def Request.validateSipMessage (sip : Request) : ℤ :=
  if sip.method = .invite ∧ sip.contactHost? = none then 400
  else if sip.method = .invite ∧ sip.sipTo.url.user = none then 400
  else if sip.method = .invite ∧ sip.sipFrom.tag = none then 400
  else 0

/-- `findCustomHeaderValue`. -/
def Request.findCustomHeaderValue (sip : Request) (name : Bytes) : Option Bytes :=
  (sip.sipUnknown.find? (·.1 = name)).map Prod.snd

/-- Whether a user name is a telephone number. -/
def isPhoneNumber (user : Option Bytes) : Bool :=
  match user with
  | none => false
  | some user => !user.isEmpty && user.all fun c => c ∈ "+0123456789".toList

/-- `isAnonymousCall`. -/
def Request.isAnonymousCall (sip : Request) : Bool :=
  !isPhoneNumber (sip.sipPAssertedIdentity.bind (·.user)) &&
    !isPhoneNumber (sip.sipRemotePartyId.bind (·.user)) && !isPhoneNumber sip.sipFrom.url.user

def xSessionUuid : Bytes := "X-Session-uuid".toList

def xAvokeBrowser : Bytes := "X-Avoke-Browser".toList

def xAvokeCallId : Bytes := "X-Avoke-Call-ID".toList

/-! ## What the controller writes -/

/-- A name and address of the controller, with the display name and the user of the
    address it stands for. -/
def nameAddr (contactHost contactPort : Bytes) (a : SipAddr) : Bytes :=
  a.display.getD [] ++ "<sip:".toList ++ (a.url.user.elim [] (· ++ ['@'])) ++ contactHost ++
    (if contactPort = [] then [] else ':' :: contactPort) ++ ['>']

/-- `generateOutgoingFrom`. -/
def generateOutgoingFrom (contactHost contactPort : Bytes) (incomingFrom : SipAddr) : Bytes :=
  nameAddr contactHost contactPort incomingFrom

/-- `generateOutgoingTo`. -/
def generateOutgoingTo (contactHost contactPort : Bytes) (incomingTo : SipAddr) : Bytes :=
  nameAddr contactHost contactPort incomingTo

/-- `generateOutgoingContact`. -/
def generateOutgoingContact (contactHost contactPort : Bytes) (incomingContact : SipAddr) : Bytes :=
  nameAddr contactHost contactPort incomingContact

/-- What an `ostringstream` has taken of some texts. A null pointer sets its bad bit, and nothing is
    written any more. -/
def streamed : List (Option Bytes) → Bytes
  | some text :: texts => text ++ streamed texts
  | _ => []

/-- The URI of a user at an address, as the code streams it. -/
def sipUri (user : Option Bytes) (address : Bytes) : Bytes :=
  streamed [some "sip:".toList, user, some ['@'], some address]

@[simp]
theorem sipUri_some (user address : Bytes) : sipUri (some user) address = "sip:".toList ++ user ++ '@' :: address := by
  simp [sipUri, streamed]

@[simp]
theorem sipUri_none (address : Bytes) : sipUri none address = "sip:".toList := rfl

/-- The P-Charge-Info header. -/
def pChargeInfo (chargeNumber address : Bytes) : Bytes :=
  "P-Charge-Info: <sip:".toList ++ chargeNumber ++ '@' :: address ++ ['>']

theorem pChargeInfo_ne_nil (chargeNumber address : Bytes) : pChargeInfo chargeNumber address ≠ [] :=
  List.append_ne_nil_of_right_ne_nil _ (List.cons_ne_nil _ _)

end Ssp
