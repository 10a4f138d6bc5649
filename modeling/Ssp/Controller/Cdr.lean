import Ssp.Lib.CString

/-!
# Call detail records

The controller reports what happens to a call in records (`CdrInfo`), which it posts to
the writer. The writer's own thread takes them from its queue one by one and executes
the statements of their type on the database (`CdrWriter.writeCdr`).

A record is posted as a shared pointer: the queue of the writer holds addresses
(`CdrHeap`), and what is written is the record as the worker finds it. To compare, the
queue also says how the record stood when it was posted (`Posted.record`); nothing reads
that.
-/

namespace Ssp

/-- `CdrEvent_t`. -/
inductive CdrEvent
  | originationRequest
  | originationFinalResponse
  | originationCancel
  | terminationAttempt
  | callCleared
  deriving DecidableEq, Repr

/-- `ReleaseCause_t`. -/
inductive ReleaseCause
  | unknownReleaseCause
  | callingPartyRelease
  | calledPartyRelease
  | callCanceled
  | callRejectedDueToTerminationCarriers
  | callRejectedDueToSystemError
  | callRejectedDueToUnauthorizedPeer
  | callRejectedDueToBeingOffline
  deriving DecidableEq, Repr

/-- The value of the enumeration in the database. -/
def ReleaseCause.value : ReleaseCause → ℕ
  | unknownReleaseCause => 0
  | callingPartyRelease => 1
  | calledPartyRelease => 2
  | callCanceled => 3
  | callRejectedDueToTerminationCarriers => 4
  | callRejectedDueToSystemError => 5
  | callRejectedDueToUnauthorizedPeer => 6
  | callRejectedDueToBeingOffline => 7

/-- `CdrInfo`. A time is in seconds, `0` where it was not set. -/
structure CdrInfo where
  cdrType : CdrEvent
  uuid : Bytes := []
  sipStatus : UInt32 := 0
  originatingCarrier : Bytes := []
  terminatingCarrier : Bytes := []
  originatingCarrierAddress : Bytes := []
  terminatingCarrierAddress : Bytes := []
  originatingEdgeServerAddress : Bytes := []
  terminatingEdgeServerAddress : Bytes := []
  fsAddress : Bytes := []
  callingPartyNumber : Bytes := []
  calledPartyNumberIn : Bytes := []
  calledPartyNumberOut : Bytes := []
  customerName : Bytes := []
  avokeCallId : Bytes := []
  alegCallId : Bytes := []
  blegCallId : Bytes := []
  clegCallId : Bytes := []
  dlegCallId : Bytes := []
  releaseCause : ReleaseCause := .unknownReleaseCause
  tmStart : ℕ := 0
  tmConnect : ℕ := 0
  tmEnd : ℕ := 0
  deriving DecidableEq

/-! ## Records and their addresses -/

/-- The `CdrInfo` objects, by their addresses. They are never moved. -/
abbrev CdrHeap := List CdrInfo

namespace CdrHeap

/-- The record at an address. -/
def at? (h : CdrHeap) (p : ℕ) : Option CdrInfo := h[p]?

/-- `make_shared<CdrInfo>`. -/
def alloc (h : CdrHeap) (cdr : CdrInfo) : ℕ × CdrHeap := (h.length, h ++ [cdr])

/-- Setters called through a pointer. -/
def update (h : CdrHeap) (p : ℕ) (f : CdrInfo → CdrInfo) : CdrHeap := h.modify p f

theorem lt_of_at? {h : CdrHeap} {p : ℕ} {r : CdrInfo} (hp : h.at? p = some r) : p < h.length :=
  (List.getElem?_eq_some_iff.1 hp).1

@[simp]
theorem length_update (h : CdrHeap) (p : ℕ) (f : CdrInfo → CdrInfo) :
    (h.update p f).length = h.length := List.length_modify f h p

theorem at?_update_self (h : CdrHeap) (p : ℕ) (f : CdrInfo → CdrInfo) :
    (h.update p f).at? p = (h.at? p).map f := by
  simp [at?, update]

theorem at?_update_of_ne {h : CdrHeap} {p q : ℕ} (hne : q ≠ p) (f : CdrInfo → CdrInfo) :
    (h.update p f).at? q = h.at? q := by
  simp [at?, update, hne.symm]

theorem at?_alloc_self (h : CdrHeap) (cdr : CdrInfo) : (h.alloc cdr).2.at? h.length = some cdr :=
  List.getElem?_concat_length

theorem at?_alloc_of_some {h : CdrHeap} {p : ℕ} {r : CdrInfo} (hp : h.at? p = some r) (cdr : CdrInfo) :
    (h.alloc cdr).2.at? p = some r := by
  change (h ++ [cdr])[p]? = some r
  rw [List.getElem?_append_left (lt_of_at? hp)]
  exact hp

end CdrHeap

/-! ## The writer -/

/-- A prepared statement of the writer. -/
inductive Stmt
  /-- `INSERT INTO cdr_session` -/
  | orig
  /-- `UPDATE cdr_session SET final_sip_status=?,connect_time=?,end_time=?,release_cause=?` -/
  | final
  /-- `UPDATE cdr_session SET final_sip_status=487,end_time=?,release_cause=?` -/
  | cancel
  /-- `INSERT into termination_attempt` -/
  | term1
  /-- `UPDATE cdr_session SET terminating_edge_server_ip_address=?,..` -/
  | term2
  /-- `UPDATE cdr_session SET end_time=?,release_cause=?` -/
  | bye1
  /-- `UPDATE termination_attempt SET end_time=?` -/
  | bye2
  deriving DecidableEq, Repr

/-- A parameter of a statement. A date and time is written as text, which is empty for a
    time that was not set. -/
inductive SqlValue
  | null
  | string (s : Bytes)
  | int (n : ℕ)
  | dateTime (t : Option ℕ)
  deriving DecidableEq

/-- The execution of a statement with its parameters, the key of the row last. -/
structure Execution where
  stmt : Stmt
  params : List SqlValue
  deriving DecidableEq

namespace CdrInfo

/-- `getTimeStartFormatted` and its siblings. -/
def formatted (time : ℕ) : Option ℕ := if time = 0 then none else some time

/-- A string, or `NULL` if it is empty. -/
def stringOrNull (s : Bytes) : SqlValue := if s = [] then .null else .string s

/-- `writeOriginationRequestCdr`. -/
def writeOriginationRequestCdr (cdr : CdrInfo) : List Execution :=
  [⟨.orig, [.string cdr.uuid, .dateTime (formatted cdr.tmStart), .string cdr.originatingCarrier,
    .string cdr.originatingCarrierAddress, .string cdr.originatingEdgeServerAddress,
    .string cdr.fsAddress, .string cdr.callingPartyNumber, .string cdr.calledPartyNumberIn,
    .string cdr.alegCallId, stringOrNull cdr.blegCallId,
    if 0 < cdr.sipStatus then .int cdr.sipStatus.toNat else .null,
    .int cdr.releaseCause.value,
    if (formatted cdr.tmEnd).isSome then .dateTime (formatted cdr.tmEnd) else .null]⟩]

/-- `writeOriginationFinalResponseCdr`. -/
def writeOriginationFinalResponseCdr (cdr : CdrInfo) : List Execution :=
  if cdr.sipStatus = 200 then
    [⟨.final, [.int 200, .dateTime (formatted cdr.tmConnect), .null, .int 0, .string cdr.uuid]⟩]
  else
    [⟨.final, [.int cdr.sipStatus.toNat, .null, .dateTime (formatted cdr.tmEnd),
      .int ReleaseCause.callRejectedDueToTerminationCarriers.value, .string cdr.uuid]⟩]

/-- `writeOriginationCancelCdr`. -/
def writeOriginationCancelCdr (cdr : CdrInfo) : List Execution :=
  [⟨.cancel, [.dateTime (formatted cdr.tmEnd), .int ReleaseCause.callCanceled.value,
    .string cdr.uuid]⟩]

/-- `writeTerminationAttemptCdr`. -/
def writeTerminationAttemptCdr (cdr : CdrInfo) : List Execution :=
  [⟨.term1, [.string cdr.uuid, .dateTime (formatted cdr.tmStart),
      if cdr.sipStatus = 200 then .dateTime (formatted cdr.tmConnect) else .null,
      if cdr.sipStatus = 200 then .null else .dateTime (formatted cdr.tmEnd),
      .int cdr.sipStatus.toNat, .string cdr.dlegCallId, .string cdr.terminatingCarrier,
      .string cdr.terminatingCarrierAddress]⟩,
    ⟨.term2, [.string cdr.terminatingEdgeServerAddress, .string cdr.terminatingCarrier,
      .string cdr.terminatingCarrierAddress, .string cdr.clegCallId, .string cdr.dlegCallId,
      stringOrNull cdr.customerName, stringOrNull cdr.avokeCallId,
      .string cdr.calledPartyNumberOut, .string cdr.uuid]⟩]

/-- `writeByeCdr`. -/
def writeByeCdr (cdr : CdrInfo) : List Execution :=
  [⟨.bye1, [.dateTime (formatted cdr.tmEnd), .int cdr.releaseCause.value, .string cdr.uuid]⟩,
    ⟨.bye2, [.dateTime (formatted cdr.tmEnd), .string cdr.uuid]⟩]

/-- The statements of a record, by its type. -/
def executions (cdr : CdrInfo) : List Execution :=
  match cdr.cdrType with
  | .originationRequest => cdr.writeOriginationRequestCdr
  | .originationFinalResponse => cdr.writeOriginationFinalResponseCdr
  | .originationCancel => cdr.writeOriginationCancelCdr
  | .terminationAttempt => cdr.writeTerminationAttemptCdr
  | .callCleared => cdr.writeByeCdr

end CdrInfo

/-- A record in the queue: its address, and how it stood when it was posted. -/
structure Posted where
  address : ℕ
  record : CdrInfo
  deriving DecidableEq

/-- A record that was written: as it stood when it was posted, and as it was written. -/
structure Written where
  posted : CdrInfo
  record : CdrInfo
  deriving DecidableEq

/-- The writer with its queue, the oldest record first, and what was written. -/
structure CdrWriter where
  queue : List Posted := []
  written : List Written := []

namespace CdrWriter

/-- `CdrWriter::postCdr`. -/
def postCdr (w : CdrWriter) (h : CdrHeap) (p : ℕ) : CdrWriter :=
  match h.at? p with
  | some cdr => { w with queue := w.queue ++ [⟨p, cdr⟩] }
  | none => w

/-- `CdrWriter::writeCdr` for the first record of the queue, which is lost without a
    connection to the database. -/
def writeCdr (w : CdrWriter) (h : CdrHeap) (connected : Bool) : CdrWriter :=
  match w.queue with
  | [] => w
  | e :: rest =>
    match connected, h.at? e.address with
    | true, some cdr => { queue := rest, written := w.written ++ [⟨e.record, cdr⟩] }
    | _, _ => { w with queue := rest }

/-- All statements executed so far. -/
def executions (w : CdrWriter) : List Execution := w.written.flatMap (·.record.executions)

end CdrWriter

end Ssp
