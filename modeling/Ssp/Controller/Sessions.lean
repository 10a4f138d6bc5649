import Ssp.Controller.CdrQueue
import Ssp.Controller.Trail
import Ssp.Lib.Table

/-!
# The rows of the calls

The statements of the writer insert and update the rows of `cdr_session`. The row of a call says
when it began, was answered and ended, with which status and why; the columns are never set all at
once. `SessionAccount.Tells` lists what they may say together, with the times in order.

Records may get lost on the way to the database, as the writer drops a record when it has no
connection. `sessions_of_reachable`: as long as the records are written as they were posted, every
row tells a story all the same, and is never ahead of the records that were posted. If none got
lost, it tells just the story of the records (`sessions_of_written`).
-/

namespace Ssp

/-! ## The table -/

/-- The columns that say how far a call has come. -/
structure SessionAccount where
  startTime : SqlValue
  connectTime : SqlValue
  endTime : SqlValue
  finalSipStatus : SqlValue
  releaseCause : SqlValue
  deriving DecidableEq

/-- The columns about its origination. -/
structure SessionOrigin where
  originatingCarrier : SqlValue
  originatingCarrierIpAddress : SqlValue
  originatingEdgeServerIpAddress : SqlValue
  fsIpAddress : SqlValue
  callingPartyNumber : SqlValue
  calledPartyNumberIn : SqlValue
  aLegSipCallId : SqlValue
  bLegSipCallId : SqlValue
  deriving DecidableEq

/-- The columns about its termination. -/
structure SessionOutbound where
  terminatingEdgeServerIpAddress : SqlValue := .null
  terminatingCarrier : SqlValue := .null
  terminatingCarrierIpAddress : SqlValue := .null
  cLegSipCallId : SqlValue := .null
  dLegSipCallId : SqlValue := .null
  fsAssignedCustomer : SqlValue := .null
  fsAssignedCallId : SqlValue := .null
  calledPartyNumberOut : SqlValue := .null
  deriving DecidableEq

/-- A row of `cdr_session`. -/
structure SessionRow where
  sessionUuid : SqlValue
  account : SessionAccount
  origin : SessionOrigin
  outbound : SessionOutbound := {}
  deriving DecidableEq

/-- What `getStandingCallCount` looks at. -/
def SessionRow.toCdrSession (row : SessionRow) : CdrSession where
  sessionUuid := row.sessionUuid
  connectTime := row.account.connectTime
  endTime := row.account.endTime

/-- What a statement does to `cdr_session`. The index on `session_uuid` is unique. -/
def Execution.sessionEdit : Execution → Option (Edit SqlValue SessionRow)
  | ⟨.orig, [uuid, startTime, carrier, carrierAddress, edgeServer, fs, calling, called, aLeg, bLeg, status, cause,
      endTime]⟩ =>
    some (.insert ⟨uuid, ⟨startTime, .null, endTime, status, cause⟩,
      ⟨carrier, carrierAddress, edgeServer, fs, calling, called, aLeg, bLeg⟩, {}⟩)
  | ⟨.final, [status, connectTime, endTime, cause, uuid]⟩ =>
    some (.update uuid fun row =>
      { row with account := ⟨row.account.startTime, connectTime, endTime, status, cause⟩ })
  | ⟨.cancel, [endTime, cause, uuid]⟩ =>
    some (.update uuid fun row =>
      { row with account :=
        { row.account with finalSipStatus := .int 487, endTime := endTime, releaseCause := cause } })
  | ⟨.term2, [edgeServer, carrier, carrierAddress, cLeg, dLeg, customer, callId, called, uuid]⟩ =>
    some (.update uuid fun row =>
      { row with outbound := ⟨edgeServer, carrier, carrierAddress, cLeg, dLeg, customer, callId, called⟩ })
  | ⟨.bye1, [endTime, cause, uuid]⟩ =>
    some (.update uuid fun row =>
      { row with account := { row.account with endTime := endTime, releaseCause := cause } })
  | _ => none

namespace CdrInfo

/-- What a record does to `cdr_session`. -/
def sessionEdits (cdr : CdrInfo) : List (Edit SqlValue SessionRow) := cdr.executions.filterMap Execution.sessionEdit

/-- The rows after some records were written. -/
def sessions (ws : List CdrInfo) : List SessionRow :=
  (ws.flatMap sessionEdits).foldl (Edit.apply SessionRow.sessionUuid) []

/-- What a record makes of the row with its UUID. -/
def amend (row? : Option SessionRow) (cdr : CdrInfo) : Option SessionRow := cdr.sessionEdits.foldl Edit.on row?

/-- What the row of a call is to say of its origination. -/
def sessionOrigin (cdr : CdrInfo) : SessionOrigin where
  originatingCarrier := .string cdr.originatingCarrier
  originatingCarrierIpAddress := .string cdr.originatingCarrierAddress
  originatingEdgeServerIpAddress := .string cdr.originatingEdgeServerAddress
  fsIpAddress := .string cdr.fsAddress
  callingPartyNumber := .string cdr.callingPartyNumber
  calledPartyNumberIn := .string cdr.calledPartyNumberIn
  aLegSipCallId := .string cdr.alegCallId
  bLegSipCallId := stringOrNull cdr.blegCallId

/-- What it is to say of its termination. -/
def sessionOutbound (cdr : CdrInfo) : SessionOutbound where
  terminatingEdgeServerIpAddress := .string cdr.terminatingEdgeServerAddress
  terminatingCarrier := .string cdr.terminatingCarrier
  terminatingCarrierIpAddress := .string cdr.terminatingCarrierAddress
  cLegSipCallId := .string cdr.clegCallId
  dLegSipCallId := .string cdr.dlegCallId
  fsAssignedCustomer := stringOrNull cdr.customerName
  fsAssignedCallId := stringOrNull cdr.avokeCallId
  calledPartyNumberOut := .string cdr.calledPartyNumberOut

section

variable {cdr : CdrInfo} {row : SessionRow} {row? : Option SessionRow}

theorem amend_originationRequest (htype : cdr.cdrType = .originationRequest) :
    amend none cdr = some ⟨.string cdr.uuid,
      ⟨.dateTime (formatted cdr.tmStart), .null,
        if (formatted cdr.tmEnd).isSome then .dateTime (formatted cdr.tmEnd) else .null,
        if 0 < cdr.sipStatus then .int cdr.sipStatus.toNat else .null, .int cdr.releaseCause.value⟩,
      cdr.sessionOrigin, {}⟩ := by
  rw [amend, sessionEdits, executions, htype]
  rfl

theorem amend_answer (htype : cdr.cdrType = .originationFinalResponse) (hstatus : cdr.sipStatus = 200) :
    amend row? cdr = row?.map fun row => { row with account :=
      ⟨row.account.startTime, .dateTime (formatted cdr.tmConnect), .null, .int 200, .int 0⟩ } := by
  rw [amend, sessionEdits, executions, htype]
  dsimp only
  rw [writeOriginationFinalResponseCdr, if_pos hstatus]
  rfl

theorem amend_failure (htype : cdr.cdrType = .originationFinalResponse) (hstatus : cdr.sipStatus ≠ 200) :
    amend row? cdr = row?.map fun row => { row with account :=
      ⟨row.account.startTime, .null, .dateTime (formatted cdr.tmEnd), .int cdr.sipStatus.toNat,
        .int ReleaseCause.callRejectedDueToTerminationCarriers.value⟩ } := by
  rw [amend, sessionEdits, executions, htype]
  dsimp only
  rw [writeOriginationFinalResponseCdr, if_neg hstatus]
  rfl

theorem amend_cancel (htype : cdr.cdrType = .originationCancel) :
    amend row? cdr = row?.map fun row => { row with account := { row.account with
      finalSipStatus := .int 487
      endTime := .dateTime (formatted cdr.tmEnd)
      releaseCause := .int ReleaseCause.callCanceled.value } } := by
  rw [amend, sessionEdits, executions, htype]
  rfl

theorem amend_terminationAttempt (htype : cdr.cdrType = .terminationAttempt) :
    amend row? cdr = row?.map fun row => { row with outbound := cdr.sessionOutbound } := by
  rw [amend, sessionEdits, executions, htype]
  rfl

theorem amend_bye (htype : cdr.cdrType = .callCleared) :
    amend row? cdr = row?.map fun row => { row with account := { row.account with
      endTime := .dateTime (formatted cdr.tmEnd)
      releaseCause := .int cdr.releaseCause.value } } := by
  rw [amend, sessionEdits, executions, htype]
  rfl

/-- The statements of a record are about the row with its UUID. -/
theorem sessionEdits_target (cdr : CdrInfo) :
    ∀ e ∈ cdr.sessionEdits, e.target SessionRow.sessionUuid = .string cdr.uuid ∧ e.Lawful SessionRow.sessionUuid := by
  unfold sessionEdits executions
  cases cdr.cdrType with
  | originationFinalResponse =>
    dsimp only
    unfold writeOriginationFinalResponseCdr
    split_ifs
    · exact fun e he => List.mem_singleton.1 he ▸ ⟨rfl, fun _ => rfl⟩
    · exact fun e he => List.mem_singleton.1 he ▸ ⟨rfl, fun _ => rfl⟩
  | originationRequest => exact fun e he => List.mem_singleton.1 he ▸ ⟨rfl, trivial⟩
  | originationCancel | terminationAttempt | callCleared =>
    exact fun e he => List.mem_singleton.1 he ▸ ⟨rfl, fun _ => rfl⟩

end

section

variable (ws : List CdrInfo)

theorem lawful_sessionEdits : ∀ e ∈ ws.flatMap sessionEdits, e.Lawful SessionRow.sessionUuid := by
  intro e he
  obtain ⟨cdr, -, he⟩ := List.mem_flatMap.1 he
  exact (cdr.sessionEdits_target e he).2

theorem trail_sessionEdits (uuid : SqlValue) :
    trail (Edit.target SessionRow.sessionUuid) uuid (ws.flatMap sessionEdits) =
      (trail sessionUuid uuid ws).flatMap sessionEdits := by
  induction ws with
  | nil => rfl
  | cons cdr ws ih =>
    rw [List.flatMap_cons, trail, List.filter_append]
    change _ ++ trail _ uuid (ws.flatMap sessionEdits) = _
    rw [ih]
    by_cases hk : cdr.sessionUuid = uuid
    · have hall : cdr.sessionEdits.filter (fun e => e.target SessionRow.sessionUuid = uuid) = cdr.sessionEdits :=
        List.filter_eq_self.2 fun e he => decide_eq_true ((cdr.sessionEdits_target e he).1.trans hk)
      rw [hall, trail_cons_self hk, List.flatMap_cons]
    · have hnone : cdr.sessionEdits.filter (fun e => e.target SessionRow.sessionUuid = uuid) = [] :=
        List.filter_eq_nil_iff.2 fun e he htarget =>
          hk ((cdr.sessionEdits_target e he).1.symm.trans (of_decide_eq_true htarget))
      rw [hnone, List.nil_append, trail_cons_of_ne hk]

/-- A row is what the records with its UUID have made of it. -/
theorem row?_sessions (uuid : SqlValue) :
    Edit.row? SessionRow.sessionUuid (sessions ws) uuid =
      (trail sessionUuid uuid ws).foldl amend none := by
  rw [sessions, Edit.row?_foldl (lawful_sessionEdits ws), trail_sessionEdits, List.foldl_flatMap]
  rfl

theorem nodup_sessions : ((sessions ws).map SessionRow.sessionUuid).Nodup :=
  Edit.nodup_foldl (lawful_sessionEdits ws) List.nodup_nil

end

/-! ### The rows that are counted -/

theorem toCdrSession_insert (row : SessionRow) (rows : List SessionRow) :
    (Edit.apply SessionRow.sessionUuid rows (.insert row)).map SessionRow.toCdrSession =
      CdrSession.insert (rows.map SessionRow.toCdrSession) row.toCdrSession := by
  have hany : (rows.map SessionRow.toCdrSession).any (·.sessionUuid = row.toCdrSession.sessionUuid) =
      rows.any (·.sessionUuid = row.sessionUuid) := by
    rw [List.any_map]
    rfl
  change (if _ then _ else _ : List SessionRow).map _ = if _ then _ else _
  rw [hany]
  split_ifs
  · rfl
  · rw [List.map_append]
    rfl

theorem toCdrSession_update (uuid : SqlValue) {f : SessionRow → SessionRow} {g : CdrSession → CdrSession}
    (hf : ∀ row, (f row).toCdrSession = g row.toCdrSession) (rows : List SessionRow) :
    (Edit.apply SessionRow.sessionUuid rows (.update uuid f)).map SessionRow.toCdrSession =
      CdrSession.update (rows.map SessionRow.toCdrSession) uuid g := by
  change (rows.map _).map _ = (rows.map _).map _
  rw [List.map_map, List.map_map]
  refine List.map_congr_left fun row _ => ?_
  change (if row.sessionUuid = uuid then f row else row).toCdrSession =
    if row.sessionUuid = uuid then g row.toCdrSession else row.toCdrSession
  split_ifs
  · exact hf row
  · rfl

/-- A record is written to the rows, and to what is counted of them. -/
theorem toCdrSession_sessionEdits (cdr : CdrInfo) (rows : List SessionRow) :
    (cdr.sessionEdits.foldl (Edit.apply SessionRow.sessionUuid) rows).map SessionRow.toCdrSession =
      cdr.write (rows.map SessionRow.toCdrSession) := by
  rw [sessionEdits, write, executions]
  cases cdr.cdrType with
  | originationRequest => exact toCdrSession_insert _ rows
  | originationFinalResponse =>
    dsimp only
    rw [writeOriginationFinalResponseCdr]
    split_ifs
    · exact toCdrSession_update _ (fun _ => rfl) rows
    · exact toCdrSession_update _ (fun _ => rfl) rows
  | originationCancel | callCleared => exact toCdrSession_update _ (fun _ => rfl) rows
  | terminationAttempt =>
    have hid : ∀ rows : List CdrSession, CdrSession.update rows (.string cdr.uuid) id = rows := fun rows => by
      simp [CdrSession.update]
    have hupdate := toCdrSession_update (.string cdr.uuid)
      (f := fun row : SessionRow => { row with outbound := cdr.sessionOutbound }) (g := id) (fun _ => rfl) rows
    rw [hid] at hupdate
    exact hupdate

theorem toCdrSession_sessions (ws : List CdrInfo) :
    (sessions ws).map SessionRow.toCdrSession = ws.foldl write [] := by
  rw [sessions, List.foldl_flatMap]
  suffices h : ∀ rows : List SessionRow,
      (ws.foldl (fun rows cdr => cdr.sessionEdits.foldl (Edit.apply SessionRow.sessionUuid) rows) rows).map
        SessionRow.toCdrSession = ws.foldl write (rows.map SessionRow.toCdrSession) from h []
  induction ws with
  | nil => exact fun _ => rfl
  | cons cdr ws ih =>
    intro rows
    rw [List.foldl_cons, List.foldl_cons, ih, toCdrSession_sessionEdits]

end CdrInfo

/-! ## What a row tells -/

/-- How late a stage is. -/
def CallStage.rank : CallStage → ℕ
  | unknown => 0
  | asked => 1
  | answered => 2
  | ended => 3

/-- A date and time in a row. -/
def SqlValue.at (t : ℕ) : SqlValue := .dateTime (CdrInfo.formatted t)

/-- What a row may say of its call at the time `now`, and how far the call has come for it. A call
    that is refused at once has no `end_time`, and one that is released after its answer was lost
    has no status. -/
inductive SessionAccount.Tells (now : ℕ) : SessionAccount → CallStage → Prop
  | asked (start : ℕ) (hstart : start ≤ now) : Tells now ⟨.at start, .null, .null, .null, .int 0⟩ .asked
  | refused (start status : ℕ) (cause : ReleaseCause) (hstart : start ≤ now) (hstatus : status ≠ 0)
      (hcause : cause.Refuses) : Tells now ⟨.at start, .null, .null, .int status, .int cause.value⟩ .ended
  | answered (start connect : ℕ) (hstart : start ≤ connect) (hconnect : connect ≤ now) :
      Tells now ⟨.at start, .at connect, .null, .int 200, .int 0⟩ .answered
  | failed (start finish status : ℕ) (hstart : start ≤ finish) (hfinish : finish ≤ now) (hstatus : status ≠ 200) :
      Tells now ⟨.at start, .null, .at finish, .int status,
        .int ReleaseCause.callRejectedDueToTerminationCarriers.value⟩ .ended
  | canceled (start finish : ℕ) (hstart : start ≤ finish) (hfinish : finish ≤ now) :
      Tells now ⟨.at start, .null, .at finish, .int 487, .int ReleaseCause.callCanceled.value⟩ .ended
  | cleared (start connect finish : ℕ) (cause : ReleaseCause) (hstart : start ≤ connect) (hconnect : connect ≤ finish)
      (hfinish : finish ≤ now) (hcause : cause = .callingPartyRelease ∨ cause = .calledPartyRelease) :
      Tells now ⟨.at start, .at connect, .at finish, .int 200, .int cause.value⟩ .ended
  | released (start finish : ℕ) (cause : ReleaseCause) (hstart : start ≤ finish) (hfinish : finish ≤ now)
      (hcause : cause = .callingPartyRelease ∨ cause = .calledPartyRelease) :
      Tells now ⟨.at start, .null, .at finish, .null, .int cause.value⟩ .ended

/-- The other columns of a row are those of records about the call. -/
structure SessionRow.Copies (row : SessionRow) (tr : List CdrInfo) : Prop where
  origin : ∃ r ∈ tr, r.cdrType = .originationRequest ∧ row.origin = r.sessionOrigin
  outbound : row.outbound = {} ∨ ∃ r ∈ tr, r.cdrType = .terminationAttempt ∧ row.outbound = r.sessionOutbound

/-- The row of a call, if there is one, against the records about the call, which have come to the
    stage `s`: it may be behind them if records get lost. -/
structure SessionRow.Fits (lossy : Prop) (uuid : SqlValue) (now : ℕ) (tr : List CdrInfo) (s : CallStage)
    (row? : Option SessionRow) : Prop where
  row : ∀ row ∈ row?, row.sessionUuid = uuid ∧ row.Copies tr ∧
    ∃ s', s'.rank ≤ s.rank ∧ (¬lossy → s' = s) ∧ row.account.Tells now s'
  exists_row : ¬lossy → s ≠ .unknown → row? ≠ none

section

variable {now now' : ℕ} {account : SessionAccount} {s s' : CallStage} {r : CdrInfo} {tr : List CdrInfo}
  {row : SessionRow} {row? : Option SessionRow} {uuid : SqlValue} {lossy : Prop}

theorem SessionAccount.Tells.mono (h : account.Tells now s) (hle : now ≤ now') : account.Tells now' s := by
  cases h with
  | asked start hstart => exact .asked start (hstart.trans hle)
  | refused start status cause hstart hstatus hcause =>
    exact .refused start status cause (hstart.trans hle) hstatus hcause
  | answered start connect hstart hconnect => exact .answered start connect hstart (hconnect.trans hle)
  | failed start finish status hstart hfinish hstatus =>
    exact .failed start finish status hstart (hfinish.trans hle) hstatus
  | canceled start finish hstart hfinish => exact .canceled start finish hstart (hfinish.trans hle)
  | cleared start connect finish cause hstart hconnect hfinish hcause =>
    exact .cleared start connect finish cause hstart hconnect (hfinish.trans hle) hcause
  | released start finish cause hstart hfinish hcause =>
    exact .released start finish cause hstart (hfinish.trans hle) hcause

/-- A row tells of a call that was asked for. -/
theorem SessionAccount.Tells.pos (h : account.Tells now s) : 0 < s.rank := by
  cases h <;> decide

/-- A row of a call that was only asked for. -/
theorem SessionAccount.Tells.of_asked (h : account.Tells now s) (hs : s.rank ≤ CallStage.asked.rank) :
    ∃ start ≤ now, account = ⟨.at start, .null, .null, .null, .int 0⟩ := by
  cases h with
  | asked start hstart => exact ⟨start, hstart, rfl⟩
  | refused | answered | failed | canceled | cleared | released => exact absurd hs (by decide)

/-- A row that a BYE comes to. -/
theorem SessionAccount.Tells.clear (h : account.Tells now s) (hs : s.rank ≤ CallStage.answered.rank)
    {cause : ReleaseCause} (hcause : cause = .callingPartyRelease ∨ cause = .calledPartyRelease) :
    ({ account with endTime := .at now, releaseCause := .int cause.value } : SessionAccount).Tells now .ended := by
  cases h with
  | asked start hstart => exact .released start now cause hstart le_rfl hcause
  | answered start connect hstart hconnect => exact .cleared start connect now cause hstart hconnect le_rfl hcause
  | refused | failed | canceled | cleared | released => exact absurd hs (by decide)

theorem SessionRow.Copies.append (h : row.Copies tr) (r : CdrInfo) : row.Copies (tr ++ [r]) where
  origin := h.origin.imp fun _ h => ⟨List.mem_append_left _ h.1, h.2⟩
  outbound := h.outbound.imp_right fun h => h.imp fun _ h => ⟨List.mem_append_left _ h.1, h.2⟩

theorem SessionRow.Copies.congr (h : row.Copies tr) {row' : SessionRow} (horigin : row'.origin = row.origin)
    (houtbound : row'.outbound = row.outbound) : row'.Copies tr :=
  ⟨horigin ▸ h.origin, houtbound ▸ h.outbound⟩

theorem CallStage.rank_le_of_next (h : s.next r = some s') : s.rank ≤ s'.rank := by
  unfold next at h
  split at h <;> cases h
  · exact le_rfl
  all_goals first | decide | (split_ifs <;> decide)

/-- The account of a row is updated. -/
theorem SessionRow.Fits.update (h : SessionRow.Fits lossy uuid now tr s row?) {f : SessionAccount → SessionAccount}
    (hf : ∀ account s₀, s₀.rank ≤ s.rank → account.Tells now s₀ → (f account).Tells now s') (hne : s ≠ .unknown) :
    SessionRow.Fits lossy uuid now (tr ++ [r]) s' (row?.map fun row => { row with account := f row.account }) := by
  refine ⟨fun row' hrow' => ?_, fun hlossy _ hnone => h.exists_row hlossy hne (Option.map_eq_none_iff.1 hnone)⟩
  obtain ⟨row, hrow, rfl⟩ := Option.map_eq_some_iff.1 hrow'
  obtain ⟨huuid, hcopies, s₀, hle, -, htells⟩ := h.row row hrow
  exact ⟨huuid, (hcopies.append r).congr rfl rfl, s', le_rfl, fun _ => rfl, hf row.account s₀ hle htells⟩

/-- A record about an attempt. -/
theorem SessionRow.Fits.attempt (h : SessionRow.Fits lossy uuid now tr s row?)
    (htype : r.cdrType = .terminationAttempt) :
    SessionRow.Fits lossy uuid now (tr ++ [r]) s (row?.map fun row => { row with outbound := r.sessionOutbound }) := by
  refine ⟨fun row' hrow' => ?_, fun hlossy hne hnone => h.exists_row hlossy hne (Option.map_eq_none_iff.1 hnone)⟩
  obtain ⟨row, hrow, rfl⟩ := Option.map_eq_some_iff.1 hrow'
  obtain ⟨huuid, hcopies, htells⟩ := h.row row hrow
  refine ⟨huuid, ⟨(hcopies.append r).origin, .inr ⟨r, ?_, htype, rfl⟩⟩, htells⟩
  exact List.mem_append_right _ (List.mem_singleton_self r)

/-- Where nothing was asked for, there is no row. -/
theorem SessionRow.Fits.eq_none (h : SessionRow.Fits lossy uuid now tr .unknown row?) : row? = none := by
  refine Option.eq_none_iff_forall_not_mem.2 fun row hrow => ?_
  obtain ⟨-, -, s', hle, -, htells⟩ := h.row row hrow
  exact absurd htells.pos (not_lt.2 hle)

/-- The first record of a call. -/
theorem SessionRow.Fits.insert (hr : r.sessionUuid = uuid) (htype : r.cdrType = .originationRequest)
    (hstamped : r.Stamped now) (hs : CallStage.next .unknown r = some s') :
    SessionRow.Fits lossy uuid now (tr ++ [r]) s' (CdrInfo.amend none r) := by
  rw [CdrInfo.amend_originationRequest htype]
  refine ⟨fun row hrow => ?_, fun _ _ => Option.some_ne_none _⟩
  obtain rfl := Option.some_inj.1 hrow
  refine ⟨hr, ⟨⟨r, List.mem_append_right _ (List.mem_singleton_self r), htype, rfl⟩, .inl rfl⟩, s', le_rfl,
    fun _ => rfl, ?_⟩
  rw [CallStage.next_originationRequest htype] at hs
  unfold CdrInfo.Stamped at hstamped
  rw [htype] at hstamped
  rcases hstamped with hoffers | hrefuses
  · rw [if_pos hoffers.sipStatus, Option.some_inj] at hs
    subst hs
    rw [hoffers.tmStart, hoffers.tmEnd, hoffers.sipStatus, hoffers.releaseCause]
    exact .asked now le_rfl
  · rw [if_neg hrefuses.sipStatus, Option.some_inj] at hs
    subst hs
    have hpos : 0 < r.sipStatus := UInt32.pos_iff_ne_zero.2 hrefuses.sipStatus
    rw [hrefuses.tmStart, hrefuses.tmEnd, if_pos hpos]
    refine .refused now _ r.releaseCause le_rfl (fun hzero => hrefuses.sipStatus ?_) hrefuses.releaseCause
    exact UInt32.toNat_inj.1 hzero

/-- **A record that is written keeps the row of its call in step.** -/
theorem SessionRow.Fits.amend (h : SessionRow.Fits lossy uuid now tr s row?) (hr : r.sessionUuid = uuid)
    (hs : s.next r = some s') (hstamped : r.Stamped now) :
    SessionRow.Fits lossy uuid now (tr ++ [r]) s' (CdrInfo.amend row? r) := by
  have hstamp := hstamped
  unfold CdrInfo.Stamped at hstamp
  unfold CallStage.next at hs
  split at hs
  next htype =>
    obtain rfl := Option.some_inj.1 hs
    rw [CdrInfo.amend_terminationAttempt htype]
    exact h.attempt htype
  next htype =>
    rw [h.eq_none]
    exact .insert hr htype hstamped ((CallStage.next_originationRequest htype).trans hs)
  next htype =>
    obtain rfl := Option.some_inj.1 hs
    rw [htype] at hstamp
    dsimp only at hstamp
    by_cases hstatus : r.sipStatus = 200
    · rw [if_pos hstatus] at hstamp
      rw [CdrInfo.amend_answer htype hstatus, if_pos hstatus, hstamp]
      refine h.update (f := fun account => ⟨account.startTime, .at now, .null, .int 200, .int 0⟩)
        (fun account s₀ hle htells => ?_) CallStage.noConfusion
      obtain ⟨start, hstart, rfl⟩ := htells.of_asked hle
      exact .answered start now hstart le_rfl
    · rw [if_neg hstatus] at hstamp
      rw [CdrInfo.amend_failure htype hstatus, if_neg hstatus, hstamp]
      refine h.update (f := fun account => ⟨account.startTime, .null, .at now, .int r.sipStatus.toNat, _⟩)
        (fun account s₀ hle htells => ?_) CallStage.noConfusion
      obtain ⟨start, hstart, rfl⟩ := htells.of_asked hle
      exact .failed start now _ hstart le_rfl fun heq => hstatus (UInt32.toNat_inj.1 heq)
  next htype =>
    obtain rfl := Option.some_inj.1 hs
    rw [htype] at hstamp
    rw [CdrInfo.amend_cancel htype, show r.tmEnd = now from hstamp]
    refine h.update (f := fun account => ⟨account.startTime, account.connectTime, .at now, .int 487, _⟩)
      (fun account s₀ hle htells => ?_) CallStage.noConfusion
    obtain ⟨start, hstart, rfl⟩ := htells.of_asked hle
    exact .canceled start now hstart le_rfl
  next htype =>
    obtain rfl := Option.some_inj.1 hs
    rw [htype] at hstamp
    rw [CdrInfo.amend_bye htype, hstamp.1]
    refine h.update (f := fun account => { account with endTime := .at now, releaseCause := .int r.releaseCause.value })
      (fun account s₀ hle htells => ?_) CallStage.noConfusion
    exact htells.clear (hle.trans (by decide)) hstamp.2
  next htype =>
    obtain rfl := Option.some_inj.1 hs
    rw [htype] at hstamp
    rw [CdrInfo.amend_bye htype, hstamp.1]
    refine h.update (f := fun account => { account with endTime := .at now, releaseCause := .int r.releaseCause.value })
      (fun account s₀ hle htells => ?_) CallStage.noConfusion
    exact htells.clear hle hstamp.2
  next => cases hs

/-- **Rows against records**: if the records of a call came in their course, at their times, the row
    that the writer has made of those it has heard of fits them. -/
theorem SessionRow.fits_of_heard {rs ws : List CdrInfo} (hdated : Dated (fun t r => CdrInfo.Stamped t r) now rs)
    (h : Heard lossy rs ws) (hs : callCourse.stage (trail CdrInfo.sessionUuid uuid rs) = some s) :
    SessionRow.Fits lossy uuid now (trail CdrInfo.sessionUuid uuid rs) s
      (Edit.row? SessionRow.sessionUuid (CdrInfo.sessions ws) uuid) := by
  rw [CdrInfo.row?_sessions]
  refine callCourse.fits_of_heard (SessionRow.Fits lossy uuid)
    (fun t => ⟨fun row hrow => absurd hrow (Option.not_mem_none row), fun _ hne => absurd rfl hne⟩)
    (fun hle hfits => ⟨fun row hrow => ?_, hfits.exists_row⟩)
    (fun hfits hr hs hstamped => hfits.amend hr hs hstamped)
    (fun hlossy t tr s v r s' hfits hr hs _ => ⟨fun row hrow => ?_, fun hne => absurd hlossy hne⟩) hdated h hs
  · obtain ⟨huuid, hcopies, s', hrank, heq, htells⟩ := hfits.row row hrow
    exact ⟨huuid, hcopies, s', hrank, heq, htells.mono hle⟩
  · obtain ⟨huuid, hcopies, s₀, hrank, -, htells⟩ := hfits.row row hrow
    exact ⟨huuid, hcopies.append r, s₀, hrank.trans (CallStage.rank_le_of_next hs), fun hne => absurd hlossy hne,
      htells⟩

end

namespace Bookkeeping

/-! ## Runs -/

/-- What the writer has written. -/
def written (x : Bookkeeping) : List Written := (x.controller.cdrWriter.map (·.written)).getD []

/-- The rows of the database. -/
def sessions (x : Bookkeeping) : List SessionRow := CdrInfo.sessions (x.written.map (·.record))

/-- All records were posted at their times, and the writer has written some of those it took. -/
structure WriterInv (x : Bookkeeping) : Prop where
  dated : Dated (fun t r => CdrInfo.Stamped t r) x.controller.now x.posted
  heard : Heard True x.taken (x.written.map (·.posted))

section

variable {x : Bookkeeping} {e : ControllerEvent}

/-- The writer takes a record, and writes it or not. -/
theorem WriterInv.writeCdr (h : x.WriterInv) (connected : Bool) : (x.next (.writeCdr connected)).WriterInv := by
  have hposted : (x.next (.writeCdr connected)).posted = x.posted := by
    change (x.taken ++ x.controller.takes _) ++ (x.controller.next _).queued = _
    rw [List.append_assoc, Controller.takes_append_queued]
    rfl
  refine ⟨hposted ▸ h.dated, ?_⟩
  have hheard := h.heard
  change Heard True (x.taken ++ x.controller.queued.take 1)
    (((x.controller.next (.writeCdr connected)).cdrWriter.map (·.written)).getD [] |>.map (·.posted))
  unfold written at hheard
  unfold Controller.queued Controller.records Controller.next
  cases hw : x.controller.cdrWriter with
  | none =>
    rw [hw] at hheard
    simpa using hheard
  | some w =>
    rw [hw] at hheard
    simp only [Option.map_some, Option.getD_some] at hheard ⊢
    unfold CdrWriter.writeCdr
    cases hq : w.queue with
    | nil => simpa using hheard
    | cons p rest =>
      dsimp only
      split
      · rw [List.map_append]
        exact hheard.heard p.record
      · exact hheard.missed p.record trivial

/-- What an event posts is stamped. -/
theorem WriterInv.posts (h : x.WriterInv) (hinv : x.Inv) (hwrite : ∀ connected, e ≠ .writeCdr connected)
    (hstamps : Controller.Stamps x.controller (x.controller.next e)) : (x.next e).WriterInv := by
  obtain ⟨new, hdesk, hnew⟩ := hstamps
  have hnow : (x.controller.next e).now = x.controller.now := congrArg Controller.Desk.now hdesk
  have hwritten : (x.next e).written = x.written := congrArg (Option.getD · []) (congrArg Controller.Desk.written hdesk)
  refine ⟨?_, ?_⟩
  · rw [posted_next hinv hwrite (congrArg Controller.Desk.posted hdesk)]
    change Dated _ (x.controller.next e).now _
    rw [hnow]
    exact h.dated.append hnew
  · change Heard True (x.taken ++ x.controller.takes e) _
    rw [hwritten, Controller.takes_of_ne hwrite, List.append_nil]
    exact h.heard

theorem WriterInv.next (h : x.WriterInv) (hinv : x.Inv) (he : machine.enabled x e) : (x.next e).WriterInv := by
  cases e with
  | writeCdr connected => exact h.writeCdr connected
  | clock now =>
    refine ⟨?_, ?_⟩
    · rw [posted_next hinv (fun _ => ControllerEvent.noConfusion) (Records.posts_nil rfl), List.append_nil]
      exact h.dated.later he.1.1
    · change Heard True (x.taken ++ []) _
      rw [List.append_nil]
      exact h.heard
  | _ =>
    refine h.posts hinv (fun _ => ControllerEvent.noConfusion) (Controller.stamps_next _ ?_ ?_)
    · exact fun _ => ControllerEvent.noConfusion
    · exact fun _ => ControllerEvent.noConfusion

theorem writerInv_init (hx : x ∈ machine.init) : x.WriterInv := by
  refine ⟨?_, ?_⟩
  · rw [posted_init hx]
    exact .nil _
  · obtain ⟨hinit, -, htaken⟩ := hx
    rw [htaken, written]
    cases hw : x.controller.cdrWriter with
    | none => exact .nil
    | some w =>
      rw [Option.map_some, Option.getD_some, (hinit.cdrWriter w hw).2]
      exact .nil

/-- What holds of the posted and the written records in every run. -/
theorem writerInv_of_reachable (hx : machine.Reachable x) : x.TrailInv ∧ x.WriterInv :=
  hx.invariant (I := fun x => x.TrailInv ∧ x.WriterInv) (fun _ hinit => ⟨trailInv_init hinit, writerInv_init hinit⟩)
    fun _ _ h he => ⟨h.1.next he, h.2.next h.1.inv he⟩

/-- The records are written as they were posted. -/
theorem records_of_faithful (hfaithful : x.controller.Faithful) :
    x.written.map (·.record) = x.written.map (·.posted) := by
  refine List.map_congr_left fun r hr => ?_
  unfold written at hr
  cases hw : x.controller.cdrWriter with
  | none =>
    rw [hw] at hr
    exact absurd hr List.not_mem_nil
  | some w =>
    rw [hw] at hr
    exact (hfaithful w hw).2 r hr

theorem sessions_of_faithful (hfaithful : x.controller.Faithful) :
    x.sessions = CdrInfo.sessions (x.written.map (·.posted)) :=
  congrArg CdrInfo.sessions (records_of_faithful hfaithful)

/-- The row with a UUID, against the records that were posted. -/
theorem fits_of_inv (h : x.TrailInv) (hfaithful : x.controller.Faithful) (uuid : Bytes) {lossy : Prop}
    (hdated : Dated (fun t r => CdrInfo.Stamped t r) x.controller.now x.posted)
    (hheard : Heard lossy x.posted (x.written.map (·.posted))) :
    ∃ s, callCourse.stage (x.trailOf uuid) = some s ∧
      SessionRow.Fits lossy (.string uuid) x.controller.now (x.trailOf uuid) s
        (Edit.row? SessionRow.sessionUuid x.sessions (.string uuid)) := by
  obtain ⟨s, hs⟩ := h.stageOf uuid
  have hfits := SessionRow.fits_of_heard hdated hheard hs
  rw [← sessions_of_faithful hfaithful, trailOf_eq] at hfits
  exact ⟨s, x.stageOf_eq uuid ▸ hs, hfits⟩

/-- A row has the UUID of a record. -/
theorem exists_uuid_of_mem (hfaithful : x.controller.Faithful) {row : SessionRow} (hrow : row ∈ x.sessions) :
    ∃ uuid, row.sessionUuid = .string uuid := by
  have hrow? := Edit.row?_of_mem (CdrInfo.nodup_sessions _) (sessions_of_faithful hfaithful ▸ hrow)
  rw [CdrInfo.row?_sessions] at hrow?
  cases htrail : trail CdrInfo.sessionUuid row.sessionUuid (x.written.map (·.posted)) with
  | nil =>
    rw [htrail] at hrow?
    cases hrow?
  | cons r rs =>
    have hr : r ∈ trail CdrInfo.sessionUuid row.sessionUuid (x.written.map (·.posted)) := htrail ▸ List.mem_cons_self
    exact ⟨r.uuid, (of_decide_eq_true (List.mem_filter.1 hr).2).symm⟩

/-- **Every row of the database tells the story of a call**, with its times in order, in every state
    in which the records were written as they were posted, whichever of them got lost. It is never
    ahead of the records that were posted under its UUID, and there is one row for each UUID. -/
theorem sessions_of_reachable (hx : machine.Reachable x) (hfaithful : x.controller.Faithful) :
    (x.sessions.map SessionRow.sessionUuid).Nodup ∧
      ∀ row ∈ x.sessions, ∃ uuid s s', row.sessionUuid = .string uuid ∧
        callCourse.stage (x.trailOf uuid) = some s ∧ s'.rank ≤ s.rank ∧ row.account.Tells x.controller.now s' ∧
        row.Copies (x.trailOf uuid) := by
  obtain ⟨htrail, hwriter⟩ := writerInv_of_reachable hx
  refine ⟨CdrInfo.nodup_sessions _, fun row hrow => ?_⟩
  obtain ⟨uuid, huuid⟩ := exists_uuid_of_mem hfaithful hrow
  obtain ⟨s, hs, hfits⟩ :=
    fits_of_inv htrail hfaithful uuid hwriter.dated (hwriter.heard.append trivial x.controller.queued)
  have hrow? := Edit.row?_of_mem (CdrInfo.nodup_sessions _) hrow
  rw [huuid] at hrow?
  obtain ⟨-, hcopies, s', hle, -, htells⟩ := hfits.row row hrow?
  exact ⟨uuid, s, s', huuid, hs, hle, htells, hcopies⟩

/-- **The database tells of every call how far it has come**, once all records are written as they
    were posted and none got lost: the row of a call that goes on says whether it was answered. The
    rows are then those that the standing calls are counted by. -/
theorem sessions_of_written (hx : machine.Reachable x) (hfaithful : x.controller.Faithful)
    (hwritten : x.written.map (·.posted) = x.posted) :
    x.sessions.map SessionRow.toCdrSession = x.rows ∧
    (∀ uuid s, callCourse.stage (x.trailOf uuid) = some s → s ≠ .unknown →
      ∃ row ∈ x.sessions, row.sessionUuid = .string uuid ∧ row.account.Tells x.controller.now s) ∧
    ∀ a, x.controller.calls.Originates a → ∃ row ∈ x.sessions, x.controller.uuidOf a = some row.sessionUuid ∧
      row.account.Tells x.controller.now (.ofAnswered (x.controller.calls.answered a)) := by
  obtain ⟨htrail, hwriter⟩ := writerInv_of_reachable hx
  have hall : ∀ uuid s, callCourse.stage (x.trailOf uuid) = some s → s ≠ .unknown →
      ∃ row ∈ x.sessions, row.sessionUuid = .string uuid ∧ row.account.Tells x.controller.now s := by
    intro uuid s hs hne
    have hheard : Heard False x.posted (x.written.map (·.posted)) := hwritten ▸ .refl False _
    obtain ⟨s', hs', hfits⟩ := fits_of_inv htrail hfaithful uuid hwriter.dated hheard
    obtain rfl := Option.some_inj.1 (hs'.symm.trans hs)
    obtain ⟨row, hrow⟩ := Option.ne_none_iff_exists'.1 (hfits.exists_row id hne)
    obtain ⟨huuid, -, s₀, -, heq, htells⟩ := hfits.row row hrow
    exact ⟨row, Edit.mem_of_row? hrow, huuid, heq id ▸ htells⟩
  refine ⟨?_, hall, fun a ha => ?_⟩
  · rw [sessions_of_faithful hfaithful, CdrInfo.toCdrSession_sessions, hwritten]
    rfl
  obtain ⟨uuid, huuid⟩ := htrail.exists_uuid (Calls.status_ne_none.2 ha)
  have hstage := htrail.traced.place a _ _ (if_pos ha) huuid
  have hne : CallStage.ofAnswered (x.controller.calls.answered a) ≠ .unknown := by
    cases x.controller.calls.answered a <;> exact CallStage.noConfusion
  obtain ⟨row, hrow, hkey, htells⟩ := hall uuid _ ((x.stageOf_eq uuid).symm.trans hstage) hne
  exact ⟨row, hrow, huuid.trans (congrArg some hkey.symm), htells⟩

end

/-! ## An example -/

/-- A call is answered, and both records are written. -/
def exampleWritten : List ControllerEvent := exampleAnswered ++ [.writeCdr true, .writeCdr true]

theorem exampleWritten_reachable : machine.Reachable (machine.exec exampleBookkeeping exampleWritten) := by
  have hrun : machine.IsRun exampleBookkeeping exampleWritten := by
    refine ⟨exampleBookkeeping_init, ⟨⟨trivial, by decide⟩, ?_⟩, ⟨⟨⟨_, rfl, rfl, rfl⟩, by decide⟩, ?_⟩,
      ⟨⟨trivial, by decide⟩, trivial⟩, ⟨⟨trivial, by decide⟩, trivial⟩, trivial⟩
    · exact fun row hrow => absurd hrow List.not_mem_nil
    · change (200 : ℤ) < UInt32.size
      decide
  exact Machine.Reachable.exec (.init hrun.1) hrun.2

theorem exampleWritten_faithful : (machine.exec exampleBookkeeping exampleWritten).controller.Faithful := by
  intro w hw
  obtain rfl := Option.some.inj hw
  refine ⟨fun p hp => absurd hp List.not_mem_nil, ?_⟩
  decide

/-- The database has a row, and it tells the story of a call. -/
theorem sessions_exampleWritten :
    ((machine.exec exampleBookkeeping exampleWritten).sessions.map SessionRow.sessionUuid).Nodup ∧
      ∃ row ∈ (machine.exec exampleBookkeeping exampleWritten).sessions, ∃ s', row.account.Tells 5 s' := by
  obtain ⟨hnodup, htells⟩ := sessions_of_reachable exampleWritten_reachable exampleWritten_faithful
  obtain ⟨row, hrow⟩ := List.exists_mem_of_ne_nil (machine.exec exampleBookkeeping exampleWritten).sessions (by decide)
  obtain ⟨uuid, s, s', -, -, -, h, -⟩ := htells row hrow
  exact ⟨hnodup, row, hrow, s', h⟩

/-- The row of the call says that it was answered. -/
theorem written_exampleWritten :
    (machine.exec exampleBookkeeping exampleWritten).sessions.map (·.account) =
        [⟨.at 5, .at 5, .null, .int 200, .int 0⟩] ∧
      ∃ row ∈ (machine.exec exampleBookkeeping exampleWritten).sessions,
        row.sessionUuid = .string ['u'] ∧ row.account.Tells 5 .answered := by
  refine ⟨by decide, ?_⟩
  exact (sessions_of_written exampleWritten_reachable exampleWritten_faithful (by decide)).2.1 ['u'] .answered
    (by decide) (by decide)

end Bookkeeping

end Ssp
