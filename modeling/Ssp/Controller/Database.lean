import Ssp.Controller.Sessions

/-!
# The attempts of a call in the database

Each `termination_attempt` record becomes a row of its own, numbered by a trigger, and is copied into
the row of its call. The two statements are executed one after the other, and either may be refused:
a row is only inserted for a call that is there, and its number has to fit into a `tinyint`.

All statements of a record are about the rows with its UUID (`dossier_write`), so that a call may be
looked at alone. In whatever order records are written, and whichever of their statements are
executed, the attempts are numbered as they come (`Dossier.Filed`). `consistent_iff`: the rows of the
calls tell of their last attempts exactly as long as the writing of an attempt is not broken off
between its two statements.
-/

namespace Ssp

/-! ## The tables -/

/-- A row of `termination_attempt`. -/
structure AttemptRow where
  cdrSessionUuid : SqlValue
  startTime : SqlValue
  connectTime : SqlValue
  endTime : SqlValue
  finalSipStatus : SqlValue
  sipCallId : SqlValue
  terminatingCarrier : SqlValue
  terminatingCarrierIpAddress : SqlValue
  attemptSequence : ℕ
  deriving DecidableEq

structure Database where
  cdrSession : List SessionRow := []
  terminationAttempt : List AttemptRow := []
  deriving DecidableEq

/-- What a `tinyint` column makes of a number. One that is too large is refused if the mode of the
    database is strict. -/
def tinyint (strict : Bool) (n : ℕ) : Option ℕ := if n ≤ 127 then some n else if strict then none else some 127

/-- `ifnull( max(attempt_sequence), 0) + 1` -/
def nextSequence (rows : List AttemptRow) : ℕ := (rows.map AttemptRow.attemptSequence).foldr max 0 + 1

/-- `UPDATE termination_attempt SET end_time=? WHERE .. and final_sip_status = 200` -/
def AttemptRow.close (endTime : SqlValue) (row : AttemptRow) : AttemptRow :=
  if row.finalSipStatus = .int 200 then { row with endTime := endTime } else row

namespace Database

def attemptsOf (db : Database) (uuid : SqlValue) : List AttemptRow :=
  db.terminationAttempt.filter fun row => row.cdrSessionUuid = uuid

/-- What a statement does, or `none` if it is refused. -/
def execute (strict : Bool) (db : Database) : Execution → Option Database
  | ⟨.term1, [uuid, startTime, connectTime, endTime, status, callId, carrier, address]⟩ =>
    -- The foreign key, and the trigger.
    if db.cdrSession.any (·.sessionUuid = uuid) then
      (tinyint strict (nextSequence (db.attemptsOf uuid))).map fun n =>
        { db with terminationAttempt := db.terminationAttempt ++
          [⟨uuid, startTime, connectTime, endTime, status, callId, carrier, address, n⟩] }
    else none
  | ⟨.bye2, [endTime, uuid]⟩ =>
    some { db with terminationAttempt := db.terminationAttempt.map fun row =>
      if row.cdrSessionUuid = uuid then row.close endTime else row }
  | x =>
    some { db with cdrSession := x.sessionEdit.elim db.cdrSession (Edit.apply SessionRow.sessionUuid db.cdrSession) }

/-- A record is written, but for the statements from `n` on. -/
def write (strict : Bool) (db : Database) (cdr : CdrInfo) (n : ℕ) : Database :=
  untilRefused (execute strict) db (cdr.executions.take n)

end Database

/-- What the database has under a UUID. -/
structure Dossier where
  session? : Option SessionRow := none
  attempts : List AttemptRow := []
  deriving DecidableEq

namespace Dossier

/-- The same, where the statement is about its UUID. -/
def execute (strict : Bool) (d : Dossier) : Execution → Option Dossier
  | ⟨.term1, [uuid, startTime, connectTime, endTime, status, callId, carrier, address]⟩ =>
    if d.session?.isSome then
      (tinyint strict (nextSequence d.attempts)).map fun n =>
        { d with attempts := d.attempts ++
          [⟨uuid, startTime, connectTime, endTime, status, callId, carrier, address, n⟩] }
    else none
  | ⟨.bye2, [endTime, _]⟩ => some { d with attempts := d.attempts.map (AttemptRow.close endTime) }
  | x => some { d with session? := x.sessionEdit.elim d.session? (Edit.on d.session?) }

def write (strict : Bool) (d : Dossier) (cdr : CdrInfo) (n : ℕ) : Dossier :=
  untilRefused (execute strict) d (cdr.executions.take n)

end Dossier

def Database.dossier (db : Database) (uuid : SqlValue) : Dossier where
  session? := Edit.row? SessionRow.sessionUuid db.cdrSession uuid
  attempts := db.attemptsOf uuid

/-! ## Each record is about one call -/

/-- The statement is about the rows with a UUID. -/
inductive Execution.About (uuid : SqlValue) : Execution → Prop
  | attempt (startTime connectTime endTime status callId carrier address : SqlValue) :
    About uuid ⟨.term1, [uuid, startTime, connectTime, endTime, status, callId, carrier, address]⟩
  | close (endTime : SqlValue) : About uuid ⟨.bye2, [endTime, uuid]⟩
  | session (x : Execution) (e : Edit SqlValue SessionRow) (hterm : x.stmt ≠ .term1) (hbye : x.stmt ≠ .bye2)
      (hedit : x.sessionEdit = some e) (htarget : e.target SessionRow.sessionUuid = uuid)
      (hlawful : e.Lawful SessionRow.sessionUuid) : About uuid x

section

variable {strict : Bool} {db : Database} {d : Dossier} {uuid k : SqlValue} {x : Execution} {cdr : CdrInfo} {n : ℕ}

/-- A record that is neither about an attempt nor a BYE has one statement, about the call. -/
theorem CdrInfo.executions_session (hattempt : cdr.cdrType ≠ .terminationAttempt)
    (hbye : cdr.cdrType ≠ .callCleared) : ∃ x e, cdr.executions = [x] ∧ x.stmt ≠ .term1 ∧ x.stmt ≠ .bye2 ∧
      x.sessionEdit = some e ∧ cdr.sessionEdits = [e] := by
  rw [sessionEdits]
  unfold executions
  cases htype : cdr.cdrType with
  | originationRequest | originationCancel => exact ⟨_, _, rfl, Stmt.noConfusion, Stmt.noConfusion, rfl, rfl⟩
  | originationFinalResponse =>
    dsimp only
    unfold writeOriginationFinalResponseCdr
    split_ifs
    · exact ⟨_, _, rfl, Stmt.noConfusion, Stmt.noConfusion, rfl, rfl⟩
    · exact ⟨_, _, rfl, Stmt.noConfusion, Stmt.noConfusion, rfl, rfl⟩
  | terminationAttempt => exact absurd htype hattempt
  | callCleared => exact absurd htype hbye

theorem CdrInfo.executions_about (cdr : CdrInfo) : ∀ x ∈ cdr.executions, x.About cdr.sessionUuid := by
  have hsession : ∀ x ∈ cdr.executions, ∀ e, x.stmt ≠ .term1 → x.stmt ≠ .bye2 → x.sessionEdit = some e →
      x.About cdr.sessionUuid := by
    intro x hx e hterm hbye hedit
    obtain ⟨htarget, hlawful⟩ := cdr.sessionEdits_target e (List.mem_filterMap.2 ⟨x, hx, hedit⟩)
    exact .session x e hterm hbye hedit htarget hlawful
  intro x hx
  have hmem := hx
  unfold executions at hx
  cases htype : cdr.cdrType with
  | originationRequest | originationFinalResponse | originationCancel =>
    obtain ⟨x', e, hx', hterm, hbye, hedit, -⟩ := cdr.executions_session (by simp [htype]) (by simp [htype])
    obtain rfl := List.mem_singleton.1 (hx' ▸ hmem)
    exact hsession x hmem e hterm hbye hedit
  | terminationAttempt =>
    rw [htype] at hx
    rcases List.mem_cons.1 hx with rfl | hx
    · exact .attempt _ _ _ _ _ _ _
    · obtain rfl := List.mem_singleton.1 hx
      exact hsession _ hmem _ Stmt.noConfusion Stmt.noConfusion rfl
  | callCleared =>
    rw [htype] at hx
    rcases List.mem_cons.1 hx with rfl | hx
    · exact hsession _ hmem _ Stmt.noConfusion Stmt.noConfusion rfl
    · obtain rfl := List.mem_singleton.1 hx
      exact .close _

theorem Database.execute_session (hterm : x.stmt ≠ .term1) (hbye : x.stmt ≠ .bye2) (db : Database) :
    db.execute strict x = some { db with
      cdrSession := x.sessionEdit.elim db.cdrSession (Edit.apply SessionRow.sessionUuid db.cdrSession) } := by
  unfold execute
  split
  · exact absurd rfl hterm
  · exact absurd rfl hbye
  · rfl

theorem Dossier.execute_session (hterm : x.stmt ≠ .term1) (hbye : x.stmt ≠ .bye2) (d : Dossier) :
    d.execute strict x = some { d with session? := x.sessionEdit.elim d.session? (Edit.on d.session?) } := by
  unfold execute
  split
  · exact absurd rfl hterm
  · exact absurd rfl hbye
  · rfl

theorem attemptsOf_close (endTime : SqlValue) (rows : List AttemptRow) :
    (rows.map fun row => if row.cdrSessionUuid = uuid then row.close endTime else row).filter
        (fun row => row.cdrSessionUuid = k) =
      if uuid = k then (rows.filter fun row => row.cdrSessionUuid = k).map (AttemptRow.close endTime)
      else rows.filter fun row => row.cdrSessionUuid = k := by
  have hkey : ∀ row : AttemptRow, (row.close endTime).cdrSessionUuid = row.cdrSessionUuid := by
    intro row
    unfold AttemptRow.close
    split_ifs <;> rfl
  induction rows with
  | nil => simp
  | cons row rows ih =>
    rw [List.map_cons, List.filter_cons, List.filter_cons, ih]
    split_ifs <;> simp_all

/-- A statement is executed on what the database has under its UUID. -/
theorem map_dossier_execute (hx : x.About uuid) (db : Database) :
    (db.execute strict x).map (·.dossier uuid) = (db.dossier uuid).execute strict x := by
  cases hx with
  | attempt startTime connectTime endTime status callId carrier address =>
    have hany : db.cdrSession.any (·.sessionUuid = uuid) = (db.dossier uuid).session?.isSome :=
      List.isSome_find?.symm
    change (if db.cdrSession.any (·.sessionUuid = uuid) then _ else none : Option Database).map _ =
      if (db.dossier uuid).session?.isSome then _ else none
    rw [hany]
    split_ifs
    · rw [Option.map_map]
      refine congrArg (Option.map · _) (funext fun n => congrArg (Dossier.mk _) ?_)
      rw [Database.attemptsOf, List.filter_append]
      exact congrArg _ (List.filter_cons_of_pos (decide_eq_true rfl))
    · rfl
  | close endTime =>
    refine congrArg some (congrArg (Dossier.mk _) ?_)
    exact (attemptsOf_close endTime db.terminationAttempt).trans (if_pos rfl)
  | session _ e hterm hbye hedit htarget hlawful =>
    rw [Database.execute_session hterm hbye, Dossier.execute_session hterm hbye, hedit]
    refine congrArg some (congrArg (Dossier.mk · _) ?_)
    exact (Edit.row?_apply hlawful _ _).trans (if_pos htarget)

theorem dossier_execute_of_ne (hx : x.About uuid) (hne : uuid ≠ k) {db' : Database}
    (hdb : db.execute strict x = some db') : db'.dossier k = db.dossier k := by
  cases hx with
  | attempt startTime connectTime endTime status callId carrier address =>
    change (if _ then _ else none : Option Database) = some db' at hdb
    split_ifs at hdb
    obtain ⟨n, -, rfl⟩ := Option.map_eq_some_iff.1 hdb
    refine congrArg (Dossier.mk _) ?_
    rw [Database.attemptsOf, List.filter_append, List.filter_cons_of_neg (by simpa using hne), List.filter_nil,
      List.append_nil]
    rfl
  | close endTime =>
    obtain rfl := Option.some_inj.1 hdb
    refine congrArg (Dossier.mk _) ?_
    exact (attemptsOf_close endTime db.terminationAttempt).trans (if_neg hne)
  | session _ e hterm hbye hedit htarget hlawful =>
    rw [Database.execute_session hterm hbye, hedit] at hdb
    obtain rfl := Option.some_inj.1 hdb
    refine congrArg (Dossier.mk · _) ?_
    exact (Edit.row?_apply hlawful _ _).trans (if_neg fun h => hne (htarget.symm.trans h))

/-- **A record is written to the dossier of its UUID**, and to no other one. -/
theorem dossier_write (db : Database) (cdr : CdrInfo) (n : ℕ) (k : SqlValue) :
    (db.write strict cdr n).dossier k =
      if cdr.sessionUuid = k then (db.dossier k).write strict cdr n else db.dossier k := by
  have habout : ∀ x ∈ cdr.executions.take n, x.About cdr.sessionUuid := fun x hx =>
    cdr.executions_about x (List.mem_of_mem_take hx)
  split_ifs with hk
  · exact view_untilRefused (·.dossier k) (fun x hx db => map_dossier_execute (hk ▸ habout x hx) db) db
  · exact untilRefused_keeps (·.dossier k) (fun x hx db db' => dossier_execute_of_ne (habout x hx) hk) db

end

/-! ## What is written of a call -/

/-- The row of an attempt. -/
def CdrInfo.attemptRow (cdr : CdrInfo) (n : ℕ) : AttemptRow where
  cdrSessionUuid := .string cdr.uuid
  startTime := .dateTime (formatted cdr.tmStart)
  connectTime := if cdr.sipStatus = 200 then .dateTime (formatted cdr.tmConnect) else .null
  endTime := if cdr.sipStatus = 200 then .null else .dateTime (formatted cdr.tmEnd)
  finalSipStatus := .int cdr.sipStatus.toNat
  sipCallId := .string cdr.dlegCallId
  terminatingCarrier := .string cdr.terminatingCarrier
  terminatingCarrierIpAddress := .string cdr.terminatingCarrierAddress
  attemptSequence := n

namespace Dossier

section

variable {strict : Bool} {d : Dossier} {cdr : CdrInfo} {n k : ℕ} {row? : Option SessionRow}

/-- A record that is neither about an attempt nor a BYE. -/
theorem write_session (hattempt : cdr.cdrType ≠ .terminationAttempt) (hbye : cdr.cdrType ≠ .callCleared) (hn : n ≠ 0) :
    d.write strict cdr n = { d with session? := CdrInfo.amend d.session? cdr } := by
  obtain ⟨n, rfl⟩ := Nat.exists_eq_succ_of_ne_zero hn
  obtain ⟨x, e, hx, hterm, hbye, hedit, hedits⟩ := cdr.executions_session hattempt hbye
  rw [write, hx, List.take_succ_cons, List.take_nil, untilRefused_of_some (execute_session hterm hbye d), hedit,
    CdrInfo.amend, hedits]
  rfl

theorem write_bye (htype : cdr.cdrType = .callCleared) (hn : n ≠ 0) :
    d.write strict cdr n = ⟨CdrInfo.amend d.session? cdr, if n = 1 then d.attempts
      else d.attempts.map (AttemptRow.close (.dateTime (CdrInfo.formatted cdr.tmEnd)))⟩ := by
  obtain ⟨n, rfl⟩ := Nat.exists_eq_succ_of_ne_zero hn
  rw [write, CdrInfo.amend, CdrInfo.sessionEdits, CdrInfo.executions, htype]
  dsimp only
  rw [CdrInfo.writeByeCdr, List.take_succ_cons]
  cases n with
  | zero => rfl
  | succ n =>
    rw [if_neg (by omega), List.take_succ_cons, List.take_nil]
    rfl

theorem write_attempt_none (htype : cdr.cdrType = .terminationAttempt)
    (hnone : d.session? = none ∨ tinyint strict (nextSequence d.attempts) = none) : d.write strict cdr n = d := by
  rw [write, CdrInfo.executions, htype]
  cases n with
  | zero => rfl
  | succ n =>
    dsimp only
    rw [CdrInfo.writeTerminationAttemptCdr, List.take_succ_cons]
    refine untilRefused_of_none ?_ _
    rcases hnone with hnone | hnone
    · exact if_neg (by simp [hnone])
    · change (if _ then (tinyint strict (nextSequence d.attempts)).map _ else none) = none
      rw [hnone]
      exact ite_self none

theorem write_attempt (htype : cdr.cdrType = .terminationAttempt) {s : SessionRow} (hs : d.session? = some s)
    (hk : tinyint strict (nextSequence d.attempts) = some k) (hn : n ≠ 0) :
    d.write strict cdr n = ⟨some (if n = 1 then s else { s with outbound := cdr.sessionOutbound }),
      d.attempts ++ [cdr.attemptRow k]⟩ := by
  obtain ⟨n, rfl⟩ := Nat.exists_eq_succ_of_ne_zero hn
  have hexecute : d.execute strict (cdr.writeTerminationAttemptCdr.head (List.cons_ne_nil _ _)) =
      some ⟨some s, d.attempts ++ [cdr.attemptRow k]⟩ := by
    change (if d.session?.isSome then (tinyint strict (nextSequence d.attempts)).map _ else none) = _
    rw [hs, hk]
    rfl
  rw [write, CdrInfo.executions, htype]
  dsimp only
  rw [CdrInfo.writeTerminationAttemptCdr, List.take_succ_cons]
  refine (untilRefused_of_some hexecute _).trans ?_
  cases n with
  | zero => rfl
  | succ n =>
    rw [if_neg (by omega), List.take_succ_cons, List.take_nil]
    rfl

/-- The columns about the termination are only written for an attempt. -/
theorem amend_outbound (hattempt : cdr.cdrType ≠ .terminationAttempt) :
    (∀ s' ∈ CdrInfo.amend row? cdr, s'.outbound = (row?.map SessionRow.outbound).getD {}) ∧
      (CdrInfo.amend row? cdr = none → row? = none) := by
  have hmap : ∀ f : SessionRow → SessionRow, CdrInfo.amend row? cdr = row?.map f → (∀ s, (f s).outbound = s.outbound) →
      (∀ s' ∈ CdrInfo.amend row? cdr, s'.outbound = (row?.map SessionRow.outbound).getD {}) ∧
        (CdrInfo.amend row? cdr = none → row? = none) := by
    intro f heq hf
    rw [heq]
    refine ⟨fun s' hs' => ?_, Option.map_eq_none_iff.1⟩
    obtain ⟨s, rfl, rfl⟩ := Option.map_eq_some_iff.1 hs'
    exact hf s
  cases htype : cdr.cdrType with
  | originationRequest =>
    cases row? with
    | none =>
      rw [CdrInfo.amend_originationRequest htype]
      refine ⟨fun s' hs' => ?_, fun hnone => absurd hnone (Option.some_ne_none _)⟩
      obtain rfl := Option.some_inj.1 hs'
      rfl
    | some s =>
      have hkeep : CdrInfo.amend (some s) cdr = some s := by
        rw [CdrInfo.amend, CdrInfo.sessionEdits, CdrInfo.executions, htype]
        rfl
      exact hmap id hkeep fun _ => rfl
  | originationFinalResponse =>
    by_cases hstatus : cdr.sipStatus = 200
    · exact hmap _ (CdrInfo.amend_answer htype hstatus) fun _ => rfl
    · exact hmap _ (CdrInfo.amend_failure htype hstatus) fun _ => rfl
  | originationCancel => exact hmap _ (CdrInfo.amend_cancel htype) fun _ => rfl
  | terminationAttempt => exact absurd htype hattempt
  | callCleared => exact hmap _ (CdrInfo.amend_bye htype) fun _ => rfl

end

end Dossier

/-! ## What holds of a call -/

/-- The attempt is the one that the row of its call tells of. -/
structure AttemptRow.CopiedTo (row : AttemptRow) (o : SessionOutbound) : Prop where
  terminatingCarrier : o.terminatingCarrier = row.terminatingCarrier
  terminatingCarrierIpAddress : o.terminatingCarrierIpAddress = row.terminatingCarrierIpAddress
  sipCallId : o.dLegSipCallId = row.sipCallId

/-- The numbers of so many attempts. The column has no room for more than 127. -/
def attemptNumbers (n : ℕ) : List ℕ := (List.range n).map fun i => min (i + 1) 127

namespace Dossier

/-- The attempts are numbered as they came, those of a call that is there. -/
structure Filed (d : Dossier) : Prop where
  numbers : d.attempts.map AttemptRow.attemptSequence = attemptNumbers d.attempts.length
  call : d.session? = none → d.attempts = []
  first : ∀ s ∈ d.session?, d.attempts = [] → s.outbound = {}

/-- The call tells of the last attempt. -/
def Current (d : Dossier) : Prop := ∀ s ∈ d.session?, ∀ row ∈ d.attempts.getLast?, row.CopiedTo s.outbound

/-- The writing of an attempt is not broken off once the row is inserted, unless it tells nothing new. -/
def Unbroken (strict : Bool) (d : Dossier) (cdr : CdrInfo) (n : ℕ) : Prop :=
  cdr.cdrType = .terminationAttempt → n = 1 → tinyint strict (nextSequence d.attempts) ≠ none →
    ∀ s ∈ d.session?, (cdr.attemptRow 0).CopiedTo s.outbound

section

variable {strict : Bool} {d : Dossier} {cdr : CdrInfo} {n k : ℕ} {row : AttemptRow} {endTime : SqlValue}

theorem attemptNumbers_succ (n : ℕ) : attemptNumbers (n + 1) = attemptNumbers n ++ [min (n + 1) 127] := by
  rw [attemptNumbers, List.range_succ, List.map_append]
  rfl

theorem foldr_max_attemptNumbers (n b : ℕ) : (attemptNumbers n).foldr max b = max (min n 127) b := by
  induction n generalizing b with
  | zero => exact (Nat.zero_max b).symm
  | succ n ih =>
    rw [attemptNumbers_succ, List.foldr_append, ih]
    change max _ (max _ b) = _
    omega

theorem Filed.nextSequence (h : d.Filed) : nextSequence d.attempts = min d.attempts.length 127 + 1 := by
  rw [Ssp.nextSequence, h.numbers, foldr_max_attemptNumbers]
  omega

/-- What the column makes of the next number. -/
theorem Filed.tinyint_eq (h : d.Filed) (hk : tinyint strict (Ssp.nextSequence d.attempts) = some k) :
    k = min (d.attempts.length + 1) 127 := by
  rw [h.nextSequence, tinyint] at hk
  split_ifs at hk
  all_goals
    obtain rfl := Option.some_inj.1 hk
    omega

theorem close_attemptSequence (endTime : SqlValue) (row : AttemptRow) :
    (row.close endTime).attemptSequence = row.attemptSequence := by
  unfold AttemptRow.close
  split_ifs <;> rfl

theorem copiedTo_close (o : SessionOutbound) : (row.close endTime).CopiedTo o ↔ row.CopiedTo o := by
  unfold AttemptRow.close
  split_ifs
  · exact ⟨fun h => ⟨h.1, h.2, h.3⟩, fun h => ⟨h.1, h.2, h.3⟩⟩
  · rfl

theorem Filed.close (h : d.Filed) (endTime : SqlValue) :
    (d.attempts.map (AttemptRow.close endTime)).map AttemptRow.attemptSequence =
      attemptNumbers (d.attempts.map (AttemptRow.close endTime)).length := by
  rw [List.map_map, List.length_map, ← h.numbers]
  exact List.map_congr_left fun row _ => close_attemptSequence endTime row

variable (strict d) in
/-- The records that are not about an attempt, and what they leave of the attempts. -/
theorem write_other (hattempt : cdr.cdrType ≠ .terminationAttempt) (hn : n ≠ 0) :
    (d.write strict cdr n).session? = CdrInfo.amend d.session? cdr ∧
      ((d.write strict cdr n).attempts = d.attempts ∨
        ∃ endTime, (d.write strict cdr n).attempts = d.attempts.map (AttemptRow.close endTime)) := by
  by_cases hbye : cdr.cdrType = .callCleared
  · rw [write_bye hbye hn]
    refine ⟨rfl, ?_⟩
    by_cases hone : n = 1
    · exact .inl (if_pos hone)
    · exact .inr ⟨_, if_neg hone⟩
  · rw [write_session hattempt hbye hn]
    exact ⟨rfl, .inl rfl⟩

/-- An attempt is inserted, or nothing is written. -/
theorem write_attempt_cases (htype : cdr.cdrType = .terminationAttempt) :
    d.write strict cdr n = d ∧ (n = 0 ∨ d.session? = none ∨ tinyint strict (Ssp.nextSequence d.attempts) = none) ∨
      n ≠ 0 ∧ ∃ s k, d.session? = some s ∧ tinyint strict (Ssp.nextSequence d.attempts) = some k ∧
        d.write strict cdr n = ⟨some (if n = 1 then s else { s with outbound := cdr.sessionOutbound }),
          d.attempts ++ [cdr.attemptRow k]⟩ := by
  rcases eq_or_ne n 0 with rfl | hn
  · exact .inl ⟨rfl, .inl rfl⟩
  rcases hs : d.session? with _ | s
  · exact .inl ⟨write_attempt_none htype (.inl hs), .inr (.inl rfl)⟩
  rcases hk : tinyint strict (Ssp.nextSequence d.attempts) with _ | k
  · exact .inl ⟨write_attempt_none htype (.inr hk), .inr (.inr rfl)⟩
  · exact .inr ⟨hn, s, k, rfl, rfl, write_attempt htype hs hk hn⟩

/-- **Attempts stay numbered**, whatever is written. -/
theorem Filed.write (h : d.Filed) (strict : Bool) (cdr : CdrInfo) (n : ℕ) : (d.write strict cdr n).Filed := by
  by_cases htype : cdr.cdrType = .terminationAttempt
  · rcases write_attempt_cases htype with ⟨heq, -⟩ | ⟨-, s, k, hs, hk, heq⟩
    · rwa [heq]
    · rw [heq]
      refine ⟨?_, fun hnone => absurd hnone (Option.some_ne_none _), fun _ _ hnil => ?_⟩
      · rw [List.map_append, h.numbers, List.length_append, List.length_singleton, attemptNumbers_succ,
          h.tinyint_eq hk]
        rfl
      · exact absurd hnil (List.append_ne_nil_of_right_ne_nil _ (List.cons_ne_nil _ _))
  · rcases eq_or_ne n 0 with rfl | hn
    · exact h
    obtain ⟨hsession, hattempts⟩ := write_other strict d htype hn
    obtain ⟨houtbound, hnone⟩ := (amend_outbound htype : _ ∧ (CdrInfo.amend d.session? cdr = none → _))
    have hnil : (d.write strict cdr n).attempts = [] ↔ d.attempts = [] := by
      rcases hattempts with heq | ⟨endTime, heq⟩
      · rw [heq]
      · rw [heq, List.map_eq_nil_iff]
    refine ⟨?_, fun hnone' => ?_, fun s' hs' hnil' => ?_⟩
    · rcases hattempts with heq | ⟨endTime, heq⟩
      · rw [heq]
        exact h.numbers
      · rw [heq]
        exact h.close endTime
    · exact hnil.2 (h.call (hnone (hsession.symm.trans hnone')))
    · rw [houtbound s' (hsession ▸ hs')]
      cases hs : d.session? with
      | none => rfl
      | some s => exact h.first s hs (hnil.1 hnil')

/-- **The call still tells of its last attempt** exactly if the writing is not broken off. -/
theorem Filed.current_write_iff (h : d.Filed) (hcurrent : d.Current) (strict : Bool) (cdr : CdrInfo) (n : ℕ) :
    (d.write strict cdr n).Current ↔ d.Unbroken strict cdr n := by
  by_cases htype : cdr.cdrType = .terminationAttempt
  · rcases write_attempt_cases htype with ⟨heq, hnone⟩ | ⟨hn, s, k, hs, hk, heq⟩
    · rw [heq]
      refine iff_of_true hcurrent fun _ hone hsome s hs => ?_
      rcases hnone with rfl | hnone | hnone
      · exact absurd hone Nat.zero_ne_one
      · rw [hnone] at hs
        cases hs
      · exact absurd hnone hsome
    · rw [heq]
      have hlast : (d.attempts ++ [cdr.attemptRow k]).getLast? = some (cdr.attemptRow k) :=
        List.getLast?_concat
      have hcopied : ∀ o, (cdr.attemptRow k).CopiedTo o ↔ (cdr.attemptRow 0).CopiedTo o := fun o =>
        ⟨fun h => ⟨h.1, h.2, h.3⟩, fun h => ⟨h.1, h.2, h.3⟩⟩
      have hiff : ∀ s', (⟨some s', d.attempts ++ [cdr.attemptRow k]⟩ : Dossier).Current ↔
          (cdr.attemptRow 0).CopiedTo s'.outbound := by
        intro s'
        rw [← hcopied]
        refine ⟨fun h => h s' rfl _ hlast, fun h s₁ hs₁ row hrow => ?_⟩
        obtain rfl := Option.some_inj.1 hs₁
        obtain rfl := Option.some_inj.1 (hlast.symm.trans hrow)
        exact h
      rw [hiff]
      by_cases hone : n = 1
      · rw [if_pos hone]
        refine ⟨fun h _ _ _ s' hs' => ?_, fun h => h htype hone (hk ▸ Option.some_ne_none k) s hs⟩
        obtain rfl := Option.some_inj.1 (hs.symm.trans hs')
        exact h
      · rw [if_neg hone]
        exact iff_of_true ⟨rfl, rfl, rfl⟩ fun _ hone' => absurd hone' hone
  · refine iff_of_true ?_ fun htype' => absurd htype' htype
    rcases eq_or_ne n 0 with rfl | hn
    · exact hcurrent
    obtain ⟨hsession, hattempts⟩ := write_other strict d htype hn
    obtain ⟨houtbound, -⟩ := (amend_outbound htype : _ ∧ (CdrInfo.amend d.session? cdr = none → _))
    intro s' hs' row hrow
    rw [houtbound s' (hsession ▸ hs')]
    -- The row was there before, but for its end.
    obtain ⟨row₀, hrow₀, hiff⟩ : ∃ row₀ ∈ d.attempts.getLast?, ∀ o, row.CopiedTo o ↔ row₀.CopiedTo o := by
      rcases hattempts with heq | ⟨endTime, heq⟩
      · exact ⟨row, heq ▸ hrow, fun _ => Iff.rfl⟩
      · rw [heq, List.getLast?_map] at hrow
        obtain ⟨row₀, hrow₀, rfl⟩ := Option.map_eq_some_iff.1 hrow
        exact ⟨row₀, hrow₀, copiedTo_close⟩
    rw [hiff]
    cases hs : d.session? with
    | none =>
      rw [h.call hs] at hrow₀
      cases hrow₀
    | some s => exact hcurrent s hs row₀ hrow₀

end

end Dossier

/-! ## Runs of the writer -/

namespace Database

/-- Records are written one after the other, each of them up to some statement. -/
def machine (strict : Bool) : Machine Database (CdrInfo × ℕ) where
  init := { db | db = {} }
  enabled _ _ := True
  next db e := db.write strict e.1 e.2

/-- The two tables go together. -/
structure Consistent (db : Database) : Prop where
  keys : (db.cdrSession.map SessionRow.sessionUuid).Nodup
  calls : ∀ row ∈ db.terminationAttempt, ∃ s ∈ db.cdrSession, s.sessionUuid = row.cdrSessionUuid
  numbers : ∀ uuid,
    (db.attemptsOf uuid).map AttemptRow.attemptSequence = attemptNumbers (db.attemptsOf uuid).length
  first : ∀ s ∈ db.cdrSession, db.attemptsOf s.sessionUuid = [] → s.outbound = {}
  last : ∀ s ∈ db.cdrSession, ∀ row ∈ (db.attemptsOf s.sessionUuid).getLast?, row.CopiedTo s.outbound

/-- The writing of an attempt is not broken off once the row is inserted, unless the row of the call
    tells all that already. -/
def Unbroken (strict : Bool) (db : Database) (e : CdrInfo × ℕ) : Prop :=
  (db.dossier e.1.sessionUuid).Unbroken strict e.1 e.2

/-- What holds whatever is broken off. -/
structure Inv (db : Database) : Prop where
  keys : (db.cdrSession.map SessionRow.sessionUuid).Nodup
  filed : ∀ uuid, (db.dossier uuid).Filed

section

variable {strict : Bool} {db : Database} {e : CdrInfo × ℕ}

theorem nodup_write (h : (db.cdrSession.map SessionRow.sessionUuid).Nodup) (cdr : CdrInfo) (n : ℕ) :
    ((db.write strict cdr n).cdrSession.map SessionRow.sessionUuid).Nodup := by
  refine untilRefused_invariant (I := fun db : Database => (db.cdrSession.map SessionRow.sessionUuid).Nodup)
    (fun x hx db db' h hdb => ?_) h
  cases cdr.executions_about x (List.mem_of_mem_take hx) with
  | attempt =>
    change (if _ then _ else none : Option Database) = some db' at hdb
    split_ifs at hdb
    obtain ⟨n, -, rfl⟩ := Option.map_eq_some_iff.1 hdb
    exact h
  | close =>
    obtain rfl := Option.some_inj.1 hdb
    exact h
  | session _ edit hterm hbye hedit _ hlawful =>
    rw [execute_session hterm hbye, hedit] at hdb
    obtain rfl := Option.some_inj.1 hdb
    exact Edit.nodup_apply hlawful h

theorem Inv.next (h : db.Inv) (e : CdrInfo × ℕ) : ((machine strict).next db e).Inv := by
  refine ⟨nodup_write h.keys e.1 e.2, fun uuid => ?_⟩
  change ((db.write strict e.1 e.2).dossier uuid).Filed
  rw [dossier_write]
  split_ifs
  · exact (h.filed uuid).write strict e.1 e.2
  · exact h.filed uuid

/-- The tables go together if each call tells of its last attempt. -/
theorem Inv.consistent_iff_current (h : db.Inv) : db.Consistent ↔ ∀ uuid, (db.dossier uuid).Current := by
  have hfind : ∀ s ∈ db.cdrSession, (db.dossier s.sessionUuid).session? = some s := fun s hs =>
    Edit.row?_of_mem h.keys hs
  constructor
  · intro hconsistent uuid s hs row hrow
    have hmem : s ∈ db.cdrSession := Edit.mem_of_row? hs
    have hkey : s.sessionUuid = uuid := Edit.key_of_row? hs
    exact hconsistent.last s hmem row (by rwa [hkey])
  · intro hcurrent
    refine ⟨h.keys, fun row hrow => ?_, fun uuid => (h.filed uuid).numbers, fun s hs hnil => ?_,
      fun s hs row hrow => hcurrent _ s (hfind s hs) row hrow⟩
    · have hmem : row ∈ (db.dossier row.cdrSessionUuid).attempts := List.mem_filter.2 ⟨hrow, decide_eq_true rfl⟩
      have hsome : (db.dossier row.cdrSessionUuid).session? ≠ none := fun hnone =>
        List.not_mem_nil ((h.filed _).call hnone ▸ hmem)
      obtain ⟨s, hs⟩ := Option.ne_none_iff_exists'.1 hsome
      exact ⟨s, Edit.mem_of_row? hs, Edit.key_of_row? hs⟩
    · exact (h.filed _).first s (hfind s hs) hnil

theorem Inv.consistent_next_iff (h : db.Inv) (hconsistent : db.Consistent) (e : CdrInfo × ℕ) :
    ((machine strict).next db e).Consistent ↔ db.Unbroken strict e := by
  rw [(h.next e).consistent_iff_current]
  have hcurrent := h.consistent_iff_current.1 hconsistent
  have hwrite : ∀ uuid, (((machine strict).next db e).dossier uuid) =
      if e.1.sessionUuid = uuid then (db.dossier uuid).write strict e.1 e.2 else db.dossier uuid :=
    fun uuid => dossier_write db e.1 e.2 uuid
  constructor
  · intro hnext
    have hself := hnext e.1.sessionUuid
    rw [hwrite, if_pos rfl] at hself
    exact ((h.filed _).current_write_iff (hcurrent _) strict e.1 e.2).1 hself
  · intro hunbroken uuid
    rw [hwrite]
    split_ifs with hk
    · subst hk
      exact ((h.filed _).current_write_iff (hcurrent _) strict e.1 e.2).2 hunbroken
    · exact hcurrent uuid

theorem inv_init (hdb : db ∈ (machine strict).init) : db.Inv ∧ db.Consistent := by
  obtain rfl : db = {} := hdb
  have hinv : Inv {} :=
    ⟨List.nodup_nil, fun uuid => ⟨rfl, fun _ => rfl, fun s hs => absurd hs (Option.not_mem_none s)⟩⟩
  exact ⟨hinv, hinv.consistent_iff_current.2 fun uuid s hs => absurd hs (Option.not_mem_none s)⟩

/-- **The tables go together** in all states of a run, whatever records are written in whatever order,
    exactly if no attempt is left half written: each attempt belongs to a call, the attempts of a call
    are numbered as they came, and the call tells of the last of them. -/
theorem consistent_iff {es : List (CdrInfo × ℕ)} (hrun : (machine strict).IsRun db es) :
    (machine strict).Always Consistent db es ↔ (machine strict).Along (Unbroken strict) db es := by
  obtain ⟨hinv, hconsistent⟩ := inv_init hrun.1
  exact Machine.always_iff_along (I := Inv) (fun _ e h _ _ _ => h.next e)
    (fun _ e h hconsistent _ => h.consistent_next_iff hconsistent e) hinv hconsistent hrun.2

end

/-! ## An example -/

/-- A call with an attempt, of which the first statement is executed alone if `n` is `1`. -/
def exampleWrites (n : ℕ) : List (CdrInfo × ℕ) :=
  [({ cdrType := .originationRequest, uuid := ['u'] }, 1),
    ({ cdrType := .terminationAttempt, uuid := ['u'], dlegCallId := ['d'] }, n)]

/-- The tables go together unless the attempt is left half written. -/
theorem consistent_exampleWrites :
    (machine true).Always Consistent {} (exampleWrites 2) ∧ ¬(machine true).Always Consistent {} (exampleWrites 1) := by
  have hrun : ∀ n, (machine true).IsRun {} (exampleWrites n) := fun n => ⟨rfl, trivial, trivial, trivial⟩
  constructor
  · refine (consistent_iff (hrun 2)).2 ⟨fun h => ?_, fun _ h => ?_, trivial⟩
    · cases h
    · exact absurd h (by decide)
  · intro h
    obtain ⟨-, hunbroken, -⟩ := (consistent_iff (hrun 1)).1 h
    have hcopied := hunbroken rfl rfl (by decide) _ rfl
    exact absurd hcopied.sipCallId SqlValue.noConfusion

end Database

end Ssp
