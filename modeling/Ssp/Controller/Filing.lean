import Mathlib.Data.List.TakeWhile
import Ssp.Controller.Database

/-!
# The attempts of a run in the database

Each attempt of the termination call of a UUID is recorded, and each record makes a row, if the
origination call with this UUID is in the database. `attempts_of_reachable` compares the rows with
the records that were posted in a run: the rows under a UUID are reports of attempts, in the order
they were posted, and the answered ones have the end of the call once that is over. If no record got
lost, none of the attempts since the call was asked for is missing.
-/

namespace Ssp

/-- The attempts that are recorded once the call was asked for. -/
def attempted (tr : List CdrInfo) : List CdrInfo :=
  (tr.dropWhile fun r => r.cdrType ≠ .originationRequest).filter fun r => r.cdrType = .terminationAttempt

/-- The row of an attempt. If it was answered, and the call is over, it may have the end of the call. -/
def AttemptRow.Reports (session? : Option SessionRow) (s : CallStage) (row : AttemptRow) (r : CdrInfo) : Prop :=
  ∃ n, row = r.attemptRow n ∨ r.sipStatus = 200 ∧ s = .ended ∧
    ∃ session ∈ session?, row = { r.attemptRow n with endTime := session.account.endTime }

/-- What the database has of a call, against the records about it, which have come to the stage `s`.
    It may lack some of them if records get lost. -/
structure Dossier.Fits (lossy : Prop) (strict : Bool) (tr : List CdrInfo) (s : CallStage) (d : Dossier) : Prop where
  filed : d.Filed
  asked : s ≠ .unknown ↔ ∃ r ∈ tr, r.cdrType = .originationRequest
  known : d.session? ≠ none → s ≠ .unknown
  entered : ¬lossy → s ≠ .unknown → d.session? ≠ none
  rows : ∃ rs, rs.Sublist (attempted tr) ∧ (¬lossy → rs = if strict then (attempted tr).take 127 else attempted tr) ∧
    List.Forall₂ (AttemptRow.Reports d.session? s) d.attempts rs

section

variable {lossy : Prop} {strict : Bool} {tr : List CdrInfo} {s s' : CallStage} {d : Dossier} {r : CdrInfo}
  {session? : Option SessionRow} {row : AttemptRow} {n : ℕ}

/-! ## The attempts that are recorded -/

theorem attempted_eq_nil (h : ¬∃ r ∈ tr, r.cdrType = .originationRequest) : attempted tr = [] := by
  have hall : ∀ r ∈ tr, decide (r.cdrType ≠ .originationRequest) = true := fun r hr =>
    decide_eq_true fun htype => h ⟨r, hr, htype⟩
  rw [attempted, List.dropWhile_eq_nil_iff.2 hall, List.filter_nil]

theorem attempted_concat (h : ∃ q ∈ tr, q.cdrType = .originationRequest) (r : CdrInfo) :
    attempted (tr ++ [r]) = attempted tr ++ if r.cdrType = .terminationAttempt then [r] else [] := by
  have hne : (tr.dropWhile fun r => r.cdrType ≠ .originationRequest) ≠ [] := by
    obtain ⟨q, hq, htype⟩ := h
    exact fun hnil => of_decide_eq_true (List.dropWhile_eq_nil_iff.1 hnil q hq) htype
  rw [attempted, List.dropWhile_append, if_neg (by simpa using hne), List.filter_append]
  refine congrArg _ ?_
  split_ifs with htype
  · exact List.filter_cons_of_pos (decide_eq_true htype)
  · exact List.filter_cons_of_neg (by simpa using htype)

/-- The first record of a call is no attempt. -/
theorem attempted_concat_request (h : ¬∃ q ∈ tr, q.cdrType = .originationRequest)
    (htype : r.cdrType = .originationRequest) : attempted (tr ++ [r]) = [] := by
  have hall : ∀ q ∈ tr, decide (q.cdrType ≠ .originationRequest) = true := fun q hq =>
    decide_eq_true fun htype => h ⟨q, hq, htype⟩
  rw [attempted, List.dropWhile_append_of_pos hall, List.dropWhile_cons_of_neg (by simpa using htype)]
  exact List.filter_cons_of_neg (by simp [htype])

theorem sublist_attempted_concat (tr : List CdrInfo) (r : CdrInfo) :
    (attempted tr).Sublist (attempted (tr ++ [r])) := by
  by_cases h : ∃ q ∈ tr, q.cdrType = .originationRequest
  · rw [attempted_concat h]
    exact List.sublist_append_left _ _
  · rw [attempted_eq_nil h]
    exact List.nil_sublist _

/-! ## Rows and records -/

/-- As long as the call goes on, the rows are as they were inserted. -/
theorem AttemptRow.Reports.of_ne_ended (h : row.Reports session? s r) (hs : s ≠ .ended)
    (session?' : Option SessionRow) (s' : CallStage) : row.Reports session?' s' r := by
  obtain ⟨n, rfl | ⟨-, heq, -⟩⟩ := h
  · exact ⟨n, .inl rfl⟩
  · exact absurd heq hs

theorem AttemptRow.Reports.congr (h : row.Reports session? s r) (f : SessionRow → SessionRow)
    (hf : ∀ session, (f session).account = session.account) : row.Reports (session?.map f) s r := by
  obtain ⟨n, rfl | ⟨hstatus, hended, session, rfl, rfl⟩⟩ := h
  · exact ⟨n, .inl rfl⟩
  · exact ⟨n, .inr ⟨hstatus, hended, f session, rfl, by rw [hf]⟩⟩

/-- A BYE closes the rows of the attempts that were answered. -/
theorem AttemptRow.Reports.close (h : row.Reports session? s r) (hs : s ≠ .ended) (session : SessionRow) :
    (row.close session.account.endTime).Reports (some session) .ended r := by
  obtain ⟨n, rfl | ⟨-, heq, -⟩⟩ := h
  · refine ⟨n, ?_⟩
    by_cases hstatus : r.sipStatus = 200
    · refine .inr ⟨hstatus, rfl, session, rfl, if_pos ?_⟩
      change SqlValue.int r.sipStatus.toNat = .int 200
      rw [hstatus]
      rfl
    · refine .inl (if_neg fun hint => hstatus ?_)
      exact UInt32.toNat_inj.1 (SqlValue.int.inj hint)
  · exact absurd heq hs

/-! ## One record -/

variable {uuid : SqlValue} {now : ℕ}

/-- An attempt is recorded. -/
theorem Dossier.Fits.attempt (h : d.Fits lossy strict tr s) (htype : r.cdrType = .terminationAttempt) :
    (d.write strict r r.executions.length).Fits lossy strict (tr ++ [r]) s := by
  have htwo : r.executions.length = 2 := by
    rw [CdrInfo.executions, htype]
    rfl
  have hasked : (∃ q ∈ tr ++ [r], q.cdrType = .originationRequest) ↔ ∃ q ∈ tr, q.cdrType = .originationRequest := by
    simp [htype]
  have hfiled := h.filed.write strict r r.executions.length
  obtain ⟨rs, hsub, hall, hrows⟩ := h.rows
  rw [htwo] at hfiled ⊢
  rcases (Dossier.write_attempt_cases htype : d.write strict r 2 = d ∧ _ ∨ _) with
    ⟨heq, hnone⟩ | ⟨-, session, k, hs, hk, heq⟩
  · -- The row is refused.
    rw [heq]
    refine ⟨h.filed, h.asked.trans hasked.symm, h.known, h.entered, rs, hsub.trans (sublist_attempted_concat tr r),
      fun hlossy => ?_, hrows⟩
    rw [hall hlossy]
    by_cases hunknown : s = .unknown
    · have hnot : ¬∃ q ∈ tr, q.cdrType = .originationRequest := fun hex => h.asked.2 hex hunknown
      rw [attempted_eq_nil hnot, attempted_eq_nil fun hex => hnot (hasked.1 hex)]
    · have hfull := (hnone.resolve_left (by decide)).resolve_left (h.entered hlossy hunknown)
      rw [h.filed.nextSequence, tinyint] at hfull
      split_ifs at hfull with hle hstrict
      have hlength : d.attempts.length = rs.length := hrows.length_eq
      rw [attempted_concat (h.asked.1 hunknown), if_pos htype, hstrict, if_pos rfl, if_pos rfl,
        List.take_append_of_le_length]
      rw [hall hlossy, hstrict, if_pos rfl, List.length_take] at hlength
      omega
  · rw [heq]
    rw [heq] at hfiled
    have hunknown : s ≠ .unknown := h.known (hs ▸ Option.some_ne_none session)
    have hconcat := attempted_concat (h.asked.1 hunknown) r
    rw [if_pos htype] at hconcat
    refine ⟨hfiled, h.asked.trans hasked.symm, fun _ => hunknown, fun _ _ => Option.some_ne_none _, rs ++ [r], ?_,
      fun hlossy => ?_, ?_⟩
    · rw [hconcat]
      exact hsub.append (List.Sublist.refl [r])
    · rw [hconcat, hall hlossy]
      split_ifs with hstrict
      · have hlength : d.attempts.length = rs.length := hrows.length_eq
        rw [hall hlossy, if_pos hstrict, List.length_take] at hlength
        have hle : nextSequence d.attempts ≤ 127 := by
          by_contra hgt
          rw [tinyint, if_neg hgt, if_pos hstrict] at hk
          cases hk
        rw [h.filed.nextSequence] at hle
        rw [List.take_of_length_le (by omega), List.take_of_length_le (by simp; omega)]
      · rfl
    · refine List.rel_append (hrows.imp fun row q hrow => ?_) (.cons ⟨k, .inl rfl⟩ .nil)
      rw [hs] at hrow
      exact hrow.congr (fun session => { session with outbound := r.sessionOutbound }) fun _ => rfl

/-- A record that is neither about an attempt nor a BYE. -/
theorem Dossier.Fits.session (h : d.Fits lossy strict tr s) (hattempt : r.cdrType ≠ .terminationAttempt)
    (hbye : r.cdrType ≠ .callCleared) (hs : s ≠ .ended) (hs' : s' ≠ .unknown)
    (hrequest : s = .unknown → r.cdrType = .originationRequest) :
    (d.write strict r r.executions.length).Fits lossy strict (tr ++ [r]) s' := by
  have hn : r.executions.length ≠ 0 := by
    unfold CdrInfo.executions
    cases r.cdrType with
    | originationFinalResponse =>
      dsimp only
      unfold CdrInfo.writeOriginationFinalResponseCdr
      split_ifs <;> exact Nat.one_ne_zero
    | originationRequest | originationCancel => exact Nat.one_ne_zero
    | terminationAttempt | callCleared => exact Nat.succ_ne_zero 1
  have hfiled := h.filed.write strict r r.executions.length
  rw [Dossier.write_session hattempt hbye hn] at hfiled ⊢
  obtain ⟨rs, hsub, hall, hrows⟩ := h.rows
  have hattempted : attempted (tr ++ [r]) = attempted tr := by
    by_cases hex : ∃ q ∈ tr, q.cdrType = .originationRequest
    · rw [attempted_concat hex, if_neg hattempt, List.append_nil]
    · have hunknown : s = .unknown := not_not.1 fun hne => hex (h.asked.1 hne)
      rw [attempted_concat_request hex (hrequest hunknown), attempted_eq_nil hex]
  have hasked : ∃ q ∈ tr ++ [r], q.cdrType = .originationRequest := by
    by_cases hunknown : s = .unknown
    · exact ⟨r, List.mem_append_right _ (List.mem_singleton_self r), hrequest hunknown⟩
    · obtain ⟨q, hq, htype⟩ := h.asked.1 hunknown
      exact ⟨q, List.mem_append_left _ hq, htype⟩
  refine ⟨hfiled, iff_of_true hs' hasked, fun _ => hs', fun hlossy _ hnone => ?_, rs, hattempted ▸ hsub,
    hattempted ▸ hall, hrows.imp fun row q hrow => hrow.of_ne_ended hs _ _⟩
  have hnone' := (Dossier.amend_outbound hattempt).2 hnone
  have hunknown : s = .unknown := not_not.1 fun hne => h.entered hlossy hne hnone'
  rw [hnone', CdrInfo.amend_originationRequest (hrequest hunknown)] at hnone
  exact absurd hnone (Option.some_ne_none _)

/-- The call is over. -/
theorem Dossier.Fits.bye (h : d.Fits lossy strict tr s) (htype : r.cdrType = .callCleared) (hs : s ≠ .ended)
    (hunknown : s ≠ .unknown) : (d.write strict r r.executions.length).Fits lossy strict (tr ++ [r]) .ended := by
  have htwo : r.executions.length = 2 := by
    rw [CdrInfo.executions, htype]
    rfl
  have hattempt : r.cdrType ≠ .terminationAttempt := fun heq => CdrEvent.noConfusion (heq.symm.trans htype)
  have hfiled := h.filed.write strict r r.executions.length
  rw [htwo] at hfiled ⊢
  rw [Dossier.write_bye htype (by decide), if_neg (by decide), CdrInfo.amend_bye htype] at hfiled ⊢
  obtain ⟨rs, hsub, hall, hrows⟩ := h.rows
  obtain ⟨q, hq, hqtype⟩ := h.asked.1 hunknown
  have hattempted : attempted (tr ++ [r]) = attempted tr := by
    rw [attempted_concat ⟨q, hq, hqtype⟩, if_neg hattempt, List.append_nil]
  refine ⟨hfiled, iff_of_true CallStage.noConfusion ⟨q, List.mem_append_left _ hq, hqtype⟩,
    fun _ => CallStage.noConfusion, fun hlossy _ hnone => ?_, rs, hattempted ▸ hsub, hattempted ▸ hall, ?_⟩
  · exact h.entered hlossy hunknown (Option.map_eq_none_iff.1 hnone)
  · cases hsession : d.session? with
    | none =>
      rw [h.filed.call hsession] at hrows ⊢
      cases hrows
      exact .nil
    | some session =>
      rw [List.forall₂_map_left_iff]
      exact hrows.imp fun row q hrow => hrow.close hs { session with account :=
        { session.account with
          endTime := .dateTime (CdrInfo.formatted r.tmEnd)
          releaseCause := .int r.releaseCause.value } }

/-- **A record that is written keeps the attempts in step.** -/
theorem Dossier.Fits.write (h : d.Fits lossy strict tr s) (hs : s.next r = some s') :
    (d.write strict r r.executions.length).Fits lossy strict (tr ++ [r]) s' := by
  unfold CallStage.next at hs
  split at hs
  next htype =>
    obtain rfl := Option.some_inj.1 hs
    exact h.attempt htype
  next htype =>
    obtain rfl := Option.some_inj.1 hs
    refine h.session (by rw [htype]; exact CdrEvent.noConfusion) (by rw [htype]; exact CdrEvent.noConfusion)
      CallStage.noConfusion ?_ fun _ => htype
    split_ifs <;> exact CallStage.noConfusion
  next htype =>
    obtain rfl := Option.some_inj.1 hs
    refine h.session (by rw [htype]; exact CdrEvent.noConfusion) (by rw [htype]; exact CdrEvent.noConfusion)
      CallStage.noConfusion ?_ fun hunknown => CallStage.noConfusion hunknown
    split_ifs <;> exact CallStage.noConfusion
  next htype =>
    obtain rfl := Option.some_inj.1 hs
    exact h.session (by rw [htype]; exact CdrEvent.noConfusion) (by rw [htype]; exact CdrEvent.noConfusion)
      CallStage.noConfusion CallStage.noConfusion fun hunknown => CallStage.noConfusion hunknown
  next htype =>
    obtain rfl := Option.some_inj.1 hs
    exact h.bye htype CallStage.noConfusion CallStage.noConfusion
  next htype =>
    obtain rfl := Option.some_inj.1 hs
    exact h.bye htype CallStage.noConfusion CallStage.noConfusion
  next => cases hs

/-- The stage only changes to a later one, and the last one stays. -/
theorem CallStage.next_spec (hs : s.next r = some s') :
    (s = .ended → s' = .ended) ∧ (s' ≠ .unknown ↔ s ≠ .unknown ∨ r.cdrType = .originationRequest) := by
  have hite : ∀ {p : Prop} [Decidable p] {s₁ s₂ : CallStage}, s₁ ≠ .unknown → s₂ ≠ .unknown →
      (if p then s₁ else s₂) ≠ .unknown := by
    intro p _ s₁ s₂ h₁ h₂
    split_ifs
    · exact h₁
    · exact h₂
  unfold CallStage.next at hs
  split at hs
  next htype =>
    obtain rfl := Option.some_inj.1 hs
    refine ⟨id, (or_iff_left ?_).symm⟩
    rw [htype]
    exact CdrEvent.noConfusion
  next htype =>
    obtain rfl := Option.some_inj.1 hs
    exact ⟨fun h => CallStage.noConfusion h,
      iff_of_true (hite CallStage.noConfusion CallStage.noConfusion) (.inr htype)⟩
  next htype =>
    obtain rfl := Option.some_inj.1 hs
    exact ⟨fun h => CallStage.noConfusion h,
      iff_of_true (hite CallStage.noConfusion CallStage.noConfusion) (.inl CallStage.noConfusion)⟩
  iterate 3
    next =>
      obtain rfl := Option.some_inj.1 hs
      exact ⟨fun _ => rfl, iff_of_true CallStage.noConfusion (.inl CallStage.noConfusion)⟩
  next => cases hs

/-- **A record that is lost** leaves the rows behind. -/
theorem Dossier.Fits.lost (h : d.Fits lossy strict tr s) (hlossy : lossy) (hs : s.next r = some s') :
    d.Fits lossy strict (tr ++ [r]) s' := by
  obtain ⟨hended, hunknown⟩ := CallStage.next_spec hs
  obtain ⟨rs, hsub, -, hrows⟩ := h.rows
  have hasked : (∃ q ∈ tr ++ [r], q.cdrType = .originationRequest) ↔
      s ≠ .unknown ∨ r.cdrType = .originationRequest := by
    simp [h.asked, or_and_right, exists_or]
  refine ⟨h.filed, hunknown.trans hasked.symm, fun hne => hunknown.2 (.inl (h.known hne)),
    fun hnot => absurd hlossy hnot, rs, hsub.trans (sublist_attempted_concat tr r), fun hnot => absurd hlossy hnot,
    hrows.imp fun row q hrow => ?_⟩
  obtain ⟨n, hn | ⟨hstatus, hs, hsession⟩⟩ := hrow
  · exact ⟨n, .inl hn⟩
  · exact ⟨n, .inr ⟨hstatus, hended hs, hsession⟩⟩

/-- The rows under a UUID are what its records have made of them. -/
theorem Database.dossier_foldl (ws : List CdrInfo) (db : Database) (uuid : SqlValue) :
    (ws.foldl (fun db r => db.write strict r r.executions.length) db).dossier uuid =
      (trail CdrInfo.sessionUuid uuid ws).foldl (fun d r => d.write strict r r.executions.length)
        (db.dossier uuid) := by
  induction ws generalizing db with
  | nil => rfl
  | cons r ws ih =>
    rw [List.foldl_cons, ih, dossier_write]
    by_cases hk : r.sessionUuid = uuid
    · rw [if_pos hk, trail_cons_self hk, List.foldl_cons]
    · rw [if_neg hk, trail_cons_of_ne hk]

/-- **Rows against records**: if the records of a call came in their course, what the writer has made
    of those it has heard of fits them. -/
theorem Dossier.fits_of_heard {holds : ℕ → CdrInfo → Prop} {rs ws : List CdrInfo} (hdated : Dated holds now rs)
    (h : Heard lossy rs ws) (hs : callCourse.stage (trail CdrInfo.sessionUuid uuid rs) = some s) :
    ((ws.foldl (fun db r => db.write strict r r.executions.length) {} : Database).dossier uuid).Fits lossy strict
      (trail CdrInfo.sessionUuid uuid rs) s := by
  rw [Database.dossier_foldl]
  refine callCourse.fits_of_heard (fun _ tr s d => Dossier.Fits lossy strict tr s d) (fun t => ?_)
    (fun _ hfits => hfits) (fun hfits _ hs _ => hfits.write hs)
    (fun hlossy _ _ _ _ _ _ hfits _ hs _ => hfits.lost hlossy hs) hdated h hs
  refine ⟨⟨rfl, fun _ => rfl, fun s hs => absurd hs (Option.not_mem_none s)⟩, iff_of_false (fun hne => hne rfl) ?_,
    fun hne => absurd rfl hne, fun _ hne => absurd rfl hne, [], List.Sublist.refl _, fun _ => (ite_self []).symm, .nil⟩
  rintro ⟨r, hr, -⟩
  exact List.not_mem_nil hr

/-- A refused attempt has no row to update either. -/
theorem Database.cdrSession_write (db : Database) (r : CdrInfo) :
    (db.write false r r.executions.length).cdrSession =
      r.sessionEdits.foldl (Edit.apply SessionRow.sessionUuid) db.cdrSession := by
  cases htype : r.cdrType with
  | originationRequest | originationFinalResponse | originationCancel =>
    obtain ⟨x, e, hx, hterm, hbye, hedit, hedits⟩ := r.executions_session (by simp [htype]) (by simp [htype])
    rw [Database.write, List.take_length, hx, untilRefused_of_some (execute_session hterm hbye db), hedit, hedits]
    rfl
  | callCleared =>
    rw [Database.write, CdrInfo.sessionEdits, CdrInfo.executions, htype]
    rfl
  | terminationAttempt =>
    rw [Database.write, List.take_length, CdrInfo.sessionEdits, CdrInfo.executions, htype]
    dsimp only
    rw [CdrInfo.writeTerminationAttemptCdr]
    by_cases hany : db.cdrSession.any (·.sessionUuid = .string r.uuid)
    · obtain ⟨k, hk⟩ : ∃ k, tinyint false (nextSequence (db.attemptsOf (.string r.uuid))) = some k := by
        by_cases hle : nextSequence (db.attemptsOf (.string r.uuid)) ≤ 127
        · exact ⟨_, if_pos hle⟩
        · exact ⟨127, if_neg hle⟩
      rw [untilRefused_of_some ((if_pos hany).trans (congrArg (Option.map _) hk))]
      rfl
    · rw [untilRefused_of_none (if_neg hany)]
      refine (List.map_congr_left fun row hrow => ?_).trans (List.map_id _) |>.symm
      exact if_neg fun hkey => hany (List.any_eq_true.2 ⟨row, hrow, decide_eq_true hkey⟩)

/-- The writer does not break off. -/
theorem Database.consistent_foldl (strict : Bool) (ws : List CdrInfo) :
    (ws.foldl (fun db r => db.write strict r r.executions.length) {} : Database).Inv ∧
      (ws.foldl (fun db r => db.write strict r r.executions.length) {} : Database).Consistent := by
  induction ws using List.reverseRecOn with
  | nil => exact inv_init (show ({} : Database) ∈ (machine strict).init from rfl)
  | append_singleton ws r ih =>
    rw [List.foldl_append]
    refine ⟨ih.1.next (r, r.executions.length), (ih.1.consistent_next_iff ih.2 (r, r.executions.length)).2 ?_⟩
    intro htype hone
    have htwo : r.executions.length = 2 := by
      rw [CdrInfo.executions, htype]
      rfl
    exact absurd (htwo.symm.trans hone) (by decide)

end

/-! ## Runs -/

namespace Bookkeeping

variable {x : Bookkeeping}

/-- The tables, written by a writer that only loses whole records. -/
def database (x : Bookkeeping) (strict : Bool) : Database :=
  (x.written.map (·.record)).foldl (fun db r => db.write strict r r.executions.length) {}

/-- The rows of the calls are those that were considered alone. -/
theorem database_cdrSession (x : Bookkeeping) : (x.database false).cdrSession = x.sessions := by
  have hall : ∀ (ws : List CdrInfo) (db : Database),
      (ws.foldl (fun db r => db.write false r r.executions.length) db).cdrSession =
        (ws.flatMap CdrInfo.sessionEdits).foldl (Edit.apply SessionRow.sessionUuid) db.cdrSession := by
    intro ws
    induction ws with
    | nil => exact fun _ => rfl
    | cons r ws ih =>
      intro db
      rw [List.foldl_cons, ih, Database.cdrSession_write, List.flatMap_cons, List.foldl_append]
  exact hall _ {}

/-- **The attempts in the database are those of the calls.** The tables go together in every state. In
    one in which the records were written as they were posted, the rows under a UUID report attempts
    of its call, in the order they were posted; those that were answered have the end of the call or
    none. Once nothing is lost or left in the queue, there is a row for each attempt since the call
    was asked for, as long as the numbers last. -/
theorem attempts_of_reachable (hx : machine.Reachable x) (hfaithful : x.controller.Faithful) (strict : Bool) :
    (x.database strict).Consistent ∧
      ∀ uuid, ∃ s rs, callCourse.stage (x.trailOf uuid) = some s ∧ rs.Sublist (attempted (x.trailOf uuid)) ∧
        List.Forall₂ (AttemptRow.Reports ((x.database strict).dossier (.string uuid)).session? s)
          ((x.database strict).attemptsOf (.string uuid)) rs ∧
        (x.written.map (·.posted) = x.posted →
          rs = if strict then (attempted (x.trailOf uuid)).take 127 else attempted (x.trailOf uuid)) := by
  refine ⟨(Database.consistent_foldl strict _).2, fun uuid => ?_⟩
  obtain ⟨htrail, hwriter⟩ := writerInv_of_reachable hx
  obtain ⟨s, hs⟩ := htrail.stageOf uuid
  have hheard : Heard (x.written.map (·.posted) ≠ x.posted) x.posted (x.written.map (·.posted)) := by
    by_cases hall : x.written.map (·.posted) = x.posted
    · rw [hall]
      exact .refl _ _
    · rw [show (x.written.map (·.posted) ≠ x.posted) = True from eq_true hall]
      exact hwriter.heard.append trivial x.controller.queued
  have hfits : Dossier.Fits _ strict _ _ _ := Dossier.fits_of_heard hwriter.dated hheard hs
  have hrecords : x.database strict =
      (x.written.map (·.posted)).foldl (fun db r => db.write strict r r.executions.length) {} :=
    congrArg (List.foldl _ _) (records_of_faithful hfaithful)
  rw [← hrecords, trailOf_eq] at hfits
  obtain ⟨rs, hsub, hall, hrows⟩ := hfits.rows
  exact ⟨s, rs, x.stageOf_eq uuid ▸ hs, hsub, hrows, fun heq => hall (not_not.2 heq)⟩

/-! ## An example -/

def exampleFiling : Bookkeeping where
  controller := { exampleBookkeeping.controller with
    fsMonitor := { Controller.exampleStart.fsMonitor with setServers := {['f']} } }

/-- A call is answered, the server tries to go on with it, and a carrier refuses. All is written. -/
def exampleFiled : List ControllerEvent :=
  exampleAnswered ++
    [.requestOutsideDialog { Controller.serverInvite ['f'] with sipUnknown := [(xSessionUuid, ['u'])] } []
        { callId := ['d'] },
      .inviteResponse ⟨8⟩ { status := 486 } {}, .writeCdr true, .writeCdr true, .writeCdr true]

theorem exampleFiled_reachable : machine.Reachable (machine.exec exampleFiling exampleFiled) := by
  have hinit : exampleFiling ∈ machine.init := by
    refine ⟨{ Controller.exampleStart_initial with }, ?_, rfl⟩
    exact Option.some_ne_none _
  have hrun : machine.IsRun exampleFiling exampleFiled := by
    refine ⟨hinit, ⟨⟨trivial, by decide⟩, ?_⟩, ⟨⟨⟨_, rfl, rfl, rfl⟩, by decide⟩, ?_⟩,
      ⟨⟨trivial, by decide +kernel⟩, ?_⟩, ⟨⟨⟨_, rfl, rfl, rfl⟩, by decide +kernel⟩, ?_⟩,
      ⟨⟨trivial, by decide +kernel⟩, trivial⟩, ⟨⟨trivial, by decide +kernel⟩, trivial⟩,
      ⟨⟨trivial, by decide +kernel⟩, trivial⟩, trivial⟩
    · exact fun row hrow => absurd hrow List.not_mem_nil
    · change (200 : ℤ) < UInt32.size
      decide
    · change ∀ row ∈ _, CdrSession.sessionUuid row ≠ .string []
      decide +kernel
    · change (486 : ℤ) < UInt32.size
      decide
  exact Machine.Reachable.exec (.init hrun.1) hrun.2

theorem exampleFiled_faithful : (machine.exec exampleFiling exampleFiled).controller.Faithful := by
  intro w hw
  obtain rfl := Option.some.inj hw
  refine ⟨fun p hp => absurd hp List.not_mem_nil, ?_⟩
  decide +kernel

/-- There is one attempt of the call, and it was refused. -/
theorem attempts_exampleFiled :
    ((machine.exec exampleFiling exampleFiled).database true).Consistent ∧
      ∃ s rs, callCourse.stage ((machine.exec exampleFiling exampleFiled).trailOf ['u']) = some s ∧
        List.Forall₂ (AttemptRow.Reports
          (((machine.exec exampleFiling exampleFiled).database true).dossier (.string ['u'])).session? s)
          (((machine.exec exampleFiling exampleFiled).database true).attemptsOf (.string ['u'])) rs ∧
        rs.map (·.sipStatus) = [486] := by
  obtain ⟨hconsistent, hrows⟩ := attempts_of_reachable exampleFiled_reachable exampleFiled_faithful true
  obtain ⟨s, rs, hs, -, hreports, hall⟩ := hrows ['u']
  exact ⟨hconsistent, s, rs, hs, hreports, by rw [hall (by decide +kernel)]; decide +kernel⟩

end Bookkeeping

end Ssp
