import Ssp.Controller.Relay
import Ssp.Controller.Typed
import Ssp.Lib.Ledger

/-!
# Standing calls

The database has one row in `cdr_session` for each origination call, which the records of the
call insert and update. A row *stands* if it has a `connect_time` and no `end_time`; this is what
`getStandingCallCount` counts. There are to be as many of them as there are pairs of legs of
origination calls that were answered, once all records that were posted are written, in the
order and with the values they were posted with.

The calls and the rows make a `Ledger`; every event of the controller is a step of it
(`Bookkeeping.step`). `agrees_iff`: in a run, the numbers agree exactly as long as no session
timer expires, since `processSessionRefreshTimer` takes the call away and posts nothing.
-/

namespace Ssp

/-! ## The rows of the database -/

/-- A row of `cdr_session`: what the records of a call update. -/
structure CdrSession where
  sessionUuid : SqlValue
  connectTime : SqlValue := .null
  endTime : SqlValue := .null
  deriving DecidableEq

namespace CdrSession

/-- What `getStandingCallCount` counts. -/
def standing (row : CdrSession) : Bool := row.connectTime ≠ .null ∧ row.endTime = .null

/-- `UPDATE cdr_session SET .. WHERE session_uuid=?`. -/
def update (rows : List CdrSession) (uuid : SqlValue) (f : CdrSession → CdrSession) : List CdrSession :=
  rows.map fun row => if row.sessionUuid = uuid then f row else row

/-- `INSERT INTO cdr_session`. It fails if there is a row with that UUID: the index is unique. -/
def insert (rows : List CdrSession) (row : CdrSession) : List CdrSession :=
  if rows.any (·.sessionUuid = row.sessionUuid) then rows else rows ++ [row]

end CdrSession

/-- The rows after a statement; the ones about `termination_attempt`, and `term2`, leave the times
    of the calls alone. -/
def Execution.apply (rows : List CdrSession) : Execution → List CdrSession
  | ⟨.orig, [uuid, _, _, _, _, _, _, _, _, _, _, _, endTime]⟩ =>
    CdrSession.insert rows { sessionUuid := uuid, endTime := endTime }
  | ⟨.final, [_, connectTime, endTime, _, uuid]⟩ =>
    CdrSession.update rows uuid fun row => { row with connectTime := connectTime, endTime := endTime }
  | ⟨.cancel, [endTime, _, uuid]⟩ | ⟨.bye1, [endTime, _, uuid]⟩ =>
    CdrSession.update rows uuid fun row => { row with endTime := endTime }
  | _ => rows

/-- The rows after a record is written. -/
def CdrInfo.write (rows : List CdrSession) (cdr : CdrInfo) : List CdrSession :=
  cdr.executions.foldl Execution.apply rows

namespace CdrSession

/-- What a row says of its call. -/
def entry (row : CdrSession) : Entry SqlValue where
  key := row.sessionUuid
  started := row.connectTime ≠ .null
  ended := row.endTime ≠ .null

theorem standing_entry (row : CdrSession) : row.entry.standing = row.standing := by
  simp [entry, Entry.standing, standing]

theorem entry_update {f : CdrSession → CdrSession} {g : Entry SqlValue → Entry SqlValue}
    (hf : ∀ row, (f row).entry = g row.entry) (rows : List CdrSession) (uuid : SqlValue) :
    (update rows uuid f).map entry = Ledger.change (rows.map entry) uuid g := by
  rw [update, Ledger.change, List.map_map, List.map_map]
  refine List.map_congr_left fun row _ => ?_
  change (if row.sessionUuid = uuid then f row else row).entry = if row.sessionUuid = uuid then g row.entry else row.entry
  split_ifs
  · exact hf row
  · rfl

theorem insert_of_new {rows : List CdrSession} {row : CdrSession}
    (hnew : ∀ row' ∈ rows, row'.sessionUuid ≠ row.sessionUuid) : insert rows row = rows ++ [row] := by
  refine if_neg fun h => ?_
  obtain ⟨row', hrow', heq⟩ := List.any_eq_true.1 h
  exact hnew row' hrow' (of_decide_eq_true heq)

end CdrSession

namespace CdrInfo

variable {cdr : CdrInfo} {rows : List CdrSession}

/-- An origination call comes in. -/
theorem write_originationRequest (htype : cdr.cdrType = .originationRequest)
    (hnew : ∀ row ∈ rows, row.sessionUuid ≠ .string cdr.uuid) :
    (cdr.write rows).map CdrSession.entry =
      rows.map CdrSession.entry ++ [⟨.string cdr.uuid, false, (formatted cdr.tmEnd).isSome⟩] := by
  have hwrite : cdr.write rows = CdrSession.insert rows
      { sessionUuid := .string cdr.uuid
        endTime := if (formatted cdr.tmEnd).isSome then .dateTime (formatted cdr.tmEnd) else .null } := by
    rw [write, executions, htype]
    rfl
  rw [hwrite, CdrSession.insert_of_new hnew, List.map_append]
  refine congrArg (_ ++ [·]) (Entry.ext rfl rfl ?_)
  change decide (_ ≠ SqlValue.null) = _
  split_ifs with hend
  · simpa using hend.symm
  · simpa using hend

/-- It is answered. -/
theorem write_answer (htype : cdr.cdrType = .originationFinalResponse) (hstatus : cdr.sipStatus = 200) :
    (cdr.write rows).map CdrSession.entry = Ledger.change (rows.map CdrSession.entry) (.string cdr.uuid) fun e =>
      { e with started := true, ended := false } := by
  rw [write, executions, htype]
  dsimp only
  rw [writeOriginationFinalResponseCdr, if_pos hstatus]
  exact CdrSession.entry_update (fun _ => rfl) rows _

/-- It is refused. -/
theorem write_failure (htype : cdr.cdrType = .originationFinalResponse) (hstatus : cdr.sipStatus ≠ 200) :
    (cdr.write rows).map CdrSession.entry = Ledger.change (rows.map CdrSession.entry) (.string cdr.uuid) fun e =>
      { e with started := false, ended := true } := by
  rw [write, executions, htype]
  dsimp only
  rw [writeOriginationFinalResponseCdr, if_neg hstatus]
  exact CdrSession.entry_update (fun _ => rfl) rows _

/-- It is cancelled or cleared. -/
theorem write_end (htype : cdr.cdrType = .originationCancel ∨ cdr.cdrType = .callCleared) :
    (cdr.write rows).map CdrSession.entry = Ledger.change (rows.map CdrSession.entry) (.string cdr.uuid) fun e =>
      { e with ended := true } := by
  rw [write, executions]
  rcases htype with htype | htype <;> rw [htype]
  · exact CdrSession.entry_update (fun _ => rfl) rows _
  · exact CdrSession.entry_update (fun _ => rfl) rows _

/-- The attempts of termination calls change nothing. -/
theorem write_terminationAttempt (htype : cdr.cdrType = .terminationAttempt) : cdr.write rows = rows := by
  rw [write, executions, htype]
  rfl

theorem foldl_write_terminationAttempt {new : List CdrInfo} (hnew : ∀ r ∈ new, r.cdrType = .terminationAttempt)
    (rows : List CdrSession) : new.foldl write rows = rows := by
  induction new generalizing rows with
  | nil => rfl
  | cons r new ih =>
    rw [List.foldl_cons, write_terminationAttempt (hnew r List.mem_cons_self)]
    exact ih (fun r' hr' => hnew r' (List.mem_cons_of_mem _ hr')) rows

end CdrInfo

/-! ## Answered calls -/

namespace Calls

/-- A client transaction is the INVITE of a call. -/
def isInvite (s : Calls) (orq : Orq) : Bool := (s.outgoing orq).any fun o => o.callback = .responseToInvite

/-- An entry of the log says that a response 200 to the INVITE of a call was passed on to a
    request on the leg. -/
def answers (s : Calls) (leg : Leg) : CallEvent → Bool
  | .replied irq orq reply => s.isInvite orq && s.incomingLeg irq = some leg && reply.status = 200
  | _ => false

/-- The INVITE on the leg was answered. -/
def answered (s : Calls) (leg : Leg) : Bool := s.log.any (s.answers leg)

/-- The number of origination calls in `m_dialogs` that were answered. -/
def standingCalls (s : Calls) : ℕ :=
  s.dialogs.pairs.countP fun p => s.callType p.1 = .origination ∧ s.answered p.1

end Calls

/-! ## The log -/

namespace Calls

/-- What stays of the transactions. -/
structure Extends (s s' : Calls) : Prop where
  next : s.next ≤ s'.next
  incoming : ∀ irq : Irq, irq.address < s.next → s'.incomingLeg irq = s.incomingLeg irq
  isInvite : ∀ orq : Orq, orq.address < s.next → s'.isInvite orq = s.isInvite orq
  outgoing : ∀ orq, s.outgoing orq ≠ none → s'.outgoing orq ≠ none

/-- The transactions are not new, and neither is the leg of the request. -/
structure Old (s : Calls) (irq : Irq) (orq : Orq) : Prop where
  irq_lt : irq.address < s.next
  orq_lt : orq.address < s.next
  leg_lt : ∀ l ∈ s.incomingLeg irq, l.address < s.next

/-- What was passed on belongs to transactions that are there, and so does what is pending. -/
structure Logged (s : Calls) : Prop where
  replied : ∀ irq orq reply, .replied irq orq reply ∈ s.log → s.Old irq orq
  pending : ∀ irq orq, (irq, orq) ∈ s.transactions → orq ≠ .null → s.outgoing orq ≠ none

section

variable {s s' s'' : Calls} {irq : Irq} {orq : Orq} {leg : Leg}

theorem Extends.refl (s : Calls) : Extends s s := ⟨le_rfl, fun _ _ => rfl, fun _ _ => rfl, fun _ h => h⟩

theorem Extends.trans (h : Extends s s') (h' : Extends s' s'') : Extends s s'' where
  next := h.next.trans h'.next
  incoming irq hlt := (h'.incoming irq (hlt.trans_le h.next)).trans (h.incoming irq hlt)
  isInvite orq hlt := (h'.isInvite orq (hlt.trans_le h.next)).trans (h.isInvite orq hlt)
  outgoing orq hne := h'.outgoing orq (h.outgoing orq hne)

/-- The answers of a run are those of its start and the new ones. -/
theorem Logged.answered_eq (h : s.Logged) (hx : Extends s s') {new : List CallEvent}
    (hlog : s'.log = new ++ s.log) (leg : Leg) : s'.answered leg = (new.any (s'.answers leg) || s.answered leg) := by
  have hsame : ∀ e ∈ s.log, s'.answers leg e = s.answers leg e := by
    intro e he
    cases e with
    | replied irq orq reply =>
      have hold := h.replied irq orq reply he
      rw [answers, answers, hx.incoming irq hold.irq_lt, hx.isInvite orq hold.orq_lt]
    | created | returned | cancelled | sent => rfl
  have hold : s.log.any (s'.answers leg) = s.answered leg := by
    rw [answered, Bool.eq_iff_iff, List.any_eq_true, List.any_eq_true]
    exact exists_congr fun e => and_congr_right fun he => by rw [hsame e he]
  rw [answered, hlog, List.any_append, hold]

/-- Nothing was passed on to a leg that is new. -/
theorem Logged.answered_of_fresh (h : s.Logged) (hleg : s.next ≤ leg.address) : s.answered leg = false := by
  rw [answered, List.any_eq_false]
  intro e he hanswers
  cases e with
  | replied irq orq reply =>
    simp only [answers, Bool.and_eq_true, decide_eq_true_eq] at hanswers
    exact absurd ((h.replied irq orq reply he).leg_lt leg hanswers.1.2) (not_lt.2 hleg)
  | created | returned | cancelled | sent => exact absurd hanswers Bool.false_ne_true

theorem isInvite_destroyOutgoing (s : Calls) (gone orq : Orq) :
    (s.destroyOutgoing gone).isInvite orq = s.isInvite orq := by
  change (Function.update s.outgoing gone _ orq).any _ = _
  by_cases heq : orq = gone
  · rw [heq, Function.update_self, Option.any_map]
    rfl
  · rw [Function.update_of_ne heq]
    rfl

theorem outgoing_destroyOutgoing (s : Calls) (gone : Orq) (h : s.outgoing orq ≠ none) :
    (s.destroyOutgoing gone).outgoing orq ≠ none := by
  change Function.update s.outgoing gone _ orq ≠ none
  by_cases heq : orq = gone
  · rw [heq, Function.update_self]
    exact fun hnone => h (heq ▸ Option.map_eq_none_iff.1 hnone)
  · rwa [Function.update_of_ne heq]

theorem extends_destroyOutgoing (s : Calls) (gone : Orq) : Extends s (s.destroyOutgoing gone) :=
  ⟨le_rfl, fun _ _ => rfl, fun orq _ => s.isInvite_destroyOutgoing gone orq,
    fun _ => s.outgoing_destroyOutgoing gone⟩

theorem extends_clearTransaction (s : Calls) (gone : Orq) : Extends s (s.clearTransaction gone) :=
  ⟨le_rfl, fun irq _ => s.incomingLeg_clearTransaction gone irq,
    fun orq _ => s.isInvite_destroyOutgoing gone orq, fun _ => s.outgoing_destroyOutgoing gone⟩

/-- A step that leaves the transactions alone. -/
theorem Extends.of_frame (hnext : s.next ≤ s'.next) (hin : s'.incoming = s.incoming)
    (hout : s'.outgoing = s.outgoing) : Extends s s' := by
  refine ⟨hnext, fun irq _ => ?_, fun orq _ => ?_, fun orq => ?_⟩
  · rw [incomingLeg, hin]
    rfl
  · change (s'.outgoing orq).any _ = _
    rw [hout]
    rfl
  · rw [hout]
    exact id

theorem extends_log (s : Calls) (log : List CallEvent) : Extends s { s with log := log } := .of_frame le_rfl rfl rfl

/-- A new server transaction, and possibly a new client transaction. -/
theorem Extends.of_received {i : Incoming} (hnext : s.next ≤ s'.next)
    (hin : s'.incoming = Function.update s.incoming ⟨s.next⟩ (some i))
    (hout : s'.outgoing = s.outgoing ∨
      ∃ orq : Orq, s.next ≤ orq.address ∧ ∃ o, s'.outgoing = Function.update s.outgoing orq (some o)) :
    Extends s s' := by
  have hincoming : ∀ irq : Irq, irq.address < s.next → s'.incomingLeg irq = s.incomingLeg irq := by
    intro irq hlt
    rw [incomingLeg, hin]
    exact s.incomingLeg_update i hlt
  rcases hout with hout | ⟨orq, hle, o, hout⟩
  · have hframe := Extends.of_frame (s := { s with incoming := s'.incoming }) hnext rfl hout
    exact ⟨hnext, hincoming, hframe.isInvite, hframe.outgoing⟩
  · refine ⟨hnext, hincoming, fun orq' hlt => ?_, fun orq' hne => ?_⟩
    · change (s'.outgoing orq').any _ = _
      rw [hout, Function.update_of_ne]
      · rfl
      · rintro rfl
        exact absurd hlt (not_lt.2 hle)
    · rw [hout, Function.update_apply]
      split_ifs
      · exact Option.some_ne_none _
      · exact hne

/-- What the log and the pairs are afterwards. -/
theorem Logged.of_extends (h : s.Logged) (hx : Extends s s') (new : List CallEvent)
    (hlog : s'.log = new ++ s.log)
    (hnew : ∀ irq orq reply, .replied irq orq reply ∈ new → s.Old irq orq)
    (hpairs : ∀ irq orq, (irq, orq) ∈ s'.transactions → orq ≠ .null →
      (irq, orq) ∈ s.transactions ∨ s'.outgoing orq ≠ none) : s'.Logged := by
  refine ⟨fun irq orq reply he => ?_, fun irq orq hpair hnull => ?_⟩
  · rw [hlog, List.mem_append] at he
    have hold := he.elim (hnew irq orq reply) (h.replied irq orq reply)
    refine ⟨hold.irq_lt.trans_le hx.next, hold.orq_lt.trans_le hx.next, fun l hmem => ?_⟩
    rw [hx.incoming irq hold.irq_lt] at hmem
    exact (hold.leg_lt l hmem).trans_le hx.next
  · exact (hpairs irq orq hpair hnull).elim (fun hold => hx.outgoing orq (h.pending irq orq hold hnull)) id

/-- The same, where the pairs only go. -/
theorem Logged.of_log (h : s.Logged) (hx : Extends s s') (new : List CallEvent) (hlog : s'.log = new ++ s.log)
    (hnew : ∀ irq orq reply, .replied irq orq reply ∈ new → s.Old irq orq)
    (hpairs : ∀ p, p ∈ s'.transactions → p ∈ s.transactions) : s'.Logged :=
  h.of_extends hx new hlog hnew fun irq orq hpair _ => .inl (hpairs (irq, orq) hpair)

/-- A step that leaves the transactions and the pairs alone. -/
theorem Logged.of_frame (h : s.Logged) (hnext : s.next ≤ s'.next) (hin : s'.incoming = s.incoming)
    (hout : s'.outgoing = s.outgoing) (hpairs : s'.transactions = s.transactions) (new : List CallEvent)
    (hlog : s'.log = new ++ s.log) (hnew : ∀ irq orq reply, .replied irq orq reply ∈ new → s.Old irq orq) :
    Extends s s' ∧ s'.Logged := by
  have hx : Extends s s' := .of_frame hnext hin hout
  exact ⟨hx, h.of_log hx new hlog hnew fun p hp => hpairs ▸ hp⟩

/-- A pair is an old one, or the new one, whose client transaction is there. -/
theorem mem_or_outgoing_of_insert {m : Bimap Irq Orq} {irq' : Irq} {orq' : Orq}
    (hpair : (irq', orq') ∈ m.insert irq orq) (hm : ∀ p ∈ m, p ∈ s.transactions) {o : Outgoing}
    (hout : s'.outgoing orq = some o) : (irq', orq') ∈ s.transactions ∨ s'.outgoing orq' ≠ none := by
  rcases Bimap.mem_of_mem_insert hpair with heq | hold
  · obtain ⟨-, rfl⟩ := Prod.mk.inj heq
    rw [hout]
    exact .inr (Option.some_ne_none o)
  · exact .inl (hm _ hold)

/-- The new INVITE is sent first, then the old one is destroyed. -/
theorem extends_replaceAttempt (s : Calls) (irq : Irq) (orq : Orq) {orqNew : Orq} (bLeg : Leg) {bLegNew : Leg}
    (request : OutgoingRequest) (t : ℕ) {n : ℕ} (hb : s.next ≤ bLegNew.address)
    (horq : bLegNew.address < orqNew.address) (hn : orqNew.address < n) :
    Extends s (s.replaceAttempt irq orq orqNew bLeg bLegNew request t n) := by
  let u : Calls := { s with
    outgoing := Function.update s.outgoing orqNew (some ⟨bLegNew, .responseToInvite, request, 0⟩) }
  have hu : Extends s u := by
    refine ⟨le_rfl, fun _ _ => rfl, fun orq' hlt => ?_, fun orq' hne => ?_⟩
    · have hfresh : orq' ≠ orqNew := by
        rintro rfl
        exact absurd hlt (not_lt.2 (hb.trans_lt horq).le)
      exact congrArg (Option.any _) (Function.update_of_ne hfresh _ _)
    · change Function.update s.outgoing orqNew _ orq' ≠ none
      rw [Function.update_apply]
      split_ifs
      · exact Option.some_ne_none _
      · exact hne
  refine (hu.trans (extends_destroyOutgoing u orq)).trans (.of_frame ?_ ?_ ?_)
  · rw [replaceAttempt_next]
    exact ((hb.trans_lt horq).trans hn).le
  · exact replaceAttempt_incoming ..
  · exact replaceAttempt_outgoing ..

theorem Logged.callStep {granted calm : Prop} (hr : s.RelayInv) (h : s.Logged) (hstep : CallStep granted calm s s') :
    Extends s s' ∧ s'.Logged := by
  -- Only responses that are passed on matter in the log.
  have hnone : ∀ {new : List CallEvent}, (∀ e ∈ new, ∀ irq orq reply, e ≠ .replied irq orq reply) →
      ∀ irq orq reply, .replied irq orq reply ∈ new → s.Old irq orq :=
    fun hnew irq orq reply he => absurd rfl (hnew _ he irq orq reply)
  have hrelay : ∀ {irq : Irq} {orq : Orq} {reply : Reply} {acks : List Leg}, s.Relayable irq orq →
      ∀ irq' orq' reply', .replied irq' orq' reply' ∈ acks.map (CallEvent.sent · .ack) ++ [.replied irq orq reply] →
        s.Old irq' orq' := by
    intro irq orq reply acks hrel irq' orq' reply' he
    obtain ⟨-, hp, -⟩ := hr.relayable hrel
    rcases List.mem_append.1 he with he | he
    · obtain ⟨_, _, heq⟩ := List.mem_map.1 he
      cases heq
    · cases List.mem_singleton.1 he
      refine ⟨hp.irq_lt, hp.orq_lt, fun l hmem => ?_⟩
      obtain ⟨i, hi, rfl⟩ := Option.map_eq_some_iff.1 hmem
      exact hp.leg_lt i hi
  cases hstep with
  | sent leg method => exact h.of_frame le_rfl rfl rfl rfl [.sent leg method] rfl (hnone (by simp))
  | assertion a hv => exact h.of_frame le_rfl rfl rfl rfl [] rfl (hnone (by simp))
  | endIterator leg hleg hget => exact h.of_frame le_rfl rfl rfl rfl [] rfl (hnone (by simp))
  | receive leg =>
    have hx : Extends s (s.receive leg) := .of_received (Nat.le_succ _) rfl (.inl rfl)
    exact ⟨hx, h.of_log hx [] rfl (hnone (by simp)) fun _ hp => hp⟩
  | advance n hn => exact h.of_frame hn rfl rfl rfl [] rfl (hnone (by simp))
  | refuse i status n hn hstatus =>
    have hx : Extends s (s.refuse i status n) := .of_received hn.le rfl (.inl rfl)
    exact ⟨hx, h.of_log hx _ rfl (hnone (by simp)) fun _ hp => hp⟩
  | openCall callType aLeg bLeg orq request info t n hinfo htype ha hnull hb horq hn =>
    have hx : Extends s (s.openCall callType aLeg bLeg orq request info t n) :=
      .of_received (hb.trans (horq.trans hn)).le rfl (.inr ⟨orq, (hb.trans horq).le, _, rfl⟩)
    have hout : (s.openCall callType aLeg bLeg orq request info t n).outgoing orq = some _ :=
      Function.update_self _ _ _
    exact ⟨hx, h.of_extends hx [_] rfl (hnone (by simp)) fun irq' orq' hpair _ =>
      mem_or_outgoing_of_insert hpair (fun _ hp => hp) hout⟩
  | forward leg other orq request n hleg hother hnull horq hgranted hn =>
    by_cases hnull' : orq = .null
    · have hout : (s.forward leg other orq request n).outgoing = s.outgoing := if_pos hnull'
      have hlog : (s.forward leg other orq request n).log = s.log := if_pos hnull'
      have hx : Extends s (s.forward leg other orq request n) := .of_received hn.le rfl (.inl hout)
      refine ⟨hx, h.of_extends hx [] hlog (hnone (by simp)) fun irq' orq' hpair hne => .inl ?_⟩
      rcases Bimap.mem_of_mem_insert hpair with heq | hold
      · exact absurd ((Prod.mk.inj heq).2.trans hnull') hne
      · exact hold
    · have hout : (s.forward leg other orq request n).outgoing = Function.update s.outgoing orq _ := if_neg hnull'
      have hlog : (s.forward leg other orq request n).log = _ :: s.log := if_neg hnull'
      have hx : Extends s (s.forward leg other orq request n) :=
        .of_received hn.le rfl (.inr ⟨orq, (horq.resolve_left hnull').1.le, _, hout⟩)
      have hself := (congrFun hout orq).trans (Function.update_self _ _ _)
      exact ⟨hx, h.of_extends hx [_] hlog (hnone (by simp)) fun irq' orq' hpair _ =>
        mem_or_outgoing_of_insert hpair (fun _ hp => hp) hself⟩
  | updateDialogInfo leg f hf => exact h.of_frame le_rfl rfl rfl rfl [] rfl (hnone (by simp))
  | eraseAttempt orq => exact h.of_frame le_rfl rfl rfl rfl [] rfl (hnone (by simp))
  | relay irq orq reply hrel hstatus =>
    have hnew := @hrelay irq orq reply [] hrel
    exact h.of_frame le_rfl rfl rfl rfl [_] rfl hnew
  | settle irq orq reply acks hrel hstatus =>
    have hlog := s.extends_log (acks.map (.sent · .ack) ++ .replied irq orq reply :: s.log)
    have hx : Extends s (s.settle irq orq reply acks) := hlog.trans (extends_clearTransaction _ orq)
    refine ⟨hx, h.of_log hx (acks.map (.sent · .ack) ++ [.replied irq orq reply]) ?_ (hrelay hrel)
      fun _ hp => (Bimap.mem_eraseRight.1 hp).1⟩
    exact (List.append_assoc _ [_] _).symm
  | cancel irq orq hpair hleg =>
    have hlog := s.extends_log (.cancelled irq :: s.log)
    have hx : Extends s (((s.record (.cancelled irq)).destroyOutgoing orq).clearTransaction orq) :=
      (hlog.trans (extends_destroyOutgoing _ orq)).trans (extends_clearTransaction _ orq)
    exact ⟨hx, h.of_log hx [.cancelled irq] rfl (hnone (by simp)) fun _ hp => (Bimap.mem_eraseRight.1 hp).1⟩
  | cancelLate irq hbound hgone => exact h.of_frame le_rfl rfl rfl rfl [_] rfl (hnone (by simp))
  | clearDialog leg hleg hquiet =>
    exact h.of_frame (s.clearDialog_next leg).ge (s.clearDialog_incoming leg) (s.clearDialog_outgoing leg)
      (s.clearDialog_transactions leg) [] (s.clearDialog_log leg) (hnone (by simp))
  | replaceAttempt irq orq orqNew bLeg bLegNew request t n hrel hleg hlive hinvite ht hquiet hb horq hn =>
    have hx := s.extends_replaceAttempt irq orq bLeg request t hb horq hn
    refine ⟨hx, h.of_extends hx [_] (replaceAttempt_log ..) (hnone (by simp)) fun irq' orq' hpair _ => ?_⟩
    rw [replaceAttempt_transactions] at hpair
    have hout : (s.replaceAttempt irq orq orqNew bLeg bLegNew request t n).outgoing orqNew ≠ none := by
      rw [replaceAttempt_outgoing]
      refine outgoing_destroyOutgoing _ orq ?_
      change Function.update s.outgoing orqNew _ orqNew ≠ none
      rw [Function.update_self]
      exact Option.some_ne_none _
    obtain ⟨o, ho⟩ := Option.ne_none_iff_exists'.1 hout
    exact mem_or_outgoing_of_insert hpair (fun _ hp => (Bimap.mem_eraseRight.1 hp).1) ho

/-- All steps of an event. -/
theorem Logged.callSteps {granted calm : Prop} (hr : s.RelayInv) (h : s.Logged)
    (hsteps : CallSteps granted calm s s') : Extends s s' ∧ s'.Logged := by
  induction hsteps with
  | refl => exact ⟨.refl s, h⟩
  | tail hsteps hstep ih =>
    obtain ⟨hx, hlogged⟩ := ih
    obtain ⟨hx', hlogged'⟩ := hlogged.callStep (hr.callSteps hsteps) hstep
    exact ⟨hx.trans hx', hlogged'⟩

theorem logged_empty : Logged {} :=
  ⟨fun _ _ _ he => absurd he List.not_mem_nil, fun _ _ hp => absurd hp (Bimap.not_mem_empty _)⟩


end

end Calls

namespace Records

/-! ## The UUIDs of the records -/

/-- The records that were there keep their UUIDs. -/
def KeepsUuids (b b' : Records) : Prop :=
  ∀ p r, b.cdrs.at? p = some r → ∃ r', b'.cdrs.at? p = some r' ∧ r'.uuid = r.uuid

section

variable {b b' b'' : Records} {p : ℕ} {f : CdrInfo → CdrInfo}

theorem KeepsUuids.of_eq (h : b'.cdrs = b.cdrs) : KeepsUuids b b' := fun _ r hr => ⟨r, h ▸ hr, rfl⟩

theorem KeepsUuids.trans (h : KeepsUuids b b') (h' : KeepsUuids b' b'') : KeepsUuids b b'' := by
  intro p r hr
  obtain ⟨r', hr', huuid⟩ := h p r hr
  obtain ⟨r'', hr'', huuid'⟩ := h' p r' hr'
  exact ⟨r'', hr'', huuid'.trans huuid⟩

theorem keepsUuids_update (hf : ∀ cdr, (f cdr).uuid = cdr.uuid) : KeepsUuids b (b.update p f) := by
  intro q r hr
  change ∃ r', (b.cdrs.update p f).at? q = some r' ∧ _
  by_cases heq : q = p
  · rw [← heq, CdrHeap.at?_update_self, hr]
    exact ⟨f r, rfl, hf r⟩
  · rw [CdrHeap.at?_update_of_ne heq, hr]
    exact ⟨r, rfl, rfl⟩

theorem keepsUuids_draft (b : Records) (cdr : CdrInfo) : KeepsUuids b (b.draft cdr) :=
  fun _ r hr => ⟨r, CdrHeap.at?_alloc_of_some hr cdr, rfl⟩

theorem keepsUuids_file (b : Records) (cdr : CdrInfo) : KeepsUuids b (b.file cdr) := keepsUuids_draft b cdr

theorem keepsUuids_copy (b : Records) (p : ℕ) (f : CdrInfo → CdrInfo) : KeepsUuids b (b.postCopy p f) := by
  unfold postCopy
  cases b.cdrs.at? p with
  | none => exact .of_eq rfl
  | some cdr => exact keepsUuids_file b (f cdr)

end

end Records

namespace Calls

/-! ## Origination calls -/

/-- The A leg of an origination call that is in the tables. -/
def Originates (s : Calls) (a : Leg) : Prop := s.callType a = .origination ∧ a ∈ s.legs

open Classical in
/-- What becomes of an origination call: `none` before and after it is in the tables, and else
    whether it was answered. -/
noncomputable def status (s : Calls) (a : Leg) : Option Bool := if s.Originates a then some (s.answered a) else none

section

variable {s s' : Calls} {a b leg : Leg}

theorem status_ne_none : s.status a ≠ none ↔ s.Originates a := by
  unfold status
  split_ifs with h
  · exact iff_of_true (Option.some_ne_none _) h
  · exact iff_of_false (fun hne => hne rfl) h

theorem status_eq_some_true :
    s.status a = some true ↔ s.Originates a ∧ s.answered a = true := by
  unfold status
  split_ifs with h
  · rw [Option.some_inj]
    exact (and_iff_right h).symm
  · exact iff_of_false (fun h' => by cases h') fun h' => h h'.1

/-- The status of a leg that is not the A leg of an origination call. -/
theorem status_of_type (h : s.callType a ≠ .origination) : s.status a = none := if_neg fun h' => h h'.1

theorem status_of_not_mem (h : a ∉ s.legs) : s.status a = none := if_neg fun h' => h h'.2

theorem status_congr (htype : s'.callType a = s.callType a)
    (hlive : s.callType a = .origination → (a ∈ s'.legs ↔ a ∈ s.legs))
    (hanswered : s.callType a = .origination → s'.answered a = s.answered a) : s'.status a = s.status a := by
  by_cases h : s.callType a = .origination
  · have hiff : s'.Originates a ↔ s.Originates a := and_congr (by rw [htype]) (hlive h)
    unfold status
    rw [hanswered h]
    split_ifs with h₁ h₂ h₂
    · rfl
    · exact absurd (hiff.1 h₁) h₂
    · exact absurd (hiff.2 h₂) h₁
    · rfl
  · rw [status_of_type h, status_of_type (htype ▸ h)]

/-- **The number of answered calls.** -/
theorem Typed.standingCalls_eq (h : s.Typed) :
    s.standingCalls = (s.legs.filter fun a => s.status a = some true).length := by
  rw [standingCalls, List.countP_eq_length_filter, ← List.length_map Prod.fst]
  refine List.Perm.length_eq ((List.perm_ext_iff_of_nodup ?_ (h.legs_nodup.filter _)).2 fun a => ?_)
  · exact s.dialogs.nodup_left.sublist (List.filter_sublist.map _)
  · rw [List.mem_map, List.mem_filter, decide_eq_true_iff, status_eq_some_true]
    constructor
    · rintro ⟨⟨x, b⟩, hp, rfl⟩
      obtain ⟨hp, hx⟩ := List.mem_filter.1 hp
      obtain ⟨htype, hanswered⟩ := of_decide_eq_true hx
      have hlive := (h.live x htype).2 ⟨b, hp⟩
      exact ⟨hlive, ⟨htype, hlive⟩, hanswered⟩
    · rintro ⟨-, ⟨htype, hlive⟩, hanswered⟩
      obtain ⟨b, hp⟩ := (h.live a htype).1 hlive
      exact ⟨(a, b), List.mem_filter.2 ⟨hp, decide_eq_true ⟨htype, hanswered⟩⟩, rfl⟩

/-- A session timer runs only for a call that is answered. -/
def TimersRun (s : Calls) : Prop :=
  ∀ l, ∀ d ∈ s.mapDialogInfo l, d.timerSessionRefresh ≠ none → s.status l = some true

/-- The origination calls go on as they were. -/
structure Steady (s s' : Calls) : Prop where
  status : s'.status = s.status
  recordOf : ∀ a, s.status a ≠ none → s'.recordOf a = s.recordOf a
  timers : s.TimersRun → s'.TimersRun

/-- The origination call with the A leg `a` is over. -/
structure Ends (s s' : Calls) (a : Leg) : Prop where
  was : s.status a ≠ none
  status : s'.status = Function.update s.status a none
  recordOf : ∀ x ≠ a, s.status x ≠ none → s'.recordOf x = s.recordOf x
  timers : s.TimersRun → s'.TimersRun

theorem Ends.none (h : Ends s s' a) : s'.status a = Option.none := by
  rw [h.status, Function.update_self]

theorem recordOf_congr (h : s'.mapDialogInfo a = s.mapDialogInfo a) : s'.recordOf a = s.recordOf a := by
  rw [recordOf, h]
  rfl

/-- One lemma for all steps that leave the origination calls alone. -/
theorem Steady.of_frame (hlegs : ∀ x, s.callType x = .origination → (x ∈ s'.legs ↔ x ∈ s.legs))
    (htype : ∀ x, s'.callType x = .origination ↔ s.callType x = .origination)
    (hanswered : ∀ x, s.callType x = .origination → s'.answered x = s.answered x)
    (hrecord : ∀ x, s.status x ≠ none → s'.recordOf x = s.recordOf x)
    (htimers : s.TimersRun → ∀ l, ∀ d' ∈ s'.mapDialogInfo l, d'.timerSessionRefresh ≠ none →
      ∃ d ∈ s.mapDialogInfo l, d.timerSessionRefresh ≠ none) : Steady s s' := by
  have hstatus : s'.status = s.status := by
    funext x
    by_cases horig : s.callType x = .origination
    · exact status_congr (((htype x).2 horig).trans horig.symm) (hlegs x) (hanswered x)
    · rw [status_of_type horig, status_of_type fun h => horig ((htype x).1 h)]
  refine ⟨hstatus, hrecord, fun hruns l d' hd' ht' => ?_⟩
  obtain ⟨d, hd, ht⟩ := htimers hruns l d' hd' ht'
  rw [hstatus]
  exact hruns l d hd ht

/-- The same, where the tables of the dialogs are left alone. -/
theorem Steady.of_tables (hlegs : s'.legs = s.legs) (htype : s'.callType = s.callType)
    (hinfo : s'.mapDialogInfo = s.mapDialogInfo)
    (hanswered : ∀ x, s.callType x = .origination → s'.answered x = s.answered x) : Steady s s' := by
  refine .of_frame (fun _ _ => ?_) (fun _ => ?_) hanswered (fun x _ => recordOf_congr (congrFun hinfo x)) ?_
  · rw [hlegs]
  · rw [htype]
  · rw [hinfo]
    exact fun _ l d hd ht => ⟨d, hd, ht⟩

/-- A call is taken away: an origination call, or another one. -/
theorem Typed.ends_of_cleared (h : s.Typed) (hab : (a, b) ∈ s.dialogs)
    (hlegs : ∀ x, x ∈ s'.legs ↔ x ∈ s.legs ∧ x ≠ a ∧ x ≠ b)
    (hinfo : ∀ l, s'.mapDialogInfo l = if l = a ∨ l = b then none else s.mapDialogInfo l)
    (htype : s'.callType = s.callType)
    (hanswered : ∀ x, s.callType x = .origination → s'.answered x = s.answered x) :
    (s.callType a = .origination → Ends s s' a) ∧ (s.callType a ≠ .origination → Steady s s') := by
  have hb : ∀ {x}, s.callType x = .origination → x ≠ b := by
    rintro x hx rfl
    rw [(h.dialogs a x hab).2.1] at hx
    cases hx
  have hrecord : ∀ x ≠ a, s.status x ≠ none → s'.recordOf x = s.recordOf x := by
    intro x hne hx
    refine recordOf_congr ?_
    rw [hinfo, if_neg (not_or.2 ⟨hne, hb (status_ne_none.1 hx).1⟩)]
  have hold : ∀ l, ∀ d ∈ s'.mapDialogInfo l, l ≠ a ∧ d ∈ s.mapDialogInfo l := by
    intro l d hd
    rw [hinfo] at hd
    split_ifs at hd with hl
    · cases hd
    · exact ⟨fun heq => hl (.inl heq), hd⟩
  constructor
  · intro ha
    have hlive := (h.live a ha).2 ⟨b, hab⟩
    have hstatus : s'.status = Function.update s.status a none := by
      funext x
      by_cases heq : x = a
      · rw [heq, Function.update_self]
        exact status_of_not_mem fun hmem => ((hlegs a).1 hmem).2.1 rfl
      · rw [Function.update_of_ne heq]
        refine status_congr (congrFun htype x) (fun hx => ?_) (hanswered x)
        rw [hlegs]
        exact and_iff_left ⟨heq, hb hx⟩
    refine ⟨status_ne_none.2 ⟨ha, hlive⟩, hstatus, hrecord, fun hruns l d hd ht => ?_⟩
    obtain ⟨hne, hd⟩ := hold l d hd
    rw [hstatus, Function.update_of_ne hne]
    exact hruns l d hd ht
  · intro ha
    have hne : ∀ {x}, s.callType x = .origination → x ≠ a := by
      rintro x hx rfl
      exact ha hx
    refine .of_frame (fun x hx => ?_) (fun x => by rw [htype]) hanswered
      (fun x hx => hrecord x (hne (status_ne_none.1 hx).1) hx) fun _ l d hd ht => ⟨d, (hold l d hd).2, ht⟩
    rw [hlegs]
    exact and_iff_left ⟨hne hx, hb hx⟩

/-- `clearDialog`, after a step `u` that left the dialogs alone. -/
theorem Typed.ends_clearDialog {u : Calls} (h : s.Typed) (hu : u.Typed) (hdialogs : u.dialogs = s.dialogs)
    (hlegs : u.legs = s.legs) (htype : u.callType = s.callType)
    (hinfo : ∀ l, l ≠ leg → u.mapDialogInfo l = s.mapDialogInfo l) (hintact : (u.clearDialog leg).Intact)
    (hnull : leg ≠ .null) (hlegs' : s'.legs = (u.clearDialog leg).legs) (htype' : s'.callType = u.callType)
    (hinfo' : s'.mapDialogInfo = (u.clearDialog leg).mapDialogInfo)
    (hanswered : ∀ x, s.callType x = .origination → s'.answered x = s.answered x) :
    ∃ a b, (a, b) ∈ s.dialogs ∧ (leg = a ∨ leg = b) ∧
      (s.callType a = .origination → Ends s s' a) ∧ (s.callType a ≠ .origination → Steady s s') := by
  obtain ⟨a, b, hab, hside, -, hc⟩ := hu.cleared hintact hnull
  rw [hdialogs] at hab
  refine ⟨a, b, hab, hside, h.ends_of_cleared hab (fun x => ?_) (fun l => ?_) (htype'.trans htype) hanswered⟩
  · rw [hlegs', hc.mem_legs, hlegs]
  · rw [hinfo', hc.info]
    split_ifs with hl
    · rfl
    · refine hinfo l ?_
      rintro rfl
      exact hl hside

/-- What is known of the dialogs after a call comes in whose session timer does not run yet. -/
theorem Typed.dialogs_openCall {callType : CallType} {aLeg bLeg : Leg} {orq : Orq} {info : SipDialogInfo} {n : ℕ}
    (h : s.Typed) (hf : Fresh s callType aLeg bLeg orq n) (hi : InfoFor callType aLeg bLeg info)
    (htimer : info.timerSessionRefresh = none) (request : OutgoingRequest) (t : ℕ)
    (hs' : s' = s.openCall callType aLeg bLeg orq request info t n) :
    (∀ x, s.status x ≠ none → s'.recordOf x = s.recordOf x) ∧
      ∀ l, ∀ d' ∈ s'.mapDialogInfo l, d'.timerSessionRefresh ≠ none →
        d' ∈ s.mapDialogInfo l := by
  obtain ⟨hlt, hinfo⟩ := h.info_openCall hf hi request t
  rw [← hs'] at hinfo
  refine ⟨fun x hx => recordOf_congr ?_, fun l d' hd' ht => ?_⟩
  · rw [hinfo, Function.update_of_ne]
    rintro rfl
    exact absurd (h.legs_lt _ (status_ne_none.1 hx).2).2 (not_lt.2 hlt.1.le)
  · rw [hinfo, Function.update_apply] at hd'
    split_ifs at hd'
    · obtain rfl := Option.some_inj.1 hd'
      exact absurd htimer ht
    · exact hd'

/-- An origination call comes in. -/
theorem Typed.status_openOrigination {aLeg bLeg : Leg} {orq : Orq} {n : ℕ} (h : s.Typed) (hl : s.Logged)
    (hf : Fresh s .origination aLeg bLeg orq n) (request : OutgoingRequest) (info : SipDialogInfo) (t : ℕ)
    (hs' : s' = s.openCall .origination aLeg bLeg orq request info t n)
    (hanswered : ∀ x, s'.answered x = s.answered x) :
    s.status aLeg = none ∧ s'.status = Function.update s.status aLeg (some false) := by
  have ha : s.next < aLeg.address := (hf.a.resolve_left fun ha => CallType.noConfusion ha.2).1
  have hnull : aLeg ≠ .null := by
    rintro rfl
    exact absurd ha (Nat.not_lt_zero _)
  have hmem : ∀ x, x ∈ s'.legs ↔ x = bLeg ∨ (x = aLeg ∧ aLeg ≠ .null) ∨ x ∈ s.legs := by
    rw [hs']
    exact fun x => mem_legs_openCall s .origination aLeg bLeg orq request info t n x
  have htype : s'.callType = Function.update s.callType aLeg .origination := by rw [hs']; rfl
  refine ⟨status_of_not_mem (h.legs_of_fresh ha.le), funext fun x => ?_⟩
  by_cases heq : x = aLeg
  · subst heq
    have horig : s'.Originates x := ⟨by rw [htype, Function.update_self], (hmem x).2 (.inr (.inl ⟨rfl, hnull⟩))⟩
    rw [Function.update_self, status, if_pos horig, hanswered, hl.answered_of_fresh ha.le]
  · rw [Function.update_of_ne heq]
    refine status_congr (by rw [htype, Function.update_of_ne heq]) (fun hx => ?_) fun _ => hanswered x
    have hb : x ≠ bLeg := by
      rintro rfl
      exact absurd (h.type_lt x (by rw [hx]; exact CallType.noConfusion)) (not_lt.2 hf.b.le)
    rw [hmem]
    simp [heq, hb]

/-- A termination call comes in. -/
theorem Typed.steady_openTermination {aLeg bLeg : Leg} {orq : Orq} {info : SipDialogInfo} {n : ℕ} (h : s.Typed)
    (hf : Fresh s .termination aLeg bLeg orq n) (hi : InfoFor .termination aLeg bLeg info)
    (htimer : info.timerSessionRefresh = none) (request : OutgoingRequest) (t : ℕ)
    (hs' : s' = s.openCall .termination aLeg bLeg orq request info t n)
    (hanswered : ∀ x, s'.answered x = s.answered x) : Steady s s' := by
  obtain ⟨hrecord, htimers⟩ := h.dialogs_openCall hf hi htimer request t hs'
  have hmem : ∀ x, x ∈ s'.legs ↔ x = bLeg ∨ (x = aLeg ∧ aLeg ≠ .null) ∨ x ∈ s.legs := by
    rw [hs']
    exact fun x => mem_legs_openCall s .termination aLeg bLeg orq request info t n x
  have htype : s'.callType = Function.update s.callType aLeg .termination := by rw [hs']; rfl
  -- The A leg was not that of an origination call.
  have ha : s.callType aLeg ≠ .origination := by
    rcases hf.a with ⟨rfl, -⟩ | ⟨ha, -⟩
    · exact h.type_null
    · rw [h.type_of_fresh ha.le]
      exact CallType.noConfusion
  have hne : ∀ {x}, s.callType x = .origination → x ≠ aLeg ∧ x ≠ bLeg := by
    intro x hx
    refine ⟨?_, ?_⟩
    · rintro rfl
      exact ha hx
    · rintro rfl
      exact absurd (h.type_lt x (by rw [hx]; exact CallType.noConfusion)) (not_lt.2 hf.b.le)
  refine .of_frame (fun x hx => ?_) (fun x => ?_) (fun x _ => hanswered x) hrecord fun _ l d' hd' ht =>
    ⟨d', htimers l d' hd' ht, ht⟩
  · rw [hmem]
    simp [hne hx]
  · rw [htype, Function.update_apply]
    split_ifs with heq
    · exact iff_of_false (fun h => by cases h) (heq ▸ ha)
    · rfl

end

end Calls

/-- The UUID that is generated in an event. -/
def ControllerEvent.uuid : ControllerEvent → Option Bytes
  | .requestOutsideDialog _ uuid _ => some uuid
  | _ => none

namespace Controller

/-! ## What the events do to the calls and their records -/

/-- The UUID in the record of the call with the A leg `a`. -/
def uuidOf (c : Controller) (a : Leg) : Option SqlValue :=
  ((c.calls.recordOf a).bind c.records.cdrs.at?).map fun r => .string r.uuid

/-- Every origination call has its record. -/
def Recorded (c : Controller) : Prop :=
  ∀ a, c.calls.status a ≠ none → ∃ p r, c.calls.recordOf a = some p ∧ c.records.cdrs.at? p = some r

/-- A record says that its call is over. -/
def Closes (r : CdrInfo) : Prop :=
  r.cdrType = .originationFinalResponse ∧ r.sipStatus ≠ 200 ∨ r.cdrType = .originationCancel ∨
    r.cdrType = .callCleared

/-- What an event does to the origination calls; `Told` says whether a record tells of a call that
    is over. -/
inductive Bearing (Told : Prop) (uuid : Option Bytes) (c c' : Controller) : Prop
  | steady (new : List CdrInfo) (htold : Told) (h : Calls.Steady c.calls c'.calls)
      (huuids : Records.KeepsUuids c.records c'.records) (hposts : Records.Posts c.records c'.records new)
      (hnew : ∀ r ∈ new, r.cdrType = .terminationAttempt)
  | refused (r : CdrInfo) (htold : Told) (h : Calls.Steady c.calls c'.calls)
      (huuids : Records.KeepsUuids c.records c'.records) (hposts : Records.Posts c.records c'.records [r])
      (htype : r.cdrType = .originationRequest) (hr : uuid = some r.uuid)
  | opened (a : Leg) (r : CdrInfo) (htold : Told) (ha : c.calls.status a = none)
      (hstatus : c'.calls.status = Function.update c.calls.status a (some false))
      (hrecord : ∀ x, c.calls.status x ≠ none → c'.calls.recordOf x = c.calls.recordOf x)
      (htimers : c.calls.TimersRun → c'.calls.TimersRun)
      (huuids : Records.KeepsUuids c.records c'.records) (hposts : Records.Posts c.records c'.records [r])
      (hr : ∃ uuid', uuid = some uuid' ∧ IsRequest uuid' r) (hkey : c'.uuidOf a = some (.string r.uuid))
  | answered (a : Leg) (r : CdrInfo) (htold : Told) (ha : c.calls.status a ≠ none)
      (hstatus : c'.calls.status = Function.update c.calls.status a (some true))
      (hrecord : ∀ x, c.calls.status x ≠ none → c'.calls.recordOf x = c.calls.recordOf x)
      (htimers : c.calls.TimersRun → c'.calls.TimersRun)
      (huuids : Records.KeepsUuids c.records c'.records) (hposts : Records.Posts c.records c'.records [r])
      (hr : r.cdrType = .originationFinalResponse ∧ r.sipStatus = 200) (hkey : c.uuidOf a = some (.string r.uuid))
  | ended (a : Leg) (r : CdrInfo) (htold : Told) (h : Calls.Ends c.calls c'.calls a)
      (huuids : Records.KeepsUuids c.records c'.records) (hposts : Records.Posts c.records c'.records [r])
      (hr : Closes r) (hkey : c.uuidOf a = some (.string r.uuid))
  | dropped (a : Leg) (htold : ¬Told) (h : Calls.Ends c.calls c'.calls a) (ha : c.calls.status a = some true)
      (hrecords : c'.records = c.records)

section

variable {c c' : Controller} {orq : Orq} {irq : Irq} {Told : Prop} {uuid : Option Bytes}

/-- Nothing happens to the origination calls and the records. -/
theorem Bearing.of_records (htold : Told) (h : Calls.Steady c.calls c'.calls) (hrecords : c'.records = c.records) :
    Bearing Told uuid c c' :=
  .steady [] htold h (.of_eq (congrArg Records.cdrs hrecords)) (Records.posts_nil (congrArg Records.posted hrecords))
    fun _ hr => absurd hr List.not_mem_nil

/-- An answer is not in the log if nothing was passed on. -/
theorem answered_of_log (hl : c.calls.Logged) (hx : Calls.Extends c.calls c'.calls) (new : List CallEvent)
    (hlog : c'.calls.log = new ++ c.calls.log) (hnew : ∀ e ∈ new, ∀ irq orq reply, e ≠ .replied irq orq reply)
    (x : Leg) : c'.calls.answered x = c.calls.answered x := by
  rw [hl.answered_eq hx hlog, Bool.or_eq_right_iff_imp]
  intro hany
  obtain ⟨e, he, hanswers⟩ := List.any_eq_true.1 hany
  cases e with
  | replied irq orq reply => exact absurd rfl (hnew _ he irq orq reply)
  | created | returned | cancelled | sent => exact absurd hanswers Bool.false_ne_true

/-- One response is passed on, which is no answer to the INVITE of an origination call. -/
theorem answered_of_reply (hl : c.calls.Logged) (hx : Calls.Extends c.calls c'.calls) {reply : Reply}
    (hlog : c'.calls.log = .replied irq orq reply :: c.calls.log) {x : Leg}
    (hreply : c.calls.isInvite orq = true → c.calls.incomingLeg irq = some x → reply.status ≠ 200)
    (horq : orq.address < c.calls.next) (hirq : irq.address < c.calls.next) :
    c'.calls.answered x = c.calls.answered x := by
  have hlog' : c'.calls.log = [.replied irq orq reply] ++ c.calls.log := hlog
  rw [hl.answered_eq hx hlog', Bool.or_eq_right_iff_imp]
  intro hany
  rw [List.any_cons, List.any_nil, Bool.or_false, Calls.answers, hx.isInvite orq horq, hx.incoming irq hirq] at hany
  simp only [Bool.and_eq_true, decide_eq_true_eq] at hany
  exact absurd hany.2 (hreply hany.1.1 hany.1.2)

theorem bearing_requestOutsideDialog (h : c.calls.Typed) (hl : c.calls.Logged) (sip : Request) (uuid : Bytes)
    (nta : Creations) (hx : Calls.Extends c.calls (c.requestOutsideDialog sip uuid nta).calls) :
    Bearing True (some uuid) c (c.requestOutsideDialog sip uuid nta) := by
  rcases c.requestOutsideDialog_cases sip uuid nta with ⟨⟨i, status, n, -, -, -, hcalls⟩, hrefused⟩ | hopening
  · generalize c.requestOutsideDialog sip uuid nta = c' at hx hcalls hrefused ⊢
    have hsteady : Calls.Steady c.calls c'.calls := by
      have hanswered := answered_of_log hl hx _ (by rw [hcalls]; rfl) (by simp)
      exact .of_tables (by rw [hcalls]; rfl) (by rw [hcalls]; rfl) (by rw [hcalls]; rfl) fun x _ => hanswered x
    cases hrefused with
    | unreported hrecords => exact .of_records trivial hsteady hrecords
    | reported cdr htype huuid hrecords =>
      exact .refused cdr trivial hsteady (hrecords ▸ Records.keepsUuids_file _ _) (hrecords ▸ Records.posts_file _ _)
        htype (huuid ▸ rfl)
    | attempted cdr a ha hrecords =>
      exact .steady [] trivial hsteady (hrecords ▸ Records.keepsUuids_draft _ _) (Records.posts_nil (hrecords ▸ rfl))
        fun _ hr => absurd hr List.not_mem_nil
  · generalize c.requestOutsideDialog sip uuid nta = c' at hx hopening ⊢
    cases hopening with
    | origination request info cdr hinfo hcalls hcdr hrecords =>
      have hanswered := answered_of_log hl hx [.created _ _] (by rw [hcalls]; rfl) (by simp)
      have hf : Calls.Fresh c.calls .origination ⟨c.calls.next + 1⟩ ⟨c.calls.next + 2⟩ ⟨c.calls.next + 3⟩
          (c.calls.next + 4) :=
        ⟨CallType.noConfusion, .inr ⟨Nat.lt_succ_self _, Nat.lt_succ_self (_ + 1)⟩,
          Nat.lt_add_of_pos_right Nat.two_pos, Nat.lt_succ_self (_ + 2), Nat.lt_succ_self (_ + 3)⟩
      have hi : Calls.InfoFor .origination ⟨c.calls.next + 1⟩ ⟨c.calls.next + 2⟩ info :=
        ⟨hinfo.1, hinfo.2.1, fun _ => by rw [hinfo.2.2.2]; exact Option.some_ne_none _⟩
      obtain ⟨hrecord, htimers⟩ := h.dialogs_openCall hf hi hinfo.2.2.1 request 0 hcalls
      obtain ⟨hnone, hstatus⟩ := h.status_openOrigination hl hf request info 0 hcalls hanswered
      refine .opened ⟨c.calls.next + 1⟩ cdr trivial hnone hstatus hrecord (fun hruns l d hd ht => ?_)
        (hrecords ▸ Records.keepsUuids_file _ _) (hrecords ▸ Records.posts_file _ _) ⟨uuid, rfl, hcdr⟩ ?_
      · have hold := hruns l d (htimers l d hd ht) ht
        rw [hstatus, Function.update_of_ne, hold]
        rintro rfl
        exact Option.some_ne_none _ (hold.symm.trans hnone)
      · have hd : c'.calls.mapDialogInfo ⟨c.calls.next + 1⟩ = some info := by
          rw [hcalls, (h.info_openCall hf hi request 0).2, hinfo.1, Function.update_self]
        have hp : c'.calls.recordOf ⟨c.calls.next + 1⟩ = some c.records.cdrs.length := by
          rw [Calls.recordOf, hd]
          exact hinfo.2.2.2
        rw [uuidOf, hp, hrecords]
        exact congrArg (Option.map _) (c.records.cdrs.at?_alloc_self cdr)
    | termination aLeg n request info cdr a hn haLeg hinfo hcalls ha hcdr hrecords =>
      have hanswered := answered_of_log hl hx [.created _ _] (by rw [hcalls]; rfl) (by simp)
      have hf : Calls.Fresh c.calls .termination aLeg ⟨n⟩ ⟨n + 1⟩ (n + 2) :=
        ⟨CallType.noConfusion, haLeg.imp (fun hnull => ⟨hnull, rfl⟩) id, hn, Nat.lt_succ_self n,
          Nat.lt_succ_self (n + 1)⟩
      have hi : Calls.InfoFor .termination aLeg ⟨n⟩ info := ⟨hinfo.1, hinfo.2.1, fun h => CallType.noConfusion h⟩
      exact .steady [] trivial (h.steady_openTermination hf hi hinfo.2.2 request _ hcalls hanswered)
        (hrecords ▸ Records.keepsUuids_draft _ _) (Records.posts_nil (hrecords ▸ rfl))
        fun _ hr => absurd hr List.not_mem_nil

/-- A termination call that goes on with another attempt leaves the origination calls alone. -/
theorem steady_of_replaced (h : c.calls.Typed) (hl : c.calls.Logged) (hx : Calls.Extends c.calls c'.calls)
    (hintact : c'.calls.Intact) {irq : Irq} {aLeg bLeg : Leg} (hcall : c.calls.OfCall aLeg bLeg orq)
    (hlive : bLeg ∈ c.calls.legs) (ht : c.calls.mapTerminationAttempts orq ≠ none) {request : OutgoingRequest} {t : ℕ}
    (hcalls : c'.calls = c.calls.replaceAttempt irq orq ⟨c.calls.next + 1⟩ bLeg ⟨c.calls.next⟩ request t
      (c.calls.next + 2)) : Calls.Steady c.calls c'.calls := by
  have hanswered := answered_of_log hl hx [.created _ _] (by rw [hcalls, Calls.replaceAttempt_log]; rfl) (by simp)
  rw [hcalls] at hintact
  obtain ⟨hab, hm, d, hd, hinfo⟩ := h.moved hcall hlive ht le_rfl _ _ request t _ hintact
  rw [← hcalls] at hm hinfo
  -- Neither B leg is the A leg of an origination call.
  have hne : ∀ {x}, c.calls.callType x = .origination → x ≠ bLeg ∧ x ≠ ⟨c.calls.next⟩ := by
    intro x hx
    refine ⟨?_, ?_⟩
    · rintro rfl
      rw [hcall.other.1] at hx
      cases hx
    · rintro rfl
      rw [h.type_of_fresh le_rfl] at hx
      cases hx
  refine .of_frame (fun x hx => ?_) (fun x => by rw [hm.callType]) (fun x _ => hanswered x) (fun x hx => ?_) ?_
  · rw [hm.mem_legs]
    simp [hne hx]
  · obtain ⟨hne₁, hne₂⟩ := hne (Calls.status_ne_none.1 hx).1
    refine Calls.recordOf_congr ?_
    rw [hinfo, Function.update_of_ne hne₁, Function.update_of_ne hne₂]
  · intro hruns l d' hd' ht'
    rw [hinfo, Function.update_apply, Function.update_apply] at hd'
    split_ifs at hd' with hl hl'
    · cases hd'
    · -- No timer runs for a B leg.
      obtain rfl := Option.some_inj.1 hd'
      have hstatus := hruns _ d hd ht'
      rw [Calls.status_of_type (by rw [hcall.other.1]; exact CallType.noConfusion)] at hstatus
      cases hstatus
    · exact ⟨d', hd', ht'⟩

/-- The INVITE of a termination call is answered, it fails, or another one takes its place: no
    origination call is touched. -/
theorem Outcome.bearing {t : ℕ} {a : TerminationAttempt} {sip : Response} {nta : Creations}
    (houtcome : Outcome c (c.calls.getAssociatedIncoming orq) orq (c.calls.legFromOutgoing orq) t a sip nta c')
    (h : c.calls.Typed) (hl : c.calls.Logged) (hx : Calls.Extends c.calls c'.calls) (hreached : c.Reached orq)
    (hinvite : ∃ o ∈ c.calls.outgoing orq, o.callback = .responseToInvite)
    (ht : c.attemptOf orq = some (t, a)) (hcrash : ¬c'.Crashed) : Bearing True uuid c c' := by
  obtain ⟨hpair, ⟨o, ho, hleg⟩, hlive, hincoming, -⟩ := hreached.spec
  obtain ⟨o', ho', hcallback⟩ := hinvite
  obtain rfl : o = o' := Option.mem_unique ho ho'
  obtain ⟨aLeg, haLeg, hcall⟩ := h.invite _ orq hpair o ho hcallback
  rw [hleg] at hcall
  have ht' : c.calls.mapTerminationAttempts orq ≠ none := by
    rw [(attemptOf_eq_some ht).1]
    exact Option.some_ne_none _
  have htype := hcall.attempt ht'
  have hintact := intact_of_not_crashed hcrash
  have hlt := h.pairs_lt _ _ hpair
  -- What is passed on goes to a termination call.
  have hreply : ∀ {x : Leg} {reply : Reply}, c.calls.callType x = .origination → c.calls.isInvite orq = true →
      c.calls.incomingLeg (c.calls.getAssociatedIncoming orq) = some x → reply.status ≠ 200 := by
    intro x reply hx _ hx'
    obtain rfl : aLeg = x := Option.mem_unique haLeg hx'
    rw [htype] at hx
    cases hx
  -- The call that is cleared is the termination call.
  have hcleared : ∀ {u : Calls} {reply : Reply}, c'.calls = u.clearDialog (c.calls.legFromOutgoing orq) → u.Typed →
      u.dialogs = c.calls.dialogs → u.legs = c.calls.legs → u.callType = c.calls.callType →
      u.mapDialogInfo = c.calls.mapDialogInfo →
      u.log = .replied (c.calls.getAssociatedIncoming orq) orq reply :: c.calls.log →
      Calls.Steady c.calls c'.calls := by
    intro u reply hcalls hu hdialogs hlegs htypes hinfo hlog
    rw [hcalls] at hintact
    obtain ⟨x, y, hxy, hside, -, hsteady⟩ := h.ends_clearDialog hu hdialogs hlegs htypes
      (fun l _ => congrFun hinfo l) hintact hreached.2.1 (congrArg Calls.legs hcalls)
      ((congrArg Calls.callType hcalls).trans (Calls.clearDialog_callType _ _)) (congrArg Calls.mapDialogInfo hcalls)
      fun x hx' => answered_of_reply hl hx (by rw [hcalls, Calls.clearDialog_log, hlog]) (hreply hx') hlt.2 hlt.1
    refine hsteady ?_
    rcases hside with heq | heq
    · exact absurd hcall.other.1 (heq ▸ (h.dialogs x y hxy).1)
    · rw [hcall.sole x (heq ▸ hxy), htype]
      exact CallType.noConfusion
  have hcopy : ∀ {b : Records} {f : CdrInfo → CdrInfo}, IsReport .terminationAttempt sip.status f →
      ∀ r ∈ ((b.cdrs.at? a.cdr).map f).toList, r.cdrType = .terminationAttempt := by
    intro b f hf r hr
    obtain ⟨cdr, -, rfl⟩ := Option.map_eq_some_iff.1 (Option.mem_toList.1 hr)
    exact hf.type cdr
  have hkeeps : ∀ (f : CdrInfo → CdrInfo) (g : TerminationAttempt → TerminationAttempt) {k : CdrInfo → CdrInfo},
      KeepsIds k →
      Records.KeepsUuids c.records (((c.records.postCopy a.cdr f).modifyAttempt t g).update a.cdr k) :=
    fun f g k hk => (Records.keepsUuids_copy _ _ _).trans
      (Records.keepsUuids_update (b := (c.records.postCopy a.cdr f).modifyAttempt t g) hk.uuid)
  cases houtcome with
  | answered reply f hstatus hreply' hf hcalls hrecords =>
    have hsteady : Calls.Steady c.calls c'.calls := by
      refine .of_tables (by rw [hcalls]; rfl) (by rw [hcalls]; rfl) (by rw [hcalls]; rfl) fun x hx' => ?_
      -- The ACK is in the log before the answer.
      have hlog : c'.calls.log = [.replied (c.calls.getAssociatedIncoming orq) orq reply,
          .sent (c.calls.legFromOutgoing orq) .ack] ++ c.calls.log := by rw [hcalls]; rfl
      rw [hl.answered_eq hx hlog, Bool.or_eq_right_iff_imp]
      intro hany
      simp only [List.any_cons, List.any_nil, Calls.answers, hx.isInvite orq hlt.2, hx.incoming _ hlt.1,
        Bool.or_false, Bool.and_eq_true, decide_eq_true_eq] at hany
      exact absurd hany.2 (hreply hx' hany.1.1 hany.1.2)
    exact .steady _ trivial hsteady (hrecords ▸ Records.keepsUuids_copy _ _ _) (hrecords ▸ Records.posts_copy _ _ _)
      (hcopy hf)
  | failed n reply g f hstatus hcrank hredirect hn hreply' hg hf hcalls hrecords =>
    refine .steady _ trivial (hcleared hcalls (((h.advance hn).eraseAttempt orq).settle _ _ _ _) rfl rfl rfl rfl rfl)
      ?_ (hrecords ▸ Records.posts_copy (c.records.modifyAttempt t g) _ _) (hcopy hf)
    exact hrecords ▸ Records.keepsUuids_copy (c.records.modifyAttempt t g) _ _
  | crankbackFailed n reply f f' g k hcrank hnta hn hreply' hf hf' hg hk hcalls hrecords =>
    have hposts : Records.Posts c.records (((c.records.postCopy a.cdr f).modifyAttempt t g).update a.cdr k) _ :=
      Records.posts_copy c.records a.cdr f
    refine .steady _ trivial (hcleared hcalls (((h.advance hn).eraseAttempt orq).settle _ _ _ _) rfl rfl rfl rfl rfl)
      ?_ (hrecords ▸ hposts.trans (Records.posts_copy _ a.cdr f')) fun r hr => ?_
    · exact hrecords ▸ (hkeeps f g hk).trans (Records.keepsUuids_copy _ _ _)
    · exact (List.mem_append.1 hr).elim (hcopy hf r) (hcopy hf' r)
  | redirected request g hstatus hnta hg hcalls hrecords =>
    refine .steady [] trivial (steady_of_replaced h hl hx hintact hcall hlive ht' hcalls) ?_
      (Records.posts_nil (hrecords ▸ rfl)) fun _ hr =>
      absurd hr List.not_mem_nil
    exact hrecords ▸ Records.keepsUuids_update (b := c.records.modifyAttempt t g) fun _ => rfl
  | crankedBack request f g k hcrank hnta hf hg hk hcalls hrecords =>
    have hposts : Records.Posts c.records
        ((((c.records.postCopy a.cdr f).modifyAttempt t g).update a.cdr k).update a.cdr (setDleg nta.callId)) _ :=
      Records.posts_copy c.records a.cdr f
    refine .steady _ trivial (steady_of_replaced h hl hx hintact hcall hlive ht' hcalls) ?_ (hrecords ▸ hposts) (hcopy hf)
    rw [hrecords]
    exact (hkeeps f g hk).trans (Records.keepsUuids_update fun _ => rfl)

/-- A copy of the record of an origination call has its UUID. -/
theorem Recorded.copy (hrec : c.Recorded) {a : Leg} (ha : c.calls.status a ≠ none) :
    ∃ p r, c.calls.recordOf a = some p ∧ c.records.cdrs.at? p = some r ∧ c.uuidOf a = some (.string r.uuid) := by
  obtain ⟨p, r, hp, hr⟩ := hrec a ha
  refine ⟨p, r, hp, hr, ?_⟩
  rw [uuidOf, hp, Option.bind_some, hr]
  rfl

theorem ofInt_eq_200 {n : ℤ} (hpos : 0 ≤ n) (hint : n < UInt32.size) : UInt32.ofInt n = 200 ↔ n = 200 := by
  have hmod : n % 2 ^ 32 = n := Int.emod_eq_of_lt hpos hint
  rw [UInt32.ofInt, hmod, ← UInt32.toNat_inj, UInt32.toNat_ofNat_of_lt' ((Int.toNat_lt hpos).2 hint)]
  change n.toNat = 200 ↔ n = 200
  omega

/-- A call is answered, and nothing else happens to the calls. -/
theorem status_of_answered {s s' : Calls} {aLeg : Leg} (htypes : s'.callType = s.callType) (hlegs : s'.legs = s.legs)
    (hanswered : ∀ x, s'.answered x = (decide (aLeg = x) || s.answered x)) (horig : s.callType aLeg = .origination)
    (haLive : aLeg ∈ s.legs) : s'.status = Function.update s.status aLeg (some true) := by
  funext x
  by_cases heq : x = aLeg
  · rw [heq, Function.update_self, Calls.status_eq_some_true, Calls.Originates, htypes, hlegs, hanswered,
      decide_eq_true rfl]
    exact ⟨⟨horig, haLive⟩, rfl⟩
  · rw [Function.update_of_ne heq]
    refine Calls.status_congr (congrFun htypes x) (fun _ => by rw [hlegs]) fun _ => ?_
    rw [hanswered, decide_eq_false (Ne.symm heq), Bool.false_or]

/-- The record of every call stays when the dialog of one leg is changed. -/
theorem recordOf_of_updated {s s' : Calls} {aLeg : Leg} {k : SipDialogInfo → SipDialogInfo} (hk : KeepsDialog k)
    (hinfo : s'.mapDialogInfo = Function.update s.mapDialogInfo aLeg ((s.mapDialogInfo aLeg).map k)) (x : Leg) :
    s'.recordOf x = s.recordOf x := by
  by_cases heq : x = aLeg
  · rw [heq, Calls.recordOf, Calls.recordOf, hinfo, Function.update_self, Option.bind_map]
    exact congrArg (Option.bind _) (funext fun d => (hk d).2.2)
  · exact Calls.recordOf_congr (by rw [hinfo, Function.update_of_ne heq])

/-- The 200 for the INVITE of a call is passed on to its A leg. -/
theorem bearing_answer (h : c.calls.Typed) (hrec : c.Recorded) {aLeg : Leg} {f : CdrInfo → CdrInfo}
    {k : SipDialogInfo → SipDialogInfo} (htyped : c.calls.callType aLeg ≠ .unknown) (haLive : aLeg ∈ c.calls.legs)
    (hlegs : c'.calls.legs = c.calls.legs) (htypes : c'.calls.callType = c.calls.callType) (hk : KeepsDialog k)
    (hinfo : c'.calls.mapDialogInfo =
      Function.update c.calls.mapDialogInfo aLeg ((c.calls.mapDialogInfo aLeg).map k))
    (hanswered : ∀ x, c'.calls.answered x = (decide (aLeg = x) || c.calls.answered x))
    (hf : IsReport .originationFinalResponse 200 f)
    (hrecords : c'.records = (c.calls.recordOf aLeg).elim c.records fun p => c.records.postCopy p f) :
    Bearing True uuid c c' := by
  by_cases horig : c.calls.callType aLeg = .origination
  · have ha := Calls.status_ne_none.2 ⟨horig, haLive⟩
    have hstatus := status_of_answered htypes hlegs hanswered horig haLive
    obtain ⟨p, r, hp, hr, hkey⟩ := hrec.copy ha
    rw [hp, Option.elim_some] at hrecords
    refine .answered aLeg (f r) trivial ha hstatus (fun x _ => recordOf_of_updated hk hinfo x) (fun hruns l d hd ht => ?_)
      (hrecords ▸ Records.keepsUuids_copy _ _ _) (hrecords ▸ Records.posts_copy_of hr f) ⟨hf.type r, ?_⟩ ?_
    · rw [hstatus, Function.update_apply]
      split_ifs with heq
      · rfl
      · rw [hinfo, Function.update_of_ne heq] at hd
        exact hruns l d hd ht
    · rw [hf.sipStatus]
      rfl
    · rw [hkey, hf.uuid]
  · -- The A leg of a termination call has no record.
    have hnone := h.info_eq_none htyped horig
    rw [hnone, Option.map_none, Function.update_eq_self_iff.2 hnone.symm] at hinfo
    rw [Calls.recordOf, hnone] at hrecords
    refine .of_records trivial (.of_tables hlegs htypes hinfo fun x hx => ?_) hrecords
    have hne : aLeg ≠ x := by
      rintro rfl
      exact horig hx
    rw [hanswered, decide_eq_false hne, Bool.false_or]

/-- The INVITE of an origination call is answered or refused. -/
theorem bearing_originationResponse (h : c.calls.Typed) (hl : c.calls.Logged) (hrec : c.Recorded) {sip : Response}
    {nta : Creations} (hreached : c.Reached orq)
    (hinvite : ∃ o ∈ c.calls.outgoing orq, o.callback = .responseToInvite) (ht : c.attemptOf orq = none)
    (hfinal : 200 ≤ sip.status) (hint : sip.status < UInt32.size)
    (hc' : c' = c.processInviteResponse (c.calls.getAssociatedIncoming orq) orq
      (c.calls.legFromIncoming (c.calls.getAssociatedIncoming orq)) (c.calls.legFromOutgoing orq) sip nta)
    (hx : Calls.Extends c.calls c'.calls) (hcrash : ¬c'.Crashed) : Bearing True uuid c c' := by
  obtain ⟨hpair, ⟨o, ho, hleg⟩, hlive, hincoming, haLive⟩ := hreached.spec
  obtain ⟨o', ho', hcallback⟩ := hinvite
  obtain rfl : o = o' := Option.mem_unique ho ho'
  obtain ⟨aLeg, haLeg, hcall⟩ := h.invite _ orq hpair o ho hcallback
  rw [hleg] at hcall
  obtain ⟨reply, f, hreply, hf, hcases, hrecords⟩ := processInviteResponse_origination ht hfinal
    (c.calls.getAssociatedIncoming orq) (c.calls.legFromIncoming (c.calls.getAssociatedIncoming orq))
    (c.calls.legFromOutgoing orq) nta
  rw [← hc'] at hcases hrecords
  generalize c.calls.getAssociatedIncoming orq = irq at *
  obtain rfl : aLeg = c.calls.legFromIncoming irq := Option.mem_unique haLeg hincoming
  generalize c.calls.legFromIncoming irq = aLeg at *
  generalize c.calls.legFromOutgoing orq = bLeg at *
  have hlt := h.pairs_lt _ _ hpair
  have hinvite : c.calls.isInvite orq = true := by
    rw [Calls.isInvite, show c.calls.outgoing orq = some o from ho]
    exact decide_eq_true hcallback
  rcases hcases with ⟨hok, k, hk, hcalls⟩ | ⟨hne, hcalls⟩
  · have hlog : c'.calls.log = [.replied irq orq reply, .sent bLeg .ack] ++ c.calls.log := by rw [hcalls]; rfl
    refine bearing_answer h hrec hcall.typed haLive (by rw [hcalls]; rfl) (by rw [hcalls]; rfl) hk (by rw [hcalls]; rfl)
      (fun x => ?_) (hok ▸ hf) hrecords
    rw [hl.answered_eq hx hlog]
    simp [Calls.answers, hx.isInvite orq hlt.2, hx.incoming irq hlt.1, hinvite, hincoming, hreply, hok]
  · have hintact := intact_of_not_crashed hcrash
    rw [hcalls] at hintact
    obtain ⟨x, y, hxy, hside, hends, hsteady⟩ := h.ends_clearDialog (h.settle irq orq reply []) rfl rfl rfl
      (fun _ _ => rfl) hintact hcall.other.2 (congrArg Calls.legs hcalls)
      ((congrArg Calls.callType hcalls).trans (Calls.clearDialog_callType _ _)) (congrArg Calls.mapDialogInfo hcalls)
      fun x _ => answered_of_reply hl hx (by rw [hcalls, Calls.clearDialog_log]; rfl)
        (fun _ _ => hreply ▸ hne) hlt.2 hlt.1
    -- The pair is that of the call.
    obtain rfl : x = aLeg := by
      rcases hside with rfl | rfl
      · exact absurd hcall.other.1 (h.dialogs _ y hxy).1
      · exact hcall.sole x hxy
    by_cases horig : c.calls.callType x = .origination
    · obtain ⟨p, r, hp, hr, hkey⟩ := hrec.copy (Calls.status_ne_none.2 ⟨horig, haLive⟩)
      rw [hp, Option.elim_some] at hrecords
      refine .ended x (f r) trivial (hends horig) (hrecords ▸ Records.keepsUuids_copy _ _ _)
        (hrecords ▸ Records.posts_copy_of hr f) (.inl ⟨hf.type r, ?_⟩) ?_
      · rw [hf.sipStatus, Ne, ofInt_eq_200 (by omega) hint]
        exact hne
      · rw [hkey, hf.uuid]
    · rw [Calls.recordOf, h.info_eq_none hcall.typed horig] at hrecords
      exact .of_records trivial (hsteady horig) hrecords

theorem bearing_inviteResponse (h : c.calls.Typed) (hl : c.calls.Logged) (hrec : c.Recorded) {sip : Response}
    {nta : Creations} (hinvite : ∃ o ∈ c.calls.outgoing orq, o.callback = .responseToInvite)
    (hint : sip.status < UInt32.size)
    (hx : Calls.Extends c.calls (c.processInviteResponseInsideDialog orq sip nta).calls)
    (hcrash : ¬(c.processInviteResponseInsideDialog orq sip nta).Crashed) :
    Bearing True uuid c (c.processInviteResponseInsideDialog orq sip nta) := by
  by_cases hreached : c.Reached orq
  · rw [inviteResponse_of_reached hreached] at hx hcrash ⊢
    obtain ⟨hpair, -⟩ := hreached.spec
    have hlt := h.pairs_lt _ _ hpair
    by_cases hfinal : 200 ≤ sip.status
    · cases ht : c.attemptOf orq with
      | none => exact bearing_originationResponse h hl hrec hreached hinvite ht hfinal hint rfl hx hcrash
      | some t =>
        exact (processInviteResponse_outcome h.next_pos ht hfinal _ _ _ nta).bearing h hl hx hreached hinvite ht hcrash
    · -- A provisional response is no answer.
      obtain ⟨hcalls | ⟨reply, hreply, hcalls⟩, hrecords⟩ := processInviteResponse_provisional (not_le.1 hfinal) c
        (c.calls.getAssociatedIncoming orq) orq (c.calls.legFromIncoming (c.calls.getAssociatedIncoming orq))
        (c.calls.legFromOutgoing orq) nta
      · refine .of_records trivial ?_ hrecords
        rw [hcalls]
        exact .of_tables rfl rfl rfl fun _ _ => rfl
      · refine .of_records trivial ?_ hrecords
        refine .of_tables (by rw [hcalls]; rfl) (by rw [hcalls]; rfl) (by rw [hcalls]; rfl) fun x _ => ?_
        refine answered_of_reply hl hx (by rw [hcalls]; rfl) (fun _ _ heq => hfinal ?_) hlt.2 hlt.1
        rw [← hreply, heq]
  · obtain ⟨a, heq⟩ := inviteResponse_of_not_reached hreached sip nta
    rw [heq]
    exact .of_records trivial (.of_tables rfl rfl rfl fun _ _ => rfl) rfl

/-- A CANCEL, of a call that is still there or of one that is not. -/
theorem bearing_cancel (h : c.calls.Typed) (hr : c.calls.RelayInv) (hl : c.calls.Logged) (hrec : c.Recorded)
    (hopen : ∃ i ∈ c.calls.incoming irq, i.bound = true ∧ i.destroyed = 0)
    (hx : Calls.Extends c.calls (c.processCancel irq).calls) (hcrash : ¬(c.processCancel irq).Crashed) :
    Bearing True uuid c (c.processCancel irq) := by
  obtain ⟨i, hi, hbound, hdestroyed⟩ := hopen
  have hintact := intact_of_not_crashed hcrash
  rcases processCancel_cases hcrash with ⟨-, hrecords, heq | ⟨hnull, -, -⟩⟩ | ⟨hnull, hleg, heq, hrecords⟩
  · have hanswered := answered_of_log hl hx [.cancelled irq] (by rw [heq]; rfl) (by simp)
    refine .of_records trivial ?_ hrecords
    exact .of_tables (by rw [heq]; rfl) (by rw [heq]; rfl) (by rw [heq]; rfl) fun x _ => hanswered x
  · -- The request is bound, so that it is paired.
    obtain ⟨orq, horq, hpair⟩ := h.bound irq i hi hbound hdestroyed
    refine absurd ?_ horq
    rw [← hnull, Calls.getAssociatedOutgoing, Bimap.left?_eq_some_iff.2 hpair]
    rfl
  · have hpair := mem_of_getAssociatedOutgoing hnull
    obtain ⟨hincoming, hlive⟩ := legFromIncoming_spec hleg
    have hanswered := answered_of_log hl hx [.cancelled irq] (by rw [heq]; exact Calls.clearDialog_log _ _) (by simp)
    generalize c.calls.getAssociatedOutgoing irq = orq at *
    generalize c.calls.legFromIncoming irq = leg at *
    -- It is the INVITE of a call, and the leg is its A leg.
    obtain ⟨o, ho⟩ := Option.ne_none_iff_exists'.1 (hl.pending irq orq hpair hnull)
    have hcallback := ((hr.pairs irq orq hpair).2 hnull).bound i hi hbound o ho
    obtain ⟨a, ha, hcall⟩ := h.invite irq orq hpair o ho hcallback
    obtain rfl : leg = a := Option.mem_unique hincoming ha
    rw [heq] at hintact
    obtain ⟨x, y, hxy, hside, hends, hsteady⟩ := h.ends_clearDialog
      (((h.record_event _).destroyOutgoing orq).clearTransaction orq) rfl rfl rfl (fun _ _ => rfl) hintact hleg
      (by rw [heq]; rfl) (by rw [heq]; exact Calls.clearDialog_callType _ _) (by rw [heq]; rfl) fun x _ => hanswered x
    obtain rfl : leg = x := by
      rcases hside with rfl | rfl
      · rfl
      · exact absurd (h.dialogs x leg hxy).2.1 hcall.typed
    -- An origination call has its record, a termination call has none here.
    have horig : c.calls.mapDialogInfo leg = none → c.calls.callType leg ≠ .origination := by
      intro hnone horig
      refine h.record leg horig hlive ?_
      rw [Calls.recordOf, hnone]
      rfl
    cases hrecords with
    | origination p f hp hf hrecords =>
      obtain ⟨d, hd, -⟩ := Option.bind_eq_some_iff.1 hp
      have htype := h.origination_of_info hd hcall.typed
      obtain ⟨p', r, hp', hr', hkey⟩ := hrec.copy (Calls.status_ne_none.2 ⟨htype, hlive⟩)
      obtain rfl : p = p' := Option.some_inj.1 (hp.symm.trans hp')
      refine .ended leg (f r) trivial (hends htype) ?_ (hrecords ▸ Records.posts_update_of hr' f)
        (.inr (.inl (hf.type r))) ?_
      · exact hrecords ▸ (Records.keepsUuids_update hf.uuid).trans (.of_eq rfl)
      · rw [hkey, hf.uuid]
    | termination t a f hinfo ht hf hrecords =>
      refine .steady _ trivial (hsteady (horig hinfo)) (hrecords ▸ Records.keepsUuids_copy _ _ _)
        (hrecords ▸ Records.posts_copy _ _ _) fun r hr' => ?_
      obtain ⟨cdr, -, rfl⟩ := Option.map_eq_some_iff.1 (Option.mem_toList.1 hr')
      exact hf.type cdr
    | unreported hinfo ht hrecords => exact .of_records trivial (hsteady (horig hinfo)) hrecords

/-- The dialog of an origination call that a leg has. -/
theorem filter_mapDialogInfo (h : c.calls.Typed) (l : Leg) : (c.calls.mapDialogInfo l).filter (·.bOrigination) =
    if c.calls.callType l = .origination then c.calls.mapDialogInfo l else none := by
  cases hd : c.calls.mapDialogInfo l with
  | none => rw [Option.filter_none, ite_self]
  | some d =>
    have htype := (h.info l d hd).2
    rw [Option.filter_some]
    split_ifs at htype with horig
    · rw [if_pos horig, if_pos htype]
    · rw [if_neg horig, if_neg (htype ▸ CallType.noConfusion)]

/-- A BYE asks the leg that it is on first, and then the other one. -/
theorem byeCdr_eq (c : Controller) (leg other : Leg) : c.byeCdr leg other =
    (((c.calls.mapDialogInfo leg).filter (·.bOrigination)).map fun d => (d, true)).or
      (((c.calls.mapDialogInfo other).filter (·.bOrigination)).map fun d => (d, false)) := by
  unfold byeCdr
  cases c.calls.mapDialogInfo leg with
  | none => rfl
  | some d =>
    dsimp only
    rw [Option.filter_some]
    split_ifs <;> rfl

/-- A BYE is about the record of the origination call that the leg is of. -/
theorem byeCdr_of_typed (h : c.calls.Typed) {a b leg other : Leg} (hab : (a, b) ∈ c.calls.dialogs)
    (hside : leg = a ∧ other = b ∨ leg = b ∧ other = a) :
    (c.calls.callType a = .origination →
        ∃ released, c.byeCdr leg other = (c.calls.mapDialogInfo a).map fun d => (d, released)) ∧
      (c.calls.callType a ≠ .origination → c.byeCdr leg other = none) := by
  have hb : c.calls.callType b ≠ .origination := by
    rw [(h.dialogs a b hab).2.1]
    exact CallType.noConfusion
  rw [byeCdr_eq, filter_mapDialogInfo h, filter_mapDialogInfo h]
  rcases hside with ⟨rfl, rfl⟩ | ⟨rfl, rfl⟩ <;> rw [if_neg hb]
  · refine ⟨fun ha => ⟨true, ?_⟩, fun ha => ?_⟩
    · rw [if_pos ha]
      exact Option.or_none
    · rw [if_neg ha]
      rfl
  · refine ⟨fun ha => ⟨false, ?_⟩, fun ha => ?_⟩
    · rw [if_pos ha]
      exact Option.none_or
    · rw [if_neg ha]
      rfl

/-- What `getAssociatedDialog` gives is the other side of the pair. -/
theorem sides_of_typed (h : c.calls.Typed) {a b leg other : Leg} (hab : (a, b) ∈ c.calls.dialogs)
    (hget : c.calls.getAssociatedDialog leg = some other) (hside : leg = a ∨ leg = b) :
    leg = a ∧ other = b ∨ leg = b ∧ other = a := by
  rcases Calls.mem_of_getAssociatedDialog hget with hmem | hmem
  · rcases hside with rfl | rfl
    · exact .inl ⟨rfl, Bimap.left_unique hmem hab⟩
    · exact absurd (h.dialogs a leg hab).2.1 (h.dialogs leg other hmem).1
  · rcases hside with rfl | rfl
    · exact absurd (h.dialogs other leg hmem).2.1 (h.dialogs leg b hab).1
    · exact .inr ⟨rfl, Bimap.right_unique hmem hab⟩

theorem bearing_requestInsideDialog (h : c.calls.Typed) (hl : c.calls.Logged) (hrec : c.Recorded) {leg : Leg}
    {sip : Request} {nta : Creations} (hleg : leg ∈ c.calls.legs)
    (hx : Calls.Extends c.calls (c.requestInsideDialog leg sip nta).calls)
    (hcrash : ¬(c.requestInsideDialog leg sip nta).Crashed) :
    Bearing True uuid c (c.requestInsideDialog leg sip nta) := by
  have hnull : leg ≠ .null := by
    rintro rfl
    exact lt_irrefl _ (h.legs_lt _ hleg).1
  have hintact := intact_of_not_crashed hcrash
  obtain ⟨other, u, hget, hu, hcases⟩ := requestInsideDialog_cases hcrash
  generalize c.requestInsideDialog leg sip nta = c' at *
  rcases hcases with ⟨-, ⟨i, status, n, hn, -, -, hcalls⟩, hrecords⟩ | ⟨-, hcalls, hrecords⟩
  · -- A BYE.
    generalize hv : (if other = .null then u else u.record (.sent other .bye)) = v at *
    have hvTyped : v.Typed := by
      subst hv
      split_ifs
      · exact typed_asserted h (hu.imp_right fun hu => ⟨_, hu⟩)
      · exact (typed_asserted h (hu.imp_right fun hu => ⟨_, hu⟩)).record_event _
    have hvFrame : v.dialogs = c.calls.dialogs ∧ v.legs = c.calls.legs ∧ v.callType = c.calls.callType ∧
        v.mapDialogInfo = c.calls.mapDialogInfo ∧
        ∃ new, v.log = new ++ c.calls.log ∧ ∀ e ∈ new, ∀ irq orq reply, e ≠ .replied irq orq reply := by
      subst hv
      rcases hu with rfl | rfl <;> split_ifs
      · exact ⟨rfl, rfl, rfl, rfl, [], rfl, by simp⟩
      · exact ⟨rfl, rfl, rfl, rfl, [_], rfl, by simp⟩
      · exact ⟨rfl, rfl, rfl, rfl, [], rfl, by simp⟩
      · exact ⟨rfl, rfl, rfl, rfl, [_], rfl, by simp⟩
    obtain ⟨hdialogs, hlegs, htypes, hinfo, new, hlog, hnew⟩ := hvFrame
    have hanswered := answered_of_log hl hx ((status.map (.returned ⟨(v.clearDialog leg).next⟩)).toList ++ new)
      (by rw [hcalls, List.append_assoc, ← hlog, ← Calls.clearDialog_log v leg]; rfl)
      (by simpa [or_imp, forall_and] using hnew)
    rw [hcalls] at hintact
    obtain ⟨a, b, hab, hside, hends, hsteady⟩ := h.ends_clearDialog hvTyped hdialogs hlegs htypes
      (fun l _ => congrFun hinfo l) hintact hnull (by rw [hcalls]; rfl)
      (by rw [hcalls]; exact Calls.clearDialog_callType _ _) (by rw [hcalls]; rfl) fun x _ => hanswered x
    obtain ⟨horig, hother⟩ := byeCdr_of_typed h hab (sides_of_typed h hab hget hside)
    by_cases ha : c.calls.callType a = .origination
    · obtain ⟨p, r, hp, hr, hkey⟩ := hrec.copy (Calls.status_ne_none.2 ⟨ha, (h.live a ha).2 ⟨b, hab⟩⟩)
      obtain ⟨d, hd, hp⟩ := Option.bind_eq_some_iff.1 hp
      obtain ⟨released, hbye⟩ := horig ha
      rw [hd] at hbye
      cases hrecords with
      | unreported hbye' hrecords =>
        -- Both sides are there.
        rcases hbye' with rfl | hbye'
        · rcases sides_of_typed h hab hget hside with ⟨-, heq⟩ | ⟨-, heq⟩
          · exact absurd heq.symm (h.dialogs a b hab).2.2.1
          · exact absurd (heq ▸ ha) h.type_null
        · rw [hbye] at hbye'
          cases hbye'
      | reported d' released' p' f _ hbye' hp' hf hrecords =>
        obtain ⟨rfl, -⟩ := Prod.mk.inj (Option.some_inj.1 (hbye.symm.trans hbye'))
        obtain rfl : p = p' := Option.some_inj.1 (hp.symm.trans hp')
        refine .ended a (f r) trivial (hends ha) ?_ (hrecords ▸ Records.posts_update_of hr f)
          (.inr (.inr (hf.type r))) ?_
        · exact hrecords ▸ (Records.keepsUuids_update hf.uuid).trans (.of_eq rfl)
        · rw [hkey, hf.uuid]
    · refine .of_records trivial (hsteady ha) ?_
      cases hrecords with
      | unreported _ hrecords => exact hrecords
      | reported d released p f _ hbye _ _ _ =>
        rw [hother ha] at hbye
        cases hbye
  · -- Another request is refused or sent on.
    have huFrame : u.legs = c.calls.legs ∧ u.callType = c.calls.callType ∧ u.mapDialogInfo = c.calls.mapDialogInfo ∧
        u.log = c.calls.log := by
      rcases hu with rfl | rfl <;> exact ⟨rfl, rfl, rfl, rfl⟩
    obtain ⟨hlegs, htypes, hinfo, hlog⟩ := huFrame
    refine .of_records trivial ?_ hrecords
    rcases hcalls with ⟨i, status, n, -, -, -, hcalls⟩ | ⟨orq, request, n, -, -, hcalls⟩
    · have hanswered := answered_of_log hl hx _ (by rw [hcalls, ← hlog]; rfl) (by simp)
      exact .of_tables (by rw [hcalls]; exact hlegs) (by rw [hcalls]; exact htypes) (by rw [hcalls]; exact hinfo)
        fun x _ => hanswered x
    · have hanswered : ∀ x, c'.calls.answered x = c.calls.answered x := by
        by_cases horq : orq = .null
        · exact answered_of_log hl hx [] (by rw [hcalls]; exact (if_pos horq).trans hlog) (by simp)
        · refine answered_of_log hl hx [.created ⟨u.next⟩ orq] ?_ (by simp)
          rw [hcalls, ← hlog]
          exact if_neg horq
      exact .of_tables (by rw [hcalls]; exact hlegs) (by rw [hcalls]; exact htypes) (by rw [hcalls]; exact hinfo)
        fun x _ => hanswered x

theorem bearing_responseInsideDialog (hl : c.calls.Logged) (h : c.calls.Typed) {sip : Response}
    (horq : ∃ o ∈ c.calls.outgoing orq, o.callback = .responseToRequestInsideDialog)
    (hx : Calls.Extends c.calls (c.processResponseInsideDialog orq sip).calls) :
    Bearing True uuid c (c.processResponseInsideDialog orq sip) := by
  -- It is not the INVITE of a call.
  have hinvite : c.calls.isInvite orq = false := by
    obtain ⟨o, ho, hcallback⟩ := horq
    rw [Calls.isInvite, show c.calls.outgoing orq = some o from ho, Option.any_some, hcallback]
    rfl
  obtain ⟨hrecords, ⟨a, hcalls⟩ | ⟨hirq, u, reply, hu, hcalls⟩⟩ := c.responseInsideDialog_cases orq sip
  · refine .of_records trivial ?_ hrecords
    rw [hcalls]
    exact .of_tables rfl rfl rfl fun _ _ => rfl
  · have hlt := h.pairs_lt _ _ (mem_of_getAssociatedIncoming hirq)
    generalize c.calls.getAssociatedIncoming orq = irq at *
    have huFrame : u.legs = c.calls.legs ∧ u.callType = c.calls.callType ∧ u.mapDialogInfo = c.calls.mapDialogInfo ∧
        u.log = c.calls.log := by
      rcases hu with rfl | ⟨a, rfl⟩ <;> exact ⟨rfl, rfl, rfl, rfl⟩
    obtain ⟨hlegs, htypes, hinfo, hlog⟩ := huFrame
    have hanswered : ∀ acks : List Leg, (c.processResponseInsideDialog orq sip).calls.log =
        (acks.map (.sent · .ack) ++ [.replied irq orq reply]) ++ c.calls.log →
        ∀ x, (c.processResponseInsideDialog orq sip).calls.answered x = c.calls.answered x := by
      intro acks hlog x
      rw [hl.answered_eq hx hlog, Bool.or_eq_right_iff_imp, List.any_append, List.any_map]
      simp [Calls.answers, hx.isInvite orq hlt.2, hinvite, Function.comp_def]
    refine .of_records trivial ?_ hrecords
    rcases hcalls with hcalls | ⟨acks, hcalls⟩
    · refine .of_tables (by rw [hcalls]; exact hlegs) (by rw [hcalls]; exact htypes) (by rw [hcalls]; exact hinfo)
        fun x _ => hanswered [] (by rw [hcalls, ← hlog]; rfl) x
    · refine .of_tables (by rw [hcalls]; exact hlegs) (by rw [hcalls]; exact htypes) (by rw [hcalls]; exact hinfo)
        fun x _ => hanswered acks ?_ x
      rw [hcalls, ← hlog, List.append_assoc]
      rfl

/-- The session timer expires: the call is gone, and no record tells of it. -/
theorem bearing_sessionRefreshTimer (h : c.calls.Typed) (hl : c.calls.Logged) (hruns : c.calls.TimersRun) {leg : Leg}
    (hleg : ∃ d ∈ c.calls.mapDialogInfo leg, d.timerSessionRefresh ≠ none)
    (hx : Calls.Extends c.calls (c.processSessionRefreshTimer leg).calls)
    (hcrash : ¬(c.processSessionRefreshTimer leg).Crashed) (htold : ¬Told) :
    Bearing Told uuid c (c.processSessionRefreshTimer leg) := by
  obtain ⟨d, hd, ht⟩ := hleg
  have hstatus := hruns leg d hd ht
  obtain ⟨⟨horig, -⟩, -⟩ := Calls.status_eq_some_true.1 hstatus
  have hnull : leg ≠ .null := by
    rintro rfl
    exact h.type_null horig
  have hintact := intact_of_not_crashed hcrash
  obtain ⟨hrecords, other, u, -, hu, hcalls⟩ :=
    sessionRefreshTimer_cases (Option.ne_none_iff_exists'.2 ⟨d, hd⟩) hcrash
  have hk : KeepsDialog fun d => { d with timerSessionRefresh := none } := fun _ => ⟨rfl, rfl, rfl⟩
  have huTyped := (typed_asserted h hu).updateDialogInfo hk leg
  have huFrame : u.dialogs = c.calls.dialogs ∧ u.legs = c.calls.legs ∧ u.callType = c.calls.callType ∧
      u.mapDialogInfo = c.calls.mapDialogInfo ∧ u.log = c.calls.log := by
    rcases hu with rfl | ⟨a, rfl⟩ <;> exact ⟨rfl, rfl, rfl, rfl, rfl⟩
  obtain ⟨hdialogs, hlegs, htypes, hinfo, hlog⟩ := huFrame
  have hanswered := answered_of_log hl hx [] (by rw [hcalls, Calls.clearDialog_log]; exact hlog) (by simp)
  rw [hcalls] at hintact
  obtain ⟨a, b, hab, hside, hends, -⟩ := h.ends_clearDialog huTyped hdialogs hlegs htypes
    (fun l hne => (Function.update_of_ne hne _ _).trans (congrFun hinfo l)) hintact hnull (by rw [hcalls])
    (by rw [hcalls]; exact Calls.clearDialog_callType _ _) (by rw [hcalls]) fun x _ => hanswered x
  obtain rfl : leg = a := by
    rcases hside with rfl | rfl
    · rfl
    · rw [(h.dialogs a leg hab).2.1] at horig
      cases horig
  exact .dropped leg htold (hends horig) hstatus hrecords

/-- **What the events do to the origination calls.** -/
theorem bearing_next (h : c.calls.Typed) (hr : c.calls.RelayInv) (hl : c.calls.Logged) (hrec : c.Recorded)
    (hruns : c.calls.TimersRun) {e : ControllerEvent} (he : machine.enabled c e)
    (hint : ∀ orq sip nta, e = .inviteResponse orq sip nta → sip.status < UInt32.size)
    (hwrite : ∀ connected, e ≠ .writeCdr connected) (hx : Calls.Extends c.calls (c.next e).calls) :
    Bearing (∀ leg, e ≠ .sessionRefreshTimer leg) e.uuid c (c.next e) := by
  obtain ⟨hpossible, hcrash⟩ := he
  -- What is no timer tells of all that happens.
  have htold : (∀ leg, e ≠ .sessionRefreshTimer leg) → ∀ {c' : Controller}, Bearing True e.uuid c c' →
      Bearing (∀ leg, e ≠ .sessionRefreshTimer leg) e.uuid c c' := by
    intro hne c' hbearing
    rwa [eq_true hne]
  cases e with
  | requestOutsideDialog sip uuid nta =>
    exact htold (fun _ => ControllerEvent.noConfusion) (bearing_requestOutsideDialog h hl sip uuid nta hx)
  | inviteResponse orq sip nta =>
    obtain ⟨o, ho, hcallback, -⟩ := hpossible
    exact htold (fun _ => ControllerEvent.noConfusion)
      (bearing_inviteResponse h hl hrec ⟨o, ho, hcallback⟩ (hint orq sip nta rfl) hx hcrash)
  | ackOrCancel irq method =>
    refine htold (fun _ => ControllerEvent.noConfusion) ?_
    change Bearing True none c (c.processAckOrCancel irq method)
    change ¬(c.processAckOrCancel irq method).Crashed at hcrash
    change Calls.Extends c.calls (c.processAckOrCancel irq method).calls at hx
    unfold processAckOrCancel at hcrash hx ⊢
    split_ifs at hcrash hx ⊢
    · exact bearing_cancel h hr hl hrec hpossible hx hcrash
    · exact .of_records trivial (.of_tables rfl rfl rfl fun _ _ => rfl) rfl
  | requestInsideDialog leg sip nta =>
    exact htold (fun _ => ControllerEvent.noConfusion) (bearing_requestInsideDialog h hl hrec hpossible hx hcrash)
  | responseInsideDialog orq sip =>
    obtain ⟨o, ho, hcallback, -⟩ := hpossible
    exact htold (fun _ => ControllerEvent.noConfusion) (bearing_responseInsideDialog hl h ⟨o, ho, hcallback⟩ hx)
  | sessionRefreshTimer leg =>
    exact bearing_sessionRefreshTimer h hl hruns hpossible hx hcrash fun hne => hne leg rfl
  | retransmittedResponse leg sip =>
    refine htold (fun _ => ControllerEvent.noConfusion) ?_
    obtain ⟨hrecords, hcalls | hcalls⟩ := c.retransmittedResponse_cases leg sip
    · refine .of_records trivial ?_ hrecords
      exact .of_tables (congrArg Calls.legs hcalls) (congrArg Calls.callType hcalls)
        (congrArg Calls.mapDialogInfo hcalls) fun x _ => congrArg (Calls.answered · x) hcalls
    · have hanswered := answered_of_log hl hx [.sent leg .ack] (congrArg Calls.log hcalls) (by simp)
      have hlegs := congrArg Calls.legs hcalls
      have htypes := congrArg Calls.callType hcalls
      have hinfo := congrArg Calls.mapDialogInfo hcalls
      exact .of_records trivial (.of_tables hlegs htypes hinfo fun x _ => hanswered x) hrecords
  | writeCdr connected => exact absurd rfl (hwrite connected)
  | clock now | monitor fsMonitor | resetTrunkStats =>
    refine htold (fun _ => ControllerEvent.noConfusion) (.of_records trivial ?_ rfl)
    exact .of_tables rfl rfl rfl fun _ _ => rfl

end

end Controller

/-- The controller, with what the writer took from its queue. -/
structure Bookkeeping where
  controller : Controller
  taken : List CdrInfo := []

namespace Bookkeeping

/-- All records that were posted, in the order they were. -/
def posted (x : Bookkeeping) : List CdrInfo := x.taken ++ x.controller.queued

/-- The rows once all of them are written, as they were when they were posted. -/
def rows (x : Bookkeeping) : List CdrSession := x.posted.foldl CdrInfo.write []

/-- The database and the controller have the same number of standing calls. -/
def Agrees (x : Bookkeeping) : Prop :=
  x.rows.countP CdrSession.standing = x.controller.calls.standingCalls

instance (x : Bookkeeping) : Decidable x.Agrees := inferInstanceAs (Decidable (_ = _))

def next (x : Bookkeeping) (e : ControllerEvent) : Bookkeeping where
  controller := x.controller.next e
  taken := x.taken ++ x.controller.takes e

/-- A UUID that is generated is new, and a status is an `int`. -/
def Sound (x : Bookkeeping) : ControllerEvent → Prop
  | .requestOutsideDialog _ uuid _ => ∀ row ∈ x.rows, row.sessionUuid ≠ .string uuid
  | .inviteResponse _ sip _ => sip.status < UInt32.size
  | _ => True

/-- The runs with a writer. -/
def machine : Machine Bookkeeping ControllerEvent where
  init := { x | x.controller.Initial ∧ x.controller.cdrWriter ≠ none ∧ x.taken = [] }
  enabled x e := Controller.machine.enabled x.controller e ∧ x.Sound e
  next := next

/-- The origination calls and the rows about them. -/
noncomputable def ledger (x : Bookkeeping) : Ledger Leg SqlValue where
  status := x.controller.calls.status
  key := x.controller.uuidOf
  entries := x.rows.map CdrSession.entry

/-- What holds in every run. -/
structure Inv (x : Bookkeeping) : Prop where
  typed : x.controller.calls.Typed
  relay : x.controller.calls.RelayInv
  logged : x.controller.calls.Logged
  timers : x.controller.calls.TimersRun
  writer : x.controller.records.posted ≠ none
  ledger : x.ledger.Valid

section

variable {x : Bookkeeping} {e : ControllerEvent}

/-- Every origination call has its record, since it has a UUID. -/
theorem Inv.recorded (h : x.Inv) : x.controller.Recorded := by
  intro a ha
  obtain ⟨b, hb⟩ := Option.ne_none_iff_exists'.1 ha
  obtain ⟨k, hk, -⟩ := h.ledger.entry a b hb
  obtain ⟨r, hr, -⟩ := Option.map_eq_some_iff.1 hk
  obtain ⟨p, hp, hr⟩ := Option.bind_eq_some_iff.1 hr
  exact ⟨p, r, hp, hr⟩

/-- **The numbers agree exactly if the ledger is right.** -/
theorem Inv.agrees_iff_right (h : x.Inv) : x.Agrees ↔ x.ledger.Right := by
  have hcount : x.ledger.entries.countP Entry.standing = x.rows.countP CdrSession.standing := by
    change (x.rows.map CdrSession.entry).countP _ = _
    rw [List.countP_map]
    exact List.countP_congr fun row _ => by rw [Function.comp_apply, CdrSession.standing_entry]
  rw [Agrees, h.typed.standingCalls_eq, ← hcount]
  refine (h.ledger.right_iff_count (h.typed.legs_nodup.filter _) fun a => ?_).symm
  rw [List.mem_filter, decide_eq_true_iff]
  refine and_iff_right_of_imp fun ha => ?_
  exact (Calls.status_ne_none.1 (ha ▸ Option.some_ne_none true)).2

/-- The rows after an event. -/
theorem rows_next (h : x.Inv) {new : List CdrInfo} (hwrite : ∀ connected, e ≠ .writeCdr connected)
    (hposts : Records.Posts x.controller.records (x.controller.next e).records new) :
    (x.next e).rows = new.foldl CdrInfo.write x.rows := by
  change ((x.taken ++ x.controller.takes e) ++ (x.controller.next e).queued).foldl _ _ =
    new.foldl _ ((x.taken ++ x.controller.queued).foldl _ _)
  rw [Controller.takes_of_ne hwrite, (Controller.queued_of_posts h.writer hposts).2, List.append_nil,
    ← List.append_assoc, List.foldl_append]

/-- What the writer takes is only moved. -/
theorem rows_writeCdr (x : Bookkeeping) (connected : Bool) : (x.next (.writeCdr connected)).rows = x.rows := by
  change ((x.taken ++ x.controller.takes _) ++ (x.controller.next _).queued).foldl _ _ = _
  rw [List.append_assoc, Controller.takes_append_queued]
  rfl

/-- A call that goes on keeps its UUID. -/
theorem Inv.uuidOf_next (h : x.Inv) {c' : Controller} {a : Leg} (ha : x.controller.calls.status a ≠ none)
    (hrecord : c'.calls.recordOf a = x.controller.calls.recordOf a)
    (huuids : Records.KeepsUuids x.controller.records c'.records) : c'.uuidOf a = x.controller.uuidOf a := by
  obtain ⟨p, r, hp, hr, hkey⟩ := h.recorded.copy ha
  obtain ⟨r', hr', huuid⟩ := huuids p r hr
  rw [hkey, Controller.uuidOf, hrecord, hp, Option.bind_some, hr']
  exact congrArg (fun uuid => some (SqlValue.string uuid)) huuid

/-- A UUID that is generated is in no row. -/
theorem entries_ne (hsound : x.Sound e) {uuid : Bytes} (huuid : e.uuid = some uuid) :
    (∀ row ∈ x.rows, row.sessionUuid ≠ .string uuid) ∧ ∀ e' ∈ x.ledger.entries, e'.key ≠ .string uuid := by
  have hrows : ∀ row ∈ x.rows, row.sessionUuid ≠ .string uuid := by
    cases e with
    | requestOutsideDialog sip uuid' nta =>
      obtain rfl : uuid' = uuid := Option.some_inj.1 huuid
      exact hsound
    | _ => cases huuid
  refine ⟨hrows, fun e' he' => ?_⟩
  obtain ⟨row, hrow, rfl⟩ := List.mem_map.1 he'
  exact hrows row hrow

/-- **Every event is a step of the ledger.** -/
theorem Inv.step (h : x.Inv) {Told : Prop} (hwrite : ∀ connected, e ≠ .writeCdr connected) (hsound : x.Sound e)
    (hbearing : Controller.Bearing Told e.uuid x.controller (x.controller.next e)) :
    Ledger.Step Told x.ledger (x.next e).ledger := by
  -- The rows change as the one record says that is posted.
  have hentries : ∀ {r : CdrInfo}, Records.Posts x.controller.records (x.controller.next e).records [r] →
      (x.next e).ledger.entries = (r.write x.rows).map CdrSession.entry := fun hposts =>
    congrArg (List.map CdrSession.entry) (rows_next h hwrite hposts)
  cases hbearing with
  | steady new htold hsteady huuids hposts hnew =>
    refine .same htold hsteady.status (fun a ha _ => h.uuidOf_next ha (hsteady.recordOf a ha) huuids) ?_
    change (x.next e).rows.map _ = x.rows.map _
    rw [rows_next h hwrite hposts, CdrInfo.foldl_write_terminationAttempt hnew]
  | refused r htold hsteady huuids hposts htype hr =>
    obtain ⟨hrows, hnew⟩ := entries_ne hsound hr
    refine .filed ⟨.string r.uuid, false, (CdrInfo.formatted r.tmEnd).isSome⟩ htold hnew rfl hsteady.status
      (fun a ha _ => h.uuidOf_next ha (hsteady.recordOf a ha) huuids) ?_
    exact (hentries hposts).trans (CdrInfo.write_originationRequest htype hrows)
  | opened a r htold ha hstatus hrecord htimers huuids hposts hr hkey =>
    obtain ⟨uuid, huuid, hrequest⟩ := hr
    rw [← hrequest.uuid] at huuid
    obtain ⟨hrows, hnew⟩ := entries_ne hsound huuid
    refine .began a _ htold hnew ha hstatus hkey (fun a ha _ => h.uuidOf_next ha (hrecord a ha) huuids) ?_
    rw [hentries hposts, CdrInfo.write_originationRequest hrequest.type hrows, hrequest.tmEnd]
    rfl
  | answered a r htold ha hstatus hrecord htimers huuids hposts hr hkey =>
    refine .started a _ htold ha hkey hstatus (fun a ha _ => h.uuidOf_next ha (hrecord a ha) huuids) ?_
    exact (hentries hposts).trans (CdrInfo.write_answer hr.1 hr.2)
  | ended a r htold hends huuids hposts hr hkey =>
    have hkeeps : x.ledger.Keeps (x.next e).ledger := by
      intro b hb hb'
      refine h.uuidOf_next hb (hends.recordOf b ?_ hb) huuids
      rintro rfl
      exact hb' hends.none
    rcases hr with ⟨htype, hstatus⟩ | htype
    · exact .ended a _ (fun e => { e with started := false, ended := true }) htold hends.was hkey
        (fun _ => ⟨rfl, rfl⟩) hends.status hkeeps ((hentries hposts).trans (CdrInfo.write_failure htype hstatus))
    · exact .ended a _ (fun e => { e with ended := true }) htold hends.was hkey (fun _ => ⟨rfl, rfl⟩)
        hends.status hkeeps ((hentries hposts).trans (CdrInfo.write_end htype))
  | dropped a htold hends ha hrecords =>
    have hposts := Records.posts_nil (congrArg Records.posted hrecords)
    refine .dropped a htold ha hends.status (fun b hb hb' => ?_)
      (congrArg (List.map CdrSession.entry) (rows_next h hwrite hposts))
    refine h.uuidOf_next hb (hends.recordOf b ?_ hb) (.of_eq (congrArg Records.cdrs hrecords))
    rintro rfl
    exact hb' hends.none

/-- What the writer does changes nothing here. -/
theorem ledger_writeCdr (x : Bookkeeping) (connected : Bool) : (x.next (.writeCdr connected)).ledger = x.ledger := by
  unfold ledger
  rw [rows_writeCdr]
  congr 1

/-! ## Runs -/

theorem Inv.step_next (h : x.Inv) (he : machine.enabled x e) :
    Ledger.Step (∀ leg, e ≠ .sessionRefreshTimer leg) x.ledger (x.next e).ledger ∧
      (x.next e).controller.calls.TimersRun ∧ (x.next e).controller.records.posted ≠ none := by
  obtain ⟨he, hsound⟩ := he
  by_cases hwrite : ∃ connected, e = .writeCdr connected
  · obtain ⟨connected, rfl⟩ := hwrite
    refine ⟨?_, h.timers, ?_⟩
    · rw [ledger_writeCdr]
      exact .same (fun _ => ControllerEvent.noConfusion) rfl (fun _ _ _ => rfl) rfl
    · change (x.controller.next (.writeCdr connected)).records.posted ≠ none
      rw [Controller.records_writeCdr]
      exact fun hnone => h.writer (Option.map_eq_none_iff.1 hnone)
  · have hwrite : ∀ connected, e ≠ .writeCdr connected := fun connected heq => hwrite ⟨connected, heq⟩
    have hint : ∀ orq sip nta, e = .inviteResponse orq sip nta → sip.status < UInt32.size := by
      rintro orq sip nta rfl
      exact hsound
    obtain ⟨hx, -⟩ := h.logged.callSteps h.relay (Controller.callSteps_next h.typed.next_pos he.1)
    have hbearing := Controller.bearing_next h.typed h.relay h.logged h.recorded h.timers he hint hwrite hx
    refine ⟨h.step hwrite hsound hbearing, ?_, ?_⟩
    · cases hbearing with
      | steady _ _ hsteady | refused _ _ hsteady => exact hsteady.timers h.timers
      | opened _ _ _ _ _ _ htimers | answered _ _ _ _ _ _ htimers => exact htimers h.timers
      | ended _ _ _ hends | dropped _ _ hends => exact hends.timers h.timers
    · cases hbearing with
      | steady _ _ _ _ hposts | refused _ _ _ _ hposts | opened _ _ _ _ _ _ _ _ hposts
      | answered _ _ _ _ _ _ _ _ hposts | ended _ _ _ _ _ hposts =>
        exact (Controller.queued_of_posts h.writer hposts).1
      | dropped _ _ _ _ hrecords =>
        change (x.controller.next e).records.posted ≠ none
        rw [hrecords]
        exact h.writer

theorem Inv.next (h : x.Inv) (he : machine.enabled x e) : (x.next e).Inv := by
  obtain ⟨hstep, htimers, hwriter⟩ := h.step_next he
  have hsteps := Controller.callSteps_next h.typed.next_pos he.1.1
  exact ⟨Controller.typed_next h.typed he.1, h.relay.callSteps hsteps, (h.logged.callSteps h.relay hsteps).2,
    htimers, hwriter, hstep.valid h.ledger⟩

theorem rows_init (hx : x ∈ machine.init) : x.rows = [] := by
  obtain ⟨hinit, -, htaken⟩ := hx
  unfold rows posted Controller.queued Controller.records
  rw [htaken]
  cases hw : x.controller.cdrWriter with
  | none => rfl
  | some w => simp [(hinit.cdrWriter w hw).1]

theorem inv_init (hx : x ∈ machine.init) : x.Inv := by
  have hrows := rows_init hx
  obtain ⟨hinit, hwriter, -⟩ := hx
  have hstatus : ∀ a, x.controller.calls.status a = none := by
    intro a
    refine Calls.status_of_not_mem ?_
    rw [hinit.calls]
    exact List.not_mem_nil
  refine ⟨hinit.calls ▸ Calls.typed_empty, hinit.calls ▸ Calls.relayInv_empty, hinit.calls ▸ Calls.logged_empty,
    ?_, ?_, ?_, ?_, ?_⟩
  · intro l d hd
    rw [hinit.calls] at hd
    cases hd
  · obtain ⟨w, hw⟩ := Option.ne_none_iff_exists'.1 hwriter
    change x.controller.cdrWriter.map _ ≠ none
    rw [hw]
    exact Option.some_ne_none _
  · change ((x.rows.map _).map _).Nodup
    rw [hrows]
    exact List.nodup_nil
  · intro a b hb
    cases (hstatus a).symm.trans hb
  · exact fun a _ ha => absurd (hstatus a) ha

/-- **The standing calls.** In a run with a writer, the database has as many standing calls as
    the controller, once all records are written, exactly as long as no session timer expires. -/
theorem agrees_iff {es : List ControllerEvent} (hrun : machine.IsRun x es) :
    machine.Always Agrees x es ↔ ∀ leg, .sessionRefreshTimer leg ∉ es := by
  have hinv := inv_init hrun.1
  have halong : machine.Along (fun _ e => ∀ leg, e ≠ .sessionRefreshTimer leg) x es ↔
      ∀ leg, .sessionRefreshTimer leg ∉ es := by
    clear hrun hinv
    induction es generalizing x with
    | nil => exact iff_of_true trivial fun _ => List.not_mem_nil
    | cons e es ih =>
      simp only [Machine.Along, ih, List.mem_cons, not_or, forall_and]
      exact and_congr_left fun _ => forall_congr' fun _ => ne_comm
  rw [← halong]
  refine Machine.always_iff_along (I := Inv) (fun x e h _ he _ => h.next he) (fun x e h hagrees he => ?_) hinv ?_ hrun.2
  · exact (h.next he).agrees_iff_right.trans
      ((h.step_next he).1.right_iff h.ledger (h.agrees_iff_right.1 hagrees))
  · refine hinv.agrees_iff_right.2 fun e he => ?_
    change e ∈ x.rows.map _ at he
    rw [rows_init hrun.1] at he
    exact absurd he List.not_mem_nil

end

/-! ## An example -/

/-- The controller of the example, with a session timer. -/
def exampleBookkeeping : Bookkeeping where
  controller := { Controller.exampleStart with nOriginationSessionTimer := 90, now := 5 }

/-- A call of the carrier, whose legs are `2` and `3`; the server answers it. -/
def exampleAnswered : List ControllerEvent :=
  [.requestOutsideDialog { Controller.exampleInvite with sipSessionExpires := true } ['u'] {},
    .inviteResponse ⟨4⟩ { status := 200, sipContact := some {}, sipPayload := some [] } {}]

theorem exampleBookkeeping_init : exampleBookkeeping ∈ machine.init := by
  refine ⟨{ Controller.exampleStart_initial with }, ?_, rfl⟩
  exact Option.some_ne_none _

/-- The server ends the call. -/
def exampleBye : ControllerEvent := .requestInsideDialog ⟨3⟩ { method := .bye } {}

/-- A call that ends with a BYE is not counted any more. -/
theorem agrees_exampleBye :
    machine.IsRun exampleBookkeeping (exampleAnswered ++ [exampleBye]) ∧
      machine.Always Agrees exampleBookkeeping (exampleAnswered ++ [exampleBye]) := by
  have hrun : machine.IsRun exampleBookkeeping (exampleAnswered ++ [exampleBye]) := by
    refine ⟨exampleBookkeeping_init, ⟨⟨trivial, by decide⟩, ?_⟩, ⟨⟨⟨_, rfl, rfl, rfl⟩, by decide⟩, ?_⟩,
      ⟨⟨?_, by decide⟩, trivial⟩, trivial⟩
    · exact fun row hrow => absurd hrow List.not_mem_nil
    · change (200 : ℤ) < UInt32.size
      decide
    · change (⟨3⟩ : Leg) ∈ _
      decide
  exact ⟨hrun, (agrees_iff hrun).2 (by simp [exampleAnswered, exampleBye])⟩

/-- A call whose session timer expires is still counted in the database. -/
theorem exampleTimer_not_agrees :
    machine.IsRun exampleBookkeeping (exampleAnswered ++ [.sessionRefreshTimer ⟨2⟩]) ∧
      ¬machine.Always Agrees exampleBookkeeping (exampleAnswered ++ [.sessionRefreshTimer ⟨2⟩]) := by
  refine ⟨⟨exampleBookkeeping_init, ⟨⟨trivial, by decide⟩, ?_⟩, ⟨⟨⟨_, rfl, rfl, rfl⟩, by decide⟩, ?_⟩,
    ⟨⟨⟨_, rfl, by decide⟩, by decide⟩, trivial⟩, trivial⟩, ?_⟩
  · exact fun row hrow => absurd hrow List.not_mem_nil
  · change (200 : ℤ) < UInt32.size
    decide
  · intro hagrees
    have hlast : (exampleAnswered ++ [ControllerEvent.sessionRefreshTimer ⟨2⟩]).foldl next exampleBookkeeping |>.Agrees :=
      hagrees.2.2.2
    exact absurd hlast (by decide)

end Bookkeeping

end Ssp
