import Ssp.Fs.Reads

/-!
# Commands and their replies

Once the handshake is done, an instance writes two commands, `api status` and `api reloadxml`,
and the server answers them in the order it gets them. A reply does not say what it is a reply
to; the instance takes it for one to `reloadxml` if `m_bReloadingXml` is set.

The connection is followed together with the commands that are still to be answered
(`Exchange`). `matched_iff` says that every reply is taken for what it is, if `reloadxml` is
only called when all commands are answered; and that this is needed, since otherwise some
reply is not, at the latest when the server has answered everything.
-/

namespace Ssp

namespace FsInstance

/-- The bytes are one complete answer to an `api` command. -/
def isReply (data : Bytes) : Bool :=
  let m := FsMessage.reset.append data
  m.bComplete && isApiResponse m

/-- What is to be done with the message `m`, a reply to the command `c`: a status is for
    `getFsStatus`, and a reply to `reloadxml` only clears `m_bReloadingXml`. -/
def Handles (fs : FsInstance) (m : FsMessage) (o : Outcome) : Command → Prop
  | .status =>
    match m.getFsStatus with
    | .asserts => o.exit = .aborted
    | .parsed nCurrentSessions nMaxSessions =>
      o.fs.nCurrentSessions = nCurrentSessions.getD fs.nCurrentSessions ∧
        o.fs.nMaxSessions = nMaxSessions.getD fs.nMaxSessions ∧
        o.fs.bReloadingXml = fs.bReloadingXml ∧
        o.fs.ops = .timer fs.healthCheckMsecs :: fs.ops
  | .reloadxml =>
    fs.bReloadingXml = true ∧ o = { fs := { fs with bReloadingXml := false, fsMsg := .reset } }
  | .auth => False
  | .sofiaStatus => False

section Reply

variable {fs : FsInstance} {data : Bytes} (hs : fs.state = .queryingStatus)
  (hm : fs.fsMsg = .reset) (hd : isReply data = true)

include hm hd in
/-- A reply is a message of its own, and no disconnect notice. -/
theorem readHandler_reply (io : Bool) :
    isApiResponse (fs.appendData data).fsMsg = true ∧
      fs.readHandler (some data) io =
        match (fs.appendData data).processMessage with
        | none => { fs := fs.appendData data, exit := .aborted }
        | some r => r.finish io := by
  obtain ⟨hcomplete, hresponse⟩ : (FsMessage.reset.append data).bComplete = true ∧
      isApiResponse (FsMessage.reset.append data) = true := by
    simpa only [isReply, Bool.and_eq_true] using hd
  have hmsg : (fs.appendData data).fsMsg = FsMessage.reset.append data := by
    rw [appendData, hm]
  have hnotice : isDisconnectNotice (FsMessage.reset.append data) = false := by
    simp only [isApiResponse, Bool.and_eq_true, decide_eq_true_eq] at hresponse
    simp [isDisconnectNotice, hresponse.1]
  refine ⟨hmsg ▸ hresponse, ?_⟩
  change (fs.appendData data).processData io = _
  unfold processData
  rw [hmsg, hcomplete, hnotice]
  rfl

include hs hm hd

/-- While it is reloading, an instance takes a reply for one to `reloadxml`. -/
theorem readHandler_of_reloading (hr : fs.bReloadingXml = true) (io : Bool) :
    fs.readHandler (some data) io =
      { fs := { fs with bReloadingXml := false, fsMsg := .reset } } := by
  obtain ⟨hresponse, hread⟩ := readHandler_reply hm hd io
  have hprocess : (fs.appendData data).processMessage =
      some { fs := { fs.appendData data with bReloadingXml := false } } := by
    unfold processMessage
    simp only [hresponse, if_true]
    simp [appendData, hs, hr]
  rw [hread, hprocess]
  simp [Reaction.finish, appendData]

/-- Otherwise it takes it for a status. -/
theorem readHandler_of_not_reloading (hr : fs.bReloadingXml = false) (io : Bool) :
    fs.Handles (.append .reset data) (fs.readHandler (some data) io) .status ∧
      ((fs.readHandler (some data) io).exit ≠ .aborted →
        (fs.readHandler (some data) io).fs.state = .queryingStatus ∧
        (fs.readHandler (some data) io).fs.fsMsg = .reset ∧
        (fs.readHandler (some data) io).fs.sent = fs.sent ∧
        (fs.readHandler (some data) io).fs.bReloadingXml = false ∧
        (fs.readHandler (some data) io).fs.ops = .timer fs.healthCheckMsecs :: fs.ops) := by
  obtain ⟨hresponse, hread⟩ := readHandler_reply hm hd io
  rw [hread]
  cases hst : (FsMessage.reset.append data).getFsStatus with
  | asserts =>
    have hprocess : (fs.appendData data).processMessage = none := by
      unfold processMessage
      simp only [hresponse, if_true]
      simp [appendData, hs, hr, hm, hst]
    rw [hprocess]
    exact ⟨by simp [Handles, hst], fun h => absurd rfl h⟩
  | parsed nCurrentSessions nMaxSessions =>
    simp only [Handles, hst]
    unfold processMessage
    simp only [hresponse, if_true]
    simp only [appendData, hs, hr, hm, hst, Bool.false_eq_true, if_false]
    -- Both ways of going on set the timer, and write nothing.
    by_cases hd : (nCurrentSessions.isSome && nMaxSessions.isSome && fs.bDisconnected) = true
    · simp [hd, Reaction.finish, startTimer]
    · simp [hd, Reaction.finish, startTimer]

/-- Either way the instance is ready for the next reply, and is reloading no more. -/
theorem readHandler_reply_frame {io : Bool} (hexit : (fs.readHandler (some data) io).exit ≠ .aborted) :
    (fs.readHandler (some data) io).fs.state = .queryingStatus ∧
      (fs.readHandler (some data) io).fs.fsMsg = .reset ∧
      (fs.readHandler (some data) io).fs.sent = fs.sent ∧
      (fs.readHandler (some data) io).fs.bReloadingXml = false ∧
      (fs.readHandler (some data) io).fs.ops.countP isOpening = fs.ops.countP isOpening := by
  cases hr : fs.bReloadingXml with
  | true =>
    rw [readHandler_of_reloading hs hm hd hr io]
    exact ⟨hs, rfl, rfl, rfl, rfl⟩
  | false =>
    obtain ⟨-, hnot⟩ := readHandler_of_not_reloading hs hm hd hr io
    obtain ⟨hstate, hmsg, hsent, hflag, hops⟩ := hnot hexit
    refine ⟨hstate, hmsg, hsent, hflag, ?_⟩
    rw [hops, List.countP_cons_of_neg (by simp [isOpening])]

end Reply

/-- A reply is handled as one to `c`, exactly if the instance is reloading just then when `c`
    is `reloadxml`. -/
theorem handles_iff {fs : FsInstance} {data : Bytes} (hs : fs.state = .queryingStatus)
    (hm : fs.fsMsg = .reset) (hd : isReply data = true) (io : Bool) {c : Command}
    (hc : c = .status ∨ c = .reloadxml) :
    fs.Handles (.append .reset data) (fs.readHandler (some data) io) c ↔
      (fs.bReloadingXml = true ↔ c = .reloadxml) := by
  cases hr : fs.bReloadingXml with
  | false =>
    obtain ⟨hstatus, -⟩ := readHandler_of_not_reloading hs hm hd hr io
    rcases hc with rfl | rfl
    · exact iff_of_true hstatus (by simp)
    · exact iff_of_false (fun h => by simp [Handles, hr] at h) (by simp)
  | true =>
    have hreload := readHandler_of_reloading hs hm hd hr io
    rcases hc with rfl | rfl
    · refine iff_of_false (fun h => ?_) (by simp)
      rw [hreload] at h
      cases hst : (FsMessage.reset.append data).getFsStatus <;> simp [Handles, hst, hr] at h
    · exact iff_of_true ⟨hr, hreload⟩ (by simp)

/-! ## The end of the handshake -/

/-- Before it asks for the status, no message makes an instance reload. -/
theorem processMessage_bReloadingXml {fs : FsInstance} {r : Reaction} (h : fs.state ≠ .queryingStatus)
    (hr : fs.processMessage = some r) : r.fs.bReloadingXml = fs.bReloadingXml := by
  unfold processMessage at hr
  cases hs : fs.state <;> simp only [hs] at hr
  case waitingForGreeting => split_ifs at hr <;> cases hr <;> rfl
  case authenticating => split_ifs at hr <;> cases hr <;> rfl
  case obtainingSipConfiguration =>
    split_ifs at hr
    · split at hr <;> cases hr <;> rfl
    · cases hr
      rfl
  case queryingStatus => exact absurd hs h
  all_goals
    cases hr
    rfl

theorem finish_bReloadingXml (r : Reaction) (io : Bool) :
    (r.finish io).fs.bReloadingXml = r.fs.bReloadingXml := by
  unfold Reaction.finish
  split_ifs <;> cases r.bReadAgain <;> cases r.bSetTimer <;> rfl

theorem processData_bReloadingXml {fs : FsInstance} (h : fs.state ≠ .queryingStatus) (io : Bool) :
    (fs.processData io).fs.bReloadingXml = fs.bReloadingXml := by
  unfold processData
  split_ifs
  · rfl
  · rfl
  · rfl
  · cases hr : fs.processMessage with
    | none => rfl
    | some r => exact (finish_bReloadingXml r io).trans (processMessage_bReloadingXml h hr)

/-- And neither does anything else. -/
theorem step_bReloadingXml {fs : FsInstance} (h : fs.state ≠ .queryingStatus) (e : FsEvent) :
    (fs.step e).fs.bReloadingXml = fs.bReloadingXml := by
  cases e with
  | reloadxml io => simp [step, reloadxml, h]
  | completed c io =>
    change (FsInstance.handle _ c io).fs.bReloadingXml = _
    rcases c with left | ⟨left, ok⟩ | (_ | data) | ⟨ms, ok⟩
    · cases left <;> rfl
    · cases ok <;> rcases left with _ | left <;> cases io <;> rfl
    · rfl
    · refine (processData_bReloadingXml ?_ io).trans ?_
      · exact h
      · rfl
    · cases ok
      · rfl
      · simp only [handle, timerHandler]
        cases fs.state <;> cases io <;> rfl

/-- Until the end of the first handshake, an instance does one thing at a time, and does not
    reload. -/
theorem single_op_of_handshake {fs : FsInstance}
    (h : (machine.restrict fun fs _ => fs.state ≠ .queryingStatus).Reachable fs) :
    fs.ops.length ≤ 1 ∧ fs.bReloadingXml = false := by
  refine h.invariant (I := fun fs => fs.ops.length ≤ 1 ∧ fs.bReloadingXml = false) ?_
    fun fs e hfs he => ⟨?_, ?_⟩
  · rintro _ ⟨a, p, n, rfl⟩
    exact ⟨Nat.le.refl, rfl⟩
  · cases e with
    | reloadxml io =>
      have hsame : (fs.reloadxml io).fs = fs := by rw [reloadxml, if_pos he.2]
      change (fs.reloadxml io).fs.ops.length ≤ 1
      rw [hsame]
      exact hfs.1
    | completed c io => exact Nat.le_trans (length_ops_completed (mem_ops_of_ready he.1.1) io) hfs.1
  · exact (step_bReloadingXml he.2 e).trans hfs.2

/-- The reply with the SIP profile ends the handshake: the instance asks for the status, and
    reads. -/
theorem processData_asks {fs : FsInstance} (hm : fs.hasMessage = true)
    (hs : fs.state = .obtainingSipConfiguration) (ha : fs.answers = true) :
    (fs.processData true).fs.state = .queryingStatus ∧ (fs.processData true).fs.fsMsg = .reset ∧
      (fs.processData true).fs.ops = .read :: fs.ops ∧
      (fs.processData true).fs.sent = fs.sent ++ [.status] := by
  simp only [hasMessage, Bool.and_eq_true, Bool.not_eq_true'] at hm
  simp only [answers, hs, Bool.and_eq_true] at ha
  obtain ⟨hresponse, hprofile⟩ := ha
  split at hprofile
  next address port hp =>
    have hprocess : fs.processMessage = some
        { fs := { fs with strSipAddress := address, nSipPort := port, state := .queryingStatus }
          out := some .status, bReadAgain := true, notified := some (fs.strAddress, address) } := by
      simp only [processMessage, hs, hresponse, hp, if_true]
    simp [processData, hm, hprocess, Reaction.finish, asyncReadSome]
  next => simp at hprofile

/-- A connection after the handshake, with the commands that are still to be answered, in the
    order they were written. -/
structure Exchange where
  fs : FsInstance
  outstanding : List Command

namespace Exchange

/-- What may happen: an operation completes, or `reloadxml` is called. What is read is a reply,
    and one to a command. -/
def Possible (x : Exchange) (e : FsEvent) : Prop :=
  x.fs.ready e = true ∧
    match e with
    | .completed (.read (some data)) _ => x.outstanding ≠ [] ∧ isReply data = true
    | _ => True

/-- The commands that a reply leaves. -/
def answer (x : Exchange) : FsEvent → List Command
  | .completed (.read (some _)) _ => x.outstanding.tail
  | _ => x.outstanding

def next (x : Exchange) (e : FsEvent) : Exchange :=
  let fs := (x.fs.step e).fs
  { fs, outstanding := x.answer e ++ fs.sent.drop x.fs.sent.length }

/-- The runs from the end of the handshake on: the first `api status` is written, and its reply
    is waited for. -/
def machine : Machine Exchange FsEvent where
  init := {x | x.fs.state = .queryingStatus ∧ x.fs.fsMsg = .reset ∧ x.fs.bReloadingXml = false ∧
    x.fs.ops = [.read] ∧ x.outstanding = [.status]}
  enabled x e := x.Possible e ∧ (x.fs.step e).exit ≠ .aborted
  next := next

/-- Every reply that may be read now is handled as one to the command it answers. -/
def Matched (x : Exchange) : Prop :=
  ∀ c cs data io, x.outstanding = c :: cs → x.Possible (.completed (.read (some data)) io) →
    let fs := { x.fs with ops := x.fs.ops.erase .read }
    fs.Handles (.append .reset data) (fs.readHandler (some data) io) c

/-- `reloadxml` is called only when every command is answered. -/
def Quiet (x : Exchange) : FsEvent → Prop
  | .reloadxml io => io = true → x.outstanding = []
  | .completed _ _ => True

/-! ## One step -/

/-- The instance asks for the status, at a message boundary, and the server has nothing to
    answer but `status` and `reloadxml`. -/
structure Inv (x : Exchange) : Prop where
  state : x.fs.state = .queryingStatus
  fsMsg : x.fs.fsMsg = .reset
  opens : x.fs.ops.countP isOpening = 0
  commands : ∀ c ∈ x.outstanding, c = .status ∨ c = .reloadxml

/-- What a step does to the commands and to the flag that stands for them. -/
inductive Moves (x : Exchange) (x' : Exchange) : FsEvent → Prop
  | reply {data : Bytes} {io : Bool} {c : Command} (hout : x.outstanding = c :: x'.outstanding)
      (hposs : x.Possible (.completed (.read (some data)) io))
      (hflag : x'.fs.bReloadingXml = false) : Moves x x' (.completed (.read (some data)) io)
  | status {ms : ℕ} (hout : x'.outstanding = x.outstanding ++ [.status])
      (hflag : x'.fs.bReloadingXml = x.fs.bReloadingXml) : Moves x x' (.completed (.timer ms true) true)
  | reload (hout : x'.outstanding = x.outstanding ++ [.reloadxml])
      (hflag : x'.fs.bReloadingXml = true) : Moves x x' (.reloadxml true)
  | idle {e : FsEvent} (he : e ≠ .reloadxml true) (hout : x'.outstanding = x.outstanding)
      (hflag : x'.fs.bReloadingXml = x.fs.bReloadingXml) : Moves x x' e

variable {x : Exchange}

theorem next_outstanding {e : FsEvent} {out : List Command}
    (hsent : (x.fs.step e).fs.sent = x.fs.sent ++ out) :
    (x.next e).outstanding = x.answer e ++ out := by
  rw [next, hsent, List.drop_left]

/-- Operations that complete open no connection, and neither do those that are left. -/
theorem Inv.opens_erase (h : x.Inv) {c : Completion} (hc : c.op ∈ x.fs.ops) :
    isOpening c.op = false ∧ (x.fs.ops.erase c.op).countP isOpening = 0 := by
  obtain ⟨-, hopens⟩ := count_erase_op hc
  rw [h.opens] at hopens
  split_ifs at hopens with ho
  exact ⟨by simpa using ho, hopens.symm⟩

theorem moves_reply (h : x.Inv) {data : Bytes} {io : Bool}
    (he : machine.enabled x (.completed (.read (some data)) io)) :
    Moves x (x.next (.completed (.read (some data)) io)) (.completed (.read (some data)) io) ∧
      (x.next (.completed (.read (some data)) io)).Inv := by
  obtain ⟨hposs, hexit⟩ := he
  obtain ⟨hready, hne, hd⟩ := hposs
  have hopens := (h.opens_erase (mem_ops_of_ready hready)).2
  obtain ⟨c, cs, hout⟩ := List.exists_cons_of_ne_nil hne
  obtain ⟨hstate, hmsg, hsent, hflag, hops⟩ := @readHandler_reply_frame
    { x.fs with ops := x.fs.ops.erase .read } data h.state h.fsMsg hd io hexit
  replace hsent : (x.fs.step (.completed (.read (some data)) io)).fs.sent = x.fs.sent ++ [] := by
    rw [List.append_nil]
    exact hsent
  have hleft : (x.next (.completed (.read (some data)) io)).outstanding = cs := by
    rw [next_outstanding hsent, List.append_nil, answer, hout, List.tail_cons]
  refine ⟨.reply (c := c) (hleft ▸ hout) ⟨hready, hne, hd⟩ hflag, hstate, hmsg, hops.trans hopens, ?_⟩
  intro d hd
  rw [hleft] at hd
  exact h.commands d (hout ▸ List.mem_cons_of_mem _ hd)

/-- A step that is no reply, writes `out`, and keeps the state otherwise. -/
theorem inv_write (h : x.Inv) {e : FsEvent} (out : List Command) (hans : x.answer e = x.outstanding)
    (hstate : (x.fs.step e).fs.state = x.fs.state) (hmsg : (x.fs.step e).fs.fsMsg = x.fs.fsMsg)
    (hops : (x.fs.step e).fs.ops.countP isOpening = 0)
    (hsent : (x.fs.step e).fs.sent = x.fs.sent ++ out)
    (hout : ∀ c ∈ out, c = .status ∨ c = .reloadxml) :
    (x.next e).outstanding = x.outstanding ++ out ∧ (x.next e).Inv := by
  have hleft : (x.next e).outstanding = x.outstanding ++ out := hans ▸ next_outstanding hsent
  refine ⟨hleft, hstate.trans h.state, hmsg.trans h.fsMsg, hops, fun c hc => ?_⟩
  rw [hleft, List.mem_append] at hc
  exact hc.elim (h.commands c) (hout c)

theorem moves_timer (h : x.Inv) {ms : ℕ} {ok io : Bool}
    (hc : (Completion.timer ms ok).op ∈ x.fs.ops) :
    Moves x (x.next (.completed (.timer ms ok) io)) (.completed (.timer ms ok) io) ∧
      (x.next (.completed (.timer ms ok) io)).Inv := by
  have hopens := (h.opens_erase hc).2
  have hhandler : (x.fs.step (.completed (.timer ms ok) io)).fs =
      if ok = true ∧ io = true then
        { x.fs with ops := .read :: x.fs.ops.erase (.timer ms), sent := x.fs.sent ++ [.status] }
      else { x.fs with ops := x.fs.ops.erase (.timer ms) } := by
    simp only [step, handle, timerHandler, Completion.op, h.state]
    cases ok <;> cases io <;> simp [asyncReadSome]
  by_cases hw : ok = true ∧ io = true
  · obtain ⟨rfl, rfl⟩ := hw
    rw [if_pos ⟨rfl, rfl⟩] at hhandler
    obtain ⟨hout, hinv⟩ := inv_write h [.status] rfl (by rw [hhandler]) (by rw [hhandler])
      (by rw [hhandler]; exact hopens) (by rw [hhandler]) (by simp)
    refine ⟨.status hout ?_, hinv⟩
    rw [next, hhandler]
  · rw [if_neg hw] at hhandler
    obtain ⟨hout, hinv⟩ := inv_write h [] rfl (by rw [hhandler]) (by rw [hhandler])
      (by rw [hhandler]; exact hopens) (by rw [hhandler, List.append_nil]) (by simp)
    refine ⟨.idle (by simp) (hout.trans (List.append_nil _)) ?_, hinv⟩
    rw [next, hhandler]

theorem moves_reloadxml (h : x.Inv) (io : Bool) :
    Moves x (x.next (.reloadxml io)) (.reloadxml io) ∧ (x.next (.reloadxml io)).Inv := by
  have hhandler : (x.fs.step (.reloadxml io)).fs =
      if io = true then
        { x.fs with ops := .read :: x.fs.ops, sent := x.fs.sent ++ [.reloadxml], bReloadingXml := true }
      else x.fs := by
    simp only [step, reloadxml, h.state]
    cases io <;> simp [asyncReadSome]
  cases io with
  | true =>
    rw [if_pos rfl] at hhandler
    obtain ⟨hout, hinv⟩ := inv_write h [.reloadxml] rfl (by rw [hhandler]) (by rw [hhandler])
      (by rw [hhandler]; exact h.opens) (by rw [hhandler]) (by simp)
    refine ⟨.reload hout ?_, hinv⟩
    rw [next, hhandler]
  | false =>
    rw [if_neg Bool.false_ne_true] at hhandler
    obtain ⟨hout, hinv⟩ := inv_write h [] rfl (by rw [hhandler]) (by rw [hhandler])
      (by rw [hhandler]; exact h.opens) (by rw [hhandler, List.append_nil]) (by simp)
    refine ⟨.idle (by simp) (hout.trans (List.append_nil _)) ?_, hinv⟩
    rw [next, hhandler]

/-- One step of a connection. -/
theorem moves_next {e : FsEvent} (h : x.Inv) (he : machine.enabled x e) :
    Moves x (x.next e) e ∧ (x.next e).Inv := by
  cases e with
  | reloadxml io => exact moves_reloadxml h io
  | completed c io =>
    have hc := mem_ops_of_ready he.1.1
    obtain ⟨hnot, hopens⟩ := h.opens_erase hc
    rcases c with left | ⟨left, ok⟩ | (_ | data) | ⟨ms, ok⟩
    · exact absurd hnot (by simp [Completion.op, isOpening])
    · exact absurd hnot (by simp [Completion.op, isOpening])
    · obtain ⟨hout, hinv⟩ := inv_write (e := .completed (.read none) io) h [] rfl rfl rfl
        hopens (List.append_nil _).symm (by simp)
      exact ⟨.idle (by simp) (hout.trans (List.append_nil _)) rfl, hinv⟩
    · exact moves_reply h he
    · exact moves_timer h hc

/-! ## Runs -/

/-- The flag stands for the command that is answered next, and no later one needs it. -/
def InStep (x : Exchange) : Prop :=
  (x.fs.bReloadingXml = true ↔ x.outstanding.head? = some .reloadxml) ∧
    .reloadxml ∉ x.outstanding.tail

/-- A `reloadxml` is to be answered that the flag will not stand for. -/
def Astray (x : Exchange) : Prop :=
  .reloadxml ∈ x.outstanding.tail ∨
    (x.outstanding.head? = some .reloadxml ∧ x.fs.bReloadingXml = false)

/-- A reply that may be read now is handled as it should be, exactly if the flag stands for its
    command. -/
theorem Inv.handles_iff (h : x.Inv) {c : Command} {cs : List Command} {data : Bytes} {io : Bool}
    (hout : x.outstanding = c :: cs) (hposs : x.Possible (.completed (.read (some data)) io)) :
    { x.fs with ops := x.fs.ops.erase .read }.Handles (.append .reset data)
        ({ x.fs with ops := x.fs.ops.erase .read }.readHandler (some data) io) c ↔
      (x.fs.bReloadingXml = true ↔ c = .reloadxml) :=
  @FsInstance.handles_iff { x.fs with ops := x.fs.ops.erase .read } data h.state h.fsMsg hposs.2.2 io c
    (h.commands c (hout ▸ List.mem_cons_self))

theorem matched_of_inStep (h : x.Inv) (hx : x.InStep) : x.Matched := by
  intro c cs data io hout hposs
  refine (h.handles_iff hout hposs).2 ?_
  have hflag := hx.1
  rw [hout, List.head?_cons, Option.some_inj] at hflag
  exact hflag

/-- A quiet step keeps the flag in step with the commands. -/
theorem inStep_next {x' : Exchange} {e : FsEvent} (hx : x.InStep) (hm : Moves x x' e)
    (hq : x.Quiet e) : x'.InStep := by
  obtain ⟨hflag, htail⟩ := hx
  cases hm with
  | reply hout _ hflag' =>
    rw [hout, List.tail_cons] at htail
    refine ⟨iff_of_false (by simp [hflag']) fun hhead => ?_, fun hmem => ?_⟩
    · exact htail (List.mem_of_mem_head? hhead)
    · exact htail (List.mem_of_mem_tail hmem)
  | status hout hflag' =>
    rw [InStep, hflag', hflag, hout]
    cases hx : x.outstanding with
    | nil => simp
    | cons c cs => simpa [hx] using htail
  | reload hout hflag' =>
    rw [InStep, hflag', hout, hq rfl]
    simp
  | idle _ hout hflag' =>
    rw [InStep, hflag', hout]
    exact ⟨hflag, htail⟩

/-- A step that is not quiet leads astray. -/
theorem astray_of_not_quiet {x' : Exchange} {e : FsEvent} (hm : Moves x x' e) (hq : ¬x.Quiet e) :
    x'.Astray := by
  cases hm with
  | reload hout _ =>
    have hne : x.outstanding ≠ [] := fun hnil => hq fun _ => hnil
    refine .inl ?_
    rw [hout, List.tail_append_of_ne_nil hne]
    exact List.mem_append_right _ (List.mem_singleton_self _)
  | reply => exact absurd trivial hq
  | status => exact absurd trivial hq
  | @idle e he _ _ =>
    cases e with
    | completed c io => exact absurd trivial hq
    | reloadxml io =>
      cases io with
      | true => exact absurd rfl he
      | false => exact absurd (fun h => absurd h Bool.false_ne_true) hq

/-- Commands that are written later change nothing in that. -/
theorem Astray.append {x' : Exchange} (out : List Command) (hx : x.Astray)
    (hout : x'.outstanding = x.outstanding ++ out)
    (hflag : .reloadxml ∈ out ∨ x'.fs.bReloadingXml = x.fs.bReloadingXml) : x'.Astray := by
  cases hc : x.outstanding with
  | nil => simp [Astray, hc] at hx
  | cons c cs =>
    rw [Astray, hc, List.tail_cons, List.head?_cons] at hx
    rw [Astray, hout, hc, List.cons_append, List.tail_cons, List.head?_cons, List.mem_append]
    rcases hx with hmem | ⟨hhead, hnot⟩
    · exact .inl (.inl hmem)
    · rcases hflag with hmem | hflag
      · exact .inl (.inr hmem)
      · exact .inr ⟨hhead, hflag.trans hnot⟩

/-- From there, nothing leads back but a reply that is not handled as it should be. -/
theorem astray_next {x' : Exchange} {e : FsEvent} (h : x.Inv) (hx : x.Astray) (hmatch : x.Matched)
    (hm : Moves x x' e) : x'.Astray := by
  cases hm with
  | @reply data io c hout hposs hflag =>
    -- The command answered is not the one gone astray, which is among those left.
    have hmem : .reloadxml ∈ x'.outstanding := by
      rw [Astray, hout, List.tail_cons, List.head?_cons, Option.some_inj] at hx
      refine hx.resolve_right fun ⟨hc, hnot⟩ => ?_
      have := ((h.handles_iff hout hposs).1 (hmatch c _ data io hout hposs)).2 hc
      simp [hnot] at this
    cases hout' : x'.outstanding with
    | nil => simp [hout'] at hmem
    | cons d ds =>
      rw [hout', List.mem_cons] at hmem
      rcases hmem with rfl | hmem
      · exact .inr ⟨by rw [hout', List.head?_cons], hflag⟩
      · exact .inl (by rwa [hout', List.tail_cons])
  | status hout hflag => exact hx.append _ hout (.inr hflag)
  | reload hout hflag => exact hx.append _ hout (.inl (List.mem_singleton_self _))
  | idle _ hout hflag => exact hx.append [] (hout.trans (List.append_nil _).symm) (.inr hflag)

theorem always_matched {es : List FsEvent} (h : x.Inv) (hx : x.InStep)
    (hes : machine.Along machine.enabled x es) (hq : machine.Along Quiet x es) :
    machine.Always Matched x es := by
  induction es generalizing x with
  | nil => exact matched_of_inStep h hx
  | cons e es ih =>
    obtain ⟨hm, hinv⟩ := moves_next h hes.1
    exact ⟨matched_of_inStep h hx, ih hinv (inStep_next hx hm hq.1) hes.2 hq.2⟩

theorem astray_exec {es : List FsEvent} (h : x.Inv) (hx : x.Astray)
    (hes : machine.Along machine.enabled x es) (hmatch : machine.Always Matched x es) :
    (machine.exec x es).Astray := by
  induction es generalizing x with
  | nil => exact hx
  | cons e es ih =>
    obtain ⟨hm, hinv⟩ := moves_next h hes.1
    exact ih hinv (astray_next h hx hmatch.1 hm) hes.2 hmatch.2

theorem along_quiet {es : List FsEvent} (h : x.Inv) (hx : x.InStep)
    (hes : machine.Along machine.enabled x es) (hmatch : machine.Always Matched x es)
    (hend : (machine.exec x es).outstanding = []) : machine.Along Quiet x es := by
  induction es generalizing x with
  | nil => trivial
  | cons e es ih =>
    obtain ⟨hm, hinv⟩ := moves_next h hes.1
    have hq : x.Quiet e := by
      by_contra hq
      have hastray := astray_exec hinv (astray_of_not_quiet hm hq) hes.2 hmatch.2
      rw [Machine.exec_cons] at hend
      change (machine.exec (x.next e) es).outstanding = [] at hend
      simp [Astray, hend] at hastray
    exact ⟨hq, ih hinv (inStep_next hx hm hq) hes.2 hmatch.2 hend⟩

/-- **Replies are matched.** If `reloadxml` is only called when every command is answered, every
    reply is handled as one to the command it answers; and in a run at whose end everything is
    answered, only then. -/
theorem matched_iff {es : List FsEvent} (h : machine.IsRun x es) :
    (machine.Along Quiet x es → machine.Always Matched x es) ∧
      ((machine.exec x es).outstanding = [] → machine.Always Matched x es →
        machine.Along Quiet x es) := by
  obtain ⟨⟨hstate, hmsg, hflag, hops, hout⟩, hes⟩ := h
  have hinv : x.Inv := ⟨hstate, hmsg, by simp [hops, isOpening], by simp [hout]⟩
  have hx : x.InStep := by simp [InStep, hflag, hout]
  exact ⟨always_matched hinv hx hes, fun hend hmatch => along_quiet hinv hx hes hmatch hend⟩

/-- The first handshake of an instance, whatever is read and called in it, leads to such a
    run. -/
theorem init_of_handshake {fs : FsInstance} {e : FsEvent}
    (h : (FsInstance.machine.restrict fun fs _ => fs.state ≠ .queryingStatus).Reachable fs)
    (hs : fs.state ≠ .queryingStatus) (he : FsInstance.machine.enabled fs e)
    (hexit : (fs.step e).exit = .returned) (hnext : (fs.step e).fs.state = .queryingStatus) :
    { fs := (fs.step e).fs, outstanding := [.status] } ∈ machine.init ∧
      (fs.step e).fs.sent = fs.sent ++ [.status] := by
  obtain ⟨hlen, hflag⟩ := single_op_of_handshake h
  cases e with
  | reloadxml io => exact absurd (((fs.reloadxml_state io).1).symm.trans hnext) hs
  | completed c io =>
    have hc := mem_ops_of_ready he.1
    have hother (hnot : ∀ data, c ≠ .read data) :
        fs.state = .queryingStatus :=
      (handle_state { fs with ops := fs.ops.erase c.op } hnot io).1 hnext
    rcases c with left | ⟨left, ok⟩ | (_ | data) | ⟨ms, ok⟩
    · exact absurd (hother (by simp)) hs
    · exact absurd (hother (by simp)) hs
    · exact absurd hnext hs
    · have hspec := (FsInstance.appendData { fs with ops := fs.ops.erase .read } data).processData_spec io
      cases @processData_afterRead (FsInstance.appendData { fs with ops := fs.ops.erase .read } data) io
        he.2 with
      | asks hm _ hb ha _ _ =>
        cases io with
        | false =>
          have herror := hspec.1.2 ⟨by simp [hm, ha], rfl⟩
          exact absurd (herror.symm.trans hexit) (by simp)
        | true =>
          obtain ⟨hstate, hmsg, hops, hsent⟩ := processData_asks hm hb ha
          have hnil : fs.ops.erase .read = [] := by
            have hread : Op.read ∈ fs.ops := hc
            have := List.length_erase_of_mem hread
            exact List.length_eq_zero_iff.1 (by omega)
          refine ⟨⟨hstate, hmsg, (step_bReloadingXml hs _).trans hflag, ?_, rfl⟩, hsent⟩
          exact hops.trans (congrArg _ hnil)
      | incomplete _ _ hstate _ => exact absurd (hstate.symm.trans hnext) hs
      | notice _ _ hstate _ =>
        cases io with
        | false => exact absurd (hstate.symm.trans hnext) hs
        | true => exact absurd (hstate.symm.trans hnext) (by simp)
      | replied _ _ hb _ _ => exact absurd hb hs
      | other _ _ _ _ hstate _ => exact absurd hnext hstate
    · exact absurd (hother (by simp)) hs

/-- A connection as the handshake leaves it. -/
def connected : Exchange :=
  { fs := FsInstance.machine.exec (new "fs".toList 8021 1000)
      (Tracked.handshake ++ [Tracked.profileReply])
    outstanding := [.status] }

theorem connected_init : connected ∈ machine.init :=
  ⟨by decide, by decide, by decide, by decide, rfl⟩

/-- A reload between a status reply and the next question, which is answered too. -/
theorem matched_reloadBetween :
    machine.Always Matched connected (reloadBetween ++ [.completed (.read (some statusText)) true]) ∧
      machine.Along Quiet connected (reloadBetween ++ [.completed (.read (some statusText)) true]) := by
  have hrun : machine.IsRun connected (reloadBetween ++ [.completed (.read (some statusText)) true]) := by
    refine ⟨connected_init, ⟨⟨by decide, by decide⟩, by decide⟩, ⟨⟨by decide, trivial⟩, by decide⟩,
      ⟨⟨by decide, by decide⟩, by decide⟩, ⟨⟨by decide, trivial⟩, by decide⟩,
      ⟨⟨by decide, by decide⟩, by decide⟩, trivial⟩
  have hmatch := (matched_iff hrun).1 ⟨trivial, fun _ => by decide, trivial, trivial, trivial, trivial⟩
  exact ⟨hmatch, (matched_iff hrun).2 (by decide) hmatch⟩

/-- A reload while the first status is being asked for: the reply to the status is taken for
    one to the reload. -/
theorem not_matched_reloadxml :
    ¬∀ (x : Exchange) (es : List FsEvent), machine.IsRun x es → machine.Always Matched x es := by
  intro h
  have hrun : machine.IsRun connected [.reloadxml true] :=
    ⟨connected_init, ⟨⟨by decide, trivial⟩, by decide⟩, trivial⟩
  obtain ⟨-, hlast⟩ := h _ _ hrun
  have hposs : (connected.next (.reloadxml true)).Possible (.completed (.read (some statusText)) true) :=
    ⟨by decide, by decide, by decide⟩
  have hinv : (connected.next (.reloadxml true)).Inv := ⟨by decide, by decide, by decide, by decide⟩
  exact absurd ((hinv.handles_iff rfl hposs).1 (hlast.head _ _ _ _ rfl hposs)) (by decide)

end Exchange

end FsInstance

end Ssp
