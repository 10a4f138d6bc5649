import Ssp.Fs.Chunks
import Ssp.Fs.Instance

/-!
# Several messages in one read

A read from the event socket may bring more than one message. `read_handler` takes what it
gets for one message or a part of one: it parses it as a whole, looks at the category, the type
and the reply status of the result, and drops it.

* `FsMessage.first_of_complete`: if messages that are read at once make a complete message, it
  says what the first of them says, which is a request or a reply. The others are not seen.
* `readEach_coalesced_iff`: so what is read at once is handled as if each message had been read
  for itself exactly if it is one message, or if it makes a complete message and there is nothing
  to be done for the others.
-/

namespace Ssp

namespace FsMessage

/-! ## What the first message says -/

/-- There is a line in a complete message. -/
theorem lines_ne_nil_of_complete {M : Bytes} (h : (reset.append M).bComplete = true) (v : Bytes) :
    lines (M ++ v) ≠ [] := by
  obtain ⟨c, t, ls, cat, ty, hheader, -⟩ := complete_header h
  obtain ⟨l, hl, hct, -⟩ := header_eq_some_iff.1 hheader
  obtain ⟨l', ls', hl', -⟩ := contentType_lines_append hl hct v
  rw [hl']
  exact List.cons_ne_nil l' ls'

/-- More lines make a content longer, which had the right length. -/
theorem length_ne_of_grows {p v t t' : Bytes} {ls ls' bs bs' : List Bytes} {n n' : UInt32}
    (hg : Grows p v t ls t' ls') (hv : lines v ≠ []) (h : body ls = some (n, bs)) (hn : n ≠ 0)
    (hlength : (terminate '\n' bs).length = n.toNat) (h' : body ls' = some (n', bs')) :
    (terminate '\n' bs').length ≠ n'.toNat := by
  -- The lines that follow are new ones, or the first of them continues the last line of `p`.
  cases hg with
  | boundary _ =>
    obtain ⟨rfl, rfl⟩ : n = n' ∧ bs ++ lines v = bs' := by simpa using (body_append h hn (lines v)).symm.trans h'
    -- They are content, and the content had its length without them.
    have hpos : 0 < (terminate '\n' (lines v)).length :=
      List.length_pos_iff.2 fun hnil => hv (terminate_eq_nil_iff.1 hnil)
    rw [terminate_append, List.length_append]
    omega
  | @inLine ts zs w z _ hls hvz =>
    subst hls
    obtain ⟨hz, -⟩ := tokens_mem (l := v) (hvz ▸ List.mem_cons_self : z ∈ lines v)
    have hpos := List.length_pos_iff.2 hz
    rcases body_inLine h hn z zs with ⟨bs₀, rfl, hb⟩ | ⟨rfl, -⟩
    · obtain ⟨rfl, rfl⟩ : n = n' ∧ bs₀ ++ (w ++ z) :: zs = bs' := by simpa using hb.symm.trans h'
      simp only [terminate_append, terminate_cons, terminate_nil, List.length_append, List.length_cons,
        List.length_nil] at hlength ⊢
      omega
    · exact absurd (UInt32.toNat_inj.1 (by simpa using hlength.symm)) hn
  | inHeader hls _ =>
    subst hls
    obtain ⟨rfl, -⟩ : (0 : UInt32) = n ∧ _ := by simpa [body] using h
    exact absurd rfl hn

/-- **What is read at once.** If a complete message with more after it makes a complete message, it
    says what the first one says, and that is a request or a reply. -/
theorem first_of_complete {M v : Bytes} (hM : (reset.append M).bComplete = true) (hv : lines v ≠ [])
    (hall : (reset.append (M ++ v)).bComplete = true) :
    (reset.append (M ++ v)).category = (reset.append M).category ∧
      (reset.append (M ++ v)).type = (reset.append M).type ∧
      (reset.append (M ++ v)).replyStatus = (reset.append M).replyStatus ∧
      ((reset.append M).type = .request ∨
        (reset.append M).category = .command ∧ (reset.append M).type = .reply) := by
  obtain ⟨c, t, ls, cat, ty, hheader, hcat, hty, hm⟩ := complete_header hM
  obtain ⟨c', t', ls', cat', ty', hheader', hcat', hty', hm'⟩ := complete_header hall
  obtain ⟨rfl, hg⟩ := grows_of_header hheader hheader'
  obtain rfl : cat = cat' := Option.some_inj.1 (hcat.symm.trans hcat')
  obtain rfl := hg.type_eq hty hty'
  have hb := hm.bComplete.symm.trans hM
  have hb' := hm'.bComplete.symm.trans hall
  rw [hm.category, hm'.category, hm.type, hm'.type, hm.replyStatus, hm'.replyStatus]
  refine ⟨rfl, rfl, ?_, ?_⟩
  · by_cases hr : cat = .command ∧ ty' = .reply
    · -- The status is in the only line, which may be longer than it was.
      obtain ⟨rfl, rfl⟩ := hr
      obtain ⟨r, st, rfl, hreply⟩ := parsed_reply_complete hb
      exact (congrArg Prod.fst ((parsed_reply_iff hg hb').2 ⟨r, rfl, by rw [hreply]; rfl⟩)).symm
    -- Nothing else sets a status.
    · rw [parsed_replyStatus ls hr, parsed_replyStatus ls' hr]
  · by_cases hr : cat = .command ∧ ty' = .reply
    · exact .inr hr
    · by_cases hrequest : ty' = .request
      · exact .inl hrequest
      · -- It is complete by the length of its content.
        have hcon : (cat = .api ∧ ty' = .response) ∨ cat = .text := by
          by_contra hcon
          unfold parsed at hb
          rw [if_neg hr, if_neg hcon] at hb
          exact hrequest (of_decide_eq_true hb)
        obtain ⟨n, bs, hbody⟩ := body_of_complete hcon hb
        obtain ⟨n', bs', hbody'⟩ := body_of_complete hcon hb'
        rw [parsed_content hcon hbody] at hb
        rw [parsed_content hcon hbody'] at hb'
        obtain ⟨hn, hlength⟩ := (of_decide_eq_true hb).resolve_left hrequest
        obtain ⟨-, hlength'⟩ := (of_decide_eq_true hb').resolve_left hrequest
        exact absurd hlength' (length_ne_of_grows hg hv hbody (UInt32.pos_iff_ne_zero.1 hn) hlength hbody')

/-- A text that makes one message: a request, with the length of its content if it is a text, or a
    reply with its status and no other line. -/
def OneMessage (s : Bytes) : Prop :=
  ∃ c t ls, header s = some (c, t, ls) ∧
    ((categoryOf c).isSome ∧ typeOf t = some .request ∧ (categoryOf c = some .text → (body ls).isSome) ∨
      categoryOf c = some .command ∧ typeOf t = some .reply ∧ ∃ r, ls = [r] ∧ (replyOf r).isSome)

theorem OneMessage.bComplete {s : Bytes} (h : OneMessage s) : (reset.append s).bComplete = true := by
  obtain ⟨c, t, ls, hheader, ⟨hcat, hty, htext⟩ | ⟨hcat, hty, r, rfl, hr⟩⟩ := h
  · obtain ⟨cat, hcat⟩ := Option.isSome_iff_exists.1 hcat
    have hm := blank_reset.append_of_some hheader hcat
    rw [hm.bComplete, hty]
    by_cases hcon : cat = .text
    · obtain ⟨⟨n, bs⟩, hbody⟩ := Option.isSome_iff_exists.1 (htext (hcon ▸ hcat))
      simp [parsed_content (.inr hcon) hbody]
    · simp [parsed, hcon]
  · obtain ⟨st, hst⟩ := Option.isSome_iff_exists.1 hr
    have hm := blank_reset.append_of_some hheader hcat
    rw [hm.bComplete, hty]
    simp [parsed, hst]

/-- A complete request or reply is one message. -/
theorem oneMessage_of_complete {s : Bytes} (h : (reset.append s).bComplete = true)
    (hkind : (reset.append s).type = .request ∨
      (reset.append s).category = .command ∧ (reset.append s).type = .reply) : OneMessage s := by
  obtain ⟨c, t, ls, cat, ty, hheader, hcat, hty, hm⟩ := complete_header h
  rw [hm.category, hm.type] at hkind
  rw [hm.bComplete] at h
  refine ⟨c, t, ls, hheader, ?_⟩
  rcases hkind with rfl | ⟨rfl, rfl⟩
  · refine .inl ⟨by rw [hcat]; rfl, hty, fun htext => ?_⟩
    obtain rfl : cat = .text := Option.some_inj.1 (hcat.symm.trans htext)
    obtain ⟨n, bs, hbody⟩ := body_of_complete (.inr rfl) h
    rw [hbody]
    rfl
  · obtain ⟨r, st, rfl, hreply⟩ := parsed_reply_complete h
    exact .inr ⟨hcat, hty, r, rfl, by rw [hreply]; rfl⟩

/-- A complete message with more after it is complete exactly if all of it makes one message. -/
theorem oneMessage_iff {M v : Bytes} (hM : (reset.append M).bComplete = true) (hv : lines v ≠ []) :
    OneMessage (M ++ v) ↔ (reset.append (M ++ v)).bComplete = true := by
  refine ⟨OneMessage.bComplete, fun hall => ?_⟩
  obtain ⟨hcat, hty, -, hkind⟩ := first_of_complete hM hv hall
  rw [← hcat, ← hty] at hkind
  exact oneMessage_of_complete hall hkind

end FsMessage

/-! ## Reading for itself, and at once -/

/-- What reads lead to: the instance after them, what was thrown, and what the monitor was told. -/
structure Deliveries where
  fs : FsInstance
  exceptions : List Exit := []
  notified : List (Bytes × Bytes) := []

namespace FsInstance

/-- Reads that are handled one after the other, each with what the socket does then. The exception
    about a new connection is thrown when all is done; after another one, nothing more is read. -/
def readEach (fs : FsInstance) : List (Bytes × Bool) → Deliveries
  | [] => { fs := fs }
  | (data, io) :: rest =>
    let o := fs.readHandler (some data) io
    match o.exit with
    | .returned =>
      let d := o.fs.readEach rest
      { d with notified := o.notified.toList ++ d.notified }
    | .fsReconnectException =>
      let d := o.fs.readEach rest
      { d with exceptions := .fsReconnectException :: d.exceptions, notified := o.notified.toList ++ d.notified }
    | e => { fs := o.fs, exceptions := [e], notified := o.notified.toList }

/-- There is nothing to be done for a message. -/
def Ignores (fs : FsInstance) (m : FsMessage) : Prop :=
  isDisconnectNotice m = false ∧
    match fs.state with
    | .waitingForGreeting | .authenticating => False
    | .obtainingSipConfiguration | .queryingStatus => isApiResponse m = false
    | _ => True

/-- The messages `M` and `rest` may be read at once: they make one message, the first is not a greeting
    or the reply that the password is right, and there is nothing to be done for the others. -/
structure Harmless (fs : FsInstance) (M : Bytes) (rest : List Bytes) : Prop where
  one : FsMessage.OneMessage (M ++ rest.flatten)
  greeting : fs.state ≠ .waitingForGreeting
  reply : fs.state = .authenticating → (FsMessage.reset.append M).replyStatus ≠ .ok
  rest : ∀ N ∈ rest, isDisconnectNotice (FsMessage.reset.append N) = false ∧
    (fs.state = .obtainingSipConfiguration ∨ fs.state = .queryingStatus →
      isApiResponse (FsMessage.reset.append N) = false)

/-! ## One message -/

/-- What a message that is not ignored adds to: the operations that were started, and that the
    answer to `reloadxml` is there. -/
def progress (fs : FsInstance) : ℕ := fs.ops.length + (!fs.bReloadingXml).toNat

section

variable {fs : FsInstance} {M D : Bytes} {io : Bool}

/-- The `switch` of `read_handler` does nothing, or it gets on. -/
theorem processMessage_progress {r : Reaction} (hnotice : isDisconnectNotice fs.fsMsg = false)
    (h : fs.processMessage = some r) :
    (fs.Ignores fs.fsMsg ∧ r = { fs := fs }) ∨
      fs.progress < r.fs.progress + r.bReadAgain.toNat + r.bSetTimer.toNat := by
  unfold processMessage at h
  split at h
  case h_1 hstate =>
    right
    split_ifs at h <;> (obtain rfl := Option.some_inj.1 h; simp [progress])
  case h_2 hstate =>
    right
    split_ifs at h <;> (obtain rfl := Option.some_inj.1 h; simp [progress])
  case h_3 hstate =>
    split_ifs at h with hapi
    -- An answer, with or without the profile in it, starts an operation.
    · right
      split at h
      · simp at h
      · obtain rfl := Option.some_inj.1 h
        simp [progress]
      · obtain rfl := Option.some_inj.1 h
        simp [progress]
    · left
      exact ⟨⟨hnotice, by simpa [hstate] using hapi⟩, (Option.some_inj.1 h).symm⟩
  case h_4 hstate =>
    split_ifs at h with hapi hreload
    · right
      obtain rfl := Option.some_inj.1 h
      -- No operation is started, but the flag is gone.
      simp [progress, hreload]
    · right
      split at h
      · simp at h
      · dsimp only at h
        split_ifs at h <;> (obtain rfl := Option.some_inj.1 h; simp [progress])
    · left
      exact ⟨⟨hnotice, by simpa [hstate] using hapi⟩, (Option.some_inj.1 h).symm⟩
  case h_5 h₁ h₂ h₃ h₄ =>
    left
    refine ⟨⟨hnotice, ?_⟩, (Option.some_inj.1 h).symm⟩
    split <;> simp_all

/-- The end of `read_handler`, unless it throws. -/
theorem finish_of_returned {r : Reaction} (h : (r.finish io).exit = .returned) :
    (r.finish io).fs.fsMsg = .reset ∧
      (r.finish io).fs.progress = r.fs.progress + r.bReadAgain.toNat + r.bSetTimer.toNat := by
  unfold Reaction.finish at h ⊢
  split_ifs at h ⊢ <;> simp_all [progress, asyncReadSome, startTimer] <;> omega

/-- There is nothing to be done for a message that is ignored. -/
theorem processMessage_of_ignores (h : fs.Ignores fs.fsMsg) : fs.processMessage = some { fs := fs } := by
  obtain ⟨-, hstate⟩ := h
  unfold processMessage
  split
  case h_1 hs => simp [hs] at hstate
  case h_2 hs => simp [hs] at hstate
  case h_3 hs =>
    rw [if_neg]
    simpa [hs] using hstate
  case h_4 hs =>
    rw [if_neg]
    simpa [hs] using hstate
  case h_5 => rfl

/-- A complete message that is no notice goes to the `switch`. -/
theorem processData_complete (hcomplete : fs.fsMsg.bComplete = true) (hnotice : isDisconnectNotice fs.fsMsg = false)
    (io : Bool) : fs.processData io =
      match fs.processMessage with
      | none => { fs := fs, exit := .aborted }
      | some r => r.finish io := by
  rw [processData, hcomplete, hnotice]
  rfl

theorem appendData_of_reset (hreset : fs.fsMsg = .reset) (M : Bytes) :
    (fs.appendData M).fsMsg = FsMessage.reset.append M := by
  rw [← hreset]
  rfl

/-- A message that is ignored leaves no trace. -/
theorem readHandler_of_ignores (hreset : fs.fsMsg = .reset) (hcomplete : (FsMessage.reset.append M).bComplete = true)
    (hignores : fs.Ignores (FsMessage.reset.append M)) (io : Bool) : fs.readHandler (some M) io = { fs := fs } := by
  have hmsg := appendData_of_reset hreset M
  rw [← hmsg] at hcomplete hignores
  change (fs.appendData M).processData io = _
  have hprocess : (fs.appendData M).processMessage = some { fs := fs.appendData M } :=
    processMessage_of_ignores hignores
  rw [processData_complete hcomplete hignores.1, hprocess]
  simp only [Reaction.finish, appendData, ← hreset]
  simp

/-- **One message.** A handler that returns has nothing left of the message; it ignored it, or got on. -/
theorem readHandler_of_returned (hreset : fs.fsMsg = .reset) (hcomplete : (FsMessage.reset.append M).bComplete = true)
    (h : (fs.readHandler (some M) io).exit = .returned) :
    (fs.readHandler (some M) io).fs.fsMsg = .reset ∧
      (fs.Ignores (FsMessage.reset.append M) ∨ fs.progress < (fs.readHandler (some M) io).fs.progress) := by
  have hmsg := appendData_of_reset hreset M
  rw [← hmsg] at hcomplete ⊢
  change ((fs.appendData M).processData io).exit = _ at h
  change ((fs.appendData M).processData io).fs.fsMsg = _ ∧
    ((fs.appendData M).Ignores _ ∨ (fs.appendData M).progress < ((fs.appendData M).processData io).fs.progress)
  generalize fs.appendData M = fs at hcomplete h ⊢
  cases hnotice : isDisconnectNotice fs.fsMsg with
  -- A notice is never the end of a handler that returns.
  | true =>
    rw [processData, hcomplete, hnotice] at h
    cases io <;> simp at h
  | false =>
    rw [processData_complete hcomplete hnotice] at h ⊢
    cases hprocess : fs.processMessage with
    | none =>
      rw [hprocess] at h
      simp at h
    | some r =>
      rw [hprocess] at h
      obtain ⟨hreset, hprogress⟩ := finish_of_returned h
      refine ⟨hreset, ?_⟩
      rcases processMessage_progress hnotice hprocess with ⟨hignores, -⟩ | hlt
      · exact .inl hignores
      · exact .inr (lt_of_lt_of_eq hlt hprogress.symm)

/-! ## A request or a reply -/

/-- What a request or a reply leads to, unless the answer cannot be written. -/
def answered (fs : FsInstance) (m : FsMessage) : FsInstance :=
  match fs.state with
  | .waitingForGreeting =>
    if m.category ≠ .auth then fs.startTimer 5000
    else { fs with state := .authenticating, sent := fs.sent ++ [Command.auth] }.asyncReadSome
  | .authenticating =>
    if m.replyStatus ≠ .ok then { fs with state := .authenticationFailed }.startTimer 5000
    else { fs with state := .obtainingSipConfiguration, sent := fs.sent ++ [Command.sofiaStatus] }.asyncReadSome
  | _ => fs

/-- There is something to write. -/
def Writes (fs : FsInstance) (m : FsMessage) : Prop :=
  fs.state = .waitingForGreeting ∧ m.category = .auth ∨ fs.state = .authenticating ∧ m.replyStatus = .ok

/-- A request or a reply is no answer to an `api` command, and no notice. -/
theorem plain_of_type {m : FsMessage} (h : m.type = .request ∨ m.type = .reply) :
    isApiResponse m = false ∧ isDisconnectNotice m = false := by
  rcases h with h | h <;> simp [isApiResponse, isDisconnectNotice, h]

/-- A request or a reply that needs no answer, or can be answered. -/
theorem readHandler_answered (hreset : fs.fsMsg = .reset) (hcomplete : (FsMessage.reset.append M).bComplete = true)
    (htype : (FsMessage.reset.append M).type = .request ∨ (FsMessage.reset.append M).type = .reply)
    (hio : io = true ∨ ¬fs.Writes (FsMessage.reset.append M)) :
    fs.readHandler (some M) io = { fs := fs.answered (FsMessage.reset.append M) } := by
  obtain ⟨hapi, hnotice⟩ := plain_of_type htype
  have hmsg := appendData_of_reset hreset M
  have hstate : (fs.appendData M).state = fs.state := rfl
  rw [← hmsg] at hcomplete hapi hnotice hio
  change (fs.appendData M).processData io = _
  rw [processData_complete hcomplete hnotice, ← hmsg]
  unfold processMessage answered
  rw [hstate]
  cases hs : fs.state with
  | waitingForGreeting =>
    by_cases hcat : (fs.appendData M).fsMsg.category = .auth
    · obtain rfl : io = true := hio.resolve_right fun h => h (.inl ⟨hs, hcat⟩)
      rw [if_neg (not_not.2 hcat), if_neg (not_not.2 hcat)]
      simp [Reaction.finish, appendData, asyncReadSome, hreset]
    · rw [if_pos hcat, if_pos hcat]
      simp [Reaction.finish, appendData, startTimer, hs, hreset]
  | authenticating =>
    by_cases hst : (fs.appendData M).fsMsg.replyStatus = .ok
    · obtain rfl : io = true := hio.resolve_right fun h => h (.inr ⟨hs, hst⟩)
      rw [if_neg (not_not.2 hst), if_neg (not_not.2 hst)]
      simp [Reaction.finish, appendData, asyncReadSome, hreset]
    · rw [if_pos hst, if_pos hst]
      simp [Reaction.finish, appendData, startTimer, hreset]
  | _ =>
    simp only [hapi, Bool.false_eq_true, if_false]
    simp only [Reaction.finish, appendData, ← hreset]
    simp

/-- A request or a reply whose answer cannot be written stays. -/
theorem readHandler_of_writes (hreset : fs.fsMsg = .reset) (hcomplete : (FsMessage.reset.append M).bComplete = true)
    (htype : (FsMessage.reset.append M).type = .request ∨ (FsMessage.reset.append M).type = .reply)
    (hwrites : fs.Writes (FsMessage.reset.append M)) :
    (fs.readHandler (some M) false).exit = .systemError ∧
      (fs.readHandler (some M) false).fs.fsMsg = FsMessage.reset.append M := by
  obtain ⟨-, hnotice⟩ := plain_of_type htype
  have hmsg := appendData_of_reset hreset M
  have hstate : (fs.appendData M).state = fs.state := rfl
  rw [← hmsg] at hcomplete hnotice hwrites ⊢
  change ((fs.appendData M).processData false).exit = _ ∧ ((fs.appendData M).processData false).fs.fsMsg = _
  rw [processData_complete hcomplete hnotice]
  unfold processMessage
  rcases hwrites with ⟨hs, hcat⟩ | ⟨hs, hst⟩
  · simp [hstate, hs, hcat, Reaction.finish]
  · simp [hstate, hs, hst, Reaction.finish]

/-- What the answer depends on. -/
theorem answered_congr {m m' : FsMessage} (hcat : m'.category = m.category) (hst : m'.replyStatus = m.replyStatus) :
    fs.answered m' = fs.answered m := by
  unfold answered
  rw [hcat, hst]

theorem writes_congr {m m' : FsMessage} (hcat : m'.category = m.category) (hst : m'.replyStatus = m.replyStatus) :
    fs.Writes m' ↔ fs.Writes m := by
  unfold Writes
  rw [hcat, hst]

/-- Nothing is read for the moment, before and after the answer. -/
theorem answered_fsMsg (m : FsMessage) : (fs.answered m).fsMsg = fs.fsMsg := by
  unfold answered asyncReadSome startTimer
  split
  · split_ifs <;> rfl
  · split_ifs <;> rfl
  · rfl

/-- After the answer, the greeting and the reply to the password are still not ignored. -/
theorem ignores_answered_iff {m n : FsMessage} :
    (fs.answered m).Ignores n ↔ isDisconnectNotice n = false ∧ fs.state ≠ .waitingForGreeting ∧
      (fs.state = .authenticating ∧ m.replyStatus = .ok ∨ fs.state = .obtainingSipConfiguration ∨
        fs.state = .queryingStatus → isApiResponse n = false) := by
  unfold Ignores
  refine and_congr_right fun _ => ?_
  cases hs : fs.state with
  | waitingForGreeting =>
    by_cases hcat : m.category = .auth <;> simp [answered, hs, hcat, asyncReadSome, startTimer]
  | authenticating =>
    by_cases hst : m.replyStatus = .ok <;> simp [answered, hs, hst, asyncReadSome, startTimer]
  | _ => simp [answered, hs]

/-! ## Several messages -/

variable {l : List (Bytes × Bool)}

theorem readEach_cons_of_returned (h : (fs.readHandler (some M) io).exit = .returned) (l : List (Bytes × Bool)) :
    fs.readEach ((M, io) :: l) =
      { (fs.readHandler (some M) io).fs.readEach l with
        notified := (fs.readHandler (some M) io).notified.toList ++
          ((fs.readHandler (some M) io).fs.readEach l).notified } := by
  rw [readEach, h]

/-- Nothing was thrown at the first read. -/
theorem returned_of_exceptions (h : (fs.readEach ((M, io) :: l)).exceptions = []) :
    (fs.readHandler (some M) io).exit = .returned := by
  rw [readEach] at h
  split at h <;> simp_all

/-- Messages that are ignored leave no trace. -/
theorem readEach_of_ignores (hreset : fs.fsMsg = .reset)
    (hcomplete : ∀ d ∈ l, (FsMessage.reset.append d.1).bComplete = true)
    (hignores : ∀ d ∈ l, fs.Ignores (FsMessage.reset.append d.1)) : fs.readEach l = { fs := fs } := by
  induction l with
  | nil => rfl
  | cons d l ih =>
    rw [List.forall_mem_cons] at hcomplete hignores
    have hd := readHandler_of_ignores hreset hcomplete.1 hignores.1 d.2
    rw [readEach, hd]
    simp [ih hcomplete.2 hignores.2]

/-- **Each for itself.** If nothing is thrown, nothing is left of the messages; all were ignored, or
    the instance got on. -/
theorem readEach_of_exceptions (hreset : fs.fsMsg = .reset)
    (hcomplete : ∀ d ∈ l, (FsMessage.reset.append d.1).bComplete = true) (h : (fs.readEach l).exceptions = []) :
    (fs.readEach l).fs.fsMsg = .reset ∧
      ((∀ d ∈ l, fs.Ignores (FsMessage.reset.append d.1)) ∨ fs.progress < (fs.readEach l).fs.progress) := by
  induction l generalizing fs with
  | nil => exact ⟨hreset, .inl (by simp)⟩
  | cons d l ih =>
    obtain ⟨M, io⟩ := d
    obtain ⟨hM, hl⟩ := List.forall_mem_cons.1 hcomplete
    have hreturned := returned_of_exceptions h
    obtain ⟨hreset', hone⟩ := readHandler_of_returned hreset hM hreturned
    rw [readEach_cons_of_returned hreturned] at h ⊢
    obtain ⟨hmsg, hrest⟩ := ih hreset' hl h
    refine ⟨hmsg, ?_⟩
    -- Either the first message left no trace, or progress was made, and none is ever lost.
    rcases hone with hignores | hlt
    · -- It left no trace, so the others are read as if it had not been there.
      have hfs : (fs.readHandler (some M) io).fs = fs := by rw [readHandler_of_ignores hreset hM hignores]
      rw [hfs] at hrest ⊢
      exact hrest.imp_left fun hall => List.forall_mem_cons.2 ⟨hignores, hall⟩
    · right
      rcases hrest with hall | hlt'
      · rwa [readEach_of_ignores hreset' hl hall]
      · exact Nat.lt_trans hlt hlt'

/-- There is no trace of messages only if they are ignored. -/
theorem readEach_eq_iff (hreset : fs.fsMsg = .reset)
    (hcomplete : ∀ d ∈ l, (FsMessage.reset.append d.1).bComplete = true) :
    fs.readEach l = { fs := fs } ↔ ∀ d ∈ l, fs.Ignores (FsMessage.reset.append d.1) := by
  refine ⟨fun h => ?_, readEach_of_ignores hreset hcomplete⟩
  obtain ⟨-, hall | hlt⟩ := readEach_of_exceptions hreset hcomplete (by rw [h])
  · exact hall
  · rw [h] at hlt
    exact absurd hlt (Nat.lt_irrefl _)

variable {rest : List Bytes}

/-- Reads that take one message each. -/
theorem forall_mem_zip_iff {p : Bytes → Prop} {ios : List Bool} (hios : ios.length = rest.length) :
    (∀ d ∈ rest.zip ios, p d.1) ↔ ∀ N ∈ rest, p N := by
  have hmap : (rest.zip ios).map Prod.fst = rest := List.map_fst_zip (Nat.le_of_eq hios.symm)
  conv_rhs => rw [← hmap]
  exact List.forall_mem_map.symm

theorem lines_flatten_ne_nil (hne : rest ≠ []) (h : ∀ N ∈ rest, (FsMessage.reset.append N).bComplete = true) :
    lines rest.flatten ≠ [] := by
  obtain ⟨N, rest, rfl⟩ := List.exists_cons_of_ne_nil hne
  rw [List.flatten_cons]
  exact FsMessage.lines_ne_nil_of_complete (h N List.mem_cons_self) rest.flatten

theorem readEach_singleton_of_returned {o : FsInstance} (h : fs.readHandler (some M) io = { fs := o }) :
    fs.readEach [(M, io)] = { fs := o } := by
  rw [readEach, h]
  rfl

/-- Messages that may be read at once. -/
theorem Harmless.readEach_eq (h : fs.Harmless M rest) (hreset : fs.fsMsg = .reset) (hne : rest ≠ [])
    (hcomplete : ∀ N ∈ M :: rest, (FsMessage.reset.append N).bComplete = true) (io : Bool) {ios : List Bool}
    (hios : ios.length = rest.length) :
    fs.readEach [(M ++ rest.flatten, io)] = fs.readEach ((M, io) :: rest.zip ios) := by
  obtain ⟨hM, hrest⟩ := List.forall_mem_cons.1 hcomplete
  obtain ⟨hcat, hty, hst, hkind⟩ :=
    FsMessage.first_of_complete hM (lines_flatten_ne_nil hne hrest) h.one.bComplete
  replace hkind := hkind.imp_right And.right
  have hwrites : ¬fs.Writes (FsMessage.reset.append M) := by
    rintro (⟨hs, -⟩ | ⟨hs, hok⟩)
    · exact h.greeting hs
    · exact h.reply hs hok
  have hwrites' : ¬fs.Writes (FsMessage.reset.append (M ++ rest.flatten)) :=
    fun hw => hwrites ((writes_congr hcat hst).1 hw)
  have hD : fs.readHandler (some (M ++ rest.flatten)) io = _ :=
    readHandler_answered hreset h.one.bComplete (hty.symm ▸ hkind) (.inr hwrites')
  rw [answered_congr hcat hst] at hD
  have hfirst : fs.readHandler (some M) io = _ := readHandler_answered hreset hM hkind (.inr hwrites)
  -- What the first message leads to ignores the others.
  have hignores : ∀ N ∈ rest, (fs.answered (FsMessage.reset.append M)).Ignores (FsMessage.reset.append N) := by
    intro N hN
    obtain ⟨hnotice, hapi⟩ := h.rest N hN
    refine ignores_answered_iff.2 ⟨hnotice, h.greeting, fun hs => hapi (hs.resolve_left ?_)⟩
    exact fun hs => h.reply hs.1 hs.2
  have heach := readEach_of_ignores ((answered_fsMsg _).trans hreset) ((forall_mem_zip_iff hios).2 hrest)
    ((forall_mem_zip_iff hios).2 hignores)
  rw [readEach_singleton_of_returned hD, readEach_cons_of_returned (by rw [hfirst]), hfirst, heach]
  rfl

/-- What is not complete is kept, and more is read. -/
theorem readHandler_of_incomplete (hreset : fs.fsMsg = .reset)
    (h : (FsMessage.reset.append D).bComplete = false) (io : Bool) :
    fs.readHandler (some D) io = { fs := (fs.appendData D).asyncReadSome } := by
  rw [readHandler, processData, appendData_of_reset hreset, h]
  rfl

/-- Messages are complete when they are read at once, or there would be something left of them. -/
theorem complete_of_readEach_eq (hreset : fs.fsMsg = .reset) (hne : D ≠ [])
    (hcomplete : ∀ d ∈ l, (FsMessage.reset.append d.1).bComplete = true)
    (h : fs.readEach [(D, io)] = fs.readEach l) : (FsMessage.reset.append D).bComplete = true := by
  by_contra hD
  rw [readEach_singleton_of_returned (readHandler_of_incomplete hreset (Bool.eq_false_iff.2 hD) io)] at h
  -- After reads of complete messages nothing is left, but here all of `D` would be.
  obtain ⟨hmsg, -⟩ := readEach_of_exceptions hreset hcomplete (by rw [← h])
  rw [← h] at hmsg
  have hraw : (FsMessage.reset.append D).rawMsg = [] :=
    congrArg FsMessage.rawMsg ((appendData_of_reset hreset D).symm.trans hmsg)
  rw [FsMessage.append_rawMsg] at hraw
  exact hne hraw

/-- Messages that are read at once as if each was read for itself. -/
theorem harmless_of_readEach_eq (hreset : fs.fsMsg = .reset) (hne : rest ≠ [])
    (hcomplete : ∀ N ∈ M :: rest, (FsMessage.reset.append N).bComplete = true)
    (h : ∀ io ios, ios.length = rest.length →
      fs.readEach [(M ++ rest.flatten, io)] = fs.readEach ((M, io) :: rest.zip ios)) : fs.Harmless M rest := by
  obtain ⟨hM, hrest⟩ := List.forall_mem_cons.1 hcomplete
  have hlines := lines_flatten_ne_nil hne hrest
  have hflatten : rest.flatten ≠ [] := fun hnil => hlines (by rw [hnil]; rfl)
  have hios : (List.replicate rest.length true).length = rest.length := List.length_replicate
  have hzip := (forall_mem_zip_iff hios).2 hrest
  have hD : (FsMessage.reset.append (M ++ rest.flatten)).bComplete = true :=
    complete_of_readEach_eq hreset (by simp [hflatten])
      (List.forall_mem_cons.2 ⟨hM, hzip⟩) (h true _ hios)
  obtain ⟨hcat, hty, hst, hkind⟩ := FsMessage.first_of_complete hM hlines hD
  replace hkind := hkind.imp_right And.right
  have hkind' : (FsMessage.reset.append (M ++ rest.flatten)).type = .request ∨ _ := hty.symm ▸ hkind
  -- If all can be written, the others must leave no trace after the first one.
  have hfirst : fs.readHandler (some M) true = _ := readHandler_answered hreset hM hkind (.inl rfl)
  have hignores : ∀ N ∈ rest, (fs.answered (FsMessage.reset.append M)).Ignores (FsMessage.reset.append N) := by
    refine (forall_mem_zip_iff hios).1 ((readEach_eq_iff ((answered_fsMsg _).trans hreset) hzip).1 ?_)
    have heq := h true _ hios
    rw [readEach_singleton_of_returned (readHandler_answered hreset hD hkind' (.inl rfl)),
      readEach_cons_of_returned (by rw [hfirst]), hfirst, answered_congr hcat hst] at heq
    exact heq.symm
  obtain ⟨N, hN⟩ := List.exists_mem_of_ne_nil rest hne
  have hgreeting := (ignores_answered_iff.1 (hignores N hN)).2.1
  refine ⟨(FsMessage.oneMessage_iff hM hlines).2 hD, hgreeting, fun hs hok => ?_, fun N hN => ?_⟩
  · -- If the command cannot be written, what was read stays, which is more at once.
    have hwrites : fs.Writes (FsMessage.reset.append M) := .inr ⟨hs, hok⟩
    obtain ⟨hexit, hmsg⟩ := readHandler_of_writes hreset hM hkind hwrites
    obtain ⟨hexit', hmsg'⟩ := readHandler_of_writes hreset hD hkind' ((writes_congr hcat hst).2 hwrites)
    have heq := congrArg (fun d => d.fs.fsMsg.rawMsg) (h false _ hios)
    simp only [readEach, hexit, hexit', hmsg, hmsg', FsMessage.append_rawMsg] at heq
    exact hflatten (by simpa using heq)
  · obtain ⟨hnotice, -, hapi⟩ := ignores_answered_iff.1 (hignores N hN)
    exact ⟨hnotice, fun hs => hapi (.inr hs)⟩

/-- **Messages that are read at once.** They are handled as if each had been read for itself exactly if
    it is one message, or they may be read at once. -/
theorem readEach_coalesced_iff (hreset : fs.fsMsg = .reset)
    (hcomplete : ∀ N ∈ M :: rest, (FsMessage.reset.append N).bComplete = true) :
    (∀ io ios, ios.length = rest.length →
        fs.readEach [(M ++ rest.flatten, io)] = fs.readEach ((M, io) :: rest.zip ios)) ↔
      rest = [] ∨ fs.Harmless M rest := by
  by_cases hne : rest = []
  · subst hne
    simp
  · constructor
    · exact fun h => .inr (harmless_of_readEach_eq hreset hne hcomplete h)
    · exact fun h io ios hios => (h.resolve_left hne).readEach_eq hreset hne hcomplete io hios

end

/-- A server that is asked for its status. -/
def exampleServer : FsInstance := { strAddress := [], nEventSocketPort := 8021, state := .queryingStatus }

def exampleRequest : Bytes := "Content-Type: auth/request\n\n".toList

/-- Two requests, which are not waited for any more. -/
theorem readEach_exampleRequest :
    exampleServer.readEach [(exampleRequest ++ [exampleRequest].flatten, true)] =
      exampleServer.readEach ((exampleRequest, true) :: [exampleRequest].zip [true]) := by
  have hone : FsMessage.OneMessage (exampleRequest ++ [exampleRequest].flatten) :=
    ⟨"auth".toList, "request".toList, ["Content-Type: auth/request".toList], by decide,
      .inl ⟨by decide, by decide, by decide⟩⟩
  exact (readEach_coalesced_iff rfl (by decide)).2 (.inr ⟨hone, by decide, by decide, by decide⟩) true [true] rfl

/-- The answers to `reloadxml` and to `status`, read at once, are both lost. -/
theorem readEach_coalesced_ne :
    ¬∀ (fs : FsInstance) (M : Bytes) (rest : List Bytes), fs.fsMsg = .reset →
      (∀ N ∈ M :: rest, (FsMessage.reset.append N).bComplete = true) → ∀ io ios, ios.length = rest.length →
      fs.readEach [(M ++ rest.flatten, io)] = fs.readEach ((M, io) :: rest.zip ios) := by
  intro h
  have heq := h { exampleServer with bReloadingXml := true }
    "Content-Type: api/response\nContent-Length: 4\n+OK\n".toList
    ["Content-Type: api/response\nContent-Length: 3\nUP\n".toList] rfl (by decide) true [true] rfl
  exact absurd (congrArg (fun d => d.fs.bReloadingXml) heq) (by decide)

end FsInstance

end Ssp
