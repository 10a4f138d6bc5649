import Ssp.Fs.Reads
import Ssp.Lib.Trail

/-!
# The conversation with a server

On the event socket, the server speaks first: it greets, and an instance authenticates, asks for
the SIP profiles, and then for the status again and again. Each of this is said only once the
message before it was heard, and `reloadxml` only when all of it is done. `Talk` is the order of
what is said and heard on one connection, and `courteous_of_reachable` that every run keeps to it.

When a server disconnects, the operations that are pending are cancelled: the socket is closed, and
the timer is set anew. What is cancelled completes with an error, unless it was done before
(`Prompt`). In that case, the timer of the old connection may go off while the new one is being
opened.
-/

namespace Ssp

/-- What passes between an instance and its server. -/
inductive Utterance
  | heard (m : FsMessage)
  | said (command : Command)

/-- How far a conversation has come. -/
inductive Talk
  | connected
  | greeted
  | authenticating
  | accepted
  | asking
  | online
  /-- The server has answered something else. -/
  | refused
  /-- It has disconnected. -/
  | closed
  deriving DecidableEq, Repr

/-- The message is the answer that an instance looks for its SIP address in, and finds it. -/
def FsMessage.hasProfile (m : FsMessage) : Bool :=
  FsInstance.isApiResponse m &&
    match m.getSipProfile "internal".toList with
    | .found _ _ => true
    | .notFound | .asserts => false

namespace Talk

/-- What may come next. -/
def next : Talk → Utterance → Option Talk
  | refused, _ | closed, _ => none
  | greeted, .said .auth => some authenticating
  | accepted, .said .sofiaStatus => some asking
  | online, .said .status | online, .said .reloadxml => some online
  | connected, .heard m =>
    some (if FsInstance.isDisconnectNotice m then closed else if m.category = .auth then greeted else refused)
  | authenticating, .heard m =>
    some (if FsInstance.isDisconnectNotice m then closed else if m.replyStatus = .ok then accepted else refused)
  | asking, .heard m =>
    some (if FsInstance.isDisconnectNotice m then closed else if m.hasProfile then online else refused)
  | online, .heard m => some (if FsInstance.isDisconnectNotice m then closed else online)
  | _, _ => none

/-- The commands that were said when a conversation has come so far. -/
def Commands : Talk → List Command → Prop
  | connected, cs | greeted, cs => cs = []
  | authenticating, cs | accepted, cs => cs = [.auth]
  | asking, cs => cs = [.auth, .sofiaStatus]
  | online, cs => ∃ rest, cs = .auth :: .sofiaStatus :: rest ∧ ∀ c ∈ rest, c = .status ∨ c = .reloadxml
  | refused, cs | closed, cs =>
    cs = [] ∨ cs = [.auth] ∨ ∃ rest, cs = .auth :: .sofiaStatus :: rest ∧ ∀ c ∈ rest, c = .status ∨ c = .reloadxml

end Talk

/-- A conversation. -/
def talk : Course Talk Utterance where
  start := .connected
  step := Talk.next
  final s := s = .refused ∨ s = .closed

/-- The commands in a conversation. -/
def Utterance.command? : Utterance → Option Command
  | .heard _ => none
  | .said c => some c

namespace Talk

section

variable {s s' : Talk} {cs : List Command} {m : FsMessage}

/-- What is heard says nothing. -/
theorem Commands.heard (h : s.Commands cs) (hs : s.next (.heard m) = some s') : s'.Commands cs := by
  cases s with
  | connected | authenticating | asking =>
    obtain rfl := Option.some_inj.1 hs
    split_ifs
    · simp_all [Commands]
    · simp_all [Commands]
    · simp_all [Commands]
  | online =>
    obtain rfl := Option.some_inj.1 hs
    split_ifs
    · exact .inr (.inr h)
    · exact h
  | greeted | accepted | refused | closed => cases hs

/-- What is said comes after the rest. -/
theorem Commands.said {c : Command} (h : s.Commands cs) (hs : s.next (.said c) = some s') :
    s'.Commands (cs ++ [c]) := by
  have hrest : s = .online → s' = .online → (c = .status ∨ c = .reloadxml) → s'.Commands (cs ++ [c]) := by
    rintro rfl rfl hc
    obtain ⟨rest, rfl, hrest⟩ := h
    refine ⟨rest ++ [c], rfl, fun c' hc' => ?_⟩
    rcases List.mem_append.1 hc' with hc' | hc'
    · exact hrest c' hc'
    · exact List.mem_singleton.1 hc' ▸ hc
  cases s with
  | greeted =>
    cases c with
    | auth =>
      obtain rfl := Option.some_inj.1 hs
      exact congrArg (· ++ [Command.auth]) h
    | sofiaStatus | status | reloadxml => cases hs
  | accepted =>
    cases c with
    | sofiaStatus =>
      obtain rfl := Option.some_inj.1 hs
      exact congrArg (· ++ [Command.sofiaStatus]) h
    | auth | status | reloadxml => cases hs
  | online =>
    cases c with
    | status => exact hrest rfl (Option.some_inj.1 hs).symm (.inl rfl)
    | reloadxml => exact hrest rfl (Option.some_inj.1 hs).symm (.inr rfl)
    | auth | sofiaStatus => cases hs
  | connected | authenticating | asking | refused | closed => cases c <;> cases hs

end

/-- The commands of a conversation are those of its stage. -/
theorem commands_of_stage {log : List Utterance} {s : Talk} (h : talk.stage log = some s) :
    s.Commands (log.filterMap Utterance.command?) := by
  induction log using List.reverseRecOn generalizing s with
  | nil =>
    obtain rfl : Talk.connected = s := Option.some_inj.1 h
    rfl
  | append_singleton log u ih =>
    rw [talk.stage_concat] at h
    obtain ⟨s₀, hs₀, hs⟩ := Option.bind_eq_some_iff.1 h
    rw [List.filterMap_append]
    cases u with
    | heard m =>
      rw [show [Utterance.heard m].filterMap Utterance.command? = [] from rfl, List.append_nil]
      exact (ih hs₀).heard hs
    | said c => exact (ih hs₀).said hs

end Talk

/-! ## Runs -/

/-- An instance, the operations that were cancelled, and what was said and heard on the
    connection. -/
structure Conversation where
  fs : FsInstance
  stale : List Op := []
  log : List Utterance := []

namespace Conversation

open FsInstance

/-- The operation has failed. -/
def fails : Completion → Bool
  | .resolve left => left.isNone
  | .connect _ ok | .timer _ ok => !ok
  | .read data => data.isNone

/-- The message that is complete with what was read. -/
def heard (fs : FsInstance) : FsEvent → List Utterance
  | .completed (.read (some data)) _ =>
    if (fs.appendData data).fsMsg.bComplete then [.heard (fs.appendData data).fsMsg] else []
  | _ => []

/-- The commands that were written. -/
def said (fs fs' : FsInstance) : List Utterance := (fs'.sent.drop fs.sent.length).map .said

/-- What is cancelled and has not completed yet: with a disconnect notice, all that is pending. -/
def cancelled (x : Conversation) (e : FsEvent) : List Op :=
  match e with
  | .completed c _ =>
    if (x.fs.step e).exit = .fsDisconnectException then x.fs.ops.erase c.op
    else if fails c then x.stale.erase c.op else x.stale
  | .reloadxml _ => x.stale

def next (x : Conversation) (e : FsEvent) : Conversation where
  fs := (x.fs.step e).fs
  stale := x.cancelled e
  log :=
    match e with
    | .completed (.connect _ true) _ => []
    | _ => x.log ++ heard x.fs e ++ said x.fs (x.fs.step e).fs

/-- What succeeds was not cancelled. -/
def Prompt (x : Conversation) : FsEvent → Prop
  | .completed c _ => fails c = false → x.stale.count c.op < x.fs.ops.count c.op
  | .reloadxml _ => True

/-- The runs of an instance, as long as no write and no close of the socket fails: that ends the
    loop that runs its handlers. -/
def machine : Machine Conversation FsEvent where
  init := { x | x.fs ∈ FsInstance.machine.init ∧ x.stale = [] ∧ x.log = [] }
  enabled x e := FsInstance.machine.enabled x.fs e ∧ (x.fs.step e).exit ≠ .systemError ∧ x.Prompt e
  next := next

/-! ## What is pending, and for what -/

/-- The operations that are pending in a state, if none is left from an earlier connection. -/
def Expects : ConnectionState → Op → Talk → Prop
  | .resolving, .resolve, _ => True
  | .connecting, .connect _, _ => True
  | .waitingForGreeting, .read, s => s = .connected
  | .authenticating, .read, s => s = .authenticating
  | .obtainingSipConfiguration, .read, s => s = .asking
  | .queryingStatus, .read, _ | .queryingStatus, .timer _, _ => True
  | .starting, .timer _, _ | .resolveFailed, .timer _, _ | .connectFailed, .timer _, _ => True
  | .waitingForGreeting, .timer _, _ | .authenticationFailed, .timer _, _ => True
  | .obtainingSipConfigurationFailed, .timer _, _ => True
  | _, _, _ => False

/-- The state of an instance against its conversation. -/
structure At (state : ConnectionState) (live : List Op) (s : Talk) : Prop where
  expects : ∀ o ∈ live, Expects state o s
  single : state ≠ .queryingStatus → live.length ≤ 1
  online : state = .queryingStatus → s = .online

/-- What holds in every run; `live` is what was not cancelled. -/
def Inv (x : Conversation) : Prop :=
  ∃ live s, x.fs.ops.Perm (live ++ x.stale) ∧ (∀ o ∈ x.stale, isOpening o = false) ∧
    talk.stage x.log = some s ∧ At x.fs.state live s

/-- What an operation that was not cancelled leads to; `rest` is what else was not. -/
def Leads (x : Conversation) (e : FsEvent) (ops rest : List Op) : Prop :=
  ∃ new s, (x.fs.step e).fs.ops = new ++ ops ∧ talk.stage (x.next e).log = some s ∧
    At (x.fs.step e).fs.state (if (x.fs.step e).exit = .fsDisconnectException then new else new ++ rest) s

section

variable {x : Conversation} {state : ConnectionState} {live rest : List Op} {o : Op} {s s' : Talk} {io : Bool}

/-- Outside of `querying_status` there is but one operation. -/
theorem At.rest_eq_nil (h : At state live s) (hstate : state ≠ .queryingStatus) (ho : o ∈ live) :
    live.erase o = [] := by
  refine List.length_eq_zero_iff.1 ?_
  have hlen := h.single hstate
  rw [List.length_erase_of_mem ho]
  omega

/-- A state that is not `querying_status`, with one operation or none. -/
theorem At.of_le_one {new : List Op} (hstate : state ≠ .queryingStatus) (hlen : new.length ≤ 1)
    (hnew : ∀ o ∈ new, Expects state o s) : At state new s :=
  ⟨hnew, fun _ => hlen, fun h => absurd h hstate⟩

theorem At.querying {new : List Op} (h : At .queryingStatus live s) (hrest : ∀ o ∈ rest, o ∈ live)
    (hnew : ∀ o ∈ new, o = .read ∨ ∃ n, o = .timer n) : At .queryingStatus (new ++ rest) .online := by
  refine ⟨fun o ho => ?_, fun hne => absurd rfl hne, fun _ => rfl⟩
  have hany : ∀ {o : Op} {s s' : Talk}, Expects .queryingStatus o s → Expects .queryingStatus o s' := by
    intro o s s' h
    cases o with
    | read | timer => trivial
    | resolve | connect => exact h.elim
  rcases List.mem_append.1 ho with ho | ho
  · rcases hnew o ho with rfl | ⟨n, rfl⟩ <;> trivial
  · exact hany (h.expects o (hrest o ho))

/-- The commands that a handler has written. -/
theorem said_of_sent {fs fs' : FsInstance} (out : List Command) (h : fs'.sent = fs.sent ++ out) :
    said fs fs' = out.map .said := by
  rw [said, h, List.drop_left]

/-- A message that is heard, and what is said then. -/
theorem stage_append {us : List Utterance} (hs : talk.stage x.log = some s)
    (hus : us.foldlM Talk.next s = some s') : talk.stage (x.log ++ us) = some s' := by
  rw [Course.stage, List.foldlM_append]
  change (talk.stage x.log).bind (fun s => us.foldlM Talk.next s) = _
  rw [hs]
  exact hus

/-- A handler that neither hears nor says anything. -/
theorem log_silent {fs' : FsInstance} (hsent : fs'.sent = x.fs.sent) : x.log ++ [] ++ said x.fs fs' = x.log := by
  rw [said, hsent, List.drop_length, List.map_nil, List.append_nil, List.append_nil]

theorem stage_silent (hs : talk.stage x.log = some s) {fs' : FsInstance} (hsent : fs'.sent = x.fs.sent) :
    talk.stage (x.log ++ [] ++ said x.fs fs') = some s := by
  rw [log_silent hsent]
  exact hs

/-! ## The handlers -/

theorem leads_resolve (h : At x.fs.state live s) (hs : talk.stage x.log = some s) (left : Option ℕ)
    (hlive : Op.resolve ∈ live) :
    x.Leads (.completed (.resolve left) io) (x.fs.ops.erase .resolve) (live.erase .resolve) := by
  have hstate : x.fs.state = .resolving := by
    have hexpects := h.expects _ hlive
    cases hst : x.fs.state <;> rw [hst] at hexpects <;> first | rfl | exact hexpects.elim
  have hrest := h.rest_eq_nil (by rw [hstate]; decide) hlive
  cases left with
  | some left =>
    refine ⟨[.connect left], s, rfl, stage_silent hs rfl, ?_⟩
    rw [hrest]
    exact .of_le_one ConnectionState.noConfusion le_rfl fun o ho => List.mem_singleton.1 ho ▸ trivial
  | none =>
    refine ⟨[.timer 5000], s, rfl, stage_silent hs rfl, ?_⟩
    rw [hrest]
    exact .of_le_one ConnectionState.noConfusion le_rfl fun o ho => List.mem_singleton.1 ho ▸ trivial

theorem leads_connect (h : At x.fs.state live s) (hs : talk.stage x.log = some s) (left : ℕ) (ok : Bool)
    (hlive : Op.connect left ∈ live) (hexit : (x.fs.step (.completed (.connect left ok) io)).exit ≠ .systemError) :
    x.Leads (.completed (.connect left ok) io) (x.fs.ops.erase (.connect left)) (live.erase (.connect left)) := by
  have hstate : x.fs.state = .connecting := by
    have hexpects := h.expects _ hlive
    cases hst : x.fs.state <;> rw [hst] at hexpects <;> first | rfl | exact hexpects.elim
  have hrest := h.rest_eq_nil (by rw [hstate]; decide) hlive
  rw [hrest]
  cases ok with
  | true =>
    refine ⟨[.read], .connected, rfl, rfl, ?_⟩
    exact .of_le_one ConnectionState.noConfusion le_rfl fun o ho => List.mem_singleton.1 ho ▸ rfl
  | false =>
    cases left with
    | succ left =>
      cases io with
      | false => exact absurd rfl hexit
      | true =>
        refine ⟨[.connect left], s, rfl, stage_silent hs rfl, ?_⟩
        change At x.fs.state [.connect left] s
        rw [hstate]
        exact .of_le_one ConnectionState.noConfusion le_rfl fun o ho => List.mem_singleton.1 ho ▸ trivial
    | zero =>
      refine ⟨[.timer 5000], s, rfl, stage_silent hs rfl, ?_⟩
      exact .of_le_one ConnectionState.noConfusion le_rfl fun o ho => List.mem_singleton.1 ho ▸ trivial

theorem leads_timer (h : At x.fs.state live s) (hs : talk.stage x.log = some s) (n : ℕ)
    (hlive : Op.timer n ∈ live) (hexit : (x.fs.step (.completed (.timer n true) io)).exit ≠ .systemError) :
    x.Leads (.completed (.timer n true) io) (x.fs.ops.erase (.timer n)) (live.erase (.timer n)) := by
  have hexpects := h.expects _ hlive
  have hsilent : x.fs.state ≠ .queryingStatus → ((x.fs.step (.completed (.timer n true) io)).fs =
      { x.fs with ops := x.fs.ops.erase (.timer n) } ∧ (x.fs.step (.completed (.timer n true) io)).exit = .returned) →
      x.Leads (.completed (.timer n true) io) (x.fs.ops.erase (.timer n)) (live.erase (.timer n)) := by
    rintro hne ⟨hfs, hreturned⟩
    refine ⟨[], s, by rw [hfs]; rfl, stage_silent hs (by rw [hfs]), ?_⟩
    rw [hreturned, if_neg Exit.noConfusion, h.rest_eq_nil hne hlive, hfs]
    exact .of_le_one hne (Nat.zero_le _) fun o ho => absurd ho List.not_mem_nil
  have hstep : x.fs.step (.completed (.timer n true) io) =
      { x.fs with ops := x.fs.ops.erase (.timer n) }.timerHandler true io := rfl
  unfold timerHandler at hstep
  cases hst : x.fs.state with
  | starting =>
    simp only [hst, if_true] at hstep
    refine ⟨[.resolve], s, by rw [hstep]; rfl, stage_silent hs (by rw [hstep]; rfl), ?_⟩
    rw [h.rest_eq_nil (by rw [hst]; decide) hlive, hstep]
    exact .of_le_one ConnectionState.noConfusion le_rfl fun o ho => List.mem_singleton.1 ho ▸ trivial
  | connectFailed =>
    cases io with
    | false => exact absurd (by rw [hstep]; simp [hst]) hexit
    | true =>
      simp only [hst, if_true] at hstep
      refine ⟨[.resolve], s, by rw [hstep]; rfl, stage_silent hs (by rw [hstep]; rfl), ?_⟩
      rw [h.rest_eq_nil (by rw [hst]; decide) hlive, hstep]
      exact .of_le_one ConnectionState.noConfusion le_rfl fun o ho => List.mem_singleton.1 ho ▸ trivial
  | resolveFailed | waitingForGreeting | authenticationFailed | obtainingSipConfigurationFailed =>
    refine hsilent (by rw [hst]; decide) ?_
    rw [hstep]
    simp [hst]
  | queryingStatus =>
    cases io with
    | false => exact absurd (by rw [hstep]; simp [hst]) hexit
    | true =>
      simp only [hst, if_true] at hstep
      obtain rfl := h.online hst
      refine ⟨[.read], .online, by rw [hstep]; rfl, ?_, ?_⟩
      · change talk.stage (x.log ++ [] ++ said x.fs (x.fs.step _).fs) = _
        rw [List.append_nil, said_of_sent [.status] (by rw [hstep]; rfl)]
        exact stage_append hs rfl
      · rw [hstep]
        change At .queryingStatus ([.read] ++ live.erase (.timer n)) .online
        rw [hst] at h
        exact h.querying (fun o ho => List.mem_of_mem_erase ho) fun o ho => .inl (List.mem_singleton.1 ho)
  | resolving | connecting | authenticating | obtainingSipConfiguration | disconnecting =>
    rw [hst] at hexpects
    exact hexpects.elim

/-! ### Messages -/

/-- How an instance takes a message of a conversation that has come to `s`. -/
structure Takes (fs : FsInstance) (s : Talk) (r : Reaction) (s' : Talk) : Prop where
  ops : r.fs.ops = fs.ops
  sent : r.fs.sent = fs.sent
  next : ([Utterance.heard fs.fsMsg] ++ r.out.toList.map Utterance.said).foldlM Talk.next s = some s'
  single : (r.bReadAgain && r.bSetTimer) = false
  read : r.bReadAgain = true → Expects r.fs.state .read s'
  timer : r.bSetTimer = true → ∀ n, Expects r.fs.state (.timer n) s'
  online : r.fs.state = .queryingStatus → s' = .online
  stays : fs.state = .queryingStatus → r.fs.state = .queryingStatus

theorem takes_processMessage {fs : FsInstance} (hread : Expects fs.state .read s)
    (honline : fs.state = .queryingStatus → s = .online) (hnotice : isDisconnectNotice fs.fsMsg = false) {r : Reaction}
    (hr : fs.processMessage = some r) : ∃ s', Takes fs s r s' := by
  unfold processMessage at hr
  cases hst : fs.state with
  | waitingForGreeting =>
    rw [hst] at hread
    obtain rfl : s = .connected := hread
    simp only [hst] at hr
    split_ifs at hr with hauth
    · obtain rfl := Option.some_inj.1 hr
      exact ⟨.refused, rfl, rfl, by simp [Talk.next, hnotice, hauth], rfl, by simp, fun _ _ => by simp [hst, Expects],
        by simp [hst], by simp [hst]⟩
    · obtain rfl := Option.some_inj.1 hr
      exact ⟨.authenticating, rfl, rfl, by simp [Talk.next, hnotice, not_not.1 hauth], rfl, fun _ => rfl, by simp,
        by simp, by simp [hst]⟩
  | authenticating =>
    rw [hst] at hread
    obtain rfl : s = .authenticating := hread
    simp only [hst] at hr
    split_ifs at hr with hok
    · obtain rfl := Option.some_inj.1 hr
      exact ⟨.refused, rfl, rfl, by simp [Talk.next, hnotice, hok], rfl, by simp, fun _ _ => trivial, by simp,
        by simp [hst]⟩
    · obtain rfl := Option.some_inj.1 hr
      exact ⟨.asking, rfl, rfl, by simp [Talk.next, hnotice, not_not.1 hok], rfl, fun _ => rfl, by simp, by simp,
        by simp [hst]⟩
  | obtainingSipConfiguration =>
    rw [hst] at hread
    obtain rfl : s = .asking := hread
    simp only [hst] at hr
    split_ifs at hr with hapi
    · split at hr
      next => cases hr
      next hprofile =>
        have hhas : fs.fsMsg.hasProfile = false := by
          rw [FsMessage.hasProfile, hapi, hprofile]
          rfl
        obtain rfl := Option.some_inj.1 hr
        exact ⟨.refused, rfl, rfl, by simp [Talk.next, hnotice, hhas], rfl,
          by simp, fun _ _ => trivial, by simp, by simp [hst]⟩
      next address port hprofile =>
        have hhas : fs.fsMsg.hasProfile = true := by
          rw [FsMessage.hasProfile, hapi, hprofile]
          rfl
        obtain rfl := Option.some_inj.1 hr
        exact ⟨.online, rfl, rfl, by simp [Talk.next, hnotice, hhas], rfl,
          fun _ => trivial, by simp, fun _ => rfl, fun _ => rfl⟩
    · obtain rfl := Option.some_inj.1 hr
      exact ⟨.refused, rfl, rfl, by simp [Talk.next, hnotice, FsMessage.hasProfile, hapi], rfl, by simp,
        by simp, by simp [hst], by simp [hst]⟩
  | queryingStatus =>
    obtain rfl := honline hst
    simp only [hst] at hr
    -- Whatever the answer is, nothing is said then.
    have htakes : ∀ r : Reaction, r.fs.ops = fs.ops → r.fs.sent = fs.sent → r.out = none → r.bReadAgain = false →
        r.fs.state = .queryingStatus → ∃ s', Takes fs .online r s' := fun r hops hsent hout hagain hstate =>
      ⟨.online, hops, hsent, by simp [hout, Talk.next, hnotice], by simp [hagain], by simp [hagain],
        fun _ _ => hstate ▸ trivial, fun _ => rfl, fun _ => hstate⟩
    split_ifs at hr
    · obtain rfl := Option.some_inj.1 hr
      exact htakes _ rfl rfl rfl rfl rfl
    · split at hr
      · cases hr
      · split_ifs at hr
        · obtain rfl := Option.some_inj.1 hr
          exact htakes _ rfl rfl rfl rfl rfl
        · obtain rfl := Option.some_inj.1 hr
          exact htakes _ rfl rfl rfl rfl rfl
    · obtain rfl := Option.some_inj.1 hr
      exact htakes _ rfl rfl rfl rfl hst
  | starting | resolving | resolveFailed | connecting | connectFailed | authenticationFailed
  | obtainingSipConfigurationFailed | disconnecting =>
    rw [hst] at hread
    exact hread.elim

/-- What a reaction writes and starts, if the write succeeds. -/
theorem finish_frame {r : Reaction} (hsingle : (r.bReadAgain && r.bSetTimer) = false)
    (hexit : (r.finish io).exit ≠ .systemError) :
    (r.finish io).fs.sent = r.fs.sent ++ r.out.toList ∧ (r.finish io).fs.state = r.fs.state ∧
      (r.finish io).exit ≠ .fsDisconnectException ∧
      ∃ new : List Op, (r.finish io).fs.ops = new ++ r.fs.ops ∧ new.length ≤ 1 ∧
        ∀ o ∈ new, r.bReadAgain = true ∧ o = .read ∨ r.bSetTimer = true ∧ ∃ n, o = .timer n := by
  unfold Reaction.finish at hexit ⊢
  by_cases hw : (r.out.isSome && !io) = true
  · rw [if_pos hw] at hexit
    exact absurd rfl hexit
  · rw [if_neg hw]
    have hexits : ∀ b : Bool, (if b then Exit.fsReconnectException else .returned) ≠ .fsDisconnectException := by decide
    cases hagain : r.bReadAgain <;> cases htimer : r.bSetTimer
    · exact ⟨rfl, rfl, hexits _, [], rfl, Nat.zero_le _, by simp⟩
    · exact ⟨rfl, rfl, hexits _, [.timer _], rfl, le_rfl, by simp⟩
    · exact ⟨rfl, rfl, hexits _, [.read], rfl, le_rfl, by simp⟩
    · simp [hagain, htimer] at hsingle

/-- Who reads may hear a disconnect notice. -/
theorem next_notice (h : At state live s) (hlive : Op.read ∈ live) {m : FsMessage}
    (hnotice : isDisconnectNotice m = true) : s.next (.heard m) = some .closed := by
  have hexpects := h.expects _ hlive
  cases state with
  | waitingForGreeting =>
    rw [show s = .connected from hexpects, Talk.next, if_pos hnotice]
  | authenticating =>
    rw [show s = .authenticating from hexpects, Talk.next, if_pos hnotice]
  | obtainingSipConfiguration =>
    rw [show s = .asking from hexpects, Talk.next, if_pos hnotice]
  | queryingStatus => rw [h.online rfl, Talk.next, if_pos hnotice]
  | starting | resolving | resolveFailed | connecting | connectFailed | authenticationFailed
  | obtainingSipConfigurationFailed | disconnecting =>
    exact hexpects.elim

/-- The instance when its handler has added what was read to the message. -/
structure Reads (x : Conversation) (data : Bytes) (fs : FsInstance) : Prop where
  fsMsg : fs.fsMsg = (x.fs.appendData data).fsMsg
  state : fs.state = x.fs.state
  ops : fs.ops = x.fs.ops.erase .read
  sent : fs.sent = x.fs.sent

section

variable {fs : FsInstance} {data : Bytes} (h : At x.fs.state live s) (hs : talk.stage x.log = some s)
  (hlive : Op.read ∈ live) (hreads : x.Reads data fs)
  (hstep : x.fs.step (.completed (.read (some data)) io) = fs.processData io)

include h hs hlive hreads hstep

/-- The message is not complete, and is read on. -/
theorem leads_incomplete (hcomplete : fs.fsMsg.bComplete = false) :
    x.Leads (.completed (.read (some data)) io) (x.fs.ops.erase .read) (live.erase .read) := by
  have hdata : fs.processData io = { fs := fs.asyncReadSome } := by
    unfold processData
    rw [hcomplete]
    rfl
  rw [hdata] at hstep
  refine ⟨[.read], s, by rw [hstep, ← hreads.ops]; rfl, ?_, ?_⟩
  · change talk.stage (x.log ++ (if _ then [Utterance.heard _] else []) ++ said x.fs (x.fs.step _).fs) = _
    rw [← hreads.fsMsg, hcomplete, if_neg Bool.false_ne_true]
    exact stage_silent hs (by rw [hstep]; exact hreads.sent)
  · rw [hstep]
    change At fs.state ([.read] ++ live.erase .read) s
    rw [hreads.state]
    have hcons := (List.perm_cons_erase hlive).symm
    exact ⟨fun o ho => h.expects o (hcons.mem_iff.1 ho), fun hne => hcons.length_eq ▸ h.single hne, h.online⟩

/-- The connection is closed, and all that is pending is cancelled. -/
theorem leads_notice (hcomplete : fs.fsMsg.bComplete = true) (hnotice : isDisconnectNotice fs.fsMsg = true)
    (hexit : (fs.processData io).exit ≠ .systemError) :
    x.Leads (.completed (.read (some data)) io) (x.fs.ops.erase .read) (live.erase .read) := by
  have hdata : fs.processData io = if io then
      { fs := { fs with bDisconnected := true, state := .starting }.startTimer 1000, exit := .fsDisconnectException }
      else { fs := fs, exit := .systemError } := by
    unfold processData
    rw [hcomplete, hnotice]
    rfl
  rw [hdata] at hstep hexit
  cases io with
  | false => exact absurd rfl hexit
  | true =>
    rw [if_pos rfl] at hstep
    refine ⟨[.timer 1000], .closed, by rw [hstep, ← hreads.ops]; rfl, ?_, ?_⟩
    · change talk.stage (x.log ++ (if _ then [Utterance.heard _] else []) ++ said x.fs (x.fs.step _).fs) = _
      rw [← hreads.fsMsg, hcomplete, if_pos rfl, said_of_sent [], List.map_nil, List.append_nil]
      · refine stage_append hs ?_
        change (s.next _).bind some = some .closed
        rw [next_notice h hlive hnotice]
        rfl
      · rw [hstep, List.append_nil]
        exact hreads.sent
    · rw [hstep]
      exact .of_le_one ConnectionState.noConfusion le_rfl fun o ho => List.mem_singleton.1 ho ▸ trivial

/-- An answer, or anything else that is heard. -/
theorem leads_message (hcomplete : fs.fsMsg.bComplete = true) (hnotice : isDisconnectNotice fs.fsMsg = false)
    (hexit : (fs.processData io).exit ≠ .systemError) (haborted : (fs.processData io).exit ≠ .aborted) :
    x.Leads (.completed (.read (some data)) io) (x.fs.ops.erase .read) (live.erase .read) := by
  cases hr : fs.processMessage with
  | none =>
    refine absurd ?_ haborted
    unfold processData
    rw [hcomplete, hnotice, hr]
    rfl
  | some r =>
    have hdata : fs.processData io = r.finish io := by
      unfold processData
      rw [hcomplete, hnotice, hr]
      rfl
    rw [hdata] at hstep hexit
    obtain ⟨s', htakes⟩ : ∃ s', Takes fs s r s' :=
      takes_processMessage (hreads.state ▸ h.expects _ hlive) (hreads.state ▸ h.online) hnotice hr
    obtain ⟨hsent, hstate, hdisconnect, new, hops, hlen, hnew⟩ := finish_frame htakes.single hexit
    refine ⟨new, s', ?_, ?_, ?_⟩
    · rw [hstep, hops, htakes.ops, hreads.ops]
    · change talk.stage (x.log ++ (if _ then [Utterance.heard _] else []) ++ said x.fs (x.fs.step _).fs) = _
      rw [← hreads.fsMsg, hcomplete, if_pos rfl, said_of_sent r.out.toList, List.append_assoc]
      · exact stage_append hs htakes.next
      · rw [hstep, hsent, htakes.sent, hreads.sent]
    · rw [hstep, if_neg hdisconnect, hstate]
      by_cases hquerying : x.fs.state = .queryingStatus
      · have hstays := htakes.stays (hreads.state.trans hquerying)
        rw [hstays]
        obtain rfl := htakes.online hstays
        rw [hquerying] at h
        refine h.querying (fun o ho => List.mem_of_mem_erase ho) fun o ho => ?_
        exact (hnew o ho).imp And.right And.right
      · rw [h.rest_eq_nil hquerying hlive, List.append_nil]
        refine ⟨fun o ho => ?_, fun _ => hlen, htakes.online⟩
        rcases hnew o ho with ⟨hagain, rfl⟩ | ⟨htimer, n, rfl⟩
        · exact htakes.read hagain
        · exact htakes.timer htimer n

end

theorem leads_read (h : At x.fs.state live s) (hs : talk.stage x.log = some s) (data : Bytes) (hlive : Op.read ∈ live)
    (hexit : (x.fs.step (.completed (.read (some data)) io)).exit ≠ .systemError)
    (haborted : (x.fs.step (.completed (.read (some data)) io)).exit ≠ .aborted) :
    x.Leads (.completed (.read (some data)) io) (x.fs.ops.erase .read) (live.erase .read) := by
  obtain ⟨fs, hstep, hreads⟩ : ∃ fs, x.fs.step (.completed (.read (some data)) io) = fs.processData io ∧
      x.Reads data fs := ⟨{ x.fs with ops := x.fs.ops.erase .read }.appendData data, rfl, rfl, rfl, rfl, rfl⟩
  rw [hstep] at hexit haborted
  cases hcomplete : fs.fsMsg.bComplete with
  | false => exact leads_incomplete h hs hlive hreads hstep hcomplete
  | true =>
    cases hnotice : isDisconnectNotice fs.fsMsg with
    | true => exact leads_notice h hs hlive hreads hstep hcomplete hnotice hexit
    | false => exact leads_message h hs hlive hreads hstep hcomplete hnotice hexit haborted

/-! ## All runs -/

/-- Only what is read makes an instance cancel anything. -/
theorem read_of_disconnect {e : FsEvent} (h : (x.fs.step e).exit = .fsDisconnectException) :
    ∃ data io, e = .completed (.read (some data)) io := by
  cases e with
  | reloadxml io =>
    change (x.fs.reloadxml io).exit = _ at h
    unfold reloadxml at h
    split_ifs at h
  | completed c io =>
    cases c with
    | resolve left => cases left <;> cases h
    | connect left ok =>
      change (connectHandler _ ok left io).exit = _ at h
      unfold connectHandler at h
      split at h
      · cases h
      · split at h
        · split_ifs at h
        · cases h
    | read data =>
      cases data with
      | none => cases h
      | some data => exact ⟨data, io, rfl⟩
    | timer n ok =>
      change (timerHandler _ ok io).exit = _ at h
      unfold timerHandler at h
      split at h
      · split at h
        · cases h
        · split_ifs at h
        all_goals first | cases h | split_ifs at h
      · cases h

/-- Where a read is pending, no connection is being opened. -/
theorem At.not_opening (h : At state live s) (hlive : Op.read ∈ live) : ∀ o ∈ live, isOpening o = false := by
  intro o ho
  have hread := h.expects _ hlive
  have hexpects := h.expects o ho
  cases o with
  | read | timer n => rfl
  | resolve => cases state <;> first | exact hread.elim | exact hexpects.elim
  | connect left => cases state <;> first | exact hread.elim | exact hexpects.elim

theorem Inv.of_leads {c : Completion} (hperm : x.fs.ops.Perm (live ++ x.stale))
    (hstale : ∀ o ∈ x.stale, isOpening o = false) (h : At x.fs.state live s) (hlive : c.op ∈ live)
    (hfails : fails c = true → isOpening c.op = true)
    (hleads : x.Leads (.completed c io) (x.fs.ops.erase c.op) (live.erase c.op)) :
    (x.next (.completed c io)).Inv := by
  obtain ⟨new, s', hops, hstage, hat⟩ := hleads
  have herase : (x.fs.ops.erase c.op).Perm (live.erase c.op ++ x.stale) :=
    List.erase_append_left x.stale hlive ▸ hperm.erase c.op
  by_cases hexit : (x.fs.step (.completed c io)).exit = .fsDisconnectException
  · rw [if_pos hexit] at hat
    have hcancelled : (x.next (.completed c io)).stale = x.fs.ops.erase c.op := if_pos hexit
    refine ⟨new, s', ?_, fun o ho => ?_, hstage, hat⟩
    · rw [hcancelled]
      exact .of_eq hops
    · obtain ⟨data, io', heq⟩ := read_of_disconnect hexit
      obtain ⟨rfl, -⟩ := FsEvent.completed.inj heq
      rw [hcancelled] at ho
      rcases List.mem_append.1 (herase.mem_iff.1 ho) with ho | ho
      · exact h.not_opening hlive o (List.mem_of_mem_erase ho)
      · exact hstale o ho
  · rw [if_neg hexit] at hat
    have hcancelled : (x.next (.completed c io)).stale = x.stale := by
      change (if _ then _ else if fails c = true then x.stale.erase c.op else x.stale) = x.stale
      rw [if_neg hexit]
      split_ifs with hf
      · refine List.erase_of_not_mem fun hmem => ?_
        exact Bool.false_ne_true ((hstale _ hmem).symm.trans (hfails hf))
      · rfl
    refine ⟨new ++ live.erase c.op, s', ?_, hcancelled ▸ hstale, hstage, hat⟩
    rw [hcancelled, List.append_assoc]
    exact .trans (.of_eq hops) (herase.append_left new)

/-- A read or the timer completes with an error. -/
theorem Inv.of_failed {c : Completion} (hperm : x.fs.ops.Perm (live ++ x.stale))
    (hstale : ∀ o ∈ x.stale, isOpening o = false) (h : At x.fs.state live s) (hs : talk.stage x.log = some s)
    (hop : c.op ∈ x.fs.ops) (hfails : fails c = true)
    (hstep : x.fs.step (.completed c io) = { fs := { x.fs with ops := x.fs.ops.erase c.op } })
    (hlog : (x.next (.completed c io)).log = x.log) : (x.next (.completed c io)).Inv := by
  have hcancelled : (x.next (.completed c io)).stale = x.stale.erase c.op := by
    change (if _ then _ else if fails c = true then x.stale.erase c.op else x.stale) = _
    rw [hstep, if_neg Exit.noConfusion, if_pos hfails]
  have hops : (x.next (.completed c io)).fs.ops = x.fs.ops.erase c.op := congrArg (·.fs.ops) hstep
  have hstate : (x.next (.completed c io)).fs.state = x.fs.state := congrArg (·.fs.state) hstep
  by_cases hmem : c.op ∈ x.stale
  · refine ⟨live, s, ?_, fun o ho => hstale o (List.mem_of_mem_erase (hcancelled ▸ ho)), hlog ▸ hs, hstate ▸ h⟩
    rw [hops, hcancelled]
    have hmid : x.fs.ops.Perm (c.op :: (live ++ x.stale.erase c.op)) :=
      hperm.trans (((List.perm_cons_erase hmem).append_left live).trans List.perm_middle)
    exact (hmid.erase c.op).trans (.of_eq (List.erase_cons_head ..))
  · have hlive : c.op ∈ live := (List.mem_append.1 (hperm.mem_iff.1 hop)).resolve_right hmem
    refine ⟨live.erase c.op, s, ?_, fun o ho => hstale o (List.mem_of_mem_erase (hcancelled ▸ ho)), hlog ▸ hs, ?_⟩
    · rw [hops, hcancelled, List.erase_of_not_mem hmem, ← List.erase_append_left x.stale hlive]
      exact hperm.erase c.op
    · rw [hstate]
      refine ⟨fun o ho => h.expects o (List.mem_of_mem_erase ho), fun hne => ?_, h.online⟩
      exact Nat.le_trans List.length_erase_le (h.single hne)

theorem Inv.reloadxml (h : x.Inv) (hexit : (x.fs.step (.reloadxml io)).exit ≠ .systemError) :
    (x.next (.reloadxml io)).Inv := by
  obtain ⟨live, s, hperm, hstale, hs, hat⟩ := h
  by_cases hstate : x.fs.state = .queryingStatus
  · cases io with
    | false =>
      refine absurd ?_ hexit
      change (x.fs.reloadxml false).exit = _
      unfold FsInstance.reloadxml
      rw [if_neg (not_not.2 hstate)]
      rfl
    | true =>
      have hstep : x.fs.step (.reloadxml true) =
          { fs := { x.fs with sent := x.fs.sent ++ [Command.reloadxml], bReloadingXml := true }.asyncReadSome } := by
        change x.fs.reloadxml true = _
        unfold FsInstance.reloadxml
        rw [if_neg (not_not.2 hstate)]
        rfl
      obtain rfl := hat.online hstate
      refine ⟨[.read] ++ live, .online, ?_, hstale, ?_, ?_⟩
      · change (x.fs.step (.reloadxml true)).fs.ops.Perm ([.read] ++ live ++ x.stale)
        rw [hstep, List.append_assoc]
        exact hperm.append_left [.read]
      · change talk.stage (x.log ++ [] ++ said x.fs (x.fs.step (.reloadxml true)).fs) = _
        rw [List.append_nil, said_of_sent [.reloadxml] (by rw [hstep]; rfl)]
        exact stage_append hs rfl
      · change At (x.fs.step (.reloadxml true)).fs.state _ _
        rw [hstep]
        change At x.fs.state _ _
        rw [hstate] at hat ⊢
        exact hat.querying (fun o ho => ho) fun o ho => .inl (List.mem_singleton.1 ho)
  · have hstep : x.fs.step (.reloadxml io) = { fs := x.fs } := by
      change x.fs.reloadxml io = _
      unfold FsInstance.reloadxml
      exact if_pos hstate
    refine ⟨live, s, ?_, hstale, ?_, ?_⟩
    · change (x.fs.step (.reloadxml io)).fs.ops.Perm _
      rw [hstep]
      exact hperm
    · exact stage_silent hs (by rw [hstep])
    · change At (x.fs.step (.reloadxml io)).fs.state _ _
      rw [hstep]
      exact hat

theorem Inv.next {e : FsEvent} (h : x.Inv) (he : machine.enabled x e) : (x.next e).Inv := by
  obtain ⟨⟨hready, haborted⟩, hexit, hprompt⟩ := he
  cases e with
  | reloadxml io => exact h.reloadxml hexit
  | completed c io =>
    obtain ⟨live, s, hperm, hstale, hs, hat⟩ := h
    have hop := mem_ops_of_ready hready
    have hopening : isOpening c.op = true → c.op ∈ live := fun hopens =>
      (List.mem_append.1 (hperm.mem_iff.1 hop)).resolve_right fun hmem =>
        Bool.false_ne_true ((hstale _ hmem).symm.trans hopens)
    have hsucceeds : fails c = false → c.op ∈ live := by
      intro hf
      have hcount := hprompt hf
      rw [hperm.count_eq, List.count_append] at hcount
      exact List.count_pos_iff.1 (by omega)
    cases c with
    | resolve left =>
      have hlive := hopening rfl
      exact .of_leads hperm hstale hat hlive (fun _ => rfl) (leads_resolve hat hs left hlive)
    | connect left ok =>
      have hlive := hopening rfl
      exact .of_leads hperm hstale hat hlive (fun _ => rfl) (leads_connect hat hs left ok hlive hexit)
    | read data =>
      cases data with
      | none =>
        exact .of_failed hperm hstale hat hs hop rfl rfl (log_silent rfl)
      | some data =>
        have hlive := hsucceeds rfl
        exact .of_leads hperm hstale hat hlive nofun (leads_read hat hs data hlive hexit haborted)
    | timer n ok =>
      cases ok with
      | false =>
        exact .of_failed hperm hstale hat hs hop rfl rfl (log_silent rfl)
      | true =>
        have hlive := hsucceeds rfl
        exact .of_leads hperm hstale hat hlive nofun (leads_timer hat hs n hlive hexit)

theorem inv_init (hx : x ∈ machine.init) : x.Inv := by
  obtain ⟨⟨address, port, msecs, hfs⟩, hstale, hlog⟩ := hx
  refine ⟨[.resolve], .connected, ?_, ?_, ?_, ?_⟩
  · rw [hfs, hstale]
    exact .refl _
  · rw [hstale]
    exact fun o ho => absurd ho List.not_mem_nil
  · rw [hlog]
    rfl
  · rw [hfs]
    exact .of_le_one ConnectionState.noConfusion le_rfl fun o ho => List.mem_singleton.1 ho ▸ trivial

/-- **What is said to a server comes in its order**, in every run: on each connection, it is what
    `Talk` lets come next, after what was heard. A server counts as online only if the login was
    gone through on this connection; then `auth` and `sofia status` were said, each once and first,
    and nothing but `status` and `reloadxml` after them. -/
theorem courteous_of_reachable (hx : machine.Reachable x) :
    ∃ s, talk.stage x.log = some s ∧ s.Commands (x.log.filterMap Utterance.command?) ∧
      (x.fs.isOnline = true → s = .online) := by
  obtain ⟨live, s, -, -, hs, hat⟩ := hx.invariant (fun _ => inv_init) fun _ _ h he => Inv.next h he
  exact ⟨s, hs, Talk.commands_of_stage hs, fun honline => hat.online (of_decide_eq_true honline)⟩

/-- A server that was logged in to. -/
theorem courteous_handshake :
    (machine.exec { fs := new "fs".toList 8021 1000 }
        (Tracked.handshake ++ [Tracked.profileReply])).fs.isOnline = true ∧
      ∃ s, talk.stage (machine.exec { fs := new "fs".toList 8021 1000 }
        (Tracked.handshake ++ [Tracked.profileReply])).log = some s ∧ s = .online := by
  have hrun : machine.IsRun { fs := new "fs".toList 8021 1000 } (Tracked.handshake ++ [Tracked.profileReply]) := by
    refine ⟨⟨⟨_, _, _, rfl⟩, rfl, rfl⟩, ?_⟩
    refine ⟨⟨⟨by decide, by decide⟩, by decide, fun _ => by decide⟩,
      ⟨⟨by decide, by decide⟩, by decide, fun _ => by decide⟩, ⟨⟨by decide, by decide⟩, by decide, fun _ => by decide⟩,
      ⟨⟨by decide, by decide⟩, by decide, fun _ => by decide⟩, ⟨⟨by decide, by decide⟩, by decide, fun _ => by decide⟩,
      trivial⟩
  obtain ⟨s, hs, -, honline⟩ := courteous_of_reachable (Machine.Reachable.exec (.init hrun.1) hrun.2)
  exact ⟨by decide, s, hs, honline (by decide)⟩

end

end Conversation

end Ssp
