import Ssp.Fs.Health

/-!
# What an available server is

`isAvailable` looks at the state of an instance and at two counters. It is meant to
say that the connection is up and that the server has room, by the last status
reply. For this the instance is followed along its runs together with what really
happened on its connection (`Tracked`): whether it is up, and which of the counters
a status reply has set since it was made.

`honest_iff` says at which steps an instance begins to be available without being
so:

* at a failed read, or a disconnect notice whose close fails: the state stays;
* at the end of the handshake, with the counters of an earlier connection, or with
  none: `0 < 0 - 2` as unsigned numbers;
* at a status reply with the first number only, where the second one is of an
  earlier connection (or a reply on a connection that is down).
-/

namespace Ssp

namespace FsInstance

/-- The counters leave room, as `isAvailable` computes it. -/
def hasRoom (fs : FsInstance) : Prop := fs.nCurrentSessions < fs.nMaxSessions - 2

instance (fs : FsInstance) : Decidable fs.hasRoom :=
  inferInstanceAs (Decidable (fs.nCurrentSessions < fs.nMaxSessions - 2))

theorem isAvailable_iff (fs : FsInstance) :
    fs.isAvailable = true ↔ fs.state = .queryingStatus ∧ fs.hasRoom := by
  simp [isAvailable, hasRoom]

/-- The numbers that `getFsStatus` sets, if the message is a status reply. -/
def statusReply (fs : FsInstance) : Option UInt32 × Option UInt32 :=
  if fs.hasMessage && fs.state = .queryingStatus && isApiResponse fs.fsMsg && !fs.bReloadingXml then
    match fs.fsMsg.getFsStatus with
    | .parsed nCurrentSessions nMaxSessions => (nCurrentSessions, nMaxSessions)
    | .asserts => (none, none)
  else (none, none)

theorem statusReply_of_state_ne {fs : FsInstance} (h : fs.state ≠ .queryingStatus) :
    fs.statusReply = (none, none) := by
  simp [statusReply, h]

theorem statusReply_of_no_message {fs : FsInstance} (h : fs.hasMessage = false) :
    fs.statusReply = (none, none) := by
  simp [statusReply, h]

/-- The instance with the counters that the message sets. -/
def withStatus (fs : FsInstance) : FsInstance :=
  { fs with nCurrentSessions := fs.statusReply.1.getD fs.nCurrentSessions
            nMaxSessions := fs.statusReply.2.getD fs.nMaxSessions }

/-- The connection is made, but the instance has not come to ask for the status. -/
def Handshake (fs : FsInstance) : Prop :=
  fs.state = .waitingForGreeting ∨ fs.state = .authenticating ∨
    fs.state = .obtainingSipConfiguration

theorem Handshake.of_state_eq {fs fs' : FsInstance} (h : fs'.Handshake) (hs : fs'.state = fs.state) :
    fs.Handshake := by
  unfold Handshake at h ⊢
  rwa [← hs]

end FsInstance

open FsInstance

@[simp]
theorem Reaction.finish_fs_state (r : Reaction) (io : Bool) : (r.finish io).fs.state = r.fs.state := by
  unfold finish
  split_ifs <;> cases r.bReadAgain <;> cases r.bSetTimer <;> rfl

@[simp]
theorem Reaction.finish_fs_hasRoom (r : Reaction) (io : Bool) :
    (r.finish io).fs.hasRoom ↔ r.fs.hasRoom := by
  unfold finish
  split_ifs <;> cases r.bReadAgain <;> cases r.bSetTimer <;> rfl

namespace FsInstance

/-- What a read may do to the state and the room of an instance, from before (with
    the bytes added to the message) to after. -/
inductive AfterRead (before after : FsInstance) (io : Bool) : Prop
  | incomplete (hm : before.hasMessage = false) (hn : before.hasNotice = false)
    (hs : after.state = before.state) (hr : after.hasRoom ↔ before.hasRoom)
  | notice (hm : before.hasMessage = false) (hn : before.hasNotice = true)
    (hs : after.state = if io then .starting else before.state)
    (hr : after.hasRoom ↔ before.hasRoom)
  | asks (hm : before.hasMessage = true) (hn : before.hasNotice = false)
    (hb : before.state = .obtainingSipConfiguration) (ha : before.answers = true)
    (hs : after.state = .queryingStatus) (hr : after.hasRoom ↔ before.hasRoom)
  | replied (hm : before.hasMessage = true) (hn : before.hasNotice = false)
    (hb : before.state = .queryingStatus) (hs : after.state = .queryingStatus)
    (hr : after.hasRoom ↔ before.withStatus.hasRoom)
  | other (hm : before.hasMessage = true) (hn : before.hasNotice = false)
    (hb : before.state ≠ .queryingStatus)
    (ha : before.state = .obtainingSipConfiguration → before.answers = false)
    (hs : after.state ≠ .queryingStatus) (hh : after.Handshake → before.Handshake)

theorem processMessage_afterRead {fs : FsInstance} {r : Reaction} {io : Bool}
    (hm : fs.hasMessage = true) (hn : fs.hasNotice = false) (h : fs.processMessage = some r) :
    AfterRead fs r.fs io := by
  unfold processMessage at h
  cases hs : fs.state <;> simp only [hs] at h
  case waitingForGreeting =>
    split_ifs at h <;> cases h <;> exact .other hm hn (by simp [hs]) (by simp [hs]) (by simp [hs])
      (by simp [Handshake, hs])
  case authenticating =>
    split_ifs at h <;> cases h <;> exact .other hm hn (by simp [hs]) (by simp [hs]) (by simp)
      (by simp [Handshake, hs])
  case obtainingSipConfiguration =>
    split_ifs at h with ha
    · split at h
      -- The assertion of `getSipProfile` fails.
      next => simp at h
      next hp =>
        -- There is no such profile, and the timer is set.
        have hans : fs.answers = false := by simp only [answers, hs, hp, ha, Bool.and_false]
        cases h
        exact .other hm hn (by simp [hs]) (fun _ => hans) (by simp) (by simp [Handshake])
      next hp =>
        -- The profile has an address, and the next question is for the counters.
        have hans : fs.answers = true := by simp only [answers, hs, hp, ha, Bool.and_self]
        cases h
        exact .asks hm hn hs hans rfl Iff.rfl
    · cases h
      exact .other hm hn (by simp [hs]) (by simp [answers, hs, ha]) (by simp [hs]) id
  case queryingStatus =>
    split_ifs at h with ha hr
    · cases h
      exact .replied hm hn hs rfl (by simp [withStatus, statusReply, hr, hasRoom])
    · have hst : fs.statusReply = match fs.fsMsg.getFsStatus with
        | .parsed c x => (c, x)
        | .asserts => (none, none) := by simp [statusReply, hm, hs, ha, hr]
      split at h
      next => simp at h
      next c x hp =>
        rw [hp] at hst
        split_ifs at h <;> cases h <;> exact .replied hm hn hs rfl (by simp [withStatus, hst, hasRoom])
    · cases h
      exact .replied hm hn hs hs (by simp [withStatus, statusReply, ha, hasRoom])
  all_goals
    cases h
    exact .other hm hn (by simp [hs]) (by simp [hs]) (by simp [hs]) id

/-- The end of `read_handler` leaves the state and the room as they are. -/
theorem AfterRead.finish {fs : FsInstance} {r : Reaction} {io : Bool} (h : AfterRead fs r.fs io) :
    AfterRead fs (r.finish io).fs io := by
  have hs := r.finish_fs_state io
  have hr := r.finish_fs_hasRoom io
  cases h with
  | incomplete hm hn h₁ h₂ => exact .incomplete hm hn (hs.trans h₁) (hr.trans h₂)
  | notice hm hn h₁ h₂ => exact .notice hm hn (hs.trans h₁) (hr.trans h₂)
  | asks hm hn hb ha h₁ h₂ => exact .asks hm hn hb ha (hs.trans h₁) (hr.trans h₂)
  | replied hm hn hb h₁ h₂ => exact .replied hm hn hb (hs.trans h₁) (hr.trans h₂)
  | other hm hn hb ha h₁ h₂ =>
    exact .other hm hn hb ha (hs ▸ h₁) (fun hh => h₂ (hh.of_state_eq hs))

theorem processData_afterRead {fs : FsInstance} {io : Bool}
    (h : (fs.processData io).exit ≠ .aborted) : AfterRead fs (fs.processData io).fs io := by
  unfold processData at h ⊢
  by_cases hc : fs.fsMsg.bComplete = true
  · by_cases hd : isDisconnectNotice fs.fsMsg = true
    · refine .notice (by simp [hasMessage, hd]) (by simp [hasNotice, hc, hd]) ?_ ?_ <;>
        cases io <;> simp [hc, hd, startTimer, hasRoom]
    · simp only [hc, hd, Bool.not_true, Bool.false_eq_true, if_false] at h ⊢
      cases hp : fs.processMessage with
      | none => simp [hp] at h
      | some r =>
        exact (processMessage_afterRead (by simp [hasMessage, hc, hd]) (by simp [hasNotice, hd])
          hp).finish
  -- The rest of the message is still to come.
  · refine .incomplete (by simp [hasMessage, hc]) (by simp [hasNotice, hc]) ?_ ?_ <;>
      simp [hc, asyncReadSome, hasRoom]

/-- The state and the room after anything but a read. -/
theorem handle_state (fs : FsInstance) {c : Completion} (hc : ∀ data, c ≠ .read data) (io : Bool) :
    ((fs.handle c io).fs.state = .queryingStatus → fs.state = .queryingStatus) ∧
      ((fs.handle c io).fs.hasRoom ↔ fs.hasRoom) ∧
      ((fs.handle c io).fs.Handshake → (∀ left, c ≠ .connect left true) → fs.Handshake) := by
  rcases c with left | ⟨left, ok⟩ | data | ⟨ms, ok⟩
  · cases left <;> simp [handle, resolveHandler, asyncConnect, startTimer, hasRoom, Handshake]
  · cases ok <;> rcases left with _ | left <;> cases io <;>
      simp [handle, connectHandler, asyncConnect, asyncReadSome, startTimer, hasRoom, Handshake]
  · exact absurd rfl (hc data)
  · cases ok
    · simp [handle, timerHandler]
    · unfold handle timerHandler
      cases hs : fs.state <;> cases io <;>
        simp [hs, start, asyncReadSome, hasRoom, Handshake]

theorem reloadxml_state (fs : FsInstance) (io : Bool) :
    (fs.reloadxml io).fs.state = fs.state ∧ ((fs.reloadxml io).fs.hasRoom ↔ fs.hasRoom) := by
  unfold reloadxml
  split_ifs <;> simp [asyncReadSome, hasRoom]

/-! ## The connection -/

/-- An instance, and what really happened on its connection. -/
structure Tracked where
  fs : FsInstance
  /-- Since the last successful connect, no read has failed and no disconnect notice
      was handled. -/
  up : Bool := false
  /-- A status reply on this connection has set `nCurrentSessions`. -/
  currentSet : Bool := false
  /-- A status reply on this connection has set `nMaxSessions`. -/
  maxSet : Bool := false

namespace Tracked

def next (t : Tracked) (e : FsEvent) : Tracked :=
  let fs := (t.fs.step e).fs
  match e with
  | .completed (.connect _ true) _ => { fs := fs, up := true, currentSet := false, maxSet := false }
  | .completed (.read none) _ => { t with fs := fs, up := false }
  | .completed (.read (some data)) _ =>
    let before := t.fs.appendData data
    { fs := fs
      up := t.up && !before.hasNotice
      currentSet := t.currentSet || before.statusReply.1.isSome
      maxSet := t.maxSet || before.statusReply.2.isSome }
  | _ => { t with fs := fs }

/-- The runs of an instance after `start`, with its connection. -/
def machine : Machine Tracked FsEvent where
  init := {t | ∃ strAddress nEventSocketPort healthCheckMsecs,
    t = { fs := new strAddress nEventSocketPort healthCheckMsecs }}
  enabled t e := t.fs.ready e = true ∧ (t.fs.step e).exit ≠ .aborted
  next := next

/-- The instance is available only if it is connected and its counters were set by a
    status reply on this connection. -/
def Honest (t : Tracked) : Prop :=
  t.fs.isAvailable = true → t.up = true ∧ t.currentSet = true ∧ t.maxSet = true

/-- A read that brings the message `fs` has: a notice is followed by a close that does
    not fail, or the instance was not available anyway; the handshake ends with
    counters that leave no room; and where a status reply leaves room, the connection
    is up and both counters are of this connection. -/
def ReadKeepsHonest (t : Tracked) (fs : FsInstance) (io : Bool) : Prop :=
  (fs.hasNotice = true → io = true ∨ fs.isAvailable = false) ∧
    (fs.hasMessage = true →
      (fs.state = .obtainingSipConfiguration → fs.answers = true → ¬fs.hasRoom) ∧
        (fs.state = .queryingStatus → fs.withStatus.hasRoom →
          t.up = true ∧ (t.currentSet || fs.statusReply.1.isSome) = true ∧
            (t.maxSet || fs.statusReply.2.isSome) = true))

/-- The step does not make the instance available, or leave it so, without ground. -/
def KeepsHonest (t : Tracked) : FsEvent → Prop
  | .completed (.read none) _ => t.fs.isAvailable = false
  | .completed (.read (some data)) io => t.ReadKeepsHonest (t.fs.appendData data) io
  | _ => True

/-- During the handshake, nothing has been asked for yet. -/
def Inv (t : Tracked) : Prop := t.fs.Handshake → t.currentSet = false

/-- What a step other than a read does: the connection is new, or no more is known
    about it than before. -/
theorem next_of_not_read {t : Tracked} {c : Completion} {io : Bool} (hc : ∀ data, c ≠ .read data) :
    ((t.next (.completed c io)).fs.Handshake → (t.next (.completed c io)).currentSet = false ∨
        (t.fs.Handshake ∧ (t.next (.completed c io)).currentSet = t.currentSet)) ∧
      ((t.next (.completed c io)).fs.isAvailable = true → t.fs.isAvailable = true ∧
        (t.next (.completed c io)).up = t.up ∧
        (t.next (.completed c io)).currentSet = t.currentSet ∧
        (t.next (.completed c io)).maxSet = t.maxSet) := by
  obtain ⟨hs, hr, hh⟩ := handle_state { t.fs with ops := t.fs.ops.erase c.op } hc io
  have hav : (t.fs.step (.completed c io)).fs.isAvailable = true → t.fs.isAvailable = true := by
    intro h
    rw [isAvailable_iff] at h ⊢
    exact ⟨hs h.1, hr.1 h.2⟩
  rcases c with left | ⟨left, ok⟩ | data | ⟨ms, ok⟩
  · exact ⟨fun h => .inr ⟨hh h (by simp), rfl⟩, fun h => ⟨hav h, rfl, rfl, rfl⟩⟩
  · cases ok with
    | true =>
      refine ⟨fun _ => .inl rfl, fun h => ?_⟩
      rw [isAvailable_iff] at h
      exact absurd h.1 (by simp [next, step, handle, connectHandler, asyncReadSome])
    | false => exact ⟨fun h => .inr ⟨hh h (by simp), rfl⟩, fun h => ⟨hav h, rfl, rfl, rfl⟩⟩
  · exact absurd rfl (hc data)
  · exact ⟨fun h => .inr ⟨hh h (by simp), rfl⟩, fun h => ⟨hav h, rfl, rfl, rfl⟩⟩

/-- What a read does. -/
theorem afterRead_next {t : Tracked} {data : Bytes} {io : Bool}
    (he : machine.enabled t (.completed (.read (some data)) io)) :
    AfterRead (t.fs.appendData data) (t.next (.completed (.read (some data)) io)).fs io := by
  have h := processData_afterRead he.2
  cases h with
  | incomplete hm hn hs hr => exact .incomplete hm hn hs hr
  | notice hm hn hs hr => exact .notice hm hn hs hr
  | asks hm hn hb ha hs hr => exact .asks hm hn hb ha hs hr
  | replied hm hn hb hs hr => exact .replied hm hn hb hs hr
  | other hm hn hb ha hs hh => exact .other hm hn hb ha hs hh

theorem inv_next {t : Tracked} {e : FsEvent} (h : t.Inv) (he : machine.enabled t e) :
    (t.next e).Inv := by
  intro hh
  rcases e with ⟨c, io⟩ | io
  · by_cases hc : ∀ data, c ≠ .read data
    · rcases (next_of_not_read hc).1 hh with h₁ | ⟨h₁, h₂⟩
      · exact h₁
      · rw [h₂]
        exact h h₁
    · push Not at hc
      obtain ⟨data | data, rfl⟩ := hc
      · exact h hh
      · have hcur : (t.next (.completed (.read (some data)) io)).currentSet =
            (t.currentSet || (t.fs.appendData data).statusReply.1.isSome) := rfl
        cases afterRead_next he with
        | incomplete hm _ hs _ =>
          rw [hcur, statusReply_of_no_message hm, h (hh.of_state_eq hs)]
          rfl
        | notice hm _ hs _ =>
          rw [hcur, statusReply_of_no_message hm]
          cases io with
          -- The connection starts over.
          | true => simp [Handshake, hs] at hh
          | false =>
            rw [h (hh.of_state_eq hs)]
            rfl
        | asks _ _ _ _ hs _ => simp [Handshake, hs] at hh
        | replied _ _ _ hs _ => simp [Handshake, hs] at hh
        | other _ _ hb _ _ hd =>
          rw [hcur, statusReply_of_state_ne hb, h (hd hh)]
          rfl
  · have := t.fs.reloadxml_state io
    exact h (hh.of_state_eq this.1)

theorem honest_read_iff {t : Tracked} {data : Bytes} {io : Bool} (hI : t.Inv) (h : t.Honest)
    (he : machine.enabled t (.completed (.read (some data)) io)) :
    (t.next (.completed (.read (some data)) io)).Honest ↔
      t.ReadKeepsHonest (t.fs.appendData data) io := by
  have hafter := afterRead_next he
  set t' := t.next (.completed (.read (some data)) io) with ht'
  set before := t.fs.appendData data with hbefore
  have hup : t'.up = (t.up && !before.hasNotice) := rfl
  have hcur : t'.currentSet = (t.currentSet || before.statusReply.1.isSome) := rfl
  have hmax : t'.maxSet = (t.maxSet || before.statusReply.2.isSome) := rfl
  unfold Honest ReadKeepsHonest
  rw [isAvailable_iff, hup, hcur, hmax]
  cases hafter with
  | incomplete hm hn hs hr =>
    refine iff_of_true (fun hav => ?_) ⟨by simp [hn], by simp [hm]⟩
    have : t.fs.isAvailable = true := (isAvailable_iff t.fs).2 ⟨hs ▸ hav.1, hr.1 hav.2⟩
    simpa [hn, statusReply_of_no_message hm] using h this
  | notice hm hn hs hr =>
    have hav : before.isAvailable = false ↔ ¬(before.state = .queryingStatus ∧ before.hasRoom) := by
      rw [← isAvailable_iff, Bool.not_eq_true]
    rw [hs, hr, hav]
    cases io <;> simp [hm, hn]
  | asks hm hn hb ha hs hr =>
    -- Available at once, with the counters of the connection before.
    have hset : t.currentSet = false := hI (.inr (.inr hb))
    have hst : before.statusReply = (none, none) := statusReply_of_state_ne (by simp [hb])
    simp [hm, hn, hb, ha, hs, hr, hset, hst]
  | replied hm hn hb hs hr =>
    simp [hm, hn, hb, hs, hr]
  | other hm hn hb ha hs _ =>
    refine iff_of_true (fun hav => absurd hav.1 hs)
      ⟨by simp [hn], fun _ => ⟨fun h₁ h₂ => ?_, fun h₁ => absurd h₁ hb⟩⟩
    simp [ha h₁] at h₂

theorem honest_next_iff {t : Tracked} {e : FsEvent} (hI : t.Inv) (h : t.Honest)
    (he : machine.enabled t e) : (t.next e).Honest ↔ t.KeepsHonest e := by
  rcases e with ⟨c, io⟩ | io
  · by_cases hc : ∀ data, c ≠ .read data
    · have hk : t.KeepsHonest (.completed c io) := by
        rcases c with _ | _ | data | _ <;> first | trivial | exact absurd rfl (hc data)
      refine iff_of_true (fun hav => ?_) hk
      obtain ⟨h₁, h₂, h₃, h₄⟩ := (next_of_not_read hc).2 hav
      rw [h₂, h₃, h₄]
      exact h h₁
    · push Not at hc
      obtain ⟨data | data, rfl⟩ := hc
      -- The connection is closed, and the state stays what it was.
      · change (t.fs.isAvailable = true → false = true ∧ _) ↔ t.fs.isAvailable = false
        simp
      · exact honest_read_iff hI h he
  · refine iff_of_true (fun hav => h ?_) trivial
    have hr := t.fs.reloadxml_state io
    rw [isAvailable_iff] at hav ⊢
    exact ⟨hr.1 ▸ hav.1, hr.2.1 hav.2⟩

/-- **Availability.** Along a run, an instance is available only with an open
    connection and counters of this connection exactly if every step keeps it honest. -/
theorem honest_iff {t : Tracked} {es : List FsEvent} (h : machine.IsRun t es) :
    machine.Always Honest t es ↔ machine.Along KeepsHonest t es := by
  obtain ⟨⟨a, p, n, rfl⟩, hes⟩ := h
  refine Machine.always_iff_along (I := Inv) (fun _ _ hI _ he _ => inv_next hI he)
    (fun _ _ hI hQ he => honest_next_iff hI hQ he) ?_ ?_ hes
  · intro _
    rfl
  · intro hav
    simp [isAvailable, new, start] at hav

/-- The handshake of a server, up to the question for its SIP profile. -/
def handshake : List FsEvent :=
  [.completed (.resolve (some 0)) true, .completed (.connect 0 true) true,
    .completed (.read (some "Content-Type: auth/request\n\n".toList)) true,
    .completed (.read (some "Content-Type: command/reply\nReply-Text: +OK accepted\n\n".toList)) true]

/-- The reply with the SIP profile. -/
def profileReply : FsEvent :=
  .completed (.read (some
    "Content-Type: api/response\nContent-Length: 17\n\ninternal p s:u@h\n".toList)) true

theorem isRun_handshake :
    machine.IsRun { fs := new "fs".toList 8021 1000 } (handshake ++ [profileReply]) :=
  ⟨⟨_, _, _, rfl⟩, ⟨by decide, by decide⟩, ⟨by decide, by decide⟩, ⟨by decide, by decide⟩,
    ⟨by decide, by decide⟩, ⟨by decide, by decide⟩, trivial⟩

/-- The handshake is honest as long as the instance is not available. -/
theorem honest_handshake :
    machine.Always Honest { fs := new "fs".toList 8021 1000 } handshake := by
  refine (honest_iff ⟨⟨_, _, _, rfl⟩, ?_⟩).2 ⟨trivial, trivial, ?_, ?_, trivial⟩
  · exact ⟨⟨by decide, by decide⟩, ⟨by decide, by decide⟩, ⟨by decide, by decide⟩,
      ⟨by decide, by decide⟩, trivial⟩
  · exact ⟨by decide, fun _ => ⟨by decide, by decide⟩⟩
  · exact ⟨by decide, fun _ => ⟨by decide, by decide⟩⟩

/-- At the end of the first handshake, before any status reply, a server is available:
    `0 < 0 - 2`. -/
theorem not_honest_profileReply :
    ¬∀ (t : Tracked) (es : List FsEvent), machine.IsRun t es → machine.Always Honest t es := by
  intro h
  obtain ⟨-, -, -, -, -, hlast⟩ := h _ _ isRun_handshake
  obtain ⟨-, hset, -⟩ := hlast (by decide)
  exact absurd hset (by decide)

end Tracked

end FsInstance

end Ssp
