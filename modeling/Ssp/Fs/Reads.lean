import Ssp.Fs.Availability

/-!
# The reads of an instance

All reads of an instance go into the same buffer and add to the same message, so no two of
them should be pending at the same time. The handlers keep to this: each is called when an
operation has completed, and starts at most one (`handle_adds`). But `reloadxml` is called
from outside of them and starts a read as well. `single_read_iff` says when there are two: when
`reloadxml` is called while a read is pending, or when the timer goes off while the read
that `reloadxml` has started is.

A write to a socket that is not connected fails (`Sound`).
-/

namespace Ssp

namespace FsInstance

/-! ## What a handler starts -/

/-- The states in which there is no connection. -/
def early (fs : FsInstance) : Bool :=
  fs.state = .starting || fs.state = .resolving || fs.state = .resolveFailed ||
    fs.state = .connecting || fs.state = .connectFailed

/-- The states in which a connection is being opened. -/
def opening (fs : FsInstance) : Bool := fs.state = .resolving || fs.state = .connecting

/-- The operations that open a connection. -/
def isOpening : Op → Bool
  | .resolve => true
  | .connect _ => true
  | .read => false
  | .timer _ => false

/-- The timer makes the handler ask for the status. -/
def asksStatus (fs : FsInstance) : Bool := !fs.idles && fs.state ≠ .starting && fs.state ≠ .connectFailed

/-- A message starts a read or the timer, never both, and does not take the connection
    away. -/
theorem processMessage_adds {fs : FsInstance} {r : Reaction} (h : fs.processMessage = some r) :
    r.fs.ops = fs.ops ∧ (r.bReadAgain && r.bSetTimer) = false ∧
      (r.fs.early = true → fs.early = true) ∧ (r.fs.opening = true → fs.opening = true) := by
  unfold processMessage at h
  cases hs : fs.state <;> simp only [hs] at h
  case waitingForGreeting =>
    split_ifs at h <;> cases h <;> simp [early, opening, hs]
  case authenticating =>
    split_ifs at h <;> cases h <;> simp [early, opening]
  case obtainingSipConfiguration =>
    split_ifs at h
    · split at h
      · cases h
      · cases h
        simp [early, opening]
      · cases h
        simp [early, opening]
    · cases h
      simp [early, opening, hs]
  case queryingStatus =>
    split_ifs at h
    · cases h
      simp [early, opening]
    · split at h
      · cases h
      · split_ifs at h <;> cases h <;> simp [early, opening, hs]
    · cases h
      simp [early, opening, hs]
  all_goals
    cases h
    simp

end FsInstance

open FsInstance

theorem Reaction.finish_adds (r : Reaction) (io : Bool) (h : (r.bReadAgain && r.bSetTimer) = false) :
    ∃ new, (r.finish io).fs.ops = new ++ r.fs.ops ∧ new.length ≤ 1 ∧ new.countP isOpening = 0 ∧
      (r.finish io).fs.state = r.fs.state := by
  unfold finish
  by_cases hw : (r.out.isSome && !io) = true
  · rw [if_pos hw]
    exact ⟨[], rfl, by simp, rfl, rfl⟩
  · rw [if_neg hw]
    cases hr : r.bReadAgain <;> cases ht : r.bSetTimer
    · exact ⟨[], rfl, by simp, rfl, rfl⟩
    · exact ⟨[.timer _], rfl, by simp, rfl, rfl⟩
    · exact ⟨[.read], rfl, by simp, rfl, rfl⟩
    · simp [hr, ht] at h

namespace FsInstance

theorem early_congr {fs fs' : FsInstance} (h : fs'.state = fs.state) :
    fs'.early = fs.early ∧ fs'.opening = fs.opening := by
  simp only [early, opening, h, and_self]

/-- `read_handler` starts at most one operation, which opens no connection; the state
    becomes one without a connection only on a disconnect notice, and then the timer is
    started. -/
theorem readHandler_adds (fs : FsInstance) (data : Option Bytes) (io : Bool) :
    ∃ new, (fs.readHandler data io).fs.ops = new ++ fs.ops ∧ new.length ≤ 1 ∧
      new.countP isOpening = 0 ∧
      ((fs.readHandler data io).fs.early = true → fs.early = true ∨ new.count .read = 0) ∧
      ((fs.readHandler data io).fs.opening = true → fs.opening = true) := by
  cases data with
  | none => exact ⟨[], rfl, by simp, rfl, .inl, id⟩
  | some data =>
    change ∃ new, ((fs.appendData data).processData io).fs.ops = new ++ (fs.appendData data).ops ∧ _
    have hearly := early_congr (show (fs.appendData data).state = fs.state from rfl)
    rw [← hearly.1, ← hearly.2]
    change ∃ new, _ ∧ _ ∧ _ ∧ (((fs.appendData data).processData io).fs.early = true → _) ∧
      (((fs.appendData data).processData io).fs.opening = true → _)
    generalize fs.appendData data = fs
    unfold processData
    split_ifs
    · exact ⟨[.read], rfl, by simp, rfl, .inl, id⟩
    · exact ⟨[.timer 1000], rfl, by simp, rfl, fun _ => .inr rfl, fun h => by simp [opening, startTimer] at h⟩
    · exact ⟨[], rfl, by simp, rfl, .inl, id⟩
    · cases hp : fs.processMessage with
      | none => exact ⟨[], rfl, by simp, rfl, .inl, id⟩
      | some r =>
        obtain ⟨hops, hboth, hearly, hopening⟩ := processMessage_adds hp
        obtain ⟨new, hnew, hlen, hopen, hstate⟩ := r.finish_adds io hboth
        obtain ⟨h₁, h₂⟩ := early_congr hstate
        exact ⟨new, hops ▸ hnew, hlen, hopen, fun h => .inl (hearly (h₁ ▸ h)), fun h => hopening (h₂ ▸ h)⟩

/-- `timer_handler` starts the instance over, asks for the status, or does nothing. -/
theorem timerHandler_adds (fs : FsInstance) (ok io : Bool) :
    ((fs.timerHandler ok io).fs = fs ∧ ¬(ok = true ∧ fs.asksStatus = true ∧ io = true)) ∨
      (fs.early = true ∧ fs.opening = false ∧ fs.asksStatus = false ∧
        (fs.timerHandler ok io).fs.state = .resolving ∧
        (fs.timerHandler ok io).fs.ops = .resolve :: fs.ops) ∨
      ((ok = true ∧ fs.asksStatus = true ∧ io = true) ∧ (fs.early = true → fs.opening = true) ∧
        (fs.timerHandler ok io).fs.state = fs.state ∧
        (fs.timerHandler ok io).fs.ops = .read :: fs.ops) := by
  cases ok with
  | false => exact .inl ⟨rfl, by simp⟩
  | true =>
    unfold timerHandler early opening asksStatus idles
    rw [if_pos rfl]
    cases hs : fs.state <;> cases io <;>
      simp [start, asyncReadSome, hs]

/-- A handler starts at most one operation. -/
theorem handle_adds (fs : FsInstance) (c : Completion) (io : Bool) :
    ∃ new, (fs.handle c io).fs.ops = new ++ fs.ops ∧ new.length ≤ 1 := by
  rcases c with left | ⟨left, ok⟩ | data | ⟨ms, ok⟩
  · cases left with
    | none => exact ⟨[.timer 5000], rfl, Nat.le.refl⟩
    | some left => exact ⟨[.connect left], rfl, Nat.le.refl⟩
  · cases ok with
    | true => exact ⟨[.read], rfl, Nat.le.refl⟩
    | false =>
      rcases left with _ | left
      · exact ⟨[.timer 5000], rfl, Nat.le.refl⟩
      · cases io with
        | false => exact ⟨[], rfl, Nat.zero_le _⟩
        | true => exact ⟨[.connect left], rfl, Nat.le.refl⟩
  · obtain ⟨new, hnew, hlen, -⟩ := fs.readHandler_adds data io
    exact ⟨new, hnew, hlen⟩
  · rcases fs.timerHandler_adds ok io with ⟨hsame, -⟩ | ⟨-, -, -, -, hops⟩ | ⟨-, -, -, hops⟩
    · exact ⟨[], congrArg ops hsame, Nat.zero_le _⟩
    · exact ⟨[.resolve], hops, Nat.le.refl⟩
    · exact ⟨[.read], hops, Nat.le.refl⟩

/-! ## Runs -/

/-- A write to a socket that is not connected fails. -/
def Sound (fs : FsInstance) : FsEvent → Prop
  | .completed (.timer _ true) io => fs.opening = true → io = false
  | _ => True

/-- The runs of an instance on sockets that behave. -/
def soundMachine : Machine FsInstance FsEvent := machine.restrict Sound

/-- Without a connection, there is no read, and at most one connection is being opened. -/
structure ReadInv (fs : FsInstance) : Prop where
  reads : fs.early = true → fs.ops.count .read = 0
  opens : fs.ops.countP isOpening ≤ if fs.opening then 1 else 0

/-- The timer does not go off while a read is pending, so that the status is asked for, and
    `reloadxml` is not called then. -/
def ReadsAlone (fs : FsInstance) : FsEvent → Prop
  | .completed (.timer _ true) io => fs.asksStatus = true → io = true → .read ∉ fs.ops
  | .reloadxml io => fs.state = .queryingStatus → io = true → .read ∉ fs.ops
  | _ => True

theorem mem_ops_of_ready {fs : FsInstance} {c : Completion} {io : Bool}
    (h : fs.ready (.completed c io) = true) : c.op ∈ fs.ops := by
  rcases c with left | ⟨left, ok⟩ | (_ | data) | ⟨ms, ok⟩
  · exact of_decide_eq_true h
  · exact of_decide_eq_true h
  · exact of_decide_eq_true h
  · simp only [ready, Bool.and_eq_true] at h
    exact of_decide_eq_true h.1.1
  · exact of_decide_eq_true h

/-- A handler leaves no more pending than there was. -/
theorem length_ops_completed {fs : FsInstance} {c : Completion} (hc : c.op ∈ fs.ops) (io : Bool) :
    (fs.step (.completed c io)).fs.ops.length ≤ fs.ops.length := by
  obtain ⟨new, hnew, hlen⟩ := handle_adds { fs with ops := fs.ops.erase c.op } c io
  change (FsInstance.handle _ c io).fs.ops.length ≤ _
  have hpos := List.length_pos_of_mem hc
  rw [hnew, List.length_append, List.length_erase_of_mem hc]
  omega

/-- The operation that completes is pending no more. -/
theorem count_erase_op {fs : FsInstance} {c : Completion} (h : c.op ∈ fs.ops) :
    fs.ops.count .read = (fs.ops.erase c.op).count .read + (if c.op = .read then 1 else 0) ∧
      fs.ops.countP isOpening =
        (fs.ops.erase c.op).countP isOpening + (if isOpening c.op = true then 1 else 0) := by
  have hperm := List.perm_cons_erase h
  rw [hperm.count_eq, hperm.countP_eq, List.count_cons, List.countP_cons]
  simp

theorem early_of_opening {fs : FsInstance} (h : fs.opening = true) : fs.early = true := by
  simp only [opening, early, Bool.or_eq_true, decide_eq_true_eq] at h ⊢
  tauto

/-- Nothing but operations that completed has changed. -/
theorem ReadInv.of_state {fs fs' : FsInstance} (h : fs.ReadInv) (hs : fs'.state = fs.state)
    (hreads : fs.early = true → fs'.ops.count .read = 0)
    (hopens : fs'.ops.countP isOpening ≤ fs.ops.countP isOpening) : fs'.ReadInv := by
  obtain ⟨hearly, hopening⟩ := early_congr hs
  exact ⟨fun he => hreads (hearly ▸ he), hopening ▸ Nat.le_trans hopens h.opens⟩

/-- Where a connection is being opened, nothing else that opens one is pending, and no read. -/
theorem ReadInv.of_isOpening {fs : FsInstance} (h : fs.ReadInv) {c : Completion} (hc : c.op ∈ fs.ops)
    (hopen : isOpening c.op = true) :
    fs.opening = true ∧ (fs.ops.erase c.op).count .read = 0 ∧
      (fs.ops.erase c.op).countP isOpening = 0 := by
  obtain ⟨hreads, hopens⟩ := count_erase_op hc
  have hle := h.opens
  rw [hopens, if_pos hopen] at hle
  split_ifs at hle with ho
  · have := h.reads (early_of_opening ho)
    exact ⟨ho, by omega, by omega⟩
  · omega

section Step

variable {fs : FsInstance} {io : Bool}

/-- The step leaves at most one read, exactly if it keeps to the condition. -/
def ReadStep (fs : FsInstance) (e : FsEvent) (fs' : FsInstance) : Prop :=
  fs'.ReadInv ∧ (fs'.ops.count .read ≤ 1 ↔ fs.ReadsAlone e)

/-- A handler that starts at most one operation, when nothing pending is a read or opens a
    connection. -/
theorem readStep_of_adds {e : FsEvent} {fs' : FsInstance} (new : List Op) {ops : List Op}
    (hops : fs'.ops = new ++ ops) (hreads : ops.count .read = 0) (hopens : ops.countP isOpening = 0)
    (hlen : new.length ≤ 1) (hearly : fs'.early = true → new.count .read = 0)
    (hopening : new.countP isOpening ≤ if fs'.opening then 1 else 0) (he : fs.ReadsAlone e) :
    ReadStep fs e fs' := by
  have hcount : fs'.ops.count .read = new.count .read := by
    rw [hops, List.count_append, hreads, Nat.add_zero]
  refine ⟨⟨fun h => ?_, ?_⟩, iff_of_true ?_ he⟩
  · rw [hcount]
    exact hearly h
  · rw [hops, List.countP_append, hopens, Nat.add_zero]
    exact hopening
  · rw [hcount]
    exact Nat.le_trans List.count_le_length hlen

theorem readStep_resolve (h : fs.ReadInv) {left : Option ℕ} (hc : Op.resolve ∈ fs.ops) :
    ReadStep fs (.completed (.resolve left) io) (fs.step (.completed (.resolve left) io)).fs := by
  obtain ⟨-, hreads, hopens⟩ := h.of_isOpening (c := .resolve left) hc rfl
  cases left with
  | none =>
    exact readStep_of_adds [.timer 5000] rfl hreads hopens Nat.le.refl (fun _ => rfl)
      (Nat.zero_le _) trivial
  | some left =>
    exact readStep_of_adds [.connect left] rfl hreads hopens Nat.le.refl (fun _ => rfl)
      Nat.le.refl trivial

theorem readStep_connect (h : fs.ReadInv) {left : ℕ} {ok : Bool} (hc : Op.connect left ∈ fs.ops) :
    ReadStep fs (.completed (.connect left ok) io) (fs.step (.completed (.connect left ok) io)).fs := by
  obtain ⟨ho, hreads, hopens⟩ := h.of_isOpening (c := .connect left ok) hc rfl
  cases ok with
  | true =>
    refine readStep_of_adds [.read] rfl hreads hopens Nat.le.refl (fun he => ?_)
      (Nat.zero_le _) trivial
    simp [step, handle, connectHandler, asyncReadSome, early] at he
  | false =>
    rcases left with _ | left
    · exact readStep_of_adds [.timer 5000] rfl hreads hopens Nat.le.refl (fun _ => rfl)
        (Nat.zero_le _) trivial
    · cases io with
      | false =>
        exact readStep_of_adds [] rfl hreads hopens (Nat.zero_le _) (fun _ => rfl)
          (Nat.zero_le _) trivial
      | true =>
        refine readStep_of_adds [.connect left] rfl hreads hopens Nat.le.refl
          (fun _ => rfl) ?_ trivial
        have hstate : (fs.step (.completed (.connect (left + 1) false) true)).fs.state = fs.state := rfl
        rw [(early_congr hstate).2, ho]
        exact Nat.le.refl

theorem readStep_read (h : fs.ReadInv) (hQ : fs.ops.count .read ≤ 1) {data : Option Bytes}
    (hc : Op.read ∈ fs.ops) :
    ReadStep fs (.completed (.read data) io) (fs.step (.completed (.read data) io)).fs := by
  obtain ⟨hreads, hopens⟩ := count_erase_op (c := .read data) hc
  -- There is a connection, so none is being opened.
  have hpos : 0 < fs.ops.count .read := List.count_pos_iff.2 hc
  have hearly : fs.early = false := by
    by_contra hne
    have := h.reads (by simpa using hne)
    omega
  have hopening : fs.opening = false := by
    by_contra hne
    simp [early_of_opening (by simpa using hne)] at hearly
  have hle := h.opens
  rw [hopening] at hle
  obtain ⟨new, hnew, hlen, hopen, hearly', -⟩ :=
    readHandler_adds { fs with ops := fs.ops.erase (Completion.read data).op } data io
  refine readStep_of_adds _ hnew ?_ ?_ hlen (fun he => ?_)
    (le_of_eq_of_le hopen (Nat.zero_le _)) trivial
  · simp only [Completion.op, if_true] at hreads ⊢
    omega
  · exact (Nat.le_zero.1 (le_of_eq_of_le hopens.symm hle))
  · refine (hearly' he).resolve_left fun he' => ?_
    exact Bool.false_ne_true (hearly.symm.trans he')

/-- `timer_handler`, on the instance `fs₀` without the timer that completed. -/
theorem readStep_timerHandler (fs₀ : FsInstance) (h : fs.ReadInv) (hQ : fs.ops.count .read ≤ 1)
    {ms : ℕ} {ok : Bool} (hsound : fs.Sound (.completed (.timer ms ok) io))
    (hs : fs₀.state = fs.state) (hreads : fs₀.ops.count .read = fs.ops.count .read)
    (hopens : fs₀.ops.countP isOpening = fs.ops.countP isOpening) :
    ReadStep fs (.completed (.timer ms ok) io) (fs₀.timerHandler ok io).fs := by
  have hinv : fs₀.ReadInv := h.of_state hs (fun he => hreads.trans (h.reads he)) (Nat.le_of_eq hopens)
  have hasks₀ : fs₀.asksStatus = fs.asksStatus := by simp only [asksStatus, idles, hs]
  have hopening₀ := (early_congr hs).2
  rcases timerHandler_adds fs₀ ok io with
    ⟨hsame, hnot⟩ | ⟨hearly, hopening, hasks, hstate, hops⟩ | ⟨⟨rfl, hasks, rfl⟩, hearly, hstate, hops⟩
  · rw [hsame]
    refine ⟨hinv, iff_of_true (hreads ▸ hQ) ?_⟩
    cases ok with
    | false => trivial
    | true => exact fun hasks hio => absurd ⟨rfl, hasks₀ ▸ hasks, hio⟩ hnot
  · -- The states the instance starts over from are without a read.
    have hle := hinv.opens
    rw [hopening] at hle
    refine readStep_of_adds [.resolve] hops (hinv.reads hearly) (Nat.le_zero.1 hle)
      Nat.le.refl (fun _ => rfl) ?_ ?_
    · simp [opening, hstate, isOpening]
    · cases ok with
      | false => trivial
      | true => exact fun hasks' => absurd (hasks₀ ▸ hasks') (hasks ▸ Bool.false_ne_true)
  · -- A connection is there, as the write has succeeded.
    have hnot : fs.opening ≠ true := fun ho => absurd (hsound ho) (by simp)
    refine ⟨⟨fun he => ?_, ?_⟩, ?_⟩
    · rw [(early_congr hstate).1] at he
      exact absurd (hopening₀ ▸ hearly he) hnot
    · rw [hops, (early_congr hstate).2, List.countP_cons_of_neg (by simp [isOpening])]
      exact hinv.opens
    · rw [hops, List.count_cons_self, hreads]
      change _ + 1 ≤ 0 + 1 ↔ _
      rw [Nat.add_le_add_iff_right, Nat.le_zero, List.count_eq_zero]
      exact ⟨fun hnr _ _ => hnr, fun hal => hal (hasks₀ ▸ hasks) rfl⟩

theorem readStep_timer (h : fs.ReadInv) (hQ : fs.ops.count .read ≤ 1) {ms : ℕ} {ok : Bool}
    (hc : Op.timer ms ∈ fs.ops) (hsound : fs.Sound (.completed (.timer ms ok) io)) :
    ReadStep fs (.completed (.timer ms ok) io) (fs.step (.completed (.timer ms ok) io)).fs := by
  obtain ⟨hreads, hopens⟩ := count_erase_op (c := .timer ms ok) hc
  exact readStep_timerHandler { fs with ops := fs.ops.erase (.timer ms) } h hQ hsound rfl
    hreads.symm hopens.symm

theorem readStep_reloadxml (h : fs.ReadInv) (hQ : fs.ops.count .read ≤ 1) :
    ReadStep fs (.reloadxml io) (fs.step (.reloadxml io)).fs := by
  change ReadStep fs (.reloadxml io) (fs.reloadxml io).fs
  unfold reloadxml
  split_ifs with hs hio
  · exact ⟨h, iff_of_true hQ fun hs' => absurd hs' hs⟩
  · have hs : fs.state = .queryingStatus := not_not.1 hs
    refine ⟨⟨fun he => ?_, ?_⟩, ?_⟩
    · simp [early, asyncReadSome, hs] at he
    · exact h.opens
    · simp [ReadsAlone, asyncReadSome, hs, hio, List.count_eq_zero]
  · exact ⟨h, iff_of_true hQ fun _ hio' => absurd hio' hio⟩

end Step

theorem readStep_next {fs : FsInstance} {e : FsEvent} (h : fs.ReadInv) (hQ : fs.ops.count .read ≤ 1)
    (he : soundMachine.enabled fs e) : ReadStep fs e (soundMachine.next fs e) := by
  obtain ⟨⟨hready, -⟩, hsound⟩ := he
  cases e with
  | reloadxml io => exact readStep_reloadxml h hQ
  | completed c io =>
    have hc := mem_ops_of_ready hready
    cases c with
    | resolve left => exact readStep_resolve h hc
    | connect left ok => exact readStep_connect h hc
    | read data => exact readStep_read h hQ hc
    | timer ms ok => exact readStep_timer h hQ hc hsound

/-- **Reads overlap only so.** At most one read is pending in all states of a run exactly if
    `reloadxml` is never called while a read is pending, and the timer never goes off then. -/
theorem single_read_iff {fs : FsInstance} {es : List FsEvent} (h : soundMachine.IsRun fs es) :
    soundMachine.Always (fun fs => fs.ops.count .read ≤ 1) fs es ↔
      soundMachine.Along ReadsAlone fs es := by
  obtain ⟨⟨a, p, n, rfl⟩, hes⟩ := h
  exact Machine.always_iff_along (I := ReadInv) (fun _ _ hI hQ he _ => (readStep_next hI hQ he).1)
    (fun _ _ hI hQ he => (readStep_next hI hQ he).2) ⟨fun _ => rfl, Nat.le.refl⟩ (Nat.zero_le _) hes

/-- The handlers alone never have more than one operation pending, of any kind. -/
theorem single_op_of_no_reloadxml {fs : FsInstance}
    (h : (machine.restrict fun _ e => ∀ io, e ≠ .reloadxml io).Reachable fs) : fs.ops.length ≤ 1 := by
  refine h.invariant (I := fun fs => fs.ops.length ≤ 1) ?_ fun fs e hfs he => ?_
  · rintro _ ⟨a, p, n, rfl⟩
    exact Nat.le.refl
  · cases e with
    | reloadxml io => exact absurd rfl (he.2 io)
    | completed c io => exact Nat.le_trans (length_ops_completed (mem_ops_of_ready he.1.1) io) hfs

/-- A reply to `api status`: two of nine sessions are in use. -/
def statusText : Bytes :=
  "Content-Type: api/response\nContent-Length: 14\n\na\nb\nc\n2 s\n9 m\n".toList

/-- A reply to `api reloadxml`. -/
def reloadText : Bytes := "Content-Type: api/response\nContent-Length: 4\n\n+OK\n".toList

/-- A status reply, then, before the timer goes off, a reload and its reply. -/
def reloadBetween : List FsEvent :=
  [.completed (.read (some statusText)) true, .reloadxml true,
    .completed (.read (some reloadText)) true, .completed (.timer 1000 true) true]

/-- A reload between a status reply and the next question has its read for itself. -/
theorem single_read_reloadBetween :
    soundMachine.Always (fun fs => fs.ops.count .read ≤ 1) (new "fs".toList 8021 1000)
      (Tracked.handshake ++ Tracked.profileReply :: reloadBetween) := by
  refine (single_read_iff ⟨⟨_, _, _, rfl⟩, ?_⟩).2 ⟨trivial, trivial, trivial, trivial, trivial,
    trivial, ?_, trivial, ?_, trivial⟩
  · refine ⟨⟨⟨by decide, by decide⟩, trivial⟩, ⟨⟨by decide, by decide⟩, trivial⟩,
      ⟨⟨by decide, by decide⟩, trivial⟩, ⟨⟨by decide, by decide⟩, trivial⟩,
      ⟨⟨by decide, by decide⟩, trivial⟩, ⟨⟨by decide, by decide⟩, trivial⟩,
      ⟨⟨by decide, by decide⟩, trivial⟩, ⟨⟨by decide, by decide⟩, trivial⟩,
      ⟨⟨by decide, by decide⟩, ?_⟩, trivial⟩
    exact fun h => absurd h (by decide)
  · exact fun _ _ => by decide
  · exact fun _ _ => by decide

/-- A reload while the status is being read starts a second read. -/
theorem not_single_read_reloadxml :
    ¬∀ (fs : FsInstance) (es : List FsEvent), soundMachine.IsRun fs es →
      soundMachine.Always (fun fs => fs.ops.count .read ≤ 1) fs es := by
  intro h
  have hrun : soundMachine.IsRun (new "fs".toList 8021 1000)
      (Tracked.handshake ++ [Tracked.profileReply, .reloadxml true]) :=
    ⟨⟨_, _, _, rfl⟩, ⟨⟨by decide, by decide⟩, trivial⟩, ⟨⟨by decide, by decide⟩, trivial⟩,
      ⟨⟨by decide, by decide⟩, trivial⟩, ⟨⟨by decide, by decide⟩, trivial⟩,
      ⟨⟨by decide, by decide⟩, trivial⟩, ⟨⟨by decide, by decide⟩, trivial⟩, trivial⟩
  obtain ⟨-, -, -, -, -, -, hlast⟩ := h _ _ hrun
  exact absurd hlast.head (by decide)

end FsInstance

end Ssp
