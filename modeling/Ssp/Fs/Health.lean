import Ssp.Fs.Instance
import Ssp.Lib.Run

/-!
# The health of a monitored server

What the handlers of an `FsInstance` do to its pending operations, over all runs.

A handler keeps the instance going by starting an operation. Some exits of the
handlers start none: they are *silent* (`silent`), or they are left by an exception
because a synchronous call on the socket failed (`callsSocket`). An instance that
has nothing else pending is dead then, and stays dead. `pending_iff` says that
these are the only ways to die.
-/

namespace Ssp

namespace FsInstance

/-! ## What a handler does -/

/-- The message makes the handler write the next command of the handshake. -/
def answers (fs : FsInstance) : Bool :=
  match fs.state with
  | .waitingForGreeting => fs.fsMsg.category = .auth
  | .authenticating => fs.fsMsg.replyStatus = .ok
  | .obtainingSipConfiguration =>
    isApiResponse fs.fsMsg &&
      match fs.fsMsg.getSipProfile "internal".toList with
      | .found _ _ => true
      | _ => false
  | _ => false

/-- The message makes the handler run off the end of a list of tokens. -/
def asserts (fs : FsInstance) : Bool :=
  match fs.state with
  | .obtainingSipConfiguration =>
    isApiResponse fs.fsMsg && fs.fsMsg.getSipProfile "internal".toList = .asserts
  | .queryingStatus => isApiResponse fs.fsMsg && !fs.bReloadingXml && fs.fsMsg.getFsStatus = .asserts
  | _ => false

/-- The message is of no use in the state of the instance: the handler neither reads
    again nor sets the timer. -/
def ignores (fs : FsInstance) : Bool :=
  match fs.state with
  | .waitingForGreeting => false
  | .authenticating => false
  | .obtainingSipConfiguration => !isApiResponse fs.fsMsg
  | .queryingStatus => !isApiResponse fs.fsMsg || fs.bReloadingXml
  | _ => true

/-- The states in which the timer does nothing. -/
def idles (fs : FsInstance) : Bool :=
  fs.state = .resolveFailed || fs.state = .waitingForGreeting ||
    fs.state = .authenticationFailed || fs.state = .obtainingSipConfigurationFailed

/-- A message is complete with the bytes read, and no disconnect notice. -/
def hasMessage (fs : FsInstance) : Bool := fs.fsMsg.bComplete && !isDisconnectNotice fs.fsMsg

/-- A message is complete with the bytes read, and a disconnect notice. -/
def hasNotice (fs : FsInstance) : Bool := fs.fsMsg.bComplete && isDisconnectNotice fs.fsMsg

/-- The handler of `c` writes to the socket or closes it. -/
def callsSocket (fs : FsInstance) : Completion → Bool
  | .resolve _ => false
  | .connect left ok => !ok && left ≠ 0
  | .read none => false
  | .read (some data) =>
    let fs := fs.appendData data
    fs.hasNotice || (fs.hasMessage && fs.answers)
  | .timer _ ok => ok && fs.state ≠ .starting && !fs.idles

/-- The handler of `c` aborts. -/
def aborts (fs : FsInstance) : Completion → Bool
  | .read (some data) =>
    let fs := fs.appendData data
    fs.hasMessage && fs.asserts
  | _ => false

/-- The handler of `c` starts no operation: after an error of a read or a timer, on a
    message that is of no use, or on a timer in a state where it does nothing. -/
def silent (fs : FsInstance) : Completion → Bool
  | .resolve _ => false
  | .connect _ _ => false
  | .read none => true
  | .read (some data) =>
    let fs := fs.appendData data
    fs.hasMessage && fs.ignores
  | .timer _ ok => !ok || fs.idles

/-- What the `switch` of `read_handler` decides, in these terms. -/
theorem processMessage_spec (fs : FsInstance) :
    (fs.asserts = true ∧ fs.answers = false ∧ fs.processMessage = none) ∨
      ∃ r, fs.asserts = false ∧ fs.processMessage = some r ∧ r.out.isSome = fs.answers ∧
        (r.bReadAgain || r.bSetTimer) = !fs.ignores ∧ r.fs.ops = fs.ops := by
  unfold asserts answers ignores processMessage
  cases hs : fs.state <;> simp only []
  case waitingForGreeting =>
    by_cases h : fs.fsMsg.category = .auth <;> simp [h]
  case authenticating =>
    by_cases h : fs.fsMsg.replyStatus = .ok <;> simp [h]
  case obtainingSipConfiguration =>
    by_cases h : isApiResponse fs.fsMsg = true
    · cases hp : fs.fsMsg.getSipProfile "internal".toList <;> simp [h]
    · simp [h]
  case queryingStatus =>
    by_cases h : isApiResponse fs.fsMsg = true
    · by_cases hr : fs.bReloadingXml = true
      · simp [h, hr]
      · cases hp : fs.fsMsg.getFsStatus with
        | asserts => simp [h, hr]
        | parsed c x =>
          by_cases hd : (c.isSome && x.isSome && fs.bDisconnected) = true
          · simp [h, hr, hd]
          · simp [h, hr, hd]
    · simp [h]
  all_goals simp

/-- Operations are added to the pending ones, and at least one if `b`. -/
def Adds (b : Bool) (ops ops' : List Op) : Prop := ∃ new, ops' = new ++ ops ∧ (new ≠ [] ↔ b = true)

end FsInstance

open FsInstance

/-- The end of `read_handler`: an operation is started if there is anything to do and
    the write does not fail. -/
theorem Reaction.finish_spec (r : Reaction) (io : Bool) :
    ((r.finish io).exit = .systemError ↔ r.out.isSome = true ∧ io = false) ∧
      (r.finish io).exit ≠ .aborted ∧
      Adds ((r.bReadAgain || r.bSetTimer) && !(r.out.isSome && !io)) r.fs.ops
        (r.finish io).fs.ops := by
  unfold finish
  by_cases hw : (r.out.isSome && !io) = true
  · rw [if_pos hw]
    exact ⟨by simpa using hw, by simp, [], rfl, by simp [hw]⟩
  · rw [if_neg hw]
    refine ⟨?_, by dsimp only; split <;> simp, ?_⟩
    · have : ¬(r.out.isSome = true ∧ io = false) := by simpa using hw
      simp only [this, iff_false]
      split <;> simp
    · cases hr : r.bReadAgain <;> cases ht : r.bSetTimer
      · exact ⟨[], rfl, by simp⟩
      · exact ⟨[_], rfl, by simp [hw]⟩
      · exact ⟨[.read], rfl, by simp [hw]⟩
      · exact ⟨[_, .read], rfl, by simp [hw]⟩

namespace FsInstance

/-- What `read_handler` does with the message so far. -/
theorem processData_spec (fs : FsInstance) (io : Bool) :
    ((fs.processData io).exit = .systemError ↔
        (fs.hasNotice || (fs.hasMessage && fs.answers)) = true ∧ io = false) ∧
      ((fs.processData io).exit = .aborted ↔ (fs.hasMessage && fs.asserts) = true) ∧
      ((fs.processData io).exit ≠ .aborted →
        Adds (!(fs.hasMessage && fs.ignores) &&
            !((fs.hasNotice || (fs.hasMessage && fs.answers)) && !io))
          fs.ops (fs.processData io).fs.ops) := by
  unfold processData hasMessage hasNotice
  by_cases hc : fs.fsMsg.bComplete = true
  · by_cases hd : isDisconnectNotice fs.fsMsg = true
    · cases io
      · exact ⟨by simp [hc, hd], by simp [hc, hd], fun _ => ⟨[], by simp [hc, hd], by simp [hc, hd]⟩⟩
      · exact ⟨by simp [hc, hd], by simp [hc, hd],
          fun _ => ⟨[.timer 1000], by simp [hc, hd, startTimer], by simp [hc, hd]⟩⟩
    · simp only [hc, hd, Bool.not_true, Bool.false_eq_true, if_false, Bool.and_false, Bool.not_false,
        Bool.and_self, Bool.true_and, Bool.false_or]
      rcases fs.processMessage_spec with ⟨ha, hn, hp⟩ | ⟨r, ha, hp, ho, hs, hops⟩
      · rw [hp, ha, hn]
        exact ⟨by simp, by simp, fun h => absurd rfl h⟩
      · rw [hp, ha]
        have := r.finish_spec io
        rw [ho, hs, hops] at this
        exact ⟨this.1, by simpa using this.2.1, fun _ => this.2.2⟩
  · exact ⟨by simp [hc], by simp [hc], fun _ => ⟨[.read], by simp [hc, asyncReadSome], by simp [hc]⟩⟩

/-- What `connect_handler` does. -/
theorem connectHandler_spec (fs : FsInstance) (ok : Bool) (left : ℕ) (io : Bool) :
    ((fs.connectHandler ok left io).exit = .systemError ↔ (!ok && left ≠ 0) = true ∧ io = false) ∧
      (fs.connectHandler ok left io).exit ≠ .aborted ∧
      Adds (!((!ok && left ≠ 0) && !io)) fs.ops (fs.connectHandler ok left io).fs.ops := by
  unfold connectHandler
  cases ok with
  | true => exact ⟨by simp, by simp, [.read], rfl, by simp⟩
  | false =>
    cases left with
    | zero => exact ⟨by simp, by simp, [.timer 5000], rfl, by simp⟩
    | succ left =>
      cases io
      · exact ⟨by simp, by simp, [], rfl, by simp⟩
      · exact ⟨by simp, by simp, [.connect left], rfl, by simp⟩

/-- What `timer_handler` does when the time has come. -/
theorem timerHandler_spec (fs : FsInstance) (io : Bool) :
    ((fs.timerHandler true io).exit = .systemError ↔
        (fs.state ≠ .starting && !fs.idles) = true ∧ io = false) ∧
      (fs.timerHandler true io).exit ≠ .aborted ∧
      Adds (!fs.idles && !((fs.state ≠ .starting && !fs.idles) && !io)) fs.ops
        (fs.timerHandler true io).fs.ops := by
  unfold timerHandler idles
  rw [if_pos rfl]
  cases fs.state <;> cases io
  all_goals
    refine ⟨by simp, by simp, ?_⟩
    first
      | exact ⟨[], rfl, by simp⟩
      | exact ⟨[_], rfl, by simp⟩

/-- What a handler does: when it is left by an exception of the socket or by an
    abort, and when it starts an operation. -/
theorem handle_spec (fs : FsInstance) (c : Completion) (io : Bool) :
    ((fs.handle c io).exit = .systemError ↔ fs.callsSocket c = true ∧ io = false) ∧
      ((fs.handle c io).exit = .aborted ↔ fs.aborts c = true) ∧
      ((fs.handle c io).exit ≠ .aborted →
        Adds (!fs.silent c && !(fs.callsSocket c && !io)) fs.ops (fs.handle c io).fs.ops) := by
  rcases c with left | ⟨left, ok⟩ | data | ⟨ms, ok⟩
  · cases left with
    | none => exact ⟨by simp [handle, resolveHandler, callsSocket],
        by simp [handle, resolveHandler, aborts], fun _ => ⟨[.timer 5000], rfl, by simp [silent, callsSocket]⟩⟩
    | some left => exact ⟨by simp [handle, resolveHandler, callsSocket],
        by simp [handle, resolveHandler, aborts], fun _ => ⟨[.connect left], rfl, by simp [silent, callsSocket]⟩⟩
  · obtain ⟨h₁, h₂, h₃⟩ := fs.connectHandler_spec ok left io
    exact ⟨h₁, by simpa [handle, aborts] using h₂, fun _ => h₃⟩
  · cases data with
    | none => exact ⟨by simp [handle, readHandler, callsSocket],
        by simp [handle, readHandler, aborts], fun _ => ⟨[], rfl, by simp [silent]⟩⟩
    | some data => exact (fs.appendData data).processData_spec io
  · cases ok with
    | false => exact ⟨by simp [handle, timerHandler, callsSocket],
        by simp [handle, timerHandler, aborts], fun _ => ⟨[], rfl, by simp [silent]⟩⟩
    | true =>
      obtain ⟨h₁, h₂, h₃⟩ := fs.timerHandler_spec io
      exact ⟨h₁, by simpa [handle, aborts] using h₂, fun _ => h₃⟩

/-- None of this depends on what else is pending. -/
theorem silent_ops (fs : FsInstance) (ops : List Op) (c : Completion) :
    { fs with ops := ops }.silent c = fs.silent c := by
  rcases c with _ | _ | (_ | _) | _ <;> rfl

theorem callsSocket_ops (fs : FsInstance) (ops : List Op) (c : Completion) :
    { fs with ops := ops }.callsSocket c = fs.callsSocket c := by
  rcases c with _ | _ | (_ | _) | _ <;> rfl

theorem aborts_ops (fs : FsInstance) (ops : List Op) (c : Completion) :
    { fs with ops := ops }.aborts c = fs.aborts c := by
  rcases c with _ | _ | (_ | _) | _ <;> rfl

/-! ## The instance always has something pending, or dies -/

/-- The runs of an instance after `start`. A step that aborts the process is no step
    of a run. -/
def machine : Machine FsInstance FsEvent where
  init := {fs | ∃ strAddress nEventSocketPort healthCheckMsecs,
    fs = new strAddress nEventSocketPort healthCheckMsecs}
  enabled fs e := fs.ready e = true ∧ (fs.step e).exit ≠ .aborted
  next fs e := (fs.step e).fs

instance (fs : FsInstance) (e : FsEvent) : Decidable (machine.enabled fs e) := inferInstanceAs (Decidable (_ ∧ _))

/-- The step leaves something pending: something else was, or the handler is not
    silent and its synchronous call on the socket, if it makes one, succeeds. -/
def KeepsGoing (fs : FsInstance) : FsEvent → Prop
  | .completed c io =>
    fs.ops.erase c.op ≠ [] ∨ (fs.silent c = false ∧ (fs.callsSocket c = true → io = true))
  | .reloadxml _ => True

theorem reloadxml_ops (fs : FsInstance) (io : Bool) :
    ∃ new, (fs.reloadxml io).fs.ops = new ++ fs.ops := by
  unfold reloadxml
  split_ifs
  · exact ⟨[], rfl⟩
  · exact ⟨[.read], rfl⟩
  · exact ⟨[], rfl⟩

theorem step_ops_ne_nil_iff {fs : FsInstance} {e : FsEvent} (h : fs.ops ≠ [])
    (he : machine.enabled fs e) : (machine.next fs e).ops ≠ [] ↔ fs.KeepsGoing e := by
  cases e with
  | completed c io =>
    obtain ⟨new, hnew, hiff⟩ :=
      ({ fs with ops := fs.ops.erase c.op }.handle_spec c io).2.2 he.2
    change (FsInstance.handle _ c io).fs.ops ≠ [] ↔ _
    rw [silent_ops, callsSocket_ops] at hiff
    rw [hnew, ne_eq, List.append_eq_nil_iff, not_and_or, ← ne_eq, hiff, KeepsGoing, or_comm]
    refine or_congr Iff.rfl ?_
    cases fs.silent c <;> cases fs.callsSocket c <;> cases io <;> simp
  | reloadxml io =>
    obtain ⟨new, hnew⟩ := fs.reloadxml_ops io
    change (fs.reloadxml io).fs.ops ≠ [] ↔ True
    simp [hnew, h]

/-- **The monitor goes dead only so.** From `start` on, an instance has an operation
    pending after every handler exactly if every step leaves something pending. -/
theorem pending_iff {fs : FsInstance} {es : List FsEvent} (h : machine.IsRun fs es) :
    machine.Always (fun fs => fs.ops ≠ []) fs es ↔ machine.Along KeepsGoing fs es := by
  obtain ⟨⟨a, p, n, rfl⟩, hes⟩ := h
  exact Machine.always_iff_along (I := fun _ => True) (fun _ _ _ _ _ _ => trivial)
    (fun fs e _ hfs he => step_ops_ne_nil_iff hfs he) trivial (List.cons_ne_nil _ _) hes

/-- A server that resolves and accepts the connection is waited for. -/
theorem pending_connected :
    machine.Always (fun fs => fs.ops ≠ []) (new "fs".toList 8021 1000)
      [.completed (.resolve (some 0)) true, .completed (.connect 0 true) true] := by
  refine (pending_iff ⟨⟨_, _, _, rfl⟩, ?_⟩).2 ?_
  · exact ⟨⟨by decide, by decide⟩, ⟨by decide, by decide⟩, trivial⟩
  · exact ⟨.inr ⟨rfl, by decide⟩, .inr ⟨rfl, by decide⟩, trivial⟩

/-- A server whose name cannot be resolved once is never looked for again: the timer
    that is set then does nothing. -/
theorem not_pending_resolveFailed :
    ¬∀ (fs : FsInstance) (es : List FsEvent), machine.IsRun fs es →
      machine.Always (fun fs => fs.ops ≠ []) fs es := by
  intro h
  have hrun : machine.IsRun (new "fs".toList 8021 1000)
      [.completed (.resolve none) true, .completed (.timer 5000 true) true] :=
    ⟨⟨_, _, _, rfl⟩, ⟨by decide, by decide⟩, ⟨by decide, by decide⟩, trivial⟩
  obtain ⟨-, -, hdead⟩ := h _ _ hrun
  exact hdead (by decide)

end FsInstance

end Ssp
