import Ssp.Fs.Health
import Ssp.Fs.Monitor

/-!
# The loop of the monitor

The handlers of all servers run on one thread, in `FsMonitor::threadFunc`: it runs the
event loop, and again after an `FsDisconnectException` or an `FsReconnectException`
of a handler. Any other exception ends it, and with it the monitoring of all servers.
There is one such exception: the `boost::system::system_error` of a write to a socket,
or of its close, that fails.

`serving_iff` says that the loop keeps going exactly as long as no such call fails,
and no assertion.
-/

namespace Ssp

/-- The monitor and its thread. -/
structure MonitorLoop where
  monitor : FsMonitor
  running : Bool := true
  /-- `stop` was called. -/
  stopped : Bool := false
  /-- The process is gone. -/
  aborted : Bool := false

/-- What happens: a handler of a server runs, another thread calls `reloadxml` of a
    server, or `stop`. -/
inductive LoopEvent
  | handler (i : ℕ) (c : Completion) (io : Bool)
  | reloadxml (i : ℕ) (io : Bool)
  | stop

/-- Whether `threadFunc` goes on after the handler. -/
def Exit.isCaught : Exit → Bool
  | returned => true
  | fsDisconnectException => true
  | fsReconnectException => true
  | systemError => false
  | aborted => false

namespace MonitorLoop

/-- What a handler or `reloadxml` leaves of a server. -/
def updateServer (l : MonitorLoop) (i : ℕ) (o : Outcome) : FsMonitor :=
  let m := { l.monitor with servers := l.monitor.servers.set i o.fs }
  match o.notified with
  | some (fsAddress, sipAddress) => m.notifySipServerAddress fsAddress sipAddress
  | none => m

def next (l : MonitorLoop) : LoopEvent → MonitorLoop
  | .handler i c io =>
    match l.monitor.servers[i]? with
    | none => l
    | some fs =>
      let o := fs.step (.completed c io)
      { l with monitor := l.updateServer i o, running := o.exit.isCaught
               aborted := o.exit = .aborted }
  | .reloadxml i io =>
    match l.monitor.servers[i]? with
    | none => l
    | some fs => { l with monitor := l.updateServer i (fs.step (.reloadxml io)) }
  | .stop => { l with monitor := { l.monitor with servers := [] }, running := false, stopped := true }

/-- Handlers run only in the loop. -/
def enabled (l : MonitorLoop) : LoopEvent → Prop
  | .handler i c io =>
    l.aborted = false ∧ l.running = true ∧
      ∃ fs ∈ l.monitor.servers[i]?, fs.ready (.completed c io) = true
  | .reloadxml i _ => l.aborted = false ∧ ∃ fs, fs ∈ l.monitor.servers[i]?
  | .stop => l.aborted = false

/-- The loop from `run` on, after `reset` with any list of servers. -/
def machine : Machine MonitorLoop LoopEvent where
  init := {l | ∃ m healthCheckMsecs nPort addresses,
    l = { monitor := FsMonitor.reset m healthCheckMsecs nPort addresses }}
  enabled := enabled
  next := next

/-- Unless it was stopped, the loop is running, and runs the handler of any operation
    of any server that completes. -/
def Serving (l : MonitorLoop) : Prop :=
  l.stopped = false → l.running = true ∧ ∀ i fs c io, l.monitor.servers[i]? = some fs →
    fs.ready (.completed c io) = true → machine.enabled l (.handler i c io)

/-- No synchronous call of a handler on its socket fails, and no assertion. -/
def Harmless (l : MonitorLoop) : LoopEvent → Prop
  | .handler i c io => ∀ fs ∈ l.monitor.servers[i]?,
      (fs.callsSocket c = true → io = true) ∧ fs.aborts c = false
  | _ => True

theorem isCaught_iff {e : Exit} : e.isCaught = true ↔ e ≠ .systemError ∧ e ≠ .aborted := by
  cases e <;> simp [Exit.isCaught]

/-- Which handlers are left by an exception that ends the loop. -/
theorem isCaught_step (fs : FsInstance) (c : Completion) (io : Bool) :
    (fs.step (.completed c io)).exit.isCaught = true ↔
      (fs.callsSocket c = true → io = true) ∧ fs.aborts c = false := by
  obtain ⟨hsys, habort, -⟩ := { fs with ops := fs.ops.erase c.op }.handle_spec c io
  rw [FsInstance.callsSocket_ops] at hsys
  rw [FsInstance.aborts_ops] at habort
  rw [isCaught_iff, FsInstance.step, ne_eq, hsys, ne_eq, habort]
  cases io <;> simp

theorem serving_of_running {l : MonitorLoop} (hr : l.running = true) (ha : l.aborted = false) :
    l.Serving :=
  fun _ => ⟨hr, fun _ fs _ _ hi hready => ⟨ha, hr, fs, hi, hready⟩⟩

/-- A stopped loop is not running, and a running one is not aborted. -/
def Inv (l : MonitorLoop) : Prop :=
  (l.stopped = true → l.running = false) ∧ (l.running = true → l.aborted = false)

/-- What a handler leaves of the loop. -/
theorem next_handler {l : MonitorLoop} {i : ℕ} {fs : FsInstance}
    (hfs : l.monitor.servers[i]? = some fs) (c : Completion) (io : Bool) :
    l.next (.handler i c io) =
      { l with monitor := l.updateServer i (fs.step (.completed c io))
               running := (fs.step (.completed c io)).exit.isCaught
               aborted := (fs.step (.completed c io)).exit = .aborted } := by
  simp only [next, hfs]

/-- `reloadxml` does nothing to the loop. -/
theorem next_reloadxml (l : MonitorLoop) (i : ℕ) (io : Bool) :
    ∃ m, l.next (.reloadxml i io) = { l with monitor := m } := by
  simp only [next]
  split
  · exact ⟨l.monitor, rfl⟩
  · exact ⟨_, rfl⟩

/-- A loop that runs a handler was not stopped. -/
theorem stopped_of_running {l : MonitorLoop} (h : l.Inv) (hr : l.running = true) :
    l.stopped = false := by
  by_contra hs
  rw [h.1 (by simpa using hs)] at hr
  simp at hr

theorem inv_next {l : MonitorLoop} {e : LoopEvent} (h : l.Inv) (he : machine.enabled l e) :
    (l.next e).Inv := by
  cases e with
  | handler i c io =>
    obtain ⟨-, hr, fs, hfs, -⟩ := he
    rw [next_handler hfs]
    refine ⟨fun hst => ?_, fun hrun => ?_⟩
    · simp [stopped_of_running h hr] at hst
    · simpa using (isCaught_iff.1 hrun).2
  | reloadxml i io =>
    obtain ⟨m, hm⟩ := l.next_reloadxml i io
    rw [hm]
    exact h
  | stop => exact ⟨fun _ => rfl, fun hrun => by simp [next] at hrun⟩

theorem serving_next_iff {l : MonitorLoop} {e : LoopEvent} (hI : l.Inv) (h : l.Serving)
    (he : machine.enabled l e) : (l.next e).Serving ↔ l.Harmless e := by
  cases e with
  | handler i c io =>
    obtain ⟨-, hr, fs, hfs, -⟩ := he
    have hiff : l.Harmless (.handler i c io) ↔ (fs.step (.completed c io)).exit.isCaught = true := by
      rw [isCaught_step, Harmless, show l.monitor.servers[i]? = some fs from hfs]
      simp
    rw [hiff, next_handler hfs]
    constructor
    · intro hserv
      have hs := stopped_of_running hI hr
      -- The loop was not stopped before, and the handler does not stop it.
      exact (hserv hs).1
    · intro hcaught
      refine serving_of_running hcaught ?_
      simpa using (isCaught_iff.1 hcaught).2
  | reloadxml i io =>
    obtain ⟨m, hm⟩ := l.next_reloadxml i io
    rw [hm]
    -- What `reloadxml` throws goes to its caller, in another thread.
    refine iff_of_true (fun hs => ?_) trivial
    have hr := (h hs).1
    exact serving_of_running hr (hI.2 hr) hs
  -- A loop that was stopped owes nothing.
  | stop => exact iff_of_true (fun hs => by simp [next] at hs) trivial

/-- **Isolation.** The loop keeps serving all servers until it is stopped exactly if
    no handler makes a synchronous call on its socket that fails, and none aborts. -/
theorem serving_iff {l : MonitorLoop} {es : List LoopEvent} (h : machine.IsRun l es) :
    machine.Always Serving l es ↔ machine.Along Harmless l es := by
  obtain ⟨⟨m, n, p, as, rfl⟩, hes⟩ := h
  exact Machine.always_iff_along (I := Inv) (fun _ _ hI _ he _ => inv_next hI he)
    (fun _ _ hI hQ he => serving_next_iff hI hQ he) ⟨by simp, by simp⟩
    (serving_of_running rfl rfl) hes

/-- Two servers. -/
def twoServers : MonitorLoop :=
  { monitor := FsMonitor.reset {} 1000 0 ["a:8021".toList, "b:8021".toList] }

/-- The first server is connected, and says so. -/
def greeting (io : Bool) : List LoopEvent :=
  [.handler 0 (.resolve (some 0)) true, .handler 0 (.connect 0 true) true,
    .handler 0 (.read (some "Content-Type: auth/request\n\n".toList)) io]

theorem isRun_greeting (io : Bool) : machine.IsRun twoServers (greeting io) := by
  refine ⟨⟨_, _, _, _, rfl⟩, ⟨rfl, rfl, _, rfl, by decide⟩, ⟨rfl, rfl, _, rfl, by decide⟩,
    ⟨rfl, rfl, _, rfl, ?_⟩, trivial⟩
  cases io <;> decide

/-- As long as the writes succeed, the loop serves both. -/
theorem serving_greeting : machine.Always Serving twoServers (greeting true) := by
  refine (serving_iff (isRun_greeting true)).2 ⟨?_, ?_, ?_, trivial⟩ <;>
  · rintro fs ⟨⟩
    decide

/-- A server that closes the connection after its greeting ends the loop. -/
theorem not_serving_greeting :
    ¬∀ (l : MonitorLoop) (es : List LoopEvent), machine.IsRun l es →
      machine.Always Serving l es := by
  intro h
  obtain ⟨-, -, -, hlast⟩ := h _ _ (isRun_greeting false)
  exact absurd (hlast rfl).1 (by decide)

end MonitorLoop

end Ssp
