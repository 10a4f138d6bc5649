import Ssp.Fs.Loop
import Ssp.Lib.Roster

/-!
# The addresses of the servers

The monitor keeps one set of addresses, and a caller with one of them is taken for a
server that places a call (`isAppserver`). At first these are the addresses of the
configuration. A server that has found out its SIP address reports it, after every
connection to it: then the address of the configuration is taken out of the set, and the
SIP address put in.

The set stands for the current addresses of the servers until a report takes out the
address of another server, or leaves one behind that no server has any more.
`appservers_iff` says that it does so exactly as long as no report is like this:

* two servers may have one address in the configuration, with two ports, and when one of
  them has reported, the other is not known any more (`exampleShared_not_appservers`);
* a server that has reported before has its last SIP address in the set, and it is the
  address of the configuration that is taken out again.

`MonitorLoop.exists_reports` connects the reports to the loop of the monitor: what its
handlers do to the set are reports of their servers.
-/

namespace Ssp

/-- The monitor, and the SIP address that each server has reported last, by the position
    of the server. -/
structure SipReporting where
  monitor : FsMonitor
  reported : ℕ → Option Bytes := fun _ => none

/-- The server at position `i` reports `sipAddress`. -/
structure SipReport where
  i : ℕ
  sipAddress : Bytes

namespace SipReporting

/-- The server calls `notifySipServerAddress` with its own address. -/
def next (s : SipReporting) (e : SipReport) : SipReporting :=
  match s.monitor.servers[e.i]? with
  | none => s
  | some fs =>
    { monitor := s.monitor.notifySipServerAddress fs.strAddress e.sipAddress
      reported := Function.update s.reported e.i (some e.sipAddress) }

/-- Reports after `reset` with any list of servers. -/
def machine : Machine SipReporting SipReport where
  init := {s | ∃ m healthCheckMsecs nPort addresses,
    s = { monitor := FsMonitor.reset m healthCheckMsecs nPort addresses }}
  enabled := fun s e => ∃ fs, s.monitor.servers[e.i]? = some fs
  next := next

/-- The current address of the server at position `i`: the SIP address that it has
    reported last, or the address of the configuration. -/
def address (s : SipReporting) (i : ℕ) : Option Bytes :=
  s.monitor.servers[i]?.map fun fs => (s.reported i).getD fs.strAddress

/-- An application server is who has the current address of some server. -/
def Appservers (s : SipReporting) : Prop :=
  ∀ x, s.monitor.isAppserver x = true ↔ ∃ i, s.address i = some x

/-- A report that takes out no address of another server, and leaves none behind that no
    server has any more. -/
def Orderly (s : SipReporting) (e : SipReport) : Prop :=
  ∀ fs, s.monitor.servers[e.i]? = some fs →
    (fs.strAddress = e.sipAddress ∨ ∀ j, j ≠ e.i → s.address j ≠ some fs.strAddress) ∧
      (s.address e.i = some fs.strAddress ∨ s.address e.i = some e.sipAddress ∨
        ∃ j, j ≠ e.i ∧ s.address j = s.address e.i)

theorem appservers_iff_stands {s : SipReporting} : s.Appservers ↔ Stands s.monitor.setServers s.address := by
  unfold Appservers Stands FsMonitor.isAppserver
  simp only [decide_eq_true_eq]

theorem next_of_server {s : SipReporting} {e : SipReport} {fs : FsInstance}
    (hfs : s.monitor.servers[e.i]? = some fs) :
    s.next e = { monitor := s.monitor.notifySipServerAddress fs.strAddress e.sipAddress
                 reported := Function.update s.reported e.i (some e.sipAddress) } := by
  unfold next
  rw [hfs]

/-- A report gives its server the new address, and the others keep theirs. -/
theorem address_next {s : SipReporting} {e : SipReport} {fs : FsInstance}
    (hfs : s.monitor.servers[e.i]? = some fs) :
    (s.next e).address = Function.update s.address e.i (some e.sipAddress) := by
  funext j
  rw [next_of_server hfs]
  change s.monitor.servers[j]?.map _ = _
  by_cases hj : j = e.i
  · subst hj
    simp only [hfs, Function.update_self, Option.map_some, Option.getD_some]
  · simp only [Function.update_of_ne hj]
    rfl

/-- A report keeps the set exactly if it is orderly. -/
theorem appservers_next_iff {s : SipReporting} {e : SipReport} (h : s.Appservers)
    (he : machine.enabled s e) : (machine.next s e).Appservers ↔ s.Orderly e := by
  obtain ⟨fs, hfs⟩ := he
  have haddress : s.address e.i = some ((s.reported e.i).getD fs.strAddress) := by
    unfold address
    rw [hfs, Option.map_some]
  have hset : (machine.next s e).monitor.setServers =
      insert e.sipAddress (s.monitor.setServers.erase fs.strAddress) := by
    change (s.next e).monitor.setServers = _
    rw [next_of_server hfs]
    rfl
  rw [appservers_iff_stands, hset, show (machine.next s e).address = _ from address_next hfs,
    stands_insert_erase_iff (appservers_iff_stands.1 h) haddress]
  unfold Orderly
  simp only [hfs, Option.some.injEq, forall_eq', haddress]

/-- After `reset` the set has the addresses of the configuration. -/
theorem appservers_of_init {s : SipReporting} (h : s ∈ machine.init) : s.Appservers := by
  obtain ⟨m, healthCheckMsecs, nPort, addresses, rfl⟩ := h
  intro x
  unfold FsMonitor.isAppserver address FsMonitor.reset
  simp only [decide_eq_true_eq, List.mem_toFinset, List.mem_map, Option.getD_none, Option.map_eq_some_iff]
  constructor
  · rintro ⟨fs, hfs, rfl⟩
    obtain ⟨i, hi⟩ := List.mem_iff_getElem?.1 hfs
    exact ⟨i, fs, hi, rfl⟩
  · rintro ⟨i, fs, hi, rfl⟩
    exact ⟨fs, List.mem_of_getElem? hi, rfl⟩

/-- **The set of the addresses**: it has the current addresses of the servers, and no
    others, exactly as long as all reports are orderly. -/
theorem appservers_iff {s : SipReporting} {es : List SipReport} (h : machine.IsRun s es) :
    machine.Always Appservers s es ↔ machine.Along Orderly s es := by
  refine Machine.always_iff_along (I := fun _ => True) ?_ ?_ trivial (appservers_of_init h.1) h.2
  · exact fun _ _ _ _ _ _ => trivial
  · exact fun _ _ _ hs he => appservers_next_iff hs he

/-- Two servers on one host. -/
def exampleShared : SipReporting :=
  { monitor := FsMonitor.reset {} 1000 0 ["a:8021".toList, "a:8022".toList] }

/-- Two servers on two hosts. -/
def exampleSeparate : SipReporting :=
  { monitor := FsMonitor.reset {} 1000 0 ["a:8021".toList, "b:8021".toList] }

/-- On two hosts, both may report their addresses, and report them again. -/
theorem appservers_exampleSeparate :
    machine.Always Appservers exampleSeparate [⟨0, ['c']⟩, ⟨1, ['b']⟩, ⟨0, ['c']⟩] := by
  have hrun : machine.IsRun exampleSeparate [⟨0, ['c']⟩, ⟨1, ['b']⟩, ⟨0, ['c']⟩] :=
    ⟨⟨_, _, _, _, rfl⟩, ⟨_, rfl⟩, ⟨_, rfl⟩, ⟨_, rfl⟩, trivial⟩
  refine (appservers_iff hrun).2 ⟨?_, ?_, ?_, trivial⟩
  · rintro fs ⟨⟩
    -- The address that goes out belongs to no other server.
    refine ⟨.inr fun j hj => ?_, .inl rfl⟩
    match j with
    | 0 => exact absurd rfl hj
    | 1 => decide
    | j + 2 => nofun
  · rintro fs ⟨⟩
    -- The server keeps the address it had.
    exact ⟨.inl rfl, .inl rfl⟩
  · rintro fs ⟨⟩
    -- What is reported again is there already.
    refine ⟨.inr fun j hj => ?_, .inr (.inl rfl)⟩
    match j with
    | 0 => exact absurd rfl hj
    | 1 => decide
    | j + 2 => nofun

/-- On one host, the report of one server takes out the address of the other. -/
theorem exampleShared_not_appservers :
    ¬∀ (s : SipReporting) (es : List SipReport), machine.IsRun s es → machine.Always Appservers s es := by
  intro h
  obtain ⟨-, hlast⟩ := h exampleShared [⟨0, ['c']⟩] ⟨⟨_, _, _, _, rfl⟩, ⟨_, rfl⟩, trivial⟩
  have hin := (hlast ['a']).2 ⟨1, by decide⟩
  exact absurd hin (by decide)

end SipReporting

/-! ## The loop of the monitor -/

/-- What a handler does to the addresses of its server, and what it gives to
    `notifySipServerAddress`: nothing, or the SIP address that it has found, with the
    address of the configuration. -/
structure FsInstance.Reports (fs : FsInstance) (fs' : FsInstance) (notified : Option (Bytes × Bytes)) :
    Prop where
  address : fs'.strAddress = fs.strAddress
  own : notified = none ∧ fs'.strSipAddress = fs.strSipAddress ∨
    notified = some (fs.strAddress, fs'.strSipAddress)

namespace FsInstance

variable {fs : FsInstance}

theorem processMessage_reports {r : Reaction} (h : fs.processMessage = some r) :
    fs.Reports r.fs r.notified := by
  unfold processMessage at h
  dsimp only at h
  repeat' split at h
  all_goals cases h
  all_goals first | exact ⟨rfl, .inl ⟨rfl, rfl⟩⟩ | exact ⟨rfl, .inr rfl⟩

theorem finish_reports (r : Reaction) (io : Bool) :
    (r.finish io).fs.strAddress = r.fs.strAddress ∧
      (r.finish io).fs.strSipAddress = r.fs.strSipAddress ∧ (r.finish io).notified = r.notified := by
  unfold Reaction.finish
  split_ifs <;> exact ⟨rfl, rfl, rfl⟩

theorem processData_reports (fs : FsInstance) (io : Bool) :
    fs.Reports (fs.processData io).fs (fs.processData io).notified := by
  unfold processData
  split_ifs
  · exact ⟨rfl, .inl ⟨rfl, rfl⟩⟩
  · exact ⟨rfl, .inl ⟨rfl, rfl⟩⟩
  · exact ⟨rfl, .inl ⟨rfl, rfl⟩⟩
  · split
    next => exact ⟨rfl, .inl ⟨rfl, rfl⟩⟩
    next r hr =>
      obtain ⟨haddress, hsip, hnotified⟩ := finish_reports r io
      obtain ⟨hfs, hown⟩ := processMessage_reports hr
      rw [← hsip, ← hnotified] at hown
      exact ⟨haddress.trans hfs, hown⟩

theorem timerHandler_reports (fs : FsInstance) (ok io : Bool) :
    fs.Reports (fs.timerHandler ok io).fs (fs.timerHandler ok io).notified := by
  cases ok with
  | false => exact ⟨rfl, .inl ⟨rfl, rfl⟩⟩
  | true =>
    unfold timerHandler
    cases fs.state <;> cases io <;> exact ⟨rfl, .inl ⟨rfl, rfl⟩⟩

/-- A server reports for itself only. -/
theorem step_reports (fs : FsInstance) (e : FsEvent) : fs.Reports (fs.step e).fs (fs.step e).notified := by
  rcases e with ⟨c, io⟩ | io
  · rcases c with left | ⟨left, ok⟩ | data | ⟨ms, ok⟩
    · cases left <;> exact ⟨rfl, .inl ⟨rfl, rfl⟩⟩
    · cases ok <;> rcases left with _ | left <;> cases io <;> exact ⟨rfl, .inl ⟨rfl, rfl⟩⟩
    · cases data with
      | none => exact ⟨rfl, .inl ⟨rfl, rfl⟩⟩
      | some data =>
        obtain ⟨haddress, hown⟩ :=
          processData_reports (appendData { fs with ops := fs.ops.erase .read } data) io
        exact ⟨haddress, hown⟩
    · obtain ⟨haddress, hown⟩ := timerHandler_reports { fs with ops := fs.ops.erase (.timer ms) } ok io
      exact ⟨haddress, hown⟩
  · unfold step reloadxml
    dsimp only
    split_ifs <;> exact ⟨rfl, .inl ⟨rfl, rfl⟩⟩

end FsInstance

namespace MonitorLoop

/-- The loop has done the reports of `s`, and nothing else to the addresses; a server keeps
    the SIP address that it has reported. -/
structure Follows (l : MonitorLoop) (s : SipReporting) : Prop where
  setServers : l.monitor.setServers = s.monitor.setServers
  addresses : ∀ i : ℕ, l.monitor.servers[i]?.map FsInstance.strAddress =
    s.monitor.servers[i]?.map FsInstance.strAddress
  reported : ∀ (i : ℕ) fs sipAddress, l.monitor.servers[i]? = some fs → s.reported i = some sipAddress →
    fs.strSipAddress = sipAddress

theorem updateServer_servers (l : MonitorLoop) (i : ℕ) (o : Outcome) :
    (l.updateServer i o).servers = l.monitor.servers.set i o.fs := by
  unfold updateServer
  dsimp only
  split <;> rfl

/-- A server keeps the address of the configuration. -/
theorem map_strAddress_set {servers : List FsInstance} {i : ℕ} {fs fs' : FsInstance}
    (hfs : servers[i]? = some fs) (h : fs'.strAddress = fs.strAddress) (j : ℕ) :
    (servers.set i fs')[j]?.map FsInstance.strAddress = servers[j]?.map FsInstance.strAddress := by
  by_cases hij : i = j
  · subst hij
    rw [List.getElem?_set_self (List.getElem?_eq_some_iff.1 hfs).1, hfs, Option.map_some, Option.map_some, h]
  · rw [List.getElem?_set_ne hij]

/-- What a handler leaves of the addresses are none or one report of its server. -/
theorem follows_updateServer {l l' : MonitorLoop} {s : SipReporting} (h : l.Follows s)
    (hs : SipReporting.machine.Reachable s) {i : ℕ} {fs : FsInstance} (hfs : l.monitor.servers[i]? = some fs)
    {o : Outcome} (ho : fs.Reports o.fs o.notified) (hl : l'.monitor = l.updateServer i o) :
    ∃ s', SipReporting.machine.Reachable s' ∧ l'.Follows s' := by
  have hservers : l'.monitor.servers = l.monitor.servers.set i o.fs :=
    (congrArg FsMonitor.servers hl).trans (l.updateServer_servers i o)
  have haddresses (j : ℕ) : l'.monitor.servers[j]?.map FsInstance.strAddress =
      s.monitor.servers[j]?.map FsInstance.strAddress := by
    rw [hservers, map_strAddress_set hfs ho.address, h.addresses]
  have hlt := (List.getElem?_eq_some_iff.1 hfs).1
  have hself {fs' : FsInstance} (hfs' : l'.monitor.servers[i]? = some fs') : fs' = o.fs := by
    rw [hservers, List.getElem?_set_self hlt] at hfs'
    exact (Option.some.inj hfs').symm
  have hother {j : ℕ} (hj : j ≠ i) : l'.monitor.servers[j]? = l.monitor.servers[j]? := by
    rw [hservers, List.getElem?_set_ne hj.symm]
  rcases ho.own with ⟨hnone, hsip⟩ | hsome
  · -- Nothing is reported, and the server has the SIP address that it had.
    refine ⟨s, hs, ?_, haddresses, fun j fs' sipAddress hfs' hj => ?_⟩
    · rw [hl, updateServer, hnone]
      exact h.setServers
    · by_cases hji : j = i
      · subst hji
        rw [hself hfs', hsip]
        exact h.reported _ _ _ hfs hj
      · rw [hother hji] at hfs'
        exact h.reported _ _ _ hfs' hj
  · -- The server reports.
    have hconf := h.addresses i
    rw [hfs, Option.map_some] at hconf
    obtain ⟨conf, hsconf, haddress⟩ := Option.map_eq_some_iff.1 hconf.symm
    have hnext := SipReporting.next_of_server (s := s) (e := ⟨i, o.fs.strSipAddress⟩) hsconf
    refine ⟨s.next ⟨i, o.fs.strSipAddress⟩, .step hs ⟨conf, hsconf⟩, ?_, fun j => ?_,
      fun j fs' sipAddress hfs' hj => ?_⟩
    · rw [hl, updateServer, hsome, hnext, haddress]
      change insert _ (l.monitor.setServers.erase _) = insert _ (s.monitor.setServers.erase _)
      rw [h.setServers]
    · rw [hnext]
      exact haddresses j
    · have hj : Function.update s.reported i (some o.fs.strSipAddress) j = some sipAddress := by
        rw [hnext] at hj
        exact hj
      by_cases hji : j = i
      · subst hji
        rw [Function.update_self] at hj
        rw [hself hfs']
        exact Option.some.inj hj
      · rw [hother hji] at hfs'
        rw [Function.update_of_ne hji] at hj
        exact h.reported _ _ _ hfs' hj

/-- **The loop reports**: until it is stopped, the addresses are those after some reports of
    its servers. -/
theorem exists_reports {l : MonitorLoop} (h : machine.Reachable l) (hstopped : l.stopped = false) :
    ∃ s, SipReporting.machine.Reachable s ∧ l.Follows s := by
  induction h with
  | init hl =>
    obtain ⟨m, n, p, as, rfl⟩ := hl
    exact ⟨_, .init ⟨m, n, p, as, rfl⟩, rfl, fun _ => rfl, fun _ _ _ _ hr => by cases hr⟩
  | @step l e _ he ih =>
    cases e with
    | handler i c io =>
      obtain ⟨-, -, fs, hfs, -⟩ := he
      have hnext : machine.next l (.handler i c io) = _ := next_handler hfs c io
      rw [hnext] at hstopped ⊢
      obtain ⟨s, hs, hfollows⟩ := ih hstopped
      exact follows_updateServer hfollows hs hfs (fs.step_reports (.completed c io)) rfl
    | reloadxml i io =>
      obtain ⟨-, fs, hfs⟩ := he
      have hnext : machine.next l (.reloadxml i io) =
          { l with monitor := l.updateServer i (fs.step (.reloadxml io)) } := by
        simp only [machine, next, show l.monitor.servers[i]? = some fs from hfs]
      rw [hnext] at hstopped ⊢
      obtain ⟨s, hs, hfollows⟩ := ih hstopped
      exact follows_updateServer hfollows hs hfs (fs.step_reports (.reloadxml io)) rfl
    | stop => cases hstopped

end MonitorLoop

end Ssp
