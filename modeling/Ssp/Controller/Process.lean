import Ssp.Config.Document
import Ssp.Controller.Relay
import Ssp.Controller.Setup
import Ssp.Controller.Typed
import Ssp.Lib.Latch

/-!
# The process and its configuration

The process reads its configuration file when it starts, and again on a SIGHUP. A file that is read
on a SIGHUP and is valid waits in `m_ConfigNew`, until the watchdog installs it
(`processWatchdogTimer`). The watchdog also ends the process, once all calls are over that it was
asked to take.

The SIP agent of the process here is the one of a stateful configuration. It stays what it is when a
stateless configuration is installed, and so the tables of the stateless mode stay empty.

* `inForce_of_reachable`: whatever calls and signals come, what the process decides with is the
  configuration that was installed last, up to the turns of its routes.
* `config_of_run`: of the files that are read between two ticks of the watchdog, the first valid one is
  installed, and the others are ignored.
* `taken_add_left`: the calls that the process has taken and the ones it may still take are what it was
  asked for.
* `idle_of_stopped`: as long as all configurations are stateful, the process ends with no call left.
-/

namespace Ssp

/-- The process. A writer that another one has taken the place of goes on with its queue: the timer of
    its own thread holds it. `loglevel` is `m_current_severity_threshold`, and `stats` the endpoint of the
    stats connection. -/
structure Process where
  controller : Controller
  config : SspConfig.Impl
  configNew : Option SspConfig.Impl := none
  nFSTimerMsecs : UInt64
  loglevel : SeverityLevel
  stats : Option (Bytes × UInt32)
  retired : List CdrWriter := []
  counter : ℤ := 5
  stopped : Bool := false

/-! ## The configuration -/

namespace SspConfig.Impl

/-- `min( getCountOfOutboundTrunks(), getMaxTerminationAttempts() )`. -/
def terminationRetries (config : Impl) : UInt32 :=
  min (UInt32.ofNat config.getCountOfOutboundTrunks) config.nMaxTerminationAttempts

/-- What `getCarrier` looks up. -/
def inboundCarriers (config : Impl) : List (Bytes × Bytes) :=
  config.mapInboundCarrier.elems.map fun c => (c.1, c.2.carrier)

/-- The endpoint of the stats connection: none for port `0`. -/
def statsEndpoint (config : Impl) : Option (Bytes × UInt32) :=
  if config.settings.statsPort = 0 then none
  else some (config.settings.statsAddress, config.settings.statsPort)

end SspConfig.Impl

/-- What the controller has from the configuration. -/
def Controller.install (c : Controller) (config : SspConfig.Impl) : Controller :=
  { c with
    config := config.toSspConfig
    mapInboundCarrier := config.inboundCarriers
    bIsActive := config.settings.bIsActive
    nOriginationSessionTimer := config.settings.nOriginationSessionTimer
    nTerminationRetries := config.terminationRetries }

/-- The writer: a configuration without a database leaves things as they are. -/
def Controller.createWriter (c : Controller) (config : SspConfig.Impl) : Controller :=
  if config.getCdrConnectInfo.isSome then { c with cdrWriter := some {} } else c

namespace Process

/-- `installConfig( false )`, with the stats connection that the watchdog opens after it. -/
def installConfig (p : Process) (config : SspConfig.Impl) : Process :=
  { p with
    controller := (p.controller.install config).createWriter config
    config := config
    configNew := none
    nFSTimerMsecs := config.settings.nFSTimerMsecs
    loglevel := config.settings.loglevel
    stats := config.statsEndpoint
    retired :=
      if config.getCdrConnectInfo.isSome then p.controller.cdrWriter.toList ++ p.retired else p.retired }

/-- The configuration in a file, if it is valid. A file that cannot be read is `none`. -/
def valid? (file : Option Ptree) : Option SspConfig.Impl :=
  file.bind fun t => (SspConfig.Impl.load t).toOption

/-- `handleSigHup`. -/
def handleSigHup (p : Process) (file : Option Ptree) : Process :=
  match p.configNew with
  | none => { p with configNew := valid? file }
  -- There is a new configuration already.
  | some _ => p

/-! ## The watchdog -/

/-- What is in `m_mapTerminationAttempts`. -/
def attemptsInProgress (s : Calls) : List Orq :=
  ((List.range s.next).map Handle.mk).filter fun orq => (s.mapTerminationAttempts orq).isSome

/-- No call is left: the condition of the stateful case, without that of nta. -/
def Idle (p : Process) : Prop :=
  p.controller.nIterationCount = 0 ∧ p.controller.calls.dialogs.pairs = [] ∧
    attemptsInProgress p.controller.calls = [] ∧ p.controller.calls.transactions.pairs = []

instance (p : Process) : Decidable p.Idle := inferInstanceAs (Decidable (_ ∧ _ ∧ _ ∧ _))

/-- The end of the process. -/
def shutDown (p : Process) : Process :=
  { p with
    controller := { p.controller with mapTrunkStats := fun _ => none, cdrWriter := none }
    retired := p.controller.cdrWriter.toList ++ p.retired
    stopped := true }

/-- The first part of `processWatchdogTimer`; `used` says whether nta has transactions left. -/
def watch (p : Process) (used : Bool) : Process :=
  match p.config.settings.agentMode with
  | .stateless =>
    -- The tables of the stateless mode are empty, whatever the calls.
    if p.controller.nIterationCount = 0 then
      { p with counter := p.counter - 1, stopped := p.counter - 1 = 0 }
    else p
  | .stateful => if p.Idle ∧ used = false then p.shutDown else p

/-- `processWatchdogTimer`. -/
def processWatchdogTimer (p : Process) (used : Bool) : Process :=
  (p.watch used).configNew.elim (p.watch used) (p.watch used).installConfig

end Process

/-! ## Runs -/

/-- What can happen. -/
inductive ProcessEvent
  /-- An event of the controller. -/
  | call (e : ControllerEvent)
  /-- A writer that is retired takes a record from its queue. -/
  | writeRetired (i : ℕ) (connected : Bool)
  /-- A SIGHUP, with the file that is read. -/
  | sigHup (file : Option Ptree)
  /-- The watchdog. -/
  | watchdog (used : Bool)

/-- The configuration that comes with an event. -/
def ProcessEvent.read? : ProcessEvent → Option SspConfig.Impl
  | .sigHup file => Process.valid? file
  | _ => none

def ProcessEvent.isWatchdog : ProcessEvent → Bool
  | .watchdog _ => true
  | _ => false

namespace Process

/-- The process after an event. -/
def next (p : Process) : ProcessEvent → Process
  | .call e => { p with controller := p.controller.next e }
  | .writeRetired i connected =>
    { p with retired := p.retired.modify i fun w => w.writeCdr p.controller.cdrs connected }
  | .sigHup file => p.handleSigHup file
  | .watchdog used => p.processWatchdogTimer used

/-- Nothing happens any more once the loop of sofia has ended. -/
def Possible (p : Process) (e : ProcessEvent) : Prop :=
  p.stopped = false ∧ match e with
    | .call e => p.controller.Possible e ∧ ¬(p.controller.next e).Crashed
    | .writeRetired _ _ | .sigHup _ | .watchdog _ => True

instance (p : Process) : (e : ProcessEvent) → Decidable (p.Possible e)
  | .call e => inferInstanceAs (Decidable (p.stopped = false ∧ p.controller.Possible e ∧ ¬(p.controller.next e).Crashed))
  | .writeRetired _ _ | .sigHup _ | .watchdog _ => inferInstanceAs (Decidable (p.stopped = false ∧ True))

/-- The process as it starts, with a configuration that was read and is valid. -/
structure Initial (p : Process) : Prop where
  read : ∃ t, SspConfig.Impl.load t = .ok p.config
  stateful : p.config.settings.agentMode = .stateful
  calls : p.controller.calls = {}
  cdrs : p.controller.cdrs = []
  attempts : p.controller.attempts = []
  cdrWriter : p.controller.cdrWriter = if p.config.getCdrConnectInfo.isSome then some {} else none
  absent : p.controller.absent = []
  asserts : p.controller.asserts = []
  /-- `SipLbController::SipLbController` -/
  installed : p.controller.install p.config = p.controller
  nFSTimerMsecs : p.nFSTimerMsecs = p.config.settings.nFSTimerMsecs
  loglevel : p.loglevel = p.config.settings.loglevel
  stats : p.stats = p.config.statsEndpoint
  servers : ∃ servers nPort, servers.Perm p.config.mapAppserver.elems ∧ p.controller.fsMonitor =
    FsMonitor.reset { nRRInterval := p.config.settings.nMaxRoundRobins } p.nFSTimerMsecs.toNat nPort
      (SspConfig.Impl.getAppservers servers)
  configNew : p.configNew = none
  retired : p.retired = []
  counter : p.counter = 5
  stopped : p.stopped = false

/-- The runs of the process, as long as it does not crash. -/
def machine : Machine Process ProcessEvent where
  init := { p | p.Initial }
  enabled := Possible
  next := next

instance (p : Process) (e : ProcessEvent) : Decidable (machine.enabled p e) := inferInstanceAs (Decidable (p.Possible e))

/-! ## The configuration in force -/

variable {p : Process}

/-- What the process decides with is what its configuration says. -/
structure InForce (p : Process) : Prop where
  read : ∃ t, SspConfig.Impl.load t = .ok p.config
  /-- Some routes were given out since the configuration was installed. -/
  routes : ∃ calls, p.controller.config = SspConfig.routing.exec p.config.toSspConfig calls
  mapInboundCarrier : p.controller.mapInboundCarrier = p.config.inboundCarriers
  bIsActive : p.controller.bIsActive = p.config.settings.bIsActive
  nOriginationSessionTimer : p.controller.nOriginationSessionTimer = p.config.settings.nOriginationSessionTimer
  nTerminationRetries : p.controller.nTerminationRetries = p.config.terminationRetries
  nFSTimerMsecs : p.nFSTimerMsecs = p.config.settings.nFSTimerMsecs
  loglevel : p.loglevel = p.config.settings.loglevel
  stats : p.stats = p.config.statsEndpoint

/-- The configuration that waits is valid as well. -/
def Waiting (p : Process) : Prop := ∀ config ∈ p.configNew, ∃ t, SspConfig.Impl.load t = .ok config

theorem load_of_valid? {file : Option Ptree} {config : SspConfig.Impl} (h : valid? file = some config) :
    ∃ t, SspConfig.Impl.load t = .ok config := by
  obtain ⟨t, -, ht⟩ := Option.bind_eq_some_iff.1 h
  refine ⟨t, ?_⟩
  cases hload : SspConfig.Impl.load t with
  | error e => rw [hload] at ht; cases ht
  | ok config' => rw [hload] at ht; exact congrArg Except.ok (Option.some.inj ht)

theorem Initial.inForce (h : p.Initial) : p.InForce := by
  have hsetup := h.installed
  exact ⟨h.read, ⟨[], congrArg Controller.config hsetup.symm⟩, congrArg Controller.mapInboundCarrier hsetup.symm,
    congrArg Controller.bIsActive hsetup.symm, congrArg Controller.nOriginationSessionTimer hsetup.symm,
    congrArg Controller.nTerminationRetries hsetup.symm, h.nFSTimerMsecs, h.loglevel, h.stats⟩

/-- A configuration that was just installed is in force. -/
theorem inForce_installConfig {config : SspConfig.Impl} (h : ∃ t, SspConfig.Impl.load t = .ok config) (p : Process) :
    (p.installConfig config).InForce := by
  have hsetup : ((p.controller.install config).createWriter config).setup = (p.controller.install config).setup := by
    unfold Controller.createWriter
    split_ifs <;> rfl
  exact ⟨h, ⟨[], congrArg Setup.config hsetup⟩, congrArg Setup.mapInboundCarrier hsetup,
    congrArg Setup.bIsActive hsetup, congrArg Setup.nOriginationSessionTimer hsetup,
    congrArg Setup.nTerminationRetries hsetup, rfl, rfl, rfl⟩

/-- An event of the controller asks for routes, and changes nothing else of what it decides with. -/
theorem InForce.call (h : p.InForce) (e : ControllerEvent) : (p.next (.call e)).InForce := by
  obtain ⟨n, hsetup⟩ := p.controller.setup_next_frame e
  obtain ⟨calls, hcalls⟩ := h.routes
  refine ⟨h.read, ⟨calls ++ p.controller.routeCalls e, ?_⟩, (congrArg Setup.mapInboundCarrier hsetup).trans
    h.mapInboundCarrier, (congrArg Setup.bIsActive hsetup).trans h.bIsActive,
    (congrArg Setup.nOriginationSessionTimer hsetup).trans h.nOriginationSessionTimer,
    (congrArg Setup.nTerminationRetries hsetup).trans h.nTerminationRetries, h.nFSTimerMsecs, h.loglevel, h.stats⟩
  rw [Machine.exec_append]
  change (p.controller.next e).config = _
  rw [p.controller.config_next e, hcalls]
  rfl

/-- The end of the process leaves the configuration alone. -/
theorem watch_frame (p : Process) (used : Bool) : ∃ mapTrunkStats cdrWriter retired counter stopped,
    p.watch used =
      { p with
        controller := { p.controller with mapTrunkStats := mapTrunkStats, cdrWriter := cdrWriter }
        retired := retired, counter := counter, stopped := stopped } := by
  unfold watch
  split
  · split_ifs
    · exact ⟨p.controller.mapTrunkStats, p.controller.cdrWriter, p.retired, _, _, rfl⟩
    · exact ⟨p.controller.mapTrunkStats, p.controller.cdrWriter, p.retired, p.counter, p.stopped, rfl⟩
  · split_ifs
    · exact ⟨_, _, _, p.counter, _, rfl⟩
    · exact ⟨p.controller.mapTrunkStats, p.controller.cdrWriter, p.retired, p.counter, p.stopped, rfl⟩

theorem configNew_watch (p : Process) (used : Bool) : (p.watch used).configNew = p.configNew := by
  obtain ⟨_, _, _, _, _, h⟩ := p.watch_frame used
  rw [h]

theorem config_watch (p : Process) (used : Bool) : (p.watch used).config = p.config := by
  obtain ⟨_, _, _, _, _, h⟩ := p.watch_frame used
  rw [h]

theorem InForce.watch (h : p.InForce) (used : Bool) : (p.watch used).InForce := by
  obtain ⟨_, _, _, _, _, heq⟩ := p.watch_frame used
  rw [heq]
  exact ⟨h.read, h.routes, h.mapInboundCarrier, h.bIsActive, h.nOriginationSessionTimer, h.nTerminationRetries,
    h.nFSTimerMsecs, h.loglevel, h.stats⟩

/-- An event keeps a valid configuration in force, and none but a valid one waiting. -/
theorem inForce_next (h : p.InForce) (hwaiting : p.Waiting) (e : ProcessEvent) :
    (p.next e).InForce ∧ (p.next e).Waiting := by
  cases e with
  | call e => exact ⟨h.call e, hwaiting⟩
  | writeRetired i connected =>
    exact ⟨⟨h.read, h.routes, h.mapInboundCarrier, h.bIsActive, h.nOriginationSessionTimer, h.nTerminationRetries,
      h.nFSTimerMsecs, h.loglevel, h.stats⟩, hwaiting⟩
  | sigHup file =>
    change (p.handleSigHup file).InForce ∧ (p.handleSigHup file).Waiting
    unfold handleSigHup
    split
    · refine ⟨⟨h.read, h.routes, h.mapInboundCarrier, h.bIsActive, h.nOriginationSessionTimer, h.nTerminationRetries,
        h.nFSTimerMsecs, h.loglevel, h.stats⟩, fun config hconfig => load_of_valid? hconfig⟩
    · exact ⟨h, hwaiting⟩
  | watchdog used =>
    change (p.processWatchdogTimer used).InForce ∧ (p.processWatchdogTimer used).Waiting
    unfold processWatchdogTimer
    rw [configNew_watch]
    cases hnew : p.configNew with
    | none =>
      refine ⟨h.watch used, fun config hconfig => hwaiting config ?_⟩
      rw [← configNew_watch p used]
      exact hconfig
    | some config =>
      exact ⟨inForce_installConfig (hwaiting config hnew) _, fun _ hnone => nomatch hnone⟩

/-- **The configuration in force**: whatever calls come and go, and whenever the file is read again, the
    process decides with a valid configuration, the one that was installed last, as it was read up to the
    turns of its carriers and trunks. -/
theorem inForce_of_reachable (h : machine.Reachable p) : p.InForce := by
  refine (h.invariant (I := fun p => p.InForce ∧ p.Waiting) ?_ ?_).1
  · exact fun p hp => ⟨Initial.inForce hp, fun config hconfig => by rw [Initial.configNew hp] at hconfig; cases hconfig⟩
  · exact fun p e hp _ => inForce_next hp.1 hp.2 e

/-! ## An example: a process with two carriers and one server -/

/-- A file with a server and two carriers. Calls come from the host `c`, and go to three trunks. -/
def exampleFile (timer : String) : Ptree :=
  .node [] [Ptree.element "ssp" [] ""
    [Ptree.element "inbound" [] "" [Ptree.element "appserver" [] "f" [], Ptree.element "session-timer" [] timer []],
      Ptree.element "outbound" [] "" [Ptree.element "max-termination-attempts" [] "2" []],
      Ptree.element "carrier" [("name", "c")] ""
        [Ptree.element "inbound" [] "" [Ptree.element "address" [] "c" []],
          Ptree.element "outbound" [("qty", "2"), ("charge-number", "9")] ""
            [Ptree.element "address" [("qty", "2")] "t" [], Ptree.element "address" [] "s" []]],
      Ptree.element "carrier" [("name", "d")] ""
        [Ptree.element "outbound" [("charge-number", "8")] "" [Ptree.element "address" [] "u" []]]]]

theorem isSome_exampleFile : (valid? (some (exampleFile "0"))).isSome = true := by decide

def exampleImpl : SspConfig.Impl := (valid? (some (exampleFile "0"))).get isSome_exampleFile

/-- The process that was asked to take `n` calls. -/
def exampleProcess (n : ℤ) : Process where
  controller :=
    { config := exampleImpl.toSspConfig
      mapInboundCarrier := exampleImpl.inboundCarriers
      bIsActive := exampleImpl.settings.bIsActive
      nOriginationSessionTimer := exampleImpl.settings.nOriginationSessionTimer
      nTerminationRetries := exampleImpl.terminationRetries
      nIterationCount := n
      fsMonitor := FsMonitor.reset { nRRInterval := exampleImpl.settings.nMaxRoundRobins }
        exampleImpl.settings.nFSTimerMsecs.toNat 0 (SspConfig.Impl.getAppservers exampleImpl.mapAppserver.elems) }
  config := exampleImpl
  nFSTimerMsecs := exampleImpl.settings.nFSTimerMsecs
  loglevel := exampleImpl.settings.loglevel
  stats := exampleImpl.statsEndpoint

theorem exampleProcess_initial (n : ℤ) : (exampleProcess n).Initial where
  read := load_of_valid? (show valid? (some (exampleFile "0")) = some exampleImpl from (Option.some_get _).symm)
  stateful := show exampleImpl.settings.agentMode = .stateful by decide
  calls := rfl
  cdrs := rfl
  attempts := rfl
  cdrWriter := show none = if exampleImpl.getCdrConnectInfo.isSome then some {} else none by decide
  absent := rfl
  asserts := rfl
  installed := rfl
  nFSTimerMsecs := rfl
  loglevel := rfl
  stats := rfl
  servers := ⟨_, 0, List.Perm.refl _, rfl⟩
  configNew := rfl
  retired := rfl
  counter := rfl
  stopped := rfl

/-! ## Which file is installed -/

/-- The configuration, and the one that waits. -/
def latch (p : Process) : Latch SspConfig.Impl := ⟨p.config, p.configNew⟩

/-- **The configuration is a latch**: the watchdog is its tick. -/
theorem latch_next (p : Process) (e : ProcessEvent) :
    (p.next e).latch = p.latch.next ProcessEvent.isWatchdog ProcessEvent.read? e := by
  cases e with
  | call e => exact congrArg (Latch.mk p.config) (Option.or_none.symm)
  | writeRetired i connected => exact congrArg (Latch.mk p.config) (Option.or_none.symm)
  | sigHup file =>
    change (p.handleSigHup file).latch = ⟨p.config, p.configNew.or (valid? file)⟩
    unfold handleSigHup
    cases hnew : p.configNew with
    | none => rfl
    | some config => exact congrArg (Latch.mk p.config) hnew
  | watchdog used =>
    change (p.processWatchdogTimer used).latch = ⟨p.configNew.getD p.config, none⟩
    unfold processWatchdogTimer
    rw [configNew_watch]
    cases hnew : p.configNew with
    | none =>
      refine congrArg₂ Latch.mk (config_watch p used) ?_
      exact (configNew_watch p used).trans hnew
    | some config => rfl

theorem latch_exec (p : Process) (es : List ProcessEvent) :
    (machine.exec p es).latch = p.latch.run ProcessEvent.isWatchdog ProcessEvent.read? es := by
  induction es generalizing p with
  | nil => rfl
  | cons e es ih =>
    rw [Latch.run_cons, ← p.latch_next e]
    exact ih (p.next e)

/-- **Which configuration is in force**: of the files that are read between two ticks of the watchdog the
    first valid one is installed. Those that are not valid, and those that are read while another
    one waits, change nothing, and what is read after the last tick waits. -/
theorem config_of_run {es : List ProcessEvent} (hrun : machine.IsRun p es) :
    (machine.exec p es).config = (es.splitOnP ProcessEvent.isWatchdog).dropLast.foldl
        (fun config round => (round.findSome? ProcessEvent.read?).getD config) p.config ∧
      (machine.exec p es).InForce := by
  have hwaiting : p.latch.waiting = none := Initial.configNew hrun.1
  refine ⟨?_, inForce_of_reachable ((Machine.Reachable.init hrun.1).exec hrun.2)⟩
  exact (congrArg Latch.value (p.latch_exec es)).trans (Latch.value_run hwaiting es)

/-- Of two files the first one is installed. -/
theorem config_of_run_exampleProcess :
    let es := [.sigHup (some (exampleFile "60")), .sigHup (some (exampleFile "90")), .watchdog false]
    machine.IsRun (exampleProcess (-1)) es ∧
      (machine.exec (exampleProcess (-1)) es).config.settings.nOriginationSessionTimer = 60 := by
  intro es
  have hrun : machine.IsRun (exampleProcess (-1)) es :=
    ⟨exampleProcess_initial (-1), ⟨rfl, trivial⟩, ⟨rfl, trivial⟩, ⟨rfl, trivial⟩, trivial⟩
  refine ⟨hrun, ?_⟩
  rw [(config_of_run hrun).1]
  decide

/-! ## The number of calls -/

/-- A call is taken, and counted. -/
def takes (p : Process) : ProcessEvent → Bool
  | .call e => p.controller.TakesCall e ∧ 0 < p.controller.nIterationCount
  | _ => false

/-- The INVITE of an origination call is handled, and not refused at once. -/
def originates (p : Process) : ProcessEvent → Bool
  | .call (.requestOutsideDialog sip _ _) => p.controller.Takes sip ∧
    (p.controller.determineCallType (sip.contactHost?.getD [])).1 = .origination
  | _ => false

theorem nIterationCount_watchdog (p : Process) (used : Bool) :
    (p.next (.watchdog used)).controller.nIterationCount = p.controller.nIterationCount := by
  have hwatch : (p.watch used).controller.nIterationCount = p.controller.nIterationCount := by
    obtain ⟨_, _, _, _, _, h⟩ := p.watch_frame used
    rw [h]
  change (p.processWatchdogTimer used).controller.nIterationCount = _
  unfold processWatchdogTimer
  cases (p.watch used).configNew with
  | none => exact hwatch
  | some config =>
    rw [← hwatch]
    change ((p.watch used).controller.install config |>.createWriter config).nIterationCount = _
    unfold Controller.createWriter
    split_ifs <;> rfl

/-- An event takes one of the calls that are left, or none. -/
theorem nIterationCount_next (h : 0 ≤ p.controller.nIterationCount) (e : ProcessEvent) :
    0 ≤ (p.next e).controller.nIterationCount ∧
      (p.next e).controller.nIterationCount.toNat + (p.takes e).toNat = p.controller.nIterationCount.toNat := by
  cases e with
  | call e =>
    have hsetup : (p.next (.call e)).controller.nIterationCount =
        ((p.controller.setup.asked (p.controller.routeCalls e)).counted (p.controller.TakesCall e)).nIterationCount :=
      congrArg Setup.nIterationCount (p.controller.setup_next e)
    rw [hsetup]
    change _ ∧ _ + (decide (p.controller.TakesCall e ∧ 0 < p.controller.nIterationCount)).toNat = _
    by_cases htakes : p.controller.TakesCall e
    · rw [Setup.counted_of htakes]
      change 0 ≤ (if 0 < p.controller.nIterationCount then p.controller.nIterationCount - 1
          else p.controller.nIterationCount) ∧
        (if 0 < p.controller.nIterationCount then p.controller.nIterationCount - 1
          else p.controller.nIterationCount).toNat + _ = _
      by_cases hpos : 0 < p.controller.nIterationCount
      · rw [if_pos hpos, decide_eq_true ⟨htakes, hpos⟩, Bool.toNat_true]
        omega
      · rw [if_neg hpos, decide_eq_false fun h => hpos h.2]
        exact ⟨h, rfl⟩
    · rw [Setup.counted_of_not htakes, decide_eq_false fun h => htakes h.1]
      exact ⟨h, rfl⟩
  | writeRetired i connected => exact ⟨h, rfl⟩
  | sigHup file =>
    change 0 ≤ (p.handleSigHup file).controller.nIterationCount ∧ _ = _
    have hsame : (p.handleSigHup file).controller = p.controller := by
      unfold handleSigHup
      split <;> rfl
    rw [hsame]
    exact ⟨h, congrArg (fun c : Controller => c.nIterationCount.toNat) hsame⟩
  | watchdog used =>
    rw [nIterationCount_watchdog]
    exact ⟨h, rfl⟩

/-- An origination call is taken only as long as a call is left. -/
theorem takes_of_originates (h : 0 ≤ p.controller.nIterationCount) {e : ProcessEvent} (he : p.originates e = true) :
    p.takes e = true := by
  cases e with
  | call e =>
    cases e with
    | requestOutsideDialog sip uuid nta =>
      obtain ⟨htakes, htype⟩ := of_decide_eq_true he
      have hadmits := htakes.2.2
      rw [htype] at hadmits
      exact decide_eq_true ⟨htakes, lt_of_le_of_ne h (Ne.symm hadmits.2)⟩
    | inviteResponse | ackOrCancel | requestInsideDialog | responseInsideDialog | sessionRefreshTimer
    | retransmittedResponse | writeCdr | clock | monitor | resetTrunkStats => cases he
  | writeRetired | sigHup | watchdog => cases he

/-- **The process takes the calls that it was asked for**: the calls it has taken and those it may still take
    are the number it was started with, through all reloads. No more origination calls are
    handled than that. -/
theorem taken_add_left {es : List ProcessEvent} (hrun : machine.IsRun p es) (h : 0 ≤ p.controller.nIterationCount) :
    machine.count takes p es + (machine.exec p es).controller.nIterationCount.toNat =
        p.controller.nIterationCount.toNat ∧
      machine.count originates p es ≤ p.controller.nIterationCount.toNat := by
  have htaken : machine.count takes p es + (machine.exec p es).controller.nIterationCount.toNat =
      p.controller.nIterationCount.toNat :=
    Machine.count_add_exec (m := machine) (I := fun p => 0 ≤ p.controller.nIterationCount)
      (f := fun p => p.controller.nIterationCount.toNat) (fun p e hp _ => nIterationCount_next hp e) h hrun.2
  have hle : machine.count originates p es ≤ machine.count takes p es :=
    Machine.count_le_count (m := machine) (I := fun p => 0 ≤ p.controller.nIterationCount)
      (fun p e hp _ => ⟨(nIterationCount_next hp e).1, takes_of_originates hp⟩) h hrun.2
  exact ⟨htaken, by omega⟩

/-- Of two INVITEs of servers the process takes the one that it was asked for. -/
theorem taken_add_left_exampleProcess :
    let es := [.call (.requestOutsideDialog (Controller.serverInvite ['f']) ['u'] {}),
      .call (.requestOutsideDialog Controller.exampleInvite ['v'] {})]
    machine.IsRun (exampleProcess 1) es ∧ machine.count takes (exampleProcess 1) es = 1 ∧
      machine.count originates (exampleProcess 1) es ≤ 1 := by
  intro es
  have hrun : machine.IsRun (exampleProcess 1) es :=
    ⟨exampleProcess_initial 1, ⟨rfl, trivial, by decide⟩, ⟨rfl, trivial, by decide⟩, trivial⟩
  obtain ⟨htaken, horiginates⟩ := taken_add_left hrun (by decide)
  have hleft : (machine.exec (exampleProcess 1) es).controller.nIterationCount.toNat = 0 := by decide
  exact ⟨hrun, by rw [hleft] at htaken; exact htaken, horiginates⟩

/-! ## The calls -/

theorem calls_watchdog (p : Process) (used : Bool) :
    (p.next (.watchdog used)).controller.calls = p.controller.calls := by
  have hwatch : (p.watch used).controller.calls = p.controller.calls := by
    obtain ⟨_, _, _, _, _, h⟩ := p.watch_frame used
    rw [h]
  change (p.processWatchdogTimer used).controller.calls = _
  unfold processWatchdogTimer
  cases (p.watch used).configNew with
  | none => exact hwatch
  | some config =>
    rw [← hwatch]
    change ((p.watch used).controller.install config |>.createWriter config).calls = _
    unfold Controller.createWriter
    split_ifs <;> rfl

theorem calls_sigHup (p : Process) (file : Option Ptree) :
    (p.next (.sigHup file)).controller.calls = p.controller.calls := by
  change (p.handleSigHup file).controller.calls = _
  unfold handleSigHup
  split <;> rfl

/-- **Signals leave the calls alone**: what every event of the controller keeps, the process keeps. -/
theorem calls_of_reachable {I : Calls → Prop} (init : I {})
    (step : ∀ c e, I c.calls → Controller.machine.enabled c e → I (c.next e).calls) (h : machine.Reachable p) :
    I p.controller.calls := by
  refine h.invariant (I := fun p => I p.controller.calls) ?_ ?_
  · intro p hp
    rw [Initial.calls hp]
    exact init
  · intro p e hp he
    cases e with
    | call e => exact step p.controller e hp he.2
    | writeRetired i connected => exact hp
    | sigHup file => exact (p.calls_sigHup file).symm ▸ hp
    | watchdog used => exact (p.calls_watchdog used).symm ▸ hp

theorem relayInv_of_reachable (h : machine.Reachable p) : p.controller.calls.RelayInv :=
  calls_of_reachable Calls.relayInv_empty
    (fun _ _ hc he => hc.callSteps (Controller.callSteps_next hc.next_pos he.1)) h

/-- **What a request is answered with, through all reloads**: at most one final response is passed on to
    it, of the transaction that was the last created for it, and it is paired with one
    transaction at a time. -/
theorem answers_of_reachable (h : machine.Reachable p) :
    (∀ irq orq orq', (irq, orq) ∈ p.controller.calls.transactions → (irq, orq') ∈ p.controller.calls.transactions →
        orq = orq') ∧
      (∀ irq, p.controller.calls.log.countP (CallEvent.isFinalReply irq) ≤ 1) ∧
      ∀ irq orq reply, .replied irq orq reply ∈ p.controller.calls.log → 200 ≤ reply.status →
        p.controller.calls.log.findSome? (CallEvent.createdFor irq) = some orq := by
  have hrelay := relayInv_of_reachable h
  refine ⟨fun irq orq orq' => Bimap.left_unique, hrelay.orderly.countP_le_one, ?_⟩
  intro irq orq reply hmem hfinal
  obtain ⟨new, old, hlog⟩ := List.append_of_mem hmem
  have horderly := hrelay.orderly
  rw [hlog] at horderly ⊢
  exact horderly.lastCreated_of_final hfinal

/-! ## The end -/

theorem attemptsInProgress_eq_nil_iff {s : Calls} (h : s.Typed) :
    attemptsInProgress s = [] ↔ ∀ orq, s.mapTerminationAttempts orq = none := by
  constructor
  · intro hnil orq
    by_contra hne
    refine List.ne_nil_of_mem (a := orq) ?_ hnil
    refine List.mem_filter.2 ⟨List.mem_map.2 ⟨orq.address, ?_, rfl⟩, Option.isSome_iff_ne_none.2 hne⟩
    exact List.mem_range.2 (h.attempt_lt orq hne)
  · intro hnone
    refine List.filter_eq_nil_iff.2 fun orq _ => ?_
    rw [hnone orq]
    exact Bool.false_ne_true

/-- The configurations that the process has are stateful, and it has not ended with calls left. -/
structure EndsIdle (p : Process) : Prop where
  config : p.config.settings.agentMode = .stateful
  configNew : ∀ config ∈ p.configNew, config.settings.agentMode = .stateful
  idle : p.stopped = true → p.Idle

theorem Idle.congr {p' : Process} (h : p.Idle)
    (hcount : p'.controller.nIterationCount = p.controller.nIterationCount)
    (hcalls : p'.controller.calls = p.controller.calls) : p'.Idle := by
  unfold Idle
  rw [hcount, hcalls]
  exact h

/-- The watchdog ends the process when it is idle. -/
theorem EndsIdle.watchdog (h : p.EndsIdle) (hrunning : p.stopped = false) (used : Bool) :
    (p.next (.watchdog used)).EndsIdle := by
  have hstopped : (p.watch used).stopped = true → p.Idle := by
    unfold watch
    rw [h.config]
    dsimp only
    split_ifs with hidle
    · exact fun _ => hidle.1
    · exact fun hstop => absurd (hrunning ▸ hstop) Bool.false_ne_true
  have hidle : (p.next (.watchdog used)).stopped = true → (p.next (.watchdog used)).Idle := by
    intro hstop
    refine Idle.congr (hstopped ?_) (p.nIterationCount_watchdog used) (p.calls_watchdog used)
    change (p.processWatchdogTimer used).stopped = true at hstop
    unfold processWatchdogTimer at hstop
    cases hnew : (p.watch used).configNew with
    | none => rwa [hnew] at hstop
    | some config => rwa [hnew] at hstop
  have hlatch := p.latch_next (.watchdog used)
  have hconfig : (p.next (.watchdog used)).config = p.configNew.getD p.config := congrArg Latch.value hlatch
  have hnone : (p.next (.watchdog used)).configNew = none := congrArg Latch.waiting hlatch
  refine ⟨?_, fun config hnew => ?_, hidle⟩
  · rw [hconfig]
    cases hnew : p.configNew with
    | none => exact h.config
    | some config => exact h.configNew config hnew
  · rw [hnone] at hnew
    cases hnew

theorem EndsIdle.next (h : p.EndsIdle) {e : ProcessEvent} (he : p.Possible e)
    (hread : ∀ config ∈ e.read?, config.settings.agentMode = .stateful) : (p.next e).EndsIdle := by
  have hrunning : p.stopped = false := he.1
  cases e with
  | call e => exact ⟨h.config, h.configNew, fun hstop => absurd (hrunning ▸ hstop) Bool.false_ne_true⟩
  | writeRetired i connected =>
    exact ⟨h.config, h.configNew, fun hstop => absurd (hrunning ▸ hstop) Bool.false_ne_true⟩
  | sigHup file =>
    change (p.handleSigHup file).EndsIdle
    unfold handleSigHup
    split
    · exact ⟨h.config, hread, fun hstop => absurd (hrunning ▸ hstop) Bool.false_ne_true⟩
    · exact h
  | watchdog used => exact h.watchdog hrunning used

/-- **The end of the process**: as long as all configurations are stateful, it ends only once it has taken all
    calls that it was asked for, and no call is left, nor any transaction or attempt. -/
theorem idle_of_stopped {es : List ProcessEvent} (hrun : machine.IsRun p es)
    (hread : ∀ e ∈ es, ∀ config ∈ e.read?, config.settings.agentMode = .stateful)
    (hstop : (machine.exec p es).stopped = true) :
    (machine.exec p es).controller.nIterationCount = 0 ∧
      (∀ a b, (a, b) ∉ (machine.exec p es).controller.calls.dialogs) ∧
      (∀ a, (machine.exec p es).controller.calls.callType a = .origination →
        a ∉ (machine.exec p es).controller.calls.legs) ∧
      (∀ irq orq, (irq, orq) ∉ (machine.exec p es).controller.calls.transactions) ∧
      ∀ orq, (machine.exec p es).controller.calls.mapTerminationAttempts orq = none := by
  have hreach : machine.Reachable (machine.exec p es) := (Machine.Reachable.init hrun.1).exec hrun.2
  have htyped : (machine.exec p es).controller.calls.Typed :=
    calls_of_reachable Calls.typed_empty (fun _ _ hc he => Controller.typed_next hc he) hreach
  have hstart : p.EndsIdle := by
    have hinit : p.Initial := hrun.1
    refine ⟨hinit.stateful, fun config hconfig => ?_, fun hstop => ?_⟩
    · rw [hinit.configNew] at hconfig
      cases hconfig
    · rw [hinit.stopped] at hstop
      cases hstop
  have hends : (machine.exec p es).EndsIdle :=
    Machine.exec_invariant (m := machine) (fun _ _ hp he hread => hp.next he hread) hstart hrun.2 hread
  obtain ⟨hcount, hdialogs, hattempts, htransactions⟩ := hends.idle hstop
  have hnodialog : ∀ a b, (a, b) ∉ (machine.exec p es).controller.calls.dialogs := by
    intro a b hab
    rw [Bimap.mem_def, hdialogs] at hab
    exact List.not_mem_nil hab
  refine ⟨hcount, hnodialog, ?_, ?_, (attemptsInProgress_eq_nil_iff htyped).1 hattempts⟩
  · intro a horigination hlive
    obtain ⟨b, hab⟩ := (htyped.live a horigination).1 hlive
    exact hnodialog a b hab
  · intro irq orq hpair
    rw [Bimap.mem_def, htransactions] at hpair
    exact List.not_mem_nil hpair

theorem idle_of_stopped_exampleProcess :
    (machine.exec (exampleProcess 0) [.watchdog false]).stopped = true ∧
      (machine.exec (exampleProcess 0) [.watchdog false]).controller.nIterationCount = 0 := by
  have hrun : machine.IsRun (exampleProcess 0) [.watchdog false] :=
    ⟨exampleProcess_initial 0, ⟨rfl, trivial⟩, trivial⟩
  have hstop : (machine.exec (exampleProcess 0) [.watchdog false]).stopped = true := by decide
  refine ⟨hstop, (idle_of_stopped hrun ?_ hstop).1⟩
  rintro e he config hconfig
  obtain rfl := List.mem_singleton.1 he
  cases hconfig

end Process

end Ssp
