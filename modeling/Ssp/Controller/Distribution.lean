import Ssp.Controller.Crankbacks
import Ssp.Controller.Process

/-!
# Where the termination calls go

The controller asks its configuration for a route when a server calls (`firstRoute`), and again
for each crankback. Calls that are anonymous and crankbacks take a trunk out of turn of the
carriers, but not out of turn of the trunks of the carrier.

* `url_of_routed`: what an event sends to a trunk goes to the route that it asked for.
* `distributed_of_reachable`: from any state of the process, the calls go to the carriers in turn,
  and the attempts of a carrier to its trunks in turn, by their weights.
-/

namespace Ssp

namespace SspConfig

variable {cfg : SspConfig}

theorem answers_append (cfg : SspConfig) (calls calls' : List RouteCall) :
    cfg.answers (calls ++ calls') = cfg.answers calls ++ (routing.exec cfg calls).answers calls' := by
  induction calls generalizing cfg with
  | nil => rfl
  | cons call calls ih =>
    rw [List.cons_append, answers, ih, answers]
    rfl

/-- The routes that some calls are answered with. -/
def routesGiven (cfg : SspConfig) (calls : List RouteCall) : List Route := (cfg.answers calls).filterMap Prod.snd

theorem routesGiven_append (cfg : SspConfig) (calls calls' : List RouteCall) :
    cfg.routesGiven (calls ++ calls') = cfg.routesGiven calls ++ (routing.exec cfg calls).routesGiven calls' := by
  rw [routesGiven, answers_append, List.filterMap_append]
  rfl

theorem carriersGiven_append (cfg : SspConfig) (calls calls' : List RouteCall) :
    cfg.carriersGiven (calls ++ calls') =
      cfg.carriersGiven calls ++ (routing.exec cfg calls).carriersGiven calls' := by
  rw [carriersGiven, answers_append, List.filterMap_append]
  rfl

theorem routesGiven_singleton (cfg : SspConfig) (call : RouteCall) :
    cfg.routesGiven [call] = ((cfg.ask call).map Prod.fst).toList := by
  cases hask : cfg.ask call with
  | none => rw [routesGiven, answers_of_none hask]; rfl
  | some answer => rw [routesGiven, answers_of_some hask]; rfl

/-- The trunks of a carrier among the routes. -/
theorem addressesFor_eq_routesGiven (cfg : SspConfig) (carrier : Bytes) (calls : List RouteCall) :
    cfg.addressesFor carrier calls =
      ((cfg.routesGiven calls).filter fun route => route.carrier = carrier).map fun route => route.trunk.text := by
  unfold addressesFor routesGiven
  induction cfg.answers calls with
  | nil => rfl
  | cons a as ih =>
    obtain ⟨call, _ | route⟩ := a
    · exact ih
    · have hroute : ((call, some route) :: as).filterMap Prod.snd = route :: as.filterMap Prod.snd := rfl
      rw [hroute]
      by_cases hc : route.carrier = carrier
      · rw [List.filterMap_cons_some (b := route.trunk.text) (by simp [hc]), ih, List.filter_cons_of_pos (by simp [hc])]
        rfl
      · rw [List.filterMap_cons_none (by simp [hc]), ih, List.filter_cons_of_neg (by simp [hc])]

end SspConfig

/-- The user in the To of the message that comes in. -/
def ControllerEvent.toUser : ControllerEvent → Option Bytes
  | .requestOutsideDialog sip _ _ => sip.sipTo.url.user
  | .inviteResponse _ sip _ => sip.sipTo.url.user
  | _ => none

namespace Controller

/-! ## Routes -/

/-- The route of a crankback. -/
def crankbackRoute (c : Controller) (a : TerminationAttempt) (sip : Response) : Option Route :=
  if (sip.status = 503 ∨ sip.status = 480) ∧ a.nAttemptCount < c.nTerminationRetries - 1 then
    (c.config.getTerminationRouteForAltCarrier a.carrier).map Prod.fst
  else none

/-- The route that is asked for when an event is handled. -/
def routed (c : Controller) : ControllerEvent → Option Route
  | .requestOutsideDialog sip _ _ => if c.Terminates sip then (c.firstRoute sip).map Prod.fst else none
  | .inviteResponse orq sip _ =>
    if c.Reached orq then (c.attemptOf orq).bind fun a => c.crankbackRoute a.2 sip else none
  | _ => none

/-- The call has a carrier of its own: it is anonymous, and there is one for such calls. -/
def RoutedAnonymously (c : Controller) (sip : Request) : Prop :=
  c.config.strAnonymousCallRoutingCarrier ≠ [] ∧ sip.isAnonymousCall = true ∧
    c.config.getTerminationRouteForCarrier c.config.strAnonymousCallRoutingCarrier ≠ none

instance (c : Controller) (sip : Request) : Decidable (c.RoutedAnonymously sip) :=
  inferInstanceAs (Decidable (_ ∧ _ ∧ _))

/-- The carrier of a call that goes to the carrier whose turn it is. -/
def carrierInTurn (c : Controller) : ControllerEvent → Option Bytes
  | .requestOutsideDialog sip uuid nta =>
    if c.RoutedAnonymously sip then none
    else (c.routed (.requestOutsideDialog sip uuid nta)).map fun route => route.carrier
  | _ => none

variable (c : Controller)

/-! ## What one event asks for -/

theorem firstCalls_of_anonymous {sip : Request} (h : c.RoutedAnonymously sip) :
    c.firstCalls sip = [.forCarrier c.config.strAnonymousCallRoutingCarrier] ∧
      c.firstRoute sip = c.config.getTerminationRouteForCarrier c.config.strAnonymousCallRoutingCarrier := by
  obtain ⟨r, hr⟩ := Option.ne_none_iff_exists'.1 h.2.2
  unfold firstCalls firstRoute
  dsimp only
  rw [if_pos ⟨h.1, h.2.1⟩, if_pos ⟨h.1, h.2.1⟩, hr]
  exact ⟨rfl, rfl⟩

/-- Another call asks for the next route, and may have asked in vain before. -/
theorem firstCalls_of_not_anonymous {sip : Request} (h : ¬c.RoutedAnonymously sip) :
    (∃ calls, c.firstCalls sip = calls ++ [.next] ∧ SspConfig.routing.exec c.config calls = c.config ∧
        c.config.routesGiven calls = [] ∧ .next ∉ calls ∧ c.config.carriersGiven calls = []) ∧
      c.firstRoute sip = c.config.getTerminationRoute := by
  unfold firstCalls firstRoute
  dsimp only
  split_ifs with hanonymous
  · have hnone : c.config.getTerminationRouteForCarrier c.config.strAnonymousCallRoutingCarrier = none := by
      by_contra hne
      exact h ⟨hanonymous.1, hanonymous.2, hne⟩
    have hask : c.config.ask (.forCarrier c.config.strAnonymousCallRoutingCarrier) = none := hnone
    rw [hnone]
    refine ⟨⟨[.forCarrier c.config.strAnonymousCallRoutingCarrier], rfl, ?_, ?_, by simp, ?_⟩, rfl⟩
    · exact SspConfig.routing_next_of_none c.config hask
    · rw [SspConfig.routesGiven_singleton, SspConfig.ask, hnone]
      rfl
    · exact SspConfig.carriersGiven_of_none hask []
  · exact ⟨⟨[], rfl, rfl, rfl, List.not_mem_nil, rfl⟩, rfl⟩

/-- The calls of an event are answered with its route. -/
theorem routesGiven_routeCalls (e : ControllerEvent) : c.config.routesGiven (c.routeCalls e) = (c.routed e).toList := by
  cases e with
  | requestOutsideDialog sip uuid nta =>
    change c.config.routesGiven (if _ then _ else _) = Option.toList (if _ then _ else _)
    split_ifs with hterminates
    · by_cases hanonymous : c.RoutedAnonymously sip
      · obtain ⟨hcalls, hroute⟩ := c.firstCalls_of_anonymous hanonymous
        rw [hcalls, hroute, SspConfig.routesGiven_singleton]
        rfl
      · obtain ⟨⟨calls, hcalls, hexec, hgiven, -⟩, hroute⟩ := c.firstCalls_of_not_anonymous hanonymous
        rw [hcalls, hroute, SspConfig.routesGiven_append, hgiven, hexec, List.nil_append,
          SspConfig.routesGiven_singleton]
        rfl
    · rfl
  | inviteResponse orq sip nta =>
    change c.config.routesGiven (c.responseCalls orq sip) = Option.toList (if _ then _ else _)
    unfold responseCalls
    split_ifs with hreached
    · cases c.attemptOf orq with
      | none => rfl
      | some a =>
        change c.config.routesGiven (if _ then _ else _) = Option.toList (if _ then _ else _)
        split_ifs with hcrank
        · exact SspConfig.routesGiven_singleton _ _
        · rfl
    · rfl
  | ackOrCancel | requestInsideDialog | responseInsideDialog | sessionRefreshTimer | retransmittedResponse
  | writeCdr | clock | monitor | resetTrunkStats => rfl

/-- Among them, the call for the next route is the one of a call that goes to the carrier whose turn it is. -/
theorem carriersGiven_routeCalls (e : ControllerEvent) :
    c.config.carriersGiven (c.routeCalls e) = (c.carrierInTurn e).toList := by
  cases e with
  | requestOutsideDialog sip uuid nta =>
    change c.config.carriersGiven (if _ then _ else _) =
      Option.toList (if _ then _ else Option.map _ (if _ then _ else _))
    by_cases hterminates : c.Terminates sip
    · rw [if_pos hterminates, if_pos hterminates]
      by_cases hanonymous : c.RoutedAnonymously sip
      · obtain ⟨hcalls, -⟩ := c.firstCalls_of_anonymous hanonymous
        rw [hcalls, if_pos hanonymous]
        obtain ⟨answer, hanswer⟩ := Option.ne_none_iff_exists'.1 hanonymous.2.2
        have hask : c.config.ask (.forCarrier c.config.strAnonymousCallRoutingCarrier) = some (answer.1, answer.2) :=
          hanswer
        rw [SspConfig.carriersGiven_of_some hask]
        rfl
      · obtain ⟨⟨calls, hcalls, hexec, -, -, hgiven⟩, hroute⟩ := c.firstCalls_of_not_anonymous hanonymous
        obtain ⟨route, config, hnext, -⟩ := c.config.serves_next
        have hask : c.config.ask .next = some (route, config) := hnext
        rw [hcalls, hroute, if_neg hanonymous, SspConfig.carriersGiven_append, hgiven, hexec, List.nil_append,
          SspConfig.carriersGiven_of_some hask, hnext]
        rfl
    · rw [if_neg hterminates, if_neg hterminates]
      split_ifs <;> rfl
  | inviteResponse orq sip nta =>
    change c.config.carriersGiven (c.responseCalls orq sip) = []
    unfold responseCalls
    split_ifs with hreached
    · cases c.attemptOf orq with
      | none => rfl
      | some a =>
        change c.config.carriersGiven (if _ then _ else _) = []
        split_ifs with hcrank
        · cases hask : c.config.ask (.altCarrier a.2.carrier) with
          | none => exact SspConfig.carriersGiven_of_none hask []
          | some answer =>
            rw [SspConfig.carriersGiven_of_some hask]
            rfl
        · rfl
    · rfl
  | ackOrCancel | requestInsideDialog | responseInsideDialog | sessionRefreshTimer | retransmittedResponse
  | writeCdr | clock | monitor | resetTrunkStats => rfl

/-! ## Runs -/

/-- The routes of a run. -/
def routesOf : Controller → List ControllerEvent → List Route
  | _, [] => []
  | c, e :: es => (c.routed e).toList ++ routesOf (c.next e) es

/-- The trunks of a carrier that are taken in a run, one for each INVITE that is to go there. -/
def trunksFor (carrier : Bytes) (es : List ControllerEvent) : List Bytes :=
  ((c.routesOf es).filter fun route => route.carrier = carrier).map fun route => route.trunk.text

/-- The carriers of the calls of a run that go to the carrier whose turn it is. -/
def carriersInTurn : Controller → List ControllerEvent → List Bytes
  | _, [] => []
  | c, e :: es => (c.carrierInTurn e).toList ++ carriersInTurn (c.next e) es

theorem routesOf_eq (es : List ControllerEvent) : c.routesOf es = c.config.routesGiven (c.routeCallsOf es) := by
  induction es generalizing c with
  | nil => rfl
  | cons e es ih =>
    rw [routesOf, routeCallsOf, SspConfig.routesGiven_append, c.routesGiven_routeCalls, ih, c.config_next]

theorem carriersInTurn_eq (es : List ControllerEvent) :
    c.carriersInTurn es = c.config.carriersGiven (c.routeCallsOf es) := by
  induction es generalizing c with
  | nil => rfl
  | cons e es ih =>
    rw [carriersInTurn, routeCallsOf, SspConfig.carriersGiven_append, c.carriersGiven_routeCalls, ih, c.config_next]

theorem trunksFor_eq (carrier : Bytes) (es : List ControllerEvent) :
    c.trunksFor carrier es = c.config.addressesFor carrier (c.routeCallsOf es) := by
  rw [trunksFor, routesOf_eq, SspConfig.addressesFor_eq_routesGiven]

end Controller

/-! ## What is sent -/

namespace Calls

variable {s s' s'' : Calls} {r : OutgoingRequest}

/-- What nothing is sent by does not count. -/
theorem mem_sentOn_of_log {new : List CallEvent} (hlog : s''.log = new ++ s'.log)
    (hnew : ∀ irq orq, .created irq orq ∉ new) (hout : s''.outgoing = s'.outgoing) (hr : r ∈ s.sentOn s'') :
    r ∈ s.sentOn s' := by
  have hlength : new.length + s'.log.length - s.log.length - new.length = s'.log.length - s.log.length := by omega
  have hevents : s.newEvents s'' =
      new.take (new.length + s'.log.length - s.log.length) ++ s.newEvents s' := by
    rw [newEvents, newEvents, hlog, List.length_append, List.take_append, hlength]
  rw [sentOn, hevents, List.filterMap_append, List.mem_append] at hr
  refine hr.elim (fun h => ?_) fun h => ?_
  · obtain ⟨e, he, hsome⟩ := List.mem_filterMap.1 h
    cases e with
    | created irq orq => exact absurd (List.mem_of_mem_take he) (hnew irq orq)
    | _ => cases hsome
  · rwa [sentOn, ← hout]

/-- nta answers the request, if with anything. -/
theorem legRecv_log (s : Calls) (irq : Irq) (method : Method) (status : ℤ) :
    (∃ new, (s.legRecv irq method status).log = new ++ s.log ∧ ∀ irq' orq, .created irq' orq ∉ new) ∧
      (s.legRecv irq method status).outgoing = s.outgoing := by
  unfold legRecv
  dsimp only
  generalize legRecvStatus _ method status = answer
  have hnew : ∀ irq' orq, CallEvent.created irq' orq ∉ [CallEvent.returned irq answer] := by simp
  split_ifs
  · exact ⟨⟨[], rfl, fun _ _ => List.not_mem_nil⟩, rfl⟩
  · exact ⟨⟨[], rfl, fun _ _ => List.not_mem_nil⟩, rfl⟩
  · exact ⟨⟨[.returned irq answer], rfl, hnew⟩, rfl⟩
  · exact ⟨⟨[], rfl, fun _ _ => List.not_mem_nil⟩, rfl⟩
  · exact ⟨⟨[.returned irq answer], rfl, hnew⟩, rfl⟩

/-- That sends nothing. -/
theorem mem_sentOn_of_legRecv {irq : Irq} {method : Method} {status : ℤ}
    (hr : r ∈ s.sentOn (s'.legRecv irq method status)) : r ∈ s.sentOn s' := by
  obtain ⟨⟨new, hlog, hnew⟩, hout⟩ := s'.legRecv_log irq method status
  exact mem_sentOn_of_log hlog hnew hout hr

end Calls

namespace Controller

variable {c : Controller}

/-- What is sent for the INVITE of a termination call goes to its first route. -/
theorem sentOn_requestOutsideDialog {sip : Request} (hterminates : c.Terminates sip)
    {route : Route} {config : SspConfig} (hroute : c.firstRoute sip = some (route, config)) {uuid : Bytes}
    {nta : Creations} {r : OutgoingRequest} (hr : r ∈ c.calls.sentOn (c.requestOutsideDialog sip uuid nta).calls) :
    r.url = some (sipUri sip.sipTo.url.user route.trunk.text) := by
  obtain ⟨absent, hrequire⟩ :=
    (c.withCalls (c.calls.receive .null)).require_frame .requestContactHost sip.contactHost?.isSome
  have htype : ((c.withCalls (c.calls.receive .null)).require .requestContactHost
      sip.contactHost?.isSome).determineCallType (sip.contactHost?.getD []) =
        c.determineCallType (sip.contactHost?.getD []) := by
    rw [hrequire]
    rfl
  have hroute' : ((c.withCalls (c.calls.receive .null)).require .requestContactHost
      sip.contactHost?.isSome).firstRoute sip = some (route, config) := by
    rw [hrequire]
    exact hroute
  unfold requestOutsideDialog at hr
  dsimp only at hr
  replace hr := Calls.mem_sentOn_of_legRecv hr
  rw [processRequestOutsideDialog, if_neg (not_not.2 hterminates.1), hterminates.2.1] at hr
  dsimp only at hr
  unfold processInvite at hr
  dsimp only at hr
  rw [htype] at hr
  rcases hcall : c.determineCallType (sip.contactHost?.getD []) with ⟨callType, carrier⟩
  have htermination : callType = .termination := by
    have := hterminates.2.2
    rwa [hcall] at this
  subst htermination
  rw [hcall] at hr
  dsimp only at hr
  rw [countDown_calls] at hr
  generalize hc : (c.withCalls (c.calls.receive .null)).require .requestContactHost sip.contactHost?.isSome = c'
    at hr hroute'
  have hcalls : c'.calls = c.calls.receive .null := by rw [← hc, require_calls]; rfl
  have hr' : r ∈ c'.calls.sentOn (c'.processTerminationRequest ⟨c.calls.next⟩ sip nta).1.calls := by
    rw [hcalls]
    exact hr
  obtain ⟨a, ha, hurl, -⟩ := newAttempt_attempt { c' with config := config } sip route
  rw [sentOn_processTerminationRequest (by rw [hcalls]; exact Nat.succ_pos _) hroute' ha] at hr'
  split_ifs at hr'
  · rw [List.mem_singleton.1 hr', ← hurl]
    rfl
  · cases hr'

/-- **What is sent goes to the route**: the INVITE goes to the user in the To of the request, or of
    the failure response, at the address of the trunk. -/
theorem url_of_routed (h : 0 < c.calls.next) {e : ControllerEvent} {route : Route} (hroute : c.routed e = some route)
    {r : OutgoingRequest} (hr : r ∈ c.calls.sentOn (c.next e).calls) :
    r.url = some (sipUri e.toUser route.trunk.text) := by
  cases e with
  | requestOutsideDialog sip uuid nta =>
    change (if _ then _ else _) = _ at hroute
    split_ifs at hroute with hterminates
    obtain ⟨⟨route', config⟩, hfirst, rfl⟩ := Option.map_eq_some_iff.1 hroute
    exact sentOn_requestOutsideDialog hterminates hfirst hr
  | inviteResponse orq sip nta =>
    change (if _ then _ else _) = _ at hroute
    split_ifs at hroute with hreached
    obtain ⟨⟨t, a⟩, ha, hcrank⟩ := Option.bind_eq_some_iff.1 hroute
    unfold crankbackRoute at hcrank
    split_ifs at hcrank with hstatus
    obtain ⟨⟨route', config⟩, halt, rfl⟩ := Option.map_eq_some_iff.1 hcrank
    exact congrArg (·.url) (sentOn_crankback h ha hstatus.1 halt hr)
  | ackOrCancel | requestInsideDialog | responseInsideDialog | sessionRefreshTimer | retransmittedResponse
  | writeCdr | clock | monitor | resetTrunkStats => cases hroute

end Controller

/-! ## Shares -/

namespace SspConfig

theorem mem_keys_of_carriersGiven {cfg : SspConfig} {calls : List RouteCall} {carrier : Bytes}
    (h : carrier ∈ cfg.carriersGiven calls) : carrier ∈ cfg.mapTerminationCarrierByName.keys := by
  induction calls generalizing cfg with
  | nil => cases h
  | cons call calls ih =>
    cases hask : cfg.ask call with
    | none => exact ih (carriersGiven_of_none hask calls ▸ h)
    | some answer =>
      have hserves := serves_ask hask
      have hkeys : answer.2.mapTerminationCarrierByName.keys = cfg.mapTerminationCarrierByName.keys := by
        rw [hserves.routes, keys_take]
      rw [carriersGiven_of_some hask] at h
      split_ifs at h
      · refine (List.mem_cons.1 h).elim (fun heq => ?_) fun hmem => hkeys ▸ ih hmem
        obtain ⟨r, hr, -⟩ := hserves.trunk
        exact heq ▸ OrdMap.mem_keys_of_find? hr
      · exact hkeys ▸ ih h

/-- With one carrier, it is always the next one. -/
theorem carriersGiven_of_one {cfg : SspConfig} {calls : List RouteCall}
    (hone : cfg.mapTerminationCarrierByName.keys.length < 2) : ∃ s, cfg.carriersGiven calls =
      readAround cfg.vecTerminationCarrier s (cfg.carriersGiven calls).length := by
  have hall : ∀ carrier ∈ cfg.mapTerminationCarrierByName.keys, carrier = cfg.currentCarrier := by
    intro carrier hcarrier
    have hcurrent := cfg.currentCarrier_mem
    obtain ⟨a, ha⟩ :=
      List.length_eq_one_iff.1 (Nat.le_antisymm (Nat.le_of_lt_succ hone) (List.length_pos_of_mem hcarrier))
    rw [ha, List.mem_singleton] at hcarrier hcurrent
    rw [hcarrier, hcurrent]
  have hne : cfg.vecTerminationCarrier ≠ [] :=
    List.ne_nil_of_length_pos (Nat.lt_of_le_of_lt (Nat.zero_le _) cfg.current_lt)
  have hgiven : ∀ carrier ∈ cfg.carriersGiven calls, carrier = cfg.currentCarrier := fun carrier hcarrier =>
    hall carrier (mem_keys_of_carriersGiven hcarrier)
  have hread : ∀ carrier ∈ readAround cfg.vecTerminationCarrier 0 (cfg.carriersGiven calls).length,
      carrier = cfg.currentCarrier := fun carrier hcarrier =>
    hall carrier (cfg.hasRoute carrier (mem_of_mem_readAround hcarrier))
  have hlength := length_readAround hne 0 (cfg.carriersGiven calls).length
  refine ⟨0, (List.eq_replicate_of_mem hgiven).trans ?_⟩
  rw [List.eq_replicate_of_mem hread, hlength]

/-- The carriers whose turn it is, around and around. -/
theorem carriersGiven_readAround {cfg : SspConfig} (calls : List RouteCall) : ∃ s, cfg.carriersGiven calls =
    readAround cfg.vecTerminationCarrier s (cfg.carriersGiven calls).length := by
  by_cases hone : cfg.mapTerminationCarrierByName.keys.length < 2
  · exact carriersGiven_of_one hone
  · have hgiven : cfg.carriersGiven calls =
        readAround cfg.vecTerminationCarrier cfg.nCurrentTerminationCarrier (calls.count .next) :=
      carriersGiven_eq_readAround (.inl (not_lt.1 hone))
    have hne : cfg.vecTerminationCarrier ≠ [] :=
      List.ne_nil_of_length_pos (Nat.lt_of_le_of_lt (Nat.zero_le _) cfg.current_lt)
    refine ⟨cfg.nCurrentTerminationCarrier, ?_⟩
    rw [hgiven, length_readAround hne]

end SspConfig

namespace Process

variable {p : Process}

/-- **Termination calls are shared out by weight**: from any state of the process, whatever calls, responses and
    crankbacks follow on the configuration in force, the calls that are not anonymous take the carriers in turn,
    each as often as its weight says. The attempts of a carrier whose trunks all have weight, those that are first,
    those of anonymous calls and the crankbacks alike, take its trunks in turn, each as often as its weight says.
    The INVITE that is sent for a route has the address of its trunk. -/
theorem distributed_of_reachable (h : machine.Reachable p) (es : List ControllerEvent) :
    (∃ s, p.controller.carriersInTurn es =
        readAround p.config.vecTerminationCarrier s (p.controller.carriersInTurn es).length) ∧
      (∀ carrier r, p.config.mapTerminationCarrierByName.find? carrier = some r → (∀ t ∈ r.vecTrunks, 1 ≤ t.qty) →
        ∃ s, p.controller.trunksFor carrier es =
          readAround r.schedule s (p.controller.trunksFor carrier es).length) ∧
      ∀ e route r, p.controller.routed e = some route →
        r ∈ p.controller.calls.sentOn (p.controller.next e).calls →
        r.url = some (sipUri e.toUser route.trunk.text) := by
  obtain ⟨calls, hcalls⟩ := (inForce_of_reachable h).routes
  refine ⟨?_, ?_, fun e route r hroute hr => ?_⟩
  · have hcarriers : (SspConfig.routing.exec p.config.toSspConfig calls).vecTerminationCarrier =
        p.config.vecTerminationCarrier := SspConfig.vecTerminationCarrier_exec calls
    rw [p.controller.carriersInTurn_eq, hcalls, ← hcarriers]
    exact SspConfig.carriersGiven_readAround _
  · intro carrier r hr hweights
    obtain ⟨r', hr', hsame⟩ := SspConfig.schedule_exec hr calls
    have hschedule : r'.schedule = r.schedule := by
      have h := congrArg (List.flatMap fun x : ℕ × Bytes => List.replicate x.1 x.2) hsame
      rwa [List.flatMap_map, List.flatMap_map] at h
    have hweights' : ∀ t ∈ r'.vecTrunks, 1 ≤ t.qty := by
      intro t ht
      have hmem : (t.qty, t.text) ∈ r'.vecTrunks.map fun t => (t.qty, t.text) := List.mem_map.2 ⟨t, ht, rfl⟩
      rw [hsame] at hmem
      obtain ⟨t', ht', heq⟩ := List.mem_map.1 hmem
      exact (Prod.mk.inj heq).1 ▸ hweights t' ht'
    refine ⟨r'.rotation.phase, ?_⟩
    rw [p.controller.trunksFor_eq, hcalls, ← hschedule]
    exact SspConfig.addressesFor_eq_readAround hr' hweights' _
  · exact Controller.url_of_routed (relayInv_of_reachable h).next_pos hroute hr

def exampleServerInvite : ControllerEvent := .requestOutsideDialog (Controller.serverInvite ['f']) ['u'] {}

/-- A trunk of the first carrier is tried. -/
def exampleTried : Process := machine.exec (exampleProcess (-1)) [.call exampleServerInvite]

theorem exampleTried_reachable : machine.Reachable exampleTried :=
  .exec (.init (exampleProcess_initial (-1))) ⟨⟨rfl, trivial, by decide⟩, trivial⟩

/-- That attempt fails. -/
def exampleUnavailable : ControllerEvent :=
  .inviteResponse ⟨4⟩ { status := 503, sipTo := { url := { user := some ['b'] } } } {}

/-- The call goes on to the other carrier, and more calls follow. -/
theorem distributed_of_reachable_exampleTried :
    let es := exampleUnavailable :: List.replicate 4 exampleServerInvite
    let sent := exampleTried.controller.calls.sentOn (exampleTried.controller.next exampleUnavailable).calls
    exampleTried.controller.carriersInTurn es = [['c'], ['d'], ['c'], ['c']] ∧
      (∃ s, [['c'], ['d'], ['c'], ['c']] = readAround [['c'], ['c'], ['d']] s 4) ∧
      exampleTried.controller.trunksFor ['d'] es = [['u'], ['u']] ∧
      exampleTried.controller.trunksFor ['c'] es = [['t'], ['s'], ['t']] ∧
      (∃ s, [['t'], ['s'], ['t']] = readAround [['t'], ['t'], ['s']] s 3) ∧
      sent.length = 1 ∧ ∀ r ∈ sent, r.url = some "sip:b@u".toList := by
  intro es sent
  obtain ⟨hturns, htrunks, hsent⟩ := distributed_of_reachable exampleTried_reachable es
  have hcarriers : exampleTried.controller.carriersInTurn es = [['c'], ['d'], ['c'], ['c']] := by decide
  have hvector : exampleTried.config.vecTerminationCarrier = [['c'], ['c'], ['d']] := by decide
  have hc : exampleTried.controller.trunksFor ['c'] es = [['t'], ['s'], ['t']] := by decide
  have hthere : (exampleTried.config.mapTerminationCarrierByName.find? ['c']).isSome = true := by decide
  have hschedule : ((exampleTried.config.mapTerminationCarrierByName.find? ['c']).get hthere).schedule =
      [['t'], ['t'], ['s']] := by decide +revert
  have hrouted : (exampleTried.controller.routed exampleUnavailable).isSome = true := by decide
  have huri : sipUri exampleUnavailable.toUser
      ((exampleTried.controller.routed exampleUnavailable).get hrouted).trunk.text = "sip:b@u".toList := by
    decide +revert
  refine ⟨hcarriers, ?_, by decide, hc, ?_, by decide, fun r hr => ?_⟩
  · rwa [hcarriers, hvector] at hturns
  · have hshare := htrunks ['c'] _ (Option.some_get hthere).symm (by decide +revert)
    rwa [hc, hschedule] at hshare
  · rw [← huri]
    exact hsent exampleUnavailable _ r (Option.some_get hrouted).symm hr

end Process

end Ssp
