import Mathlib.Algebra.BigOperators.Group.List.Lemmas
import Mathlib.Data.List.Perm.Basic
import Ssp.Config.Crankback
import Ssp.Lib.Run

/-!
# Fair routes

Three calls of the configuration give routes: `getTerminationRoute`, which goes from
carrier to carrier, `getTerminationRouteForCarrier` and
`getTerminationRouteForAltCarrier`. All of them take the next trunk of a carrier, and
none of them depends on anything but the rotations, so that

* the trunks given out for one carrier are its trunks in turn, each as often in a row as
  its `qty` says, whichever calls they were given out by
  (`addressesFor_of_load`);
* `getTerminationRoute` goes through the carriers in turn, each as often as its own `qty`
  says, whatever other calls come in between, and over enough calls each trunk has its
  share (`fair_of_load`).

`m_nCurrentTerminationCarrier` counts up to the length of `m_vecTerminationCarrier`, which
is taken to fit into it.
-/

namespace Ssp

/-! ## The trunks of one route -/

namespace TerminationRoute

variable (r : TerminationRoute)

/-- The trunks, as they are given out. -/
def texts : List Bytes := r.vecTrunks.map (·.text)

/-- The trunks, each as often in a row as its `qty` says. -/
def schedule : List Bytes := r.vecTrunks.flatMap fun c => List.replicate c.qty c.text

@[simp]
theorem texts_getNextTrunk : r.getNextTrunk.2.texts = r.texts :=
  r.map_countedTrunks (·.text) fun _ _ => rfl

theorem getNextTrunk_text : r.texts[r.rotation.first]? = some r.getNextTrunk.1.text := by
  rw [first_rotation, ← texts_getNextTrunk]
  change (r.countedTrunks.map _)[r.nextTrunk]? = _
  rw [List.getElem?_map, List.getElem?_eq_getElem r.nextTrunk_lt]
  rfl

/-- The schedule of the trunks is that of their positions. -/
theorem map_some_schedule :
    r.schedule.map some = r.rotation.schedule.map fun i => r.texts[i]? := by
  have hto : ∀ n ≤ r.vecTrunks.length,
      ((r.vecTrunks.take n).flatMap fun c => List.replicate c.qty c.text).map some =
        (r.rotation.scheduleTo n).map fun i => r.texts[i]? := by
    intro n hn
    induction n with
    | zero => rfl
    | succ n ih =>
      obtain ⟨c, hc⟩ : ∃ c, r.vecTrunks[n]? = some c := ⟨_, List.getElem?_eq_getElem (by omega)⟩
      have hweight : r.rotation.weight n = c.qty := by
        change (r.vecTrunks[n]?.map (·.qty)).getD 0 = c.qty
        rw [hc]
        rfl
      have htext : r.texts[n]? = some c.text := by
        rw [texts, List.getElem?_map, hc]
        rfl
      rw [List.take_add_one, hc, Option.toList_some, List.flatMap_append, List.map_append, ih (by omega),
        Rotation.scheduleTo_succ, List.map_append, List.flatMap_singleton, List.map_replicate,
        List.map_replicate, hweight, htext]
  have h := hto r.vecTrunks.length le_rfl
  rwa [List.take_length] at h

/-- Calls in a row give out the schedule, around and around. -/
theorem map_given (hq : ∀ c ∈ r.vecTrunks, 1 ≤ c.qty) (k : ℕ) :
    ((r.rotation.given k).map fun i => r.texts[i]?) =
      (readAround r.schedule r.rotation.phase k).map some := by
  have hw : ∀ i < r.rotation.size, 1 ≤ r.rotation.weight i := by
    intro i hi
    change 1 ≤ (r.vecTrunks[i]?.map (·.qty)).getD 0
    rw [List.getElem?_eq_getElem hi]
    exact hq _ (List.getElem_mem hi)
  rw [Rotation.given_eq_readAround hw, ← readAround_map, ← readAround_map, map_some_schedule]

end TerminationRoute

/-! ## Calls -/

/-- A call for a route. -/
inductive RouteCall
  /-- `getTerminationRoute` -/
  | next
  /-- `getTerminationRouteForCarrier` -/
  | forCarrier (carrier : Bytes)
  /-- `getTerminationRouteForAltCarrier` -/
  | altCarrier (failedCarrier : Bytes)
  deriving DecidableEq

namespace SspConfig

variable (cfg : SspConfig)

/-- The answer to a call, and the configuration after it. -/
def ask : RouteCall → Option (Route × SspConfig)
  | .next => cfg.getTerminationRoute
  | .forCarrier carrier => cfg.getTerminationRouteForCarrier carrier
  | .altCarrier failedCarrier => cfg.getTerminationRouteForAltCarrier failedCarrier

/-- A loaded configuration, under any calls. -/
def routing : Machine SspConfig RouteCall where
  init := {cfg | ∃ es n carrier, load es n carrier = some cfg}
  enabled _ _ := True
  next cfg call := (cfg.ask call).elim cfg Prod.snd

/-- The calls with their answers. -/
def answers : SspConfig → List RouteCall → List (RouteCall × Option Route)
  | _, [] => []
  | cfg, call :: calls => (call, (cfg.ask call).map Prod.fst) :: answers (routing.next cfg call) calls

/-- The trunks that were given out for a carrier. -/
def addressesFor (carrier : Bytes) (calls : List RouteCall) : List Bytes :=
  (cfg.answers calls).filterMap fun a =>
    (a.2.filter fun route => route.carrier = carrier).map fun route => route.trunk.text

/-- The carrier that a call selects. -/
def selected : RouteCall → Bytes
  | .next => cfg.currentCarrier
  | .forCarrier carrier => carrier
  | .altCarrier failedCarrier =>
    (cfg.mapTerminationCarrierByName.keys.find? (· ≠ failedCarrier)).getD cfg.currentCarrier

/-- The carriers that some calls select one after the other, whether or not there is a route to them. -/
def selections : SspConfig → List RouteCall → List Bytes
  | _, [] => []
  | cfg, call :: calls => cfg.selected call :: selections (routing.next cfg call) calls

/-- The carriers that the calls of `getTerminationRoute` among `calls` gave. -/
def carriersGiven (calls : List RouteCall) : List Bytes :=
  (cfg.answers calls).filterMap fun a =>
    (a.2.filter fun _ => a.1 = .next).map fun route => route.carrier

/-- What an answer is, and what it does to the configuration. -/
structure Serves (cfg : SspConfig) (route : Route) (cfg' : SspConfig) : Prop where
  trunk : ∃ r, cfg.mapTerminationCarrierByName.find? route.carrier = some r ∧
    route.trunk = r.getNextTrunk.1
  routes : cfg'.mapTerminationCarrierByName = take cfg.mapTerminationCarrierByName route.carrier
  carriers : cfg'.vecTerminationCarrier = cfg.vecTerminationCarrier

variable {cfg}

theorem serves_forCarrier {carrier : Bytes} {route : Route} {cfg' : SspConfig}
    (h : cfg.getTerminationRouteForCarrier carrier = some (route, cfg')) :
    cfg.Serves route cfg' ∧ route.carrier = carrier ∧
      cfg'.nCurrentTerminationCarrier = cfg.nCurrentTerminationCarrier := by
  unfold getTerminationRouteForCarrier at h
  cases hr : cfg.mapTerminationCarrierByName.find? carrier with
  | none => simp [hr] at h
  | some r =>
    simp only [hr, Option.some_inj, Prod.mk.injEq] at h
    obtain ⟨rfl, rfl⟩ := h
    exact ⟨⟨⟨r, hr, rfl⟩, rfl, rfl⟩, rfl, rfl⟩

/-- `getTerminationRoute` always finds the carrier whose turn it is. -/
theorem serves_next (cfg : SspConfig) :
    ∃ route cfg', cfg.getTerminationRoute = some (route, cfg') ∧ cfg.Serves route cfg' ∧
      route.carrier = cfg.currentCarrier ∧
      cfg'.nCurrentTerminationCarrier ≡ cfg.nCurrentTerminationCarrier + 1
        [MOD cfg.vecTerminationCarrier.length] := by
  obtain ⟨r, hr, heq⟩ := getTerminationRouteForCarrier_spec cfg.currentCarrier_mem
  obtain ⟨⟨htrunk, hroutes, hcarriers⟩, hcarrier, -⟩ := serves_forCarrier heq
  have hnext : cfg.getTerminationRoute =
      some (⟨r.getNextTrunk.1, cfg.currentCarrier, r.chargeNumber⟩,
        (cfg.takeTrunk cfg.currentCarrier).advanceCarrier) := by
    rw [getTerminationRoute, heq]
    rfl
  refine ⟨_, _, hnext, ⟨htrunk, hroutes, hcarriers⟩, hcarrier, ?_⟩
  change (if cfg.nCurrentTerminationCarrier + 1 ≥ cfg.vecTerminationCarrier.length then 0
    else cfg.nCurrentTerminationCarrier + 1) ≡ _ [MOD _]
  have hlt := cfg.current_lt
  split_ifs with hge
  · rw [show cfg.nCurrentTerminationCarrier + 1 = cfg.vecTerminationCarrier.length by omega]
    exact (Nat.modEq_zero_iff_dvd.2 (dvd_refl _)).symm
  · rfl

theorem serves_altCarrier {failedCarrier : Bytes} {route : Route} {cfg' : SspConfig}
    (h : cfg.getTerminationRouteForAltCarrier failedCarrier = some (route, cfg')) :
    cfg.Serves route cfg' ∧ (2 ≤ cfg.mapTerminationCarrierByName.keys.length →
      cfg'.nCurrentTerminationCarrier = cfg.nCurrentTerminationCarrier) := by
  unfold getTerminationRouteForAltCarrier at h
  cases hfind : cfg.mapTerminationCarrierByName.keys.find? (· ≠ failedCarrier) with
  | some carrier =>
    simp only [hfind] at h
    obtain ⟨hserves, -, hcur⟩ := serves_forCarrier h
    exact ⟨hserves, fun _ => hcur⟩
  | none =>
    simp only [hfind] at h
    obtain ⟨route', cfg'', heq, hserves, -⟩ := cfg.serves_next
    obtain ⟨rfl, rfl⟩ : route' = route ∧ cfg'' = cfg' := by simpa [heq] using h
    refine ⟨hserves, fun htwo => ?_⟩
    -- All names are the one that failed, and there is no name twice.
    have hall : ∀ k ∈ cfg.mapTerminationCarrierByName.keys, k = failedCarrier := by
      simpa using List.find?_eq_none.1 hfind
    have hnodup := cfg.mapTerminationCarrierByName.nodup_keys
    rw [List.eq_replicate_of_mem hall, List.nodup_replicate] at hnodup
    omega

theorem serves_ask {call : RouteCall} {route : Route} {cfg' : SspConfig}
    (h : cfg.ask call = some (route, cfg')) : cfg.Serves route cfg' := by
  cases call with
  | next =>
    obtain ⟨route', cfg'', heq, hserves, -⟩ := cfg.serves_next
    obtain ⟨rfl, rfl⟩ : route' = route ∧ cfg'' = cfg' := by simpa [ask, heq] using h
    exact hserves
  | forCarrier carrier => exact (serves_forCarrier h).1
  | altCarrier failedCarrier => exact (serves_altCarrier h).1

/-- The rotation of a carrier moves on exactly when a trunk of it is given out. -/
theorem Serves.find? {route : Route} {cfg' : SspConfig} (h : cfg.Serves route cfg') {carrier : Bytes}
    {r : TerminationRoute} (hr : cfg.mapTerminationCarrierByName.find? carrier = some r) :
    cfg'.mapTerminationCarrierByName.find? carrier =
      some (if route.carrier = carrier then r.getNextTrunk.2 else r) := by
  rw [h.routes, find?_take]
  by_cases hc : route.carrier = carrier
  · rw [if_pos hc.symm, if_pos hc, hr, Option.map_some]
  · rw [if_neg (Ne.symm hc), if_neg hc, hr]

theorem routing_next_of_some (cfg : SspConfig) {call : RouteCall} {route : Route} {cfg' : SspConfig}
    (h : cfg.ask call = some (route, cfg')) : routing.next cfg call = cfg' := by
  simp only [routing, h, Option.elim_some]

theorem routing_next_of_none (cfg : SspConfig) {call : RouteCall} (h : cfg.ask call = none) :
    routing.next cfg call = cfg := by
  simp only [routing, h, Option.elim_none]

theorem answers_of_some {call : RouteCall} {route : Route} {cfg' : SspConfig}
    (h : cfg.ask call = some (route, cfg')) (calls : List RouteCall) :
    cfg.answers (call :: calls) = (call, some route) :: cfg'.answers calls := by
  simp only [answers, routing, h, Option.map_some, Option.elim_some]

theorem answers_of_none {call : RouteCall} (h : cfg.ask call = none) (calls : List RouteCall) :
    cfg.answers (call :: calls) = (call, none) :: cfg.answers calls := by
  simp only [answers, routing, h, Option.map_none, Option.elim_none]

theorem addressesFor_of_some {call : RouteCall} {route : Route} {cfg' : SspConfig}
    (h : cfg.ask call = some (route, cfg')) (carrier : Bytes) (calls : List RouteCall) :
    cfg.addressesFor carrier (call :: calls) =
      if route.carrier = carrier then route.trunk.text :: cfg'.addressesFor carrier calls
      else cfg'.addressesFor carrier calls := by
  rw [addressesFor, answers_of_some h]
  split_ifs with hc
  · exact List.filterMap_cons_some (by simp [hc])
  · exact List.filterMap_cons_none (by simp [hc])

theorem addressesFor_of_none {call : RouteCall} (h : cfg.ask call = none) (carrier : Bytes)
    (calls : List RouteCall) :
    cfg.addressesFor carrier (call :: calls) = cfg.addressesFor carrier calls := by
  rw [addressesFor, answers_of_none h]
  exact List.filterMap_cons_none rfl

theorem carriersGiven_of_some {call : RouteCall} {route : Route} {cfg' : SspConfig}
    (h : cfg.ask call = some (route, cfg')) (calls : List RouteCall) :
    cfg.carriersGiven (call :: calls) =
      if call = .next then route.carrier :: cfg'.carriersGiven calls else cfg'.carriersGiven calls := by
  rw [carriersGiven, answers_of_some h]
  split_ifs with hc
  · exact List.filterMap_cons_some (by simp [hc])
  · exact List.filterMap_cons_none (by simp [hc])

theorem carriersGiven_of_none {call : RouteCall} (h : cfg.ask call = none) (calls : List RouteCall) :
    cfg.carriersGiven (call :: calls) = cfg.carriersGiven calls := by
  rw [carriersGiven, answers_of_none h]
  exact List.filterMap_cons_none rfl

/-! ## The trunks of a carrier -/

/-- Whichever way it is asked for, the route is that of the carrier that is selected. -/
theorem ask_eq (cfg : SspConfig) (call : RouteCall) : (cfg.ask call).map Prod.fst =
    (cfg.getTerminationRouteForCarrier (cfg.selected call)).map Prod.fst := by
  have hnext : cfg.getTerminationRoute.map Prod.fst =
      (cfg.getTerminationRouteForCarrier cfg.currentCarrier).map Prod.fst := Option.map_map _ _ _
  cases call with
  | next => exact hnext
  | forCarrier carrier => rfl
  | altCarrier failedCarrier =>
    change (cfg.getTerminationRouteForAltCarrier failedCarrier).map Prod.fst = (cfg.getTerminationRouteForCarrier
      ((cfg.mapTerminationCarrierByName.keys.find? (· ≠ failedCarrier)).getD cfg.currentCarrier)).map Prod.fst
    unfold getTerminationRouteForAltCarrier
    cases cfg.mapTerminationCarrierByName.keys.find? (· ≠ failedCarrier) with
    | none => exact hnext
    | some carrier => rfl

theorem carrier_of_ask {call : RouteCall} {route : Route} {cfg' : SspConfig}
    (h : cfg.ask call = some (route, cfg')) : route.carrier = cfg.selected call := by
  have heq := cfg.ask_eq call
  rw [h, Option.map_some] at heq
  obtain ⟨⟨route', cfg''⟩, hget, rfl⟩ := Option.map_eq_some_iff.1 heq.symm
  exact (serves_forCarrier hget).2.1

/-- A call for a carrier that was loaded is answered. -/
theorem selected_of_ask_none {call : RouteCall} (h : cfg.ask call = none) :
    cfg.selected call ∉ cfg.mapTerminationCarrierByName.keys := by
  intro hmem
  obtain ⟨r, -, hget⟩ := getTerminationRouteForCarrier_spec hmem
  have heq := cfg.ask_eq call
  rw [h, hget] at heq
  cases heq

/-- There is a trunk of the carrier for each call that selects it. -/
theorem length_addressesFor {carrier : Bytes} (hc : carrier ∈ cfg.mapTerminationCarrierByName.keys)
    (calls : List RouteCall) :
    (cfg.addressesFor carrier calls).length = (cfg.selections calls).count carrier := by
  induction calls generalizing cfg with
  | nil => rfl
  | cons call calls ih =>
    rw [selections, List.count_cons]
    cases hask : cfg.ask call with
    | none =>
      have hne : cfg.selected call ≠ carrier := fun heq => selected_of_ask_none hask (heq ▸ hc)
      rw [addressesFor_of_none hask, cfg.routing_next_of_none hask, ih hc, if_neg (by simpa using hne)]
      rfl
    | some answer =>
      obtain ⟨route, cfg'⟩ := answer
      have hkeys : cfg'.mapTerminationCarrierByName.keys = cfg.mapTerminationCarrierByName.keys := by
        rw [(serves_ask hask).routes, keys_take]
      rw [addressesFor_of_some hask, cfg.routing_next_of_some hask, ← carrier_of_ask hask]
      by_cases heq : route.carrier = carrier
      · rw [if_pos heq, if_pos (by simpa using heq), List.length_cons, ih (hkeys ▸ hc)]
      · rw [if_neg heq, if_neg (by simpa using heq), ih (hkeys ▸ hc)]
        rfl

/-- Whichever the calls are, the trunks of a carrier are those of its rotation. -/
theorem map_some_addressesFor {carrier : Bytes} {r : TerminationRoute}
    (hr : cfg.mapTerminationCarrierByName.find? carrier = some r) (calls : List RouteCall) :
    (cfg.addressesFor carrier calls).map some =
      (r.rotation.given (cfg.addressesFor carrier calls).length).map fun i => r.texts[i]? := by
  induction calls generalizing cfg r with
  | nil => rfl
  | cons call calls ih =>
    cases hask : cfg.ask call with
    | none =>
      rw [addressesFor_of_none hask]
      exact ih hr
    | some answer =>
      obtain ⟨route, cfg'⟩ := answer
      have hserves := serves_ask hask
      have hr' := hserves.find? hr
      rw [addressesFor_of_some hask]
      by_cases hc : route.carrier = carrier
      · rw [if_pos hc] at hr'
        obtain ⟨r', hfind, htrunk⟩ := hserves.trunk
        rw [hc, hr, Option.some_inj] at hfind
        rw [if_pos hc, htrunk, ← hfind, List.map_cons, ih hr', List.length_cons, Rotation.given,
          List.map_cons, r.getNextTrunk_text, r.texts_getNextTrunk, r.getNextTrunk_rotation]
      · rw [if_neg hc] at hr' ⊢
        exact ih hr'

/-- The trunks of a carrier are its schedule, around and around. -/
theorem addressesFor_eq_readAround {carrier : Bytes} {r : TerminationRoute}
    (hr : cfg.mapTerminationCarrierByName.find? carrier = some r) (hq : ∀ c ∈ r.vecTrunks, 1 ≤ c.qty)
    (calls : List RouteCall) : cfg.addressesFor carrier calls =
      readAround r.schedule r.rotation.phase (cfg.addressesFor carrier calls).length := by
  refine List.map_injective_iff.2 (Option.some_injective _) ?_
  rw [map_some_addressesFor hr, r.map_given hq]

/-! ## Loading -/

/-- The routes that are loaded are new. -/
theorem new_of_foldl {es : List CarrierElement} {acc : Carriers}
    (hacc : ∀ c r, acc.1.find? c = some r → ∃ o h, r = .new c o h) {carrier : Bytes}
    {r : TerminationRoute} (hr : (es.foldl addCarrier acc).1.find? carrier = some r) :
    ∃ o h, r = .new carrier o h := by
  induction es generalizing acc with
  | nil => exact hacc carrier r hr
  | cons e es ih =>
    refine ih (fun c r hfind => ?_) (show (es.foldl addCarrier (addCarrier acc e)).1.find? carrier = some r from hr)
    unfold addCarrier at hfind
    split at hfind
    · exact hacc c r hfind
    · rename_i o _
      split_ifs at hfind with hactive htrunks
      · -- A route of the same name stays.
        rw [OrdMap.find?_insert] at hfind
        split_ifs at hfind with hc
        · subst hc
          cases hold : acc.1.find? e.name with
          | none =>
            rw [hold, Option.getD_none, Option.some_inj] at hfind
            exact ⟨o, htrunks, hfind.symm⟩
          | some r' =>
            rw [hold, Option.getD_some, Option.some_inj] at hfind
            exact hacc _ r (hfind ▸ hold)
        · exact hacc c r hfind
      · exact hacc c r hfind
      · exact hacc c r hfind

/-- What a loaded configuration consists of. -/
theorem of_load {es : List CarrierElement} {n : UInt32} {anonymous : Bytes}
    (h : load es n anonymous = some cfg) :
    cfg.mapTerminationCarrierByName = (carriers es).1 ∧ cfg.vecTerminationCarrier = (carriers es).2 := by
  unfold load at h
  split_ifs at h with hname hpos
  obtain rfl := Option.some_inj.1 h
  exact ⟨rfl, rfl⟩

theorem phase_of_load {es : List CarrierElement} {n : UInt32} {anonymous : Bytes}
    (h : load es n anonymous = some cfg) {carrier : Bytes} {r : TerminationRoute}
    (hr : cfg.mapTerminationCarrierByName.find? carrier = some r) : r.rotation.phase = 0 := by
  rw [(of_load h).1] at hr
  obtain ⟨o, htrunks, rfl⟩ := new_of_foldl (by simp [OrdMap.empty, OrdMap.find?, OrdMap.findEntries]) hr
  change 0 + (TerminationRoute.new carrier o htrunks).current.selectCount = 0
  have hcur := (TerminationRoute.new carrier o htrunks).getElem?_current
  obtain ⟨a, -, ha⟩ := List.mem_map.1 (List.mem_of_getElem? hcur)
  rw [← ha]
  rfl

/-- The positions that `getNextTrunk` reads are those of trunks. -/
def InBounds (cfg : SspConfig) : Prop :=
  ∀ e ∈ cfg.mapTerminationCarrierByName.entries,
    e.2.currentTrunk < e.2.vecTrunks.length ∧ e.2.advanceTrunk < e.2.vecTrunks.length

/-- **A carrier's trunks in turn.** From the start, each call that selects a carrier, in whichever
    way, gives out a trunk of it. These are its trunks in turn, each as often in a row as its `qty`
    says, again and again; any window as long as the sum of these has each trunk as often as
    its `qty` says. -/
theorem addressesFor_of_load {es : List CarrierElement} {n : UInt32} {anonymous : Bytes}
    {cfg : SspConfig} (h : load es n anonymous = some cfg) {carrier : Bytes} {r : TerminationRoute}
    (hr : cfg.mapTerminationCarrierByName.find? carrier = some r) (hq : ∀ c ∈ r.vecTrunks, 1 ≤ c.qty)
    (calls : List RouteCall) :
    (cfg.addressesFor carrier calls).length = (cfg.selections calls).count carrier ∧
      (∀ k < (cfg.addressesFor carrier calls).length, (cfg.addressesFor carrier calls)[k]? =
        r.schedule[k % (r.vecTrunks.map (·.qty)).sum]?) ∧
      (∀ k, k + (r.vecTrunks.map (·.qty)).sum ≤ (cfg.addressesFor carrier calls).length →
        (((cfg.addressesFor carrier calls).drop k).take (r.vecTrunks.map (·.qty)).sum).Perm r.schedule) ∧
      (routing.exec cfg calls).InBounds := by
  have hlen : (r.vecTrunks.map (·.qty)).sum = r.schedule.length := by
    rw [TerminationRoute.schedule, List.length_flatMap]
    simp
  have hne : r.schedule ≠ [] := by
    intro hnil
    have hmem := List.mem_of_getElem? r.getElem?_current
    have := List.flatMap_eq_nil_iff.1 hnil _ hmem
    have := hq _ hmem
    simp_all
  have hread := addressesFor_eq_readAround hr hq calls
  rw [phase_of_load h hr] at hread
  rw [hlen]
  refine ⟨length_addressesFor (OrdMap.mem_keys_of_find? hr) calls, fun k hk => ?_, fun k hk => ?_,
    fun e _ => ⟨e.2.current_lt, e.2.advanceTrunk_lt⟩⟩
  · rw [hread, getElem?_readAround hne 0 (by simpa [hne] using hk), Nat.zero_add]
  · -- The window of a cyclic reading is a cyclic reading once around.
    obtain ⟨m, hm⟩ := Nat.exists_eq_add_of_le hk
    rw [hread, hm, Nat.add_assoc, readAround_add, List.drop_left' (by simp [hne]), Nat.zero_add,
      readAround_add, List.take_left' (by simp [hne])]
    exact readAround_length_perm r.schedule k

/-- A carrier with two trunks, the first one twice as often. -/
def twoTrunks : CarrierElement where
  name := ['a']
  outbound := some
    { addresses := [{ address := ['x'], qty := 2 }, { address := ['y'] }], chargeNumber := ['8'] }

theorem addressesFor_twoTrunks :
    ∃ cfg r, load [twoTrunks] 1 [] = some cfg ∧
      cfg.mapTerminationCarrierByName.find? ['a'] = some r ∧ r.schedule = [['x'], ['x'], ['y']] ∧
      ∀ calls, (cfg.addressesFor ['a'] calls).length = (cfg.selections calls).count ['a'] ∧
        ∀ k < (cfg.addressesFor ['a'] calls).length, (cfg.addressesFor ['a'] calls)[k]? = r.schedule[k % 3]? :=
  ⟨_, _, rfl, rfl, rfl, fun calls =>
    have h := addressesFor_of_load (show load [twoTrunks] 1 [] = some _ from rfl) rfl (by decide) calls
    ⟨h.1, h.2.1⟩⟩

/-! ## The carriers in turn -/

/-- The carriers stay what they are. -/
theorem vecTerminationCarrier_exec (calls : List RouteCall) :
    (routing.exec cfg calls).vecTerminationCarrier = cfg.vecTerminationCarrier := by
  induction calls generalizing cfg with
  | nil => rfl
  | cons call calls ih =>
    rw [Machine.exec_cons, ih]
    cases hask : cfg.ask call with
    | none => rw [routing_next_of_none cfg hask]
    | some answer => rw [routing_next_of_some cfg hask, (serves_ask hask).carriers]

theorem keys_exec (calls : List RouteCall) :
    (routing.exec cfg calls).mapTerminationCarrierByName.keys =
      cfg.mapTerminationCarrierByName.keys := by
  induction calls generalizing cfg with
  | nil => rfl
  | cons call calls ih =>
    rw [Machine.exec_cons, ih]
    cases hask : cfg.ask call with
    | none => rw [routing_next_of_none cfg hask]
    | some answer => rw [routing_next_of_some cfg hask, (serves_ask hask).routes, keys_take]

/-- The trunks stay what they are. -/
theorem schedule_exec {carrier : Bytes} {r : TerminationRoute}
    (hr : cfg.mapTerminationCarrierByName.find? carrier = some r) (calls : List RouteCall) :
    ∃ r', (routing.exec cfg calls).mapTerminationCarrierByName.find? carrier = some r' ∧
      r'.vecTrunks.map (fun c => (c.qty, c.text)) = r.vecTrunks.map fun c => (c.qty, c.text) := by
  induction calls generalizing cfg r with
  | nil => exact ⟨r, hr, rfl⟩
  | cons call calls ih =>
    rw [Machine.exec_cons]
    cases hask : cfg.ask call with
    | none =>
      rw [routing_next_of_none cfg hask]
      exact ih hr
    | some answer =>
      rw [routing_next_of_some cfg hask]
      obtain ⟨r', hr', heq⟩ := ih ((serves_ask hask).find? hr)
      refine ⟨r', hr', heq.trans ?_⟩
      split_ifs
      · exact r.map_countedTrunks (fun c => (c.qty, c.text)) fun _ _ => rfl
      · rfl

/-- The calls of `getTerminationRoute` read the carriers around and around, whatever other
    calls come in between. -/
theorem carriersGiven_eq_readAround {calls : List RouteCall}
    (hcalls : 2 ≤ cfg.mapTerminationCarrierByName.keys.length ∨ ∀ f, .altCarrier f ∉ calls) :
    cfg.carriersGiven calls =
      readAround cfg.vecTerminationCarrier cfg.nCurrentTerminationCarrier (calls.count .next) := by
  induction calls generalizing cfg with
  | nil => rfl
  | cons call calls ih =>
    cases hask : cfg.ask call with
    | none =>
      have hne : call ≠ .next := by
        rintro rfl
        obtain ⟨route, cfg', heq, -⟩ := cfg.serves_next
        rw [ask, heq] at hask
        simp at hask
      rw [carriersGiven_of_none hask, List.count_cons_of_ne hne]
      exact ih (hcalls.imp_right fun h f hf => h f (List.mem_cons_of_mem _ hf))
    | some answer =>
      obtain ⟨route, cfg'⟩ := answer
      have hserves := serves_ask hask
      have hih := @ih cfg' (by
        rw [hserves.routes, keys_take]
        exact hcalls.imp_right fun h f hf => h f (List.mem_cons_of_mem _ hf))
      rw [hserves.carriers] at hih
      rw [carriersGiven_of_some hask]
      cases call with
      | next =>
        obtain ⟨route', cfg'', heq, -, hcarrier, hcur⟩ := cfg.serves_next
        obtain ⟨rfl, rfl⟩ : route' = route ∧ cfg'' = cfg' := by simpa [ask, heq] using hask
        have hentry : cfg.vecTerminationCarrier[cfg.nCurrentTerminationCarrier %
            cfg.vecTerminationCarrier.length]? = some cfg.currentCarrier := by
          rw [Nat.mod_eq_of_lt cfg.current_lt]
          exact List.getElem?_eq_getElem cfg.current_lt
        rw [if_pos rfl, hih, hcarrier, List.count_cons_self, readAround_cons _ _ hentry,
          readAround_congr hcur]
      | forCarrier carrier =>
        rw [if_neg (by simp), hih, (serves_forCarrier hask).2.2, List.count_cons_of_ne (by simp)]
      | altCarrier failedCarrier =>
        have htwo := hcalls.resolve_right fun h => h failedCarrier List.mem_cons_self
        rw [if_neg (by simp), hih, (serves_altCarrier hask).2 htwo, List.count_cons_of_ne (by simp)]

/-- Each turn of a carrier gives out one of its trunks. -/
theorem length_addressesFor_next (carrier : Bytes) (k : ℕ) :
    (cfg.addressesFor carrier (List.replicate k .next)).length =
      (cfg.carriersGiven (List.replicate k .next)).count carrier := by
  induction k generalizing cfg with
  | zero => rfl
  | succ k ih =>
    obtain ⟨route, cfg', heq, -⟩ := cfg.serves_next
    have hask : cfg.ask .next = some (route, cfg') := heq
    rw [List.replicate_succ, addressesFor_of_some hask, carriersGiven_of_some hask, if_pos rfl,
      List.count_cons, ← ih]
    by_cases hc : route.carrier = carrier
    · rw [if_pos hc, List.length_cons, if_pos (by simpa using hc)]
    · rw [if_neg hc, if_neg (by simpa using hc), Nat.add_zero]

/-! ## Both levels -/

end SspConfig

namespace CarrierElement

/-- The `outbound` element of an active carrier that has an active trunk. -/
def active? (e : CarrierElement) : Option Outbound :=
  e.outbound.filter fun o => o.active && decide (0 < (trunks e.name o).length)

/-- The sum of the weights of the trunks of a carrier. -/
def trunkWeight (name : Bytes) (o : Outbound) : ℕ := ((trunks name o).map (·.qty)).sum

/-- The sum of the weights of the carriers. -/
def carrierWeight (es : List CarrierElement) : ℕ := (es.map fun e => e.active?.elim 0 (·.qty)).sum

/-- The product of the weights of the trunks of the carriers. -/
def trunkProduct (es : List CarrierElement) : ℕ :=
  (es.map fun e => e.active?.elim 1 (trunkWeight e.name)).prod

/-- The turns of a carrier. -/
def turns (e : CarrierElement) : List Bytes := e.active?.elim [] fun o => List.replicate o.qty e.name

theorem dvd_trunkProduct {es : List CarrierElement} {e : CarrierElement} (he : e ∈ es) {o : Outbound}
    (ho : e.active? = some o) : trunkWeight e.name o ∣ trunkProduct es := by
  have h : e.active?.elim 1 (trunkWeight e.name) ∣ trunkProduct es :=
    List.dvd_prod (List.mem_map_of_mem he)
  rwa [ho] at h

end CarrierElement

namespace SspConfig

open CarrierElement

theorem addCarrier_of_active {e : CarrierElement} {o : Outbound} (h : e.active? = some o) (acc : Carriers) :
    ∃ htrunks, addCarrier acc e =
      (acc.1.insert e.name (.new e.name o htrunks), acc.2 ++ List.replicate o.qty e.name) := by
  obtain ⟨ho, hactive⟩ := Option.filter_eq_some_iff.1 h
  obtain ⟨hact, htrunks⟩ : o.active = true ∧ 0 < (trunks e.name o).length := by simpa using hactive
  exact ⟨htrunks, by simp only [addCarrier, ho, hact, htrunks, if_true, dif_pos]⟩

theorem addCarrier_of_inactive {e : CarrierElement} (h : e.active? = none) (acc : Carriers) :
    addCarrier acc e = acc := by
  unfold addCarrier
  split
  · rfl
  · rename_i o ho
    rw [active?, ho, Option.filter_some] at h
    split_ifs with hact htrunks
    · simp [hact, htrunks] at h
    · rfl
    · rfl

theorem foldl_addCarrier_turns (es : List CarrierElement) (acc : Carriers) :
    (es.foldl addCarrier acc).2 = acc.2 ++ es.flatMap turns := by
  induction es generalizing acc with
  | nil => simp
  | cons e es ih =>
    rw [List.foldl_cons, ih, List.flatMap_cons, ← List.append_assoc, turns]
    cases hactive : e.active? with
    | none => rw [addCarrier_of_inactive hactive, Option.elim_none, List.append_nil]
    | some o =>
      obtain ⟨_, heq⟩ := addCarrier_of_active hactive acc
      rw [heq, Option.elim_some]

/-- A route that is there stays. -/
theorem find?_foldl_of_some {es : List CarrierElement} {acc : Carriers} {carrier : Bytes}
    {r : TerminationRoute} (h : acc.1.find? carrier = some r) :
    (es.foldl addCarrier acc).1.find? carrier = some r := by
  induction es generalizing acc with
  | nil => exact h
  | cons e es ih =>
    refine @ih (addCarrier acc e) ?_
    cases hactive : e.active? with
    | none => rwa [addCarrier_of_inactive hactive]
    | some o =>
      obtain ⟨htrunks, heq⟩ := addCarrier_of_active hactive acc
      rw [heq, OrdMap.find?_insert]
      split_ifs with hc
      · rw [show acc.1.find? e.name = some r from hc ▸ h, Option.getD_some]
      · exact h

/-- The route of a carrier, where no name is there twice. -/
theorem find?_foldl_addCarrier {es : List CarrierElement} (hnames : (es.map (·.name)).Nodup)
    {acc : Carriers} (hacc : ∀ e ∈ es, acc.1.find? e.name = none) {e : CarrierElement} (he : e ∈ es)
    {o : Outbound} (ho : e.active? = some o) :
    ∃ htrunks, (es.foldl addCarrier acc).1.find? e.name = some (.new e.name o htrunks) := by
  induction es generalizing acc with
  | nil => simp at he
  | cons e' es ih =>
    obtain ⟨hnew, hnames⟩ := List.nodup_cons.1 hnames
    rcases List.mem_cons.1 he with rfl | he
    · obtain ⟨htrunks, heq⟩ := addCarrier_of_active ho acc
      refine ⟨htrunks, @find?_foldl_of_some es (addCarrier acc e) _ _ ?_⟩
      rw [heq, OrdMap.find?_insert, if_pos rfl, hacc e List.mem_cons_self, Option.getD_none]
    · refine @ih hnames (addCarrier acc e') (fun x hx => ?_) he
      have hold := hacc x (List.mem_cons_of_mem _ hx)
      cases hactive : e'.active? with
      | none => rwa [addCarrier_of_inactive hactive]
      | some o' =>
        obtain ⟨htrunks, heq⟩ := addCarrier_of_active hactive acc
        rw [heq, OrdMap.find?_insert, if_neg, hold]
        rintro heq
        exact hnew (List.mem_map.2 ⟨x, hx, heq⟩)

theorem length_turns (es : List CarrierElement) : (es.flatMap turns).length = carrierWeight es := by
  rw [List.length_flatMap, carrierWeight]
  refine congrArg List.sum (List.map_congr_left fun e _ => ?_)
  rw [turns]
  cases e.active? with
  | none => rfl
  | some o => exact List.length_replicate

theorem count_turns {es : List CarrierElement} (hnames : (es.map (·.name)).Nodup) {e : CarrierElement}
    (he : e ∈ es) {o : Outbound} (ho : e.active? = some o) : (es.flatMap turns).count e.name = o.qty := by
  have hzero : ∀ x : CarrierElement, x.name ≠ e.name → x.turns.count e.name = 0 := by
    intro x hx
    rw [turns]
    cases x.active? with
    | none => rfl
    | some o' =>
      rw [Option.elim_some, List.count_replicate, if_neg (by simpa using hx)]
  induction es with
  | nil => simp at he
  | cons e' es ih =>
    obtain ⟨hnew, hnames⟩ := List.nodup_cons.1 hnames
    rw [List.flatMap_cons, List.count_append]
    rcases List.mem_cons.1 he with rfl | he
    · have hrest : (es.flatMap turns).count e.name = 0 := by
        rw [List.count_flatMap]
        refine List.sum_eq_zero fun n hn => ?_
        obtain ⟨x, hx, rfl⟩ := List.mem_map.1 hn
        exact hzero x fun heq => hnew (List.mem_map.2 ⟨x, hx, heq⟩)
      rw [hrest, turns, ho, Option.elim_some, List.count_replicate_self, Nat.add_zero]
    · rw [ih hnames he, hzero e', Nat.zero_add]
      rintro heq
      exact hnew (List.mem_map.2 ⟨e, he, heq.symm⟩)

/-- The same list again and again, entry by entry. -/
theorem flatten_replicate_perm (cs : List CarrierAddressSpace) (m : ℕ) :
    (List.replicate m (cs.flatMap fun c => List.replicate c.qty c.text)).flatten.Perm
      (cs.flatMap fun c => List.replicate (m * c.qty) c.text) := by
  induction m with
  | zero => simp
  | succ m ih =>
    rw [List.replicate_succ, List.flatten_cons]
    refine (ih.append_left _).trans ((List.flatMap_append_perm cs _ _).trans (List.Perm.of_eq ?_))
    refine congrArg (cs.flatMap ·) (funext fun c => ?_)
    rw [← List.replicate_add, Nat.succ_mul, Nat.add_comm]

/-- **Fair shares.** Where no carrier is there twice and every trunk has a weight, after any
    calls on the configuration: in as many calls of `getTerminationRoute` as the carriers
    have turns, each carrier is given as often as its weight says; in `trunkProduct` times
    as many, each trunk has exactly its share; the calls for a carrier, or for another
    carrier where there are two, do not change the order of the carriers; and the carrier
    whose turn it is has a route. -/
theorem fair_of_load {es : List CarrierElement} {n : UInt32} {anonymous : Bytes} {cfg : SspConfig}
    (h : load es n anonymous = some cfg) (hnames : (es.map (·.name)).Nodup)
    (hq : ∀ e ∈ es, ∀ o ∈ e.active?, ∀ c ∈ trunks e.name o, 1 ≤ c.qty) (calls : List RouteCall) :
    (∀ e ∈ es, ∀ o ∈ e.active?,
      ((routing.exec cfg calls).carriersGiven (List.replicate (carrierWeight es) .next)).count e.name =
        o.qty) ∧
      (∀ e ∈ es, ∀ o ∈ e.active?,
        ((routing.exec cfg calls).addressesFor e.name
          (List.replicate (carrierWeight es * trunkProduct es) .next)).Perm
          ((trunks e.name o).flatMap fun c =>
            List.replicate (o.qty * (trunkProduct es / trunkWeight e.name o) * c.qty) c.text)) ∧
      (∀ more : List RouteCall,
        (2 ≤ cfg.mapTerminationCarrierByName.keys.length ∨ ∀ f, .altCarrier f ∉ more) →
          (routing.exec cfg calls).carriersGiven more =
            (routing.exec cfg calls).carriersGiven (List.replicate (more.count .next) .next)) ∧
      (routing.exec cfg calls).getTerminationRoute ≠ none := by
  obtain ⟨hmap, hvec⟩ := of_load h
  have hturns : (routing.exec cfg calls).vecTerminationCarrier = es.flatMap turns := by
    rw [vecTerminationCarrier_exec, hvec, carriers, foldl_addCarrier_turns, List.nil_append]
  have hgiven : ∀ k, (routing.exec cfg calls).carriersGiven (List.replicate k .next) =
      readAround (es.flatMap turns) (routing.exec cfg calls).nCurrentTerminationCarrier k := by
    intro k
    rw [carriersGiven_eq_readAround (.inr (by simp)), hturns, List.count_replicate_self]
  refine ⟨fun e he o ho => ?_, fun e he o ho => ?_, fun more hmore => ?_, ?_⟩
  · rw [hgiven, ← length_turns, (readAround_length_perm _ _).count_eq, count_turns hnames he ho]
  · obtain ⟨htrunks, hfind⟩ := @find?_foldl_addCarrier _ hnames (OrdMap.empty, [])
      (by simp [OrdMap.empty, OrdMap.find?, OrdMap.findEntries]) _ he _ ho
    obtain ⟨r, hr, hsame⟩ := schedule_exec (show cfg.mapTerminationCarrierByName.find? _ = _ by rw [hmap]; exact hfind) calls
    have hschedule : r.schedule = (trunks e.name o).flatMap fun c => List.replicate c.qty c.text := by
      have := congrArg (List.flatMap fun p : ℕ × Bytes => List.replicate p.1 p.2) hsame
      rwa [List.flatMap_map, List.flatMap_map] at this
    have hqr : ∀ c ∈ r.vecTrunks, 1 ≤ c.qty := by
      intro c hc
      have hmem : (c.qty, c.text) ∈ r.vecTrunks.map fun c => (c.qty, c.text) :=
        List.mem_map.2 ⟨c, hc, rfl⟩
      rw [hsame] at hmem
      obtain ⟨c', hc', heq⟩ := List.mem_map.1 hmem
      rw [← (Prod.mk.inj heq).1]
      exact hq e he o ho c' hc'
    have hlen : r.schedule.length = trunkWeight e.name o := by
      rw [hschedule, List.length_flatMap]
      simp [trunkWeight]
    -- The turns of the carrier are a multiple of the weights of its trunks.
    have hcount : ((routing.exec cfg calls).addressesFor e.name
        (List.replicate (carrierWeight es * trunkProduct es) .next)).length =
        o.qty * (trunkProduct es / trunkWeight e.name o) * r.schedule.length := by
      rw [length_addressesFor_next, hgiven, ← length_turns, Nat.mul_comm,
        (readAround_mul_perm _ _ _).count_eq, List.count_flatten, List.map_replicate,
        List.sum_replicate_nat, count_turns hnames he ho, hlen, Nat.mul_assoc,
        Nat.div_mul_cancel (dvd_trunkProduct he ho), Nat.mul_comm]
    rw [addressesFor_eq_readAround hr hqr, hcount]
    refine (readAround_mul_perm _ _ _).trans ?_
    rw [hschedule]
    exact flatten_replicate_perm _ _
  · have hkeys : (routing.exec cfg calls).mapTerminationCarrierByName.keys =
        cfg.mapTerminationCarrierByName.keys := keys_exec calls
    rw [hgiven, carriersGiven_eq_readAround (hkeys ▸ hmore), hturns]
  · obtain ⟨route, cfg', heq, -⟩ := (routing.exec cfg calls).serves_next
    rw [heq]
    exact Option.some_ne_none _

/-- Two carriers, one with two trunks. -/
def twoCarriers : List CarrierElement := [twoTrunks, sampleCarrier "b"]

theorem fair_twoCarriers :
    ∃ cfg, load twoCarriers 1 [] = some cfg ∧ ∀ calls,
      ((routing.exec cfg calls).carriersGiven [.next, .next]).count ['a'] = 1 ∧
        ((routing.exec cfg calls).addressesFor ['a'] (List.replicate 6 .next)).Perm
          [['x'], ['x'], ['y']] := by
  have hq : ∀ e ∈ twoCarriers, ∀ o ∈ e.active?, ∀ c ∈ trunks e.name o, 1 ≤ c.qty := by
    simp only [twoCarriers, List.forall_mem_cons]
    refine ⟨?_, ?_, by simp⟩ <;>
    · rintro o ⟨⟩
      decide
  refine ⟨_, rfl, fun calls => ?_⟩
  have hfair := fair_of_load (show load twoCarriers 1 [] = some _ from rfl) (by decide) hq calls
  exact ⟨hfair.1 twoTrunks List.mem_cons_self _ rfl, hfair.2.1 twoTrunks List.mem_cons_self _ rfl⟩

end SspConfig

end Ssp
