import Ssp.Config.Document
import Ssp.Config.Fairness

/-!
# Which trunks are given out

Every trunk of a carrier whose turn comes is given out some time, whatever its weight. Which
trunks these are is decided when the configuration is loaded: a carrier has the trunks of the
first element of its name that has any, but takes its turns for all of them.

`offered_iff` compares this with the trunks that the document puts into use.
-/

namespace Ssp

/-- The text of an address in a route. -/
def OutboundAddress.text (a : OutboundAddress) : Bytes :=
  if a.port = 5060 then a.address else a.address ++ ':' :: (toString a.port.toNat).toList

/-- What is given out: a trunk, its carrier and charge number. -/
abbrev Offer := Bytes × Bytes × Bytes

namespace CarrierElement

/-- An active address of a weight of at least `1`, of an active element of such a weight. -/
def Lists (e : CarrierElement) (offer : Offer) : Prop :=
  ∃ o ∈ e.outbound, o.active = true ∧ 1 ≤ o.qty ∧
    ∃ a ∈ o.addresses, a.active = true ∧ 1 ≤ a.qty ∧ offer = (a.text, e.name, o.chargeNumber)

/-- An active address of any weight, of an active element. -/
def Routes (e : CarrierElement) (offer : Offer) : Prop :=
  ∃ o ∈ e.active?, ∃ a ∈ o.addresses, a.active = true ∧ offer = (a.text, e.name, o.chargeNumber)

instance (e : CarrierElement) (offer : Offer) : Decidable (e.Lists offer) :=
  inferInstanceAs (Decidable (∃ o ∈ e.outbound, _))

instance (e : CarrierElement) (offer : Offer) : Decidable (e.Routes offer) :=
  inferInstanceAs (Decidable (∃ o ∈ e.active?, _))

/-- The element takes turns. -/
def TakesTurns (e : CarrierElement) : Prop := ∃ o ∈ e.active?, 1 ≤ o.qty

/-- The first one of the elements of its name that has active addresses. -/
def IsFirst (e : CarrierElement) (es : List CarrierElement) : Prop :=
  es.find? (fun e' => e'.name = e.name ∧ e'.active?.isSome) = some e

end CarrierElement

namespace SspConfig

open CarrierElement

variable {cfg : SspConfig}

/-- What the calls of `getTerminationRoute` among `calls` give out. -/
def offered (cfg : SspConfig) (calls : List RouteCall) : List Offer :=
  (cfg.answers calls).filterMap fun a =>
    (a.2.filter fun _ => a.1 = .next).map fun route => (route.trunk.text, route.carrier, route.chargeNumber)

/-- What a configuration may give out: the trunks of the carriers that take turns. -/
def MayOffer (cfg : SspConfig) (offer : Offer) : Prop :=
  offer.2.1 ∈ cfg.vecTerminationCarrier ∧
    ∃ r, cfg.mapTerminationCarrierByName.find? offer.2.1 = some r ∧ offer.1 ∈ r.texts ∧ offer.2.2 = r.chargeNumber

/-! ## What may be given out -/

/-- The charge number that comes with a trunk is that of its carrier. -/
theorem chargeNumber_forCarrier {carrier : Bytes} {route : Route} {cfg' : SspConfig}
    (h : cfg.getTerminationRouteForCarrier carrier = some (route, cfg')) :
    ∃ r, cfg.mapTerminationCarrierByName.find? carrier = some r ∧ route.chargeNumber = r.chargeNumber := by
  unfold getTerminationRouteForCarrier at h
  cases hr : cfg.mapTerminationCarrierByName.find? carrier with
  | none => rw [hr] at h; cases h
  | some r =>
    rw [hr] at h
    obtain ⟨rfl, rfl⟩ := Prod.mk.inj (Option.some.inj h)
    exact ⟨r, rfl, rfl⟩

/-- **One call** of `getTerminationRoute`. -/
theorem mayOffer_next {route : Route} {cfg' : SspConfig} (h : cfg.getTerminationRoute = some (route, cfg')) :
    cfg.MayOffer (route.trunk.text, route.carrier, route.chargeNumber) := by
  unfold getTerminationRoute at h
  obtain ⟨⟨route', cfg''⟩, hanswer, heq⟩ := Option.map_eq_some_iff.1 h
  obtain ⟨rfl, rfl⟩ := Prod.mk.inj heq
  obtain ⟨hserves, hcarrier, -⟩ := serves_forCarrier hanswer
  obtain ⟨r, hr, hcharge⟩ := chargeNumber_forCarrier hanswer
  obtain ⟨r', hr', htrunk⟩ := hserves.trunk
  rw [hcarrier, hr, Option.some_inj] at hr'
  subst hr'
  have hmem : cfg.currentCarrier ∈ cfg.vecTerminationCarrier := List.get_mem _ _
  refine ⟨hcarrier ▸ hmem, r, hcarrier ▸ hr, ?_, hcharge⟩
  rw [htrunk]
  exact List.mem_of_getElem? r.getNextTrunk_text

/-- No call changes what may be given out. -/
theorem Serves.mayOffer_iff {route : Route} {cfg' : SspConfig} (h : cfg.Serves route cfg') (offer : Offer) :
    cfg'.MayOffer offer ↔ cfg.MayOffer offer := by
  unfold MayOffer
  rw [h.carriers]
  refine and_congr_right fun hmem => ?_
  obtain ⟨r, hr⟩ := OrdMap.exists_find?_of_mem (cfg.hasRoute _ hmem)
  rw [h.find? hr, hr]
  simp only [Option.some_inj, exists_eq_left']
  split_ifs
  · rw [r.texts_getNextTrunk]
    rfl
  · rfl

/-- **A run of calls** gives out nothing else. -/
theorem mayOffer_of_mem {calls : List RouteCall} {offer : Offer} (h : offer ∈ cfg.offered calls) :
    cfg.MayOffer offer := by
  induction calls generalizing cfg with
  | nil => cases h
  | cons call calls ih =>
    unfold offered at h
    cases hask : cfg.ask call with
    | none =>
      rw [answers_of_none hask, List.filterMap_cons_none rfl] at h
      exact ih h
    | some answer =>
      obtain ⟨route, cfg'⟩ := answer
      have hserves := serves_ask hask
      rw [answers_of_some hask, List.filterMap_cons] at h
      by_cases hnext : call = .next
      · subst hnext
        rcases List.mem_cons.1 h with rfl | h
        · exact mayOffer_next hask
        · exact (hserves.mayOffer_iff offer).1 (ih h)
      · have hnone : ((some route).filter fun _ => decide (call = .next)) = none :=
          Option.filter_eq_none_iff.2 fun _ _ => by simpa using hnext
        rw [hnone] at h
        exact (hserves.mayOffer_iff offer).1 (ih h)

/-! ## What is given out -/

theorem map_fst_answers (cfg : SspConfig) (calls : List RouteCall) : (cfg.answers calls).map Prod.fst = calls := by
  induction calls generalizing cfg with
  | nil => rfl
  | cons call calls ih => exact congrArg (call :: ·) (ih _)

/-- The carriers take turns around and around. -/
theorem le_count_carriersGiven {carrier : Bytes} (h : carrier ∈ cfg.vecTerminationCarrier) (m : ℕ) :
    m ≤ (cfg.carriersGiven (List.replicate (m * cfg.vecTerminationCarrier.length) .next)).count carrier := by
  have halt : ∀ f, RouteCall.altCarrier f ∉ List.replicate (m * cfg.vecTerminationCarrier.length) RouteCall.next :=
    fun f hf => RouteCall.noConfusion (List.eq_of_mem_replicate hf)
  rw [carriersGiven_eq_readAround (.inr halt), List.count_replicate_self,
    (readAround_mul_perm cfg.vecTerminationCarrier cfg.nCurrentTerminationCarrier m).count_eq, List.count_flatten,
    List.map_replicate, List.sum_replicate_nat]
  exact Nat.le_mul_of_pos_right m (List.count_pos_iff.2 h)

/-- **Everything that may be given out is**, by calls of `getTerminationRoute` alone. -/
theorem exists_mem_offered {offer : Offer} (h : cfg.MayOffer offer) :
    ∃ k, offer ∈ cfg.offered (List.replicate k .next) := by
  obtain ⟨text, carrier, chargeNumber⟩ := offer
  obtain ⟨hcarrier, r, hr, htext, hcharge⟩ := h
  dsimp only at hcarrier hr htext hcharge
  obtain ⟨i, hi⟩ := List.mem_iff_getElem?.1 htext
  have hlt : i < r.rotation.size := by
    have := (List.getElem?_eq_some_iff.1 hi).1
    rwa [TerminationRoute.texts, List.length_map] at this
  obtain ⟨m, hm⟩ := r.rotation.exists_mem_given hlt
  refine ⟨m * cfg.vecTerminationCarrier.length, ?_⟩
  have hcount := le_count_carriersGiven hcarrier m
  generalize hcalls : List.replicate (m * cfg.vecTerminationCarrier.length) RouteCall.next = calls at hcount ⊢
  -- The carrier was asked at least `m` times.
  have hlen : m ≤ (cfg.addressesFor carrier calls).length := by
    rw [← hcalls, length_addressesFor_next, hcalls]
    exact hcount
  have hgiven : i ∈ r.rotation.given (cfg.addressesFor carrier calls).length := by
    rw [Rotation.given_eq_map, List.mem_map] at hm ⊢
    obtain ⟨j, hj, hij⟩ := hm
    exact ⟨j, List.mem_range.2 ((List.mem_range.1 hj).trans_le hlen), hij⟩
  have haddress : text ∈ cfg.addressesFor carrier calls := by
    have hsome := List.mem_map_of_mem (f := fun i => r.texts[i]?) hgiven
    rw [← map_some_addressesFor hr, hi] at hsome
    obtain ⟨text', htext', heq⟩ := List.mem_map.1 hsome
    exact Option.some_inj.1 heq ▸ htext'
  obtain ⟨⟨call, answer⟩, hanswer, htake⟩ := List.mem_filterMap.1 haddress
  obtain ⟨route, hroute, rfl⟩ := Option.map_eq_some_iff.1 htake
  obtain ⟨rfl, hname⟩ := Option.filter_eq_some_iff.1 hroute
  have hname : route.carrier = carrier := by simpa using hname
  have hcall : call = .next := by
    have hmem := List.mem_map_of_mem (f := Prod.fst) hanswer
    rw [map_fst_answers, ← hcalls] at hmem
    exact List.eq_of_mem_replicate hmem
  have hoffer : (route.trunk.text, route.carrier, route.chargeNumber) ∈ cfg.offered calls :=
    List.mem_filterMap.2 ⟨_, hanswer, by rw [hcall]; rfl⟩
  -- Its charge number is the one of the carrier.
  obtain ⟨-, r', hr', -, hcharge'⟩ := mayOffer_of_mem hoffer
  dsimp only at hr' hcharge'
  rw [hname, hr, Option.some_inj] at hr'
  rwa [hname, hcharge', ← hr', ← hcharge] at hoffer

/-! ## Charge numbers -/

/-- The carrier has a charge number. -/
def ChargesFor (cfg : SspConfig) (carrier : Bytes) : Prop :=
  ∃ r ∈ cfg.mapTerminationCarrierByName.find? carrier, r.chargeNumber ≠ []

instance (cfg : SspConfig) (carrier : Bytes) : Decidable (cfg.ChargesFor carrier) :=
  inferInstanceAs (Decidable (∃ r ∈ _, _))

/-- A carrier that calls may go to first has a charge number: one that takes turns, or the one
    for anonymous calls. -/
def ChargesFirst (cfg : SspConfig) : Prop :=
  (∃ carrier ∈ cfg.vecTerminationCarrier, cfg.ChargesFor carrier) ∨
    cfg.strAnonymousCallRoutingCarrier ≠ [] ∧ cfg.ChargesFor cfg.strAnonymousCallRoutingCarrier

instance (cfg : SspConfig) : Decidable cfg.ChargesFirst := inferInstanceAs (Decidable (_ ∨ _))

/-- The charge number of a route is that of its carrier. -/
theorem chargesFor_of_forCarrier {carrier : Bytes} {route : Route} {cfg' : SspConfig}
    (h : cfg.getTerminationRouteForCarrier carrier = some (route, cfg')) :
    route.chargeNumber ≠ [] ↔ cfg.ChargesFor carrier := by
  obtain ⟨r, hr, hcharge⟩ := chargeNumber_forCarrier h
  unfold ChargesFor
  rw [hr, hcharge]
  simp

theorem chargesFor_of_next {route : Route} {cfg' : SspConfig} (h : cfg.getTerminationRoute = some (route, cfg')) :
    route.chargeNumber ≠ [] ↔ cfg.ChargesFor cfg.currentCarrier := by
  unfold getTerminationRoute at h
  obtain ⟨⟨route', cfg''⟩, hanswer, heq⟩ := Option.map_eq_some_iff.1 h
  obtain ⟨rfl, rfl⟩ := Prod.mk.inj heq
  exact chargesFor_of_forCarrier hanswer

theorem Serves.chargesFor_iff {route : Route} {cfg' : SspConfig} (h : cfg.Serves route cfg') (carrier : Bytes) :
    cfg'.ChargesFor carrier ↔ cfg.ChargesFor carrier := by
  unfold ChargesFor
  rw [h.routes, find?_take]
  split_ifs
  · cases cfg.mapTerminationCarrierByName.find? carrier with
    | none => rfl
    | some r => simp [TerminationRoute.getNextTrunk]
  · rfl

theorem strAnonymous_forCarrier {carrier : Bytes} {route : Route} {cfg' : SspConfig}
    (h : cfg.getTerminationRouteForCarrier carrier = some (route, cfg')) :
    cfg'.strAnonymousCallRoutingCarrier = cfg.strAnonymousCallRoutingCarrier := by
  unfold getTerminationRouteForCarrier at h
  cases hr : cfg.mapTerminationCarrierByName.find? carrier with
  | none => rw [hr] at h; cases h
  | some r =>
    rw [hr] at h
    obtain ⟨-, rfl⟩ := Prod.mk.inj (Option.some_inj.1 h)
    rfl

theorem strAnonymous_next {route : Route} {cfg' : SspConfig} (h : cfg.getTerminationRoute = some (route, cfg')) :
    cfg'.strAnonymousCallRoutingCarrier = cfg.strAnonymousCallRoutingCarrier := by
  unfold getTerminationRoute at h
  obtain ⟨⟨route', cfg''⟩, hanswer, heq⟩ := Option.map_eq_some_iff.1 h
  obtain ⟨rfl, rfl⟩ := Prod.mk.inj heq
  exact (strAnonymous_forCarrier hanswer :)

/-- The carrier for anonymous calls stays the same. -/
theorem strAnonymous_ask {call : RouteCall} {route : Route} {cfg' : SspConfig} (h : cfg.ask call = some (route, cfg')) :
    cfg'.strAnonymousCallRoutingCarrier = cfg.strAnonymousCallRoutingCarrier := by
  cases call with
  | next => exact strAnonymous_next h
  | forCarrier carrier => exact strAnonymous_forCarrier h
  | altCarrier failedCarrier =>
    change cfg.getTerminationRouteForAltCarrier failedCarrier = _ at h
    unfold getTerminationRouteForAltCarrier at h
    split at h
    · exact strAnonymous_forCarrier h
    · exact strAnonymous_next h

/-- **No call changes who has a charge number.** -/
theorem chargesFirst_exec (calls : List RouteCall) : (routing.exec cfg calls).ChargesFirst ↔ cfg.ChargesFirst := by
  induction calls generalizing cfg with
  | nil => rfl
  | cons call calls ih =>
    rw [Machine.exec_cons, ih]
    cases hask : cfg.ask call with
    | none => rw [routing_next_of_none cfg hask]
    | some answer =>
      have hserves := serves_ask hask
      rw [routing_next_of_some cfg hask]
      unfold ChargesFirst
      simp only [hserves.carriers, hserves.chargesFor_iff, strAnonymous_ask hask]

/-! ## What is loaded -/

/-- The route of a name is that of its first element, where there was none before. -/
theorem find?_foldl_of_find? {es : List CarrierElement} {acc : Carriers} {name : Bytes}
    (hacc : acc.1.find? name = none) {e : CarrierElement}
    (he : es.find? (fun e' => e'.name = name ∧ e'.active?.isSome) = some e) {o : Outbound} (ho : e.active? = some o) :
    ∃ htrunks, (es.foldl addCarrier acc).1.find? name = some (.new e.name o htrunks) := by
  induction es generalizing acc with
  | nil => cases he
  | cons e' es ih =>
    by_cases hfirst : e'.name = name ∧ e'.active?.isSome = true
    · rw [List.find?_cons_of_pos (by simpa using hfirst)] at he
      obtain rfl := Option.some_inj.1 he
      obtain ⟨htrunks, heq⟩ := addCarrier_of_active ho acc
      refine ⟨htrunks, @find?_foldl_of_some es (addCarrier acc e') _ _ ?_⟩
      obtain ⟨rfl, -⟩ := hfirst
      rw [heq, OrdMap.find?_insert, if_pos rfl, hacc, Option.getD_none]
    · rw [List.find?_cons_of_neg (by simpa using hfirst)] at he
      refine @ih (addCarrier acc e') ?_ he
      cases hactive : e'.active? with
      | none => rwa [addCarrier_of_inactive hactive]
      | some o' =>
        obtain ⟨htrunks, heq⟩ := addCarrier_of_active hactive acc
        have hne : name ≠ e'.name := fun hname => hfirst ⟨hname.symm, by rw [hactive]; rfl⟩
        rw [heq, OrdMap.find?_insert, if_neg hne, hacc]

theorem texts_new (name : Bytes) (o : Outbound) (htrunks : 0 < (trunks name o).length) :
    (TerminationRoute.new name o htrunks).texts = (o.addresses.filter (·.active)).map OutboundAddress.text := by
  change ((o.addresses.filter (·.active)).map _).map _ = _
  rw [List.map_map]
  rfl

theorem mem_turns_iff {es : List CarrierElement} {name : Bytes} :
    name ∈ (carriers es).2 ↔ ∃ e ∈ es, e.TakesTurns ∧ e.name = name := by
  rw [carriers, foldl_addCarrier_turns, List.nil_append, List.mem_flatMap]
  refine exists_congr fun e => and_congr_right fun _ => ?_
  unfold turns TakesTurns
  cases e.active? with
  | none =>
    refine iff_of_false List.not_mem_nil ?_
    rintro ⟨⟨o, ho, -⟩, -⟩
    cases ho
  | some o =>
    rw [Option.elim_some, List.mem_replicate, ← Nat.one_le_iff_ne_zero, eq_comm (a := name)]
    refine and_congr_left fun _ => ⟨fun h => ⟨o, rfl, h⟩, ?_⟩
    rintro ⟨o', ho', h⟩
    rwa [Option.some_inj.1 ho']

/-- **What a loaded configuration may give out**: what the first element of a name that takes
    turns routes. -/
theorem mayOffer_iff_of_load {es : List CarrierElement} {n : UInt32} {anonymous : Bytes}
    (h : load es n anonymous = some cfg) (offer : Offer) :
    cfg.MayOffer offer ↔
      (∃ e ∈ es, e.TakesTurns ∧ e.name = offer.2.1) ∧ ∃ e ∈ es, e.IsFirst es ∧ e.Routes offer := by
  obtain ⟨hroutes, hcarriers⟩ := of_load h
  unfold MayOffer
  rw [hroutes, hcarriers, mem_turns_iff]
  refine and_congr_right fun ⟨e, he, ⟨o, ho, _⟩, hname⟩ => ?_
  -- The name has a first element.
  have hsome : (es.find? fun e' => e'.name = offer.2.1 ∧ e'.active?.isSome).isSome = true := by
    refine List.find?_isSome.2 ⟨e, he, decide_eq_true ⟨hname, ?_⟩⟩
    exact Option.isSome_iff_exists.2 ⟨o, ho⟩
  obtain ⟨f, hf⟩ := Option.isSome_iff_exists.1 hsome
  obtain ⟨hfname, hfsome⟩ : f.name = offer.2.1 ∧ f.active?.isSome = true := by simpa using List.find?_some hf
  obtain ⟨p, hp⟩ := Option.isSome_iff_exists.1 hfsome
  obtain ⟨htrunks, hfind⟩ :=
    @find?_foldl_of_find? _ (OrdMap.empty, []) _ (by simp [OrdMap.empty, OrdMap.find?, OrdMap.findEntries]) _ hf _ hp
  have hf' : f.IsFirst es := by rwa [IsFirst, hfname]
  have hfind' : (carriers es).1.find? offer.2.1 = some (.new f.name p htrunks) := hfind
  rw [hfind']
  simp only [Option.some_inj, exists_eq_left', texts_new, List.mem_map, List.mem_filter]
  constructor
  · rintro ⟨⟨a, ⟨ha, hactive⟩, htext⟩, hcharge⟩
    exact ⟨f, List.mem_of_find?_eq_some hf, hf', p, hp, a, ha, hactive,
      Prod.ext htext.symm (Prod.ext hfname.symm hcharge)⟩
  · rintro ⟨g, hg, hfirst, q, hq, a, ha, hactive, heq⟩
    -- There is only one first element.
    have hgname : g.name = offer.2.1 := (congrArg (fun offer => offer.2.1) heq).symm
    rw [IsFirst, hgname, hf, Option.some_inj] at hfirst
    subst hfirst
    rw [hp, Option.mem_some_iff] at hq
    subst hq
    exact ⟨⟨a, ⟨ha, hactive⟩, (congrArg Prod.fst heq).symm⟩, congrArg (fun offer => offer.2.2) heq⟩

end SspConfig

namespace SspConfig.Impl

open CarrierElement

/-- All trunks that are put into use are given out, and no others, whatever other calls come in
    between. -/
def OffersListed (t : Ptree) (cfg : Impl) : Prop :=
  (∀ offer, (∃ e ∈ t.carriers, e.Lists offer) → ∃ k, offer ∈ cfg.offered (List.replicate k .next)) ∧
    ∀ calls, ∀ offer ∈ cfg.offered calls, ∃ e ∈ t.carriers, e.Lists offer

variable {t : Ptree} {cfg : Impl}

/-- **The trunks in use are given out** exactly if, for each name that takes turns, the first
    element of that name with active addresses has the trunks, of any weight, that all elements
    of that name put into use. -/
theorem offered_iff (hload : load t = .ok cfg) :
    OffersListed t cfg ↔
      ∀ offer, (∃ e ∈ t.carriers, e.Lists offer) ↔
        (∃ e ∈ t.carriers, e.TakesTurns ∧ e.name = offer.2.1) ∧
          ∃ e ∈ t.carriers, e.IsFirst t.carriers ∧ e.Routes offer := by
  have hmay := mayOffer_iff_of_load (load_ok hload).2.2
  constructor
  · rintro ⟨hall, honly⟩ offer
    rw [← hmay offer]
    refine ⟨fun hlists => ?_, fun h => ?_⟩
    · obtain ⟨k, hk⟩ := hall offer hlists
      exact mayOffer_of_mem hk
    · obtain ⟨k, hk⟩ := exists_mem_offered h
      exact honly _ offer hk
  · intro h
    refine ⟨fun offer hlists => exists_mem_offered ((hmay offer).2 ((h offer).1 hlists)), ?_⟩
    exact fun calls offer hoffer => (h offer).2 ((hmay offer).1 (mayOffer_of_mem hoffer))

/-- Where no name is there twice and no weight is `0`, the trunks in use are those of the first
    elements. -/
theorem lists_iff_of_nodup {es : List CarrierElement} (hnames : (es.map (·.name)).Nodup)
    (hqty : ∀ e ∈ es, ∀ o ∈ e.active?, ∀ a ∈ o.addresses, a.active = true → 1 ≤ a.qty) (offer : Offer) :
    (∃ e ∈ es, e.Lists offer) ↔
      (∃ e ∈ es, e.TakesTurns ∧ e.name = offer.2.1) ∧ ∃ e ∈ es, e.IsFirst es ∧ e.Routes offer := by
  have hsame : ∀ e ∈ es, ∀ f ∈ es, f.name = e.name → f = e :=
    fun e he f hf hname => List.inj_on_of_nodup_map hnames hf he hname
  constructor
  · rintro ⟨e, he, o, ho, hactive, ho', a, ha, ha', -, rfl⟩
    have htrunks : 0 < (trunks e.name o).length :=
      List.length_pos_of_mem (List.mem_map_of_mem (List.mem_filter.2 ⟨ha, ha'⟩))
    have hsome : e.active? = some o :=
      Option.filter_eq_some_iff.2 ⟨ho, by rw [hactive, Bool.true_and, decide_eq_true htrunks]⟩
    have hfirst : e.IsFirst es := by
      have hfound : (es.find? fun e' => e'.name = e.name ∧ e'.active?.isSome).isSome = true :=
        List.find?_isSome.2 ⟨e, he, by simp [hsome]⟩
      obtain ⟨f, hf⟩ := Option.isSome_iff_exists.1 hfound
      have hname : f.name = e.name ∧ f.active?.isSome = true := by simpa using List.find?_some hf
      rw [IsFirst, hf, hsame e he f (List.mem_of_find?_eq_some hf) hname.1]
    exact ⟨⟨e, he, ⟨o, hsome, ho'⟩, rfl⟩, e, he, hfirst, o, hsome, a, ha, ha', rfl⟩
  · rintro ⟨⟨e, he, ⟨o, ho, ho'⟩, hname⟩, f, hf, -, p, hp, a, ha, ha', heq⟩
    have hfname : f.name = e.name := (congrArg (fun offer => offer.2.1) heq).symm.trans hname.symm
    obtain rfl := hsame e he f hf hfname
    rw [Option.mem_def] at ho hp
    obtain rfl := Option.some_inj.1 (ho.symm.trans hp)
    obtain ⟨houtbound, hactive⟩ := Option.filter_eq_some_iff.1 ho
    exact ⟨f, hf, o, houtbound, (Bool.and_eq_true _ _ ▸ hactive).1, ho', a, ha, ha', hqty f hf o ho a ha ha', heq⟩

theorem offersListed_document : ∃ cfg, load (.document [] []) = .ok cfg ∧ OffersListed (.document [] []) cfg := by
  obtain ⟨cfg, hload⟩ := exists_load (t := .document [] []) (by decide)
  exact ⟨cfg, hload, (offered_iff hload).2 (lists_iff_of_nodup (by decide) (by decide))⟩

/-- Another element for the carrier, with a trunk of its own. -/
def twiceDocument : Ptree :=
  .document [] [Ptree.element "carrier" [("name", "level3")] ""
    [Ptree.element "outbound" [] "" [Ptree.element "address" [] "172.21.3.97" []]]]

/-- The trunk of the second element is not given out. -/
theorem not_offersListed_twice : ¬∀ (t : Ptree) (cfg : Impl), load t = .ok cfg → OffersListed t cfg := by
  intro h
  obtain ⟨cfg, hload⟩ := exists_load (t := twiceDocument) (by decide)
  have hlists : ∃ e ∈ twiceDocument.carriers, e.Lists ("172.21.3.97".toList, "level3".toList, []) := by decide
  obtain ⟨k, hk⟩ := (h twiceDocument cfg hload).1 _ hlists
  obtain ⟨-, e, -, hfirst, hroutes⟩ := (mayOffer_iff_of_load (load_ok hload).2.2 _).1 (mayOffer_of_mem hk)
  -- The first element with the name has another trunk.
  have hname : e.name = "level3".toList := by
    obtain ⟨o, -, a, -, -, heq⟩ := hroutes
    exact (congrArg (fun offer => offer.2.1) heq).symm
  rw [IsFirst, hname] at hfirst
  obtain rfl := Option.some_inj.1 hfirst
  exact absurd hroutes (by decide)

end SspConfig.Impl

end Ssp
