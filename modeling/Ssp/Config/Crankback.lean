import Ssp.Config.Routing

/-!
# The trunks of one call

When the attempts of a call fail one after the other, and no other call comes in
between, the carriers alternate: the first carrier of the map and the second one, in
the order of their names, no matter how many there are (`visits`). A carrier that
comes again gives the next trunk of its rotation, which may be the same one.

`tried_nodup_iff` says when all trunks tried are different.
-/

namespace Ssp

namespace SspConfig

/-! ## Which trunks are tried -/

/-- The routes tried after `failedCarrier`, each attempt failing. -/
def retries : SspConfig → Bytes → ℕ → List Route
  | _, _, 0 => []
  | cfg, failedCarrier, k + 1 =>
    match cfg.getTerminationRouteForAltCarrier failedCarrier with
    | none => []
    | some (route, cfg) => route :: retries cfg route.carrier k

/-- The routes tried for a call, `m` attempts. -/
def tried (cfg : SspConfig) : ℕ → List Route
  | 0 => []
  | k + 1 =>
    match cfg.getTerminationRoute with
    | none => []
    | some (route, cfg) => route :: retries cfg route.carrier k

/-- The addresses and ports of all trunks. -/
def allTrunks (cfg : SspConfig) : List (Bytes × UInt32) :=
  cfg.mapTerminationCarrierByName.entries.flatMap fun e => e.2.trunks

/-- The carrier that is tried after `c`: the first other one, or `c` if there is none. -/
def altCarrier (keys : List Bytes) (c : Bytes) : Bytes := (keys.find? (· ≠ c)).getD c

/-- The carriers of `m` attempts, from `c` on. -/
def carriersFrom (keys : List Bytes) : Bytes → ℕ → List Bytes
  | _, 0 => []
  | c, m + 1 => c :: carriersFrom keys (altCarrier keys c) m

/-- How often `carrier` is among them: the first two carriers alternate. -/
def visits (keys : List Bytes) (c : Bytes) (m : ℕ) (carrier : Bytes) : ℕ :=
  match keys with
  | c₀ :: c₁ :: _ =>
    if carrier = c₀ then (if c = c₀ then (m + 1) / 2 else m / 2)
    else if carrier = c₁ then
      (if c = c₀ then m / 2 else if c = c₁ then (m + 1) / 2 else (m - 1) / 2)
    else if carrier = c then min 1 m else 0
  | _ => if carrier = c then m else 0

theorem count_carriersFrom_of_two {c₀ c₁ : Bytes} (h01 : c₀ ≠ c₁) (rest : List Bytes) (c : Bytes)
    (m : ℕ) (carrier : Bytes) :
    (carriersFrom (c₀ :: c₁ :: rest) c m).count carrier = visits (c₀ :: c₁ :: rest) c m carrier := by
  have halt : ∀ c, altCarrier (c₀ :: c₁ :: rest) c = if c = c₀ then c₁ else c₀ := by
    intro c
    unfold altCarrier
    by_cases h : c = c₀
    · subst h
      simp [h01.symm]
    · simp [h, Ne.symm h]
  induction m generalizing c with
  | zero =>
    simp only [carriersFrom, visits]
    split_ifs <;> rfl
  | succ m ih =>
    rw [carriersFrom, List.count_cons, ih, halt]
    by_cases hc₀ : c = c₀
    · subst hc₀
      by_cases h₀ : carrier = c
      · subst h₀
        simp [visits, h01.symm]
        omega
      · simp only [visits, h₀, h01.symm, Ne.symm h₀, if_true, if_false, beq_iff_eq]
        split_ifs <;> omega
    · simp only [hc₀, if_false, beq_iff_eq]
      by_cases h₀ : carrier = c₀
      · simp [visits, h₀, hc₀]
      · by_cases h₁ : carrier = c₁
        · by_cases hc₁ : c = c₁
          · simp [visits, h₁, hc₁, h01.symm]
            omega
          · simp [visits, h₁, hc₁, hc₀, h01.symm]
        · by_cases hcc : carrier = c
          · simp [visits, ← hcc, h₀, h₁]
          · simp [visits, h₀, h₁, hcc, Ne.symm hcc]

/-- The first two carriers alternate, after the one that comes first. -/
theorem count_carriersFrom {keys : List Bytes} (hn : keys.Nodup) {c : Bytes} (hc : c ∈ keys) (m : ℕ)
    (carrier : Bytes) : (carriersFrom keys c m).count carrier = visits keys c m carrier := by
  rcases keys with _ | ⟨c₀, _ | ⟨c₁, rest⟩⟩
  · simp at hc
  · -- A single carrier is tried again and again.
    obtain rfl : c = c₀ := by simpa using hc
    have halt : altCarrier [c] c = c := by simp [altCarrier]
    have hrep : carriersFrom [c] c m = List.replicate m c := by
      induction m with
      | zero => rfl
      | succ m ih => rw [carriersFrom, halt, ih, List.replicate_succ]
    rw [hrep, List.count_replicate]
    change _ = if carrier = c then m else 0
    by_cases h : carrier = c
    · simp [h]
    · simp [h, Ne.symm h]
  · have h01 : c₀ ≠ c₁ := by
      rintro rfl
      simp at hn
    exact count_carriersFrom_of_two h01 rest c m carrier

/-! ## The positions of the trunks -/

abbrev Routes := OrdMap Bytes TerminationRoute

/-- The next trunk of a carrier is taken. -/
def take (routes : Routes) (carrier : Bytes) : Routes :=
  routes.modify carrier fun route => route.getNextTrunk.2

/-- The trunks that carriers give in turn, by their positions. -/
def picks : Routes → List Bytes → List (Bytes × ℕ)
  | _, [] => []
  | routes, c :: cs =>
    match routes.find? c with
    | none => []
    | some route => (c, route.rotation.first) :: picks (take routes c) cs

/-- The trunk at a position. -/
def trunkAt (routes : Routes) (p : Bytes × ℕ) : Option (Bytes × UInt32) :=
  (routes.find? p.1).bind fun route => route.trunks[p.2]?

theorem find?_take (routes : Routes) (c x : Bytes) :
    (take routes c).find? x =
      if x = c then (routes.find? x).map fun route => route.getNextTrunk.2 else routes.find? x := by
  rw [take, OrdMap.find?_modify]
  by_cases h : x = c
  · rw [if_pos h, if_pos h]
  · rw [if_neg h, if_neg h]

@[simp]
theorem keys_take (routes : Routes) (c : Bytes) : (take routes c).keys = routes.keys :=
  OrdMap.keys_modify routes c _

/-- Taking a trunk does not move any. -/
@[simp]
theorem trunkAt_take (routes : Routes) (c : Bytes) : trunkAt (take routes c) = trunkAt routes := by
  funext p
  unfold trunkAt
  rw [find?_take]
  split_ifs
  · cases routes.find? p.1 with
    | none => rfl
    | some route => rw [Option.map_some, Option.bind_some, Option.bind_some,
        TerminationRoute.trunks_getNextTrunk]
  · rfl

/-- The positions of one carrier are what its rotation gives out. -/
theorem filter_picks {routes : Routes} {cs : List Bytes} (hcs : ∀ c ∈ cs, c ∈ routes.keys) {c : Bytes}
    {route : TerminationRoute} (h : routes.find? c = some route) :
    (picks routes cs).filter (·.1 = c) = (route.rotation.given (cs.count c)).map (c, ·) := by
  induction cs generalizing routes route with
  | nil => rfl
  | cons c' cs ih =>
    obtain ⟨route', hroute'⟩ := OrdMap.exists_find?_of_mem (hcs c' List.mem_cons_self)
    have hcs' : ∀ x ∈ cs, x ∈ (take routes c').keys := fun x hx => by
      rw [keys_take]
      exact hcs x (List.mem_cons_of_mem c' hx)
    rw [picks, hroute']
    by_cases hc : c' = c
    · subst hc
      obtain rfl : route' = route := Option.some_inj.1 (hroute'.symm.trans h)
      have hnext : (take routes c').find? c' = some route'.getNextTrunk.2 := by
        rw [find?_take, if_pos rfl, h, Option.map_some]
      rw [List.filter_cons_of_pos (by simp), ih hcs' hnext, List.count_cons_self, Rotation.given,
        TerminationRoute.getNextTrunk_rotation, List.map_cons]
    · have hsame : (take routes c').find? c = some route := by
        rw [find?_take, if_neg (Ne.symm hc), h]
      rw [List.filter_cons_of_neg (by simpa using hc), ih hcs' hsame, List.count_cons_of_ne hc]

theorem mem_picks {routes : Routes} {cs : List Bytes} {p : Bytes × ℕ} (hp : p ∈ picks routes cs) :
    ∃ t, trunkAt routes p = some t := by
  induction cs generalizing routes with
  | nil => simp [picks] at hp
  | cons c cs ih =>
    cases h : routes.find? c with
    | none => simp [picks, h] at hp
    | some route =>
      rw [picks, h] at hp
      rcases List.mem_cons.1 hp with rfl | hp
      · refine ⟨route.getNextTrunk.1.trunk, ?_⟩
        rw [trunkAt, h, Option.bind_some, TerminationRoute.getNextTrunk_trunk]
      · obtain ⟨t, ht⟩ := ih hp
        rw [trunkAt_take] at ht
        exact ⟨t, ht⟩

/-- Positions are different if those of each carrier are. -/
theorem nodup_picks_iff {routes : Routes} {cs : List Bytes} (hcs : ∀ c ∈ cs, c ∈ routes.keys) :
    (picks routes cs).Nodup ↔
      ∀ e ∈ routes.entries, e.2.rotation.FreshFor (cs.count e.1) := by
  constructor
  · intro h e he
    have hfind : routes.find? e.1 = some e.2 := OrdMap.find?_eq_some_iff.2 he
    have hnodup := h.filter (·.1 = e.1)
    rw [filter_picks hcs hfind] at hnodup
    exact (Rotation.nodup_given_iff _ _).1 (List.Nodup.of_map _ hnodup)
  · intro h
    refine List.nodup_iff_count_le_one.2 fun p => ?_
    by_cases hp : p ∈ picks routes cs
    · obtain ⟨t, ht⟩ := mem_picks hp
      cases hfind : routes.find? p.1 with
      | none => simp [trunkAt, hfind] at ht
      | some route =>
        have hfresh := h (p.1, route) (OrdMap.find?_eq_some_iff.1 hfind)
        have hnodup : ((picks routes cs).filter (·.1 = p.1)).Nodup := by
          rw [filter_picks hcs hfind]
          exact ((Rotation.nodup_given_iff _ _).2 hfresh).map (Prod.mk_right_injective p.1)
        have hcount := List.count_filter (l := picks routes cs) (p := (·.1 = p.1)) (a := p) (by simp)
        rw [← hcount]
        exact List.nodup_iff_count_le_one.1 hnodup p
    · rw [List.count_eq_zero_of_not_mem hp]
      exact Nat.zero_le 1

/-! ## All trunks of a call -/

/-- The trunk of a route that is found. -/
theorem getTerminationRouteForCarrier_spec {cfg : SspConfig} {c : Bytes} (hc : c ∈ cfg.mapTerminationCarrierByName.keys) :
    ∃ route, cfg.mapTerminationCarrierByName.find? c = some route ∧
      cfg.getTerminationRouteForCarrier c =
        some (⟨route.getNextTrunk.1, c, route.chargeNumber⟩, cfg.takeTrunk c) := by
  obtain ⟨route, hroute⟩ := OrdMap.exists_find?_of_mem hc
  exact ⟨route, hroute, by rw [getTerminationRouteForCarrier, hroute]⟩

theorem currentCarrier_mem (cfg : SspConfig) :
    cfg.currentCarrier ∈ cfg.mapTerminationCarrierByName.keys :=
  cfg.hasRoute _ (List.get_mem _ _)

/-- The first route. -/
theorem getTerminationRoute_spec (cfg : SspConfig) :
    ∃ route cfg', cfg.mapTerminationCarrierByName.find? cfg.currentCarrier = some route ∧
      cfg.getTerminationRoute =
        some (⟨route.getNextTrunk.1, cfg.currentCarrier, route.chargeNumber⟩, cfg') ∧
      cfg'.mapTerminationCarrierByName =
        take cfg.mapTerminationCarrierByName cfg.currentCarrier := by
  obtain ⟨route, hroute, heq⟩ := getTerminationRouteForCarrier_spec cfg.currentCarrier_mem
  refine ⟨route, (cfg.takeTrunk cfg.currentCarrier).advanceCarrier, hroute, ?_, rfl⟩
  rw [getTerminationRoute, heq]
  rfl

/-- The route after a failed one. -/
theorem getTerminationRouteForAltCarrier_spec (cfg : SspConfig) (failedCarrier : Bytes) :
    ∃ route cfg', cfg.mapTerminationCarrierByName.find?
        (altCarrier cfg.mapTerminationCarrierByName.keys failedCarrier) = some route ∧
      cfg.getTerminationRouteForAltCarrier failedCarrier =
        some (⟨route.getNextTrunk.1, altCarrier cfg.mapTerminationCarrierByName.keys failedCarrier,
          route.chargeNumber⟩, cfg') ∧
      cfg'.mapTerminationCarrierByName = take cfg.mapTerminationCarrierByName
        (altCarrier cfg.mapTerminationCarrierByName.keys failedCarrier) := by
  unfold getTerminationRouteForAltCarrier altCarrier
  cases h : cfg.mapTerminationCarrierByName.keys.find? (· ≠ failedCarrier) with
  | some c =>
    obtain ⟨route, hroute, heq⟩ := getTerminationRouteForCarrier_spec (List.mem_of_find?_eq_some h)
    exact ⟨route, cfg.takeTrunk c, hroute, heq, rfl⟩
  | none =>
    -- There is no other carrier, so its turn is next.
    have hcur : cfg.currentCarrier = failedCarrier := by
      simpa using List.find?_eq_none.1 h _ cfg.currentCarrier_mem
    rw [Option.getD_none, ← hcur]
    exact cfg.getTerminationRoute_spec

/-- The trunks of a list of routes. -/
def trunksOf (routes : List Route) : List (Bytes × UInt32) := routes.map fun route => route.trunk.trunk

theorem retries_eq_picks (cfg : SspConfig) (failedCarrier : Bytes) (k : ℕ) :
    (trunksOf (cfg.retries failedCarrier k)).map some =
      (picks cfg.mapTerminationCarrierByName (carriersFrom cfg.mapTerminationCarrierByName.keys
        (altCarrier cfg.mapTerminationCarrierByName.keys failedCarrier) k)).map
        (trunkAt cfg.mapTerminationCarrierByName) := by
  induction k generalizing cfg failedCarrier with
  | zero => rfl
  | succ k ih =>
    obtain ⟨route, cfg', hroute, heq, hmap⟩ := cfg.getTerminationRouteForAltCarrier_spec failedCarrier
    set c := altCarrier cfg.mapTerminationCarrierByName.keys failedCarrier
    have hih := ih cfg' c
    rw [hmap, keys_take, trunkAt_take] at hih
    rw [retries, heq, carriersFrom, picks, hroute, trunksOf, List.map_cons, List.map_cons, List.map_cons,
      ← trunksOf, hih, trunkAt, hroute, Option.bind_some, TerminationRoute.getNextTrunk_trunk]

theorem tried_eq_picks (cfg : SspConfig) (m : ℕ) :
    (trunksOf (cfg.tried m)).map some =
      (picks cfg.mapTerminationCarrierByName
        (carriersFrom cfg.mapTerminationCarrierByName.keys cfg.currentCarrier m)).map
        (trunkAt cfg.mapTerminationCarrierByName) := by
  cases m with
  | zero => rfl
  | succ k =>
    obtain ⟨route, cfg', hroute, heq, hmap⟩ := cfg.getTerminationRoute_spec
    have hretries := retries_eq_picks cfg' cfg.currentCarrier k
    rw [hmap, keys_take, trunkAt_take] at hretries
    rw [tried, heq, carriersFrom, picks, hroute, trunksOf, List.map_cons, List.map_cons, List.map_cons,
      ← trunksOf, hretries, trunkAt, hroute, Option.bind_some, TerminationRoute.getNextTrunk_trunk]

/-- Where all trunks differ, a trunk has one position. -/
theorem trunkAt_injective {cfg : SspConfig} (h : cfg.allTrunks.Nodup) {p q : Bytes × ℕ}
    {t : Bytes × UInt32} (hp : trunkAt cfg.mapTerminationCarrierByName p = some t)
    (hq : trunkAt cfg.mapTerminationCarrierByName q = some t) : p = q := by
  obtain ⟨r, hr, hpt⟩ := Option.bind_eq_some_iff.1 hp
  obtain ⟨r', hr', hqt⟩ := Option.bind_eq_some_iff.1 hq
  have hmem := OrdMap.find?_eq_some_iff.1 hr
  have hmem' := OrdMap.find?_eq_some_iff.1 hr'
  obtain ⟨hnodup, hdisj⟩ := List.nodup_flatMap.1 h
  by_cases hc : p.1 = q.1
  · obtain rfl : r = r' := by
      rw [hc] at hr
      exact Option.some_inj.1 (hr.symm.trans hr')
    have hi := (List.getElem?_inj (List.getElem?_eq_some_iff.1 hpt).1 (hnodup _ hmem)).1
      (hpt.trans hqt.symm)
    exact Prod.ext hc hi
  · have hsymm : Std.Symm (Function.onFun List.Disjoint
        fun e : Bytes × TerminationRoute => e.2.trunks) := ⟨fun _ _ hd _ h₁ h₂ => hd h₂ h₁⟩
    have hdis := hdisj.forall hmem hmem' (fun heq => hc (Prod.mk.inj heq).1)
    exact absurd (List.mem_of_getElem? hqt) (hdis (List.mem_of_getElem? hpt))

theorem carriersFrom_mem {cfg : SspConfig} {c : Bytes}
    (hc : c ∈ cfg.mapTerminationCarrierByName.keys) (m : ℕ) :
    ∀ x ∈ carriersFrom cfg.mapTerminationCarrierByName.keys c m,
      x ∈ cfg.mapTerminationCarrierByName.keys := by
  induction m generalizing c with
  | zero => simp [carriersFrom]
  | succ m ih =>
    intro x hx
    rcases List.mem_cons.1 hx with rfl | hx
    · exact hc
    · refine ih ?_ x hx
      unfold altCarrier
      cases h : cfg.mapTerminationCarrierByName.keys.find? (· ≠ c) with
      | none => exact hc
      | some c' => exact List.mem_of_find?_eq_some h

/-- **Different trunks.** Where all trunks of the configuration differ, the trunks of
    the attempts of a call are different exactly if every carrier gives different ones
    as often as it is visited. -/
theorem tried_nodup_iff {cfg : SspConfig} (h : cfg.allTrunks.Nodup) (m : ℕ) :
    (trunksOf (cfg.tried m)).Nodup ↔ ∀ e ∈ cfg.mapTerminationCarrierByName.entries,
      e.2.rotation.FreshFor
        (visits cfg.mapTerminationCarrierByName.keys cfg.currentCarrier m e.1) := by
  have hcs := carriersFrom_mem cfg.currentCarrier_mem m
  rw [← List.nodup_map_iff (Option.some_injective _), tried_eq_picks]
  have hinj : ∀ p ∈ picks cfg.mapTerminationCarrierByName
        (carriersFrom cfg.mapTerminationCarrierByName.keys cfg.currentCarrier m),
      ∀ q ∈ picks cfg.mapTerminationCarrierByName
        (carriersFrom cfg.mapTerminationCarrierByName.keys cfg.currentCarrier m),
      trunkAt cfg.mapTerminationCarrierByName p = trunkAt cfg.mapTerminationCarrierByName q → p = q := by
    intro p hp q hq heq
    obtain ⟨t, ht⟩ := mem_picks hp
    exact trunkAt_injective h ht (heq ▸ ht)
  have hmap : ((picks cfg.mapTerminationCarrierByName
      (carriersFrom cfg.mapTerminationCarrierByName.keys cfg.currentCarrier m)).map
        (trunkAt cfg.mapTerminationCarrierByName)).Nodup ↔ (picks cfg.mapTerminationCarrierByName
      (carriersFrom cfg.mapTerminationCarrierByName.keys cfg.currentCarrier m)).Nodup :=
    ⟨List.Nodup.of_map _, fun hn => hn.map_on hinj⟩
  rw [hmap, nodup_picks_iff hcs]
  simp only [count_carriersFrom cfg.mapTerminationCarrierByName.nodup_keys cfg.currentCarrier_mem]

/-- A carrier with one trunk. -/
def sampleCarrier (name : String) : CarrierElement :=
  { name := name.toList, outbound := some { addresses := [{ address := name.toList }], chargeNumber := ['9'] } }

/-- Three carriers, with a trunk each. -/
def threeCarriers : List CarrierElement := [sampleCarrier "a", sampleCarrier "b", sampleCarrier "c"]

/-- Two attempts go to two of them. -/
theorem tried_nodup_threeCarriers :
    ∃ cfg, load threeCarriers 3 [] = some cfg ∧ (trunksOf (cfg.tried 2)).Nodup :=
  ⟨_, rfl, (tried_nodup_iff (by decide) 2).2 (by decide)⟩

/-- A third attempt goes back to the first of them, and the third one is never tried. -/
theorem not_tried_nodup_threeCarriers :
    ¬∀ (es : List CarrierElement) (n : UInt32) (carrier : Bytes) (cfg : SspConfig) (m : ℕ),
      load es n carrier = some cfg → cfg.allTrunks.Nodup → m ≤ cfg.getCountOfOutboundTrunks →
        (trunksOf (cfg.tried m)).Nodup := by
  intro h
  have hnodup := h threeCarriers 3 [] _ 3 rfl (by decide) (by decide)
  exact absurd hnodup (by decide)

end SspConfig

end Ssp
