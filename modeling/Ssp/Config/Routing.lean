import Mathlib.Data.Char
import Mathlib.Data.List.Lex
import Ssp.Lib.CString
import Ssp.Lib.OrdMap
import Ssp.Lib.Rotation

/-!
# Outbound routes

Calls to the outside go to the trunks of carriers. A carrier's trunks are used in
turn, each as many times in a row as its `qty` says (`TerminationRoute`); the carriers
are used in turn too, each as often as its own `qty` (`getTerminationRoute`). When an
attempt fails, the first carrier other than the one that failed is tried
(`getTerminationRouteForAltCarrier`).

A `TerminationRoute` is a weighted rotation (`getNextTrunk_rotation`).
-/

namespace Ssp

/-- `CarrierAddressSpace_t`: an address of a carrier. -/
structure CarrierAddressSpace where
  carrier : Bytes
  address : Bytes
  port : UInt32 := 5060
  netmask : Bytes := "255.255.255.255".toList
  qty : ℕ := 1
  selectCount : ℕ := 0
  deriving DecidableEq

namespace CarrierAddressSpace

def setSelectCount (c : CarrierAddressSpace) (n : ℕ) : CarrierAddressSpace :=
  { c with selectCount := n }

/-- `CarrierAddressSpace_t::haveAdvancedToEnd`. -/
def haveAdvancedToEnd (c : CarrierAddressSpace) : CarrierAddressSpace × Bool :=
  if c.selectCount = c.qty then (c.setSelectCount 0, true)
  else (c.setSelectCount (c.selectCount + 1), false)

@[simp]
theorem setSelectCount_self (c : CarrierAddressSpace) : c.setSelectCount c.selectCount = c := rfl

@[simp]
theorem setSelectCount_setSelectCount (c : CarrierAddressSpace) (n k : ℕ) :
    (c.setSelectCount n).setSelectCount k = c.setSelectCount k := rfl

/-- The first selection, which a trunk that may be selected `0` times gets as well. -/
theorem haveAdvancedToEnd_zero (c : CarrierAddressSpace) :
    (c.setSelectCount 0).haveAdvancedToEnd.1 = c.setSelectCount (min 1 c.qty) := by
  unfold haveAdvancedToEnd
  by_cases h : c.qty = 0
  · simp [setSelectCount, h]
  · have h' : min 1 c.qty = 1 := by omega
    rw [if_neg (fun heq => h heq.symm), h']
    rfl

/-- The address and port of a trunk. -/
def trunk (c : CarrierAddressSpace) : Bytes × UInt32 := (c.address, c.port)

/-- The text of a trunk in a route: the port is left out if it is the default one. -/
def text (c : CarrierAddressSpace) : Bytes :=
  if c.port = 5060 then c.address else c.address ++ ':' :: (toString c.port.toNat).toList

end CarrierAddressSpace

/-- `TerminationRoute_t`: the trunks of a carrier. Only the current one has been
    selected, and no more often than it may. -/
structure TerminationRoute where
  vecTrunks : List CarrierAddressSpace
  currentTrunk : ℕ := 0
  chargeNumber : Bytes := []
  current_lt : currentTrunk < vecTrunks.length
  selected : ∀ i c, vecTrunks[i]? = some c →
    (i = currentTrunk → c.selectCount ≤ c.qty) ∧ (i ≠ currentTrunk → c.selectCount = 0)

namespace TerminationRoute

/-- The current trunk. -/
def current (r : TerminationRoute) : CarrierAddressSpace :=
  r.vecTrunks.get ⟨r.currentTrunk, r.current_lt⟩

theorem getElem?_current (r : TerminationRoute) : r.vecTrunks[r.currentTrunk]? = some r.current :=
  List.getElem?_eq_getElem r.current_lt

/-- `TerminationRoute_t::advanceTrunk`. -/
def advanceTrunk (r : TerminationRoute) : ℕ :=
  if r.currentTrunk + 1 ≥ r.vecTrunks.length then 0 else r.currentTrunk + 1

/-- The position of the trunk that `getNextTrunk` chooses. -/
def nextTrunk (r : TerminationRoute) : ℕ :=
  if r.current.haveAdvancedToEnd.2 then r.advanceTrunk else r.currentTrunk

/-- The trunks after `getNextTrunk` has counted. -/
def countedTrunks (r : TerminationRoute) : List CarrierAddressSpace :=
  let v := r.vecTrunks.set r.currentTrunk r.current.haveAdvancedToEnd.1
  if r.current.haveAdvancedToEnd.2 then
    v.modify r.advanceTrunk fun d => d.haveAdvancedToEnd.1
  else v

theorem advanceTrunk_lt (r : TerminationRoute) : r.advanceTrunk < r.vecTrunks.length := by
  unfold advanceTrunk
  have := r.current_lt
  split_ifs <;> omega

theorem nextTrunk_lt (r : TerminationRoute) : r.nextTrunk < r.countedTrunks.length := by
  have h₁ := r.advanceTrunk_lt
  have h₂ := r.current_lt
  unfold nextTrunk countedTrunks
  split_ifs <;> simpa

/-- Only the current trunk counts: when its count is set to `0`, all of them are. -/
theorem getElem?_set_zero (r : TerminationRoute) (i : ℕ) :
    (r.vecTrunks.set r.currentTrunk (r.current.setSelectCount 0))[i]? =
      r.vecTrunks[i]?.map (·.setSelectCount 0) := by
  by_cases hi : i = r.currentTrunk
  · rw [hi, List.getElem?_set_self r.current_lt, r.getElem?_current, Option.map_some]
  · rw [List.getElem?_set_ne (Ne.symm hi)]
    cases hc : r.vecTrunks[i]? with
    | none => rfl
    | some c =>
      have h0 := (r.selected i c hc).2 hi
      rw [Option.map_some, ← h0, c.setSelectCount_self]

/-- The counts after `getNextTrunk`: only that of the chosen trunk is not `0`. -/
theorem getElem?_countedTrunks (r : TerminationRoute) (i : ℕ) :
    r.countedTrunks[i]? = r.vecTrunks[i]?.map fun c => c.setSelectCount
      (if i = r.nextTrunk then
        (if r.current.selectCount = r.current.qty then min 1 c.qty else c.selectCount + 1)
      else 0) := by
  by_cases h : r.current.selectCount = r.current.qty
  · -- The current trunk has had its turn.
    have hend : r.current.haveAdvancedToEnd = (r.current.setSelectCount 0, true) := if_pos h
    unfold countedTrunks nextTrunk
    rw [hend]
    simp only [if_true, List.getElem?_modify, getElem?_set_zero, h]
    cases r.vecTrunks[i]? with
    | none => rfl
    | some c =>
      by_cases hi : i = r.advanceTrunk
      · simp [hi, c.haveAdvancedToEnd_zero]
      · simp [hi, Ne.symm hi]
  · have hend : r.current.haveAdvancedToEnd =
        (r.current.setSelectCount (r.current.selectCount + 1), false) := if_neg h
    unfold countedTrunks nextTrunk
    rw [hend]
    simp only [h, if_false, Bool.false_eq_true]
    by_cases hi : i = r.currentTrunk
    · rw [hi, List.getElem?_set_self r.current_lt, r.getElem?_current, Option.map_some, if_pos rfl]
    · rw [List.getElem?_set_ne (Ne.symm hi)]
      cases hc : r.vecTrunks[i]? with
      | none => rfl
      | some c =>
        have h0 := (r.selected i c hc).2 hi
        rw [Option.map_some, if_neg hi, ← h0, c.setSelectCount_self]

/-- After `getNextTrunk`, the chosen trunk is the only one that was selected. -/
theorem selected_countedTrunks (r : TerminationRoute) (i : ℕ) (c : CarrierAddressSpace)
    (hc : r.countedTrunks[i]? = some c) :
    (i = r.nextTrunk → c.selectCount ≤ c.qty) ∧ (i ≠ r.nextTrunk → c.selectCount = 0) := by
  rw [getElem?_countedTrunks] at hc
  cases hd : r.vecTrunks[i]? with
  | none => simp [hd] at hc
  | some d =>
    rw [hd, Option.map_some, Option.some_inj] at hc
    subst hc
    refine ⟨fun hi => ?_, fun hi => if_neg hi⟩
    simp only [CarrierAddressSpace.setSelectCount, hi, if_true]
    split_ifs with h
    · exact min_le_right _ _
    · -- The current trunk goes on.
      have hcur : i = r.currentTrunk := by
        rw [hi, nextTrunk, CarrierAddressSpace.haveAdvancedToEnd, if_neg h]
        rfl
      subst hcur
      rw [r.getElem?_current, Option.some_inj] at hd
      subst hd
      exact Nat.lt_of_le_of_ne ((r.selected _ _ r.getElem?_current).1 rfl) h

/-- `TerminationRoute_t::getNextTrunk`: the chosen trunk. The charge number it returns
    as well is that of the route. -/
def getNextTrunk (r : TerminationRoute) : CarrierAddressSpace × TerminationRoute :=
  (r.countedTrunks.get ⟨r.nextTrunk, r.nextTrunk_lt⟩,
    { r with vecTrunks := r.countedTrunks, currentTrunk := r.nextTrunk
             current_lt := r.nextTrunk_lt, selected := r.selected_countedTrunks })

/-- `TerminationRoute_t::getCountOfTrunks`. -/
def getCountOfTrunks (r : TerminationRoute) : ℕ := r.vecTrunks.length

/-! ### As a rotation -/

/-- The route as a rotation of its trunks. -/
def rotation (r : TerminationRoute) : Rotation where
  size := r.vecTrunks.length
  weight i := (r.vecTrunks[i]?.map (·.qty)).getD 0
  pos := r.currentTrunk
  used := r.current.selectCount
  pos_lt := r.current_lt
  used_le := by
    rw [r.getElem?_current]
    exact (r.selected _ _ r.getElem?_current).1 rfl

/-- The trunks, without their counts. -/
def trunks (r : TerminationRoute) : List (Bytes × UInt32) := r.vecTrunks.map (·.trunk)

theorem spent_rotation_iff (r : TerminationRoute) :
    r.rotation.Spent ↔ r.current.selectCount = r.current.qty := by
  change _ = (r.vecTrunks[r.currentTrunk]?.map (·.qty)).getD 0 ↔ _
  rw [r.getElem?_current]
  rfl

theorem first_rotation (r : TerminationRoute) : r.rotation.first = r.nextTrunk := by
  unfold Rotation.first nextTrunk CarrierAddressSpace.haveAdvancedToEnd
  have hlt := r.current_lt
  by_cases h : r.current.selectCount = r.current.qty
  -- Both go on to the next trunk, from the last one to the first.
  · rw [if_pos (r.spent_rotation_iff.2 h), if_pos h, if_pos rfl]
    change (r.currentTrunk + 1) % r.vecTrunks.length = r.advanceTrunk
    unfold advanceTrunk
    split_ifs with hge
    · rw [show r.currentTrunk + 1 = r.vecTrunks.length by omega, Nat.mod_self]
    · exact Nat.mod_eq_of_lt (by omega)
  · rw [if_neg (r.spent_rotation_iff.not.2 h), if_neg h]
    rfl

@[simp]
theorem length_countedTrunks (r : TerminationRoute) :
    r.countedTrunks.length = r.vecTrunks.length := by
  unfold countedTrunks
  split_ifs <;> simp

/-- Counting changes nothing else of the trunks. -/
theorem map_countedTrunks {β : Type} (r : TerminationRoute) (f : CarrierAddressSpace → β)
    (hf : ∀ c n, f (c.setSelectCount n) = f c) : r.countedTrunks.map f = r.vecTrunks.map f := by
  refine List.ext_getElem? fun i => ?_
  rw [List.getElem?_map, List.getElem?_map, getElem?_countedTrunks, Option.map_map]
  exact congrArg (Option.map · _) (funext fun c => hf c _)

theorem trunks_getNextTrunk (r : TerminationRoute) : r.getNextTrunk.2.trunks = r.trunks :=
  r.map_countedTrunks (·.trunk) fun _ _ => rfl

/-- The trunk that is chosen is the one that the rotation gives out. -/
theorem getNextTrunk_trunk (r : TerminationRoute) :
    r.trunks[r.rotation.first]? = some r.getNextTrunk.1.trunk := by
  rw [first_rotation, ← trunks_getNextTrunk]
  change (r.countedTrunks.map _)[r.nextTrunk]? = _
  rw [List.getElem?_map, List.getElem?_eq_getElem r.nextTrunk_lt]
  rfl

/-- **A route rotates its trunks.** -/
theorem getNextTrunk_rotation (r : TerminationRoute) :
    r.getNextTrunk.2.rotation = r.rotation.next := by
  have hcounted := r.getElem?_countedTrunks
  ext i
  · rw [Rotation.next_size]
    exact r.length_countedTrunks
  · rw [Rotation.next_weight]
    change (r.countedTrunks[i]?.map (·.qty)).getD 0 = (r.vecTrunks[i]?.map (·.qty)).getD 0
    rw [hcounted, Option.map_map]
    rfl
  · rw [Rotation.next_pos, first_rotation]
    rfl
  · -- The count of the chosen trunk.
    obtain ⟨c, hc⟩ : ∃ c, r.vecTrunks[r.nextTrunk]? = some c :=
      ⟨_, List.getElem?_eq_getElem (r.length_countedTrunks ▸ r.nextTrunk_lt)⟩
    have hcur : r.getNextTrunk.2.current = c.setSelectCount
        (if r.current.selectCount = r.current.qty then min 1 c.qty else c.selectCount + 1) := by
      have := hcounted r.nextTrunk
      rw [hc, Option.map_some, if_pos rfl] at this
      exact Option.some_inj.1 (r.getNextTrunk.2.getElem?_current.symm.trans this)
    have hweight : r.rotation.weight r.nextTrunk = c.qty := by
      change (r.vecTrunks[r.nextTrunk]?.map (·.qty)).getD 0 = c.qty
      rw [hc]
      rfl
    rw [Rotation.next_used, first_rotation, hweight]
    change r.getNextTrunk.2.current.selectCount = _
    rw [hcur]
    by_cases h : r.current.selectCount = r.current.qty
    -- A new turn: the count starts again.
    · rw [if_pos h, if_pos (r.spent_rotation_iff.2 h)]
      rfl
    · rw [if_neg h, if_neg (r.spent_rotation_iff.not.2 h)]
      -- The turn goes on, and the count of the current trunk goes up.
      have hnext : r.nextTrunk = r.currentTrunk := by
        rw [nextTrunk, CarrierAddressSpace.haveAdvancedToEnd, if_neg h]
        rfl
      rw [hnext, r.getElem?_current, Option.some_inj] at hc
      rw [← hc]
      rfl

end TerminationRoute

/-! ## The configuration -/

/-- What the configuration says about outbound calls. The carriers of
    `vecTerminationCarrier` have routes. -/
structure SspConfig where
  mapTerminationCarrierByName : OrdMap Bytes TerminationRoute
  vecTerminationCarrier : List Bytes
  nCurrentTerminationCarrier : ℕ := 0
  nMaxTerminationAttempts : UInt32 := 1
  strAnonymousCallRoutingCarrier : Bytes := []
  current_lt : nCurrentTerminationCarrier < vecTerminationCarrier.length
  hasRoute : ∀ carrier ∈ vecTerminationCarrier, carrier ∈ mapTerminationCarrierByName.keys

/-- A route: the trunk, its carrier and charge number. -/
structure Route where
  trunk : CarrierAddressSpace
  carrier : Bytes
  chargeNumber : Bytes

namespace SspConfig

/-- The next trunk of a carrier. -/
def takeTrunk (cfg : SspConfig) (carrier : Bytes) : SspConfig :=
  { cfg with
    mapTerminationCarrierByName :=
      cfg.mapTerminationCarrierByName.modify carrier fun route => route.getNextTrunk.2
    hasRoute := by simpa using cfg.hasRoute }

/-- `getTerminationRouteForCarrier`. -/
def getTerminationRouteForCarrier (cfg : SspConfig) (carrier : Bytes) : Option (Route × SspConfig) :=
  match cfg.mapTerminationCarrierByName.find? carrier with
  | none => none
  | some route =>
    some (⟨route.getNextTrunk.1, carrier, route.chargeNumber⟩, cfg.takeTrunk carrier)

/-- The carrier whose turn it is. -/
def currentCarrier (cfg : SspConfig) : Bytes :=
  cfg.vecTerminationCarrier.get ⟨cfg.nCurrentTerminationCarrier, cfg.current_lt⟩

/-- The next carrier's turn. -/
def advanceCarrier (cfg : SspConfig) : SspConfig :=
  { cfg with
    nCurrentTerminationCarrier :=
      if cfg.nCurrentTerminationCarrier + 1 ≥ cfg.vecTerminationCarrier.length then 0
      else cfg.nCurrentTerminationCarrier + 1
    current_lt := by
      have := cfg.current_lt
      split_ifs <;> omega }

/-- `getTerminationRoute`: `none` where the source has an assertion that the carrier
    has a route. -/
def getTerminationRoute (cfg : SspConfig) : Option (Route × SspConfig) :=
  (cfg.getTerminationRouteForCarrier cfg.currentCarrier).map fun (route, cfg) =>
    (route, cfg.advanceCarrier)

/-- `getTerminationRouteForAltCarrier`. -/
def getTerminationRouteForAltCarrier (cfg : SspConfig) (failedCarrier : Bytes) :
    Option (Route × SspConfig) :=
  match cfg.mapTerminationCarrierByName.keys.find? (· ≠ failedCarrier) with
  | some carrier => cfg.getTerminationRouteForCarrier carrier
  | none => cfg.getTerminationRoute

/-- `getCountOfOutboundTrunks`. -/
def getCountOfOutboundTrunks (cfg : SspConfig) : ℕ :=
  (cfg.mapTerminationCarrierByName.entries.map fun e => e.2.getCountOfTrunks).sum

end SspConfig

/-! ## Loading -/

/-- An `address` element of an `outbound` element. -/
structure OutboundAddress where
  address : Bytes
  port : UInt32 := 5060
  qty : ℕ := 1
  active : Bool := true

/-- The `outbound` element of a carrier. -/
structure Outbound where
  addresses : List OutboundAddress
  qty : ℕ := 1
  chargeNumber : Bytes := []
  active : Bool := true

/-- A `carrier` element. -/
structure CarrierElement where
  name : Bytes
  outbound : Option Outbound := none

/-- The trunks of the active addresses. -/
def CarrierElement.trunks (name : Bytes) (o : Outbound) : List CarrierAddressSpace :=
  (o.addresses.filter (·.active)).map fun a =>
    { carrier := name, address := a.address, port := a.port, qty := a.qty }

/-- A new route: no trunk was selected yet. -/
def TerminationRoute.new (name : Bytes) (o : Outbound) (h : 0 < (CarrierElement.trunks name o).length) :
    TerminationRoute where
  vecTrunks := CarrierElement.trunks name o
  chargeNumber := o.chargeNumber
  current_lt := h
  selected i c hc := by
    have hmem := List.mem_of_getElem? hc
    obtain ⟨a, -, rfl⟩ := List.mem_map.1 hmem
    exact ⟨fun _ => Nat.zero_le _, fun _ => rfl⟩

namespace SspConfig

/-- The routes, and the carriers as often as they take their turn. -/
abbrev Carriers := OrdMap Bytes TerminationRoute × List Bytes

/-- The loop of the loader over the `carrier` elements. -/
def addCarrier (acc : Carriers) (e : CarrierElement) : Carriers :=
  match e.outbound with
  | none => acc
  | some o =>
    if o.active then
      if h : 0 < (CarrierElement.trunks e.name o).length then
        (acc.1.insert e.name (.new e.name o h), acc.2 ++ List.replicate o.qty e.name)
      else acc
    else acc

theorem addCarrier_hasRoute {acc : Carriers} (h : ∀ carrier ∈ acc.2, carrier ∈ acc.1.keys)
    (e : CarrierElement) : ∀ carrier ∈ (addCarrier acc e).2, carrier ∈ (addCarrier acc e).1.keys := by
  unfold addCarrier
  split
  · exact h
  · split_ifs
    · intro carrier hmem
      rw [OrdMap.mem_keys_insert]
      rcases List.mem_append.1 hmem with hmem | hmem
      · exact .inr (h carrier hmem)
      · exact .inl (List.eq_of_mem_replicate hmem)
    · exact h
    · exact h

/-- All carriers of the configuration file. -/
def carriers (es : List CarrierElement) : Carriers := es.foldl addCarrier (OrdMap.empty, [])

theorem foldl_addCarrier_hasRoute (es : List CarrierElement) {acc : Carriers}
    (h : ∀ carrier ∈ acc.2, carrier ∈ acc.1.keys) :
    ∀ carrier ∈ (es.foldl addCarrier acc).2, carrier ∈ (es.foldl addCarrier acc).1.keys := by
  induction es generalizing acc with
  | nil => exact h
  | cons e es ih => exact ih (addCarrier_hasRoute h e)

theorem carriers_hasRoute (es : List CarrierElement) :
    ∀ carrier ∈ (carriers es).2, carrier ∈ (carriers es).1.keys :=
  foldl_addCarrier_hasRoute es (by simp)

/-- The outbound part of the configuration, where it is valid: every carrier has a
    name, and there is at least one to send calls to. -/
def load (es : List CarrierElement) (nMaxTerminationAttempts : UInt32)
    (strAnonymousCallRoutingCarrier : Bytes) : Option SspConfig :=
  if es.any (·.name.isEmpty) then none
  else if h : 0 < (carriers es).2.length then
    some { mapTerminationCarrierByName := (carriers es).1
           vecTerminationCarrier := (carriers es).2
           nMaxTerminationAttempts := nMaxTerminationAttempts
           strAnonymousCallRoutingCarrier := strAnonymousCallRoutingCarrier
           current_lt := h
           hasRoute := carriers_hasRoute es }
  else none

end SspConfig

end Ssp
