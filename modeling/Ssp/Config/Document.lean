import Ssp.Config.Routing
import Ssp.Lib.Decimal
import Ssp.Lib.KeyedSet
import Ssp.Lib.Ptree
import Ssp.Lib.Traverse
import Ssp.Stateless.Agent

/-!
# The configuration document

`SspConfig::Impl` reads an XML document: some settings, the servers and groups of them from
the children of `ssp.inbound`, and the lists of dialled numbers and the carriers from the
children of `ssp`. It is valid if all children could be read, and there is a carrier to send
calls to, and a server.

The outbound part of a valid configuration is the one of its `carrier` elements
(`load_ok`).
-/

namespace Ssp

/-- Why a configuration is not valid. -/
inductive LoadError
  /-- The `ptree_bad_path` of a child that must be there. -/
  | badPath (path : String)
  | duplicateAppserver
  | unnamedAppserverGroup
  | unknownAppserver (name : Bytes)
  | duplicateAppserverGroup
  | unnamedDnisList
  | duplicateDnisList
  | unnamedCarrier
  | duplicateAddress
  | noTerminationCarrier
  | noAppserver

/-- What is written to `cerr`, if anything. -/
def LoadError.message : LoadError → Option Bytes
  | badPath path => some ("Error reading configuration file: No such node (".toList ++ path.toList ++ [')'])
  | duplicateAppserver =>
    some "Multiple appserver elements have duplicate name attribute values or ip addresses".toList
  | unnamedAppserverGroup => none
  | unknownAppserver name => some ("Unable to find appserver element with name: ".toList ++ name)
  | duplicateAppserverGroup => some "Multiple appserver-group elements have duplicate name attribute values".toList
  | unnamedDnisList => none
  | duplicateDnisList => some "Multiple dnis-list elements have duplicate name attribute values".toList
  | unnamedCarrier => none
  | duplicateAddress => some "Multiple carrier elements have duplicate address attribute values".toList
  | noTerminationCarrier =>
    some "Must have at least one termination carrier specified in the configuration file ".toList
  | noAppserver => some "Must have at least one appserver defined in the configuration file".toList

/-- `get_child`. -/
def Ptree.getChild (t : Ptree) (path : String) : Except LoadError Ptree :=
  (t.getChild? path).elim (.error (.badPath path)) .ok

/-- `get<string>`, without a default. -/
def Ptree.get (t : Ptree) (path : String) : Except LoadError Bytes :=
  (t.get? path).elim (.error (.badPath path)) .ok

/-- `getXmlAttribute`: an empty attribute is like none. -/
def Ptree.getXmlAttribute (v : Ptree) (attrName : String) : Option Bytes :=
  (v.get? ("<xmlattr>." ++ attrName)).filter fun value => !value.isEmpty

/-- `severity_levels`. -/
inductive SeverityLevel
  | notice
  | error
  | warning
  | info
  | debug
  deriving DecidableEq

/-- The settings that are read one by one. -/
structure Settings where
  statsPort : UInt32
  statsAddress : Bytes
  syslogAddress : Bytes
  sysLogPort : UInt32
  syslogFacility : Bytes
  nSofiaLogLevel : UInt32
  loglevel : SeverityLevel
  cdrUser : Bytes
  cdrPassword : Bytes
  cdrHost : Bytes
  cdrPort : Bytes
  cdrSchema : Bytes
  sipUrl : Bytes
  agentMode : AgentMode
  bIsActive : Bool
  nOriginationSessionTimer : UInt64
  nMaxRoundRobins : UInt32
  nFSTimerMsecs : UInt64

def Settings.loglevelOf (loglevel : Bytes) : SeverityLevel :=
  if loglevel = "notice".toList then .notice
  else if loglevel = "error".toList then .error
  else if loglevel = "warning".toList then .warning
  else if loglevel = "info".toList then .info
  else if loglevel = "debug".toList then .debug
  else .info

def Settings.read (t : Ptree) : Settings where
  -- The port of the constructor stays where there is no `stats` element.
  statsPort := if (t.getChild? "ssp.stats").isSome then t.getUInt32 "ssp.stats.<xmlattr>.port" 8022 else 0
  statsAddress := (t.get? "ssp.stats").getD []
  syslogAddress := t.getString "ssp.logging.syslog.address" "localhost"
  -- The address is read for the port.
  sysLogPort := t.getUInt32 "ssp.logging.syslog.address" 516
  syslogFacility := t.getString "ssp.logging.syslog.facility" "local7"
  nSofiaLogLevel := t.getUInt32 "ssp.logging.sofia-loglevel" 1
  loglevel := loglevelOf (t.getString "ssp.logging.loglevel" "info")
  cdrUser := t.getString "ssp.cdr.user" ""
  cdrPassword := t.getString "ssp.cdr.password" ""
  cdrHost := t.getString "ssp.cdr.host" ""
  cdrPort := t.getString "ssp.cdr.port" "3306"
  cdrSchema := t.getString "ssp.cdr.schema" "ssp"
  sipUrl := t.getString "ssp.sip.contact" "sip:*"
  agentMode :=
    if t.getString "ssp.sip.agent-mode" "stateful" = "stateful".toList then .stateful else .stateless
  bIsActive := t.getString "ssp.sip.<xmlattr>.status" "active" ≠ "inactive".toList
  nOriginationSessionTimer := t.getUInt64 "ssp.inbound.session-timer" 0
  nMaxRoundRobins := t.getUInt32 "ssp.inbound.max-round-robins" 0
  nFSTimerMsecs := t.getUInt64 "ssp.inbound.freeswitch-health-check-interval" 5000

/-! ## The elements -/

/-- `Appserver_t`. -/
structure Appserver where
  address : Bytes
  eventSocketPort : UInt32 := 8021
  deriving DecidableEq

/-- An `appserver` element: its name, which is its text if it has none, and the server. -/
def Appserver.read (v : Ptree) : Bytes × Appserver :=
  ((v.getXmlAttribute "name").getD v.data,
    { address := v.data, eventSocketPort := v.getInt "event-socket-port" 8021 })

/-- `Dnis_t`: `count` dialled numbers from one on. -/
structure Dnis where
  npa : UInt32 := 0
  nxx : UInt32 := 0
  xxxx : UInt32 := 0
  count : UInt32 := 1
  deriving DecidableEq

namespace Dnis

/-- What `operator==` compares. -/
def start (dnis : Dnis) : UInt32 × UInt32 × UInt32 := (dnis.npa, dnis.nxx, dnis.xxxx)

/-- `Dnis_t::init`: the last four characters, and three before each time, as far as there are
    any. -/
def ofText (dnis : Bytes) : Dnis :=
  let len := dnis.length
  { xxxx := if 4 ≤ len then atoi (dnis.drop (len - 4)) else 0
    nxx := if 7 ≤ len then atoi ((dnis.drop (len - 7)).take 3) else 0
    npa := if 10 ≤ len then atoi ((dnis.drop (len - 10)).take 3) else 0 }

/-- A block: only the last four digits of its last number count. -/
def ofBlock (firstDnis lastDnis : Bytes) : Dnis :=
  let first := ofText firstDnis
  let last := ofText lastDnis
  if last.xxxx > first.xxxx then { first with count := last.xxxx - first.xxxx + 1 } else first

/-- `Dnis_t::matchesOrContains`. -/
def matchesOrContains (d other : Dnis) : Bool :=
  d.npa = other.npa ∧ d.nxx = other.nxx ∧
    (d.xxxx = other.xxxx ∨ (d.xxxx < other.xxxx ∧ d.xxxx + d.count > other.xxxx))

end Dnis

/-- A child of a `dnis-list`. -/
def addDnis (setDnis : KeyedSet Dnis.start) (child : Bytes × Ptree) : Except LoadError (KeyedSet Dnis.start) :=
  if child.1 = "dnis".toList then .ok (setDnis.insert (.ofText child.2.data))
  else if child.1 = "dnis-block".toList then do
    let first ← child.2.get "first"
    let last ← child.2.get "last"
    .ok (setDnis.insert (.ofBlock first last))
  else .ok setDnis

/-- An `address` of an `outbound` element. -/
def OutboundAddress.read (v : Ptree) : OutboundAddress where
  address := v.data
  port := v.getInt "<xmlattr>.port" 5060
  qty := (v.getUInt32 "<xmlattr>.qty" 1).toNat
  active := v.getString "<xmlattr>.status" "active" ≠ "inactive".toList

/-- The first `outbound` element of a carrier. -/
def CarrierElement.read (carrierName : Bytes) (v : Ptree) : CarrierElement where
  name := carrierName
  outbound := (v.getChild? "outbound").map fun outbound =>
    { addresses := (outbound.childrenOf "address").map .read
      qty := (v.getUInt32 "outbound.<xmlattr>.qty" 1).toNat
      chargeNumber := v.getString "outbound.<xmlattr>.charge-number" ""
      active := v.getString "outbound.<xmlattr>.status" "active" = "active".toList }

/-- An `address` of an `inbound` element. -/
def CarrierAddressSpace.read (carrierName : Bytes) (v : Ptree) : CarrierAddressSpace where
  carrier := carrierName
  address := v.data
  port := v.getInt "<xmlattr>.port" 5060
  netmask := v.getString "<xmlattr>.netmask" "255.255.255.255"

/-! ## The tables -/

/-- `CustomerDnisMap_t`. -/
abbrev CustomerDnisMap := KeyedSet (Prod.fst : Bytes × KeyedSet Dnis.start → Bytes)

/-- What the loops of the loader fill. The carriers that take turns have routes. -/
structure Tables where
  mapAppserver : KeyedSet (Prod.fst : Bytes × Appserver → Bytes) := {}
  mapAppserverGroup : KeyedSet (Prod.fst : Bytes × KeyedSet (id : Appserver → Appserver) → Bytes) := {}
  mapCustomerDnis : CustomerDnisMap := {}
  mapInboundCarrier : KeyedSet (Prod.fst : Bytes × CarrierAddressSpace → Bytes) := {}
  carriers : SspConfig.Carriers := (OrdMap.empty, [])
  hasRoute : ∀ carrier ∈ carriers.2, carrier ∈ carriers.1.keys := by simp

namespace Tables

/-- An `appserver` element. -/
def addAppserver (tables : Tables) (v : Ptree) : Except LoadError Tables :=
  match tables.mapAppserver.insertNew (Appserver.read v) with
  | none => .error .duplicateAppserver
  | some mapAppserver => .ok { tables with mapAppserver := mapAppserver }

/-- An `appserver` element in a group: the name of a server. -/
def addToGroup (tables : Tables) (setAppserver : KeyedSet (id : Appserver → Appserver)) (v : Ptree) :
    Except LoadError (KeyedSet (id : Appserver → Appserver)) :=
  match tables.mapAppserver.find? v.data with
  | none => .error (.unknownAppserver v.data)
  | some (_, appserver) => .ok (setAppserver.insert appserver)

/-- An `appserver-group` element. -/
def addAppserverGroup (tables : Tables) (v : Ptree) : Except LoadError Tables :=
  match v.getXmlAttribute "name" with
  | none => .error .unnamedAppserverGroup
  | some name => do
    let setAppserver ← (v.childrenOf "appserver").foldlM tables.addToGroup {}
    match tables.mapAppserverGroup.insertNew (name, setAppserver) with
    | none => .error .duplicateAppserverGroup
    | some mapAppserverGroup => .ok { tables with mapAppserverGroup := mapAppserverGroup }

/-- A child of `ssp.inbound`. -/
def addInbound (tables : Tables) (child : Bytes × Ptree) : Except LoadError Tables :=
  if child.1 = "appserver".toList then tables.addAppserver child.2
  else if child.1 = "appserver-group".toList then tables.addAppserverGroup child.2
  else .ok tables

/-- A `dnis-list` element. -/
def addDnisList (tables : Tables) (v : Ptree) : Except LoadError Tables :=
  match v.getXmlAttribute "name" with
  | none => .error .unnamedDnisList
  | some customerName => do
    let setDnis ← v.children.foldlM addDnis {}
    match tables.mapCustomerDnis.insertNew (customerName, setDnis) with
    | none => .error .duplicateDnisList
    | some mapCustomerDnis => .ok { tables with mapCustomerDnis := mapCustomerDnis }

/-- A `carrier` element. -/
def addCarrier (tables : Tables) (v : Ptree) : Except LoadError Tables :=
  match v.getXmlAttribute "name" with
  | none => .error .unnamedCarrier
  | some carrierName => do
    let mapInboundCarrier ← ((v.getChild? "inbound").elim [] (·.childrenOf "address")).foldlM
      (fun mapInboundCarrier address =>
        match mapInboundCarrier.insertNew (address.data, .read carrierName address) with
        | none => .error .duplicateAddress
        | some mapInboundCarrier => .ok mapInboundCarrier)
      tables.mapInboundCarrier
    .ok
      { tables with
        mapInboundCarrier := mapInboundCarrier
        carriers := SspConfig.addCarrier tables.carriers (.read carrierName v)
        hasRoute := SspConfig.addCarrier_hasRoute tables.hasRoute _ }

/-- A child of `ssp`. -/
def addChild (tables : Tables) (child : Bytes × Ptree) : Except LoadError Tables :=
  if child.1 = "dnis-list".toList then tables.addDnisList child.2
  else if child.1 = "carrier".toList then tables.addCarrier child.2
  else .ok tables

/-- The loops of the loader. -/
def read (t : Ptree) : Except LoadError Tables := do
  let inbound ← t.getChild "ssp.inbound"
  let tables ← inbound.children.foldlM addInbound {}
  let ssp ← t.getChild "ssp"
  ssp.children.foldlM addChild tables

end Tables

namespace SspConfig

/-- `SspConfig::Impl`, where it is valid. -/
structure Impl extends SspConfig where
  settings : Settings
  mapAppserver : KeyedSet (Prod.fst : Bytes × Appserver → Bytes)
  mapAppserverGroup : KeyedSet (Prod.fst : Bytes × KeyedSet (id : Appserver → Appserver) → Bytes)
  mapCustomerDnis : CustomerDnisMap
  mapInboundCarrier : KeyedSet (Prod.fst : Bytes × CarrierAddressSpace → Bytes)

namespace Impl

/-- The constructor, as far as it makes a valid configuration. -/
def load (t : Ptree) : Except LoadError Impl := do
  let tables ← Tables.read t
  if hcarrier : 0 < tables.carriers.2.length then
    if tables.mapAppserver.elems = [] then .error .noAppserver
    else
      .ok
        { settings := .read t
          nMaxTerminationAttempts := t.getUInt32 "ssp.outbound.max-termination-attempts" 1
          strAnonymousCallRoutingCarrier := t.getString "ssp.outbound.anonymous-call-routing" ""
          mapTerminationCarrierByName := tables.carriers.1
          vecTerminationCarrier := tables.carriers.2
          current_lt := hcarrier
          hasRoute := tables.hasRoute
          mapAppserver := tables.mapAppserver
          mapAppserverGroup := tables.mapAppserverGroup
          mapCustomerDnis := tables.mapCustomerDnis
          mapInboundCarrier := tables.mapInboundCarrier }
  else .error .noTerminationCarrier

/-- `getCustomer`, for the lists in the order of the iteration. -/
def getCustomer (customers : List (Bytes × List Dnis)) (dnis : Bytes) : Option Bytes :=
  (customers.find? fun customer => customer.2.any fun d => d.matchesOrContains (.ofText dnis)).map Prod.fst

/-- `getAppservers`, for the servers in the order of the iteration. -/
def getAppservers (servers : List (Bytes × Appserver)) : List Bytes :=
  servers.map fun server => server.2.address ++ ':' :: decimal server.2.eventSocketPort.toNat

/-- `getCdrConnectInfo`: the user, the password, the address and the schema of the database. -/
def getCdrConnectInfo (cfg : Impl) : Option (Bytes × Bytes × Bytes × Bytes) :=
  let s := cfg.settings
  if s.cdrHost = [] ∨ s.cdrUser = [] ∨ s.cdrPassword = [] ∨ s.cdrSchema = [] then none
  else some (s.cdrUser, s.cdrPassword, "tcp://".toList ++ s.cdrHost ++ ':' :: s.cdrPort, s.cdrSchema)

end Impl
end SspConfig

/-! ## What is loaded -/

/-- An entry of a `dnis-list`. -/
inductive DnisEntry
  | dnis (text : Bytes)
  | block (first last : Bytes)
  deriving DecidableEq

/-- What goes into the set of the list. -/
def DnisEntry.toDnis : DnisEntry → Dnis
  | dnis text => .ofText text
  | block first last => .ofBlock first last

/-- A child of a `dnis-list` that is an entry. -/
def dnisElement? (child : Bytes × Ptree) : Option DnisEntry :=
  if child.1 = "dnis".toList then some (.dnis child.2.data)
  else if child.1 = "dnis-block".toList then
    (child.2.get? "first").bind fun first => (child.2.get? "last").map fun last => .block first last
  else none

/-- A `dnis-list` element with a name. -/
def dnisList? (child : Bytes × Ptree) : Option (Bytes × List DnisEntry) :=
  if child.1 = "dnis-list".toList then
    (child.2.getXmlAttribute "name").map fun name => (name, child.2.children.filterMap dnisElement?)
  else none

/-- A `carrier` element with a name. -/
def carrierElement? (child : Bytes × Ptree) : Option CarrierElement :=
  if child.1 = "carrier".toList then (child.2.getXmlAttribute "name").map fun name => .read name child.2 else none

/-- An `appserver` element. -/
def appserver? (child : Bytes × Ptree) : Option Ptree :=
  if child.1 = "appserver".toList then some child.2 else none

namespace Ptree

variable (t : Ptree)

/-- The children of an element, or none if there is no such element. -/
def childrenAt (path : String) : List (Bytes × Ptree) := (t.getChild? path).elim [] children

/-- The `appserver` elements. -/
def appservers : List Ptree := (t.childrenAt "ssp.inbound").filterMap appserver?

/-- The `dnis-list` elements. -/
def dnisLists : List (Bytes × List DnisEntry) := (t.childrenAt "ssp").filterMap dnisList?

/-- The `carrier` elements. -/
def carriers : List CarrierElement := (t.childrenAt "ssp").filterMap carrierElement?

/-- A document with a server and a carrier of one trunk, and some more. -/
def document (attributes : List (String × String)) (children : List (Bytes × Ptree)) : Ptree :=
  .node [] [element "ssp" [] ""
    (element "inbound" [] "" [element "appserver" attributes "localhost" []] ::
      element "carrier" [("name", "level3")] "" [element "outbound" [] "" [element "address" [] "172.21.3.96" []]] ::
        children)]

variable {t} {path : String}

theorem childrenAt_of_getChild {v : Ptree} (h : t.getChild path = .ok v) : t.childrenAt path = v.children := by
  unfold getChild at h
  unfold childrenAt
  cases hchild : t.getChild? path with
  | none => rw [hchild] at h; cases h
  | some w => rw [hchild] at h; cases h; rfl

theorem get_eq_ok_iff {s : Bytes} : t.get path = .ok s ↔ t.get? path = some s := by
  unfold get
  cases t.get? path with
  | none => exact iff_of_false (fun h => nomatch h) fun h => nomatch h
  | some s' => exact ⟨fun h => congrArg some (Except.ok.inj h), fun h => congrArg Except.ok (Option.some.inj h)⟩

end Ptree

/-- The table of a list. -/
def customerOf (list : Bytes × List DnisEntry) : Bytes × KeyedSet Dnis.start :=
  (list.1, .insertAll {} (list.2.map DnisEntry.toDnis))

theorem foldlM_addDnis {children : List (Bytes × Ptree)} {setDnis : KeyedSet Dnis.start}
    (h : children.foldlM addDnis {} = .ok setDnis) :
    setDnis = .insertAll {} ((children.filterMap dnisElement?).map DnisEntry.toDnis) := by
  have hstep : ∀ s child s', addDnis s child = .ok s' →
      s' = (dnisElement? child).elim s fun entry => s.insert entry.toDnis := by
    intro s child s' hs
    unfold addDnis at hs
    unfold dnisElement?
    split_ifs at hs ⊢ with hdnis hblock
    · exact (Except.ok.inj hs).symm
    · obtain ⟨first, hfirst, hs⟩ := bind_eq_ok_iff.1 hs
      obtain ⟨last, hlast, hs⟩ := bind_eq_ok_iff.1 hs
      rw [Ptree.get_eq_ok_iff.1 hfirst, Ptree.get_eq_ok_iff.1 hlast]
      exact (Except.ok.inj hs).symm
    · exact (Except.ok.inj hs).symm
  rw [KeyedSet.insertAll, List.foldl_map]
  exact observe_foldlM (fun s => s) dnisElement? (fun s entry => s.insert entry.toDnis) hstep h

namespace Tables

variable {tables tables' : Tables} {child : Bytes × Ptree} {v t : Ptree}

/-- **A child of `ssp.inbound`** may be a server, and is nothing else that is loaded here. -/
theorem addInbound_ok (h : tables.addInbound child = .ok tables') :
    tables'.mapAppserver.elems = tables.mapAppserver.elems ++ ((appserver? child).map Appserver.read).toList ∧
      tables'.mapCustomerDnis = tables.mapCustomerDnis ∧ tables'.carriers = tables.carriers := by
  unfold addInbound at h
  unfold appserver?
  split_ifs at h ⊢ with happserver hgroup
  · unfold addAppserver at h
    split at h
    next => cases h
    next mapAppserver hnew =>
      cases h
      exact ⟨(KeyedSet.insertNew_eq_some_iff.1 hnew).2, rfl, rfl⟩
  · unfold addAppserverGroup at h
    split at h
    next => cases h
    next name hname =>
      obtain ⟨setAppserver, -, h⟩ := bind_eq_ok_iff.1 h
      split at h
      next => cases h
      next => cases h; exact ⟨(List.append_nil _).symm, rfl, rfl⟩
  · cases h
    exact ⟨(List.append_nil _).symm, rfl, rfl⟩

/-- **A child of `ssp`** may be a list of dialled numbers or a carrier. -/
theorem addChild_ok (h : tables.addChild child = .ok tables') :
    tables'.mapAppserver = tables.mapAppserver ∧
      tables'.mapCustomerDnis.elems =
        tables.mapCustomerDnis.elems ++ ((dnisList? child).map customerOf).toList ∧
      tables'.carriers =
        (carrierElement? child).elim tables.carriers (SspConfig.addCarrier tables.carriers) := by
  unfold addChild at h
  unfold dnisList? carrierElement?
  by_cases hlist : child.1 = "dnis-list".toList
  · have hcarrier : child.1 ≠ "carrier".toList := hlist ▸ by decide
    rw [if_pos hlist] at h ⊢
    rw [if_neg hcarrier]
    unfold addDnisList at h
    split at h
    next => cases h
    next name hname =>
      obtain ⟨setDnis, hset, h⟩ := bind_eq_ok_iff.1 h
      split at h
      next => cases h
      next mapCustomerDnis hnew =>
        cases h
        refine ⟨rfl, ?_, rfl⟩
        rw [(KeyedSet.insertNew_eq_some_iff.1 hnew).2, foldlM_addDnis hset, hname]
        rfl
  · rw [if_neg hlist] at h ⊢
    by_cases hcarrier : child.1 = "carrier".toList
    · rw [if_pos hcarrier] at h ⊢
      unfold addCarrier at h
      split at h
      next => cases h
      next name hname =>
        obtain ⟨mapInboundCarrier, -, h⟩ := bind_eq_ok_iff.1 h
        cases h
        rw [hname]
        exact ⟨rfl, (List.append_nil _).symm, rfl⟩
    · rw [if_neg hcarrier] at h ⊢
      cases h
      exact ⟨rfl, (List.append_nil _).symm, rfl⟩

/-- **The loops** fill the tables with what is in the document. -/
theorem read_ok (h : read t = .ok tables) :
    tables.mapAppserver.elems = t.appservers.map Appserver.read ∧
      tables.mapCustomerDnis.elems = t.dnisLists.map customerOf ∧
      tables.carriers = SspConfig.carriers t.carriers := by
  obtain ⟨inbound, hinbound, h⟩ := bind_eq_ok_iff.1 h
  obtain ⟨tables₀, htables, h⟩ := bind_eq_ok_iff.1 h
  obtain ⟨ssp, hssp, h⟩ := bind_eq_ok_iff.1 h
  rw [← Ptree.childrenAt_of_getChild hinbound] at htables
  rw [← Ptree.childrenAt_of_getChild hssp] at h
  refine ⟨?_, ?_, ?_⟩
  · rw [observe_foldlM_of_eq mapAppserver (fun _ _ _ hs => (addChild_ok hs).1) h,
      observe_foldlM_of_append (·.mapAppserver.elems) _ (fun _ _ _ hs => (addInbound_ok hs).1) htables,
      Ptree.appservers, List.map_filterMap]
    rfl
  · rw [observe_foldlM_of_append (·.mapCustomerDnis.elems) _ (fun _ _ _ hs => (addChild_ok hs).2.1) h,
      observe_foldlM_of_eq mapCustomerDnis (fun _ _ _ hs => (addInbound_ok hs).2.1) htables, Ptree.dnisLists,
      List.map_filterMap]
    rfl
  · rw [observe_foldlM carriers carrierElement? SspConfig.addCarrier (fun _ _ _ hs => (addChild_ok hs).2.2) h,
      observe_foldlM_of_eq carriers (fun _ _ _ hs => (addInbound_ok hs).2.2) htables]
    rfl

end Tables

namespace SspConfig.Impl

variable {t : Ptree} {cfg : Impl}

theorem exists_load (h : (load t).toOption.isSome = true) : ∃ cfg, load t = .ok cfg := by
  cases hload : load t with
  | error e => rw [hload] at h; cases h
  | ok cfg => exact ⟨cfg, rfl⟩

/-- **What a valid configuration has of its document.** -/
theorem load_ok (h : load t = .ok cfg) :
    cfg.mapAppserver.elems = t.appservers.map Appserver.read ∧
      cfg.mapCustomerDnis.elems = t.dnisLists.map customerOf ∧
      SspConfig.load t.carriers cfg.nMaxTerminationAttempts cfg.strAnonymousCallRoutingCarrier =
        some cfg.toSspConfig := by
  obtain ⟨tables, hread, h⟩ := bind_eq_ok_iff.1 h
  obtain ⟨happservers, hlists, hcarriers⟩ := Tables.read_ok hread
  split_ifs at h with hcarrier hnone
  cases h
  refine ⟨happservers, hlists, ?_⟩
  have hnamed : t.carriers.any (·.name.isEmpty) = false := by
    rw [List.any_eq_false]
    intro e he
    obtain ⟨child, -, hchild⟩ := List.mem_filterMap.1 he
    unfold carrierElement? at hchild
    split_ifs at hchild
    obtain ⟨name, hname, rfl⟩ := Option.map_eq_some_iff.1 hchild
    have hne : (!name.isEmpty) = true := (Option.filter_eq_some_iff.1 hname).2
    exact fun hempty => Bool.false_ne_true ((congrArg not hempty).symm.trans hne)
  unfold SspConfig.load
  rw [hnamed, if_neg Bool.false_ne_true, dif_pos (hcarriers ▸ hcarrier)]
  simp only [hcarriers]

end SspConfig.Impl

end Ssp
