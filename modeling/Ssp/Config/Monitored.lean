import Ssp.Config.Document
import Ssp.Fs.Monitor

/-!
# Where servers are monitored

The address and the port of a server go from the document through the table of servers and
the strings that `getAppservers` makes of it to the monitor, and arrive as they were loaded
(`places_reset`). But the port that is loaded is the one in an element `event-socket-port`
within the `appserver` element, and the configuration has it in an attribute of that name:
`monitored_iff` says that servers are monitored where the attributes say only if the elements
happen to say the same.
-/

namespace Ssp

/-- The port in the attribute of an `appserver` element. -/
def attributePort (v : Ptree) : ℕ := (v.get? "<xmlattr>.event-socket-port").elim 8021 leadingDigits

/-- The port in the child of an `appserver` element. -/
def childPort (v : Ptree) : ℕ := (v.getInt "event-socket-port" 8021).toNat

namespace SspConfig.Impl

/-- The servers have addresses without a colon, and their attributes are ports. -/
def PlainServers (t : Ptree) : Prop :=
  ∀ v ∈ t.appservers, v.data ≠ [] ∧ ':' ∉ v.data ∧
    ∀ s ∈ v.get? "<xmlattr>.event-socket-port", IsDecimal s ∧ leadingDigits s < 2 ^ 31

instance (t : Ptree) : Decidable (PlainServers t) := inferInstanceAs (Decidable (∀ v ∈ t.appservers, _))

/-- Where the instances of a monitor connect to. -/
def places (m : FsMonitor) : List (Bytes × ℕ) :=
  m.servers.map fun server => (server.strAddress, server.nEventSocketPort.toNat)

/-- In whatever order the servers are iterated over, a monitor connects to the addresses and
    ports of the elements and their attributes. -/
def Monitored (t : Ptree) (cfg : Impl) : Prop :=
  ∀ servers, servers.Perm cfg.mapAppserver.elems → ∀ (m : FsMonitor) (healthCheckMsecs : ℕ) (nPort : UInt32),
    (places (m.reset healthCheckMsecs nPort (getAppservers servers))).Perm
      (t.appservers.map fun v => (v.data, attributePort v))

variable {t : Ptree} {cfg : Impl}

/-! ## From the table to the monitor -/

/-- **What is read back** of an address and a port is what was written. -/
theorem parseServer_address {address : Bytes} (hne : address ≠ []) (hcolon : ':' ∉ address) (port : UInt32)
    (before : Bytes × UInt32) :
    FsMonitor.parseServer before (address ++ ':' :: decimal port.toNat) = (address, port) := by
  have haddress : tokens (· == ':') address = [address] :=
    tokens_of_forall hne fun c hc => beq_false_of_ne fun heq => hcolon (heq ▸ hc)
  have hport : tokens (· == ':') (decimal port.toNat) = [decimal port.toNat] := by
    refine tokens_of_forall (decimal_ne_nil _) fun c hc => beq_false_of_ne ?_
    rintro rfl
    exact absurd (isDigit_of_mem_decimal hc) (by decide)
  have hatoi : atoi (decimal port.toNat) = port := UInt32.toNat_inj.1 (toNat_atoi_decimal port.toNat_lt)
  unfold FsMonitor.parseServer
  rw [tokens_append_cons (by decide), haddress, hport]
  exact Prod.ext rfl hatoi

/-- The loop of `reset` keeps the variables of one server for the next, but writes them all. -/
theorem startServers_getAppservers {servers : List (Bytes × Appserver)}
    (hplain : ∀ server ∈ servers, server.2.address ≠ [] ∧ ':' ∉ server.2.address) (healthCheckMsecs : ℕ)
    (before : Bytes × UInt32) :
    FsMonitor.startServers healthCheckMsecs before (getAppservers servers) =
      servers.map fun server => .new server.2.address server.2.eventSocketPort healthCheckMsecs := by
  induction servers generalizing before with
  | nil => rfl
  | cons server servers ih =>
    obtain ⟨hne, hcolon⟩ := hplain server List.mem_cons_self
    have hparse := parseServer_address hne hcolon server.2.eventSocketPort before
    unfold getAppservers at ih ⊢
    rw [List.map_cons, FsMonitor.startServers, hparse, List.map_cons,
      ih fun server hserver => hplain server (List.mem_cons_of_mem _ hserver)]

/-- **Servers are monitored where they were loaded from.** -/
theorem places_reset (hload : load t = .ok cfg) (hplain : PlainServers t) {servers : List (Bytes × Appserver)}
    (hservers : servers.Perm cfg.mapAppserver.elems) (m : FsMonitor) (healthCheckMsecs : ℕ) (nPort : UInt32) :
    (places (m.reset healthCheckMsecs nPort (getAppservers servers))).Perm
      (t.appservers.map fun v => (v.data, childPort v)) := by
  rw [(load_ok hload).1] at hservers
  have hservers_plain : ∀ server ∈ servers, server.2.address ≠ [] ∧ ':' ∉ server.2.address := by
    intro server hserver
    obtain ⟨v, hv, rfl⟩ := List.mem_map.1 (hservers.mem_iff.1 hserver)
    exact ⟨(hplain v hv).1, (hplain v hv).2.1⟩
  unfold places FsMonitor.reset
  dsimp only
  rw [startServers_getAppservers hservers_plain, List.map_map]
  have hperm := hservers.map fun server => (server.2.address, server.2.eventSocketPort.toNat)
  rw [List.map_map] at hperm
  exact hperm

/-- **Servers are monitored where the attributes say** exactly if, for each address, the
    elements `event-socket-port` say the same ports as the attributes. -/
theorem monitored_iff (hload : load t = .ok cfg) (hplain : PlainServers t) :
    Monitored t cfg ↔
      (t.appservers.map fun v => (v.data, childPort v)).Perm (t.appservers.map fun v => (v.data, attributePort v)) := by
  constructor
  · intro h
    exact (places_reset hload hplain (.refl _) {} 0 0).symm.trans (h _ (.refl _) {} 0 0)
  · intro h servers hservers m healthCheckMsecs nPort
    exact (places_reset hload hplain hservers m healthCheckMsecs nPort).trans h

/-- One server, on the default port. -/
def defaultPortDocument : Ptree := .document [] []

/-- One server, on another port. -/
def otherPortDocument : Ptree := .document [("event-socket-port", "9000")] []

theorem monitored_defaultPort : ∃ cfg, load defaultPortDocument = .ok cfg ∧ Monitored defaultPortDocument cfg := by
  obtain ⟨cfg, hload⟩ := exists_load (t := defaultPortDocument) (by decide)
  exact ⟨cfg, hload, (monitored_iff hload (by decide)).2 (by decide)⟩

/-- The server is monitored on port 8021. -/
theorem not_monitored_otherPort :
    ¬∀ (t : Ptree) (cfg : Impl), load t = .ok cfg → PlainServers t → Monitored t cfg := by
  intro h
  obtain ⟨cfg, hload⟩ := exists_load (t := otherPortDocument) (by decide)
  have hplain : PlainServers otherPortDocument := by decide
  have hplaces := places_reset hload hplain (.refl _) {} 0 0
  have hperm := hplaces.symm.trans (h _ cfg hload hplain _ (.refl _) {} 0 0)
  exact absurd hperm (by decide)

end SspConfig.Impl

end Ssp
