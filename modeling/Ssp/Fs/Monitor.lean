import Mathlib.Data.Finset.Dedup
import Mathlib.Data.Finset.Erase
import Mathlib.Data.Finset.Insert
import Mathlib.Data.List.Sort
import Ssp.Fs.Instance

/-!
# The servers of a monitor

`FsMonitor` holds the FreeSWITCH servers of the configuration. For every incoming
call it is asked for a few available servers to try, beginning after the one that
was given out first the last time; every so often the least loaded server is put
at the front.

The servers of a result are given by their position in `servers`.
-/

namespace Ssp

/-- `MAX_SERVERS_TO_TRY`. -/
def maxServersToTry : ℕ := 3

structure FsMonitor where
  servers : List FsInstance := []
  nRRInterval : UInt32 := 0
  nLastServer : ℕ := 0
  nLastRR : UInt32 := 0
  setServers : Finset Bytes := ∅

/-- `capacity_sorter`: whether `a` comes before `b`. -/
def capacitySorter (a b : FsInstance) : Bool :=
  if a.isAvailable && b.isAvailable then a.getAvailableSessions > b.getAvailableSessions
  else a.isAvailable

namespace FsMonitor

/-! ## The list of servers -/

/-- The address and port in an address of the configuration, where the ones of the
    address before it stay where there is none. -/
def parseServer (before : Bytes × UInt32) (address : Bytes) : Bytes × UInt32 :=
  let words := tokens (· == ':') address
  (words[0]?.getD before.1, (words[1]?.map atoi).getD before.2)

/-- The loop of `reset`. -/
def startServers (healthCheckMsecs : ℕ) : Bytes × UInt32 → List Bytes → List FsInstance
  | _, [] => []
  | before, address :: rest =>
    let server := parseServer before address
    .new server.1 server.2 healthCheckMsecs :: startServers healthCheckMsecs server rest

/-- `FsMonitor::reset`; `nPort` is the uninitialised port of its loop. -/
def reset (m : FsMonitor) (healthCheckMsecs : ℕ) (nPort : UInt32) (addresses : List Bytes) :
    FsMonitor :=
  let servers := startServers healthCheckMsecs ([], nPort) addresses
  { m with servers := servers, setServers := (servers.map (·.strAddress)).toFinset }

/-- `FsMonitor::isAppserver`. -/
def isAppserver (m : FsMonitor) (sourceAddress : Bytes) : Bool := sourceAddress ∈ m.setServers

/-- `FsMonitor::notifySipServerAddress`. -/
def notifySipServerAddress (m : FsMonitor) (fsAddress sipAddress : Bytes) : FsMonitor :=
  { m with setServers := insert sipAddress (m.setServers.erase fsAddress) }

/-! ## Available servers -/

/-- Whether the server at a position is available. -/
def available (m : FsMonitor) (i : ℕ) : Bool := m.servers[i]?.any FsInstance.isAvailable

/-- The position after `i`, around the end. -/
def nextPosition (total i : ℕ) : ℕ := if i + 1 < total then i + 1 else 0

/-- The `do` loop of `getAvailableServers`: it returns `m_nLastServer` and the
    results. It ends when it is back at `start`, so that `total` rounds are enough
    (`scan_fuel`). -/
def scan (available : ℕ → Bool) (total start nReturnCount : ℕ) :
    ℕ → ℕ → ℕ → List ℕ → ℕ × List ℕ
  | 0, _, nLastServer, results => (nLastServer, results)
  | fuel + 1, current, nLastServer, results =>
    let results := if available current then results ++ [current] else results
    let nLastServer :=
      if !available current && nLastServer = current then nLastServer + 1 else nLastServer
    let current := nextPosition total current
    if current = start ∨ nReturnCount ≤ results.length then (nLastServer, results)
    else scan available total start nReturnCount fuel current nLastServer results

/-- The least loaded server: the first one after sorting all of them. -/
def leastLoaded (m : FsMonitor) : List ℕ :=
  ((List.range m.servers.length).insertionSort fun i j =>
    ∀ a ∈ m.servers[i]?, ∀ b ∈ m.servers[j]?, capacitySorter b a = false).take 1

/-- `FsMonitor::getAvailableServers`: `none` where it returns `false`. -/
def getAvailableServers (m : FsMonitor) : FsMonitor × Option (List ℕ) :=
  let total := m.servers.length
  let nReturnCount := min maxServersToTry total
  if nReturnCount = 0 then (m, none)
  else
    let start := nextPosition total m.nLastServer
    let (nLastServer, results) := scan m.available total start nReturnCount total start start []
    let m := { m with nLastServer := nLastServer }
    if results = [] then (m, none)
    else if 0 < m.nRRInterval ∧ 1 < total then
      if m.nRRInterval < m.nLastRR + 1 then
        ({ m with nLastRR := 0 }, some (m.leastLoaded ++ results))
      else ({ m with nLastRR := m.nLastRR + 1 }, some results)
    else (m, some results)

/-! ## The scan -/

theorem nextPosition_lt {total i : ℕ} (h : 0 < total) : nextPosition total i < total := by
  unfold nextPosition
  split_ifs <;> omega

/-- The position `j` steps after the start, around the end. -/
theorem offset_eq {total start j : ℕ} (hs : start < total) (hj : j ≤ total) :
    (start + j) % total = if start + j < total then start + j else start + j - total := by
  split_ifs with h
  · exact Nat.mod_eq_of_lt h
  · rw [Nat.mod_eq_sub_mod (by omega), Nat.mod_eq_of_lt (by omega)]

theorem nextPosition_offset {total start j : ℕ} (hs : start < total) (hj : j < total) :
    nextPosition total ((start + j) % total) = (start + (j + 1)) % total := by
  unfold nextPosition
  rw [offset_eq hs hj.le, offset_eq hs (by omega : j + 1 ≤ total)]
  split_ifs <;> omega

/-- The scan is back at its start after `total` rounds. -/
theorem offset_eq_start_iff {total start j : ℕ} (hs : start < total) (hj : j < total) :
    (start + (j + 1)) % total = start ↔ j + 1 = total := by
  rw [offset_eq hs (by omega : j + 1 ≤ total)]
  split_ifs <;> omega

/-- More rounds than servers are never made. -/
theorem scan_fuel {available : ℕ → Bool} {total start nReturnCount : ℕ} (hs : start < total)
    {j fuel : ℕ} (hj : j < total) (hf : total ≤ j + fuel) (extra nLastServer : ℕ) (results : List ℕ) :
    scan available total start nReturnCount (fuel + extra) ((start + j) % total) nLastServer results =
      scan available total start nReturnCount fuel ((start + j) % total) nLastServer results := by
  induction fuel generalizing j nLastServer results with
  | zero => omega
  | succ fuel ih =>
    rw [Nat.succ_add, scan, scan, nextPosition_offset hs hj]
    by_cases hend : j + 1 = total
    · simp [(offset_eq_start_iff hs hj).2 hend]
    · have hnext := fun n r => ih (j := j + 1) (by omega) (by omega) n r
      simp only [hnext]

end FsMonitor

end Ssp
