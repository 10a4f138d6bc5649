import Mathlib.Data.Int.Notation
import Ssp.Controller.Statements

/-!
# How the writer's connections are set up

A new connection to the database is of use once its schema is set and it commits by itself.
`getConnection` does both, and catches the exception if one of them fails: it returns the
connection all the same. The connection then goes into the pool, from which only errors 2006
and 2013 ever take it.

`configured_iff` says that this is the only way in which a connection is used, or kept, that is
not set up: all connections are, exactly as long as no new connection fails half-way.

The functions are those of `Statements`, which looks at what is executed on the connections. Whatever
happens there, the pool here follows it (`exists_samePool`).
-/

namespace Ssp

/-- An exception. -/
inductive Thrown
  /-- A `sql::SQLException`, with its error code. -/
  | sql (errorCode : ℤ)
  /-- Any other `std::runtime_error`. -/
  | runtime
  /-- Anything else. -/
  | other
  deriving DecidableEq

/-- What is thrown on a lost connection. -/
def Thrown.isLost : Thrown → Bool
  | .sql errorCode => errorCode = 2013 ∨ errorCode = 2006
  | _ => false

/-- What a write function throws on; it swallows all other exceptions that it may catch. -/
def Thrown.passedOn : Thrown → Bool
  | .other => true
  | t => t.isLost

/-- `sql::Connection`, with what was set on it. -/
structure Connection where
  schema : Bool := false
  autoCommit : Bool := false
  deriving DecidableEq

/-- Both settings were made. -/
def Connection.Configured (conn : Connection) : Prop := conn.schema = true ∧ conn.autoCommit = true

instance (conn : Connection) : Decidable conn.Configured := inferInstanceAs (Decidable (_ ∧ _))

/-- What the driver makes of `connect`. -/
inductive ConnectResult
  | connected
  | null
  | thrown (t : Thrown)
  deriving DecidableEq

/-- What the driver does when a connection is made: `none` where an operation succeeds. -/
structure Driver where
  connect : ConnectResult := .connected
  setSchema : Option Thrown := none
  setAutoCommit : Option Thrown := none

/-- `setSchema` and `setAutoCommit` on a new connection, up to the first exception. -/
def Driver.configure (d : Driver) : Connection × Option Thrown :=
  match d.setSchema with
  | some t => ({}, some t)
  | none => ({ schema := true, autoCommit := d.setAutoCommit.isNone }, d.setAutoCommit)

/-- The pool of the writer. `ended` is whether its thread is over; `returned` has the connections
    that `getConnection` has returned, and nothing reads it. -/
structure ConnectionPool where
  vecConnection : List Connection := []
  ended : Bool := false
  returned : List Connection := []

namespace ConnectionPool

/-- `getConnection` returns. -/
def give (w : ConnectionPool) (conn : Connection) : Except Thrown (Option Connection) × ConnectionPool :=
  (.ok (some conn), { w with returned := conn :: w.returned })

/-- `CdrWriter::getConnection`. -/
def getConnection (w : ConnectionPool) (d : Driver) : Except Thrown (Option Connection) × ConnectionPool :=
  match w.vecConnection with
  | conn :: rest => { w with vecConnection := rest }.give conn
  | [] =>
    match d.connect with
    | .null => (.ok none, w)
    | .thrown (.sql _) => (.ok none, w)
    | .thrown t => (.error t, w)
    | .connected =>
      match d.configure with
      | (conn, none) => w.give conn
      -- The exception is caught, and the connection is returned as it is.
      | (conn, some (.sql _)) => w.give conn
      | (_, some t) => (.error t, w)

/-- `CdrWriter::releaseConnection`. -/
def releaseConnection (w : ConnectionPool) (conn : Connection) : ConnectionPool :=
  { w with vecConnection := w.vecConnection ++ [conn] }

/-- The `catch` blocks of `writeCdr` and `timer_handler`. -/
def caught (w : ConnectionPool) (t : Thrown) : ConnectionPool :=
  match t with
  | .other => { w with ended := true }
  | t => if t.isLost then { w with vecConnection := [] } else w

/-- `CdrWriter::writeCdr`; `write` is what is thrown in the write function of the record. -/
def writeCdr (w : ConnectionPool) (d : Driver) (write : Option Thrown) : ConnectionPool :=
  match w.getConnection d with
  | (.error t, w) => w.caught t
  | (.ok none, w) => w
  | (.ok (some conn), w) =>
    match write.filter Thrown.passedOn with
    | some t => w.caught t
    | none => w.releaseConnection conn

/-- `CdrWriter::timer_handler`; `test` is what is thrown by the test of the connection. -/
def timerHandler (w : ConnectionPool) (ec : Bool) (d : Driver) (test : Option Thrown) : ConnectionPool :=
  if ec then w
  else
    match w.getConnection d with
    | (.error t, w) => w.caught t
    | (.ok none, w) => w
    | (.ok (some conn), w) =>
      match test with
      | some t => w.caught t
      | none => w.releaseConnection conn

end ConnectionPool

/-- What the thread of the writer does. -/
inductive PoolEvent
  | writeCdr (d : Driver) (write : Option Thrown)
  | timer (ec : Bool) (d : Driver) (test : Option Thrown)

/-- What the driver would do with a new connection, where one may be asked for. -/
def PoolEvent.driver? : PoolEvent → Option Driver
  | .writeCdr d _ => some d
  | .timer ec d _ => if ec then none else some d

/-- A new connection fails half-way: it is made, and one of its settings fails with an exception
    of the database. -/
def Driver.HalfWay (d : Driver) : Prop := d.connect = .connected ∧ ∃ errorCode, d.configure.2 = some (.sql errorCode)

namespace ConnectionPool

def next (w : ConnectionPool) : PoolEvent → ConnectionPool
  | .writeCdr d write => w.writeCdr d write
  | .timer ec d test => w.timerHandler ec d test

def machine : Machine ConnectionPool PoolEvent where
  init := {w | w = {}}
  enabled w _ := w.ended = false
  next := next

/-- All connections in the pool, and all that were ever returned, are set up. -/
def Configured (w : ConnectionPool) : Prop :=
  (∀ conn ∈ w.vecConnection, conn.Configured) ∧ ∀ conn ∈ w.returned, conn.Configured

/-- No connection is made that fails half-way. -/
def MakesWhole (w : ConnectionPool) (e : PoolEvent) : Prop :=
  w.vecConnection = [] → ∀ d ∈ e.driver?, ¬d.HalfWay

variable {w w' : ConnectionPool} {d : Driver} {conn : Connection} {t : Thrown} {e : PoolEvent}

/-! ## One step -/

theorem configure_configured_iff : d.configure.1.Configured ↔ d.configure.2 = none := by
  unfold Driver.configure Connection.Configured
  cases d.setSchema with
  | some t => exact iff_of_false (fun h => Bool.false_ne_true h.1) (Option.some_ne_none t)
  | none => exact (and_iff_right rfl).trans Option.isNone_iff_eq_none

/-- What `getConnection` may do: it returns a connection, which it takes note of, or none. -/
theorem getConnection_cases (hw : w.Configured) (d : Driver) :
    (∃ conn w', w.getConnection d = (.ok (some conn), w') ∧ w'.returned = conn :: w.returned ∧
        (∀ c ∈ w'.vecConnection, c.Configured) ∧ (conn.Configured ↔ (w.vecConnection = [] → ¬d.HalfWay))) ∨
      (w.getConnection d = (.ok none, w) ∨ ∃ t, w.getConnection d = (.error t, w)) ∧
        (w.vecConnection = [] → ¬d.HalfWay) := by
  unfold getConnection Driver.HalfWay
  cases hpool : w.vecConnection with
  | cons conn rest =>
    refine .inl ⟨conn, _, rfl, rfl, fun c hc => hw.1 c (hpool ▸ List.mem_cons_of_mem conn hc), ?_⟩
    exact iff_of_true (hw.1 conn (hpool ▸ List.mem_cons_self)) nofun
  | nil =>
    cases hconnect : d.connect with
    | null => exact .inr ⟨.inl rfl, fun _ h => nomatch h.1⟩
    | thrown t =>
      refine .inr ⟨?_, fun _ h => nomatch h.1⟩
      cases t with
      | sql errorCode => exact .inl rfl
      | runtime | other => exact .inr ⟨_, rfl⟩
    | connected =>
      have hnew := configure_configured_iff (d := d)
      rcases hconf : d.configure with ⟨conn, _ | t⟩
      · rw [hconf] at hnew
        refine .inl ⟨conn, _, rfl, rfl, by rw [hpool]; nofun, iff_of_true (hnew.2 rfl) ?_⟩
        rintro - ⟨-, errorCode, herror⟩
        cases herror
      · rw [hconf] at hnew
        cases t with
        | sql errorCode =>
          -- The connection that is returned is not set up.
          refine .inl ⟨conn, _, rfl, rfl, by rw [hpool]; nofun, iff_of_false (fun h => nomatch hnew.1 h) ?_⟩
          exact fun h => h rfl ⟨rfl, errorCode, rfl⟩
        | runtime | other =>
          refine .inr ⟨.inr ⟨_, rfl⟩, ?_⟩
          rintro - ⟨-, errorCode, herror⟩
          cases herror

/-- What is caught takes connections out of the pool at most. -/
theorem caught_frame (w : ConnectionPool) (t : Thrown) :
    (w.caught t).returned = w.returned ∧ ∀ conn ∈ (w.caught t).vecConnection, conn ∈ w.vecConnection := by
  have hlost : (if t.isLost then { w with vecConnection := [] } else w).returned = w.returned ∧
      ∀ conn ∈ (if t.isLost then { w with vecConnection := [] } else w).vecConnection, conn ∈ w.vecConnection := by
    split
    · exact ⟨rfl, fun _ h => absurd h List.not_mem_nil⟩
    · exact ⟨rfl, fun _ => id⟩
  cases t with
  | other => exact ⟨rfl, fun _ => id⟩
  | sql errorCode => exact hlost
  | runtime => exact hlost

theorem Configured.caught (h : w.Configured) (t : Thrown) : (w.caught t).Configured := by
  obtain ⟨hreturned, hpool⟩ := w.caught_frame t
  exact ⟨fun conn hconn => h.1 conn (hpool conn hconn), hreturned ▸ h.2⟩

/-- A connection that was returned is used, and released or given up. -/
theorem configured_used_iff (hw : w.Configured) (hreturned : w'.returned = conn :: w.returned)
    (hpool : ∀ c ∈ w'.vecConnection, c.Configured) (thrown : Option Thrown) :
    (match thrown with | some t => w'.caught t | none => w'.releaseConnection conn).Configured ↔ conn.Configured := by
  have hall : conn.Configured → ∀ c ∈ w'.returned, c.Configured := by
    intro hconn c hc
    rw [hreturned] at hc
    exact (List.mem_cons.1 hc).elim (fun heq => heq ▸ hconn) (hw.2 c)
  have hmem : conn ∈ w'.returned := hreturned ▸ List.mem_cons_self
  cases thrown with
  | some t =>
    refine ⟨fun h => h.2 conn ?_, fun hconn => Configured.caught ⟨hpool, hall hconn⟩ t⟩
    rw [(w'.caught_frame t).1]
    exact hmem
  | none =>
    refine ⟨fun h => h.2 conn hmem, fun hconn => ⟨fun c hc => ?_, hall hconn⟩⟩
    exact (List.mem_append.1 hc).elim (hpool c) fun heq => List.mem_singleton.1 heq ▸ hconn

/-- **One step** keeps all connections set up exactly if it makes none that fails half-way. -/
theorem configured_next_iff (hw : w.Configured) (e : PoolEvent) : (w.next e).Configured ↔ w.MakesWhole e := by
  cases e with
  | writeCdr d write =>
    have hwhole : w.MakesWhole (.writeCdr d write) ↔ (w.vecConnection = [] → ¬d.HalfWay) :=
      forall_congr' fun _ => ⟨fun h => h d rfl, fun h _ hd => Option.some_inj.1 hd ▸ h⟩
    rw [hwhole]
    change (w.writeCdr d write).Configured ↔ _
    unfold writeCdr
    rcases getConnection_cases hw d with ⟨conn, w', heq, hreturned, hpool, hiff⟩ | ⟨heq | ⟨t, heq⟩, hnot⟩
    · rw [heq, ← hiff]
      exact configured_used_iff hw hreturned hpool _
    · rw [heq]
      exact iff_of_true hw hnot
    · rw [heq]
      exact iff_of_true (hw.caught t) hnot
  | timer ec d test =>
    change (w.timerHandler ec d test).Configured ↔ _
    unfold timerHandler
    cases ec with
    | true => exact iff_of_true hw fun _ _ hd => nomatch hd
    | false =>
      have hwhole : w.MakesWhole (.timer false d test) ↔ (w.vecConnection = [] → ¬d.HalfWay) :=
        forall_congr' fun _ => ⟨fun h => h d rfl, fun h _ hd => Option.some_inj.1 hd ▸ h⟩
      rw [hwhole, if_neg Bool.false_ne_true]
      rcases getConnection_cases hw d with ⟨conn, w', heq, hreturned, hpool, hiff⟩ | ⟨heq | ⟨t, heq⟩, hnot⟩
      · rw [heq, ← hiff]
        exact configured_used_iff hw hreturned hpool _
      · rw [heq]
        exact iff_of_true hw hnot
      · rw [heq]
        exact iff_of_true (hw.caught t) hnot

/-! ## Runs -/

/-- **Connections are set up.** In a run, all connections that are returned or kept are set up
    exactly if no connection is made, because the pool is empty, that fails half-way. -/
theorem configured_iff {es : List PoolEvent} (hrun : machine.IsRun w es) :
    machine.Always Configured w es ↔ machine.Along MakesWhole w es := by
  obtain ⟨rfl, hes⟩ := hrun
  exact Machine.always_iff_along (I := fun _ => True) (fun _ _ _ _ _ _ => trivial)
    (fun _ e _ hw _ => configured_next_iff hw e) trivial
    ⟨fun _ h => absurd h List.not_mem_nil, fun _ h => absurd h List.not_mem_nil⟩ hes

/-- A connection that is lost, and the next one, both set up. -/
theorem configured_lost :
    machine.Always Configured {} [.writeCdr {} none, .writeCdr {} (some (.sql 2013)), .timer false {} none] := by
  have hrun : machine.IsRun {} [.writeCdr {} none, .writeCdr {} (some (.sql 2013)), .timer false {} none] :=
    ⟨rfl, rfl, rfl, rfl, trivial⟩
  refine (configured_iff hrun).2 ⟨?_, ?_, ?_, trivial⟩ <;> rintro - d hd ⟨-, errorCode, herror⟩
  · obtain rfl := Option.some_inj.1 hd
    cases herror
  · obtain rfl := Option.some_inj.1 hd
    cases herror
  · obtain rfl := Option.some_inj.1 hd
    cases herror

/-- The schema is unknown: the connection is returned, and kept for the next record. -/
theorem not_configured_unknownSchema :
    ¬∀ (w : ConnectionPool) (es : List PoolEvent), machine.IsRun w es → machine.Always Configured w es := by
  intro h
  obtain ⟨-, hpool, -⟩ := h {} [.writeCdr { setSchema := some (.sql 1049) } none] ⟨rfl, rfl, trivial⟩
  exact absurd (hpool {} (by decide)) (by decide)

/-! ## The pool of the prepared statements -/

section

variable {x x' : Statements}

/-- The thread is not over, and all connections of the pool are there, and set up. -/
structure SamePool (x : Statements) (w : ConnectionPool) : Prop where
  ended : w.ended = false
  vecConnection : w.vecConnection = x.vecConnection.map fun _ => ⟨true, true⟩

/-- Whether a connection can be made. -/
def driverOf (connect : Bool) : Driver := { connect := if connect then .connected else .null }

/-- What is thrown where something is done with a connection. -/
def thrownBy : SqlResult → Option Thrown
  | .ok => none
  | .error => some .runtime
  | .lost => some (.sql 2013)

/-- The same for a write function. -/
def thrownIn : Raised → Option Thrown
  | .nothing => thrownBy .ok
  | .error => thrownBy .error
  | .lost _ => thrownBy .lost

theorem SamePool.congr (h : SamePool x w) (hpool : x'.vecConnection = x.vecConnection) : SamePool x' w :=
  ⟨h.ended, hpool ▸ h.vecConnection⟩

theorem SamePool.releaseConnection (h : SamePool x w) (n : ℕ) :
    SamePool (x.releaseConnection n) (w.releaseConnection ⟨true, true⟩) := by
  refine ⟨h.ended, ?_⟩
  change w.vecConnection ++ _ = (x.vecConnection ++ _).map _
  rw [h.vecConnection, List.map_append]
  rfl

/-- Both take a connection out of the pool, or make one, or have none. -/
theorem SamePool.getConnection (h : SamePool x w) (connect : Bool) :
    (∃ n x' w', x.getConnection connect = (some n, x') ∧
        w.getConnection (driverOf connect) = (.ok (some ⟨true, true⟩), w') ∧ SamePool x' w') ∨
      x.getConnection connect = (none, x) ∧ w.getConnection (driverOf connect) = (.ok none, w) := by
  have hpool := h.vecConnection
  unfold Statements.getConnection ConnectionPool.getConnection
  cases hx : x.vecConnection with
  | cons n rest =>
    rw [hx, List.map_cons] at hpool
    rw [hpool]
    exact .inl ⟨n, _, _, rfl, rfl, h.ended, rfl⟩
  | nil =>
    rw [hx] at hpool
    rw [hpool]
    cases connect with
    | true => exact .inl ⟨x.made, _, _, rfl, rfl, h.ended, hx ▸ hpool⟩
    | false => exact .inr ⟨rfl, rfl⟩

theorem SamePool.writeCdr (h : SamePool x w) (cdr : CdrInfo) (connect : Bool) (prepare execute : Stmt → SqlResult) :
    ∃ write, SamePool (x.writeCdr cdr connect prepare execute) (w.writeCdr (driverOf connect) write) := by
  unfold Statements.writeCdr ConnectionPool.writeCdr
  rcases h.getConnection connect with ⟨n, x₁, w₁, hx, hw, h₁⟩ | ⟨hx, hw⟩
  · rw [hx, hw]
    rcases hused : x₁.useStmts n prepare execute (Statements.stmtsOf cdr) with ⟨x₂, raised⟩
    have h₂ : SamePool x₂ w₁ := h₁.congr (Statements.useStmts_uses hused).vecConnection
    refine ⟨thrownIn raised, ?_⟩
    dsimp only
    rw [hused]
    cases raised with
    | nothing => exact h₂.releaseConnection n
    | error => exact h₂.releaseConnection n
    | lost m => exact ⟨h₂.ended, rfl⟩
  · rw [hx, hw]
    exact ⟨none, h⟩

theorem SamePool.timerHandler (h : SamePool x w) (connect : Bool) (r : SqlResult) :
    ∃ test, SamePool (x.timerHandler connect r) (w.timerHandler false (driverOf connect) test) := by
  unfold Statements.timerHandler ConnectionPool.timerHandler
  simp only [Bool.false_eq_true, if_false]
  rcases h.getConnection connect with ⟨n, x₁, w₁, hx, hw, h₁⟩ | ⟨hx, hw⟩
  · rw [hx, hw]
    refine ⟨thrownBy (x₁.operate n r), ?_⟩
    dsimp only
    cases x₁.operate n r with
    | ok => exact h₁.releaseConnection n
    | error => exact h₁
    | lost => exact ⟨h₁.ended, rfl⟩
  · rw [hx, hw]
    exact ⟨none, h⟩

/-- What an event does to the one pool, at most one event does to the other. -/
theorem SamePool.next (h : SamePool x w) (hw : machine.Reachable w) (e : SqlEvent) :
    ∃ w', machine.Reachable w' ∧ SamePool (x.next e) w' := by
  cases e with
  | writeCdr cdr connect prepare execute =>
    obtain ⟨write, hwrite⟩ := h.writeCdr cdr connect prepare execute
    exact ⟨machine.next w (.writeCdr (driverOf connect) write), hw.step h.ended, hwrite⟩
  | timer connect r =>
    obtain ⟨test, htest⟩ := h.timerHandler connect r
    exact ⟨machine.next w (.timer false (driverOf connect) test), hw.step h.ended, htest⟩
  | connectionLost conn => exact ⟨w, hw, h.congr rfl⟩

/-- **The pool follows the prepared statements**: what `Statements` may come to, it may come to with the
    same connections, all of them set up. -/
theorem exists_samePool (hx : Statements.machine.Reachable x) : ∃ w, machine.Reachable w ∧ SamePool x w := by
  induction hx with
  | init hx =>
    obtain rfl := hx
    exact ⟨{}, .init rfl, rfl, rfl⟩
  | step _ _ ih =>
    obtain ⟨w, hw, h⟩ := ih
    exact h.next hw _

end

end ConnectionPool

end Ssp
