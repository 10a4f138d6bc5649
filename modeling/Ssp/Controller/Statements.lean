import Mathlib.Logic.Function.Basic
import Ssp.Controller.Cdr
import Ssp.Lib.Run

/-!
# The writer's connections and prepared statements

The writer takes a connection to the database from its pool for each record, or makes one, and
puts it back. A statement is prepared on the connection at hand when it is first needed, and
kept (`m_stmtOrig` and its siblings): later records execute it where it was prepared, whatever
connection they have taken.

On a lost connection every operation raises error 2006 or 2013. Who notices this drops the
connection and clears the pool, and a write function also resets its own statements. The other
statements stay. `good_iff` says when that is enough: no other statement may be kept on the
connections that are dropped.
-/

namespace Ssp

/-- What an operation on the database does: `error` is any exception but those of a lost
    connection. -/
inductive SqlResult
  | ok
  | error
  /-- Error 2006 or 2013. -/
  | lost
  deriving DecidableEq, Repr

/-- What a write function is left with: nothing, an exception that it swallows, or the loss of a
    connection, which it throws on. -/
inductive Raised
  | nothing
  | error
  | lost (conn : ℕ)
  deriving DecidableEq, Repr

/-- The connections of the writer, by number, and the statements it has prepared. -/
structure Statements where
  /-- How many connections were made. -/
  made : ℕ := 0
  vecConnection : List ℕ := []
  /-- The connection on which a statement is prepared. -/
  stmt : Stmt → Option ℕ := fun _ => none
  /-- The connections that are lost, known to the writer or not. -/
  dead : List ℕ := []
  /-- The connections that were given up because of a loss. Nothing reads this, nor what
      follows. -/
  discarded : List ℕ := []
  /-- The statements that were executed on such a connection. -/
  stale : List Stmt := []
  /-- For each record that was lost with a connection, that connection. -/
  lostCdrs : List ℕ := []

namespace Statements

/-- An operation on a connection. -/
def operate (w : Statements) (conn : ℕ) (r : SqlResult) : SqlResult :=
  if conn ∈ w.dead then .lost else r

/-- Take note of a statement that is executed on a connection that was given up. -/
def note (w : Statements) (conn : ℕ) (s : Stmt) : Statements :=
  { w with stale := if conn ∈ w.discarded then w.stale ++ [s] else w.stale }

/-- `executeUpdate` of a statement that is prepared on `conn`. -/
def executeUpdate (w : Statements) (conn : ℕ) (s : Stmt) (r : SqlResult) : Statements × Raised :=
  match w.operate conn r with
  | .ok => (w.note conn s, .nothing)
  | .error => (w.note conn s, .error)
  | .lost => ({ w.note conn s with dead := conn :: w.dead }, .lost conn)

/-- What a write function does with one of its statements: it prepares it if it is not, and
    executes it. -/
def useStmt (w : Statements) (conn : ℕ) (s : Stmt) (prepare execute : SqlResult) :
    Statements × Raised :=
  match w.stmt s with
  | some n => w.executeUpdate n s execute
  | none =>
    match w.operate conn prepare with
    | .ok => { w with stmt := Function.update w.stmt s (some conn) }.executeUpdate conn s execute
    | .error => (w, .error)
    | .lost => ({ w with dead := conn :: w.dead }, .lost conn)

/-- A write function, up to the first exception. -/
def useStmts (w : Statements) (conn : ℕ) (prepare execute : Stmt → SqlResult) :
    List Stmt → Statements × Raised
  | [] => (w, .nothing)
  | s :: ss =>
    match w.useStmt conn s (prepare s) (execute s) with
    | (w, .nothing) => w.useStmts conn prepare execute ss
    | (w, raised) => (w, raised)

/-- `CdrWriter::getConnection`; `connect` is whether a new connection can be made. -/
def getConnection (w : Statements) (connect : Bool) : Option ℕ × Statements :=
  match w.vecConnection with
  | n :: rest => (some n, { w with vecConnection := rest })
  | [] => if connect then (some w.made, { w with made := w.made + 1 }) else (none, w)

/-- `CdrWriter::releaseConnection`. -/
def releaseConnection (w : Statements) (conn : ℕ) : Statements :=
  { w with vecConnection := w.vecConnection ++ [conn] }

/-- A loss is noticed: `m_vecConnection.clear()`, with the connections `ns` that were at hand. -/
def clear (w : Statements) (ns : List ℕ) : Statements :=
  { w with vecConnection := [], discarded := ns ++ w.vecConnection ++ w.discarded }

/-- The statements of a write function are reset. -/
def reset (w : Statements) (ss : List Stmt) : Statements :=
  { w with stmt := fun s => if s ∈ ss then none else w.stmt s }

/-- The statements of a record, in the order its write function uses them. -/
def stmtsOf (cdr : CdrInfo) : List Stmt := cdr.executions.map (·.stmt)

/-- `CdrWriter::writeCdr`. -/
def writeCdr (w : Statements) (cdr : CdrInfo) (connect : Bool) (prepare execute : Stmt → SqlResult) :
    Statements :=
  match w.getConnection connect with
  | (none, w) => w
  | (some conn, w) =>
    match w.useStmts conn prepare execute (stmtsOf cdr) with
    | (w, .lost n) =>
      { (w.reset (stmtsOf cdr)).clear [n, conn] with lostCdrs := n :: w.lostCdrs }
    | (w, _) => w.releaseConnection conn

/-- `CdrWriter::timer_handler`: the connection is tried out. An error that is no loss leaves it
    out of the pool. -/
def timerHandler (w : Statements) (connect : Bool) (r : SqlResult) : Statements :=
  match w.getConnection connect with
  | (none, w) => w
  | (some conn, w) =>
    match w.operate conn r with
    | .ok => w.releaseConnection conn
    | .error => w
    | .lost => { w.clear [conn] with dead := conn :: w.dead }

end Statements

/-- What happens to the writer's connections: a record is written, the timer goes off, or a
    connection is lost. -/
inductive SqlEvent
  | writeCdr (cdr : CdrInfo) (connect : Bool) (prepare execute : Stmt → SqlResult)
  | timer (connect : Bool) (r : SqlResult)
  | connectionLost (conn : ℕ)

namespace Statements

def next (w : Statements) : SqlEvent → Statements
  | .writeCdr cdr connect prepare execute => w.writeCdr cdr connect prepare execute
  | .timer connect r => w.timerHandler connect r
  | .connectionLost conn => { w with dead := conn :: w.dead }

def machine : Machine Statements SqlEvent where
  init := {w | w = {}}
  enabled w e := ∀ conn, e = .connectionLost conn → conn < w.made
  next := next

/-! ## What a write function does -/

/-- No statement is kept on a connection that was given up. -/
def Clean (w : Statements) : Prop := ∀ s n, w.stmt s = some n → n ∉ w.discarded

/-- What the use of the statements `ss` with the connection `conn` may change: it prepares some
    of them on that connection, and executes nothing on a connection that was given up unless
    there is something to execute. -/
structure Uses (w : Statements) (conn : ℕ) (ss : List Stmt) (w' : Statements) (raised : Raised) :
    Prop where
  made : w'.made = w.made
  vecConnection : w'.vecConnection = w.vecConnection
  discarded : w'.discarded = w.discarded
  lostCdrs : w'.lostCdrs = w.lostCdrs
  other : ∀ s ∉ ss, w'.stmt s = w.stmt s
  stmt : ∀ s n, w'.stmt s = some n → w.stmt s = some n ∨ n = conn
  stale : w.Clean → conn ∉ w.discarded → w'.stale = w.stale
  lost : ∀ n, raised = .lost n → n = conn ∨ ∃ s ∈ ss, w.stmt s = some n

/-- `executeUpdate` only takes note of what it does. -/
theorem executeUpdate_spec (w : Statements) (conn : ℕ) (s : Stmt) (r : SqlResult) :
    ∃ dead stale, (w.executeUpdate conn s r).1 = { w with dead := dead, stale := stale } ∧
      (conn ∉ w.discarded → stale = w.stale) ∧
      ∀ n, (w.executeUpdate conn s r).2 = .lost n → n = conn := by
  have hstale : conn ∉ w.discarded → (w.note conn s).stale = w.stale := fun h => if_neg h
  unfold executeUpdate
  cases w.operate conn r with
  | ok => exact ⟨_, _, rfl, hstale, nofun⟩
  | error => exact ⟨_, _, rfl, hstale, nofun⟩
  | lost => exact ⟨_, _, rfl, hstale, fun n hn => (Raised.lost.inj hn).symm⟩

theorem useStmt_uses (w : Statements) (conn : ℕ) (s : Stmt) (prepare execute : SqlResult) :
    w.Uses conn [s] (w.useStmt conn s prepare execute).1 (w.useStmt conn s prepare execute).2 := by
  unfold useStmt
  split
  next n hn =>
    obtain ⟨dead, stale, heq, hstale, hlost⟩ := w.executeUpdate_spec n s execute
    refine ⟨by rw [heq], by rw [heq], by rw [heq], by rw [heq], ?_, ?_, ?_, ?_⟩
    · exact fun s' _ => by rw [heq]
    · exact fun s' m hm => .inl (by rwa [heq] at hm)
    · intro hclean _
      rw [heq]
      exact hstale (hclean s n hn)
    · exact fun m hm => .inr ⟨s, List.mem_singleton_self s, hlost m hm ▸ hn⟩
  next hnone =>
    split
    · obtain ⟨dead, stale, heq, hstale, hlost⟩ := executeUpdate_spec
        { w with stmt := Function.update w.stmt s (some conn) } conn s execute
      refine ⟨by rw [heq], by rw [heq], by rw [heq], by rw [heq], ?_, ?_, ?_, ?_⟩
      · intro s' hs'
        rw [heq]
        exact Function.update_of_ne (fun h : s' = s => hs' (List.mem_singleton.2 h)) _ _
      · intro s' m hm
        rw [heq] at hm
        by_cases hs : s' = s
        · rw [hs] at hm
          exact .inr (Option.some.inj (hm.symm.trans (Function.update_self _ _ _)))
        · exact .inl ((Function.update_of_ne hs _ _).symm.trans hm)
      · intro _ hconn
        rw [heq]
        exact hstale hconn
      · exact fun m hm => .inl (hlost m hm)
    · exact ⟨rfl, rfl, rfl, rfl, fun _ _ => rfl, fun _ _ => .inl, fun _ _ => rfl, nofun⟩
    · refine ⟨rfl, rfl, rfl, rfl, fun _ _ => rfl, fun _ _ => .inl, fun _ _ => rfl, ?_⟩
      rintro m ⟨⟩
      exact .inl rfl

section Uses

variable {w w' w'' : Statements} {conn : ℕ} {ss ss' : List Stmt} {raised raised' : Raised}

theorem Uses.mono (h : w.Uses conn ss w' raised) (hss : ∀ s ∈ ss, s ∈ ss') :
    w.Uses conn ss' w' raised :=
  { h with
    other := fun s hs => h.other s fun hs' => hs (hss s hs')
    lost := fun n hn => (h.lost n hn).imp_right fun ⟨s, hs, hstmt⟩ => ⟨s, hss s hs, hstmt⟩ }

theorem Uses.clean (h : w.Uses conn ss w' raised) (hclean : w.Clean) (hconn : conn ∉ w.discarded) :
    w'.Clean := by
  intro s n hn
  rw [h.discarded]
  rcases h.stmt s n hn with hn | rfl
  · exact hclean s n hn
  · exact hconn

theorem Uses.trans (h : w.Uses conn ss w' raised) (h' : w'.Uses conn ss w'' raised') :
    w.Uses conn ss w'' raised' where
  made := h'.made.trans h.made
  vecConnection := h'.vecConnection.trans h.vecConnection
  discarded := h'.discarded.trans h.discarded
  lostCdrs := h'.lostCdrs.trans h.lostCdrs
  other s hs := (h'.other s hs).trans (h.other s hs)
  stmt s n hn := (h'.stmt s n hn).elim (h.stmt s n) .inr
  stale hclean hconn :=
    (h'.stale (h.clean hclean hconn) (h.discarded ▸ hconn)).trans (h.stale hclean hconn)
  lost n hn := by
    rcases h'.lost n hn with rfl | ⟨s, hs, hstmt⟩
    · exact .inl rfl
    · exact (h.stmt s n hstmt).symm.imp_right fun hstmt => ⟨s, hs, hstmt⟩

theorem useStmts_uses {prepare execute : Stmt → SqlResult}
    (heq : w.useStmts conn prepare execute ss = (w', raised)) : w.Uses conn ss w' raised := by
  induction ss generalizing w with
  | nil =>
    obtain ⟨rfl, rfl⟩ := Prod.mk.inj heq
    exact ⟨rfl, rfl, rfl, rfl, fun _ _ => rfl, fun _ _ => .inl, fun _ _ => rfl, nofun⟩
  | cons s ss ih =>
    have h := (w.useStmt_uses conn s (prepare s) (execute s)).mono (show ∀ s' ∈ [s], s' ∈ s :: ss by simp)
    unfold useStmts at heq
    split at heq
    next w₁ hw₁ =>
      rw [hw₁] at h
      exact h.trans ((ih heq).mono fun s' hs' => List.mem_cons_of_mem s hs')
    next w₁ raised₁ _ hw₁ =>
      obtain ⟨rfl, rfl⟩ := Prod.mk.inj heq
      rwa [hw₁] at h

end Uses

/-! ## One step -/

/-- No statement is kept on a connection that was given up, none was ever executed there, and no
    two records were lost with the same connection. -/
def Good (w : Statements) : Prop := w.Clean ∧ w.stale = [] ∧ w.lostCdrs.Nodup

/-- The connections that a step gives up because of a loss: the one that is lost, the one at
    hand and those of the pool. -/
def givesUp (w : Statements) : SqlEvent → List ℕ
  | .writeCdr cdr connect prepare execute =>
    match w.getConnection connect with
    | (none, _) => []
    | (some conn, w) =>
      match (w.useStmts conn prepare execute (stmtsOf cdr)).2 with
      | .lost n => n :: conn :: w.vecConnection
      | _ => []
  | .timer connect r =>
    match w.getConnection connect with
    | (none, _) => []
    | (some conn, w) =>
      match w.operate conn r with
      | .lost => conn :: w.vecConnection
      | _ => []
  | .connectionLost _ => []

/-- The statements that are reset at a loss. -/
def resets : SqlEvent → List Stmt
  | .writeCdr cdr _ _ _ => stmtsOf cdr
  | .timer _ _ => []
  | .connectionLost _ => []

/-- The connections given up have no statements but those that are reset. -/
def Alone (w : Statements) (e : SqlEvent) : Prop :=
  ∀ s n, w.stmt s = some n → n ∈ w.givesUp e → s ∈ resets e

structure Inv (w : Statements) : Prop where
  pool_lt : ∀ n ∈ w.vecConnection, n < w.made
  stmt_lt : ∀ s n, w.stmt s = some n → n < w.made
  discarded_lt : ∀ n ∈ w.discarded, n < w.made
  pool : ∀ n ∈ w.vecConnection, n ∉ w.discarded
  lost : ∀ n ∈ w.lostCdrs, n ∈ w.discarded

theorem alone_of_givesUp_eq_nil {w : Statements} {e : SqlEvent} (h : w.givesUp e = []) : w.Alone e := by
  intro s n _ hn
  rw [h] at hn
  exact absurd hn List.not_mem_nil

/-- The connection at hand was not given up. -/
theorem getConnection_spec {w w' : Statements} {connect : Bool} {conn : ℕ} (h : w.Inv)
    (hgood : w.Good) (heq : w.getConnection connect = (some conn, w')) :
    w'.Inv ∧ w'.Good ∧ conn < w'.made ∧ conn ∉ w'.discarded ∧ w'.stmt = w.stmt := by
  unfold getConnection at heq
  split at heq
  next n rest hpool =>
    obtain ⟨rfl, rfl⟩ : n = conn ∧ _ = w' := by simpa using heq
    have hmem : n ∈ w.vecConnection := hpool ▸ List.mem_cons_self
    have hrest : ∀ m ∈ rest, m ∈ w.vecConnection := fun m hm => hpool ▸ List.mem_cons_of_mem n hm
    refine ⟨⟨?_, h.stmt_lt, h.discarded_lt, ?_, h.lost⟩, hgood, h.pool_lt n hmem, h.pool n hmem, rfl⟩
    · exact fun m hm => h.pool_lt m (hrest m hm)
    · exact fun m hm => h.pool m (hrest m hm)
  next hpool =>
    cases connect with
    | true =>
      obtain ⟨rfl, rfl⟩ : w.made = conn ∧ _ = w' := by simpa using heq
      refine ⟨⟨?_, ?_, ?_, h.pool, h.lost⟩, hgood, Nat.lt_succ_self _, ?_, rfl⟩
      · exact fun m hm => Nat.lt_succ_of_lt (h.pool_lt m hm)
      · exact fun s m hm => Nat.lt_succ_of_lt (h.stmt_lt s m hm)
      · exact fun m hm => Nat.lt_succ_of_lt (h.discarded_lt m hm)
      · exact fun hd => Nat.lt_irrefl _ (h.discarded_lt _ hd)
    | false => simp at heq

theorem getConnection_none {w w' : Statements} {connect : Bool}
    (heq : w.getConnection connect = (none, w')) : w' = w := by
  unfold getConnection at heq
  split at heq
  · simp at heq
  · cases connect with
    | true => simp at heq
    | false => simpa using heq.symm

theorem Inv.releaseConnection {w : Statements} {conn : ℕ} (h : w.Inv) (hlt : conn < w.made)
    (hconn : conn ∉ w.discarded) : (w.releaseConnection conn).Inv := by
  refine ⟨fun n hn => ?_, h.stmt_lt, h.discarded_lt, fun n hn => ?_, h.lost⟩
  · rcases List.mem_append.1 hn with hn | hn
    · exact h.pool_lt n hn
    · exact List.mem_singleton.1 hn ▸ hlt
  · rcases List.mem_append.1 hn with hn | hn
    · exact h.pool n hn
    · exact List.mem_singleton.1 hn ▸ hconn

section Step

variable {w w₁ w₂ : Statements} {conn n : ℕ} {ss : List Stmt} {raised : Raised} {e : SqlEvent}

/-- A write function keeps the invariant, and what is good. -/
theorem Inv.uses (h : w₁.Inv) (hlt : conn < w₁.made) (hu : w₁.Uses conn ss w₂ raised) : w₂.Inv where
  pool_lt n hn := by
    rw [hu.made]
    exact h.pool_lt n (hu.vecConnection ▸ hn)
  stmt_lt s n hn := by
    rw [hu.made]
    rcases hu.stmt s n hn with hn | rfl
    · exact h.stmt_lt s n hn
    · exact hlt
  discarded_lt n hn := by
    rw [hu.made]
    exact h.discarded_lt n (hu.discarded ▸ hn)
  pool n hn := by
    rw [hu.discarded]
    exact h.pool n (hu.vecConnection ▸ hn)
  lost n hn := by
    rw [hu.discarded]
    exact h.lost n (hu.lostCdrs ▸ hn)

theorem Good.uses (h : w₁.Good) (hconn : conn ∉ w₁.discarded) (hu : w₁.Uses conn ss w₂ raised) :
    w₂.Good := by
  obtain ⟨hclean, hstale, hnodup⟩ := h
  exact ⟨hu.clean hclean hconn, (hu.stale hclean hconn).trans hstale, hu.lostCdrs ▸ hnodup⟩

/-- The pool is cleared because of a loss, with the connections `ns` at hand, which were not
    given up before. -/
theorem Inv.clear (h : w.Inv) (ns : List ℕ) (hlt : ∀ n ∈ ns, n < w.made) : (w.clear ns).Inv where
  pool_lt := nofun
  stmt_lt := h.stmt_lt
  discarded_lt n hn := by
    rcases List.mem_append.1 hn with hn | hn
    · exact (List.mem_append.1 hn).elim (hlt n) (h.pool_lt n)
    · exact h.discarded_lt n hn
  pool := nofun
  lost n hn := List.mem_append_right _ (h.lost n hn)

theorem clean_clear_iff (h : w.Clean) (ns : List ℕ) :
    (w.clear ns).Clean ↔ ∀ s n, w.stmt s = some n → n ∉ ns ++ w.vecConnection := by
  refine forall₂_congr fun s n => forall_congr' fun hn => ?_
  have := h s n hn
  simp [Statements.clear, this]

theorem reset_stmt_eq_some {s : Stmt} : (w.reset ss).stmt s = some n ↔ s ∉ ss ∧ w.stmt s = some n := by
  by_cases hs : s ∈ ss <;> simp [Statements.reset, hs]

/-- A write function that runs into a loss, from the connection at hand on. -/
theorem cleanStep_lost (h : w₁.Inv) (hgood : w₁.Good) (hlt : conn < w₁.made)
    (hconn : conn ∉ w₁.discarded) (hu : w₁.Uses conn ss w₂ (.lost n)) :
    { (w₂.reset ss).clear [n, conn] with lostCdrs := n :: w₂.lostCdrs }.Inv ∧
      ({ (w₂.reset ss).clear [n, conn] with lostCdrs := n :: w₂.lostCdrs }.Good ↔
        ∀ s m, w₁.stmt s = some m → m ∈ n :: conn :: w₁.vecConnection → s ∈ ss) := by
  have h₂ := h.uses hlt hu
  have hgood₂ := hgood.uses hconn hu
  -- The connection that is lost is the one at hand, or one with a statement.
  have hn : n < w₂.made ∧ n ∉ w₂.discarded := by
    rw [hu.made, hu.discarded]
    rcases hu.lost n rfl with rfl | ⟨s, -, hs⟩
    · exact ⟨hlt, hconn⟩
    · exact ⟨h.stmt_lt s n hs, hgood.1 s n hs⟩
  have hreset : (w₂.reset ss).Inv :=
    { h₂ with stmt_lt := fun s m hm => h₂.stmt_lt s m (reset_stmt_eq_some.1 hm).2 }
  have hclear := hreset.clear [n, conn] (by simpa using ⟨hn.1, hu.made ▸ hlt⟩)
  refine ⟨{ hclear with lost := fun m hm => ?_ }, ?_⟩
  · rcases List.mem_cons.1 hm with rfl | hm
    · exact List.mem_append_left _ (List.mem_append_left _ List.mem_cons_self)
    · exact hclear.lost m hm
  · have hclean : (w₂.reset ss).Clean := fun s m hm => hgood₂.1 s m (reset_stmt_eq_some.1 hm).2
    have hnodup : (n :: w₂.lostCdrs).Nodup :=
      List.nodup_cons.2 ⟨fun hm => hn.2 (h₂.lost n hm), hgood₂.2.2⟩
    constructor
    · rintro ⟨hclean', -, -⟩ s m hm hmem
      by_contra hs
      refine (clean_clear_iff hclean _).1 hclean' s m (reset_stmt_eq_some.2 ⟨hs, ?_⟩) ?_
      · rw [hu.other s hs, hm]
      · rw [show (w₂.reset ss).vecConnection = w₁.vecConnection from hu.vecConnection]
        exact hmem
    · intro hal
      refine ⟨(clean_clear_iff hclean _).2 fun s m hm hmem => ?_, hgood₂.2.1, hnodup⟩
      obtain ⟨hs, hm⟩ := reset_stmt_eq_some.1 hm
      rw [hu.other s hs] at hm
      rw [show (w₂.reset ss).vecConnection = w₁.vecConnection from hu.vecConnection] at hmem
      exact hs (hal s m hm hmem)

theorem writeCdr_spec {cdr : CdrInfo} {connect : Bool} {prepare execute : Stmt → SqlResult}
    (h : w.Inv) (hgood : w.Good) :
    (w.writeCdr cdr connect prepare execute).Inv ∧
      ((w.writeCdr cdr connect prepare execute).Good ↔
        w.Alone (.writeCdr cdr connect prepare execute)) := by
  rcases hget : w.getConnection connect with ⟨_ | conn, w₁⟩
  · obtain rfl := getConnection_none hget
    have hwrite : w₁.writeCdr cdr connect prepare execute = w₁ := by simp only [writeCdr, hget]
    rw [hwrite]
    exact ⟨h, iff_of_true hgood (alone_of_givesUp_eq_nil (by simp only [givesUp, hget]))⟩
  · obtain ⟨h₁, hgood₁, hlt, hconn, hstmt⟩ := getConnection_spec h hgood hget
    rcases huse : w₁.useStmts conn prepare execute (stmtsOf cdr) with ⟨w₂, raised⟩
    have hu := useStmts_uses huse
    have hrelease := (h₁.uses hlt hu).releaseConnection (hu.made ▸ hlt) (hu.discarded ▸ hconn)
    have hgood₂ : w₂.Good := hgood₁.uses hconn hu
    cases raised with
    | nothing =>
      have hwrite : w.writeCdr cdr connect prepare execute = w₂.releaseConnection conn := by
        simp only [writeCdr, hget, huse]
      rw [hwrite]
      exact ⟨hrelease, iff_of_true hgood₂
        (alone_of_givesUp_eq_nil (by simp only [givesUp, hget, huse]))⟩
    | error =>
      have hwrite : w.writeCdr cdr connect prepare execute = w₂.releaseConnection conn := by
        simp only [writeCdr, hget, huse]
      rw [hwrite]
      exact ⟨hrelease, iff_of_true hgood₂
        (alone_of_givesUp_eq_nil (by simp only [givesUp, hget, huse]))⟩
    | lost n =>
      have hgives : w.givesUp (.writeCdr cdr connect prepare execute) =
          n :: conn :: w₁.vecConnection := by
        simp only [givesUp, hget, huse]
      have hwrite : w.writeCdr cdr connect prepare execute =
          { (w₂.reset (stmtsOf cdr)).clear [n, conn] with lostCdrs := n :: w₂.lostCdrs } := by
        simp only [writeCdr, hget, huse]
      rw [hwrite, Alone, hgives, ← hstmt]
      exact cleanStep_lost h₁ hgood₁ hlt hconn hu

theorem timerHandler_spec {connect : Bool} {r : SqlResult} (h : w.Inv) (hgood : w.Good) :
    (w.timerHandler connect r).Inv ∧
      ((w.timerHandler connect r).Good ↔ w.Alone (.timer connect r)) := by
  rcases hget : w.getConnection connect with ⟨_ | conn, w₁⟩
  · obtain rfl := getConnection_none hget
    have htimer : w₁.timerHandler connect r = w₁ := by simp only [timerHandler, hget]
    rw [htimer]
    exact ⟨h, iff_of_true hgood (alone_of_givesUp_eq_nil (by simp only [givesUp, hget]))⟩
  · obtain ⟨h₁, hgood₁, hlt, hconn, hstmt⟩ := getConnection_spec h hgood hget
    cases hop : w₁.operate conn r with
    | ok =>
      have htimer : w.timerHandler connect r = w₁.releaseConnection conn := by
        simp only [timerHandler, hget, hop]
      rw [htimer]
      exact ⟨h₁.releaseConnection hlt hconn, iff_of_true hgood₁
        (alone_of_givesUp_eq_nil (by simp only [givesUp, hget, hop]))⟩
    | error =>
      have htimer : w.timerHandler connect r = w₁ := by simp only [timerHandler, hget, hop]
      rw [htimer]
      exact ⟨h₁, iff_of_true hgood₁ (alone_of_givesUp_eq_nil (by simp only [givesUp, hget, hop]))⟩
    | lost =>
      have hgives : w.givesUp (.timer connect r) = [conn] ++ w₁.vecConnection := by
        simp only [givesUp, hget, hop, List.singleton_append]
      have htimer : w.timerHandler connect r = { w₁.clear [conn] with dead := conn :: w₁.dead } := by
        simp only [timerHandler, hget, hop]
      have hclear := h₁.clear [conn] (by simpa using hlt)
      rw [htimer, Alone, hgives, ← hstmt]
      refine ⟨{ hclear with }, ⟨fun hg s m hm hmem => ?_, fun hal => ⟨?_, hgood₁.2⟩⟩⟩
      · exact absurd hmem ((clean_clear_iff hgood₁.1 [conn]).1 hg.1 s m hm)
      · exact (clean_clear_iff hgood₁.1 [conn]).2 fun s m hm hmem =>
          absurd (hal s m hm hmem) List.not_mem_nil

end Step

/-! ## Runs -/

theorem next_spec {w : Statements} (h : w.Inv) (hgood : w.Good) (e : SqlEvent) :
    (w.next e).Inv ∧ ((w.next e).Good ↔ w.Alone e) := by
  cases e with
  | writeCdr cdr connect prepare execute => exact writeCdr_spec h hgood
  | timer connect r => exact timerHandler_spec h hgood
  | connectionLost conn =>
    exact ⟨{ h with }, iff_of_true hgood (alone_of_givesUp_eq_nil rfl)⟩

theorem inv_empty : Inv {} := ⟨by simp, by simp, by simp, by simp, by simp⟩

theorem good_empty : Good {} := ⟨by simp [Clean], rfl, List.nodup_nil⟩

/-- **Statements stay on live connections.** No statement is kept or executed on a connection that
    was given up, and no connection costs more than one record, exactly if whenever a loss is
    noticed, the connections given up have no statements but those that are reset. -/
theorem good_iff {w : Statements} {es : List SqlEvent} (h : machine.IsRun w es) :
    machine.Always Good w es ↔ machine.Along Alone w es := by
  obtain ⟨rfl, hes⟩ := h
  exact Machine.always_iff_along (I := Inv) (fun _ e hI hQ _ _ => (next_spec hI hQ e).1)
    (fun _ e hI hQ _ => (next_spec hI hQ e).2) inv_empty good_empty hes

/-- A record of the type `t` is written, where the database does what it is asked. -/
def writeOk (t : CdrEvent) : SqlEvent :=
  .writeCdr { cdrType := t } true (fun _ => .ok) (fun _ => .ok)

/-- With records of one type only, a loss costs one of them. -/
theorem good_requests :
    machine.Always Good {} [writeOk .originationRequest, .connectionLost 0,
      writeOk .originationRequest, writeOk .originationRequest] := by
  have hrun : machine.IsRun {} [writeOk .originationRequest, .connectionLost 0,
      writeOk .originationRequest, writeOk .originationRequest] := by
    refine ⟨rfl, nofun, ?_, nofun, nofun, trivial⟩
    rintro conn ⟨⟩
    decide
  refine (good_iff hrun).2 ⟨?_, ?_, ?_, ?_, trivial⟩
  · exact alone_of_givesUp_eq_nil rfl
  · exact alone_of_givesUp_eq_nil rfl
  · intro s n hs _
    cases s with
    | orig => decide
    | final | cancel | term1 | term2 | bye1 | bye2 => exact nomatch hs
  · exact alone_of_givesUp_eq_nil rfl

/-- A loss that the insertion of a row notices costs the update of a row too: the statement of the
    update is still on the connection that was given up. -/
theorem not_good_finalResponse :
    ¬∀ (w : Statements) (es : List SqlEvent), machine.IsRun w es →
      machine.Always (fun w => w.stale = [] ∧ w.lostCdrs.Nodup) w es := by
  intro h
  have hrun : machine.IsRun {} [writeOk .originationRequest, writeOk .originationFinalResponse,
      .connectionLost 0, writeOk .originationRequest, writeOk .originationFinalResponse] := by
    refine ⟨rfl, nofun, nofun, ?_, nofun, nofun, trivial⟩
    rintro conn ⟨⟩
    decide
  obtain ⟨-, -, -, -, -, hlast⟩ := h _ _ hrun
  exact absurd hlast.head (by decide)

end Statements

end Ssp
