import OutboxPublisher.Postgres.Table

/-!
# Statements and one transaction

The statements a connection sends and what the server does with them in one transaction. An INSERT
binds either ten scalars (`Params`) or ten arrays (`Columns`) that UNNEST zips by position; either
way it is a list of tuples, and `unnest_ofParams` says that arrays filled row by row zip back to the
rows. A `Session` is a transaction over a committed database: a statement the server rejects leaves
it aborted, and only `commit` and `rollback` end it.
-/

namespace OutboxPublisher

/-! ## Bound parameters -/

/-- The ten scalars the single-row INSERT binds. Reference: `insert`
(`outbox-publisher-sqlx/src/lib.rs:135`). -/
structure Params where
  eventId : Uuid
  kind : String
  aggregateType : String
  aggregateId : Uuid
  payload : Value
  metadata : Value
  callbacks : Value
  actorId : Option Uuid
  correlationId : Option Uuid
  causationId : Option Uuid

/-- The tuple of ten bound scalars. -/
def Params.tuple (p : Params) : Tuple :=
  ⟨some p.eventId, some p.kind, some p.aggregateType, some p.aggregateId, some p.payload,
    some p.metadata, some p.callbacks, p.actorId, p.correlationId, p.causationId⟩

/-- A tuple of bound scalars satisfies the NOT NULL constraints. -/
theorem Params.tuple_notNull (p : Params) : p.tuple.NotNull :=
  ⟨rfl, rfl, rfl, rfl, rfl, rfl, rfl⟩

/-- It satisfies the CHECK exactly when the bound callbacks do. -/
theorem Params.tuple_check_iff (p : Params) :
    p.tuple.Check ↔ callbacksNonempty p.callbacks = true := by
  constructor
  · intro h
    exact h p.callbacks rfl
  · intro h callbacks hcallbacks
    exact Option.some.inj hcallbacks ▸ h

/-- The ten arrays the batch INSERT binds. Reference: `insert_batch`
(`outbox-publisher-sqlx/src/lib.rs:184`). -/
structure Columns where
  eventIds : List Uuid
  kinds : List String
  aggregateTypes : List String
  aggregateIds : List Uuid
  payloads : List Value
  metadatas : List Value
  callbacksList : List Value
  actorIds : List (Option Uuid)
  correlationIds : List (Option Uuid)
  causationIds : List (Option Uuid)

namespace Columns

/-- Ten empty arrays. -/
def empty : Columns :=
  ⟨[], [], [], [], [], [], [], [], [], []⟩

/-- The length of the longest array. -/
def length (c : Columns) : ℕ :=
  [c.eventIds.length, c.kinds.length, c.aggregateTypes.length, c.aggregateIds.length,
    c.payloads.length, c.metadatas.length, c.callbacksList.length, c.actorIds.length,
    c.correlationIds.length, c.causationIds.length].foldr max 0

/-- The rows of several arrays: element by element, a shorter array padded with NULL. Reference:
`UNNEST` with several arguments. -/
def unnest (c : Columns) : List Tuple :=
  (List.range c.length).map fun i =>
    ⟨c.eventIds[i]?, c.kinds[i]?, c.aggregateTypes[i]?, c.aggregateIds[i]?, c.payloads[i]?,
      c.metadatas[i]?, c.callbacksList[i]?, c.actorIds[i]?.join, c.correlationIds[i]?.join,
      c.causationIds[i]?.join⟩

/-- The arrays of a list of rows. -/
def ofParams (ps : List Params) : Columns :=
  ⟨ps.map (·.eventId), ps.map (·.kind), ps.map (·.aggregateType), ps.map (·.aggregateId),
    ps.map (·.payload), ps.map (·.metadata), ps.map (·.callbacks), ps.map (·.actorId),
    ps.map (·.correlationId), ps.map (·.causationId)⟩

@[simp] theorem length_ofParams (ps : List Params) : (ofParams ps).length = ps.length := by
  simp [length, ofParams]

/-- Arrays filled row by row zip back to the rows. -/
theorem unnest_ofParams (ps : List Params) : (ofParams ps).unnest = ps.map (·.tuple) := by
  refine List.ext_getElem (by simp [unnest]) fun i h _ => ?_
  have hi : i < ps.length := by simpa [unnest] using h
  simp [unnest, ofParams, Params.tuple, hi]

end Columns

/-! ## Statements -/

/-- The statements sent on a connection. Reference: `sqlx::query!`
(`outbox-publisher-sqlx/src/lib.rs:135`, `:212`), `Transaction::commit`, `Transaction::rollback`. -/
inductive Statement
  | insertValues (params : Params)
  | insertUnnest (columns : Columns)
  | commit
  | rollback

/-- The tuples an INSERT inserts. -/
def Statement.tuples : Statement → Option (List Tuple)
  | insertValues params => some [params.tuple]
  | insertUnnest columns => some columns.unnest
  | commit => none
  | rollback => none

/-- The single-row INSERT inserts the one tuple of its parameters. -/
theorem Statement.tuples_insertValues (p : Params) :
    (Statement.insertValues p).tuples = some [p.tuple] := rfl

/-- The outbox, and whatever else the caller's database holds. -/
structure Db (B : Type) where
  outbox : List OutboxEvent
  business : B

/-- The state of a transaction: at work on its own view of the database, aborted by a rejected
statement, or over. -/
inductive TxState (B : Type)
  | active (work : Db B)
  | aborted
  | ended

/-- A transaction over a committed database. The sequence is outside of it, and `uuids` are the
values `Uuid::new_v4` is going to return. -/
structure Session (B : Type) where
  committed : Db B
  seq : Sequence
  tx : TxState B
  uuids : ℕ → Uuid

namespace Session

variable {B : Type}

/-- Begin a transaction. Reference: `Pool::begin`. -/
def begin (committed : Db B) (seq : Sequence) (uuids : ℕ → Uuid) : Session B :=
  ⟨committed, seq, .active committed, uuids⟩

/-- The session after `n` more values of `Uuid::new_v4`. -/
def skip (s : Session B) (n : ℕ) : Session B :=
  { s with uuids := fun i => s.uuids (i + n) }

@[simp] theorem skip_zero (s : Session B) : s.skip 0 = s := rfl

theorem skip_skip (s : Session B) (m n : ℕ) : (s.skip m).skip n = s.skip (m + n) := by
  simp only [skip, Nat.add_assoc, Nat.add_comm n m]

section
variable (srv : Server)

/-- Execute an INSERT of tuples: all of them are inserted, or the transaction is aborted. A
transaction that is aborted takes no statement. -/
def insertTuples (s : Session B) (ts : List Tuple) : Except SqlxError Unit × Session B :=
  match s.tx with
  | .active work =>
    match insertRows srv work.outbox s.seq ts with
    | (.ok outbox, seq) =>
      (.ok (), { s with seq := seq, tx := .active { work with outbox := outbox } })
    | (.error code, seq) =>
      (.error (.database (some code)), { s with seq := seq, tx := .aborted })
  | .aborted => (.error (.database (some "25P02")), s)
  | .ended => (.error (.other "no transaction"), s)

/-- Execute a statement. A commit of an aborted transaction rolls it back. -/
def execute (s : Session B) : Statement → Except SqlxError Unit × Session B
  | .insertValues params => s.insertTuples srv [params.tuple]
  | .insertUnnest columns => s.insertTuples srv columns.unnest
  | .commit =>
    match s.tx with
    | .active work => (.ok (), { s with committed := work, tx := .ended })
    | .aborted => (.ok (), { s with tx := .ended })
    | .ended => (.error (.other "no transaction"), s)
  | .rollback =>
    match s.tx with
    | .ended => (.error (.other "no transaction"), s)
    | _ => (.ok (), { s with tx := .ended })

/-- Execute statements one after the other: the result of each, and the session afterwards. -/
def executeAll (s : Session B) : List Statement → List (Except SqlxError Unit) × Session B
  | [] => ([], s)
  | stmt :: stmts =>
    ((s.execute srv stmt).1 :: (executeAll (s.execute srv stmt).2 stmts).1,
      (executeAll (s.execute srv stmt).2 stmts).2)

variable {srv}

/-- An INSERT inserts its tuples. -/
theorem execute_of_tuples {stmt : Statement} {ts : List Tuple} (h : stmt.tuples = some ts)
    (s : Session B) : s.execute srv stmt = s.insertTuples srv ts := by
  cases stmt with
  | insertValues params => exact Option.some.inj h ▸ rfl
  | insertUnnest columns => exact Option.some.inj h ▸ rfl
  | commit => exact nomatch h
  | rollback => exact nomatch h

/-- A rollback leaves the committed database alone. -/
theorem rollback_committed (s : Session B) :
    (s.execute srv .rollback).2.committed = s.committed := by
  obtain ⟨committed, seq, tx, uuids⟩ := s
  cases tx <;> rfl

/-- A commit of an active transaction commits its view of the database. -/
theorem commit_active {s : Session B} {work : Db B} (h : s.tx = .active work) :
    (s.execute srv .commit).2.committed = work := by
  simp only [execute, h]

/-- A commit of an aborted transaction leaves the committed database alone. -/
theorem commit_aborted {s : Session B} (h : s.tx = .aborted) :
    (s.execute srv .commit).2.committed = s.committed := by
  simp only [execute, h]

/-- Nothing to insert changes nothing. -/
theorem insertTuples_nil {s : Session B} {work : Db B} (h : s.tx = .active work) :
    s.insertTuples srv [] = (.ok (), s) := by
  cases s
  subst h
  rfl

/-- The first tuple decides first, and the rest are inserted after it. -/
theorem insertTuples_cons {s : Session B} {work : Db B} (h : s.tx = .active work) (t : Tuple)
    (ts : List Tuple) : s.insertTuples srv (t :: ts) =
      match s.insertTuples srv [t] with
      | (.error e, s) => (.error e, s)
      | (.ok _, s) => s.insertTuples srv ts := by
  simp only [insertTuples, h, insertRows_cons work.outbox s.seq t ts]
  cases insertRows srv work.outbox s.seq [t] with
  | mk result seq => cases result <;> rfl

/-- The identifiers to come have no part in an INSERT. -/
theorem insertTuples_skip (s : Session B) (n : ℕ) (ts : List Tuple) :
    (s.skip n).insertTuples srv ts =
      ((s.insertTuples srv ts).1, (s.insertTuples srv ts).2.skip n) := by
  cases s with
  | mk committed seq tx uuids =>
    cases tx with
    | active work =>
      simp only [insertTuples, skip]
      cases insertRows srv work.outbox seq ts with
      | mk result seq => cases result <;> rfl
    | aborted => rfl
    | ended => rfl

/-- The identifiers to come have no part in a statement. -/
theorem execute_skip (s : Session B) (n : ℕ) (stmt : Statement) :
    (s.skip n).execute srv stmt =
      ((s.execute srv stmt).1, (s.execute srv stmt).2.skip n) := by
  cases stmt with
  | insertValues params => exact insertTuples_skip s n [params.tuple]
  | insertUnnest columns => exact insertTuples_skip s n columns.unnest
  | commit =>
    obtain ⟨committed, seq, tx, uuids⟩ := s
    cases tx <;> rfl
  | rollback =>
    obtain ⟨committed, seq, tx, uuids⟩ := s
    cases tx <;> rfl

/-- The identifiers to come have no part in what a transaction goes on to do. -/
theorem executeAll_skip (s : Session B) (n : ℕ) (stmts : List Statement) :
    (s.skip n).executeAll srv stmts =
      ((s.executeAll srv stmts).1, (s.executeAll srv stmts).2.skip n) := by
  induction stmts generalizing s with
  | nil => rfl
  | cons stmt stmts ih => rw [executeAll, execute_skip, ih, executeAll]

variable (srv) in
/-- An INSERT leaves the identifiers to come alone. -/
theorem insertTuples_uuids (s : Session B) (ts : List Tuple) :
    (s.insertTuples srv ts).2.uuids = s.uuids := by
  unfold insertTuples
  cases s.tx with
  | active work =>
    simp only
    cases insertRows srv work.outbox s.seq ts with
    | mk result seq => cases result <;> rfl
  | aborted => rfl
  | ended => rfl

variable (srv) in
/-- In an active transaction an INSERT adds one row per tuple with the tuple's columns, or aborts
the transaction with an error of the server. -/
theorem insertTuples_active {s : Session B} {work : Db B} (h : s.tx = .active work)
    (ts : List Tuple) :
    (∃ rows seq, rows.map (·.columns) = ts ∧ s.insertTuples srv ts =
      (.ok (), { s with seq := seq, tx := .active { work with outbox := work.outbox ++ rows } })) ∨
    ∃ code seq, s.insertTuples srv ts =
      (.error (.database (some code)), { s with seq := seq, tx := .aborted }) := by
  simp only [insertTuples, h]
  cases hins : insertRows srv work.outbox s.seq ts with
  | mk result seq =>
    cases result with
    | ok outbox =>
      obtain ⟨rows, rfl, hcols⟩ := insertRows_ok hins
      exact .inl ⟨rows, seq, hcols, rfl⟩
    | error code => exact .inr ⟨code, seq, rfl⟩

/-- An aborted transaction takes no INSERT. -/
theorem insertTuples_aborted {s : Session B} (h : s.tx = .aborted) (ts : List Tuple) :
    s.insertTuples srv ts = (.error (.database (some "25P02")), s) := by
  simp only [insertTuples, h]

/-- The constraints are no cause of an error of an INSERT whose tuples satisfy them. -/
theorem insertTuples_error {s : Session B} {ts : List Tuple} {code : SqlState}
    (hconform : ∀ t ∈ ts, t.NotNull ∧ t.Check)
    (h : (s.insertTuples srv ts).1 = .error (.database (some code))) :
    (∃ t ∈ ts, srv.refuse t = some code) ∨ code = "2200H" ∨ code = uniqueViolation ∨
      code = "25P02" := by
  unfold insertTuples at h
  cases htx : s.tx with
  | active work =>
    cases hins : insertRows srv work.outbox s.seq ts with
    | mk result seq =>
      cases result with
      | ok outbox =>
        simp only [htx, hins] at h
        cases h
      | error code' =>
        simp only [htx, hins] at h
        cases h
        rcases insertRows_error hconform hins with href | hend | hunique
        · exact .inl href
        · exact .inr (.inl hend)
        · exact .inr (.inr (.inl hunique))
  | aborted =>
    simp only [htx] at h
    cases h
    exact .inr (.inr (.inr rfl))
  | ended =>
    simp only [htx] at h
    cases h

variable (srv) in
/-- No INSERT ends the transaction or touches what is committed. -/
theorem insertTuples_frame (s : Session B) (ts : List Tuple) :
    (s.insertTuples srv ts).2.committed = s.committed ∧
      ((s.insertTuples srv ts).2.tx = .ended ↔ s.tx = .ended) := by
  cases htx : s.tx with
  | active work =>
    obtain ⟨rows, seq, -, heq⟩ | ⟨code, seq, heq⟩ := insertTuples_active srv htx ts
    · rw [heq]
      exact ⟨rfl, ⟨(nomatch ·), (nomatch ·)⟩⟩
    · rw [heq]
      exact ⟨rfl, ⟨(nomatch ·), (nomatch ·)⟩⟩
  | aborted =>
    rw [insertTuples_aborted htx, htx]
    exact ⟨rfl, Iff.rfl⟩
  | ended =>
    simp only [insertTuples, htx]
    trivial

end

end Session

end OutboxPublisher
