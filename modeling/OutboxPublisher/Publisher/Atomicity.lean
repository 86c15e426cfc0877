import OutboxPublisher.Publisher.Calls

/-!
# Runs of one transaction

A transaction is a list of operations: publishing calls in any order, writes to the caller's own
tables, and statements of the caller's own that the server rejects. `Op.run_active` says what one
operation does to an active transaction and `runOps_active` what a list of them does;
`transaction_atomic` is the outcome after commit or rollback.
-/

namespace OutboxPublisher

open Interaction (Program)

/-- An operation of the caller in a transaction. -/
inductive Op (B : Type)
  | call (call : Call)
  | write (w : B → B)
  | rejected

/-- What an operation returned: the result of a call, nothing otherwise. -/
abbrev Returned := Option (Except PublishError (List EventId))

/-- The call returned `DuplicateEventId` or `Database`. -/
def ErrorOfServer : Except PublishError (List EventId) → Prop
  | .ok _ => False
  | .error e => e.OfServer

/-- The operation returned `DuplicateEventId` or `Database`. -/
def Returned.OfServer (r : Returned) : Prop :=
  ∃ result, r = some result ∧ ErrorOfServer result

/-! ## What the operations of a run wrote -/

/-- What a call published: nothing unless it returned `Ok`. -/
def Call.publishedBy (call : Call) : Except PublishError (List EventId) → List Published
  | .ok ids => call.published ids
  | .error _ => []

section
variable {B : Type}

namespace Op

/-- The events an operation published, under the identifiers it returned. -/
def published : Op B → Returned → List Published
  | .call c, some result => c.publishedBy result
  | _, _ => []

/-- What an operation does to the caller's own tables. -/
def effect : Op B → B → B
  | .write w => w
  | _ => id

/-- The server rejects the operation, a statement of the caller's own. -/
def Rejected : Op B → Prop
  | .rejected => True
  | _ => False

/-- The operation may return this: a call that returns `Ok` returns identifiers that fit it. -/
def Fits : Op B → Returned → Prop
  | .call c, some result => ∀ ids, result = .ok ids → c.Fits ids
  | .write _, none | .rejected, none => True
  | _, _ => False

end Op

/-- The events published by a run, in call order. -/
def published (ops : List (Op B)) (rs : List Returned) : List Published :=
  (ops.zip rs).flatMap fun x => x.1.published x.2

/-- All the business writes of a run. -/
def writes (ops : List (Op B)) (business : B) : B :=
  ops.foldl (fun b op => op.effect b) business

end

section
variable {B : Type} [Serialize Map] [Serialize (List Value)]

/-! ## Running operations -/

/-- A write to the caller's own tables; an aborted transaction takes none. -/
def Session.write (s : Session B) (w : B → B) : Session B :=
  match s.tx with
  | .active work => { s with tx := .active { work with business := w work.business } }
  | _ => s

/-- A statement that the server rejects aborts the transaction. -/
def Session.reject (s : Session B) : Session B :=
  match s.tx with
  | .active _ => { s with tx := .aborted }
  | _ => s

variable (srv : Server)

/-- Run one operation. -/
def Op.run : Op B → Session B → Returned × Session B
  | .call c, s => (some (s.run srv c.program).1, (s.run srv c.program).2)
  | .write w, s => (none, s.write w)
  | .rejected, s => (none, s.reject)

/-- Run the operations one after the other: what each returned, and the session afterwards. -/
def runOps : List (Op B) → Session B → List Returned × Session B
  | [], s => ([], s)
  | op :: ops, s =>
    ((op.run srv s).1 :: (runOps ops (op.run srv s).2).1, (runOps ops (op.run srv s).2).2)

variable {srv}

/-! ## One operation -/

variable (srv) in
/-- No operation ends the transaction or touches what is committed. -/
theorem Op.run_frame (op : Op B) (s : Session B) :
    (op.run srv s).2.committed = s.committed ∧
      ((op.run srv s).2.tx = .ended ↔ s.tx = .ended) := by
  cases op with
  | call c => exact c.publishing.run_frame s
  | write w =>
    obtain ⟨committed, seq, tx, uuids⟩ := s
    cases tx with
    | active work => exact ⟨rfl, ⟨(nomatch ·), (nomatch ·)⟩⟩
    | aborted | ended => exact ⟨rfl, Iff.rfl⟩
  | rejected =>
    obtain ⟨committed, seq, tx, uuids⟩ := s
    cases tx with
    | active work => exact ⟨rfl, ⟨(nomatch ·), (nomatch ·)⟩⟩
    | aborted | ended => exact ⟨rfl, Iff.rfl⟩

/-- An aborted transaction stays aborted. -/
theorem Op.run_aborted (op : Op B) {s : Session B} (hs : s.tx = .aborted) :
    (op.run srv s).2.tx = .aborted := by
  cases op with
  | call c => exact c.publishing.run_aborted hs
  | write w =>
    rw [Op.run, Session.write, hs]
    exact hs
  | rejected =>
    rw [Op.run, Session.reject, hs]
    exact hs

/-- An operation returns what fits it, whatever the transaction. -/
theorem Op.run_fits (op : Op B) (s : Session B) : op.Fits (op.run srv s).1 := by
  cases op with
  | call c =>
    intro ids hids
    obtain ⟨-, hfits, -⟩ := c.publishing.run_ok hids
    exact hfits
  | write w => trivial
  | rejected => trivial

variable (srv) in
/-- One publishing call in an active transaction: it returns no error of the server and the
transaction has gained the rows of what it published, or the transaction is aborted. -/
theorem Call.run_active (call : Call) {s : Session B} {work : Db B} (hs : s.tx = .active work) :
    (¬ ErrorOfServer (s.run srv call.program).1 ∧ ∃ rows,
      (s.run srv call.program).2.tx = .active ⟨work.outbox ++ rows, work.business⟩ ∧
      List.Forall₂ RecordsPublished rows (call.publishedBy (s.run srv call.program).1)) ∨
    (ErrorOfServer (s.run srv call.program).1 ∧ (s.run srv call.program).2.tx = .aborted) := by
  obtain ⟨ids, rows, hok, ⟨-, hrows⟩, htx⟩ | ⟨e, herr, hof, htx⟩ | ⟨e, herr, hof, htx⟩ :=
    call.publishing.run_active srv hs
  · rw [Session.run, hok]
    exact .inl ⟨id, rows, htx, forall₂_records hrows⟩
  · rw [Session.run, herr]
    refine .inl ⟨hof, [], ?_, .nil⟩
    rw [List.append_nil]
    exact htx
  · rw [Session.run, herr]
    exact .inr ⟨hof, htx⟩

variable (srv) in
/-- **One operation in an active transaction.** Either it returns no error of the server and is not
rejected, and the transaction has gained the rows of what it published and its effect on the
caller's tables; or the transaction is aborted. -/
theorem Op.run_active (op : Op B) {s : Session B} {work : Db B} (hs : s.tx = .active work) :
    (¬ (op.run srv s).1.OfServer ∧ ¬ op.Rejected ∧ ∃ rows,
      (op.run srv s).2.tx = .active ⟨work.outbox ++ rows, op.effect work.business⟩ ∧
      List.Forall₂ RecordsPublished rows (op.published (op.run srv s).1)) ∨
    (((op.run srv s).1.OfServer ∨ op.Rejected) ∧ (op.run srv s).2.tx = .aborted) := by
  cases op with
  | call c =>
    obtain ⟨hno, rows, htx, hrows⟩ | ⟨hof, htx⟩ := c.run_active srv hs
    · refine .inl ⟨?_, id, rows, htx, hrows⟩
      rintro ⟨result, hresult, hof⟩
      exact hno (Option.some.inj hresult ▸ hof)
    · exact .inr ⟨.inl ⟨_, rfl, hof⟩, htx⟩
  | write w =>
    obtain ⟨committed, seq, tx, uuids⟩ := s
    subst hs
    refine .inl ⟨fun ⟨_, h, _⟩ => (nomatch h), id, [], ?_, .nil⟩
    rw [List.append_nil]
    rfl
  | rejected =>
    obtain ⟨committed, seq, tx, uuids⟩ := s
    subst hs
    exact .inr ⟨.inr trivial, rfl⟩

/-! ## Runs -/

variable (srv) in
/-- No run ends the transaction or touches what is committed. -/
theorem runOps_frame (ops : List (Op B)) (s : Session B) :
    (runOps srv ops s).2.committed = s.committed ∧
      ((runOps srv ops s).2.tx = .ended ↔ s.tx = .ended) := by
  induction ops generalizing s with
  | nil => exact ⟨rfl, Iff.rfl⟩
  | cons op ops ih =>
    obtain ⟨hcom, hend⟩ := op.run_frame srv s
    exact ⟨(ih _).1.trans hcom, (ih _).2.trans hend⟩

/-- A run in an aborted transaction leaves it aborted. -/
theorem runOps_aborted (ops : List (Op B)) {s : Session B} (hs : s.tx = .aborted) :
    (runOps srv ops s).2.tx = .aborted := by
  induction ops generalizing s with
  | nil => exact hs
  | cons op ops ih => exact ih (op.run_aborted hs)

/-- Every operation of a run returns what fits it. -/
theorem runOps_fits (ops : List (Op B)) (s : Session B) :
    List.Forall₂ Op.Fits ops (runOps srv ops s).1 := by
  induction ops generalizing s with
  | nil => exact .nil
  | cons op ops ih => exact .cons (op.run_fits s) (ih _)

variable (srv) in
/-- **A run in an active transaction.** Either no operation failed at the server, and the
transaction has gained the rows of all that was published, in order, and all the business writes; or
one did, and the transaction is aborted. -/
theorem runOps_active (ops : List (Op B)) {s : Session B} {work : Db B}
    (hs : s.tx = .active work) :
    ((∀ r ∈ (runOps srv ops s).1, ¬ r.OfServer) ∧ (∀ op ∈ ops, ¬ op.Rejected) ∧ ∃ rows,
      (runOps srv ops s).2.tx = .active ⟨work.outbox ++ rows, writes ops work.business⟩ ∧
      List.Forall₂ RecordsPublished rows (published ops (runOps srv ops s).1)) ∨
    (((∃ r ∈ (runOps srv ops s).1, r.OfServer) ∨ ∃ op ∈ ops, op.Rejected) ∧
      (runOps srv ops s).2.tx = .aborted) := by
  induction ops generalizing s work with
  | nil =>
    refine .inl ⟨fun _ h => (nomatch h), fun _ h => (nomatch h), [], ?_, .nil⟩
    rw [List.append_nil]
    exact hs
  | cons op ops ih =>
    obtain ⟨hr, hrej, rows₁, htx₁, hrows₁⟩ | ⟨hbad, htx⟩ := op.run_active srv hs
    · obtain ⟨hrs, hrejs, rows, htx, hrows⟩ | ⟨hbad, htx⟩ := ih htx₁
      · refine .inl ⟨List.forall_mem_cons.2 ⟨hr, hrs⟩, List.forall_mem_cons.2 ⟨hrej, hrejs⟩,
          rows₁ ++ rows, ?_, List.rel_append hrows₁ hrows⟩
        rw [← List.append_assoc]
        exact htx
      · refine .inr ⟨hbad.imp ?_ ?_, htx⟩
        · exact fun ⟨r, hr, hof⟩ => ⟨r, List.mem_cons_of_mem _ hr, hof⟩
        · exact fun ⟨o, ho, hof⟩ => ⟨o, List.mem_cons_of_mem _ ho, hof⟩
    · refine .inr ⟨hbad.imp ?_ ?_, runOps_aborted ops htx⟩
      · exact fun hof => ⟨_, List.mem_cons_self, hof⟩
      · exact fun hrej => ⟨op, List.mem_cons_self, hrej⟩

variable (srv) in
/-- **Transactional outbox atomicity.** In a transaction with any operations, at any length: no
operation ends it; a rollback leaves the committed state as it was; every call returns as many
identifiers as it was given events. A commit adds to the outbox exactly the rows of the calls that
returned `Ok`, in call order, and makes all the business writes, when no call returned
`DuplicateEventId` or `Database` and the server rejected no statement of the caller's own; when a
call did, it persists nothing. Reference: `append_batch_rollback_leaves_no_rows`
(`tests/integration_test.rs:583`). -/
theorem transaction_atomic (committed : Db B) (seq : Sequence) (uuids : ℕ → Uuid)
    (ops : List (Op B)) :
    (∀ n, (runOps srv (ops.take n) (.begin committed seq uuids)).2.tx ≠ .ended) ∧
    ((runOps srv ops (.begin committed seq uuids)).2.execute srv .rollback).2.committed =
      committed ∧
    List.Forall₂ Op.Fits ops (runOps srv ops (.begin committed seq uuids)).1 ∧
    ((∀ r ∈ (runOps srv ops (.begin committed seq uuids)).1, ¬ r.OfServer) →
      (∀ op ∈ ops, ¬ op.Rejected) → ∃ rows,
      ((runOps srv ops (.begin committed seq uuids)).2.execute srv .commit).2.committed =
        ⟨committed.outbox ++ rows, writes ops committed.business⟩ ∧
      List.Forall₂ RecordsPublished rows
        (published ops (runOps srv ops (.begin committed seq uuids)).1)) ∧
    ((∃ r ∈ (runOps srv ops (.begin committed seq uuids)).1, r.OfServer) →
      ((runOps srv ops (.begin committed seq uuids)).2.execute srv .commit).2.committed =
        committed) := by
  have hframe := runOps_frame srv ops (.begin committed seq uuids)
  have hactive := runOps_active srv ops (s := .begin committed seq uuids) rfl
  refine ⟨fun n hn => ?_, ?_, runOps_fits ops _, fun hok hrej => ?_, fun hof => ?_⟩
  · exact nomatch (runOps_frame srv (ops.take n) (.begin committed seq uuids)).2.1 hn
  · exact (Session.rollback_committed _).trans hframe.1
  · obtain ⟨-, -, rows, htx, hrows⟩ | ⟨⟨r, hr, hof⟩ | ⟨op, hop, hr⟩, -⟩ := hactive
    · exact ⟨rows, Session.commit_active htx, hrows⟩
    · exact absurd hof (hok r hr)
    · exact absurd hr (hrej op hop)
  · obtain ⟨hok, -, -⟩ | ⟨-, htx⟩ := hactive
    · obtain ⟨r, hr, hof⟩ := hof
      exact absurd hof (hok r hr)
    · exact (Session.commit_aborted htx).trans hframe.1

end

end OutboxPublisher
