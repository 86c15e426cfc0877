import OutboxPublisher.Publisher.Atomicity

/-!
# Dropped calls

A publishing call is a future, which its caller may drop before it has returned, as a server does
when a request is given up. Nothing then tells how far the call has come. Whatever calls of a
transaction are dropped, and wherever, a commit persists of each of them all of its events or none
(`dropped_atomic`): there is no part of a batch.
-/

namespace OutboxPublisher

open Interaction (Program)

/-- What a caller may do in a transaction: an operation, or a call that is dropped after as many
calls to the driver. Reference: the futures of `Publisher`
(`outbox-publisher/src/publisher.rs:34`). -/
inductive Droppable (B : Type)
  | op (op : Op B)
  | dropped (call : Call) (n : ℕ)

namespace Droppable

variable {B : Type}

/-- What it does to the caller's own tables. -/
def effect : Droppable B → B → B
  | .op o => o.effect
  | .dropped _ _ => id

/-- What it published: an operation what it returned for, a dropped call all of its events, under
identifiers it would have returned, or none. -/
def Publishes : Droppable B → Returned → List Published → Prop
  | .op o, r, xs => xs = o.published r
  | .dropped call _, _, xs => xs = [] ∨ ∃ ids, call.Fits ids ∧ xs = call.published ids

/-- It may have aborted the transaction: an operation that failed at the server, or a call that was
dropped once it had begun. -/
def MayAbort : Droppable B → Returned → Prop
  | .op o, r => r.OfServer ∨ o.Rejected
  | .dropped _ n, _ => 0 < n

end Droppable

/-! ## A program that is stopped -/

section
variable {B : Type} {srv : Server}

variable (srv) in
/-- No answer to a draw or an INSERT ends the transaction or touches what is committed, and an
aborted transaction stays aborted. -/
theorem Session.handle_frame {c : Command} (hc : c.Inserts) (s : Session B) :
    (s.handle srv c).2.committed = s.committed ∧
      ((s.handle srv c).2.tx = .ended ↔ s.tx = .ended) ∧
      (s.tx = .aborted → (s.handle srv c).2.tx = .aborted) := by
  cases c with
  | newV4 => exact ⟨rfl, Iff.rfl, id⟩
  | execute stmt =>
    obtain ⟨ts, hts⟩ := Option.isSome_iff_exists.1 hc
    rw [Session.handle, Session.execute_of_tuples hts]
    obtain ⟨hcom, hend⟩ := Session.insertTuples_frame srv s ts
    refine ⟨hcom, hend, fun hs => ?_⟩
    rw [Session.insertTuples_aborted hs]
    exact hs

namespace Publishing

variable {α : Type} {Q : List Tuple → α → Prop} {p : Program Reply (Except PublishError α)}

/-- No publishing program that is stopped has ended the transaction or touched what is committed. -/
theorem runFor_frame (h : Publishing Q p) (n : ℕ) (s : Session B) :
    (Program.runFor (Session.handle srv) n p s).committed = s.committed ∧
      ((Program.runFor (Session.handle srv) n p s).tx = .ended ↔ s.tx = .ended) := by
  refine Program.runFor_induction (P := Command.Inserts)
    (I := fun s' : Session B => s'.committed = s.committed ∧ (s'.tx = .ended ↔ s.tx = .ended))
    (fun c s' hc hs' => ?_) h.calls n ⟨rfl, Iff.rfl⟩
  obtain ⟨hcom, hend, -⟩ := Session.handle_frame srv hc s'
  exact ⟨hcom.trans hs'.1, hend.trans hs'.2⟩

/-- An aborted transaction stays aborted. -/
theorem runFor_aborted (h : Publishing Q p) (n : ℕ) {s : Session B} (hs : s.tx = .aborted) :
    (Program.runFor (Session.handle srv) n p s).tx = .aborted :=
  Program.runFor_induction (P := Command.Inserts) (I := fun s' : Session B => s'.tx = .aborted)
    (fun _ s' hc => (Session.handle_frame srv hc s').2.2) h.calls n hs

variable (srv) in
/-- **A program that is stopped** in an active transaction. It has changed nothing yet, or has added
rows related to a value it would return, or has aborted the transaction. -/
theorem runFor_active (h : Publishing Q p) (n : ℕ) {s : Session B} {work : Db B}
    (hs : s.tx = .active work) :
    (Program.runFor (Session.handle srv) n p s).tx = .active work ∨
    (∃ a rows, Q (rows.map (·.columns)) a ∧ (Program.runFor (Session.handle srv) n p s).tx =
      .active { work with outbox := work.outbox ++ rows }) ∨
    (0 < n ∧ (Program.runFor (Session.handle srv) n p s).tx = .aborted) := by
  induction h generalizing n s with
  | draw _ ih =>
    cases n with
    | zero => exact .inl hs
    | succ n =>
      exact (ih (s.uuids 0) n (s := s.skip 1) hs).imp_right (Or.imp_right fun h =>
        ⟨Nat.succ_pos n, h.2⟩)
  | refuse _ | nothing _ => cases n <;> exact .inl hs
  | @send stmt ts a hts h =>
    cases n with
    | zero => exact .inl hs
    | succ n =>
      -- nothing is called after the statement, so the program is stopped by then or has ended
      have hstop : Program.runFor (Session.handle srv) (n + 1)
          (.call (Command.execute stmt) fun r => pure (mapResult a r)) s =
            (s.insertTuples srv ts).2 := by
        rw [Program.runFor, Session.handle, Session.execute_of_tuples hts]
        cases n <;> rfl
      rw [hstop]
      obtain ⟨rows, seq, hcols, hins⟩ | ⟨code, seq, hins⟩ := Session.insertTuples_active srv hs ts
      · rw [hins]
        exact .inr (.inl ⟨a, rows, hcols ▸ h, rfl⟩)
      · rw [hins]
        exact .inr (.inr ⟨Nat.succ_pos n, rfl⟩)

end Publishing

end

/-! ## Operations and dropped calls -/

section
variable {B : Type} [Serialize Map] [Serialize (List Value)] (srv : Server)

/-- Run one operation, or a call that is dropped. -/
def Droppable.run : Droppable B → Session B → Returned × Session B
  | .op o, s => o.run srv s
  | .dropped call n, s =>
    (none, Program.runFor (Session.handle srv) n (ExceptT.run call.program) s)

/-- Run them one after the other: what each returned, and the session afterwards. -/
def runDroppables : List (Droppable B) → Session B → List Returned × Session B
  | [], s => ([], s)
  | x :: xs, s =>
    ((x.run srv s).1 :: (runDroppables xs (x.run srv s).2).1, (runDroppables xs (x.run srv s).2).2)

variable {srv}

variable (srv) in
/-- None of them ends the transaction or touches what is committed. -/
theorem Droppable.run_frame (x : Droppable B) (s : Session B) :
    (x.run srv s).2.committed = s.committed ∧ ((x.run srv s).2.tx = .ended ↔ s.tx = .ended) := by
  cases x with
  | op o => exact o.run_frame srv s
  | dropped call n => exact call.publishing.runFor_frame n s

/-- An aborted transaction stays aborted. -/
theorem Droppable.run_aborted (x : Droppable B) {s : Session B} (hs : s.tx = .aborted) :
    (x.run srv s).2.tx = .aborted := by
  cases x with
  | op o => exact o.run_aborted hs
  | dropped call n => exact call.publishing.runFor_aborted n hs

variable (srv) in
/-- **One of them in an active transaction.** The transaction has gained the rows of what was
published and the effect on the caller's tables, or it is aborted. -/
theorem Droppable.run_active (x : Droppable B) {s : Session B} {work : Db B}
    (hs : s.tx = .active work) :
    (∃ rows xs, (x.run srv s).2.tx = .active ⟨work.outbox ++ rows, x.effect work.business⟩ ∧
      x.Publishes (x.run srv s).1 xs ∧ List.Forall₂ RecordsPublished rows xs) ∨
    (x.MayAbort (x.run srv s).1 ∧ (x.run srv s).2.tx = .aborted) := by
  cases x with
  | op o =>
    obtain ⟨-, -, rows, htx, hrows⟩ | hfailed := o.run_active srv hs
    · exact .inl ⟨rows, _, htx, rfl, hrows⟩
    · exact .inr hfailed
  | dropped call n =>
    obtain htx | ⟨ids, rows, ⟨hfits, hrows⟩, htx⟩ | hfailed :=
      call.publishing.runFor_active srv n hs
    · refine .inl ⟨[], [], ?_, .inl rfl, .nil⟩
      rw [List.append_nil]
      exact htx
    · exact .inl ⟨rows, _, htx, .inr ⟨ids, hfits, rfl⟩, forall₂_records hrows⟩
    · exact .inr hfailed

variable (srv) in
/-- No list of them ends the transaction or touches what is committed. -/
theorem runDroppables_frame (xs : List (Droppable B)) (s : Session B) :
    (runDroppables srv xs s).2.committed = s.committed ∧
      ((runDroppables srv xs s).2.tx = .ended ↔ s.tx = .ended) := by
  induction xs generalizing s with
  | nil => exact ⟨rfl, Iff.rfl⟩
  | cons x xs ih =>
    obtain ⟨hcom, hend⟩ := x.run_frame srv s
    exact ⟨(ih _).1.trans hcom, (ih _).2.trans hend⟩

/-- A run in an aborted transaction leaves it aborted. -/
theorem runDroppables_aborted (xs : List (Droppable B)) {s : Session B} (hs : s.tx = .aborted) :
    (runDroppables srv xs s).2.tx = .aborted := by
  induction xs generalizing s with
  | nil => exact hs
  | cons x xs ih => exact ih (x.run_aborted hs)

/-- What a run published, one list for each operation or dropped call. -/
abbrev AllPublish (xs : List (Droppable B)) (rs : List Returned) (parts : List (List Published)) :
    Prop :=
  List.Forall₂ (fun x part => x.1.Publishes x.2 part) (xs.zip rs) parts

variable (srv) in
/-- **A run in an active transaction.** The transaction has gained the rows of all that was
published, in order, and all the effects on the caller's tables; or it is aborted. -/
theorem runDroppables_active (xs : List (Droppable B)) {s : Session B} {work : Db B}
    (hs : s.tx = .active work) :
    (∃ rows parts, (runDroppables srv xs s).2.tx = .active ⟨work.outbox ++ rows,
        xs.foldl (fun b x => x.effect b) work.business⟩ ∧
      AllPublish xs (runDroppables srv xs s).1 parts ∧
      List.Forall₂ RecordsPublished rows parts.flatten) ∨
    ((∃ y ∈ xs.zip (runDroppables srv xs s).1, y.1.MayAbort y.2) ∧
      (runDroppables srv xs s).2.tx = .aborted) := by
  induction xs generalizing s work with
  | nil =>
    refine .inl ⟨[], [], ?_, .nil, .nil⟩
    rw [List.append_nil]
    exact hs
  | cons x xs ih =>
    obtain ⟨rows₁, part, htx₁, hpart, hrows₁⟩ | ⟨hmay, htx⟩ := x.run_active srv hs
    · obtain ⟨rows, parts, htx, hparts, hrows⟩ | ⟨⟨y, hy, hmay⟩, htx⟩ := ih htx₁
      · refine .inl ⟨rows₁ ++ rows, part :: parts, ?_, .cons hpart hparts,
          List.rel_append hrows₁ hrows⟩
        rw [← List.append_assoc]
        exact htx
      · exact .inr ⟨⟨y, List.mem_cons_of_mem _ hy, hmay⟩, htx⟩
    · exact .inr ⟨⟨_, List.mem_cons_self, hmay⟩, runDroppables_aborted xs htx⟩

variable (srv) in
/-- **Dropped calls are all or nothing.** In a transaction with any operations, in which any calls
are dropped after any number of steps: none of it ends the transaction, and a rollback leaves the
committed state as it was. A commit makes all the business writes and adds exactly the rows of what
was published, in order: of an operation what it returned `Ok` for, of a dropped call all of its
events or none. Or it persists nothing, and then an operation failed at the server or a call was
dropped once it had begun. Reference: `mock_publisher_does_not_record_until_awaited`
(`tests/publisher_mock_test.rs:215`). -/
theorem dropped_atomic (committed : Db B) (seq : Sequence) (uuids : ℕ → Uuid)
    (xs : List (Droppable B)) :
    (∀ n, (runDroppables srv (xs.take n) (.begin committed seq uuids)).2.tx ≠ .ended) ∧
    ((runDroppables srv xs (.begin committed seq uuids)).2.execute srv .rollback).2.committed =
      committed ∧
    ((∃ rows parts,
        ((runDroppables srv xs (.begin committed seq uuids)).2.execute srv .commit).2.committed =
          ⟨committed.outbox ++ rows, xs.foldl (fun b x => x.effect b) committed.business⟩ ∧
        AllPublish xs (runDroppables srv xs (.begin committed seq uuids)).1 parts ∧
        List.Forall₂ RecordsPublished rows parts.flatten) ∨
      ((∃ y ∈ xs.zip (runDroppables srv xs (.begin committed seq uuids)).1, y.1.MayAbort y.2) ∧
        ((runDroppables srv xs (.begin committed seq uuids)).2.execute srv .commit).2.committed =
          committed)) := by
  have hframe := runDroppables_frame srv xs (.begin committed seq uuids)
  refine ⟨fun n hn => ?_, (Session.rollback_committed _).trans hframe.1, ?_⟩
  · cases (runDroppables_frame srv (xs.take n) (.begin committed seq uuids)).2.1 hn
  · obtain ⟨rows, parts, htx, hparts, hrows⟩ | ⟨hmay, htx⟩ :=
      runDroppables_active srv xs (s := .begin committed seq uuids) rfl
    · exact .inl ⟨rows, parts, Session.commit_active htx, hparts, hrows⟩
    · exact .inr ⟨hmay, (Session.commit_aborted htx).trans hframe.1⟩

end

end OutboxPublisher
