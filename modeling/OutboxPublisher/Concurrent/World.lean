import OutboxPublisher.Interaction.Runs
import OutboxPublisher.Publisher.Calls
import Mathlib.Logic.Function.Basic

/-!
# Concurrent transactions

Any number of clients, each with at most one open transaction on its own connection, publish into
one table. A publishing call is the program `Call.program`, taken apart call by call: an identifier
is drawn at one step, a statement sent at another, and the rows of an INSERT are inserted one by
one, the number of the sequence first and the row later. A row is visible to others when its
transaction commits. An INSERT that meets a key of an open transaction has no step until that
transaction is over; one that meets a committed key, or a key of its own transaction, fails with
23505. Any other error may befall an INSERT at any time, a client may crash at any time, and either
ends what the transaction holds.

`Step` is the relation. What a step does to the keys of the rows is said once, by `Step.effect`.
-/

namespace OutboxPublisher

open Interaction (Program Run Separated)

/-- What a call leads to, with what is still to be done. -/
abbrev CallProgram := Program Reply (Except PublishError (List EventId))

/-- What a client is doing in its transaction: nothing, running a call, or awaiting an INSERT with
some tuples still to be inserted. The tuple being inserted has its number of the sequence. -/
inductive Activity
  | idle
  | running (call : Call) (p : CallProgram)
  | inserting (call : Call) (current : Option (ℤ × Tuple)) (todo : List Tuple)
      (k : Except SqlxError Unit → CallProgram)

/-- An open transaction: the rows it has inserted, whether it is aborted, what its client is doing,
and what the calls in it have returned so far. -/
structure OpenTx where
  pending : List OutboxEvent
  aborted : Bool
  activity : Activity
  returned : List (Call × Except PublishError (List EventId))

/-- The database and the clients' open transactions. -/
structure World (κ : Type) where
  committed : List OutboxEvent
  seq : Sequence
  client : κ → Option OpenTx

/-- What a client, or the server for it, does in one step. -/
inductive Action
  | begin
  | call (call : Call)
  | newV4 (uuid : Uuid)
  | send
  | refused
  | nextval
  | insert
  | duplicate
  | fail (e : SqlxError)
  | complete
  | ret (call : Call) (result : Except PublishError (List EventId))
  | commit (returned : List (Call × Except PublishError (List EventId)))
  | rollback
  | crash

section
variable {κ : Type} [DecidableEq κ]

/-- The world with another transaction of a client. -/
def World.set (w : World κ) (c : κ) (tx : Option OpenTx) : World κ :=
  { w with client := Function.update w.client c tx }

variable [Serialize Map] [Serialize (List Value)]

/-- The steps of the world. Reference: `insert`, `insert_batch`
(`outbox-publisher-sqlx/src/lib.rs:119`, `:167`), `outbox_events` (`0001_initial_schema.sql:7`). -/
inductive Step (w : World κ) : κ × Action → World κ → Prop
  | begin {c : κ} (h : w.client c = none) :
      Step w (c, .begin) (w.set c (some ⟨[], false, .idle, []⟩))
  | call {c : κ} {pending aborted returned} (call : Call)
      (h : w.client c = some ⟨pending, aborted, .idle, returned⟩) :
      Step w (c, .call call)
        (w.set c (some ⟨pending, aborted, .running call (ExceptT.run call.program), returned⟩))
  | newV4 {c : κ} {pending aborted call k returned} (u : Uuid)
      (h : w.client c =
        some ⟨pending, aborted, .running call (.call Command.newV4 k), returned⟩) :
      Step w (c, .newV4 u) (w.set c (some ⟨pending, aborted, .running call (k u), returned⟩))
  | send {c : κ} {pending call stmt k returned ts}
      (h : w.client c =
        some ⟨pending, false, .running call (.call (Command.execute stmt) k), returned⟩)
      (hts : stmt.tuples = some ts) :
      Step w (c, .send) (w.set c (some ⟨pending, false, .inserting call none ts k, returned⟩))
  | refused {c : κ} {pending call stmt k returned}
      (h : w.client c =
        some ⟨pending, true, .running call (.call (Command.execute stmt) k), returned⟩) :
      Step w (c, .refused) (w.set c (some
        ⟨pending, true, .running call (k (.error (.database (some "25P02")))), returned⟩))
  | nextval {c : κ} {pending aborted call t todo k returned}
      (h : w.client c =
        some ⟨pending, aborted, .inserting call none (t :: todo) k, returned⟩)
      (hseq : w.seq.next < 2 ^ 63) :
      Step w (c, .nextval) { w.set c (some
        ⟨pending, aborted, .inserting call (some (w.seq.next, t)) todo k, returned⟩) with
          seq := ⟨w.seq.next + 1⟩ }
  | insert {c : κ} {pending aborted call id t todo k returned} (row : OutboxEvent)
      (h : w.client c =
        some ⟨pending, aborted, .inserting call (some (id, t)) todo k, returned⟩)
      (hrow : OutboxEvent.ofTuple id t = .ok row)
      (hfree : ¬ Collides (w.committed ++ pending) row)
      (hwait : ∀ d tx, d ≠ c → w.client d = some tx → ¬ Collides tx.pending row) :
      Step w (c, .insert) (w.set c (some
        ⟨pending ++ [row], aborted, .inserting call none todo k, returned⟩))
  | duplicate {c : κ} {pending aborted call id t todo k returned} (row : OutboxEvent)
      (h : w.client c =
        some ⟨pending, aborted, .inserting call (some (id, t)) todo k, returned⟩)
      (hrow : OutboxEvent.ofTuple id t = .ok row)
      (hcol : Collides (w.committed ++ pending) row) :
      Step w (c, .duplicate) (w.set c (some
        ⟨[], true, .running call (k (.error (.database (some uniqueViolation)))), returned⟩))
  | fail {c : κ} {pending aborted call current todo k returned} (e : SqlxError)
      (h : w.client c =
        some ⟨pending, aborted, .inserting call current todo k, returned⟩)
      (he : e ≠ .database (some uniqueViolation)) :
      Step w (c, .fail e) (w.set c (some ⟨[], true, .running call (k (.error e)), returned⟩))
  | complete {c : κ} {pending aborted call k returned}
      (h : w.client c = some ⟨pending, aborted, .inserting call none [] k, returned⟩) :
      Step w (c, .complete)
        (w.set c (some ⟨pending, aborted, .running call (k (.ok ())), returned⟩))
  | ret {c : κ} {pending aborted call result returned}
      (h : w.client c = some ⟨pending, aborted, .running call (.pure result), returned⟩) :
      Step w (c, .ret call result)
        (w.set c (some ⟨pending, aborted, .idle, returned ++ [(call, result)]⟩))
  | commit {c : κ} {pending aborted returned}
      (h : w.client c = some ⟨pending, aborted, .idle, returned⟩) :
      Step w (c, .commit returned)
        { w.set c none with committed := w.committed ++ pending }
  | rollback {c : κ} {pending aborted returned}
      (h : w.client c = some ⟨pending, aborted, .idle, returned⟩) :
      Step w (c, .rollback) (w.set c none)
  | crash {c : κ} {tx} (h : w.client c = some tx) : Step w (c, .crash) (w.set c none)

end

end OutboxPublisher
