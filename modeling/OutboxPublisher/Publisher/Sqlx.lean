import OutboxPublisher.Interaction.Program
import OutboxPublisher.Postgres.Session

/-!
# The publisher

`SqlxPublisher` as a program over two calls: a fresh identifier, and a statement sent on the
caller's transaction. What answers the calls is left open, so the same program runs in one
transaction (`Session.run`) and step by step among others. How the metadata and the callbacks become
JSON is up to the `Serialize` instances at hand, as it is for the event.
-/

namespace OutboxPublisher

open Interaction (Program)

/-- The calls a publisher makes. Reference: `Uuid::new_v4`, `Query::execute`. -/
inductive Command
  | newV4
  | execute (stmt : Statement)

/-- The answer to a call. -/
abbrev Reply : Command → Type
  | .newV4 => Uuid
  | .execute _ => Except SqlxError Unit

/-- A publisher's program: it makes calls and ends with a value or a `PublishError`. -/
abbrev PublishM := ExceptT PublishError (Program Reply)

/-- A fresh identifier. Reference: `Uuid::new_v4`. -/
def newV4 : PublishM Uuid :=
  ExceptT.lift (Program.perform Command.newV4)

/-- Send a statement and await its result. Reference: `Query::execute`. -/
def execute (stmt : Statement) : PublishM (Except SqlxError Unit) :=
  ExceptT.lift (Program.perform (Command.execute stmt))

/-- The operator `?` on a result of the JSON library. Reference: `#[from]`
(`outbox-publisher/src/error.rs:15`). -/
def fromSerde {α : Type} (x : Except JsonError α) : Except PublishError α :=
  x.mapError .serialization

/-- A context without callbacks is refused. Reference: `validate_callbacks`
(`outbox-publisher-sqlx/src/lib.rs:110`). -/
def validateCallbacks (ctx : EventContext) : Except PublishError Unit :=
  if ctx.callbacks.isEmpty then .error .missingCallbacks else .ok ()

/-- The result of a publisher from that of its statement. Reference: the `match result` of `insert`
and `insert_batch` (`outbox-publisher-sqlx/src/lib.rs:157`, `:238`). -/
def mapResult {α : Type} (a : α) : Except SqlxError Unit → Except PublishError α
  | .ok _ => .ok a
  | .error (.database code) =>
    if code = some "23505" then .error .duplicateEventId
    else .error (.database (.database code))
  | .error e => .error (.database e)

namespace SqlxPublisher

section
variable {E : Type} [DomainEvent E] [Serialize E] [Serialize Map] [Serialize (List Value)]

/-- The single-row INSERT shared by `append` and `appendWithId`. Reference: `insert`
(`outbox-publisher-sqlx/src/lib.rs:119`). -/
def insert (eventId : Uuid) (event : E) (ctx : EventContext) : PublishM EventId := do
  validateCallbacks ctx
  let payload ← fromSerde (Serialize.toValue event)
  let metadata ← fromSerde (Serialize.toValue ctx.metadata)
  let callbacks ← fromSerde (Serialize.toValue ctx.callbacks)
  let result ← execute <| .insertValues
    { eventId := eventId
      kind := DomainEvent.kind E
      aggregateType := DomainEvent.aggregateType E
      aggregateId := DomainEvent.aggregateId event
      payload := payload
      metadata := metadata
      callbacks := callbacks
      actorId := ctx.actorId
      correlationId := ctx.correlationId
      causationId := ctx.causationId }
  mapResult ⟨eventId⟩ result

/-- The body of the loop of `insertBatch`: push the ten values of one event. Reference:
`insert_batch` (`outbox-publisher-sqlx/src/lib.rs:195`). -/
def pushEvent (columns : Columns) (pair : E × EventContext) : PublishM Columns := do
  let (event, ctx) := pair
  let eventId ← newV4
  let payload ← fromSerde (Serialize.toValue event)
  let metadata ← fromSerde (Serialize.toValue ctx.metadata)
  let callbacks ← fromSerde (Serialize.toValue ctx.callbacks)
  return {
    eventIds := columns.eventIds ++ [eventId]
    kinds := columns.kinds ++ [DomainEvent.kind E]
    aggregateTypes := columns.aggregateTypes ++ [DomainEvent.aggregateType E]
    aggregateIds := columns.aggregateIds ++ [DomainEvent.aggregateId event]
    payloads := columns.payloads ++ [payload]
    metadatas := columns.metadatas ++ [metadata]
    callbacksList := columns.callbacksList ++ [callbacks]
    actorIds := columns.actorIds ++ [ctx.actorId]
    correlationIds := columns.correlationIds ++ [ctx.correlationId]
    causationIds := columns.causationIds ++ [ctx.causationId] }

/-- The batch INSERT. Reference: `insert_batch` (`outbox-publisher-sqlx/src/lib.rs:167`). -/
def insertBatch (events : List (E × EventContext)) : PublishM (List EventId) := do
  if events.isEmpty then
    return []
  events.forM fun (_, ctx) => validateCallbacks ctx
  let columns ← events.foldlM pushEvent Columns.empty
  let result ← execute (.insertUnnest columns)
  mapResult (columns.eventIds.map EventId.mk) result

/-- Append one event under a fresh identifier. Reference: `append`
(`outbox-publisher-sqlx/src/lib.rs:68`). -/
def append (event : E) (ctx : EventContext) : PublishM EventId := do
  let eventId ← newV4
  insert eventId event ctx

/-- Append one event under the caller's identifier. Reference: `append_with_id`
(`outbox-publisher-sqlx/src/lib.rs:82`). -/
def appendWithId (eventId : EventId) (event : E) (ctx : EventContext) : PublishM EventId :=
  insert eventId.uuid event ctx

/-- Append several events with one statement. Reference: `append_batch`
(`outbox-publisher-sqlx/src/lib.rs:96`). -/
def appendBatch (events : List (E × EventContext)) : PublishM (List EventId) :=
  insertBatch events

end

end SqlxPublisher

/-! ## Running in one transaction -/

namespace Session

variable {B : Type} (srv : Server)

/-- The answers of a session: its next identifier, and the result of the statement. -/
def handle : (c : Command) → Session B → Reply c × Session B
  | .newV4, s => (s.uuids 0, s.skip 1)
  | .execute stmt, s => s.execute srv stmt

/-- Run a publisher's program in a session. -/
def run {α : Type} (p : PublishM α) (s : Session B) : Except PublishError α × Session B :=
  Program.run (handle srv) (ExceptT.run p) s

section
variable {α β : Type} {srv}

@[simp] theorem run_pure (a : α) (s : Session B) :
    s.run srv (pure a : PublishM α) = (.ok a, s) := rfl

/-- The first error of a sequence ends it. -/
theorem run_bind (p : PublishM α) (f : α → PublishM β) (s : Session B) :
    s.run srv (p >>= f) =
      match s.run srv p with
      | (.error e, s) => (.error e, s)
      | (.ok a, s) => s.run srv (f a) := by
  rw [run, ExceptT.run_bind, Program.run_bind, run]
  cases Program.run (handle srv) (ExceptT.run p) s with
  | mk result s' => cases result <;> rfl

/-- A sequence succeeds when its first program does, and then the second from where that leads. -/
theorem run_bind_eq_ok_iff {p : PublishM α} {f : α → PublishM β} {s s' : Session B} {b : β} :
    s.run srv (p >>= f) = (.ok b, s') ↔
      ∃ a s₁, s.run srv p = (.ok a, s₁) ∧ s₁.run srv (f a) = (.ok b, s') := by
  rw [run_bind]
  obtain ⟨result, s₁⟩ := s.run srv p
  cases result with
  | error e => exact ⟨(nomatch ·), fun ⟨_, _, h, _⟩ => nomatch h⟩
  | ok a =>
    constructor
    · exact fun h => ⟨a, s₁, rfl, h⟩
    · rintro ⟨a', s₁', h, h'⟩
      obtain ⟨ha, rfl⟩ := Prod.mk.inj h
      exact Except.ok.inj ha ▸ h'

end

end Session

end OutboxPublisher
