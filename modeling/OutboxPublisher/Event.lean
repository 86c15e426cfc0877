import OutboxPublisher.Error

/-!
# Events, contexts and JSON values

The data a publisher is given: the identifier of an event, the context that travels with it, and
the traits `DomainEvent` and `Serialize` of the event type. JSON values are those of `serde_json`;
turning a payload, a metadata map or a list of callbacks into a value may fail, and how it is done
is the business of the `Serialize` instance at hand.
-/

namespace OutboxPublisher

/-- A 128-bit identifier. Reference: `uuid::Uuid`. -/
abbrev Uuid := BitVec 128

/-- A JSON number; a float is kept by its bits. Reference: `serde_json::Number`. -/
inductive Number
  | posInt (n : UInt64)
  | negInt (n : Int64)
  | float (bits : UInt64)
  deriving DecidableEq

/-- A JSON value. Reference: `serde_json::Value`. -/
inductive Value
  | null
  | bool (b : Bool)
  | number (n : Number)
  | string (s : String)
  | array (items : List Value)
  | object (entries : List (String × Value))

/-- A JSON object on its own. Reference: `serde_json::Map<String, Value>`. -/
abbrev Map := List (String × Value)

/-- Identifier of a published outbox event. Reference: `EventId`
(`outbox-publisher/src/event.rs:8`). -/
structure EventId where
  uuid : Uuid
  deriving DecidableEq

/-- What the outbox needs to know of an event type. Reference: `DomainEvent`
(`outbox-publisher/src/domain_event.rs:36`). -/
class DomainEvent (E : Type) where
  kind : String
  aggregateType : String
  aggregateId : E → Uuid

/-- Conversion into a JSON value, which may fail. Reference: `serde_json::to_value` at
`E: Serialize`. -/
class Serialize (E : Type) where
  toValue : E → Except JsonError Value

/-- Request-level metadata carried into the outbox row. Reference: `EventContext`
(`outbox-publisher/src/event.rs:69`). -/
structure EventContext where
  actorId : Option Uuid
  correlationId : Option Uuid
  causationId : Option Uuid
  metadata : Map
  callbacks : List Value

namespace EventContext

/-- No identifiers, `{}` as metadata, no callbacks. Reference: `#[derive(Default)]` of
`EventContext` (`outbox-publisher/src/event.rs:68`). -/
def default : EventContext :=
  ⟨none, none, none, [], []⟩

/-- Set the actor. Reference: `for_actor` (`outbox-publisher/src/event.rs:109`). -/
def forActor (ctx : EventContext) (actorId : Uuid) : EventContext :=
  { ctx with actorId := some actorId }

/-- Set the correlation identifier. Reference: `with_correlation`
(`outbox-publisher/src/event.rs:115`). -/
def withCorrelation (ctx : EventContext) (correlationId : Uuid) : EventContext :=
  { ctx with correlationId := some correlationId }

/-- Set the causation identifier. Reference: `with_causation`
(`outbox-publisher/src/event.rs:121`). -/
def withCausation (ctx : EventContext) (causationId : Uuid) : EventContext :=
  { ctx with causationId := some causationId }

/-- Replace the metadata. Reference: `with_metadata` (`outbox-publisher/src/event.rs:132`). -/
def withMetadata (ctx : EventContext) (metadata : Map) : EventContext :=
  { ctx with metadata := metadata }

/-- Set the delivery targets. Reference: `with_callbacks`
(`outbox-publisher/src/event.rs:147`). -/
def withCallbacks (ctx : EventContext) (callbacks : List Value) : EventContext :=
  { ctx with callbacks := callbacks }

end EventContext

/-! ## A plain event -/

/-- A unit struct, as an event of the aggregate with the nil identifier. -/
structure ServiceStarted where

instance : DomainEvent ServiceStarted where
  kind := "service.started@v1"
  aggregateType := "service"
  aggregateId _ := 0

/-- A unit struct is `null` in JSON. -/
instance : Serialize ServiceStarted where
  toValue _ := .ok .null

/-- A context with one callback. Reference: `test_ctx` (`tests/integration_test.rs:84`). -/
def testCtx : EventContext :=
  EventContext.default.withCallbacks
    [.object [("name", .string "notify"), ("url", .string "https://example.com/hook")]]

namespace SerdeJson

/-- A map is an object. -/
scoped instance : Serialize Map where
  toValue entries := .ok (.object entries)

/-- A slice of values is an array. -/
scoped instance : Serialize (List Value) where
  toValue items := .ok (.array items)

end SerdeJson

end OutboxPublisher
