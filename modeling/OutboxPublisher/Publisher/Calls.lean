import OutboxPublisher.Publisher.Shape

/-!
# The publishing calls

`append`, `appendWithId` and `appendBatch` have the shape `Publishing`: what they send are the
tuples of the events they were given, under the identifiers they return. The single-row call is
`encode` followed by the statement (`run_insert`); the batch call validates every context, fills its
ten arrays event by event (`run_pushEvent_bind`), and sends what the arrays zip to.
-/

namespace OutboxPublisher

open Interaction (Program)

namespace SqlxPublisher

section
variable {E : Type} [DomainEvent E] [Serialize E] [Serialize Map] [Serialize (List Value)]

/-- The single-row call is the encoding followed by the statement. Reference: `insert`
(`outbox-publisher-sqlx/src/lib.rs:119`). -/
theorem run_insert (eventId : Uuid) (event : E) (ctx : EventContext) :
    ExceptT.run (insert eventId event ctx) =
      match encode eventId event ctx with
      | .error e => pure (.error e)
      | .ok p => .call (Command.execute (.insertValues p)) fun r =>
          pure (mapResult ⟨eventId⟩ r) := by
  unfold insert encode
  cases validateCallbacks ctx with
  | error e => rfl
  | ok u =>
    cases fromSerde (Serialize.toValue event) with
    | error e => rfl
    | ok payload =>
      cases fromSerde (Serialize.toValue ctx.metadata) with
      | error e => rfl
      | ok metadata =>
        cases fromSerde (Serialize.toValue ctx.callbacks) with
        | error e => rfl
        | ok callbacks => rfl

/-- The single-row call sends the event's tuple and returns its identifier. -/
theorem insert_publishing (eventId : Uuid) (event : E) (ctx : EventContext) :
    Publishing (fun ts a => a = ⟨eventId⟩ ∧ ∃ t, ts = [t] ∧ Encodes t ⟨eventId⟩ event ctx)
      (ExceptT.run (insert eventId event ctx)) := by
  rw [run_insert]
  cases h : encode eventId event ctx with
  | error e => exact .refuse (encode_error h)
  | ok p => exact .send rfl ⟨rfl, p.tuple, rfl, p, h, rfl⟩

/-- `appendWithId` sends the event's tuple and returns the identifier it was given. Reference:
`append_with_id` (`outbox-publisher-sqlx/src/lib.rs:82`). -/
theorem appendWithId_publishing (eventId : EventId) (event : E) (ctx : EventContext) :
    Publishing (fun ts a => a = eventId ∧ ∃ t, ts = [t] ∧ Encodes t a event ctx)
      (ExceptT.run (appendWithId eventId event ctx)) := by
  refine (insert_publishing eventId.uuid event ctx).mono ?_
  rintro ts a ⟨rfl, t, rfl, ht⟩
  exact ⟨rfl, t, rfl, ht⟩

/-- `append` sends the event's tuple under the identifier it returns. Reference: `append`
(`outbox-publisher-sqlx/src/lib.rs:68`). -/
theorem append_publishing (event : E) (ctx : EventContext) :
    Publishing (fun ts a => ∃ t, ts = [t] ∧ Encodes t a event ctx)
      (ExceptT.run (append event ctx)) := by
  refine .draw fun u => (insert_publishing u event ctx).mono ?_
  rintro ts a ⟨rfl, h⟩
  exact h

end

/-! ## The batch call -/

section
variable {E : Type}

/-- The first context without callbacks refuses the whole batch. Reference: `insert_batch`
(`outbox-publisher-sqlx/src/lib.rs:179`). -/
def validateAll (events : List (E × EventContext)) : Except PublishError Unit :=
  events.forM fun (_, ctx) => validateCallbacks ctx

/-- Validation of a pair and the rest. -/
theorem validateAll_cons (pair : E × EventContext) (rest : List (E × EventContext)) :
    validateAll (pair :: rest) = validateCallbacks pair.2 >>= fun _ => validateAll rest := rfl

/-- The first loop makes no call. -/
theorem forM_validate (events : List (E × EventContext)) :
    (events.forM fun (_, ctx) => (liftM (validateCallbacks ctx) : PublishM Unit)) =
      liftM (validateAll events) := by
  induction events with
  | nil => rfl
  | cons pair rest ih =>
    show ((liftM (validateCallbacks pair.2) : PublishM Unit) >>= fun _ => rest.forM _) = _
    rw [ih, validateAll_cons]
    cases validateCallbacks pair.2 with
    | error e => rfl
    | ok u => rfl

/-- A batch is validated when each of its contexts is. -/
theorem validateAll_eq_ok_iff {events : List (E × EventContext)} :
    validateAll events = .ok () ↔ ∀ pair ∈ events, validateCallbacks pair.2 = .ok () := by
  induction events with
  | nil => exact ⟨fun _ _ h => (nomatch h), fun _ => rfl⟩
  | cons pair rest ih =>
    rw [validateAll_cons, List.forall_mem_cons, ← ih]
    cases validateCallbacks pair.2 with
    | error e => exact ⟨(nomatch ·), fun h => nomatch h.1⟩
    | ok u => exact ⟨fun h => ⟨rfl, h⟩, fun h => h.2⟩

/-- A refused batch is refused by a context. -/
theorem validateAll_error {events : List (E × EventContext)} {e : PublishError}
    (h : validateAll events = .error e) : ¬ e.OfServer := by
  induction events with
  | nil => exact nomatch h
  | cons pair rest ih =>
    rw [validateAll_cons] at h
    cases hv : validateCallbacks pair.2 with
    | error e' =>
      rw [hv] at h
      exact Except.error.inj h ▸ validateCallbacks_error hv
    | ok u =>
      rw [hv] at h
      exact ih h

end

section
variable {E : Type} [DomainEvent E] [Serialize E] [Serialize Map] [Serialize (List Value)]

/-- The statement of a batch and its result. Reference: `insert_batch`
(`outbox-publisher-sqlx/src/lib.rs:212`). -/
def sendColumns (columns : Columns) : PublishM (List EventId) := do
  let result ← execute (.insertUnnest columns)
  mapResult (columns.eventIds.map EventId.mk) result

/-- A batch that is not empty is the validation, the filling of the arrays and the statement.
Reference: `insert_batch` (`outbox-publisher-sqlx/src/lib.rs:167`). -/
theorem appendBatch_cons (pair : E × EventContext) (rest : List (E × EventContext)) :
    appendBatch (pair :: rest) = (do
      liftM (validateAll (pair :: rest))
      (pair :: rest).foldlM pushEvent (.ofParams []) >>= sendColumns) := by
  rw [appendBatch, insertBatch, ← forM_validate]
  rfl

/-- A batch that is validated is the filling of the arrays and the statement. -/
theorem appendBatch_of_valid {pair : E × EventContext} {rest : List (E × EventContext)}
    (h : validateAll (pair :: rest) = .ok ()) :
    appendBatch (pair :: rest) =
      (pair :: rest).foldlM pushEvent (.ofParams []) >>= sendColumns := by
  rw [appendBatch_cons, h]
  exact pure_bind () _

/-- A batch that is not validated makes no call. -/
theorem appendBatch_of_invalid {pair : E × EventContext} {rest : List (E × EventContext)}
    {e : PublishError} (h : validateAll (pair :: rest) = .error e) :
    ExceptT.run (appendBatch (pair :: rest)) = pure (.error e) := by
  rw [appendBatch_cons, h]
  rfl

/-- An event with callbacks costs one identifier, and its encoding is one more row of the arrays.
Reference: `insert_batch` (`outbox-publisher-sqlx/src/lib.rs:195`). -/
theorem run_pushEvent_bind {β : Type} (ps : List Params) (pair : E × EventContext)
    (hval : validateCallbacks pair.2 = .ok ()) (f : Columns → PublishM β) :
    ExceptT.run (pushEvent (.ofParams ps) pair >>= f) =
      .call Command.newV4 fun u =>
        match encode u pair.1 pair.2 with
        | .error e => pure (.error e)
        | .ok p => ExceptT.run (f (.ofParams (ps ++ [p]))) := by
  refine congrArg (Program.call Command.newV4) (funext fun u => ?_)
  unfold encode
  rw [hval]
  cases fromSerde (Serialize.toValue pair.1) with
  | error e => rfl
  | ok payload =>
    cases fromSerde (Serialize.toValue pair.2.metadata) with
    | error e => rfl
    | ok metadata =>
      cases fromSerde (Serialize.toValue pair.2.callbacks) with
      | error e => rfl
      | ok callbacks =>
        simp only [Columns.ofParams, List.map_append]
        rfl

/-- The values of an event carry the identifier they were encoded under. -/
theorem eventId_of_encode {eventId : Uuid} {event : E} {ctx : EventContext} {p : Params}
    (h : encode eventId event ctx = .ok p) : p.eventId = eventId := by
  obtain ⟨-, _, _, _, -, -, -, rfl⟩ := encode_eq_ok_iff.1 h
  rfl

/-- The rows are the encodings of the events, in order. -/
abbrev EncodeAll (ps : List Params) (events : List (E × EventContext)) : Prop :=
  List.Forall₂ (fun p pair => encode p.eventId pair.1 pair.2 = .ok p) ps events

/-- The events of a batch under the identifiers at their places. -/
def zipPublished (ids : List EventId) (events : List (E × EventContext)) : List Published :=
  List.zipWith (fun id pair => ⟨id, pair.1, pair.2⟩) ids events

/-- The tuples of a batch are those of its events under the identifiers of the rows. -/
theorem encodeAll_tuples {ps : List Params} {events : List (E × EventContext)}
    (h : EncodeAll ps events) : List.Forall₂ EncodesPublished (ps.map (·.tuple))
      (zipPublished (ps.map fun p => ⟨p.eventId⟩) events) := by
  induction h with
  | nil => exact .nil
  | cons hp _ ih => exact .cons ⟨_, hp, rfl⟩ ih

/-- The filling of the arrays and the statement, from arrays that hold the encodings of some events
on. -/
theorem foldlM_publishing {Q : List Tuple → List EventId → Prop} (rest : List (E × EventContext))
    (hval : ∀ pair ∈ rest, validateCallbacks pair.2 = .ok ()) :
    ∀ (sent : List (E × EventContext)) (ps : List Params), EncodeAll ps sent →
      (∀ all, EncodeAll all (sent ++ rest) →
        Q (all.map (·.tuple)) (all.map fun p => ⟨p.eventId⟩)) →
      Publishing Q (ExceptT.run (rest.foldlM pushEvent (.ofParams ps) >>= sendColumns)) := by
  induction rest with
  | nil =>
    intro sent ps hps hQ
    have hsend : Publishing Q (ExceptT.run (sendColumns (.ofParams ps))) := by
      refine .send (congrArg some (Columns.unnest_ofParams ps)) ?_
      have hall := hQ ps (by rwa [List.append_nil])
      rwa [Columns.ofParams, List.map_map]
    exact hsend
  | cons pair rest ih =>
    intro sent ps hps hQ
    rw [List.foldlM_cons, bind_assoc, run_pushEvent_bind ps pair (hval pair (by simp))]
    refine .draw fun u => ?_
    cases h : encode u pair.1 pair.2 with
    | error e => exact .refuse (encode_error h)
    | ok p =>
      refine ih (fun q hq => hval q (by simp [hq])) (sent ++ [pair]) (ps ++ [p]) ?_ ?_
      · rw [← eventId_of_encode h] at h
        exact List.rel_append hps (.cons h .nil)
      · simpa using hQ

/-- `appendBatch` sends the tuples of the events, in order, under the identifiers it returns.
Reference: `append_batch` (`outbox-publisher-sqlx/src/lib.rs:96`). -/
theorem appendBatch_publishing (events : List (E × EventContext)) :
    Publishing (fun ts ids => ids.length = events.length ∧
        List.Forall₂ EncodesPublished ts (zipPublished ids events))
      (ExceptT.run (appendBatch events)) := by
  cases events with
  | nil => exact .nothing ⟨rfl, .nil⟩
  | cons pair rest =>
    cases hval : validateAll (pair :: rest) with
    | error e =>
      rw [appendBatch_of_invalid hval]
      exact .refuse (validateAll_error hval)
    | ok u =>
      rw [appendBatch_of_valid hval]
      refine foldlM_publishing (pair :: rest) (validateAll_eq_ok_iff.1 hval) [] [] .nil ?_
      intro ps hps
      exact ⟨by simpa using List.Forall₂.length_eq hps, encodeAll_tuples hps⟩

end

end SqlxPublisher

/-! ## Any call -/

/-- A publishing call. Reference: `Publisher` (`outbox-publisher/src/publisher.rs:24`). -/
inductive Call
  | append {E : Type} [DomainEvent E] [Serialize E] (event : E) (ctx : EventContext)
  | appendWithId {E : Type} [DomainEvent E] [Serialize E] (eventId : EventId) (event : E)
      (ctx : EventContext)
  | appendBatch {E : Type} [DomainEvent E] [Serialize E] (events : List (E × EventContext))

namespace Call

/-- The events a call publishes, under the identifiers it returns. -/
def published : Call → List EventId → List Published
  | @append _ _ _ event ctx, ids => ids.map fun id => ⟨id, event, ctx⟩
  | @appendWithId _ _ _ _ event ctx, ids => ids.map fun id => ⟨id, event, ctx⟩
  | @appendBatch _ _ _ events, ids => SqlxPublisher.zipPublished ids events

/-- The call may return these identifiers: one, the one it was given, or one for each event. -/
def Fits : Call → List EventId → Prop
  | @append _ _ _ _ _, ids => ids.length = 1
  | @appendWithId _ _ _ eventId _ _, ids => ids = [eventId]
  | @appendBatch _ _ _ events, ids => ids.length = events.length

variable [Serialize Map] [Serialize (List Value)]

/-- The program of a call. -/
def program : Call → PublishM (List EventId)
  | @append _ _ _ event ctx => (fun id => [id]) <$> SqlxPublisher.append event ctx
  | @appendWithId _ _ _ eventId event ctx =>
    (fun id => [id]) <$> SqlxPublisher.appendWithId eventId event ctx
  | @appendBatch _ _ _ events => SqlxPublisher.appendBatch events

/-- **The shape of a call.** It sends the tuples of the events it publishes, and returns as many
identifiers as it was given events. -/
theorem publishing (call : Call) :
    Publishing (fun ts ids => call.Fits ids ∧
      List.Forall₂ EncodesPublished ts (call.published ids)) (ExceptT.run call.program) := by
  cases call with
  | append event ctx =>
    rw [program, ExceptT.run_map]
    refine (SqlxPublisher.append_publishing event ctx).map _ ?_
    rintro ts id ⟨t, rfl, ht⟩
    exact ⟨rfl, .cons ht .nil⟩
  | appendWithId eventId event ctx =>
    rw [program, ExceptT.run_map]
    refine (SqlxPublisher.appendWithId_publishing eventId event ctx).map _ ?_
    rintro ts id ⟨rfl, t, rfl, ht⟩
    exact ⟨rfl, .cons ht .nil⟩
  | appendBatch events => exact SqlxPublisher.appendBatch_publishing events

end Call

end OutboxPublisher
