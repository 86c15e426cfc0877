import OutboxPublisher.Publisher.Calls

/-!
# What `DuplicateEventId` means

The table has two unique indexes, on the id and on the event id, and the publisher tells a duplicate
by the SQLSTATE they share. `run_appendWithId_eq_duplicate_iff` says when it is returned, and
`appendWithId_duplicate_iff` when that is the same as the event id being in the table.
-/

namespace OutboxPublisher

namespace SqlxPublisher

section
variable {E : Type} [DomainEvent E] [Serialize E] [Serialize Map] [Serialize (List Value)]
  {B : Type} {srv : Server}

/-- The single-row call reports a duplicate when the server would store the row but for the unique
indexes, and it collides on either of them. -/
theorem run_appendWithId_eq_duplicate_iff {s : Session B} {work : Db B} (hs : s.tx = .active work)
    {eventId : EventId} {event : E} {ctx : EventContext} {p : Params}
    (henc : encode eventId.uuid event ctx = .ok p) :
    (s.run srv (appendWithId eventId event ctx)).1 = .error .duplicateEventId ↔
      ∃ row, Accepted srv s.seq p.tuple row ∧ Collides work.outbox row := by
  have hrun : (s.run srv (appendWithId eventId event ctx)).1 =
      mapResult eventId (s.insertTuples srv [p.tuple]).1 := by
    rw [Session.run, appendWithId, run_insert, henc]
    simp only
    rw [Session.run_send srv (Statement.tuples_insertValues p)]
  rw [hrun, mapResult_eq_duplicate_iff, ← insertRow_eq_unique_iff]
  simp only [Session.insertTuples, hs, insertRows]
  cases insertRow srv work.outbox s.seq p.tuple with
  | mk result seq =>
    cases result with
    | ok row => simp
    | error code => simp

/-- The server accepts the tuple on its own account, and the sequence has a number for it. -/
def Storable (srv : Server) (seq : Sequence) (t : Tuple) : Prop :=
  srv.refuse t = none ∧ seq.next < 2 ^ 63

omit [Serialize Map] [Serialize (List Value)] in
/-- A storable tuple of bound parameters with callbacks is accepted as a row. -/
theorem exists_accepted_iff {seq : Sequence} {p : Params}
    (hcallbacks : callbacksNonempty p.callbacks = true) :
    (∃ row, Accepted srv seq p.tuple row) ↔ Storable srv seq p.tuple := by
  have hcheck : p.tuple.Check := p.tuple_check_iff.2 hcallbacks
  rw [OutboxPublisher.exists_accepted_iff, Storable]
  simp only [p.tuple_notNull, hcheck, and_true]

omit [Serialize Map] [Serialize (List Value)] in
/-- An accepted row collides on the next number of the sequence or on its event id. -/
theorem exists_accepted_collides_iff {outbox : List OutboxEvent} {seq : Sequence} {p : Params}
    (hcallbacks : callbacksNonempty p.callbacks = true) :
    (∃ row, Accepted srv seq p.tuple row ∧ Collides outbox row) ↔ Storable srv seq p.tuple ∧
      ((∃ row ∈ outbox, row.id = seq.next) ∨ ∃ row ∈ outbox, row.eventId = p.eventId) := by
  have hkeys : ∀ {row}, Accepted srv seq p.tuple row →
      row.id = seq.next ∧ row.eventId = p.eventId := fun hacc =>
    ⟨hacc.id_eq, Option.some.inj (congrArg Tuple.eventId hacc.columns_eq)⟩
  rw [← exists_accepted_iff hcallbacks]
  constructor
  · rintro ⟨row, hacc, r, hr, hid | hev⟩
    · exact ⟨⟨row, hacc⟩, .inl ⟨r, hr, hid.trans (hkeys hacc).1⟩⟩
    · exact ⟨⟨row, hacc⟩, .inr ⟨r, hr, hev.trans (hkeys hacc).2⟩⟩
  · rintro ⟨⟨row, hacc⟩, ⟨r, hr, hid⟩ | ⟨r, hr, hev⟩⟩
    · exact ⟨row, hacc, r, hr, .inl (hid.trans (hkeys hacc).1.symm)⟩
    · exact ⟨row, hacc, r, hr, .inr (hev.trans (hkeys hacc).2.symm)⟩

/-- The tuple of an event: its payload and metadata are these values, its callbacks the array of the
context's. -/
def eventTuple (eventId : EventId) (event : E) (ctx : EventContext) (payload metadata : Value) :
    Tuple :=
  ⟨some eventId.uuid, some (DomainEvent.kind E), some (DomainEvent.aggregateType E),
    some (DomainEvent.aggregateId event), some payload, some metadata,
    some (.array ctx.callbacks), ctx.actorId, ctx.correlationId, ctx.causationId⟩

/-- An event that serialises, with a context that has callbacks, is encoded as its tuple. -/
theorem exists_encode (eventId : EventId) {event : E} {ctx : EventContext}
    {payload metadata : Value}
    (hpayload : Serialize.toValue event = .ok payload)
    (hmetadata : Serialize.toValue ctx.metadata = .ok metadata)
    (hcallbacks : Serialize.toValue ctx.callbacks = .ok (.array ctx.callbacks))
    (hnonempty : ctx.callbacks ≠ []) :
    ∃ p, encode eventId.uuid event ctx = .ok p ∧ p.eventId = eventId.uuid ∧
      p.tuple = eventTuple eventId event ctx payload metadata ∧
      callbacksNonempty p.callbacks = true := by
  have hvalid : validateCallbacks ctx = .ok () := by
    rw [validateCallbacks, if_neg (by simpa using hnonempty)]
  refine ⟨_, encode_eq_ok_iff.2 ⟨hvalid, _, _, _, hpayload, hmetadata, hcallbacks, rfl⟩, rfl, rfl,
    ?_⟩
  cases hcs : ctx.callbacks with
  | nil => exact absurd hcs hnonempty
  | cons c cs => rfl

variable (srv)

/-- **When a duplicate is a duplicate.** For an event that serialises and a context with callbacks,
`appendWithId` returns `DuplicateEventId` exactly when the event id is in the table, under the
following condition and under no other: if it is there, the new row is storable; if it is not, and
the new row is storable, the next number of the sequence is the id of no row. Reference:
`PublishError::DuplicateEventId` (`outbox-publisher/src/error.rs:4`). -/
theorem appendWithId_duplicate_iff (committed work : Db B) (seq : Sequence) (uuids : ℕ → Uuid)
    (eventId : EventId) (event : E) (ctx : EventContext) (payload metadata : Value)
    (hpayload : Serialize.toValue event = .ok payload)
    (hmetadata : Serialize.toValue ctx.metadata = .ok metadata)
    (hcallbacks : Serialize.toValue ctx.callbacks = .ok (.array ctx.callbacks))
    (hnonempty : ctx.callbacks ≠ []) :
    (((Session.mk committed seq (.active work) uuids).run srv
        (appendWithId eventId event ctx)).1 = .error .duplicateEventId ↔
      ∃ row ∈ work.outbox, row.eventId = eventId.uuid) ↔
    ((∃ row ∈ work.outbox, row.eventId = eventId.uuid) →
      Storable srv seq (eventTuple eventId event ctx payload metadata)) ∧
    ((¬ ∃ row ∈ work.outbox, row.eventId = eventId.uuid) →
      Storable srv seq (eventTuple eventId event ctx payload metadata) →
        ¬ ∃ row ∈ work.outbox, row.id = seq.next) := by
  obtain ⟨p, henc, hid, htuple, hcb⟩ :=
    exists_encode eventId hpayload hmetadata hcallbacks hnonempty
  rw [run_appendWithId_eq_duplicate_iff rfl henc, exists_accepted_collides_iff hcb, htuple, hid]
  generalize Storable srv seq (eventTuple eventId event ctx payload metadata) = storable
  generalize (∃ row ∈ work.outbox, row.eventId = eventId.uuid) = present
  constructor
  · intro h
    exact ⟨fun hp => (h.2 hp).1, fun hn hs htaken => hn (h.1 ⟨hs, .inl htaken⟩)⟩
  · rintro ⟨hstore, hfree⟩
    constructor
    · rintro ⟨hs, htaken | hp⟩
      · exact by_contra fun hn => hfree hn hs htaken
      · exact hp
    · exact fun hp => ⟨hstore hp, .inr hp⟩

end

section
open SerdeJson

/-- A server that refuses no row on its own account. -/
def lenient : Server :=
  ⟨fun _ => none, fun _ => (nomatch ·)⟩

/-- A row with the id 1, stored with an explicit id or by a restore that left the sequence
behind. -/
def restored : OutboxEvent :=
  startedRow 1 7

/-- On an empty table the condition holds, and the call reports no duplicate. -/
theorem appendWithId_duplicate_iff_empty :
    ((Session.mk ⟨[], ()⟩ ⟨1⟩ (.active ⟨[], ()⟩) fun _ => 0).run lenient
        (appendWithId ⟨9⟩ (ServiceStarted.mk) testCtx)).1 = .error .duplicateEventId ↔
      ∃ row ∈ ([] : List OutboxEvent), row.eventId = 9 :=
  (appendWithId_duplicate_iff lenient ⟨[], ()⟩ ⟨[], ()⟩ ⟨1⟩ (fun _ => 0) ⟨9⟩ ServiceStarted.mk
    testCtx .null (.object []) rfl rfl rfl (by decide)).2
    ⟨fun h => absurd h (by simp), fun _ _ h => absurd h (by simp)⟩

/-- **The id of a restored row is taken for a duplicate event id.** With the row 1 in the table and
the sequence still at 1, publishing under an event id that is not in the table reports a
duplicate. -/
theorem duplicate_of_taken_id :
    ((Session.mk ⟨[restored], ()⟩ ⟨1⟩ (.active ⟨[restored], ()⟩) fun _ => 0).run lenient
        (appendWithId ⟨9⟩ (ServiceStarted.mk) testCtx)).1 = .error .duplicateEventId ∧
      ¬ ∃ row ∈ [restored], row.eventId = 9 :=
  ⟨rfl, by decide⟩

end

end SqlxPublisher

end OutboxPublisher
