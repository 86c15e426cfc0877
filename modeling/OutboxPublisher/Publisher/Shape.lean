import OutboxPublisher.Publisher.Sqlx
import Mathlib.Data.List.Forall2

/-!
# The shape of a publisher's program

Every publishing call draws identifiers and serialises, may give up on the way with an error of its
own, and otherwise sends one INSERT and ends with what `mapResult` makes of the answer. `Publishing`
is that shape, with a relation between the tuples sent and the value returned;
`appendWithId_publishing`, `append_publishing` and `appendBatch_publishing` are the three calls.
`Publishing.run_active` says what a program of that shape does to a transaction.
-/

namespace OutboxPublisher

open Interaction (Program)

/-! ## What a row records -/

section
variable {E : Type} [DomainEvent E] [Serialize E] [Serialize Map] [Serialize (List Value)]

/-- The ten values of an event and its context under an identifier, or the error of the first step
that fails. Reference: `insert` (`outbox-publisher-sqlx/src/lib.rs:129`). -/
def encode (eventId : Uuid) (event : E) (ctx : EventContext) : Except PublishError Params := do
  validateCallbacks ctx
  let payload ← fromSerde (Serialize.toValue event)
  let metadata ← fromSerde (Serialize.toValue ctx.metadata)
  let callbacks ← fromSerde (Serialize.toValue ctx.callbacks)
  return ⟨eventId, DomainEvent.kind E, DomainEvent.aggregateType E, DomainEvent.aggregateId event,
    payload, metadata, callbacks, ctx.actorId, ctx.correlationId, ctx.causationId⟩

/-- The row holds the event and its context under the identifier, in all ten columns. -/
structure Records (row : OutboxEvent) (eventId : EventId) (event : E) (ctx : EventContext) :
    Prop where
  eventId_eq : row.eventId = eventId.uuid
  kind_eq : row.kind = DomainEvent.kind E
  aggregateType_eq : row.aggregateType = DomainEvent.aggregateType E
  aggregateId_eq : row.aggregateId = DomainEvent.aggregateId event
  payload_eq : Serialize.toValue event = .ok row.payload
  metadata_eq : Serialize.toValue ctx.metadata = .ok row.metadata
  callbacks_eq : Serialize.toValue ctx.callbacks = .ok row.callbacks
  actorId_eq : row.actorId = ctx.actorId
  correlationId_eq : row.correlationId = ctx.correlationId
  causationId_eq : row.causationId = ctx.causationId

/-- An encoded event has callbacks and serialises, and its values are those of the event. -/
theorem encode_eq_ok_iff {eventId : Uuid} {event : E} {ctx : EventContext} {p : Params} :
    encode eventId event ctx = .ok p ↔ validateCallbacks ctx = .ok () ∧
      ∃ payload metadata callbacks, Serialize.toValue event = .ok payload ∧
        Serialize.toValue ctx.metadata = .ok metadata ∧
        Serialize.toValue ctx.callbacks = .ok callbacks ∧
        p = ⟨eventId, DomainEvent.kind E, DomainEvent.aggregateType E,
          DomainEvent.aggregateId event, payload, metadata, callbacks, ctx.actorId,
          ctx.correlationId, ctx.causationId⟩ := by
  unfold encode fromSerde
  cases validateCallbacks ctx with
  | error e => exact ⟨(nomatch ·), fun h => nomatch h.1⟩
  | ok u =>
    cases Serialize.toValue event with
    | error e => exact ⟨(nomatch ·), fun ⟨_, _, _, _, h, _⟩ => nomatch h⟩
    | ok payload =>
      cases Serialize.toValue ctx.metadata with
      | error e => exact ⟨(nomatch ·), fun ⟨_, _, _, _, _, h, _⟩ => nomatch h⟩
      | ok metadata =>
        cases Serialize.toValue ctx.callbacks with
        | error e => exact ⟨(nomatch ·), fun ⟨_, _, _, _, _, _, h, _⟩ => nomatch h⟩
        | ok callbacks =>
          constructor
          · intro h
            exact ⟨rfl, payload, metadata, callbacks, rfl, rfl, rfl, (Except.ok.inj h).symm⟩
          · rintro ⟨-, _, _, _, h₁, h₂, h₃, rfl⟩
            rw [← Except.ok.inj h₁, ← Except.ok.inj h₂, ← Except.ok.inj h₃]
            rfl

/-- A row with the columns of an encoded event records it. -/
theorem Records.of_encode {eventId : Uuid} {event : E} {ctx : EventContext} {p : Params}
    {row : OutboxEvent} (h : encode eventId event ctx = .ok p) (hrow : row.columns = p.tuple) :
    Records row ⟨eventId⟩ event ctx := by
  obtain ⟨-, payload, metadata, callbacks, hpayload, hmetadata, hcallbacks, rfl⟩ :=
    encode_eq_ok_iff.1 h
  simp only [OutboxEvent.columns, Params.tuple, Tuple.mk.injEq, Option.some.injEq] at hrow
  obtain ⟨h₁, h₂, h₃, h₄, h₅, h₆, h₇, h₈, h₉, h₁₀⟩ := hrow
  exact ⟨h₁, h₂, h₃, h₄, h₅ ▸ hpayload, h₆ ▸ hmetadata, h₇ ▸ hcallbacks, h₈, h₉, h₁₀⟩

/-- The event has a tuple under the identifier, this one. -/
def Encodes (t : Tuple) (eventId : EventId) (event : E) (ctx : EventContext) : Prop :=
  ∃ p, encode eventId.uuid event ctx = .ok p ∧ p.tuple = t

/-- A row with the columns of an encoded event records it. -/
theorem Encodes.records {eventId : EventId} {event : E} {ctx : EventContext} {row : OutboxEvent}
    (h : Encodes row.columns eventId event ctx) : Records row eventId event ctx := by
  obtain ⟨p, hp, ht⟩ := h
  exact Records.of_encode hp ht.symm

end

/-- An event that was published under an identifier. -/
structure Published where
  {E : Type}
  [domainEvent : DomainEvent E]
  [serialize : Serialize E]
  eventId : EventId
  event : E
  ctx : EventContext

attribute [instance] Published.domainEvent Published.serialize

section
variable [Serialize Map] [Serialize (List Value)]

/-- The row records a published event. -/
def RecordsPublished (row : OutboxEvent) (x : Published) : Prop :=
  Records row x.eventId x.event x.ctx

/-- The tuple is that of a published event. -/
def EncodesPublished (t : Tuple) (x : Published) : Prop :=
  Encodes t x.eventId x.event x.ctx

/-- Rows with the columns of the events' tuples record the events. -/
theorem forall₂_records {rows : List OutboxEvent} {xs : List Published}
    (h : List.Forall₂ EncodesPublished (rows.map (·.columns)) xs) :
    List.Forall₂ RecordsPublished rows xs :=
  (List.forall₂_map_left_iff.1 h).imp fun _ _ hx => Encodes.records hx

end

/-! ## Errors -/

/-- The error stems from an answer of the server. -/
def PublishError.OfServer : PublishError → Prop
  | .duplicateEventId | .database _ => True
  | .missingCallbacks | .serialization _ => False

/-- An error before the statement does not stem from the server. -/
theorem validateCallbacks_error {ctx : EventContext} {e : PublishError}
    (h : validateCallbacks ctx = .error e) : ¬ e.OfServer := by
  unfold validateCallbacks at h
  split at h
  · exact Except.error.inj h ▸ id
  · exact nomatch h

/-- A JSON error does not stem from the server. -/
theorem fromSerde_error {α : Type} {x : Except JsonError α} {e : PublishError}
    (h : fromSerde x = .error e) : ¬ e.OfServer := by
  cases x with
  | error source => exact Except.error.inj h ▸ id
  | ok a => exact nomatch h

/-- An error of the encoding does not stem from the server. -/
theorem encode_error {E : Type} [DomainEvent E] [Serialize E] [Serialize Map]
    [Serialize (List Value)] {eventId : Uuid} {event : E} {ctx : EventContext} {e : PublishError}
    (h : encode eventId event ctx = .error e) : ¬ e.OfServer := by
  unfold encode at h
  cases h₁ : validateCallbacks ctx with
  | error e₁ => exact Except.error.inj (h₁ ▸ h : (.error e₁ : Except _ Params) = _) ▸
      validateCallbacks_error h₁
  | ok u =>
    cases h₂ : fromSerde (Serialize.toValue event) with
    | error e₂ =>
      rw [h₁, h₂] at h
      exact Except.error.inj h ▸ fromSerde_error h₂
    | ok payload =>
      cases h₃ : fromSerde (Serialize.toValue ctx.metadata) with
      | error e₃ =>
        rw [h₁, h₂, h₃] at h
        exact Except.error.inj h ▸ fromSerde_error h₃
      | ok metadata =>
        cases h₄ : fromSerde (Serialize.toValue ctx.callbacks) with
        | error e₄ =>
          rw [h₁, h₂, h₃, h₄] at h
          exact Except.error.inj h ▸ fromSerde_error h₄
        | ok callbacks =>
          rw [h₁, h₂, h₃, h₄] at h
          exact nomatch h

/-- An error of the statement is an error that stems from the server. -/
theorem mapResult_error {α : Type} (a : α) (e : SqlxError) :
    ∃ err, mapResult a (.error e) = .error err ∧ err.OfServer := by
  cases e with
  | database code =>
    by_cases h : code = some "23505"
    · exact ⟨_, if_pos h, trivial⟩
    · exact ⟨_, if_neg h, trivial⟩
  | other message => exact ⟨_, rfl, trivial⟩

/-- The value at hand may be mapped before or after. -/
theorem map_mapResult {α β : Type} (f : α → β) (a : α) (r : Except SqlxError Unit) :
    (mapResult a r).map f = mapResult (f a) r := by
  cases r with
  | ok u => rfl
  | error e =>
    cases e with
    | database code =>
      by_cases h : code = some "23505"
      · simp only [mapResult, if_pos h]
        rfl
      · simp only [mapResult, if_neg h]
        rfl
    | other message => rfl

/-- A value is returned when the statement succeeded, and then it is the one at hand. -/
theorem mapResult_eq_ok_iff {α : Type} {a a' : α} {r : Except SqlxError Unit} :
    mapResult a r = .ok a' ↔ r = .ok () ∧ a' = a := by
  cases r with
  | ok u => exact ⟨fun h => ⟨rfl, (Except.ok.inj h).symm⟩, fun h => h.2 ▸ rfl⟩
  | error e =>
    obtain ⟨err, herr, -⟩ := mapResult_error a e
    rw [herr]
    exact ⟨(nomatch ·), fun h => nomatch h.1⟩

/-- Only a violated unique index is reported as a duplicate. -/
theorem mapResult_eq_duplicate_iff {α : Type} {a : α} {r : Except SqlxError Unit} :
    mapResult a r = .error .duplicateEventId ↔ r = .error (.database (some uniqueViolation)) := by
  cases r with
  | ok u => exact ⟨(nomatch ·), (nomatch ·)⟩
  | error e =>
    cases e with
    | database code =>
      by_cases h : code = some "23505"
      · subst h
        exact ⟨fun _ => rfl, fun _ => rfl⟩
      · rw [mapResult, if_neg h]
        refine ⟨(nomatch ·), fun hc => absurd ?_ h⟩
        injection hc with hc
        injection hc
    | other message => exact ⟨(nomatch ·), (nomatch ·)⟩

/-- Any other error of the statement is reported as it is. -/
theorem mapResult_eq_database_iff {α : Type} {a : α} {r : Except SqlxError Unit} {e : SqlxError} :
    mapResult a r = .error (.database e) ↔
      r = .error e ∧ e ≠ .database (some uniqueViolation) := by
  cases r with
  | ok u => exact ⟨(nomatch ·), fun h => nomatch h.1⟩
  | error e' =>
    cases e' with
    | database code =>
      by_cases h : code = some "23505"
      · subst h
        refine ⟨(nomatch ·), ?_⟩
        rintro ⟨he, hne⟩
        exact absurd (Except.error.inj he).symm hne
      · rw [mapResult, if_neg h, Except.error.injEq, PublishError.database.injEq,
          Except.error.injEq]
        refine ⟨?_, fun h => h.1⟩
        rintro rfl
        exact ⟨rfl, fun hc => h (SqlxError.database.inj hc)⟩
    | other message =>
      rw [mapResult, Except.error.injEq, PublishError.database.injEq, Except.error.injEq]
      · refine ⟨?_, fun h => h.1⟩
        rintro rfl
        exact ⟨rfl, fun hc => by cases hc⟩
      · rintro code hc
        cases hc

/-- Sending an INSERT in a session: the result of the statement is mapped, and the session is the
one the statement leads to. -/
theorem Session.run_send {B α : Type} (srv : Server) {stmt : Statement} {ts : List Tuple}
    (hts : stmt.tuples = some ts) (a : α) (s : Session B) :
    Program.run (Session.handle srv)
        (.call (Command.execute stmt) fun r => pure (mapResult a r)) s =
      (mapResult a (s.insertTuples srv ts).1, (s.insertTuples srv ts).2) := by
  rw [Program.run_call, Session.handle, Session.execute_of_tuples hts]
  rfl

/-! ## The shape -/

/-- The program draws identifiers and ends with an error of its own, or sends one INSERT, of tuples
related to the value it returns when the INSERT succeeds, or has nothing to send. -/
inductive Publishing {α : Type} (Q : List Tuple → α → Prop) :
    Program Reply (Except PublishError α) → Prop
  | draw {k : Uuid → Program Reply (Except PublishError α)} (h : ∀ u, Publishing Q (k u)) :
      Publishing Q (.call Command.newV4 k)
  | refuse {e : PublishError} (h : ¬ e.OfServer) : Publishing Q (pure (.error e))
  | send {stmt : Statement} {ts : List Tuple} {a : α} (hts : stmt.tuples = some ts) (h : Q ts a) :
      Publishing Q (.call (Command.execute stmt) fun r => pure (mapResult a r))
  | nothing {a : α} (h : Q [] a) : Publishing Q (pure (.ok a))

/-- To map what a statement's result is mapped to is to map it to another value. -/
theorem map_send {α β : Type} (f : α → β) (stmt : Statement) (a : α) :
    (Except.map f <$> (Program.call (Command.execute stmt) fun r => pure (mapResult a r)) :
      Program Reply (Except PublishError β)) =
        .call (Command.execute stmt) fun r => pure (mapResult (f a) r) :=
  congrArg (Program.call (Command.execute stmt))
    (funext fun r => congrArg Program.pure (map_mapResult f a r))

/-- The call is a fresh identifier or an INSERT. -/
def Command.Inserts : Command → Prop
  | .newV4 => True
  | .execute stmt => stmt.tuples.isSome

namespace Publishing

variable {α : Type} {Q : List Tuple → α → Prop} {p : Program Reply (Except PublishError α)}

/-- The relation may be weakened. -/
theorem mono {Q' : List Tuple → α → Prop} (h : Publishing Q p) (hQ : ∀ ts a, Q ts a → Q' ts a) :
    Publishing Q' p := by
  induction h with
  | draw _ ih => exact .draw ih
  | refuse he => exact .refuse he
  | send hts h => exact .send hts (hQ _ _ h)
  | nothing h => exact .nothing (hQ _ _ h)

/-- The value returned may be mapped. -/
theorem map {β : Type} {Q' : List Tuple → β → Prop} (f : α → β) (h : Publishing Q p)
    (hQ : ∀ ts a, Q ts a → Q' ts (f a)) : Publishing Q' (Except.map f <$> p) := by
  induction h with
  | draw _ ih => exact .draw ih
  | refuse he => exact .refuse he
  | @send stmt ts a hts h =>
    rw [map_send]
    exact .send hts (hQ _ _ h)
  | nothing h => exact .nothing (hQ _ _ h)

/-- A publishing program sends INSERTs only. -/
theorem calls (h : Publishing Q p) : p.Calls Command.Inserts := by
  induction h with
  | draw _ ih => exact ⟨trivial, ih⟩
  | refuse _ => trivial
  | send hts _ => exact ⟨Option.isSome_iff_exists.2 ⟨_, hts⟩, fun _ => trivial⟩
  | nothing _ => trivial

section
variable {B : Type} {srv : Server}

/-- No publishing program ends the transaction or touches what is committed. -/
theorem run_frame (h : Publishing Q p) (s : Session B) :
    (Program.run (Session.handle srv) p s).2.committed = s.committed ∧
      ((Program.run (Session.handle srv) p s).2.tx = .ended ↔ s.tx = .ended) := by
  refine Program.run_induction (P := Command.Inserts)
    (I := fun s' : Session B => s'.committed = s.committed ∧ (s'.tx = .ended ↔ s.tx = .ended))
    ?_ h.calls ⟨rfl, Iff.rfl⟩
  intro c s' hc hs'
  cases c with
  | newV4 => exact hs'
  | execute stmt =>
    obtain ⟨ts, hts⟩ := Option.isSome_iff_exists.1 hc
    obtain ⟨hcom, hend⟩ := Session.insertTuples_frame srv s' ts
    rw [Session.handle, Session.execute_of_tuples hts]
    exact ⟨hcom.trans hs'.1, hend.trans hs'.2⟩

/-- A value that is returned is related to some tuples. -/
theorem run_ok (h : Publishing Q p) {s : Session B} {a : α}
    (ha : (Program.run (Session.handle srv) p s).1 = .ok a) : ∃ ts, Q ts a := by
  induction h generalizing s with
  | draw _ ih => exact ih (s.uuids 0) (s := s.skip 1) ha
  | refuse _ => exact nomatch ha
  | @send stmt ts a' hts h =>
    rw [Session.run_send srv hts] at ha
    obtain ⟨-, rfl⟩ := mapResult_eq_ok_iff.1 ha
    exact ⟨ts, h⟩
  | nothing h =>
    obtain rfl := Except.ok.inj ha
    exact ⟨[], h⟩

/-- An aborted transaction stays aborted. -/
theorem run_aborted (h : Publishing Q p) {s : Session B} (hs : s.tx = .aborted) :
    (Program.run (Session.handle srv) p s).2.tx = .aborted := by
  refine Program.run_induction (P := Command.Inserts)
    (I := fun s' : Session B => s'.tx = .aborted) ?_ h.calls hs
  intro c s' hc hs'
  cases c with
  | newV4 => exact hs'
  | execute stmt =>
    obtain ⟨ts, hts⟩ := Option.isSome_iff_exists.1 hc
    rw [Session.handle, Session.execute_of_tuples hts, Session.insertTuples_aborted hs']
    exact hs'

variable (srv) in
/-- **One publishing program in an active transaction.** It returns a value and has added rows
related to it, or it gives up with an error of its own and has changed nothing, or it returns an
error of the server and has aborted the transaction. -/
theorem run_active (h : Publishing Q p) {s : Session B} {work : Db B} (hs : s.tx = .active work) :
    (∃ a rows, (Program.run (Session.handle srv) p s).1 = .ok a ∧
      Q (rows.map (·.columns)) a ∧ (Program.run (Session.handle srv) p s).2.tx =
        .active { work with outbox := work.outbox ++ rows }) ∨
    (∃ e, (Program.run (Session.handle srv) p s).1 = .error e ∧ ¬ e.OfServer ∧
      (Program.run (Session.handle srv) p s).2.tx = .active work) ∨
    ∃ e, (Program.run (Session.handle srv) p s).1 = .error e ∧ e.OfServer ∧
      (Program.run (Session.handle srv) p s).2.tx = .aborted := by
  induction h generalizing s with
  | draw _ ih => exact ih (s.uuids 0) (s := s.skip 1) hs
  | refuse he => exact .inr (.inl ⟨_, rfl, he, hs⟩)
  | nothing h =>
    refine .inl ⟨_, [], rfl, h, ?_⟩
    rw [List.append_nil]
    exact hs
  | @send stmt ts a hts h =>
    rw [Session.run_send srv hts]
    obtain ⟨rows, seq, hcols, hins⟩ | ⟨code, seq, hins⟩ :=
      Session.insertTuples_active srv hs ts
    · rw [hins]
      exact .inl ⟨a, rows, rfl, hcols ▸ h, rfl⟩
    · rw [hins]
      obtain ⟨err, herr, hof⟩ := mapResult_error a (.database (some code))
      exact .inr (.inr ⟨err, herr, hof, rfl⟩)

end

end Publishing

end OutboxPublisher
