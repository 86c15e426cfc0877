import OutboxPublisher.Publisher.Refusal

/-!
# From the builder to the row

What the calls of the `EventContext` builder have to do with the columns of the row. The last call
for a field decides it (`EventContext.build_eq`), the publisher puts every field in its own column
(`Published.tuple`), and it refuses a context exactly when the row would violate the CHECK
constraint (`Call.missing_iff`); `Call.sends` says that every statement a call can send inserts rows
that satisfy the constraints and reflect the builder's calls.
-/

namespace OutboxPublisher

open Interaction (Program)

/-- The last write decides: a field that every step writes its argument to, or leaves alone, ends
with the last argument. -/
theorem foldl_lastWrite {σ ι α β : Type*} (step : σ → ι → σ) (get : σ → β) (arg : ι → Option α)
    (write : α → β) (h : ∀ s i, get (step s i) = (arg i).elim (get s) write) (steps : List ι)
    (s : σ) : get (steps.foldl step s) = (steps.filterMap arg).getLast?.elim (get s) write := by
  induction steps generalizing s with
  | nil => rfl
  | cons i steps ih =>
    rw [List.foldl_cons, ih, h]
    cases harg : arg i with
    | none => rw [List.filterMap_cons_none harg, Option.elim_none]
    | some a =>
      rw [List.filterMap_cons_some harg, List.getLast?_cons]
      cases (steps.filterMap arg).getLast? with
      | none => rfl
      | some b => rfl

/-! ## The builder -/

/-- A call of the builder. Reference: `EventContext` (`outbox-publisher/src/event.rs:84`). -/
inductive BuilderCall
  | forActor (actorId : Uuid)
  | withCorrelation (correlationId : Uuid)
  | withCausation (causationId : Uuid)
  | withMetadata (metadata : Map)
  | withCallbacks (callbacks : List Value)

namespace BuilderCall

/-- The context after a call. -/
def apply (ctx : EventContext) : BuilderCall → EventContext
  | .forActor actorId => ctx.forActor actorId
  | .withCorrelation correlationId => ctx.withCorrelation correlationId
  | .withCausation causationId => ctx.withCausation causationId
  | .withMetadata metadata => ctx.withMetadata metadata
  | .withCallbacks callbacks => ctx.withCallbacks callbacks

/-- The argument of a call of `forActor`. -/
def actorId : BuilderCall → Option Uuid
  | .forActor actorId => some actorId
  | _ => none

/-- The argument of a call of `withCorrelation`. -/
def correlationId : BuilderCall → Option Uuid
  | .withCorrelation correlationId => some correlationId
  | _ => none

/-- The argument of a call of `withCausation`. -/
def causationId : BuilderCall → Option Uuid
  | .withCausation causationId => some causationId
  | _ => none

/-- The argument of a call of `withMetadata`. -/
def metadata : BuilderCall → Option Map
  | .withMetadata metadata => some metadata
  | _ => none

/-- The argument of a call of `withCallbacks`. -/
def callbacks : BuilderCall → Option (List Value)
  | .withCallbacks callbacks => some callbacks
  | _ => none

/-- The argument of the last call to a builder. -/
def last {α : Type} (arg : BuilderCall → Option α) (calls : List BuilderCall) : Option α :=
  (calls.filterMap arg).getLast?

end BuilderCall

namespace EventContext

open BuilderCall (last)

/-- The context a sequence of builder calls makes of the default one. -/
def build (calls : List BuilderCall) : EventContext :=
  calls.foldl BuilderCall.apply default

/-- A field that one builder writes holds the argument of its last call. -/
theorem build_field {α β : Type} (get : EventContext → β) (arg : BuilderCall → Option α)
    (write : α → β) (h : ∀ ctx c, get (BuilderCall.apply ctx c) = (arg c).elim (get ctx) write)
    (calls : List BuilderCall) :
    get (build calls) = (last arg calls).elim (get default) write :=
  foldl_lastWrite BuilderCall.apply get arg write h calls default

/-- **The last call decides.** Every field of a built context is the argument of the last call to
its builder, and the default when there was none. -/
theorem build_eq (calls : List BuilderCall) :
    build calls = ⟨last BuilderCall.actorId calls, last BuilderCall.correlationId calls,
      last BuilderCall.causationId calls, (last BuilderCall.metadata calls).getD [],
      (last BuilderCall.callbacks calls).getD []⟩ := by
  have helim : ∀ {α : Type} (o : Option α), o.elim none some = o := by
    rintro α (_ | _) <;> rfl
  have hgetD : ∀ {α : Type} (o : Option (List α)), o.elim [] id = o.getD [] := by
    rintro α (_ | _) <;> rfl
  have hactor := build_field actorId BuilderCall.actorId some
    (by rintro ctx (_ | _) <;> rfl) calls
  have hcorrelation := build_field correlationId BuilderCall.correlationId some
    (by rintro ctx (_ | _) <;> rfl) calls
  have hcausation := build_field causationId BuilderCall.causationId some
    (by rintro ctx (_ | _) <;> rfl) calls
  have hmetadata := build_field metadata BuilderCall.metadata id
    (by rintro ctx (_ | _) <;> rfl) calls
  have hcallbacks := build_field callbacks BuilderCall.callbacks id
    (by rintro ctx (_ | _) <;> rfl) calls
  rw [← helim (last BuilderCall.actorId calls), ← helim (last BuilderCall.correlationId calls),
    ← helim (last BuilderCall.causationId calls), ← hgetD (last BuilderCall.metadata calls),
    ← hgetD (last BuilderCall.callbacks calls)]
  exact (congr (congr (congr (congr (congrArg mk hactor) hcorrelation) hcausation) hmetadata)
    hcallbacks : mk _ _ _ _ _ = _)

end EventContext

/-! ## The row -/

section
variable [Serialize Map] [Serialize (List Value)]

/-- The row a call builds for an event, whatever its callbacks. Reference: `insert`
(`outbox-publisher-sqlx/src/lib.rs:131`). -/
def Published.tuple (x : Published) : Except JsonError Tuple := do
  let payload ← Serialize.toValue x.event
  let metadata ← Serialize.toValue x.ctx.metadata
  let callbacks ← Serialize.toValue x.ctx.callbacks
  return ⟨some x.eventId.uuid, some (DomainEvent.kind x.E), some (DomainEvent.aggregateType x.E),
    some (DomainEvent.aggregateId x.event), some payload, some metadata, some callbacks,
    x.ctx.actorId, x.ctx.correlationId, x.ctx.causationId⟩

/-- The tuple of a published event is its row, and its context has callbacks. -/
theorem encodesPublished_iff {t : Tuple} {x : Published} :
    EncodesPublished t x ↔ x.ctx.callbacks ≠ [] ∧ x.tuple = .ok t := by
  constructor
  · rintro ⟨p, hp, rfl⟩
    obtain ⟨hval, payload, metadata, callbacks, hpayload, hmetadata, hcallbacks, rfl⟩ :=
      encode_eq_ok_iff.1 hp
    obtain ⟨-, herr⟩ | ⟨hne, -⟩ := validateCallbacks_cases x.ctx
    · cases herr.symm.trans hval
    · refine ⟨hne, ?_⟩
      rw [Published.tuple, hpayload, hmetadata, hcallbacks]
      rfl
  · rintro ⟨hne, h⟩
    obtain ⟨hnil, -⟩ | ⟨-, hval⟩ := validateCallbacks_cases x.ctx
    · exact absurd hnil hne
    · obtain ⟨payload, hpayload, h⟩ := bind_eq_ok_iff.1 h
      obtain ⟨metadata, hmetadata, h⟩ := bind_eq_ok_iff.1 h
      obtain ⟨callbacks, hcallbacks, h⟩ := bind_eq_ok_iff.1 h
      obtain rfl := Except.ok.inj h
      exact ⟨_, encode_eq_ok_iff.2 ⟨hval, payload, metadata, callbacks, hpayload, hmetadata,
        hcallbacks, rfl⟩, rfl⟩

end

section
open SerdeJson
open BuilderCall (last)

/-- The columns that stem from the context hold the arguments of the last builder calls: NULL and
`{}` where there was none, and callbacks there must have been. -/
structure Reflects (t : Tuple) (calls : List BuilderCall) : Prop where
  actorId_eq : t.actorId = last BuilderCall.actorId calls
  correlationId_eq : t.correlationId = last BuilderCall.correlationId calls
  causationId_eq : t.causationId = last BuilderCall.causationId calls
  metadata_eq : t.metadata = some (.object ((last BuilderCall.metadata calls).getD []))
  callbacks_eq : ∃ callbacks, last BuilderCall.callbacks calls = some callbacks ∧
    t.callbacks = some (.array callbacks)

/-- The tuple is the row of a published event: it satisfies the constraints, its metadata is an
object, and it reflects the builder calls that made the event's context. -/
structure Writes (t : Tuple) (x : Published) : Prop where
  tuple_eq : x.tuple = .ok t
  not_null : t.NotNull
  check : t.Check
  metadata_object : ∃ entries, t.metadata = some (.object entries)
  reflects : ∀ calls, x.ctx = .build calls → Reflects t calls

/-- The row of an event, column by column. -/
theorem Published.tuple_eq_ok_iff {x : Published} {t : Tuple} :
    x.tuple = .ok t ↔ ∃ payload, Serialize.toValue x.event = .ok payload ∧
      t = ⟨some x.eventId.uuid, some (DomainEvent.kind x.E), some (DomainEvent.aggregateType x.E),
        some (DomainEvent.aggregateId x.event), some payload, some (.object x.ctx.metadata),
        some (.array x.ctx.callbacks), x.ctx.actorId, x.ctx.correlationId, x.ctx.causationId⟩ := by
  rw [Published.tuple, bind_eq_ok_iff]
  refine exists_congr fun payload => and_congr_right fun _ => ?_
  constructor
  · exact fun h => (Except.ok.inj h).symm
  · rintro rfl
    rfl

/-- The row of an event violates the CHECK exactly when its context has no callbacks. -/
theorem Published.check_iff {x : Published} {t : Tuple} (h : x.tuple = .ok t) :
    t.Check ↔ x.ctx.callbacks ≠ [] := by
  obtain ⟨payload, -, rfl⟩ := tuple_eq_ok_iff.1 h
  constructor
  · intro hcheck hnil
    have hfalse := hcheck _ rfl
    rw [hnil] at hfalse
    cases hfalse
  · rintro hne callbacks hcallbacks
    obtain ⟨c, cs, hcs⟩ := List.exists_cons_of_ne_nil hne
    rw [← Option.some.inj hcallbacks, hcs]
    rfl

/-- What a call sends for an event is its row. -/
theorem Writes.of_encodes {t : Tuple} {x : Published} (h : EncodesPublished t x) : Writes t x := by
  obtain ⟨hne, ht⟩ := encodesPublished_iff.1 h
  obtain ⟨payload, -, rfl⟩ := Published.tuple_eq_ok_iff.1 ht
  refine ⟨ht, ⟨rfl, rfl, rfl, rfl, rfl, rfl, rfl⟩, (Published.check_iff ht).2 hne, ⟨_, rfl⟩, ?_⟩
  intro calls hcalls
  rw [EventContext.build_eq] at hcalls
  rw [hcalls] at hne ⊢
  refine ⟨rfl, rfl, rfl, rfl, ?_⟩
  cases hlast : last BuilderCall.callbacks calls with
  | none =>
    rw [hlast] at hne
    exact absurd rfl hne
  | some callbacks => exact ⟨callbacks, rfl, rfl⟩

end

/-! ## Any call -/

/-- Every statement a publishing program can send carries tuples related to its value. -/
theorem Publishing.sends {α : Type} {Q : List Tuple → α → Prop}
    {p : Program Reply (Except PublishError α)} (h : Publishing Q p) :
    p.Calls fun c => ∀ stmt, c = .execute stmt → ∃ ts a, stmt.tuples = some ts ∧ Q ts a := by
  induction h with
  | draw _ ih => exact ⟨fun _ hc => (nomatch hc), ih⟩
  | refuse _ => trivial
  | @send stmt ts a hts h =>
    refine ⟨fun stmt' hc => ?_, fun _ => trivial⟩
    cases hc
    exact ⟨ts, a, hts, h⟩
  | nothing _ => trivial

/-- The constraints are no cause of a database error of a program that sends tuples of one kind, all
of which satisfy them. -/
theorem Publishing.database_error {α B : Type} {srv : Server} {P : Tuple → Prop}
    {p : Program Reply (Except PublishError α)} (h : Publishing (fun ts _ => ∀ t ∈ ts, P t) p)
    (hP : ∀ t, P t → t.NotNull ∧ t.Check) {s : Session B} {code : SqlState}
    (herr : (Program.run (Session.handle srv) p s).1 =
      .error (.database (.database (some code)))) :
    (∃ t, P t ∧ srv.refuse t = some code) ∨ code = "2200H" ∨ code = "25P02" := by
  induction h generalizing s with
  | draw _ ih => exact ih (s.uuids 0) (s := s.skip 1) herr
  | refuse he =>
    rw [Program.run_pure, Except.error.injEq] at herr
    subst herr
    exact absurd trivial he
  | nothing _ => cases herr
  | @send stmt ts a hts hrows =>
    rw [Session.run_send srv hts] at herr
    obtain ⟨hins, hne⟩ := mapResult_eq_database_iff.1 herr
    rcases Session.insertTuples_error (fun t ht => hP t (hrows t ht)) hins with
      ⟨t, ht, href⟩ | hend | hunique | habort
    · exact .inl ⟨t, hrows t ht, href⟩
    · exact .inr (.inl hend)
    · subst hunique
      exact absurd rfl hne
    · exact .inr (.inr habort)

/-- The events of a batch, under identifiers, are its pairs. -/
theorem SqlxPublisher.exists_zipPublished_iff {E : Type} [DomainEvent E] [Serialize E]
    {Q : Published → Prop} {R : E × EventContext → Prop} (h : ∀ id pair,
      Q ⟨id, pair.1, pair.2⟩ ↔ R pair) {ids : List EventId} {events : List (E × EventContext)}
    (hlen : ids.length = events.length) :
    (∃ x ∈ zipPublished ids events, Q x) ↔ ∃ pair ∈ events, R pair := by
  induction events generalizing ids with
  | nil =>
    obtain rfl := List.length_eq_zero_iff.1 hlen
    exact ⟨fun ⟨_, hx, _⟩ => (nomatch hx), fun ⟨_, hx, _⟩ => (nomatch hx)⟩
  | cons pair rest ih =>
    cases ids with
    | nil => cases hlen
    | cons id ids =>
      rw [zipPublished, List.zipWith_cons_cons, List.exists_mem_cons_iff,
        List.exists_mem_cons_iff, h id pair]
      exact or_congr_right (ih (Nat.succ.inj hlen))

section
variable [Serialize Map] [Serialize (List Value)]

namespace Call

/-- **How a call is refused, if it is.** For want of callbacks first, and then for want of JSON. -/
theorem giveUp (call : Call) {ids : List EventId} (hfits : call.Fits ids) :
    ((∃ x ∈ call.published ids, x.ctx.callbacks = []) →
      GivesUp (· = .missingCallbacks) (ExceptT.run call.program)) ∧
    ((¬ ∃ x ∈ call.published ids, x.ctx.callbacks = []) →
      (∃ x ∈ call.published ids, ¬ Serialises x.event x.ctx) →
        GivesUp (∃ j, · = .serialization j) (ExceptT.run call.program)) ∧
    ((¬ ∃ x ∈ call.published ids, x.ctx.callbacks = []) →
      (¬ ∃ x ∈ call.published ids, ¬ Serialises x.event x.ctx) →
        ServerDecides (ExceptT.run call.program)) := by
  cases call with
  | append event ctx =>
    obtain ⟨id, rfl⟩ := List.length_eq_one_iff.1 hfits
    have hone : ∀ Q : Published → Prop,
        (∃ x ∈ (Call.append event ctx).published [id], Q x) ↔ Q ⟨id, event, ctx⟩ := by
      intro Q
      simp [published]
    rw [hone, hone, program, ExceptT.run_map]
    refine ⟨fun h => ?_, fun h hno => ?_, fun h hs => ?_⟩
    · exact (GivesUp.of_newV4 fun u => (SqlxPublisher.insert_refusal u event ctx).1 h).map _
    · exact (GivesUp.of_newV4 fun u =>
        (SqlxPublisher.insert_refusal u event ctx).2.1 h hno).map _
    · exact (ServerDecides.of_newV4 fun u =>
        (SqlxPublisher.insert_refusal u event ctx).2.2 h (not_not.1 hs)).map _
  | appendWithId eventId event ctx =>
    obtain rfl := hfits
    have hone : ∀ Q : Published → Prop,
        (∃ x ∈ (Call.appendWithId eventId event ctx).published [eventId], Q x) ↔
          Q ⟨eventId, event, ctx⟩ := by
      intro Q
      simp [published]
    rw [hone, hone, program, ExceptT.run_map]
    obtain ⟨hmissing, hserial, hserver⟩ := SqlxPublisher.insert_refusal eventId.uuid event ctx
    refine ⟨fun h => ?_, fun h hno => ?_, fun h hs => ?_⟩
    · exact (hmissing h).map _
    · exact (hserial h hno).map _
    · exact (hserver h (not_not.1 hs)).map _
  | @appendBatch E _ _ events =>
    have hm := SqlxPublisher.exists_zipPublished_iff (E := E) (Q := fun x => x.ctx.callbacks = [])
      (R := fun pair => pair.2.callbacks = []) (fun _ _ => Iff.rfl) hfits
    have hu := SqlxPublisher.exists_zipPublished_iff (E := E)
      (Q := fun x => ¬ Serialises x.event x.ctx)
      (R := fun pair => ¬ Serialises pair.1 pair.2) (fun _ _ => Iff.rfl) hfits
    rw [published, hm, hu]
    exact SqlxPublisher.appendBatch_giveUp events

/-- A call is refused for want of callbacks exactly when one of its contexts has none. -/
theorem missing_iff (call : Call) {ids : List EventId} (hfits : call.Fits ids) {B : Type}
    (srv : Server) (s : Session B) : (s.run srv call.program).1 = .error .missingCallbacks ↔
      ∃ x ∈ call.published ids, x.ctx.callbacks = [] := by
  obtain ⟨hmissing, hserial, hserver⟩ := call.giveUp hfits
  by_cases hm : ∃ x ∈ call.published ids, x.ctx.callbacks = []
  · obtain ⟨e, n, rfl, hrun⟩ := (hmissing hm).run srv s
    rw [Session.run, hrun]
    exact ⟨fun _ => hm, fun _ => rfl⟩
  · refine ⟨fun h => ?_, fun h => absurd h hm⟩
    by_cases hu : ∃ x ∈ call.published ids, ¬ Serialises x.event x.ctx
    · obtain ⟨e, n, ⟨j, rfl⟩, hrun⟩ := (hserial hm hu).run srv s
      rw [Session.run, hrun] at h
      cases h
    · exact ((hserver hm hu).run (Session.handle srv) s _ h).elim

end Call

end

section
open SerdeJson

/-- The call may send this: a statement that inserts the rows of its events, in order, under
identifiers that it may return. -/
def Call.Sends (call : Call) (c : Command) : Prop :=
  ∀ stmt, c = .execute stmt → ∃ ts ids, stmt.tuples = some ts ∧ call.Fits ids ∧
    List.Forall₂ Writes ts (call.published ids)

/-- **What a call can send.** -/
theorem Call.sends (call : Call) : (ExceptT.run call.program).Calls call.Sends := by
  refine call.publishing.sends.mono fun c hc stmt hstmt => ?_
  obtain ⟨ts, ids, hts, hfits, hall⟩ := hc stmt hstmt
  exact ⟨ts, ids, hts, hfits, hall.imp fun _ _ => Writes.of_encodes⟩

/-- The tuple is the row of an event of the call, under an identifier that the call may return. -/
def Call.WritesRow (call : Call) (t : Tuple) : Prop :=
  ∃ ids, call.Fits ids ∧ ∃ x ∈ call.published ids, Writes t x

/-- Rows of the events of a call are its rows. -/
theorem Call.writesRow_of_forall₂ {call : Call} {ts : List Tuple} {ids : List EventId}
    (hfits : call.Fits ids) (h : List.Forall₂ Writes ts (call.published ids)) :
    ∀ t ∈ ts, call.WritesRow t := by
  have hmem : ∀ {ts : List Tuple} {xs : List Published}, List.Forall₂ Writes ts xs →
      ∀ t ∈ ts, ∃ x ∈ xs, Writes t x := by
    intro ts xs h
    induction h with
    | nil => simp
    | @cons t x ts xs hw _ ih =>
      intro u hu
      rcases List.mem_cons.1 hu with rfl | hu
      · exact ⟨x, by simp, hw⟩
      · obtain ⟨y, hy, hwy⟩ := ih u hu
        exact ⟨y, by simp [hy], hwy⟩
  intro t ht
  exact ⟨ids, hfits, hmem h t ht⟩

/-- A row of a call satisfies the constraints. -/
theorem Call.WritesRow.conforms {call : Call} {t : Tuple} (h : call.WritesRow t) :
    t.NotNull ∧ t.Check := by
  obtain ⟨ids, -, x, -, hw⟩ := h
  exact ⟨hw.not_null, hw.check⟩

/-- **The constraints are no cause of an error.** The code of a database error is one with which the
server refuses a row of the call on its own account, or that of the end of the sequence or of an
aborted transaction. -/
theorem Call.database_error {B : Type} {srv : Server} {s : Session B} {call : Call}
    {code : SqlState}
    (h : (s.run srv call.program).1 = .error (.database (.database (some code)))) :
    (∃ t, call.WritesRow t ∧ srv.refuse t = some code) ∨ code = "2200H" ∨ code = "25P02" := by
  refine Publishing.database_error (call.publishing.mono ?_) (fun t => WritesRow.conforms) h
  rintro ts ids ⟨hfits, hall⟩
  exact writesRow_of_forall₂ hfits (hall.imp fun _ _ => Writes.of_encodes)

end

end OutboxPublisher
