import OutboxPublisher.Publisher.Calls

/-!
# The round trip of a call

Whatever the driver answers, a publishing call draws identifiers and then sends at most one
statement, whose tuples have the identifiers it was given or has drawn, each once and in order; and
what it returns is a function of the answer to that statement (`one_round_trip`).

`Claiming` says of a program which identifiers it has claimed and that the INSERT it may send has
exactly these.
-/

namespace OutboxPublisher

open Interaction (Program)

/-- The identifier a call is given. Reference: `append_with_id`
(`outbox-publisher-sqlx/src/lib.rs:82`). -/
def Call.claims : Call → List Uuid
  | @appendWithId _ _ _ eventId _ _ => [eventId.uuid]
  | _ => []

/-- A program that has claimed some identifiers: the INSERT it may send is of tuples with these and
those it draws until then, in order, and it is not told of a duplicate by any but the server. -/
inductive Claiming {α : Type} : List Uuid → Program Reply (Except PublishError α) → Prop
  | draw {ids : List Uuid} {k : Uuid → Program Reply (Except PublishError α)}
      (h : ∀ u, Claiming (ids ++ [u]) (k u)) : Claiming ids (.call Command.newV4 k)
  | send {ids : List Uuid} {stmt : Statement} {ts : List Tuple} {a : α}
      (hts : stmt.tuples = some ts) (hev : ts.map (·.eventId) = ids.map some) :
      Claiming ids (.call (Command.execute stmt) fun r => pure (mapResult a r))
  | done {ids : List Uuid} {result : Except PublishError α}
      (h : result ≠ .error .duplicateEventId) : Claiming ids (pure result)

/-- An error that does not stem from the server is no duplicate. -/
theorem Claiming.refuse {α : Type} {ids : List Uuid} {e : PublishError} (h : ¬ e.OfServer) :
    Claiming ids (pure (.error e) : Program Reply (Except PublishError α)) :=
  .done fun he => h (Except.error.inj he ▸ trivial)

/-- The tuples of the statement it sends have the identifiers it has claimed. -/
theorem Claiming.eventIds {α : Type} {ids : List Uuid} {stmt : Statement} {ts : List Tuple}
    {k : Except SqlxError Unit → Program Reply (Except PublishError α)}
    (h : Claiming ids (.call (Command.execute stmt) k)) (hts : stmt.tuples = some ts) :
    ts.map (·.eventId) = ids.map some := by
  cases h with
  | send hts' hev => exact Option.some.inj (hts'.symm.trans hts) ▸ hev

/-- The value returned may be mapped. -/
theorem Claiming.map {α β : Type} {ids : List Uuid} {p : Program Reply (Except PublishError α)}
    (f : α → β) (h : Claiming ids p) : Claiming ids (Except.map f <$> p) := by
  induction h with
  | draw _ ih => exact .draw ih
  | @send ids stmt ts a hts hev =>
    rw [map_send]
    exact .send hts hev
  | @done ids result h =>
    refine .done fun he => h ?_
    cases result with
    | ok a => exact nomatch he
    | error e => exact congrArg _ (Except.error.inj he)

/-- The draws of some identifiers, as calls with their answers. -/
def draws (us : List Uuid) : List ((c : Command) × Reply c) :=
  us.map fun u => ⟨.newV4, u⟩

/-- What a program that has claimed some identifiers goes on to do: it draws more, and ends without
a statement, or sends one statement of tuples with all of them and ends with what its answer is
mapped to. -/
theorem Publishing.ends {α : Type} {Q : List Tuple → α → Prop}
    {p : Program Reply (Except PublishError α)} (hp : Publishing Q p) {ids : List Uuid}
    (hc : Claiming ids p) {calls : List ((c : Command) × Reply c)} {result : Except PublishError α}
    (h : p.Ends calls result) : ∃ us,
      (calls = draws us ∧
        ((∃ a, result = .ok a ∧ Q [] a) ∨ ∃ e, result = .error e ∧ ¬ e.OfServer)) ∨
      ∃ stmt ts r a, calls = draws us ++ [⟨.execute stmt, r⟩] ∧ stmt.tuples = some ts ∧
        ts.map (·.eventId) = (ids ++ us).map some ∧ Q ts a ∧ result = mapResult a r := by
  induction hp generalizing ids calls with
  | draw _ ih =>
    cases hc with
    | draw hk =>
      cases h with
      | @call _ _ u _ _ h =>
        obtain ⟨us, ⟨rfl, hend⟩ | ⟨stmt, ts, r, a, rfl, hts, hev, hq, hres⟩⟩ := ih u (hk u) h
        · exact ⟨u :: us, .inl ⟨rfl, hend⟩⟩
        · rw [List.append_assoc] at hev
          exact ⟨u :: us, .inr ⟨stmt, ts, r, a, rfl, hts, hev, hq, hres⟩⟩
  | refuse he =>
    cases h
    exact ⟨[], .inl ⟨rfl, .inr ⟨_, rfl, he⟩⟩⟩
  | nothing hq =>
    cases h
    exact ⟨[], .inl ⟨rfl, .inl ⟨_, rfl, hq⟩⟩⟩
  | @send stmt ts a hts hq =>
    cases h with
    | @call _ _ r _ _ h =>
      cases h
      refine ⟨[], .inr ⟨stmt, _, r, a, rfl, hts, ?_, hq, rfl⟩⟩
      rw [List.append_nil]
      exact hc.eventIds hts

/-- The events a call publishes have the identifiers it returns, in order. -/
theorem Call.Fits.published_eventId {call : Call} {ids : List EventId} (h : call.Fits ids) :
    (call.published ids).map (·.eventId) = ids := by
  cases call with
  | append | appendWithId =>
    rw [published, List.map_map]
    exact List.map_id ids
  | appendBatch events =>
    have hfst : (ids.zip events).map Prod.fst = ids := List.map_fst_zip (Nat.le_of_eq h)
    rw [List.zip, List.map_zipWith] at hfst
    rw [published, SqlxPublisher.zipPublished, List.map_zipWith]
    exact hfst

section
variable {E : Type} [DomainEvent E] [Serialize E] [Serialize Map] [Serialize (List Value)]

/-- The single-row call claims the identifier it is given. Reference: `insert`
(`outbox-publisher-sqlx/src/lib.rs:119`). -/
theorem insert_claiming (u : Uuid) (event : E) (ctx : EventContext) :
    Claiming [u] (ExceptT.run (SqlxPublisher.insert u event ctx)) := by
  rw [SqlxPublisher.run_insert]
  cases h : encode u event ctx with
  | error e => exact .refuse (encode_error h)
  | ok p => exact .send rfl (congrArg (fun id => [some id]) (SqlxPublisher.eventId_of_encode h))

/-- The loop of the batch claims an identifier for every event, and the statement sends them in
order. Reference: `insert_batch` (`outbox-publisher-sqlx/src/lib.rs:195`). -/
theorem foldlM_claiming (rest : List (E × EventContext))
    (hval : ∀ pair ∈ rest, validateCallbacks pair.2 = .ok ()) (ps : List Params) :
    Claiming (ps.map (·.eventId)) (ExceptT.run
      (rest.foldlM SqlxPublisher.pushEvent (.ofParams ps) >>= SqlxPublisher.sendColumns)) := by
  induction rest generalizing ps with
  | nil =>
    have hsend : Claiming (ps.map (·.eventId))
        (ExceptT.run (SqlxPublisher.sendColumns (.ofParams ps))) := by
      refine .send (congrArg some (Columns.unnest_ofParams ps)) ?_
      rw [List.map_map, List.map_map]
      rfl
    exact hsend
  | cons pair rest ih =>
    rw [List.foldlM_cons, bind_assoc,
      SqlxPublisher.run_pushEvent_bind ps pair (hval pair List.mem_cons_self)]
    refine .draw fun u => ?_
    cases h : encode u pair.1 pair.2 with
    | error e => exact .refuse (encode_error h)
    | ok p =>
      have hrest := ih (fun q hq => hval q (List.mem_cons_of_mem _ hq)) (ps ++ [p])
      rwa [List.map_append, List.map_singleton, SqlxPublisher.eventId_of_encode h] at hrest

end

section
variable [Serialize Map] [Serialize (List Value)]

/-- **What a call claims.** It sends what it was given or has drawn, each identifier for one row. -/
theorem Call.claiming (call : Call) : Claiming call.claims (ExceptT.run call.program) := by
  cases call with
  | append event ctx =>
    rw [program, ExceptT.run_map]
    have hdraw : Claiming [] (ExceptT.run (SqlxPublisher.append event ctx)) :=
      .draw fun u => insert_claiming u event ctx
    exact hdraw.map _
  | appendWithId eventId event ctx =>
    rw [program, ExceptT.run_map]
    have hinsert : Claiming [eventId.uuid]
        (ExceptT.run (SqlxPublisher.appendWithId eventId event ctx)) :=
      insert_claiming eventId.uuid event ctx
    exact hinsert.map _
  | appendBatch events =>
    cases events with
    | nil =>
      refine .done fun he => ?_
      cases he
    | cons pair rest =>
      rw [program]
      cases hval : SqlxPublisher.validateAll (pair :: rest) with
      | error e =>
        rw [SqlxPublisher.appendBatch_of_invalid hval]
        exact .refuse (SqlxPublisher.validateAll_error hval)
      | ok u =>
        rw [SqlxPublisher.appendBatch_of_valid hval]
        exact foldlM_claiming (pair :: rest) (SqlxPublisher.validateAll_eq_ok_iff.1 hval) []

/-- A tuple of a published event has the event's identifier. -/
theorem EncodesPublished.eventId {t : Tuple} {x : Published} (h : EncodesPublished t x) :
    t.eventId = some x.eventId.uuid := by
  obtain ⟨p, hp, rfl⟩ := h
  exact congrArg some (SqlxPublisher.eventId_of_encode hp)

/-- The tuples of published events have the identifiers of the events, in order. -/
theorem eventIds_of_encodes {ts : List Tuple} {xs : List Published}
    (h : List.Forall₂ EncodesPublished ts xs) :
    ts.map (·.eventId) = (xs.map (·.eventId)).map fun id => some id.uuid := by
  induction h with
  | nil => rfl
  | cons hx _ ih => exact congrArg₂ List.cons hx.eventId ih

/-- **One round trip.** Whatever the driver answers, a call draws identifiers and then sends one
statement, or none. The statement inserts the tuples of the events of the call, in order, under the
identifiers the call was given or has drawn, and the call returns these when the statement succeeds,
`DuplicateEventId` when it fails with 23505, and `Database` with the error at hand otherwise.
Without a statement it returns no identifier, having no event, or an error of its own. Reference:
`Publisher` (`outbox-publisher/src/publisher.rs:25`), `append_batch`
(`outbox-publisher/src/publisher.rs:61`). -/
theorem one_round_trip (call : Call) {calls : List ((c : Command) × Reply c)}
    {result : Except PublishError (List EventId)}
    (h : (ExceptT.run call.program).Ends calls result) : ∃ us,
      (calls = draws us ∧
        (result = .ok [] ∧ call.Fits [] ∨ ∃ e, result = .error e ∧ ¬ e.OfServer)) ∨
      ∃ stmt ts r, calls = draws us ++ [⟨.execute stmt, r⟩] ∧ stmt.tuples = some ts ∧
        List.Forall₂ EncodesPublished ts (call.published ((call.claims ++ us).map EventId.mk)) ∧
        call.Fits ((call.claims ++ us).map EventId.mk) ∧
        result = mapResult ((call.claims ++ us).map EventId.mk) r := by
  obtain ⟨us, ⟨rfl, ⟨ids, rfl, hfits, hnone⟩ | hrefused⟩ |
    ⟨stmt, ts, r, ids, rfl, hts, hev, ⟨hfits, hall⟩, rfl⟩⟩ := call.publishing.ends call.claiming h
  · have hids := hfits.published_eventId
    rw [List.forall₂_nil_left_iff.1 hnone] at hids
    subst hids
    exact ⟨us, .inl ⟨rfl, .inl ⟨rfl, hfits⟩⟩⟩
  · exact ⟨us, .inl ⟨rfl, .inr hrefused⟩⟩
  · have hids : ids = (call.claims ++ us).map EventId.mk := by
      rw [eventIds_of_encodes hall, hfits.published_eventId] at hev
      have huuids : ids.map (·.uuid) = call.claims ++ us := by
        refine List.map_injective_iff.2 (fun _ _ h => Option.some.inj h) ?_
        rw [List.map_map]
        exact hev
      rw [← huuids, List.map_map]
      exact (List.map_id ids).symm
    subst hids
    exact ⟨us, .inr ⟨stmt, ts, r, rfl, hts, hall, hfits, rfl⟩⟩

end

section
open SerdeJson

/-- A single event is published under the identifier drawn. -/
theorem one_round_trip_append : ∃ us ts, draws us = draws [7] ∧
    List.Forall₂ EncodesPublished ts
      ((Call.append ServiceStarted.mk testCtx).published (us.map EventId.mk)) := by
  have hend : (ExceptT.run (Call.append ServiceStarted.mk testCtx).program).Ends
      (draws [7] ++ [⟨.execute _, .ok ()⟩]) (.ok [⟨7⟩]) := .call (.call (.pure _))
  obtain ⟨us, ⟨hcalls, -⟩ | ⟨stmt, ts, r, hcalls, hts, hall, -, -⟩⟩ := one_round_trip _ hend
  · obtain ⟨u, -, hu⟩ := List.mem_map.1 (hcalls ▸ List.mem_append_right (draws [7])
      List.mem_cons_self)
    cases hu
  · exact ⟨us, ts, (List.append_inj' hcalls rfl).1.symm, hall⟩

end

end OutboxPublisher
