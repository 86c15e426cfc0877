import OutboxPublisher.Publisher.Batch
import OutboxPublisher.Publisher.Duplicate
import Mathlib.Data.List.Nodup
import Mathlib.Data.List.Perm.Basic

/-!
# Calls the publisher refuses

A call is refused before any statement is sent when a context has no callbacks, and otherwise when
something does not turn into JSON. `GivesUp` is such a program: it draws identifiers at most, so a
transaction is as it was (`GivesUp.run`). `appendBatch_giveUp` says which batches are refused and
how; `appendBatch_refusal` draws from it that a batch is refused as a whole, whatever the order of
its pairs, and that a batch that is not refused writes rows that follow the order of its pairs.
-/

namespace OutboxPublisher

open Interaction (Program)

/-! ## Programs that end before the statement -/

/-- The program draws identifiers at most, and ends with such an error. -/
structure GivesUp {α : Type} (P : PublishError → Prop)
    (p : Program Reply (Except PublishError α)) : Prop where
  calls : p.Calls (· = .newV4)
  returns : p.Returns fun r => ∃ e, r = .error e ∧ P e

/-- The errors the program ends with are answers of the server. -/
def ServerDecides {α : Type} (p : Program Reply (Except PublishError α)) : Prop :=
  p.Returns fun r => ∀ e, r = .error e → e.OfServer

section
variable {α β : Type} {P : PublishError → Prop} {p : Program Reply (Except PublishError α)}

/-- A program that gives up leaves its session alone, but for the identifiers it draws. -/
theorem GivesUp.run {B : Type} (h : GivesUp P p) (srv : Server) (s : Session B) :
    ∃ e n, P e ∧ Program.run (Session.handle srv) p s = (.error e, s.skip n) := by
  obtain ⟨hcalls, hreturns⟩ := h
  induction p generalizing s with
  | pure r =>
    obtain ⟨e, rfl, he⟩ := hreturns
    exact ⟨e, 0, he, rfl⟩
  | call c k ih =>
    obtain ⟨rfl, hrest⟩ := hcalls
    obtain ⟨e, n, he, hrun⟩ := ih (s.uuids 0) (s.skip 1) (hrest _) (hreturns _)
    refine ⟨e, 1 + n, he, ?_⟩
    rw [Program.run_call, Session.handle, hrun, Session.skip_skip]

/-- An error known at once. -/
theorem GivesUp.of_pure {e : PublishError} (he : P e) :
    GivesUp P (pure (.error e) : Program Reply (Except PublishError α)) :=
  ⟨trivial, e, rfl, he⟩

/-- An identifier drawn first. -/
theorem GivesUp.of_newV4 {k : Uuid → Program Reply (Except PublishError α)}
    (h : ∀ u, GivesUp P (k u)) : GivesUp P (.call Command.newV4 k) :=
  ⟨⟨rfl, fun u => (h u).calls⟩, fun u => (h u).returns⟩

/-- An identifier drawn first. -/
theorem ServerDecides.of_newV4 {k : Uuid → Program Reply (Except PublishError α)}
    (h : ∀ u, ServerDecides (k u)) : ServerDecides (.call Command.newV4 k) :=
  h

/-- The value that is not returned may be mapped. -/
theorem GivesUp.map (f : α → β) (h : GivesUp P p) : GivesUp P (Except.map f <$> p) := by
  refine ⟨h.calls.map _, Program.Returns.map _ ?_⟩
  induction p with
  | pure r =>
    obtain ⟨e, rfl, he⟩ := h.returns
    exact ⟨e, rfl, he⟩
  | call c k ih => exact fun r => ih r ⟨h.calls.2 r, h.returns r⟩

/-- The value returned may be mapped. -/
theorem ServerDecides.map (f : α → β) (h : ServerDecides p) :
    ServerDecides (Except.map f <$> p) := by
  refine Program.Returns.map _ ?_
  induction p with
  | pure r =>
    rintro e he
    cases r with
    | error e' => exact h e (congrArg Except.error (Except.error.inj he))
    | ok a => cases he
  | call c k ih => exact fun r => ih r (h r)

/-- What is made of an answer of the server is an answer of the server. -/
theorem ServerDecides.of_send (stmt : Statement) (a : α) :
    ServerDecides (.call (Command.execute stmt) fun r => pure (mapResult a r)) := by
  rintro (e | u) err herr
  · obtain ⟨err', herr', hof⟩ := mapResult_error a e
    rw [herr'] at herr
    exact Except.error.inj herr ▸ hof
  · cases herr

end

/-! ## Single calls -/

section
variable {E : Type} [DomainEvent E] [Serialize E] [Serialize Map] [Serialize (List Value)]

/-- The payload, the metadata and the callbacks turn into JSON. -/
structure Serialises (event : E) (ctx : EventContext) : Prop where
  payload : ∃ v, Serialize.toValue event = .ok v
  metadata : ∃ v, Serialize.toValue ctx.metadata = .ok v
  callbacks : ∃ v, Serialize.toValue ctx.callbacks = .ok v

omit [DomainEvent E] [Serialize E] [Serialize Map] [Serialize (List Value)] in
/-- A context is refused exactly when it has no callbacks. Reference: `validate_callbacks`
(`outbox-publisher-sqlx/src/lib.rs:110`). -/
theorem validateCallbacks_cases (ctx : EventContext) :
    (ctx.callbacks = [] ∧ validateCallbacks ctx = .error .missingCallbacks) ∨
      (ctx.callbacks ≠ [] ∧ validateCallbacks ctx = .ok ()) := by
  unfold validateCallbacks
  cases ctx.callbacks with
  | nil => exact .inl ⟨rfl, rfl⟩
  | cons c cs => exact .inr ⟨List.cons_ne_nil c cs, rfl⟩

/-- The encoding of an event fails for want of callbacks, or otherwise for want of JSON, or it
succeeds. Reference: `insert` (`outbox-publisher-sqlx/src/lib.rs:129`). -/
theorem encode_cases (eventId : Uuid) (event : E) (ctx : EventContext) :
    (ctx.callbacks = [] ∧ encode eventId event ctx = .error .missingCallbacks) ∨
    (ctx.callbacks ≠ [] ∧ ¬ Serialises event ctx ∧
      ∃ j, encode eventId event ctx = .error (.serialization j)) ∨
    (ctx.callbacks ≠ [] ∧ Serialises event ctx ∧ ∃ p, encode eventId event ctx = .ok p) := by
  obtain ⟨hnil, hval⟩ | ⟨hne, hval⟩ := validateCallbacks_cases ctx
  · refine .inl ⟨hnil, ?_⟩
    rw [encode, hval]
    rfl
  · right
    rw [encode, hval]
    cases hpayload : Serialize.toValue event with
    | error j =>
      refine .inl ⟨hne, fun hs => ?_, j, rfl⟩
      obtain ⟨v, hv⟩ := hs.payload
      cases hpayload.symm.trans hv
    | ok payload =>
      cases hmetadata : Serialize.toValue ctx.metadata with
      | error j =>
        refine .inl ⟨hne, fun hs => ?_, j, rfl⟩
        obtain ⟨v, hv⟩ := hs.metadata
        cases hmetadata.symm.trans hv
      | ok metadata =>
        cases hcallbacks : Serialize.toValue ctx.callbacks with
        | error j =>
          refine .inl ⟨hne, fun hs => ?_, j, rfl⟩
          obtain ⟨v, hv⟩ := hs.callbacks
          cases hcallbacks.symm.trans hv
        | ok callbacks => exact .inr ⟨hne, ⟨⟨_, hpayload⟩, ⟨_, hmetadata⟩, _, hcallbacks⟩, _, rfl⟩

namespace SqlxPublisher

/-- How the single-row call is refused, if it is. Reference: `insert`
(`outbox-publisher-sqlx/src/lib.rs:119`). -/
theorem insert_refusal (eventId : Uuid) (event : E) (ctx : EventContext) :
    (ctx.callbacks = [] →
      GivesUp (· = .missingCallbacks) (ExceptT.run (insert eventId event ctx))) ∧
    (ctx.callbacks ≠ [] → ¬ Serialises event ctx →
      GivesUp (∃ j, · = .serialization j) (ExceptT.run (insert eventId event ctx))) ∧
    (ctx.callbacks ≠ [] → Serialises event ctx →
      ServerDecides (ExceptT.run (insert eventId event ctx))) := by
  rw [run_insert]
  obtain ⟨hnil, henc⟩ | ⟨hne, hno, j, henc⟩ | ⟨hne, hs, p, henc⟩ :=
    encode_cases eventId event ctx
  · rw [henc]
    exact ⟨fun _ => .of_pure rfl, fun h => absurd hnil h, fun h => absurd hnil h⟩
  · rw [henc]
    exact ⟨fun h => absurd h hne, fun _ _ => .of_pure ⟨j, rfl⟩, fun _ h => absurd h hno⟩
  · rw [henc]
    exact ⟨fun h => absurd h hne, fun _ h => absurd hs h, fun _ _ => .of_send _ _⟩

/-! ## Batches -/

/-- Some pair of the batch has a context without callbacks. -/
def Missing (events : List (E × EventContext)) : Prop :=
  ∃ pair ∈ events, pair.2.callbacks = []

/-- Some pair of the batch does not turn into JSON. -/
def Unserialisable (events : List (E × EventContext)) : Prop :=
  ∃ pair ∈ events, ¬ Serialises pair.1 pair.2

omit [DomainEvent E] [Serialize E] [Serialize Map] [Serialize (List Value)] in
/-- The first loop refuses a batch when a context, at any position, has no callbacks. Reference:
`insert_batch` (`outbox-publisher-sqlx/src/lib.rs:179`). -/
theorem validateAll_of_missing {events : List (E × EventContext)} (h : Missing events) :
    validateAll events = .error .missingCallbacks := by
  induction events with
  | nil =>
    obtain ⟨pair, hmem, -⟩ := h
    cases hmem
  | cons pair rest ih =>
    rw [validateAll_cons]
    obtain ⟨-, hval⟩ | ⟨hne, hval⟩ := validateCallbacks_cases pair.2
    · rw [hval]
      rfl
    · rw [hval]
      obtain ⟨q, hq, hnil⟩ := h
      rcases List.mem_cons.1 hq with rfl | hq
      · exact absurd hnil hne
      · exact ih ⟨q, hq, hnil⟩

omit [DomainEvent E] [Serialize E] [Serialize Map] [Serialize (List Value)] in
/-- With callbacks everywhere the first loop refuses nothing. -/
theorem validateAll_of_not_missing {events : List (E × EventContext)} (h : ¬ Missing events) :
    validateAll events = .ok () := by
  rw [validateAll_eq_ok_iff]
  intro pair hpair
  obtain ⟨hnil, -⟩ | ⟨-, hval⟩ := validateCallbacks_cases pair.2
  · exact absurd ⟨pair, hpair, hnil⟩ h
  · exact hval

/-- The second loop and the statement, on pairs that all have callbacks: the call gives up when a
pair, at any position, does not turn into JSON, and is otherwise decided by the server. Reference:
`insert_batch` (`outbox-publisher-sqlx/src/lib.rs:195`). -/
theorem foldlM_refusal {events : List (E × EventContext)} (hval : ¬ Missing events) :
    ∀ ps : List Params,
      (Unserialisable events → GivesUp (∃ j, · = .serialization j)
        (ExceptT.run (events.foldlM pushEvent (.ofParams ps) >>= sendColumns))) ∧
      (¬ Unserialisable events →
        ServerDecides (ExceptT.run (events.foldlM pushEvent (.ofParams ps) >>= sendColumns))) := by
  induction events with
  | nil =>
    intro ps
    refine ⟨fun h => ?_, fun _ => ?_⟩
    · obtain ⟨pair, hmem, -⟩ := h
      cases hmem
    · exact ServerDecides.of_send _ ((Columns.ofParams ps).eventIds.map EventId.mk)
  | cons pair rest ih =>
    intro ps
    have hrest : ¬ Missing rest := fun ⟨q, hq, hnil⟩ =>
      hval ⟨q, List.mem_cons_of_mem _ hq, hnil⟩
    have hpair := validateAll_eq_ok_iff.1 (validateAll_of_not_missing hval) pair (by simp)
    rw [List.foldlM_cons, bind_assoc, run_pushEvent_bind ps pair hpair]
    refine ⟨fun h => .of_newV4 fun u => ?_, fun h => .of_newV4 fun u => ?_⟩
    · obtain ⟨hnil, -⟩ | ⟨-, -, j, henc⟩ | ⟨-, hs, p, henc⟩ := encode_cases u pair.1 pair.2
      · exact absurd ⟨pair, by simp, hnil⟩ hval
      · rw [henc]
        exact .of_pure ⟨j, rfl⟩
      · rw [henc]
        refine (ih hrest (ps ++ [p])).1 ?_
        obtain ⟨q, hq, hno⟩ := h
        rcases List.mem_cons.1 hq with rfl | hq
        · exact absurd hs hno
        · exact ⟨q, hq, hno⟩
    · obtain ⟨hnil, -⟩ | ⟨-, hno, -⟩ | ⟨-, -, p, henc⟩ := encode_cases u pair.1 pair.2
      · exact absurd ⟨pair, by simp, hnil⟩ hval
      · exact absurd ⟨pair, by simp, hno⟩ h
      · rw [henc]
        exact (ih hrest (ps ++ [p])).2 fun ⟨q, hq, hno⟩ => h ⟨q, List.mem_cons_of_mem _ hq, hno⟩

/-- How a batch is refused, if it is. Reference: `insert_batch`
(`outbox-publisher-sqlx/src/lib.rs:167`). -/
theorem appendBatch_giveUp (events : List (E × EventContext)) :
    (Missing events →
      GivesUp (· = .missingCallbacks) (ExceptT.run (appendBatch events))) ∧
    (¬ Missing events → Unserialisable events →
      GivesUp (∃ j, · = .serialization j) (ExceptT.run (appendBatch events))) ∧
    (¬ Missing events → ¬ Unserialisable events →
      ServerDecides (ExceptT.run (appendBatch events))) := by
  cases events with
  | nil =>
    refine ⟨?_, ?_, fun _ _ e he => ?_⟩
    · rintro ⟨pair, hmem, -⟩
      cases hmem
    · rintro - ⟨pair, hmem, -⟩
      cases hmem
    · cases he
  | cons pair rest =>
    refine ⟨fun h => ?_, fun h hno => ?_, fun h hs => ?_⟩
    · rw [appendBatch_of_invalid (validateAll_of_missing h)]
      exact .of_pure rfl
    · rw [appendBatch_of_valid (validateAll_of_not_missing h)]
      exact (foldlM_refusal h []).1 hno
    · rw [appendBatch_of_valid (validateAll_of_not_missing h)]
      exact (foldlM_refusal h []).2 hs

/-! ## Batches that are not refused -/

/-- What a pair asks to be stored, whatever its identifier. -/
def content (pair : E × EventContext) : Except PublishError Tuple :=
  (encode 0 pair.1 pair.2).map fun p => p.tuple.content

/-- The server accepts a row, or not, for what the caller asked to be stored. -/
def JudgesContent (srv : Server) : Prop :=
  ∀ t t' : Tuple, t.content = t'.content → srv.refuse t = srv.refuse t'

/-- The pair has a row that the server accepts on the row's own account. -/
def PairStorable (srv : Server) (pair : E × EventContext) : Prop :=
  ∃ p, encode 0 pair.1 pair.2 = .ok p ∧ srv.refuse p.tuple = none ∧ p.tuple.Check

/-- The next identifiers are distinct, and no row of the table has one of them. -/
structure Fresh (uuids : ℕ → Uuid) (n : ℕ) (outbox : List OutboxEvent) : Prop where
  nodup : ((List.range n).map uuids).Nodup
  eventIds : ∀ i < n, ∀ r ∈ outbox, r.eventId ≠ uuids i

/-- An event is encoded under every identifier when it is under one, in the same way. -/
theorem encode_eventId {u : Uuid} {event : E} {ctx : EventContext} {p : Params}
    (h : encode u event ctx = .ok p) (v : Uuid) :
    encode v event ctx = .ok { p with eventId := v } := by
  obtain ⟨hval, payload, metadata, callbacks, hpayload, hmetadata, hcallbacks, rfl⟩ :=
    encode_eq_ok_iff.1 h
  exact encode_eq_ok_iff.2 ⟨hval, payload, metadata, callbacks, hpayload, hmetadata, hcallbacks,
    rfl⟩

/-- An encoded pair is encoded as its content. -/
theorem content_of_encode {u : Uuid} {pair : E × EventContext} {p : Params}
    (h : encode u pair.1 pair.2 = .ok p) : content pair = .ok p.tuple.content := by
  rw [content, encode_eventId h 0]
  rfl

/-- The contents of a batch's rows are those of its pairs, in order. -/
theorem map_content {ps : List Params} {events : List (E × EventContext)}
    (h : EncodeAll ps events) :
    ps.map (fun p => Except.ok p.tuple.content) = events.map content := by
  induction h with
  | nil => rfl
  | cons hp _ ih => rw [List.map_cons, List.map_cons, ih, content_of_encode hp]

/-- The rows of a batch are acceptable when its pairs are. -/
theorem encodeAll_storable {srv : Server} (hjudge : JudgesContent srv) {ps : List Params}
    {events : List (E × EventContext)} (h : EncodeAll ps events) :
    (∀ t ∈ ps.map (·.tuple), srv.refuse t = none ∧ t.NotNull ∧ t.Check) ↔
      ∀ pair ∈ events, PairStorable srv pair := by
  induction h with
  | nil => simp
  | @cons p pair ps events hp _ ih =>
    rw [List.map_cons, List.forall_mem_cons, List.forall_mem_cons, ih]
    refine and_congr_left fun _ => ?_
    have henc := encode_eventId hp 0
    have href : srv.refuse p.tuple = srv.refuse { p with eventId := 0 : Params }.tuple :=
      hjudge _ _ rfl
    constructor
    · rintro ⟨hno, -, hcheck⟩
      exact ⟨_, henc, href ▸ hno, hcheck⟩
    · rintro ⟨p', hp', hno, hcheck⟩
      rw [henc, Except.ok.injEq] at hp'
      subst hp'
      exact ⟨href.trans hno, p.tuple_notNull, hcheck⟩

/-- Pairs that are encoded one by one are encoded as a batch. -/
theorem exists_encodeFrom {events : List (E × EventContext)}
    (h : ∀ pair ∈ events, ∃ p, encode 0 pair.1 pair.2 = .ok p) (uuids : ℕ → Uuid) :
    ∃ ps, encodeFrom uuids events = .ok ps := by
  induction events generalizing uuids with
  | nil => exact ⟨[], rfl⟩
  | cons pair rest ih =>
    obtain ⟨p, hp⟩ := h pair (by simp)
    obtain ⟨ps, hps⟩ := ih (fun q hq => h q (by simp [hq])) fun i => uuids (i + 1)
    exact ⟨_, encodeFrom_cons_eq_ok_iff.2 ⟨_, ps, rfl, encode_eventId hp _, hps⟩⟩

section
variable {B : Type} {srv : Server} {s : Session B} {work : Db B}

omit [Serialize Map] [Serialize (List Value)] in
/-- An INSERT in an active transaction succeeds when its rows are inserted. -/
theorem insertTuples_isOk_iff (hs : s.tx = .active work) (ts : List Tuple) :
    (∃ s', s.insertTuples srv ts = (.ok (), s')) ↔
      ∃ outbox seq, insertRows srv work.outbox s.seq ts = (.ok outbox, seq) := by
  simp only [Session.insertTuples, hs]
  cases hins : insertRows srv work.outbox s.seq ts with
  | mk result seq =>
    cases result with
    | ok outbox => exact ⟨fun _ => ⟨outbox, seq, rfl⟩, fun _ => ⟨_, rfl⟩⟩
    | error code =>
      constructor
      · rintro ⟨s', h⟩
        cases h
      · rintro ⟨outbox, seq', h⟩
        cases h

/-- **When a batch succeeds.** With fresh identifiers, and a server that judges rows by their
content, a batch succeeds exactly when each of its pairs is storable and the next numbers of the
sequence are free: the order of the pairs does not matter. -/
theorem appendBatch_isOk_iff (hs : s.tx = .active work) (hjudge : JudgesContent srv)
    {events : List (E × EventContext)}
    (hfresh : Fresh s.uuids events.length work.outbox) :
    (∃ ids s', s.run srv (appendBatch events) = (.ok ids, s')) ↔
      (∀ pair ∈ events, PairStorable srv pair) ∧ s.seq.Free work.outbox events.length := by
  have hrows : ∀ {ps}, encodeFrom s.uuids events = .ok ps →
      ((∃ s', (s.skip events.length).insertTuples srv (ps.map (·.tuple)) = (.ok (), s')) ↔
        (∀ pair ∈ events, PairStorable srv pair) ∧ s.seq.Free work.outbox events.length) := by
    intro ps hps
    obtain ⟨hall, hids⟩ := encodeFrom_ok hps
    have hmap : (ps.map (·.tuple)).map (·.eventId) =
        ((List.range events.length).map s.uuids).map some := by
      rw [← hids, List.map_map, List.map_map]
      rfl
    have hnodup : ((ps.map (·.tuple)).map (·.eventId)).Nodup := by
      rw [hmap]
      exact hfresh.nodup.map fun _ _ h => Option.some.inj h
    have hnew : ∀ t ∈ ps.map (·.tuple), ∀ r ∈ work.outbox, t.eventId ≠ some r.eventId := by
      intro t ht r hr heq
      have hmem : t.eventId ∈ (ps.map (·.tuple)).map (·.eventId) := List.mem_map_of_mem ht
      rw [hmap, heq, List.map_map] at hmem
      obtain ⟨i, hi, hu⟩ := List.mem_map.1 hmem
      exact hfresh.eventIds i (List.mem_range.1 hi) r hr (Option.some.inj hu).symm
    rw [← encodeAll_storable hjudge hall, ← hall.length_eq, ← List.length_map (·.tuple)]
    exact (insertTuples_isOk_iff (s := s.skip _) hs _).trans (insertRows_isOk_iff hnodup hnew)
  simp only [run_appendBatch_eq_ok_iff hs]
  constructor
  · rintro ⟨ids, s', ps, hps, -, hins⟩
    exact (hrows hps).1 ⟨s', hins⟩
  · intro h
    obtain ⟨ps, hps⟩ := exists_encodeFrom (fun pair hpair => (h.1 pair hpair).imp fun _ hp => hp.1)
      s.uuids
    obtain ⟨s', hins⟩ := (hrows hps).2 h
    exact ⟨_, s', ps, hps, rfl, hins⟩

/-- A batch that succeeds adds one row per pair, in order, with the pair's content. -/
theorem appendBatch_contents (hs : s.tx = .active work) {events : List (E × EventContext)}
    {ids : List EventId} {s' : Session B}
    (h : s.run srv (appendBatch events) = (.ok ids, s')) :
    ∃ rows, s'.tx = .active { work with outbox := work.outbox ++ rows } ∧
      rows.map (fun r => Except.ok r.columns.content) = events.map content := by
  obtain ⟨ps, hps, -, hins⟩ := (run_appendBatch_eq_ok_iff hs).1 h
  obtain ⟨rows, seq, hcols, hact⟩ | ⟨code, seq, hact⟩ :=
    Session.insertTuples_active srv (s := s.skip events.length) hs (ps.map (·.tuple))
  · obtain rfl := (Prod.mk.inj (hins.symm.trans hact)).2
    refine ⟨rows, rfl, ?_⟩
    have hcontents := congrArg (List.map fun t => (Except.ok t.content : Except PublishError Tuple))
      hcols
    rw [List.map_map, List.map_map] at hcontents
    exact hcontents.trans (map_content (encodeFrom_ok hps).1)
  · cases hins.symm.trans hact

variable (srv) in
/-- The outcome of a batch in a session, as far as refusal goes. Reference: `append_batch`
(`outbox-publisher-sqlx/src/lib.rs:96`). -/
theorem run_appendBatch_refused_iff (s : Session B) (events : List (E × EventContext)) :
    ((s.run srv (appendBatch events)).1 = .error .missingCallbacks ↔ Missing events) ∧
      ((∃ j, (s.run srv (appendBatch events)).1 = .error (.serialization j)) ↔
        ¬ Missing events ∧ Unserialisable events) := by
  obtain ⟨hmissing, hserial, hserver⟩ := appendBatch_giveUp events
  by_cases hm : Missing events
  · obtain ⟨e, n, rfl, hrun⟩ := (hmissing hm).run srv s
    rw [Session.run, hrun]
    simp [hm]
  · by_cases hu : Unserialisable events
    · obtain ⟨e, n, ⟨j, rfl⟩, hrun⟩ := (hserial hm hu).run srv s
      rw [Session.run, hrun]
      simp [hm, hu]
    · have hof := (hserver hm hu).run (Session.handle srv) s
      refine ⟨⟨fun h => (hof _ h).elim, fun h => absurd h hm⟩, ?_, fun h => absurd h.2 hu⟩
      rintro ⟨j, h⟩
      exact (hof _ h).elim

omit [DomainEvent E] [Serialize E] [Serialize Map] [Serialize (List Value)] in
/-- Whether a context lacks callbacks does not depend on the order. -/
theorem Missing.perm {events events' : List (E × EventContext)} (h : events.Perm events') :
    Missing events ↔ Missing events' := by
  simp only [Missing, h.mem_iff]

omit [DomainEvent E] in
/-- Whether a pair does not serialise does not depend on the order. -/
theorem Unserialisable.perm {events events' : List (E × EventContext)} (h : events.Perm events') :
    Unserialisable events ↔ Unserialisable events' := by
  simp only [Unserialisable, h.mem_iff]

variable (srv) in
/-- **A batch is refused as a whole, whatever its order.** A context without callbacks, at any
position, is reported first, and then a pair that does not serialise; neither sends a statement, and
the session is as it was but for the identifiers drawn, so that whatever the transaction goes on to
do it does as if the call had not been made. A permuted batch is refused in the same way, or is not
refused; with fresh identifiers and a server that judges rows by their content it succeeds when the
batch does, and then the rows of both follow the order of their pairs. Reference: `append_batch`
(`outbox-publisher-sqlx/src/lib.rs:96`). -/
theorem appendBatch_refusal (events : List (E × EventContext)) :
    (∀ s : Session B, Missing events → ∃ n,
      s.run srv (appendBatch events) = (.error .missingCallbacks, s.skip n)) ∧
    (∀ s : Session B, ¬ Missing events → Unserialisable events → ∃ j n,
      s.run srv (appendBatch events) = (.error (.serialization j), s.skip n)) ∧
    (Missing events ∨ Unserialisable events →
      (ExceptT.run (appendBatch events)).Calls (· = .newV4)) ∧
    (∀ (s : Session B) (n : ℕ) (stmts : List Statement), (s.skip n).executeAll srv stmts =
      ((s.executeAll srv stmts).1, (s.executeAll srv stmts).2.skip n)) ∧
    ∀ events' : List (E × EventContext), events.Perm events' →
      (∀ s s' : Session B,
        ((s.run srv (appendBatch events)).1 = .error .missingCallbacks ↔
          (s'.run srv (appendBatch events')).1 = .error .missingCallbacks) ∧
        ((∃ j, (s.run srv (appendBatch events)).1 = .error (.serialization j)) ↔
          ∃ j, (s'.run srv (appendBatch events')).1 = .error (.serialization j))) ∧
      ∀ (committed work : Db B) (seq : Sequence) (uuids uuids' : ℕ → Uuid), JudgesContent srv →
        Fresh uuids events.length work.outbox → Fresh uuids' events.length work.outbox →
        ((∃ ids s₁, (Session.mk committed seq (.active work) uuids).run srv
            (appendBatch events) = (.ok ids, s₁)) ↔
          ∃ ids s₁, (Session.mk committed seq (.active work) uuids').run srv
            (appendBatch events') = (.ok ids, s₁)) ∧
        ∀ ids ids' s₁ s₁',
          (Session.mk committed seq (.active work) uuids).run srv (appendBatch events) =
            (.ok ids, s₁) →
          (Session.mk committed seq (.active work) uuids').run srv (appendBatch events') =
            (.ok ids', s₁') →
          ∃ rows rows', s₁.tx = .active { work with outbox := work.outbox ++ rows } ∧
            s₁'.tx = .active { work with outbox := work.outbox ++ rows' } ∧
            rows.map (fun r => Except.ok r.columns.content) = events.map content ∧
            rows'.map (fun r => Except.ok r.columns.content) = events'.map content ∧
            (rows.map (·.columns.content)).Perm (rows'.map (·.columns.content)) := by
  obtain ⟨hmissing, hserial, -⟩ := appendBatch_giveUp events
  refine ⟨?_, ?_, ?_, fun s => Session.executeAll_skip s, fun events' hperm => ⟨?_, ?_⟩⟩
  · intro s hm
    obtain ⟨e, n, rfl, hrun⟩ := (hmissing hm).run srv s
    exact ⟨n, hrun⟩
  · intro s hm hu
    obtain ⟨e, n, ⟨j, rfl⟩, hrun⟩ := (hserial hm hu).run srv s
    exact ⟨j, n, hrun⟩
  · intro h
    by_cases hm : Missing events
    · exact (hmissing hm).calls
    · exact (hserial hm (h.resolve_left hm)).calls
  · intro s s'
    obtain ⟨hm, hu⟩ := run_appendBatch_refused_iff srv s events
    obtain ⟨hm', hu'⟩ := run_appendBatch_refused_iff srv s' events'
    rw [hm, hu, hm', hu', Missing.perm hperm, Unserialisable.perm hperm]
    exact ⟨Iff.rfl, Iff.rfl⟩
  · intro committed work seq uuids uuids' hjudge hfresh hfresh'
    refine ⟨?_, ?_⟩
    · rw [appendBatch_isOk_iff (s := ⟨committed, seq, .active work, uuids⟩) rfl hjudge hfresh,
        appendBatch_isOk_iff (s := ⟨committed, seq, .active work, uuids'⟩) rfl hjudge
          (hperm.length_eq ▸ hfresh'), hperm.length_eq]
      simp only [hperm.mem_iff]
    · intro ids ids' s₁ s₁' h h'
      obtain ⟨rows, htx, hrows⟩ := appendBatch_contents rfl h
      obtain ⟨rows', htx', hrows'⟩ := appendBatch_contents rfl h'
      refine ⟨rows, rows', htx, htx', hrows, hrows', ?_⟩
      have hmap : ((rows.map (·.columns.content)).map
          (Except.ok : Tuple → Except PublishError Tuple)).Perm
            ((rows'.map (·.columns.content)).map Except.ok) := by
        rw [List.map_map, List.map_map]
        exact hrows ▸ hrows' ▸ hperm.map content
      exact (List.map_perm_map_iff fun _ _ => Except.ok.inj).1 hmap

end

end SqlxPublisher

end

section
open SerdeJson SqlxPublisher

/-- A batch with a context without callbacks in its last place, and a batch of two that succeeds
exactly when the swapped one does. -/
theorem appendBatch_refusal_swapped :
    (∃ n, (Session.begin ⟨[], ()⟩ ⟨1⟩ (BitVec.ofNat 128)).run lenient
        (appendBatch [(ServiceStarted.mk, testCtx), (ServiceStarted.mk, .default)]) =
      (.error .missingCallbacks, (Session.begin ⟨[], ()⟩ ⟨1⟩ (BitVec.ofNat 128)).skip n)) ∧
    ((∃ ids s₁, (Session.mk ⟨[], ()⟩ ⟨1⟩ (.active ⟨[], ()⟩) (BitVec.ofNat 128)).run lenient
        (appendBatch [(ServiceStarted.mk, testCtx), (ServiceStarted.mk, testCtx.forActor 7)]) =
          (.ok ids, s₁)) ↔
      ∃ ids s₁, (Session.mk ⟨[], ()⟩ ⟨1⟩ (.active ⟨[], ()⟩) (BitVec.ofNat 128)).run lenient
        (appendBatch [(ServiceStarted.mk, testCtx.forActor 7), (ServiceStarted.mk, testCtx)]) =
          (.ok ids, s₁)) := by
  have hfresh : Fresh (BitVec.ofNat 128) 2 [] := ⟨by decide, by simp⟩
  refine ⟨(appendBatch_refusal lenient _).1 _ ⟨_, List.mem_cons_of_mem _ List.mem_cons_self, rfl⟩,
    ?_⟩
  exact (((appendBatch_refusal lenient _).2.2.2.2 _ (.swap _ _ _)).2 _ _ _ _ _
    (fun _ _ _ => rfl) hfresh hfresh).1

end

end OutboxPublisher
