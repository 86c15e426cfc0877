import OutboxPublisher.Publisher.Calls

/-!
# The batch call refines the single calls

`appendBatch` on a list of events and `append` on one after the other (`appendAll`) succeed on the
same sessions, with the same identifiers and the same session afterwards (`appendBatch_refines`).
Both are compared with `AllAppended`: the events are encoded under the next identifiers of the
session, and one INSERT of all the tuples succeeds. For the batch that is what it does; for the
single calls it is an induction that splits the INSERT at its first tuple
(`Session.insertTuples_cons`).
-/

namespace OutboxPublisher

open Interaction (Program)

namespace SqlxPublisher

section
variable {E : Type} [DomainEvent E] [Serialize E] [Serialize Map] [Serialize (List Value)]

/-- `append` on one pair after the other, up to the first error. -/
def appendAll (events : List (E × EventContext)) : PublishM (List EventId) :=
  events.mapM fun (event, ctx) => append event ctx

/-- The encodings of some events under successive identifiers. -/
def encodeFrom (uuids : ℕ → Uuid) : List (E × EventContext) → Except PublishError (List Params)
  | [] => .ok []
  | pair :: rest => do
    let p ← encode (uuids 0) pair.1 pair.2
    let ps ← encodeFrom (fun i => uuids (i + 1)) rest
    return p :: ps

/-- The events are encoded under the next identifiers of the session, and one INSERT of their tuples
leads to `s'`. -/
def AllAppended {B : Type} (srv : Server) (s : Session B) (events : List (E × EventContext))
    (ids : List EventId) (s' : Session B) : Prop :=
  ∃ ps, encodeFrom s.uuids events = .ok ps ∧ ids = ps.map (fun p => ⟨p.eventId⟩) ∧
    (s.skip events.length).insertTuples srv (ps.map (·.tuple)) = (.ok (), s')

/-- The first event is encoded first. -/
theorem encodeFrom_cons_eq_ok_iff {uuids : ℕ → Uuid} {pair : E × EventContext}
    {rest : List (E × EventContext)} {all : List Params} :
    encodeFrom uuids (pair :: rest) = .ok all ↔ ∃ p ps, all = p :: ps ∧
      encode (uuids 0) pair.1 pair.2 = .ok p ∧
      encodeFrom (fun i => uuids (i + 1)) rest = .ok ps := by
  rw [encodeFrom]
  cases encode (uuids 0) pair.1 pair.2 with
  | error e => exact ⟨(nomatch ·), fun ⟨_, _, _, h, _⟩ => nomatch h⟩
  | ok p =>
    cases encodeFrom (fun i => uuids (i + 1)) rest with
    | error e => exact ⟨(nomatch ·), fun ⟨_, _, _, _, h⟩ => nomatch h⟩
    | ok ps =>
      constructor
      · intro h
        exact ⟨p, ps, (Except.ok.inj h).symm, rfl, rfl⟩
      · rintro ⟨p', ps', rfl, hp, hps⟩
        rw [← Except.ok.inj hp, ← Except.ok.inj hps]
        rfl

/-- Encoded events are the rows of the batch, and their identifiers are the successive ones. -/
theorem encodeFrom_ok {uuids : ℕ → Uuid} {events : List (E × EventContext)} {ps : List Params}
    (h : encodeFrom uuids events = .ok ps) :
    EncodeAll ps events ∧ ps.map (·.eventId) = (List.range events.length).map uuids := by
  induction events generalizing uuids ps with
  | nil =>
    obtain rfl := Except.ok.inj h
    exact ⟨.nil, rfl⟩
  | cons pair rest ih =>
    obtain ⟨p, ps, rfl, hp, hps⟩ := encodeFrom_cons_eq_ok_iff.1 h
    obtain ⟨hall, hids⟩ := ih hps
    have hid := eventId_of_encode hp
    refine ⟨.cons (hid ▸ hp) hall, ?_⟩
    rw [List.map_cons, hids, hid, List.length_cons, List.range_succ_eq_map, List.map_cons,
      List.map_map]
    rfl

/-- Events that are encoded have callbacks. -/
theorem validateAll_of_encodeFrom {uuids : ℕ → Uuid} {events : List (E × EventContext)}
    {ps : List Params} (h : encodeFrom uuids events = .ok ps) : validateAll events = .ok () := by
  induction events generalizing uuids ps with
  | nil => rfl
  | cons pair rest ih =>
    obtain ⟨p, ps, rfl, hp, hps⟩ := encodeFrom_cons_eq_ok_iff.1 h
    rw [validateAll_cons, (encode_eq_ok_iff.1 hp).1]
    exact ih hps

/-! ## The single calls -/

section
variable {B : Type} {srv : Server} {s s' : Session B} {work : Db B}

/-- A single call succeeds when the event is encoded under the next identifier and its INSERT
succeeds. Reference: `append` (`outbox-publisher-sqlx/src/lib.rs:68`). -/
theorem run_append_eq_ok_iff {event : E} {ctx : EventContext} {id : EventId} :
    s.run srv (append event ctx) = (.ok id, s') ↔
      ∃ p, encode (s.uuids 0) event ctx = .ok p ∧
        (s.skip 1).insertTuples srv [p.tuple] = (.ok (), s') ∧ id = ⟨s.uuids 0⟩ := by
  have hrun : s.run srv (append event ctx) =
      Program.run (Session.handle srv) (ExceptT.run (insert (s.uuids 0) event ctx))
        (s.skip 1) := rfl
  rw [hrun, run_insert]
  cases encode (s.uuids 0) event ctx with
  | error e => exact ⟨(nomatch ·), fun ⟨_, h, _⟩ => nomatch h⟩
  | ok p =>
    simp only
    rw [Session.run_send srv (Statement.tuples_insertValues p), Prod.mk.injEq, mapResult_eq_ok_iff]
    constructor
    · rintro ⟨⟨hok, hid⟩, hs'⟩
      exact ⟨p, rfl, Prod.ext hok hs', hid⟩
    · rintro ⟨p', hp, hins, hid⟩
      rw [Except.ok.inj hp, hins]
      exact ⟨⟨rfl, hid⟩, rfl⟩

/-- The single calls on a pair and the rest succeed when the first does, and the rest from the
session it leads to. -/
theorem run_appendAll_cons_eq_ok_iff {pair : E × EventContext} {rest : List (E × EventContext)}
    {ids : List EventId} :
    s.run srv (appendAll (pair :: rest)) = (.ok ids, s') ↔
      ∃ p s₁ ids', encode (s.uuids 0) pair.1 pair.2 = .ok p ∧
        (s.skip 1).insertTuples srv [p.tuple] = (.ok (), s₁) ∧ ids = ⟨s.uuids 0⟩ :: ids' ∧
        s₁.run srv (appendAll rest) = (.ok ids', s') := by
  have hcons : appendAll (pair :: rest) =
      append pair.1 pair.2 >>= fun id => appendAll rest >>= fun ids => pure (id :: ids) :=
    List.mapM_cons
  rw [hcons, Session.run_bind_eq_ok_iff]
  simp only [run_append_eq_ok_iff, Session.run_bind_eq_ok_iff, Session.run_pure, Prod.mk.injEq,
    Except.ok.injEq]
  constructor
  · rintro ⟨id, s₁, ⟨p, hp, hins, rfl⟩, ids', s₂, hrest, rfl, rfl⟩
    exact ⟨p, s₁, ids', hp, hins, rfl, hrest⟩
  · rintro ⟨p, s₁, ids', hp, hins, rfl, hrest⟩
    exact ⟨_, s₁, ⟨p, hp, hins, rfl⟩, ids', s', hrest, rfl, rfl⟩

omit [Serialize Map] [Serialize (List Value)] in
/-- Once the identifiers of a batch are drawn, the INSERT of its first tuple decides first. -/
theorem insertTuples_skip_cons (hs : s.tx = .active work) (p : Params) (ps : List Params) (n : ℕ) :
    (s.skip (n + 1)).insertTuples srv ((p :: ps).map (·.tuple)) =
      match (s.skip 1).insertTuples srv [p.tuple] with
      | (.error e, s₁) => (.error e, s₁.skip n)
      | (.ok _, s₁) => (s₁.skip n).insertTuples srv (ps.map (·.tuple)) := by
  rw [Nat.add_comm, ← Session.skip_skip, List.map_cons,
    Session.insertTuples_cons (s := (s.skip 1).skip n) hs, Session.insertTuples_skip]
  obtain ⟨result, s₁⟩ := (s.skip 1).insertTuples srv [p.tuple]
  cases result <;> rfl

/-- One INSERT of all the tuples succeeds when that of the first does, and that of the rest from the
session it leads to. -/
theorem allAppended_cons_iff {pair : E × EventContext} {rest : List (E × EventContext)}
    {ids : List EventId} (hs : s.tx = .active work) :
    AllAppended srv s (pair :: rest) ids s' ↔
      ∃ p s₁ ids', encode (s.uuids 0) pair.1 pair.2 = .ok p ∧
        (s.skip 1).insertTuples srv [p.tuple] = (.ok (), s₁) ∧ ids = ⟨s.uuids 0⟩ :: ids' ∧
        AllAppended srv s₁ rest ids' s' := by
  constructor
  · rintro ⟨all, henc, rfl, hins⟩
    obtain ⟨p, ps, rfl, hp, hps⟩ := encodeFrom_cons_eq_ok_iff.1 henc
    rw [List.length_cons, insertTuples_skip_cons hs] at hins
    cases hfirst : (s.skip 1).insertTuples srv [p.tuple] with
    | mk result s₁ =>
      cases result with
      | error e =>
        rw [hfirst] at hins
        exact nomatch hins
      | ok u =>
        rw [hfirst] at hins
        have huuids := Session.insertTuples_uuids srv (s.skip 1) [p.tuple]
        rw [hfirst] at huuids
        refine ⟨p, s₁, _, hp, hfirst, ?_, ps, ?_, rfl, hins⟩
        · rw [List.map_cons, eventId_of_encode hp]
        · rw [huuids]
          exact hps
  · rintro ⟨p, s₁, ids', hp, hfirst, rfl, ps, hps, rfl, hins⟩
    have huuids := Session.insertTuples_uuids srv (s.skip 1) [p.tuple]
    rw [hfirst] at huuids
    rw [huuids] at hps
    refine ⟨p :: ps, encodeFrom_cons_eq_ok_iff.2 ⟨p, ps, rfl, hp, hps⟩, ?_, ?_⟩
    · rw [List.map_cons, eventId_of_encode hp]
    · rw [List.length_cons, insertTuples_skip_cons hs, hfirst]
      exact hins

/-- No single call changes nothing. -/
theorem run_appendAll_nil (s : Session B) :
    s.run srv (appendAll ([] : List (E × EventContext))) = (.ok [], s) := rfl

/-- **The single calls.** They all succeed exactly when one INSERT of their tuples would, and then
lead where it leads. -/
theorem run_appendAll_eq_ok_iff {events : List (E × EventContext)} {ids : List EventId}
    (hs : s.tx = .active work) :
    s.run srv (appendAll events) = (.ok ids, s') ↔ AllAppended srv s events ids s' := by
  induction events generalizing s work ids with
  | nil =>
    rw [run_appendAll_nil]
    constructor
    · intro h
      obtain ⟨hids, rfl⟩ := Prod.mk.inj h
      obtain rfl := Except.ok.inj hids
      exact ⟨[], rfl, rfl, Session.insertTuples_nil hs⟩
    · rintro ⟨ps, hps, rfl, hins⟩
      obtain rfl := Except.ok.inj hps
      rw [List.map_nil, List.length_nil, Session.skip_zero, Session.insertTuples_nil hs] at hins
      rw [(Prod.mk.inj hins).2]
      rfl
  | cons pair rest ih =>
    rw [run_appendAll_cons_eq_ok_iff, allAppended_cons_iff hs]
    refine exists_congr fun p => exists_congr fun s₁ => exists_congr fun ids' =>
      and_congr_right fun _ => and_congr_right fun hins => and_congr_right fun _ => ?_
    obtain ⟨rows, seq, -, hact⟩ | ⟨code, seq, hact⟩ :=
      Session.insertTuples_active srv (s := s.skip 1) hs [p.tuple]
    · obtain rfl := (Prod.mk.inj (hins.symm.trans hact)).2
      exact ih rfl
    · exact nomatch hins.symm.trans hact

/-! ## The batch call -/

omit [Serialize Map] [Serialize (List Value)] in
/-- The statement of a batch inserts the tuples of its rows and returns their identifiers.
Reference: `insert_batch` (`outbox-publisher-sqlx/src/lib.rs:212`). -/
theorem run_sendColumns_eq_ok_iff {ps : List Params} {ids : List EventId} :
    s.run srv (sendColumns (.ofParams ps)) = (.ok ids, s') ↔
      ids = ps.map (fun p => ⟨p.eventId⟩) ∧
        s.insertTuples srv (ps.map (·.tuple)) = (.ok (), s') := by
  have hts : (Statement.insertUnnest (.ofParams ps)).tuples = some (ps.map (·.tuple)) :=
    congrArg some (Columns.unnest_ofParams ps)
  have hrun := Session.run_send srv hts (ps.map fun p => (⟨p.eventId⟩ : EventId)) s
  have hids : (Columns.ofParams ps).eventIds.map EventId.mk =
      ps.map fun p => (⟨p.eventId⟩ : EventId) := List.map_map
  rw [← hids] at hrun
  refine (Eq.congr_left hrun).trans ?_
  rw [hids, Prod.mk.injEq, mapResult_eq_ok_iff]
  constructor
  · rintro ⟨⟨hok, rfl⟩, hs'⟩
    exact ⟨rfl, Prod.ext hok hs'⟩
  · rintro ⟨rfl, hins⟩
    rw [hins]
    exact ⟨⟨rfl, rfl⟩, rfl⟩

/-- The filling of the arrays and the statement succeed when the events are encoded and the
statement succeeds after them. -/
theorem run_foldlM_eq_ok_iff {rest : List (E × EventContext)} {ids : List EventId}
    (hval : ∀ pair ∈ rest, validateCallbacks pair.2 = .ok ()) :
    ∀ {ps : List Params} {s : Session B},
      s.run srv (rest.foldlM pushEvent (.ofParams ps) >>= sendColumns) = (.ok ids, s') ↔
        ∃ new, encodeFrom s.uuids rest = .ok new ∧
          (s.skip rest.length).run srv (sendColumns (.ofParams (ps ++ new))) = (.ok ids, s') := by
  induction rest with
  | nil =>
    intro ps s
    constructor
    · intro h
      refine ⟨[], rfl, ?_⟩
      rw [List.append_nil]
      exact h
    · rintro ⟨new, hnew, h⟩
      rw [← Except.ok.inj hnew, List.append_nil] at h
      exact h
  | cons pair rest ih =>
    intro ps s
    rw [List.foldlM_cons, bind_assoc, Session.run,
      run_pushEvent_bind ps pair (hval pair (by simp)), Program.run_call, Session.handle]
    simp only [encodeFrom_cons_eq_ok_iff]
    cases encode (s.uuids 0) pair.1 pair.2 with
    | error e =>
      constructor
      · intro h
        cases (Prod.mk.inj h).1
      · rintro ⟨_, ⟨_, _, _, h, _⟩, _⟩
        cases h
    | ok p =>
      refine (ih fun q hq => hval q (by simp [hq])).trans ?_
      have hskip : s.skip (pair :: rest).length = (s.skip 1).skip rest.length := by
        rw [List.length_cons, Nat.add_comm, Session.skip_skip]
      rw [hskip]
      constructor
      · rintro ⟨new, hnew, h⟩
        refine ⟨p :: new, ⟨p, new, rfl, rfl, hnew⟩, ?_⟩
        rwa [List.append_assoc] at h
      · rintro ⟨_, ⟨p', new, rfl, hp, hnew⟩, h⟩
        refine ⟨new, hnew, ?_⟩
        rwa [List.append_assoc, Except.ok.inj hp]

/-- **The batch call.** It succeeds exactly when one INSERT of the tuples of its events does, and
then leads where that leads. -/
theorem run_appendBatch_eq_ok_iff {events : List (E × EventContext)} {ids : List EventId}
    (hs : s.tx = .active work) :
    s.run srv (appendBatch events) = (.ok ids, s') ↔ AllAppended srv s events ids s' := by
  cases events with
  | nil =>
    have hnil : s.run srv (appendBatch ([] : List (E × EventContext))) = (.ok [], s) := rfl
    rw [hnil]
    exact (Eq.congr_left (run_appendAll_nil s).symm).trans (run_appendAll_eq_ok_iff hs)
  | cons pair rest =>
    cases hval : validateAll (pair :: rest) with
    | error e =>
      have hrun : s.run srv (appendBatch (pair :: rest)) = (.error e, s) := by
        rw [Session.run, appendBatch_of_invalid hval]
        rfl
      rw [hrun]
      constructor
      · intro h
        cases (Prod.mk.inj h).1
      · rintro ⟨ps, hps, -⟩
        rw [validateAll_of_encodeFrom hps] at hval
        cases hval
    | ok u =>
      rw [appendBatch_of_valid hval, run_foldlM_eq_ok_iff (validateAll_eq_ok_iff.1 hval)]
      exact exists_congr fun ps => and_congr_right fun _ => run_sendColumns_eq_ok_iff

/-! ## Refinement -/

/-- What `AllAppended` adds to the transaction: one row per event, in order, which records the event
under the identifier at its place. -/
theorem AllAppended.rows {events : List (E × EventContext)} {ids : List EventId}
    (h : AllAppended srv s events ids s') (hs : s.tx = .active work) :
    ids = (List.range events.length).map (fun i => ⟨s.uuids i⟩) ∧
      ∃ rows, s'.tx = .active { work with outbox := work.outbox ++ rows } ∧
        rows.map (·.eventId) = ids.map (·.uuid) ∧
        List.Forall₂ RecordsPublished rows (zipPublished ids events) := by
  obtain ⟨ps, hps, rfl, hins⟩ := h
  obtain ⟨hall, huuids⟩ := encodeFrom_ok hps
  obtain ⟨rows, seq, hcols, hact⟩ | ⟨code, seq, hact⟩ :=
    Session.insertTuples_active srv (s := s.skip events.length) hs (ps.map (·.tuple))
  · obtain rfl := (Prod.mk.inj (hins.symm.trans hact)).2
    refine ⟨?_, rows, rfl, ?_, ?_⟩
    · have hids := congrArg (List.map EventId.mk) huuids
      rw [List.map_map, List.map_map] at hids
      exact hids
    · have hids := congrArg (List.map fun t => t.eventId.getD 0) hcols
      rw [List.map_map, List.map_map] at hids
      rw [List.map_map]
      exact hids
    · exact forall₂_records (hcols ▸ encodeAll_tuples hall)
  · exact nomatch hins.symm.trans hact

variable (srv) in
/-- **Batch publishing refines individual publishing.** In every active transaction `appendBatch`
succeeds exactly when `append` on one pair after the other does. Then the two return the same
identifiers, the successive fresh ones, and lead to the same session; its table has one more row per
pair, in order, which records the pair in all ten columns under the identifier at its place.
Reference: `append_batch_writes_same_columns_as_individual_appends`
(`tests/integration_test.rs:462`). -/
theorem appendBatch_refines (committed work : Db B) (seq : Sequence) (uuids : ℕ → Uuid)
    (events : List (E × EventContext)) :
    ((∃ ids, ((Session.mk committed seq (.active work) uuids).run srv
        (appendBatch events)).1 = .ok ids) ↔
      ∃ ids, ((Session.mk committed seq (.active work) uuids).run srv
        (appendAll events)).1 = .ok ids) ∧
    ∀ ids s', (Session.mk committed seq (.active work) uuids).run srv (appendBatch events) =
        (.ok ids, s') →
      (Session.mk committed seq (.active work) uuids).run srv (appendAll events) = (.ok ids, s') ∧
      ids = (List.range events.length).map (fun i => ⟨uuids i⟩) ∧
      ∃ rows, s'.tx = .active { work with outbox := work.outbox ++ rows } ∧
        rows.map (·.eventId) = ids.map (·.uuid) ∧
        List.Forall₂ RecordsPublished rows (zipPublished ids events) := by
  have hiff : ∀ ids s',
      (Session.mk committed seq (.active work) uuids).run srv (appendBatch events) =
          (.ok ids, s') ↔
        (Session.mk committed seq (.active work) uuids).run srv (appendAll events) =
          (.ok ids, s') :=
    fun _ _ => (run_appendBatch_eq_ok_iff rfl).trans (run_appendAll_eq_ok_iff rfl).symm
  refine ⟨⟨?_, ?_⟩, ?_⟩
  · rintro ⟨ids, h⟩
    exact ⟨ids, congrArg Prod.fst ((hiff ids _).1 (Prod.ext h rfl))⟩
  · rintro ⟨ids, h⟩
    exact ⟨ids, congrArg Prod.fst ((hiff ids _).2 (Prod.ext h rfl))⟩
  · intro ids s' h
    exact ⟨(hiff ids s').1 h, ((run_appendBatch_eq_ok_iff rfl).1 h).rows rfl⟩

end

end

end SqlxPublisher

end OutboxPublisher
