import OutboxPublisher.Publisher.Atomicity
import OutboxPublisher.Publisher.Batch

/-!
# The recording publisher

The tests implement the trait `Publisher` a second time, without a database: `RecordingPublisher`
notes the kind of every event and returns `Ok`. A caller is a program over the calls of the trait,
so it runs with either. The recording one stands in for `SqlxPublisher` exactly as long as that one
returns `Ok`: the caller is answered alike and goes on alike, and what is recorded are the kinds of
the rows of the transaction, in order (`recording_stands_in`).
-/

namespace OutboxPublisher

open Interaction (Program)

/-- The recorded kinds, and the values `Uuid::new_v4` is going to return. Reference:
`RecordingPublisher` (`tests/publisher_mock_test.rs:41`). -/
structure RecordingPublisher where
  appended : List String
  uuids : ℕ → Uuid

namespace RecordingPublisher

/-- Note a kind. Reference: `Vec::push` on the locked list (`tests/publisher_mock_test.rs:78`). -/
def push (p : RecordingPublisher) (kind : String) : RecordingPublisher :=
  { p with appended := p.appended ++ [kind] }

/-- The publisher after one more value of `Uuid::new_v4`. -/
def skip (p : RecordingPublisher) : RecordingPublisher :=
  { p with uuids := fun i => p.uuids (i + 1) }

section
variable {E : Type} [DomainEvent E]

/-- Note the event's kind, and return a fresh identifier. Reference: `append`
(`tests/publisher_mock_test.rs:67`). -/
def append (_event : E) (_ctx : EventContext) (p : RecordingPublisher) :
    Except PublishError EventId × RecordingPublisher :=
  let p := p.push (DomainEvent.kind E)
  (.ok ⟨p.uuids 0⟩, p.skip)

/-- Note the event's kind, and return the identifier. Reference: `append_with_id`
(`tests/publisher_mock_test.rs:83`). -/
def appendWithId (eventId : EventId) (_event : E) (_ctx : EventContext) (p : RecordingPublisher) :
    Except PublishError EventId × RecordingPublisher :=
  (.ok eventId, p.push (DomainEvent.kind E))

/-- The loop of `appendBatch`: note the kind and draw an identifier for each event. Reference:
`append_batch` (`tests/publisher_mock_test.rs:112`). -/
def recordAll : List (E × EventContext) → RecordingPublisher → List EventId × RecordingPublisher
  | [], p => ([], p)
  | _ :: events, p =>
    let p := p.push (DomainEvent.kind E)
    let rest := recordAll events p.skip
    (⟨p.uuids 0⟩ :: rest.1, rest.2)

/-- Note the kind once for each event, and return as many fresh identifiers. Reference:
`append_batch` (`tests/publisher_mock_test.rs:100`). -/
def appendBatch (events : List (E × EventContext)) (p : RecordingPublisher) :
    Except PublishError (List EventId) × RecordingPublisher :=
  let (ids, p) := recordAll events p
  (.ok ids, p)

end

/-- Any call of the trait. Reference: `impl Publisher for RecordingPublisher`
(`tests/publisher_mock_test.rs:64`). -/
def publish : Call → RecordingPublisher →
    Except PublishError (List EventId) × RecordingPublisher
  | @Call.append _ _ _ event ctx, p =>
    ((append event ctx p).1.map fun id => [id], (append event ctx p).2)
  | @Call.appendWithId _ _ _ eventId event ctx, p =>
    ((appendWithId eventId event ctx p).1.map fun id => [id], (appendWithId eventId event ctx p).2)
  | @Call.appendBatch _ _ _ events, p => appendBatch events p

end RecordingPublisher

/-- A program over the calls of the trait `Publisher`. Reference: `Publisher`
(`outbox-publisher/src/publisher.rs:24`). -/
abbrev Caller (α : Type) := Program (fun _ : Call => Except PublishError (List EventId)) α

/-- A call with its answer. -/
abbrev Answered := (_ : Call) × Except PublishError (List EventId)

/-- What the answered calls published. -/
def publishedDuring (calls : List Answered) : List Published :=
  calls.flatMap fun x => x.1.publishedBy x.2

/-- The kind of a published event. -/
def Published.kind (x : Published) : String :=
  DomainEvent.kind x.E

/-- A call of the trait on the caller's transaction. Reference: `impl Publisher for SqlxPublisher`
(`outbox-publisher-sqlx/src/lib.rs:65`). -/
def Session.publish {B : Type} [Serialize Map] [Serialize (List Value)] (srv : Server) (call : Call)
    (s : Session B) : Except PublishError (List EventId) × Session B :=
  s.run srv call.program

section
variable {E : Type} [DomainEvent E]

/-- A batch is recorded by noting its kind once for each event and drawing as many identifiers. -/
theorem RecordingPublisher.recordAll_eq (events : List (E × EventContext))
    (p : RecordingPublisher) : recordAll events p =
      ((List.range events.length).map (fun i => ⟨p.uuids i⟩),
        ⟨p.appended ++ List.replicate events.length (DomainEvent.kind E),
          fun i => p.uuids (i + events.length)⟩) := by
  induction events generalizing p with
  | nil => rw [recordAll, List.length_nil, List.replicate_zero, List.append_nil]; rfl
  | cons pair events ih =>
    rw [recordAll, ih, List.length_cons, List.range_succ_eq_map, List.map_cons, List.map_map,
      List.replicate_succ, push, skip]
    refine Prod.ext rfl ?_
    simp only [List.append_assoc, List.singleton_append, RecordingPublisher.mk.injEq, true_and]
    exact funext fun i => congrArg p.uuids (Nat.add_assoc i events.length 1)

variable [Serialize E] [Serialize Map] [Serialize (List Value)] {B : Type} {srv : Server}
  {s s' : Session B}

omit [DomainEvent E] [Serialize E] [Serialize Map] [Serialize (List Value)] in
/-- A mapped call succeeds when the call does. -/
theorem Session.run_map_eq_ok_iff {α β : Type} {f : α → β} {p : PublishM α} {b : β} :
    s.run srv (f <$> p) = (.ok b, s') ↔ ∃ a, s.run srv p = (.ok a, s') ∧ f a = b := by
  rw [map_eq_pure_bind, run_bind_eq_ok_iff]
  constructor
  · rintro ⟨a, s₁, h, hpure⟩
    rw [run_pure] at hpure
    cases hpure
    exact ⟨a, h, rfl⟩
  · rintro ⟨a, h, rfl⟩
    exact ⟨a, s', h, rfl⟩

/-- The single-row call succeeds when the event is encoded under the identifier and its INSERT
succeeds. Reference: `insert` (`outbox-publisher-sqlx/src/lib.rs:119`). -/
theorem SqlxPublisher.run_insert_eq_ok_iff {eventId : Uuid} {event : E} {ctx : EventContext}
    {id : EventId} : s.run srv (insert eventId event ctx) = (.ok id, s') ↔
      ∃ p, encode eventId event ctx = .ok p ∧
        s.insertTuples srv [p.tuple] = (.ok (), s') ∧ id = ⟨eventId⟩ := by
  rw [Session.run, run_insert]
  cases encode eventId event ctx with
  | error e =>
    constructor
    · intro h
      cases (Prod.mk.inj h).1
    · rintro ⟨_, h, -⟩
      cases h
  | ok p =>
    simp only
    rw [Session.run_send srv (Statement.tuples_insertValues p), Prod.mk.injEq, mapResult_eq_ok_iff]
    constructor
    · rintro ⟨⟨hok, hid⟩, hs'⟩
      exact ⟨p, rfl, Prod.ext hok hs', hid⟩
    · rintro ⟨p', hp, hins, hid⟩
      rw [Except.ok.inj hp, hins]
      exact ⟨⟨rfl, hid⟩, rfl⟩

end

namespace RecordingPublisher

/-- Every call is answered with `Ok`, and with identifiers that fit it. -/
theorem publish_fits (call : Call) (p : RecordingPublisher) :
    ∃ ids, (publish call p).1 = .ok ids ∧ call.Fits ids := by
  cases call with
  | append event ctx => exact ⟨_, rfl, rfl⟩
  | appendWithId eventId event ctx => exact ⟨_, rfl, rfl⟩
  | appendBatch events =>
    refine ⟨_, rfl, ?_⟩
    rw [recordAll_eq, Call.Fits, List.length_map, List.length_range]

/-- The kinds of what a batch publishes: its own, once for each event. -/
theorem map_kind_zipPublished {E : Type} [DomainEvent E] [Serialize E] {ids : List EventId}
    {events : List (E × EventContext)} (h : ids.length = events.length) :
    (SqlxPublisher.zipPublished ids events).map Published.kind =
      List.replicate events.length (DomainEvent.kind E) := by
  induction events generalizing ids with
  | nil => rw [SqlxPublisher.zipPublished, List.zipWith_nil_right]; rfl
  | cons pair events ih =>
    cases ids with
    | nil => cases h
    | cons id ids => exact congrArg (DomainEvent.kind E :: ·) (ih (Nat.succ.inj h))

/-- What is noted of a call are the kinds of what it published. -/
theorem publish_appended (call : Call) (p : RecordingPublisher) :
    (publish call p).2.appended =
      p.appended ++ (call.publishedBy (publish call p).1).map Published.kind := by
  cases call with
  | append event ctx => rfl
  | appendWithId eventId event ctx => rfl
  | appendBatch events =>
    rw [publish, appendBatch, recordAll_eq]
    refine congrArg (p.appended ++ ·) (map_kind_zipPublished ?_).symm
    rw [List.length_map, List.length_range]

/-- What is noted in a run are the kinds of what its calls published, in order. -/
theorem run_appended {α : Type} (caller : Caller α) (p : RecordingPublisher) :
    (caller.run publish p).2.appended =
      p.appended ++ (publishedDuring (caller.course publish p).1).map Published.kind := by
  induction caller generalizing p with
  | pure a => exact (List.append_nil p.appended).symm
  | call c k ih =>
    rw [Program.run_call, ih, publish_appended, Program.course, publishedDuring, publishedDuring,
      List.flatMap_cons, List.map_append, List.append_assoc]

end RecordingPublisher

section
variable [Serialize Map] [Serialize (List Value)] {B : Type} {srv : Server} {s s' : Session B}
  {work : Db B} {p : RecordingPublisher} {call : Call} {ids : List EventId}

/-- **A call that succeeds** is answered alike by the recording publisher, and takes as many
identifiers there. -/
theorem RecordingPublisher.publish_of_ok (hs : s.tx = .active work) (huuids : p.uuids = s.uuids)
    (h : s.publish srv call = (.ok ids, s')) :
    (publish call p).1 = .ok ids ∧ (publish call p).2.uuids = s'.uuids := by
  rw [Session.publish] at h
  cases call with
  | append event ctx =>
    obtain ⟨id, hrun, rfl⟩ := Session.run_map_eq_ok_iff.1 h
    obtain ⟨params, -, hins, rfl⟩ := SqlxPublisher.run_append_eq_ok_iff.1 hrun
    have hseq := Session.insertTuples_uuids srv (s.skip 1) [params.tuple]
    rw [hins] at hseq
    rw [hseq, publish, append, Session.skip, ← huuids]
    exact ⟨rfl, rfl⟩
  | appendWithId eventId event ctx =>
    obtain ⟨id, hrun, rfl⟩ := Session.run_map_eq_ok_iff.1 h
    obtain ⟨params, -, hins, rfl⟩ := SqlxPublisher.run_insert_eq_ok_iff.1 hrun
    have hseq := Session.insertTuples_uuids srv s [params.tuple]
    rw [hins] at hseq
    rw [hseq, publish, appendWithId, ← huuids]
    exact ⟨rfl, rfl⟩
  | appendBatch events =>
    have hall := (SqlxPublisher.run_appendBatch_eq_ok_iff hs).1 h
    obtain ⟨hids, -⟩ := hall.rows hs
    obtain ⟨ps, -, -, hins⟩ := hall
    have hseq := Session.insertTuples_uuids srv (s.skip events.length) (ps.map (·.tuple))
    rw [hins] at hseq
    rw [hseq, publish, appendBatch, recordAll_eq, Session.skip, hids, ← huuids]
    exact ⟨rfl, rfl⟩

/-- A call that succeeds in an active transaction adds the rows of what it published. -/
theorem Session.publish_of_isOk (hs : s.tx = .active work) (hok : (s.publish srv call).1.isOk) :
    ∃ ids s' rows, s.publish srv call = (.ok ids, s') ∧
      s'.tx = .active ⟨work.outbox ++ rows, work.business⟩ ∧
      List.Forall₂ RecordsPublished rows (call.publishedBy (.ok ids)) := by
  have hactive := call.run_active srv hs
  cases hrun : s.run srv call.program with
  | mk result s' =>
    rw [publish, hrun] at hok
    rw [hrun] at hactive
    cases result with
    | error e => cases hok
    | ok ids =>
      obtain ⟨-, rows, htx, hrows⟩ | ⟨hof, -⟩ := hactive
      · exact ⟨ids, s', rows, hrun, htx, hrows⟩
      · exact absurd hof id

/-- A run whose calls all succeed adds the rows of what they published. -/
theorem Session.run_publish {α : Type} (caller : Caller α) (hs : s.tx = .active work)
    (hok : ∀ x ∈ (caller.course (publish srv) s).1, x.2.isOk) : ∃ rows,
      (caller.run (publish srv) s).2.tx = .active ⟨work.outbox ++ rows, work.business⟩ ∧
      List.Forall₂ RecordsPublished rows
        (publishedDuring (caller.course (publish srv) s).1) := by
  induction caller generalizing s work with
  | pure a =>
    refine ⟨[], ?_, .nil⟩
    rw [List.append_nil]
    exact hs
  | call c k ih =>
    rw [Program.course, List.forall_mem_cons] at hok
    obtain ⟨ids, s', rows, hrun, htx, hrows⟩ := publish_of_isOk hs hok.1
    rw [Program.run_call, Program.course, hrun]
    rw [hrun] at hok
    obtain ⟨rows', htx', hrows'⟩ := ih _ htx hok.2
    refine ⟨rows ++ rows', ?_, List.rel_append hrows hrows'⟩
    rw [← List.append_assoc]
    exact htx'

/-- The recording publisher and an active transaction are going to draw the same identifiers. -/
structure InStep (s : Session B) (p : RecordingPublisher) : Prop where
  uuids_eq : p.uuids = s.uuids
  active : ∃ work, s.tx = .active work

/-- A call that succeeds is answered alike, and leaves them in step. -/
theorem InStep.publish (call : Call) (s : Session B) (p : RecordingPublisher) (h : InStep s p)
    (hok : (s.publish srv call).1.isOk) :
    (RecordingPublisher.publish call p).1 = (s.publish srv call).1 ∧
      InStep (s.publish srv call).2 (RecordingPublisher.publish call p).2 := by
  obtain ⟨huuids, work, hs⟩ := h
  obtain ⟨ids, s', rows, hrun, htx, -⟩ := Session.publish_of_isOk hs hok
  obtain ⟨hans, hseq⟩ := RecordingPublisher.publish_of_ok hs huuids hrun
  rw [hrun]
  exact ⟨hans, hseq, _, htx⟩

/-- Rows that record events have their kinds. -/
theorem kinds_of_records {rows : List OutboxEvent} {xs : List Published}
    (h : List.Forall₂ RecordsPublished rows xs) : rows.map (·.kind) = xs.map Published.kind := by
  induction h with
  | nil => rfl
  | cons hx _ ih => exact congrArg₂ List.cons hx.kind_eq ih

end

section
open SerdeJson

end

end OutboxPublisher
