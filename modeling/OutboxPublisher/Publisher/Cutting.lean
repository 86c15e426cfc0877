import OutboxPublisher.Publisher.Batch

/-!
# Cutting a list of events into batches

A list of events may be published in one batch, event by event, or cut into batches anywhere: in an
active transaction all of these succeed on the same sessions, with the same identifiers and the same
session afterwards (`run_appendParts_eq_ok_iff`). The batch of all events and the batches of one are
the two ends. The proof appends the INSERTs that `AllAppended` speaks of.
-/

namespace OutboxPublisher

namespace SqlxPublisher

section
variable {E : Type} [DomainEvent E] [Serialize E] [Serialize Map] [Serialize (List Value)]

/-- One batch after the other, up to the first error: the identifiers of all of them. -/
def appendParts (parts : List (List (E × EventContext))) : PublishM (List EventId) := do
  let ids ← parts.mapM appendBatch
  return ids.flatten

section
variable {B : Type} {srv : Server} {s s' : Session B} {work : Db B}

/-- A transaction in which events have been appended is still at work. -/
theorem AllAppended.active {events : List (E × EventContext)} {ids : List EventId}
    (h : AllAppended srv s events ids s') (hs : s.tx = .active work) :
    ∃ work', s'.tx = .active work' := by
  obtain ⟨-, rows, htx, -, -⟩ := h.rows hs
  exact ⟨_, htx⟩

/-- Appending no event changes nothing. -/
theorem allAppended_nil_iff {ids : List EventId} (hs : s.tx = .active work) :
    AllAppended srv s ([] : List (E × EventContext)) ids s' ↔ ids = [] ∧ s' = s := by
  rw [← run_appendAll_eq_ok_iff hs, run_appendAll_nil, Prod.mk.injEq, Except.ok.injEq]
  exact ⟨fun h => ⟨h.1.symm, h.2.symm⟩, fun h => ⟨h.1.symm, h.2.symm⟩⟩

/-- **Appending some events and then others** is appending them all. -/
theorem allAppended_append_iff {xs ys : List (E × EventContext)} {ids : List EventId}
    (hs : s.tx = .active work) :
    AllAppended srv s (xs ++ ys) ids s' ↔ ∃ s₁ ids₁ ids₂, AllAppended srv s xs ids₁ s₁ ∧
      AllAppended srv s₁ ys ids₂ s' ∧ ids = ids₁ ++ ids₂ := by
  induction xs generalizing s work ids with
  | nil =>
    constructor
    · intro h
      exact ⟨s, [], ids, (allAppended_nil_iff hs).2 ⟨rfl, rfl⟩, h, rfl⟩
    · rintro ⟨s₁, ids₁, ids₂, h₁, h₂, rfl⟩
      obtain ⟨rfl, rfl⟩ := (allAppended_nil_iff hs).1 h₁
      exact h₂
  | cons pair xs ih =>
    rw [List.cons_append, allAppended_cons_iff hs]
    constructor
    · rintro ⟨p, s₁, ids', hp, hins, rfl, h⟩
      obtain ⟨rows, seq, -, hact⟩ | ⟨code, seq, hact⟩ :=
        Session.insertTuples_active srv (s := s.skip 1) hs [p.tuple]
      · obtain rfl := (Prod.mk.inj (hins.symm.trans hact)).2
        obtain ⟨s₂, ids₁, ids₂, h₁, h₂, rfl⟩ := (ih rfl).1 h
        exact ⟨s₂, _, ids₂, (allAppended_cons_iff hs).2 ⟨p, _, ids₁, hp, hins, rfl, h₁⟩, h₂, rfl⟩
      · cases hins.symm.trans hact
    · rintro ⟨s₂, ids₁, ids₂, h₁, h₂, rfl⟩
      obtain ⟨p, s₁, ids', hp, hins, rfl, h₁⟩ := (allAppended_cons_iff hs).1 h₁
      obtain ⟨rows, seq, -, hact⟩ | ⟨code, seq, hact⟩ :=
        Session.insertTuples_active srv (s := s.skip 1) hs [p.tuple]
      · obtain rfl := (Prod.mk.inj (hins.symm.trans hact)).2
        exact ⟨p, _, ids' ++ ids₂, hp, hins, rfl, (ih rfl).2 ⟨s₂, ids', ids₂, h₁, h₂, rfl⟩⟩
      · cases hins.symm.trans hact

/-- One batch after the other is a batch and then the rest. -/
theorem run_appendParts_cons_eq_ok_iff {part : List (E × EventContext)}
    {parts : List (List (E × EventContext))} {ids : List EventId} :
    s.run srv (appendParts (part :: parts)) = (.ok ids, s') ↔
      ∃ s₁ ids₁ ids₂, s.run srv (appendBatch part) = (.ok ids₁, s₁) ∧
        s₁.run srv (appendParts parts) = (.ok ids₂, s') ∧ ids = ids₁ ++ ids₂ := by
  simp only [appendParts, List.mapM_cons, bind_assoc, pure_bind, Session.run_bind_eq_ok_iff,
    Session.run_pure, Prod.mk.injEq, Except.ok.injEq, List.flatten_cons]
  constructor
  · rintro ⟨ids₁, s₁, h₁, idss, s₂, h₂, rfl, rfl⟩
    exact ⟨s₁, ids₁, idss.flatten, h₁, ⟨idss, s₂, h₂, rfl, rfl⟩, rfl⟩
  · rintro ⟨s₁, ids₁, ids₂, h₁, ⟨idss, s₂, h₂, rfl, rfl⟩, rfl⟩
    exact ⟨ids₁, s₁, h₁, idss, s₂, h₂, rfl, rfl⟩

/-- **Batches one after the other** succeed exactly when one INSERT of all their tuples would, and
then lead where it leads. -/
theorem run_appendParts_eq_ok_iff {parts : List (List (E × EventContext))} {ids : List EventId}
    (hs : s.tx = .active work) :
    s.run srv (appendParts parts) = (.ok ids, s') ↔ AllAppended srv s parts.flatten ids s' := by
  induction parts generalizing s work ids with
  | nil =>
    rw [List.flatten_nil, allAppended_nil_iff hs]
    have hnil : s.run srv (appendParts ([] : List (List (E × EventContext)))) = (.ok [], s) := rfl
    rw [hnil, Prod.mk.injEq, Except.ok.injEq]
    exact ⟨fun h => ⟨h.1.symm, h.2.symm⟩, fun h => ⟨h.1.symm, h.2.symm⟩⟩
  | cons part parts ih =>
    rw [run_appendParts_cons_eq_ok_iff, List.flatten_cons, allAppended_append_iff hs]
    refine exists_congr fun s₁ => exists_congr fun ids₁ => exists_congr fun ids₂ => ?_
    rw [run_appendBatch_eq_ok_iff hs]
    refine and_congr_right fun h₁ => and_congr_left fun _ => ?_
    obtain ⟨work', htx⟩ := h₁.active hs
    exact ih htx

variable (srv) in
/-- **Where a list of events is cut does not matter.** In every active transaction, two ways to cut
one list of events into batches, batches of one and of none included, succeed on the same sessions,
with the same identifiers and the same session afterwards, whose table has one more row per event,
in order, which records it under the identifier at its place. Reference: `append_batch`
(`outbox-publisher/src/publisher.rs:61`). -/
theorem appendParts_congr {parts parts' : List (List (E × EventContext))}
    (hflatten : parts.flatten = parts'.flatten) (hs : s.tx = .active work) (ids : List EventId)
    (s' : Session B) :
    (s.run srv (appendParts parts) = (.ok ids, s') ↔
      s.run srv (appendParts parts') = (.ok ids, s')) ∧
    (s.run srv (appendParts parts) = (.ok ids, s') →
      ids = (List.range parts.flatten.length).map (fun i => ⟨s.uuids i⟩) ∧
      ∃ rows, s'.tx = .active { work with outbox := work.outbox ++ rows } ∧
        rows.map (·.eventId) = ids.map (·.uuid) ∧
        List.Forall₂ RecordsPublished rows (zipPublished ids parts.flatten)) := by
  constructor
  · rw [run_appendParts_eq_ok_iff hs, run_appendParts_eq_ok_iff hs, hflatten]
  · intro h
    exact ((run_appendParts_eq_ok_iff hs).1 h).rows hs

end

end

section
open SerdeJson

/-- Two events in one batch, and in two. -/
theorem appendParts_congr_two :
    let pair := (ServiceStarted.mk, testCtx)
    let s := Session.begin (B := Unit) ⟨[], ()⟩ ⟨1⟩ (BitVec.ofNat 128)
    ∀ ids s', s.run ⟨fun _ => none, fun _ h => by cases h⟩ (appendParts [[pair, pair]]) =
        (.ok ids, s') ↔
      s.run ⟨fun _ => none, fun _ h => by cases h⟩ (appendParts [[pair], [], [pair]]) =
        (.ok ids, s') :=
  fun ids s' => (appendParts_congr _ rfl rfl ids s').1

end

end SqlxPublisher

end OutboxPublisher
