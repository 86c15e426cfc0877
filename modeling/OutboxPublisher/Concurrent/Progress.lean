import OutboxPublisher.Concurrent.Keys

/-!
# A call from beginning to end

A client without a transaction begins one and publishes one event under its own identifier, step by
step, with no other step in between: when the event is encoded, the sequence has a number left and
the row collides with no committed row and with none that another transaction holds, the call
returns `Ok` and the transaction holds the row. `appendWithId_run` is that run, also where clients
are held to a policy `P`, as a policy restrains the calls, commits and rollbacks only. Where the row
collides with a committed one, the call returns `DuplicateEventId` (`appendWithId_duplicate_run`).
-/

namespace OutboxPublisher

open Interaction (Program Run)

/-- The action is no decision of a client in its transaction. -/
def Action.Passive : Action → Prop
  | .call _ | .commit _ | .rollback => False
  | _ => True

section
variable {κ : Type} [DecidableEq κ]

namespace World

variable (w : World κ) (c : κ) (tx tx' : OpenTx) (seq : Sequence)

/-- The world with another transaction of a client and another position of the sequence. -/
def setAt : World κ :=
  ⟨w.committed, seq, Function.update w.client c (some tx)⟩

theorem setAt_client_self : (w.setAt c tx seq).client c = some tx := Function.update_self ..

theorem setAt_client_of_ne {d : κ} (h : d ≠ c) : (w.setAt c tx seq).client d = w.client d :=
  Function.update_of_ne h ..

theorem setAt_set : (w.setAt c tx seq).set c (some tx') = w.setAt c tx' seq := by
  simp only [setAt, set, Function.update_idem]

end World

variable {E : Type} [DomainEvent E] [Serialize E] [Serialize Map] [Serialize (List Value)]

/-- The steps of a call that nothing obstructs, from the beginning of its transaction. -/
def appendWithIdTrace (c : κ) (call : Call) (eventId : EventId) : List (κ × Action) :=
  [(c, .begin), (c, .call call), (c, .send), (c, .nextval), (c, .insert), (c, .complete),
    (c, .ret call (.ok [eventId]))]

/-- The program of `appendWithId` on an event that is encoded. -/
theorem appendWithId_program {eventId : EventId} {event : E} {ctx : EventContext} {p : Params}
    (henc : encode eventId.uuid event ctx = .ok p) :
    ExceptT.run (Call.appendWithId eventId event ctx).program =
      .call (Command.execute (.insertValues p)) fun r => .pure (mapResult [eventId] r) := by
  rw [Call.program, SqlxPublisher.appendWithId, ExceptT.run_map, SqlxPublisher.run_insert, henc]
  exact congrArg (Program.call (Command.execute (.insertValues p)))
    (funext fun r => congrArg Program.pure (map_mapResult _ _ r))

/-- The program of `appendWithId` on an event that is not encoded. -/
theorem appendWithId_program_error {eventId : EventId} {event : E} {ctx : EventContext}
    {e : PublishError} (henc : encode eventId.uuid event ctx = .error e) :
    ExceptT.run (Call.appendWithId eventId event ctx).program = .pure (.error e) := by
  rw [Call.program, SqlxPublisher.appendWithId, ExceptT.run_map, SqlxPublisher.run_insert, henc]
  rfl

/-- A call draws a number for its row. -/
theorem appendWithId_draws {P : World κ → κ × Action → Prop}
    (hpassive : ∀ w c a, a.Passive → P w (c, a)) {w : World κ} {c : κ} {eventId : EventId}
    {event : E} {ctx : EventContext} {p : Params} (hc : w.client c = none)
    (hcall : P (w.set c (some ⟨[], false, .idle, []⟩)) (c, .call (.appendWithId eventId event ctx)))
    (henc : encode eventId.uuid event ctx = .ok p) (hseq : w.seq.next < 2 ^ 63) :
    Run (fun w l w' => Step w l w' ∧ P w l) w
      [(c, .begin), (c, .call (.appendWithId eventId event ctx)), (c, .send), (c, .nextval)]
      (w.setAt c ⟨[], false, .inserting (.appendWithId eventId event ctx)
        (some (w.seq.next, p.tuple)) [] fun r => .pure (mapResult [eventId] r), []⟩
        ⟨w.seq.next + 1⟩) := by
  have hself := w.setAt_client_self c
  have hbegin : Step w (c, .begin) (w.setAt c ⟨[], false, .idle, []⟩ w.seq) := .begin hc
  have hcalled := Step.call (.appendWithId eventId event ctx) (hself ⟨[], false, .idle, []⟩ w.seq)
  rw [World.setAt_set, appendWithId_program henc] at hcalled
  have hsent := Step.send (hself ⟨[], false, .running (.appendWithId eventId event ctx)
    (.call (Command.execute (.insertValues p)) fun r => .pure (mapResult [eventId] r)), []⟩ w.seq)
    (Statement.tuples_insertValues p)
  rw [World.setAt_set] at hsent
  have hdrawn := Step.nextval (hself ⟨[], false, .inserting (.appendWithId eventId event ctx) none
    [p.tuple] fun r => .pure (mapResult [eventId] r), []⟩ w.seq) hseq
  rw [World.setAt_set] at hdrawn
  have hrun : Run (fun w l w' => Step w l w' ∧ P w l) w _ _ :=
    .single ⟨hbegin, hpassive _ _ _ trivial⟩
  exact ((hrun.snoc ⟨hcalled, hcall⟩).snoc ⟨hsent, hpassive _ _ _ trivial⟩).snoc
    ⟨hdrawn, hpassive _ _ _ trivial⟩

/-- **An unobstructed call returns `Ok`,** and its transaction holds the row. -/
theorem appendWithId_run {P : World κ → κ × Action → Prop}
    (hpassive : ∀ w c a, a.Passive → P w (c, a)) {w : World κ} {c : κ} {eventId : EventId}
    {event : E} {ctx : EventContext} {p : Params} {row : OutboxEvent} (hc : w.client c = none)
    (hcall : P (w.set c (some ⟨[], false, .idle, []⟩)) (c, .call (.appendWithId eventId event ctx)))
    (henc : encode eventId.uuid event ctx = .ok p) (hseq : w.seq.next < 2 ^ 63)
    (hrow : OutboxEvent.ofTuple w.seq.next p.tuple = .ok row) (hfree : ¬ Collides w.committed row)
    (hwait : ∀ d tx, w.client d = some tx → ¬ Collides tx.pending row) :
    Run (fun w l w' => Step w l w' ∧ P w l) w
      (appendWithIdTrace c (.appendWithId eventId event ctx) eventId)
      (w.setAt c ⟨[row], false, .idle, [(.appendWithId eventId event ctx, .ok [eventId])]⟩
        ⟨w.seq.next + 1⟩) := by
  have hself := w.setAt_client_self c
  have hinserted := Step.insert row (hself ⟨[], false, .inserting
    (.appendWithId eventId event ctx) (some (w.seq.next, p.tuple)) []
    fun r => .pure (mapResult [eventId] r), []⟩ ⟨w.seq.next + 1⟩) hrow
    (by rwa [List.append_nil])
    (fun d tx hd htx => hwait d tx ((w.setAt_client_of_ne c _ _ hd).symm.trans htx))
  rw [World.setAt_set] at hinserted
  have hdone := Step.complete (hself ⟨[row], false, .inserting (.appendWithId eventId event ctx)
    none [] fun r => .pure (mapResult [eventId] r), []⟩ ⟨w.seq.next + 1⟩)
  rw [World.setAt_set] at hdone
  have hret := Step.ret (hself ⟨[row], false, .running (.appendWithId eventId event ctx)
    (.pure (.ok [eventId])), []⟩ ⟨w.seq.next + 1⟩)
  rw [World.setAt_set] at hret
  have hdraws := appendWithId_draws hpassive hc hcall henc hseq
  exact ((hdraws.snoc ⟨hinserted, hpassive _ _ _ trivial⟩).snoc
    ⟨hdone, hpassive _ _ _ trivial⟩).snoc ⟨hret, hpassive _ _ _ trivial⟩

/-- A call whose keys are taken returns `DuplicateEventId`, and its transaction is aborted. -/
theorem appendWithId_duplicate_run {P : World κ → κ × Action → Prop}
    (hpassive : ∀ w c a, a.Passive → P w (c, a)) {w : World κ} {c : κ} {eventId : EventId}
    {event : E} {ctx : EventContext} {p : Params} {row : OutboxEvent} (hc : w.client c = none)
    (hcall : P (w.set c (some ⟨[], false, .idle, []⟩)) (c, .call (.appendWithId eventId event ctx)))
    (henc : encode eventId.uuid event ctx = .ok p) (hseq : w.seq.next < 2 ^ 63)
    (hrow : OutboxEvent.ofTuple w.seq.next p.tuple = .ok row) (hcol : Collides w.committed row) :
    Run (fun w l w' => Step w l w' ∧ P w l) w
      ([(c, .begin), (c, .call (.appendWithId eventId event ctx)), (c, .send), (c, .nextval)] ++
        [(c, .duplicate), (c, .ret (.appendWithId eventId event ctx) (.error .duplicateEventId))])
      (w.setAt c ⟨[], true, .idle,
        [(.appendWithId eventId event ctx, .error .duplicateEventId)]⟩ ⟨w.seq.next + 1⟩) := by
  have hself := w.setAt_client_self c
  have hfailed := Step.duplicate row (hself ⟨[], false, .inserting
    (.appendWithId eventId event ctx) (some (w.seq.next, p.tuple)) []
    fun r => .pure (mapResult [eventId] r), []⟩ ⟨w.seq.next + 1⟩) hrow (by rwa [List.append_nil])
  rw [World.setAt_set] at hfailed
  have hret := Step.ret (hself ⟨[], true, .running (.appendWithId eventId event ctx)
    (.pure (.error .duplicateEventId)), []⟩ ⟨w.seq.next + 1⟩)
  rw [World.setAt_set] at hret
  have hdraws := appendWithId_draws hpassive hc hcall henc hseq
  exact (hdraws.snoc ⟨hfailed, hpassive _ _ _ trivial⟩).snoc ⟨hret, hpassive _ _ _ trivial⟩

end

/-! ## The plain event -/

section
open SerdeJson
variable {κ : Type} [DecidableEq κ]

/-- The call that publishes the plain event under an identifier. -/
def started (u : Uuid) : Call :=
  .appendWithId ⟨u⟩ ServiceStarted.mk testCtx

/-- The empty table, its sequence at the first number, and no client in a transaction. -/
def World.empty (κ : Type) : World κ :=
  ⟨[], ⟨1⟩, fun _ => none⟩

omit [DecidableEq κ] in
/-- Nobody has begun on the empty table. -/
theorem World.empty_initial : (World.empty κ).Initial where
  client_eq _ := rfl
  nodup_ids := List.nodup_nil
  nodup_eventIds := List.nodup_nil
  committed_lt _ h := nomatch h

/-- Publishing the plain event is unobstructed where its keys are free. -/
theorem started_run_of {P : World κ → κ × Action → Prop}
    (hpassive : ∀ w c a, a.Passive → P w (c, a)) {w : World κ} {c : κ} {u : Uuid}
    (hc : w.client c = none)
    (hcall : P (w.set c (some ⟨[], false, .idle, []⟩)) (c, .call (started u)))
    (hseq : w.seq.next < 2 ^ 63) (hfree : ¬ Collides w.committed (startedRow w.seq.next u))
    (hwait : ∀ d tx, w.client d = some tx → ¬ Collides tx.pending (startedRow w.seq.next u)) :
    Run (fun w l w' => Step w l w' ∧ P w l) w (appendWithIdTrace c (started u) ⟨u⟩)
      (w.setAt c ⟨[startedRow w.seq.next u], false, .idle, [(started u, .ok [⟨u⟩])]⟩
        ⟨w.seq.next + 1⟩) :=
  appendWithId_run hpassive hc hcall rfl hseq rfl hfree hwait

/-- The same, where clients are held to no policy. -/
theorem started_run {w : World κ} {c : κ} {u : Uuid} (hc : w.client c = none)
    (hseq : w.seq.next < 2 ^ 63) (hfree : ¬ Collides w.committed (startedRow w.seq.next u))
    (hwait : ∀ d tx, w.client d = some tx → ¬ Collides tx.pending (startedRow w.seq.next u)) :
    Run Step w (appendWithIdTrace c (started u) ⟨u⟩)
      (w.setAt c ⟨[startedRow w.seq.next u], false, .idle, [(started u, .ok [⟨u⟩])]⟩
        ⟨w.seq.next + 1⟩) :=
  (started_run_of (P := fun _ _ => True) (fun _ _ _ _ => trivial) hc trivial hseq hfree hwait).imp
    fun _ _ _ h => h.1

/-- Publishing the plain event where its keys are taken is a duplicate. -/
theorem started_duplicate_run {P : World κ → κ × Action → Prop}
    (hpassive : ∀ w c a, a.Passive → P w (c, a)) {w : World κ} {c : κ} {u : Uuid}
    (hc : w.client c = none)
    (hcall : P (w.set c (some ⟨[], false, .idle, []⟩)) (c, .call (started u)))
    (hseq : w.seq.next < 2 ^ 63) (hcol : Collides w.committed (startedRow w.seq.next u)) :
    Run (fun w l w' => Step w l w' ∧ P w l) w
      ([(c, .begin), (c, .call (started u)), (c, .send), (c, .nextval)] ++
        [(c, .duplicate), (c, .ret (started u) (.error .duplicateEventId))])
      (w.setAt c ⟨[], true, .idle, [(started u, .error .duplicateEventId)]⟩ ⟨w.seq.next + 1⟩) :=
  appendWithId_duplicate_run hpassive hc hcall rfl hseq rfl hcol

/-- The commit of the plain event. -/
def startedCommit (u : Uuid) : Action :=
  .commit [(started u, .ok [⟨u⟩])]

/-- The plain event is published and committed where its keys are free. -/
theorem started_commit_run_of {P : World κ → κ × Action → Prop}
    (hpassive : ∀ w c a, a.Passive → P w (c, a)) {w : World κ} {c : κ} {u : Uuid}
    (hc : w.client c = none)
    (hcall : P (w.set c (some ⟨[], false, .idle, []⟩)) (c, .call (started u)))
    (hcommit : ∀ w, P w (c, startedCommit u)) (hseq : w.seq.next < 2 ^ 63)
    (hfree : ¬ Collides w.committed (startedRow w.seq.next u))
    (hwait : ∀ d tx, w.client d = some tx → ¬ Collides tx.pending (startedRow w.seq.next u)) :
    Run (fun w l w' => Step w l w' ∧ P w l) w
      (appendWithIdTrace c (started u) ⟨u⟩ ++ [(c, startedCommit u)])
      ⟨w.committed ++ [startedRow w.seq.next u], ⟨w.seq.next + 1⟩, w.client⟩ := by
  have hrun := (started_run_of hpassive hc hcall hseq hfree hwait).snoc
    ⟨Step.commit (World.setAt_client_self ..), hcommit _⟩
  have hclient : Function.update (Function.update w.client c (some ⟨[startedRow w.seq.next u],
      false, .idle, [(started u, .ok [⟨u⟩])]⟩)) c none = w.client := by
    rw [Function.update_idem, Function.update_eq_self_iff]
    exact hc.symm
  rw [← hclient]
  exact hrun

/-- The same, where clients are held to no policy. -/
theorem started_commit_run {w : World κ} {c : κ} {u : Uuid} (hc : w.client c = none)
    (hseq : w.seq.next < 2 ^ 63) (hfree : ¬ Collides w.committed (startedRow w.seq.next u))
    (hwait : ∀ d tx, w.client d = some tx → ¬ Collides tx.pending (startedRow w.seq.next u)) :
    Run Step w (appendWithIdTrace c (started u) ⟨u⟩ ++ [(c, .commit [(started u, .ok [⟨u⟩])])])
      ⟨w.committed ++ [startedRow w.seq.next u], ⟨w.seq.next + 1⟩, w.client⟩ :=
  (started_commit_run_of (P := fun _ _ => True) (fun _ _ _ _ => trivial) hc trivial
    (fun _ => trivial) hseq hfree hwait).imp fun _ _ _ h => h.1

/-- Two clients publish at the same time, and the one that began last commits first. -/
theorem overlapping_run : Run Step (World.empty Bool)
    (appendWithIdTrace false (started 1) ⟨1⟩ ++
      (appendWithIdTrace true (started 2) ⟨2⟩ ++ [(true, startedCommit 2)]) ++
      [(false, startedCommit 1)])
    ⟨[startedRow 2 2, startedRow 1 1], ⟨3⟩, fun _ => none⟩ := by
  have hfirst := started_run (w := .empty Bool) (c := false) (u := 1) rfl (by decide) (by decide)
    (fun _ _ h => nomatch h)
  have hsecond := started_commit_run (w := (World.empty Bool).setAt false
      ⟨[startedRow 1 1], false, .idle, [(started 1, .ok [⟨1⟩])]⟩ ⟨2⟩)
    (c := true) (u := 2) rfl (by decide) (by decide) (by
      rintro (_ | _) tx htx
      · cases htx
        decide
      · cases htx)
  have hheld : (⟨[startedRow 2 2], ⟨3⟩, ((World.empty Bool).setAt false
      ⟨[startedRow 1 1], false, .idle, [(started 1, .ok [⟨1⟩])]⟩ ⟨2⟩).client⟩ :
        World Bool).client false =
      some ⟨[startedRow 1 1], false, .idle, [(started 1, .ok [⟨1⟩])]⟩ := rfl
  have hcommit := (hfirst.append hsecond).snoc (Step.commit hheld)
  have hclient : Function.update ((World.empty Bool).setAt false
      ⟨[startedRow 1 1], false, .idle, [(started 1, .ok [⟨1⟩])]⟩ ⟨2⟩).client false none =
        fun _ => none := by
    funext d
    cases d <;> rfl
  rw [← hclient]
  exact hcommit

end

end OutboxPublisher
