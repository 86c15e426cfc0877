import OutboxPublisher.Concurrent.Progress

/-!
# Idempotent publishing

Any number of clients publish under one event id, each its own event, and follow one rule: after
`begin` a client makes one call of `appendWithId`, commits when it returned `Ok` and rolls back
otherwise. It may crash anywhere and start again. `Phase` lists the states such a transaction goes
through, `Phase.step` says that every step leads from one to another, and `Once` is the invariant of
whole runs: the event id is in the table at most once, the row is that of a client whose commit
completed, and who is told of a duplicate finds a committed row.
-/

namespace OutboxPublisher

open Interaction (Run)

/-- The call that publishes an event under its identifier. -/
def Published.call (x : Published) : Call :=
  .appendWithId x.eventId x.event x.ctx

/-- An event of a client's own, to be published under the common identifier with callbacks. -/
structure Attempt (k : EventId) (x : Published) : Prop where
  eventId_eq : x.eventId = k
  callbacks_ne : x.ctx.callbacks ≠ []

section
variable {κ : Type}

/-- The rule the clients follow: one call in a transaction, a commit after `Ok`, a rollback after an
error. -/
def Allowed (k : EventId) (w : World κ) : κ × Action → Prop
  | (c, .call call) => (∃ x, Attempt k x ∧ call = x.call) ∧
      ∀ tx, w.client c = some tx → tx.returned = []
  | (_, .commit returned) => ∃ call ids, returned = [(call, .ok ids)]
  | (c, .rollback) => ∃ tx call e, w.client c = some tx ∧ tx.returned = [(call, .error e)]
  | _ => True

/-- The rule restrains the calls, commits and rollbacks only. -/
theorem Allowed.of_passive {k : EventId} {w : World κ} {c : κ} {a : Action} (ha : a.Passive) :
    Allowed k w (c, a) := by
  cases a with
  | call | commit | rollback => exact ha.elim
  | _ => trivial

variable [Serialize Map] [Serialize (List Value)]

/-- What a call has returned, and the rows its transaction then holds. -/
inductive Settled (k : EventId) (committed : List OutboxEvent) (x : Published) :
    Except PublishError (List EventId) → List OutboxEvent → Prop
  | ok {row : OutboxEvent} (hrow : RecordsPublished row x) : Settled k committed x (.ok [k]) [row]
  | error {e : PublishError}
      (he : e = .duplicateEventId → ∃ row ∈ committed, row.eventId = k.uuid) :
      Settled k committed x (.error e) []

/-- The states of a transaction whose client follows the rule. -/
inductive Phase (k : EventId) (committed : List OutboxEvent) (c : κ) (tr : List (κ × Action)) :
    OpenTx → Prop
  | fresh : Phase k committed c tr ⟨[], false, .idle, []⟩
  | sending {x p} (hx : Attempt k x) (hp : encode k.uuid x.event x.ctx = .ok p) :
      Phase k committed c tr ⟨[], false, .running x.call
        (.call (Command.execute (.insertValues p)) fun r => .pure (mapResult [k] r)), []⟩
  | inserting {x p} (hx : Attempt k x) (hp : encode k.uuid x.event x.ctx = .ok p) :
      Phase k committed c tr
        ⟨[], false, .inserting x.call none [p.tuple] fun r => .pure (mapResult [k] r), []⟩
  | placing {x p id} (hx : Attempt k x) (hp : encode k.uuid x.event x.ctx = .ok p) :
      Phase k committed c tr
        ⟨[], false, .inserting x.call (some (id, p.tuple)) [] fun r => .pure (mapResult [k] r), []⟩
  | placed {x row} (hx : Attempt k x) (hrow : RecordsPublished row x) :
      Phase k committed c tr
        ⟨[row], false, .inserting x.call none [] fun r => .pure (mapResult [k] r), []⟩
  | answered {x result pending aborted} (hx : Attempt k x)
      (h : Settled k committed x result pending) :
      Phase k committed c tr ⟨pending, aborted, .running x.call (.pure result), []⟩
  | returned {x result pending aborted} (hx : Attempt k x)
      (h : Settled k committed x result pending) (hret : (c, .ret x.call result) ∈ tr) :
      Phase k committed c tr ⟨pending, aborted, .idle, [(x.call, result)]⟩

variable {k : EventId} {committed committed' : List OutboxEvent} {c : κ}
  {tr tr' : List (κ × Action)} {x : Published} {result : Except PublishError (List EventId)}
  {pending : List OutboxEvent} {tx : OpenTx}

/-- More committed rows leave a call settled. -/
theorem Settled.mono (h : Settled k committed x result pending) (hsub : committed ⊆ committed') :
    Settled k committed' x result pending := by
  cases h with
  | ok hrow => exact .ok hrow
  | error he => exact .error fun hd => (he hd).imp fun _ hr => hr.imp_left (hsub ·)

/-- A phase outlasts further commits and further steps. -/
theorem Phase.mono (h : Phase k committed c tr tx) (hsub : committed ⊆ committed')
    (htr : tr ⊆ tr') : Phase k committed' c tr' tx := by
  cases h with
  | fresh => exact .fresh
  | sending hx hp => exact .sending hx hp
  | inserting hx hp => exact .inserting hx hp
  | placing hx hp => exact .placing hx hp
  | placed hx hrow => exact .placed hx hrow
  | answered hx h => exact .answered hx (h.mono hsub)
  | returned hx h hret => exact .returned hx (h.mono hsub) (htr hret)

/-- A call begins by sending the tuple of its event, or returns an error at once. -/
theorem Phase.of_call (hx : Attempt k x) :
    Phase k committed c tr ⟨[], false, .running x.call (ExceptT.run x.call.program), []⟩ := by
  obtain rfl := hx.eventId_eq
  cases henc : encode x.eventId.uuid x.event x.ctx with
  | error e =>
    rw [Published.call, appendWithId_program_error henc]
    exact .answered (x := x) hx (.error fun he => absurd (he ▸ trivial) (encode_error henc))
  | ok p =>
    rw [Published.call, appendWithId_program henc]
    exact .sending (x := x) hx henc

/-- An answer of the server other than a violated unique index settles the call. -/
theorem Settled.of_error {e : SqlxError} (he : e ≠ .database (some uniqueViolation)) :
    Settled k committed x (mapResult [k] (.error e)) [] := by
  obtain ⟨err, herr, -⟩ := mapResult_error [k] e
  rw [herr]
  refine .error fun hd => absurd ?_ he
  exact Except.error.inj (mapResult_eq_duplicate_iff.1 (herr.trans (congrArg _ hd)))

/-- A row inserted for an attempt records its event. -/
theorem Attempt.records {p : Params} {id : ℤ} {row : OutboxEvent} (hx : Attempt k x)
    (hp : encode k.uuid x.event x.ctx = .ok p) (hrow : OutboxEvent.ofTuple id p.tuple = .ok row) :
    RecordsPublished row x := by
  obtain rfl := hx.eventId_eq
  obtain ⟨-, hcols⟩ := OutboxEvent.ofTuple_eq_ok_iff.1 hrow
  exact Records.of_encode hp hcols

end

section
variable {κ : Type} [DecidableEq κ] [Serialize Map] [Serialize (List Value)] {k : EventId}
  {w₀ w w' : World κ} {c : κ} {a : Action} {tr : List (κ × Action)} {tx : OpenTx}

/-- **A step of a client that follows the rule** leads from one phase to another. The rows of its
own transaction do not stand in the way of its one INSERT, and no number of the sequence is taken,
so the INSERT fails with 23505 only where a committed row has the event id. -/
theorem Phase.step (hk : Keys w)
    (hphase : ∀ tx, w.client c = some tx → Phase k w.committed c tr tx)
    (hs : Step w (c, a) w') (ha : Allowed k w (c, a)) (htx : w'.client c = some tx) :
    Phase k w'.committed c (tr ++ [(c, a)]) tx := by
  have htr : tr ⊆ tr ++ [(c, a)] := List.subset_append_left ..
  have heq : ∀ {o : Option OpenTx}, w'.client c = o → o = some tx := fun h => h.symm.trans htx
  cases hs with
  | begin h =>
    cases heq (World.set_client_self ..)
    exact .fresh
  | call call h =>
    cases heq (World.set_client_self ..)
    obtain ⟨⟨x, hx, rfl⟩, hnone⟩ := ha
    cases hphase _ h with
    | fresh => exact .of_call hx
    | returned => exact absurd (hnone _ h) (List.cons_ne_nil _ _)
  | newV4 u h => cases hphase _ h
  | send h hts =>
    cases heq (World.set_client_self ..)
    cases hphase _ h with
    | sending hx hp =>
      cases hts
      exact .inserting hx hp
  | refused h => cases hphase _ h
  | nextval h hseq =>
    cases heq (World.set_client_self ..)
    cases hphase _ h with
    | inserting hx hp => exact .placing hx hp
  | insert row h hrow hfree hwait =>
    cases heq (World.set_client_self ..)
    cases hphase _ h with
    | placing hx hp => exact .placed hx (hx.records hp hrow)
  | @duplicate _ _ _ _ id _ _ _ _ row h hrow hcol =>
    cases heq (World.set_client_self ..)
    cases hphase _ h with
    | placing hx hp =>
      refine .answered hx (.error fun _ => ?_)
      obtain ⟨r, hr, hid | hev⟩ := hcol
      · have hheld : id ∈ w.ids c := by
          rw [World.ids_of_client h]
          exact List.mem_cons_self
        obtain ⟨hrid, -⟩ := OutboxEvent.ofTuple_eq_ok_iff.1 hrow
        rw [List.append_nil] at hr
        exact absurd (List.mem_map.2 ⟨r, hr, hid.trans hrid⟩) (hk.ids.shared_held c id hheld)
      · rw [List.append_nil] at hr
        exact ⟨r, hr, hev.trans ((hx.records hp hrow).eventId_eq.trans
          (congrArg EventId.uuid hx.eventId_eq))⟩
  | fail e h he =>
    cases heq (World.set_client_self ..)
    cases hphase _ h with
    | inserting hx _ | placing hx _ | placed hx _ => exact .answered hx (.of_error he)
  | complete h =>
    cases heq (World.set_client_self ..)
    cases hphase _ h with
    | placed hx hrow => exact .answered hx (.ok hrow)
  | ret h =>
    cases heq (World.set_client_self ..)
    cases hphase _ h with
    | answered hx hset =>
      exact .returned hx hset (List.mem_append_right _ List.mem_cons_self)
  | commit h | rollback h | crash h => exact nomatch heq (World.set_client_self ..)

omit [DecidableEq κ] in
/-- What a client that follows the rule commits: the row of its event. -/
theorem Phase.of_commit {committed pending : List OutboxEvent} {aborted : Bool} {returned}
    (h : Phase k committed c tr ⟨pending, aborted, .idle, returned⟩)
    (ha : Allowed k w (c, .commit returned)) :
    ∃ x row, Attempt k x ∧ returned = [(x.call, .ok [k])] ∧ pending = [row] ∧
      RecordsPublished row x ∧ (c, .ret x.call (.ok [k])) ∈ tr := by
  obtain ⟨call, ids, rfl⟩ := ha
  cases h with
  | returned hx h hret =>
    cases h with
    | ok hrow => exact ⟨_, _, hx, rfl, rfl, hrow, hret⟩

/-- A client that is told of a duplicate finds a committed row. -/
theorem Phase.of_duplicate {call : Call}
    (hphase : ∀ tx, w.client c = some tx → Phase k w.committed c tr tx)
    (hs : Step w (c, .ret call (.error .duplicateEventId)) w') :
    ∃ row ∈ w.committed, row.eventId = k.uuid := by
  cases hs with
  | ret h =>
    cases hphase _ h with
    | answered _ hset =>
      cases hset with
      | error he => exact he rfl

/-- What holds after every run of clients that follow the rule. -/
structure Once (k : EventId) (w₀ : World κ) (tr : List (κ × Action)) (w : World κ) : Prop where
  keys : Keys w
  phase : ∀ c tx, w.client c = some tx → Phase k w.committed c tr tx
  committed_by : ∀ row ∈ w.committed, row.eventId = k.uuid → row ∉ w₀.committed →
    ∃ c x, Attempt k x ∧ (c, .ret x.call (.ok [k])) ∈ tr ∧
      (c, .commit [(x.call, .ok [k])]) ∈ tr ∧ RecordsPublished row x
  stored : ∀ c returned, (c, .commit returned) ∈ tr → ∃ x, Attempt k x ∧
    returned = [(x.call, .ok [k])] ∧ ∃ row ∈ w.committed, RecordsPublished row x
  duplicate : ∀ c call, (c, .ret call (.error .duplicateEventId)) ∈ tr →
    ∃ row ∈ w.committed, row.eventId = k.uuid

/-- Every step keeps it. -/
theorem Once.step (h : Once k w₀ tr w) (hs : Step w (c, a) w') (ha : Allowed k w (c, a)) :
    Once k w₀ (tr ++ [(c, a)]) w' := by
  obtain ⟨rows, hrows, -⟩ := hs.committed
  have hsub : w.committed ⊆ w'.committed := hrows ▸ List.subset_append_left ..
  have htr : tr ⊆ tr ++ [(c, a)] := List.subset_append_left ..
  have hlast : (c, a) ∈ tr ++ [(c, a)] := List.mem_append_right _ List.mem_cons_self
  refine ⟨h.keys.step hs, fun d tx htx => ?_, fun row hrow hid hnew => ?_,
    fun d returned hmem => ?_, fun d call hmem => ?_⟩
  · by_cases hd : d = c
    · subst hd
      exact Phase.step h.keys (h.phase d) hs ha htx
    · rw [hs.client_of_ne hd] at htx
      exact (h.phase d tx htx).mono hsub htr
  · have hold : row ∈ w.committed → _ := fun hrow => h.committed_by row hrow hid hnew
    obtain ⟨hcom, -⟩ | ⟨pending, aborted, returned, hc, rfl, hcom⟩ := hs.commits
    · obtain ⟨d, x, hx, hret, hcommit, hrec⟩ := hold (hcom ▸ hrow)
      exact ⟨d, x, hx, htr hret, htr hcommit, hrec⟩
    · obtain ⟨x, row', hx, rfl, rfl, hrec, hret⟩ := (h.phase c _ hc).of_commit ha
      rw [hcom, List.mem_append, List.mem_singleton] at hrow
      rcases hrow with hrow | rfl
      · obtain ⟨d, x', hx', hret', hcommit, hrec'⟩ := hold hrow
        exact ⟨d, x', hx', htr hret', htr hcommit, hrec'⟩
      · exact ⟨c, x, hx, htr hret, hlast, hrec⟩
  · rcases List.mem_append.1 hmem with hmem | hmem
    · obtain ⟨x, hx, hret, row, hrow, hrec⟩ := h.stored d returned hmem
      exact ⟨x, hx, hret, row, hsub hrow, hrec⟩
    · cases List.mem_singleton.1 hmem
      obtain ⟨-, hne⟩ | ⟨pending, aborted, returned', hc, heq, hcom⟩ := hs.commits
      · exact absurd rfl (hne returned)
      · cases heq
        obtain ⟨x, row, hx, hret, rfl, hrec, -⟩ := (h.phase c _ hc).of_commit ha
        exact ⟨x, hx, hret, row, hcom ▸ List.mem_append_right _ List.mem_cons_self, hrec⟩
  · have hfound : ∃ row ∈ w.committed, row.eventId = k.uuid := by
      rcases List.mem_append.1 hmem with hmem | hmem
      · exact h.duplicate d call hmem
      · cases List.mem_singleton.1 hmem
        exact Phase.of_duplicate (h.phase c) hs
    exact hfound.imp fun _ hr => hr.imp_left (hsub ·)

/-- It holds after every run. -/
theorem Once.run (h₀ : w₀.Initial)
    (hr : Run (fun w l w' => Step w l w' ∧ Allowed k w l) w₀ tr w) : Once k w₀ tr w := by
  refine hr.invariant (I := fun tr w => Once k w₀ tr w) ⟨h₀.keys, fun c tx htx => ?_,
    fun _ hrow _ hnew => absurd hrow hnew, fun _ _ h => absurd h List.not_mem_nil,
    fun _ _ h => absurd h List.not_mem_nil⟩ fun _ _ _ _ h hs => h.step hs.1 hs.2
  rw [h₀.client_eq] at htx
  exact nomatch htx

/-- **Idempotent publishing under concurrency.** In every run of any number of clients that follow
the rule, whatever the order of their steps and wherever they crash: at most one committed row has
the event id; a committed row with it that was not there at first is that of a client whose call
returned `Ok` and whose commit completed, and every commit that completed put the row of its event
into the table; and when a call has returned `DuplicateEventId`, a committed row has the event id.
Reference: `append_with_id_duplicate_returns_error` (`tests/integration_test.rs:250`). -/
theorem appendWithId_idempotent (h₀ : w₀.Initial)
    (hr : Run (fun w l w' => Step w l w' ∧ Allowed k w l) w₀ tr w) :
    (w.committed.map (·.eventId)).count k.uuid ≤ 1 ∧
    (∀ row ∈ w.committed, row.eventId = k.uuid → row ∉ w₀.committed →
      ∃ c x, Attempt k x ∧ (c, .ret x.call (.ok [k])) ∈ tr ∧
        (c, .commit [(x.call, .ok [k])]) ∈ tr ∧ RecordsPublished row x) ∧
    (∀ c returned, (c, .commit returned) ∈ tr → ∃ x, Attempt k x ∧
      returned = [(x.call, .ok [k])] ∧ ∃ row ∈ w.committed, RecordsPublished row x) ∧
    (∀ c call, (c, .ret call (.error .duplicateEventId)) ∈ tr →
      ∃ row ∈ w.committed, row.eventId = k.uuid) := by
  have h := Once.run h₀ hr
  exact ⟨List.nodup_iff_count_le_one.1 h.keys.eventIds.nodup_shared _, h.committed_by, h.stored,
    h.duplicate⟩

end

section
open SerdeJson

/-- A client publishes and commits; another one that publishes under the same event id is told of a
duplicate and rolls back. -/
theorem appendWithId_idempotent_two : ∃ (w : World Bool) (tr : List (Bool × Action)),
    Run (fun w l w' => Step w l w' ∧ Allowed ⟨1⟩ w l) (.empty Bool) tr w ∧
    (true, .ret (started 1) (.error .duplicateEventId)) ∈ tr ∧ w.committed = [startedRow 1 1] ∧
    (w.committed.map (·.eventId)).count 1 ≤ 1 ∧ ∃ row ∈ w.committed, row.eventId = 1 := by
  have hattempt : Attempt ⟨1⟩ ⟨⟨1⟩, ServiceStarted.mk, testCtx⟩ := ⟨rfl, List.cons_ne_nil _ _⟩
  have hcall : ∀ (w : World Bool) c,
      Allowed ⟨1⟩ (w.set c (some ⟨[], false, .idle, []⟩)) (c, .call (started 1)) := by
    refine fun w c => ⟨⟨_, hattempt, rfl⟩, fun tx htx => ?_⟩
    cases (World.set_client_self ..).symm.trans htx
    rfl
  have hfirst := started_commit_run_of (P := Allowed ⟨1⟩) (fun _ _ _ ha => .of_passive ha)
    (w := .empty Bool) (c := false) (u := 1) rfl (hcall _ _) (fun _ => ⟨_, _, rfl⟩) (by decide)
    (by decide) (fun _ _ h => nomatch h)
  have hdup := started_duplicate_run (P := Allowed ⟨1⟩) (fun _ _ _ ha => .of_passive ha)
    (w := ⟨[startedRow 1 1], ⟨2⟩, fun _ => none⟩) (c := true) (u := 1) rfl (hcall _ _)
    (by decide) (by decide)
  have hrun := (hfirst.append hdup).snoc ⟨Step.rollback (World.setAt_client_self ..), _, started 1,
    .duplicateEventId, World.setAt_client_self .., rfl⟩
  have hret : (true, Action.ret (started 1) (.error .duplicateEventId)) ∈
      appendWithIdTrace false (started 1) ⟨1⟩ ++ [(false, startedCommit 1)] ++
        ([(true, .begin), (true, .call (started 1)), (true, .send), (true, .nextval)] ++
          [(true, .duplicate), (true, .ret (started 1) (.error .duplicateEventId))]) ++
        [(true, .rollback)] := by
    simp
  obtain ⟨hcount, -, -, hfound⟩ := appendWithId_idempotent World.empty_initial hrun
  exact ⟨_, _, hrun, hret, rfl, hcount, hfound _ _ hret⟩

end

end OutboxPublisher
