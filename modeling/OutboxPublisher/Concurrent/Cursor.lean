import OutboxPublisher.Concurrent.Progress

/-!
# The id as a polling cursor

A reader polls the table while clients publish: it remembers the greatest id it has seen and reads
the committed rows above it. An id is drawn when the INSERT executes and its row becomes visible at
the commit, so of two overlapping transactions the one that drew first may commit last. A poll in
between passes the smaller id, and no later poll returns its row (`missed_of_overlap`).

The reader is safe when it polls only while every id an open transaction holds is above every
committed one (`Undisturbed`); `Caught` is the invariant. Polling while a finished transaction holds
a row below a committed id is unsafe: the transaction may still commit (`missed_of_disturbed`).
-/

namespace OutboxPublisher

open Interaction (Run)

/-! ## The reader -/

/-- The greatest id among the rows seen. Reference: `outbox_events.id`
(`0001_initial_schema.sql:9`). -/
def cursor (seen : List OutboxEvent) : Option ℤ :=
  (seen.map (·.id)).max?

/-- The row's id is above the cursor. -/
def Above (seen : List OutboxEvent) (row : OutboxEvent) : Prop :=
  ∀ m ∈ cursor seen, m < row.id

instance (seen : List OutboxEvent) (row : OutboxEvent) : Decidable (Above seen row) :=
  inferInstanceAs (Decidable (∀ m ∈ cursor seen, m < row.id))

/-- One poll: the rows seen before, and the committed rows above the cursor. -/
def poll (committed seen : List OutboxEvent) : List OutboxEvent :=
  seen ++ committed.filter (Above seen ·)

/-- A row is above the cursor when its id is above that of every row seen. -/
theorem above_iff {seen : List OutboxEvent} {row : OutboxEvent} :
    Above seen row ↔ ∀ r ∈ seen, r.id < row.id := by
  cases hc : cursor seen with
  | none =>
    obtain rfl : seen = [] := List.map_eq_nil_iff.1 (List.max?_eq_none_iff.1 hc)
    exact iff_of_true (fun m hm => nomatch hm) fun r hr => nomatch hr
  | some m =>
    obtain ⟨hmem, hmax⟩ := List.max?_eq_some_iff.1 hc
    obtain ⟨r₀, hr₀, rfl⟩ := List.mem_map.1 hmem
    constructor
    · intro h r hr
      exact Int.lt_of_le_of_lt (hmax _ (List.mem_map_of_mem hr)) (h _ hc)
    · intro h m hm
      obtain rfl := Option.some.inj (hc.symm.trans hm)
      exact h r₀ hr₀

/-- What a poll leaves seen. -/
theorem mem_poll {committed seen : List OutboxEvent} {row : OutboxEvent} :
    row ∈ poll committed seen ↔ row ∈ seen ∨ row ∈ committed ∧ Above seen row := by
  rw [poll, List.mem_append, List.mem_filter, decide_eq_true_iff]

/-- After a poll the cursor has reached every committed id. -/
theorem poll_reaches {committed : List OutboxEvent} {row : OutboxEvent} (h : row ∈ committed)
    (seen : List OutboxEvent) : ∃ r ∈ poll committed seen, row.id ≤ r.id := by
  by_cases ha : Above seen row
  · exact ⟨row, mem_poll.2 (.inr ⟨h, ha⟩), Int.le_refl _⟩
  · simp only [above_iff, not_forall, Int.not_lt] at ha
    obtain ⟨r, hr, hle⟩ := ha
    exact ⟨r, mem_poll.2 (.inl hr), hle⟩

section
variable {κ : Type}

/-- The world, and the rows the reader has seen. -/
structure Watched (κ : Type) where
  world : World κ
  seen : List OutboxEvent

/-- No open transaction holds an id below that of a committed row. -/
def Undisturbed (w : World κ) : Prop :=
  ∀ c, ∀ i ∈ w.ids c, ∀ row ∈ w.committed, row.id < i

/-- What the reader has seen is committed, and the keys are in order. -/
structure Consistent (s : Watched κ) : Prop where
  keys : Keys s.world
  seen_committed : ∀ row ∈ s.seen, row ∈ s.world.committed

/-- The reader has missed nothing, and no open transaction holds an id it has passed. -/
structure Caught (s : Watched κ) : Prop extends Consistent s where
  committed_seen : ∀ row ∈ s.world.committed, row ∈ s.seen ∨ Above s.seen row
  held_above : ∀ c, ∀ i ∈ s.world.ids c, ∀ r ∈ s.seen, r.id < i

/-- The row is committed, the cursor has passed it, and the reader has not seen it. -/
structure Missed (s : Watched κ) (row : OutboxEvent) : Prop where
  committed : row ∈ s.world.committed
  passed : ∃ r ∈ s.seen, row.id < r.id
  not_seen : row ∉ s.seen

end

/-! ## What the reader sees -/

section
variable {κ : Type} [DecidableEq κ] [Serialize Map] [Serialize (List Value)]
  {w₀ w w' : World κ} {s s' : Watched κ} {tr : List (Option (κ × Action))}
  {l : Option (κ × Action)} {c : κ} {row : OutboxEvent}

/-- A step of a client, or a poll. -/
inductive ReaderStep (s : Watched κ) : Option (κ × Action) → Watched κ → Prop
  | client {l : κ × Action} {w' : World κ} (h : Step s.world l w') :
      ReaderStep s (some l) { s with world := w' }
  | poll : ReaderStep s none { s with seen := poll s.world.committed s.seen }

/-- A step of a client, or a poll taken while no open transaction holds an id below a committed
one. -/
def GuardedStep (s : Watched κ) (l : Option (κ × Action)) (s' : Watched κ) : Prop :=
  ReaderStep s l s' ∧ (l = none → Undisturbed s.world)

/-- A number that a transaction holds after a step it held before, or it is above every committed
id. -/
theorem Step.held {a : Action} (hk : Keys w) (h : Step w (c, a) w') {d : κ} {i : ℤ}
    (hi : i ∈ w'.ids d) : i ∈ w.ids d ∨ ∀ row ∈ w.committed, row.id < i := by
  obtain hi | ⟨rfl, -⟩ := h.effect.held (fun _ hd => h.client_of_ne hd) hi
  · exact .inl hi
  · exact .inr hk.committed_lt

/-- Every step keeps the reader consistent. -/
theorem Consistent.step (h : Consistent s) (hs : ReaderStep s l s') : Consistent s' := by
  cases hs with
  | @client l w' hs =>
    obtain ⟨rows, hcom, -⟩ := hs.committed
    exact ⟨h.keys.step hs, fun row hrow =>
      hcom ▸ List.mem_append_left rows (h.seen_committed row hrow)⟩
  | poll =>
    refine ⟨h.keys, fun row hrow => ?_⟩
    rcases mem_poll.1 hrow with hrow | ⟨hrow, -⟩
    · exact h.seen_committed row hrow
    · exact hrow

/-- The reader is consistent in every run. -/
theorem Consistent.run (h₀ : w₀.Initial) (hr : Run ReaderStep ⟨w₀, []⟩ tr s) : Consistent s :=
  hr.invariant (I := fun _ s => Consistent s) ⟨h₀.keys, fun _ hrow => absurd hrow List.not_mem_nil⟩
    fun _ _ _ _ h hs => h.step hs

/-- A guarded step keeps the reader from missing anything. -/
theorem Caught.step (h : Caught s) (hs : GuardedStep s l s') : Caught s' := by
  refine ⟨h.toConsistent.step hs.1, ?_, ?_⟩
  · obtain ⟨hs, -⟩ := hs
    cases hs with
    | client hs =>
      obtain ⟨rows, hcom, hids⟩ := hs.committed
      intro row hrow
      rw [hcom, List.mem_append] at hrow
      rcases hrow with hrow | hrow
      · exact h.committed_seen row hrow
      · exact .inr (above_iff.2 (h.held_above _ _ (hids row hrow)))
    | poll =>
      intro row hrow
      rcases h.committed_seen row hrow with hseen | habove
      · exact .inl (mem_poll.2 (.inl hseen))
      · exact .inl (mem_poll.2 (.inr ⟨hrow, habove⟩))
  · obtain ⟨hs, hquiet⟩ := hs
    cases hs with
    | client hs =>
      intro d i hi r hr
      rcases hs.held h.keys hi with hi | hi
      · exact h.held_above d i hi r hr
      · exact hi r (h.seen_committed r hr)
    | poll =>
      intro d i hi r hr
      rcases mem_poll.1 hr with hr | ⟨hr, -⟩
      · exact h.held_above d i hi r hr
      · exact hquiet rfl d i hi r hr

/-- In a guarded run the reader misses nothing. -/
theorem Caught.run (h₀ : w₀.Initial) (hr : Run GuardedStep ⟨w₀, []⟩ tr s) : Caught s := by
  refine hr.invariant (I := fun _ s => Caught s) ⟨Consistent.run h₀ .nil,
    fun _ _ => .inr (above_iff.2 fun _ hr => absurd hr List.not_mem_nil), fun c i hi => ?_⟩
    fun _ _ _ _ h hs => h.step hs
  rw [World.ids, h₀.client_eq] at hi
  cases hi

/-! ## What the reader misses -/

/-- A missed row stays missed. -/
theorem Missed.step (h : Missed s row) (hs : ReaderStep s l s') : Missed s' row := by
  obtain ⟨hcom, ⟨r, hr, hlt⟩, hnot⟩ := h
  cases hs with
  | client hs =>
    obtain ⟨rows, hcom', -⟩ := hs.committed
    exact ⟨hcom' ▸ List.mem_append_left rows hcom, ⟨r, hr, hlt⟩, hnot⟩
  | poll =>
    refine ⟨hcom, ⟨r, mem_poll.2 (.inl hr), hlt⟩, fun hmem => ?_⟩
    rcases mem_poll.1 hmem with hmem | ⟨-, habove⟩
    · exact hnot hmem
    · exact Int.lt_asymm hlt (above_iff.1 habove r hr)

/-- A missed row is missed for ever. -/
theorem Missed.run (h : Missed s row) (hr : Run ReaderStep s tr s') : Missed s' row :=
  hr.invariant (I := fun _ s => Missed s row) h fun _ _ _ _ h hs => h.step hs

/-- **A disturbed poll can miss a row.** A finished transaction holds a row below a committed id:
when the reader polls and the transaction commits, the row is missed. -/
theorem missed_of_disturbed (h₀ : w₀.Initial) (hr : Run ReaderStep ⟨w₀, []⟩ tr s) {tx : OpenTx}
    (hc : s.world.client c = some tx) (hidle : tx.activity = .idle) (hrow : row ∈ tx.pending)
    {r : OutboxEvent} (hcom : r ∈ s.world.committed) (hlt : row.id < r.id) :
    ∃ s', Run ReaderStep s [none, some (c, .commit tx.returned)] s' ∧ Missed s' row := by
  have hcons := Consistent.run h₀ hr
  have hheld : row.id ∈ s.world.ids c := by
    rw [World.ids_of_client hc]
    exact List.mem_append_left _ (List.mem_map_of_mem hrow)
  have hnew : row ∉ s.world.committed := fun hmem =>
    hcons.keys.ids.shared_held c _ hheld (List.mem_map_of_mem hmem)
  have hpolled : Consistent ⟨s.world, poll s.world.committed s.seen⟩ := hcons.step .poll
  obtain ⟨pending, aborted, activity, returned⟩ := tx
  obtain rfl : activity = .idle := hidle
  refine ⟨_, (Run.single ReaderStep.poll).snoc (.client (.commit hc)), ?_, ?_, ?_⟩
  · exact List.mem_append_right _ hrow
  · obtain ⟨q, hq, hle⟩ := poll_reaches hcom s.seen
    exact ⟨q, hq, Int.lt_of_lt_of_le hlt hle⟩
  · exact fun hseen => hnew (hpolled.seen_committed row hseen)

/-- **When the id is a safe cursor.** In every run whose polls are all taken while no open
transaction holds an id below a committed one, every committed row is among the rows seen after the
next poll, and no step commits a row whose id is below that of a row already seen. In any run, a
poll taken while a finished transaction holds a row below a committed id leaves that row committed
and never seen, if the transaction then commits. -/
theorem cursor_safe (h₀ : w₀.Initial) :
    (∀ {tr s}, Run GuardedStep ⟨w₀, []⟩ tr s →
      (∀ row ∈ s.world.committed, row ∈ poll s.world.committed s.seen) ∧
      ∀ {c a w'}, Step s.world (c, a) w' → ∀ row ∈ w'.committed, row ∉ s.world.committed →
        ∀ r ∈ s.seen, r.id < row.id) ∧
    (∀ {tr s}, Run ReaderStep ⟨w₀, []⟩ tr s → ∀ {c tx}, s.world.client c = some tx →
      tx.activity = .idle → ∀ row ∈ tx.pending, ∀ r ∈ s.world.committed, row.id < r.id →
        ∃ s', Run ReaderStep s [none, some (c, .commit tx.returned)] s' ∧
          row ∈ s'.world.committed ∧
          ∀ {tr' s''}, Run ReaderStep s' tr' s'' → row ∉ s''.seen) := by
  constructor
  · intro tr s hr
    have hcaught := Caught.run h₀ hr
    constructor
    · intro row hrow
      exact mem_poll.2 ((hcaught.committed_seen row hrow).imp_right (⟨hrow, ·⟩))
    · intro c a w' hs row hrow hnew
      obtain ⟨rows, hcom, hids⟩ := hs.committed
      rw [hcom, List.mem_append] at hrow
      exact hcaught.held_above c _ (hids row (hrow.resolve_left hnew))
  · intro tr s hr c tx hc hidle row hrow r hcom hlt
    obtain ⟨s', hr', hmissed⟩ := missed_of_disturbed h₀ hr hc hidle hrow hcom hlt
    exact ⟨s', hr', hmissed.committed, fun hr'' => (hmissed.run hr'').not_seen⟩

end

section
open SerdeJson

/-- A client publishes and commits, the reader polls, another client publishes, the reader polls
while that transaction is open, and after the commit the next poll returns its row as well. -/
theorem cursor_safe_two : ∃ s, Run GuardedStep ⟨.empty Bool, []⟩
    ((appendWithIdTrace false (started 1) ⟨1⟩ ++ [(false, startedCommit 1)]).map some ++ [none] ++
      (appendWithIdTrace true (started 2) ⟨2⟩).map some ++ [none] ++
      [some (true, startedCommit 2)]) s ∧
    s.seen = [startedRow 1 1] ∧ startedRow 2 2 ∈ poll s.world.committed s.seen := by
  have hclient : ∀ {w w' : World Bool} {tr}, Run Step w tr w' → ∀ seen : List OutboxEvent,
      Run GuardedStep ⟨w, seen⟩ (tr.map some) ⟨w', seen⟩ := fun hr seen =>
    hr.map (Watched.mk · seen) some fun _ _ _ h => ⟨.client h, nofun⟩
  have hfirst := started_commit_run (w := .empty Bool) (c := false) (u := 1) rfl (by decide)
    (by decide) (fun _ _ h => nomatch h)
  have hsecond := started_run (w := ⟨[startedRow 1 1], ⟨2⟩, fun _ => none⟩) (c := true) (u := 2) rfl
    (by decide) (by decide) (fun _ _ h => nomatch h)
  have hcommit := Step.commit (World.setAt_client_self ⟨[startedRow 1 1], ⟨2⟩, fun _ => none⟩ true
    ⟨[startedRow 2 2], false, .idle, [(started 2, .ok [⟨2⟩])]⟩ ⟨3⟩)
  have hquiet : Undisturbed (⟨[startedRow 1 1], ⟨2⟩, fun _ => none⟩ : World Bool) :=
    fun _ _ hi => absurd hi List.not_mem_nil
  have hopen : Undisturbed ((⟨[startedRow 1 1], ⟨2⟩, fun _ => none⟩ : World Bool).setAt true
      ⟨[startedRow 2 2], false, .idle, [(started 2, .ok [⟨2⟩])]⟩ ⟨3⟩) := by
    rintro (_ | _) i hi row hrow
    · exact absurd hi List.not_mem_nil
    · obtain rfl := List.mem_singleton.1 hi
      obtain rfl := List.mem_singleton.1 hrow
      decide
  have hrun := ((((hclient hfirst []).snoc ⟨.poll, fun _ => hquiet⟩).append
    (hclient hsecond [startedRow 1 1])).snoc ⟨.poll, fun _ => hopen⟩).snoc
    ⟨.client hcommit, nofun⟩
  exact ⟨_, hrun, rfl,
    ((cursor_safe World.empty_initial).1 hrun).1 _ (List.mem_cons_of_mem _ List.mem_cons_self)⟩

/-- **Overlapping transactions make the reader miss a row.** Two clients publish; the second, which
drew the greater id, commits; the reader polls; the first commits. Its row has an id below that of a
row already seen, and no later poll returns it. -/
theorem missed_of_overlap : ∃ s, Run ReaderStep ⟨.empty Bool, []⟩
    ((appendWithIdTrace false (started 1) ⟨1⟩ ++ appendWithIdTrace true (started 2) ⟨2⟩ ++
      [(true, Action.commit [(started 2, .ok [⟨2⟩])])]).map some ++
      [none, some (false, .commit [(started 1, .ok [⟨1⟩])])]) s ∧
    startedRow 1 1 ∈ s.world.committed ∧ (∃ r ∈ s.seen, (startedRow 1 1).id < r.id) ∧
    ∀ tr' s', Run ReaderStep s tr' s' → startedRow 1 1 ∉ s'.seen := by
  have hfirst := started_run (w := .empty Bool) (c := false) (u := 1) rfl (by decide) (by decide)
    (fun _ _ h => nomatch h)
  have hsecond := started_run (w := (World.empty Bool).setAt false
      ⟨[startedRow 1 1], false, .idle, [(started 1, .ok [⟨1⟩])]⟩ ⟨2⟩)
    (c := true) (u := 2) rfl (by decide) (by decide) (by
      rintro (_ | _) tx htx
      · cases htx
        decide
      · exact nomatch htx)
  have hrun : Run ReaderStep _ _ _ :=
    ((hfirst.append hsecond).snoc (Step.commit (World.setAt_client_self ..))).map
      (Watched.mk · []) some fun _ _ _ h => .client h
  have hheld : startedRow 1 1 ∈ [startedRow 1 1] := List.mem_cons_self
  have hcom : startedRow 2 2 ∈ [startedRow 2 2] := List.mem_cons_self
  obtain ⟨s, hend, hmissed⟩ :=
    missed_of_disturbed (c := false) World.empty_initial hrun rfl rfl hheld hcom (by decide)
  exact ⟨s, hrun.append hend, hmissed.committed, hmissed.passed,
    fun _ _ hr => (hmissed.run hr).not_seen⟩

end

end OutboxPublisher
