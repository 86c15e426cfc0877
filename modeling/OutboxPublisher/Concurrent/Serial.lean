import OutboxPublisher.Concurrent.Log
import OutboxPublisher.Concurrent.Order

/-!
# Serial runs

The transactions that commit without an error of the server could have run one after the other, in
the order of their commits, each from its begin to its commit with no step of another in between, no
failure and no wait: the same calls return the same results, and the table holds the same rows but
for their ids (`serialisable`).

`Replayable` says of an open transaction that its steps so far can be done again in any world where
nobody is in a transaction, its identifiers are free and the sequence has enough numbers left; it is
kept by every step that does not abort the transaction (`Replayable.step`).
-/

namespace OutboxPublisher

open Interaction (Program Run)

/-- A step within a transaction that goes on: no begin, no end and no failure. -/
def Action.Proceeds : Action → Prop
  | .call _ | .newV4 _ | .send | .nextval | .insert | .complete | .ret _ _ => True
  | _ => False

/-- A serial trace: one transaction after the other, each begun and committed by one client, with
none but its own steps in between. -/
inductive SerialTrace {κ : Type} : List (κ × Action) → Prop
  | nil : SerialTrace []
  | transaction {tr : List (κ × Action)} {c : κ} {acts : List Action} {returned : List CallOutcome}
      (h : SerialTrace tr) (hacts : ∀ a ∈ acts, a.Proceeds) :
      SerialTrace (tr ++ ((c, .begin) :: acts.map (c, ·) ++ [(c, .commit returned)]))

/-- What a step commits. -/
def Action.committed : Action → Option (List CallOutcome)
  | .commit returned => some returned
  | _ => none

/-- The commits of a trace, with what the calls of each transaction returned. -/
def commits {κ : Type} (tr : List (κ × Action)) : List (κ × List CallOutcome) :=
  tr.filterMap fun l => l.2.committed.map (l.1, ·)

/-- No call met an error of the server. -/
def Succeeded (returned : List CallOutcome) : Prop :=
  ∀ x ∈ returned, ¬ ErrorOfServer x.2

instance : DecidablePred Succeeded := fun returned =>
  inferInstanceAs (Decidable (∀ x ∈ returned, ¬ ErrorOfServer x.2))

section
variable {κ : Type}

/-- Traces one after the other. -/
theorem commits_append (tr tr' : List (κ × Action)) :
    commits (tr ++ tr') = commits tr ++ commits tr' :=
  List.filterMap_append

/-- The steps within a transaction commit nothing. -/
theorem commits_of_proceeds {c : κ} {acts : List Action} (h : ∀ a ∈ acts, a.Proceeds) :
    commits (acts.map (c, ·)) = [] := by
  rw [commits, List.filterMap_map, List.filterMap_eq_nil_iff]
  intro a ha
  have hp := h a ha
  cases a with
  | commit => exact hp.elim
  | _ => rfl

/-! ## Doing a transaction again -/

/-- Transactions that differ in the numbers drawn only. -/
inductive SameButIds : OpenTx → OpenTx → Prop
  | idle {pending' pending aborted returned}
      (h : pending'.map (·.columns) = pending.map (·.columns)) :
      SameButIds ⟨pending', aborted, .idle, returned⟩ ⟨pending, aborted, .idle, returned⟩
  | running {pending' pending aborted call p returned}
      (h : pending'.map (·.columns) = pending.map (·.columns)) :
      SameButIds ⟨pending', aborted, .running call p, returned⟩
        ⟨pending, aborted, .running call p, returned⟩
  | inserting {pending' pending aborted call current' current todo k returned}
      (h : pending'.map (·.columns) = pending.map (·.columns))
      (hcurrent : current'.map Prod.snd = current.map Prod.snd) :
      SameButIds ⟨pending', aborted, .inserting call current' todo k, returned⟩
        ⟨pending, aborted, .inserting call current todo k, returned⟩

/-- There is room for a transaction: its identifiers are free, and the sequence has a number left
for each that it holds. -/
structure Room (v : World κ) (tx : OpenTx) : Prop where
  free : ∀ u ∈ tx.eventIds, u ∉ v.committed.map (·.eventId)
  numbers : ∀ i < tx.ids.length, v.seq.next + i < 2 ^ 63

/-- The world after a client's transaction was done again from another: this client alone is in a
transaction, the same but for its ids, and it has drawn as many numbers. -/
structure Replayed (v : World κ) (c : κ) (tx : OpenTx) (v' : World κ) : Prop where
  keys : Keys v'
  committed : v'.committed = v.committed
  seq : v'.seq.next = v.seq.next + tx.ids.length
  client : ∃ tx', v'.client c = some tx' ∧ SameButIds tx' tx
  others : ∀ d, d ≠ c → v'.client d = none

/-- Less room is needed for less. -/
theorem Room.mono {v : World κ} {tx tx₀ : OpenTx} (h : Room v tx)
    (hev : tx₀.eventIds ⊆ tx.eventIds) (hids : tx₀.ids.length ≤ tx.ids.length) : Room v tx₀ :=
  ⟨fun u hu => h.free u (hev hu), fun i hi => h.numbers i (Nat.lt_of_lt_of_le hi hids)⟩

/-- Rows with the same columns have the same event ids. -/
theorem eventIds_of_columns {rows rows' : List OutboxEvent}
    (h : rows'.map (·.columns) = rows.map (·.columns)) :
    rows'.map (·.eventId) = rows.map (·.eventId) := by
  have hmap := congrArg (List.map Tuple.eventId) h
  rw [List.map_map, List.map_map] at hmap
  refine List.map_injective_iff.2 (Option.some_injective Uuid) ?_
  rwa [List.map_map, List.map_map]

end

section
variable {κ : Type} [DecidableEq κ] [Serialize Map] [Serialize (List Value)]

/-- The transaction can be done again from its begin, wherever nobody is in a transaction and there
is room for it. -/
def Replayable (c : κ) (tx : OpenTx) : Prop :=
  ∀ v : World κ, v.Initial → Room v tx → ∃ (acts : List Action) (v' : World κ),
    (∀ a ∈ acts, a.Proceeds) ∧ Run Step v ((c, .begin) :: acts.map (c, ·)) v' ∧
      Replayed v c tx v'

variable {w₀ w w' v v' : World κ} {c : κ} {a : Action} {tx tx₀ tx' : OpenTx}
  {tr : List (κ × Action)}

/-- One more step of the transaction done again. -/
theorem Replayed.step (h : Replayed v c tx₀ v') {v'' : World κ} (hs : Step v' (c, a) v'')
    (hcom : v''.committed = v'.committed) (hseq : v''.seq.next = v.seq.next + tx.ids.length)
    (hclient : v''.client c = some tx') (hsame : SameButIds tx' tx) : Replayed v c tx v'' where
  keys := h.keys.step hs
  committed := hcom.trans h.committed
  seq := hseq
  client := ⟨tx', hclient, hsame⟩
  others d hd := (hs.client_of_ne hd).trans (h.others d hd)

omit [DecidableEq κ] [Serialize Map] [Serialize (List Value)] in
/-- A row whose event id is new to the transaction done again, and to the committed rows, is free
under the number drawn there. -/
theorem Replayed.free (h : Replayed v c tx₀ v') {pending aborted call id t todo k returned}
    {row : OutboxEvent}
    (hc : v'.client c = some ⟨pending, aborted, .inserting call (some (id, t)) todo k, returned⟩)
    (hnew : row.eventId ∉ pending.map (·.eventId))
    (hfree : row.eventId ∉ v.committed.map (·.eventId)) :
    ¬ Collides (v'.committed ++ pending) { row with id := id } := by
  rintro ⟨r, hr, heq | heq⟩
  · exact (h.keys.drawn_fresh hc).1 (List.mem_map.2 ⟨r, hr, heq⟩)
  · rcases List.mem_append.1 hr with hr | hr
    · exact hfree (h.committed ▸ List.mem_map.2 ⟨r, hr, heq⟩)
    · exact hnew (List.mem_map.2 ⟨r, hr, heq⟩)

/-- A transaction that can be done again and goes on can be done again with the step. -/
theorem Replayable.extend (h : Replayable c tx₀) (a : Action) (ha : a.Proceeds)
    (hev : tx₀.eventIds ⊆ tx.eventIds) (hids : tx₀.ids.length ≤ tx.ids.length)
    (hstep : ∀ v v' : World κ, Room v tx → Replayed v c tx₀ v' →
      ∃ v'', Step v' (c, a) v'' ∧ Replayed v c tx v'') : Replayable c tx := by
  intro v hv hroom
  obtain ⟨acts, v', hacts, hr, hrep⟩ := h v hv (hroom.mono hev hids)
  obtain ⟨v'', hs, hrep'⟩ := hstep v v' hroom hrep
  refine ⟨acts ++ [a], v'', List.forall_mem_append.2 ⟨hacts, List.forall_mem_singleton.2 ha⟩, ?_,
    hrep'⟩
  rw [List.map_append]
  exact hr.snoc hs

/-- A step of the transaction that inserts and draws nothing. -/
theorem Replayable.extend_quiet (h : Replayable c tx₀) (a : Action) (ha : a.Proceeds)
    (hev : tx.eventIds = tx₀.eventIds) (hids : tx.ids.length = tx₀.ids.length)
    (hstep : ∀ (v' : World κ) tx', v'.client c = some tx' → SameButIds tx' tx₀ →
      ∃ tx'', Step v' (c, a) (v'.set c (some tx'')) ∧ SameButIds tx'' tx) : Replayable c tx := by
  refine h.extend a ha (hev ▸ List.Subset.refl _) (Nat.le_of_eq hids.symm) fun v v' _ hrep => ?_
  obtain ⟨tx', htx', hsame⟩ := hrep.client
  obtain ⟨tx'', hs, hsame'⟩ := hstep v' tx' htx' hsame
  exact ⟨_, hs, hrep.step hs rfl (hids ▸ hrep.seq) (World.set_client_self ..) hsame'⟩

/-- **A step of a client** that leaves its transaction at work leaves it one that can be done
again. -/
theorem Replayable.step
    (hrep : ∀ tx, w.client c = some tx → tx.aborted = false → Replayable c tx)
    (hs : Step w (c, a) w') (htx : w'.client c = some tx) (hactive : tx.aborted = false) :
    Replayable c tx := by
  have heq : ∀ {o : Option OpenTx}, w'.client c = o → o = some tx := fun h => h.symm.trans htx
  cases hs with
  | begin hc =>
    cases heq (World.set_client_self ..)
    intro v hv _
    refine ⟨[], _, by simp, .single (.begin (hv.client_eq c)), ?_⟩
    refine ⟨hv.keys.step (.begin (hv.client_eq c)), rfl, (Int.add_zero _).symm,
      ⟨_, World.set_client_self .., .idle rfl⟩, fun d hd => ?_⟩
    rw [World.set_client_of_ne _ _ hd, hv.client_eq]
  | call call hc =>
    cases heq (World.set_client_self ..)
    refine (hrep _ hc hactive).extend_quiet (.call call) trivial rfl rfl fun v' tx' htx' h => ?_
    cases h with
    | idle hcols => exact ⟨_, .call call htx', .running hcols⟩
  | newV4 u hc =>
    cases heq (World.set_client_self ..)
    refine (hrep _ hc hactive).extend_quiet (.newV4 u) trivial rfl rfl fun v' tx' htx' h => ?_
    cases h with
    | running hcols => exact ⟨_, .newV4 u htx', .running hcols⟩
  | send hc hts =>
    cases heq (World.set_client_self ..)
    refine (hrep _ hc hactive).extend_quiet .send trivial rfl rfl fun v' tx' htx' h => ?_
    cases h with
    | running hcols => exact ⟨_, .send htx' hts, .inserting hcols rfl⟩
  | refused hc =>
    cases heq (World.set_client_self ..)
    cases hactive
  | @nextval _ pending _ _ t _ _ _ hc hseq =>
    cases heq (World.set_client_self ..)
    refine (hrep _ hc hactive).extend .nextval trivial (List.Subset.refl _)
      (by simp [OpenTx.ids, Activity.drawn]) fun v v' hroom h => ?_
    obtain ⟨tx', htx', hsame⟩ := h.client
    cases hsame with
    | @inserting _ _ _ _ current _ _ _ _ hcols hcurrent =>
      obtain rfl := Option.map_eq_none_iff.1 hcurrent
      have hlt : v'.seq.next < 2 ^ 63 := by
        rw [h.seq]
        exact hroom.numbers _ (by simp [OpenTx.ids, Activity.drawn])
      refine ⟨_, .nextval htx' hlt, h.step (.nextval htx' hlt) rfl ?_
        (World.set_client_self ..) (.inserting hcols rfl)⟩
      show v'.seq.next + 1 = _
      rw [h.seq]
      simp [OpenTx.ids, Activity.drawn, Int.add_assoc]
  | @insert _ pending _ _ id t _ _ _ row hc hrow hfree hwait =>
    cases heq (World.set_client_self ..)
    obtain ⟨-, rfl⟩ := OutboxEvent.ofTuple_eq_ok_iff.1 hrow
    refine (hrep _ hc hactive).extend .insert trivial (by simp [OpenTx.eventIds])
      (by simp [OpenTx.ids, Activity.drawn]) fun v v' hroom h => ?_
    obtain ⟨tx', htx', hsame⟩ := h.client
    cases hsame with
    | @inserting pending' _ _ _ current' _ _ _ _ hcols hcurrent =>
      obtain ⟨⟨id', t'⟩, rfl, rfl⟩ := Option.map_eq_some_iff.1 hcurrent
      have hrow' : OutboxEvent.ofTuple id' row.columns = .ok { row with id := id' } :=
        OutboxEvent.ofTuple_eq_ok_iff.2 ⟨rfl, rfl⟩
      have hnew : row.eventId ∉ pending'.map (·.eventId) := by
        rw [eventIds_of_columns hcols]
        intro hmem
        obtain ⟨q, hq, hqe⟩ := List.mem_map.1 hmem
        exact hfree ⟨q, List.mem_append_right _ hq, .inr hqe⟩
      have hfree' := h.free htx' hnew (hroom.free row.eventId (by simp [OpenTx.eventIds]))
      have hwait' : ∀ d tx, d ≠ c → v'.client d = some tx →
          ¬ Collides tx.pending { row with id := id' } := by
        intro d tx hd hdtx
        rw [h.others d hd] at hdtx
        cases hdtx
      have hs' := Step.insert _ htx' hrow' hfree' hwait'
      refine ⟨_, hs', h.step hs' rfl (h.seq.trans ?_) (World.set_client_self ..)
        (.inserting ?_ rfl)⟩
      · simp [OpenTx.ids, Activity.drawn]
      · rw [List.map_append, List.map_append, hcols]
        rfl
  | duplicate | fail =>
    cases heq (World.set_client_self ..)
    cases hactive
  | complete hc =>
    cases heq (World.set_client_self ..)
    refine (hrep _ hc hactive).extend_quiet .complete trivial rfl rfl fun v' tx' htx' h => ?_
    cases h with
    | inserting hcols hcurrent =>
      obtain rfl := Option.map_eq_none_iff.1 hcurrent
      exact ⟨_, .complete htx', .running hcols⟩
  | @ret _ _ _ call result _ hc =>
    cases heq (World.set_client_self ..)
    refine (hrep _ hc hactive).extend_quiet (.ret call result) trivial rfl rfl
      fun v' tx' htx' h => ?_
    cases h with
    | running hcols => exact ⟨_, .ret htx', .idle hcols⟩
  | commit | rollback | crash => cases heq (World.set_client_self ..)

/-! ## The serial run -/

omit [DecidableEq κ] [Serialize Map] [Serialize (List Value)] in
/-- A world with its keys in order and nobody in a transaction is one to begin with. -/
theorem Keys.initial (h : Keys w) (hclient : ∀ c, w.client c = none) : w.Initial where
  client_eq := hclient
  nodup_ids := h.ids.nodup_shared
  nodup_eventIds := h.eventIds.nodup_shared
  committed_lt := h.committed_lt

/-- A serial run of the transactions that have committed without an error of the server, to a world
with the same rows but for their ids, where the sequence has yielded one number for each. -/
structure Serialised (w₀ : World κ) (tr : List (κ × Action)) (w : World κ)
    (tr' : List (κ × Action)) (v : World κ) : Prop where
  run : Run Step w₀ tr' v
  serial : SerialTrace tr'
  commits_eq : commits tr' = (commits tr).filter (Succeeded ·.2)
  columns_eq : v.committed.map (·.columns) = w.committed.map (·.columns)
  client_eq : ∀ c, v.client c = none
  seq_eq : v.seq.next + w₀.committed.length = w₀.seq.next + w.committed.length

/-- **There is room for a transaction** in the world of the serial run: its identifiers are those of
no committed row, and the numbers it has drawn are among those that the serial run has not. -/
theorem Serialised.room (h : Serialised w₀ tr w tr' v) (h₀ : w₀.Initial) (hk : Keys w)
    (hn : Numbered w₀ tr w) (hc : w.client c = some tx) : Room v tx := by
  have hheld : w.ids c = tx.ids := World.ids_of_client hc
  have hnone : ∀ d, w₀.ids d = [] := fun d => by
    rw [World.ids, h₀.client_eq]
    rfl
  refine ⟨fun u hu => ?_, fun i hi => ?_⟩
  · rw [eventIds_of_columns h.columns_eq]
    refine hk.eventIds.shared_held c u ?_
    rw [World.eventIds_of_client hc]
    exact hu
  · obtain ⟨rows, hrows, hfrom⟩ := hn.committed
    have hmem : ∀ j ∈ rows.map (·.id) ++ tx.ids, w₀.seq.next ≤ j ∧ j < w.seq.next := by
      intro j hj
      rcases List.mem_append.1 hj with hj | hj
      · obtain ⟨row, hrow, rfl⟩ := List.mem_map.1 hj
        refine ⟨?_, hk.committed_lt row (hrows ▸ List.mem_append_right _ hrow)⟩
        rcases hfrom row hrow with ⟨d, hd⟩ | hle
        · exact absurd (hnone d ▸ hd) List.not_mem_nil
        · exact hle
      · refine ⟨?_, hk.held_lt c j (hheld ▸ hj)⟩
        rcases hn.held c j (hheld ▸ hj) with ⟨hold, -⟩ | hle
        · exact absurd (hnone c ▸ hold) List.not_mem_nil
        · exact hle
    have hnodup : (rows.map (·.id) ++ tx.ids).Nodup := by
      have hshared := hk.ids.nodup_shared
      rw [hrows, List.map_append] at hshared
      refine (List.nodup_append.1 hshared).2.1.append (hheld ▸ hk.ids.nodup_held c) ?_
      intro j hj hj'
      refine hk.ids.shared_held c j (hheld ▸ hj') ?_
      rw [hrows, List.map_append]
      exact List.mem_append_right _ hj
    have hlength := length_le_of_nodup hnodup hmem
    have hmax := hn.seq_le_max
    have hseq := h.seq_eq
    rw [hrows, List.length_append] at hseq
    rw [List.length_append, List.length_map] at hlength
    push_cast at hseq
    omega

/-- A step that commits nothing leaves the serial run as it is. -/
theorem Serialised.quiet (h : Serialised w₀ tr w tr' v) (hcom : w'.committed = w.committed)
    (hne : ∀ returned, a ≠ .commit returned) : Serialised w₀ (tr ++ [(c, a)]) w' tr' v := by
  refine ⟨h.run, h.serial, ?_, hcom ▸ h.columns_eq, h.client_eq, hcom ▸ h.seq_eq⟩
  have hnone : commits [(c, a)] = [] := by
    cases a with
    | commit returned => exact absurd rfl (hne returned)
    | _ => rfl
  rw [commits_append, hnone, List.append_nil]
  exact h.commits_eq

/-- A commit after an error of the server leaves the serial run as it is. -/
theorem Serialised.failed {returned : List CallOutcome} (h : Serialised w₀ tr w tr' v)
    (hcom : w'.committed = w.committed) (hfailed : ¬ Succeeded returned) :
    Serialised w₀ (tr ++ [(c, .commit returned)]) w' tr' v := by
  refine ⟨h.run, h.serial, ?_, hcom ▸ h.columns_eq, h.client_eq, hcom ▸ h.seq_eq⟩
  have hone : commits [(c, Action.commit returned)] = [(c, returned)] := rfl
  rw [commits_append, hone, List.filter_append, ← h.commits_eq,
    List.filter_singleton, decide_eq_false hfailed]
  exact (List.append_nil _).symm

/-- A commit after no error of the server is one more transaction of the serial run. -/
theorem Serialised.commit {pending : List OutboxEvent} {returned : List CallOutcome}
    (h : Serialised w₀ tr w tr' v) (h₀ : w₀.Initial)
    (hcom : w'.committed = w.committed ++ pending) (hsucceeded : Succeeded returned)
    (hrep : Replayable c ⟨pending, false, .idle, returned⟩)
    (hroom : Room v ⟨pending, false, .idle, returned⟩) :
    ∃ tr'' v', Serialised w₀ (tr ++ [(c, .commit returned)]) w' tr'' v' := by
  obtain ⟨acts, v₁, hacts, hr, h₁⟩ :=
    hrep v ((Keys.run h₀ h.run).initial h.client_eq) hroom
  obtain ⟨tx', htx', hsame⟩ := h₁.client
  cases hsame with
  | @idle pending' _ _ _ hcols =>
    have hlength : pending'.length = pending.length := by
      rw [← List.length_map (·.columns), hcols, List.length_map]
    refine ⟨_, _, h.run.append (hr.snoc (.commit htx')), .transaction h.serial hacts, ?_, ?_,
      fun d => ?_, ?_⟩
    · have hbegin : commits ((c, Action.begin) :: acts.map (c, ·)) = [] := commits_of_proceeds hacts
      have hone : commits [(c, Action.commit returned)] = [(c, returned)] := rfl
      rw [commits_append, commits_append, commits_append, hbegin, hone, List.filter_append,
        ← h.commits_eq, List.filter_singleton, decide_eq_true hsucceeded]
      rfl
    · rw [hcom, List.map_append, List.map_append, h₁.committed, hcols, h.columns_eq]
    · by_cases hd : d = c
      · subst hd
        exact World.set_client_self ..
      · exact (World.set_client_of_ne _ _ hd).trans (h₁.others d hd)
    · have hseq := h.seq_eq
      have hdrawn : v₁.seq.next = v.seq.next + pending.length := by
        rw [h₁.seq]
        simp [OpenTx.ids, Activity.drawn]
      rw [hcom, List.length_append]
      push_cast
      show v₁.seq.next + _ = _
      omega

/-- **Serialisability.** In every run of any number of clients, whatever the order of their steps
and wherever they crash, the transactions that commit without an error of the server could have run
one after the other in the order of their commits: there is a run of these alone, each from its
begin to its commit with no other step in between, in which no statement fails or waits, every call
returns what it returned, and the table ends with the same rows in the same order but for their ids.
-/
theorem serialisable (h₀ : w₀.Initial) (hr : Run Step w₀ tr w) :
    ∃ tr' v, Run Step w₀ tr' v ∧ SerialTrace tr' ∧
      commits tr' = (commits tr).filter (Succeeded ·.2) ∧
      v.committed.map (·.columns) = w.committed.map (·.columns) := by
  suffices h : (∀ c tx, w.client c = some tx → tx.aborted = false → Replayable c tx) ∧
      ∃ tr' v, Serialised w₀ tr w tr' v by
    obtain ⟨-, tr', v, hs⟩ := h
    exact ⟨tr', v, hs.run, hs.serial, hs.commits_eq, hs.columns_eq⟩
  induction hr with
  | nil =>
    refine ⟨fun c tx htx => ?_, [], w₀, .nil, .nil, rfl, rfl, h₀.client_eq, rfl⟩
    rw [h₀.client_eq] at htx
    exact nomatch htx
  | @snoc tr w w' l hr hs ih =>
    obtain ⟨c, a⟩ := l
    obtain ⟨hrep, tr', v, hser⟩ := ih
    refine ⟨fun d tx htx hactive => ?_, ?_⟩
    · by_cases hd : d = c
      · subst hd
        exact Replayable.step (hrep d) hs htx hactive
      · rw [hs.client_of_ne hd] at htx
        exact hrep d tx htx hactive
    · obtain ⟨hcom, hne⟩ | ⟨pending, aborted, returned, hc, rfl, hcom⟩ := hs.commits
      · exact ⟨tr', v, hser.quiet hcom hne⟩
      · cases (Logged.run h₀.client_eq hr).accounted c _ hc with
        | idle hb =>
          cases hb with
          | aborted hof =>
            obtain ⟨x, hx, hof⟩ := hof
            rw [List.append_nil] at hcom
            exact ⟨tr', v, hser.failed hcom fun hall => hall x hx hof⟩
          | active hno _ =>
            exact hser.commit h₀ hcom hno (hrep c _ hc rfl)
              (hser.room h₀ (Keys.run h₀ hr) (Numbered.run hr) hc)

end

section
open SerdeJson

/-- Two clients that publish at the same time could have published one after the other. -/
theorem serialisable_two : ∃ (tr : List (Bool × Action)) (v : World Bool),
    Run Step (.empty Bool) tr v ∧ SerialTrace tr ∧
    commits tr = [(true, [(started 2, .ok [⟨2⟩])]), (false, [(started 1, .ok [⟨1⟩])])] ∧
    v.committed.map (·.columns) = [(startedRow 1 2).columns, (startedRow 2 1).columns] :=
  serialisable World.empty_initial overlapping_run

end

end OutboxPublisher
