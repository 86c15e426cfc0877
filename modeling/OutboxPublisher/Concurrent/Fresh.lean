import OutboxPublisher.Publisher.RoundTrip
import OutboxPublisher.Concurrent.Progress

/-!
# Identifiers used once

An identifier is claimed when it is drawn, or when a call is given it. As long as no identifier is
claimed twice in a run, and none is that of an initial row, no call is told of a duplicate and no
INSERT waits for another transaction (`fresh_ids_unobstructed`). So waiting and `DuplicateEventId`
are matters of callers that use an identifier again.

`Holding` says which identifiers an open transaction holds, those of its rows and those its client
has claimed for rows to come (`Claiming`). The invariant of a run is that the identifiers held are
separated (`Claimed`).
-/

namespace OutboxPublisher

open Interaction (Program Run Separated)

/-- The identifiers a step claims. -/
def Action.claims : Action → List Uuid
  | .call x => x.claims
  | .newV4 u => [u]
  | _ => []

/-- The identifiers claimed in a run. -/
def claimed {κ : Type} (tr : List (κ × Action)) : List Uuid :=
  tr.flatMap (·.2.claims)

/-- One more step. -/
theorem claimed_snoc {κ : Type} (tr : List (κ × Action)) (l : κ × Action) :
    claimed (tr ++ [l]) = claimed tr ++ l.2.claims := by
  simp [claimed]

/-! ## Transactions -/

section
/-- An open transaction that holds some identifiers: those of its rows, and those its client has
claimed for rows to come. -/
inductive Holding (held : List Uuid) : OpenTx → Prop
  | idle {pending aborted returned} (h : (pending.map (·.eventId)).Sublist held) :
      Holding held ⟨pending, aborted, .idle, returned⟩
  | running {pending aborted call p ids returned}
      (h : (pending.map (·.eventId) ++ ids).Sublist held) (hp : Claiming ids p) :
      Holding held ⟨pending, aborted, .running call p, returned⟩
  | inserting {pending aborted call current todo ids returned} {a : List EventId}
      (h : (pending.map (·.eventId) ++ ids).Sublist held)
      (hids : ((current.map Prod.snd).toList ++ todo).map (·.eventId) = ids.map some) :
      Holding held ⟨pending, aborted,
        .inserting call current todo fun r => .pure (mapResult a r), returned⟩

variable {held : List Uuid} {tx : OpenTx}

/-- The rows of a transaction have identifiers that it holds. -/
theorem Holding.pending (h : Holding held tx) : (tx.pending.map (·.eventId)).Sublist held := by
  cases h with
  | idle h => exact h
  | running h | inserting h => exact (List.sublist_append_left ..).trans h

/-- The identifier of the row about to be inserted is held, and is none of those of the rows. -/
theorem Holding.next {pending aborted call id t todo k returned row}
    (h : Holding held ⟨pending, aborted, .inserting call (some (id, t)) todo k, returned⟩)
    (hnodup : held.Nodup) (hrow : OutboxEvent.ofTuple id t = .ok row) :
    row.eventId ∈ held ∧ row.eventId ∉ pending.map (·.eventId) := by
  obtain ⟨-, rfl⟩ := OutboxEvent.ofTuple_eq_ok_iff.1 hrow
  cases h with
  | @inserting _ _ _ _ _ ids _ _ h hids =>
    cases ids with
    | nil => exact nomatch hids
    | cons u ids =>
      obtain rfl := Option.some.inj (List.cons.inj hids).1
      refine ⟨h.subset (List.mem_append_right _ List.mem_cons_self), fun hmem => ?_⟩
      exact List.disjoint_of_nodup_append (hnodup.sublist h) hmem List.mem_cons_self

variable {κ : Type} {w₀ w : World κ} {c : κ} {tr : List (κ × Action)}

/-- The identifiers the clients hold, with those of the committed rows, are pairwise distinct; each
was claimed, or is that of an initial row; and no call was told of a duplicate. -/
structure Claimed (w₀ : World κ) (tr : List (κ × Action)) (w : World κ) (held : κ → List Uuid) :
    Prop where
  keys : Keys w
  separated : Separated (w.committed.map (·.eventId)) held
  holding : ∀ c tx, w.client c = some tx → Holding (held c) tx
  of_committed : ∀ u ∈ w.committed.map (·.eventId), u ∈ w₀.committed.map (·.eventId) ++ claimed tr
  of_held : ∀ c, ∀ u ∈ held c, u ∈ claimed tr
  no_duplicate : ∀ c call, (c, .ret call (.error .duplicateEventId)) ∉ tr

variable {heldBy : κ → List Uuid}

/-- No row about to be inserted collides, with a committed row or with one of any transaction. -/
theorem Claimed.free (h : Claimed w₀ tr w heldBy)
    {pending aborted call id t todo k returned row}
    (hc : w.client c = some ⟨pending, aborted, .inserting call (some (id, t)) todo k, returned⟩)
    (hrow : OutboxEvent.ofTuple id t = .ok row) : ¬ Collides (w.committed ++ pending) row ∧
      ∀ d tx, d ≠ c → w.client d = some tx → ¬ Collides tx.pending row := by
  obtain ⟨rfl, -⟩ := OutboxEvent.ofTuple_eq_ok_iff.1 hrow
  obtain ⟨hev, hnot⟩ := (h.holding c _ hc).next (h.separated.nodup_held c) hrow
  obtain ⟨hid, hids⟩ := h.keys.drawn_fresh hc
  constructor
  · rintro ⟨r, hr, heq | heq⟩
    · exact hid (heq ▸ List.mem_map_of_mem hr)
    · rcases List.mem_append.1 hr with hr | hr
      · exact h.separated.shared_held c _ hev (heq ▸ List.mem_map_of_mem hr)
      · exact hnot (heq ▸ List.mem_map_of_mem hr)
  · rintro d tx hd hdtx ⟨r, hr, heq | heq⟩
    · exact hids d tx hd hdtx (heq ▸ List.mem_map_of_mem hr)
    · exact h.separated.held_held c d hd.symm _ hev
        ((h.holding d tx hdtx).pending.subset (heq ▸ List.mem_map_of_mem hr))

variable [DecidableEq κ] {a : Action}

/-- What a client holds after a step was claimed, when it is of what it held and what the step
claims. -/
theorem Claimed.mem_claimed (h : Claimed w₀ tr w heldBy) {l : List Uuid}
    (hl : l ⊆ heldBy c ++ a.claims) (d : κ) :
    ∀ u ∈ Function.update heldBy c l d, u ∈ claimed (tr ++ [(c, a)]) := by
  intro u hu
  rw [claimed_snoc, List.mem_append]
  by_cases hd : d = c
  · subst hd
    rw [Function.update_self] at hu
    exact (List.mem_append.1 (hl hu)).imp_left (h.of_held d u)
  · rw [Function.update_of_ne hd] at hu
    exact .inl (h.of_held d u hu)

/-- A client that takes what a step claims keeps the identifiers separated. -/
theorem Claimed.separated_take (h : Claimed w₀ tr w heldBy)
    (hfresh : (w₀.committed.map (·.eventId) ++ claimed (tr ++ [(c, a)])).Nodup) :
    Separated (w.committed.map (·.eventId))
      (Function.update heldBy c (heldBy c ++ a.claims)) := by
  rw [claimed_snoc, ← List.append_assoc] at hfresh
  have hdisj := List.disjoint_of_nodup_append hfresh
  refine h.separated.extend (fun d hd => Function.update_of_ne hd ..) (Function.update_self ..)
    (List.nodup_append.1 hfresh).2.1 fun u hu => ⟨fun hcom => ?_, fun d hd => ?_⟩
  · exact hdisj (h.of_committed u hcom) hu
  · exact hdisj (List.mem_append_right _ (h.of_held d u hd)) hu

/-- A client that commits some of what it holds and lets go of the rest keeps the identifiers
separated. -/
theorem Claimed.separated_commit (h : Claimed w₀ tr w heldBy) {rows : List Uuid}
    (hrows : rows.Sublist (heldBy c)) :
    Separated (w.committed.map (·.eventId) ++ rows) (Function.update heldBy c []) := by
  have hdrop : Separated (w.committed.map (·.eventId)) (Function.update heldBy c rows) :=
    h.separated.drop (fun d hd => Function.update_of_ne hd ..)
      ((Function.update_self c rows heldBy).symm ▸ hrows)
  refine hdrop.publish (i := c) (fun d hd => ?_) (Function.update_self ..) ?_
  · rw [Function.update_of_ne hd, Function.update_of_ne hd]
  · rw [Function.update_self]

end

section
variable {κ : Type} [DecidableEq κ] [Serialize Map] [Serialize (List Value)] {held : List Uuid}
  {heldBy : κ → List Uuid} {w₀ w w' : World κ} {c : κ} {a : Action} {tr : List (κ × Action)}
  {tx : OpenTx}

/-- **A step of a client,** other than the failure of an INSERT with 23505, leaves its transaction
holding what it held and what the step claims. -/
theorem Holding.step (hheld : ∀ tx, w.client c = some tx → Holding held tx)
    (hs : Step w (c, a) w') (hdup : a ≠ .duplicate) (htx : w'.client c = some tx) :
    Holding (held ++ a.claims) tx := by
  have heq : ∀ {o : Option OpenTx}, w'.client c = o → o = some tx := fun h => h.symm.trans htx
  have hweak : ∀ {l : List Uuid}, l.Sublist held → l.Sublist (held ++ a.claims) :=
    fun h => h.trans (List.sublist_append_left ..)
  cases hs with
  | begin hc =>
    cases heq (World.set_client_self ..)
    exact .idle (List.nil_sublist _)
  | call call hc =>
    cases heq (World.set_client_self ..)
    cases hheld _ hc with
    | idle h => exact .running (h.append (.refl _)) call.claiming
  | newV4 u hc =>
    cases heq (World.set_client_self ..)
    cases hheld _ hc with
    | running h hp =>
      cases hp with
      | draw hk =>
        refine .running ?_ (hk u)
        rw [← List.append_assoc]
        exact h.append (.refl [u])
  | send hc hts =>
    cases heq (World.set_client_self ..)
    cases hheld _ hc with
    | running h hp =>
      cases hp with
      | send hts' hev =>
        obtain rfl := Option.some.inj (hts'.symm.trans hts)
        exact .inserting (hweak h) hev
  | refused hc =>
    cases heq (World.set_client_self ..)
    cases hheld _ hc with
    | running h hp =>
      cases hp with
      | send hts hev =>
        exact .running (hweak h) (.done fun he => nomatch mapResult_eq_duplicate_iff.1 he)
  | nextval hc hseq =>
    cases heq (World.set_client_self ..)
    cases hheld _ hc with
    | inserting h hids => exact .inserting (hweak h) hids
  | insert row hc hrow hfree hwait =>
    cases heq (World.set_client_self ..)
    obtain ⟨-, rfl⟩ := OutboxEvent.ofTuple_eq_ok_iff.1 hrow
    cases hheld _ hc with
    | @inserting _ _ _ _ _ ids _ _ h hids =>
      cases ids with
      | nil => exact nomatch hids
      | cons u ids =>
        obtain ⟨hu, hrest⟩ := List.cons.inj hids
        obtain rfl := Option.some.inj hu
        refine .inserting (hweak ?_) hrest
        rwa [List.map_append, List.append_assoc]
  | duplicate => exact absurd rfl hdup
  | fail e hc he =>
    cases heq (World.set_client_self ..)
    cases hheld _ hc with
    | inserting h hids =>
      refine .running (List.nil_sublist _ : ([] ++ []).Sublist _) (.done fun hd => he ?_)
      exact Except.error.inj (mapResult_eq_duplicate_iff.1 hd)
  | complete hc =>
    cases heq (World.set_client_self ..)
    cases hheld _ hc with
    | inserting h hids => exact .running (hweak h) (.done nofun)
  | ret hc =>
    cases heq (World.set_client_self ..)
    exact .idle (hweak (hheld _ hc).pending)
  | commit | rollback | crash => cases heq (World.set_client_self ..)

/-- What a client is told in a step, where no row about to be inserted collides. -/
theorem Holding.ret (hheld : ∀ tx, w.client c = some tx → Holding held tx) {call : Call}
    {result : Except PublishError (List EventId)} (hs : Step w (c, .ret call result) w') :
    result ≠ .error .duplicateEventId := by
  cases hs with
  | ret hc =>
    cases hheld _ hc with
    | running h hp =>
      cases hp with
      | done h => exact h

/-- No INSERT fails with 23505. -/
theorem Claimed.not_duplicate (h : Claimed w₀ tr w heldBy) : ¬ Step w (c, .duplicate) w' := by
  intro hs
  cases hs with
  | duplicate row hc hrow hcol => exact (h.free hc hrow).1 hcol

/-- No client is told of a duplicate in a step. -/
theorem Claimed.no_duplicate_step (h : Claimed w₀ tr w heldBy) (hs : Step w (c, a) w') (d : κ)
    (call : Call) : (d, .ret call (.error .duplicateEventId)) ∉ tr ++ [(c, a)] := by
  intro hmem
  rcases List.mem_append.1 hmem with hmem | hmem
  · exact h.no_duplicate d call hmem
  · cases List.mem_singleton.1 hmem
    exact Holding.ret (h.holding _) hs rfl

/-- **A step keeps the identifiers separated,** when it claims none that was claimed before or that
is one of an initial row. -/
theorem Claimed.step (h : Claimed w₀ tr w heldBy) (hs : Step w (c, a) w')
    (hfresh : (w₀.committed.map (·.eventId) ++ claimed (tr ++ [(c, a)])).Nodup) :
    ∃ heldBy', Claimed w₀ (tr ++ [(c, a)]) w' heldBy' := by
  have hweak : ∀ {u}, u ∈ w₀.committed.map (·.eventId) ++ claimed tr →
      u ∈ w₀.committed.map (·.eventId) ++ claimed (tr ++ [(c, a)]) := by
    intro u hu
    rw [claimed_snoc, ← List.append_assoc]
    exact List.mem_append_left _ hu
  obtain ⟨hcom, hne⟩ | ⟨pending, aborted, returned, hc, rfl, hcom⟩ := hs.commits
  · have hdup : a ≠ .duplicate := fun ha => h.not_duplicate (ha ▸ hs)
    refine ⟨_, h.keys.step hs, hcom ▸ h.separated_take hfresh, fun d tx htx => ?_,
      fun u hu => hweak (h.of_committed u (hcom ▸ hu)), h.mem_claimed (List.Subset.refl _),
      h.no_duplicate_step hs⟩
    by_cases hd : d = c
    · subst hd
      rw [Function.update_self]
      exact Holding.step (h.holding d) hs hdup htx
    · rw [Function.update_of_ne hd]
      exact h.holding d tx (hs.client_of_ne hd ▸ htx)
  · have hpending := (h.holding c _ hc).pending
    have hmap : w'.committed.map (·.eventId) =
        w.committed.map (·.eventId) ++ pending.map (·.eventId) := by
      rw [hcom, List.map_append]
    refine ⟨_, h.keys.step hs, hmap ▸ h.separated_commit hpending, fun d tx htx => ?_,
      fun u hu => ?_, h.mem_claimed (List.nil_subset _), h.no_duplicate_step hs⟩
    · have hd : d ≠ c := by
        rintro rfl
        cases hs with
        | commit => exact nomatch (World.set_client_self ..).symm.trans htx
      rw [Function.update_of_ne hd]
      exact h.holding d tx (hs.client_of_ne hd ▸ htx)
    · rw [hmap, List.mem_append] at hu
      rcases hu with hu | hu
      · exact hweak (h.of_committed u hu)
      · exact hweak (List.mem_append_right _ (h.of_held c u (hpending.subset hu)))

/-- The identifiers are separated after every run in which none is claimed twice. -/
theorem Claimed.run (h₀ : w₀.Initial) (hr : Run Step w₀ tr w)
    (hfresh : (w₀.committed.map (·.eventId) ++ claimed tr).Nodup) :
    ∃ heldBy, Claimed w₀ tr w heldBy := by
  induction hr with
  | nil =>
    refine ⟨fun _ => [], h₀.keys, .of_nil h₀.nodup_eventIds fun _ => rfl, fun c tx htx => ?_,
      fun u hu => List.mem_append_left _ hu, fun _ _ hu => absurd hu List.not_mem_nil,
      fun _ _ hmem => absurd hmem List.not_mem_nil⟩
    rw [h₀.client_eq] at htx
    exact nomatch htx
  | @snoc tr w w' l hr hl ih =>
    have hprefix := hfresh
    rw [claimed_snoc, ← List.append_assoc] at hprefix
    obtain ⟨heldBy, hclaimed⟩ := ih (List.nodup_append.1 hprefix).1
    exact hclaimed.step hl hfresh

/-- **Identifiers used once are unobstructed.** In every run in which no identifier is claimed
twice, by a draw or by the call it is given to, and none is that of an initial row: no call returns
`DuplicateEventId` and no INSERT fails with 23505, whatever the order of the steps and wherever
clients crash; and no INSERT waits for another transaction: in every state reached, a row about to
be inserted that satisfies the constraints can be inserted at once. Reference: `DuplicateEventId`
(`outbox-publisher/src/error.rs:6`). -/
theorem fresh_ids_unobstructed (h₀ : w₀.Initial) (hr : Run Step w₀ tr w)
    (hfresh : (w₀.committed.map (·.eventId) ++ claimed tr).Nodup) :
    (∀ c call, (c, .ret call (.error .duplicateEventId)) ∉ tr) ∧
    (∀ c w', ¬ Step w (c, .duplicate) w') ∧
    ∀ c pending aborted call id t todo k returned row,
      w.client c = some ⟨pending, aborted, .inserting call (some (id, t)) todo k, returned⟩ →
      OutboxEvent.ofTuple id t = .ok row → Step w (c, .insert)
        (w.set c (some ⟨pending ++ [row], aborted, .inserting call none todo k, returned⟩)) := by
  obtain ⟨heldBy, h⟩ := Claimed.run h₀ hr hfresh
  refine ⟨h.no_duplicate, fun c w' => h.not_duplicate, fun c _ _ _ _ _ _ _ _ row hc hrow => ?_⟩
  obtain ⟨hfree, hwait⟩ := h.free hc hrow
  exact .insert row hc hrow hfree hwait

end

section
open SerdeJson

/-- Two clients publish at the same time, each under an identifier of its own, and neither is told
of a duplicate. -/
theorem fresh_ids_unobstructed_two : ∃ (w : World Bool) (tr : List (Bool × Action)),
    Run Step (.empty Bool) tr w ∧ w.committed = [startedRow 2 2, startedRow 1 1] ∧
    ∀ c call, (c, .ret call (.error .duplicateEventId)) ∉ tr :=
  ⟨_, _, overlapping_run, rfl,
    (fresh_ids_unobstructed World.empty_initial overlapping_run (by decide)).1⟩

end

end OutboxPublisher
