import OutboxPublisher.Concurrent.World

/-!
# The keys of concurrent transactions

What a step does to the keys: those of the committed rows, and those each client's open transaction
holds. `Effect` lists the four things a step can do to them and `Step.effect` says that every step
does one of them. From it follows the invariant of the unique indexes and of the sequence (`Keys`),
for any number of clients and whatever they do.
-/

namespace OutboxPublisher

open Interaction (Run Separated)

section
variable {κ : Type}

/-- The number drawn for the tuple being inserted. -/
def Activity.drawn : Activity → List ℤ
  | .inserting _ (some (id, _)) _ _ => [id]
  | _ => []

/-- The ids a transaction holds: of its rows, and the one drawn for the next. -/
def OpenTx.ids (tx : OpenTx) : List ℤ :=
  tx.pending.map (·.id) ++ tx.activity.drawn

/-- The event ids a transaction holds. -/
def OpenTx.eventIds (tx : OpenTx) : List Uuid :=
  tx.pending.map (·.eventId)

/-- The ids a client's open transaction holds. -/
def World.ids (w : World κ) (c : κ) : List ℤ :=
  (w.client c).elim [] OpenTx.ids

/-- The event ids a client's open transaction holds. -/
def World.eventIds (w : World κ) (c : κ) : List Uuid :=
  (w.client c).elim [] OpenTx.eventIds

/-- The world before anyone began: no open transaction, and a table the schema permits, whose ids
the sequence has passed. -/
structure World.Initial (w : World κ) : Prop where
  client_eq : ∀ c, w.client c = none
  nodup_ids : (w.committed.map (·.id)).Nodup
  nodup_eventIds : (w.committed.map (·.eventId)).Nodup
  committed_lt : ∀ r ∈ w.committed, r.id < w.seq.next

/-- The keys of the committed rows and those held are pairwise distinct, on both unique indexes, and
the sequence has passed every id. -/
structure Keys (w : World κ) : Prop where
  ids : Separated (w.committed.map (·.id)) w.ids
  eventIds : Separated (w.committed.map (·.eventId)) w.eventIds
  committed_lt : ∀ r ∈ w.committed, r.id < w.seq.next
  held_lt : ∀ c, ∀ i ∈ w.ids c, i < w.seq.next

/-- What a step of a client can do to the keys: let go of some, draw a number, insert a row whose
event id is free, or commit the rows the client holds. -/
inductive Effect (w : World κ) (c : κ) (w' : World κ) : Prop
  | quiet (hcom : w'.committed = w.committed) (hseq : w'.seq = w.seq)
      (hids : (w'.ids c).Sublist (w.ids c)) (hev : (w'.eventIds c).Sublist (w.eventIds c))
  | draw (hcom : w'.committed = w.committed) (hseq : w'.seq = ⟨w.seq.next + 1⟩)
      (hids : w'.ids c = w.ids c ++ [w.seq.next]) (hev : w'.eventIds c = w.eventIds c)
  | insert (row : OutboxEvent) (hcom : w'.committed = w.committed) (hseq : w'.seq = w.seq)
      (hids : w'.ids c = w.ids c) (hev : w'.eventIds c = w.eventIds c ++ [row.eventId])
      (hfree : row.eventId ∉ w.committed.map (·.eventId)) (hheld : ∀ d, row.eventId ∉ w.eventIds d)
  | commit (rows : List OutboxEvent) (hcom : w'.committed = w.committed ++ rows)
      (hseq : w'.seq = w.seq) (hids : rows.map (·.id) = w.ids c)
      (hev : rows.map (·.eventId) = w.eventIds c) (hids' : w'.ids c = [])
      (hev' : w'.eventIds c = [])

/-- The world before anyone began has its keys in order. -/
theorem World.Initial.keys {w : World κ} (h : w.Initial) : Keys w where
  ids := .of_nil h.nodup_ids fun c => by rw [World.ids, h.client_eq, Option.elim_none]
  eventIds := .of_nil h.nodup_eventIds fun c => by
    rw [World.eventIds, h.client_eq, Option.elim_none]
  committed_lt := h.committed_lt
  held_lt c i hi := by
    rw [World.ids, h.client_eq] at hi
    exact nomatch hi

/-- The sequence only moves forward. -/
theorem Effect.seq_le {w w' : World κ} {c : κ} (he : Effect w c w') :
    w.seq.next ≤ w'.seq.next := by
  cases he with
  | quiet _ hseq | insert _ _ hseq | commit _ _ hseq =>
    exact Int.le_of_eq (congrArg Sequence.next hseq.symm)
  | draw _ hseq =>
    rw [hseq]
    exact Int.le_of_lt (Int.lt_succ _)

/-- Rows are only added to the committed ones, and the ids of those added were held. -/
theorem Effect.committed {w w' : World κ} {c : κ} (he : Effect w c w') :
    ∃ rows, w'.committed = w.committed ++ rows ∧ ∀ row ∈ rows, row.id ∈ w.ids c := by
  cases he with
  | quiet hcom | draw hcom | insert _ hcom =>
    refine ⟨[], hcom.trans (List.append_nil _).symm, fun row hrow => ?_⟩
    cases hrow
  | commit rows hcom _ hids =>
    exact ⟨rows, hcom, fun row hrow => hids ▸ List.mem_map_of_mem hrow⟩

/-- An id that is held was held before, or has just been drawn. -/
theorem Effect.held {w w' : World κ} {c : κ} (he : Effect w c w')
    (hother : ∀ d, d ≠ c → w'.client d = w.client d) {d : κ} {i : ℤ} (hi : i ∈ w'.ids d) :
    i ∈ w.ids d ∨ i = w.seq.next ∧ w'.seq.next = w.seq.next + 1 := by
  by_cases hd : d = c
  · subst hd
    cases he with
    | quiet _ _ hids => exact .inl (hids.subset hi)
    | draw _ hseq hids =>
      rw [hids, List.mem_append, List.mem_singleton] at hi
      exact hi.imp_right (⟨·, congrArg Sequence.next hseq⟩)
    | insert _ _ _ hids => exact .inl (hids ▸ hi)
    | commit _ _ _ _ _ hids' =>
      rw [hids'] at hi
      cases hi
  · rw [World.ids, hother d hd] at hi
    exact .inl hi

/-- A number not yet drawn is the id of no row, committed or held. -/
theorem Keys.next_fresh {w : World κ} (h : Keys w) :
    w.seq.next ∉ w.committed.map (·.id) ∧ ∀ d, w.seq.next ∉ w.ids d := by
  refine ⟨fun hmem => ?_, fun d hd => Int.lt_irrefl _ (h.held_lt d _ hd)⟩
  obtain ⟨r, hr, hid⟩ := List.mem_map.1 hmem
  exact Int.lt_irrefl _ (hid ▸ h.committed_lt r hr)

/-- What a step can do to the keys keeps them in order. -/
theorem Keys.effect {w w' : World κ} {c : κ} (h : Keys w) (he : Effect w c w')
    (hother : ∀ d, d ≠ c → w'.client d = w.client d) : Keys w' := by
  have hids : ∀ d, d ≠ c → w'.ids d = w.ids d := fun d hd => by
    rw [World.ids, World.ids, hother d hd]
  have hevs : ∀ d, d ≠ c → w'.eventIds d = w.eventIds d := fun d hd => by
    rw [World.eventIds, World.eventIds, hother d hd]
  refine ⟨?_, ?_, fun r hr => ?_, fun d i hi => ?_⟩
  · cases he with
    | quiet hcom _ hid => exact hcom ▸ h.ids.drop hids hid
    | draw hcom _ hid => exact hcom ▸ h.ids.take hids hid h.next_fresh.1 h.next_fresh.2
    | insert _ hcom _ hid => exact hcom ▸ h.ids.drop hids (hid ▸ .refl _)
    | commit rows hcom _ hid _ hid' =>
      exact h.ids.publish hids hid' (by rw [hcom, List.map_append, hid])
  · cases he with
    | quiet hcom _ _ hev => exact hcom ▸ h.eventIds.drop hevs hev
    | draw hcom _ _ hev => exact hcom ▸ h.eventIds.drop hevs (hev ▸ .refl _)
    | insert row hcom _ _ hev hfree hheld => exact hcom ▸ h.eventIds.take hevs hev hfree hheld
    | commit rows hcom _ _ hev _ hev' =>
      exact h.eventIds.publish hevs hev' (by rw [hcom, List.map_append, hev])
  · obtain ⟨rows, hcom, hheld⟩ := he.committed
    rw [hcom, List.mem_append] at hr
    rcases hr with hr | hr
    · exact Int.lt_of_lt_of_le (h.committed_lt r hr) he.seq_le
    · exact Int.lt_of_lt_of_le (h.held_lt c r.id (hheld r hr)) he.seq_le
  · obtain hi | ⟨rfl, hseq⟩ := he.held hother hi
    · exact Int.lt_of_lt_of_le (h.held_lt d i hi) he.seq_le
    · rw [hseq]
      exact Int.lt_succ _

end

/-! ## The steps -/

section
variable {κ : Type} [DecidableEq κ]

namespace World

variable (w : World κ) (c : κ) (tx : Option OpenTx)

@[simp] theorem set_client_self : (w.set c tx).client c = tx := Function.update_self ..

variable {c}

theorem set_client_of_ne {d : κ} (h : d ≠ c) : (w.set c tx).client d = w.client d :=
  Function.update_of_ne h ..

end World

omit [DecidableEq κ] in
/-- The ids of an open transaction. -/
theorem World.ids_of_client {w : World κ} {c : κ} {tx : Option OpenTx} (h : w.client c = tx) :
    w.ids c = tx.elim [] OpenTx.ids := by
  rw [ids, h]

omit [DecidableEq κ] in
/-- The event ids of an open transaction. -/
theorem World.eventIds_of_client {w : World κ} {c : κ} {tx : Option OpenTx}
    (h : w.client c = tx) : w.eventIds c = tx.elim [] OpenTx.eventIds := by
  rw [eventIds, h]

omit [DecidableEq κ] in
/-- The number drawn for the row about to be inserted is the id of no row, committed or held. -/
theorem Keys.drawn_fresh {w : World κ} {c : κ} (h : Keys w)
    {pending aborted call id t todo k returned}
    (hc : w.client c = some ⟨pending, aborted, .inserting call (some (id, t)) todo k, returned⟩) :
    id ∉ (w.committed ++ pending).map (·.id) ∧
      ∀ d tx, d ≠ c → w.client d = some tx → id ∉ tx.pending.map (·.id) := by
  have hids : w.ids c = pending.map (·.id) ++ [id] := World.ids_of_client hc
  have hmem : id ∈ w.ids c := hids ▸ List.mem_append_right _ (List.mem_singleton.2 rfl)
  refine ⟨?_, fun d tx hd htx hid => ?_⟩
  · rw [List.map_append, List.mem_append, not_or]
    have hnodup := h.ids.nodup_held c
    rw [hids] at hnodup
    exact ⟨h.ids.shared_held c _ hmem,
      fun hid => List.disjoint_of_nodup_append hnodup hid (List.mem_singleton.2 rfl)⟩
  · refine h.ids.held_held c d hd.symm _ hmem ?_
    rw [World.ids_of_client htx]
    exact List.mem_append_left _ hid

variable [Serialize Map] [Serialize (List Value)] {w w' : World κ} {c : κ} {a : Action}

/-- A step of a client leaves the others' transactions alone. -/
theorem Step.client_of_ne (h : Step w (c, a) w') {d : κ} (hd : d ≠ c) :
    w'.client d = w.client d := by
  cases h <;> exact World.set_client_of_ne w _ hd

/-- **What a step can do.** -/
theorem Step.effect (h : Step w (c, a) w') : Effect w c w' := by
  have hids : ∀ {w' : World κ} {tx tx' : Option OpenTx}, w.client c = tx → w'.client c = tx' →
      (tx'.elim [] OpenTx.ids).Sublist (tx.elim [] OpenTx.ids) →
        (w'.ids c).Sublist (w.ids c) := fun h h' hsub => by
    rwa [World.ids_of_client h, World.ids_of_client h']
  have hevs : ∀ {w' : World κ} {tx tx' : Option OpenTx}, w.client c = tx → w'.client c = tx' →
      (tx'.elim [] OpenTx.eventIds).Sublist (tx.elim [] OpenTx.eventIds) →
        (w'.eventIds c).Sublist (w.eventIds c) := fun h h' hsub => by
    rwa [World.eventIds_of_client h, World.eventIds_of_client h']
  cases h with
  | begin h | call _ h | newV4 _ h | send h _ | refused h | duplicate _ h _ _ | fail _ h _
  | complete h | ret h | rollback h | crash h =>
    refine .quiet rfl rfl (hids h (World.set_client_self ..) ?_)
      (hevs h (World.set_client_self ..) ?_)
    all_goals simp [OpenTx.ids, OpenTx.eventIds, Activity.drawn]
  | nextval h hseq =>
    refine .draw rfl rfl ((World.ids_of_client (World.set_client_self w c _)).trans ?_)
      ((World.eventIds_of_client (World.set_client_self w c _)).trans ?_)
    · rw [World.ids_of_client h]
      simp [OpenTx.ids, Activity.drawn]
    · rw [World.eventIds_of_client h]
      rfl
  | @insert _ pending _ _ id t _ _ _ row h hrow hfree hwait =>
    obtain ⟨hid, -⟩ := OutboxEvent.ofTuple_eq_ok_iff.1 hrow
    refine .insert row rfl rfl ?_ ?_ ?_ ?_
    · rw [World.ids_of_client h, World.ids_of_client (World.set_client_self w c _)]
      simp [OpenTx.ids, Activity.drawn, hid]
    · rw [World.eventIds_of_client h, World.eventIds_of_client (World.set_client_self w c _)]
      simp [OpenTx.eventIds]
    · intro hmem
      obtain ⟨r, hr, hev⟩ := List.mem_map.1 hmem
      exact hfree ⟨r, List.mem_append_left _ hr, .inr hev⟩
    · intro d hmem
      by_cases hd : d = c
      · subst hd
        rw [World.eventIds_of_client h] at hmem
        obtain ⟨r, hr, hev⟩ := List.mem_map.1 hmem
        exact hfree ⟨r, List.mem_append_right _ hr, .inr hev⟩
      · cases htx : w.client d with
        | none =>
          rw [World.eventIds_of_client htx] at hmem
          exact nomatch hmem
        | some tx =>
          rw [World.eventIds_of_client htx] at hmem
          obtain ⟨r, hr, hev⟩ := List.mem_map.1 hmem
          exact hwait d tx hd htx ⟨r, hr, .inr hev⟩
  | @commit _ pending _ _ h =>
    refine .commit pending rfl rfl ?_ ?_ (World.ids_of_client (World.set_client_self w c _))
      (World.eventIds_of_client (World.set_client_self w c _))
    · rw [World.ids_of_client h]
      simp [OpenTx.ids, Activity.drawn]
    · rw [World.eventIds_of_client h]
      rfl

/-- Rows are only added to the committed ones, and the ids of those added were held. -/
theorem Step.committed (h : Step w (c, a) w') :
    ∃ rows, w'.committed = w.committed ++ rows ∧ ∀ row ∈ rows, row.id ∈ w.ids c :=
  h.effect.committed

/-- A step commits the rows of a transaction that is not in a call, or commits none. -/
theorem Step.commits (hs : Step w (c, a) w') :
    (w'.committed = w.committed ∧ ∀ returned, a ≠ .commit returned) ∨
    ∃ pending aborted returned, w.client c = some ⟨pending, aborted, .idle, returned⟩ ∧
      a = .commit returned ∧ w'.committed = w.committed ++ pending := by
  cases hs with
  | commit h => exact .inr ⟨_, _, _, h, rfl, rfl⟩
  | _ => exact .inl ⟨rfl, nofun⟩

/-- Every step keeps the keys in order. -/
theorem Keys.step (h : Keys w) (hs : Step w (c, a) w') : Keys w' :=
  h.effect hs.effect fun _ hd => hs.client_of_ne hd

/-- **The unique indexes.** In every run, whatever the clients do, the keys are in order. -/
theorem Keys.run {w₀ : World κ} {tr : List (κ × Action)} (h₀ : w₀.Initial)
    (hr : Run Step w₀ tr w) : Keys w :=
  hr.invariant (I := fun _ w => Keys w) h₀.keys fun _ _ _ _ h hs => h.step hs

end

end OutboxPublisher
