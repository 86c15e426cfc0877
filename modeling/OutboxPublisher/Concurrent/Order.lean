import OutboxPublisher.Concurrent.Log
import Mathlib.Data.Int.Interval
import Mathlib.Data.List.Sort

/-!
# The order of ids

A number of the sequence is drawn once and never again, also when its transaction rolls back. Within
a transaction the ids follow the order of the calls and of the events of a batch; a transaction that
begins when another has ended has the greater ids (`id_order`). What is left open is the order of
transactions that overlap, which `missed_of_overlap` is about.

`Numbered` says where the ids of a world come from, relative to one it was reached from, and `Drawn`
keeps the numbers drawn in a run, also those of transactions that are over.
-/

namespace OutboxPublisher

open Interaction (Run)

/-- The action is the end of a transaction. -/
def Action.Ends : Action → Prop
  | .commit _ | .rollback | .crash => True
  | _ => False

section
variable {κ : Type}

/-- Relative to a world it was reached from: an id that is held was held then by the same
transaction, or has been drawn since, and so was that of a row committed since. -/
structure Numbered (w : World κ) (tr : List (κ × Action)) (w' : World κ) : Prop where
  seq_le : w.seq.next ≤ w'.seq.next
  seq_le_max : w'.seq.next ≤ max w.seq.next (2 ^ 63)
  held : ∀ c, ∀ i ∈ w'.ids c,
    (i ∈ w.ids c ∧ ∀ a, (c, a) ∈ tr → ¬ a.Ends) ∨ w.seq.next ≤ i
  committed : ∃ rows, w'.committed = w.committed ++ rows ∧
    ∀ row ∈ rows, (∃ c, row.id ∈ w.ids c) ∨ w.seq.next ≤ row.id

/-- No step has been taken. -/
theorem Numbered.refl (w : World κ) : Numbered w [] w where
  seq_le := Int.le_refl _
  seq_le_max := le_max_left _ _
  held _ _ h := .inl ⟨h, fun _ hmem => absurd hmem List.not_mem_nil⟩
  committed := ⟨[], (List.append_nil _).symm, fun _ h => absurd h List.not_mem_nil⟩

/-- Distinct numbers of an interval are no more than there are in it. -/
theorem length_le_of_nodup {l : List ℤ} {a b : ℤ} (hnodup : l.Nodup)
    (h : ∀ i ∈ l, a ≤ i ∧ i < b) : l.length ≤ (b - a).toNat := by
  rw [← List.toFinset_card_of_nodup hnodup, ← Int.card_Ico]
  refine Finset.card_le_card fun i hi => ?_
  exact Finset.mem_Ico.2 (h i (List.mem_toFinset.1 hi))

end

section
variable {κ : Type} [DecidableEq κ] [Serialize Map] [Serialize (List Value)]
  {w₀ w w' : World κ} {c : κ} {a : Action} {tr : List (κ × Action)}

/-- A step draws no number, or is the draw of the next one, which the sequence has left. -/
theorem Step.seq (h : Step w (c, a) w') :
    w'.seq = w.seq ∨ a = .nextval ∧ w.seq.next < 2 ^ 63 ∧ w'.seq = ⟨w.seq.next + 1⟩ := by
  cases h with
  | nextval _ hseq => exact .inr ⟨rfl, hseq, rfl⟩
  | _ => exact .inl rfl

/-- A draw gives the client's transaction the next number. -/
theorem Step.ids_of_nextval (h : Step w (c, .nextval) w') :
    w'.ids c = w.ids c ++ [w.seq.next] ∧ w'.seq.next = w.seq.next + 1 := by
  cases h with
  | nextval h hseq =>
    refine ⟨(World.ids_of_client (World.set_client_self w c _)).trans ?_, rfl⟩
    rw [World.ids_of_client h]
    simp [OpenTx.ids, Activity.drawn]

/-- A transaction that has ended holds no ids. -/
theorem Step.ids_of_ends (h : Step w (c, a) w') (ha : a.Ends) : w'.ids c = [] := by
  cases h with
  | commit | rollback | crash => exact World.ids_of_client (World.set_client_self w c _)
  | _ => exact ha.elim

/-- Every step keeps track of the ids. -/
theorem Numbered.step (h : Numbered w₀ tr w) (hs : Step w (c, a) w') :
    Numbered w₀ (tr ++ [(c, a)]) w' := by
  have hle := hs.effect.seq_le
  refine ⟨Int.le_trans h.seq_le hle, ?_, fun d i hi => ?_, ?_⟩
  · rcases hs.seq with hseq | ⟨-, hlt, hseq⟩
    · exact hseq ▸ h.seq_le_max
    · rw [hseq]
      exact le_max_of_le_right hlt
  · rcases hs.effect.held (fun _ hd => hs.client_of_ne hd) hi with hold | ⟨rfl, -⟩
    · refine (h.held d i hold).imp_left fun ⟨hfirst, hon⟩ => ⟨hfirst, fun b hb hends => ?_⟩
      rcases List.mem_append.1 hb with hb | hb
      · exact hon b hb hends
      · cases List.mem_singleton.1 hb
        rw [hs.ids_of_ends hends] at hi
        exact absurd hi List.not_mem_nil
    · exact .inr h.seq_le
  · obtain ⟨rows, hrows, hold⟩ := h.committed
    obtain ⟨new, hnew, hids⟩ := hs.committed
    refine ⟨rows ++ new, by rw [hnew, hrows, List.append_assoc], fun row hrow => ?_⟩
    rcases List.mem_append.1 hrow with hrow | hrow
    · exact hold row hrow
    · exact (h.held c _ (hids row hrow)).imp_left fun ⟨hfirst, _⟩ => ⟨c, hfirst⟩

/-- The ids are kept track of in every run. -/
theorem Numbered.run (hr : Run Step w₀ tr w) : Numbered w₀ tr w :=
  hr.invariant (I := Numbered w₀) (.refl w₀) fun _ _ _ _ h hs => h.step hs

/-! ## The numbers drawn -/

/-- The client has drawn the number in the run: in its last step, or before. -/
inductive Drawn (w₀ : World κ) : List (κ × Action) → World κ → κ → ℤ → Prop
  | draw {tr w c i w'} (hr : Run Step w₀ tr w) (hs : Step w (c, .nextval) w')
      (hi : w'.ids c = w.ids c ++ [i]) : Drawn w₀ (tr ++ [(c, .nextval)]) w' c i
  | snoc {tr w c i l w'} (h : Drawn w₀ tr w c i) (hs : Step w l w') :
      Drawn w₀ (tr ++ [l]) w' c i

/-- The sequence has passed every number drawn. -/
theorem Drawn.lt {i : ℤ} (h : Drawn w₀ tr w c i) : i < w.seq.next := by
  induction h with
  | draw hr hs hi =>
    obtain ⟨hids, hseq⟩ := hs.ids_of_nextval
    obtain rfl := List.singleton_inj.1 (List.append_cancel_left (hi.symm.trans hids))
    rw [hseq]
    exact Int.lt_succ _
  | snoc _ hs ih => exact Int.lt_of_lt_of_le ih hs.effect.seq_le

/-- An id that a transaction holds was drawn by its client. -/
theorem drawn_of_mem (hclient : ∀ c, w₀.client c = none) (hr : Run Step w₀ tr w) {i : ℤ}
    (hi : i ∈ w.ids c) : Drawn w₀ tr w c i := by
  induction hr generalizing c i with
  | nil =>
    rw [World.ids, hclient] at hi
    exact absurd hi List.not_mem_nil
  | @snoc tr w w' l hr hs ih =>
    obtain ⟨d, a⟩ := l
    by_cases hd : c = d
    · subst hd
      have hold : i ∈ w.ids c → Drawn w₀ (tr ++ [(c, a)]) w' c i := fun hi => (ih hi).snoc hs
      cases hs.effect with
      | quiet _ _ hids => exact hold (hids.subset hi)
      | draw _ hseq hids =>
        rw [hids, List.mem_append, List.mem_singleton] at hi
        rcases hi with hi | rfl
        · exact hold hi
        · rcases hs.seq with hsame | ⟨rfl, -⟩
          · have hnext := congrArg Sequence.next (hsame.symm.trans hseq)
            exact absurd hnext (Int.ne_of_lt (Int.lt_succ _))
          · exact .draw hr hs hids
      | insert _ _ _ hids => exact hold (hids ▸ hi)
      | commit _ _ _ _ _ hids' =>
        rw [hids'] at hi
        exact absurd hi List.not_mem_nil
    · rw [World.ids, hs.client_of_ne hd] at hi
      exact (ih hi).snoc hs

/-- The number is above every committed id and above every number drawn in the run. -/
structure Exceeds (w₀ : World κ) (tr : List (κ × Action)) (w : World κ) (i : ℤ) : Prop where
  committed : ∀ r ∈ w.committed, r.id < i
  drawn : ∀ c j, Drawn w₀ tr w c j → j < i

/-- A number that the sequence has not passed exceeds those of the run. -/
theorem Keys.exceeds (h : Keys w) {i : ℤ} (hi : w.seq.next ≤ i) : Exceeds w₀ tr w i where
  committed r hr := Int.lt_of_lt_of_le (h.committed_lt r hr) hi
  drawn _ _ hj := Int.lt_of_lt_of_le hj.lt hi

/-- **The ids of a transaction** are drawn in increasing order. -/
theorem ids_sorted (h₀ : w₀.Initial) (hr : Run Step w₀ tr w) (c : κ) :
    (w.ids c).Pairwise (· < ·) := by
  suffices h : Keys w ∧ ∀ c, (w.ids c).Pairwise (· < ·) from h.2 c
  refine hr.invariant (I := fun _ w => Keys w ∧ ∀ c, (w.ids c).Pairwise (· < ·))
    ⟨h₀.keys, fun c => ?_⟩ ?_
  · rw [World.ids, h₀.client_eq]
    exact .nil
  · rintro tr w ⟨c, a⟩ w' ⟨hk, hsorted⟩ hs
    refine ⟨hk.step hs, fun d => ?_⟩
    by_cases hd : d = c
    · subst hd
      cases hs.effect with
      | quiet _ _ hids => exact (hsorted d).sublist hids
      | draw _ _ hids =>
        rw [hids]
        refine List.pairwise_append.2 ⟨hsorted d, List.pairwise_singleton .., fun i hi j hj => ?_⟩
        obtain rfl := List.mem_singleton.1 hj
        exact hk.held_lt d i hi
      | insert _ _ _ hids =>
        rw [hids]
        exact hsorted d
      | commit _ _ _ _ _ hids' =>
        rw [hids']
        exact .nil
    · rw [World.ids, hs.client_of_ne hd]
      exact hsorted d

/-- The rows of a commit record what the calls of its transaction published, in call order, and
have increasing ids, which the transaction holds. -/
theorem Step.rows_sorted (h₀ : w₀.Initial) (hr : Run Step w₀ tr w) (hs : Step w (c, a) w') :
    ∃ rows, w'.committed = w.committed ++ rows ∧ List.Forall₂ RecordsPublished rows a.adds ∧
      (rows.map (·.id)).Pairwise (· < ·) ∧ ∀ row ∈ rows, row.id ∈ w.ids c := by
  obtain ⟨hcom, hne⟩ | ⟨pending, aborted, returned, hc, rfl, hcom⟩ := hs.commits
  · rw [Action.adds_of_ne hne]
    exact ⟨[], hcom.trans (List.append_nil _).symm, .nil, .nil,
      fun _ hrow => absurd hrow List.not_mem_nil⟩
  · have hsorted := ids_sorted h₀ hr c
    have hids : w.ids c = pending.map (·.id) ++ [] := World.ids_of_client hc
    rw [List.append_nil] at hids
    rw [hids] at hsorted ⊢
    cases (Logged.run h₀.client_eq hr).accounted c _ hc with
    | idle hb =>
      exact ⟨pending, hcom, hb.records, hsorted, fun row hrow => List.mem_map_of_mem hrow⟩

/-- **The order of ids.** In every run, whatever the clients do: every id an open transaction holds
is a number its client has drawn. The rows that a commit adds record what the calls of the
transaction published, in the order of the calls and of the events of a batch, and their ids are
strictly increasing. A number that is drawn is above every committed id and every number drawn
before, those of transactions rolled back included. And of the rows committed later on in the run,
each has an id that was already held by the transaction that commits it, or one above every id then
committed and every number then drawn; so a transaction that begins when another has ended has the
greater ids. Reference: `outbox_events.id` (`0001_initial_schema.sql:9`). -/
theorem id_order (h₀ : w₀.Initial) (hr : Run Step w₀ tr w) :
    (∀ c, ∀ i ∈ w.ids c, Drawn w₀ tr w c i) ∧
    (∀ c a w', Step w (c, a) w' → ∃ rows, w'.committed = w.committed ++ rows ∧
      List.Forall₂ RecordsPublished rows a.adds ∧ (rows.map (·.id)).Pairwise (· < ·)) ∧
    (∀ c w', Step w (c, .nextval) w' → ∃ i, w'.ids c = w.ids c ++ [i] ∧ Exceeds w₀ tr w i) ∧
    ∀ tr' w', Run Step w tr' w' → ∀ c a w'', Step w' (c, a) w'' →
      ∃ rows, w''.committed = w'.committed ++ rows ∧ ∀ row ∈ rows,
        (row.id ∈ w.ids c ∧ ∀ b, (c, b) ∈ tr' → ¬ b.Ends) ∨ Exceeds w₀ tr w row.id := by
  have hk := Keys.run h₀ hr
  refine ⟨fun c i => drawn_of_mem h₀.client_eq hr, fun c a w' hs => ?_, fun c w' hs => ?_,
    fun tr' w' hr' c a w'' hs => ?_⟩
  · obtain ⟨rows, hcom, hrec, hsorted, -⟩ := hs.rows_sorted h₀ hr
    exact ⟨rows, hcom, hrec, hsorted⟩
  · exact ⟨_, hs.ids_of_nextval.1, hk.exceeds (Int.le_refl _)⟩
  · obtain ⟨rows, hcom, -, -, hids⟩ := hs.rows_sorted h₀ (hr.append hr')
    refine ⟨rows, hcom, fun row hrow => ?_⟩
    exact ((Numbered.run hr').held c _ (hids row hrow)).imp_right hk.exceeds

end

section
open SerdeJson

/-- A client publishes and rolls back; the row that another then commits has an id above the number
drawn for the first. -/
theorem id_order_two : ∃ (w w' w'' : World Bool) (tr tr' : List (Bool × Action)),
    Run Step (.empty Bool) tr w ∧ Drawn (.empty Bool) tr w false 1 ∧ Run Step w tr' w' ∧
      Step w' (true, startedCommit 2) w'' ∧ w''.committed = [startedRow 2 2] ∧
      1 < (startedRow 2 2).id := by
  have hfirst := started_run (w := .empty Bool) (c := false) (u := 1) rfl (by decide) (by decide)
    (fun _ _ h => nomatch h)
  have hrollback := Step.rollback (World.setAt_client_self (World.empty Bool) false
    ⟨[startedRow 1 1], false, .idle, [(started 1, .ok [⟨1⟩])]⟩ ⟨2⟩)
  have hrun := hfirst.snoc hrollback
  have hsecond := started_run (w := ((World.empty Bool).setAt false
      ⟨[startedRow 1 1], false, .idle, [(started 1, .ok [⟨1⟩])]⟩ ⟨2⟩).set false none)
    (c := true) (u := 2) rfl (by decide) (by decide) (by
      rintro (_ | _) tx htx
      · cases htx
      · cases htx)
  have hcommit := Step.commit (World.setAt_client_self (((World.empty Bool).setAt false
      ⟨[startedRow 1 1], false, .idle, [(started 1, .ok [⟨1⟩])]⟩ ⟨2⟩).set false none) true
    ⟨[startedRow 2 2], false, .idle, [(started 2, .ok [⟨2⟩])]⟩ ⟨3⟩)
  have hdrawn := ((id_order World.empty_initial hfirst).1 false 1 List.mem_cons_self).snoc hrollback
  refine ⟨_, _, _, _, _, hrun, hdrawn, hsecond, hcommit, rfl, ?_⟩
  obtain ⟨-, -, -, hlater⟩ := id_order World.empty_initial hrun
  obtain ⟨rows, hrows, hids⟩ := hlater _ _ hsecond _ _ _ hcommit
  have hmem : startedRow 2 2 ∈ rows := by
    rw [← List.append_cancel_left hrows]
    exact List.mem_cons_self
  rcases hids _ hmem with ⟨hheld, -⟩ | habove
  · cases hheld
  · exact habove.drawn _ _ hdrawn

end

end OutboxPublisher
