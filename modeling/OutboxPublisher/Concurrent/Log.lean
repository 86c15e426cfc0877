import OutboxPublisher.Concurrent.Progress
import OutboxPublisher.Publisher.Atomicity

/-!
# The log of commits

A transaction adds to the outbox what its calls returned: the events of the calls that returned
`Ok`, in call order, unless a call met an error of the server, and then nothing. `publishedLog`
reads that off the commits of a trace, and `committed_eq_log` says that the table is the initial one
followed by the rows of the log, in the order of the commits, whatever the interleaving.

`Balanced` is what a transaction holds between two calls, `Accounted` the invariant of an open
transaction, of which `Accounted.step` is the step lemma. It speaks of one client alone.
-/

namespace OutboxPublisher

open Interaction (Program Run)

/-- A call and what it returned. -/
abbrev CallOutcome := Call × Except PublishError (List EventId)

instance : DecidablePred PublishError.OfServer
  | .duplicateEventId | .database _ => .isTrue trivial
  | .missingCallbacks | .serialization _ => .isFalse id

instance : DecidablePred ErrorOfServer
  | .ok _ => .isFalse id
  | .error e => inferInstanceAs (Decidable e.OfServer)

/-- What the calls of a transaction published, in call order. -/
def publishedIn (returned : List CallOutcome) : List Published :=
  returned.flatMap fun x => x.1.publishedBy x.2

/-- What a transaction adds to the outbox when it commits: what its calls published, or nothing when
one of them met an error of the server. -/
def added (returned : List CallOutcome) : List Published :=
  if ∃ x ∈ returned, ErrorOfServer x.2 then [] else publishedIn returned

/-- What a step adds to the outbox. -/
def Action.adds : Action → List Published
  | .commit returned => added returned
  | _ => []

/-- The log of a trace: what its commits add to the outbox, in the order of the commits. -/
def publishedLog {κ : Type} (tr : List (κ × Action)) : List Published :=
  tr.flatMap (·.2.adds)

/-- Only a commit adds to the outbox. -/
theorem Action.adds_of_ne {a : Action} (h : ∀ returned, a ≠ .commit returned) : a.adds = [] := by
  cases a with
  | commit returned => exact absurd rfl (h returned)
  | _ => rfl

/-- One more step. -/
theorem publishedLog_snoc {κ : Type} (tr : List (κ × Action)) (c : κ) (a : Action) :
    publishedLog (tr ++ [(c, a)]) = publishedLog tr ++ a.adds := by
  simp [publishedLog]

/-- One more call. -/
theorem publishedIn_snoc (returned : List CallOutcome) (call : Call)
    (result : Except PublishError (List EventId)) :
    publishedIn (returned ++ [(call, result)]) =
      publishedIn returned ++ call.publishedBy result := by
  simp [publishedIn]

section
variable [Serialize Map] [Serialize (List Value)]

/-- What a call's program leads to: it sends the tuples of the events the call publishes under the
identifiers it returns. -/
abbrev Call.Publishes (call : Call) (p : CallProgram) : Prop :=
  Publishing (fun ts ids => call.Fits ids ∧
    List.Forall₂ EncodesPublished ts (call.published ids)) p

/-- What a transaction holds between two calls: the rows of what they published, or, aborted,
nothing. -/
inductive Balanced (returned : List CallOutcome) : List OutboxEvent → Bool → Prop
  | active {rows : List OutboxEvent} (hno : ∀ x ∈ returned, ¬ ErrorOfServer x.2)
      (hrows : List.Forall₂ RecordsPublished rows (publishedIn returned)) :
      Balanced returned rows false
  | aborted (hof : ∃ x ∈ returned, ErrorOfServer x.2) : Balanced returned [] true

/-- An open transaction whose rows are accounted for: by the calls that have returned, by those and
the rows the INSERT under way has inserted, or by those and the answer of that INSERT. -/
inductive Accounted : OpenTx → Prop
  | idle {pending aborted returned} (h : Balanced returned pending aborted) :
      Accounted ⟨pending, aborted, .idle, returned⟩
  | running {pending aborted call p returned} (h : Balanced returned pending aborted)
      (hp : call.Publishes p) : Accounted ⟨pending, aborted, .running call p, returned⟩
  | inserting {rows done call current todo ids returned} (h : Balanced returned rows false)
      (hfits : call.Fits ids) (hall : List.Forall₂ EncodesPublished
        (done.map (·.columns) ++ ((current.map Prod.snd).toList ++ todo)) (call.published ids)) :
      Accounted ⟨rows ++ done, false,
        .inserting call current todo fun r => .pure (mapResult ids r), returned⟩
  | answered {pending aborted call result returned}
      (h : Balanced (returned ++ [(call, result)]) pending aborted) :
      Accounted ⟨pending, aborted, .running call (.pure result), returned⟩

variable {returned : List CallOutcome} {pending : List OutboxEvent} {aborted : Bool} {call : Call}

namespace Balanced

/-- What is held is what a commit adds. -/
theorem records (h : Balanced returned pending aborted) :
    List.Forall₂ RecordsPublished pending (added returned) := by
  cases h with
  | active hno hrows =>
    rw [added, if_neg fun ⟨x, hx, hof⟩ => hno x hx hof]
    exact hrows
  | aborted hof =>
    rw [added, if_pos hof]
    exact .nil

/-- A call that met no error of the server, and the rows of what it published. -/
theorem snoc {result : Except PublishError (List EventId)} {rows done : List OutboxEvent}
    (h : Balanced returned rows false) (hno : ¬ ErrorOfServer result)
    (hdone : List.Forall₂ RecordsPublished done (call.publishedBy result)) :
    Balanced (returned ++ [(call, result)]) (rows ++ done) false := by
  cases h with
  | active hall hrows =>
    refine .active (fun x hx => ?_) ?_
    · rcases List.mem_append.1 hx with hx | hx
      · exact hall x hx
      · obtain rfl := List.mem_singleton.1 hx
        exact hno
    · rw [publishedIn_snoc]
      exact List.rel_append hrows hdone

/-- A call that published nothing and met no error of the server changes nothing. -/
theorem snoc_nothing {result : Except PublishError (List EventId)}
    (h : Balanced returned pending aborted) (hno : ¬ ErrorOfServer result)
    (hnone : call.publishedBy result = []) :
    Balanced (returned ++ [(call, result)]) pending aborted := by
  cases h with
  | active hall hrows =>
    rw [← List.append_nil pending]
    exact (Balanced.active hall hrows).snoc hno (hnone ▸ .nil)
  | aborted hof => exact .aborted (hof.imp fun _ hx => hx.imp_left (List.mem_append_left _))

/-- A call that ends without a statement. -/
theorem of_pure {result : Except PublishError (List EventId)}
    (h : Balanced returned pending aborted) (hp : call.Publishes (.pure result)) :
    Balanced (returned ++ [(call, result)]) pending aborted := by
  cases hp with
  | refuse he => exact h.snoc_nothing he rfl
  | nothing hq => exact h.snoc_nothing id (List.forall₂_nil_left_iff.1 hq.2)

end Balanced

section
variable {κ : Type} [DecidableEq κ] {w₀ w w' : World κ} {c : κ} {a : Action} {tx : OpenTx}
  {tr : List (κ × Action)}

/-- A statement that fails leaves its call with an error of the server, and the transaction with
nothing. -/
theorem Accounted.of_error (ids : List EventId) (e : SqlxError) (returned : List CallOutcome)
    (call : Call) :
    Accounted ⟨[], true, .running call (.pure (mapResult ids (.error e))), returned⟩ := by
  obtain ⟨err, herr, hof⟩ := mapResult_error ids e
  rw [herr]
  exact .answered (.aborted ⟨_, List.mem_append_right _ List.mem_cons_self, hof⟩)

/-- **A step of a client** leaves its transaction accounted for. -/
theorem Accounted.step (hacc : ∀ tx, w.client c = some tx → Accounted tx) (hs : Step w (c, a) w')
    (htx : w'.client c = some tx) : Accounted tx := by
  have heq : ∀ {o : Option OpenTx}, w'.client c = o → o = some tx := fun h => h.symm.trans htx
  cases hs with
  | begin h =>
    cases heq (World.set_client_self ..)
    exact .idle (.active (by simp) .nil)
  | call call h =>
    cases heq (World.set_client_self ..)
    cases hacc _ h with
    | idle hb => exact .running hb call.publishing
  | newV4 u h =>
    cases heq (World.set_client_self ..)
    cases hacc _ h with
    | running hb hp =>
      cases hp with
      | draw hk => exact .running hb (hk u)
  | send h hts =>
    cases heq (World.set_client_self ..)
    cases hacc _ h with
    | running hb hp =>
      cases hp with
      | send hts' hq =>
        obtain rfl := Option.some.inj (hts'.symm.trans hts)
        have hacc' : Accounted ⟨_ ++ [], false, .inserting _ none _ _, _⟩ :=
          .inserting hb hq.1 hq.2
        rwa [List.append_nil] at hacc'
  | refused h =>
    cases heq (World.set_client_self ..)
    cases hacc _ h with
    | running hb hp =>
      cases hp with
      | send =>
        cases hb with
        | aborted => exact .of_error ..
  | nextval h hseq =>
    cases heq (World.set_client_self ..)
    cases hacc _ h with
    | inserting hb hfits hall => exact .inserting hb hfits hall
  | insert row h hrow hfree hwait =>
    cases heq (World.set_client_self ..)
    obtain ⟨-, hcols⟩ := OutboxEvent.ofTuple_eq_ok_iff.1 hrow
    cases hacc _ h with
    | inserting hb hfits hall =>
      rw [List.append_assoc]
      refine .inserting hb hfits ?_
      rw [List.map_append, List.append_assoc, List.map_singleton, hcols]
      exact hall
  | duplicate row h hrow hcol =>
    cases heq (World.set_client_self ..)
    cases hacc _ h with
    | inserting => exact .of_error ..
  | fail e h he =>
    cases heq (World.set_client_self ..)
    cases hacc _ h with
    | inserting => exact .of_error ..
  | complete h =>
    cases heq (World.set_client_self ..)
    cases hacc _ h with
    | inserting hb hfits hall =>
      refine .answered (hb.snoc id ?_)
      rw [Option.map_none, Option.toList_none, List.append_nil, List.append_nil] at hall
      exact forall₂_records hall
  | ret h =>
    cases heq (World.set_client_self ..)
    cases hacc _ h with
    | running hb hp => exact .idle (hb.of_pure hp)
    | answered hb => exact .idle hb
  | commit h | rollback h | crash h => cases heq (World.set_client_self ..)

/-- What the committed rows and the open transactions are after a run: the rows of the log have been
added, in its order, and every open transaction is accounted for. -/
structure Logged (w₀ : World κ) (tr : List (κ × Action)) (w : World κ) : Prop where
  committed : ∃ rows, w.committed = w₀.committed ++ rows ∧
    List.Forall₂ RecordsPublished rows (publishedLog tr)
  accounted : ∀ c tx, w.client c = some tx → Accounted tx

/-- Every step keeps the log. -/
theorem Logged.step (h : Logged w₀ tr w) (hs : Step w (c, a) w') :
    Logged w₀ (tr ++ [(c, a)]) w' := by
  constructor
  · obtain ⟨rows, hrows, hrec⟩ := h.committed
    rw [publishedLog_snoc]
    obtain ⟨hcom, hne⟩ | ⟨pending, aborted, returned, hc, rfl, hcom⟩ := hs.commits
    · refine ⟨rows, hcom.trans hrows, ?_⟩
      rwa [Action.adds_of_ne hne, List.append_nil]
    · cases h.accounted _ _ hc with
      | idle hb =>
        refine ⟨rows ++ pending, ?_, List.rel_append hrec hb.records⟩
        rw [hcom, hrows, List.append_assoc]
  · intro d tx htx
    by_cases hd : d = c
    · subst hd
      exact Accounted.step (h.accounted d) hs htx
    · rw [hs.client_of_ne hd] at htx
      exact h.accounted d tx htx

/-- The log is kept by every run. -/
theorem Logged.run (hclient : ∀ c, w₀.client c = none) (hr : Run Step w₀ tr w) :
    Logged w₀ tr w := by
  refine hr.invariant (I := fun tr w => Logged w₀ tr w)
    ⟨⟨[], (List.append_nil _).symm, .nil⟩, fun c tx htx => ?_⟩ fun _ _ _ _ h hs => h.step hs
  rw [hclient] at htx
  exact nomatch htx

omit [Serialize Map] [Serialize (List Value)] in
/-- What is in one of two related lists is related to something in the other. -/
theorem exists_of_mem_left {α β : Type*} {R : α → β → Prop} {xs : List α} {ys : List β} {x : α}
    (h : List.Forall₂ R xs ys) (hx : x ∈ xs) : ∃ y ∈ ys, R x y := by
  induction h with
  | nil => cases hx
  | cons hxy _ ih =>
    rcases List.mem_cons.1 hx with rfl | hx
    · exact ⟨_, List.mem_cons_self, hxy⟩
    · exact (ih hx).imp fun _ hy => hy.imp_left (List.mem_cons_of_mem _)

/-- The event ids of rows that record events are those of the events. -/
theorem eventIds_of_records {rows : List OutboxEvent} {xs : List Published}
    (h : List.Forall₂ RecordsPublished rows xs) :
    rows.map (·.eventId) = xs.map (·.eventId.uuid) := by
  induction h with
  | nil => rfl
  | cons hx _ ih => exact congrArg₂ List.cons hx.eventId_eq ih

/-- **The outbox is the log of the commits.** In every run of any number of clients, whatever the
order of their steps and wherever they crash: the committed rows are the initial ones followed by
one row for each event of the log, in its order, that records it in all ten columns; and no two
events of the log have one identifier, nor has any the identifier of an initial row. Reference:
`Publisher` (`outbox-publisher/src/publisher.rs:24`). -/
theorem committed_eq_log (h₀ : w₀.Initial) (hr : Run Step w₀ tr w) :
    ∃ rows, w.committed = w₀.committed ++ rows ∧
      List.Forall₂ RecordsPublished rows (publishedLog tr) ∧
      (w₀.committed.map (·.eventId) ++ (publishedLog tr).map (·.eventId.uuid)).Nodup := by
  obtain ⟨rows, hrows, hrec⟩ := (Logged.run h₀.client_eq hr).committed
  refine ⟨rows, hrows, hrec, ?_⟩
  have hnodup := (Keys.run h₀ hr).eventIds.nodup_shared
  rwa [hrows, List.map_append, eventIds_of_records hrec] at hnodup

end

end

section
open SerdeJson

/-- Two clients publish at the same time, and the one that began last commits first: the rows of the
table record the two events in the order of the commits. -/
theorem committed_eq_log_two : ∃ (w : World Bool) (tr : List (Bool × Action)),
    Run Step (.empty Bool) tr w ∧ w.committed = [startedRow 2 2, startedRow 1 1] ∧
      List.Forall₂ RecordsPublished w.committed
        [⟨⟨2⟩, ServiceStarted.mk, testCtx⟩, ⟨⟨1⟩, ServiceStarted.mk, testCtx⟩] := by
  obtain ⟨rows, hrows, hrec, -⟩ := committed_eq_log World.empty_initial overlapping_run
  obtain rfl : [startedRow 2 2, startedRow 1 1] = rows := hrows
  exact ⟨_, _, overlapping_run, rfl, hrec⟩

end

end OutboxPublisher
