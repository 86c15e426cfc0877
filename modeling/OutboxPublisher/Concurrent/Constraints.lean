import OutboxPublisher.Concurrent.Progress
import OutboxPublisher.Publisher.Context

/-!
# The constraints over whole runs

Whatever any number of clients do, every row that is inserted is the row of a call made in the run:
it satisfies the constraints of the schema, and it reflects the builder calls that made its context.
`OpenTx.Sound` is the invariant of a client, which rests on `Call.sends` alone, and
`OpenTx.Sound.step` its step lemma; `context_faithful` is the statement for single calls and for
whole runs.
-/

namespace OutboxPublisher

open Interaction (Run)

/-- The tuples an INSERT has still to insert. -/
def Activity.tuples : Activity → List Tuple
  | .inserting _ (some (_, t)) todo _ => t :: todo
  | .inserting _ none todo _ => todo
  | _ => []

section
variable {κ : Type}
open SerdeJson

/-- The row is one of a call made in the run. -/
def Traced (tr : List (κ × Action)) (row : OutboxEvent) : Prop :=
  ∃ c call, (c, .call call) ∈ tr ∧ call.WritesRow row.columns

/-- A client in a call made it in the run, inserts its rows, and goes on to send only what the call
may send. -/
def Activity.Sound (tr : List (κ × Action)) (c : κ) : Activity → Prop
  | .idle => True
  | .running call p => (c, .call call) ∈ tr ∧ p.Calls call.Sends
  | .inserting call current todo k => (c, .call call) ∈ tr ∧
      (∀ t ∈ (Activity.inserting call current todo k).tuples, call.WritesRow t) ∧
      ∀ r, (k r).Calls call.Sends

/-- The rows of an open transaction are those of calls made in the run, and so is what its client is
doing. -/
structure OpenTx.Sound (tr : List (κ × Action)) (c : κ) (tx : OpenTx) : Prop where
  pending : ∀ row ∈ tx.pending, Traced tr row
  activity : tx.activity.Sound tr c

section
variable {tr tr' : List (κ × Action)} {c : κ}

/-- A row is traced by a longer run. -/
theorem Traced.mono {row : OutboxEvent} (h : Traced tr row) (htr : tr ⊆ tr') : Traced tr' row := by
  obtain ⟨c, call, hcall, hrow⟩ := h
  exact ⟨c, call, htr hcall, hrow⟩

/-- A client is sound in a longer run. -/
theorem OpenTx.Sound.mono {tx : OpenTx} (h : tx.Sound tr c) (htr : tr ⊆ tr') : tx.Sound tr' c := by
  obtain ⟨hpending, hactivity⟩ := h
  refine ⟨fun row hrow => (hpending row hrow).mono htr, ?_⟩
  cases hact : tx.activity with
  | idle => trivial
  | running call p =>
    rw [hact] at hactivity
    exact ⟨htr hactivity.1, hactivity.2⟩
  | inserting call current todo k =>
    rw [hact] at hactivity
    exact ⟨htr hactivity.1, hactivity.2⟩

/-- What a client is about to insert satisfies the constraints. -/
theorem Activity.Sound.conforms {activity : Activity} (h : activity.Sound tr c) :
    ∀ t ∈ activity.tuples, t.NotNull ∧ t.Check := by
  intro t ht
  cases activity with
  | idle | running => cases ht
  | inserting call current todo k => exact (h.2.1 t ht).conforms

end

section
variable [DecidableEq κ] {w₀ w w' : World κ} {c : κ} {a : Action} {tr : List (κ × Action)}
  {tx : OpenTx}

/-- **A step of a client** leaves it sound. -/
theorem OpenTx.Sound.step (hsound : ∀ tx, w.client c = some tx → tx.Sound tr c)
    (hs : Step w (c, a) w') (htx : w'.client c = some tx) : tx.Sound (tr ++ [(c, a)]) c := by
  have htr : tr ⊆ tr ++ [(c, a)] := List.subset_append_left ..
  have heq : ∀ {o : Option OpenTx}, w'.client c = o → o = some tx := fun h => h.symm.trans htx
  cases hs with
  | begin h =>
    cases heq (World.set_client_self ..)
    exact ⟨by simp, trivial⟩
  | call call h =>
    cases heq (World.set_client_self ..)
    exact ⟨((hsound _ h).mono htr).pending, List.mem_append_right _ List.mem_cons_self, call.sends⟩
  | newV4 u h =>
    cases heq (World.set_client_self ..)
    obtain ⟨hpending, hcall, hp⟩ := (hsound _ h).mono htr
    exact ⟨hpending, hcall, hp.2 u⟩
  | send h hts =>
    cases heq (World.set_client_self ..)
    obtain ⟨hpending, hcall, hp⟩ := (hsound _ h).mono htr
    obtain ⟨ts, ids, hts', hfits, hall⟩ := hp.1 _ rfl
    obtain rfl := Option.some.inj (hts'.symm.trans hts)
    exact ⟨hpending, hcall, Call.writesRow_of_forall₂ hfits hall, hp.2⟩
  | refused h =>
    cases heq (World.set_client_self ..)
    obtain ⟨hpending, hcall, hp⟩ := (hsound _ h).mono htr
    exact ⟨hpending, hcall, hp.2 _⟩
  | nextval h hseq =>
    cases heq (World.set_client_self ..)
    obtain ⟨hpending, hcall, hrows, hk⟩ := (hsound _ h).mono htr
    exact ⟨hpending, hcall, hrows, hk⟩
  | insert row h hrow hfree hwait =>
    cases heq (World.set_client_self ..)
    obtain ⟨hpending, hcall, hrows, hk⟩ := (hsound _ h).mono htr
    obtain ⟨-, hcols⟩ := OutboxEvent.ofTuple_eq_ok_iff.1 hrow
    refine ⟨?_, hcall, fun u hu => hrows u (List.mem_cons_of_mem _ hu), hk⟩
    rintro r hr
    rcases List.mem_append.1 hr with hr | hr
    · exact hpending r hr
    · obtain rfl := List.mem_singleton.1 hr
      exact ⟨c, _, hcall, hcols ▸ hrows _ List.mem_cons_self⟩
  | duplicate row h hrow hcol =>
    cases heq (World.set_client_self ..)
    obtain ⟨-, hcall, -, hk⟩ := (hsound _ h).mono htr
    exact ⟨by simp, hcall, hk _⟩
  | fail e h he =>
    cases heq (World.set_client_self ..)
    obtain ⟨-, hcall, -, hk⟩ := (hsound _ h).mono htr
    exact ⟨by simp, hcall, hk _⟩
  | complete h =>
    cases heq (World.set_client_self ..)
    obtain ⟨hpending, hcall, -, hk⟩ := (hsound _ h).mono htr
    exact ⟨hpending, hcall, hk _⟩
  | ret h =>
    cases heq (World.set_client_self ..)
    exact ⟨((hsound _ h).mono htr).pending, trivial⟩
  | commit h | rollback h | crash h => cases heq (World.set_client_self ..)

/-- **A run from an empty table.** Every committed row is one of a call made in the run, and every
client is sound. -/
theorem sound_run (hcommitted : w₀.committed = []) (hclient : ∀ c, w₀.client c = none)
    (hr : Run Step w₀ tr w) : (∀ row ∈ w.committed, Traced tr row) ∧
      ∀ c tx, w.client c = some tx → tx.Sound tr c := by
  refine hr.invariant (I := fun tr w => (∀ row ∈ w.committed, Traced tr row) ∧
    ∀ c tx, w.client c = some tx → tx.Sound tr c) ⟨by simp [hcommitted], by simp [hclient]⟩ ?_
  rintro tr w ⟨c, a⟩ w' ⟨hrows, hsound⟩ hs
  have htr : tr ⊆ tr ++ [(c, a)] := List.subset_append_left ..
  refine ⟨fun row hrow => ?_, fun d tx htx => ?_⟩
  · obtain ⟨hcom, -⟩ | ⟨pending, aborted, returned, hc, -, hcom⟩ := hs.commits
    · exact (hrows row (hcom ▸ hrow)).mono htr
    · rw [hcom] at hrow
      rcases List.mem_append.1 hrow with hrow | hrow
      · exact (hrows row hrow).mono htr
      · exact ((hsound c _ hc).pending row hrow).mono htr
  · by_cases hd : d = c
    · subst hd
      exact OpenTx.Sound.step (hsound d) hs htx
    · rw [hs.client_of_ne hd] at htx
      exact (hsound d tx htx).mono htr

end

/-- **The publisher's check is the schema's, and rows carry their context.** A call whose events
serialise is refused for want of callbacks exactly when a row it would have written violates the
CHECK, and then it sends no statement. Every statement a call can send inserts the rows of its
events in order, and each satisfies the constraints, has an object as metadata and reflects the
builder calls that made its context. So the constraints are no cause of a database error, and in
every run from an empty table, whatever any number of clients do, the committed rows are those of
calls made in the run, and no constraint stands in the way of a row about to be inserted. Reference:
`validate_callbacks` (`outbox-publisher-sqlx/src/lib.rs:110`), `outbox_events_callbacks_nonempty`
(`0001_initial_schema.sql:46`). -/
theorem context_faithful (κ : Type) [DecidableEq κ] :
    (∀ (call : Call) (ids : List EventId), call.Fits ids →
      (∀ x ∈ call.published ids, ∃ payload, Serialize.toValue x.event = .ok payload) →
      (∀ {B : Type} (srv : Server) (s : Session B),
        (s.run srv call.program).1 = .error .missingCallbacks ↔
          ∃ x ∈ call.published ids, ∃ t, x.tuple = .ok t ∧ ¬ t.Check) ∧
      ((∃ x ∈ call.published ids, ∃ t, x.tuple = .ok t ∧ ¬ t.Check) →
        (ExceptT.run call.program).Calls (· = .newV4))) ∧
    (∀ call : Call, (ExceptT.run call.program).Calls call.Sends) ∧
    (∀ {B : Type} (srv : Server) (s : Session B) (call : Call) (code : SqlState),
      (s.run srv call.program).1 = .error (.database (.database (some code))) →
        (∃ t, call.WritesRow t ∧ srv.refuse t = some code) ∨ code = "2200H" ∨ code = "25P02") ∧
    ∀ (w₀ w : World κ) (tr : List (κ × Action)), w₀.committed = [] →
      (∀ c, w₀.client c = none) → Run Step w₀ tr w →
      (∀ row ∈ w.committed, (row.columns.NotNull ∧ row.columns.Check) ∧
        ∃ c call, (c, .call call) ∈ tr ∧ call.WritesRow row.columns) ∧
      ∀ c tx, w.client c = some tx → ∀ t ∈ tx.activity.tuples, ∀ id,
        ∃ row, OutboxEvent.ofTuple id t = .ok row := by
  refine ⟨?_, Call.sends, fun srv s call code h => Call.database_error h, ?_⟩
  · intro call ids hfits hpayload
    have hcheck : (∃ x ∈ call.published ids, ∃ t, x.tuple = .ok t ∧ ¬ t.Check) ↔
        ∃ x ∈ call.published ids, x.ctx.callbacks = [] := by
      refine exists_congr fun x => and_congr_right fun hx => ?_
      obtain ⟨payload, hpayload⟩ := hpayload x hx
      constructor
      · rintro ⟨t, ht, hno⟩
        rw [Published.check_iff ht, not_not] at hno
        exact hno
      · intro hnil
        have ht := Published.tuple_eq_ok_iff.2 ⟨payload, hpayload, rfl⟩
        exact ⟨_, ht, fun hc => (Published.check_iff ht).1 hc hnil⟩
    rw [hcheck]
    exact ⟨fun srv s => call.missing_iff hfits srv s, fun h => ((call.giveUp hfits).1 h).calls⟩
  · intro w₀ w tr hcommitted hclient hr
    obtain ⟨hrows, hsound⟩ := sound_run hcommitted hclient hr
    refine ⟨fun row hrow => ⟨row.columns_conform, hrows row hrow⟩, fun c tx htx t ht id => ?_⟩
    exact (OutboxEvent.ofTuple_isOk_iff id).2 ((hsound c tx htx).activity.conforms t ht)

/-- Builder calls that name an actor and callbacks twice. -/
def builtCalls : List BuilderCall :=
  [.forActor 1, .withCallbacks [], .withMetadata [("agent", .string "curl")], .forActor 2,
    .withCallbacks [.object [("name", .string "notify")]]]

/-- The row of an event whose context was built by repeated calls is stored, and reflects the last
of them; a batch with the default context in its second place is refused. -/
theorem context_faithful_built :
    (∃ (w : World Unit) (tr : List (Unit × Action)) (row : OutboxEvent),
      Run Step (.empty Unit) tr w ∧ w.committed = [row] ∧ row.columns.Check ∧
        Reflects row.columns builtCalls) ∧
    ((Session.begin ⟨[], ()⟩ ⟨1⟩ (BitVec.ofNat 128)).run SqlxPublisher.lenient
      (Call.appendBatch
        [(ServiceStarted.mk, testCtx), (ServiceStarted.mk, .default)]).program).1 =
      .error .missingCallbacks := by
  constructor
  · have hpub : Run (fun w l w' => Step w l w' ∧ True) (World.empty Unit) (appendWithIdTrace ()
        (.appendWithId ⟨1⟩ ServiceStarted.mk (.build builtCalls)) ⟨1⟩) _ :=
      appendWithId_run (P := fun _ _ => True) (fun _ _ _ _ => trivial) rfl trivial rfl (by decide)
        rfl (by decide) (fun _ _ h => nomatch h)
    have hrun := (hpub.imp fun _ _ _ h => h.1).snoc (Step.commit (World.setAt_client_self ..))
    obtain ⟨hrows, -⟩ := (context_faithful Unit).2.2.2 _ _ _ rfl (fun _ => rfl) hrun
    obtain ⟨⟨-, hcheck⟩, c, call, hmem, ids, hfits, x, hx, hw⟩ := hrows _ List.mem_cons_self
    refine ⟨_, _, _, hrun, rfl, hcheck, hw.reflects builtCalls ?_⟩
    have hcall : call = .appendWithId ⟨1⟩ ServiceStarted.mk (.build builtCalls) := by
      simpa [appendWithIdTrace] using hmem
    subst hcall
    obtain rfl : ids = [⟨1⟩] := hfits
    obtain rfl := List.mem_singleton.1 hx
    rfl
  · refine (((context_faithful Unit).1 (Call.appendBatch
      [(ServiceStarted.mk, testCtx), (ServiceStarted.mk, .default)]) [⟨1⟩, ⟨2⟩] rfl ?_).1 _ _).2 ?_
    · rintro x hx
      rcases List.mem_cons.1 hx with rfl | hx
      · exact ⟨_, rfl⟩
      · obtain rfl := List.mem_singleton.1 hx
        exact ⟨_, rfl⟩
    · refine ⟨_, List.mem_cons_of_mem _ List.mem_cons_self, _, rfl, fun h => ?_⟩
      cases h _ rfl

end

end OutboxPublisher
