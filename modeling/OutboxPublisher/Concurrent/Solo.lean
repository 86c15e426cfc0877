import OutboxPublisher.Concurrent.Log

/-!
# One transaction among none

The model of one transaction (`Session`) and the model of concurrent ones (`World`) agree where they
overlap: whatever a session does, whatever server and identifiers it is given, a client that is
alone in the world can do step by step, with the same results, the same rows and the same numbers
drawn (`session_realised`). `Viewed` is the relation of the simulation, `solo_insertTuples` and
`solo_run` its cases for a statement and for a program.
-/

namespace OutboxPublisher

open Interaction (Program Run)

section
variable {B κ : Type}

/-- What an open transaction of the world holds, for the state of one in a session. -/
inductive InTx (outbox : List OutboxEvent) : TxState B → List OutboxEvent → Bool → Prop
  | active {work : Db B} {pending : List OutboxEvent} (h : work.outbox = outbox ++ pending) :
      InTx outbox (.active work) pending false
  | aborted : InTx outbox .aborted [] true

/-- The session is the view that a client has of the world when nobody else is in a transaction. -/
structure Viewed (c : κ) (s : Session B) (activity : Activity) (returned : List CallOutcome)
    (w : World κ) : Prop where
  committed : w.committed = s.committed.outbox
  seq : w.seq = s.seq
  others : ∀ d, d ≠ c → w.client d = none
  client : ∃ pending aborted, InTx s.committed.outbox s.tx pending aborted ∧
    w.client c = some ⟨pending, aborted, activity, returned⟩

end

/-- A statement of one tuple stores the row or fails with its error. -/
theorem Session.insertTuples_singleton {B : Type} {srv : Server} {s : Session B} {work : Db B}
    (h : s.tx = .active work) (t : Tuple) :
    s.insertTuples srv [t] =
      match insertRow srv work.outbox s.seq t with
      | (.error code, seq) =>
        (.error (.database (some code)), { s with seq := seq, tx := .aborted })
      | (.ok row, seq) => (.ok (), { s with
          seq := seq, tx := .active { work with outbox := work.outbox ++ [row] } }) := by
  simp only [insertTuples, h, insertRows]
  cases insertRow srv work.outbox s.seq t with
  | mk result seq => cases result <;> rfl

section
variable {B κ : Type} [DecidableEq κ] [Serialize Map] [Serialize (List Value)] {srv : Server}
  {c : κ} {s s' : Session B} {work : Db B} {call : Call} {current : Option (ℤ × Tuple)}
  {todo : List Tuple} {t : Tuple} {k : Except SqlxError Unit → CallProgram}
  {returned : List CallOutcome} {w w' : World κ} {activity activity' : Activity} {a : Action}

/-- A step of the client that commits nothing, and what its transaction then is. -/
theorem Viewed.step (s' : Session B) (h : Viewed c s activity returned w)
    (hs : Step w (c, a) w') (hcom : w'.committed = w.committed) (hcom' : s'.committed = s.committed)
    (hseq : w'.seq = s'.seq) {pending : List OutboxEvent} {aborted : Bool}
    {returned' : List CallOutcome} (hin : InTx s.committed.outbox s'.tx pending aborted)
    (hclient : w'.client c = some ⟨pending, aborted, activity', returned'⟩) :
    Viewed c s' activity' returned' w' where
  committed := by rw [hcom, h.committed, hcom']
  seq := hseq
  others d hd := (hs.client_of_ne hd).trans (h.others d hd)
  client := ⟨pending, aborted, hcom' ▸ hin, hclient⟩

/-- The client draws a number for the tuple at hand, if the sequence has one. -/
theorem Viewed.nextval (h : Viewed c s (.inserting call none (t :: todo) k) returned w)
    (hseq : s.seq.next < 2 ^ 63) : ∃ w', Step w (c, .nextval) w' ∧
      Viewed c { s with seq := ⟨s.seq.next + 1⟩ } (.inserting call (some (s.seq.next, t)) todo k)
        returned w' := by
  obtain ⟨pending, aborted, hin, hc⟩ := h.client
  rw [← h.seq] at hseq ⊢
  have hs := Step.nextval hc hseq
  exact ⟨_, hs, h.step { s with seq := ⟨w.seq.next + 1⟩ } hs rfl rfl rfl hin
    (World.set_client_self ..)⟩

/-- A statement may fail in the world with any error but that of a unique index, and the transaction
is then aborted. -/
theorem Viewed.fail (h : Viewed c s (.inserting call current todo k) returned w) {code : SqlState}
    (hcode : code ≠ uniqueViolation) : ∃ w', Step w (c, .fail (.database (some code))) w' ∧
      Viewed c { s with tx := .aborted } (.running call (k (.error (.database (some code)))))
        returned w' := by
  obtain ⟨pending, aborted, hin, hc⟩ := h.client
  have hne : SqlxError.database (some code) ≠ .database (some uniqueViolation) := by
    intro he
    injection he with he
    injection he with he
    exact hcode he
  have hs := Step.fail _ hc hne
  exact ⟨_, hs, h.step { s with tx := .aborted } hs rfl rfl h.seq .aborted
    (World.set_client_self ..)⟩

/-- The row about to be inserted is stored where it collides with none. -/
theorem Viewed.insert {id : ℤ} {row : OutboxEvent}
    (h : Viewed c s (.inserting call (some (id, t)) todo k) returned w) (hs : s.tx = .active work)
    (hrow : OutboxEvent.ofTuple id t = .ok row) (hcol : ¬ Collides work.outbox row) :
    ∃ w', Step w (c, .insert) w' ∧
      Viewed c { s with tx := .active { work with outbox := work.outbox ++ [row] } }
        (.inserting call none todo k) returned w' := by
  obtain ⟨pending, aborted, hin, hc⟩ := h.client
  rw [hs] at hin
  cases hin with
  | active hout =>
    have hfree : ¬ Collides (w.committed ++ pending) row := by
      rwa [h.committed, ← hout]
    have hstep := Step.insert row hc hrow hfree fun d tx hd hdtx => by
      rw [h.others d hd] at hdtx
      cases hdtx
    refine ⟨_, hstep, h.step { s with tx := .active { work with outbox := work.outbox ++ [row] } }
      hstep rfl rfl h.seq (.active ?_) (World.set_client_self ..)⟩
    show work.outbox ++ [row] = _
    rw [hout, List.append_assoc]

/-- The row about to be inserted is refused where it collides with one. -/
theorem Viewed.duplicate {id : ℤ} {row : OutboxEvent}
    (h : Viewed c s (.inserting call (some (id, t)) todo k) returned w) (hs : s.tx = .active work)
    (hrow : OutboxEvent.ofTuple id t = .ok row) (hcol : Collides work.outbox row) :
    ∃ w', Step w (c, .duplicate) w' ∧
      Viewed c { s with tx := .aborted }
        (.running call (k (.error (.database (some uniqueViolation))))) returned w' := by
  obtain ⟨pending, aborted, hin, hc⟩ := h.client
  rw [hs] at hin
  cases hin with
  | active hout =>
    have hstep := Step.duplicate row hc hrow (by rwa [h.committed, ← hout])
    exact ⟨_, hstep, h.step { s with tx := .aborted } hstep rfl rfl h.seq .aborted
      (World.set_client_self ..)⟩

variable (srv) in
/-- **One tuple of a statement.** The client draws a number and inserts the row, or fails as the
session does. -/
theorem solo_insertRow (hs : s.tx = .active work)
    (h : Viewed c s (.inserting call none (t :: todo) k) returned w) :
    ∃ (acts : List Action) (w' : World κ), Run Step w (acts.map (c, ·)) w' ∧
      ((∃ s', s.insertTuples srv [t] = (.ok (), s') ∧
        Viewed c s' (.inserting call none todo k) returned w') ∨
      ∃ e s', s.insertTuples srv [t] = (.error e, s') ∧
        Viewed c s' (.running call (k (.error e))) returned w') := by
  rw [Session.insertTuples_singleton hs, insertRow, Sequence.nextval]
  cases href : srv.refuse t with
  | some code =>
    obtain ⟨w', hstep, hview⟩ := h.fail fun hc => srv.refuse_ne t (hc ▸ href)
    exact ⟨[.fail _], w', .single hstep, .inr ⟨_, _, rfl, hview⟩⟩
  | none =>
    by_cases hseq : s.seq.next < 2 ^ 63
    · obtain ⟨w₁, hstep₁, h₁⟩ := h.nextval hseq
      have hrun : Run Step w [(c, Action.nextval)] w₁ := .single hstep₁
      rw [if_pos hseq]
      cases hrow : OutboxEvent.ofTuple s.seq.next t with
      | error code =>
        obtain ⟨w', hstep, hview⟩ := h₁.fail fun hc =>
          OutboxEvent.ofTuple_ne_unique s.seq.next t (hc ▸ hrow)
        simp only [hrow]
        exact ⟨[.nextval, .fail _], w', hrun.snoc hstep, .inr ⟨_, _, rfl, hview⟩⟩
      | ok row =>
        simp only [hrow]
        by_cases hcol : Collides work.outbox row
        · obtain ⟨w', hstep, hview⟩ := h₁.duplicate hs hrow hcol
          rw [if_pos hcol]
          exact ⟨[.nextval, .duplicate], w', hrun.snoc hstep, .inr ⟨_, _, rfl, hview⟩⟩
        · obtain ⟨w', hstep, hview⟩ := h₁.insert hs hrow hcol
          rw [if_neg hcol]
          exact ⟨[.nextval, .insert], w', hrun.snoc hstep, .inl ⟨_, rfl, hview⟩⟩
    · have hne : "2200H" ≠ uniqueViolation := by simp [uniqueViolation]
      obtain ⟨w', hstep, hview⟩ := h.fail hne
      rw [if_neg hseq]
      exact ⟨[.fail _], w', .single hstep, .inr ⟨_, _, rfl, hview⟩⟩

variable (srv) in
/-- **A statement.** The client inserts the tuples one after the other, or fails as the session
does. -/
theorem solo_insertTuples (todo : List Tuple) (hs : s.tx = .active work)
    (h : Viewed c s (.inserting call none todo k) returned w) :
    ∃ (acts : List Action) (w' : World κ), Run Step w (acts.map (c, ·)) w' ∧
      Viewed c (s.insertTuples srv todo).2 (.running call (k (s.insertTuples srv todo).1))
        returned w' := by
  induction todo generalizing s work w with
  | nil =>
    rw [Session.insertTuples_nil hs]
    obtain ⟨pending, aborted, hin, hc⟩ := h.client
    have hstep := Step.complete hc
    exact ⟨[.complete], _, .single hstep,
      h.step s hstep rfl rfl h.seq hin (World.set_client_self ..)⟩
  | cons t todo ih =>
    rw [Session.insertTuples_cons hs]
    obtain ⟨acts, w₁, hr, ⟨s₁, hone, h₁⟩ | ⟨e, s₁, hone, h₁⟩⟩ := solo_insertRow srv hs h
    · rw [hone]
      have htx : ∃ work₁, s₁.tx = .active work₁ := by
        obtain ⟨rows, seq, -, hins⟩ | ⟨code, seq, hins⟩ :=
          Session.insertTuples_active srv hs [t]
        · rw [hone] at hins
          exact ⟨_, congrArg (Session.tx ∘ Prod.snd) hins⟩
        · rw [hone] at hins
          cases congrArg Prod.fst hins
      obtain ⟨work₁, htx⟩ := htx
      obtain ⟨acts', w', hr', h'⟩ := ih htx h₁
      exact ⟨acts ++ acts', w', hr.append_map hr', h'⟩
    · rw [hone]
      exact ⟨acts, w₁, hr, h₁⟩

variable (srv) in
/-- **A program** that sends INSERTs only: the client draws the identifiers that the session draws,
and sends the statements that it sends. -/
theorem solo_run {p : CallProgram} (hp : p.Calls Command.Inserts)
    (h : Viewed c s (.running call p) returned w) :
    ∃ (acts : List Action) (w' : World κ), Run Step w (acts.map (c, ·)) w' ∧
      Viewed c (Program.run (Session.handle srv) p s).2
        (.running call (.pure (Program.run (Session.handle srv) p s).1)) returned w' := by
  induction p generalizing s w with
  | pure result => exact ⟨[], w, .nil, h⟩
  | call command k ih =>
    obtain ⟨pending, aborted, hin, hc⟩ := h.client
    rw [Program.run_call]
    cases command with
    | newV4 =>
      have hstep := Step.newV4 (s.uuids 0) hc
      obtain ⟨acts, w', hr, h'⟩ := ih (s.uuids 0) (hp.2 _)
        (h.step (s.skip 1) hstep rfl rfl h.seq hin (World.set_client_self ..))
      exact ⟨.newV4 (s.uuids 0) :: acts, w', (Run.single hstep).append hr, h'⟩
    | execute stmt =>
      obtain ⟨ts, hts⟩ := Option.isSome_iff_exists.1 hp.1
      rw [Session.handle, Session.execute_of_tuples hts]
      cases htx : s.tx with
      | active work =>
        rw [htx] at hin
        cases hin with
        | active hout =>
          have hstep := Step.send hc hts
          obtain ⟨acts, w₁, hr, h₁⟩ := solo_insertTuples srv ts htx
            (h.step s hstep rfl rfl h.seq (htx ▸ .active hout) (World.set_client_self ..))
          obtain ⟨acts', w', hr', h'⟩ := ih _ (hp.2 _) h₁
          exact ⟨.send :: (acts ++ acts'), w', (Run.single hstep).append (hr.append_map hr'), h'⟩
      | aborted =>
        rw [htx] at hin
        cases hin with
        | aborted =>
          rw [Session.insertTuples_aborted htx]
          have hstep := Step.refused hc
          obtain ⟨acts, w', hr, h'⟩ := ih _ (hp.2 _)
            (h.step s hstep rfl rfl h.seq (htx ▸ .aborted) (World.set_client_self ..))
          exact ⟨.refused :: acts, w', (Run.single hstep).append hr, h'⟩
      | ended =>
        rw [htx] at hin
        cases hin

variable (srv) in
/-- **Calls one after the other:** each returns in the world what it returns in the session. -/
theorem solo_calls (calls : List Call) (h : Viewed c s .idle returned w) :
    ∃ (acts : List Action) (results : List (Except PublishError (List EventId))) (w' : World κ),
      (runOps srv (calls.map Op.call) s).1 = results.map some ∧ results.length = calls.length ∧
      Run Step w (acts.map (c, ·)) w' ∧
      Viewed c (runOps srv (calls.map Op.call) s).2 .idle (returned ++ calls.zip results) w' := by
  induction calls generalizing s w returned with
  | nil =>
    refine ⟨[], [], w, rfl, rfl, .nil, ?_⟩
    rwa [List.zip_nil_left, List.append_nil]
  | cons call calls ih =>
    obtain ⟨pending, aborted, hin, hc⟩ := h.client
    have hcall := Step.call call hc
    obtain ⟨acts, w₁, hr, h₁⟩ := solo_run srv call.publishing.calls
      (h.step s hcall rfl rfl h.seq hin (World.set_client_self ..))
    obtain ⟨pending₁, aborted₁, hin₁, hc₁⟩ := h₁.client
    have hret := Step.ret hc₁
    obtain ⟨acts', results, w', hresults, hlength, hr', h'⟩ :=
      ih (h₁.step _ hret rfl rfl h₁.seq hin₁ (World.set_client_self ..))
    refine ⟨.call call :: (acts ++ .ret call _ :: acts'), _ :: results, w',
      congrArg (List.cons _) hresults, congrArg Nat.succ hlength,
      (Run.single hcall).append (hr.append_map ((Run.single hret).append hr')), ?_⟩
    rw [List.zip_cons_cons, List.append_cons]
    exact h'

/-- **The model of one transaction within that of many.** Whatever calls are made in a session, and
whatever server and identifiers it is given: a client that is alone in the world, from the same
table and position of the sequence, can begin a transaction, make the calls and commit, such that
every call returns what it returns in the session, and the table and the sequence are those that the
session's commit leaves. Reference: `Pool::begin`, `Transaction::commit`. -/
theorem session_realised {w : World κ} (hclient : ∀ d, w.client d = none) (c : κ) (srv : Server)
    (uuids : ℕ → Uuid) (calls : List Call) :
    ∃ (acts : List Action) (results : List (Except PublishError (List EventId))) (w' : World κ),
      (runOps srv (calls.map Op.call) (.begin ⟨w.committed, ()⟩ w.seq uuids)).1 =
        results.map some ∧
      Run Step w ((c, .begin) :: acts.map (c, ·) ++ [(c, .commit (calls.zip results))]) w' ∧
      w'.committed = ((runOps srv (calls.map Op.call)
        (.begin ⟨w.committed, ()⟩ w.seq uuids)).2.execute srv .commit).2.committed.outbox ∧
      w'.seq = (runOps srv (calls.map Op.call) (.begin ⟨w.committed, ()⟩ w.seq uuids)).2.seq ∧
      ∀ d, w'.client d = none := by
  have hbegin : Step w (c, .begin) _ := .begin (hclient c)
  have h : Viewed c (.begin ⟨w.committed, ()⟩ w.seq uuids) .idle []
      (w.set c (some ⟨[], false, .idle, []⟩)) :=
    ⟨rfl, rfl, fun d hd => (w.set_client_of_ne _ hd).trans (hclient d),
      [], false, .active (List.append_nil _).symm, World.set_client_self ..⟩
  obtain ⟨acts, results, w₁, hresults, -, hr, h₁⟩ := solo_calls srv calls h
  obtain ⟨pending, aborted, hin, hc⟩ := h₁.client
  have hcommit := Step.commit hc
  rw [List.nil_append] at hcommit
  refine ⟨acts, results, _, hresults, ((Run.single hbegin).append hr).snoc hcommit, ?_, h₁.seq,
    fun d => ?_⟩
  · show w₁.committed ++ pending = _
    rw [h₁.committed]
    cases htx : (runOps srv (calls.map Op.call) (.begin ⟨w.committed, ()⟩ w.seq uuids)).2.tx with
    | active work =>
      rw [htx] at hin
      cases hin with
      | active hout => rw [Session.commit_active htx, hout]
    | aborted =>
      rw [htx] at hin
      cases hin with
      | aborted => rw [Session.commit_aborted htx, List.append_nil]
    | ended =>
      rw [htx] at hin
      cases hin
  · by_cases hd : d = c
    · subst hd
      exact World.set_client_self ..
    · exact (World.set_client_of_ne _ _ hd).trans (h₁.others d hd)

end

section
open SerdeJson

/-- A single publication is the same in both models. -/
theorem session_realised_single : ∃ (acts : List Action) (w : World Bool),
    Run Step (.empty Bool) ((false, .begin) :: acts.map (false, ·) ++
      [(false, .commit [(started 1, .ok [⟨1⟩])])]) w ∧ w.committed = [startedRow 1 1] := by
  obtain ⟨acts, results, w, hresults, hr, hcom, -, -⟩ := session_realised (w := .empty Bool)
    (fun _ => rfl) false ⟨fun _ => none, fun _ h => by cases h⟩ (fun _ => 1) [started 1]
  have hone : [some (Except.ok [⟨1⟩])] = results.map some := hresults
  obtain ⟨result, rfl⟩ := List.length_eq_one_iff.1
    ((List.length_map some).symm.trans (congrArg List.length hone).symm)
  cases hone
  exact ⟨acts, w, hr, hcom⟩

end

end OutboxPublisher
