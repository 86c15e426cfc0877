import OutboxPublisher.Event
import Mathlib.Data.Int.Notation
import Mathlib.Algebra.Group.Int.Defs
import Mathlib.Data.List.Basic

/-!
# The table `outbox_events`

What the server does with the rows of one INSERT. A row arrives as a `Tuple` of the ten columns the
statement names, each of which may be NULL; a stored row is an `OutboxEvent`, whose columns are NULL
only where the schema allows it and whose `callbacks` satisfy the CHECK constraint. The server may
refuse a row on its own account, then draws the next number of the BIGSERIAL sequence, then checks
the constraints of the row, then the two unique indexes. `Accepted.insertRow` and
`insertRow_of_not_accepted` say what becomes of a row, `insertRows_cons` that a statement inserts
its rows one after the other. The column `created_at` is left to its default and is read by nothing
here.
-/

namespace OutboxPublisher

/-- The five-character code of a server error. Reference: `sqlx::error::DatabaseError::code`. -/
abbrev SqlState := String

/-- The SQLSTATE of a violated unique index. Reference: `outbox-publisher-sqlx/src/lib.rs:159`. -/
def uniqueViolation : SqlState := "23505"

/-- The ten columns an INSERT names, each possibly NULL. Reference: the column list of the INSERT
(`outbox-publisher-sqlx/src/lib.rs:138`). -/
structure Tuple where
  eventId : Option Uuid
  kind : Option String
  aggregateType : Option String
  aggregateId : Option Uuid
  payload : Option Value
  metadata : Option Value
  callbacks : Option Value
  actorId : Option Uuid
  correlationId : Option Uuid
  causationId : Option Uuid

/-- The callbacks are a JSON array with at least one element. Reference:
`outbox_events_callbacks_nonempty` (`0001_initial_schema.sql:46`). -/
def callbacksNonempty : Value → Bool
  | .array (_ :: _) => true
  | _ => false

namespace Tuple

/-- The NOT NULL constraints of the columns an INSERT names. Reference: `outbox_events`
(`0001_initial_schema.sql:13`). -/
def NotNull (t : Tuple) : Prop :=
  t.eventId.isSome ∧ t.kind.isSome ∧ t.aggregateType.isSome ∧ t.aggregateId.isSome ∧
    t.payload.isSome ∧ t.metadata.isSome ∧ t.callbacks.isSome

/-- The CHECK constraint; it does not fail on NULL. Reference: `outbox_events_callbacks_nonempty`
(`0001_initial_schema.sql:46`). -/
def Check (t : Tuple) : Prop :=
  ∀ callbacks, t.callbacks = some callbacks → callbacksNonempty callbacks = true

/-- What the caller asked to be stored: the columns but for the generated identifier. -/
def content (t : Tuple) : Tuple :=
  { t with eventId := none }

end Tuple

/-- A stored row. Reference: `outbox_events` (`0001_initial_schema.sql:7`). -/
structure OutboxEvent where
  id : ℤ
  eventId : Uuid
  kind : String
  aggregateType : String
  aggregateId : Uuid
  payload : Value
  metadata : Value
  callbacks : Value
  actorId : Option Uuid
  correlationId : Option Uuid
  causationId : Option Uuid
  callbacks_nonempty : callbacksNonempty callbacks = true

namespace OutboxEvent

/-- The ten columns of a stored row. -/
def columns (row : OutboxEvent) : Tuple :=
  ⟨some row.eventId, some row.kind, some row.aggregateType, some row.aggregateId, some row.payload,
    some row.metadata, some row.callbacks, row.actorId, row.correlationId, row.causationId⟩

/-- The row a tuple becomes under an id, unless it violates a NOT NULL or the CHECK constraint.
Reference: `outbox_events` (`0001_initial_schema.sql:7`). -/
def ofTuple (id : ℤ) (t : Tuple) : Except SqlState OutboxEvent :=
  match t.eventId, t.kind, t.aggregateType, t.aggregateId, t.payload, t.metadata, t.callbacks with
  | some eventId, some kind, some aggregateType, some aggregateId, some payload, some metadata,
      some callbacks =>
    if h : callbacksNonempty callbacks = true then
      .ok ⟨id, eventId, kind, aggregateType, aggregateId, payload, metadata, callbacks, t.actorId,
        t.correlationId, t.causationId, h⟩
    else .error "23514"
  | _, _, _, _, _, _, _ => .error "23502"

/-- A tuple becomes the row with its columns and no other. -/
theorem ofTuple_eq_ok_iff {id : ℤ} {t : Tuple} {row : OutboxEvent} :
    ofTuple id t = .ok row ↔ row.id = id ∧ row.columns = t := by
  constructor
  · intro h
    unfold ofTuple at h
    split at h
    · next h₁ h₂ h₃ h₄ h₅ h₆ h₇ =>
      split at h
      · obtain rfl := Except.ok.inj h
        refine ⟨rfl, ?_⟩
        rw [columns, ← h₁, ← h₂, ← h₃, ← h₄, ← h₅, ← h₆, ← h₇]
      · exact nomatch h
    · exact nomatch h
  · rintro ⟨rfl, rfl⟩
    exact dif_pos row.callbacks_nonempty

/-- The columns of a stored row satisfy the constraints. -/
theorem columns_conform (row : OutboxEvent) : row.columns.NotNull ∧ row.columns.Check := by
  refine ⟨⟨rfl, rfl, rfl, rfl, rfl, rfl, rfl⟩, ?_⟩
  rintro callbacks h
  exact Option.some.inj h ▸ row.callbacks_nonempty

/-- **What the constraints are.** A tuple becomes a row exactly when it satisfies the NOT NULL
constraints and the CHECK. -/
theorem ofTuple_isOk_iff (id : ℤ) {t : Tuple} :
    (∃ row, ofTuple id t = .ok row) ↔ t.NotNull ∧ t.Check := by
  constructor
  · rintro ⟨row, h⟩
    obtain ⟨-, rfl⟩ := ofTuple_eq_ok_iff.1 h
    exact row.columns_conform
  · obtain ⟨eventId, kind, aggregateType, aggregateId, payload, metadata, callbacks, actorId,
      correlationId, causationId⟩ := t
    rintro ⟨⟨h₁, h₂, h₃, h₄, h₅, h₆, h₇⟩, hcheck⟩
    obtain ⟨eventId, rfl⟩ := Option.isSome_iff_exists.1 h₁
    obtain ⟨kind, rfl⟩ := Option.isSome_iff_exists.1 h₂
    obtain ⟨aggregateType, rfl⟩ := Option.isSome_iff_exists.1 h₃
    obtain ⟨aggregateId, rfl⟩ := Option.isSome_iff_exists.1 h₄
    obtain ⟨payload, rfl⟩ := Option.isSome_iff_exists.1 h₅
    obtain ⟨metadata, rfl⟩ := Option.isSome_iff_exists.1 h₆
    obtain ⟨callbacks, rfl⟩ := Option.isSome_iff_exists.1 h₇
    exact ⟨⟨id, eventId, kind, aggregateType, aggregateId, payload, metadata, callbacks, actorId,
      correlationId, causationId, hcheck callbacks rfl⟩, ofTuple_eq_ok_iff.2 ⟨rfl, rfl⟩⟩

/-- The server's reason against a tuple is never a unique index. -/
theorem ofTuple_ne_unique (id : ℤ) (t : Tuple) : ofTuple id t ≠ .error uniqueViolation := by
  unfold ofTuple
  split
  · split
    · exact (nomatch ·)
    · simp [uniqueViolation]
  · simp [uniqueViolation]

end OutboxEvent

/-- The sequence of the id column: the number it yields next. Reference: `BIGSERIAL`
(`0001_initial_schema.sql:10`). -/
structure Sequence where
  next : ℤ

/-- Draw a number. The sequence ends at the largest 64-bit one; a number drawn is never given back.
Reference: `nextval`. -/
def Sequence.nextval (seq : Sequence) : Except SqlState ℤ × Sequence :=
  if seq.next < 2 ^ 63 then (.ok seq.next, ⟨seq.next + 1⟩) else (.error "2200H", seq)

/-- The server, as far as it is left open: the SQLSTATE with which it refuses a row on the row's own
account, such as text it cannot store, before the unique indexes are checked. A unique index is no
such reason. -/
structure Server where
  refuse : Tuple → Option SqlState
  refuse_ne : ∀ t, refuse t ≠ some uniqueViolation

/-- The row collides with a row of the table on one of the unique indexes. Reference:
`outbox_events` (`0001_initial_schema.sql:10`, `:13`). -/
def Collides (outbox : List OutboxEvent) (row : OutboxEvent) : Prop :=
  ∃ r ∈ outbox, r.id = row.id ∨ r.eventId = row.eventId

instance (outbox : List OutboxEvent) (row : OutboxEvent) : Decidable (Collides outbox row) :=
  inferInstanceAs (Decidable (∃ r ∈ outbox, _))

section
variable (srv : Server)

/-- Insert one row: the row to be stored, or the SQLSTATE of the first check that fails. -/
def insertRow (outbox : List OutboxEvent) (seq : Sequence) (t : Tuple) :
    Except SqlState OutboxEvent × Sequence :=
  match srv.refuse t with
  | some code => (.error code, seq)
  | none =>
    match seq.nextval with
    | (.error code, seq) => (.error code, seq)
    | (.ok id, seq) =>
      match OutboxEvent.ofTuple id t with
      | .error code => (.error code, seq)
      | .ok row => if Collides outbox row then (.error uniqueViolation, seq) else (.ok row, seq)

/-- Insert the rows of one statement, each of which sees those before it: the table afterwards, or
the first error. -/
def insertRows (outbox : List OutboxEvent) (seq : Sequence) :
    List Tuple → Except SqlState (List OutboxEvent) × Sequence
  | [] => (.ok outbox, seq)
  | t :: ts =>
    match insertRow srv outbox seq t with
    | (.error code, seq) => (.error code, seq)
    | (.ok row, seq) => insertRows (outbox ++ [row]) seq ts

variable {srv}

variable (srv) in
/-- But for the unique indexes the server stores the tuple as the row: it does not refuse it, the
sequence has a number left, and the row is the tuple's under that number. -/
structure Accepted (seq : Sequence) (t : Tuple) (row : OutboxEvent) : Prop where
  not_refused : srv.refuse t = none
  not_exhausted : seq.next < 2 ^ 63
  id_eq : row.id = seq.next
  columns_eq : row.columns = t

/-- An accepted tuple is one row. -/
theorem Accepted.unique {seq : Sequence} {t : Tuple} {row row' : OutboxEvent}
    (h : Accepted srv seq t row) (h' : Accepted srv seq t row') : row = row' := by
  have hrow := OutboxEvent.ofTuple_eq_ok_iff.2 ⟨h.id_eq, h.columns_eq⟩
  rw [OutboxEvent.ofTuple_eq_ok_iff.2 ⟨h'.id_eq, h'.columns_eq⟩] at hrow
  exact (Except.ok.inj hrow).symm

/-- A tuple is accepted as some row exactly when the server does not refuse it, the sequence has a
number left, and the tuple satisfies the constraints. -/
theorem exists_accepted_iff {seq : Sequence} {t : Tuple} :
    (∃ row, Accepted srv seq t row) ↔
      srv.refuse t = none ∧ seq.next < 2 ^ 63 ∧ t.NotNull ∧ t.Check := by
  rw [← OutboxEvent.ofTuple_isOk_iff seq.next]
  simp only [OutboxEvent.ofTuple_eq_ok_iff]
  constructor
  · rintro ⟨row, h⟩
    exact ⟨h.not_refused, h.not_exhausted, row, h.id_eq, h.columns_eq⟩
  · rintro ⟨href, hseq, row, hid, hcols⟩
    exact ⟨row, href, hseq, hid, hcols⟩

/-- An accepted tuple is stored unless it collides. -/
theorem Accepted.insertRow {seq : Sequence} {t : Tuple} {row : OutboxEvent}
    (h : Accepted srv seq t row) (outbox : List OutboxEvent) :
    insertRow srv outbox seq t =
      (if Collides outbox row then .error uniqueViolation else .ok row, ⟨seq.next + 1⟩) := by
  have hrow := OutboxEvent.ofTuple_eq_ok_iff.2 ⟨h.id_eq, h.columns_eq⟩
  rw [OutboxPublisher.insertRow, h.not_refused, Sequence.nextval, if_pos h.not_exhausted]
  simp only [hrow]
  split <;> rfl

/-- A tuple that is not accepted is an error, and not that of a unique index. -/
theorem insertRow_of_not_accepted {seq : Sequence} {t : Tuple}
    (h : ¬ ∃ row, Accepted srv seq t row) (outbox : List OutboxEvent) :
    ∃ code seq', insertRow srv outbox seq t = (.error code, seq') ∧ code ≠ uniqueViolation := by
  rw [insertRow, Sequence.nextval]
  cases href : srv.refuse t with
  | some code => exact ⟨code, seq, rfl, fun hc => srv.refuse_ne t (hc ▸ href)⟩
  | none =>
    by_cases hseq : seq.next < 2 ^ 63
    · rw [if_pos hseq]
      cases hrow : OutboxEvent.ofTuple seq.next t with
      | error code =>
        refine ⟨code, ⟨seq.next + 1⟩, by simp only [hrow], fun hc => ?_⟩
        exact OutboxEvent.ofTuple_ne_unique seq.next t (hc ▸ hrow)
      | ok row =>
        obtain ⟨hid, hcols⟩ := OutboxEvent.ofTuple_eq_ok_iff.1 hrow
        exact absurd ⟨row, href, hseq, hid, hcols⟩ h
    · rw [if_neg hseq]
      exact ⟨"2200H", seq, rfl, by simp [uniqueViolation]⟩

/-- A stored row has the columns of its tuple. -/
theorem insertRow_ok {outbox : List OutboxEvent} {seq seq' : Sequence} {t : Tuple}
    {row : OutboxEvent} (h : insertRow srv outbox seq t = (.ok row, seq')) : row.columns = t := by
  by_cases hacc : ∃ row, Accepted srv seq t row
  · obtain ⟨row', hacc⟩ := hacc
    rw [hacc.insertRow outbox] at h
    have hrow := congrArg Prod.fst h
    split at hrow
    · exact nomatch hrow
    · exact Except.ok.inj hrow ▸ hacc.columns_eq
  · obtain ⟨code, seq₁, herr, -⟩ := insertRow_of_not_accepted hacc outbox
    rw [herr] at h
    exact nomatch h

/-- A unique index is the error exactly when an accepted row collides. -/
theorem insertRow_eq_unique_iff {outbox : List OutboxEvent} {seq : Sequence} {t : Tuple} :
    (insertRow srv outbox seq t).1 = .error uniqueViolation ↔
      ∃ row, Accepted srv seq t row ∧ Collides outbox row := by
  by_cases hacc : ∃ row, Accepted srv seq t row
  · obtain ⟨row, hacc⟩ := hacc
    rw [hacc.insertRow outbox]
    by_cases hcol : Collides outbox row
    · exact ⟨fun _ => ⟨row, hacc, hcol⟩, fun _ => by simp [hcol]⟩
    · refine ⟨fun h => by simp [hcol] at h, ?_⟩
      rintro ⟨row', hacc', hcol'⟩
      exact absurd (hacc'.unique hacc ▸ hcol') hcol
  · obtain ⟨code, seq', herr, hne⟩ := insertRow_of_not_accepted hacc outbox
    rw [herr]
    exact ⟨fun h => absurd (Except.error.inj h) hne, fun ⟨row, h, _⟩ => absurd ⟨row, h⟩ hacc⟩

/-- The constraints are no cause of an error for a tuple that satisfies them: what is left are the
server's own refusal, the end of the sequence and the unique indexes. -/
theorem insertRow_error {outbox : List OutboxEvent} {seq seq' : Sequence} {t : Tuple}
    {code : SqlState} (hconform : t.NotNull ∧ t.Check)
    (h : insertRow srv outbox seq t = (.error code, seq')) :
    srv.refuse t = some code ∨ code = "2200H" ∨ code = uniqueViolation := by
  rw [insertRow, Sequence.nextval] at h
  cases href : srv.refuse t with
  | some code' =>
    rw [href] at h
    cases h
    exact .inl rfl
  | none =>
    rw [href] at h
    by_cases hseq : seq.next < 2 ^ 63
    · obtain ⟨row, hrow⟩ := (OutboxEvent.ofTuple_isOk_iff seq.next).2 hconform
      simp only [if_pos hseq, hrow] at h
      split at h
      · cases h
        exact .inr (.inr rfl)
      · cases h
    · simp only [if_neg hseq] at h
      cases h
      exact .inr (.inl rfl)

/-- The constraints are no cause of an error for a statement whose tuples satisfy them. -/
theorem insertRows_error {ts : List Tuple} {outbox : List OutboxEvent} {seq seq' : Sequence}
    {code : SqlState} (hconform : ∀ t ∈ ts, t.NotNull ∧ t.Check)
    (h : insertRows srv outbox seq ts = (.error code, seq')) :
    (∃ t ∈ ts, srv.refuse t = some code) ∨ code = "2200H" ∨ code = uniqueViolation := by
  induction ts generalizing outbox seq with
  | nil => cases h
  | cons t ts ih =>
    rw [insertRows] at h
    cases hrow : insertRow srv outbox seq t with
    | mk result seq₁ =>
      rw [hrow] at h
      cases result with
      | error code' =>
        cases h
        exact (insertRow_error (hconform t (by simp)) hrow).imp_left fun href =>
          ⟨t, by simp, href⟩
      | ok row =>
        refine (ih (fun u hu => hconform u (by simp [hu])) h).imp_left ?_
        rintro ⟨u, hu, href⟩
        exact ⟨u, by simp [hu], href⟩

/-- The first row decides first, and the rest see it. -/
theorem insertRows_cons (outbox : List OutboxEvent) (seq : Sequence) (t : Tuple) (ts : List Tuple) :
    insertRows srv outbox seq (t :: ts) =
      match insertRows srv outbox seq [t] with
      | (.error code, seq) => (.error code, seq)
      | (.ok outbox, seq) => insertRows srv outbox seq ts := by
  rw [insertRows, insertRows]
  cases insertRow srv outbox seq t with
  | mk result seq => cases result <;> rfl

/-- The sequence yields `n` more numbers, and none of them is the id of a row of the table. -/
def Sequence.Free (seq : Sequence) (outbox : List OutboxEvent) (n : ℕ) : Prop :=
  ∀ i < n, seq.next + i < 2 ^ 63 ∧ ∀ r ∈ outbox, r.id ≠ seq.next + i

/-- Of the next numbers the first is taken by the row it is drawn for. -/
theorem Sequence.free_succ_iff {seq : Sequence} {outbox : List OutboxEvent} {row : OutboxEvent}
    (hrow : row.id = seq.next) (n : ℕ) :
    seq.Free outbox (n + 1) ↔ (seq.next < 2 ^ 63 ∧ ∀ r ∈ outbox, r.id ≠ seq.next) ∧
      (⟨seq.next + 1⟩ : Sequence).Free (outbox ++ [row]) n := by
  have hzero : seq.next + (0 : ℕ) = seq.next := Int.add_zero _
  rw [Free, Nat.forall_lt_succ_left, Free, hzero]
  refine and_congr_right fun _ => forall₂_congr fun i _ => ?_
  have hnext : seq.next + (i + 1 : ℕ) = seq.next + 1 + i := by
    push_cast
    omega
  have hne : row.id ≠ seq.next + 1 + i := by omega
  rw [hnext, List.forall_mem_append, List.forall_mem_singleton]
  exact and_congr_right fun _ => ⟨fun h => ⟨h, hne⟩, fun h => h.1⟩

/-- **When a statement succeeds.** Where the tuples have fresh and distinct event ids, a statement
succeeds exactly when the server refuses none of its tuples, all of them satisfy the constraints,
and the next numbers of the sequence are free. -/
theorem insertRows_isOk_iff {ts : List Tuple} {outbox : List OutboxEvent} {seq : Sequence}
    (hnodup : (ts.map (·.eventId)).Nodup)
    (hfresh : ∀ t ∈ ts, ∀ r ∈ outbox, t.eventId ≠ some r.eventId) :
    (∃ outbox' seq', insertRows srv outbox seq ts = (.ok outbox', seq')) ↔
      (∀ t ∈ ts, srv.refuse t = none ∧ t.NotNull ∧ t.Check) ∧ seq.Free outbox ts.length := by
  induction ts generalizing outbox seq with
  | nil => exact ⟨fun _ => ⟨by simp, by simp [Sequence.Free]⟩, fun _ => ⟨outbox, seq, rfl⟩⟩
  | cons t ts ih =>
    rw [List.map_cons, List.nodup_cons] at hnodup
    rw [insertRows, List.forall_mem_cons, List.length_cons]
    by_cases hacc : ∃ row, Accepted srv seq t row
    · obtain ⟨href, hseq, hconform⟩ := exists_accepted_iff.1 hacc
      obtain ⟨row, hacc⟩ := hacc
      have hev : t.eventId = some row.eventId := congrArg Tuple.eventId hacc.columns_eq.symm
      rw [hacc.insertRow outbox, Sequence.free_succ_iff hacc.id_eq]
      by_cases hcol : Collides outbox row
      · rw [if_pos hcol]
        refine ⟨fun ⟨_, _, h⟩ => (nomatch h), fun h => ?_⟩
        obtain ⟨r, hr, hid | hrow⟩ := hcol
        · exact absurd (hid.trans hacc.id_eq) (h.2.1.2 r hr)
        · exact absurd (hev.trans (congrArg some hrow.symm)) (hfresh t (by simp) r hr)
      · have hfree : ∀ r ∈ outbox, r.id ≠ seq.next := fun r hr hid =>
          hcol ⟨r, hr, .inl (hid.trans hacc.id_eq.symm)⟩
        have hfresh' : ∀ u ∈ ts, ∀ r ∈ outbox ++ [row], u.eventId ≠ some r.eventId := by
          intro u hu r hr hur
          rcases List.mem_append.1 hr with hr | hr
          · exact hfresh u (by simp [hu]) r hr hur
          · obtain rfl := List.mem_singleton.1 hr
            exact hnodup.1 (List.mem_map.2 ⟨u, hu, hur.trans hev.symm⟩)
        rw [if_neg hcol]
        refine (ih hnodup.2 hfresh').trans ?_
        exact ⟨fun h => ⟨⟨⟨href, hconform⟩, h.1⟩, ⟨hseq, hfree⟩, h.2⟩,
          fun h => ⟨h.1.2, h.2.2⟩⟩
    · obtain ⟨code, seq', herr, -⟩ := insertRow_of_not_accepted hacc outbox
      rw [herr]
      refine ⟨fun ⟨_, _, h⟩ => (nomatch h), fun h => absurd (exists_accepted_iff.2 ?_) hacc⟩
      have hseq : seq.next + (0 : ℕ) < 2 ^ 63 := (h.2 0 (Nat.succ_pos _)).1
      exact ⟨h.1.1.1, by omega, h.1.1.2⟩

/-- A statement that succeeds adds one row per tuple, in order, with the tuple's columns. -/
theorem insertRows_ok {ts : List Tuple} {outbox outbox' : List OutboxEvent} {seq seq' : Sequence}
    (h : insertRows srv outbox seq ts = (.ok outbox', seq')) :
    ∃ rows, outbox' = outbox ++ rows ∧ rows.map (·.columns) = ts := by
  induction ts generalizing outbox seq with
  | nil =>
    obtain ⟨hout, -⟩ := Prod.mk.inj h
    obtain rfl := Except.ok.inj hout
    exact ⟨[], (List.append_nil _).symm, rfl⟩
  | cons t ts ih =>
    rw [insertRows] at h
    cases hrow : insertRow srv outbox seq t with
    | mk result seq₁ =>
      cases result with
      | error code =>
        rw [hrow] at h
        exact nomatch h
      | ok row =>
        rw [hrow] at h
        obtain ⟨rows, rfl, hcols⟩ := ih h
        exact ⟨row :: rows, by simp, by simp [hcols, insertRow_ok hrow]⟩

end

/-- The row of the plain event. -/
def startedRow (id : ℤ) (u : Uuid) : OutboxEvent :=
  ⟨id, u, "service.started@v1", "service", 0, .null, .object [], .array testCtx.callbacks, none,
    none, none, rfl⟩

end OutboxPublisher
