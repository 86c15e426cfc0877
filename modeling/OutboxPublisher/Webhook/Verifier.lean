import OutboxPublisher.Event
import OutboxPublisher.Webhook.Header
import Mathlib.Algebra.Order.Group.Unbundled.Abs
import Mathlib.Algebra.Order.Group.Int

/-!
# The webhook verifier

`WebhookVerifier.verify` and the two entry points that parse the body after it. The clock is an
argument, an exact reading of nanoseconds since the Unix epoch on either side of it; durations and
timestamps are the 64-bit quantities of the code. The JSON reader of an envelope is a parameter.

`verify_of_wellFormed` and `verify_of_not_wellFormed` say what `verify` returns, with the window
test over exact integers (`InWindow`); everything else about the verifier follows from them.
-/

namespace OutboxPublisher

/-- A span of time: whole seconds and nanoseconds below a second. Reference:
`std::time::Duration`. -/
structure Duration where
  secs : UInt64
  nanos : ℕ
  nanos_lt : nanos < 10 ^ 9

/-- The whole seconds of a span. Reference: `Duration::as_secs`. -/
def Duration.asSecs (d : Duration) : UInt64 :=
  d.secs

/-- A span of whole seconds. Reference: `Duration::from_secs`. -/
def Duration.fromSecs (secs : UInt64) : Duration :=
  ⟨secs, 0, by decide⟩

/-- The exact length of a span in nanoseconds. Reference: `Duration::as_nanos`. -/
def Duration.asNanos (d : Duration) : ℕ :=
  d.secs.toNat * 10 ^ 9 + d.nanos

/-- A clock reading, in nanoseconds since the Unix epoch; its distance from the epoch is a
`Duration`. Reference: `std::time::SystemTime`. -/
structure SystemTime where
  nanos : ℤ
  nanos_lt : nanos < 2 ^ 64 * 10 ^ 9

/-- The whole seconds since the epoch, rounded down. -/
def SystemTime.secs (t : SystemTime) : ℤ :=
  t.nanos / 10 ^ 9

/-- The time since the epoch, an error for a reading before it. Reference:
`SystemTime::duration_since(UNIX_EPOCH)`. -/
def SystemTime.durationSinceEpoch (t : SystemTime) : Except String Duration :=
  if 0 ≤ t.nanos then
    .ok ⟨UInt64.ofNat (t.nanos.toNat / 10 ^ 9), t.nanos.toNat % 10 ^ 9, Nat.mod_lt _ (by decide)⟩
  else .error "second time provided was later than self"

/-- The distance of two numbers. Reference: `u64::abs_diff`. -/
def absDiff (a b : UInt64) : UInt64 :=
  if a < b then b - a else a - b

/-- The success of an option, or the given error. Reference: `Option::ok_or`. -/
def okOr {α ε : Type} (x : Option α) (e : ε) : Except ε α :=
  match x with
  | some a => .ok a
  | none => .error e

/-- The JSON body the dispatcher posts, generic over payload and metadata; `createdAt` is kept as
nanoseconds since the epoch. Reference: `WebhookEnvelope` (`webhook/mod.rs:42`). -/
structure WebhookEnvelope (E M : Type) where
  deliveryId : Int64
  eventId : Uuid
  kind : String
  callbackName : String
  mode : String
  aggregateType : String
  aggregateId : Uuid
  payload : E
  metadata : M
  actorId : Option Uuid
  correlationId : Option Uuid
  causationId : Option Uuid
  createdAt : ℤ
  attempt : Int32

/-- The secret and the replay window of a receiver. Reference: `WebhookVerifier`
(`webhook/mod.rs:82`). -/
structure WebhookVerifier where
  secret : Bytes
  tolerance : Duration

namespace WebhookVerifier

/-- A verifier with a window of five minutes. Reference: `WebhookVerifier::new`
(`webhook/mod.rs:98`). -/
def new (secret : Bytes) : WebhookVerifier :=
  ⟨secret, Duration.fromSecs 300⟩

/-- Override the window. Reference: `with_tolerance` (`webhook/mod.rs:106`). -/
def withTolerance (v : WebhookVerifier) (tolerance : Duration) : WebhookVerifier :=
  { v with tolerance := tolerance }

section
variable (hmacSha256 : Bytes → Bytes → Vector UInt8 32)

/-- Check the signature header against the raw body, at a clock reading. Reference:
`WebhookVerifier::verify` (`webhook/mod.rs:125`). -/
def verify (v : WebhookVerifier) (now : SystemTime) (signatureHeader : List Char) (body : Bytes) :
    Except VerifyError Unit := do
  if signatureHeader.isEmpty then
    throw .missingHeader
  let ts ← okOr (Signing.parseTField signatureHeader) .malformedHeader
  let decoded ← okOr (Signing.parseV1Decoded signatureHeader) .malformedHeader
  let now ← now.durationSinceEpoch.mapError fun _ => .timestampOutOfTolerance
  let now := now.asSecs
  let toleranceSecs := v.tolerance.asSecs
  if absDiff now ts > toleranceSecs then
    throw .timestampOutOfTolerance
  if !Signing.verifyDecoded hmacSha256 v.secret ts body decoded then
    throw .invalidSignature
  return ()

/-- Check the signature, then read the envelope with a metadata type of the caller's choice.
Reference: `verify_and_parse_with_metadata` (`webhook/mod.rs:187`). -/
def verifyAndParseWithMetadata {E M : Type}
    (fromSlice : Bytes → Except JsonError (WebhookEnvelope E M)) (v : WebhookVerifier)
    (now : SystemTime) (signatureHeader : List Char) (body : Bytes) :
    Except VerifyError (WebhookEnvelope E M) := do
  v.verify hmacSha256 now signatureHeader body
  let envelope ← (fromSlice body).mapError .bodyParse
  return envelope

/-- Check the signature, then read the envelope with raw JSON metadata. Reference:
`verify_and_parse` (`webhook/mod.rs:165`). -/
def verifyAndParse {E : Type} (fromSlice : Bytes → Except JsonError (WebhookEnvelope E Value))
    (v : WebhookVerifier) (now : SystemTime) (signatureHeader : List Char) (body : Bytes) :
    Except VerifyError (WebhookEnvelope E Value) := do
  v.verify hmacSha256 now signatureHeader body
  let envelope ← (fromSlice body).mapError .bodyParse
  return envelope

end

end WebhookVerifier

/-! ## The window over exact integers -/

/-- The reading is at or after the epoch, and its whole seconds are at most the whole seconds of
the tolerance away from the timestamp. -/
def InWindow (tolerance : Duration) (now : SystemTime) (ts : UInt64) : Prop :=
  0 ≤ now.nanos ∧ |now.secs - ts.toNat| ≤ tolerance.secs.toNat

instance (tolerance : Duration) (now : SystemTime) (ts : UInt64) :
    Decidable (InWindow tolerance now ts) :=
  inferInstanceAs (Decidable (_ ∧ _))

/-- Outside the window the clock is before the epoch or too far from the timestamp. -/
theorem not_inWindow_iff {tolerance : Duration} {now : SystemTime} {ts : UInt64} :
    ¬ InWindow tolerance now ts ↔
      now.nanos < 0 ∨ |now.secs - ts.toNat| > tolerance.secs.toNat := by
  rw [InWindow, not_and_or, not_le, not_le]

/-- The distance of two 64-bit numbers is their distance. Reference: `u64::abs_diff`. -/
theorem toNat_absDiff (a b : UInt64) : ((absDiff a b).toNat : ℤ) = |(a.toNat : ℤ) - b.toNat| := by
  unfold absDiff
  split
  · next h =>
    have hlt := UInt64.lt_iff_toNat_lt.1 h
    rw [UInt64.toNat_sub_of_le _ _ (UInt64.le_iff_toNat_le.2 hlt.le), abs_of_nonpos (by omega)]
    omega
  · next h =>
    have hle : b.toNat ≤ a.toNat := by
      rw [UInt64.lt_iff_toNat_lt] at h
      omega
    rw [UInt64.toNat_sub_of_le _ _ (UInt64.le_iff_toNat_le.2 hle), abs_of_nonneg (by omega)]
    omega

/-- At or after the epoch the time since it has the whole seconds of the reading. -/
theorem SystemTime.durationSinceEpoch_of_nonneg {t : SystemTime} (h : 0 ≤ t.nanos) :
    ∃ d, t.durationSinceEpoch = .ok d ∧ (d.asSecs.toNat : ℤ) = t.secs := by
  refine ⟨_, by rw [durationSinceEpoch, if_pos h], ?_⟩
  have hlt := t.nanos_lt
  show ((UInt64.ofNat (t.nanos.toNat / 10 ^ 9)).toNat : ℤ) = t.nanos / 10 ^ 9
  rw [UInt64.toNat_ofNat_of_lt' (by simp only [UInt64.size]; omega)]
  omega

/-- Before the epoch there is no time since it. -/
theorem SystemTime.durationSinceEpoch_of_neg {t : SystemTime} (h : ¬ 0 ≤ t.nanos) :
    ∃ e, t.durationSinceEpoch = .error e :=
  ⟨_, by rw [durationSinceEpoch, if_neg h]⟩

/-- From the epoch on the comparison of whole seconds is the window test. -/
theorem absDiff_le_iff {tolerance d : Duration} {now : SystemTime} {ts : UInt64}
    (hnow : 0 ≤ now.nanos) (hd : (d.asSecs.toNat : ℤ) = now.secs) :
    absDiff d.asSecs ts > tolerance.asSecs ↔ ¬ InWindow tolerance now ts := by
  rw [InWindow, gt_iff_lt, UInt64.lt_iff_toNat_lt, ← hd, ← toNat_absDiff, Duration.asSecs]
  omega

/-! ## What `verify` returns -/

/-- The header has a number in its first `t=` field and hexadecimal bytes in its first `v1=`
field. -/
structure WellFormed (header : List Char) (ts : UInt64) (digest : Bytes) : Prop where
  ts_eq : Signing.parseTField header = some ts
  digest_eq : Signing.parseV1Decoded header = some digest

/-- A header is well formed in one way. -/
theorem WellFormed.unique {header : List Char} {ts ts' : UInt64} {digest digest' : Bytes}
    (h : WellFormed header ts digest) (h' : WellFormed header ts' digest') :
    ts = ts' ∧ digest = digest' :=
  ⟨Option.some.inj (h.ts_eq.symm.trans h'.ts_eq),
    Option.some.inj (h.digest_eq.symm.trans h'.digest_eq)⟩

/-- The empty header is not well formed. -/
theorem WellFormed.ne_nil {header : List Char} {ts : UInt64} {digest : Bytes}
    (h : WellFormed header ts digest) : header ≠ [] := by
  rintro rfl
  exact nomatch h.ts_eq

namespace WebhookVerifier

section
variable {hmacSha256 : Bytes → Bytes → Vector UInt8 32} {v : WebhookVerifier} {now : SystemTime}
  {header : List Char} {body : Bytes}

/-- The empty header is missing. -/
@[simp] theorem verify_nil : v.verify hmacSha256 now [] body = .error .missingHeader := rfl

/-- On a well-formed header the window is tested first, then the whole tag. -/
theorem verify_of_wellFormed {ts : UInt64} {digest : Bytes} (h : WellFormed header ts digest) :
    v.verify hmacSha256 now header body =
      if InWindow v.tolerance now ts then
        if digest = (hmacSha256 v.secret (Signing.message ts body)).toList then .ok ()
        else .error .invalidSignature
      else .error .timestampOutOfTolerance := by
  have hemp : header.isEmpty = false := by simpa using h.ne_nil
  simp only [verify, hemp, h.ts_eq, h.digest_eq, okOr, bind, Except.bind, pure, Except.pure,
    Bool.false_eq_true, if_false]
  by_cases hnow : 0 ≤ now.nanos
  · obtain ⟨d, hd, hsecs⟩ := SystemTime.durationSinceEpoch_of_nonneg hnow
    have hwin : absDiff d.asSecs ts > v.tolerance.asSecs ↔ ¬ InWindow v.tolerance now ts :=
      absDiff_le_iff hnow hsecs
    rw [hd]
    by_cases hw : InWindow v.tolerance now ts
    · simp only [Except.mapError, hwin, hw, not_true_eq_false, if_false, if_true]
      by_cases hdig : digest = (hmacSha256 v.secret (Signing.message ts body)).toList
      · rw [(Signing.verifyDecoded_iff hmacSha256).2 hdig, if_pos hdig]
        rfl
      · have hver : Signing.verifyDecoded hmacSha256 v.secret ts body digest = false := by
          rw [← Bool.not_eq_true, Signing.verifyDecoded_iff]
          exact hdig
        rw [hver, if_neg hdig]
        rfl
    · simp only [Except.mapError, hwin, hw, not_false_eq_true, if_true, if_false]
      rfl
  · obtain ⟨e, he⟩ := SystemTime.durationSinceEpoch_of_neg hnow
    have hw : ¬ InWindow v.tolerance now ts := fun hw => hnow hw.1
    rw [he, if_neg hw]
    rfl

/-- A header that is neither empty nor well formed is malformed. -/
theorem verify_of_not_wellFormed (hne : header ≠ [])
    (h : ¬ ∃ ts digest, WellFormed header ts digest) :
    v.verify hmacSha256 now header body = .error .malformedHeader := by
  have hemp : header.isEmpty = false := by simpa using hne
  simp only [verify, hemp, bind, Except.bind, pure, Except.pure, Bool.false_eq_true, if_false]
  cases ht : Signing.parseTField header with
  | none => rfl
  | some ts =>
    cases hd : Signing.parseV1Decoded header with
    | none => rfl
    | some digest => exact absurd ⟨ts, digest, ht, hd⟩ h

/-- A well-formed header is accepted when it is in the window and carries the whole tag. -/
theorem verify_eq_ok_iff_of_wellFormed {ts : UInt64} {digest : Bytes}
    (hw : WellFormed header ts digest) : v.verify hmacSha256 now header body = .ok () ↔
      InWindow v.tolerance now ts ∧
        digest = (hmacSha256 v.secret (Signing.message ts body)).toList := by
  rw [verify_of_wellFormed hw]
  split_ifs with hin hdig
  · simp [hin, hdig]
  · simp [hdig]
  · simp [hin]

/-- A well-formed header is out of tolerance when it is not in the window, whatever its tag. -/
theorem verify_eq_stale_iff_of_wellFormed {ts : UInt64} {digest : Bytes}
    (hw : WellFormed header ts digest) :
    v.verify hmacSha256 now header body = .error .timestampOutOfTolerance ↔
      ¬ InWindow v.tolerance now ts := by
  rw [verify_of_wellFormed hw]
  split_ifs with hin hdig <;> simp [hin]

/-- A header is accepted when it is well formed, in the window, and carries the whole tag of its
timestamp and the body. -/
theorem verify_eq_ok_iff : v.verify hmacSha256 now header body = .ok () ↔
    ∃ ts digest, WellFormed header ts digest ∧ InWindow v.tolerance now ts ∧
      digest = (hmacSha256 v.secret (Signing.message ts body)).toList := by
  constructor
  · intro hok
    by_cases hw : ∃ ts digest, WellFormed header ts digest
    · obtain ⟨ts, digest, hw⟩ := hw
      exact ⟨ts, digest, hw, (verify_eq_ok_iff_of_wellFormed hw).1 hok⟩
    · by_cases hne : header = []
      · subst hne
        exact nomatch hok
      · rw [verify_of_not_wellFormed hne hw] at hok
        exact nomatch hok
  · rintro ⟨ts, digest, hw, hok⟩
    exact (verify_eq_ok_iff_of_wellFormed hw).2 hok

/-- The three kinds of headers: empty, malformed, well formed. -/
theorem header_cases (header : List Char) :
    header = [] ∨ (header ≠ [] ∧ ¬ ∃ ts digest, WellFormed header ts digest) ∨
      ∃ ts digest, WellFormed header ts digest := by
  by_cases hw : ∃ ts digest, WellFormed header ts digest
  · exact .inr (.inr hw)
  · by_cases hne : header = []
    · exact .inl hne
    · exact .inr (.inl ⟨hne, hw⟩)

end

end WebhookVerifier

end OutboxPublisher
