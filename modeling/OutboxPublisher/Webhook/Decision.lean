import OutboxPublisher.Webhook.Verifier

/-!
# The decision of the verifier

`WebhookVerifier.verify_decision` says, for every input, which result `verify` returns, in terms of
the header's text alone: its trimmed comma-separated parts, the first part with each key
(`FieldText.FirstMatch`), the numerals (`Decimal.IsNumeral`) and the hexadecimal digits
(`Hex.IsDigit`). `HeaderFields` and `MalformedFields` are these conditions; `wellFormed_iff` and
`malformedFields_iff` connect them to the field readers of the code.
-/

namespace OutboxPublisher

open FieldText (FirstMatch)

/-- The header's first `t=` part holds a numeral of value `ts`, and its first `v1=` part holds the
hexadecimal digits of `digest`. -/
def HeaderFields (header : List Char) (ts : UInt64) (digest : Bytes) : Prop :=
  (∃ text, FirstMatch Signing.tKey (Signing.headerParts header) text ∧
    Decimal.IsNumeral text ts.toNat) ∧
  ∃ text, FirstMatch Signing.v1Key (Signing.headerParts header) text ∧
    Hex.decode text = some digest

/-- A field is missing, or the text of its first part does not have the form the field requires: an
optional `+` and digits of a value below `2 ^ 64`, respectively an even number of hexadecimal
digits. -/
def MalformedFields (header : List Char) : Prop :=
  (∀ p ∈ Signing.headerParts header, ¬ Signing.tKey <+: p) ∨
  (∃ text, FirstMatch Signing.tKey (Signing.headerParts header) text ∧
    ¬ ∃ n, Decimal.IsNumeral text n ∧ n < 2 ^ 64) ∨
  (∀ p ∈ Signing.headerParts header, ¬ Signing.v1Key <+: p) ∨
  ∃ text, FirstMatch Signing.v1Key (Signing.headerParts header) text ∧
    ¬ (Even text.length ∧ ∀ c ∈ text, Hex.IsDigit c)

/-- The timestamp reader returns the number of the first `t=` part. Reference: `parse_t_field`
(`webhook/signing.rs:83`). -/
theorem Signing.parseTField_eq_some_iff {header : List Char} {ts : UInt64} :
    parseTField header = some ts ↔
      ∃ text, FirstMatch tKey (headerParts header) text ∧ Decimal.IsNumeral text ts.toNat := by
  rw [parseTField_eq, Option.bind_eq_some_iff]
  simp only [FieldText.lookup_eq_some_iff, parseU64_eq_some_iff]

/-- The timestamp reader fails when the field is missing or its first part holds no number.
Reference: `parse_t_field` (`webhook/signing.rs:83`). -/
theorem Signing.parseTField_eq_none_iff {header : List Char} :
    parseTField header = none ↔ (∀ p ∈ headerParts header, ¬ tKey <+: p) ∨
      ∃ text, FirstMatch tKey (headerParts header) text ∧
        ¬ ∃ n, Decimal.IsNumeral text n ∧ n < 2 ^ 64 := by
  rw [parseTField_eq, ← FieldText.lookup_eq_none_iff]
  simp only [← FieldText.lookup_eq_some_iff, ← parseU64_eq_none_iff]
  cases FieldText.lookup tKey (headerParts header) <;> simp

/-- The digest reader returns the bytes of the first `v1=` part. Reference: `parse_v1_decoded`
(`webhook/signing.rs:63`). -/
theorem Signing.parseV1Decoded_eq_some_iff {header : List Char} {digest : Bytes} :
    parseV1Decoded header = some digest ↔
      ∃ text, FirstMatch v1Key (headerParts header) text ∧ Hex.decode text = some digest := by
  rw [parseV1Decoded_eq, Option.bind_eq_some_iff]
  simp only [FieldText.lookup_eq_some_iff]

/-- The digest reader fails when the field is missing or its first part is no even number of
hexadecimal digits. Reference: `parse_v1_decoded` (`webhook/signing.rs:63`). -/
theorem Signing.parseV1Decoded_eq_none_iff {header : List Char} :
    parseV1Decoded header = none ↔ (∀ p ∈ headerParts header, ¬ v1Key <+: p) ∨
      ∃ text, FirstMatch v1Key (headerParts header) text ∧
        ¬ (Even text.length ∧ ∀ c ∈ text, Hex.IsDigit c) := by
  rw [parseV1Decoded_eq, ← FieldText.lookup_eq_none_iff]
  simp only [← FieldText.lookup_eq_some_iff, ← Hex.decode_isSome_iff, Option.not_isSome_iff_eq_none]
  cases FieldText.lookup v1Key (headerParts header) <;> simp

/-- The readers of the code succeed exactly on the headers with both fields. -/
theorem wellFormed_iff {header : List Char} {ts : UInt64} {digest : Bytes} :
    WellFormed header ts digest ↔ HeaderFields header ts digest := by
  rw [HeaderFields, ← Signing.parseTField_eq_some_iff, ← Signing.parseV1Decoded_eq_some_iff]
  exact ⟨fun h => ⟨h.ts_eq, h.digest_eq⟩, fun h => ⟨h.1, h.2⟩⟩

/-- A reader of the code fails exactly on the headers with a malformed field. -/
theorem malformedFields_iff {header : List Char} :
    MalformedFields header ↔ ¬ ∃ ts digest, WellFormed header ts digest := by
  rw [MalformedFields, ← or_assoc, ← Signing.parseTField_eq_none_iff,
    ← Signing.parseV1Decoded_eq_none_iff]
  constructor
  · rintro (ht | hd) ⟨ts, digest, hw⟩
    · exact nomatch hw.ts_eq.symm.trans ht
    · exact nomatch hw.digest_eq.symm.trans hd
  · intro h
    cases ht : Signing.parseTField header with
    | none => exact .inl rfl
    | some ts =>
      cases hd : Signing.parseV1Decoded header with
      | none => exact .inr rfl
      | some digest => exact absurd ⟨ts, digest, ht, hd⟩ h

namespace WebhookVerifier

variable (hmacSha256 : Bytes → Bytes → Vector UInt8 32)

/-- **The decision of `verify`.** The empty header is missing; any other header with a missing or
ill-formed field is malformed; otherwise a clock before the epoch or too far from the timestamp is
reported first, and then a digest that is not the whole tag of the timestamp and the body. What
remains is accepted. Reference: `WebhookVerifier::verify` (`webhook/mod.rs:125`). -/
theorem verify_decision (v : WebhookVerifier) (now : SystemTime) (header : List Char)
    (body : Bytes) :
    (v.verify hmacSha256 now header body = .error .missingHeader ↔ header = []) ∧
    (v.verify hmacSha256 now header body = .error .malformedHeader ↔
      header ≠ [] ∧ MalformedFields header) ∧
    (v.verify hmacSha256 now header body = .error .timestampOutOfTolerance ↔
      ∃ ts digest, HeaderFields header ts digest ∧
        (now.nanos < 0 ∨ |now.secs - ts.toNat| > v.tolerance.secs.toNat)) ∧
    (v.verify hmacSha256 now header body = .error .invalidSignature ↔
      ∃ ts digest, HeaderFields header ts digest ∧
        (0 ≤ now.nanos ∧ |now.secs - ts.toNat| ≤ v.tolerance.secs.toNat) ∧
        digest ≠ (hmacSha256 v.secret (Signing.message ts body)).toList) ∧
    (v.verify hmacSha256 now header body = .ok () ↔
      ∃ ts digest, HeaderFields header ts digest ∧
        (0 ≤ now.nanos ∧ |now.secs - ts.toNat| ≤ v.tolerance.secs.toNat) ∧
        digest = (hmacSha256 v.secret (Signing.message ts body)).toList) := by
  have hwin : ∀ ts : UInt64, (0 ≤ now.nanos ∧ |now.secs - ts.toNat| ≤ v.tolerance.secs.toNat) ↔
      InWindow v.tolerance now ts := fun _ => Iff.rfl
  simp only [hwin, ← not_inWindow_iff, ← wellFormed_iff, malformedFields_iff]
  rcases header_cases header with rfl | ⟨hne, hbad⟩ | ⟨ts, digest, hw⟩
  · have hno : ∀ ts digest, ¬ WellFormed [] ts digest := fun _ _ hw => hw.ne_nil rfl
    simp [hno]
  · have hno : ∀ ts digest, ¬ WellFormed header ts digest := fun ts digest hw =>
      hbad ⟨ts, digest, hw⟩
    simp [verify_of_not_wellFormed hne hbad, hne, hno]
  · have hone : ∀ (p : UInt64 → Bytes → Prop),
        (∃ ts' digest', WellFormed header ts' digest' ∧ p ts' digest') ↔ p ts digest := by
      refine fun p => ⟨?_, fun hp => ⟨ts, digest, hw, hp⟩⟩
      rintro ⟨ts', digest', hw', hp⟩
      obtain ⟨rfl, rfl⟩ := hw.unique hw'
      exact hp
    have hex : ∃ ts digest, WellFormed header ts digest := ⟨ts, digest, hw⟩
    rw [verify_of_wellFormed hw]
    simp only [hone, hex, not_true_eq_false, and_false, hw.ne_nil]
    by_cases hin : InWindow v.tolerance now ts
    · by_cases hdig : digest = (hmacSha256 v.secret (Signing.message ts body)).toList
      · simp [hin, hdig]
      · simp [hin, hdig]
    · simp [hin]

end WebhookVerifier

end OutboxPublisher
