import OutboxPublisher.Webhook.Authenticity

/-!
# The public digest check

`Signing.verify_iff` says for every header when `Signing.verify` passes: the first `v1=` part holds
the hexadecimal digits of the tag, in letters of either case. From it follow which edits of a digest
are still accepted (`Signing.verify_headerText_iff`), that the `t=` part is not looked at, so that
the timestamp the caller supplies is bound to it only by the digest
(`Signing.verify_mismatch_iff`), and that the check agrees with the verifier
(`WebhookVerifier.verify_agrees`).
-/

namespace OutboxPublisher

open FieldText (FirstMatch)

namespace Signing

/-- Two texts are equal up to the case of ASCII letters. Reference: `str::eq_ignore_ascii_case`. -/
def EqIgnoreAsciiCase (s t : List Char) : Prop :=
  s.map Char.toLower = t.map Char.toLower

instance (s t : List Char) : Decidable (EqIgnoreAsciiCase s t) :=
  inferInstanceAs (Decidable (_ = _))

/-- A text decodes to given bytes exactly when it is their encoding, up to case. Reference:
`hex::decode`. -/
theorem decode_eq_some_iff {s : List Char} {bs : Bytes} :
    Hex.decode s = some bs ↔ EqIgnoreAsciiCase s (Hex.encode bs) := by
  rw [Hex.decode_eq_some_iff, EqIgnoreAsciiCase, Hex.map_toLower_encode]

/-- A text equal to an encoding up to case has its length. -/
theorem EqIgnoreAsciiCase.length_eq {s t : List Char} (h : EqIgnoreAsciiCase s t) :
    s.length = t.length := by
  simpa using congrArg List.length h

section
variable {hmacSha256 : Bytes → Bytes → Vector UInt8 32} {secret body : Bytes} {ts : UInt64}

/-- The check passes exactly when the first `v1=` part holds the digits of the tag of the supplied
timestamp and the body. Reference: `verify` (`webhook/signing.rs:31`). -/
theorem verify_iff {header : List Char} :
    verify hmacSha256 secret ts body header = true ↔
      ∃ text, FirstMatch v1Key (headerParts header) text ∧
        EqIgnoreAsciiCase text (Hex.encode (hmacSha256 secret (message ts body)).toList) := by
  rw [verify_eq, parseV1Decoded_eq]
  simp only [← FieldText.lookup_eq_some_iff, ← decode_eq_some_iff]
  constructor
  · intro h
    cases htext : FieldText.lookup v1Key (headerParts header) with
    | none =>
      rw [htext] at h
      cases h
    | some text =>
      cases hdec : Hex.decode text with
      | none =>
        rw [htext, Option.bind_some, hdec] at h
        cases h
      | some digest =>
        rw [htext, Option.bind_some, hdec, Option.map_some, Option.getD_some,
          verifyDecoded_iff] at h
        exact ⟨text, rfl, by rw [hdec, h]⟩
  · rintro ⟨text, htext, hdec⟩
    rw [htext, Option.bind_some, hdec, Option.map_some, Option.getD_some, verifyDecoded_iff]

/-- The digest text of a header `t={ts},v1={h}`. -/
theorem firstMatch_headerText {h text : List Char} (hcomma : ',' ∉ h) :
    FirstMatch v1Key (headerParts (headerText ts h)) text ↔ text = trimEnd h := by
  have hkey : ¬ v1Key <+: tKey ++ formatU64 ts := fun hpre =>
    absurd (List.cons_prefix_cons.1 hpre).1 (by decide)
  rw [← FieldText.lookup_eq_some_iff, headerParts_headerText ts hcomma,
    FieldText.lookup_cons_of_not_prefix hkey, FieldText.lookup_cons_self, Option.some.injEq]
  exact eq_comm

end

/-! ## Edits of the digest -/

/-- **Digest tampering is detected, exactly.** Of the texts without a comma after `v1=` the check
accepts those that are, without whitespace at their end, the 64 digits of the tag in either case.
Reference: `verify` (`webhook/signing.rs:31`). -/
theorem verify_headerText_iff (hmacSha256 : Bytes → Bytes → Vector UInt8 32) (secret : Bytes)
    (ts : UInt64) (body : Bytes) (h : List Char) (hcomma : ',' ∉ h) :
    verify hmacSha256 secret ts body (headerText ts h) = true ↔
      (trimEnd h).length = 64 ∧ EqIgnoreAsciiCase (trimEnd h)
        (Hex.encode (hmacSha256 secret (message ts body)).toList) := by
  rw [verify_iff]
  simp only [firstMatch_headerText hcomma]
  constructor
  · rintro ⟨text, rfl, heq⟩
    refine ⟨?_, heq⟩
    rw [heq.length_eq, Hex.length_encode, Vector.length_toList]
  · intro hdigits
    exact ⟨_, rfl, hdigits.2⟩

/-- The digest of an empty body at the epoch, followed by a space. -/
theorem verify_headerText_iff_epoch :
    verify (fun _ _ => epochTag) [] 0 []
        (headerText 0 (Hex.encode epochTag.toList ++ [' '])) = true ↔
      (trimEnd (Hex.encode epochTag.toList ++ [' '])).length = 64 ∧
        EqIgnoreAsciiCase (trimEnd (Hex.encode epochTag.toList ++ [' ']))
          (Hex.encode epochTag.toList) :=
  verify_headerText_iff (fun _ _ => epochTag) [] 0 [] _ (by decide)

/-! ## The timestamp of the header -/

/-- **The `t=` part is not looked at.** The check refuses a header with another timestamp, or with
none, exactly when it would refuse it with the right one: unless the digest is the tag of the
supplied timestamp. Reference: `verify` (`webhook/signing.rs:31`). -/
theorem verify_mismatch_iff (hmacSha256 : Bytes → Bytes → Vector UInt8 32) (secret : Bytes)
    (ts : UInt64) (body : Bytes) (header : List Char) :
    (parseTField header ≠ some ts → verify hmacSha256 secret ts body header = false) ↔
      parseTField header = some ts ∨
        ¬ ∃ text, FirstMatch v1Key (headerParts header) text ∧
          EqIgnoreAsciiCase text (Hex.encode (hmacSha256 secret (message ts body)).toList) := by
  rw [← verify_iff, Bool.not_eq_true, ne_eq, or_iff_not_imp_left]

/-- A digest issued for one timestamp passes under it in a header with any other. Reference:
`verify` (`webhook/signing.rs:31`). -/
theorem verify_of_issued (hmacSha256 : Bytes → Bytes → Vector UInt8 32) (secret : Bytes)
    (ts ts' : UInt64) (body : Bytes) :
    verify hmacSha256 secret ts body
      (headerText ts' (Hex.encode (hmacSha256 secret (message ts body)).toList)) = true := by
  have hdigits : ∀ c ∈ Hex.encode (hmacSha256 secret (message ts body)).toList,
      isWhitespace c = false ∧ c ≠ ',' :=
    fun c hc => hexDigit_not_blank (Hex.isDigit_of_mem_encode hc)
  rw [verify_iff]
  refine ⟨_, (firstMatch_headerText (part_not_blank hdigits).2).2 rfl, ?_⟩
  rw [trimEnd_digits hdigits]
  rfl

/-- The digest of an empty body at the epoch passes at the epoch in a header whose timestamp is
nine. -/
theorem verify_of_edited_timestamp :
    ¬ ∀ (secret : Bytes) (ts : UInt64) (body : Bytes) (header : List Char),
      parseTField header ≠ some ts →
        verify (fun _ _ => epochTag) secret ts body header = false := by
  intro hclaim
  have hfalse := hclaim [] 0 [] (headerText 9 (Hex.encode epochTag.toList)) (by decide)
  rw [verify_of_issued (fun _ _ => epochTag) [] 0 9 []] at hfalse
  cases hfalse

/-! ## The two verification paths -/

/-- The check of a header against a clock and a window through the public check, which takes a clock
before the epoch to be at it. Reference: `verify_header` (`webhook/signing.rs:169`). -/
def verifyHeader (hmacSha256 : Bytes → Bytes → Vector UInt8 32) (now : SystemTime)
    (secret body : Bytes) (headerValue : List Char) (maxAge : Duration) : Bool :=
  match parseTField headerValue with
  | none => false
  | some ts =>
    let now := match now.durationSinceEpoch with
      | .ok d => d.asSecs
      | .error _ => 0
    let toleranceSecs := maxAge.asSecs
    if absDiff now ts > toleranceSecs then false
    else verify hmacSha256 secret ts body headerValue

section
variable {hmacSha256 : Bytes → Bytes → Vector UInt8 32} {secret body : Bytes} {ts : UInt64}
  {now : SystemTime} {header : List Char}

/-- What the check of a header against a clock comes to from the epoch on. Reference:
`verify_header` (`webhook/signing.rs:169`). -/
theorem verifyHeader_iff {maxAge : Duration} (hnow : 0 ≤ now.nanos) :
    verifyHeader hmacSha256 now secret body header maxAge = true ↔
      ∃ ts, parseTField header = some ts ∧ InWindow maxAge now ts ∧
        verify hmacSha256 secret ts body header = true := by
  obtain ⟨d, hd, hsecs⟩ := SystemTime.durationSinceEpoch_of_nonneg hnow
  rw [verifyHeader]
  cases hts : parseTField header with
  | none => simp
  | some ts =>
    simp only [hd, Option.some.injEq, exists_eq_left']
    rw [← not_not (a := InWindow maxAge now ts), ← absDiff_le_iff hnow hsecs]
    by_cases hwin : absDiff d.asSecs ts > maxAge.asSecs
    · simp [hwin]
    · simp [hwin]

/-- The public check passes on a well-formed header exactly when its digest is the tag. Reference:
`verify` (`webhook/signing.rs:31`). -/
theorem verify_of_wellFormed {ts' : UInt64} {digest : Bytes} (hw : WellFormed header ts' digest) :
    verify hmacSha256 secret ts body header = true ↔
      digest = (hmacSha256 secret (message ts body)).toList := by
  rw [verify_eq, hw.digest_eq, Option.map_some, Option.getD_some, verifyDecoded_iff]

/-- The public check passes on headers with a digest only. Reference: `verify`
(`webhook/signing.rs:31`). -/
theorem wellFormed_of_verify (hts : parseTField header = some ts)
    (h : verify hmacSha256 secret ts body header = true) :
    ∃ digest, WellFormed header ts digest := by
  rw [verify_eq] at h
  cases hd : parseV1Decoded header with
  | none =>
    rw [hd] at h
    cases h
  | some digest => exact ⟨digest, hts, hd⟩

end

end Signing

namespace WebhookVerifier

/-- **The two paths agree.** From the epoch on the verifier accepts a header exactly when its
timestamp parses, is in the window, and passes the public check; this is what `verify_header`
computes. A header whose timestamp parses and is in the window but which fails the public check is
malformed or has an invalid signature. Reference: `WebhookVerifier::verify`
(`webhook/mod.rs:125`). -/
theorem verify_agrees (hmacSha256 : Bytes → Bytes → Vector UInt8 32) (v : WebhookVerifier)
    (now : SystemTime) (hnow : 0 ≤ now.nanos) (header : List Char) (body : Bytes) :
    (v.verify hmacSha256 now header body = .ok () ↔
      ∃ ts, Signing.parseTField header = some ts ∧
        |now.secs - ts.toNat| ≤ v.tolerance.secs.toNat ∧
        Signing.verify hmacSha256 v.secret ts body header = true) ∧
    (v.verify hmacSha256 now header body = .ok () ↔
      Signing.verifyHeader hmacSha256 now v.secret body header v.tolerance = true) ∧
    ∀ ts, Signing.parseTField header = some ts →
      |now.secs - ts.toNat| ≤ v.tolerance.secs.toNat →
      Signing.verify hmacSha256 v.secret ts body header = false →
        v.verify hmacSha256 now header body = .error .malformedHeader ∨
          v.verify hmacSha256 now header body = .error .invalidSignature := by
  have hok : v.verify hmacSha256 now header body = .ok () ↔
      ∃ ts, Signing.parseTField header = some ts ∧ InWindow v.tolerance now ts ∧
        Signing.verify hmacSha256 v.secret ts body header = true := by
    rw [verify_eq_ok_iff]
    constructor
    · rintro ⟨ts, digest, hw, hin, hdig⟩
      exact ⟨ts, hw.ts_eq, hin, (Signing.verify_of_wellFormed hw).2 hdig⟩
    · rintro ⟨ts, hts, hin, hver⟩
      obtain ⟨digest, hw⟩ := Signing.wellFormed_of_verify hts hver
      exact ⟨ts, digest, hw, hin, (Signing.verify_of_wellFormed hw).1 hver⟩
  have hwin : ∀ ts : UInt64, |now.secs - ts.toNat| ≤ v.tolerance.secs.toNat ↔
      InWindow v.tolerance now ts := fun ts => ⟨fun h => ⟨hnow, h⟩, fun h => h.2⟩
  refine ⟨?_, ?_, ?_⟩
  · rw [hok]
    simp only [hwin]
  · rw [hok, Signing.verifyHeader_iff hnow]
  · intro ts hts hin hver
    rcases header_cases header with rfl | ⟨hne, hbad⟩ | ⟨ts', digest, hw⟩
    · cases hts
    · exact .inl (verify_of_not_wellFormed hne hbad)
    · obtain rfl : ts' = ts := Option.some.inj (hw.ts_eq.symm.trans hts)
      rw [← Bool.not_eq_true, Signing.verify_of_wellFormed hw] at hver
      right
      rw [WebhookVerifier.verify_of_wellFormed hw, if_pos ((hwin ts').1 hin), if_neg hver]

/-- The two paths two and a half seconds after the epoch, on the header of an empty body signed at
the epoch and on one with a digest of a single byte. -/
theorem verify_agrees_epoch :
    (verify (fun _ _ => epochTag) ⟨[], Duration.fromSecs 3⟩ ⟨2500000000, by decide⟩
        (Signing.sign (fun _ _ => epochTag) [] 0 []) [] = .ok () ↔
      Signing.verifyHeader (fun _ _ => epochTag) ⟨2500000000, by decide⟩ [] []
        (Signing.sign (fun _ _ => epochTag) [] 0 []) (Duration.fromSecs 3) = true) ∧
    (verify (fun _ _ => epochTag) ⟨[], Duration.fromSecs 3⟩ ⟨2500000000, by decide⟩
        (Signing.headerText 0 ['0', '0']) [] = .error .malformedHeader ∨
      verify (fun _ _ => epochTag) ⟨[], Duration.fromSecs 3⟩ ⟨2500000000, by decide⟩
        (Signing.headerText 0 ['0', '0']) [] = .error .invalidSignature) :=
  ⟨(verify_agrees (fun _ _ => epochTag) ⟨[], Duration.fromSecs 3⟩ ⟨2500000000, by decide⟩
      (by decide) _ []).2.1,
    (verify_agrees (fun _ _ => epochTag) ⟨[], Duration.fromSecs 3⟩ ⟨2500000000, by decide⟩
      (by decide) _ []).2.2 0 (by decide) (by decide) (by decide)⟩

end WebhookVerifier

end OutboxPublisher
