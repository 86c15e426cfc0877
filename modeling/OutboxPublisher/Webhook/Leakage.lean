import OutboxPublisher.Webhook.Verifier

/-!
# What an error reveals

A caller who holds no secret sees which error a request ends in. `EntryPoint` is either of the two
functions that verify and then parse, with the deserialiser it is instantiated at, and
`EntryPoint.run_of_error` and `EntryPoint.run_of_ok` say that both run the deserialiser on a
verified body only. The errors about the header are a function of the header, the clock and the
tolerance (`verify_headerError_iff`), so they say nothing about the secret or the body:
`errors_leak_nothing`.
-/

namespace OutboxPublisher

/-- The errors found before the secret or the body is looked at. -/
def VerifyError.IsHeaderError (e : VerifyError) : Prop :=
  e = .missingHeader ∨ e = .malformedHeader ∨ e = .timestampOutOfTolerance

namespace WebhookVerifier

section
variable {hmacSha256 : Bytes → Bytes → Vector UInt8 32} {now : SystemTime} {header : List Char}

/-- The verification does not parse the body. Reference: `WebhookVerifier::verify`
(`webhook/mod.rs:125`). -/
theorem verify_ne_bodyParse {v : WebhookVerifier} {body : Bytes} (j : JsonError) :
    v.verify hmacSha256 now header body ≠ .error (.bodyParse j) := by
  rcases header_cases header with rfl | ⟨hne, hbad⟩ | ⟨ts, digest, hw⟩
  · simp
  · simp [verify_of_not_wellFormed hne hbad]
  · rw [verify_of_wellFormed hw]
    split_ifs <;> simp

/-- The header errors do not depend on the secret or the body. Reference: `WebhookVerifier::verify`
(`webhook/mod.rs:125`). -/
theorem verify_headerError_iff {tolerance : Duration} {secret secret' body body' : Bytes}
    {e : VerifyError} (he : e.IsHeaderError) :
    verify hmacSha256 ⟨secret, tolerance⟩ now header body = .error e ↔
      verify hmacSha256 ⟨secret', tolerance⟩ now header body' = .error e := by
  rcases header_cases header with rfl | ⟨hne, hbad⟩ | ⟨ts, digest, hw⟩
  · rw [verify_nil, verify_nil]
  · rw [verify_of_not_wellFormed hne hbad, verify_of_not_wellFormed hne hbad]
  · rw [verify_of_wellFormed hw, verify_of_wellFormed hw]
    by_cases hin : InWindow tolerance now ts
    · -- In the window only the tag is left to compare, and its error is no header error.
      rw [if_pos hin, if_pos hin]
      rcases he with rfl | rfl | rfl
      · split_ifs <;> simp
      · split_ifs <;> simp
      · split_ifs <;> simp
    · rw [if_neg hin, if_neg hin]

end

end WebhookVerifier

/-- A function that verifies and parses, instantiated at a deserialiser. -/
inductive EntryPoint : Type → Type → Type 1
  | verifyAndParse {E : Type} (fromSlice : Bytes → Except JsonError (WebhookEnvelope E Value)) :
      EntryPoint E Value
  | verifyAndParseWithMetadata {E M : Type}
      (fromSlice : Bytes → Except JsonError (WebhookEnvelope E M)) : EntryPoint E M

namespace EntryPoint

variable {E M E' M' : Type}

/-- The deserialiser of an entry point. Reference: `serde_json::from_slice`. -/
def fromSlice : EntryPoint E M → Bytes → Except JsonError (WebhookEnvelope E M)
  | .verifyAndParse f => f
  | .verifyAndParseWithMetadata f => f

section
variable (hmacSha256 : Bytes → Bytes → Vector UInt8 32)

/-- The run of an entry point on a request. Reference: `verify_and_parse` and
`verify_and_parse_with_metadata` (`webhook/mod.rs:165`, `:187`). -/
def run : EntryPoint E M → WebhookVerifier → SystemTime → List Char → Bytes →
    Except VerifyError (WebhookEnvelope E M)
  | .verifyAndParse f => WebhookVerifier.verifyAndParse hmacSha256 f
  | .verifyAndParseWithMetadata f => WebhookVerifier.verifyAndParseWithMetadata hmacSha256 f

end

section
variable {hmacSha256 : Bytes → Bytes → Vector UInt8 32} {p : EntryPoint E M}
  {v : WebhookVerifier} {now : SystemTime} {header : List Char} {body : Bytes}

/-- A body that does not verify is not parsed: the run ends in the error of the verification. -/
theorem run_of_error {e : VerifyError} (h : v.verify hmacSha256 now header body = .error e) :
    p.run hmacSha256 v now header body = .error e := by
  cases p with
  | verifyAndParse f =>
    rw [run, WebhookVerifier.verifyAndParse, h]
    rfl
  | verifyAndParseWithMetadata f =>
    rw [run, WebhookVerifier.verifyAndParseWithMetadata, h]
    rfl

/-- A body that verifies is parsed, and the run ends as the deserialiser does. -/
theorem run_of_ok (h : v.verify hmacSha256 now header body = .ok ()) :
    p.run hmacSha256 v now header body = (p.fromSlice body).mapError .bodyParse := by
  cases p with
  | verifyAndParse f =>
    rw [run, WebhookVerifier.verifyAndParse, h]
    rfl
  | verifyAndParseWithMetadata f =>
    rw [run, WebhookVerifier.verifyAndParseWithMetadata, h]
    rfl

/-- A run ends in a header error exactly when the verification does. -/
theorem run_headerError_iff {e : VerifyError} (he : e.IsHeaderError) :
    p.run hmacSha256 v now header body = .error e ↔
      v.verify hmacSha256 now header body = .error e := by
  cases hv : v.verify hmacSha256 now header body with
  | error e' =>
    rw [run_of_error hv]
    simp
  | ok u =>
    cases u
    rw [run_of_ok hv]
    cases p.fromSlice body with
    | ok envelope => simp [Except.mapError]
    | error j =>
      rcases he with rfl | rfl | rfl
      · simp [Except.mapError]
      · simp [Except.mapError]
      · simp [Except.mapError]

/-- A run gets past the verification only when the verification succeeds: it returns an envelope or
an error of the deserialiser on a verified body only. -/
theorem verify_of_run (h : (∃ envelope, p.run hmacSha256 v now header body = .ok envelope) ∨
    ∃ j, p.run hmacSha256 v now header body = .error (.bodyParse j)) :
    v.verify hmacSha256 now header body = .ok () := by
  cases hv : v.verify hmacSha256 now header body with
  | ok u => rfl
  | error e =>
    rw [run_of_error hv] at h
    rcases h with ⟨envelope, h⟩ | ⟨j, h⟩
    · cases h
    · cases h
      exact absurd hv (WebhookVerifier.verify_ne_bodyParse j)

end

end EntryPoint

/-- **Errors leak nothing.** Whether a run of either entry point ends in a given header error is the
same for all secrets, all bodies and all deserialisers; a body that does not verify has one error,
whichever entry point and deserialiser run on it; and an envelope or an error of the deserialiser
is returned on a verified body only. Reference: `verify_and_parse` and
`verify_and_parse_with_metadata` (`webhook/mod.rs:165`, `:187`). -/
theorem errors_leak_nothing (hmacSha256 : Bytes → Bytes → Vector UInt8 32) (tolerance : Duration)
    (now : SystemTime) (header : List Char) :
    (∀ {E M E' M' : Type} (p : EntryPoint E M) (p' : EntryPoint E' M') (secret secret' : Bytes)
      (body body' : Bytes) (e : VerifyError), e.IsHeaderError →
      (p.run hmacSha256 ⟨secret, tolerance⟩ now header body = .error e ↔
        p'.run hmacSha256 ⟨secret', tolerance⟩ now header body' = .error e)) ∧
    (∀ (secret body : Bytes),
      WebhookVerifier.verify hmacSha256 ⟨secret, tolerance⟩ now header body ≠ .ok () →
      ∃ e, ∀ {E M : Type} (p : EntryPoint E M),
        p.run hmacSha256 ⟨secret, tolerance⟩ now header body = .error e) ∧
    ∀ {E M : Type} (p : EntryPoint E M) (secret body : Bytes),
      ((∃ envelope, p.run hmacSha256 ⟨secret, tolerance⟩ now header body = .ok envelope) ∨
        ∃ j, p.run hmacSha256 ⟨secret, tolerance⟩ now header body = .error (.bodyParse j)) →
      WebhookVerifier.verify hmacSha256 ⟨secret, tolerance⟩ now header body = .ok () := by
  refine ⟨?_, ?_, ?_⟩
  · intro E M E' M' p p' secret secret' body body' e he
    rw [EntryPoint.run_headerError_iff he, EntryPoint.run_headerError_iff he]
    exact WebhookVerifier.verify_headerError_iff he
  · intro secret body hno
    cases hv : WebhookVerifier.verify hmacSha256 ⟨secret, tolerance⟩ now header body with
    | ok u => exact absurd hv hno
    | error e => exact ⟨e, fun p => EntryPoint.run_of_error hv⟩
  · intro E M p secret body h
    exact EntryPoint.verify_of_run h

/-- One header under two secrets, of which the empty one verifies it, with a deserialiser that fails
on every body. -/
theorem errors_leak_nothing_failing :
    let hmacSha256 : Bytes → Bytes → Vector UInt8 32 := fun secret _ =>
      Vector.replicate 32 (if secret = [] then 0 else 1)
    let header := ['t', '=', '0', ',', 'v', '1', '='] ++ List.replicate 64 '0'
    let p : EntryPoint Unit Value := .verifyAndParse fun _ => .error ⟨"EOF while parsing a value"⟩
    let p' : EntryPoint Unit Unit :=
      .verifyAndParseWithMetadata fun _ => .error ⟨"EOF while parsing a value"⟩
    (p.run hmacSha256 ⟨[], Duration.fromSecs 3⟩ ⟨0, by decide⟩ header [] = .error .missingHeader ↔
      p'.run hmacSha256 ⟨[1], Duration.fromSecs 3⟩ ⟨0, by decide⟩ header [2] =
        .error .missingHeader) ∧
    (∃ e, ∀ {E M : Type} (p : EntryPoint E M),
      p.run hmacSha256 ⟨[1], Duration.fromSecs 3⟩ ⟨0, by decide⟩ header [] = .error e) ∧
    WebhookVerifier.verify hmacSha256 ⟨[], Duration.fromSecs 3⟩ ⟨0, by decide⟩ header [] =
      .ok () := by
  intro hmacSha256 header p p'
  have h := errors_leak_nothing hmacSha256 (Duration.fromSecs 3) ⟨0, by decide⟩ header
  exact ⟨h.1 p p' [] [1] [] [2] .missingHeader (.inl rfl), h.2.1 [1] [] (by decide),
    h.2.2 p [] [] (.inr ⟨_, rfl⟩)⟩

end OutboxPublisher
