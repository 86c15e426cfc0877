/-!
# Errors

The two error types of the publisher and of the webhook receiver, with the texts they display.
`JsonError` and `SqlxError` stand for the errors of the libraries below: of `serde_json::Error` only
the displayed text is read, of `sqlx::Error` the variant `Database` and its SQLSTATE.
-/

namespace OutboxPublisher

/-- An error of the JSON library. Reference: `serde_json::Error`. -/
structure JsonError where
  message : String
  deriving DecidableEq

/-- An error of the database driver: one the server reported, with its SQLSTATE if it has one, or
any other. Reference: `sqlx::Error`. -/
inductive SqlxError
  | database (code : Option String)
  | other (message : String)
  deriving DecidableEq

/-- Errors of publishing events to the outbox. Reference: `PublishError`
(`outbox-publisher/src/error.rs:3`). -/
inductive PublishError
  | duplicateEventId
  | missingCallbacks
  | database (source : SqlxError)
  | serialization (source : JsonError)
  deriving DecidableEq

/-- Errors of verifying a dispatcher-signed webhook. Reference: `VerifyError`
(`outbox-publisher/src/error.rs:20`). -/
inductive VerifyError
  | missingHeader
  | malformedHeader
  | timestampOutOfTolerance
  | invalidSignature
  | bodyParse (source : JsonError)
  | bodyRead (message : String)
  deriving DecidableEq

/-- The displayed text of a verification error. Reference: the `#[error]` attributes of
`VerifyError` (`outbox-publisher/src/error.rs:20`). -/
def VerifyError.display : VerifyError → String
  | .missingHeader => "missing signature header"
  | .malformedHeader => "malformed signature header"
  | .timestampOutOfTolerance => "timestamp outside tolerance"
  | .invalidSignature => "invalid signature"
  | .bodyParse source => "body parse failed: " ++ source.message
  | .bodyRead message => "request body read failed: " ++ message

/-- A sequence succeeds when its first step does, and then the rest. -/
theorem bind_eq_ok_iff {ε α β : Type} {x : Except ε α} {f : α → Except ε β} {b : β} :
    x >>= f = .ok b ↔ ∃ a, x = .ok a ∧ f a = .ok b := by
  cases x with
  | error e => exact ⟨(nomatch ·), fun ⟨_, h, _⟩ => (nomatch h)⟩
  | ok a =>
    constructor
    · intro h
      exact ⟨a, rfl, h⟩
    · rintro ⟨a', h, h'⟩
      exact Except.ok.inj h ▸ h'

end OutboxPublisher
