import OutboxPublisher.Interaction.Program
import OutboxPublisher.Webhook.Extractor

/-!
# Probing a receiver

A client without the secret sends requests of its choice, each chosen after the answers to those
before. It is a program whose calls are requests, served one after the other by the extractor, each
at the reading of the clock when it comes in. Unless one of its requests carries the tag that
belongs to it, the answers are the same whatever the secret, all of them 400 or 401, and so is
whatever the client concludes from them (`probing_reveals_nothing`).
-/

namespace OutboxPublisher

open Interaction (Program)

section
variable (hmacSha256 : Bytes → Bytes → Vector UInt8 32) {E : Type}
  (fromSlice : Bytes → Except JsonError (WebhookEnvelope E Value))

/-- Serve a request, the clock having the reading of the number of requests served before. -/
def serveNext (verifier : WebhookVerifier) (clock : ℕ → SystemTime) (req : Request) (n : ℕ) :
    Outcome E × ℕ :=
  (serve hmacSha256 fromSlice verifier (clock n) req, n + 1)

/-- A client that sends requests, and what it concludes from the answers. -/
abbrev Client (E α : Type) := Program (fun _ : Request => Outcome E) α

variable {hmacSha256 fromSlice} {tolerance : Duration} {secret secret' : Bytes} {now : SystemTime}
  {header : List Char} {body : Bytes} {req : Request}

/-- A header that verifies under neither of two secrets is refused with one error under both.
Reference: `WebhookVerifier::verify` (`webhook/mod.rs:125`). -/
theorem WebhookVerifier.verify_eq_of_refused
    (h : verify hmacSha256 ⟨secret, tolerance⟩ now header body ≠ .ok ())
    (h' : verify hmacSha256 ⟨secret', tolerance⟩ now header body ≠ .ok ()) :
    verify hmacSha256 ⟨secret', tolerance⟩ now header body =
      verify hmacSha256 ⟨secret, tolerance⟩ now header body := by
  rcases header_cases header with rfl | ⟨hne, hbad⟩ | ⟨ts, digest, hw⟩
  · rw [verify_nil, verify_nil]
  · rw [verify_of_not_wellFormed hne hbad, verify_of_not_wellFormed hne hbad]
  · rw [verify_of_wellFormed hw] at h h' ⊢
    rw [verify_of_wellFormed hw]
    split_ifs at h h' ⊢ <;> trivial

/-- The answer to a request depends on the secret through the verification alone. -/
theorem serve_eq_of_verify {v v' : WebhookVerifier}
    (h : ∀ text body, SignatureText req text → req.body = .ok body →
      v'.verify hmacSha256 now text body = v.verify hmacSha256 now text body) :
    serve hmacSha256 fromSlice v' now req = serve hmacSha256 fromSlice v now req := by
  by_cases htext : ∃ text, SignatureText req text
  · obtain ⟨text, htext⟩ := htext
    rw [serve_of_text htext, serve_of_text htext]
    cases hbody : req.body with
    | error e => rfl
    | ok body => simp only [h text body htext hbody]
  · rw [serve, serve, OutboxWebhook.fromRequest, OutboxWebhook.fromRequest]
    cases hv : req.header "x-outbox-signature" with
    | none => rfl
    | some value =>
      cases ht : headerToStr value with
      | error e =>
        simp only [ht, Except.mapError, bind, Except.bind]
      | ok text =>
        obtain ⟨hvis, rfl⟩ := headerToStr_eq_ok_iff.1 ht
        exact absurd ⟨_, value, hv, hvis, rfl⟩ htext

/-- A request that authenticates under neither of two secrets has one answer under both. -/
theorem serve_eq_of_not_authentic
    (h : ¬ ∃ body, Authentic hmacSha256 ⟨secret, tolerance⟩ now req body)
    (h' : ¬ ∃ body, Authentic hmacSha256 ⟨secret', tolerance⟩ now req body) :
    serve hmacSha256 fromSlice ⟨secret', tolerance⟩ now req =
      serve hmacSha256 fromSlice ⟨secret, tolerance⟩ now req := by
  refine serve_eq_of_verify fun text body htext hbody => ?_
  exact WebhookVerifier.verify_eq_of_refused (fun hok => h ⟨body, text, htext, hbody, hok⟩)
    fun hok => h' ⟨body, text, htext, hbody, hok⟩

variable (fromSlice) in
/-- A request that does not authenticate is answered with 400 or 401. -/
theorem serve_status_of_not_authentic {v : WebhookVerifier}
    (h : ¬ ∃ body, Authentic hmacSha256 v now req body) :
    (serve hmacSha256 fromSlice v now req).status = some .badRequest ∨
      (serve hmacSha256 fromSlice v now req).status = some .unauthorized := by
  by_cases hu : Unauthentic hmacSha256 v now req
  · exact .inr (serve_of_unauthentic fromSlice hu)
  · exact .inl (serve_of_neither fromSlice h hu)

variable (hmacSha256) in
/-- The request authenticates under one of two secrets at the reading of the clock. -/
def AuthenticatesUnder (secret secret' : Bytes) (tolerance : Duration) (clock : ℕ → SystemTime)
    (req : Request) (n : ℕ) : Prop :=
  (∃ body, Authentic hmacSha256 ⟨secret, tolerance⟩ (clock n) req body) ∨
    ∃ body, Authentic hmacSha256 ⟨secret', tolerance⟩ (clock n) req body

/-- **Probing reveals nothing.** Whatever requests a client sends a receiver, choosing each from the
answers to those before: if none of them authenticates under the secret of the receiver, nor under
another one, the client has the same answers from a receiver with that other secret, sends the same
requests and concludes the same; and every answer is 400 or 401. Reference: `from_request`
(`webhook/mod.rs:289`). -/
theorem probing_reveals_nothing {α : Type} (client : Client E α) (clock : ℕ → SystemTime)
    (h : client.Avoids (serveNext hmacSha256 fromSlice ⟨secret, tolerance⟩ clock)
      (AuthenticatesUnder hmacSha256 secret secret' tolerance clock) 0) :
    client.course (serveNext hmacSha256 fromSlice ⟨secret', tolerance⟩ clock) 0 =
      client.course (serveNext hmacSha256 fromSlice ⟨secret, tolerance⟩ clock) 0 ∧
    ∀ x ∈ (client.course (serveNext hmacSha256 fromSlice ⟨secret, tolerance⟩ clock) 0).1,
      x.2.status = some .badRequest ∨ x.2.status = some .unauthorized := by
  constructor
  · refine h.course_eq fun req n hno => ?_
    obtain ⟨hno, hno'⟩ := not_or.1 hno
    exact congrArg (·, n + 1) (serve_eq_of_not_authentic hno hno')
  · exact h.answers
      (P := fun _ r => r.status = some .badRequest ∨ r.status = some .unauthorized)
      fun req n hno => serve_status_of_not_authentic fromSlice (not_or.1 hno).1

end

/-- A request without a signature. -/
def unsigned : Request :=
  ⟨[], .ok []⟩

/-- A request with a digest of one byte. -/
def signedShort : Request :=
  ⟨[("x-outbox-signature", [116, 61, 48, 44, 118, 49, 61, 48, 48])], .ok []⟩

/-- A client that sends the second request when the first is answered with 400. -/
theorem probing_reveals_nothing_two :
    let hmacSha256 : Bytes → Bytes → Vector UInt8 32 := fun secret _ =>
      Vector.replicate 32 (if secret = [] then 0 else 1)
    let fromSlice : Bytes → Except JsonError (WebhookEnvelope Unit Value) := fun _ => .error ⟨""⟩
    let client : Client Unit (List (Option StatusCode)) := .call unsigned fun r =>
      if r.status = some .badRequest then .call signedShort fun r' => .pure [r.status, r'.status]
      else .pure [r.status]
    let now : SystemTime := ⟨0, by decide⟩
    client.course (serveNext hmacSha256 fromSlice ⟨[1], Duration.fromSecs 3⟩ fun _ => now) 0 =
      client.course (serveNext hmacSha256 fromSlice ⟨[], Duration.fromSecs 3⟩ fun _ => now) 0 := by
  intro hmacSha256 fromSlice client now
  have hunsigned : ∀ v, ¬ ∃ body, Authentic hmacSha256 v now unsigned body := by
    rintro v ⟨body, text, ⟨value, hv, -, -⟩, -, -⟩
    cases hv
  have hshort : ∀ v : WebhookVerifier, v.verify hmacSha256 now "t=0,v1=00".toList [] ≠ .ok () →
      ¬ ∃ body, Authentic hmacSha256 v now signedShort body := by
    rintro v hno ⟨body, text, ⟨value, hv, -, rfl⟩, hbody, hok⟩
    cases hv
    cases hbody
    exact hno hok
  have havoids : client.Avoids
      (serveNext hmacSha256 fromSlice ⟨[], Duration.fromSecs 3⟩ fun _ => now)
      (AuthenticatesUnder hmacSha256 [] [1] (Duration.fromSecs 3) fun _ => now) 0 :=
    ⟨fun h => h.elim (hunsigned _) (hunsigned _),
      fun h => h.elim (hshort _ (by decide)) (hshort _ (by decide)), trivial⟩
  exact (probing_reveals_nothing client _ havoids).1

end OutboxPublisher
