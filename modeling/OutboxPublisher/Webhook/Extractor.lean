import OutboxPublisher.Webhook.Decision

/-!
# The axum extractor

`OutboxWebhook.fromRequest` reads the signature header of a request, then its body, and hands both
to `WebhookVerifier.verifyAndParse`; a rejection is turned into a response with a status and the
error's text. A request is its list of headers, in the order of the header map, and the outcome of
reading its body. `serve` is the extractor in front of a handler, and `serve_decision` says for
every request which of the four outcomes it has.
-/

namespace OutboxPublisher

/-- A request as the extractor sees it. Reference: `axum::extract::Request`. -/
structure Request where
  headers : List (String × Bytes)
  body : Except String Bytes

/-- The first value of a header. Reference: `HeaderMap::get`. -/
def Request.header (req : Request) (name : String) : Option Bytes :=
  (req.headers.find? (·.1 == name)).map (·.2)

/-- The bytes a header value may have to be readable as text. Reference: `HeaderValue::to_str`. -/
def isVisibleAscii (b : UInt8) : Bool :=
  (32 ≤ b && b < 127) || b == 9

/-- The text of a header value. Reference: `HeaderValue::to_str`. -/
def headerToStr (value : Bytes) : Except String (List Char) :=
  if value.all isVisibleAscii then .ok (value.map fun b => Char.ofNat b.toNat)
  else .error "failed to convert header to a str"

/-- The statuses a rejection has: 400, 401 and 422. Reference: `http::StatusCode`. -/
inductive StatusCode
  | badRequest
  | unauthorized
  | unprocessableEntity
  deriving DecidableEq

/-- A response of the extractor. Reference: `axum::response::Response`. -/
structure Response where
  status : StatusCode
  body : String

/-- The rejection of a request. Reference: `WebhookRejection` (`webhook/mod.rs:252`). -/
structure WebhookRejection where
  error : VerifyError

/-- The status of an error, with its text as the body. Reference: `into_response`
(`webhook/mod.rs:265`). -/
def WebhookRejection.intoResponse (r : WebhookRejection) : Response :=
  let status := match r.error with
    | .missingHeader | .malformedHeader => .badRequest
    | .timestampOutOfTolerance | .invalidSignature => .unauthorized
    | .bodyParse _ => .unprocessableEntity
    | .bodyRead _ => .badRequest
  ⟨status, r.error.display⟩

/-- The extractor's result. Reference: `OutboxWebhook` (`webhook/mod.rs:249`). -/
structure OutboxWebhook (E : Type) where
  envelope : WebhookEnvelope E Value

/-- What becomes of a request: the handler is given an envelope, or a response is sent. -/
inductive Outcome (E : Type)
  | handler (envelope : WebhookEnvelope E Value)
  | response (r : Response)

/-- The status of a response the extractor sent. -/
def Outcome.status {E : Type} : Outcome E → Option StatusCode
  | .handler _ => none
  | .response r => some r.status

section
variable (hmacSha256 : Bytes → Bytes → Vector UInt8 32) {E : Type}
  (fromSlice : Bytes → Except JsonError (WebhookEnvelope E Value))

/-- The extractor, with the verifier the application state yields. Reference: `from_request`
(`webhook/mod.rs:289`). -/
def OutboxWebhook.fromRequest (verifier : WebhookVerifier) (now : SystemTime) (req : Request) :
    Except WebhookRejection (OutboxWebhook E) := do
  let signature ← match req.header "x-outbox-signature" with
    | none => throw ⟨.missingHeader⟩
    | some v => (headerToStr v).mapError fun _ => ⟨.malformedHeader⟩
  let body ← req.body.mapError fun e => ⟨.bodyRead e⟩
  let envelope ←
    (verifier.verifyAndParse hmacSha256 fromSlice now signature body).mapError WebhookRejection.mk
  return ⟨envelope⟩

/-- The extractor in front of a handler: a rejection is answered in its place. -/
def serve (verifier : WebhookVerifier) (now : SystemTime) (req : Request) : Outcome E :=
  match OutboxWebhook.fromRequest hmacSha256 fromSlice verifier now req with
  | .ok webhook => .handler webhook.envelope
  | .error rejection => .response rejection.intoResponse

end

/-- The first value of the signature header is present, visible ASCII or tabs, and reads `text`. -/
def SignatureText (req : Request) (text : List Char) : Prop :=
  ∃ value, req.header "x-outbox-signature" = some value ∧
    (∀ b ∈ value, (32 ≤ b ∧ b < 127) ∨ b = 9) ∧ text = value.map fun b => Char.ofNat b.toNat

/-- Only visible ASCII and tabs are readable, and they read as themselves. Reference:
`HeaderValue::to_str`. -/
theorem headerToStr_eq_ok_iff {value : Bytes} {text : List Char} :
    headerToStr value = .ok text ↔ (∀ b ∈ value, (32 ≤ b ∧ b < 127) ∨ b = 9) ∧
      text = value.map fun b => Char.ofNat b.toNat := by
  have hall : value.all isVisibleAscii = true ↔ ∀ b ∈ value, (32 ≤ b ∧ b < 127) ∨ b = 9 := by
    simp [isVisibleAscii, List.all_eq_true]
  rw [← hall, headerToStr]
  by_cases h : value.all isVisibleAscii = true
  · rw [if_pos h, Except.ok.injEq]
    exact ⟨fun ht => ⟨h, ht.symm⟩, fun ht => ht.2.symm⟩
  · rw [if_neg h]
    exact ⟨(nomatch ·), fun ht => absurd ht.1 h⟩

/-- The signature header reads as one text. -/
theorem SignatureText.unique {req : Request} {text text' : List Char}
    (h : SignatureText req text) (h' : SignatureText req text') : text = text' := by
  obtain ⟨value, hv, -, rfl⟩ := h
  obtain ⟨value', hv', -, rfl⟩ := h'
  rw [hv, Option.some.injEq] at hv'
  rw [hv']

section
variable {hmacSha256 : Bytes → Bytes → Vector UInt8 32} {E : Type}
  {fromSlice : Bytes → Except JsonError (WebhookEnvelope E Value)} {verifier : WebhookVerifier}
  {now : SystemTime} {req : Request}

/-- An absent or unreadable signature header is a bad request. -/
theorem serve_of_no_text (h : ¬ ∃ text, SignatureText req text) :
    (serve hmacSha256 fromSlice verifier now req).status = some .badRequest := by
  rw [serve, OutboxWebhook.fromRequest]
  cases hv : req.header "x-outbox-signature" with
  | none => rfl
  | some value =>
    cases ht : headerToStr value with
    | error e =>
      simp only [ht, Except.mapError, bind, Except.bind]
      rfl
    | ok text =>
      obtain ⟨hvis, rfl⟩ := headerToStr_eq_ok_iff.1 ht
      exact absurd ⟨_, value, hv, hvis, rfl⟩ h

/-- With a readable signature header the body's outcome decides next, and then the verifier and
the JSON reader. -/
theorem serve_of_text {text : List Char} (h : SignatureText req text) :
    serve hmacSha256 fromSlice verifier now req =
      match req.body with
      | .error e => .response (WebhookRejection.intoResponse ⟨.bodyRead e⟩)
      | .ok body =>
        match verifier.verify hmacSha256 now text body with
        | .error e => .response (WebhookRejection.intoResponse ⟨e⟩)
        | .ok _ =>
          match fromSlice body with
          | .error e => .response (WebhookRejection.intoResponse ⟨.bodyParse e⟩)
          | .ok envelope => .handler envelope := by
  obtain ⟨value, hv, hvis, rfl⟩ := h
  have ht := headerToStr_eq_ok_iff.2 ⟨hvis, rfl⟩
  rw [serve, OutboxWebhook.fromRequest, hv]
  simp only [ht, Except.mapError, bind, Except.bind, WebhookVerifier.verifyAndParse]
  cases req.body with
  | error e => rfl
  | ok body =>
    simp only
    cases verifier.verify hmacSha256 now (value.map fun b => Char.ofNat b.toNat) body with
    | error e => rfl
    | ok u => cases fromSlice body <;> rfl

variable (hmacSha256 verifier now) in
/-- Verification fails with a status of 400 on a header that is not well formed. -/
theorem verify_status_of_not_wellFormed (text : List Char) (body : Bytes)
    (h : ¬ ∃ ts digest, WellFormed text ts digest) :
    ∃ e, verifier.verify hmacSha256 now text body = .error e ∧
      (WebhookRejection.intoResponse ⟨e⟩).status = .badRequest := by
  by_cases hne : text = []
  · subst hne
    exact ⟨_, WebhookVerifier.verify_nil, rfl⟩
  · exact ⟨_, WebhookVerifier.verify_of_not_wellFormed hne h, rfl⟩

/-- Verification of a well-formed header fails with a status of 401 unless the timestamp is in the
window and the digest is the whole tag. -/
theorem verify_status_of_wellFormed {text : List Char} {ts : UInt64} {digest body : Bytes}
    (hw : WellFormed text ts digest) (h : ¬ (InWindow verifier.tolerance now ts ∧
      digest = (hmacSha256 verifier.secret (Signing.message ts body)).toList)) :
    ∃ e, verifier.verify hmacSha256 now text body = .error e ∧
      (WebhookRejection.intoResponse ⟨e⟩).status = .unauthorized := by
  rw [WebhookVerifier.verify_of_wellFormed hw]
  by_cases hin : InWindow verifier.tolerance now ts
  · rw [if_pos hin, if_neg fun hdig => h ⟨hin, hdig⟩]
    exact ⟨_, rfl, rfl⟩
  · rw [if_neg hin]
    exact ⟨_, rfl, rfl⟩

end

/-! ## The decision for every request -/

section
variable (hmacSha256 : Bytes → Bytes → Vector UInt8 32) {E : Type}
  (fromSlice : Bytes → Except JsonError (WebhookEnvelope E Value)) (verifier : WebhookVerifier)
  (now : SystemTime) (req : Request)

/-- The signature header is readable, the body was read as `body`, and `verify` accepts the one
against the other. -/
def Authentic (body : Bytes) : Prop :=
  ∃ text, SignatureText req text ∧ req.body = .ok body ∧
    verifier.verify hmacSha256 now text body = .ok ()

/-- The signature header is readable and has both fields, the body was read, and the clock is before
the epoch, the timestamp out of tolerance or the digest not the tag. -/
def Unauthentic : Prop :=
  ∃ text body ts digest, SignatureText req text ∧ req.body = .ok body ∧
    HeaderFields text ts digest ∧
    (now.nanos < 0 ∨ |now.secs - ts.toNat| > verifier.tolerance.secs.toNat ∨
      digest ≠ (hmacSha256 verifier.secret (Signing.message ts body)).toList)

variable {hmacSha256 fromSlice verifier now req}

/-- An authentic request has one body, the one that was read. -/
theorem Authentic.body_eq {body : Bytes} (h : Authentic hmacSha256 verifier now req body) :
    req.body = .ok body := by
  obtain ⟨text, -, hbody, -⟩ := h
  exact hbody

/-- What the extractor does with an authentic request is up to the JSON reader. -/
theorem serve_of_authentic {body : Bytes} (h : Authentic hmacSha256 verifier now req body) :
    serve hmacSha256 fromSlice verifier now req =
      match fromSlice body with
      | .error e => .response (WebhookRejection.intoResponse ⟨.bodyParse e⟩)
      | .ok envelope => .handler envelope := by
  obtain ⟨text, htext, hbody, hver⟩ := h
  rw [serve_of_text htext, hbody]
  simp only [hver]

variable (fromSlice) in
/-- An unauthentic request is answered with 401. -/
theorem serve_of_unauthentic (h : Unauthentic hmacSha256 verifier now req) :
    (serve hmacSha256 fromSlice verifier now req).status = some .unauthorized := by
  obtain ⟨text, body, ts, digest, htext, hbody, hfields, hbad⟩ := h
  have hno : ¬ (InWindow verifier.tolerance now ts ∧
      digest = (hmacSha256 verifier.secret (Signing.message ts body)).toList) := by
    rw [not_and_or, not_inWindow_iff, or_assoc]
    exact hbad
  obtain ⟨e, hver, hstatus⟩ := verify_status_of_wellFormed (wellFormed_iff.2 hfields) hno
  rw [serve_of_text htext, hbody]
  simp only [hver]
  exact congrArg some hstatus

variable (fromSlice) in
/-- A request that is neither authentic nor unauthentic is answered with 400: its header is not
readable or not well formed, or its body was not read. -/
theorem serve_of_neither (ha : ¬ ∃ body, Authentic hmacSha256 verifier now req body)
    (hu : ¬ Unauthentic hmacSha256 verifier now req) :
    (serve hmacSha256 fromSlice verifier now req).status = some .badRequest := by
  by_cases htext : ∃ text, SignatureText req text
  · obtain ⟨text, htext⟩ := htext
    rw [serve_of_text htext]
    cases hbody : req.body with
    | error e => rfl
    | ok body =>
      have hbad : ¬ ∃ ts digest, WellFormed text ts digest := by
        rintro ⟨ts, digest, hw⟩
        by_cases hok : InWindow verifier.tolerance now ts ∧
            digest = (hmacSha256 verifier.secret (Signing.message ts body)).toList
        · exact ha ⟨body, text, htext, hbody,
            WebhookVerifier.verify_eq_ok_iff.2 ⟨ts, digest, hw, hok⟩⟩
        · rw [not_and_or, not_inWindow_iff, or_assoc] at hok
          exact hu ⟨text, body, ts, digest, htext, hbody, wellFormed_iff.1 hw, hok⟩
      obtain ⟨e, hver, hstatus⟩ :=
        verify_status_of_not_wellFormed hmacSha256 verifier now text body hbad
      simp only [hver]
      exact congrArg some hstatus
  · exact serve_of_no_text htext

/-- No request is both. -/
theorem Authentic.not_unauthentic {body : Bytes}
    (h : Authentic hmacSha256 verifier now req body) :
    ¬ Unauthentic hmacSha256 verifier now req := by
  intro hu
  have hstatus := serve_of_unauthentic
    (fun _ => (.error ⟨""⟩ : Except JsonError (WebhookEnvelope Unit Value))) hu
  rw [serve_of_authentic h] at hstatus
  exact nomatch hstatus

variable (hmacSha256 fromSlice verifier now req)

/-- **The extractor's decision.** An authentic request reaches the handler with the envelope its own
body reads as, or is answered with 422 when the body is no envelope; an unauthentic one is answered
with 401, and whatever is neither with 400. No request is both, so the four outcomes are exclusive
and exhaustive, and the first two are those of the authentic requests. Reference: `from_request`
(`webhook/mod.rs:289`), `into_response` (`webhook/mod.rs:265`). -/
theorem serve_decision :
    (∀ envelope, serve hmacSha256 fromSlice verifier now req = .handler envelope ↔
      ∃ body, Authentic hmacSha256 verifier now req body ∧ fromSlice body = .ok envelope) ∧
    ((serve hmacSha256 fromSlice verifier now req).status = some .unprocessableEntity ↔
      ∃ body e, Authentic hmacSha256 verifier now req body ∧ fromSlice body = .error e) ∧
    ((serve hmacSha256 fromSlice verifier now req).status = some .unauthorized ↔
      Unauthentic hmacSha256 verifier now req) ∧
    ((serve hmacSha256 fromSlice verifier now req).status = some .badRequest ↔
      (¬ ∃ body, Authentic hmacSha256 verifier now req body) ∧
        ¬ Unauthentic hmacSha256 verifier now req) ∧
    ¬ ((∃ body, Authentic hmacSha256 verifier now req body) ∧
      Unauthentic hmacSha256 verifier now req) ∧
    (((∃ envelope, serve hmacSha256 fromSlice verifier now req = .handler envelope) ∨
        (serve hmacSha256 fromSlice verifier now req).status = some .unprocessableEntity) ↔
      ∃ body, Authentic hmacSha256 verifier now req body) := by
  by_cases ha : ∃ body, Authentic hmacSha256 verifier now req body
  · obtain ⟨body, ha⟩ := ha
    have hu := ha.not_unauthentic
    have hone : ∀ {body'}, Authentic hmacSha256 verifier now req body' → body' = body :=
      fun h => Except.ok.inj (h.body_eq.symm.trans ha.body_eq)
    have hex : ∃ body, Authentic hmacSha256 verifier now req body := ⟨body, ha⟩
    rw [serve_of_authentic ha]
    cases hparse : fromSlice body with
    | error e =>
      refine ⟨fun envelope => ⟨(nomatch ·), ?_⟩, ⟨fun _ => ⟨body, e, ha, hparse⟩, fun _ => rfl⟩,
        ⟨(nomatch ·), fun h => absurd h hu⟩, ⟨(nomatch ·), fun h => absurd hex h.1⟩,
        fun h => hu h.2, ⟨fun _ => hex, fun _ => .inr rfl⟩⟩
      rintro ⟨body', ha', hparse'⟩
      rw [hone ha', hparse] at hparse'
      exact nomatch hparse'
    | ok envelope =>
      refine ⟨fun envelope' => ⟨?_, ?_⟩, ⟨(nomatch ·), ?_⟩, ⟨(nomatch ·), fun h => absurd h hu⟩,
        ⟨(nomatch ·), fun h => absurd hex h.1⟩, fun h => hu h.2,
        ⟨fun _ => hex, fun _ => .inl ⟨envelope, rfl⟩⟩⟩
      · intro h
        cases h
        exact ⟨body, ha, hparse⟩
      · rintro ⟨body', ha', hparse'⟩
        rw [hone ha', hparse] at hparse'
        rw [Except.ok.inj hparse']
      · rintro ⟨body', e, ha', hparse'⟩
        rw [hone ha', hparse] at hparse'
        exact nomatch hparse'
  · have hno : ∀ body, ¬ Authentic hmacSha256 verifier now req body :=
      fun body h => ha ⟨body, h⟩
    have hnot : ∀ {status}, (serve hmacSha256 fromSlice verifier now req).status = some status →
        ∀ envelope, serve hmacSha256 fromSlice verifier now req ≠ .handler envelope := by
      intro status hs envelope he
      rw [he] at hs
      exact nomatch hs
    by_cases hu : Unauthentic hmacSha256 verifier now req
    · have hs := serve_of_unauthentic fromSlice hu
      simp [hs, hno, hu, hnot hs]
    · have hs := serve_of_neither fromSlice ha hu
      simp [hs, hno, hu, hnot hs]

end

end OutboxPublisher
