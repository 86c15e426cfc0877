import OutboxPublisher.Concurrent.Log
import OutboxPublisher.Webhook.Authenticity
import OutboxPublisher.Webhook.Probing

/-!
# From the publishers to the receiver

The two halves of the library work together through the dispatcher, which reads the committed rows
of the outbox and posts each to a receiver as often as it likes, in any order and while publishers
go on. What it does is known from what the receiver says of it: the body of a row is read back as
an envelope with the columns of the row and of the delivery, and the header is that of
`Signing.sign`. Those are the parameters of `Link`. Requests come from anyone, and a request that
arrives is served at any reading of the clock; it is assumed that nobody but the dispatcher is able
to compute the tag of a message under the secret (`Link.Unforged`).

`handled_published` follows an event through all of it: what a receiver handles is fresh, from a
committed row, and what some publisher published; the event id is a key for it; and no delivery
that arrives in time is refused.
-/

namespace OutboxPublisher

open Interaction (Run)

/-- What an envelope has of its delivery. Reference: `WebhookEnvelope` (`webhook/mod.rs:42`),
`outbox_deliveries` (`0001_initial_schema.sql:68`). -/
structure Delivery where
  deliveryId : Int64
  callbackName : String
  mode : String
  attempt : Int32

/-- A row the dispatcher posts, and the timestamp it signs the body with. -/
structure Posting where
  timestamp : UInt64
  row : OutboxEvent
  delivery : Delivery

/-- The two ends of a webhook: the hash, the receiver with its reader of JSON bodies, the column
`created_at` of each row, which is left to its default, the body the dispatcher builds, and what the
reader makes of a payload and of metadata. Reference: `outbox_events.created_at`
(`0001_initial_schema.sql:43`). -/
structure Link (E : Type) where
  hmacSha256 : Bytes → Bytes → Vector UInt8 32
  verifier : WebhookVerifier
  fromSlice : Bytes → Except JsonError (WebhookEnvelope E Value)
  createdAt : OutboxEvent → ℤ
  buildBody : OutboxEvent → Delivery → Bytes
  payloadOf : Value → Option E
  metadataOf : Value → Value

/-- The envelope the handler is given. -/
def Outcome.handled {E : Type} : Outcome E → Option (WebhookEnvelope E Value)
  | .handler envelope => some envelope
  | .response _ => none

namespace Link

variable {E : Type} (link : Link E)

/-- The body of a posting. -/
def body (p : Posting) : Bytes :=
  link.buildBody p.row p.delivery

/-- The header of a posting. Reference: `sign` (`webhook/signing.rs:75`). -/
def header (p : Posting) : List Char :=
  Signing.sign link.hmacSha256 link.verifier.secret p.timestamp (link.body p)

/-- The envelope of a posting, unless its payload is none of the receiver's type: the columns of the
row and of the delivery. Reference: `WebhookEnvelope` (`webhook/mod.rs:42`). -/
def envelope (p : Posting) : Option (WebhookEnvelope E Value) :=
  (link.payloadOf p.row.payload).map fun payload =>
    { deliveryId := p.delivery.deliveryId
      eventId := p.row.eventId
      kind := p.row.kind
      callbackName := p.delivery.callbackName
      mode := p.delivery.mode
      aggregateType := p.row.aggregateType
      aggregateId := p.row.aggregateId
      payload := payload
      metadata := link.metadataOf p.row.metadata
      actorId := p.row.actorId
      correlationId := p.row.correlationId
      causationId := p.row.causationId
      createdAt := link.createdAt p.row
      attempt := p.delivery.attempt }

/-- The extractor in front of the receiver's handler. -/
def serve (now : SystemTime) (req : Request) : Outcome E :=
  OutboxPublisher.serve link.hmacSha256 link.fromSlice link.verifier now req

/-- A request that carries the tag of its timestamp and body has it from a posting of one and the
same message. -/
def Unforged (posted : List Posting) (req : Request) : Prop :=
  ∀ text ts body, SignatureText req text → req.body = .ok body →
    WellFormed text ts
      (link.hmacSha256 link.verifier.secret (Signing.message ts body)).toList →
    ∃ p ∈ posted, Signing.message p.timestamp (link.body p) = Signing.message ts body

/-- A posting as a request. -/
def request (p : Posting) : Request :=
  ⟨[("x-outbox-signature", asBytes (link.header p))], .ok (link.body p)⟩

/-- The request brings the posting as it was sent, among whatever other headers. -/
structure Brings (p : Posting) (req : Request) : Prop where
  header_eq : req.header "x-outbox-signature" = some (asBytes (link.header p))
  body_eq : req.body = .ok (link.body p)

end Link

/-- The database, what the dispatcher has posted, and what the receiver's handler was given, with
the readings of the clock. -/
structure Pipeline (κ E : Type) where
  world : World κ
  posted : List Posting
  handled : List (SystemTime × WebhookEnvelope E Value)

/-- What happens: a step of a publisher, a posting, or a request that is served. -/
inductive Move (κ : Type)
  | publish (step : κ × Action)
  | post (p : Posting)
  | serve (now : SystemTime) (req : Request)

/-- The step of a publisher. -/
def Move.published {κ : Type} : Move κ → Option (κ × Action)
  | .publish step => some step
  | _ => none

section
variable {κ E : Type} [DecidableEq κ] [Serialize Map] [Serialize (List Value)]

/-- The steps of all three: the dispatcher posts rows that are committed, and the receiver serves
whatever request is not forged. -/
inductive Link.Step (link : Link E) (s : Pipeline κ E) : Move κ → Pipeline κ E → Prop
  | publish {l : κ × Action} {w : World κ} (h : OutboxPublisher.Step s.world l w) :
      Step link s (.publish l) { s with world := w }
  | post (p : Posting) (h : p.row ∈ s.world.committed) :
      Step link s (.post p) { s with posted := s.posted ++ [p] }
  | serve (now : SystemTime) (req : Request) (h : link.Unforged s.posted req) :
      Step link s (.serve now req)
        { s with
            handled := s.handled ++ ((link.serve now req).handled.map (now, ·)).toList }

end

/-! ## A signed header is readable -/

/-- A visible ASCII character is one byte, which reads as the character. -/
theorem utf8EncodeChar_of_visible {c : Char} (h : 32 ≤ c.toNat ∧ c.toNat < 127) :
    String.utf8EncodeChar c = [c.val.toUInt8] ∧ (32 ≤ c.val.toUInt8 ∧ c.val.toUInt8 < 127) ∧
      Char.ofNat c.val.toUInt8.toNat = c := by
  have hbyte : c.val.toUInt8.toNat = c.toNat := by
    rw [UInt32.toNat_toUInt8]
    exact Nat.mod_eq_of_lt (by have := h.2; change c.toNat < 256; omega)
  refine ⟨String.utf8EncodeChar_eq_singleton ?_, ⟨?_, ?_⟩, ?_⟩
  · rw [Char.utf8Size]
    refine if_pos (UInt32.le_iff_toNat_le.2 ?_)
    exact le_trans (Nat.le_of_lt_succ h.2) (by decide)
  · rw [UInt8.le_iff_toNat_le, hbyte]
    exact h.1
  · rw [UInt8.lt_iff_toNat_lt, hbyte]
    exact h.2
  · rw [hbyte, Char.ofNat_toNat]

/-- A text of visible ASCII characters is readable in a header, as itself. Reference:
`HeaderValue::to_str`. -/
theorem headerToStr_asBytes {text : List Char} (h : ∀ c ∈ text, 32 ≤ c.toNat ∧ c.toNat < 127) :
    headerToStr (asBytes text) = .ok text := by
  have hbytes : asBytes text = text.map (·.val.toUInt8) := by
    rw [asBytes, List.map_eq_flatMap]
    exact List.flatMap_congr fun c hc => (utf8EncodeChar_of_visible (h c hc)).1
  rw [hbytes, headerToStr_eq_ok_iff]
  constructor
  · intro b hb
    obtain ⟨c, hc, rfl⟩ := List.mem_map.1 hb
    exact .inl (utf8EncodeChar_of_visible (h c hc)).2.1
  · rw [List.map_map]
    refine (List.map_id text).symm.trans (List.map_congr_left fun c hc => ?_)
    exact (utf8EncodeChar_of_visible (h c hc)).2.2.symm

/-- A hexadecimal digit is a visible ASCII character. -/
theorem hexDigit_visible {c : Char} (h : Hex.IsDigit c) : 32 ≤ c.toNat ∧ c.toNat < 127 := by
  rcases h with ⟨hlo, hhi⟩ | ⟨hlo, hhi⟩ | ⟨hlo, hhi⟩
  all_goals exact ⟨le_trans (by decide) (Char.le_def.1 hlo),
    lt_of_le_of_lt (Char.le_def.1 hhi) (by decide)⟩

/-- A signed header is visible ASCII. Reference: `sign` (`webhook/signing.rs:75`). -/
theorem Signing.visible_sign (hmacSha256 : Bytes → Bytes → Vector UInt8 32) (secret : Bytes)
    (ts : UInt64) (body : Bytes) :
    ∀ c ∈ sign hmacSha256 secret ts body, 32 ≤ c.toNat ∧ c.toNat < 127 := by
  have hkeys : ∀ c ∈ tKey ++ ',' :: v1Key, 32 ≤ c.toNat ∧ c.toNat < 127 := by
    simp [tKey, v1Key]
  intro c hc
  rw [sign_eq] at hc
  simp only [List.mem_append, List.mem_cons] at hc
  rcases hc with (hc | hc) | rfl | hc | hc
  · exact hkeys c (List.mem_append_left _ hc)
  · have hdigit := Char.isDigit_iff_toNat.1 (isDigit_of_mem_formatU64 hc)
    exact ⟨le_trans (by decide) hdigit.1, lt_of_le_of_lt hdigit.2 (by decide)⟩
  · decide
  · exact hkeys c (by simp [hc])
  · exact hexDigit_visible (Hex.isDigit_of_mem_encode hc)

namespace Link

section
variable {E : Type} {link : Link E} {posted : List Posting} {p : Posting} {now : SystemTime}
  {req : Request}

variable (link p) in
/-- A posting as a request brings the posting. -/
theorem brings_request : link.Brings p (link.request p) :=
  ⟨rfl, rfl⟩

/-- A request that brings a posting has its header. -/
theorem Brings.text (h : link.Brings p req) : SignatureText req (link.header p) := by
  obtain ⟨hvis, htext⟩ := headerToStr_eq_ok_iff.1
    (headerToStr_asBytes (Signing.visible_sign link.hmacSha256 _ p.timestamp (link.body p)))
  exact ⟨_, h.header_eq, hvis, htext⟩

/-- A request that brings a posting is not forged. -/
theorem Brings.unforged (h : link.Brings p req) (hp : p ∈ posted) : link.Unforged posted req := by
  intro text ts body htext hbody hw
  obtain rfl := htext.unique h.text
  obtain rfl := Except.ok.inj (hbody.symm.trans h.body_eq)
  obtain ⟨rfl, -⟩ := hw.unique (Signing.wellFormed_sign ..)
  exact ⟨p, hp, rfl⟩

/-- A request that brings a posting in time is authentic. -/
theorem Brings.authentic (h : link.Brings p req)
    (hin : InWindow link.verifier.tolerance now p.timestamp) :
    Authentic link.hmacSha256 link.verifier now req (link.body p) :=
  ⟨_, h.text, h.body_eq,
    WebhookVerifier.verify_eq_ok_iff.2 ⟨_, _, Signing.wellFormed_sign .., hin, rfl⟩⟩

/-- A request that brings a posting in time is handled, when its body is an envelope. -/
theorem Brings.serve_eq {envelope : WebhookEnvelope E Value} (h : link.Brings p req)
    (hin : InWindow link.verifier.tolerance now p.timestamp)
    (hread : link.fromSlice (link.body p) = .ok envelope) :
    link.serve now req = .handler envelope := by
  rw [serve, serve_of_authentic (h.authentic hin), hread]

/-- What an authentic request that is not forged carries was posted, and it came in time. -/
theorem Unforged.exists_posting {body : Bytes} (h : link.Unforged posted req)
    (ha : Authentic link.hmacSha256 link.verifier now req body) :
    ∃ p ∈ posted, link.body p = body ∧ InWindow link.verifier.tolerance now p.timestamp := by
  obtain ⟨text, htext, hbody, hok⟩ := ha
  obtain ⟨ts, digest, hw, hin, rfl⟩ := WebhookVerifier.verify_eq_ok_iff.1 hok
  obtain ⟨p, hp, hmsg⟩ := h text ts body htext hbody hw
  obtain ⟨rfl, rfl⟩ := Signing.message_inj hmsg
  exact ⟨p, hp, rfl, hin⟩

/-- The handler is given what the reader makes of the body of an authentic request. -/
theorem authentic_of_handled {envelope : WebhookEnvelope E Value}
    (h : (link.serve now req).handled = some envelope) :
    ∃ body, Authentic link.hmacSha256 link.verifier now req body ∧
      link.fromSlice body = .ok envelope := by
  rw [serve] at h
  by_cases ha : ∃ body, Authentic link.hmacSha256 link.verifier now req body
  · obtain ⟨body, ha⟩ := ha
    rw [serve_of_authentic ha] at h
    cases hread : link.fromSlice body with
    | error e =>
      rw [hread] at h
      cases h
    | ok envelope' =>
      rw [hread] at h
      obtain rfl := Option.some.inj h
      exact ⟨body, ha, hread⟩
  · have hstatus := serve_status_of_not_authentic link.fromSlice ha
    cases hserve : OutboxPublisher.serve link.hmacSha256 link.fromSlice link.verifier now req with
    | handler envelope' =>
      rw [hserve] at hstatus
      rcases hstatus with hstatus | hstatus <;> cases hstatus
    | response r =>
      rw [hserve] at h
      cases h

/-- What the handler is given by a request that is not forged is the body of a posting, as the
reader of the receiver reads it, in time. -/
theorem Unforged.handled {envelope : WebhookEnvelope E Value} (h : link.Unforged posted req)
    (hserve : (link.serve now req).handled = some envelope) :
    ∃ p ∈ posted, link.fromSlice (link.body p) = .ok envelope ∧
      InWindow link.verifier.tolerance now p.timestamp := by
  obtain ⟨body, ha, hread⟩ := authentic_of_handled hserve
  obtain ⟨p, hp, rfl, hin⟩ := h.exists_posting ha
  exact ⟨p, hp, hread, hin⟩

end

end Link

/-! ## Runs -/

section
variable {κ E : Type} [DecidableEq κ] [Serialize Map] [Serialize (List Value)] {link : Link E}
  {s₀ s s' : Pipeline κ E} {tr : List (Move κ)} {m : Move κ}

/-- The publishers run with nothing posted or handled meanwhile. -/
theorem Link.run_publish (link : Link E) (posted : List Posting)
    (handled : List (SystemTime × WebhookEnvelope E Value)) {w w' : World κ}
    {steps : List (κ × Action)} (hr : Run OutboxPublisher.Step w steps w') :
    Run link.Step ⟨w, posted, handled⟩ (steps.map .publish) ⟨w', posted, handled⟩ := by
  let pipeline : World κ → Pipeline κ E := fun w => ⟨w, posted, handled⟩
  exact hr.map pipeline Move.publish fun _ _ _ h => Link.Step.publish (s := pipeline _) h

/-- Before anyone began: nothing posted and nothing handled. -/
structure Pipeline.Initial (s : Pipeline κ E) : Prop where
  world : s.world.Initial
  posted_eq : s.posted = []
  handled_eq : s.handled = []

/-- What holds after a run: the publishers' steps are a run of the world, what was posted are
committed rows, and what was handled are bodies of postings that came in time. -/
structure Delivered (link : Link E) (s₀ : Pipeline κ E) (tr : List (Move κ)) (s : Pipeline κ E) :
    Prop where
  run : Run Step s₀.world (tr.filterMap Move.published) s.world
  posted : ∀ p ∈ s.posted, p.row ∈ s.world.committed
  handled : ∀ x ∈ s.handled, ∃ p ∈ s.posted, link.fromSlice (link.body p) = .ok x.2 ∧
    InWindow link.verifier.tolerance x.1 p.timestamp

/-- Every step keeps it. -/
theorem Delivered.step (h : Delivered link s₀ tr s) (hs : link.Step s m s') :
    Delivered link s₀ (tr ++ [m]) s' := by
  cases hs with
  | publish hstep =>
    obtain ⟨rows, hcom, -⟩ := hstep.committed
    refine ⟨?_, fun p hp => ?_, h.handled⟩
    · rw [List.filterMap_append]
      exact h.run.snoc hstep
    · exact hcom ▸ List.mem_append_left _ (h.posted p hp)
  | post p hrow =>
    refine ⟨?_, fun q hq => ?_, fun x hx => ?_⟩
    · rw [List.filterMap_append]
      exact (List.append_nil _).symm ▸ h.run
    · rcases List.mem_append.1 hq with hq | hq
      · exact h.posted q hq
      · exact List.mem_singleton.1 hq ▸ hrow
    · obtain ⟨q, hq, hread⟩ := h.handled x hx
      exact ⟨q, List.mem_append_left _ hq, hread⟩
  | serve now req hunf =>
    refine ⟨?_, h.posted, fun x hx => ?_⟩
    · rw [List.filterMap_append]
      exact (List.append_nil _).symm ▸ h.run
    · rcases List.mem_append.1 hx with hx | hx
      · exact h.handled x hx
      · obtain ⟨envelope, henv, rfl⟩ := Option.map_eq_some_iff.1 (Option.mem_toList.1 hx)
        exact hunf.handled henv

/-- Every run keeps it. -/
theorem Delivered.of_run (h₀ : s₀.Initial) (hr : Run link.Step s₀ tr s) :
    Delivered link s₀ tr s := by
  refine hr.invariant (I := fun tr s => Delivered link s₀ tr s) ⟨.nil, ?_, ?_⟩
    fun _ _ _ _ h hs => h.step hs
  · simp [h₀.posted_eq]
  · simp [h₀.handled_eq]

/-! ## The theorem -/

/-- The envelope carries a published event: its identifier, kind, aggregate, payload and context,
the payload and the metadata as the receiver reads them. -/
structure Link.Carries (link : Link E) (envelope : WebhookEnvelope E Value) (x : Published) :
    Prop where
  eventId_eq : envelope.eventId = x.eventId.uuid
  kind_eq : envelope.kind = DomainEvent.kind x.E
  aggregateType_eq : envelope.aggregateType = DomainEvent.aggregateType x.E
  aggregateId_eq : envelope.aggregateId = DomainEvent.aggregateId x.event
  payload_eq : ∃ payload, Serialize.toValue x.event = .ok payload ∧
    link.payloadOf payload = some envelope.payload
  metadata_eq : ∃ metadata, Serialize.toValue x.ctx.metadata = .ok metadata ∧
    link.metadataOf metadata = envelope.metadata
  actorId_eq : envelope.actorId = x.ctx.actorId
  correlationId_eq : envelope.correlationId = x.ctx.correlationId
  causationId_eq : envelope.causationId = x.ctx.causationId

variable {envelope envelope' : WebhookEnvelope E Value} {p q : Posting}

omit [Serialize Map] [Serialize (List Value)] in
/-- The envelope of a posting has the event id of its row. -/
theorem Link.envelope_eventId (h : link.envelope p = some envelope) :
    envelope.eventId = p.row.eventId := by
  obtain ⟨payload, -, rfl⟩ := Option.map_eq_some_iff.1 h
  rfl

omit [Serialize Map] [Serialize (List Value)] in
/-- Envelopes of one row differ in what the delivery adds at most. -/
theorem Link.envelope_congr (h : link.envelope p = some envelope)
    (h' : link.envelope q = some envelope') (hrow : p.row = q.row) :
    envelope' = { envelope with
      deliveryId := envelope'.deliveryId
      callbackName := envelope'.callbackName
      mode := envelope'.mode
      attempt := envelope'.attempt } := by
  obtain ⟨payload, hpay, rfl⟩ := Option.map_eq_some_iff.1 h
  obtain ⟨payload', hpay', rfl⟩ := Option.map_eq_some_iff.1 h'
  rw [← hrow, hpay, Option.some.injEq] at hpay'
  rw [hpay', hrow]

omit [DecidableEq κ] in
/-- The envelope of a row that records an event carries the event. -/
theorem Link.carries_of_records {x : Published} (h : link.envelope p = some envelope)
    (hrec : RecordsPublished p.row x) : link.Carries envelope x := by
  obtain ⟨payload, hpay, rfl⟩ := Option.map_eq_some_iff.1 h
  exact
    { eventId_eq := hrec.eventId_eq
      kind_eq := hrec.kind_eq
      aggregateType_eq := hrec.aggregateType_eq
      aggregateId_eq := hrec.aggregateId_eq
      payload_eq := ⟨_, hrec.payload_eq, hpay⟩
      metadata_eq := ⟨_, hrec.metadata_eq, rfl⟩
      actorId_eq := hrec.actorId_eq
      correlationId_eq := hrec.correlationId_eq
      causationId_eq := hrec.causationId_eq }

/-- **What a receiver handles was published.** In every run of publishers, the dispatcher and a
receiver that requests from anyone reach, in whatever order, from a table whose ids the sequence has
passed, where what the dispatcher writes is read as the envelope of its row: whatever the handler
was given is the envelope of a posting and came within the tolerance of its timestamp, and its row
is an initial one or the envelope carries an event some publisher published; envelopes with one
event id differ in what the delivery adds at most, so that the event id is a key for the event; and
whatever was posted, a request that brings it in time is handled next. Reference: `Publisher`
(`outbox-publisher/src/publisher.rs:24`), `from_request` (`webhook/mod.rs:289`). -/
theorem handled_published (h₀ : s₀.Initial) (hr : Run link.Step s₀ tr s)
    (hwire : ∀ p ∈ s.posted, (link.fromSlice (link.body p)).toOption = link.envelope p) :
    (∀ x ∈ s.handled, ∃ p ∈ s.posted, link.envelope p = some x.2 ∧
      InWindow link.verifier.tolerance x.1 p.timestamp ∧
      (p.row ∈ s₀.world.committed ∨
        ∃ e ∈ publishedLog (tr.filterMap Move.published), link.Carries x.2 e)) ∧
    (∀ x ∈ s.handled, ∀ y ∈ s.handled, x.2.eventId = y.2.eventId →
      y.2 = { x.2 with
        deliveryId := y.2.deliveryId
        callbackName := y.2.callbackName
        mode := y.2.mode
        attempt := y.2.attempt }) ∧
    (∀ p ∈ s.posted, ∀ now req envelope, link.Brings p req →
      InWindow link.verifier.tolerance now p.timestamp → link.envelope p = some envelope →
      link.Step s (.serve now req) { s with handled := s.handled ++ [(now, envelope)] }) := by
  have hdel := Delivered.of_run h₀ hr
  obtain ⟨rows, hrows, hrec⟩ := (Logged.run h₀.world.client_eq hdel.run).committed
  have hposting : ∀ x ∈ s.handled, ∃ p ∈ s.posted, link.envelope p = some x.2 ∧
      InWindow link.verifier.tolerance x.1 p.timestamp := by
    intro x hx
    obtain ⟨p, hp, hread, hin⟩ := hdel.handled x hx
    refine ⟨p, hp, ?_, hin⟩
    rw [← hwire p hp, hread]
    rfl
  refine ⟨fun x hx => ?_, fun x hx y hy hid => ?_, fun p hp now req envelope hb hin henv => ?_⟩
  · obtain ⟨p, hp, henv, hin⟩ := hposting x hx
    refine ⟨p, hp, henv, hin, ?_⟩
    have hrow := hdel.posted p hp
    rw [hrows, List.mem_append] at hrow
    refine hrow.imp_right fun hrow => ?_
    obtain ⟨e, he, hrece⟩ := exists_of_mem_left hrec hrow
    exact ⟨e, he, Link.carries_of_records henv hrece⟩
  · obtain ⟨p, hp, henv, -⟩ := hposting x hx
    obtain ⟨q, hq, henv', -⟩ := hposting y hy
    rw [Link.envelope_eventId henv, Link.envelope_eventId henv'] at hid
    exact Link.envelope_congr henv henv' (List.inj_on_of_nodup_map
      (Keys.run h₀.world hdel.run).eventIds.nodup_shared (hdel.posted p hp) (hdel.posted q hq) hid)
  · have hread : link.fromSlice (link.body p) = .ok envelope := by
      have hopt := (hwire p hp).trans henv
      cases hread : link.fromSlice (link.body p) with
      | error e =>
        rw [hread] at hopt
        cases hopt
      | ok envelope' =>
        rw [hread] at hopt
        exact congrArg _ (Option.some.inj hopt)
    have hstep := Link.Step.serve (s := s) now req (hb.unforged hp)
    rw [hb.serve_eq hin hread] at hstep
    exact hstep

end

/-! ## One event from end to end -/

/-- The body of the first delivery of the plain event. -/
def startedBody : Bytes :=
  asBytes ("\x7b\"delivery_id\":1,\"event_id\":\"00000000-0000-0000-0000-000000000001\"," ++
    "\"kind\":\"service.started@v1\",\"callback_name\":\"notify\",\"mode\":\"managed\"," ++
    "\"aggregate_type\":\"service\"," ++
    "\"aggregate_id\":\"00000000-0000-0000-0000-000000000000\",\"payload\":null," ++
    "\"metadata\":\x7b\x7d,\"actor_id\":null,\"correlation_id\":null,\"causation_id\":null," ++
    "\"created_at\":\"1970-01-01T00:00:00Z\",\"attempt\":1\x7d").toList

/-- The envelope of the first delivery of the plain event. -/
def startedEnvelope : WebhookEnvelope ServiceStarted Value :=
  ⟨1, 1, "service.started@v1", "notify", "managed", "service", 0, ServiceStarted.mk, .object [],
    none, none, none, 0, 1⟩

/-- A receiver with the empty secret, one body and the tag of it at the epoch. -/
def startedLink (json : Bytes) : Link ServiceStarted where
  hmacSha256 _ _ := #v[11, 26, 212, 60, 31, 137, 206, 149, 94, 47, 213, 145, 174, 234, 200, 171,
    207, 144, 123, 155, 192, 36, 146, 13, 144, 191, 217, 150, 46, 189, 6, 162]
  verifier := WebhookVerifier.new []
  fromSlice body := if body = json then .ok startedEnvelope else .error ⟨"expected value"⟩
  createdAt _ := 0
  buildBody _ _ := json
  payloadOf _ := some ServiceStarted.mk
  metadataOf v := v

/-- The row of the plain event, posted at the epoch. -/
def startedPosting : Posting :=
  ⟨0, startedRow 1 1, ⟨1, "notify", "managed", 1⟩⟩

section
open SerdeJson

/-- The plain event is published, posted and handled. -/
theorem handled_published_started :
    ∃ (tr : List (Move Bool)) (s : Pipeline Bool ServiceStarted),
      Run (startedLink startedBody).Step ⟨.empty Bool, [], []⟩ tr s ∧
        s.handled = [(⟨0, by decide⟩, startedEnvelope)] ∧
        ∃ e ∈ publishedLog (tr.filterMap Move.published),
          (startedLink startedBody).Carries startedEnvelope e := by
  -- for any body, so that nothing evaluates the text of this one
  have hjson : ∀ json : Bytes, ∃ (tr : List (Move Bool)) (s : Pipeline Bool ServiceStarted),
      Run (startedLink json).Step ⟨.empty Bool, [], []⟩ tr s ∧
        s.handled = [(⟨0, by decide⟩, startedEnvelope)] ∧
        ∃ e ∈ publishedLog (tr.filterMap Move.published),
          (startedLink json).Carries startedEnvelope e := by
    intro json
    have hworld := started_commit_run (w := .empty Bool) (c := false) (u := 1) rfl (by decide)
      (by decide) (fun _ _ h => nomatch h)
    have hpost := (Link.run_publish (startedLink json) [] [] hworld).snoc
      (.post startedPosting (List.mem_singleton_self _))
    have hb := (startedLink json).brings_request startedPosting
    have hunf : (startedLink json).Unforged [startedPosting] _ :=
      hb.unforged (List.mem_singleton_self _)
    have hserve := hpost.snoc (.serve ⟨0, by decide⟩ _ hunf)
    have hread : (startedLink json).fromSlice ((startedLink json).body startedPosting) =
        .ok startedEnvelope := if_pos rfl
    have hin : InWindow (Duration.fromSecs 300) ⟨0, by decide⟩ 0 := by decide
    rw [hb.serve_eq hin hread] at hserve
    have h₀ : Pipeline.Initial (⟨.empty Bool, [], []⟩ : Pipeline Bool ServiceStarted) :=
      ⟨World.empty_initial, rfl, rfl⟩
    have hwire : ∀ p ∈ [startedPosting], ((startedLink json).fromSlice
        ((startedLink json).body p)).toOption = (startedLink json).envelope p := by
      intro p hp
      obtain rfl := List.mem_singleton.1 hp
      exact congrArg Except.toOption hread
    obtain ⟨hhandled, -, -⟩ := handled_published h₀ hserve hwire
    obtain ⟨p, hp, -, -, hrow | hcarried⟩ := hhandled _ (List.mem_singleton_self _)
    · cases hrow
    · exact ⟨_, _, hserve, rfl, hcarried⟩
  exact hjson startedBody

end

end OutboxPublisher
