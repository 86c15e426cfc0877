import OutboxPublisher.Webhook.Verifier
import Mathlib.Data.Set.Function

/-!
# Signing and verifying

The header `Signing.sign` writes is read back by both field readers and accepted by both checks
(`sign_roundTrip`), and a header that is accepted on an issued digest authenticates the timestamp
the window was tested with together with the body (`verify_authentic`). The second rests on
`Signing.message_inj`, the first on the parts of a signed header (`Signing.headerParts_sign`).
-/

namespace OutboxPublisher

namespace Signing

variable (hmacSha256 : Bytes → Bytes → Vector UInt8 32)

/-- The two parts of a signed header. Reference: `sign` (`webhook/signing.rs:75`). -/
theorem headerParts_sign (secret : Bytes) (ts : UInt64) (body : Bytes) :
    headerParts (sign hmacSha256 secret ts body) =
      [tKey ++ formatU64 ts,
        v1Key ++ Hex.encode (hmacSha256 secret (message ts body)).toList] := by
  have hdigits : ∀ c ∈ Hex.encode (hmacSha256 secret (message ts body)).toList,
      isWhitespace c = false ∧ c ≠ ',' :=
    fun c hc => hexDigit_not_blank (Hex.isDigit_of_mem_encode hc)
  rw [sign_eq, ← headerText, headerParts_headerText ts (part_not_blank hdigits).2,
    trimEnd_digits hdigits]

/-- The timestamp of a signed header is read back. Reference: `parse_t_field`
(`webhook/signing.rs:83`). -/
theorem parseTField_sign (secret : Bytes) (ts : UInt64) (body : Bytes) :
    parseTField (sign hmacSha256 secret ts body) = some ts := by
  have hfind : FieldText.lookup tKey (headerParts (sign hmacSha256 secret ts body)) =
      some (formatU64 ts) := by
    rw [headerParts_sign, FieldText.lookup_cons_self]
  rw [parseTField_eq, hfind, Option.bind_some, parseU64_eq_some_iff]
  exact Decimal.isNumeral_toDigits ts.toNat

/-- The digest of a signed header is read back. Reference: `parse_v1_decoded`
(`webhook/signing.rs:63`). -/
theorem parseV1Decoded_sign (secret : Bytes) (ts : UInt64) (body : Bytes) :
    parseV1Decoded (sign hmacSha256 secret ts body) =
      some (hmacSha256 secret (message ts body)).toList := by
  have hfind : FieldText.lookup v1Key (headerParts (sign hmacSha256 secret ts body)) =
      some (Hex.encode (hmacSha256 secret (message ts body)).toList) := by
    have hkey : ¬ v1Key <+: tKey ++ formatU64 ts := fun hpre =>
      absurd (List.cons_prefix_cons.1 hpre).1 (by decide)
    rw [headerParts_sign, FieldText.lookup_cons_of_not_prefix hkey, FieldText.lookup_cons_self]
  rw [parseV1Decoded_eq, hfind, Option.bind_some, Hex.decode_encode]

/-- A signed header is well formed, with what it was signed with. -/
theorem wellFormed_sign (secret : Bytes) (ts : UInt64) (body : Bytes) :
    WellFormed (sign hmacSha256 secret ts body) ts
      (hmacSha256 secret (message ts body)).toList :=
  ⟨parseTField_sign hmacSha256 secret ts body, parseV1Decoded_sign hmacSha256 secret ts body⟩

end Signing

/-! ## Round trip -/

/-- **Signing and verifying agree.** The readers take a signed header apart into what it was signed
with, the public check accepts it at its timestamp, and the verifier accepts it at every clock whose
whole seconds are within the tolerance. Reference: `sign_and_verify_roundtrip`
(`webhook/signing.rs:109`). -/
theorem sign_roundTrip (hmacSha256 : Bytes → Bytes → Vector UInt8 32) (secret body : Bytes)
    (ts : UInt64) (now : SystemTime) (tolerance : Duration) (hnow : 0 ≤ now.nanos)
    (htol : |now.secs - ts.toNat| ≤ tolerance.secs.toNat) :
    Signing.parseTField (Signing.sign hmacSha256 secret ts body) = some ts ∧
    Signing.parseV1Decoded (Signing.sign hmacSha256 secret ts body) =
      some (hmacSha256 secret (Signing.message ts body)).toList ∧
    Signing.verify hmacSha256 secret ts body (Signing.sign hmacSha256 secret ts body) = true ∧
    WebhookVerifier.verify hmacSha256 ⟨secret, tolerance⟩ now
      (Signing.sign hmacSha256 secret ts body) body = .ok () := by
  have hw := Signing.wellFormed_sign hmacSha256 secret ts body
  refine ⟨hw.ts_eq, hw.digest_eq, ?_, ?_⟩
  · rw [Signing.verify_eq, hw.digest_eq, Option.map_some, Option.getD_some,
      Signing.verifyDecoded_iff]
  · exact WebhookVerifier.verify_eq_ok_iff.2 ⟨ts, _, hw, ⟨hnow, htol⟩, rfl⟩

/-- The tag of the message `0.` under the empty key. -/
def epochTag : Vector UInt8 32 :=
  #v[184, 73, 213, 165, 129, 132, 123, 40, 25, 87, 6, 87, 57, 223, 54, 223,
    36, 99, 209, 151, 126, 168, 214, 225, 228, 230, 207, 51, 250, 220, 104, 195]

/-- The round trip of an empty body signed under the empty secret at the epoch, verified two and a
half seconds later within three seconds. -/
theorem sign_roundTrip_epoch :
    Signing.parseTField (Signing.sign (fun _ _ => epochTag) [] 0 []) = some 0 ∧
    Signing.parseV1Decoded (Signing.sign (fun _ _ => epochTag) [] 0 []) =
      some epochTag.toList ∧
    Signing.verify (fun _ _ => epochTag) [] 0 [] (Signing.sign (fun _ _ => epochTag) [] 0 []) =
      true ∧
    WebhookVerifier.verify (fun _ _ => epochTag) ⟨[], Duration.fromSecs 3⟩
      ⟨2500000000, by decide⟩ (Signing.sign (fun _ _ => epochTag) [] 0 []) [] = .ok () :=
  sign_roundTrip (fun _ _ => epochTag) [] [] 0 ⟨2500000000, by decide⟩ (Duration.fromSecs 3)
    (by decide) (by decide)

/-! ## Authenticity -/

/-- **Authenticity of accepted webhooks.** Let the MAC under the secret have no collision on a set
`M` of messages that holds every signed one and the one being verified. A header that is accepted on
a digest issued for one of the signed pairs `Q` carries a timestamp that was signed together with
exactly this body. No 32-byte tag is injective on all messages, so `M` is left to the reader; with
all of them it is the assumption that the MAC is injective. Reference: `WebhookVerifier::verify`
(`webhook/mod.rs:125`). -/
theorem verify_authentic (hmacSha256 : Bytes → Bytes → Vector UInt8 32) (secret : Bytes)
    (M : Set Bytes) (hinj : Set.InjOn (hmacSha256 secret) M) (Q : Set (UInt64 × Bytes))
    (hQ : ∀ q ∈ Q, Signing.message q.1 q.2 ∈ M) (tolerance : Duration) (now : SystemTime)
    (header : List Char) (body : Bytes)
    (hM : ∀ ts, Signing.parseTField header = some ts → Signing.message ts body ∈ M)
    (hissued : ∃ q ∈ Q, Signing.parseV1Decoded header =
      Signing.parseV1Decoded (Signing.sign hmacSha256 secret q.1 q.2))
    (hok : WebhookVerifier.verify hmacSha256 ⟨secret, tolerance⟩ now header body = .ok ()) :
    ∃ ts, Signing.parseTField header = some ts ∧ (ts, body) ∈ Q := by
  obtain ⟨ts, digest, hw, -, hdigest⟩ := WebhookVerifier.verify_eq_ok_iff.1 hok
  obtain ⟨⟨ts', body'⟩, hq, hissued⟩ := hissued
  rw [hw.digest_eq, Signing.parseV1Decoded_sign, Option.some.injEq] at hissued
  have htag : hmacSha256 secret (Signing.message ts body) =
      hmacSha256 secret (Signing.message ts' body') :=
    Vector.toList_inj.1 (hdigest.symm.trans hissued)
  have hmsg := hinj (hM ts hw.ts_eq) (hQ _ hq) htag
  obtain ⟨rfl, rfl⟩ := Signing.message_inj hmsg
  exact ⟨ts, hw.ts_eq, hq⟩

/-- The tags under the empty key of the messages `12..3`, which is the body `.3` at 12, and `1.2.3`,
which is the body `2.3` at 1. -/
def splicedHmac (_ msg : Bytes) : Vector UInt8 32 :=
  if msg = [49, 50, 46, 46, 51] then
    #v[31, 231, 28, 95, 159, 254, 21, 251, 167, 47, 209, 55, 58, 61, 22, 117,
      10, 193, 158, 128, 126, 252, 27, 35, 239, 145, 160, 67, 159, 98, 186, 43]
  else
    #v[244, 92, 103, 46, 133, 159, 89, 250, 146, 73, 126, 10, 55, 78, 122, 173,
      143, 27, 160, 20, 196, 228, 89, 237, 123, 78, 34, 17, 200, 47, 135, 204]

/-- A timestamp with a leading zero and the digest of the body `.3` at 12, followed by the header of
the body `2.3` at 1. -/
def splicedHeader : List Char :=
  ['t', '=', '0', '1', '2', ',', ' ', 'v', '1', '='] ++
    Hex.encode (splicedHmac [] (Signing.message 12 [46, 51])).toList ++ [','] ++
    Signing.sign splicedHmac [] 1 [50, 46, 51]

/-- Authenticity of a header spliced from those of two signed pairs, on the body of one of them. -/
theorem verify_authentic_spliced :
    ∃ ts, Signing.parseTField splicedHeader = some ts ∧
      (ts, [46, 51]) ∈ ({(12, [46, 51]), (1, [50, 46, 51])} : Set (UInt64 × Bytes)) := by
  have hts : Signing.parseTField splicedHeader = some 12 := by decide
  have hinj : Set.InjOn (splicedHmac [])
      {Signing.message 12 [46, 51], Signing.message 1 [50, 46, 51]} := by
    rintro m (rfl | rfl) m' (rfl | rfl) htag
    · rfl
    · exact absurd htag (by decide)
    · exact absurd htag (by decide)
    · rfl
  refine verify_authentic splicedHmac [] _ hinj _ ?_ (Duration.fromSecs 3) ⟨13500000000, by decide⟩
    splicedHeader [46, 51] ?_ ⟨_, .inl rfl, by decide⟩ (by decide)
  · rintro q (rfl | rfl)
    · exact .inl rfl
    · exact .inr rfl
  · intro ts h
    obtain rfl := Option.some.inj (hts.symm.trans h)
    exact .inl rfl

end OutboxPublisher
