import OutboxPublisher.Webhook.Verifier

/-!
# Layouts of one header

The verifier reads a header through two lookups only (`WebhookVerifier.verify_congr`), so its result
does not depend on the order of the parts, on the blanks around them, on parts with neither key, or
on what is appended once both keys are there: `WebhookVerifier.verify_layout`.
-/

namespace OutboxPublisher

namespace Signing

/-- Two headers whose comma-separated parts have one content: the same `t=` and `v1=` parts, up to
order and surrounding whitespace, among any other parts. -/
def Relayout (header header' : List Char) : Prop :=
  FieldText.Relayout isWhitespace [tKey, v1Key] (header.splitOn ',') (header'.splitOn ',')

/-- At most one of the header's trimmed parts starts with the key. -/
def AtMostOne (key header : List Char) : Prop :=
  (headerParts header).countP (key.isPrefixOf ·) ≤ 1

instance (key header : List Char) : Decidable (AtMostOne key header) :=
  inferInstanceAs (Decidable (_ ≤ _))

/-- A new layout of a header keeps the value of a key that it holds at most once. -/
theorem Relayout.lookup_eq {header header' : List Char} (h : Relayout header header')
    {key : List Char} (hkey : key ∈ [tKey, v1Key]) (hone : AtMostOne key header) :
    FieldText.lookup key (headerParts header) = FieldText.lookup key (headerParts header') :=
  FieldText.Relayout.lookup_eq h hkey hone

/-- Text appended after a comma does not change the value of a key that the header holds. -/
theorem lookup_append_header {key header : List Char} (h : ∃ p ∈ headerParts header, key <+: p)
    (s : List Char) :
    FieldText.lookup key (headerParts (header ++ ',' :: s)) =
      FieldText.lookup key (headerParts header) := by
  cases hv : FieldText.lookup key (headerParts header) with
  | none =>
    obtain ⟨p, hp, hpre⟩ := h
    exact absurd hpre (FieldText.lookup_eq_none_iff.1 hv p hp)
  | some v =>
    show FieldText.lookup key (FieldText.parts ',' isWhitespace (header ++ ',' :: s)) = some v
    rw [FieldText.parts_append_cons, FieldText.lookup_append]
    rw [headerParts] at hv
    rw [hv, Option.some_or]

end Signing

namespace WebhookVerifier

variable {hmacSha256 : Bytes → Bytes → Vector UInt8 32} {v : WebhookVerifier} {now : SystemTime}
  {header header' : List Char}

/-- The verifier knows a header that is not empty by its two lookups. Reference:
`WebhookVerifier::verify` (`webhook/mod.rs:125`). -/
theorem verify_congr {body : Bytes} (hne : header ≠ []) (hne' : header' ≠ [])
    (ht : FieldText.lookup Signing.tKey (Signing.headerParts header) =
      FieldText.lookup Signing.tKey (Signing.headerParts header'))
    (hv1 : FieldText.lookup Signing.v1Key (Signing.headerParts header) =
      FieldText.lookup Signing.v1Key (Signing.headerParts header')) :
    v.verify hmacSha256 now header body = v.verify hmacSha256 now header' body := by
  have hemp : header.isEmpty = false := by simpa using hne
  have hemp' : header'.isEmpty = false := by simpa using hne'
  rw [verify, verify, hemp, hemp', Signing.parseTField_eq, Signing.parseTField_eq,
    Signing.parseV1Decoded_eq, Signing.parseV1Decoded_eq, ht, hv1]

end WebhookVerifier

/-- **Layout and appended text do not matter.** Two headers that are not empty, hold each key at
most once and differ only in the order of their parts, in the whitespace around parts and in parts
with neither key are verified alike; and once a header holds both keys, well formed or not, nothing
appended after a comma changes the result. Reference: `WebhookVerifier::verify`
(`webhook/mod.rs:125`). -/
theorem WebhookVerifier.verify_layout (hmacSha256 : Bytes → Bytes → Vector UInt8 32)
    (v : WebhookVerifier) (now : SystemTime) (body : Bytes) :
    (∀ header header', header ≠ [] → header' ≠ [] →
      (Signing.AtMostOne Signing.tKey header ∧ Signing.AtMostOne Signing.v1Key header) →
      (Signing.AtMostOne Signing.tKey header' ∧ Signing.AtMostOne Signing.v1Key header') →
      Signing.Relayout header header' →
      v.verify hmacSha256 now header body = v.verify hmacSha256 now header' body) ∧
    ∀ header s, (∃ p ∈ Signing.headerParts header, Signing.tKey <+: p) →
      (∃ p ∈ Signing.headerParts header, Signing.v1Key <+: p) →
      v.verify hmacSha256 now (header ++ ',' :: s) body =
        v.verify hmacSha256 now header body := by
  refine ⟨?_, ?_⟩
  · intro header header' hne hne' hone _ hlay
    exact verify_congr hne hne' (hlay.lookup_eq (by simp) hone.1) (hlay.lookup_eq (by simp) hone.2)
  · intro header s ht hv1
    have hne : header ≠ [] := by
      intro hnil
      subst hnil
      obtain ⟨p, hp, hpre⟩ := ht
      obtain rfl := List.mem_singleton.1 hp
      exact absurd (List.prefix_nil.1 hpre) (by decide)
    exact verify_congr (by simp) hne (Signing.lookup_append_header ht s)
      (Signing.lookup_append_header hv1 s)

/-- A header with its fields swapped, a space added and a third field between them, and one with a
second timestamp appended. -/
theorem WebhookVerifier.verify_layout_swapped :
    (WebhookVerifier.new []).verify (fun _ _ => Vector.replicate 32 0) ⟨0, by decide⟩
        ['t', '=', '0', ',', 'v', '1', '=', '0', '0'] [] =
      (WebhookVerifier.new []).verify (fun _ _ => Vector.replicate 32 0) ⟨0, by decide⟩
        [' ', 'v', '1', '=', '0', '0', ',', 'x', ',', 't', '=', '0'] [] ∧
    (WebhookVerifier.new []).verify (fun _ _ => Vector.replicate 32 0) ⟨0, by decide⟩
        (['t', '=', '0', ',', 'v', '1', '=', '0', '0'] ++ ',' :: ['t', '=', '9']) [] =
      (WebhookVerifier.new []).verify (fun _ _ => Vector.replicate 32 0) ⟨0, by decide⟩
        ['t', '=', '0', ',', 'v', '1', '=', '0', '0'] [] := by
  refine ⟨(verify_layout _ _ _ []).1 _ _ (by simp) (by simp) ⟨by decide, by decide⟩
    ⟨by decide, by decide⟩ ?_, (verify_layout _ _ _ []).2 _ _ (by decide) (by decide)⟩
  have hswap : Signing.Relayout ['t', '=', '0', ',', 'v', '1', '=', '0', '0']
      ['v', '1', '=', '0', '0', ',', 't', '=', '0'] := .perm (.swap _ _ _)
  have hinsert : Signing.Relayout ['v', '1', '=', '0', '0', ',', 't', '=', '0']
      ['v', '1', '=', '0', '0', ',', 'x', ',', 't', '=', '0'] :=
    @FieldText.Relayout.insert _ _ _ [['v', '1', '=', '0', '0']] [['t', '=', '0']] ['x'] (by decide)
  have hblank : Signing.Relayout ['v', '1', '=', '0', '0', ',', 'x', ',', 't', '=', '0']
      [' ', 'v', '1', '=', '0', '0', ',', 'x', ',', 't', '=', '0'] :=
    @FieldText.Relayout.blanks _ _ _ [] [['x'], ['t', '=', '0']] ['v', '1', '=', '0', '0']
      [' ', 'v', '1', '=', '0', '0'] (by decide)
  exact .trans hswap (.trans hinsert hblank)

end OutboxPublisher
