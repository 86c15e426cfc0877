import OutboxPublisher.Webhook.Signing

/-!
# What the header functions compute

Specification lemmas of the functions of `OutboxPublisher.Webhook.Signing`, so that no later module
unfolds them. The header is read through its trimmed comma-separated parts (`headerParts`): each
reader returns the value of the first part with its key, so the two readers never pick up each
other's parts. The MAC input is `message`, on the signing and on the verifying side.
-/

namespace OutboxPublisher

namespace Signing

/-- The comma-separated parts of a header, trimmed. -/
def headerParts (header : List Char) : List (List Char) :=
  FieldText.parts ',' isWhitespace header

/-- The key of the timestamp field. -/
def tKey : List Char := ['t', '=']

/-- The key of the digest field. -/
def v1Key : List Char := ['v', '1', '=']

/-- The header `t={ts},v1={h}`. -/
def headerText (ts : UInt64) (h : List Char) : List Char :=
  tKey ++ formatU64 ts ++ ',' :: (v1Key ++ h)

/-- The text without the whitespace at its end. Reference: `str::trim_end`. -/
def trimEnd (s : List Char) : List Char :=
  s.rdropWhile isWhitespace

/-- The signed bytes: the decimal timestamp, a dot, the body. -/
def message (ts : UInt64) (body : Bytes) : Bytes :=
  asBytes (formatU64 ts ++ ['.']) ++ body

/-! ## Characters -/

/-- The decimal text of a number has digits only. -/
theorem isDigit_of_mem_formatU64 {n : UInt64} {c : Char} (h : c ∈ formatU64 n) : c.isDigit :=
  Decimal.isDigit_of_mem_toDigits h

/-- A decimal digit is one byte of text, its code point. -/
theorem utf8EncodeChar_of_isDigit {c : Char} (h : c.isDigit) :
    String.utf8EncodeChar c = [c.val.toUInt8] := by
  refine String.utf8EncodeChar_eq_singleton ?_
  rw [Char.isDigit_iff_toNat] at h
  have h9 : c.val.toNat ≤ 57 := h.2
  rw [Char.utf8Size]
  exact if_pos (UInt32.le_iff_toNat_le.2 (le_trans h9 (by decide)))

/-- The bytes of a text of digits, followed by a dot. -/
theorem asBytes_digits {s : List Char} (h : ∀ c ∈ s, c.isDigit) :
    asBytes (s ++ ['.']) = s.map (·.val.toUInt8) ++ [46] := by
  induction s with
  | nil => rfl
  | cons c cs ih =>
    rw [asBytes] at ih ⊢
    rw [List.cons_append, List.flatMap_cons, ih fun d hd => h d (by simp [hd]),
      utf8EncodeChar_of_isDigit (h c (by simp))]
    rfl

/-- Digits are told apart by their bytes. -/
theorem digit_byte_inj {c d : Char} (hc : c.isDigit) (hd : d.isDigit)
    (h : c.val.toUInt8 = d.val.toUInt8) : c = d := by
  rw [Char.isDigit_iff_toNat] at hc hd
  have hc9 : c.val.toNat ≤ 57 := hc.2
  have hd9 : d.val.toNat ≤ 57 := hd.2
  have hn := congrArg UInt8.toNat h
  rw [UInt32.toNat_toUInt8, UInt32.toNat_toUInt8] at hn
  refine Char.ext (UInt32.toNat_inj.1 ?_)
  omega

/-- The byte of the dot is the byte of no digit. -/
theorem digit_byte_ne_dot {c : Char} (hc : c.isDigit) : c.val.toUInt8 ≠ 46 := by
  rw [Char.isDigit_iff_toNat] at hc
  have h0 : 48 ≤ c.val.toNat := hc.1
  have h9 : c.val.toNat ≤ 57 := hc.2
  intro h
  have hn := congrArg UInt8.toNat h
  rw [UInt32.toNat_toUInt8] at hn
  have : (46 : UInt8).toNat = 46 := rfl
  omega

/-- A decimal digit is no whitespace and no comma. -/
theorem isDigit_not_blank {c : Char} (h : c.isDigit) : isWhitespace c = false ∧ c ≠ ',' := by
  rw [Char.isDigit_iff_toNat] at h
  have h0 : 48 ≤ c.toNat := h.1
  have h9 : c.toNat ≤ 57 := h.2
  refine ⟨?_, ?_⟩
  · simp [isWhitespace]
    omega
  · rintro rfl
    exact absurd h0 (by decide)

/-- A hexadecimal digit is no whitespace and no comma. -/
theorem hexDigit_not_blank {c : Char} (h : Hex.IsDigit c) :
    isWhitespace c = false ∧ c ≠ ',' := by
  have hn : 48 ≤ c.toNat ∧ c.toNat ≤ 102 := by
    rcases h with ⟨h0, h9⟩ | ⟨ha, hf⟩ | ⟨ha, hf⟩
    · exact ⟨Char.le_def.1 h0, le_trans (Char.le_def.1 h9) (by decide)⟩
    · exact ⟨le_trans (by decide) (Char.le_def.1 ha), Char.le_def.1 hf⟩
    · exact ⟨le_trans (by decide) (Char.le_def.1 ha), le_trans (Char.le_def.1 hf) (by decide)⟩
  refine ⟨?_, ?_⟩
  · simp [isWhitespace]
    omega
  · rintro rfl
    exact absurd hn.1 (by decide)

/-- The key of the timestamp field has no whitespace and no comma. -/
theorem tKey_not_blank : ∀ c ∈ tKey, isWhitespace c = false ∧ c ≠ ',' := by
  simp [tKey, isWhitespace]

/-- The key of the digest field has no whitespace and no comma. -/
theorem v1Key_not_blank : ∀ c ∈ v1Key, isWhitespace c = false ∧ c ≠ ',' := by
  simp [v1Key, isWhitespace]

/-- A part of characters that are neither whitespace nor commas is cut out whole. -/
theorem part_not_blank {part : List Char}
    (h : ∀ c ∈ part, isWhitespace c = false ∧ c ≠ ',') :
    FieldText.trim isWhitespace part = part ∧ ',' ∉ part :=
  ⟨FieldText.trim_eq_self fun c hc => (h c hc).1, fun hc => (h _ hc).2 rfl⟩

/-- A `t=` part has no whitespace and no comma. -/
theorem tPart_not_blank (ts : UInt64) :
    ∀ c ∈ tKey ++ formatU64 ts, isWhitespace c = false ∧ c ≠ ',' := by
  intro c hc
  rcases List.mem_append.1 hc with hc | hc
  · exact tKey_not_blank c hc
  · exact isDigit_not_blank (isDigit_of_mem_formatU64 hc)

/-- A text of characters that are no whitespace has none at its end. -/
theorem trimEnd_digits {s : List Char} (h : ∀ c ∈ s, isWhitespace c = false ∧ c ≠ ',') :
    trimEnd s = s :=
  List.rdropWhile_eq_self_iff.2 fun hl => by simp [(h _ (List.getLast_mem hl)).1]

/-- The two parts of a header `t={ts},v1={h}`: the whitespace after the digest is trimmed, and the
whitespace before it is not. -/
theorem headerParts_headerText (ts : UInt64) {h : List Char} (hcomma : ',' ∉ h) :
    headerParts (headerText ts h) = [tKey ++ formatU64 ts, v1Key ++ trimEnd h] := by
  obtain ⟨htrim, hnot⟩ := part_not_blank (tPart_not_blank ts)
  have hv1 : ',' ∉ v1Key ++ h := by
    intro hmem
    rcases List.mem_append.1 hmem with hmem | hmem
    · exact (v1Key_not_blank _ hmem).2 rfl
    · exact hcomma hmem
  have htrimv : FieldText.trim isWhitespace (v1Key ++ h) = v1Key ++ trimEnd h :=
    FieldText.trim_append (by simp [v1Key]) (fun c hc => (v1Key_not_blank c hc).1) h
  rw [headerText, headerParts, FieldText.parts,
    List.splitOn_append_cons_self_of_not_mem hnot, List.splitOn_eq_singleton hv1,
    List.map_cons, List.map_cons, List.map_nil, htrim, htrimv]

/-! ## The MAC input -/

/-- **The MAC input determines what was signed.** No boundary shift between the digits of the
timestamp, the dot and the body gives a second reading. -/
theorem message_inj {ts ts' : UInt64} {body body' : Bytes}
    (h : message ts body = message ts' body') : ts = ts' ∧ body = body' := by
  rw [message, message, asBytes_digits fun _ => isDigit_of_mem_formatU64,
    asBytes_digits fun _ => isDigit_of_mem_formatU64, List.append_assoc, List.append_assoc,
    List.singleton_append, List.singleton_append] at h
  obtain ⟨hts, hbody⟩ := Decimal.toDigits_append_cons_inj
    (fun _ _ hc hd => digit_byte_inj hc hd) (fun _ hc => digit_byte_ne_dot hc) h
  exact ⟨UInt64.toNat_inj.1 hts, hbody⟩

section
variable (hmacSha256 : Bytes → Bytes → Vector UInt8 32)

/-- The comparison of a MAC succeeds on its own tag only. Reference: `Mac::verify_slice`. -/
theorem verifySlice_isOk_iff {m : Mac} {tag : Bytes} :
    (m.verifySlice hmacSha256 tag).isOk = true ↔ tag = (m.finalize hmacSha256).toList := by
  rw [Mac.verifySlice]
  by_cases h : tag = (m.finalize hmacSha256).toList
  · rw [if_pos h]
    exact ⟨fun _ => h, fun _ => rfl⟩
  · rw [if_neg h]
    exact ⟨(nomatch ·), fun h' => absurd h' h⟩

/-- A digest passes exactly when it is the whole tag of the message. Reference: `verify_decoded`
(`webhook/signing.rs:45`). -/
theorem verifyDecoded_iff {secret : Bytes} {ts : UInt64} {body digest : Bytes} :
    verifyDecoded hmacSha256 secret ts body digest = true ↔
      digest = (hmacSha256 secret (message ts body)).toList := by
  rw [verifyDecoded, verifySlice_isOk_iff]
  rfl

/-- The header `sign` writes. Reference: `sign` (`webhook/signing.rs:75`). -/
theorem sign_eq (secret : Bytes) (ts : UInt64) (body : Bytes) :
    sign hmacSha256 secret ts body = tKey ++ formatU64 ts ++ ',' ::
      (v1Key ++ Hex.encode (hmacSha256 secret (message ts body)).toList) := by
  simp [sign, Mac.finalize, Mac.update, Mac.newFromSlice, message, tKey, v1Key]

end

/-! ## The field readers -/

/-- The timestamp reader is the lookup of `t=` followed by the number parser. Reference:
`parse_t_field` (`webhook/signing.rs:83`). -/
theorem parseTField_eq (header : List Char) :
    parseTField header = (FieldText.lookup tKey (headerParts header)).bind parseU64 := by
  rw [FieldText.lookup, headerParts, FieldText.parts, List.findSome?_map, parseTField]
  show _ = Option.bind ((header.splitOn ',').findSome? fun part => tKey.isPrefixOf? (trim part)) _
  unfold tKey
  cases (header.splitOn ',').findSome? fun part => ['t', '='].isPrefixOf? (trim part) <;> rfl

/-- The digest reader is the lookup of `v1=`. Reference: `parse_v1_digest`
(`webhook/signing.rs:92`). -/
theorem parseV1Digest_eq (header : List Char) :
    parseV1Digest header = FieldText.lookup v1Key (headerParts header) := by
  rw [FieldText.lookup, headerParts, FieldText.parts, List.findSome?_map]
  rfl

/-- The decoded digest is the lookup of `v1=` followed by the hexadecimal reader. Reference:
`parse_v1_decoded` (`webhook/signing.rs:63`). -/
theorem parseV1Decoded_eq (header : List Char) :
    parseV1Decoded header = (FieldText.lookup v1Key (headerParts header)).bind Hex.decode := by
  rw [← parseV1Digest_eq]
  rfl

/-- The public check is the decoding followed by the digest comparison. Reference: `verify`
(`webhook/signing.rs:31`). -/
theorem verify_eq (hmacSha256 : Bytes → Bytes → Vector UInt8 32) (secret : Bytes) (ts : UInt64)
    (body : Bytes) (header : List Char) :
    verify hmacSha256 secret ts body header =
      ((parseV1Decoded header).map (verifyDecoded hmacSha256 secret ts body)).getD false := by
  rw [verify, parseV1Decoded]
  cases parseV1Digest header with
  | none => rfl
  | some text =>
    simp only [Option.bind_eq_bind, Option.bind_some]
    cases Hex.decode text <;> rfl

/-- The number parser accepts an optional `+` and digits of a value that fits 64 bits. -/
theorem parseU64_eq_some_iff {s : List Char} {ts : UInt64} :
    parseU64 s = some ts ↔ Decimal.IsNumeral s ts.toNat := by
  have hsize : 0 < UInt64.size := by decide
  constructor
  · intro h
    obtain ⟨n, hn, rfl⟩ := Option.map_eq_some_iff.1 h
    obtain ⟨hnum, hlt⟩ := (Decimal.read_eq_some_iff hsize).1 hn
    rwa [UInt64.toNat_ofNat_of_lt' hlt]
  · intro h
    rw [parseU64, (Decimal.read_eq_some_iff hsize).2 ⟨h, ts.toNat_lt⟩, Option.map_some,
      UInt64.ofNat_toNat]

/-- The number parser refuses every other text. -/
theorem parseU64_eq_none_iff {s : List Char} :
    parseU64 s = none ↔ ¬ ∃ n, Decimal.IsNumeral s n ∧ n < 2 ^ 64 := by
  rw [Option.eq_none_iff_forall_not_mem]
  simp only [Option.mem_def, parseU64_eq_some_iff]
  constructor
  · rintro h ⟨n, hn, hlt⟩
    exact h (UInt64.ofNat n) (by rwa [UInt64.toNat_ofNat_of_lt' hlt])
  · exact fun h ts hts => h ⟨ts.toNat, hts, ts.toNat_lt⟩

end Signing

end OutboxPublisher
