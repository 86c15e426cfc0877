import Mathlib.Data.Nat.Basic
import Mathlib.Algebra.Group.Nat.Even
import Mathlib.Tactic.IntervalCases

/-!
# Hexadecimal text

Bytes written as two lowercase hexadecimal digits each (`encode`), and the reader that accepts the
digits of either case (`decode`). `decode_encode` is the round trip, `decode_isSome_iff` the exact
set of texts the reader accepts, and `decode_eq_some_iff` the texts of given bytes: their encoding,
up to the case of its letters.
-/

namespace Hex

/-- A hexadecimal digit of either case. -/
def IsDigit (c : Char) : Prop :=
  ('0' ≤ c ∧ c ≤ '9') ∨ ('a' ≤ c ∧ c ≤ 'f') ∨ ('A' ≤ c ∧ c ≤ 'F')

/-- The value of a digit of either case. -/
def digitValue (c : Char) : Option ℕ :=
  if '0' ≤ c ∧ c ≤ '9' then some (c.toNat - '0'.toNat)
  else if 'a' ≤ c ∧ c ≤ 'f' then some (c.toNat - 'a'.toNat + 10)
  else if 'A' ≤ c ∧ c ≤ 'F' then some (c.toNat - 'A'.toNat + 10)
  else none

/-- The two lowercase digits of a byte, high half first. -/
def encodeByte (b : UInt8) : List Char :=
  [(b.toNat / 16).digitChar, (b.toNat % 16).digitChar]

/-- The lowercase digits of a byte string. -/
def encode (bs : List UInt8) : List Char :=
  bs.flatMap encodeByte

/-- The bytes a text of digits stands for: none at an odd length or at a character that is no
digit. -/
def decode : List Char → Option (List UInt8)
  | [] => some []
  | [_] => none
  | a :: b :: rest => do
    let hi ← digitValue a
    let lo ← digitValue b
    let bs ← decode rest
    return UInt8.ofNat (16 * hi + lo) :: bs

/-- `digitValue` answers on the digits only. -/
theorem digitValue_isSome_iff {c : Char} : (digitValue c).isSome ↔ IsDigit c := by
  unfold digitValue IsDigit
  split_ifs <;> simp_all

/-- The digit written for a half byte is read as that half byte. -/
theorem digitValue_digitChar {n : ℕ} (h : n < 16) : digitValue n.digitChar = some n := by
  interval_cases n <;> rfl

/-- The digit written for a half byte is a digit. -/
theorem isDigit_digitChar {n : ℕ} (h : n < 16) : IsDigit n.digitChar := by
  rw [← digitValue_isSome_iff, digitValue_digitChar h]
  rfl

/-- The characters of an encoding are digits. -/
theorem isDigit_of_mem_encode {bs : List UInt8} {c : Char} (h : c ∈ encode bs) : IsDigit c := by
  obtain ⟨b, -, hc⟩ := List.mem_flatMap.1 h
  have hb := b.toNat_lt
  rcases List.mem_cons.1 hc with rfl | hc
  · exact isDigit_digitChar (by omega)
  · obtain rfl := List.mem_singleton.1 hc
    exact isDigit_digitChar (by omega)

/-- **Round trip.** An encoding decodes to the bytes it was written from. -/
theorem decode_encode (bs : List UInt8) : decode (encode bs) = some bs := by
  induction bs with
  | nil => rfl
  | cons b bs ih =>
    have hb := b.toNat_lt
    have hhi : digitValue (b.toNat / 16).digitChar = some (b.toNat / 16) :=
      digitValue_digitChar (by omega)
    have hlo : digitValue (b.toNat % 16).digitChar = some (b.toNat % 16) :=
      digitValue_digitChar (by omega)
    have hval : UInt8.ofNat (16 * (b.toNat / 16) + b.toNat % 16) = b := by
      rw [Nat.div_add_mod, UInt8.ofNat_toNat]
    rw [encode] at ih
    simp only [encode, List.flatMap_cons, encodeByte, List.cons_append, List.nil_append, decode,
      hhi, hlo, ih, Option.bind_eq_bind, Option.bind_some, hval, Option.pure_def]

/-- **What the reader accepts.** The texts of even length whose characters are all digits. -/
theorem decode_isSome_iff (s : List Char) :
    (decode s).isSome ↔ Even s.length ∧ ∀ c ∈ s, IsDigit c := by
  induction s using decode.induct with
  | case1 => simp [decode]
  | case2 c => simp [decode]
  | case3 a b rest ih =>
    have heven : Even (a :: b :: rest).length ↔ Even rest.length := by
      rw [List.length_cons, List.length_cons, Nat.even_add_one, Nat.even_add_one, not_not]
    rw [heven, List.forall_mem_cons, List.forall_mem_cons, ← digitValue_isSome_iff,
      ← digitValue_isSome_iff, decode]
    cases digitValue a with
    | none => simp
    | some hi =>
      cases digitValue b with
      | none => simp
      | some lo =>
        cases hr : decode rest with
        | none => simpa [hr] using ih
        | some bs => simpa [hr] using ih

/-- The value of a digit does not depend on its case. -/
theorem digitValue_toLower (c : Char) : digitValue c.toLower = digitValue c := by
  by_cases h : 'A' ≤ c ∧ c ≤ 'Z'
  · have hlo : 65 ≤ c.toNat := Char.le_def.1 h.1
    have hhi : c.toNat ≤ 90 := Char.le_def.1 h.2
    rw [← Char.ofNat_toNat c]
    generalize c.toNat = n at hlo hhi
    interval_cases n <;> rfl
  · have hid : c.toLower = c := dif_neg h
    rw [hid]

/-- A digit of either case is the lowercase digit of its value, up to case. -/
theorem toLower_of_isDigit {c : Char} (h : IsDigit c) :
    ∃ n < 16, digitValue c = some n ∧ c.toLower = n.digitChar := by
  rw [IsDigit] at h
  simp only [Char.le_def, UInt32.le_iff_toNat_le] at h
  rw [← Char.ofNat_toNat c]
  have h' : (48 ≤ c.toNat ∧ c.toNat ≤ 57) ∨ (97 ≤ c.toNat ∧ c.toNat ≤ 102) ∨
    (65 ≤ c.toNat ∧ c.toNat ≤ 70) := h
  generalize c.toNat = n at h'
  rcases h' with ⟨hlo, hhi⟩ | ⟨hlo, hhi⟩ | ⟨hlo, hhi⟩
  · refine ⟨n - 48, by omega, ?_⟩
    interval_cases n <;> exact ⟨rfl, rfl⟩
  · refine ⟨n - 87, by omega, ?_⟩
    interval_cases n <;> exact ⟨rfl, rfl⟩
  · refine ⟨n - 55, by omega, ?_⟩
    interval_cases n <;> exact ⟨rfl, rfl⟩

/-- A character has a value exactly when it is, up to case, the digit of that value. -/
theorem digitValue_eq_some_iff {c : Char} {n : ℕ} :
    digitValue c = some n ↔ n < 16 ∧ c.toLower = n.digitChar := by
  constructor
  · intro h
    have hdigit : IsDigit c := by
      rw [← digitValue_isSome_iff, h]
      rfl
    obtain ⟨m, hm, hval, hlow⟩ := toLower_of_isDigit hdigit
    rw [h, Option.some.injEq] at hval
    subst hval
    exact ⟨hm, hlow⟩
  · rintro ⟨hn, hlow⟩
    rw [← digitValue_toLower, hlow, digitValue_digitChar hn]

/-- **The texts of given bytes.** A text decodes to the bytes exactly when it is their encoding, up
to the case of its letters. -/
theorem decode_eq_some_iff {s : List Char} {bs : List UInt8} :
    decode s = some bs ↔ s.map Char.toLower = encode bs := by
  induction s using decode.induct generalizing bs with
  | case1 =>
    cases bs with
    | nil => simp [decode, encode]
    | cons b bs => simp [decode, encode, encodeByte]
  | case2 c =>
    cases bs with
    | nil => simp [decode, encode]
    | cons b bs => simp [decode, encode, encodeByte]
  | case3 a b rest ih =>
    rw [decode, List.map_cons, List.map_cons]
    constructor
    · intro h
      obtain ⟨hi, hhi, h⟩ := Option.bind_eq_some_iff.1 h
      obtain ⟨lo, hlo, h⟩ := Option.bind_eq_some_iff.1 h
      obtain ⟨bs', hbs, h⟩ := Option.bind_eq_some_iff.1 h
      cases h
      obtain ⟨hi16, hlow⟩ := digitValue_eq_some_iff.1 hhi
      obtain ⟨lo16, hlow'⟩ := digitValue_eq_some_iff.1 hlo
      have hval : (UInt8.ofNat (16 * hi + lo)).toNat = 16 * hi + lo :=
        UInt8.toNat_ofNat_of_lt' (by simp only [UInt8.size]; omega)
      have hdiv : (16 * hi + lo) / 16 = hi := by omega
      have hmod : (16 * hi + lo) % 16 = lo := by omega
      rw [encode, List.flatMap_cons, encodeByte, hval, hdiv, hmod, hlow, hlow', ih.1 hbs]
      rfl
    · intro h
      cases bs with
      | nil => cases h
      | cons byte bs =>
        rw [encode, List.flatMap_cons, encodeByte] at h
        simp only [List.cons_append, List.nil_append, List.cons.injEq] at h
        obtain ⟨hlow, hlow', hrest⟩ := h
        have hb := byte.toNat_lt
        have hhi : digitValue a = some (byte.toNat / 16) :=
          digitValue_eq_some_iff.2 ⟨by omega, hlow⟩
        have hlo : digitValue b = some (byte.toNat % 16) :=
          digitValue_eq_some_iff.2 ⟨by omega, hlow'⟩
        rw [hhi, hlo, ih.2 hrest]
        show some (UInt8.ofNat (16 * (byte.toNat / 16) + byte.toNat % 16) :: bs) = some (byte :: bs)
        rw [Nat.div_add_mod, UInt8.ofNat_toNat]

/-- An encoding has two digits for each byte. -/
theorem length_encode (bs : List UInt8) : (encode bs).length = 2 * bs.length := by
  induction bs with
  | nil => rfl
  | cons b bs ih =>
    rw [encode] at ih ⊢
    rw [List.flatMap_cons, List.length_append, ih, encodeByte, List.length_cons, List.length_cons,
      List.length_cons, List.length_nil]
    omega

/-- An encoding has lowercase digits. -/
theorem map_toLower_encode (bs : List UInt8) : (encode bs).map Char.toLower = encode bs :=
  decode_eq_some_iff.1 (decode_encode bs)

end Hex
