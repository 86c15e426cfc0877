import OutboxPublisher.Text.Hex
import Mathlib.Data.Nat.Init

/-!
# The text of an identifier

A 128-bit identifier written as its 32 lowercase hexadecimal digits in five groups, with a hyphen
between them. `filter_format` takes the hyphens out again, and `format_injective` says that the text
determines the identifier.
-/

namespace UuidText

/-- The digit at a place, the most significant one first. -/
def digit (u : BitVec 128) (i : ℕ) : Char :=
  (u.toNat / 16 ^ (31 - i) % 16).digitChar

/-- The group of `n` digits from a place on. -/
def group (u : BitVec 128) (i n : ℕ) : List Char :=
  (List.range' i n).map (digit u)

/-- The hyphenated text. Reference: `uuid::Uuid`'s `Display`, `uuid::text` of PostgreSQL. -/
def format (u : BitVec 128) : List Char :=
  group u 0 8 ++ '-' :: (group u 8 4 ++ '-' :: (group u 12 4 ++ '-' ::
    (group u 16 4 ++ '-' :: group u 20 12)))

/-- Numbers that agree in their last digits agree modulo the power of the base. -/
theorem mod_pow_eq {a b n : ℕ} (h : ∀ k < n, a / 16 ^ k % 16 = b / 16 ^ k % 16) :
    a % 16 ^ n = b % 16 ^ n := by
  induction n with
  | zero => rw [Nat.pow_zero, Nat.mod_one, Nat.mod_one]
  | succ n ih =>
    rw [Nat.mod_pow_succ, Nat.mod_pow_succ, ih fun k hk => h k (by omega), h n (Nat.lt_succ_self n)]

/-- The digits determine the identifier. -/
theorem digit_injective {u v : BitVec 128} (h : ∀ i < 32, digit u i = digit v i) : u = v := by
  have hdigits : ∀ k < 32, u.toNat / 16 ^ k % 16 = v.toNat / 16 ^ k % 16 := by
    intro k hk
    have hval := congrArg Hex.digitValue (h (31 - k) (by omega))
    have hplace : 31 - (31 - k) = k := by omega
    rw [digit, digit, hplace, Hex.digitValue_digitChar (Nat.mod_lt _ (by omega)),
      Hex.digitValue_digitChar (Nat.mod_lt _ (by omega))] at hval
    exact Option.some.inj hval
  have hmod := mod_pow_eq hdigits
  have hpow : (16 : ℕ) ^ 32 = 2 ^ 128 := by norm_num
  rw [hpow, Nat.mod_eq_of_lt u.isLt, Nat.mod_eq_of_lt v.isLt] at hmod
  exact BitVec.eq_of_toNat_eq hmod

/-- No digit is a hyphen. -/
theorem digit_ne_hyphen (u : BitVec 128) (i : ℕ) : digit u i ≠ '-' := by
  intro h
  have hdigit := Hex.isDigit_digitChar (Nat.mod_lt (u.toNat / 16 ^ (31 - i)) (by omega : 0 < 16))
  rw [digit] at h
  rw [h] at hdigit
  simp [Hex.IsDigit] at hdigit

/-- A group has no hyphen in it. -/
theorem filter_group (u : BitVec 128) (i n : ℕ) : (group u i n).filter (· ≠ '-') = group u i n := by
  refine List.filter_eq_self.2 fun c hc => ?_
  obtain ⟨j, -, rfl⟩ := List.mem_map.1 hc
  exact decide_eq_true (digit_ne_hyphen u j)

/-- Without its hyphens the text is the digits. -/
theorem filter_format (u : BitVec 128) :
    (format u).filter (· ≠ '-') = (List.range' 0 32).map (digit u) := by
  have hhyphen : decide ('-' ≠ '-') = false := decide_eq_false fun h => h rfl
  simp only [format, List.filter_append, List.filter_cons, hhyphen, filter_group]
  rfl

/-- **The text determines the identifier.** -/
theorem format_injective {u v : BitVec 128} (h : format u = format v) : u = v := by
  refine digit_injective fun i hi => ?_
  have hdigits := congrArg (List.filter (· ≠ '-')) h
  rw [filter_format, filter_format, List.map_inj_left] at hdigits
  exact hdigits i (List.mem_range'_1.2 ⟨Nat.zero_le i, by omega⟩)

end UuidText
