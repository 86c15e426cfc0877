import Mathlib.Data.Nat.Basic
import Mathlib.Data.List.Basic

/-!
# Decimal numerals below a limit

`read limit` reads an unsigned decimal numeral as a fixed-width parser does: an optional `+`, then
one or more digits, accumulated from the left and given up as soon as the value reaches `limit`.
`IsNumeral` is the same set of texts without the accumulator, and `read_eq_some_iff` says that the
early overflow test loses nothing. The canonical numeral of `n` is the core library's
`Nat.toDigits 10 n`; its value is `n` (`isNumeral_toDigits`) and it contains digits only, so a text
that starts with a canonical numeral and a separator splits in one way only
(`toDigits_append_cons_inj`).
-/

namespace Decimal

/-- One accumulation step: fails on a character that is no digit and when the value reaches
`limit`. -/
def readDigit (limit acc : ℕ) (c : Char) : Option ℕ :=
  if c.isDigit then
    if 10 * acc + (c.toNat - '0'.toNat) < limit then some (10 * acc + (c.toNat - '0'.toNat))
    else none
  else none

/-- The value of an unsigned numeral, when it is one and is below `limit`. A sign that stands
alone is no numeral, and `-` is no sign of an unsigned one. -/
def read (limit : ℕ) : List Char → Option ℕ
  | [] => none
  | ['+'] => none
  | ['-'] => none
  | '+' :: digits => digits.foldlM (readDigit limit) 0
  | digits => digits.foldlM (readDigit limit) 0

/-- `s` is an optional `+` followed by one or more decimal digits of value `n`. -/
def IsNumeral (s : List Char) (n : ℕ) : Prop :=
  ∃ digits, (s = digits ∨ s = '+' :: digits) ∧ digits ≠ [] ∧ (∀ c ∈ digits, c.isDigit) ∧
    n = Nat.ofDigitChars 10 digits 0

/-- Reading further digits never makes the value smaller. -/
theorem le_ofDigitChars (digits : List Char) (acc : ℕ) :
    acc ≤ Nat.ofDigitChars 10 digits acc := by
  induction digits generalizing acc with
  | nil => simp
  | cons c cs ih =>
    rw [Nat.ofDigitChars_cons]
    exact le_trans (by omega) (ih _)

/-- The accumulation succeeds on digits only, and its overflow test amounts to one test of the
final value. -/
theorem foldlM_readDigit {limit acc n : ℕ} (hacc : acc < limit) (digits : List Char) :
    digits.foldlM (readDigit limit) acc = some n ↔
      (∀ c ∈ digits, c.isDigit) ∧ n = Nat.ofDigitChars 10 digits acc ∧ n < limit := by
  induction digits generalizing acc with
  | nil =>
    simp only [List.foldlM_nil, Option.pure_def, Option.some.injEq, List.not_mem_nil,
      false_imp_iff, implies_true, Nat.ofDigitChars_nil, true_and]
    exact ⟨fun h => ⟨h.symm, h ▸ hacc⟩, fun h => h.1.symm⟩
  | cons c cs ih =>
    simp only [List.foldlM_cons, List.forall_mem_cons, Nat.ofDigitChars_cons]
    by_cases hc : c.isDigit
    · by_cases hlt : 10 * acc + (c.toNat - '0'.toNat) < limit
      · have hstep : readDigit limit acc c = some (10 * acc + (c.toNat - '0'.toNat)) := by
          rw [readDigit, if_pos hc, if_pos hlt]
        rw [hstep, Option.bind_eq_bind, Option.bind_some, ih hlt]
        simp [hc]
      · have hstep : readDigit limit acc c = none := by rw [readDigit, if_pos hc, if_neg hlt]
        rw [hstep, Option.bind_eq_bind, Option.bind_none]
        refine ⟨(nomatch ·), fun ⟨_, hn, hlim⟩ => absurd ?_ hlt⟩
        have := le_ofDigitChars cs (10 * acc + (c.toNat - '0'.toNat))
        omega
    · have hstep : readDigit limit acc c = none := by rw [readDigit, if_neg hc]
      rw [hstep, Option.bind_eq_bind, Option.bind_none]
      exact ⟨(nomatch ·), fun h => absurd h.1.1 hc⟩

/-- A numeral that starts with a digit is read by the accumulation, as no sign matches. -/
theorem read_digits {limit : ℕ} {c : Char} {cs : List Char} (hc : c.isDigit) :
    read limit (c :: cs) = (c :: cs).foldlM (readDigit limit) 0 := by
  unfold read
  split
  · contradiction
  · simp_all
  · simp_all
  · simp_all
  · rfl

/-- **What the reader accepts.** Exactly the numerals whose value is below the limit. -/
theorem read_eq_some_iff {limit n : ℕ} (hlim : 0 < limit) {s : List Char} :
    read limit s = some n ↔ IsNumeral s n ∧ n < limit := by
  constructor
  · intro h
    unfold read at h
    split at h
    · cases h
    · cases h
    · cases h
    · rename_i digits hne
      obtain ⟨hd, rfl, hlt⟩ := (foldlM_readDigit hlim _).1 h
      exact ⟨⟨digits, .inr rfl, fun h => hne (h ▸ rfl), hd, rfl⟩, hlt⟩
    · rename_i hnil _ _ _
      obtain ⟨hd, rfl, hlt⟩ := (foldlM_readDigit hlim _).1 h
      exact ⟨⟨s, .inl rfl, hnil, hd, rfl⟩, hlt⟩
  · rintro ⟨⟨digits, hs, hne, hd, rfl⟩, hlt⟩
    have key : digits.foldlM (readDigit limit) 0 = some (Nat.ofDigitChars 10 digits 0) :=
      (foldlM_readDigit hlim _).2 ⟨hd, rfl, hlt⟩
    cases digits with
    | nil => exact absurd rfl hne
    | cons c cs =>
      rcases hs with rfl | rfl
      · rw [read_digits (hd c (by simp)), key]
      · exact key

/-- A numeral has one value. -/
theorem IsNumeral.unique {s : List Char} {m n : ℕ} (hm : IsNumeral s m) (hn : IsNumeral s n) :
    m = n := by
  have hlim : 0 < m + n + 1 := by omega
  have h1 := (read_eq_some_iff hlim).2 ⟨hm, by omega⟩
  have h2 := (read_eq_some_iff hlim).2 ⟨hn, by omega⟩
  exact Option.some.inj (h1.symm.trans h2)

/-! ## Canonical numerals -/

/-- A separator that occurs in neither prefix cuts a text in one way only. -/
theorem append_sep_inj {β : Type*} [BEq β] [LawfulBEq β] {sep : β} {xs ys us vs : List β}
    (hx : sep ∉ xs) (hy : sep ∉ ys) (h : xs ++ sep :: us = ys ++ sep :: vs) :
    xs = ys ∧ us = vs := by
  have hs := congrArg (List.splitOn sep) h
  rw [List.splitOn_append_cons_self_of_not_mem hx, List.splitOn_append_cons_self_of_not_mem hy]
    at hs
  obtain ⟨rfl, -⟩ := List.cons.inj hs
  exact ⟨rfl, by simpa using h⟩

/-- Mapping is injective on the lists over a set on which the function is injective. -/
theorem map_inj_of_mem {α β : Type*} {f : α → β} : ∀ {xs ys : List α},
    (∀ x ∈ xs, ∀ y ∈ ys, f x = f y → x = y) → xs.map f = ys.map f → xs = ys
  | [], [], _, _ => rfl
  | x :: xs, y :: ys, hf, h => by
    obtain ⟨hxy, hrest⟩ := List.cons.inj h
    rw [hf x (by simp) y (by simp) hxy,
      map_inj_of_mem (fun a ha b hb => hf a (by simp [ha]) b (by simp [hb])) hrest]

/-- The characters of a canonical numeral are digits. -/
theorem isDigit_of_mem_toDigits {n : ℕ} {c : Char} (h : c ∈ Nat.toDigits 10 n) : c.isDigit :=
  Nat.isDigit_of_mem_toDigits (by omega) (by omega) h

/-- The canonical numeral of `n` is a numeral of value `n`. -/
theorem isNumeral_toDigits (n : ℕ) : IsNumeral (Nat.toDigits 10 n) n :=
  ⟨_, .inl rfl, Nat.toDigits_ne_nil, fun _ => isDigit_of_mem_toDigits,
    Nat.ofDigitChars_ten_toDigits.symm⟩

/-- Distinct numbers have distinct canonical numerals. -/
theorem toDigits_inj {m n : ℕ} (h : Nat.toDigits 10 m = Nat.toDigits 10 n) : m = n :=
  (h ▸ isNumeral_toDigits m).unique (isNumeral_toDigits n)

/-- A separator that no digit is encoded to marks where a canonical numeral ends: two encoded
numerals, each followed by the separator and a rest, agree only when the numbers and the rests
do. -/
theorem toDigits_append_cons_inj {β : Type*} [BEq β] [LawfulBEq β] {f : Char → β} {sep : β}
    (hf : ∀ c d : Char, c.isDigit → d.isDigit → f c = f d → c = d)
    (hsep : ∀ c : Char, c.isDigit → f c ≠ sep) {m n : ℕ} {xs ys : List β}
    (h : (Nat.toDigits 10 m).map f ++ sep :: xs = (Nat.toDigits 10 n).map f ++ sep :: ys) :
    m = n ∧ xs = ys := by
  have hnot : ∀ k : ℕ, sep ∉ (Nat.toDigits 10 k).map f := by
    intro k hk
    obtain ⟨c, hc, hcs⟩ := List.mem_map.1 hk
    exact hsep c (isDigit_of_mem_toDigits hc) hcs
  obtain ⟨hd, hxy⟩ := append_sep_inj (hnot m) (hnot n) h
  refine ⟨toDigits_inj (map_inj_of_mem (fun c hc d hd => ?_) hd), hxy⟩
  exact hf c d (isDigit_of_mem_toDigits hc) (isDigit_of_mem_toDigits hd)

end Decimal
