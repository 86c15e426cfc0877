import Mathlib.Data.List.Infix
import Mathlib.Data.List.DropRight

/-!
# First-match fields of a separated text

A text such as `k=v, k'=v'` is cut into parts at a separator, every part is trimmed, and the value
of a key is what follows the key in the first part that starts with it. `lookup` computes that
value and `FirstMatch` says which value it is; `lookup_eq_some_iff` and `lookup_eq_none_iff` are
the two halves of their agreement. The element type is arbitrary.
-/

namespace FieldText

section
variable {α : Type*}

/-- The text without the blank elements at its two ends. -/
def trim (blank : α → Bool) (s : List α) : List α :=
  (s.dropWhile blank).rdropWhile blank

/-- A text with no blank element at all is its own trimming. -/
theorem trim_eq_self {blank : α → Bool} {s : List α} (h : ∀ c ∈ s, blank c = false) :
    trim blank s = s := by
  have hd : s.dropWhile blank = s := by
    cases s with
    | nil => rfl
    | cons c cs => rw [List.dropWhile_cons_of_neg (by simp [h c (by simp)])]
  rw [trim, hd, List.rdropWhile_eq_self_iff]
  intro hl
  simp [h _ (List.getLast_mem hl)]

/-- Dropping blanks at the end stops at a text without blanks. -/
theorem rdropWhile_append {blank : α → Bool} {key : List α} (h : ∀ c ∈ key, blank c = false)
    (s : List α) : (key ++ s).rdropWhile blank = key ++ s.rdropWhile blank := by
  have hkey : key.rdropWhile blank = key :=
    List.rdropWhile_eq_self_iff.2 fun hl => by simp [h _ (List.getLast_mem hl)]
  rw [List.rdropWhile] at hkey ⊢
  rw [List.reverse_append, List.dropWhile_append]
  split
  · next hs =>
    rw [hkey, List.rdropWhile, List.isEmpty_iff.1 hs, List.reverse_nil, List.append_nil]
  · rw [List.reverse_append, List.reverse_reverse, List.rdropWhile]

/-- A part that starts with a key loses its blanks after the value only. -/
theorem trim_append {blank : α → Bool} {key : List α} (hne : key ≠ [])
    (h : ∀ c ∈ key, blank c = false) (s : List α) :
    trim blank (key ++ s) = key ++ s.rdropWhile blank := by
  have hdrop : (key ++ s).dropWhile blank = key ++ s := by
    obtain ⟨c, cs, rfl⟩ := List.exists_cons_of_ne_nil hne
    rw [List.cons_append, List.dropWhile_cons_of_neg (by simp [h c (by simp)])]
  rw [trim, hdrop, rdropWhile_append h]

/-- Two lists of parts have one content: the one arises from the other by reordering parts, by
inserting or removing parts that start with none of the keys once they are trimmed, and by changing
the blanks around parts. -/
inductive Relayout (blank : α → Bool) (keys : List (List α)) :
    List (List α) → List (List α) → Prop
  | perm {ps qs} : ps.Perm qs → Relayout blank keys ps qs
  | insert {before after p} : (∀ key ∈ keys, ¬ key <+: trim blank p) →
      Relayout blank keys (before ++ after) (before ++ p :: after)
  | blanks {before after p q} : trim blank p = trim blank q →
      Relayout blank keys (before ++ p :: after) (before ++ q :: after)
  | symm {ps qs} : Relayout blank keys ps qs → Relayout blank keys qs ps
  | trans {ps qs rs} : Relayout blank keys ps qs → Relayout blank keys qs rs →
      Relayout blank keys ps rs

variable [BEq α]

/-- The trimmed parts of a text, in order. -/
def parts (sep : α) (blank : α → Bool) (s : List α) : List (List α) :=
  (s.splitOn sep).map (trim blank)

/-- What follows `key` in the first part that starts with it. -/
def lookup (key : List α) (ps : List (List α)) : Option (List α) :=
  ps.findSome? key.isPrefixOf?

/-- `v` is what follows `key` in the first of the parts that starts with it. -/
def FirstMatch (key : List α) (ps : List (List α)) (v : List α) : Prop :=
  ∃ before after, ps = before ++ (key ++ v) :: after ∧ ∀ p ∈ before, ¬ key <+: p

/-- A first part with the key decides, whatever parts follow. -/
theorem lookup_append (key : List α) (ps qs : List (List α)) :
    lookup key (ps ++ qs) = (lookup key ps).or (lookup key qs) :=
  List.findSome?_append

variable [LawfulBEq α]

/-- Stripping a prefix fails exactly on the texts that do not start with it. -/
theorem isPrefixOf?_eq_none_iff {key s : List α} : key.isPrefixOf? s = none ↔ ¬ key <+: s := by
  rw [Option.eq_none_iff_forall_not_mem]
  simp only [Option.mem_def, List.isPrefixOf?_eq_some_iff_append_eq]
  exact ⟨fun h ⟨t, ht⟩ => h t ht, fun h t ht => h ⟨t, ht⟩⟩

/-- `lookup` finds the value of the first matching part. -/
theorem lookup_eq_some_iff {key v : List α} {ps : List (List α)} :
    lookup key ps = some v ↔ FirstMatch key ps v := by
  simp only [lookup, FirstMatch, List.findSome?_eq_some_iff, isPrefixOf?_eq_none_iff,
    List.isPrefixOf?_eq_some_iff_append_eq]
  constructor
  · rintro ⟨before, p, after, rfl, rfl, hb⟩
    exact ⟨before, after, rfl, hb⟩
  · rintro ⟨before, after, rfl, hb⟩
    exact ⟨before, _, after, rfl, rfl, hb⟩

/-- `lookup` fails exactly when no part starts with the key. -/
theorem lookup_eq_none_iff {key : List α} {ps : List (List α)} :
    lookup key ps = none ↔ ∀ p ∈ ps, ¬ key <+: p := by
  simp only [lookup, List.findSome?_eq_none_iff, isPrefixOf?_eq_none_iff]

/-- A first part that starts with the key decides. -/
@[simp] theorem lookup_cons_self (key v : List α) (ps : List (List α)) :
    lookup key ((key ++ v) :: ps) = some v :=
  lookup_eq_some_iff.2 ⟨[], ps, rfl, fun _ h => nomatch h⟩

/-- A first part that does not start with the key is passed over. -/
theorem lookup_cons_of_not_prefix {key p : List α} (h : ¬ key <+: p) (ps : List (List α)) :
    lookup key (p :: ps) = lookup key ps := by
  rw [lookup, List.findSome?_cons, isPrefixOf?_eq_none_iff.2 h, lookup]

/-- Only the parts that start with the key matter. -/
theorem lookup_filter (key : List α) (ps : List (List α)) :
    lookup key (ps.filter (key.isPrefixOf ·)) = lookup key ps := by
  induction ps with
  | nil => rfl
  | cons p ps ih =>
    by_cases h : key <+: p
    · obtain ⟨v, rfl⟩ := h
      rw [List.filter_cons_of_pos (by simp), lookup_cons_self, lookup_cons_self]
    · rw [List.filter_cons_of_neg (by simpa using h), ih, lookup_cons_of_not_prefix h]

/-- A text cut at one more separator has the parts of the two pieces. -/
theorem parts_append_cons (sep : α) (blank : α → Bool) (s t : List α) :
    parts sep blank (s ++ sep :: t) = parts sep blank s ++ parts sep blank t := by
  rw [parts, List.splitOn_append_cons_self, List.map_append, parts, parts]

/-- Reordering the parts does not change the value of a key that stands in at most one. -/
theorem lookup_perm {key : List α} {ps qs : List (List α)}
    (h : (ps.filter (key.isPrefixOf ·)).Perm (qs.filter (key.isPrefixOf ·)))
    (hone : ps.countP (key.isPrefixOf ·) ≤ 1) : lookup key ps = lookup key qs := by
  rw [← lookup_filter key ps, ← lookup_filter key qs]
  rw [List.countP_eq_length_filter] at hone
  rcases hps : ps.filter (key.isPrefixOf ·) with _ | ⟨p, _ | ⟨p', rest⟩⟩
  · rw [hps, List.nil_perm] at h
    rw [h]
  · rw [hps, List.singleton_perm] at h
    rw [h]
  · rw [hps] at hone
    simp at hone

/-- A new layout reorders the trimmed parts with a key and keeps their texts. -/
theorem Relayout.filter_perm {blank : α → Bool} {keys : List (List α)} {ps qs : List (List α)}
    (h : Relayout blank keys ps qs) {key : List α} (hkey : key ∈ keys) :
    ((ps.map (trim blank)).filter (key.isPrefixOf ·)).Perm
      ((qs.map (trim blank)).filter (key.isPrefixOf ·)) := by
  induction h with
  | perm h => exact (h.map _).filter _
  | @insert before after p hp =>
    have hnot : ¬ key.isPrefixOf (trim blank p) = true := by
      simpa using hp key hkey
    rw [List.map_append, List.map_append, List.map_cons, List.filter_append, List.filter_append,
      List.filter_cons_of_neg hnot]
  | blanks hpq => rw [List.map_append, List.map_append, List.map_cons, List.map_cons, hpq]
  | symm _ ih => exact ih.symm
  | trans _ _ ih₁ ih₂ => exact ih₁.trans ih₂

/-- **A layout carries no information.** A key that stands in at most one part has the same value
in every layout of the parts. -/
theorem Relayout.lookup_eq {blank : α → Bool} {keys : List (List α)} {ps qs : List (List α)}
    (h : Relayout blank keys ps qs) {key : List α} (hkey : key ∈ keys)
    (hone : (ps.map (trim blank)).countP (key.isPrefixOf ·) ≤ 1) :
    lookup key (ps.map (trim blank)) = lookup key (qs.map (trim blank)) :=
  lookup_perm (h.filter_perm hkey) hone

/-- The first match is unique. -/
theorem FirstMatch.unique {key v w : List α} {ps : List (List α)} (hv : FirstMatch key ps v)
    (hw : FirstMatch key ps w) : v = w := by
  have h := lookup_eq_some_iff.2 hv
  rw [lookup_eq_some_iff.2 hw] at h
  exact (Option.some.inj h).symm

end

end FieldText
