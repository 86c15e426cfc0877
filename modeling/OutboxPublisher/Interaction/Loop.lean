import OutboxPublisher.Error

/-!
# Loops that may fail

A loop over a list is a `foldlM` in `Except`. `Sequential` are the relations that describe what a
list of items does to a state, composing when lists are appended; where each pass of a loop follows
such a relation, so does the loop as a whole (`foldlM_eq_ok_iff`), whatever nesting of loops the
items come from. `foldlM_filter_of_skip` and `foldlM_hom` compare two loops, errors included.
-/

namespace Interaction

open OutboxPublisher (bind_eq_ok_iff)

section
variable {ε α β σ τ : Type}

/-- What the items of a list do to a state, taken in turn: none leave it as it is, and the items of
two lists act one list after the other. -/
structure Sequential (R : List β → σ → σ → Prop) : Prop where
  nil_iff : ∀ {s s'}, R [] s s' ↔ s' = s
  append_iff : ∀ {xs ys s s''}, R (xs ++ ys) s s'' ↔ ∃ s', R xs s s' ∧ R ys s' s''

/-- A loop succeeds when its first pass does, and then the rest. -/
theorem foldlM_cons_eq_ok_iff {f : σ → α → Except ε σ} {s s'' : σ} {a : α} {l : List α} :
    (a :: l).foldlM f s = .ok s'' ↔ ∃ s', f s a = .ok s' ∧ l.foldlM f s' = .ok s'' := by
  rw [List.foldlM_cons, bind_eq_ok_iff]

namespace Sequential

/-- The passes of a loop. -/
theorem foldlM (g : σ → β → Except ε σ) :
    Sequential fun xs s s' => List.foldlM g s xs = .ok s' where
  nil_iff := ⟨fun h => (Except.ok.inj h).symm, fun h => h ▸ rfl⟩
  append_iff := by
    intro xs ys s s''
    rw [List.foldlM_append, bind_eq_ok_iff]

/-- Items pushed onto a list. -/
theorem push : Sequential fun (xs s s' : List α) => s' = s ++ xs where
  nil_iff := by simp
  append_iff := by simp

/-- Items that act through what they are mapped to. -/
theorem map {R : List β → σ → σ → Prop} (hR : Sequential R) (f : α → β) :
    Sequential fun xs s s' => R (xs.map f) s s' where
  nil_iff := hR.nil_iff
  append_iff := by
    intro xs ys s s''
    rw [List.map_append, hR.append_iff]

/-- Items that act on both components of a state. -/
theorem prod {R : List β → σ → σ → Prop} {R' : List β → τ → τ → Prop} (hR : Sequential R)
    (hR' : Sequential R') :
    Sequential fun xs (s s' : σ × τ) => R xs s.1 s'.1 ∧ R' xs s.2 s'.2 where
  nil_iff := by
    intro s s'
    rw [hR.nil_iff, hR'.nil_iff, Prod.ext_iff]
  append_iff := by
    intro xs ys s s''
    rw [hR.append_iff, hR'.append_iff]
    constructor
    · rintro ⟨⟨t, hx, hy⟩, t', hx', hy'⟩
      exact ⟨(t, t'), ⟨hx, hx'⟩, hy, hy'⟩
    · rintro ⟨⟨t, t'⟩, ⟨hx, hx'⟩, hy, hy'⟩
      exact ⟨⟨t, hx, hy⟩, t', hx', hy'⟩

end Sequential

/-- **The loop rule.** Where a pass succeeds exactly if its element is admissible, and then does
what the element's items do, a loop succeeds exactly if every element is admissible, and then does
what all the items do in turn. -/
theorem foldlM_eq_ok_iff {R : List β → σ → σ → Prop} (hR : Sequential R)
    {f : σ → α → Except ε σ} {P : α → Prop} {items : α → List β} {l : List α}
    (hf : ∀ a ∈ l, ∀ s s', f s a = .ok s' ↔ P a ∧ R (items a) s s') {s s' : σ} :
    l.foldlM f s = .ok s' ↔ (∀ a ∈ l, P a) ∧ R (l.flatMap items) s s' := by
  induction l generalizing s with
  | nil =>
    rw [(Sequential.foldlM f).nil_iff, List.flatMap_nil, hR.nil_iff]
    exact ⟨fun h => ⟨fun _ ha => absurd ha List.not_mem_nil, h⟩, And.right⟩
  | cons a l ih =>
    obtain ⟨hfa, hfl⟩ := List.forall_mem_cons.1 hf
    rw [foldlM_cons_eq_ok_iff, List.flatMap_cons, hR.append_iff, List.forall_mem_cons]
    constructor
    · rintro ⟨t, hs, ht⟩
      obtain ⟨ha, hat⟩ := (hfa _ _).1 hs
      obtain ⟨hl, hlt⟩ := (ih hfl).1 ht
      exact ⟨⟨ha, hl⟩, t, hat, hlt⟩
    · rintro ⟨⟨ha, hl⟩, t, hat, hlt⟩
      exact ⟨t, (hfa _ _).2 ⟨ha, hat⟩, (ih hfl).2 ⟨hl, hlt⟩⟩

/-- A loop may pass over the elements that it skips. -/
theorem foldlM_filter_of_skip {f : σ → α → Except ε σ} {p : α → Bool}
    (hf : ∀ s a, p a = false → f s a = .ok s) (l : List α) (s : σ) :
    (l.filter p).foldlM f s = l.foldlM f s := by
  rw [List.foldlM_filter]
  congr 1
  funext s a
  cases h : p a with
  | true => rfl
  | false => exact (hf s a h).symm

/-- Two loops whose passes agree along a map of their states and elements agree along it. -/
theorem foldlM_hom {f : τ → β → Except ε τ} {g : σ → α → Except ε σ} {h : σ → τ} {k : α → β}
    (hfg : ∀ s a, f (h s) (k a) = (g s a).map h) (l : List α) (s : σ) :
    (l.map k).foldlM f (h s) = (l.foldlM g s).map h := by
  induction l generalizing s with
  | nil => rfl
  | cons a l ih =>
    rw [List.map_cons, List.foldlM_cons, List.foldlM_cons, hfg]
    cases hs : g s a with
    | error e => rfl
    | ok t => exact ih t

/-- The owners of the items of a flattened list are one owner exactly if there is one item, and it
is the owner's only one. -/
theorem flatMap_owner_eq_singleton_iff {items : α → List β} {l : List α} {a : α} :
    (l.flatMap fun a => (items a).map fun _ => a) = [a] ↔
      ∃ b, l.flatMap items = [b] ∧ a ∈ l ∧ items a = [b] := by
  induction l with
  | nil => simp
  | cons a' l ih =>
    have hnil : (l.flatMap fun a => (items a).map fun _ => a) = [] ↔ l.flatMap items = [] := by
      simp
    rw [List.flatMap_cons, List.flatMap_cons, List.append_eq_singleton_iff, ih, hnil,
      List.map_eq_nil_iff, List.map_eq_singleton_iff]
    constructor
    · rintro (⟨hno, b, hone, ha, hb⟩ | ⟨⟨b, hb, rfl⟩, hno⟩)
      · exact ⟨b, by rw [hno, hone, List.nil_append], List.mem_cons_of_mem _ ha, hb⟩
      · exact ⟨b, by rw [hb, hno, List.append_nil], List.mem_cons_self, hb⟩
    · rintro ⟨b, hone, ha, hb⟩
      rcases List.append_eq_singleton_iff.1 hone with ⟨hno, hone⟩ | ⟨hb', hno⟩
      · rcases List.mem_cons.1 ha with rfl | ha
        · exact absurd (hb.symm.trans hno) (List.cons_ne_nil _ _)
        · exact .inl ⟨hno, b, hone, ha, hb⟩
      · rcases List.mem_cons.1 ha with rfl | ha
        · exact .inr ⟨⟨b, hb, rfl⟩, hno⟩
        · exact absurd (hb.symm.trans (List.flatMap_eq_nil_iff.1 hno a ha)) (List.cons_ne_nil _ _)

end

end Interaction
