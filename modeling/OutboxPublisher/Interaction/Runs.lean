import Mathlib.Data.List.Nodup
import Mathlib.Data.List.Basic

/-!
# Runs of interleaved owners

Two things every verification of interleaved steps needs. `Run` are the finite runs of a labelled
transition relation with their traces, and `Run.invariant` the rule for what may depend on the trace
so far. `Separated` says that the keys of a shared list and of what each of any number of owners
holds are pairwise distinct; it survives an owner taking a fresh key, letting go of keys, and moving
its keys to the shared list (`Separated.update`, `Separated.publish`).
-/

namespace Interaction

/-! ## Runs -/

section
variable {S L : Type*} {step : S → L → S → Prop} {s t u : S} {tr tr' : List L}

/-- The runs of a transition relation from `s`, with the labels of their steps in order. -/
inductive Run (step : S → L → S → Prop) (s : S) : List L → S → Prop
  | nil : Run step s [] s
  | snoc {tr : List L} {t u : S} {l : L} (h : Run step s tr t) (hl : step t l u) :
      Run step s (tr ++ [l]) u

namespace Run

/-- One step. -/
theorem single {l : L} (h : step s l t) : Run step s [l] t :=
  show Run step s ([] ++ [l]) t from nil.snoc h

/-- Runs follow one another. -/
theorem append (h : Run step s tr t) (h' : Run step t tr' u) : Run step s (tr ++ tr') u := by
  induction h' with
  | nil =>
    rw [List.append_nil]
    exact h
  | snoc _ hl ih =>
    rw [← List.append_assoc]
    exact ih.snoc hl

/-- Runs whose labels are mapped follow one another. -/
theorem append_map {M : Type*} {f : M → L} {ms ms' : List M} (h : Run step s (ms.map f) t)
    (h' : Run step t (ms'.map f) u) : Run step s ((ms ++ ms').map f) u := by
  rw [List.map_append]
  exact h.append h'

/-- A relation that simulates another step for step has its runs. -/
theorem map {S' L' : Type*} {step' : S' → L' → S' → Prop} (f : S → S') (g : L → L')
    (h : ∀ s l t, step s l t → step' (f s) (g l) (f t)) (hr : Run step s tr t) :
    Run step' (f s) (tr.map g) (f t) := by
  induction hr with
  | nil => exact nil
  | snoc _ hl ih =>
    rw [List.map_append]
    exact ih.snoc (h _ _ _ hl)

/-- A relation that another implies has its runs. -/
theorem imp {step' : S → L → S → Prop} (h : ∀ s l t, step s l t → step' s l t)
    (hr : Run step s tr t) : Run step' s tr t := by
  have hmap := hr.map id id h
  rwa [List.map_id] at hmap

/-- **The invariant rule.** What holds at first and is preserved by every step, whatever was done
before, holds after every run. -/
theorem invariant {I : List L → S → Prop} (hs : I [] s)
    (hstep : ∀ tr t l u, I tr t → step t l u → I (tr ++ [l]) u) (hr : Run step s tr t) :
    I tr t := by
  induction hr with
  | nil => exact hs
  | snoc _ hl ih => exact hstep _ _ _ _ ih hl

end Run

end

/-! ## Separated keys -/

section
variable {ι α : Type*} {shared shared' : List α} {held held' : ι → List α} {i : ι}

/-- The shared keys and those each owner holds are pairwise distinct. -/
structure Separated (shared : List α) (held : ι → List α) : Prop where
  nodup_shared : shared.Nodup
  nodup_held : ∀ i, (held i).Nodup
  shared_held : ∀ i, ∀ a ∈ held i, a ∉ shared
  held_held : ∀ i j, i ≠ j → ∀ a ∈ held i, a ∉ held j

namespace Separated

/-- Owners that hold nothing are separated from distinct shared keys. -/
theorem of_nil (h : shared.Nodup) (hheld : ∀ i, held i = []) : Separated shared held where
  nodup_shared := h
  nodup_held i := by simp [hheld]
  shared_held i a ha := by simp [hheld] at ha
  held_held i j _ a ha := by simp [hheld] at ha

/-- One owner's keys change: each of those it then holds was its own, or is fresh. -/
theorem update (h : Separated shared held) (hother : ∀ j, j ≠ i → held' j = held j)
    (hnodup : (held' i).Nodup)
    (hfresh : ∀ a ∈ held' i, a ∈ held i ∨ a ∉ shared ∧ ∀ j, j ≠ i → a ∉ held j) :
    Separated shared held' := by
  have hout : ∀ a ∈ held' i, a ∉ shared ∧ ∀ j, j ≠ i → a ∉ held j := by
    intro a ha
    rcases hfresh a ha with ha | ha
    · exact ⟨h.shared_held i a ha, fun j hj => h.held_held i j hj.symm a ha⟩
    · exact ha
  refine ⟨h.nodup_shared, fun j => ?_, fun j a ha => ?_, fun j k hjk a ha => ?_⟩
  · by_cases hj : j = i
    · exact hj ▸ hnodup
    · exact hother j hj ▸ h.nodup_held j
  · by_cases hj : j = i
    · exact (hout a (hj ▸ ha)).1
    · exact h.shared_held j a (hother j hj ▸ ha)
  · by_cases hj : j = i
    · subst hj
      rw [hother k hjk.symm]
      exact (hout a ha).2 k hjk.symm
    · rw [hother j hj] at ha
      by_cases hk : k = i
      · subst hk
        exact fun hak => (hout a hak).2 j hj ha
      · rw [hother k hk]
        exact h.held_held j k hjk a ha

/-- An owner lets go of keys. -/
theorem drop (h : Separated shared held) (hother : ∀ j, j ≠ i → held' j = held j)
    (hsub : (held' i).Sublist (held i)) : Separated shared held' :=
  h.update hother ((h.nodup_held i).sublist hsub) fun _ ha => .inl (hsub.subset ha)

/-- An owner takes distinct fresh keys. -/
theorem extend {as : List α} (h : Separated shared held) (hother : ∀ j, j ≠ i → held' j = held j)
    (hi : held' i = held i ++ as) (hnodup : as.Nodup)
    (hfresh : ∀ a ∈ as, a ∉ shared ∧ ∀ j, a ∉ held j) : Separated shared held' := by
  refine h.update hother ?_ fun a ha => ?_
  · rw [hi]
    exact (h.nodup_held i).append hnodup fun a ha ha' => (hfresh a ha').2 i ha
  · rw [hi, List.mem_append] at ha
    exact ha.imp_right fun ha => ⟨(hfresh a ha).1, fun j _ => (hfresh a ha).2 j⟩

/-- An owner takes a fresh key. -/
theorem take {a : α} (h : Separated shared held) (hother : ∀ j, j ≠ i → held' j = held j)
    (hi : held' i = held i ++ [a]) (hshared : a ∉ shared) (hheld : ∀ j, a ∉ held j) :
    Separated shared held' := by
  refine h.extend hother hi (List.nodup_singleton a) fun b hb => ?_
  obtain rfl := List.mem_singleton.1 hb
  exact ⟨hshared, hheld⟩

/-- An owner moves the keys it holds to the shared ones. -/
theorem publish (h : Separated shared held) (hother : ∀ j, j ≠ i → held' j = held j)
    (hi : held' i = []) (hshared : shared' = shared ++ held i) : Separated shared' held' := by
  have hdrop : Separated shared held' := h.drop hother (hi ▸ List.nil_sublist _)
  subst hshared
  refine ⟨?_, hdrop.nodup_held, fun j a ha => ?_, hdrop.held_held⟩
  · exact h.nodup_shared.append (h.nodup_held i) fun a ha ha' => h.shared_held i a ha' ha
  · rw [List.mem_append, not_or]
    refine ⟨hdrop.shared_held j a ha, fun hai => ?_⟩
    by_cases hj : j = i
    · subst hj
      rw [hi] at ha
      exact nomatch ha
    · rw [hother j hj] at ha
      exact h.held_held j i hj a ha hai

end Separated

end

end Interaction
