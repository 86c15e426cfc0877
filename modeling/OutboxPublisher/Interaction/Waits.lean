import Mathlib.Data.Fintype.Card
import Mathlib.Data.Set.Finite.Basic
import Mathlib.Logic.Relation

/-!
# Who waits for whom

A relation of waiting among owners of which finitely many are waited for. Where no chain of waiting
returns to its beginning, every chain ends at an owner that waits for nobody (`exists_terminal`). No
chain returns where owners ask for keys in a fixed order: each asks for one that ranks below what
the owner it waits for asks for (`acyclic_of_rank`).
-/

namespace Interaction

open Relation (ReflTransGen TransGen)

section
variable {α β ι : Type*} {R : α → α → Prop}

/-- Chains that never return end, when they lead through finitely many owners. -/
theorem exists_terminal {s : Set α} (hs : s.Finite) (hR : ∀ a b, R a b → b ∈ s)
    (hacyclic : ∀ a, ¬ TransGen R a a) (a : α) : ∃ b, ReflTransGen R a b ∧ ∀ c, ¬ R b c := by
  have : Finite s := hs
  have : IsTrans s fun x y => TransGen R y x := ⟨fun _ _ _ hxy hyz => hyz.trans hxy⟩
  have : Std.Irrefl fun x y : s => TransGen R y x := ⟨fun x => hacyclic x⟩
  have hwf : WellFounded fun x y : s => TransGen R y x := Finite.wellFounded_of_trans_of_irrefl _
  have hend : ∀ x : s, ∃ b, ReflTransGen R x b ∧ ∀ c, ¬ R b c := by
    intro x
    induction x using hwf.induction with
    | _ x ih =>
      by_cases hx : ∃ c, R x c
      · obtain ⟨c, hc⟩ := hx
        obtain ⟨b, hb, hlast⟩ := ih ⟨c, hR _ _ hc⟩ (.single hc)
        exact ⟨b, .head hc hb, hlast⟩
      · exact ⟨x, .refl, not_exists.1 hx⟩
  by_cases ha : ∃ c, R a c
  · obtain ⟨c, hc⟩ := ha
    obtain ⟨b, hb, hlast⟩ := hend ⟨c, hR _ _ hc⟩
    exact ⟨b, .head hc hb, hlast⟩
  · exact ⟨a, .refl, not_exists.1 ha⟩

/-- **Ordered keys.** Where every owner that waits asks for a key, and that key ranks below whatever
the owner it waits for asks for, no chain of waiting returns. -/
theorem acyclic_of_rank [Preorder ι] {rank : β → ι} {asks : α → β → Prop}
    (hasks : ∀ a b, R a b → ∃ u, asks a u)
    (hrank : ∀ a b u v, R a b → asks a u → asks b v → rank u < rank v) (a : α) :
    ¬ TransGen R a a := by
  have hchain : ∀ a b, TransGen R a b → ∀ u v, asks a u → asks b v → rank u < rank v := by
    intro a b h
    induction h with
    | single hab => exact fun u v => hrank _ _ u v hab
    | tail _ hbc ih =>
      intro u v hu hv
      obtain ⟨x, hx⟩ := hasks _ _ hbc
      exact (ih u x hu hx).trans (hrank _ _ x v hbc hx hv)
  intro h
  obtain ⟨b, hab, -⟩ := TransGen.head'_iff.1 h
  obtain ⟨u, hu⟩ := hasks _ _ hab
  exact lt_irrefl _ (hchain a a h u u hu hu)

end

end Interaction
