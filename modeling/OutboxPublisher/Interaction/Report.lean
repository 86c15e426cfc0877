import Mathlib.Data.List.Basic

/-!
# The first of all faults

A computation in `Except` stops at the first thing that is wrong. `Reports x faults P` says so
against a list of everything that is wrong with the input: `x` fails with the first of `faults`,
and where there is none it returns a value with `P`. The rules follow the code: a guard
(`Reports.guard`), one computation after another (`Reports.bind`), and a loop, whose elements are
judged by the elements before them and not by the loop's state (`Reports.foldlM`).
-/

namespace Interaction

section
variable {ε α σ τ : Type}

/-- The computation fails with the first of the faults, and where there is none it returns a value
with `P`. -/
def Reports (x : Except ε σ) (faults : List ε) (P : σ → Prop) : Prop :=
  match faults with
  | [] => ∃ s, x = .ok s ∧ P s
  | err :: _ => x = .error err

/-- A fault, if the condition holds. -/
def faultIf (c : Bool) (err : ε) : List ε :=
  if c then [err] else []

/-- What is wrong with the elements of a list, each judged by the elements before it, where `seen`
come before the whole list. -/
def scan (fault : List α → α → List ε) (seen : List α) : List α → List ε
  | [] => []
  | a :: l => fault seen a ++ scan fault (seen ++ [a]) l

namespace Reports

variable {x : Except ε σ} {faults faults' : List ε} {P Q : σ → Prop}

/-- A value is returned where nothing is wrong. -/
theorem ok {s : σ} (h : P s) : Reports (.ok s : Except ε σ) [] P :=
  ⟨s, rfl, h⟩

/-- The error that is found is the first fault, whatever else is wrong. -/
theorem error (err : ε) : Reports (.error err) (err :: faults) P :=
  rfl

/-- What is returned may be said to satisfy less. -/
theorem mono (hx : Reports x faults P) (h : ∀ s, P s → Q s) : Reports x faults Q := by
  cases faults with
  | nil =>
    obtain ⟨s, hs, hP⟩ := hx
    exact ⟨s, hs, h s hP⟩
  | cons err faults => exact hx

/-- A guard looks for one fault before the others. -/
theorem guard {c : Bool} {err : ε} (hx : c = false → Reports x faults P) :
    Reports (if c then .error err else x) (faultIf c err ++ faults) P := by
  cases c with
  | true => exact error err
  | false => exact hx rfl

/-- A guard before the end. -/
theorem refuse {c : Bool} {err : ε} {s : σ} (h : c = false → P s) :
    Reports (if c then .error err else .ok s) (faultIf c err) P := by
  cases c with
  | true => exact error err
  | false => exact ok (h rfl)

/-- A condition that must hold at the end. -/
theorem require {c : Bool} {err : ε} {s : σ} (h : c = true → P s) :
    Reports (if c then .ok s else .error err) (faultIf (!c) err) P := by
  cases c with
  | true => exact ok (h rfl)
  | false => exact error err

/-- The faults of two computations, one after the other; what is wrong for the second may depend on
what is said of the first one's value, not on the value. -/
theorem bind {Q : τ → Prop} {g : σ → Except ε τ} (hx : Reports x faults P)
    (hg : ∀ s, P s → Reports (g s) faults' Q) : Reports (x >>= g) (faults ++ faults') Q := by
  cases faults with
  | nil =>
    obtain ⟨s, rfl, hP⟩ := hx
    exact hg s hP
  | cons err faults =>
    obtain rfl : x = .error err := hx
    exact error err

/-- **The loop rule.** Where each pass reports what is wrong with its element in the light of the
elements before it, which is all that the loop's state has to tell, a loop reports what is wrong
with its list. -/
theorem foldlM {fault : List α → α → List ε} {f : σ → α → Except ε σ} {I : List α → σ → Prop}
    (hf : ∀ seen a s, I seen s → Reports (f s a) (fault seen a) (I (seen ++ [a])))
    {seen l : List α} {s : σ} (hs : I seen s) :
    Reports (l.foldlM f s) (scan fault seen l) (I (seen ++ l)) := by
  induction l generalizing seen s with
  | nil =>
    rw [List.append_nil]
    exact ok hs
  | cons a l ih =>
    rw [List.foldlM_cons, List.append_cons]
    exact (hf seen a s hs).bind fun t ht => ih ht

/-- The error of a computation that reports its faults is the first of them. -/
theorem eq_error_iff (hx : Reports x faults P) {err : ε} :
    x = .error err ↔ faults.head? = some err := by
  cases faults with
  | nil =>
    obtain ⟨s, rfl, -⟩ := hx
    simp
  | cons err' faults =>
    obtain rfl : x = .error err' := hx
    simp

/-- A computation that reports its faults returns where there is none. -/
theorem exists_ok_iff (hx : Reports x faults P) : (∃ s, x = .ok s) ↔ faults = [] := by
  cases faults with
  | nil =>
    obtain ⟨s, rfl, -⟩ := hx
    simp
  | cons err faults =>
    obtain rfl : x = .error err := hx
    simp

end Reports

/-- A fault of a list is a fault of one of its elements. -/
theorem exists_mem_of_mem_scan {fault : List α → α → List ε} {seen l : List α} {err : ε}
    (h : err ∈ scan fault seen l) : ∃ seen', ∃ a ∈ l, err ∈ fault seen' a := by
  induction l generalizing seen with
  | nil => exact absurd h List.not_mem_nil
  | cons a l ih =>
    rcases List.mem_append.1 h with h | h
    · exact ⟨seen, a, List.mem_cons_self, h⟩
    · obtain ⟨seen', b, hb, h⟩ := ih h
      exact ⟨seen', b, List.mem_cons_of_mem _ hb, h⟩

/-- A conditional fault is there if its condition holds. -/
@[simp]
theorem mem_faultIf {c : Bool} {err err' : ε} : err' ∈ faultIf c err ↔ c = true ∧ err' = err := by
  cases c <;> simp [faultIf]

end

end Interaction
