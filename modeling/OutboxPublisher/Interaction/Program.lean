import Mathlib.Control.Basic

/-!
# Programs that make calls

A program over an interface of calls `c : C`, each answered by a value of `R c`, is a tree: it ends
with a value, or makes a call and goes on with the answer. The same program can be run at once
against a handler that answers every call from a state (`Program.run`), or call by call by whoever
keeps the rest of the tree. `run_bind` is the law of the first, and `run_induction` the rule by
which what every answer preserves is preserved by a run. `Calls` and `Returns` say what holds of
every call a program can make and of every value it can end with, whatever the answers; `Ends` is
the whole of one course, the calls made with their answers and the value. Of two handlers that
answer alike but for some calls a program that makes none of these has one course
(`Avoids.course_eq`).
-/

namespace Interaction

/-- A program that makes calls `c`, each answered by a value of `R c`, and ends with a value. -/
inductive Program {C : Type*} (R : C → Type*) (α : Type*)
  | pure (a : α)
  | call (c : C) (k : R c → Program R α)

namespace Program

universe u v
variable {C : Type u} {R : C → Type v} {α β γ : Type v}

/-- Sequencing. -/
def bind : Program R α → (α → Program R β) → Program R β
  | .pure a, f => f a
  | .call c k, f => .call c fun r => (k r).bind f

instance : Monad (Program R) where
  pure := .pure
  bind := bind

/-- The program of a single call. -/
def perform (c : C) : Program R (R c) :=
  .call c .pure

theorem pure_bind (a : α) (f : α → Program R β) : (Pure.pure a : Program R α) >>= f = f a := rfl

theorem call_bind (c : C) (k : R c → Program R α) (f : α → Program R β) :
    (.call c k : Program R α) >>= f = .call c fun r => k r >>= f := rfl

theorem bind_pure (p : Program R α) : p >>= Pure.pure = p := by
  induction p with
  | pure a => rfl
  | call c k ih =>
    rw [call_bind]
    exact congrArg _ (funext ih)

theorem bind_assoc (p : Program R α) (f : α → Program R β) (g : β → Program R γ) :
    p >>= f >>= g = p >>= fun a => f a >>= g := by
  induction p with
  | pure a => rfl
  | call c k ih =>
    rw [call_bind, call_bind, call_bind]
    exact congrArg _ (funext ih)

instance : LawfulMonad (Program R) :=
  LawfulMonad.mk' _ bind_pure pure_bind bind_assoc

/-! ## Running against a handler -/

section
variable {σ : Type*} (handle : (c : C) → σ → R c × σ)

/-- Run a program to its end, every call answered by the handler. -/
def run : Program R α → σ → α × σ
  | .pure a, s => (a, s)
  | .call c k, s => run (k (handle c s).1) (handle c s).2

@[simp] theorem run_pure (a : α) (s : σ) : run handle (Pure.pure a : Program R α) s = (a, s) := rfl

@[simp] theorem run_call (c : C) (k : R c → Program R α) (s : σ) :
    run handle (.call c k) s = run handle (k (handle c s).1) (handle c s).2 := rfl

/-- The state a program leaves when it is stopped after as many calls. -/
def runFor : Nat → Program R α → σ → σ
  | 0, _, s => s
  | _ + 1, .pure _, s => s
  | n + 1, .call c k, s => runFor n (k (handle c s).1) (handle c s).2

/-- A sequence runs its first program, and then its second from the state reached. -/
@[simp] theorem run_bind (p : Program R α) (f : α → Program R β) (s : σ) :
    run handle (p >>= f) s = run handle (f (run handle p s).1) (run handle p s).2 := by
  induction p generalizing s with
  | pure a => rfl
  | call c k ih =>
    rw [call_bind, run_call, run_call]
    exact ih _ _

end

/-! ## The calls of a program -/

/-- Every call the program can make, whatever the answers, satisfies `P`. -/
def Calls (P : C → Prop) : Program R α → Prop
  | .pure _ => True
  | .call c k => P c ∧ ∀ r, (k r).Calls P

section
variable {P : C → Prop}

/-- **The run rule.** What every answer to a call of the program preserves, a run preserves. -/
theorem run_induction {σ : Type*} {handle : (c : C) → σ → R c × σ} {I : σ → Prop}
    (hstep : ∀ c s, P c → I s → I (handle c s).2) {p : Program R α} (hp : p.Calls P) {s : σ}
    (hs : I s) : I (run handle p s).2 := by
  induction p generalizing s with
  | pure a => exact hs
  | call c k ih => exact ih _ (hp.2 _) (hstep c s hp.1 hs)

/-- What every answer to a call of the program preserves, a run that is stopped preserves. -/
theorem runFor_induction {σ : Type*} {handle : (c : C) → σ → R c × σ} {I : σ → Prop}
    (hstep : ∀ c s, P c → I s → I (handle c s).2) {p : Program R α} (hp : p.Calls P) (n : Nat)
    {s : σ} (hs : I s) : I (runFor handle n p s) := by
  induction n generalizing p s with
  | zero => exact hs
  | succ n ih =>
    cases p with
    | pure a => exact hs
    | call c k => exact ih (hp.2 _) (hstep c s hp.1 hs)

/-- A program whose calls satisfy a predicate makes no others. -/
theorem Calls.mono {Q : C → Prop} (h : ∀ c, P c → Q c) {p : Program R α} (hp : p.Calls P) :
    p.Calls Q := by
  induction p with
  | pure a => trivial
  | call c k ih => exact ⟨h c hp.1, fun r => ih r (hp.2 r)⟩

/-- Mapping the value of a program leaves its calls alone. -/
theorem Calls.map (f : α → β) {p : Program R α} (hp : p.Calls P) : (f <$> p).Calls P := by
  induction p with
  | pure a => trivial
  | call c k ih => exact ⟨hp.1, fun r => ih r (hp.2 r)⟩

end

/-! ## The values of a program -/

/-- Every value the program can end with, whatever the answers, satisfies `P`. -/
def Returns (P : α → Prop) : Program R α → Prop
  | .pure a => P a
  | .call _ k => ∀ r, (k r).Returns P

/-- The value of a mapped program is the mapped value. -/
theorem Returns.map {P : β → Prop} (f : α → β) {p : Program R α}
    (hp : p.Returns fun a => P (f a)) : (f <$> p).Returns P := by
  induction p with
  | pure a => exact hp
  | call c k ih => exact fun r => ih r (hp r)

/-- A run ends with a value of the program. -/
theorem Returns.run {σ : Type*} {P : α → Prop} {p : Program R α} (hp : p.Returns P)
    (handle : (c : C) → σ → R c × σ) (s : σ) : P (run handle p s).1 := by
  induction p generalizing s with
  | pure a => exact hp
  | call c k ih => exact ih _ (hp _) _

/-! ## The calls made -/

/-- The program makes these calls, answered like this, in turn, and ends with the value. -/
inductive Ends : Program R α → List ((c : C) × R c) → α → Prop
  | pure (a : α) : Ends (.pure a) [] a
  | call {c : C} {k : R c → Program R α} {r : R c} {calls : List ((c : C) × R c)} {a : α}
      (h : Ends (k r) calls a) : Ends (.call c k) (⟨c, r⟩ :: calls) a

section
variable {σ : Type*} (handle : (c : C) → σ → R c × σ)

/-- The course of a program against a handler: the calls it makes with their answers, and the value
it ends with. -/
def course : Program R α → σ → List ((c : C) × R c) × α
  | .pure a, _ => ([], a)
  | .call c k, s =>
    let rest := course (k (handle c s).1) (handle c s).2
    (⟨c, (handle c s).1⟩ :: rest.1, rest.2)

/-- No call the program makes against the handler is a bad one at the state it meets. -/
def Avoids (bad : C → σ → Prop) : Program R α → σ → Prop
  | .pure _, _ => True
  | .call c k, s => ¬ bad c s ∧ Avoids bad (k (handle c s).1) (handle c s).2

variable {handle}

/-- **Identical until bad.** Two handlers that answer alike unless a call is bad are not told apart
by a program that makes no bad call against one of them. -/
theorem Avoids.course_eq {handle' : (c : C) → σ → R c × σ} {bad : C → σ → Prop}
    (heq : ∀ c s, ¬ bad c s → handle' c s = handle c s) {p : Program R α} {s : σ}
    (h : p.Avoids handle bad s) : course handle' p s = course handle p s := by
  induction p generalizing s with
  | pure a => rfl
  | call c k ih =>
    rw [course, course, heq c s h.1, ih _ h.2]

/-- What holds of every answer to a call that is not bad holds of every answer in the course of a
program that makes no bad one. -/
theorem Avoids.answers {bad : C → σ → Prop} {P : (c : C) → R c → Prop}
    (hans : ∀ c s, ¬ bad c s → P c (handle c s).1) {p : Program R α} {s : σ}
    (h : p.Avoids handle bad s) : ∀ x ∈ (course handle p s).1, P x.1 x.2 := by
  induction p generalizing s with
  | pure a => exact fun x hx => by cases hx
  | call c k ih =>
    rw [course, List.forall_mem_cons]
    exact ⟨hans c s h.1, ih _ h.2⟩

/-- What holds of every answer of the handler holds of every answer in a course. -/
theorem course_answers {P : (c : C) → R c → Prop} (hans : ∀ c s, P c (handle c s).1)
    (p : Program R α) (s : σ) : ∀ x ∈ (course handle p s).1, P x.1 x.2 := by
  induction p generalizing s with
  | pure a => exact fun x hx => by cases hx
  | call c k ih =>
    rw [course, List.forall_mem_cons]
    exact ⟨hans c s, ih _ _⟩

section
variable {σ' : Type*} {handle' : (c : C) → σ' → R c × σ'} {Sim : σ → σ' → Prop}
  (good : (c : C) → R c → Bool)

/-- **The simulation rule.** A handler that gives the good answers of another, and then is in a
state that simulates the other's, follows it through every course of good answers. -/
theorem course_simulates (hstep : ∀ c s s', Sim s s' → good c (handle c s).1 →
      (handle' c s').1 = (handle c s).1 ∧ Sim (handle c s).2 (handle' c s').2)
    {p : Program R α} {s : σ} {s' : σ'} (hs : Sim s s')
    (hgood : ∀ x ∈ (course handle p s).1, good x.1 x.2) :
    course handle' p s' = course handle p s := by
  induction p generalizing s s' with
  | pure a => rfl
  | call c k ih =>
    rw [course, List.forall_mem_cons] at hgood
    obtain ⟨hans, hsim⟩ := hstep c s s' hs hgood.1
    rw [course, course, hans, ih _ hsim hgood.2]

/-- Up to the first answer that is not good the handler follows the other in any case. -/
theorem course_simulates_until (hstep : ∀ c s s', Sim s s' → good c (handle c s).1 →
      (handle' c s').1 = (handle c s).1 ∧ Sim (handle c s).2 (handle' c s').2)
    (p : Program R α) {s : σ} {s' : σ'} (hs : Sim s s') :
    (course handle p s).1.takeWhile (fun x => good x.1 x.2) <+: (course handle' p s').1 := by
  induction p generalizing s s' with
  | pure a => exact List.nil_prefix
  | call c k ih =>
    rw [course, course, List.takeWhile_cons]
    by_cases hgood : good c (handle c s).1
    · obtain ⟨hans, hsim⟩ := hstep c s s' hs hgood
      rw [if_pos hgood, hans, List.cons_prefix_cons]
      exact ⟨rfl, ih _ hsim⟩
    · rw [if_neg hgood]
      exact List.nil_prefix

end

end

end Program

end Interaction
