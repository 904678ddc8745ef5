import Mathlib.Logic.Basic

/-!
# Two fallible computations in step

`Sim R x y` says that the computations `x` and `y` either both end well, with
results related by `R`, or both fail with the same error.  It is the relation a
bisimulation between two levels of a design is stated with, when the errors of
the upper level are to be those of the lower one.

* `Sim.bind` — sequences are in step when their parts are.
* `Sim.exists_of_ok`, `Sim.exists_of_ok'` — from a result on one side to the
  related result on the other.
* `Sim.eq_error_iff` — the errors are the same.
-/

namespace Simulation

variable {ε α β α' β' : Type}

/-- Both end well with related results, or both fail with the same error. -/
inductive Sim (R : α → β → Prop) : Except ε α → Except ε β → Prop
  | ok {a : α} {b : β} (h : R a b) : Sim R (.ok a) (.ok b)
  | error (e : ε) : Sim R (.error e) (.error e)

namespace Sim

variable {R : α → β → Prop} {S : α' → β' → Prop} {x : Except ε α} {y : Except ε β}

/-- Sequences are in step when their parts are. -/
theorem bind {f : α → Except ε α'} {g : β → Except ε β'} (h : Sim R x y)
    (hf : ∀ {a b}, R a b → Sim S (f a) (g b)) : Sim S (x >>= f) (y >>= g) := by
  cases h with
  | ok hab => exact hf hab
  | error e => exact .error e

theorem refl (x : Except ε α) : Sim (fun a b => a = b) x x := by
  cases x with
  | ok a => exact .ok rfl
  | error e => exact .error e

theorem exists_of_ok {a : α} (h : Sim R x y) (hx : x = .ok a) : ∃ b, y = .ok b ∧ R a b := by
  cases h with
  | ok hab =>
    cases hx
    exact ⟨_, rfl, hab⟩
  | error e => cases hx

theorem exists_of_ok' {b : β} (h : Sim R x y) (hy : y = .ok b) : ∃ a, x = .ok a ∧ R a b := by
  cases h with
  | ok hab =>
    cases hy
    exact ⟨_, rfl, hab⟩
  | error e => cases hy

theorem eq_error_iff (h : Sim R x y) {e : ε} : x = .error e ↔ y = .error e := by
  cases h with
  | ok _ => simp
  | error e => simp

end Sim

end Simulation
