/-!
# Why a call aborts

One constructor for each check that can stop a transaction: the abort codes of
the Move modules under the names of their constants, and the errors of the
object runtime and of the transaction executor that are not Move aborts.
-/

namespace BookMarket

/-- The failing check of an aborted call. -/
inductive Abort
  /-- `dynamic_field::EFieldAlreadyExists` (0) -/
  | eFieldAlreadyExists
  /-- `dynamic_field::EFieldDoesNotExist` (1) -/
  | eFieldDoesNotExist
  /-- `dynamic_field::EFieldTypeMismatch` (2) -/
  | eFieldTypeMismatch
  /-- The object runtime found a child under another owner than its parent. -/
  | invalidChildObjectAccess
  /-- The object runtime was asked to add a child that is in the store. -/
  | duplicateChildObject
  /-- `marketplace::EAmountIncorrect` (0) -/
  | eAmountIncorrect
  /-- `marketplace::ENotOwner` (1) -/
  | eNotOwner
  /-- Overflow of a `u64` addition. -/
  | arithmeticError
  /-- `balance::EOverflow` (1) -/
  | eOverflow
  /-- `balance::ENotEnough` (2) -/
  | eNotEnough
  /-- `string::EINVALID_UTF8` (1) -/
  | eInvalidUtf8
  /-- `ascii::EINVALID_ASCII_CHARACTER` -/
  | eInvalidAsciiCharacter
  /-- A type argument lacks `key` or `store`. -/
  | constraintNotSatisfied
  /-- An argument is not of the parameter's type, or is not in the store. -/
  | typeMismatch
  /-- An argument is not a value of the transaction. -/
  | invalidValueUsage
  /-- An input object is not owned by the sender. -/
  | incorrectUserSignature
  /-- A returned object was neither used nor transferred. -/
  | unusedValueWithoutDrop
  deriving DecidableEq, Repr

/-! ## Peeling a fallible computation apart -/

section Bind

variable {α β : Type} {e : Abort} {f : α → Except Abort β}

@[simp] theorem ok_bind (a : α) : (Except.ok a >>= f) = f a := rfl

@[simp] theorem error_bind : ((Except.error e : Except Abort α) >>= f) = .error e := rfl

@[simp] theorem pure_eq_ok (a : α) : (pure a : Except Abort α) = .ok a := rfl

@[simp] theorem throw_eq_error : (throw e : Except Abort α) = .error e := rfl

/-- A computation that ends well went well at every step. -/
theorem bind_eq_ok {x : Except Abort α} {b : β} :
    (x >>= f) = .ok b ↔ ∃ a, x = .ok a ∧ f a = .ok b := by
  cases x with
  | error e => simp
  | ok a => simp

/-- A computation that cannot end well ends in an error. -/
theorem exists_error {x : Except Abort α} (h : ∀ a, x ≠ .ok a) : ∃ e, x = .error e := by
  cases x with
  | error e => exact ⟨e, rfl⟩
  | ok a => exact absurd rfl (h a)

/-- A computation that was seen to end well. -/
theorem eq_ok_of_toOption {x : Except Abort α} (d : α) (h : x.toOption.isSome = true) :
    x = .ok (x.toOption.getD d) := by
  cases x with
  | error e => cases h
  | ok a => rfl

end Bind

end BookMarket
