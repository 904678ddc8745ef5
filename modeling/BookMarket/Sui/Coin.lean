import BookMarket.Sui.Object

/-!
# Balances, coins and supplies

`sui::balance` and the part of `sui::coin` through which coins come into being,
change and disappear.  The type parameter of a coin is carried beside it, as
the phantom it is.

* `Balance.join` — the one unchecked addition: the virtual machine aborts when
  it leaves the range of `u64`.
* `Balance.increaseSupply` — the check that keeps a supply below `2^64 - 1`.
-/

namespace BookMarket

variable {A : Type} [AddressSpace A]

/-! ## `sui::balance` -/

namespace Balance

/-- The supply after the increase; the new balance is `value`. -/
def increaseSupply (self value : UInt64) : Except Abort UInt64 :=
  if value < 18446744073709551615 - self then .ok (self + value) else .error .eOverflow

def decreaseSupply (self value : UInt64) : Except Abort UInt64 :=
  if self ≥ value then .ok (self - value) else .error .eOverflow

def join (self value : UInt64) : Except Abort UInt64 :=
  if self.toNat + value.toNat < 2 ^ 64 then .ok (self + value) else .error .arithmeticError

/-- What is left; the balance split off is `value`. -/
def split (self value : UInt64) : Except Abort UInt64 :=
  if self ≥ value then .ok (self - value) else .error .eNotEnough

theorem join_eq_ok {self value b : UInt64} (h : join self value = .ok b) :
    b.toNat = self.toNat + value.toNat := by
  unfold join at h
  split at h
  · next hlt =>
    cases h
    rw [UInt64.toNat_add, Nat.mod_eq_of_lt hlt]
  · cases h

theorem split_eq_ok {self value b : UInt64} (h : split self value = .ok b) :
    b.toNat + value.toNat = self.toNat := by
  unfold split at h
  split at h
  · next hle =>
    cases h
    have hle' : value.toNat ≤ self.toNat := hle
    rw [UInt64.toNat_sub_of_le _ _ hle]
    omega
  · cases h

/-- A supply that was increased stays below `2^64 - 1`. -/
theorem increaseSupply_eq_ok {self value b : UInt64} (h : increaseSupply self value = .ok b) :
    b.toNat = self.toNat + value.toNat ∧ b.toNat < 2 ^ 64 - 1 := by
  unfold increaseSupply at h
  split at h
  · next hlt =>
    cases h
    have hself : self.toNat ≤ 18446744073709551615 := Nat.le_of_lt_succ self.toNat_lt
    have hlt' : value.toNat < (18446744073709551615 - self).toNat := hlt
    rw [UInt64.toNat_sub_of_le _ _ hself] at hlt'
    have hmax : (18446744073709551615 : UInt64).toNat = 18446744073709551615 := rfl
    rw [UInt64.toNat_add]
    omega
  · cases h

theorem decreaseSupply_eq_ok {self value b : UInt64} (h : decreaseSupply self value = .ok b) :
    b.toNat + value.toNat = self.toNat := by
  unfold decreaseSupply at h
  split at h
  · next hle =>
    cases h
    have hle' : value.toNat ≤ self.toNat := hle
    rw [UInt64.toNat_sub_of_le _ _ hle]
    omega
  · cases h

end Balance

/-! ## `sui::coin` -/

/-- `Coin<t>`; the type argument is passed beside it. -/
structure Coin (A : Type) where
  id : A
  balance : UInt64
  deriving DecidableEq, Repr

/-- A coin as an object of the store. -/
def Coin.toObj {A : Type} (c : Coin A) (t : TypeTag) : Obj A :=
  ⟨c.id, .item (.coin t c.balance)⟩

namespace Coin

/-- `coin::join`: `c` is deleted, its value goes to `self`. -/
def join (self c : Coin A) : Except Abort (Coin A) := do
  let balance ← Balance.join self.balance c.balance
  return { self with balance }

/-- `coin::take` on the balance of `self`, which is what `coin::split` does:
what remains of `self`, and the new coin. -/
def split (self : Coin A) (splitAmount : UInt64) (ctx : TxContext A) :
    Except Abort (Coin A × Coin A × TxContext A) := do
  let (id, ctx) := objectNew ctx
  let rest ← Balance.split self.balance splitAmount
  return ({ self with balance := rest }, ⟨id, splitAmount⟩, ctx)

/-- `coin::mint`: the new total supply, and the new coin. -/
def mint (totalSupply value : UInt64) (ctx : TxContext A) :
    Except Abort (UInt64 × Coin A × TxContext A) := do
  let (id, ctx) := objectNew ctx
  let totalSupply ← Balance.increaseSupply totalSupply value
  return (totalSupply, ⟨id, value⟩, ctx)

/-- `coin::burn`: the new total supply. -/
def burn (totalSupply : UInt64) (c : Coin A) : Except Abort UInt64 :=
  Balance.decreaseSupply totalSupply c.balance

end Coin

end BookMarket
