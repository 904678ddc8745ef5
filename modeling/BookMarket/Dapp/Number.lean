import Mathlib.Data.Nat.Log
import Mathlib.Tactic.Ring

/-!
# JavaScript numbers

The RPC delivers a `u64` as a decimal string, and the pages turn it into a number
with `parseInt`, or by comparing it with a number.  Either way it is rounded to
the nearest double, half to even: the numbers from `2^53` on lose their last bits.

* `toNumber` — the integer a page computes with.
* `toNumber_of_lt` — below `2^53` nothing is lost.
* `eq_of_toNumber_eq` — and nothing else is taken for such a number.
-/

namespace BookMarket

/-- The last bits that have no place among the 53 bits of a double. -/
def lostBits (n : ℕ) : ℕ := n.log2 + 1 - 53

/-- The double nearest to `n`, as an integer; a tie goes to the even one. -/
def toNumber (n : ℕ) : ℕ :=
  let unit := 2 ^ lostBits n
  let q := n / unit
  let r := n % unit
  if 2 * r < unit ∨ (2 * r = unit ∧ q % 2 = 0) then q * unit else (q + 1) * unit

theorem toNumber_of_lt {n : ℕ} (h : n < 2 ^ 53) : toNumber n = n := by
  have hbits : lostBits n = 0 := by
    by_cases hn : n = 0
    · subst hn
      rfl
    · have : n.log2 < 53 := (Nat.log2_lt hn).2 h
      rw [lostBits]
      omega
  simp [toNumber, hbits, Nat.mod_one]

theorem le_toNumber {n : ℕ} (h : 2 ^ 53 ≤ n) : 2 ^ 53 ≤ toNumber n := by
  have hn : n ≠ 0 := by
    rintro rfl
    exact absurd h (by decide)
  have hlog : 53 ≤ n.log2 := (Nat.le_log2 hn).2 h
  have hbits : n.log2 = 52 + lostBits n := by
    rw [lostBits]
    omega
  -- the quotient has 53 bits, so the rounded number has no fewer than `n`
  have hq : 2 ^ 52 ≤ n / 2 ^ lostBits n := by
    rw [Nat.le_div_iff_mul_le (Nat.two_pow_pos _), ← pow_add, ← hbits]
    exact Nat.log2_self_le hn
  have hunit : 2 ≤ 2 ^ lostBits n := by
    have : 1 ≤ lostBits n := by omega
    calc 2 = 2 ^ 1 := rfl
      _ ≤ 2 ^ lostBits n := Nat.pow_le_pow_right (by decide) this
  have hprod : 2 ^ 52 * 2 ≤ n / 2 ^ lostBits n * 2 ^ lostBits n := Nat.mul_le_mul hq hunit
  simp only [toNumber]
  split
  · exact hprod
  · rw [Nat.add_mul, Nat.one_mul]
    exact le_trans hprod (Nat.le_add_right _ _)

/-- A number below `2^53` is not taken for another one. -/
theorem eq_of_toNumber_eq {m n : ℕ} (hn : n < 2 ^ 53) (h : toNumber m = toNumber n) : m = n := by
  rw [toNumber_of_lt hn] at h
  by_cases hm : m < 2 ^ 53
  · rwa [toNumber_of_lt hm] at h
  · have := le_toNumber (Nat.le_of_not_lt hm)
    omega

/-- From there on neighbours fall together. -/
example : toNumber (2 ^ 53 + 1) = toNumber (2 ^ 53) := by decide

end BookMarket
