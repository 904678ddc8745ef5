import Mathlib.Algebra.Group.Nat.Defs
import Mathlib.Data.Char
import BookMarket.Lib.Lists

/-!
# Decimal numerals in dictionary order

A natural number is written as `Nat.toDigits 10 n`, without leading zeros.  Compared
as words, two numerals of the same length are in the order of the numbers; a longer
one is compared by its leading digits only.

* `toDigits_lt_toDigits_iff` — numerals of the same length.
* `leading` — the number that the first digits make.
* `toDigits_lt_iff_leading` — a longer numeral against a shorter one.
-/

namespace Decimal

/-- The number of digits. -/
def length (n : ℕ) : ℕ := (Nat.toDigits 10 n).length

theorem length_pos (n : ℕ) : 0 < length n := Nat.length_toDigits_pos

theorem length_le_iff {n k : ℕ} (hk : 0 < k) : length n ≤ k ↔ n < 10 ^ k :=
  Nat.length_toDigits_le_iff (by decide) hk

theorem length_mono {m n : ℕ} (h : m ≤ n) : length m ≤ length n := by
  rw [length_le_iff (length_pos n)]
  exact h.trans_lt ((length_le_iff (length_pos n)).1 le_rfl)

theorem toDigits_of_ten_le {n : ℕ} (h : 10 ≤ n) :
    Nat.toDigits 10 n = Nat.toDigits 10 (n / 10) ++ [Nat.digitChar (n % 10)] :=
  Nat.toDigits_of_base_le (by decide) h

/-- The last digit is one more. -/
theorem length_of_ten_le {n : ℕ} (h : 10 ≤ n) : length n = length (n / 10) + 1 := by
  rw [length, toDigits_of_ten_le h]
  simp [length]

theorem length_of_lt_ten {n : ℕ} (h : n < 10) : length n = 1 := by
  rw [length, Nat.toDigits_of_lt_base h]
  rfl

theorem digitChar_lt_iff {a b : ℕ} (ha : a < 10) (hb : b < 10) :
    Nat.digitChar a < Nat.digitChar b ↔ a < b := by
  have hall : ∀ a b : Fin 10, Nat.digitChar a < Nat.digitChar b ↔ a < b := by decide
  exact hall ⟨a, ha⟩ ⟨b, hb⟩

theorem toDigits_inj {m n : ℕ} : Nat.toDigits 10 m = Nat.toDigits 10 n ↔ m = n := by
  constructor
  · intro h
    rw [← Nat.ofDigitChars_ten_toDigits (n := m), h, Nat.ofDigitChars_ten_toDigits]
  · rintro rfl
    rfl

theorem singleton_lt_iff {a b : Char} : [a] < [b] ↔ a < b := by
  simp [List.cons_lt_cons_iff]

/-- **Numerals of the same length are in the order of the numbers.** -/
theorem toDigits_lt_toDigits_iff {m n : ℕ} (h : length m = length n) :
    Nat.toDigits 10 m < Nat.toDigits 10 n ↔ m < n := by
  induction m using Nat.strong_induction_on generalizing n with
  | _ m ih =>
    rcases Nat.lt_or_ge m 10 with hm | hm
    · rcases Nat.lt_or_ge n 10 with hn | hn
      · rw [Nat.toDigits_of_lt_base hm, Nat.toDigits_of_lt_base hn, singleton_lt_iff,
          digitChar_lt_iff hm hn]
      · have := length_pos (n / 10)
        rw [length_of_lt_ten hm, length_of_ten_le hn] at h
        omega
    · rcases Nat.lt_or_ge n 10 with hn | hn
      · have := length_pos (m / 10)
        rw [length_of_lt_ten hn, length_of_ten_le hm] at h
        omega
      · rw [length_of_ten_le hm, length_of_ten_le hn, Nat.add_right_cancel_iff] at h
        rw [toDigits_of_ten_le hm, toDigits_of_ten_le hn, Lists.append_lt_append_iff h,
          ih (m / 10) (by omega) h, toDigits_inj, singleton_lt_iff,
          digitChar_lt_iff (Nat.mod_lt _ (by decide)) (Nat.mod_lt _ (by decide))]
        omega

/-! ## Leading digits -/

/-- The number that the first `k` digits of `n` make. -/
def leading (k n : ℕ) : ℕ := n / 10 ^ (length n - k)

/-- Dropping digits at the end. -/
theorem toDigits_drop {n j : ℕ} (h : j < length n) :
    ∃ rest : List Char, Nat.toDigits 10 n = Nat.toDigits 10 (n / 10 ^ j) ++ rest ∧
      length (n / 10 ^ j) + j = length n := by
  induction j with
  | zero => exact ⟨[], by simp⟩
  | succ j ih =>
    obtain ⟨rest, hrest, hlen⟩ := ih (by omega)
    -- there are two digits left at least
    have hten : 10 ≤ n / 10 ^ j := by
      by_contra hlt
      have := length_of_lt_ten (Nat.lt_of_not_le hlt)
      omega
    have hdiv : n / 10 ^ (j + 1) = n / 10 ^ j / 10 := by rw [Nat.div_div_eq_div_mul, Nat.pow_succ]
    refine ⟨Nat.digitChar (n / 10 ^ j % 10) :: rest, ?_, ?_⟩
    · rw [hrest, hdiv, toDigits_of_ten_le hten, List.append_assoc]
      rfl
    · rw [hdiv]
      have := length_of_ten_le hten
      omega

/-- **A longer numeral is compared by its leading digits.** -/
theorem toDigits_lt_iff_leading {m n : ℕ} (h : length m ≤ length n) :
    Nat.toDigits 10 n < Nat.toDigits 10 m ↔ leading (length m) n < m := by
  have hpos := length_pos m
  obtain ⟨rest, hrest, hlen⟩ := toDigits_drop (n := n) (j := length n - length m) (by omega)
  have hlead : length (leading (length m) n) = length m := by
    rw [leading]
    omega
  have hsplit : Nat.toDigits 10 n = Nat.toDigits 10 (leading (length m) n) ++ rest := hrest
  rw [hsplit, ← List.append_nil (Nat.toDigits 10 m), Lists.append_lt_append_iff hlead,
    toDigits_lt_toDigits_iff hlead]
  simp

end Decimal
