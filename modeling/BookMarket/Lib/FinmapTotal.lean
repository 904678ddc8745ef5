import Mathlib.Data.Finmap
import Mathlib.Algebra.BigOperators.Group.Multiset.Basic
import Mathlib.Algebra.Order.BigOperators.Group.Finset
import Mathlib.Algebra.BigOperators.Ring.Finset

/-!
# Finite maps with a weighted total

A store is a finite map whose values carry a weight; `total` adds the weights
up.  What a verification of such a store needs is small: how `lookup` answers
after an `insert` or an `erase`, in one equation each, and by how much either
of them moves the total.

* `lookup_insert_ite`, `lookup_erase_ite` — the map after a write, as a single
  `if`, which is the shape `simp` and `split` want.
* `lookup_insert_iff`, `lookup_erase_iff` — the same as an equivalence, for
  stores that are described by the set of their entries.
* `total_insert`, `total_erase` — writing at a fresh key adds the new weight,
  erasing removes the old one.
* `le_total`, `add_le_total` — a value weighs at most the total, and so do two
  values at different keys together.
* `total_eq_sum`, `total_congr`, `total_update`, `total_le_mul` — the total as a
  sum over keys, and how to compare two totals key by key.
-/

namespace Finmap

variable {α γ : Type} [DecidableEq α]

/-! ## Lookup after a write -/

theorem lookup_insert_ite (s : Finmap fun _ : α => γ) (a b : α) (v : γ) :
    lookup b (insert a v s) = if b = a then some v else lookup b s := by
  by_cases h : b = a
  · subst h
    rw [if_pos rfl, lookup_insert]
  · rw [if_neg h, lookup_insert_of_ne s h]

theorem lookup_erase_ite (s : Finmap fun _ : α => γ) (a b : α) :
    lookup b (erase a s) = if b = a then none else lookup b s := by
  by_cases h : b = a
  · subst h
    rw [if_pos rfl, lookup_erase]
  · rw [if_neg h, lookup_erase_ne h]

/-- What is there after writing at a fresh key: the new value and what was there
before. -/
theorem lookup_insert_iff {s : Finmap fun _ : α => γ} {a b : α} {v x : γ}
    (h : lookup a s = none) :
    lookup b (insert a v s) = some x ↔ (b = a ∧ x = v) ∨ lookup b s = some x := by
  rw [lookup_insert_ite]
  by_cases hb : b = a
  · subst hb
    simp [h, eq_comm]
  · simp [hb]

/-- What is there after erasing a key: what was there before, less one entry. -/
theorem lookup_erase_iff {s : Finmap fun _ : α => γ} {a b : α} {v x : γ}
    (h : lookup a s = some v) :
    lookup b (erase a s) = some x ↔ lookup b s = some x ∧ ¬ (b = a ∧ x = v) := by
  rw [lookup_erase_ite]
  by_cases hb : b = a
  · subst hb
    simp [h, eq_comm]
  · simp [hb]

/-- Erasing and writing back is writing. -/
theorem insert_erase (s : Finmap fun _ : α => γ) (a : α) (v : γ) :
    insert a v (erase a s) = insert a v s := by
  refine ext_lookup fun b => ?_
  rw [lookup_insert_ite, lookup_insert_ite, lookup_erase_ite]
  split <;> rfl

/-- Writes and erasures at different keys commute. -/
theorem erase_insert_of_ne {s : Finmap fun _ : α => γ} {a b : α} (h : a ≠ b) (v : γ) :
    erase a (insert b v s) = insert b v (erase a s) := by
  refine ext_lookup fun c => ?_
  simp only [lookup_erase_ite, lookup_insert_ite]
  by_cases ha : c = a
  · subst ha
    simp [h]
  · simp [ha]

/-- Writing what is already there changes nothing. -/
theorem insert_eq_self {s : Finmap fun _ : α => γ} {a : α} {v : γ} (h : lookup a s = some v) :
    insert a v s = s := by
  refine ext_lookup fun b => ?_
  rw [lookup_insert_ite]
  by_cases hb : b = a
  · rw [if_pos hb, hb, h]
  · rw [if_neg hb]

/-! ## The total -/

omit [DecidableEq α] in
/-- The sum of the weights of all values in the map. -/
def total (w : γ → ℕ) (s : Finmap fun _ : α => γ) : ℕ :=
  (s.entries.map fun e => w e.2).sum

omit [DecidableEq α] in
@[simp] theorem total_empty (w : γ → ℕ) : total w (∅ : Finmap fun _ : α => γ) = 0 := rfl

/-- Writing at a fresh key adds the weight of the new value. -/
theorem total_insert (w : γ → ℕ) {s : Finmap fun _ : α => γ} {a : α} (h : lookup a s = none)
    (v : γ) : total w (insert a v s) = total w s + w v := by
  rw [total, entries_insert_of_notMem (lookup_eq_none.1 h), Multiset.map_cons, Multiset.sum_cons,
    total, Nat.add_comm]

/-- Erasing a key takes away exactly the weight that was stored there. -/
theorem total_erase (w : γ → ℕ) {s : Finmap fun _ : α => γ} {a : α} {v : γ}
    (h : lookup a s = some v) : total w (erase a s) + w v = total w s := by
  have hins : insert a v (erase a s) = s := by rw [insert_erase, insert_eq_self h]
  conv_rhs => rw [← hins]
  rw [total_insert w (lookup_erase a s) v]

/-- One stored value weighs at most the total. -/
theorem le_total (w : γ → ℕ) {s : Finmap fun _ : α => γ} {a : α} {v : γ}
    (h : lookup a s = some v) : w v ≤ total w s := by
  have := total_erase w h
  omega

/-- Two values stored under different keys together weigh at most the total. -/
theorem add_le_total (w : γ → ℕ) {s : Finmap fun _ : α => γ} {a b : α} {u v : γ}
    (ha : lookup a s = some u) (hb : lookup b s = some v) (hne : b ≠ a) :
    w u + w v ≤ total w s := by
  have h1 := total_erase w ha
  have h2 := le_total w (s := erase a s) (a := b) (v := v) (by rw [lookup_erase_ne hne, hb])
  omega

/-! ## Comparing totals -/

/-- The weight of what is stored at `a`, which is `0` if nothing is. -/
def weightAt (w : γ → ℕ) (s : Finmap fun _ : α => γ) (a : α) : ℕ :=
  (lookup a s).elim 0 w

theorem weightAt_none {w : γ → ℕ} {s : Finmap fun _ : α => γ} {a : α} (h : lookup a s = none) :
    weightAt w s a = 0 := by
  rw [weightAt, h]
  rfl

theorem weightAt_some {w : γ → ℕ} {s : Finmap fun _ : α => γ} {a : α} {v : γ}
    (h : lookup a s = some v) : weightAt w s a = w v := by
  rw [weightAt, h]
  rfl

theorem total_eq_sum_keys (w : γ → ℕ) (s : Finmap fun _ : α => γ) :
    total w s = ∑ a ∈ s.keys, weightAt w s a := by
  have hmap : (s.entries.map fun e => w e.2).sum = (s.entries.map fun e => weightAt w s e.1).sum := by
    congr 1
    refine Multiset.map_congr rfl fun e he => ?_
    have : e.2 ∈ lookup e.1 s := mem_lookup_iff.2 he
    rw [weightAt_some (Option.mem_def.1 this)]
  have hkeys : s.keys.val = s.entries.map Sigma.fst := rfl
  rw [total, hmap, Finset.sum, hkeys, Multiset.map_map]
  rfl

/-- The total as a sum over any set of keys that is large enough. -/
theorem total_eq_sum (w : γ → ℕ) {s : Finmap fun _ : α => γ} {F : Finset α} (h : s.keys ⊆ F) :
    total w s = ∑ a ∈ F, weightAt w s a := by
  rw [total_eq_sum_keys]
  refine Finset.sum_subset h fun a _ ha => weightAt_none ?_
  exact lookup_eq_none.2 fun hm => ha (mem_keys.2 hm)

/-- Maps that weigh the same at every key have the same total. -/
theorem total_congr {w w' : γ → ℕ} {s t : Finmap fun _ : α => γ}
    (h : ∀ a, weightAt w s a = weightAt w' t a) : total w s = total w' t := by
  rw [total_eq_sum w (F := s.keys ∪ t.keys) Finset.subset_union_left,
    total_eq_sum w' (F := s.keys ∪ t.keys) Finset.subset_union_right]
  exact Finset.sum_congr rfl fun a _ => h a

/-- Maps that weigh the same at every key but one differ in their totals by what
they weigh there. -/
theorem total_update {w : γ → ℕ} {s t : Finmap fun _ : α => γ} (a : α)
    (h : ∀ b, b ≠ a → weightAt w t b = weightAt w s b) :
    total w t + weightAt w s a = total w s + weightAt w t a := by
  let F := (s.keys ∪ t.keys) ∪ {a}
  have hs : s.keys ⊆ F := Finset.subset_union_left.trans Finset.subset_union_left
  have ht : t.keys ⊆ F := Finset.subset_union_right.trans Finset.subset_union_left
  have ha : a ∈ F := Finset.mem_union_right _ (Finset.mem_singleton_self a)
  rw [total_eq_sum w hs, total_eq_sum w ht, ← Finset.add_sum_erase _ _ ha,
    ← Finset.add_sum_erase _ (weightAt w s) ha]
  have hrest : ∑ b ∈ F.erase a, weightAt w t b = ∑ b ∈ F.erase a, weightAt w s b :=
    Finset.sum_congr rfl fun b hb => h b (Finset.ne_of_mem_erase hb)
  omega

/-- A bound that holds of every stored value holds of the totals. -/
theorem total_le_mul {w w' : γ → ℕ} {s : Finmap fun _ : α => γ} {n : ℕ}
    (h : ∀ {a v}, lookup a s = some v → w v ≤ n * w' v) : total w s ≤ n * total w' s := by
  rw [total_eq_sum_keys, total_eq_sum_keys, Finset.mul_sum]
  refine Finset.sum_le_sum fun a _ => ?_
  cases ha : lookup a s with
  | none => rw [weightAt_none ha, weightAt_none ha, Nat.mul_zero]
  | some v => rw [weightAt_some ha, weightAt_some ha]; exact h ha

end Finmap
