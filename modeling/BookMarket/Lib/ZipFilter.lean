import Mathlib.Data.List.Pairwise
import Mathlib.Data.List.Nodup

/-!
# Joining two filtered lists by position

A common way to assemble a table: two columns are computed from the same rows,
each drops the rows for which it has no entry, and what is left is joined by
position.  When the first column has an entry for every row, the join is right
exactly if all rows that have an entry in the second column come first.

* `pairing` — the table that is meant.
* `zip_filterMap_eq` — when the rows with both entries come first, the join gives
  this table.
* `exists_mem_zip` — otherwise it pairs some row that has no second entry with the
  second entry of another row.
* `nodup_filterMap` — a column has no duplicates when its entries tell the rows
  apart.
* `filter_filterMap_eq`, `getElem?_filterMap_of_isSome` — choosing rows by the
  entries of a column; columns without gaps correspond position by position.
-/

namespace ZipFilter

variable {α β γ : Type}

/-- The table that is meant: each row with its own two entries. -/
def pairing (f : α → Option β) (g : α → Option γ) (l : List α) : List (β × γ) :=
  l.filterMap fun a => (f a).bind fun b => (g a).map fun c => (b, c)

theorem mem_pairing {f : α → Option β} {g : α → Option γ} {l : List α} {p : β × γ} :
    p ∈ pairing f g l ↔ ∃ a ∈ l, f a = some p.1 ∧ g a = some p.2 := by
  obtain ⟨b, c⟩ := p
  rw [pairing, List.mem_filterMap]
  refine exists_congr fun a => and_congr Iff.rfl ?_
  cases f a with
  | none => simp
  | some b' => cases g a with
    | none => simp
    | some c' => simp

/-- The rows with a second entry come first. -/
def Sorted (g : α → Option γ) (l : List α) : Prop :=
  l.Pairwise fun a b => (g b).isSome → (g a).isSome

/-- When the rows with both entries come first, the join gives the table. -/
theorem zip_filterMap_eq {f : α → Option β} {g : α → Option γ} {l : List α}
    (hf : ∀ a ∈ l, (f a).isSome) (hs : Sorted g l) :
    (l.filterMap f).zip (l.filterMap g) = pairing f g l := by
  induction l with
  | nil => rfl
  | cons a l ih =>
    obtain ⟨ha, hl⟩ := List.pairwise_cons.1 hs
    obtain ⟨b, hb⟩ := Option.isSome_iff_exists.1 (hf a (by simp))
    have ih := ih (fun a h => hf a (by simp [h])) hl
    cases hg : g a with
    | some c =>
      rw [List.filterMap_cons_some hb, List.filterMap_cons_some hg, List.zip_cons_cons, ih]
      simp [pairing, hb, hg]
    | none =>
      -- no row after this one has a second entry
      have hnone : ∀ a' ∈ l, g a' = none := by
        intro a' ha'
        by_contra hne
        have := ha a' ha' (Option.isSome_iff_ne_none.2 hne)
        rw [hg] at this
        cases this
      have hgl : l.filterMap g = [] := List.filterMap_eq_nil_iff.2 hnone
      rw [List.filterMap_cons_none hg, hgl, List.zip_nil_right, eq_comm, pairing,
        List.filterMap_eq_nil_iff]
      intro a' ha'
      rcases List.mem_cons.1 ha' with rfl | ha'
      · simp [hg]
      · simp [hnone a' ha']

/-- Otherwise the join pairs a row that has no second entry with something. -/
theorem exists_mem_zip {f : α → Option β} {g : α → Option γ} {l : List α}
    (hf : ∀ a ∈ l, (f a).isSome) (hs : ¬ Sorted g l) :
    ∃ a ∈ l, g a = none ∧ ∃ p ∈ (l.filterMap f).zip (l.filterMap g), f a = some p.1 := by
  induction l with
  | nil => exact absurd List.Pairwise.nil hs
  | cons a l ih =>
    obtain ⟨b, hb⟩ := Option.isSome_iff_exists.1 (hf a (by simp))
    have hf' : ∀ a ∈ l, (f a).isSome := fun a h => hf a (by simp [h])
    rw [List.filterMap_cons_some hb]
    cases hg : g a with
    | some c =>
      have hl : ¬ Sorted g l := by
        intro hl
        refine hs (List.pairwise_cons.2 ⟨fun a' _ _ => ?_, hl⟩)
        rw [hg]
        rfl
      obtain ⟨a', ha', hga', p, hp, hfa'⟩ := ih hf' hl
      rw [List.filterMap_cons_some hg, List.zip_cons_cons]
      exact ⟨a', by simp [ha'], hga', p, by simp [hp], hfa'⟩
    | none =>
      rw [List.filterMap_cons_none hg]
      -- some later row has a second entry, or the tail would do
      have hne : l.filterMap g ≠ [] := by
        intro hnil
        refine hs (List.pairwise_cons.2 ⟨fun a' ha' h => ?_, ?_⟩)
        · rw [List.filterMap_eq_nil_iff.1 hnil a' ha'] at h
          cases h
        · refine List.pairwise_of_forall_mem_list fun a' _ b' hb' h => ?_
          rw [List.filterMap_eq_nil_iff.1 hnil b' hb'] at h
          cases h
      obtain ⟨c, cs, hc⟩ := List.exists_cons_of_ne_nil hne
      rw [hc, List.zip_cons_cons]
      exact ⟨a, by simp, hg, (b, c), by simp, hb⟩

/-- A column has no duplicates when its entries tell the rows apart. -/
theorem nodup_filterMap {f : α → Option β} {l : List α} (hl : l.Nodup)
    (hf : ∀ {a a' b}, a ∈ l → a' ∈ l → f a = some b → f a' = some b → a = a') :
    (l.filterMap f).Nodup := by
  rw [List.Nodup, List.pairwise_filterMap]
  refine List.Pairwise.imp_of_mem ?_ hl
  rintro a a' ha ha' hne b hb b' hb' rfl
  exact hne (hf ha ha' hb hb')

/-! ## Columns of the same rows -/

/-- Choosing entries of a column is choosing rows, when the entries tell which rows
are chosen. -/
theorem filter_filterMap_eq {f : α → Option β} {p : α → Bool} {q : β → Bool} {l : List α}
    (h : ∀ a ∈ l, ∀ b, f a = some b → q b = p a) :
    (l.filterMap f).filter q = (l.filter p).filterMap f := by
  rw [List.filter_filterMap, List.filterMap_filter]
  refine List.filterMap_congr fun a ha => ?_
  cases hf : f a with
  | none => rw [Option.filter_none, ite_self]
  | some b => rw [Option.filter_some, h a ha b hf]

section Total

variable {f : α → Option β} {l : List α} (hf : ∀ a ∈ l, (f a).isSome)

include hf

/-- A column with an entry for every row has their number, -/
theorem length_filterMap_of_isSome : (l.filterMap f).length = l.length := by
  induction l with
  | nil => rfl
  | cons a l ih =>
    obtain ⟨b, hb⟩ := Option.isSome_iff_exists.1 (hf a (by simp))
    rw [List.filterMap_cons_some hb, List.length_cons, List.length_cons,
      ih fun a' h => hf a' (by simp [h])]

/-- and their order. -/
theorem getElem?_filterMap_of_isSome (i : ℕ) : (l.filterMap f)[i]? = l[i]?.bind f := by
  induction l generalizing i with
  | nil => rfl
  | cons a l ih =>
    obtain ⟨b, hb⟩ := Option.isSome_iff_exists.1 (hf a (by simp))
    rw [List.filterMap_cons_some hb]
    cases i with
    | zero => simp [hb]
    | succ i => simpa using ih (fun a' h => hf a' (by simp [h])) i

end Total

theorem zipIdx_filterMap_drop (bs : List β) (cs : List γ) (n : ℕ) :
    ((bs.zipIdx n).filterMap fun p => (cs[p.2]?).map fun c => (p.1, c)) = bs.zip (cs.drop n) := by
  induction bs generalizing n with
  | nil => rfl
  | cons b bs ih =>
    rw [List.zipIdx_cons]
    by_cases hn : n < cs.length
    · rw [List.filterMap_cons_some (b := (b, cs.get ⟨n, hn⟩)) (by simp [hn]), ih (n + 1),
        List.drop_eq_getElem_cons hn, List.zip_cons_cons]
      rfl
    · have hlen : cs.length ≤ n := Nat.le_of_not_lt hn
      rw [List.filterMap_cons_none (by simp [hlen]), ih (n + 1), List.drop_eq_nil_of_le hlen,
        List.drop_eq_nil_of_le (Nat.le_succ_of_le hlen), List.zip_nil_right, List.zip_nil_right]

/-- Looking the second column up by the index in the first is joining by
position. -/
theorem zipIdx_filterMap (bs : List β) (cs : List γ) :
    (bs.zipIdx.filterMap fun p => (cs[p.2]?).map fun c => (p.1, c)) = bs.zip cs := by
  rw [zipIdx_filterMap_drop, List.drop_zero]

end ZipFilter
