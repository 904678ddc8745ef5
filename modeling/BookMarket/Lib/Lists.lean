import Mathlib.Data.List.Induction
import Mathlib.Data.List.Lex
import Mathlib.Data.List.Nodup
import Mathlib.Data.List.Perm.Basic
import Mathlib.Order.Lattice

/-!
# Loops, pages and dictionary order

Facts about lists that programs which walk through them rest on.

* `foldl_last` — a register remembers the last thing that was written to it;
  `foldl_concat_iff` — and the next step goes by that.
* `foldl_min` — a loop that keeps the smaller one ends with a smallest.
* `foldlM_collect` — a loop that may fail, but does not, has collected what each
  of its rounds adds.
* `forall_mem_take_iff`, `exists_perm_not_mem_take` — what is on the first page.
* `append_lt_append_iff` — in dictionary order, words of equal length decide.
-/

namespace Lists

/-! ## Loops -/

/-- **A register remembers the last thing that was written to it.** -/
theorem foldl_last {σ ε α : Type} {act : σ → ε → σ} {get : σ → Option α} {write : ε → Option α}
    (h : ∀ s e, get (act s e) = (write e).or (get s)) (s : σ) (es : List ε) :
    get (es.foldl act s) = (es.filterMap write).getLast?.or (get s) := by
  induction es using List.reverseRecOn with
  | nil => rfl
  | append_singleton es e ih =>
    rw [List.foldl_append, List.foldl_cons, List.foldl_nil, h, ih, List.filterMap_append,
      List.getLast?_append]
    cases hw : write e with
    | none => simp [hw]
    | some x => simp [hw]

/-- **What one more step does is decided by the last thing that was written**, if it
goes by the register and does nothing good while that is empty. -/
theorem foldl_concat_iff {σ ε α : Type} {act : σ → ε → σ} {get : σ → Option α}
    {write : ε → Option α} (h : ∀ s e, get (act s e) = (write e).or (get s)) {I : σ → Prop}
    (hstep : ∀ s e, I s → I (act s e)) {s : σ} (hs : I s) (hempty : get s = none) {e : ε}
    {P : σ → Prop} {Q : α → Prop} (hnone : ∀ s, I s → get s = none → ¬ P (act s e))
    (hsome : ∀ s a, get s = some a → (P (act s e) ↔ Q a)) (es : List ε) :
    P ((es ++ [e]).foldl act s) ↔ ∃ a, (es.filterMap write).getLast? = some a ∧ Q a := by
  have hinv : I (es.foldl act s) :=
    List.foldlRecOn es act hs fun s hs e _ => hstep s e hs
  have hlast := foldl_last h s es
  rw [List.foldl_append, List.foldl_cons, List.foldl_nil]
  cases ha : (es.filterMap write).getLast? with
  | none =>
    rw [ha, hempty] at hlast
    simpa using hnone _ hinv hlast
  | some a =>
    rw [ha] at hlast
    simpa using hsome _ a hlast

/-- **A loop that keeps the smaller one ends with a smallest**, among all it has
seen, if it compares them by a key. -/
theorem foldl_min {α β : Type} [LinearOrder β] (key : α → β) (lt : α → α → Bool) {a : α}
    {l : List α} (hlt : ∀ x ∈ a :: l, ∀ y ∈ a :: l, lt x y = true ↔ key x < key y) :
    (l.foldl (fun m x => if lt x m then x else m) a) ∈ a :: l ∧
      ∀ x ∈ a :: l, key (l.foldl (fun m x => if lt x m then x else m) a) ≤ key x := by
  induction l generalizing a with
  | nil => simp
  | cons b l ih =>
    have hba := hlt b (by simp) a (by simp)
    rw [List.foldl_cons]
    split
    · next h =>
      obtain ⟨hmem, hle⟩ := ih (a := b) fun x hx y hy =>
        hlt x (List.mem_cons_of_mem _ hx) y (List.mem_cons_of_mem _ hy)
      refine ⟨List.mem_cons_of_mem _ hmem, fun x hx => ?_⟩
      rcases List.mem_cons.1 hx with rfl | hx
      · exact (hle b (by simp)).trans (hba.1 h).le
      · exact hle x hx
    · next h =>
      have hsub {x : α} (hx : x ∈ a :: l) : x ∈ a :: b :: l := by
        rcases List.mem_cons.1 hx with rfl | hx
        · simp
        · simp [hx]
      obtain ⟨hmem, hle⟩ := ih (a := a) fun x hx y hy => hlt x (hsub hx) y (hsub hy)
      refine ⟨hsub hmem, fun x hx => ?_⟩
      rcases List.mem_cons.1 hx with rfl | hx
      · exact hle _ (by simp)
      · rcases List.mem_cons.1 hx with rfl | hx
        · exact (hle a (by simp)).trans (not_lt.1 fun hlt' => h (hba.2 hlt'))
        · exact hle x (by simp [hx])

/-- **A loop that only adds ends with all that its rounds add.** -/
theorem foldlM_collect {σ β π : Type} {f : σ → β → Option σ} {has : σ → π → Prop}
    {adds : β → π → Prop} {l : List β}
    (h : ∀ s, ∀ b ∈ l, ∃ s', f s b = some s' ∧ ∀ w, has s' w ↔ has s w ∨ adds b w) (s : σ) :
    ∃ s', l.foldlM f s = some s' ∧ ∀ w, has s' w ↔ has s w ∨ ∃ b ∈ l, adds b w := by
  induction l generalizing s with
  | nil => exact ⟨s, rfl, fun w => by simp⟩
  | cons b l ih =>
    obtain ⟨s1, h1, hs1⟩ := h s b (by simp)
    obtain ⟨s2, h2, hs2⟩ := ih (fun s b' hb' => h s b' (by simp [hb'])) s1
    refine ⟨s2, by rw [List.foldlM_cons, h1]; exact h2, fun w => ?_⟩
    rw [hs2, hs1, or_assoc, List.exists_mem_cons_iff]

/-! ## First pages -/

/-- Everything is on the first page exactly when it fits. -/
theorem forall_mem_take_iff {α : Type} {l : List α} (hl : l.Nodup) {n : ℕ} :
    (∀ x ∈ l, x ∈ l.take n) ↔ l.length ≤ n := by
  constructor
  · intro hall
    by_contra hlt
    have hn : n < l.length := Nat.lt_of_not_le hlt
    -- what comes right after the page is not on it
    obtain ⟨i, hi, heq⟩ := List.mem_take_iff_getElem.1 (hall l[n] (List.getElem_mem hn))
    have := (List.getElem_inj hl).1 heq
    omega
  · intro hle x hx
    rwa [List.take_of_length_le hle]

/-- When not everything fits, anything may be the one that is left out. -/
theorem exists_perm_not_mem_take {α : Type} [DecidableEq α] {l : List α} (hl : l.Nodup) {x : α}
    (hx : x ∈ l) {n : ℕ} (hn : n < l.length) : ∃ l' : List α, l'.Perm l ∧ x ∉ l'.take n := by
  have hperm : (l.erase x ++ [x]).Perm l :=
    List.perm_append_comm.trans (List.perm_cons_erase hx).symm
  refine ⟨l.erase x ++ [x], hperm, fun hmem => ?_⟩
  have hlen : n ≤ (l.erase x).length := by
    rw [List.length_erase_of_mem hx]
    omega
  rw [List.take_append_of_le_length hlen] at hmem
  exact hl.not_mem_erase (List.mem_of_mem_take hmem)

/-! ## Dictionary order -/

/-- Words of equal length decide before what comes after them. -/
theorem append_lt_append_iff {α : Type} [LinearOrder α] {xs ys as bs : List α}
    (h : xs.length = ys.length) : xs ++ as < ys ++ bs ↔ xs < ys ∨ (xs = ys ∧ as < bs) := by
  induction xs generalizing ys with
  | nil =>
    obtain rfl : ys = [] := List.length_eq_zero_iff.1 h.symm
    simp
  | cons x xs ih =>
    cases ys with
    | nil => cases h
    | cons y ys =>
      rw [List.cons_append, List.cons_append, List.cons_lt_cons_iff, List.cons_lt_cons_iff,
        ih (Nat.succ.inj h), List.cons.injEq]
      tauto

end Lists
