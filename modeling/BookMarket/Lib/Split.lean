import Mathlib.Data.Int.Order.Basic
import Mathlib.Data.List.Basic
import Mathlib.Tactic.Linarith

/-!
# Cutting a text at separators outside of brackets

A text is cut into words at its separators, except for those inside brackets.  `delta`
says what a character does to the depth of nesting.

* `words` — the loop: it counts brackets and collects the present word.
* `Closed` — a text that leaves the depth as it was, and has no separator of its own
  outside of brackets; `Inner` — the same inside of brackets, where separators do no
  harm.
* `words_join` — **texts that are closed and joined by separators are cut where they
  were joined.**
-/

namespace Split

variable {α : Type} (delta : α → ℤ) (sep : α → Bool)

/-- The words of a text, from a depth and a part of the first word on. -/
def words : ℤ → List α → List α → List (List α)
  | _, word, [] => [word]
  | depth, word, c :: cs =>
    if depth + delta c = 0 ∧ sep c = true then
      word :: words (depth + delta c) [] cs
    else
      words (depth + delta c) (word ++ [c]) cs

/-- The depth after a text, unless the text is cut. -/
def scan : ℤ → List α → Option ℤ
  | depth, [] => some depth
  | depth, c :: cs =>
    if depth + delta c = 0 ∧ sep c = true then none else scan (depth + delta c) cs

def Closed (w : List α) : Prop :=
  ∀ d, 0 ≤ d → scan delta sep d w = some d

def Inner (w : List α) : Prop :=
  ∀ d, 0 < d → scan delta sep d w = some d

/-- Words with a text between them. -/
def join (text : List α) : List (List α) → List α
  | [] => []
  | w :: ws => w ++ ws.flatMap fun v => text ++ v

variable {delta sep} {u v w : List α}

theorem scan_append (d : ℤ) (u v : List α) :
    scan delta sep d (u ++ v) = (scan delta sep d u).bind fun d' => scan delta sep d' v := by
  induction u generalizing d with
  | nil => rfl
  | cons c u ih =>
    simp only [List.cons_append, scan]
    split
    · rfl
    · exact ih _

/-- What is not cut goes into the present word. -/
theorem words_append {d d' : ℤ} (h : scan delta sep d w = some d') (word rest : List α) :
    words delta sep d word (w ++ rest) = words delta sep d' (word ++ w) rest := by
  induction w generalizing d word with
  | nil =>
    cases h
    simp
  | cons c w ih =>
    simp only [scan] at h
    split at h
    · cases h
    · next hc =>
      rw [List.cons_append, words, if_neg hc, ih h]
      simp

theorem Closed.inner (h : Closed delta sep w) : Inner delta sep w :=
  fun d hd => h d hd.le

theorem Closed.append (hu : Closed delta sep u) (hv : Closed delta sep v) :
    Closed delta sep (u ++ v) := by
  intro d hd
  rw [scan_append, hu d hd]
  exact hv d hd

theorem Inner.append (hu : Inner delta sep u) (hv : Inner delta sep v) :
    Inner delta sep (u ++ v) := by
  intro d hd
  rw [scan_append, hu d hd]
  exact hv d hd

/-- A text without brackets and separators. -/
theorem closed_of_plain (h : ∀ c ∈ w, delta c = 0 ∧ sep c = false) : Closed delta sep w := by
  intro d hd
  induction w with
  | nil => rfl
  | cons c w ih =>
    obtain ⟨hdelta, hsep⟩ := h c (by simp)
    simp only [scan, hdelta, hsep, add_zero]
    simpa using ih fun c' h' => h c' (by simp [h'])

/-- A text without brackets. -/
theorem inner_of_flat (h : ∀ c ∈ w, delta c = 0) : Inner delta sep w := by
  intro d hd
  induction w with
  | nil => rfl
  | cons c w ih =>
    have hc : ¬ (d = 0 ∧ sep c = true) := fun hc => hd.ne' hc.1
    simp only [scan, h c (by simp), add_zero, if_neg hc]
    exact ih fun c' h' => h c' (by simp [h'])

/-- Brackets around a text that is closed inside of them. -/
theorem Inner.bracket (hw : Inner delta sep w) {o c : α} (ho : delta o = 1) (hc : delta c = -1)
    (hsep : sep c = false) : Closed delta sep (o :: w ++ [c]) := by
  intro d hd
  have hopen : ¬ (d + delta o = 0 ∧ sep o = true) := by
    rintro ⟨h, -⟩
    omega
  rw [List.cons_append, scan, if_neg hopen, scan_append, hw (d + delta o) (by omega)]
  simp [scan, hsep, ho, hc]

theorem inner_join {text : List α} (htext : Inner delta sep text) {ws : List (List α)}
    (h : ∀ w ∈ ws, Inner delta sep w) : Inner delta sep (join text ws) := by
  have hrest (ws : List (List α)) (h : ∀ w ∈ ws, Inner delta sep w) :
      Inner delta sep (ws.flatMap fun v => text ++ v) := by
    induction ws with
    | nil => exact fun _ _ => rfl
    | cons w ws ih =>
      rw [List.flatMap_cons]
      exact (htext.append (h w (by simp))).append (ih fun w' h' => h w' (by simp [h']))
  cases ws with
  | nil => exact fun _ _ => rfl
  | cons w ws => exact (h w (by simp)).append (hrest ws fun w' h' => h w' (by simp [h']))

/-- What follows the separators may as well be put in front of the words. -/
theorem join_cons (c : α) (pad w : List α) (ws : List (List α)) :
    join (c :: pad) (w :: ws) = join [c] (w :: ws.map fun v => pad ++ v) := by
  simp [join, List.flatMap_map]

/-- **Texts that are closed and joined by separators are cut where they were joined.** -/
theorem words_join {c : α} (hdelta : delta c = 0) (hsep : sep c = true) {w : List α}
    {ws : List (List α)} (h : ∀ v ∈ w :: ws, Closed delta sep v) :
    words delta sep 0 [] (join [c] (w :: ws)) = w :: ws := by
  -- the word that is being read may have begun before
  have hrest (word : List α) (ws : List (List α)) (h : ∀ v ∈ ws, Closed delta sep v) :
      words delta sep 0 word (ws.flatMap fun v => [c] ++ v) = word :: ws := by
    induction ws generalizing word with
    | nil => rfl
    | cons v ws ih =>
      rw [List.flatMap_cons, List.cons_append, List.cons_append, words,
        if_pos (by simp [hdelta, hsep]), hdelta, add_zero]
      rw [List.nil_append, words_append (h v (by simp) 0 le_rfl), List.nil_append,
        ih _ fun v' h' => h v' (by simp [h'])]
  rw [join, words_append (h w (by simp) 0 le_rfl), List.nil_append,
    hrest _ _ fun v hv => h v (by simp [hv])]

/-- No word is longer than the text. -/
theorem length_le_of_mem_words {d : ℤ} {word text : List α} (h : w ∈ words delta sep d word text) :
    w.length ≤ word.length + text.length := by
  induction text generalizing d word with
  | nil =>
    simp only [words, List.mem_singleton] at h
    simp [h]
  | cons c text ih =>
    rw [words] at h
    split at h
    · rcases List.mem_cons.1 h with rfl | h
      · simp
      · exact (ih h).trans (by simp; omega)
    · refine (ih h).trans (le_of_eq ?_)
      simp
      omega

end Split
