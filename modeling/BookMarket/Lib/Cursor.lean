import Mathlib.Data.Finmap
import Mathlib.Data.Finset.Sort
import Mathlib.Data.List.Basic
import Mathlib.Data.Prod.Lex
import Mathlib.Order.Basic

/-!
# Reading a sorted table page by page

A server keeps a table sorted by key and hands it out in pages.  A request names
the key of the last entry it has seen, the cursor; the server seeks to that key,
or to the first one after it, and leaves out one entry, because the cursor is
exclusive.  A filter picks what is asked for out of the rest.  The table may change
between two requests.

* `page` — one answer; `walk` — the answers to a client that asks until there is no
  next page, each request served from the table as it is at that moment.
* `mem_walk` — **what a page has was in the table of its request.**
* `sorted_walk` — **nothing is handed out twice**, and the order is that of the keys.
* `mem_walk_iff` — **an entry that is there all the time is handed out, unless a
  request leaves it out in the place of a cursor that is gone.**
* `Missed.gone` — that does not happen while what was handed out stays.
* `walk_replicate` — if the table does not change, the pages are what was asked for.
* `rows` — a finite map as such a table; `block` — the part of a table under the first
  half of a key; `seek_block` — reading from there is reading a table.
* `follow` — the loop of a client; `follow_eq_walk` — it walks.
-/

namespace Cursor

variable {α κ : Type} [LinearOrder κ] (key : α → κ) (p : α → Bool)

/-- The entries are in the order of their keys, and no key occurs twice. -/
def Sorted (l : List α) : Prop :=
  l.Pairwise fun a b => key a < key b

/-- What is left of a table from a cursor on: seek to the cursor, and leave out one
entry. -/
def after : Option κ → List α → List α
  | none, l => l
  | some c, l => (l.dropWhile fun a => key a < c).drop 1

/-- What is left to hand out. -/
def rest (cursor : Option κ) (l : List α) : List α :=
  (after key cursor l).filter p

/-- One answer. -/
structure Page (α κ : Type) where
  data : List α
  nextCursor : Option κ
  hasNextPage : Bool
  deriving DecidableEq

/-- The page of a table after a cursor.  One entry more than the limit is read, to
see whether there is a next page. -/
def page (limit : ℕ) (l : List α) (cursor : Option κ) : Page α κ :=
  let data := (rest key p cursor l).take (limit + 1)
  { data := data.take limit
    nextCursor := ((data.take limit).getLast?.map key).or cursor
    hasNextPage := decide (limit < data.length) }

/-- The pages a client gets that goes on while there is a next one.  The requests are
served from the tables `ls`, one after the other. -/
def walk (limit : ℕ) : Option κ → List (List α) → List (Page α κ)
  | _, [] => []
  | cursor, l :: ls =>
    let answer := page key p limit l cursor
    answer :: if answer.hasNextPage then walk limit answer.nextCursor ls else []

/-- The client has got to the end. -/
def Finished (pages : List (Page α κ)) : Prop :=
  ∃ q, pages.getLast? = some q ∧ q.hasNextPage = false

/-- The key is after the cursor. -/
def Above : Option κ → κ → Prop
  | none, _ => True
  | some c, k => c < k

/-- The request leaves `a` out in the place of the cursor, which is not there. -/
def Skips (cursor : Option κ) (l : List α) (a : α) : Prop :=
  ∃ c, cursor = some c ∧ key a ≠ c ∧ (l.dropWhile fun b => key b < c).head? = some a

/-- One of the requests of a walk leaves `a` out. -/
def Missed (limit : ℕ) : Option κ → List (List α) → α → Prop
  | _, [], _ => False
  | cursor, l :: ls, a =>
    Skips key cursor l a ∨
      ((page key p limit l cursor).hasNextPage = true ∧
        Missed limit (page key p limit l cursor).nextCursor ls a)

variable {key} {p} {limit : ℕ} {l : List α} {cursor : Option κ} {a : α}

/-! ## After a cursor -/

theorem after_suffix (cursor : Option κ) (l : List α) : after key cursor l <:+ l := by
  cases cursor with
  | none => exact List.suffix_rfl
  | some c => exact (List.drop_suffix _ _).trans (List.dropWhile_suffix _)

theorem sorted_after (h : Sorted key l) (cursor : Option κ) : Sorted key (after key cursor l) :=
  h.sublist (after_suffix cursor l).sublist

/-- Where the seek lands. -/
theorem le_of_mem_dropWhile (h : Sorted key l) {c : κ}
    (ha : a ∈ l.dropWhile fun b => key b < c) : c ≤ key a := by
  induction l with
  | nil => simp at ha
  | cons b l ih =>
    obtain ⟨hb, hl⟩ := List.pairwise_cons.1 h
    by_cases hbc : key b < c
    · rw [List.dropWhile_cons_of_pos (by simpa using hbc)] at ha
      exact ih hl ha
    · rw [List.dropWhile_cons_of_neg (by simpa using hbc)] at ha
      rcases List.mem_cons.1 ha with rfl | ha
      · exact not_lt.1 hbc
      · exact (not_lt.1 hbc).trans (hb a ha).le

theorem mem_dropWhile_of_le {c : κ} (h : a ∈ l) (hc : c ≤ key a) :
    a ∈ l.dropWhile fun b => key b < c := by
  induction l with
  | nil => exact h
  | cons b l ih =>
    by_cases hbc : key b < c
    · rw [List.dropWhile_cons_of_pos (by simpa using hbc)]
      rcases List.mem_cons.1 h with rfl | h
      · exact absurd hc (not_le.2 hbc)
      · exact ih h
    · rwa [List.dropWhile_cons_of_neg (by simpa using hbc)]

/-- The seek finds nothing, or an entry that is left out with the rest after it. -/
theorem seek_cases (h : Sorted key l) (c : κ) :
    (l.dropWhile fun b => key b < c) = [] ∧ after key (some c) l = [] ∨
    ∃ b rest, (l.dropWhile fun b => key b < c) = b :: rest ∧ after key (some c) l = rest ∧
      c ≤ key b ∧ ∀ a ∈ rest, key b < key a := by
  have hsort : Sorted key (l.dropWhile fun b => key b < c) :=
    h.sublist (List.dropWhile_suffix _).sublist
  cases hd : l.dropWhile fun b => key b < c with
  | nil => exact Or.inl ⟨rfl, by simp [after, hd]⟩
  | cons b rest =>
    rw [hd] at hsort
    exact Or.inr ⟨b, rest, rfl, by simp [after, hd],
      le_of_mem_dropWhile h (by rw [hd]; simp), (List.pairwise_cons.1 hsort).1⟩

/-- Everything after a cursor has a larger key. -/
theorem above_of_mem_after (h : Sorted key l) (ha : a ∈ after key cursor l) :
    Above cursor (key a) := by
  cases cursor with
  | none => trivial
  | some c =>
    rcases seek_cases h c with ⟨-, hnil⟩ | ⟨b, rest, -, hrest, hb, hlt⟩
    · rw [hnil] at ha
      cases ha
    · rw [hrest] at ha
      exact lt_of_le_of_lt hb (hlt a ha)

/-- What is after the cursor is left, but for the entry that is left out. -/
theorem mem_after_iff (h : Sorted key l) (ha : a ∈ l) (hc : Above cursor (key a)) :
    a ∈ after key cursor l ↔ ¬ Skips key cursor l a := by
  cases cursor with
  | none => exact iff_of_true ha fun ⟨_, h, _⟩ => by cases h
  | some c =>
    have hmem := mem_dropWhile_of_le ha (show c ≤ key a from le_of_lt hc)
    rcases seek_cases h c with ⟨hnil, -⟩ | ⟨b, rest, hd, hrest, -, hlt⟩
    · rw [hnil] at hmem
      cases hmem
    · rw [hd] at hmem
      rw [hrest]
      constructor
      · rintro ha' ⟨c', hc', -, hhead⟩
        cases hc'
        rw [hd] at hhead
        cases hhead
        exact lt_irrefl _ (hlt _ ha')
      · intro hskip
        rcases List.mem_cons.1 hmem with rfl | ha'
        · exact absurd ⟨c, rfl, ne_of_gt hc, by rw [hd]; rfl⟩ hskip
        · exact ha'

/-- A skipped entry comes before everything that is left. -/
theorem Skips.lt_of_mem (h : Sorted key l) (hs : Skips key cursor l a) {b : α}
    (hb : b ∈ after key cursor l) : key a < key b := by
  obtain ⟨c, rfl, -, hhead⟩ := hs
  rcases seek_cases h c with ⟨-, hnil⟩ | ⟨d, rest, hd, hrest, -, hlt⟩
  · rw [hnil] at hb
    cases hb
  · rw [hd] at hhead
    cases hhead
    rw [hrest] at hb
    exact hlt b hb

/-- A request skips nothing at or before its cursor. -/
theorem Skips.above (h : Sorted key l) (hs : Skips key cursor l a) : Above cursor (key a) := by
  obtain ⟨c, rfl, hne, hhead⟩ := hs
  have hmem : a ∈ l.dropWhile fun b => key b < c := List.mem_of_mem_head? hhead
  exact lt_of_le_of_ne (le_of_mem_dropWhile h hmem) hne.symm

/-- After the key of an entry that is there comes what follows it. -/
theorem after_key {pre rest : List α} (h : Sorted key (pre ++ a :: rest)) :
    after key (some (key a)) (pre ++ a :: rest) = rest := by
  obtain ⟨-, -, hlt⟩ := List.pairwise_append.1 h
  have hpre : ∀ b ∈ pre, (decide (key b < key a)) = true := fun b hb => by
    simpa using hlt b hb a (by simp)
  rw [after, List.dropWhile_append_of_pos hpre, List.dropWhile_cons_of_neg (by simp)]
  rfl

/-! ## What is left to hand out -/

theorem mem_rest : a ∈ rest key p cursor l ↔ a ∈ after key cursor l ∧ p a = true :=
  List.mem_filter

theorem sorted_rest (h : Sorted key l) (cursor : Option κ) : Sorted key (rest key p cursor l) :=
  (sorted_after h cursor).sublist List.filter_sublist

/-- After an entry that is handed out comes what is left after it. -/
theorem rest_key {t d : List α} (h : Sorted key l) (hs : rest key p cursor l = t ++ a :: d) :
    rest key p (some (key a)) l = d := by
  obtain ⟨pre, hpre⟩ : after key cursor l <:+ l := after_suffix cursor l
  obtain ⟨l1, l2, hl, -, h2⟩ := List.filter_eq_append_iff.1 hs
  obtain ⟨m1, m2, rfl, -, -, hd⟩ := List.filter_eq_cons_iff.1 h2
  have hla : l = (pre ++ l1 ++ m1) ++ a :: m2 := by
    rw [← hpre, hl]
    simp only [List.append_assoc]
  rw [rest, hla, after_key (hla ▸ h), hd]

/-! ## One page -/

theorem page_data : (page key p limit l cursor).data = (rest key p cursor l).take limit := by
  simp [page, List.take_take]

theorem hasNextPage_iff :
    (page key p limit l cursor).hasNextPage = true ↔ limit < (rest key p cursor l).length := by
  simp only [page, List.length_take, decide_eq_true_eq]
  omega

/-- The last page has everything that is left. -/
theorem page_data_last (h : (page key p limit l cursor).hasNextPage = false) :
    (page key p limit l cursor).data = rest key p cursor l := by
  have hlen : ¬ limit < (rest key p cursor l).length := by
    intro hlt
    rw [hasNextPage_iff.2 hlt] at h
    cases h
  rw [page_data, List.take_of_length_le (Nat.not_lt.1 hlen)]

/-- A page with a next one splits what is left: it ends with the entry whose key is
the next cursor. -/
theorem page_split (hlimit : 0 < limit) (h : (page key p limit l cursor).hasNextPage = true) :
    ∃ t z d, (page key p limit l cursor).data = t ++ [z] ∧
      (page key p limit l cursor).nextCursor = some (key z) ∧ rest key p cursor l = t ++ z :: d := by
  have hlen := hasNextPage_iff.1 h
  have hne : (rest key p cursor l).take limit ≠ [] := by
    rw [ne_eq, List.take_eq_nil_iff]
    rintro (rfl | hnil)
    · exact Nat.lt_irrefl _ hlimit
    · rw [hnil] at hlen
      exact Nat.not_lt_zero _ hlen
  refine ⟨((rest key p cursor l).take limit).dropLast, ((rest key p cursor l).take limit).getLast hne,
    (rest key p cursor l).drop limit, ?_, ?_, ?_⟩
  · rw [page_data, List.dropLast_append_getLast hne]
  · have hlast := List.getLast?_eq_some_getLast hne
    simp only [page, List.take_take, Nat.min_eq_left (Nat.le_succ limit), hlast]
    rfl
  · rw [List.append_cons, List.dropLast_append_getLast hne, List.take_append_drop]

/-- The cursor moves on. -/
theorem above_nextCursor (hlimit : 0 < limit) (h : Sorted key l)
    (hnext : (page key p limit l cursor).hasNextPage = true) {k : κ}
    (hk : Above (page key p limit l cursor).nextCursor k) : Above cursor k := by
  obtain ⟨t, z, d, -, hcur, hsplit⟩ := page_split hlimit hnext
  rw [hcur] at hk
  have hmem : z ∈ rest key p cursor l := by simp [hsplit]
  have hz : Above cursor (key z) := above_of_mem_after h (mem_rest.1 hmem).1
  cases cursor with
  | none => trivial
  | some c => exact lt_trans hz hk

/-! ## Whole walks -/

/-- **What a page has was in the table of its request**, was asked for, and is after the
cursor. -/
theorem mem_walk (hlimit : 0 < limit) {ls : List (List α)} (hs : ∀ l ∈ ls, Sorted key l) {i : ℕ}
    {q : Page α κ} (hq : (walk key p limit cursor ls)[i]? = some q) :
    ∃ l, ls[i]? = some l ∧ ∀ a ∈ q.data, a ∈ l ∧ p a = true ∧ Above cursor (key a) := by
  induction ls generalizing cursor i with
  | nil => simp [walk] at hq
  | cons l ls ih =>
    have hl := hs l (by simp)
    rw [walk] at hq
    cases i with
    | zero =>
      rw [List.getElem?_cons_zero, Option.some.injEq] at hq
      refine ⟨l, rfl, fun a ha => ?_⟩
      rw [← hq, page_data] at ha
      obtain ⟨ha, hp⟩ := mem_rest.1 (List.mem_of_mem_take ha)
      exact ⟨(after_suffix cursor l).mem ha, hp, above_of_mem_after hl ha⟩
    | succ i =>
      rw [List.getElem?_cons_succ] at hq
      split at hq
      · next hnext =>
        obtain ⟨l', hl', hmem⟩ := ih (fun l' h' => hs l' (by simp [h'])) hq
        refine ⟨l', hl', fun a ha => ?_⟩
        obtain ⟨hal, hp, habove⟩ := hmem a ha
        exact ⟨hal, hp, above_nextCursor hlimit hl hnext habove⟩
      · simp at hq

theorem above_of_mem_walk (hlimit : 0 < limit) {ls : List (List α)} (hs : ∀ l ∈ ls, Sorted key l)
    (ha : a ∈ (walk key p limit cursor ls).flatMap Page.data) : Above cursor (key a) := by
  obtain ⟨q, hq, ha⟩ := List.mem_flatMap.1 ha
  obtain ⟨i, hi⟩ := List.getElem?_of_mem hq
  obtain ⟨l, -, hmem⟩ := mem_walk hlimit hs hi
  exact (hmem a ha).2.2

/-- **Nothing is handed out twice**, and the order is that of the keys. -/
theorem sorted_walk (hlimit : 0 < limit) {ls : List (List α)} (hs : ∀ l ∈ ls, Sorted key l) :
    Sorted key ((walk key p limit cursor ls).flatMap Page.data) := by
  induction ls generalizing cursor with
  | nil => exact List.Pairwise.nil
  | cons l ls ih =>
    have hl := hs l (by simp)
    have hls : ∀ l ∈ ls, Sorted key l := fun l' h' => hs l' (by simp [h'])
    have hdata : Sorted key (page key p limit l cursor).data := by
      rw [page_data]
      exact (sorted_rest hl cursor).sublist (List.take_sublist _ _)
    rw [walk, List.flatMap_cons]
    refine List.pairwise_append.2 ⟨hdata, ?_, ?_⟩
    · split
      · exact ih hls
      · exact List.Pairwise.nil
    · intro b hb d hd
      split at hd
      · next hnext =>
        -- later pages are after the next cursor, which is the last key of this one
        have habove := above_of_mem_walk hlimit hls hd
        obtain ⟨t, z, _, hdz, hcur, -⟩ := page_split hlimit hnext
        rw [hcur] at habove
        rw [hdz] at hb hdata
        rcases List.mem_append.1 hb with hb | hb
        · exact lt_trans ((List.pairwise_append.1 hdata).2.2 b hb z (by simp)) habove
        · rw [List.mem_singleton.1 hb]
          exact habove
      · simp at hd

/-- A walk leaves out nothing at or before its cursor. -/
theorem Missed.above (hlimit : 0 < limit) {ls : List (List α)} (hs : ∀ l ∈ ls, Sorted key l)
    (h : Missed key p limit cursor ls a) : Above cursor (key a) := by
  induction ls generalizing cursor with
  | nil => exact h.elim
  | cons l ls ih =>
    have hl := hs l (by simp)
    rcases h with h | ⟨hnext, h⟩
    · exact h.above hl
    · exact above_nextCursor hlimit hl hnext (ih (fun l' h' => hs l' (by simp [h'])) h)

/-- A walk that goes on after its first page gets to the end if the rest of it
does. -/
theorem Finished.tail {ls : List (List α)} (h : Finished (walk key p limit cursor (l :: ls)))
    (hnext : (page key p limit l cursor).hasNextPage = true) :
    Finished (walk key p limit (page key p limit l cursor).nextCursor ls) := by
  obtain ⟨last, hq, hlast⟩ := h
  rw [walk, if_pos hnext] at hq
  cases hw : walk key p limit (page key p limit l cursor).nextCursor ls with
  | nil =>
    rw [hw, List.getLast?_singleton, Option.some.injEq] at hq
    rw [← hq, hnext] at hlast
    cases hlast
  | cons q qs =>
    rw [hw, List.getLast?_cons_cons] at hq
    exact ⟨last, hq, hlast⟩

/-- **An entry that is there all the time is handed out, unless a request leaves it
out** in the place of a cursor that is gone. -/
theorem mem_walk_iff (hlimit : 0 < limit) {ls : List (List α)} (hs : ∀ l ∈ ls, Sorted key l)
    (hfin : Finished (walk key p limit cursor ls)) (hp : p a = true) (ha : ∀ l ∈ ls, a ∈ l)
    (hc : Above cursor (key a)) :
    a ∈ (walk key p limit cursor ls).flatMap Page.data ↔ ¬ Missed key p limit cursor ls a := by
  induction ls generalizing cursor with
  | nil =>
    obtain ⟨q, hq, -⟩ := hfin
    cases hq
  | cons l ls ih =>
    have hl := hs l (by simp)
    have hls : ∀ l ∈ ls, Sorted key l := fun l' h' => hs l' (by simp [h'])
    have hrest : a ∈ rest key p cursor l ↔ ¬ Skips key cursor l a := by
      rw [mem_rest, mem_after_iff hl (ha l (by simp)) hc, and_iff_left hp]
    rw [walk, List.flatMap_cons, List.mem_append, Missed, not_or]
    cases hnext : (page key p limit l cursor).hasNextPage with
    | false => simp [page_data_last hnext, hrest]
    | true =>
      have hfin' := hfin.tail hnext
      obtain ⟨t, z, d, hdz, hcur, hsplit⟩ := page_split hlimit hnext
      have hsort : Sorted key (rest key p cursor l) := sorted_rest hl cursor
      have hz : z ∈ rest key p cursor l := by simp [hsplit]
      rw [hsplit, List.append_cons] at hsort hrest
      rw [hcur] at hfin' ⊢
      simp only [if_true, hdz, true_and]
      obtain ⟨hsortz, -, hltd⟩ := List.pairwise_append.1 hsort
      -- the entries of this page come before the cursor of the next one
      have hle {b : α} (hb : b ∈ t ++ [z]) : key b ≤ key z := by
        rcases List.mem_append.1 hb with hb | hb
        · exact ((List.pairwise_append.1 hsortz).2.2 b hb z (by simp)).le
        · rw [List.mem_singleton.1 hb]
      by_cases hpage : a ∈ t ++ [z]
      · have hmiss : ¬ Missed key p limit (some (key z)) ls a := fun h =>
          absurd (h.above hlimit hls) (not_lt.2 (hle hpage))
        exact iff_of_true (Or.inl hpage)
          ⟨hrest.1 (List.mem_append_left _ hpage), hmiss⟩
      · by_cases hd : a ∈ d
        · have hza : Above (some (key z)) (key a) := hltd z (by simp) a hd
          rw [ih hls hfin' (fun l' h' => ha l' (by simp [h'])) hza]
          have hskip := hrest.1 (List.mem_append_right _ hd)
          exact ⟨fun h => h.elim (absurd · hpage) fun h => ⟨hskip, h⟩, fun h => Or.inr h.2⟩
        · have hskip : Skips key cursor l a := by
            by_contra h
            rcases List.mem_append.1 (hrest.2 h) with h | h
            · exact hpage h
            · exact hd h
          -- a skipped entry comes before this page, and so before all that follow
          have haz : key a < key z := hskip.lt_of_mem hl (mem_rest.1 hz).1
          refine iff_of_false ?_ fun h => h.1 hskip
          rintro (h | h)
          · exact hpage h
          · exact lt_asymm haz (above_of_mem_walk hlimit hls h)

/-- A request that skips something has a cursor that is gone. -/
theorem Skips.gone (h : Sorted key l) (hs : Skips key cursor l a) :
    ∃ c, cursor = some c ∧ ∀ b ∈ l, key b ≠ c := by
  obtain ⟨c, rfl, hne, hhead⟩ := hs
  refine ⟨c, rfl, ?_⟩
  rintro b hb rfl
  obtain ⟨a', ds, hd⟩ : ∃ a' ds, (l.dropWhile fun x => key x < key b) = a' :: ds :=
    List.exists_cons_of_ne_nil fun hnil => by rw [hnil] at hhead; cases hhead
  have hsort : Sorted key (a' :: ds) := hd ▸ h.sublist (List.dropWhile_suffix _).sublist
  have hmem : b ∈ a' :: ds := hd ▸ mem_dropWhile_of_le hb le_rfl
  rw [hd] at hhead
  cases hhead
  rcases List.mem_cons.1 hmem with rfl | hmem
  · exact hne rfl
  · have hle : key b ≤ key a := le_of_mem_dropWhile h (by rw [hd]; simp)
    exact not_lt.2 hle ((List.pairwise_cons.1 hsort).1 b hmem)

/-- **Nothing is left out while the cursors stay**: if an entry is missed, the first
cursor is gone, or something that was handed out is gone by the time of a later
request. -/
theorem Missed.gone (hlimit : 0 < limit) {ls : List (List α)} (hs : ∀ l ∈ ls, Sorted key l)
    (h : Missed key p limit cursor ls a) :
    (∃ c, cursor = some c ∧ ∃ l ∈ ls.head?, ∀ b ∈ l, key b ≠ c) ∨
    ∃ z ∈ (walk key p limit cursor ls).flatMap Page.data, ∃ l ∈ ls, z ∉ l := by
  induction ls generalizing cursor with
  | nil => exact h.elim
  | cons l ls ih =>
    rcases h with h | ⟨hnext, h⟩
    · obtain ⟨c, hc, hgone⟩ := h.gone (hs l (by simp))
      exact Or.inl ⟨c, hc, l, rfl, hgone⟩
    · right
      obtain ⟨t, z, d, hdz, hcur, -⟩ := page_split hlimit hnext
      rw [walk, if_pos hnext, List.flatMap_cons]
      rcases ih (fun l' h' => hs l' (by simp [h'])) h with
        ⟨c, hc, l', hl', hb⟩ | ⟨b, hb, l', hl', hne⟩
      · rw [hcur, Option.some.injEq] at hc
        exact ⟨z, by simp [hdz], l', by simp [List.mem_of_mem_head? hl'], fun hz => hb z hz hc⟩
      · exact ⟨b, List.mem_append_right _ hb, l', by simp [hl'], hne⟩

/-! ## A table that does not change -/

/-- If the table does not change, the pages are what is left of it. -/
theorem walk_replicate_rest (hlimit : 0 < limit) (hl : Sorted key l) {n : ℕ}
    (hn : (rest key p cursor l).length < n) :
    (walk key p limit cursor (List.replicate n l)).flatMap Page.data = rest key p cursor l ∧
      Finished (walk key p limit cursor (List.replicate n l)) := by
  induction n generalizing cursor with
  | zero => exact absurd hn (Nat.not_lt_zero _)
  | succ n ih =>
    rw [List.replicate_succ, walk]
    cases hnext : (page key p limit l cursor).hasNextPage with
    | false => exact ⟨by simp [page_data_last hnext], _, rfl, hnext⟩
    | true =>
      obtain ⟨t, z, d, hdz, hcurz, hsplit⟩ := page_split hlimit hnext
      have hrest : rest key p (some (key z)) l = d := rest_key hl hsplit
      have hlen : (rest key p (some (key z)) l).length < n := by
        rw [hsplit, List.length_append, List.length_cons] at hn
        rw [hrest]
        omega
      obtain ⟨hdata, last, hq, hlast⟩ := ih hlen
      rw [hcurz, if_pos rfl]
      refine ⟨?_, last, ?_, hlast⟩
      · rw [List.flatMap_cons, hdata, hdz, hrest, hsplit, List.append_assoc]
        rfl
      · cases hw : walk key p limit (some (key z)) (List.replicate n l) with
        | nil =>
          rw [hw] at hq
          cases hq
        | cons q qs => rw [List.getLast?_cons_cons, ← hw, hq]

/-- **If the table does not change, the pages are what was asked for.** -/
theorem walk_replicate (hlimit : 0 < limit) (hl : Sorted key l) {n : ℕ} (hn : l.length < n) :
    (walk key p limit none (List.replicate n l)).flatMap Page.data = l.filter p ∧
      Finished (walk key p limit none (List.replicate n l)) :=
  walk_replicate_rest hlimit hl (Nat.lt_of_le_of_lt (List.length_filter_le _ _) hn)

/-! ## A finite map as a table -/

section Rows

variable {ι ν : Type} [DecidableEq ι] (e : ι ≃ κ) (m : Finmap fun _ : ι => ν)

/-- The entries of a finite map, in the order of their keys. -/
def rows : List (ι × ν) :=
  (m.keys.map e.toEmbedding).sort.filterMap fun k => (m.lookup (e.symm k)).map fun v => (e.symm k, v)

theorem mem_rows {k : ι} {v : ν} : (k, v) ∈ rows e m ↔ m.lookup k = some v := by
  simp only [rows, List.mem_filterMap, Finset.mem_sort, Finset.mem_map, Option.map_eq_some_iff,
    Prod.mk.injEq]
  constructor
  · rintro ⟨k', -, v', hv, rfl, rfl⟩
    exact hv
  · intro hv
    have hk : k ∈ m.keys := Finmap.mem_keys.2 (Finmap.lookup_isSome.1 (by rw [hv]; rfl))
    refine ⟨e k, ⟨k, hk, rfl⟩, v, ?_, e.symm_apply_apply k, rfl⟩
    rw [e.symm_apply_apply]
    exact hv

theorem sorted_rows : Sorted (fun r : ι × ν => e r.1) (rows e m) := by
  refine List.Pairwise.filterMap _ ?_ (Finset.sortedLT_sort _).pairwise
  intro k k' hlt r hr r' hr'
  obtain ⟨v, -, rfl⟩ := Option.map_eq_some_iff.1 hr
  obtain ⟨v', -, rfl⟩ := Option.map_eq_some_iff.1 hr'
  simpa using hlt

end Rows

/-! ## Keys of two parts -/

section Blocks

variable {κ₁ κ₂ ν : Type} [LinearOrder κ₁] [LinearOrder κ₂]

/-- The order of keys of two parts. -/
def lexKey (r : (κ₁ × κ₂) × ν) : κ₁ ×ₗ κ₂ :=
  toLex r.1

/-- What a table has under the first part of a key. -/
def block (k : κ₁) (l : List ((κ₁ × κ₂) × ν)) : List (κ₂ × ν) :=
  (l.filter fun r => r.1.1 = k).map fun r => (r.1.2, r.2)

variable {k : κ₁} {l : List ((κ₁ × κ₂) × ν)}

omit [LinearOrder κ₂] in
theorem mem_block {c : κ₂} {v : ν} : (c, v) ∈ block k l ↔ ((k, c), v) ∈ l := by
  simp only [block, List.mem_map, List.mem_filter, decide_eq_true_eq, Prod.mk.injEq]
  constructor
  · rintro ⟨⟨⟨k', c'⟩, v'⟩, ⟨hmem, rfl⟩, rfl, rfl⟩
    exact hmem
  · intro hmem
    exact ⟨_, ⟨hmem, rfl⟩, rfl, rfl⟩

omit [LinearOrder κ₂] in
theorem block_cons_self (c : κ₂) (v : ν) : block k (((k, c), v) :: l) = (c, v) :: block k l := by
  simp [block]

omit [LinearOrder κ₂] in
theorem block_cons_of_ne {r : (κ₁ × κ₂) × ν} (h : r.1.1 ≠ k) : block k (r :: l) = block k l := by
  simp [block, h]

omit [LinearOrder κ₂] in
/-- What is left out elsewhere is not missing in the block. -/
theorem block_filter {q : (κ₁ × κ₂) × ν → Bool} (h : ∀ c v, ((k, c), v) ∈ l → q ((k, c), v) = true) :
    block k (l.filter q) = block k l := by
  rw [block, block, List.filter_filter]
  congr 1
  refine List.filter_congr fun r hr => ?_
  obtain ⟨⟨k', c⟩, v⟩ := r
  by_cases hk : k' = k
  · subst hk
    simp [h c v hr]
  · simp [hk]

theorem sorted_block (h : Sorted lexKey l) : Sorted Prod.fst (block k l) := by
  refine List.pairwise_map.2 (List.Pairwise.imp_of_mem ?_ (h.sublist List.filter_sublist))
  intro r r' hr hr' hlt
  have hk : r.1.1 = r'.1.1 := by simp_all
  exact ((Prod.Lex.toLex_lt_toLex.1 hlt).resolve_left (by simp [hk])).2

/-- Nothing of the block comes after an entry that is past it. -/
theorem block_of_past {r : (κ₁ × κ₂) × ν} (h : Sorted lexKey (r :: l)) (hr : k < r.1.1) :
    block k (r :: l) = [] := by
  refine List.eq_nil_iff_forall_not_mem.2 fun ⟨c, v⟩ hmem => ?_
  rcases List.mem_cons.1 (mem_block.1 hmem) with rfl | hmem
  · exact lt_irrefl _ hr
  · have hle : r.1.1 ≤ k := Prod.Lex.monotone_fst _ _ ((List.pairwise_cons.1 h).1 _ hmem).le
    exact not_lt.2 hle hr

/-- Once the block is reached, it is what comes first. -/
theorem takeWhile_block (h : Sorted lexKey l) (hk : ∀ r ∈ l, k ≤ r.1.1) :
    (l.takeWhile fun r => r.1.1 = k).map (fun r => (r.1.2, r.2)) = block k l := by
  induction l with
  | nil => rfl
  | cons r l ih =>
    obtain ⟨⟨k', c⟩, v⟩ := r
    by_cases hrk : k' = k
    · subst hrk
      rw [block_cons_self, List.takeWhile_cons_of_pos (by simp), List.map_cons,
        ih (List.pairwise_cons.1 h).2 fun r hr => hk r (by simp [hr])]
    · have hlt : k < k' := lt_of_le_of_ne (hk ((k', c), v) (by simp)) (Ne.symm hrk)
      rw [block_of_past h hlt, List.takeWhile_cons_of_neg (by simpa using hrk)]
      rfl

theorem block_drop (h : Sorted lexKey l) (hk : ∀ r ∈ l, k ≤ r.1.1) (n : ℕ) :
    block k (l.drop n) = (block k l).drop n := by
  induction l generalizing n with
  | nil => simp [block]
  | cons r l ih =>
    obtain ⟨⟨k', c⟩, v⟩ := r
    cases n with
    | zero => rfl
    | succ n =>
      rw [List.drop_succ_cons, ih (List.pairwise_cons.1 h).2 fun r hr => hk r (by simp [hr])]
      by_cases hrk : k' = k
      · subst hrk
        rw [block_cons_self, List.drop_succ_cons]
      · have hlt : k < k' := lt_of_le_of_ne (hk ((k', c), v) (by simp)) (Ne.symm hrk)
        have hnil := block_of_past h hlt
        have hl : block k l = [] := by rw [← hnil, block_cons_of_ne hrk]
        rw [hnil, hl, List.drop_nil, List.drop_nil]

theorem block_dropWhile (h : Sorted lexKey l) (c : κ₂) :
    block k (l.dropWhile fun r => lexKey r < toLex (k, c)) =
      (block k l).dropWhile fun r => r.1 < c := by
  induction l with
  | nil => rfl
  | cons r l ih =>
    obtain ⟨⟨k', c'⟩, v⟩ := r
    have hl := ih (List.pairwise_cons.1 h).2
    rcases lt_trichotomy k' k with hlt | rfl | hlt
    · have hdrop : lexKey ((k', c'), v) < toLex (k, c) := Prod.Lex.toLex_lt_toLex.2 (Or.inl hlt)
      rw [List.dropWhile_cons_of_pos (by simpa using hdrop), hl, block_cons_of_ne hlt.ne]
    · have hiff : lexKey ((k', c'), v) < toLex (k', c) ↔ c' < c := by
        simp [lexKey, Prod.Lex.toLex_lt_toLex]
      rw [block_cons_self]
      by_cases hc : c' < c
      · rw [List.dropWhile_cons_of_pos (by simpa using hiff.2 hc), hl,
          List.dropWhile_cons_of_pos (by simpa using hc)]
      · rw [List.dropWhile_cons_of_neg (by simpa using mt hiff.1 hc), block_cons_self,
          List.dropWhile_cons_of_neg (by simpa using hc)]
    · have hstop : ¬ lexKey ((k', c'), v) < toLex (k, c) := by
        simp [lexKey, Prod.Lex.toLex_lt_toLex, hlt.ne', hlt.le]
      rw [List.dropWhile_cons_of_neg (by simpa using hstop), block_of_past h hlt]
      rfl

/-- **Seeking in a table, and reading to the end of the block, is seeking in the
block.** -/
theorem seek_block (h : Sorted lexKey l) (k : κ₁) (c : κ₂) (n : ℕ) :
    (((l.dropWhile fun r => lexKey r < toLex (k, c)).drop n).takeWhile fun r => r.1.1 = k).map
      (fun r => (r.1.2, r.2)) = ((block k l).dropWhile fun r => r.1 < c).drop n := by
  have hd : Sorted lexKey (l.dropWhile fun r => lexKey r < toLex (k, c)) :=
    h.sublist (List.dropWhile_suffix _).sublist
  have hk : ∀ r ∈ l.dropWhile fun r => lexKey r < toLex (k, c), k ≤ r.1.1 := fun r hr =>
    Prod.Lex.monotone_fst _ _ (le_of_mem_dropWhile h hr)
  rw [takeWhile_block (hd.sublist (List.drop_sublist n _)) fun r hr => hk r (List.mem_of_mem_drop hr),
    block_drop hd hk, block_dropWhile h]

end Blocks

/-! ## The loop of a client -/

/-- The answers with something else in the place of each entry. -/
def Page.map {β : Type} (f : α → β) (answer : Page α κ) : Page β κ :=
  ⟨answer.data.map f, answer.nextCursor, answer.hasNextPage⟩

omit [LinearOrder κ] in
theorem flatMap_map_data {β : Type} (f : α → β) (pages : List (Page α κ)) :
    (pages.map (Page.map f)).flatMap Page.data = (pages.flatMap Page.data).map f := by
  induction pages with
  | nil => rfl
  | cons answer pages ih => simp [ih, Page.map]

omit [LinearOrder κ] in
theorem finished_map {β : Type} (f : α → β) (pages : List (Page α κ)) :
    Finished (pages.map (Page.map f)) ↔ Finished pages := by
  simp [Finished, List.getLast?_map, Page.map]

/-- A client that asks until there is no next page.  Its requests are served in the
states `ss`, one after the other, and may be refused. -/
def follow {σ ε β : Type} (serve : σ → Option κ → Except ε (Page β κ)) :
    Option κ → List σ → Except ε (List (Page β κ))
  | _, [] => .ok []
  | cursor, s :: ss => do
    let answer ← serve s cursor
    if answer.hasNextPage then
      let rest ← follow serve answer.nextCursor ss
      return answer :: rest
    else
      return [answer]

/-- A next cursor is one that was given, or the key of an entry. -/
theorem nextCursor_cases : (page key p limit l cursor).nextCursor = cursor ∨
    ∃ z ∈ l, (page key p limit l cursor).nextCursor = some (key z) := by
  cases hlast : ((rest key p cursor l).take limit).getLast? with
  | none =>
    left
    simp [page, List.take_take, hlast]
  | some z =>
    right
    refine ⟨z, ?_, by simp [page, List.take_take, hlast]⟩
    have hmem := List.mem_of_mem_take (List.mem_of_getLast? hlast)
    exact (after_suffix cursor l).mem (mem_rest.1 hmem).1

/-- **A client walks**, if its requests are served from tables.  A server may treat
some cursors in another way, as long as no entry has such a key. -/
theorem follow_eq_walk {σ ε β : Type} {serve : σ → Option κ → Except ε (Page β κ)}
    {table : σ → List α} {f : α → β} {q : Option κ → Prop} {ss : List σ}
    (hserve : ∀ s ∈ ss, ∀ cursor, q cursor →
      serve s cursor = .ok ((page key p limit (table s) cursor).map f))
    (hkey : ∀ s ∈ ss, ∀ z ∈ table s, q (some (key z))) (hcursor : q cursor) :
    follow serve cursor ss = .ok ((walk key p limit cursor (ss.map table)).map (Page.map f)) := by
  induction ss generalizing cursor with
  | nil => rfl
  | cons s ss ih =>
    have hnext : q (page key p limit (table s) cursor).nextCursor := by
      rcases @nextCursor_cases _ _ _ key p limit (table s) cursor with h | ⟨z, hz, h⟩
      · rw [h]
        exact hcursor
      · rw [h]
        exact hkey s (by simp) z hz
    have hrest := ih (fun s' hs' => hserve s' (by simp [hs']))
      (fun s' hs' => hkey s' (by simp [hs'])) hnext
    rw [follow, hserve s (by simp) cursor hcursor, List.map_cons, walk]
    generalize page key p limit (table s) cursor = answer at hrest
    obtain ⟨data, nextCursor, hasNextPage⟩ := answer
    cases hasNextPage with
    | false => rfl
    | true =>
      simp only [Page.map] at hrest ⊢
      simp only [bind, Except.bind, hrest]
      rfl

end Cursor
