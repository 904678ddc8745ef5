import Mathlib.Data.Rat.Defs
import BookMarket.Lib.Decimal
import BookMarket.Dapp.MarketPage
import BookMarket.Dapp.BuyButton

/-!
# The floor price

The Market page shows the least ask of all listings.  The asks are `u64`, and the RPC
delivers those as decimal strings; `currentItem.ask < minItem.ask` therefore compares
words, and "10" comes before "9".

* `minAskItem`, `minAskValue` — the page.
* `IsFloor` — what it is for.
* `floorPrice` — **the price shown is the least ask exactly when no ask begins with
  digits that make a smaller number than it.**
-/

namespace BookMarket

variable {A : Type}

/-! ## The page -/

/-- A `u64` as the RPC writes it. -/
def decimal (n : UInt64) : List Char := Nat.toDigits 10 n.toNat

/-- `<` between two fields `ask`: strings are compared as words, and `undefined` is
less than nothing. -/
def askLt : Option UInt64 → Option UInt64 → Bool
  | some a, some b => decimal a < decimal b
  | _, _ => false

def minAskItem (deTaskList : List (Obj A)) : Option (Obj A) :=
  deTaskList.head?.map fun first =>
    deTaskList.foldl (fun minItem currentItem =>
      if askLt currentItem.ask minItem.ask then currentItem else minItem) first

/-- The price in SUI; without an `ask` it is not a number. -/
def minAskValue (deTaskList : List (Obj A)) : Option ℚ :=
  match minAskItem deTaskList with
  | some item => item.ask.map fun ask => ask.toNat / 1000000000
  | none => some 0

/-- What the page is for: an item of the list with an ask that no other is below. -/
def IsFloor (deTaskList : List (Obj A)) (item : Option (Obj A)) : Prop :=
  ∃ least ask, item = some least ∧ least ∈ deTaskList ∧ least.ask = some ask ∧
    ∀ other ∈ deTaskList, ∀ ask', other.ask = some ask' → ask ≤ ask'

/-- The asks of a list of items. -/
def asksOf (deTaskList : List (Obj A)) : List UInt64 := deTaskList.filterMap Obj.ask

/-! ## What the loop finds -/

/-- The word an item is compared by. -/
def Obj.askWord (item : Obj A) : List Char := (item.ask.map decimal).getD []

theorem askLt_iff {item other : Obj A} (hitem : item.ask.isSome) (hother : other.ask.isSome) :
    askLt item.ask other.ask = true ↔ item.askWord < other.askWord := by
  obtain ⟨a, ha⟩ := Option.isSome_iff_exists.1 hitem
  obtain ⟨b, hb⟩ := Option.isSome_iff_exists.1 hother
  simp [askLt, Obj.askWord, ha, hb]

section Loop

variable {tasks : List (Obj A)} (hne : tasks ≠ []) (hasks : ∀ item ∈ tasks, item.ask.isSome)

include hne hasks

/-- **The loop ends with an ask that comes first in dictionary order.** -/
theorem minAskItem_spec : ∃ item ask, minAskItem tasks = some item ∧ item ∈ tasks ∧
    item.ask = some ask ∧ ∀ ask' ∈ asksOf tasks, decimal ask ≤ decimal ask' := by
  obtain ⟨first, rest, rfl⟩ := List.exists_cons_of_ne_nil hne
  have hdup {item : Obj A} (h : item ∈ first :: first :: rest) : item ∈ first :: rest := by
    simpa using h
  obtain ⟨hmem, hle⟩ := Lists.foldl_min Obj.askWord (fun x y => askLt x.ask y.ask)
    fun x hx y hy => askLt_iff (hasks x (hdup hx)) (hasks y (hdup hy))
  obtain ⟨ask, hask⟩ := Option.isSome_iff_exists.1 (hasks _ (hdup hmem))
  refine ⟨_, ask, rfl, hdup hmem, hask, fun ask' hask' => ?_⟩
  obtain ⟨other, hother, heq⟩ := List.mem_filterMap.1 hask'
  have hword := hle other (List.mem_cons_of_mem _ hother)
  rwa [Obj.askWord, Obj.askWord, hask, heq] at hword

/-- So its ask is the same in every order. -/
theorem minAskItem_perm {tasks' : List (Obj A)} (hperm : tasks'.Perm tasks) :
    (minAskItem tasks').bind Obj.ask = (minAskItem tasks).bind Obj.ask := by
  have hne' : tasks' ≠ [] := fun h => hne (List.Perm.nil_eq (h ▸ hperm)).symm
  have hasks' : ∀ item ∈ tasks', item.ask.isSome := fun item h => hasks item (hperm.mem_iff.1 h)
  obtain ⟨item, ask, hmin, hmem, hask, hle⟩ := minAskItem_spec hne hasks
  obtain ⟨item', ask', hmin', hmem', hask', hle'⟩ := minAskItem_spec hne' hasks'
  rw [hmin, hmin', Option.bind_some, Option.bind_some, hask, hask']
  have h1 := hle ask' (List.mem_filterMap.2 ⟨item', hperm.mem_iff.1 hmem', hask'⟩)
  have h2 := hle' ask (List.mem_filterMap.2 ⟨item, hperm.mem_iff.2 hmem, hask⟩)
  have heq : decimal ask' = decimal ask := le_antisymm h2 h1
  rw [UInt64.toNat_inj.1 (Decimal.toDigits_inj.1 heq)]

end Loop

/-! ## When it is the least ask -/

theorem exists_least {asks : List UInt64} (hne : asks ≠ []) :
    ∃ ask ∈ asks, ∀ ask' ∈ asks, ask ≤ ask' := by
  obtain ⟨first, rest, rfl⟩ := List.exists_cons_of_ne_nil hne
  obtain ⟨hmem, hle⟩ := Lists.foldl_min UInt64.toNat (fun x y => x < y) (a := first)
    (l := rest) fun x _ y _ => by simp [UInt64.lt_iff_toNat_lt]
  exact ⟨_, hmem, fun ask' hask' => UInt64.le_iff_toNat_le.2 (hle ask' hask')⟩

theorem minAskValue_eq {tasks : List (Obj A)} (hne : tasks ≠ []) :
    minAskValue tasks =
      ((minAskItem tasks).bind Obj.ask).map fun ask => (ask.toNat : ℚ) / 1000000000 := by
  obtain ⟨first, rest, rfl⟩ := List.exists_cons_of_ne_nil hne
  rfl

/-- No ask begins with digits that make a smaller number than `ask`. -/
def LeadsNothing (asks : List UInt64) (ask : UInt64) : Prop :=
  ∀ ask' ∈ asks, ask.toNat ≤ Decimal.leading (Decimal.length ask.toNat) ask'.toNat

/-- The least ask comes first in dictionary order exactly then. -/
theorem decimal_le_iff {asks : List UInt64} {ask : UInt64} (hleast : ∀ ask' ∈ asks, ask ≤ ask') :
    (∀ ask' ∈ asks, decimal ask ≤ decimal ask') ↔ LeadsNothing asks ask := by
  refine forall₂_congr fun ask' hask' => ?_
  have hlen : Decimal.length ask.toNat ≤ Decimal.length ask'.toNat :=
    Decimal.length_mono (UInt64.le_iff_toNat_le.1 (hleast ask' hask'))
  rw [← not_lt, decimal, decimal, Decimal.toDigits_lt_iff_leading hlen, not_lt]

/-- **The price shown is the least ask exactly when no ask begins with digits that make
a smaller number than it.**  For every list of listings, with any asks and in any
order; and the order does not matter in any case. -/
theorem floorPrice {tasks : List (Obj A)} (hne : tasks ≠ [])
    (hasks : ∀ item ∈ tasks, item.ask.isSome) :
    (IsFloor tasks (minAskItem tasks) ↔
      ∀ ask ∈ asksOf tasks, (∀ ask' ∈ asksOf tasks, ask ≤ ask') →
        LeadsNothing (asksOf tasks) ask) ∧
    ∀ tasks', tasks'.Perm tasks → minAskValue tasks' = minAskValue tasks := by
  obtain ⟨item, word, hmin, hmem, hword, hle⟩ := minAskItem_spec hne hasks
  have hin : word ∈ asksOf tasks := List.mem_filterMap.2 ⟨item, hmem, hword⟩
  refine ⟨⟨?_, ?_⟩, ?_⟩
  · rintro ⟨least, ask₀, heq, -, hask₀, hfloor⟩ ask hask hleast
    rw [hmin, Option.some.injEq] at heq
    subst heq
    cases hword.symm.trans hask₀
    -- what was chosen is the least ask
    obtain ⟨other, hother, hask'⟩ := List.mem_filterMap.1 hask
    obtain rfl : ask = word := UInt64.le_antisymm (hleast word hin) (hfloor other hother ask hask')
    exact (decimal_le_iff hleast).1 hle
  · intro hcond
    obtain ⟨ask, hask, hleast⟩ := exists_least (List.ne_nil_of_mem hin)
    have hfirst := (decimal_le_iff hleast).2 (hcond ask hask hleast)
    have heq : decimal ask = decimal word := le_antisymm (hfirst word hin) (hle ask hask)
    obtain rfl : ask = word := UInt64.toNat_inj.1 (Decimal.toDigits_inj.1 heq)
    refine ⟨item, ask, hmin, hmem, hword, fun other hother ask' hask' => ?_⟩
    exact hleast ask' (List.mem_filterMap.2 ⟨other, hother, hask'⟩)
  · intro tasks' hperm
    have hne' : tasks' ≠ [] := fun h => hne (List.Perm.nil_eq (h ▸ hperm)).symm
    rw [minAskValue_eq hne, minAskValue_eq hne', minAskItem_perm hne hasks hperm]

/-- Listings with given asks. -/
def listingsFor (asks : List UInt64) : List (Obj ℕ) := asks.map fun ask => ⟨0, .listing ask 1⟩

/-- Asks with the same number of digits. -/
theorem floorPrice_sameLength :
    IsFloor (listingsFor [12, 10, 11]) (minAskItem (listingsFor [12, 10, 11])) := by
  refine (floorPrice (by decide) (by decide)).1.2 ?_
  have hasks : asksOf (listingsFor [12, 10, 11]) = [12, 10, 11] := by decide
  rw [hasks]
  intro ask hask hleast
  have hle : ask ≤ 10 := hleast 10 (by simp)
  simp only [List.mem_cons, List.not_mem_nil, or_false] at hask
  obtain rfl : ask = 10 := by
    rcases hask with rfl | rfl | rfl
    · exact absurd hle (by decide)
    · rfl
    · exact absurd hle (by decide)
  unfold LeadsNothing
  intro ask' hask'
  simp only [List.mem_cons, List.not_mem_nil, or_false] at hask'
  rcases hask' with rfl | rfl | rfl <;> decide

/-- Of the asks 10 and 9 the page shows 10. -/
theorem floorPrice_wrong :
    minAskItem (listingsFor [10, 9]) = some ⟨0, .listing 10 1⟩ ∧
    ¬ IsFloor (listingsFor [10, 9]) (minAskItem (listingsFor [10, 9])) := by
  have hmin : minAskItem (listingsFor [10, 9]) = some ⟨0, .listing 10 1⟩ := by decide
  refine ⟨hmin, ?_⟩
  rw [hmin]
  rintro ⟨least, ask, heq, -, hask, hfloor⟩
  cases heq
  cases hask
  exact absurd (hfloor ⟨0, .listing 9 1⟩ (by simp [listingsFor]) 9 rfl) (by decide)

end BookMarket
