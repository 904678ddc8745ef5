import BookMarket.Chain.Contents

/-!
# Where the money is

`held g o` adds up a weight of all items in a store, wherever they are: in
wallets, in the hands of a transaction, in listings, under sellers.  A weight is
`Monetary` when it respects merging coins and is zero on everything that is not
money; for such a weight only the calls of a treasury change the sum.

* `coinTotal`, `supplyTotal`, `capCount` — the coins of a currency, the supplies
  its treasuries have recorded, and the number of these treasuries.
* `Reshape.issue` — **what a call does to such a sum.**
* `History.held_eq` — a marketplace call keeps it.
-/

namespace BookMarket

open Function (update)

variable {A : Type} [DecidableEq A]

/-! ## Weights -/

omit [DecidableEq A] in
/-- The weight of a stored object; only items weigh something. -/
def weight (g : Item A → ℕ) (x : Stored A) : ℕ :=
  match x.data with
  | .item i => g i
  | _ => 0

/-- The sum of a weight over all items that exist. -/
def held (g : Item A → ℕ) (o : Objects A) : ℕ :=
  Finmap.total (weight g) o

/-- The value of a coin of currency `t`. -/
def coinWeight (t : TypeTag) : Item A → ℕ
  | .coin t' b => if t' = t then b.toNat else 0
  | _ => 0

/-- The supply recorded by a treasury of currency `t`. -/
def supplyWeight (t : TypeTag) : Item A → ℕ
  | .treasuryCap t' s => if t' = t then s.toNat else 0
  | _ => 0

/-- One for a treasury of currency `t`. -/
def capWeight (t : TypeTag) : Item A → ℕ
  | .treasuryCap t' _ => if t' = t then 1 else 0
  | _ => 0

/-- The sum of all `Coin<t>` there are. -/
def coinTotal (t : TypeTag) (o : Objects A) : ℕ := held (coinWeight t) o

/-- The sum of the supplies of the treasuries of `t`. -/
def supplyTotal (t : TypeTag) (o : Objects A) : ℕ := held (supplyWeight t) o

/-- The number of treasuries of `t`. -/
def capCount (t : TypeTag) (o : Objects A) : ℕ := held (capWeight t) o

omit [DecidableEq A] in
/-- A weight of money: merging coins keeps it, and nothing else has it. -/
structure Monetary (g : Item A → ℕ) : Prop where
  add : ∀ {t a b s}, s.toNat = a.toNat + b.toNat → g (.coin t s) = g (.coin t a) + g (.coin t b)
  nft : ∀ nft, g (.bookNFT nft) = 0
  other : ∀ n contents, g (.other n contents) = 0

omit [DecidableEq A] in
theorem monetary_coinWeight (t : TypeTag) : Monetary (coinWeight t : Item A → ℕ) := by
  refine ⟨fun {t' a b s} h => ?_, fun _ => rfl, fun _ _ => rfl⟩
  by_cases ht : t' = t
  · simp [coinWeight, ht, h]
  · simp [coinWeight, ht]

omit [DecidableEq A] in
theorem monetary_supplyWeight (t : TypeTag) : Monetary (supplyWeight t : Item A → ℕ) :=
  ⟨fun _ => rfl, fun _ => rfl, fun _ _ => rfl⟩

omit [DecidableEq A] in
theorem monetary_capWeight (t : TypeTag) : Monetary (capWeight t : Item A → ℕ) :=
  ⟨fun _ => rfl, fun _ => rfl, fun _ _ => rfl⟩

/-! ## The sum after a change -/

theorem weightAt_eq (g : Item A → ℕ) (o : Objects A) (id : A) :
    Finmap.weightAt (weight g) o id = (itemAt o id).elim 0 g := by
  rw [Finmap.weightAt, itemAt]
  cases o.lookup id with
  | none => rfl
  | some x =>
    obtain ⟨owner, d⟩ := x
    cases d <;> rfl

theorem held_congr (g : Item A → ℕ) {o o' : Objects A} (h : itemAt o' = itemAt o) :
    held g o' = held g o :=
  Finmap.total_congr fun id => by rw [weightAt_eq, weightAt_eq, h]

theorem held_update (g : Item A → ℕ) {o o' : Objects A} {id : A} {v : Option (Item A)}
    (h : itemAt o' = update (itemAt o) id v) :
    held g o' + (itemAt o id).elim 0 g = held g o + v.elim 0 g := by
  have := Finmap.total_update (w := weight g) (s := o) (t := o') id fun b hb => by
    rw [weightAt_eq, weightAt_eq, h, Function.update_of_ne hb]
  rwa [weightAt_eq, weightAt_eq, h, Function.update_self] at this

/-- Changing an item that has no weight, before or after, changes no sum. -/
theorem held_update_zero (g : Item A → ℕ) {o o' : Objects A} {id : A} {v : Option (Item A)}
    (h : itemAt o' = update (itemAt o) id v) (hold : (itemAt o id).elim 0 g = 0)
    (hv : v.elim 0 g = 0) : held g o' = held g o := by
  have := held_update g h
  omega

/-- There is a store with any one item changed. -/
theorem exists_update (o : Objects A) (id : A) (v : Option (Item A)) :
    ∃ o' : Objects A, itemAt o' = update (itemAt o) id v := by
  cases v with
  | none => exact ⟨o.erase id, itemAt_erase o id⟩
  | some i => exact ⟨o.insert id ⟨.shared, .item i⟩, itemAt_insert o id _ i⟩

theorem held_update_two (g : Item A → ℕ) {o o' : Objects A} {a b : A} {u v : Option (Item A)}
    (hab : b ≠ a) (h : itemAt o' = update (update (itemAt o) a u) b v) :
    held g o' + (itemAt o a).elim 0 g + (itemAt o b).elim 0 g =
      held g o + u.elim 0 g + v.elim 0 g := by
  obtain ⟨o1, ho1⟩ := exists_update o a u
  have h1 := held_update g ho1
  rw [← ho1] at h
  have h2 := held_update g h
  rw [ho1, Function.update_of_ne hab] at h2
  omega

variable [AddressSpace A]

omit [DecidableEq A] [AddressSpace A] in
/-- The calls of a treasury. -/
def Call.treasury : Call A → Bool
  | .createCurrency _ | .coinMint .. | .coinBurn .. => true
  | _ => false

omit [DecidableEq A] [AddressSpace A] in
theorem Call.moves.treasury {call : Call A} (h : call.moves) : call.treasury = false := by
  rcases h with hop | ⟨_, _, rfl⟩ | ⟨_, _, rfl⟩ | ⟨_, _, _, rfl⟩
  · cases call with
    | createCurrency | coinMint | coinBurn => exact absurd rfl hop
    | _ => rfl
  all_goals rfl

/-- What a call does to the sums of money: nothing, unless it is a treasury's. -/
inductive Issue (o o' : Objects A) : Call A → Prop
  | none {call : Call A} (hcall : call.treasury = false)
      (h : ∀ {g}, Monetary g → held g o' = held g o) : Issue o o' call
  | createCurrency {coin : TypeTag}
      (h : ∀ {g}, Monetary g → held g o' = held g o + g (.treasuryCap coin 0)) :
      Issue o o' (.createCurrency coin)
  | coinMint {coin : TypeTag} {cap : A} {value supply supply' : UInt64}
      (hs : Balance.increaseSupply supply value = .ok supply')
      (h : ∀ {g}, Monetary g → held g o' + g (.treasuryCap coin supply) =
        held g o + g (.treasuryCap coin supply') + g (.coin coin value)) :
      Issue o o' (.coinMint coin cap value)
  | coinBurn {coin : TypeTag} {cap burned : A} {value supply supply' : UInt64}
      (hs : Balance.decreaseSupply supply value = .ok supply')
      (h : ∀ {g}, Monetary g → held g o' + g (.coin coin value) + g (.treasuryCap coin supply) =
        held g o + g (.treasuryCap coin supply')) :
      Issue o o' (.coinBurn coin cap burned)

namespace Reshape

variable {ctx : TxContext A} {o o' : Objects A} {call : Call A}

/-- **What a call does to the sums of money.** -/
theorem issue (h : Reshape ctx (itemAt o) call (itemAt o'))
    (hnew : itemAt o (objectNew ctx).1 = none) : Issue o o' call := by
  generalize hf' : itemAt o' = f' at h
  cases h with
  | same hcall => exact .none hcall.treasury fun {g} _ => held_congr g hf'
  | merge hcall hi hm hne hs =>
    refine .none hcall.treasury fun {g} hg => ?_
    have := held_update_two g hne hf'
    rw [hm, hi] at this
    simp only [Option.elim_some, Option.elim_none, hg.add hs] at this
    omega
  | mintToSender hn =>
    exact .none rfl fun {g} hg => held_update_zero g hf' (by rw [hnew]; rfl) (hg.nft _)
  | updateDescription hf hn =>
    exact .none rfl fun {g} hg => held_update_zero g hf' (by rw [hf]; exact hg.nft _) (hg.nft _)
  | burn hf =>
    exact .none rfl fun {g} hg => held_update_zero g hf' (by rw [hf]; exact hg.nft _) rfl
  | createCurrency =>
    refine .createCurrency fun {g} _ => ?_
    have := held_update g hf'
    rw [hnew] at this
    exact this
  | coinMint hf hne hs =>
    refine .coinMint hs fun {g} _ => ?_
    have := held_update_two g hne.symm hf'
    rw [hf, hnew] at this
    exact this
  | @coinBurn coin cap burned value supply supply' hc hf hs =>
    have hne : cap ≠ burned := by
      rintro rfl
      rw [hc] at hf
      cases hf
    refine .coinBurn hs fun {g} _ => ?_
    have := held_update_two g hne hf'
    rw [hc, hf] at this
    simp only [Option.elim_some, Option.elim_none] at this
    omega
  | @coinSplit coin self amount value rest hf hne hs =>
    refine .none rfl fun {g} hg => ?_
    have := held_update_two g hne.symm hf'
    rw [hf, hnew] at this
    have hadd := hg.add (t := coin) (Balance.split_eq_ok hs).symm
    simp only [Option.elim_some, Option.elim_none] at this
    omega
  | otherNew =>
    exact .none rfl fun {g} hg => held_update_zero g hf' (by rw [hnew]; rfl) (hg.other _ _)
  | otherSet hf =>
    exact .none rfl fun {g} hg => held_update_zero g hf' (by rw [hf]; exact hg.other _ _) (hg.other _ _)
  | otherDelete hf =>
    exact .none rfl fun {g} hg => held_update_zero g hf' (by rw [hf]; exact hg.other _ _) rfl

end Reshape

namespace History

variable {h : List (Entry A)} {c c' : Chain A}

/-- A marketplace call keeps every sum of money. -/
theorem held_eq (hc : History h c) {g : Item A → ℕ} (hg : Monetary g) {call : Call A}
    {out : Option (Obj A)} (he : BookMarket.exec c call = .ok (c', out)) (hop : call.op ≠ none) :
    held g c'.objects = held g c.objects := by
  cases (hc.reshape he).issue (itemAt_none hc.layout.lookup_objectNew) with
  | none _ h => exact h hg
  | _ => exact absurd rfl hop

end History

end BookMarket
