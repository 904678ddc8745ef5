import BookMarket.Chain.Effect

/-!
# What exists, wherever it is

`itemAt o id` is the item with the identifier `id`, whether somebody holds it, a
listing keeps it or it is a seller's coin.  Most calls only move items about and
leave `itemAt` as it is; `Reshape` lists the few ways in which a call creates,
changes or destroys one.

* `Layout.itemAt_free`, `Layout.itemAt_slot`, `Layout.itemAt_profits` — where
  the items of a laid out store are.
* `Effect.reshape` — **what a call does to the items that exist.**
* `History.contentsRule` — the invariant rule for statements about them.
-/

namespace BookMarket

open Function (update)

variable {A : Type} [DecidableEq A]

/-- The item `id`, wherever it is. -/
def itemAt (o : Objects A) (id : A) : Option (Item A) :=
  match o.lookup id with
  | some ⟨_, .item i⟩ => some i
  | _ => none

/-! ## Reading after a write -/

theorem itemAt_of_lookup {o : Objects A} {id : A} {owner : Owner A} {i : Item A}
    (h : o.lookup id = some ⟨owner, .item i⟩) : itemAt o id = some i := by
  rw [itemAt, h]

theorem itemAt_none {o : Objects A} {id : A} (h : o.lookup id = none) : itemAt o id = none := by
  rw [itemAt, h]

theorem itemAt_eq_some {o : Objects A} {id : A} {i : Item A} (h : itemAt o id = some i) :
    ∃ owner, o.lookup id = some ⟨owner, .item i⟩ := by
  unfold itemAt at h
  split at h
  · next owner i' ho =>
    cases h
    exact ⟨owner, ho⟩
  · cases h

theorem itemAt_insert (o : Objects A) (id : A) (owner : Owner A) (i : Item A) :
    itemAt (o.insert id ⟨owner, .item i⟩) = update (itemAt o) id (some i) := by
  funext id'
  by_cases hid : id' = id
  · subst hid
    rw [itemAt, Finmap.lookup_insert, Function.update_self]
  · rw [itemAt, Finmap.lookup_insert_of_ne _ hid, Function.update_of_ne hid, itemAt]

theorem itemAt_erase (o : Objects A) (id : A) : itemAt (o.erase id) = update (itemAt o) id none := by
  funext id'
  by_cases hid : id' = id
  · subst hid
    rw [itemAt, Finmap.lookup_erase, Function.update_self]
  · rw [itemAt, Finmap.lookup_erase_ne hid, Function.update_of_ne hid, itemAt]

/-- An object that is no item is not seen. -/
theorem itemAt_insert_same {o : Objects A} {id : A} {x : Stored A} (hx : ∀ i, x.data ≠ .item i)
    (hid : itemAt o id = none) : itemAt (o.insert id x) = itemAt o := by
  obtain ⟨owner, d⟩ := x
  funext id'
  by_cases h : id' = id
  · subst h
    rw [hid, itemAt, Finmap.lookup_insert]
    cases d with
    | item i => exact absurd rfl (hx i)
    | _ => rfl
  · rw [itemAt, Finmap.lookup_insert_of_ne _ h, itemAt]

theorem itemAt_erase_same {o : Objects A} {id : A} (hid : itemAt o id = none) :
    itemAt (o.erase id) = itemAt o := by
  rw [itemAt_erase, ← hid, Function.update_eq_self]

variable [AddressSpace A]

/-! ## Where the items are -/

namespace Layout

variable {ctx : TxContext A} {w : World A} {o : Objects A}

/-- A world is stored in one way only. -/
theorem store_unique {ctx' : TxContext A} {o' : Objects A} (hl : Layout ctx w o)
    (hl' : Layout ctx' w o') : o = o' := by
  refine Finmap.ext_lookup fun id => Option.ext fun x => ?_
  rw [hl.lookup_iff, hl'.lookup_iff]

theorem itemAt_free (hl : Layout ctx w o) {id : A} {h : Holder A} {i : Item A}
    (hf : w.free id = some (h, i)) : itemAt o id = some i :=
  itemAt_of_lookup (hl.lookup_free hf)

theorem itemAt_slot (hl : Layout ctx w o) {m k : A} {L : Slot A} (hw : w.slots (m, k) = some L) :
    itemAt o k = some L.item :=
  itemAt_of_lookup (hl.lookup_piece hw .item)

theorem itemAt_profits (hl : Layout ctx w o) {m s : A} {c : Coin A} {coin : TypeTag}
    (hp : w.profits (m, s) = some c) (hm : w.markets m = some coin) :
    itemAt o c.id = some (.coin coin c.balance) :=
  itemAt_of_lookup (hl.lookup_profitsPiece hp hm .coin)

/-- An item is free, listed, or somebody's proceeds. -/
theorem itemAt_cases (hl : Layout ctx w o) {id : A} {i : Item A} (h : itemAt o id = some i) :
    (∃ holder, w.free id = some (holder, i)) ∨ (∃ m L, w.slots (m, id) = some L ∧ L.item = i) ∨
      ∃ m s coin c, w.profits (m, s) = some c ∧ w.markets m = some coin ∧ c.id = id ∧
        i = .coin coin c.balance := by
  obtain ⟨owner, ho⟩ := itemAt_eq_some h
  rcases hl.lookup_iff.1 ho with ⟨hw, hx⟩ | ⟨hw, hx⟩ | ⟨hw, hx⟩ | ⟨hw, hm, hx⟩
  · cases hx
    exact Or.inl ⟨_, hw⟩
  · cases hx
  · cases hx
    exact Or.inr (Or.inl ⟨_, _, hw, rfl⟩)
  · cases hx
    exact Or.inr (Or.inr ⟨_, _, _, _, hw, hm, rfl, rfl⟩)

theorem itemAt_used (hl : Layout ctx w o) {id : A} {i : Item A} (h : itemAt o id = some i) :
    Used ctx id := by
  obtain ⟨owner, ho⟩ := itemAt_eq_some h
  rcases hl.used ho with ⟨n, v, hd⟩ | hu
  · cases hd
  · exact hu

theorem itemAt_hash (hl : Layout ctx w o) (p : A) (n : Name A) :
    itemAt o (hashTypeAndKey p n) = none := by
  cases h : itemAt o (hashTypeAndKey p n) with
  | none => rfl
  | some i => exact absurd rfl (hl.itemAt_used h).ne_hash

theorem itemAt_unused (hl : Layout ctx w o) {id : A} (hu : ¬ Used ctx id) : itemAt o id = none := by
  cases h : itemAt o id with
  | none => rfl
  | some i => exact absurd (hl.itemAt_used h) hu

/-- Writing the objects of a listing makes its item appear. -/
theorem itemAt_addSlot (hl : Layout ctx w o) {k : A} (m : A) {L : Slot A}
    (hku : Used ctx k) (hu : ¬ Used ctx L.uid) :
    itemAt (addSlotObjects o m k L) = update (itemAt o) k (some L.item) := by
  have hku' : L.uid ≠ k := by rintro rfl; exact hu hku
  have h1 : itemAt (o.insert (hashTypeAndKey L.uid (.bool true))
      ⟨.objectOwner L.uid, .field (.bool true) k⟩) = itemAt o :=
    itemAt_insert_same (fun _ => by simp) (hl.itemAt_hash _ _)
  rw [addSlotObjects, itemAt_insert_same, itemAt_insert_same, itemAt_insert, h1]
  · intro i
    simp
  · rw [itemAt_insert, h1, Function.update_of_ne hku.ne_hash.symm, hl.itemAt_hash]
  · intro i
    simp
  · rw [itemAt_insert_same, itemAt_insert, h1, Function.update_of_ne hku', hl.itemAt_unused hu]
    · intro i
      simp
    · rw [itemAt_insert, h1, Function.update_of_ne hku.ne_hash.symm, hl.itemAt_hash]

theorem itemAt_removeSlot (hl : Layout ctx w o) {m k : A} {L : Slot A}
    (hw : w.slots (m, k) = some L) :
    itemAt (removeItem (removeListing o m k L) k L) = update (itemAt o) k none := by
  have h1 : itemAt (o.erase L.uid) = itemAt o :=
    itemAt_erase_same (by rw [itemAt, hl.lookup_piece hw .listing])
  have h2 : itemAt (removeListing o m k L) = itemAt o := by
    rw [removeListing, itemAt_erase_same, h1]
    rw [h1, hl.itemAt_hash]
  rw [removeItem, itemAt_erase_same, itemAt_erase, h2]
  rw [itemAt_erase, h2, Function.update_of_ne (hl.used_item hw).ne_hash.symm, hl.itemAt_hash]

theorem itemAt_attach (hl : Layout ctx w o) (coin : TypeTag) (m s : A) (c : Coin A) :
    itemAt (attachObjects o coin m s c) =
      update (itemAt o) c.id (some (.coin coin c.balance)) := by
  rw [attachObjects, itemAt_insert, itemAt_insert_same (fun _ => by simp) (hl.itemAt_hash _ _)]

theorem itemAt_removeProfits (hl : Layout ctx w o) {m s : A} {c : Coin A}
    (hp : w.profits (m, s) = some c) :
    itemAt (removeProfitsObjects o m s c) = update (itemAt o) c.id none := by
  rw [removeProfitsObjects, itemAt_erase_same, itemAt_erase]
  rw [itemAt_erase, Function.update_of_ne (hl.used_coin hp).ne_hash.symm, hl.itemAt_hash]

end Layout

/-! ## What a call does to them -/

/-- Calls that only move items about, or merge coins. -/
def Call.moves (call : Call A) : Prop :=
  call.op ≠ none ∨ (∃ id recipient, call = .transfer id recipient) ∨
    (∃ id recipient, call = .publicTransfer id recipient) ∨
    ∃ coin self c, call = .coinJoin coin self c

/-- `Reshape ctx f call f'`: the items that exist are `f` before the call and `f'`
after it. -/
inductive Reshape (ctx : TxContext A) (f : A → Option (Item A)) :
    Call A → (A → Option (Item A)) → Prop
  | same {call : Call A} (hcall : call.moves) : Reshape ctx f call f
  | merge {call : Call A} {into merged : A} {coin : TypeTag} {value added sum : UInt64}
      (hcall : call.moves) (hi : f into = some (.coin coin value))
      (hm : f merged = some (.coin coin added)) (hne : into ≠ merged)
      (hs : sum.toNat = value.toNat + added.toNat) :
      Reshape ctx f call (update (update f merged none) into (some (.coin coin sum)))
  | mintToSender {title description content url : List UInt8} {nft : BookNFT A}
      (hn : BookNft.newNft ctx.sender title description content url = .ok nft) :
      Reshape ctx f (.mintToSender title description content url)
        (update f (objectNew ctx).1 (some (.bookNFT nft)))
  | updateDescription {id : A} {newDescription : List UInt8} {nft nft' : BookNFT A}
      (hf : f id = some (.bookNFT nft))
      (hn : BookNft.updateDescription nft newDescription = .ok nft') :
      Reshape ctx f (.updateDescription id newDescription) (update f id (some (.bookNFT nft')))
  | burn {id : A} {nft : BookNFT A} (hf : f id = some (.bookNFT nft)) :
      Reshape ctx f (.burn id) (update f id none)
  | createCurrency {coin : TypeTag} :
      Reshape ctx f (.createCurrency coin) (update f (objectNew ctx).1 (some (.treasuryCap coin 0)))
  | coinMint {coin : TypeTag} {cap : A} {value supply supply' : UInt64}
      (hf : f cap = some (.treasuryCap coin supply)) (hne : cap ≠ (objectNew ctx).1)
      (hs : Balance.increaseSupply supply value = .ok supply') :
      Reshape ctx f (.coinMint coin cap value)
        (update (update f cap (some (.treasuryCap coin supply'))) (objectNew ctx).1
          (some (.coin coin value)))
  | coinBurn {coin : TypeTag} {cap burned : A} {value supply supply' : UInt64}
      (hc : f burned = some (.coin coin value)) (hf : f cap = some (.treasuryCap coin supply))
      (hs : Balance.decreaseSupply supply value = .ok supply') :
      Reshape ctx f (.coinBurn coin cap burned)
        (update (update f burned none) cap (some (.treasuryCap coin supply')))
  | coinSplit {coin : TypeTag} {self : A} {amount value rest : UInt64}
      (hf : f self = some (.coin coin value)) (hne : self ≠ (objectNew ctx).1)
      (hs : Balance.split value amount = .ok rest) :
      Reshape ctx f (.coinSplit coin self amount)
        (update (update f self (some (.coin coin rest))) (objectNew ctx).1
          (some (.coin coin amount)))
  | otherNew {n : ℕ} {contents : List UInt8} :
      Reshape ctx f (.otherNew n contents) (update f (objectNew ctx).1 (some (.other n contents)))
  | otherSet {n : ℕ} {id : A} {contents old : List UInt8} (hf : f id = some (.other n old)) :
      Reshape ctx f (.otherSet n id contents) (update f id (some (.other n contents)))
  | otherDelete {n : ℕ} {id : A} {contents : List UInt8} (hf : f id = some (.other n contents)) :
      Reshape ctx f (.otherDelete n id) (update f id none)

namespace Layout

variable {ctx ctx' : TxContext A} {w : World A} {o o' : Objects A} {id : A}

theorem itemAt_put (hl : Layout ctx w o) (hid : o.lookup id = none ∨ ∃ v, w.free id = some v)
    (hu : Used ctx id) {h : Holder A} {i : Item A}
    (hl' : Layout ctx' (w.setFree id (some (h, i))) o') :
    itemAt o' = update (itemAt o) id (some i) := by
  rw [hl'.store_unique (hl.put hid hu h i), itemAt_insert]

theorem itemAt_set (hl : Layout ctx w o) {v : Holder A × Item A} (hf : w.free id = some v)
    {h : Holder A} {i : Item A} (hl' : Layout ctx' (w.setFree id (some (h, i))) o') :
    itemAt o' = update (itemAt o) id (some i) :=
  hl.itemAt_put (Or.inr ⟨v, hf⟩) (hl.used_free (h := v.1) (i := v.2) hf) hl'

theorem itemAt_new (hl : Layout ctx w o) {h : Holder A} {i : Item A}
    (hl' : Layout ctx' (w.setFree (BookMarket.objectNew ctx).1 (some (h, i))) o') :
    itemAt o' = update (itemAt o) (BookMarket.objectNew ctx).1 (some i) :=
  hl.objectNew.itemAt_put (Or.inl hl.lookup_objectNew) (used_objectNew ctx) hl'

theorem itemAt_take (hl : Layout ctx w o) {v : Holder A × Item A} (hf : w.free id = some v)
    (hl' : Layout ctx' (w.setFree id none) o') : itemAt o' = update (itemAt o) id none := by
  rw [hl'.store_unique (hl.take (Or.inr ⟨v, hf⟩)), itemAt_erase]

end Layout

namespace Effect

variable {w w' : World A} {ctx ctx' : TxContext A} {call : Call A} {out : Option (Obj A)}
  {o o' : Objects A}

theorem list_itemAt {m k : A} {coin : TypeTag} {ask : UInt64} {b : Bool} {i : Item A}
    (hl : Layout ctx w o) (hm : w.markets m = some coin)
    (hf : w.free k = some (.transaction b, i))
    (hl' : Layout (objectNew ctx).2
      ((w.setFree k none).setSlot m k (some ⟨(objectNew ctx).1, ask, ctx.sender, i⟩)) o') :
    itemAt o' = itemAt o := by
  have hl1 := hl.take (Or.inr ⟨_, hf⟩)
  have hku := hl.used_free hf
  have hl2 := hl1.addSlot hm (Finmap.lookup_erase k o) hku ⟨(objectNew ctx).1, ask, ctx.sender, i⟩
    (fun _ hu => hu.objectNew) (not_used_objectNew ctx) (used_objectNew ctx)
  rw [hl'.store_unique hl2, hl1.itemAt_addSlot m hku (not_used_objectNew ctx), itemAt_erase, Function.update_idem,
    ← hl.itemAt_free hf, Function.update_eq_self]

theorem delist_itemAt {m k : A} {L : Slot A} {h : Holder A} (hl : Layout ctx w o)
    (hw : w.slots (m, k) = some L)
    (hl' : Layout ctx ((w.setSlot m k none).setFree k (some (h, L.item))) o') :
    itemAt o' = itemAt o := by
  rw [(hl.removeSlot hw).itemAt_put (Or.inl (hl.lookup_item_removeSlot hw)) (hl.used_item hw) hl',
    hl.itemAt_removeSlot hw, Function.update_idem, ← hl.itemAt_slot hw, Function.update_eq_self]

theorem takeProfits_itemAt {m s : A} {coin : TypeTag} {c : Coin A} {h : Holder A}
    (hl : Layout ctx w o) (hm : w.markets m = some coin) (hp : w.profits (m, s) = some c)
    (hl' : Layout ctx ((w.setProfits m s none).setFree c.id (some (h, .coin coin c.balance))) o') :
    itemAt o' = itemAt o := by
  rw [(hl.removeProfits hp).itemAt_put (Or.inl (hl.lookup_coin_removeProfits hp)) (hl.used_coin hp)
    hl', hl.itemAt_removeProfits hp, Function.update_idem, ← hl.itemAt_profits hp hm,
    Function.update_eq_self]

/-- In a sale the paid coin becomes the seller's coin, or is merged into it. -/
theorem buy_itemAt {m k paid : A} {coin : TypeTag} {L : Slot A} {b : Bool} {c : Coin A}
    {h : Holder A} (hl : Layout ctx w o) (hm : w.markets m = some coin)
    (hf : w.free paid = some (.transaction b, .coin coin L.ask))
    (hw : w.slots (m, k) = some L) (hc : Credited ⟨paid, L.ask⟩ (w.profits (m, L.seller)) c)
    (hl' : Layout ctx ((((w.setFree paid none).setSlot m k none).setProfits m L.seller
      (some c)).setFree k (some (h, L.item))) o') :
    itemAt o' = itemAt o ∨ ∃ old, w.profits (m, L.seller) = some old ∧ old.id ≠ paid ∧
      c.balance.toNat = old.balance.toNat + L.ask.toNat ∧
      itemAt o' = update (update (itemAt o) paid none) old.id (some (.coin coin c.balance)) := by
  have hkp : k ≠ paid := (hl.free_ne_item hf hw).symm
  have hl1 := hl.take (Or.inr ⟨_, hf⟩)
  have hw1 : (w.setFree paid none).slots (m, k) = some L := hw
  have hl2 := hl1.removeSlot hw1
  have hi2 := hl1.itemAt_removeSlot hw1
  rw [itemAt_erase] at hi2
  have hk2 := hl1.lookup_item_removeSlot hw1
  have hp2 : (removeItem (removeListing (o.erase paid) m k L) k L).lookup paid = none := by
    cases ho : (removeItem (removeListing (o.erase paid) m k L) k L).lookup paid with
    | none => rfl
    | some x =>
      have := ((hl1.lookup_removeSlot hw1).1 ho).1
      rw [Finmap.lookup_erase] at this
      cases this
  generalize removeItem (removeListing (o.erase paid) m k L) k L = o2 at hl2 hi2 hk2 hp2
  have hku := hl.used_item hw
  have hpu := hl.used_free hf
  cases hp : w.profits (m, L.seller) with
  | none =>
    rw [hp] at hc
    cases hc
    have hl3 := hl2.attach hm hp ⟨paid, L.ask⟩ hp2 hpu
    have hk3 : (attachObjects o2 coin m L.seller ⟨paid, L.ask⟩).lookup k = none := by
      rw [attachObjects, Finmap.lookup_insert_of_ne _ hkp, Finmap.lookup_insert_of_ne _ hku.ne_hash,
        hk2]
    left
    rw [hl3.itemAt_put (Or.inl hk3) hku hl', hl2.itemAt_attach, hi2, Function.update_comm hkp,
      Function.update_idem, Function.update_idem, ← hl.itemAt_free hf, Function.update_eq_self,
      ← hl.itemAt_slot hw, Function.update_eq_self]
  | some old =>
    rw [hp] at hc
    obtain ⟨hid, hval⟩ := hc
    have hko : k ≠ old.id := (hl.coin_ne_item hp hw).symm
    have hop : old.id ≠ paid := by
      intro h
      have := hl.coin_ne_free hp
      rw [h, hf] at this
      cases this
    have hc' : c = ⟨old.id, c.balance⟩ := by rw [← hid]
    rw [hc'] at hl'
    have hl3 := hl2.credit hm hp c.balance
    have hk3 : (o2.insert old.id ⟨.objectOwner (hashTypeAndKey m (.address L.seller)),
        .item (.coin coin c.balance)⟩).lookup k = none := by
      rw [Finmap.lookup_insert_of_ne _ hko, hk2]
    right
    refine ⟨old, rfl, hop, hval, ?_⟩
    have hk : (update (update (itemAt o) paid none) old.id (some (.coin coin c.balance))) k =
        some L.item := by
      rw [Function.update_of_ne hko, Function.update_of_ne hkp, hl.itemAt_slot hw]
    rw [hl3.itemAt_put (Or.inl hk3) hku hl', itemAt_insert, hi2, Function.update_comm hko,
      Function.update_idem, ← hk, Function.update_eq_self]

/-- **What a call does to the items that exist.** -/
theorem reshape (h : Effect w ctx call out w' ctx') (hl : Layout ctx w o)
    (hl' : Layout ctx' w' o') : Reshape ctx (itemAt o) call (itemAt o') := by
  have hnew {id : A} {v : Holder A × Item A} (hf : w.free id = some v) :
      id ≠ (objectNew ctx).1 := by
    rintro rfl
    exact not_used_objectNew ctx (hl.used_free (h := v.1) (i := v.2) hf)
  cases h with
  | create hop =>
    have hl1 := hl.objectNew.newMarket hl.lookup_objectNew (used_objectNew ctx) ‹_›
    rw [hl'.store_unique hl1, itemAt_insert_same (fun _ => by simp)
      (itemAt_none hl.lookup_objectNew)]
    exact .same (Or.inl (by rw [hop]; simp))
  | list hop hm hf ht =>
    rw [list_itemAt hl hm hf hl']
    exact .same (Or.inl (by rw [hop]; simp))
  | delist hop hm hw hs ht =>
    rw [delist_itemAt hl hw hl']
    exact .same (Or.inl (by rw [hop]; simp))
  | @buy _ t coin m k paid L b c hop hm hf hw ht hc =>
    have hmoves : call.moves := Or.inl (by rw [hop]; simp)
    rcases buy_itemAt hl hm hf hw hc hl' with h | ⟨old, hp, hne, hval, h⟩
    · rw [h]
      exact .same hmoves
    · rw [h]
      exact .merge hmoves (hl.itemAt_profits hp hm) (hl.itemAt_free hf) hne hval
  | takeProfits hop hm hp =>
    rw [takeProfits_itemAt hl hm hp hl']
    exact .same (Or.inl (by rw [hop]; simp))
  | mintToSender hn =>
    rw [hl.itemAt_new hl']
    exact .mintToSender hn
  | move hcall hf =>
    rw [hl.itemAt_set hf hl', ← hl.itemAt_free hf, Function.update_eq_self]
    refine .same ?_
    rcases hcall with rfl | rfl
    · exact Or.inr (Or.inl ⟨_, _, rfl⟩)
    · exact Or.inr (Or.inr (Or.inl ⟨_, _, rfl⟩))
  | updateDescription hf hn =>
    rw [hl.itemAt_set hf hl']
    exact .updateDescription (hl.itemAt_free hf) hn
  | burn hf =>
    rw [hl.itemAt_take hf hl']
    exact .burn (hl.itemAt_free hf)
  | createCurrency =>
    rw [hl.itemAt_new hl']
    exact .createCurrency
  | @coinMint coin cap value supply supply' b hf hs =>
    have hl1 := hl.put (Or.inr ⟨_, hf⟩) (hl.used_free hf) (.transaction b)
      (.treasuryCap coin supply')
    rw [hl1.itemAt_new hl', itemAt_insert]
    exact .coinMint (hl.itemAt_free hf) (hnew hf) hs
  | @coinBurn coin cap burned value supply supply' b b' hc hf hs =>
    have hne : cap ≠ burned := by
      rintro rfl
      rw [hf] at hc
      cases hc
    have hl1 := hl.take (Or.inr ⟨_, hc⟩)
    have hf1 : (w.setFree burned none).free cap = some (.transaction b, .treasuryCap coin supply) :=
      (Function.update_of_ne hne _ _).trans hf
    rw [hl1.itemAt_set hf1 hl', itemAt_erase]
    exact .coinBurn (hl.itemAt_free hc) (hl.itemAt_free hf) hs
  | @coinSplit coin self amount value rest b hf hs =>
    have hl1 := hl.put (Or.inr ⟨_, hf⟩) (hl.used_free hf) (.transaction b) (.coin coin rest)
    rw [hl1.itemAt_new hl', itemAt_insert]
    exact .coinSplit (hl.itemAt_free hf) (hnew hf) hs
  | @coinJoin coin self joined value added sum b b' hc hf hne hs =>
    have hl1 := hl.take (Or.inr ⟨_, hc⟩)
    have hf1 : (w.setFree joined none).free self = some (.transaction b, .coin coin value) :=
      (Function.update_of_ne hne _ _).trans hf
    rw [hl1.itemAt_set hf1 hl', itemAt_erase]
    exact .merge (Or.inr (Or.inr (Or.inr ⟨_, _, _, rfl⟩))) (hl.itemAt_free hf) (hl.itemAt_free hc)
      hne (Balance.join_eq_ok hs)
  | otherNew =>
    rw [hl.itemAt_new hl']
    exact .otherNew
  | otherSet hf =>
    rw [hl.itemAt_set hf hl']
    exact .otherSet (hl.itemAt_free hf)
  | otherDelete hf =>
    rw [hl.itemAt_take hf hl']
    exact .otherDelete (hl.itemAt_free hf)

end Effect

/-! ## Reachable chains -/

/-- Starting or finishing a transaction creates and destroys nothing. -/
theorem SameGoods.itemAt {w w' : World A} {ctx ctx' : TxContext A} {o o' : Objects A}
    (hs : SameGoods w w') (hl : Layout ctx w o) (hl' : Layout ctx' w' o') :
    BookMarket.itemAt o' = BookMarket.itemAt o := by
  funext id
  have hfree := hs.items id
  refine Option.ext fun i => ⟨fun h => ?_, fun h => ?_⟩
  · rcases hl'.itemAt_cases h with ⟨holder, hf⟩ | ⟨m, L, hw, rfl⟩ | ⟨m, s, coin, c, hp, hm, rfl, rfl⟩
    · rw [hf, Option.map_some, eq_comm, Option.map_eq_some_iff] at hfree
      obtain ⟨⟨holder', i'⟩, hf', rfl⟩ := hfree
      exact hl.itemAt_free hf'
    · exact hl.itemAt_slot (hs.slots ▸ hw)
    · exact hl.itemAt_profits (hs.profits ▸ hp) (hs.markets ▸ hm)
  · rcases hl.itemAt_cases h with ⟨holder, hf⟩ | ⟨m, L, hw, rfl⟩ | ⟨m, s, coin, c, hp, hm, rfl, rfl⟩
    · rw [hf, Option.map_some, Option.map_eq_some_iff] at hfree
      obtain ⟨⟨holder', i'⟩, hf', rfl⟩ := hfree
      exact hl'.itemAt_free hf'
    · exact hl'.itemAt_slot (by rw [hs.slots]; exact hw)
    · exact hl'.itemAt_profits (by rw [hs.profits]; exact hp) (by rw [hs.markets]; exact hm)

namespace History

variable {h : List (Entry A)} {c c' : Chain A}

/-- What a call of a reachable chain does to the items that exist. -/
theorem reshape (hc : History h c) {call : Call A} {out : Option (Obj A)}
    (he : BookMarket.exec c call = .ok (c', out)) :
    Reshape c.ctx (itemAt c.objects) call (itemAt c'.objects) := by
  obtain ⟨⟨w', ctx', out'⟩, hw, hin⟩ := (hc.exec_sim call).exists_of_ok he
  exact (exec_effect hw).reshape hc.layout hin.layout

/-- The invariant rule for statements about the items that exist. -/
theorem contentsRule {I : List (Entry A) → Objects A → Prop} (h0 : I [] ∅)
    (hsame : ∀ {h o o'}, I h o → itemAt o' = itemAt o → I h o')
    (hcall : ∀ {h call out} {c c' : Chain A}, History h c → I h c.objects →
      BookMarket.exec c call = .ok (c', out) → I (h ++ [⟨c.ctx.sender, call, out⟩]) c'.objects)
    (hc : History h c) : I h c.objects := by
  obtain ⟨es, hrun, rfl⟩ := hc
  refine hrun.historyInvariant (I := fun es c => I (calls es) c.objects) ?_ ?_
  · exact h0
  intro es c e c' hrun hi hs
  have hl := Run.layout hrun
  obtain ⟨w', hl', hw⟩ := hs.layout hl
  cases hs with
  | start _ _ =>
    simp only [calls, List.filterMap_append, List.filterMap_cons, List.filterMap_nil,
      List.append_nil]
    exact hsame hi (hw.1.itemAt hl hl')
  | call hr he =>
    simp only [calls, List.filterMap_append, List.filterMap_cons, List.filterMap_nil]
    have hc : History (calls es) c := ⟨es, hrun, rfl⟩
    exact hcall hc hi he
  | finish _ _ =>
    simp only [calls, List.filterMap_append, List.filterMap_cons, List.filterMap_nil,
      List.append_nil]
    exact hsame hi (hw.1.itemAt hl hl')

end History

end BookMarket
