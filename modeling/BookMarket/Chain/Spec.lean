import BookMarket.Lib.Simulation
import BookMarket.Chain.LayoutSteps
import BookMarket.Chain.World

/-!
# What the marketplace functions compute on a store that is laid out

One equation for each function of the module, in terms of the world the store
is laid out as.  They say everything: when the call goes through and what store
it leaves, and which check stops it otherwise.

* `list_eq` — listing an item that is in nobody's custody always goes through.
* `delist_eq` — present, owner, type, in this order.
* `buy_eq` — present, amount, credit, type, in this order.
* `takeProfits_eq` — present.
-/

namespace BookMarket

variable {A : Type} [DecidableEq A] [AddressSpace A]
variable {ctx : TxContext A} {w : World A} {o : Objects A}

namespace Layout

/-! ## `list` -/

theorem list_eq (hl : Layout ctx w o) {m k : A} (hk : o.lookup k = none) (hku : Used ctx k)
    (i : Item A) (ask : UInt64) :
    Marketplace.list o ctx m ⟨k, .item i⟩ ask =
      .ok (addSlotObjects o m k ⟨(objectNew ctx).1, ask, ctx.sender, i⟩, (objectNew ctx).2) := by
  have hu' : Used (objectNew ctx).2 (objectNew ctx).1 := used_objectNew ctx
  have hne : k ≠ (objectNew ctx).1 := by
    rintro rfl
    exact not_used_objectNew ctx hku
  have hnames : hashTypeAndKey m (.id k) ≠ hashTypeAndKey (objectNew ctx).1 (.bool true) := by
    intro h
    cases (AddressSpace.hashTypeAndKey_inj h).2
  have hadd1 := DynamicObjectField.add_eq (o := o) (p := (objectNew ctx).1) (n := .bool true)
    (hl.lookup_inner_unused (not_used_objectNew ctx) true)
    (show o.lookup (Obj.mk k (.item i)).id = none from hk) hku.ne_hash
  have hfield := hl.lookup_slot_none (hl.slots_none_of_lookup hk m)
  simp only [Marketplace.list, hadd1, ok_bind]
  rw [DynamicObjectField.add_eq]
  · rfl
  · rw [Finmap.lookup_insert_of_ne _ hku.ne_hash.symm, Finmap.lookup_insert_of_ne _ hnames, hfield]
  · rw [Finmap.lookup_insert_of_ne _ hne.symm, Finmap.lookup_insert_of_ne _ hu'.ne_hash,
      hl.lookup_objectNew]
  · exact hu'.ne_hash

/-! ## The two removals of `delist` and `buy` -/

theorem remove_listing_none (hl : Layout ctx w o) {m k : A} (hw : w.slots (m, k) = none) :
    DynamicObjectField.remove .listing o m (.id k) = .error .eFieldDoesNotExist :=
  DynamicObjectField.remove_none _ (hl.lookup_slot_none hw)

theorem remove_listing_eq (hl : Layout ctx w o) {m k : A} {L : Slot A}
    (hw : w.slots (m, k) = some L) :
    DynamicObjectField.remove .listing o m (.id k) =
      .ok (⟨L.uid, .listing L.ask L.seller⟩, removeListing o m k L) := by
  rw [DynamicObjectField.remove_eq .listing (hl.lookup_piece hw .field)
    (hl.lookup_piece hw .listing) (hl.used_uid hw).ne_hash]
  rfl

theorem remove_item_eq (t : TypeTag) {o : Objects A} {k : A} {L : Slot A} (hku : Used ctx k)
    (hinner : o.lookup (hashTypeAndKey L.uid (.bool true))
      = some ⟨.objectOwner L.uid, .field (.bool true) k⟩)
    (hitem : o.lookup k = some ⟨.objectOwner (hashTypeAndKey L.uid (.bool true)), .item L.item⟩) :
    DynamicObjectField.remove t o L.uid (.bool true) =
      if L.item.type = t then .ok (⟨k, .item L.item⟩, removeItem o k L)
      else .error .eFieldTypeMismatch := by
  rw [DynamicObjectField.remove_eq t hinner hitem hku.ne_hash]
  rfl

theorem lookup_removeListing_of_ne {m k id : A} {L : Slot A} (h1 : id ≠ L.uid)
    (h2 : id ≠ hashTypeAndKey m (.id k)) : (removeListing o m k L).lookup id = o.lookup id := by
  rw [removeListing, Finmap.lookup_erase_ne h2, Finmap.lookup_erase_ne h1]

theorem delist_eq (hl : Layout ctx w o) (t : TypeTag) (m k : A) :
    Marketplace.delist t o ctx m k =
      match w.slots (m, k) with
      | none => .error .eFieldDoesNotExist
      | some L =>
        if ctx.sender ≠ L.seller then .error .eNotOwner
        else if L.item.type ≠ t then .error .eFieldTypeMismatch
        else .ok (⟨k, .item L.item⟩, removeItem (removeListing o m k L) k L) := by
  cases hw : w.slots (m, k) with
  | none => simp [Marketplace.delist, hl.remove_listing_none hw]
  | some L =>
    obtain ⟨h1, -, h3, h4, -, h6⟩ := hl.slot_ids hw
    have hitem := remove_item_eq (o := removeListing o m k L) t (hl.used_item hw)
      ((lookup_removeListing_of_ne h3.symm h6).trans (hl.lookup_piece hw .inner))
      ((lookup_removeListing_of_ne h1 h4).trans (hl.lookup_piece hw .item))
    by_cases hs : ctx.sender = L.seller
    · by_cases ht : L.item.type = t
      · simp [Marketplace.delist, hl.remove_listing_eq hw, hs, hitem, ht]
      · simp [Marketplace.delist, hl.remove_listing_eq hw, hs, hitem, ht]
    · simp [Marketplace.delist, hl.remove_listing_eq hw, hs]

/-! ## Crediting the seller -/

end Layout

/-- The store after crediting a seller who has the coin `old`, or none. -/
def creditObjects (o : Objects A) (coin : TypeTag) (m s : A) (old : Option (Coin A))
    (paid : Coin A) : Except Abort (Objects A) :=
  match old with
  | none => .ok (attachObjects o coin m s paid)
  | some c => do
    let b ← Balance.join c.balance paid.balance
    return o.insert c.id ⟨.objectOwner (hashTypeAndKey m (.address s)), .item (.coin coin b)⟩

namespace Layout

theorem creditSeller_eq (hl : Layout ctx w o) {coin : TypeTag} {m k : A} {L : Slot A}
    (hm : w.markets m = some coin) (hw : w.slots (m, k) = some L) (s : A) {paid : Coin A}
    (hpaid : o.lookup paid.id = none) (hu : Used ctx paid.id) :
    Marketplace.creditSeller coin (removeListing o m k L) m s paid =
      creditObjects (removeListing o m k L) coin m s (w.profits (m, s)) paid := by
  have hname : hashTypeAndKey m (.address s) ≠ hashTypeAndKey m (.id k) := by
    intro h
    cases (AddressSpace.hashTypeAndKey_inj h).2
  have hfield : (removeListing o m k L).lookup (hashTypeAndKey m (.address s))
      = o.lookup (hashTypeAndKey m (.address s)) :=
    lookup_removeListing_of_ne (hl.used_uid hw).ne_hash.symm hname
  cases hp : w.profits (m, s) with
  | none =>
    have hnone := hfield.trans (hl.lookup_profits_none hp)
    have hne : paid.id ≠ L.uid := by
      intro h
      rw [h, hl.lookup_piece hw .listing] at hpaid
      cases hpaid
    have hcoin : (removeListing o m k L).lookup (paid.toObj coin).id = none :=
      (lookup_removeListing_of_ne hne hu.ne_hash).trans hpaid
    simp only [Marketplace.creditSeller, DynamicObjectField.exists_eq_false hnone, ok_bind,
      Bool.false_eq_true, if_false, creditObjects]
    exact DynamicObjectField.add_eq hnone hcoin hu.ne_hash
  | some c =>
    have hsome := hfield.trans (hl.lookup_profitsPiece hp hm .field)
    have hne : c.id ≠ L.uid := by
      intro h
      have h1 := hl.lookup_profitsPiece hp hm .coin
      rw [h, hl.lookup_piece hw .listing] at h1
      simp at h1
    have hcoin : (removeListing o m k L).lookup c.id
        = some ⟨.objectOwner (hashTypeAndKey m (.address s)), .item (.coin coin c.balance)⟩ :=
      (lookup_removeListing_of_ne hne (hl.used_coin hp).ne_hash).trans
        (hl.lookup_profitsPiece hp hm .coin)
    have href := DynamicObjectField.borrowMut_eq hsome hcoin
    simp only [Data.type_item, Item.type_coin] at href
    simp only [Marketplace.creditSeller, DynamicObjectField.exists_eq_true hsome, ok_bind, if_true,
      href, creditObjects, Coin.join]
    cases Balance.join c.balance paid.balance with
    | error e => rfl
    | ok b => simp [writeRef, hcoin, Coin.toObj]

/-- Crediting a seller and taking out an item touch different objects. -/
theorem creditObjects_removeItem (hl : Layout ctx w o) {coin : TypeTag} {m k : A} {L : Slot A}
    (hw : w.slots (m, k) = some L) (s : A) {paid : Coin A} (hpaid : o.lookup paid.id = none)
    (hu : Used ctx paid.id) (o' : Objects A) :
    creditObjects (removeItem o' k L) coin m s (w.profits (m, s)) paid =
      (creditObjects o' coin m s (w.profits (m, s)) paid).map fun o => removeItem o k L := by
  have hku := hl.used_item hw
  have hname : hashTypeAndKey L.uid (.bool true) ≠ hashTypeAndKey m (.address s) := by
    intro h
    cases (AddressSpace.hashTypeAndKey_inj h).2
  cases hp : w.profits (m, s) with
  | none =>
    have hne : k ≠ paid.id := by
      rintro rfl
      rw [hl.lookup_piece hw .item] at hpaid
      cases hpaid
    simp only [creditObjects, Except.map, attachObjects, removeItem]
    rw [Finmap.erase_insert_of_ne hne, Finmap.erase_insert_of_ne hku.ne_hash,
      Finmap.erase_insert_of_ne hu.ne_hash.symm, Finmap.erase_insert_of_ne hname]
  | some c =>
    have hne : k ≠ c.id := (hl.coin_ne_item hp hw).symm
    simp only [creditObjects, removeItem]
    cases Balance.join c.balance paid.balance with
    | error e => rfl
    | ok b =>
      simp only [ok_bind, pure_eq_ok, Except.map]
      rw [Finmap.erase_insert_of_ne hne, Finmap.erase_insert_of_ne (hl.used_coin hp).ne_hash.symm]

/-- Nor does crediting a seller touch any object that was there, but the coin of
this seller. -/
theorem lookup_creditObjects (hl : Layout ctx w o) {coin : TypeTag} {m k s : A} {L : Slot A}
    {paid : Coin A} (hpaid : o.lookup paid.id = none) {o' : Objects A}
    (hcr : creditObjects (removeListing o m k L) coin m s (w.profits (m, s)) paid = .ok o')
    {id : A} {x : Stored A} (hx : o.lookup id = some x) (huid : id ≠ L.uid)
    (hfield : id ≠ hashTypeAndKey m (.id k))
    (hcoin : ∀ c, w.profits (m, s) = some c → id ≠ c.id) : o'.lookup id = some x := by
  have hx' := (lookup_removeListing_of_ne huid hfield).trans hx
  cases hp : w.profits (m, s) with
  | none =>
    rw [hp] at hcr
    cases hcr
    rw [attachObjects, Finmap.lookup_insert_of_ne, Finmap.lookup_insert_of_ne, hx']
    · rintro rfl
      rw [hl.lookup_profits_none hp] at hx
      cases hx
    · rintro rfl
      rw [hpaid] at hx
      cases hx
  | some c =>
    rw [hp] at hcr
    simp only [creditObjects] at hcr
    obtain ⟨b, -, hb⟩ := bind_eq_ok.1 hcr
    cases hb
    rw [Finmap.lookup_insert_of_ne _ (hcoin c hp), hx']

/-! ## `buy` -/

theorem buy_eq (hl : Layout ctx w o) (t : TypeTag) {coin : TypeTag} {m : A}
    (hm : w.markets m = some coin) (k : A) {paid : Coin A} (hpaid : o.lookup paid.id = none)
    (hu : Used ctx paid.id) :
    Marketplace.buy t coin o m k paid =
      match w.slots (m, k) with
      | none => .error .eFieldDoesNotExist
      | some L =>
        if L.ask ≠ paid.balance then .error .eAmountIncorrect
        else do
          let o' ← creditObjects (removeItem (removeListing o m k L) k L) coin m L.seller
            (w.profits (m, L.seller)) paid
          if L.item.type ≠ t then throw .eFieldTypeMismatch
          return (⟨k, .item L.item⟩, o') := by
  cases hw : w.slots (m, k) with
  | none => simp [Marketplace.buy, hl.remove_listing_none hw]
  | some L =>
    by_cases hask : L.ask = paid.balance
    · simp only [Marketplace.buy, hl.remove_listing_eq hw, ok_bind, hask, ne_eq, not_true_eq_false,
        if_false, hl.creditSeller_eq hm hw L.seller hpaid hu,
        hl.creditObjects_removeItem hw L.seller hpaid hu]
      cases hcr : creditObjects (removeListing o m k L) coin m L.seller (w.profits (m, L.seller))
        paid with
      | error e => rfl
      | ok o' =>
        obtain ⟨h1, -, h3, h4, -, h6⟩ := hl.slot_ids hw
        have hinner := hl.lookup_creditObjects hpaid hcr (hl.lookup_piece hw .inner) h3.symm h6
          fun c hp => (hl.used_coin hp).ne_hash.symm
        have hitem := hl.lookup_creditObjects hpaid hcr (hl.lookup_piece hw .item) h1 h4
          fun c hp => (hl.coin_ne_item hp hw).symm
        simp only [ok_bind, remove_item_eq t (hl.used_item hw) hinner hitem, Except.map]
        by_cases ht : L.item.type = t
        · simp [ht]
        · simp [ht]
    · simp [Marketplace.buy, hl.remove_listing_eq hw, hask]

/-! ## `take_profits` -/

theorem takeProfits_eq (hl : Layout ctx w o) {coin : TypeTag} {m : A}
    (hm : w.markets m = some coin) :
    Marketplace.takeProfits coin o ctx m =
      match w.profits (m, ctx.sender) with
      | none => .error .eFieldDoesNotExist
      | some c => .ok (c.toObj coin, removeProfitsObjects o m ctx.sender c) := by
  cases hp : w.profits (m, ctx.sender) with
  | none => exact DynamicObjectField.remove_none _ (hl.lookup_profits_none hp)
  | some c =>
    rw [Marketplace.takeProfits, DynamicObjectField.remove_eq _
      (hl.lookup_profitsPiece hp hm .field) (hl.lookup_profitsPiece hp hm .coin)
      (hl.used_coin hp).ne_hash]
    simp [Coin.toObj, removeProfitsObjects]

end Layout

end BookMarket
