import Mathlib.Logic.Function.Basic
import Mathlib.Tactic.SplitIfs
import BookMarket.Lib.FinmapTotal
import BookMarket.Chain.Transaction

/-!
# How a marketplace lies in the object store

Five stored objects make a listing: the shared `Marketplace`, a `Field` under
it, the `Listing`, a `Field` under that, and the item.  `World` says what is
there without the `Field`s and the owners: which objects are free (held by an
address or by the running transaction), which marketplaces exist, which items
are listed where, and which coin hangs under which seller.  `Layout` says that
a store is laid out as a world: its objects are the pieces of the world,
nothing more and nothing less, and every identifier that is not a hash has been
handed out before.

* `Piece` — the objects a world is stored as.
* `Layout.lookup_piece`, `Layout.lookup_profitsPiece`, … — what a lookup finds, read
  off the world.
* `Layout.put`, `Layout.take`, `Layout.newMarket` — free objects come, go and
  change hands, and marketplaces appear; each leads from one world to another.
-/

namespace BookMarket

open Function (update)

/-! ## Worlds -/

/-- A listed item: the identifier of its `Listing`, the ask, the seller and the
item itself. -/
structure Slot (A : Type) where
  uid : A
  ask : UInt64
  seller : A
  item : Item A
  deriving DecidableEq

/-- What there is, without the representation. -/
structure World (A : Type) where
  /-- Objects held by an address or by the running transaction. -/
  free : A → Option (Holder A × Item A)
  /-- Marketplaces, with their currency. -/
  markets : A → Option TypeTag
  /-- The listing of an item in a marketplace. -/
  slots : A × A → Option (Slot A)
  /-- The coin hanging under a seller in a marketplace. -/
  profits : A × A → Option (Coin A)

namespace World

variable {A : Type} [DecidableEq A]

def empty : World A := ⟨fun _ => none, fun _ => none, fun _ => none, fun _ => none⟩

def setFree (w : World A) (id : A) (v : Option (Holder A × Item A)) : World A :=
  { w with free := update w.free id v }

def setMarket (w : World A) (id : A) (coin : TypeTag) : World A :=
  { w with markets := update w.markets id (some coin) }

def setSlot (w : World A) (m k : A) (v : Option (Slot A)) : World A :=
  { w with slots := update w.slots (m, k) v }

def setProfits (w : World A) (m s : A) (v : Option (Coin A)) : World A :=
  { w with profits := update w.profits (m, s) v }

section ReadAfterWrite

variable (w : World A) (id m k s : A) (v : Option (Holder A × Item A)) (L : Option (Slot A))
  (c : Option (Coin A))

@[simp] theorem free_setSlot : (w.setSlot m k L).free = w.free := rfl

@[simp] theorem free_setProfits : (w.setProfits m s c).free = w.free := rfl

@[simp] theorem slots_setFree : (w.setFree id v).slots = w.slots := rfl

@[simp] theorem slots_setProfits : (w.setProfits m s c).slots = w.slots := rfl

@[simp] theorem profits_setFree : (w.setFree id v).profits = w.profits := rfl

@[simp] theorem profits_setSlot : (w.setSlot m k L).profits = w.profits := rfl

@[simp] theorem free_setFree_self : (w.setFree id v).free id = v := Function.update_self _ _ _

@[simp] theorem slots_setSlot_self : (w.setSlot m k L).slots (m, k) = L := Function.update_self _ _ _

@[simp] theorem profits_setProfits_self : (w.setProfits m s c).profits (m, s) = c :=
  Function.update_self _ _ _

variable {w id m k s v L c}

theorem free_setFree_of_ne {a : A} (h : a ≠ id) : (w.setFree id v).free a = w.free a :=
  Function.update_of_ne h _ _

theorem slots_setSlot_of_ne {p : A × A} (h : p ≠ (m, k)) : (w.setSlot m k L).slots p = w.slots p :=
  Function.update_of_ne h _ _

theorem profits_setProfits_of_ne {p : A × A} (h : p ≠ (m, s)) :
    (w.setProfits m s c).profits p = w.profits p :=
  Function.update_of_ne h _ _

end ReadAfterWrite

end World

variable {A : Type} [DecidableEq A] [AddressSpace A]

/-- The four objects of a listing. -/
inductive SlotPiece (m k : A) (L : Slot A) : A → Stored A → Prop
  | field : SlotPiece m k L (hashTypeAndKey m (.id k)) ⟨.objectOwner m, .field (.id k) L.uid⟩
  | listing :
      SlotPiece m k L L.uid ⟨.objectOwner (hashTypeAndKey m (.id k)), .listing L.ask L.seller⟩
  | inner : SlotPiece m k L (hashTypeAndKey L.uid (.bool true))
      ⟨.objectOwner L.uid, .field (.bool true) k⟩
  | item : SlotPiece m k L k ⟨.objectOwner (hashTypeAndKey L.uid (.bool true)), .item L.item⟩

/-- The two objects of a seller's proceeds. -/
inductive ProfitsPiece (coin : TypeTag) (m s : A) (c : Coin A) : A → Stored A → Prop
  | field : ProfitsPiece coin m s c (hashTypeAndKey m (.address s))
      ⟨.objectOwner m, .field (.address s) c.id⟩
  | coin : ProfitsPiece coin m s c c.id
      ⟨.objectOwner (hashTypeAndKey m (.address s)), .item (.coin coin c.balance)⟩

/-- The objects a world is stored as. -/
inductive Piece (w : World A) (id : A) (x : Stored A) : Prop
  | free {h : Holder A} {i : Item A} (hw : w.free id = some (h, i))
      (hx : x = ⟨h.toOwner, .item i⟩)
  | market {coin : TypeTag} (hw : w.markets id = some coin) (hx : x = ⟨.shared, .marketplace coin⟩)
  | slot {m k : A} {L : Slot A} (hw : w.slots (m, k) = some L) (hx : SlotPiece m k L id x)
  | profits {m s : A} {coin : TypeTag} {c : Coin A} (hw : w.profits (m, s) = some c)
      (hm : w.markets m = some coin) (hx : ProfitsPiece coin m s c id x)

/-- The store `o` holds the pieces of the world `w`. -/
structure Layout (ctx : TxContext A) (w : World A) (o : Objects A) : Prop where
  lookup_iff : ∀ {id x}, o.lookup id = some x ↔ Piece w id x
  market_of_slot : ∀ {m k L}, w.slots (m, k) = some L → ∃ coin, w.markets m = some coin
  market_of_profits : ∀ {m s c}, w.profits (m, s) = some c → ∃ coin, w.markets m = some coin
  used : ∀ {id x}, o.lookup id = some x → (∃ n v, x.data = .field n v) ∨ Used ctx id

theorem layout_empty (ctx : TxContext A) : Layout ctx World.empty ∅ where
  lookup_iff := by
    intro id x
    constructor
    · intro h; cases h
    · rintro (hw | hw | hw | hw) <;> cases hw
  market_of_slot := by intro m k L h; cases h
  market_of_profits := by intro m s c h; cases h
  used := by intro id x h; cases h

/-! ## What a lookup finds -/

namespace Layout

variable {ctx : TxContext A} {w : World A} {o : Objects A}

theorem lookup_free (hl : Layout ctx w o) {id : A} {h : Holder A} {i : Item A}
    (hw : w.free id = some (h, i)) : o.lookup id = some ⟨h.toOwner, .item i⟩ :=
  hl.lookup_iff.2 (.free hw rfl)

theorem lookup_market (hl : Layout ctx w o) {m : A} {coin : TypeTag}
    (hw : w.markets m = some coin) : o.lookup m = some ⟨.shared, .marketplace coin⟩ :=
  hl.lookup_iff.2 (.market hw rfl)

theorem lookup_piece (hl : Layout ctx w o) {m k id : A} {L : Slot A} {x : Stored A}
    (hw : w.slots (m, k) = some L) (hx : SlotPiece m k L id x) : o.lookup id = some x :=
  hl.lookup_iff.2 (.slot hw hx)

theorem lookup_profitsPiece (hl : Layout ctx w o) {m s id : A} {c : Coin A} {coin : TypeTag}
    {x : Stored A} (hw : w.profits (m, s) = some c) (hm : w.markets m = some coin)
    (hx : ProfitsPiece coin m s c id x) : o.lookup id = some x :=
  hl.lookup_iff.2 (.profits hw hm hx)

/-- An object held by an address or by the transaction is a free item. -/
theorem free_of_lookup (hl : Layout ctx w o) {id : A} {h : Holder A} {d : Data A}
    (ho : o.lookup id = some ⟨h.toOwner, d⟩) : ∃ i, d = .item i ∧ w.free id = some (h, i) := by
  rcases hl.lookup_iff.1 ho with ⟨hw, hx⟩ | ⟨hw, hx⟩ | ⟨hw, hx⟩ | ⟨hw, hm, hx⟩
  · next i =>
    injection hx with h1 h2
    rw [Holder.toOwner_inj h1]
    exact ⟨i, h2, hw⟩
  · injection hx with h1 h2
    exact absurd h1 (Holder.toOwner_ne_shared h)
  · generalize hy : (⟨h.toOwner, d⟩ : Stored A) = y at hx
    cases hx <;> (injection hy with h1 h2; exact absurd h1 (Holder.toOwner_ne_objectOwner h _))
  · generalize hy : (⟨h.toOwner, d⟩ : Stored A) = y at hx
    cases hx <;> (injection hy with h1 h2; exact absurd h1 (Holder.toOwner_ne_objectOwner h _))

/-- A shared object is a marketplace. -/
theorem market_of_lookup (hl : Layout ctx w o) {m : A} {d : Data A}
    (ho : o.lookup m = some ⟨.shared, d⟩) :
    ∃ coin, d = .marketplace coin ∧ w.markets m = some coin := by
  rcases hl.lookup_iff.1 ho with ⟨hw, hx⟩ | ⟨hw, hx⟩ | ⟨hw, hx⟩ | ⟨hw, hm, hx⟩
  · next h i =>
    injection hx with h1 h2
    exact absurd h1.symm (Holder.toOwner_ne_shared h)
  · next coin =>
    injection hx with h1 h2
    exact ⟨coin, h2, hw⟩
  · cases hx
  · cases hx

/-- An identifier that is a hash belongs to a `Field`. -/
theorem piece_of_hash (hl : Layout ctx w o) {p : A} {n : Name A} {x : Stored A}
    (ho : o.lookup (hashTypeAndKey p n) = some x) :
    (∃ k L, n = .id k ∧ w.slots (p, k) = some L ∧ x = ⟨.objectOwner p, .field (.id k) L.uid⟩) ∨
    (∃ m k L, n = .bool true ∧ w.slots (m, k) = some L ∧ p = L.uid ∧
      x = ⟨.objectOwner p, .field (.bool true) k⟩) ∨
    (∃ s c, n = .address s ∧ w.profits (p, s) = some c ∧
      x = ⟨.objectOwner p, .field (.address s) c.id⟩) := by
  have hfield : ∃ n v, x.data = .field n v := by
    rcases hl.used ho with h | h
    · exact h
    · exact absurd rfl h.ne_hash
  obtain ⟨n', v', hd⟩ := hfield
  rcases hl.lookup_iff.1 ho with ⟨hw, rfl⟩ | ⟨hw, rfl⟩ | ⟨hw, hx⟩ | ⟨hw, hm, hx⟩
  · cases hd
  · cases hd
  · generalize hid : hashTypeAndKey p n = id at hx
    cases hx with
    | field =>
      obtain ⟨rfl, rfl⟩ := AddressSpace.hashTypeAndKey_inj hid
      exact Or.inl ⟨_, _, rfl, hw, rfl⟩
    | listing => cases hd
    | inner =>
      obtain ⟨rfl, rfl⟩ := AddressSpace.hashTypeAndKey_inj hid
      exact Or.inr (Or.inl ⟨_, _, _, rfl, hw, rfl, rfl⟩)
    | item => cases hd
  · generalize hid : hashTypeAndKey p n = id at hx
    cases hx with
    | field =>
      obtain ⟨rfl, rfl⟩ := AddressSpace.hashTypeAndKey_inj hid
      exact Or.inr (Or.inr ⟨_, _, rfl, hw, rfl⟩)
    | coin => cases hd

theorem lookup_slot_none (hl : Layout ctx w o) {m k : A} (hw : w.slots (m, k) = none) :
    o.lookup (hashTypeAndKey m (.id k)) = none := by
  cases ho : o.lookup (hashTypeAndKey m (.id k)) with
  | none => rfl
  | some x =>
    rcases hl.piece_of_hash ho with ⟨k', L, hn, hs, -⟩ | ⟨_, _, _, hn, -⟩ | ⟨_, _, hn, -⟩
    · cases hn; rw [hw] at hs; cases hs
    · cases hn
    · cases hn

theorem lookup_profits_none (hl : Layout ctx w o) {m s : A} (hw : w.profits (m, s) = none) :
    o.lookup (hashTypeAndKey m (.address s)) = none := by
  cases ho : o.lookup (hashTypeAndKey m (.address s)) with
  | none => rfl
  | some x =>
    rcases hl.piece_of_hash ho with ⟨_, _, hn, -⟩ | ⟨_, _, _, hn, -⟩ | ⟨s', c, hn, hs, -⟩
    · cases hn
    · cases hn
    · cases hn; rw [hw] at hs; cases hs

/-- The objects that are not `Field`s have identifiers handed out before. -/
theorem used_free (hl : Layout ctx w o) {id : A} {h : Holder A} {i : Item A}
    (hw : w.free id = some (h, i)) : Used ctx id := by
  rcases hl.used (hl.lookup_free hw) with ⟨_, _, hd⟩ | h
  · cases hd
  · exact h

theorem used_market (hl : Layout ctx w o) {m : A} {coin : TypeTag}
    (hw : w.markets m = some coin) : Used ctx m := by
  rcases hl.used (hl.lookup_market hw) with ⟨_, _, hd⟩ | h
  · cases hd
  · exact h

theorem used_uid (hl : Layout ctx w o) {m k : A} {L : Slot A} (hw : w.slots (m, k) = some L) :
    Used ctx L.uid := by
  rcases hl.used (hl.lookup_piece hw .listing) with ⟨_, _, hd⟩ | h
  · cases hd
  · exact h

theorem used_item (hl : Layout ctx w o) {m k : A} {L : Slot A} (hw : w.slots (m, k) = some L) :
    Used ctx k := by
  rcases hl.used (hl.lookup_piece hw .item) with ⟨_, _, hd⟩ | h
  · cases hd
  · exact h

theorem used_coin (hl : Layout ctx w o) {m s : A} {c : Coin A}
    (hw : w.profits (m, s) = some c) : Used ctx c.id := by
  obtain ⟨coin, hm⟩ := hl.market_of_profits hw
  rcases hl.used (hl.lookup_profitsPiece hw hm .coin) with ⟨_, _, hd⟩ | h
  · cases hd
  · exact h

/-- An identifier that has not been handed out is nowhere in the store. -/
theorem lookup_unused (hl : Layout ctx w o) {id : A} (hu : ¬ Used ctx id)
    (hh : ∀ p n, id ≠ hashTypeAndKey p n) : o.lookup id = none := by
  cases ho : o.lookup id with
  | none => rfl
  | some x =>
    rcases hl.lookup_iff.1 ho with ⟨hw, rfl⟩ | ⟨hw, rfl⟩ | ⟨hw, hx⟩ | ⟨hw, hm, hx⟩
    · exact absurd (hl.used_free hw) hu
    · exact absurd (hl.used_market hw) hu
    · cases hx with
      | field => exact absurd rfl (hh _ _)
      | listing => exact absurd (hl.used_uid hw) hu
      | inner => exact absurd rfl (hh _ _)
      | item => exact absurd (hl.used_item hw) hu
    · cases hx with
      | field => exact absurd rfl (hh _ _)
      | coin => exact absurd (hl.used_coin hw) hu

theorem lookup_objectNew (hl : Layout ctx w o) : o.lookup (objectNew ctx).1 = none :=
  hl.lookup_unused (not_used_objectNew ctx) fun _ _ => AddressSpace.deriveId_ne_hash

/-- A new listing has no dynamic fields yet. -/
theorem lookup_inner_unused (hl : Layout ctx w o) {uid : A} (hu : ¬ Used ctx uid) (b : Bool) :
    o.lookup (hashTypeAndKey uid (.bool b)) = none := by
  cases ho : o.lookup (hashTypeAndKey uid (.bool b)) with
  | none => rfl
  | some x =>
    rcases hl.piece_of_hash ho with ⟨_, _, hn, -⟩ | ⟨_, _, L, -, hs, rfl, -⟩ | ⟨_, _, hn, -⟩
    · cases hn
    · exact absurd (hl.used_uid hs) hu
    · cases hn

/-- An item that is not in the store is not listed. -/
theorem slots_none_of_lookup (hl : Layout ctx w o) {k : A} (hk : o.lookup k = none) (m : A) :
    w.slots (m, k) = none := by
  cases hs : w.slots (m, k) with
  | none => rfl
  | some L => rw [hl.lookup_piece hs .item] at hk; cases hk

/-- No object belongs to two listings. -/
theorem slot_unique (hl : Layout ctx w o) {m k m' k' id : A} {L L' : Slot A} {x : Stored A}
    (hw : w.slots (m, k) = some L) (hw' : w.slots (m', k') = some L')
    (hx : SlotPiece m k L id x) (hx' : SlotPiece m' k' L' id x) : m = m' ∧ k = k' := by
  have huid : L.uid = L'.uid → m = m' ∧ k = k' := by
    intro h
    have h1 := hl.lookup_piece hw .listing
    rw [h, hl.lookup_piece hw' .listing] at h1
    simp only [Option.some.injEq, Stored.mk.injEq, Owner.objectOwner.injEq] at h1
    obtain ⟨rfl, h3⟩ := AddressSpace.hashTypeAndKey_inj h1.1
    cases h3
    exact ⟨rfl, rfl⟩
  -- the kind of an object tells which of the four it is; its owner tells which listing
  generalize id = id' at hx'
  generalize hy : x = y at hx'
  cases hx <;> cases hx' <;> simp only [Stored.mk.injEq, Owner.objectOwner.injEq, Data.field.injEq,
    Name.id.injEq, reduceCtorEq, and_false, false_and] at hy
  · exact ⟨hy.1, hy.2.1⟩
  · obtain ⟨rfl, h3⟩ := AddressSpace.hashTypeAndKey_inj hy.1
    cases h3
    exact ⟨rfl, rfl⟩
  · exact huid hy.1
  · exact huid (AddressSpace.hashTypeAndKey_inj hy.1).1

omit [DecidableEq A] in
/-- The objects of a listing are not those of anybody's proceeds. -/
theorem slotPiece_ne_profitsPiece {m k m' s id : A} {L : Slot A} {c : Coin A} {coin : TypeTag}
    {x : Stored A} (hx : SlotPiece m k L id x) (hx' : ProfitsPiece coin m' s c id x) : False := by
  generalize id = id' at hx'
  generalize hy : x = y at hx'
  cases hx <;> cases hx' <;> simp only [Stored.mk.injEq, Owner.objectOwner.injEq, Data.field.injEq,
    reduceCtorEq, and_false, false_and] at hy
  exact absurd (AddressSpace.hashTypeAndKey_inj hy.1).2 (by simp)

omit [DecidableEq A] in
/-- No object belongs to the proceeds of two sellers. -/
theorem profits_unique {m s m' s' id : A} {c c' : Coin A} {coin coin' : TypeTag} {x : Stored A}
    (hx : ProfitsPiece coin m s c id x) (hx' : ProfitsPiece coin' m' s' c' id x) :
    m = m' ∧ s = s' := by
  generalize id = id' at hx'
  generalize hy : x = y at hx'
  cases hx <;> cases hx' <;> simp only [Stored.mk.injEq, Owner.objectOwner.injEq, Data.field.injEq,
    Name.address.injEq, reduceCtorEq, and_false] at hy
  · exact ⟨hy.1, hy.2.1⟩
  · obtain ⟨rfl, h3⟩ := AddressSpace.hashTypeAndKey_inj hy.1
    cases h3
    exact ⟨rfl, rfl⟩

omit [DecidableEq A] in
theorem slotPiece_owner {m k id : A} {L : Slot A} {x : Stored A} (hx : SlotPiece m k L id x) :
    ∃ p, x.owner = .objectOwner p := by
  cases hx <;> exact ⟨_, rfl⟩

omit [DecidableEq A] in
theorem profitsPiece_owner {coin : TypeTag} {m s id : A} {c : Coin A} {x : Stored A}
    (hx : ProfitsPiece coin m s c id x) : ∃ p, x.owner = .objectOwner p := by
  cases hx <;> exact ⟨_, rfl⟩

/-! ## No object is in two places -/

theorem slot_none_of_free (hl : Layout ctx w o) {k : A} {v : Holder A × Item A}
    (hf : w.free k = some v) (m : A) : w.slots (m, k) = none := by
  cases hs : w.slots (m, k) with
  | none => rfl
  | some L =>
    have ho := hl.lookup_piece hs .item
    rw [hl.lookup_free (h := v.1) (i := v.2) hf] at ho
    cases v with
    | mk h i => cases h <;> cases ho

/-- What is in somebody's hands is not listed. -/
theorem free_ne_item (hl : Layout ctx w o) {m k id : A} {v : Holder A × Item A} {L : Slot A}
    (hf : w.free id = some v) (hw : w.slots (m, k) = some L) : id ≠ k := by
  rintro rfl
  rw [hl.slot_none_of_free hf] at hw
  cases hw

/-- An item is listed in one marketplace only. -/
theorem market_unique (hl : Layout ctx w o) {m m' k : A} {L L' : Slot A}
    (hw : w.slots (m, k) = some L) (hw' : w.slots (m', k) = some L') : m = m' := by
  have ho := hl.lookup_piece hw .item
  rw [hl.lookup_piece hw' .item, Option.some.injEq] at ho
  exact (hl.slot_unique hw hw' .item (ho ▸ .item)).1

/-- The proceeds of a seller are not held by anybody. -/
theorem coin_ne_free (hl : Layout ctx w o) {m s : A} {c : Coin A}
    (hp : w.profits (m, s) = some c) : w.free c.id = none := by
  obtain ⟨coin, hm⟩ := hl.market_of_profits hp
  cases hf : w.free c.id with
  | none => rfl
  | some v =>
    have ho := hl.lookup_profitsPiece hp hm .coin
    rw [hl.lookup_free (h := v.1) (i := v.2) hf] at ho
    cases v with
    | mk h i => cases h <;> cases ho

/-- Nor are they listed. -/
theorem coin_ne_item (hl : Layout ctx w o) {m s m' k : A} {c : Coin A} {L : Slot A}
    (hp : w.profits (m, s) = some c) (hw : w.slots (m', k) = some L) : c.id ≠ k := by
  rintro rfl
  obtain ⟨coin, hm⟩ := hl.market_of_profits hp
  have ho := hl.lookup_profitsPiece hp hm .coin
  rw [hl.lookup_piece hw .item, Option.some.injEq] at ho
  have hx : SlotPiece m' c.id L c.id _ := .item
  rw [ho] at hx
  exact slotPiece_ne_profitsPiece hx .coin

/-- The proceeds of two sellers, or in two marketplaces, are two coins. -/
theorem coin_unique (hl : Layout ctx w o) {m s m' s' : A} {c c' : Coin A}
    (hp : w.profits (m, s) = some c) (hp' : w.profits (m', s') = some c') (hid : c.id = c'.id) :
    m = m' ∧ s = s' := by
  obtain ⟨coin, hm⟩ := hl.market_of_profits hp
  obtain ⟨coin', hm'⟩ := hl.market_of_profits hp'
  have ho := hl.lookup_profitsPiece hp hm .coin
  rw [hid, hl.lookup_profitsPiece hp' hm' .coin] at ho
  simp only [Option.some.injEq, Stored.mk.injEq, Owner.objectOwner.injEq] at ho
  obtain ⟨h1, h2⟩ := AddressSpace.hashTypeAndKey_inj ho.1
  cases h2
  exact ⟨h1.symm, rfl⟩

/-- A marketplace that is not there has no listings. -/
theorem slots_none_of_market (hl : Layout ctx w o) {m : A} (hm : w.markets m = none) (k : A) :
    w.slots (m, k) = none := by
  cases hs : w.slots (m, k) with
  | none => rfl
  | some L =>
    obtain ⟨coin, hc⟩ := hl.market_of_slot hs
    rw [hm] at hc
    cases hc

/-- And nobody's proceeds. -/
theorem profits_none_of_market (hl : Layout ctx w o) {m : A} (hm : w.markets m = none) (s : A) :
    w.profits (m, s) = none := by
  cases hs : w.profits (m, s) with
  | none => rfl
  | some c =>
    obtain ⟨coin, hc⟩ := hl.market_of_profits hs
    rw [hm] at hc
    cases hc

/-- A fresh identifier is no marketplace yet. -/
theorem market_objectNew (hl : Layout ctx w o) : w.markets (objectNew ctx).1 = none := by
  cases hm : w.markets (objectNew ctx).1 with
  | none => rfl
  | some coin =>
    have ho := hl.lookup_market hm
    rw [hl.lookup_objectNew] at ho
    cases ho

/-! ## Free objects come, go and change hands -/

theorem mono (hl : Layout ctx w o) {ctx' : TxContext A} (hu : ∀ id, Used ctx id → Used ctx' id) :
    Layout ctx' w o :=
  ⟨hl.lookup_iff, hl.market_of_slot, hl.market_of_profits, fun h => (hl.used h).imp_right (hu _)⟩

/-- At an identifier that is unknown or free there is no marketplace, no part of
a listing and no part of anybody's proceeds. -/
theorem piece_free (hl : Layout ctx w o) {id : A} {x : Stored A}
    (hid : o.lookup id = none ∨ ∃ v, w.free id = some v) (hp : Piece w id x) :
    ∃ h i, w.free id = some (h, i) ∧ x = ⟨h.toOwner, .item i⟩ := by
  have ho := hl.lookup_iff.2 hp
  rcases hid with hid | ⟨⟨h, i⟩, hid⟩
  · rw [hid] at ho; cases ho
  · rw [hl.lookup_free hid] at ho
    cases ho
    exact ⟨h, i, hid, rfl⟩

omit [DecidableEq A] in
theorem piece_of_congr {w w' : World A} {id : A} {x : Stored A} (hfree : w'.free id = w.free id)
    (hmarkets : w'.markets = w.markets) (hslots : w'.slots = w.slots)
    (hprofits : w'.profits = w.profits) (h : Piece w' id x) : Piece w id x := by
  rcases h with ⟨hw, hx⟩ | ⟨hw, hx⟩ | ⟨hw, hx⟩ | ⟨hw, hm, hx⟩
  · exact .free (hfree ▸ hw) hx
  · exact .market (hmarkets ▸ hw) hx
  · exact .slot (hslots ▸ hw) hx
  · exact .profits (hprofits ▸ hw) (hmarkets ▸ hm) hx

omit [DecidableEq A] in
theorem piece_congr {w w' : World A} {id : A} {x : Stored A} (hfree : w'.free id = w.free id)
    (hmarkets : w'.markets = w.markets) (hslots : w'.slots = w.slots)
    (hprofits : w'.profits = w.profits) : Piece w' id x ↔ Piece w id x :=
  ⟨piece_of_congr hfree hmarkets hslots hprofits,
    piece_of_congr hfree.symm hmarkets.symm hslots.symm hprofits.symm⟩

theorem piece_setFree_ne {id id' : A} {v : Option (Holder A × Item A)} {x : Stored A}
    (hne : id' ≠ id) : Piece (w.setFree id v) id' x ↔ Piece w id' x :=
  piece_congr (World.free_setFree_of_ne hne) rfl rfl rfl

/-- A piece of the world at an identifier whose free object was replaced is the
replacement. -/
theorem piece_setFree_self (hl : Layout ctx w o) {id : A} {v : Option (Holder A × Item A)}
    {x : Stored A} (hid : o.lookup id = none ∨ ∃ v, w.free id = some v) :
    Piece (w.setFree id v) id x ↔ ∃ h i, v = some (h, i) ∧ x = ⟨h.toOwner, .item i⟩ := by
  constructor
  · have howner : ∀ {y}, Piece w id y → ∃ h : Holder A, y.owner = h.toOwner := by
      intro y hy
      obtain ⟨h, i, -, rfl⟩ := hl.piece_free hid hy
      exact ⟨h, rfl⟩
    rintro (⟨hw, hx⟩ | ⟨hw, rfl⟩ | ⟨hw, hx⟩ | ⟨hw, hm, hx⟩)
    · rw [World.free_setFree_self] at hw
      exact ⟨_, _, hw, hx⟩
    · obtain ⟨h, hh⟩ := howner (.market hw rfl)
      exact absurd hh.symm (Holder.toOwner_ne_shared h)
    · obtain ⟨h, hh⟩ := howner (.slot hw hx)
      obtain ⟨p, hp⟩ := slotPiece_owner hx
      exact absurd (hh.symm.trans hp) (Holder.toOwner_ne_objectOwner h p)
    · obtain ⟨h, hh⟩ := howner (.profits hw hm hx)
      obtain ⟨p, hp⟩ := profitsPiece_owner hx
      exact absurd (hh.symm.trans hp) (Holder.toOwner_ne_objectOwner h p)
  · rintro ⟨h, i, rfl, rfl⟩
    exact .free (w.free_setFree_self id _) rfl

/-- An object is put into somebody's hands, or an object in somebody's hands is
replaced by another version of itself. -/
theorem put (hl : Layout ctx w o) {id : A} (hid : o.lookup id = none ∨ ∃ v, w.free id = some v)
    (hu : Used ctx id) (h : Holder A) (i : Item A) :
    Layout ctx (w.setFree id (some (h, i))) (o.insert id ⟨h.toOwner, .item i⟩) where
  lookup_iff := by
    intro id' x
    rw [Finmap.lookup_insert_ite]
    by_cases hne : id' = id
    · subst hne
      rw [if_pos rfl, hl.piece_setFree_self hid]
      constructor
      · intro hx
        cases hx
        exact ⟨h, i, rfl, rfl⟩
      · rintro ⟨h', i', hv, rfl⟩
        cases hv
        rfl
    · rw [if_neg hne, piece_setFree_ne hne, hl.lookup_iff]
  market_of_slot := hl.market_of_slot
  market_of_profits := hl.market_of_profits
  used := by
    intro id' x
    rw [Finmap.lookup_insert_ite]
    split
    · next hne =>
      intro _
      exact Or.inr (hne ▸ hu)
    · exact hl.used

/-- A free object is taken out of the store. -/
theorem take (hl : Layout ctx w o) {id : A} (hid : o.lookup id = none ∨ ∃ v, w.free id = some v) :
    Layout ctx (w.setFree id none) (o.erase id) where
  lookup_iff := by
    intro id' x
    rw [Finmap.lookup_erase_ite]
    by_cases hne : id' = id
    · subst hne
      rw [if_pos rfl, hl.piece_setFree_self hid]
      simp
    · rw [if_neg hne, piece_setFree_ne hne, hl.lookup_iff]
  market_of_slot := hl.market_of_slot
  market_of_profits := hl.market_of_profits
  used := by
    intro id' x
    rw [Finmap.lookup_erase_ite]
    split
    · intro h; cases h
    · exact hl.used

/-- A new marketplace is shared. -/
theorem newMarket (hl : Layout ctx w o) {id : A} (hid : o.lookup id = none) (hu : Used ctx id)
    (coin : TypeTag) :
    Layout ctx (w.setMarket id coin) (o.insert id ⟨.shared, .marketplace coin⟩) := by
  have hself : (w.setMarket id coin).markets id = some coin := Function.update_self _ _ _
  have hne : ∀ {m}, m ≠ id → (w.setMarket id coin).markets m = w.markets m :=
    fun h => Function.update_of_ne h _ _
  have hmono : ∀ {m t}, w.markets m = some t → (w.setMarket id coin).markets m = some t := by
    intro m t hm
    rw [hne ?_, hm]
    rintro rfl
    rw [hl.lookup_market hm] at hid
    cases hid
  refine ⟨?_, ?_, ?_, ?_⟩
  · intro id' x
    rw [Finmap.lookup_insert_ite]
    constructor
    · split
      · next heq =>
        intro hx
        cases hx
        exact .market (heq ▸ hself) rfl
      · intro hx
        rcases hl.lookup_iff.1 hx with ⟨hw, hx⟩ | ⟨hw, hx⟩ | ⟨hw, hx⟩ | ⟨hw, hm, hx⟩
        · exact .free hw hx
        · exact .market (hmono hw) hx
        · exact .slot hw hx
        · exact .profits hw (hmono hm) hx
    · have hold : ∀ {y}, Piece w id' y → id' ≠ id := by
        rintro y hy rfl
        rw [hl.lookup_iff.2 hy] at hid
        cases hid
      rintro (⟨hw, hx⟩ | ⟨hw, hx⟩ | ⟨hw, hx⟩ | ⟨hw, hm, hx⟩)
      · rw [if_neg (hold (.free hw hx)), hl.lookup_iff]
        exact .free hw hx
      · by_cases heq : id' = id
        · subst heq
          rw [hself] at hw
          cases hw
          rw [if_pos rfl, hx]
        · rw [if_neg heq, hl.lookup_iff]
          exact .market ((hne heq).symm.trans hw) hx
      · rw [if_neg (hold (.slot hw hx)), hl.lookup_iff]
        exact .slot hw hx
      · obtain ⟨t, ht⟩ := hl.market_of_profits hw
        have htm := hmono ht
        rw [hm] at htm
        cases htm
        rw [if_neg (hold (.profits hw ht hx)), hl.lookup_iff]
        exact .profits hw ht hx
  · intro m k L hs
    obtain ⟨t, ht⟩ := hl.market_of_slot hs
    exact ⟨t, hmono ht⟩
  · intro m s c hs
    obtain ⟨t, ht⟩ := hl.market_of_profits hs
    exact ⟨t, hmono ht⟩
  · intro id' x
    rw [Finmap.lookup_insert_ite]
    split
    · next heq =>
      intro _
      exact Or.inr (heq ▸ hu)
    · exact hl.used

end Layout

end BookMarket
