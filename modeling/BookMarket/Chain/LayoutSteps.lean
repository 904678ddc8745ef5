import BookMarket.Chain.Layout

/-!
# How listings and proceeds come and go

The five ways in which the marketplace changes the store: a listing is hung
into it (`Layout.addSlot`) or taken out (`Layout.removeSlot`), a coin is
attached under a seller (`Layout.attach`), its balance grows (`Layout.credit`),
and it is taken out again (`Layout.removeProfits`).  Each is stated for the
writes and erasures the code makes, in the order it makes them, and leads from
a world to a world.

The argument is the same in all of them: the entries of the store before and
after differ by exactly the pieces of the listing or of the proceeds
(`lookup_insert_iff`, `lookup_erase_iff`), and so do the pieces of the two
worlds (`piece_setSlot_some`, `piece_setSlot_none` and their siblings).
-/

namespace BookMarket

variable {A : Type} [DecidableEq A] [AddressSpace A]

/-! ## The objects of a listing -/

omit [DecidableEq A] in
theorem slotPiece_iff {m k : A} {L : Slot A} {id : A} {x : Stored A} :
    SlotPiece m k L id x ↔
      (id = L.uid ∧ x = ⟨.objectOwner (hashTypeAndKey m (.id k)), .listing L.ask L.seller⟩) ∨
      (id = hashTypeAndKey m (.id k) ∧ x = ⟨.objectOwner m, .field (.id k) L.uid⟩) ∨
      (id = k ∧ x = ⟨.objectOwner (hashTypeAndKey L.uid (.bool true)), .item L.item⟩) ∨
      (id = hashTypeAndKey L.uid (.bool true) ∧
        x = ⟨.objectOwner L.uid, .field (.bool true) k⟩) := by
  constructor
  · rintro (_ | _ | _ | _) <;> simp
  · rintro (⟨rfl, rfl⟩ | ⟨rfl, rfl⟩ | ⟨rfl, rfl⟩ | ⟨rfl, rfl⟩)
    · exact .listing
    · exact .field
    · exact .item
    · exact .inner

omit [DecidableEq A] in
theorem profitsPiece_iff {coin : TypeTag} {m s : A} {c : Coin A} {id : A} {x : Stored A} :
    ProfitsPiece coin m s c id x ↔
      (id = c.id ∧
        x = ⟨.objectOwner (hashTypeAndKey m (.address s)), .item (.coin coin c.balance)⟩) ∨
      (id = hashTypeAndKey m (.address s) ∧ x = ⟨.objectOwner m, .field (.address s) c.id⟩) := by
  constructor
  · rintro (_ | _) <;> simp
  · rintro (⟨rfl, rfl⟩ | ⟨rfl, rfl⟩)
    · exact .coin
    · exact .field

/-- The store with the objects of a listing written into it, in the order of
`list`: the item below the listing, then the listing below the marketplace. -/
def addSlotObjects (o : Objects A) (m k : A) (L : Slot A) : Objects A :=
  (((o.insert (hashTypeAndKey L.uid (.bool true)) ⟨.objectOwner L.uid, .field (.bool true) k⟩).insert
    k ⟨.objectOwner (hashTypeAndKey L.uid (.bool true)), .item L.item⟩).insert
      (hashTypeAndKey m (.id k)) ⟨.objectOwner m, .field (.id k) L.uid⟩).insert
        L.uid ⟨.objectOwner (hashTypeAndKey m (.id k)), .listing L.ask L.seller⟩

/-- The store with the listing and its `Field` taken out: what the first
`remove` of `delist` and `buy` leaves. -/
def removeListing (o : Objects A) (m k : A) (L : Slot A) : Objects A :=
  (o.erase L.uid).erase (hashTypeAndKey m (.id k))

/-- The store with the item and its `Field` taken out: the second `remove`. -/
def removeItem (o : Objects A) (k : A) (L : Slot A) : Objects A :=
  (o.erase k).erase (hashTypeAndKey L.uid (.bool true))

/-- The store with a coin attached under a seller. -/
def attachObjects (o : Objects A) (coin : TypeTag) (m s : A) (c : Coin A) : Objects A :=
  (o.insert (hashTypeAndKey m (.address s)) ⟨.objectOwner m, .field (.address s) c.id⟩).insert
    c.id ⟨.objectOwner (hashTypeAndKey m (.address s)), .item (.coin coin c.balance)⟩

/-- The store with the coin of a seller taken out. -/
def removeProfitsObjects (o : Objects A) (m s : A) (c : Coin A) : Objects A :=
  (o.erase c.id).erase (hashTypeAndKey m (.address s))

namespace Layout

variable {ctx : TxContext A} {w : World A} {o : Objects A}

/-! ## The pieces of the changed world -/

theorem piece_setSlot_some {m k : A} (hw : w.slots (m, k) = none) (L : Slot A) {id : A}
    {x : Stored A} :
    Piece (w.setSlot m k (some L)) id x ↔ SlotPiece m k L id x ∨ Piece w id x := by
  constructor
  · rintro (⟨h, hx⟩ | ⟨h, hx⟩ | @⟨m', k', L', h, hx⟩ | ⟨h, hm, hx⟩)
    · exact Or.inr (.free h hx)
    · exact Or.inr (.market h hx)
    · by_cases hp : (m', k') = (m, k)
      · cases hp
        rw [World.slots_setSlot_self] at h
        cases h
        exact Or.inl hx
      · rw [World.slots_setSlot_of_ne hp] at h
        exact Or.inr (.slot h hx)
    · exact Or.inr (.profits h hm hx)
  · rintro (hx | ⟨h, hx⟩ | ⟨h, hx⟩ | @⟨m', k', L', h, hx⟩ | ⟨h, hm, hx⟩)
    · exact .slot (w.slots_setSlot_self m k _) hx
    · exact .free h hx
    · exact .market h hx
    · refine .slot ((World.slots_setSlot_of_ne ?_).trans h) hx
      intro hp
      rw [hp, hw] at h
      cases h
    · exact .profits h hm hx

theorem piece_setSlot_none (hl : Layout ctx w o) {m k : A} {L : Slot A}
    (hw : w.slots (m, k) = some L) {id : A} {x : Stored A} :
    Piece (w.setSlot m k none) id x ↔ Piece w id x ∧ ¬ SlotPiece m k L id x := by
  constructor
  · rintro (⟨h, hx⟩ | ⟨h, hx⟩ | @⟨m', k', L', h, hx⟩ | ⟨h, hm, hx⟩)
    · refine ⟨.free h hx, fun hp => ?_⟩
      obtain ⟨p, hown⟩ := slotPiece_owner hp
      rw [hx] at hown
      exact absurd hown (Holder.toOwner_ne_objectOwner _ p)
    · refine ⟨.market h hx, fun hp => ?_⟩
      obtain ⟨p, hown⟩ := slotPiece_owner hp
      rw [hx] at hown
      cases hown
    · have hp : (m', k') ≠ (m, k) := by
        intro hp
        rw [hp, World.slots_setSlot_self] at h
        cases h
      have h' := (World.slots_setSlot_of_ne hp).symm.trans h
      refine ⟨.slot h' hx, fun hx' => hp ?_⟩
      obtain ⟨rfl, rfl⟩ := hl.slot_unique h' hw hx hx'
      rfl
    · exact ⟨.profits h hm hx, fun hp => slotPiece_ne_profitsPiece hp hx⟩
  · rintro ⟨⟨h, hx⟩ | ⟨h, hx⟩ | @⟨m', k', L', h, hx⟩ | ⟨h, hm, hx⟩, hnot⟩
    · exact .free h hx
    · exact .market h hx
    · refine .slot ((World.slots_setSlot_of_ne ?_).trans h) hx
      intro hp
      cases hp
      rw [hw] at h
      cases h
      exact hnot hx
    · exact .profits h hm hx

theorem piece_setProfits_some {m s : A} (hw : w.profits (m, s) = none) {coin : TypeTag}
    (hm : w.markets m = some coin) (c : Coin A) {id : A} {x : Stored A} :
    Piece (w.setProfits m s (some c)) id x ↔ ProfitsPiece coin m s c id x ∨ Piece w id x := by
  constructor
  · rintro (⟨h, hx⟩ | ⟨h, hx⟩ | ⟨h, hx⟩ | @⟨m', s', t', c', h, hm', hx⟩)
    · exact Or.inr (.free h hx)
    · exact Or.inr (.market h hx)
    · exact Or.inr (.slot h hx)
    · by_cases hp : (m', s') = (m, s)
      · cases hp
        rw [World.profits_setProfits_self] at h
        cases h
        have hm'' : w.markets m = some t' := hm'
        rw [hm] at hm''
        cases hm''
        exact Or.inl hx
      · rw [World.profits_setProfits_of_ne hp] at h
        exact Or.inr (.profits h hm' hx)
  · rintro (hx | ⟨h, hx⟩ | ⟨h, hx⟩ | ⟨h, hx⟩ | @⟨m', s', t', c', h, hm', hx⟩)
    · exact .profits (w.profits_setProfits_self m s _) hm hx
    · exact .free h hx
    · exact .market h hx
    · exact .slot h hx
    · refine .profits ((World.profits_setProfits_of_ne ?_).trans h) hm' hx
      intro hp
      rw [hp, hw] at h
      cases h

theorem piece_setProfits_none {m s : A} {c : Coin A} {coin : TypeTag}
    (hw : w.profits (m, s) = some c) (hm : w.markets m = some coin) {id : A} {x : Stored A} :
    Piece (w.setProfits m s none) id x ↔ Piece w id x ∧ ¬ ProfitsPiece coin m s c id x := by
  constructor
  · rintro (⟨h, hx⟩ | ⟨h, hx⟩ | ⟨h, hx⟩ | @⟨m', s', t', c', h, hm', hx⟩)
    · refine ⟨.free h hx, fun hp => ?_⟩
      obtain ⟨p, hown⟩ := profitsPiece_owner hp
      rw [hx] at hown
      exact absurd hown (Holder.toOwner_ne_objectOwner _ p)
    · refine ⟨.market h hx, fun hp => ?_⟩
      obtain ⟨p, hown⟩ := profitsPiece_owner hp
      rw [hx] at hown
      cases hown
    · exact ⟨.slot h hx, fun hp => slotPiece_ne_profitsPiece hx hp⟩
    · have hp : (m', s') ≠ (m, s) := by
        intro hp
        rw [hp, World.profits_setProfits_self] at h
        cases h
      rw [World.profits_setProfits_of_ne hp] at h
      refine ⟨.profits h hm' hx, fun hx' => hp ?_⟩
      obtain ⟨rfl, rfl⟩ := profits_unique hx hx'
      rfl
  · rintro ⟨⟨h, hx⟩ | ⟨h, hx⟩ | ⟨h, hx⟩ | @⟨m', s', t', c', h, hm', hx⟩, hnot⟩
    · exact .free h hx
    · exact .market h hx
    · exact .slot h hx
    · refine .profits ((World.profits_setProfits_of_ne ?_).trans h) hm' hx
      intro hp
      cases hp
      rw [hw] at h
      cases h
      rw [hm] at hm'
      cases hm'
      exact hnot hx

/-! ## Listings -/

/-- The identifiers of the four objects of a listing are different. -/
theorem slot_ids (hl : Layout ctx w o) {m k : A} {L : Slot A} (hw : w.slots (m, k) = some L) :
    k ≠ L.uid ∧ L.uid ≠ hashTypeAndKey m (.id k) ∧ L.uid ≠ hashTypeAndKey L.uid (.bool true) ∧
      k ≠ hashTypeAndKey m (.id k) ∧ k ≠ hashTypeAndKey L.uid (.bool true) ∧
      hashTypeAndKey L.uid (.bool true) ≠ hashTypeAndKey m (.id k) := by
  refine ⟨?_, (hl.used_uid hw).ne_hash, (hl.used_uid hw).ne_hash, (hl.used_item hw).ne_hash,
    (hl.used_item hw).ne_hash, ?_⟩
  · intro h
    have h1 := hl.lookup_piece hw .item
    have h2 := hl.lookup_piece hw .listing
    rw [← h, h1] at h2
    simp at h2
  · intro h
    cases (AddressSpace.hashTypeAndKey_inj h).2

/-- **A listing is hung into the store.**  The identifier of the listing is new,
and the item is in nobody's custody. -/
theorem addSlot (hl : Layout ctx w o) {ctx' : TxContext A} {m k : A} {coin : TypeTag}
    (hm : w.markets m = some coin) (hk : o.lookup k = none) (hku : Used ctx k) (L : Slot A)
    (hmono : ∀ id, Used ctx id → Used ctx' id) (hu : ¬ Used ctx L.uid) (hu' : Used ctx' L.uid) :
    Layout ctx' (w.setSlot m k (some L)) (addSlotObjects o m k L) := by
  have hslot : w.slots (m, k) = none := hl.slots_none_of_lookup hk m
  have huid : o.lookup L.uid = none := hl.lookup_unused hu fun _ _ => hu'.ne_hash
  have hinner := hl.lookup_inner_unused hu true
  have hfield := hl.lookup_slot_none hslot
  have hku' : k ≠ L.uid := by rintro rfl; exact hu hku
  have hnames : hashTypeAndKey m (.id k) ≠ hashTypeAndKey L.uid (.bool true) := by
    intro h
    cases (AddressSpace.hashTypeAndKey_inj h).2
  have hlookup : ∀ {id x}, (addSlotObjects o m k L).lookup id = some x ↔
      SlotPiece m k L id x ∨ o.lookup id = some x := by
    intro id x
    rw [addSlotObjects, Finmap.lookup_insert_iff, Finmap.lookup_insert_iff,
      Finmap.lookup_insert_iff, Finmap.lookup_insert_iff hinner, slotPiece_iff]
    · simp only [or_assoc]
    · rw [Finmap.lookup_insert_of_ne _ hku.ne_hash, hk]
    · rw [Finmap.lookup_insert_of_ne _ hku.ne_hash.symm, Finmap.lookup_insert_of_ne _ hnames,
        hfield]
    · rw [Finmap.lookup_insert_of_ne _ hu'.ne_hash, Finmap.lookup_insert_of_ne _ hku'.symm,
        Finmap.lookup_insert_of_ne _ hu'.ne_hash, huid]
  refine ⟨?_, ?_, hl.market_of_profits, ?_⟩
  · intro id x
    rw [hlookup, piece_setSlot_some hslot, hl.lookup_iff]
  · intro m' k' L' h
    by_cases hp : (m', k') = (m, k)
    · cases hp
      exact ⟨coin, hm⟩
    · rw [World.slots_setSlot_of_ne hp] at h
      exact hl.market_of_slot h
  · intro id x h
    rcases hlookup.1 h with hx | hx
    · cases hx with
      | field => exact Or.inl ⟨_, _, rfl⟩
      | listing => exact Or.inr hu'
      | inner => exact Or.inl ⟨_, _, rfl⟩
      | item => exact Or.inr (hmono _ hku)
    · exact (hl.used hx).imp_right (hmono _)

/-- What is left when the four objects of a listing are taken out. -/
theorem lookup_removeSlot (hl : Layout ctx w o) {m k : A} {L : Slot A}
    (hw : w.slots (m, k) = some L) {id : A} {x : Stored A} :
    (removeItem (removeListing o m k L) k L).lookup id = some x ↔
      o.lookup id = some x ∧ ¬ SlotPiece m k L id x := by
  obtain ⟨h1, h2, h3, h4, h5, h6⟩ := hl.slot_ids hw
  have hlisting := hl.lookup_piece hw .listing
  have hfield := hl.lookup_piece hw .field
  have hitem := hl.lookup_piece hw .item
  have hinner := hl.lookup_piece hw .inner
  rw [removeItem, removeListing,
    Finmap.lookup_erase_iff (v := ⟨.objectOwner L.uid, .field (.bool true) k⟩),
    Finmap.lookup_erase_iff (v := ⟨.objectOwner (hashTypeAndKey L.uid (.bool true)),
      .item L.item⟩),
    Finmap.lookup_erase_iff (v := ⟨.objectOwner m, .field (.id k) L.uid⟩),
    Finmap.lookup_erase_iff hlisting, slotPiece_iff]
  · simp only [not_or, and_assoc]
  · rw [Finmap.lookup_erase_ne h2.symm, hfield]
  · rw [Finmap.lookup_erase_ne h4, Finmap.lookup_erase_ne h1, hitem]
  · rw [Finmap.lookup_erase_ne h5.symm, Finmap.lookup_erase_ne h6,
      Finmap.lookup_erase_ne h3.symm, hinner]

/-- **A listing is taken out of the store**, with its two `Field`s and its item:
nothing of it stays behind. -/
theorem removeSlot (hl : Layout ctx w o) {m k : A} {L : Slot A} (hw : w.slots (m, k) = some L) :
    Layout ctx (w.setSlot m k none) (removeItem (removeListing o m k L) k L) where
  lookup_iff := by
    intro id x
    rw [hl.lookup_removeSlot hw, hl.piece_setSlot_none hw, hl.lookup_iff]
  market_of_slot := by
    intro m' k' L' h
    by_cases hp : (m', k') = (m, k)
    · cases hp
      rw [World.slots_setSlot_self] at h
      cases h
    · rw [World.slots_setSlot_of_ne hp] at h
      exact hl.market_of_slot h
  market_of_profits := hl.market_of_profits
  used := fun h => hl.used ((hl.lookup_removeSlot hw).1 h).1

/-- The item of the removed listing is then in nobody's custody. -/
theorem lookup_item_removeSlot (hl : Layout ctx w o) {m k : A} {L : Slot A}
    (hw : w.slots (m, k) = some L) :
    (removeItem (removeListing o m k L) k L).lookup k = none := by
  cases h : (removeItem (removeListing o m k L) k L).lookup k with
  | none => rfl
  | some x =>
    obtain ⟨hx, hnot⟩ := (hl.lookup_removeSlot hw).1 h
    rw [hl.lookup_piece hw .item] at hx
    cases hx
    exact absurd .item hnot

/-! ## Proceeds -/

/-- **A coin is attached under a seller** who had none. -/
theorem attach (hl : Layout ctx w o) {m s : A} {coin : TypeTag} (hm : w.markets m = some coin)
    (hp : w.profits (m, s) = none) (c : Coin A) (hc : o.lookup c.id = none)
    (hu : Used ctx c.id) :
    Layout ctx (w.setProfits m s (some c)) (attachObjects o coin m s c) := by
  have hlookup : ∀ {id x}, (attachObjects o coin m s c).lookup id = some x ↔
      ProfitsPiece coin m s c id x ∨ o.lookup id = some x := by
    intro id x
    rw [attachObjects, Finmap.lookup_insert_iff,
      Finmap.lookup_insert_iff (hl.lookup_profits_none hp), profitsPiece_iff]
    · rw [or_assoc]
    · rw [Finmap.lookup_insert_of_ne _ hu.ne_hash, hc]
  refine ⟨?_, hl.market_of_slot, ?_, ?_⟩
  · intro id x
    rw [hlookup, piece_setProfits_some hp hm, hl.lookup_iff]
  · intro m' s' c' h
    by_cases heq : (m', s') = (m, s)
    · cases heq
      exact ⟨coin, hm⟩
    · rw [World.profits_setProfits_of_ne heq] at h
      exact hl.market_of_profits h
  · intro id x h
    rcases hlookup.1 h with hx | hx
    · cases hx with
      | field => exact Or.inl ⟨_, _, rfl⟩
      | coin => exact Or.inr hu
    · exact hl.used hx

theorem lookup_removeProfits (hl : Layout ctx w o) {m s : A} {coin : TypeTag}
    (hm : w.markets m = some coin) {c : Coin A} (hp : w.profits (m, s) = some c) {id : A}
    {x : Stored A} :
    (removeProfitsObjects o m s c).lookup id = some x ↔
      o.lookup id = some x ∧ ¬ ProfitsPiece coin m s c id x := by
  rw [removeProfitsObjects,
    Finmap.lookup_erase_iff (v := ⟨.objectOwner m, .field (.address s) c.id⟩),
    Finmap.lookup_erase_iff (hl.lookup_profitsPiece hp hm .coin), profitsPiece_iff]
  · rw [not_or, and_assoc]
  · rw [Finmap.lookup_erase_ne (hl.used_coin hp).ne_hash.symm, hl.lookup_profitsPiece hp hm .field]

/-- **The coin of a seller is taken out**, with its `Field`. -/
theorem removeProfits (hl : Layout ctx w o) {m s : A} {c : Coin A}
    (hp : w.profits (m, s) = some c) :
    Layout ctx (w.setProfits m s none) (removeProfitsObjects o m s c) := by
  obtain ⟨coin, hm⟩ := hl.market_of_profits hp
  refine ⟨?_, hl.market_of_slot, ?_, fun h => hl.used ((hl.lookup_removeProfits hm hp).1 h).1⟩
  · intro id x
    rw [hl.lookup_removeProfits hm hp, piece_setProfits_none hp hm, hl.lookup_iff]
  · intro m' s' c' h
    by_cases heq : (m', s') = (m, s)
    · cases heq
      rw [World.profits_setProfits_self] at h
      cases h
    · rw [World.profits_setProfits_of_ne heq] at h
      exact hl.market_of_profits h

theorem lookup_coin_removeProfits (hl : Layout ctx w o) {m s : A} {c : Coin A}
    (hp : w.profits (m, s) = some c) : (removeProfitsObjects o m s c).lookup c.id = none := by
  obtain ⟨coin, hm⟩ := hl.market_of_profits hp
  cases h : (removeProfitsObjects o m s c).lookup c.id with
  | none => rfl
  | some x =>
    obtain ⟨hx, hnot⟩ := (hl.lookup_removeProfits hm hp).1 h
    rw [hl.lookup_profitsPiece hp hm .coin] at hx
    cases hx
    exact absurd .coin hnot

/-- **The balance of a seller's coin grows**: taking the coin out and attaching
it with another balance comes to overwriting it in place. -/
theorem credit (hl : Layout ctx w o) {m s : A} {coin : TypeTag} (hm : w.markets m = some coin)
    {c : Coin A} (hp : w.profits (m, s) = some c) (b : UInt64) :
    Layout ctx (w.setProfits m s (some ⟨c.id, b⟩)) (o.insert c.id
      ⟨.objectOwner (hashTypeAndKey m (.address s)), .item (.coin coin b)⟩) := by
  have hc := hl.lookup_coin_removeProfits hp
  have hu := hl.used_coin hp
  have h := (hl.removeProfits hp).attach hm (w.profits_setProfits_self m s none) ⟨c.id, b⟩ hc hu
  have hw : (w.setProfits m s none).setProfits m s (some ⟨c.id, b⟩)
      = w.setProfits m s (some ⟨c.id, b⟩) := by
    simp [World.setProfits]
  have ho : attachObjects (removeProfitsObjects o m s c) coin m s ⟨c.id, b⟩
      = o.insert c.id ⟨.objectOwner (hashTypeAndKey m (.address s)), .item (.coin coin b)⟩ := by
    have hfield := hl.lookup_profitsPiece hp hm .field
    rw [attachObjects, removeProfitsObjects, Finmap.insert_erase,
      Finmap.insert_eq_self (s := o.erase c.id), Finmap.insert_erase]
    rw [Finmap.lookup_erase_ne (hl.used_coin hp).ne_hash.symm, hfield]
  rw [hw, ho] at h
  exact h

end Layout

end BookMarket
