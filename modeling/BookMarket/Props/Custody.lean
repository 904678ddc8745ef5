import Mathlib.Logic.Relation
import BookMarket.Chain.Abstraction
import BookMarket.Chain.Contents

/-!
# Custody

What the layout of the store means for somebody who looks for an object.  Every
item is in exactly one place; everything that is owned by an object hangs, over
some number of owners, below exactly one marketplace; and a marketplace that has
been cleared has nothing below it.

* `OwnedBy`, `Within` — direct and indirect ownership by an object.
* `Place`, `IsAt` — the places an item can be in.
* `Layout.exists_within`, `within_unique` — no orphans, and no sharing.
* `Custody` — the representation invariant.
* `custodyInvariant` — **every reachable store is well formed, and a cleared
  marketplace is empty.**
-/

namespace BookMarket

open Relation AbstractMarket

variable {A : Type} [DecidableEq A]

/-- The object `id` is owned by the object `p`: it is a dynamic field of `p`, or
what a field holds. -/
def OwnedBy (o : Objects A) (id p : A) : Prop :=
  ∃ x, o.lookup id = some x ∧ x.owner = .objectOwner p

/-- The object `id` lies somewhere below `p`. -/
def Within (o : Objects A) (id p : A) : Prop :=
  TransGen (OwnedBy o) id p

/-- A shared object of type `Marketplace`. -/
def IsMarketplace (o : Objects A) (m : A) : Prop :=
  ∃ coin, o.lookup m = some ⟨.shared, .marketplace coin⟩

/-- Where an item can be. -/
inductive Place (A : Type)
  | held (h : Holder A)
  | listed (marketplace : A)
  | proceeds (marketplace seller : A)

variable [AddressSpace A]

/-- The item `id` is at a place. -/
def IsAt (o : Objects A) (id : A) : Place A → Prop
  | .held h => ∃ i, freeAt o id = some (h, i)
  | .listed m => ∃ L, listingAt o m id = some L
  | .proceeds m s => ∃ c, profitsAt o m s = some c ∧ c.id = id

omit [AddressSpace A] in
theorem ownedBy_unique {o : Objects A} {id p p' : A} (h : OwnedBy o id p) (h' : OwnedBy o id p') :
    p = p' := by
  obtain ⟨x, hx, hp⟩ := h
  obtain ⟨x', hx', hp'⟩ := h'
  rw [hx] at hx'
  cases hx'
  rw [hp] at hp'
  cases hp'
  rfl

omit [AddressSpace A] in
/-- A marketplace is at the top. -/
theorem IsMarketplace.not_ownedBy {o : Objects A} {m p : A} (h : IsMarketplace o m) :
    ¬ OwnedBy o m p := by
  obtain ⟨coin, hm⟩ := h
  rintro ⟨x, hx, hp⟩
  rw [hm] at hx
  cases hx
  cases hp

omit [AddressSpace A] in
/-- Nothing is below two marketplaces: the way up is unique, and it ends at the
first of them. -/
theorem within_unique {o : Objects A} {id m m' : A} (hm : IsMarketplace o m)
    (hm' : IsMarketplace o m') (h : Within o id m) (h' : Within o id m') : m = m' := by
  have top {m m' : A} (hm : IsMarketplace o m) (hup : ReflTransGen (OwnedBy o) m m') : m = m' := by
    rcases ReflTransGen.cases_head hup with rfl | ⟨p, hp, -⟩
    · rfl
    · exact absurd hp hm.not_ownedBy
  have hright : Relator.RightUnique (OwnedBy o) := fun _ _ _ h h' => ownedBy_unique h h'
  rcases ReflTransGen.total_of_right_unique hright h.to_reflTransGen h'.to_reflTransGen with
    hup | hup
  · exact top hm hup
  · exact (top hm' hup).symm

namespace Layout

variable {ctx : TxContext A} {w : World A} {o : Objects A}

theorem isMarketplace (hl : Layout ctx w o) {m : A} {coin : TypeTag}
    (hm : w.markets m = some coin) : IsMarketplace o m :=
  ⟨coin, hl.lookup_market hm⟩

theorem slotPiece_within (hl : Layout ctx w o) {m k id : A} {L : Slot A} {x : Stored A}
    (hw : w.slots (m, k) = some L) (hx : SlotPiece m k L id x) : Within o id m := by
  have h1 : OwnedBy o (hashTypeAndKey m (.id k)) m := ⟨_, hl.lookup_piece hw .field, rfl⟩
  have h2 : OwnedBy o L.uid (hashTypeAndKey m (.id k)) := ⟨_, hl.lookup_piece hw .listing, rfl⟩
  have h3 : OwnedBy o (hashTypeAndKey L.uid (.bool true)) L.uid :=
    ⟨_, hl.lookup_piece hw .inner, rfl⟩
  have h4 : OwnedBy o k (hashTypeAndKey L.uid (.bool true)) := ⟨_, hl.lookup_piece hw .item, rfl⟩
  cases hx with
  | field => exact .single h1
  | listing => exact .head h2 (.single h1)
  | inner => exact .head h3 (.head h2 (.single h1))
  | item => exact .head h4 (.head h3 (.head h2 (.single h1)))

theorem profitsPiece_within (hl : Layout ctx w o) {m s id : A} {c : Coin A} {coin : TypeTag}
    {x : Stored A} (hp : w.profits (m, s) = some c) (hm : w.markets m = some coin)
    (hx : ProfitsPiece coin m s c id x) : Within o id m := by
  have h1 : OwnedBy o (hashTypeAndKey m (.address s)) m :=
    ⟨_, hl.lookup_profitsPiece hp hm .field, rfl⟩
  have h2 : OwnedBy o c.id (hashTypeAndKey m (.address s)) :=
    ⟨_, hl.lookup_profitsPiece hp hm .coin, rfl⟩
  cases hx with
  | field => exact .single h1
  | coin => exact .head h2 (.single h1)

/-- No orphans: what is owned by an object is below a marketplace. -/
theorem exists_within (hl : Layout ctx w o) {id p : A} (h : OwnedBy o id p) :
    ∃ m, IsMarketplace o m ∧ Within o id m := by
  obtain ⟨x, hx, hp⟩ := h
  rcases hl.lookup_iff.1 hx with ⟨hw, rfl⟩ | ⟨hw, rfl⟩ | ⟨hw, hpc⟩ | ⟨hw, hm, hpc⟩
  · exact absurd hp (Holder.toOwner_ne_objectOwner _ _)
  · cases hp
  · obtain ⟨coin, hm⟩ := hl.market_of_slot hw
    exact ⟨_, hl.isMarketplace hm, hl.slotPiece_within hw hpc⟩
  · exact ⟨_, hl.isMarketplace hm, hl.profitsPiece_within hw hm hpc⟩

/-- A `Listing` and a `Field` are owned by an object. -/
theorem ownedBy_of_data (hl : Layout ctx w o) {id : A} {x : Stored A} (hx : o.lookup id = some x)
    (hd : (∃ ask seller, x.data = .listing ask seller) ∨ ∃ n v, x.data = .field n v) :
    ∃ p, OwnedBy o id p := by
  rcases hl.lookup_iff.1 hx with ⟨hw, rfl⟩ | ⟨hw, rfl⟩ | ⟨hw, hpc⟩ | ⟨hw, hm, hpc⟩
  · rcases hd with ⟨_, _, hd⟩ | ⟨_, _, hd⟩ <;> cases hd
  · rcases hd with ⟨_, _, hd⟩ | ⟨_, _, hd⟩ <;> cases hd
  · obtain ⟨p, hp⟩ := slotPiece_owner hpc
    exact ⟨p, x, hx, hp⟩
  · obtain ⟨p, hp⟩ := profitsPiece_owner hpc
    exact ⟨p, x, hx, hp⟩

/-- What a marketplace owns directly. -/
theorem ownedBy_market (hl : Layout ctx w o) {m id : A} {coin : TypeTag}
    (hm : w.markets m = some coin) (h : OwnedBy o id m) :
    (∃ k L, w.slots (m, k) = some L ∧ id = hashTypeAndKey m (.id k)) ∨
    ∃ s c, w.profits (m, s) = some c ∧ id = hashTypeAndKey m (.address s) := by
  obtain ⟨x, hx, hp⟩ := h
  have hmu := hl.used_market hm
  rcases hl.lookup_iff.1 hx with ⟨hw, rfl⟩ | ⟨hw, rfl⟩ | ⟨hw, hpc⟩ | ⟨hw, hm', hpc⟩
  · exact absurd hp (Holder.toOwner_ne_objectOwner _ _)
  · cases hp
  · cases hpc with
    | field =>
      cases hp
      exact Or.inl ⟨_, _, hw, rfl⟩
    | listing => exact absurd (Owner.objectOwner.inj hp).symm hmu.ne_hash
    | inner =>
      have hlk := hl.lookup_piece hw .listing
      rw [Owner.objectOwner.inj hp, hl.lookup_market hm] at hlk
      cases hlk
    | item => exact absurd (Owner.objectOwner.inj hp).symm hmu.ne_hash
  · cases hpc with
    | field =>
      cases hp
      exact Or.inr ⟨_, _, hw, rfl⟩
    | coin => exact absurd (Owner.objectOwner.inj hp).symm hmu.ne_hash

/-- A `Listing` owns nothing but the `Field` of its item. -/
theorem ownedBy_listing (hl : Layout ctx w o) {m k id : A} {L : Slot A}
    (hw : w.slots (m, k) = some L) (h : OwnedBy o id L.uid) :
    id = hashTypeAndKey L.uid (.bool true) := by
  obtain ⟨x, hx, hp⟩ := h
  have huu := hl.used_uid hw
  have hlk := hl.lookup_piece hw .listing
  rcases hl.lookup_iff.1 hx with ⟨hw', rfl⟩ | ⟨hw', rfl⟩ | ⟨hw', hpc⟩ | ⟨hw', hm', hpc⟩
  · exact absurd hp (Holder.toOwner_ne_objectOwner _ _)
  · cases hp
  · cases hpc with
    | field =>
      obtain ⟨coin, hm⟩ := hl.market_of_slot hw'
      rw [← Owner.objectOwner.inj hp, hl.lookup_market hm] at hlk
      cases hlk
    | listing => exact absurd (Owner.objectOwner.inj hp).symm huu.ne_hash
    | inner => rw [Owner.objectOwner.inj hp]
    | item => exact absurd (Owner.objectOwner.inj hp).symm huu.ne_hash
  · cases hpc with
    | field =>
      rw [← Owner.objectOwner.inj hp, hl.lookup_market hm'] at hlk
      cases hlk
    | coin => exact absurd (Owner.objectOwner.inj hp).symm huu.ne_hash

/-- A `Field` owns the object it holds, and nothing else. -/
theorem ownedBy_field (hl : Layout ctx w o) {p id v : A} {n : Name A}
    (hx : o.lookup (hashTypeAndKey p n) = some ⟨.objectOwner p, .field n v⟩)
    (h : OwnedBy o id (hashTypeAndKey p n)) : id = v := by
  obtain ⟨x, hlk, hp⟩ := h
  rcases hl.lookup_iff.1 hlk with ⟨hw, rfl⟩ | ⟨hw, rfl⟩ | ⟨hw, hpc⟩ | ⟨hw, hm, hpc⟩
  · exact absurd hp (Holder.toOwner_ne_objectOwner _ _)
  · cases hp
  · cases hpc with
    | field =>
      obtain ⟨coin, hm⟩ := hl.market_of_slot hw
      exact absurd (Owner.objectOwner.inj hp) (hl.used_market hm).ne_hash
    | listing =>
      obtain ⟨rfl, rfl⟩ := AddressSpace.hashTypeAndKey_inj (Owner.objectOwner.inj hp)
      rw [hl.lookup_piece hw .field] at hx
      cases hx
      rfl
    | inner => exact absurd (Owner.objectOwner.inj hp) (hl.used_uid hw).ne_hash
    | item =>
      obtain ⟨rfl, rfl⟩ := AddressSpace.hashTypeAndKey_inj (Owner.objectOwner.inj hp)
      rw [hl.lookup_piece hw .inner] at hx
      cases hx
      rfl
  · cases hpc with
    | field => exact absurd (Owner.objectOwner.inj hp) (hl.used_market hm).ne_hash
    | coin =>
      obtain ⟨rfl, rfl⟩ := AddressSpace.hashTypeAndKey_inj (Owner.objectOwner.inj hp)
      rw [hl.lookup_profitsPiece hw hm .field] at hx
      cases hx
      rfl

end Layout

/-! ## The invariant -/

/-- The representation invariant of a store. -/
structure Custody (o : Objects A) : Prop where
  /-- A key of type `ID` under a marketplace leads to exactly one `Listing`, whose
  only dynamic field is `true`, under which is the object the key names. -/
  listing : ∀ {m k x}, IsMarketplace o m → o.lookup (hashTypeAndKey m (.id k)) = some x →
    ∃ uid ask seller i, x = ⟨.objectOwner m, .field (.id k) uid⟩ ∧
      o.lookup uid = some ⟨.objectOwner (hashTypeAndKey m (.id k)), .listing ask seller⟩ ∧
      (∀ id, OwnedBy o id (hashTypeAndKey m (.id k)) → id = uid) ∧
      o.lookup (hashTypeAndKey uid (.bool true)) =
        some ⟨.objectOwner uid, .field (.bool true) k⟩ ∧
      (∀ id, OwnedBy o id uid → id = hashTypeAndKey uid (.bool true)) ∧
      o.lookup k = some ⟨.objectOwner (hashTypeAndKey uid (.bool true)), .item i⟩ ∧
      ∀ id, OwnedBy o id (hashTypeAndKey uid (.bool true)) → id = k
  /-- A key of type `address` leads to exactly one coin, of the marketplace's own
  currency. -/
  proceeds : ∀ {m s x coin}, o.lookup m = some ⟨.shared, .marketplace coin⟩ →
    o.lookup (hashTypeAndKey m (.address s)) = some x →
    ∃ c : Coin A, x = ⟨.objectOwner m, .field (.address s) c.id⟩ ∧
      o.lookup c.id =
        some ⟨.objectOwner (hashTypeAndKey m (.address s)), .item (.coin coin c.balance)⟩ ∧
      ∀ id, OwnedBy o id (hashTypeAndKey m (.address s)) → id = c.id
  /-- There are no other dynamic fields under a marketplace. -/
  keys : ∀ {m id}, IsMarketplace o m → OwnedBy o id m →
    ∃ a, id = hashTypeAndKey m (.id a) ∨ id = hashTypeAndKey m (.address a)
  /-- Every item is in exactly one place. -/
  place : ∀ {id i}, itemAt o id = some i → ∃! p, IsAt o id p
  /-- And nothing else is in a place. -/
  item : ∀ {id p}, IsAt o id p → ∃ i, itemAt o id = some i
  /-- Everything owned by an object, and every `Listing` and every `Field`, lies
  below exactly one marketplace. -/
  within : ∀ {id x}, o.lookup id = some x →
    ((∃ p, x.owner = .objectOwner p) ∨ (∃ ask seller, x.data = .listing ask seller) ∨
      ∃ n v, x.data = .field n v) → ∃! m, IsMarketplace o m ∧ Within o id m

namespace Layout

variable {ctx : TxContext A} {w : World A} {o : Objects A}

theorem isAt_unique (hl : Layout ctx w o) {id : A} {p p' : Place A} (h : IsAt o id p)
    (h' : IsAt o id p') : p = p' := by
  -- a free object is in no listing and is nobody's proceeds
  have hfree {h : Holder A} {p : Place A} (hf : IsAt o id (.held h)) (hp : IsAt o id p) :
      p = .held h := by
    obtain ⟨i, hf⟩ := hf
    rw [hl.freeAt_eq] at hf
    cases p with
    | held h' =>
      obtain ⟨i', hf'⟩ := hp
      rw [hl.freeAt_eq, hf] at hf'
      cases hf'
      rfl
    | listed m =>
      obtain ⟨L, hL⟩ := hp
      rw [hl.listingAt_eq, hl.slot_none_of_free hf] at hL
      cases hL
    | proceeds m s =>
      obtain ⟨c, hc, rfl⟩ := hp
      rw [hl.profitsAt_eq] at hc
      rw [hl.coin_ne_free hc] at hf
      cases hf
  cases p with
  | held h0 => exact (hfree h h').symm
  | listed m =>
    cases p' with
    | held h0 => exact hfree h' h
    | listed m' =>
      obtain ⟨L, hL⟩ := h
      obtain ⟨L', hL'⟩ := h'
      rw [hl.listingAt_eq] at hL hL'
      rw [hl.market_unique hL hL']
    | proceeds m' s =>
      obtain ⟨L, hL⟩ := h
      obtain ⟨c, hc, hid⟩ := h'
      rw [hl.listingAt_eq] at hL
      rw [hl.profitsAt_eq] at hc
      exact absurd hid (hl.coin_ne_item hc hL)
  | proceeds m s =>
    cases p' with
    | held h0 => exact hfree h' h
    | listed m' =>
      obtain ⟨L, hL⟩ := h'
      obtain ⟨c, hc, hid⟩ := h
      rw [hl.listingAt_eq] at hL
      rw [hl.profitsAt_eq] at hc
      exact absurd hid (hl.coin_ne_item hc hL)
    | proceeds m' s' =>
      obtain ⟨c, hc, hid⟩ := h
      obtain ⟨c', hc', hid'⟩ := h'
      rw [hl.profitsAt_eq] at hc hc'
      obtain ⟨rfl, rfl⟩ := hl.coin_unique hc hc' (hid.trans hid'.symm)
      rfl

theorem exists_isAt (hl : Layout ctx w o) {id : A} {i : Item A} (h : itemAt o id = some i) :
    ∃ p, IsAt o id p := by
  rcases hl.itemAt_cases h with ⟨holder, hf⟩ | ⟨m, L, hw, -⟩ | ⟨m, s, coin, c, hp, -, hid, -⟩
  · exact ⟨.held holder, i, by rw [hl.freeAt_eq, hf]⟩
  · exact ⟨.listed m, L, by rw [hl.listingAt_eq, hw]⟩
  · exact ⟨.proceeds m s, c, by rw [hl.profitsAt_eq, hp], hid⟩

theorem itemAt_of_isAt (hl : Layout ctx w o) {id : A} {p : Place A} (h : IsAt o id p) :
    ∃ i, itemAt o id = some i := by
  cases p with
  | held holder =>
    obtain ⟨i, hf⟩ := h
    exact ⟨i, hl.itemAt_free (hl.freeAt_eq id ▸ hf)⟩
  | listed m =>
    obtain ⟨L, hL⟩ := h
    exact ⟨_, hl.itemAt_slot (hl.listingAt_eq m id ▸ hL)⟩
  | proceeds m s =>
    obtain ⟨c, hc, rfl⟩ := h
    rw [hl.profitsAt_eq] at hc
    obtain ⟨coin, hm⟩ := hl.market_of_profits hc
    exact ⟨_, hl.itemAt_profits hc hm⟩

/-- A store that is laid out is well formed. -/
theorem custody (hl : Layout ctx w o) : Custody o where
  listing := by
    intro m k x hm hx
    obtain ⟨coin, hmk⟩ := hm
    rcases hl.piece_of_hash hx with ⟨k', L, hn, hw, rfl⟩ | ⟨_, _, _, hn, -⟩ | ⟨_, _, hn, -⟩
    · cases hn
      exact ⟨L.uid, L.ask, L.seller, L.item, rfl, hl.lookup_piece hw .listing,
        fun id h => hl.ownedBy_field hx h, hl.lookup_piece hw .inner,
        fun id h => hl.ownedBy_listing hw h, hl.lookup_piece hw .item,
        fun id h => hl.ownedBy_field (hl.lookup_piece hw .inner) h⟩
    · cases hn
    · cases hn
  proceeds := by
    intro m s x coin hm hx
    rcases hl.piece_of_hash hx with ⟨_, _, hn, -⟩ | ⟨_, _, _, hn, -⟩ | ⟨s', c, hn, hp, rfl⟩
    · cases hn
    · cases hn
    · cases hn
      obtain ⟨coin', hd, hmk⟩ := hl.market_of_lookup hm
      cases hd
      exact ⟨c, rfl, hl.lookup_profitsPiece hp hmk .coin, fun id h => hl.ownedBy_field hx h⟩
  keys := by
    intro m id hm h
    obtain ⟨coin, hmk⟩ := hm
    obtain ⟨_, -, hmk⟩ := hl.market_of_lookup hmk
    rcases hl.ownedBy_market hmk h with ⟨k, L, -, rfl⟩ | ⟨s, c, -, rfl⟩
    · exact ⟨k, Or.inl rfl⟩
    · exact ⟨s, Or.inr rfl⟩
  place := by
    intro id i h
    obtain ⟨p, hp⟩ := hl.exists_isAt h
    exact ⟨p, hp, fun p' hp' => hl.isAt_unique hp' hp⟩
  item := fun h => hl.itemAt_of_isAt h
  within := by
    intro id x hx h
    have hown : ∃ p, OwnedBy o id p := by
      rcases h with ⟨p, hp⟩ | h
      · exact ⟨p, x, hx, hp⟩
      · exact hl.ownedBy_of_data hx h
    obtain ⟨p, hp⟩ := hown
    obtain ⟨m, hm, hw⟩ := hl.exists_within hp
    exact ⟨m, ⟨hm, hw⟩, fun m' h' => within_unique h'.1 hm h'.2 hw⟩

end Layout

/-- **Representation invariant and custody.**  Every reachable store is well
formed; and a marketplace whose listings have all left and whose proceeds have
all been taken, as the log has it, has no dynamic fields at all. -/
theorem custodyInvariant {h : List (Entry A)} {c : Chain A} (hc : History h c) :
    Custody c.objects ∧
    ∀ {m}, IsMarketplace c.objects m → (∀ k, (book (deeds m h)).listed k = none) →
      (∀ s, (book (deeds m h)).due s = false) → ∀ id, ¬ OwnedBy c.objects id m := by
  have hl := hc.layout
  refine ⟨hl.custody, ?_⟩
  intro m hm hlisted hdue id hown
  obtain ⟨coin, hmk⟩ := hm
  obtain ⟨_, -, hmk⟩ := hl.market_of_lookup hmk
  obtain ⟨h1, -, h3⟩ := hc.balanced m
  rcases hl.ownedBy_market hmk hown with ⟨k, L, hw, -⟩ | ⟨s, p, hp, -⟩
  · have := h1 k
    rw [hlisted, hl.listingAt_eq, hw] at this
    cases this
  · have := h3 s
    rw [hdue, hl.profitsAt_eq, hp] at this
    cases this

/-- The store while the object of `oneSale` is listed is well formed, and the
object is in its listing. -/
theorem custodyInvariant_listed :
    History (run genesis (oneSale.take 4)).2 (run genesis (oneSale.take 4)).1 ∧
    Custody (run genesis (oneSale.take 4)).1.objects ∧
    (listingAt (run (genesis : Chain Addr) (oneSale.take 4)).1.objects (.derived 1 0)
      (.derived 2 0)).isSome = true :=
  ⟨(run_history _).1, (custodyInvariant (run_history _).1).1, by decide +kernel⟩

end BookMarket
