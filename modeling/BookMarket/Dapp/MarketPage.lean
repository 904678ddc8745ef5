import BookMarket.Lib.ZipFilter
import BookMarket.Chain.Reach

/-!
# The Market page

How `Market.tsx` gets from the dynamic fields of the marketplace to the cards it
draws.  It asks for the fields of the marketplace once, and then for two lists
of objects: those stored under the fields (`deTaskList`), and those the fields
are named after (`deNFTList`).  Both lists lose the answers that have no data,
and the cards pair what is left of them by position.

A seller's address names a field as well, that of the seller's coin.  The coin
is an object like a listing and stays in the first list, while the address is no
object and falls out of the second: from there on the positions do not
correspond any more.

* `getDynamicFields`, `getDynamicFieldObject`, `multiGetObjects` — the RPC.
* `deTaskList`, `deNFTList`, `cards` — the page.
* `ShowsListings` — what the page is for.
* `History.deTaskList_eq`, `History.deNFTList_eq`, `History.cards_eq` — the two
  lists and the cards, in terms of the fields; `History.mem_cards` — the cards when
  the listings come first.
* `marketPage` — **the page is right exactly when no seller's coin comes before a
  listing.**
-/

namespace BookMarket

variable {A : Type} [DecidableEq A]

/-! ## The RPC -/

/-- An entry of `getDynamicFields`: the name of a field, and the identifier of the
object stored under it. -/
structure DynamicFieldInfo (A : Type) where
  name : Name A
  objectId : A
  deriving DecidableEq

/-- What a stored object is, if it is a dynamic field of `parent`. -/
def fieldOf (parent : A) (x : Stored A) : Option (DynamicFieldInfo A) :=
  match x with
  | ⟨.objectOwner p, .field name value⟩ => if p = parent then some ⟨name, value⟩ else none
  | _ => none

/-- The entries `getDynamicFields` has for `parent`, one for each field.  They come
in no particular order. -/
def dynamicFields (o : Objects A) (parent : A) : Multiset (DynamicFieldInfo A) :=
  o.entries.filterMap fun e => fieldOf parent e.2

/-- `getDynamicFields` has answered with `data`. -/
def getDynamicFields (o : Objects A) (parent : A) (data : List (DynamicFieldInfo A)) : Prop :=
  (data : Multiset (DynamicFieldInfo A)) = dynamicFields o parent

instance (o : Objects A) (parent : A) (data : List (DynamicFieldInfo A)) :
    Decidable (getDynamicFields o parent data) :=
  inferInstanceAs (Decidable (_ = _))

/-- The entries are fields of `parent`: an answer of `getDynamicFields`, or a part of
one. -/
def AreFields (o : Objects A) (parent : A) (data : List (DynamicFieldInfo A)) : Prop :=
  ∀ e ∈ data, ∃ id, o.lookup id = some ⟨.objectOwner parent, .field e.name e.objectId⟩

/-- An object as the RPC shows it: the `id` and the other fields. -/
def getObject (o : Objects A) (id : A) : Option (Obj A) :=
  (o.lookup id).map fun x => ⟨id, x.data⟩

/-- `multiGetObjects` answers in the order of the request.  A request with a
`null` in it is malformed and has no answer. -/
def multiGetObjects (o : Objects A) (ids : List (Option A)) : Option (List (Option (Obj A))) :=
  ids.mapM fun id => id.map (getObject o)

variable [AddressSpace A]

/-- `getDynamicFieldObject`. -/
def getDynamicFieldObject (o : Objects A) (parent : A) (name : Name A) : Option (Obj A) :=
  match o.lookup (hashTypeAndKey parent name) with
  | some ⟨_, .field _ value⟩ => getObject o value
  | _ => none

/-! ## The page -/

omit [DecidableEq A] [AddressSpace A] in
/-- The value of a name, as far as it can be the identifier of an object. -/
def Name.value : Name A → Option A
  | .id k => some k
  | .address a => some a
  | .bool _ => none

omit [DecidableEq A] [AddressSpace A] in
def bookMarktypelist (data : List (DynamicFieldInfo A)) : List (Name A) :=
  data.map fun obj => obj.name

omit [DecidableEq A] [AddressSpace A] in
def bookNFTidlist (data : List (DynamicFieldInfo A)) : List (A × Option A) :=
  data.map fun obj => (obj.objectId, obj.name.value)

/-- The answers to the queries `nowNFTlisttype`, one for each field. -/
def tbMarketlistDetails (o : Objects A) (marketid : A) (data : List (DynamicFieldInfo A)) :
    List (Option (Obj A)) :=
  (bookMarktypelist data).map fun name => getDynamicFieldObject o marketid name

omit [DecidableEq A] [AddressSpace A] in
/-- The identifiers of the objects under the fields. -/
def dynamicObjectlist (dataDetails : List (Option (Obj A))) : List (Option A) :=
  dataDetails.map fun obj => obj.map Obj.id

omit [DecidableEq A] [AddressSpace A] in
/-- The identifiers the fields are named after. -/
def obooknftidlist (data : List (DynamicFieldInfo A)) : List (Option A) :=
  (bookNFTidlist data).map Prod.snd

omit [AddressSpace A] in
/-- The contents of those objects a request found. -/
def contents (o : Objects A) (ids : List (Option A)) : Option (List (Obj A)) :=
  (multiGetObjects o ids).map fun objs => objs.filterMap id

def deTaskList (o : Objects A) (marketid : A) (data : List (DynamicFieldInfo A)) :
    Option (List (Obj A)) :=
  contents o (dynamicObjectlist (tbMarketlistDetails o marketid data))

omit [AddressSpace A] in
def deNFTList (o : Objects A) (data : List (DynamicFieldInfo A)) : Option (List (Obj A)) :=
  contents o (obooknftidlist data)

/-- The cards: for each entry of `deTaskList` the entry of `deNFTList` with the same
index, if there is one. -/
def cards (o : Objects A) (marketid : A) (data : List (DynamicFieldInfo A)) :
    List (Obj A × Obj A) :=
  match deTaskList o marketid data, deNFTList o data with
  | some tasks, some nfts =>
    tasks.zipIdx.filterMap fun p => (nfts[p.2]?).map fun nft => (p.1, nft)
  | _, _ => []

/-- What the page is for: one card for each listing of the marketplace, with the
fields of the listing and those of its own item. -/
def ShowsListings (o : Objects A) (marketid : A) (shown : List (Obj A × Obj A)) : Prop :=
  shown.Nodup ∧ ∀ card, card ∈ shown ↔ ∃ k L, listingAt o marketid k = some L ∧
    card = (⟨L.uid, .listing L.ask L.seller⟩, ⟨k, .item L.item⟩)

/-! ## The fields of a marketplace -/

omit [AddressSpace A] in
theorem fieldOf_eq_some {parent : A} {x : Stored A} {e : DynamicFieldInfo A} :
    fieldOf parent x = some e ↔ x = ⟨.objectOwner parent, .field e.name e.objectId⟩ := by
  obtain ⟨owner, d⟩ := x
  obtain ⟨name, objectId⟩ := e
  cases owner with
  | objectOwner p =>
    cases d with
    | field n v => by_cases hp : p = parent <;> simp [fieldOf, hp]
    | _ => simp [fieldOf]
  | _ => simp [fieldOf]

omit [AddressSpace A] in
theorem getDynamicFields.mem_iff {o : Objects A} {parent : A} {data : List (DynamicFieldInfo A)}
    (h : getDynamicFields o parent data) {e : DynamicFieldInfo A} :
    e ∈ data ↔ ∃ id, o.lookup id = some ⟨.objectOwner parent, .field e.name e.objectId⟩ := by
  have hmem : e ∈ data ↔ e ∈ dynamicFields o parent := by rw [← h]; rfl
  rw [hmem, dynamicFields, Multiset.mem_filterMap]
  constructor
  · rintro ⟨⟨id, x⟩, hx, hf⟩
    exact ⟨id, (fieldOf_eq_some.1 hf) ▸ Finmap.mem_lookup_iff.2 hx⟩
  · rintro ⟨id, hid⟩
    exact ⟨⟨id, _⟩, Finmap.mem_lookup_iff.1 hid, fieldOf_eq_some.2 rfl⟩

omit [AddressSpace A] in
theorem getDynamicFields.areFields {o : Objects A} {parent : A}
    {data : List (DynamicFieldInfo A)} (h : getDynamicFields o parent data) :
    AreFields o parent data :=
  fun _ he => h.mem_iff.1 he

namespace Layout

variable {ctx : TxContext A} {w : World A} {o : Objects A} {m : A} {coin : TypeTag}

/-- The fields of a marketplace are those of its listings and of its sellers. -/
theorem field_cases (hl : Layout ctx w o) (hm : w.markets m = some coin) {id : A} {n : Name A}
    {v : A} (h : o.lookup id = some ⟨.objectOwner m, .field n v⟩) :
    id = hashTypeAndKey m n ∧ ((∃ k L, w.slots (m, k) = some L ∧ n = .id k ∧ v = L.uid) ∨
      ∃ s p, w.profits (m, s) = some p ∧ n = .address s ∧ v = p.id) := by
  rcases hl.lookup_iff.1 h with ⟨hw, hx⟩ | ⟨hw, hx⟩ | ⟨hw, hx⟩ | ⟨hw, hm', hx⟩
  · injection hx with h1 h2
    cases h2
  · cases hx
  · cases hx with
    | field => exact ⟨rfl, Or.inl ⟨_, _, hw, rfl, rfl⟩⟩
    | inner =>
      -- a listing is no marketplace
      have ho := hl.lookup_piece hw .listing
      rw [hl.lookup_market hm] at ho
      cases ho
  · cases hx with
    | field => exact ⟨rfl, Or.inr ⟨_, _, hw, rfl, rfl⟩⟩

/-- No field comes twice. -/
theorem nodup_dynamicFields (hl : Layout ctx w o) (hm : w.markets m = some coin) :
    (dynamicFields o m).Nodup := by
  obtain ⟨l, hlist⟩ := Quot.exists_rep o.entries
  have hlist : (l : Multiset (Sigma fun _ : A => Stored A)) = o.entries := hlist
  have hnodup : l.Nodup := by
    rw [← Multiset.coe_nodup, hlist]
    exact o.nodup_entries
  have hmem {e : Sigma fun _ : A => Stored A} (he : e ∈ l) : o.lookup e.1 = some e.2 := by
    have : e ∈ o.entries := by rw [← hlist]; exact he
    exact Finmap.mem_lookup_iff.2 this
  rw [dynamicFields, ← hlist, Multiset.filterMap_coe, Multiset.coe_nodup]
  refine ZipFilter.nodup_filterMap hnodup ?_
  rintro ⟨id, x⟩ ⟨id', x'⟩ b he he' hb hb'
  obtain rfl := fieldOf_eq_some.1 hb
  obtain rfl := fieldOf_eq_some.1 hb'
  have hid : id = id' :=
    (hl.field_cases hm (hmem he)).1.trans (hl.field_cases hm (hmem he')).1.symm
  rw [hid]

end Layout

/-! ## The two lists -/

omit [AddressSpace A] in
/-- A request for objects, without a `null` in it. -/
theorem contents_eq (o : Objects A) {ids : List (Option A)} (h : ∀ id ∈ ids, id.isSome) :
    contents o ids = some (ids.filterMap fun id => id.bind (getObject o)) := by
  have hmulti : multiGetObjects o ids = some (ids.map fun id => id.bind (getObject o)) := by
    unfold multiGetObjects
    induction ids with
    | nil => rfl
    | cons id ids ih =>
      obtain ⟨a, rfl⟩ := Option.isSome_iff_exists.1 (h id (by simp))
      rw [List.mapM_cons, ih fun id' h' => h id' (by simp [h'])]
      rfl
  rw [contents, hmulti, Option.map_some, List.filterMap_map]
  rfl

/-- The object under a field, and the object it is named after. -/
def taskOf (o : Objects A) (marketid : A) (e : DynamicFieldInfo A) : Option (Obj A) :=
  ((getDynamicFieldObject o marketid e.name).map Obj.id).bind (getObject o)

omit [AddressSpace A] in
def nftOf (o : Objects A) (e : DynamicFieldInfo A) : Option (Obj A) :=
  e.name.value.bind (getObject o)

section Fields

variable {h : List (Entry A)} {c : Chain A} {m : A} {coin : TypeTag}
  {data : List (DynamicFieldInfo A)}

/-- The field of a listing. -/
theorem History.listing_entry (hc : History h c) {k : A} {L : Slot A}
    (hL : listingAt c.objects m k = some L) :
    taskOf c.objects m ⟨.id k, L.uid⟩ = some ⟨L.uid, .listing L.ask L.seller⟩ ∧
      nftOf c.objects ⟨.id k, L.uid⟩ = some ⟨k, .item L.item⟩ := by
  have hl := hc.layout
  have hw : (worldOf c.objects).slots (m, k) = some L := hL
  constructor
  · simp [taskOf, getDynamicFieldObject, hl.lookup_piece hw .field, getObject,
      hl.lookup_piece hw .listing]
  · simp [nftOf, Name.value, getObject, hl.lookup_piece hw .item]

/-- The field of a seller. -/
theorem History.proceeds_entry (hc : History h c) (hm : marketAt c.objects m = some coin) {s : A}
    {p : Coin A} (hp : profitsAt c.objects m s = some p) (hs : c.objects.lookup s = none) :
    taskOf c.objects m ⟨.address s, p.id⟩ = some ⟨p.id, .item (.coin coin p.balance)⟩ ∧
      nftOf c.objects ⟨.address s, p.id⟩ = none := by
  have hl := hc.layout
  have hw : (worldOf c.objects).profits (m, s) = some p := hp
  constructor
  · simp [taskOf, getDynamicFieldObject, hl.lookup_profitsPiece hw hm .field, getObject,
      hl.lookup_profitsPiece hw hm .coin]
  · simp [nftOf, Name.value, getObject, hs]

/-- **A field of a marketplace** is that of a listing or of a seller. -/
theorem History.field_cases (hc : History h c) (hm : marketAt c.objects m = some coin)
    (hf : AreFields c.objects m data) {e : DynamicFieldInfo A} (he : e ∈ data) :
    (∃ k L, listingAt c.objects m k = some L ∧ e = ⟨.id k, L.uid⟩) ∨
      ∃ s p, profitsAt c.objects m s = some p ∧ e = ⟨.address s, p.id⟩ := by
  obtain ⟨id, hid⟩ := hf e he
  obtain ⟨name, objectId⟩ := e
  rcases (hc.layout.field_cases hm hid).2 with ⟨k, L, hw, rfl, rfl⟩ | ⟨s, p, hp, rfl, rfl⟩
  · exact Or.inl ⟨k, L, hw, rfl⟩
  · exact Or.inr ⟨s, p, hp, rfl⟩

/-- And every listing and every seller has one. -/
theorem History.mem_fields (hc : History h c) (hm : marketAt c.objects m = some coin)
    (hd : getDynamicFields c.objects m data) {e : DynamicFieldInfo A} :
    e ∈ data ↔ (∃ k L, listingAt c.objects m k = some L ∧ e = ⟨.id k, L.uid⟩) ∨
      ∃ s p, profitsAt c.objects m s = some p ∧ e = ⟨.address s, p.id⟩ := by
  have hl := hc.layout
  refine ⟨hc.field_cases hm hd.areFields, ?_⟩
  rw [hd.mem_iff]
  rintro (⟨k, L, hw, rfl⟩ | ⟨s, p, hp, rfl⟩)
  · have hw' : (worldOf c.objects).slots (m, k) = some L := hw
    exact ⟨_, hl.lookup_piece hw' .field⟩
  · have hp' : (worldOf c.objects).profits (m, s) = some p := hp
    exact ⟨_, hl.lookup_profitsPiece hp' hm .field⟩

/-- No field comes twice in the answer. -/
theorem History.nodup_fields (hc : History h c) (hm : marketAt c.objects m = some coin)
    (hd : getDynamicFields c.objects m data) : data.Nodup := by
  rw [← Multiset.coe_nodup, hd]
  exact hc.layout.nodup_dynamicFields hm

variable (hc : History h c) (hm : marketAt c.objects m = some coin)
  (hsellers : ∀ {s p}, profitsAt c.objects m s = some p → c.objects.lookup s = none)
  (hf : AreFields c.objects m data)

include hc hm hsellers hf

/-- There is an object under every field, and it is named after one exactly if it
is a listing's. -/
theorem History.entry {e : DynamicFieldInfo A} (he : e ∈ data) :
    (taskOf c.objects m e).isSome ∧ e.name.value.isSome ∧
      ((nftOf c.objects e).isSome ↔ e.name.type = .id) := by
  rcases hc.field_cases hm hf he with ⟨k, L, hL, rfl⟩ | ⟨s, p, hp, rfl⟩
  · obtain ⟨h1, h2⟩ := hc.listing_entry hL
    rw [h1, h2]
    simp [Name.value, Name.type]
  · obtain ⟨h1, h2⟩ := hc.proceeds_entry hm hp (hsellers hp)
    rw [h1, h2]
    simp [Name.value, Name.type]

/-! The two lists and the cards, in terms of the fields. -/

theorem History.deTaskList_eq :
    deTaskList c.objects m data = some (data.filterMap (taskOf c.objects m)) := by
  have hids : ∀ id ∈ dynamicObjectlist (tbMarketlistDetails c.objects m data), id.isSome := by
    simp only [dynamicObjectlist, tbMarketlistDetails, bookMarktypelist, List.map_map,
      List.mem_map]
    rintro id ⟨e, he, rfl⟩
    have htask := (hc.entry hm hsellers hf he).1
    simp only [taskOf, Option.isSome_bind] at htask
    exact Option.isSome_of_any htask
  rw [deTaskList, contents_eq _ hids]
  simp only [dynamicObjectlist, tbMarketlistDetails, bookMarktypelist, List.map_map,
    List.filterMap_map]
  rfl

theorem History.deNFTList_eq :
    deNFTList c.objects data = some (data.filterMap (nftOf c.objects)) := by
  have hids : ∀ id ∈ obooknftidlist data, id.isSome := by
    simp only [obooknftidlist, bookNFTidlist, List.map_map, List.mem_map]
    rintro id ⟨e, he, rfl⟩
    exact (hc.entry hm hsellers hf he).2.1
  rw [deNFTList, contents_eq _ hids]
  simp only [obooknftidlist, bookNFTidlist, List.map_map, List.filterMap_map]
  rfl

theorem History.cards_eq : cards c.objects m data =
    (data.filterMap (taskOf c.objects m)).zip (data.filterMap (nftOf c.objects)) := by
  rw [cards, hc.deTaskList_eq hm hsellers hf, hc.deNFTList_eq hm hsellers hf]
  exact ZipFilter.zipIdx_filterMap _ _

/-- The rows that have an item come first exactly if the listings do. -/
theorem History.sorted_iff : ZipFilter.Sorted (nftOf c.objects) data ↔
    data.Pairwise fun e e' => e'.name.type = .id → e.name.type = .id := by
  refine List.Pairwise.iff_of_mem fun {e e'} he he' => ?_
  rw [(hc.entry hm hsellers hf he).2.2, (hc.entry hm hsellers hf he').2.2]

/-- When the listings come first, the cards are those of the listings among the
fields. -/
theorem History.mem_cards
    (hs : data.Pairwise fun e e' => e'.name.type = .id → e.name.type = .id)
    {card : Obj A × Obj A} : card ∈ cards c.objects m data ↔
      ∃ k L, ⟨.id k, L.uid⟩ ∈ data ∧ listingAt c.objects m k = some L ∧
        card = (⟨L.uid, .listing L.ask L.seller⟩, ⟨k, .item L.item⟩) := by
  rw [hc.cards_eq hm hsellers hf, ZipFilter.zip_filterMap_eq
    (fun e he => (hc.entry hm hsellers hf he).1) ((hc.sorted_iff hm hsellers hf).2 hs),
    ZipFilter.mem_pairing]
  constructor
  · rintro ⟨e, he, htask, hnft⟩
    rcases hc.field_cases hm hf he with ⟨k, L, hL, rfl⟩ | ⟨s, p, hp, rfl⟩
    · obtain ⟨h1, h2⟩ := hc.listing_entry hL
      refine ⟨k, L, he, hL, Prod.ext ?_ ?_⟩
      · exact Option.some.inj (htask.symm.trans h1)
      · exact Option.some.inj (hnft.symm.trans h2)
    · rw [(hc.proceeds_entry hm hp (hsellers hp)).2] at hnft
      cases hnft
  · rintro ⟨k, L, he, hL, rfl⟩
    exact ⟨_, he, hc.listing_entry hL⟩

/-- Nor does a card come twice. -/
theorem History.nodup_cards (hnodup : data.Nodup)
    (hs : data.Pairwise fun e e' => e'.name.type = .id → e.name.type = .id) :
    (cards c.objects m data).Nodup := by
  rw [hc.cards_eq hm hsellers hf, ZipFilter.zip_filterMap_eq
    (fun e he => (hc.entry hm hsellers hf he).1) ((hc.sorted_iff hm hsellers hf).2 hs)]
  -- a card tells which field it comes from
  have hrow {e : DynamicFieldInfo A} {card : Obj A × Obj A} (he : e ∈ data)
      (h : ((taskOf c.objects m e).bind fun b => (nftOf c.objects e).map fun c => (b, c)) =
        some card) : e = ⟨.id card.2.id, card.1.id⟩ := by
    rcases hc.field_cases hm hf he with ⟨k, L, hL, rfl⟩ | ⟨s, p, hp, rfl⟩
    · obtain ⟨h1, h2⟩ := hc.listing_entry hL
      rw [h1, h2] at h
      cases h
      rfl
    · rw [(hc.proceeds_entry hm hp (hsellers hp)).2] at h
      simp at h
  refine ZipFilter.nodup_filterMap hnodup ?_
  intro e e' card he he' h h'
  rw [hrow he h, hrow he' h']

omit hf in
/-- The page is right when the listings come first. -/
theorem History.showsListings (hd : getDynamicFields c.objects m data)
    (hs : data.Pairwise fun e e' => e'.name.type = .id → e.name.type = .id) :
    ShowsListings c.objects m (cards c.objects m data) := by
  refine ⟨hc.nodup_cards hm hsellers hd.areFields (hc.nodup_fields hm hd) hs, fun card => ?_⟩
  rw [hc.mem_cards hm hsellers hd.areFields hs]
  constructor
  · rintro ⟨k, L, -, hL, rfl⟩
    exact ⟨k, L, hL, rfl⟩
  · rintro ⟨k, L, hL, rfl⟩
    exact ⟨k, L, (hc.mem_fields hm hd).2 (Or.inl ⟨k, L, hL, rfl⟩), hL, rfl⟩

/-- And wrong when they do not: it draws a card for a seller's coin. -/
theorem History.sorted_of_showsListings
    (hs : ShowsListings c.objects m (cards c.objects m data)) :
    data.Pairwise fun e e' => e'.name.type = .id → e.name.type = .id := by
  rw [← hc.sorted_iff hm hsellers hf]
  by_contra hne
  obtain ⟨e, he, hnft, card, hcard, htask⟩ :=
    ZipFilter.exists_mem_zip (fun e he => (hc.entry hm hsellers hf he).1) hne
  rw [← hc.cards_eq hm hsellers hf] at hcard
  obtain ⟨k, L, hL, rfl⟩ := (hs.2 card).1 hcard
  rcases hc.field_cases hm hf he with ⟨k', L', hL', rfl⟩ | ⟨s, p, hp, rfl⟩
  · rw [(hc.listing_entry hL').2] at hnft
    cases hnft
  · rw [(hc.proceeds_entry hm hp (hsellers hp)).1] at htask
    cases congrArg Obj.data (Option.some.inj htask)

end Fields

/-- Without proceeds there is a card for each of the fields. -/
theorem History.mem_cards_of_noProfits {h : List (Entry A)} {c : Chain A} (hc : History h c)
    {m : A} {coin : TypeTag} (hm : marketAt c.objects m = some coin)
    (hno : ∀ s, profitsAt c.objects m s = none) {data : List (DynamicFieldInfo A)}
    (hf : AreFields c.objects m data) {card : Obj A × Obj A} :
    card ∈ cards c.objects m data ↔
      ∃ k L, ⟨.id k, L.uid⟩ ∈ data ∧ listingAt c.objects m k = some L ∧
        card = (⟨L.uid, .listing L.ask L.seller⟩, ⟨k, .item L.item⟩) := by
  have hsellers {s : A} {p : Coin A} (hp : profitsAt c.objects m s = some p) :
      c.objects.lookup s = none := by
    rw [hno s] at hp
    cases hp
  refine hc.mem_cards hm hsellers hf ?_
  -- every field is that of a listing
  refine List.pairwise_of_forall_mem_list fun e he e' _ _ => ?_
  rcases hc.field_cases hm hf he with ⟨k, L, -, rfl⟩ | ⟨s, p, hp, rfl⟩
  · rfl
  · rw [hno s] at hp
    cases hp

/-- **The page is right exactly when no seller's coin comes before a listing.**  For
every reachable state and every order in which the fields of the marketplace are
listed (no seller having the address of an object): the cards are those of the
listings, one for one and each with its own item, if and only if no field of a
seller comes before that of a listing.  So they are right in every order if and
only if the marketplace has no listings, or no proceeds to be collected. -/
theorem marketPage {h : List (Entry A)} {c : Chain A} (hc : History h c) {m : A} {coin : TypeTag}
    (hm : marketAt c.objects m = some coin)
    (hsellers : ∀ {s p}, profitsAt c.objects m s = some p → c.objects.lookup s = none) :
    (∀ data, getDynamicFields c.objects m data →
      (ShowsListings c.objects m (cards c.objects m data) ↔
        data.Pairwise fun e e' => e'.name.type = .id → e.name.type = .id)) ∧
    ((∀ data, getDynamicFields c.objects m data →
        ShowsListings c.objects m (cards c.objects m data)) ↔
      (∀ k, listingAt c.objects m k = none) ∨ ∀ s, profitsAt c.objects m s = none) := by
  have hiff (data : List (DynamicFieldInfo A)) (hd : getDynamicFields c.objects m data) :
      ShowsListings c.objects m (cards c.objects m data) ↔
        data.Pairwise fun e e' => e'.name.type = .id → e.name.type = .id :=
    ⟨hc.sorted_of_showsListings hm hsellers hd.areFields, hc.showsListings hm hsellers hd⟩
  refine ⟨hiff, ?_, ?_⟩
  · intro hall
    by_contra hne
    rw [not_or, not_forall, not_forall] at hne
    obtain ⟨⟨k, hk⟩, s, hs⟩ := hne
    obtain ⟨L, hL⟩ := Option.ne_none_iff_exists'.1 hk
    obtain ⟨p, hp⟩ := Option.ne_none_iff_exists'.1 hs
    -- put the seller's field first
    obtain ⟨data, hd⟩ := Quot.exists_rep (dynamicFields c.objects m)
    have hd : getDynamicFields c.objects m data := hd
    have hseller := (hc.mem_fields hm hd).2 (Or.inr ⟨s, p, hp, rfl⟩)
    have hlisting := (hc.mem_fields hm hd).2 (Or.inl ⟨k, L, hL, rfl⟩)
    have hperm := List.perm_cons_erase hseller
    have hd' : getDynamicFields c.objects m (_ :: data.erase ⟨.address s, p.id⟩) :=
      (Multiset.coe_eq_coe.2 hperm.symm).trans hd
    have hsorted := (List.pairwise_cons.1 ((hiff _ hd').1 (hall _ hd'))).1 ⟨.id k, L.uid⟩
      ((List.mem_erase_of_ne (by simp)).2 hlisting) rfl
    cases hsorted
  · intro hor data hd
    refine (hiff data hd).2 (List.pairwise_of_forall_mem_list fun e he e' he' ht => ?_)
    rcases hor with hlist | hprofits
    · rcases (hc.mem_fields hm hd).1 he' with ⟨k, L, hL, rfl⟩ | ⟨s, p, hp, rfl⟩
      · rw [hlist k] at hL
        cases hL
      · cases ht
    · rcases (hc.mem_fields hm hd).1 he with ⟨k, L, hL, rfl⟩ | ⟨s, p, hp, rfl⟩
      · rfl
      · rw [hprofits s] at hp
        cases hp

/-- User 1 lists two objects, for 5 and for 7; user 2 buys the first, and user 1 has
not collected the money yet. -/
def saleAndListing : List (Tx Addr) :=
  [⟨.user 1, [], [.create .sui]⟩,
   ⟨.user 1, [], [.otherNew 0 [7], .otherNew 0 [8], .publicTransfer (.derived 2 0) (.user 1),
     .publicTransfer (.derived 2 1) (.user 1)]⟩,
   ⟨.user 2, [], [.createCurrency .sui, .coinMint .sui (.derived 3 0) 5,
     .publicTransfer (.derived 3 0) (.user 2), .publicTransfer (.derived 3 1) (.user 2)]⟩,
   ⟨.user 1, [.derived 2 0, .derived 2 1],
     [.list (.other 0) .sui (.derived 1 0) (.derived 2 0) 5,
      .list (.other 0) .sui (.derived 1 0) (.derived 2 1) 7]⟩,
   ⟨.user 2, [.derived 3 1],
     [.buyAndTake (.other 0) .sui (.derived 1 0) (.derived 2 0) (.derived 3 1)]⟩]

/-- The field of the listing, and that of the seller. -/
def listingFirst : List (DynamicFieldInfo Addr) :=
  [⟨.id (.derived 2 1), .derived 4 1⟩, ⟨.address (.user 1), .derived 3 1⟩]

theorem saleAndListing_sellers {s : Addr} {p : Coin Addr}
    (hp : profitsAt (run genesis saleAndListing).1.objects (.derived 1 0) s = some p) :
    (run genesis saleAndListing).1.objects.lookup s = none := by
  have hc := (run_history saleAndListing).1
  have hm : marketAt (run genesis saleAndListing).1.objects (.derived 1 0) = some .sui := by
    decide +kernel
  have hd : getDynamicFields (run genesis saleAndListing).1.objects (.derived 1 0) listingFirst := by
    decide +kernel
  have hmem := (hc.mem_fields hm hd).2 (Or.inr ⟨s, p, hp, rfl⟩)
  obtain ⟨rfl, -⟩ : s = .user 1 ∧ p.id = .derived 3 1 := by simpa [listingFirst] using hmem
  decide +kernel

/-- With the listing first the page is right. -/
theorem marketPage_listingFirst :
    ShowsListings (run genesis saleAndListing).1.objects (.derived 1 0)
      (cards (run genesis saleAndListing).1.objects (.derived 1 0) listingFirst) := by
  have hc := (run_history saleAndListing).1
  have hm : marketAt (run genesis saleAndListing).1.objects (.derived 1 0) = some .sui := by
    decide +kernel
  exact ((marketPage hc hm saleAndListing_sellers).1 listingFirst (by decide +kernel)).2 (by decide)

/-- With the seller's field first it shows the money as a listing of the item that
is still on sale. -/
theorem marketPage_wrong :
    History (run genesis saleAndListing).2 (run genesis saleAndListing).1 ∧
    marketAt (run genesis saleAndListing).1.objects (.derived 1 0) = some .sui ∧
    (∀ {s p}, profitsAt (run genesis saleAndListing).1.objects (.derived 1 0) s = some p →
      (run genesis saleAndListing).1.objects.lookup s = none) ∧
    getDynamicFields (run genesis saleAndListing).1.objects (.derived 1 0) listingFirst.reverse ∧
    cards (run genesis saleAndListing).1.objects (.derived 1 0) listingFirst.reverse =
      [(⟨.derived 3 1, .item (.coin .sui 5)⟩, ⟨.derived 2 1, .item (.other 0 [8])⟩)] ∧
    ¬ ShowsListings (run genesis saleAndListing).1.objects (.derived 1 0)
      (cards (run genesis saleAndListing).1.objects (.derived 1 0) listingFirst.reverse) := by
  have hcards : cards (run genesis saleAndListing).1.objects (.derived 1 0) listingFirst.reverse =
      [(⟨.derived 3 1, .item (.coin .sui 5)⟩, ⟨.derived 2 1, .item (.other 0 [8])⟩)] := by
    decide +kernel
  refine ⟨(run_history saleAndListing).1, by decide +kernel, saleAndListing_sellers,
    by decide +kernel, hcards, ?_⟩
  rw [hcards]
  rintro ⟨-, hmem⟩
  obtain ⟨k, L, -, hcard⟩ := (hmem _).1 (List.mem_singleton.2 rfl)
  cases congrArg (fun card => card.1.data) hcard

end BookMarket
