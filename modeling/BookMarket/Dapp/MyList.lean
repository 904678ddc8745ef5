import BookMarket.Dapp.MarketPage

/-!
# MyList

The second half of `Market.tsx` shows the connected account its own listings, to
take them back.  `ListedData` picks them out of the objects under the fields by
their owner; `ListnftidData` finds the fields they are under by their identifier;
and `ListnftData` picks the items those fields are named after.  The cards then
pair `ListedData` and `ListnftData` by position.

Three filters through a third list, and still the positions correspond, also when
there is money of sellers among the fields: a coin has no owner, so its row is
dropped from the first list, and it has never been in the second.

* `listedData`, `listnftidData`, `listnftData` — the page.
* `Layout.uid_unique`, `Layout.coin_ne_uid` — no two fields of a marketplace have
  the same object.
* `myList` — **MyList pairs each listing of the account with its own item.**
-/

namespace BookMarket

variable {A : Type} [DecidableEq A]

/-! ## The page -/

omit [DecidableEq A] in
/-- The field `owner` of an object; it is undefined unless the object is a
listing. -/
def Obj.owner (obj : Obj A) : Option A :=
  match obj.data with
  | .listing _ owner => some owner
  | _ => none

variable [AddressSpace A]

def listedData (o : Objects A) (marketid account : A) (data : List (DynamicFieldInfo A)) :
    Option (List (Obj A)) :=
  (deTaskList o marketid data).map fun tasks => tasks.filter fun item => item.owner = some account

def listnftidData (o : Objects A) (marketid account : A) (data : List (DynamicFieldInfo A)) :
    List (A × Option A) :=
  (bookNFTidlist data).filter fun item =>
    match listedData o marketid account data with
    | some listed => listed.any fun listedItem => listedItem.id = item.1
    | none => false

def listnftData (o : Objects A) (marketid account : A) (data : List (DynamicFieldInfo A)) :
    Option (List (Obj A)) :=
  (deNFTList o data).map fun nfts => nfts.filter fun item =>
    (listnftidData o marketid account data).any fun listedItem => listedItem.2 = some item.id

/-! ## Fields and their objects -/

namespace Layout

variable {ctx : TxContext A} {w : World A} {o : Objects A} {m : A}

/-- Two listings are two objects. -/
theorem uid_unique (hl : Layout ctx w o) {k k' : A} {L L' : Slot A}
    (hw : w.slots (m, k) = some L) (hw' : w.slots (m, k') = some L') (hid : L.uid = L'.uid) :
    k = k' := by
  have ho := hl.lookup_piece hw .listing
  rw [hid, hl.lookup_piece hw' .listing, Option.some.injEq] at ho
  exact (hl.slot_unique hw hw' .listing (by rw [hid, ← ho]; exact .listing)).2

/-- A listing is no coin. -/
theorem coin_ne_uid (hl : Layout ctx w o) {k s : A} {L : Slot A} {p : Coin A}
    (hw : w.slots (m, k) = some L) (hp : w.profits (m, s) = some p) : p.id ≠ L.uid := by
  intro hid
  obtain ⟨coin, hm⟩ := hl.market_of_profits hp
  have ho := hl.lookup_piece hw .listing
  rw [← hid, hl.lookup_profitsPiece hp hm .coin, Option.some.injEq] at ho
  cases congrArg Stored.data ho

end Layout

/-! ## The rows of the account -/

/-- The field is that of a listing of `account`. -/
def mine (o : Objects A) (marketid account : A) (e : DynamicFieldInfo A) : Bool :=
  (taskOf o marketid e).bind Obj.owner = some account

section Rows

variable {h : List (Entry A)} {c : Chain A} {m : A} {coin : TypeTag}
  {data : List (DynamicFieldInfo A)} (account : A)
  (hc : History h c) (hm : marketAt c.objects m = some coin)
  (hsellers : ∀ {s p}, profitsAt c.objects m s = some p → c.objects.lookup s = none)
  (hf : AreFields c.objects m data)

include hc hm hsellers hf

theorem History.mine_iff {e : DynamicFieldInfo A} (he : e ∈ data) :
    mine c.objects m account e = true ↔
      ∃ k L, listingAt c.objects m k = some L ∧ L.seller = account ∧ e = ⟨.id k, L.uid⟩ := by
  rw [mine, decide_eq_true_eq]
  constructor
  · intro hmine
    rcases hc.field_cases hm hf he with ⟨k, L, hL, rfl⟩ | ⟨s, p, hp, rfl⟩
    · rw [(hc.listing_entry hL).1] at hmine
      exact ⟨k, L, hL, Option.some.inj hmine, rfl⟩
    · rw [(hc.proceeds_entry hm hp (hsellers hp)).1] at hmine
      cases hmine
  · rintro ⟨k, L, hL, rfl, rfl⟩
    rw [(hc.listing_entry hL).1]
    rfl

/-- `ListedData` are the objects under the rows of the account. -/
theorem History.listedData_eq : listedData c.objects m account data =
    some ((data.filter (mine c.objects m account)).filterMap (taskOf c.objects m)) := by
  rw [listedData, hc.deTaskList_eq hm hsellers hf, Option.map_some, ZipFilter.filter_filterMap_eq]
  intro e he task htask
  simp [mine, htask]

/-- `ListnftidData` are the rows of the account. -/
theorem History.listnftidData_eq : listnftidData c.objects m account data =
    bookNFTidlist (data.filter (mine c.objects m account)) := by
  rw [listnftidData, bookNFTidlist, bookNFTidlist, List.filter_map,
    hc.listedData_eq account hm hsellers hf]
  congr 1
  refine List.filter_congr fun e he => ?_
  rw [Bool.eq_iff_iff, hc.mine_iff account hm hsellers hf he]
  simp only [Function.comp_apply, List.any_eq_true, List.mem_filterMap, List.mem_filter,
    decide_eq_true_eq]
  constructor
  · -- an object of the account under this field: the row it comes from is this one
    rintro ⟨task, ⟨e', ⟨he', hmine⟩, htask⟩, hid⟩
    obtain ⟨k, L, hL, hs, rfl⟩ := (hc.mine_iff account hm hsellers hf he').1 hmine
    rw [(hc.listing_entry hL).1] at htask
    cases htask
    rcases hc.field_cases hm hf he with ⟨k', L', hL', rfl⟩ | ⟨s, p, hp, rfl⟩
    · obtain rfl := hc.layout.uid_unique hL hL' hid
      exact ⟨k, L', hL', by cases hL.symm.trans hL'; exact hs, rfl⟩
    · exact absurd hid.symm (hc.layout.coin_ne_uid hL hp)
  · rintro ⟨k, L, hL, hs, rfl⟩
    exact ⟨_, ⟨_, ⟨he, (hc.mine_iff account hm hsellers hf he).2 ⟨k, L, hL, hs, rfl⟩⟩,
      (hc.listing_entry hL).1⟩, rfl⟩

/-- `ListnftData` are the items the rows of the account are named after. -/
theorem History.listnftData_eq : listnftData c.objects m account data =
    some ((data.filter (mine c.objects m account)).filterMap (nftOf c.objects)) := by
  rw [listnftData, hc.deNFTList_eq hm hsellers hf, Option.map_some, ZipFilter.filter_filterMap_eq]
  intro e he nft hnft
  rw [Bool.eq_iff_iff, hc.mine_iff account hm hsellers hf he,
    hc.listnftidData_eq account hm hsellers hf]
  simp only [bookNFTidlist, List.any_map, List.any_eq_true, List.mem_filter, Function.comp_apply,
    decide_eq_true_eq]
  rcases hc.field_cases hm hf he with ⟨k, L, hL, rfl⟩ | ⟨s, p, hp, rfl⟩
  · rw [(hc.listing_entry hL).2] at hnft
    cases hnft
    constructor
    · rintro ⟨e', ⟨he', hmine⟩, hname⟩
      obtain ⟨k', L', hL', hs, rfl⟩ := (hc.mine_iff account hm hsellers hf he').1 hmine
      obtain rfl : k' = k := Option.some.inj hname
      cases hL.symm.trans hL'
      exact ⟨k', L, hL, hs, rfl⟩
    · intro hmine
      exact ⟨_, ⟨he, (hc.mine_iff account hm hsellers hf he).2 hmine⟩, rfl⟩
  · rw [(hc.proceeds_entry hm hp (hsellers hp)).2] at hnft
    cases hnft

/-- Every row of the account has an object under it and an item it is named after. -/
theorem History.mine_isSome {e : DynamicFieldInfo A}
    (he : e ∈ data.filter (mine c.objects m account)) :
    (taskOf c.objects m e).isSome ∧ (nftOf c.objects e).isSome := by
  obtain ⟨he, hmine⟩ := List.mem_filter.1 he
  obtain ⟨k, L, hL, -, rfl⟩ := (hc.mine_iff account hm hsellers hf he).1 hmine
  obtain ⟨h1, h2⟩ := hc.listing_entry hL
  rw [h1, h2]
  exact ⟨rfl, rfl⟩

end Rows

/-- **MyList pairs each listing of the account with its own item.**  For every
reachable state, every order in which the fields of the marketplace are listed (no
seller having the address of an object) and every account: `ListedData` and
`ListnftData` have the same length, `ListedData` has exactly the listings of the
account, each once, and what is at the same position in both is a listing and the
item escrowed under it. -/
theorem myList {h : List (Entry A)} {c : Chain A} (hc : History h c) {m : A} {coin : TypeTag}
    (hm : marketAt c.objects m = some coin)
    (hsellers : ∀ {s p}, profitsAt c.objects m s = some p → c.objects.lookup s = none)
    {data : List (DynamicFieldInfo A)} (hd : getDynamicFields c.objects m data) (account : A) :
    ∃ listed nfts : List (Obj A), listedData c.objects m account data = some listed ∧
      listnftData c.objects m account data = some nfts ∧ listed.length = nfts.length ∧
      listed.Nodup ∧
      (∀ item, item ∈ listed ↔ ∃ k L, listingAt c.objects m k = some L ∧ L.seller = account ∧
        item = ⟨L.uid, .listing L.ask L.seller⟩) ∧
      ∀ (i : ℕ) (item nft : Obj A), listed[i]? = some item → nfts[i]? = some nft →
        ∃ k L, listingAt c.objects m k = some L ∧ item = ⟨L.uid, .listing L.ask L.seller⟩ ∧
          nft = ⟨k, .item L.item⟩ := by
  have hf := hd.areFields
  have hrows {e : DynamicFieldInfo A} (he : e ∈ data.filter (mine c.objects m account)) :
      ∃ k L, listingAt c.objects m k = some L ∧ L.seller = account ∧ e = ⟨.id k, L.uid⟩ := by
    obtain ⟨he, hmine⟩ := List.mem_filter.1 he
    exact (hc.mine_iff account hm hsellers hf he).1 hmine
  have hsome {e : DynamicFieldInfo A} (he : e ∈ data.filter (mine c.objects m account)) :=
    hc.mine_isSome account hm hsellers hf he
  refine ⟨_, _, hc.listedData_eq account hm hsellers hf, hc.listnftData_eq account hm hsellers hf,
    ?_, ?_, ?_, ?_⟩
  · rw [ZipFilter.length_filterMap_of_isSome fun e he => (hsome he).1,
      ZipFilter.length_filterMap_of_isSome fun e he => (hsome he).2]
  · refine ZipFilter.nodup_filterMap ((hc.nodup_fields hm hd).filter _) ?_
    intro e e' item he he' htask htask'
    obtain ⟨k, L, hL, -, rfl⟩ := hrows he
    obtain ⟨k', L', hL', -, rfl⟩ := hrows he'
    rw [(hc.listing_entry hL).1] at htask
    rw [(hc.listing_entry hL').1] at htask'
    have hid : L.uid = L'.uid := congrArg Obj.id (Option.some.inj (htask.trans htask'.symm))
    rw [hc.layout.uid_unique hL hL' hid, hid]
  · intro item
    rw [List.mem_filterMap]
    constructor
    · rintro ⟨e, he, htask⟩
      obtain ⟨k, L, hL, hs, rfl⟩ := hrows he
      rw [(hc.listing_entry hL).1] at htask
      exact ⟨k, L, hL, hs, (Option.some.inj htask).symm⟩
    · rintro ⟨k, L, hL, hs, rfl⟩
      have he := (hc.mem_fields hm hd).2 (Or.inl ⟨k, L, hL, rfl⟩)
      exact ⟨_, List.mem_filter.2 ⟨he, (hc.mine_iff account hm hsellers hf he).2
        ⟨k, L, hL, hs, rfl⟩⟩, (hc.listing_entry hL).1⟩
  · intro i item nft hitem hnft
    rw [ZipFilter.getElem?_filterMap_of_isSome fun e he => (hsome he).1] at hitem
    rw [ZipFilter.getElem?_filterMap_of_isSome fun e he => (hsome he).2] at hnft
    obtain ⟨e, he, htask⟩ := Option.bind_eq_some_iff.1 hitem
    obtain ⟨e', he', hnft⟩ := Option.bind_eq_some_iff.1 hnft
    cases he.symm.trans he'
    obtain ⟨k, L, hL, -, rfl⟩ := hrows (List.mem_of_getElem? he)
    obtain ⟨h1, h2⟩ := hc.listing_entry hL
    exact ⟨k, L, hL, Option.some.inj (htask.symm.trans h1), Option.some.inj (hnft.symm.trans h2)⟩

/-- User 1 has a listing and money to collect, and the money comes first. -/
theorem myList_saleAndListing :
    listedData (run genesis saleAndListing).1.objects (.derived 1 0) (.user 1)
        listingFirst.reverse = some [⟨.derived 4 1, .listing 7 (.user 1)⟩] ∧
    listnftData (run genesis saleAndListing).1.objects (.derived 1 0) (.user 1)
        listingFirst.reverse = some [⟨.derived 2 1, .item (.other 0 [8])⟩] ∧
    ∃ k L, listingAt (run genesis saleAndListing).1.objects (.derived 1 0) k = some L ∧
      (⟨.derived 4 1, .listing 7 (.user 1)⟩ : Obj Addr) = ⟨L.uid, .listing L.ask L.seller⟩ ∧
      (⟨.derived 2 1, .item (.other 0 [8])⟩ : Obj Addr) = ⟨k, .item L.item⟩ := by
  have hm : marketAt (run genesis saleAndListing).1.objects (.derived 1 0) = some .sui := by
    decide +kernel
  have hlisted : listedData (run genesis saleAndListing).1.objects (.derived 1 0) (.user 1)
      listingFirst.reverse = some [⟨.derived 4 1, .listing 7 (.user 1)⟩] := by decide +kernel
  have hnfts : listnftData (run genesis saleAndListing).1.objects (.derived 1 0) (.user 1)
      listingFirst.reverse = some [⟨.derived 2 1, .item (.other 0 [8])⟩] := by decide +kernel
  refine ⟨hlisted, hnfts, ?_⟩
  obtain ⟨listed, nfts, h1, h2, -, -, -, hpairs⟩ := myList (run_history saleAndListing).1 hm
    saleAndListing_sellers (by decide +kernel : getDynamicFields _ _ listingFirst.reverse) (.user 1)
  rw [hlisted, Option.some.injEq] at h1
  rw [hnfts, Option.some.injEq] at h2
  subst h1 h2
  exact hpairs 0 _ _ rfl rfl

end BookMarket
