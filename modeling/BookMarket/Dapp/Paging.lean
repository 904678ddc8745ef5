import Mathlib.Data.Set.Card
import BookMarket.Lib.Lists
import BookMarket.Dapp.BuyCall

/-!
# Pages of the RPC

`getDynamicFields` and `getOwnedObjects` answer with one page: at most
`QUERY_MAX_RESULT_LIMIT` entries, and a cursor to ask for the next ones.  The pages
of the site never do; what they show comes from the first page.

* `capPageLimit` — how long a page is.
* `marketCards`, `filteredData` — the lists of the Market page, and those of MyAsset
  and Transfer, as far as they go.
* `History.marketCards_complete_iff`, `filteredData_iff` — what is missing, and when.
* `listViews` — **a list is complete exactly when what it is about fits on the first
  page.**
-/

namespace BookMarket

variable {A : Type} [DecidableEq A]

/-! ## The RPC -/

/-- `cap_page_limit`, for a server with `QUERY_MAX_RESULT_LIMIT` at `max`. -/
def capPageLimit (max : ℕ) (limit : Option ℕ) : ℕ :=
  if limit.getD 0 > max ∨ limit.getD 0 = 0 then max else limit.getD 0

/-- The first page of an answer to a query without a limit. -/
def firstPage {α : Type} (max : ℕ) (all : List α) : List α :=
  all.take (capPageLimit max none)

/-- The contents of those objects a request found; one for more than `max` objects is
rejected. -/
def limitedContents (max : ℕ) (o : Objects A) (ids : List (Option A)) : Option (List (Obj A)) :=
  if ids.length > max then none else contents o ids

/-- The objects of an account. -/
def ownedObjects (o : Objects A) (owner : A) : Finset A :=
  o.keys.filter fun id => (o.lookup id).any fun x => x.owner = .addressOwner owner

/-- `getOwnedObjects` has `all` to answer, page by page, each object once and in no
particular order. -/
def getOwnedObjects (o : Objects A) (owner : A) (all : List A) : Prop :=
  (all : Multiset A) = (ownedObjects o owner).val

instance (o : Objects A) (owner : A) (all : List A) : Decidable (getOwnedObjects o owner all) :=
  inferInstanceAs (Decidable (_ = _))

/-! ## The pages -/

/-- `filteredData` of `Myasset.tsx` and of `transfer.tsx`, whose code is the same: the
NFTs among the objects of the account. -/
def filteredData (max : ℕ) (o : Objects A) (all : List A) : Option (List (Obj A)) :=
  let allnftidlist := (firstPage max all).map some
  (limitedContents max o allnftidlist).map fun bnftdatalist =>
    let deNFTList := bnftdatalist.map fun obj => if obj.data.type = nftType then some obj else none
    deNFTList.filterMap id

/-- What the two pages are for: the NFTs the account owns, and nothing else. -/
def ShowsOwned (o : Objects A) (owner : A) (shown : List (Obj A)) : Prop :=
  ∀ obj, obj ∈ shown ↔
    o.lookup obj.id = some ⟨.addressOwner owner, obj.data⟩ ∧ obj.data.type = nftType

variable [AddressSpace A]

/-- The cards of the Market page, from the first page of the fields. -/
def marketCards (max : ℕ) (o : Objects A) (marketid : A) (all : List (DynamicFieldInfo A)) :
    List (Obj A × Obj A) :=
  let data := firstPage max all
  match limitedContents max o (dynamicObjectlist (tbMarketlistDetails o marketid data)),
    limitedContents max o (obooknftidlist data) with
  | some tasks, some nfts =>
    tasks.zipIdx.filterMap fun p => (nfts[p.2]?).map fun nft => (p.1, nft)
  | _, _ => []

/-! ## What is on the first page -/

omit [DecidableEq A] [AddressSpace A] in
@[simp] theorem firstPage_eq {α : Type} (max : ℕ) (all : List α) :
    firstPage max all = all.take max := by
  simp [firstPage, capPageLimit]

omit [AddressSpace A] in
/-- A request for the objects of one page is not rejected. -/
theorem limitedContents_eq {max : ℕ} {ids : List (Option A)} (h : ids.length ≤ max)
    (o : Objects A) : limitedContents max o ids = contents o ids := by
  rw [limitedContents, if_neg (Nat.not_lt.2 h)]

theorem marketCards_eq (max : ℕ) (o : Objects A) (m : A) (all : List (DynamicFieldInfo A)) :
    marketCards max o m all = cards o m (all.take max) := by
  have htasks : (dynamicObjectlist (tbMarketlistDetails o m (all.take max))).length ≤ max := by
    simp [dynamicObjectlist, tbMarketlistDetails, bookMarktypelist]
  have hnfts : (obooknftidlist (all.take max)).length ≤ max := by
    simp [obooknftidlist, bookNFTidlist]
  simp only [marketCards, firstPage_eq, limitedContents_eq htasks, limitedContents_eq hnfts]
  rfl

omit [AddressSpace A] in
theorem filteredData_eq (max : ℕ) (o : Objects A) (all : List A) :
    filteredData max o all = some (((all.take max).filterMap (getObject o)).filter
      fun obj => obj.data.type = nftType) := by
  have hlen : ((all.take max).map some).length ≤ max := by simp
  have hids : ∀ id ∈ (all.take max).map some, id.isSome := by
    intro id hid
    obtain ⟨a, -, rfl⟩ := List.mem_map.1 hid
    rfl
  simp only [filteredData, firstPage_eq, limitedContents_eq hlen, contents_eq _ hids,
    Option.map_some, List.filterMap_map]
  rw [← List.filterMap_eq_filter]
  simp only [Option.guard, decide_eq_true_eq]
  rfl

omit [AddressSpace A] in
theorem mem_getObject {o : Objects A} {id : A} {obj : Obj A} :
    getObject o id = some obj ↔ obj.id = id ∧ ∃ owner, o.lookup id = some ⟨owner, obj.data⟩ := by
  obtain ⟨id', d⟩ := obj
  rw [getObject, Option.map_eq_some_iff]
  constructor
  · rintro ⟨⟨owner, d'⟩, hx, heq⟩
    cases heq
    exact ⟨rfl, owner, hx⟩
  · rintro ⟨rfl, owner, hx⟩
    exact ⟨_, hx, rfl⟩

omit [AddressSpace A] in
theorem mem_ownedObjects {o : Objects A} {owner id : A} :
    id ∈ ownedObjects o owner ↔ ∃ d, o.lookup id = some ⟨.addressOwner owner, d⟩ := by
  rw [ownedObjects, Finset.mem_filter, Finmap.mem_keys, Option.any_eq_true]
  constructor
  · rintro ⟨-, ⟨owner', d⟩, hx, hown⟩
    obtain rfl : owner' = .addressOwner owner := of_decide_eq_true hown
    exact ⟨d, hx⟩
  · rintro ⟨d, hd⟩
    exact ⟨Finmap.mem_of_lookup_eq_some hd, _, hd, decide_eq_true rfl⟩

omit [AddressSpace A] in
theorem getOwnedObjects.mem_iff {o : Objects A} {owner id : A} {all : List A}
    (h : getOwnedObjects o owner all) :
    id ∈ all ↔ ∃ d, o.lookup id = some ⟨.addressOwner owner, d⟩ := by
  rw [← mem_ownedObjects, ← Finset.mem_val, ← h, Multiset.mem_coe]

omit [AddressSpace A] in
theorem getOwnedObjects.nodup {o : Objects A} {owner : A} {all : List A}
    (h : getOwnedObjects o owner all) : all.Nodup := by
  rw [← Multiset.coe_nodup, h]
  exact (ownedObjects o owner).nodup

/-! ## The Market page -/

section Market

variable {h : List (Entry A)} {c : Chain A} {m : A} {coin : TypeTag}
  {all : List (DynamicFieldInfo A)} (hc : History h c) (hm : marketAt c.objects m = some coin)
  (hno : ∀ s, profitsAt c.objects m s = none) (hd : getDynamicFields c.objects m all)

include hc hm hno hd

/-- Without proceeds the fields are those of the listings. -/
theorem History.mem_fields_listing {e : DynamicFieldInfo A} :
    e ∈ all ↔ ∃ k L, listingAt c.objects m k = some L ∧ e = ⟨.id k, L.uid⟩ := by
  rw [hc.mem_fields hm hd]
  constructor
  · rintro (hL | ⟨s, p, hp, -⟩)
    · exact hL
    · rw [hno s] at hp
      cases hp
  · exact Or.inl

/-- There are as many of them as listings. -/
theorem History.ncard_listings :
    {k | (listingAt c.objects m k).isSome}.ncard = all.length := by
  have hlisting {e : DynamicFieldInfo A} (he : e ∈ all) :=
    (hc.mem_fields_listing hm hno hd).1 he
  have hsome : ∀ e ∈ all, e.name.value.isSome := by
    intro e he
    obtain ⟨k, L, -, rfl⟩ := hlisting he
    rfl
  have hnodup : (all.filterMap fun e => e.name.value).Nodup := by
    refine ZipFilter.nodup_filterMap (hc.nodup_fields hm hd) ?_
    intro e e' k he he' hk hk'
    obtain ⟨k1, L, hL, rfl⟩ := hlisting he
    obtain ⟨k2, L', hL', rfl⟩ := hlisting he'
    cases hk
    cases hk'
    rw [Option.some.inj (hL.symm.trans hL')]
  have hset : {k | (listingAt c.objects m k).isSome} =
      ((all.filterMap fun e => e.name.value).toFinset : Set A) := by
    ext k
    rw [Set.mem_ofPred_eq, Finset.mem_coe, List.mem_toFinset, List.mem_filterMap,
      Option.isSome_iff_exists]
    constructor
    · rintro ⟨L, hL⟩
      exact ⟨_, (hc.mem_fields_listing hm hno hd).2 ⟨k, L, hL, rfl⟩, rfl⟩
    · rintro ⟨e, he, hk⟩
      obtain ⟨k', L, hL, rfl⟩ := hlisting he
      cases hk
      exact ⟨L, hL⟩
  rw [hset, Set.ncard_coe_finset, List.toFinset_card_of_nodup hnodup,
    ZipFilter.length_filterMap_of_isSome hsome]

/-- **The Market page has a card for every listing exactly when there are no more of
them than fit on a page.** -/
theorem History.marketCards_complete_iff (max : ℕ) :
    (∀ k L, listingAt c.objects m k = some L →
      (⟨L.uid, .listing L.ask L.seller⟩, ⟨k, .item L.item⟩) ∈ marketCards max c.objects m all) ↔
    {k | (listingAt c.objects m k).isSome}.ncard ≤ max := by
  have hf : AreFields c.objects m (all.take max) := fun e he =>
    hd.areFields e (List.mem_of_mem_take he)
  rw [hc.ncard_listings hm hno hd, ← Lists.forall_mem_take_iff (hc.nodup_fields hm hd),
    marketCards_eq]
  constructor
  · intro hall e he
    obtain ⟨k, L, hL, rfl⟩ := (hc.mem_fields_listing hm hno hd).1 he
    obtain ⟨k', L', he', hL', hcard⟩ := (hc.mem_cards_of_noProfits hm hno hf).1 (hall k L hL)
    -- the card tells which listing it is
    obtain rfl : k = k' := congrArg (fun card => card.2.id) hcard
    cases hL.symm.trans hL'
    exact he'
  · intro hall k L hL
    have he := hall _ ((hc.mem_fields_listing hm hno hd).2 ⟨k, L, hL, rfl⟩)
    exact (hc.mem_cards_of_noProfits hm hno hf).2 ⟨k, L, he, hL, rfl⟩

end Market

/-! ## MyAsset and Transfer -/

section Owned

variable {o : Objects A} {owner : A}

omit [AddressSpace A]

/-- What the two pages show is always owned by the account, -/
theorem mem_filteredData {all : List A} (hall : getOwnedObjects o owner all) {max : ℕ}
    {shown : List (Obj A)} (hshown : filteredData max o all = some shown) {obj : Obj A} :
    obj ∈ shown ↔ obj.id ∈ all.take max ∧
      o.lookup obj.id = some ⟨.addressOwner owner, obj.data⟩ ∧ obj.data.type = nftType := by
  rw [filteredData_eq, Option.some.injEq] at hshown
  subst hshown
  rw [List.mem_filter, List.mem_filterMap, decide_eq_true_eq]
  constructor
  · rintro ⟨⟨id, hid, hobj⟩, htype⟩
    obtain ⟨rfl, owner', hx⟩ := mem_getObject.1 hobj
    obtain ⟨d, hd⟩ := hall.mem_iff.1 (List.mem_of_mem_take hid)
    cases hx.symm.trans hd
    exact ⟨hid, hd, htype⟩
  · rintro ⟨hid, hx, htype⟩
    exact ⟨⟨obj.id, hid, mem_getObject.2 ⟨rfl, _, hx⟩⟩, htype⟩

/-- and it is everything exactly when the NFTs are on the first page. -/
theorem filteredData_iff {all : List A} (hall : getOwnedObjects o owner all) (max : ℕ) :
    (∃ shown, filteredData max o all = some shown ∧ ShowsOwned o owner shown) ↔
      ∀ id d, o.lookup id = some ⟨.addressOwner owner, d⟩ → d.type = nftType →
        id ∈ all.take max := by
  constructor
  · rintro ⟨shown, hshown, howned⟩ id d hd htype
    have hmem : (⟨id, d⟩ : Obj A) ∈ shown := (howned _).2 ⟨hd, htype⟩
    exact ((mem_filteredData hall hshown).1 hmem).1
  · intro hfit
    refine ⟨_, filteredData_eq max o all, fun obj => ?_⟩
    rw [mem_filteredData hall (filteredData_eq max o all)]
    exact ⟨fun h => h.2, fun h => ⟨hfit _ _ h.1 h.2, h⟩⟩

/-- They are complete in every order exactly when everything the account owns fits
on a page, or none of it is an NFT. -/
theorem filteredData_forall_iff (o : Objects A) (owner : A) (max : ℕ) :
    (∀ all, getOwnedObjects o owner all →
      ∃ shown, filteredData max o all = some shown ∧ ShowsOwned o owner shown) ↔
    (ownedObjects o owner).card ≤ max ∨
      ∀ id d, o.lookup id = some ⟨.addressOwner owner, d⟩ → d.type ≠ nftType := by
  constructor
  · intro hall
    by_contra hne
    rw [not_or] at hne
    obtain ⟨hcard, hnft⟩ := hne
    push Not at hnft
    obtain ⟨id, d, hd, htype⟩ := hnft
    -- let the NFT come last
    have hlist : getOwnedObjects o owner (ownedObjects o owner).toList := by
      rw [getOwnedObjects, Finset.coe_toList]
    obtain ⟨all, hperm, hnot⟩ := Lists.exists_perm_not_mem_take hlist.nodup
      (hlist.mem_iff.2 ⟨d, hd⟩) (by rw [Finset.length_toList]; omega : max < _)
    have hanswer : getOwnedObjects o owner all := (Multiset.coe_eq_coe.2 hperm).trans hlist
    exact hnot ((filteredData_iff hanswer max).1 (hall all hanswer) id d hd htype)
  · rintro hor all hanswer
    refine (filteredData_iff hanswer max).2 fun id d hd htype => ?_
    rcases hor with hcard | hnone
    · have hlen : all.length ≤ max := by
        rwa [← Multiset.coe_card, hanswer]
      rw [List.take_of_length_le hlen]
      exact hanswer.mem_iff.2 ⟨d, hd⟩
    · exact absurd htype (hnone id d hd)

end Owned

/-- **A list is complete exactly when what it is about fits on the first page.**  In
every reachable state, for every length of a page and every order in which the
server counts: the Market page of a marketplace without proceeds to collect has a
card for every listing if and only if there are no more listings than fit on a page;
and MyAsset and Transfer show exactly the NFTs an account owns if and only if each of
them is on the first page of its objects, which is so in every order if and only if
all its objects fit on a page or none is an NFT. -/
theorem listViews {h : List (Entry A)} {c : Chain A} (hc : History h c) (max : ℕ) :
    (∀ {m coin all}, marketAt c.objects m = some coin → (∀ s, profitsAt c.objects m s = none) →
      getDynamicFields c.objects m all →
      ((∀ k L, listingAt c.objects m k = some L →
        (⟨L.uid, .listing L.ask L.seller⟩, ⟨k, .item L.item⟩) ∈ marketCards max c.objects m all) ↔
      {k | (listingAt c.objects m k).isSome}.ncard ≤ max)) ∧
    ∀ owner : A,
      (∀ all, getOwnedObjects c.objects owner all →
        ((∃ shown, filteredData max c.objects all = some shown ∧
          ShowsOwned c.objects owner shown) ↔
        ∀ id d, c.objects.lookup id = some ⟨.addressOwner owner, d⟩ → d.type = nftType →
          id ∈ all.take max)) ∧
      ((∀ all, getOwnedObjects c.objects owner all →
        ∃ shown, filteredData max c.objects all = some shown ∧
          ShowsOwned c.objects owner shown) ↔
      (ownedObjects c.objects owner).card ≤ max ∨
        ∀ id d, c.objects.lookup id = some ⟨.addressOwner owner, d⟩ → d.type ≠ nftType) :=
  ⟨fun hm hno hd => hc.marketCards_complete_iff hm hno hd max, fun owner =>
    ⟨fun _ hall => filteredData_iff hall max, filteredData_forall_iff c.objects owner max⟩⟩

/-- Two listings fit on a page of 50, and so do the objects of the buyer. -/
theorem listViews_twoKinds :
    (∀ k L, listingAt (run genesis twoKinds).1.objects (.derived 1 0) k = some L →
      (⟨L.uid, .listing L.ask L.seller⟩, ⟨k, .item L.item⟩) ∈
        marketCards 50 (run genesis twoKinds).1.objects (.derived 1 0) twoFields) ∧
    ∀ all, getOwnedObjects (run genesis twoKinds).1.objects (.user 2) all →
      ∃ shown, filteredData 50 (run genesis twoKinds).1.objects all = some shown ∧
        ShowsOwned (run genesis twoKinds).1.objects (.user 2) shown := by
  have hc := (run_history twoKinds).1
  constructor
  · refine ((listViews hc 50).1 twoKinds_market twoKinds_profits twoKinds_fields).2 ?_
    rw [hc.ncard_listings twoKinds_market twoKinds_profits twoKinds_fields]
    decide
  · refine (((listViews hc 50).2 (.user 2)).2).2 (Or.inl ?_)
    decide +kernel

/-- User 1 mints 51 NFTs. -/
def manyMints : List (Tx Addr) :=
  [⟨.user 1, [], List.replicate 51 (.mintToSender [66] [] [] [])⟩]

/-- In the order they were minted in. -/
def minted : List Addr := (List.range 51).map (.derived 1)

/-- With pages of 50 the last of them is not shown; and with pages of one entry the
second of two listings has no card. -/
theorem listViews_wrong :
    (History (run genesis manyMints).2 (run genesis manyMints).1 ∧
      getOwnedObjects (run genesis manyMints).1.objects (.user 1) minted ∧
      ¬ ∃ shown, filteredData 50 (run genesis manyMints).1.objects minted = some shown ∧
        ShowsOwned (run genesis manyMints).1.objects (.user 1) shown) ∧
    foreignCard ∈ cards (run genesis twoKinds).1.objects (.derived 1 0) twoFields ∧
    foreignCard ∉ marketCards 1 (run genesis twoKinds).1.objects (.derived 1 0) twoFields := by
  have howned : getOwnedObjects (run genesis manyMints).1.objects (.user 1) minted := by
    decide +kernel
  refine ⟨⟨(run_history manyMints).1, howned, ?_⟩, by decide +kernel, by decide +kernel⟩
  rw [filteredData_iff howned]
  intro hall
  have hlast : ((run genesis manyMints).1.objects.lookup (.derived 1 50)).any
      fun x => x.owner = .addressOwner (.user 1) ∧ x.data.type = nftType := by
    decide +kernel
  obtain ⟨⟨owner, d⟩, hx, hnft⟩ := (Option.any_eq_true _ _).1 hlast
  obtain ⟨rfl, htype⟩ := of_decide_eq_true hnft
  exact absurd (hall _ d hx htype) (by decide +kernel)

end BookMarket
