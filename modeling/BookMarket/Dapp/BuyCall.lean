import BookMarket.Dapp.BuyButton
import BookMarket.Dapp.Inputs
import BookMarket.Dapp.MarketPage

/-!
# The call behind the Buy button

What `BuyandTakeNFT` sends once Buy is pressed: a call of `buy_and_take` with the
item of the selected card and the coin `getusefulcoinid` has found.  Both are wrong,
the one sometimes and the other always.

* The coin is compared with the ask as a number.  Numbers from `2^53` on lose
  their last bits, so that a coin can be taken for one it is not, and the last such
  coin hides the right one before it.
* The item is passed with `txb.object`, like the marketplace and the coin, although
  `buy_and_take` wants its `ID`.  So the builder makes a reference to the item of it,
  and a listed item belongs to the field it hangs under.
* The type arguments are constants of the page, `NFTTYPE` and `cointype`, while the
  contract accepts listings of objects of any type.

* `ExactChoice`, `coinChoice` — **the coin is the right one exactly when every coin
  that is taken for one worth the ask is followed by one that is.**
* `buyCall`, `buyCard` — **no card can be bought with the call the page builds.**
* `History.delivers_pure_iff` — with the identifier of the item passed as such, a card
  could be bought exactly when its item is a `BookNFT`.
-/

namespace BookMarket

variable {A : Type}

/-! ## The coin -/

/-- What `getusefulcoinid` is for: the identifier of a coin worth exactly the ask if
there is one, and `null` if there is none. -/
def ExactChoice (data : List (CoinStruct A)) (ask : UInt64) (id : Option A) : Prop :=
  ((∃ coin ∈ data, coin.balance = ask) →
    ∃ coin ∈ data, coin.balance = ask ∧ id = some coin.coinObjectId) ∧
  ((∀ coin ∈ data, coin.balance ≠ ask) → id = none)

/-- The coin reads as the same number as the ask, and is worth something else. -/
def Misread (ask : UInt64) (coin : CoinStruct A) : Prop :=
  toNumber coin.balance.toNat = toNumber ask.toNat ∧ coin.balance ≠ ask

/-- Without a coin that reads as the ask, the loop finds none. -/
theorem getusefulcoinid_eq_none {data : List (CoinStruct A)} {ask : UInt64}
    (h : ∀ coin ∈ data, toNumber coin.balance.toNat ≠ toNumber ask.toNat) :
    getusefulcoinid (some data) (some ask) = none := by
  simp only [getusefulcoinid, Option.map_some, Option.some.injEq]
  induction data with
  | nil => rfl
  | cons coin data ih =>
    rw [List.foldl_cons, if_neg (h coin (by simp))]
    exact ih fun coin' h' => h coin' (by simp [h'])

/-- The coin that is chosen comes after every other one that reads as the ask. -/
theorem Chosen.mem_after {data before after : List (CoinStruct A)} {ask : UInt64}
    {chosen coin : CoinStruct A} (h : Chosen data ask chosen)
    (hdata : data = before ++ coin :: after)
    (heq : toNumber coin.balance.toNat = toNumber ask.toNat) : chosen = coin ∨ chosen ∈ after := by
  obtain ⟨before', after', rfl, -, hafter⟩ := h
  rcases List.append_eq_append_iff.1 hdata with ⟨l, -, hl⟩ | ⟨l, -, hl⟩
  · cases l with
    | nil => exact Or.inl (List.cons.inj hl).1
    | cons x l =>
      -- otherwise `coin` would come after the last one
      have hmem : coin ∈ after' := by
        rw [(List.cons.inj hl).2]
        simp
      exact absurd heq (hafter coin hmem)
  · cases l with
    | nil => exact Or.inl (List.cons.inj hl).1.symm
    | cons x l =>
      right
      rw [(List.cons.inj hl).2]
      simp

/-- **The coin is the right one exactly when every coin that is taken for one worth
the ask is followed by one that is.**  For every ask and every wallet, in any
order. -/
theorem coinChoice {data : List (CoinStruct A)} (hids : (data.map CoinStruct.coinObjectId).Nodup)
    (ask : UInt64) :
    ExactChoice data ask (getusefulcoinid (some data) (some ask)) ↔
      ∀ before coin after, data = before ++ coin :: after → Misread ask coin →
        ∃ exact ∈ after, exact.balance = ask := by
  constructor
  · rintro ⟨hsome, hnone⟩ before coin after hdata ⟨heq, hne⟩
    have hcoin : coin ∈ data := by simp [hdata]
    obtain ⟨chosen, hchosen⟩ := Chosen.exists_of_mem ⟨coin, hcoin, heq⟩
    rw [hchosen.getusefulcoinid] at hsome hnone
    by_cases hexact : ∃ coin ∈ data, coin.balance = ask
    · obtain ⟨exact, hmem, hval, hid⟩ := hsome hexact
      -- coins have different identifiers, so this is the one that is chosen
      obtain rfl : chosen = exact :=
        List.inj_on_of_nodup_map hids hchosen.mem hmem (Option.some.inj hid)
      rcases hchosen.mem_after hdata heq with rfl | hafter
      · exact absurd hval hne
      · exact ⟨chosen, hafter, hval⟩
    · have := hnone fun coin hmem hval => hexact ⟨coin, hmem, hval⟩
      cases this
  · intro hcond
    -- the coin that is chosen is not misread, for no coin after it is worth the ask
    have hright {chosen : CoinStruct A} (hchosen : Chosen data ask chosen) :
        chosen.balance = ask := by
      by_contra hne
      obtain ⟨before, after, hdata, heq, hafter⟩ := hchosen
      obtain ⟨exact, hmem, hval⟩ := hcond before chosen after hdata ⟨heq, hne⟩
      exact hafter exact hmem (by rw [hval])
    constructor
    · rintro ⟨coin, hmem, rfl⟩
      obtain ⟨chosen, hchosen⟩ := Chosen.exists_of_mem ⟨coin, hmem, rfl⟩
      exact ⟨chosen, hchosen.mem, hright hchosen, hchosen.getusefulcoinid⟩
    · intro hnone
      refine getusefulcoinid_eq_none fun coin hmem heq => ?_
      obtain ⟨chosen, hchosen⟩ := Chosen.exists_of_mem ⟨coin, hmem, heq⟩
      exact hnone chosen hchosen.mem (hright hchosen)

/-- `2^53`, the least ask that another amount reads as. -/
def bigAsk : UInt64 := 9007199254740992

/-- A coin that is one too large, -/
def largerCoin : CoinStruct ℕ := ⟨1, bigAsk + 1⟩

/-- and one that is worth the ask. -/
def exactCoin : CoinStruct ℕ := ⟨2, bigAsk⟩

/-- A coin that is misread does no harm when one worth the ask comes after it. -/
theorem coinChoice_rightLast :
    Misread bigAsk largerCoin ∧
    ExactChoice [largerCoin, exactCoin] bigAsk
      (getusefulcoinid (some [largerCoin, exactCoin]) (some bigAsk)) := by
  refine ⟨⟨by decide, by decide⟩, (coinChoice (by decide) _).2 ?_⟩
  rintro before coin after hdata ⟨-, hne⟩
  rcases before with _ | ⟨first, _ | ⟨second, before⟩⟩
  · cases hdata
    exact ⟨_, List.mem_singleton.2 rfl, rfl⟩
  · cases hdata
    exact absurd rfl hne
  · simp at hdata

/-- The coin that is one too large is passed, alone and in place of the right one. -/
theorem coinChoice_wrong :
    getusefulcoinid (some [largerCoin]) (some bigAsk) = some 1 ∧
    ¬ ExactChoice [largerCoin] bigAsk (getusefulcoinid (some [largerCoin]) (some bigAsk)) ∧
    getusefulcoinid (some [exactCoin, largerCoin]) (some bigAsk) = some 1 ∧
    ¬ ExactChoice [exactCoin, largerCoin] bigAsk
      (getusefulcoinid (some [exactCoin, largerCoin]) (some bigAsk)) := by
  have h1 : getusefulcoinid (some [largerCoin]) (some bigAsk) = some 1 := by decide +kernel
  have h2 : getusefulcoinid (some [exactCoin, largerCoin]) (some bigAsk) = some 1 := by
    decide +kernel
  refine ⟨h1, ?_, h2, ?_⟩
  · rw [h1]
    rintro ⟨-, hnone⟩
    cases hnone (by decide)
  · rw [h2]
    rintro ⟨hsome, -⟩
    obtain ⟨coin, hmem, hval, hid⟩ := hsome ⟨exactCoin, by simp, rfl⟩
    revert hval hid
    simp only [List.mem_cons, List.not_mem_nil, or_false] at hmem
    rcases hmem with rfl | rfl
    · decide
    · decide

/-! ## The call -/

/-- `NFTTYPE`, the type of the NFTs of the package, -/
def nftType : TypeTag := .bookNFT

/-- and `cointype`. -/
def coinType : TypeTag := .sui

/-- The block `BuyandTakeNFT` builds; `txb.object(null)` is an error. -/
def buyCall (marketid : A) (p : Page A) : Option (BuyBlock A) :=
  match buyandTakeNFT p with
  | some (deNFTid, some accoinid) =>
    some {
      typeArguments := (nftType, coinType)
      marketplace := .object marketid
      itemId := .object deNFTid
      paid := .object accoinid }
  | _ => none

variable [DecidableEq A] [AddressSpace A]

/-- The block is executed, and delivers `nft`, as it is, to its sender. -/
def Delivers (c : Chain A) (sender : A) (block : BuyBlock A) (nft : Obj A) : Prop :=
  ∃ c' es i, sendBuyAndTake c sender block = .ok (c', es) ∧ nft.data = .item i ∧
    freeAt c'.objects nft.id = some (.address sender, i)

theorem not_delivers_of_error {c : Chain A} {sender : A} {block : BuyBlock A} {nft : Obj A}
    {e : SendError A} (h : sendBuyAndTake c sender block = .error e) :
    ¬ Delivers c sender block nft := by
  rintro ⟨c', es, i, he, -, -⟩
  rw [h] at he
  cases he

namespace History

variable {h : List (Entry A)} {c : Chain A} {m k sender paid : A} {L : Slot A} {t coin : TypeTag}

/-- A listed item belongs to a field of its listing, so a purchase that hands it over
is refused. -/
theorem refuses_listed (hc : History h c) (hm : marketAt c.objects m = some coin)
    (hL : listingAt c.objects m k = some L) {i : Item A}
    (hpaid : freeAt c.objects paid = some (.address sender, i)) :
    sendBuyAndTake c sender ⟨(t, coin), .object m, .object k, .object paid⟩ =
      .error (.invalidChildObjectArgument k (hashTypeAndKey L.uid (.bool true))) :=
  sendBuyAndTake_child (hc.layout.lookup_market hm) (hc.layout.lookup_piece hL .item)
    (hc.layout.lookup_free hpaid)

/-- A listing whose seller has nothing to collect could be bought for its ask exactly
as what it is, if its identifier were passed as such. -/
theorem delivers_pure_iff (hc : History h c) (hr : c.running = false)
    (hm : marketAt c.objects m = some coin) (hL : listingAt c.objects m k = some L)
    (hp : profitsAt c.objects m L.seller = none)
    (hpaid : freeAt c.objects paid = some (.address sender, .coin coin L.ask)) :
    Delivers c sender ⟨(t, coin), .object m, .pure k, .object paid⟩ ⟨k, .item L.item⟩ ↔
      L.item.type = t := by
  have hsend (r) : sendBuyAndTake c sender ⟨(t, coin), .object m, .pure k, .object paid⟩ = .ok r ↔
      execTx c (callTx sender (.buyAndTake t coin m k paid)) = .ok r :=
    sendBuyAndTake_pure (hc.layout.lookup_market hm) (hc.layout.lookup_free hpaid)
  constructor
  · rintro ⟨c', es, i, he, -, -⟩
    have hs := hc.single_of_execTx hr rfl ((hsend _).1 he)
    generalize worldOf c'.objects = w' at hs
    cases hs with
    | buyAndTake hm' hf hw ht hcr =>
      cases hL.symm.trans hw
      exact ht
  · intro ht
    have hfits : Fits L.ask (profitsAt c.objects m L.seller) := by
      rw [Fits, hp]
      simpa [coinValue] using L.ask.toNat_lt
    obtain ⟨p, hcr, -⟩ := World.credit_of_fits (w := worldOf c.objects) (p := ⟨paid, L.ask⟩) hfits
    obtain ⟨c', es, he, hw⟩ := hc.execTx_of_single (s := sender) hr
      (.buyAndTake hm hpaid hL ht hcr)
    refine ⟨c', es, L.item, (hsend _).2 he, rfl, ?_⟩
    rw [freeAt_worldOf, hw, World.free_setFree_self]

end History

/-- **No card can be bought with the call the page builds.**  In every reachable
state in which nobody has proceeds to collect, and whatever fields of the
marketplace the page has been given, in any order: every card has an ask and an
item, and when it is selected, `BuyandTakeNFT` builds a block with a coin worth
exactly the ask, and the block is refused, because the item belongs to an object.  So
the item is not delivered, of whatever type it is. -/
theorem buyCard {h : List (Entry A)} {c : Chain A} (hc : History h c)
    {m : A} (hm : marketAt c.objects m = some coinType)
    (hno : ∀ s, profitsAt c.objects m s = none) {data : List (DynamicFieldInfo A)}
    (hf : AreFields c.objects m data) {card : Obj A × Obj A}
    (hcard : card ∈ cards c.objects m data) :
    ∃ ask item, card.1.ask = some ask ∧ card.2.data = .item item ∧
      ∀ {p : Page A} {sender paid : A}, p.orderData = some card.1 → p.nftData = some card.2 →
        getusefulcoinid p.coinData card.1.ask = some paid →
        freeAt c.objects paid = some (.address sender, .coin coinType ask) →
        ∃ block parent, buyCall m p = some block ∧
          sendBuyAndTake c sender block =
            .error (.invalidChildObjectArgument card.2.id parent) ∧
          ¬ Delivers c sender block card.2 := by
  obtain ⟨k, L, -, hL, rfl⟩ := (hc.mem_cards_of_noProfits hm hno hf).1 hcard
  refine ⟨L.ask, L.item, rfl, rfl, ?_⟩
  intro p sender paid horder hnft hcoin hpaid
  have hbuy : buyandTakeNFT p = some (k, some paid) := by
    rw [buyandTakeNFT, hnft, horder, Option.map_some, Option.bind_some, hcoin]
  have hrefused := hc.refuses_listed (t := nftType) hm hL hpaid
  exact ⟨_, _, by rw [buyCall, hbuy], hrefused, not_delivers_of_error hrefused⟩

/-- User 1 lists an NFT and an object of another package, each for 5, which is what
user 2 has. -/
def twoKinds : List (Tx Addr) :=
  [⟨.user 1, [], [.create .sui]⟩,
   ⟨.user 1, [], [.mintToSender [66] [] [] [], .otherNew 0 [7],
     .publicTransfer (.derived 2 1) (.user 1)]⟩,
   ⟨.user 2, [], [.createCurrency .sui, .coinMint .sui (.derived 3 0) 5,
     .publicTransfer (.derived 3 0) (.user 2), .publicTransfer (.derived 3 1) (.user 2)]⟩,
   ⟨.user 1, [.derived 2 0, .derived 2 1],
     [.list .bookNFT .sui (.derived 1 0) (.derived 2 0) 5,
      .list (.other 0) .sui (.derived 1 0) (.derived 2 1) 5]⟩]

/-- The fields of the two listings. -/
def twoFields : List (DynamicFieldInfo Addr) :=
  [⟨.id (.derived 2 0), .derived 4 0⟩, ⟨.id (.derived 2 1), .derived 4 1⟩]

/-- The NFT. -/
def shortBook : BookNFT Addr :=
  ⟨⟨[66], by decide⟩, .user 1, ⟨[], by decide⟩, ⟨[], by decide⟩, ⟨[], by decide⟩⟩

/-- The card of the NFT. -/
def bookCard : Obj Addr × Obj Addr :=
  (⟨.derived 4 0, .listing 5 (.user 1)⟩, ⟨.derived 2 0, .item (.bookNFT shortBook)⟩)

/-- The card of the object of the other package. -/
def foreignCard : Obj Addr × Obj Addr :=
  (⟨.derived 4 1, .listing 5 (.user 1)⟩, ⟨.derived 2 1, .item (.other 0 [7])⟩)

/-- The page of user 2 with a card selected. -/
def selected (card : Obj Addr × Obj Addr) : Page Addr where
  orderData := some card.1
  nftData := some card.2
  nftId := some card.2.id
  isButtonDisabled := false
  shown := true
  delistShown := false
  coinData := some [⟨.derived 3 1, 5⟩]
  balance := some 5

theorem twoKinds_fields :
    getDynamicFields (run genesis twoKinds).1.objects (.derived 1 0) twoFields := by
  decide +kernel

theorem twoKinds_market :
    marketAt (run (genesis : Chain Addr) twoKinds).1.objects (.derived 1 0) = some .sui := by
  decide +kernel

theorem twoKinds_profits (s : Addr) :
    profitsAt (run genesis twoKinds).1.objects (.derived 1 0) s = none := by
  refine Option.eq_none_iff_forall_ne_some.2 fun p hp => ?_
  have hmem := ((run_history twoKinds).1.mem_fields twoKinds_market twoKinds_fields).2
    (Or.inr ⟨s, p, hp, rfl⟩)
  simp [twoFields] at hmem

theorem twoKinds_coin : freeAt (run genesis twoKinds).1.objects (.derived 3 1) =
    some (.address (.user 2), .coin coinType 5) := by
  decide +kernel

/-- The block for a card of the two. -/
def blockFor (card : Obj Addr × Obj Addr) : BuyBlock Addr :=
  ⟨(.bookNFT, .sui), .object (.derived 1 0), .object card.2.id, .object (.derived 3 1)⟩

/-- The node refuses the purchase of the NFT, for which the page was written. -/
theorem buyCard_twoKinds :
    bookCard ∈ cards (run genesis twoKinds).1.objects (.derived 1 0) twoFields ∧
    ∃ parent, sendBuyAndTake (run genesis twoKinds).1 (.user 2) (blockFor bookCard) =
      .error (.invalidChildObjectArgument (.derived 2 0) parent) := by
  have hcard : bookCard ∈ cards (run genesis twoKinds).1.objects (.derived 1 0) twoFields := by
    decide +kernel
  refine ⟨hcard, ?_⟩
  obtain ⟨ask, item, hask, hitem, hbuy⟩ := buyCard (run_history twoKinds).1 twoKinds_market
    twoKinds_profits twoKinds_fields.areFields hcard
  cases hask
  cases hitem
  have hfound : getusefulcoinid (selected bookCard).coinData bookCard.1.ask =
      some (.derived 3 1) := by decide +kernel
  obtain ⟨block, parent, hblock, hrefused, -⟩ := hbuy rfl rfl hfound twoKinds_coin
  obtain rfl : blockFor bookCard = block := by
    rw [← Option.some.injEq, ← hblock]
    decide +kernel
  exact ⟨parent, hrefused⟩

/-- The page draws cards for the NFT and for the other object, offers to buy them with a
coin worth exactly the ask, and delivers neither. -/
theorem buyCard_wrong :
    History (run genesis twoKinds).2 (run genesis twoKinds).1 ∧
    marketAt (run genesis twoKinds).1.objects (.derived 1 0) = some coinType ∧
    (∀ s, profitsAt (run genesis twoKinds).1.objects (.derived 1 0) s = none) ∧
    getDynamicFields (run genesis twoKinds).1.objects (.derived 1 0) twoFields ∧
    freeAt (run genesis twoKinds).1.objects (.derived 3 1) =
      some (.address (.user 2), .coin coinType 5) ∧
    ∀ card ∈ [bookCard, foreignCard],
      card ∈ cards (run genesis twoKinds).1.objects (.derived 1 0) twoFields ∧
      card.1.ask = some 5 ∧ buyCall (.derived 1 0) (selected card) = some (blockFor card) ∧
      ¬ Delivers (run genesis twoKinds).1 (.user 2) (blockFor card) card.2 := by
  obtain ⟨hc, -⟩ := run_history twoKinds
  refine ⟨hc, twoKinds_market, twoKinds_profits, twoKinds_fields, twoKinds_coin, ?_⟩
  have hrefused {card : Obj Addr × Obj Addr} {L : Slot Addr}
      (hL : listingAt (run genesis twoKinds).1.objects (.derived 1 0) card.2.id = some L) :
      ¬ Delivers (run genesis twoKinds).1 (.user 2) (blockFor card) card.2 :=
    not_delivers_of_error (hc.refuses_listed twoKinds_market hL twoKinds_coin)
  have hbook : listingAt (run genesis twoKinds).1.objects (.derived 1 0) (.derived 2 0) =
      some ⟨.derived 4 0, 5, .user 1, .bookNFT shortBook⟩ := by decide +kernel
  have hforeign : listingAt (run genesis twoKinds).1.objects (.derived 1 0) (.derived 2 1) =
      some ⟨.derived 4 1, 5, .user 1, .other 0 [7]⟩ := by decide +kernel
  simp only [List.mem_cons, List.not_mem_nil, or_false]
  rintro card (rfl | rfl)
  · exact ⟨by decide +kernel, rfl, by decide +kernel, hrefused hbook⟩
  · exact ⟨by decide +kernel, rfl, by decide +kernel, hrefused hforeign⟩

end BookMarket
