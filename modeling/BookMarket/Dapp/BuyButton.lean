import BookMarket.Lib.Runs
import BookMarket.Sui.Object
import BookMarket.Dapp.Number

/-!
# Ordering on the Market page

To buy, a user clicks the card of a listing, presses Order, which splits a coin of
the price off the gas coin, waits, and presses Buy.  The page remembers the order
(`orderData`, `NFTData`), and one flag, `isButtonDisabled`, keeps the Buy button
away until the split is done.

The flag belongs to the page and not to an order: the callback of a split clears
it, whichever order is selected by then, and a purchase that completes does not set
it again, nor does it look at the wallet again.  Nor does every split have its
callback run: the page submits all its transactions through one observer, which
looks at the last of them only, so that an earlier one changes the wallet and the
page does not hear of it.

* `handleItemClick`, `splituseCoin`, `buyandTakeNFT`, `getusefulcoinid` — the page.
* `Session.step` — the page together with the wallet, the transactions under way
  and the callbacks that wait for `getCoins`.
* `Payable` — Buy is offered only when it can be paid.
* `Harmless` — the steps that keep it so.
* `buyOffered` — **in every run of such steps Buy is offered only when it can be
  paid.**
-/

namespace BookMarket

open Runs

variable {A : Type}

/-! ## The page -/

/-- A coin as `getCoins` shows it. -/
structure CoinStruct (A : Type) where
  coinObjectId : A
  balance : UInt64
  deriving DecidableEq

/-- The field `ask` of an object; it is undefined unless the object is a listing. -/
def Obj.ask (obj : Obj A) : Option UInt64 :=
  match obj.data with
  | .listing ask _ => some ask
  | _ => none

/-- The state of the page.  `orderData` and `nftData` are `{}` before the first
click; `coinData` and `balance` are the last answers of `getCoins` and
`getBalance`. -/
structure Page (A : Type) where
  orderData : Option (Obj A)
  nftData : Option (Obj A)
  nftId : Option A
  isButtonDisabled : Bool
  shown : Bool
  delistShown : Bool
  coinData : Option (List (CoinStruct A))
  balance : Option ℕ
  deriving DecidableEq

/-- What a card was clicked for. -/
inductive CardOption
  | buy
  | delist
  deriving DecidableEq

def handleItemClick (p : Page A) (item nft : Obj A) (option : CardOption) : Page A :=
  let clicked := { p with isButtonDisabled := true, orderData := some item, nftData := some nft }
  match p.nftData, option with
  -- `NFTData?.id.id` is an error while `NFTData` is `{}`; what was set before it stays
  | none, _ => clicked
  | some last, .buy => { clicked with nftId := some last.id, shown := true }
  | some last, .delist => { clicked with nftId := some last.id, delistShown := true }

def handleClose (p : Page A) : Page A := { p with shown := false }

/-- The coin to pay with: the last one whose balance is the same number as the
ask. -/
def getusefulcoinid (coinData : Option (List (CoinStruct A))) (ask : Option UInt64) : Option A :=
  match coinData with
  | some data => data.foldl (fun accurateCoinid dataItem =>
      if some (toNumber dataItem.balance.toNat) = ask.map (fun ask => toNumber ask.toNat) then
        some dataItem.coinObjectId
      else accurateCoinid) none
  | none => none

/-- `SplituseCoin`: the amount of the split it submits, if it does.  Without an
`ask` the amount cannot be encoded. -/
def splituseCoin (p : Page A) : Option UInt64 :=
  match p.orderData.bind Obj.ask with
  | none => none
  | some ask =>
    match p.balance with
    | some totalBalance =>
      if toNumber totalBalance < toNumber ask.toNat then none else some ask
    | none => some ask

/-- `BuyandTakeNFT`: the item and the coin it passes to `buy_and_take`, the coin
possibly `null`. -/
def buyandTakeNFT (p : Page A) : Option (A × Option A) :=
  p.nftData.map fun nft => (nft.id, getusefulcoinid p.coinData (p.orderData.bind Obj.ask))

/-! ## The wallet -/

variable [DecidableEq A]

/-- How a transaction pays for its gas: all coins of the payment are smashed into
the first of them, which has `rest` left in the end. -/
structure Gas (A : Type) where
  gasCoin : A
  others : List A
  cost : ℕ
  rebate : ℕ
  rest : UInt64

omit [DecidableEq A] in
def Gas.payment (g : Gas A) : List A := g.gasCoin :: g.others

/-- The value of the coins `ids`. -/
def valueOf (wallet : List (CoinStruct A)) (ids : List A) : ℕ :=
  ((wallet.filter fun coin => coin.coinObjectId ∈ ids).map fun coin => coin.balance.toNat).sum

/-- The payment consists of coins of the wallet, and covers the amount that is split
off and the gas. -/
def Gas.Pays (g : Gas A) (wallet : List (CoinStruct A)) (amount : ℕ) : Prop :=
  g.payment.Nodup ∧ (∀ id ∈ g.payment, id ∈ wallet.map CoinStruct.coinObjectId) ∧
    g.rest.toNat + amount + g.cost = valueOf wallet g.payment + g.rebate

instance (g : Gas A) (wallet : List (CoinStruct A)) (amount : ℕ) :
    Decidable (g.Pays wallet amount) :=
  inferInstanceAs (Decidable (_ ∧ _ ∧ _))

/-- What is left of the wallet. -/
def Gas.charge (g : Gas A) (wallet : List (CoinStruct A)) : List (CoinStruct A) :=
  ⟨g.gasCoin, g.rest⟩ :: wallet.filter fun coin => coin.coinObjectId ∉ g.payment

/-- The coins that are not part of the payment stay. -/
theorem Gas.mem_charge (g : Gas A) {wallet : List (CoinStruct A)} {coin : CoinStruct A}
    (hmem : coin ∈ wallet) (hfree : coin.coinObjectId ∉ g.payment) : coin ∈ g.charge wallet := by
  simp [Gas.charge, hmem, hfree]

/-! ## Sessions -/

/-- A purchase under way. -/
structure Purchase (A : Type) where
  item : A
  coin : A
  ask : UInt64
  deriving DecidableEq

/-- What a button of the page hands to `signAndExecuteTransactionBlock`. -/
inductive Submission (A : Type)
  | split (amount : UInt64)
  | purchase (purchase : Purchase A)
  | delisting (nftId : Option A)
  deriving DecidableEq

/-- A transaction under way, with its number among all that the page submitted. -/
structure Mutation (A : Type) where
  mutationId : ℕ
  submission : Submission A
  deriving DecidableEq

/-- The page, the coins the wallet holds and what it held before, the transactions
that were submitted and have not completed, and the coins of the splits whose
`onSuccess` waits for `getCoins`.  Order, Buy and Delist share one observer, and the
mutation it observes is the last that was made, number `currentMutation`. -/
structure Session (A : Type) where
  page : Page A
  wallet : List (CoinStruct A)
  pastWallets : List (List (CoinStruct A))
  mutations : List (Mutation A)
  currentMutation : ℕ
  refetching : List (CoinStruct A)
  deriving DecidableEq

/-- What can happen next. -/
inductive SessionEvent (A : Type)
  | click (item nft : Obj A) (option : CardOption)
  | close
  /-- Order is pressed. -/
  | order
  /-- A split completes; the new coin is `coinId`. -/
  | splitDone (mutationId : ℕ) (amount : UInt64) (gas : Gas A) (coinId : A)
  /-- The callback of the split of `coin` ends.  `getCoins` has answered `data`, the
  wallet as it is or as it was when the node was asked, or nothing: a refetch that
  fails, or that the next one cancels, ends as well. -/
  | refetched (coin : CoinStruct A) (data : Option (List (CoinStruct A)))
  /-- Buy is pressed. -/
  | buy
  /-- A purchase completes. -/
  | buyDone (mutationId : ℕ) (purchase : Purchase A) (gas : Gas A)
  /-- Delist is pressed. -/
  | delist
  /-- A delisting completes. -/
  | delistDone (mutationId : ℕ) (nftId : Option A) (gas : Gas A)

namespace Session

/-- The wallet after a split. -/
def splitWallet (s : Session A) (amount : UInt64) (gas : Gas A) (coinId : A) :
    List (CoinStruct A) :=
  ⟨coinId, amount⟩ :: gas.charge s.wallet

/-- The wallet without the coin that was paid. -/
def paidWallet (s : Session A) (purchase : Purchase A) : List (CoinStruct A) :=
  s.wallet.filter fun coin => coin.coinObjectId ≠ purchase.coin

omit [DecidableEq A] in
/-- A new mutation is made, and observed in place of the one before. -/
def mutate (s : Session A) (submission : Submission A) : Session A :=
  { s with
    mutations := ⟨s.currentMutation + 1, submission⟩ :: s.mutations
    currentMutation := s.currentMutation + 1 }

/-- A mutation completes, and leaves this wallet. -/
def complete (s : Session A) (mutation : Mutation A) (wallet : List (CoinStruct A)) : Session A :=
  { s with
    wallet
    pastWallets := s.wallet :: s.pastWallets
    mutations := s.mutations.erase mutation }

/-- One event.  Order and Buy are buttons of one dialog, Delist is one of the
other. -/
def step (s : Session A) : SessionEvent A → Option (Session A)
  | .click item nft option => some { s with page := handleItemClick s.page item nft option }
  | .close => some { s with page := handleClose s.page }
  | .order =>
    if s.page.shown then
      match splituseCoin s.page with
      | some amount => some (s.mutate (.split amount))
      | none => some s
    else none
  | .splitDone mutationId amount gas coinId =>
    if ⟨mutationId, .split amount⟩ ∈ s.mutations ∧ gas.Pays s.wallet amount.toNat ∧
        coinId ∉ s.wallet.map CoinStruct.coinObjectId then
      let done := s.complete ⟨mutationId, .split amount⟩ (s.splitWallet amount gas coinId)
      -- `onSuccess` is called only for the mutation that is observed
      if mutationId = s.currentMutation then
        some { done with refetching := ⟨coinId, amount⟩ :: s.refetching }
      else some done
    else none
  | .refetched coin data =>
    if coin ∈ s.refetching ∧
        ∀ answer ∈ data, ∃ wallet ∈ s.wallet :: s.pastWallets, answer.Perm wallet then
      some { s with
        refetching := s.refetching.erase coin
        page := { s.page with
          coinData := data <|> s.page.coinData
          isButtonDisabled := false } }
    else none
  | .buy =>
    if s.page.shown ∧ s.page.isButtonDisabled = false then
      match buyandTakeNFT s.page, s.page.orderData.bind Obj.ask with
      | some (item, some coin), some ask => some (s.mutate (.purchase ⟨item, coin, ask⟩))
      -- `txb.object(null)` is an error
      | _, _ => some s
    else none
  | .buyDone mutationId purchase gas =>
    if ⟨mutationId, .purchase purchase⟩ ∈ s.mutations ∧ ⟨purchase.coin, purchase.ask⟩ ∈ s.wallet ∧
        gas.Pays (s.paidWallet purchase) 0 then
      -- its callback looks at the market again, and not at the coins
      some (s.complete ⟨mutationId, .purchase purchase⟩ (gas.charge (s.paidWallet purchase)))
    else none
  | .delist =>
    if s.page.delistShown then some (s.mutate (.delisting s.page.nftId)) else none
  | .delistDone mutationId nftId gas =>
    if ⟨mutationId, .delisting nftId⟩ ∈ s.mutations ∧ gas.Pays s.wallet 0 then
      -- its callback ends as `close` does
      some (s.complete ⟨mutationId, .delisting nftId⟩ (gas.charge s.wallet))
    else none

omit [DecidableEq A] in
/-- The page before the first click. -/
def start (wallet : List (CoinStruct A)) (coinData : Option (List (CoinStruct A)))
    (balance : Option ℕ) : Session A where
  page := {
    orderData := none
    nftData := none
    nftId := none
    isButtonDisabled := true
    shown := false
    delistShown := false
    coinData
    balance }
  wallet
  pastWallets := []
  mutations := []
  currentMutation := 0
  refetching := []

end Session

/-! ## Which coin is chosen -/

omit [DecidableEq A] in
/-- The last coin of the page that reads as the same number as the ask. -/
def Chosen (data : List (CoinStruct A)) (ask : UInt64) (coin : CoinStruct A) : Prop :=
  ∃ before after, data = before ++ coin :: after ∧
    toNumber coin.balance.toNat = toNumber ask.toNat ∧
    ∀ c ∈ after, toNumber c.balance.toNat ≠ toNumber ask.toNat

namespace Chosen

variable {data : List (CoinStruct A)} {ask : UInt64} {coin : CoinStruct A}

omit [DecidableEq A] in
theorem mem (h : Chosen data ask coin) : coin ∈ data := by
  obtain ⟨before, after, rfl, -, -⟩ := h
  simp

omit [DecidableEq A] in
/-- The loop of `getusefulcoinid` ends with this coin. -/
theorem getusefulcoinid (h : Chosen data ask coin) :
    BookMarket.getusefulcoinid (some data) (some ask) = some coin.coinObjectId := by
  obtain ⟨before, after, rfl, heq, hafter⟩ := h
  simp only [BookMarket.getusefulcoinid, List.foldl_append, List.foldl_cons, Option.map_some,
    Option.some.injEq, heq, if_true]
  -- no coin after it replaces it
  clear heq
  induction after with
  | nil => rfl
  | cons c after ih =>
    rw [List.foldl_cons, if_neg (hafter c (by simp))]
    exact ih fun c' h => hafter c' (by simp [h])

omit [DecidableEq A] in
/-- Some coin is chosen if there is one to choose. -/
theorem exists_of_mem
    (h : ∃ coin ∈ data, toNumber coin.balance.toNat = toNumber ask.toNat) :
    ∃ coin, Chosen data ask coin := by
  induction data with
  | nil =>
    obtain ⟨coin, hmem, -⟩ := h
    exact (List.not_mem_nil hmem).elim
  | cons c data ih =>
    by_cases hlater : ∃ coin ∈ data, toNumber coin.balance.toNat = toNumber ask.toNat
    · obtain ⟨coin, before, after, rfl, heq, hafter⟩ := ih hlater
      exact ⟨coin, c :: before, after, rfl, heq, hafter⟩
    · have hnone : ∀ c' ∈ data, toNumber c'.balance.toNat ≠ toNumber ask.toNat :=
        fun c' hc' heq => hlater ⟨c', hc', heq⟩
      obtain ⟨coin, hmem, heq⟩ := h
      rcases List.mem_cons.1 hmem with rfl | hmem
      · exact ⟨coin, [], data, rfl, heq, hnone⟩
      · exact absurd heq (hnone coin hmem)

omit [DecidableEq A] in
/-- For an ask below `2^53` the coin that is chosen is worth the ask. -/
theorem balance_eq (h : Chosen data ask coin) (hlt : ask.toNat < 2 ^ 53) : coin.balance = ask := by
  obtain ⟨_, _, -, heq, -⟩ := h
  exact UInt64.toNat_inj.1 (eq_of_toNumber_eq hlt heq)

end Chosen

/-! ## When Buy is offered -/

omit [DecidableEq A] in
/-- The cards that were clicked. -/
def clickedCards (es : List (SessionEvent A)) : List (Obj A × Obj A) :=
  es.filterMap fun
    | .click item nft _ => some (item, nft)
    | _ => none

omit [DecidableEq A] in
/-- Buy is offered only when it can be paid: the order comes from a card that was
clicked, the wallet holds a coin worth exactly its ask, and `BuyandTakeNFT` passes
the item of that card and such a coin. -/
def Payable (es : List (SessionEvent A)) (s : Session A) : Prop :=
  s.page.isButtonDisabled = false →
    ∃ card ∈ clickedCards es, s.page.orderData = some card.1 ∧ s.page.nftData = some card.2 ∧
      ∃ ask, card.1.ask = some ask ∧ ∃ coin ∈ s.wallet, coin.balance = ask ∧
        buyandTakeNFT s.page = some (card.2.id, some coin.coinObjectId)

omit [DecidableEq A] in
/-- While Buy is offered, the coin it would be paid with is not among these. -/
def Spares (s : Session A) (taken : List A) : Prop :=
  s.page.isButtonDisabled = true ∨
    ∀ ask data coin, s.page.orderData.bind Obj.ask = some ask → s.page.coinData = some data →
      Chosen data ask coin → coin.coinObjectId ∉ taken

omit [DecidableEq A] in
/-- The steps that keep it so.  A transaction that completes, with its callback or
without, spends no coin and uses none as gas that Buy would be paid with.  A
callback ends while an order of the amount that was split is selected, with an answer
that has the coin of it, and the coin that is chosen from then on is worth this amount
and has not been taken since the answer. -/
def Harmless (s : Session A) : SessionEvent A → Prop
  | .splitDone _ _ gas _ => Spares s gas.payment
  | .refetched split data =>
    s.page.orderData.bind Obj.ask = some split.balance ∧
      ∃ answer, data = some answer ∧ split ∈ answer ∧
        ∀ coin, Chosen answer split.balance coin →
          coin.balance = split.balance ∧ coin ∈ s.wallet
  | .buyDone _ purchase gas => Spares s (purchase.coin :: gas.payment)
  | .delistDone _ _ gas => Spares s gas.payment
  | _ => True

/-- The steps of a session. -/
def Session.Step (s : Session A) (e : SessionEvent A) (s' : Session A) : Prop :=
  s.step e = some s'

/-- The steps of a session that are harmless. -/
def Session.HarmlessStep (s : Session A) (e : SessionEvent A) (s' : Session A) : Prop :=
  s.Step e s' ∧ Harmless s e

/-! ## The invariant -/

omit [DecidableEq A] in
/-- What holds in every harmless run: order and item come from one card, and while
Buy is offered, the chosen coin is in the wallet and worth the ask. -/
structure Ready (es : List (SessionEvent A)) (s : Session A) : Prop where
  card : (s.page.orderData = none ∧ s.page.nftData = none) ∨
    ∃ card ∈ clickedCards es, s.page.orderData = some card.1 ∧ s.page.nftData = some card.2
  coin : s.page.isButtonDisabled = false →
    ∃ ask data coin, s.page.orderData.bind Obj.ask = some ask ∧ s.page.coinData = some data ∧
      Chosen data ask coin ∧ coin ∈ s.wallet ∧ coin.balance = ask

namespace Ready

variable {es : List (SessionEvent A)} {s s' : Session A} {e : SessionEvent A}

omit [DecidableEq A] in
theorem start (wallet : List (CoinStruct A)) (coinData : Option (List (CoinStruct A)))
    (balance : Option ℕ) : Ready [] (Session.start wallet coinData balance) :=
  ⟨Or.inl ⟨rfl, rfl⟩, fun h => by cases h⟩

omit [DecidableEq A] in
theorem payable (h : Ready es s) : Payable es s := by
  intro hd
  obtain ⟨ask, data, coin, hask, hdata, hchosen, hmem, hval⟩ := h.coin hd
  rcases h.card with ⟨hnone, -⟩ | ⟨card, hcard, horder, hnft⟩
  · rw [hnone] at hask
    cases hask
  · refine ⟨card, hcard, horder, hnft, ask, ?_, coin, hmem, hval, ?_⟩
    · rwa [horder] at hask
    · rw [buyandTakeNFT, hnft, hask, hdata, hchosen.getusefulcoinid]
      rfl

omit [DecidableEq A] in
theorem clickedCards_append (es : List (SessionEvent A)) (e : SessionEvent A)
    {card : Obj A × Obj A} (h : card ∈ clickedCards es) : card ∈ clickedCards (es ++ [e]) := by
  rw [clickedCards, List.filterMap_append]
  exact List.mem_append_left _ h

omit [DecidableEq A] in
/-- The first half concerns clicks only. -/
theorem card_congr (h : Ready es s) (horder : s'.page.orderData = s.page.orderData)
    (hnft : s'.page.nftData = s.page.nftData) :
    (s'.page.orderData = none ∧ s'.page.nftData = none) ∨
      ∃ card ∈ clickedCards (es ++ [e]), s'.page.orderData = some card.1 ∧
        s'.page.nftData = some card.2 := by
  rw [horder, hnft]
  exact h.card.imp_right fun ⟨card, hcard, hpair⟩ => ⟨card, clickedCards_append es e hcard, hpair⟩

omit [DecidableEq A] in
/-- The second half is kept by what leaves the page alone, and in the wallet every
coin that is not taken. -/
theorem coin_of_spares {taken : List A} (h : Ready es s) (hspares : Spares s taken)
    (hpage : s'.page = s.page)
    (hwallet : ∀ coin ∈ s.wallet, coin.coinObjectId ∉ taken → coin ∈ s'.wallet)
    (hd : s'.page.isButtonDisabled = false) :
    ∃ ask data coin, s'.page.orderData.bind Obj.ask = some ask ∧ s'.page.coinData = some data ∧
      Chosen data ask coin ∧ coin ∈ s'.wallet ∧ coin.balance = ask := by
  rw [hpage] at hd ⊢
  obtain ⟨ask, data, coin, hask, hdata, hchosen, hmem, hval⟩ := h.coin hd
  rcases hspares with hdis | hkeep
  · rw [hdis] at hd
    cases hd
  · have hfree := hkeep ask data coin hask hdata hchosen
    exact ⟨ask, data, coin, hask, hdata, hchosen, hwallet coin hmem hfree, hval⟩

/-- **One step.** -/
theorem step (h : Ready es s) (hs : s.HarmlessStep e s') : Ready (es ++ [e]) s' := by
  obtain ⟨hs, hok⟩ := hs
  cases e with
  | click item nft option =>
    cases hs
    have hpage : (handleItemClick s.page item nft option).isButtonDisabled = true ∧
        (handleItemClick s.page item nft option).orderData = some item ∧
        (handleItemClick s.page item nft option).nftData = some nft := by
      cases hn : s.page.nftData <;> cases option <;> simp [handleItemClick, hn]
    constructor
    · exact Or.inr ⟨(item, nft), by simp [clickedCards], hpage.2.1, hpage.2.2⟩
    · intro hd
      rw [hpage.1] at hd
      cases hd
  | close =>
    cases hs
    exact ⟨h.card_congr rfl rfl, h.coin⟩
  | order =>
    simp only [Session.Step, Session.step] at hs
    split at hs
    · split at hs
      · cases hs
        exact ⟨h.card_congr rfl rfl, h.coin⟩
      · cases hs
        exact ⟨h.card_congr rfl rfl, h.coin⟩
    · cases hs
  | splitDone mutationId amount gas coinId =>
    simp only [Session.Step, Session.step] at hs
    have hkeep : ∀ coin ∈ s.wallet, coin.coinObjectId ∉ gas.payment →
        coin ∈ s.splitWallet amount gas coinId :=
      fun coin hmem hfree => List.mem_cons_of_mem _ (gas.mem_charge hmem hfree)
    split at hs
    · -- the page is the same whether the callback is called or not
      split at hs
      · cases hs
        exact ⟨h.card_congr rfl rfl, h.coin_of_spares hok rfl hkeep⟩
      · cases hs
        exact ⟨h.card_congr rfl rfl, h.coin_of_spares hok rfl hkeep⟩
    · cases hs
  | refetched split data =>
    simp only [Session.Step, Session.step] at hs
    split at hs
    · cases hs
      refine ⟨h.card_congr rfl rfl, fun _ => ?_⟩
      obtain ⟨hask, answer, rfl, hsplit, hright⟩ := hok
      -- the coin that was split off is in the answer, so one is chosen, and it is a right one
      obtain ⟨coin, hchosen⟩ := Chosen.exists_of_mem ⟨split, hsplit, rfl⟩
      obtain ⟨hval, hheld⟩ := hright coin hchosen
      exact ⟨split.balance, answer, coin, hask, rfl, hchosen, hheld, hval⟩
    · cases hs
  | buy =>
    simp only [Session.Step, Session.step] at hs
    split at hs
    · split at hs
      · cases hs
        exact ⟨h.card_congr rfl rfl, h.coin⟩
      · cases hs
        exact ⟨h.card_congr rfl rfl, h.coin⟩
    · cases hs
  | buyDone mutationId purchase gas =>
    simp only [Session.Step, Session.step] at hs
    split at hs
    · cases hs
      refine ⟨h.card_congr rfl rfl, h.coin_of_spares hok rfl fun coin hmem hfree => ?_⟩
      rw [List.mem_cons, not_or] at hfree
      have hkept : coin ∈ s.paidWallet purchase := by
        simp [Session.paidWallet, hmem, hfree.1]
      exact gas.mem_charge hkept hfree.2
    · cases hs
  | delist =>
    simp only [Session.Step, Session.step] at hs
    split at hs
    · cases hs
      exact ⟨h.card_congr rfl rfl, h.coin⟩
    · cases hs
  | delistDone mutationId nftId gas =>
    simp only [Session.Step, Session.step] at hs
    split at hs
    · cases hs
      exact ⟨h.card_congr rfl rfl,
        h.coin_of_spares hok rfl fun coin hmem hfree => gas.mem_charge hmem hfree⟩
    · cases hs

end Ready

/-- **In every run of harmless steps Buy is offered only when it can be paid**: from
the first load of the page on, whatever the wallet holds, in every state that
clicks, orders, splits, purchases and delistings lead to in any order, if every
callback of a split ends for the order that is selected, with an answer from which a
right coin is chosen, and no transaction takes the chosen coin away. -/
theorem buyOffered {wallet : List (CoinStruct A)} {coinData : Option (List (CoinStruct A))}
    {balance : Option ℕ} {es : List (SessionEvent A)} {s : Session A}
    (hrun : Run Session.HarmlessStep (Session.start wallet coinData balance) es s) :
    Payable es s :=
  (hrun.historyInvariant (Ready.start wallet coinData balance)
    fun _ hready hs => hready.step hs).payable

omit [DecidableEq A] in
/-- Buy is offered, and no coin is worth the ask. -/
theorem not_payable {es : List (SessionEvent A)} {s : Session A} {order : Obj A} {ask : UInt64}
    (hd : s.page.isButtonDisabled = false) (ho : s.page.orderData = some order)
    (ha : order.ask = some ask) (hnone : ∀ coin ∈ s.wallet, coin.balance ≠ ask) :
    ¬ Payable es s := by
  intro h
  obtain ⟨card, -, horder, -, ask', hask, coin, hmem, hval, -⟩ := h hd
  cases ho.symm.trans horder
  cases ha.symm.trans hask
  exact hnone coin hmem hval

/-! Two listings, for 5 and for 7, and a wallet with one coin. -/

def listing5 : Obj ℕ := ⟨10, .listing 5 1⟩

def item5 : Obj ℕ := ⟨11, .item (.other 0 [])⟩

def listing7 : Obj ℕ := ⟨20, .listing 7 1⟩

def item7 : Obj ℕ := ⟨21, .item (.other 0 [])⟩

def freshPage : Session ℕ :=
  Session.start [⟨100, 1000⟩] (some [⟨100, 1000⟩]) (some 1000)

/-- The split for 5 completes, with 2 spent on gas, and its callback ends. -/
def split5 : List (SessionEvent ℕ) :=
  [.splitDone 1 5 ⟨100, [], 2, 0, 993⟩ 101, .refetched ⟨101, 5⟩ (some [⟨100, 993⟩, ⟨101, 5⟩])]

/-- One order: the first click on a fresh page opens no dialog. -/
def oneOrder : List (SessionEvent ℕ) :=
  [.click listing5 item5 .buy, .click listing5 item5 .buy, .order] ++ split5

/-- The page when the coin has been split off. -/
def ordered : Session ℕ where
  page := {
    orderData := some listing5
    nftData := some item5
    nftId := some 11
    isButtonDisabled := false
    shown := true
    delistShown := false
    coinData := some [⟨100, 993⟩, ⟨101, 5⟩]
    balance := some 1000 }
  wallet := [⟨101, 5⟩, ⟨100, 993⟩]
  pastWallets := [[⟨100, 1000⟩]]
  mutations := []
  currentMutation := 1
  refetching := []

/-- With one order Buy is offered with the coin that was split off. -/
theorem buyOffered_oneOrder :
    ordered.page.isButtonDisabled = false ∧ Payable oneOrder ordered ∧
      buyandTakeNFT ordered.page = some (11, some 101) := by
  have hsteps : Run Session.HarmlessStep freshPage oneOrder ordered := by
    refine .cons ⟨rfl, trivial⟩ (.cons ⟨rfl, trivial⟩ (.cons ⟨rfl, trivial⟩
      (.cons ⟨rfl, Or.inl rfl⟩ (.single ⟨?_, rfl, _, rfl, by decide, ?_⟩))))
    · rw [Session.Step]
      decide +kernel
    · intro coin hchosen
      have hval : coin.balance = 5 := hchosen.balance_eq (by decide)
      have hmem := hchosen.mem
      simp only [List.mem_cons, List.not_mem_nil, or_false] at hmem
      -- the other coin is not worth 5
      rcases hmem with rfl | rfl
      · cases hval
      · exact ⟨rfl, by decide⟩
  exact ⟨rfl, buyOffered hsteps, by decide +kernel⟩

/-- A second card is clicked before the split for the first is done. -/
def twoOrders : List (SessionEvent ℕ) :=
  [.click listing5 item5 .buy, .click listing5 item5 .buy, .order, .close,
    .click listing7 item7 .buy] ++ split5

/-- The item is bought, and the page stays as it is. -/
def boughtOnce : List (SessionEvent ℕ) :=
  oneOrder ++ [.buy, .buyDone 2 ⟨11, 101, 5⟩ ⟨100, [], 1, 0, 992⟩]

/-- Buy is offered although it cannot be paid: after the callback of a split for
another order, with no coin to pass, and after a purchase, with the coin that has
been spent. -/
theorem buyOffered_wrong :
    (∃ s, Run Session.Step freshPage twoOrders s ∧ s.page.shown = true ∧
      s.page.isButtonDisabled = false ∧ s.page.orderData = some listing7 ∧
      (∀ coin ∈ s.wallet, coin.balance ≠ 7) ∧ buyandTakeNFT s.page = some (21, none) ∧
      ¬ Payable twoOrders s) ∧
    ∃ s, Run Session.Step freshPage boughtOnce s ∧ s.page.shown = true ∧
      s.page.isButtonDisabled = false ∧ s.page.orderData = some listing5 ∧
      (∀ coin ∈ s.wallet, coin.balance ≠ 5) ∧ buyandTakeNFT s.page = some (11, some 101) ∧
      ¬ Payable boughtOnce s := by
  constructor
  · refine ⟨{ ordered with page := { ordered.page with
      orderData := some listing7, nftData := some item7 } },
      Run.of_foldlM (by decide +kernel), rfl, rfl, rfl, by decide, by decide +kernel, ?_⟩
    exact not_payable rfl rfl rfl (by decide)
  · refine ⟨{ ordered with
      wallet := [⟨100, 992⟩]
      pastWallets := ordered.wallet :: ordered.pastWallets
      currentMutation := 2 },
      Run.of_foldlM (by decide +kernel), rfl, rfl, rfl, by decide, by decide +kernel, ?_⟩
    exact not_payable rfl rfl rfl (by decide)

end BookMarket
