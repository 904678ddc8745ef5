import BookMarket.Lib.Lists
import BookMarket.Dapp.BuyCall

/-!
# The dialogs of the two pages

A click on a card of the Market page opens a dialog to buy or to delist, one on a
card of the MyAsset page a dialog to list or to read.  Both pages keep the card
(`NFTData`) and, once more, its identifier (`NFTid`), which is what the dialog shows
and what `DelistandTakeNFT` sends.

The handlers set `NFTid` from `NFTData` as it was before the click.  So the
identifier is always one card behind, and the first click of all, when `NFTData` is
still `{}`, is an error before the dialog opens.

* `marketAct`, `MyAsset.act` — what can be done on the two pages.
* `marketAct_nftData`, `MyAsset.act_nftData` — the pages remember the last card.
* `dialogs` — **a dialog is about the card that was clicked exactly when the last
  card clicked before was the same.**
-/

namespace BookMarket

variable {A : Type}

/-! ## The Market page -/

/-- What can happen on the Market page between two renderings.  Whatever else the
page learns in the meantime comes as `answer`. -/
inductive MarketAction (A : Type)
  | click (item nft : Obj A) (option : CardOption)
  | close
  | delistClose
  | answer (coinData : Option (List (CoinStruct A))) (balance : Option ℕ) (isButtonDisabled : Bool)

def handledeClose (p : Page A) : Page A := { p with delistShown := false }

def marketAct (p : Page A) : MarketAction A → Page A
  | .click item nft option => handleItemClick p item nft option
  | .close => handleClose p
  | .delistClose => handledeClose p
  | .answer coinData balance isButtonDisabled => { p with coinData, balance, isButtonDisabled }

/-- The page when it is mounted. -/
def marketPageStart (coinData : Option (List (CoinStruct A))) (balance : Option ℕ) : Page A :=
  (Session.start [] coinData balance).page

/-- The page after some actions. -/
def marketSession (coinData : Option (List (CoinStruct A))) (balance : Option ℕ)
    (acts : List (MarketAction A)) : Page A :=
  acts.foldl marketAct (marketPageStart coinData balance)

/-- The dialog a card is clicked for is open. -/
def dialogShown (p : Page A) : CardOption → Bool
  | .buy => p.shown
  | .delist => p.delistShown

/-- The NFT of the card that is clicked. -/
def MarketAction.clicked : MarketAction A → Option (Obj A)
  | .click _ nft _ => some nft
  | _ => none

/-- `txb.object`: the empty text is padded to the address `0x0`. -/
def txbObject [AddressSpace A] (id : Option A) : A :=
  id.getD AddressSpace.zero

/-- The call `DelistandTakeNFT` builds; it is an error while `orderData` is `{}`. -/
def delistandTakeNFT [AddressSpace A] (marketid : A) (p : Page A) : Option (Call A) :=
  p.orderData.map fun _ => .delistAndTake nftType coinType marketid (txbObject p.nftId)

/-- What a click is for: its dialog is open, shows the identifier of the card, and to
delist now is to delist this card. -/
def MarketClickRight [AddressSpace A] (marketid : A) (p : Page A) (nft : Obj A)
    (option : CardOption) : Prop :=
  dialogShown p option = true ∧ p.nftId = some nft.id ∧
    delistandTakeNFT marketid p = some (.delistAndTake nftType coinType marketid nft.id)

/-! ## The MyAsset page -/

/-- The state of the MyAsset page.  `NFTData` is `{}` before the first click, and
`askPrice` is the text of the price field. -/
structure AssetPage (A : Type) where
  nftData : Option (Obj A)
  askPrice : List Char
  nftId : Option A
  shown : Bool
  detailShown : Bool

namespace MyAsset

/-- What a card was clicked for. -/
inductive CardOption
  | list
  | detail
  deriving DecidableEq

def handleItemClick (p : AssetPage A) (nft : Obj A) (option : CardOption) : AssetPage A :=
  let clicked := { p with nftData := some nft }
  match p.nftData, option with
  -- the same error as on the Market page
  | none, _ => clicked
  | some last, .list => { clicked with nftId := some last.id, shown := true }
  | some last, .detail => { clicked with nftId := some last.id, detailShown := true }

def handleClose (p : AssetPage A) : AssetPage A := { p with shown := false }

def handledeClose (p : AssetPage A) : AssetPage A := { p with detailShown := false }

def handleChange (p : AssetPage A) (value : List Char) : AssetPage A := { p with askPrice := value }

/-- What can happen on the MyAsset page. -/
inductive Action (A : Type)
  | click (nft : Obj A) (option : CardOption)
  | close
  | detailClose
  | change (value : List Char)

def act (p : AssetPage A) : Action A → AssetPage A
  | .click nft option => handleItemClick p nft option
  | .close => handleClose p
  | .detailClose => handledeClose p
  | .change value => handleChange p value

/-- The page when it is mounted. -/
def start : AssetPage A where
  nftData := none
  askPrice := []
  nftId := none
  shown := false
  detailShown := false

/-- The page after some actions. -/
def session (acts : List (Action A)) : AssetPage A :=
  acts.foldl act start

def dialogShown (p : AssetPage A) : CardOption → Bool
  | .list => p.shown
  | .detail => p.detailShown

def Action.clicked : Action A → Option (Obj A)
  | .click nft _ => some nft
  | _ => none

/-- The dialog is open and shows the identifier of the card. -/
def ClickRight (p : AssetPage A) (nft : Obj A) (option : CardOption) : Prop :=
  dialogShown p option = true ∧ p.nftId = some nft.id

end MyAsset

/-! ## One card behind -/

theorem marketAct_nftData (p : Page A) (a : MarketAction A) :
    (marketAct p a).nftData = a.clicked.or p.nftData := by
  cases a with
  | click item nft option =>
    cases hn : p.nftData with
    | none => simp [marketAct, handleItemClick, hn, MarketAction.clicked]
    | some last => cases option <;> simp [marketAct, handleItemClick, hn, MarketAction.clicked]
  | _ => rfl

theorem MyAsset.act_nftData (p : AssetPage A) (a : Action A) :
    (act p a).nftData = a.clicked.or p.nftData := by
  cases a with
  | click nft option =>
    cases hn : p.nftData with
    | none => simp [act, handleItemClick, hn, Action.clicked]
    | some last => cases option <;> simp [act, handleItemClick, hn, Action.clicked]
  | _ => rfl

/-- One click on the Market page, once a card has been clicked, -/
theorem marketClickRight_some [AddressSpace A] {marketid : A} {p : Page A} {last : Obj A}
    (hn : p.nftData = some last) (item nft : Obj A) (option : CardOption) :
    MarketClickRight marketid (handleItemClick p item nft option) nft option ↔
      last.id = nft.id := by
  cases option <;>
    simp [MarketClickRight, handleItemClick, hn, dialogShown, delistandTakeNFT, txbObject]

/-- and on the MyAsset page. -/
theorem MyAsset.clickRight_some {p : AssetPage A} {last : Obj A} (hn : p.nftData = some last)
    (nft : Obj A) (option : CardOption) :
    ClickRight (handleItemClick p nft option) nft option ↔ last.id = nft.id := by
  cases option <;> simp [ClickRight, handleItemClick, hn, dialogShown]

/-- Before the first click no identifier is known, and this click does not set
one. -/
theorem marketClickRight_none [AddressSpace A] {marketid : A} {p : Page A}
    (hn : p.nftData = none) (hid : p.nftId = none) (item nft : Obj A) (option : CardOption) :
    ¬ MarketClickRight marketid (handleItemClick p item nft option) nft option := by
  rintro ⟨-, hid', -⟩
  simp [handleItemClick, hn, hid] at hid'

theorem MyAsset.clickRight_none {p : AssetPage A} (hn : p.nftData = none) (hid : p.nftId = none)
    (nft : Obj A) (option : CardOption) :
    ¬ ClickRight (handleItemClick p nft option) nft option := by
  rintro ⟨-, hid'⟩
  simp [handleItemClick, hn, hid] at hid'

theorem marketAct_nftId {p : Page A} (h : p.nftData = none → p.nftId = none)
    (a : MarketAction A) : (marketAct p a).nftData = none → (marketAct p a).nftId = none := by
  cases a with
  | click item nft option => simp [marketAct_nftData, MarketAction.clicked]
  | _ => exact h

theorem MyAsset.act_nftId {p : AssetPage A} (h : p.nftData = none → p.nftId = none)
    (a : Action A) : (act p a).nftData = none → (act p a).nftId = none := by
  cases a with
  | click nft option => simp [act_nftData, Action.clicked]
  | _ => exact h

/-! ## Whole sessions -/

/-- **One more click on the Market page**, whatever has been done there before. -/
theorem marketDialog [AddressSpace A] (marketid : A) (coinData : Option (List (CoinStruct A)))
    (balance : Option ℕ) (acts : List (MarketAction A)) (item nft : Obj A) (option : CardOption) :
    MarketClickRight marketid (marketSession coinData balance (acts ++ [.click item nft option]))
        nft option ↔
      ∃ last, (acts.filterMap MarketAction.clicked).getLast? = some last ∧ last.id = nft.id := by
  refine Lists.foldl_concat_iff (P := fun p => MarketClickRight marketid p nft option)
    (I := fun p => p.nftData = none → p.nftId = none) marketAct_nftData
    (fun p a hp => marketAct_nftId hp a) (fun _ => rfl) rfl ?_ ?_ acts
  · intro p hp hn
    exact marketClickRight_none hn (hp hn) item nft option
  · intro p last hn
    exact marketClickRight_some hn item nft option

/-- **One more click on the MyAsset page.** -/
theorem MyAsset.assetDialog (acts : List (Action A)) (nft : Obj A) (option : CardOption) :
    ClickRight (session (acts ++ [.click nft option])) nft option ↔
      ∃ last, (acts.filterMap Action.clicked).getLast? = some last ∧ last.id = nft.id := by
  refine Lists.foldl_concat_iff (P := fun p => ClickRight p nft option)
    (I := fun p => p.nftData = none → p.nftId = none) act_nftData
    (fun p a hp => act_nftId hp a) (fun _ => rfl) rfl ?_ ?_ acts
  · intro p hp hn
    exact clickRight_none hn (hp hn) nft option
  · intro p last hn
    exact clickRight_some hn nft option

/-- **A dialog is about the card that was clicked exactly when the last card clicked
before was the same.**  In every session on either page, from the moment it is
mounted, after every click: the dialog is open and shows the identifier of the card,
and on the Market page this is what `DelistandTakeNFT` sends, if and only if there
was a click before and the last one was on a card with the same identifier. -/
theorem dialogs [AddressSpace A] (marketid : A) :
    (∀ (coinData : Option (List (CoinStruct A))) (balance : Option ℕ)
      (acts : List (MarketAction A)) (item nft : Obj A) (option : CardOption),
      MarketClickRight marketid (marketSession coinData balance (acts ++ [.click item nft option]))
          nft option ↔
        ∃ last, (acts.filterMap MarketAction.clicked).getLast? = some last ∧
          last.id = nft.id) ∧
    ∀ (acts : List (MyAsset.Action A)) (nft : Obj A) (option : MyAsset.CardOption),
      MyAsset.ClickRight (MyAsset.session (acts ++ [.click nft option])) nft option ↔
        ∃ last, (acts.filterMap MyAsset.Action.clicked).getLast? = some last ∧
          last.id = nft.id :=
  ⟨marketDialog marketid, MyAsset.assetDialog⟩

/-- Two listings of user 1, and the NFTs in them. -/
def order (n : ℕ) : Obj Addr := ⟨.derived 4 n, .listing 5 (.user 1)⟩

def shownBook (n : ℕ) : Obj Addr := ⟨.derived 2 n, .item (.bookNFT shortBook)⟩

/-- Delist is clicked on the first card, -/
def firstClick : Page Addr :=
  marketSession none none [.click (order 0) (shownBook 0) .delist]

/-- and then on the second. -/
def secondClick : Page Addr :=
  marketSession none none
    [.click (order 0) (shownBook 0) .delist, .click (order 1) (shownBook 1) .delist]

/-- The same with Detail, on the MyAsset page. -/
def secondDetail : AssetPage Addr :=
  MyAsset.session [.click (shownBook 0) .detail, .click (shownBook 1) .detail]

/-- The first click opens nothing, and the dialog for the second card shows the first
one, and delists it. -/
theorem dialogs_wrong :
    (firstClick.delistShown = false ∧ firstClick.nftId = none ∧
      ¬ MarketClickRight (.derived 1 0) firstClick (shownBook 0) .delist) ∧
    (secondClick.delistShown = true ∧ secondClick.nftData = some (shownBook 1) ∧
      secondClick.nftId = some (shownBook 0).id ∧
      delistandTakeNFT (.derived 1 0) secondClick =
        some (.delistAndTake .bookNFT .sui (.derived 1 0) (shownBook 0).id) ∧
      ¬ MarketClickRight (.derived 1 0) secondClick (shownBook 1) .delist) ∧
    secondDetail.detailShown = true ∧ secondDetail.nftId = some (shownBook 0).id ∧
    ¬ MyAsset.ClickRight secondDetail (shownBook 1) .detail := by
  refine ⟨⟨rfl, rfl, fun h => ?_⟩, ⟨rfl, rfl, rfl, rfl, fun h => ?_⟩, rfl, rfl, fun h => ?_⟩
  · cases h.1
  · cases h.2.1
  · cases h.2

end BookMarket
