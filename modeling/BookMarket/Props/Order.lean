import BookMarket.Props.NftIntegrity
import BookMarket.Props.Passive
import BookMarket.Props.Supply

/-!
# From an order to a purchase

A buyer looks at a listing, orders it, which splits a coin of the ask off another
one, and calls `buy_and_take` with this coin, at the type that was seen, some time
later.  In between others do what they like.  The coin is still there then, the
purchase goes through exactly when the item is listed at the ask that was seen, and
what it delivers is the thing that was seen.

* `Item.fixed` — what can never change about an item; `itemIdentity` — **an
  identifier stands for one thing**, and for nothing once that is gone.
* `orderTx` — the transaction behind Order; `History.order_inv` — what it leaves.
* `orderThenBuy` — **a purchase is of what was seen, at the price that was seen,
  or of nothing.**
-/

namespace BookMarket

open Runs
open Function (update)

variable {A : Type}

/-! ## An identifier stands for one thing -/

/-- What no call can change about an item: its type, and for a book the fields
that `update_description` does not write. -/
def Item.fixed : Item A → TypeTag × Option (MoveString × A × MoveString × Url)
  | .bookNFT nft => (.bookNFT, some (nft.title, nft.author, nft.content, nft.url))
  | i => (i.type, none)

theorem Item.fixed_type {i i' : Item A} (h : i'.fixed = i.fixed) : i'.type = i.type := by
  have hfst (j : Item A) : j.fixed.1 = j.type := by cases j <;> rfl
  rw [← hfst, ← hfst, h]

variable [DecidableEq A] [AddressSpace A]

/-- A call that leaves an item under an identifier in use leaves the one that was
there. -/
theorem Reshape.fixed {ctx : TxContext A} {f f' : A → Option (Item A)} {call : Call A} {id : A}
    (h : Reshape ctx f call f') (hu : Used ctx id) :
    f' id = none ∨ (f' id).map Item.fixed = (f id).map Item.fixed := by
  have hnew : id ≠ (objectNew ctx).1 := by
    rintro rfl
    exact not_used_objectNew ctx hu
  -- one write, which keeps what is fixed or is none at all
  have hset {g : A → Option (Item A)} {a : A} {i i' : Item A} (hf : f a = some i)
      (hfix : i'.fixed = i.fixed)
      (hg : g id = none ∨ (g id).map Item.fixed = (f id).map Item.fixed) :
      update g a (some i') id = none ∨
        (update g a (some i') id).map Item.fixed = (f id).map Item.fixed := by
    by_cases hid : id = a
    · subst hid
      rw [Function.update_self, hf, Option.map_some, Option.map_some, hfix]
      exact Or.inr rfl
    · rw [Function.update_of_ne hid]
      exact hg
  have hdel {g : A → Option (Item A)} (a : A)
      (hg : g id = none ∨ (g id).map Item.fixed = (f id).map Item.fixed) :
      update g a none id = none ∨ (update g a none id).map Item.fixed = (f id).map Item.fixed := by
    by_cases hid : id = a
    · subst hid
      exact Or.inl (Function.update_self _ _ _)
    · rw [Function.update_of_ne hid]
      exact hg
  cases h with
  | same => exact Or.inr rfl
  | merge _ hi _ _ _ => exact hset hi rfl (hdel _ (Or.inr rfl))
  | mintToSender | createCurrency | otherNew =>
    rw [Function.update_of_ne hnew]
    exact Or.inr rfl
  | updateDescription hf hn =>
    obtain ⟨s, -, rfl⟩ := updateDescription_eq_ok hn
    exact hset hf rfl (Or.inr rfl)
  | burn | otherDelete => exact hdel _ (Or.inr rfl)
  | coinMint hf | coinSplit hf =>
    rw [Function.update_of_ne hnew]
    exact hset hf rfl (Or.inr rfl)
  | coinBurn _ hf => exact hset hf rfl (hdel _ (Or.inr rfl))
  | otherSet hf => exact hset hf rfl (Or.inr rfl)

/-- One event. -/
theorem Step.fixed {h : List (Entry A)} {c c' : Chain A} {e : Event A} {id : A} (hc : History h c)
    (hs : Step c e c') (hu : Used c.ctx id) :
    (itemAt c'.objects id = none ∨
      (itemAt c'.objects id).map Item.fixed = (itemAt c.objects id).map Item.fixed) ∧
    Used c'.ctx id := by
  have hworld := hs.worldStep hc.layout
  have hl' := (hc.append (.single hs)).layout
  cases hs with
  | start =>
    refine ⟨Or.inr (by rw [hworld.1.itemAt hc.layout hl']), ?_⟩
    rw [hworld.2]
    exact hu.nextTx _
  | call hr he => exact ⟨(hc.reshape he).fixed hu, (hc.effect he).used hu⟩
  | finish =>
    refine ⟨Or.inr (by rw [hworld.1.itemAt hc.layout hl']), ?_⟩
    rw [hworld.2]
    exact hu

/-- A run keeps what is fixed about an identifier in use, or takes it away for good. -/
theorem Run.fixed {h : List (Entry A)} {c c' : Chain A} {es : List (Event A)} {id : A}
    (hc : History h c) (hrun : Run Step c es c') (hu : Used c.ctx id) :
    itemAt c'.objects id = none ∨
      (itemAt c'.objects id).map Item.fixed = (itemAt c.objects id).map Item.fixed := by
  have hall := hrun.invariant
    (I := fun c' => (∃ h', History h' c') ∧ Used c'.ctx id ∧ (itemAt c'.objects id = none ∨
      (itemAt c'.objects id).map Item.fixed = (itemAt c.objects id).map Item.fixed))
    ⟨⟨h, hc⟩, hu, Or.inr rfl⟩ ?_
  · exact hall.2.2
  · rintro c1 e c2 ⟨⟨h1, hc1⟩, hu1, hi1⟩ hs
    obtain ⟨hi2, hu2⟩ := Step.fixed hc1 hs hu1
    refine ⟨⟨_, hc1.append (.single hs)⟩, hu2, ?_⟩
    rcases hi1 with hnone | hsame
    · left
      rcases hi2 with hnone2 | hsame2
      · exact hnone2
      · simpa [hnone] using hsame2
    · rcases hi2 with hnone2 | hsame2
      · exact Or.inl hnone2
      · exact Or.inr (hsame2.trans hsame)

/-- **An identifier stands for one thing.**  From any reachable state on, whatever
happens: an identifier in use that still denotes an item denotes one of the same
type, and for a book with the same title, author, content and url; and one that
denotes nothing never denotes anything again. -/
theorem itemIdentity {h : List (Entry A)} {c c' : Chain A} {es : List (Event A)} {id : A}
    (hc : History h c) (hrun : Run Step c es c') (hu : Used c.ctx id) :
    itemAt c'.objects id = none ∨
    ∃ i i', itemAt c.objects id = some i ∧ itemAt c'.objects id = some i' ∧ i'.fixed = i.fixed := by
  rcases Run.fixed hc hrun hu with hnone | hsame
  · exact Or.inl hnone
  · cases hi' : itemAt c'.objects id with
    | none => exact Or.inl rfl
    | some i' =>
      rw [hi', Option.map_some, eq_comm, Option.map_eq_some_iff] at hsame
      obtain ⟨i, hi, hfix⟩ := hsame
      exact Or.inr ⟨i, i', hi, rfl, hfix.symm⟩

/-- The second book of `oneBook` gets another description and another owner, and is
the same book. -/
theorem itemIdentity_oneBook :
    ∃ i i', itemAt (run genesis (oneBook.take 2)).1.objects (.derived 2 1) = some i ∧
      itemAt (run (run genesis (oneBook.take 2)).1 (oneBook.drop 2)).1.objects (.derived 2 1) =
        some i' ∧ i' ≠ i ∧ i'.fixed = i.fixed := by
  obtain ⟨hc, hr⟩ := run_history (oneBook.take 2)
  obtain ⟨es, hrun, -⟩ := run_steps hc hr (oneBook.drop 2)
  have hu : Used (run genesis (oneBook.take 2)).1.ctx (.derived 2 1) :=
    ⟨2, 1, rfl, by decide +kernel⟩
  have hne : itemAt (run (run genesis (oneBook.take 2)).1 (oneBook.drop 2)).1.objects
      (.derived 2 1) ≠ itemAt (run genesis (oneBook.take 2)).1.objects (.derived 2 1) := by
    decide +kernel
  have hsome : itemAt (run (run genesis (oneBook.take 2)).1 (oneBook.drop 2)).1.objects
      (.derived 2 1) ≠ none := by
    decide +kernel
  rcases itemIdentity hc hrun hu with hnone | ⟨i, i', hi, hi', hfix⟩
  · exact absurd hnone hsome
  · refine ⟨i, i', hi, hi', ?_, hfix⟩
    rintro rfl
    exact hne (hi'.trans hi.symm)

/-! ## The order -/

/-- The coin that the next transaction creates first. -/
def orderCoin (c : Chain A) : A :=
  deriveId (c.ctx.txHash + 1) 0

/-- The transaction behind Order, `SplitCoins` and `TransferObjects`: a coin of
`amount` is split off the coin `gas`, and the sender keeps both. -/
def orderTx (c : Chain A) (u gas : A) (amount : UInt64) : Tx A :=
  ⟨u, [gas], [.coinSplit .sui gas amount, .publicTransfer (orderCoin c) u]⟩

namespace Effect

variable {w w' : World A} {ctx ctx' : TxContext A} {out : Option (Obj A)}

theorem coinSplit_inv {coin : TypeTag} {self : A} {amount : UInt64}
    (h : Effect w ctx (.coinSplit coin self amount) out w' ctx') :
    w'.free (objectNew ctx).1 = some (.transaction false, .coin coin amount) := by
  cases h with
  | coinSplit => exact World.free_setFree_self _ _ _
  | create hop | list hop | delist hop | buy hop | takeProfits hop => cases hop
  | move hcall => rcases hcall with hcall | hcall <;> cases hcall

theorem publicTransfer_inv {id recipient : A}
    (h : Effect w ctx (.publicTransfer id recipient) out w' ctx') :
    ∃ b i, w.free id = some (.transaction b, i) ∧ w'.free id = some (.address recipient, i) := by
  cases h with
  | @move _ id' recipient' b i hcall hf =>
    rcases hcall with hcall | hcall
    · cases hcall
    · cases hcall
      exact ⟨b, i, hf, World.free_setFree_self _ _ _⟩
  | create hop | list hop | delist hop | buy hop | takeProfits hop => cases hop

end Effect

/-- The log of a transaction has its calls. -/
theorem execCalls_calls {c c' : Chain A} {cs : List (Call A)} {es : List (Entry A)}
    (he : execCalls c cs = .ok (c', es)) : es.map Entry.call = cs := by
  induction cs generalizing c es with
  | nil =>
    cases he
    rfl
  | cons call cs ih =>
    obtain ⟨⟨c1, out⟩, -, h2⟩ := bind_eq_ok.1 he
    obtain ⟨⟨c2, fs⟩, h3, h4⟩ := bind_eq_ok.1 h2
    cases h4
    rw [List.map_cons, ih h3]

theorem execTx_calls {c c' : Chain A} {tx : Tx A} {es : List (Entry A)}
    (he : execTx c tx = .ok (c', es)) : es.map Entry.call = tx.calls := by
  obtain ⟨c1, -, h2⟩ := bind_eq_ok.1 he
  obtain ⟨⟨c2, fs⟩, h3, h4⟩ := bind_eq_ok.1 h2
  obtain ⟨c3, -, h6⟩ := bind_eq_ok.1 h4
  cases h6
  exact execCalls_calls h3

namespace History

variable {h : List (Entry A)} {c c' : Chain A} {u gas : A} {amount : UInt64} {es : List (Entry A)}

/-- What an order leaves: a coin of the amount in the hands of the sender. -/
theorem order_inv (hc : History h c) (hr : c.running = false)
    (he : execTx c (orderTx c u gas amount) = .ok (c', es)) :
    freeAt c'.objects (orderCoin c) = some (.address u, .coin .sui amount) := by
  obtain ⟨c1, h1, h2⟩ := bind_eq_ok.1 he
  obtain ⟨⟨c2, fs⟩, h3, h4⟩ := bind_eq_ok.1 h2
  obtain ⟨c3, h5, h6⟩ := bind_eq_ok.1 h4
  cases h6
  obtain ⟨⟨ca, outa⟩, ha, h3⟩ := bind_eq_ok.1 h3
  obtain ⟨⟨cb, fsb⟩, hb, h3⟩ := bind_eq_ok.1 h3
  cases h3
  obtain ⟨⟨cc, outb⟩, hmove, h3⟩ := bind_eq_ok.1 hb
  cases h3
  have h1' : startTx c u [gas] = .ok c1 := h1
  obtain ⟨hr1, hctx, -, -⟩ := startTx_eq_ok h1'
  have hc1 := hc.start hr h1'
  have hca := hc1.call hr1 ha
  have hnew : (objectNew c1.ctx).1 = orderCoin c := by
    rw [hctx]
    rfl
  have hsplit : freeAt ca.objects (orderCoin c) = some (.transaction false, .coin .sui amount) := by
    rw [← hnew]
    exact (hc1.effect ha).coinSplit_inv
  obtain ⟨b, i, hi, hi'⟩ := (hca.effect hmove).publicTransfer_inv
  cases hsplit.symm.trans hi
  exact finishTx_address h5 hi'

end History

/-- A marketplace stays. -/
theorem Run.market_stays {h : List (Entry A)} {c c' : Chain A} {es : List (Event A)} {m : A}
    {coin : TypeTag} (hc : History h c) (hm : marketAt c.objects m = some coin)
    (hrun : Run Step c es c') : marketAt c'.objects m = some coin := by
  have := hrun.invariant
    (I := fun c' => (∃ h', History h' c') ∧ marketAt c'.objects m = some coin) ⟨⟨h, hc⟩, hm⟩ ?_
  · exact this.2
  · rintro c1 e c2 ⟨⟨h1, hc1⟩, hm1⟩ hs
    refine ⟨⟨_, hc1.append (.single hs)⟩, ?_⟩
    by_contra hne
    obtain ⟨_, _, -, -, hnone, -⟩ := hc1.market_of_ne hs (m := m) (by rw [hm1]; exact hne)
    cases hm1.symm.trans hnone

/-- What is left of a purchase: the item is the sender's, who has lost the coin and
nothing else, and the seller has the whole price. -/
structure Bought (c c' : Chain A) (u m k paid : A) (L : Slot A) : Prop where
  item : freeAt c'.objects k = some (.address u, L.item)
  gone : freeAt c'.objects paid = none
  rest : ∀ {id i}, id ≠ paid → freeAt c.objects id = some (.address u, i) →
    freeAt c'.objects id = some (.address u, i)
  credited : coinValue (profitsAt c'.objects m L.seller) =
    coinValue (profitsAt c.objects m L.seller) + L.ask.toNat

/-- A purchase, from the transaction that makes it. -/
theorem History.bought {h : List (Entry A)} {c c' : Chain A} {u m k paid : A} {t coin : TypeTag}
    {es : List (Entry A)} (hc : History h c) (hr : c.running = false)
    (he : execTx c (callTx u (.buyAndTake t coin m k paid)) = .ok (c', es)) :
    ∃ L, listingAt c.objects m k = some L ∧ L.item.type = t ∧
      freeAt c.objects paid = some (.address u, .coin coin L.ask) ∧ Bought c c' u m k paid L := by
  have hs := hc.single_of_execTx hr rfl he
  generalize hw' : worldOf c'.objects = w' at hs
  cases hs with
  | @buyAndTake _ _ _ _ _ L p hm hf hL ht hcr =>
    have hne : paid ≠ k := hc.layout.free_ne_item hf hL
    refine ⟨L, hL, ht, hf, ⟨?_, ?_, ?_, ?_⟩⟩
    · rw [freeAt_worldOf, hw']
      simp
    · rw [freeAt_worldOf, hw', World.free_setFree_of_ne hne]
      simp
    · intro id i hid hi
      have hk : id ≠ k := hc.layout.free_ne_item hi hL
      rw [freeAt_worldOf, hw', World.free_setFree_of_ne hk, World.free_setProfits,
        World.free_setSlot, World.free_setFree_of_ne hid]
      exact hi
    · rw [profitsAt_worldOf, hw']
      simpa [profitsAt_worldOf] using hcr.value

/-- **A purchase is of what was seen, at the price that was seen, or of nothing.**
Somebody sees the listing `L` of item `k`, and orders it.  Then others send any
transactions.  The coin of the order is still there; `buy_and_take` of `k` with this
coin, at the type of what was seen, commits exactly when `k` is listed at the ask of
`L`, which it is, as it was, if nobody took it out; and then it delivers the thing that
was seen, a book with the same title, author, content and url, for that coin and
nothing else. -/
theorem orderThenBuy {h : List (Entry A)} {c c1 c2 : Chain A} (hc : History h c)
    (hr : c.running = false) {m k u gas : A} {L : Slot A} (hm : marketAt c.objects m = some .sui)
    (hL : listingAt c.objects m k = some L) {es log : List (Entry A)}
    (horder : execTx c (orderTx c u gas L.ask) = .ok (c1, es)) {txs : List (Tx A)}
    (hu : ∀ tx ∈ txs, tx.sender ≠ u) (hrun : run c1 txs = (c2, log))
    (hone : creations .sui (h ++ es ++ log) ≤ 1) :
    freeAt c2.objects (orderCoin c) = some (.address u, .coin .sui L.ask) ∧
    ((∃ c3 fs, execTx c2 (callTx u (.buyAndTake L.item.type .sui m k (orderCoin c))) =
      .ok (c3, fs)) ↔ ∃ L', listingAt c2.objects m k = some L' ∧ L'.ask = L.ask) ∧
    ((∀ e ∈ log, ¬ e.call.exits m k) → listingAt c2.objects m k = some L) ∧
    ∀ {c3 fs}, execTx c2 (callTx u (.buyAndTake L.item.type .sui m k (orderCoin c))) =
        .ok (c3, fs) →
      ∃ L', listingAt c2.objects m k = some L' ∧ L'.ask = L.ask ∧
        L'.item.fixed = L.item.fixed ∧ Bought c2 c3 u m k (orderCoin c) L' := by
  obtain ⟨hc1, hr1⟩ := hc.afterTx hr horder
  have hfirst := execTx_steps hc hr horder
  obtain ⟨evs, hsteps, hcalls, hby⟩ := run_steps hc1 hr1 txs
  obtain ⟨hc2, hr2⟩ := hc1.afterRun hr1 txs
  have haway : c1.notBy u := fun h => by rw [hr1] at h; cases h
  have hkeeps := (Run.keeps hc1 haway hsteps (hby u hu)).1
  rw [hrun] at hsteps hcalls hc2 hr2 hkeeps
  have hall := hfirst.append hsteps
  have hcoin := hkeeps.held (hc.order_inv hr horder)
  have hm2 := Run.market_stays hc hm hall
  -- the item is the one that was seen, whoever lists it now
  have hsame {L' : Slot A} (hL' : listingAt c2.objects m k = some L') :
      L'.item.fixed = L.item.fixed := by
    have hi := hc.layout.itemAt_slot hL
    have hi' := hc2.layout.itemAt_slot hL'
    rcases Run.fixed hc hall (hc.layout.itemAt_used hi) with hnone | hfix
    · rw [hnone] at hi'
      cases hi'
    · simpa [hi, hi'] using hfix
  refine ⟨hcoin, ⟨?_, ?_⟩, ?_, ?_⟩
  · rintro ⟨c3, fs, he⟩
    obtain ⟨L', hL', -, hf, -⟩ := hc2.bought hr2 he
    have hask : L.ask = L'.ask := by simpa using hcoin.symm.trans hf
    exact ⟨L', hL', hask.symm⟩
  · rintro ⟨L', hL', hask⟩
    refine (hc2.admissibleTx_iff hr2 rfl (Or.inr ⟨_, _, _, rfl⟩)).2 ⟨L', .sui, hL', hm2, Or.inr ?_⟩
    refine ⟨orderCoin c, by rw [Item.fixed_type (hsame hL')], by rw [hask]; exact hcoin, ?_⟩
    have hlt := lt_trans ((hc2.supplyBook .sui).total_lt hone) (show 2 ^ 64 - 1 < 2 ^ 64 by decide)
    rw [hask]
    exact hc2.layout.fits_of_total hm2 hcoin hlt
  · intro hno
    have hL1 : listingAt c1.objects m k = some L := by
      refine Run.listing_stays hc hL hfirst fun e he => ?_
      have hmem : e ∈ es := by simpa [calls, List.filterMap_map] using he
      have hcall : e.call ∈ (orderTx c u gas L.ask).calls := by
        rw [← execTx_calls horder]
        exact List.mem_map_of_mem hmem
      rcases List.mem_pair.1 hcall with hcall | hcall <;> rw [hcall] <;>
        rintro (⟨_, _, hop⟩ | ⟨_, _, _, hop⟩) <;> cases hop
    exact Run.listing_stays hc1 hL1 hsteps (by rw [hcalls]; exact hno)
  · intro c3 fs he
    obtain ⟨L', hL', -, hf, hb⟩ := hc2.bought hr2 he
    have hask : L.ask = L'.ask := by simpa using hcoin.symm.trans hf
    exact ⟨L', hL', hask.symm, hsame hL', hb⟩

/-- User 1 has listed a book for 5, and user 2 has a coin of 12. -/
def beforeOrder : List (Tx Addr) :=
  [⟨.user 1, [], [.create .sui]⟩,
   ⟨.user 1, [], [.mintToSender [65] [66] [67] [68]]⟩,
   ⟨.user 2, [], [.createCurrency .sui, .coinMint .sui (.derived 3 0) 12,
     .publicTransfer (.derived 3 0) (.user 2), .publicTransfer (.derived 3 1) (.user 2)]⟩,
   ⟨.user 1, [.derived 2 0], [.list .bookNFT .sui (.derived 1 0) (.derived 2 0) 5]⟩]

/-- The book of `beforeOrder`. -/
def orderedBook : Slot Addr :=
  ⟨.derived 4 0, 5, .user 1,
    .bookNFT ⟨⟨[65], rfl⟩, .user 1, ⟨[66], rfl⟩, ⟨[67], rfl⟩, ⟨⟨[68], rfl⟩⟩⟩⟩

/-- User 2 orders the book, user 1 mints another one, and user 2 can buy. -/
theorem orderThenBuy_beforeOrder :
    ∃ c1 c2 es log, execTx (run genesis beforeOrder).1
        (orderTx (run genesis beforeOrder).1 (.user 2) (.derived 3 1) 5) = .ok (c1, es) ∧
      run c1 [⟨.user 1, [], [.mintToSender [69] [70] [71] [72]]⟩] = (c2, log) ∧
      listingAt c2.objects (.derived 1 0) (.derived 2 0) = some orderedBook ∧
      ∃ c3 fs, execTx c2 (callTx (.user 2) (.buyAndTake .bookNFT .sui (.derived 1 0) (.derived 2 0)
        (.derived 5 0))) = .ok (c3, fs) := by
  obtain ⟨hc, hr⟩ := run_history beforeOrder
  have hm : marketAt (run genesis beforeOrder).1.objects (.derived 1 0) = some .sui := by
    decide +kernel
  have hL : listingAt (run genesis beforeOrder).1.objects (.derived 1 0) (.derived 2 0) =
      some orderedBook := by
    decide +kernel
  have hok : (execTx (run genesis beforeOrder).1 (orderTx (run genesis beforeOrder).1 (.user 2)
      (.derived 3 1) orderedBook.ask)).toOption.isSome = true := by
    decide +kernel
  have horder := execTx_eq_stepTx hok rfl
  have hu : ∀ tx ∈ [(⟨.user 1, [], [.mintToSender [69] [70] [71] [72]]⟩ : Tx Addr)],
      tx.sender ≠ .user 2 := by
    decide
  obtain ⟨-, hiff, -⟩ := orderThenBuy hc hr hm hL horder hu rfl (by decide +kernel)
  have hlisted : listingAt (run (stepTx (run genesis beforeOrder).1
      (orderTx (run genesis beforeOrder).1 (.user 2) (.derived 3 1) orderedBook.ask)).1
      [⟨.user 1, [], [.mintToSender [69] [70] [71] [72]]⟩]).1.objects (.derived 1 0)
      (.derived 2 0) = some orderedBook := by
    decide +kernel
  exact ⟨_, _, _, _, horder, rfl, hlisted, hiff.2 ⟨_, hlisted, rfl⟩⟩

end BookMarket
