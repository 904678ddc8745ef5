import Mathlib.Data.Set.Finite.Lattice
import BookMarket.Props.Custody
import BookMarket.Props.Exit

/-!
# Nothing gets stuck in a marketplace

Take any reachable state and any marketplace, and let everybody who has something
in it take it out: every seller delists every listing and takes the proceeds.
There are finitely many such transactions, all of them go through, in whatever
order they come, everybody gets what was theirs, and in the end the marketplace
is empty, down to the last `Field`.

* `Withdrawal`, `Withdrawals` — a transaction that takes something out, and a list
  of all of them.
* `HandedOut`, `TakesOut` — what somebody gets by one, and what some of them have done
  so far.
* `History.withdraw` — **one of them commits, and leaves the others to be made.**
* `drain` — **all of them commit, in any order, and leave nothing.**
-/

namespace BookMarket

variable {A : Type} [DecidableEq A] [AddressSpace A]

/-- A transaction with which somebody takes out of marketplace `m` what belongs to
the sender: a listed item, or the proceeds. -/
inductive Withdrawal (o : Objects A) (m : A) (coin : TypeTag) : Tx A → Prop
  | item {k : A} {L : Slot A} (hL : listingAt o m k = some L) :
      Withdrawal o m coin (callTx L.seller (.delistAndTake L.item.type coin m k))
  | proceeds {s : A} {p : Coin A} (hp : profitsAt o m s = some p) :
      Withdrawal o m coin (callTx s (.takeProfitsAndKeep coin m))

/-- All of them, in some order. -/
def Withdrawals (o : Objects A) (m : A) (coin : TypeTag) (txs : List (Tx A)) : Prop :=
  txs.Nodup ∧ ∀ tx, tx ∈ txs ↔ Withdrawal o m coin tx

/-- Every transaction of the sequence commits. -/
def AllCommit (c : Chain A) : List (Tx A) → Prop
  | [] => True
  | tx :: txs => ∃ c' es, execTx c tx = .ok (c', es) ∧ AllCommit c' txs

/-- What marketplace `m` has, in the hands of the one it belongs to. -/
inductive HandedOut (o : Objects A) (m : A) (coin : TypeTag) : A → Holder A × Item A → Prop
  | item {k : A} {L : Slot A} (hL : listingAt o m k = some L) :
      HandedOut o m coin k (.address L.seller, L.item)
  | proceeds {s : A} {p : Coin A} (hp : profitsAt o m s = some p) :
      HandedOut o m coin p.id (.address s, .coin coin p.balance)

/-- From `c` to `c'`, things have left marketplace `m` for their owners, and nothing
else has happened. -/
structure TakesOut (m : A) (coin : TypeTag) (c c' : Chain A) : Prop where
  markets : ∀ m', marketAt c'.objects m' = marketAt c.objects m'
  held : ∀ {id v}, freeAt c.objects id = some v → freeAt c'.objects id = some v
  noNew : ∀ {id v}, freeAt c'.objects id = some v →
    freeAt c.objects id = some v ∨ HandedOut c.objects m coin id v
  listed : ∀ {k L}, listingAt c.objects m k = some L →
    listingAt c'.objects m k = some L ∨ freeAt c'.objects k = some (.address L.seller, L.item)
  noListing : ∀ {k L}, listingAt c'.objects m k = some L → listingAt c.objects m k = some L
  proceeds : ∀ {s p}, profitsAt c.objects m s = some p → profitsAt c'.objects m s = some p ∨
    freeAt c'.objects p.id = some (.address s, .coin coin p.balance)
  noProceeds : ∀ {s p}, profitsAt c'.objects m s = some p → profitsAt c.objects m s = some p
  elsewhere : ∀ {m'}, m' ≠ m → (∀ k, listingAt c'.objects m' k = listingAt c.objects m' k) ∧
    ∀ s, profitsAt c'.objects m' s = profitsAt c.objects m' s

namespace TakesOut

variable {m : A} {coin : TypeTag} {c c' c'' : Chain A}

theorem refl (m : A) (coin : TypeTag) (c : Chain A) : TakesOut m coin c c :=
  ⟨fun _ => rfl, id, Or.inl, Or.inl, id, Or.inl, id, fun _ => ⟨fun _ => rfl, fun _ => rfl⟩⟩

theorem trans (h : TakesOut m coin c c') (h' : TakesOut m coin c' c'') : TakesOut m coin c c'' where
  markets m' := (h'.markets m').trans (h.markets m')
  held hf := h'.held (h.held hf)
  noNew hf := by
    rcases h'.noNew hf with hf | hout
    · exact h.noNew hf
    · -- what is handed out later was there at the start
      right
      cases hout with
      | item hL => exact .item (h.noListing hL)
      | proceeds hp => exact .proceeds (h.noProceeds hp)
  listed hL := by
    rcases h.listed hL with hL' | hf
    · exact h'.listed hL'
    · exact Or.inr (h'.held hf)
  noListing hL := h.noListing (h'.noListing hL)
  proceeds hp := by
    rcases h.proceeds hp with hp' | hf
    · exact h'.proceeds hp'
    · exact Or.inr (h'.held hf)
  noProceeds hp := h.noProceeds (h'.noProceeds hp)
  elsewhere hne := by
    obtain ⟨h1, h2⟩ := h.elsewhere hne
    obtain ⟨h1', h2'⟩ := h'.elsewhere hne
    exact ⟨fun k => (h1' k).trans (h1 k), fun s => (h2' s).trans (h2 s)⟩

end TakesOut

/-! ## One withdrawal -/

namespace History

variable {h : List (Entry A)} {c : Chain A} {m : A} {coin : TypeTag}

/-- A listing is taken back. -/
theorem withdraw_item (hc : History h c) (hr : c.running = false)
    (hm : marketAt c.objects m = some coin) {k : A} {L : Slot A}
    (hL : listingAt c.objects m k = some L) :
    ∃ c' es, execTx c (callTx L.seller (.delistAndTake L.item.type coin m k)) = .ok (c', es) ∧
      TakesOut m coin c c' ∧ (∀ k', listingAt c'.objects m k' =
        if k' = k then none else listingAt c.objects m k') ∧
      ∀ s, profitsAt c'.objects m s = profitsAt c.objects m s := by
  obtain ⟨c', es, he, hw⟩ := hc.execTx_of_single hr (.delistAndTake hm hL rfl rfl)
  have hslots (m' k' : A) : listingAt c'.objects m' k' =
      if (m', k') = (m, k) then none else listingAt c.objects m' k' := by
    rw [listingAt_worldOf, hw]
    exact Function.update_apply _ _ _ _
  have hprofits (m' s : A) : profitsAt c'.objects m' s = profitsAt c.objects m' s := by
    rw [profitsAt_worldOf, hw]
    rfl
  have hfree (id : A) : freeAt c'.objects id =
      if id = k then some (.address L.seller, L.item) else freeAt c.objects id := by
    rw [freeAt_worldOf, hw]
    exact Function.update_apply _ _ _ _
  refine ⟨c', es, he, ⟨?_, ?_, ?_, ?_, ?_, ?_, ?_, ?_⟩, fun k' => ?_, hprofits m⟩
  · exact congrFun (congrArg World.markets hw)
  · intro id v hf
    rw [hfree, if_neg (hc.layout.free_ne_item hf hL)]
    exact hf
  · intro id v hf
    rw [hfree] at hf
    split at hf
    · next hid =>
      cases hf
      rw [hid]
      exact Or.inr (.item hL)
    · exact Or.inl hf
  · intro k' L' hL'
    by_cases hk : k' = k
    · subst hk
      cases hL.symm.trans hL'
      right
      rw [hfree, if_pos rfl]
    · left
      rw [hslots, if_neg (by simp [hk])]
      exact hL'
  · intro k' L' hL'
    rw [hslots] at hL'
    split at hL'
    · cases hL'
    · exact hL'
  · intro s p hp
    exact Or.inl ((hprofits m s).trans hp)
  · intro s p hp
    exact (hprofits m s).symm.trans hp
  · intro m' hne
    exact ⟨fun k' => by rw [hslots, if_neg (by simp [hne])], hprofits m'⟩
  · rw [hslots]
    simp

/-- Proceeds are taken. -/
theorem withdraw_proceeds (hc : History h c) (hr : c.running = false)
    (hm : marketAt c.objects m = some coin) {s : A} {p : Coin A}
    (hp : profitsAt c.objects m s = some p) :
    ∃ c' es, execTx c (callTx s (.takeProfitsAndKeep coin m)) = .ok (c', es) ∧
      TakesOut m coin c c' ∧ (∀ k, listingAt c'.objects m k = listingAt c.objects m k) ∧
      ∀ s', profitsAt c'.objects m s' = if s' = s then none else profitsAt c.objects m s' := by
  obtain ⟨c', es, he, hw⟩ := hc.execTx_of_single hr (.takeProfitsAndKeep hm hp)
  have hprofits (m' s' : A) : profitsAt c'.objects m' s' =
      if (m', s') = (m, s) then none else profitsAt c.objects m' s' := by
    rw [profitsAt_worldOf, hw]
    exact Function.update_apply _ _ _ _
  have hslots (m' k : A) : listingAt c'.objects m' k = listingAt c.objects m' k := by
    rw [listingAt_worldOf, hw]
    rfl
  have hfree (id : A) : freeAt c'.objects id =
      if id = p.id then some (.address s, .coin coin p.balance) else freeAt c.objects id := by
    rw [freeAt_worldOf, hw]
    exact Function.update_apply _ _ _ _
  refine ⟨c', es, he, ⟨?_, ?_, ?_, ?_, ?_, ?_, ?_, ?_⟩, hslots m, fun s' => ?_⟩
  · exact congrFun (congrArg World.markets hw)
  · intro id v hf
    have hne : id ≠ p.id := by
      rintro rfl
      have := hc.layout.coin_ne_free hp
      rw [← freeAt_worldOf, hf] at this
      cases this
    rw [hfree, if_neg hne]
    exact hf
  · intro id v hf
    rw [hfree] at hf
    split at hf
    · next hid =>
      cases hf
      rw [hid]
      exact Or.inr (.proceeds hp)
    · exact Or.inl hf
  · intro k L hL
    exact Or.inl ((hslots m k).trans hL)
  · intro k L hL
    exact (hslots m k).symm.trans hL
  · intro s' p' hp'
    by_cases hs : s' = s
    · subst hs
      cases hp.symm.trans hp'
      right
      rw [hfree, if_pos rfl]
    · left
      rw [hprofits, if_neg (by simp [hs])]
      exact hp'
  · intro s' p' hp'
    rw [hprofits] at hp'
    split at hp'
    · cases hp'
    · exact hp'
  · intro m' hne
    exact ⟨hslots m', fun s' => by rw [hprofits, if_neg (by simp [hne])]⟩
  · rw [hprofits]
    simp

/-- **A withdrawal commits, and leaves the others to be made.** -/
theorem withdraw (hc : History h c) (hr : c.running = false)
    (hm : marketAt c.objects m = some coin) {tx : Tx A} (hw : Withdrawal c.objects m coin tx) :
    ∃ c' es, execTx c tx = .ok (c', es) ∧ TakesOut m coin c c' ∧
      ∀ tx', Withdrawal c'.objects m coin tx' ↔ Withdrawal c.objects m coin tx' ∧ tx' ≠ tx := by
  cases hw with
  | @item k L hL =>
    obtain ⟨c', es, he, ht, hslots, hprofits⟩ := hc.withdraw_item hr hm hL
    refine ⟨c', es, he, ht, fun tx' => ⟨?_, ?_⟩⟩
    · rintro (@⟨k', L', hL'⟩ | @⟨s, p, hp⟩)
      · rw [hslots] at hL'
        split at hL'
        · cases hL'
        · next hk =>
          refine ⟨.item hL', fun e => hk ?_⟩
          have hcall := (List.cons.inj (congrArg Tx.calls e)).1
          exact (Call.delistAndTake.inj hcall).2.2.2
      · exact ⟨.proceeds ((hprofits s).symm.trans hp), fun e => by cases e⟩
    · rintro ⟨@⟨k', L', hL'⟩ | @⟨s, p, hp⟩, hne⟩
      · refine .item ?_
        rw [hslots, if_neg ?_]
        · exact hL'
        · rintro rfl
          cases hL.symm.trans hL'
          exact hne rfl
      · exact .proceeds ((hprofits s).trans hp)
  | @proceeds s p hp =>
    obtain ⟨c', es, he, ht, hslots, hprofits⟩ := hc.withdraw_proceeds hr hm hp
    refine ⟨c', es, he, ht, fun tx' => ⟨?_, ?_⟩⟩
    · rintro (@⟨k', L', hL'⟩ | @⟨s', p', hp'⟩)
      · exact ⟨.item ((hslots k').symm.trans hL'), fun e => by cases e⟩
      · rw [hprofits] at hp'
        split at hp'
        · cases hp'
        · next hs => exact ⟨.proceeds hp', fun e => hs (congrArg Tx.sender e)⟩
    · rintro ⟨@⟨k', L', hL'⟩ | @⟨s', p', hp'⟩, hne⟩
      · exact .item ((hslots k').trans hL')
      · refine .proceeds (p := p') ?_
        rw [hprofits, if_neg ?_]
        · exact hp'
        · rintro rfl
          exact hne rfl

end History

/-! ## All of them -/

/-- Nothing is left in a marketplace from which nobody can take anything. -/
theorem History.empty_of_withdrawals {h : List (Entry A)} {c : Chain A} {m : A} {coin : TypeTag}
    (hc : History h c) (hm : marketAt c.objects m = some coin)
    (hnone : ∀ tx, ¬ Withdrawal c.objects m coin tx) (id : A) : ¬ OwnedBy c.objects id m := by
  intro hown
  rcases hc.layout.ownedBy_market hm hown with ⟨k, L, hL, -⟩ | ⟨s, p, hp, -⟩
  · exact hnone _ (.item hL)
  · exact hnone _ (.proceeds hp)

/-- There are finitely many withdrawals: each has an object of its own in the
store. -/
theorem History.exists_withdrawals {h : List (Entry A)} {c : Chain A} (hc : History h c) (m : A)
    (coin : TypeTag) : ∃ txs, Withdrawals c.objects m coin txs := by
  let itemTx (k : A) : Option (Tx A) := (listingAt c.objects m k).map fun L =>
    callTx L.seller (.delistAndTake L.item.type coin m k)
  let proceedsTx (s : A) : Tx A := callTx s (.takeProfitsAndKeep coin m)
  have hinj : Function.Injective fun s => hashTypeAndKey m (.address s) := fun s s' e =>
    Name.address.inj (AddressSpace.hashTypeAndKey_inj e).2
  have hitems := ((c.objects.keys.finite_toSet.image itemTx).preimage
    (Option.some_injective (Tx A)).injOn)
  have hsellers := (c.objects.keys.finite_toSet.preimage hinj.injOn).image proceedsTx
  have hfin : {tx | Withdrawal c.objects m coin tx}.Finite := by
    refine (hitems.union hsellers).subset ?_
    rintro tx (@⟨k, L, hL⟩ | @⟨s, p, hp⟩)
    · left
      refine ⟨k, ?_, by simp [itemTx, hL]⟩
      exact Finmap.mem_keys.2 (Finmap.mem_of_lookup_eq_some (hc.layout.lookup_piece hL .item))
    · right
      obtain ⟨coin', hm⟩ := hc.layout.market_of_profits hp
      refine ⟨s, ?_, rfl⟩
      exact Finmap.mem_keys.2
        (Finmap.mem_of_lookup_eq_some (hc.layout.lookup_profitsPiece hp hm .field))
  refine ⟨hfin.toFinset.toList, Finset.nodup_toList _, fun tx => ?_⟩
  rw [Finset.mem_toList, Set.Finite.mem_toFinset]
  exact Iff.rfl

/-- What is left when everything has been taken out of marketplace `m`: every listed
item is its seller's, all proceeds are their owners', the marketplace owns nothing,
nobody holds anything else than before, and there are the same marketplaces, the
others with what they had. -/
structure Drained (m : A) (coin : TypeTag) (c c' : Chain A) : Prop where
  listed : ∀ {k L}, listingAt c.objects m k = some L →
    freeAt c'.objects k = some (.address L.seller, L.item)
  proceeds : ∀ {s p}, profitsAt c.objects m s = some p →
    freeAt c'.objects p.id = some (.address s, .coin coin p.balance)
  empty : ∀ id, ¬ OwnedBy c'.objects id m
  held : ∀ {id v}, freeAt c.objects id = some v → freeAt c'.objects id = some v
  noNew : ∀ {id v}, freeAt c'.objects id = some v →
    freeAt c.objects id = some v ∨ HandedOut c.objects m coin id v
  markets : ∀ m', marketAt c'.objects m' = marketAt c.objects m'
  elsewhere : ∀ {m'}, m' ≠ m → (∀ k, listingAt c'.objects m' k = listingAt c.objects m' k) ∧
    ∀ s, profitsAt c'.objects m' s = profitsAt c.objects m' s

/-- The withdrawals of a list, one after the other. -/
theorem History.withdrawAll {h : List (Entry A)} {c : Chain A} {m : A} {coin : TypeTag}
    (hc : History h c) (hr : c.running = false) (hm : marketAt c.objects m = some coin)
    {txs : List (Tx A)} (hall : Withdrawals c.objects m coin txs) :
    AllCommit c txs ∧ TakesOut m coin c (run c txs).1 ∧
      ∀ tx, ¬ Withdrawal (run c txs).1.objects m coin tx := by
  induction txs generalizing h c with
  | nil => exact ⟨trivial, .refl m coin c, fun tx hw => List.not_mem_nil ((hall.2 tx).2 hw)⟩
  | cons tx txs ih =>
    obtain ⟨hnodup, hmem⟩ := hall
    obtain ⟨hnew, hnodup'⟩ := List.nodup_cons.1 hnodup
    obtain ⟨c', es, he, ht, hrest⟩ := hc.withdraw hr hm ((hmem tx).1 (by simp))
    obtain ⟨hc', hr'⟩ := hc.afterTx hr he
    have hmem' (tx' : Tx A) : tx' ∈ txs ↔ Withdrawal c'.objects m coin tx' := by
      rw [hrest, ← hmem, List.mem_cons]
      constructor
      · exact fun h => ⟨Or.inr h, fun e => hnew (e ▸ h)⟩
      · rintro ⟨h | h, hne⟩
        · exact absurd h hne
        · exact h
    obtain ⟨hcommit, ht', hnone⟩ := ih hc' hr' ((ht.markets m).trans hm) ⟨hnodup', hmem'⟩
    rw [run_cons_of_ok he]
    exact ⟨⟨c', es, he, hcommit⟩, ht.trans ht', hnone⟩

/-- **Nothing gets stuck.**  From every reachable state between transactions: the
withdrawals from a marketplace are finitely many, and made in any order, each
once, all of them commit, every seller gets the items and the proceeds, as they
were, and the marketplace is left without a dynamic field, with nothing else
touched. -/
theorem drain {h : List (Entry A)} {c : Chain A} (hc : History h c) (hr : c.running = false)
    {m : A} {coin : TypeTag} (hm : marketAt c.objects m = some coin) :
    (∃ txs, Withdrawals c.objects m coin txs) ∧
    ∀ {txs}, Withdrawals c.objects m coin txs →
      AllCommit c txs ∧ Drained m coin c (run c txs).1 := by
  refine ⟨hc.exists_withdrawals m coin, fun {txs} hall => ?_⟩
  obtain ⟨hcommit, ht, hnone⟩ := hc.withdrawAll hr hm hall
  have hc' := (hc.afterRun hr txs).1
  refine ⟨hcommit, ⟨?_, ?_, ?_, ht.held, ht.noNew, ht.markets, ht.elsewhere⟩⟩
  · intro k L hL
    rcases ht.listed hL with hL' | hf
    · exact absurd (.item hL') (hnone _)
    · exact hf
  · intro s p hp
    rcases ht.proceeds hp with hp' | hf
    · exact absurd (.proceeds hp') (hnone _)
    · exact hf
  · exact hc'.empty_of_withdrawals ((ht.markets m).trans hm) hnone

/-- After `oneSale` the coin of 5 goes to user 1. -/
theorem drain_oneSale :
    marketAt (run genesis oneSale).1.objects (.derived 1 0) = some .sui ∧
    ∃ txs, Withdrawals (run genesis oneSale).1.objects (.derived 1 0) .sui txs ∧
      AllCommit (run genesis oneSale).1 txs ∧
      freeAt (run (run genesis oneSale).1 txs).1.objects (.derived 3 1) =
        some (.address (.user 1), .coin .sui 5) := by
  obtain ⟨hc, hr⟩ := run_history oneSale
  have hm : marketAt (run genesis oneSale).1.objects (.derived 1 0) = some .sui := by
    decide +kernel
  have hp : profitsAt (run genesis oneSale).1.objects (.derived 1 0) (.user 1) =
      some ⟨.derived 3 1, 5⟩ := by
    decide +kernel
  obtain ⟨⟨txs, hall⟩, hdrain⟩ := drain hc hr hm
  obtain ⟨hcommit, hdrained⟩ := hdrain hall
  exact ⟨hm, txs, hall, hcommit, hdrained.proceeds hp⟩

end BookMarket
