import BookMarket.Chain.Single
import BookMarket.Chain.Contents

/-!
# What the calls come to together

A listing goes through the store as five objects: two fields, the listing, the item
and, once it is sold, the coin of the seller.  None of them is left behind.

* `listTakeBack` — **listing an item and taking it back is nothing**: the store is the
  one it was.
* `saleIsSwap` — **listing, buying and taking the profits is a swap**: the item and the
  coin have changed hands, and everything else is as it was.
-/

namespace BookMarket

open Function (update)

variable {A : Type} [DecidableEq A] [AddressSpace A]

namespace World

variable (w : World A) (m k s : A)

omit [AddressSpace A] in
theorem setFree_self {w : World A} {k : A} {v : Option (Holder A × Item A)} (h : w.free k = v) :
    w.setFree k v = w := by
  rw [setFree, ← h, Function.update_eq_self]

omit [AddressSpace A] in
theorem setSlot_setSlot (L L' : Option (Slot A)) :
    (w.setSlot m k L).setSlot m k L' = w.setSlot m k L' := by
  simp [setSlot]

omit [AddressSpace A] in
theorem setSlot_self {w : World A} {m k : A} {L : Option (Slot A)} (h : w.slots (m, k) = L) :
    w.setSlot m k L = w := by
  rw [setSlot, ← h, Function.update_eq_self]

omit [AddressSpace A] in
theorem setProfits_setProfits (c c' : Option (Coin A)) :
    (w.setProfits m s c).setProfits m s c' = w.setProfits m s c' := by
  simp [setProfits]

omit [AddressSpace A] in
theorem setProfits_self {w : World A} {m s : A} {c : Option (Coin A)}
    (h : w.profits (m, s) = c) : w.setProfits m s c = w := by
  rw [setProfits, ← h, Function.update_eq_self]

omit [AddressSpace A] in
theorem setFree_comm {id id' : A} (h : id ≠ id') (v v' : Option (Holder A × Item A)) :
    (w.setFree id v).setFree id' v' = (w.setFree id' v').setFree id v := by
  simp only [setFree, Function.update_comm h]

omit [AddressSpace A] in
theorem setSlot_setFree (id : A) (L : Option (Slot A)) (v : Option (Holder A × Item A)) :
    (w.setSlot m k L).setFree id v = (w.setFree id v).setSlot m k L := rfl

omit [AddressSpace A] in
theorem setProfits_setFree (id : A) (c : Option (Coin A)) (v : Option (Holder A × Item A)) :
    (w.setProfits m s c).setFree id v = (w.setFree id v).setProfits m s c := rfl

omit [AddressSpace A] in
/-- Of a listing that is sold nothing is left in the slot, or with its owner. -/
theorem buy_after_list {w : World A} {m k paid : A} (hne : k ≠ paid)
    (hslot : w.slots (m, k) = none) (L : Option (Slot A)) (p : Option (Coin A))
    (v : Option (Holder A × Item A)) :
    ((((((w.setFree k none).setSlot m k L).setFree paid none).setSlot m k none).setProfits m s
      p).setFree k v) = ((w.setFree paid none).setProfits m s p).setFree k v := by
  rw [setSlot_setFree, setSlot_setSlot, setFree_comm _ hne, setProfits_setFree, setSlot_setFree,
    setFree_setFree, setSlot_self (by simpa using hslot), ← setProfits_setFree]

omit [AddressSpace A] in
/-- Profits that are taken right away have not been there. -/
theorem take_after_buy (id k' : A) (p : Option (Coin A)) (v v' : Option (Holder A × Item A)) :
    (((w.setProfits m s p).setFree k' v).setProfits m s none).setFree id v' =
      ((w.setProfits m s none).setFree k' v).setFree id v' := by
  rw [setProfits_setFree w, setProfits_setProfits, setProfits_setFree w]

end World

variable {h : List (Entry A)} {c : Chain A}

/-- An item somebody has can be listed. -/
theorem History.list_commits (hc : History h c) (hr : c.running = false) {m k s : A}
    {coin : TypeTag} {i : Item A} (hm : marketAt c.objects m = some coin)
    (hk : freeAt c.objects k = some (.address s, i)) (ask : UInt64) :
    ∃ c1 es, execTx c (callTx s (.list i.type coin m k ask)) = .ok (c1, es) ∧
      worldOf c1.objects = ((worldOf c.objects).setFree k none).setSlot m k
        (some ⟨deriveId (c.ctx.txHash + 1) 0, ask, s, i⟩) :=
  hc.execTx_of_single hr (.list hm hk rfl)

/-- **Listing an item and taking it back is nothing.**  From every reachable state
between transactions, whoever has an item can list it and take it back, and then the
store is the one it was. -/
theorem listTakeBack (hc : History h c) (hr : c.running = false) {m k s : A} {coin : TypeTag}
    {i : Item A} (hm : marketAt c.objects m = some coin)
    (hk : freeAt c.objects k = some (.address s, i)) (ask : UInt64) :
    ∃ c1 c2 es fs, execTx c (callTx s (.list i.type coin m k ask)) = .ok (c1, es) ∧
      execTx c1 (callTx s (.delistAndTake i.type coin m k)) = .ok (c2, fs) ∧
      c2.objects = c.objects := by
  obtain ⟨c1, es, he1, hw1⟩ := hc.list_commits hr hm hk ask
  obtain ⟨hc1, hr1⟩ := hc.afterTx hr he1
  have hslot : (worldOf c.objects).slots (m, k) = none := hc.layout.slot_none_of_free hk m
  -- what the listing has changed is what taking back changes
  have hworld : ((worldOf c1.objects).setSlot m k none).setFree k (some (.address s, i)) =
      worldOf c.objects := by
    rw [hw1, World.setSlot_setSlot, World.setSlot_setFree, World.setFree_setFree,
      World.setFree_self hk, World.setSlot_self hslot]
  have hback : Single (worldOf c1.objects) ⟨s, c1.ctx.txHash + 1, 0⟩
      (.delistAndTake i.type coin m k) (worldOf c.objects) := by
    have hL : (worldOf c1.objects).slots (m, k) =
        some ⟨deriveId (c.ctx.txHash + 1) 0, ask, s, i⟩ := by
      rw [hw1]
      simp
    have hm1 : (worldOf c1.objects).markets m = some coin := by
      rw [hw1]
      exact hm
    rw [← hworld]
    exact .delistAndTake hm1 hL rfl rfl
  obtain ⟨c2, fs, he2, hw2⟩ := hc1.execTx_of_single hr1 hback
  have hl2 := (hc1.afterTx hr1 he2).1.layout
  rw [hw2] at hl2
  exact ⟨c1, c2, es, fs, he1, he2, hl2.store_unique hc.layout⟩

/-- User 1 lists an object, takes it back, and has it as before. -/
theorem listTakeBack_oneSale :
    ∃ c1 c2 es fs,
      execTx (run genesis (oneSale.take 3)).1
        (callTx (.user 1) (.list (.other 0) .sui (.derived 1 0) (.derived 2 0) 5)) = .ok (c1, es) ∧
      execTx c1 (callTx (.user 1) (.delistAndTake (.other 0) .sui (.derived 1 0) (.derived 2 0))) =
        .ok (c2, fs) ∧
      c2.objects = (run genesis (oneSale.take 3)).1.objects := by
  obtain ⟨hc, hr⟩ := run_history (oneSale.take 3)
  have hm : marketAt (run genesis (oneSale.take 3)).1.objects (.derived 1 0) = some .sui := by
    decide +kernel
  have hk : freeAt (run genesis (oneSale.take 3)).1.objects (.derived 2 0) =
      some (.address (.user 1), .other 0 [7]) := by
    decide +kernel
  exact listTakeBack hc hr hm hk 5

/-- **A sale is a swap.**  From every reachable state between transactions: `s` has an
item, and `b` a coin of the price.  If `s` lists the item, `b` buys it and `s` takes the
profits, all three commit, `b` has the item, and `s` has a coin of what was due before
and of the price.  If nothing was due, this is the coin `b` had, and the store is the one
it was but for the two owners. -/
theorem saleIsSwap (hc : History h c) (hr : c.running = false) {m k paid s b : A} {coin : TypeTag}
    {i : Item A} {ask : UInt64} (hm : marketAt c.objects m = some coin) (hne : k ≠ paid)
    (hk : freeAt c.objects k = some (.address s, i))
    (hpaid : freeAt c.objects paid = some (.address b, .coin coin ask))
    (hfits : Fits ask (profitsAt c.objects m s)) :
    ∃ c1 c2 c3 es fs gs, execTx c (callTx s (.list i.type coin m k ask)) = .ok (c1, es) ∧
      execTx c1 (callTx b (.buyAndTake i.type coin m k paid)) = .ok (c2, fs) ∧
      execTx c2 (callTx s (.takeProfitsAndKeep coin m)) = .ok (c3, gs) ∧
      (∃ p, Credited ⟨paid, ask⟩ (profitsAt c.objects m s) p ∧
        worldOf c3.objects = ((((worldOf c.objects).setFree paid none).setProfits m s none).setFree k
          (some (.address b, i))).setFree p.id (some (.address s, .coin coin p.balance))) ∧
      (profitsAt c.objects m s = none →
        c3.objects = (c.objects.insert k ⟨.addressOwner b, .item i⟩).insert paid
          ⟨.addressOwner s, .item (.coin coin ask)⟩) := by
  have hl := hc.layout
  obtain ⟨c1, es, he1, hw1⟩ := hc.list_commits hr hm hk ask
  obtain ⟨hc1, hr1⟩ := hc.afterTx hr he1
  obtain ⟨p, hcr, -⟩ := World.credit_of_fits (w := worldOf c.objects) (p := ⟨paid, ask⟩) hfits
  have hbuy : Single (worldOf c1.objects) ⟨b, c1.ctx.txHash + 1, 0⟩
      (.buyAndTake i.type coin m k paid)
      ((((worldOf c.objects).setFree paid none).setProfits m s (some p)).setFree k
        (some (.address b, i))) := by
    have hf : (worldOf c1.objects).free paid = some (.address b, .coin coin ask) := by
      rw [hw1, World.free_setSlot, World.free_setFree_of_ne hne.symm]
      exact hpaid
    have hL : (worldOf c1.objects).slots (m, k) =
        some ⟨deriveId (c.ctx.txHash + 1) 0, ask, s, i⟩ := by
      rw [hw1]
      simp
    have hm1 : (worldOf c1.objects).markets m = some coin := by
      rw [hw1]
      exact hm
    have hcr1 : Credited ⟨paid, ask⟩ ((worldOf c1.objects).profits (m, s)) p := by
      rw [hw1]
      exact hcr
    rw [← World.buy_after_list s hne (hl.slot_none_of_free hk m), ← hw1]
    exact .buyAndTake hm1 hf hL rfl hcr1
  obtain ⟨c2, fs, he2, hw2⟩ := hc1.execTx_of_single hr1 hbuy
  obtain ⟨hc2, hr2⟩ := hc1.afterTx hr1 he2
  have htake : Single (worldOf c2.objects) ⟨s, c2.ctx.txHash + 1, 0⟩ (.takeProfitsAndKeep coin m)
      (((((worldOf c.objects).setFree paid none).setProfits m s none).setFree k
        (some (.address b, i))).setFree p.id (some (.address s, .coin coin p.balance))) := by
    have hm2 : (worldOf c2.objects).markets m = some coin := by
      rw [hw2]
      exact hm
    have hp2 : (worldOf c2.objects).profits (m, s) = some p := by
      rw [hw2]
      simp
    rw [← World.take_after_buy _ m s p.id k (some p), ← hw2]
    exact .takeProfitsAndKeep hm2 hp2
  obtain ⟨c3, gs, he3, hw3⟩ := hc2.execTx_of_single hr2 htake
  refine ⟨c1, c2, c3, es, fs, gs, he1, he2, he3, ⟨p, hcr, hw3⟩, fun hnone => ?_⟩
  -- without earlier profits, the coin is the one that was paid
  have hp : p = ⟨paid, ask⟩ := by
    have hcr' : Credited ⟨paid, ask⟩ (profitsAt c.objects m s) p := hcr
    rw [hnone] at hcr'
    exact hcr'
  subst hp
  have hl1 := hl.put (Or.inr ⟨_, hk⟩) (hl.used_free hk) (.address b) i
  have hpaid1 : ((worldOf c.objects).setFree k (some (.address b, i))).free paid =
      some (.address b, .coin coin ask) := by
    rw [World.free_setFree_of_ne hne.symm]
    exact hpaid
  have hl2 := hl1.put (Or.inr ⟨_, hpaid1⟩) (hl.used_free hpaid) (.address s) (.coin coin ask)
  have hl3 := (hc2.afterTx hr2 he3).1.layout
  have hsame : worldOf c3.objects = ((worldOf c.objects).setFree k (some (.address b, i))).setFree
      paid (some (.address s, .coin coin ask)) := by
    rw [hw3, World.setProfits_setFree, World.setProfits_setFree, World.setFree_comm _ hne.symm,
      World.setFree_comm _ hne, World.setFree_comm _ hne.symm, World.setFree_setFree]
    exact World.setProfits_self hnone
  rw [hsame] at hl3
  exact hl3.store_unique hl2

/-- User 1 sells the object to user 2. -/
theorem saleIsSwap_oneSale :
    ∃ c3, (∃ c1 c2 es fs gs,
      execTx (run genesis (oneSale.take 3)).1
        (callTx (.user 1) (.list (.other 0) .sui (.derived 1 0) (.derived 2 0) 5)) = .ok (c1, es) ∧
      execTx c1 (callTx (.user 2) (.buyAndTake (.other 0) .sui (.derived 1 0) (.derived 2 0)
        (.derived 3 1))) = .ok (c2, fs) ∧
      execTx c2 (callTx (.user 1) (.takeProfitsAndKeep .sui (.derived 1 0))) = .ok (c3, gs)) ∧
      c3.objects = ((run genesis (oneSale.take 3)).1.objects.insert (.derived 2 0)
        ⟨.addressOwner (.user 2), .item (.other 0 [7])⟩).insert (.derived 3 1)
        ⟨.addressOwner (.user 1), .item (.coin .sui 5)⟩ := by
  obtain ⟨hc, hr⟩ := run_history (oneSale.take 3)
  have hm : marketAt (run genesis (oneSale.take 3)).1.objects (.derived 1 0) = some .sui := by
    decide +kernel
  have hk : freeAt (run genesis (oneSale.take 3)).1.objects (.derived 2 0) =
      some (.address (.user 1), .other 0 [7]) := by
    decide +kernel
  have hpaid : freeAt (run genesis (oneSale.take 3)).1.objects (.derived 3 1) =
      some (.address (.user 2), .coin .sui 5) := by
    decide +kernel
  have hnone : profitsAt (run genesis (oneSale.take 3)).1.objects (.derived 1 0) (.user 1) = none := by
    decide +kernel
  obtain ⟨c1, c2, c3, es, fs, gs, he1, he2, he3, -, hobj⟩ :=
    saleIsSwap hc hr hm (by decide) hk hpaid (by rw [hnone, Fits]; decide)
  exact ⟨c3, ⟨c1, c2, es, fs, gs, he1, he2, he3⟩, hobj hnone⟩

end BookMarket
