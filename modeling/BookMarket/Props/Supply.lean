import BookMarket.Chain.Enabled

/-!
# Coins and their supply

A treasury records how much of its currency it has issued, and checks that the
record stays below `2^64 - 1`.  Wherever the coins go, splitting, joining, being
listed or waiting for a seller, their sum is what the treasuries of the currency
have on record; and a currency that was created once has one treasury.  So no
addition of two of its coins can overflow, and in particular not the one a
purchase makes.

* `SupplyBook` — the invariant: coins and supplies, treasuries and creations.
* `History.supplyBook` — it holds in every reachable store.
* `noOverflow` — **a purchase never fails by overflow.**
-/

namespace BookMarket

open Function (update)

variable {A : Type} [DecidableEq A] [AddressSpace A]

/-- How often the log creates the currency `t`. -/
def creations (t : TypeTag) (h : List (Entry A)) : ℕ :=
  h.countP fun e => e.call = .createCurrency t

/-- The invariant behind the supply of a currency. -/
structure SupplyBook (t : TypeTag) (h : List (Entry A)) (o : Objects A) : Prop where
  coins : coinTotal t o = supplyTotal t o
  caps : capCount t o = creations t h
  bound : ∀ {id s}, itemAt o id = some (.treasuryCap t s) → s.toNat < 2 ^ 64 - 1

namespace SupplyBook

variable {t : TypeTag} {h : List (Entry A)} {o o' : Objects A} {ctx : TxContext A} {call : Call A}

omit [AddressSpace A] in
theorem empty (t : TypeTag) : SupplyBook t ([] : List (Entry A)) ∅ :=
  ⟨rfl, rfl, fun h => by cases h⟩

omit [AddressSpace A] in
theorem congr (hb : SupplyBook t h o) (heq : itemAt o' = itemAt o) : SupplyBook t h o' :=
  ⟨by rw [coinTotal, supplyTotal, held_congr _ heq, held_congr _ heq]; exact hb.coins,
    by rw [capCount, held_congr _ heq]; exact hb.caps, fun h => hb.bound (heq ▸ h)⟩

/-- The recorded supply of every treasury stays in bounds. -/
theorem bound_step (hb : SupplyBook t h o) (hr : Reshape ctx (itemAt o) call (itemAt o')) {id : A}
    {s : UInt64} (hi : itemAt o' id = some (.treasuryCap t s)) : s.toNat < 2 ^ 64 - 1 := by
  -- what is read at `id` was written there by the call, or was there before
  have hupd {f : A → Option (Item A)} {a : A} {v : Option (Item A)}
      (hf : f id = some (.treasuryCap t s) → s.toNat < 2 ^ 64 - 1)
      (hv : v = some (.treasuryCap t s) → s.toNat < 2 ^ 64 - 1)
      (hi : update f a v id = some (.treasuryCap t s)) : s.toNat < 2 ^ 64 - 1 := by
    by_cases hid : id = a
    · subst hid
      rw [Function.update_self] at hi
      exact hv hi
    · rw [Function.update_of_ne hid] at hi
      exact hf hi
  generalize itemAt o' = f' at hr hi
  cases hr with
  | same hcall => exact hb.bound hi
  | merge => exact hupd (hupd hb.bound (by simp)) (by simp) hi
  | mintToSender | updateDescription | burn | otherNew | otherSet | otherDelete =>
    exact hupd hb.bound (by simp) hi
  | createCurrency =>
    refine hupd hb.bound (fun e => ?_) hi
    cases e
    decide
  | coinMint hf hne hs =>
    refine hupd (hupd hb.bound fun e => ?_) (by simp) hi
    cases e
    exact (Balance.increaseSupply_eq_ok hs).2
  | coinBurn hc hf hs =>
    refine hupd (hupd hb.bound (by simp)) (fun e => ?_) hi
    cases e
    have h1 := Balance.decreaseSupply_eq_ok hs
    have h2 := hb.bound hf
    omega
  | coinSplit => exact hupd (hupd hb.bound (by simp)) (by simp) hi

omit [AddressSpace A] in
/-- Coins and supplies change alike. -/
theorem coins_step (hb : SupplyBook t h o) (hi : Issue o o' call) :
    coinTotal t o' = supplyTotal t o' := by
  have hc := hb.coins
  rw [coinTotal, supplyTotal] at hc ⊢
  cases hi with
  | none hcall hi =>
    rw [hi (monetary_coinWeight t), hi (monetary_supplyWeight t), hc]
  | createCurrency hi =>
    rw [hi (monetary_coinWeight t), hi (monetary_supplyWeight t), hc]
    simp [coinWeight, supplyWeight]
  | @coinMint coin cap value supply supply' hs hi =>
    have h1 := hi (monetary_coinWeight t)
    have h2 := hi (monetary_supplyWeight t)
    have h3 := (Balance.increaseSupply_eq_ok hs).1
    simp only [coinWeight, supplyWeight] at h1 h2
    by_cases ht : coin = t
    · simp only [ht, if_true] at h1 h2
      omega
    · simp only [ht, if_false] at h1 h2
      omega
  | @coinBurn coin cap burned value supply supply' hs hi =>
    have h1 := hi (monetary_coinWeight t)
    have h2 := hi (monetary_supplyWeight t)
    have h3 := Balance.decreaseSupply_eq_ok hs
    simp only [coinWeight, supplyWeight] at h1 h2
    by_cases ht : coin = t
    · simp only [ht, if_true] at h1 h2
      omega
    · simp only [ht, if_false] at h1 h2
      omega

omit [AddressSpace A] in
/-- A treasury appears when its currency is created. -/
theorem caps_step (hb : SupplyBook t h o) (hi : Issue o o' call) (sender : A)
    (out : Option (Obj A)) : capCount t o' = creations t (h ++ [⟨sender, call, out⟩]) := by
  have hc := hb.caps
  have hcount : creations t (h ++ [⟨sender, call, out⟩]) =
      creations t h + if call = .createCurrency t then 1 else 0 := by
    simp [creations, List.countP_append, List.countP_cons]
  rw [hcount, ← hc, capCount, capCount]
  cases hi with
  | none hcall hi =>
    have hne : call ≠ .createCurrency t := by
      rintro rfl
      cases hcall
    rw [hi (monetary_capWeight t), if_neg hne, Nat.add_zero]
  | @createCurrency coin hi =>
    rw [hi (monetary_capWeight t)]
    simp [capWeight]
  | coinMint hs hi =>
    have := hi (monetary_capWeight t)
    simp only [capWeight] at this
    simp only [reduceCtorEq, if_false]
    omega
  | coinBurn hs hi =>
    have := hi (monetary_capWeight t)
    simp only [capWeight] at this
    simp only [reduceCtorEq, if_false]
    omega

omit [AddressSpace A] in
/-- With one treasury the total is what it has on record. -/
theorem total_eq (hb : SupplyBook t h o) (hone : creations t h ≤ 1) {cap : A} {s : UInt64}
    (hcap : itemAt o cap = some (.treasuryCap t s)) : coinTotal t o = s.toNat := by
  obtain ⟨owner, ho⟩ := itemAt_eq_some hcap
  have hw : weight (capWeight t) (⟨owner, .item (.treasuryCap t s)⟩ : Stored A) = 1 := by
    simp [weight, capWeight]
  have hs : weight (supplyWeight t) (⟨owner, .item (.treasuryCap t s)⟩ : Stored A) = s.toNat := by
    simp [weight, supplyWeight]
  have h1 := Finmap.total_erase (weight (capWeight t)) ho
  have h2 := Finmap.total_erase (weight (supplyWeight t)) ho
  rw [hw] at h1
  rw [hs] at h2
  have hcaps : Finmap.total (weight (capWeight t)) o = creations t h := hb.caps
  -- no treasury is left when this one is taken away, and so no supply
  have hrest : Finmap.total (weight (supplyWeight t)) (o.erase cap) ≤
      2 ^ 64 * Finmap.total (weight (capWeight t)) (o.erase cap) := by
    refine Finmap.total_le_mul fun {a x} _ => ?_
    obtain ⟨owner, d⟩ := x
    cases d with
    | item i =>
      cases i with
      | treasuryCap t' s' =>
        by_cases ht : t' = t
        · have := s'.toNat_lt
          simp only [weight, supplyWeight, capWeight, ht, if_true]
          omega
        · simp [weight, supplyWeight, ht]
      | _ => exact Nat.zero_le _
    | _ => exact Nat.zero_le _
  have hzero : Finmap.total (weight (capWeight t)) (o.erase cap) = 0 := by omega
  rw [hzero] at hrest
  have hsum : Finmap.total (weight (supplyWeight t)) o = s.toNat := by omega
  exact hb.coins.trans hsum

omit [AddressSpace A] in
/-- And it stays below `2^64 - 1`. -/
theorem total_lt (hb : SupplyBook t h o) (hone : creations t h ≤ 1) :
    coinTotal t o < 2 ^ 64 - 1 := by
  have hle : supplyTotal t o ≤ (2 ^ 64 - 2) * capCount t o := by
    refine Finmap.total_le_mul fun {a x} hx => ?_
    obtain ⟨owner, d⟩ := x
    cases d with
    | item i =>
      cases i with
      | treasuryCap t' s' =>
        by_cases ht : t' = t
        · subst ht
          have := hb.bound (itemAt_of_lookup hx)
          simp only [weight, supplyWeight, capWeight, if_true]
          omega
        · simp [weight, supplyWeight, ht]
      | _ => exact Nat.zero_le _
    | _ => exact Nat.zero_le _
  rw [hb.caps] at hle
  rw [hb.coins]
  have hmul : (2 ^ 64 - 2) * creations t h ≤ (2 ^ 64 - 2) * 1 := Nat.mul_le_mul_left _ hone
  omega

end SupplyBook

/-- The invariant holds in every reachable store. -/
theorem History.supplyBook {h : List (Entry A)} {c : Chain A} (hc : History h c) (t : TypeTag) :
    SupplyBook t h c.objects := by
  refine hc.contentsRule (I := SupplyBook t) (.empty t) (fun hb heq => hb.congr heq) ?_
  intro h call out c c' hc hb he
  have hr := hc.reshape he
  have hi := hr.issue (itemAt_none hc.layout.lookup_objectNew)
  exact ⟨hb.coins_step hi, hb.caps_step hi _ _, hb.bound_step hr⟩

/-! ## Purchases -/

/-- A purchase that overflows got as far as having a coin to pay with. -/
theorem World.exec_buy_overflow {w : World A} {ctx : TxContext A} {call : Call A}
    {t coin : TypeTag} {m k paid : A} (hop : call.op = some (.buy t coin m k paid))
    (he : w.exec ctx call = .error .arithmeticError) :
    t.hasKeyStore = true ∧ w.markets m = some coin ∧
      ∃ b v, w.free paid = some (.transaction b, .coin coin v) := by
  rw [exec_buy_eq hop] at he
  by_cases ht : t.hasKeyStore = true
  · refine ⟨ht, ?_⟩
    rw [checkKeyStore_eq ht, ok_bind] at he
    by_cases hm : w.markets m = some coin
    · refine ⟨hm, ?_⟩
      have hbm : w.borrowMarketplace m coin = .ok () := World.borrowMarketplace_eq_ok.2 hm
      rw [hbm, ok_bind] at he
      cases hca : w.coinArg paid coin with
      | ok r =>
        obtain ⟨p, w'⟩ := r
        obtain ⟨-, -, b, hf⟩ := World.coinArg_eq_ok.1 hca
        exact ⟨b, p.balance, hf⟩
      | error e =>
        rw [hca, error_bind] at he
        cases he
        exact absurd hca (w.coinArg_ne_overflow paid coin)
    · rw [World.borrowMarketplace, if_neg hm] at he
      cases he
  · rw [checkKeyStore, if_neg ht] at he
    cases he

/-- **A purchase can never fail by overflow.**  For a currency that was created at
most once: in every reachable state the sum of all its coins, wherever they are,
is the supply its treasury has on record and is below `2^64 - 1`; and no
purchase in that currency, on any marketplace, from whomever, fails in the
addition that `coin::join` makes. -/
theorem noOverflow {h : List (Entry A)} {c : Chain A} (hc : History h c) {coin : TypeTag}
    (hone : creations coin h ≤ 1) :
    coinTotal coin c.objects = supplyTotal coin c.objects ∧
    (∀ {cap supply}, itemAt c.objects cap = some (.treasuryCap coin supply) →
      coinTotal coin c.objects = supply.toNat) ∧
    coinTotal coin c.objects < 2 ^ 64 - 1 ∧
    ∀ {call t m k paid}, call.op = some (.buy t coin m k paid) →
      exec c call ≠ .error .arithmeticError := by
  have hb := hc.supplyBook coin
  refine ⟨hb.coins, fun hcap => hb.total_eq hone hcap, hb.total_lt hone, ?_⟩
  intro call t m k paid hop he
  have he' := (hc.exec_sim call).eq_error_iff.1 he
  obtain ⟨ht, hm, b, v, hf⟩ := World.exec_buy_overflow hop he'
  have hlt : coinTotal coin c.objects < 2 ^ 64 := lt_trans (hb.total_lt hone) (by decide)
  have hw := @World.exec_buy_fits A _ _ (worldOf c.objects) c.ctx call t coin m k paid v b hop hm
    ht hf fun _ _ => hc.layout.fits_of_total hm hf hlt
  rcases hw with ⟨e, hv, herr⟩ | ⟨_, _, _, _, _, _, hok⟩
  · rw [he'] at herr
    cases herr
    exact firstViolated_ne_overflow hv
  · rw [he'] at hok
    cases hok

/-- The currency of `oneSale` is created once; 5 of it exist. -/
theorem noOverflow_oneSale :
    History (run genesis oneSale).2 (run genesis oneSale).1 ∧
    creations .sui (run (genesis : Chain Addr) oneSale).2 ≤ 1 ∧
    coinTotal .sui (run (genesis : Chain Addr) oneSale).1.objects < 2 ^ 64 - 1 ∧
    coinTotal .sui (run (genesis : Chain Addr) oneSale).1.objects = 5 := by
  have hc := (run_history oneSale).1
  have hone : creations .sui (run (genesis : Chain Addr) oneSale).2 ≤ 1 := by decide +kernel
  exact ⟨hc, hone, (noOverflow hc hone).2.2.1, by decide +kernel⟩

end BookMarket
