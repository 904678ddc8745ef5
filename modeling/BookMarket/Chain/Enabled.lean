import BookMarket.Chain.Money

/-!
# When a marketplace call succeeds

The converse of `exec_effect` for the marketplace: which checks a call makes, in
which order, and what it does when it passes them all.  `firstViolated` is the
order of the checks; a purchase makes one more, the overflow check inside
`coin::join`, and `fits_of_total` says that it never fails while the coins of the
currency fit into a `u64` together.

* `World.exec_list`, `World.exec_delist`, `World.exec_buy`,
  `World.exec_takeProfits` — the calls, as equations.
* `World.exec_buy_fits` — a purchase, when there is no overflow.
* `World.exec_delist_ok`, `World.exec_buy_ok`, `World.exec_takeProfits_ok` — the
  calls that pass their checks.
* `Layout.fits_of_total` — there is none while the total fits.
-/

namespace BookMarket

open Simulation

variable {A : Type}

/-- Every item has `key` and `store`. -/
theorem Item.hasKeyStore (i : Item A) : i.type.hasKeyStore = true := by
  cases i <;> rfl

theorem checkKeyStore_eq {t : TypeTag} (ht : t.hasKeyStore = true) : checkKeyStore t = .ok () := by
  rw [checkKeyStore, if_pos ht]

/-- The first check that fails of those a call makes on a listing: that it is
there, the call's own check, and the type of the item. -/
def firstViolated (check : Slot A → Option Abort) (t : TypeTag) : Option (Slot A) → Option Abort
  | none => some .eFieldDoesNotExist
  | some L =>
    match check L with
    | some e => some e
    | none => if L.item.type ≠ t then some .eFieldTypeMismatch else none

variable [DecidableEq A]

/-- The check of `delist`. -/
def ownerCheck (sender : A) (L : Slot A) : Option Abort :=
  if sender ≠ L.seller then some .eNotOwner else none

omit [DecidableEq A] in
/-- The check of `buy`. -/
def amountCheck (paid : UInt64) (L : Slot A) : Option Abort :=
  if L.ask ≠ paid then some .eAmountIncorrect else none

theorem firstViolated_owner_eq_none {sender : A} {t : TypeTag} {v : Option (Slot A)} :
    firstViolated (ownerCheck sender) t v = none ↔
      ∃ L, v = some L ∧ L.seller = sender ∧ L.item.type = t := by
  cases v with
  | none => simp [firstViolated]
  | some L =>
    by_cases hs : sender = L.seller
    · by_cases ht : L.item.type = t <;> simp [firstViolated, ownerCheck, hs, ht]
    · simp [firstViolated, ownerCheck, hs, Ne.symm hs]

omit [DecidableEq A] in
theorem firstViolated_amount_eq_none {paid : UInt64} {t : TypeTag} {v : Option (Slot A)} :
    firstViolated (amountCheck paid) t v = none ↔
      ∃ L, v = some L ∧ L.ask = paid ∧ L.item.type = t := by
  cases v with
  | none => simp [firstViolated]
  | some L =>
    by_cases hs : L.ask = paid
    · by_cases ht : L.item.type = t <;> simp [firstViolated, amountCheck, hs, ht]
    · simp [firstViolated, amountCheck, hs]

omit [DecidableEq A] in
theorem firstViolated_ne_overflow {paid : UInt64} {t : TypeTag} {v : Option (Slot A)} :
    firstViolated (amountCheck paid) t v ≠ some .arithmeticError := by
  cases v with
  | none => simp [firstViolated]
  | some L =>
    by_cases ha : L.ask = paid
    · by_cases ht : L.item.type = t <;> simp [firstViolated, amountCheck, ha, ht]
    · simp [firstViolated, amountCheck, ha]

/-- The coin `paid` can be merged into what is there. -/
def Fits (paid : UInt64) (old : Option (Coin A)) : Prop :=
  coinValue old + paid.toNat < 2 ^ 64

omit [DecidableEq A] in
theorem Credited.fits {p : Coin A} {old : Option (Coin A)} {c : Coin A} (h : Credited p old c) :
    Fits p.balance old := by
  rw [Fits, ← h.value]
  exact c.balance.toNat_lt

omit [DecidableEq A] in
theorem Credited.unique {p : Coin A} {old : Option (Coin A)} {c c' : Coin A}
    (h : Credited p old c) (h' : Credited p old c') : c = c' := by
  cases old with
  | none => exact h.trans h'.symm
  | some o =>
    obtain ⟨id, b⟩ := c
    obtain ⟨id', b'⟩ := c'
    have hid : id = id' := h.1.trans h'.1.symm
    have hb : b = b' := UInt64.toNat_inj.1 (h.2.trans h'.2.symm)
    rw [hid, hb]

variable [AddressSpace A]

namespace World

variable {w : World A} {ctx : TxContext A} {call : Call A} {t coin : TypeTag} {m k paid : A}
  {ask v : UInt64} {b : Bool} {i : Item A}

/-! ## The calls, as equations -/

/-- The end of a call that hands an object over. -/
def hand (w : World A) (ctx : TxContext A) (call : Call A) (id : A) (i : Item A) :
    World A × TxContext A × Option (Obj A) :=
  (w.give id (call.receiver ctx.sender) i, ctx, some ⟨id, .item i⟩)

/-! An operation and its wrapper differ in the receiver only. -/

theorem exec_delist_eq (hop : call.op = some (.delist t coin m k)) :
    w.exec ctx call = (do
      checkKeyStore t
      w.borrowMarketplace m coin
      let r ← w.delist t ctx.sender m k
      return r.2.hand ctx call k r.1) := by
  cases call with
  | delist | delistAndTake =>
    cases hop
    rfl
  | _ => cases hop

theorem exec_buy_eq (hop : call.op = some (.buy t coin m k paid)) :
    w.exec ctx call = (do
      checkKeyStore t
      w.borrowMarketplace m coin
      let p ← w.coinArg paid coin
      let r ← p.2.buy t m k p.1
      return r.2.hand ctx call k r.1) := by
  cases call with
  | buy | buyAndTake =>
    cases hop
    rfl
  | _ => cases hop

theorem exec_takeProfits_eq (hop : call.op = some (.takeProfits coin m)) :
    w.exec ctx call = (do
      w.borrowMarketplace m coin
      let r ← w.takeProfits ctx.sender m
      return r.2.hand ctx call r.1.id (.coin coin r.1.balance)) := by
  cases call with
  | takeProfits | takeProfitsAndKeep =>
    cases hop
    rfl
  | _ => cases hop

/-! What they come to, once the arguments are there. -/

theorem exec_list (hop : call.op = some (.list i.type coin m k ask))
    (hm : w.markets m = some coin) (hf : w.free k = some (.transaction b, i)) :
    w.exec ctx call = .ok ((w.setFree k none).setSlot m k
      (some ⟨(objectNew ctx).1, ask, ctx.sender, i⟩), (objectNew ctx).2, none) := by
  cases call with
  | list =>
    cases hop
    have h1 : w.borrowMarketplace m coin = .ok () := borrowMarketplace_eq_ok.2 hm
    have h2 : w.byValueArg k i.type = .ok (i, w.setFree k none) :=
      byValueArg_eq_ok.2 ⟨rfl, rfl, b, hf⟩
    simp only [exec, checkKeyStore_eq i.hasKeyStore, ok_bind, h1, h2, pure_eq_ok]
    rfl
  | _ => cases hop

theorem exec_delist (hop : call.op = some (.delist t coin m k)) (hm : w.markets m = some coin)
    (ht : t.hasKeyStore = true) :
    w.exec ctx call = match w.slots (m, k) with
      | none => .error .eFieldDoesNotExist
      | some L =>
        match firstViolated (ownerCheck ctx.sender) t (some L) with
        | some e => .error e
        | none => .ok ((w.setSlot m k none).setFree k (some (call.receiver ctx.sender, L.item)),
            ctx, some ⟨k, .item L.item⟩) := by
  have h1 : w.borrowMarketplace m coin = .ok () := borrowMarketplace_eq_ok.2 hm
  rw [exec_delist_eq hop, checkKeyStore_eq ht, ok_bind, h1, ok_bind, delist]
  cases w.slots (m, k) with
  | none => rfl
  | some L =>
    by_cases hs : ctx.sender = L.seller
    · by_cases hty : L.item.type = t
      · simp [firstViolated, ownerCheck, hs, hty, hand, give]
      · simp [firstViolated, ownerCheck, hs, hty]
    · simp [firstViolated, ownerCheck, hs]

theorem exec_buy (hop : call.op = some (.buy t coin m k paid)) (hm : w.markets m = some coin)
    (ht : t.hasKeyStore = true) (hf : w.free paid = some (.transaction b, .coin coin v)) :
    w.exec ctx call = match w.slots (m, k) with
      | none => .error .eFieldDoesNotExist
      | some L =>
        if L.ask ≠ v then .error .eAmountIncorrect
        else do
          let w ← ((w.setFree paid none).setSlot m k none).credit m L.seller ⟨paid, v⟩
          if L.item.type ≠ t then throw .eFieldTypeMismatch
          return (w.setFree k (some (call.receiver ctx.sender, L.item)), ctx,
            some ⟨k, .item L.item⟩) := by
  have h1 : w.borrowMarketplace m coin = .ok () := borrowMarketplace_eq_ok.2 hm
  have h2 : w.coinArg paid coin = .ok (⟨paid, v⟩, w.setFree paid none) :=
    coinArg_eq_ok.2 ⟨rfl, rfl, b, hf⟩
  rw [exec_buy_eq hop, checkKeyStore_eq ht, ok_bind, h1, ok_bind, h2, ok_bind, buy, slots_setFree]
  cases w.slots (m, k) with
  | none => rfl
  | some L =>
    by_cases ha : L.ask = v
    · simp only [ha, ne_eq, not_true_eq_false, if_false]
      cases ((w.setFree paid none).setSlot m k none).credit m L.seller ⟨paid, v⟩ with
      | error e => rfl
      | ok w' => by_cases hty : L.item.type = t <;> simp [hty, hand, give]
    · simp [ha]

omit [AddressSpace A] in
/-- Taking a coin does not compute anything. -/
theorem coinArg_ne_overflow (w : World A) (id : A) (coin : TypeTag) :
    w.coinArg id coin ≠ .error .arithmeticError := by
  unfold coinArg byValueArg takeArg
  split
  · next b i hf =>
    simp only [ok_bind]
    by_cases ht : i.type = .coin coin
    · simp only [ht, if_true, pure_eq_ok, ok_bind]
      cases i <;> simp
    · simp [ht]
  · simp

omit [AddressSpace A] in
/-- What the seller's coin becomes when there is no overflow. -/
theorem credit_of_fits {s : A} {p : Coin A} (h : Fits p.balance (w.profits (m, s))) :
    ∃ c, Credited p (w.profits (m, s)) c ∧ w.credit m s p = .ok (w.setProfits m s (some c)) := by
  unfold credit
  cases hp : w.profits (m, s) with
  | none => exact ⟨p, rfl, rfl⟩
  | some old =>
    rw [hp] at h
    have hlt : old.balance.toNat + p.balance.toNat < 2 ^ 64 := h
    have hj : Balance.join old.balance p.balance = .ok (old.balance + p.balance) := by
      rw [Balance.join, if_pos hlt]
    refine ⟨⟨old.id, old.balance + p.balance⟩, ⟨rfl, Balance.join_eq_ok hj⟩, ?_⟩
    simp only [hj, ok_bind, pure_eq_ok]

/-- A purchase, when there is no overflow. -/
theorem exec_buy_fits (hop : call.op = some (.buy t coin m k paid)) (hm : w.markets m = some coin)
    (ht : t.hasKeyStore = true) (hf : w.free paid = some (.transaction b, .coin coin v))
    (hfits : ∀ {L}, w.slots (m, k) = some L → L.ask = v → Fits v (w.profits (m, L.seller))) :
    (∃ e, firstViolated (amountCheck v) t (w.slots (m, k)) = some e ∧ w.exec ctx call = .error e) ∨
    ∃ L c, w.slots (m, k) = some L ∧ L.ask = v ∧ L.item.type = t ∧
      Credited ⟨paid, v⟩ (w.profits (m, L.seller)) c ∧
      w.exec ctx call = .ok ((((w.setFree paid none).setSlot m k none).setProfits m L.seller
        (some c)).setFree k (some (call.receiver ctx.sender, L.item)), ctx,
        some ⟨k, .item L.item⟩) := by
  rw [exec_buy hop hm ht hf]
  cases hw : w.slots (m, k) with
  | none => exact Or.inl ⟨_, rfl, rfl⟩
  | some L =>
    by_cases ha : L.ask = v
    · obtain ⟨c, hc, hcr⟩ := credit_of_fits
        (w := (w.setFree paid none).setSlot m k none) (p := ⟨paid, v⟩) (hfits hw ha)
      simp only [ha, ne_eq, not_true_eq_false, if_false, hcr, ok_bind]
      by_cases hty : L.item.type = t
      · exact Or.inr ⟨L, c, rfl, ha, hty, hc, by simp [hty]⟩
      · exact Or.inl ⟨.eFieldTypeMismatch, by simp [firstViolated, amountCheck, ha, hty],
          by simp [hty]⟩
    · exact Or.inl ⟨.eAmountIncorrect, by simp [firstViolated, amountCheck, ha], by simp [ha]⟩

theorem exec_takeProfits (hop : call.op = some (.takeProfits coin m))
    (hm : w.markets m = some coin) :
    w.exec ctx call = match w.profits (m, ctx.sender) with
      | none => .error .eFieldDoesNotExist
      | some c => .ok ((w.setProfits m ctx.sender none).setFree c.id
          (some (call.receiver ctx.sender, .coin coin c.balance)), ctx, some (c.toObj coin)) := by
  have h1 : w.borrowMarketplace m coin = .ok () := borrowMarketplace_eq_ok.2 hm
  rw [exec_takeProfits_eq hop, h1, ok_bind, takeProfits]
  cases w.profits (m, ctx.sender) with
  | none => rfl
  | some c => rfl

/-! The calls that pass all their checks. -/

theorem exec_delist_ok {L : Slot A} (hop : call.op = some (.delist t coin m k))
    (hm : w.markets m = some coin) (hw : w.slots (m, k) = some L) (hs : L.seller = ctx.sender)
    (ht : L.item.type = t) :
    w.exec ctx call = .ok ((w.setSlot m k none).setFree k
      (some (call.receiver ctx.sender, L.item)), ctx, some ⟨k, .item L.item⟩) := by
  rw [exec_delist hop hm (ht ▸ L.item.hasKeyStore), hw]
  simp only [firstViolated_owner_eq_none.2 ⟨L, rfl, hs, ht⟩]

theorem exec_buy_ok {L : Slot A} {c : Coin A} (hop : call.op = some (.buy t coin m k paid))
    (hm : w.markets m = some coin) (hf : w.free paid = some (.transaction b, .coin coin L.ask))
    (hw : w.slots (m, k) = some L) (ht : L.item.type = t)
    (hc : Credited ⟨paid, L.ask⟩ (w.profits (m, L.seller)) c) :
    w.exec ctx call = .ok ((((w.setFree paid none).setSlot m k none).setProfits m L.seller
      (some c)).setFree k (some (call.receiver ctx.sender, L.item)), ctx,
      some ⟨k, .item L.item⟩) := by
  have hfits {L' : Slot A} (hw' : w.slots (m, k) = some L') (_ : L'.ask = L.ask) :
      Fits L.ask (w.profits (m, L'.seller)) := by
    cases hw.symm.trans hw'
    exact hc.fits
  rcases exec_buy_fits hop hm (ht ▸ L.item.hasKeyStore) hf hfits with
    ⟨e, hv, -⟩ | ⟨L', c', hw', -, -, hc', he⟩
  · rw [hw, firstViolated_amount_eq_none.2 ⟨L, rfl, rfl, ht⟩] at hv
    cases hv
  · cases hw.symm.trans hw'
    rw [he, hc'.unique hc]

theorem exec_takeProfits_ok {c : Coin A} (hop : call.op = some (.takeProfits coin m))
    (hm : w.markets m = some coin) (hp : w.profits (m, ctx.sender) = some c) :
    w.exec ctx call = .ok ((w.setProfits m ctx.sender none).setFree c.id
      (some (call.receiver ctx.sender, .coin coin c.balance)), ctx, some (c.toObj coin)) := by
  rw [exec_takeProfits hop hm, hp]

end World

/-! ## No overflow while the total fits -/

/-- A coin that somebody holds and a coin of proceeds of the same currency are
two of the coins the total is made of. -/
theorem Layout.fits_of_total {ctx : TxContext A} {w : World A} {o : Objects A}
    (hl : Layout ctx w o) {m s paid : A} {coin : TypeTag} {h : Holder A} {v : UInt64}
    (hm : w.markets m = some coin) (hf : w.free paid = some (h, .coin coin v))
    (htotal : coinTotal coin o < 2 ^ 64) : Fits v (w.profits (m, s)) := by
  have hpaid : weight (coinWeight coin) (⟨h.toOwner, .item (.coin coin v)⟩ : Stored A) = v.toNat := by
    simp [weight, coinWeight]
  rw [coinTotal, held] at htotal
  rw [Fits]
  cases hp : w.profits (m, s) with
  | none =>
    have := Finmap.le_total (weight (coinWeight coin)) (hl.lookup_free hf)
    rw [hpaid] at this
    simp only [coinValue_none]
    omega
  | some c =>
    have hne : c.id ≠ paid := by
      intro e
      have := hl.coin_ne_free hp
      rw [e, hf] at this
      cases this
    have := Finmap.add_le_total (weight (coinWeight coin)) (hl.lookup_free hf)
      (hl.lookup_profitsPiece hp hm .coin) hne
    rw [hpaid] at this
    simp only [weight, coinWeight, if_true] at this
    simp only [coinValue_some]
    omega

end BookMarket
