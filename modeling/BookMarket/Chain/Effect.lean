import BookMarket.Chain.Reach

/-!
# What a successful call does

One inversion lemma for all calls.  `Effect` lists, call by call, what had to
be the case before a call that succeeded and what the world is afterwards; the
properties of the marketplace are proved by cases on it, and never by unfolding
a call again.

* `Call.op` — the marketplace operation a call stands for.  A wrapper stands
  for what it wraps; `Call.receiver` says where its result goes.
* `Credited` — what the seller's coin becomes in a sale.
* `exec_effect` — **every successful call has an effect of the list.**
* `Effect.list_inv`, `Effect.delist_inv`, `Effect.buy_inv`, `Effect.takeProfits_inv`
  — the effect of a call whose operation is known.
* `Effect.op_none`, `Effect.sender` — what most calls have in common.
* `History.listing_of_ne`, `History.profits_of_ne`, `History.market_of_ne` — which
  events touch what.
* `History.rule` — the invariant rule.
-/

namespace BookMarket

open Simulation Runs

/-! ## Marketplace operations -/

/-- The operations of the marketplace. -/
inductive Op (A : Type)
  | create (coin : TypeTag)
  | list (t coin : TypeTag) (marketplace item : A) (ask : UInt64)
  | delist (t coin : TypeTag) (marketplace itemId : A)
  | buy (t coin : TypeTag) (marketplace itemId paid : A)
  | takeProfits (coin : TypeTag) (marketplace : A)
  deriving DecidableEq

variable {A : Type}

/-- The marketplace operation a call stands for. -/
def Call.op : Call A → Option (Op A)
  | .create coin => some (.create coin)
  | .list t coin m k ask => some (.list t coin m k ask)
  | .delist t coin m k | .delistAndTake t coin m k => some (.delist t coin m k)
  | .buy t coin m k paid | .buyAndTake t coin m k paid => some (.buy t coin m k paid)
  | .takeProfits coin m | .takeProfitsAndKeep coin m => some (.takeProfits coin m)
  | _ => none

/-- Where the result of a call goes: a wrapper sends it to the sender, the other
calls leave it to the transaction. -/
def Call.receiver (sender : A) : Call A → Holder A
  | .delistAndTake .. | .buyAndTake .. | .takeProfitsAndKeep .. => .address sender
  | _ => .transaction false

/-- The value of a coin that may be there. -/
def coinValue : Option (Coin A) → ℕ
  | none => 0
  | some c => c.balance.toNat

@[simp] theorem coinValue_none : coinValue (none : Option (Coin A)) = 0 := rfl

@[simp] theorem coinValue_some (c : Coin A) : coinValue (some c) = c.balance.toNat := rfl

/-- What the coin of a seller becomes when `paid` is added to it: the paid coin
itself if there was none, and otherwise the old coin with a larger balance. -/
def Credited (paid : Coin A) : Option (Coin A) → Coin A → Prop
  | none, new => new = paid
  | some old, new => new.id = old.id ∧ new.balance.toNat = old.balance.toNat + paid.balance.toNat

theorem Credited.value {paid : Coin A} {old : Option (Coin A)} {new : Coin A}
    (h : Credited paid old new) : new.balance.toNat = coinValue old + paid.balance.toNat := by
  cases old with
  | none =>
    cases h
    simp
  | some c => exact h.2

variable [DecidableEq A] [AddressSpace A]

/-! ## Effects -/

/-- `Effect w ctx call out w' ctx'`: the call can succeed in the world `w`, handing
out `out` and leading to `w'`. -/
inductive Effect (w : World A) (ctx : TxContext A) :
    Call A → Option (Obj A) → World A → TxContext A → Prop
  | create {call : Call A} {coin : TypeTag} (hop : call.op = some (.create coin)) :
      Effect w ctx call none (w.setMarket (objectNew ctx).1 coin) (objectNew ctx).2
  | list {call : Call A} {t coin : TypeTag} {m k : A} {ask : UInt64} {b : Bool} {i : Item A}
      (hop : call.op = some (.list t coin m k ask)) (hm : w.markets m = some coin)
      (hf : w.free k = some (.transaction b, i)) (ht : i.type = t) :
      Effect w ctx call none
        ((w.setFree k none).setSlot m k (some ⟨(objectNew ctx).1, ask, ctx.sender, i⟩))
        (objectNew ctx).2
  | delist {call : Call A} {t coin : TypeTag} {m k : A} {L : Slot A}
      (hop : call.op = some (.delist t coin m k)) (hm : w.markets m = some coin)
      (hw : w.slots (m, k) = some L) (hs : ctx.sender = L.seller) (ht : L.item.type = t) :
      Effect w ctx call (some ⟨k, .item L.item⟩)
        ((w.setSlot m k none).setFree k (some (call.receiver ctx.sender, L.item))) ctx
  | buy {call : Call A} {t coin : TypeTag} {m k paid : A} {L : Slot A} {b : Bool} {c : Coin A}
      (hop : call.op = some (.buy t coin m k paid)) (hm : w.markets m = some coin)
      (hf : w.free paid = some (.transaction b, .coin coin L.ask))
      (hw : w.slots (m, k) = some L) (ht : L.item.type = t)
      (hc : Credited ⟨paid, L.ask⟩ (w.profits (m, L.seller)) c) :
      Effect w ctx call (some ⟨k, .item L.item⟩)
        ((((w.setFree paid none).setSlot m k none).setProfits m L.seller (some c)).setFree k
          (some (call.receiver ctx.sender, L.item))) ctx
  | takeProfits {call : Call A} {coin : TypeTag} {m : A} {c : Coin A}
      (hop : call.op = some (.takeProfits coin m)) (hm : w.markets m = some coin)
      (hp : w.profits (m, ctx.sender) = some c) :
      Effect w ctx call (some (c.toObj coin))
        ((w.setProfits m ctx.sender none).setFree c.id
          (some (call.receiver ctx.sender, .coin coin c.balance))) ctx
  | mintToSender {title description content url : List UInt8} {nft : BookNFT A}
      (hn : BookNft.newNft ctx.sender title description content url = .ok nft) :
      Effect w ctx (.mintToSender title description content url)
        (some ⟨(objectNew ctx).1, .item (.bookNFT nft)⟩)
        (w.setFree (objectNew ctx).1 (some (.address ctx.sender, .bookNFT nft))) (objectNew ctx).2
  | move {call : Call A} {id recipient : A} {b : Bool} {i : Item A}
      (hcall : call = .transfer id recipient ∨ call = .publicTransfer id recipient)
      (hf : w.free id = some (.transaction b, i)) :
      Effect w ctx call none (w.setFree id (some (.address recipient, i))) ctx
  | updateDescription {id : A} {newDescription : List UInt8} {b : Bool} {nft nft' : BookNFT A}
      (hf : w.free id = some (.transaction b, .bookNFT nft))
      (hn : BookNft.updateDescription nft newDescription = .ok nft') :
      Effect w ctx (.updateDescription id newDescription) none
        (w.setFree id (some (.transaction b, .bookNFT nft'))) ctx
  | burn {id : A} {b : Bool} {nft : BookNFT A}
      (hf : w.free id = some (.transaction b, .bookNFT nft)) :
      Effect w ctx (.burn id) none (w.setFree id none) ctx
  | createCurrency {coin : TypeTag} :
      Effect w ctx (.createCurrency coin) (some ⟨(objectNew ctx).1, .item (.treasuryCap coin 0)⟩)
        (w.setFree (objectNew ctx).1 (some (.transaction false, .treasuryCap coin 0)))
        (objectNew ctx).2
  | coinMint {coin : TypeTag} {cap : A} {value supply supply' : UInt64} {b : Bool}
      (hf : w.free cap = some (.transaction b, .treasuryCap coin supply))
      (hs : Balance.increaseSupply supply value = .ok supply') :
      Effect w ctx (.coinMint coin cap value) (some ⟨(objectNew ctx).1, .item (.coin coin value)⟩)
        ((w.setFree cap (some (.transaction b, .treasuryCap coin supply'))).setFree
          (objectNew ctx).1 (some (.transaction false, .coin coin value))) (objectNew ctx).2
  | coinBurn {coin : TypeTag} {cap burned : A} {value supply supply' : UInt64} {b b' : Bool}
      (hc : w.free burned = some (.transaction b', .coin coin value))
      (hf : w.free cap = some (.transaction b, .treasuryCap coin supply))
      (hs : Balance.decreaseSupply supply value = .ok supply') :
      Effect w ctx (.coinBurn coin cap burned) none
        ((w.setFree burned none).setFree cap (some (.transaction b, .treasuryCap coin supply')))
        ctx
  | coinSplit {coin : TypeTag} {self : A} {amount value rest : UInt64} {b : Bool}
      (hf : w.free self = some (.transaction b, .coin coin value))
      (hs : Balance.split value amount = .ok rest) :
      Effect w ctx (.coinSplit coin self amount)
        (some ⟨(objectNew ctx).1, .item (.coin coin amount)⟩)
        ((w.setFree self (some (.transaction b, .coin coin rest))).setFree (objectNew ctx).1
          (some (.transaction false, .coin coin amount))) (objectNew ctx).2
  | coinJoin {coin : TypeTag} {self joined : A} {value added sum : UInt64} {b b' : Bool}
      (hc : w.free joined = some (.transaction b', .coin coin added))
      (hf : w.free self = some (.transaction b, .coin coin value)) (hne : self ≠ joined)
      (hs : Balance.join value added = .ok sum) :
      Effect w ctx (.coinJoin coin self joined) none
        ((w.setFree joined none).setFree self (some (.transaction b, .coin coin sum))) ctx
  | otherNew {n : ℕ} {contents : List UInt8} :
      Effect w ctx (.otherNew n contents) (some ⟨(objectNew ctx).1, .item (.other n contents)⟩)
        (w.setFree (objectNew ctx).1 (some (.transaction false, .other n contents)))
        (objectNew ctx).2
  | otherSet {n : ℕ} {id : A} {contents old : List UInt8} {b : Bool}
      (hf : w.free id = some (.transaction b, .other n old)) :
      Effect w ctx (.otherSet n id contents) none
        (w.setFree id (some (.transaction b, .other n contents))) ctx
  | otherDelete {n : ℕ} {id : A} {contents : List UInt8} {b : Bool}
      (hf : w.free id = some (.transaction b, .other n contents)) :
      Effect w ctx (.otherDelete n id) none (w.setFree id none) ctx

/-! ## The inversion lemma -/

namespace World

variable {w w' : World A} {ctx ctx' : TxContext A} {m k sender : A} {t : TypeTag} {i : Item A}

omit [AddressSpace A] in
theorem delist_eq_ok : w.delist t sender m k = .ok (i, w') ↔
    ∃ L, w.slots (m, k) = some L ∧ sender = L.seller ∧ L.item.type = t ∧ i = L.item ∧
      w' = w.setSlot m k none := by
  unfold delist
  split
  · next hw => simp [hw]
  · next L hw =>
    split
    · next hs =>
      simp only [hw, Option.some.injEq, reduceCtorEq, false_iff]
      rintro ⟨L', rfl, hs', -⟩
      exact hs hs'
    · next hs =>
      split
      · next ht =>
        simp only [hw, Option.some.injEq, reduceCtorEq, false_iff]
        rintro ⟨L', rfl, -, ht', -⟩
        exact ht ht'
      · next ht =>
        simp only [hw, Option.some.injEq, exists_eq_left', not_not.1 hs, not_not.1 ht, true_and,
          Except.ok.injEq, Prod.mk.injEq]
        exact ⟨fun h => ⟨h.1.symm, h.2.symm⟩, fun h => ⟨h.1.symm, h.2.symm⟩⟩

omit [AddressSpace A] in
theorem credit_eq_ok {s : A} {paid : Coin A} (h : w.credit m s paid = .ok w') :
    ∃ c, Credited paid (w.profits (m, s)) c ∧ w' = w.setProfits m s (some c) := by
  unfold credit at h
  split at h
  · next hp =>
    cases h
    exact ⟨paid, by rw [hp]; rfl, rfl⟩
  · next c hp =>
    obtain ⟨b, hb, h⟩ := bind_eq_ok.1 h
    cases h
    exact ⟨⟨c.id, b⟩, by rw [hp]; exact ⟨rfl, Balance.join_eq_ok hb⟩, rfl⟩

omit [AddressSpace A] in
theorem buy_eq_ok {paid : Coin A} (h : w.buy t m k paid = .ok (i, w')) :
    ∃ L c, w.slots (m, k) = some L ∧ L.ask = paid.balance ∧ L.item.type = t ∧ i = L.item ∧
      Credited paid (w.profits (m, L.seller)) c ∧
      w' = (w.setSlot m k none).setProfits m L.seller (some c) := by
  unfold buy at h
  split at h
  · cases h
  · next L hw =>
    split at h
    · cases h
    · next ha =>
      obtain ⟨w1, h1, h2⟩ := bind_eq_ok.1 h
      obtain ⟨c, hc, rfl⟩ := credit_eq_ok h1
      split at h2
      · cases h2
      · next ht =>
        cases h2
        exact ⟨L, c, hw, not_not.1 ha, not_not.1 ht, rfl, hc, rfl⟩

omit [AddressSpace A] in
theorem takeProfits_eq_ok {c : Coin A} : w.takeProfits sender m = .ok (c, w') ↔
    w.profits (m, sender) = some c ∧ w' = w.setProfits m sender none := by
  unfold takeProfits
  split
  · next hp => simp [hp]
  · next c' hp => simp [hp, eq_comm]

omit [AddressSpace A] in
theorem setFree_setFree (w : World A) (id : A) (v v' : Option (Holder A × Item A)) :
    (w.setFree id v).setFree id v' = w.setFree id v' := by
  simp [setFree]

omit [AddressSpace A] in
theorem free_of_setFree_none {id id' : A} {v : Holder A × Item A}
    (hf : (w.setFree id none).free id' = some v) : id' ≠ id ∧ w.free id' = some v := by
  by_cases hid : id' = id
  · subst hid
    simp [setFree] at hf
  · exact ⟨hid, by simpa [setFree, hid] using hf⟩

omit [AddressSpace A] in
theorem writeRef_eq {id : A} {h : Holder A} {i i' : Item A} (hf : w.free id = some (h, i)) :
    w.writeRef id i' = w.setFree id (some (h, i')) := by
  rw [writeRef, hf]

end World

/-- **Every successful call has an effect of the list.** -/
theorem exec_effect {w w' : World A} {ctx ctx' : TxContext A} {call : Call A} {out : Option (Obj A)}
    (h : w.exec ctx call = .ok (w', ctx', out)) : Effect w ctx call out w' ctx' := by
  cases call with
  | create coin =>
    cases h
    exact .create rfl
  | list t coin m k ask =>
    obtain ⟨_, -, h⟩ := bind_eq_ok.1 h
    obtain ⟨_, hm, h⟩ := bind_eq_ok.1 h
    obtain ⟨⟨i, w1⟩, h1, h⟩ := bind_eq_ok.1 h
    obtain ⟨ht, rfl, b, hf⟩ := World.byValueArg_eq_ok.1 h1
    cases h
    exact .list rfl (World.borrowMarketplace_eq_ok.1 hm) hf ht
  | delist t coin m k | delistAndTake t coin m k =>
    obtain ⟨_, -, h⟩ := bind_eq_ok.1 h
    obtain ⟨_, hm, h⟩ := bind_eq_ok.1 h
    obtain ⟨⟨i, w1⟩, h1, h⟩ := bind_eq_ok.1 h
    obtain ⟨L, hw, hs, ht, rfl, rfl⟩ := World.delist_eq_ok.1 h1
    cases h
    exact .delist rfl (World.borrowMarketplace_eq_ok.1 hm) hw hs ht
  | buy t coin m k paid | buyAndTake t coin m k paid =>
    obtain ⟨_, -, h⟩ := bind_eq_ok.1 h
    obtain ⟨_, hm, h⟩ := bind_eq_ok.1 h
    obtain ⟨⟨⟨_, v⟩, w1⟩, h1, h⟩ := bind_eq_ok.1 h
    obtain ⟨⟨i, w2⟩, h2, h⟩ := bind_eq_ok.1 h
    obtain ⟨rfl, rfl, b, hf⟩ := World.coinArg_eq_ok.1 h1
    obtain ⟨L, c, hw, rfl, ht, rfl, hc, rfl⟩ := World.buy_eq_ok h2
    cases h
    exact .buy rfl (World.borrowMarketplace_eq_ok.1 hm) hf hw ht hc
  | takeProfits coin m | takeProfitsAndKeep coin m =>
    obtain ⟨_, hm, h⟩ := bind_eq_ok.1 h
    obtain ⟨⟨c, w1⟩, h1, h⟩ := bind_eq_ok.1 h
    obtain ⟨hp, rfl⟩ := World.takeProfits_eq_ok.1 h1
    cases h
    exact .takeProfits rfl (World.borrowMarketplace_eq_ok.1 hm) hp
  | mintToSender title description content url =>
    obtain ⟨nft, hn, h⟩ := bind_eq_ok.1 h
    cases h
    exact .mintToSender hn
  | transfer nft recipient =>
    obtain ⟨⟨i, w1⟩, h1, h⟩ := bind_eq_ok.1 h
    obtain ⟨-, rfl, b, hf⟩ := World.byValueArg_eq_ok.1 h1
    cases h
    rw [World.give, World.setFree_setFree]
    exact .move (Or.inl rfl) hf
  | updateDescription id newDescription =>
    obtain ⟨nft, h1, h⟩ := bind_eq_ok.1 h
    obtain ⟨nft', h2, h⟩ := bind_eq_ok.1 h
    obtain ⟨b, hf⟩ := World.nftMutArg_eq_ok.1 h1
    cases h
    rw [World.writeRef_eq hf]
    exact .updateDescription hf h2
  | burn nft =>
    obtain ⟨⟨i, w1⟩, h1, h⟩ := bind_eq_ok.1 h
    obtain ⟨ht, rfl, b, hf⟩ := World.byValueArg_eq_ok.1 h1
    cases h
    cases i with
    | bookNFT nft => exact .burn hf
    | _ => cases ht
  | publicTransfer id recipient =>
    obtain ⟨⟨i, w1⟩, h1, h⟩ := bind_eq_ok.1 h
    obtain ⟨_, -, h⟩ := bind_eq_ok.1 h
    obtain ⟨rfl, b, hf⟩ := World.takeArg_eq_ok.1 h1
    cases h
    rw [World.give, World.setFree_setFree]
    exact .move (Or.inr rfl) hf
  | createCurrency coin =>
    cases h
    exact .createCurrency
  | coinMint coin cap value =>
    obtain ⟨supply, h1, h⟩ := bind_eq_ok.1 h
    obtain ⟨⟨supply', minted, ctx1⟩, h2, h⟩ := bind_eq_ok.1 h
    obtain ⟨b, hf⟩ := World.capMutArg_eq_ok.1 h1
    obtain ⟨_, hs, h2⟩ := bind_eq_ok.1 h2
    cases h2
    cases h
    rw [World.writeRef_eq hf]
    exact .coinMint hf hs
  | coinBurn coin cap burned =>
    obtain ⟨⟨⟨_, v⟩, w1⟩, h1, h⟩ := bind_eq_ok.1 h
    obtain ⟨supply, h2, h⟩ := bind_eq_ok.1 h
    obtain ⟨supply', h3, h⟩ := bind_eq_ok.1 h
    obtain ⟨rfl, rfl, b', hc⟩ := World.coinArg_eq_ok.1 h1
    obtain ⟨b, hf⟩ := World.capMutArg_eq_ok.1 h2
    cases h
    rw [World.writeRef_eq hf]
    exact .coinBurn hc (World.free_of_setFree_none hf).2 h3
  | coinSplit coin self amount =>
    obtain ⟨⟨_, value⟩, h1, h⟩ := bind_eq_ok.1 h
    obtain ⟨⟨_, new, ctx1⟩, h2, h⟩ := bind_eq_ok.1 h
    obtain ⟨rfl, b, hf⟩ := World.coinMutArg_eq_ok.1 h1
    obtain ⟨rest, hs, h2⟩ := bind_eq_ok.1 h2
    cases h2
    cases h
    rw [World.writeRef_eq hf]
    exact .coinSplit hf hs
  | coinJoin coin self joined =>
    obtain ⟨⟨⟨_, added⟩, w1⟩, h1, h⟩ := bind_eq_ok.1 h
    obtain ⟨⟨_, value⟩, h2, h⟩ := bind_eq_ok.1 h
    obtain ⟨_, h3, h⟩ := bind_eq_ok.1 h
    obtain ⟨rfl, rfl, b', hc⟩ := World.coinArg_eq_ok.1 h1
    obtain ⟨rfl, b, hf⟩ := World.coinMutArg_eq_ok.1 h2
    obtain ⟨sum, hs, h3⟩ := bind_eq_ok.1 h3
    cases h3
    cases h
    rw [World.writeRef_eq hf]
    obtain ⟨hne, hf'⟩ := World.free_of_setFree_none hf
    exact .coinJoin hc hf' hne hs
  | otherNew n contents =>
    cases h
    exact .otherNew
  | otherSet n id contents =>
    obtain ⟨i, h1, h⟩ := bind_eq_ok.1 h
    obtain ⟨ht, b, hf⟩ := World.borrowMutArg_eq_ok.1 h1
    cases h
    rw [World.writeRef_eq hf]
    cases i with
    | other n' old =>
      cases ht
      exact .otherSet hf
    | _ => cases ht
  | otherDelete n id =>
    obtain ⟨⟨i, w1⟩, h1, h⟩ := bind_eq_ok.1 h
    obtain ⟨ht, rfl, b, hf⟩ := World.byValueArg_eq_ok.1 h1
    cases h
    cases i with
    | other n' old =>
      cases ht
      exact .otherDelete hf
    | _ => cases ht

/-! ## What the effects have in common -/

namespace Effect

variable {w w' : World A} {ctx ctx' : TxContext A} {call : Call A} {out : Option (Obj A)}

/-! The effect of a call whose operation is known. -/

theorem list_inv {t coin : TypeTag} {m k : A} {ask : UInt64} (h : Effect w ctx call out w' ctx')
    (hop : call.op = some (.list t coin m k ask)) :
    ∃ b i, w.markets m = some coin ∧ w.free k = some (.transaction b, i) ∧ i.type = t ∧
      out = none ∧
      w' = (w.setFree k none).setSlot m k (some ⟨(objectNew ctx).1, ask, ctx.sender, i⟩) := by
  cases h with
  | @list _ _ _ _ _ _ b i hop' hm hf ht =>
    rw [hop] at hop'
    cases hop'
    exact ⟨b, i, hm, hf, ht, rfl, rfl⟩
  | create hop' | delist hop' | buy hop' | takeProfits hop' =>
    rw [hop] at hop'
    cases hop'
  | move hcall => rcases hcall with rfl | rfl <;> cases hop
  | _ => cases hop

theorem delist_inv {t coin : TypeTag} {m k : A} (h : Effect w ctx call out w' ctx')
    (hop : call.op = some (.delist t coin m k)) :
    ∃ L, w.markets m = some coin ∧ w.slots (m, k) = some L ∧ ctx.sender = L.seller ∧
      L.item.type = t ∧ out = some ⟨k, .item L.item⟩ ∧
      w' = (w.setSlot m k none).setFree k (some (call.receiver ctx.sender, L.item)) := by
  cases h with
  | @delist _ _ _ _ _ L hop' hm hw hs ht =>
    rw [hop] at hop'
    cases hop'
    exact ⟨L, hm, hw, hs, ht, rfl, rfl⟩
  | create hop' | list hop' | buy hop' | takeProfits hop' =>
    rw [hop] at hop'
    cases hop'
  | move hcall => rcases hcall with rfl | rfl <;> cases hop
  | _ => cases hop

theorem buy_inv {t coin : TypeTag} {m k paid : A} (h : Effect w ctx call out w' ctx')
    (hop : call.op = some (.buy t coin m k paid)) :
    ∃ L b c, w.markets m = some coin ∧ w.free paid = some (.transaction b, .coin coin L.ask) ∧
      w.slots (m, k) = some L ∧ L.item.type = t ∧
      Credited ⟨paid, L.ask⟩ (w.profits (m, L.seller)) c ∧ out = some ⟨k, .item L.item⟩ ∧
      w' = ((((w.setFree paid none).setSlot m k none).setProfits m L.seller (some c)).setFree k
        (some (call.receiver ctx.sender, L.item))) := by
  cases h with
  | @buy _ _ _ _ _ _ L b c hop' hm hf hw ht hc =>
    rw [hop] at hop'
    cases hop'
    exact ⟨L, b, c, hm, hf, hw, ht, hc, rfl, rfl⟩
  | create hop' | list hop' | delist hop' | takeProfits hop' =>
    rw [hop] at hop'
    cases hop'
  | move hcall => rcases hcall with rfl | rfl <;> cases hop
  | _ => cases hop

theorem takeProfits_inv {coin : TypeTag} {m : A} (h : Effect w ctx call out w' ctx')
    (hop : call.op = some (.takeProfits coin m)) :
    ∃ c, w.markets m = some coin ∧ w.profits (m, ctx.sender) = some c ∧
      out = some (c.toObj coin) ∧
      w' = (w.setProfits m ctx.sender none).setFree c.id
        (some (call.receiver ctx.sender, .coin coin c.balance)) := by
  cases h with
  | @takeProfits _ _ _ c hop' hm hp =>
    rw [hop] at hop'
    cases hop'
    exact ⟨c, hm, hp, rfl, rfl⟩
  | create hop' | list hop' | delist hop' | buy hop' =>
    rw [hop] at hop'
    cases hop'
  | move hcall => rcases hcall with rfl | rfl <;> cases hop
  | _ => cases hop

/-- A call that is no marketplace operation leaves every marketplace alone. -/
theorem op_none (h : Effect w ctx call out w' ctx') (hop : call.op = none) :
    w'.markets = w.markets ∧ w'.slots = w.slots ∧ w'.profits = w.profits := by
  cases h with
  | create h | list h | delist h | buy h | takeProfits h =>
    rw [hop] at h
    cases h
  | _ => exact ⟨rfl, rfl, rfl⟩

/-- A call that changes a listing names it. -/
theorem slots_of_ne (h : Effect w ctx call out w' ctx') {m k : A}
    (hne : w'.slots (m, k) ≠ w.slots (m, k)) :
    (∃ t coin ask, call.op = some (.list t coin m k ask)) ∨
    (∃ t coin, call.op = some (.delist t coin m k)) ∨
    ∃ t coin paid, call.op = some (.buy t coin m k paid) := by
  cases h with
  | @list _ t coin m' k' ask b i hop hm hf ht =>
    by_cases hp : (m, k) = (m', k')
    · cases hp
      exact Or.inl ⟨t, coin, ask, hop⟩
    · exact absurd (Function.update_of_ne hp _ _) hne
  | @delist _ t coin m' k' L hop hm hw hs ht =>
    by_cases hp : (m, k) = (m', k')
    · cases hp
      exact Or.inr (Or.inl ⟨t, coin, hop⟩)
    · exact absurd (Function.update_of_ne hp _ _) hne
  | @buy _ t coin m' k' paid L b c hop hm hf hw ht hc =>
    by_cases hp : (m, k) = (m', k')
    · cases hp
      exact Or.inr (Or.inr ⟨t, coin, paid, hop⟩)
    · exact absurd (Function.update_of_ne hp _ _) hne
  | _ => exact absurd rfl hne

/-- A call that touches the coin of `s` in `m` buys a listing of `s` there, or is
the withdrawal of `s`. -/
theorem profits_of_ne (h : Effect w ctx call out w' ctx') {m s : A}
    (hne : w'.profits (m, s) ≠ w.profits (m, s)) :
    (∃ t coin k paid L, call.op = some (.buy t coin m k paid) ∧ w.slots (m, k) = some L ∧
      L.seller = s) ∨
    ∃ coin, call.op = some (.takeProfits coin m) ∧ ctx.sender = s := by
  cases h with
  | @buy _ t coin m' k paid L b c hop hm hf hw ht hc =>
    by_cases hp : (m, s) = (m', L.seller)
    · cases hp
      exact Or.inl ⟨t, coin, k, paid, L, hop, hw, rfl⟩
    · exact absurd (Function.update_of_ne hp _ _) hne
  | @takeProfits _ coin m' c hop hm hp =>
    by_cases hp : (m, s) = (m', ctx.sender)
    · cases hp
      exact Or.inr ⟨coin, hop, rfl⟩
    · exact absurd (Function.update_of_ne hp _ _) hne
  | _ => exact absurd rfl hne

/-- A call that changes a marketplace opens it. -/
theorem markets_of_ne (h : Effect w ctx call out w' ctx') {o : Objects A} (hl : Layout ctx w o)
    {m : A} (hne : w'.markets m ≠ w.markets m) :
    ∃ coin, call.op = some (.create coin) ∧ w.markets m = none ∧ w'.markets m = some coin := by
  cases h with
  | @create _ coin hop =>
    by_cases hm : m = (objectNew ctx).1
    · subst hm
      exact ⟨coin, hop, hl.market_objectNew, Function.update_self _ _ _⟩
    · exact absurd (Function.update_of_ne hm _ _) hne
  | _ => exact absurd rfl hne

/-- The sender and the digest stay, and identifiers stay used. -/
theorem ctx_eq (h : Effect w ctx call out w' ctx') : ctx' = ctx ∨ ctx' = (objectNew ctx).2 := by
  cases h <;> simp

theorem sender (h : Effect w ctx call out w' ctx') : ctx'.sender = ctx.sender := by
  rcases h.ctx_eq with rfl | rfl <;> rfl

theorem used (h : Effect w ctx call out w' ctx') {id : A} (hu : Used ctx id) : Used ctx' id := by
  rcases h.ctx_eq with rfl | rfl
  · exact hu
  · exact hu.objectNew

end Effect

namespace History

variable {h : List (Entry A)} {c c' : Chain A}

/-- A successful call of a reachable chain has its effect on the world of the
chain. -/
theorem effect (hc : History h c) {call : Call A} {out : Option (Obj A)}
    (he : BookMarket.exec c call = .ok (c', out)) :
    Effect (worldOf c.objects) c.ctx call out (worldOf c'.objects) c'.ctx :=
  exec_effect (hc.exec_ok he)

/-! Which events touch a listing, a coin of proceeds, a marketplace. -/

theorem listing_of_ne (hc : History h c) {e : Event A} {m k : A} (hs : Step c e c')
    (hne : listingAt c'.objects m k ≠ listingAt c.objects m k) :
    ∃ entry, e = .call entry ∧ ((∃ t coin ask, entry.call.op = some (.list t coin m k ask)) ∨
      (∃ t coin, entry.call.op = some (.delist t coin m k)) ∨
      ∃ t coin paid, entry.call.op = some (.buy t coin m k paid)) := by
  have hw := hs.worldStep hc.layout
  cases hs with
  | start _ _ => exact absurd (congrFun hw.1.slots (m, k)) hne
  | call hr he => exact ⟨_, rfl, (hc.effect he).slots_of_ne hne⟩
  | finish _ _ => exact absurd (congrFun hw.1.slots (m, k)) hne

theorem profits_of_ne (hc : History h c) {e : Event A} {m s : A} (hs : Step c e c')
    (hne : profitsAt c'.objects m s ≠ profitsAt c.objects m s) :
    ∃ entry, e = .call entry ∧ ((∃ t coin k paid L, entry.call.op = some (.buy t coin m k paid) ∧
      listingAt c.objects m k = some L ∧ L.seller = s) ∨
      ∃ coin, entry.call.op = some (.takeProfits coin m) ∧ entry.sender = s) := by
  have hw := hs.worldStep hc.layout
  cases hs with
  | start _ _ => exact absurd (congrFun hw.1.profits (m, s)) hne
  | call hr he => exact ⟨_, rfl, (hc.effect he).profits_of_ne hne⟩
  | finish _ _ => exact absurd (congrFun hw.1.profits (m, s)) hne

theorem market_of_ne (hc : History h c) {e : Event A} {m : A} (hs : Step c e c')
    (hne : marketAt c'.objects m ≠ marketAt c.objects m) :
    ∃ entry coin, e = .call entry ∧ entry.call.op = some (.create coin) ∧
      marketAt c.objects m = none ∧ marketAt c'.objects m = some coin := by
  have hw := hs.worldStep hc.layout
  cases hs with
  | start _ _ => exact absurd (congrFun hw.1.markets m) hne
  | call hr he =>
    obtain ⟨coin, h1, h2, h3⟩ := (hc.effect he).markets_of_ne hc.layout hne
    exact ⟨_, coin, rfl, h1, h2, h3⟩
  | finish _ _ => exact absurd (congrFun hw.1.markets m) hne

/-- The invariant rule for histories: what holds at the start, survives every
call, and does not care where a user's objects are held between and during
transactions, holds always. -/
theorem rule {I : List (Entry A) → World A → TxContext A → Prop}
    (h0 : ∀ ctx, I [] World.empty ctx)
    (hmove : ∀ {h w w' ctx ctx'}, I h w ctx → SameGoods w w' → (∀ id, Used ctx id → Used ctx' id) →
      I h w' ctx')
    (hcall : ∀ {h call out} {c c' : Chain A}, History h c →
      History (h ++ [⟨c.ctx.sender, call, out⟩]) c' → I h (worldOf c.objects) c.ctx →
      Effect (worldOf c.objects) c.ctx call out (worldOf c'.objects) c'.ctx →
      I (h ++ [⟨c.ctx.sender, call, out⟩]) (worldOf c'.objects) c'.ctx)
    (hc : History h c) : I h (worldOf c.objects) c.ctx := by
  obtain ⟨es, hrun, rfl⟩ := hc
  refine hrun.historyInvariant
    (I := fun es c => I (calls es) (worldOf c.objects) c.ctx) ?_ ?_
  · have := layout_empty (A := A) (BookMarket.genesis (A := A)).ctx
    rw [show (BookMarket.genesis : Chain A).objects = ∅ from rfl, this.worldOf_eq]
    exact h0 _
  · intro es c e c' hrun hi hs
    have hl := Run.layout hrun
    have hw := hs.worldStep hl
    cases hs with
    | start _ h =>
      obtain ⟨hg, hctx⟩ := hw
      simp only [calls, List.filterMap_append, List.filterMap_cons, List.filterMap_nil,
        List.append_nil]
      exact hmove hi hg fun id hu => by rw [hctx]; exact hu.nextTx _
    | call hr he =>
      simp only [calls, List.filterMap_append, List.filterMap_cons, List.filterMap_nil]
      have hc : History (calls es) c := ⟨es, hrun, rfl⟩
      exact hcall hc (hc.call hr he) hi (exec_effect hw.2)
    | finish _ h =>
      obtain ⟨hg, hctx⟩ := hw
      simp only [calls, List.filterMap_append, List.filterMap_cons, List.filterMap_nil,
        List.append_nil]
      exact hmove hi hg fun id hu => by rw [hctx]; exact hu

end History

end BookMarket
