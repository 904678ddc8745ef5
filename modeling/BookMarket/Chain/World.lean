import BookMarket.Chain.Layout

/-!
# The calls, one level up

What every call does to a world: the same checks in the same order as in
`exec`, without a `Field`, an owner or a hash.  The machine of this module is
what the store-level one is proved to be in step with (`exec_sim`), and what
the properties of the marketplace are then read off.
-/

namespace BookMarket

variable {A : Type} [DecidableEq A]

namespace World

/-! ## Arguments -/

def takeArg (w : World A) (id : A) : Except Abort (Item A × World A) :=
  match w.free id with
  | some (.transaction _, i) => .ok (i, w.setFree id none)
  | _ => .error .invalidValueUsage

def byValueArg (w : World A) (id : A) (t : TypeTag) : Except Abort (Item A × World A) := do
  let (i, w) ← w.takeArg id
  if i.type = t then return (i, w) else throw .typeMismatch

def borrowMutArg (w : World A) (id : A) (t : TypeTag) : Except Abort (Item A) := do
  let (i, _) ← w.byValueArg id t
  return i

def borrowMarketplace (w : World A) (id : A) (coin : TypeTag) : Except Abort Unit :=
  if w.markets id = some coin then .ok () else .error .typeMismatch

def coinArg (w : World A) (id : A) (coin : TypeTag) : Except Abort (Coin A × World A) := do
  let (i, w) ← w.byValueArg id (.coin coin)
  match i with
  | .coin _ balance => return (⟨id, balance⟩, w)
  | _ => throw .typeMismatch

def coinMutArg (w : World A) (id : A) (coin : TypeTag) : Except Abort (Coin A) := do
  match ← w.borrowMutArg id (.coin coin) with
  | .coin _ balance => return ⟨id, balance⟩
  | _ => throw .typeMismatch

def capMutArg (w : World A) (id : A) (coin : TypeTag) : Except Abort UInt64 := do
  match ← w.borrowMutArg id (.treasuryCap coin) with
  | .treasuryCap _ totalSupply => return totalSupply
  | _ => throw .typeMismatch

def nftMutArg (w : World A) (id : A) : Except Abort (BookNFT A) := do
  match ← w.borrowMutArg id .bookNFT with
  | .bookNFT nft => return nft
  | _ => throw .typeMismatch

variable {w w' : World A} {id : A} {coin t : TypeTag}

theorem takeArg_eq_ok {i : Item A} : w.takeArg id = .ok (i, w') ↔
    w' = w.setFree id none ∧ ∃ b, w.free id = some (.transaction b, i) := by
  unfold takeArg
  split
  · next b i' hf =>
    rw [hf]
    simp [eq_comm, and_comm]
  · next hf =>
    constructor
    · intro h
      cases h
    · rintro ⟨-, b, hb⟩
      exact absurd hb (hf b i)

theorem byValueArg_eq_ok {i : Item A} : w.byValueArg id t = .ok (i, w') ↔
    i.type = t ∧ w' = w.setFree id none ∧ ∃ b, w.free id = some (.transaction b, i) := by
  simp only [byValueArg, bind_eq_ok, Prod.exists, takeArg_eq_ok]
  constructor
  · rintro ⟨i', w'', ⟨rfl, b, hb⟩, h⟩
    split at h
    · next ht =>
      cases h
      exact ⟨ht, rfl, b, hb⟩
    · cases h
  · rintro ⟨rfl, rfl, b, hb⟩
    exact ⟨i, _, ⟨rfl, b, hb⟩, by simp⟩

theorem borrowMutArg_eq_ok {i : Item A} : w.borrowMutArg id t = .ok i ↔
    i.type = t ∧ ∃ b, w.free id = some (.transaction b, i) := by
  simp [borrowMutArg, bind_eq_ok, byValueArg_eq_ok]

omit [DecidableEq A] in
theorem borrowMarketplace_eq_ok {u : Unit} :
    w.borrowMarketplace id coin = .ok u ↔ w.markets id = some coin := by
  unfold borrowMarketplace
  split <;> simp_all

theorem coinArg_eq_ok {c : Coin A} : w.coinArg id coin = .ok (c, w') ↔
    c.id = id ∧ w' = w.setFree id none ∧
      ∃ b, w.free id = some (.transaction b, .coin coin c.balance) := by
  simp only [coinArg, bind_eq_ok, Prod.exists, byValueArg_eq_ok]
  constructor
  · rintro ⟨i, w'', ⟨ht, rfl, b, hb⟩, h⟩
    cases i with
    | coin t' balance =>
      cases ht
      cases h
      exact ⟨rfl, rfl, b, hb⟩
    | _ => cases h
  · rintro ⟨rfl, rfl, b, hb⟩
    exact ⟨_, _, ⟨rfl, rfl, b, hb⟩, rfl⟩

theorem coinMutArg_eq_ok {c : Coin A} : w.coinMutArg id coin = .ok c ↔
    c.id = id ∧ ∃ b, w.free id = some (.transaction b, .coin coin c.balance) := by
  simp only [coinMutArg, bind_eq_ok, borrowMutArg_eq_ok]
  constructor
  · rintro ⟨i, ⟨ht, b, hb⟩, h⟩
    cases i with
    | coin t' balance =>
      cases ht
      cases h
      exact ⟨rfl, b, hb⟩
    | _ => cases h
  · rintro ⟨rfl, b, hb⟩
    exact ⟨_, ⟨rfl, b, hb⟩, rfl⟩

theorem capMutArg_eq_ok {v : UInt64} : w.capMutArg id coin = .ok v ↔
    ∃ b, w.free id = some (.transaction b, .treasuryCap coin v) := by
  simp only [capMutArg, bind_eq_ok, borrowMutArg_eq_ok]
  constructor
  · rintro ⟨i, ⟨ht, b, hb⟩, h⟩
    cases i with
    | treasuryCap t' v' =>
      cases ht
      cases h
      exact ⟨b, hb⟩
    | _ => cases h
  · rintro ⟨b, hb⟩
    exact ⟨_, ⟨rfl, b, hb⟩, rfl⟩

theorem nftMutArg_eq_ok {nft : BookNFT A} : w.nftMutArg id = .ok nft ↔
    ∃ b, w.free id = some (.transaction b, .bookNFT nft) := by
  simp only [nftMutArg, bind_eq_ok, borrowMutArg_eq_ok]
  constructor
  · rintro ⟨i, ⟨ht, b, hb⟩, h⟩
    cases i with
    | bookNFT nft' =>
      cases h
      exact ⟨b, hb⟩
    | _ => cases h
  · rintro ⟨b, hb⟩
    exact ⟨_, ⟨rfl, b, hb⟩, rfl⟩

/-- Writing through a `&mut`: the holder stays. -/
def writeRef (w : World A) (id : A) (i : Item A) : World A :=
  match w.free id with
  | some (h, _) => w.setFree id (some (h, i))
  | none => w

/-- Hand an item to somebody. -/
def give (w : World A) (id : A) (h : Holder A) (i : Item A) : World A :=
  w.setFree id (some (h, i))

/-! ## The marketplace -/

def list (w : World A) (m k uid sender : A) (i : Item A) (ask : UInt64) : World A :=
  w.setSlot m k (some ⟨uid, ask, sender, i⟩)

def delist (w : World A) (t : TypeTag) (sender m k : A) : Except Abort (Item A × World A) :=
  match w.slots (m, k) with
  | none => .error .eFieldDoesNotExist
  | some L =>
    if sender ≠ L.seller then .error .eNotOwner
    else if L.item.type ≠ t then .error .eFieldTypeMismatch
    else .ok (L.item, w.setSlot m k none)

/-- Merge `paid` with the coin of the seller, or make it the seller's coin. -/
def credit (w : World A) (m s : A) (paid : Coin A) : Except Abort (World A) :=
  match w.profits (m, s) with
  | none => .ok (w.setProfits m s (some paid))
  | some c => do
    let b ← Balance.join c.balance paid.balance
    return w.setProfits m s (some ⟨c.id, b⟩)

def buy (w : World A) (t : TypeTag) (m k : A) (paid : Coin A) :
    Except Abort (Item A × World A) :=
  match w.slots (m, k) with
  | none => .error .eFieldDoesNotExist
  | some L =>
    if L.ask ≠ paid.balance then .error .eAmountIncorrect
    else do
      let w ← (w.setSlot m k none).credit m L.seller paid
      if L.item.type ≠ t then throw .eFieldTypeMismatch
      return (L.item, w)

def takeProfits (w : World A) (sender m : A) : Except Abort (Coin A × World A) :=
  match w.profits (m, sender) with
  | none => .error .eFieldDoesNotExist
  | some c => .ok (c, w.setProfits m sender none)

variable [AddressSpace A]

/-- The calls on a world; `exec` one level up. -/
def exec (w : World A) (ctx : TxContext A) :
    Call A → Except Abort (World A × TxContext A × Option (Obj A))
  | .create coin =>
    .ok (w.setMarket (objectNew ctx).1 coin, (objectNew ctx).2, none)
  | .list t coin m k ask => do
    checkKeyStore t
    w.borrowMarketplace m coin
    let (i, w) ← w.byValueArg k t
    return (w.list m k (objectNew ctx).1 ctx.sender i ask, (objectNew ctx).2, none)
  | .delist t coin m k => do
    checkKeyStore t
    w.borrowMarketplace m coin
    let (i, w) ← w.delist t ctx.sender m k
    return (w.give k (.transaction false) i, ctx, some ⟨k, .item i⟩)
  | .delistAndTake t coin m k => do
    checkKeyStore t
    w.borrowMarketplace m coin
    let (i, w) ← w.delist t ctx.sender m k
    return (w.give k (.address ctx.sender) i, ctx, some ⟨k, .item i⟩)
  | .buy t coin m k paid => do
    checkKeyStore t
    w.borrowMarketplace m coin
    let (paid, w) ← w.coinArg paid coin
    let (i, w) ← w.buy t m k paid
    return (w.give k (.transaction false) i, ctx, some ⟨k, .item i⟩)
  | .buyAndTake t coin m k paid => do
    checkKeyStore t
    w.borrowMarketplace m coin
    let (paid, w) ← w.coinArg paid coin
    let (i, w) ← w.buy t m k paid
    return (w.give k (.address ctx.sender) i, ctx, some ⟨k, .item i⟩)
  | .takeProfits coin m => do
    w.borrowMarketplace m coin
    let (c, w) ← w.takeProfits ctx.sender m
    return (w.give c.id (.transaction false) (.coin coin c.balance), ctx, some (c.toObj coin))
  | .takeProfitsAndKeep coin m => do
    w.borrowMarketplace m coin
    let (c, w) ← w.takeProfits ctx.sender m
    return (w.give c.id (.address ctx.sender) (.coin coin c.balance), ctx, some (c.toObj coin))
  | .mintToSender title description content url => do
    let nft ← BookNft.newNft ctx.sender title description content url
    let id := (objectNew ctx).1
    return (w.give id (.address ctx.sender) (.bookNFT nft), (objectNew ctx).2,
      some ⟨id, .item (.bookNFT nft)⟩)
  | .transfer nft recipient => do
    let (i, w) ← w.byValueArg nft .bookNFT
    return (w.give nft (.address recipient) i, ctx, none)
  | .updateDescription id newDescription => do
    let nft ← w.nftMutArg id
    let nft ← BookNft.updateDescription nft newDescription
    return (w.writeRef id (.bookNFT nft), ctx, none)
  | .burn nft => do
    let (_, w) ← w.byValueArg nft .bookNFT
    return (w, ctx, none)
  | .publicTransfer id recipient => do
    let (i, w) ← w.takeArg id
    checkKeyStore i.type
    return (w.give id (.address recipient) i, ctx, none)
  | .createCurrency coin =>
    let id := (objectNew ctx).1
    .ok (w.give id (.transaction false) (.treasuryCap coin 0), (objectNew ctx).2,
      some ⟨id, .item (.treasuryCap coin 0)⟩)
  | .coinMint coin cap value => do
    let totalSupply ← w.capMutArg cap coin
    let (totalSupply, minted, ctx) ← Coin.mint totalSupply value ctx
    let w := w.writeRef cap (.treasuryCap coin totalSupply)
    return (w.give minted.id (.transaction false) (.coin coin minted.balance), ctx,
      some (minted.toObj coin))
  | .coinBurn coin cap burned => do
    let (burned, w) ← w.coinArg burned coin
    let totalSupply ← w.capMutArg cap coin
    let totalSupply ← Coin.burn totalSupply burned
    return (w.writeRef cap (.treasuryCap coin totalSupply), ctx, none)
  | .coinSplit coin self splitAmount => do
    let self ← w.coinMutArg self coin
    let (self, new, ctx) ← Coin.split self splitAmount ctx
    let w := w.writeRef self.id (.coin coin self.balance)
    return (w.give new.id (.transaction false) (.coin coin new.balance), ctx,
      some (new.toObj coin))
  | .coinJoin coin self joined => do
    let (joined, w) ← w.coinArg joined coin
    let self ← w.coinMutArg self coin
    let self ← Coin.join self joined
    return (w.writeRef self.id (.coin coin self.balance), ctx, none)
  | .otherNew n contents =>
    let id := (objectNew ctx).1
    .ok (w.give id (.transaction false) (.other n contents), (objectNew ctx).2,
      some ⟨id, .item (.other n contents)⟩)
  | .otherSet n id contents => do
    let _ ← w.borrowMutArg id (.other n)
    return (w.writeRef id (.other n contents), ctx, none)
  | .otherDelete n id => do
    let (_, w) ← w.byValueArg id (.other n)
    return (w, ctx, none)

end World

end BookMarket
