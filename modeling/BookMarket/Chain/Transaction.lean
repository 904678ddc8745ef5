import BookMarket.Lib.Runs
import BookMarket.Contract.BookNft

/-!
# Calls, transactions and histories

What users can do to the object store.  A transaction has a sender, a list of
input objects the sender owns, and a list of calls; the calls pass objects on
to one another through the values the transaction holds.  It either commits as
a whole or changes nothing.

* `Call` — every call of the two modules and of the framework that moves the
  objects they work on: the marketplace, the NFTs, coins and their supply,
  transfers, and the objects of other packages, which their own modules create,
  change and delete at will.
* `exec` — one call inside a running transaction.  Arguments are named by the
  identifier of the object; `byValueArg` is the check that the transaction
  holds it.
* `execTx`, `run` — a whole transaction, and a sequence of them.
* `Event`, `Step`, `History` — the same as a step relation, call by call, so
  that a state in the middle of a transaction can be talked about; a committed
  transaction is a piece of such a run (`run_history`).
-/

namespace BookMarket

/-- A call, with its type arguments and the identifiers of its object
arguments. -/
inductive Call (A : Type)
  | create (coin : TypeTag)
  | list (t coin : TypeTag) (marketplace item : A) (ask : UInt64)
  | delist (t coin : TypeTag) (marketplace itemId : A)
  | delistAndTake (t coin : TypeTag) (marketplace itemId : A)
  | buy (t coin : TypeTag) (marketplace itemId paid : A)
  | buyAndTake (t coin : TypeTag) (marketplace itemId paid : A)
  | takeProfits (coin : TypeTag) (marketplace : A)
  | takeProfitsAndKeep (coin : TypeTag) (marketplace : A)
  | mintToSender (title description content url : List UInt8)
  | transfer (nft recipient : A)
  | updateDescription (nft : A) (newDescription : List UInt8)
  | burn (nft : A)
  /-- `transfer::public_transfer`, the `TransferObjects` command. -/
  | publicTransfer (obj recipient : A)
  /-- The package of `coin` creates a supply of it. -/
  | createCurrency (coin : TypeTag)
  | coinMint (coin : TypeTag) (cap : A) (value : UInt64)
  | coinBurn (coin : TypeTag) (cap c : A)
  | coinSplit (coin : TypeTag) (self : A) (splitAmount : UInt64)
  | coinJoin (coin : TypeTag) (self c : A)
  /-- Another package creates one of its objects. -/
  | otherNew (n : ℕ) (contents : List UInt8)
  /-- Another package changes one of its objects. -/
  | otherSet (n : ℕ) (obj : A) (contents : List UInt8)
  /-- Another package deletes one of its objects. -/
  | otherDelete (n : ℕ) (obj : A)
  deriving DecidableEq

/-- The chain, possibly in the middle of a transaction: the objects, whether a
transaction is running, its context (or that of the last one), its input objects
and the events emitted so far. -/
structure Chain (A : Type) where
  objects : Objects A
  running : Bool
  ctx : TxContext A
  inputs : List A
  events : List (NFTMinted A)

variable {A : Type} [DecidableEq A]

/-! ## Arguments and results -/

/-- An object taken by value: the transaction must hold it. -/
def takeArg (o : Objects A) (id : A) : Except Abort (Obj A × Objects A) :=
  match o.lookup id with
  | some x =>
    if x.owner.isTransaction then .ok (⟨id, x.data⟩, o.erase id) else .error .invalidValueUsage
  | none => .error .invalidValueUsage

/-- The object a call takes by value: the transaction must hold it, and it must
have the type of the parameter. -/
def byValueArg (o : Objects A) (id : A) (t : TypeTag) : Except Abort (Obj A × Objects A) := do
  let (obj, o) ← takeArg o id
  if obj.data.type = t then return (obj, o) else throw .typeMismatch

/-- The contents of an object a call takes by `&mut`. -/
def borrowMutArg (o : Objects A) (id : A) (t : TypeTag) : Except Abort (Data A) := do
  let (obj, _) ← byValueArg o id t
  return obj.data

/-- The `&mut Marketplace<coin>` argument: a shared object of that type. -/
def borrowMarketplace (o : Objects A) (id : A) (coin : TypeTag) : Except Abort Unit :=
  match o.lookup id with
  | some x => if x = ⟨.shared, .marketplace coin⟩ then .ok () else .error .typeMismatch
  | none => .error .typeMismatch

/-- The generic `T: key + store`. -/
def checkKeyStore (t : TypeTag) : Except Abort Unit :=
  if t.hasKeyStore then .ok () else .error .constraintNotSatisfied

/-- A coin taken by value. -/
def coinArg (o : Objects A) (id : A) (coin : TypeTag) : Except Abort (Coin A × Objects A) := do
  let (obj, o) ← byValueArg o id (.coin coin)
  match obj.data with
  | .item (.coin _ balance) => return (⟨id, balance⟩, o)
  | _ => throw .typeMismatch

/-- A coin taken by `&mut`. -/
def coinMutArg (o : Objects A) (id : A) (coin : TypeTag) : Except Abort (Coin A) := do
  match ← borrowMutArg o id (.coin coin) with
  | .item (.coin _ balance) => return ⟨id, balance⟩
  | _ => throw .typeMismatch

/-- The supply of a `&mut TreasuryCap<coin>`. -/
def capMutArg (o : Objects A) (id : A) (coin : TypeTag) : Except Abort UInt64 := do
  match ← borrowMutArg o id (.treasuryCap coin) with
  | .item (.treasuryCap _ totalSupply) => return totalSupply
  | _ => throw .typeMismatch

/-- The NFT behind a `&mut BookNFT`. -/
def nftMutArg (o : Objects A) (id : A) : Except Abort (BookNFT A) := do
  match ← borrowMutArg o id .bookNFT with
  | .item (.bookNFT nft) => return nft
  | _ => throw .typeMismatch

/-- A returned object becomes a value of the transaction. -/
def pushResult (o : Objects A) (obj : Obj A) : Objects A :=
  o.insert obj.id ⟨.transaction false, obj.data⟩

/-! ## One call -/

variable [AddressSpace A]

/-- Execute one call of the running transaction.  Besides the new state it
gives the object the call hands out, by returning it or by sending it to the
sender. -/
def exec (c : Chain A) : Call A → Except Abort (Chain A × Option (Obj A))
  | .create coin =>
    let (objects, ctx) := Marketplace.create coin c.objects c.ctx
    .ok ({ c with objects, ctx }, none)
  | .list t coin marketplace item ask => do
    checkKeyStore t
    borrowMarketplace c.objects marketplace coin
    let (item, objects) ← byValueArg c.objects item t
    let (objects, ctx) ← Marketplace.list objects c.ctx marketplace item ask
    return ({ c with objects, ctx }, none)
  | .delist t coin marketplace itemId => do
    checkKeyStore t
    borrowMarketplace c.objects marketplace coin
    let (item, objects) ← Marketplace.delist t c.objects c.ctx marketplace itemId
    return ({ c with objects := pushResult objects item }, some item)
  | .delistAndTake t coin marketplace itemId => do
    checkKeyStore t
    borrowMarketplace c.objects marketplace coin
    let (item, objects) ← Marketplace.delistAndTake t c.objects c.ctx marketplace itemId
    return ({ c with objects }, some item)
  | .buy t coin marketplace itemId paid => do
    checkKeyStore t
    borrowMarketplace c.objects marketplace coin
    let (paid, objects) ← coinArg c.objects paid coin
    let (item, objects) ← Marketplace.buy t coin objects marketplace itemId paid
    return ({ c with objects := pushResult objects item }, some item)
  | .buyAndTake t coin marketplace itemId paid => do
    checkKeyStore t
    borrowMarketplace c.objects marketplace coin
    let (paid, objects) ← coinArg c.objects paid coin
    let (item, objects) ← Marketplace.buyAndTake t coin objects c.ctx marketplace itemId paid
    return ({ c with objects }, some item)
  | .takeProfits coin marketplace => do
    borrowMarketplace c.objects marketplace coin
    let (profits, objects) ← Marketplace.takeProfits coin c.objects c.ctx marketplace
    return ({ c with objects := pushResult objects profits }, some profits)
  | .takeProfitsAndKeep coin marketplace => do
    borrowMarketplace c.objects marketplace coin
    let (profits, objects) ← Marketplace.takeProfitsAndKeep coin c.objects c.ctx marketplace
    return ({ c with objects }, some profits)
  | .mintToSender title description content url => do
    let (nft, event, objects, ctx) ←
      BookNft.mintToSender title description content url c.objects c.ctx
    return ({ c with objects, ctx, events := c.events ++ [event] }, some nft)
  | .transfer nft recipient => do
    let (nft, objects) ← byValueArg c.objects nft .bookNFT
    return ({ c with objects := BookNft.transfer objects nft recipient }, none)
  | .updateDescription id newDescription => do
    let nft ← nftMutArg c.objects id
    let nft ← BookNft.updateDescription nft newDescription
    return ({ c with objects := writeRef c.objects id (.item (.bookNFT nft)) }, none)
  | .burn nft => do
    let (nft, objects) ← byValueArg c.objects nft .bookNFT
    return ({ c with objects := BookNft.burn objects nft }, none)
  | .publicTransfer id recipient => do
    let (obj, objects) ← takeArg c.objects id
    checkKeyStore obj.data.type
    return ({ c with objects := Marketplace.publicTransfer objects obj recipient }, none)
  | .createCurrency coin =>
    let (id, ctx) := objectNew c.ctx
    let cap : Obj A := ⟨id, .item (.treasuryCap coin 0)⟩
    .ok ({ c with objects := pushResult c.objects cap, ctx }, some cap)
  | .coinMint coin cap value => do
    let totalSupply ← capMutArg c.objects cap coin
    let (totalSupply, minted, ctx) ← Coin.mint totalSupply value c.ctx
    let objects := writeRef c.objects cap (.item (.treasuryCap coin totalSupply))
    return ({ c with objects := pushResult objects (minted.toObj coin), ctx },
      some (minted.toObj coin))
  | .coinBurn coin cap burned => do
    let (burned, objects) ← coinArg c.objects burned coin
    let totalSupply ← capMutArg objects cap coin
    let totalSupply ← Coin.burn totalSupply burned
    return ({ c with objects := writeRef objects cap (.item (.treasuryCap coin totalSupply)) },
      none)
  | .coinSplit coin self splitAmount => do
    let self ← coinMutArg c.objects self coin
    let (self, new, ctx) ← Coin.split self splitAmount c.ctx
    let objects := writeRef c.objects self.id (self.toObj coin).data
    return ({ c with objects := pushResult objects (new.toObj coin), ctx }, some (new.toObj coin))
  | .coinJoin coin self joined => do
    let (joined, objects) ← coinArg c.objects joined coin
    let self ← coinMutArg objects self coin
    let self ← Coin.join self joined
    return ({ c with objects := writeRef objects self.id (self.toObj coin).data }, none)
  | .otherNew n contents =>
    let (id, ctx) := objectNew c.ctx
    let obj : Obj A := ⟨id, .item (.other n contents)⟩
    .ok ({ c with objects := pushResult c.objects obj, ctx }, some obj)
  | .otherSet n id contents => do
    let _ ← borrowMutArg c.objects id (.other n)
    return ({ c with objects := writeRef c.objects id (.item (.other n contents)) }, none)
  | .otherDelete n id => do
    let (_, objects) ← byValueArg c.objects id (.other n)
    return ({ c with objects }, none)

/-! ## Transactions -/

/-- Take one input object from its owner, who has to be the sender. -/
def loadInput (sender : A) (o : Objects A) (id : A) : Except Abort (Objects A) :=
  match o.lookup id with
  | some x =>
    if x.owner = .addressOwner sender then .ok (o.insert id { x with owner := .transaction true })
    else .error .incorrectUserSignature
  | none => .error .incorrectUserSignature

/-- Give an input object that is still there back to the sender. -/
def returnInput (sender : A) (o : Objects A) (id : A) : Objects A :=
  match o.lookup id with
  | some x =>
    if x.owner = .transaction true then o.insert id { x with owner := .addressOwner sender } else o
  | none => o

/-- Start a transaction: a new digest, and the inputs are taken from the
sender. -/
def startTx (c : Chain A) (sender : A) (inputs : List A) : Except Abort (Chain A) := do
  let objects ← inputs.foldlM (loadInput sender) c.objects
  return { c with objects, running := true, ctx := ⟨sender, c.ctx.txHash + 1, 0⟩, inputs }

/-- No value is left in the hands of a transaction. -/
def Idle (o : Objects A) : Prop :=
  ∀ id ∈ o.keys, (o.lookup id).all fun x => !x.owner.isTransaction

instance (o : Objects A) : Decidable (Idle o) :=
  inferInstanceAs (Decidable (∀ id ∈ o.keys, _))

/-- Finish a transaction: unused inputs go back to the sender, and an unused
result is an error. -/
def finishTx (c : Chain A) : Except Abort (Chain A) :=
  let objects := c.inputs.foldl (returnInput c.ctx.sender) c.objects
  if Idle objects then .ok { c with objects, running := false, inputs := [] }
  else .error .unusedValueWithoutDrop

/-- A successful call, for the record: who sent it, and what it handed out. -/
structure Entry (A : Type) where
  sender : A
  call : Call A
  out : Option (Obj A)
  deriving DecidableEq

/-- A programmable transaction. -/
structure Tx (A : Type) where
  sender : A
  inputs : List A
  calls : List (Call A)

/-- The calls of a transaction, one after the other. -/
def execCalls (c : Chain A) : List (Call A) → Except Abort (Chain A × List (Entry A))
  | [] => .ok (c, [])
  | call :: calls => do
    let (c', out) ← exec c call
    let (c'', entries) ← execCalls c' calls
    return (c'', ⟨c.ctx.sender, call, out⟩ :: entries)

/-- A whole transaction. -/
def execTx (c : Chain A) (tx : Tx A) : Except Abort (Chain A × List (Entry A)) := do
  let c ← startTx c tx.sender tx.inputs
  let (c, entries) ← execCalls c tx.calls
  let c ← finishTx c
  return (c, entries)

/-- An aborted transaction changes nothing. -/
def stepTx (c : Chain A) (tx : Tx A) : Chain A × List (Entry A) :=
  match execTx c tx with
  | .ok r => r
  | .error _ => (c, [])

/-- A sequence of transactions, with the record of the calls that were
committed. -/
def run (c : Chain A) : List (Tx A) → Chain A × List (Entry A)
  | [] => (c, [])
  | tx :: txs =>
    let (c', es) := stepTx c tx
    let (c'', fs) := run c' txs
    (c'', es ++ fs)

/-- The chain before anything has happened. -/
def genesis : Chain A :=
  { objects := ∅, running := false, ctx := ⟨AddressSpace.zero, 0, 0⟩, inputs := [], events := [] }

/-! ## The same as a step relation -/

/-- What can happen next: a transaction starts, the running one makes a call,
or it finishes. -/
inductive Event (A : Type)
  | start (sender : A) (inputs : List A)
  | call (entry : Entry A)
  | finish

/-- One event.  Transactions run one at a time. -/
inductive Step : Chain A → Event A → Chain A → Prop
  | start {c c' : Chain A} {sender : A} {inputs : List A} :
      c.running = false → startTx c sender inputs = .ok c' → Step c (.start sender inputs) c'
  | call {c c' : Chain A} {call : Call A} {out : Option (Obj A)} :
      c.running = true → exec c call = .ok (c', out) →
        Step c (.call ⟨c.ctx.sender, call, out⟩) c'
  | finish {c c' : Chain A} : c.running = true → finishTx c = .ok c' → Step c .finish c'

/-- The calls among the events of a run. -/
def calls (es : List (Event A)) : List (Entry A) :=
  es.filterMap fun
    | .call entry => some entry
    | _ => none

/-- `History h c`: the calls `h`, grouped into transactions in some way, lead
from the empty chain to `c`, which may be in the middle of a transaction. -/
def History (h : List (Entry A)) (c : Chain A) : Prop :=
  ∃ es, Runs.Run Step genesis es c ∧ calls es = h

end BookMarket
