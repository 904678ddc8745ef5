import BookMarket.Sui.Coin
import BookMarket.Sui.DynamicField

/-!
# `booknft::marketplace`

The marketplace module, function by function.  A listing is kept in two levels
of dynamic object fields: under the marketplace, at the identifier of the item,
a `Listing`; under the `Listing`, at `true`, the item itself.  The money of a
sale is kept under the marketplace too, at the address of the seller.

The functions take the store and the transaction context and give them back;
`item` and `paid` are values the caller holds.  A function that the source ends
by sending an object to the sender also returns that object, for the record.
-/

namespace BookMarket
namespace Marketplace

variable {A : Type} [DecidableEq A] [AddressSpace A]

/-- `transfer::share_object`. -/
def shareObject (o : Objects A) (obj : Obj A) : Objects A :=
  o.insert obj.id ⟨.shared, obj.data⟩

/-- `transfer::public_transfer`. -/
def publicTransfer (o : Objects A) (obj : Obj A) (recipient : A) : Objects A :=
  o.insert obj.id ⟨.addressOwner recipient, obj.data⟩

/-- Create a new shared `Marketplace`. -/
def create (coin : TypeTag) (o : Objects A) (ctx : TxContext A) : Objects A × TxContext A :=
  let (id, ctx) := objectNew ctx
  (shareObject o ⟨id, .marketplace coin⟩, ctx)

/-- List an item at the `Marketplace`. -/
def list (o : Objects A) (ctx : TxContext A) (marketplace : A) (item : Obj A) (ask : UInt64) :
    Except Abort (Objects A × TxContext A) := do
  let itemId := item.id
  let (id, ctx) := objectNew ctx
  let listing : Obj A := ⟨id, .listing ask ctx.sender⟩
  let o ← DynamicObjectField.add o listing.id (.bool true) item
  let o ← DynamicObjectField.add o marketplace (.id itemId) listing
  return (o, ctx)

/-- Remove listing and get an item back.  Only owner can do that. -/
def delist (t : TypeTag) (o : Objects A) (ctx : TxContext A) (marketplace itemId : A) :
    Except Abort (Obj A × Objects A) := do
  let (listing, o) ← DynamicObjectField.remove .listing o marketplace (.id itemId)
  match listing.data with
  | .listing _ owner =>
    if ctx.sender ≠ owner then
      throw .eNotOwner
    let (item, o) ← DynamicObjectField.remove t o listing.id (.bool true)
    return (item, o)
  | _ => throw .eFieldTypeMismatch

def delistAndTake (t : TypeTag) (o : Objects A) (ctx : TxContext A) (marketplace itemId : A) :
    Except Abort (Obj A × Objects A) := do
  let (item, o) ← delist t o ctx marketplace itemId
  return (item, publicTransfer o item ctx.sender)

/-- Merge `paid` with the coin hanging under the owner's address, or attach it
there when there is none. -/
def creditSeller (coin : TypeTag) (o : Objects A) (marketplace owner : A) (paid : Coin A) :
    Except Abort (Objects A) := do
  if ← DynamicObjectField.exists_ o marketplace (.address owner) then
    let ref ← DynamicObjectField.borrowMut (.coin coin) o marketplace (.address owner)
    match ref.data with
    | .item (.coin _ balance) =>
      let joined ← Coin.join ⟨ref.id, balance⟩ paid
      return writeRef o ref.id (joined.toObj coin).data
    | _ => throw .eFieldTypeMismatch
  else
    DynamicObjectField.add o marketplace (.address owner) (paid.toObj coin)

def buy (t coin : TypeTag) (o : Objects A) (marketplace itemId : A) (paid : Coin A) :
    Except Abort (Obj A × Objects A) := do
  let (listing, o) ← DynamicObjectField.remove .listing o marketplace (.id itemId)
  match listing.data with
  | .listing ask owner =>
    if ask ≠ paid.balance then
      throw .eAmountIncorrect
    let o ← creditSeller coin o marketplace owner paid
    let (item, o) ← DynamicObjectField.remove t o listing.id (.bool true)
    return (item, o)
  | _ => throw .eFieldTypeMismatch

/-- Call `buy` and transfer item to the sender. -/
def buyAndTake (t coin : TypeTag) (o : Objects A) (ctx : TxContext A) (marketplace itemId : A)
    (paid : Coin A) : Except Abort (Obj A × Objects A) := do
  let (item, o) ← buy t coin o marketplace itemId paid
  return (item, publicTransfer o item ctx.sender)

/-- Take profits from selling items on the `Marketplace`. -/
def takeProfits (coin : TypeTag) (o : Objects A) (ctx : TxContext A) (marketplace : A) :
    Except Abort (Obj A × Objects A) :=
  DynamicObjectField.remove (.coin coin) o marketplace (.address ctx.sender)

/-- Call `takeProfits` and transfer the coin to the sender. -/
def takeProfitsAndKeep (coin : TypeTag) (o : Objects A) (ctx : TxContext A) (marketplace : A) :
    Except Abort (Obj A × Objects A) := do
  let (profits, o) ← takeProfits coin o ctx marketplace
  return (profits, publicTransfer o profits ctx.sender)

end Marketplace
end BookMarket
