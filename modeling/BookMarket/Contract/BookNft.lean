import BookMarket.Contract.Marketplace

/-!
# `booknft::book_nft`

The NFT module: minting to the sender with an event, transferring, changing the
description and burning.  The four getters (`name`, `description`, `content`,
`url`) are the projections of `BookNFT`.
-/

namespace BookMarket

/-- The event `NFTMinted`. -/
structure NFTMinted (A : Type) where
  objectId : A
  creator : A
  name : MoveString
  deriving DecidableEq

namespace BookNft

variable {A : Type} [DecidableEq A] [AddressSpace A]

/-- The fields `mint_to_sender` puts into the NFT.  The texts are checked in the
order of the struct expression. -/
def newNft (sender : A) (title description content url : List UInt8) :
    Except Abort (BookNFT A) := do
  let title ← utf8 title
  let description ← utf8 description
  let content ← utf8 content
  let url ← newUnsafeFromBytes url
  return { title, author := sender, description, content, url }

def mintToSender (title description content url : List UInt8) (o : Objects A)
    (ctx : TxContext A) : Except Abort (Obj A × NFTMinted A × Objects A × TxContext A) := do
  let sender := ctx.sender
  let (id, ctx) := objectNew ctx
  let nft ← newNft sender title description content url
  let obj : Obj A := ⟨id, .item (.bookNFT nft)⟩
  let event : NFTMinted A := { objectId := id, creator := sender, name := nft.title }
  return (obj, event, Marketplace.publicTransfer o obj sender, ctx)

def transfer (o : Objects A) (nft : Obj A) (recipient : A) : Objects A :=
  Marketplace.publicTransfer o nft recipient

/-- The NFT after the update. -/
def updateDescription (nft : BookNFT A) (newDescription : List UInt8) :
    Except Abort (BookNFT A) := do
  let description ← utf8 newDescription
  return { nft with description }

/-- The value is unpacked and its `UID` deleted: the store, from which the
argument has been taken, stays as it is. -/
def burn (o : Objects A) (_nft : Obj A) : Objects A := o

end BookNft
end BookMarket
