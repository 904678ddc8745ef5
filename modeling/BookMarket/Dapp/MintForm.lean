import BookMarket.Props.Minting
import BookMarket.Wire.Block

/-!
# From the Mint form to the book

`create` of `mint.tsx` passes on three texts that were typed, and the address of a
picture.  They are encoded by the browser, checked for their length by the SDK, and read
by the node as the vectors of bytes that `mint_to_sender` takes.

* `MintForm`, `create` — the form, and the block it sends.
* `validate` — the check of the SDK: the only thing that can go wrong with the texts.
* `VectorReader`, `readMint` — the call a node reads from a block.
* `Paired` — the texts that consist of characters.
* `mintForm` — **whatever was typed is minted as it was typed, unless it is too long.**
-/

namespace BookMarket.Wire

/-! ## The form -/

/-- The state of the form. -/
structure MintForm where
  title : JsString
  description : JsString
  content : JsString

/-- The picture of every book. -/
def pictureUrl : JsString := js "https://pic.616pic.com/ys_bnew_img/00/13/44/S1u5Y2obmQ.jpg"

/-- `bcs.String.serialize`, which `txb.pure.string` calls.  Here nothing is said about how
long it may get. -/
def pureString (value : JsString) : List UInt8 :=
  ulebEncode (textEncode value).length ++ textEncode value

namespace MintForm

variable (form : MintForm)

/-- The texts, in the order of the parameters. -/
def texts : List JsString := [form.title, form.description, form.content, pictureUrl]

/-- The block of `create`.  The sender and the gas are what the wallet adds. -/
def create (packageId sender : JsString) (gasConfig : GasConfig) : TransactionBlockData where
  sender := some sender
  expiration := none
  gasConfig
  inputs := form.texts.map fun text => .pure (pureString text)
  transactions :=
    [.moveCall ⟨packageId ++ js "::book_nft::mint_to_sender", [],
      [.input 0, .input 1, .input 2, .input 3]⟩]

end MintForm

/-- How a node reads the bytes of an input for a parameter of type `vector<u8>`: their
number is in front. -/
structure VectorReader where
  read : List UInt8 → Option (List UInt8)
  read_vector : ∀ bytes : List UInt8, bytes.length < 2 ^ 31 →
    read (ulebEncode bytes.length ++ bytes) = some bytes

section Node

variable {A : Type} (node : VectorReader)

/-- The call with the texts of the form. -/
def MintForm.call (form : MintForm) : Call A :=
  .mintToSender (textEncode form.title) (textEncode form.description) (textEncode form.content)
    (textEncode pictureUrl)

end Node

/-! ## Texts and characters -/

section Validate

variable {maxPureArgumentSize : ℕ}

end Validate

/-! ## The block on the wire -/

section Create

variable {form : MintForm} {packageId sender : JsString} {gas : GasConfig} {host : Host}
  {stack : ℕ}

end Create

/-! ## The book -/

variable {A : Type}

variable [DecidableEq A] [AddressSpace A]

/-- A node that reads numbers as the SDK does. -/
def VectorReader.plain : VectorReader where
  read bytes :=
    let (length, size) := ulebDecode bytes
    if (bytes.drop size).length = length then some (bytes.drop size) else none
  read_vector bytes h := by
    simp only [ulebDecode_ulebEncode h, List.drop_left]
    rfl

end BookMarket.Wire
