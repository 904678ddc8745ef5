import Mathlib.Data.Finmap
import BookMarket.Sui.Text

/-!
# Objects, owners and fresh identifiers

The part of the Sui object model the two Move modules run on: the types an
object can have, what an object contains, who owns it, and the two ways an
object identifier comes into being.

* `AddressSpace` — addresses with the two derivations of `sui-types`:
  `ObjectID::derive_id` (a fresh identifier, from the transaction digest and a
  counter) and `derive_dynamic_field_id` (the identifier of a dynamic field,
  from the parent and the typed key).  Both hash; what is asked of them is that
  they do not collide, within and across the two families.
* `Item`, `Data` — the contents of an object.  An `Item` is what a user can
  hold; a `Marketplace`, a `Listing` and a `Field` are the objects the
  marketplace is made of.
* `Objects` — the object store: a finite map from identifiers to owned objects.
* `objectNew` — `object::new`, the only source of fresh identifiers.
-/

namespace BookMarket

/-! ## Types -/

/-- The type of the name of a dynamic object field: the `Name` of
`Wrapper<Name>`. -/
inductive NameType
  | id
  | address
  | bool
  deriving DecidableEq, Repr

/-- A Move type, as far as the programs here tell types apart.  `other n` stands
for the types of all other packages that have `key` and `store`. -/
inductive TypeTag
  /-- `0x2::sui::SUI` -/
  | sui
  /-- `0x2::coin::Coin<t>` -/
  | coin (t : TypeTag)
  /-- `0x2::coin::TreasuryCap<t>` -/
  | treasuryCap (t : TypeTag)
  /-- `booknft::book_nft::BookNFT` -/
  | bookNFT
  /-- `booknft::marketplace::Marketplace<t>` -/
  | marketplace (t : TypeTag)
  /-- `booknft::marketplace::Listing` -/
  | listing
  /-- `0x2::dynamic_field::Field<Wrapper<name>, ID>` -/
  | field (name : NameType)
  | other (n : ℕ)
  deriving DecidableEq, Repr

/-- Whether a type has both `key` and `store`, which is what the generic `T` of
`list`, `delist` and `buy` asks for. -/
def TypeTag.hasKeyStore : TypeTag → Bool
  | .coin _ | .treasuryCap _ | .bookNFT | .listing | .other _ => true
  | .sui | .marketplace _ | .field _ => false

/-! ## Contents -/

/-- The name of a dynamic object field: `Wrapper<ID>`, `Wrapper<address>` or
`Wrapper<bool>`.  An `ID` and an `address` with the same bytes are different
names. -/
inductive Name (A : Type)
  | id (bytes : A)
  | address (a : A)
  | bool (b : Bool)
  deriving DecidableEq, Repr

/-- The type of a field name. -/
def Name.type {A : Type} : Name A → NameType
  | .id _ => .id
  | .address _ => .address
  | .bool _ => .bool

/-- The fields of a `book_nft::BookNFT` other than its `UID`. -/
structure BookNFT (A : Type) where
  title : MoveString
  author : A
  description : MoveString
  content : MoveString
  url : Url
  deriving DecidableEq

/-- An object a user can hold. -/
inductive Item (A : Type)
  /-- `Coin<t>` with its balance. -/
  | coin (t : TypeTag) (balance : UInt64)
  /-- `TreasuryCap<t>` with its total supply. -/
  | treasuryCap (t : TypeTag) (totalSupply : UInt64)
  | bookNFT (nft : BookNFT A)
  /-- An object of some other package, as its serialized contents. -/
  | other (n : ℕ) (contents : List UInt8)
  deriving DecidableEq

def Item.type {A : Type} : Item A → TypeTag
  | .coin t _ => .coin t
  | .treasuryCap t _ => .treasuryCap t
  | .bookNFT _ => .bookNFT
  | .other n _ => .other n

/-- The contents of any object of the store. -/
inductive Data (A : Type)
  | item (i : Item A)
  /-- `Marketplace<t>`: nothing but its `UID`. -/
  | marketplace (t : TypeTag)
  | listing (ask : UInt64) (owner : A)
  /-- `Field<Wrapper<_>, ID>`: the name and the identifier stored under it. -/
  | field (name : Name A) (value : A)
  deriving DecidableEq

def Data.type {A : Type} : Data A → TypeTag
  | .item i => i.type
  | .marketplace t => .marketplace t
  | .listing _ _ => .listing
  | .field name _ => .field name.type

@[simp] theorem Data.type_item {A : Type} (i : Item A) : (Data.item i).type = i.type := rfl

@[simp] theorem Data.type_listing {A : Type} (ask : UInt64) (owner : A) :
    (Data.listing ask owner).type = .listing := rfl

@[simp] theorem Data.type_field {A : Type} (name : Name A) (value : A) :
    (Data.field name value).type = .field name.type := rfl

@[simp] theorem Item.type_coin {A : Type} (t : TypeTag) (balance : UInt64) :
    (Item.coin t balance : Item A).type = .coin t := rfl

/-- A Move value with `key`: an object that is in nobody's custody while a
function computes with it. -/
structure Obj (A : Type) where
  id : A
  data : Data A
  deriving DecidableEq

/-! ## Owners and the store -/

/-- Who holds an object that a user can lay hands on: an address, or the
transaction being executed, which holds it either as an input it was given or
as a result of one of its own calls. -/
inductive Holder (A : Type)
  | address (a : A)
  | transaction (isInput : Bool)
  deriving DecidableEq, Repr

/-- `Owner` of `sui-types`, with one more case for the values a running
transaction holds. -/
inductive Owner (A : Type)
  | addressOwner (a : A)
  | objectOwner (parent : A)
  | shared
  | transaction (isInput : Bool)
  deriving DecidableEq, Repr

def Holder.toOwner {A : Type} : Holder A → Owner A
  | .address a => .addressOwner a
  | .transaction i => .transaction i

@[simp] theorem Holder.toOwner_ne_objectOwner {A : Type} (h : Holder A) (p : A) :
    h.toOwner ≠ .objectOwner p := by
  cases h <;> simp [Holder.toOwner]

@[simp] theorem Holder.toOwner_ne_shared {A : Type} (h : Holder A) : h.toOwner ≠ .shared := by
  cases h <;> simp [Holder.toOwner]

theorem Holder.toOwner_inj {A : Type} {h h' : Holder A} (e : h.toOwner = h'.toOwner) : h = h' := by
  cases h <;> cases h' <;> simp_all [Holder.toOwner]

def Owner.isTransaction {A : Type} : Owner A → Bool
  | .transaction _ => true
  | _ => false

/-- An object in the store, with its owner. -/
structure Stored (A : Type) where
  owner : Owner A
  data : Data A
  deriving DecidableEq

/-- The object store. -/
abbrev Objects (A : Type) := Finmap fun _ : A => Stored A

/-! ## Identifiers -/

/-- The addresses of the chain with the two ways of deriving an object
identifier.  The laws say what the network relies on: the hashes behind
`derive_id` and `derive_dynamic_field_id` do not collide, and they are taken
over different `HashingIntentScope`s, so neither do the two families. -/
class AddressSpace (A : Type) where
  /-- The address `@0x0`. -/
  zero : A
  /-- `ObjectID::derive_id(digest, creation_num)`. -/
  deriveId : ℕ → ℕ → A
  /-- `hash_type_and_key(parent, key)`, that is `derive_dynamic_field_id`. -/
  hashTypeAndKey : A → Name A → A
  deriveId_inj : ∀ {d n d' n'}, deriveId d n = deriveId d' n' → d = d' ∧ n = n'
  hashTypeAndKey_inj : ∀ {p k p' k'},
    hashTypeAndKey p k = hashTypeAndKey p' k' → p = p' ∧ k = k'
  deriveId_ne_hash : ∀ {d n p k}, deriveId d n ≠ hashTypeAndKey p k

export AddressSpace (deriveId hashTypeAndKey)

/-- `TxContext`: the sender, the digest of the transaction (transactions are
numbered in the order they are executed) and the count of the identifiers it
has created. -/
structure TxContext (A : Type) where
  sender : A
  txHash : ℕ
  idsCreated : ℕ
  deriving DecidableEq, Repr

section Fresh

variable {A : Type} [AddressSpace A]

/-- `tx_context::fresh_object_address`, which is what `object::new` wraps. -/
def objectNew (ctx : TxContext A) : A × TxContext A :=
  (deriveId ctx.txHash ctx.idsCreated, { ctx with idsCreated := ctx.idsCreated + 1 })

/-- The identifiers handed out before the present moment. -/
def Used (ctx : TxContext A) (id : A) : Prop :=
  ∃ d n, id = deriveId d n ∧ (d < ctx.txHash ∨ (d = ctx.txHash ∧ n < ctx.idsCreated))

/-- **Fresh identifiers never repeat.** -/
theorem not_used_objectNew (ctx : TxContext A) : ¬ Used ctx (objectNew ctx).1 := by
  rintro ⟨d, n, hid, hlt⟩
  obtain ⟨rfl, rfl⟩ := AddressSpace.deriveId_inj hid
  omega

theorem used_objectNew (ctx : TxContext A) : Used (objectNew ctx).2 (objectNew ctx).1 :=
  ⟨ctx.txHash, ctx.idsCreated, rfl, Or.inr ⟨rfl, Nat.lt_succ_self _⟩⟩

/-- An identifier stays used. -/
theorem Used.objectNew {ctx : TxContext A} {id : A} (h : Used ctx id) :
    Used (objectNew ctx).2 id := by
  obtain ⟨d, n, hid, hlt⟩ := h
  refine ⟨d, n, hid, ?_⟩
  rcases hlt with h | ⟨h1, h2⟩
  · exact Or.inl h
  · exact Or.inr ⟨h1, Nat.lt_succ_of_lt h2⟩

/-- Nor does a dynamic field ever get an identifier that was handed out. -/
theorem Used.ne_hash {ctx : TxContext A} {id p : A} {k : Name A} (h : Used ctx id) :
    id ≠ hashTypeAndKey p k := by
  obtain ⟨d, n, rfl, -⟩ := h
  exact AddressSpace.deriveId_ne_hash

end Fresh

/-! ## An address space without hashing -/

/-- Addresses as terms: an identifier is what it was derived from.  Nothing can
collide here, so the laws of `AddressSpace` can be met, and the model can be
run. -/
inductive Addr
  | user (n : ℕ)
  | derived (digest creationNum : ℕ)
  | idField (parent k : Addr)
  | addressField (parent a : Addr)
  | boolField (parent : Addr) (b : Bool)
  deriving DecidableEq, Repr

def Addr.child (parent : Addr) : Name Addr → Addr
  | .id k => .idField parent k
  | .address a => .addressField parent a
  | .bool b => .boolField parent b

instance : AddressSpace Addr where
  zero := .user 0
  deriveId := .derived
  hashTypeAndKey := Addr.child
  deriveId_inj h := by
    cases h
    exact ⟨rfl, rfl⟩
  hashTypeAndKey_inj {p k p' k'} h := by
    cases k <;> cases k' <;> cases h <;> exact ⟨rfl, rfl⟩
  deriveId_ne_hash {d n p k} := by
    cases k <;> intro h <;> cases h

end BookMarket
