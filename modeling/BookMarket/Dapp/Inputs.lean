import BookMarket.Chain.Single

/-!
# From a call to its inputs

A page names the objects of a call by their identifiers.  Before the transaction is
signed, the builder of the SDK asks a node who owns each of them, and makes it the
input of that kind: a shared object, or a reference to an object that is owned.  The
node that gets the transaction checks the inputs again, before it makes the call.

What an argument is for does not come into it.  An identifier that is wanted as such,
as an `ID`, is encoded as one first; but if it was given with `txb.object`, it is
resolved afterwards like all the others.

* `TxbArg`, `CallInput` — an argument as the page gives it, and as it is sent.
* `prepareInput` — `#prepareTransactions` of the builder, for one input.
* `checkOneObject` — the check of the node.
* `sendBuyAndTake` — a call of `buy_and_take`, from its arguments to what it does.
* `prepareInput_object_id` — **`txb.object` never leaves an `ID` as it is**; then
  `sendBuyAndTake_child` — what belongs to an object is refused — and
  `sendBuyAndTake_pure` — **an identifier that is passed as such makes the call.**
-/

namespace BookMarket

variable {A : Type}

/-! ## The builder -/

/-- An argument as a page gives it: with `txb.object`, or with `txb.pure` as bytes. -/
inductive TxbArg (A : Type)
  | object (id : A)
  | pure (id : A)
  deriving DecidableEq

/-- What the parameter of an argument says about it. -/
inductive ParamKind
  /-- `ID`, which is encoded as an address. -/
  | id
  /-- An object by `&mut`. -/
  | mutRef
  /-- An object by value. -/
  | byValue
  deriving DecidableEq

/-- An input as it is sent.  The node's answer has the current version and digest, so
that a reference is known by its identifier. -/
inductive CallInput (A : Type)
  | pure (id : A)
  | immOrOwned (objectId : A)
  | shared (objectId : A) (mutable : Bool)
  deriving DecidableEq

def CallInput.isMutableSharedObjectInput : CallInput A → Bool
  | .shared _ mutable => mutable
  | _ => false

/-- Why a transaction is not executed, or not to its end. -/
inductive SendError (A : Type)
  /-- The builder: `The following input objects are invalid`. -/
  | invalidInputObjects (id : A)
  /-- The node cannot load the object. -/
  | objectNotFound (id : A)
  | incorrectUserSignature (id : A)
  | invalidChildObjectArgument (childId parentId : A)
  | notSharedObjectError
  /-- A command argument of the wrong type. -/
  | typeMismatch
  | aborted (abort : Abort)
  deriving DecidableEq

variable [DecidableEq A]

/-- One round of resolving an identifier, with what the input has become so far and,
where it is known, the parameter. -/
def resolveObject (o : Objects A) (value : Option (CallInput A)) (id : A)
    (param : Option ParamKind) : Except (SendError A) (CallInput A) :=
  match o.lookup id with
  | none => .error (.invalidInputObjects id)
  | some ⟨.shared, _⟩ =>
    let mutable := (value.map CallInput.isMutableSharedObjectInput).getD false
    .ok (.shared id (mutable || param = some .byValue || param = some .mutRef))
  | some _ => .ok (.immOrOwned id)

/-- `#prepareTransactions`, for one input.  What is there as bytes stays.  Any input of
`txb.object` is resolved, and once more for a parameter that is an object. -/
def prepareInput (o : Objects A) (param : ParamKind) :
    TxbArg A → Except (SendError A) (CallInput A)
  | .pure id => .ok (.pure id)
  | .object id =>
    match param with
    | .id => resolveObject o (some (.pure id)) id none
    | param =>
      match resolveObject o none id none with
      | .ok value => resolveObject o (some value) id (some param)
      | .error e => .error e

/-! ## The node -/

/-- `check_one_object`. -/
def checkOneObject (sender : A) (o : Objects A) : CallInput A → Except (SendError A) Unit
  | .pure _ => .ok ()
  | .immOrOwned objectId =>
    match o.lookup objectId with
    | none => .error (.objectNotFound objectId)
    | some ⟨.addressOwner actualOwner, _⟩ =>
      if sender = actualOwner then .ok () else .error (.incorrectUserSignature objectId)
    | some ⟨.objectOwner owner, _⟩ => .error (.invalidChildObjectArgument objectId owner)
    | some ⟨.shared, _⟩ => .error .notSharedObjectError
    -- no transaction is running
    | some ⟨.transaction _, _⟩ => .error (.objectNotFound objectId)
  | .shared objectId _ =>
    match o.lookup objectId with
    | none => .error (.objectNotFound objectId)
    | some ⟨.shared, _⟩ => .ok ()
    | some _ => .error .notSharedObjectError

/-- The block of one call of `buy_and_take`. -/
structure BuyBlock (A : Type) where
  typeArguments : TypeTag × TypeTag
  marketplace : TxbArg A
  itemId : TxbArg A
  paid : TxbArg A
  deriving DecidableEq

variable [AddressSpace A]

/-- The block is built and sent: its inputs are prepared, the node checks them, and
the call is made if they are what the parameters ask for. -/
def sendBuyAndTake (c : Chain A) (sender : A) (block : BuyBlock A) :
    Except (SendError A) (Chain A × List (Entry A)) := do
  let marketplace ← prepareInput c.objects .mutRef block.marketplace
  let itemId ← prepareInput c.objects .id block.itemId
  let paid ← prepareInput c.objects .byValue block.paid
  checkOneObject sender c.objects marketplace
  checkOneObject sender c.objects itemId
  checkOneObject sender c.objects paid
  match marketplace, itemId, paid with
  | .shared m true, .pure k, .immOrOwned paid =>
    let (t, coin) := block.typeArguments
    match execTx c (callTx sender (.buyAndTake t coin m k paid)) with
    | .ok r => .ok r
    | .error e => .error (.aborted e)
  | _, _, _ => .error .typeMismatch

/-! ## What becomes of the arguments -/

section Prepared

variable {o : Objects A} {id parent a : A} {d : Data A} {param : ParamKind}

omit [AddressSpace A] in
theorem prepareInput_pure : prepareInput o param (.pure id) = .ok (.pure id) := rfl

omit [AddressSpace A] in
theorem checkOneObject_pure (sender : A) : checkOneObject sender o (.pure id) = .ok () := rfl

omit [AddressSpace A] in
/-- **`txb.object` never leaves an `ID` as it is.** -/
theorem prepareInput_object_id (k : A) : prepareInput o .id (.object id) ≠ .ok (.pure k) := by
  rw [prepareInput, resolveObject]
  split <;> simp

omit [AddressSpace A] in
theorem prepareInput_child (h : o.lookup id = some ⟨.objectOwner parent, d⟩) :
    prepareInput o param (.object id) = .ok (.immOrOwned id) := by
  cases param <;> simp [prepareInput, resolveObject, h]

omit [AddressSpace A] in
theorem checkOneObject_child (sender : A) (h : o.lookup id = some ⟨.objectOwner parent, d⟩) :
    checkOneObject sender o (.immOrOwned id) = .error (.invalidChildObjectArgument id parent) := by
  rw [checkOneObject, h]

omit [AddressSpace A] in
theorem prepareInput_owned (h : o.lookup id = some ⟨.addressOwner a, d⟩) :
    prepareInput o param (.object id) = .ok (.immOrOwned id) := by
  cases param <;> simp [prepareInput, resolveObject, h]

omit [AddressSpace A] in
theorem checkOneObject_owned (h : o.lookup id = some ⟨.addressOwner a, d⟩) :
    checkOneObject a o (.immOrOwned id) = .ok () := by
  rw [checkOneObject, h]
  simp

omit [AddressSpace A] in
theorem prepareInput_shared (h : o.lookup id = some ⟨.shared, d⟩) :
    prepareInput o .mutRef (.object id) = .ok (.shared id true) := by
  simp [prepareInput, resolveObject, h]

omit [AddressSpace A] in
theorem checkOneObject_shared (sender : A) {mutable : Bool}
    (h : o.lookup id = some ⟨.shared, d⟩) :
    checkOneObject sender o (.shared id mutable) = .ok () := by
  rw [checkOneObject, h]

end Prepared

/-! ## A purchase -/

section Purchase

variable {c : Chain A} {t coin : TypeTag} {m k paid sender parent : A} {dm dk dp : Data A}

/-- A purchase that hands over an object that belongs to another one is refused. -/
theorem sendBuyAndTake_child (hm : c.objects.lookup m = some ⟨.shared, dm⟩)
    (hk : c.objects.lookup k = some ⟨.objectOwner parent, dk⟩)
    (hp : c.objects.lookup paid = some ⟨.addressOwner sender, dp⟩) :
    sendBuyAndTake c sender ⟨(t, coin), .object m, .object k, .object paid⟩ =
      .error (.invalidChildObjectArgument k parent) := by
  simp only [sendBuyAndTake, prepareInput_shared hm, prepareInput_child hk, prepareInput_owned hp,
    checkOneObject_shared sender hm, checkOneObject_child sender hk, bind, Except.bind]

/-- **An identifier that is passed as such makes the call.** -/
theorem sendBuyAndTake_pure (hm : c.objects.lookup m = some ⟨.shared, dm⟩)
    (hp : c.objects.lookup paid = some ⟨.addressOwner sender, dp⟩)
    {r : Chain A × List (Entry A)} :
    sendBuyAndTake c sender ⟨(t, coin), .object m, .pure k, .object paid⟩ = .ok r ↔
      execTx c (callTx sender (.buyAndTake t coin m k paid)) = .ok r := by
  simp only [sendBuyAndTake, prepareInput_shared hm, prepareInput_pure, prepareInput_owned hp,
    checkOneObject_shared sender hm, checkOneObject_pure, checkOneObject_owned hp, bind,
    Except.bind]
  cases execTx c (callTx sender (.buyAndTake t coin m k paid)) <;> simp

end Purchase

end BookMarket
