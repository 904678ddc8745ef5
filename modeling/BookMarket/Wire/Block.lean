import BookMarket.Wire.Bcs
import BookMarket.Wire.TypeText

/-!
# Transactions on the wire

What the pages put into a transaction block, and its binary form.  A call names its
target and its types by texts, and objects by the texts of their addresses; all of these
are parsed when the block is encoded and printed when it is decoded, so that a block
comes back with every address in its full length and every type in its canonical form.

* `Transaction`, `CallArg`, `TransactionBlockData` — the data of a block.
* `typeTag`, `transaction`, `transactionData` — the types of the format, composed from
  those of `Wire.Bcs`.
* `build`, `fromBytes` — a block as bytes, and back.
* `Valid` — what the block is made of is well formed.
* `blockWire` — **a valid block is decoded from its bytes in its normal form, which has
  the same bytes.**
-/

namespace BookMarket.Wire

open Codec

/-! ## The data of a block -/

inductive Argument
  | gasCoin
  | input (index : ℕ)
  | result (index : ℕ)
  | nestedResult (index resultIndex : ℕ)
  deriving DecidableEq

/-- `SuiObjectRef`.  The digest is its bytes. -/
structure ObjectRef where
  objectId : JsString
  version : ℕ
  digest : List UInt8
  deriving DecidableEq

structure SharedObjectRef where
  objectId : JsString
  initialSharedVersion : ℕ
  mutable : Bool
  deriving DecidableEq

inductive ObjectArg
  | immOrOwned (ref : ObjectRef)
  | shared (ref : SharedObjectRef)
  | receiving (ref : ObjectRef)
  deriving DecidableEq

inductive CallArg
  | pure (bytes : List UInt8)
  | object (arg : ObjectArg)
  | objVec (args : List ObjectArg)
  deriving DecidableEq

/-- `MoveCallTransaction`. -/
structure MoveCall where
  target : JsString
  typeArguments : List JsString
  arguments : List Argument
  deriving DecidableEq

inductive Transaction
  | moveCall (call : MoveCall)
  | transferObjects (objects : List Argument) (address : Argument)
  | splitCoins (coin : Argument) (amounts : List Argument)
  | mergeCoins (destination : Argument) (sources : List Argument)
  | publish (modules : List (List UInt8)) (dependencies : List JsString)
  | makeMoveVec (type : Option TypeTag) (objects : List Argument)
  | upgrade (modules : List (List UInt8)) (dependencies : List JsString) (packageId : JsString)
      (ticket : Argument)

structure ProgrammableTransaction where
  inputs : List CallArg
  transactions : List Transaction

inductive TransactionKind
  | programmableTransaction (tx : ProgrammableTransaction)
  | changeEpoch
  | genesis
  | consensusCommitPrologue

inductive TransactionExpiration
  | none
  | epoch (epoch : ℕ)
  deriving DecidableEq

structure GasData where
  payment : List ObjectRef
  owner : JsString
  price : ℕ
  budget : ℕ
  deriving DecidableEq

/-- `TransactionDataV1`. -/
structure TransactionData where
  kind : TransactionKind
  sender : JsString
  gasData : GasData
  expiration : TransactionExpiration

/-! ## Their types -/

section Types

variable (host : Host)

def Argument.index : Argument → ℕ
  | .gasCoin => 0
  | .input _ => 1
  | .result _ => 2
  | .nestedResult _ _ => 3

def argument : BcsType Argument :=
  tagged uleb typeError
    [constant .gasCoin,
      u16.variant .input fun | .input i => some i | _ => none,
      u16.variant .result fun | .result i => some i | _ => none,
      (u16.seq u16).variant (fun p => .nestedResult p.1 p.2)
        fun | .nestedResult i j => some (i, j) | _ => none]
    Argument.index

def objectRef : BcsType ObjectRef :=
  ((address host).seq (u64.seq (vector u8))).transform
    (fun ref => .ok (ref.objectId, ref.version, ref.digest)) fun p => ⟨p.1, p.2.1, p.2.2⟩

def sharedObjectRef : BcsType SharedObjectRef :=
  ((address host).seq (u64.seq bcsBool)).transform
    (fun ref => .ok (ref.objectId, ref.initialSharedVersion, ref.mutable))
    fun p => ⟨p.1, p.2.1, p.2.2⟩

def ObjectArg.index : ObjectArg → ℕ
  | .immOrOwned _ => 0
  | .shared _ => 1
  | .receiving _ => 2

def objectArg : BcsType ObjectArg :=
  tagged uleb typeError
    [(objectRef host).variant .immOrOwned fun | .immOrOwned ref => some ref | _ => none,
      (sharedObjectRef host).variant .shared fun | .shared ref => some ref | _ => none,
      (objectRef host).variant .receiving fun | .receiving ref => some ref | _ => none]
    ObjectArg.index

def CallArg.index : CallArg → ℕ
  | .pure _ => 0
  | .object _ => 1
  | .objVec _ => 2

def callArg : BcsType CallArg :=
  tagged uleb typeError
    [(vector u8).variant .pure fun | .pure bytes => some bytes | _ => none,
      (objectArg host).variant .object fun | .object arg => some arg | _ => none,
      (vector (objectArg host)).variant .objVec fun | .objVec args => some args | _ => none]
    CallArg.index

def TypeTag.index : TypeTag → ℕ
  | .bool => 0
  | .u8 => 1
  | .u64 => 2
  | .u128 => 3
  | .address => 4
  | .signer => 5
  | .vector _ => 6
  | .struct .. => 7
  | .u16 => 8
  | .u32 => 9
  | .u256 => 10

/-- `StructTag`. -/
def structTag (tag : BcsType TypeTag) :
    BcsType (JsString × JsString × JsString × List TypeTag) :=
  (address host).seq ((string host).seq ((string host).seq (vector tag)))

/-- `TypeTag`, from the type of the tags inside. -/
def typeTagOf (tag : BcsType TypeTag) : BcsType TypeTag :=
  tagged uleb typeError
    [constant .bool, constant .u8, constant .u64, constant .u128, constant .address,
      constant .signer,
      tag.variant .vector fun | .vector type => some type | _ => none,
      (structTag host tag).variant (fun p => .struct p.1 p.2.1 p.2.2.1 p.2.2.2)
        fun | .struct a m n ps => some (a, m, n, ps) | _ => none,
      constant .u16, constant .u32, constant .u256]
    TypeTag.index

/-- What the engine throws when functions call each other too deeply. -/
def stackError : String := "RangeError: Maximum call stack size exceeded"

/-- `TypeTag`.  The type refers to itself, and how deep depends on the stack there is. -/
def typeTag : ℕ → BcsType TypeTag
  | 0 => ⟨fun _ _ => .error stackError, fun _ => .error stackError⟩
  | stack + 1 => typeTagOf host (typeTag stack)

/-- `split('::')`, from a part of the first word on. -/
def splitColons : JsString → JsString → List JsString
  | word, u :: v :: s =>
    if u = unit ':' ∧ v = unit ':' then word :: splitColons [] s
    else splitColons (word ++ [u]) (v :: s)
  | word, [u] => [word ++ [u]]
  | word, [] => [word]

/-- The fields of `ProgrammableMoveCall`. -/
structure CallFields where
  package : JsString
  moduleName : Option JsString
  function : Option JsString
  typeArguments : List TypeTag
  arguments : List Argument

/-- The `input` of `ProgrammableMoveCall`.  Where the target has too few parts, some are
`undefined`. -/
def MoveCall.input (data : MoveCall) : Except String CallFields := do
  let parts := splitColons [] data.target
  let typeArguments ← data.typeArguments.mapM (parseFromStr host.lower true)
  return ⟨normalizeSuiAddress host.lower (parts.headD []), parts[1]?, parts[2]?, typeArguments,
    data.arguments⟩

/-- The `output`. -/
def CallFields.output (data : CallFields) : MoveCall where
  target := path data.package (data.moduleName.getD []) (data.function.getD [])
  typeArguments := data.typeArguments.map tagToString
  arguments := data.arguments

/-- A text that may be `undefined`, which `validate` refuses. -/
def definedString : BcsType (Option JsString) :=
  (string host).transform
    (fun
      | some s => .ok s
      | none => .error "Invalid string value: undefined. Expected string")
    some

def callFields (stack : ℕ) : BcsType CallFields :=
  ((address host).seq ((definedString host).seq ((definedString host).seq
    ((vector (typeTag host stack)).seq (vector argument))))).transform
    (fun c => .ok (c.package, c.moduleName, c.function, c.typeArguments, c.arguments))
    fun p => ⟨p.1, p.2.1, p.2.2.1, p.2.2.2.1, p.2.2.2.2⟩

def programmableMoveCall (stack : ℕ) : BcsType MoveCall :=
  (callFields host stack).transform (MoveCall.input host) CallFields.output

def optionEnum {α : Type} (type : BcsType α) : BcsType (Option α) :=
  tagged uleb typeError [constant none, type.variant some id]
    fun | none => 0 | some _ => 1

def Transaction.index : Transaction → ℕ
  | .moveCall _ => 0
  | .transferObjects .. => 1
  | .splitCoins .. => 2
  | .mergeCoins .. => 3
  | .publish .. => 4
  | .makeMoveVec .. => 5
  | .upgrade .. => 6

def transaction (stack : ℕ) : BcsType Transaction :=
  tagged uleb typeError
    [(programmableMoveCall host stack).variant .moveCall
        fun | .moveCall call => some call | _ => none,
      ((vector argument).seq argument).variant (fun p => .transferObjects p.1 p.2)
        fun | .transferObjects objects address => some (objects, address) | _ => none,
      (argument.seq (vector argument)).variant (fun p => .splitCoins p.1 p.2)
        fun | .splitCoins coin amounts => some (coin, amounts) | _ => none,
      (argument.seq (vector argument)).variant (fun p => .mergeCoins p.1 p.2)
        fun | .mergeCoins destination sources => some (destination, sources) | _ => none,
      ((vector (vector u8)).seq (vector (address host))).variant (fun p => .publish p.1 p.2)
        fun | .publish modules dependencies => some (modules, dependencies) | _ => none,
      ((optionEnum (typeTag host stack)).seq (vector argument)).variant
        (fun p => .makeMoveVec p.1 p.2)
        fun | .makeMoveVec type objects => some (type, objects) | _ => none,
      ((vector (vector u8)).seq ((vector (address host)).seq ((address host).seq argument))).variant
        (fun p => .upgrade p.1 p.2.1 p.2.2.1 p.2.2.2)
        fun
          | .upgrade modules dependencies packageId ticket =>
            some (modules, dependencies, packageId, ticket)
          | _ => none]
    Transaction.index

def programmableTransaction (stack : ℕ) : BcsType ProgrammableTransaction :=
  ((vector (callArg host)).seq (vector (transaction host stack))).transform
    (fun tx => .ok (tx.inputs, tx.transactions)) fun p => ⟨p.1, p.2⟩

def TransactionKind.index : TransactionKind → ℕ
  | .programmableTransaction _ => 0
  | .changeEpoch => 1
  | .genesis => 2
  | .consensusCommitPrologue => 3

def transactionKind (stack : ℕ) : BcsType TransactionKind :=
  tagged uleb typeError
    [(programmableTransaction host stack).variant .programmableTransaction
        fun | .programmableTransaction tx => some tx | _ => none,
      constant .changeEpoch, constant .genesis, constant .consensusCommitPrologue]
    TransactionKind.index

def TransactionExpiration.index : TransactionExpiration → ℕ
  | .none => 0
  | .epoch _ => 1

def transactionExpiration : BcsType TransactionExpiration :=
  tagged uleb typeError
    [constant .none, u64.variant .epoch fun | .epoch epoch => some epoch | _ => none]
    TransactionExpiration.index

def gasData : BcsType GasData :=
  ((vector (objectRef host)).seq ((address host).seq (u64.seq u64))).transform
    (fun gas => .ok (gas.payment, gas.owner, gas.price, gas.budget))
    fun p => ⟨p.1, p.2.1, p.2.2.1, p.2.2.2⟩

def transactionDataV1 (stack : ℕ) : BcsType TransactionData :=
  ((transactionKind host stack).seq ((address host).seq
    ((gasData host).seq transactionExpiration))).transform
    (fun data => .ok (data.kind, data.sender, data.gasData, data.expiration))
    fun p => ⟨p.1, p.2.1, p.2.2.1, p.2.2.2⟩

/-- `TransactionData`: so far there is one version. -/
def transactionData (stack : ℕ) : BcsType TransactionData :=
  tagged uleb typeError [transactionDataV1 host stack] fun _ => 0

end Types

/-! ## Blocks -/

structure GasConfig where
  budget : Option ℕ
  price : Option ℕ
  payment : Option (List ObjectRef)
  owner : Option JsString
  deriving DecidableEq

/-- `TransactionBlockDataBuilder`, with the values of its inputs. -/
structure TransactionBlockData where
  sender : Option JsString
  expiration : Option TransactionExpiration
  gasConfig : GasConfig
  inputs : List CallArg
  transactions : List Transaction

/-- `serialize`, into a buffer of the size it has when nothing is known of the value. -/
def serialize {α : Type} (type : BcsType α) (value : α) (maxSize : ℕ) :
    Except String (List UInt8) := do
  let w ← type.write value (Writer.new 1024 maxSize 1024)
  return w.buffer

/-- `parse`.  Bytes that are left over are not looked at. -/
def parse {α : Type} (type : BcsType α) (bytes : List UInt8) : Except String α := do
  let (value, _) ← type.read ⟨bytes, 0⟩
  return value

/-- `assert(input.value, BuilderCallArg)`. -/
def assertBuilderCallArg : CallArg → Except String CallArg
  | .pure bytes => .ok (.pure bytes)
  | .object arg => .ok (.object arg)
  | .objVec _ => .error "StructError"

/-- `prepareSuiAddress`: the `0x` that was put in front is removed. -/
def prepareSuiAddress (lower : LowerCase) (address : JsString) : JsString :=
  (normalizeSuiAddress lower address).drop 2

/-- A field that has to be there.  Empty texts and zero count as missing. -/
def required {α : Type} (missing : α → Prop) [DecidablePred missing] (error : String) :
    Option α → Except String α
  | some value => if missing value then .error error else .ok value
  | none => .error error

namespace TransactionBlockData

/-- The data that `build` encodes. -/
def toData (host : Host) (block : TransactionBlockData) : Except String TransactionData := do
  let inputs ← block.inputs.mapM assertBuilderCallArg
  let sender ← required (· = []) "Missing transaction sender" block.sender
  let budget ← required (· = 0) "Missing gas budget" block.gasConfig.budget
  let payment ← required (fun _ => False) "Missing gas payment" block.gasConfig.payment
  let price ← required (· = 0) "Missing gas price" block.gasConfig.price
  return {
    kind := .programmableTransaction ⟨inputs, block.transactions⟩
    sender := prepareSuiAddress host.lower sender
    gasData :=
      { payment, owner := prepareSuiAddress host.lower (block.gasConfig.owner.getD sender), price,
        budget }
    expiration := block.expiration.getD .none }

/-- `build`. -/
def build (host : Host) (stack maxSizeBytes : ℕ) (block : TransactionBlockData) :
    Except String (List UInt8) := do
  let data ← block.toData host
  serialize (transactionData host stack) data maxSizeBytes

/-- The block that data is decoded into. -/
def ofData (data : TransactionData) : Except String TransactionBlockData :=
  match data.kind with
  | .programmableTransaction tx =>
    .ok {
      sender := some data.sender
      expiration := some data.expiration
      gasConfig :=
        { budget := some data.gasData.budget, price := some data.gasData.price,
          payment := some data.gasData.payment, owner := some data.gasData.owner }
      inputs := tx.inputs
      transactions := tx.transactions }
  | _ => .error "Unable to deserialize from bytes."

/-- `fromBytes`. -/
def fromBytes (host : Host) (stack : ℕ) (bytes : List UInt8) :
    Except String TransactionBlockData := do
  let data ← parse (transactionData host stack) bytes
  ofData data

end TransactionBlockData

/-! ## Well-formed blocks -/

/-- A list that can be counted. -/
def Countable {α : Type} (l : List α) : Prop := l.length < 2 ^ 31

/-- A text for an address. -/
def HexAddress (val : JsString) : Prop := ∃ digits, HexText val digits

/-- An identifier of a module, a function or a type. -/
structure Name (s : JsString) : Prop where
  plain : Plain s
  ascii : Ascii s
  countable : Countable s

/-- A type that the stack is large enough for. -/
inductive WireTag (host : Host) : ℕ → TypeTag → Prop
  | primitive {stack : ℕ} {str : JsString} {tag : TypeTag} (h : primitive str = some tag) :
      WireTag host (stack + 1) tag
  | vector {stack : ℕ} {tag : TypeTag} (h : WireTag host stack tag) :
      WireTag host (stack + 1) (.vector tag)
  | struct {stack : ℕ} {address moduleName name : JsString} {params : List TypeTag}
      (haddress : HexAddress address) (hfull : normalizeSuiAddress host.lower address = address)
      (hmodule : Name moduleName) (hname : Name name) (hcount : Countable params)
      (hparams : ∀ x ∈ params, WireTag host stack x) :
      WireTag host (stack + 1) (.struct address moduleName name params)

def Argument.Valid : Argument → Prop
  | .gasCoin => True
  | .input index => index < 2 ^ 16
  | .result index => index < 2 ^ 16
  | .nestedResult index resultIndex => index < 2 ^ 16 ∧ resultIndex < 2 ^ 16

structure ObjectRef.Valid (ref : ObjectRef) : Prop where
  objectId : HexAddress ref.objectId
  version : ref.version < 2 ^ 64
  digest : Countable ref.digest

def ObjectArg.Valid : ObjectArg → Prop
  | .immOrOwned ref => ref.Valid
  | .shared ref => HexAddress ref.objectId ∧ ref.initialSharedVersion < 2 ^ 64
  | .receiving ref => ref.Valid

/-- The inputs `build` accepts. -/
def CallArg.Valid : CallArg → Prop
  | .pure bytes => Countable bytes
  | .object arg => arg.Valid
  | .objVec _ => False

def ValidArguments (args : List Argument) : Prop := Countable args ∧ ∀ arg ∈ args, arg.Valid

def ValidModules (modules : List (List UInt8)) (dependencies : List JsString) : Prop :=
  (Countable modules ∧ ∀ m ∈ modules, Countable m) ∧
    Countable dependencies ∧ ∀ d ∈ dependencies, HexAddress d

structure MoveCall.Valid (host : Host) (stack : ℕ) (call : MoveCall) : Prop where
  target : ∃ package moduleName function, call.target = path package moduleName function ∧
    HexAddress package ∧ Name moduleName ∧ Name function
  types : Countable call.typeArguments ∧ ∀ str ∈ call.typeArguments, ∃ tag,
    Spells host.lower true str tag ∧ WireTag host stack tag
  arguments : ValidArguments call.arguments

def Transaction.Valid (host : Host) (stack : ℕ) : Transaction → Prop
  | .moveCall call => call.Valid host stack
  | .transferObjects objects address => ValidArguments objects ∧ address.Valid
  | .splitCoins coin amounts => coin.Valid ∧ ValidArguments amounts
  | .mergeCoins destination sources => destination.Valid ∧ ValidArguments sources
  | .publish modules dependencies => ValidModules modules dependencies
  | .makeMoveVec type objects => (∀ tag ∈ type, WireTag host stack tag) ∧ ValidArguments objects
  | .upgrade modules dependencies packageId ticket =>
    ValidModules modules dependencies ∧ HexAddress packageId ∧ ticket.Valid

/-- Up to this number, the epoch of the expiration is exact. -/
def TransactionExpiration.Valid : TransactionExpiration → Prop
  | .none => True
  | .epoch n => n ≤ 2 ^ 53

structure TransactionBlockData.Valid (host : Host) (stack : ℕ) (block : TransactionBlockData) :
    Prop where
  sender : ∃ s ∈ block.sender, s ≠ [] ∧ HexAddress s
  budget : ∃ n ∈ block.gasConfig.budget, n ≠ 0 ∧ n < 2 ^ 64
  price : ∃ n ∈ block.gasConfig.price, n ≠ 0 ∧ n < 2 ^ 64
  payment : ∃ refs ∈ block.gasConfig.payment, Countable refs ∧ ∀ ref ∈ refs, ref.Valid
  owner : ∀ owner ∈ block.gasConfig.owner, HexAddress owner
  expiration : ∀ e ∈ block.expiration, e.Valid
  inputs : Countable block.inputs ∧ ∀ input ∈ block.inputs, input.Valid
  transactions : Countable block.transactions ∧
    ∀ tx ∈ block.transactions, tx.Valid host stack

/-! ## Normal forms -/

section Normal

variable (host : Host)

def ObjectRef.normal (ref : ObjectRef) : ObjectRef :=
  { ref with objectId := normalizeSuiAddress host.lower ref.objectId }

def ObjectArg.normal : ObjectArg → ObjectArg
  | .immOrOwned ref => .immOrOwned (ref.normal host)
  | .shared ref => .shared { ref with objectId := normalizeSuiAddress host.lower ref.objectId }
  | .receiving ref => .receiving (ref.normal host)

def CallArg.normal : CallArg → CallArg
  | .pure bytes => .pure bytes
  | .object arg => .object (arg.normal host)
  | .objVec args => .objVec (args.map (ObjectArg.normal host))

/-- A call with its target and its types as they are printed. -/
def MoveCall.normal (call : MoveCall) : MoveCall :=
  match call.input host with
  | .ok fields => fields.output
  | .error _ => call

def Transaction.normal : Transaction → Transaction
  | .moveCall call => .moveCall (call.normal host)
  | .publish modules dependencies =>
    .publish modules (dependencies.map (normalizeSuiAddress host.lower))
  | .upgrade modules dependencies packageId ticket =>
    .upgrade modules (dependencies.map (normalizeSuiAddress host.lower))
      (normalizeSuiAddress host.lower packageId) ticket
  | tx => tx

/-- The block as it is decoded. -/
def TransactionBlockData.normal (block : TransactionBlockData) : TransactionBlockData where
  sender := block.sender.map (normalizeSuiAddress host.lower)
  expiration := some (block.expiration.getD .none)
  gasConfig :=
    { budget := block.gasConfig.budget
      price := block.gasConfig.price
      payment := block.gasConfig.payment.map (List.map (ObjectRef.normal host))
      owner := (block.gasConfig.owner.or block.sender).map (normalizeSuiAddress host.lower) }
  inputs := block.inputs.map (CallArg.normal host)
  transactions := block.transactions.map (Transaction.normal host)

end Normal

/-! ## Each type reads back what it has written -/

section Faithful

variable {host : Host} {stack : ℕ}

/-- A variant, by its number. -/
theorem faithful_variant {α : Type} {c : BcsType α} {cases : List (BcsType α)} {indexOf : α → ℕ}
    {v o : α} (i : ℕ) (hc : cases[i]? = some c) (h : Faithful bcs c v o) (hv : indexOf v = i)
    (ho : indexOf o = i) (hi : i < 2 ^ 31) :
    Faithful bcs (tagged uleb typeError cases indexOf) v o :=
  Faithful.tagged hc hv ho (faithful_uleb hi) h

/-- A list whose members are read back as they are. -/
theorem faithful_list {α : Type} {type : BcsType α} {vs : List α} (hlen : Countable vs)
    (h : ∀ v ∈ vs, Faithful bcs type v v) : Faithful bcs (vector type) vs vs := by
  have hvector := @faithful_vector α type id vs hlen h
  rwa [List.map_id] at hvector

theorem faithful_argument {arg : Argument} (h : arg.Valid) : Faithful bcs argument arg arg := by
  cases arg with
  | gasCoin => exact faithful_variant 0 rfl (faithful_constant _) rfl rfl (by decide)
  | input i =>
    exact faithful_variant 1 rfl ((faithful_u16 h).variant rfl rfl) rfl rfl (by decide)
  | result i =>
    exact faithful_variant 2 rfl ((faithful_u16 h).variant rfl rfl) rfl rfl (by decide)
  | nestedResult i j =>
    have hpair := (faithful_u16 h.1).seq (faithful_u16 h.2)
    exact faithful_variant 3 rfl (hpair.variant rfl rfl) rfl rfl (by decide)

theorem faithful_arguments {args : List Argument} (h : ValidArguments args) :
    Faithful bcs (vector argument) args args :=
  faithful_list h.1 fun arg harg => faithful_argument (h.2 arg harg)

theorem faithful_u8s {bs : List UInt8} (h : Countable bs) : Faithful bcs (vector u8) bs bs :=
  faithful_list h fun b _ => faithful_u8 b

theorem faithful_hexAddress (host : Host) {val : JsString} (h : HexAddress val) :
    Faithful bcs (address host) val (normalizeSuiAddress host.lower val) := by
  obtain ⟨digits, h⟩ := h
  exact faithful_address host h

theorem faithful_objectRef (host : Host) {ref : ObjectRef} (h : ref.Valid) :
    Faithful bcs (objectRef host) ref (ref.normal host) :=
  ((faithful_hexAddress host h.objectId).seq
    ((faithful_u64 h.version).seq (faithful_u8s h.digest))).transform rfl rfl

theorem faithful_objectArg {arg : ObjectArg} (h : arg.Valid) :
    Faithful bcs (objectArg host) arg (arg.normal host) := by
  cases arg with
  | immOrOwned ref =>
    exact faithful_variant 0 rfl ((faithful_objectRef host h).variant rfl rfl) rfl rfl (by decide)
  | shared ref =>
    have hshared : Faithful bcs (sharedObjectRef host) ref
        { ref with objectId := normalizeSuiAddress host.lower ref.objectId } :=
      ((faithful_hexAddress host h.1).seq
        ((faithful_u64 h.2).seq (faithful_bcsBool _))).transform rfl rfl
    exact faithful_variant 1 rfl (hshared.variant rfl rfl) rfl rfl (by decide)
  | receiving ref =>
    exact faithful_variant 2 rfl ((faithful_objectRef host h).variant rfl rfl) rfl rfl (by decide)

theorem faithful_callArg (host : Host) {arg : CallArg} (h : arg.Valid) :
    Faithful bcs (callArg host) arg (arg.normal host) := by
  cases arg with
  | pure bs => exact faithful_variant 0 rfl ((faithful_u8s h).variant rfl rfl) rfl rfl (by decide)
  | object arg =>
    exact faithful_variant 1 rfl ((faithful_objectArg h).variant rfl rfl) rfl rfl (by decide)
  | objVec args => exact h.elim

theorem Name.faithful (host : Host) {s : JsString} (h : Name s) : Faithful bcs (string host) s s :=
  faithful_string host h.ascii h.countable

theorem Name.faithful_defined (host : Host) {s : JsString} (h : Name s) :
    Faithful bcs (definedString host) (some s) (some s) :=
  (h.faithful host).transform rfl rfl

/-- **Types are read back as they are.** -/
theorem WireTag.faithful {tag : TypeTag} (h : WireTag host stack tag) :
    Faithful bcs (typeTag host stack) tag tag := by
  induction h with
  | @primitive stack str tag h =>
    have hindex : ∀ p ∈ primitives, p.2.index < 2 ^ 31 := by decide
    refine faithful_variant tag.index ?_ (faithful_constant tag) rfl rfl
      (hindex _ (mem_of_primitive h))
    have hmem := mem_of_primitive h
    simp only [primitives, List.mem_cons, Prod.mk.injEq, List.not_mem_nil, or_false] at hmem
    rcases hmem with ⟨-, rfl⟩ | ⟨-, rfl⟩ | ⟨-, rfl⟩ | ⟨-, rfl⟩ | ⟨-, rfl⟩ | ⟨-, rfl⟩ | ⟨-, rfl⟩ |
      ⟨-, rfl⟩ | ⟨-, rfl⟩ <;> rfl
  | vector _ ih => exact faithful_variant 6 rfl (ih.variant rfl rfl) rfl rfl (by decide)
  | struct haddress hfull hmodule hname hcount _ ih =>
    have haddress' := faithful_hexAddress host haddress
    rw [hfull] at haddress'
    have hstruct := haddress'.seq ((hmodule.faithful host).seq ((hname.faithful host).seq
      (faithful_list hcount ih)))
    exact faithful_variant 7 rfl (hstruct.variant rfl rfl) rfl rfl (by decide)

/-! ### Calls -/

theorem splitColons_cons {u : UInt16} (hu : u ≠ unit ':') (word s : JsString) :
    splitColons word (u :: s) = splitColons (word ++ [u]) s := by
  cases s with
  | nil => simp [splitColons]
  | cons v s => rw [splitColons, if_neg fun h => hu h.1]

theorem splitColons_append {part : JsString} (h : ∀ u ∈ part, u ≠ unit ':') (word s : JsString) :
    splitColons word (part ++ s) = splitColons (word ++ part) s := by
  induction part generalizing word with
  | nil => simp
  | cons u part ih =>
    rw [List.cons_append, splitColons_cons (h u (by simp)), ih fun v hv => h v (by simp [hv])]
    simp

/-- The parts of a path. -/
theorem splitColons_path {package moduleName function : JsString}
    (hpackage : ∀ u ∈ package, u ≠ unit ':') (hmodule : Plain moduleName)
    (hfunction : Plain function) :
    splitColons [] (path package moduleName function) = [package, moduleName, function] := by
  have hcolons (word s : JsString) : splitColons word (js "::" ++ s) = word :: splitColons [] s :=
    if_pos ⟨rfl, rfl⟩
  have hend := splitColons_append (fun u hu => (hfunction.2 u hu).1) [] []
  rw [List.append_nil] at hend
  have htext : path package moduleName function =
      package ++ (js "::" ++ (moduleName ++ (js "::" ++ function))) := by
    simp [path]
  rw [htext, splitColons_append hpackage, hcolons, splitColons_append fun u hu => (hmodule.2 u hu).1,
    hcolons, hend]
  rfl

theorem HexText.ne_colon {val digits : JsString} (h : HexText val digits) :
    ∀ u ∈ val, u ≠ unit ':' := by
  have hdigits : ∀ u ∈ digits, u ≠ unit ':' := by
    have hall : ∀ u ∈ hexUnits, u ≠ unit ':' := by decide
    exact fun u hu => hall u (mem_hexUnits (h.hex u hu))
  have hpre : ∀ pre ∈ [js "0x", js "0X"], ∀ u ∈ pre, u ≠ unit ':' := by decide
  rcases h.spelled with rfl | rfl | rfl
  · exact hdigits
  · exact List.forall_mem_append.2 ⟨hpre _ (by simp), hdigits⟩
  · exact List.forall_mem_append.2 ⟨hpre _ (by simp), hdigits⟩

/-- An address in full length is one, and stays as it is. -/
theorem HexAddress.normal {val : JsString} (h : HexAddress val) (lower : LowerCase) :
    HexAddress (normalizeSuiAddress lower val) ∧
      normalizeSuiAddress lower (normalizeSuiAddress lower val) = normalizeSuiAddress lower val := by
  obtain ⟨digits, h⟩ := h
  have heq : normalizeSuiAddress lower val =
      js "0x" ++ padStart (digits.map asciiLower) 64 0x30 := by
    rw [normalizeSuiAddress_eq, h.typedDigits lower]
  obtain ⟨hfull, hidem⟩ := h.full lower (.inr rfl)
  rw [← heq] at hfull hidem
  exact ⟨⟨_, hfull⟩, hidem⟩

theorem exists_pairs {α β : Type} {P : α → β → Prop} {xs : List α} (h : ∀ x ∈ xs, ∃ y, P x y) :
    ∃ ps : List (α × β), xs = ps.map Prod.fst ∧ ∀ p ∈ ps, P p.1 p.2 := by
  induction xs with
  | nil => exact ⟨[], rfl, by simp⟩
  | cons x xs ih =>
    obtain ⟨y, hy⟩ := h x (by simp)
    obtain ⟨ps, hps, hall⟩ := ih fun z hz => h z (by simp [hz])
    exact ⟨(x, y) :: ps, by simp [hps], List.forall_mem_cons.2 ⟨hy, hall⟩⟩

/-- **A call is parsed into its fields, and these are printed as a call that is parsed
into the same.** -/
theorem MoveCall.Valid.input {call : MoveCall} (h : call.Valid host stack) :
    ∃ fields, call.input host = .ok fields ∧ fields.output.input host = .ok fields ∧
      Faithful bcs (callFields host stack) fields fields := by
  obtain ⟨package, moduleName, function, htarget, ⟨digits, hhex⟩, hmodule, hfunction⟩ := h.target
  obtain ⟨hcount, htypes⟩ := h.types
  obtain ⟨ps, hps, hall⟩ := exists_pairs htypes
  obtain ⟨⟨digits', hhex'⟩, hidem⟩ := HexAddress.normal ⟨digits, hhex⟩ host.lower
  have hparse : call.typeArguments.mapM (parseFromStr host.lower true) = .ok (ps.map Prod.snd) := by
    rw [hps]
    exact mapM_ok fun p hp => (hall p hp).1.parseFromStr
  have hprint : ((ps.map Prod.snd).map tagToString).mapM (parseFromStr host.lower true) =
      .ok (ps.map Prod.snd) := by
    rw [List.map_map]
    exact mapM_ok fun p hp => (hall p hp).1.canonical.spells.parseFromStr
  refine ⟨⟨normalizeSuiAddress host.lower package, some moduleName, some function, ps.map Prod.snd,
    call.arguments⟩, ?_, ?_, ?_⟩
  · simp only [MoveCall.input, htarget, hparse,
      splitColons_path hhex.ne_colon hmodule.plain hfunction.plain]
    rfl
  · simp only [MoveCall.input, CallFields.output, Option.getD_some, hprint,
      splitColons_path hhex'.ne_colon hmodule.plain hfunction.plain, List.headD_cons, hidem]
    rfl
  · have haddress := faithful_hexAddress host ⟨digits', hhex'⟩
    rw [hidem] at haddress
    have hcount' : Countable (ps.map Prod.snd) := by
      rw [Countable, List.length_map]
      rw [Countable, hps, List.length_map] at hcount
      exact hcount
    have htags : ∀ tag ∈ ps.map Prod.snd, Faithful bcs (typeTag host stack) tag tag := by
      intro tag htag
      obtain ⟨p, hp, rfl⟩ := List.mem_map.1 htag
      exact (hall p hp).2.faithful
    have hfields := haddress.seq ((hmodule.faithful_defined host).seq
      ((hfunction.faithful_defined host).seq
        ((faithful_list hcount' htags).seq (faithful_arguments h.arguments))))
    exact hfields.transform rfl rfl

theorem faithful_moveCall {call : MoveCall} (h : call.Valid host stack) :
    Faithful bcs (programmableMoveCall host stack) call (call.normal host) := by
  obtain ⟨fields, hin, hback, hfields⟩ := h.input
  have hnormal : call.normal host = fields.output := by
    rw [MoveCall.normal, hin]
  rw [hnormal]
  exact hfields.transform hin hback

/-! ### Transactions -/

theorem faithful_modules (host : Host) {modules : List (List UInt8)} {dependencies : List JsString}
    (h : ValidModules modules dependencies) :
    Faithful bcs (vector (vector u8)) modules modules ∧
      Faithful bcs (vector (address host)) dependencies
        (dependencies.map (normalizeSuiAddress host.lower)) :=
  ⟨faithful_list h.1.1 fun m hm => faithful_u8s (h.1.2 m hm),
    faithful_vector h.2.1 fun d hd => faithful_hexAddress host (h.2.2 d hd)⟩

theorem faithful_option {α : Type} {type : BcsType α} {v : Option α}
    (h : ∀ a ∈ v, Faithful bcs type a a) : Faithful bcs (optionEnum type) v v := by
  cases v with
  | none => exact faithful_variant 0 rfl (faithful_constant _) rfl rfl (by decide)
  | some a => exact faithful_variant 1 rfl ((h a rfl).variant rfl rfl) rfl rfl (by decide)

theorem faithful_transaction {tx : Transaction} (h : tx.Valid host stack) :
    Faithful bcs (transaction host stack) tx (tx.normal host) := by
  cases tx with
  | moveCall call =>
    exact faithful_variant 0 rfl ((faithful_moveCall h).variant rfl rfl) rfl rfl (by decide)
  | transferObjects objects address =>
    have hfields := (faithful_arguments h.1).seq (faithful_argument h.2)
    exact faithful_variant 1 rfl (hfields.variant rfl rfl) rfl rfl (by decide)
  | splitCoins coin amounts =>
    have hfields := (faithful_argument h.1).seq (faithful_arguments h.2)
    exact faithful_variant 2 rfl (hfields.variant rfl rfl) rfl rfl (by decide)
  | mergeCoins destination sources =>
    have hfields := (faithful_argument h.1).seq (faithful_arguments h.2)
    exact faithful_variant 3 rfl (hfields.variant rfl rfl) rfl rfl (by decide)
  | publish modules dependencies =>
    obtain ⟨hmodules, hdependencies⟩ := faithful_modules host h
    have hfields := hmodules.seq hdependencies
    exact faithful_variant 4 rfl (hfields.variant rfl rfl) rfl rfl (by decide)
  | makeMoveVec type objects =>
    have hfields := (faithful_option fun tag htag => (h.1 tag htag).faithful).seq
      (faithful_arguments h.2)
    exact faithful_variant 5 rfl (hfields.variant rfl rfl) rfl rfl (by decide)
  | upgrade modules dependencies packageId ticket =>
    obtain ⟨hmodules, hdependencies⟩ := faithful_modules host h.1
    have hfields := hmodules.seq (hdependencies.seq
      ((faithful_hexAddress host h.2.1).seq (faithful_argument h.2.2)))
    exact faithful_variant 6 rfl (hfields.variant rfl rfl) rfl rfl (by decide)

theorem faithful_kind {inputs : List CallArg} {transactions : List Transaction}
    (hinputs : Countable inputs ∧ ∀ input ∈ inputs, input.Valid)
    (htransactions : Countable transactions ∧ ∀ tx ∈ transactions, tx.Valid host stack) :
    Faithful bcs (transactionKind host stack) (.programmableTransaction ⟨inputs, transactions⟩)
      (.programmableTransaction ⟨inputs.map (CallArg.normal host),
        transactions.map (Transaction.normal host)⟩) := by
  have hinputs' := faithful_vector hinputs.1 fun input h =>
    faithful_callArg host (hinputs.2 input h)
  have htransactions' := faithful_vector htransactions.1 fun tx h =>
    faithful_transaction (htransactions.2 tx h)
  have htx : Faithful bcs (programmableTransaction host stack) ⟨inputs, transactions⟩
      ⟨inputs.map (CallArg.normal host), transactions.map (Transaction.normal host)⟩ :=
    (hinputs'.seq htransactions').transform rfl rfl
  exact faithful_variant 0 rfl (htx.variant rfl rfl) rfl rfl (by decide)

theorem faithful_expiration {e : TransactionExpiration} (h : e.Valid) :
    Faithful bcs transactionExpiration e e := by
  cases e with
  | none => exact faithful_variant 0 rfl (faithful_constant _) rfl rfl (by decide)
  | epoch n =>
    have hlt : n < 2 ^ 64 := lt_of_le_of_lt h (by decide)
    exact faithful_variant 1 rfl ((faithful_u64 hlt).variant rfl rfl) rfl rfl (by decide)

/-- The data of a block, from its parts. -/
theorem faithful_data {k ok : TransactionKind} {s so w wo : JsString} {p op : List ObjectRef}
    {price budget : ℕ} {e : TransactionExpiration}
    (hkind : Faithful bcs (transactionKind host stack) k ok)
    (hsender : Faithful bcs (address host) s so) (howner : Faithful bcs (address host) w wo)
    (hpayment : Faithful bcs (vector (objectRef host)) p op) (hprice : price < 2 ^ 64)
    (hbudget : budget < 2 ^ 64) (he : e.Valid) :
    Faithful bcs (transactionData host stack) ⟨k, s, ⟨p, w, price, budget⟩, e⟩
      ⟨ok, so, ⟨op, wo, price, budget⟩, e⟩ := by
  have hgas : Faithful bcs (gasData host) ⟨p, w, price, budget⟩ ⟨op, wo, price, budget⟩ :=
    (hpayment.seq (howner.seq ((faithful_u64 hprice).seq (faithful_u64 hbudget)))).transform rfl rfl
  have hdata : Faithful bcs (transactionDataV1 host stack) ⟨k, s, ⟨p, w, price, budget⟩, e⟩
      ⟨ok, so, ⟨op, wo, price, budget⟩, e⟩ :=
    (hkind.seq (hsender.seq (hgas.seq (faithful_expiration he)))).transform rfl rfl
  exact faithful_variant 0 rfl hdata rfl rfl (by decide)

/-! ### Blocks -/

theorem faithful_prepareSuiAddress (host : Host) {s : JsString} (h : HexAddress s) :
    Faithful bcs (address host) (prepareSuiAddress host.lower s)
      (normalizeSuiAddress host.lower s) := by
  obtain ⟨digits, h⟩ := h
  obtain ⟨hfull, hnormal⟩ := h.full host.lower (.inl rfl)
  have hprepare : prepareSuiAddress host.lower s =
      [] ++ padStart (digits.map asciiLower) 64 0x30 := by
    rw [prepareSuiAddress, normalizeSuiAddress_eq, h.typedDigits host.lower]
    rfl
  rw [hprepare, ← hnormal]
  exact faithful_address host hfull

theorem mapM_assertBuilderCallArg (host : Host) {inputs : List CallArg}
    (h : ∀ input ∈ inputs, input.Valid) :
    inputs.mapM assertBuilderCallArg = .ok inputs ∧
      (inputs.map (CallArg.normal host)).mapM assertBuilderCallArg =
        .ok (inputs.map (CallArg.normal host)) := by
  have hassert : ∀ input ∈ inputs, assertBuilderCallArg input = .ok input ∧
      assertBuilderCallArg (input.normal host) = .ok (input.normal host) := by
    intro input hinput
    cases input with
    | pure bs => exact ⟨rfl, rfl⟩
    | object arg => exact ⟨rfl, rfl⟩
    | objVec args => exact (h _ hinput).elim
  have hself := mapM_ok (f := assertBuilderCallArg) (g := id) (k := id) fun input hinput =>
    (hassert input hinput).1
  rw [List.map_id] at hself
  exact ⟨hself, mapM_ok fun input hinput => (hassert input hinput).2⟩

/-- **The data of a block and of its normal form are read back as the same, and that is
the normal form.** -/
theorem TransactionBlockData.Valid.toData {block : TransactionBlockData}
    (h : block.Valid host stack) :
    ∃ data data' o, block.toData host = .ok data ∧ (block.normal host).toData host = .ok data' ∧
      Faithful bcs (transactionData host stack) data o ∧
      Faithful bcs (transactionData host stack) data' o ∧ ofData o = .ok (block.normal host) := by
  obtain ⟨bsender, expiration, ⟨bbudget, bprice, bpayment, bowner⟩, inputs, transactions⟩ := block
  obtain ⟨sender, rfl, hne, hhex⟩ := h.sender
  obtain ⟨budget, rfl, hbudget, hbudget'⟩ := h.budget
  obtain ⟨price, rfl, hprice, hprice'⟩ := h.price
  obtain ⟨payment, rfl, hcount, hrefs⟩ := h.payment
  have howner : HexAddress (bowner.getD sender) := by
    cases bowner with
    | none => exact hhex
    | some owner => exact h.owner owner rfl
  have hexpiration : (expiration.getD .none).Valid := by
    cases expiration with
    | none => trivial
    | some e => exact h.expiration e rfl
  have hkind := faithful_kind h.inputs h.transactions
  have hpayment := faithful_vector hcount fun ref href => faithful_objectRef host (hrefs ref href)
  obtain ⟨hinputs, hinputs'⟩ := mapM_assertBuilderCallArg host h.inputs.2
  -- in the normal form, the addresses are in full length
  have hsender' := faithful_prepareSuiAddress host (hhex.normal host.lower).1
  have howner' := faithful_prepareSuiAddress host (howner.normal host.lower).1
  rw [(hhex.normal host.lower).2] at hsender'
  rw [(howner.normal host.lower).2] at howner'
  have hne' : normalizeSuiAddress host.lower sender ≠ [] := by
    simp [normalizeSuiAddress, js]
  have hor : (bowner.or (some sender)).map (normalizeSuiAddress host.lower) =
      some (normalizeSuiAddress host.lower (bowner.getD sender)) := by
    cases bowner <;> rfl
  refine ⟨_, _, _, ?_, ?_, faithful_data hkind (faithful_prepareSuiAddress host hhex)
    (faithful_prepareSuiAddress host howner) hpayment hprice' hbudget' hexpiration,
    faithful_data hkind.self hsender' howner' hpayment.self hprice' hbudget' hexpiration, ?_⟩
  · simp only [TransactionBlockData.toData, hinputs, required, bind_ok, if_neg hne, if_neg hbudget,
      if_neg hprice, if_false]
    rfl
  · simp only [TransactionBlockData.toData, TransactionBlockData.normal, hinputs', required, bind_ok,
      Option.map_some, if_neg hne', if_neg hbudget, if_neg hprice, if_false, hor]
    rfl
  · simp only [ofData, TransactionBlockData.normal, Option.map_some, hor]

/-- What is written is in the bytes, unless there are too many.  The buffer starts with
1024 bytes, and `maxSize` does not make it smaller. -/
theorem serialize_of_codes {α : Type} {type : BcsType α} {v o : α} {chunks : List (List UInt8)}
    (h : Codes bcs type v o chunks) (maxSize : ℕ) :
    (chunks.flatten.length ≤ max 1024 maxSize → serialize type v maxSize = .ok chunks.flatten) ∧
    (max 1024 maxSize < chunks.flatten.length →
      ∃ size requiredSize, max 1024 maxSize < requiredSize ∧ serialize type v maxSize =
        .error (Writer.tooLarge size (if maxSize = 0 then 1024 else maxSize) requiredSize)) := by
  have hsound : (Writer.new 1024 maxSize 1024).Sound := ⟨by simp [Writer.new], by simp [Writer.new]⟩
  have hlimit : (Writer.new 1024 maxSize 1024).limit = max 1024 maxSize := by
    simp only [Writer.limit, Writer.new]
    split <;> omega
  have hempty : (Writer.new 1024 maxSize 1024).buffer = [] := rfl
  simp only [serialize, h.write]
  constructor
  · intro hle
    obtain ⟨w, hput, hbuffer⟩ := hsound.putAll_ok h.chunk (by simpa [hlimit, hempty] using hle)
    rw [hput, bind_ok, hbuffer]
    rfl
  · intro hlt
    obtain ⟨size, requiredSize, hrequired, herror⟩ :=
      hsound.putAll_error h.chunk (by simpa [hlimit, hempty] using hlt)
    refine ⟨size, requiredSize, hlimit ▸ hrequired, ?_⟩
    rw [herror]
    rfl

theorem parse_of_codes {α : Type} {type : BcsType α} {v o : α} {chunks : List (List UInt8)}
    (h : Codes bcs type v o chunks) (rest : List UInt8) :
    parse type (chunks.flatten ++ rest) = .ok o := by
  rw [parse, h.read ⟨chunks.flatten ++ rest, 0⟩ rest rfl]
  rfl

/-- **A valid block is built into bytes that are decoded in its normal form.** -/
theorem TransactionBlockData.Valid.built {block : TransactionBlockData}
    (h : block.Valid host stack) :
    ∃ bytes, (∀ rest, TransactionBlockData.fromBytes host stack (bytes ++ rest) =
        .ok (block.normal host)) ∧
      ∀ maxSizeBytes,
        (bytes.length ≤ max 1024 maxSizeBytes →
          block.build host stack maxSizeBytes = .ok bytes) ∧
        (max 1024 maxSizeBytes < bytes.length →
          ∃ size requiredSize, max 1024 maxSizeBytes < requiredSize ∧
            block.build host stack maxSizeBytes = .error (Writer.tooLarge size
              (if maxSizeBytes = 0 then 1024 else maxSizeBytes) requiredSize)) := by
  obtain ⟨data, data', o, hdata, -, ⟨chunks, hcodes⟩, -, hblock⟩ := h.toData
  refine ⟨chunks.flatten, fun rest => ?_, fun maxSizeBytes => ?_⟩
  · rw [TransactionBlockData.fromBytes, parse_of_codes hcodes]
    exact hblock
  · have hbuild : block.build host stack maxSizeBytes =
        serialize (transactionData host stack) data maxSizeBytes := by
      rw [TransactionBlockData.build, hdata]
      rfl
    rw [hbuild]
    exact serialize_of_codes hcodes maxSizeBytes

/-- **And the normal form is built into the same bytes.** -/
theorem TransactionBlockData.Valid.build_normal {block : TransactionBlockData}
    (h : block.Valid host stack) (maxSizeBytes : ℕ) :
    (block.normal host).build host stack maxSizeBytes = block.build host stack maxSizeBytes := by
  obtain ⟨data, data', o, hdata, hdata', ⟨chunks, hcodes⟩, ⟨chunks', hcodes'⟩, -⟩ := h.toData
  -- both are written as what they are read back as
  have hwrite (w : Writer) : (transactionData host stack).write data' w =
      (transactionData host stack).write data w := by
    rw [hcodes'.write, ← hcodes'.rewrite, hcodes.rewrite, hcodes.write]
  simp only [TransactionBlockData.build, hdata, hdata', bind_ok, serialize, hwrite]

end Faithful

/-- **A block and its bytes.**  A valid block is built into bytes, or refused exactly if
there are more of them than both `maxSizeBytes` and 1024.  From the bytes, and whatever
comes after them, the block is decoded in its normal form: the addresses in full length,
and the types as they are printed.  And that is built into the same bytes again, or
refused alike. -/
theorem blockWire (host : Host) (stack : ℕ) (block : TransactionBlockData)
    (h : block.Valid host stack) :
    ∃ bytes, (∀ rest, TransactionBlockData.fromBytes host stack (bytes ++ rest) =
        .ok (block.normal host)) ∧
      ∀ maxSizeBytes,
        (bytes.length ≤ max 1024 maxSizeBytes →
          block.build host stack maxSizeBytes = .ok bytes) ∧
        (max 1024 maxSizeBytes < bytes.length →
          ∃ size requiredSize, max 1024 maxSizeBytes < requiredSize ∧
            block.build host stack maxSizeBytes = .error (Writer.tooLarge size
              (if maxSizeBytes = 0 then 1024 else maxSizeBytes) requiredSize)) ∧
        (block.normal host).build host stack maxSizeBytes =
          block.build host stack maxSizeBytes := by
  obtain ⟨bytes, hfrom, hbuild⟩ := h.built
  refine ⟨bytes, hfrom, fun maxSizeBytes => ?_⟩
  obtain ⟨hok, herror⟩ := hbuild maxSizeBytes
  exact ⟨hok, herror, h.build_normal maxSizeBytes⟩

/-! A purchase, as the Market page sends it: the item is a reference to an object, like the
coin, for this is what the builder makes of `txb.object`. -/

/-- A browser that knows ASCII only. -/
def Host.asciiOnly : Host where
  lower := .asciiOnly
  textDecode bs := bs.map UInt8.toUInt16
  textDecode_ascii s h := by
    rw [List.map_map]
    refine (List.map_congr_left fun u hu => ?_).trans (List.map_id s)
    have hu := h u hu
    rw [UInt16.lt_iff_toNat_lt] at hu
    simp only [UInt16.reduceToNat] at hu
    apply UInt16.toNat_inj.1
    simp only [Function.comp_apply, UInt8.toNat_toUInt16, UInt16.toNat_toUInt8, id]
    omega

def purchase : TransactionBlockData where
  sender := some (js "0x2a")
  expiration := none
  gasConfig := { budget := some 5000000, price := some 1000, payment := some [], owner := none }
  inputs :=
    [.object (.shared ⟨js "0x5", 3, true⟩), .object (.immOrOwned ⟨js "0x6", 8, [1, 2, 3]⟩),
      .object (.immOrOwned ⟨js "0xC", 9, [4, 5, 6]⟩)]
  transactions :=
    [.moveCall ⟨js "0x7::marketplace::buy_and_take",
      [js "0x7::book_nft::BookNFT", js "0x2::sui::SUI"], [.input 0, .input 1, .input 2]⟩]

theorem name_of_decide {s : JsString}
    (h : s ≠ [] ∧ (∀ u ∈ s, (u ≠ unit ':' ∧ u ≠ unit '<' ∧ u ≠ unit '>' ∧ u ≠ unit ',' ∧
      isSpace u = false) ∧ u < 0x80) ∧ s.length < 2 ^ 31) : Name s :=
  ⟨⟨h.1, fun u hu => (h.2.1 u hu).1⟩, fun u hu => (h.2.1 u hu).2, h.2.2⟩

theorem hexAddress_of_decide {digits : JsString}
    (h : (∀ u ∈ digits, (hexDigit u).isSome = true) ∧ digits.length ≤ 64) :
    HexAddress (js "0x" ++ digits) :=
  ⟨digits, .inr (.inl rfl), h.1, h.2⟩

/-- A type without parameters. -/
theorem spells_simple (host : Host) {digits moduleName name : JsString}
    (hdigits : (∀ u ∈ digits, (hexDigit u).isSome = true) ∧ digits.length ≤ 64)
    (hpackage : Name (js "0x" ++ digits)) (hmodule : Name moduleName) (hname : Name name) :
    ∃ tag, Spells host.lower true (path (js "0x" ++ digits) moduleName name) tag ∧
      WireTag host 1 tag := by
  have hhex := (hexAddress_of_decide hdigits).normal host.lower
  exact ⟨_, .struct hpackage.plain hpackage.ascii hmodule.plain hname.plain,
    .struct hhex.1 hhex.2 hmodule hname (by simp [Countable]) (by simp)⟩

theorem purchase_valid : purchase.Valid .asciiOnly 1 where
  sender := ⟨_, rfl, by decide, @hexAddress_of_decide (js "2a") (by decide)⟩
  budget := ⟨_, rfl, by decide, by decide⟩
  price := ⟨_, rfl, by decide, by decide⟩
  payment := ⟨_, rfl, by simp [Countable], by simp⟩
  owner := by simp [purchase]
  expiration := by simp [purchase]
  inputs := by
    refine ⟨by unfold Countable; decide, ?_⟩
    have h5 : HexAddress (js "0x5") := @hexAddress_of_decide (js "5") (by decide)
    have h6 : HexAddress (js "0x6") := @hexAddress_of_decide (js "6") (by decide)
    have hC : HexAddress (js "0xC") := @hexAddress_of_decide (js "C") (by decide)
    simp only [purchase, List.mem_cons, List.not_mem_nil, or_false]
    rintro input (rfl | rfl | rfl)
    · exact ⟨h5, by decide⟩
    · exact ⟨h6, by decide, by unfold Countable; decide⟩
    · exact ⟨hC, by decide, by unfold Countable; decide⟩
  transactions := by
    refine ⟨by unfold Countable; decide, ?_⟩
    have hmarketplace : Name (js "marketplace") := name_of_decide (by decide)
    have hbuy : Name (js "buy_and_take") := name_of_decide (by decide)
    have hnft := @spells_simple .asciiOnly (js "7") (js "book_nft") (js "BookNFT") (by decide)
      (name_of_decide (by decide)) (name_of_decide (by decide)) (name_of_decide (by decide))
    have hsui := @spells_simple .asciiOnly (js "2") (js "sui") (js "SUI") (by decide)
      (name_of_decide (by decide)) (name_of_decide (by decide)) (name_of_decide (by decide))
    simp only [purchase, List.mem_singleton]
    rintro tx rfl
    refine ⟨⟨js "0x7", _, _, by decide, @hexAddress_of_decide (js "7") (by decide), hmarketplace,
      hbuy⟩, ⟨by unfold Countable; decide, ?_⟩, by unfold Countable; decide, ?_⟩
    · simp only [List.mem_cons, List.not_mem_nil, or_false]
      rintro str (rfl | rfl)
      · exact hnft
      · exact hsui
    · simp only [List.mem_cons, List.not_mem_nil, or_false]
      rintro arg (rfl | rfl | rfl) <;> unfold Argument.Valid <;> decide

theorem blockWire_purchase :
    ∃ bytes, TransactionBlockData.fromBytes .asciiOnly 1 bytes = .ok (purchase.normal .asciiOnly) ∧
      (bytes.length ≤ 131072 → purchase.build .asciiOnly 1 131072 = .ok bytes) ∧
      (purchase.normal .asciiOnly).build .asciiOnly 1 131072 =
        purchase.build .asciiOnly 1 131072 := by
  obtain ⟨bytes, hfrom, hbuild⟩ := blockWire .asciiOnly 1 purchase purchase_valid
  obtain ⟨hok, -, hsame⟩ := hbuild 131072
  refine ⟨bytes, ?_, fun hle => hok (le_max_of_le_right hle), hsame⟩
  simpa using hfrom []

end BookMarket.Wire
