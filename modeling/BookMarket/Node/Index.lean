import BookMarket.Lib.DerivedTable
import BookMarket.Lib.Lists
import BookMarket.Dapp.MarketPage

/-!
# The index of a full node

A full node answers `getOwnedObjects`, `getDynamicFields` and
`getDynamicFieldObject` from two tables, `owner_index` and `dynamic_field_index`.
Neither is ever computed from the object store.  After each transaction the node
goes through the effects, which name the objects that were removed, changed and
created, and turns them into deletions and insertions.

* `TransactionEffects`, `Describes` — what the effects say about two stores.  They
  may name objects that did not change, such as unused inputs.
* `processObjectIndex`, `IndexStore.indexTx` — `process_object_index` of the
  authority, and the batch it leads to.
* `FieldStore` — what the index relies on about dynamic fields.
* `nodeIndex` — **after any transactions the tables are those of the store**, and no
  lookup on the way fails.
-/

namespace BookMarket

open Runs DerivedTable

variable {A : Type} [DecidableEq A]

/-! ## The index -/

/-- `ObjectInfo`, but for what names a version of the object: `version`, `digest` and
`previous_transaction`. -/
structure ObjectInfo (A : Type) where
  objectId : A
  type : TypeTag
  owner : Owner A
  deriving DecidableEq

/-- The two tables of `IndexStoreTables` that the pages of the site depend on.  They
are keyed by owner and object, and by parent and field. -/
structure IndexStore (A : Type) where
  ownerIndex : Finmap fun _ : A × A => ObjectInfo A
  dynamicFieldIndex : Finmap fun _ : A × A => DynamicFieldInfo A

/-- `TransactionEffects`: what became of which object, and the owner of those that
are there afterwards. -/
structure TransactionEffects (A : Type) where
  deleted : List A
  wrapped : List A
  mutated : List (A × Owner A)
  created : List (A × Owner A)
  unwrapped : List (A × Owner A)

inductive WriteKind
  | mutate
  | create
  | unwrap
  deriving DecidableEq, Repr

/-- `all_changed_objects`. -/
def TransactionEffects.allChangedObjects {A : Type} (effects : TransactionEffects A) :
    List (A × Owner A × WriteKind) :=
  effects.mutated.map (fun e => (e.1, e.2, .mutate)) ++
    effects.created.map (fun e => (e.1, e.2, .create)) ++
    effects.unwrapped.map fun e => (e.1, e.2, .unwrap)

structure ObjectIndexChanges (A : Type) where
  deletedOwners : List (A × A) := []
  deletedDynamicFields : List (A × A) := []
  newOwners : List ((A × A) × ObjectInfo A) := []
  newDynamicFields : List ((A × A) × DynamicFieldInfo A) := []

/-- `try_create_dynamic_field_info`: the entry of a field.  The object under it must
be among those the transaction has written.  The source then tries the database, at
the version this transaction gives to what it writes; what it did not write has an
older one. -/
def tryCreateDynamicFieldInfo (x : Stored A) (written : Objects A) :
    Option (DynamicFieldInfo A) :=
  match x.data with
  | .field name objectId => (written.lookup objectId).map fun _ => ⟨name, objectId⟩
  | _ => none

omit [DecidableEq A] in
/-- The old owner of an object has it no more. -/
def ObjectIndexChanges.delete (changes : ObjectIndexChanges A) (id : A) :
    Owner A → ObjectIndexChanges A
  | .addressOwner addr =>
    { changes with deletedOwners := changes.deletedOwners ++ [(addr, id)] }
  | .objectOwner objectId =>
    { changes with deletedDynamicFields := changes.deletedDynamicFields ++ [(objectId, id)] }
  | _ => changes

/-- The body of the first loop of `process_object_index`, over what was deleted or
wrapped.  There is no result where the source panics. -/
def processRemoved (o : Objects A) (changes : ObjectIndexChanges A) (id : A) :
    Option (ObjectIndexChanges A) :=
  (o.lookup id).map fun old => changes.delete id old.owner

/-- The second loop, over what was changed or created, first part of the body: an
object that was there before may have another owner now. -/
def processOld (o : Objects A) (changes : ObjectIndexChanges A) (id : A) (owner : Owner A) :
    WriteKind → Option (ObjectIndexChanges A)
  | .mutate =>
    (o.lookup id).map fun old =>
      if old.owner ≠ owner then changes.delete id old.owner else changes
  | .create | .unwrap => some changes

/-- Second part of the body: the entry the object has now. -/
def processNew (written : Objects A) (changes : ObjectIndexChanges A) (id : A) :
    Owner A → Option (ObjectIndexChanges A)
  | .addressOwner addr =>
    (written.lookup id).map fun new =>
      { changes with newOwners :=
          changes.newOwners ++ [((addr, id), ⟨id, new.data.type, .addressOwner addr⟩)] }
  | .objectOwner parent =>
    (written.lookup id).map fun new =>
      match tryCreateDynamicFieldInfo new written with
      | none => changes
      | some info =>
        { changes with newDynamicFields := changes.newDynamicFields ++ [((parent, id), info)] }
  | _ => some changes

def processChanged (o written : Objects A) (changes : ObjectIndexChanges A) :
    A × Owner A × WriteKind → Option (ObjectIndexChanges A)
  | (id, owner, kind) => do
    let changes ← processOld o changes id owner kind
    processNew written changes id owner

/-- `process_object_index`, before the store `o` is written to. -/
def processObjectIndex (o : Objects A) (effects : TransactionEffects A) (written : Objects A) :
    Option (ObjectIndexChanges A) := do
  let changes ← (effects.deleted ++ effects.wrapped).foldlM (processRemoved o) {}
  effects.allChangedObjects.foldlM (processChanged o written) changes

/-- The batch of `index_tx`, as far as it concerns the two tables. -/
def IndexStore.indexTx (indexes : IndexStore A) (changes : ObjectIndexChanges A) : IndexStore A where
  ownerIndex :=
    insertBatch (deleteBatch indexes.ownerIndex changes.deletedOwners) changes.newOwners
  dynamicFieldIndex :=
    insertBatch (deleteBatch indexes.dynamicFieldIndex changes.deletedDynamicFields)
      changes.newDynamicFields

/-! ## What effects say -/

/-- The effects, and the objects written, of a transaction that leads from the store
`o` to the store `o'`. -/
structure Describes (effects : TransactionEffects A) (written o o' : Objects A) : Prop where
  removed : ∀ {id}, id ∈ effects.deleted ++ effects.wrapped ↔
    (∃ x, o.lookup id = some x) ∧ o'.lookup id = none
  created : ∀ {id owner}, (id, owner) ∈ effects.created ++ effects.unwrapped ↔
    o.lookup id = none ∧ ∃ x, o'.lookup id = some x ∧ x.owner = owner
  mutated : ∀ {id owner}, (id, owner) ∈ effects.mutated →
    (∃ x, o.lookup id = some x) ∧ ∃ x, o'.lookup id = some x ∧ x.owner = owner
  /-- What has changed is named. -/
  changed : ∀ {id x x'}, o.lookup id = some x → o'.lookup id = some x' → x ≠ x' →
    (id, x'.owner) ∈ effects.mutated
  written : ∀ {id x}, written.lookup id = some x ↔
    o'.lookup id = some x ∧
      (id, x.owner) ∈ effects.mutated ++ effects.created ++ effects.unwrapped

/-- A full node: what it has executed, and its index. -/
structure Node (A : Type) where
  chain : Chain A
  indexes : IndexStore A

/-- A node executes a transaction, and indexes it. -/
inductive Node.Step [AddressSpace A] : Node A → Tx A → Node A → Prop
  | mk {n : Node A} {tx : Tx A} {effects : TransactionEffects A} {written : Objects A}
      {changes : ObjectIndexChanges A}
      (heffects : Describes effects written n.chain.objects (stepTx n.chain tx).1.objects)
      (hchanges : processObjectIndex n.chain.objects effects written = some changes) :
      Step n tx ⟨(stepTx n.chain tx).1, n.indexes.indexTx changes⟩

def Node.genesis [AddressSpace A] : Node A :=
  ⟨BookMarket.genesis, ⟨∅, ∅⟩⟩

/-! ## Where an object is in the tables -/

omit [DecidableEq A] in
/-- Everything an address owns is in the owner index. -/
def ownerPlacement : Placement A (Stored A) (A × A) (ObjectInfo A) where
  slot id x :=
    match x.owner with
    | .addressOwner a => some (a, id)
    | _ => none
  entry id x :=
    match x.owner with
    | .addressOwner a => some ((a, id), ⟨id, x.data.type, x.owner⟩)
    | _ => none
  slot_of_entry {id x k v} h := by
    obtain ⟨owner, d⟩ := x
    cases owner <;> simp_all
  slot_inj {id x id' x' k} h h' := by
    obtain ⟨owner, d⟩ := x
    obtain ⟨owner', d'⟩ := x'
    cases owner <;> cases owner' <;> grind

omit [DecidableEq A] in
/-- Of what an object owns, the fields are in the index of fields.  The objects under
the fields occupy keys there that no entry has. -/
def fieldPlacement : Placement A (Stored A) (A × A) (DynamicFieldInfo A) where
  slot id x :=
    match x.owner with
    | .objectOwner p => some (p, id)
    | _ => none
  entry id x :=
    match x with
    | ⟨.objectOwner p, .field name objectId⟩ => some ((p, id), ⟨name, objectId⟩)
    | _ => none
  slot_of_entry {id x k v} h := by
    obtain ⟨owner, d⟩ := x
    cases owner <;> cases d <;> simp_all
  slot_inj {id x id' x' k} h h' := by
    obtain ⟨owner, d⟩ := x
    obtain ⟨owner', d'⟩ := x'
    cases owner <;> cases owner' <;> grind

omit [DecidableEq A] in
theorem ownerPlacement_slot {id : A} {x : Stored A} {k : A × A} :
    ownerPlacement.slot id x = some k ↔ ∃ a, x.owner = .addressOwner a ∧ k = (a, id) := by
  obtain ⟨owner, d⟩ := x
  cases owner <;> simp [ownerPlacement, eq_comm]

omit [DecidableEq A] in
theorem ownerPlacement_entry {id : A} {x : Stored A} {k : A × A} {info : ObjectInfo A} :
    ownerPlacement.entry id x = some (k, info) ↔
      ∃ a, x.owner = .addressOwner a ∧ k = (a, id) ∧ info = ⟨id, x.data.type, x.owner⟩ := by
  obtain ⟨owner, d⟩ := x
  cases owner <;> simp [ownerPlacement, eq_comm]

omit [DecidableEq A] in
theorem fieldPlacement_slot {id : A} {x : Stored A} {k : A × A} :
    fieldPlacement.slot id x = some k ↔ ∃ p, x.owner = .objectOwner p ∧ k = (p, id) := by
  obtain ⟨owner, d⟩ := x
  cases owner <;> simp [fieldPlacement, eq_comm]

omit [DecidableEq A] in
theorem fieldPlacement_entry {id : A} {x : Stored A} {k : A × A} {info : DynamicFieldInfo A} :
    fieldPlacement.entry id x = some (k, info) ↔
      ∃ p, x = ⟨.objectOwner p, .field info.name info.objectId⟩ ∧ k = (p, id) := by
  obtain ⟨owner, d⟩ := x
  obtain ⟨name, objectId⟩ := info
  cases owner <;> cases d <;> simp only [fieldPlacement] <;> grind

/-! ## What the two loops collect -/

/-- A write to one of the tables. -/
inductive IndexWrite (A : Type)
  | deleteOwner (key : A × A)
  | deleteField (key : A × A)
  | insertOwner (key : A × A) (info : ObjectInfo A)
  | insertField (key : A × A) (info : DynamicFieldInfo A)

omit [DecidableEq A] in
def ObjectIndexChanges.Has (changes : ObjectIndexChanges A) : IndexWrite A → Prop
  | .deleteOwner key => key ∈ changes.deletedOwners
  | .deleteField key => key ∈ changes.deletedDynamicFields
  | .insertOwner key info => (key, info) ∈ changes.newOwners
  | .insertField key info => (key, info) ∈ changes.newDynamicFields

omit [DecidableEq A] in
/-- The object `id` leaves an owner. -/
def Deletes (id : A) (owner : Owner A) : IndexWrite A → Prop
  | .deleteOwner key => ∃ a, owner = .addressOwner a ∧ key = (a, id)
  | .deleteField key => ∃ p, owner = .objectOwner p ∧ key = (p, id)
  | _ => False

/-- The object `id` is there now as `x`. -/
def Inserts (written : Objects A) (id : A) (x : Stored A) : IndexWrite A → Prop
  | .insertOwner key info => ownerPlacement.entry id x = some (key, info)
  | .insertField key info => fieldPlacement.entry id x = some (key, info) ∧
      ∃ y, written.lookup info.objectId = some y
  | _ => False

/-- The writes are those of a change from the store `o` to the store `o'`. -/
def ObjectIndexChanges.Matches (changes : ObjectIndexChanges A) (written o o' : Objects A) : Prop :=
  ∀ w, changes.Has w ↔
    (∃ id old, o.lookup id = some old ∧ (o'.lookup id).map Stored.owner ≠ some old.owner ∧
      Deletes id old.owner w) ∨
    ∃ id x, written.lookup id = some x ∧ Inserts written id x w

omit [DecidableEq A] in
theorem ObjectIndexChanges.delete_has (changes : ObjectIndexChanges A) (id : A) (owner : Owner A)
    (w : IndexWrite A) :
    (changes.delete id owner).Has w ↔ changes.Has w ∨ Deletes id owner w := by
  cases owner <;> cases w <;> simp [ObjectIndexChanges.delete, ObjectIndexChanges.Has, Deletes]

theorem processRemoved_spec {o : Objects A} {id : A} {old : Stored A} (h : o.lookup id = some old)
    (changes : ObjectIndexChanges A) :
    ∃ changes', processRemoved o changes id = some changes' ∧
      ∀ w, changes'.Has w ↔ changes.Has w ∨ Deletes id old.owner w :=
  ⟨_, by rw [processRemoved, h]; rfl, fun w => changes.delete_has id old.owner w⟩

/-- The entry of a field, if there is one. -/
theorem tryCreateDynamicFieldInfo_eq_some {x : Stored A} {written : Objects A}
    {info : DynamicFieldInfo A} :
    tryCreateDynamicFieldInfo x written = some info ↔
      x.data = .field info.name info.objectId ∧ ∃ y, written.lookup info.objectId = some y := by
  obtain ⟨owner, d⟩ := x
  obtain ⟨name, objectId⟩ := info
  cases d with
  | field n v =>
    simp only [tryCreateDynamicFieldInfo, Option.map_eq_some_iff, DynamicFieldInfo.mk.injEq,
      Data.field.injEq]
    constructor
    · rintro ⟨y, hy, rfl, rfl⟩
      exact ⟨⟨rfl, rfl⟩, y, hy⟩
    · rintro ⟨⟨rfl, rfl⟩, y, hy⟩
      exact ⟨y, hy, rfl, rfl⟩
  | _ => simp [tryCreateDynamicFieldInfo]

/-- An object under another one has no place in the owner index. -/
theorem not_inserts_owner {written : Objects A} {id : A} {x : Stored A}
    (h : ∀ a, x.owner ≠ .addressOwner a) (key : A × A) (info : ObjectInfo A) :
    ¬ Inserts written id x (.insertOwner key info) := by
  intro he
  obtain ⟨a, ha, -⟩ := ownerPlacement_entry.1 he
  exact h a ha

/-- Only an object under another one has a place in the index of fields. -/
theorem not_inserts_field {written : Objects A} {id : A} {x : Stored A}
    (h : ∀ p, x.owner ≠ .objectOwner p) (key : A × A) (info : DynamicFieldInfo A) :
    ¬ Inserts written id x (.insertField key info) := by
  rintro ⟨he, -⟩
  obtain ⟨p, rfl, -⟩ := fieldPlacement_entry.1 he
  exact h p rfl

/-- The entry of an object under another one. -/
theorem inserts_field_iff {written : Objects A} {id p : A} {x : Stored A}
    (h : x.owner = .objectOwner p) (key : A × A) (info : DynamicFieldInfo A) :
    Inserts written id x (.insertField key info) ↔
      key = (p, id) ∧ tryCreateDynamicFieldInfo x written = some info := by
  obtain ⟨owner, d⟩ := x
  obtain rfl : owner = .objectOwner p := h
  rw [tryCreateDynamicFieldInfo_eq_some, Inserts, fieldPlacement_entry]
  constructor
  · rintro ⟨⟨p', hx, rfl⟩, hy⟩
    cases hx
    exact ⟨rfl, rfl, hy⟩
  · rintro ⟨rfl, hd, hy⟩
    exact ⟨⟨p, congrArg _ hd, rfl⟩, hy⟩

theorem processNew_spec {written : Objects A} {id : A} {x : Stored A}
    (h : written.lookup id = some x) (changes : ObjectIndexChanges A) :
    ∃ changes', processNew written changes id x.owner = some changes' ∧
      ∀ w, changes'.Has w ↔ changes.Has w ∨ Inserts written id x w := by
  cases hx : x.owner with
  | addressOwner a =>
    refine ⟨_, by rw [processNew, h]; rfl, fun w => ?_⟩
    cases w with
    | insertOwner key info => simp [ObjectIndexChanges.Has, Inserts, ownerPlacement_entry, hx]
    | insertField key info =>
      rw [or_iff_left (not_inserts_field (by simp [hx]) key info)]
      rfl
    | _ => simp [ObjectIndexChanges.Has, Inserts]
  | objectOwner p =>
    cases hinfo : tryCreateDynamicFieldInfo x written with
    | none =>
      refine ⟨changes, by simp [processNew, h, hinfo], fun w => (or_iff_left ?_).symm⟩
      cases w with
      | insertOwner key info => exact not_inserts_owner (by simp [hx]) key info
      | insertField key info => simp [inserts_field_iff hx, hinfo]
      | _ => exact not_false
    | some info' =>
      refine ⟨{ changes with
        newDynamicFields := changes.newDynamicFields ++ [((p, id), info')] },
        by simp [processNew, h, hinfo], fun w => ?_⟩
      cases w with
      | insertOwner key info =>
        rw [or_iff_left (not_inserts_owner (by simp [hx]) key info)]
        rfl
      | insertField key info =>
        simp [inserts_field_iff hx, hinfo, ObjectIndexChanges.Has, eq_comm]
      | _ => simp [ObjectIndexChanges.Has, Inserts]
  | _ =>
    refine ⟨changes, rfl, fun w => (or_iff_left ?_).symm⟩
    cases w with
    | insertOwner key info => exact not_inserts_owner (by simp [hx]) key info
    | insertField key info => exact not_inserts_field (by simp [hx]) key info
    | _ => exact not_false

theorem processOld_spec {o : Objects A} {id : A} {kind : WriteKind}
    (h : kind = .mutate → ∃ old, o.lookup id = some old) (owner : Owner A)
    (changes : ObjectIndexChanges A) :
    ∃ changes', processOld o changes id owner kind = some changes' ∧
      ∀ w, changes'.Has w ↔ changes.Has w ∨ (kind = .mutate ∧ ∃ old, o.lookup id = some old ∧
        old.owner ≠ owner ∧ Deletes id old.owner w) := by
  cases kind with
  | mutate =>
    obtain ⟨old, hold⟩ := h rfl
    refine ⟨_, by rw [processOld, hold]; rfl, fun w => ?_⟩
    by_cases howner : old.owner = owner
    · simp [hold, howner]
    · simp [hold, howner, ObjectIndexChanges.delete_has]
  | _ => exact ⟨changes, rfl, by simp⟩

/-! ## What the effects lead to -/

namespace Describes

variable {effects : TransactionEffects A} {written o o' : Objects A}

omit [DecidableEq A] in
theorem mem_allChangedObjects {id : A} {owner : Owner A} {kind : WriteKind} :
    (id, owner, kind) ∈ effects.allChangedObjects ↔
      (kind = .mutate ∧ (id, owner) ∈ effects.mutated) ∨
      (kind = .create ∧ (id, owner) ∈ effects.created) ∨
      (kind = .unwrap ∧ (id, owner) ∈ effects.unwrapped) := by
  simp [TransactionEffects.allChangedObjects, eq_comm, and_comm]

/-- What the effects name as there is there, and has been written. -/
theorem written_of_mem (h : Describes effects written o o') {id : A} {owner : Owner A}
    (hmem : (id, owner) ∈ effects.mutated ++ effects.created ++ effects.unwrapped) :
    ∃ x, written.lookup id = some x ∧ x.owner = owner := by
  have hx : ∃ x, o'.lookup id = some x ∧ x.owner = owner := by
    rw [List.append_assoc] at hmem
    rcases List.mem_append.1 hmem with hm | hm
    · exact (h.mutated hm).2
    · exact (h.created.1 hm).2
  obtain ⟨x, hx, rfl⟩ := hx
  exact ⟨x, h.written.2 ⟨hx, hmem⟩, rfl⟩

/-- What is new, or has changed, has been written. -/
theorem written_of_ne (h : Describes effects written o o') {id : A} {x : Stored A}
    (hx : o'.lookup id = some x) (hne : o.lookup id ≠ some x) : written.lookup id = some x := by
  refine h.written.2 ⟨hx, ?_⟩
  cases hold : o.lookup id with
  | none =>
    have hmem := h.created.2 ⟨hold, x, hx, rfl⟩
    rw [List.append_assoc]
    exact List.mem_append_right _ hmem
  | some old =>
    have hmem := h.changed hold hx fun he => hne (by rw [hold, he])
    exact List.mem_append_left _ (List.mem_append_left _ hmem)

/-- The first loop. -/
theorem removed_loop (h : Describes effects written o o') (changes : ObjectIndexChanges A) :
    ∃ changes', (effects.deleted ++ effects.wrapped).foldlM (processRemoved o) changes =
        some changes' ∧
      ∀ w, changes'.Has w ↔ changes.Has w ∨ ∃ id ∈ effects.deleted ++ effects.wrapped,
        ∃ old, o.lookup id = some old ∧ Deletes id old.owner w := by
  refine Lists.foldlM_collect (fun changes id hid => ?_) changes
  obtain ⟨⟨old, hold⟩, -⟩ := h.removed.1 hid
  simpa [hold] using processRemoved_spec hold changes

/-- The second loop. -/
theorem changed_loop (h : Describes effects written o o') (changes : ObjectIndexChanges A) :
    ∃ changes', effects.allChangedObjects.foldlM (processChanged o written) changes =
        some changes' ∧
      ∀ w, changes'.Has w ↔ changes.Has w ∨ ∃ e ∈ effects.allChangedObjects,
        (e.2.2 = .mutate ∧ ∃ old, o.lookup e.1 = some old ∧ old.owner ≠ e.2.1 ∧
          Deletes e.1 old.owner w) ∨
        ∃ x, written.lookup e.1 = some x ∧ Inserts written e.1 x w := by
  refine Lists.foldlM_collect (fun changes e he => ?_) changes
  obtain ⟨id, owner, kind⟩ := e
  have hmem := mem_allChangedObjects.1 he
  have hold : kind = .mutate → ∃ old, o.lookup id = some old := by
    rintro rfl
    exact (h.mutated (by simpa using hmem)).1
  have hany : (id, owner) ∈ effects.mutated ++ effects.created ++ effects.unwrapped := by
    rcases hmem with ⟨-, hm⟩ | ⟨-, hm⟩ | ⟨-, hm⟩ <;> simp [hm]
  obtain ⟨x, hx, rfl⟩ := h.written_of_mem hany
  obtain ⟨changes1, h1, hhas1⟩ := processOld_spec hold x.owner changes
  obtain ⟨changes2, h2, hhas2⟩ := processNew_spec hx changes1
  refine ⟨changes2, by simp only [processChanged, h1]; exact h2, fun w => ?_⟩
  simp [hhas2, hhas1, hx, or_assoc]

/-- **What `process_object_index` makes of the effects.**  It does not fail; an object
is deleted from the tables exactly if it has left its owner, and inserted exactly if
it has been written. -/
theorem processObjectIndex_spec (h : Describes effects written o o') :
    ∃ changes, processObjectIndex o effects written = some changes ∧
      changes.Matches written o o' := by
  obtain ⟨changes1, h1, hhas1⟩ := h.removed_loop {}
  obtain ⟨changes2, h2, hhas2⟩ := h.changed_loop changes1
  refine ⟨changes2, by rw [processObjectIndex, h1]; exact h2, fun w => ?_⟩
  have hempty : ¬ ({} : ObjectIndexChanges A).Has w := by
    cases w <;> exact List.not_mem_nil
  rw [hhas2, hhas1, or_iff_right hempty]
  constructor
  · rintro (⟨id, hid, old, hold, hw⟩ | ⟨⟨id, owner, kind⟩, hmem, hw⟩)
    · refine Or.inl ⟨id, old, hold, ?_, hw⟩
      simp [(h.removed.1 hid).2]
    · rcases hw with ⟨rfl, old, hold, hne, hw⟩ | ⟨x, hx, hw⟩
      · obtain ⟨-, x, hx, rfl⟩ := h.mutated (by simpa [mem_allChangedObjects] using hmem)
        exact Or.inl ⟨id, old, hold, by simpa [hx] using Ne.symm hne, hw⟩
      · exact Or.inr ⟨id, x, hx, hw⟩
  · rintro (⟨id, old, hold, hne, hw⟩ | ⟨id, x, hx, hw⟩)
    · cases hx : o'.lookup id with
      | none => exact Or.inl ⟨id, h.removed.2 ⟨⟨old, hold⟩, hx⟩, old, hold, hw⟩
      | some x =>
        have howner : old.owner ≠ x.owner := fun he => hne (by rw [hx, he]; rfl)
        have hmem := h.changed hold hx fun he => howner (congrArg Stored.owner he)
        exact Or.inr ⟨(id, x.owner, .mutate), by simp [mem_allChangedObjects, hmem],
          Or.inl ⟨rfl, old, hold, howner, hw⟩⟩
    · have hmem := (h.written.1 hx).2
      have hkind : ∃ kind, (id, x.owner, kind) ∈ effects.allChangedObjects := by
        simp only [mem_allChangedObjects]
        rcases List.mem_append.1 hmem with hm | hm
        · rcases List.mem_append.1 hm with hm | hm
          · exact ⟨.mutate, Or.inl ⟨rfl, hm⟩⟩
          · exact ⟨.create, Or.inr (Or.inl ⟨rfl, hm⟩)⟩
        · exact ⟨.unwrap, Or.inr (Or.inr ⟨rfl, hm⟩)⟩
      obtain ⟨kind, hkind⟩ := hkind
      exact Or.inr ⟨_, hkind, Or.inr ⟨x, hx, hw⟩⟩

end Describes

/-! ## Fields in a store -/

variable [AddressSpace A]

/-- What the index of fields relies on.  A field has the identifier that is derived
from its parent and its name, and what has such an identifier is that field; and a
field and the object under it go together. -/
structure FieldStore (o : Objects A) : Prop where
  hash : ∀ {p n x}, o.lookup (hashTypeAndKey p n) = some x → ∃ v, x = ⟨.objectOwner p, .field n v⟩
  field : ∀ {id owner n v}, o.lookup id = some ⟨owner, .field n v⟩ →
    ∃ p, owner = .objectOwner p ∧ id = hashTypeAndKey p n
  child : ∀ {id owner n v}, o.lookup id = some ⟨owner, .field n v⟩ →
    ∃ d, o.lookup v = some ⟨.objectOwner id, d⟩ ∧ ∀ n v, d ≠ .field n v
  parent : ∀ {id v d}, o.lookup v = some ⟨.objectOwner id, d⟩ → (∀ n v, d ≠ .field n v) →
    ∃ owner n, o.lookup id = some ⟨owner, .field n v⟩

theorem Layout.fieldStore {ctx : TxContext A} {w : World A} {o : Objects A}
    (hl : Layout ctx w o) : FieldStore o where
  hash h := by
    rcases hl.piece_of_hash h with ⟨k, L, rfl, -, rfl⟩ | ⟨m, k, L, rfl, -, -, rfl⟩ |
      ⟨s, c, rfl, -, rfl⟩ <;> exact ⟨_, rfl⟩
  field h := by
    rcases hl.lookup_iff.1 h with ⟨hw, hx⟩ | ⟨hw, hx⟩ | ⟨hw, hx⟩ | ⟨hw, hm, hx⟩
    · cases hx
    · cases hx
    · cases hx <;> exact ⟨_, rfl, rfl⟩
    · cases hx
      exact ⟨_, rfl, rfl⟩
  child h := by
    rcases hl.lookup_iff.1 h with ⟨hw, hx⟩ | ⟨hw, hx⟩ | ⟨hw, hx⟩ | ⟨hw, hm, hx⟩
    · cases hx
    · cases hx
    · cases hx with
      | field => exact ⟨_, hl.lookup_piece hw .listing, by simp⟩
      | inner => exact ⟨_, hl.lookup_piece hw .item, by simp⟩
    · cases hx
      exact ⟨_, hl.lookup_profitsPiece hw hm .coin, by simp⟩
  parent h hd := by
    rcases hl.lookup_iff.1 h with ⟨hw, hx⟩ | ⟨hw, hx⟩ | ⟨hw, hx⟩ | ⟨hw, hm, hx⟩
    · injection hx with howner
      exact absurd howner.symm (Holder.toOwner_ne_objectOwner _ _)
    · cases hx
    · cases hx with
      | field => exact absurd rfl (hd _ _)
      | listing => exact ⟨_, _, hl.lookup_piece hw .field⟩
      | inner => exact absurd rfl (hd _ _)
      | item => exact ⟨_, _, hl.lookup_piece hw .inner⟩
    · cases hx with
      | field => exact absurd rfl (hd _ _)
      | coin => exact ⟨_, _, hl.lookup_profitsPiece hw hm .field⟩

namespace Describes

variable {effects : TransactionEffects A} {written o o' : Objects A}

/-- **A transaction that writes to a field writes to the object under it.** -/
theorem child_written (h : Describes effects written o o') (hf : FieldStore o)
    (hf' : FieldStore o') {id : A} {owner : Owner A} {n : Name A} {v : A}
    (hx : o'.lookup id = some ⟨owner, .field n v⟩) (hne : o.lookup id ≠ some ⟨owner, .field n v⟩) :
    ∃ y, written.lookup v = some y := by
  obtain ⟨d, hv, hd⟩ := hf'.child hx
  refine ⟨_, h.written_of_ne hv fun hold => hne ?_⟩
  -- otherwise the field was there before, and the same
  obtain ⟨p, rfl, rfl⟩ := hf'.field hx
  obtain ⟨owner0, n0, hfield⟩ := hf.parent hold hd
  obtain ⟨v0, hx0⟩ := hf.hash hfield
  cases hx0
  exact hfield

variable {changes : ObjectIndexChanges A}

omit [AddressSpace A] in
theorem ownerCovers (h : Describes effects written o o') (hhas : changes.Matches written o o') :
    Covers ownerPlacement o o' changes.deletedOwners changes.newOwners where
  dead {k} hk := by
    rcases (hhas (.deleteOwner k)).1 hk with ⟨id, old, hold, hne, hdel⟩ | ⟨id, x, -, hins⟩
    · exact ⟨id, old, hold, ownerPlacement_slot.2 hdel, fun he => hne (by rw [he]; rfl)⟩
    · exact hins.elim
  gone {id x k v} hx hentry hne := by
    obtain ⟨a, howner, rfl, -⟩ := ownerPlacement_entry.1 hentry
    by_cases hsame : (o'.lookup id).map Stored.owner = some x.owner
    · right
      obtain ⟨x', hx', howner'⟩ := Option.map_eq_some_iff.1 hsame
      have hwritten := h.written_of_ne hx' fun he => hne (by rw [← hx, he, hx'])
      refine ⟨⟨id, x'.data.type, x'.owner⟩, (hhas (.insertOwner _ _)).2 (Or.inr ⟨id, x', hwritten, ?_⟩)⟩
      exact ownerPlacement_entry.2 ⟨a, howner'.trans howner, rfl, rfl⟩
    · left
      exact (hhas (.deleteOwner _)).2 (Or.inl ⟨id, x, hx, hsame, a, howner, rfl⟩)
  sound {k v} hkv := by
    rcases (hhas (.insertOwner k v)).1 hkv with ⟨id, old, -, -, hdel⟩ | ⟨id, x, hx, hins⟩
    · exact hdel.elim
    · exact ⟨id, x, (h.written.1 hx).1, hins⟩
  complete {id x k v} hx hentry hne :=
    (hhas (.insertOwner k v)).2 (Or.inr ⟨id, x, h.written_of_ne hx hne, hentry⟩)

theorem fieldCovers (h : Describes effects written o o') (hf : FieldStore o)
    (hf' : FieldStore o') (hhas : changes.Matches written o o') :
    Covers fieldPlacement o o' changes.deletedDynamicFields changes.newDynamicFields where
  dead {k} hk := by
    rcases (hhas (.deleteField k)).1 hk with ⟨id, old, hold, hne, hdel⟩ | ⟨id, x, -, hins⟩
    · exact ⟨id, old, hold, fieldPlacement_slot.2 hdel, fun he => hne (by rw [he]; rfl)⟩
    · exact hins.elim
  gone {id x k v} hx hentry hne := by
    obtain ⟨p, rfl, rfl⟩ := fieldPlacement_entry.1 hentry
    by_cases hsame : (o'.lookup id).map Stored.owner = some (.objectOwner p)
    · right
      obtain ⟨x', hx', howner'⟩ := Option.map_eq_some_iff.1 hsame
      -- it is the same field, with another object under it
      obtain ⟨p', hp', rfl⟩ := hf.field hx
      cases hp'
      obtain ⟨v', rfl⟩ := hf'.hash hx'
      have hne' : o.lookup (hashTypeAndKey p v.name) ≠ some ⟨.objectOwner p, .field v.name v'⟩ :=
        fun he => hne (by rw [← hx, he, hx'])
      refine ⟨⟨v.name, v'⟩, (hhas (.insertField _ _)).2
        (Or.inr ⟨_, _, h.written_of_ne hx' hne', ?_, h.child_written hf hf' hx' hne'⟩)⟩
      exact fieldPlacement_entry.2 ⟨p, rfl, rfl⟩
    · left
      exact (hhas (.deleteField _)).2 (Or.inl ⟨id, _, hx, hsame, p, rfl, rfl⟩)
  sound {k v} hkv := by
    rcases (hhas (.insertField k v)).1 hkv with ⟨id, old, -, -, hdel⟩ | ⟨id, x, hx, hins⟩
    · exact hdel.elim
    · exact ⟨id, x, (h.written.1 hx).1, hins.1⟩
  complete {id x k v} hx hentry hne := by
    obtain ⟨p, rfl, -⟩ := fieldPlacement_entry.1 hentry
    exact (hhas (.insertField k v)).2
      (Or.inr ⟨id, _, h.written_of_ne hx hne, hentry, h.child_written hf hf' hx hne⟩)

end Describes

/-! ## Runs of a node -/

/-- The tables are those of the store. -/
structure Node.Synced (n : Node A) : Prop where
  owners : Holds ownerPlacement n.chain.objects n.indexes.ownerIndex
  fields : Holds fieldPlacement n.chain.objects n.indexes.dynamicFieldIndex

omit [AddressSpace A] in
theorem Node.Synced.owner_iff {n : Node A} (h : n.Synced) {a id : A} {info : ObjectInfo A} :
    n.indexes.ownerIndex.lookup (a, id) = some info ↔
      ∃ x, n.chain.objects.lookup id = some x ∧ x.owner = .addressOwner a ∧
        info = ⟨id, x.data.type, .addressOwner a⟩ := by
  rw [h.owners]
  constructor
  · rintro ⟨id', x, hx, he⟩
    obtain ⟨a', howner, hk, rfl⟩ := ownerPlacement_entry.1 he
    cases hk
    exact ⟨x, hx, howner, by rw [howner]⟩
  · rintro ⟨x, hx, howner, rfl⟩
    exact ⟨id, x, hx, ownerPlacement_entry.2 ⟨a, howner, rfl, by rw [howner]⟩⟩

omit [AddressSpace A] in
theorem Node.Synced.field_iff {n : Node A} (h : n.Synced) {p id : A} {info : DynamicFieldInfo A} :
    n.indexes.dynamicFieldIndex.lookup (p, id) = some info ↔
      n.chain.objects.lookup id = some ⟨.objectOwner p, .field info.name info.objectId⟩ := by
  rw [h.fields]
  constructor
  · rintro ⟨id', x, hx, he⟩
    obtain ⟨p', rfl, hk⟩ := fieldPlacement_entry.1 he
    cases hk
    exact hx
  · intro hx
    exact ⟨id, _, hx, fieldPlacement_entry.2 ⟨p, rfl, rfl⟩⟩

omit [AddressSpace A] in
/-- Any change has effects: every object that is there afterwards may be named as
changed. -/
theorem exists_describes (o o' : Objects A) : ∃ effects, Describes effects o' o o' := by
  have hmem {o : Objects A} {id : A} : id ∈ o.keys.toList ↔ ∃ x, o.lookup id = some x := by
    rw [Finset.mem_toList, Finmap.mem_keys, ← Option.isSome_iff_exists, Finmap.lookup_isSome]
  have hnamed (p : A → Bool) {id : A} {owner : Owner A} :
      (id, owner) ∈ (o'.keys.toList.filter p).filterMap
          (fun id => (o'.lookup id).map fun x => (id, x.owner)) ↔
        p id = true ∧ ∃ x, o'.lookup id = some x ∧ x.owner = owner := by
    simp only [List.mem_filterMap, List.mem_filter, hmem, Option.map_eq_some_iff, Prod.mk.injEq]
    constructor
    · rintro ⟨id', ⟨-, hp⟩, x, hx, rfl, rfl⟩
      exact ⟨hp, x, hx, rfl⟩
    · rintro ⟨hp, x, hx, rfl⟩
      exact ⟨id, ⟨⟨x, hx⟩, hp⟩, x, hx, rfl, rfl⟩
  refine ⟨⟨o.keys.toList.filter fun id => (o'.lookup id).isNone, [],
    (o'.keys.toList.filter fun id => (o.lookup id).isSome).filterMap
      fun id => (o'.lookup id).map fun x => (id, x.owner),
    (o'.keys.toList.filter fun id => (o.lookup id).isNone).filterMap
      fun id => (o'.lookup id).map fun x => (id, x.owner), []⟩, ?_, ?_, ?_, ?_, ?_⟩
  · intro id
    simp [hmem]
  · intro id owner
    simp [hnamed]
  · intro id owner h
    obtain ⟨hold, hx⟩ := (hnamed _).1 h
    exact ⟨Option.isSome_iff_exists.1 hold, hx⟩
  · intro id x x' hx hx' _
    exact (hnamed _).2 ⟨by rw [hx]; rfl, x', hx', rfl⟩
  · intro id x
    refine ⟨fun hx => ⟨hx, ?_⟩, fun h => h.1⟩
    cases hold : o.lookup id with
    | none => exact List.mem_append_left _ (List.mem_append_right _
        ((hnamed _).2 ⟨by rw [hold]; rfl, x, hx, rfl⟩))
    | some old => exact List.mem_append_left _ (List.mem_append_left _
        ((hnamed _).2 ⟨by rw [hold]; rfl, x, hx, rfl⟩))

/-- A step keeps the tables. -/
theorem Node.Step.synced {n n' : Node A} {tx : Tx A} {h : List (Entry A)}
    (hc : History h n.chain) (hr : n.chain.running = false) (hstep : Node.Step n tx n')
    (hn : n.Synced) : n'.Synced := by
  obtain ⟨heffects, hchanges⟩ := hstep
  obtain ⟨changes', hsome, hmatches⟩ := heffects.processObjectIndex_spec
  cases hchanges.symm.trans hsome
  have hf := hc.layout.fieldStore
  have hf' := (hc.afterStep hr tx).1.layout.fieldStore
  exact ⟨hn.owners.batch (heffects.ownerCovers hmatches),
    hn.fields.batch (heffects.fieldCovers hf hf' hmatches)⟩

/-- A node can always go on. -/
theorem Node.exists_step (n : Node A) (tx : Tx A) : ∃ n', Node.Step n tx n' := by
  obtain ⟨effects, heffects⟩ := exists_describes n.chain.objects (stepTx n.chain tx).1.objects
  obtain ⟨changes, hchanges, -⟩ := heffects.processObjectIndex_spec
  exact ⟨_, .mk heffects hchanges⟩

/-- The chain of a node, and its tables, after a run. -/
theorem Node.run_synced {txs : List (Tx A)} {n : Node A} (hrun : Run Node.Step .genesis txs n) :
    n.chain = (run BookMarket.genesis txs).1 ∧ n.Synced := by
  induction hrun with
  | nil => exact ⟨rfl, holds_empty, holds_empty⟩
  | @snoc txs n n' tx _ hstep ih =>
    obtain ⟨hchain, hsync⟩ := ih
    obtain ⟨hc, hr⟩ := run_history (A := A) txs
    rw [← hchain] at hc hr
    refine ⟨?_, hstep.synced hc hr hsync⟩
    cases hstep
    rw [run_concat, ← hchain]

theorem Node.exists_run (txs : List (Tx A)) : ∃ n, Run Node.Step Node.genesis txs n := by
  induction txs using List.reverseRecOn with
  | nil => exact ⟨_, .nil⟩
  | append_singleton txs tx ih =>
    obtain ⟨n, hrun⟩ := ih
    obtain ⟨n', hstep⟩ := n.exists_step tx
    exact ⟨n', .snoc hrun hstep⟩

/-- **After any transactions the tables are those of the store.**  A node that executes
transactions, and goes through the effects of each, whatever else these name, never
fails at it; and then it has an entry for exactly those objects that belong to an
address, with their types, and for exactly those that are dynamic fields, with their
names and what is under them. -/
theorem nodeIndex (txs : List (Tx A)) :
    (∃ n, Run Node.Step Node.genesis txs n) ∧
    ∀ n, Run Node.Step Node.genesis txs n →
      n.chain = (run (genesis : Chain A) txs).1 ∧
      (∀ a id info, n.indexes.ownerIndex.lookup (a, id) = some info ↔
        ∃ x, n.chain.objects.lookup id = some x ∧ x.owner = .addressOwner a ∧
          info = ⟨id, x.data.type, .addressOwner a⟩) ∧
      (∀ p id info, n.indexes.dynamicFieldIndex.lookup (p, id) = some info ↔
        n.chain.objects.lookup id = some ⟨.objectOwner p, .field info.name info.objectId⟩) ∧
      ∀ tx effects written,
        Describes effects written n.chain.objects (stepTx n.chain tx).1.objects →
        ∃ changes, processObjectIndex n.chain.objects effects written = some changes ∧
          Node.Step n tx ⟨(stepTx n.chain tx).1, n.indexes.indexTx changes⟩ := by
  refine ⟨Node.exists_run txs, fun n hrun => ?_⟩
  obtain ⟨hchain, hsync⟩ := Node.run_synced hrun
  refine ⟨hchain, fun a id info => hsync.owner_iff, fun p id info => hsync.field_iff, ?_⟩
  intro tx effects written heffects
  obtain ⟨changes, hchanges, -⟩ := heffects.processObjectIndex_spec
  exact ⟨changes, hchanges, .mk heffects hchanges⟩

end BookMarket
