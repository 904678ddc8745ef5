import BookMarket.Sui.Object

/-!
# Dynamic fields and dynamic object fields

`sui::dynamic_field` and `sui::dynamic_object_field`, over the natives of the
object runtime.  A dynamic object field is two objects: a `Field` owned by the
parent, whose identifier is the hash of the parent and the typed name, and the
stored object itself, owned by that `Field`.

* `readChildObject` … `addChildObject` — the natives.  A child is found by its
  identifier alone; finding it under another owner is an error of the runtime,
  finding it with another type is `EFieldTypeMismatch`.
* `DynamicField` — `add`, `field_info`, `remove`, `exists_with_type`.
* `DynamicObjectField` — `add`, `borrow_mut`, `remove`, `exists_`, built on them.
-/

namespace BookMarket

variable {A : Type} [DecidableEq A]

/-! ## The natives of the object runtime -/

/-- The child object with this identifier, when there is one.
`ChildObjectResolver::read_child_object` refuses to read a child that another
owner holds. -/
def readChildObject (o : Objects A) (parent id : A) : Except Abort (Option (Data A)) :=
  match o.lookup id with
  | none => .ok none
  | some x =>
    if x.owner = .objectOwner parent then .ok (some x.data) else .error .invalidChildObjectAccess

def hasChildObject (o : Objects A) (parent id : A) : Except Abort Bool := do
  let child ← readChildObject o parent id
  return child.isSome

def hasChildObjectWithTy (t : TypeTag) (o : Objects A) (parent id : A) : Except Abort Bool := do
  let child ← readChildObject o parent id
  return child.any fun d => d.type = t

/-- `borrow_child_object` and `borrow_child_object_mut`. -/
def borrowChildObject (t : TypeTag) (o : Objects A) (parent id : A) : Except Abort (Data A) := do
  match ← readChildObject o parent id with
  | none => throw .eFieldDoesNotExist
  | some d => if d.type = t then return d else throw .eFieldTypeMismatch

def removeChildObject (t : TypeTag) (o : Objects A) (parent id : A) :
    Except Abort (Obj A × Objects A) := do
  let d ← borrowChildObject t o parent id
  return (⟨id, d⟩, o.erase id)

def addChildObject (o : Objects A) (parent : A) (child : Obj A) : Except Abort (Objects A) :=
  match o.lookup child.id with
  | some _ => .error .duplicateChildObject
  | none => .ok (o.insert child.id ⟨.objectOwner parent, child.data⟩)

/-- Writing through a `&mut` into a stored object: the owner stays. -/
def writeRef (o : Objects A) (id : A) (d : Data A) : Objects A :=
  match o.lookup id with
  | some x => o.insert id { x with data := d }
  | none => o

variable [AddressSpace A]

/-! ## `sui::dynamic_field` with an `ID` as the value -/

namespace DynamicField

def add (o : Objects A) (object : A) (name : Name A) (value : A) : Except Abort (Objects A) := do
  let hash := hashTypeAndKey object name
  if ← hasChildObject o object hash then
    throw .eFieldAlreadyExists
  addChildObject o object ⟨hash, .field name value⟩

/-- The identifier of the `Field` object and the identifier it stores. -/
def fieldInfo (o : Objects A) (object : A) (name : Name A) : Except Abort (A × A) := do
  let hash := hashTypeAndKey object name
  match ← borrowChildObject (.field name.type) o object hash with
  | .field _ value => return (hash, value)
  | _ => throw .eFieldTypeMismatch

def remove (o : Objects A) (object : A) (name : Name A) : Except Abort (A × Objects A) := do
  let hash := hashTypeAndKey object name
  let (field, o) ← removeChildObject (.field name.type) o object hash
  match field.data with
  | .field _ value => return (value, o)
  | _ => throw .eFieldTypeMismatch

def existsWithType (o : Objects A) (object : A) (name : Name A) : Except Abort Bool :=
  hasChildObjectWithTy (.field name.type) o object (hashTypeAndKey object name)

end DynamicField

/-! ## `sui::dynamic_object_field` -/

namespace DynamicObjectField

def add (o : Objects A) (object : A) (name : Name A) (value : Obj A) :
    Except Abort (Objects A) := do
  let o ← DynamicField.add o object name value.id
  let (field, _) ← DynamicField.fieldInfo o object name
  addChildObject o field value

/-- The reference is the identifier to write back to, with the value read. -/
def borrowMut (t : TypeTag) (o : Objects A) (object : A) (name : Name A) :
    Except Abort (Obj A) := do
  let (field, valueId) ← DynamicField.fieldInfo o object name
  let d ← borrowChildObject t o field valueId
  return ⟨valueId, d⟩

def remove (t : TypeTag) (o : Objects A) (object : A) (name : Name A) :
    Except Abort (Obj A × Objects A) := do
  let (field, valueId) ← DynamicField.fieldInfo o object name
  let (value, o) ← removeChildObject t o field valueId
  let (_, o) ← DynamicField.remove o object name
  return (value, o)

def exists_ (o : Objects A) (object : A) (name : Name A) : Except Abort Bool :=
  DynamicField.existsWithType o object name

end DynamicObjectField

/-! ## What the operations do to the store

One lemma for each operation, from what is stored at the two identifiers it
looks at: the `Field` and the object behind it. -/

section Specs

variable {o : Objects A} {p v : A} {n : Name A} {d : Data A}

omit [AddressSpace A] in
theorem borrowChildObject_eq (t : TypeTag) (hv : o.lookup v = some ⟨.objectOwner p, d⟩) :
    borrowChildObject t o p v = if d.type = t then .ok d else .error .eFieldTypeMismatch := by
  simp [borrowChildObject, readChildObject, hv]

omit [AddressSpace A] in
theorem borrowChildObject_none (t : TypeTag) (hv : o.lookup v = none) :
    borrowChildObject t o p v = .error .eFieldDoesNotExist := by
  simp [borrowChildObject, readChildObject, hv]

namespace DynamicField

theorem add_eq (hf : o.lookup (hashTypeAndKey p n) = none) :
    add o p n v = .ok (o.insert (hashTypeAndKey p n) ⟨.objectOwner p, .field n v⟩) := by
  simp [add, hasChildObject, readChildObject, addChildObject, hf]

theorem fieldInfo_eq (hf : o.lookup (hashTypeAndKey p n) = some ⟨.objectOwner p, .field n v⟩) :
    fieldInfo o p n = .ok (hashTypeAndKey p n, v) := by
  simp [fieldInfo, borrowChildObject_eq _ hf]

theorem fieldInfo_none (hf : o.lookup (hashTypeAndKey p n) = none) :
    fieldInfo o p n = .error .eFieldDoesNotExist := by
  simp [fieldInfo, borrowChildObject_none _ hf]

theorem remove_eq (hf : o.lookup (hashTypeAndKey p n) = some ⟨.objectOwner p, .field n v⟩) :
    remove o p n = .ok (v, o.erase (hashTypeAndKey p n)) := by
  simp [remove, removeChildObject, borrowChildObject_eq _ hf]

end DynamicField

namespace DynamicObjectField

/-- `add` writes the `Field` and hangs the object below it. -/
theorem add_eq {value : Obj A} (hf : o.lookup (hashTypeAndKey p n) = none)
    (hv : o.lookup value.id = none) (hne : value.id ≠ hashTypeAndKey p n) :
    add o p n value = .ok ((o.insert (hashTypeAndKey p n)
      ⟨.objectOwner p, .field n value.id⟩).insert
        value.id ⟨.objectOwner (hashTypeAndKey p n), value.data⟩) := by
  have hinfo := DynamicField.fieldInfo_eq
    (o := o.insert (hashTypeAndKey p n) ⟨.objectOwner p, .field n value.id⟩)
    (p := p) (n := n) (v := value.id) (Finmap.lookup_insert _)
  simp [add, DynamicField.add_eq hf, hinfo, addChildObject, Finmap.lookup_insert_of_ne _ hne, hv]

/-- `remove` on a name that is not there. -/
theorem remove_none (t : TypeTag) (hf : o.lookup (hashTypeAndKey p n) = none) :
    remove t o p n = .error .eFieldDoesNotExist := by
  simp [remove, DynamicField.fieldInfo_none hf]

/-- `remove` checks the type of the stored object, then takes the object and
its `Field` out of the store. -/
theorem remove_eq (t : TypeTag)
    (hf : o.lookup (hashTypeAndKey p n) = some ⟨.objectOwner p, .field n v⟩)
    (hv : o.lookup v = some ⟨.objectOwner (hashTypeAndKey p n), d⟩)
    (hne : v ≠ hashTypeAndKey p n) :
    remove t o p n = if d.type = t then .ok (⟨v, d⟩, (o.erase v).erase (hashTypeAndKey p n))
      else .error .eFieldTypeMismatch := by
  have hf' : (o.erase v).lookup (hashTypeAndKey p n) = some ⟨.objectOwner p, .field n v⟩ := by
    rw [Finmap.lookup_erase_ne hne.symm, hf]
  by_cases ht : d.type = t
  · simp [remove, DynamicField.fieldInfo_eq hf, removeChildObject, borrowChildObject_eq t hv, ht,
      DynamicField.remove_eq hf']
  · simp [remove, DynamicField.fieldInfo_eq hf, removeChildObject, borrowChildObject_eq t hv, ht]

theorem exists_eq_true (hf : o.lookup (hashTypeAndKey p n) = some ⟨.objectOwner p, .field n v⟩) :
    exists_ o p n = .ok true := by
  simp [exists_, DynamicField.existsWithType, hasChildObjectWithTy, readChildObject, hf]

theorem exists_eq_false (hf : o.lookup (hashTypeAndKey p n) = none) :
    exists_ o p n = .ok false := by
  simp [exists_, DynamicField.existsWithType, hasChildObjectWithTy, readChildObject, hf]

theorem borrowMut_eq
    (hf : o.lookup (hashTypeAndKey p n) = some ⟨.objectOwner p, .field n v⟩)
    (hv : o.lookup v = some ⟨.objectOwner (hashTypeAndKey p n), d⟩) :
    borrowMut d.type o p n = .ok ⟨v, d⟩ := by
  simp [borrowMut, DynamicField.fieldInfo_eq hf, borrowChildObject_eq d.type hv]

end DynamicObjectField

end Specs

end BookMarket
