import BookMarket.Lib.Cursor
import BookMarket.Node.Index
import BookMarket.Dapp.Paging
import Mathlib.Data.Nat.Pairing

/-!
# The answers of a full node

How a node answers `getDynamicFields` and `getOwnedObjects` from its tables, page by
page, and what a client gets that follows the cursors, as `getAllDynamicFields` and
`getAllOwnedObjects` of the kiosk SDK do.  The node goes on executing transactions
between two requests.

* `ObjectIds` — identifiers in the order of their bytes.
* `getDynamicFieldsIterator`, `getOwnerObjectsIterator` — the iterators of the index.
* `rpcGetDynamicFields`, `rpcGetOwnedObjects`, `rpcGetDynamicFieldObject` — the methods
  of the RPC.
* `nodeFields`, `nodeObjects` — **a node at rest answers as the pages of the site are
  modelled to be answered**, and following the cursors gives everything.
* `fieldsBetweenTransactions` — **what a client gets of the fields while the node goes
  on**: nothing twice, in each page what were fields at the time of its request, and of
  what is there all the time everything but what a request left out in the place of a
  cursor that was gone.
-/

namespace BookMarket

open Runs Cursor

/-! ## Identifiers and their order -/

/-- Object identifiers with the order of their bytes.  The two ends of the order bound
what the index reads; no hash is there. -/
class ObjectIds (A : Type) extends AddressSpace A, LinearOrder A where
  /-- `ObjectID::MAX` -/
  maxId : A
  /-- `derive_dynamic_field_id` for the name itself, which is not wrapped: where a
  dynamic field would be that is no dynamic object field. -/
  plainFieldId : A → Name A → A
  zero_le : ∀ a : A, zero ≤ a
  hash_lt_maxId : ∀ {p k}, hashTypeAndKey p k < maxId
  deriveId_ne_zero : ∀ {d n}, deriveId d n ≠ zero
  plainFieldId_ne_hash : ∀ {p k p' k'}, plainFieldId p k ≠ hashTypeAndKey p' k'

export ObjectIds (maxId plainFieldId)

variable {A : Type} [ObjectIds A]

/-! ## The iterators of the index -/

/-- `get_dynamic_fields_iterator`: the part of the table between the first and the last
key of the object, from the cursor on.  The upper bound is exclusive. -/
def getDynamicFieldsIterator (indexes : IndexStore A) (object : A) (cursor : Option A) :
    List (A × DynamicFieldInfo A) :=
  let lower := toLex (object, (AddressSpace.zero : A))
  let upper := toLex (object, (maxId : A))
  let bounded := (rows toLex indexes.dynamicFieldIndex).filter fun r =>
    lower ≤ lexKey r ∧ lexKey r < upper
  let sought := bounded.dropWhile fun r => lexKey r < toLex (object, cursor.getD AddressSpace.zero)
  ((sought.drop cursor.isSome.toNat).takeWhile fun r => r.1.1 = object).map fun r => (r.1.2, r.2)

/-- `get_owner_objects_iterator`. -/
def getOwnerObjectsIterator (indexes : IndexStore A) (owner startingObjectId : A)
    (filter : Option (ObjectInfo A → Bool)) : List (ObjectInfo A) :=
  let sought := (rows toLex indexes.ownerIndex).dropWhile fun r =>
    lexKey r < toLex (owner, startingObjectId)
  let taken := (sought.drop (startingObjectId != AddressSpace.zero).toNat).takeWhile fun r =>
    r.1.1 = owner
  (taken.filter fun r => filter.all fun f => f r.2).map fun r => r.2

/-- `get_owner_objects`. -/
def getOwnerObjects (indexes : IndexStore A) (owner : A) (cursor : Option A) (limit : ℕ)
    (filter : Option (ObjectInfo A → Bool)) : List (ObjectInfo A) :=
  (getOwnerObjectsIterator indexes owner (cursor.getD AddressSpace.zero) filter).take limit

/-- `get_dynamic_field_object_id`: the name itself is tried first, and then the name of
a dynamic object field. -/
def getDynamicFieldObjectId (indexes : IndexStore A) (object : A) (name : Name A) : Option A :=
  match indexes.dynamicFieldIndex.lookup (object, plainFieldId object name) with
  | some info => some info.objectId
  | none =>
    (indexes.dynamicFieldIndex.lookup (object, hashTypeAndKey object name)).map
      DynamicFieldInfo.objectId

/-! ## The methods of the RPC -/

/-- `get_dynamic_fields`, for a server with `QUERY_MAX_RESULT_LIMIT` at `max`. -/
def rpcGetDynamicFields (max : ℕ) (n : Node A) (parentObjectId : A) (limit : Option ℕ)
    (cursor : Option A) : Cursor.Page (DynamicFieldInfo A) A :=
  let limit := capPageLimit max limit
  let data := (getDynamicFieldsIterator n.indexes parentObjectId cursor).take (limit + 1)
  { hasNextPage := decide (limit < data.length)
    nextCursor := ((data.take limit).getLast?.map Prod.fst).or cursor
    data := (data.take limit).map Prod.snd }

/-- `validate_limit` -/
def validateLimit (limit : Option ℕ) (max : ℕ) : Except String ℕ :=
  match limit with
  | some l =>
    if l > max then
      .error ("Page size limit " ++ toString l ++ " exceeds max limit " ++ toString max)
    else if l = 0 then
      .error "Page size limit cannot be smaller than 1"
    else
      .ok l
  | none => .ok max

/-- `get_owned_objects`, with what the index knows of the objects. -/
def rpcGetOwnedObjects (max : ℕ) (n : Node A) (address : A)
    (filter : Option (ObjectInfo A → Bool)) (limit : Option ℕ) (cursor : Option A) :
    Except String (Cursor.Page (ObjectInfo A) A) := do
  let limit ← validateLimit limit max
  let objects := getOwnerObjects n.indexes address cursor (limit + 1) filter
  return { hasNextPage := decide (limit < objects.length)
           nextCursor := ((objects.take limit).getLast?.map ObjectInfo.objectId).or cursor
           data := objects.take limit }

/-- `get_dynamic_field_object` -/
def rpcGetDynamicFieldObject (n : Node A) (parentObjectId : A) (name : Name A) : Option (Obj A) :=
  (getDynamicFieldObjectId n.indexes parentObjectId name).bind (getObject n.chain.objects)

/-! ## The clients -/

/-- `getAllDynamicFields`.  The requests are served by the node as it is at the time. -/
def getAllDynamicFields (max : ℕ) (parentId : A) (limit : Option ℕ) (ns : List (Node A)) :
    Except String (List (Cursor.Page (DynamicFieldInfo A) A)) :=
  follow (fun n cursor => .ok (rpcGetDynamicFields max n parentId limit cursor)) none ns

/-- `getAllOwnedObjects` -/
def getAllOwnedObjects (max : ℕ) (owner : A) (filter : Option (ObjectInfo A → Bool))
    (limit : Option ℕ) (ns : List (Node A)) : Except String (List (Cursor.Page (ObjectInfo A) A)) :=
  follow (fun n cursor => rpcGetOwnedObjects max n owner filter limit cursor) none ns

/-! ## What is under a key -/

/-- The fields of an object, as the index has them. -/
def fieldRows (n : Node A) (parent : A) : List (A × DynamicFieldInfo A) :=
  block parent (rows toLex n.indexes.dynamicFieldIndex)

/-- The objects of an account, as the index has them. -/
def ownerRows (n : Node A) (owner : A) : List (A × ObjectInfo A) :=
  block owner (rows toLex n.indexes.ownerIndex)

/-- A state that a node can get to. -/
def Node.Reachable (n : Node A) : Prop :=
  ∃ txs, Run Node.Step .genesis txs n

namespace Node.Reachable

variable {n : Node A}

theorem synced (h : n.Reachable) : n.Synced := by
  obtain ⟨txs, hrun⟩ := h
  exact (Node.run_synced hrun).2

theorem layout (h : n.Reachable) :
    Layout n.chain.ctx (worldOf n.chain.objects) n.chain.objects := by
  obtain ⟨txs, hrun⟩ := h
  rw [(Node.run_synced hrun).1]
  exact (run_history txs).1.layout

theorem mem_fieldRows (h : n.Reachable) {parent id : A} {info : DynamicFieldInfo A} :
    (id, info) ∈ fieldRows n parent ↔
      n.chain.objects.lookup id = some ⟨.objectOwner parent, .field info.name info.objectId⟩ := by
  rw [fieldRows, mem_block, mem_rows, h.synced.field_iff]

theorem mem_ownerRows (h : n.Reachable) {owner id : A} {info : ObjectInfo A} :
    (id, info) ∈ ownerRows n owner ↔
      ∃ x, n.chain.objects.lookup id = some x ∧ x.owner = .addressOwner owner ∧
        info = ⟨id, x.data.type, .addressOwner owner⟩ := by
  rw [ownerRows, mem_block, mem_rows, h.synced.owner_iff]

/-- The field with a name is where the name says. -/
theorem fieldRows_id (h : n.Reachable) {parent id : A} {info : DynamicFieldInfo A}
    (hmem : (id, info) ∈ fieldRows n parent) : id = hashTypeAndKey parent info.name := by
  obtain ⟨p, hp, hid⟩ := h.layout.fieldStore.field (h.mem_fieldRows.1 hmem)
  cases hp
  exact hid

theorem ownerRows_ne_zero (h : n.Reachable) {owner id : A} {info : ObjectInfo A}
    (hmem : (id, info) ∈ ownerRows n owner) : id ≠ AddressSpace.zero := by
  obtain ⟨⟨o, d⟩, hx, rfl, -⟩ := h.mem_ownerRows.1 hmem
  obtain ⟨i, -, hw⟩ := h.layout.free_of_lookup (h := .address owner) hx
  obtain ⟨_, _, rfl, -⟩ := h.layout.used_free hw
  exact ObjectIds.deriveId_ne_zero

end Node.Reachable

theorem sorted_fieldRows (n : Node A) (parent : A) : Sorted Prod.fst (fieldRows n parent) :=
  sorted_block (sorted_rows toLex n.indexes.dynamicFieldIndex)

theorem sorted_ownerRows (n : Node A) (owner : A) : Sorted Prod.fst (ownerRows n owner) :=
  sorted_block (sorted_rows toLex n.indexes.ownerIndex)

/-! ## The iterators read a table -/

/-- Seeking the first identifier seeks nothing. -/
theorem dropWhile_zero {ν : Type} (l : List (A × ν)) :
    (l.dropWhile fun r => r.1 < AddressSpace.zero) = l := by
  cases l with
  | nil => rfl
  | cons r l =>
    rw [List.dropWhile_cons_of_neg]
    simpa using ObjectIds.zero_le r.1

theorem getDynamicFieldsIterator_eq {n : Node A} (h : n.Reachable) (parent : A)
    (cursor : Option A) :
    getDynamicFieldsIterator n.indexes parent cursor =
      after Prod.fst cursor (fieldRows n parent) := by
  have hsort : Sorted lexKey (rows toLex n.indexes.dynamicFieldIndex) := sorted_rows toLex _
  have hblock : block parent ((rows toLex n.indexes.dynamicFieldIndex).filter fun r =>
      toLex (parent, (AddressSpace.zero : A)) ≤ lexKey r ∧ lexKey r < toLex (parent, (maxId : A))) =
      fieldRows n parent := by
    refine block_filter fun c v hmem => ?_
    have hid : c = hashTypeAndKey parent v.name := h.fieldRows_id (mem_block.2 hmem)
    have hlt : c < maxId := by
      rw [hid]
      exact ObjectIds.hash_lt_maxId
    simp [lexKey, Prod.Lex.toLex_le_toLex, Prod.Lex.toLex_lt_toLex, ObjectIds.zero_le, hlt]
  rw [getDynamicFieldsIterator, seek_block (hsort.sublist List.filter_sublist), hblock]
  cases cursor with
  | none =>
    rw [Option.getD_none, dropWhile_zero]
    rfl
  | some c => rfl

/-- What a filter lets through. -/
def passes (filter : Option (ObjectInfo A → Bool)) (r : A × ObjectInfo A) : Bool :=
  filter.all fun f => f r.2

theorem getOwnerObjectsIterator_eq (n : Node A) (owner : A) (filter : Option (ObjectInfo A → Bool))
    {cursor : Option A} (hcursor : cursor ≠ some AddressSpace.zero) :
    getOwnerObjectsIterator n.indexes owner (cursor.getD AddressSpace.zero) filter =
      (rest Prod.fst (passes filter) cursor (ownerRows n owner)).map Prod.snd := by
  have hsort : Sorted lexKey (rows toLex n.indexes.ownerIndex) := sorted_rows toLex _
  have hseek := seek_block hsort owner (cursor.getD AddressSpace.zero)
    (cursor.getD AddressSpace.zero != AddressSpace.zero).toNat
  have hafter : ((ownerRows n owner).dropWhile fun r => r.1 < cursor.getD AddressSpace.zero).drop
      (cursor.getD AddressSpace.zero != AddressSpace.zero).toNat =
      after Prod.fst cursor (ownerRows n owner) := by
    cases cursor with
    | none =>
      rw [Option.getD_none, dropWhile_zero]
      simp [after]
    | some c =>
      have hc : (c != AddressSpace.zero) = true := by simpa using hcursor
      simp [after, hc]
  rw [rest, ← hafter, ownerRows, ← hseek, List.filter_map, List.map_map, getOwnerObjectsIterator]
  rfl

/-! ## The answers are pages of a table -/

theorem rpcGetDynamicFields_eq {n : Node A} (h : n.Reachable) (max : ℕ) (parent : A)
    (limit : Option ℕ) (cursor : Option A) :
    rpcGetDynamicFields max n parent limit cursor =
      (page Prod.fst (fun _ => true) (capPageLimit max limit) (fieldRows n parent) cursor).map
        Prod.snd := by
  simp only [rpcGetDynamicFields, getDynamicFieldsIterator_eq h, page, rest, List.filter_true,
    Cursor.Page.map]

theorem rpcGetOwnedObjects_eq {n : Node A} (h : n.Reachable) {max l : ℕ} {limit : Option ℕ}
    (hlimit : validateLimit limit max = .ok l) (owner : A) (filter : Option (ObjectInfo A → Bool))
    {cursor : Option A} (hcursor : cursor ≠ some AddressSpace.zero) :
    rpcGetOwnedObjects max n owner filter limit cursor =
      .ok ((page Prod.fst (passes filter) l (ownerRows n owner) cursor).map Prod.snd) := by
  have hobj : getOwnerObjects n.indexes owner cursor (l + 1) filter =
      ((rest Prod.fst (passes filter) cursor (ownerRows n owner)).take (l + 1)).map Prod.snd := by
    rw [getOwnerObjects, getOwnerObjectsIterator_eq n owner filter hcursor, List.map_take]
  -- the cursor is the identifier in the entry, which is that of its key
  have hids : ∀ r ∈ (rest Prod.fst (passes filter) cursor (ownerRows n owner)).take (l + 1),
      r.2.objectId = r.1 := by
    intro r hr
    have hmem := (after_suffix _ _).mem (mem_rest.1 (List.mem_of_mem_take hr)).1
    obtain ⟨id, info⟩ := r
    obtain ⟨x, -, -, rfl⟩ := h.mem_ownerRows.1 hmem
    rfl
  generalize hdata : (rest Prod.fst (passes filter) cursor (ownerRows n owner)).take (l + 1) =
    data at hobj hids
  have hlast : ((data.map Prod.snd).take l).getLast?.map ObjectInfo.objectId =
      (data.take l).getLast?.map Prod.fst := by
    rw [← List.map_take, List.getLast?_map, Option.map_map]
    cases hz : (data.take l).getLast? with
    | none => rfl
    | some z => exact congrArg some (hids z (List.mem_of_mem_take (List.mem_of_getLast? hz)))
  simp only [rpcGetOwnedObjects, hlimit, hobj, page, hdata, hlast, Cursor.Page.map, bind,
    Except.bind, List.length_map, List.map_take, pure, Except.pure]

/-- **A client that asks for all fields walks through the table.** -/
theorem getAllDynamicFields_eq {ns : List (Node A)} (h : ∀ n ∈ ns, n.Reachable) (max : ℕ)
    (parent : A) (limit : Option ℕ) :
    getAllDynamicFields max parent limit ns =
      .ok ((walk Prod.fst (fun _ => true) (capPageLimit max limit) none
        (ns.map fun n => fieldRows n parent)).map (Cursor.Page.map Prod.snd)) := by
  refine follow_eq_walk (q := fun _ => True) (fun n hn cursor _ => ?_) (fun _ _ _ _ => trivial) trivial
  rw [rpcGetDynamicFields_eq (h n hn)]

/-- **A client that asks for all objects walks through the table.** -/
theorem getAllOwnedObjects_eq {ns : List (Node A)} (h : ∀ n ∈ ns, n.Reachable) {max l : ℕ}
    {limit : Option ℕ} (hlimit : validateLimit limit max = .ok l) (owner : A)
    (filter : Option (ObjectInfo A → Bool)) :
    getAllOwnedObjects max owner filter limit ns =
      .ok ((walk Prod.fst (passes filter) l none
        (ns.map fun n => ownerRows n owner)).map (Cursor.Page.map Prod.snd)) := by
  refine follow_eq_walk (q := fun cursor => cursor ≠ some AddressSpace.zero)
    (fun n hn cursor hcursor => ?_) (fun n hn z hz => ?_) (by simp)
  · rw [rpcGetOwnedObjects_eq (h n hn) hlimit owner filter hcursor]
  · simpa using (h n hn).ownerRows_ne_zero hz

/-! ## A node at rest -/

theorem capPageLimit_pos {max : ℕ} (hmax : 0 < max) (limit : Option ℕ) :
    0 < capPageLimit max limit := by
  rw [capPageLimit]
  split <;> omega

/-- A field has one name, and a name one field. -/
theorem FieldStore.nodup_dynamicFields {o : Objects A} (h : FieldStore o) (parent : A) :
    (dynamicFields o parent).Nodup := by
  obtain ⟨l, hlist⟩ := Quot.exists_rep o.entries
  have hlist : (l : Multiset (Sigma fun _ : A => Stored A)) = o.entries := hlist
  have hnodup : l.Nodup := by
    rw [← Multiset.coe_nodup, hlist]
    exact o.nodup_entries
  have hid {e : Sigma fun _ : A => Stored A} {info : DynamicFieldInfo A} (he : e ∈ l)
      (hf : fieldOf parent e.2 = some info) :
      e = ⟨hashTypeAndKey parent info.name, ⟨.objectOwner parent, .field info.name info.objectId⟩⟩ := by
    have hmem : e ∈ o.entries := by rw [← hlist]; exact he
    obtain ⟨id, x⟩ := e
    obtain rfl := fieldOf_eq_some.1 hf
    obtain ⟨p, hp, rfl⟩ := h.field (Finmap.mem_lookup_iff.2 hmem)
    cases hp
    rfl
  rw [dynamicFields, ← hlist, Multiset.filterMap_coe, Multiset.coe_nodup]
  exact ZipFilter.nodup_filterMap hnodup fun he he' hf hf' => (hid he hf).trans (hid he' hf').symm

/-- The entries of a table tell its rows apart. -/
theorem Node.Reachable.nodup_fields {n : Node A} (h : n.Reachable) (parent : A) :
    ((fieldRows n parent).map Prod.snd).Nodup := by
  refine List.Nodup.map_on ?_ ((sorted_fieldRows n parent).imp fun hlt he => hlt.ne (congrArg _ he))
  rintro ⟨id, info⟩ hr ⟨id', info'⟩ hr' rfl
  rw [h.fieldRows_id hr, h.fieldRows_id hr']

/-- The table has the fields. -/
theorem Node.Reachable.getDynamicFields_rows {n : Node A} (h : n.Reachable) (parent : A) :
    getDynamicFields n.chain.objects parent ((fieldRows n parent).map Prod.snd) := by
  refine (Multiset.Nodup.ext (Multiset.coe_nodup.2 (h.nodup_fields parent))
    (h.layout.fieldStore.nodup_dynamicFields parent)).2 fun info => ?_
  rw [Multiset.mem_coe, dynamicFields, Multiset.mem_filterMap]
  simp only [List.mem_map]
  constructor
  · rintro ⟨⟨id, info⟩, hr, rfl⟩
    exact ⟨⟨id, _⟩, Finmap.mem_lookup_iff.1 (h.mem_fieldRows.1 hr), fieldOf_eq_some.2 rfl⟩
  · rintro ⟨⟨id, x⟩, hx, hf⟩
    obtain rfl := fieldOf_eq_some.1 hf
    exact ⟨(id, info), h.mem_fieldRows.2 (Finmap.mem_lookup_iff.2 hx), rfl⟩

/-- The object under a field, by way of the index. -/
theorem Node.Reachable.fieldObject {n : Node A} (h : n.Reachable) (parent : A) (name : Name A) :
    rpcGetDynamicFieldObject n parent name = getDynamicFieldObject n.chain.objects parent name := by
  have hplain : n.indexes.dynamicFieldIndex.lookup (parent, plainFieldId parent name) = none := by
    refine Option.eq_none_iff_forall_ne_some.2 fun info hinfo => ?_
    obtain ⟨p, -, hid⟩ := h.layout.fieldStore.field (h.synced.field_iff.1 hinfo)
    exact ObjectIds.plainFieldId_ne_hash hid
  rw [rpcGetDynamicFieldObject, getDynamicFieldObjectId, hplain, getDynamicFieldObject]
  cases hx : n.chain.objects.lookup (hashTypeAndKey parent name) with
  | none =>
    have hnone : n.indexes.dynamicFieldIndex.lookup (parent, hashTypeAndKey parent name) = none := by
      refine Option.eq_none_iff_forall_ne_some.2 fun info hinfo => ?_
      rw [h.synced.field_iff, hx] at hinfo
      cases hinfo
    rw [hnone]
    rfl
  | some x =>
    obtain ⟨v, rfl⟩ := h.layout.fieldStore.hash hx
    have hsome : n.indexes.dynamicFieldIndex.lookup (parent, hashTypeAndKey parent name) =
        some ⟨name, v⟩ := h.synced.field_iff.2 hx
    rw [hsome]
    rfl

/-- **A node at rest answers as the pages of the site are modelled to be answered.**
Following the cursors gives the dynamic fields of an object, each once, whatever the
limit; a request without limit and cursor gives the first of them; and the object under
a field is found by way of the index. -/
theorem nodeFields {n : Node A} (hn : n.Reachable) {max : ℕ} (hmax : 0 < max) (parent : A) :
    (∀ limit k, (dynamicFields n.chain.objects parent).card < k → ∃ pages,
      getAllDynamicFields max parent limit (List.replicate k n) = .ok pages ∧ Finished pages ∧
      getDynamicFields n.chain.objects parent (pages.flatMap Cursor.Page.data) ∧
      (rpcGetDynamicFields max n parent none none).data =
        firstPage max (pages.flatMap Cursor.Page.data)) ∧
    ∀ name, rpcGetDynamicFieldObject n parent name =
      getDynamicFieldObject n.chain.objects parent name := by
  refine ⟨fun limit k hk => ?_, hn.fieldObject parent⟩
  have hfields := hn.getDynamicFields_rows parent
  have hlen : (fieldRows n parent).length < k := by
    rw [← hfields, Multiset.coe_card, List.length_map] at hk
    exact hk
  obtain ⟨hdata, hfin⟩ := walk_replicate (p := fun _ => true) (capPageLimit_pos hmax limit)
    (sorted_fieldRows n parent) hlen
  rw [List.filter_true] at hdata
  have hns : ∀ n' ∈ List.replicate k n, n'.Reachable := fun n' hn' =>
    List.eq_of_mem_replicate hn' ▸ hn
  have hwalk := getAllDynamicFields_eq hns max parent limit
  rw [List.map_replicate] at hwalk
  refine ⟨_, hwalk, (finished_map _ _).2 hfin, ?_, ?_⟩
  · rw [flatMap_map_data, hdata]
    exact hfields
  · rw [flatMap_map_data, hdata, rpcGetDynamicFields_eq hn, Cursor.Page.map, page_data, firstPage]
    simp [rest, after, List.map_take]

theorem validateLimit_pos {limit : Option ℕ} {max l : ℕ} (hmax : 0 < max)
    (h : validateLimit limit max = .ok l) : 0 < l := by
  cases limit with
  | none =>
    cases h
    exact hmax
  | some l' =>
    simp only [validateLimit] at h
    split at h
    · cases h
    · split at h
      · cases h
      · cases h
        omega

/-- The table has the objects of an account. -/
theorem Node.Reachable.getOwnedObjects_rows {n : Node A} (h : n.Reachable) (owner : A) :
    getOwnedObjects n.chain.objects owner ((ownerRows n owner).map Prod.fst) := by
  have hnodup : ((ownerRows n owner).map Prod.fst).Nodup :=
    List.pairwise_map.2 ((sorted_ownerRows n owner).imp fun hlt => hlt.ne)
  refine (Multiset.Nodup.ext (Multiset.coe_nodup.2 hnodup) (Finset.nodup _)).2 fun id => ?_
  rw [Multiset.mem_coe, Finset.mem_val, ownedObjects, Finset.mem_filter, Finmap.mem_keys,
    ← Finmap.lookup_isSome, List.mem_map]
  constructor
  · rintro ⟨⟨id, info⟩, hr, rfl⟩
    obtain ⟨x, hx, howner, -⟩ := h.mem_ownerRows.1 hr
    simp [hx, howner]
  · rintro ⟨-, hany⟩
    cases hx : n.chain.objects.lookup id with
    | none =>
      rw [hx] at hany
      cases hany
    | some x =>
      rw [hx, Option.any_some, decide_eq_true_eq] at hany
      exact ⟨(id, _), h.mem_ownerRows.2 ⟨x, hx, hany, rfl⟩, rfl⟩

/-- **The objects of an account, from a node at rest.**  There is one order of them, such
that for every filter and every limit: a limit that is not allowed is refused; with any
other, following the cursors gives the objects of the account that the filter lets
through, each once and in this order. -/
theorem nodeObjects {n : Node A} (hn : n.Reachable) {max : ℕ} (hmax : 0 < max) (owner : A) :
    ∃ all, getOwnedObjects n.chain.objects owner all ∧
      ∀ (filter : Option (ObjectInfo A → Bool)) (limit : Option ℕ),
        (∀ e, validateLimit limit max = .error e → ∀ ns,
          getAllOwnedObjects max owner filter limit (n :: ns) = .error e) ∧
        ∀ l, validateLimit limit max = .ok l →
          ∀ k, (ownedObjects n.chain.objects owner).card < k →
            ∃ pages, getAllOwnedObjects max owner filter limit (List.replicate k n) = .ok pages ∧
              Finished pages ∧
              pages.flatMap Cursor.Page.data =
                (all.filterMap fun id => (n.chain.objects.lookup id).map fun x =>
                  (⟨id, x.data.type, x.owner⟩ : ObjectInfo A)).filter fun info =>
                    filter.all fun f => f info := by
  have hall := hn.getOwnedObjects_rows owner
  refine ⟨_, hall, fun filter limit => ⟨fun e he ns => ?_, fun l hl k hk => ?_⟩⟩
  · simp only [getAllOwnedObjects, follow, rpcGetOwnedObjects, he, bind, Except.bind]
  · have hlen : (ownerRows n owner).length < k := by
      rw [Finset.card, ← hall, Multiset.coe_card, List.length_map] at hk
      exact hk
    obtain ⟨hdata, hfin⟩ := walk_replicate (p := passes filter) (validateLimit_pos hmax hl)
      (sorted_ownerRows n owner) hlen
    have hns : ∀ n' ∈ List.replicate k n, n'.Reachable := fun n' hn' =>
      List.eq_of_mem_replicate hn' ▸ hn
    have hwalk := getAllOwnedObjects_eq hns hl owner filter
    rw [List.map_replicate] at hwalk
    refine ⟨_, hwalk, (finished_map _ _).2 hfin, ?_⟩
    -- what the index says of an object is what the object is
    have hinfo : (ownerRows n owner).map Prod.snd =
        ((ownerRows n owner).map Prod.fst).filterMap fun id =>
          (n.chain.objects.lookup id).map fun x => (⟨id, x.data.type, x.owner⟩ : ObjectInfo A) := by
      rw [List.filterMap_map, ← List.filterMap_eq_map]
      refine List.filterMap_congr fun r hr => ?_
      obtain ⟨id, info⟩ := r
      obtain ⟨x, hx, howner, rfl⟩ := hn.mem_ownerRows.1 hr
      simp [hx, howner]
    rw [flatMap_map_data, hdata, ← hinfo, List.filter_map]
    rfl

/-! ## A node that goes on -/

/-- A field as the index describes it. -/
def IsField (n : Node A) (parent : A) (info : DynamicFieldInfo A) : Prop :=
  n.chain.objects.lookup (hashTypeAndKey parent info.name) =
    some ⟨.objectOwner parent, .field info.name info.objectId⟩

theorem Node.Reachable.isField_iff {n : Node A} (h : n.Reachable) {parent : A}
    {info : DynamicFieldInfo A} :
    IsField n parent info ↔ (hashTypeAndKey parent info.name, info) ∈ fieldRows n parent :=
  h.mem_fieldRows.symm

/-- The rows a client is given of the fields of `parent`. -/
def fieldsWalk (limit : ℕ) (parent : A) (ns : List (Node A)) : List (A × DynamicFieldInfo A) :=
  (walk Prod.fst (fun _ => true) limit none (ns.map fun n => fieldRows n parent)).flatMap
    Cursor.Page.data

section FieldsWalk

variable {ns : List (Node A)} {limit : ℕ} {parent : A}

theorem sorted_tables : ∀ l ∈ ns.map fun n => fieldRows n parent, Sorted Prod.fst l := by
  intro l hl
  obtain ⟨n, -, rfl⟩ := List.mem_map.1 hl
  exact sorted_fieldRows n parent

/-- The rows of a page were fields in the state that served its request. -/
theorem fieldsPage_served (hns : ∀ n ∈ ns, n.Reachable) (hlimit : 0 < limit) {i : ℕ}
    {q : Cursor.Page (A × DynamicFieldInfo A) A}
    (hq : (walk Prod.fst (fun _ => true) limit none (ns.map fun n => fieldRows n parent))[i]? =
      some q) :
    ∃ n, ns[i]? = some n ∧ ∀ r ∈ q.data, r.1 = hashTypeAndKey parent r.2.name ∧
      IsField n parent r.2 := by
  obtain ⟨l, hl, hmem⟩ := mem_walk hlimit sorted_tables hq
  rw [List.getElem?_map] at hl
  obtain ⟨n, hn, rfl⟩ := Option.map_eq_some_iff.1 hl
  have hr := hns n (List.mem_of_getElem? hn)
  refine ⟨n, hn, fun ⟨id, info⟩ h => ?_⟩
  have hrow := (hmem _ h).1
  have hid := hr.fieldRows_id hrow
  subst hid
  exact ⟨rfl, hr.isField_iff.2 hrow⟩

/-- A row that is handed out. -/
theorem fieldsWalk_id (hns : ∀ n ∈ ns, n.Reachable) (hlimit : 0 < limit) {id : A}
    {info : DynamicFieldInfo A} (h : (id, info) ∈ fieldsWalk limit parent ns) :
    id = hashTypeAndKey parent info.name := by
  obtain ⟨q, hq, h⟩ := List.mem_flatMap.1 h
  obtain ⟨i, hi⟩ := List.getElem?_of_mem hq
  obtain ⟨n, -, hrows⟩ := fieldsPage_served hns hlimit hi
  exact (hrows _ h).1

theorem mem_map_fieldsWalk (hns : ∀ n ∈ ns, n.Reachable) (hlimit : 0 < limit)
    {info : DynamicFieldInfo A} :
    info ∈ (fieldsWalk limit parent ns).map Prod.snd ↔
      (hashTypeAndKey parent info.name, info) ∈ fieldsWalk limit parent ns := by
  constructor
  · intro h
    obtain ⟨⟨id, info'⟩, hr, rfl⟩ := List.mem_map.1 h
    have hid := fieldsWalk_id hns hlimit hr
    subst hid
    exact hr
  · exact fun h => List.mem_map_of_mem h

theorem nodup_names (hns : ∀ n ∈ ns, n.Reachable) (hlimit : 0 < limit) :
    (((fieldsWalk limit parent ns).map Prod.snd).map DynamicFieldInfo.name).Nodup := by
  rw [List.map_map]
  refine List.pairwise_map.2 (List.Pairwise.imp_of_mem ?_ (sorted_walk hlimit sorted_tables))
  rintro ⟨id, info⟩ ⟨id', info'⟩ hr hr' hlt hname
  have hid := fieldsWalk_id hns hlimit hr
  have hid' := fieldsWalk_id hns hlimit hr'
  have hname : info.name = info'.name := hname
  rw [hid, hid', hname] at hlt
  exact lt_irrefl _ hlt

end FieldsWalk

/-- **What a client gets that asks for the fields of an object while the node goes on.**
No name comes twice.  Everything in a page was a field in the state that served its
request.  Once the client is told that there is no more, it has got every field that was
there all the time, except those a request left out in the place of a cursor that was
gone; so it has got them all if what it was given stayed. -/
theorem fieldsBetweenTransactions {ns : List (Node A)} (hns : ∀ n ∈ ns, n.Reachable) {max : ℕ}
    (hmax : 0 < max) (parent : A) (limit : Option ℕ) :
    ∃ pages, getAllDynamicFields max parent limit ns = .ok pages ∧
      ((pages.flatMap Cursor.Page.data).map DynamicFieldInfo.name).Nodup ∧
      (∀ (i : ℕ) (q : Cursor.Page (DynamicFieldInfo A) A), pages[i]? = some q →
        ∃ n, ns[i]? = some n ∧ ∀ info ∈ q.data, IsField n parent info) ∧
      (Finished pages → ∀ info, (∀ n ∈ ns, IsField n parent info) →
        (info ∈ pages.flatMap Cursor.Page.data ↔
          ¬ Missed Prod.fst (fun _ => true) (capPageLimit max limit) none
            (ns.map fun n => fieldRows n parent) (hashTypeAndKey parent info.name, info)) ∧
        ((∀ info' ∈ pages.flatMap Cursor.Page.data, ∀ n ∈ ns, IsField n parent info') →
          info ∈ pages.flatMap Cursor.Page.data)) := by
  have hlimit := capPageLimit_pos hmax limit
  refine ⟨_, getAllDynamicFields_eq hns max parent limit, ?_⟩
  rw [flatMap_map_data, finished_map]
  refine ⟨nodup_names hns hlimit, fun i q hq => ?_, fun hfin info hall => ?_⟩
  · rw [List.getElem?_map] at hq
    obtain ⟨served, hserved, rfl⟩ := Option.map_eq_some_iff.1 hq
    obtain ⟨n, hn, hrows⟩ := fieldsPage_served hns hlimit hserved
    refine ⟨n, hn, fun info hinfo => ?_⟩
    obtain ⟨r, hr, rfl⟩ := List.mem_map.1 hinfo
    exact (hrows r hr).2
  · have hrows : ∀ l ∈ ns.map fun n => fieldRows n parent,
        (hashTypeAndKey parent info.name, info) ∈ l := by
      intro l hl
      obtain ⟨n, hn, rfl⟩ := List.mem_map.1 hl
      exact (hns n hn).isField_iff.1 (hall n hn)
    have hiff := mem_walk_iff hlimit sorted_tables hfin rfl hrows trivial
    rw [← fieldsWalk, mem_map_fieldsWalk hns hlimit]
    refine ⟨hiff, fun hstay => hiff.2 fun hmissed => ?_⟩
    -- something that was handed out is gone
    rcases hmissed.gone hlimit sorted_tables with ⟨c, hc, -⟩ | ⟨⟨id, z⟩, hz, l, hl, hgone⟩
    · cases hc
    · obtain ⟨n, hn, rfl⟩ := List.mem_map.1 hl
      have hid := fieldsWalk_id hns hlimit hz
      subst hid
      exact hgone ((hns n hn).isField_iff.1
        (hstay z ((mem_map_fieldsWalk hns hlimit).2 hz) n hn))

/-! ## Addresses that can be sorted -/

/-- A number for an address. -/
def Addr.code : Addr → ℕ
  | .user n => 5 * n
  | .derived d n => 5 * Nat.pair d n + 1
  | .idField p k => 5 * Nat.pair p.code k.code + 2
  | .addressField p a => 5 * Nat.pair p.code a.code + 3
  | .boolField p b => 5 * Nat.pair p.code b.toNat + 4

theorem Addr.code_injective : Function.Injective Addr.code := by
  have hpair {a b c d i : ℕ} (h : 5 * Nat.pair a b + i = 5 * Nat.pair c d + i) : a = c ∧ b = d :=
    Nat.pair_eq_pair.1 (by omega)
  intro x
  induction x with
  | user n =>
    intro y h
    cases y <;> simp only [code] at h <;> first | omega | simp; omega
  | derived d n =>
    intro y h
    cases y <;> simp only [code] at h <;> first | omega | simp [hpair h]
  | idField p k ihp ihk =>
    intro y h
    cases y <;> simp only [code] at h <;> first | omega | rw [ihp (hpair h).1, ihk (hpair h).2]
  | addressField p a ihp iha =>
    intro y h
    cases y <;> simp only [code] at h <;> first | omega | rw [ihp (hpair h).1, iha (hpair h).2]
  | boolField p b ihp =>
    intro y h
    have hbool {b b' : Bool} (h : b.toNat = b'.toNat) : b = b' := by
      cases b <;> cases b' <;> first | rfl | cases h
    cases y <;> simp only [code] at h <;>
      first | omega | rw [ihp (hpair h).1, hbool (hpair h).2]

/-- The order of addresses, with one at the end. -/
def Addr.rank (a : Addr) : Bool ×ₗ ℕ :=
  toLex (decide (a = .user 255), a.code)

theorem Addr.rank_injective : Function.Injective Addr.rank := by
  intro a b h
  exact Addr.code_injective (congrArg (fun r => (ofLex r).2) h)

instance : LinearOrder Addr where
  le a b := a.rank ≤ b.rank
  lt a b := a.rank < b.rank
  le_refl a := le_refl a.rank
  le_trans a b c := le_trans
  lt_iff_le_not_ge a b := lt_iff_le_not_ge
  le_antisymm a b h h' := Addr.rank_injective (le_antisymm h h')
  le_total a b := le_total a.rank b.rank
  toDecidableLE a b := inferInstanceAs (Decidable (a.rank ≤ b.rank))
  toDecidableLT a b := inferInstanceAs (Decidable (a.rank < b.rank))
  toDecidableEq := inferInstance

instance : ObjectIds Addr where
  maxId := .user 255
  plainFieldId p k := .user (2 ^ 256 + (p.child k).code)
  zero_le a := Prod.Lex.toLex_le_toLex.2 <| by
    cases decide (a = .user 255) with
    | false => exact Or.inr ⟨rfl, Nat.zero_le _⟩
    | true => exact Or.inl Bool.false_lt_true
  hash_lt_maxId {p k} := Prod.Lex.toLex_lt_toLex.2 <| Or.inl <| by
    cases k <;> exact Bool.false_lt_true
  deriveId_ne_zero {d n} h := by cases h
  plainFieldId_ne_hash {p k p' k'} h := by cases k' <;> cases h

/-- A table, from what is in it. -/
theorem Node.Reachable.fieldRows_eq {n : Node A} (h : n.Reachable) {parent : A}
    {data : List (DynamicFieldInfo A)} (hdata : getDynamicFields n.chain.objects parent data)
    (hsorted : data.Pairwise fun e e' => hashTypeAndKey parent e.name < hashTypeAndKey parent e'.name) :
    fieldRows n parent = data.map fun e => (hashTypeAndKey parent e.name, e) := by
  have hrows : fieldRows n parent = ((fieldRows n parent).map Prod.snd).map fun e =>
      (hashTypeAndKey parent e.name, e) := by
    rw [List.map_map]
    refine (List.map_id _).symm.trans (List.map_congr_left fun r hr => ?_)
    obtain ⟨id, info⟩ := r
    exact Prod.ext (h.fieldRows_id hr) rfl
  have hperm : ((fieldRows n parent).map Prod.snd).Perm data :=
    Multiset.coe_eq_coe.1 ((h.getDynamicFields_rows parent).trans hdata.symm)
  refine List.Perm.eq_of_pairwise (fun r r' _ _ hlt hlt' => absurd hlt (lt_asymm hlt'))
    (sorted_fieldRows n parent) (List.pairwise_map.2 hsorted) ?_
  rw [hrows]
  exact hperm.map _

/-- User 1 lists three objects in a marketplace. -/
def threeListed : List (Tx Addr) :=
  [⟨.user 1, [], [.create .sui]⟩,
   ⟨.user 1, [], [.otherNew 0 [7], .list (.other 0) .sui (.derived 1 0) (.derived 2 0) 5]⟩,
   ⟨.user 1, [], [.otherNew 0 [8], .list (.other 0) .sui (.derived 1 0) (.derived 3 0) 5]⟩,
   ⟨.user 1, [], [.otherNew 0 [9], .list (.other 0) .sui (.derived 1 0) (.derived 4 0) 5]⟩]

/-- The fields of the marketplace then. -/
def threeFields : List (DynamicFieldInfo Addr) :=
  [⟨.id (.derived 2 0), .derived 2 1⟩, ⟨.id (.derived 3 0), .derived 3 1⟩,
    ⟨.id (.derived 4 0), .derived 4 1⟩]

/-- A node gets to any state of the chain. -/
theorem Node.exists_reachable (txs : List (Tx A)) :
    ∃ n : Node A, n.Reachable ∧ n.chain = (run BookMarket.genesis txs).1 := by
  obtain ⟨n, hrun⟩ := Node.exists_run txs
  exact ⟨n, ⟨txs, hrun⟩, (Node.run_synced hrun).1⟩

/-- A client gets the three fields one by one. -/
theorem nodeFields_threeListed :
    ∃ n : Node Addr, n.Reachable ∧ n.chain = (run genesis threeListed).1 ∧
      ∃ pages, getAllDynamicFields 50 (.derived 1 0) (some 1) (List.replicate 4 n) = .ok pages ∧
        (pages.flatMap Cursor.Page.data).Perm threeFields := by
  obtain ⟨n, hn, hchain⟩ := Node.exists_reachable threeListed
  have hfields : getDynamicFields n.chain.objects (.derived 1 0) threeFields := by
    rw [hchain]
    decide +kernel
  have hcard : (dynamicFields n.chain.objects (.derived 1 0)).card < 4 := by
    rw [← hfields]
    decide
  obtain ⟨pages, hpages, -, hdata, -⟩ := (nodeFields hn (show 0 < 50 by decide) (.derived 1 0)).1
    (some 1) 4 hcard
  exact ⟨n, hn, hchain, pages, hpages, Multiset.coe_eq_coe.1 (hdata.trans hfields.symm)⟩

/-- User 2 gets the object that was bought, and nothing else of its type. -/
theorem nodeObjects_oneSale :
    ∃ n : Node Addr, n.Reachable ∧ n.chain = (run genesis oneSale).1 ∧
      ∃ pages, getAllOwnedObjects 50 (.user 2) (some fun info => info.type = .other 0) (some 1)
          (List.replicate 3 n) = .ok pages ∧
        ∀ info, info ∈ pages.flatMap Cursor.Page.data ↔
          info = ⟨.derived 2 0, .other 0, .addressOwner (.user 2)⟩ := by
  obtain ⟨n, hn, hchain⟩ := Node.exists_reachable oneSale
  have hcard : (ownedObjects n.chain.objects (.user 2)).card < 3 := by
    rw [hchain]
    decide +kernel
  obtain ⟨all, hall, hpaged⟩ := nodeObjects hn (show 0 < 50 by decide) (.user 2)
  obtain ⟨pages, hpages, -, hdata⟩ :=
    (hpaged (some fun info => info.type = .other 0) (some 1)).2 1 rfl 3 hcard
  have hperm : all.Perm [.derived 2 0, .derived 3 0] := by
    refine Multiset.coe_eq_coe.1 (hall.trans ?_)
    rw [hchain]
    decide +kernel
  refine ⟨n, hn, hchain, pages, hpages, fun info => ?_⟩
  rw [hdata, hchain, ((hperm.filterMap _).filter _).mem_iff]
  have hlist : ([.derived 2 0, .derived 3 0].filterMap fun id =>
      ((run genesis oneSale).1.objects.lookup id).map fun x =>
        (⟨id, x.data.type, x.owner⟩ : ObjectInfo Addr)) =
      [⟨.derived 2 0, .other 0, .addressOwner (.user 2)⟩,
       ⟨.derived 3 0, .treasuryCap .sui, .addressOwner (.user 2)⟩] := by
    decide +kernel
  rw [hlist]
  simp

/-- User 1 takes one object back. -/
def oneTakenBack : List (Tx Addr) :=
  threeListed ++ [⟨.user 1, [], [.delistAndTake (.other 0) .sui (.derived 1 0) (.derived 2 0)]⟩]

/-- That happens after the client has got the first field, and before it asks for the
second.  This one is there all the time, and the client does not get it. -/
theorem fieldsBetweenTransactions_oneTakenBack :
    ∃ n₁ n₂ : Node Addr, n₁.Reachable ∧ n₂.Reachable ∧
      n₁.chain = (run genesis threeListed).1 ∧ n₂.chain = (run genesis oneTakenBack).1 ∧
      ∃ pages, getAllDynamicFields 50 (.derived 1 0) (some 1) [n₁, n₂] = .ok pages ∧
        Finished pages ∧
        IsField n₁ (.derived 1 0) ⟨.id (.derived 3 0), .derived 3 1⟩ ∧
        IsField n₂ (.derived 1 0) ⟨.id (.derived 3 0), .derived 3 1⟩ ∧
        ⟨.id (.derived 3 0), .derived 3 1⟩ ∉ pages.flatMap Cursor.Page.data := by
  obtain ⟨n₁, hn₁, hchain₁⟩ := Node.exists_reachable threeListed
  obtain ⟨n₂, hn₂, hchain₂⟩ := Node.exists_reachable oneTakenBack
  have hrows₁ : fieldRows n₁ (.derived 1 0) = threeFields.map fun e =>
      (hashTypeAndKey (.derived 1 0) e.name, e) :=
    hn₁.fieldRows_eq (by rw [hchain₁]; decide +kernel) (by decide +kernel)
  have hrows₂ : fieldRows n₂ (.derived 1 0) = (threeFields.drop 1).map fun e =>
      (hashTypeAndKey (.derived 1 0) e.name, e) :=
    hn₂.fieldRows_eq (by rw [hchain₂]; decide +kernel) (by decide +kernel)
  have hns : ∀ n ∈ [n₁, n₂], n.Reachable := by simp [hn₁, hn₂]
  obtain ⟨pages, hpages, -, -, hcomplete⟩ := fieldsBetweenTransactions hns
    (show 0 < 50 by decide) (.derived 1 0) (some 1)
  have hfin : Finished pages := by
    cases (getAllDynamicFields_eq hns 50 (.derived 1 0) (some 1)).symm.trans hpages
    rw [finished_map, List.map_cons, List.map_cons, hrows₁, hrows₂]
    exact ⟨⟨[(.idField (.derived 1 0) (.derived 4 0), ⟨.id (.derived 4 0), .derived 4 1⟩)],
      some (.idField (.derived 1 0) (.derived 4 0)), false⟩, by decide +kernel, rfl⟩
  have hfield₁ : IsField n₁ (.derived 1 0) ⟨.id (.derived 3 0), .derived 3 1⟩ := by
    rw [IsField, hchain₁]
    decide +kernel
  have hfield₂ : IsField n₂ (.derived 1 0) ⟨.id (.derived 3 0), .derived 3 1⟩ := by
    rw [IsField, hchain₂]
    decide +kernel
  refine ⟨n₁, n₂, hn₁, hn₂, hchain₁, hchain₂, pages, hpages, hfin, hfield₁, hfield₂, fun hmem => ?_⟩
  refine ((hcomplete hfin _ (by simp [hfield₁, hfield₂])).1.1 hmem) ?_
  rw [List.map_cons, List.map_cons, hrows₁, hrows₂]
  -- the second request seeks the first field, and leaves out the second
  exact Or.inr ⟨by decide +kernel, Or.inl ⟨.idField (.derived 1 0) (.derived 2 0),
    by decide +kernel, by decide +kernel, by decide +kernel⟩⟩

end BookMarket
