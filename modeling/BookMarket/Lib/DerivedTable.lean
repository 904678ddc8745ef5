import Mathlib.Data.Finmap

/-!
# Tables that are derived from a store

A table answers queries about a store and is not computed from it again after
every change: each change of the store comes with a batch of keys to delete and a
batch of entries to insert.  `Placement` says which entry an object of the store
has in the table, if any; `Holds` says that the table is what the placement makes
of the store.

* `deleteBatch`, `insertBatch` — a batch of writes, in order.
* `Covers` — the batches account for the change of the store: nothing is deleted or
  inserted without need, and nothing is forgotten.
* `Holds.batch` — **a table that was right is right after batches that cover the
  change.**
-/

namespace DerivedTable

variable {ι σ κ ν : Type} [DecidableEq ι] [DecidableEq κ]

/-! ## Batches -/

def deleteBatch (t : Finmap fun _ : κ => ν) (ks : List κ) : Finmap fun _ : κ => ν :=
  ks.foldl (fun t k => t.erase k) t

def insertBatch (t : Finmap fun _ : κ => ν) (kvs : List (κ × ν)) : Finmap fun _ : κ => ν :=
  kvs.foldl (fun t kv => t.insert kv.1 kv.2) t

theorem lookup_deleteBatch (t : Finmap fun _ : κ => ν) (ks : List κ) (k : κ) :
    (deleteBatch t ks).lookup k = if k ∈ ks then none else t.lookup k := by
  induction ks generalizing t with
  | nil => simp [deleteBatch]
  | cons k' ks ih =>
    have hstep : deleteBatch t (k' :: ks) = deleteBatch (t.erase k') ks := rfl
    rw [hstep, ih]
    by_cases hk : k = k'
    · subst hk
      simp
    · simp [hk, Finmap.lookup_erase_ne hk]

/-- What is found after inserting: one of the entries that were inserted under the
key, or what was there if there is none. -/
theorem lookup_insertBatch (t : Finmap fun _ : κ => ν) (kvs : List (κ × ν)) (k : κ) :
    (∃ v, (k, v) ∈ kvs ∧ (insertBatch t kvs).lookup k = some v) ∨
    (∀ v, (k, v) ∉ kvs) ∧ (insertBatch t kvs).lookup k = t.lookup k := by
  induction kvs generalizing t with
  | nil => exact Or.inr ⟨fun v h => List.not_mem_nil h, rfl⟩
  | cons kv kvs ih =>
    obtain ⟨k', v'⟩ := kv
    have hstep : insertBatch t ((k', v') :: kvs) = insertBatch (t.insert k' v') kvs := rfl
    rw [hstep]
    rcases ih (t.insert k' v') with ⟨v, hv, hl⟩ | ⟨hnone, hl⟩
    · exact Or.inl ⟨v, List.mem_cons_of_mem _ hv, hl⟩
    · by_cases hk : k = k'
      · subst hk
        exact Or.inl ⟨v', by simp, by rw [hl, Finmap.lookup_insert]⟩
      · refine Or.inr ⟨fun v h => ?_, by rw [hl, Finmap.lookup_insert_of_ne _ hk]⟩
        rcases List.mem_cons.1 h with h | h
        · exact hk (congrArg Prod.fst h)
        · exact hnone v h

/-! ## Placements -/

/-- Where an object of the store goes in the table.  `slot` is the key it occupies,
which tells objects apart, and `entry` the entry it has there, if it has one. -/
structure Placement (ι σ κ ν : Type) where
  slot : ι → σ → Option κ
  entry : ι → σ → Option (κ × ν)
  slot_of_entry : ∀ {i x k v}, entry i x = some (k, v) → slot i x = some k
  slot_inj : ∀ {i x j y k}, slot i x = some k → slot j y = some k → i = j

variable (P : Placement ι σ κ ν) {s s' : Finmap fun _ : ι => σ} {t : Finmap fun _ : κ => ν}

/-- The table has the entries of the objects in the store, and no others. -/
def Holds (s : Finmap fun _ : ι => σ) (t : Finmap fun _ : κ => ν) : Prop :=
  ∀ k v, t.lookup k = some v ↔ ∃ i x, s.lookup i = some x ∧ P.entry i x = some (k, v)

/-- The batches account for the change from `s` to `s'`. -/
structure Covers (s s' : Finmap fun _ : ι => σ) (del : List κ) (new : List (κ × ν)) : Prop where
  /-- What is deleted was the slot of an object that is not there any more, or has
  changed. -/
  dead : ∀ {k}, k ∈ del → ∃ i x, s.lookup i = some x ∧ P.slot i x = some k ∧
    s'.lookup i ≠ some x
  /-- The entry of such an object is deleted or written again. -/
  gone : ∀ {i x k v}, s.lookup i = some x → P.entry i x = some (k, v) → s'.lookup i ≠ some x →
    k ∈ del ∨ ∃ v', (k, v') ∈ new
  /-- What is inserted is right. -/
  sound : ∀ {k v}, (k, v) ∈ new → ∃ i x, s'.lookup i = some x ∧ P.entry i x = some (k, v)
  /-- What is new, or has changed, is inserted. -/
  complete : ∀ {i x k v}, s'.lookup i = some x → P.entry i x = some (k, v) →
    s.lookup i ≠ some x → (k, v) ∈ new

variable {P}

theorem holds_empty : Holds P ∅ (∅ : Finmap fun _ : κ => ν) := by
  intro k v
  constructor
  · intro h
    cases h
  · rintro ⟨i, x, h, -⟩
    cases h

omit [DecidableEq κ] in
/-- Two entries under one key are the same entry of the same object. -/
theorem entry_unique {i j : ι} {x y : σ} {k : κ} {v v' : ν} (hi : s.lookup i = some x)
    (hj : s.lookup j = some y) (hx : P.entry i x = some (k, v)) (hy : P.entry j y = some (k, v')) :
    i = j ∧ v = v' := by
  obtain rfl := P.slot_inj (P.slot_of_entry hx) (P.slot_of_entry hy)
  rw [hi] at hj
  cases hj
  rw [hx] at hy
  cases hy
  exact ⟨rfl, rfl⟩

/-- **A table that was right is right after batches that cover the change.** -/
theorem Holds.batch (h : Holds P s t) {del : List κ} {new : List (κ × ν)}
    (hc : Covers P s s' del new) : Holds P s' (insertBatch (deleteBatch t del) new) := by
  intro k v
  rcases lookup_insertBatch (deleteBatch t del) new k with ⟨v', hnew, hl⟩ | ⟨hnone, hl⟩
  · rw [hl]
    obtain ⟨i, x, hi, hx⟩ := hc.sound hnew
    constructor
    · rintro ⟨⟩
      exact ⟨i, x, hi, hx⟩
    · rintro ⟨j, y, hj, hy⟩
      rw [(entry_unique hi hj hx hy).2]
  · rw [hl, lookup_deleteBatch]
    constructor
    · intro hk
      split at hk
      · cases hk
      · next hdead =>
        obtain ⟨i, x, hi, hx⟩ := (h k v).1 hk
        by_cases hi' : s'.lookup i = some x
        · exact ⟨i, x, hi', hx⟩
        · rcases hc.gone hi hx hi' with hd | ⟨v', hv'⟩
          · exact absurd hd hdead
          · exact absurd hv' (hnone v')
    · rintro ⟨i, x, hi', hx⟩
      have hi : s.lookup i = some x := by
        by_contra hi
        exact hnone v (hc.complete hi' hx hi)
      have hdead : k ∉ del := by
        intro hd
        obtain ⟨j, y, hj, hy, hne⟩ := hc.dead hd
        obtain rfl := P.slot_inj (P.slot_of_entry hx) hy
        rw [hi] at hj
        cases hj
        exact hne hi'
      rw [if_neg hdead]
      exact (h k v).2 ⟨i, x, hi, hx⟩

end DerivedTable
