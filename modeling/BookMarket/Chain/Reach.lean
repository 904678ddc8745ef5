import BookMarket.Chain.Bisimulation

/-!
# Every reachable chain is laid out

`worldOf` reads the world back from a store by following the `Field`s, as a
client of the chain would.  On a store that is laid out it finds the world the
store is laid out as, so a chain that some history leads to has one well-defined
world, and its calls are the calls of the world machine.

* `listingAt`, `profitsAt`, `worldOf` — reading the store.
* `Layout.worldOf_eq` — the reading is right.
* `History.layout` — **every reachable store is laid out as its world.**
* `History.exec_sim`, `History.exec_ok` — a call of a reachable chain is the
  call of its world.
* `run_history` — the transactions of `run` are covered: what they lead to is
  reached by a history, whose calls are exactly the ones that were committed.
-/

namespace BookMarket

open Simulation Runs

variable {A : Type} [DecidableEq A] [AddressSpace A]

/-! ## Reading the store -/

/-- The listing of item `k` in marketplace `m`, through the two `Field`s. -/
def listingAt (o : Objects A) (m k : A) : Option (Slot A) :=
  match o.lookup (hashTypeAndKey m (.id k)) with
  | some ⟨_, .field _ uid⟩ =>
    match o.lookup uid with
    | some ⟨_, .listing ask seller⟩ =>
      match o.lookup (hashTypeAndKey uid (.bool true)) with
      | some ⟨_, .field _ itemId⟩ =>
        match o.lookup itemId with
        | some ⟨_, .item item⟩ => some ⟨uid, ask, seller, item⟩
        | _ => none
      | _ => none
    | _ => none
  | _ => none

/-- The coin hanging under the seller `s` in marketplace `m`. -/
def profitsAt (o : Objects A) (m s : A) : Option (Coin A) :=
  match o.lookup (hashTypeAndKey m (.address s)) with
  | some ⟨_, .field _ coinId⟩ =>
    match o.lookup coinId with
    | some ⟨_, .item (.coin _ balance)⟩ => some ⟨coinId, balance⟩
    | _ => none
  | _ => none

omit [AddressSpace A] in
/-- The object `id` in the hands of an address or of the transaction. -/
def freeAt (o : Objects A) (id : A) : Option (Holder A × Item A) :=
  match o.lookup id with
  | some ⟨.addressOwner a, .item i⟩ => some (.address a, i)
  | some ⟨.transaction b, .item i⟩ => some (.transaction b, i)
  | _ => none

omit [AddressSpace A] in
/-- The currency of the marketplace `id`. -/
def marketAt (o : Objects A) (id : A) : Option TypeTag :=
  match o.lookup id with
  | some ⟨.shared, .marketplace coin⟩ => some coin
  | _ => none

/-- The world a store holds. -/
def worldOf (o : Objects A) : World A where
  free := freeAt o
  markets := marketAt o
  slots := fun p => listingAt o p.1 p.2
  profits := fun p => profitsAt o p.1 p.2

theorem freeAt_worldOf (o : Objects A) (id : A) : freeAt o id = (worldOf o).free id := rfl

theorem listingAt_worldOf (o : Objects A) (m k : A) :
    listingAt o m k = (worldOf o).slots (m, k) := rfl

theorem profitsAt_worldOf (o : Objects A) (m s : A) :
    profitsAt o m s = (worldOf o).profits (m, s) := rfl

namespace Layout

variable {ctx : TxContext A} {w : World A} {o : Objects A}

theorem freeAt_eq (hl : Layout ctx w o) (id : A) : freeAt o id = w.free id := by
  cases hf : w.free id with
  | some v =>
    obtain ⟨h, i⟩ := v
    rw [freeAt, hl.lookup_free hf]
    cases h <;> rfl
  | none =>
    unfold freeAt
    split
    · next a i ho =>
      obtain ⟨_, -, hw⟩ := hl.free_of_lookup (h := .address a) ho
      rw [hf] at hw
      cases hw
    · next b i ho =>
      obtain ⟨_, -, hw⟩ := hl.free_of_lookup (h := .transaction b) ho
      rw [hf] at hw
      cases hw
    · rfl

theorem marketAt_eq (hl : Layout ctx w o) (m : A) : marketAt o m = w.markets m := by
  cases hm : w.markets m with
  | some coin => rw [marketAt, hl.lookup_market hm]
  | none =>
    unfold marketAt
    split
    · next coin ho =>
      obtain ⟨_, hd, hw⟩ := hl.market_of_lookup ho
      rw [hm] at hw
      cases hw
    · rfl

theorem listingAt_eq (hl : Layout ctx w o) (m k : A) : listingAt o m k = w.slots (m, k) := by
  cases hw : w.slots (m, k) with
  | none => rw [listingAt, hl.lookup_slot_none hw]
  | some L =>
    simp only [listingAt, hl.lookup_piece hw .field, hl.lookup_piece hw .listing,
      hl.lookup_piece hw .inner, hl.lookup_piece hw .item]

theorem profitsAt_eq (hl : Layout ctx w o) (m s : A) : profitsAt o m s = w.profits (m, s) := by
  cases hp : w.profits (m, s) with
  | none => rw [profitsAt, hl.lookup_profits_none hp]
  | some c =>
    obtain ⟨coin, hm⟩ := hl.market_of_profits hp
    simp only [profitsAt, hl.lookup_profitsPiece hp hm .field, hl.lookup_profitsPiece hp hm .coin]

/-- **The reading is right.** -/
theorem worldOf_eq (hl : Layout ctx w o) : worldOf o = w := by
  obtain ⟨free, markets, slots, profits⟩ := w
  simp only [worldOf, World.mk.injEq]
  exact ⟨funext hl.freeAt_eq, funext hl.marketAt_eq, funext fun p => hl.listingAt_eq p.1 p.2,
    funext fun p => hl.profitsAt_eq p.1 p.2⟩

end Layout

/-! ## The ends of a transaction -/

/-- Two worlds with the same goods, except that objects may have passed between
an address and its transaction. -/
structure SameGoods (w w' : World A) : Prop where
  markets : w'.markets = w.markets
  slots : w'.slots = w.slots
  profits : w'.profits = w.profits
  items : ∀ id, (w'.free id).map Prod.snd = (w.free id).map Prod.snd

namespace SameGoods

omit [DecidableEq A] [AddressSpace A] in
theorem refl (w : World A) : SameGoods w w := ⟨rfl, rfl, rfl, fun _ => rfl⟩

omit [DecidableEq A] [AddressSpace A] in
theorem trans {w w' w'' : World A} (h : SameGoods w w') (h' : SameGoods w' w'') :
    SameGoods w w'' :=
  ⟨h'.markets.trans h.markets, h'.slots.trans h.slots, h'.profits.trans h.profits,
    fun id => (h'.items id).trans (h.items id)⟩

omit [AddressSpace A] in
theorem setFree {w : World A} {id : A} {h h' : Holder A} {i : Item A}
    (hf : w.free id = some (h, i)) : SameGoods w (w.setFree id (some (h', i))) := by
  refine ⟨rfl, rfl, rfl, fun id' => ?_⟩
  by_cases hid : id' = id
  · subst hid
    simp [World.setFree, hf]
  · simp [World.setFree, Function.update_of_ne hid]

end SameGoods

namespace Layout

variable {ctx : TxContext A} {w : World A} {o : Objects A}

theorem loadInput_layout (hl : Layout ctx w o) {sender id : A} {o' : Objects A}
    (h : loadInput sender o id = .ok o') :
    ∃ i, w.free id = some (.address sender, i) ∧
      Layout ctx (w.setFree id (some (.transaction true, i))) o' := by
  unfold loadInput at h
  split at h
  · next x ho =>
    split at h
    · next hown =>
      obtain ⟨owner, d⟩ := x
      cases hown
      cases h
      obtain ⟨i, rfl, hw⟩ := hl.free_of_lookup (h := .address sender) ho
      exact ⟨i, hw, hl.put (Or.inr ⟨_, hw⟩) (hl.used_free hw) (.transaction true) i⟩
    · cases h
  · cases h

theorem loadInputs_layout {sender : A} (inputs : List A) {w : World A} {o o' : Objects A}
    (hl : Layout ctx w o) (h : inputs.foldlM (loadInput sender) o = .ok o') :
    ∃ w', Layout ctx w' o' ∧ SameGoods w w' := by
  induction inputs generalizing w o with
  | nil =>
    cases h
    exact ⟨w, hl, .refl w⟩
  | cons id ids ih =>
    rw [List.foldlM_cons] at h
    obtain ⟨o1, h1, h2⟩ := bind_eq_ok.1 h
    obtain ⟨i, hf, hl1⟩ := hl.loadInput_layout h1
    obtain ⟨w', hl', hs⟩ := ih hl1 h2
    exact ⟨w', hl', (SameGoods.setFree hf).trans hs⟩

theorem returnInput_layout (hl : Layout ctx w o) (sender id : A) :
    ∃ w', Layout ctx w' (returnInput sender o id) ∧ SameGoods w w' := by
  unfold returnInput
  split
  · next x ho =>
    split
    · next hown =>
      obtain ⟨owner, d⟩ := x
      cases hown
      obtain ⟨i, rfl, hw⟩ := hl.free_of_lookup (h := .transaction true) ho
      exact ⟨_, hl.put (Or.inr ⟨_, hw⟩) (hl.used_free hw) (.address sender) i, .setFree hw⟩
    · exact ⟨w, hl, .refl w⟩
  · exact ⟨w, hl, .refl w⟩

theorem returnInputs_layout (sender : A) (inputs : List A) {w : World A} {o : Objects A}
    (hl : Layout ctx w o) :
    ∃ w', Layout ctx w' (inputs.foldl (returnInput sender) o) ∧ SameGoods w w' := by
  induction inputs generalizing w o with
  | nil => exact ⟨w, hl, .refl w⟩
  | cons id ids ih =>
    obtain ⟨w1, hl1, hs1⟩ := hl.returnInput_layout sender id
    obtain ⟨w', hl', hs⟩ := ih hl1
    exact ⟨w', hl', hs1.trans hs⟩

end Layout

omit [DecidableEq A] in
/-- Identifiers used in one transaction are used in the next. -/
theorem Used.nextTx {ctx : TxContext A} {id : A} (h : Used ctx id) (sender : A) :
    Used ⟨sender, ctx.txHash + 1, 0⟩ id := by
  obtain ⟨d, n, hid, hlt⟩ := h
  refine ⟨d, n, hid, Or.inl ?_⟩
  simp only
  omega

/-- What a step does to the world. -/
def WorldStep (w : World A) (ctx : TxContext A) : Event A → World A → TxContext A → Prop
  | .start sender _, w', ctx' => SameGoods w w' ∧ ctx' = ⟨sender, ctx.txHash + 1, 0⟩
  | .call e, w', ctx' => e.sender = ctx.sender ∧ w.exec ctx e.call = .ok (w', ctx', e.out)
  | .finish, w', ctx' => SameGoods w w' ∧ ctx' = ctx

/-- **One step of the chain is one step of its world**, and the store stays
laid out. -/
theorem Step.layout {c c' : Chain A} {e : Event A} {w : World A} (h : Step c e c')
    (hl : Layout c.ctx w c.objects) :
    ∃ w', Layout c'.ctx w' c'.objects ∧ WorldStep w c.ctx e w' c'.ctx := by
  cases h with
  | @start _ sender inputs _ h =>
    unfold startTx at h
    obtain ⟨o', h1, h2⟩ := bind_eq_ok.1 h
    cases h2
    obtain ⟨w', hl', hs⟩ := hl.loadInputs_layout inputs h1
    exact ⟨w', hl'.mono fun _ hu => hu.nextTx sender, hs, rfl⟩
  | call _ h =>
    obtain ⟨⟨w', ctx', out⟩, hw, hin⟩ := (BookMarket.exec_sim hl _).exists_of_ok h
    obtain ⟨hl', hctx, hout, -, -⟩ := hin
    simp only at hctx hout hl'
    rw [hctx, hout]
    exact ⟨w', hl', rfl, hw⟩
  | finish _ h =>
    simp only [finishTx] at h
    split at h
    · cases h
      obtain ⟨w', hl', hs⟩ := hl.returnInputs_layout c.ctx.sender c.inputs
      exact ⟨w', hl', hs, rfl⟩
    · cases h

/-! ## Reachable chains -/

theorem Run.layout {es : List (Event A)} {c : Chain A} (h : Run Step genesis es c) :
    Layout c.ctx (worldOf c.objects) c.objects := by
  refine h.invariant (I := fun c => Layout c.ctx (worldOf c.objects) c.objects) ?_ ?_
  · have := layout_empty (A := A) (genesis (A := A)).ctx
    rw [show (genesis : Chain A).objects = ∅ from rfl, this.worldOf_eq]
    exact this
  · intro c e c' hl hs
    obtain ⟨w', hl', -⟩ := hs.layout hl
    rw [hl'.worldOf_eq]
    exact hl'

/-- **Every reachable store is laid out as its world.** -/
theorem History.layout {h : List (Entry A)} {c : Chain A} (hc : History h c) :
    Layout c.ctx (worldOf c.objects) c.objects := by
  obtain ⟨es, hrun, -⟩ := hc
  exact Run.layout hrun

theorem Step.worldStep {c c' : Chain A} {e : Event A} (h : Step c e c')
    (hl : Layout c.ctx (worldOf c.objects) c.objects) :
    WorldStep (worldOf c.objects) c.ctx e (worldOf c'.objects) c'.ctx := by
  obtain ⟨w', hl', hs⟩ := h.layout hl
  rw [hl'.worldOf_eq]
  exact hs

namespace History

variable {h : List (Entry A)} {c c' : Chain A}

theorem exec_sim (hc : History h c) (call : Call A) :
    Sim (InStep c) (exec c call) ((worldOf c.objects).exec c.ctx call) :=
  BookMarket.exec_sim hc.layout call

/-- A successful call of a reachable chain is a call of its world. -/
theorem exec_ok (hc : History h c) {call : Call A} {out : Option (Obj A)}
    (he : exec c call = .ok (c', out)) :
    (worldOf c.objects).exec c.ctx call = .ok (worldOf c'.objects, c'.ctx, out) := by
  obtain ⟨⟨w', ctx', out'⟩, hw, hin⟩ := (hc.exec_sim call).exists_of_ok he
  obtain ⟨hl', hctx, hout, -, -⟩ := hin
  simp only at hctx hout hl'
  rw [hw, hctx, hout, hl'.worldOf_eq]

theorem call (hc : History h c) (hr : c.running = true) {call : Call A} {out : Option (Obj A)}
    (he : exec c call = .ok (c', out)) : History (h ++ [⟨c.ctx.sender, call, out⟩]) c' := by
  obtain ⟨es, hrun, rfl⟩ := hc
  exact ⟨es ++ [_], hrun.snoc (.call hr he), by simp [calls]⟩

theorem start (hc : History h c) (hr : c.running = false) {sender : A} {inputs : List A}
    (hs : startTx c sender inputs = .ok c') : History h c' := by
  obtain ⟨es, hrun, rfl⟩ := hc
  exact ⟨es ++ [_], hrun.snoc (.start hr hs), by simp [calls]⟩

theorem finish (hc : History h c) (hr : c.running = true) (hf : finishTx c = .ok c') :
    History h c' := by
  obtain ⟨es, hrun, rfl⟩ := hc
  exact ⟨es ++ [_], hrun.snoc (.finish hr hf), by simp [calls]⟩

theorem genesis : History [] (genesis : Chain A) := ⟨[], .nil, rfl⟩

end History

/-! ## Whole transactions -/

omit [AddressSpace A] in
theorem idle_empty : Idle (∅ : Objects A) := fun id h => by simp at h

omit [AddressSpace A] in
/-- In an idle store nothing is in the hands of a transaction. -/
theorem Idle.freeAt {o : Objects A} (hi : Idle o) {id : A} {b : Bool} {i : Item A} :
    freeAt o id ≠ some (.transaction b, i) := by
  intro hf
  unfold BookMarket.freeAt at hf
  split at hf
  · cases hf
  · next ho =>
    have := hi id (Finmap.mem_keys.2 (Finmap.mem_of_lookup_eq_some ho))
    simp [ho, Owner.isTransaction] at this
  · cases hf

omit [AddressSpace A] in
theorem finishTx_eq_ok {c c' : Chain A} (h : finishTx c = .ok c') :
    c'.running = false ∧ Idle c'.objects := by
  simp only [finishTx] at h
  split at h
  · next hi =>
    cases h
    exact ⟨rfl, hi⟩
  · cases h

omit [AddressSpace A] in
theorem startTx_eq_ok {c c' : Chain A} {sender : A} {inputs : List A}
    (h : startTx c sender inputs = .ok c') :
    c'.running = true ∧ c'.ctx = ⟨sender, c.ctx.txHash + 1, 0⟩ ∧ c'.inputs = inputs ∧
      inputs.foldlM (loadInput sender) c.objects = .ok c'.objects := by
  unfold startTx at h
  obtain ⟨o', h1, h2⟩ := bind_eq_ok.1 h
  cases h2
  exact ⟨rfl, rfl, rfl, h1⟩

/-- Between transactions the store is idle. -/
theorem History.idle {h : List (Entry A)} {c : Chain A} (hc : History h c)
    (hr : c.running = false) : Idle c.objects := by
  obtain ⟨es, hrun, -⟩ := hc
  refine hrun.historyInvariant (I := fun _ c => c.running = false → Idle c.objects)
    (fun _ => idle_empty) ?_ hr
  intro es c e c' hrun _ hs hr'
  cases hs with
  | start _ h =>
    rw [(startTx_eq_ok h).1] at hr'
    cases hr'
  | call hr h =>
    rw [((BookMarket.exec_sim (Run.layout hrun) _).exists_of_ok h).choose_spec.2.running, hr] at hr'
    cases hr'
  | finish _ h => exact (finishTx_eq_ok h).2

theorem History.afterCalls {h : List (Entry A)} {c c' : Chain A} (hc : History h c)
    (hr : c.running = true) {cs : List (Call A)} {es : List (Entry A)}
    (he : execCalls c cs = .ok (c', es)) : History (h ++ es) c' ∧ c'.running = true := by
  induction cs generalizing h c es with
  | nil =>
    cases he
    exact ⟨by simpa using hc, hr⟩
  | cons call cs ih =>
    obtain ⟨⟨c1, out⟩, h1, h2⟩ := bind_eq_ok.1 he
    obtain ⟨⟨c2, fs⟩, h3, h4⟩ := bind_eq_ok.1 h2
    cases h4
    obtain ⟨_, -, hin⟩ := (hc.exec_sim call).exists_of_ok h1
    have hr1 : c1.running = true := hin.running.trans hr
    have := ih (hc.call hr h1) hr1 h3
    simpa using this

/-- A committed transaction adds its calls to the history. -/
theorem History.afterTx {h : List (Entry A)} {c c' : Chain A} (hc : History h c)
    (hr : c.running = false) {tx : Tx A} {es : List (Entry A)}
    (he : execTx c tx = .ok (c', es)) : History (h ++ es) c' ∧ c'.running = false := by
  obtain ⟨c1, h1, h2⟩ := bind_eq_ok.1 he
  obtain ⟨⟨c2, fs⟩, h3, h4⟩ := bind_eq_ok.1 h2
  obtain ⟨c3, h5, h6⟩ := bind_eq_ok.1 h4
  cases h6
  obtain ⟨hc2, hr2⟩ := (hc.start hr h1).afterCalls (startTx_eq_ok h1).1 h3
  exact ⟨hc2.finish hr2 h5, (finishTx_eq_ok h5).1⟩

theorem History.afterStep {h : List (Entry A)} {c : Chain A} (hc : History h c)
    (hr : c.running = false) (tx : Tx A) :
    History (h ++ (stepTx c tx).2) (stepTx c tx).1 ∧ (stepTx c tx).1.running = false := by
  unfold stepTx
  split
  · next r he => exact hc.afterTx hr he
  · exact ⟨by simpa using hc, hr⟩

theorem History.afterRun {h : List (Entry A)} {c : Chain A} (hc : History h c)
    (hr : c.running = false) (txs : List (Tx A)) :
    History (h ++ (run c txs).2) (run c txs).1 ∧ (run c txs).1.running = false := by
  induction txs generalizing h c with
  | nil => exact ⟨by simpa [run] using hc, hr⟩
  | cons tx txs ih =>
    obtain ⟨hc1, hr1⟩ := hc.afterStep hr tx
    simpa [run] using ih hc1 hr1

/-- A transaction that aborts can be left out of a sequence. -/
theorem run_cons_of_error {c : Chain A} {tx : Tx A} {e : Abort} (he : execTx c tx = .error e)
    (txs : List (Tx A)) : run c (tx :: txs) = run c txs := by
  have hstep : stepTx c tx = (c, []) := by rw [stepTx, he]
  rw [run, hstep]
  rfl

theorem run_cons_of_ok {c c' : Chain A} {tx : Tx A} {es : List (Entry A)}
    (he : execTx c tx = .ok (c', es)) (txs : List (Tx A)) :
    run c (tx :: txs) = ((run c' txs).1, es ++ (run c' txs).2) := by
  have hstep : stepTx c tx = (c', es) := by rw [stepTx, he]
  rw [run, hstep]

/-- One more transaction. -/
theorem run_concat (c : Chain A) (txs : List (Tx A)) (tx : Tx A) :
    (run c (txs ++ [tx])).1 = (stepTx (run c txs).1 tx).1 := by
  induction txs generalizing c with
  | nil => rfl
  | cons tx' txs ih =>
    rw [List.cons_append, run, run]
    exact ih (stepTx c tx').1

/-- A transaction that commits, for evaluation. -/
theorem execTx_eq_stepTx {c : Chain A} {tx : Tx A} {es : List (Entry A)}
    (h : (execTx c tx).toOption.isSome = true) (hes : (stepTx c tx).2 = es) :
    execTx c tx = .ok ((stepTx c tx).1, es) := by
  subst hes
  unfold stepTx
  cases he : execTx c tx with
  | ok r => rfl
  | error e =>
    rw [he] at h
    cases h

/-- **Every sequence of transactions is covered**: what it leads to is reached by
the history of the calls it committed. -/
theorem run_history (txs : List (Tx A)) :
    History (run (genesis : Chain A) txs).2 (run genesis txs).1 ∧
      (run (genesis : Chain A) txs).1.running = false := by
  simpa using History.genesis.afterRun rfl txs

/-- A first day at the market: user 1 opens a marketplace and lists an object for
5, and user 2, who has a coin of that value, buys it. -/
def oneSale : List (Tx Addr) :=
  [⟨.user 1, [], [.create .sui]⟩,
   ⟨.user 1, [], [.otherNew 0 [7], .publicTransfer (.derived 2 0) (.user 1)]⟩,
   ⟨.user 2, [], [.createCurrency .sui, .coinMint .sui (.derived 3 0) 5,
     .publicTransfer (.derived 3 0) (.user 2), .publicTransfer (.derived 3 1) (.user 2)]⟩,
   ⟨.user 1, [.derived 2 0], [.list (.other 0) .sui (.derived 1 0) (.derived 2 0) 5]⟩,
   ⟨.user 2, [.derived 3 1],
     [.buyAndTake (.other 0) .sui (.derived 1 0) (.derived 2 0) (.derived 3 1)]⟩]

example : profitsAt (run genesis oneSale).1.objects (.derived 1 0) (.user 1) =
    some ⟨.derived 3 1, 5⟩ := by
  decide +kernel

end BookMarket
