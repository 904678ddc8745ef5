import BookMarket.Chain.Enabled

/-!
# Transactions of one call

The four calls that can make up a transaction by themselves, because they leave
no value behind in it: `list`, `delist_and_take`, `buy_and_take` and
`take_profits_and_keep`.  `callTx` is the transaction that makes one of them,
with the object it consumes as its input, and `Single` is what it does to the
world.

* `Layout.idle_iff` — what it means for the world that no transaction runs.
* `History.single_of_execTx`, `History.execTx_of_single` — **such a transaction
  commits exactly when `Single` says so, and does what `Single` says.**
-/

namespace BookMarket

open Function (update)

variable {A : Type}

/-- The objects a call takes by value from its sender. -/
def Call.consumes : Call A → List A
  | .list _ _ _ k _ => [k]
  | .buy _ _ _ _ paid | .buyAndTake _ _ _ _ paid => [paid]
  | .transfer id _ | .burn id | .publicTransfer id _ | .otherDelete _ id => [id]
  | .coinBurn _ _ c | .coinJoin _ _ c => [c]
  | _ => []

/-- The transaction that makes one call. -/
def callTx (sender : A) (call : Call A) : Tx A :=
  ⟨sender, call.consumes, [call]⟩

/-- The marketplace calls that leave no value to the transaction. -/
def Call.closed : Call A → Bool
  | .list .. | .delistAndTake .. | .buyAndTake .. | .takeProfitsAndKeep .. => true
  | _ => false

variable [DecidableEq A] [AddressSpace A]

/-- `Single w ctx call w'`: the transaction that makes just `call` leads from `w`
to `w'`. -/
inductive Single (w : World A) (ctx : TxContext A) : Call A → World A → Prop
  | list {t coin : TypeTag} {m k : A} {ask : UInt64} {i : Item A} (hm : w.markets m = some coin)
      (hf : w.free k = some (.address ctx.sender, i)) (ht : i.type = t) :
      Single w ctx (.list t coin m k ask)
        ((w.setFree k none).setSlot m k (some ⟨(objectNew ctx).1, ask, ctx.sender, i⟩))
  | delistAndTake {t coin : TypeTag} {m k : A} {L : Slot A} (hm : w.markets m = some coin)
      (hw : w.slots (m, k) = some L) (hs : ctx.sender = L.seller) (ht : L.item.type = t) :
      Single w ctx (.delistAndTake t coin m k)
        ((w.setSlot m k none).setFree k (some (.address ctx.sender, L.item)))
  | buyAndTake {t coin : TypeTag} {m k paid : A} {L : Slot A} {c : Coin A}
      (hm : w.markets m = some coin)
      (hf : w.free paid = some (.address ctx.sender, .coin coin L.ask))
      (hw : w.slots (m, k) = some L) (ht : L.item.type = t)
      (hc : Credited ⟨paid, L.ask⟩ (w.profits (m, L.seller)) c) :
      Single w ctx (.buyAndTake t coin m k paid)
        ((((w.setFree paid none).setSlot m k none).setProfits m L.seller (some c)).setFree k
          (some (.address ctx.sender, L.item)))
  | takeProfitsAndKeep {coin : TypeTag} {m : A} {c : Coin A} (hm : w.markets m = some coin)
      (hp : w.profits (m, ctx.sender) = some c) :
      Single w ctx (.takeProfitsAndKeep coin m)
        ((w.setProfits m ctx.sender none).setFree c.id
          (some (.address ctx.sender, .coin coin c.balance)))

namespace Layout

variable {ctx : TxContext A} {w : World A} {o : Objects A}

theorem idle_iff (hl : Layout ctx w o) :
    Idle o ↔ ∀ id b i, w.free id ≠ some (.transaction b, i) := by
  constructor
  · intro hi id b i hf
    exact hi.freeAt ((hl.freeAt_eq id).trans hf)
  · intro h id _
    cases ho : o.lookup id with
    | none => rfl
    | some x =>
      obtain ⟨owner, d⟩ := x
      cases owner with
      | transaction b =>
        obtain ⟨i, -, hf⟩ := hl.free_of_lookup (h := .transaction b) ho
        exact absurd hf (h id b i)
      | _ => rfl

/-- An input that is not there any more is not given back. -/
theorem returnInput_eq (hl : Layout ctx w o) (sender : A) {id : A} (hf : w.free id = none) :
    returnInput sender o id = o := by
  unfold returnInput
  split
  · next x ho =>
    split
    · next hown =>
      obtain ⟨owner, d⟩ := x
      cases hown
      obtain ⟨i, -, hw⟩ := hl.free_of_lookup (h := .transaction true) ho
      rw [hf] at hw
      cases hw
    · rfl
  · rfl

theorem returnInputs_eq (hl : Layout ctx w o) (sender : A) {ids : List A}
    (hf : ∀ id ∈ ids, w.free id = none) : ids.foldl (returnInput sender) o = o := by
  induction ids with
  | nil => rfl
  | cons id ids ih =>
    rw [List.foldl_cons, hl.returnInput_eq sender (hf id (by simp))]
    exact ih fun id' h => hf id' (by simp [h])

theorem loadInput_eq (hl : Layout ctx w o) {sender id : A} {i : Item A}
    (hf : w.free id = some (.address sender, i)) :
    loadInput sender o id = .ok (o.insert id ⟨.transaction true, .item i⟩) := by
  rw [loadInput, hl.lookup_free hf]
  simp [Holder.toOwner]

theorem loadInputs_one (hl : Layout ctx w o) {sender id : A} {i : Item A}
    (hf : w.free id = some (.address sender, i)) :
    [id].foldlM (loadInput sender) o = .ok (o.insert id ⟨.transaction true, .item i⟩) := by
  rw [List.foldlM_cons, hl.loadInput_eq hf]
  rfl

end Layout

/-! ## From the transaction to the world -/

namespace History

variable {h : List (Entry A)} {c c' : Chain A} {s : A} {call : Call A}

/-- What a committed transaction of one call went through: the inputs are
loaded, the call is made, and nothing is left to give back. -/
theorem single_phases (hc : History h c) (hr : c.running = false) {es : List (Entry A)}
    (he : execTx c (callTx s call) = .ok (c', es)) :
    ∃ c1 c2 out, startTx c s call.consumes = .ok c1 ∧ History h c1 ∧ c1.running = true ∧
      c1.ctx = ⟨s, c.ctx.txHash + 1, 0⟩ ∧ BookMarket.exec c1 call = .ok (c2, out) ∧
      finishTx c2 = .ok c' ∧ es = [⟨s, call, out⟩] ∧ History (h ++ es) c2 ∧
      c2.inputs = call.consumes ∧ c2.ctx.sender = s := by
  obtain ⟨c1, h1, h2⟩ := bind_eq_ok.1 he
  obtain ⟨⟨c2, fs⟩, h3, h4⟩ := bind_eq_ok.1 h2
  obtain ⟨c3, h5, h6⟩ := bind_eq_ok.1 h4
  obtain ⟨⟨_, out⟩, h7, h8⟩ := bind_eq_ok.1 h3
  cases h8
  cases h6
  have h1' : startTx c s call.consumes = .ok c1 := h1
  obtain ⟨hrun, hctx, hin, -⟩ := startTx_eq_ok h1'
  have hc1 := hc.start hr h1'
  have hc2 := hc1.call hrun h7
  obtain ⟨_, -, hstep⟩ := (hc1.exec_sim call).exists_of_ok h7
  have hs : c1.ctx.sender = s := by rw [hctx]
  refine ⟨c1, c2, out, h1', hc1, hrun, hctx, h7, h5, by rw [hs], hc2, hstep.inputs.trans hin, ?_⟩
  rw [(hc1.effect h7).sender, hs]

omit [AddressSpace A] in
/-- Loading nothing. -/
theorem start_nil_objects {c1 : Chain A} (hs : startTx c s [] = .ok c1) : c1.objects = c.objects := by
  obtain ⟨-, -, -, h⟩ := startTx_eq_ok hs
  exact (Except.ok.inj h).symm

/-- Loading one input. -/
theorem start_one (hc : History h c) {id : A} {c1 : Chain A} (hs : startTx c s [id] = .ok c1) :
    ∃ i, freeAt c.objects id = some (.address s, i) ∧
      worldOf c1.objects = (worldOf c.objects).setFree id (some (.transaction true, i)) := by
  obtain ⟨-, -, -, h⟩ := startTx_eq_ok hs
  rw [List.foldlM_cons] at h
  obtain ⟨o', h1, h2⟩ := bind_eq_ok.1 h
  rw [← Except.ok.inj h2]
  obtain ⟨i, hf, hl⟩ := hc.layout.loadInput_layout h1
  exact ⟨i, hf, hl.worldOf_eq⟩

/-- Nothing to give back. -/
theorem finish_world {h2 : List (Entry A)} {c2 : Chain A} (hc2 : History h2 c2)
    (hf : finishTx c2 = .ok c') (hin : ∀ id ∈ c2.inputs, freeAt c2.objects id = none) :
    worldOf c'.objects = worldOf c2.objects := by
  have hret := hc2.layout.returnInputs_eq c2.ctx.sender hin
  simp only [finishTx, hret] at hf
  split at hf
  · cases hf
    rfl
  · cases hf

/-- **A committed transaction of one call did what `Single` says.** -/
theorem single_of_execTx (hc : History h c) (hr : c.running = false) (hcl : call.closed = true)
    {es : List (Entry A)} (he : execTx c (callTx s call) = .ok (c', es)) :
    Single (worldOf c.objects) ⟨s, c.ctx.txHash + 1, 0⟩ call (worldOf c'.objects) := by
  obtain ⟨c1, c2, out, hstart, hc1, -, hctx, hexec, hfin, -, hc2, hin, -⟩ :=
    hc.single_phases hr he
  have heff := hc1.effect hexec
  rw [hctx] at heff
  have hworld := hc2.finish_world hfin
  rw [hin] at hworld
  cases call with
  | list t coin m k ask =>
    obtain ⟨i, hf, hw1⟩ := hc.start_one hstart
    rw [hw1] at heff
    obtain ⟨b, i', hm, hf', ht, -, hw2⟩ := heff.list_inv rfl
    rw [World.free_setFree_self] at hf'
    cases hf'
    rw [World.setFree_setFree] at hw2
    rw [hworld fun id hid => ?_, hw2]
    · exact .list hm hf ht
    · obtain rfl := List.mem_singleton.1 hid
      rw [freeAt_worldOf, hw2]
      simp
  | delistAndTake t coin m k =>
    rw [start_nil_objects hstart] at heff
    obtain ⟨L, hm, hw, hs, ht, -, hw2⟩ := heff.delist_inv rfl
    rw [hworld (List.forall_mem_nil _), hw2]
    exact .delistAndTake hm hw hs ht
  | buyAndTake t coin m k paid =>
    obtain ⟨i, hf, hw1⟩ := hc.start_one hstart
    rw [hw1] at heff
    obtain ⟨L, b, p, hm, hf', hw, ht, hcr, -, hw2⟩ := heff.buy_inv rfl
    rw [World.free_setFree_self] at hf'
    cases hf'
    have hkp : paid ≠ k := hc.layout.free_ne_item hf hw
    rw [World.setFree_setFree] at hw2
    rw [hworld fun id hid => ?_, hw2]
    · exact .buyAndTake hm hf hw ht hcr
    · obtain rfl := List.mem_singleton.1 hid
      rw [freeAt_worldOf, hw2, World.free_setFree_of_ne hkp]
      simp
  | takeProfitsAndKeep coin m =>
    rw [start_nil_objects hstart] at heff
    obtain ⟨p, hm, hp, -, hw2⟩ := heff.takeProfits_inv rfl
    rw [hworld (List.forall_mem_nil _), hw2]
    exact .takeProfitsAndKeep hm hp
  | _ => cases hcl

/-! ## And back -/

/-- A transaction of one call commits when its inputs can be loaded, the call
succeeds, and nothing is left in the hands of the transaction. -/
theorem execTx_of_world (hc : History h c) (hr : c.running = false) {o1 : Objects A} {w1 w2 : World A}
    {ctx2 : TxContext A} {out : Option (Obj A)}
    (hload : call.consumes.foldlM (loadInput s) c.objects = .ok o1)
    (hl1 : Layout ⟨s, c.ctx.txHash + 1, 0⟩ w1 o1)
    (hexec : w1.exec ⟨s, c.ctx.txHash + 1, 0⟩ call = .ok (w2, ctx2, out))
    (hgone : ∀ id ∈ call.consumes, w2.free id = none)
    (hidle : ∀ id b i, w2.free id ≠ some (.transaction b, i)) :
    ∃ c', execTx c (callTx s call) = .ok (c', [⟨s, call, out⟩]) ∧
      worldOf c'.objects = w2 := by
  let c1 : Chain A := ⟨o1, true, ⟨s, c.ctx.txHash + 1, 0⟩, call.consumes, c.events⟩
  have hstart : startTx c s call.consumes = .ok c1 := by
    rw [startTx, hload]
    rfl
  have hc1 := hc.start hr hstart
  obtain ⟨⟨c2, out'⟩, he, hin⟩ :=
    (BookMarket.exec_sim (c := c1) (w := w1) hl1 call).exists_of_ok' hexec
  obtain ⟨hl2, hctx2, rfl, hrun, hinp⟩ := hin
  have hret : c2.inputs.foldl (returnInput c2.ctx.sender) c2.objects = c2.objects :=
    hl2.returnInputs_eq _ (by rw [hinp]; exact hgone)
  have hfin : finishTx c2 = .ok { c2 with running := false, inputs := [] } := by
    simp only [finishTx, hret, if_pos (hl2.idle_iff.2 hidle)]
  refine ⟨{ c2 with running := false, inputs := [] }, ?_, hl2.worldOf_eq⟩
  simp only [execTx, callTx, hstart, ok_bind, execCalls, he, pure_eq_ok, hfin]
  rfl

/-- **A transaction of one call commits when `Single` says so.** -/
theorem execTx_of_single (hc : History h c) (hr : c.running = false) {w' : World A}
    (hs : Single (worldOf c.objects) ⟨s, c.ctx.txHash + 1, 0⟩ call w') :
    ∃ c' es, execTx c (callTx s call) = .ok (c', es) ∧ worldOf c'.objects = w' := by
  have hl := hc.layout
  have hl0 : Layout ⟨s, c.ctx.txHash + 1, 0⟩ (worldOf c.objects) c.objects :=
    hl.mono fun _ hu => hu.nextTx s
  have hidle : ∀ id b i, (worldOf c.objects).free id ≠ some (.transaction b, i) :=
    hl.idle_iff.1 (hc.idle hr)
  -- nothing but the object that is handed out has come into anybody's hands
  have hkeep {w : World A} {a : A} {v : Option (Holder A × Item A)}
      (hw : ∀ id b i, w.free id ≠ some (.transaction b, i))
      (hv : ∀ b i, v ≠ some (.transaction b, i)) :
      ∀ id b i, (w.setFree a v).free id ≠ some (.transaction b, i) := by
    intro id b i
    by_cases hid : id = a
    · subst hid
      rw [World.free_setFree_self]
      exact hv b i
    · rw [World.free_setFree_of_ne hid]
      exact hw id b i
  cases hs with
  | @list t coin m k ask i hm hf ht =>
    subst ht
    have hl1 := hl0.put (Or.inr ⟨_, hf⟩) (hl0.used_free hf) (.transaction true) i
    have hexec : ((worldOf c.objects).setFree k (some (.transaction true, i))).exec
        ⟨s, c.ctx.txHash + 1, 0⟩ (.list i.type coin m k ask) = _ :=
      World.exec_list rfl hm (World.free_setFree_self _ _ _)
    rw [World.setFree_setFree] at hexec
    obtain ⟨c', he, hw⟩ := hc.execTx_of_world hr (hl.loadInputs_one hf) hl1 hexec
      (fun id hid => by
        obtain rfl := List.mem_singleton.1 hid
        simp)
      (hkeep hidle fun _ _ => by simp)
    exact ⟨c', _, he, hw⟩
  | @delistAndTake t coin m k L hm hw hs ht =>
    have hexec : (worldOf c.objects).exec ⟨s, c.ctx.txHash + 1, 0⟩ (.delistAndTake t coin m k) = _ :=
      World.exec_delist_ok rfl hm hw hs.symm ht
    obtain ⟨c', he, hw⟩ := hc.execTx_of_world hr rfl hl0 hexec
      (List.forall_mem_nil _)
      (hkeep hidle fun _ _ => by simp [Call.receiver])
    exact ⟨c', _, he, hw⟩
  | @buyAndTake t coin m k paid L p hm hf hw ht hcr =>
    have hkp : paid ≠ k := hl.free_ne_item hf hw
    have hl1 := hl0.put (Or.inr ⟨_, hf⟩) (hl0.used_free hf) (.transaction true) (.coin coin L.ask)
    have hexec : ((worldOf c.objects).setFree paid
        (some (.transaction true, .coin coin L.ask))).exec ⟨s, c.ctx.txHash + 1, 0⟩
        (.buyAndTake t coin m k paid) = _ :=
      World.exec_buy_ok rfl hm (World.free_setFree_self _ _ _) hw ht hcr
    rw [World.setFree_setFree] at hexec
    obtain ⟨c', he, hw⟩ := hc.execTx_of_world hr (hl.loadInputs_one hf) hl1 hexec
      (fun id hid => by
        obtain rfl := List.mem_singleton.1 hid
        simp [World.free_setFree_of_ne hkp])
      (hkeep (hkeep hidle fun _ _ => by simp) fun _ _ => by simp [Call.receiver])
    exact ⟨c', _, he, hw⟩
  | @takeProfitsAndKeep coin m p hm hp =>
    have hexec : (worldOf c.objects).exec ⟨s, c.ctx.txHash + 1, 0⟩ (.takeProfitsAndKeep coin m) = _ :=
      World.exec_takeProfits_ok rfl hm hp
    obtain ⟨c', he, hw⟩ := hc.execTx_of_world hr rfl hl0 hexec
      (List.forall_mem_nil _)
      (hkeep hidle fun _ _ => by simp [Call.receiver])
    exact ⟨c', _, he, hw⟩

end History

end BookMarket
