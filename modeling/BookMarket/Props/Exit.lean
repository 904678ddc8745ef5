import BookMarket.Chain.Single

/-!
# The way out of a listing

A listed item has one way out: its seller takes it back, or somebody pays
exactly the ask, all of which goes to the seller.  Until then nothing happens to
it, and afterwards there is nothing left to compete for.

* `History.listing_stays`, `History.absent_stays` — the two "until" arguments,
  for one event; `Run.listing_stays`, `Run.absent_stays` for whole runs.
* `ExitOf` — a rightful exit.
* `Admissible` — when an attempt on a listing succeeds.
* `run_contenders` — of any number of transactions that compete for an item, in
  any order, the first that can commit does, and no other one.
* `exitRule` — **the exit rule, and no double sale.**
-/

namespace BookMarket

open Simulation Runs

variable {A : Type}

/-- The call tries to take item `k` out of marketplace `m`. -/
def Call.exits (m k : A) (call : Call A) : Prop :=
  (∃ t coin, call.op = some (.delist t coin m k)) ∨
    ∃ t coin paid, call.op = some (.buy t coin m k paid)

/-- The call tries to list item `k` in marketplace `m`. -/
def Call.lists (m k : A) (call : Call A) : Prop :=
  ∃ t coin ask, call.op = some (.list t coin m k ask)

/-- The transaction competes for item `k` of marketplace `m`, and does not list it
again. -/
def Contends (m k : A) (tx : Tx A) : Prop :=
  (∃ call ∈ tx.calls, call.exits m k) ∧ ∀ call ∈ tx.calls, ¬ call.lists m k

variable [DecidableEq A] [AddressSpace A]

/-! ## One event -/

namespace History

variable {h : List (Entry A)} {c c' : Chain A} {m k : A} {L : Slot A} {call : Call A}
  {out : Option (Obj A)}

/-- An item that is listed cannot be listed again. -/
theorem not_list (hc : History h c) (hL : listingAt c.objects m k = some L)
    (he : BookMarket.exec c call = .ok (c', out)) : ¬ call.lists m k := by
  rintro ⟨t, coin, ask, hop⟩
  obtain ⟨b, i, -, hf, -, -, -⟩ := (hc.effect he).list_inv hop
  exact hc.layout.free_ne_item hf hL rfl

/-- An item that is not listed cannot be taken out. -/
theorem not_exit (hc : History h c) (hL : listingAt c.objects m k = none)
    (he : BookMarket.exec c call = .ok (c', out)) : ¬ call.exits m k := by
  rintro (⟨t, coin, hop⟩ | ⟨t, coin, paid, hop⟩)
  · obtain ⟨L, -, hw, -⟩ := (hc.effect he).delist_inv hop
    cases hL.symm.trans hw
  · obtain ⟨L, b, p, -, -, hw, -⟩ := (hc.effect he).buy_inv hop
    cases hL.symm.trans hw

/-- What puts an item up leaves a listing of it. -/
theorem listed (hc : History h c) (he : BookMarket.exec c call = .ok (c', out)) {t coin : TypeTag}
    {a : UInt64} (hop : call.op = some (.list t coin m k a)) :
    ∃ b i, freeAt c.objects k = some (.transaction b, i) ∧ i.type = t ∧
      listingAt c'.objects m k = some ⟨(objectNew c.ctx).1, a, c.ctx.sender, i⟩ := by
  obtain ⟨b, i, -, hf, ht, -, hw'⟩ := (hc.effect he).list_inv hop
  refine ⟨b, i, hf, ht, ?_⟩
  rw [listingAt_worldOf, hw']
  simp

/-- What takes an item out leaves no listing of it. -/
theorem exit_gone (hc : History h c) (he : BookMarket.exec c call = .ok (c', out))
    (hx : call.exits m k) : listingAt c'.objects m k = none := by
  rcases hx with ⟨t, coin, hop⟩ | ⟨t, coin, paid, hop⟩
  · obtain ⟨L, -, -, -, -, -, hw'⟩ := (hc.effect he).delist_inv hop
    rw [listingAt_worldOf, hw']
    simp
  · obtain ⟨L, b, p, -, -, -, -, -, -, hw'⟩ := (hc.effect he).buy_inv hop
    rw [listingAt_worldOf, hw']
    simp

/-- A listing stays until somebody takes the item out. -/
theorem listing_stays (hc : History h c) {e : Event A} (hs : Step c e c')
    (hL : listingAt c.objects m k = some L)
    (hno : ∀ entry, e = .call entry → ¬ entry.call.exits m k) :
    listingAt c'.objects m k = some L := by
  by_contra hne
  obtain ⟨entry, rfl, hop⟩ := hc.listing_of_ne hs (m := m) (k := k) (by rw [hL]; exact hne)
  cases hs with
  | call hr he =>
    rcases hop with hop | hop
    · exact hc.not_list hL he hop
    · exact hno _ rfl hop

/-- Where there is no listing, there is none until the item is listed. -/
theorem absent_stays (hc : History h c) {e : Event A} (hs : Step c e c')
    (hL : listingAt c.objects m k = none)
    (hno : ∀ entry, e = .call entry → ¬ entry.call.lists m k) :
    listingAt c'.objects m k = none := by
  by_contra hne
  obtain ⟨entry, rfl, hop⟩ := hc.listing_of_ne hs (m := m) (k := k) (by rw [hL]; exact hne)
  cases hs with
  | call hr he =>
    rcases hop with hop | hop
    · exact hno _ rfl hop
    · exact hc.not_exit hL he hop

/-- A history goes on with the events of a run. -/
theorem append (hc : History h c) {es : List (Event A)} (hrun : Run Step c es c') :
    History (h ++ calls es) c' := by
  obtain ⟨fs, hfs, rfl⟩ := hc
  exact ⟨fs ++ es, hfs.append hrun, by simp [calls]⟩

end History

/-! ## Whole runs -/

section Runs

variable {h : List (Entry A)} {c c' : Chain A} {m k : A} {L : Slot A} {es : List (Event A)}

omit [DecidableEq A] [AddressSpace A] in
theorem mem_calls {entry : Entry A} (he : Event.call entry ∈ es) : entry ∈ calls es :=
  List.mem_filterMap.2 ⟨_, he, rfl⟩

/-- A listing stays along every run in which nobody takes the item out. -/
theorem Run.listing_stays (hc : History h c) (hL : listingAt c.objects m k = some L)
    (hrun : Run Step c es c') (hno : ∀ e ∈ calls es, ¬ e.call.exits m k) :
    listingAt c'.objects m k = some L := by
  have := hrun.invariantOn (I := fun c => (∃ h, History h c) ∧ listingAt c.objects m k = some L)
    (p := fun e => ∀ entry, e = .call entry → ¬ entry.call.exits m k) ⟨⟨h, hc⟩, hL⟩ ?_ ?_
  · exact this.2
  · rintro c e c' hp ⟨⟨h, hc⟩, hL⟩ hs
    exact ⟨⟨_, hc.append (.single hs)⟩, hc.listing_stays hs hL hp⟩
  · rintro e he entry rfl
    exact hno entry (mem_calls he)

/-- The absence of a listing stays along every run in which nobody lists the
item, and so nobody takes it out. -/
theorem Run.absent_stays (hc : History h c) (hL : listingAt c.objects m k = none)
    (hrun : Run Step c es c') (hno : ∀ e ∈ calls es, ¬ e.call.lists m k) :
    listingAt c'.objects m k = none ∧ ∀ e ∈ calls es, ¬ e.call.exits m k := by
  induction hrun with
  | nil => exact ⟨hL, List.forall_mem_nil _⟩
  | @snoc es c1 c2 ev hrun hs ih =>
    have hcalls : calls (es ++ [ev]) = calls es ++ calls [ev] := by simp [calls]
    rw [hcalls] at hno ⊢
    obtain ⟨hL1, hex⟩ := ih fun e he => hno e (List.mem_append_left _ he)
    have hc1 := hc.append hrun
    refine ⟨hc1.absent_stays hs hL1 ?_, fun e he => ?_⟩
    · rintro entry rfl
      exact hno entry (List.mem_append_right _ (by simp [calls]))
    · rcases List.mem_append.1 he with he | he
      · exact hex e he
      · cases hs with
        | call hr hexec =>
          obtain rfl : e = _ := by simpa [calls] using he
          exact hc1.not_exit hL1 hexec
        | start => simp [calls] at he
        | finish => simp [calls] at he

end Runs

/-! ## Exits -/

/-- A rightful exit of the item `i` that `s` listed in `m` for `a`: the very item is
handed out, and nothing else changes hands but the payment. -/
structure ExitOf (m i s : A) (a : UInt64) (item : Item A) (c : Chain A) (e : Entry A)
    (c' : Chain A) : Prop where
  out : e.out = some ⟨i, .item item⟩
  received : freeAt c'.objects i = some (e.call.receiver e.sender, item)
  gone : listingAt c'.objects m i = none
  settled :
    (∃ t coin, e.call.op = some (.delist t coin m i) ∧ e.sender = s ∧
      (∀ m' s', profitsAt c'.objects m' s' = profitsAt c.objects m' s') ∧
      ∀ id, id ≠ i → freeAt c'.objects id = freeAt c.objects id) ∨
    ∃ t coin paid b, e.call.op = some (.buy t coin m i paid) ∧
      freeAt c.objects paid = some (.transaction b, .coin coin a) ∧
      freeAt c'.objects paid = none ∧
      coinValue (profitsAt c'.objects m s) = coinValue (profitsAt c.objects m s) + a.toNat ∧
      ∀ id, id ≠ i → id ≠ paid → freeAt c'.objects id = freeAt c.objects id

/-- Every call that takes an item out is a rightful exit. -/
theorem History.exitOf {h : List (Entry A)} {c c' : Chain A} {m i : A} {L : Slot A} {call : Call A}
    {out : Option (Obj A)} (hc : History h c) (hL : listingAt c.objects m i = some L)
    (he : exec c call = .ok (c', out)) (hx : call.exits m i) :
    ExitOf m i L.seller L.ask L.item c ⟨c.ctx.sender, call, out⟩ c' := by
  have hgone := hc.exit_gone he hx
  have hslot : (worldOf c.objects).slots (m, i) = some L := hL
  rcases hx with ⟨t, coin, hop⟩ | ⟨t, coin, paid, hop⟩
  · obtain ⟨L', -, hw, hs, -, hout, hw'⟩ := (hc.effect he).delist_inv hop
    cases hslot.symm.trans hw
    refine ⟨hout, ?_, hgone, Or.inl ⟨t, coin, hop, hs, ?_, ?_⟩⟩
    · rw [freeAt_worldOf, hw', World.free_setFree_self]
    · intro m' s'
      rw [profitsAt_worldOf, hw']
      rfl
    · intro id hid
      rw [freeAt_worldOf, hw', World.free_setFree_of_ne hid]
      rfl
  · obtain ⟨L', b, p, -, hf, hw, -, hcr, hout, hw'⟩ := (hc.effect he).buy_inv hop
    cases hslot.symm.trans hw
    have hpi : paid ≠ i := hc.layout.free_ne_item hf hslot
    have hprofits : profitsAt c'.objects m L.seller = some p := by
      rw [profitsAt_worldOf, hw']
      simp
    refine ⟨hout, ?_, hgone, Or.inr ⟨t, coin, paid, b, hop, hf, ?_, ?_, ?_⟩⟩
    · rw [freeAt_worldOf, hw', World.free_setFree_self]
    · rw [freeAt_worldOf, hw', World.free_setFree_of_ne hpi]
      simp
    · rw [hprofits, coinValue_some, hcr.value]
      rfl
    · intro id hid hne
      rw [freeAt_worldOf, hw', World.free_setFree_of_ne hid]
      exact World.free_setFree_of_ne hne

/-! ## Attempts -/

/-- When an attempt on the listing of `i` in `m` succeeds: the sender is the
seller, or pays exactly the ask with a coin the transaction holds (that the
seller's coin can take), and the type asked for is that of the item. -/
def Admissible (c : Chain A) (m i : A) (call : Call A) : Prop :=
  ∃ L coin, listingAt c.objects m i = some L ∧ marketAt c.objects m = some coin ∧
    (call.op = some (.delist L.item.type coin m i) ∧ L.seller = c.ctx.sender ∨
      ∃ paid b, call.op = some (.buy L.item.type coin m i paid) ∧
        freeAt c.objects paid = some (.transaction b, .coin coin L.ask) ∧
        Fits L.ask (profitsAt c.objects m L.seller))

theorem History.admissible_iff {h : List (Entry A)} {c : Chain A} {m i : A} {call : Call A}
    (hc : History h c) (hx : call.exits m i) :
    (∃ c' out, exec c call = .ok (c', out)) ↔ Admissible c m i call := by
  constructor
  · rintro ⟨c', out, he⟩
    rcases hx with ⟨t, coin, hop⟩ | ⟨t, coin, paid, hop⟩
    · obtain ⟨L, hm, hw, hs, rfl, -, -⟩ := (hc.effect he).delist_inv hop
      exact ⟨L, coin, hw, hm, Or.inl ⟨hop, hs.symm⟩⟩
    · obtain ⟨L, b, p, hm, hf, hw, rfl, hcr, -, -⟩ := (hc.effect he).buy_inv hop
      exact ⟨L, coin, hw, hm, Or.inr ⟨paid, b, hop, hf, hcr.fits⟩⟩
  · rintro ⟨L, coin, hL, hm, ⟨hop, hs⟩ | ⟨paid, b, hop, hf, hfits⟩⟩
    · obtain ⟨⟨c', out⟩, he, -⟩ := (hc.exec_sim call).exists_of_ok'
        (World.exec_delist_ok hop hm hL hs rfl)
      exact ⟨c', out, he⟩
    · obtain ⟨p, hcr, -⟩ := World.credit_of_fits (w := worldOf c.objects) (p := ⟨paid, L.ask⟩) hfits
      obtain ⟨⟨c', out⟩, he, -⟩ := (hc.exec_sim call).exists_of_ok'
        (World.exec_buy_ok hop hm hf hL rfl hcr)
      exact ⟨c', out, he⟩

/-! ## Competing transactions -/

omit [DecidableEq A] [AddressSpace A] in
/-- The log has one exit of item `i` from `m`, and no other one. -/
def OneExit (m i : A) (es : List (Entry A)) : Prop :=
  ∃ pre e post, es = pre ++ e :: post ∧ e.call.exits m i ∧ (∀ e' ∈ pre, ¬ e'.call.exits m i) ∧
    ∀ e' ∈ post, ¬ e'.call.exits m i

/-- A transaction that does not commit. -/
def Aborts (c : Chain A) (tx : Tx A) : Prop :=
  ∃ e, execTx c tx = .error e

section Contenders

variable {h : List (Entry A)} {c c' : Chain A} {m i : A}

/-- The calls of a transaction, when there is no listing to compete for. -/
theorem History.execCalls_absent (hc : History h c) (hr : c.running = true)
    (hL : listingAt c.objects m i = none) {cs : List (Call A)} (hno : ∀ call ∈ cs, ¬ call.lists m i)
    {es : List (Entry A)} (he : execCalls c cs = .ok (c', es)) :
    listingAt c'.objects m i = none ∧ (∀ call ∈ cs, ¬ call.exits m i) ∧
      ∀ e ∈ es, ¬ e.call.exits m i := by
  induction cs generalizing h c es with
  | nil =>
    cases he
    exact ⟨hL, List.forall_mem_nil _, List.forall_mem_nil _⟩
  | cons call cs ih =>
    obtain ⟨⟨c1, out⟩, h1, h2⟩ := bind_eq_ok.1 he
    obtain ⟨⟨c2, fs⟩, h3, h4⟩ := bind_eq_ok.1 h2
    cases h4
    have hx := hc.not_exit hL h1
    have hL1 := hc.absent_stays (.call hr h1) hL fun entry e => by
      cases e
      exact hno call (by simp)
    obtain ⟨_, -, hin⟩ := (hc.exec_sim call).exists_of_ok h1
    obtain ⟨hL2, h5, h6⟩ := ih (hc.call hr h1) (hin.running.trans hr) hL1
      (fun call' h => hno call' (by simp [h])) h3
    exact ⟨hL2, List.forall_mem_cons.2 ⟨hx, h5⟩, List.forall_mem_cons.2 ⟨hx, h6⟩⟩

/-- The calls of a contender that goes through: one of them takes the item out. -/
theorem History.execCalls_exit (hc : History h c) (hr : c.running = true) {cs : List (Call A)}
    (hno : ∀ call ∈ cs, ¬ call.lists m i) (hx : ∃ call ∈ cs, call.exits m i)
    {es : List (Entry A)} (he : execCalls c cs = .ok (c', es)) :
    listingAt c'.objects m i = none ∧ OneExit m i es := by
  induction cs generalizing h c es with
  | nil =>
    obtain ⟨call, hmem, -⟩ := hx
    exact (List.not_mem_nil hmem).elim
  | cons call cs ih =>
    obtain ⟨⟨c1, out⟩, h1, h2⟩ := bind_eq_ok.1 he
    obtain ⟨⟨c2, fs⟩, h3, h4⟩ := bind_eq_ok.1 h2
    cases h4
    obtain ⟨_, -, hin⟩ := (hc.exec_sim call).exists_of_ok h1
    have hc1 := hc.call hr h1
    have hr1 := hin.running.trans hr
    have hno1 : ∀ call ∈ cs, ¬ call.lists m i := fun call' h => hno call' (by simp [h])
    by_cases hcx : call.exits m i
    · obtain ⟨hL2, -, h6⟩ := hc1.execCalls_absent hr1 (hc.exit_gone h1 hcx) hno1 h3
      exact ⟨hL2, [], _, fs, rfl, hcx, List.forall_mem_nil _, h6⟩
    · have hx1 : ∃ call ∈ cs, call.exits m i := by
        obtain ⟨call', hmem, hx'⟩ := hx
        rcases List.mem_cons.1 hmem with rfl | hmem
        · exact absurd hx' hcx
        · exact ⟨call', hmem, hx'⟩
      obtain ⟨hL2, pre, e, post, rfl, hex, hpre, hpost⟩ := ih hc1 hr1 hno1 hx1 h3
      exact ⟨hL2, _ :: pre, e, post, rfl, hex, List.forall_mem_cons.2 ⟨hcx, hpre⟩, hpost⟩

/-- A contender aborts when there is no listing. -/
theorem History.contender_aborts (hc : History h c) (hr : c.running = false)
    (hL : listingAt c.objects m i = none) {tx : Tx A} (hct : Contends m i tx) : Aborts c tx := by
  refine exists_error ?_
  rintro ⟨c', es⟩ he
  obtain ⟨c1, h1, h2⟩ := bind_eq_ok.1 he
  obtain ⟨⟨c2, fs⟩, h3, -⟩ := bind_eq_ok.1 h2
  have hL1 := hc.absent_stays (.start hr h1) hL fun entry e => by cases e
  obtain ⟨-, hno, -⟩ := (hc.start hr h1).execCalls_absent (startTx_eq_ok h1).1 hL1 hct.2 h3
  obtain ⟨call, hmem, hx⟩ := hct.1
  exact hno call hmem hx

/-- A contender that commits takes the item out, once. -/
theorem History.contender_commits (hc : History h c) (hr : c.running = false) {tx : Tx A}
    (hct : Contends m i tx) {es : List (Entry A)} (he : execTx c tx = .ok (c', es)) :
    listingAt c'.objects m i = none ∧ OneExit m i es := by
  obtain ⟨c1, h1, h2⟩ := bind_eq_ok.1 he
  obtain ⟨⟨c2, fs⟩, h3, h4⟩ := bind_eq_ok.1 h2
  obtain ⟨c3, h5, h6⟩ := bind_eq_ok.1 h4
  cases h6
  have hc1 := hc.start hr h1
  have hr1 := (startTx_eq_ok h1).1
  obtain ⟨hL2, hex⟩ := hc1.execCalls_exit hr1 hct.2 hct.1 h3
  obtain ⟨hc2, hr2⟩ := hc1.afterCalls hr1 h3
  exact ⟨hc2.absent_stays (.finish hr2 h5) hL2 fun entry e => (by cases e), hex⟩

/-- Transactions that all abort leave everything as it was. -/
theorem run_of_aborts {txs : List (Tx A)} (h : ∀ tx ∈ txs, Aborts c tx) : run c txs = (c, []) := by
  induction txs with
  | nil => rfl
  | cons tx txs ih =>
    obtain ⟨e, he⟩ := h tx (by simp)
    rw [run_cons_of_error he]
    exact ih fun tx' h' => h tx' (by simp [h'])

/-- **The first contender that can commit does, and no other one.** -/
theorem run_contenders (hc : History h c) (hr : c.running = false) {txs : List (Tx A)}
    (hct : ∀ tx ∈ txs, Contends m i tx) :
    (∀ tx ∈ txs, Aborts c tx) ∧ run c txs = (c, []) ∨
    ∃ pre tx post c' es, txs = pre ++ tx :: post ∧ (∀ tx' ∈ pre, Aborts c tx') ∧
      execTx c tx = .ok (c', es) ∧ OneExit m i es ∧ (∀ tx' ∈ post, Aborts c' tx') ∧
      run c txs = (c', es) ∧ listingAt c'.objects m i = none := by
  induction txs with
  | nil => exact Or.inl ⟨List.forall_mem_nil _, rfl⟩
  | cons tx txs ih =>
    have hct' : ∀ tx ∈ txs, Contends m i tx := fun tx' h => hct tx' (by simp [h])
    cases he : execTx c tx with
    | error e =>
      rw [run_cons_of_error he]
      rcases ih hct' with ⟨hall, hres⟩ | ⟨pre, tx', post, c', es, rfl, hpre, hrest⟩
      · exact Or.inl ⟨List.forall_mem_cons.2 ⟨⟨e, he⟩, hall⟩, hres⟩
      · exact Or.inr ⟨tx :: pre, tx', post, c', es, rfl,
          List.forall_mem_cons.2 ⟨⟨e, he⟩, hpre⟩, hrest⟩
    | ok r =>
      obtain ⟨c', es⟩ := r
      obtain ⟨hL, hone⟩ := hc.contender_commits hr (hct tx (by simp)) he
      obtain ⟨hc', hr'⟩ := hc.afterTx hr he
      have hpost : ∀ tx' ∈ txs, Aborts c' tx' := fun tx' h => hc'.contender_aborts hr' hL (hct' tx' h)
      refine Or.inr ⟨[], tx, txs, c', es, rfl, List.forall_mem_nil _, he, hone,
        hpost, ?_, hL⟩
      rw [run_cons_of_ok he, run_of_aborts hpost, List.append_nil]

end Contenders

/-- When a transaction that consists of one attempt commits. -/
def AdmissibleTx (c : Chain A) (m i s : A) (call : Call A) : Prop :=
  ∃ L coin, listingAt c.objects m i = some L ∧ marketAt c.objects m = some coin ∧
    (call = .delistAndTake L.item.type coin m i ∧ L.seller = s ∨
      ∃ paid, call = .buyAndTake L.item.type coin m i paid ∧
        freeAt c.objects paid = some (.address s, .coin coin L.ask) ∧
        Fits L.ask (profitsAt c.objects m L.seller))

theorem History.admissibleTx_iff {h : List (Entry A)} {c : Chain A} {m i s : A} {call : Call A}
    (hc : History h c) (hr : c.running = false) (hcl : call.closed = true)
    (hx : call.exits m i) :
    (∃ c' es, execTx c (callTx s call) = .ok (c', es)) ↔ AdmissibleTx c m i s call := by
  constructor
  · rintro ⟨c', es, he⟩
    have hs := hc.single_of_execTx hr hcl he
    generalize worldOf c'.objects = w' at hs
    cases hs with
    | list | takeProfitsAndKeep => rcases hx with ⟨_, _, hop⟩ | ⟨_, _, _, hop⟩ <;> cases hop
    | delistAndTake hm hw hs ht =>
      rcases hx with ⟨_, _, hop⟩ | ⟨_, _, _, hop⟩
      · cases hop
        exact ⟨_, _, hw, hm, Or.inl ⟨by rw [ht], hs.symm⟩⟩
      · cases hop
    | buyAndTake hm hf hw ht hcr =>
      rcases hx with ⟨_, _, hop⟩ | ⟨_, _, _, hop⟩
      · cases hop
      · cases hop
        exact ⟨_, _, hw, hm, Or.inr ⟨_, by rw [ht], hf, hcr.fits⟩⟩
  · rintro ⟨L, coin, hL, hm, ⟨rfl, hs⟩ | ⟨paid, rfl, hf, hfits⟩⟩
    · obtain ⟨c', es, he, -⟩ := hc.execTx_of_single hr (.delistAndTake hm hL hs.symm rfl)
      exact ⟨c', es, he⟩
    · obtain ⟨p, hcr, -⟩ := World.credit_of_fits (w := worldOf c.objects) (p := ⟨paid, L.ask⟩) hfits
      obtain ⟨c', es, he, -⟩ := hc.execTx_of_single hr (.buyAndTake hm hf hL rfl hcr)
      exact ⟨c', es, he⟩

/-- **The exit rule, and no double sale.**  Item `i` has just been listed in `m` for
`a`.  Then, as long as nobody takes it out, whatever else happens, the listing
keeps the item, the ask and the seller; the first exit is a rightful one; from
then on, until the item is listed again, there is no listing, no exit, and every
attempt fails.  An attempt on the listing succeeds exactly when it is
admissible, as a call and as a transaction of its own; and of any number of
transactions that compete for the item, in any order, the first that can commit
does, with one exit, the others abort, and the chain is what that one leaves. -/
theorem exitRule {h : List (Entry A)} {c c1 : Chain A} {call : Call A} {out : Option (Obj A)}
    {t coin : TypeTag} {m i : A} {a : UInt64} (hc : History h c)
    (hs : Step c (.call ⟨c.ctx.sender, call, out⟩) c1)
    (hop : call.op = some (.list t coin m i a)) :
    ∃ b item uid, freeAt c.objects i = some (.transaction b, item) ∧ item.type = t ∧
      ∀ {es c2}, Run Step c1 es c2 → (∀ e ∈ calls es, ¬ e.call.exits m i) →
        listingAt c2.objects m i = some ⟨uid, a, c.ctx.sender, item⟩ ∧
        (∀ {e c3}, Step c2 (.call e) c3 → e.call.exits m i →
          ExitOf m i c.ctx.sender a item c2 e c3 ∧
          ∀ {fs c4}, Run Step c3 fs c4 → (∀ e ∈ calls fs, ¬ e.call.lists m i) →
            listingAt c4.objects m i = none ∧ (∀ e ∈ calls fs, ¬ e.call.exits m i) ∧
            (∀ attempt : Call A, attempt.exits m i → ∃ e, exec c4 attempt = .error e) ∧
            (c4.running = false → ∀ tx, Contends m i tx → Aborts c4 tx)) ∧
        (∀ attempt : Call A, attempt.exits m i →
          ((∃ c' out, exec c2 attempt = .ok (c', out)) ↔ Admissible c2 m i attempt)) ∧
        (c2.running = false →
          (∀ s (attempt : Call A), attempt.closed = true → attempt.exits m i →
            ((∃ c' es, execTx c2 (callTx s attempt) = .ok (c', es)) ↔
              AdmissibleTx c2 m i s attempt)) ∧
          ∀ txs, (∀ tx ∈ txs, Contends m i tx) →
            (∀ tx ∈ txs, Aborts c2 tx) ∧ run c2 txs = (c2, []) ∨
            ∃ pre tx post c' es, txs = pre ++ tx :: post ∧ (∀ tx' ∈ pre, Aborts c2 tx') ∧
              execTx c2 tx = .ok (c', es) ∧ OneExit m i es ∧ (∀ tx' ∈ post, Aborts c' tx') ∧
              run c2 txs = (c', es) ∧ listingAt c'.objects m i = none) := by
  have hc1 := hc.append (.single hs)
  cases hs with
  | call hr he =>
    obtain ⟨b, item, hf, ht, hL1⟩ := hc.listed he hop
    refine ⟨b, item, (objectNew c.ctx).1, hf, ht, ?_⟩
    intro es c2 hrun hno
    have hc2 := hc1.append hrun
    have hL2 := Run.listing_stays hc1 hL1 hrun hno
    refine ⟨hL2, ?_, fun attempt hx => hc2.admissible_iff hx, fun hr2 =>
      ⟨fun s attempt hcl hx => hc2.admissibleTx_iff hr2 hcl hx,
        fun txs hct => run_contenders hc2 hr2 hct⟩⟩
    intro e c3 hs3 hx
    have hc3 := hc2.append (.single hs3)
    cases hs3 with
    | call hr2 he2 =>
      refine ⟨hc2.exitOf hL2 he2 hx, ?_⟩
      intro fs c4 hrun4 hno4
      obtain ⟨hL4, hex⟩ := Run.absent_stays hc3 (hc2.exit_gone he2 hx) hrun4 hno4
      have hc4 := hc3.append hrun4
      refine ⟨hL4, hex, ?_, fun hr4 tx hct => hc4.contender_aborts hr4 hL4 hct⟩
      intro attempt hxa
      refine exists_error ?_
      rintro ⟨c', out'⟩ hea
      exact hc4.not_exit hL4 hea hxa

/-- The chain of `oneSale` in the middle of the transaction that lists the
object. -/
def beforeListing : Chain Addr :=
  (startTx (run genesis (oneSale.take 3)).1 (.user 1) [.derived 2 0]).toOption.getD genesis

/-- The object of `oneSale` is listed by user 1, and nothing has happened to it
yet. -/
theorem exitRule_oneSale :
    ∃ c1 item uid,
      Step beforeListing (.call ⟨beforeListing.ctx.sender,
        .list (.other 0) .sui (.derived 1 0) (.derived 2 0) 5, none⟩) c1 ∧
      listingAt c1.objects (.derived 1 0) (.derived 2 0) =
        some ⟨uid, 5, beforeListing.ctx.sender, item⟩ ∧
      beforeListing.ctx.sender = .user 1 := by
  obtain ⟨hc0, hr0⟩ := run_history (oneSale.take 3)
  have hstart : startTx (run genesis (oneSale.take 3)).1 (.user 1) [.derived 2 0] =
      .ok beforeListing := eq_ok_of_toOption _ (by decide +kernel)
  have hc := hc0.start hr0 hstart
  have hexec := eq_ok_of_toOption (beforeListing, none)
    (x := exec beforeListing (.list (.other 0) .sui (.derived 1 0) (.derived 2 0) 5))
    (by decide +kernel)
  generalize hr : (exec beforeListing (.list (.other 0) .sui (.derived 1 0)
    (.derived 2 0) 5)).toOption.getD (beforeListing, none) = r at hexec
  obtain ⟨c1, out⟩ := r
  obtain rfl : out = none := by
    rw [show out = ((exec beforeListing (.list (.other 0) .sui (.derived 1 0)
      (.derived 2 0) 5)).toOption.getD (beforeListing, none)).2 by rw [hr]]
    decide +kernel
  have hs := Step.call (startTx_eq_ok hstart).1 hexec
  obtain ⟨b, item, uid, -, -, hrun⟩ := exitRule hc hs rfl
  exact ⟨c1, item, uid, hs, (hrun .nil (List.forall_mem_nil _)).1,
    by decide +kernel⟩

end BookMarket
