import BookMarket.Props.Exit

/-!
# What others can do to a user

A user `u` sends nothing for a while and everybody else does what they like,
whole transactions of any calls in any order.  What `u` holds stays where it is
and as it is, the listings of `u` stay until somebody pays for them, and in every
marketplace the proceeds of `u` together with the asks of what `u` still has up
for sale is the same amount as before.

* `Effect.address_stays` — no call touches an object that an address holds.
* `openAsks`, `due` — what the listings of a user ask for, and what a marketplace
  has to give to the user if all of them are sold.
* `Keeps` — what a user keeps from one chain to a later one; `Step.keeps` for one
  event of somebody else, `Run.keeps` for a whole run of them.
* `run_steps` — a sequence of transactions is a run of events.
* `passiveUser` — **a user who sends nothing loses nothing.**
-/

namespace BookMarket

open Runs

variable {A : Type} [DecidableEq A]

/-! ## Objects in other hands -/

theorem freeAt_eq_address {o : Objects A} {id a : A} {i : Item A} :
    freeAt o id = some (.address a, i) ↔ o.lookup id = some ⟨.addressOwner a, .item i⟩ := by
  unfold freeAt
  constructor
  · intro h
    split at h
    · next ho =>
      cases h
      exact ho
    · cases h
    · cases h
  · intro h
    rw [h]

/-- Loading an input takes it from the sender and from nobody else. -/
theorem loadInput_lookup {sender id id' : A} {o o' : Objects A} {x : Stored A}
    (h : loadInput sender o id' = .ok o') (hx : o.lookup id = some x)
    (hne : x.owner ≠ .addressOwner sender) : o'.lookup id = some x := by
  unfold loadInput at h
  split at h
  · next y hy =>
    split at h
    · next hown =>
      cases h
      have hid : id ≠ id' := by
        rintro rfl
        rw [hx] at hy
        cases hy
        exact hne hown
      rw [Finmap.lookup_insert_of_ne _ hid, hx]
    · cases h
  · cases h

theorem loadInputs_lookup {sender id : A} {x : Stored A} (hne : x.owner ≠ .addressOwner sender)
    (inputs : List A) {o o' : Objects A} (h : inputs.foldlM (loadInput sender) o = .ok o')
    (hx : o.lookup id = some x) : o'.lookup id = some x := by
  induction inputs generalizing o with
  | nil =>
    cases h
    exact hx
  | cons id' ids ih =>
    rw [List.foldlM_cons] at h
    obtain ⟨o1, h1, h2⟩ := bind_eq_ok.1 h
    exact ih h2 (loadInput_lookup h1 hx hne)

/-- Giving back an input touches nothing that is not in the hands of the
transaction. -/
theorem returnInputs_lookup (sender : A) {id : A} {x : Stored A} (hne : x.owner ≠ .transaction true)
    (inputs : List A) {o : Objects A} (hx : o.lookup id = some x) :
    (inputs.foldl (returnInput sender) o).lookup id = some x := by
  induction inputs generalizing o with
  | nil => exact hx
  | cons id' ids ih =>
    refine ih ?_
    unfold returnInput
    split
    · next y hy =>
      split
      · next hown =>
        have hid : id ≠ id' := by
          rintro rfl
          rw [hx] at hy
          cases hy
          exact hne hown
        rw [Finmap.lookup_insert_of_ne _ hid, hx]
      · exact hx
    · exact hx

/-- What an address holds at the end of a transaction it still holds afterwards. -/
theorem finishTx_address {c c' : Chain A} (hf : finishTx c = .ok c') {id a : A} {i : Item A}
    (hi : freeAt c.objects id = some (.address a, i)) :
    freeAt c'.objects id = some (.address a, i) := by
  rw [freeAt_eq_address] at hi ⊢
  have hret := returnInputs_lookup c.ctx.sender (by simp) c.inputs hi
  simp only [finishTx] at hf
  split at hf
  · cases hf
    exact hret
  · cases hf

variable [AddressSpace A]

/-- **No call touches an object that an address holds**, not even one of the
sender: the transaction works on what it was given. -/
theorem Effect.address_stays {w w' : World A} {ctx ctx' : TxContext A} {call : Call A}
    {out : Option (Obj A)} (h : Effect w ctx call out w' ctx') {o : Objects A}
    (hl : Layout ctx w o) {id a : A} {i : Item A} (hf : w.free id = some (.address a, i)) :
    w'.free id = some (.address a, i) := by
  -- the places a call writes to are not held by an address before
  have hset {w1 : World A} {id' : A} {v : Option (Holder A × Item A)}
      (hw1 : w1.free id = some (.address a, i)) (hne : id ≠ id') :
      (w1.setFree id' v).free id = some (.address a, i) := by
    rw [World.free_setFree_of_ne hne, hw1]
  have htx {id' : A} {b : Bool} {j : Item A} (hj : w.free id' = some (.transaction b, j)) :
      id ≠ id' := by
    rintro rfl
    rw [hf] at hj
    cases hj
  have hnew : id ≠ (objectNew ctx).1 := by
    rintro rfl
    have ho := hl.lookup_free hf
    rw [hl.lookup_objectNew] at ho
    cases ho
  cases h with
  | create => exact hf
  | list _ _ hk _ => exact hset hf (htx hk)
  | delist _ _ hw _ _ => exact hset hf (hl.free_ne_item hf hw)
  | buy _ _ hp hw _ _ => exact hset (hset hf (htx hp)) (hl.free_ne_item hf hw)
  | takeProfits _ hm hp =>
    refine hset hf ?_
    rintro rfl
    rw [hl.coin_ne_free hp] at hf
    cases hf
  | mintToSender | createCurrency | otherNew => exact hset hf hnew
  | move _ hk | updateDescription hk | burn hk | otherSet hk | otherDelete hk =>
    exact hset hf (htx hk)
  | coinMint hk | coinSplit hk => exact hset (hset hf (htx hk)) hnew
  | coinBurn hc hk | coinJoin hc hk => exact hset (hset hf (htx hc)) (htx hk)

/-! ## What a marketplace has to give to a user -/

omit [AddressSpace A] in
/-- What a listing asks for, if it is one of `u`. -/
def askOf (u : A) : Option (Slot A) → ℕ
  | some L => if L.seller = u then L.ask.toNat else 0
  | none => 0

/-- The sum of the asks of the listings of `u` in marketplace `m`. -/
def openAsks (o : Objects A) (m u : A) : ℕ :=
  ∑ k ∈ o.keys, askOf u (listingAt o m k)

/-- The proceeds of `u` in marketplace `m`, with what is still to come if every
listing of `u` is sold. -/
def due (o : Objects A) (m u : A) : ℕ :=
  coinValue (profitsAt o m u) + openAsks o m u

section Asks

variable {ctx ctx' : TxContext A} {o o' : Objects A} {m u : A}

/-- The sum of the asks over any set of items that is large enough. -/
theorem Layout.openAsks_eq (hl : Layout ctx (worldOf o) o) (m u : A) {F : Finset A}
    (hF : o.keys ⊆ F) : openAsks o m u = ∑ k ∈ F, askOf u (listingAt o m k) := by
  refine Finset.sum_subset hF fun k _ hk => ?_
  have hnone : listingAt o m k = none :=
    hl.slots_none_of_lookup (Finmap.lookup_eq_none.2 fun h => hk (Finmap.mem_keys.2 h)) m
  rw [hnone]
  rfl

/-- Stores that ask the same for every item but one differ in the sum by what they
ask for that one. -/
theorem Layout.openAsks_update (hl : Layout ctx (worldOf o) o) (hl' : Layout ctx' (worldOf o') o')
    (k : A) (h : ∀ k', k' ≠ k → askOf u (listingAt o' m k') = askOf u (listingAt o m k')) :
    openAsks o' m u + askOf u (listingAt o m k) = openAsks o m u + askOf u (listingAt o' m k) := by
  let F := (o.keys ∪ o'.keys) ∪ {k}
  have ho : o.keys ⊆ F := Finset.subset_union_left.trans Finset.subset_union_left
  have ho' : o'.keys ⊆ F := Finset.subset_union_right.trans Finset.subset_union_left
  have hk : k ∈ F := Finset.mem_union_right _ (Finset.mem_singleton_self k)
  rw [hl.openAsks_eq m u ho, hl'.openAsks_eq m u ho', ← Finset.add_sum_erase _ _ hk,
    ← Finset.add_sum_erase _ (fun k' => askOf u (listingAt o m k')) hk]
  have hrest : ∑ k' ∈ F.erase k, askOf u (listingAt o' m k') =
      ∑ k' ∈ F.erase k, askOf u (listingAt o m k') :=
    Finset.sum_congr rfl fun k' hk' => h k' (Finset.ne_of_mem_erase hk')
  omega

theorem Layout.openAsks_congr (hl : Layout ctx (worldOf o) o) (hl' : Layout ctx' (worldOf o') o')
    (h : ∀ k, askOf u (listingAt o' m k) = askOf u (listingAt o m k)) :
    openAsks o' m u = openAsks o m u := by
  have := hl.openAsks_update hl' m fun k _ => h k
  rw [h] at this
  omega

end Asks

/-! ## What a user keeps -/

/-- What `u` keeps from `c` to a later `c'`: everything `u` holds, with its contents;
no listing of `u` appears; the proceeds of `u` stay the same coin and do not
shrink; and what a marketplace has to give to `u` is the same. -/
structure Keeps (u : A) (c c' : Chain A) : Prop where
  held : ∀ {id i}, freeAt c.objects id = some (.address u, i) →
    freeAt c'.objects id = some (.address u, i)
  noNew : ∀ {m k L}, listingAt c'.objects m k = some L → L.seller = u →
    listingAt c.objects m k = some L
  proceeds : ∀ {m p}, profitsAt c.objects m u = some p →
    ∃ p', profitsAt c'.objects m u = some p' ∧ p'.id = p.id ∧ p.balance.toNat ≤ p'.balance.toNat
  due : ∀ m, due c'.objects m u = due c.objects m u

namespace Keeps

variable {u : A} {c c' c'' : Chain A}

theorem refl (u : A) (c : Chain A) : Keeps u c c :=
  ⟨id, fun h _ => h, fun h => ⟨_, h, rfl, le_rfl⟩, fun _ => rfl⟩

theorem trans (h : Keeps u c c') (h' : Keeps u c' c'') : Keeps u c c'' where
  held hf := h'.held (h.held hf)
  noNew hL hs := h.noNew (h'.noNew hL hs) hs
  proceeds hp := by
    obtain ⟨p', hp', hid', hle'⟩ := h.proceeds hp
    obtain ⟨p'', hp'', hid'', hle''⟩ := h'.proceeds hp'
    exact ⟨p'', hp'', hid''.trans hid', hle'.trans hle''⟩
  due m := (h'.due m).trans (h.due m)

/-- The ends of a transaction move nothing but the sender's own objects. -/
theorem of_sameGoods {h h' : List (Entry A)} (hc : History h c) (hc' : History h' c')
    (hs : SameGoods (worldOf c.objects) (worldOf c'.objects))
    (held : ∀ {id i}, freeAt c.objects id = some (.address u, i) →
      freeAt c'.objects id = some (.address u, i)) : Keeps u c c' := by
  have hslots (m k : A) : listingAt c'.objects m k = listingAt c.objects m k :=
    congrFun hs.slots (m, k)
  have hprofits (m : A) : profitsAt c'.objects m u = profitsAt c.objects m u :=
    congrFun hs.profits (m, u)
  refine ⟨held, fun hL _ => hslots _ _ ▸ hL, fun hp => ⟨_, (hprofits _).trans hp, rfl, le_rfl⟩, ?_⟩
  intro m
  rw [BookMarket.due, BookMarket.due, hprofits, hc.layout.openAsks_congr hc'.layout fun k => by rw [hslots]]

end Keeps

namespace History

variable {h : List (Entry A)} {c c' : Chain A} {call : Call A} {out : Option (Obj A)} {u : A}

/-- A call of somebody else leaves the proceeds of `u` alone, or is a purchase from
`u` and adds the ask to them. -/
theorem proceeds_call (hc : History h c) (he : BookMarket.exec c call = .ok (c', out))
    (hu : c.ctx.sender ≠ u) (m : A) :
    profitsAt c'.objects m u = profitsAt c.objects m u ∨
    ∃ t coin k paid L p, call.op = some (.buy t coin m k paid) ∧
      listingAt c.objects m k = some L ∧ L.seller = u ∧ profitsAt c'.objects m u = some p ∧
      Credited ⟨paid, L.ask⟩ (profitsAt c.objects m u) p := by
  by_cases heq : profitsAt c'.objects m u = profitsAt c.objects m u
  · exact Or.inl heq
  · have heff := hc.effect he
    rcases heff.profits_of_ne heq with ⟨t, coin, k, paid, L, hop, hL, rfl⟩ | ⟨coin, -, hs⟩
    · obtain ⟨L', b, p, -, -, hL', -, hcr, -, hw'⟩ := heff.buy_inv hop
      cases hL.symm.trans hL'
      refine Or.inr ⟨t, coin, k, paid, L, p, hop, hL, rfl, ?_, hcr⟩
      rw [profitsAt_worldOf, hw']
      simp
    · exact absurd hs hu

/-- A call of somebody else leaves the listings of `u` alone, unless it buys one. -/
theorem askOf_call (hc : History h c) (he : BookMarket.exec c call = .ok (c', out))
    (hu : c.ctx.sender ≠ u) {m k : A} (hne : listingAt c'.objects m k ≠ listingAt c.objects m k)
    (hbuy : ∀ t coin paid, call.op ≠ some (.buy t coin m k paid)) :
    askOf u (listingAt c'.objects m k) = 0 ∧ askOf u (listingAt c.objects m k) = 0 := by
  have heff := hc.effect he
  rcases heff.slots_of_ne hne with ⟨t, coin, ask, hop⟩ | ⟨t, coin, hop⟩ | ⟨t, coin, paid, hop⟩
  · obtain ⟨b, i, hf, -, hL'⟩ := hc.listed he hop
    have hL : listingAt c.objects m k = none := hc.layout.slot_none_of_free hf m
    rw [hL, hL']
    simp [askOf, hu]
  · obtain ⟨L, -, hL, hs, -⟩ := heff.delist_inv hop
    have hL' := hc.exit_gone he (Or.inl ⟨t, coin, hop⟩)
    have hL0 : listingAt c.objects m k = some L := hL
    rw [hL0, hL']
    simp [askOf, ← hs, hu]
  · exact absurd hop (hbuy t coin paid)

/-- **A call of somebody else changes nothing of what a marketplace has to give to
`u`**: what a purchase takes from the open asks it adds to the proceeds. -/
theorem due_call (hc : History h c) (hc' : History (h ++ [⟨c.ctx.sender, call, out⟩]) c')
    (he : BookMarket.exec c call = .ok (c', out)) (hu : c.ctx.sender ≠ u) (m : A) :
    due c'.objects m u = due c.objects m u := by
  have heff := hc.effect he
  by_cases hbuy : ∃ t coin k paid, call.op = some (.buy t coin m k paid)
  · obtain ⟨t, coin, k, paid, hop⟩ := hbuy
    obtain ⟨L, b, p, -, -, hL, -, hcr, -, hw'⟩ := heff.buy_inv hop
    have hasks := hc.layout.openAsks_update hc'.layout (m := m) (u := u) k fun k' hk' => by
      rw [listingAt_worldOf, hw', listingAt_worldOf]
      simp [World.slots_setSlot_of_ne, hk']
    rw [hc.exit_gone he (Or.inr ⟨t, coin, paid, hop⟩), listingAt_worldOf, hL] at hasks
    simp only [askOf] at hasks
    have hcoin : coinValue (profitsAt c'.objects m u) =
        coinValue (profitsAt c.objects m u) + if L.seller = u then L.ask.toNat else 0 := by
      rw [profitsAt_worldOf, hw']
      by_cases hs : L.seller = u
      · subst hs
        simpa [profitsAt_worldOf] using hcr.value
      · have hne : (m, u) ≠ (m, L.seller) := fun e => hs (congrArg Prod.snd e).symm
        simp [World.profits_setProfits_of_ne hne, hs, profitsAt_worldOf]
    rw [BookMarket.due, BookMarket.due]
    omega
  · have hprofits : profitsAt c'.objects m u = profitsAt c.objects m u := by
      rcases hc.proceeds_call he hu m with heq | ⟨t, coin, k, paid, -, -, hop, -⟩
      · exact heq
      · exact absurd ⟨t, coin, k, paid, hop⟩ hbuy
    have hasks : openAsks c'.objects m u = openAsks c.objects m u := by
      refine hc.layout.openAsks_congr hc'.layout fun k => ?_
      by_cases hk : listingAt c'.objects m k = listingAt c.objects m k
      · rw [hk]
      · obtain ⟨h1, h2⟩ := hc.askOf_call he hu hk fun t coin paid hop => hbuy ⟨t, coin, k, paid, hop⟩
        rw [h1, h2]
    rw [BookMarket.due, BookMarket.due, hprofits, hasks]

/-- No call of somebody else puts a listing of `u` up. -/
theorem noNew_call (hc : History h c) (he : BookMarket.exec c call = .ok (c', out))
    (hu : c.ctx.sender ≠ u) {m k : A} {L : Slot A} (hL : listingAt c'.objects m k = some L)
    (hs : L.seller = u) : listingAt c.objects m k = some L := by
  by_contra hne
  rcases (hc.effect he).slots_of_ne (m := m) (k := k) (fun e => hne (e.symm.trans hL)) with
    ⟨t, coin, ask, hop⟩ | hx | hx
  · obtain ⟨b, i, -, -, hL'⟩ := hc.listed he hop
    rw [hL'] at hL
    cases hL
    exact hu hs
  · rw [hc.exit_gone he (Or.inl hx)] at hL
    cases hL
  · rw [hc.exit_gone he (Or.inr hx)] at hL
    cases hL

theorem keeps_call (hc : History h c) (hr : c.running = true)
    (he : BookMarket.exec c call = .ok (c', out)) (hu : c.ctx.sender ≠ u) : Keeps u c c' where
  held hf := (hc.effect he).address_stays hc.layout hf
  noNew hL hs := hc.noNew_call he hu hL hs
  proceeds {m p} hp := by
    rcases hc.proceeds_call he hu m with heq | ⟨t, coin, k, paid, L, p', -, -, -, hp', hcr⟩
    · exact ⟨p, heq.trans hp, rfl, le_rfl⟩
    · rw [hp] at hcr
      exact ⟨p', hp', hcr.1, by rw [hcr.2]; exact Nat.le_add_right _ _⟩
  due m := hc.due_call (hc.call hr he) he hu m

end History

/-! ## Runs without the user -/

omit [DecidableEq A] [AddressSpace A] in
/-- The event does not begin a transaction of `u`. -/
def Event.notBy (u : A) : Event A → Prop
  | .start sender _ => sender ≠ u
  | _ => True

omit [DecidableEq A] [AddressSpace A] in
/-- No transaction of `u` is running. -/
def Chain.notBy (u : A) (c : Chain A) : Prop :=
  c.running = true → c.ctx.sender ≠ u

/-- One event of somebody else. -/
theorem Step.keeps {h : List (Entry A)} {c c' : Chain A} {e : Event A} {u : A} (hc : History h c)
    (hs : Step c e c') (he : e.notBy u) (hu : c.notBy u) : Keeps u c c' ∧ c'.notBy u := by
  have hc' := hc.append (.single hs)
  have hworld := hs.worldStep hc.layout
  cases hs with
  | @start _ sender inputs hr hstart =>
    obtain ⟨-, hctx, -, hload⟩ := startTx_eq_ok hstart
    refine ⟨.of_sameGoods hc hc' hworld.1 fun hf => ?_, fun _ => ?_⟩
    · rw [freeAt_eq_address] at hf ⊢
      exact loadInputs_lookup (fun e => he (Owner.addressOwner.inj e).symm) inputs hload hf
    · rw [hctx]
      exact he
  | call hr hexec =>
    refine ⟨hc.keeps_call hr hexec (hu hr), fun _ => ?_⟩
    rw [(hc.effect hexec).sender]
    exact hu hr
  | finish hr hfin =>
    refine ⟨.of_sameGoods hc hc' hworld.1 fun hf => ?_, fun hr' => ?_⟩
    · exact finishTx_address hfin hf
    · rw [(finishTx_eq_ok hfin).1] at hr'
      cases hr'

/-- A run of events of others. -/
theorem Run.keeps {h : List (Entry A)} {c c' : Chain A} {es : List (Event A)} {u : A}
    (hc : History h c) (hu : c.notBy u) (hrun : Run Step c es c') (hes : ∀ e ∈ es, e.notBy u) :
    Keeps u c c' ∧ c'.notBy u := by
  have := hrun.invariantOn
    (I := fun c' => (∃ h', History h' c') ∧ Keeps u c c' ∧ c'.notBy u) (p := Event.notBy u)
    ⟨⟨h, hc⟩, .refl u c, hu⟩ ?_ hes
  · exact this.2
  · rintro c1 e c2 he ⟨⟨h1, hc1⟩, hk, hu1⟩ hs
    obtain ⟨hk', hu2⟩ := Step.keeps hc1 hs he hu1
    exact ⟨⟨_, hc1.append (.single hs)⟩, hk.trans hk', hu2⟩

/-- A listing of `u` stays until somebody buys it. -/
theorem Run.listing_bought {h : List (Entry A)} {c c' : Chain A} {es : List (Event A)} {u m k : A}
    {L : Slot A} (hc : History h c) (hu : c.notBy u) (hrun : Run Step c es c')
    (hes : ∀ e ∈ es, e.notBy u) (hL : listingAt c.objects m k = some L) (hs : L.seller = u) :
    listingAt c'.objects m k = some L ∨
    ∃ e ∈ calls es, ∃ t coin paid, e.call.op = some (.buy t coin m k paid) := by
  induction hrun with
  | nil => exact Or.inl hL
  | @snoc es c1 c2 ev hrun hstep ih =>
    have hcalls : calls (es ++ [ev]) = calls es ++ calls [ev] := by simp [calls]
    have hes' : ∀ e ∈ es, e.notBy u := fun e he => hes e (List.mem_append_left _ he)
    rw [hcalls]
    rcases ih hes' with hL1 | ⟨e, he, hbuy⟩
    · have hc1 := hc.append hrun
      by_cases hL2 : listingAt c2.objects m k = some L
      · exact Or.inl hL2
      · obtain ⟨entry, rfl, hop⟩ := hc1.listing_of_ne hstep (m := m) (k := k) (by rw [hL1]; exact hL2)
        cases hstep with
        | call hr hexec =>
          rcases hop with hlist | ⟨t, coin, hop⟩ | hbuy
          · exact absurd hlist (hc1.not_list hL1 hexec)
          · -- only the seller can delist, and the seller sends nothing
            obtain ⟨L', -, hL', hsender, -⟩ := (hc1.effect hexec).delist_inv hop
            cases hL1.symm.trans hL'
            exact absurd (hsender.trans hs) ((Run.keeps hc hu hrun hes').2 hr)
          · exact Or.inr ⟨_, List.mem_append_right _ (by simp [calls]), hbuy⟩
    · exact Or.inr ⟨e, List.mem_append_left _ he, hbuy⟩

/-! ## Transactions as runs -/

/-- The calls of a transaction, as events. -/
theorem execCalls_steps {c c' : Chain A} {h : List (Entry A)} (hc : History h c)
    (hr : c.running = true) {cs : List (Call A)} {es : List (Entry A)}
    (he : execCalls c cs = .ok (c', es)) : Run Step c (es.map .call) c' := by
  induction cs generalizing h c es with
  | nil =>
    cases he
    exact .nil
  | cons call cs ih =>
    obtain ⟨⟨c1, out⟩, h1, h2⟩ := bind_eq_ok.1 he
    obtain ⟨⟨c2, fs⟩, h3, h4⟩ := bind_eq_ok.1 h2
    cases h4
    obtain ⟨_, -, hin⟩ := (hc.exec_sim call).exists_of_ok h1
    exact .cons (.call hr h1) (ih (hc.call hr h1) (hin.running.trans hr) h3)

/-- A committed transaction, as events. -/
theorem execTx_steps {c c' : Chain A} {h : List (Entry A)} (hc : History h c)
    (hr : c.running = false) {tx : Tx A} {es : List (Entry A)} (he : execTx c tx = .ok (c', es)) :
    Run Step c (.start tx.sender tx.inputs :: es.map .call ++ [.finish]) c' := by
  obtain ⟨c1, h1, h2⟩ := bind_eq_ok.1 he
  obtain ⟨⟨c2, fs⟩, h3, h4⟩ := bind_eq_ok.1 h2
  obtain ⟨c3, h5, h6⟩ := bind_eq_ok.1 h4
  cases h6
  have hc1 := hc.start hr h1
  have hr1 := (startTx_eq_ok h1).1
  have hr2 := (hc1.afterCalls hr1 h3).2
  exact .snoc (.cons (.start hr h1) (execCalls_steps hc1 hr1 h3)) (.finish hr2 h5)

/-- **A sequence of transactions is a run of events**, begun by their senders. -/
theorem run_steps {c : Chain A} {h : List (Entry A)} (hc : History h c) (hr : c.running = false)
    (txs : List (Tx A)) :
    ∃ es, Run Step c es (run c txs).1 ∧ calls es = (run c txs).2 ∧
      ∀ u, (∀ tx ∈ txs, tx.sender ≠ u) → ∀ e ∈ es, e.notBy u := by
  induction txs generalizing h c with
  | nil => exact ⟨[], .nil, rfl, fun _ _ => List.forall_mem_nil _⟩
  | cons tx txs ih =>
    cases he : execTx c tx with
    | error e =>
      rw [run_cons_of_error he]
      obtain ⟨es, hrun, hcalls, hby⟩ := ih hc hr
      exact ⟨es, hrun, hcalls, fun u hu => hby u fun tx' h' => hu tx' (by simp [h'])⟩
    | ok r =>
      obtain ⟨c', fs⟩ := r
      obtain ⟨hc', hr'⟩ := hc.afterTx hr he
      obtain ⟨es, hrun, hcalls, hby⟩ := ih hc' hr'
      rw [run_cons_of_ok he]
      refine ⟨_, (execTx_steps hc hr he).append hrun, ?_, fun u hu e hmem => ?_⟩
      · rw [← hcalls]
        simp [calls, List.filterMap_append, List.filterMap_map]
      · rcases List.mem_append.1 hmem with hmem | hmem
        · simp only [List.cons_append, List.mem_cons, List.mem_append, List.mem_map,
            List.not_mem_nil, or_false] at hmem
          rcases hmem with rfl | ⟨_, -, rfl⟩ | rfl
          · exact hu tx (by simp)
          · trivial
          · trivial
        · exact hby u (fun tx' h' => hu tx' (by simp [h'])) e hmem

/-- **A user who sends nothing loses nothing.**  From any state between
transactions, let others send any transactions.  Everything the user holds is
still there with the same contents; no listing of the user has appeared; each
listing is as it was, or was bought; the proceeds are still there, in the same
coin and no smaller; and in every marketplace the proceeds together with the
asks of the open listings is the amount it was. -/
theorem passiveUser {h : List (Entry A)} {c : Chain A} (hc : History h c) (hr : c.running = false)
    {u : A} {txs : List (Tx A)} (hu : ∀ tx ∈ txs, tx.sender ≠ u) :
    Keeps u c (run c txs).1 ∧
    ∀ m k L, listingAt c.objects m k = some L → L.seller = u →
      listingAt (run c txs).1.objects m k = some L ∨
      ∃ e ∈ (run c txs).2, ∃ t coin paid, e.call.op = some (.buy t coin m k paid) := by
  obtain ⟨es, hrun, hcalls, hby⟩ := run_steps hc hr txs
  have haway : c.notBy u := fun h => by rw [hr] at h; cases h
  refine ⟨(Run.keeps hc haway hrun (hby u hu)).1, fun m k L hL hs => ?_⟩
  rw [← hcalls]
  exact Run.listing_bought hc haway hrun (hby u hu) hL hs

/-- While user 2 buys the object of user 1, what is due to user 1 stays 5. -/
theorem passiveUser_oneSale :
    (∀ tx ∈ oneSale.drop 4, tx.sender ≠ .user 1) ∧
    (listingAt (run genesis (oneSale.take 4)).1.objects (.derived 1 0) (.derived 2 0)).map
      Slot.ask = some 5 ∧
    due (run (run genesis (oneSale.take 4)).1 (oneSale.drop 4)).1.objects (.derived 1 0)
      (.user 1) = 5 := by
  obtain ⟨hc, hr⟩ := run_history (oneSale.take 4)
  have hu : ∀ tx ∈ oneSale.drop 4, tx.sender ≠ .user 1 := by decide
  refine ⟨hu, by decide +kernel, ?_⟩
  rw [(passiveUser hc hr hu).1.due]
  decide +kernel

end BookMarket
