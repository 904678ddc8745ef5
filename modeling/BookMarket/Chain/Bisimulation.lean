import BookMarket.Chain.Spec

/-!
# The store and the world stay in step

On a store that is laid out as a world, every call of the store-level machine
goes through exactly when the world-level one does, aborts with the same error
when it does not, hands out the same object, and leaves a store that is laid
out as the world the upper machine reaches.

* `exec_sim` — **every call does on the store what it does on the world.**
-/

namespace BookMarket

open Simulation

variable {A : Type} [DecidableEq A] [AddressSpace A]
variable {ctx : TxContext A} {w : World A} {o : Objects A}

/-! ## Arguments -/

/-- An item taken out of the store on both levels. -/
structure Taken (ctx : TxContext A) (w : World A) (id : A) (r : Obj A × Objects A)
    (r' : Item A × World A) : Prop where
  obj : r.1 = ⟨id, .item r'.1⟩
  layout : Layout ctx r'.2 r.2
  absent : r.2.lookup id = none
  used : Used ctx id
  markets : r'.2.markets = w.markets

namespace Layout

theorem takeArg_sim (hl : Layout ctx w o) (id : A) :
    Sim (Taken ctx w id) (BookMarket.takeArg o id) (w.takeArg id) := by
  unfold BookMarket.takeArg World.takeArg
  cases hf : w.free id with
  | none =>
    cases ho : o.lookup id with
    | none => exact .error _
    | some x =>
      have hno : x.owner.isTransaction = false := by
        obtain ⟨owner, d⟩ := x
        cases owner with
        | transaction b =>
          obtain ⟨i, -, hw⟩ := hl.free_of_lookup (h := .transaction b) ho
          rw [hf] at hw
          cases hw
        | _ => rfl
      simp only [hno, Bool.false_eq_true, if_false]
      exact .error _
  | some v =>
    obtain ⟨h, i⟩ := v
    rw [hl.lookup_free hf]
    cases h with
    | address a => exact .error _
    | transaction b =>
      exact .ok ⟨rfl, hl.take (Or.inr ⟨_, hf⟩), Finmap.lookup_erase _ _, hl.used_free hf, rfl⟩

theorem byValueArg_sim (hl : Layout ctx w o) (id : A) (t : TypeTag) :
    Sim (Taken ctx w id) (BookMarket.byValueArg o id t) (w.byValueArg id t) := by
  refine (hl.takeArg_sim id).bind ?_
  rintro ⟨obj, o'⟩ ⟨i, w'⟩ h
  obtain rfl := h.obj
  by_cases ht : i.type = t
  · simp only [Data.type_item, ht, if_true]
    exact .ok h
  · simp only [Data.type_item, ht, if_false]
    exact .error _

theorem borrowMutArg_sim (hl : Layout ctx w o) (id : A) (t : TypeTag) :
    Sim (fun d i => d = .item i ∧ i.type = t ∧ ∃ b, w.free id = some (.transaction b, i))
      (BookMarket.borrowMutArg o id t) (w.borrowMutArg id t) := by
  have h := hl.byValueArg_sim id t
  unfold BookMarket.borrowMutArg World.borrowMutArg
  cases hw : w.byValueArg id t with
  | error e =>
    rw [h.eq_error_iff.2 hw]
    exact .error e
  | ok r =>
    obtain ⟨i, w'⟩ := r
    obtain ⟨⟨obj, o'⟩, ho, ht⟩ := h.exists_of_ok' hw
    obtain ⟨hty, -, hb⟩ := World.byValueArg_eq_ok.1 hw
    obtain rfl := ht.obj
    rw [ho]
    exact .ok ⟨rfl, hty, hb⟩

theorem borrowMarketplace_sim (hl : Layout ctx w o) (m : A) (coin : TypeTag) :
    Sim (fun _ _ => w.markets m = some coin)
      (BookMarket.borrowMarketplace o m coin) (w.borrowMarketplace m coin) := by
  unfold BookMarket.borrowMarketplace World.borrowMarketplace
  by_cases hm : w.markets m = some coin
  · rw [hl.lookup_market hm]
    simp only [if_true, hm]
    exact .ok trivial
  · rw [if_neg hm]
    split
    · next x hx =>
      rw [if_neg]
      · exact .error _
      · rintro rfl
        obtain ⟨coin', hd, hw⟩ := hl.market_of_lookup hx
        cases hd
        exact hm hw
    · exact .error _

/-- A coin taken out of the store on both levels. -/
structure TakenCoin (ctx : TxContext A) (w : World A) (id : A)
    (r : Coin A × Objects A) (r' : Coin A × World A) : Prop where
  same : r.1 = r'.1
  layout : Layout ctx r'.2 r.2
  absent : r.2.lookup r'.1.id = none
  used : Used ctx r'.1.id
  markets : r'.2.markets = w.markets

theorem coinArg_sim (hl : Layout ctx w o) (id : A) (coin : TypeTag) :
    Sim (TakenCoin ctx w id) (BookMarket.coinArg o id coin) (w.coinArg id coin) := by
  refine (hl.byValueArg_sim id _).bind ?_
  rintro ⟨obj, o'⟩ ⟨i, w'⟩ h
  obtain rfl := h.obj
  cases i with
  | coin t b => exact .ok ⟨rfl, h.layout, h.absent, h.used, h.markets⟩
  | _ => exact .error _

theorem coinMutArg_sim (hl : Layout ctx w o) (id : A) (coin : TypeTag) :
    Sim (fun c c' => c = c' ∧ c.id = id ∧
        ∃ b, w.free id = some (.transaction b, .coin coin c.balance))
      (BookMarket.coinMutArg o id coin) (w.coinMutArg id coin) := by
  refine (hl.borrowMutArg_sim id _).bind ?_
  rintro d i ⟨rfl, ht, hb⟩
  cases i with
  | coin t b =>
    cases ht
    exact .ok ⟨rfl, rfl, hb⟩
  | _ => exact .error _

theorem capMutArg_sim (hl : Layout ctx w o) (id : A) (coin : TypeTag) :
    Sim (fun v v' => v = v' ∧ ∃ b, w.free id = some (.transaction b, .treasuryCap coin v))
      (BookMarket.capMutArg o id coin) (w.capMutArg id coin) := by
  refine (hl.borrowMutArg_sim id _).bind ?_
  rintro d i ⟨rfl, ht, hb⟩
  cases i with
  | treasuryCap t v =>
    cases ht
    exact .ok ⟨rfl, hb⟩
  | _ => exact .error _

theorem nftMutArg_sim (hl : Layout ctx w o) (id : A) :
    Sim (fun n n' => n = n' ∧ ∃ b, w.free id = some (.transaction b, .bookNFT n))
      (BookMarket.nftMutArg o id) (w.nftMutArg id) := by
  refine (hl.borrowMutArg_sim id _).bind ?_
  rintro d i ⟨rfl, ht, hb⟩
  cases i with
  | bookNFT n => exact .ok ⟨rfl, hb⟩
  | _ => exact .error _

theorem writeRef_layout (hl : Layout ctx w o) {id : A} {h : Holder A} {i : Item A}
    (hf : w.free id = some (h, i)) (i' : Item A) :
    Layout ctx (w.writeRef id i') (BookMarket.writeRef o id (.item i')) := by
  rw [World.writeRef, hf, BookMarket.writeRef, hl.lookup_free hf]
  exact hl.put (Or.inr ⟨_, hf⟩) (hl.used_free hf) h i'

theorem give_layout (hl : Layout ctx w o) {id : A} (hid : o.lookup id = none)
    (hu : Used ctx id) (h : Holder A) (i : Item A) :
    Layout ctx (w.give id h i) (o.insert id ⟨h.toOwner, .item i⟩) :=
  hl.put (Or.inl hid) hu h i

theorem objectNew (hl : Layout ctx w o) : Layout (objectNew ctx).2 w o :=
  hl.mono fun _ h => h.objectNew

/-- A new object in somebody's hands. -/
theorem give_new_layout (hl : Layout ctx w o) (h : Holder A) (i : Item A) :
    Layout (BookMarket.objectNew ctx).2 (w.give (BookMarket.objectNew ctx).1 h i)
      (o.insert (BookMarket.objectNew ctx).1 ⟨h.toOwner, .item i⟩) :=
  hl.objectNew.give_layout hl.lookup_objectNew (used_objectNew ctx) h i

/-! ## The marketplace functions -/

theorem delist_sim (hl : Layout ctx w o) (t : TypeTag) (m k : A) :
    Sim (fun r r' => r.1 = ⟨k, .item r'.1⟩ ∧ Layout ctx r'.2 r.2 ∧ r.2.lookup k = none ∧
        Used ctx k)
      (Marketplace.delist t o ctx m k) (w.delist t ctx.sender m k) := by
  rw [hl.delist_eq, World.delist]
  cases hw : w.slots (m, k) with
  | none => exact .error _
  | some L =>
    dsimp only
    split
    · exact .error _
    · split
      · exact .error _
      · exact .ok ⟨rfl, hl.removeSlot hw, hl.lookup_item_removeSlot hw, hl.used_item hw⟩

theorem credit_sim (hl : Layout ctx w o) {coin : TypeTag} {m : A} (hm : w.markets m = some coin)
    (s : A) {paid : Coin A} (hpaid : o.lookup paid.id = none) (hu : Used ctx paid.id) :
    Sim (fun o' w' => Layout ctx w' o' ∧ ∀ id, id ≠ paid.id → o.lookup id = none →
        Used ctx id → o'.lookup id = none)
      (creditObjects o coin m s (w.profits (m, s)) paid) (w.credit m s paid) := by
  rw [World.credit]
  cases hp : w.profits (m, s) with
  | none =>
    refine .ok ⟨hl.attach hm hp paid hpaid hu, ?_⟩
    intro id h1 h2 h3
    rw [attachObjects, Finmap.lookup_insert_of_ne _ h1, Finmap.lookup_insert_of_ne _ h3.ne_hash, h2]
  | some c =>
    refine (Sim.refl _).bind ?_
    rintro b _ rfl
    refine .ok ⟨hl.credit hm hp b, ?_⟩
    intro id h1 h2 h3
    rw [Finmap.lookup_insert_of_ne, h2]
    rintro rfl
    rw [hl.lookup_profitsPiece hp hm .coin] at h2
    cases h2

theorem buy_sim (hl : Layout ctx w o) (t : TypeTag) {coin : TypeTag} {m : A}
    (hm : w.markets m = some coin) (k : A) {paid : Coin A} (hpaid : o.lookup paid.id = none)
    (hu : Used ctx paid.id) :
    Sim (fun r r' => r.1 = ⟨k, .item r'.1⟩ ∧ Layout ctx r'.2 r.2 ∧ r.2.lookup k = none ∧
        Used ctx k)
      (Marketplace.buy t coin o m k paid) (w.buy t m k paid) := by
  rw [hl.buy_eq t hm k hpaid hu, World.buy]
  cases hw : w.slots (m, k) with
  | none => exact .error _
  | some L =>
    dsimp only
    split
    · exact .error _
    · have hpaid' : (removeItem (removeListing o m k L) k L).lookup paid.id = none := by
        cases h : (removeItem (removeListing o m k L) k L).lookup paid.id with
        | none => rfl
        | some x =>
          rw [((hl.lookup_removeSlot hw).1 h).1] at hpaid
          cases hpaid
      have hne : k ≠ paid.id := by
        rintro rfl
        rw [hl.lookup_piece hw .item] at hpaid
        cases hpaid
      have hcredit := (hl.removeSlot hw).credit_sim hm L.seller hpaid' hu
      refine hcredit.bind ?_
      rintro o' w' ⟨hl', habs⟩
      split
      · exact .error _
      · exact .ok ⟨rfl, hl', habs k hne (hl.lookup_item_removeSlot hw) (hl.used_item hw),
          hl.used_item hw⟩

theorem takeProfits_sim (hl : Layout ctx w o) {coin : TypeTag} {m : A}
    (hm : w.markets m = some coin) :
    Sim (fun r r' => r.1 = r'.1.toObj coin ∧ Layout ctx r'.2 r.2 ∧ r.2.lookup r'.1.id = none ∧
        Used ctx r'.1.id)
      (Marketplace.takeProfits coin o ctx m) (w.takeProfits ctx.sender m) := by
  rw [hl.takeProfits_eq hm, World.takeProfits]
  cases hp : w.profits (m, ctx.sender) with
  | none => exact .error _
  | some c =>
    exact .ok ⟨rfl, hl.removeProfits hp, hl.lookup_coin_removeProfits hp, hl.used_coin hp⟩

end Layout

/-! ## One call -/

/-- The two machines after a call of the chain `c`. -/
structure InStep (c : Chain A) (r : Chain A × Option (Obj A))
    (r' : World A × TxContext A × Option (Obj A)) : Prop where
  layout : Layout r'.2.1 r'.1 r.1.objects
  ctx : r.1.ctx = r'.2.1
  out : r.2 = r'.2.2
  running : r.1.running = c.running
  inputs : r.1.inputs = c.inputs

/-- **Every call does on the store what it does on the world.** -/
theorem exec_sim {c : Chain A} (hl : Layout c.ctx w c.objects) (call : Call A) :
    Sim (InStep c) (exec c call) (w.exec c.ctx call) := by
  cases call with
  | create coin =>
    exact .ok ⟨hl.objectNew.newMarket hl.lookup_objectNew (used_objectNew _) coin, rfl, rfl, rfl,
      rfl⟩
  | list t coin m k ask =>
    refine (Sim.refl _).bind fun _ => (hl.borrowMarketplace_sim m coin).bind fun hm =>
      (hl.byValueArg_sim k t).bind ?_
    rintro ⟨obj, o'⟩ ⟨i, w'⟩ h
    obtain rfl := h.obj
    simp only [h.layout.list_eq h.absent h.used i ask, ok_bind, World.list]
    have hm' : w'.markets m = some coin := (congrFun h.markets m).trans hm
    exact .ok ⟨h.layout.addSlot hm' h.absent h.used _ (fun _ h => h.objectNew)
      (not_used_objectNew _) (used_objectNew _), rfl, rfl, rfl, rfl⟩
  | delist t coin m k =>
    refine (Sim.refl _).bind fun _ => (hl.borrowMarketplace_sim m coin).bind fun _ =>
      (hl.delist_sim t m k).bind ?_
    rintro ⟨obj, o'⟩ ⟨i, w'⟩ ⟨rfl, hl', habs, hu⟩
    exact .ok ⟨hl'.give_layout habs hu (.transaction false) i, rfl, rfl, rfl, rfl⟩
  | delistAndTake t coin m k =>
    refine (Sim.refl _).bind fun _ => (hl.borrowMarketplace_sim m coin).bind fun _ => ?_
    rw [Marketplace.delistAndTake, bind_assoc]
    refine (hl.delist_sim t m k).bind ?_
    rintro ⟨obj, o'⟩ ⟨i, w'⟩ ⟨rfl, hl', habs, hu⟩
    exact .ok ⟨hl'.give_layout habs hu (.address c.ctx.sender) i, rfl, rfl, rfl, rfl⟩
  | buy t coin m k paid =>
    refine (Sim.refl _).bind fun _ => (hl.borrowMarketplace_sim m coin).bind fun hm =>
      (hl.coinArg_sim paid coin).bind ?_
    rintro ⟨p, o'⟩ ⟨_, w'⟩ ⟨rfl, hl', habs, hu, hw⟩
    have hm' : w'.markets m = some coin := (congrFun hw m).trans hm
    refine (hl'.buy_sim t hm' k habs hu).bind ?_
    rintro ⟨obj, o''⟩ ⟨i, w''⟩ ⟨rfl, hl'', habs', hu'⟩
    exact .ok ⟨hl''.give_layout habs' hu' (.transaction false) i, rfl, rfl, rfl, rfl⟩
  | buyAndTake t coin m k paid =>
    refine (Sim.refl _).bind fun _ => (hl.borrowMarketplace_sim m coin).bind fun hm =>
      (hl.coinArg_sim paid coin).bind ?_
    rintro ⟨p, o'⟩ ⟨_, w'⟩ ⟨rfl, hl', habs, hu, hw⟩
    have hm' : w'.markets m = some coin := (congrFun hw m).trans hm
    simp only [Marketplace.buyAndTake, bind_assoc]
    refine (hl'.buy_sim t hm' k habs hu).bind ?_
    rintro ⟨obj, o''⟩ ⟨i, w''⟩ ⟨rfl, hl'', habs', hu'⟩
    exact .ok ⟨hl''.give_layout habs' hu' (.address c.ctx.sender) i, rfl, rfl, rfl, rfl⟩
  | takeProfits coin m =>
    refine (hl.borrowMarketplace_sim m coin).bind fun hm => (hl.takeProfits_sim hm).bind ?_
    rintro ⟨obj, o'⟩ ⟨profits, w'⟩ ⟨rfl, hl', habs, hu⟩
    exact .ok ⟨hl'.give_layout habs hu (.transaction false) _, rfl, rfl, rfl, rfl⟩
  | takeProfitsAndKeep coin m =>
    refine (hl.borrowMarketplace_sim m coin).bind fun hm => ?_
    rw [Marketplace.takeProfitsAndKeep, bind_assoc]
    refine (hl.takeProfits_sim hm).bind ?_
    rintro ⟨obj, o'⟩ ⟨profits, w'⟩ ⟨rfl, hl', habs, hu⟩
    exact .ok ⟨hl'.give_layout habs hu (.address c.ctx.sender) _, rfl, rfl, rfl, rfl⟩
  | mintToSender title description content url =>
    simp only [exec, World.exec, BookNft.mintToSender, bind_assoc]
    refine (Sim.refl _).bind ?_
    rintro nft _ rfl
    exact .ok ⟨hl.give_new_layout (.address c.ctx.sender) (.bookNFT nft), rfl, rfl, rfl, rfl⟩
  | transfer nft recipient =>
    refine (hl.byValueArg_sim nft _).bind ?_
    rintro ⟨obj, o'⟩ ⟨i, w'⟩ h
    obtain rfl := h.obj
    exact .ok ⟨h.layout.give_layout h.absent h.used (.address recipient) i, rfl, rfl, rfl, rfl⟩
  | updateDescription id newDescription =>
    refine (hl.nftMutArg_sim id).bind ?_
    rintro nft _ ⟨rfl, b, hb⟩
    refine (Sim.refl _).bind ?_
    rintro nft' _ rfl
    exact .ok ⟨hl.writeRef_layout hb _, rfl, rfl, rfl, rfl⟩
  | burn nft =>
    refine (hl.byValueArg_sim nft _).bind ?_
    rintro ⟨obj, o'⟩ ⟨i, w'⟩ h
    exact .ok ⟨h.layout, rfl, rfl, rfl, rfl⟩
  | publicTransfer id recipient =>
    refine (hl.takeArg_sim id).bind ?_
    rintro ⟨obj, o'⟩ ⟨i, w'⟩ h
    obtain rfl := h.obj
    refine (Sim.refl _).bind ?_
    intro _ _ _
    exact .ok ⟨h.layout.give_layout h.absent h.used (.address recipient) i, rfl, rfl, rfl, rfl⟩
  | createCurrency coin =>
    exact .ok ⟨hl.give_new_layout (.transaction false) _, rfl, rfl, rfl, rfl⟩
  | coinMint coin cap value =>
    refine (hl.capMutArg_sim cap coin).bind ?_
    rintro supply _ ⟨rfl, b, hb⟩
    simp only [Coin.mint, bind_assoc]
    refine (Sim.refl _).bind ?_
    rintro supply' _ rfl
    exact .ok ⟨(hl.writeRef_layout hb _).give_new_layout (.transaction false) _, rfl, rfl, rfl, rfl⟩
  | coinBurn coin cap burned =>
    refine (hl.coinArg_sim burned coin).bind ?_
    rintro ⟨p, o'⟩ ⟨_, w'⟩ ⟨rfl, hl', habs, hu, hw⟩
    refine (hl'.capMutArg_sim cap coin).bind ?_
    rintro supply _ ⟨rfl, b, hb⟩
    refine (Sim.refl _).bind ?_
    rintro supply' _ rfl
    exact .ok ⟨hl'.writeRef_layout hb _, rfl, rfl, rfl, rfl⟩
  | coinSplit coin self splitAmount =>
    refine (hl.coinMutArg_sim self coin).bind ?_
    rintro ⟨id, balance⟩ _ ⟨rfl, rfl, b, hb⟩
    simp only [Coin.split, bind_assoc]
    refine (Sim.refl _).bind ?_
    rintro rest _ rfl
    exact .ok ⟨(hl.writeRef_layout hb _).give_new_layout (.transaction false) _, rfl, rfl, rfl, rfl⟩
  | coinJoin coin self joined =>
    refine (hl.coinArg_sim joined coin).bind ?_
    rintro ⟨p, o'⟩ ⟨_, w'⟩ ⟨rfl, hl', habs, hu, hw⟩
    refine (hl'.coinMutArg_sim self coin).bind ?_
    rintro ⟨id, balance⟩ _ ⟨rfl, rfl, b, hb⟩
    simp only [Coin.join, bind_assoc]
    refine (Sim.refl _).bind ?_
    rintro sum _ rfl
    exact .ok ⟨hl'.writeRef_layout hb _, rfl, rfl, rfl, rfl⟩
  | otherNew n contents =>
    exact .ok ⟨hl.give_new_layout (.transaction false) _, rfl, rfl, rfl, rfl⟩
  | otherSet n id contents =>
    refine (hl.borrowMutArg_sim id _).bind ?_
    rintro d i ⟨rfl, -, b, hb⟩
    exact .ok ⟨hl.writeRef_layout hb _, rfl, rfl, rfl, rfl⟩
  | otherDelete n id =>
    refine (hl.byValueArg_sim id _).bind ?_
    rintro ⟨obj, o'⟩ ⟨i, w'⟩ h
    exact .ok ⟨h.layout, rfl, rfl, rfl, rfl⟩

end BookMarket
