import BookMarket.Abstract.Market
import BookMarket.Chain.Effect

/-!
# A marketplace of the chain is an abstract marketplace

`Abstracts f w m mk` says that the abstract marketplace `mk` is what there is of
marketplace `m` in the world `w`, with items seen through `f`: the identifiers
of the `Listing`s and of the coins are forgotten.  Every call on `m` is then a
step of the abstract machine, and every other call leaves `mk` as it is.

* `Op.action`, `resultOf` — the abstract action of an operation and its result.
* `Effect.abstracts` — one call is one abstract step, or none.
* `deeds` — what the log of the calls says about one marketplace.
* `History.market` — **the deeds of a history are a run of the abstract
  machine**, which ends in what is on the chain.
* `History.balanced` — the book kept from the log is right about the chain.
-/

namespace BookMarket

open AbstractMarket Runs
open Function (update)

variable {A I : Type} [DecidableEq A]

omit [DecidableEq A] in
/-- A listing without the identifier of its `Listing` object. -/
def Slot.abs (f : Item A → I) (L : Slot A) : Listing A I :=
  ⟨f L.item, L.ask.toNat, L.seller⟩

/-- The abstract marketplace `mk` is marketplace `m` of `w`. -/
structure Abstracts (f : Item A → I) (w : World A) (m : A) (mk : Market A A I) : Prop where
  listings : ∀ k, mk.listings.lookup k = (w.slots (m, k)).map (Slot.abs f)
  proceeds : ∀ s, mk.proceeds.lookup s = (w.profits (m, s)).map fun c => c.balance.toNat

omit [DecidableEq A] in
/-- The marketplace an operation works on, and what it does there; `g` says which
item an identifier stands for. -/
def Op.action (g : A → I) : Op A → Option (A × Action A I)
  | .create _ => none
  | .list _ _ m k ask => some (m, .list k (g k) ask.toNat)
  | .delist _ _ m k => some (m, .delist k)
  | .buy _ _ m k _ => some (m, .buy k)
  | .takeProfits _ m => some (m, .takeProfits)

omit [DecidableEq A] in
/-- The abstract action of a call. -/
def Call.action (g : A → I) (call : Call A) : Option (A × Action A I) :=
  call.op.bind (Op.action g)

omit [DecidableEq A] in
/-- What a call hands out, as the result of an action. -/
def resultOf (f : Item A → I) : Action A I → Option (Obj A) → Result A I
  | .takeProfits, some ⟨_, .item (.coin _ v)⟩ => .money v.toNat
  | .delist _, some ⟨k, .item i⟩ | .buy _, some ⟨k, .item i⟩ => .item k (f i)
  | _, _ => .nothing

namespace Abstracts

variable {f : Item A → I} {w w' : World A} {m : A} {mk mk' : Market A A I}

/-- The abstraction is determined by the world. -/
theorem unique (h : Abstracts f w m mk) (h' : Abstracts f w m mk') : mk = mk' := by
  obtain ⟨L, P⟩ := mk
  obtain ⟨L', P'⟩ := mk'
  have hL : L = L' := Finmap.ext_lookup fun k => (h.listings k).trans (h'.listings k).symm
  have hP : P = P' := Finmap.ext_lookup fun s => (h.proceeds s).trans (h'.proceeds s).symm
  rw [hL, hP]

/-- Worlds that agree on the marketplace have the same abstraction. -/
theorem congr (h : Abstracts f w m mk) (hs : ∀ k, w'.slots (m, k) = w.slots (m, k))
    (hp : ∀ s, w'.profits (m, s) = w.profits (m, s)) : Abstracts f w' m mk :=
  ⟨fun k => by rw [hs, h.listings], fun s => by rw [hp, h.proceeds]⟩

theorem owed (h : Abstracts f w m mk) (s : A) :
    mk.owed s = coinValue (w.profits (m, s)) := by
  rw [Market.owed, h.proceeds]
  cases w.profits (m, s) <;> rfl

end Abstracts

theorem abstracts_empty (f : Item A → I) (m : A) :
    Abstracts f World.empty m (Market.empty : Market A A I) :=
  ⟨fun _ => rfl, fun _ => rfl⟩

variable [AddressSpace A]

/-! ## One call -/

namespace Effect

variable {f : Item A → I} {g : A → I} {w w' : World A} {ctx ctx' : TxContext A} {call : Call A}
  {out : Option (Obj A)} {m : A} {mk : Market A A I} {o : Objects A}

/-- A call on another marketplace, or on none, is not seen. -/
theorem slots_other (h : Effect w ctx call out w' ctx') (hm : ∀ act, call.action g ≠ some (m, act)) :
    (∀ k, w'.slots (m, k) = w.slots (m, k)) ∧ ∀ s, w'.profits (m, s) = w.profits (m, s) := by
  have hne {m' x : A} (h : m ≠ m') (y : A) : (m, y) ≠ (m', x) := fun e => h (congrArg Prod.fst e)
  cases h with
  | list hop | delist hop | takeProfits hop =>
    have hmm : m ≠ _ := fun e => hm _ (by rw [Call.action, hop, e]; rfl)
    exact ⟨fun k => by simp [World.setSlot, World.setFree, World.setProfits, hne hmm],
      fun s => by simp [World.setSlot, World.setFree, World.setProfits, hne hmm]⟩
  | buy hop =>
    have hmm : m ≠ _ := fun e => hm _ (by rw [Call.action, hop, e]; rfl)
    exact ⟨fun k => by simp [World.setSlot, World.setFree, World.setProfits, hne hmm],
      fun s => by simp [World.setSlot, World.setFree, World.setProfits, hne hmm]⟩
  | _ => exact ⟨fun _ => rfl, fun _ => rfl⟩

/-- **A call on a marketplace is a step of the abstract machine.** -/
theorem abstracts (h : Effect w ctx call out w' ctx') (hl : Layout ctx w o)
    (ha : Abstracts f w m mk) (hg : ∀ {k v}, w.free k = some v → g k = f v.2)
    {act : Action A I} (hm : call.action g = some (m, act)) :
    ∃ mk', mk.step ctx.sender act = some (mk', resultOf f act out) ∧ Abstracts f w' m mk' := by
  have hnone (hop : call.op = none) : False := by
    rw [Call.action, hop] at hm
    cases hm
  cases h with
  | create hop =>
    rw [Call.action, hop] at hm
    cases hm
  | @list _ t coin m' k ask b i hop hmk hf ht =>
    rw [Call.action, hop] at hm
    cases hm
    have hk : mk.listings.lookup k = none := by
      rw [ha.listings, hl.slot_none_of_free hf]
      rfl
    refine ⟨_, Did.step (.list hk), fun k' => ?_, ha.proceeds⟩
    rw [Finmap.lookup_insert_ite, ha.listings]
    by_cases hkk : k' = k
    · subst hkk
      simp [World.setSlot, Slot.abs, hg hf]
    · simp [World.setSlot, World.setFree, hkk]
  | @delist _ t coin m' k L hop hmk hw hs ht =>
    rw [Call.action, hop] at hm
    cases hm
    have hk : mk.listings.lookup k = some (L.abs f) := by rw [ha.listings, hw]; rfl
    refine ⟨_, Did.step (.delist hk hs.symm), fun k' => ?_, ha.proceeds⟩
    rw [Finmap.lookup_erase_ite, ha.listings]
    by_cases hkk : k' = k
    · subst hkk
      simp [World.setSlot, World.setFree]
    · simp [World.setSlot, World.setFree, hkk]
  | @buy _ t coin m' k paid L b c hop hmk hf hw ht hc =>
    rw [Call.action, hop] at hm
    cases hm
    have hk : mk.listings.lookup k = some (L.abs f) := by rw [ha.listings, hw]; rfl
    refine ⟨_, Did.step (.buy hk), fun k' => ?_, fun s => ?_⟩
    · rw [Finmap.lookup_erase_ite, ha.listings]
      by_cases hkk : k' = k
      · subst hkk
        simp [World.setSlot, World.setFree, World.setProfits]
      · simp [World.setSlot, World.setFree, World.setProfits, hkk]
    · rw [Finmap.lookup_insert_ite, ha.proceeds, ha.owed]
      by_cases hss : s = L.seller
      · subst hss
        simp [World.setSlot, World.setFree, World.setProfits, Slot.abs, hc.value]
      · simp [World.setSlot, World.setFree, World.setProfits, Slot.abs, hss]
  | @takeProfits _ coin m' c hop hmk hp =>
    rw [Call.action, hop] at hm
    cases hm
    have hk : mk.proceeds.lookup ctx.sender = some c.balance.toNat := by
      rw [ha.proceeds, hp]
      rfl
    refine ⟨_, Did.step (.takeProfits hk), ha.listings, fun s => ?_⟩
    rw [Finmap.lookup_erase_ite, ha.proceeds]
    by_cases hss : s = ctx.sender
    · subst hss
      simp [World.setFree, World.setProfits]
    · simp [World.setFree, World.setProfits, hss]
  | move hcall => exact (hnone (by rcases hcall with rfl | rfl <;> rfl)).elim
  | _ => exact (hnone rfl).elim

end Effect

/-! ## The log -/

/-- What a call did to marketplace `m`, as the log has it; the log does not say
what an item contains. -/
def Entry.deed (m : A) (e : Entry A) : Option (Deed A A Unit) :=
  match e.call.action fun _ => () with
  | some (m', act) =>
    if m' = m then some ⟨e.sender, act, resultOf (fun _ => ()) act e.out⟩ else none
  | none => none

/-- The deeds of marketplace `m` in a log. -/
def deeds (m : A) (h : List (Entry A)) : List (Deed A A Unit) :=
  h.filterMap (Entry.deed m)

omit [AddressSpace A] in
theorem Entry.deed_eq_none {m : A} {e : Entry A} (h : e.deed m = none) (act : Action A Unit) :
    e.call.action (fun _ => ()) ≠ some (m, act) := by
  intro ha
  simp [Entry.deed, ha] at h

omit [AddressSpace A] in
theorem Entry.deed_eq_some {m : A} {e : Entry A} {d : Deed A A Unit} (h : e.deed m = some d) :
    ∃ act, e.call.action (fun _ => ()) = some (m, act) ∧
      d = ⟨e.sender, act, resultOf (fun _ => ()) act e.out⟩ := by
  unfold Entry.deed at h
  split at h
  · next m' act ha =>
    split at h
    · next hm =>
      cases h
      exact ⟨act, by rw [ha, hm], rfl⟩
    · cases h
  · cases h

namespace History

variable {h : List (Entry A)} {c : Chain A}

/-- **The deeds of a history are a run of the abstract machine**, which ends in
what is on the chain. -/
theorem market (hc : History h c) (m : A) :
    ∃ mk, Run Does Market.empty (deeds m h) mk ∧
      Abstracts (fun _ => ()) (worldOf c.objects) m mk := by
  refine rule (I := fun h w _ => ∃ mk, Run Does Market.empty (deeds m h) mk ∧
    Abstracts (fun _ => ()) w m mk) ?_ ?_ ?_ hc
  · intro _
    exact ⟨_, .nil, abstracts_empty _ m⟩
  · rintro h w w' _ _ ⟨mk, hrun, ha⟩ hg -
    exact ⟨mk, hrun, ha.congr (fun _ => by rw [hg.slots]) fun _ => by rw [hg.profits]⟩
  · rintro h call out c c' hc - ⟨mk, hrun, ha⟩ he
    cases hd : Entry.deed m ⟨c.ctx.sender, call, out⟩ with
    | none =>
      obtain ⟨hs, hp⟩ := he.slots_other (Entry.deed_eq_none hd)
      exact ⟨mk, by simpa [deeds, hd] using hrun, ha.congr hs hp⟩
    | some d =>
      obtain ⟨act, hact, rfl⟩ := Entry.deed_eq_some hd
      obtain ⟨mk', hstep, ha'⟩ := he.abstracts hc.layout ha (fun _ => rfl) hact
      refine ⟨mk', ?_, ha'⟩
      have hdoes : Does mk ⟨c.ctx.sender, act, resultOf (fun _ => ()) act out⟩ mk' := hstep
      simpa [deeds, hd] using hrun.snoc hdoes

/-- The book kept from the log is right about the chain. -/
theorem balanced (hc : History h c) (m : A) :
    (∀ k, (book (deeds m h)).listed k =
      (listingAt c.objects m k).map fun L => (L.ask.toNat, L.seller)) ∧
    (∀ s, coinValue (profitsAt c.objects m s) + (book (deeds m h)).taken s =
      (book (deeds m h)).sold s) ∧
    ∀ s, (book (deeds m h)).due s = (profitsAt c.objects m s).isSome := by
  obtain ⟨mk, hrun, ha⟩ := hc.market m
  refine ⟨fun k => ?_, fun s => ?_, fun s => ?_⟩
  · rw [book_listings hrun, ha.listings, Option.map_map]
    rfl
  · have := ledger hrun s
    rwa [ha.owed] at this
  · rw [book_due hrun, ha.proceeds, Option.isSome_map]
    rfl

end History

end BookMarket
