import BookMarket.Chain.Abstraction
import BookMarket.Chain.Contents

/-!
# The marketplaces of the chain are abstract marketplaces

`IsBazaar w b` says that the abstract bazaar `b` is what the world `w` shows of
its marketplaces: which there are, in which currency, what is listed for how
much by whom, and what every seller is owed.  The relation is a partial function
of the world, every call is a move of the bazaar, and so a whole history is a
run of it.

* `Matches` — a call of the log and a dealing of the bazaar are the same: the
  same sender, the same operation on the same marketplace, the same result.
* `Effect.deals` — one marketplace call is one dealing.
* `marketplaceRefines` — **the marketplaces of a reachable chain refine the
  bazaar, over every run.**
-/

namespace BookMarket

open AbstractMarket Runs

variable {A : Type} [DecidableEq A]

/-- The bazaar `b` is what there is of marketplaces in `w`. -/
def IsBazaar (w : World A) (b : Bazaar A A A TypeTag (Item A)) : Prop :=
  ∀ m, match b.lookup m with
    | none => w.markets m = none
    | some (coin, mk) => w.markets m = some coin ∧ Abstracts id w m mk

/-- Something that was done in a bazaar. -/
structure Dealing (A : Type) where
  sender : A
  move : Move A A TypeTag (Item A)
  result : Result A (Item A)

/-- One dealing, as a step relation. -/
def Deals (b : Bazaar A A A TypeTag (Item A)) (d : Dealing A)
    (b' : Bazaar A A A TypeTag (Item A)) : Prop :=
  b.step d.sender d.move = some (b', d.result)

/-- The abstract move of the same name. -/
inductive SameName : Op A → Move A A TypeTag (Item A) → Prop
  | create {coin : TypeTag} {m : A} : SameName (.create coin) (.create m coin)
  | list {t coin : TypeTag} {m k : A} {ask : UInt64} {i : Item A} (ht : i.type = t) :
      SameName (.list t coin m k ask) (.act m (.list k i ask.toNat))
  | delist {t coin : TypeTag} {m k : A} : SameName (.delist t coin m k) (.act m (.delist k))
  | buy {t coin : TypeTag} {m k paid : A} : SameName (.buy t coin m k paid) (.act m (.buy k))
  | takeProfits {coin : TypeTag} {m : A} :
      SameName (.takeProfits coin m) (.act m .takeProfits)

/-- What a move hands out, read off the object a call hands out. -/
def Move.resultOf : Move A A TypeTag (Item A) → Option (Obj A) → Result A (Item A)
  | .create _ _, _ => .nothing
  | .act _ a, out => BookMarket.resultOf id a out

/-- A call of the log and a dealing are the same. -/
structure Matches (e : Entry A) (d : Dealing A) : Prop where
  sender : d.sender = e.sender
  name : ∃ op, e.call.op = some op ∧ SameName op d.move
  result : d.result = Move.resultOf d.move e.out

namespace IsBazaar

variable {w w' : World A} {b b' : Bazaar A A A TypeTag (Item A)}

theorem empty : IsBazaar (World.empty : World A) ∅ := fun _ => rfl

theorem of_market (hb : IsBazaar w b) {m : A} {coin : TypeTag} (hm : w.markets m = some coin) :
    ∃ mk, b.lookup m = some (coin, mk) ∧ Abstracts id w m mk := by
  have h := hb m
  split at h
  · rw [hm] at h
    cases h
  · next coin' mk hlk =>
    rw [hm] at h
    cases h.1
    exact ⟨mk, hlk, h.2⟩

theorem of_none (hb : IsBazaar w b) {m : A} (hm : w.markets m = none) : b.lookup m = none := by
  have h := hb m
  split at h
  · next hlk => exact hlk
  · rw [hm] at h
    cases h.1

/-- A world has one abstraction. -/
theorem unique (hb : IsBazaar w b) (hb' : IsBazaar w b') : b = b' := by
  refine Finmap.ext_lookup fun m => ?_
  cases hm : w.markets m with
  | none => rw [hb.of_none hm, hb'.of_none hm]
  | some coin =>
    obtain ⟨mk, hlk, ha⟩ := hb.of_market hm
    obtain ⟨mk', hlk', ha'⟩ := hb'.of_market hm
    rw [hlk, hlk', ha.unique ha']

theorem congr (hb : IsBazaar w b) (hm : w'.markets = w.markets) (hs : w'.slots = w.slots)
    (hp : w'.profits = w.profits) : IsBazaar w' b := by
  intro m
  have h := hb m
  split
  · next hlk => simpa only [hlk, hm] using h
  · next coin mk hlk =>
    simp only [hlk] at h
    exact ⟨by rw [hm]; exact h.1, h.2.congr (fun _ => by rw [hs]) fun _ => by rw [hp]⟩

/-- One marketplace changes. -/
theorem insert (hb : IsBazaar w b) {m : A} {coin : TypeTag} {mk : Market A A (Item A)}
    (hm : w'.markets m = some coin) (ha : Abstracts id w' m mk)
    (hother : ∀ m', m' ≠ m → w'.markets m' = w.markets m' ∧
      (∀ k, w'.slots (m', k) = w.slots (m', k)) ∧ ∀ s, w'.profits (m', s) = w.profits (m', s)) :
    IsBazaar w' (b.insert m (coin, mk)) := by
  intro m'
  rw [Finmap.lookup_insert_ite]
  by_cases hmm : m' = m
  · subst hmm
    simp only [if_true]
    exact ⟨hm, ha⟩
  · obtain ⟨h1, h2, h3⟩ := hother m' hmm
    have h := hb m'
    simp only [hmm, if_false]
    split
    · next hlk =>
      rw [hlk] at h
      rw [h1]
      exact h
    · next coin' mk' hlk =>
      rw [hlk] at h
      exact ⟨by rw [h1]; exact h.1, h.2.congr h2 h3⟩

end IsBazaar

variable [AddressSpace A]

/-! ## One call -/

namespace Effect

variable {w w' : World A} {ctx ctx' : TxContext A} {call : Call A} {out : Option (Obj A)}
  {o : Objects A} {b : Bazaar A A A TypeTag (Item A)}

/-- **A marketplace call is a dealing of the bazaar**, with the item that was
handed in. -/
theorem deals (h : Effect w ctx call out w' ctx') (hl : Layout ctx w o) (hb : IsBazaar w b)
    (hop : call.op ≠ none) :
    ∃ d b', Matches ⟨ctx.sender, call, out⟩ d ∧ Deals b d b' ∧ IsBazaar w' b' ∧
      ∀ m k i ask, d.move = .act m (.list k i ask) → itemAt o k = some i := by
  -- the item an identifier stands for; the default is never looked at
  let g : A → Item A := fun k => (itemAt o k).getD (.other 0 [])
  have hg : ∀ {k v}, w.free k = some v → g k = id v.2 := by
    intro k v hf
    simp only [g, hl.itemAt_free (h := v.1) (i := v.2) hf]
    rfl
  have hact {m coin act} (hm : w.markets m = some coin) (hmk : w'.markets = w.markets)
      (ha : call.action g = some (m, act)) (hname : ∃ op, call.op = some op ∧
        SameName op (.act m act))
      (hitem : ∀ k i ask, act = .list k i ask → itemAt o k = some i) :
      ∃ d b', Matches ⟨ctx.sender, call, out⟩ d ∧ Deals b d b' ∧ IsBazaar w' b' ∧
        ∀ m k i ask, d.move = .act m (.list k i ask) → itemAt o k = some i := by
    obtain ⟨mk, hlk, habs⟩ := hb.of_market hm
    obtain ⟨mk', hstep, habs'⟩ := h.abstracts hl habs hg ha
    refine ⟨⟨ctx.sender, .act m act, resultOf id act out⟩, b.insert m (coin, mk'),
      ⟨rfl, hname, rfl⟩, ?_, hb.insert (by rw [hmk]; exact hm) habs' ?_, ?_⟩
    · simp only [Deals, Bazaar.step, hlk, hstep, Option.map_some]
    · intro m' hne
      obtain ⟨h1, h2⟩ := h.slots_other (g := g) (m := m') fun act' e => by
        rw [ha] at e
        cases e
        exact hne rfl
      exact ⟨by rw [hmk], h1, h2⟩
    · intro m' k i ask e
      cases e
      exact hitem k i ask rfl
  cases h with
  | @create _ coin h =>
    have hm := hl.market_objectNew
    refine ⟨⟨ctx.sender, .create (objectNew ctx).1 coin, .nothing⟩,
      b.insert (objectNew ctx).1 (coin, Market.empty), ⟨rfl, ⟨_, h, .create⟩, rfl⟩, ?_, ?_, ?_⟩
    · simp only [Deals, Bazaar.step, hb.of_none hm]
    · refine hb.insert (Function.update_self _ _ _) ⟨fun k => ?_, fun s => ?_⟩ fun m' hne =>
        ⟨Function.update_of_ne hne _ _, fun _ => rfl, fun _ => rfl⟩
      · have : w.slots ((objectNew ctx).1, k) = none := hl.slots_none_of_market hm k
        simp [World.setMarket, this, Market.empty]
      · have : w.profits ((objectNew ctx).1, s) = none := hl.profits_none_of_market hm s
        simp [World.setMarket, this, Market.empty]
    · intro m k i ask e
      cases e
  | @list _ t coin m k ask _ i h hm hf ht =>
    refine hact hm rfl (by rw [Call.action, h]; rfl) ⟨_, h, .list ?_⟩ ?_
    · rw [hg hf]
      exact ht
    · intro k' i' ask' e
      cases e
      rw [hg hf]
      exact hl.itemAt_free hf
  | delist h hm hw hs ht =>
    exact hact hm rfl (by rw [Call.action, h]; rfl) ⟨_, h, .delist⟩ fun _ _ _ e => by cases e
  | buy h hm hf hw ht hc =>
    exact hact hm rfl (by rw [Call.action, h]; rfl) ⟨_, h, .buy⟩ fun _ _ _ e => by cases e
  | takeProfits h hm hp =>
    exact hact hm rfl (by rw [Call.action, h]; rfl) ⟨_, h, .takeProfits⟩ fun _ _ _ e => by cases e
  | move hcall => exact absurd (by rcases hcall with rfl | rfl <;> rfl) hop
  | _ => exact absurd rfl hop

end Effect

/-! ## Whole runs -/

/-- The marketplace calls of a log. -/
def marketCalls (h : List (Entry A)) : List (Entry A) :=
  h.filter fun e => e.call.op.isSome

/-- A history is a run of the bazaar. -/
theorem History.bazaar {h : List (Entry A)} {c : Chain A} (hc : History h c) :
    ∃ ds b, Run Deals ∅ ds b ∧ IsBazaar (worldOf c.objects) b ∧
      List.Forall₂ Matches (marketCalls h) ds := by
  refine hc.rule (I := fun h w _ => ∃ ds b, Run Deals ∅ ds b ∧ IsBazaar w b ∧
    List.Forall₂ Matches (marketCalls h) ds) ?_ ?_ ?_
  · intro _
    exact ⟨[], ∅, .nil, .empty, .nil⟩
  · rintro h w w' _ _ ⟨ds, b, hrun, hb, hm⟩ hg -
    exact ⟨ds, b, hrun, hb.congr hg.markets hg.slots hg.profits, hm⟩
  · rintro h call out c c' hc - ⟨ds, b, hrun, hb, hm⟩ he
    cases hop : call.op with
    | none =>
      obtain ⟨h1, h2, h3⟩ := he.op_none hop
      exact ⟨ds, b, hrun, hb.congr h1 h2 h3, by simpa [marketCalls, hop] using hm⟩
    | some op =>
      obtain ⟨d, b', hmatch, hdeals, hb', -⟩ := he.deals hc.layout hb (by rw [hop]; simp)
      refine ⟨ds ++ [d], b', hrun.snoc hdeals, hb', ?_⟩
      have : marketCalls (h ++ [⟨c.ctx.sender, call, out⟩]) =
          marketCalls h ++ [⟨c.ctx.sender, call, out⟩] := by
        simp [marketCalls, hop]
      rw [this]
      exact List.rel_append hm (.cons hmatch .nil)

/-- **The marketplaces of the chain refine the bazaar.**  Every history is a run
of the abstract machine, dealing by dealing the calls of the log, that ends in
the abstraction of the store; a store has one abstraction; from every reachable
chain the next event is either a marketplace call, matched by the abstract step
of the same name with the same result, or is not seen by the abstraction; and
the next event leaves alone every marketplace, listing and coin of proceeds that
it does not name. -/
theorem marketplaceRefines {h : List (Entry A)} {c : Chain A} (hc : History h c) :
    (∃ ds b, Run Deals ∅ ds b ∧ IsBazaar (worldOf c.objects) b ∧
      List.Forall₂ Matches (marketCalls h) ds) ∧
    (∀ {b b'}, IsBazaar (worldOf c.objects) b → IsBazaar (worldOf c.objects) b' → b = b') ∧
    (∀ {b e c'}, IsBazaar (worldOf c.objects) b → Step c e c' →
      (∃ entry d b', e = .call entry ∧ Matches entry d ∧ Deals b d b' ∧
        IsBazaar (worldOf c'.objects) b' ∧
        ∀ m k i ask, d.move = .act m (.list k i ask) → itemAt c.objects k = some i) ∨
      (∀ entry, e = .call entry → entry.call.op = none) ∧ IsBazaar (worldOf c'.objects) b) ∧
    (∀ {e c' m k}, Step c e c' → listingAt c'.objects m k ≠ listingAt c.objects m k →
      ∃ entry, e = .call entry ∧ ((∃ t coin ask, entry.call.op = some (.list t coin m k ask)) ∨
        (∃ t coin, entry.call.op = some (.delist t coin m k)) ∨
        ∃ t coin paid, entry.call.op = some (.buy t coin m k paid))) ∧
    (∀ {e c' m s}, Step c e c' → profitsAt c'.objects m s ≠ profitsAt c.objects m s →
      ∃ entry, e = .call entry ∧ ((∃ t coin k paid L, entry.call.op = some (.buy t coin m k paid) ∧
        listingAt c.objects m k = some L ∧ L.seller = s) ∨
        ∃ coin, entry.call.op = some (.takeProfits coin m) ∧ entry.sender = s)) ∧
    ∀ {e c' m}, Step c e c' → marketAt c'.objects m ≠ marketAt c.objects m →
      ∃ entry coin, e = .call entry ∧ entry.call.op = some (.create coin) ∧
        marketAt c.objects m = none ∧ marketAt c'.objects m = some coin := by
  refine ⟨hc.bazaar, fun hb hb' => hb.unique hb', ?_, ?_, ?_, ?_⟩
  · intro b e c' hb hs
    have hw := hs.worldStep hc.layout
    cases hs with
    | start _ _ =>
      exact Or.inr ⟨fun _ h => (by cases h), hb.congr hw.1.markets hw.1.slots hw.1.profits⟩
    | @call c' call out hr he =>
      have heff := hc.effect he
      by_cases hop : call.op = none
      · obtain ⟨h1, h2, h3⟩ := heff.op_none hop
        exact Or.inr ⟨fun _ h => (by cases h; exact hop), hb.congr h1 h2 h3⟩
      · obtain ⟨d, b', hmatch, hdeals, hb', hitem⟩ := heff.deals hc.layout hb hop
        exact Or.inl ⟨_, d, b', rfl, hmatch, hdeals, hb', hitem⟩
    | finish _ _ =>
      exact Or.inr ⟨fun _ h => (by cases h), hb.congr hw.1.markets hw.1.slots hw.1.profits⟩
  · intro e c' m k hs hne
    exact hc.listing_of_ne hs hne
  · intro e c' m s hs hne
    exact hc.profits_of_ne hs hne
  · intro e c' m hs hne
    exact hc.market_of_ne hs hne

/-- The bazaar after one sale: a run of the abstract machine, matched call by
call. -/
theorem marketplaceRefines_oneSale :
    History (run genesis oneSale).2 (run genesis oneSale).1 ∧
    (marketCalls (run (genesis : Chain Addr) oneSale).2).length = 3 ∧
    ∃ ds b, Run Deals ∅ ds b ∧ IsBazaar (worldOf (run genesis oneSale).1.objects) b ∧
      List.Forall₂ Matches (marketCalls (run genesis oneSale).2) ds :=
  ⟨(run_history oneSale).1, by decide +kernel, (marketplaceRefines (run_history oneSale).1).1⟩

end BookMarket
