import BookMarket.Props.Exit

/-!
# Independent calls commute

Two of the four closed calls, on different items, where the second does not use
what the first hands out, and not a sale together with the seller's withdrawal.
The argument is that of disjoint footprints: each call reads and writes a few
places of the world, and finds there, in the other order, what it found before.
Only two sales by one seller meet in a place, the seller's coin; there the values
add up in either order.

* `Act` — what one of the calls does to the world, wherever it finds the objects
  it consumes.
* `Act.free_frame`, `Act.slots_frame`, `Act.profits_frame` — what it leaves alone.
* `Act.transport` — it can be made in another world that agrees on what it reads,
  and has the same results there.
* `Act.swap` — **the diamond.**
* `Performs` — a call, as a transaction of its own or inside a running one.
* `independentCommute` — **independent calls commute.**
-/

namespace BookMarket

open Simulation Runs

variable {A : Type}

/-! ## What a call does -/

/-- The item a closed call concerns. -/
def Call.item : Call A → Option A
  | .list _ _ _ k _ | .delistAndTake _ _ _ k | .buyAndTake _ _ _ k _ => some k
  | _ => none

variable [DecidableEq A]

/-- `Act H s uid w call w'`: made by `s`, the call leads from `w` to `w'`, taking the
object it consumes from a holder in `H`.  A new listing gets the identifier
`uid`. -/
inductive Act (H : Holder A → Prop) (s uid : A) (w : World A) : Call A → World A → Prop
  | list {t coin : TypeTag} {m k : A} {ask : UInt64} {h : Holder A} {i : Item A}
      (hm : w.markets m = some coin) (hh : H h) (hf : w.free k = some (h, i)) (ht : i.type = t) :
      Act H s uid w (.list t coin m k ask)
        ((w.setFree k none).setSlot m k (some ⟨uid, ask, s, i⟩))
  | delistAndTake {t coin : TypeTag} {m k : A} {L : Slot A} (hm : w.markets m = some coin)
      (hw : w.slots (m, k) = some L) (hs : s = L.seller) (ht : L.item.type = t) :
      Act H s uid w (.delistAndTake t coin m k)
        ((w.setSlot m k none).setFree k (some (.address s, L.item)))
  | buyAndTake {t coin : TypeTag} {m k paid : A} {L : Slot A} {c : Coin A} {h : Holder A}
      (hm : w.markets m = some coin) (hh : H h)
      (hf : w.free paid = some (h, .coin coin L.ask))
      (hw : w.slots (m, k) = some L) (ht : L.item.type = t)
      (hc : Credited ⟨paid, L.ask⟩ (w.profits (m, L.seller)) c) :
      Act H s uid w (.buyAndTake t coin m k paid)
        ((((w.setFree paid none).setSlot m k none).setProfits m L.seller (some c)).setFree k
          (some (.address s, L.item)))
  | takeProfitsAndKeep {coin : TypeTag} {m : A} {c : Coin A} (hm : w.markets m = some coin)
      (hp : w.profits (m, s) = some c) :
      Act H s uid w (.takeProfitsAndKeep coin m)
        ((w.setProfits m s none).setFree c.id (some (.address s, .coin coin c.balance)))

/-- The call sells an item of the seller `p.2` in the marketplace `p.1`. -/
def Sells (w : World A) (p : A × A) (call : Call A) : Prop :=
  ∃ t coin k paid L, call = .buyAndTake t coin p.1 k paid ∧ w.slots (p.1, k) = some L ∧
    L.seller = p.2

/-- Made by `s`, the call withdraws the proceeds `p`. -/
def Withdraws (s : A) (p : A × A) (call : Call A) : Prop :=
  ∃ coin, call = .takeProfitsAndKeep coin p.1 ∧ p.2 = s

/-- Made by `s`, the call hands out the object `id`. -/
def HandsOut (w : World A) (s : A) (call : Call A) (id : A) : Prop :=
  (∃ t coin m, call = .delistAndTake t coin m id) ∨
  (∃ t coin m paid, call = .buyAndTake t coin m id paid) ∨
  ∃ coin m c, call = .takeProfitsAndKeep coin m ∧ w.profits (m, s) = some c ∧ c.id = id

/-- The objects a call takes from somebody or hands out. -/
def Touches (w : World A) (s : A) (call : Call A) (id : A) : Prop :=
  id ∈ call.consumes ∨ HandsOut w s call id

omit [DecidableEq A] in
/-- What a listing is about, whatever identifier it has. -/
def Slot.terms (L : Slot A) : Item A × UInt64 × A :=
  (L.item, L.ask, L.seller)

/-- Made by `s` in `w` and in `v`, the call leaves the same in the places it writes:
the objects it touches, the listing of its item (up to the identifier of a new
one) and, if it was the same before, the coin of the seller. -/
structure SameResults (w : World A) (s : A) (call : Call A) (w' v v' : World A) : Prop where
  free : ∀ id, Touches w s call id → v'.free id = w'.free id
  slots : ∀ m k, call.item = some k →
    (v'.slots (m, k)).map Slot.terms = (w'.slots (m, k)).map Slot.terms ∧
      (v'.slots (m, k) = w'.slots (m, k) ∨ call.lists m k)
  profits : ∀ p, Sells w p call ∨ Withdraws s p call → v.profits p = w.profits p →
    v'.profits p = w'.profits p

namespace World

theorem slots_setSlot_congr {w w' : World A} {m k : A} {p : A × A} (v : Option (Slot A))
    (h : w'.slots p = w.slots p) : (w'.setSlot m k v).slots p = (w.setSlot m k v).slots p := by
  by_cases hp : p = (m, k)
  · subst hp
    rw [slots_setSlot_self, slots_setSlot_self]
  · rw [slots_setSlot_of_ne hp, slots_setSlot_of_ne hp, h]

end World

namespace Act

variable {H : Holder A → Prop} {s uid : A} {w w' : World A} {call : Call A}

/-! ## Frames -/

theorem markets (h : Act H s uid w call w') : w'.markets = w.markets := by
  cases h <;> rfl

theorem free_frame (h : Act H s uid w call w') {id : A} (hid : ¬ Touches w s call id) :
    w'.free id = w.free id := by
  cases h with
  | list => exact Function.update_of_ne (fun e => hid (Or.inl (by simp [e, Call.consumes]))) _ _
  | delistAndTake =>
    exact Function.update_of_ne (fun e => hid (Or.inr (Or.inl ⟨_, _, _, by rw [e]⟩))) _ _
  | buyAndTake =>
    refine (Function.update_of_ne (fun e => hid (Or.inr (Or.inr (Or.inl ⟨_, _, _, _, by rw [e]⟩))))
      _ _).trans ?_
    exact Function.update_of_ne (fun e => hid (Or.inl (by simp [e, Call.consumes]))) _ _
  | takeProfitsAndKeep _ hp =>
    exact Function.update_of_ne
      (fun e => hid (Or.inr (Or.inr (Or.inr ⟨_, _, _, rfl, hp, e.symm⟩)))) _ _

theorem slots_frame (h : Act H s uid w call w') {m k : A} (hk : call.item ≠ some k) :
    w'.slots (m, k) = w.slots (m, k) := by
  cases h with
  | list | delistAndTake | buyAndTake =>
    refine Function.update_of_ne (fun e => hk ?_) _ _
    rw [(Prod.mk.inj e).2]
    rfl
  | takeProfitsAndKeep => rfl

theorem profits_frame (h : Act H s uid w call w') {p : A × A} (hs : ¬ Sells w p call)
    (ht : ¬ Withdraws s p call) : w'.profits p = w.profits p := by
  cases h with
  | list | delistAndTake => rfl
  | buyAndTake _ _ _ hw =>
    refine Function.update_of_ne (fun e => hs ?_) _ _
    subst e
    exact ⟨_, _, _, _, _, rfl, hw, rfl⟩
  | takeProfitsAndKeep =>
    refine Function.update_of_ne (fun e => ht ?_) _ _
    subst e
    exact ⟨_, rfl, rfl⟩

/-! ## What it finds and what it leaves -/

/-- What a call consumes, somebody held. -/
theorem consumed (h : Act H s uid w call w') {id : A} (hid : id ∈ call.consumes) :
    ∃ v, w.free id = some v := by
  cases h with
  | list _ _ hf =>
    obtain rfl := List.mem_singleton.1 hid
    exact ⟨_, hf⟩
  | buyAndTake _ _ hf =>
    obtain rfl := List.mem_singleton.1 hid
    exact ⟨_, hf⟩
  | delistAndTake | takeProfitsAndKeep => exact (List.not_mem_nil hid).elim

/-- What a call consumes, nobody holds afterwards, unless it is handed out. -/
theorem consumed_gone (h : Act H s uid w call w') {id : A} (hid : id ∈ call.consumes)
    (ho : ¬ HandsOut w s call id) : w'.free id = none := by
  cases h with
  | list =>
    obtain rfl := List.mem_singleton.1 hid
    exact Function.update_self _ _ _
  | @buyAndTake _ _ _ k =>
    obtain rfl := List.mem_singleton.1 hid
    have hne : id ≠ k := by
      rintro rfl
      exact ho (Or.inr (Or.inl ⟨_, _, _, _, rfl⟩))
    exact (Function.update_of_ne hne _ _).trans (Function.update_self _ _ _)
  | delistAndTake | takeProfitsAndKeep => exact (List.not_mem_nil hid).elim

/-- What a call hands out was listed, or a coin of proceeds. -/
theorem handsOut_cases (h : Act H s uid w call w') {id : A} (ho : HandsOut w s call id) :
    (call.item = some id ∧ ∃ m L, w.slots (m, id) = some L) ∨
      ∃ p c, Withdraws s p call ∧ w.profits p = some c ∧ c.id = id := by
  rcases ho with ⟨t, coin, m, rfl⟩ | ⟨t, coin, m, paid, rfl⟩ | ⟨coin, m, c, rfl, hp, hid⟩
  · cases h with
    | delistAndTake _ hw => exact Or.inl ⟨rfl, m, _, hw⟩
  · cases h with
    | buyAndTake _ _ _ hw => exact Or.inl ⟨rfl, m, _, hw⟩
  · exact Or.inr ⟨(m, s), c, ⟨coin, rfl, rfl⟩, hp, hid⟩

/-- A withdrawal takes everything. -/
theorem withdrawn (h : Act H s uid w call w') {p : A × A} (hp : Withdraws s p call) :
    (∃ c, w.profits p = some c) ∧ w'.profits p = none := by
  obtain ⟨m, s'⟩ := p
  obtain ⟨coin, rfl, rfl⟩ := hp
  cases h with
  | takeProfitsAndKeep _ hp => exact ⟨⟨_, hp⟩, Function.update_self _ _ _⟩

/-- A sale adds the ask to the seller's coin. -/
theorem credited {t coin : TypeTag} {m k paid : A} {L : Slot A}
    (h : Act H s uid w (.buyAndTake t coin m k paid) w') (hw : w.slots (m, k) = some L) :
    ∃ c, w'.profits (m, L.seller) = some c ∧
      Credited ⟨paid, L.ask⟩ (w.profits (m, L.seller)) c := by
  cases h with
  | @buyAndTake _ _ _ _ _ L' c _ hm hh hf hw' ht hc =>
    cases hw.symm.trans hw'
    exact ⟨c, by simp, hc⟩

/-! ## The same call elsewhere -/

/-- In another world that agrees on what the call reads, it can be made as well, and
leaves the same in the places it writes. -/
theorem transport (h : Act H s uid w call w') {v : World A} (hm : v.markets = w.markets)
    (hf : ∀ id ∈ call.consumes, v.free id = w.free id)
    (hk : ∀ m k, call.item = some k → v.slots (m, k) = w.slots (m, k))
    (ht : ∀ p, Withdraws s p call → v.profits p = w.profits p)
    (hs : ∀ {t coin m k paid L}, call = .buyAndTake t coin m k paid → w.slots (m, k) = some L →
      Fits L.ask (v.profits (m, L.seller))) (uid' : A) :
    ∃ v', Act H s uid' v call v' ∧ SameResults w s call w' v v' := by
  cases h with
  | @list t coin m k ask h i hm' hh hf' hty =>
    refine ⟨_, .list (hm ▸ hm') hh ((hf k (by simp [Call.consumes])).trans hf') hty, ?_, ?_, ?_⟩
    · rintro id (hid | ho)
      · obtain rfl := List.mem_singleton.1 hid
        simp
      · rcases ho with ⟨_, _, _, ho⟩ | ⟨_, _, _, _, ho⟩ | ⟨_, _, _, ho, -⟩ <;> cases ho
    · intro m' k' hk'
      cases hk'
      by_cases hm' : m' = m
      · subst hm'
        refine ⟨?_, Or.inr ⟨t, coin, ask, rfl⟩⟩
        rw [World.slots_setSlot_self, World.slots_setSlot_self]
        rfl
      · have hne : (m', k) ≠ (m, k) := fun e => hm' (Prod.mk.inj e).1
        rw [World.slots_setSlot_of_ne hne, World.slots_setSlot_of_ne hne]
        have := hk m' k rfl
        exact ⟨congrArg _ this, Or.inl this⟩
    · rintro p (⟨_, _, _, _, _, hp, -⟩ | ⟨_, hp, -⟩) <;> cases hp
  | @delistAndTake t coin m k L hm' hw hs' hty =>
    refine ⟨_, .delistAndTake (hm ▸ hm') ((hk m k rfl).trans hw) hs' hty, ?_, ?_, ?_⟩
    · rintro id (hid | ho)
      · exact (List.not_mem_nil hid).elim
      · rcases ho with ⟨_, _, _, ho⟩ | ⟨_, _, _, _, ho⟩ | ⟨_, _, _, ho, -⟩
        · cases ho
          simp
        · cases ho
        · cases ho
    · intro m' k' hk'
      cases hk'
      have := World.slots_setSlot_congr (m := m) (k := k) none (hk m' k rfl)
      exact ⟨congrArg _ this, Or.inl this⟩
    · rintro p (⟨_, _, _, _, _, hp, -⟩ | ⟨_, hp, -⟩) <;> cases hp
  | @buyAndTake t coin m k paid L c h hm' hh hf' hw hty hc =>
    obtain ⟨c', hc', -⟩ := World.credit_of_fits (p := ⟨paid, L.ask⟩) (hs rfl hw)
    refine ⟨_, .buyAndTake (hm ▸ hm') hh ((hf paid (by simp [Call.consumes])).trans hf')
      ((hk m k rfl).trans hw) hty hc', ?_, ?_, ?_⟩
    · intro id hid
      by_cases hik : id = k
      · subst hik
        simp
      · rw [World.free_setFree_of_ne hik, World.free_setFree_of_ne hik]
        rcases hid with hid | ⟨_, _, _, ho⟩ | ⟨_, _, _, _, ho⟩ | ⟨_, _, _, ho, -⟩
        · obtain rfl := List.mem_singleton.1 hid
          simp
        · cases ho
        · cases ho
          exact absurd rfl hik
        · cases ho
    · intro m' k' hk'
      cases hk'
      have := World.slots_setSlot_congr (m := m) (k := k) none (hk m' k rfl)
      exact ⟨congrArg _ this, Or.inl this⟩
    · rintro ⟨m', s'⟩ (⟨_, _, _, _, L', hp, hw', rfl⟩ | ⟨_, hp, -⟩) heq
      · cases hp
        cases hw.symm.trans hw'
        rw [heq] at hc'
        rw [hc'.unique hc]
        simp
      · cases hp
  | @takeProfitsAndKeep coin m c hm' hp =>
    refine ⟨_, .takeProfitsAndKeep (hm ▸ hm') ((ht (m, s) ⟨coin, rfl, rfl⟩).trans hp), ?_, ?_, ?_⟩
    · rintro id (hid | ho)
      · exact (List.not_mem_nil hid).elim
      · rcases ho with ⟨_, _, _, ho⟩ | ⟨_, _, _, _, ho⟩ | ⟨_, _, _, ho, hp', rfl⟩
        · cases ho
        · cases ho
        · cases ho
          cases hp.symm.trans hp'
          simp
    · intro m' k' hk'
      cases hk'
    · rintro ⟨m', s'⟩ (⟨_, _, _, _, _, ho, -⟩ | ⟨_, ho, hs'⟩) -
      · cases ho
      · cases ho
        cases hs'
        simp

end Act

/-! ## The diamond -/

namespace Credited

variable {p1 p2 c1 c12 c2 c21 : Coin A} {old : Option (Coin A)}

omit [DecidableEq A] in
/-- What fits in one order fits in the other. -/
theorem fits_swap (h1 : Credited p1 old c1) (h12 : Credited p2 (some c1) c12)
    (h2 : Credited p2 old c2) : Fits p1.balance (some c2) := by
  have hlt := c12.balance.toNat_lt
  rw [h12.value, coinValue_some, h1.value] at hlt
  rw [Fits, coinValue_some, h2.value]
  omega

omit [DecidableEq A] in
/-- Two payments add up to the same in either order.  If there was no coin, the
first payment becomes it. -/
theorem swap (h1 : Credited p1 old c1) (h12 : Credited p2 (some c1) c12)
    (h2 : Credited p2 old c2) (h21 : Credited p1 (some c2) c21) :
    c21 = c12 ∨ ∃ x, c12 = ⟨p1.id, x⟩ ∧ c21 = ⟨p2.id, x⟩ := by
  have hb : c21.balance = c12.balance := by
    refine UInt64.toNat_inj.1 ?_
    rw [h21.value, h12.value, coinValue_some, coinValue_some, h1.value, h2.value]
    omega
  obtain ⟨id12, b12⟩ := c12
  obtain ⟨id21, b21⟩ := c21
  obtain rfl : b21 = b12 := hb
  have hid12 : id12 = c1.id := h12.1
  have hid21 : id21 = c2.id := h21.1
  cases old with
  | none =>
    obtain rfl : c1 = p1 := h1
    obtain rfl : c2 = p2 := h2
    exact Or.inr ⟨b21, by rw [hid12], by rw [hid21]⟩
  | some c =>
    left
    rw [hid12, hid21, h1.1, h2.1]

end Credited

/-- Made one after the other, the calls are independent: they concern different
items, the second does not use what the first hands out, and they are not a sale
and the seller's withdrawal. -/
structure Independent (w : World A) (s1 s2 : A) (call1 call2 : Call A) : Prop where
  items : ∀ k, call1.item = some k → call2.item ≠ some k
  unused : ∀ id, HandsOut w s1 call1 id → id ∉ call2.consumes
  saleTake : ∀ p, Sells w p call1 → ¬ Withdraws s2 p call2
  takeSale : ∀ p, Withdraws s1 p call1 → ¬ Sells w p call2

/-- The outcomes of the two orders: nothing differs but the identifiers of new
listings, and which of two paid coins has become the seller's coin. -/
structure Agree (call1 call2 : Call A) (w v : World A) : Prop where
  markets : v.markets = w.markets
  free : ∀ id, v.free id = w.free id
  slots : ∀ m k, (v.slots (m, k)).map Slot.terms = (w.slots (m, k)).map Slot.terms ∧
    (v.slots (m, k) = w.slots (m, k) ∨ call1.lists m k ∨ call2.lists m k)
  profits : ∀ p, v.profits p = w.profits p ∨
    ∃ t1 coin1 k1 paid1 t2 coin2 k2 paid2 x, call1 = .buyAndTake t1 coin1 p.1 k1 paid1 ∧
      call2 = .buyAndTake t2 coin2 p.1 k2 paid2 ∧ w.profits p = some ⟨paid1, x⟩ ∧
      v.profits p = some ⟨paid2, x⟩

omit [DecidableEq A] in
theorem touches_congr {w v : World A} {s id : A} {call : Call A}
    (h : ∀ p, Withdraws s p call → v.profits p = w.profits p) :
    Touches v s call id ↔ Touches w s call id := by
  refine or_congr Iff.rfl (or_congr Iff.rfl (or_congr Iff.rfl ?_))
  constructor
  · rintro ⟨coin, m, c, rfl, hp, hid⟩
    exact ⟨coin, m, c, rfl, (h (m, s) ⟨coin, rfl, rfl⟩).symm.trans hp, hid⟩
  · rintro ⟨coin, m, c, rfl, hp, hid⟩
    exact ⟨coin, m, c, rfl, (h (m, s) ⟨coin, rfl, rfl⟩).trans hp, hid⟩

/-- Nobody withdraws the same proceeds twice in a row. -/
theorem Act.not_withdraws_again {H1 H2 : Holder A → Prop} {s1 s2 u1 u2 : A} {w w1 w12 : World A}
    {call1 call2 : Call A} (h1 : Act H1 s1 u1 w call1 w1) (h2 : Act H2 s2 u2 w1 call2 w12)
    {p : A × A} (hp : Withdraws s1 p call1) : ¬ Withdraws s2 p call2 := by
  intro hp2
  obtain ⟨c, hc⟩ := (h2.withdrawn hp2).1
  rw [(h1.withdrawn hp).2] at hc
  cases hc

namespace Independent

variable {H1 H2 : Holder A → Prop} {s1 s2 u1 u2 : A} {w w1 w12 : World A} {call1 call2 : Call A}

/-! What the second call finds after the first it would have found before it. -/

theorem untouched (hi : Independent w s1 s2 call1 call2) (h1 : Act H1 s1 u1 w call1 w1)
    (h2 : Act H2 s2 u2 w1 call2 w12) {id : A} (hid : id ∈ call2.consumes) :
    ¬ Touches w s1 call1 id := by
  obtain ⟨v, hv⟩ := h2.consumed hid
  intro ht
  by_cases ho : HandsOut w s1 call1 id
  · exact hi.unused id ho hid
  · rw [h1.consumed_gone (ht.resolve_right ho) ho] at hv
    cases hv

theorem slots_same (hi : Independent w s1 s2 call1 call2) (h1 : Act H1 s1 u1 w call1 w1) (m k : A)
    (hk : call2.item = some k) : w1.slots (m, k) = w.slots (m, k) :=
  h1.slots_frame fun h => hi.items k h hk

theorem sells_iff (hi : Independent w s1 s2 call1 call2) (h1 : Act H1 s1 u1 w call1 w1)
    {p : A × A} : Sells w1 p call2 ↔ Sells w p call2 := by
  constructor
  · rintro ⟨t, coin, k, paid, L, rfl, hw, hs⟩
    exact ⟨t, coin, k, paid, L, rfl, (hi.slots_same h1 _ k rfl).symm.trans hw, hs⟩
  · rintro ⟨t, coin, k, paid, L, rfl, hw, hs⟩
    exact ⟨t, coin, k, paid, L, rfl, (hi.slots_same h1 _ k rfl).trans hw, hs⟩

theorem profits_same (hi : Independent w s1 s2 call1 call2) (h1 : Act H1 s1 u1 w call1 w1)
    (h2 : Act H2 s2 u2 w1 call2 w12) (p : A × A) (hp : Withdraws s2 p call2) :
    w1.profits p = w.profits p :=
  h1.profits_frame (fun h => hi.saleTake p h hp) fun h => h1.not_withdraws_again h2 h hp

/-- The first call does not lower what a sale of the second adds to. -/
theorem coinValue_le (hi : Independent w s1 s2 call1 call2) (h1 : Act H1 s1 u1 w call1 w1)
    {p : A × A} (hp : Sells w p call2) :
    coinValue (w.profits p) ≤ coinValue (w1.profits p) := by
  by_cases hs : Sells w p call1
  · obtain ⟨m, s⟩ := p
    obtain ⟨t, coin, k, paid, L, rfl, hw, rfl⟩ := hs
    obtain ⟨c, hc, hcr⟩ := h1.credited hw
    rw [hc, coinValue_some, hcr.value]
    exact Nat.le_add_right _ _
  · rw [h1.profits_frame hs fun h => hi.takeSale p h hp]

/-- The second call could have been made first. -/
theorem first (hi : Independent w s1 s2 call1 call2) (h1 : Act H1 s1 u1 w call1 w1)
    (h2 : Act H2 s2 u2 w1 call2 w12) (u2' : A) :
    ∃ w2, Act H2 s2 u2' w call2 w2 ∧ SameResults w1 s2 call2 w12 w w2 := by
  refine h2.transport h1.markets.symm (fun id hid => (h1.free_frame (hi.untouched h1 h2 hid)).symm)
    (fun m k hk => (hi.slots_same h1 m k hk).symm) (fun p hp => (hi.profits_same h1 h2 p hp).symm)
    ?_ u2'
  rintro t coin m k paid L rfl hw
  have hsell : Sells w1 (m, L.seller) (.buyAndTake t coin m k paid) :=
    ⟨t, coin, k, paid, L, rfl, hw, rfl⟩
  obtain ⟨c, -, hcr⟩ := h2.credited hw
  have hle := hi.coinValue_le h1 ((hi.sells_iff h1).1 hsell)
  have hfits : coinValue (w1.profits (m, L.seller)) + L.ask.toNat < 2 ^ 64 := hcr.fits
  rw [Fits]
  omega

variable [AddressSpace A] {ctx : TxContext A} {o : Objects A}

/-- The calls touch no object in common. -/
theorem disjoint (hi : Independent w s1 s2 call1 call2) (hl : Layout ctx w o)
    (h1 : Act H1 s1 u1 w call1 w1) (h2 : Act H2 s2 u2 w1 call2 w12) {w2 : World A} {u2' : A}
    (h2' : Act H2 s2 u2' w call2 w2) {id : A} (ht1 : Touches w s1 call1 id) :
    ¬ Touches w s2 call2 id := by
  rintro (hid | ho2)
  · exact hi.untouched h1 h2 hid ht1
  -- a free object, a listed item and a coin of proceeds are never the same
  rcases h2'.handsOut_cases ho2 with ⟨hk2, m, L, hw⟩ | ⟨p, c, hp, hc, rfl⟩
  · rcases ht1 with hid | ho1
    · obtain ⟨v, hv⟩ := h1.consumed hid
      exact hl.free_ne_item hv hw rfl
    · rcases h1.handsOut_cases ho1 with ⟨hk1, -⟩ | ⟨p, c, -, hc, hcid⟩
      · exact hi.items id hk1 hk2
      · exact hl.coin_ne_item (m := p.1) (s := p.2) hc hw hcid
  · rcases ht1 with hid | ho1
    · obtain ⟨v, hv⟩ := h1.consumed hid
      rw [hl.coin_ne_free (m := p.1) (s := p.2) hc] at hv
      cases hv
    · rcases h1.handsOut_cases ho1 with ⟨-, m, L, hw⟩ | ⟨p', c', hp', hc', hcid⟩
      · exact hl.coin_ne_item (m := p.1) (s := p.2) hc hw rfl
      · obtain ⟨m, s⟩ := p
        obtain ⟨m', s'⟩ := p'
        obtain ⟨rfl, rfl⟩ := hl.coin_unique hc hc' hcid.symm
        exact h1.not_withdraws_again h2 hp' hp

/-- The first call can be made after the second. -/
theorem second (hi : Independent w s1 s2 call1 call2) (hl : Layout ctx w o)
    (h1 : Act H1 s1 u1 w call1 w1) (h2 : Act H2 s2 u2 w1 call2 w12) {w2 : World A} {u2' : A}
    (h2' : Act H2 s2 u2' w call2 w2) (u1' : A) :
    ∃ w21, Act H1 s1 u1' w2 call1 w21 ∧ SameResults w s1 call1 w1 w2 w21 := by
  refine h1.transport h2'.markets
    (fun id hid => h2'.free_frame (hi.disjoint hl h1 h2 h2' (Or.inl hid)))
    (fun m k hk => h2'.slots_frame (hi.items k hk))
    (fun p hp => h2'.profits_frame (hi.takeSale p hp) (h1.not_withdraws_again h2 hp)) ?_ u1'
  rintro t coin m k paid L rfl hw
  have hsell : Sells w (m, L.seller) (.buyAndTake t coin m k paid) :=
    ⟨t, coin, k, paid, L, rfl, hw, rfl⟩
  obtain ⟨c, hc, hcr⟩ := h1.credited hw
  by_cases hs2 : Sells w (m, L.seller) call2
  · -- two sales by one seller: both amounts have been added in the first order
    obtain ⟨t2, coin2, k2, paid2, L2, rfl, hw2, hseller⟩ := hs2
    obtain ⟨c2, hc2, hcr2⟩ := h2'.credited hw2
    obtain ⟨c12, -, hcr12⟩ := h2.credited ((hi.slots_same h1 m k2 rfl).trans hw2)
    rw [hseller] at hc2 hcr2 hcr12
    rw [hc] at hcr12
    rw [hc2]
    exact Credited.fits_swap hcr hcr12 hcr2
  · rw [h2'.profits_frame hs2 (hi.saleTake _ hsell)]
    exact hcr.fits

omit [AddressSpace A] in
/-- Two sales by one seller, in either order. -/
theorem two_sales (hi : Independent w s1 s2 call1 call2) (h1 : Act H1 s1 u1 w call1 w1)
    (h2 : Act H2 s2 u2 w1 call2 w12) {w2 w21 : World A} {u1' u2' : A}
    (h2' : Act H2 s2 u2' w call2 w2) (h1' : Act H1 s1 u1' w2 call1 w21) {p : A × A}
    (hp1 : Sells w p call1) (hp2 : Sells w p call2) : w21.profits p = w12.profits p ∨
    ∃ t1 coin1 k1 paid1 t2 coin2 k2 paid2 x, call1 = .buyAndTake t1 coin1 p.1 k1 paid1 ∧
      call2 = .buyAndTake t2 coin2 p.1 k2 paid2 ∧ w12.profits p = some ⟨paid1, x⟩ ∧
      w21.profits p = some ⟨paid2, x⟩ := by
  obtain ⟨m, s⟩ := p
  obtain ⟨t1, coin1, k1, paid1, L1, rfl, hw1, rfl⟩ := hp1
  obtain ⟨t2, coin2, k2, paid2, L2, rfl, hw2, hseller⟩ := hp2
  obtain ⟨c1, hc1, hcr1⟩ := h1.credited hw1
  obtain ⟨c2, hc2, hcr2⟩ := h2'.credited hw2
  obtain ⟨c12, hc12, hcr12⟩ := h2.credited ((hi.slots_same h1 m k2 rfl).trans hw2)
  obtain ⟨c21, hc21, hcr21⟩ := h1'.credited ((h2'.slots_frame (hi.items k1 rfl)).trans hw1)
  simp only at hseller
  rw [hseller] at hc2 hcr2 hc12 hcr12
  rw [hc1] at hcr12
  rw [hc2] at hcr21
  rcases Credited.swap hcr1 hcr12 hcr2 hcr21 with h | ⟨x, h12, h21⟩
  · left
    rw [hc12, hc21, h]
  · right
    exact ⟨t1, coin1, k1, paid1, t2, coin2, k2, paid2, x, rfl, rfl, by rw [hc12, h12],
      by rw [hc21, h21]⟩

/-- **The diamond**: independent calls can be made in the other order, and lead to the
same. -/
theorem diamond (hi : Independent w s1 s2 call1 call2) (hl : Layout ctx w o)
    (h1 : Act H1 s1 u1 w call1 w1) (h2 : Act H2 s2 u2 w1 call2 w12) {w2 w21 : World A} {u1' u2' : A}
    (h2' : Act H2 s2 u2' w call2 w2) (hr2 : SameResults w1 s2 call2 w12 w w2)
    (h1' : Act H1 s1 u1' w2 call1 w21) (hr1 : SameResults w s1 call1 w1 w2 w21) :
    Agree call1 call2 w12 w21 := by
  have htouch2 {id : A} : Touches w1 s2 call2 id ↔ Touches w s2 call2 id :=
    touches_congr (hi.profits_same h1 h2)
  have hsame1 (p : A × A) (hp : Withdraws s1 p call1) : w2.profits p = w.profits p :=
    h2'.profits_frame (hi.takeSale p hp) (h1.not_withdraws_again h2 hp)
  have htouch1 {id : A} : Touches w2 s1 call1 id ↔ Touches w s1 call1 id := touches_congr hsame1
  have hsells1 {p : A × A} (hp : Sells w2 p call1) : Sells w p call1 := by
    obtain ⟨t, coin, k, paid, L, rfl, hw, hs⟩ := hp
    exact ⟨t, coin, k, paid, L, rfl, (h2'.slots_frame (hi.items k rfl)).symm.trans hw, hs⟩
  constructor
  · rw [h1'.markets, h2'.markets, h2.markets, h1.markets]
  · intro id
    by_cases ht1 : Touches w s1 call1 id
    · rw [hr1.free id ht1,
        h2.free_frame fun h => hi.disjoint hl h1 h2 h2' ht1 (htouch2.1 h)]
    · rw [h1'.free_frame fun h => ht1 (htouch1.1 h)]
      by_cases ht2 : Touches w s2 call2 id
      · exact hr2.free id (htouch2.2 ht2)
      · rw [h2'.free_frame ht2, h2.free_frame fun h => ht2 (htouch2.1 h), h1.free_frame ht1]
  · intro m k
    by_cases hk1 : call1.item = some k
    · rw [h2.slots_frame (hi.items k hk1)]
      obtain ⟨hterms, heq⟩ := hr1.slots m k hk1
      exact ⟨hterms, heq.imp_right Or.inl⟩
    · rw [h1'.slots_frame hk1]
      by_cases hk2 : call2.item = some k
      · obtain ⟨hterms, heq⟩ := hr2.slots m k hk2
        exact ⟨hterms, heq.imp_right Or.inr⟩
      · rw [h2'.slots_frame hk2, h2.slots_frame hk2, h1.slots_frame hk1]
        exact ⟨rfl, Or.inl rfl⟩
  · intro p
    by_cases hp2 : Sells w p call2 ∨ Withdraws s2 p call2
    · by_cases hp1 : Sells w p call1 ∨ Withdraws s1 p call1
      · rcases hp1 with hp1 | hp1
        · rcases hp2 with hp2 | hp2
          · exact hi.two_sales h1 h2 h2' h1' hp1 hp2
          · exact absurd hp2 (hi.saleTake p hp1)
        · rcases hp2 with hp2 | hp2
          · exact absurd hp2 (hi.takeSale p hp1)
          · exact absurd hp2 (h1.not_withdraws_again h2 hp1)
      · left
        have heq := h1.profits_frame (fun h => hp1 (Or.inl h)) fun h => hp1 (Or.inr h)
        rw [h1'.profits_frame (fun h => hp1 (Or.inl (hsells1 h))) fun h => hp1 (Or.inr h)]
        exact hr2.profits p (hp2.imp_left (hi.sells_iff h1).2) heq.symm
    · left
      have heq := h2'.profits_frame (fun h => hp2 (Or.inl h)) fun h => hp2 (Or.inr h)
      rw [h2.profits_frame (fun h => hp2 (Or.inl ((hi.sells_iff h1).1 h))) fun h => hp2 (Or.inr h)]
      by_cases hp1 : Sells w p call1 ∨ Withdraws s1 p call1
      · exact hr1.profits p hp1 heq
      · rw [h1'.profits_frame (fun h => hp1 (Or.inl (hsells1 h))) fun h => hp1 (Or.inr h), heq,
          h1.profits_frame (fun h => hp1 (Or.inl h)) fun h => hp1 (Or.inr h)]

end Independent

variable [AddressSpace A]

/-! ## On the chain -/

/-- One call of `s`: as a transaction of its own, or inside the running transaction
of `s`. -/
inductive Performs (c : Chain A) (s : A) (call : Call A) (out : Option (Obj A)) (c' : Chain A) : Prop
  | transaction (hr : c.running = false)
      (he : execTx c (callTx s call) = .ok (c', [⟨s, call, out⟩]))
  | running (hr : c.running = true) (hs : c.ctx.sender = s) (he : exec c call = .ok (c', out))

omit [DecidableEq A] [AddressSpace A] in
/-- Where a call of `s` takes its objects from: from `s`, or from what the running
transaction holds. -/
def Source (c : Chain A) (s : A) (h : Holder A) : Prop :=
  if c.running then ∃ b, h = .transaction b else h = .address s

omit [DecidableEq A] in
/-- The identifier a new listing of `s` gets. -/
def nextId (c : Chain A) (s : A) : A :=
  if c.running then (objectNew c.ctx).1 else (objectNew ⟨s, c.ctx.txHash + 1, 0⟩).1

namespace Performs

variable {h : List (Entry A)} {c c' : Chain A} {s : A} {call : Call A} {out : Option (Obj A)}

theorem history (hc : History h c) (hp : Performs c s call out c') :
    History (h ++ [⟨s, call, out⟩]) c' ∧ c'.running = c.running ∧
      (c.running = true → c'.ctx.sender = s) := by
  cases hp with
  | transaction hr he =>
    obtain ⟨hc', hr'⟩ := hc.afterTx hr he
    exact ⟨hc', hr'.trans hr.symm, fun h => by rw [hr] at h; cases h⟩
  | running hr hs he =>
    obtain ⟨_, -, hin⟩ := (hc.exec_sim call).exists_of_ok he
    exact ⟨hs ▸ hc.call hr he, hin.running, fun _ => (hc.effect he).sender.trans hs⟩

theorem act (hc : History h c) (hcl : call.closed = true) (hp : Performs c s call out c') :
    Act (Source c s) s (nextId c s) (worldOf c.objects) call (worldOf c'.objects) := by
  cases hp with
  | transaction hr he =>
    have hs := hc.single_of_execTx hr hcl he
    have hsrc : Source c s (.address s) := by simp [Source, hr]
    have hid : nextId c s = (objectNew ⟨s, c.ctx.txHash + 1, 0⟩).1 := by simp [nextId, hr]
    generalize worldOf c'.objects = w' at hs
    cases hs with
    | list hm hf ht =>
      rw [← hid]
      exact .list hm hsrc hf ht
    | delistAndTake hm hw hs ht => exact .delistAndTake hm hw hs ht
    | buyAndTake hm hf hw ht hcr => exact .buyAndTake hm hsrc hf hw ht hcr
    | takeProfitsAndKeep hm hp => exact .takeProfitsAndKeep hm hp
  | running hr hs he =>
    have heff := hc.effect he
    have hsrc (b : Bool) : Source c s (.transaction b) := by simp [Source, hr]
    have hid : nextId c s = (objectNew c.ctx).1 := by simp [nextId, hr]
    subst hs
    cases call with
    | list t coin m k ask =>
      obtain ⟨b, i, hm, hf, ht, -, hw'⟩ := heff.list_inv rfl
      rw [hw', ← hid]
      exact .list hm (hsrc b) hf ht
    | delistAndTake t coin m k =>
      obtain ⟨L, hm, hw, hs, ht, -, hw'⟩ := heff.delist_inv rfl
      rw [hw']
      exact .delistAndTake hm hw hs ht
    | buyAndTake t coin m k paid =>
      obtain ⟨L, b, p, hm, hf, hw, ht, hcr, -, hw'⟩ := heff.buy_inv rfl
      rw [hw']
      exact .buyAndTake hm (hsrc b) hf hw ht hcr
    | takeProfitsAndKeep coin m =>
      obtain ⟨p, hm, hp, -, hw'⟩ := heff.takeProfits_inv rfl
      rw [hw']
      exact .takeProfitsAndKeep hm hp
    | _ => cases hcl

theorem of_act (hc : History h c) (hs : c.running = true → c.ctx.sender = s) {w' : World A}
    (ha : Act (Source c s) s (nextId c s) (worldOf c.objects) call w') :
    ∃ out c', Performs c s call out c' ∧ worldOf c'.objects = w' := by
  cases hr : c.running with
  | false =>
    have hsrc {x : Holder A} (hx : Source c s x) : x = .address s := by simpa [Source, hr] using hx
    have hid : nextId c s = (objectNew ⟨s, c.ctx.txHash + 1, 0⟩).1 := by simp [nextId, hr]
    have hsingle : Single (worldOf c.objects) ⟨s, c.ctx.txHash + 1, 0⟩ call w' := by
      cases ha with
      | list hm hh hf ht =>
        rw [hid]
        exact .list hm (hsrc hh ▸ hf) ht
      | delistAndTake hm hw hs ht => exact .delistAndTake hm hw hs ht
      | buyAndTake hm hh hf hw ht hcr => exact .buyAndTake hm (hsrc hh ▸ hf) hw ht hcr
      | takeProfitsAndKeep hm hp => exact .takeProfitsAndKeep hm hp
    obtain ⟨c', es, he, hw⟩ := hc.execTx_of_single hr hsingle
    obtain ⟨_, _, out, -, -, -, -, -, -, rfl, -, -, -⟩ := hc.single_phases hr he
    exact ⟨out, c', .transaction hr he, hw⟩
  | true =>
    have hs := hs hr
    subst hs
    have hsrc {x : Holder A} (hx : Source c c.ctx.sender x) : ∃ b, x = .transaction b := by
      simpa [Source, hr] using hx
    have hid : nextId c c.ctx.sender = (objectNew c.ctx).1 := by simp [nextId, hr]
    have hexec : ∃ ctx' out, (worldOf c.objects).exec c.ctx call = .ok (w', ctx', out) := by
      cases ha with
      | list hm hh hf ht =>
        obtain ⟨b, rfl⟩ := hsrc hh
        subst ht
        rw [hid]
        exact ⟨_, _, World.exec_list rfl hm hf⟩
      | delistAndTake hm hw hs ht => exact ⟨_, _, World.exec_delist_ok rfl hm hw hs.symm ht⟩
      | buyAndTake hm hh hf hw ht hcr =>
        obtain ⟨b, rfl⟩ := hsrc hh
        exact ⟨_, _, World.exec_buy_ok rfl hm hf hw ht hcr⟩
      | takeProfitsAndKeep hm hp => exact ⟨_, _, World.exec_takeProfits_ok rfl hm hp⟩
    obtain ⟨ctx', out, hexec⟩ := hexec
    obtain ⟨⟨c', out'⟩, he, hin⟩ := (hc.exec_sim call).exists_of_ok' hexec
    exact ⟨out', c', .running hr rfl he, hin.layout.worldOf_eq⟩

/-- What a call hands out is the object it returns or sends. -/
theorem handsOut (hc : History h c) (hp : Performs c s call out c') {id : A}
    (ho : HandsOut (worldOf c.objects) s call id) : ∃ obj, out = some obj ∧ obj.id = id := by
  obtain ⟨h1, c1, c2, hc1, he, hs, hprofits⟩ : ∃ h1 c1 c2, History h1 c1 ∧
      exec c1 call = .ok (c2, out) ∧ c1.ctx.sender = s ∧
      (worldOf c1.objects).profits = (worldOf c.objects).profits := by
    cases hp with
    | transaction hr he =>
      obtain ⟨c1, c2, out', hstart, hc1, -, hctx, he', -, hes, -⟩ := hc.single_phases hr he
      cases hes
      exact ⟨h, c1, c2, hc1, he', by rw [hctx],
        ((Step.start hr hstart).worldStep hc.layout).1.profits⟩
    | running hr hs he => exact ⟨h, c, c', hc, he, hs, rfl⟩
  rcases ho with ⟨t, coin, m, rfl⟩ | ⟨t, coin, m, paid, rfl⟩ | ⟨coin, m, p, rfl, hcoin, rfl⟩
  · obtain ⟨L, -, -, -, -, rfl, -⟩ := (hc1.effect he).delist_inv rfl
    exact ⟨_, rfl, rfl⟩
  · obtain ⟨L, b, p, -, -, -, -, -, rfl, -⟩ := (hc1.effect he).buy_inv rfl
    exact ⟨_, rfl, rfl⟩
  · obtain ⟨p', -, hp', rfl, -⟩ := (hc1.effect he).takeProfits_inv rfl
    rw [hs, hprofits] at hp'
    cases hcoin.symm.trans hp'
    exact ⟨_, rfl, rfl⟩

end Performs

/-- What a stored object adds to the money of `u` in the currency `coin`. -/
def purseWeight (u : A) (coin : TypeTag) (x : Stored A) : ℕ :=
  if x.owner = .addressOwner u then weight (coinWeight coin) x else 0

/-- The total value of the coins of `u` in the currency `coin`. -/
def purse (u : A) (coin : TypeTag) (o : Objects A) : ℕ :=
  Finmap.total (purseWeight u coin) o

omit [AddressSpace A] in
/-- The same, read off the hands the object is in. -/
def handWeight (u : A) (coin : TypeTag) : Option (Holder A × Item A) → ℕ
  | some (.address a, i) => if a = u then coinWeight coin i else 0
  | _ => 0

omit [AddressSpace A] in
theorem weightAt_purse (u : A) (coin : TypeTag) (o : Objects A) (id : A) :
    Finmap.weightAt (purseWeight u coin) o id = handWeight u coin (freeAt o id) := by
  unfold Finmap.weightAt freeAt
  cases o.lookup id with
  | none => rfl
  | some x =>
    obtain ⟨owner, d⟩ := x
    cases owner <;> cases d <;> simp [purseWeight, weight, handWeight]

omit [AddressSpace A] in
/-- The money of a user depends on who holds what only. -/
theorem purse_congr (u : A) (coin : TypeTag) {o o' : Objects A} (h : freeAt o' = freeAt o) :
    purse u coin o' = purse u coin o := by
  refine Finmap.total_congr fun id => ?_
  rw [weightAt_purse, weightAt_purse, h]

/-- The outcomes of two orders of `call1` and `call2`: they agree on every listing,
on who holds what, on the value of everybody's proceeds and on everybody's money,
and differ at most in the identifiers of new listings and in which of two paid
coins became the seller's. -/
structure SameOutcome (call1 call2 : Call A) (c c' : Chain A) : Prop where
  market : ∀ m, marketAt c'.objects m = marketAt c.objects m
  listing : ∀ m k, (listingAt c'.objects m k).map Slot.terms =
    (listingAt c.objects m k).map Slot.terms
  holder : ∀ id, freeAt c'.objects id = freeAt c.objects id
  proceeds : ∀ m s, coinValue (profitsAt c'.objects m s) = coinValue (profitsAt c.objects m s)
  money : ∀ u coin, purse u coin c'.objects = purse u coin c.objects
  fresh : ∀ m k, listingAt c'.objects m k = listingAt c.objects m k ∨
    call1.lists m k ∨ call2.lists m k
  survivor : ∀ m s, profitsAt c'.objects m s = profitsAt c.objects m s ∨
    ∃ t1 coin1 k1 paid1 t2 coin2 k2 paid2 x, call1 = .buyAndTake t1 coin1 m k1 paid1 ∧
      call2 = .buyAndTake t2 coin2 m k2 paid2 ∧ profitsAt c.objects m s = some ⟨paid1, x⟩ ∧
      profitsAt c'.objects m s = some ⟨paid2, x⟩

theorem Agree.sameOutcome {call1 call2 : Call A} {c c' : Chain A}
    (h : Agree call1 call2 (worldOf c.objects) (worldOf c'.objects)) :
    SameOutcome call1 call2 c c' where
  market m := congrFun h.markets m
  listing m k := (h.slots m k).1
  holder := h.free
  proceeds m s := by
    rcases h.profits (m, s) with heq | ⟨_, _, _, _, _, _, _, _, _, -, -, hx, hx'⟩
    · exact congrArg coinValue heq
    · exact (congrArg coinValue hx').trans (congrArg coinValue hx).symm
  money u coin := purse_congr u coin (funext h.free)
  fresh m k := (h.slots m k).2
  survivor m s := h.profits (m, s)

/-- **Independent calls commute.**  Two of the calls `list`, `delist_and_take`,
`buy_and_take` and `take_profits_and_keep`, by whomever, as transactions of their
own or inside a running one, that concern different items, where the second does
not use what the first hands out, and that are not a purchase from a seller and
this seller's withdrawal from the same marketplace: if they succeed in one order
then they succeed in the other, with the same outcome. -/
theorem independentCommute {h : List (Entry A)} {c c1 c12 : Chain A} (hc : History h c) {s1 s2 : A}
    {call1 call2 : Call A} (hcl1 : call1.closed = true) (hcl2 : call2.closed = true)
    {out1 out2 : Option (Obj A)} (h1 : Performs c s1 call1 out1 c1)
    (h2 : Performs c1 s2 call2 out2 c12)
    (hitems : ∀ k, call1.item = some k → call2.item ≠ some k)
    (hunused : ∀ obj, out1 = some obj → obj.id ∉ call2.consumes)
    (hsaleTake : ∀ p, Sells (worldOf c.objects) p call1 → ¬ Withdraws s2 p call2)
    (htakeSale : ∀ p, Withdraws s1 p call1 → ¬ Sells (worldOf c.objects) p call2) :
    ∃ c2 c21 out1' out2', Performs c s2 call2 out2' c2 ∧ Performs c2 s1 call1 out1' c21 ∧
      SameOutcome call1 call2 c12 c21 := by
  obtain ⟨hc1, hr1, hsender1⟩ := h1.history hc
  have ha1 := h1.act hc hcl1
  have ha2 := h2.act hc1 hcl2
  have hi : Independent (worldOf c.objects) s1 s2 call1 call2 := by
    refine ⟨hitems, ?_, hsaleTake, htakeSale⟩
    intro id ho
    obtain ⟨obj, hobj, rfl⟩ := h1.handsOut hc ho
    exact hunused obj hobj
  have hsource (s : A) : Source c1 s = Source c s := by
    funext x
    rw [Source, Source, hr1]
  -- in a running transaction both calls are those of its sender
  have hsender2 (hr : c.running = true) : s1 = c.ctx.sender ∧ s2 = c.ctx.sender := by
    cases h1 with
    | transaction hr' => rw [hr] at hr'; cases hr'
    | running _ hs =>
      cases h2 with
      | transaction hr' => rw [hr1, hr] at hr'; cases hr'
      | running _ hs2 => exact ⟨hs.symm, hs2.symm.trans ((hsender1 hr).trans hs.symm)⟩
  rw [hsource] at ha2
  obtain ⟨w2, ha2', hres2⟩ := hi.first ha1 ha2 (nextId c s2)
  obtain ⟨out2', c2, hp2, rfl⟩ := Performs.of_act hc (fun hr => (hsender2 hr).2.symm) ha2'
  obtain ⟨hc2, hr2, hsender⟩ := hp2.history hc
  obtain ⟨w21, ha1', hres1⟩ := hi.second hc.layout ha1 ha2 ha2' (nextId c2 s1)
  have hsource2 : Source c2 s1 = Source c s1 := by
    funext x
    rw [Source, Source, hr2]
  obtain ⟨out1', c21, hp1, rfl⟩ := Performs.of_act hc2
    (fun hr => (hsender (hr2 ▸ hr)).trans
      ((hsender2 (hr2 ▸ hr)).2.trans (hsender2 (hr2 ▸ hr)).1.symm)) (hsource2 ▸ ha1')
  exact ⟨c2, c21, out1', out2', hp2, hp1,
    (hi.diamond hc.layout ha1 ha2 ha2' hres2 ha1' hres1).sameOutcome⟩

/-- User 1 has listed two objects, for 5 and for 7, and user 2 has coins of these
values. -/
def twoListings : List (Tx Addr) :=
  [⟨.user 1, [], [.create .sui]⟩,
   ⟨.user 1, [], [.otherNew 0 [7], .otherNew 0 [8], .publicTransfer (.derived 2 0) (.user 1),
     .publicTransfer (.derived 2 1) (.user 1)]⟩,
   ⟨.user 2, [], [.createCurrency .sui, .coinMint .sui (.derived 3 0) 5,
     .coinMint .sui (.derived 3 0) 7, .publicTransfer (.derived 3 0) (.user 2),
     .publicTransfer (.derived 3 1) (.user 2), .publicTransfer (.derived 3 2) (.user 2)]⟩,
   ⟨.user 1, [.derived 2 0, .derived 2 1],
     [.list (.other 0) .sui (.derived 1 0) (.derived 2 0) 5,
      .list (.other 0) .sui (.derived 1 0) (.derived 2 1) 7]⟩]

/-- User 2 buys both; in the other order the other coin becomes the seller's. -/
theorem independentCommute_twoListings :
    ∃ c1 c12 c2 c21 : Chain Addr, ∃ out1 out2 out1' out2',
      Performs (run genesis twoListings).1 (.user 2)
        (.buyAndTake (.other 0) .sui (.derived 1 0) (.derived 2 0) (.derived 3 1)) out1 c1 ∧
      Performs c1 (.user 2)
        (.buyAndTake (.other 0) .sui (.derived 1 0) (.derived 2 1) (.derived 3 2)) out2 c12 ∧
      Performs (run genesis twoListings).1 (.user 2)
        (.buyAndTake (.other 0) .sui (.derived 1 0) (.derived 2 1) (.derived 3 2)) out2' c2 ∧
      Performs c2 (.user 2)
        (.buyAndTake (.other 0) .sui (.derived 1 0) (.derived 2 0) (.derived 3 1)) out1' c21 ∧
      profitsAt c12.objects (.derived 1 0) (.user 1) = some ⟨.derived 3 1, 12⟩ ∧
      coinValue (profitsAt c21.objects (.derived 1 0) (.user 1)) = 12 := by
  obtain ⟨hc, hr⟩ := run_history twoListings
  let tx1 : Tx Addr := callTx (.user 2)
    (.buyAndTake (.other 0) .sui (.derived 1 0) (.derived 2 0) (.derived 3 1))
  let tx2 : Tx Addr := callTx (.user 2)
    (.buyAndTake (.other 0) .sui (.derived 1 0) (.derived 2 1) (.derived 3 2))
  have h1 : Performs (run genesis twoListings).1 (.user 2) _
      (some ⟨.derived 2 0, .item (.other 0 [7])⟩) (stepTx (run genesis twoListings).1 tx1).1 :=
    .transaction hr (execTx_eq_stepTx (by decide +kernel) (by decide +kernel))
  have h2 : Performs (stepTx (run genesis twoListings).1 tx1).1 (.user 2) _
      (some ⟨.derived 2 1, .item (.other 0 [8])⟩)
      (stepTx (stepTx (run genesis twoListings).1 tx1).1 tx2).1 :=
    .transaction (by decide +kernel) (execTx_eq_stepTx (by decide +kernel) (by decide +kernel))
  obtain ⟨c2, c21, out1', out2', h3, h4, hsame⟩ := independentCommute hc rfl rfl h1 h2
    (by decide) (by decide) (by rintro p - ⟨_, hp, -⟩; cases hp)
    (by rintro p ⟨_, hp, -⟩; cases hp)
  have hprofits : profitsAt (stepTx (stepTx (run genesis twoListings).1 tx1).1 tx2).1.objects
      (.derived 1 0) (.user 1) = some ⟨.derived 3 1, 12⟩ := by decide +kernel
  refine ⟨_, _, c2, c21, _, _, out1', out2', h1, h2, h3, h4, hprofits, ?_⟩
  rw [hsame.proceeds, hprofits]
  rfl

end BookMarket
