import BookMarket.Chain.Single
import BookMarket.Chain.Abstraction

/-!
# Exact success conditions

When a marketplace call succeeds in a reachable state, as an equivalence, and
which error it gives when it does not.  Nothing else can go wrong: the branch of
`buy` that looks for the seller's coin, borrows it and joins the payment to it
finds what it expects, whatever the keys and the types are, and the join does
not overflow while the coins of the currency fit into a `u64` together.

* `History.delist_iff`, `History.buy_iff`, `History.takeProfits_iff` — the three
  equivalences, each with the order of the checks.
* `exactSuccess` — **nothing gets stuck.**
-/

namespace BookMarket

open AbstractMarket Simulation

variable {A : Type} [DecidableEq A] [AddressSpace A]

/-- A call succeeds. -/
def Succeeds (c : Chain A) (call : Call A) : Prop :=
  ∃ c' out, exec c call = .ok (c', out)

namespace History

variable {h : List (Entry A)} {c : Chain A} {call : Call A} {t coin : TypeTag} {m k paid : A}

theorem succeeds_iff (hc : History h c) :
    Succeeds c call ↔ ∃ r, (worldOf c.objects).exec c.ctx call = .ok r := by
  constructor
  · rintro ⟨c', out, he⟩
    exact ⟨_, hc.exec_ok he⟩
  · rintro ⟨r, hr⟩
    obtain ⟨⟨c', out⟩, he, -⟩ := (hc.exec_sim call).exists_of_ok' hr
    exact ⟨c', out, he⟩

theorem error_iff (hc : History h c) {e : Abort} :
    BookMarket.exec c call = .error e ↔ (worldOf c.objects).exec c.ctx call = .error e :=
  (hc.exec_sim call).eq_error_iff

/-- `delist` makes its checks in order, and no other. -/
theorem delist_iff (hc : History h c) (hop : call.op = some (.delist t coin m k))
    (hm : marketAt c.objects m = some coin) :
    (Succeeds c call ↔
      ∃ L, listingAt c.objects m k = some L ∧ L.seller = c.ctx.sender ∧ L.item.type = t) ∧
    (t.hasKeyStore = true → ∀ e, BookMarket.exec c call = .error e ↔
      firstViolated (ownerCheck c.ctx.sender) t (listingAt c.objects m k) = some e) := by
  have hmarket : (worldOf c.objects).markets m = some coin := hm
  refine ⟨⟨?_, ?_⟩, ?_⟩
  · rintro ⟨c', out, he⟩
    obtain ⟨L, -, hL, hs, ht, -, -⟩ := (hc.effect he).delist_inv hop
    exact ⟨L, hL, hs.symm, ht⟩
  · rintro ⟨L, hL, hs, ht⟩
    exact hc.succeeds_iff.2 ⟨_, World.exec_delist_ok hop hm hL hs ht⟩
  · intro ht e
    rw [hc.error_iff, World.exec_delist hop hmarket ht, ← listingAt_worldOf]
    cases listingAt c.objects m k with
    | none => simp [firstViolated]
    | some L =>
      cases hv : firstViolated (ownerCheck c.ctx.sender) t (some L) with
      | none => simp [hv]
      | some e' => simp [hv]

/-- `buy` makes its checks in order, and no other. -/
theorem buy_iff (hc : History h c) (hop : call.op = some (.buy t coin m k paid))
    (hm : marketAt c.objects m = some coin) (hfit : coinTotal coin c.objects < 2 ^ 64) {b : Bool}
    {v : UInt64} (hf : freeAt c.objects paid = some (.transaction b, .coin coin v)) :
    (Succeeds c call ↔ ∃ L, listingAt c.objects m k = some L ∧ L.ask = v ∧ L.item.type = t) ∧
    (t.hasKeyStore = true → ∀ e, BookMarket.exec c call = .error e ↔
      firstViolated (amountCheck v) t (listingAt c.objects m k) = some e) := by
  have hfits (s : A) : Fits v (profitsAt c.objects m s) := hc.layout.fits_of_total hm hf hfit
  refine ⟨⟨?_, ?_⟩, ?_⟩
  · rintro ⟨c', out, he⟩
    obtain ⟨L, b', p, -, hf', hL, ht, -, -, -⟩ := (hc.effect he).buy_inv hop
    cases hf.symm.trans hf'
    exact ⟨L, hL, rfl, ht⟩
  · rintro ⟨L, hL, rfl, ht⟩
    obtain ⟨p, hcr, -⟩ := World.credit_of_fits (w := worldOf c.objects) (p := ⟨paid, L.ask⟩)
      (hfits L.seller)
    exact hc.succeeds_iff.2 ⟨_, World.exec_buy_ok hop hm hf hL ht hcr⟩
  · intro ht e
    rw [hc.error_iff]
    have hw := @World.exec_buy_fits A _ _ (worldOf c.objects) c.ctx call t coin m k paid v b hop hm
      ht hf fun {L} _ _ => hfits L.seller
    rcases hw with ⟨e', hv, he'⟩ | ⟨L, p, hL, ha, hty, -, hok⟩
    · rw [he', show firstViolated (amountCheck v) t (listingAt c.objects m k) = some e' from hv]
      simp
    · have hL' : listingAt c.objects m k = some L := hL
      rw [hok, firstViolated_amount_eq_none.2 ⟨L, hL', ha, hty⟩]
      simp

/-- `take_profits` succeeds when something was sold since the last time. -/
theorem takeProfits_iff (hc : History h c) (hop : call.op = some (.takeProfits coin m))
    (hm : marketAt c.objects m = some coin) :
    (Succeeds c call ↔ (book (deeds m h)).due c.ctx.sender = true) ∧
    ∀ e, BookMarket.exec c call = .error e →
      e = .eFieldDoesNotExist ∧ (book (deeds m h)).due c.ctx.sender = false := by
  have hw : (worldOf c.objects).exec c.ctx call = _ := World.exec_takeProfits hop hm
  have hprofits : (worldOf c.objects).profits (m, c.ctx.sender) =
    profitsAt c.objects m c.ctx.sender := rfl
  rw [hprofits] at hw
  have hdue := (hc.balanced m).2.2 c.ctx.sender
  rw [hdue]
  cases hp : profitsAt c.objects m c.ctx.sender with
  | none =>
    rw [hp] at hw
    refine ⟨⟨?_, by simp⟩, ?_⟩
    · intro hs
      obtain ⟨r, hr⟩ := hc.succeeds_iff.1 hs
      rw [hw] at hr
      cases hr
    · intro e he
      rw [hc.error_iff, hw] at he
      cases he
      exact ⟨rfl, rfl⟩
  | some p =>
    rw [hp] at hw
    refine ⟨⟨fun _ => rfl, fun _ => hc.succeeds_iff.2 ⟨_, hw⟩⟩, ?_⟩
    intro e he
    rw [hc.error_iff, hw] at he
    cases he

end History

/-- **Exact success conditions.**  In every reachable state in which the coins of
the currency of the marketplace `m` fit into a `u64` together: an item somebody
holds can always be listed, in the running transaction or in one of its own;
`delist`, `buy` and `take_profits` and their wrappers succeed exactly when the
listing is there, belongs to the sender or costs what is paid, and is of the
type asked for, respectively when a listing of the sender was bought since the
sender's last withdrawal; and when they fail, it is with the first check of that
order that does not hold. -/
theorem exactSuccess {h : List (Entry A)} {c : Chain A} (hc : History h c) {m : A} {coin : TypeTag}
    (hm : marketAt c.objects m = some coin) (hfit : coinTotal coin c.objects < 2 ^ 64) :
    (∀ {k b i} (ask : UInt64), freeAt c.objects k = some (.transaction b, i) →
      Succeeds c (.list i.type coin m k ask)) ∧
    (∀ {s k i} (ask : UInt64), c.running = false → freeAt c.objects k = some (.address s, i) →
      ∃ c' es, execTx c (callTx s (.list i.type coin m k ask)) = .ok (c', es)) ∧
    (∀ {call t k}, call.op = some (.delist t coin m k) →
      (Succeeds c call ↔
        ∃ L, listingAt c.objects m k = some L ∧ L.seller = c.ctx.sender ∧ L.item.type = t) ∧
      (t.hasKeyStore = true → ∀ e, exec c call = .error e ↔
        firstViolated (ownerCheck c.ctx.sender) t (listingAt c.objects m k) = some e)) ∧
    (∀ {call t k paid b v}, call.op = some (.buy t coin m k paid) →
      freeAt c.objects paid = some (.transaction b, .coin coin v) →
      (Succeeds c call ↔ ∃ L, listingAt c.objects m k = some L ∧ L.ask = v ∧ L.item.type = t) ∧
      (t.hasKeyStore = true → ∀ e, exec c call = .error e ↔
        firstViolated (amountCheck v) t (listingAt c.objects m k) = some e)) ∧
    ∀ {call}, call.op = some (.takeProfits coin m) →
      (Succeeds c call ↔ (book (deeds m h)).due c.ctx.sender = true) ∧
      ∀ e, exec c call = .error e →
        e = .eFieldDoesNotExist ∧ (book (deeds m h)).due c.ctx.sender = false := by
  refine ⟨?_, ?_, fun hop => hc.delist_iff hop hm, fun hop hf => hc.buy_iff hop hm hfit hf,
    fun hop => hc.takeProfits_iff hop hm⟩
  · intro k b i ask hf
    exact hc.succeeds_iff.2 ⟨_, World.exec_list rfl hm hf⟩
  · intro s k i ask hr hf
    have hs : Single (worldOf c.objects) ⟨s, c.ctx.txHash + 1, 0⟩ (.list i.type coin m k ask) _ :=
      .list hm hf rfl
    obtain ⟨c', es, he, -⟩ := hc.execTx_of_single hr hs
    exact ⟨c', es, he⟩

/-- After the sale of `oneSale` the seller has proceeds to take, and the buyer,
who is the sender of the last transaction, has none. -/
theorem exactSuccess_oneSale :
    History (run genesis oneSale).2 (run genesis oneSale).1 ∧
    marketAt (run (genesis : Chain Addr) oneSale).1.objects (.derived 1 0) = some .sui ∧
    coinTotal .sui (run (genesis : Chain Addr) oneSale).1.objects < 2 ^ 64 ∧
    ¬ Succeeds (run (genesis : Chain Addr) oneSale).1 (.takeProfits .sui (.derived 1 0)) := by
  have hc := (run_history oneSale).1
  have hm : marketAt (run (genesis : Chain Addr) oneSale).1.objects (.derived 1 0) = some .sui := by
    decide +kernel
  have hfit : coinTotal .sui (run (genesis : Chain Addr) oneSale).1.objects < 2 ^ 64 := by
    decide +kernel
  refine ⟨hc, hm, hfit, ?_⟩
  rw [((exactSuccess hc hm hfit).2.2.2.2 rfl).1]
  decide +kernel

end BookMarket
