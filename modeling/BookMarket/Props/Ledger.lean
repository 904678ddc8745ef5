import BookMarket.Chain.Money
import BookMarket.Chain.Abstraction

/-!
# The proceeds ledger

There is no ledger in the contract: what a seller is owed is a coin hanging off
the marketplace.  Whoever keeps a book of the calls can still say what it is
worth at any moment, because the coin moves only in a sale of the seller's own
listings and in the seller's own withdrawals, and because no marketplace call
makes or destroys money.

* `proceedsLedger` — **the value of the coin plus what was withdrawn is the sum
  of the asks that were paid.**
-/

namespace BookMarket

open AbstractMarket

variable {A : Type} [DecidableEq A] [AddressSpace A]

/-- **The proceeds ledger.**  In every reachable state, for every marketplace `m`
and every seller `s`: the value of the coin stored under `s` plus what `s` has
taken out is the sum of the asks of the listings of `s` that were bought; the
next event can change that coin only by being a purchase of a listing of `s` or
a withdrawal of `s`; and no marketplace call changes the sum of the coins of any
currency. -/
theorem proceedsLedger {h : List (Entry A)} {c : Chain A} (hc : History h c) (m s : A) :
    coinValue (profitsAt c.objects m s) + (book (deeds m h)).taken s =
      (book (deeds m h)).sold s ∧
    (∀ {e c'}, Step c e c' → profitsAt c'.objects m s ≠ profitsAt c.objects m s →
      ∃ entry, e = .call entry ∧
        ((∃ t coin k paid L, entry.call.op = some (.buy t coin m k paid) ∧
            listingAt c.objects m k = some L ∧ L.seller = s) ∨
          ∃ coin, entry.call.op = some (.takeProfits coin m) ∧ entry.sender = s)) ∧
    ∀ {call out c'} (coin : TypeTag), exec c call = .ok (c', out) → call.op ≠ none →
      coinTotal coin c'.objects = coinTotal coin c.objects := by
  refine ⟨(hc.balanced m).2.1 s, ?_, ?_⟩
  · intro e c' hs hne
    exact hc.profits_of_ne hs hne
  · intro call out c' coin he hop
    exact hc.held_eq (monetary_coinWeight coin) he hop

/-- After one sale for 5 the seller is owed 5. -/
theorem proceedsLedger_oneSale :
    History (run genesis oneSale).2 (run genesis oneSale).1 ∧
    coinValue (profitsAt (run genesis oneSale).1.objects (.derived 1 0) (.user 1)) +
      (book (deeds (.derived 1 0) (run genesis oneSale).2)).taken (.user 1) =
        (book (deeds (.derived 1 0) (run genesis oneSale).2)).sold (.user 1) ∧
    (book (deeds (.derived 1 0) (run (genesis : Chain Addr) oneSale).2)).sold (.user 1) = 5 :=
  ⟨(run_history oneSale).1, (proceedsLedger (run_history oneSale).1 _ _).1, by decide +kernel⟩

end BookMarket
