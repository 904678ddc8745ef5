import BookMarket.Lib.FinmapTotal
import BookMarket.Lib.Runs

/-!
# The abstract marketplace

What a marketplace is for, in its own terms: a finite map of listings and a
finite map of proceeds, over arbitrary types of item identifiers `K`, people `S`
and items `I`.  Listing inserts, delisting and buying delete, buying adds the
ask to what the seller is owed, and taking profits empties one account.

A run of the machine can also be read off its `Deed`s alone.  `Book` is the
account somebody outside keeps who only sees what was done, by whom and with
which result: the open listings, what every seller has sold for, and what
everybody has taken out.

* `step` — the machine, one action at a time.
* `book_listings` — the book knows what is listed.
* `ledger` — **what a seller is owed plus what the seller has taken out is what
  the seller's listings were sold for.**
* `book_due` — an account is there exactly when something was sold since the
  last withdrawal.
* `Bazaar` — many marketplaces, each with its currency.
-/

namespace AbstractMarket

open Runs Function

/-- A listed item, its price and its seller. -/
structure Listing (S I : Type) where
  item : I
  ask : ℕ
  seller : S
  deriving DecidableEq

/-- One marketplace. -/
structure Market (K S I : Type) where
  listings : Finmap fun _ : K => Listing S I
  proceeds : Finmap fun _ : S => ℕ

/-- What can be done to a marketplace. -/
inductive Action (K I : Type)
  | list (k : K) (item : I) (ask : ℕ)
  | delist (k : K)
  | buy (k : K)
  | takeProfits
  deriving DecidableEq

/-- What an action hands out. -/
inductive Result (K I : Type)
  | nothing
  | item (k : K) (i : I)
  | money (value : ℕ)
  deriving DecidableEq

/-- Something that was done. -/
structure Deed (K S I : Type) where
  sender : S
  action : Action K I
  result : Result K I

variable {K S I : Type} [DecidableEq K] [DecidableEq S]

namespace Market

def empty : Market K S I := ⟨∅, ∅⟩

/-- What the seller `s` is owed. -/
def owed (mk : Market K S I) (s : S) : ℕ :=
  (mk.proceeds.lookup s).getD 0

/-- One action by `sender`. -/
def step (mk : Market K S I) (sender : S) :
    Action K I → Option (Market K S I × Result K I)
  | .list k item ask =>
    match mk.listings.lookup k with
    | some _ => none
    | none => some ({ mk with listings := mk.listings.insert k ⟨item, ask, sender⟩ }, .nothing)
  | .delist k =>
    match mk.listings.lookup k with
    | some L =>
      if L.seller = sender then
        some ({ mk with listings := mk.listings.erase k }, .item k L.item)
      else none
    | none => none
  | .buy k =>
    match mk.listings.lookup k with
    | some L =>
      some (⟨mk.listings.erase k, mk.proceeds.insert L.seller (mk.owed L.seller + L.ask)⟩,
        .item k L.item)
    | none => none
  | .takeProfits =>
    match mk.proceeds.lookup sender with
    | some v => some ({ mk with proceeds := mk.proceeds.erase sender }, .money v)
    | none => none

end Market

/-- One deed, as a step relation. -/
def Does (mk : Market K S I) (d : Deed K S I) (mk' : Market K S I) : Prop :=
  mk.step d.sender d.action = some (mk', d.result)

/-! ## What a step does -/

/-- The listing an action is about. -/
def Action.key : Action K I → Option K
  | .list k _ _ | .delist k | .buy k => some k
  | .takeProfits => none

/-- A step, constructor by constructor. -/
inductive Did (mk : Market K S I) (sender : S) : Action K I → Result K I → Market K S I → Prop
  | list {k : K} {item : I} {ask : ℕ} (hk : mk.listings.lookup k = none) :
      Did mk sender (.list k item ask) .nothing
        { mk with listings := mk.listings.insert k ⟨item, ask, sender⟩ }
  | delist {k : K} {L : Listing S I} (hk : mk.listings.lookup k = some L)
      (hs : L.seller = sender) :
      Did mk sender (.delist k) (.item k L.item) { mk with listings := mk.listings.erase k }
  | buy {k : K} {L : Listing S I} (hk : mk.listings.lookup k = some L) :
      Did mk sender (.buy k) (.item k L.item)
        ⟨mk.listings.erase k, mk.proceeds.insert L.seller (mk.owed L.seller + L.ask)⟩
  | takeProfits {v : ℕ} (hv : mk.proceeds.lookup sender = some v) :
      Did mk sender .takeProfits (.money v) { mk with proceeds := mk.proceeds.erase sender }

theorem did_of_step {mk mk' : Market K S I} {sender : S} {a : Action K I} {r : Result K I}
    (h : mk.step sender a = some (mk', r)) : Did mk sender a r mk' := by
  cases a with
  | list k item ask =>
    simp only [Market.step] at h
    split at h
    · cases h
    · next hk =>
      cases h
      exact .list hk
  | delist k =>
    simp only [Market.step] at h
    split at h
    · next L hk =>
      split at h
      · next hs =>
        cases h
        exact .delist hk hs
      · cases h
    · cases h
  | buy k =>
    simp only [Market.step] at h
    split at h
    · next L hk =>
      cases h
      exact .buy hk
    · cases h
  | takeProfits =>
    simp only [Market.step] at h
    split at h
    · next v hv =>
      cases h
      exact .takeProfits hv
    · cases h

theorem Did.step {mk mk' : Market K S I} {sender : S} {a : Action K I} {r : Result K I}
    (h : Did mk sender a r mk') : mk.step sender a = some (mk', r) := by
  cases h with
  | list hk => simp only [Market.step, hk]
  | delist hk hs => simp only [Market.step, hk, hs, if_true]
  | buy hk => simp only [Market.step, hk]
  | takeProfits hv => simp only [Market.step, hv]

/-! ## The book -/

/-- What can be known from the deeds alone. -/
structure Book (K S : Type) where
  /-- The ask and the seller of the open listings. -/
  listed : K → Option (ℕ × S)
  /-- The sum of the asks of the listings of a seller that were bought. -/
  sold : S → ℕ
  /-- The sum of what somebody took out. -/
  taken : S → ℕ
  /-- Whether a listing of a seller was bought since the seller's last
  withdrawal. -/
  due : S → Bool

namespace Book

def empty : Book K S := ⟨fun _ => none, fun _ => 0, fun _ => 0, fun _ => false⟩

/-- Enter a deed. -/
def record (b : Book K S) (d : Deed K S I) : Book K S :=
  match d.action with
  | .list k _ ask => { b with listed := update b.listed k (some (ask, d.sender)) }
  | .delist k => { b with listed := update b.listed k none }
  | .buy k =>
    match b.listed k with
    | some (ask, s) =>
      { b with
        listed := update b.listed k none
        sold := update b.sold s (b.sold s + ask)
        due := update b.due s true }
    | none => b
  | .takeProfits =>
    match d.result with
    | .money v =>
      { b with
        taken := update b.taken d.sender (b.taken d.sender + v)
        due := update b.due d.sender false }
    | _ => b

end Book

/-- The book after the deeds `ds`. -/
def book (ds : List (Deed K S I)) : Book K S :=
  ds.foldl Book.record Book.empty

theorem book_append (ds : List (Deed K S I)) (d : Deed K S I) :
    book (ds ++ [d]) = (book ds).record d := by
  simp [book]

/-- The book is right about a marketplace. -/
structure Balanced (b : Book K S) (mk : Market K S I) : Prop where
  listed : ∀ k, b.listed k = (mk.listings.lookup k).map fun L => (L.ask, L.seller)
  ledger : ∀ s, mk.owed s + b.taken s = b.sold s
  due : ∀ s, b.due s = (mk.proceeds.lookup s).isSome

namespace Balanced

theorem empty : Balanced (Book.empty : Book K S) (Market.empty : Market K S I) :=
  ⟨fun _ => rfl, fun _ => rfl, fun _ => rfl⟩

/-- One deed keeps the book right. -/
theorem record {b : Book K S} {mk mk' : Market K S I} {d : Deed K S I} (h : Balanced b mk)
    (hd : Does mk d mk') : Balanced (b.record d) mk' := by
  obtain ⟨sender, action, result⟩ := d
  cases did_of_step hd with
  | @list k item ask hk =>
    refine ⟨fun k' => ?_, h.ledger, h.due⟩
    simp only [Book.record, Finmap.lookup_insert_ite]
    by_cases hkk : k' = k
    · subst hkk
      simp
    · simp [hkk, h.listed]
  | @delist k L hk hs =>
    refine ⟨fun k' => ?_, h.ledger, h.due⟩
    simp only [Book.record, Finmap.lookup_erase_ite]
    by_cases hkk : k' = k
    · subst hkk
      simp
    · simp [hkk, h.listed]
  | @buy k L hk =>
    have hlk : b.listed k = some (L.ask, L.seller) := by rw [h.listed, hk]; rfl
    refine ⟨fun k' => ?_, fun s => ?_, fun s => ?_⟩
    · simp only [Book.record, hlk, Finmap.lookup_erase_ite]
      by_cases hkk : k' = k
      · subst hkk
        simp
      · simp [hkk, h.listed]
    · have hs := h.ledger s
      simp only [Book.record, hlk, Market.owed, Finmap.lookup_insert_ite] at hs ⊢
      by_cases hss : s = L.seller
      · subst hss
        simp only [if_true, Option.getD_some, update_self]
        omega
      · simpa [hss] using hs
    · simp only [Book.record, hlk, Finmap.lookup_insert_ite]
      by_cases hss : s = L.seller
      · subst hss
        simp
      · simp [hss, h.due]
  | @takeProfits v hv =>
    refine ⟨h.listed, fun s => ?_, fun s => ?_⟩
    · have hs := h.ledger s
      simp only [Book.record, Market.owed, Finmap.lookup_erase_ite] at hs ⊢
      by_cases hss : s = sender
      · subst hss
        simp only [hv, Option.getD_some] at hs
        simp only [if_true, Option.getD_none, update_self]
        omega
      · simpa [hss] using hs
    · simp only [Book.record, Finmap.lookup_erase_ite]
      by_cases hss : s = sender
      · subst hss
        simp
      · simp [hss, h.due]

end Balanced

/-! ## Whole runs -/

section Runs

variable {ds : List (Deed K S I)} {mk : Market K S I}

/-- The book is right after every run. -/
theorem balanced (h : Run Does Market.empty ds mk) : Balanced (book ds) mk := by
  refine h.historyInvariant (I := fun ds mk => Balanced (book ds) mk) .empty ?_
  intro ds mk d mk' _ hb hd
  rw [book_append]
  exact hb.record hd

/-- The book knows what is listed. -/
theorem book_listings (h : Run Does Market.empty ds mk) (k : K) :
    (book ds).listed k = (mk.listings.lookup k).map fun L => (L.ask, L.seller) :=
  (balanced h).listed k

/-- **Owed plus taken is sold.** -/
theorem ledger (h : Run Does Market.empty ds mk) (s : S) :
    mk.owed s + (book ds).taken s = (book ds).sold s :=
  (balanced h).ledger s

/-- There is an account exactly when something was sold since the last
withdrawal. -/
theorem book_due (h : Run Does Market.empty ds mk) (s : S) :
    (book ds).due s = (mk.proceeds.lookup s).isSome :=
  (balanced h).due s

end Runs

/-! ## Many marketplaces -/

variable {M T : Type} [DecidableEq M]

/-- The marketplaces there are, each with its currency. -/
abbrev Bazaar (M K S T I : Type) := Finmap fun _ : M => T × Market K S I

/-- Open a marketplace, or do something in one. -/
inductive Move (M K T I : Type)
  | create (m : M) (currency : T)
  | act (m : M) (a : Action K I)

/-- The marketplace a move is about. -/
def Move.market : Move M K T I → M
  | .create m _ | .act m _ => m

namespace Bazaar

def step (b : Bazaar M K S T I) (sender : S) :
    Move M K T I → Option (Bazaar M K S T I × Result K I)
  | .create m currency =>
    match b.lookup m with
    | some _ => none
    | none => some (b.insert m (currency, Market.empty), .nothing)
  | .act m a =>
    match b.lookup m with
    | some (currency, mk) =>
      (mk.step sender a).map fun (mk', r) => (b.insert m (currency, mk'), r)
    | none => none

end Bazaar

end AbstractMarket
