import BookMarket.Dapp.Dialogs

/-!
# The Transfer page

The page offers the NFTs of the account in a select box.  Which option the box
displays is the browser's business; which NFT is sent is the state `NFTid`, and it
changes only when the box reports a change.

The two part company in two ways.  As long as the user does not touch the box,
`NFTid` is empty while the box displays its first option.  And when the list is
loaded again, after a transfer for instance, the options get other values, or the
one that was displayed is gone and the box falls back to the first: nothing of this
is a change.

The list is loaded in two requests, the identifiers of what the account owns and then
the objects.  The second is another query for every list of identifiers, so that the
box is empty between the two answers, unless the identifiers are the same as before or
their objects are in the cache.  An account that has got one more object than before
sees its box at the first option again.

* `render`, `handleseChange`, `transfer` — the page and the box.
* `TransferSession.step` — the page together with the transfers it has sent.
* `Sent.Right` — the NFT that is sent is the one that is displayed.
* `InPlace` — the NFT that was chosen is where the box looks for it.
* `Agrees` — how page and box depend on what has happened.
* `transferShown` — **in every run, the page sends what it shows exactly when the NFT
  that was chosen is in place.**
-/

namespace BookMarket

open Runs

variable {A : Type}

/-! ## The page -/

/-- The state of the page: `Allnftidlist`, the identifiers of `filteredData`, which are
the options of the select box, the position of the option the box displays, and the
fields of the component. -/
structure TransferPage (A : Type) where
  ids : Option (List A)
  list : List A
  selected : ℕ
  nftId : Option A
  recerveAddress : List Char
  shown : Bool
  deriving DecidableEq

namespace TransferPage

/-- The option the box displays. -/
def displayed (p : TransferPage A) : Option A := p.list[p.selected]?

/-- The options are rendered, and these are their values.  Options are told apart by
their position, so the one that is displayed stays, with another value maybe, if there
is one at its position; when it disappears, the box falls back to the first.  An empty
box has none that could stay. -/
def render (p : TransferPage A) (list : List A) : TransferPage A :=
  { p with list, selected := if p.selected < list.length then p.selected else 0 }

def handleseChange (p : TransferPage A) (value : A) : TransferPage A :=
  { p with nftId := some value }

def handleipChange (p : TransferPage A) (value : List Char) : TransferPage A :=
  { p with recerveAddress := value }

def handleItemClick (p : TransferPage A) : TransferPage A := { p with shown := true }

def handleClose (p : TransferPage A) : TransferPage A := { p with shown := false }

/-- The call `Transfer` builds, if the text is an address. -/
def transfer [AddressSpace A] (address : List Char → Option A) (p : TransferPage A) :
    Option (Call A) :=
  (address p.recerveAddress).map fun recipient => .transfer (txbObject p.nftId) recipient

end TransferPage

/-! ## Sessions -/

/-- What can happen next. -/
inductive TransferEvent (A : Type)
  /-- `getOwnedObjects` answers, for the first time or again.  `cached` is what the cache
  has for `multiGetObjects` of these identifiers, if it has anything. -/
  | owned (ids : List A) (cached : Option (List A))
  /-- `multiGetObjects` answers for the identifiers there are, and these are the NFTs
  among them. -/
  | load (list : List A)
  /-- The user chooses the option at a position, with this value. -/
  | change (i : ℕ) (value : A)
  | edit (text : List Char)
  | submit
  /-- Confirm is pressed. -/
  | confirm
  | close
  deriving DecidableEq

/-- A call that was built, with what was to be seen at that time, and with what had
happened before. -/
structure Sent (A : Type) where
  call : Call A
  list : List A
  displayed : Option A
  past : List (TransferEvent A)
  deriving DecidableEq

/-- The NFT that is sent is the one that is displayed, and the account has it. -/
def Sent.Right (t : Sent A) : Prop :=
  t.list ≠ [] → ∃ id recipient, t.displayed = some id ∧ id ∈ t.list ∧
    t.call = .transfer id recipient

/-- The page, what has happened on it and the calls it has built. -/
structure TransferSession (A : Type) where
  page : TransferPage A
  past : List (TransferEvent A)
  sent : List (Sent A)
  deriving DecidableEq

namespace TransferSession

/-- The page when it is mounted. -/
def start : TransferSession A where
  page := {
    ids := none
    list := []
    selected := 0
    nftId := none
    recerveAddress := []
    shown := false }
  past := []
  sent := []

/-- An event has happened, and the page is now this one. -/
def next (s : TransferSession A) (e : TransferEvent A) (page : TransferPage A) :
    TransferSession A :=
  { s with page, past := s.past ++ [e] }

variable [DecidableEq A] [AddressSpace A]

/-- One event.  The query of other identifiers starts without data, if the cache has
none.  A box reports a change only if another option is chosen, and a form is submitted
only if its required fields have a value. -/
def step (address : List Char → Option A) (s : TransferSession A) (e : TransferEvent A) :
    Option (TransferSession A) :=
  match e with
  | .owned ids cached =>
    if ∀ list ∈ cached, list.Sublist ids then
      if s.page.ids = some ids then some (s.next e s.page)
      else some (s.next e ({ s.page with ids := some ids }.render (cached.getD [])))
    else none
  | .load list =>
    if ∃ ids ∈ s.page.ids, list.Sublist ids then some (s.next e (s.page.render list)) else none
  | .change i value =>
    if s.page.list[i]? = some value ∧ i ≠ s.page.selected then
      some (s.next e ({ s.page with selected := i }.handleseChange value))
    else none
  | .edit text => some (s.next e (s.page.handleipChange text))
  | .submit =>
    if s.page.list ≠ [] ∧ s.page.recerveAddress ≠ [] then
      some (s.next e s.page.handleItemClick)
    else none
  | .confirm =>
    if s.page.shown then
      match s.page.transfer address with
      | some call =>
        some { s.next e s.page with
          sent := ⟨call, s.page.list, s.page.displayed, s.past⟩ :: s.sent }
      | none => some (s.next e s.page)
    else none
  | .close => some (s.next e s.page.handleClose)

/-- The steps of a session. -/
def Step (address : List Char → Option A) (s : TransferSession A) (e : TransferEvent A)
    (s' : TransferSession A) : Prop :=
  s.step address e = some s'

end TransferSession

/-! ## The option that was chosen -/

/-- What was chosen last, and the lists the box was rendered with since. -/
structure Choice (A : Type) where
  position : ℕ
  id : A
  renders : List (List A)

def Choice.rendered (c : Choice A) (list : List A) : Choice A :=
  { c with renders := c.renders ++ [list] }

/-- Where the box has it: at its position, unless a list was too short for that. -/
def Choice.shownAt (c : Choice A) : ℕ :=
  if c.renders.all fun list => c.position < list.length then c.position else 0

/-- What the events so far say: the identifiers that were answered last, and the last
choice. -/
structure Known (A : Type) where
  ids : Option (List A)
  choice : Option (Choice A)

variable [DecidableEq A]

/-- One event more.  Other identifiers empty the box, unless their NFTs are in the
cache. -/
def Known.after (r : Known A) : TransferEvent A → Known A
  | .owned ids cached =>
    if r.ids = some ids then r
    else ⟨some ids, r.choice.map fun c => c.rendered (cached.getD [])⟩
  | .load list => { r with choice := r.choice.map fun c => c.rendered list }
  | .change i value => { r with choice := some ⟨i, value, []⟩ }
  | _ => r

def known (past : List (TransferEvent A)) : Known A :=
  past.foldl Known.after ⟨none, none⟩

/-- The list has the NFT that was chosen last where the box has it.  When none was
chosen, it would have to have the object `0x0` in the first place. -/
def InPlace [AddressSpace A] (past : List (TransferEvent A)) (list : List A) : Prop :=
  match (known past).choice with
  | some c => list[c.shownAt]? = some c.id
  | none => list.head? = some AddressSpace.zero

/-- What is known after an event. -/
theorem known_next (s : TransferSession A) (e : TransferEvent A) (page : TransferPage A) :
    known (s.next e page).past = (known s.past).after e := by
  rw [TransferSession.next, known, List.foldl_append]
  rfl

omit [DecidableEq A] in
/-- One list more: the box falls back when it is too short. -/
theorem Choice.shownAt_rendered (c : Choice A) (list : List A) :
    (c.rendered list).shownAt = if c.shownAt < list.length then c.shownAt else 0 := by
  have hall : ((c.rendered list).renders.all fun l => (c.rendered list).position < l.length) =
      ((c.renders.all fun l => c.position < l.length) && decide (c.position < list.length)) := by
    simp only [rendered, List.all_append, List.all_cons, List.all_nil, Bool.and_true]
    rfl
  rw [shownAt, hall, shownAt]
  cases c.renders.all fun l => decide (c.position < l.length) with
  | true => simp [rendered]
  | false => simp

/-! ## The invariant -/

/-- What holds in every run: `NFTid` is the NFT that was chosen last, the box displays
the position where it has it, and the calls have been right exactly when it was in
place. -/
structure Agrees [AddressSpace A] (s : TransferSession A) : Prop where
  ids : s.page.ids = (known s.past).ids
  chosen : s.page.nftId = (known s.past).choice.map Choice.id
  position : s.page.selected = ((known s.past).choice.map Choice.shownAt).getD 0
  sent : ∀ t ∈ s.sent, t.Right ↔ (t.list ≠ [] → InPlace t.past t.list)

namespace Agrees

variable [AddressSpace A] {s s' : TransferSession A} {e : TransferEvent A}

theorem start : Agrees (TransferSession.start : TransferSession A) where
  ids := rfl
  chosen := rfl
  position := rfl
  sent t ht := by cases ht

/-- An event that neither chooses nor renders changes nothing. -/
theorem next (h : Agrees s) {page : TransferPage A} (hids : page.ids = s.page.ids)
    (hid : page.nftId = s.page.nftId) (hsel : page.selected = s.page.selected)
    (he : (known s.past).after e = known s.past) : Agrees (s.next e page) where
  ids := by
    rw [known_next, he, ← h.ids]
    exact hids
  chosen := by
    rw [known_next, he, ← h.chosen]
    exact hid
  position := by
    rw [known_next, he, ← h.position]
    exact hsel
  sent := h.sent

/-- An event that renders a list, with these identifiers from then on. -/
theorem render (h : Agrees s) (ids : Option (List A)) (list : List A)
    (he : (known s.past).after e =
      ⟨ids, (known s.past).choice.map fun c => c.rendered list⟩) :
    Agrees (s.next e ({ s.page with ids }.render list)) where
  ids := by
    rw [known_next, he]
    rfl
  chosen := by
    rw [known_next, he, Option.map_map]
    exact h.chosen
  position := by
    rw [known_next, he, TransferSession.next, TransferPage.render, h.position]
    cases (known s.past).choice with
    | none => simp
    | some c => simp [Choice.shownAt_rendered]
  sent := h.sent

theorem owned (h : Agrees s) {ids : List A} (cached : Option (List A))
    (hne : s.page.ids ≠ some ids) :
    Agrees (s.next (.owned ids cached)
      ({ s.page with ids := some ids }.render (cached.getD []))) := by
  refine h.render (some ids) (cached.getD []) ?_
  rw [h.ids] at hne
  simp [Known.after, hne]

theorem load (h : Agrees s) (list : List A) :
    Agrees (s.next (.load list) (s.page.render list)) := by
  refine h.render s.page.ids list ?_
  rw [h.ids]
  rfl

theorem change (h : Agrees s) (i : ℕ) (value : A) :
    Agrees (s.next (.change i value)
      ({ s.page with selected := i }.handleseChange value)) where
  ids := by
    rw [known_next]
    exact h.ids
  chosen := by
    rw [known_next]
    rfl
  position := by
    rw [known_next]
    rfl
  sent := h.sent

/-- What is sent is displayed exactly if the NFT that was chosen is in place. -/
theorem displayed_iff (h : Agrees s) :
    s.page.displayed = some (txbObject s.page.nftId) ↔ InPlace s.past s.page.list := by
  rw [TransferPage.displayed, h.chosen, h.position, InPlace]
  cases (known s.past).choice with
  | none => simp [txbObject, List.head?_eq_getElem?]
  | some c => simp [txbObject]

/-- **A call is right exactly then.** -/
theorem sent_right_iff (h : Agrees s) {address : List Char → Option A} {call : Call A}
    (hcall : s.page.transfer address = some call) :
    Sent.Right ⟨call, s.page.list, s.page.displayed, s.past⟩ ↔
      (s.page.list ≠ [] → InPlace s.past s.page.list) := by
  obtain ⟨recipient, -, rfl⟩ := Option.map_eq_some_iff.1 hcall
  rw [← h.displayed_iff]
  refine forall_congr' fun _ => ⟨?_, fun hdisp => ?_⟩
  · rintro ⟨id, recipient', hdisp, -, heq⟩
    cases heq
    exact hdisp
  · exact ⟨_, recipient, hdisp, List.mem_of_getElem? hdisp, rfl⟩

variable {address : List Char → Option A}

/-- **One step.** -/
theorem step (h : Agrees s) (hs : s.Step address e s') : Agrees s' := by
  cases e with
  | owned ids cached =>
    simp only [TransferSession.Step, TransferSession.step] at hs
    split at hs
    · split at hs
      · next hids =>
        cases hs
        refine h.next rfl rfl rfl ?_
        rw [h.ids] at hids
        simp [Known.after, hids]
      · next hids =>
        cases hs
        exact h.owned cached hids
    · cases hs
  | load list =>
    simp only [TransferSession.Step, TransferSession.step] at hs
    split at hs
    · cases hs
      exact h.load list
    · cases hs
  | change i value =>
    simp only [TransferSession.Step, TransferSession.step] at hs
    split at hs
    · cases hs
      exact h.change i value
    · cases hs
  | edit text =>
    cases hs
    exact h.next rfl rfl rfl rfl
  | submit =>
    simp only [TransferSession.Step, TransferSession.step] at hs
    split at hs
    · cases hs
      exact h.next rfl rfl rfl rfl
    · cases hs
  | confirm =>
    simp only [TransferSession.Step, TransferSession.step] at hs
    split at hs
    · have hnext : Agrees (s.next .confirm s.page) := h.next rfl rfl rfl rfl
      split at hs
      · next call hcall =>
        cases hs
        refine ⟨hnext.ids, hnext.chosen, hnext.position, fun t ht => ?_⟩
        rcases List.mem_cons.1 ht with rfl | ht
        · exact h.sent_right_iff hcall
        · exact h.sent t ht
      · cases hs
        exact hnext
    · cases hs
  | close =>
    cases hs
    exact h.next rfl rfl rfl rfl

end Agrees

section Transfer

variable [AddressSpace A]

/-- **In every run, the page sends what it shows exactly when the NFT that was chosen is
in place.**  From the moment the page is mounted, whatever lists are loaded, options
chosen, addresses typed and forms submitted, in any order: a call that is built while
there is an NFT in the list has the one that is displayed, and the list has it, if and
only if an option was chosen before and the list has its NFT where it was chosen, or in
the first place if the box was rendered since with a list too short for that, such as
the empty one between two answers. -/
theorem transferShown (address : List Char → Option A) {es : List (TransferEvent A)}
    {s : TransferSession A}
    (hrun : Run (TransferSession.Step address) TransferSession.start es s) :
    ∀ t ∈ s.sent, t.Right ↔ (t.list ≠ [] → InPlace t.past t.list) :=
  (hrun.invariant (I := Agrees) Agrees.start fun h hs => h.step hs).sent

end Transfer

omit [DecidableEq A] in
/-- A call for something else than is displayed is not right. -/
theorem Sent.not_right {t : Sent A} {id id' recipient : A} (hlist : t.list ≠ [])
    (hdisp : t.displayed = some id) (hcall : t.call = .transfer id' recipient) (hne : id' ≠ id) :
    ¬ t.Right := by
  intro h
  obtain ⟨id₁, recipient₁, hdisp₁, -, hcall₁⟩ := h hlist
  cases hdisp.symm.trans hdisp₁
  cases hcall.symm.trans hcall₁
  exact hne rfl

/-! An account with two NFTs; every text is the address of user 2. -/

def toUser2 (_ : List Char) : Option Addr := some (.user 2)

/-- The second NFT is chosen, and the form is submitted. -/
def chooseSecond : List (TransferEvent Addr) :=
  [.owned [.derived 1 0, .derived 1 1] none, .load [.derived 1 0, .derived 1 1],
    .change 1 (.derived 1 1), .edit ['2'], .submit]

/-- The first NFT leaves the list before Confirm is pressed, and the box falls back to
the second, which is the first now. -/
def firstLeaves : List (TransferEvent Addr) :=
  chooseSecond ++ [.owned [.derived 1 1] none, .load [.derived 1 1]]

/-- What is sent then, -/
def sentSecond : Sent Addr :=
  ⟨.transfer (.derived 1 1) (.user 2), [.derived 1 1], some (.derived 1 1), firstLeaves⟩

/-- is right. -/
theorem transferShown_chosen :
    ∃ s, Run (TransferSession.Step toUser2) TransferSession.start (firstLeaves ++ [.confirm]) s ∧
      sentSecond ∈ s.sent ∧ sentSecond.Right := by
  have hrun : Run (TransferSession.Step toUser2) TransferSession.start (firstLeaves ++ [.confirm])
      ⟨⟨some [.derived 1 1], [.derived 1 1], 0, some (.derived 1 1), ['2'], true⟩,
        firstLeaves ++ [.confirm], [sentSecond]⟩ := Run.of_foldlM (by decide +kernel)
  have hsent : sentSecond ∈ [sentSecond] := List.mem_singleton.2 rfl
  refine ⟨_, hrun, hsent, (transferShown toUser2 hrun sentSecond hsent).2 fun _ => ?_⟩
  exact (rfl : [Addr.derived 1 1][0]? = some (.derived 1 1))

/-- The box is not touched. -/
def untouched : List (TransferEvent Addr) :=
  [.owned [.derived 1 0] none, .load [.derived 1 0], .edit ['2'], .submit]

/-- The NFT that was sent leaves the list, and the form is submitted again. -/
def sendAgain : List (TransferEvent Addr) :=
  chooseSecond ++ [.confirm, .owned [.derived 1 0] none, .load [.derived 1 0], .close, .submit]

/-- Another object arrives before Confirm is pressed, and the NFTs are fetched anew. -/
def oneMore : List (TransferEvent Addr) :=
  chooseSecond ++ [.owned [.derived 1 0, .derived 1 1, .derived 2 0] none,
    .load [.derived 1 0, .derived 1 1]]

/-- What is sent in the first case: the object `0x0`, -/
def sentUntouched : Sent Addr :=
  ⟨.transfer AddressSpace.zero (.user 2), [.derived 1 0], some (.derived 1 0), untouched⟩

/-- in the second: the NFT that the account does not have any more, -/
def sentAgain : Sent Addr :=
  ⟨.transfer (.derived 1 1) (.user 2), [.derived 1 0], some (.derived 1 0), sendAgain⟩

/-- and in the third: the NFT that was chosen, while the box displays the first. -/
def sentChosen : Sent Addr :=
  ⟨.transfer (.derived 1 1) (.user 2), [.derived 1 0, .derived 1 1], some (.derived 1 0), oneMore⟩

/-- The page sends something else than it shows. -/
theorem transferShown_wrong :
    (∃ s, Run (TransferSession.Step toUser2) TransferSession.start (untouched ++ [.confirm]) s ∧
      sentUntouched ∈ s.sent ∧ ¬ sentUntouched.Right) ∧
    (∃ s, Run (TransferSession.Step toUser2) TransferSession.start (sendAgain ++ [.confirm]) s ∧
      sentAgain ∈ s.sent ∧ ¬ sentAgain.Right) ∧
    ∃ s, Run (TransferSession.Step toUser2) TransferSession.start (oneMore ++ [.confirm]) s ∧
      sentChosen ∈ s.sent ∧ ¬ sentChosen.Right := by
  refine ⟨?_, ?_, ?_⟩
  · refine ⟨⟨⟨some [.derived 1 0], [.derived 1 0], 0, none, ['2'], true⟩,
      untouched ++ [.confirm], [sentUntouched]⟩, Run.of_foldlM (by decide +kernel), by simp, ?_⟩
    exact Sent.not_right (by simp [sentUntouched]) rfl rfl (by decide)
  · refine ⟨⟨⟨some [.derived 1 0], [.derived 1 0], 0, some (.derived 1 1), ['2'], true⟩,
      sendAgain ++ [.confirm],
      [sentAgain, ⟨.transfer (.derived 1 1) (.user 2), [.derived 1 0, .derived 1 1],
        some (.derived 1 1), chooseSecond⟩]⟩, Run.of_foldlM (by decide +kernel), by simp, ?_⟩
    exact Sent.not_right (by simp [sentAgain]) rfl rfl (by decide)
  · refine ⟨⟨⟨some [.derived 1 0, .derived 1 1, .derived 2 0], [.derived 1 0, .derived 1 1], 0,
      some (.derived 1 1), ['2'], true⟩, oneMore ++ [.confirm], [sentChosen]⟩,
      Run.of_foldlM (by decide +kernel), by simp, ?_⟩
    exact Sent.not_right (by simp [sentChosen]) rfl rfl (by decide)

end BookMarket
