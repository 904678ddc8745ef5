import Mathlib.Algebra.Order.Field.Rat
import Mathlib.Data.Rat.Lemmas
import Mathlib.Tactic.Linarith
import Mathlib.Tactic.NormNum
import BookMarket.Dapp.Dialogs

/-!
# The List form

On the MyAsset page a seller types a price into a number field and presses List.  The
text goes through three hands, and each has its own idea of it: the browser lets
through any numeral and also an empty field, `txb.pure.u64` reads it with `BigInt`,
which knows no fractions and takes the empty text for 0, and the Market page divides
by `10^9` what the form has passed on as it was typed.

* `Numeral`, `FieldText` — what the field can hold.
* `bigInt`, `u64` — the encoder.
* `pressList` — the form.
* `Numeral.bigInt_text` — what the encoder makes of a numeral.
* `AskedAsTyped` — the price typed is the price asked and shown.
* `listForm` — **it is, exactly when nothing is asked at all or the price is 0.**
-/

namespace BookMarket

/-! ## The field -/

/-- An exponent: a letter, possibly a sign, and digits. -/
structure Exponent where
  capital : Bool
  /-- The sign, if there is one: whether it is a minus. -/
  minus : Option Bool
  digits : List Char
  digits_ne_nil : digits ≠ []
  all_digits : ∀ c ∈ digits, c.isDigit

namespace Exponent

def letter (e : Exponent) : Char := if e.capital then 'E' else 'e'

def sign (e : Exponent) : List Char :=
  match e.minus with
  | none => []
  | some false => ['+']
  | some true => ['-']

def text (e : Exponent) : List Char := e.letter :: (e.sign ++ e.digits)

def value (e : Exponent) : ℤ :=
  if e.minus = some true then -(Nat.ofDigitChars 10 e.digits 0 : ℤ)
  else Nat.ofDigitChars 10 e.digits 0

end Exponent

/-- A valid floating-point number of HTML: possibly a minus, digits before or after the
point, and possibly an exponent. -/
structure Numeral where
  negative : Bool
  whole : List Char
  fraction : List Char
  exponent : Option Exponent
  some_digits : whole ≠ [] ∨ fraction ≠ []
  whole_digits : ∀ c ∈ whole, c.isDigit
  fraction_digits : ∀ c ∈ fraction, c.isDigit

namespace Numeral

/-- What comes after the sign. -/
def body (n : Numeral) : List Char :=
  n.whole ++ (if n.fraction = [] then [] else '.' :: n.fraction) ++
    (n.exponent.map Exponent.text).getD []

def text (n : Numeral) : List Char :=
  if n.negative then '-' :: n.body else n.body

/-- The number typed. -/
def value (n : Numeral) : ℚ :=
  (if n.negative then -1 else 1) *
    (Nat.ofDigitChars 10 (n.whole ++ n.fraction) 0 / 10 ^ n.fraction.length) *
    10 ^ (n.exponent.map Exponent.value).getD 0

/-- The numeral is that of an integer, without a point or an exponent. -/
def IsInteger (n : Numeral) : Prop := n.fraction = [] ∧ n.exponent = none

instance (n : Numeral) : Decidable n.IsInteger := inferInstanceAs (Decidable (_ ∧ _))

/-- The digits before the point. -/
def wholeValue (n : Numeral) : ℕ := Nat.ofDigitChars 10 n.whole 0

end Numeral

/-- What the field can hold. -/
inductive FieldText
  | empty
  | numeral (n : Numeral)

def FieldText.text : FieldText → List Char
  | .empty => []
  | .numeral n => n.text

/-- The browser does not submit a form with a number that is not a whole number of
steps from the step base.  The step is 1; the base is what the page was last given as
the value of the field. -/
def FieldText.stepMismatch (base : ℚ) : FieldText → Bool
  | .empty => false
  | .numeral n => (n.value - base).den ≠ 1

/-! ## The encoder -/

/-- A text of digits as a number. -/
def ofDigits (text : List Char) : Option ℤ :=
  if text ≠ [] ∧ text.all Char.isDigit then some (Nat.ofDigitChars 10 text 0) else none

/-- `BigInt`, on the texts of a number field: the empty text is 0, and otherwise there
are only digits after the sign. -/
def bigInt : List Char → Option ℤ
  | [] => some 0
  | c :: text =>
    if c = '-' then (ofDigits text).map fun n => -n
    else if c = '+' then ofDigits text
    else ofDigits (c :: text)

/-- `txb.pure.u64`. -/
def u64 (text : List Char) : Option UInt64 :=
  (bigInt text).bind fun value =>
    if value < 0 ∨ value > 2 ^ 64 - 1 then none else some (UInt64.ofNat value.toNat)

/-! ## The form -/

variable {A : Type}

/-- The call `ListMyNFT` builds. -/
def listMyNFT (marketid : A) (p : AssetPage A) : Option (Call A) :=
  match p.nftData, u64 p.askPrice with
  | some nft, some ask => some (.list nftType coinType marketid nft.id ask)
  | _, _ => none

/-- List is pressed with `text` in the field. -/
def pressList (marketid : A) (base : ℚ) (p : AssetPage A) (text : FieldText) : Option (Call A) :=
  if text.stepMismatch base then none
  else listMyNFT marketid (MyAsset.handleChange p text.text)

/-- The price on the card of a listing, in SUI. -/
def cardPrice (L : Slot A) : ℚ := L.ask.toNat / 1000000000

/-! ## What the encoder makes of a numeral -/

theorem ofDigits_of_forall {text : List Char} (hne : text ≠ []) (h : ∀ c ∈ text, c.isDigit) :
    ofDigits text = some (Nat.ofDigitChars 10 text 0 : ℤ) :=
  if_pos ⟨hne, List.all_eq_true.2 h⟩

theorem ofDigits_of_mem {text : List Char} {c : Char} (hc : c ∈ text) (h : c.isDigit = false) :
    ofDigits text = none := by
  refine if_neg fun hall => ?_
  rw [List.all_eq_true.1 hall.2 c hc] at h
  cases h

namespace Numeral

variable (n : Numeral)

/-- A body with a point or an exponent has a character that is no digit. -/
theorem exists_mem_body (h : ¬ n.IsInteger) : ∃ c ∈ n.body, c.isDigit = false := by
  by_cases hf : n.fraction = []
  · cases he : n.exponent with
    | none => exact absurd ⟨hf, he⟩ h
    | some e =>
      refine ⟨e.letter, by simp [body, he, Exponent.text], ?_⟩
      cases hc : e.capital <;> simp [Exponent.letter, hc]
  · exact ⟨'.', by simp [body, hf], by decide⟩

theorem body_of_isInteger (h : n.IsInteger) : n.body = n.whole := by
  simp [body, h.1, h.2]

theorem whole_ne_nil (h : n.IsInteger) : n.whole ≠ [] := by
  rcases n.some_digits with hw | hf
  · exact hw
  · exact absurd h.1 hf

theorem ofDigits_body :
    ofDigits n.body = if n.IsInteger then some (n.wholeValue : ℤ) else none := by
  split
  · next h =>
    rw [n.body_of_isInteger h]
    exact ofDigits_of_forall (n.whole_ne_nil h) n.whole_digits
  · next h =>
    obtain ⟨c, hc, hdigit⟩ := n.exists_mem_body h
    exact ofDigits_of_mem hc hdigit

/-- The body begins with a digit or a point. -/
theorem body_eq_cons : ∃ c rest, n.body = c :: rest ∧ c ≠ '-' ∧ c ≠ '+' := by
  cases hw : n.whole with
  | nil =>
    have hf : n.fraction ≠ [] := n.some_digits.resolve_left fun h => h hw
    exact ⟨'.', _, by rw [body, hw, if_neg hf]; rfl, by decide, by decide⟩
  | cons c rest =>
    have hdigit : c.isDigit := n.whole_digits c (by simp [hw])
    refine ⟨c, _, by rw [body, hw]; rfl, ?_, ?_⟩
    · rintro rfl
      cases hdigit
    · rintro rfl
      cases hdigit

/-- **`BigInt` reads the numerals of integers, and no others.** -/
theorem bigInt_text : bigInt n.text = if n.IsInteger then
    some (if n.negative then -(n.wholeValue : ℤ) else n.wholeValue) else none := by
  cases hneg : n.negative with
  | true =>
    rw [text, hneg, if_pos rfl, bigInt, if_pos rfl, ofDigits_body]
    split <;> rfl
  | false =>
    obtain ⟨c, rest, hbody, hminus, hplus⟩ := n.body_eq_cons
    rw [text, hneg, if_neg (by decide), hbody, bigInt, if_neg hminus, if_neg hplus, ← hbody,
      ofDigits_body]
    rfl

/-- The number such a numeral stands for. -/
theorem value_of_isInteger (h : n.IsInteger) :
    n.value = if n.negative then -(n.wholeValue : ℚ) else n.wholeValue := by
  rw [value, h.1, h.2, List.append_nil]
  split <;> simp [wholeValue]

end Numeral

/-- `txb.pure.u64` passes on what `BigInt` reads, if it fits. -/
theorem u64_eq_some {text : List Char} {ask : UInt64} :
    u64 text = some ask ↔ bigInt text = some (ask.toNat : ℤ) := by
  have hlt := ask.toNat_lt
  rw [u64, Option.bind_eq_some_iff]
  constructor
  · rintro ⟨value, hvalue, hask⟩
    split at hask
    · cases hask
    · next hfits =>
      rw [not_or, not_lt, not_lt] at hfits
      cases hask
      rw [hvalue, UInt64.toNat_ofNat', Nat.mod_eq_of_lt (by omega), Int.toNat_of_nonneg hfits.1]
  · intro h
    refine ⟨_, h, ?_⟩
    rw [if_neg (by omega), Int.toNat_natCast, UInt64.ofNat_toNat]

theorem u64_nil : u64 [] = some 0 := u64_eq_some.2 rfl

/-- So it passes on the numerals of integers that fit. -/
theorem u64_text (n : Numeral) {ask : UInt64} : u64 n.text = some ask ↔
    n.IsInteger ∧ n.wholeValue = ask.toNat ∧ (n.negative = true → n.wholeValue = 0) := by
  rw [u64_eq_some, n.bigInt_text]
  by_cases h : n.IsInteger
  · cases hneg : n.negative with
    | true =>
      simp only [h, if_true, Option.some.injEq, true_and, forall_const]
      omega
    | false => simp [h]
  · simp [h]

/-! ## The price that is asked -/

section Form

variable [DecidableEq A] [AddressSpace A]

/-- What the form is for: List makes a call only for a numeral of a price that is a
whole number of base units, and the listing it leads to is shown with the price that
was typed. -/
def AskedAsTyped (c : Chain A) (sender marketid : A) (base : ℚ) (p : AssetPage A)
    (text : FieldText) : Prop :=
  ∀ call, pressList marketid base p text = some call →
    ∃ n, text = .numeral n ∧ (∃ units : UInt64, n.value * 1000000000 = units.toNat) ∧
      ∃ nft, p.nftData = some nft ∧ ∃ c' es L, execTx c (callTx sender call) = .ok (c', es) ∧
        listingAt c'.objects marketid nft.id = some L ∧ cardPrice L = n.value

/-- Nothing is asked for it, or what it says is 0. -/
def FieldText.Harmless (base : ℚ) : FieldText → Prop
  | .empty => False
  | .numeral n => n.IsInteger → n.negative = false →
    n.wholeValue = 0 ∨ 2 ^ 64 ≤ n.wholeValue ∨ (FieldText.numeral n).stepMismatch base = true

/-- An NFT the sender has can be listed, and the listing asks for what was passed. -/
theorem History.list_ask {h : List (Entry A)} {c : Chain A} (hc : History h c)
    (hr : c.running = false) {m sender k : A} {coin : TypeTag} {i : Item A}
    (hm : marketAt c.objects m = some coin)
    (hf : freeAt c.objects k = some (.address sender, i)) (ask : UInt64) :
    ∃ c' es L, execTx c (callTx sender (.list i.type coin m k ask)) = .ok (c', es) ∧
      listingAt c'.objects m k = some L ∧ L.ask = ask := by
  have hs : Single (worldOf c.objects) ⟨sender, c.ctx.txHash + 1, 0⟩
      (.list i.type coin m k ask) _ := .list hm hf rfl
  obtain ⟨c', es, he, hw⟩ := hc.execTx_of_single hr hs
  have hL : listingAt c'.objects m k =
      some ⟨(objectNew ⟨sender, c.ctx.txHash + 1, 0⟩).1, ask, sender, i⟩ := by
    rw [listingAt_worldOf, hw]
    simp
  exact ⟨c', es, _, he, hL, rfl⟩

omit [DecidableEq A] [AddressSpace A] in
/-- What is shown is what was typed only for 0. -/
theorem eq_zero_of_div_eq {w : ℕ} (h : (w : ℚ) / 1000000000 = w) : w = 0 := by
  have hmul : (w : ℚ) = w * 1000000000 := (div_eq_iff (by norm_num)).1 h
  have hw : (w : ℚ) = 0 := by linarith
  exact_mod_cast hw

omit [DecidableEq A] [AddressSpace A] in
/-- A call that List makes. -/
theorem pressList_inv {m : A} {base : ℚ} {p : AssetPage A} {nft : Obj A}
    (hp : p.nftData = some nft) {text : FieldText} {call : Call A}
    (h : pressList m base p text = some call) :
    text.stepMismatch base = false ∧ ∃ ask, u64 text.text = some ask ∧
      call = .list nftType coinType m nft.id ask := by
  rw [pressList] at h
  split at h
  · cases h
  · next hstep =>
    rw [Bool.not_eq_true] at hstep
    simp only [listMyNFT, MyAsset.handleChange, hp] at h
    cases hask : u64 text.text with
    | none => simp [hask] at h
    | some ask =>
      simp only [hask, Option.some.injEq] at h
      exact ⟨hstep, ask, rfl, h.symm⟩

/-- **The price typed is the price asked and shown exactly when nothing is asked at all
or the price is 0.**  In every reachable state, for an NFT the sender has and every text
the field can hold, whatever the step base of the field is: the form fails for the
empty field, which is listed for 0, and for every positive integer that is let through,
which is listed for as many base units. -/
theorem listForm {h : List (Entry A)} {c : Chain A} (hc : History h c) (hr : c.running = false)
    {m sender : A} (hm : marketAt c.objects m = some coinType) {p : AssetPage A} {nft : Obj A}
    (hp : p.nftData = some nft) {i : Item A} (hi : i.type = nftType)
    (hf : freeAt c.objects nft.id = some (.address sender, i)) (base : ℚ) (text : FieldText) :
    AskedAsTyped c sender m base p text ↔ text.Harmless base := by
  -- what is passed on is listed
  have hcall {t : FieldText} {ask : UInt64} (hstep : t.stepMismatch base = false)
      (hask : u64 t.text = some ask) :
      pressList m base p t = some (.list nftType coinType m nft.id ask) := by
    simp [pressList, hstep, listMyNFT, MyAsset.handleChange, hp, hask]
  cases text with
  | empty =>
    refine ⟨fun hasked => ?_, False.elim⟩
    obtain ⟨n, hn, -⟩ := hasked _ (hcall rfl u64_nil)
    cases hn
  | numeral n =>
    constructor
    · intro hasked hint hneg
      by_contra hbad
      rw [not_or, not_or, not_le, Bool.not_eq_true] at hbad
      obtain ⟨hpos, hlt, hstep⟩ := hbad
      have hask : u64 n.text = some (UInt64.ofNat n.wholeValue) := by
        rw [u64_text, UInt64.toNat_ofNat', Nat.mod_eq_of_lt hlt]
        exact ⟨hint, rfl, fun h => by rw [hneg] at h; cases h⟩
      obtain ⟨n', hn', -, nft', hp', c', es, L, he, hL, hprice⟩ := hasked _ (hcall hstep hask)
      cases hn'
      cases hp.symm.trans hp'
      -- the listing asks for as many base units as the price was SUI
      obtain ⟨c₁, es₁, L₁, he₁, hL₁, hask₁⟩ :=
        hc.list_ask hr hm hf (UInt64.ofNat n.wholeValue)
      rw [hi] at he₁
      cases he.symm.trans he₁
      cases hL.symm.trans hL₁
      rw [cardPrice, hask₁, UInt64.toNat_ofNat', Nat.mod_eq_of_lt hlt, n.value_of_isInteger hint,
        if_neg (by simp [hneg])] at hprice
      exact hpos (eq_zero_of_div_eq hprice)
    · intro hok call hpress
      obtain ⟨hstep, ask, hask, rfl⟩ := pressList_inv hp hpress
      obtain ⟨hint, hwhole, hneg⟩ := (u64_text n).1 hask
      -- what is let through says 0
      have hzero : n.wholeValue = 0 := by
        have hlt := ask.toNat_lt
        cases hn : n.negative with
        | true => exact hneg hn
        | false =>
          rcases hok hint hn with h0 | hbig | hmis
          · exact h0
          · omega
          · rw [hstep] at hmis
            cases hmis
      have hvalue : n.value = 0 := by
        rw [n.value_of_isInteger hint, hzero]
        simp
      obtain ⟨c', es, L, he, hL, hLask⟩ := hc.list_ask hr hm hf ask
      rw [hi] at he
      refine ⟨n, rfl, ⟨0, by simp [hvalue]⟩, nft, hp, c', es, L, he, hL, ?_⟩
      rw [cardPrice, hLask, ← hwhole, hzero, hvalue]
      simp

end Form

/-- User 1 creates a marketplace and mints an NFT. -/
def oneOwned : List (Tx Addr) :=
  [⟨.user 1, [], [.create .sui]⟩, ⟨.user 1, [], [.mintToSender [66] [] [] []]⟩]

/-- The MyAsset page when List has been clicked on its card, twice. -/
def listing : AssetPage Addr :=
  MyAsset.session [.click (shownBook 0) .list, .click (shownBook 0) .list]

/-- One digit in the field. -/
def digit (d : ℕ) (hd : d < 10) : Numeral where
  negative := false
  whole := [Nat.digitChar d]
  fraction := []
  exponent := none
  some_digits := Or.inl (by simp)
  whole_digits c hc := by
    obtain rfl := List.mem_singleton.1 hc
    simpa [Nat.isDigit_digitChar] using hd
  fraction_digits c hc := by cases hc

theorem oneOwned_market :
    marketAt (run (genesis : Chain Addr) oneOwned).1.objects (.derived 1 0) = some coinType := by
  decide +kernel

theorem oneOwned_book : freeAt (run genesis oneOwned).1.objects (shownBook 0).id =
    some (.address (.user 1), .bookNFT shortBook) := by
  decide +kernel

/-- A price of 0 is what is asked and shown. -/
theorem listForm_zero :
    pressList (.derived 1 0) 0 listing (.numeral (digit 0 (by decide))) =
      some (.list .bookNFT .sui (.derived 1 0) (shownBook 0).id 0) ∧
    AskedAsTyped (run genesis oneOwned).1 (.user 1) (.derived 1 0) 0 listing
      (.numeral (digit 0 (by decide))) := by
  obtain ⟨hc, hr⟩ := run_history oneOwned
  have hf := oneOwned_book
  refine ⟨by decide +kernel, (listForm hc hr oneOwned_market rfl rfl hf 0 _).2 ?_⟩
  exact fun _ _ => Or.inl rfl

/-- The empty field lists the NFT for nothing, and 5 for five base units. -/
theorem listForm_wrong :
    pressList (.derived 1 0) 0 listing .empty =
      some (.list .bookNFT .sui (.derived 1 0) (shownBook 0).id 0) ∧
    ¬ AskedAsTyped (run genesis oneOwned).1 (.user 1) (.derived 1 0) 0 listing .empty ∧
    pressList (.derived 1 0) 0 listing (.numeral (digit 5 (by decide))) =
      some (.list .bookNFT .sui (.derived 1 0) (shownBook 0).id 5) ∧
    ¬ AskedAsTyped (run genesis oneOwned).1 (.user 1) (.derived 1 0) 0 listing
      (.numeral (digit 5 (by decide))) := by
  have hempty : pressList (.derived 1 0) 0 listing .empty =
      some (.list .bookNFT .sui (.derived 1 0) (shownBook 0).id 0) := by decide +kernel
  have hfive : pressList (.derived 1 0) 0 listing (.numeral (digit 5 (by decide))) =
      some (.list .bookNFT .sui (.derived 1 0) (shownBook 0).id 5) := by decide +kernel
  obtain ⟨hc, hr⟩ := run_history oneOwned
  have hf := oneOwned_book
  refine ⟨hempty, fun h => ?_, hfive, fun h => ?_⟩
  · obtain ⟨n, hn, -⟩ := h _ hempty
    cases hn
  · obtain ⟨n, hn, -, nft', hp, c', es, L, he, hL, hprice⟩ := h _ hfive
    cases hn
    cases hp
    obtain ⟨c₁, es₁, L₁, he₁, hL₁, hask⟩ := hc.list_ask hr oneOwned_market hf 5
    cases he.symm.trans he₁
    cases hL.symm.trans hL₁
    rw [cardPrice, hask, Numeral.value_of_isInteger _ ⟨rfl, rfl⟩] at hprice
    exact absurd (eq_zero_of_div_eq hprice) (by decide)

end BookMarket
