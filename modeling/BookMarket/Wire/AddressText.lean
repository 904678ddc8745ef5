import Mathlib.Data.List.DropRight
import Mathlib.Data.Nat.Digits.Defs
import Mathlib.Tactic.Linarith
import Mathlib.Tactic.IntervalCases

/-!
# Addresses as texts

An address is 32 bytes.  On a page it is a text, and the SDK turns one into the other:
`bcs.Address` reads the text that was typed, and writes the text that is displayed.

Reading never looks whether the text is hexadecimal.  What is too short is padded, what
is no number counts as zero, and only a text that is too long is refused.

* `JsString` — a text, as the browser holds it.
* `normalizeSuiAddress`, `fromHEX`, `toHEX`, `addressInput`, `addressOutput` — the
  functions of the SDK.
* `addressValue` — the number a hexadecimal text is written for.
* `addressTexts` — **every address is read back from its text, every hexadecimal text is
  read as its number, and of all other texts exactly the long ones are refused.**
-/

namespace BookMarket.Wire

/-! ## Texts -/

/-- A text: its UTF-16 units. -/
abbrev JsString := List UInt16

/-- What holds of every unit of a text is decided along the text, not unit by unit of all
there are. -/
instance (s : JsString) (p : UInt16 → Prop) [DecidablePred p] : Decidable (∀ u ∈ s, p u) :=
  List.decidableBAll p s

/-- The unit of an ASCII character. -/
def unit (c : Char) : UInt16 := UInt16.ofNat c.toNat

/-- An ASCII literal. -/
def js (s : String) : JsString := s.toList.map unit

/-- A unit that stands for a character by itself.  A surrogate does not, and is replaced. -/
def unitChar (u : UInt16) : Char :=
  if 0xD800 ≤ u ∧ u ≤ 0xDFFF then Char.ofNat 0xFFFD else Char.ofNat u.toNat

/-- The characters of a text. -/
def codePoints : JsString → List Char
  | u :: v :: s =>
    if (0xD800 ≤ u ∧ u ≤ 0xDBFF) ∧ 0xDC00 ≤ v ∧ v ≤ 0xDFFF then
      Char.ofNat (0x10000 + (u.toNat - 0xD800) * 0x400 + (v.toNat - 0xDC00)) :: codePoints s
    else unitChar u :: codePoints (v :: s)
  | [u] => [unitChar u]
  | [] => []

/-- What `.` of a regular expression does not match. -/
def isLineTerminator (u : UInt16) : Bool :=
  u = 0x0A || u = 0x0D || u = 0x2028 || u = 0x2029

/-- What `trim` removes: the line terminators and the white space. -/
def isSpace (u : UInt16) : Bool :=
  isLineTerminator u || u = 0x09 || u = 0x0B || u = 0x0C || u = 0x20 || u = 0xA0 ||
    u = 0xFEFF || u = 0x1680 || (0x2000 ≤ u && u ≤ 0x200A) || u = 0x202F || u = 0x205F ||
    u = 0x3000

/-- Lower case of an ASCII character. -/
def asciiLower (u : UInt16) : UInt16 := if 0x41 ≤ u ∧ u ≤ 0x5A then u + 0x20 else u

/-- `toLowerCase` goes by the tables of Unicode.  Nothing here depends on what it does to
texts that are not ASCII. -/
structure LowerCase where
  toLowerCase : JsString → JsString
  ascii : ∀ s, (∀ u ∈ s, u < 0x80) → toLowerCase s = s.map asciiLower

/-- `padStart`. -/
def padStart (s : JsString) (targetLength : ℕ) (padString : UInt16) : JsString :=
  List.replicate (targetLength - s.length) padString ++ s

/-- `startsWith('0x')` and `slice(2)`. -/
def strip0x (s : JsString) : JsString := if js "0x" <+: s then s.drop 2 else s

/-! ## Numbers -/

/-- The value of a digit. -/
def hexDigit (u : UInt16) : Option ℕ :=
  if 0x30 ≤ u ∧ u ≤ 0x39 then some (u.toNat - 0x30)
  else if 0x61 ≤ u ∧ u ≤ 0x66 then some (u.toNat - 0x57)
  else if 0x41 ≤ u ∧ u ≤ 0x46 then some (u.toNat - 0x37)
  else none

/-- The number digits stand for. -/
def digitsValue (s : JsString) : ℕ :=
  s.foldl (fun n u => n * 16 + (hexDigit u).getD 0) 0

/-- A sign in front. -/
def dropSign (s : JsString) : JsString :=
  if s.head? = some 0x2B ∨ s.head? = some 0x2D then s.tail else s

/-- A `0x` in front, in either case. -/
def dropRadix (s : JsString) : JsString :=
  if s.take 2 = js "0x" ∨ s.take 2 = js "0X" then s.drop 2 else s

/-- `parseInt(s, 16)`: white space, a sign, `0x`, and then the digits there are.  Without
any digit it is `NaN`. -/
def parseInt16 (s : JsString) : Option ℤ :=
  let s := s.dropWhile isSpace
  let sign : ℤ := if s.head? = some 0x2D then -1 else 1
  let digits := (dropRadix (dropSign s)).takeWhile fun u => (hexDigit u).isSome
  if digits = [] then none else some (sign * digitsValue digits)

/-- How a number gets into a `Uint8Array`. -/
def toUint8 : Option ℤ → UInt8
  | none => 0
  | some n => UInt8.ofNat (n % 256).toNat

/-- `match(/.{2}/g)`: the next two units that are no line terminators, again and again. -/
def matchPairs : JsString → List JsString
  | a :: b :: s =>
    if isLineTerminator a then matchPairs (b :: s)
    else if isLineTerminator b then matchPairs s
    else [a, b] :: matchPairs s
  | _ => []

/-- `fromHEX`.  A text of odd length gets a `0` in front, and a brace at the end. -/
def fromHEX (hexStr : JsString) : List UInt8 :=
  let normalized := strip0x hexStr
  let padded :=
    if normalized.length % 2 = 0 then normalized else js "0" ++ normalized ++ js "\x7d"
  (matchPairs padded).map fun byte => toUint8 (parseInt16 byte)

/-- `byte.toString(16)`. -/
def toString16 (byte : UInt8) : JsString := (Nat.toDigits 16 byte.toNat).map unit

/-- `toHEX`. -/
def toHEX (bytes : List UInt8) : JsString :=
  bytes.foldl (fun str byte => str ++ padStart (toString16 byte) 2 0x30) []

/-! ## Addresses -/

/-- `SUI_ADDRESS_LENGTH`. -/
def suiAddressLength : ℕ := 32

/-- `normalizeSuiAddress`, with `forceAdd0x` off. -/
def normalizeSuiAddress (lower : LowerCase) (value : JsString) : JsString :=
  js "0x" ++ padStart (strip0x (lower.toLowerCase value)) (suiAddressLength * 2) 0x30

/-- `bcs.Address` on a text: `input`, and the check of `bcs.bytes`. -/
def addressInput (lower : LowerCase) (val : JsString) : Except String (List UInt8) :=
  let bytes := fromHEX (normalizeSuiAddress lower val)
  if bytes.length = suiAddressLength then .ok bytes
  else .error ("Expected array of length 32, found " ++ toString bytes.length)

/-- `bcs.Address` on bytes that were read: `output`. -/
def addressOutput (lower : LowerCase) (val : List UInt8) : JsString :=
  normalizeSuiAddress lower (toHEX val)

/-- What is typed, without the `0x`. -/
def typedDigits (lower : LowerCase) (val : JsString) : JsString :=
  strip0x (lower.toLowerCase val)

/-- The number the bytes of an address stand for. -/
def addressValue (bytes : List UInt8) : ℕ :=
  bytes.foldl (fun n b => n * 256 + b.toNat) 0

/-! ## Digits -/

/-- The digits there are. -/
def hexUnits : JsString := js "0123456789abcdefABCDEF"

theorem mem_hexUnits {u : UInt16} (h : (hexDigit u).isSome = true) : u ∈ hexUnits := by
  have hu : u = UInt16.ofNat u.toNat := UInt16.ofNat_toNat.symm
  simp only [hexDigit, UInt16.le_iff_toNat_le] at h
  rw [hu]
  generalize u.toNat = n at h
  have hn : (0x30 ≤ n ∧ n ≤ 0x39) ∨ (0x61 ≤ n ∧ n ≤ 0x66) ∨ (0x41 ≤ n ∧ n ≤ 0x46) := by
    by_contra hno
    push Not at hno
    simp only [UInt16.reduceToNat] at h
    rw [if_neg (by omega), if_neg (by omega), if_neg (by omega)] at h
    cases h
  rcases hn with ⟨h1, h2⟩ | ⟨h1, h2⟩ | ⟨h1, h2⟩ <;> interval_cases n <;> decide

theorem hexDigit_lt {u : UInt16} : (hexDigit u).getD 0 < 16 := by
  by_cases h : (hexDigit u).isSome = true
  · have hall : ∀ u ∈ hexUnits, (hexDigit u).getD 0 < 16 := by decide
    exact hall u (mem_hexUnits h)
  · rw [Option.not_isSome_iff_eq_none.1 h]
    decide

/-- What is known of a digit without looking at it. -/
theorem hexDigit_facts {u : UInt16} (h : (hexDigit u).isSome = true) :
    u < 0x80 ∧ isLineTerminator u = false ∧ u ≠ 0x78 ∧
      hexDigit (asciiLower u) = hexDigit u := by
  have hall : ∀ u ∈ hexUnits, u < 0x80 ∧ isLineTerminator u = false ∧ u ≠ 0x78 ∧
      hexDigit (asciiLower u) = hexDigit u := by decide
  exact hall u (mem_hexUnits h)

/-- It is none of the things `parseInt` looks for before the digits. -/
theorem hexDigit_plain {u : UInt16} (h : (hexDigit u).isSome = true) :
    isSpace u = false ∧ u ≠ 0x2B ∧ u ≠ 0x2D ∧ u ≠ 0x78 ∧ u ≠ 0x58 := by
  have hall : ∀ u ∈ hexUnits, isSpace u = false ∧ u ≠ 0x2B ∧ u ≠ 0x2D ∧ u ≠ 0x78 ∧ u ≠ 0x58 := by
    decide
  exact hall u (mem_hexUnits h)

/-- A text of digits. -/
def AllHex (s : JsString) : Prop := ∀ u ∈ s, (hexDigit u).isSome = true

/-- A text on one line. -/
def OneLine (s : JsString) : Prop := ∀ u ∈ s, isLineTerminator u = false

theorem AllHex.oneLine {s : JsString} (h : AllHex s) : OneLine s :=
  fun u hu => (hexDigit_facts (h u hu)).2.1

theorem AllHex.append {s t : JsString} (hs : AllHex s) (ht : AllHex t) : AllHex (s ++ t) := by
  intro u hu
  rcases List.mem_append.1 hu with hu | hu
  · exact hs u hu
  · exact ht u hu

theorem OneLine.append {s t : JsString} (hs : OneLine s) (ht : OneLine t) : OneLine (s ++ t) := by
  intro u hu
  rcases List.mem_append.1 hu with hu | hu
  · exact hs u hu
  · exact ht u hu

theorem oneLine_replicate (n : ℕ) : OneLine (List.replicate n 0x30) := by
  intro u hu
  rw [List.eq_of_mem_replicate hu]
  decide

theorem allHex_replicate (n : ℕ) : AllHex (List.replicate n 0x30) := by
  intro u hu
  rw [List.eq_of_mem_replicate hu]
  decide

theorem AllHex.map_asciiLower {s : JsString} (h : AllHex s) : AllHex (s.map asciiLower) := by
  intro u hu
  obtain ⟨v, hv, rfl⟩ := List.mem_map.1 hu
  rw [(hexDigit_facts (h v hv)).2.2.2]
  exact h v hv

/-- Digits are a number. -/
theorem AllHex.parseInt16 {s : JsString} (h : AllHex s) (hne : s ≠ []) :
    parseInt16 s = some (digitsValue s : ℤ) := by
  obtain ⟨a, t, rfl⟩ := List.exists_cons_of_ne_nil hne
  obtain ⟨hspace, hplus, hminus, -⟩ := hexDigit_plain (h a (by simp))
  have hradix : ¬ ((a :: t).take 2 = js "0x" ∨ (a :: t).take 2 = js "0X") := by
    have hno (x : UInt16) (hx : x = 0x78 ∨ x = 0x58) : x ∉ (a :: t).take 2 := by
      intro hmem
      have := hexDigit_plain (h x (List.mem_of_mem_take hmem))
      exact hx.elim this.2.2.2.1 this.2.2.2.2
    rintro (heq | heq)
    · exact hno 0x78 (.inl rfl) (by rw [heq]; decide)
    · exact hno 0x58 (.inr rfl) (by rw [heq]; decide)
  have hskip : (a :: t).dropWhile isSpace = a :: t := by simp [hspace]
  have hsign : dropSign (a :: t) = a :: t := if_neg (by simp [hplus, hminus])
  have hdrop : dropRadix (a :: t) = a :: t := if_neg hradix
  have htake : (a :: t).takeWhile (fun u => (hexDigit u).isSome) = a :: t :=
    List.takeWhile_eq_self_iff.2 h
  simp only [Wire.parseInt16, hskip, hsign, hdrop, htake]
  simp [hminus]

/-! ## Two units at a time -/

theorem matchPairs_cons {a b : UInt16} {s : JsString} (ha : isLineTerminator a = false)
    (hb : isLineTerminator b = false) : matchPairs (a :: b :: s) = [a, b] :: matchPairs s := by
  simp [matchPairs, ha, hb]

/-- On one line, all the units are used, but for the last one of an odd number. -/
theorem length_matchPairs {s : JsString} (h : OneLine s) :
    (matchPairs s).length = s.length / 2 := by
  induction s using List.twoStepInduction with
  | nil => rfl
  | singleton a => simp [matchPairs]
  | cons_cons a b s ih _ =>
    rw [matchPairs_cons (h a (by simp)) (h b (by simp)), List.length_cons,
      ih fun u hu => h u (by simp [hu])]
    simp only [List.length_cons]
    omega

/-- Two digits are a byte. -/
theorem toUint8_parseInt16_pair {a b : UInt16} (ha : (hexDigit a).isSome = true)
    (hb : (hexDigit b).isSome = true) :
    toUint8 (parseInt16 [a, b]) = UInt8.ofNat ((hexDigit a).getD 0 * 16 + (hexDigit b).getD 0) := by
  have hhex : AllHex [a, b] := by
    intro u hu
    simp only [List.mem_cons, List.not_mem_nil, or_false] at hu
    rcases hu with rfl | rfl
    · exact ha
    · exact hb
  have hlt : (hexDigit a).getD 0 * 16 + (hexDigit b).getD 0 < 256 := by
    have := @hexDigit_lt a
    have := @hexDigit_lt b
    omega
  have hvalue : digitsValue [a, b] = (hexDigit a).getD 0 * 16 + (hexDigit b).getD 0 := by
    simp [digitsValue]
  rw [hhex.parseInt16 (by simp), hvalue, toUint8]
  congr 1
  omega

/-- The bytes of an even number of digits are the number the digits are. -/
theorem foldl_matchPairs {s : JsString} (h : AllHex s) (heven : s.length % 2 = 0) (n : ℕ) :
    ((matchPairs s).map fun byte => toUint8 (parseInt16 byte)).foldl
      (fun n b => n * 256 + b.toNat) n = s.foldl (fun n u => n * 16 + (hexDigit u).getD 0) n := by
  induction s using List.twoStepInduction generalizing n with
  | nil => rfl
  | singleton a => cases heven
  | cons_cons a b s ih _ =>
    have ha := h a (by simp)
    have hb := h b (by simp)
    have hlt : (hexDigit a).getD 0 * 16 + (hexDigit b).getD 0 < 256 := by
      have := @hexDigit_lt a
      have := @hexDigit_lt b
      omega
    rw [matchPairs_cons (hexDigit_facts ha).2.1 (hexDigit_facts hb).2.1, List.map_cons,
      List.foldl_cons, ih (fun u hu => h u (by simp [hu])) (by simp at heven; omega),
      toUint8_parseInt16_pair ha hb, UInt8.toNat_ofNat_of_lt' hlt, List.foldl_cons, List.foldl_cons]
    congr 1
    ring

/-! ## Bytes as digits -/

/-- The two digits of a byte. -/
def hexPair (byte : UInt8) : JsString := padStart (toString16 byte) 2 0x30

/-- A digit in lower case. -/
def lowDigit (n : ℕ) : UInt16 := unit n.digitChar

theorem lowDigit_facts {n : ℕ} (h : n < 16) :
    hexDigit (lowDigit n) = some n ∧ asciiLower (lowDigit n) = lowDigit n := by
  have hall : ∀ n : Fin 16, hexDigit (lowDigit n) = some (n : ℕ) ∧
      asciiLower (lowDigit n) = lowDigit n := by decide
  exact hall ⟨n, h⟩

theorem lowDigit_hexDigit {u : UInt16} (h : (hexDigit u).isSome = true) :
    lowDigit ((hexDigit u).getD 0) = asciiLower u := by
  have hall : ∀ u ∈ hexUnits, lowDigit ((hexDigit u).getD 0) = asciiLower u := by decide
  exact hall u (mem_hexUnits h)

theorem hexPair_eq (byte : UInt8) :
    hexPair byte = [lowDigit (byte.toNat / 16), lowDigit (byte.toNat % 16)] := by
  have hlt := byte.toNat_lt
  rw [hexPair, toString16]
  by_cases h : byte.toNat < 16
  · -- one digit, and a zero in front of it
    rw [Nat.toDigits_of_lt_base h, Nat.div_eq_of_lt h, Nat.mod_eq_of_lt h]
    rfl
  · rw [Nat.toDigits_of_base_le (by decide) (by omega), Nat.toDigits_of_lt_base (by omega)]
    rfl

/-- They are digits in lower case, two of them, and read back as the byte. -/
theorem hexPair_facts (byte : UInt8) :
    (hexPair byte).length = 2 ∧ AllHex (hexPair byte) ∧
      (hexPair byte).map asciiLower = hexPair byte ∧
      toUint8 (parseInt16 (hexPair byte)) = byte := by
  have hlt := byte.toNat_lt
  obtain ⟨hhigh, hhigh'⟩ := @lowDigit_facts (byte.toNat / 16) (by omega)
  obtain ⟨hlow, hlow'⟩ := @lowDigit_facts (byte.toNat % 16) (by omega)
  rw [hexPair_eq]
  refine ⟨rfl, ?_, by rw [List.map_cons, List.map_cons, hhigh', hlow', List.map_nil], ?_⟩
  · intro u hu
    simp only [List.mem_cons, List.not_mem_nil, or_false] at hu
    rcases hu with rfl | rfl
    · rw [hhigh]
      rfl
    · rw [hlow]
      rfl
  · rw [toUint8_parseInt16_pair (by rw [hhigh]; rfl) (by rw [hlow]; rfl), hhigh, hlow,
      Option.getD_some, Option.getD_some, Nat.div_add_mod', UInt8.ofNat_toNat]

theorem toHEX_eq (bytes : List UInt8) : toHEX bytes = bytes.flatMap hexPair := by
  have hfold (str : JsString) :
      bytes.foldl (fun str byte => str ++ hexPair byte) str = str ++ bytes.flatMap hexPair := by
    induction bytes generalizing str with
    | nil => simp
    | cons b bytes ih => simp [ih]
  exact hfold []

theorem allHex_toHEX (bytes : List UInt8) : AllHex (toHEX bytes) := by
  intro u hu
  rw [toHEX_eq] at hu
  obtain ⟨b, -, hu⟩ := List.mem_flatMap.1 hu
  exact (hexPair_facts b).2.1 u hu

theorem length_toHEX (bytes : List UInt8) : (toHEX bytes).length = bytes.length * 2 := by
  rw [toHEX_eq]
  induction bytes with
  | nil => rfl
  | cons b bytes ih =>
    rw [List.flatMap_cons, List.length_append, ih, (hexPair_facts b).1, List.length_cons]
    omega

theorem map_asciiLower_toHEX (bytes : List UInt8) :
    (toHEX bytes).map asciiLower = toHEX bytes := by
  rw [toHEX_eq, List.map_flatMap]
  congr 1
  funext b
  exact (hexPair_facts b).2.2.1

/-- **The digits of bytes are read back as the bytes.** -/
theorem matchPairs_toHEX (bytes : List UInt8) :
    (matchPairs (toHEX bytes)).map (fun byte => toUint8 (parseInt16 byte)) = bytes := by
  rw [toHEX_eq]
  induction bytes with
  | nil => rfl
  | cons b bytes ih =>
    obtain ⟨hlen, hhex, -, hread⟩ := hexPair_facts b
    obtain ⟨x, y, hxy⟩ := List.length_eq_two.1 hlen
    rw [hxy] at hhex hread
    rw [List.flatMap_cons, hxy, List.cons_append, List.cons_append, List.nil_append,
      matchPairs_cons (hhex.oneLine x (by simp)) (hhex.oneLine y (by simp)), List.map_cons, hread,
      ih]

theorem hexPair_of_digits {a b : UInt16} (ha : (hexDigit a).isSome = true)
    (hb : (hexDigit b).isSome = true) :
    hexPair (toUint8 (parseInt16 [asciiLower a, asciiLower b])) = [asciiLower a, asciiLower b] := by
  have hla := (hexDigit_facts ha).2.2.2
  have hlb := (hexDigit_facts hb).2.2.2
  have hlt := @hexDigit_lt a
  have hlt' := @hexDigit_lt b
  rw [toUint8_parseInt16_pair (by rw [hla]; exact ha) (by rw [hlb]; exact hb), hla, hlb, hexPair_eq,
    UInt8.toNat_ofNat_of_lt' (by rw [UInt8.size]; omega), ← lowDigit_hexDigit ha,
    ← lowDigit_hexDigit hb]
  congr 3 <;> omega

/-- And the text of bytes that were read from digits is the digits, in lower case. -/
theorem toHEX_matchPairs {s : JsString} (h : AllHex s) (heven : s.length % 2 = 0) :
    toHEX ((matchPairs (s.map asciiLower)).map fun byte => toUint8 (parseInt16 byte)) =
      s.map asciiLower := by
  rw [toHEX_eq]
  induction s using List.twoStepInduction with
  | nil => rfl
  | singleton a => cases heven
  | cons_cons a b s ih _ =>
    have hline := h.map_asciiLower.oneLine
    have hpair := hexPair_of_digits (h a (by simp)) (h b (by simp))
    rw [List.map_cons, List.map_cons, matchPairs_cons (hline _ (by simp)) (hline _ (by simp)),
      List.map_cons, List.flatMap_cons, hpair,
      ih (fun u hu => h u (by simp [hu])) (by simp at heven; omega)]
    rfl

/-! ## What is typed -/

@[simp] theorem strip0x_append (s : JsString) : strip0x (js "0x" ++ s) = s := by
  rw [strip0x, if_pos (List.prefix_append _ _)]
  rfl

/-- Digits do not begin with `0x`. -/
theorem AllHex.strip0x {s : JsString} (h : AllHex s) : strip0x s = s := by
  refine if_neg fun hpre => ?_
  have hx : (0x78 : UInt16) ∈ s := hpre.subset (by decide)
  exact (hexDigit_facts (h _ hx)).2.2.1 rfl

theorem length_padStart {s : JsString} {n : ℕ} {u : UInt16} :
    (padStart s n u).length = max n s.length := by
  rw [padStart, List.length_append, List.length_replicate]
  omega

theorem normalizeSuiAddress_eq (lower : LowerCase) (val : JsString) :
    normalizeSuiAddress lower val = js "0x" ++ padStart (typedDigits lower val) 64 0x30 :=
  rfl

theorem OneLine.padStart {s : JsString} (h : OneLine s) (n : ℕ) :
    OneLine (padStart s n 0x30) :=
  (oneLine_replicate _).append h

theorem AllHex.padStart {s : JsString} (h : AllHex s) (n : ℕ) : AllHex (padStart s n 0x30) :=
  (allHex_replicate _).append h

section Input

variable {lower : LowerCase} {val : JsString}

/-- The bytes of what is typed, when it is not too long. -/
def typedBytes (lower : LowerCase) (val : JsString) : List UInt8 :=
  (matchPairs (padStart (typedDigits lower val) 64 0x30)).map fun byte => toUint8 (parseInt16 byte)

theorem length_typedBytes (hline : OneLine (typedDigits lower val))
    (hle : (typedDigits lower val).length ≤ 64) : (typedBytes lower val).length = 32 := by
  rw [typedBytes, List.length_map, length_matchPairs (hline.padStart 64), length_padStart,
    max_eq_left hle]

theorem fromHEX_normalizeSuiAddress (hle : (typedDigits lower val).length ≤ 64) :
    fromHEX (normalizeSuiAddress lower val) = typedBytes lower val := by
  have heven : (padStart (typedDigits lower val) 64 0x30).length % 2 = 0 := by
    rw [length_padStart, max_eq_left hle]
  simp only [fromHEX, normalizeSuiAddress_eq, strip0x_append, if_pos heven]
  rfl

theorem fromHEX_of_addressInput {bytes : List UInt8} (h : addressInput lower val = .ok bytes) :
    fromHEX (normalizeSuiAddress lower val) = bytes := by
  simp only [addressInput] at h
  split at h
  · exact Except.ok.inj h
  · cases h

/-- **What is not too long is an address, whatever it is.** -/
theorem addressInput_short (hline : OneLine (typedDigits lower val))
    (hle : (typedDigits lower val).length ≤ 64) :
    addressInput lower val = .ok (typedBytes lower val) := by
  simp only [addressInput, fromHEX_normalizeSuiAddress hle]
  exact if_pos (length_typedBytes hline hle)

/-- What is too long is refused. -/
theorem addressInput_long (hline : OneLine (typedDigits lower val))
    (hlt : 64 < (typedDigits lower val).length) :
    addressInput lower val = .error ("Expected array of length 32, found " ++
      toString (((typedDigits lower val).length + 1) / 2)) := by
  have hpad : padStart (typedDigits lower val) 64 0x30 = typedDigits lower val := by
    rw [padStart, Nat.sub_eq_zero_of_le hlt.le]
    rfl
  have hlen : (fromHEX (normalizeSuiAddress lower val)).length =
      ((typedDigits lower val).length + 1) / 2 := by
    simp only [fromHEX, normalizeSuiAddress_eq, strip0x_append, hpad, List.length_map]
    split
    · rw [length_matchPairs hline]
      omega
    · -- the brace is the unit that is left over
      rw [length_matchPairs (((by unfold OneLine; decide : OneLine (js "0")).append hline).append
        (by unfold OneLine; decide))]
      simp only [List.length_append]
      have : (js "0").length = 1 := rfl
      have : (js "\x7d").length = 1 := rfl
      omega
  simp only [addressInput, hlen]
  refine if_neg ?_
  rw [suiAddressLength]
  omega

/-- Without a digit that counts, a number is zero, or none. -/
theorem toUint8_parseInt16_eq_zero {s : JsString} (h : ∀ u ∈ s, (hexDigit u).getD 0 = 0) :
    toUint8 (parseInt16 s) = 0 := by
  have hfold (t : JsString) (ht : t ⊆ s) : digitsValue t = 0 := by
    unfold digitsValue
    induction t with
    | nil => rfl
    | cons u t ih =>
      rw [List.foldl_cons, h u (ht (by simp))]
      exact ih fun v hv => ht (by simp [hv])
  have hsign (t : JsString) : dropSign t ⊆ t := by
    rw [dropSign]
    split
    · exact (List.tail_suffix t).subset
    · exact List.Subset.refl t
  have hradix (t : JsString) : dropRadix t ⊆ t := by
    rw [dropRadix]
    split
    · exact List.drop_subset 2 t
    · exact List.Subset.refl t
  simp only [parseInt16]
  split
  · rfl
  · -- what is left of the text is a part of it
    rw [hfold _ fun u hu => ?_, Nat.cast_zero, mul_zero]
    · rfl
    · exact (List.dropWhile_suffix _).subset (hsign _ (hradix _ (List.takeWhile_subset _ hu)))

theorem mem_of_mem_matchPairs {s p : JsString} {u : UInt16} (hp : p ∈ matchPairs s) (hu : u ∈ p) :
    u ∈ s := by
  fun_induction matchPairs s with
  | case1 a b s ha ih => exact List.mem_cons_of_mem _ (ih hp)
  | case2 a b s ha hb ih => exact List.mem_cons_of_mem _ (List.mem_cons_of_mem _ (ih hp))
  | case3 a b s ha hb ih =>
    rcases List.mem_cons.1 hp with rfl | hp
    · simp only [List.mem_cons, List.not_mem_nil, or_false] at hu ⊢
      exact hu.elim .inl fun h => .inr (.inl h)
    · exact List.mem_cons_of_mem _ (List.mem_cons_of_mem _ (ih hp))
  | case4 => cases hp

/-- **A text without any digit is the address zero.** -/
theorem typedBytes_of_no_digit (hline : OneLine (typedDigits lower val))
    (hle : (typedDigits lower val).length ≤ 64)
    (hno : ∀ u ∈ typedDigits lower val, hexDigit u = none) :
    typedBytes lower val = List.replicate 32 0 := by
  refine List.eq_replicate_iff.2 ⟨length_typedBytes hline hle, fun b hb => ?_⟩
  obtain ⟨p, hp, rfl⟩ := List.mem_map.1 hb
  refine toUint8_parseInt16_eq_zero fun u hu => ?_
  rcases List.mem_append.1 (mem_of_mem_matchPairs hp hu) with hu | hu
  · rw [List.eq_of_mem_replicate hu]
    decide
  · rw [hno u hu]
    rfl

/-- A hexadecimal text, and its digits. -/
structure HexText (val digits : JsString) : Prop where
  spelled : val = digits ∨ val = js "0x" ++ digits ∨ val = js "0X" ++ digits
  hex : AllHex digits
  length_le : digits.length ≤ 64

theorem HexText.typedDigits {digits : JsString} (h : HexText val digits) (lower : LowerCase) :
    typedDigits lower val = digits.map asciiLower := by
  have hascii (pre : JsString) (hpre : ∀ u ∈ pre, u < 0x80) :
      lower.toLowerCase (pre ++ digits) = pre.map asciiLower ++ digits.map asciiLower := by
    rw [← List.map_append]
    refine lower.ascii _ fun u hu => ?_
    rcases List.mem_append.1 hu with hu | hu
    · exact hpre u hu
    · exact (hexDigit_facts (h.hex u hu)).1
  unfold Wire.typedDigits
  rcases h.spelled with rfl | rfl | rfl
  · have := hascii [] (by simp)
    simp only [List.nil_append, List.map_nil] at this
    rw [this, h.hex.map_asciiLower.strip0x]
  · rw [hascii _ (by decide)]
    exact strip0x_append _
  · rw [hascii _ (by decide)]
    exact strip0x_append _

theorem digitsValue_padStart {digits : JsString} (h : AllHex digits) (n : ℕ) :
    digitsValue (padStart (digits.map asciiLower) n 0x30) = digitsValue digits := by
  have hzero (k : ℕ) : (List.replicate k (0x30 : UInt16)).foldl
      (fun n u => n * 16 + (hexDigit u).getD 0) 0 = 0 := by
    induction k with
    | zero => rfl
    | succ k ih => exact ih
  rw [digitsValue, padStart, List.foldl_append, hzero, List.foldl_map, digitsValue]
  refine List.foldl_ext _ _ _ fun n u hu => ?_
  rw [(hexDigit_facts (h u hu)).2.2.2]

/-- An address is the only one with its number. -/
theorem addressValue_injective {b₁ b₂ : List UInt8} (hlen : b₁.length = b₂.length)
    (h : addressValue b₁ = addressValue b₂) : b₁ = b₂ := by
  induction b₁ using List.reverseRecOn generalizing b₂ with
  | nil => exact (List.length_eq_zero_iff.1 hlen.symm).symm
  | append_singleton b₁ x ih =>
    cases b₂ using List.reverseRecOn with
    | nil => simp at hlen
    | append_singleton b₂ y =>
      simp only [addressValue, List.foldl_append, List.foldl_cons, List.foldl_nil] at h
      have hx := x.toNat_lt
      have hy := y.toNat_lt
      have hxy : x = y := by
        apply UInt8.toNat_inj.1
        omega
      rw [ih (by simpa using hlen) (by unfold addressValue; omega), hxy]

end Input

/-! ## The text of an address -/

theorem hexText_toHEX {bytes : List UInt8} (hlen : bytes.length = 32) {pre : JsString}
    (hpre : pre = [] ∨ pre = js "0x") : HexText (pre ++ toHEX bytes) (toHEX bytes) := by
  refine ⟨?_, allHex_toHEX bytes, by rw [length_toHEX, hlen]⟩
  rcases hpre with rfl | rfl
  · exact .inl rfl
  · exact .inr (.inl rfl)

theorem typedDigits_toHEX (lower : LowerCase) {bytes : List UInt8} (hlen : bytes.length = 32)
    {pre : JsString} (hpre : pre = [] ∨ pre = js "0x") :
    typedDigits lower (pre ++ toHEX bytes) = toHEX bytes :=
  ((hexText_toHEX hlen hpre).typedDigits lower).trans (map_asciiLower_toHEX bytes)

theorem padStart_toHEX {bytes : List UInt8} (hlen : bytes.length = 32) :
    padStart (toHEX bytes) 64 0x30 = toHEX bytes := by
  rw [padStart, length_toHEX, hlen]
  rfl

theorem addressOutput_eq (lower : LowerCase) {bytes : List UInt8} (hlen : bytes.length = 32) :
    addressOutput lower bytes = js "0x" ++ toHEX bytes := by
  have htyped := typedDigits_toHEX lower hlen (.inl rfl)
  rw [List.nil_append] at htyped
  rw [addressOutput, normalizeSuiAddress_eq, htyped, padStart_toHEX hlen]

/-- **Every address is read back from its text.** -/
theorem addressInput_addressOutput (lower : LowerCase) {bytes : List UInt8}
    (hlen : bytes.length = 32) : addressInput lower (addressOutput lower bytes) = .ok bytes := by
  have htyped := typedDigits_toHEX lower hlen (.inr rfl)
  have hline : OneLine (typedDigits lower (js "0x" ++ toHEX bytes)) := by
    rw [htyped]
    exact (allHex_toHEX bytes).oneLine
  have hle : (typedDigits lower (js "0x" ++ toHEX bytes)).length ≤ 64 := by
    rw [htyped, length_toHEX, hlen]
  rw [addressOutput_eq lower hlen, addressInput_short hline hle, typedBytes, htyped,
    padStart_toHEX hlen, matchPairs_toHEX]

/-! ## The address of a hexadecimal text -/

namespace HexText

variable {val digits : JsString} (h : HexText val digits) (lower : LowerCase)
include h

theorem oneLine : OneLine (Wire.typedDigits lower val) := by
  rw [h.typedDigits lower]
  exact h.hex.map_asciiLower.oneLine

theorem length_typedDigits : (Wire.typedDigits lower val).length ≤ 64 := by
  rw [h.typedDigits lower, List.length_map]
  exact h.length_le

theorem even_padStart : (padStart (digits.map asciiLower) 64 0x30).length % 2 = 0 := by
  rw [length_padStart, List.length_map, max_eq_left h.length_le]

/-- It is its number, -/
theorem addressValue_typedBytes : addressValue (typedBytes lower val) = digitsValue digits := by
  rw [← digitsValue_padStart h.hex 64, addressValue, typedBytes, h.typedDigits lower,
    foldl_matchPairs (h.hex.map_asciiLower.padStart 64) h.even_padStart, digitsValue]

omit h in
/-- The zeros in front are in lower case, too. -/
theorem padStart_map_asciiLower (digits : JsString) :
    padStart (digits.map asciiLower) 64 0x30 = (padStart digits 64 0x30).map asciiLower := by
  simp [padStart, asciiLower]

/-- and is displayed in full length and lower case. -/
theorem addressOutput_typedBytes :
    addressOutput lower (typedBytes lower val) = normalizeSuiAddress lower val := by
  have heven := h.even_padStart
  rw [padStart_map_asciiLower, List.length_map] at heven
  rw [addressOutput_eq lower (length_typedBytes (h.oneLine lower) (h.length_typedDigits lower)),
    typedBytes, normalizeSuiAddress_eq, h.typedDigits lower, padStart_map_asciiLower,
    toHEX_matchPairs (h.hex.padStart 64) heven]

/-- The digits in full length, with `0x` or without it, are a text for the same address. -/
theorem full {pre : JsString} (hpre : pre = [] ∨ pre = js "0x") :
    HexText (pre ++ padStart (digits.map asciiLower) 64 0x30)
        (padStart (digits.map asciiLower) 64 0x30) ∧
      normalizeSuiAddress lower (pre ++ padStart (digits.map asciiLower) 64 0x30) =
        normalizeSuiAddress lower val := by
  have hlen : (padStart (digits.map asciiLower) 64 0x30).length = 64 := by
    rw [length_padStart, List.length_map, max_eq_left h.length_le]
  have hfull : HexText (pre ++ padStart (digits.map asciiLower) 64 0x30)
      (padStart (digits.map asciiLower) 64 0x30) := by
    refine ⟨?_, h.hex.map_asciiLower.padStart 64, hlen.le⟩
    rcases hpre with rfl | rfl
    · exact .inl rfl
    · exact .inr (.inl rfl)
  have hlow : (padStart (digits.map asciiLower) 64 0x30).map asciiLower =
      padStart (digits.map asciiLower) 64 0x30 := by
    rw [padStart_map_asciiLower, List.map_map]
    refine List.map_congr_left fun u hu => ?_
    obtain ⟨-, hidem⟩ := lowDigit_facts (@hexDigit_lt u)
    rw [lowDigit_hexDigit (h.hex.padStart 64 u hu)] at hidem
    exact hidem
  refine ⟨hfull, ?_⟩
  rw [normalizeSuiAddress_eq, hfull.typedDigits lower, hlow, padStart, hlen, normalizeSuiAddress_eq,
    h.typedDigits lower]
  rfl

end HexText

/-- **Addresses and their texts.**  Every address is read back from the text that is
displayed for it.  A hexadecimal text of at most 64 digits is read as the one address
that is its number, which is then displayed as that text in full length and lower case.
Any other text on one line is taken for an address as well, unless it is too long: there
is no check that it is a number, and where it has no digit at all it is the address
zero. -/
theorem addressTexts (lower : LowerCase) :
    (∀ bytes : List UInt8, bytes.length = suiAddressLength →
      addressInput lower (addressOutput lower bytes) = .ok bytes) ∧
    (∀ val digits bytes, HexText val digits →
      ((addressInput lower val = .ok bytes ↔
        bytes.length = suiAddressLength ∧ addressValue bytes = digitsValue digits) ∧
      (addressInput lower val = .ok bytes →
        addressOutput lower bytes = normalizeSuiAddress lower val))) ∧
    (∀ val, OneLine (typedDigits lower val) →
      ((typedDigits lower val).length ≤ 64 → ∃ bytes, addressInput lower val = .ok bytes ∧
        ((∀ u ∈ typedDigits lower val, hexDigit u = none) → bytes = List.replicate 32 0)) ∧
      (64 < (typedDigits lower val).length →
        addressInput lower val = .error ("Expected array of length 32, found " ++
          toString (((typedDigits lower val).length + 1) / 2)))) := by
  refine ⟨fun bytes hlen => ?_, fun val digits bytes h => ?_, fun val hline => ⟨fun hle => ?_, ?_⟩⟩
  · exact addressInput_addressOutput lower hlen
  · have hlen := length_typedBytes (h.oneLine lower) (h.length_typedDigits lower)
    have hvalue := h.addressValue_typedBytes lower
    rw [addressInput_short (h.oneLine lower) (h.length_typedDigits lower)]
    constructor
    · constructor
      · rintro ⟨⟩
        exact ⟨hlen, hvalue⟩
      · rintro ⟨hlen', hvalue'⟩
        rw [addressValue_injective (hlen'.trans hlen.symm) (hvalue'.trans hvalue.symm)]
    · rintro ⟨⟩
      exact h.addressOutput_typedBytes lower
  · exact ⟨_, addressInput_short hline hle, typedBytes_of_no_digit hline hle⟩
  · exact addressInput_long hline

/-- A `toLowerCase` that knows ASCII only. -/
def LowerCase.asciiOnly : LowerCase where
  toLowerCase := List.map asciiLower
  ascii _ _ := rfl

/-! The page accepts a word for a recipient, and sends to an address of its own making. -/

example : addressInput .asciiOnly (js "hello") = .ok (List.replicate 30 0 ++ [0x0E, 0]) := by
  decide +kernel

end BookMarket.Wire
