import Mathlib.Data.List.Basic
import BookMarket.Sui.Abort

/-!
# Strings and URLs

`std::string::String` holds well-formed UTF-8 and `std::ascii::String` holds
bytes up to `0x7F`; both are only ever built through a checking constructor, so
here the check is a field of the type.

* `internalCheckUtf8` — the native behind `string::utf8`, as the automaton that
  reads one byte at a time.
* `utf8`, `asciiString`, `newUnsafeFromBytes` — the constructors, with the
  abort each of them raises.
-/

namespace BookMarket

/-! ## UTF-8 -/

/-- What the decoder expects next: a new character, or one of the continuation
bytes of the character it is in.  The four ranges after `0xE0`, `0xED`, `0xF0`
and `0xF4` exclude overlong forms, surrogates and values past `U+10FFFF`. -/
inductive Utf8State
  | start
  | need1
  | need2
  | need3
  | afterE0
  | afterED
  | afterF0
  | afterF4
  | fail
  deriving DecidableEq, Repr

/-- One byte of the decoder. -/
def Utf8State.step (s : Utf8State) (b : UInt8) : Utf8State :=
  match s with
  | .start =>
    if b ≤ 0x7F then .start
    else if 0xC2 ≤ b ∧ b ≤ 0xDF then .need1
    else if b = 0xE0 then .afterE0
    else if b = 0xED then .afterED
    else if 0xE1 ≤ b ∧ b ≤ 0xEF then .need2
    else if b = 0xF0 then .afterF0
    else if 0xF1 ≤ b ∧ b ≤ 0xF3 then .need3
    else if b = 0xF4 then .afterF4
    else .fail
  | .need1 => if 0x80 ≤ b ∧ b ≤ 0xBF then .start else .fail
  | .need2 => if 0x80 ≤ b ∧ b ≤ 0xBF then .need1 else .fail
  | .need3 => if 0x80 ≤ b ∧ b ≤ 0xBF then .need2 else .fail
  | .afterE0 => if 0xA0 ≤ b ∧ b ≤ 0xBF then .need1 else .fail
  | .afterED => if 0x80 ≤ b ∧ b ≤ 0x9F then .need1 else .fail
  | .afterF0 => if 0x90 ≤ b ∧ b ≤ 0xBF then .need2 else .fail
  | .afterF4 => if 0x80 ≤ b ∧ b ≤ 0x8F then .need2 else .fail
  | .fail => .fail

/-- The native `internal_check_utf8`: the bytes are a whole number of
well-formed characters. -/
def internalCheckUtf8 (bytes : List UInt8) : Bool :=
  bytes.foldl Utf8State.step .start = .start

/-- `std::string::String`. -/
structure MoveString where
  bytes : List UInt8
  wellFormed : internalCheckUtf8 bytes = true
  deriving DecidableEq

/-- `string::utf8`. -/
def utf8 (bytes : List UInt8) : Except Abort MoveString :=
  if h : internalCheckUtf8 bytes = true then .ok ⟨bytes, h⟩ else .error .eInvalidUtf8

/-! ## ASCII and URLs -/

/-- `ascii::is_valid_char`. -/
def isValidChar (byte : UInt8) : Bool := byte ≤ 0x7F

/-- `std::ascii::String`. -/
structure AsciiString where
  bytes : List UInt8
  valid : bytes.all isValidChar = true
  deriving DecidableEq

/-- `ascii::try_string`: the loop stops at the first byte that is not ASCII. -/
def tryString (bytes : List UInt8) : Option AsciiString :=
  if h : bytes.all isValidChar = true then some ⟨bytes, h⟩ else none

/-- `ascii::string`. -/
def asciiString (bytes : List UInt8) : Except Abort AsciiString :=
  match tryString bytes with
  | some s => .ok s
  | none => .error .eInvalidAsciiCharacter

/-- `sui::url::Url`. -/
structure Url where
  url : AsciiString
  deriving DecidableEq

/-- `url::new_unsafe_from_bytes`. -/
def newUnsafeFromBytes (bytes : List UInt8) : Except Abort Url := do
  let url ← asciiString bytes
  return ⟨url⟩

end BookMarket
