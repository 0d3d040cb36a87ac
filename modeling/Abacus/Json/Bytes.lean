import Abacus.Json.Reader

/-!
# JSON as bytes

JSON comes in units of one, two or four bytes, the greater units with either byte first. Its first
two characters are ASCII, so the zeros among the first four bytes tell which.
-/

namespace Abacus.Json

inductive UnitSize where
  | one
  | two (greatFirst : Bool)
  | four (greatFirst : Bool)
deriving DecidableEq, Repr

/-- The size of the units that the bytes make up. -/
def UnitSize.ofBytes : List Nat → UnitSize
  | 0 :: 0 :: _ :: _ :: _ => four true
  | 0 :: _ :: _ :: _ :: _ => two true
  | _ :: 0 :: 0 :: 0 :: _ => four false
  | _ :: 0 :: _ :: _ :: _ => two false
  | [0, _] => two true
  | [_, 0] => two false
  | _ => one

/-- Units of two bytes, if the bytes come out even. -/
def pairs? (greatFirst : Bool) : List Nat → Option (List Nat)
  | [] => some []
  | a :: b :: rest =>
    (pairs? greatFirst rest).map ((if greatFirst then 0x100 * a + b else a + 0x100 * b) :: ·)
  | [_] => none

/-- Units of four bytes, if the bytes come out even. -/
def quadruples? (greatFirst : Bool) (bytes : List Nat) : Option (List Nat) :=
  (pairs? greatFirst bytes).bind join
where
  join : List Nat → Option (List Nat)
    | [] => some []
    | a :: b :: rest =>
      (join rest).map ((if greatFirst then 0x10000 * a + b else a + 0x10000 * b) :: ·)
    | [_] => none

/-- The character of a unit of four bytes. A surrogate is none and is replaced by U+FFFD. -/
def unitCharacter? (unit : Nat) : Option Char :=
  if isHighSurrogate unit || isLowSurrogate unit then some '\ufffd'
  else if unit < 0x110000 then some (Char.ofNat unit)
  else none

/-- A byte order mark at the start is no part of a text. -/
def dropMark : List Char → List Char
  | '\ufeff' :: rest => rest
  | cs => cs

/-- The characters that stand for the text's bytes, if these make up characters. -/
def charactersOfBytes? (text : String) : Option (List Char) :=
  let bytes := text.toUTF8.toList.map UInt8.toNat
  match UnitSize.ofBytes bytes with
  | .one => some (dropMark text.toList)
  | .two greatFirst => (pairs? greatFirst bytes).map charactersOfUnits
  | .four greatFirst => (quadruples? greatFirst bytes).bind (·.mapM unitCharacter?)

/-! ## Reading -/

inductive Unreadable where
  /-- They are not JSON from this character on. -/
  | notJson (offset : Nat)
  /-- They are no characters, or a number or the nesting goes beyond what is read. -/
  | notRead
deriving DecidableEq, Repr

/-- The value of a text whose bytes are JSON. -/
def parse (text : String) : Except Unreadable Json :=
  match charactersOfBytes? text with
  | none => .error .notRead
  | some cs =>
    (document cs).mapError fun
      | .notJson left => .notJson (cs.length - left)
      | .tooLarge => .notRead

end Abacus.Json
