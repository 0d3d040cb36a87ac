import Abacus.Json.Reader
import Abacus.Number.Notation
import Abacus.Text.Blank

/-!
# Values from outside

Settings and request bodies come as text or JSON and are brought to the type of their field, or
refused with an issue.
-/

namespace Abacus

inductive Issue where
  | missing
  | notAnObject
  | notJson
  | notABool
  | boolUnreadable
  | notAnInteger
  | integerUnreadable
  | integerTooLarge
  | fractionalInteger
  | infiniteInteger
  | notAString
  | notAnOperator
deriving DecidableEq, Repr

namespace Issue

def kind : Issue → String
  | missing => "missing"
  | notAnObject => "model_attributes_type"
  | notJson => "json_invalid"
  | notABool => "bool_type"
  | boolUnreadable => "bool_parsing"
  | notAnInteger => "int_type"
  | integerUnreadable => "int_parsing"
  | integerTooLarge => "int_parsing_size"
  | fractionalInteger => "int_from_float"
  | infiniteInteger => "finite_number"
  | notAString => "string_type"
  | notAnOperator => "literal_error"

def message : Issue → String
  | missing => "Field required"
  | notAnObject => "Input should be a valid dictionary or object to extract fields from"
  | notJson => "JSON decode error"
  | notABool => "Input should be a valid boolean"
  | boolUnreadable => "Input should be a valid boolean, unable to interpret input"
  | notAnInteger => "Input should be a valid integer"
  | integerUnreadable => "Input should be a valid integer, unable to parse string as an integer"
  | integerTooLarge => "Unable to parse input string as an integer, exceeded maximum size"
  | fractionalInteger => "Input should be a valid integer, got a number with a fractional part"
  | infiniteInteger => "Input should be a finite number"
  | notAString => "Input should be a valid string"
  | notAnOperator => "Input should be '+', '-', '*' or '/'"

end Issue

inductive Place where
  | name (name : String)
  | offset (offset : Nat)
deriving DecidableEq, Repr

structure Complaint where
  issue : Issue
  location : List Place
deriving DecidableEq, Repr

/-! ## Whole numbers -/

/-- Blanks around a number. The separators U+001C to U+001F are not among them. -/
def isPadding (c : Char) : Bool := Text.isBlank c && !Text.inRanges [(0x001C, 0x001F)] c

def dropPadding (cs : List Char) : List Char :=
  ((cs.dropWhile isPadding).reverse.dropWhile isPadding).reverse

/-- A minus at the start, if there is one, and the text behind the sign. A plus goes, but not before
a minus. -/
def splitSign? : List Char → Option (List Char × List Char)
  | '-' :: rest => some (['-'], rest)
  | '+' :: '-' :: _ => none
  | '+' :: rest => some ([], rest)
  | cs => some ([], cs)

/-- A digit other than zero, or a minus. -/
def startsNumber (c : Char) : Bool := c == '-' || ('1' ≤ c && c ≤ '9')

/-- What is left behind zeros and underscores, the last of which is `last`. It stays if a point or
nothing follows. -/
def behindZeros? (last : Char) : List Char → Option (List Char)
  | [] => some [last]
  | c :: rest =>
    if c == '0' || c == '_' then behindZeros? c rest
    else if startsNumber c then some (c :: rest)
    else if c == '.' then some (last :: c :: rest)
    else none

/-- The text without the zeros at its start and the underscores among them. -/
def dropLeadingZeros? : List Char → Option (List Char)
  | [] => none
  | c :: rest =>
    if c == '0' then behindZeros? c rest
    else if startsNumber c then some (c :: rest)
    else none

/-- The text without a point that only zeros follow. -/
def dropZeroFraction (cs : List Char) : List Char :=
  match cs.span (· != '.') with
  | (whole, '.' :: zeros) => if !zeros.isEmpty && zeros.all (· == '0') then whole else cs
  | _ => cs

def hasDoubleUnderscore : List Char → Bool
  | '_' :: '_' :: _ => true
  | _ :: rest => hasDoubleUnderscore rest
  | [] => false

/-- The text without its underscores, if they are single and not at an end. -/
def dropUnderscores (cs : List Char) : List Char :=
  if cs.head? == some '_' || cs.getLast? == some '_' || hasDoubleUnderscore cs then cs
  else cs.filter (· != '_')

/-- Digits that make up a whole number. A zero at the start has to be alone, and the number is read
only up to its size. -/
def magnitudeOfDigits (size : Nat) (cs : List Char) : Except Issue Nat :=
  match cs with
  | [] => .error .integerUnreadable
  | ['0'] => .ok 0
  | '0' :: _ => .error .integerUnreadable
  | _ =>
    if size < (cs.takeWhile Char.isDigit).length then .error .integerTooLarge
    else if cs.all Char.isDigit then .ok (Json.naturalNumber cs)
    else .error .integerUnreadable

/-- A number that is written as digits alone or behind a minus. -/
def integerOfDigits : List Char → Except Issue Int
  | '-' :: digits => (magnitudeOfDigits (Json.maxDigits - 1) digits).map fun n => -(n : Int)
  | digits => (magnitudeOfDigits Json.maxDigits digits).map fun n => (n : Int)

/-- The digits and the minus without what may stand around and among them. -/
def bareDigits? (cs : List Char) : Option (List Char) := do
  let (sign, rest) ← splitSign? (dropPadding cs)
  return dropUnderscores (dropZeroFraction (sign ++ (← dropLeadingZeros? rest)))

/-- A sign, digits and perhaps a fraction of zeros, with blanks around. Zeros may stand before the
number, and single underscores in it; the minus may also stand behind the zeros. Only of a number in
plain digits is it told that it is too large. -/
def integerOfText (text : String) : Except Issue Int :=
  match integerOfDigits text.toList, bareDigits? text.toList with
  | .error .integerUnreadable, some digits =>
    (integerOfDigits digits).mapError fun _ => .integerUnreadable
  | read, _ => read

/-- Whole numbers of 64 bits, without the least one. -/
def integerOfFloat (x : Float) : Except Issue Int :=
  if x.isNaN || x.isInf then .error .infiniteInteger
  else if Notation.isWhole x then
    let n : Nat := Binary.magnitude x / Nat.pow 2 1074
    if Nat.pow 2 63 ≤ n then .error .integerTooLarge
    else .ok (if Binary.isNegative x then -n else n)
  else .error .fractionalInteger

def integerOfJson : Json → Except Issue Int
  | .integer n => .ok n
  | .bool b => .ok (if b then 1 else 0)
  | .float x => integerOfFloat x
  | .string text => integerOfText text
  | .null | .array _ | .object _ => .error .notAnInteger

/-! ## Truth values -/

def lowerCase (text : String) : String := String.ofList (text.toList.map Char.toLower)

def boolOfText (text : String) : Except Issue Bool :=
  let word := lowerCase text
  if ["1", "true", "t", "yes", "y", "on"].contains word then .ok true
  else if ["0", "false", "f", "no", "n", "off"].contains word then .ok false
  else .error .boolUnreadable

/-- Zero and one are truth values. Other numbers are misread ones if they have 64 bits, and none at
all if they have more. -/
def boolOfInteger (n : Int) : Except Issue Bool :=
  if n == 0 then .ok false
  else if n == 1 then .ok true
  else if -Int.pow 2 63 ≤ n && n < Int.pow 2 63 then .error .boolUnreadable
  else .error .notABool

def boolOfFloat (x : Float) : Except Issue Bool :=
  match integerOfFloat x with
  | .ok n => boolOfInteger n
  | .error _ => .error .notABool

def boolOfJson : Json → Except Issue Bool
  | .bool b => .ok b
  | .integer n => boolOfInteger n
  | .float x => boolOfFloat x
  | .string text => boolOfText text
  | .null | .array _ | .object _ => .error .notABool

/-! ## Text -/

def stringOfJson : Json → Except Issue String
  | .string text => .ok text
  | _ => .error .notAString

end Abacus
