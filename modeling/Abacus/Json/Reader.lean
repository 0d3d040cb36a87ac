import Abacus.Json.Value
import Abacus.Number.Reading

/-!
# JSON read from text

A text that is not JSON is refused at a place. The readers give it as the count of characters from
there to the end, so that a reader needs only the text before it. Whole numbers that are too long
and values that are nested too deep are refused as well, wherever they stand.
-/

namespace Abacus.Json

/-- A whole number with more digits is not read. -/
def maxDigits : Nat := 4300

/-- Arrays and objects nested deeper are not read. -/
def maxDepth : Nat := 960

inductive Stop where
  /-- The text is not JSON where this many characters are left. -/
  | notJson (left : Nat)
  /-- A number is too long or a value nested too deep. -/
  | tooLarge
deriving DecidableEq, Repr

/-- What was read and the text after it. -/
abbrev Reader (α : Type) := List Char → Except Stop (α × List Char)

def stopAt {α : Type} (rest : List Char) : Except Stop α := .error (.notJson rest.length)

def isSpace (c : Char) : Bool := c == ' ' || c == '\t' || c == '\n' || c == '\r'

def skipSpace (cs : List Char) : List Char := cs.dropWhile isSpace

/-! ## Strings -/

def hexNumber? (cs : List Char) : Option Nat :=
  cs.foldlM (fun n c => (Text.hexValue? c).map (16 * n + ·)) 0

def unescape? : Char → Option Char
  | '"' => some '"'
  | '\\' => some '\\'
  | '/' => some '/'
  | 'b' => some '\x08'
  | 'f' => some '\x0c'
  | 'n' => some '\n'
  | 'r' => some '\r'
  | 't' => some '\t'
  | _ => none

/-- The code units of a string from behind its opening quote, where `opening` characters are left.
A number escape has to be followed by something. -/
def units (opening : Nat) : Reader (List Nat)
  | [] => .error (.notJson opening)
  | ['\\'] => .error (.notJson opening)
  | '"' :: rest => .ok ([], rest)
  | '\\' :: 'u' :: a :: b :: c :: d :: next :: rest =>
    match hexNumber? [a, b, c, d] with
    | some unit => do
      let (more, rest) ← units opening (next :: rest)
      return (unit :: more, rest)
    | none => stopAt ('u' :: a :: b :: c :: d :: next :: rest)
  | '\\' :: 'u' :: rest => stopAt ('u' :: rest)
  | '\\' :: c :: rest =>
    match unescape? c with
    | some character => do
      let (more, rest) ← units opening rest
      return (character.toNat :: more, rest)
    | none => stopAt ('\\' :: c :: rest)
  | c :: rest =>
    if c < ' ' then stopAt (c :: rest)
    else do
      let (more, rest) ← units opening rest
      return (c.toNat :: more, rest)

def isHighSurrogate (unit : Nat) : Bool := 0xD800 ≤ unit && unit < 0xDC00

def isLowSurrogate (unit : Nat) : Bool := 0xDC00 ≤ unit && unit < 0xE000

/-- Two surrogates make one character; a lone one is replaced by U+FFFD. -/
def charactersOfUnits : List Nat → List Char
  | [] => []
  | high :: low :: rest =>
    if isHighSurrogate high && isLowSurrogate low then
      Char.ofNat (0x10000 + (high - 0xD800) * 0x400 + (low - 0xDC00)) :: charactersOfUnits rest
    else (if isHighSurrogate high || isLowSurrogate high then '\ufffd' else Char.ofNat high)
      :: charactersOfUnits (low :: rest)
  | [unit] =>
    [if isHighSurrogate unit || isLowSurrogate unit then '\ufffd' else Char.ofNat unit]

/-- A string from behind its opening quote. -/
def stringBody : Reader String := fun cs => do
  let (us, rest) ← units (cs.length + 1) cs
  return (String.ofList (charactersOfUnits us), rest)

/-! ## Numbers -/

def digits (cs : List Char) : List Char × List Char := cs.span Char.isDigit

/-- A whole part has no zero before another digit. -/
def wholePart? : List Char → Option (List Char × List Char)
  | '0' :: rest => some (['0'], rest)
  | cs => match digits cs with
    | ([], _) => none
    | found => some found

/-- The digits after a point, if the point has any. -/
def fractionPart : List Char → List Char × List Char
  | '.' :: rest => match digits rest with
    | ([], _) => ([], '.' :: rest)
    | found => found
  | cs => ([], cs)

def naturalNumber (cs : List Char) : Nat :=
  Text.numberOfDigits (cs.map fun c => c.toNat - '0'.toNat)

def exponentSign : List Char → Bool × List Char
  | '-' :: rest => (true, rest)
  | '+' :: rest => (false, rest)
  | cs => (false, cs)

/-- The exponent after its mark, if the mark has digits. -/
def exponentPart : List Char → Option Int × List Char
  | mark :: rest =>
    if mark == 'e' || mark == 'E' then
      let (negative, afterSign) := exponentSign rest
      match digits afterSign with
      | ([], _) => (none, mark :: rest)
      | (found, after) =>
        (some (if negative then -naturalNumber found else naturalNumber found), after)
    else (none, mark :: rest)
  | [] => (none, [])

def signed (negative : Bool) (x : Float) : Float := if negative then -x else x

/-- The text behind a minus, if there is one. -/
def numberSign : List Char → Bool × List Char
  | '-' :: rest => (true, rest)
  | cs => (false, cs)

def number : Reader Json := fun cs =>
  let (negative, unsigned) := numberSign cs
  match wholePart? unsigned with
  | none => stopAt cs
  | some (whole, rest) =>
    let (fraction, rest) := fractionPart rest
    let (exponent?, rest) := exponentPart rest
    if fraction.isEmpty && exponent?.isNone then
      if maxDigits < whole.length then .error .tooLarge
      else
        let n : Int := naturalNumber whole
        .ok (integer (if negative then -n else n), rest)
    else
      let exponent := exponent?.getD 0 - fraction.length
      let x := Reading.scientific (naturalNumber (whole ++ fraction)) exponent
      .ok (float (signed negative x), rest)

/-! ## Values -/

/-- The values that are words. Not a number and the infinities are read although JSON has none. -/
def word? : List Char → Option (Json × List Char)
  | 'n' :: 'u' :: 'l' :: 'l' :: rest => some (null, rest)
  | 't' :: 'r' :: 'u' :: 'e' :: rest => some (bool true, rest)
  | 'f' :: 'a' :: 'l' :: 's' :: 'e' :: rest => some (bool false, rest)
  | 'N' :: 'a' :: 'N' :: rest => some (float Binary.nan, rest)
  | 'I' :: 'n' :: 'f' :: 'i' :: 'n' :: 'i' :: 't' :: 'y' :: rest =>
    some (float (Binary.ofCode Binary.infinityCode), rest)
  | '-' :: 'I' :: 'n' :: 'f' :: 'i' :: 'n' :: 'i' :: 't' :: 'y' :: rest =>
    some (float (-Binary.ofCode Binary.infinityCode), rest)
  | _ => none

mutual

/-- A value that may hold arrays and objects nested to the depth. Each call reads a character or
hands the text on once, so twice the length of the text is enough fuel. -/
def value : Nat → Nat → Reader Json
  | 0, _, cs => stopAt cs
  | fuel + 1, depth, cs =>
    match cs, depth with
    | '"' :: rest, _ => do
      let (s, rest) ← stringBody rest
      return (string s, rest)
    | '[' :: _, 0 | '\x7b' :: _, 0 => .error .tooLarge
    | '[' :: rest, depth + 1 =>
      match skipSpace rest with
      | ']' :: rest => .ok (array [], rest)
      | rest => do
        let (elements, rest) ← elements fuel depth rest
        return (array elements, rest)
    | '\x7b' :: rest, depth + 1 =>
      match skipSpace rest with
      | '\x7d' :: rest => .ok (object [], rest)
      | rest => do
        let (members, rest) ← members fuel depth rest
        return (object members, rest)
    | cs, _ =>
      match word? cs with
      | some found => .ok found
      | none => number cs

/-- The elements of an array, up to and with its closing bracket. -/
def elements : Nat → Nat → Reader (List Json)
  | 0, _, cs => stopAt cs
  | fuel + 1, depth, cs => do
    let (v, rest) ← value fuel depth cs
    match skipSpace rest with
    | ']' :: rest => return ([v], rest)
    | ',' :: rest =>
      let (more, rest) ← elements fuel depth (skipSpace rest)
      return (v :: more, rest)
    | rest => stopAt rest

/-- The members of an object, up to and with its closing brace. -/
def members : Nat → Nat → Reader (List (String × Json))
  | 0, _, cs => stopAt cs
  | fuel + 1, depth, cs =>
    match cs with
    | '"' :: rest => do
      let (name, rest) ← stringBody rest
      match skipSpace rest with
      | ':' :: rest =>
        let (v, rest) ← value fuel depth (skipSpace rest)
        match skipSpace rest with
        | '\x7d' :: rest => return ([(name, v)], rest)
        | ',' :: rest =>
          let (more, rest) ← members fuel depth (skipSpace rest)
          return ((name, v) :: more, rest)
        | rest => stopAt rest
      | rest => stopAt rest
    | rest => stopAt rest

end

/-- Nothing but blanks around one value. -/
def document (cs : List Char) : Except Stop Json := do
  let (v, rest) ← value (2 * cs.length + 2) maxDepth (skipSpace cs)
  match skipSpace rest with
  | [] => return v
  | rest => stopAt rest

end Abacus.Json
