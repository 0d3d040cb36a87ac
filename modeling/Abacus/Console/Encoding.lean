import Abacus.Text.Quoted

/-!
# What an output can hold

An output holds the characters below a limit. A text with any other is refused, or is brought into
the output with a stand-in for each of them.
-/

namespace Abacus.Console

inductive Encoding where
  | utf8
  | ascii
  | latin1
deriving DecidableEq, Repr

namespace Encoding

def name : Encoding → String
  | utf8 => "utf-8"
  | ascii => "ascii"
  | latin1 => "latin-1"

def limit : Encoding → Nat
  | utf8 => 0x110000
  | ascii => 0x80
  | latin1 => 0x100

def holds (encoding : Encoding) (c : Char) : Bool := c.toNat < encoding.limit

/-- The text with a question mark for each character that the output cannot hold. -/
def replaceOthers (encoding : Encoding) (text : String) : String :=
  String.ofList (text.toList.map fun c => if encoding.holds c then c else '?')

/-- The text with an escape for each character that the output cannot hold. -/
def escapeOthers (encoding : Encoding) (text : String) : String :=
  String.ofList (text.toList.flatMap fun c =>
    if encoding.holds c then [c] else Text.codePointEscape c)

end Encoding

/-- The first characters of a text that an output cannot hold, as far as they stand together. -/
structure Unencodable where
  encoding : Encoding
  position : Nat
  characters : List Char
deriving DecidableEq, Repr

namespace Unencodable

/-- The characters and their place; one character is shown, more are not. -/
def place (u : Unencodable) : String :=
  match u.characters with
  | [c] =>
    "character '" ++ String.ofList (Text.codePointEscape c) ++ "' in position "
      ++ toString u.position
  | cs =>
    "characters in position " ++ toString u.position ++ "-"
      ++ toString (u.position + cs.length - 1)

def message (u : Unencodable) : String :=
  "'" ++ u.encoding.name ++ "' codec can't encode " ++ u.place ++ ": ordinal not in range("
    ++ toString u.encoding.limit ++ ")"

end Unencodable

def Encoding.encode (encoding : Encoding) (text : String) : Except Unencodable String :=
  match text.toList.span encoding.holds with
  | (_, []) => .ok text
  | (held, rest) => .error ⟨encoding, held.length, rest.takeWhile fun c => !encoding.holds c⟩

end Abacus.Console
