import Abacus.Json.Value
import Abacus.Number.Notation
import Abacus.Text.Quoted

/-! # JSON as text -/

namespace Abacus.Json

/-- A character inside a string: quotes, backslashes and controls are escaped. -/
def escapeChar (c : Char) : List Char :=
  if c == '"' || c == '\\' then ['\\', c]
  else if c < ' ' then '\\' :: 'u' :: Text.hexText 4 c.toNat
  else [c]

def stringText (s : String) : String :=
  String.ofList ('"' :: s.toList.flatMap escapeChar ++ ['"'])

mutual

def print : Json → String
  | null => "null"
  | bool true => "true"
  | bool false => "false"
  | integer n => toString n
  | float x => Notation.operandText x
  | string s => stringText s
  | array elements => "[" ++ ",".intercalate (printElements elements) ++ "]"
  | object members => "\x7b" ++ ",".intercalate (printMembers members) ++ "\x7d"

def printElements : List Json → List String
  | [] => []
  | v :: rest => print v :: printElements rest

def printMembers : List (String × Json) → List String
  | [] => []
  | (name, v) :: rest => (stringText name ++ ":" ++ print v) :: printMembers rest

end

end Abacus.Json
