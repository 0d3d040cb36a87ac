/-! # Parts of a text -/

namespace Abacus.Text

/-- The parts of a text between the separators, empty ones too. -/
def partsBetween (separator : Char) : List Char → List (List Char)
  | [] => [[]]
  | c :: cs =>
    if c == separator then [] :: partsBetween separator cs
    else match partsBetween separator cs with
      | [] => [[c]]
      | part :: parts => (c :: part) :: parts

end Abacus.Text
