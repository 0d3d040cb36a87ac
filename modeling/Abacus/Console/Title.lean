import Abacus.Text.Blank
import Abacus.Text.Parts
import Abacus.Text.Width

/-!
# Titles

A title is set in lines of one width. A word that fits the rest of a line stays on it, one that fits
a whole line starts a new one, and one that fits no line is cut. Each line is centred.
-/

namespace Abacus.Console.Title

open Text

/-! ## Characters -/

/-- A backslash before an opening bracket only sets the bracket off, and is not shown. -/
def dropBracketEscapes : List Char → List Char
  | [] => []
  | '\\' :: '[' :: cs => '[' :: dropBracketEscapes cs
  | c :: cs => c :: dropBracketEscapes cs

/-- Bell, backspace, vertical tab, form feed and carriage return are not shown. -/
def isShown (c : Char) : Bool := c.toNat ∉ [0x07, 0x08, 0x0B, 0x0C, 0x0D]

/-- The parts of a line that stood between tabs, with blanks from each to the next column that 8
divides. -/
def joinAtStops (column : Nat) : List (List Char) → List Char
  | [] => []
  | [part] => part
  | part :: parts =>
    let reached := column + width (part ++ [' '])
    let blanks := (8 - reached % 8) % 8
    part ++ ' ' :: List.replicate blanks ' ' ++ joinAtStops (reached + blanks) parts

def expandTabs (line : List Char) : List Char := joinAtStops 0 (partsBetween '\t' line)

/-! ## Words -/

/-- A text cut where a blank meets a character that is none. -/
def cutAfterBlanks : List Char → List (List Char)
  | [] => []
  | c :: cs =>
    match cutAfterBlanks cs with
    | [] => [[c]]
    | word :: words =>
      if isBlank c && !(word.headD ' ' |> isBlank) then [c] :: word :: words
      else (c :: word) :: words

/-- The words with the blanks after them; blanks at the start go with the first word. -/
def words (cs : List Char) : List (List Char) :=
  match cutAfterBlanks cs with
  | first :: second :: rest =>
    if first.all isBlank then (first ++ second) :: rest else first :: second :: rest
  | found => found

def pieces (limit : Nat) (word : List Char) : List (List Char) :=
  go [] 0 (clusters word)
where
  go (piece : List Char) (used : Nat) : List Cluster → List (List Char)
    | [] => [piece]
    | cluster :: rest =>
      if used + cluster.width > limit then piece :: go cluster.characters cluster.width rest
      else go (piece ++ cluster.characters) (used + cluster.width) rest

/-! ## Lines -/

/-- Fills lines with words, where `line` is what the last line holds and `used` the cells of its
words. -/
def fill (limit : Nat) (line : List Char) (used : Nat) : List (List Char) → List (List Char)
  | [] => [line]
  | word :: words =>
    let wordWidth := width (trimRight word)
    if used + wordWidth ≤ limit then fill limit (line ++ word) (used + width word) words
    else
      let full := if line.isEmpty then [] else [line]
      if wordWidth > limit then
        let cut := pieces limit word
        let last := cut.getLastD []
        full ++ cut.dropLast ++ fill limit last (width last) words
      else full ++ fill limit word (width word) words

/-- The clusters of a line that fit, with blanks for the cells that no cluster fills. -/
def crop (free : Nat) : List Cluster → List Char
  | [] => List.replicate free ' '
  | cluster :: rest =>
    if cluster.width ≤ free then cluster.characters ++ crop (free - cluster.width) rest
    else List.replicate free ' '

/-- The text without the blanks at its end, with half of the free cells, rounded down, before it. A
selector behind a blank can widen the word before, so that a line has to be cut after all. -/
def centre (limit : Nat) (line : List Char) : List Char :=
  let line := trimRight line
  let line := if width line ≤ limit then line else crop limit (clusters line)
  let free := limit - width line
  List.replicate (free / 2) ' ' ++ line ++ List.replicate (free - free / 2) ' '

def lines (limit : Nat) (title : List Char) : List (List Char) :=
  (partsBetween '\n' ((dropBracketEscapes title).filter isShown)).flatMap fun line =>
    (fill limit [] 0 (words (expandTabs line))).map (centre limit)

end Abacus.Console.Title
