import Abacus.Settings
import Abacus.Text.LineEnd

/-!
# Variables of a `.env` file

A line sets a variable, `NAME=value`, perhaps after `export`. Blank lines and comments, from `#` to
the line end, set none, and what cannot be read is passed over to the end of its line. A value in
quotes may hold line ends, and keeps its blanks; any other value ends at the line end or before a
`#` behind a blank. In a value `${NAME}` stands for the value of another variable.

Readers of such files do not agree on everything. After `NAME=` and blanks a `#` starts a comment
here, and the value is empty. In quotes two backslashes are one escape here, so a quote behind them
closes.
-/

namespace Abacus.Settings

structure Dotenv where
  values : Variables := []
  /-- The lines on which the parts start that cannot be read. -/
  unreadable : List Nat := []
deriving DecidableEq, Repr

namespace Dotenv

open Text

/-! ## Lines and blanks -/

def isLineBlank (c : Char) : Bool := isBlank c && c != '\n'

def skipLineBlanks (cs : List Char) : List Char := cs.dropWhile isLineBlank

def nextLine (cs : List Char) : List Char := (cs.dropWhile (· != '\n')).drop 1

/-- The text after the line, if nothing but a comment is left on it. -/
def endOfLine? (cs : List Char) : Option (List Char) :=
  match skipLineBlanks cs with
  | [] => some []
  | '\n' :: rest => some rest
  | '#' :: rest => some (nextLine rest)
  | _ => none

/-! ## Names and values -/

/-- The text after `export` and at least one blank, or the whole text. -/
def skipExport (cs : List Char) : List Char :=
  match cs with
  | 'e' :: 'x' :: 'p' :: 'o' :: 'r' :: 't' :: c :: rest =>
    if isLineBlank c then skipLineBlanks rest else cs
  | _ => cs

def isNameChar (c : Char) : Bool := c != '=' && c != '#' && !isBlank c

/-- A name, which may stand in single quotes. -/
def name? : List Char → Option (List Char × List Char)
  | '\'' :: rest =>
    match rest.span (· != '\'') with
    | ([], _) => none
    | (name, '\'' :: rest) => some (name, rest)
    | _ => none
  | cs =>
    match cs.span isNameChar with
    | ([], _) => none
    | found => some found

/-- The text up to the closing quote, with the escapes as written. A quote behind a backslash does
not close. -/
def quotedPart? (quote : Char) : List Char → Option (List Char × List Char)
  | [] => none
  | '\\' :: c :: rest => (quotedPart? quote rest).map fun (part, rest) => ('\\' :: c :: part, rest)
  | c :: rest =>
    if c == quote then some ([], rest)
    else (quotedPart? quote rest).map fun (part, rest) => (c :: part, rest)

def singleQuoteEscape? : Char → Option Char
  | '\\' => some '\\'
  | '\'' => some '\''
  | _ => none

def doubleQuoteEscape? : Char → Option Char
  | '\\' => some '\\'
  | '\'' => some '\''
  | '"' => some '"'
  | 'a' => some '\x07'
  | 'b' => some '\x08'
  | 'f' => some '\x0c'
  | 'n' => some '\n'
  | 'r' => some '\r'
  | 't' => some '\t'
  | 'v' => some '\x0b'
  | _ => none

/-- Replaces the escapes that are known and keeps the others. -/
def unescape (escape? : Char → Option Char) : List Char → List Char
  | [] => []
  | '\\' :: c :: rest =>
    match escape? c with
    | some character => character :: unescape escape? rest
    | none => '\\' :: unescape escape? (c :: rest)
  | c :: rest => c :: unescape escape? rest

/-- A line up to a comment, which starts with a `#` behind a blank. -/
def beforeComment : List Char → List Char
  | [] => []
  | c :: rest =>
    if isBlank c && (trimLeft rest).head? == some '#' then [] else c :: beforeComment rest

/-- The value that is written behind a `=`. -/
def value? (cs : List Char) : Option (List Char × List Char) :=
  match skipLineBlanks cs with
  | '\'' :: rest =>
    (quotedPart? '\'' rest).map fun (part, rest) => (unescape singleQuoteEscape? part, rest)
  | '"' :: rest =>
    (quotedPart? '"' rest).map fun (part, rest) => (unescape doubleQuoteEscape? part, rest)
  | _ =>
    let (line, rest) := cs.span (· != '\n')
    some (trim (beforeComment line), rest)

/-! ## Statements -/

structure Entry where
  name : List Char
  value? : Option (List Char)

inductive Statement where
  | entry (entry : Entry)
  /-- Nothing but blanks and a comment. -/
  | comment
  | unreadable

/-- An entry that nothing but a comment may follow on its line, and the text after that line. -/
def closeEntry (entry : Entry) (rest : List Char) : Statement × List Char :=
  match endOfLine? rest with
  | some rest => (.entry entry, rest)
  | none => (.unreadable, nextLine rest)

def readEntry (cs : List Char) : Statement × List Char :=
  match name? cs with
  | none => (.unreadable, nextLine cs)
  | some (name, rest) =>
    match skipLineBlanks rest with
    | '=' :: rest =>
      match value? rest with
      | some (value, rest) => closeEntry ⟨name, some value⟩ rest
      | none => (.unreadable, nextLine rest)
    | rest => closeEntry ⟨name, none⟩ rest

/-- The next statement, and the text after the line on which it ends or goes wrong. -/
def readStatement (cs : List Char) : Statement × List Char :=
  match trimLeft cs with
  | [] => (.comment, [])
  | cs =>
    match skipExport cs with
    | '#' :: rest => (.comment, nextLine rest)
    | cs => readEntry cs

/-- The statements in order, each with the line on which the one before it has ended. Each takes at
least one character, so the length of the text is enough fuel. -/
def statements : Nat → Nat → List Char → List (Nat × Statement)
  | 0, _, _ | _, _, [] => []
  | fuel + 1, line, cs =>
    let (statement, rest) := readStatement cs
    (line, statement) :: statements fuel (line + (cs.count '\n' - rest.count '\n')) rest

/-! ## References -/

/-- The name and the default between the braces of a reference, `NAME` or `NAME:-default`. -/
def reference? (inside : List Char) : Option (List Char × List Char) :=
  match inside.span (· != ':') with
  | (name, []) => some (name, [])
  | (name, _ :: '-' :: default) => some (name, default)
  | _ => none

/-- A value with the references replaced; a name without a value gives its default. -/
def expand (valueOf? : List Char → Option (List Char)) : List Char → List Char
  | [] => []
  | '$' :: '{' :: rest =>
    match rest.contains '}', reference? (rest.takeWhile (· != '}')) with
    | true, some (name, default) =>
      (valueOf? name).getD default ++ expand valueOf? (rest.dropWhile (· != '}')).tail
    | _, _ => '$' :: expand valueOf? ('{' :: rest)
  | c :: rest => c :: expand valueOf? rest
termination_by cs => cs.length
decreasing_by
  · have := (List.dropWhile_sublist (l := rest) (· != '}')).length_le
    simp only [List.length_tail, List.length_cons]
    omega
  all_goals simp

/-- The value of a name: that of an entry, or else that of the environment. -/
def valueIn? (environment : Variables) (entries : List Entry) (name : List Char) :
    Option (List Char) :=
  match entries.find? (·.name == name) with
  | some entry => some (entry.value?.getD [])
  | none => (environment.reverse.find? (·.1.toList == name)).map (·.2.toList)

/-! ## The file -/

/-- The entries with one more. A name keeps its place and takes its last value. -/
def setEntry (entry : Entry) : List Entry → List Entry
  | [] => [entry]
  | other :: rest =>
    if other.name == entry.name then entry :: rest else other :: setEntry entry rest

/-- The entries with one more, whose references mean the entries before it. -/
def addEntry (environment : Variables) (entries : List Entry) (entry : Entry) : List Entry :=
  setEntry { entry with value? := entry.value?.map (expand (valueIn? environment entries)) } entries

/-- The variables of the entries. Of names that differ in letter case only, the last one counts, and
without a value it unsets the variable. -/
def variablesOf (entries : List Entry) : Variables :=
  entries.foldl
    (fun found entry =>
      let name := lowerCase (String.ofList entry.name)
      let others := found.filter fun other => other.1 != name
      match entry.value? with
      | some value => others ++ [(name, String.ofList value)]
      | none => others)
    []

/-- What a file holds. A mark at its start that tells the order of its bytes is passed over. -/
def read (environment : Variables) (text : String) : Dotenv :=
  let cs := match text.toList with
    | '\ufeff' :: cs => foldLineEnds cs
    | cs => foldLineEnds cs
  let found := statements cs.length 1 cs
  let entries := found.filterMap fun
    | (_, .entry entry) => some entry
    | _ => none
  { values := variablesOf (entries.foldl (addEntry environment) [])
    unreadable := found.filterMap fun
      | (line, .unreadable) => some line
      | _ => none }

end Dotenv

end Abacus.Settings
