import Abacus.Console.Title
import Abacus.Token

/-! # The table of tokens -/

namespace Abacus.Console

/-- A row: the place of a token from 1, its kind and its symbol. -/
structure Row where
  index : String
  kind : String
  symbol : String

def Row.ofToken (token : Token) (index : Nat) : Row :=
  ⟨toString (index + 1), token.kind, token.symbol⟩

def Row.header : Row := ⟨"#", "Kind", "Symbol"⟩

structure Columns where
  index : Nat
  kind : Nat
  symbol : Nat

namespace Columns

def widest (texts : List String) : Nat := (texts.map String.length).foldl max 0

def ofRows (rows : List Row) : Columns :=
  ⟨widest (rows.map (·.index)), widest (rows.map (·.kind)), widest (rows.map (·.symbol))⟩

/-- The width of the table, with borders and a blank on either side of a cell. -/
def total (columns : Columns) : Nat := columns.index + columns.kind + columns.symbol + 10

def run (c : Char) (n : Nat) : String := String.ofList (List.replicate n c)

def padRight (n : Nat) (text : String) : String := text ++ run ' ' (n - text.length)

def padLeft (n : Nat) (text : String) : String := run ' ' (n - text.length) ++ text

def edge (columns : Columns) : String := "+" ++ run '-' (columns.total - 2) ++ "+"

def rule (columns : Columns) : String :=
  "|" ++ run '-' (columns.index + 2) ++ "+" ++ run '-' (columns.kind + 2) ++ "+"
    ++ run '-' (columns.symbol + 2) ++ "|"

def line (columns : Columns) (row : Row) : String :=
  "| " ++ padLeft columns.index row.index ++ " | " ++ padRight columns.kind row.kind ++ " | "
    ++ padRight columns.symbol row.symbol ++ " |"

end Columns

def tableLines (expression : String) (tokens : List Token) : List String :=
  let rows := tokens.zipIdx.map fun (token, index) => Row.ofToken token index
  let columns := Columns.ofRows (.header :: rows)
  let title := "Tokens [" ++ toString tokens.length ++ "]: " ++ expression
  (Title.lines columns.total title.toList).map String.ofList
    ++ [columns.edge, columns.line .header, columns.rule] ++ rows.map columns.line ++ [columns.edge]

end Abacus.Console
