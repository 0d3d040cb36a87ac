/-! # Line ends -/

namespace Abacus.Text

/-- Carriage returns, alone or before a line feed, become line feeds. -/
def foldLineEnds : List Char → List Char
  | [] => []
  | '\r' :: '\n' :: rest => '\n' :: foldLineEnds rest
  | '\r' :: rest => '\n' :: foldLineEnds rest
  | c :: rest => c :: foldLineEnds rest

end Abacus.Text
