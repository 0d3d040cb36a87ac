import Abacus.Settings
import Abacus.Text.Upper

/-! # The level that the settings give the log -/

namespace Abacus

/-- A name, in capitals, that no level has. -/
structure UnknownLevel where
  name : String
deriving DecidableEq, Repr

def UnknownLevel.message (e : UnknownLevel) : String := "Unknown level: " ++ Text.quoted e.name

/-- The level with this name in any letter case. -/
def Level.ofText (text : String) : Except UnknownLevel Level :=
  match Level.ofName? (Text.upperCase text) with
  | some level => .ok level
  | none => .error ⟨Text.upperCase text⟩

end Abacus
