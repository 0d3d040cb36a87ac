/-! # JSON values -/

namespace Abacus

/-- A JSON value. Whole numbers written without point and exponent are kept apart from the others,
and the members of an object keep their order. -/
inductive Json where
  | null
  | bool (value : Bool)
  | integer (value : Int)
  | float (value : Float)
  | string (value : String)
  | array (elements : List Json)
  | object (members : List (String × Json))

namespace Json

/-- The last of the members with a name. -/
def lookup? (members : List (String × Json)) (name : String) : Option Json :=
  (members.reverse.find? fun member => member.1 == name).map (·.2)

/-- The member of an object; other values have none. -/
def member? (name : String) : Json → Option Json
  | object members => lookup? members name
  | _ => none

mutual

/-- Whether all numbers in the value are finite, so that it can be written. A member that a later
one replaces does not count. -/
def isFinite : Json → Bool
  | null | bool _ | integer _ | string _ => true
  | float x => x.isFinite
  | array elements => allFinite elements
  | object members => allMembersFinite members

def allFinite : List Json → Bool
  | [] => true
  | v :: rest => v.isFinite && allFinite rest

def allMembersFinite : List (String × Json) → Bool
  | [] => true
  | (name, v) :: rest =>
    (v.isFinite || rest.any fun member => member.1 == name) && allMembersFinite rest

end

end Json

end Abacus
