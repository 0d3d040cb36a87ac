import Abacus.Json.Bytes
import Abacus.Validation

/-!
# Requests of the service

A request body is JSON. Its fields are brought to their types, and all complaints are listed in the
order of the fields.
-/

namespace Abacus.Service

/-! ## Requests and responses -/

inductive Body where
  | empty
  | json (value : Json)
  | text (text : String)

structure Request where
  method : String
  address : String
  body : Body

/-- A response; the body may be empty. -/
structure Response where
  status : Nat
  body : Option Json

namespace Response

def ok (body : Json) : Response := ⟨200, some body⟩

/-- A failure with its details under one name. -/
def failure (status : Nat) (detail : Json) : Response :=
  ⟨status, some (.object [("detail", detail)])⟩

def message (status : Nat) (text : String) : Response := failure status (.string text)

def placeJson : Place → Json
  | .name name => .string name
  | .offset offset => .integer offset

def complaintJson (complaint : Complaint) : Json :=
  .object [("type", .string complaint.issue.kind),
    ("loc", .array (complaint.location.map placeJson)),
    ("msg", .string complaint.issue.message)]

def unprocessable (complaints : List Complaint) : Response :=
  failure 422 (.array (complaints.map complaintJson))

end Response

/-! ## Rejections -/

/-- A complaint with the value that it is about. -/
structure Objection where
  complaint : Complaint
  value : Json

inductive Rejection where
  | unreadable
  | objections (found : List Objection)

namespace Rejection

def response : Rejection → Response
  | unreadable => .message 400 "There was an error parsing the body"
  | objections found => .unprocessable (found.map (·.complaint))

/-- Whether the values that are objected to can be sent back. -/
def isWritable : Rejection → Bool
  | unreadable => true
  | objections found => found.all (·.value.isFinite)

end Rejection

/-! ## Bodies -/

/-- The path to a part of the body. -/
def inBody (place : Place) : List Place := [.name "body", place]

/-- An objection to the body as a whole. -/
def Rejection.ofBody (issue : Issue) (value : Json) : Rejection :=
  .objections [⟨⟨issue, [.name "body"]⟩, value⟩]

def Body.value : Body → Except Rejection Json
  | .empty => .error (.ofBody .missing .null)
  | .json v => .ok v
  | .text raw =>
    if raw.isEmpty then .error (.ofBody .missing .null)
    else (Json.parse raw).mapError fun
      | .notJson offset => .objections [⟨⟨.notJson, inBody (.offset offset)⟩, .object []⟩]
      | .notRead => .unreadable

def Body.members (body : Body) : Except Rejection (List (String × Json)) := do
  match ← body.value with
  | .object members => return members
  | v => throw (.ofBody .notAnObject v)

/-- The first of the names that a member has. -/
def nameIn? (members : List (String × Json)) (names : List String) : Option String :=
  names.find? fun name => (Json.lookup? members name).isSome

/-- A member brought to the type of its field. -/
def convert {α : Type} (coerce : Json → Except Issue α) (name : String) (value : Json) :
    Except Objection α :=
  (coerce value).mapError fun issue => ⟨⟨issue, inBody (.name name)⟩, value⟩

/-- A field that has to be there, under the first of its names that a member has. -/
def requiredField {α : Type} (members : List (String × Json)) (name : String) (others : List String)
    (coerce : Json → Except Issue α) : Except Objection α :=
  let used := (nameIn? members (name :: others)).getD name
  match Json.lookup? members used with
  | none => .error ⟨⟨.missing, inBody (.name used)⟩, .object members⟩
  | some value => convert coerce used value

def optionalField {α : Type} (members : List (String × Json)) (name : String)
    (coerce : Json → Except Issue α) (default : α) : Except Objection α :=
  match Json.lookup? members name with
  | none => .ok default
  | some value => convert coerce name value

/-- Both values, or the objections to them in order. -/
def both {α β : Type} : Except Objection α → Except Objection β → Except Rejection (α × β)
  | .ok a, .ok b => .ok (a, b)
  | .ok _, .error e => .error (.objections [e])
  | .error e, .ok _ => .error (.objections [e])
  | .error e, .error e' => .error (.objections [e, e'])

/-! ## The two requests with a body -/

structure EvaluationRequest where
  expression : String
  explain : Bool

def EvaluationRequest.ofBody (body : Body) : Except Rejection EvaluationRequest := do
  let members ← body.members
  let (expression, explain) ← both
    (requiredField members "expression" [] stringOfJson)
    (optionalField members "explain" boolOfJson false)
  return ⟨expression, explain⟩

structure AnswerKeyRequest where
  typeName : String
  problemText : String

def AnswerKeyRequest.ofBody (body : Body) : Except Rejection AnswerKeyRequest := do
  let members ← body.members
  let (typeName, problemText) ← both
    (requiredField members "type" [] stringOfJson)
    (requiredField members "problemText" ["problem_text"] stringOfJson)
  return ⟨typeName, problemText⟩

end Abacus.Service
