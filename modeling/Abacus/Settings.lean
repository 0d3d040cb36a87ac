import Abacus.Validation
import Abacus.Record

/-!
# Settings

Each field takes its value from the first source that has one: overrides, then the environment,
then the `.env` file, then the default. Letter case in the names is ignored. Fields are resolved
apart from each other, so a bad value that a higher source masks is never looked at. How sources are
read and values brought to their types is the work of a loader.
-/

namespace Abacus

structure Settings where
  strictOperands : Bool
  strictCharacters : Bool
  riddleAnswer : String
  maxExpressionLength : Int
  logLevel : String
  appTitle : String
  appVersion : String
deriving DecidableEq, Repr

namespace Settings

/-! ## Fields -/

inductive Field where
  | strictOperands
  | strictCharacters
  | riddleAnswer
  | maxExpressionLength
  | logLevel
  | appTitle
  | appVersion
deriving DecidableEq, Repr

namespace Field

/-- The fields as they are declared. -/
def all : List Field :=
  [strictOperands, strictCharacters, riddleAnswer, maxExpressionLength, logLevel, appTitle,
   appVersion]

def name : Field → String
  | strictOperands => "strict_operands"
  | strictCharacters => "strict_characters"
  | riddleAnswer => "riddle_answer"
  | maxExpressionLength => "max_expression_length"
  | logLevel => "log_level"
  | appTitle => "app_title"
  | appVersion => "app_version"

/-- The name of a field in the environment and in the `.env` file. -/
def variableName (field : Field) : String := "exprcalc_" ++ field.name

def Value : Field → Type
  | strictOperands | strictCharacters => Bool
  | maxExpressionLength => Int
  | riddleAnswer | logLevel | appTitle | appVersion => String

/-- What a field complains of. -/
def objection (field : Field) (issue : Issue) : Complaint := ⟨issue, [.name field.name]⟩

end Field

def get (s : Settings) : (field : Field) → field.Value
  | .strictOperands => s.strictOperands
  | .strictCharacters => s.strictCharacters
  | .riddleAnswer => s.riddleAnswer
  | .maxExpressionLength => s.maxExpressionLength
  | .logLevel => s.logLevel
  | .appTitle => s.appTitle
  | .appVersion => s.appVersion

def defaults : Settings where
  strictOperands := false
  strictCharacters := false
  riddleAnswer := "42"
  maxExpressionLength := 10000
  logLevel := "INFO"
  appTitle := "ExprCalc"
  appVersion := "0.1.0"

/-! ## Sources -/

/-- Variables in order; a later one replaces an earlier one of the same name. -/
abbrev Variables := List (String × String)

structure Sources where
  overrides : List (String × Json) := []
  environment : Variables := []
  dotenv : Variables := []

/-- What a source has for the fields, before it is brought to their types. -/
abbrev Found (α : Type) := Field → Option α

/-! ## Loaders -/

/-- The parts of a loader of settings. -/
structure Loader where
  /-- Whether an override of this name is one of the field. -/
  isOverrideOf : String → Field → Bool
  ofOverrides : List (String × Json) → Found Json
  ofVariables : Variables → Found String
  /-- What the overrides, the environment and the file have, as one. -/
  merge : Found Json → Found String → Found String → Found Json
  bool : Json → Except Issue Bool
  integer : Json → Except Issue Int
  string : Json → Except Issue String

/-- The complaint of a field that has one. -/
def complaint? {α : Type} : Except Complaint α → Option Complaint
  | .ok _ => none
  | .error complaint => some complaint

namespace Loader

def coerce (l : Loader) : (field : Field) → Json → Except Issue field.Value
  | .strictOperands | .strictCharacters => l.bool
  | .maxExpressionLength => l.integer
  | .riddleAnswer | .logLevel | .appTitle | .appVersion => l.string

def raw (l : Loader) (sources : Sources) : Found Json :=
  l.merge (l.ofOverrides sources.overrides) (l.ofVariables sources.environment)
    (l.ofVariables sources.dotenv)

def field (l : Loader) (sources : Sources) (field : Field) : Except Complaint field.Value :=
  match l.raw sources field with
  | none => .ok (defaults.get field)
  | some raw => (l.coerce field raw).mapError field.objection

/-- The settings, or the complaints in the order of the fields. -/
def load (l : Loader) (sources : Sources) : Except (List Complaint) Settings :=
  match l.field sources .strictOperands, l.field sources .strictCharacters,
    l.field sources .riddleAnswer, l.field sources .maxExpressionLength, l.field sources .logLevel,
    l.field sources .appTitle, l.field sources .appVersion with
  | .ok strictOperands, .ok strictCharacters, .ok riddleAnswer, .ok maxExpressionLength,
    .ok logLevel, .ok appTitle, .ok appVersion =>
    .ok { strictOperands, strictCharacters, riddleAnswer, maxExpressionLength, logLevel, appTitle,
          appVersion }
  | _, _, _, _, _, _, _ =>
    .error (Field.all.filterMap fun field => complaint? (l.field sources field))

end Loader

/-! ## The standard loader -/

/-- The last variable with this name in any letter case; `name` is in lower case. -/
def Variables.value? (entries : Variables) (name : String) : Option String :=
  (entries.reverse.find? fun entry => lowerCase entry.1 == name).map (·.2)

/-- The value of the first override with the name of the field in any letter case. -/
def override? (overrides : List (String × Json)) (field : Field) : Option Json :=
  (overrides.find? fun member => lowerCase member.1 == field.name).bind fun member =>
    Json.lookup? overrides member.1

def Loader.standard : Loader where
  isOverrideOf := fun name field => lowerCase name == field.name
  ofOverrides := override?
  ofVariables := fun entries field => entries.value? field.variableName
  merge := fun overrides environment dotenv field =>
    overrides field <|> (environment field).map .string <|> (dotenv field).map .string
  bool := boolOfJson
  integer := integerOfJson
  string := stringOfJson

/-- The settings by the standard loader. -/
def resolve (sources : Sources) : Except (List Complaint) Settings :=
  Loader.standard.load sources

end Settings

end Abacus
