import Abacus.Text.Blank
import Abacus.Text.Digit
import Abacus.Text.Quoted

/-!
# Arguments of the command line

The program's own options come before the command, the command's options after it. An option may be
shortened as long as one option is meant. Options are told from other arguments before any of them
is read.
-/

namespace Abacus.Console

/-! ## Commands and options -/

inductive Command where
  | eval
  | tokens
  | toPostfix
  | steps
deriving DecidableEq, Repr

namespace Command

def all : List Command := [eval, tokens, toPostfix, steps]

def name : Command → String
  | eval => "eval"
  | tokens => "tokens"
  | toPostfix => "postfix"
  | steps => "steps"

def ofName? (name : String) : Option Command := all.find? fun command => command.name == name

end Command

inductive Flag where
  | help
  | logLevel
  | text
  | strictOperands
  | strictCharacters
deriving DecidableEq, Repr

namespace Flag

def names : Flag → List String
  | help => ["-h", "--help"]
  | logLevel => ["--log-level"]
  | text => ["--text", "-t"]
  | strictOperands => ["--strict-operands"]
  | strictCharacters => ["--strict-characters"]

def takesValue : Flag → Bool
  | logLevel | text => true
  | help | strictOperands | strictCharacters => false

def label (flag : Flag) : String := "/".intercalate flag.names

def ofProgram : List Flag := [help, logLevel]

def ofCommand : List Flag := [help, text, strictOperands, strictCharacters]

end Flag

/-! ## Faults -/

inductive UsageFault where
  | ambiguous (argument : String) (candidates : List String)
  | missingValue (flag : Flag)
  | unwantedValue (flag : Flag) (value : String)
  | missingCommand
  | unknownCommand (name : String)
  | unrecognized (arguments : List String)
deriving DecidableEq, Repr

def UsageFault.message : UsageFault → String
  | ambiguous argument candidates =>
    "ambiguous option: " ++ argument ++ " could match " ++ ", ".intercalate candidates
  | missingValue flag => "argument " ++ flag.label ++ ": expected one argument"
  | unwantedValue flag value =>
    "argument " ++ flag.label ++ ": ignored explicit argument " ++ Text.quoted value
  | missingCommand => "the following arguments are required: command"
  | unknownCommand name =>
    "argument command: invalid choice: " ++ Text.quoted name ++ " (choose from "
      ++ ", ".intercalate (Command.all.map fun command => Text.quoted command.name) ++ ")"
  | unrecognized arguments => "unrecognized arguments: " ++ " ".intercalate arguments

inductive Interruption where
  | helpWanted
  /-- A fault in the arguments of the program, or of the command if one is given. -/
  | usage (command? : Option Command) (fault : UsageFault)
deriving DecidableEq, Repr

/-! ## Kinds of arguments -/

inductive Word where
  /-- An option, perhaps with a value attached. -/
  | option (flag : Flag) (attached? : Option String)
  /-- The short name of help and what stands right behind it. -/
  | help (behind : List Char)
  | unknownOption
  | plain
  /-- The first `--`. All that follows is plain. -/
  | separator
deriving DecidableEq, Repr

def endsNumber (cs : List Char) : Bool := cs.isEmpty || cs == ['\n']

/-- A minus, digits of any script, and perhaps a point before the last of them. -/
def isNegativeNumber : List Char → Bool
  | '-' :: cs =>
    match Text.leadingDigits cs with
    | (_, '.' :: rest) =>
      let (fraction, rest) := Text.leadingDigits rest
      !fraction.isEmpty && endsNumber rest
    | (whole, rest) => !whole.isEmpty && endsNumber rest
  | _ => false

/-- The text before the first `=` and, if there is one, the text after it. -/
def splitAttached (argument : String) : String × Option String :=
  match argument.toList.span (· != '=') with
  | (stem, '=' :: rest) => (String.ofList stem, some (String.ofList rest))
  | _ => (argument, none)

def named? (flags : List Flag) (name : String) : Option Flag :=
  flags.find? fun flag => flag.names.contains name

/-- The options that a shortened long name can mean. -/
def longCandidates (flags : List Flag) (argument : String) : List (String × Word) :=
  let (stem, attached?) := splitAttached argument
  flags.flatMap fun flag =>
    (flag.names.filter fun name => stem.toList.isPrefixOf name.toList).map
      (·, .option flag attached?)

/-- The options whose short name starts the argument. What stands behind the name is the option's
value, except for help, which takes none. -/
def shortCandidates (flags : List Flag) (argument : String) : List (String × Word) :=
  let short := String.ofList (argument.toList.take 2)
  let behind := argument.toList.drop 2
  flags.flatMap fun flag =>
    (flag.names.filter (· == short)).map
      (·, if flag.takesValue then .option flag (String.ofList behind) else .help behind)

def candidates (flags : List Flag) (argument : String) : List (String × Word) :=
  match argument.toList with
  | '-' :: '-' :: _ => longCandidates flags argument
  | _ => shortCandidates flags argument

/-- An option whose name and value stand on either side of `=`. What is attached to the short name
of help is read like more short names. -/
def attached (flag : Flag) (stem value : String) : Word :=
  if flag == .help && stem == "-h" && !value.isEmpty then .help value.toList
  else .option flag (some value)

/-- What an argument is that starts with a minus and is not the name of an option. -/
def classifyOther (flags : List Flag) (argument : String) : Except UsageFault Word :=
  match splitAttached argument with
  | (stem, some value) =>
    match named? flags stem with
    | some flag => .ok (attached flag stem value)
    | none => ofCandidates
  | (_, none) => ofCandidates
where
  ofCandidates : Except UsageFault Word :=
    match candidates flags argument with
    | [] =>
      if isNegativeNumber argument.toList || argument.toList.contains ' ' then .ok .plain
      else .ok .unknownOption
    | [(_, word)] => .ok word
    | found => .error (.ambiguous argument (found.map (·.1)))

def classify (flags : List Flag) (argument : String) : Except UsageFault Word :=
  match argument.toList with
  | '-' :: rest =>
    match named? flags argument with
    | some flag => .ok (.option flag none)
    | none => if rest.isEmpty then .ok .plain else classifyOther flags argument
  | _ => .ok .plain

def classifyAll (flags : List Flag) : List String → Except UsageFault (List (String × Word))
  | [] => .ok []
  | "--" :: rest => .ok (("--", .separator) :: rest.map (·, .plain))
  | argument :: rest => do
    let word ← classify flags argument
    return (argument, word) :: (← classifyAll flags rest)

/-! ## Reading -/

/-- An option with its value, and the arguments after it. An attached value `--` is empty. -/
def takeOption (command? : Option Command) (flag : Flag) (attached? : Option String)
    (rest : List (String × Word)) : Except Interruption (Option String × List (String × Word)) :=
  match flag.takesValue, attached? with
  | true, some value => .ok (some (if value == "--" then "" else value), rest)
  | true, none =>
    match rest with
    | (value, .plain) :: rest => .ok (some value, rest)
    | _ => .error (.usage command? (.missingValue flag))
  | false, some value => .error (.usage command? (.unwantedValue flag value))
  | false, none => if flag == .help then .error .helpWanted else .ok (none, rest)

/-- How reading ends at the short name of help. What stands behind it is more short names, and they
are read before help is given. -/
def atHelp (command? : Option Command) (rest : List (String × Word)) : List Char → Interruption
  | [] => .helpWanted
  | c :: cs =>
    if c == 'h' then atHelp command? rest cs
    else if c == 't' && command?.isSome then
      match cs, rest with
      | _ :: _, _ | [], (_, .plain) :: _ => .helpWanted
      | [], _ => .usage command? (.missingValue .text)
    else .usage command? (.unwantedValue .help (String.ofList (c :: cs)))

structure Given where
  options : List (Flag × Option String) := []
  others : List String := []

namespace Given

def addOption (flag : Flag) (value? : Option String) (g : Given) : Given :=
  { g with options := (flag, value?) :: g.options }

def addOther (argument : String) (g : Given) : Given :=
  { g with others := argument :: g.others }

def has (flag : Flag) (g : Given) : Bool := g.options.any (·.1 == flag)

def value? (flag : Flag) (g : Given) : Option String :=
  (g.options.reverse.find? (·.1 == flag)).bind (·.2)

end Given

/-- The options of a command. Each call takes an argument, so their count is enough fuel. -/
def readCommand (command : Command) : Nat → List (String × Word) → Except Interruption Given
  | 0, _ | _, [] => .ok {}
  | fuel + 1, (argument, word) :: rest =>
    match word with
    | .option flag attached? => do
      let (value?, rest) ← takeOption command flag attached? rest
      return (← readCommand command fuel rest).addOption flag value?
    | .help behind => .error (atHelp (some command) rest behind)
    | .unknownOption | .plain | .separator => do
      return (← readCommand command fuel rest).addOther argument

/-- The program's options, the command and the command's arguments, with fuel as above. The command
is the first plain argument. -/
def readProgram : Nat → List (String × Word) →
    Except Interruption (Given × Command × List String)
  | 0, _ | _, [] => .error (.usage none .missingCommand)
  | fuel + 1, (argument, word) :: rest =>
    match word with
    | .option flag attached? => do
      let (value?, rest) ← takeOption none flag attached? rest
      let (given, command, arguments) ← readProgram fuel rest
      return (given.addOption flag value?, command, arguments)
    | .help behind => .error (atHelp none rest behind)
    | .unknownOption => do
      let (given, command, arguments) ← readProgram fuel rest
      return (given.addOther argument, command, arguments)
    | .plain =>
      match Command.ofName? argument with
      | some command => .ok ({}, command, rest.map (·.1))
      | none => .error (.usage none (.unknownCommand argument))
    | .separator =>
      .error (.usage none (if rest.isEmpty then .missingCommand else .unknownCommand argument))

structure Invocation where
  command : Command
  logLevel? : Option String
  text? : Option String
  strictOperands : Bool
  strictCharacters : Bool
deriving DecidableEq, Repr

def Invocation.ofGiven (program : Given) (command : Command) (own : Given) : Invocation where
  command
  logLevel? := program.value? .logLevel
  text? := own.value? .text
  strictOperands := own.has .strictOperands
  strictCharacters := own.has .strictCharacters

def Invocation.ofArguments (arguments : List String) : Except Interruption Invocation := do
  let words ← (classifyAll Flag.ofProgram arguments).mapError (.usage none)
  let (program, command, rest) ← readProgram (words.length + 1) words
  let words ← (classifyAll Flag.ofCommand rest).mapError (.usage command)
  let own ← readCommand command (words.length + 1) words
  match program.others ++ own.others with
  | [] => return .ofGiven program command own
  | others => throw (.usage none (.unrecognized others))

end Abacus.Console
