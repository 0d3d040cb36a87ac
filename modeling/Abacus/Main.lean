import Abacus.Console

/-! # The program -/

namespace Abacus.Main

partial def readAll (stream : IO.FS.Stream) (text : String) : IO String := do
  let line ← stream.getLine
  if line.isEmpty then return text else readAll stream (text ++ line)

/-- The variables of the environment. Where the system does not list them, those that set a field
are asked for by name. -/
def environment : IO Settings.Variables := do
  try
    let text ← IO.FS.readFile "/proc/self/environ"
    return (text.splitOn "\x00").filterMap fun entry =>
      match entry.toList.span (· != '=') with
      | (name, _ :: value) => some (String.ofList name, String.ofList value)
      | _ => none
  catch _ =>
    let names := Settings.Field.all.map fun field => Text.upperCase field.variableName
    let found ← names.mapM fun name => return (← IO.getEnv name).map fun value => (name, value)
    return found.filterMap id

/-- What the `.env` file in the working directory holds, if there is one. -/
def dotenv (environment : Settings.Variables) : IO Settings.Dotenv := do
  try
    return .read environment (← IO.FS.readFile ".env")
  catch _ => return {}

def helpText : String :=
  "usage: exprcalc [--log-level LEVEL] (eval | tokens | postfix | steps)"
    ++ " [--text TEXT] [--strict-operands] [--strict-characters]"

end Abacus.Main

open Abacus in
def main (arguments : List String) : IO UInt32 := do
  let standardInput ←
    if Console.readsInput arguments then Main.readAll (← IO.getStdin) "" else pure ""
  let environment ← Main.environment
  let surroundings : Console.Surroundings :=
    { standardInput, environment, dotenv := ← Main.dotenv environment }
  match Console.run surroundings arguments with
  | .ok (.finished code output errors) =>
    IO.print output
    IO.eprint errors
    return code.toUInt32
  | .ok (.rejected message) =>
    IO.eprintln message
    return 2
  | .ok .helpWanted =>
    IO.println Main.helpText
    return 0
  | .error crash =>
    IO.eprintln crash.message
    return 1
