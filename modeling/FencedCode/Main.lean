import FencedCode.Command

/-!
# The program

Reading of files and of the environment, and printing; all decisions are made by `Command`.
-/

namespace FencedCode

/-- Read a file as text. -/
def readFile (path : String) : IO Reading := do
  try
    let bytes ← IO.FS.readBinFile path
    match String.fromUTF8? bytes with
    | some text => return .ok text.toList
    | none => return .error .notText
  catch
    | .noFileOrDirectory _ _ _ => return .error .missing
    | .inappropriateType _ _ _ => return .error .directory
    | e => return .error (.other (toString e))

/-- What paths are expanded with, for a path that names these variables. -/
def readEnvironment (names : List String) : IO Environment := do
  let values ← names.mapM fun name ↦ do return (name, ← IO.getEnv name)
  return ⟨(← IO.getEnv "HOME").getD "", fun name ↦ (values.lookup name).bind id⟩

end FencedCode

open FencedCode in
/-- Carry out the command that the arguments ask for. -/
def main (args : List String) : IO UInt32 := do
  let command := Command.ofArguments args
  let environment ← readEnvironment command.variableNames
  let outcome ← command.perform environment readFile
  IO.print (String.ofList outcome.output)
  IO.eprint outcome.errors
  return outcome.code
