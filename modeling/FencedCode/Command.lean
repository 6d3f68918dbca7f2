import FencedCode.Config
import FencedCode.Diagnostic.Json
import FencedCode.Document
import FencedCode.Fragment.Json
import FencedCode.PathExpansion
import FencedCode.Relocation

/-!
# The command line

What the arguments ask for, and what carrying it out prints. The configuration is loaded before the
document and the document before the diagnostics, so the first of several faults is reported.

Section 8.3 of the specification.
-/

namespace FencedCode

/-- What to do with a document. -/
inductive Task
  /-- Print the sources of its fragments. -/
  | extract (document : String)
  /-- Print the diagnostics about its fragments as diagnostics about the document. -/
  | relocate (document diagnostics : String)
  deriving DecidableEq, Repr

/-- What the arguments of a command line ask for. -/
inductive Command
  | run (config : Option String) (task : Task)
  | version
  | help
  | misuse
  deriving DecidableEq, Repr

namespace Command

/-- Whether an argument looks like an option rather than a value. -/
def isOption (arg : String) : Bool := arg.startsWith "-" && arg != "-"

/-- The option that names the configuration. -/
def configOption : String := "--config"

/-- The value of an argument that gives the configuration in one piece. -/
def configValue? (arg : String) : Option String :=
  let lead := (configOption ++ "=").toList
  if lead.isPrefixOf arg.toList then some (String.ofList (arg.toList.drop lead.length)) else none

/-- A value that may be given once; none when it is given again or empty. -/
def give? (old : Option String) (value : String) : Option (Option String) :=
  if old.isSome || value.isEmpty then none else some (some value)

/-- The names of a task's arguments found so far, last one first, made into the task. -/
def task? (relocates : Bool) (names : List String) : Option Task :=
  match relocates, names with
  | false, [document] => some (.extract document)
  | true, [diagnostics, document] => some (.relocate document diagnostics)
  | _, _ => none

/-- Number of arguments of a task. -/
def arity (relocates : Bool) : Nat := if relocates then 2 else 1

/-- The arguments after the name of a task; `outer` is the configuration given before the name, and
`inner` the one given after it, which counts more. After two hyphens nothing is an option. -/
def ofTaskArguments (relocates : Bool) (outer : Option String) :
    Option String → Bool → List String → List String → Command
  | inner, _, names, [] =>
    match task? relocates names with
    | some task => .run (inner.or outer) task
    | none => .misuse
  | inner, literal, names, arg :: args =>
    if !literal && arg = "--" then ofTaskArguments relocates outer inner true names args
    else if !literal && arg = configOption then
      match args with
      | [] => .misuse
      | value :: args =>
        match if isOption value then none else give? inner value with
        | some inner => ofTaskArguments relocates outer inner literal names args
        | none => .misuse
    else if !literal && isOption arg then
      match configValue? arg with
      | some value =>
        match give? inner value with
        | some inner => ofTaskArguments relocates outer inner literal names args
        | none => .misuse
      | none => if arg = "--help" || arg.startsWith "-h" then .help else .misuse
    else if arg.isEmpty || arity relocates ≤ names.length then .misuse
    else ofTaskArguments relocates outer inner literal (arg :: names) args

/-- The arguments of a command line, when the configuration `config` was given before them. -/
def ofArgumentsFrom : Option String → List String → Command
  | _, [] => .misuse
  | config, arg :: args =>
    if arg = "extract" then ofTaskArguments false config none false [] args
    else if arg = "translate" then ofTaskArguments true config none false [] args
    else if arg = "help" || arg = "--help" || arg.startsWith "-h" then .help
    else if arg = "--version" || arg.startsWith "-V" then .version
    else if arg = configOption then
      match args with
      | [] => .misuse
      | value :: args =>
        match if isOption value then none else give? config value with
        | some config => ofArgumentsFrom config args
        | none => .misuse
    else
      match (configValue? arg).bind (give? config) with
      | some config => ofArgumentsFrom config args
      | none => .misuse

/-- What the arguments of a command line ask for. -/
def ofArguments (args : List String) : Command := ofArgumentsFrom none args

/-- The variables that a command names in paths. -/
def variableNames : Command → List String
  | run (some path) _ => PathExpansion.variableNames path.toList
  | _ => []

end Command

/-- Why a task fails. -/
inductive TaskError
  | config (error : ConfigError)
  | configNotFound (path : String)
  | unreadable (path : String)
  | invalidDiagnostics (path : String)
  | relocation (error : RelocationError)
  deriving DecidableEq, Repr

/-- The wording of a task error. -/
def TaskError.message : TaskError → String
  | .config error => error.message
  | .configNotFound path => "config file '" ++ path ++ "' not found"
  | .unreadable path => "failed to read '" ++ path ++ "'"
  | .invalidDiagnostics path => "invalid diagnostics in '" ++ path ++ "'"
  | .relocation error => error.message

/-- What a command line leaves behind: the exit code, and what is printed. -/
structure Outcome where
  code : UInt32
  output : List Char := []
  errors : String := ""
  deriving DecidableEq, Repr

namespace Task

variable {m : Type → Type} [Monad m]

/-- The configuration at a path that is given, or else at the path that is used by default. -/
def loadConfig (e : Environment) (read : String → m Reading) (given : Option String) :
    ExceptT TaskError m Config := do
  match given with
  | some path =>
    let path := e.expandPath path
    let found ← ofExcept ((Config.load path (← read path)).mapError TaskError.config)
    match found with
    | some config => return config
    | none => throw (TaskError.configNotFound path)
  | none =>
    let path := e.configPath
    let found ← ofExcept ((Config.load path (← read path)).mapError TaskError.config)
    return found.getD {}

/-- The text of a file that has to be there. -/
def readText (read : String → m Reading) (path : String) : ExceptT TaskError m (List Char) := do
  ofExcept ((← read path).mapError fun _ ↦ TaskError.unreadable path)

/-- What a task prints when the files that it names are read by `read`. -/
def output (e : Environment) (read : String → m Reading) (config : Option String) (task : Task) :
    ExceptT TaskError m (List Char) := do
  let selection := (← loadConfig e read config).selection
  match task with
  | extract document =>
    let text ← readText read document
    return Source.writeList ((Document.ofText text).extract selection document).sources
  | relocate document diagnostics =>
    let text ← readText read document
    let (_, registry) := Registry.empty.extract selection document text
    let raw ← readText read diagnostics
    let some batches := Diagnostic.readBatches? raw |
      throw (TaskError.invalidDiagnostics diagnostics)
    let relocated ←
      ofExcept ((FencedCode.relocate registry document batches).mapError TaskError.relocation)
    return Diagnostic.writeList relocated

end Task

/-- How the program is called. -/
def Command.usage : String :=
  "Usage: mdfence [--config FILE] extract FILE\n" ++
    "       mdfence [--config FILE] translate FILE DIAGNOSTICS\n"

/-- What a command leaves behind when the files that it names are read by `read`. -/
def Command.perform {m : Type → Type} [Monad m] (e : Environment) (read : String → m Reading) :
    Command → m Outcome
  | .version => pure { code := 0, output := "mdfence 0.1.0\n".toList }
  | .help => pure { code := 0, output := usage.toList }
  | .misuse => pure { code := 2, errors := usage }
  | .run config task => do
    match ← (task.output e read config).run with
    | .ok text => return { code := 0, output := text ++ ['\n'] }
    | .error error => return { code := 1, errors := "Error: " ++ error.message ++ "\n" }

end FencedCode
