import ModelRegistry.CommandLine.Execution

/-!
# The program

Reads the input files, plans the command and carries the plan out.
-/

open ModelRegistry CommandLine

namespace ModelRegistry.CommandLine

def systemError (e : IO.Error) : SystemError :=
  match e with
  | .noFileOrDirectory .. => .noSuchFile
  | .inappropriateType _ 20 _ => .notDirectory
  | .inappropriateType _ 21 _ => .isDirectory
  | e => .other e.toString

def readInput (path : String) : IO InputFile := do
  match ← (IO.FS.Handle.mk path .read).toBaseIO with
  | .error e => return .unopened (systemError e)
  | .ok file =>
    match ← file.readBinToEnd.toBaseIO with
    | .error e => return .unreadable (systemError e)
    | .ok bytes => return .content bytes

def readInputs (c : Command) : IO (List (String × InputFile)) :=
  c.inputs.mapM fun path => return (path, ← readInput path)

/-- Carries out an action; what it gives is why it could not. -/
def perform (verbose : Bool) (a : Action) : IO (Option CommandError) := do
  match a with
  | .log e => if isLogged verbose e then IO.eprintln e.line
  | .complain line => IO.eprintln line
  | .print text => IO.print text
  | .write path text =>
    if let .error e ← (IO.FS.writeFile path text).toBaseIO then
      return some (.uncreated path (systemError e))
  return none

def performAll (verbose : Bool) : List Action → IO (Option CommandError)
  | [] => return none
  | a :: as => do
    match ← perform verbose a with
    | none => performAll verbose as
    | some e => return some e

def usage : String :=
  "Usage: model-postprocess [-v] process [OPTIONS] <INPUT>\n" ++
  "       model-postprocess [-v] check <INPUT>\n" ++
  "       model-postprocess --version\n"

end ModelRegistry.CommandLine

def main (args : List String) : IO UInt32 := do
  match Invocation.ofArguments? args with
  | none =>
    IO.eprint usage
    return 2
  | some .version =>
    IO.print versionText
    return 0
  | some (.run verbose command) =>
    let files ← readInputs command
    let plan := command.plan fun path => (files.lookup path).getD (.unopened .noSuchFile)
    match (← performAll verbose plan.actions) <|> plan.error with
    | none => return 0
    | some e =>
      IO.eprintln e.text
      return 1
