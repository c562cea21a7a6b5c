import ModelRegistry.CommandLine.Plan

/-!
# Executing a command line

What a command line does in a working directory: its exit code, what it prints, what it logs and the
files afterwards. A file that cannot be created ends the run; what was done before remains.
-/

namespace ModelRegistry.CommandLine

structure Execution where
  exit : Nat
  stdout : String := ""
  /-- What is printed to standard error besides the log. -/
  stderr : String := ""
  /-- What is logged. Its lines go to standard error, too, each when it is logged. -/
  events : List Event := []
  tree : FileTree

namespace Execution

def start (t : FileTree) : Execution := { exit := 0, tree := t }

def complain (x : Execution) (line : String) : Execution :=
  { x with stderr := x.stderr ++ line ++ "\n" }

def fail (x : Execution) (e : CommandError) : Execution :=
  { x.complain e.text with exit := 1 }

def act (x : Execution) : Action → Except CommandError Execution
  | .log e => .ok { x with events := x.events ++ [e] }
  | .complain line => .ok (x.complain line)
  | .print text => .ok { x with stdout := x.stdout ++ text }
  | .write path text =>
    match x.tree.write path text.toUTF8 with
    | .ok tree => .ok { x with tree }
    | .error e => .error (.uncreated path e)

def run (x : Execution) (error : Option CommandError) : List Action → Execution
  | [] =>
    match error with
    | none => x
    | some e => x.fail e
  | a :: as =>
    match x.act a with
    | .ok x => run x error as
    | .error e => x.fail e

end Execution

def Command.execute (c : Command) (verbose : Bool) (t : FileTree) : Execution :=
  let plan := c.plan t.read
  let x := (Execution.start t).run plan.error plan.actions
  { x with events := x.events.filter (isLogged verbose) }

def Invocation.execute (t : FileTree) : Invocation → Execution
  | .version => { exit := 0, stdout := versionText, tree := t }
  | .run verbose command => command.execute verbose t

/-- Runs a command line. One that is refused does nothing. -/
def execute (args : List String) (t : FileTree) : Execution :=
  match Invocation.ofArguments? args with
  | some i => i.execute t
  | none => { exit := 2, tree := t }

end ModelRegistry.CommandLine
