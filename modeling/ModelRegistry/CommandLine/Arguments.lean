import ModelRegistry.Json.Render
import ModelRegistry.Options
import ModelRegistry.Text.Affix

/-!
# Command line arguments

The command line has the commands `process` and `check`. Options may stand before and after the
input file; a long option takes its value after an equals sign or as the next argument, a short one
also directly after its letter. No option may be given twice, and the next argument is no value if
it looks like an option itself. After `--` everything is a file. Every other command line is refused
as a whole.
-/

namespace ModelRegistry.CommandLine

structure OptionSpec where
  long : String
  short : Option Char
  /-- Which values the option takes; none if it is a flag. -/
  accepts : Option (String → Bool)

namespace OptionSpec

def flag (long : String) (short : Option Char) : OptionSpec := ⟨long, short, none⟩

def text (long : String) : OptionSpec := ⟨long, none, some fun _ => true⟩

def path (long : String) (short : Option Char) : OptionSpec := ⟨long, short, some (· ≠ "")⟩

def oneOf (long : String) (names : List String) : OptionSpec :=
  ⟨long, none, some fun name => names.contains name⟩

end OptionSpec

/-- The options found so far, by their long names, and the other arguments. -/
structure Collected where
  options : List (String × String) := []
  operands : List String := []

namespace Collected

def addOption (c : Collected) (o : OptionSpec) (value : String) : Option Collected :=
  if (c.options.lookup o.long).isSome ∨ !(o.accepts.all (· value)) then none
  else some { c with options := c.options ++ [(o.long, value)] }

def addOperands (c : Collected) (names : List String) : Collected :=
  { c with operands := c.operands ++ names }

def has (c : Collected) (long : String) : Bool :=
  (c.options.lookup long).isSome

def value? (c : Collected) (long : String) : Option String :=
  c.options.lookup long

end Collected

def looksLikeOption (arg : String) : Bool :=
  arg.startsWith "-" && arg ≠ "-"

/-- Splits `name=value`. -/
def splitValue (s : List Char) : List Char × Option (List Char) :=
  (s.takeWhile (· ≠ '='),
    if s.contains '=' then some ((s.dropWhile (· ≠ '=')).drop 1) else none)

/-- What an argument of letters after one dash gives: options that are complete, and perhaps one
that waits for its value. -/
def scanLetters (specs : List OptionSpec) (c : Collected) :
    List Char → Option (Collected × Option OptionSpec)
  | [] => some (c, none)
  | letter :: rest => do
    let o ← specs.find? (·.short = some letter)
    if o.accepts.isNone then scanLetters specs (← c.addOption o "") rest
    else
      match rest with
      | [] => some (c, some o)
      | '=' :: value => return (← c.addOption o (String.ofList value), none)
      | value => return (← c.addOption o (String.ofList value), none)

/-- What one argument gives that is no operand. -/
def scanOption (specs : List OptionSpec) (c : Collected) (arg : String) :
    Option (Collected × Option OptionSpec) :=
  match arg.toList with
  | '-' :: '-' :: body => do
    let (name, value) := splitValue body
    let o ← specs.find? (·.long.toList = name)
    match o.accepts, value with
    | none, none => return (← c.addOption o "", none)
    | none, some _ => none
    | some _, some value => return (← c.addOption o (String.ofList value), none)
    | some _, none => some (c, some o)
  | _ :: letters => scanLetters specs c letters
  | [] => none

def collect (specs : List OptionSpec) (c : Collected) : List String → Option Collected
  | [] => some c
  | arg :: args =>
    if arg = "--" then some (c.addOperands args)
    else if looksLikeOption arg then
      match scanOption specs c arg with
      | none => none
      | some (c, none) => collect specs c args
      | some (c, some o) =>
        match args with
        | [] => none
        | value :: args =>
          if looksLikeOption value then none
          else do collect specs (← c.addOption o value) args
    else collect specs (c.addOperands [arg]) args

structure ProcessArguments where
  input : String
  output : Option String := none
  report : Option String := none
  properties : Option String := none
  propertiesOut : Option String := none
  serializationLibrary : Option String := none
  importPolicy : ImportPolicy := .sameUnit
  modelImportPrefix : Option String := none
  strict : Bool := false
  layout : Json.Layout := .pretty
  deriving DecidableEq

inductive Command
  | process (a : ProcessArguments)
  | check (input : String)
  deriving DecidableEq

inductive Invocation
  | version
  | run (verbose : Bool) (command : Command)
  deriving DecidableEq

def verboseFlag : OptionSpec := .flag "verbose" (some 'v')

def layoutNames : List (String × Json.Layout) :=
  [("pretty", .pretty), ("compact", .compact)]

def policyNames : List (String × ImportPolicy) :=
  ImportPolicy.all.map fun p => (p.name, p)

def processOptions : List OptionSpec := [
  verboseFlag,
  .path "output" (some 'o'),
  .path "report" none,
  .path "properties" none,
  .path "properties-out" none,
  .text "serialization-library",
  .oneOf "import-policy" (policyNames.map (·.1)),
  .text "model-import-prefix",
  .flag "strict" none,
  .oneOf "format" (layoutNames.map (·.1))]

def checkOptions : List OptionSpec := [verboseFlag]

/-- What a value stands for in a list of names. -/
def Collected.choice? {α : Type} (c : Collected) (long : String) (names : List (String × α)) :
    Option α := do
  names.lookup (← c.value? long)

/-- The only operand, a path. -/
def Collected.input? (c : Collected) : Option String :=
  match c.operands with
  | [input] => if input = "" then none else some input
  | _ => none

def Collected.processArguments? (c : Collected) : Option ProcessArguments := do
  return {
    input := ← c.input?
    output := c.value? "output"
    report := c.value? "report"
    properties := c.value? "properties"
    propertiesOut := c.value? "properties-out"
    serializationLibrary := c.value? "serialization-library"
    importPolicy := (c.choice? "import-policy" policyNames).getD .sameUnit
    modelImportPrefix := c.value? "model-import-prefix"
    strict := c.has "strict"
    layout := (c.choice? "format" layoutNames).getD .pretty }

/-- What the letters of an argument before the command ask for. -/
inductive Preamble
  | version
  | verbose

/-- Letters before the command: the version is asked for as soon as its letter comes. -/
def preambleLetters (verbose : Bool) : List Char → Option (Preamble × Bool)
  | [] => some (.verbose, verbose)
  | 'V' :: _ => some (.version, verbose)
  | 'v' :: rest => if verbose then none else preambleLetters true rest
  | _ => none

/-- Reads the arguments before the command and then those of the command. -/
def parseArguments (verbose : Bool) : List String → Option Invocation
  | [] => none
  | arg :: args =>
    match arg with
    | "process" => do
      let c ← collect processOptions {} args
      return .run (verbose || c.has "verbose") (.process (← c.processArguments?))
    | "check" => do
      let c ← collect checkOptions {} args
      return .run (verbose || c.has "verbose") (.check (← c.input?))
    | "--version" => some .version
    | "--verbose" => if verbose then none else parseArguments true args
    | arg =>
      match arg.toList with
      | '-' :: letter :: letters =>
        match preambleLetters verbose (letter :: letters) with
        | some (.version, _) => some .version
        | some (.verbose, verbose) => parseArguments verbose args
        | none => none
      | _ => none

def Invocation.ofArguments? (args : List String) : Option Invocation :=
  parseArguments false args

end ModelRegistry.CommandLine
