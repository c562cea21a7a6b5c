import ModelRegistry.CommandLine.Arguments
import ModelRegistry.CommandLine.FileTree
import ModelRegistry.PostProcessing
import ModelRegistry.Settings

/-!
# Plans of the command line

A command reads its input files, and what it then does is a plan: a list of actions and, if it
fails, an error. All that can fail beside the writing of files fails before the first action that
writes or prints.
-/

namespace ModelRegistry.CommandLine

inductive Action
  | log (e : Event)
  /-- Writes a line to standard error. -/
  | complain (line : String)
  /-- Writes text to standard output. -/
  | print (text : String)
  | write (path text : String)

/-- What the command could not do, and why. -/
structure CommandError where
  context : String
  cause : Option String := none

/-- Every line of a cause is indented. -/
def indentCause (cause : String) : String :=
  "    " ++ String.ofList (cause.toList.flatMap fun c =>
    if c = '\n' then ['\n', ' ', ' ', ' ', ' '] else [c])

def CommandError.text (e : CommandError) : String :=
  "Error: " ++ e.context ++
    match e.cause with
    | none => ""
    | some cause => "\n\nCaused by:\n" ++ indentCause cause

def CommandError.uncreated (path : String) (e : SystemError) : CommandError :=
  ⟨"Failed to create output file: " ++ path, some e.message⟩

def versionText : String := "model-postprocess 0.1.0\n"

/-- A verbose run logs every event, any other the warnings. -/
def isLogged (verbose : Bool) (e : Event) : Bool :=
  verbose || e.level = .warn

structure Plan where
  actions : List Action
  error : Option CommandError := none

/-- What is done before an error, and the error. -/
abbrev Planning := ExceptT CommandError (Logged Action)

namespace Planning

def act (a : Action) : Planning Unit :=
  ExceptT.lift (Logged.note a)

def all (as : List Action) : Planning Unit :=
  ExceptT.lift ⟨(), as⟩

def ofExcept {α ε : Type} (x : Except ε α) (f : ε → CommandError) : Planning α :=
  ExceptT.mk (pure (x.mapError f))

def plan (p : Planning Unit) : Plan :=
  let run := p.run
  { actions := run.log
    error := match run.value with
      | .ok () => none
      | .error e => some e }

end Planning

/-- Decodes an input file. -/
def decodeFile {α : Type} (d : Json.Decoder α) (what path : String) :
    InputFile → Except CommandError α
  | .unopened e => .error ⟨"Failed to open input file: " ++ path, some e.message⟩
  | .unreadable e => .error (unparsed e.message)
  | .content bytes =>
    (d.ofSource (.ofBytes bytes)).mapError fun e => unparsed e.message
where
  unparsed (cause : String) : CommandError :=
    ⟨"Failed to parse " ++ what ++ " from: " ++ path, some cause⟩

def warning (d : Diagnostic) : String :=
  "Warning: " ++ d.toJson.render .compact

/-- A tree as a text of its own, with a line end. -/
def fileText (l : Json.Layout) (j : Json) : String :=
  j.render l ++ "\n"

def readProperties (read : String → InputFile) (a : ProcessArguments) :
    Except CommandError AdditionalProperties :=
  match a.properties with
  | some path => decodeFile AdditionalProperties.decoder "additional properties" path (read path)
  | none => .ok .empty

/-- A library that is named by an argument overrides that of the properties. -/
def ProcessArguments.overrideLibrary (a : ProcessArguments) (ps : AdditionalProperties) :
    AdditionalProperties :=
  match a.serializationLibrary with
  | some name => ps.insert AdditionalProperties.libraryKey (.string name)
  | none => ps

def ProcessArguments.options (a : ProcessArguments) (settings : Options) : Options where
  serializationLibrary := settings.serializationLibrary
  importPolicy := a.importPolicy
  modelImportPrefix := a.modelImportPrefix
  features := settings.features
  strict := a.strict

/-- What a successful run writes, in order. -/
def ProcessArguments.outputs (a : ProcessArguments) (registry : Registry) (report : Report)
    (properties : AdditionalProperties) : List Action :=
  let text := fileText a.layout registry.toJson
  [match a.output with
    | some path => .write path text
    | none => .print text] ++
  (a.report.map fun path => Action.write path (fileText a.layout report.toJson)).toList ++
  (a.propertiesOut.map fun path => Action.write path (fileText a.layout properties.toJson)).toList

def planProcess (read : String → InputFile) (a : ProcessArguments) : Planning Unit := do
  let registry ← .ofExcept (decodeFile Registry.decoder "registry" a.input (read a.input)) id
  let properties ← .ofExcept (readProperties read a) id
  let settings ← .ofExcept (Settings.ofProperties (a.overrideLibrary properties))
    fun e => ⟨"Invalid generator options", some e.message⟩
  .all (settings.log.map .log)
  let run := registry.postProcess (a.options settings.value.options)
  .all (run.events.map .log)
  let report ← .ofExcept run.result
    fun issue => ⟨"Post-processing failed", some (Failure.inconsistent issue).message⟩
  .all (report.diagnostics.map fun d => .complain (warning d))
  .all (a.outputs run.registry report settings.value.additionalProperties)

def planCheck (read : String → InputFile) (input : String) : Planning Unit := do
  let registry ← .ofExcept (decodeFile Registry.decoder "registry" input (read input)) id
  let issues := registry.check .clientDefaults
  .all (issues.map fun i => .complain i.message)
  if issues.isEmpty then .act (.complain "No inconsistencies found")
  else
    let count := String.ofList (Decimal.natText issues.length)
    throw ⟨count ++ " inconsistencies found", none⟩

/-- The files that a command reads. -/
def Command.inputs : Command → List String
  | .process a => a.input :: a.properties.toList
  | .check input => [input]

def Command.plan (read : String → InputFile) : Command → Plan
  | .process a => (planProcess read a).plan
  | .check input => (planCheck read input).plan

theorem Command.plan_congr {read read' : String → InputFile} (c : Command)
    (h : ∀ path ∈ c.inputs, read path = read' path) : c.plan read = c.plan read' := by
  cases c with
  | process a =>
    have hp : readProperties read a = readProperties read' a := by
      unfold readProperties
      cases ha : a.properties with
      | none => rfl
      | some path => simp [h path (by simp [inputs, ha])]
    simp [plan, planProcess, hp, h a.input (by simp [inputs])]
  | check input => simp [plan, planCheck, h input (by simp [inputs])]

end ModelRegistry.CommandLine
