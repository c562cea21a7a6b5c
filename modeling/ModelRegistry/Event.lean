import ModelRegistry.Options
import ModelRegistry.Text.Quoted

/-!
# Events

What a run tells its log: how important it is, what happened, and to what.
-/

namespace ModelRegistry

inductive Level
  | debug
  | info
  | warn
  deriving DecidableEq

def Level.name : Level → String
  | .debug => "DEBUG"
  | .info => "INFO"
  | .warn => "WARN"

inductive Event
  | allImportsDropped
  | importDropped (unit model name : String)
  | compositionCollapsed (unit model parent : String) (dropped : List String)
  | discriminatorDangling (unit model property : String)
  | finished (models importsRemoved parentsAssigned discriminatorsRequired diagnostics : Nat)
  | libraryDefaulted (library : SerializationLibrary)
  | libraryChosen (library : SerializationLibrary)
  deriving DecidableEq

inductive Event.Field
  | text (s : String)
  | count (n : Nat)

def Event.Field.value : Field → String
  | .text s => Text.quoted s
  | .count n => String.ofList (Decimal.natText n)

namespace Event

def level : Event → Level
  | .allImportsDropped | .discriminatorDangling .. => .warn
  | .importDropped .. | .compositionCollapsed .. | .libraryDefaulted _ => .debug
  | .finished .. | .libraryChosen _ => .info

def message : Event → String
  | .allImportsDropped =>
    "import policy filter-all drops every import, including runtime support types"
  | .importDropped .. => "dropping same-unit import"
  | .compositionCollapsed .. => "composition collapsed to single inheritance"
  | .discriminatorDangling .. => "discriminator names a property the model does not declare"
  | .finished .. => "post-processing complete"
  | .libraryDefaulted _ => "serialization library not set, using default"
  | .libraryChosen _ => "using serialization library"

def fields : Event → List (String × Field)
  | .allImportsDropped => []
  | .importDropped unit model name =>
    [("unit", .text unit), ("model", .text model), ("import", .text name)]
  | .compositionCollapsed unit model parent dropped =>
    [("unit", .text unit), ("model", .text model), ("parent", .text parent),
      ("dropped", .text (Text.quotedList dropped))]
  | .discriminatorDangling unit model property =>
    [("unit", .text unit), ("model", .text model), ("property", .text property)]
  | .finished models importsRemoved parentsAssigned discriminatorsRequired diagnostics =>
    [("models", .count models), ("imports_removed", .count importsRemoved),
      ("parents_assigned", .count parentsAssigned),
      ("discriminators_required", .count discriminatorsRequired),
      ("diagnostics", .count diagnostics)]
  | .libraryDefaulted library | .libraryChosen library => [("library", .text library.name)]

/-- The line of a log that tells of an event. -/
def line (e : Event) : String :=
  e.fields.foldl (fun s f => s ++ " " ++ f.1 ++ "=" ++ f.2.value) (e.level.name ++ " " ++ e.message)

end Event

end ModelRegistry
