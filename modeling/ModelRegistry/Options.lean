import ModelRegistry.Feature
import ModelRegistry.Json.Record

/-!
# Options of post-processing

The options of one run. The passes look at the import policy and at the prefix under which model
files live; features and strictness govern the check before them; the serialization library is
passed on to the templates.
-/

namespace ModelRegistry

open Json

inductive SerializationLibrary
  | native
  deriving DecidableEq

namespace SerializationLibrary

def all : List SerializationLibrary := [.native]

def name : SerializationLibrary → String
  | .native => "native_serialization"

def description : SerializationLibrary → String
  | .native => "Use native serializer, backwards compatible"

def default : SerializationLibrary := .native

def ofName? (name : String) : Option SerializationLibrary :=
  all.find? (·.name = name)

def toJson (l : SerializationLibrary) : Json := .string l.name

def choice : Choice SerializationLibrary := ⟨all.map fun l => (l.name, l)⟩

end SerializationLibrary

/-- Which imports are dropped: those of models of the same unit, or all. -/
inductive ImportPolicy
  | sameUnit
  | filterAll
  deriving DecidableEq

namespace ImportPolicy

def all : List ImportPolicy := [.sameUnit, .filterAll]

def name : ImportPolicy → String
  | .sameUnit => "same-unit"
  | .filterAll => "filter-all"

def toJson (p : ImportPolicy) : Json := .string p.name

def choice : Choice ImportPolicy := ⟨all.map fun p => (p.name, p)⟩

end ImportPolicy

structure Options where
  serializationLibrary : SerializationLibrary := .native
  importPolicy : ImportPolicy := .sameUnit
  modelImportPrefix : Option String := none
  features : FeatureSet := .clientDefaults
  strict : Bool := false
  deriving DecidableEq

namespace Options

instance : Inhabited Options := ⟨{}⟩

def toJson (o : Options) : Json :=
  .object [
    ("serialization-library", o.serializationLibrary.toJson),
    ("import-policy", o.importPolicy.toJson),
    ("model-import-prefix", (o.modelImportPrefix.map Json.string).getD .null),
    ("features", o.features.toJson),
    ("strict", .bool o.strict)]

def format : RecordFormat Options where
  title := "struct PostProcessOptions"
  initial := {}
  fields := [
    .needed "serialization-library" SerializationLibrary.choice.decoder
      fun serializationLibrary o => { o with serializationLibrary },
    .needed "import-policy" ImportPolicy.choice.decoder
      fun importPolicy o => { o with importPolicy },
    .optional "model-import-prefix" (.option .string)
      fun modelImportPrefix o => { o with modelImportPrefix },
    .needed "features" FeatureSet.decoder fun features o => { o with features },
    .needed "strict" .bool fun strict o => { o with strict }]

def ofText (s : String) : Except DecodeError Options :=
  format.decoder.ofText s

end Options

end ModelRegistry
