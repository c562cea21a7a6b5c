import ModelRegistry.Event
import ModelRegistry.Failure
import ModelRegistry.Json.Render
import ModelRegistry.Logged

/-!
# Generator settings

The additional properties of a generator are a free JSON object. One of them may name the
serialization library; resolving it gives the options of a run, and the library's flag is published
among the properties for the templates.
-/

namespace ModelRegistry

open Json

abbrev AdditionalProperties := NameMap Json.Value

namespace AdditionalProperties

def empty : AdditionalProperties := NameMap.empty

def libraryKey : String := "serializationLibrary"

def decoder : Decoder AdditionalProperties := .nameMap .value

def ofText (s : String) : Except DecodeError AdditionalProperties :=
  decoder.ofText s

def toJson (a : AdditionalProperties) : Json :=
  .object (a.entries.map fun e => (e.1, e.2.json))

/-- The library that the properties ask for. Null asks for none; what is no text is taken by its
JSON text. -/
def configured (a : AdditionalProperties) : Option String :=
  match a.get? libraryKey with
  | none => none
  | some v =>
    match v.json with
    | .null => none
    | .string s => some s
    | j => some (j.render .compact)

end AdditionalProperties

namespace SerializationLibrary

/-- The library of a name, or the default if none is given. -/
def resolve : Option String → Except Failure (Logged Event SerializationLibrary)
  | some name =>
    match ofName? name with
    | some library => .ok (pure library)
    | none => .error (.unknownLibrary name)
  | none => .ok do
    Logged.note (.libraryDefaulted default)
    return default

/-- Publishes the flag of a library for the templates. -/
def publish (l : SerializationLibrary) (a : AdditionalProperties) :
    Logged Event AdditionalProperties := do
  Logged.note (.libraryChosen l)
  return a.insert l.name (.string "true")

end SerializationLibrary

structure Settings where
  options : Options
  additionalProperties : AdditionalProperties

namespace Settings

def ofProperties (a : AdditionalProperties) : Except Failure (Logged Event Settings) := do
  let resolved ← SerializationLibrary.resolve a.configured
  return do
    let library ← resolved
    let additionalProperties ← library.publish a
    return ⟨{ serializationLibrary := library }, additionalProperties⟩

end Settings

end ModelRegistry
