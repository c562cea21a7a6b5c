import ModelRegistry.Json.Record
import ModelRegistry.Registry.Basic

/-!
# Registries in JSON

A registry is written as an object of its units. What a model lacks of parent and discriminator, and
a null type of a property, is not written. Reading fills in every list and every other field that
may be left out.
-/

namespace ModelRegistry

open Json

def Json.strings (ss : List String) : Json :=
  .array (ss.map .string)

def Json.ofOption {α : Type} (key : String) (write : α → Json) : Option α → List (String × Json)
  | some a => [(key, write a)]
  | none => []

namespace Property

def toJson (p : Property) : Json :=
  .object <| [("name", .string p.name), ("required", .bool p.required)] ++
    match p.type.json with
    | .null => []
    | type => [("type", type)]

def format : RecordFormat Property where
  title := "struct Property"
  initial := { name := "" }
  fields := [
    .needed "name" .string fun name p => { p with name },
    .optional "required" .bool fun required p => { p with required },
    .optional "type" .value fun type p => { p with type }]

end Property

namespace Discriminator

def toJson (d : Discriminator) : Json :=
  .object [("propertyName", .string d.propertyName)]

def format : RecordFormat Discriminator where
  title := "struct Discriminator"
  initial := { propertyName := "" }
  fields := [.needed "propertyName" .string fun propertyName d => { d with propertyName }]

end Discriminator

namespace Model

def toJson (m : Model) : Json :=
  .object <| [("name", .string m.name), ("properties", .array (m.properties.map Property.toJson)),
    ("imports", .strings m.imports.names), ("composedBases", .strings m.composedBases)] ++
    Json.ofOption "parent" .string m.parent ++
    Json.ofOption "discriminator" Discriminator.toJson m.discriminator

def format : RecordFormat Model where
  title := "struct Model"
  initial := { name := "" }
  fields := [
    .needed "name" .string fun name m => { m with name },
    .optional "properties" (.list Property.format.decoder) fun properties m =>
      { m with properties },
    .optional "imports" ((Decoder.list .string).map NameSet.ofList) fun imports m =>
      { m with imports },
    .optional "composedBases" (.list .string) fun composedBases m => { m with composedBases },
    .optional "parent" (.option .string) fun parent m => { m with parent },
    .optional "discriminator" (.option Discriminator.format.decoder) fun discriminator m =>
      { m with discriminator }]

end Model

namespace GenerationUnit

def toJson (u : GenerationUnit) : Json :=
  .object [("models", .array (u.models.map Model.toJson))]

def format : RecordFormat GenerationUnit where
  title := "struct GenerationUnit"
  initial := {}
  fields := [.optional "models" (.list Model.format.decoder) fun models u => { u with models }]

end GenerationUnit

namespace Registry

def toJson (r : Registry) : Json :=
  .object (r.units.entries.map fun e => (e.1, e.2.toJson))

def decoder : Decoder Registry :=
  (Decoder.nameMap GenerationUnit.format.decoder).map Registry.mk

/-- Reads a registry straight from a text. -/
def ofText (s : String) : Except DecodeError Registry :=
  decoder.ofText s

/-- Reads a registry from a value that has been read before. -/
def ofValue (v : Value) : Except DecodeError Registry :=
  decoder.ofValue v

end Registry

end ModelRegistry
