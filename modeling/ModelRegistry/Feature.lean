import ModelRegistry.Json.Choice

/-!
# Schema features

The schema constructs that a generator may support, and sets of them. A set is told by its members
alone; it is listed and written in the fixed order of `Feature.all`.
-/

namespace ModelRegistry

inductive Feature
  | polymorphism
  | union
  | composite
  | allOf
  | oneOf
  | anyOf
  deriving DecidableEq

namespace Feature

def all : List Feature :=
  [.polymorphism, .union, .composite, .allOf, .oneOf, .anyOf]

theorem mem_all (f : Feature) : f ∈ all := by cases f <;> decide

/-- The name of a feature in JSON. -/
def key : Feature → String
  | .polymorphism => "polymorphism"
  | .union => "union"
  | .composite => "composite"
  | .allOf => "allOf"
  | .oneOf => "oneOf"
  | .anyOf => "anyOf"

/-- The name of a feature in messages. -/
def label : Feature → String
  | .polymorphism => "Polymorphism"
  | .union => "Union"
  | .composite => "Composite"
  | .allOf => "AllOf"
  | .oneOf => "OneOf"
  | .anyOf => "AnyOf"

def toJson (f : Feature) : Json := .string f.key

def choice : Json.Choice Feature := ⟨all.map fun f => (f.key, f)⟩

end Feature

structure FeatureSet where
  has : Feature → Bool

namespace FeatureSet

@[ext] theorem ext {s t : FeatureSet} (h : ∀ f, s.has f = t.has f) : s = t := by
  cases s; cases t; simp only [mk.injEq]; exact funext h

instance : DecidableEq FeatureSet := fun s t =>
  decidable_of_iff (∀ f ∈ Feature.all, s.has f = t.has f)
    ⟨fun h => ext fun f => h f f.mem_all, fun h => by simp [h]⟩

def empty : FeatureSet := ⟨fun _ => false⟩

/-- What a client generator supports: everything. -/
def clientDefaults : FeatureSet := ⟨fun _ => true⟩

def insert (s : FeatureSet) (f : Feature) : FeatureSet :=
  ⟨fun g => g == f || s.has g⟩

def ofList (fs : List Feature) : FeatureSet :=
  fs.foldl insert empty

def toList (s : FeatureSet) : List Feature :=
  Feature.all.filter s.has

def toJson (s : FeatureSet) : Json :=
  .array (s.toList.map Feature.toJson)

def decoder : Json.Decoder FeatureSet :=
  (Json.Decoder.list Feature.choice.decoder).map ofList

end FeatureSet

end ModelRegistry
