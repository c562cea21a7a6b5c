import ModelRegistry.Feature
import ModelRegistry.Located
import ModelRegistry.Registry.Format

/-!
# Inconsistencies

A defect of a registry that the passes would cover up, or a construct that the generator does not
support. `check` lists them, model by model.
-/

namespace ModelRegistry

open Json

inductive InconsistencyKind
  | discriminatorPropertyMissing (property : String)
  | multipleBases (bases : List String)
  | unsupportedFeature (feature : Feature)
  deriving DecidableEq

abbrev Inconsistency := Located InconsistencyKind

namespace Inconsistency

def message (i : Inconsistency) : String :=
  i.unit ++ "/" ++ i.model ++ ": " ++
    match i.what with
    | .discriminatorPropertyMissing property =>
      "discriminator property '" ++ property ++ "' not found"
    | .multipleBases bases =>
      "composes " ++ String.ofList (Decimal.natText bases.length) ++ " bases (" ++
        ", ".intercalate bases ++ "), only the first is kept"
    | .unsupportedFeature feature => "uses unsupported feature " ++ feature.label

def toJson (i : Inconsistency) : Json :=
  match i.what with
  | .discriminatorPropertyMissing property =>
    Located.toJson i "discriminator_property_missing" "property" (.string property)
  | .multipleBases bases => Located.toJson i "multiple_bases" "bases" (.strings bases)
  | .unsupportedFeature feature => Located.toJson i "unsupported_feature" "feature" feature.toJson

def format : Tagged Inconsistency where
  title := "internally tagged enum Inconsistency"
  kinds := [
    ("discriminator_property_missing",
      Located.kind "Inconsistency::DiscriminatorPropertyMissing" "property" .string ""
        .discriminatorPropertyMissing),
    ("multiple_bases",
      Located.kind "Inconsistency::MultipleBases" "bases" (.list .string) [] .multipleBases),
    ("unsupported_feature",
      Located.kind "Inconsistency::UnsupportedFeature" "feature" Feature.choice.buffered
        .polymorphism .unsupportedFeature)]

def ofText (s : String) : Except DecodeError Inconsistency :=
  format.decoder.ofText s

end Inconsistency

namespace Model

/-- What is wrong with the composition of a model, given the features that are supported. -/
def compositionIssues (m : Model) (features : FeatureSet) : List InconsistencyKind :=
  if m.composedBases.isEmpty then []
  else
    (if features.has .allOf then [] else [.unsupportedFeature .allOf]) ++
    (if m.composedBases.length > 1 then [.multipleBases m.composedBases] else [])

/-- What is wrong with the discriminator of a model, given the features that are supported. -/
def discriminatorIssues (m : Model) (features : FeatureSet) : List InconsistencyKind :=
  match m.discriminator with
  | none => []
  | some d =>
    (if features.has .polymorphism then [] else [.unsupportedFeature .polymorphism]) ++
    (if (m.property? d.propertyName).isSome then []
      else [.discriminatorPropertyMissing d.propertyName])

def check (unit : String) (m : Model) (features : FeatureSet) : List Inconsistency :=
  (m.compositionIssues features ++ m.discriminatorIssues features).map (⟨unit, m.name, ·⟩)

end Model

/-- All inconsistencies of a registry, in the order of its models. -/
def Registry.check (r : Registry) (features : FeatureSet) : List Inconsistency :=
  r.models.flatMap fun e => e.2.check e.1 features

end ModelRegistry
