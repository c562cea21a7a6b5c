import ModelRegistry.Import.Membership
import ModelRegistry.Note

/-!
# Filtering imports

All models of a unit are rendered into one namespace, so imports of siblings are dropped. Under the
policy `filterAll` every import is. Filtering is by unit: an import of a model that lives only in
another unit is kept.
-/

namespace ModelRegistry

namespace Model

/-- Drops the imports that `drops` holds of, in ascending order. -/
def dropImports (drops : String → Bool) (unit : String) (m : Model) : Logged Note Model where
  value := { m with imports := m.imports.filter fun name => !drops name }
  log := (m.imports.names.filter drops).flatMap fun name =>
    [.event (.importDropped unit m.name name), .change ⟨unit, m.name, .importRemoved name⟩]

end Model

/-- Which imports are dropped from the models of a unit. -/
def ImportPolicy.drops (p : ImportPolicy) (s : Siblings) (name : String) : Bool :=
  match p with
  | .sameUnit => s.owns name
  | .filterAll => true

def GenerationUnit.filterImports (o : Options) (unit : String) (g : GenerationUnit) :
    Logged Note GenerationUnit :=
  let siblings := Siblings.ofUnit unit g.models o.modelImportPrefix
  g.visit (Model.dropImports (o.importPolicy.drops siblings) unit)

namespace Registry

def filterImports (r : Registry) (o : Options) : Logged Note Registry := do
  if o.importPolicy = .filterAll then Logged.note (.event .allImportsDropped)
  return ⟨← r.units.visit (GenerationUnit.filterImports o)⟩

end Registry

end ModelRegistry
