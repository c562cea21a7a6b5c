import ModelRegistry.Note

/-!
# Inheritance and discriminators

Composition is collapsed to a single parent: the first base becomes the parent of a model, all other
bases are reported as dropped. The property that a discriminator names has to be there in every
instance, so it becomes required; a discriminator without such a property is reported.
-/

namespace ModelRegistry

namespace Model

def inherit (unit : String) (m : Model) (base : String) : Logged Note Model :=
  if m.parent = some base then pure m
  else do
    Logged.note (.change ⟨unit, m.name, .parentAssigned base⟩)
    return { m with parent := some base }

def reportDropped (unit : String) (m : Model) (parent : String) (dropped : List String) :
    Logged Note Unit :=
  if dropped.isEmpty then pure ()
  else do
    Logged.note (.event (.compositionCollapsed unit m.name parent dropped))
    Logged.note (.diagnostic ⟨unit, m.name, .basesDropped dropped⟩)

/-- Makes the first base the parent. -/
def assignParent (unit : String) (m : Model) : Logged Note Model :=
  match m.composedBases with
  | [] => pure m
  | base :: dropped => do
    let m ← m.inherit unit base
    m.reportDropped unit base dropped
    return m

/-- Makes the first property that the discriminator names required. -/
def requireDiscriminator (unit : String) (m : Model) : Logged Note Model :=
  match m.discriminator with
  | none => pure m
  | some d =>
    match m.property? d.propertyName with
    | some p =>
      if p.required then pure m
      else do
        Logged.note (.change ⟨unit, m.name, .discriminatorRequired d.propertyName⟩)
        return m.modifyProperty d.propertyName fun p => { p with required := true }
    | none => do
      Logged.note (.event (.discriminatorDangling unit m.name d.propertyName))
      Logged.note (.diagnostic ⟨unit, m.name, .danglingDiscriminator d.propertyName⟩)
      return m

def resolve (unit : String) (m : Model) : Logged Note Model := do
  let m ← m.assignParent unit
  m.requireDiscriminator unit

end Model

def Registry.resolveHierarchy (r : Registry) : Logged Note Registry :=
  r.visit Model.resolve

end ModelRegistry
