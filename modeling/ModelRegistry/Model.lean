import ModelRegistry.Json.Basic
import ModelRegistry.Names.Set

/-!
# Models

A model is one type of a generated client: its properties, the imports of its file, the bases it is
composed of, the parent it inherits from, and the property that tells its subtypes apart. Property
names need not be unique; a property is looked up by its first match.
-/

namespace ModelRegistry

structure Property where
  name : String
  required : Bool := false
  /-- A descriptor of the type, which nothing here looks into. -/
  type : Json.Value := .null

structure Discriminator where
  propertyName : String
  deriving DecidableEq

structure Model where
  name : String
  properties : List Property := []
  imports : NameSet := .empty
  composedBases : List String := []
  parent : Option String := none
  discriminator : Option Discriminator := none

instance : BEq Property :=
  ⟨fun p q => p.name == q.name && p.required == q.required && p.type == q.type⟩

namespace Model

instance : BEq Model :=
  ⟨fun m n => m.name == n.name && m.properties == n.properties && m.imports == n.imports &&
    m.composedBases == n.composedBases && m.parent == n.parent &&
    m.discriminator == n.discriminator⟩

def withProperty (m : Model) (p : Property) : Model :=
  { m with properties := m.properties ++ [p] }

def withImport (m : Model) (name : String) : Model :=
  { m with imports := m.imports.insert name }

def withBase (m : Model) (base : String) : Model :=
  { m with composedBases := m.composedBases ++ [base] }

def withDiscriminator (m : Model) (propertyName : String) : Model :=
  { m with discriminator := some ⟨propertyName⟩ }

def property? (m : Model) (name : String) : Option Property :=
  m.properties.find? (·.name = name)

end Model

/-- Changes the first item that `p` holds of. -/
def modifyFirst {α : Type} (p : α → Bool) (f : α → α) : List α → List α
  | [] => []
  | a :: as => if p a then f a :: as else a :: modifyFirst p f as

def Model.modifyProperty (m : Model) (name : String) (f : Property → Property) : Model :=
  { m with properties := modifyFirst (·.name = name) f m.properties }

end ModelRegistry
