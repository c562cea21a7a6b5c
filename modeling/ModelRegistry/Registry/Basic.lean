import ModelRegistry.Logged
import ModelRegistry.Model
import ModelRegistry.Names.Map

/-!
# Registries

A registry holds the models of one generator run by the unit they are generated into. Units are
listed by ascending name and the models of a unit in the order in which they were inserted. Model
names need not be unique within a unit; a model is looked up by its first match.
-/

namespace ModelRegistry

structure GenerationUnit where
  models : List Model := []

namespace GenerationUnit

instance : BEq GenerationUnit := ⟨fun u v => u.models == v.models⟩

def modelNames (u : GenerationUnit) : NameSet :=
  .ofList (u.models.map (·.name))

def model? (u : GenerationUnit) (name : String) : Option Model :=
  u.models.find? (·.name = name)

def visit {ε : Type} (f : Model → Logged ε Model) (u : GenerationUnit) :
    Logged ε GenerationUnit := do
  return ⟨← Logged.visit f u.models⟩

end GenerationUnit

namespace NameMap

variable {ε α β : Type}

theorem ascending_visit (f : String → α → Logged ε β) (m : NameMap α) :
    Entries.Ascending
      (Logged.visit (fun e => do return (e.1, ← f e.1 e.2)) m.entries).value := by
  rw [Logged.value_visit]
  exact List.pairwise_map.2 m.ascending

/-- Visits the values in the order of their names. -/
def visit (f : String → α → Logged ε β) (m : NameMap α) : Logged ε (NameMap β) :=
  let r := Logged.visit (fun e => do return (e.1, ← f e.1 e.2)) m.entries
  ⟨⟨r.value, ascending_visit f m⟩, r.log⟩

theorem value_visit (f : String → α → Logged ε β) (m : NameMap α) :
    (m.visit f).value = m.map fun name a => (f name a).value :=
  NameMap.ext (Logged.value_visit ..)

theorem log_visit (f : String → α → Logged ε β) (m : NameMap α) :
    (m.visit f).log = m.entries.flatMap fun e => (f e.1 e.2).log := by
  simp only [visit, Logged.log_visit, Logged.log_bind, Logged.log_pure, List.append_nil]

end NameMap

structure Registry where
  units : NameMap GenerationUnit

namespace Registry

def empty : Registry := ⟨.empty⟩

instance : Inhabited Registry := ⟨empty⟩

instance : BEq Registry := ⟨fun r s => r.units.entries == s.units.entries⟩

/-- Appends a model to a unit, which is created if it is not there. -/
def insert (r : Registry) (unit : String) (model : Model) : Registry :=
  ⟨r.units.put unit fun u => ⟨(u.getD {}).models ++ [model]⟩⟩

def removeUnit (r : Registry) (unit : String) : Registry :=
  ⟨r.units.erase unit⟩

def unit? (r : Registry) (unit : String) : Option GenerationUnit :=
  r.units.get? unit

def model? (r : Registry) (unit name : String) : Option Model := do
  (← r.unit? unit).model? name

/-- All models, each with the name of its unit. -/
def models (r : Registry) : List (String × Model) :=
  r.units.entries.flatMap fun e => e.2.models.map fun m => (e.1, m)

def modelCount (r : Registry) : Nat :=
  r.models.length

def isEmpty (r : Registry) : Bool :=
  r.units.entries.all fun e => e.2.models.isEmpty

/-- Visits every model, in the order of `models`, and puts in its place what the visit makes of
it. -/
def visit {ε : Type} (f : String → Model → Logged ε Model) (r : Registry) : Logged ε Registry := do
  return ⟨← r.units.visit fun name unit => unit.visit (f name)⟩

/-- Changes the first model of a unit that has the name. -/
def modifyModel (r : Registry) (unit name : String) (f : Model → Model) : Registry :=
  ⟨r.units.map fun u g =>
    if u = unit then ⟨modifyFirst (·.name = name) f g.models⟩ else g⟩

def setParent (r : Registry) (unit model : String) (parent : Option String) : Registry :=
  r.modifyModel unit model fun m => { m with parent }

def setRequired (r : Registry) (unit model property : String) (required : Bool) : Registry :=
  r.modifyModel unit model fun m =>
    m.modifyProperty property fun p => { p with required }

/-- Adds an import to every model. The log lists the models as they were visited, by unit and
name. -/
def importEverywhere (r : Registry) (name : String) : Logged (String × String) Registry :=
  r.visit fun unit m => do
    Logged.note (unit, m.name)
    return m.withImport name

end Registry

end ModelRegistry
