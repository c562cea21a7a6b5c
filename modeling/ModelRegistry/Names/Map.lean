import ModelRegistry.Names.Entries

/-!
# Maps of names

A finite map from names to values, listed by ascending name. The order is part of the type, so two
maps with the same values at the same names are equal.
-/

namespace ModelRegistry

structure NameMap (α : Type) where
  entries : List (String × α)
  ascending : Entries.Ascending entries
  deriving DecidableEq

namespace NameMap

variable {α β : Type}

def empty : NameMap α := ⟨[], .nil⟩

instance : Inhabited (NameMap α) := ⟨empty⟩

@[ext] theorem ext {m n : NameMap α} (h : m.entries = n.entries) : m = n := by
  cases m; cases n; simp_all

def ofList (es : List (String × α)) : NameMap α :=
  ⟨Entries.sorted es, Entries.ascending_sorted es⟩

def get? (m : NameMap α) (name : String) : Option α :=
  m.entries.lookup name

/-- Sets the value of one name to what `f` makes of the value it had. -/
def put (m : NameMap α) (name : String) (f : Option α → α) : NameMap α :=
  ⟨Entries.put name f m.entries, Entries.ascending_put name f m.ascending⟩

def insert (m : NameMap α) (name : String) (value : α) : NameMap α :=
  m.put name fun _ => value

def erase (m : NameMap α) (name : String) : NameMap α :=
  ⟨m.entries.filter (·.1 ≠ name), m.ascending.filter _⟩

def map (f : String → α → β) (m : NameMap α) : NameMap β :=
  ⟨m.entries.map fun e => (e.1, f e.1 e.2), List.pairwise_map.2 m.ascending⟩

end NameMap

end ModelRegistry
