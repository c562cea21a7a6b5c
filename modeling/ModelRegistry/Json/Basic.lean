import ModelRegistry.Json.Number
import ModelRegistry.Names.Map

/-!
# JSON trees and JSON values

A `Json` is a tree as it is written: the members of an object stand in some order, and a key may
occur more than once. A `Json.Value` is what such a tree means: the order of members does not count
and of several members with one key the last is meant. Values are kept as trees in canonical form,
where the keys of every object ascend; `canonical` finds that form.
-/

namespace ModelRegistry

inductive Json
  | null
  | bool (b : Bool)
  | number (n : Json.Number)
  | string (s : String)
  | array (items : List Json)
  | object (members : List (String × Json))

namespace Json

instance : Inhabited Json := ⟨.null⟩

mutual

/-- In every object of the tree the keys ascend strictly. -/
def Canonical : Json → Prop
  | .array items => CanonicalItems items
  | .object members => Entries.Ascending members ∧ CanonicalMembers members
  | _ => True

def CanonicalItems : List Json → Prop
  | [] => True
  | j :: js => j.Canonical ∧ CanonicalItems js

def CanonicalMembers : List (String × Json) → Prop
  | [] => True
  | (_, j) :: ms => j.Canonical ∧ CanonicalMembers ms

end

mutual

/-- The tree with every object put in order of keys, the last of equal keys winning. -/
def canonical : Json → Json
  | .array items => .array (canonicalItems items)
  | .object members => .object (Entries.sorted (canonicalMembers members))
  | j => j

def canonicalItems : List Json → List Json
  | [] => []
  | j :: js => j.canonical :: canonicalItems js

def canonicalMembers : List (String × Json) → List (String × Json)
  | [] => []
  | (k, j) :: ms => (k, j.canonical) :: canonicalMembers ms

end

theorem canonicalMembers_iff {ms : List (String × Json)} :
    CanonicalMembers ms ↔ ∀ m ∈ ms, m.2.Canonical := by
  induction ms with
  | nil => simp [CanonicalMembers]
  | cons m ms ih => obtain ⟨k, j⟩ := m; simp [CanonicalMembers, ih]

theorem canonicalMembers_put {key : String} {j : Json} (hj : j.Canonical)
    {ms : List (String × Json)} (h : CanonicalMembers ms) :
    CanonicalMembers (Entries.put key (fun _ => j) ms) := by
  induction ms with
  | nil => simpa [Entries.put, CanonicalMembers] using hj
  | cons m ms ih =>
    obtain ⟨k, i⟩ := m
    obtain ⟨hi, hms⟩ := h
    rw [Entries.put]
    split
    · exact ⟨hj, hi, hms⟩
    · split
      · exact ⟨hj, hms⟩
      · exact ⟨hi, ih hms⟩

theorem canonicalMembers_sorted {ms : List (String × Json)} (h : CanonicalMembers ms) :
    CanonicalMembers (Entries.sorted ms) := by
  suffices H : ∀ acc, CanonicalMembers acc →
      CanonicalMembers (ms.foldl (fun acc m => Entries.put m.1 (fun _ => m.2) acc) acc) from
    H [] trivial
  induction ms with
  | nil => exact fun acc hacc => hacc
  | cons m ms ih => exact fun acc hacc => ih h.2 _ (canonicalMembers_put h.1 hacc)

mutual

theorem canonical_canonical : (j : Json) → j.canonical.Canonical
  | .null | .bool _ | .number _ | .string _ => trivial
  | .array items => canonicalItems_canonical items
  | .object members =>
    ⟨Entries.ascending_sorted _, canonicalMembers_sorted (canonicalMembers_canonical members)⟩

theorem canonicalItems_canonical : (js : List Json) → CanonicalItems (canonicalItems js)
  | [] => trivial
  | j :: js => ⟨j.canonical_canonical, canonicalItems_canonical js⟩

theorem canonicalMembers_canonical :
    (ms : List (String × Json)) → CanonicalMembers (canonicalMembers ms)
  | [] => trivial
  | (_, j) :: ms => ⟨j.canonical_canonical, canonicalMembers_canonical ms⟩

end

mutual

/-- Whether two trees have the same shape with the same keys, texts and numbers. -/
def same : Json → Json → Bool
  | .null, .null => true
  | .bool a, .bool b => a == b
  | .number m, .number n => m.same n
  | .string s, .string t => s == t
  | .array is, .array js => sameItems is js
  | .object ms, .object ns => sameMembers ms ns
  | _, _ => false

def sameItems : List Json → List Json → Bool
  | [], [] => true
  | i :: is, j :: js => i.same j && sameItems is js
  | _, _ => false

def sameMembers : List (String × Json) → List (String × Json) → Bool
  | [], [] => true
  | (k, i) :: ms, (l, j) :: ns => k == l && i.same j && sameMembers ms ns
  | _, _ => false

end

/-- What a tree means: a tree in canonical form. -/
structure Value where
  json : Json
  canonical : json.Canonical

def toValue (j : Json) : Value := ⟨j.canonical, j.canonical_canonical⟩

namespace Value

def null : Value := ⟨.null, trivial⟩

def string (s : String) : Value := ⟨.string s, trivial⟩

instance : Inhabited Value := ⟨null⟩

instance : BEq Value := ⟨fun v w => v.json.same w.json⟩

@[ext] theorem ext {v w : Value} (h : v.json = w.json) : v = w := by
  cases v; cases w; simp_all

end Value

end Json

end ModelRegistry
