import ModelRegistry.Json.Basic
import ModelRegistry.Proofs.SortedEntries

/-!
# JSON trees and their parts

An induction over trees with one case for a scalar of each kind, one for arrays and one for objects;
what it is for a property to hold of every part of a tree; how deep a tree nests. Canonical form
keeps what is in that form already, and nests no deeper than the tree did.
-/

namespace ModelRegistry.Json

@[elab_as_elim]
theorem induction {P : Json → Prop} (null : P .null) (bool : ∀ b, P (.bool b))
    (number : ∀ n, P (.number n)) (string : ∀ s, P (.string s))
    (array : ∀ items, (∀ j ∈ items, P j) → P (.array items))
    (object : ∀ members, (∀ m ∈ members, P m.2) → P (.object members)) (j : Json) : P j :=
  @Json.rec P (fun items => ∀ j ∈ items, P j) (fun members => ∀ m ∈ members, P m.2)
    (fun m => P m.2) null bool number string array object (List.forall_mem_nil _)
    (fun _ _ hj hjs => List.forall_mem_cons.mpr ⟨hj, hjs⟩) (List.forall_mem_nil _)
    (fun _ _ hm hms => List.forall_mem_cons.mpr ⟨hm, hms⟩) (fun _ _ hj => hj) j

mutual

/-- A property holds of a tree and of every tree in it. -/
def All (p : Json → Prop) : Json → Prop
  | .array items => p (.array items) ∧ AllItems p items
  | .object members => p (.object members) ∧ AllMembers p members
  | j => p j

def AllItems (p : Json → Prop) : List Json → Prop
  | [] => True
  | j :: js => j.All p ∧ AllItems p js

def AllMembers (p : Json → Prop) : List (String × Json) → Prop
  | [] => True
  | (_, j) :: ms => j.All p ∧ AllMembers p ms

end

mutual

/-- How many arrays and objects stand inside one another. -/
def nesting : Json → Nat
  | .array items => nestingItems items + 1
  | .object members => nestingMembers members + 1
  | _ => 0

def nestingItems : List Json → Nat
  | [] => 0
  | j :: js => max j.nesting (nestingItems js)

def nestingMembers : List (String × Json) → Nat
  | [] => 0
  | (_, j) :: ms => max j.nesting (nestingMembers ms)

end

theorem all_array {p : Json → Prop} {items : List Json} :
    (array items).All p ↔ p (.array items) ∧ ∀ j ∈ items, j.All p := by
  have hitems (js : List Json) : AllItems p js ↔ ∀ j ∈ js, j.All p := by
    induction js with
    | nil => simp [AllItems]
    | cons j js ih => simp [AllItems, ih]
  rw [All, hitems]

theorem all_object {p : Json → Prop} {members : List (String × Json)} :
    (object members).All p ↔ p (.object members) ∧ ∀ m ∈ members, m.2.All p := by
  have hmembers (ms : List (String × Json)) : AllMembers p ms ↔ ∀ m ∈ ms, m.2.All p := by
    induction ms with
    | nil => simp [AllMembers]
    | cons m ms ih => obtain ⟨k, j⟩ := m; simp [AllMembers, ih]
  rw [All, hmembers]

theorem nesting_array_le {items : List Json} {n : Nat} :
    (array items).nesting ≤ n + 1 ↔ ∀ j ∈ items, j.nesting ≤ n := by
  have hitems (js : List Json) : nestingItems js ≤ n ↔ ∀ j ∈ js, j.nesting ≤ n := by
    induction js with
    | nil => simp [nestingItems]
    | cons j js ih => rw [nestingItems, Nat.max_le, ih, List.forall_mem_cons]
  rw [nesting, Nat.add_le_add_iff_right, hitems]

theorem nesting_object_le {members : List (String × Json)} {n : Nat} :
    (object members).nesting ≤ n + 1 ↔ ∀ m ∈ members, m.2.nesting ≤ n := by
  have hmembers (ms : List (String × Json)) :
      nestingMembers ms ≤ n ↔ ∀ m ∈ ms, m.2.nesting ≤ n := by
    induction ms with
    | nil => simp [nestingMembers]
    | cons m ms ih => rw [nestingMembers, Nat.max_le, ih, List.forall_mem_cons]
  rw [nesting, Nat.add_le_add_iff_right, hmembers]

section Decidable

variable {p : Json → Prop} [DecidablePred p]

mutual

def decidableAll : (j : Json) → Decidable (j.All p)
  | .array items => @instDecidableAnd _ _ inferInstance (decidableAllItems items)
  | .object members => @instDecidableAnd _ _ inferInstance (decidableAllMembers members)
  | .null => inferInstanceAs (Decidable (p .null))
  | .bool b => inferInstanceAs (Decidable (p (.bool b)))
  | .number n => inferInstanceAs (Decidable (p (.number n)))
  | .string s => inferInstanceAs (Decidable (p (.string s)))

def decidableAllItems : (js : List Json) → Decidable (AllItems p js)
  | [] => .isTrue trivial
  | j :: js => @instDecidableAnd _ _ (decidableAll j) (decidableAllItems js)

def decidableAllMembers : (ms : List (String × Json)) → Decidable (AllMembers p ms)
  | [] => .isTrue trivial
  | (_, j) :: ms => @instDecidableAnd _ _ (decidableAll j) (decidableAllMembers ms)

end

instance (j : Json) : Decidable (j.All p) := decidableAll j

end Decidable

def isDouble : Json → Bool
  | .number (.double _) => true
  | _ => false

/-- All numbers of a tree are integers. -/
def HasNoDoubles (j : Json) : Prop :=
  j.All fun i => i.isDouble = false

instance (j : Json) : Decidable j.HasNoDoubles :=
  inferInstanceAs (Decidable (j.All fun i => i.isDouble = false))

/-- No object of a tree has two members of one key. -/
def HasDistinctKeys (j : Json) : Prop :=
  j.All fun
    | .object members => (members.map Prod.fst).Nodup
    | _ => True

theorem hasNoDoubles_array {items : List Json} :
    (array items).HasNoDoubles ↔ ∀ j ∈ items, j.HasNoDoubles :=
  all_array.trans (and_iff_right rfl)

theorem hasNoDoubles_object {members : List (String × Json)} :
    (object members).HasNoDoubles ↔ ∀ m ∈ members, m.2.HasNoDoubles :=
  all_object.trans (and_iff_right rfl)

theorem hasDistinctKeys_array {items : List Json} :
    (array items).HasDistinctKeys ↔ ∀ j ∈ items, j.HasDistinctKeys :=
  all_array.trans (and_iff_right trivial)

theorem hasDistinctKeys_object {members : List (String × Json)} :
    (object members).HasDistinctKeys ↔
      (members.map Prod.fst).Nodup ∧ ∀ m ∈ members, m.2.HasDistinctKeys :=
  all_object

theorem canonicalItems_eq_map (items : List Json) :
    canonicalItems items = items.map canonical := by
  induction items with
  | nil => rfl
  | cons j js ih => rw [canonicalItems, ih, List.map_cons]

theorem canonicalMembers_eq_map (members : List (String × Json)) :
    canonicalMembers members = members.map fun m => (m.1, m.2.canonical) := by
  induction members with
  | nil => rfl
  | cons m ms ih => rw [canonicalMembers, ih, List.map_cons]

theorem canonical_array (items : List Json) :
    (array items).canonical = .array (items.map canonical) := by
  rw [canonical, canonicalItems_eq_map]

theorem canonical_object (members : List (String × Json)) :
    (object members).canonical =
      .object (Entries.sorted (members.map fun m => (m.1, m.2.canonical))) := by
  rw [canonical, canonicalMembers_eq_map]

theorem canonicalItems_iff {items : List Json} :
    CanonicalItems items ↔ ∀ j ∈ items, j.Canonical := by
  induction items with
  | nil => simp [CanonicalItems]
  | cons j js ih => simp [CanonicalItems, ih]

theorem hasDistinctKeys_of_canonical {j : Json} (h : j.Canonical) : j.HasDistinctKeys := by
  induction j using Json.induction with
  | null | bool | number | string => trivial
  | array items ih =>
    have hitems := canonicalItems_iff.mp h
    exact hasDistinctKeys_array.mpr fun j hj => ih j hj (hitems j hj)
  | object members ih =>
    have hmembers := canonicalMembers_iff.mp h.2
    refine hasDistinctKeys_object.mpr ⟨?_, fun m hm => ih m hm (hmembers m hm)⟩
    exact List.pairwise_map.mpr (h.1.imp String.ne_of_lt)

theorem canonical_eq_self {j : Json} (h : j.Canonical) : j.canonical = j := by
  induction j using Json.induction with
  | null | bool | number | string => rfl
  | array items ih =>
    have hitems := canonicalItems_iff.mp h
    rw [canonical_array, List.map_congr_left fun j hj => ih j hj (hitems j hj), List.map_id']
  | object members ih =>
    have hmembers := canonicalMembers_iff.mp h.2
    have hmap : members.map (fun m => (m.1, m.2.canonical)) = members := by
      refine (List.map_congr_left fun m hm => ?_).trans (List.map_id' members)
      rw [ih m hm (hmembers m hm)]
    rw [canonical_object, hmap, Entries.sorted_eq_self h.1]

theorem canonical_canonical_eq (j : Json) : j.canonical.canonical = j.canonical :=
  canonical_eq_self j.canonical_canonical

/-- Members that are repeated may be lost, so the canonical form can be the flatter one. -/
theorem nesting_canonical_le {j : Json} {n : Nat} (h : j.nesting ≤ n) :
    j.canonical.nesting ≤ n := by
  induction j using Json.induction generalizing n with
  | null | bool | number | string => exact h
  | array items ih =>
    obtain _ | n := n
    · exact absurd h (Nat.not_succ_le_zero _)
    · rw [canonical_array, nesting_array_le]
      intro j hj
      obtain ⟨i, hi, rfl⟩ := List.mem_map.mp hj
      exact ih i hi (nesting_array_le.mp h i hi)
  | object members ih =>
    obtain _ | n := n
    · exact absurd h (Nat.not_succ_le_zero _)
    · rw [canonical_object, nesting_object_le]
      intro m hm
      obtain ⟨l, hl, rfl⟩ := List.mem_map.mp (Entries.mem_of_mem_sorted hm)
      exact ih l hl (nesting_object_le.mp h l hl)

end ModelRegistry.Json
