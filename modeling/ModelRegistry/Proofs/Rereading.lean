import ModelRegistry.Proofs.DoubleText
import ModelRegistry.Proofs.Trees

/-!
# Numbers as they are read back

A finite double may be read back as another double, since its digits are scaled in floating point.
`reread` replaces every number of a tree by what is read of its text. Nothing else of the tree
changes, and of an integer nothing at all.
-/

namespace ModelRegistry.Json

namespace Number

/-- An integer, or a double that is neither infinite nor no number. -/
def IsFinite : Number → Prop
  | .integer _ _ => True
  | .double x => x.isFinite = true

/-- What is read of the text of a number, if that is a number. -/
def reread : Number → Number
  | .integer i fits => .integer i fits
  | .double x =>
    match Token.ofSource ((doubleText x).map some) with
    | [.number (.ok n)] => n
    | _ => .double x

/-- The text of a finite number is one token, if nothing goes on with it. -/
theorem ofSource_text {n : Number} (hn : n.IsFinite) {rest : Source}
    (h : Numeral.EndsNumber rest) :
    Token.ofSource (n.text.map some ++ rest) = .number (.ok n.reread) :: Token.ofSource rest := by
  cases n with
  | integer i fits => exact Token.ofSource_intText fits h
  | double x =>
    obtain ⟨m, hplain, htext, y, hy⟩ := exists_doubleText_eq hn
    have hsource (rest : Source) (h : Numeral.EndsNumber rest) :
        Token.ofSource ((doubleText x).map some ++ rest) =
          .number (.ok (.double y)) :: Token.ofSource rest := by
      rw [htext, Token.ofSource_text hplain h, hy]
    have hreread : reread (.double x) = .double y := by
      have halone := hsource [] trivial
      rw [List.append_nil, Token.ofSource] at halone
      rw [reread, halone]
    rw [hreread]
    exact hsource rest h

end Number

/-- All numbers of a tree are finite. -/
def HasFiniteNumbers (j : Json) : Prop :=
  j.All fun
    | .number n => n.IsFinite
    | _ => True

theorem hasFiniteNumbers_array {items : List Json} :
    (array items).HasFiniteNumbers ↔ ∀ j ∈ items, j.HasFiniteNumbers :=
  all_array.trans (and_iff_right trivial)

theorem hasFiniteNumbers_object {members : List (String × Json)} :
    (object members).HasFiniteNumbers ↔ ∀ m ∈ members, m.2.HasFiniteNumbers :=
  all_object.trans (and_iff_right trivial)

theorem HasNoDoubles.hasFiniteNumbers {j : Json} (h : j.HasNoDoubles) : j.HasFiniteNumbers := by
  induction j using Json.induction with
  | null | bool | string => trivial
  | number n =>
    cases n with
    | integer => trivial
    | double => cases h
  | array items ih =>
    exact hasFiniteNumbers_array.mpr fun j hj => ih j hj (hasNoDoubles_array.mp h j hj)
  | object members ih =>
    exact hasFiniteNumbers_object.mpr fun m hm => ih m hm (hasNoDoubles_object.mp h m hm)

/-- Members that are repeated may be lost, but no number is added. -/
theorem HasFiniteNumbers.canonical {j : Json} (h : j.HasFiniteNumbers) :
    j.canonical.HasFiniteNumbers := by
  induction j using Json.induction with
  | null | bool | number | string => exact h
  | array items ih =>
    rw [canonical_array, hasFiniteNumbers_array]
    intro j hj
    obtain ⟨i, hi, rfl⟩ := List.mem_map.mp hj
    exact ih i hi (hasFiniteNumbers_array.mp h i hi)
  | object members ih =>
    rw [canonical_object, hasFiniteNumbers_object]
    intro m hm
    obtain ⟨l, hl, rfl⟩ := List.mem_map.mp (Entries.mem_of_mem_sorted hm)
    exact ih l hl (hasFiniteNumbers_object.mp h l hl)

mutual

/-- The tree with every number as it is read back. -/
def reread : Json → Json
  | .number n => .number n.reread
  | .array items => .array (rereadItems items)
  | .object members => .object (rereadMembers members)
  | j => j

def rereadItems : List Json → List Json
  | [] => []
  | j :: js => j.reread :: rereadItems js

def rereadMembers : List (String × Json) → List (String × Json)
  | [] => []
  | (k, j) :: ms => (k, j.reread) :: rereadMembers ms

end

theorem reread_array (items : List Json) : (array items).reread = .array (items.map reread) := by
  have hitems (js : List Json) : rereadItems js = js.map reread := by
    induction js with
    | nil => rfl
    | cons j js ih => rw [rereadItems, ih, List.map_cons]
  rw [reread, hitems]

theorem reread_object (members : List (String × Json)) :
    (object members).reread = .object (members.map fun m => (m.1, m.2.reread)) := by
  have hmembers (ms : List (String × Json)) :
      rereadMembers ms = ms.map fun m => (m.1, m.2.reread) := by
    induction ms with
    | nil => rfl
    | cons m ms ih => rw [rereadMembers, ih, List.map_cons]
  rw [reread, hmembers]

theorem reread_eq_self {j : Json} (h : j.HasNoDoubles) : j.reread = j := by
  induction j using Json.induction with
  | null | bool | string => rfl
  | number n =>
    cases n with
    | integer => rfl
    | double => cases h
  | array items ih =>
    have hitems := hasNoDoubles_array.mp h
    rw [reread_array, List.map_congr_left fun j hj => ih j hj (hitems j hj), List.map_id']
  | object members ih =>
    have hmembers := hasNoDoubles_object.mp h
    have hmap : members.map (fun m => (m.1, m.2.reread)) = members := by
      refine (List.map_congr_left fun m hm => ?_).trans (List.map_id' members)
      rw [ih m hm (hmembers m hm)]
    rw [reread_object, hmap]

theorem nesting_reread_le {j : Json} {n : Nat} (h : j.nesting ≤ n) : j.reread.nesting ≤ n := by
  induction j using Json.induction generalizing n with
  | null | bool | number | string => exact Nat.zero_le _
  | array items ih =>
    obtain _ | n := n
    · exact absurd h (Nat.not_succ_le_zero _)
    · rw [reread_array, nesting_array_le, List.forall_mem_map]
      exact fun j hj => ih j hj (nesting_array_le.mp h j hj)
  | object members ih =>
    obtain _ | n := n
    · exact absurd h (Nat.not_succ_le_zero _)
    · rw [reread_object, nesting_object_le, List.forall_mem_map]
      exact fun m hm => ih m hm (nesting_object_le.mp h m hm)

theorem Canonical.reread {j : Json} (h : j.Canonical) : j.reread.Canonical := by
  induction j using Json.induction with
  | null | bool | number | string => trivial
  | array items ih =>
    rw [reread_array]
    refine canonicalItems_iff.mpr (List.forall_mem_map.mpr fun j hj => ?_)
    exact ih j hj (canonicalItems_iff.mp h j hj)
  | object members ih =>
    obtain ⟨hkeys, hmembers⟩ := h
    rw [reread_object]
    refine ⟨List.pairwise_map.mpr hkeys, canonicalMembers_iff.mpr (List.forall_mem_map.mpr ?_)⟩
    exact fun m hm => ih m hm (canonicalMembers_iff.mp hmembers m hm)

/-- A value with every number as it is read back. -/
def Value.reread (v : Value) : Value :=
  ⟨v.json.reread, v.canonical.reread⟩

end ModelRegistry.Json
