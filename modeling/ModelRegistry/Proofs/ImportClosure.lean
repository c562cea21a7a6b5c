import ModelRegistry.Proofs.Difference

/-!
# Import closure

Without a path prefix, an import is dropped just if it denotes a model of the unit whose name is
bare, that is, has no separator in it. So a run under the initial options leaves no import of a bare
sibling, by its name or qualified by the unit, and keeps every import that denotes none. A name with
a dot, a slash or a colon in it is never taken for the name of a sibling: the import is external.
-/

namespace ModelRegistry

/-- Neither qualified nor part of a path or a scheme. -/
def isBare (name : String) : Bool :=
  Siblings.isPlain name.toList && !name.toList.contains '.'

def IsTrimmed (text : String) : Prop :=
  Text.trim text.toList = text.toList

instance (text : String) : Decidable (IsTrimmed text) :=
  inferInstanceAs (Decidable (Text.trim text.toList = text.toList))

/-- A text denotes a model of a unit by the name alone or by unit and name, blanks around the text
apart. -/
def Denotes (unit name text : String) : Prop :=
  Text.trim text.toList = name.toList ∨ Text.trim text.toList = (unit ++ "." ++ name).toList

instance (unit name text : String) : Decidable (Denotes unit name text) :=
  inferInstanceAs (Decidable (_ ∨ _))

theorem isBare_iff {name : String} :
    isBare name = true ↔ Siblings.isPlain name.toList = true ∧ '.' ∉ name.toList := by
  simp [isBare]

theorem toList_qualified (unit name : String) :
    (unit ++ "." ++ name).toList = unit.toList ++ '.' :: name.toList := by
  simp

namespace Siblings

variable {s : Siblings} {text : String}

theorem ownsName_iff {name : List Char} :
    s.ownsName name = true ↔ isPlain name = true ∧ String.ofList name ∈ s.names := by
  rw [ownsName, Bool.and_eq_true, List.contains_iff_mem]

theorem owns_of_qualified (hpath : s.underPrefix? (Text.trim text.toList) = none)
    {qualifier name : List Char}
    (h : Text.splitLast? '.' (Text.trim text.toList) = some (qualifier, name)) :
    s.owns text = true ↔ qualifier = s.unit.toList ∧ s.ownsName name = true := by
  simp [owns, hpath, h]

theorem owns_of_unqualified (hpath : s.underPrefix? (Text.trim text.toList) = none)
    (h : Text.splitLast? '.' (Text.trim text.toList) = none) :
    s.owns text = true ↔ s.ownsName (Text.trim text.toList) = true := by
  simp [owns, hpath, h]

/-- The text is split at its last dot, and a bare name has no dot; so where the text has one, it can
only be qualified, and the split finds unit and name. -/
theorem owns_iff_denotes (hpath : s.underPrefix? (Text.trim text.toList) = none) :
    s.owns text = true ↔ ∃ name ∈ s.names, isBare name = true ∧ Denotes s.unit name text := by
  cases h : Text.splitLast? '.' (Text.trim text.toList) with
  | none =>
    have hdot := Text.splitLast?_eq_none.mp h
    rw [owns_of_unqualified hpath h, ownsName_iff]
    constructor
    · rintro ⟨hplain, hname⟩
      refine ⟨_, hname, isBare_iff.mpr ?_, .inl String.toList_ofList.symm⟩
      rw [String.toList_ofList]
      exact ⟨hplain, hdot⟩
    · rintro ⟨name, hname, hbare, heq | heq⟩
      · rw [heq, String.ofList_toList]
        exact ⟨(isBare_iff.mp hbare).1, hname⟩
      · rw [heq, toList_qualified] at hdot
        simp at hdot
  | some parts =>
    obtain ⟨qualifier, last⟩ := parts
    obtain ⟨htext, hdot⟩ := Text.splitLast?_eq_some.mp h
    rw [owns_of_qualified hpath h, ownsName_iff]
    constructor
    · rintro ⟨rfl, hplain, hname⟩
      refine ⟨_, hname, isBare_iff.mpr ?_, .inr ?_⟩
      · rw [String.toList_ofList]
        exact ⟨hplain, hdot⟩
      · rw [toList_qualified, String.toList_ofList, htext]
    · rintro ⟨name, hname, hbare, heq⟩
      obtain ⟨hplain, hnone⟩ := isBare_iff.mp hbare
      rcases heq with heq | heq
      · rw [← heq, htext] at hnone
        simp at hnone
      · rw [heq, toList_qualified, Text.splitLast?_append _ hnone] at h
        obtain ⟨rfl, rfl⟩ := Prod.mk.inj (Option.some.inj h)
        rw [String.ofList_toList]
        exact ⟨rfl, hplain, hname⟩

end Siblings

theorem Options.drops_initial {p : Place} {text : String} :
    Options.drops {} p text = true ↔
      ∃ name ∈ p.names, isBare name = true ∧ Denotes p.unit name text :=
  Siblings.owns_iff_denotes (s := p.siblings none) rfl

namespace Registry

theorem registry_postProcess_initial (r : Registry) :
    (r.postProcess {}).registry = r.mapModels (Model.processed {}) :=
  (postProcess_eq_ok (r.result_postProcess_of_not_strict rfl)).1

/-- Which imports of a member are left. -/
theorem mem_imports_of_mem_members {r : Registry} {e : Place × Model} (he : e ∈ r.members)
    {name : String} :
    name ∈ (e.2.processed {} e.1).imports ↔ name ∈ e.2.imports ∧
      ¬ ∃ k, (e.1.unit, k) ∈ r.models ∧ isBare k.name = true ∧ Denotes e.1.unit k.name name := by
  rw [Model.mem_imports_processed, Options.drops_initial]
  refine and_congr_right fun _ => not_congr ⟨?_, ?_⟩
  · rintro ⟨_, hname, hdenotes⟩
    obtain ⟨k, hk, rfl⟩ := (mem_names he).mp hname
    exact ⟨k, hk, hdenotes⟩
  · rintro ⟨k, hk, hdenotes⟩
    exact ⟨k.name, (mem_names he).mpr ⟨k, hk, rfl⟩, hdenotes⟩

/-- A run under the initial options leaves no import that is the bare name of a sibling, or this
name qualified by the unit; and it drops no other import, blanks around it apart. -/
theorem postProcess_imports_closed (r : Registry) :
    let s := (r.postProcess {}).registry
    (∀ unit m k, (unit, m) ∈ s.models → (unit, k) ∈ s.models → isBare k.name = true →
      (IsTrimmed k.name → k.name ∉ m.imports) ∧
      (IsTrimmed (unit ++ "." ++ k.name) → unit ++ "." ++ k.name ∉ m.imports)) ∧
    ∀ t ∈ r.transitions s, ∀ name, name ∈ t.after.imports ↔ name ∈ t.before.imports ∧
      ¬ ∃ k, (t.unit, k) ∈ r.models ∧ isBare k.name = true ∧ Denotes t.unit k.name name := by
  intro s
  have hs : s = r.mapModels (Model.processed {}) := r.registry_postProcess_initial
  rw [hs]
  refine ⟨fun unit m k hm hk hbare => ?_, fun t ht name => ?_⟩
  · have hnames := Model.keepsNames_processed {}
    obtain ⟨e, he, rfl, rfl⟩ := (mem_models_mapModels hnames).mp hm
    obtain ⟨d, hd, hunit, rfl⟩ := (mem_models_mapModels hnames).mp hk
    have hsibling : (e.1.unit, d.2) ∈ r.models := mem_models.mpr ⟨d, hd, hunit, rfl⟩
    constructor
    · intro htrim himport
      exact ((mem_imports_of_mem_members he).mp himport).2 ⟨d.2, hsibling, hbare, .inl htrim⟩
    · intro htrim himport
      exact ((mem_imports_of_mem_members he).mp himport).2 ⟨d.2, hsibling, hbare, .inr htrim⟩
  · rw [transitions_mapModels] at ht
    obtain ⟨e, he, rfl⟩ := List.mem_map.mp ht
    exact mem_imports_of_mem_members he

end Registry

/-- A unit with a model of a bare name and one whose name has a dot, both with the same imports. -/
def atlas (imports : List String) : Registry :=
  (Registry.empty.insert "maps" { name := "Point", imports := .ofList imports }).insert "maps"
    { name := "geo.Point", imports := .ofList imports }

def fullAtlas : Registry :=
  atlas ["Point", " maps.Point ", "geo.Point", "maps.geo.Point"]

def filteredAtlas : Registry :=
  atlas ["geo.Point", "maps.geo.Point"]

theorem postProcess_imports_closed_atlas :
    (fullAtlas.postProcess {}).registry = filteredAtlas ∧
      (∀ m, ("maps", m) ∈ filteredAtlas.models →
        "Point" ∉ m.imports ∧ "maps.Point" ∉ m.imports) ∧
      ∀ t ∈ fullAtlas.transitions filteredAtlas, "geo.Point" ∈ t.after.imports := by
  have hs : (fullAtlas.postProcess {}).registry = filteredAtlas := rfl
  obtain ⟨hclosed, hexact⟩ := fullAtlas.postProcess_imports_closed
  rw [hs] at hclosed hexact
  refine ⟨hs, fun m hm => ?_, fun t ht => ?_⟩
  · obtain ⟨hname, hqualified⟩ := hclosed "maps" m _ hm List.mem_cons_self rfl
    exact ⟨hname rfl, hqualified rfl⟩
  · have hbefore : ∀ t ∈ fullAtlas.transitions filteredAtlas,
        t.unit = "maps" ∧ "geo.Point" ∈ t.before.imports := by decide
    have hexternal : ∀ e ∈ fullAtlas.models,
        isBare e.2.name = true → ¬ Denotes "maps" e.2.name "geo.Point" := by decide
    obtain ⟨hunit, himport⟩ := hbefore t ht
    refine (hexact t ht "geo.Point").mpr ⟨himport, ?_⟩
    rw [hunit]
    rintro ⟨k, hk, hbare, hdenotes⟩
    exact hexternal _ hk hbare hdenotes

/-- A sibling whose name has a dot can be imported still, by its name and qualified. -/
theorem dotted_sibling_stays_imported :
    ¬ ∀ (r : Registry) (unit : String) (m k : Model),
      (unit, m) ∈ (r.postProcess {}).registry.models →
      (unit, k) ∈ (r.postProcess {}).registry.models →
        k.name ∉ m.imports ∧ unit ++ "." ++ k.name ∉ m.imports := by
  intro h
  have hdotted := (h fullAtlas "maps" _ _ List.mem_cons_self
    (List.mem_cons_of_mem _ List.mem_cons_self)).1
  exact absurd (by decide) hdotted

/-- Imports are trimmed before they are compared and names are not, so a name with blanks around it
is never found. -/
theorem padded_sibling_stays_imported :
    ¬ ∀ (r : Registry) (unit : String) (m k : Model),
      (unit, m) ∈ (r.postProcess {}).registry.models →
      (unit, k) ∈ (r.postProcess {}).registry.models → isBare k.name = true →
        k.name ∉ m.imports := by
  intro h
  let r := Registry.empty.insert "maps" { name := " Point ", imports := .ofList [" Point "] }
  have hpadded := h r "maps" _ _ List.mem_cons_self List.mem_cons_self rfl
  exact absurd (by decide) hpadded

end ModelRegistry
