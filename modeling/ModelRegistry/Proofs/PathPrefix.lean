import ModelRegistry.Proofs.ImportGrammar

/-!
# What a path prefix adds and what it hides

With a path prefix the filter drops imports of model files as well. But a text under the prefix is
taken for a file and for nothing else, so the prefix hides the names of siblings that begin with it,
bare or qualified by the unit: these imports are dropped without it and kept with it. Where no name
begins with the prefix, nothing is hidden, and the prefix only adds to what is dropped. This is so
wherever the prefix has a slash or a colon in it and no unit has one in its name.
-/

namespace ModelRegistry

/-- The text begins with the path and goes on with what is no file of a model. -/
def HiddenBy (path : String) (names : Set String) (text : String) : Prop :=
  IsUnder (some path) text ∧ ∀ file, text = path ++ file → ¬ ModelFile names file

section Hiding

variable {unit path text : String} {names : Set String}

theorem isUnder_some : IsUnder (some path) text ↔ path ≠ "" ∧ ∃ file, text = path ++ file := by
  constructor
  · rintro ⟨_, hpath, hne, file, hfile⟩
    obtain rfl := Option.some.inj hpath
    refine ⟨hne, String.ofList file, ?_⟩
    rw [← String.toList_inj, String.toList_append, String.toList_ofList, hfile]
  · rintro ⟨hne, file, rfl⟩
    refine ⟨path, rfl, hne, ?_⟩
    rw [String.toList_append]
    exact List.prefix_append ..

theorem not_isUnder_none : ¬ IsUnder none text := by
  rintro ⟨_, hnone, -⟩
  cases hnone

/-- Of the names of siblings the path hides all that begin with it, model files apart. -/
theorem importsSibling_some_iff (h : ImportsSibling unit names none text) :
    ImportsSibling unit names (some path) text ↔ ¬ HiddenBy path names text := by
  by_cases hunder : IsUnder (some path) text
  · obtain ⟨hne, file, rfl⟩ := isUnder_some.mp hunder
    rw [importsSibling_append rfl hne]
    constructor
    · intro hfile hhidden
      exact hhidden.2 file rfl hfile
    · intro hseen
      by_contra hnone
      refine hseen ⟨hunder, fun file' hfile' => ?_⟩
      obtain rfl : file = file' := (String.append_right_inj path).mp hfile'
      exact hnone
  · have hname := (importsSibling_iff_of_not_isUnder not_isUnder_none).mp h
    refine iff_of_true ((importsSibling_iff_of_not_isUnder hunder).mpr hname) ?_
    exact fun hhidden => hunder hhidden.1

end Hiding

theorem Siblings.isPlain_append (s t : List Char) :
    isPlain (s ++ t) = (isPlain s && isPlain t) := by
  rw [Bool.eq_iff_iff]
  simp only [isPlain, Bool.and_eq_true, Bool.not_eq_true', List.contains_eq_mem,
    decide_eq_false_iff_not, List.mem_append]
  tauto

/-- A path with a separator in it is not the beginning of a plain text. -/
theorem not_isUnder_of_separator {path text : String}
    (hpath : Siblings.isPlain path.toList = false) (htext : Siblings.isPlain text.toList = true) :
    ¬ IsUnder (some path) text := by
  intro hunder
  obtain ⟨-, file, rfl⟩ := isUnder_some.mp hunder
  rw [String.toList_append, Siblings.isPlain_append, hpath] at htext
  cases htext

namespace Registry

variable {r : Registry} {path : String}

/-- The names of the models of a unit. -/
def namesIn (r : Registry) (unit : String) : Set String :=
  {name | ∃ k, (unit, k) ∈ r.models ∧ k.name = name}

/-- No bare name begins with the path, neither as it stands nor qualified by its unit. -/
def NoNameUnder (r : Registry) (path : String) : Prop :=
  ∀ unit, ∀ name ∈ r.namesIn unit, isBare name = true →
    ¬ IsUnder (some path) name ∧ ¬ IsUnder (some path) (unit ++ "." ++ name)

theorem noNameUnder_of_separator (hpath : Siblings.isPlain path.toList = false)
    (hunits : ∀ e ∈ r.models, Siblings.isPlain e.1.toList = true) : r.NoNameUnder path := by
  rintro unit _ ⟨k, hk, rfl⟩ hbare
  have hname := (isBare_iff.mp hbare).1
  refine ⟨not_isUnder_of_separator hpath hname, not_isUnder_of_separator hpath ?_⟩
  have hdot : Siblings.isPlain ".".toList = true := rfl
  rw [String.toList_append, String.toList_append, Siblings.isPlain_append, Siblings.isPlain_append,
    hunits _ hk, hdot, hname]
  rfl

/-- A name of a sibling is hidden only if it begins with the path. -/
theorem NoNameUnder.not_hiddenBy (hpath : r.NoNameUnder path) {unit text : String}
    (h : ImportsSibling unit (r.namesIn unit) none text) :
    ¬ HiddenBy path (r.namesIn unit) text := by
  obtain ⟨name, hname, hbare, htext⟩ :=
    (importsSibling_iff_of_not_isUnder not_isUnder_none).mp h
  obtain ⟨hname, hqualified⟩ := hpath unit name hname hbare
  rintro ⟨hunder, -⟩
  rcases htext with rfl | rfl
  · exact hname hunder
  · exact hqualified hunder

theorem mem_lostImports_withoutImports {o : Options} (hpolicy : o.importPolicy = .sameUnit)
    {e : Place × Model} (he : e ∈ r.members) {text : String} :
    text ∈ (Transition.mk e.1.unit e.2 (e.2.withoutImports (o.drops e.1))).lostImports ↔
      text ∈ e.2.imports ∧ ImportsSibling e.1.unit (r.namesIn e.1.unit) o.modelImportPrefix
        (String.ofList (Text.trim text.toList)) := by
  have hnames : {name | name ∈ e.1.names} = r.namesIn e.1.unit := by
    ext name
    exact mem_names he
  have hlost : (Transition.mk e.1.unit e.2 (e.2.withoutImports (o.drops e.1))).lostImports =
      e.2.imports.names.filter (o.drops e.1) :=
    Transition.lostImports_processed o e.1 e.2
  rw [hlost, List.mem_filter, ← hnames, drops_iff_importsSibling hpolicy]
  rfl

/-- The imports that are dropped without a path prefix are dropped with one, but for those that it
hides. Where no name begins with it, it only adds to what is dropped. -/
theorem filterImports_path_adds {o : Options} (hpolicy : o.importPolicy = .sameUnit)
    (path : String) (r : Registry) :
    let bare := (r.filterImports { o with modelImportPrefix := none }).value
    let filed := (r.filterImports { o with modelImportPrefix := some path }).value
    List.Forall₂ (fun t t' => t'.unit = t.unit ∧ t'.before = t.before ∧
        ∀ text ∈ t.lostImports, text ∈ t'.lostImports ↔
          ¬ HiddenBy path (r.namesIn t.unit) (String.ofList (Text.trim text.toList)))
      (r.transitions bare) (r.transitions filed) ∧
    (r.NoNameUnder path →
      List.Forall₂ (fun t t' => t'.unit = t.unit ∧ t'.before = t.before ∧
        t.lostImports ⊆ t'.lostImports) (r.transitions bare) (r.transitions filed)) := by
  intro bare filed
  have htransitions (pathPrefix : Option String) :
      r.transitions (r.filterImports { o with modelImportPrefix := pathPrefix }).value =
        r.members.map fun e => ⟨e.1.unit, e.2,
          e.2.withoutImports (Options.drops { o with modelImportPrefix := pathPrefix } e.1)⟩ := by
    rw [value_filterImports, transitions_mapModels]
  have hlost (pathPrefix : Option String) {e : Place × Model} (he : e ∈ r.members)
      {text : String} :=
    @mem_lostImports_withoutImports r { o with modelImportPrefix := pathPrefix } hpolicy e he text
  simp only [bare, filed, htransitions, List.forall₂_map_left_iff, List.forall₂_map_right_iff,
    List.forall₂_same, true_and]
  constructor
  · intro e he text htext
    obtain ⟨himport, hsibling⟩ := (hlost none he).mp htext
    rw [hlost (some path) he, and_iff_right himport]
    exact importsSibling_some_iff hsibling
  · intro hpath e he text htext
    obtain ⟨himport, hsibling⟩ := (hlost none he).mp htext
    refine (hlost (some path) he).mpr ⟨himport, ?_⟩
    exact (importsSibling_some_iff hsibling).mpr (hpath.not_hiddenBy hsibling)

end Registry

/-- A cat that imports a dog in all ways there are. -/
def shelter : Registry :=
  (Registry.empty.insert "pets" { name := "Dog" }).insert "pets" {
    name := "Cat", imports := .ofList ["Dog", "pets.Dog", "package:pets/model/dog.dart"] }

theorem filterImports_path_adds_shelter :
    ({} : Options).importPolicy = .sameUnit ∧ shelter.NoNameUnder "package:pets/model/" ∧
      ((shelter.transitions (shelter.filterImports {}).value).map (·.lostImports)) =
        [[], ["Dog", "pets.Dog"]] ∧
      (∃ t ∈ shelter.transitions
          (shelter.filterImports { modelImportPrefix := some "package:pets/model/" }).value,
        ["Dog", "pets.Dog"] ⊆ t.lostImports) ∧
      HiddenBy "pets" (shelter.namesIn "pets") "pets.Dog" := by
  have hpath : shelter.NoNameUnder "package:pets/model/" :=
    Registry.noNameUnder_of_separator rfl (by decide)
  have hlost : (shelter.transitions (shelter.filterImports {}).value).map (·.lostImports) =
      [[], ["Dog", "pets.Dog"]] := rfl
  obtain ⟨-, hadds⟩ :=
    Registry.filterImports_path_adds (o := {}) rfl "package:pets/model/" shelter
  obtain ⟨hhides, -⟩ := Registry.filterImports_path_adds (o := {}) rfl "pets" shelter
  refine ⟨rfl, hpath, hlost, ?_, ?_⟩
  · obtain ⟨-, hcat⟩ := List.forall₂_cons.mp (hadds hpath)
    exact ⟨_, List.mem_cons_of_mem _ List.mem_cons_self, (List.forall₂_cons.mp hcat).1.2.2⟩
  · obtain ⟨-, hcat⟩ := List.forall₂_cons.mp hhides
    have hkept := ((List.forall₂_cons.mp hcat).1.2.2 "pets.Dog"
      (by decide +kernel)).not.mp (by decide +kernel)
    exact not_not.mp hkept

/-- A prefix that is no path can begin the names of siblings, which are imported still then. -/
theorem path_hides_sibling :
    ¬ ∀ (r : Registry) (path : String),
      List.Forall₂ (fun t t' => t.lostImports ⊆ t'.lostImports)
        (r.transitions (r.filterImports {}).value)
        (r.transitions (r.filterImports { modelImportPrefix := some path }).value) := by
  intro h
  obtain ⟨-, hcat⟩ := List.forall₂_cons.mp (h shelter "pets")
  have hqualified : "pets.Dog" ∈ _ := (List.forall₂_cons.mp hcat).1 (by decide +kernel)
  exact absurd hqualified (by decide +kernel)

end ModelRegistry
