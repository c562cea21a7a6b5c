import Mathlib.Data.Set.Image
import ModelRegistry.Proofs.ImportClosure

/-!
# The grammar of imports of siblings

The import filter decides about a text by taking prefixes, endings and the last dot off it. This
module says what the texts are like that it drops: a text under the path prefix names a file of a
model, with one of the source extensions or with none; any other text is the bare name of a model,
as it stands or qualified by the unit. What stands under the prefix is never anything but a file,
and no text ends in two extensions.
-/

namespace ModelRegistry

/-- What the file of a model can be called, its extension apart. -/
def fileStems (names : Set String) : Set String :=
  names ∪ Text.snakeCase '' names

/-- A file of a model. A name that ends in an extension itself is no stem. -/
inductive ModelFile (names : Set String) : String → Prop
  | withExtension {stem ext : String} (hext : ext ∈ Siblings.sourceExtensions)
      (hstem : stem ∈ fileStems names) : ModelFile names (stem ++ ext)
  | plain {stem : String} (hnone : ∀ ext ∈ Siblings.sourceExtensions, ¬ ext.toList <:+ stem.toList)
      (hstem : stem ∈ fileStems names) : ModelFile names stem

/-- The text begins with the prefix under which model files live. An empty prefix is none. -/
def IsUnder (pathPrefix : Option String) (text : String) : Prop :=
  ∃ path, pathPrefix = some path ∧ path ≠ "" ∧ path.toList <+: text.toList

/-- The texts that import a model of a unit, given the names of its models. -/
inductive ImportsSibling (unit : String) (names : Set String) (pathPrefix : Option String) :
    String → Prop
  | file {path file : String} (hpath : pathPrefix = some path) (hne : path ≠ "")
      (hfile : ModelFile names file) : ImportsSibling unit names pathPrefix (path ++ file)
  | named {name : String} (hout : ¬ IsUnder pathPrefix name) (hname : name ∈ names)
      (hbare : isBare name = true) : ImportsSibling unit names pathPrefix name
  | qualified {name : String} (hout : ¬ IsUnder pathPrefix (unit ++ "." ++ name))
      (hname : name ∈ names) (hbare : isBare name = true) :
      ImportsSibling unit names pathPrefix (unit ++ "." ++ name)

section Grammar

variable {unit : String} {names : Set String} {pathPrefix : Option String} {text : String}

/-- Under the prefix, files alone are imports. -/
theorem importsSibling_append {path file : String} (hpath : pathPrefix = some path)
    (hne : path ≠ "") :
    ImportsSibling unit names pathPrefix (path ++ file) ↔ ModelFile names file := by
  have hunder : IsUnder pathPrefix (path ++ file) :=
    ⟨path, hpath, hne, by rw [String.toList_append]; exact List.prefix_append ..⟩
  refine ⟨fun h => ?_, fun h => .file hpath hne h⟩
  generalize htext : path ++ file = text at h hunder
  cases h with
  | @file path' file' hpath' _ hfile =>
    obtain rfl : path = path' := Option.some.inj (hpath.symm.trans hpath')
    obtain rfl : file = file' := String.append_right_inj path |>.mp htext
    exact hfile
  | named hout => exact absurd hunder hout
  | qualified hout => exact absurd hunder hout

/-- Elsewhere, files never are. -/
theorem importsSibling_iff_of_not_isUnder (hout : ¬ IsUnder pathPrefix text) :
    ImportsSibling unit names pathPrefix text ↔
      ∃ name ∈ names, isBare name = true ∧ (text = name ∨ text = unit ++ "." ++ name) := by
  constructor
  · intro h
    cases h with
    | @file path file hpath hne _ =>
      refine absurd ⟨path, hpath, hne, ?_⟩ hout
      rw [String.toList_append]
      exact List.prefix_append ..
    | named _ hname hbare => exact ⟨_, hname, hbare, .inl rfl⟩
    | qualified _ hname hbare => exact ⟨_, hname, hbare, .inr rfl⟩
  · rintro ⟨name, hname, hbare, rfl | rfl⟩
    · exact .named hout hname hbare
    · exact .qualified hout hname hbare

end Grammar

namespace Siblings

/-- No source extension ends in another one, so a text ends in one of them at most. -/
theorem eq_of_isSuffix {ext ext' : String} (hext : ext ∈ sourceExtensions)
    (hext' : ext' ∈ sourceExtensions) {s : List Char} (h : ext.toList <:+ s)
    (h' : ext'.toList <:+ s) : ext = ext' := by
  have hproper : ∀ e ∈ sourceExtensions, ∀ e' ∈ sourceExtensions,
      e.toList <:+ e'.toList → e = e' := by decide
  rcases List.suffix_or_suffix_of_suffix h h' with hsuffix | hsuffix
  · exact hproper ext hext ext' hext' hsuffix
  · exact (hproper ext' hext' ext hext hsuffix).symm

theorem stripExtension_append {ext : String} (hext : ext ∈ sourceExtensions) (stem : List Char) :
    stripExtension (stem ++ ext.toList) = stem := by
  cases hfound : sourceExtensions.findSome? fun e =>
      Text.dropSuffix? e.toList (stem ++ ext.toList) with
  | none =>
    have hnone := List.findSome?_eq_none_iff.mp hfound ext hext
    rw [Text.dropSuffix?_eq_some.mpr rfl] at hnone
    cases hnone
  | some stem' =>
    obtain ⟨ext', hext', hdrop⟩ := List.exists_of_findSome?_eq_some hfound
    have hsplit : stem ++ ext.toList = stem' ++ ext'.toList := Text.dropSuffix?_eq_some.mp hdrop
    obtain rfl : ext = ext' := eq_of_isSuffix hext hext' ⟨stem, rfl⟩ ⟨stem', hsplit.symm⟩
    rw [stripExtension, hfound, Option.getD_some]
    exact (List.append_cancel_right hsplit).symm

theorem stripExtension_eq_self {s : List Char}
    (h : ∀ ext ∈ sourceExtensions, ¬ ext.toList <:+ s) : stripExtension s = s := by
  have hnone : sourceExtensions.findSome? (fun e => Text.dropSuffix? e.toList s) = none := by
    refine List.findSome?_eq_none_iff.mpr fun ext hext => ?_
    refine Option.eq_none_iff_forall_not_mem.mpr fun stem hstem => ?_
    exact h ext hext ⟨stem, (Text.dropSuffix?_eq_some.mp hstem).symm⟩
  rw [stripExtension, hnone, Option.getD_none]

variable {p : Place} {pathPrefix : Option String} {text : String}

theorem ownsFile_iff_stem {file : List Char} :
    (p.siblings pathPrefix).ownsFile file = true ↔
      String.ofList (stripExtension file) ∈ fileStems {name | name ∈ p.names} := by
  simp only [ownsFile, Place.siblings, Bool.or_eq_true, List.contains_iff_mem, List.mem_map]
  rfl

theorem ownsFile_iff_modelFile {file : String} :
    (p.siblings pathPrefix).ownsFile file.toList = true ↔
      ModelFile {name | name ∈ p.names} file := by
  rw [ownsFile_iff_stem]
  constructor
  · intro hstem
    by_cases hext : ∃ ext ∈ sourceExtensions, ext.toList <:+ file.toList
    · obtain ⟨ext, hext, stem, hfile⟩ := hext
      rw [← hfile, stripExtension_append hext] at hstem
      have hsplit : file = String.ofList stem ++ ext := by
        rw [← String.toList_inj, ← hfile, String.toList_append, String.toList_ofList]
      exact hsplit ▸ .withExtension hext hstem
    · have hnone : ∀ ext ∈ sourceExtensions, ¬ ext.toList <:+ file.toList :=
        fun ext hmem hsuffix => hext ⟨ext, hmem, hsuffix⟩
      rw [stripExtension_eq_self hnone, String.ofList_toList] at hstem
      exact .plain hnone hstem
  · rintro (⟨hext, hstem⟩ | ⟨hnone, hstem⟩)
    · rwa [String.toList_append, stripExtension_append hext, String.ofList_toList]
    · rwa [stripExtension_eq_self hnone, String.ofList_toList]

theorem underPrefix?_eq_some {s file : List Char} :
    (p.siblings pathPrefix).underPrefix? s = some file ↔
      ∃ path, pathPrefix = some path ∧ path ≠ "" ∧ s = path.toList ++ file := by
  simp only [underPrefix?, Place.siblings, Option.bind_eq_bind, Option.bind_eq_some_iff,
    Option.filter_eq_some_iff, decide_eq_true_eq, Text.dropPrefix?_eq_some, and_assoc]

theorem underPrefix?_eq_none :
    (p.siblings pathPrefix).underPrefix? text.toList = none ↔ ¬ IsUnder pathPrefix text := by
  rw [← not_iff_not, not_not, ← ne_eq, Option.ne_none_iff_exists']
  simp only [underPrefix?_eq_some]
  constructor
  · rintro ⟨file, path, hpath, hne, hfile⟩
    exact ⟨path, hpath, hne, file, hfile.symm⟩
  · rintro ⟨path, hpath, hne, file, hfile⟩
    exact ⟨file, path, hpath, hne, hfile.symm⟩

/-- The membership test accepts the texts of the grammar, blanks around them apart. -/
theorem owns_iff_importsSibling :
    (p.siblings pathPrefix).owns text = true ↔
      ImportsSibling p.unit {name | name ∈ p.names} pathPrefix
        (String.ofList (Text.trim text.toList)) := by
  obtain ⟨trimmed, htrim⟩ : ∃ trimmed : String, Text.trim text.toList = trimmed.toList :=
    ⟨_, String.toList_ofList.symm⟩
  rw [htrim, String.ofList_toList]
  cases hpath : (p.siblings pathPrefix).underPrefix? trimmed.toList with
  | some file =>
    obtain ⟨path, hprefix, hne, hsplit⟩ := underPrefix?_eq_some.mp hpath
    have howns : (p.siblings pathPrefix).owns text = (p.siblings pathPrefix).ownsFile file := by
      simp only [owns, htrim, hpath]
    have htext : trimmed = path ++ String.ofList file := by
      rw [← String.toList_inj, hsplit, String.toList_append, String.toList_ofList]
    rw [howns, htext, importsSibling_append hprefix hne, ← ownsFile_iff_modelFile,
      String.toList_ofList]
  | none =>
    have hout := underPrefix?_eq_none.mp hpath
    rw [owns_iff_denotes (by rw [htrim, hpath]), importsSibling_iff_of_not_isUnder hout]
    simp only [Denotes, htrim, String.toList_inj]
    rfl

end Siblings

namespace Registry

theorem value_filterImports (r : Registry) (o : Options) :
    (r.filterImports o).value = r.mapModels fun p m => m.withoutImports (o.drops p) :=
  (Pass.filterImports o).value_run r

/-- An empty prefix makes the same filter as none. -/
theorem filterImports_empty_prefix (r : Registry) (o : Options) :
    r.filterImports { o with modelImportPrefix := some "" } =
      r.filterImports { o with modelImportPrefix := none } := rfl

theorem drops_iff_importsSibling {o : Options} (hpolicy : o.importPolicy = .sameUnit) {p : Place}
    {text : String} :
    o.drops p text = true ↔ ImportsSibling p.unit {name | name ∈ p.names} o.modelImportPrefix
      (String.ofList (Text.trim text.toList)) := by
  rw [Options.drops, hpolicy, ImportPolicy.drops, Siblings.owns_iff_importsSibling]

/-- Under the policy of the same unit the filter leaves every unit and every model in its place and
drops from the imports of a model just the texts that import a model of its unit. -/
theorem filterImports_follows_grammar {o : Options} (hpolicy : o.importPolicy = .sameUnit)
    (r : Registry) :
    List.Forall₂ (fun d e => e.1 = d.1 ∧
        List.Forall₂ (fun m m' => m' = { m with imports := m'.imports } ∧
            ∀ text, text ∈ m'.imports ↔ text ∈ m.imports ∧
              ¬ ImportsSibling d.1 {name | ∃ k ∈ d.2.models, k.name = name} o.modelImportPrefix
                (String.ofList (Text.trim text.toList)))
          d.2.models e.2.models)
      r.units.entries (r.filterImports o).value.units.entries ∧
    (r.filterImports { o with modelImportPrefix := some "" } =
      r.filterImports { o with modelImportPrefix := none }) ∧
    ∀ ext ∈ Siblings.sourceExtensions, ∀ ext' ∈ Siblings.sourceExtensions, ∀ s : List Char,
      ext.toList <:+ s → ext'.toList <:+ s → ext = ext' := by
  refine ⟨?_, r.filterImports_empty_prefix o, fun ext hext ext' hext' s h h' =>
    Siblings.eq_of_isSuffix hext hext' h h'⟩
  rw [value_filterImports, entries_mapModels, List.forall₂_map_right_iff, List.forall₂_same]
  refine fun d _ => ⟨rfl, ?_⟩
  rw [GenerationUnit.mapModels, List.forall₂_map_right_iff, List.forall₂_same]
  refine fun m _ => ⟨rfl, fun text => ?_⟩
  have hnames : {name | name ∈ (d.2.place d.1).names} =
      {name | ∃ k ∈ d.2.models, k.name = name} := by
    ext name
    exact List.mem_map
  have hdrops : o.drops (d.2.place d.1) text = true ↔ ImportsSibling d.1 _ _ _ :=
    drops_iff_importsSibling hpolicy
  rw [← hnames, ← hdrops, Bool.not_eq_true, ← Bool.not_eq_true']
  exact NameSet.mem_filter

end Registry

/-- A unit whose name has separators, with a model that is called like a file. -/
def harbor (imports : List String) : Registry :=
  ⟨.ofList [("v1/sea.x",
    ⟨[{ name := "Tug", imports := .ofList imports }, { name := "BigShip.ts" }]⟩)]⟩

def busyHarbor : Registry :=
  harbor [" Tug\t", "v1/sea.x.Tug", "p:/tug.dart", "p:/Tug", "p:/big_ship_ts", "p:/BigShip.ts.ts",
    "BigShip.ts", "p:/BigShip.ts", "p:/v1/sea.x.Tug"]

/-- What is left has a name with a dot, or it stands under the prefix and is a file without a model,
or no file at all. -/
def calmHarbor : Registry :=
  harbor ["BigShip.ts", "p:/BigShip.ts", "p:/v1/sea.x.Tug"]

def harborOptions : Options where
  modelImportPrefix := some "p:/"

def harborSiblings : Siblings :=
  .ofUnit "v1/sea.x" [{ name := "Tug" }, { name := "BigShip.ts" }] (some "p:/")

/-- Only the first model has imports, and of these the siblings are left out. -/
theorem filterImports_harbor (imports : List String) :
    ((harbor imports).filterImports harborOptions).value =
      ⟨.ofList [("v1/sea.x", ⟨[
        { name := "Tug"
          imports := (NameSet.ofList imports).filter fun name => !harborSiblings.owns name },
        { name := "BigShip.ts" }]⟩)]⟩ :=
  rfl

theorem filterImports_follows_grammar_harbor :
    harborOptions.importPolicy = .sameUnit ∧
      (busyHarbor.filterImports harborOptions).value = calmHarbor ∧
      ImportsSibling "v1/sea.x" {"Tug", "BigShip.ts"} (some "p:/") "p:/BigShip.ts.ts" ∧
      ¬ ImportsSibling "v1/sea.x" {"Tug", "BigShip.ts"} (some "p:/") "p:/BigShip.ts" := by
  have hpolicy : harborOptions.importPolicy = .sameUnit := rfl
  have hcalm : (NameSet.ofList [" Tug\t", "v1/sea.x.Tug", "p:/tug.dart", "p:/Tug",
      "p:/big_ship_ts", "p:/BigShip.ts.ts", "BigShip.ts", "p:/BigShip.ts", "p:/v1/sea.x.Tug"]).filter
        (fun name => !harborSiblings.owns name) =
      .ofList ["BigShip.ts", "p:/BigShip.ts", "p:/v1/sea.x.Tug"] := by
    decide +kernel
  have hfiltered : (busyHarbor.filterImports harborOptions).value = calmHarbor := by
    rw [busyHarbor, filterImports_harbor, hcalm]
    rfl
  obtain ⟨hentries, -, -⟩ := Registry.filterImports_follows_grammar hpolicy busyHarbor
  rw [hfiltered] at hentries
  have hmodels := (List.forall₂_cons.mp hentries).1.2
  have htug := (List.forall₂_cons.mp hmodels).1.2
  have hnames {m k : Model} : {name | ∃ l ∈ [m, k], l.name = name} = {m.name, k.name} := by
    ext name
    simp [eq_comm]
  rw [hnames] at htug
  have hkept := (htug "p:/BigShip.ts").mp (by decide)
  have hdropped := mt (htug "p:/BigShip.ts.ts").mpr (by decide)
  refine ⟨hpolicy, hfiltered, ?_, hkept.2⟩
  exact not_not.mp fun hforeign => hdropped ⟨by decide, hforeign⟩

end ModelRegistry
