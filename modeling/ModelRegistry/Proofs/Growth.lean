import ModelRegistry.Proofs.Frame
import ModelRegistry.Proofs.ImportGrammar
import ModelRegistry.Proofs.Locality
import ModelRegistry.Proofs.SortedEntries

/-!
# A unit that grows

A model that is inserted comes last in its unit and leaves all other units as they are. The other
models of the unit have one more sibling then. The grammar of imports is additive in the names of
the siblings: a text imports one of them if it would were the unit without the new model, or if it
would were the new model alone in it. So a run drops of their imports those that it would drop
anyway and those of the new model, and nothing else of it changes.
-/

namespace ModelRegistry

section Names

variable {names names' : Set String} {unit : String} {pathPrefix : Option String} {text : String}

theorem fileStems_mono (h : names ⊆ names') : fileStems names ⊆ fileStems names' :=
  Set.union_subset_union h (Set.image_mono h)

theorem fileStems_union : fileStems (names ∪ names') = fileStems names ∪ fileStems names' := by
  simp only [fileStems, Set.image_union]
  exact Set.union_union_union_comm ..

/-- More names make more texts imports, in every branch of the grammar. -/
theorem ModelFile.mono (h : names ⊆ names') (hfile : ModelFile names text) :
    ModelFile names' text := by
  cases hfile with
  | withExtension hext hstem => exact .withExtension hext (fileStems_mono h hstem)
  | plain hnone hstem => exact .plain hnone (fileStems_mono h hstem)

theorem ImportsSibling.mono (h : names ⊆ names')
    (himport : ImportsSibling unit names pathPrefix text) :
    ImportsSibling unit names' pathPrefix text := by
  cases himport with
  | file hpath hne hfile => exact .file hpath hne (hfile.mono h)
  | named hout hname hbare => exact .named hout (h hname) hbare
  | qualified hout hname hbare => exact .qualified hout (h hname) hbare

theorem modelFile_union :
    ModelFile (names ∪ names') text ↔ ModelFile names text ∨ ModelFile names' text := by
  constructor
  · intro hfile
    cases hfile with
    | withExtension hext hstem =>
      rw [fileStems_union] at hstem
      exact hstem.imp (.withExtension hext) (.withExtension hext)
    | plain hnone hstem =>
      rw [fileStems_union] at hstem
      exact hstem.imp (.plain hnone) (.plain hnone)
  · rintro (hfile | hfile)
    · exact hfile.mono Set.subset_union_left
    · exact hfile.mono Set.subset_union_right

/-- Which text imports a sibling is decided sibling by sibling. -/
theorem importsSibling_union :
    ImportsSibling unit (names ∪ names') pathPrefix text ↔
      ImportsSibling unit names pathPrefix text ∨ ImportsSibling unit names' pathPrefix text := by
  constructor
  · intro himport
    cases himport with
    | file hpath hne hfile =>
      exact (modelFile_union.mp hfile).imp (.file hpath hne) (.file hpath hne)
    | named hout hname hbare =>
      exact hname.imp (fun hname => .named hout hname hbare) fun hname => .named hout hname hbare
    | qualified hout hname hbare =>
      exact hname.imp (fun hname => .qualified hout hname hbare)
        fun hname => .qualified hout hname hbare
  · rintro (himport | himport)
    · exact himport.mono Set.subset_union_left
    · exact himport.mono Set.subset_union_right

end Names

/-- Were a model of the name alone in the unit, the text would import it. -/
def Options.Denotes (o : Options) (unit name text : String) : Prop :=
  ImportsSibling unit {name} o.modelImportPrefix (String.ofList (Text.trim text.toList))

/-- The place of the models of a unit when one more is inserted. -/
def Place.grown (p : Place) (name : String) : Place :=
  ⟨p.unit, p.names ++ [name]⟩

theorem Options.drops_grown {o : Options} {p : Place} {name text : String} :
    o.drops (p.grown name) text = true ↔
      o.drops p text = true ∨ o.Denotes p.unit name text := by
  cases hpolicy : o.importPolicy with
  | sameUnit =>
    have hnames : {n | n ∈ (p.grown name).names} = {n | n ∈ p.names} ∪ {name} := by
      ext n
      simp [Place.grown, or_comm]
    rw [Registry.drops_iff_importsSibling hpolicy, Registry.drops_iff_importsSibling hpolicy,
      hnames, importsSibling_union]
    rfl
  | filterAll =>
    -- Under this policy the text is dropped without the new model already.
    have hall (p : Place) : o.drops p text = true := by rw [drops, hpolicy, ImportPolicy.drops]
    exact iff_of_true (hall _) (.inl (hall p))

/-- The same model but for its imports, of which just those that denote the name are lost. -/
structure Model.Outgrown (o : Options) (unit name : String) (before after : Model) : Prop where
  same : after = { before with imports := after.imports }
  imports : ∀ text, text ∈ after.imports ↔
    text ∈ before.imports ∧ ¬ o.Denotes unit name text

/-- A sibling more takes from a model the imports that denote it. -/
theorem Model.outgrown_processed (o : Options) (p : Place) (name : String) (m : Model) :
    Outgrown o p.unit name (m.processed o p) (m.processed o (p.grown name)) where
  same := rfl
  imports text := by
    rw [mem_imports_processed, mem_imports_processed, Options.drops_grown, not_or, and_assoc]

theorem GenerationUnit.place_append (unit : String) (ms : List Model) (m : Model) :
    (GenerationUnit.mk (ms ++ [m])).place unit =
      ((GenerationUnit.mk ms).place unit).grown m.name := by
  simp only [place, Place.grown, List.map_append, List.map_cons, List.map_nil]

namespace Registry

variable {o : Options} {unit other : String} {m : Model}

theorem unit?_insert_self (r : Registry) :
    (r.insert unit m).unit? unit = some ⟨((r.unit? unit).getD {}).models ++ [m]⟩ :=
  r.units.get?_put_self _

theorem unit?_insert_of_ne (r : Registry) (h : other ≠ unit) :
    (r.insert unit m).unit? other = r.unit? other :=
  r.units.get?_put_of_ne _ h

theorem unit?_mapModels (f : Place → Model → Model) (r : Registry) (unit : String) :
    (r.mapModels f).unit? unit = (r.unit? unit).map (GenerationUnit.mapModels f unit) :=
  NameMap.get?_map _ r.units unit

theorem getD_unit?_mapModels (f : Place → Model → Model) (r : Registry) (unit : String) :
    ((r.mapModels f).unit? unit).getD {} = ((r.unit? unit).getD {}).mapModels f unit := by
  rw [unit?_mapModels]
  cases r.unit? unit <;> rfl

/-- The diagnostics of a unit are the findings of its models. -/
theorem filter_unit_diagnostics_eq_findings (r : Registry) (o : Options) (unit : String) :
    (r.runPasses o).diagnostics.filter (·.unit = unit) =
      ((r.unit? unit).getD {}).models.flatMap (Model.findings unit) := by
  rw [filter_unit_diagnostics_runPasses, membersOf_eq]
  cases r.unit? unit with
  | none => rfl
  | some g =>
    rw [Option.elim_some, Option.getD_some, List.flatMap_map]
    exact List.flatMap_congr fun m _ => m.diagnostics_treatment o (g.place unit)

/-- How a run comes out when a model is inserted before it: `s` and `report` are those of the run
without the model, `s'` and `report'` those of the run with it. -/
structure Outgrows (o : Options) (unit : String) (m : Model) (s s' : Registry)
    (report report' : Report) : Prop where
  others : ∀ other, other ≠ unit → s'.unit? other = s.unit? other
  changes_of_others : ∀ other, other ≠ unit →
    report'.changes.filter (·.unit = other) = report.changes.filter (·.unit = other)
  diagnostics_of_others : ∀ other, other ≠ unit →
    report'.diagnostics.filter (·.unit = other) = report.diagnostics.filter (·.unit = other)
  models : ∃ ms k, s'.unit? unit = some ⟨ms ++ [k]⟩ ∧ Model.Frame m k ∧
    List.Forall₂ (Model.Outgrown o unit m.name) ((s.unit? unit).getD {}).models ms
  diagnostics : report'.diagnostics.filter (·.unit = unit) =
    report.diagnostics.filter (·.unit = unit) ++ m.findings unit

/-- A model that is inserted takes from the others of its unit the imports that denote it, and has
no other influence: they come out as they are without it, and so do the models of all other units,
and its own findings come to those of the unit. -/
theorem postProcess_insert (hstrict : o.strict = false) (r : Registry) (unit : String)
    (m : Model) :
    ∃ report report', (r.postProcess o).result = .ok report ∧
      ((r.insert unit m).postProcess o).result = .ok report' ∧
      Outgrows o unit m (r.postProcess o).registry ((r.insert unit m).postProcess o).registry
        report report' := by
  have hr := r.result_postProcess_of_not_strict hstrict
  have hr' := (r.insert unit m).result_postProcess_of_not_strict hstrict
  refine ⟨_, _, hr, hr', ?_⟩
  rw [(postProcess_eq_ok hr).1, (postProcess_eq_ok hr').1]
  have hmembers (other : String) (h : other ≠ unit) :
      (r.insert unit m).membersOf other = r.membersOf other := by
    rw [membersOf_eq, membersOf_eq, unit?_insert_of_ne r h]
  exact {
    others := fun other h => by rw [unit?_mapModels, unit?_mapModels, unit?_insert_of_ne r h]
    changes_of_others := fun other h => by
      simp only [filter_unit_changes_runPasses, hmembers other h]
    diagnostics_of_others := fun other h => by
      simp only [filter_unit_diagnostics_runPasses, hmembers other h]
    models := by
      let p := ((r.unit? unit).getD {}).place unit
      refine ⟨((r.unit? unit).getD {}).models.map (Model.processed o (p.grown m.name)),
        m.processed o (p.grown m.name), ?_, m.frame_processed o _, ?_⟩
      · rw [unit?_mapModels, unit?_insert_self, Option.map_some, GenerationUnit.mapModels,
          GenerationUnit.place_append, List.map_append]
        rfl
      · rw [getD_unit?_mapModels, GenerationUnit.mapModels, List.forall₂_map_left_iff,
          List.forall₂_map_right_iff, List.forall₂_same]
        exact fun k _ => k.outgrown_processed o p m.name
    diagnostics := by
      simp only [filter_unit_diagnostics_eq_findings, unit?_insert_self, Option.getD_some,
        List.flatMap_append, List.flatMap_singleton] }

/-- A dog among the owners: the import of a dog is lost. -/
theorem postProcess_insert_petshop :
    let dog : Model := { name := "Dog" }
    let kennel := petshop.insert "owners" dog
    ({} : Options).strict = false ∧
      (∃ report report', (petshop.postProcess {}).result = .ok report ∧
        (kennel.postProcess {}).result = .ok report' ∧
        Outgrows {} "owners" dog (petshop.postProcess {}).registry
          (kennel.postProcess {}).registry report report') ∧
      ((petshop.postProcess {}).registry.model? "owners" "Owner").map (·.imports.names) =
        some ["Dog"] ∧
      ((kennel.postProcess {}).registry.model? "owners" "Owner").map (·.imports.names) =
        some [] :=
  ⟨rfl, postProcess_insert rfl petshop "owners" _, rfl, rfl⟩

end Registry

end ModelRegistry
