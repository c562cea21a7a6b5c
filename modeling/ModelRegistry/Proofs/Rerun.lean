import ModelRegistry.Proofs.Findings
import ModelRegistry.Proofs.Frame
import ModelRegistry.Proofs.Schedule

/-!
# Running again

What the check reads of a model is its name, its bases, its discriminator and the names of its
properties, and a run keeps all four: it neither covers up a defect nor makes one. So a second run
passes the check that the first has passed. It finds nothing to change, since processing a model
twice is processing it once, and has the same findings to report.
-/

namespace ModelRegistry

namespace Model

/-- Whether a property of a name is declared is told by the names of the properties. -/
theorem isSome_property?_eq_contains (m : Model) (name : String) :
    (m.property? name).isSome = (m.properties.map (·.name)).contains name := by
  rw [Bool.eq_iff_iff, property?, List.find?_isSome, List.contains_iff_mem, List.mem_map]
  simp only [decide_eq_true_eq]

theorem isSome_property?_processed (o : Options) (p : Place) (m : Model) (name : String) :
    ((m.processed o p).property? name).isSome = (m.property? name).isSome := by
  have hnames : (m.processed o p).properties.map (·.name) = m.properties.map (·.name) :=
    requiredProperties_eq_map _ _ fun _ => rfl
  rw [isSome_property?_eq_contains, isSome_property?_eq_contains, hnames]

/-- A run keeps everything that the check reads of a model. -/
theorem check_processed (o : Options) (p : Place) (unit : String) (m : Model)
    (features : FeatureSet) : (m.processed o p).check unit features = m.check unit features := by
  have hcomposition :
      (m.processed o p).compositionIssues features = m.compositionIssues features := rfl
  have hdiscriminator :
      (m.processed o p).discriminatorIssues features = m.discriminatorIssues features := by
    have hkept : (m.processed o p).discriminator = m.discriminator := rfl
    simp only [discriminatorIssues, hkept, isSome_property?_processed]
  have hname : (m.processed o p).name = m.name := rfl
  rw [check, check, hcomposition, hdiscriminator, hname]

/-- Processing a model twice is processing it once. -/
theorem processed_processed (o : Options) (p : Place) (m : Model) :
    (m.processed o p).processed o p = m.processed o p := by
  have himports : (m.withoutImports (o.drops p)).withoutImports (o.drops p) =
      m.withoutImports (o.drops p) := by
    simp only [withoutImports_withoutImports, Bool.or_self]
  calc (m.processed o p).processed o p
      = ((m.withoutImports (o.drops p)).withoutImports (o.drops p)).resolved.resolved := rfl
    _ = m.processed o p := by rw [resolved_resolved, himports, processed]

end Model

namespace Registry

variable {r : Registry} {o : Options} {report : Report}

/-- A run neither covers up a defect nor makes one. -/
theorem check_mapModels_processed (r : Registry) (o : Options) (features : FeatureSet) :
    (r.mapModels (Model.processed o)).check features = r.check features := by
  simp only [check, models_eq_map_members, members_mapModels (Model.keepsNames_processed o),
    List.flatMap_map, Model.check_processed]

theorem mapModels_processed_processed (r : Registry) (o : Options) :
    (r.mapModels (Model.processed o)).mapModels (Model.processed o) =
      r.mapModels (Model.processed o) := by
  rw [mapModels_mapModels (Model.keepsNames_processed o)]
  exact mapModels_congr fun e _ => e.2.processed_processed o e.1

theorem diagnostics_runPasses_eq_check (r : Registry) (o : Options) (features : FeatureSet) :
    (r.runPasses o).diagnostics = (r.check features).filterMap Inconsistency.diagnostic? := by
  rw [diagnostics_runPasses_eq_findings, filterMap_check]

/-- What stops a run is an issue of the check. -/
theorem obstacle?_congr {s : Registry} (h : ∀ features, s.check features = r.check features) :
    s.obstacle? o = r.obstacle? o := by
  rw [obstacle?, obstacle?, h]

/-- A second run under the same options finds nothing to change and the same to report. -/
theorem postProcess_postProcess (h : (r.postProcess o).result = .ok report) :
    ((r.postProcess o).registry.postProcess o).registry = (r.postProcess o).registry ∧
      ((r.postProcess o).registry.postProcess o).result = .ok ⟨[], report.diagnostics⟩ := by
  have hnone := obstacle?_eq_none_of_ok h
  obtain ⟨hs, rfl⟩ := postProcess_eq_ok h
  rw [hs]
  have hcheck := r.check_mapModels_processed o
  have hagain : (r.mapModels (Model.processed o)).obstacle? o = none := by
    rw [obstacle?_congr hcheck, hnone]
  have hchanges : ((r.mapModels (Model.processed o)).runPasses o).changes = [] :=
    (changes_runPasses_eq_nil _ o).mpr (r.mapModels_processed_processed o)
  have hdiagnostics : ((r.mapModels (Model.processed o)).runPasses o).diagnostics =
      (r.runPasses o).diagnostics := by
    rw [diagnostics_runPasses_eq_check _ o .empty, hcheck, ← diagnostics_runPasses_eq_check]
  constructor
  · rw [postProcess_of_no_obstacle hagain]
    exact (value_runPasses _ o).trans (r.mapModels_processed_processed o)
  · rw [postProcess_of_no_obstacle hagain]
    simp only [hchanges, hdiagnostics]

/-- A run that succeeds leaves the issues of the check as they were, for any features. A second run
under the same options succeeds too, changes nothing and reports just what was found before. -/
theorem postProcess_settles (h : (r.postProcess o).result = .ok report) :
    (∀ features, (r.postProcess o).registry.check features = r.check features) ∧
      ((r.postProcess o).registry.postProcess o).registry = (r.postProcess o).registry ∧
      ((r.postProcess o).registry.postProcess o).result = .ok ⟨[], report.diagnostics⟩ := by
  refine ⟨?_, postProcess_postProcess h⟩
  rw [(postProcess_eq_ok h).1]
  exact r.check_mapModels_processed o

theorem postProcess_settles_petshop :
    let settled := (petshop.postProcess {}).registry
    (petshop.postProcess {}).result = .ok petshopReport ∧
      petshopReport.changes.length = 8 ∧ petshopReport.diagnostics.length = 3 ∧
      settled.check .empty = petshop.check .empty ∧
      (settled.postProcess {}).registry = settled ∧
      (settled.postProcess {}).result = .ok ⟨[], petshopReport.diagnostics⟩ := by
  have hok : (petshop.postProcess {}).result = .ok petshopReport := rfl
  obtain ⟨hcheck, hregistry, hresult⟩ := postProcess_settles hok
  exact ⟨hok, rfl, rfl, hcheck .empty, hregistry, hresult⟩

end Registry

end ModelRegistry
