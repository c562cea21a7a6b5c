import ModelRegistry.Proofs.Findings

/-!
# Strict runs

A strict run is the run of the same options without strictness, behind a check: it fails if the
check finds anything, before any model has been visited, and otherwise makes of the registry and
reports what the run would without the check. The passes look at the import policy and the path
prefix alone, so neither features nor the serialization library have a say in what they do.
-/

namespace ModelRegistry

namespace Registry

variable {r : Registry} {o o' : Options}

theorem result_eq_error_iff {issue : Inconsistency} :
    (r.postProcess o).result = .error issue ↔ r.obstacle? o = some issue := by
  cases h : r.obstacle? o with
  | none => rw [postProcess_of_no_obstacle h]; simp
  | some first => rw [postProcess_of_obstacle h]; simp

/-- What the passes do depends on the import policy and the path prefix alone. -/
theorem runPasses_congr (r : Registry) (hpolicy : o.importPolicy = o'.importPolicy)
    (hpath : o.modelImportPrefix = o'.modelImportPrefix) : r.runPasses o = r.runPasses o' := by
  have hunit : GenerationUnit.filterImports o = GenerationUnit.filterImports o' := by
    funext unit g
    rw [GenerationUnit.filterImports, GenerationUnit.filterImports, hpolicy, hpath]
  rw [runPasses, runPasses, filterImports, filterImports, hpolicy, hunit]

/-- Two runs without an obstacle are one run if policy and prefix agree. -/
theorem postProcess_congr (h : r.obstacle? o = none) (h' : r.obstacle? o' = none)
    (hpolicy : o.importPolicy = o'.importPolicy)
    (hpath : o.modelImportPrefix = o'.modelImportPrefix) :
    r.postProcess o = r.postProcess o' := by
  rw [postProcess_of_no_obstacle h, postProcess_of_no_obstacle h',
    r.runPasses_congr hpolicy hpath]

theorem diagnostics_runPasses_of_check {features : FeatureSet} (h : r.check features = []) :
    (r.runPasses o).diagnostics = [] := by
  rw [diagnostics_runPasses_eq_findings, ← r.filterMap_check features, h, List.filterMap_nil]

/-- A strict run fails just if the check finds anything, with the first of its issues and with the
registry as it was. If it succeeds there is nothing to diagnose, and it does, in registry, report
and events, what the run does without strictness, whatever the features and the library then. A run
that is not strict never fails. -/
theorem postProcess_strict (r : Registry) (o : Options) :
    (o.strict = true →
      ((∃ issue, (r.postProcess o).result = .error issue) ↔ r.check o.features ≠ []) ∧
      (∀ issue, (r.postProcess o).result = .error issue →
        (r.check o.features).head? = some issue ∧ (r.postProcess o).registry = r) ∧
      ∀ report, (r.postProcess o).result = .ok report →
        report.diagnostics = [] ∧
        ∀ features library, r.postProcess { o with
          strict := false, features := features, serializationLibrary := library } =
            r.postProcess o) ∧
    (o.strict = false → ∃ report, (r.postProcess o).result = .ok report) := by
  refine ⟨fun hstrict => ⟨?_, fun issue h => ?_, fun report h => ?_⟩, fun hstrict => ?_⟩
  · simp only [result_eq_error_iff, obstacle?_of_strict r hstrict]
    rw [← Option.ne_none_iff_exists', ne_eq, List.head?_eq_none_iff]
  · rw [result_eq_error_iff] at h
    rw [postProcess_of_obstacle h, ← obstacle?_of_strict r hstrict]
    exact ⟨h, rfl⟩
  · have hnone := obstacle?_eq_none_of_ok h
    constructor
    · have hcheck : r.check o.features = [] := by
        rwa [obstacle?_of_strict r hstrict, List.head?_eq_none_iff] at hnone
      rw [(postProcess_eq_ok h).2]
      exact diagnostics_runPasses_of_check hcheck
    · intro features library
      exact postProcess_congr (obstacle?_of_not_strict r rfl) hnone rfl rfl
  · exact ⟨_, r.result_postProcess_of_not_strict hstrict⟩

end Registry

/-- A strict run accepts this registry if the generator supports all features, and stops at the
composition if it supports none. -/
def kennel : Registry :=
  Registry.empty.insert "pets" {
    name := "Dog"
    properties := [{ name := "kind" }]
    imports := .ofList ["Dog", "dart:core"]
    composedBases := ["Animal"]
    discriminator := some ⟨"kind"⟩ }

theorem postProcess_strict_kennel :
    let rejecting : Options := { strict := true, features := .empty }
    let accepting : Options := { strict := true }
    (kennel.check .empty).head? = some ⟨"pets", "Dog", .unsupportedFeature .allOf⟩ ∧
      (kennel.postProcess rejecting).registry = kennel ∧
      (∃ report, (kennel.postProcess accepting).result = .ok report ∧ report.diagnostics = []) ∧
      kennel.postProcess { features := .empty } = kennel.postProcess accepting := by
  intro rejecting accepting
  obtain ⟨-, hfail, -⟩ := (kennel.postProcess_strict rejecting).1 rfl
  obtain ⟨-, -, hsucceed⟩ := (kennel.postProcess_strict accepting).1 rfl
  obtain ⟨hfirst, hregistry⟩ := hfail ⟨"pets", "Dog", .unsupportedFeature .allOf⟩ rfl
  obtain ⟨hdiagnostics, htransparent⟩ := hsucceed _ rfl
  exact ⟨hfirst, hregistry, ⟨_, rfl, hdiagnostics⟩, htransparent .empty .native⟩

end ModelRegistry
