import ModelRegistry.Proofs.Strictness

/-!
# Supporting more features

The features that a generator supports decide only which of the issues about features a check leaves
out. The check with no features lists every issue, and any other check is what remains of this list,
in the same order. So a check with more features lists no other issues, and a strict run that
succeeds does the same with more features.
-/

namespace ModelRegistry

namespace FeatureSet

instance : HasSubset FeatureSet := ⟨fun s t => ∀ f, s.has f = true → t.has f = true⟩

instance (s t : FeatureSet) : Decidable (s ⊆ t) :=
  decidable_of_iff (∀ f ∈ Feature.all, s.has f = true → t.has f = true)
    ⟨fun h f => h f f.mem_all, fun h f _ => h f⟩

end FeatureSet

namespace InconsistencyKind

/-- Whether an issue is about one of these features, and so is none where they are supported. -/
def isSilenced (features : FeatureSet) : InconsistencyKind → Bool
  | unsupportedFeature f => features.has f
  | multipleBases _ | discriminatorPropertyMissing _ => false

theorem isSilenced_of_subset {s t : FeatureSet} (h : s ⊆ t) {what : InconsistencyKind}
    (hwhat : what.isSilenced s = true) : what.isSilenced t = true := by
  cases what with
  | unsupportedFeature f => exact h f hwhat
  | multipleBases bases => exact hwhat
  | discriminatorPropertyMissing property => exact hwhat

end InconsistencyKind

namespace Model

theorem compositionIssues_eq_filter (m : Model) (features : FeatureSet) :
    m.compositionIssues features =
      (m.compositionIssues .empty).filter (!·.isSilenced features) := by
  rw [compositionIssues, compositionIssues]
  cases m.composedBases with
  | nil => rfl
  | cons base dropped =>
    cases hf : features.has .allOf <;> cases dropped <;>
      simp [FeatureSet.empty, InconsistencyKind.isSilenced, hf]

theorem discriminatorIssues_eq_filter (m : Model) (features : FeatureSet) :
    m.discriminatorIssues features =
      (m.discriminatorIssues .empty).filter (!·.isSilenced features) := by
  rw [discriminatorIssues, discriminatorIssues]
  cases m.discriminator with
  | none => rfl
  | some d =>
    cases hf : features.has .polymorphism <;> cases hp : (m.property? d.propertyName).isSome <;>
      simp [FeatureSet.empty, InconsistencyKind.isSilenced, hf, hp]

theorem check_eq_filter (unit : String) (m : Model) (features : FeatureSet) :
    m.check unit features = (m.check unit .empty).filter (!·.what.isSilenced features) := by
  rw [check, check, m.compositionIssues_eq_filter features,
    m.discriminatorIssues_eq_filter features, ← List.filter_append, List.filter_map]
  rfl

end Model

namespace Registry

variable {r : Registry} {o : Options} {features features' : FeatureSet}

/-- Every check is the check without features, less the issues about the features supported. -/
theorem check_eq_filter (r : Registry) (features : FeatureSet) :
    r.check features = (r.check .empty).filter (!·.what.isSilenced features) := by
  rw [check, check, List.filter_flatMap]
  exact List.flatMap_congr fun e _ => e.2.check_eq_filter e.1 features

theorem check_eq_filter_of_subset (r : Registry) (h : features ⊆ features') :
    r.check features' = (r.check features).filter (!·.what.isSilenced features') := by
  have habsorb (i : Inconsistency) :
      (!i.what.isSilenced features' && !i.what.isSilenced features) =
        !i.what.isSilenced features' := by
    cases hsilenced : i.what.isSilenced features with
    | false => rw [Bool.not_false, Bool.and_true]
    | true => rw [InconsistencyKind.isSilenced_of_subset h hsilenced]; rfl
  rw [r.check_eq_filter features', r.check_eq_filter features, List.filter_filter]
  simp only [habsorb]

/-- Nothing stops a run that has not been stopped with fewer features. -/
theorem obstacle?_eq_none_of_subset (h : features ⊆ features')
    (hnone : r.obstacle? { o with features } = none) :
    r.obstacle? { o with features := features' } = none := by
  by_cases hstrict : o.strict = true
  · have hfirst (supported : FeatureSet) :
        r.obstacle? { o with features := supported } = (r.check supported).head? :=
      r.obstacle?_of_strict hstrict
    rw [hfirst, List.head?_eq_none_iff] at hnone
    rw [hfirst, r.check_eq_filter_of_subset h, hnone, List.filter_nil, List.head?_nil]
  · exact r.obstacle?_of_not_strict (Bool.eq_false_iff.mpr hstrict)

/-- Supporting more features deletes from a check just the issues about them. A run that succeeds, be
it strict or not, does the same with more features; and one that fails would fail with fewer. -/
theorem check_antitone (h : features ⊆ features') (r : Registry) (o : Options) :
    r.check features' = (r.check features).filter (!·.what.isSilenced features') ∧
    (∀ report, (r.postProcess { o with features }).result = .ok report →
      r.postProcess { o with features := features' } = r.postProcess { o with features }) ∧
    ∀ issue, (r.postProcess { o with features := features' }).result = .error issue →
      ∃ first, (r.postProcess { o with features }).result = .error first := by
  refine ⟨r.check_eq_filter_of_subset h, fun report hok => ?_, fun issue herror => ?_⟩
  · have hnone := obstacle?_eq_none_of_ok hok
    exact postProcess_congr (obstacle?_eq_none_of_subset h hnone) hnone rfl rfl
  · rw [result_eq_error_iff] at herror
    simp only [result_eq_error_iff]
    refine Option.ne_none_iff_exists'.mp fun hnone => ?_
    rw [obstacle?_eq_none_of_subset h hnone] at herror
    cases herror

/-- Without support for compositions the kennel is rejected, with or without that for polymorphism;
as soon as both are supported, nothing more is of any effect. -/
theorem check_antitone_kennel :
    let run (features : FeatureSet) := kennel.postProcess { strict := true, features }
    kennel.check .empty = [⟨"pets", "Dog", .unsupportedFeature .allOf⟩,
      ⟨"pets", "Dog", .unsupportedFeature .polymorphism⟩] ∧
    kennel.check (.ofList [.polymorphism]) = [⟨"pets", "Dog", .unsupportedFeature .allOf⟩] ∧
    (∃ first, (run .empty).result = .error first) ∧
    run .clientDefaults = run (.ofList [.allOf, .polymorphism]) := by
  intro run
  have hmore : FeatureSet.empty ⊆ .ofList [.polymorphism] := by decide
  have hall : FeatureSet.ofList [.allOf, .polymorphism] ⊆ .clientDefaults := by decide
  obtain ⟨hcheck, -, hfails⟩ := check_antitone hmore kennel { strict := true }
  obtain ⟨-, hsame, -⟩ := check_antitone hall kennel { strict := true }
  exact ⟨rfl, hcheck, hfails ⟨"pets", "Dog", .unsupportedFeature .allOf⟩ rfl, hsame _ rfl⟩

end Registry

end ModelRegistry
