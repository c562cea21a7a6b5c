import ModelRegistry.Proofs.Difference

/-!
# Findings of the check and of the passes

The check of a registry and the passes look for the same two defects of a model: bases that cannot
all be inherited from, and a discriminator without its property. `findings` lists those of one
model. Unsupported features apart, the issues of the check and the diagnostics of a run are both
these findings, model by model, although the run looks at the models after it has filtered their
imports.
-/

namespace ModelRegistry

/-- The finding of the passes that an issue of the check stands for. -/
def InconsistencyKind.finding? : InconsistencyKind → Option DiagnosticKind
  | discriminatorPropertyMissing property => some (.danglingDiscriminator property)
  | multipleBases bases => some (.basesDropped bases.tail)
  | unsupportedFeature _ => none

def Inconsistency.diagnostic? (i : Inconsistency) : Option Diagnostic :=
  i.what.finding?.map fun what => ⟨i.unit, i.model, what⟩

def DiagnosticKind.ofBases : DiagnosticKind → Bool
  | basesDropped _ => true
  | danglingDiscriminator _ => false

namespace Model

def compositionFindings (m : Model) : List DiagnosticKind :=
  if 1 < m.composedBases.length then [.basesDropped m.composedBases.tail] else []

def discriminatorFindings (m : Model) : List DiagnosticKind :=
  match m.discriminator with
  | none => []
  | some d =>
    if (m.property? d.propertyName).isSome then [] else [.danglingDiscriminator d.propertyName]

def findings (unit : String) (m : Model) : List Diagnostic :=
  (m.compositionFindings ++ m.discriminatorFindings).map fun what => ⟨unit, m.name, what⟩

theorem filterMap_compositionIssues (m : Model) (features : FeatureSet) :
    (m.compositionIssues features).filterMap InconsistencyKind.finding? =
      m.compositionFindings := by
  rw [compositionIssues, compositionFindings]
  cases m.composedBases with
  | nil => rfl
  | cons base dropped => cases features.has .allOf <;> cases dropped <;> rfl

theorem filterMap_discriminatorIssues (m : Model) (features : FeatureSet) :
    (m.discriminatorIssues features).filterMap InconsistencyKind.finding? =
      m.discriminatorFindings := by
  rw [discriminatorIssues, discriminatorFindings]
  cases m.discriminator with
  | none => rfl
  | some d =>
    dsimp only
    cases (m.property? d.propertyName).isSome <;> cases features.has .polymorphism <;> rfl

/-- Whatever the features, the check finds the findings of a model. -/
theorem filterMap_check (unit : String) (m : Model) (features : FeatureSet) :
    (m.check unit features).filterMap Inconsistency.diagnostic? = m.findings unit := by
  rw [check, findings, ← m.filterMap_compositionIssues features,
    ← m.filterMap_discriminatorIssues features, ← List.filterMap_append, List.filterMap_map,
    List.map_filterMap]
  rfl

theorem diagnostics_assignParent (unit : String) (m : Model) :
    (m.assignParent unit).diagnostics =
      m.compositionFindings.map fun what => ⟨unit, m.name, what⟩ := by
  obtain ⟨name, properties, imports, bases, parent, discriminator⟩ := m
  cases bases with
  | nil => rfl
  | cons base dropped =>
    have hinherit (m : Model) : (m.inherit unit base).diagnostics = [] := by
      rw [inherit]
      split <;> rfl
    have hname (m : Model) : (m.inherit unit base).value.name = m.name := by
      rw [inherit]
      split <;> rfl
    cases dropped with
    | nil => simp [assignParent, hinherit, reportDropped, compositionFindings]
    | cons base' dropped =>
      simp [assignParent, hinherit, hname, reportDropped, compositionFindings, Note.diagnostic?]

theorem diagnostics_requireDiscriminator (unit : String) (m : Model) :
    (m.requireDiscriminator unit).diagnostics =
      m.discriminatorFindings.map fun what => ⟨unit, m.name, what⟩ := by
  rw [requireDiscriminator, discriminatorFindings]
  cases m.discriminator with
  | none => rfl
  | some d =>
    cases hp : m.property? d.propertyName with
    | none => simp [hp, Note.diagnostic?]
    | some p => cases hreq : p.required <;> simp [hp, hreq, Note.diagnostic?]

/-- Resolving a model reports its findings. -/
theorem diagnostics_resolve (unit : String) (m : Model) :
    (m.resolve unit).diagnostics = m.findings unit := by
  rw [resolve, Logged.diagnostics_bind, diagnostics_assignParent,
    diagnostics_requireDiscriminator, value_assignParent, findings, List.map_append]
  rfl

theorem filter_ofBases_findings (unit : String) (m : Model) :
    (m.findings unit).filter (·.what.ofBases) =
      if 1 < m.composedBases.length then [⟨unit, m.name, .basesDropped m.composedBases.tail⟩]
      else [] := by
  have hdangling : (m.discriminatorFindings.map fun what =>
      (⟨unit, m.name, what⟩ : Diagnostic)).filter (·.what.ofBases) = [] := by
    rw [discriminatorFindings]
    split
    · rfl
    · split <;> rfl
  rw [findings, List.map_append, List.filter_append, hdangling, List.append_nil,
    compositionFindings]
  split <;> rfl

end Model

namespace Registry

theorem filterMap_check (r : Registry) (features : FeatureSet) :
    (r.check features).filterMap Inconsistency.diagnostic? =
      r.members.flatMap fun e => e.2.findings e.1.unit := by
  simp only [check, models_eq_map_members, List.flatMap_map, List.filterMap_flatMap,
    Model.filterMap_check]

theorem diagnostics_runPasses_eq_findings (r : Registry) (o : Options) :
    (r.runPasses o).diagnostics = r.members.flatMap fun e => e.2.findings e.1.unit := by
  simp only [diagnostics_runPasses, Model.diagnostics_resolve]
  rfl

theorem filter_ofBases_diagnostics (r : Registry) (o : Options) :
    (r.runPasses o).diagnostics.filter (·.what.ofBases) =
      ((r.transitions (r.mapModels (Model.processed o))).filter fun t =>
        1 < t.before.composedBases.length).map fun t =>
          ⟨t.unit, t.before.name, .basesDropped t.before.composedBases.tail⟩ := by
  have hsingle {α β : Type} (q : α → Prop) [DecidablePred q] (g : α → β) (l : List α) :
      (l.flatMap fun a => if q a then [g a] else []) = (l.filter fun a => q a).map g := by
    induction l with
    | nil => rfl
    | cons a l ih => by_cases ha : q a <;> simp [ha, ih]
  rw [diagnostics_runPasses_eq_findings, transitions_mapModels, List.filter_flatMap]
  simp only [Model.filter_ofBases_findings, hsingle, List.filter_map, List.map_map]
  rfl

/-- The check and a run that succeeds see the same defects, in the same order. Of the bases of a
model the first becomes its parent and all others are reported as dropped. -/
theorem postProcess_diagnostics_eq_check {r : Registry} {o : Options} {report : Report}
    (h : (r.postProcess o).result = .ok report) (features : FeatureSet) :
    (r.check features).filterMap Inconsistency.diagnostic? = report.diagnostics ∧
    (report.diagnostics.filter (·.what.ofBases) =
      ((r.transitions (r.postProcess o).registry).filter fun t =>
        1 < t.before.composedBases.length).map fun t =>
          ⟨t.unit, t.before.name, .basesDropped t.before.composedBases.tail⟩) ∧
    ∀ t ∈ r.transitions (r.postProcess o).registry, 1 < t.before.composedBases.length →
      ∃ parent, t.after.parent = some parent ∧
        parent :: t.before.composedBases.tail = t.before.composedBases := by
  obtain ⟨hs, rfl⟩ := postProcess_eq_ok h
  rw [hs]
  refine ⟨?_, r.filter_ofBases_diagnostics o, fun t ht hbases => ?_⟩
  · rw [filterMap_check, diagnostics_runPasses_eq_findings]
  · rw [transitions_mapModels] at ht
    obtain ⟨⟨p, m⟩, -, rfl⟩ := List.mem_map.mp ht
    cases hm : m.composedBases with
    | nil => simp [hm] at hbases
    | cons base dropped =>
      have hparent : (m.processed o p).parent = some base := congrArg (·.head?.or m.parent) hm
      exact ⟨base, hparent, rfl⟩

theorem postProcess_diagnostics_eq_check_petshop :
    (petshop.postProcess {}).result = .ok petshopReport ∧
      (petshop.check .empty).filterMap Inconsistency.diagnostic? = petshopReport.diagnostics ∧
      ∃ t ∈ petshop.transitions (petshop.postProcess {}).registry,
        t.before.composedBases = ["Animal", "Named"] ∧ ∃ parent, t.after.parent = some parent ∧
          parent :: t.before.composedBases.tail = t.before.composedBases := by
  have hok : (petshop.postProcess {}).result = .ok petshopReport := rfl
  obtain ⟨hcheck, -, hbases⟩ := postProcess_diagnostics_eq_check hok .empty
  have hdog := List.getElem_mem (l := petshop.transitions (petshop.postProcess {}).registry)
    (n := 1) (by decide)
  exact ⟨hok, hcheck, _, hdog, rfl, hbases _ hdog (by decide)⟩

end Registry

end ModelRegistry
