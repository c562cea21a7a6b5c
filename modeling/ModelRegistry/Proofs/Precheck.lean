import ModelRegistry.Proofs.Warnings

/-!
# Checking before processing

The check of a registry says how a strict run on it will end, and what a run that is not strict will
warn of. The check is made with the features of a client, a run with those that its settings give,
which are the same; so no issue is about a feature.
-/

namespace ModelRegistry

open Json

/-- Where every member has an image, a list is related to its images one by one. -/
theorem forall₂_filterMap {α β : Type} {R : α → β → Prop} {f : α → Option β} {as : List α}
    (h : ∀ a ∈ as, ∃ b, f a = some b ∧ R a b) : List.Forall₂ R as (as.filterMap f) := by
  induction as with
  | nil => exact .nil
  | cons a as ih =>
    obtain ⟨⟨b, hb, hrelated⟩, hrest⟩ := List.forall_mem_cons.mp h
    rw [List.filterMap_cons_some hb]
    exact .cons hrelated (ih hrest)

/-- An issue of the check and a diagnostic of a run that are about one defect of one model. -/
inductive SameDefect : Inconsistency → Diagnostic → Prop
  | bases (unit model base : String) (dropped : List String) :
    SameDefect ⟨unit, model, .multipleBases (base :: dropped)⟩ ⟨unit, model, .basesDropped dropped⟩
  | discriminator (unit model property : String) :
    SameDefect ⟨unit, model, .discriminatorPropertyMissing property⟩
      ⟨unit, model, .danglingDiscriminator property⟩

/-- With the features of a client every issue is a defect that a run reports. -/
theorem Model.sameDefect_of_mem_check {unit : String} {m : Model} {i : Inconsistency}
    (h : i ∈ m.check unit .clientDefaults) : ∃ d, i.diagnostic? = some d ∧ SameDefect i d := by
  obtain ⟨what, hwhat, rfl⟩ := List.mem_map.mp h
  rcases List.mem_append.mp hwhat with hwhat | hwhat
  · rw [compositionIssues] at hwhat
    cases hbases : m.composedBases with
    | nil => simp [hbases] at hwhat
    | cons base dropped =>
      have hbasesIssue : what = .multipleBases (base :: dropped) := by
        cases dropped <;> simp_all [FeatureSet.clientDefaults]
      subst hbasesIssue
      exact ⟨_, rfl, .bases unit m.name base dropped⟩
  · rw [discriminatorIssues] at hwhat
    cases hdiscriminator : m.discriminator with
    | none => simp [hdiscriminator] at hwhat
    | some d =>
      have hmissing : what = .discriminatorPropertyMissing d.propertyName := by
        cases hproperty : (m.property? d.propertyName).isSome <;>
          simp_all [FeatureSet.clientDefaults]
      subst hmissing
      exact ⟨_, rfl, .discriminator unit m.name d.propertyName⟩

namespace Registry

/-- The issues of a check and the diagnostics of a run are the same defects, one by one. -/
theorem check_sameDefect_diagnostics (r : Registry) (o : Options) :
    List.Forall₂ SameDefect (r.check .clientDefaults) (r.runPasses o).diagnostics := by
  rw [diagnostics_runPasses_eq_findings, ← r.filterMap_check .clientDefaults]
  refine forall₂_filterMap fun i hi => ?_
  obtain ⟨e, -, he⟩ := List.mem_flatMap.mp hi
  exact Model.sameDefect_of_mem_check he

end Registry

namespace CommandLine

variable {t : FileTree} {path : String} {r : Registry}

/-- Without properties nothing but the registry has to be read. -/
theorem ProcessArguments.exists_accepts (h : t.Holds path Registry.decoder r) (strict : Bool) :
    ∃ settings, Accepts { input := path, strict } t r .empty settings := by
  have hsettings : ∃ settings, Settings.ofProperties .empty = .ok settings := ⟨_, rfl⟩
  obtain ⟨settings, hsettings⟩ := hsettings
  exact ⟨settings, h, rfl, hsettings⟩

/-- A strict run without further arguments ends as the check does. -/
theorem execute_process_strict (h : t.Holds path Registry.decoder r) (verbose : Bool) :
    let issues := r.check .clientDefaults
    let x := (Command.process { input := path, strict := true }).execute verbose t
    x.exit = (if issues = [] then 0 else 1) ∧
      ∀ first ∈ issues.head?, x.stderr = lineText [CommandError.text
        ⟨"Post-processing failed", some (Failure.inconsistent first).message⟩] := by
  intro issues x
  obtain ⟨settings, haccepts⟩ := ProcessArguments.exists_accepts h true
  have hobstacle := r.obstacle?_of_strict (o := { strict := true }) rfl
  cases hissues : issues with
  | nil =>
    have hresult := Registry.postProcess_of_no_obstacle
      (hobstacle.trans (congrArg List.head? hissues))
    have hx := execute_process_of_ok haccepts (congrArg Outcome.result hresult) verbose
    simp only [x, hx]
    exact ⟨rfl, fun first hfirst => absurd hfirst (by simp)⟩
  | cons first rest =>
    have hresult := Registry.postProcess_of_obstacle
      (hobstacle.trans (congrArg List.head? hissues))
    have hx := execute_process_of_error haccepts (congrArg Outcome.result hresult) verbose
    simp only [x, hx]
    refine ⟨rfl, fun i hi => ?_⟩
    rw [← Option.some.inj hi]

theorem execute_process_lenient (h : t.Holds path Registry.decoder r) (verbose : Bool) :
    let x := (Command.process { input := path }).execute verbose t
    ∃ report, (r.postProcess {}).result = .ok report ∧ x.exit = 0 ∧
      x.stderr = lineText (report.diagnostics.map warning) ∧ Warns x.stderr report.diagnostics ∧
      List.Forall₂ SameDefect (r.check .clientDefaults) report.diagnostics := by
  intro x
  obtain ⟨settings, haccepts⟩ := ProcessArguments.exists_accepts h false
  have hresult : (r.postProcess {}).result = .ok ⟨_, _⟩ := r.result_postProcess_of_not_strict rfl
  have hx := execute_process_of_ok haccepts hresult verbose
  have hexit : x.exit = 0 := by
    simp only [x, hx]
    rfl
  have hstderr : x.stderr = lineText ((r.runPasses {}).diagnostics.map warning) := by
    simp only [x, hx]
    rfl
  exact ⟨_, hresult, hexit, hstderr, hstderr ▸ warns_lineText _, r.check_sameDefect_diagnostics {}⟩

/-- The commands agree, whatever is in the file. If it is no registry, all of them fail. Otherwise
the check succeeds just if a strict run does, and names first the issue at which that run stops; and
its issues are the defects that a run warns of when it is not strict. -/
theorem check_agrees_with_process {checkArgs processArgs strictArgs : List String}
    (hcheck : Asks checkArgs (.check path))
    (hprocess : Asks processArgs (.process { input := path }))
    (hstrict : Asks strictArgs (.process { input := path, strict := true })) :
    let checked := execute checkArgs t
    let processed := execute processArgs t
    let strict := execute strictArgs t
    ((¬∃ r, t.Holds path Registry.decoder r) →
      checked.exit = 1 ∧ processed.exit = 1 ∧ strict.exit = 1) ∧
    ∀ r, t.Holds path Registry.decoder r →
      let issues := r.check .clientDefaults
      checked.stderr = lineText (issues.map (·.message) ++ [verdict issues]) ∧
      (checked.exit = 0 ↔ strict.exit = 0) ∧
      (checked.exit = 0 ↔ issues = []) ∧
      (∀ first ∈ issues.head?, checked.exit = 1 ∧ strict.exit = 1 ∧
        strict.stderr = lineText [CommandError.text
          ⟨"Post-processing failed", some (Failure.inconsistent first).message⟩]) ∧
      ∃ report, (r.postProcess {}).result = .ok report ∧ processed.exit = 0 ∧
        processed.stderr = lineText (report.diagnostics.map warning) ∧
        Warns processed.stderr report.diagnostics ∧
        List.Forall₂ SameDefect issues report.diagnostics := by
  intro checked processed strict
  obtain ⟨v₁, hchecked⟩ := hcheck.execute_eq t
  obtain ⟨v₂, hprocessed⟩ := hprocess.execute_eq t
  obtain ⟨v₃, hstrict⟩ := hstrict.execute_eq t
  simp only [checked, processed, strict, hchecked, hprocessed, hstrict]
  constructor
  · intro hnot
    have hrefused (s : Bool) : ¬∃ r ps settings,
        ProcessArguments.Accepts { input := path, strict := s } t r ps settings :=
      fun ⟨r, _, _, haccepts⟩ => hnot ⟨r, haccepts.registry⟩
    obtain ⟨_, hx₁⟩ := execute_check_of_not_holds hnot v₁
    obtain ⟨_, -, hx₂⟩ := execute_process_of_not_accepts (hrefused false) v₂
    obtain ⟨_, -, hx₃⟩ := execute_process_of_not_accepts (hrefused true) v₃
    rw [hx₁, hx₂, hx₃]
    exact ⟨rfl, rfl, rfl⟩
  · intro r hr
    obtain ⟨hexit, hfirst⟩ := execute_process_strict hr v₃
    rw [execute_check_of_holds hr v₁, hexit]
    refine ⟨rfl, Iff.rfl, by simp, fun first hmem => ?_, execute_process_lenient hr v₂⟩
    have hne : r.check .clientDefaults ≠ [] := by
      intro hnil
      simp [hnil] at hmem
    exact ⟨if_neg hne, if_neg hne, hfirst first hmem⟩

theorem check_agrees_with_process_kennel :
    let checked := execute ["-v", "check", "kennel.json"] kennelTree
    let processed := execute ["process", "kennel.json"] kennelTree
    let strict := execute ["process", "kennel.json", "--strict"] kennelTree
    checked.exit = 1 ∧ strict.exit = 1 ∧ processed.exit = 0 ∧
      checked.stderr = "pets/Cat: composes 2 bases (Dog, Ant), only the first is kept\n" ++
        "Error: 1 inconsistencies found\n" ∧
      strict.stderr = "Error: Post-processing failed\n\nCaused by:\n    Schema inconsistency: " ++
        "pets/Cat: composes 2 bases (Dog, Ant), only the first is kept\n" ∧
      processed.stderr = "Warning: \x7b\"type\":\"bases_dropped\",\"unit\":\"pets\"," ++
        "\"model\":\"Cat\",\"dropped\":[\"Ant\"]\x7d\n" ∧
      Warns processed.stderr [⟨"pets", "Cat", .basesDropped ["Ant"]⟩] := by
  have hcheck : Asks ["-v", "check", "kennel.json"] (.check "kennel.json") :=
    ⟨true, by decide +kernel⟩
  have hprocess : Asks ["process", "kennel.json"] (.process { input := "kennel.json" }) :=
    ⟨false, by decide +kernel⟩
  have hstrict : Asks ["process", "kennel.json", "--strict"]
      (.process { input := "kennel.json", strict := true }) := ⟨false, by decide +kernel⟩
  obtain ⟨hissues, -, -, hfirst, report, hresult, hprocessed, hprinted, hwarns, -⟩ :=
    (check_agrees_with_process hcheck hprocess hstrict).2 _ kennelTree_holds
  obtain ⟨hchecked, hexit, hstderr⟩ := hfirst _ rfl
  obtain rfl : report = Registry.terseReport := Except.ok.inj (hresult.symm.trans rfl)
  exact ⟨hchecked, hexit, hprocessed, hissues.trans (by decide +kernel),
    hstderr.trans (by decide +kernel), hprinted.trans (by decide +kernel), hwarns⟩

end CommandLine

end ModelRegistry
