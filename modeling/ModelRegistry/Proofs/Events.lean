import ModelRegistry.Proofs.Findings

/-!
# What a run tells its log

The passes note events beside the changes and the diagnostics, at other places of the program. This
module shows that a run tells its log what it reports, and nothing else: an announcement if all
imports are dropped, an event for each removal of one, an event for each finding, and a summary.
-/

namespace ModelRegistry

namespace Logged

variable {α β : Type}

def events (x : Logged Note α) : List Event :=
  Event.ofNotes x.log

@[simp] theorem events_pure (a : α) : (pure a : Logged Note α).events = [] := rfl

@[simp] theorem events_bind (x : Logged Note α) (f : α → Logged Note β) :
    (x >>= f).events = x.events ++ (f x.value).events :=
  List.filterMap_append

@[simp] theorem events_note (n : Note) : (note n).events = n.event?.toList := by
  cases n <;> rfl

end Logged

/-- The event of a change. Only removed imports are told one by one. -/
def Change.event? (c : Change) : Option Event :=
  match c.what with
  | .importRemoved name => some (.importDropped c.unit c.model name)
  | .parentAssigned _ | .discriminatorRequired _ => none

namespace Diagnostic

/-- The event of a finding about a model that now has the given parent. -/
def event? (parent : Option String) (d : Diagnostic) : Option Event :=
  match d.what with
  | .basesDropped dropped =>
    parent.map fun parent => .compositionCollapsed d.unit d.model parent dropped
  | .danglingDiscriminator property => some (.discriminatorDangling d.unit d.model property)

/-- How important the event of a finding is. -/
def level (d : Diagnostic) : Level :=
  match d.what with
  | .basesDropped _ => .debug
  | .danglingDiscriminator _ => .warn

theorem level_of_event? {parent : Option String} {d : Diagnostic} {e : Event}
    (h : d.event? parent = some e) : e.level = d.level := by
  obtain ⟨unit, model, what⟩ := d
  cases what with
  | danglingDiscriminator property =>
    cases h
    rfl
  | basesDropped dropped =>
    obtain ⟨_, -, rfl⟩ := Option.map_eq_some_iff.mp h
    rfl

end Diagnostic

theorem Change.level_of_event? {c : Change} {e : Event} (h : c.event? = some e) :
    e.level = .debug := by
  obtain ⟨unit, model, what⟩ := c
  cases what with
  | importRemoved name =>
    cases h
    rfl
  | parentAssigned | discriminatorRequired => cases h

/-- The changes that have an event are those that the first counter counts. -/
theorem Report.length_filterMap_event? (report : Report) :
    (report.changes.filterMap Change.event?).length = report.importsRemoved := by
  rw [importsRemoved_eq_countP, List.length_filterMap_eq_countP]
  refine List.countP_congr fun c _ => ?_
  rw [Change.event?]
  cases c.what <;> simp [ChangeKind.ofImport]

namespace Transition

variable (t : Transition)

theorem filterMap_event?_importChanges :
    t.importChanges.filterMap Change.event? =
      t.lostImports.map fun name => .importDropped t.unit t.before.name name := by
  rw [importChanges, List.filterMap_map, ← List.filterMap_eq_map]
  rfl

theorem filterMap_event?_hierarchyChanges :
    t.hierarchyChanges.filterMap Change.event? = [] := by
  rw [hierarchyChanges, List.filterMap_append, List.append_eq_nil_iff]
  constructor
  · rw [parentChanges]
    split
    · rfl
    · simp [List.filterMap_map, Function.comp_def, change, Change.event?]
  · simp [flagChanges, List.filterMap_map, Function.comp_def, change, Change.event?]

end Transition

namespace Model

theorem events_dropImports (drops : String → Bool) (unit : String) (m : Model) :
    (m.dropImports drops unit).events =
      (m.imports.names.filter drops).map fun name => .importDropped unit m.name name := by
  simp only [Logged.events, Event.ofNotes, dropImports, List.filterMap_flatMap]
  exact List.map_eq_flatMap.symm

theorem events_inherit (unit : String) (m : Model) (base : String) :
    (m.inherit unit base).events = [] := by
  rw [inherit]
  split <;> rfl

/-- Whatever the parent was, what is told of dropped bases goes with the first base. -/
theorem events_assignParent (unit : String) (m : Model) :
    (m.assignParent unit).events.map some =
      m.compositionFindings.map fun what =>
        Diagnostic.event? m.composedBases.head? ⟨unit, m.name, what⟩ := by
  obtain ⟨name, properties, imports, bases, parent, discriminator⟩ := m
  cases bases with
  | nil => rfl
  | cons base dropped =>
    have hname (m : Model) : (m.inherit unit base).value.name = m.name := by
      rw [inherit]
      split <;> rfl
    cases dropped with
    | nil => simp [assignParent, events_inherit, reportDropped, compositionFindings]
    | cons base' dropped =>
      simp [assignParent, events_inherit, hname, reportDropped, compositionFindings, Note.event?,
        Diagnostic.event?]

theorem events_requireDiscriminator (unit : String) (m : Model) (parent : Option String) :
    (m.requireDiscriminator unit).events.map some =
      m.discriminatorFindings.map fun what => Diagnostic.event? parent ⟨unit, m.name, what⟩ := by
  rw [requireDiscriminator, discriminatorFindings]
  cases m.discriminator with
  | none => rfl
  | some d =>
    cases hp : m.property? d.propertyName with
    | none => simp [hp, Note.event?, Diagnostic.event?]
    | some p => cases hreq : p.required <;> simp [hp, hreq, Note.event?]

/-- A model with dropped bases has a parent after it has been resolved. -/
theorem events_resolve (unit : String) (m : Model) :
    (m.resolve unit).events.map some =
      (m.findings unit).map fun d => d.event? m.resolved.parent := by
  have hcomposition : (m.compositionFindings.map fun what =>
        Diagnostic.event? m.composedBases.head? ⟨unit, m.name, what⟩) =
      m.compositionFindings.map fun what =>
        Diagnostic.event? m.resolved.parent ⟨unit, m.name, what⟩ := by
    rw [compositionFindings, resolved]
    cases m.composedBases <;> rfl
  rw [resolve, Logged.events_bind, List.map_append, events_assignParent, hcomposition,
    events_requireDiscriminator unit _ m.resolved.parent, value_assignParent, findings,
    List.map_map, List.map_append]
  rfl

end Model

theorem Pass.events_run (q : Pass) (r : Registry) :
    (q.run r).events =
      q.announcement ++ r.members.flatMap fun e => (q.visit e.1 e.2).events := by
  have hannounced (es : List Event) : (es.map Note.event).filterMap Note.event? = es := by
    rw [List.filterMap_map]
    exact List.filterMap_some
  simp only [Logged.events, Event.ofNotes, log_run, List.filterMap_append, hannounced,
    List.filterMap_flatMap]

namespace Registry

/-- The findings about all models, each with the model that it is about. -/
def diagnosed (r s : Registry) : List (Transition × Diagnostic) :=
  (r.transitions s).flatMap fun t => (t.before.findings t.unit).map fun d => (t, d)

theorem map_snd_diagnosed (r : Registry) (o : Options) :
    (r.diagnosed (r.mapModels (Model.processed o))).map Prod.snd = (r.runPasses o).diagnostics := by
  rw [diagnostics_runPasses_eq_findings, diagnosed, transitions_mapModels, List.flatMap_map,
    List.map_flatMap]
  simp only [List.map_map, Function.comp_def, List.map_id']

/-- The events of the second pass. -/
def findingEvents (r : Registry) (o : Options) : List Event :=
  r.members.flatMap fun e => ((e.2.withoutImports (o.drops e.1)).resolve e.1.unit).events

theorem map_some_findingEvents (r : Registry) (o : Options) :
    (r.findingEvents o).map some =
      (r.diagnosed (r.mapModels (Model.processed o))).map fun e =>
        e.2.event? e.1.after.parent := by
  rw [findingEvents, diagnosed, transitions_mapModels, List.flatMap_map, List.map_flatMap,
    List.map_flatMap]
  refine List.flatMap_congr fun e _ => ?_
  rw [Model.events_resolve, List.map_map]
  rfl

theorem filterMap_event?_changes_runPasses (r : Registry) (o : Options) :
    (r.runPasses o).changes.filterMap Change.event? =
      r.members.flatMap fun e => (e.2.dropImports (o.drops e.1) e.1.unit).events := by
  have hhierarchy : ((r.transitions (r.mapModels (Model.processed o))).flatMap
      (·.hierarchyChanges)).filterMap Change.event? = [] := by
    rw [List.filterMap_flatMap]
    exact List.flatMap_eq_nil_iff.mpr fun t _ => t.filterMap_event?_hierarchyChanges
  rw [changes_runPasses_eq_difference, difference, List.filterMap_append, hhierarchy,
    List.append_nil, transitions_mapModels, List.flatMap_map, List.filterMap_flatMap]
  refine List.flatMap_congr fun e _ => ?_
  rw [Transition.filterMap_event?_importChanges, Transition.lostImports_processed,
    Model.events_dropImports]

theorem events_runPasses (r : Registry) (o : Options) :
    (r.runPasses o).events =
      (if o.importPolicy = .filterAll then [.allImportsDropped] else []) ++
        (r.runPasses o).changes.filterMap Change.event? ++ r.findingEvents o := by
  rw [runPasses_eq_bind, Logged.events_bind, Pass.events_run, Pass.events_run, Pass.value_run,
    members_mapModels (Pass.keepsNames_apply _), List.flatMap_map, ← runPasses_eq_bind,
    filterMap_event?_changes_runPasses]
  rfl

/-- The levels of events, read off what they tell of. -/
theorem map_level_of_map_event? {α : Type} {f : α → Option Event} {level : α → Level}
    (hf : ∀ a e, f a = some e → e.level = level a) {told : List Event} {as : List α}
    (h : told.map some = as.map f) : told.map Event.level = as.map level := by
  induction as generalizing told with
  | nil => rw [List.map_eq_nil_iff.mp h]; rfl
  | cons a as ih =>
    obtain _ | ⟨e, told⟩ := told
    · cases h
    · obtain ⟨ha, has⟩ := List.cons_eq_cons.mp h
      rw [List.map_cons, List.map_cons, hf a e ha.symm, ih has]

theorem map_level_removals (report : Report) :
    (report.changes.filterMap Change.event?).map Event.level =
      List.replicate report.importsRemoved .debug := by
  rw [← report.length_filterMap_event?, List.map_eq_replicate_iff]
  intro e he
  obtain ⟨c, -, hc⟩ := List.mem_filterMap.mp he
  exact Change.level_of_event? hc

theorem map_level_findingEvents (r : Registry) (o : Options) :
    (r.findingEvents o).map Event.level = (r.runPasses o).diagnostics.map Diagnostic.level := by
  rw [← map_snd_diagnosed, List.map_map]
  exact map_level_of_map_event? (fun _ _ => Diagnostic.level_of_event?)
    (r.map_some_findingEvents o)

/-- A run that is stopped tells nothing. A run that succeeds tells, in this order, that it drops
every import, if it does, then which imports it has removed, as it reports them, and what it has
found, as it reports it and with the parents that the models have got, and at last what the report
comes to. -/
theorem postProcess_events (r : Registry) (o : Options) :
    (∀ issue, (r.postProcess o).result = .error issue → (r.postProcess o).events = []) ∧
    ∀ report, (r.postProcess o).result = .ok report →
      let s := (r.postProcess o).registry
      (r.diagnosed s).map Prod.snd = report.diagnostics ∧
      ∃ told : List Event,
        told.map some = (r.diagnosed s).map (fun e => e.2.event? e.1.after.parent) ∧
        (r.postProcess o).events =
          (if o.importPolicy = .filterAll then [.allImportsDropped] else []) ++
            report.changes.filterMap Change.event? ++ told ++
            [.finished s.modelCount report.importsRemoved report.parentsAssigned
              report.discriminatorsRequired report.diagnostics.length] ∧
        (r.postProcess o).events.map Event.level =
          (if o.importPolicy = .filterAll then [.warn] else []) ++
            List.replicate report.importsRemoved .debug ++
            report.diagnostics.map Diagnostic.level ++ [.info] := by
  refine ⟨fun issue h => ?_, fun report h => ?_⟩
  · cases hobstacle : r.obstacle? o with
    | none => rw [postProcess_of_no_obstacle hobstacle] at h; cases h
    | some issue => rw [postProcess_of_obstacle hobstacle]
  · have hrun := postProcess_of_no_obstacle (obstacle?_eq_none_of_ok h)
    obtain ⟨hs, hreport⟩ := postProcess_eq_ok h
    have hchanges : report.changes = (r.runPasses o).changes := by rw [hreport]
    have hdiagnostics : report.diagnostics = (r.runPasses o).diagnostics := by rw [hreport]
    have hevents : (r.postProcess o).events =
        (r.runPasses o).events ++ [report.summary (r.postProcess o).registry] := by
      rw [hrun, hreport]
      rfl
    have hpolicy : (if o.importPolicy = .filterAll then [Event.allImportsDropped] else []).map
        Event.level = if o.importPolicy = .filterAll then [.warn] else [] := by
      split <;> rfl
    intro s
    rw [hevents, events_runPasses, ← hchanges, Report.summary]
    refine ⟨?_, r.findingEvents o, ?_, rfl, ?_⟩
    · rw [hdiagnostics, ← map_snd_diagnosed, ← hs]
    · rw [map_some_findingEvents, ← hs]
    · simp only [List.map_append, hpolicy, map_level_removals, map_level_findingEvents,
        hdiagnostics, List.map_cons, List.map_nil, Event.level]

end Registry

/-- What is reported of the same registry if every import is dropped. -/
def emptiedPetshopReport : Report where
  changes :=
    [⟨"owners", "Owner", .importRemoved "Dog"⟩, ⟨"owners", "Owner", .importRemoved "Owner"⟩,
      ⟨"pets", "Dog", .importRemoved " Dog "⟩, ⟨"pets", "Dog", .importRemoved "dart:core"⟩,
      ⟨"pets", "Dog", .importRemoved "pets.Dog"⟩, ⟨"pets", "Dog", .importRemoved " Dog "⟩,
      ⟨"pets", "Dog", .importRemoved "dart:core"⟩, ⟨"pets", "Dog", .importRemoved "pets.Dog"⟩,
      ⟨"pets", "Dog", .parentAssigned "Animal"⟩, ⟨"pets", "Dog", .discriminatorRequired "kind"⟩,
      ⟨"pets", "Dog", .discriminatorRequired "kind"⟩]
  diagnostics := petshopReport.diagnostics

theorem postProcess_events_petshop :
    let o : Options := { importPolicy := .filterAll }
    (petshop.postProcess o).result = .ok emptiedPetshopReport ∧
      ∃ told : List Event,
        told.map some = [some (.discriminatorDangling "owners" "Owner" "species"),
          some (.compositionCollapsed "pets" "Dog" "Animal" ["Named"]),
          some (.compositionCollapsed "pets" "Dog" "Animal" ["Named"])] ∧
        (petshop.postProcess o).events = [.allImportsDropped] ++
          emptiedPetshopReport.changes.filterMap Change.event? ++ told ++
            [.finished 3 8 1 2 3] := by
  intro o
  have hresult : (petshop.postProcess o).result = .ok emptiedPetshopReport := by decide +kernel
  obtain ⟨-, hok⟩ := petshop.postProcess_events o
  obtain ⟨-, told, htold, hevents, -⟩ := hok _ hresult
  have hdiagnosed : ((petshop.diagnosed (petshop.postProcess o).registry).map fun e =>
      e.2.event? e.1.after.parent) = [some (.discriminatorDangling "owners" "Owner" "species"),
        some (.compositionCollapsed "pets" "Dog" "Animal" ["Named"]),
        some (.compositionCollapsed "pets" "Dog" "Animal" ["Named"])] := rfl
  have hsummary : Event.finished (petshop.postProcess o).registry.modelCount
      emptiedPetshopReport.importsRemoved emptiedPetshopReport.parentsAssigned
      emptiedPetshopReport.discriminatorsRequired emptiedPetshopReport.diagnostics.length =
        .finished 3 8 1 2 3 := rfl
  rw [hdiagnosed] at htold
  rw [hsummary, if_pos rfl] at hevents
  exact ⟨hresult, told, htold, hevents⟩

end ModelRegistry
