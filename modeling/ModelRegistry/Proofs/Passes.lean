import ModelRegistry.Proofs.FirstMatch
import ModelRegistry.Proofs.Members

/-!
# The passes, model by model

Each pass visits every model once and decides from the model and its place alone. This module states
what a pass makes of one model, that what it makes of a registry and notes on the way is exactly
this at every member, and what a successful run is in these terms.
-/

namespace ModelRegistry

namespace Logged

variable {α β : Type}

def changes (x : Logged Note α) : List Change :=
  (Report.ofNotes x.log).changes

def diagnostics (x : Logged Note α) : List Diagnostic :=
  (Report.ofNotes x.log).diagnostics

@[simp] theorem changes_pure (a : α) : (pure a : Logged Note α).changes = [] := rfl

@[simp] theorem diagnostics_pure (a : α) : (pure a : Logged Note α).diagnostics = [] := rfl

@[simp] theorem changes_bind (x : Logged Note α) (f : α → Logged Note β) :
    (x >>= f).changes = x.changes ++ (f x.value).changes :=
  List.filterMap_append

@[simp] theorem diagnostics_bind (x : Logged Note α) (f : α → Logged Note β) :
    (x >>= f).diagnostics = x.diagnostics ++ (f x.value).diagnostics :=
  List.filterMap_append

@[simp] theorem changes_note (n : Note) : (note n).changes = n.change?.toList := by
  cases n <;> rfl

@[simp] theorem diagnostics_note (n : Note) : (note n).diagnostics = n.diagnostic?.toList := by
  cases n <;> rfl

end Logged

def Property.require (p : Property) : Property :=
  { p with required := true }

namespace Model

def withoutImports (drops : String → Bool) (m : Model) : Model :=
  { m with imports := m.imports.filter fun name => !drops name }

/-- The property that the discriminator names. -/
def discriminatorProperty? (m : Model) : Option Property :=
  m.discriminator.bind fun d => m.property? d.propertyName

/-- The properties, the first one that the discriminator names being required. -/
def requiredProperties (m : Model) : List Property :=
  match m.discriminator with
  | none => m.properties
  | some d => modifyFirst (·.name = d.propertyName) Property.require m.properties

/-- What resolving the hierarchy makes of a model. -/
def resolved (m : Model) : Model :=
  { m with parent := m.composedBases.head?.or m.parent, properties := m.requiredProperties }

theorem changes_dropImports (drops : String → Bool) (unit : String) (m : Model) :
    (m.dropImports drops unit).changes =
      (m.imports.names.filter drops).map fun name => ⟨unit, m.name, .importRemoved name⟩ := by
  simp only [Logged.changes, Report.ofNotes, dropImports, List.filterMap_flatMap]
  exact List.map_eq_flatMap.symm

theorem diagnostics_dropImports (drops : String → Bool) (unit : String) (m : Model) :
    (m.dropImports drops unit).diagnostics = [] := by
  simp only [Logged.diagnostics, Report.ofNotes, dropImports, List.filterMap_flatMap]
  exact List.flatMap_eq_nil_iff.mpr fun _ _ => rfl

theorem value_assignParent (unit : String) (m : Model) :
    (m.assignParent unit).value = { m with parent := m.composedBases.head?.or m.parent } := by
  obtain ⟨name, properties, imports, bases, parent, discriminator⟩ := m
  cases bases with
  | nil => rfl
  | cons base dropped =>
    by_cases hp : parent = some base
    · simp [assignParent, inherit, hp]
    · simp [assignParent, inherit, hp]

theorem requiredProperties_of_discriminator {m : Model} {d : Discriminator}
    (hd : m.discriminator = some d) :
    m.requiredProperties =
      modifyFirst (·.name = d.propertyName) Property.require m.properties := by
  rw [requiredProperties, hd]

/-- Nothing is left to do if the property is required already, or is not there. -/
theorem requiredProperties_eq_self {m : Model}
    (h : ∀ p ∈ m.discriminatorProperty?, p.required = true) :
    m.requiredProperties = m.properties := by
  cases hd : m.discriminator with
  | none => rw [requiredProperties, hd]
  | some d =>
    rw [requiredProperties_of_discriminator hd]
    rw [discriminatorProperty?, hd, Option.bind_some] at h
    cases hp : m.property? d.propertyName with
    | none => exact modifyFirst_of_find?_eq_none hp
    | some p =>
      have hself : p.require = p := by rw [Property.require, ← h p hp]
      exact modifyFirst_of_find?_eq_some hp hself

theorem value_requireDiscriminator (unit : String) (m : Model) :
    (m.requireDiscriminator unit).value = { m with properties := m.requiredProperties } := by
  rw [requireDiscriminator]
  split
  · next hd =>
    rw [requiredProperties_eq_self (by simp [discriminatorProperty?, hd])]
    rfl
  · next d hd =>
    split
    · next p hp =>
      split
      · next hreq =>
        rw [requiredProperties_eq_self (by simp [discriminatorProperty?, hd, hp, hreq])]
        rfl
      · rw [requiredProperties_of_discriminator hd]
        rfl
    · next hp =>
      rw [requiredProperties_eq_self (by simp [discriminatorProperty?, hd, hp])]
      rfl

theorem value_resolve (unit : String) (m : Model) : (m.resolve unit).value = m.resolved := by
  rw [resolve, Logged.value_bind, value_requireDiscriminator, value_assignParent]
  rfl

end Model

/-- Which imports a filter drops from the models of a place. -/
def Options.drops (o : Options) (p : Place) : String → Bool :=
  o.importPolicy.drops (p.siblings o.modelImportPrefix)

/-- One pass. Every filter may have options of its own. -/
inductive Pass
  | filterImports (o : Options)
  | resolveHierarchy
  deriving DecidableEq

namespace Pass

def run : Pass → Registry → Logged Note Registry
  | filterImports o, r => r.filterImports o
  | resolveHierarchy, r => r.resolveHierarchy

/-- The visit of one model in the course of a pass. -/
def visit : Pass → Place → Model → Logged Note Model
  | filterImports o, p, m => m.dropImports (o.drops p) p.unit
  | resolveHierarchy, p, m => m.resolve p.unit

end Pass

namespace Registry

variable {ε : Type}

def visitMembers (f : Place → Model → Logged ε Model) (r : Registry) : Logged ε Registry := do
  return ⟨← r.units.visit fun unit g => g.visit (f (g.place unit))⟩

theorem value_visitMembers (f : Place → Model → Logged ε Model) (r : Registry) :
    (r.visitMembers f).value = r.mapModels fun p m => (f p m).value := by
  refine congrArg Registry.mk ((NameMap.value_visit _ _).trans ?_)
  exact congrArg (NameMap.map · r.units)
    (funext fun _ => funext fun _ => congrArg GenerationUnit.mk (Logged.value_visit ..))

theorem log_visitMembers (f : Place → Model → Logged ε Model) (r : Registry) :
    (r.visitMembers f).log = r.members.flatMap fun e => (f e.1 e.2).log := by
  simp only [visitMembers, GenerationUnit.visit, Logged.log_bind, Logged.log_pure,
    List.append_nil, NameMap.log_visit, Logged.log_visit, members, List.flatMap_assoc,
    List.flatMap_map]

/-- A visit that does not ask for siblings. -/
theorem value_visit (f : String → Model → Logged ε Model) (r : Registry) :
    (r.visit f).value = r.mapModels fun p m => (f p.unit m).value :=
  r.value_visitMembers fun p m => f p.unit m

theorem log_visit (f : String → Model → Logged ε Model) (r : Registry) :
    (r.visit f).log = r.models.flatMap fun e => (f e.1 e.2).log := by
  rw [models_eq_map_members, List.flatMap_map]
  exact r.log_visitMembers fun p m => f p.unit m

theorem filterImports_eq_visitMembers (r : Registry) (o : Options) :
    r.filterImports o = (do
      if o.importPolicy = .filterAll then Logged.note (.event .allImportsDropped)
      r.visitMembers (Pass.filterImports o).visit) := by
  have hvisit : GenerationUnit.filterImports o = fun unit g =>
      g.visit ((Pass.filterImports o).visit (g.place unit)) := by
    funext unit g
    change g.visit (Model.dropImports (o.importPolicy.drops
        (Siblings.ofUnit unit g.models o.modelImportPrefix)) unit) =
      g.visit (Model.dropImports (o.importPolicy.drops
        ((g.place unit).siblings o.modelImportPrefix)) unit)
    rw [GenerationUnit.siblings_place]
  rw [filterImports, hvisit]
  rfl

end Registry

namespace Pass

/-- What a pass makes of a model. -/
def apply (q : Pass) (p : Place) (m : Model) : Model :=
  (q.visit p m).value

theorem apply_filterImports (o : Options) (p : Place) (m : Model) :
    (filterImports o).apply p m = m.withoutImports (o.drops p) := rfl

theorem apply_resolveHierarchy (p : Place) (m : Model) :
    resolveHierarchy.apply p m = m.resolved :=
  m.value_resolve p.unit

theorem keepsNames_apply (q : Pass) : KeepsNames q.apply := by
  intro p m
  cases q with
  | filterImports o => rfl
  | resolveHierarchy => rw [apply_resolveHierarchy]; rfl

theorem value_run (q : Pass) (r : Registry) : (q.run r).value = r.mapModels q.apply := by
  cases q with
  | filterImports o =>
    rw [run, Registry.filterImports_eq_visitMembers]
    split
    · exact Registry.value_visitMembers ..
    · exact Registry.value_visitMembers ..
  | resolveHierarchy => exact Registry.value_visitMembers resolveHierarchy.visit r

/-- What a pass tells the log before it visits any model. -/
def announcement : Pass → List Event
  | filterImports o => if o.importPolicy = .filterAll then [.allImportsDropped] else []
  | resolveHierarchy => []

theorem log_run (q : Pass) (r : Registry) :
    (q.run r).log =
      q.announcement.map .event ++ r.members.flatMap fun e => (q.visit e.1 e.2).log := by
  cases q with
  | filterImports o =>
    rw [run, Registry.filterImports_eq_visitMembers, announcement, ← Registry.log_visitMembers]
    split
    · rfl
    · rfl
  | resolveHierarchy => exact Registry.log_visitMembers resolveHierarchy.visit r

theorem changes_run (q : Pass) (r : Registry) :
    (q.run r).changes = r.members.flatMap fun e => (q.visit e.1 e.2).changes := by
  have hevents (es : List Event) : (es.map Note.event).filterMap Note.change? = [] := by
    simp [Note.change?]
  simp only [Logged.changes, Report.ofNotes, log_run, List.filterMap_append, hevents,
    List.nil_append, List.filterMap_flatMap]

theorem diagnostics_run (q : Pass) (r : Registry) :
    (q.run r).diagnostics = r.members.flatMap fun e => (q.visit e.1 e.2).diagnostics := by
  have hevents (es : List Event) : (es.map Note.event).filterMap Note.diagnostic? = [] := by
    simp [Note.diagnostic?]
  simp only [Logged.diagnostics, Report.ofNotes, log_run, List.filterMap_append, hevents,
    List.nil_append, List.filterMap_flatMap]

end Pass

/-- What a whole run makes of a model. -/
def Model.processed (o : Options) (p : Place) (m : Model) : Model :=
  (m.withoutImports (o.drops p)).resolved

theorem Model.keepsNames_processed (o : Options) : KeepsNames (Model.processed o) :=
  fun _ _ => rfl

theorem Model.mem_imports_processed {o : Options} {p : Place} {m : Model} {name : String} :
    name ∈ (m.processed o p).imports ↔ name ∈ m.imports ∧ ¬ o.drops p name = true := by
  refine NameSet.mem_filter.trans (and_congr_right fun _ => ?_)
  rw [Bool.not_eq_true', Bool.not_eq_true]

namespace Registry

theorem runPasses_eq_bind (r : Registry) (o : Options) :
    r.runPasses o = (Pass.filterImports o).run r >>= Pass.resolveHierarchy.run := rfl

theorem value_runPasses (r : Registry) (o : Options) :
    (r.runPasses o).value = r.mapModels (Model.processed o) := by
  rw [runPasses_eq_bind, Logged.value_bind, Pass.value_run, Pass.value_run,
    mapModels_mapModels (Pass.keepsNames_apply _)]
  simp only [Pass.apply_filterImports, Pass.apply_resolveHierarchy]
  rfl

theorem changes_runPasses (r : Registry) (o : Options) :
    (r.runPasses o).changes =
      (r.members.flatMap fun e => (e.2.dropImports (o.drops e.1) e.1.unit).changes) ++
        r.members.flatMap fun e =>
          ((e.2.withoutImports (o.drops e.1)).resolve e.1.unit).changes := by
  rw [runPasses_eq_bind, Logged.changes_bind, Pass.changes_run, Pass.changes_run, Pass.value_run,
    members_mapModels (Pass.keepsNames_apply _), List.flatMap_map]
  rfl

theorem diagnostics_runPasses (r : Registry) (o : Options) :
    (r.runPasses o).diagnostics = r.members.flatMap fun e =>
      ((e.2.withoutImports (o.drops e.1)).resolve e.1.unit).diagnostics := by
  have hfilter : ((Pass.filterImports o).run r).diagnostics = [] := by
    rw [Pass.diagnostics_run]
    exact List.flatMap_eq_nil_iff.mpr fun e _ =>
      Model.diagnostics_dropImports (o.drops e.1) e.1.unit e.2
  rw [runPasses_eq_bind, Logged.diagnostics_bind, hfilter, List.nil_append, Pass.diagnostics_run,
    Pass.value_run, members_mapModels (Pass.keepsNames_apply _), List.flatMap_map]
  rfl

theorem obstacle?_of_strict (r : Registry) {o : Options} (h : o.strict = true) :
    r.obstacle? o = (r.check o.features).head? := by
  rw [obstacle?, if_pos h]

theorem obstacle?_of_not_strict (r : Registry) {o : Options} (h : o.strict = false) :
    r.obstacle? o = none := by
  rw [obstacle?, h]
  rfl

/-- An obstacle stops a run before it has changed, recorded or logged anything. -/
theorem postProcess_of_obstacle {r : Registry} {o : Options} {issue : Inconsistency}
    (h : r.obstacle? o = some issue) : r.postProcess o = ⟨r, .error issue, []⟩ := by
  rw [postProcess, h]

/-- Without an obstacle both passes run, and nothing but their notes goes into the report. -/
theorem postProcess_of_no_obstacle {r : Registry} {o : Options} (h : r.obstacle? o = none) :
    r.postProcess o =
      let run := r.runPasses o
      let report := ⟨run.changes, run.diagnostics⟩
      ⟨run.value, .ok report, Event.ofNotes run.log ++ [report.summary run.value]⟩ := by
  rw [postProcess, h]
  rfl

theorem obstacle?_eq_none_of_ok {r : Registry} {o : Options} {report : Report}
    (h : (r.postProcess o).result = .ok report) : r.obstacle? o = none := by
  cases hissue : r.obstacle? o with
  | none => rfl
  | some issue => rw [postProcess_of_obstacle hissue] at h; cases h

/-- A run that succeeds has found no obstacle, has changed every model and reports what the two
passes noted. -/
theorem postProcess_eq_ok {r : Registry} {o : Options} {report : Report}
    (h : (r.postProcess o).result = .ok report) :
    (r.postProcess o).registry = r.mapModels (Model.processed o) ∧
      report = ⟨(r.runPasses o).changes, (r.runPasses o).diagnostics⟩ := by
  have hnone := obstacle?_eq_none_of_ok h
  rw [postProcess_of_no_obstacle hnone] at h ⊢
  exact ⟨r.value_runPasses o, (Except.ok.inj h).symm⟩

/-- A run that is not strict succeeds. -/
theorem result_postProcess_of_not_strict (r : Registry) {o : Options} (h : o.strict = false) :
    (r.postProcess o).result =
      .ok ⟨(r.runPasses o).changes, (r.runPasses o).diagnostics⟩ := by
  rw [postProcess_of_no_obstacle (r.obstacle?_of_not_strict h)]

end Registry

end ModelRegistry
