import Mathlib.Algebra.BigOperators.Group.List.Basic
import Mathlib.Algebra.GroupWithZero.Nat
import ModelRegistry.Proofs.Passes

/-!
# The report as a difference

Two registries of the same outline are compared model by model: which imports a model has lost,
whether it has another parent, and the flags of which properties are not what they were. The changes
that a run reports are exactly this difference between the registry before and after it, in order.
-/

namespace ModelRegistry

/-- A model before and after a run. -/
structure Transition where
  unit : String
  before : Model
  after : Model

namespace Transition

def lostImports (t : Transition) : List String :=
  t.before.imports.names.filter fun name => name ∉ t.after.imports

/-- The properties whose flag has changed, by position. -/
def flippedFlags (t : Transition) : List String :=
  ((t.before.properties.zip t.after.properties).filter fun e =>
    e.1.required != e.2.required).map (·.1.name)

def change (t : Transition) (what : ChangeKind) : Change :=
  ⟨t.unit, t.before.name, what⟩

def importChanges (t : Transition) : List Change :=
  t.lostImports.map fun name => t.change (.importRemoved name)

def parentChanges (t : Transition) : List Change :=
  if t.before.parent = t.after.parent then []
  else t.after.parent.toList.map fun parent => t.change (.parentAssigned parent)

def flagChanges (t : Transition) : List Change :=
  t.flippedFlags.map fun property => t.change (.discriminatorRequired property)

def hierarchyChanges (t : Transition) : List Change :=
  t.parentChanges ++ t.flagChanges

end Transition

namespace Registry

/-- The models of two registries, matched by unit and position. -/
def transitions (r s : Registry) : List Transition :=
  (r.units.entries.zip s.units.entries).flatMap fun e =>
    (e.1.2.models.zip e.2.2.models).map fun m => ⟨e.1.1, m.1, m.2⟩

/-- All imports that were lost, and then, model by model, what has changed of parents and flags. -/
def difference (r s : Registry) : List Change :=
  (r.transitions s).flatMap (·.importChanges) ++ (r.transitions s).flatMap (·.hierarchyChanges)

theorem transitions_mapModels (f : Place → Model → Model) (r : Registry) :
    r.transitions (r.mapModels f) = r.members.map fun e => ⟨e.1.unit, e.2, f e.1 e.2⟩ := by
  have hzip {α β : Type} (g : α → β) (l : List α) : l.zip (l.map g) = l.map fun a => (a, g a) := by
    simp [List.zip_eq_zipWith, List.zipWith_map_right, List.zipWith_self]
  simp only [transitions, entries_mapModels, hzip, List.flatMap_map, GenerationUnit.mapModels,
    List.map_map, members, List.map_flatMap]
  rfl

end Registry

namespace Model

theorem flippedFlags_resolved (unit : String) (m : Model) :
    (Transition.mk unit m m.resolved).flippedFlags =
      (m.discriminatorProperty?.toList.filter fun p => !p.required).map (·.name) := by
  have hmap {l : List (Property × Property)} :
      l.map (·.1.name) = (l.map Prod.fst).map (·.name) := by
    rw [List.map_map]
    rfl
  rw [Transition.flippedFlags, hmap]
  congr 1
  simp only [resolved, requiredProperties, discriminatorProperty?]
  cases m.discriminator with
  | none =>
    simp only [Option.bind_none]
    rw [filter_zip_self]
    rfl
  | some d =>
    simp only [Option.bind_some]
    rw [filter_zip_modifyFirst]
    exact List.filter_congr fun p _ => by simp [Property.require]

theorem length_flippedFlags_resolved_le_one (unit : String) (m : Model) :
    (Transition.mk unit m m.resolved).flippedFlags.length ≤ 1 := by
  rw [flippedFlags_resolved, List.length_map]
  exact Nat.le_trans (List.length_filter_le ..) Option.length_toList_le

theorem changes_reportDropped (unit : String) (m : Model) (parent : String)
    (dropped : List String) : (m.reportDropped unit parent dropped).changes = [] := by
  rw [reportDropped]
  split <;> rfl

theorem changes_assignParent (unit : String) (m : Model) :
    (m.assignParent unit).changes = (Transition.mk unit m m.resolved).parentChanges := by
  obtain ⟨name, properties, imports, bases, parent, discriminator⟩ := m
  cases bases with
  | nil => simp [assignParent, Transition.parentChanges, resolved]
  | cons base dropped =>
    by_cases hp : parent = some base
    · simp [assignParent, inherit, changes_reportDropped, Transition.parentChanges, resolved, hp]
    · simp [assignParent, inherit, changes_reportDropped, Transition.parentChanges, resolved, hp,
        Transition.change, Note.change?]

theorem changes_requireDiscriminator (unit : String) (m : Model) :
    (m.requireDiscriminator unit).changes = (Transition.mk unit m m.resolved).flagChanges := by
  rw [Transition.flagChanges, flippedFlags_resolved, discriminatorProperty?, requireDiscriminator]
  split
  · next hd => simp [hd]
  · next d hd =>
    rw [hd, Option.bind_some]
    split
    · next p hp =>
      have hname : p.name = d.propertyName := by simpa using List.find?_some hp
      by_cases hreq : p.required = true
      · simp [hp, hreq]
      · simp [hp, hreq, hname, Transition.change, Note.change?]
    · next hp => simp [hp, Note.change?]

/-- Resolving a model notes just what it changes. -/
theorem changes_resolve (unit : String) (m : Model) :
    (m.resolve unit).changes = (Transition.mk unit m m.resolved).hierarchyChanges := by
  rw [resolve, Logged.changes_bind, changes_assignParent, changes_requireDiscriminator,
    value_assignParent, Transition.hierarchyChanges]
  rfl

/-- Resolving takes no parent away. -/
theorem isSome_parent_resolved {m : Model} (h : m.parent ≠ m.resolved.parent) :
    m.resolved.parent.isSome = true := by
  rw [Option.isSome_iff_ne_none]
  intro hnone
  exact h ((Option.or_eq_none_iff.mp hnone).2.trans hnone.symm)

theorem parent_resolved_of_parentChanges {unit : String} {m : Model}
    (h : (Transition.mk unit m m.resolved).parentChanges = []) : m.resolved.parent = m.parent := by
  by_contra hne
  rw [Transition.parentChanges, if_neg (Ne.symm hne), List.map_eq_nil_iff,
    Option.toList_eq_nil_iff] at h
  exact absurd h (Option.isSome_iff_ne_none.mp (isSome_parent_resolved (Ne.symm hne)))

theorem requiredProperties_of_flagChanges {unit : String} {m : Model}
    (h : (Transition.mk unit m m.resolved).flagChanges = []) :
    m.requiredProperties = m.properties := by
  rw [Transition.flagChanges, flippedFlags_resolved, List.map_map, List.map_eq_nil_iff,
    List.filter_eq_nil_iff] at h
  apply requiredProperties_eq_self
  intro p hp
  simpa using h p (Option.mem_toList.mpr hp)

theorem resolved_eq_self_of_hierarchyChanges {unit : String} {m : Model}
    (h : (Transition.mk unit m m.resolved).hierarchyChanges = []) : m.resolved = m := by
  obtain ⟨hparent, hflags⟩ := List.append_eq_nil_iff.mp h
  have hp : m.composedBases.head?.or m.parent = m.parent :=
    parent_resolved_of_parentChanges hparent
  rw [resolved, hp, requiredProperties_of_flagChanges hflags]

end Model

namespace Transition

theorem importChanges_self (unit : String) (m : Model) :
    (mk unit m m).importChanges = [] := by
  simp [importChanges, lostImports, List.filter_eq_nil_iff, Membership.mem]

theorem hierarchyChanges_self (unit : String) (m : Model) :
    (mk unit m m).hierarchyChanges = [] := by
  simp [hierarchyChanges, parentChanges, flagChanges, flippedFlags, filter_zip_self]

theorem lostImports_processed (o : Options) (p : Place) (m : Model) :
    (mk p.unit m (m.processed o p)).lostImports = m.imports.names.filter (o.drops p) := by
  refine List.filter_congr fun name hname => ?_
  have hin : name ∈ m.imports := hname
  simp [Model.mem_imports_processed, hin]

theorem importChanges_processed (o : Options) (p : Place) (m : Model) :
    (m.dropImports (o.drops p) p.unit).changes =
      (mk p.unit m (m.processed o p)).importChanges := by
  rw [importChanges, lostImports_processed, Model.changes_dropImports]
  rfl

theorem hierarchyChanges_processed (o : Options) (p : Place) (m : Model) :
    ((m.withoutImports (o.drops p)).resolve p.unit).changes =
      (mk p.unit m (m.processed o p)).hierarchyChanges := by
  rw [Model.changes_resolve]
  rfl

/-- A run leaves a model as it is just if it has nothing to report of it. -/
theorem changes_processed_eq_nil_iff (o : Options) (p : Place) (m : Model) :
    (mk p.unit m (m.processed o p)).importChanges = [] ∧
      (mk p.unit m (m.processed o p)).hierarchyChanges = [] ↔ m.processed o p = m := by
  constructor
  · rintro ⟨himports, hhierarchy⟩
    rw [importChanges, lostImports_processed, List.map_eq_nil_iff, List.filter_eq_nil_iff]
      at himports
    have hkeep : m.withoutImports (o.drops p) = m := by
      have hnames : m.imports.filter (fun name => !o.drops p name) = m.imports :=
        NameSet.ext (List.filter_eq_self.mpr fun name hname => by simpa using himports name hname)
      rw [Model.withoutImports, hnames]
    rw [Model.processed, hkeep] at hhierarchy ⊢
    exact Model.resolved_eq_self_of_hierarchyChanges hhierarchy
  · intro h
    rw [h]
    exact ⟨importChanges_self p.unit m, hierarchyChanges_self p.unit m⟩

end Transition

namespace ChangeKind

def ofImport : ChangeKind → Bool
  | importRemoved _ => true
  | _ => false

def ofParent : ChangeKind → Bool
  | parentAssigned _ => true
  | _ => false

def ofFlag : ChangeKind → Bool
  | discriminatorRequired _ => true
  | _ => false

end ChangeKind

namespace Report

theorem importsRemoved_eq_countP (report : Report) :
    report.importsRemoved = report.changes.countP (·.what.ofImport) := rfl

theorem parentsAssigned_eq_countP (report : Report) :
    report.parentsAssigned = report.changes.countP (·.what.ofParent) := rfl

theorem discriminatorsRequired_eq_countP (report : Report) :
    report.discriminatorsRequired = report.changes.countP (·.what.ofFlag) := rfl

/-- Every change is counted by one of the three counters. -/
theorem sum_counters (report : Report) :
    report.importsRemoved + report.parentsAssigned + report.discriminatorsRequired =
      report.changes.length := by
  rw [importsRemoved_eq_countP, parentsAssigned_eq_countP, discriminatorsRequired_eq_countP]
  induction report.changes with
  | nil => rfl
  | cons c changes ih =>
    simp only [List.countP_cons, List.length_cons, ← ih]
    cases c.what <;> simp only [ChangeKind.ofImport, ChangeKind.ofParent, ChangeKind.ofFlag,
      if_true, Bool.false_eq_true, if_false] <;> omega

end Report

namespace Transition

variable (t : Transition)

theorem countP_importChanges (q : ChangeKind → Bool) :
    t.importChanges.countP (fun c => q c.what) =
      t.lostImports.countP fun name => q (.importRemoved name) :=
  List.countP_map

theorem countP_hierarchyChanges (q : ChangeKind → Bool) :
    t.hierarchyChanges.countP (fun c => q c.what) =
      (if t.before.parent = t.after.parent then 0
        else t.after.parent.toList.countP fun parent => q (.parentAssigned parent)) +
      t.flippedFlags.countP fun property => q (.discriminatorRequired property) := by
  rw [hierarchyChanges, List.countP_append, parentChanges, flagChanges, List.countP_map]
  split
  · rfl
  · rw [List.countP_map]
    rfl

theorem countP_ofImport_hierarchyChanges : t.hierarchyChanges.countP (·.what.ofImport) = 0 := by
  rw [countP_hierarchyChanges]
  simp [ChangeKind.ofImport]

theorem countP_ofParent_hierarchyChanges
    (h : t.before.parent ≠ t.after.parent → t.after.parent.isSome = true) :
    t.hierarchyChanges.countP (·.what.ofParent) =
      if t.before.parent ≠ t.after.parent then 1 else 0 := by
  rw [countP_hierarchyChanges]
  by_cases hp : t.before.parent = t.after.parent
  · simp [hp, ChangeKind.ofParent]
  · obtain ⟨parent, hparent⟩ := Option.isSome_iff_exists.mp (h hp)
    rw [hparent] at hp
    simp [hparent, hp, ChangeKind.ofParent]

theorem countP_ofFlag_hierarchyChanges :
    t.hierarchyChanges.countP (·.what.ofFlag) = t.flippedFlags.length := by
  rw [countP_hierarchyChanges]
  simp [ChangeKind.ofFlag]

theorem change_of_mem_hierarchyChanges {t : Transition} {c : Change}
    (h : c ∈ t.hierarchyChanges) : c.unit = t.unit ∧ c.model = t.before.name := by
  rcases List.mem_append.mp h with h | h
  · rw [parentChanges] at h
    split at h
    · cases h
    · obtain ⟨parent, -, rfl⟩ := List.mem_map.mp h
      exact ⟨rfl, rfl⟩
  · obtain ⟨property, -, rfl⟩ := List.mem_map.mp h
    exact ⟨rfl, rfl⟩

end Transition

namespace Registry

theorem countP_difference (p : Change → Bool) (r s : Registry) :
    (r.difference s).countP p =
      ((r.transitions s).map fun t => t.importChanges.countP p).sum +
        ((r.transitions s).map fun t => t.hierarchyChanges.countP p).sum := by
  rw [difference, List.countP_append, List.countP_flatMap, List.countP_flatMap]
  rfl

end Registry

namespace Report

variable {report : Report} {r s : Registry}

theorem importsRemoved_of_difference (h : report.changes = r.difference s) :
    report.importsRemoved = ((r.transitions s).map (·.lostImports.length)).sum := by
  have himports (t : Transition) :
      t.importChanges.countP (·.what.ofImport) = t.lostImports.length := by
    rw [Transition.countP_importChanges]
    simp [ChangeKind.ofImport]
  rw [importsRemoved_eq_countP, h, Registry.countP_difference]
  simp only [himports, Transition.countP_ofImport_hierarchyChanges, List.map_const',
    List.sum_replicate_nat, Nat.mul_zero, Nat.add_zero]

theorem parentsAssigned_of_difference (h : report.changes = r.difference s)
    (hsome : ∀ t ∈ r.transitions s, t.before.parent ≠ t.after.parent →
      t.after.parent.isSome = true) :
    report.parentsAssigned =
      (r.transitions s).countP fun t => t.before.parent ≠ t.after.parent := by
  have himports (t : Transition) : t.importChanges.countP (·.what.ofParent) = 0 := by
    rw [Transition.countP_importChanges]
    simp [ChangeKind.ofParent]
  have hhierarchy := List.map_congr_left fun t (ht : t ∈ r.transitions s) =>
    t.countP_ofParent_hierarchyChanges (hsome t ht)
  rw [parentsAssigned_eq_countP, h, Registry.countP_difference, hhierarchy, List.sum_map_ite,
    List.countP_eq_length_filter]
  simp only [himports, List.map_const', List.sum_replicate_nat, Nat.mul_zero, Nat.mul_one,
    Nat.zero_add, Nat.add_zero]

theorem discriminatorsRequired_of_difference (h : report.changes = r.difference s) :
    report.discriminatorsRequired = ((r.transitions s).map (·.flippedFlags.length)).sum := by
  have himports (t : Transition) : t.importChanges.countP (·.what.ofFlag) = 0 := by
    rw [Transition.countP_importChanges]
    simp [ChangeKind.ofFlag]
  rw [discriminatorsRequired_eq_countP, h, Registry.countP_difference]
  simp only [himports, Transition.countP_ofFlag_hierarchyChanges, List.map_const',
    List.sum_replicate_nat, Nat.mul_zero, Nat.zero_add]

/-- A report that tells exactly how the registry `r` has become `s`. -/
structure AccountsFor (report : Report) (r s : Registry) : Prop where
  outline : s.outline = r.outline
  changes : report.changes = r.difference s
  isSome_parent : ∀ t ∈ r.transitions s, t.before.parent ≠ t.after.parent →
    t.after.parent.isSome = true
  length_flippedFlags : ∀ t ∈ r.transitions s, t.flippedFlags.length ≤ 1
  changes_eq_nil : report.changes = [] ↔ s = r
  importsRemoved : report.importsRemoved = ((r.transitions s).map (·.lostImports.length)).sum
  parentsAssigned : report.parentsAssigned =
    (r.transitions s).countP fun t => t.before.parent ≠ t.after.parent
  discriminatorsRequired : report.discriminatorsRequired =
    ((r.transitions s).map (·.flippedFlags.length)).sum
  sum_counters : report.importsRemoved + report.parentsAssigned + report.discriminatorsRequired =
    report.changes.length

end Report

namespace Registry

theorem changes_runPasses_eq_difference (r : Registry) (o : Options) :
    (r.runPasses o).changes = r.difference (r.mapModels (Model.processed o)) := by
  rw [changes_runPasses, difference, transitions_mapModels, List.flatMap_map, List.flatMap_map]
  simp only [Transition.importChanges_processed, Transition.hierarchyChanges_processed]

theorem changes_runPasses_eq_nil (r : Registry) (o : Options) :
    (r.runPasses o).changes = [] ↔ r.mapModels (Model.processed o) = r := by
  rw [changes_runPasses, mapModels_eq_self (Model.keepsNames_processed o), List.append_eq_nil_iff,
    List.flatMap_eq_nil_iff, List.flatMap_eq_nil_iff]
  simp only [Transition.importChanges_processed, Transition.hierarchyChanges_processed,
    ← Transition.changes_processed_eq_nil_iff]
  exact forall₂_and.symm

/-- Whatever the registry and the options, a run that succeeds reports every import that is lost,
every parent that is assigned and every flag that is flipped, and nothing else. -/
theorem postProcess_accountsFor {r : Registry} {o : Options} {report : Report}
    (h : (r.postProcess o).result = .ok report) :
    report.AccountsFor r (r.postProcess o).registry := by
  obtain ⟨hs, rfl⟩ := postProcess_eq_ok h
  rw [hs]
  have hchanges := r.changes_runPasses_eq_difference o
  have hsome : ∀ t ∈ r.transitions (r.mapModels (Model.processed o)),
      t.before.parent ≠ t.after.parent → t.after.parent.isSome = true := by
    rw [transitions_mapModels]
    rintro t ht hne
    obtain ⟨e, -, rfl⟩ := List.mem_map.mp ht
    exact Model.isSome_parent_resolved hne
  have hflags : ∀ t ∈ r.transitions (r.mapModels (Model.processed o)),
      t.flippedFlags.length ≤ 1 := by
    rw [transitions_mapModels]
    rintro t ht
    obtain ⟨e, -, rfl⟩ := List.mem_map.mp ht
    exact Model.length_flippedFlags_resolved_le_one e.1.unit
      (e.2.withoutImports (o.drops e.1))
  exact {
    outline := outline_mapModels (Model.keepsNames_processed o) r
    changes := hchanges
    isSome_parent := hsome
    length_flippedFlags := hflags
    changes_eq_nil := r.changes_runPasses_eq_nil o
    importsRemoved := Report.importsRemoved_of_difference hchanges
    parentsAssigned := Report.parentsAssigned_of_difference hchanges hsome
    discriminatorsRequired := Report.discriminatorsRequired_of_difference hchanges
    sum_counters := Report.sum_counters _ }

end Registry

/-- Two models of one name, each with two properties of one name, one of them with its parent
already; and a model in another unit whose discriminator dangles. -/
def petshop : Registry :=
  let dog : Model := {
    name := "Dog"
    properties := [{ name := "kind" }, { name := "kind" }]
    imports := .ofList [" Dog ", "pets.Dog", "dart:core"]
    composedBases := ["Animal", "Named"]
    parent := some "Pet"
    discriminator := some ⟨"kind"⟩ }
  ((Registry.empty.insert "pets" dog).insert "pets" { dog with parent := some "Animal" }).insert
    "owners" {
      name := "Owner"
      imports := .ofList ["Dog", "Owner"]
      discriminator := some ⟨"species"⟩ }

def petshopReport : Report where
  changes := [⟨"owners", "Owner", .importRemoved "Owner"⟩,
    ⟨"pets", "Dog", .importRemoved " Dog "⟩, ⟨"pets", "Dog", .importRemoved "pets.Dog"⟩,
    ⟨"pets", "Dog", .importRemoved " Dog "⟩, ⟨"pets", "Dog", .importRemoved "pets.Dog"⟩,
    ⟨"pets", "Dog", .parentAssigned "Animal"⟩, ⟨"pets", "Dog", .discriminatorRequired "kind"⟩,
    ⟨"pets", "Dog", .discriminatorRequired "kind"⟩]
  diagnostics := [⟨"owners", "Owner", .danglingDiscriminator "species"⟩,
    ⟨"pets", "Dog", .basesDropped ["Named"]⟩, ⟨"pets", "Dog", .basesDropped ["Named"]⟩]

theorem postProcess_accountsFor_petshop :
    (petshop.postProcess {}).result = .ok petshopReport ∧
      petshopReport.AccountsFor petshop (petshop.postProcess {}).registry :=
  ⟨rfl, Registry.postProcess_accountsFor rfl⟩

end ModelRegistry
