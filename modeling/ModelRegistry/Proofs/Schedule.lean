import Mathlib.Data.List.Nodup
import Mathlib.Data.List.Perm.Basic
import ModelRegistry.Proofs.Difference

/-!
# Schedules of passes

A schedule runs any passes, in any order and any number of times, on one registry and merges what
they report. No pass changes what another one decides by, so a model ends up without the imports
that some filter of the schedule drops, and resolved if the schedule resolves at all: the order of
the passes and their repetitions do not matter. Over the whole schedule a model contributes every
change to the report once.
-/

namespace ModelRegistry

/-- A registry in the course of a schedule, and the report so far. -/
structure Progress where
  registry : Registry
  report : Report

namespace Pass

def step (s : Progress) (q : Pass) : Progress :=
  let x := q.run s.registry
  ⟨x.value, s.report ++ Report.ofNotes x.log⟩

/-- Which imports a pass drops from the models of a place. -/
def drops : Pass → Place → String → Bool
  | filterImports o, p => o.drops p
  | resolveHierarchy, _ => fun _ => false

/-- The changes that a pass notes, model by model. -/
def contributions (q : Pass) (r : Registry) : List (List Change) :=
  r.members.map fun e => (q.visit e.1 e.2).changes

end Pass

abbrev Schedule := List Pass

namespace Schedule

def run (S : Schedule) (r : Registry) : Progress :=
  S.foldl Pass.step ⟨r, .empty⟩

/-- The changes that each model contributes over a whole schedule, in the order of the models. -/
def contributions : Schedule → Registry → List (List Change)
  | [], r => r.members.map fun _ => []
  | q :: S, r => List.zipWith (· ++ ·) (q.contributions r) (contributions S (q.run r).value)

def drops (S : Schedule) (p : Place) (name : String) : Bool :=
  S.any fun q => q.drops p name

/-- What a schedule makes of a model. -/
def settled (S : Schedule) (p : Place) (m : Model) : Model :=
  if .resolveHierarchy ∈ S then (m.withoutImports (S.drops p)).resolved
  else m.withoutImports (S.drops p)

end Schedule

namespace Model

theorem withoutImports_withoutImports (drops drops' : String → Bool) (m : Model) :
    (m.withoutImports drops).withoutImports drops' =
      m.withoutImports fun name => drops name || drops' name := by
  have hnames : (m.imports.filter fun name => !drops name).filter (fun name => !drops' name) =
      m.imports.filter fun name => !(drops name || drops' name) := by
    apply NameSet.ext
    simp only [NameSet.filter, List.filter_filter, Bool.not_or, Bool.and_comm]
  simp only [withoutImports, hnames]

theorem withoutImports_false (m : Model) : m.withoutImports (fun _ => false) = m := by
  have hnames : m.imports.filter (fun _ => !false) = m.imports :=
    NameSet.ext (List.filter_eq_self.mpr fun _ _ => rfl)
  rw [withoutImports, hnames]

theorem requiredProperties_resolved (m : Model) :
    m.resolved.requiredProperties = m.requiredProperties := by
  cases hd : m.discriminator with
  | none =>
    rw [requiredProperties, show m.resolved.discriminator = none from hd]
    rfl
  | some d =>
    rw [requiredProperties_of_discriminator (m := m.resolved) hd, resolved,
      requiredProperties_of_discriminator hd]
    exact modifyFirst_modifyFirst (f := Property.require) (fun _ => rfl) (fun _ => rfl) _

/-- Resolving a second time changes nothing. -/
theorem resolved_resolved (m : Model) : m.resolved.resolved = m.resolved := by
  have hparent : m.composedBases.head?.or (m.composedBases.head?.or m.parent) =
      m.composedBases.head?.or m.parent := by
    rw [← Option.or_assoc, Option.or_self]
  rw [resolved, requiredProperties_resolved]
  simp only [resolved, hparent]

end Model

namespace Schedule

variable (S : Schedule) (r : Registry) (p : Place) (m : Model)

theorem drops_cons (q : Pass) :
    drops (q :: S) p = fun name => q.drops p name || S.drops p name :=
  funext fun _ => List.any_cons

theorem drops_congr {S T : Schedule} (h : ∀ q, q ∈ S ↔ q ∈ T) (p : Place) :
    S.drops p = T.drops p := by
  funext name
  rw [Bool.eq_iff_iff, drops, drops, List.any_eq_true, List.any_eq_true]
  simp only [h]

theorem settled_nil : settled [] p m = m := by
  simp only [settled, List.not_mem_nil, if_false]
  exact m.withoutImports_false

theorem settled_cons (q : Pass) : settled (q :: S) p m = S.settled p (q.apply p m) := by
  cases q with
  | filterImports o =>
    simp only [settled, List.mem_cons, reduceCtorEq, false_or, drops_cons, Pass.apply_filterImports,
      Model.withoutImports_withoutImports]
    rfl
  | resolveHierarchy =>
    have hcomm : (m.resolved.withoutImports (S.drops p)) =
        (m.withoutImports (S.drops p)).resolved := rfl
    simp only [settled, List.mem_cons, true_or, if_true, drops_cons, Pass.apply_resolveHierarchy,
      hcomm, Model.resolved_resolved, ite_self]
    rfl

theorem settled_congr {S T : Schedule} (h : ∀ q, q ∈ S ↔ q ∈ T) : S.settled = T.settled := by
  funext p m
  simp only [settled, h, drops_congr h]

theorem registry_foldl (s : Progress) :
    (S.foldl Pass.step s).registry = s.registry.mapModels S.settled := by
  induction S generalizing s with
  | nil =>
    refine s.registry.mapModels_id.symm.trans (Registry.mapModels_congr fun e _ => ?_)
    exact (settled_nil e.1 e.2).symm
  | cons q S ih =>
    rw [List.foldl_cons, ih]
    simp only [Pass.step]
    rw [Pass.value_run, Registry.mapModels_mapModels q.keepsNames_apply]
    exact Registry.mapModels_congr fun e _ => (settled_cons S e.1 e.2 q).symm

theorem registry_run : (S.run r).registry = r.mapModels S.settled :=
  S.registry_foldl _

/-- The changes that one model contributes over a schedule. -/
def contribution : Schedule → Place → Model → List Change
  | [], _, _ => []
  | q :: S, p, m => (q.visit p m).changes ++ contribution S p (q.apply p m)

theorem contributions_eq_map :
    S.contributions r = r.members.map fun e => S.contribution e.1 e.2 := by
  induction S generalizing r with
  | nil => rfl
  | cons q S ih =>
    rw [contributions, ih, Pass.contributions, Pass.value_run,
      Registry.members_mapModels q.keepsNames_apply, List.map_map, List.zipWith_map,
      List.zipWith_self]
    rfl

theorem flatten_contributions :
    (S.contributions r).flatten = r.members.flatMap fun e => S.contribution e.1 e.2 := by
  rw [contributions_eq_map, List.flatMap_def]

/-- What the passes report is what the models contribute. -/
theorem changes_foldl (s : Progress) :
    (S.foldl Pass.step s).report.changes.Perm
      (s.report.changes ++ (S.contributions s.registry).flatten) := by
  induction S generalizing s with
  | nil => simp [contributions]
  | cons q S ih =>
    have hhead : (q.step s).report.changes =
        s.report.changes ++ s.registry.members.flatMap fun e => (q.visit e.1 e.2).changes := by
      rw [← Pass.changes_run]
      rfl
    have htail : (contributions S (q.step s).registry).flatten =
        s.registry.members.flatMap fun e => contribution S e.1 (q.apply e.1 e.2) := by
      rw [flatten_contributions, Pass.step, Pass.value_run,
        Registry.members_mapModels q.keepsNames_apply, List.flatMap_map]
    refine (ih _).trans ?_
    rw [hhead, htail, flatten_contributions, List.append_assoc]
    exact (List.flatMap_append_perm ..).append_left _

theorem changes_run :
    (S.run r).report.changes.Perm (r.members.flatMap fun e => S.contribution e.1 e.2) := by
  rw [← flatten_contributions]
  exact S.changes_foldl _

/-- The changes that a filter notes of a model. -/
def removals (drops : String → Bool) (p : Place) (m : Model) : List Change :=
  (m.imports.names.filter drops).map fun name => ⟨p.unit, m.name, .importRemoved name⟩

theorem filter_append_filter_perm {α : Type} (p q : α → Bool) (l : List α) :
    (l.filter p ++ (l.filter fun a => !p a).filter q).Perm (l.filter fun a => p a || q a) := by
  have hsplit := List.filter_append_perm p (l.filter fun a => p a || q a)
  have hfirst : ∀ a ∈ l, (p a && (p a || q a)) = p a := fun a _ => by cases p a <;> simp
  have hrest : ∀ a ∈ l, (!p a && (p a || q a)) = (q a && !p a) := fun a _ => by
    cases p a <;> simp
  rwa [List.filter_filter, List.filter_filter, List.filter_congr hfirst, List.filter_congr hrest,
    ← List.filter_filter] at hsplit

theorem removals_append_perm (drops drops' : String → Bool) :
    (removals drops p m ++ removals drops' p (m.withoutImports drops)).Perm
      (removals (fun name => drops name || drops' name) p m) := by
  have hperm := (filter_append_filter_perm drops drops' m.imports.names).map fun name =>
    (⟨p.unit, m.name, .importRemoved name⟩ : Change)
  rwa [List.map_append] at hperm

/-- Over a schedule, a model contributes the removal of each import that some filter drops, and what
resolving it changes if the schedule resolves. -/
theorem contribution_perm :
    (S.contribution p m).Perm (removals (S.drops p) p m ++
      if .resolveHierarchy ∈ S then (Transition.mk p.unit m m.resolved).hierarchyChanges
      else []) := by
  induction S generalizing m with
  | nil => simp [contribution, removals, drops]
  | cons q S ih =>
    rw [contribution, drops_cons]
    refine ((ih _).append_left _).trans ?_
    cases q with
    | filterImports o =>
      have hhead : ((Pass.filterImports o).visit p m).changes = removals (o.drops p) p m :=
        m.changes_dropImports (o.drops p) p.unit
      rw [hhead, Pass.apply_filterImports, ← List.append_assoc]
      simp only [List.mem_cons, reduceCtorEq, false_or]
      exact (removals_append_perm p m ..).append_right _
    | resolveHierarchy =>
      have hhead : (Pass.resolveHierarchy.visit p m).changes =
          (Transition.mk p.unit m m.resolved).hierarchyChanges := m.changes_resolve p.unit
      rw [hhead, Pass.apply_resolveHierarchy, Model.resolved_resolved,
        Transition.hierarchyChanges_self, ite_self, List.append_nil]
      simp only [List.mem_cons, true_or, if_true]
      exact List.perm_append_comm

/-- What one model contributes: changes of this model alone, the removal of no import twice, and at
most one parent and one flag. -/
structure ContributesOnce (unit : String) (m : Model) (cs : List Change) : Prop where
  located : ∀ c ∈ cs, c.unit = unit ∧ c.model = m.name
  imports : (cs.filter (·.what.ofImport)).Nodup
  parents : cs.countP (·.what.ofParent) ≤ 1
  flags : cs.countP (·.what.ofFlag) ≤ 1

theorem ContributesOnce.of_perm {unit : String} {m : Model} {cs ds : List Change}
    (h : ContributesOnce unit m ds) (hperm : cs.Perm ds) : ContributesOnce unit m cs where
  located c hc := h.located c (hperm.mem_iff.mp hc)
  imports := (hperm.filter _).nodup_iff.mpr h.imports
  parents := by
    rw [hperm.countP_eq]
    exact h.parents
  flags := by
    rw [hperm.countP_eq]
    exact h.flags

theorem nodup_removals (drops : String → Bool) : (removals drops p m).Nodup := by
  refine List.Nodup.map (fun name name' h => ?_) (m.imports.nodup_names.filter drops)
  simpa using h

theorem contributesOnce_hierarchyChanges (unit : String) (m : Model) :
    ContributesOnce unit m (Transition.mk unit m m.resolved).hierarchyChanges where
  located c hc := Transition.change_of_mem_hierarchyChanges hc
  imports := by
    have hnone := Transition.countP_ofImport_hierarchyChanges ⟨unit, m, m.resolved⟩
    rw [List.filter_eq_nil_iff.mpr (List.countP_eq_zero.mp hnone)]
    exact List.nodup_nil
  parents := by
    rw [Transition.countP_ofParent_hierarchyChanges _ Model.isSome_parent_resolved]
    split <;> decide
  flags := by
    rw [Transition.countP_ofFlag_hierarchyChanges]
    exact m.length_flippedFlags_resolved_le_one unit

theorem contributesOnce_removals_append (drops : String → Bool) {cs : List Change}
    (h : ContributesOnce p.unit m cs) (hnone : cs.countP (·.what.ofImport) = 0) :
    ContributesOnce p.unit m (removals drops p m ++ cs) where
  located c hc := by
    rcases List.mem_append.mp hc with hc | hc
    · obtain ⟨name, -, rfl⟩ := List.mem_map.mp hc
      exact ⟨rfl, rfl⟩
    · exact h.located c hc
  imports := by
    rw [List.filter_append, List.filter_eq_nil_iff.mpr (List.countP_eq_zero.mp hnone),
      List.append_nil]
    exact (nodup_removals p m drops).filter _
  parents := by
    have hremovals : (removals drops p m).countP (·.what.ofParent) = 0 := by
      simp [removals, List.countP_map, Function.comp_def, ChangeKind.ofParent]
    rw [List.countP_append, hremovals, Nat.zero_add]
    exact h.parents
  flags := by
    have hremovals : (removals drops p m).countP (·.what.ofFlag) = 0 := by
      simp [removals, List.countP_map, Function.comp_def, ChangeKind.ofFlag]
    rw [List.countP_append, hremovals, Nat.zero_add]
    exact h.flags

theorem contributesOnce_contribution :
    ContributesOnce p.unit m (S.contribution p m) := by
  refine ContributesOnce.of_perm ?_ (S.contribution_perm p m)
  split
  · exact contributesOnce_removals_append p m _ (contributesOnce_hierarchyChanges p.unit m)
      (Transition.countP_ofImport_hierarchyChanges _)
  · exact contributesOnce_removals_append p m _
      ⟨by simp, List.nodup_nil, Nat.zero_le 1, Nat.zero_le 1⟩ rfl

theorem drops_eq_of_filters {S : Schedule} {o : Options}
    (hsame : ∀ o', .filterImports o' ∈ S → o' = o) (hfilter : .filterImports o ∈ S) (p : Place) :
    S.drops p = o.drops p := by
  funext name
  rw [Bool.eq_iff_iff, drops, List.any_eq_true]
  constructor
  · rintro ⟨q, hq, hdrops⟩
    cases q with
    | filterImports o' => exact hsame o' hq ▸ hdrops
    | resolveHierarchy => cases hdrops
  · intro hdrops
    exact ⟨.filterImports o, hfilter, hdrops⟩

theorem settled_eq_processed {S : Schedule} {o : Options}
    (hsame : ∀ o', .filterImports o' ∈ S → o' = o) (hfilter : .filterImports o ∈ S)
    (hresolve : .resolveHierarchy ∈ S) : S.settled = Model.processed o := by
  funext p m
  rw [settled, if_pos hresolve, drops_eq_of_filters hsame hfilter]
  rfl

theorem changes_run_perm_runPasses {S : Schedule} {o : Options}
    (hsame : ∀ o', .filterImports o' ∈ S → o' = o) (hfilter : .filterImports o ∈ S)
    (hresolve : .resolveHierarchy ∈ S) (r : Registry) :
    (S.run r).report.changes.Perm (r.runPasses o).changes := by
  have hmember : ∀ e ∈ r.members, (S.contribution e.1 e.2).Perm
      ((e.2.dropImports (o.drops e.1) e.1.unit).changes ++
        ((e.2.withoutImports (o.drops e.1)).resolve e.1.unit).changes) := by
    intro e _
    refine (S.contribution_perm e.1 e.2).trans ?_
    rw [if_pos hresolve, drops_eq_of_filters hsame hfilter, Model.changes_dropImports,
      Model.changes_resolve]
    exact .rfl
  refine (S.changes_run r).trans ((List.Perm.flatMap_left _ hmember).trans ?_)
  rw [Registry.changes_runPasses]
  exact (List.flatMap_append_perm ..).symm

/-- What a schedule makes of a registry is told by which passes occur in it; no model contributes a
change twice; and a schedule that resolves, and filters with one choice of options, makes of the
registry what post-processing makes of it, with the same changes in some order. -/
theorem run_determined_by_passes (S : Schedule) (r : Registry) :
    (∀ T : Schedule, (∀ q, q ∈ T ↔ q ∈ S) → (T.run r).registry = (S.run r).registry) ∧
    ((S.run r).report.changes.Perm (S.contributions r).flatten ∧
      List.Forall₂ (fun e cs => ContributesOnce e.1 e.2 cs) r.models (S.contributions r)) ∧
    ∀ o, (∀ o', .filterImports o' ∈ S → o' = o) → .filterImports o ∈ S → .resolveHierarchy ∈ S →
      (S.run r).registry = (r.postProcess { o with strict := false }).registry ∧
      ∃ report, (r.postProcess { o with strict := false }).result = .ok report ∧
        (S.run r).report.changes.Perm report.changes := by
  refine ⟨fun T h => ?_, ⟨S.changes_foldl ⟨r, .empty⟩, ?_⟩, fun o hsame hfilter hresolve => ?_⟩
  · rw [registry_run, registry_run, settled_congr h]
  · rw [contributions_eq_map, Registry.models_eq_map_members, List.forall₂_map_left_iff,
      List.forall₂_map_right_iff, List.forall₂_same]
    exact fun e _ => S.contributesOnce_contribution e.1 e.2
  · have hok := r.result_postProcess_of_not_strict (o := { o with strict := false }) rfl
    refine ⟨?_, _, hok, changes_run_perm_runPasses hsame hfilter hresolve r⟩
    rw [(Registry.postProcess_eq_ok hok).1, registry_run,
      settled_eq_processed hsame hfilter hresolve]
    rfl

theorem run_determined_by_passes_petshop :
    let S : Schedule := [.resolveHierarchy, .filterImports {}, .resolveHierarchy,
      .filterImports {}]
    let T : Schedule := [.filterImports {}, .resolveHierarchy]
    (∀ q, q ∈ T ↔ q ∈ S) ∧ (∀ o, .filterImports o ∈ S → o = {}) ∧
      (T.run petshop).registry = (S.run petshop).registry ∧
      (S.run petshop).registry = (petshop.postProcess {}).registry ∧
      (S.run petshop).report.changes.Perm petshopReport.changes := by
  intro S T
  have hsame : ∀ q, q ∈ T ↔ q ∈ S := by simp [S, T]; tauto
  have hfilters : ∀ o, .filterImports o ∈ S → o = {} := by simp [S]
  obtain ⟨hset, -, hpost⟩ := S.run_determined_by_passes petshop
  obtain ⟨hregistry, report, hreport, hperm⟩ := hpost {} hfilters (by simp [S]) (by simp [S])
  obtain rfl : petshopReport = report := Except.ok.inj hreport
  exact ⟨hsame, hfilters, hset T hsame, hregistry, hperm⟩

end Schedule

end ModelRegistry
