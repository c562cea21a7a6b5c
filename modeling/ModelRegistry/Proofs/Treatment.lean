import ModelRegistry.Proofs.Findings

/-!
# The treatment of one model

A run visits every model twice, once in each pass. The treatment of a model is what the two visits
make of it and what they record: the imports that are removed, what resolving changes, and what it
finds. The changes of a report are the removals of all treatments and then their resolutions, model
by model. Every record carries the names of the unit and of the model, so what a report says under
two names, or of a unit, is what was recorded of the models that bear them.
-/

namespace ModelRegistry

theorem flatMap_eq_flatMap_filter {α β : Type} {l : List α} {p : α → Bool} {f g : α → List β}
    (hkeep : ∀ a ∈ l, p a = true → f a = g a) (hskip : ∀ a ∈ l, p a = false → f a = []) :
    l.flatMap f = (l.filter p).flatMap g := by
  induction l with
  | nil => rfl
  | cons a l ih =>
    obtain ⟨hkeep, hkeeps⟩ := List.forall_mem_cons.mp hkeep
    obtain ⟨hskip, hskips⟩ := List.forall_mem_cons.mp hskip
    rw [List.flatMap_cons, List.filter_cons, ih hkeeps hskips]
    cases hp : p a with
    | true => rw [hkeep hp, if_pos rfl, List.flatMap_cons]
    | false => rw [hskip hp, List.nil_append, if_neg Bool.false_ne_true]

/-- Where a property of what is collected tells a property of what it is collected from, selecting
by the one is selecting by the other. -/
theorem filter_flatMap_of_forall {α β : Type} {l : List α} {g : α → List β} {p : α → Bool}
    {q : β → Bool} (h : ∀ a ∈ l, ∀ b ∈ g a, q b = p a) :
    (l.flatMap g).filter q = (l.filter p).flatMap g := by
  rw [List.filter_flatMap]
  refine flatMap_eq_flatMap_filter (fun a ha hp => ?_) (fun a ha hp => ?_)
  · exact List.filter_eq_self.mpr fun b hb => (h a ha b hb).trans hp
  · exact List.filter_eq_nil_iff.mpr fun b hb => by simp [h a ha b hb, hp]

/-- What a run makes of a model and records of it. -/
structure Treatment where
  before : Model
  after : Model
  removals : List Change
  resolutions : List Change
  diagnostics : List Diagnostic

namespace Treatment

def changes (t : Treatment) : List Change :=
  t.removals ++ t.resolutions

end Treatment

namespace Located

variable {κ : Type}

/-- A statement about the models of one name in one unit. -/
def isAbout (unit model : String) (l : Located κ) : Bool :=
  l.unit = unit ∧ l.model = model

theorem isAbout_iff {unit model : String} {l : Located κ} :
    l.isAbout unit model = true ↔ l.unit = unit ∧ l.model = model :=
  decide_eq_true_iff

end Located

namespace Model

variable (o : Options) (p : Place) (m : Model)

def treatment : Treatment :=
  let filtered := (Pass.filterImports o).visit p m
  let resolved := Pass.resolveHierarchy.visit p filtered.value
  { before := m
    after := resolved.value
    removals := filtered.changes
    resolutions := resolved.changes
    diagnostics := resolved.diagnostics }

theorem after_treatment : (m.treatment o p).after = m.processed o p :=
  Pass.apply_resolveHierarchy p _

theorem removals_treatment :
    (m.treatment o p).removals =
      (m.imports.names.filter (o.drops p)).map fun name =>
        ⟨p.unit, m.name, .importRemoved name⟩ :=
  m.changes_dropImports (o.drops p) p.unit

theorem resolutions_treatment :
    (m.treatment o p).resolutions =
      (Transition.mk p.unit (m.withoutImports (o.drops p)) (m.processed o p)).hierarchyChanges :=
  (m.withoutImports (o.drops p)).changes_resolve p.unit

theorem diagnostics_treatment : (m.treatment o p).diagnostics = m.findings p.unit :=
  (m.withoutImports (o.drops p)).diagnostics_resolve p.unit

/-- Every change that is recorded of a model is about its names. -/
theorem isAbout_of_mem_changes {c : Change} (h : c ∈ (m.treatment o p).changes) :
    c.isAbout p.unit m.name = true := by
  rw [Located.isAbout_iff]
  rcases List.mem_append.mp h with h | h
  · rw [removals_treatment] at h
    obtain ⟨name, -, rfl⟩ := List.mem_map.mp h
    exact ⟨rfl, rfl⟩
  · rw [resolutions_treatment] at h
    exact Transition.change_of_mem_hierarchyChanges h

theorem isAbout_of_mem_diagnostics {d : Diagnostic} (h : d ∈ (m.treatment o p).diagnostics) :
    d.isAbout p.unit m.name = true := by
  rw [diagnostics_treatment] at h
  obtain ⟨what, -, rfl⟩ := List.mem_map.mp h
  exact Located.isAbout_iff.mpr ⟨rfl, rfl⟩

end Model

namespace Registry

variable (r : Registry) (o : Options)

theorem changes_runPasses_eq_treatments :
    (r.runPasses o).changes =
      (r.members.flatMap fun e => (e.2.treatment o e.1).removals) ++
        r.members.flatMap fun e => (e.2.treatment o e.1).resolutions :=
  r.changes_runPasses o

theorem diagnostics_runPasses_eq_treatments :
    (r.runPasses o).diagnostics = r.members.flatMap fun e => (e.2.treatment o e.1).diagnostics :=
  r.diagnostics_runPasses o

/-- The members that bear the names. -/
def named (unit model : String) : List (Place × Model) :=
  r.members.filter fun e => e.1.unit = unit ∧ e.2.name = model

/-- The members of one unit. -/
def membersOf (unit : String) : List (Place × Model) :=
  r.members.filter fun e => e.1.unit = unit

section Selection

variable {r : Registry} {o : Options} {p : Place × Model → Bool}

/-- Changes that are selected by what they tell of the model are those of the models selected. -/
theorem filter_changes_of_forall {q : Change → Bool}
    (h : ∀ e ∈ r.members, ∀ c ∈ (e.2.treatment o e.1).changes, q c = p e) :
    (r.runPasses o).changes.filter q =
      ((r.members.filter p).flatMap fun e => (e.2.treatment o e.1).removals) ++
        (r.members.filter p).flatMap fun e => (e.2.treatment o e.1).resolutions := by
  rw [changes_runPasses_eq_treatments, List.filter_append]
  congr 1
  · exact filter_flatMap_of_forall fun e he c hc => h e he c (List.mem_append_left _ hc)
  · exact filter_flatMap_of_forall fun e he c hc => h e he c (List.mem_append_right _ hc)

theorem filter_diagnostics_of_forall {q : Diagnostic → Bool}
    (h : ∀ e ∈ r.members, ∀ d ∈ (e.2.treatment o e.1).diagnostics, q d = p e) :
    (r.runPasses o).diagnostics.filter q =
      (r.members.filter p).flatMap fun e => (e.2.treatment o e.1).diagnostics := by
  rw [diagnostics_runPasses_eq_treatments]
  exact filter_flatMap_of_forall h

end Selection

/-- The changes that a run reports under two names. -/
theorem filter_changes_runPasses (unit model : String) :
    (r.runPasses o).changes.filter (·.isAbout unit model) =
      ((r.named unit model).flatMap fun e => (e.2.treatment o e.1).removals) ++
        (r.named unit model).flatMap fun e => (e.2.treatment o e.1).resolutions := by
  refine filter_changes_of_forall fun e _ c hc => ?_
  obtain ⟨hunit, hmodel⟩ := Located.isAbout_iff.mp (e.2.isAbout_of_mem_changes o e.1 hc)
  rw [Located.isAbout, hunit, hmodel]

/-- The diagnostics that a run reports under two names. -/
theorem filter_diagnostics_runPasses (unit model : String) :
    (r.runPasses o).diagnostics.filter (·.isAbout unit model) =
      (r.named unit model).flatMap fun e => (e.2.treatment o e.1).diagnostics := by
  refine filter_diagnostics_of_forall fun e _ d hd => ?_
  obtain ⟨hunit, hmodel⟩ := Located.isAbout_iff.mp (e.2.isAbout_of_mem_diagnostics o e.1 hd)
  rw [Located.isAbout, hunit, hmodel]

/-- The changes that a run reports of a unit. -/
theorem filter_unit_changes_runPasses (unit : String) :
    (r.runPasses o).changes.filter (·.unit = unit) =
      ((r.membersOf unit).flatMap fun e => (e.2.treatment o e.1).removals) ++
        (r.membersOf unit).flatMap fun e => (e.2.treatment o e.1).resolutions := by
  refine filter_changes_of_forall fun e _ c hc => ?_
  rw [(Located.isAbout_iff.mp (e.2.isAbout_of_mem_changes o e.1 hc)).1]

/-- The diagnostics that a run reports of a unit. -/
theorem filter_unit_diagnostics_runPasses (unit : String) :
    (r.runPasses o).diagnostics.filter (·.unit = unit) =
      (r.membersOf unit).flatMap fun e => (e.2.treatment o e.1).diagnostics := by
  refine filter_diagnostics_of_forall fun e _ d hd => ?_
  rw [(Located.isAbout_iff.mp (e.2.isAbout_of_mem_diagnostics o e.1 hd)).1]

end Registry

end ModelRegistry
