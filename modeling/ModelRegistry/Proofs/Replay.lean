import ModelRegistry.Proofs.Treatment

/-!
# Replaying a report

A change names its model and nothing else, so to redo it is to look the model up again. Where the
names of the models are distinct in every unit, the look-up finds the model that the pass has
changed, and replaying the changes of a report treats every model by those about it, in their order.
So a report is a sufficient log of its run: from the registry before it leads, step by step and with
no step in vain, to the registry after.
-/

namespace ModelRegistry

theorem modifyFirst_eq_map_of_nodup {α κ : Type} [DecidableEq κ] {key : α → κ} {l : List α}
    (h : (l.map key).Nodup) (k : κ) (f : α → α) :
    modifyFirst (fun a => key a = k) f l = l.map fun a => if key a = k then f a else a := by
  induction l with
  | nil => rfl
  | cons a l ih =>
    obtain ⟨hfresh, hrest⟩ := List.nodup_cons.mp h
    rw [modifyFirst, List.map_cons, ih hrest]
    by_cases ha : key a = k
    · have hself : (l.map fun b => if key b = k then f b else b) = l := by
        refine (List.map_congr_left fun b hb => if_neg fun hk => ?_).trans l.map_id
        exact hfresh (List.mem_map.mpr ⟨b, hb, hk.trans ha.symm⟩)
      simp [ha, hself]
    · simp [ha]

/-- The steps `cs` lead from one state to another, and none of them leaves the state as it is. -/
inductive Leads {σ ε : Type} (step : σ → ε → σ) : σ → List ε → σ → Prop
  | nil (s : σ) : Leads step s [] s
  | cons {s s' : σ} {c : ε} {cs : List ε} (effective : step s c ≠ s)
      (rest : Leads step (step s c) cs s') : Leads step s (c :: cs) s'

namespace Leads

variable {σ ε : Type} {step : σ → ε → σ} {s s' s'' : σ} {cs ds : List ε}

theorem single {c : ε} (h : step s c ≠ s) : Leads step s [c] (step s c) :=
  .cons h (.nil _)

theorem append (h : Leads step s cs s') (h' : Leads step s' ds s'') :
    Leads step s (cs ++ ds) s'' := by
  induction h with
  | nil => exact h'
  | cons effective _ ih => exact .cons effective (ih h')

theorem foldl_eq (h : Leads step s cs s') : cs.foldl step s = s' := by
  induction h with
  | nil => rfl
  | cons _ _ ih => exact ih

theorem step_ne (h : Leads step s cs s') {before after : List ε} {c : ε}
    (hcs : cs = before ++ c :: after) : step (before.foldl step s) c ≠ before.foldl step s := by
  induction before generalizing s cs with
  | nil =>
    subst hcs
    cases h with
    | cons effective _ => exact effective
  | cons b before ih =>
    subst hcs
    cases h with
    | cons _ rest => exact ih rest rfl

end Leads

/-- What a change does to the model that it is about. -/
def ChangeKind.redo : ChangeKind → Model → Model
  | importRemoved name, m => { m with imports := m.imports.filter fun n => n ≠ name }
  | parentAssigned parent, m => { m with parent := some parent }
  | discriminatorRequired property, m => m.modifyProperty property Property.require

theorem ChangeKind.name_redo (what : ChangeKind) (m : Model) : (what.redo m).name = m.name := by
  cases what <;> rfl

namespace Model

def redo (m : Model) (c : Change) : Model :=
  c.what.redo m

def replay (m : Model) (cs : List Change) : Model :=
  cs.foldl redo m

variable {m : Model}

theorem leads_removals (unit model : String) {names : List String} {m : Model}
    (hnodup : names.Nodup) (hmem : ∀ name ∈ names, name ∈ m.imports) :
    Leads redo m (names.map fun name => ⟨unit, model, .importRemoved name⟩)
      { m with imports := m.imports.filter fun name => name ∉ names } := by
  induction names generalizing m with
  | nil =>
    have hkeep : m.imports.filter (fun name => name ∉ ([] : List String)) = m.imports :=
      NameSet.ext (List.filter_eq_self.mpr fun _ _ => by simp)
    rw [hkeep]
    exact .nil m
  | cons name names ih =>
    obtain ⟨hfresh, hrest⟩ := List.nodup_cons.mp hnodup
    obtain ⟨hname, hnames⟩ := List.forall_mem_cons.mp hmem
    have hfilter : (m.imports.filter fun n => n ≠ name).filter (fun n => n ∉ names) =
        m.imports.filter fun n => n ∉ name :: names := by
      apply NameSet.ext
      simp only [NameSet.filter, List.filter_filter]
      exact List.filter_congr fun n _ => by simp [Bool.and_comm]
    rw [← hfilter]
    refine .cons (fun heq => ?_) (ih hrest fun n hn => ?_)
    · have himports : (m.imports.filter fun n => n ≠ name) = m.imports := congrArg imports heq
      rw [← himports] at hname
      simp at hname
    · refine NameSet.mem_filter.mpr ⟨hnames n hn, ?_⟩
      simpa using fun heq : n = name => hfresh (heq ▸ hn)

theorem leads_removals_treatment (o : Options) (p : Place) (m : Model) :
    Leads redo m (m.treatment o p).removals (m.withoutImports (o.drops p)) := by
  have hkept : m.imports.filter (fun name => !o.drops p name) =
      m.imports.filter fun name => name ∉ m.imports.names.filter (o.drops p) := by
    refine NameSet.ext (List.filter_congr fun name hname => ?_)
    simp [hname]
  rw [removals_treatment, withoutImports, hkept]
  exact leads_removals _ _ (m.imports.nodup_names.filter _) fun name hname =>
    (List.mem_filter.mp hname).1

/-- If resolving changes the parent, it does so in one step. -/
theorem leads_parentChanges (unit : String) (m : Model) :
    Leads redo m (Transition.mk unit m m.resolved).parentChanges
      { m with parent := m.resolved.parent } := by
  by_cases h : m.parent = m.resolved.parent
  · rw [Transition.parentChanges, if_pos h, ← h]
    exact .nil m
  · obtain ⟨parent, hparent⟩ := Option.isSome_iff_exists.mp (isSome_parent_resolved h)
    rw [Transition.parentChanges, if_neg h, hparent]
    refine .single fun heq => h ?_
    exact (congrArg Model.parent heq).symm.trans hparent.symm

theorem modifyProperty_require_ne {property : Property}
    (h : m.property? property.name = some property) (hreq : property.required ≠ true) :
    m.modifyProperty property.name Property.require ≠ m := by
  intro heq
  have hfind := find?_modifyFirst (p := (·.name = property.name)) (f := Property.require)
    (fun _ => rfl) m.properties
  have hsame : modifyFirst (·.name = property.name) Property.require m.properties =
      m.properties := congrArg Model.properties heq
  have hfound : m.properties.find? (·.name = property.name) = some property := h
  rw [hsame, hfound, Option.map_some, Option.some.injEq] at hfind
  exact hreq (congrArg Property.required hfind)

/-- If resolving changes the flag of the discriminator property, it does so in one step. -/
theorem leads_flagChanges (unit : String) (m : Model) :
    Leads redo m (Transition.mk unit m m.resolved).flagChanges
      { m with properties := m.requiredProperties } := by
  rw [Transition.flagChanges, flippedFlags_resolved]
  by_cases h : ∀ p ∈ m.discriminatorProperty?, p.required = true
  · have hnone : (m.discriminatorProperty?.toList.filter fun p => !p.required) = [] := by
      simpa [List.filter_eq_nil_iff] using h
    rw [hnone, requiredProperties_eq_self h]
    exact .nil m
  · push Not at h
    obtain ⟨p, hp, hreq⟩ := h
    obtain ⟨d, hd, hfind⟩ := Option.bind_eq_some_iff.mp hp
    have hname : p.name = d.propertyName := by simpa using List.find?_some hfind
    have hflips : (m.discriminatorProperty?.toList.filter fun p => !p.required) = [p] := by
      rw [Option.mem_def.mp hp]
      simp [hreq]
    rw [hflips, requiredProperties_of_discriminator hd, ← hname]
    exact .single (modifyProperty_require_ne (hname ▸ hfind) hreq)

/-- The flag is looked up by the name of the property, so it is found under any parent. -/
theorem leads_hierarchyChanges (unit : String) (m : Model) :
    Leads redo m (Transition.mk unit m m.resolved).hierarchyChanges m.resolved :=
  (leads_parentChanges unit m).append
    (leads_flagChanges unit { m with parent := m.resolved.parent })

/-- The changes that are recorded of a model lead from the model before to the model after. -/
theorem leads_treatment (o : Options) (p : Place) (m : Model) :
    Leads redo m (m.treatment o p).changes (m.processed o p) := by
  refine (leads_removals_treatment o p m).append ?_
  rw [resolutions_treatment]
  exact leads_hierarchyChanges p.unit _

end Model

/-- A change of all models that redoes `c` at those it is about. -/
def Change.redoAt (c : Change) (p : Place) (m : Model) : Model :=
  if c.isAbout p.unit m.name then m.redo c else m

theorem Change.keepsNames_redoAt (c : Change) : KeepsNames c.redoAt := by
  intro p m
  rw [redoAt]
  split
  · exact c.what.name_redo m
  · rfl

namespace Registry

variable {r : Registry} {cs : List Change}

/-- No unit has two models of one name. -/
def HasDistinctNames (r : Registry) : Prop :=
  ∀ e ∈ r.units.entries, (e.2.models.map (·.name)).Nodup

instance (r : Registry) : Decidable r.HasDistinctNames :=
  inferInstanceAs (Decidable (∀ e ∈ r.units.entries, (e.2.models.map (·.name)).Nodup))

/-- Does what a change says, to the first model of its name. -/
def redo (r : Registry) (c : Change) : Registry :=
  r.modifyModel c.unit c.model c.what.redo

def replay (r : Registry) (cs : List Change) : Registry :=
  cs.foldl redo r

theorem hasDistinctNames_iff_outline :
    r.HasDistinctNames ↔ ∀ e ∈ r.outline, e.2.Nodup := by
  simp only [HasDistinctNames, outline, List.forall_mem_map]

theorem HasDistinctNames.mapModels {f : Place → Model → Model} (h : r.HasDistinctNames)
    (hf : KeepsNames f) : (r.mapModels f).HasDistinctNames := by
  rwa [hasDistinctNames_iff_outline, outline_mapModels hf, ← hasDistinctNames_iff_outline]

/-- Where names are distinct, the look-up finds just the model that is meant. -/
theorem redo_eq_mapModels (h : r.HasDistinctNames) (c : Change) :
    r.redo c = r.mapModels c.redoAt := by
  apply ext_entries
  refine List.map_congr_left fun e he => Prod.ext rfl ?_
  dsimp only
  -- In its own unit the change finds the model by its name, in any other it is about none.
  by_cases hunit : e.1 = c.unit
  · rw [if_pos hunit, modifyFirst_eq_map_of_nodup (h e he)]
    refine congrArg GenerationUnit.mk (List.map_congr_left fun m _ => ?_)
    simp [Change.redoAt, Located.isAbout, GenerationUnit.place, hunit, eq_comm, Model.redo]
  · have helsewhere : ∀ m ∈ e.2.models, c.redoAt (e.2.place e.1) m = m := fun m _ => by
      simp [Change.redoAt, Located.isAbout, GenerationUnit.place, Ne.symm hunit]
    rw [if_neg hunit, GenerationUnit.mapModels, List.map_congr_left helsewhere, List.map_id']

theorem nodup_names_members (h : r.HasDistinctNames) :
    (r.members.map fun e => (e.1.unit, e.2.name)).Nodup := by
  have hunits : r.units.entries.Pairwise fun d e => d.1 ≠ e.1 :=
    r.units.ascending.imp String.ne_of_lt
  simp only [members, List.map_flatMap, List.map_map]
  refine List.nodup_flatMap.mpr ⟨fun e he => ?_, hunits.imp fun {d e} hne => ?_⟩
  · have hpairs := (h e he).map (f := fun name => (e.1, name)) fun _ _ heq => (Prod.mk.inj heq).2
    rwa [List.map_map] at hpairs
  · intro key hd he
    obtain ⟨m, -, rfl⟩ := List.mem_map.mp hd
    obtain ⟨k, -, heq⟩ := List.mem_map.mp he
    exact hne (congrArg Prod.fst heq).symm

theorem named_eq_singleton (h : r.HasDistinctNames) {e : Place × Model} (he : e ∈ r.members) :
    r.named e.1.unit e.2.name = [e] := by
  have hsingle := filter_eq_singleton_of_nodup (nodup_names_members h) he
  simpa only [named, Prod.mk.injEq] using hsingle

theorem mapModels_replay_cons (r : Registry) (c : Change) (cs : List Change) :
    (r.mapModels fun p m => m.replay ((c :: cs).filter (·.isAbout p.unit m.name))) =
      (r.mapModels c.redoAt).mapModels fun p m =>
        m.replay (cs.filter (·.isAbout p.unit m.name)) := by
  rw [mapModels_mapModels c.keepsNames_redoAt]
  refine mapModels_congr fun e _ => ?_
  rw [c.keepsNames_redoAt, Change.redoAt, List.filter_cons]
  split
  · rfl
  · rfl

/-- If the changes about each model lead it on with no step in vain, so do all of them together: a
step changes the registry since it changes the model that it is about. -/
theorem leads_replay (h : r.HasDistinctNames)
    (hcs : ∀ c ∈ cs, ∃ e ∈ r.members, c.isAbout e.1.unit e.2.name = true)
    (hleads : ∀ e ∈ r.members, ∃ m, Leads Model.redo e.2
      (cs.filter (·.isAbout e.1.unit e.2.name)) m) :
    Leads redo r cs (r.mapModels fun p m => m.replay (cs.filter (·.isAbout p.unit m.name))) := by
  -- By induction on the log, for all registries at once: what is left of the log is replayed on
  -- models that have changed and kept their names, so it is about them as it was before.
  induction cs generalizing r with
  | nil =>
    have hself : (r.mapModels fun p m => m.replay (([] : List Change).filter
        (·.isAbout p.unit m.name))) = r := r.mapModels_id
    rw [hself]
    exact .nil r
  | cons c cs ih =>
    obtain ⟨⟨e, he, habout⟩, hrest⟩ := List.forall_mem_cons.mp hcs
    rw [mapModels_replay_cons, ← redo_eq_mapModels h]
    have hmembers : (r.redo c).members = r.members.map fun e => (e.1, c.redoAt e.1 e.2) := by
      rw [redo_eq_mapModels h, members_mapModels c.keepsNames_redoAt]
    refine .cons (fun heq => ?_) (ih ?_ ?_ ?_)
    · rw [redo_eq_mapModels h, mapModels_eq_self c.keepsNames_redoAt] at heq
      obtain ⟨m, hm⟩ := hleads e he
      rw [List.filter_cons_of_pos habout] at hm
      cases hm with
      | cons effective _ => exact effective (by simpa [Change.redoAt, habout] using heq e he)
    · rw [redo_eq_mapModels h]
      exact h.mapModels c.keepsNames_redoAt
    · intro d hd
      obtain ⟨e, he, habout⟩ := hrest d hd
      rw [hmembers]
      exact ⟨_, List.mem_map_of_mem he, by rwa [c.keepsNames_redoAt]⟩
    · rw [hmembers, List.forall_mem_map]
      intro e he
      obtain ⟨m, hm⟩ := hleads e he
      rw [c.keepsNames_redoAt, Change.redoAt]
      rw [List.filter_cons] at hm
      split at hm
      · next habout =>
        rw [if_pos habout]
        cases hm with
        | cons _ rest => exact ⟨m, rest⟩
      · next habout =>
        rw [if_neg habout]
        exact ⟨m, hm⟩

theorem filter_changes_of_hasDistinctNames (h : r.HasDistinctNames) (o : Options)
    {e : Place × Model} (he : e ∈ r.members) :
    (r.runPasses o).changes.filter (·.isAbout e.1.unit e.2.name) =
      (e.2.treatment o e.1).changes := by
  rw [filter_changes_runPasses, named_eq_singleton h he, List.flatMap_singleton,
    List.flatMap_singleton]
  rfl

theorem exists_member_of_mem_changes {o : Options} {c : Change}
    (hc : c ∈ (r.runPasses o).changes) :
    ∃ e ∈ r.members, c.isAbout e.1.unit e.2.name = true := by
  rw [changes_runPasses_eq_treatments, List.mem_append, List.mem_flatMap, List.mem_flatMap] at hc
  rcases hc with ⟨e, he, hc⟩ | ⟨e, he, hc⟩
  · exact ⟨e, he, e.2.isAbout_of_mem_changes o e.1 (List.mem_append_left _ hc)⟩
  · exact ⟨e, he, e.2.isAbout_of_mem_changes o e.1 (List.mem_append_right _ hc)⟩

/-- Where names are distinct, the changes of a report lead from the registry before the run to the
registry after it. -/
theorem leads_changes_runPasses (h : r.HasDistinctNames) (o : Options) :
    Leads redo r (r.runPasses o).changes (r.mapModels (Model.processed o)) := by
  have hown : ∀ e ∈ r.members, Leads Model.redo e.2
      ((r.runPasses o).changes.filter (·.isAbout e.1.unit e.2.name)) (e.2.processed o e.1) := by
    intro e he
    rw [filter_changes_of_hasDistinctNames h o he]
    exact e.2.leads_treatment o e.1
  have hmodels : r.mapModels (Model.processed o) = r.mapModels fun p m =>
      m.replay ((r.runPasses o).changes.filter (·.isAbout p.unit m.name)) :=
    mapModels_congr fun e he => (hown e he).foldl_eq.symm
  rw [hmodels]
  exact leads_replay h (fun _ => exists_member_of_mem_changes) fun e he => ⟨_, hown e he⟩

/-- Where names are distinct, replaying the changes of a report on the registry before the run gives
the registry after it, and no change is redone in vain. -/
theorem postProcess_replay {o : Options} {report : Report} (hnames : r.HasDistinctNames)
    (h : (r.postProcess o).result = .ok report) :
    r.replay report.changes = (r.postProcess o).registry ∧
      ∀ before c after, report.changes = before ++ c :: after →
        (r.replay before).redo c ≠ r.replay before := by
  obtain ⟨hs, rfl⟩ := postProcess_eq_ok h
  have hleads := leads_changes_runPasses hnames o
  rw [hs]
  exact ⟨hleads.foldl_eq, fun _ _ _ hsplit => hleads.step_ne hsplit⟩

end Registry

/-- Two siblings that import each other, and in another unit a model of the same name as one of
them whose first property of two is the discriminator already. -/
def menagerie : Registry :=
  let cat : Model := {
    name := "Cat"
    properties := [{ name := "kind" }, { name := "kind" }]
    imports := .ofList ["Dog", "pets.Cat", "dart:core"]
    composedBases := ["Animal", "Named"]
    parent := some "Pet"
    discriminator := some ⟨"kind"⟩ }
  ((Registry.empty.insert "pets" cat).insert "pets" { cat with name := "Dog" }).insert "lions" {
    cat with properties := [{ name := "kind", required := true }] }

def menagerieReport : Report where
  changes := [⟨"pets", "Cat", .importRemoved "Dog"⟩, ⟨"pets", "Cat", .importRemoved "pets.Cat"⟩,
    ⟨"pets", "Dog", .importRemoved "Dog"⟩, ⟨"pets", "Dog", .importRemoved "pets.Cat"⟩,
    ⟨"lions", "Cat", .parentAssigned "Animal"⟩,
    ⟨"pets", "Cat", .parentAssigned "Animal"⟩, ⟨"pets", "Cat", .discriminatorRequired "kind"⟩,
    ⟨"pets", "Dog", .parentAssigned "Animal"⟩, ⟨"pets", "Dog", .discriminatorRequired "kind"⟩]
  diagnostics := [⟨"lions", "Cat", .basesDropped ["Named"]⟩,
    ⟨"pets", "Cat", .basesDropped ["Named"]⟩, ⟨"pets", "Dog", .basesDropped ["Named"]⟩]

theorem postProcess_replay_menagerie :
    menagerie.HasDistinctNames ∧
      (menagerie.postProcess {}).result = .ok menagerieReport ∧
      menagerie.replay menagerieReport.changes = (menagerie.postProcess {}).registry ∧
      menagerie.redo ⟨"pets", "Cat", .importRemoved "Dog"⟩ ≠ menagerie := by
  have hnames : menagerie.HasDistinctNames := by decide
  have hok : (menagerie.postProcess {}).result = .ok menagerieReport := rfl
  obtain ⟨hreplay, heffective⟩ := Registry.postProcess_replay hnames hok
  exact ⟨hnames, hok, hreplay, heffective [] _ _ rfl⟩

-- Of two models of one name only the first is ever found.
example : (petshop.replay petshopReport.changes == (petshop.postProcess {}).registry) = false := rfl

end ModelRegistry
