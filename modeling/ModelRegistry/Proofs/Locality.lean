import ModelRegistry.Proofs.Treatment

/-!
# Locality

How a run treats a model is decided by the model itself, the name of its unit and the set of names
that the models of this unit have. Registries that agree on these treat the model alike, wherever
it stands: the same model comes out, and the same changes and findings are recorded of it. Other
units, the order of the siblings, how many of one name there are, and what else is in them have no
influence.
-/

namespace ModelRegistry

theorem lookup_map {α β : Type} (f : String → α → β) (key : String) (l : List (String × α)) :
    (l.map fun e => (e.1, f e.1 e.2)).lookup key = (l.lookup key).map (f key) := by
  induction l with
  | nil => rfl
  | cons e l ih =>
    rw [List.map_cons, List.lookup_cons, List.lookup_cons]
    split
    · next h => rw [eq_of_beq h]; rfl
    · exact ih

theorem NameMap.get?_map {α β : Type} (f : String → α → β) (m : NameMap α) (key : String) :
    (m.map f).get? key = (m.get? key).map (f key) :=
  lookup_map f key m.entries

theorem NameSet.mem_ofList {names : List String} {name : String} :
    name ∈ NameSet.ofList names ↔ name ∈ names := by
  have hfold (s : NameSet) : name ∈ names.foldl NameSet.insert s ↔ name ∈ names ∨ name ∈ s := by
    induction names generalizing s with
    | nil => simp
    | cons n names ih => rw [List.foldl_cons, ih, NameSet.mem_insert, List.mem_cons]; tauto
  rw [NameSet.ofList, hfold]
  exact or_iff_left (List.not_mem_nil (a := name))

/-- The same unit, with the same names in it, in any order and number. -/
structure Place.Similar (p q : Place) : Prop where
  unit : p.unit = q.unit
  names : ∀ name, name ∈ p.names ↔ name ∈ q.names

namespace Place.Similar

variable {p q : Place}

theorem contains_map {α : Type} [DecidableEq α] (h : p.Similar q) (f : String → α) (a : α) :
    (p.names.map f).contains a = (q.names.map f).contains a := by
  rw [Bool.eq_iff_iff, List.contains_iff_mem, List.contains_iff_mem]
  simp only [List.mem_map, h.names]

/-- All that is asked of the siblings is whether a text is one of their names or stems. -/
theorem owns_siblings (h : p.Similar q) (pathPrefix : Option String) (text : String) :
    (p.siblings pathPrefix).owns text = (q.siblings pathPrefix).owns text := by
  have hnames (name : String) : p.names.contains name = q.names.contains name := by
    simpa only [List.map_id] using h.contains_map id name
  have hstems (stem : String) := h.contains_map Text.snakeCase stem
  simp only [Siblings.owns, Siblings.underPrefix?, Siblings.ownsFile, Siblings.ownsName,
    siblings, h.unit, hnames, hstems]

theorem drops (h : p.Similar q) (o : Options) : o.drops p = o.drops q := by
  funext text
  rw [Options.drops, Options.drops]
  cases o.importPolicy with
  | sameUnit => exact h.owns_siblings _ text
  | filterAll => rfl

/-- A model is treated alike in similar places. -/
theorem treatment (h : p.Similar q) (o : Options) (m : Model) :
    m.treatment o p = m.treatment o q := by
  simp only [Model.treatment, Pass.visit, h.unit, h.drops o]

end Place.Similar

theorem GenerationUnit.similar_place {unit : String} {g g' : GenerationUnit}
    (h : g.modelNames = g'.modelNames) : (g.place unit).Similar (g'.place unit) where
  unit := rfl
  names name := by
    rw [place, place, ← NameSet.mem_ofList, ← NameSet.mem_ofList]
    exact iff_of_eq (congrArg (name ∈ ·) h)

namespace Registry

variable {r : Registry} {o : Options} {unit : String} {g : GenerationUnit}

/-- The treatments of all models, by unit and position. -/
def treatments (r : Registry) (o : Options) : NameMap (List Treatment) :=
  r.units.map fun unit g => g.models.map (Model.treatment o (g.place unit))

/-- The treatment of the model at a position of a unit. -/
def treatment? (r : Registry) (o : Options) (unit : String) (i : Nat) : Option Treatment := do
  (← (r.treatments o).get? unit)[i]?

/-- What is recorded of the models, one after the other. -/
def recorded {α : Type} (r : Registry) (o : Options) (f : Treatment → List α) : List α :=
  (r.treatments o).entries.flatMap fun e => e.2.flatMap f

/-- The treatments of its models tell all of a run: which model has become which, position by
position, and the report, in which every entry is about the model that it was recorded of. -/
structure ToldByTreatments (r : Registry) (o : Options) : Prop where
  before : r.units = (r.treatments o).map fun _ ts => ⟨ts.map (·.before)⟩
  after : (r.postProcess o).registry.units =
    (r.treatments o).map fun _ ts => ⟨ts.map (·.after)⟩
  result : (r.postProcess o).result =
    .ok ⟨r.recorded o (·.removals) ++ r.recorded o (·.resolutions), r.recorded o (·.diagnostics)⟩
  about : ∀ e ∈ (r.treatments o).entries, ∀ t ∈ e.2,
    (∀ c ∈ t.changes, c.isAbout e.1 t.before.name = true) ∧
      ∀ d ∈ t.diagnostics, d.isAbout e.1 t.before.name = true

theorem recorded_eq_flatMap {α : Type} (r : Registry) (o : Options) (f : Treatment → List α) :
    r.recorded o f = r.members.flatMap fun e => f (e.2.treatment o e.1) := by
  simp only [recorded, treatments, NameMap.map, members, List.flatMap_map, List.flatMap_assoc]

theorem toldByTreatments (r : Registry) (h : o.strict = false) : r.ToldByTreatments o where
  before := by
    apply NameMap.ext
    simp only [treatments, NameMap.map, List.map_map]
    refine (List.map_id _).symm.trans (List.map_congr_left fun e _ => ?_)
    refine Prod.ext rfl (congrArg GenerationUnit.mk ?_)
    rw [List.map_map]
    exact (List.map_id _).symm
  after := by
    rw [(postProcess_eq_ok (r.result_postProcess_of_not_strict h)).1]
    apply NameMap.ext
    simp only [mapModels, treatments, NameMap.map, List.map_map]
    refine List.map_congr_left fun e _ => Prod.ext rfl (congrArg GenerationUnit.mk ?_)
    rw [List.map_map]
    exact List.map_congr_left fun m _ => (m.after_treatment o _).symm
  result := by
    rw [r.result_postProcess_of_not_strict h, changes_runPasses_eq_treatments,
      diagnostics_runPasses_eq_treatments]
    simp only [recorded_eq_flatMap]
  about e he t ht := by
    obtain ⟨d, -, rfl⟩ := List.mem_map.mp he
    obtain ⟨m, -, rfl⟩ := List.mem_map.mp ht
    exact ⟨fun _ => m.isAbout_of_mem_changes o (d.2.place d.1),
      fun _ => m.isAbout_of_mem_diagnostics o (d.2.place d.1)⟩

theorem treatment?_of_unit? (h : r.unit? unit = some g) (i : Nat) :
    r.treatment? o unit i = g.models[i]?.map (Model.treatment o (g.place unit)) := by
  have hunit : r.units.get? unit = some g := h
  simp [treatment?, treatments, NameMap.get?_map, hunit]

theorem mem_entries_of_unit? (h : r.unit? unit = some g) : (unit, g) ∈ r.units.entries := by
  obtain ⟨before, after, hsplit, -⟩ := List.lookup_eq_some_iff.mp h
  rw [hsplit]
  exact List.mem_append_right _ List.mem_cons_self

theorem membersOf_eq (r : Registry) (unit : String) :
    r.membersOf unit =
      (r.unit? unit).elim [] fun g => g.models.map fun m => (g.place unit, m) := by
  have hmembers : r.membersOf unit = (r.units.entries.filter fun d => d.1 = unit).flatMap
      fun d => d.2.models.map fun m => (d.2.place d.1, m) := by
    refine filter_flatMap_of_forall fun d _ e he => ?_
    obtain ⟨m, -, rfl⟩ := List.mem_map.mp he
    rfl
  rw [hmembers]
  cases h : r.unit? unit with
  | none =>
    have hnone : (r.units.entries.filter fun d => d.1 = unit) = [] := by
      refine List.filter_eq_nil_iff.mpr fun d hd => ?_
      have hne : unit ≠ d.1 := bne_iff_ne.mp (List.lookup_eq_none_iff.mp h d hd)
      simp [hne.symm]
    rw [hnone]
    rfl
  | some g =>
    have hunit : (r.units.entries.filter fun d => d.1 = unit) = [(unit, g)] :=
      filter_eq_singleton_of_nodup r.nodup_units (mem_entries_of_unit? h)
    rw [hunit, List.flatMap_singleton]
    rfl

theorem named_of_unit? (h : r.unit? unit = some g) (name : String) :
    r.named unit name = (g.models.filter (·.name = name)).map fun m => (g.place unit, m) := by
  have hnamed : r.named unit name = (r.membersOf unit).filter (·.2.name = name) := by
    rw [membersOf, List.filter_filter, named]
    refine List.filter_congr fun e _ => ?_
    rw [Bool.decide_and, Bool.and_comm]
  rw [hnamed, membersOf_eq, h, Option.elim_some, List.filter_map]
  rfl

/-- Two runs treat a model alike if it is in a unit of the same name, among siblings of the same
names, whatever else is in the two registries and wherever in the unit the model stands. Where the
unit has the same models of its name, the reports say the same under the two names. -/
theorem postProcess_local {r₁ r₂ : Registry} {o : Options} {unit : String}
    {g₁ g₂ : GenerationUnit} {m : Model} {i j : Nat} (hstrict : o.strict = false)
    (h₁ : r₁.unit? unit = some g₁) (h₂ : r₂.unit? unit = some g₂)
    (hnames : g₁.modelNames = g₂.modelNames)
    (hi : g₁.models[i]? = some m) (hj : g₂.models[j]? = some m) :
    r₁.ToldByTreatments o ∧ r₂.ToldByTreatments o ∧
    (∃ t, t.before = m ∧ r₁.treatment? o unit i = some t ∧ r₂.treatment? o unit j = some t) ∧
    ∀ report₁ report₂, (r₁.postProcess o).result = .ok report₁ →
      (r₂.postProcess o).result = .ok report₂ →
      g₁.models.filter (·.name = m.name) = g₂.models.filter (·.name = m.name) →
      report₁.changes.filter (·.isAbout unit m.name) =
          report₂.changes.filter (·.isAbout unit m.name) ∧
        report₁.diagnostics.filter (·.isAbout unit m.name) =
          report₂.diagnostics.filter (·.isAbout unit m.name) := by
  have hsimilar : (g₁.place unit).Similar (g₂.place unit) :=
    GenerationUnit.similar_place hnames
  refine ⟨r₁.toldByTreatments hstrict, r₂.toldByTreatments hstrict,
    ⟨m.treatment o (g₁.place unit), rfl, ?_, ?_⟩, fun report₁ report₂ hr₁ hr₂ hsame => ?_⟩
  · rw [treatment?_of_unit? h₁, hi, Option.map_some]
  · rw [treatment?_of_unit? h₂, hj, Option.map_some, hsimilar.treatment]
  · obtain ⟨-, rfl⟩ := postProcess_eq_ok hr₁
    obtain ⟨-, rfl⟩ := postProcess_eq_ok hr₂
    simp only [filter_changes_runPasses, filter_diagnostics_runPasses, named_of_unit? h₁,
      named_of_unit? h₂, hsame, List.flatMap_map, hsimilar.treatment, and_self]

end Registry

def cat : Model where
  name := "Cat"
  imports := .ofList ["Dog", "Owner"]
  composedBases := ["Animal", "Named"]

/-- A cat among two dogs, with another unit beside. -/
def crowdedShop : Registry :=
  petshop.insert "pets" cat

/-- The same cat before a dog that has nothing but its name in common with the two. -/
def quietShop : Registry :=
  (Registry.empty.insert "pets" cat).insert "pets" { name := "Dog" }

theorem postProcess_local_cat :
    ∃ g₁ g₂, crowdedShop.unit? "pets" = some g₁ ∧ quietShop.unit? "pets" = some g₂ ∧
      g₁.modelNames = g₂.modelNames ∧ g₁.models[2]? = some cat ∧ g₂.models[0]? = some cat ∧
      (∃ t, t.before = cat ∧ crowdedShop.treatment? {} "pets" 2 = some t ∧
        quietShop.treatment? {} "pets" 0 = some t) ∧
      ∃ report₁ report₂, (crowdedShop.postProcess {}).result = .ok report₁ ∧
        (quietShop.postProcess {}).result = .ok report₂ ∧
        report₁.changes.filter (·.isAbout "pets" "Cat") =
          report₂.changes.filter (·.isAbout "pets" "Cat") := by
  have h₁ : crowdedShop.unit? "pets" = some _ := rfl
  have h₂ : quietShop.unit? "pets" = some _ := rfl
  obtain ⟨-, -, htreatment, hreports⟩ :=
    Registry.postProcess_local (o := {}) (i := 2) (j := 0) (m := cat) rfl h₁ h₂ rfl rfl rfl
  exact ⟨_, _, h₁, h₂, rfl, rfl, rfl, htreatment, _, _, rfl, rfl, (hreports _ _ rfl rfl rfl).1⟩

end ModelRegistry
