import Mathlib.Data.List.Nodup
import ModelRegistry.PostProcessing

/-!
# Models and their places

A pass decides about a model from the model itself and from its place: the name of its unit and the
names of the models of that unit. `members` lists every model with its place. A change of every
model that keeps names keeps all places, so such changes compose model by model, and what a registry
becomes can be read off what becomes of each member.
-/

namespace ModelRegistry

theorem filter_eq_singleton_of_nodup {α κ : Type} [DecidableEq κ] {key : α → κ} {l : List α}
    (h : (l.map key).Nodup) {a : α} (ha : a ∈ l) : (l.filter fun b => key b = key a) = [a] := by
  induction l with
  | nil => cases ha
  | cons b l ih =>
    obtain ⟨hfresh, hrest⟩ := List.nodup_cons.mp h
    rcases List.mem_cons.mp ha with rfl | ha
    · have hnone : (l.filter fun b => key b = key a) = [] := by
        refine List.filter_eq_nil_iff.mpr fun b hb => ?_
        simpa using fun hk => hfresh (List.mem_map.mpr ⟨b, hb, hk⟩)
      simp [hnone]
    · have hne : key b ≠ key a := fun hk => hfresh (List.mem_map.mpr ⟨a, ha, hk.symm⟩)
      simp [hne, ih hrest ha]

theorem NameSet.nodup_names (s : NameSet) : s.names.Nodup :=
  s.ascending.imp String.ne_of_lt

/-- Where a model stands: its unit, and the names of the models of that unit. -/
structure Place where
  unit : String
  names : List String

namespace Place

/-- Under which names the models of a place can be imported. -/
def siblings (p : Place) (pathPrefix : Option String) : Siblings where
  unit := p.unit
  names := p.names
  stems := p.names.map Text.snakeCase
  pathPrefix := pathPrefix.filter (· ≠ "")

end Place

/-- A change of models, given their places, that gives no model another name. -/
def KeepsNames (f : Place → Model → Model) : Prop :=
  ∀ p m, (f p m).name = m.name

namespace GenerationUnit

def place (unit : String) (g : GenerationUnit) : Place :=
  ⟨unit, g.models.map (·.name)⟩

theorem siblings_place (unit : String) (g : GenerationUnit) (pathPrefix : Option String) :
    (g.place unit).siblings pathPrefix = Siblings.ofUnit unit g.models pathPrefix := by
  simp only [Place.siblings, place, Siblings.ofUnit, List.map_map]
  rfl

def mapModels (f : Place → Model → Model) (unit : String) (g : GenerationUnit) :
    GenerationUnit :=
  ⟨g.models.map (f (g.place unit))⟩

theorem place_mapModels {f : Place → Model → Model} (hf : KeepsNames f) (unit : String)
    (g : GenerationUnit) : (g.mapModels f unit).place unit = g.place unit := by
  simp only [place, mapModels, List.map_map, Place.mk.injEq, true_and]
  exact List.map_congr_left fun m _ => hf _ m

end GenerationUnit

namespace Registry

variable {f g : Place → Model → Model} {r : Registry}

/-- All models with their places, in the order of `models`. -/
def members (r : Registry) : List (Place × Model) :=
  r.units.entries.flatMap fun e => e.2.models.map fun m => (e.2.place e.1, m)

def mapModels (f : Place → Model → Model) (r : Registry) : Registry :=
  ⟨r.units.map (GenerationUnit.mapModels f)⟩

/-- The units with the names of their models, position by position. -/
def outline (r : Registry) : List (String × List String) :=
  r.units.entries.map fun e => (e.1, e.2.models.map (·.name))

theorem ext_entries {r s : Registry} (h : r.units.entries = s.units.entries) : r = s :=
  congrArg Registry.mk (NameMap.ext h)

theorem entries_mapModels (f : Place → Model → Model) (r : Registry) :
    (r.mapModels f).units.entries =
      r.units.entries.map fun e => (e.1, e.2.mapModels f e.1) := rfl

theorem models_eq_map_members (r : Registry) :
    r.models = r.members.map fun e => (e.1.unit, e.2) := by
  simp only [models, members, List.map_flatMap, List.map_map]
  rfl

theorem models_mapModels (f : Place → Model → Model) (r : Registry) :
    (r.mapModels f).models = r.members.map fun e => (e.1.unit, f e.1 e.2) := by
  simp only [models, entries_mapModels, members, List.flatMap_map, List.map_flatMap,
    GenerationUnit.mapModels, List.map_map]
  rfl

theorem mem_members {e : Place × Model} :
    e ∈ r.members ↔ ∃ d ∈ r.units.entries, e.1 = d.2.place d.1 ∧ e.2 ∈ d.2.models := by
  simp only [members, List.mem_flatMap, List.mem_map]
  constructor
  · rintro ⟨d, hd, m, hm, rfl⟩
    exact ⟨d, hd, rfl, hm⟩
  · rintro ⟨d, hd, hp, hm⟩
    exact ⟨d, hd, e.2, hm, by rw [← hp]⟩

theorem nodup_units (r : Registry) : (r.units.entries.map Prod.fst).Nodup :=
  List.pairwise_map.mpr (r.units.ascending.imp String.ne_of_lt)

/-- No two units of a registry have one name. -/
theorem eq_of_mem_entries {d e : String × GenerationUnit} (hd : d ∈ r.units.entries)
    (he : e ∈ r.units.entries) (h : d.1 = e.1) : d = e :=
  List.inj_on_of_nodup_map r.nodup_units hd he h

theorem mem_models {unit : String} {m : Model} :
    (unit, m) ∈ r.models ↔ ∃ e ∈ r.members, e.1.unit = unit ∧ e.2 = m := by
  rw [models_eq_map_members]
  simp only [List.mem_map, Prod.mk.injEq]

theorem mem_names {e : Place × Model} (he : e ∈ r.members) {name : String} :
    name ∈ e.1.names ↔ ∃ k, (e.1.unit, k) ∈ r.models ∧ k.name = name := by
  obtain ⟨d, hd, hplace, -⟩ := mem_members.mp he
  rw [hplace]
  constructor
  · intro hname
    obtain ⟨k, hk, rfl⟩ := List.mem_map.mp hname
    exact ⟨k, mem_models.mpr ⟨(d.2.place d.1, k), mem_members.mpr ⟨d, hd, rfl, hk⟩, rfl, rfl⟩, rfl⟩
  · rintro ⟨k, hk, rfl⟩
    obtain ⟨e', he', hunit, rfl⟩ := mem_models.mp hk
    obtain ⟨d', hd', hplace', hk'⟩ := mem_members.mp he'
    rw [hplace'] at hunit
    obtain rfl : d' = d := eq_of_mem_entries hd' hd hunit
    exact List.mem_map.mpr ⟨e'.2, hk', rfl⟩

theorem members_mapModels (hf : KeepsNames f) (r : Registry) :
    (r.mapModels f).members = r.members.map fun e => (e.1, f e.1 e.2) := by
  simp only [members, entries_mapModels, List.flatMap_map, List.map_flatMap, List.map_map,
    GenerationUnit.place_mapModels hf]
  simp only [GenerationUnit.mapModels, List.map_map]
  rfl

theorem mem_models_mapModels (hf : KeepsNames f) {unit : String} {m : Model} :
    (unit, m) ∈ (r.mapModels f).models ↔ ∃ e ∈ r.members, e.1.unit = unit ∧ f e.1 e.2 = m := by
  rw [models_eq_map_members, members_mapModels hf, List.map_map]
  simp only [List.mem_map, Function.comp_apply, Prod.mk.injEq]

theorem outline_mapModels (hf : KeepsNames f) (r : Registry) :
    (r.mapModels f).outline = r.outline := by
  simp only [outline, entries_mapModels, List.map_map]
  refine List.map_congr_left fun e _ => Prod.ext rfl ?_
  exact congrArg Place.names (GenerationUnit.place_mapModels hf e.1 e.2)

theorem mapModels_mapModels (hf : KeepsNames f) (g : Place → Model → Model) (r : Registry) :
    (r.mapModels f).mapModels g = r.mapModels fun p m => g p (f p m) := by
  apply ext_entries
  simp only [entries_mapModels, List.map_map]
  refine List.map_congr_left fun e _ => Prod.ext rfl ?_
  simp only [Function.comp_apply]
  rw [GenerationUnit.mapModels, GenerationUnit.place_mapModels hf]
  simp only [GenerationUnit.mapModels, List.map_map]
  rfl

theorem mapModels_congr (h : ∀ e ∈ r.members, f e.1 e.2 = g e.1 e.2) :
    r.mapModels f = r.mapModels g := by
  apply ext_entries
  refine List.map_congr_left fun d hd => Prod.ext rfl (congrArg GenerationUnit.mk ?_)
  exact List.map_congr_left fun m hm => h (d.2.place d.1, m) (mem_members.mpr ⟨d, hd, rfl, hm⟩)

theorem mapModels_id (r : Registry) : r.mapModels (fun _ m => m) = r := by
  apply ext_entries
  simp only [entries_mapModels, GenerationUnit.mapModels, List.map_id']

/-- A change that keeps names leaves a registry as it is only by leaving every member as it is. -/
theorem mapModels_eq_self (hf : KeepsNames f) :
    r.mapModels f = r ↔ ∀ e ∈ r.members, f e.1 e.2 = e.2 := by
  constructor
  · intro h e he
    have hmap : r.members.map (fun e => (e.1, f e.1 e.2)) = r.members.map id := by
      rw [← members_mapModels hf, h, List.map_id]
    exact congrArg Prod.snd (List.map_inj_left.mp hmap e he)
  · intro h
    exact (mapModels_congr h).trans r.mapModels_id

end Registry

end ModelRegistry
