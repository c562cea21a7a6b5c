import ModelRegistry.Proofs.Difference

/-!
# What a run leaves alone

A run takes every unit and every model for what it is and where it stands. Of a model it changes the
imports, by leaving some out, the parent, if there are bases to inherit from, and one flag: that of
the first property that the discriminator names.
-/

namespace ModelRegistry

namespace Model

/-- Where the property stands that the discriminator names. -/
def discriminatorIndex? (m : Model) : Option Nat :=
  m.discriminator.bind fun d => m.properties.findIdx? (·.name = d.propertyName)

/-- A model before and after a run. Flags are compared position by position: a second property of
the name that the discriminator has keeps its flag. -/
structure Frame (before after : Model) : Prop where
  name : after.name = before.name
  composedBases : after.composedBases = before.composedBases
  discriminator : after.discriminator = before.discriminator
  properties : after.properties.map (fun p => (p.name, p.type)) =
    before.properties.map fun p => (p.name, p.type)
  flags : ∀ i : Nat, after.properties[i]?.map (·.required) =
    if before.discriminatorIndex? = some i then some true
    else before.properties[i]?.map (·.required)
  imports : ∀ name, name ∈ after.imports → name ∈ before.imports
  parent_of_bases : ∀ base dropped, before.composedBases = base :: dropped →
    after.parent = some base
  parent_of_no_bases : before.composedBases = [] → after.parent = before.parent
  plain : before.composedBases = [] → before.discriminator = none →
    after = { before with imports := after.imports }

theorem getElem?_requiredProperties (m : Model) (i : Nat) :
    m.requiredProperties[i]? =
      if m.discriminatorIndex? = some i then m.properties[i]?.map Property.require
      else m.properties[i]? := by
  rw [requiredProperties, discriminatorIndex?]
  cases m.discriminator with
  | none => rfl
  | some d => exact getElem?_modifyFirst m.properties i

theorem requiredProperties_eq_map (m : Model) {β : Type} (g : Property → β)
    (hg : ∀ p, g p.require = g p) : m.requiredProperties.map g = m.properties.map g := by
  refine List.ext_getElem? fun i => ?_
  rw [List.getElem?_map, List.getElem?_map, getElem?_requiredProperties]
  split
  · cases m.properties[i]? <;> simp [hg]
  · rfl

/-- The position of the discriminator property is one of the positions of the properties. -/
theorem isSome_getElem?_discriminatorIndex {m : Model} {i : Nat}
    (h : m.discriminatorIndex? = some i) : m.properties[i]?.isSome = true := by
  obtain ⟨d, -, hfind⟩ := Option.bind_eq_some_iff.mp h
  obtain ⟨hlt, -⟩ := List.findIdx?_eq_some_iff_getElem.mp hfind
  simp [hlt]

theorem parent_processed (o : Options) (p : Place) (m : Model) :
    (m.processed o p).parent = m.composedBases.head?.or m.parent := rfl

theorem frame_processed (o : Options) (p : Place) (m : Model) : Frame m (m.processed o p) where
  name := rfl
  composedBases := rfl
  discriminator := rfl
  properties := requiredProperties_eq_map _ _ fun _ => rfl
  flags i := by
    have hproperties : (m.processed o p).properties = m.requiredProperties := rfl
    rw [hproperties, getElem?_requiredProperties]
    split
    · next hi =>
      obtain ⟨q, hq⟩ := Option.isSome_iff_exists.mp (isSome_getElem?_discriminatorIndex hi)
      rw [hq]
      rfl
    · rfl
  imports name h := (mem_imports_processed.mp h).1
  parent_of_bases base dropped h := by
    rw [parent_processed, h]
    rfl
  parent_of_no_bases h := by
    rw [parent_processed, h]
    rfl
  plain hbases hdiscriminator := by
    obtain ⟨name, properties, imports, bases, parent, discriminator⟩ := m
    cases hbases
    cases hdiscriminator
    rfl

end Model

namespace Registry

/-- A run that succeeds keeps the names of the units, and in every unit the number and the order of
the models; what it may change of a model is told by `Model.Frame`. -/
theorem postProcess_frame {r : Registry} {o : Options} {report : Report}
    (h : (r.postProcess o).result = .ok report) :
    List.Forall₂ (fun d e => e.1 = d.1 ∧ List.Forall₂ Model.Frame d.2.models e.2.models)
      r.units.entries (r.postProcess o).registry.units.entries := by
  rw [(postProcess_eq_ok h).1, entries_mapModels, List.forall₂_map_right_iff, List.forall₂_same]
  refine fun d _ => ⟨rfl, ?_⟩
  rw [GenerationUnit.mapModels, List.forall₂_map_right_iff, List.forall₂_same]
  exact fun m _ => m.frame_processed o (d.2.place d.1)

theorem postProcess_frame_petshop :
    (petshop.postProcess {}).result = .ok petshopReport ∧
      List.Forall₂ (fun d e => e.1 = d.1 ∧ List.Forall₂ Model.Frame d.2.models e.2.models)
        petshop.units.entries (petshop.postProcess {}).registry.units.entries := by
  have hok : (petshop.postProcess {}).result = .ok petshopReport := rfl
  exact ⟨hok, postProcess_frame hok⟩

end Registry

end ModelRegistry
