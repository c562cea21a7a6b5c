import ModelRegistry.Proofs.Frame

/-!
# Parents after a run

A run gives every model with bases the first of them for its parent. It looks at no other model, so
a parent that a model without bases came with stays, and it is only by such a model that a registry
can fail to have the first base of every model for its parent after a run.
-/

namespace ModelRegistry

/-- The parent of a model is its first base: there is a parent just if there are bases. -/
def Model.InheritsFirstBase (m : Model) : Prop :=
  m.parent = m.composedBases.head?

instance (m : Model) : Decidable m.InheritsFirstBase :=
  inferInstanceAs (Decidable (m.parent = m.composedBases.head?))

namespace Model

/-- Only a parent that came without bases can stand against it. -/
theorem inheritsFirstBase_processed_iff (o : Options) (p : Place) (m : Model) :
    (m.processed o p).InheritsFirstBase ↔ (m.composedBases = [] → m.parent = none) := by
  have hbases : (m.processed o p).composedBases = m.composedBases := rfl
  rw [InheritsFirstBase, parent_processed, hbases]
  cases m.composedBases <;> simp

end Model

namespace Registry

/-- After a run that succeeds the parent of a model is its first base or, if it has no bases, the
parent it had. So the first base is the parent of every model afterwards if and only if no model
without bases had a parent before. -/
theorem postProcess_parents {r : Registry} {o : Options} {report : Report}
    (h : (r.postProcess o).result = .ok report) :
    let s := (r.postProcess o).registry
    s.outline = r.outline ∧
    (∀ t ∈ r.transitions s,
      t.after.composedBases = t.before.composedBases ∧
      t.after.parent = t.after.composedBases.head?.or t.before.parent ∧
      (t.after.InheritsFirstBase ↔ (t.before.composedBases = [] → t.before.parent = none))) ∧
    ((∀ e ∈ s.models, e.2.InheritsFirstBase) ↔
      ∀ e ∈ r.models, e.2.composedBases = [] → e.2.parent = none) := by
  intro s
  have hs : s = r.mapModels (Model.processed o) := (postProcess_eq_ok h).1
  rw [hs]
  refine ⟨outline_mapModels (Model.keepsNames_processed o) r, fun t ht => ?_, ?_⟩
  · rw [transitions_mapModels] at ht
    obtain ⟨e, -, rfl⟩ := List.mem_map.mp ht
    exact ⟨rfl, rfl, e.2.inheritsFirstBase_processed_iff o e.1⟩
  · simp only [models_eq_map_members, members_mapModels (Model.keepsNames_processed o),
      List.forall_mem_map, Model.inheritsFirstBase_processed_iff]

/-- Both dogs have bases and come with a parent, which is the first base of one of them. -/
theorem postProcess_parents_petshop :
    (petshop.postProcess {}).result = .ok petshopReport ∧
      ∀ e ∈ (petshop.postProcess {}).registry.models, e.2.InheritsFirstBase := by
  have hok : (petshop.postProcess {}).result = .ok petshopReport := rfl
  obtain ⟨-, -, hiff⟩ := postProcess_parents hok
  exact ⟨hok, hiff.mpr (by decide)⟩

end Registry

/-- A model without bases that comes with a parent. -/
def stray : Registry :=
  Registry.empty.insert "pets" { name := "Dog", parent := some "Animal" }

theorem stray_keeps_its_parent :
    ¬ ∀ (r : Registry) (o : Options) (report : Report), (r.postProcess o).result = .ok report →
      ∀ e ∈ (r.postProcess o).registry.models, e.2.InheritsFirstBase := by
  intro h
  have hstray := h stray {} ⟨[], []⟩ rfl
  exact absurd hstray (by decide)

end ModelRegistry
