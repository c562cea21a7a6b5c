import ModelRegistry.Proofs.FixedPoint
import ModelRegistry.Proofs.InsertionOrder

/-!
# Canonical order

However a registry came about, it is written with its units in ascending order and with the imports
of every model in ascending order, none twice. That is so of its tree and of its value, and also of
what is read of its text in either layout. A text is read as it was written only if all numbers in
it are finite. So it is said here how a registry comes about: it is decoded, or empty, and then it is
changed step by step; and no step brings in another number.
-/

namespace ModelRegistry

open Json

/-- Imports are added one after the other. -/
def Model.withImports (m : Model) (names : List String) : Model :=
  names.foldl withImport m

theorem Model.properties_withImports (m : Model) (names : List String) :
    (m.withImports names).properties = m.properties := by
  induction names generalizing m with
  | nil => rfl
  | cons name names ih => exact ih (m.withImport name)

section Listing

/-- The tree of a model lists its imports in strictly ascending order, and lists them only once. -/
def Model.ListedBy (m : Model) (j : Json) : Prop :=
  ∃ members names, j = .object members ∧
    (members.filter fun e => e.1 = "imports") = [("imports", .strings names)] ∧
    names.Pairwise (· < ·) ∧ ∀ name, name ∈ names ↔ name ∈ m.imports

def GenerationUnit.ListedBy (u : GenerationUnit) (j : Json) : Prop :=
  ∃ models, j = .object [("models", .array models)] ∧
    List.Forall₂ Model.ListedBy u.models models

/-- The tree of a registry lists its units in strictly ascending order, and so the imports of each
of its models. -/
def Registry.ListedBy (r : Registry) (j : Json) : Prop :=
  ∃ units, j = .object units ∧ Entries.Ascending units ∧
    List.Forall₂ (Entries.Match GenerationUnit.ListedBy) r.units.entries units

theorem Model.listedBy_toJson (m : Model) : m.ListedBy m.toJson := by
  refine ⟨_, m.imports.names, rfl, ?_, m.imports.ascending, fun _ => Iff.rfl⟩
  cases m.parent <;> cases m.discriminator <;> rfl

theorem GenerationUnit.listedBy_toJson (u : GenerationUnit) : u.ListedBy u.toJson :=
  ⟨_, rfl, List.forall₂_map_right_iff.mpr (List.forall₂_same.mpr fun m _ => m.listedBy_toJson)⟩

theorem Registry.listedBy_toJson (r : Registry) : r.ListedBy r.toJson :=
  ⟨_, rfl, List.pairwise_map.mpr r.units.ascending, List.forall₂_map_right_iff.mpr
    (List.forall₂_same.mpr fun e _ => ⟨rfl, e.2.listedBy_toJson⟩)⟩

variable {m : Model} {u : GenerationUnit} {r : Registry} {j : Json}

theorem Json.canonical_strings (ss : List String) :
    (Json.strings ss).canonical = Json.strings ss := by
  rw [Json.strings, canonical_array, List.map_map]
  rfl

theorem Model.ListedBy.canonical (h : m.ListedBy j) : m.ListedBy j.canonical := by
  obtain ⟨members, names, rfl, hmembers, hnames⟩ := h
  have hmap : ((members.map fun e => (e.1, e.2.canonical)).filter fun e => e.1 = "imports") =
      [("imports", .strings names)] := by
    rw [List.filter_map, ← Json.canonical_strings names]
    exact congrArg (List.map fun e => (e.1, e.2.canonical)) hmembers
  have hperm : ((Entries.sorted (members.map fun e => (e.1, e.2.canonical))).filter
      fun e => e.1 = "imports").Perm [("imports", .strings names)] := by
    rw [← hmap]
    refine Entries.filter_sorted_perm (p := fun name => name = "imports") ?_
    rw [hmap]
    exact List.nodup_singleton _
  exact ⟨_, names, canonical_object members, List.perm_singleton.mp hperm, hnames⟩

theorem Model.ListedBy.reread (h : m.ListedBy j) : m.ListedBy j.reread := by
  obtain ⟨members, names, rfl, hmembers, hnames⟩ := h
  refine ⟨_, names, reread_object members, ?_, hnames⟩
  rw [List.filter_map, ← Json.reread_strings names]
  exact congrArg (List.map fun e => (e.1, e.2.reread)) hmembers

theorem GenerationUnit.ListedBy.canonical (h : u.ListedBy j) : u.ListedBy j.canonical := by
  obtain ⟨models, rfl, hmodels⟩ := h
  refine ⟨models.map Json.canonical, ?_, ?_⟩
  · rw [canonical_object, List.map_cons, canonical_array]
    rfl
  · exact List.forall₂_map_right_iff.mpr (hmodels.imp fun _ _ hm => hm.canonical)

theorem GenerationUnit.ListedBy.reread (h : u.ListedBy j) : u.ListedBy j.reread := by
  obtain ⟨models, rfl, hmodels⟩ := h
  refine ⟨models.map Json.reread, ?_, ?_⟩
  · rw [reread_object, List.map_cons, reread_array]
    rfl
  · exact List.forall₂_map_right_iff.mpr (hmodels.imp fun _ _ hm => hm.reread)

/-- What is in ascending order already keeps its order in the value. -/
theorem Registry.ListedBy.canonical (h : r.ListedBy j) : r.ListedBy j.canonical := by
  obtain ⟨units, rfl, hascending, hunits⟩ := h
  have hmap : Entries.Ascending (units.map fun e => (e.1, e.2.canonical)) :=
    List.pairwise_map.mpr hascending
  refine ⟨_, (canonical_object units).trans (by rw [Entries.sorted_eq_self hmap]), hmap, ?_⟩
  exact List.forall₂_map_right_iff.mpr (hunits.imp fun _ _ he => ⟨he.1, he.2.canonical⟩)

theorem Registry.ListedBy.reread (h : r.ListedBy j) : r.ListedBy j.reread := by
  obtain ⟨units, rfl, hascending, hunits⟩ := h
  refine ⟨_, reread_object units, List.pairwise_map.mpr hascending, ?_⟩
  exact List.forall₂_map_right_iff.mpr (hunits.imp fun _ _ he => ⟨he.1, he.2.reread⟩)

end Listing

namespace Registry

/-- A visit that does nothing but add imports may add to each model whatever it likes, also such as
depend on the models that it has seen before. -/
def GainsImports (r r' : Registry) : Prop :=
  List.Forall₂ (Entries.Match fun u v : GenerationUnit =>
    List.Forall₂ (fun m n => ∃ names, n = m.withImports names) u.models v.models)
    r.units.entries r'.units.entries

/-- A registry that was decoded of a text or of a value, or that was empty, and then changed step by
step: models were inserted, imports added to them on a visit, and passes run on them, one by one or
both. A model that is inserted has only finite numbers in its types, as has every value in JSON. -/
inductive Reached : Registry → Prop
  | empty : Reached .empty
  | ofSource {s : Source} {r : Registry} : decoder.ofSource s = .ok r → Reached r
  | ofValue {v : Value} {r : Registry} :
    v.json.HasFiniteNumbers → Registry.ofValue v = .ok r → Reached r
  | insert {r : Registry} (unit : String) {m : Model} (names : List String) :
    (∀ q ∈ m.properties, q.type.json.HasFiniteNumbers) → Reached r →
      Reached (r.insert unit (m.withImports names))
  | visit {r r' : Registry} : r.GainsImports r' → Reached r → Reached r'
  | pass {r : Registry} (q : Pass) : Reached r → Reached (q.run r).value
  | postProcess {r : Registry} (o : Options) : Reached r → Reached (r.postProcess o).registry

variable {ε : Type} {r r' : Registry} {p : Json → Prop}

theorem gainsImports_visit {f : String → Model → Logged ε Model}
    (hf : ∀ unit m, ∃ names, (f unit m).value = m.withImports names) (r : Registry) :
    r.GainsImports (r.visit f).value := by
  rw [GainsImports, value_visit, entries_mapModels, List.forall₂_map_right_iff, List.forall₂_same]
  exact fun e _ =>
    ⟨rfl, List.forall₂_map_right_iff.mpr (List.forall₂_same.mpr fun m _ => hf e.1 m)⟩

theorem GainsImports.allTypes (hgains : r.GainsImports r') (h : r.AllTypes p) : r'.AllTypes p := by
  rw [allTypes_iff] at h ⊢
  intro e he n hn
  obtain ⟨d, hd, -, hmodels⟩ := exists_mem_of_forall₂ hgains he
  obtain ⟨m, hm, names, rfl⟩ := exists_mem_of_forall₂ hmodels hn
  rw [m.properties_withImports]
  exact h d hd m hm

theorem allTypes_insert {unit : String} {m : Model} (hm : ∀ q ∈ m.properties, p q.type.json)
    (h : r.AllTypes p) : (r.insert unit m).AllTypes p := by
  intro e he
  have hunit : e ∈ (r.insert unit m).models.filter fun d => d.1 = e.1 :=
    List.mem_filter.mpr ⟨he, decide_eq_true rfl⟩
  rw [filter_models, modelsOf_insert, List.map_append, List.mem_append] at hunit
  rcases hunit with hold | hnew
  · rw [← filter_models] at hold
    exact h e (List.mem_filter.mp hold).1
  · obtain ⟨k, hk, hke⟩ := List.mem_map.mp hnew
    have hkm : k = m := by
      split at hk
      · exact List.mem_singleton.mp hk
      · cases hk
    rw [← hke, hkm]
    exact hm

theorem keepsTypes_apply (q : Pass) : KeepsTypes q.apply := by
  intro p m
  cases q with
  | filterImports o => rfl
  | resolveHierarchy =>
    rw [Pass.apply_resolveHierarchy]
    exact m.requiredProperties_eq_map _ fun _ => rfl

theorem allTypes_postProcess (o : Options) (h : r.AllTypes p) :
    (r.postProcess o).registry.AllTypes p := by
  cases hobstacle : r.obstacle? o with
  | some issue => rwa [postProcess_of_obstacle hobstacle]
  | none =>
    have hregistry : (r.postProcess o).registry = (r.runPasses o).value :=
      congrArg Outcome.registry (postProcess_of_no_obstacle hobstacle)
    rw [hregistry, r.value_runPasses]
    exact allTypes_mapModels_processed o h

/-- No step brings in a number that is not finite. -/
theorem Reached.allTypes (h : Reached r) : r.AllTypes Json.HasFiniteNumbers := by
  induction h with
  | empty => exact List.forall_mem_nil _
  | ofSource h => exact hasFiniteNumbers_types_of_ofSource h
  | ofValue hv h => exact hasFiniteNumbers_types_of_ofValue hv h
  | insert unit names hm _ ih =>
    refine allTypes_insert ?_ ih
    rwa [Model.properties_withImports]
  | visit hgains _ ih => exact hgains.allTypes ih
  | pass q _ ih =>
    rw [q.value_run]
    exact allTypes_mapModels (keepsTypes_apply q) ih
  | postProcess o _ ih => exact allTypes_postProcess o ih

/-- Canonical order is an invariant: a registry that is reached by any steps is written, as a tree,
as a value and as a text in either layout, with its units in strictly ascending order and the imports
of each model in strictly ascending order. -/
theorem Reached.written_in_order (h : Reached r) :
    r.ListedBy r.toJson ∧ r.ListedBy r.toValue.json ∧
      ∀ l, ∃ j, Document.ofSource (.ofText (r.toJson.render l)) = ⟨.ofJson j, false⟩ ∧
        r.ListedBy j := by
  have hnumbers : r.toJson.HasFiniteNumbers := layered_hasFiniteNumbers.registry (n := 0) h.allTypes
  exact ⟨r.listedBy_toJson, r.listedBy_toJson.canonical, fun l =>
    ⟨r.toJson.reread, Document.ofSource_render_reread hnumbers l, r.listedBy_toJson.reread⟩⟩

/-- A text with units out of order and an import twice, a model inserted before them all, and imports
for every model, of which a run drops those of its siblings. -/
theorem written_in_order_ark :
    let inserted := terseRegistry.insert "ark" (Model.withImports { name := "Ape" } ["b", "a", "b"])
    let imported := (inserted.importEverywhere "zoo").value.importEverywhere "Dog"
    let r := (imported.value.postProcess {}).registry
    (r.models.map fun e => (e.1, e.2.name, e.2.imports.names)) =
        [("ark", "Ape", ["Dog", "a", "b", "zoo"]), ("pets", "Cat", ["Ant", "zoo"]),
          ("pets", "Dog", ["zoo"])] ∧
      ∀ l, ∃ j, Document.ofSource (.ofText (r.toJson.render l)) = ⟨.ofJson j, false⟩ ∧
        r.ListedBy j := by
  intro inserted imported r
  have hinserted : Reached inserted :=
    .insert "ark" ["b", "a", "b"] (List.forall_mem_nil _) (.ofSource ofSource_terseText)
  have hvisit (name : String) (r : Registry) : r.GainsImports (r.importEverywhere name).value :=
    gainsImports_visit (fun _ _ => ⟨[name], rfl⟩) r
  have himported : Reached imported.value :=
    .visit (hvisit "Dog" _) (.visit (hvisit "zoo" _) hinserted)
  obtain ⟨-, -, htext⟩ := (himported.postProcess {}).written_in_order
  exact ⟨by decide +kernel, htext⟩

end Registry

end ModelRegistry
