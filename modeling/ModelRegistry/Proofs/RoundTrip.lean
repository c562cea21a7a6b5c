import ModelRegistry.Proofs.Locality
import ModelRegistry.Proofs.RegistryReading
import ModelRegistry.Proofs.WrittenText

/-!
# Registries written and read back

Each part of a registry is decoded from the tree that it is written as: what is left out of the tree
is what a reader fills in. The tree has doubles only in the types of properties and nests six layers
deeper than these. So a registry is read back from its value, and from its text in either layout if
the text can be read at all.
-/

namespace ModelRegistry

open Json

namespace NameSet

/-- A set is told by its members. -/
theorem ext_mem {s t : NameSet} (h : ∀ name, name ∈ s ↔ name ∈ t) : s = t := by
  apply ext
  have hperm : s.names.Perm t.names :=
    (List.perm_ext_iff_of_nodup s.nodup_names t.nodup_names).mpr h
  exact hperm.eq_of_pairwise (fun a b _ _ hab hba => absurd hba (String.lt_asymm hab))
    s.ascending t.ascending

theorem ofList_names (s : NameSet) : ofList s.names = s :=
  ext_mem fun _ => mem_ofList

end NameSet

namespace Json

theorem toValue_json (v : Value) : v.json.toValue = v :=
  Value.ext (canonical_eq_self v.canonical)

namespace Decoder

variable {α : Type} {d : Decoder α} {write : α → Json}

theorem list_ofJson_map {as : List α} (h : ∀ a ∈ as, d.ofJson (write a) = .ok a) :
    d.list.ofJson (.array (as.map write)) = .ok as :=
  jsonItems_eq_ok.mpr (List.forall₂_map_left_iff.mpr (List.forall₂_same.mpr h))

theorem list_ofJson_strings (ss : List String) : string.list.ofJson (.strings ss) = .ok ss :=
  list_ofJson_map fun _ _ => rfl

theorem nameMap_ofJson_map {m : NameMap α} (h : ∀ e ∈ m.entries, d.ofJson (write e.2) = .ok e.2) :
    d.nameMap.ofJson (.object (m.entries.map fun e => (e.1, write e.2))) = .ok m := by
  refine nameMap_ofJson_eq_ok.mpr ⟨m.entries, ?_, ?_⟩
  · exact List.forall₂_map_left_iff.mpr (List.forall₂_same.mpr fun e he => ⟨rfl, h e he⟩)
  · exact NameMap.ext (Entries.sorted_eq_self m.ascending).symm

end Decoder

end Json

namespace Property

theorem ofJson_toJson (p : Property) : format.decoder.ofJson p.toJson = .ok p := by
  have hwith (type : Json) : format.decoder.ofJson (.object [("name", .string p.name),
      ("required", .bool p.required), ("type", type)]) = .ok { p with type := type.toValue } :=
    rfl
  have hwithout : format.decoder.ofJson (.object [("name", .string p.name),
      ("required", .bool p.required)]) = .ok { p with type := .null } :=
    rfl
  rw [toJson]
  split
  · next hnull =>
    have htype : p.type = .null := Value.ext hnull
    exact hwithout.trans (by rw [← htype])
  · exact (hwith p.type.json).trans (by rw [toValue_json])

end Property

namespace Discriminator

theorem ofJson_toJson (d : Discriminator) : format.decoder.ofJson d.toJson = .ok d := rfl

end Discriminator

namespace Model

theorem ofJson_toJson (m : Model) : format.decoder.ofJson m.toJson = .ok m := by
  have hproperties : Property.format.decoder.list.ofJson
      (.array (m.properties.map Property.toJson)) = .ok m.properties :=
    Decoder.list_ofJson_map fun p _ => p.ofJson_toJson
  have himports : ((Decoder.list .string).map NameSet.ofList).ofJson (.strings m.imports.names) =
      .ok m.imports :=
    map_eq_ok.mpr ⟨_, Decoder.list_ofJson_strings _, m.imports.ofList_names⟩
  have hbases := Decoder.list_ofJson_strings m.composedBases
  have hlists (ms : List (String × Json)) : format.jsonMembers
      ([("name", .string m.name), ("properties", .array (m.properties.map Property.toJson)),
        ("imports", .strings m.imports.names), ("composedBases", .strings m.composedBases)] ++ ms)
        format.start =
      format.jsonMembers ms ⟨["composedBases", "imports", "properties", "name"],
        { m with parent := none, discriminator := none }⟩ := by
    have hname : (Decoder.string.ofJson (.string m.name)) = .ok m.name := rfl
    refine (RecordFormat.jsonMembers_cons rfl (by decide) (map_eq_ok.mpr ⟨_, hname, rfl⟩)).trans ?_
    refine (RecordFormat.jsonMembers_cons rfl (by decide)
      (map_eq_ok.mpr ⟨_, hproperties, rfl⟩)).trans ?_
    refine (RecordFormat.jsonMembers_cons rfl (by decide)
      (map_eq_ok.mpr ⟨_, himports, rfl⟩)).trans ?_
    refine (RecordFormat.jsonMembers_cons rfl (by decide)
      (map_eq_ok.mpr ⟨_, hbases, rfl⟩)).trans ?_
    rfl
  rw [toJson, List.append_assoc]
  refine (congrArg (· >>= format.complete) (hlists _)).trans ?_
  obtain ⟨name, properties, imports, bases, parent, discriminator⟩ := m
  cases parent <;> cases discriminator <;> rfl

end Model

namespace GenerationUnit

theorem ofJson_toJson (u : GenerationUnit) : format.decoder.ofJson u.toJson = .ok u := by
  have hmodels : Model.format.decoder.list.ofJson (.array (u.models.map Model.toJson)) =
      .ok u.models :=
    Decoder.list_ofJson_map fun m _ => m.ofJson_toJson
  have hmember : format.jsonMembers [("models", .array (u.models.map Model.toJson))] format.start =
      .ok ⟨["models"], u⟩ := by
    refine (RecordFormat.jsonMembers_cons rfl List.not_mem_nil
      (map_eq_ok.mpr ⟨_, hmodels, rfl⟩)).trans ?_
    rfl
  exact congrArg (· >>= format.complete) hmember

end GenerationUnit

namespace Registry

theorem ofJson_toJson (r : Registry) : decoder.ofJson r.toJson = .ok r :=
  map_eq_ok.mpr ⟨_, Decoder.nameMap_ofJson_map fun e _ => e.2.ofJson_toJson, rfl⟩

/-- The types of all properties satisfy a condition. -/
def AllTypes (p : Json → Prop) (r : Registry) : Prop :=
  ∀ e ∈ r.models, ∀ q ∈ e.2.properties, p q.type.json

instance (p : Json → Prop) [DecidablePred p] (r : Registry) : Decidable (r.AllTypes p) :=
  inferInstanceAs (Decidable (∀ e ∈ r.models, ∀ q ∈ e.2.properties, p q.type.json))

theorem allTypes_iff {p : Json → Prop} {r : Registry} :
    r.AllTypes p ↔
      ∀ e ∈ r.units.entries, ∀ m ∈ e.2.models, ∀ q ∈ m.properties, p q.type.json := by
  simp only [AllTypes, models, List.forall_mem_flatMap, List.forall_mem_map]

end Registry

section Layers

variable {q : Nat → Json → Prop}

/-- A property of trees that nest in so many layers, which passes from the parts of a tree to the
tree. -/
structure Layered (q : Nat → Json → Prop) : Prop where
  null (n : Nat) : q n .null
  bool (n : Nat) (b : Bool) : q n (.bool b)
  string (n : Nat) (s : String) : q n (.string s)
  array {n : Nat} {items : List Json} : (∀ j ∈ items, q n j) → q (n + 1) (.array items)
  object {n : Nat} {members : List (String × Json)} :
    (∀ m ∈ members, q n m.2) → q (n + 1) (.object members)

theorem layered_nesting : Layered fun n j => j.nesting ≤ n where
  null n := n.zero_le
  bool n _ := n.zero_le
  string n _ := n.zero_le
  array := nesting_array_le.mpr
  object := nesting_object_le.mpr

theorem layered_hasNoDoubles : Layered fun _ j => j.HasNoDoubles where
  null _ := rfl
  bool _ _ := rfl
  string _ _ := rfl
  array := hasNoDoubles_array.mpr
  object := hasNoDoubles_object.mpr

theorem layered_hasFiniteNumbers : Layered fun _ j => j.HasFiniteNumbers where
  null _ := trivial
  bool _ _ := trivial
  string _ _ := trivial
  array := hasFiniteNumbers_array.mpr
  object := hasFiniteNumbers_object.mpr

namespace Layered

variable (hq : Layered q) {n : Nat}

include hq

theorem strings (ss : List String) : q (n + 1) (.strings ss) :=
  hq.array (List.forall_mem_map.mpr fun s _ => hq.string n s)

theorem property {p : Property} (h : q n p.type.json) : q (n + 1) p.toJson := by
  rw [Property.toJson]
  refine hq.object ?_
  split <;> simp [hq.string, hq.bool, h]

theorem discriminator (d : Discriminator) : q (n + 1) d.toJson :=
  hq.object (by simp [hq.string])

theorem model {m : Model} (h : ∀ p ∈ m.properties, q n p.type.json) : q (n + 3) m.toJson := by
  have hproperties : q (n + 2) (.array (m.properties.map Property.toJson)) :=
    hq.array (List.forall_mem_map.mpr fun p hp => hq.property (h p hp))
  have himports : q (n + 2) (.strings m.imports.names) := hq.strings _
  have hbases : q (n + 2) (.strings m.composedBases) := hq.strings _
  have hparent : ∀ e ∈ Json.ofOption "parent" .string m.parent, q (n + 2) e.2 := by
    cases m.parent <;> simp [Json.ofOption, hq.string]
  have hdiscriminator :
      ∀ e ∈ Json.ofOption "discriminator" Discriminator.toJson m.discriminator, q (n + 2) e.2 := by
    cases m.discriminator <;> simp [Json.ofOption, hq.discriminator]
  refine hq.object ?_
  simp only [List.forall_mem_append, List.forall_mem_cons]
  exact ⟨⟨⟨hq.string _ _, hproperties, himports, hbases, List.forall_mem_nil _⟩, hparent⟩,
    hdiscriminator⟩

theorem generationUnit {u : GenerationUnit}
    (h : ∀ m ∈ u.models, ∀ p ∈ m.properties, q n p.type.json) : q (n + 5) u.toJson := by
  have hmodels : q (n + 4) (.array (u.models.map Model.toJson)) :=
    hq.array (List.forall_mem_map.mpr fun m hm => hq.model (h m hm))
  exact hq.object (by simpa using hmodels)

theorem registry {r : Registry} (h : r.AllTypes (q n)) : q (n + 6) r.toJson :=
  hq.object (List.forall_mem_map.mpr fun e he =>
    hq.generationUnit (Registry.allTypes_iff.mp h e he))

end Layered

end Layers

section Rereading

/-- A property with the numbers in its type as they are read back. -/
def Property.reread (p : Property) : Property :=
  { p with type := p.type.reread }

theorem Property.toJson_reread (p : Property) : p.reread.toJson = p.toJson.reread := by
  have htype : p.reread.type.json = p.type.json.reread := rfl
  rw [toJson, toJson, htype]
  cases p.type.json <;> rfl

def Model.reread (m : Model) : Model :=
  { m with properties := m.properties.map Property.reread }

theorem Json.reread_strings (ss : List String) : (Json.strings ss).reread = Json.strings ss := by
  rw [Json.strings, Json.reread_array, List.map_map]
  rfl

theorem Model.toJson_reread (m : Model) : m.reread.toJson = m.toJson.reread := by
  have hproperties : m.reread.properties.map Property.toJson =
      (m.properties.map Property.toJson).map Json.reread := by
    simp only [reread, List.map_map, Function.comp_def, Property.toJson_reread]
  have hparent : (Json.ofOption "parent" .string m.parent).map (fun e => (e.1, e.2.reread)) =
      Json.ofOption "parent" .string m.parent := by
    cases m.parent <;> rfl
  have hdiscriminator : (Json.ofOption "discriminator" Discriminator.toJson m.discriminator).map
      (fun e => (e.1, e.2.reread)) =
        Json.ofOption "discriminator" Discriminator.toJson m.discriminator := by
    cases m.discriminator <;> rfl
  rw [toJson, toJson, Json.reread_object, hproperties]
  simp only [List.map_append, List.map_cons, List.map_nil, Json.reread_array, Json.reread_strings,
    hparent, hdiscriminator]
  rfl

def GenerationUnit.reread (u : GenerationUnit) : GenerationUnit :=
  ⟨u.models.map Model.reread⟩

theorem GenerationUnit.toJson_reread (u : GenerationUnit) :
    u.reread.toJson = u.toJson.reread := by
  simp only [toJson, reread, Json.reread_object, Json.reread_array, List.map_cons, List.map_nil,
    List.map_map, Function.comp_def, Model.toJson_reread]

/-- The registry with the numbers in all types as they are read back. -/
def Registry.reread (r : Registry) : Registry :=
  ⟨r.units.map fun _ u => u.reread⟩

theorem Registry.toJson_reread (r : Registry) : r.reread.toJson = r.toJson.reread := by
  simp only [toJson, reread, NameMap.map, Json.reread_object, List.map_map, Function.comp_def,
    GenerationUnit.toJson_reread]

theorem Registry.reread_eq_self {r : Registry} (h : r.AllTypes HasNoDoubles) : r.reread = r := by
  have hjson : r.toJson.HasNoDoubles := layered_hasNoDoubles.registry (n := 0) h
  have htree : r.reread.toJson = r.toJson := by rw [toJson_reread, Json.reread_eq_self hjson]
  exact Except.ok.inj (r.reread.ofJson_toJson.symm.trans (htree ▸ r.ofJson_toJson))

end Rereading

namespace Registry

variable {r : Registry}

/-- Nothing is lost in the value of a registry, nor in either text of it as long as all numbers in
its types are integers and the text nests no deeper than can be read. -/
theorem toJson_lossless (r : Registry) :
    ofValue r.toJson.toValue = .ok r ∧
      (r.AllTypes HasNoDoubles → r.toJson.nesting ≤ maxDepth →
        ∀ l, ofText (r.toJson.render l) = .ok r) := by
  refine ⟨coherent_decoder.canonical r.ofJson_toJson, fun hdoubles hdepth l => ?_⟩
  have hjson : r.toJson.HasNoDoubles := layered_hasNoDoubles.registry (n := 0) hdoubles
  exact coherent_decoder.followsTree.ofSource_of_document (Document.ofSource_render hjson l) hdepth
    r.ofJson_toJson

/-- The integers at both ends of what fits 64 bits, and members to be put in order. -/
def oddType : Json :=
  .object [("b", .null), ("a", .array [.number (.integer 0xffffffffffffffff (by decide)),
    .object [], .number (.integer (-0x8000000000000000) (by decide))])]

/-- Empty names, a name with escapes, and lists that are empty or have repeats. -/
def oddRegistry : Registry :=
  ⟨.ofList [("", {}), ("\"\\\n\x01é", ⟨[
    { name := "", properties := [{ name := "\t", type := oddType.toValue },
        { name := "n", required := true }],
      imports := .ofList ["x", " x"], composedBases := ["x", "x"], parent := some "" },
    { name := "", discriminator := some ⟨"/"⟩ }]⟩)]⟩

theorem oddRegistry_lossless :
    oddRegistry.AllTypes HasNoDoubles ∧ oddRegistry.toJson.nesting = 9 ∧
      ofValue oddRegistry.toJson.toValue = .ok oddRegistry ∧
      ∀ l, ofText (oddRegistry.toJson.render l) = .ok oddRegistry := by
  have hdoubles : oddRegistry.AllTypes HasNoDoubles := by decide +kernel
  have hnesting : oddRegistry.toJson.nesting = 9 := by decide +kernel
  have hdepth : oddRegistry.toJson.nesting ≤ maxDepth := by
    rw [hnesting]
    decide
  obtain ⟨hvalue, htext⟩ := toJson_lossless oddRegistry
  exact ⟨hdoubles, hnesting, hvalue, htext hdoubles hdepth⟩

end Registry

end ModelRegistry
