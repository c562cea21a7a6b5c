import Mathlib.Data.List.Nodup
import ModelRegistry.Proofs.Records
import ModelRegistry.Registry.Format

/-!
# The grammar of registries

Which values are accepted as registries is told here without decoding any: of what kind each field
is, which fields may be left out, and the two spellings that all records have in common. A decoder
recognizes a kind of values if it takes just these. The decoders of the parts recognize the kinds of
the grammar, and so does what is built from them, the decoder of registries in the end.
-/

namespace ModelRegistry

namespace Json

/-! ### Kinds of values -/

def IsString : Json → Prop
  | .string _ => True
  | _ => False

def IsBool : Json → Prop
  | .bool _ => True
  | _ => False

def IsListOf (kind : Json → Prop) : Json → Prop
  | .array items => ∀ j ∈ items, kind j
  | _ => False

def IsObjectOf (kind : Json → Prop) : Json → Prop
  | .object members => ∀ m ∈ members, kind m.2
  | _ => False

def IsNullOr (kind : Json → Prop) (j : Json) : Prop :=
  j = .null ∨ kind j

/-- A field of a record: what its value has to be, and whether it has to be there. -/
structure FieldRule where
  name : String
  needed : Bool
  kind : Json → Prop

/-- Items that are the first fields of a record, in their order; none that is needed is left. -/
inductive InOrder : List FieldRule → List Json → Prop
  | rest {rules : List FieldRule} (left : ∀ rule ∈ rules, rule.needed = false) : InOrder rules []
  | next {rule : FieldRule} {rules : List FieldRule} {j : Json} {js : List Json}
      (kind : rule.kind j) (others : InOrder rules js) : InOrder (rule :: rules) (j :: js)

/-- A record is spelled as an object or as an array. Of an object only the members count that are
fields, whatever else is there. -/
inductive IsRecord (rules : List FieldRule) : Json → Prop
  | object {members : List (String × Json)}
      (kinds : ∀ rule ∈ rules, ∀ j, (rule.name, j) ∈ members → rule.kind j)
      (complete : ∀ rule ∈ rules, rule.needed = true → ∃ j, (rule.name, j) ∈ members) :
      IsRecord rules (.object members)
  | array {items : List Json} (fields : InOrder rules items) : IsRecord rules (.array items)

def propertyRules : List FieldRule :=
  [⟨"name", true, IsString⟩, ⟨"required", false, IsBool⟩, ⟨"type", false, fun _ => True⟩]

def IsProperty : Json → Prop :=
  IsRecord propertyRules

def discriminatorRules : List FieldRule :=
  [⟨"propertyName", true, IsString⟩]

def IsDiscriminator : Json → Prop :=
  IsRecord discriminatorRules

def modelRules : List FieldRule :=
  [⟨"name", true, IsString⟩, ⟨"properties", false, IsListOf IsProperty⟩,
    ⟨"imports", false, IsListOf IsString⟩, ⟨"composedBases", false, IsListOf IsString⟩,
    ⟨"parent", false, IsNullOr IsString⟩, ⟨"discriminator", false, IsNullOr IsDiscriminator⟩]

def IsModel : Json → Prop :=
  IsRecord modelRules

def unitRules : List FieldRule :=
  [⟨"models", false, IsListOf IsModel⟩]

def IsGenerationUnit : Json → Prop :=
  IsRecord unitRules

def IsRegistry : Json → Prop :=
  IsObjectOf IsGenerationUnit

section Records

variable {rules : List FieldRule} {items : List Json} {members members' : List (String × Json)}

theorem InOrder.length_le (h : InOrder rules items) : items.length ≤ rules.length := by
  induction h with
  | rest => exact Nat.zero_le _
  | next _ _ ih => exact Nat.succ_le_succ ih

/-- Where the first field is needed, there is an item for it. -/
theorem InOrder.one_le_length {rule : FieldRule} (h : InOrder (rule :: rules) items)
    (hneeded : rule.needed = true) : 1 ≤ items.length := by
  cases h with
  | rest left => exact absurd hneeded (by simp [left])
  | next => exact Nat.succ_le_succ (Nat.zero_le _)

theorem inOrder_nil : InOrder rules [] ↔ ∀ rule ∈ rules, rule.needed = false :=
  ⟨fun h => by cases h; assumption, .rest⟩

theorem inOrder_cons {rule : FieldRule} {j : Json} :
    InOrder (rule :: rules) (j :: items) ↔ rule.kind j ∧ InOrder rules items :=
  ⟨fun h => by cases h; constructor <;> assumption, fun h => .next h.1 h.2⟩

theorem isRecord_array : IsRecord rules (.array items) ↔ InOrder rules items :=
  ⟨fun h => by cases h; assumption, .array⟩

theorem isRecord_object :
    IsRecord rules (.object members) ↔
      (∀ rule ∈ rules, ∀ j, (rule.name, j) ∈ members → rule.kind j) ∧
        ∀ rule ∈ rules, rule.needed = true → ∃ j, (rule.name, j) ∈ members :=
  ⟨fun h => by cases h; constructor <;> assumption, fun h => .object h.1 h.2⟩

/-- Objects with the same fields are records alike, whatever else is in them. -/
theorem isRecord_object_congr
    (h : ∀ rule ∈ rules, ∀ j, (rule.name, j) ∈ members ↔ (rule.name, j) ∈ members') :
    IsRecord rules (.object members) ↔ IsRecord rules (.object members') := by
  rw [isRecord_object, isRecord_object]
  refine and_congr (forall_congr' fun rule => forall_congr' fun hrule => ?_)
    (forall_congr' fun rule => forall_congr' fun hrule => ?_)
  · simp only [h rule hrule]
  · simp only [h rule hrule]

end Records

namespace Decoder

variable {α β : Type} {d : Decoder α} {kind : Json → Prop}

/-- Of the trees that repeat no key, the decoder takes just those of the kind. -/
def Recognizes (d : Decoder α) (kind : Json → Prop) : Prop :=
  ∀ ⦃j : Json⦄, j.HasDistinctKeys → ((∃ a, d.ofJson j = .ok a) ↔ kind j)

theorem recognizes_string : string.Recognizes IsString := by
  intro j _
  cases j <;> simp [string, IsString]

theorem recognizes_bool : bool.Recognizes IsBool := by
  intro j _
  cases j <;> simp [bool, IsBool]

theorem recognizes_value : value.Recognizes fun _ => True :=
  fun j _ => iff_of_true ⟨j.toValue, rfl⟩ trivial

namespace Recognizes

protected theorem map (h : d.Recognizes kind) (f : α → β) : (d.map f).Recognizes kind := by
  intro j hj
  rw [← h hj]
  constructor
  · rintro ⟨_, hb⟩
    obtain ⟨a, ha, -⟩ := map_eq_ok.mp hb
    exact ⟨a, ha⟩
  · rintro ⟨a, ha⟩
    exact ⟨f a, map_eq_ok.mpr ⟨a, ha, rfl⟩⟩

theorem option (h : d.Recognizes kind) : d.option.Recognizes (IsNullOr kind) := by
  intro j hj
  cases j with
  | null => exact iff_of_true ⟨none, rfl⟩ (.inl rfl)
  | bool | number | string | array | object =>
    exact (h.map some hj).trans (by simp [IsNullOr])

theorem list (h : d.Recognizes kind) : d.list.Recognizes (IsListOf kind) := by
  intro j hj
  cases j with
  | array js =>
    have hitems := hasDistinctKeys_array.mp hj
    simp only [Decoder.list, jsonItems_eq_ok, exists_forall₂_iff]
    exact forall_congr' fun j => forall_congr' fun hmem => h (hitems j hmem)
  | null | bool | number | string | object => simp [Decoder.list, IsListOf]

theorem nameMap (h : d.Recognizes kind) : d.nameMap.Recognizes (IsObjectOf kind) := by
  intro j hj
  cases j with
  | object ms =>
    obtain ⟨-, hmembers⟩ := hasDistinctKeys_object.mp hj
    constructor
    · rintro ⟨_, htaken⟩ m hm
      obtain ⟨es, hes, -⟩ := nameMap_ofJson_eq_ok.mp htaken
      obtain ⟨e, he⟩ := exists_forall₂_iff.mp ⟨es, hes⟩ m hm
      exact (h (hmembers m hm)).mp ⟨e.2, he.2⟩
    · intro hkinds
      have hentries : ∃ es, List.Forall₂ d.Takes ms es := by
        refine exists_forall₂_iff.mpr fun m hm => ?_
        obtain ⟨a, ha⟩ := (h (hmembers m hm)).mpr (hkinds m hm)
        exact ⟨(m.1, a), rfl, ha⟩
      obtain ⟨es, hes⟩ := hentries
      exact ⟨.ofList es, nameMap_ofJson_eq_ok.mpr ⟨es, hes, rfl⟩⟩
  | null | bool | number | string | array => simp [Decoder.nameMap, IsObjectOf]

end Recognizes

end Decoder

/-- The field and the rule are about the same members, and the field takes what the rule allows. -/
structure FieldRule.Describes {σ : Type} (rule : FieldRule) (field : Field σ) : Prop where
  name : rule.name = field.name
  needed : rule.needed = field.required
  kind : field.decoder.Recognizes rule.kind

namespace RecordFormat

variable {σ : Type} {f : RecordFormat σ} {rules : List FieldRule}

/-- What is spelled as an array is taken field by field. -/
theorem exists_jsonItems_eq_ok_iff {expectation surplus : String} {total i : Nat}
    {fields : List (Field σ)} {js : List Json} {record : σ}
    (h : List.Forall₂ FieldRule.Describes rules fields) (hjs : ∀ j ∈ js, j.HasDistinctKeys) :
    (∃ record', jsonItems expectation surplus total i fields js record = .ok record') ↔
      InOrder rules js := by
  induction h generalizing i js record with
  | nil =>
    cases js with
    | nil => exact iff_of_true ⟨record, rfl⟩ (.rest (List.forall_mem_nil _))
    | cons j js => exact iff_of_false (fun ⟨_, h⟩ => nomatch h) (fun h => nomatch h)
  | @cons rule field rules fields hfield _ ih =>
    cases js with
    | nil =>
      -- There are no items for this field nor for those after it: they all must be optional.
      have hneeded := hfield.needed
      rw [inOrder_nil, List.forall_mem_cons]
      cases hrequired : field.required with
      | true => simp [jsonItems, hrequired, hneeded]
      | false =>
        have hrest : (∃ record', jsonItems expectation surplus total (i + 1) fields [] record =
            .ok record') ↔ InOrder rules [] := ih hjs
        rw [inOrder_nil] at hrest
        simp [jsonItems, hrequired, hneeded, hrest]
    | cons j js =>
      obtain ⟨hj, hjs⟩ := List.forall_mem_cons.mp hjs
      simp only [jsonItems, bind_eq_ok, inOrder_cons]
      constructor
      · rintro ⟨record', set, hset, hrest⟩
        exact ⟨(hfield.kind hj).mp ⟨set, hset⟩, (ih hjs).mp ⟨record', hrest⟩⟩
      · rintro ⟨hkind, hothers⟩
        obtain ⟨set, hset⟩ := (hfield.kind hj).mpr hkind
        obtain ⟨record', hrest⟩ := (ih hjs).mpr hothers
        exact ⟨record', set, hset, hrest⟩

/-- An object without repeated keys is taken if its fields are, and none that is required is
missing. -/
theorem exists_ofJson_object_eq_ok_iff {ms : List (String × Json)}
    (hkeys : (ms.map Prod.fst).Nodup) :
    (∃ record, f.decoder.ofJson (.object ms) = .ok record) ↔
      (∀ m ∈ ms, ∀ field, f.field? m.1 = some field →
        ∃ set, field.decoder.ofJson m.2 = .ok set) ∧
      ∀ field ∈ f.fields, field.required = true → field.name ∈ ms.map Prod.fst := by
  simp only [ofJson_object_eq_ok]
  have hsublist : ((ms.filter (f.knows ·.1)).map Prod.fst).Sublist (ms.map Prod.fst) :=
    List.filter_sublist.map Prod.fst
  constructor
  · rintro ⟨_, es, hes, -, hneeded, -⟩
    refine ⟨fun m hm field hfield => ?_, fun field hfield hrequired => ?_⟩
    · have hknown : m ∈ ms.filter (f.knows ·.1) :=
        List.mem_filter.mpr ⟨hm, by simp [knows, hfield]⟩
      obtain ⟨e, -, field', hfield', hset⟩ := exists_forall₂_iff.mp ⟨es, hes⟩ m hknown
      obtain rfl := Option.some.inj (hfield.symm.trans hfield')
      exact ⟨e.2, hset⟩
    · have hname := hneeded field hfield hrequired
      rw [names_of_assigns hes] at hname
      exact hsublist.subset hname
  · rintro ⟨hkinds, hneeded⟩
    have hassigns : ∃ es, List.Forall₂ f.Assigns (ms.filter (f.knows ·.1)) es := by
      refine exists_forall₂_iff.mpr fun m hm => ?_
      obtain ⟨hm, hknown⟩ := List.mem_filter.mp hm
      obtain ⟨field, hfield⟩ := Option.isSome_iff_exists.mp hknown
      obtain ⟨set, hset⟩ := hkinds m hm field hfield
      exact ⟨(m.1, set), rfl, field, hfield, hset⟩
    obtain ⟨es, hes⟩ := hassigns
    have hnames := names_of_assigns hes
    refine ⟨_, es, hes, hnames ▸ hkeys.sublist hsublist, fun field hfield hrequired => ?_, rfl⟩
    obtain ⟨m, hm, hname⟩ := List.mem_map.mp (hneeded field hfield hrequired)
    have hknown : f.knows m.1 = true := by
      rw [knows, field?, List.find?_isSome]
      exact ⟨field, hfield, decide_eq_true hname.symm⟩
    rw [hnames]
    exact List.mem_map.mpr ⟨m, List.mem_filter.mpr ⟨hm, hknown⟩, hname⟩

/-- What the rules ask of an object, the fields that they describe ask of it. -/
theorem isRecord_object_iff_fields (h : List.Forall₂ FieldRule.Describes rules f.fields)
    (hnames : (f.fields.map (·.name)).Nodup) {ms : List (String × Json)}
    (hms : ∀ m ∈ ms, m.2.HasDistinctKeys) :
    IsRecord rules (.object ms) ↔
      (∀ m ∈ ms, ∀ field, f.field? m.1 = some field →
        ∃ set, field.decoder.ofJson m.2 = .ok set) ∧
      ∀ field ∈ f.fields, field.required = true → field.name ∈ ms.map Prod.fst := by
  rw [isRecord_object]
  constructor
  · rintro ⟨hkinds, hcomplete⟩
    refine ⟨fun m hm field hfield => ?_, fun field hfield hrequired => ?_⟩
    · obtain ⟨rule, hrule, hdescribes⟩ := exists_mem_of_forall₂ h (field?_mem hfield)
      have hname : rule.name = m.1 := hdescribes.name.trans (field?_name hfield)
      exact (hdescribes.kind (hms m hm)).mpr (hkinds rule hrule m.2 (hname ▸ hm))
    · obtain ⟨rule, hrule, hdescribes⟩ := exists_mem_of_forall₂ h hfield
      obtain ⟨j, hmem⟩ := hcomplete rule hrule (hdescribes.needed.trans hrequired)
      exact List.mem_map.mpr ⟨_, hmem, hdescribes.name⟩
  · rintro ⟨hkinds, hneeded⟩
    refine ⟨fun rule hrule j hmem => ?_, fun rule hrule hrequired => ?_⟩
    · obtain ⟨field, hfield, hdescribes⟩ := exists_mem_of_forall₂ h.flip hrule
      -- The names of the fields are distinct, so the member is looked up as this very field.
      have hfind := field?_of_mem hnames hfield
      rw [← hdescribes.name] at hfind
      exact (hdescribes.kind (hms _ hmem)).mp (hkinds _ hmem field hfind)
    · obtain ⟨field, hfield, hdescribes⟩ := exists_mem_of_forall₂ h.flip hrule
      have hmem := hneeded field hfield (hdescribes.needed ▸ hrequired)
      obtain ⟨⟨_, j⟩, hmem, rfl⟩ := List.mem_map.mp (hdescribes.name ▸ hmem)
      exact ⟨j, hmem⟩

/-- A record whose fields are described by the rules is decoded from what the rules allow. -/
theorem recognizes (h : List.Forall₂ FieldRule.Describes rules f.fields)
    (hnames : (f.fields.map (·.name)).Nodup) : f.decoder.Recognizes (IsRecord rules) := by
  intro j hj
  cases j with
  | null | bool | number | string =>
    exact iff_of_false (fun ⟨_, hrecord⟩ => nomatch hrecord) (fun hrecord => nomatch hrecord)
  | array js =>
    rw [isRecord_array]
    exact exists_jsonItems_eq_ok_iff h (hasDistinctKeys_array.mp hj)
  | object ms =>
    obtain ⟨hkeys, hmembers⟩ := hasDistinctKeys_object.mp hj
    rw [exists_ofJson_object_eq_ok_iff hkeys, isRecord_object_iff_fields h hnames hmembers]

end RecordFormat

end Json

open Json

theorem Property.recognizes_format : format.decoder.Recognizes IsProperty := by
  refine RecordFormat.recognizes ?_ (by decide)
  exact .cons ⟨rfl, rfl, Decoder.recognizes_string.map _⟩ <|
    .cons ⟨rfl, rfl, Decoder.recognizes_bool.map _⟩ <|
    .cons ⟨rfl, rfl, Decoder.recognizes_value.map _⟩ .nil

theorem Discriminator.recognizes_format : format.decoder.Recognizes IsDiscriminator := by
  refine RecordFormat.recognizes ?_ (by decide)
  exact .cons ⟨rfl, rfl, Decoder.recognizes_string.map _⟩ .nil

theorem Model.recognizes_format : format.decoder.Recognizes IsModel := by
  refine RecordFormat.recognizes ?_ (by decide)
  exact .cons ⟨rfl, rfl, Decoder.recognizes_string.map _⟩ <|
    .cons ⟨rfl, rfl, Property.recognizes_format.list.map _⟩ <|
    .cons ⟨rfl, rfl, (Decoder.recognizes_string.list.map _).map _⟩ <|
    .cons ⟨rfl, rfl, Decoder.recognizes_string.list.map _⟩ <|
    .cons ⟨rfl, rfl, Decoder.recognizes_string.option.map _⟩ <|
    .cons ⟨rfl, rfl, Discriminator.recognizes_format.option.map _⟩ .nil

theorem GenerationUnit.recognizes_format : format.decoder.Recognizes IsGenerationUnit := by
  refine RecordFormat.recognizes ?_ (by decide)
  exact .cons ⟨rfl, rfl, Model.recognizes_format.list.map _⟩ .nil

namespace Registry

theorem recognizes_decoder : decoder.Recognizes IsRegistry :=
  GenerationUnit.recognizes_format.nameMap.map _

/-- A value is accepted as a registry just if it is one by the grammar. Of records that are spelled
as arrays the grammar bounds the length, and null it takes for no text, no flag and no list; of
those that are spelled as objects it looks at the fields alone. -/
theorem ofValue_accepts_grammar (v : Value) :
    ((∃ r, ofValue v = .ok r) ↔ IsRegistry v.json) ∧
    (∀ items, (IsGenerationUnit (.array items) → items.length ≤ 1) ∧
      (IsModel (.array items) → 1 ≤ items.length ∧ items.length ≤ 6) ∧
      (IsProperty (.array items) → 1 ≤ items.length ∧ items.length ≤ 3) ∧
      (IsDiscriminator (.array items) → items.length = 1)) ∧
    (¬ IsString .null ∧ ¬ IsBool .null ∧ ∀ kind, ¬ IsListOf kind .null) ∧
    ∀ rules members members',
      (∀ rule ∈ rules, ∀ j, (rule.name, j) ∈ members ↔ (rule.name, j) ∈ members') →
      (IsRecord rules (.object members) ↔ IsRecord rules (.object members')) := by
  refine ⟨recognizes_decoder (hasDistinctKeys_of_canonical v.canonical), fun items => ?_, ?_,
    fun _ _ _ => isRecord_object_congr⟩
  · simp only [IsGenerationUnit, IsModel, IsProperty, IsDiscriminator, isRecord_array]
    refine ⟨fun h => h.length_le, fun h => ⟨h.one_le_length rfl, h.length_le⟩,
      fun h => ⟨h.one_le_length rfl, h.length_le⟩, fun h => ?_⟩
    exact Nat.le_antisymm h.length_le (h.one_le_length rfl)
  · exact ⟨id, id, fun _ => id⟩

/-- One unit is spelled as an object, the other one as an array. Of its models the first has a
property that is an array too, the second a member that is no field. -/
def shelterTree (birds : Json) : Json :=
  .object [("birds", .object [("models", birds)]),
    ("pets", .array [.array [.array [.string "Cat", .array [.array [.string "lives"]]],
      .object [("legs", .null), ("name", .string "Dog"), ("parent", .null)]]])]

theorem ofValue_accepts_grammar_shelter :
    (∃ r, ofValue (shelterTree (.array [])).toValue = .ok r) ∧
      (¬∃ r, ofValue (shelterTree .null).toValue = .ok r) ∧
      ¬IsDiscriminator (.array []) ∧
      IsDiscriminator (.object [("mapping", .null), ("propertyName", .string "kind")]) := by
  obtain ⟨haccepted, -, -, -⟩ := ofValue_accepts_grammar (shelterTree (.array [])).toValue
  obtain ⟨hrefused, hbounds, ⟨-, -, hnull⟩, hcongr⟩ :=
    ofValue_accepts_grammar (shelterTree .null).toValue
  have hregistry : IsRegistry (shelterTree (.array [])) := by
    simp [shelterTree, IsRegistry, IsObjectOf, IsGenerationUnit, unitRules, IsModel, modelRules,
      IsProperty, propertyRules, isRecord_object, isRecord_array, inOrder_cons, inOrder_nil,
      IsListOf, IsString, IsNullOr]
  refine ⟨haccepted.mpr hregistry, fun h => ?_, fun h => ?_, ?_⟩
  · have hbirds : IsGenerationUnit (.object [("models", .null)]) :=
      hrefused.mp h ("birds", _) List.mem_cons_self
    have hmodels := (isRecord_object.mp hbirds).1 _ List.mem_cons_self _ List.mem_cons_self
    exact hnull IsModel hmodels
  · exact absurd ((hbounds []).2.2.2 h) (by decide)
  · have hplain : IsDiscriminator (.object [("propertyName", .string "kind")]) := by
      simp [IsDiscriminator, isRecord_object, discriminatorRules, IsString]
    refine (hcongr discriminatorRules _ _ fun rule hrule j => ?_).mp hplain
    obtain rfl := List.mem_singleton.mp hrule
    simp

end Registry

end ModelRegistry
