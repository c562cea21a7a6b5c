import Mathlib.Logic.Relation
import ModelRegistry.CommandLine.Plan
import ModelRegistry.Proofs.RoundTrip
import ModelRegistry.Proofs.Spacing
import ModelRegistry.Proofs.StableDecoders

/-!
# Output that does not depend on the order of the input

A registry text may be rewritten by other blanks between its tokens, by members of its objects in
another order, and by other orders and repeats of the imports of its models. Each rewriting leaves
it the text of the same registry, and so does any number of them. Hence all that a run writes is the
same, byte for byte.
-/

namespace ModelRegistry

open Json Document

namespace Json.Document

/-- The value of one field of a record is replaced, be it under its name or at its place. -/
inductive InField (name : String) (index : Nat) (R : Document → Document → Prop) :
    Document → Document → Prop
  | member {before after : List (Key × Document)} {stop : Stop} {d d' : Document} (h : R d d') :
      InField name index R (.object (before ++ (.ok name, d) :: after) stop)
        (.object (before ++ (.ok name, d') :: after) stop)
  | item {before after : List Document} {stop : Stop} {d d' : Document} (h : R d d')
      (hindex : before.length = index) :
      InField name index R (.list (before ++ d :: after) stop) (.list (before ++ d' :: after) stop)

/-- Two lists that have the same items, in any order and any number. -/
inductive SameItems : Document → Document → Prop
  | list {items items' : List Document} {stop : Stop} (h : ∀ d, d ∈ items ↔ d ∈ items') :
      SameItems (.list items stop) (.list items' stop)

/-- The imports of one model of a registry are listed in another order or with other repeats. -/
def Relisted : Document → Document → Prop :=
  InMember (InField "models" 0 (InItem (InField "imports" 2 SameItems)))

section Keeps

variable {R : Document → Document → Prop} {name : String} {index : Nat}

/-- A replacement that can be taken back and does not make an object repeat a key. -/
structure Fair (R : Document → Document → Prop) : Prop where
  symm {d d' : Document} : R d d' → R d' d
  noRepeats {d d' : Document} : R d d' → d.NoRepeats → d'.NoRepeats

theorem fair_reordered : Fair Reordered :=
  ⟨Reordered.symm, Reordered.noRepeats⟩

theorem fair_sameItems : Fair SameItems where
  symm := by
    rintro _ _ ⟨h⟩
    exact .list fun d => (h d).symm
  noRepeats := by
    rintro _ _ ⟨h⟩ hd
    exact noRepeats_list.mpr fun d hmem => noRepeats_list.mp hd d ((h d).mpr hmem)

theorem Fair.inItem (h : Fair R) : Fair (InItem R) where
  symm := by
    rintro _ _ ⟨hR⟩
    exact .item (h.symm hR)
  noRepeats := by
    rintro _ _ ⟨hR⟩ hd
    exact hd.replace_item (h.noRepeats hR)

theorem Fair.inMember (h : Fair R) : Fair (InMember R) where
  symm := by
    rintro _ _ ⟨hR⟩
    exact .member (h.symm hR)
  noRepeats := by
    rintro _ _ ⟨hR⟩ hd
    exact hd.replace_member (h.noRepeats hR)

theorem Fair.inField (h : Fair R) : Fair (InField name index R) where
  symm := by
    rintro _ _ (⟨hR⟩ | ⟨hR, hindex⟩)
    · exact .member (h.symm hR)
    · exact .item (h.symm hR) hindex
  noRepeats := by
    rintro _ _ (⟨hR⟩ | ⟨hR, -⟩) hd
    · exact hd.replace_member (h.noRepeats hR)
    · exact hd.replace_item (h.noRepeats hR)

theorem fair_relisted : Fair Relisted :=
  fair_sameItems.inField.inItem.inField.inMember

end Keeps

end Json.Document

namespace Json

theorem RecordFormat.admits_of_inField {σ : Type} {f : RecordFormat σ} {name : String}
    {index : Nat} {R : Document → Document → Prop} {field : Field σ}
    (hname : f.field? name = some field) (hindex : f.fields[index]? = some field)
    (hR : ∀ d d', R d d' → field.decoder.Admits d d') {doc doc' : Document}
    (h : InField name index R doc doc') : f.decoder.Admits doc doc' := by
  obtain hd | ⟨hd, rfl⟩ := h
  · refine admits_member (fun name field' hkey hfield' => ?_) fun name hkey hunknown => ?_
    · cases hkey
      cases hname.symm.trans hfield'
      exact hR _ _ hd
    · cases hkey
      cases hname.symm.trans hunknown
  · refine admits_item fun field' hfield' => ?_
    cases hindex.symm.trans hfield'
    exact hR _ _ hd

end Json

namespace Property

theorem stable_format : format.decoder.Stable := by
  refine RecordFormat.stable ?_ coherent_format.commute
  simp only [format, List.forall_mem_cons, Field.needed, Field.optional]
  exact ⟨Decoder.stable_string.map _, Decoder.stable_bool.map _, Decoder.stable_value.map _,
    List.forall_mem_nil _⟩

end Property

namespace Discriminator

theorem stable_format : format.decoder.Stable := by
  refine RecordFormat.stable ?_ coherent_format.commute
  simp only [format, List.forall_mem_cons, Field.needed]
  exact ⟨Decoder.stable_string.map _, List.forall_mem_nil _⟩

end Discriminator

namespace Model

theorem stable_format : format.decoder.Stable := by
  refine RecordFormat.stable ?_ coherent_format.commute
  simp only [format, List.forall_mem_cons, Field.needed, Field.optional]
  refine ⟨Decoder.stable_string.map _, ?_, ?_, ?_, ?_, ?_, List.forall_mem_nil _⟩
  · exact Property.stable_format.list.map _
  · exact (Decoder.stable_string.list.map _).map _
  · exact Decoder.stable_string.list.map _
  · exact Decoder.stable_string.option.map _
  · exact Discriminator.stable_format.option.map _

/-- A list of texts is a list of strings without faults. -/
theorem list_string_ofDocument_eq_ok {depth : Nat} {items : List Document} {stop : Stop}
    {names : List String} :
    Decoder.string.list.ofDocument depth (.list items stop) = .ok names ↔
      ∃ k, depth = k + 1 ∧ stop = .closed ∧ items = names.map fun s => .string (.ok s) := by
  have hstring (k : Nat) (d : Document) (s : String) :
      Decoder.string.ofDocument k d = .ok s ↔ d = .string (.ok s) := by
    cases d <;> simp [Decoder.string, refuse_eq_ok]
  have hitems : List.Forall₂ (fun d s => d = Document.string (.ok s)) items names ↔
      items = names.map fun s => .string (.ok s) := by
    rw [← List.forall₂_eq_eq_eq, List.forall₂_map_right_iff]
  simp only [Decoder.list_ofDocument_eq_ok, hstring, hitems]

theorem admits_sameItems {doc doc' : Document} (h : SameItems doc doc') :
    ((Decoder.list .string).map NameSet.ofList).Admits doc doc' := by
  obtain @⟨items, items', stop, h⟩ := h
  intro depth imports himports
  obtain ⟨names, hnames, rfl⟩ := map_eq_ok.mp himports
  obtain ⟨k, hk, hstop, rfl⟩ := list_string_ofDocument_eq_ok.mp hnames
  have hstrings : items' ∈ Set.range (List.map fun s => Document.string (.ok s)) := by
    rw [Set.range_list_map]
    intro d hd
    obtain ⟨s, -, hs⟩ := List.mem_map.mp ((h d).mpr hd)
    exact ⟨s, hs⟩
  obtain ⟨names', rfl⟩ := hstrings
  refine map_eq_ok.mpr ⟨names', list_string_ofDocument_eq_ok.mpr ⟨k, hk, hstop, rfl⟩, ?_⟩
  refine NameSet.ext_mem fun name => ?_
  have hinjective : Function.Injective fun s => Document.string (.ok s) := by
    intro s t hst
    simpa using hst
  rw [NameSet.mem_ofList, NameSet.mem_ofList, ← List.mem_map_of_injective hinjective,
    ← List.mem_map_of_injective hinjective]
  exact (h _).symm

theorem admits_relisted {doc doc' : Document} (h : InField "imports" 2 SameItems doc doc') :
    format.decoder.Admits doc doc' :=
  RecordFormat.admits_of_inField rfl rfl (fun _ _ h => (admits_sameItems h).map _) h

end Model

theorem GenerationUnit.stable_format : format.decoder.Stable := by
  refine RecordFormat.stable ?_ coherent_format.commute
  simp only [format, List.forall_mem_cons, Field.optional]
  exact ⟨Model.stable_format.list.map _, List.forall_mem_nil _⟩

theorem GenerationUnit.admits_relisted {doc doc' : Document}
    (h : InField "models" 0 (InItem (InField "imports" 2 SameItems)) doc doc') :
    format.decoder.Admits doc doc' := by
  refine RecordFormat.admits_of_inField rfl rfl (fun _ _ hmodels => ?_) h
  obtain ⟨hmodel⟩ := hmodels
  exact ((Model.admits_relisted hmodel).list_item _ _ _).map _

namespace Registry

theorem stable_decoder : decoder.Stable :=
  GenerationUnit.stable_format.nameMap.map _

theorem admits_relisted {doc doc' : Document} (h : Relisted doc doc') :
    decoder.Admits doc doc' := by
  obtain ⟨hunit⟩ := h
  exact ((GenerationUnit.admits_relisted hunit).nameMap_member _ _ _ _).map _

/-- One rewriting of a text: with other blanks between its tokens, with the members of an object in
another order, or with the imports of a model listed otherwise. -/
inductive Rewrite (s t : Source) : Prop
  | blanks (h : s.squeeze = t.squeeze)
  | members (h : Reordered (Document.ofSource s).document (Document.ofSource t).document)
  | imports (h : Relisted (Document.ofSource s).document (Document.ofSource t).document)

/-- One text comes of another by rewritings that all lead to valid texts. -/
def Rewritten : Source → Source → Prop :=
  Relation.ReflTransGen fun s t => t.Valid ∧ Rewrite s t

/-- The text of a registry in which no object repeats a key. -/
def Proper (s : Source) : Prop :=
  s.Valid ∧ (Document.ofSource s).document.NoRepeats

instance (s : Source) : Decidable (Proper s) :=
  inferInstanceAs (Decidable (_ ∧ _))

section Rewriting

variable {s t : Source}

/-- A replacement that can be taken back is read alike if the decoder admits it. -/
theorem reads_alike_of_fair {R : Document → Document → Prop} (hR : Fair R)
    (hadmits : ∀ ⦃doc doc'⦄, R doc doc' → doc.NoRepeats → decoder.Admits doc doc')
    (hs : Proper s) (ht : t.Valid)
    (h : R (Document.ofSource s).document (Document.ofSource t).document) :
    Proper t ∧ ∀ r, decoder.ofSource s = .ok r ↔ decoder.ofSource t = .ok r := by
  have hrepeats := hR.noRepeats h hs.2
  refine ⟨⟨ht, hrepeats⟩, fun r => ?_⟩
  rw [Decoder.ofSource_eq_ok, Decoder.ofSource_eq_ok, and_iff_left hs.1.2, and_iff_left ht.2]
  exact ⟨fun hr => hadmits h hs.2 hr, fun hr => hadmits (hR.symm h) hrepeats hr⟩

theorem Rewrite.reads_alike (h : Rewrite s t) (hs : Proper s) (ht : t.Valid) :
    Proper t ∧ ∀ r, decoder.ofSource s = .ok r ↔ decoder.ofSource t = .ok r := by
  cases h with
  | blanks h =>
    have hreading := hs.1.ofSource_eq ht h
    refine ⟨⟨ht, hreading ▸ hs.2⟩, fun r => ?_⟩
    rw [Decoder.ofSource, hreading]
    rfl
  | members h => exact reads_alike_of_fair fair_reordered (fun _ _ h => stable_decoder h) hs ht h
  | imports h => exact reads_alike_of_fair fair_relisted (fun _ _ h _ => admits_relisted h) hs ht h

theorem Rewritten.reads_alike (h : Rewritten s t) (hs : Proper s) :
    Proper t ∧ ∀ r, decoder.ofSource s = .ok r ↔ decoder.ofSource t = .ok r := by
  induction h with
  | refl => exact ⟨hs, fun _ => .rfl⟩
  | tail _ hstep ih =>
    obtain ⟨hu, hsu⟩ := ih
    obtain ⟨ht, hut⟩ := hstep.2.reads_alike hu hstep.1
    exact ⟨ht, fun r => (hsu r).trans (hut r)⟩

end Rewriting

/-- What a run writes of a registry text: nothing if the text does not decode, else the texts of the
registry and of the report, unless an issue stops the run. -/
def writtenTexts (o : Options) (l : Layout) (s : Source) :
    Option (Except Inconsistency (String × String)) :=
  match decoder.ofSource s with
  | .error _ => none
  | .ok r =>
    let run := r.postProcess o
    some <| run.result.map fun report =>
      (CommandLine.fileText l run.registry.toJson, CommandLine.fileText l report.toJson)

/-- However the text of a registry is rewritten, it is rejected as before or it is the text of the
same registry; and a run writes the same or is stopped by the same issue. -/
theorem writtenTexts_reproducible {s t : Source} (hs : Proper s) (h : Rewritten s t) :
    (∀ r, decoder.ofSource s = .ok r ↔ decoder.ofSource t = .ok r) ∧
      ∀ o l, writtenTexts o l s = writtenTexts o l t := by
  have hreads := (h.reads_alike hs).2
  refine ⟨hreads, fun o l => ?_⟩
  cases hr : decoder.ofSource s with
  | ok r => simp only [writtenTexts, hr, (hreads r).mp hr]
  | error e =>
    cases hr' : decoder.ofSource t with
    | ok r => cases hr.symm.trans ((hreads r).mpr hr')
    | error e' => simp only [writtenTexts, hr, hr']

/-- One unit with one model whose imports come before its name, with blanks in between. -/
def spacedText : String :=
  "\x7b \"pets\" : \x7b\n\"models\": [ \x7b \"imports\" :[\"Dog\", \" b\",\t\"Dog\"]," ++
    "\"name\": \"Cat\" \x7d] \x7d \x7d"

def squeezedText : String :=
  "\x7b\"pets\":\x7b\"models\":[\x7b\"imports\":[\"Dog\",\" b\",\"Dog\"]," ++
    "\"name\":\"Cat\"\x7d]\x7d\x7d"

/-- The name comes first, and the imports are listed in another order. -/
def sortedText : String :=
  "\x7b\"pets\": \x7b\"models\": [\x7b\"name\": \"Cat\", " ++
    "\"imports\": [\" b\", \"Dog\"]\x7d]\x7d\x7d"

def swappedText : String :=
  "\x7b\"pets\": \x7b\"models\": [\x7b\"name\": \"Cat\", " ++
    "\"imports\": [\"Dog\", \" b\", \"Dog\"]\x7d]\x7d\x7d"

/-- The document of a text with one model of one unit, which has a name and imports. -/
def petDocument (members : List (Key × Document)) : Document :=
  .object [(.ok "pets", .object [(.ok "models", .list [.object members .closed] .closed)]
    .closed)] .closed

def importsMember (imports : List String) : Key × Document :=
  (.ok "imports", .list (imports.map fun s => .string (.ok s)) .closed)

def catMember : Key × Document :=
  (.ok "name", .string (.ok "Cat"))

def catRegistry : Registry :=
  ⟨.ofList [("pets", ⟨[{ name := "Cat", imports := .ofList [" b", "Dog"] }]⟩)]⟩

theorem writtenTexts_reproducible_cat :
    Proper (.ofText spacedText) ∧ Rewritten (.ofText spacedText) (.ofText sortedText) ∧
      decoder.ofSource (.ofText sortedText) = .ok catRegistry ∧
      ∀ o l, writtenTexts o l (.ofText spacedText) = writtenTexts o l (.ofText sortedText) := by
  have hspaced : Document.ofSource (.ofText spacedText) =
      ⟨petDocument [importsMember ["Dog", " b", "Dog"], catMember], false⟩ := by cbv
  have hsqueezed : Document.ofSource (.ofText squeezedText) =
      ⟨petDocument [importsMember ["Dog", " b", "Dog"], catMember], false⟩ := by cbv
  have hswapped : Document.ofSource (.ofText swappedText) =
      ⟨petDocument [catMember, importsMember ["Dog", " b", "Dog"]], false⟩ := by cbv
  have hsorted : Document.ofSource (.ofText sortedText) =
      ⟨petDocument [catMember, importsMember [" b", "Dog"]], false⟩ := by cbv
  have hproper : Proper (.ofText spacedText) := by
    rw [Proper, Source.Valid, hspaced]
    decide
  have hread : decoder.ofSource (.ofText spacedText) = .ok catRegistry := by
    rw [Decoder.ofSource, hspaced]
    rfl
  have hblanks : Rewrite (.ofText spacedText) (.ofText squeezedText) :=
    .blanks (by cbv)
  have hmembers : Rewrite (.ofText squeezedText) (.ofText swappedText) := by
    refine .members ?_
    rw [hsqueezed, hswapped]
    exact @Reordered.member [] [] _ (.ok "pets") _ _ (@Reordered.member [] [] _ (.ok "models") _ _
      (@Reordered.item [] [] _ _ _ (.here (.swap _ _ _))))
  have himports : Rewrite (.ofText swappedText) (.ofText sortedText) := by
    refine .imports ?_
    rw [hswapped, hsorted]
    have hsame (d : Document) : d ∈ ["Dog", " b", "Dog"].map (fun s => Document.string (.ok s)) ↔
        d ∈ [" b", "Dog"].map fun s => Document.string (.ok s) := by
      simp only [List.map_cons, List.map_nil, List.mem_cons, List.not_mem_nil, or_false]
      tauto
    exact @InMember.member _ [] [] _ (.ok "pets") _ _ (@InField.member "models" 0 _ [] [] _ _ _
      (@InItem.item _ [] [] _ _ _ (@InField.member "imports" 2 _ [catMember] [] _ _ _
        (.list hsame))))
  have hvalid : (Source.ofText squeezedText).Valid ∧ (Source.ofText swappedText).Valid ∧
      (Source.ofText sortedText).Valid := by
    rw [Source.Valid, Source.Valid, Source.Valid, hsqueezed, hswapped, hsorted]
    decide
  have hrewritten : Rewritten (.ofText spacedText) (.ofText sortedText) :=
    ((Relation.ReflTransGen.single ⟨hvalid.1, hblanks⟩).tail ⟨hvalid.2.1, hmembers⟩).tail
      ⟨hvalid.2.2, himports⟩
  obtain ⟨hreads, hwritten⟩ := writtenTexts_reproducible hproper hrewritten
  exact ⟨hproper, hrewritten, (hreads catRegistry).mp hread, hwritten⟩

end Registry

end ModelRegistry
