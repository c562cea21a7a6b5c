import ModelRegistry.CommandLine.Plan
import ModelRegistry.Proofs.FiniteNumbers
import ModelRegistry.Proofs.RoundTrip
import ModelRegistry.Proofs.SettingsResolution

/-!
# Properties written and read back

Properties that were read of a text have values that can be written and read once more: these nest
less deep than a text may, and their numbers are finite. Naming a library among the properties and
publishing its flag puts in nothing but texts. So what is written of the settings of a run is read
back, in either layout, as its properties with their numbers as they are read back.
-/

namespace ModelRegistry

open Json

namespace AdditionalProperties

variable {ps : AdditionalProperties}

theorem coherent_decoder : decoder.Coherent :=
  Decoder.coherent_value.nameMap

theorem ofJson_toJson (ps : AdditionalProperties) : decoder.ofJson ps.toJson = .ok ps :=
  Decoder.nameMap_ofJson_map fun e _ => congrArg Except.ok (toValue_json e.2)

/-- The properties with every number as it is read back. -/
def reread (ps : AdditionalProperties) : AdditionalProperties :=
  ps.map fun _ v => v.reread

theorem get?_reread (ps : AdditionalProperties) (key : String) :
    ps.reread.get? key = (ps.get? key).map Value.reread :=
  NameMap.get?_map _ ps key

theorem toJson_reread (ps : AdditionalProperties) : ps.reread.toJson = ps.toJson.reread := by
  simp only [toJson, reread, NameMap.map, Json.reread_object, List.map_map, Function.comp_def]
  rfl

/-- All values can be read again when they are written inside of one object. -/
def Readable (ps : AdditionalProperties) : Prop :=
  ∀ e ∈ ps.entries, e.2.json.HasFiniteNumbers ∧ e.2.json.nesting ≤ maxDepth - 1

theorem readable_empty : empty.Readable :=
  List.forall_mem_nil _

theorem readable_of_ofSource {s : Source} (h : decoder.ofSource s = .ok ps) : ps.Readable := by
  obtain ⟨hdocument, -⟩ := Decoder.ofSource_eq_ok.mp h
  have hfinite : decoder.Ensures Document.HasFiniteNumbers maxDepth fun ps =>
      ∀ e ∈ ps.entries, e.2.json.HasFiniteNumbers :=
    Decoder.ensures_value_hasFiniteNumbers.nameMap Document.hereditary_hasFiniteNumbers
  have hnesting : decoder.Ensures (fun _ => True) maxDepth fun ps =>
      ∀ e ∈ ps.entries, e.2.json.nesting ≤ maxDepth - 1 :=
    Decoder.ensures_value.nameMap Document.hereditary_true
  exact fun e he => ⟨hfinite (Document.hasFiniteNumbers_ofSource s) hdocument e he,
    hnesting trivial hdocument e he⟩

theorem Readable.insert_string (h : ps.Readable) (key text : String) :
    Readable (ps.insert key (.string text)) := by
  intro e he
  obtain rfl | he := Entries.eq_or_mem_of_mem_put he
  · exact ⟨trivial, Nat.zero_le _⟩
  · exact h e he

theorem Readable.settings {settings : Logged Event Settings} (h : ps.Readable)
    (hsettings : Settings.ofProperties ps = .ok settings) :
    settings.value.additionalProperties.Readable := by
  rw [(Settings.of_ofProperties hsettings).2.1]
  exact h.insert_string _ _

/-- What is written of properties is read back in either layout. -/
theorem Readable.ofSource_fileText (h : ps.Readable) (l : Layout) :
    decoder.ofSource (.ofText (CommandLine.fileText l ps.toJson)) = .ok ps.reread := by
  have hnumbers : ps.toJson.HasFiniteNumbers :=
    hasFiniteNumbers_object.mpr (List.forall_mem_map.mpr fun e he => (h e he).1)
  have hdepth : ps.toJson.nesting ≤ maxDepth :=
    nesting_object_le.mpr (List.forall_mem_map.mpr fun e he => (h e he).2)
  refine coherent_decoder.followsTree.ofSource_of_document
    (Document.ofSource_render_line hnumbers l) (nesting_reread_le hdepth) ?_
  rw [← toJson_reread]
  exact ps.reread.ofJson_toJson

end AdditionalProperties

end ModelRegistry
