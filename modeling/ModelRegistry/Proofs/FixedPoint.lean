import ModelRegistry.CommandLine.Plan
import ModelRegistry.Proofs.FiniteNumbers
import ModelRegistry.Proofs.Rerun
import ModelRegistry.Proofs.RoundTrip

/-!
# Processing what was processed

A registry that was read of a text has types that nest no deeper than the text allowed, with finite
numbers only, and a run keeps the types of all properties. So what is written of a processed registry
can be read, whatever the text was like that it came from. It is read as that registry with its
numbers as they are read back; without doubles it is that registry, and processing it again writes
the same bytes.
-/

namespace ModelRegistry

open Json

section Types

variable {c : Document → Prop} {q : Json → Prop} {n : Nat}

theorem Property.ensures_format (hparts : Document.Hereditary c) (hnull : q .null)
    (hvalue : Decoder.value.Ensures c n fun v => q v.json) :
    format.decoder.Ensures c (n + 1) fun p => q p.type.json := by
  refine RecordFormat.ensures hparts hnull ?_
  simp only [format, List.forall_mem_cons, Field.needed, Field.optional]
  refine ⟨?_, ?_, ?_, List.forall_mem_nil _⟩
  · exact .map (.of_forall fun _ _ hp => hp)
  · exact .map (.of_forall fun _ _ hp => hp)
  · exact .map (hvalue.imp fun _ hv _ _ => hv)

theorem Model.ensures_format (hparts : Document.Hereditary c) (hnull : q .null)
    (hvalue : Decoder.value.Ensures c n fun v => q v.json) :
    format.decoder.Ensures c (n + 3) fun m => ∀ p ∈ m.properties, q p.type.json := by
  refine RecordFormat.ensures hparts (List.forall_mem_nil _) ?_
  simp only [format, List.forall_mem_cons, Field.needed, Field.optional]
  refine ⟨?_, ?_, ?_, ?_, ?_, ?_, List.forall_mem_nil _⟩
  · exact .map (.of_forall fun _ _ hm => hm)
  · exact .map (((Property.ensures_format hparts hnull hvalue).list hparts).imp
      fun _ hps _ _ => hps)
  all_goals exact .map (.of_forall fun _ _ hm => hm)

theorem GenerationUnit.ensures_format (hparts : Document.Hereditary c) (hnull : q .null)
    (hvalue : Decoder.value.Ensures c n fun v => q v.json) :
    format.decoder.Ensures c (n + 5) fun u =>
      ∀ m ∈ u.models, ∀ p ∈ m.properties, q p.type.json := by
  refine RecordFormat.ensures hparts (List.forall_mem_nil _) ?_
  simp only [format, List.forall_mem_cons, Field.optional]
  exact ⟨.map (((Model.ensures_format hparts hnull hvalue).list hparts).imp fun _ hms _ _ => hms),
    List.forall_mem_nil _⟩

/-- What every value that is taken has, all types of a registry have. -/
theorem Registry.ensures_decoder (hparts : Document.Hereditary c) (hnull : q .null)
    (hvalue : Decoder.value.Ensures c n fun v => q v.json) :
    decoder.Ensures c (n + 6) fun r => r.AllTypes q :=
  .map (((GenerationUnit.ensures_format hparts hnull hvalue).nameMap hparts).imp
    fun _ h => allTypes_iff.mpr h)

end Types

/-- A change of models that keeps the types of all properties. -/
def KeepsTypes (f : Place → Model → Model) : Prop :=
  ∀ p m, (f p m).properties.map (·.type) = m.properties.map (·.type)

namespace Registry

variable {r : Registry} {s : Source}

/-- A type stands inside of six containers. -/
theorem nesting_types_le_of_ofSource (h : decoder.ofSource s = .ok r) :
    r.AllTypes fun j => j.nesting ≤ maxDepth - 6 := by
  have hensures : decoder.Ensures (fun _ => True) maxDepth fun r =>
      r.AllTypes fun j => j.nesting ≤ maxDepth - 6 :=
    ensures_decoder Document.hereditary_true (Nat.zero_le _) Decoder.ensures_value
  exact hensures trivial (Decoder.ofSource_eq_ok.mp h).1

theorem hasFiniteNumbers_types_of_ofSource (h : decoder.ofSource s = .ok r) :
    r.AllTypes HasFiniteNumbers := by
  have hensures : decoder.Ensures Document.HasFiniteNumbers maxDepth fun r =>
      r.AllTypes HasFiniteNumbers :=
    ensures_decoder Document.hereditary_hasFiniteNumbers trivial
      Decoder.ensures_value_hasFiniteNumbers
  exact hensures (Document.hasFiniteNumbers_ofSource s) (Decoder.ofSource_eq_ok.mp h).1

theorem hasFiniteNumbers_types_of_ofValue {v : Value} (hv : v.json.HasFiniteNumbers)
    (h : ofValue v = .ok r) : r.AllTypes HasFiniteNumbers := by
  have hensures : decoder.Ensures Document.HasFiniteNumbers (v.json.nesting + 6) fun r =>
      r.AllTypes HasFiniteNumbers :=
    ensures_decoder Document.hereditary_hasFiniteNumbers trivial
      Decoder.ensures_value_hasFiniteNumbers
  have hread : (Document.ofJson v.json).read (v.json.nesting + 6) = .ok v.json :=
    Document.read_ofJson (Nat.le_add_right _ _)
  exact hensures (Document.hasFiniteNumbers_ofJson hv)
    ((coherent_decoder.ofDocument_iff hread r).mpr h)

theorem allTypes_mapModels {p : Json → Prop} {f : Place → Model → Model} (hf : KeepsTypes f)
    (h : r.AllTypes p) : (r.mapModels f).AllTypes p := by
  intro e' he' q hq
  rw [models_mapModels] at he'
  obtain ⟨e, he, rfl⟩ := List.mem_map.mp he'
  have hq' : q.type ∈ e.2.properties.map (·.type) := hf e.1 e.2 ▸ List.mem_map_of_mem hq
  obtain ⟨q', hmem, htype⟩ := List.mem_map.mp hq'
  have hmodel : (e.1.unit, e.2) ∈ r.models := by
    rw [models_eq_map_members]
    exact List.mem_map_of_mem he
  rw [← htype]
  exact h _ hmodel q' hmem

theorem allTypes_mapModels_processed {p : Json → Prop} (o : Options) (h : r.AllTypes p) :
    (r.mapModels (Model.processed o)).AllTypes p :=
  allTypes_mapModels (fun _ m => m.requiredProperties_eq_map _ fun _ => rfl) h

/-- What was read of a text is written, once it was processed, as a text that is read as what was
written, with its numbers as they are read back. -/
theorem ofSource_fileText_processed (o : Options) (h : decoder.ofSource s = .ok r) (l : Layout) :
    let processed := r.mapModels (Model.processed o)
    decoder.ofSource (.ofText (CommandLine.fileText l processed.toJson)) = .ok processed.reread := by
  intro processed
  have hnumbers : processed.toJson.HasFiniteNumbers := layered_hasFiniteNumbers.registry (n := 0)
    (allTypes_mapModels_processed o (hasFiniteNumbers_types_of_ofSource h))
  have hdepth : processed.toJson.nesting ≤ maxDepth :=
    layered_nesting.registry (allTypes_mapModels_processed o (nesting_types_le_of_ofSource h))
  refine coherent_decoder.followsTree.ofSource_of_document
    (Document.ofSource_render_line hnumbers l) (nesting_reread_le hdepth) ?_
  rw [← toJson_reread]
  exact processed.reread.ofJson_toJson

/-- The bytes that a run writes are a fixed point: read again and processed under the same options
they are written just as they are, with nothing changed and the same findings. -/
theorem written_process_settles {report : Report} {o : Options}
    (h : decoder.ofSource s = .ok r) (hdoubles : r.AllTypes HasNoDoubles)
    (hreport : (r.postProcess o).result = .ok report) (l : Layout) :
    let text := CommandLine.fileText l (r.postProcess o).registry.toJson
    ∃ r', decoder.ofSource (.ofBytes text.toUTF8) = .ok r' ∧
      (r'.postProcess o).result = .ok ⟨[], report.diagnostics⟩ ∧
      CommandLine.fileText l (r'.postProcess o).registry.toJson = text := by
  intro text
  obtain ⟨hregistry, hresult⟩ := postProcess_postProcess hreport
  refine ⟨(r.postProcess o).registry, ?_, hresult, by rw [hregistry]⟩
  have hread := ofSource_fileText_processed o h l
  simp only [reread_eq_self (allTypes_mapModels_processed o hdoubles)] at hread
  rw [Source.ofBytes_toUTF8]
  simp only [text, (postProcess_eq_ok hreport).1]
  exact hread

def terseReport : Report where
  changes := [⟨"pets", "Cat", .importRemoved "Dog"⟩, ⟨"pets", "Cat", .parentAssigned "Dog"⟩]
  diagnostics := [⟨"pets", "Cat", .basesDropped ["Ant"]⟩]

theorem terseText_settles :
    decoder.ofSource (.ofText terseText) = .ok terseRegistry ∧
      terseRegistry.AllTypes HasNoDoubles ∧
      (terseRegistry.postProcess {}).result = .ok terseReport ∧
      let text := CommandLine.fileText .pretty (terseRegistry.postProcess {}).registry.toJson
      ∃ r', decoder.ofSource (.ofBytes text.toUTF8) = .ok r' ∧
        (r'.postProcess {}).result = .ok ⟨[], terseReport.diagnostics⟩ ∧
        CommandLine.fileText .pretty (r'.postProcess {}).registry.toJson = text := by
  have hdoubles : terseRegistry.AllTypes HasNoDoubles := by decide +kernel
  have hreport : (terseRegistry.postProcess {}).result = .ok terseReport := rfl
  exact ⟨ofSource_terseText, hdoubles, hreport,
    written_process_settles ofSource_terseText hdoubles hreport .pretty⟩

end Registry

end ModelRegistry
