import ModelRegistry.Proofs.CommandGrammar
import ModelRegistry.Proofs.CommandRuns
import ModelRegistry.Proofs.FixedPoint
import ModelRegistry.Proofs.PropertiesReading
import ModelRegistry.Proofs.Reproducibility

/-!
# The command line as a front end

A run of `process` that ends well emits what post-processing makes of the registry that it read,
with the options that its flags name. Every file that it writes has in the end what was written to
it, as long as no two of the paths lead to one place; the properties are read back from theirs. All
other arguments leave the registry that is emitted as it is, and in both formats it is read back as
one registry.
-/

namespace ModelRegistry.CommandLine

open Json

variable {t : FileTree} {a : ProcessArguments} {r : Registry} {ps : AdditionalProperties}
  {report : Report}

/-- A text goes to the file of a path or, without one, to standard output. -/
def Execution.Emits (x : Execution) (output : Option String) (text : String) : Prop :=
  match output with
  | some path => x.tree.read path = .content text.toUTF8 ∧ x.stdout = ""
  | none => x.stdout = text

namespace ProcessArguments

/-- The library that is named is put among the properties, and the flag of the library that is
chosen. -/
def Publishes (a : ProcessArguments) (ps published : AdditionalProperties) : Prop :=
  ∀ key, published.get? key =
    if key = "native_serialization" then some (.string "true")
    else if key = "serializationLibrary" then
      (a.serializationLibrary.map Value.string).or (ps.get? key)
    else ps.get? key

theorem Accepts.publishes {settings : Logged Event Settings} (h : a.Accepts t r ps settings) :
    a.Publishes ps settings.value.additionalProperties := by
  intro key
  have hkey : AdditionalProperties.libraryKey = "serializationLibrary" := rfl
  rw [Settings.get?_additionalProperties h.settings, overrideLibrary, ← hkey]
  by_cases hnative : key = "native_serialization"
  · rw [if_pos hnative, if_pos hnative]
  · rw [if_neg hnative, if_neg hnative]
    cases a.serializationLibrary with
    | none => simp
    | some name =>
      by_cases hlibrary : key = AdditionalProperties.libraryKey
      · simp [hlibrary]
      · simp [hlibrary, NameMap.get?_insert_of_ne _ hlibrary]

/-- What has been read of a text can be read again, and no properties as well. -/
theorem HoldsProperties.readable (h : a.HoldsProperties t ps) : ps.Readable := by
  rw [HoldsProperties] at h
  split at h
  · obtain ⟨bytes, -, hdecode⟩ := h
    exact AdditionalProperties.readable_of_ofSource hdecode
  · rw [h]
    exact AdditionalProperties.readable_empty

theorem readable_overrideLibrary (h : ps.Readable) : (a.overrideLibrary ps).Readable := by
  rw [overrideLibrary]
  split
  · exact h.insert_string _ _
  · exact h

theorem Accepts.readable {settings : Logged Event Settings} (h : a.Accepts t r ps settings) :
    settings.value.additionalProperties.Readable :=
  (readable_overrideLibrary h.properties.readable).settings h.settings

end ProcessArguments

/-- What a run of `process` has read, made of it and written. -/
structure Completes (a : ProcessArguments) (t : FileTree) (x : Execution) (r : Registry)
    (ps : AdditionalProperties) (report : Report) (published : AdditionalProperties) : Prop where
  registry : t.Holds a.input Registry.decoder r
  properties : a.HoldsProperties t ps
  result : (r.postProcess a.passOptions).result = .ok report
  publishes : a.Publishes ps published
  emits : x.Emits a.output
    ((r.postProcess a.passOptions).registry.toJson.render a.layout ++ "\n")
  reports : ∀ path ∈ a.report,
    x.tree.read path = .content (report.toJson.render a.layout ++ "\n").toUTF8
  returns : ∀ path ∈ a.propertiesOut,
    x.tree.read path = .content (published.toJson.render a.layout ++ "\n").toUTF8 ∧
      ∃ back, x.tree.Holds path AdditionalProperties.decoder back ∧
        ∀ key, back.get? key = (published.get? key).map Value.reread

/-- A run that ends well has accepted its input, and its outputs are written. -/
theorem exists_completes {verbose : Bool} (h : ((Command.process a).execute verbose t).exit = 0)
    (hapart : a.outputPaths.Pairwise t.Apart) :
    ∃ r ps report published,
      Completes a t ((Command.process a).execute verbose t) r ps report published := by
  obtain ⟨r, ps, settings, report, tree, haccepts, hresult, hwrites, hrun⟩ :=
    exists_execute_process_eq h
  have hfiles := FileTree.read_of_writeAll hwrites (by
    rwa [← ProcessArguments.map_fst_files, List.pairwise_map] at hapart)
  simp only [ProcessArguments.files, List.forall_mem_append] at hfiles
  obtain ⟨⟨hregistry, hreport⟩, hproperties⟩ := hfiles
  rw [hrun]
  refine ⟨r, ps, report, _, haccepts.registry, haccepts.properties, hresult,
    haccepts.publishes, ?_, ?_, ?_⟩
  · cases houtput : a.output with
    | none => simp [Execution.Emits, fileText]
    | some path =>
      rw [houtput] at hregistry
      exact ⟨hregistry _ List.mem_cons_self, rfl⟩
  · intro path hpath
    rw [Option.mem_def.mp hpath] at hreport
    exact hreport _ List.mem_cons_self
  · intro path hpath
    rw [Option.mem_def.mp hpath] at hproperties
    have hwritten := hproperties _ List.mem_cons_self
    have hback := FileTree.holds_of_text hwritten (haccepts.readable.ofSource_fileText a.layout)
    exact ⟨hwritten, _, hback, AdditionalProperties.get?_reread _⟩

/-- What a run emits and reports is told by the text of its input. -/
theorem Completes.exists_writtenTexts {x : Execution} {published : AdditionalProperties}
    (h : Completes a t x r ps report published) :
    ∃ bytes emitted reported, t.read a.input = .content bytes ∧
      Registry.writtenTexts a.passOptions a.layout (.ofBytes bytes) =
        some (.ok (emitted, reported)) ∧
      x.Emits a.output emitted ∧
      ∀ path ∈ a.report, x.tree.read path = .content reported.toUTF8 := by
  obtain ⟨bytes, hbytes, hdecode⟩ := h.registry
  refine ⟨bytes, _, _, hbytes, ?_, h.emits, h.reports⟩
  simp only [Registry.writtenTexts, hdecode, h.result]
  rfl

/-- What is written of a processed registry is read back in either format. -/
theorem ofSource_processed {path : String} {o : Options} (h : t.Holds path Registry.decoder r)
    (hreport : (r.postProcess o).result = .ok report) (l : Layout) :
    Registry.decoder.ofSource
      (.ofBytes ((r.postProcess o).registry.toJson.render l ++ "\n").toUTF8) =
        .ok (r.postProcess o).registry.reread := by
  obtain ⟨bytes, -, hdecode⟩ := h
  rw [Source.ofBytes_toUTF8, (Registry.postProcess_eq_ok hreport).1]
  exact Registry.ofSource_fileText_processed o hdecode l

section Spelling

variable {args : List String} {c : Command}

/-- A command is asked for just by the command lines that spell it. -/
theorem asks_iff : Asks args c ↔ ∃ verbose, Spells args verbose c := by
  rw [Asks]
  exact exists_congr fun _ => Invocation.ofArguments?_eq_run

theorem Spells.execute_eq {verbose : Bool} (h : Spells args verbose c) (t : FileTree) :
    execute args t = c.execute verbose t := by
  rw [execute, Invocation.ofArguments?_eq_run.mpr h]
  rfl

end Spelling

/-- The command line does what the library does. However a run of `process` is spelled, if it ends
well and no two of its output paths lead to one place, it has post-processed what it read under the
policy, the prefix and the strictness that are asked for, and has written the registry, the report
and the properties in the format asked for. Any other run on the same content under the same policy,
prefix and strictness emits the same registry, whatever else it is asked for; and in both formats
that is read back as one registry. -/
theorem process_is_faithful {args : List String} {verbose : Bool}
    (hspells : Spells args verbose (.process a)) (hexit : (execute args t).exit = 0)
    (hapart : a.outputPaths.Pairwise t.Apart) :
    ∃ r ps report published, Completes a t (execute args t) r ps report published ∧
      let processed := (r.postProcess a.passOptions).registry
      (∀ t' args' verbose' b, Spells args' verbose' (.process b) → (execute args' t').exit = 0 →
        b.outputPaths.Pairwise t'.Apart → t'.read b.input = t.read a.input →
        b.passOptions = a.passOptions →
        (execute args' t').Emits b.output (processed.toJson.render b.layout ++ "\n")) ∧
      ∀ l : Layout, Registry.decoder.ofSource
        (.ofBytes (processed.toJson.render l ++ "\n").toUTF8) = .ok processed.reread := by
  rw [hspells.execute_eq] at hexit ⊢
  obtain ⟨r, ps, report, published, h⟩ := exists_completes hexit hapart
  refine ⟨r, ps, report, published, h, ?_, ofSource_processed h.registry h.result⟩
  intro t' args' verbose' b hspells' hexit' hapart' hread hoptions
  rw [hspells'.execute_eq] at hexit' ⊢
  obtain ⟨r', ps', report', published', h'⟩ := exists_completes hexit' hapart'
  have hsame : r' = r := by
    obtain ⟨bytes', hbytes', hdecode'⟩ := h'.registry
    obtain ⟨bytes, hbytes, hdecode⟩ := h.registry
    cases hbytes'.symm.trans (hread.trans hbytes)
    exact Except.ok.inj (hdecode'.symm.trans hdecode)
  rw [← hoptions, ← hsame]
  exact h'.emits

/-- A unit with a model that imports another one by its name and by its file. -/
def catteryText : String :=
  "\x7b\"pets\": \x7b\"models\": [\x7b\"name\": \"Cat\", \"composedBases\": [\"Pet\"], " ++
    "\"imports\": [\"Pet\", \"app/pet.dart\", \"dart:io\"]\x7d, \x7b\"name\": \"Pet\"\x7d]\x7d\x7d"

def catteryRegistry : Registry :=
  ⟨.ofList [("pets", ⟨[
    { name := "Cat"
      imports := .ofList ["Pet", "app/pet.dart", "dart:io"]
      composedBases := ["Pet"] },
    { name := "Pet" }]⟩)]⟩

/-- Properties that ask for a library that there is not. -/
def generatorText : String :=
  "\x7b\"serializationLibrary\": \"json_serializable\", \"native_serialization\": 1, " ++
    "\"pubName\": \"cattery\"\x7d"

def generatorProperties : AdditionalProperties :=
  .ofList [("native_serialization", toValue (.number (.integer 1 (by decide)))),
    ("pubName", .string "cattery"), ("serializationLibrary", .string "json_serializable")]

def catteryTree : FileTree where
  nodes := [(["srv", "pets.json"], .file catteryText.toUTF8),
    (["srv", "generator.json"], .file generatorText.toUTF8)]
  home := ["srv"]

theorem catteryTree_holds : catteryTree.Holds "pets.json" Registry.decoder catteryRegistry := by
  have hplace : catteryTree.locate "pets.json" = .ok ["srv", "pets.json"] := by decide +kernel
  have hread : catteryTree.read "pets.json" = .content catteryText.toUTF8 :=
    FileTree.read_eq_content.mpr ⟨by decide +kernel, _, hplace, rfl⟩
  exact FileTree.holds_of_text hread (by cbv)

theorem catteryTree_holds_properties :
    catteryTree.Holds "generator.json" AdditionalProperties.decoder generatorProperties := by
  have hplace : catteryTree.locate "generator.json" = .ok ["srv", "generator.json"] := by
    decide +kernel
  have hread : catteryTree.read "generator.json" = .content generatorText.toUTF8 :=
    FileTree.read_eq_content.mpr ⟨by decide +kernel, _, hplace, rfl⟩
  exact FileTree.holds_of_text hread (by cbv)

/-- A run with all options. -/
def catteryLine : List String :=
  ["-v", "process", "--format", "compact", "--import-policy=filter-all", "--model-import-prefix",
    "app/", "--strict", "--properties", "generator.json", "-oout.json", "--report", "report.json",
    "--properties-out=/srv/published.json", "--serialization-library", "native_serialization",
    "pets.json"]

def catteryArguments : ProcessArguments where
  input := "pets.json"
  output := some "out.json"
  report := some "report.json"
  properties := some "generator.json"
  propertiesOut := some "/srv/published.json"
  serializationLibrary := some "native_serialization"
  importPolicy := .filterAll
  modelImportPrefix := some "app/"
  strict := true
  layout := .compact

/-- The compact text of the registry after a run, with these imports left. -/
def catteryOutput (imports : String) : String :=
  "\x7b\"pets\":\x7b\"models\":[\x7b\"name\":\"Cat\",\"properties\":[],\"imports\":[" ++ imports ++
    "],\"composedBases\":[\"Pet\"],\"parent\":\"Pet\"\x7d,\x7b\"name\":\"Pet\"," ++
    "\"properties\":[],\"imports\":[],\"composedBases\":[]\x7d]\x7d\x7d\n"

/-- The pretty text, without imports. -/
def catteryLines : List String :=
  ["\x7b", "  \"pets\": \x7b", "    \"models\": [",
    "      \x7b", "        \"name\": \"Cat\",", "        \"properties\": [],",
    "        \"imports\": [],", "        \"composedBases\": [", "          \"Pet\"",
    "        ],", "        \"parent\": \"Pet\"", "      \x7d,",
    "      \x7b", "        \"name\": \"Pet\",", "        \"properties\": [],",
    "        \"imports\": [],", "        \"composedBases\": []", "      \x7d",
    "    ]", "  \x7d", "\x7d"]

def catteryReport : Report where
  changes := [⟨"pets", "Cat", .importRemoved "Pet"⟩,
    ⟨"pets", "Cat", .importRemoved "app/pet.dart"⟩,
    ⟨"pets", "Cat", .importRemoved "dart:io"⟩, ⟨"pets", "Cat", .parentAssigned "Pet"⟩]
  diagnostics := []

/-- Under the one policy no import is left, in either format. Under the other one it is told by the
prefix that the file of a sibling is imported, so that this run emits another registry. -/
theorem process_is_faithful_cattery :
    let x := execute catteryLine catteryTree
    let y := execute ["process", "--import-policy", "filter-all", "--model-import-prefix=app/",
      "--strict", "pets.json"] catteryTree
    let z := execute ["process", "pets.json", "--model-import-prefix", "app/", "--format",
      "compact"] catteryTree
    Spells catteryLine true (.process catteryArguments) ∧ x.exit = 0 ∧ x.stdout = "" ∧
      x.tree.read "out.json" = .content (catteryOutput "").toUTF8 ∧
      x.tree.read "report.json" =
        .content (catteryReport.toJson.render .compact ++ "\n").toUTF8 ∧
      (∃ back, x.tree.Holds "/srv/published.json" AdditionalProperties.decoder back ∧
        back.get? "serializationLibrary" = some (.string "native_serialization") ∧
        back.get? "native_serialization" = some (.string "true") ∧
        back.get? "pubName" = some (.string "cattery")) ∧
      y.stdout = lineText catteryLines ∧
      z.stdout = catteryOutput "\"dart:io\"" := by
  have hspells : Spells catteryLine true (.process catteryArguments) :=
    Invocation.ofArguments?_eq_run.mp (by decide +kernel)
  have hexit : (execute catteryLine catteryTree).exit = 0 := by decide +kernel
  have hplaces : (["out.json", "report.json", "/srv/published.json"].map
      catteryTree.locate).Nodup := by
    decide +kernel
  obtain ⟨r, ps, report, published, h, hsame, -⟩ :=
    process_is_faithful hspells hexit (FileTree.pairwise_apart_of_nodup hplaces)
  obtain rfl := h.registry.unique catteryTree_holds
  obtain rfl := FileTree.Holds.unique h.properties catteryTree_holds_properties
  obtain rfl : report = catteryReport := Except.ok.inj (h.result.symm.trans rfl)
  have htext : (catteryRegistry.postProcess catteryArguments.passOptions).registry.toJson.render
      .compact ++ "\n" = catteryOutput "" := by
    decide +kernel
  have hlines : (catteryRegistry.postProcess catteryArguments.passOptions).registry.toJson.render
      .pretty ++ "\n" = lineText catteryLines := by
    decide +kernel
  obtain ⟨hout, hstdout⟩ := h.emits
  obtain ⟨-, back, hback, hget⟩ := h.returns _ rfl
  simp only [h.publishes _] at hget
  have hspellsAlike : Spells ["process", "--import-policy", "filter-all",
      "--model-import-prefix=app/", "--strict", "pets.json"] false
      (.process {
        input := "pets.json", importPolicy := .filterAll, modelImportPrefix := some "app/"
        strict := true }) :=
    Invocation.ofArguments?_eq_run.mp (by decide +kernel)
  have hprinted := hsame catteryTree _ _ _ hspellsAlike (by decide +kernel) .nil rfl rfl
  have hspellsOther : Spells ["process", "pets.json", "--model-import-prefix", "app/", "--format",
      "compact"] false (.process {
        input := "pets.json", modelImportPrefix := some "app/", layout := .compact }) :=
    Invocation.ofArguments?_eq_run.mp (by decide +kernel)
  have hexitOther : (execute ["process", "pets.json", "--model-import-prefix", "app/", "--format",
      "compact"] catteryTree).exit = 0 := by
    decide +kernel
  obtain ⟨r', ps', report', published', hother, -⟩ :=
    process_is_faithful hspellsOther hexitOther .nil
  obtain rfl := hother.registry.unique catteryTree_holds
  have htextOther : (catteryRegistry.postProcess
      { modelImportPrefix := some "app/" }).registry.toJson.render .compact ++ "\n" =
        catteryOutput "\"dart:io\"" := by
    decide +kernel
  exact ⟨hspells, hexit, hstdout, htext ▸ hout, h.reports _ rfl,
    ⟨back, hback, hget _, hget _, (hget _).trans rfl⟩, hprinted.trans hlines,
    hother.emits.trans htextOther⟩

end ModelRegistry.CommandLine
