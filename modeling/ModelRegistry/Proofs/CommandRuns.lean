import ModelRegistry.CommandLine.Execution
import ModelRegistry.Proofs.Files
import ModelRegistry.Proofs.RegistryReading
import ModelRegistry.Proofs.SettingsResolution
import ModelRegistry.Proofs.Strictness
import ModelRegistry.Proofs.WrittenText

/-!
# Runs of the command line

A command first reads all that it needs. If a file cannot be read or the options make no sense, its
plan is an error and nothing else. Otherwise the plan of `process` is told by the run of the passes:
what goes to the log, and either the issue that stops the run, or warnings and outputs. Carrying a
plan out prints and logs in the order of the plan, and touches a file only where it writes.
-/

namespace ModelRegistry

open Json

namespace CommandLine

namespace Planning

variable {α ε : Type} {as : List Action} {p : Planning Unit} {f : ε → CommandError}
  {k : α → Planning Unit}

theorem ofExcept_ok_bind {a : α} : (ofExcept (.ok a) f >>= k) = k a := rfl

theorem plan_ofExcept_error_bind {e : ε} : (ofExcept (.error e) f >>= k).plan = ⟨[], some (f e)⟩ :=
  rfl

theorem run_all : (all as).run = ⟨.ok (), as⟩ := by
  simp [all, ExceptT.lift, ExceptT.run, ExceptT.mk, Functor.map]

theorem plan_all : (all as).plan = ⟨as, none⟩ := by
  rw [plan, run_all]

theorem plan_all_bind :
    (all as >>= fun _ => p).plan = ⟨as ++ p.plan.actions, p.plan.error⟩ := by
  have hrun : (all as >>= fun _ => p).run = ⟨p.run.value, as ++ p.run.log⟩ := by
    rw [ExceptT.run_bind, run_all]
    rfl
  rw [plan, hrun]
  rfl

end Planning

/-- Lines as they are printed. -/
def lineText : List String → String
  | [] => ""
  | line :: lines => line ++ "\n" ++ lineText lines

theorem lineText_append (lines lines' : List String) :
    lineText (lines ++ lines') = lineText lines ++ lineText lines' := by
  induction lines with
  | nil => simp [lineText]
  | cons line lines ih => simp [lineText, ih, String.append_assoc]

namespace Execution

variable {error : Option CommandError} {as : List Action}

theorem run_log (x : Execution) (es : List Event) :
    x.run error (es.map .log ++ as) = { x with events := x.events ++ es }.run error as := by
  induction es generalizing x with
  | nil => simp
  | cons e es ih =>
    rw [List.map_cons, List.cons_append, run, act]
    simp only [ih, List.append_assoc, List.cons_append, List.nil_append]

theorem run_complain (x : Execution) (lines : List String) :
    x.run error (lines.map .complain ++ as) =
      { x with stderr := x.stderr ++ lineText lines }.run error as := by
  induction lines generalizing x with
  | nil => simp [lineText]
  | cons line lines ih =>
    rw [List.map_cons, List.cons_append, run, act]
    simp only [ih, complain, lineText, String.append_assoc]

/-- Writes that end well do nothing but write. -/
theorem run_writes (x : Execution) (files : List (String × String))
    (h : (x.run none (files.map fun file => .write file.1 file.2)).exit = 0) :
    ∃ tree, x.tree.writeAll files = .ok tree ∧
      x.run none (files.map fun file => .write file.1 file.2) = { x with tree } := by
  induction files generalizing x with
  | nil => exact ⟨x.tree, rfl, rfl⟩
  | cons file files ih =>
    rw [List.map_cons, run, act] at h ⊢
    cases hwrite : x.tree.write file.1 file.2.toUTF8 with
    | error e =>
      simp only [hwrite] at h
      exact absurd h Nat.one_ne_zero
    | ok tree =>
      simp only [hwrite] at h ⊢
      obtain ⟨tree', hrest, hrun⟩ := ih { x with tree } h
      exact ⟨tree', FileTree.writeAll_cons_eq_ok.mpr ⟨tree, hwrite, hrest⟩, hrun⟩

end Execution

/-- A plan that only logs and prints lines to standard error. -/
theorem Command.execute_of_quiet {c : Command} {t : FileTree} {es : List Event}
    {lines : List String} {error : Option CommandError}
    (h : c.plan t.read = ⟨es.map .log ++ lines.map .complain, error⟩) (verbose : Bool) :
    c.execute verbose t = {
      exit := if error.isSome then 1 else 0
      stderr := lineText (lines ++ (error.map (·.text)).toList)
      events := es.filter (isLogged verbose)
      tree := t } := by
  rw [execute, h, Execution.run_log, ← List.append_nil (lines.map _), Execution.run_complain,
    lineText_append]
  cases error with
  | none => simp [Execution.run, Execution.start, lineText]
  | some e =>
    simp [Execution.run, Execution.start, Execution.fail, Execution.complain, lineText,
      String.append_assoc]

section Reading

variable {α : Type} {t : FileTree} {d : Decoder α} {a : ProcessArguments} {r : Registry}
  {ps : AdditionalProperties} {settings : Logged Event Settings}

/-- What is in the file of a path is decoded as a value. -/
def FileTree.Holds (t : FileTree) (path : String) (d : Decoder α) (value : α) : Prop :=
  ∃ bytes, t.read path = .content bytes ∧ d.ofSource (.ofBytes bytes) = .ok value

theorem decodeFile_eq_ok {what path : String} {value : α} :
    decodeFile d what path (t.read path) = .ok value ↔ t.Holds path d value := by
  rw [FileTree.Holds]
  cases t.read path with
  | unopened e => simp [decodeFile]
  | unreadable e => simp [decodeFile]
  | content bytes =>
    cases hd : d.ofSource (.ofBytes bytes) <;> simp [decodeFile, Except.mapError, hd]

theorem FileTree.Holds.unique {path : String} {value value' : α} (h : t.Holds path d value)
    (h' : t.Holds path d value') : value = value' := by
  rw [← @decodeFile_eq_ok _ _ _ ""] at h h'
  exact Except.ok.inj (h.symm.trans h')

/-- A file with a text in it holds what the text is decoded as. -/
theorem FileTree.holds_of_text {path text : String} {value : α}
    (hread : t.read path = .content text.toUTF8) (hdecode : d.ofSource (.ofText text) = .ok value) :
    t.Holds path d value :=
  ⟨_, hread, by rwa [Source.ofBytes_toUTF8]⟩

namespace ProcessArguments

/-- The properties that the arguments ask for: those of a file, or none. -/
def HoldsProperties (a : ProcessArguments) (t : FileTree) (ps : AdditionalProperties) : Prop :=
  match a.properties with
  | some path => t.Holds path AdditionalProperties.decoder ps
  | none => ps = .empty

/-- The library that is asked for, by an argument or else by the properties. -/
def requestedLibrary (a : ProcessArguments) (ps : AdditionalProperties) : Option String :=
  a.serializationLibrary.or ps.configured

/-- The options that the passes are run with. -/
def passOptions (a : ProcessArguments) : Options where
  importPolicy := a.importPolicy
  modelImportPrefix := a.modelImportPrefix
  features := .clientDefaults
  strict := a.strict

/-- The paths that are written to, in order. -/
def outputPaths (a : ProcessArguments) : List String :=
  a.output.toList ++ a.report.toList ++ a.propertiesOut.toList

/-- What a successful run writes to which paths. -/
def files (a : ProcessArguments) (r : Registry) (report : Report) (ps : AdditionalProperties) :
    List (String × String) :=
  (a.output.map fun path => (path, fileText a.layout r.toJson)).toList ++
    (a.report.map fun path => (path, fileText a.layout report.toJson)).toList ++
    (a.propertiesOut.map fun path => (path, fileText a.layout ps.toJson)).toList

theorem map_fst_files (report : Report) : (a.files r report ps).map Prod.fst = a.outputPaths := by
  rw [files, outputPaths, List.map_append, List.map_append]
  cases a.output <;> cases a.report <;> cases a.propertiesOut <;> rfl

/-- Outputs that end well write their files, and print the registry if no file is named for it. -/
theorem run_outputs {x : Execution} {report : Report}
    (h : (x.run none (a.outputs r report ps)).exit = 0) :
    ∃ tree, x.tree.writeAll (a.files r report ps) = .ok tree ∧
      x.run none (a.outputs r report ps) = { x with
        stdout := x.stdout ++ if a.output.isSome then "" else fileText a.layout r.toJson
        tree } := by
  have hoptional (path : Option String) (text : String) :
      (path.map fun path => Action.write path text).toList =
        (path.map fun path => (path, text)).toList.map fun file => .write file.1 file.2 := by
    cases path <;> rfl
  cases houtput : a.output with
  | none =>
    have houtputs : a.outputs r report ps = .print (fileText a.layout r.toJson) ::
        (a.files r report ps).map fun file => .write file.1 file.2 := by
      simp [outputs, files, houtput, hoptional]
    rw [houtputs, Execution.run, Execution.act] at h ⊢
    exact Execution.run_writes _ _ h
  | some path =>
    have houtputs : a.outputs r report ps =
        (a.files r report ps).map fun file => .write file.1 file.2 := by
      simp [outputs, files, houtput, hoptional]
    rw [houtputs] at h ⊢
    simpa using Execution.run_writes _ _ h

/-- All that is read can be read, and makes sense. -/
structure Accepts (a : ProcessArguments) (t : FileTree) (r : Registry) (ps : AdditionalProperties)
    (settings : Logged Event Settings) : Prop where
  registry : t.Holds a.input Registry.decoder r
  properties : a.HoldsProperties t ps
  settings : Settings.ofProperties (a.overrideLibrary ps) = .ok settings

theorem readProperties_eq_ok : readProperties t.read a = .ok ps ↔ a.HoldsProperties t ps := by
  rw [readProperties, HoldsProperties]
  cases a.properties with
  | none => simp [@eq_comm _ ps]
  | some path => exact decodeFile_eq_ok

theorem configured_overrideLibrary :
    (a.overrideLibrary ps).configured = a.requestedLibrary ps := by
  rw [overrideLibrary, requestedLibrary]
  cases a.serializationLibrary with
  | none => rfl
  | some name => simp [AdditionalProperties.configured, Value.string]

theorem Accepts.options_eq (h : a.Accepts t r ps settings) :
    a.options settings.value.options = a.passOptions := by
  rw [options, (Settings.of_ofProperties h.settings).1]
  rfl

theorem HoldsProperties.unique {ps' : AdditionalProperties} (h : a.HoldsProperties t ps)
    (h' : a.HoldsProperties t ps') : ps = ps' := by
  rw [← readProperties_eq_ok] at h h'
  exact Except.ok.inj (h.symm.trans h')

end ProcessArguments

variable {input : String}

/-- The plan of `process`, if all can be read: the log, and then either the issue that stops the
run, or warnings and outputs. -/
theorem plan_process_of_accepts (h : a.Accepts t r ps settings) :
    let run := r.postProcess a.passOptions
    let logged := (settings.log ++ run.events).map Action.log
    (Command.process a).plan t.read =
      match run.result with
      | .error issue =>
        ⟨logged, some ⟨"Post-processing failed", some (Failure.inconsistent issue).message⟩⟩
      | .ok report =>
        ⟨logged ++ ((report.diagnostics.map warning).map .complain ++
          a.outputs run.registry report settings.value.additionalProperties), none⟩ := by
  intro run logged
  rw [Command.plan, planProcess, decodeFile_eq_ok.mpr h.registry, Planning.ofExcept_ok_bind,
    ProcessArguments.readProperties_eq_ok.mpr h.properties, Planning.ofExcept_ok_bind, h.settings,
    Planning.ofExcept_ok_bind]
  simp only [h.options_eq, Planning.plan_all_bind]
  cases hresult : (r.postProcess a.passOptions).result with
  | error issue =>
    simp only [run, logged, Planning.plan_ofExcept_error_bind, List.map_append,
      List.append_nil]
  | ok report =>
    simp only [run, logged, Planning.ofExcept_ok_bind, Planning.plan_all_bind,
      Planning.plan_all, List.map_append, List.map_map, List.append_assoc]
    rfl

/-- If something cannot be read or makes no sense, there is nothing but an error. -/
theorem plan_process_of_not_accepts (h : ¬∃ r ps settings, a.Accepts t r ps settings) :
    ∃ e, (Command.process a).plan t.read = ⟨[], some e⟩ := by
  rw [Command.plan, planProcess]
  cases hregistry : decodeFile Registry.decoder "registry" a.input (t.read a.input) with
  | error e => exact ⟨e, Planning.plan_ofExcept_error_bind⟩
  | ok r =>
    rw [Planning.ofExcept_ok_bind]
    cases hproperties : readProperties t.read a with
    | error e => exact ⟨e, Planning.plan_ofExcept_error_bind⟩
    | ok ps =>
      rw [Planning.ofExcept_ok_bind]
      cases hsettings : Settings.ofProperties (a.overrideLibrary ps) with
      | error e => exact ⟨_, Planning.plan_ofExcept_error_bind⟩
      | ok settings =>
        exact absurd ⟨r, ps, settings, decodeFile_eq_ok.mp hregistry,
          ProcessArguments.readProperties_eq_ok.mp hproperties, hsettings⟩ h

/-- The run of `process`, if all can be read and the passes stop at an issue. -/
theorem execute_process_of_error (h : a.Accepts t r ps settings) {issue : Inconsistency}
    (hissue : (r.postProcess a.passOptions).result = .error issue) (verbose : Bool) :
    (Command.process a).execute verbose t = {
      exit := 1
      stderr := lineText [CommandError.text
        ⟨"Post-processing failed", some (Failure.inconsistent issue).message⟩]
      events := (settings.log ++ (r.postProcess a.passOptions).events).filter (isLogged verbose)
      tree := t } := by
  have hplan := plan_process_of_accepts h
  simp only [hissue] at hplan
  rw [← List.append_nil (List.map Action.log _), ← List.map_nil] at hplan
  exact Command.execute_of_quiet hplan verbose

theorem execute_process_of_not_accepts (h : ¬∃ r ps settings, a.Accepts t r ps settings)
    (verbose : Bool) : ∃ e, (Command.process a).plan t.read = ⟨[], some e⟩ ∧
      (Command.process a).execute verbose t =
        { exit := 1, stderr := lineText [e.text], tree := t } := by
  obtain ⟨e, hplan⟩ := plan_process_of_not_accepts h
  exact ⟨e, hplan, @Command.execute_of_quiet _ _ [] [] (some e) hplan verbose⟩

/-- The run of `process`, if all can be read and the passes give a report. -/
theorem execute_process_of_ok (h : a.Accepts t r ps settings) {report : Report}
    (hreport : (r.postProcess a.passOptions).result = .ok report) (verbose : Bool) :
    let run := r.postProcess a.passOptions
    let x : Execution := {
      exit := 0
      stderr := lineText (report.diagnostics.map warning)
      events := settings.log ++ run.events
      tree := t }
    let y := x.run none (a.outputs run.registry report settings.value.additionalProperties)
    (Command.process a).execute verbose t = { y with events := y.events.filter (isLogged verbose) }
    := by
  intro run x y
  have hplan := plan_process_of_accepts h
  simp only [hreport] at hplan
  rw [Command.execute, hplan, Execution.run_log, Execution.run_complain]
  simp [Execution.start, y, x, run]

/-- A run of `process` that ends well has read all that it needs and has post-processed the registry.
It has warned of every diagnostic, has written its files and has printed the registry if no file is
named for it. -/
theorem exists_execute_process_eq {verbose : Bool}
    (h : ((Command.process a).execute verbose t).exit = 0) :
    ∃ r ps settings report tree, a.Accepts t r ps settings ∧
      (r.postProcess a.passOptions).result = .ok report ∧
      t.writeAll (a.files (r.postProcess a.passOptions).registry report
        settings.value.additionalProperties) = .ok tree ∧
      (Command.process a).execute verbose t = {
        exit := 0
        stdout := if a.output.isSome then ""
          else fileText a.layout (r.postProcess a.passOptions).registry.toJson
        stderr := lineText (report.diagnostics.map warning)
        events := (settings.log ++ (r.postProcess a.passOptions).events).filter (isLogged verbose)
        tree } := by
  by_cases haccepts : ∃ r ps settings, a.Accepts t r ps settings
  · obtain ⟨r, ps, settings, haccepts⟩ := haccepts
    cases hresult : (r.postProcess a.passOptions).result with
    | error issue =>
      rw [execute_process_of_error haccepts hresult] at h
      cases h
    | ok report =>
      have hx := execute_process_of_ok haccepts hresult verbose
      simp only at hx
      rw [hx] at h
      obtain ⟨tree, hwrites, hrun⟩ := ProcessArguments.run_outputs h
      refine ⟨r, ps, settings, report, tree, haccepts, hresult, hwrites, ?_⟩
      rw [hx, hrun]
      simp
  · obtain ⟨e, -, hx⟩ := execute_process_of_not_accepts haccepts verbose
    rw [hx] at h
    cases h

def countedIssues (n : Nat) : CommandError :=
  ⟨String.ofList (Decimal.natText n) ++ " inconsistencies found", none⟩

theorem plan_check_of_holds (h : t.Holds input Registry.decoder r) :
    let issues := r.check .clientDefaults
    (Command.check input).plan t.read =
      if issues = [] then ⟨[.complain "No inconsistencies found"], none⟩
      else ⟨(issues.map (·.message)).map .complain, some (countedIssues issues.length)⟩ := by
  intro issues
  rw [Command.plan, planCheck, decodeFile_eq_ok.mpr h, Planning.ofExcept_ok_bind]
  refine Planning.plan_all_bind.trans ?_
  cases hissues : r.check .clientDefaults with
  | nil =>
    rw [if_pos hissues]
    rfl
  | cons issue rest =>
    have hne : issues ≠ [] := hissues.trans_ne (List.cons_ne_nil issue rest)
    rw [if_neg hne]
    simp only [issues, hissues, List.map_map]
    exact congrArg (Plan.mk · _) (List.append_nil _)

/-- What a check says in the end. -/
def verdict (issues : List Inconsistency) : String :=
  if issues = [] then "No inconsistencies found" else (countedIssues issues.length).text

theorem execute_check_of_holds (h : t.Holds input Registry.decoder r) (verbose : Bool) :
    let issues := r.check .clientDefaults
    (Command.check input).execute verbose t = {
      exit := if issues = [] then 0 else 1
      stderr := lineText (issues.map (·.message) ++ [verdict issues])
      tree := t } := by
  intro issues
  have hplan := plan_check_of_holds h
  by_cases hissues : issues = []
  · have hquiet := @Command.execute_of_quiet _ _ [] ["No inconsistencies found"] _
      (hplan.trans (if_pos hissues)) verbose
    simpa [verdict, hissues] using hquiet
  · have hquiet := @Command.execute_of_quiet _ _ [] _ _ (hplan.trans (if_neg hissues)) verbose
    simpa [verdict, hissues] using hquiet

theorem execute_check_of_not_holds (h : ¬∃ r, t.Holds input Registry.decoder r) (verbose : Bool) :
    ∃ e : CommandError, (Command.check input).execute verbose t =
      { exit := 1, stderr := lineText [e.text], tree := t } := by
  cases hregistry : decodeFile Registry.decoder "registry" input (t.read input) with
  | error e =>
    refine ⟨e, @Command.execute_of_quiet _ _ [] [] (some e) ?_ verbose⟩
    rw [Command.plan, planCheck, hregistry]
    exact Planning.plan_ofExcept_error_bind
  | ok r => exact absurd ⟨r, decodeFile_eq_ok.mp hregistry⟩ h

end Reading

/-- The command line asks for the command. -/
def Asks (args : List String) (c : Command) : Prop :=
  ∃ verbose, Invocation.ofArguments? args = some (.run verbose c)

theorem Asks.execute_eq {args : List String} {c : Command} (h : Asks args c) (t : FileTree) :
    ∃ verbose, execute args t = c.execute verbose t := by
  obtain ⟨verbose, hargs⟩ := h
  exact ⟨verbose, by rw [execute, hargs]; rfl⟩

/-- A working directory with one registry, in which a model composes two others. -/
def kennelTree : FileTree :=
  { nodes := [(["kennel.json"], .file Registry.terseText.toUTF8)] }

theorem kennelTree_holds :
    kennelTree.Holds "kennel.json" Registry.decoder Registry.terseRegistry := by
  have hplace : kennelTree.locate "kennel.json" = .ok ["kennel.json"] := by decide +kernel
  have hread : kennelTree.read "kennel.json" = .content Registry.terseText.toUTF8 :=
    FileTree.read_eq_content.mpr ⟨by decide +kernel, _, hplace, rfl⟩
  exact FileTree.holds_of_text hread Registry.ofSource_terseText

end CommandLine

end ModelRegistry
