import ModelRegistry.Proofs.CommandRuns

/-!
# Rejected runs

A run of `process` is rejected before it prints or writes anything: every input is read, every
option is resolved and every inconsistency is found before the first output. What a rejected run
leaves is its exit code and one error, even if the paths of its outputs are those of its inputs.
-/

namespace ModelRegistry.CommandLine

open Json

variable {t : FileTree} {a : ProcessArguments} {args : List String} {input : String}

namespace ProcessArguments

/-- The arguments name the library or, if they do not, the properties do. -/
def RequestsLibrary (a : ProcessArguments) (t : FileTree) (name : String) : Prop :=
  a.serializationLibrary = some name ∨
    a.serializationLibrary = none ∧ ∃ ps, a.HoldsProperties t ps ∧ ps.configured = some name

/-- Why a run is rejected. -/
inductive Rejected (a : ProcessArguments) (t : FileTree) : Prop
  | registry (h : ¬∃ r, t.Holds a.input Registry.decoder r)
  | properties (path : String) (hpath : a.properties = some path)
    (h : ¬∃ ps, t.Holds path AdditionalProperties.decoder ps)
  | library (name : String) (hname : a.RequestsLibrary t name)
    (h : ∀ l : SerializationLibrary, l.name ≠ name)
  | inconsistent (r : Registry) (hr : t.Holds a.input Registry.decoder r)
    (hstrict : a.strict = true) (h : r.check .clientDefaults ≠ [])

theorem RequestsLibrary.requestedLibrary_eq {name : String} {ps : AdditionalProperties}
    (h : a.RequestsLibrary t name) (hps : a.HoldsProperties t ps) :
    a.requestedLibrary ps = some name := by
  rw [requestedLibrary]
  rcases h with hflag | ⟨hflag, ps', hps', hname⟩
  · rw [hflag, Option.some_or]
  · rw [hflag, Option.none_or, hps.unique hps', hname]

/-- What is read in spite of the rejection is an inconsistent registry. -/
theorem Rejected.obstacle? (h : a.Rejected t) {r : Registry} {ps : AdditionalProperties}
    {settings : Logged Event Settings} (haccepts : a.Accepts t r ps settings) :
    ∃ issue, r.obstacle? a.passOptions = some issue := by
  cases h with
  | registry h => exact absurd ⟨r, haccepts.registry⟩ h
  | properties path hpath h =>
    have hps := haccepts.properties
    rw [HoldsProperties, hpath] at hps
    exact absurd ⟨ps, hps⟩ h
  | library name hname h =>
    have hconfigured : (a.overrideLibrary ps).configured = some name :=
      configured_overrideLibrary.trans (hname.requestedLibrary_eq haccepts.properties)
    have herror := Settings.ofProperties_eq_error.mpr ⟨name, hconfigured, h, rfl⟩
    cases haccepts.settings.symm.trans herror
  | inconsistent r' hr hstrict h =>
    rw [haccepts.registry.unique hr, r'.obstacle?_of_strict hstrict]
    exact Option.ne_none_iff_exists'.mp (mt List.head?_eq_none_iff.mp h)

end ProcessArguments

/-- A rejected run gives its error and nothing else: it prints no output and no warning, logs no
warning, and all files are as they were. A check never prints an output and never touches a file. -/
theorem rejected_leaves_no_trace (t : FileTree) (args : List String) :
    (∀ a, Asks args (.process a) → a.Rejected t →
      let x := execute args t
      ∃ (e : CommandError) (es : List Event), (Command.process a).plan t.read = ⟨es.map .log, some e⟩ ∧
        x.exit = 1 ∧ x.stdout = "" ∧ x.stderr = lineText [e.text] ∧ x.tree = t ∧
        ∀ event ∈ x.events, event.level ≠ .warn) ∧
    ∀ input, Asks args (.check input) →
      (execute args t).stdout = "" ∧ (execute args t).tree = t := by
  refine ⟨fun a hasks hrejected => ?_, fun input hasks => ?_⟩
  · obtain ⟨verbose, hexecute⟩ := hasks.execute_eq t
    simp only [hexecute]
    by_cases haccepts : ∃ r ps settings, a.Accepts t r ps settings
    · obtain ⟨r, ps, settings, haccepts⟩ := haccepts
      obtain ⟨issue, hissue⟩ := hrejected.obstacle? haccepts
      have hrun := Registry.postProcess_of_obstacle hissue
      have hplan := plan_process_of_accepts haccepts
      simp only [hrun, List.append_nil] at hplan
      refine ⟨_, _, hplan, ?_⟩
      rw [execute_process_of_error haccepts (congrArg Outcome.result hrun) verbose]
      refine ⟨rfl, rfl, rfl, rfl, fun event hevent => ?_⟩
      rw [hrun, List.append_nil] at hevent
      exact (Settings.of_ofProperties haccepts.settings).2.2 event (List.mem_filter.mp hevent).1
    · obtain ⟨e, hplan, hx⟩ := execute_process_of_not_accepts haccepts verbose
      refine ⟨e, [], hplan, ?_⟩
      rw [hx]
      exact ⟨rfl, rfl, rfl, rfl, List.forall_mem_nil _⟩
  · obtain ⟨verbose, hexecute⟩ := hasks.execute_eq t
    rw [hexecute]
    by_cases hholds : ∃ r, t.Holds input Registry.decoder r
    · obtain ⟨r, hr⟩ := hholds
      rw [execute_check_of_holds hr verbose]
      exact ⟨rfl, rfl⟩
    · obtain ⟨e, hx⟩ := execute_check_of_not_holds hholds verbose
      rw [hx]
      exact ⟨rfl, rfl⟩

/-- A strict run that would write its outputs over its input. -/
theorem rejected_leaves_no_trace_kennel :
    let x := execute ["process", "kennel.json", "-o", "kennel.json", "--strict"] kennelTree
    x.exit = 1 ∧ x.stdout = "" ∧ x.tree = kennelTree := by
  have hasks : Asks ["process", "kennel.json", "-o", "kennel.json", "--strict"]
      (.process { input := "kennel.json", output := some "kennel.json", strict := true }) :=
    ⟨false, by decide +kernel⟩
  have hissues : Registry.terseRegistry.check .clientDefaults ≠ [] := by decide +kernel
  obtain ⟨e, es, -, hexit, hstdout, -, htree, -⟩ := (rejected_leaves_no_trace kennelTree _).1 _ hasks
    (.inconsistent _ kennelTree_holds rfl hissues)
  exact ⟨hexit, hstdout, htree⟩

end ModelRegistry.CommandLine
