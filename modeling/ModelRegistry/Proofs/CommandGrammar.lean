import ModelRegistry.Proofs.ArgumentGrammar

/-!
# The grammar of commands

What the options of `process` say is told one by one, with their names as they are written. The
arguments of a run are those without any option, changed by each option that is given; so every
field has the value of its option, or its default. A command line asks for a run just if it is
spelled so, and every run that names no empty path can be asked for.
-/

namespace ModelRegistry.CommandLine

/-- What an option of `process` says. -/
inductive Setting
  | verbose
  | output (path : String)
  | report (path : String)
  | properties (path : String)
  | propertiesOut (path : String)
  | serializationLibrary (name : String)
  | importPolicy (p : ImportPolicy)
  | modelImportPrefix (path : String)
  | strict
  | layout (l : Json.Layout)
  deriving DecidableEq

namespace Setting

def use : Setting → OptionUse
  | verbose => ⟨"verbose", some 'v', none⟩
  | output path => ⟨"output", some 'o', some path⟩
  | report path => ⟨"report", none, some path⟩
  | properties path => ⟨"properties", none, some path⟩
  | propertiesOut path => ⟨"properties-out", none, some path⟩
  | serializationLibrary name => ⟨"serialization-library", none, some name⟩
  | importPolicy .sameUnit => ⟨"import-policy", none, some "same-unit"⟩
  | importPolicy .filterAll => ⟨"import-policy", none, some "filter-all"⟩
  | modelImportPrefix path => ⟨"model-import-prefix", none, some path⟩
  | strict => ⟨"strict", none, none⟩
  | layout .pretty => ⟨"format", none, some "pretty"⟩
  | layout .compact => ⟨"format", none, some "compact"⟩

/-- A file has a path that is not empty. -/
def IsProper : Setting → Prop
  | output path | report path | properties path | propertiesOut path => path ≠ ""
  | _ => True

end Setting

namespace ProcessArguments

/-- The arguments of a run without options. -/
def plain (input : String) : ProcessArguments where
  input := input
  output := none
  report := none
  properties := none
  propertiesOut := none
  serializationLibrary := none
  importPolicy := .sameUnit
  modelImportPrefix := none
  strict := false
  layout := .pretty

def set (a : ProcessArguments) : Setting → ProcessArguments
  | .verbose => a
  | .output path => { a with output := some path }
  | .report path => { a with report := some path }
  | .properties path => { a with properties := some path }
  | .propertiesOut path => { a with propertiesOut := some path }
  | .serializationLibrary name => { a with serializationLibrary := some name }
  | .importPolicy p => { a with importPolicy := p }
  | .modelImportPrefix path => { a with modelImportPrefix := some path }
  | .strict => { a with strict := true }
  | .layout l => { a with layout := l }

end ProcessArguments

/-- The arguments of a command: settings, none of them twice, and operands. -/
structure Wording (args : List String) (ss : List Setting) (operands : List String) : Prop where
  line : Line args (ss.map Setting.use) operands
  proper : ∀ s ∈ ss, s.IsProper
  once : (ss.map (·.use.long)).Nodup

/-- A command and its arguments. -/
inductive Says : List String → Bool → Command → Prop
  | process {args : List String} {ss : List Setting} {input : String}
      (h : Wording args ss [input]) (hinput : input ≠ "") :
      Says ("process" :: args) (decide (.verbose ∈ ss))
        (.process (ss.foldl ProcessArguments.set (.plain input)))
  | check {args : List String} {ss : List Setting} {input : String}
      (h : Wording args ss [input]) (hinput : input ≠ "") (hverbose : ∀ s ∈ ss, s = .verbose) :
      Says ("check" :: args) (decide (.verbose ∈ ss)) (.check input)

/-- The command line of a run. Whether it is verbose can be said before the command, too. -/
inductive Spells : List String → Bool → Command → Prop
  | command {args : List String} {verbose : Bool} {c : Command} (h : Says args verbose c) :
      Spells args verbose c
  | verbose {word : String} {args : List String} {verbose : Bool} {c : Command}
      (hword : word = "-v" ∨ word = "--verbose") (h : Says args verbose c) :
      Spells (word :: args) true c

/-! ### Tables of settings -/

section Tables

variable {u : OptionUse} {us : List OptionUse}

theorem unambiguous_processOptions : Unambiguous processOptions :=
  ⟨by decide, by decide, by decide, by decide⟩

theorem unambiguous_checkOptions : Unambiguous checkOptions :=
  ⟨by decide, by decide, by decide, by decide⟩

namespace OptionSpec

variable {long value : String} {short : Option Char} {names : List String}

theorem accepts_path : (path long short).accepts.all (· value) = true ↔ value ≠ "" := by
  simp [path]

theorem accepts_oneOf : (oneOf long names).accepts.all (· value) = true ↔ value ∈ names := by
  simp [oneOf]

end OptionSpec

namespace Setting

/-- The option of the table that says it. -/
def spec : Setting → OptionSpec
  | verbose => verboseFlag
  | output _ => .path "output" (some 'o')
  | report _ => .path "report" none
  | properties _ => .path "properties" none
  | propertiesOut _ => .path "properties-out" none
  | serializationLibrary _ => .text "serialization-library"
  | importPolicy _ => .oneOf "import-policy" (policyNames.map (·.1))
  | modelImportPrefix _ => .text "model-import-prefix"
  | strict => .flag "strict" none
  | layout _ => .oneOf "format" (layoutNames.map (·.1))

theorem spec_mem (s : Setting) : s.spec ∈ processOptions := by
  cases s <;> simp [spec, processOptions]

theorem use_eq_use_spec (s : Setting) : s.use = s.spec.use (s.use.value.getD "") := by
  cases s with
  | importPolicy p => cases p <;> rfl
  | layout l => cases l <;> rfl
  | _ => rfl

theorem accepts_spec (s : Setting) :
    s.spec.accepts.all (· (s.use.value.getD "")) = true ↔ s.IsProper := by
  cases s with
  | output | report | properties | propertiesOut => exact OptionSpec.accepts_path
  | importPolicy p =>
    have hname : (importPolicy p).use.value.getD "" ∈ policyNames.map (·.1) := by
      cases p <;> decide
    exact OptionSpec.accepts_oneOf.trans (iff_of_true hname trivial)
  | layout l =>
    have hname : (layout l).use.value.getD "" ∈ layoutNames.map (·.1) := by cases l <;> decide
    exact OptionSpec.accepts_oneOf.trans (iff_of_true hname trivial)
  | verbose | serializationLibrary | modelImportPrefix | strict => exact iff_of_true rfl trivial

end Setting

/-- Whatever the options of `process` are used for says something. -/
theorem OptionUse.AllowedBy.exists_setting (h : u.AllowedBy processOptions) :
    ∃ s : Setting, s.IsProper ∧ u = s.use := by
  obtain ⟨o, ho, value, rfl, hvalue⟩ := h
  simp only [processOptions, List.mem_cons, List.not_mem_nil, or_false] at ho
  rcases ho with rfl | rfl | rfl | rfl | rfl | rfl | rfl | rfl | rfl | rfl
  · exact ⟨.verbose, trivial, rfl⟩
  · exact ⟨.output value, OptionSpec.accepts_path.mp hvalue, rfl⟩
  · exact ⟨.report value, OptionSpec.accepts_path.mp hvalue, rfl⟩
  · exact ⟨.properties value, OptionSpec.accepts_path.mp hvalue, rfl⟩
  · exact ⟨.propertiesOut value, OptionSpec.accepts_path.mp hvalue, rfl⟩
  · exact ⟨.serializationLibrary value, trivial, rfl⟩
  · obtain ⟨⟨name, p⟩, hp, rfl⟩ := List.mem_map.mp (OptionSpec.accepts_oneOf.mp hvalue)
    obtain ⟨p, -, hname⟩ := List.mem_map.mp hp
    obtain ⟨rfl, rfl⟩ := Prod.mk.inj hname
    exact ⟨.importPolicy p, trivial, by cases p <;> rfl⟩
  · exact ⟨.modelImportPrefix value, trivial, rfl⟩
  · exact ⟨.strict, trivial, rfl⟩
  · have hname := OptionSpec.accepts_oneOf.mp hvalue
    simp only [layoutNames, List.map_cons, List.map_nil, List.mem_cons, List.not_mem_nil,
      or_false] at hname
    rcases hname with rfl | rfl
    · exact ⟨.layout .pretty, trivial, rfl⟩
    · exact ⟨.layout .compact, trivial, rfl⟩

/-- The options of `process` are just those that say something. -/
theorem allowedBy_processOptions :
    u.AllowedBy processOptions ↔ ∃ s : Setting, s.IsProper ∧ u = s.use := by
  constructor
  · exact OptionUse.AllowedBy.exists_setting
  · rintro ⟨s, hs, rfl⟩
    exact ⟨s.spec, s.spec_mem, _, s.use_eq_use_spec, s.accepts_spec.mpr hs⟩

theorem allowedBy_checkOptions : u.AllowedBy checkOptions ↔ u = Setting.use .verbose := by
  constructor
  · rintro ⟨o, ho, value, rfl, -⟩
    obtain rfl := List.mem_singleton.mp ho
    rfl
  · rintro rfl
    exact ⟨verboseFlag, List.mem_cons_self, "", rfl, rfl⟩

/-- Uses that are settings one by one are the uses of a list of settings. -/
theorem exists_settings {p : Setting → Prop} :
    (∀ u ∈ us, ∃ s : Setting, p s ∧ u = s.use) ↔
      ∃ ss : List Setting, (∀ s ∈ ss, p s) ∧ us = ss.map Setting.use := by
  induction us with
  | nil => exact iff_of_true (List.forall_mem_nil _) ⟨[], List.forall_mem_nil _, rfl⟩
  | cons u us ih =>
    rw [List.forall_mem_cons, ih]
    constructor
    · rintro ⟨⟨s, hs, rfl⟩, ss, hss, rfl⟩
      exact ⟨s :: ss, List.forall_mem_cons.mpr ⟨hs, hss⟩, rfl⟩
    · rintro ⟨_ | ⟨s, ss⟩, hss, heq⟩
      · cases heq
      · obtain ⟨hs, hss⟩ := List.forall_mem_cons.mp hss
        obtain ⟨rfl, rfl⟩ := List.cons.inj heq
        exact ⟨⟨s, hs, rfl⟩, ss, hss, rfl⟩

end Tables

/-! ### Reading -/

section Reading

variable {c : Collected} {args operands : List String} {ss : List Setting} {input : String}

namespace Collected

/-- An option that is new is found with its value, and all other options as before. -/
theorem value?_add {u : OptionUse} (h : u.long ∉ c.options.map Prod.fst) (long : String) :
    (c.add [u] []).value? long =
      if long = u.long then some (u.value.getD "") else c.value? long := by
  rw [value?, value?, add, List.lookup_append]
  by_cases hlong : long = u.long
  · have hnone : c.options.lookup u.long = none := by
      refine List.lookup_eq_none_iff.mpr fun e he => ?_
      simpa using fun heq : u.long = e.1 => h (heq ▸ List.mem_map_of_mem he)
    rw [if_pos hlong, hlong, hnone]
    simp [OptionUse.entry]
  · have hother : ([u].map OptionUse.entry).lookup long = none := by
      simp [OptionUse.entry, List.lookup_cons, beq_false_of_ne hlong]
    rw [if_neg hlong, hother, Option.or_none]

/-- An option that is new sets its field. -/
theorem processArguments?_add {s : Setting} (h : s.use.long ∉ c.options.map Prod.fst) :
    (c.add [s.use] []).processArguments? = c.processArguments?.map (·.set s) := by
  have hvalue := value?_add h
  have hhas (long : String) : (c.add [s.use] []).has long =
      (decide (long = s.use.long) || c.has long) := by
    have hisSome := congrArg Option.isSome (hvalue long)
    rw [has, ← value?, hisSome, has, ← value?]
    by_cases hlong : long = s.use.long <;> simp [hlong]
  have hinput : (c.add [s.use] []).input? = c.input? := by
    simp [input?, add]
  simp only [processArguments?, choice?, hvalue, hhas, hinput]
  have hpolicies : policyNames.lookup "same-unit" = some .sameUnit ∧
      policyNames.lookup "filter-all" = some .filterAll := ⟨rfl, rfl⟩
  have hlayouts : layoutNames.lookup "pretty" = some .pretty ∧
      layoutNames.lookup "compact" = some .compact := ⟨rfl, rfl⟩
  cases s with
  | importPolicy p =>
    cases p <;> cases c.input? <;> simp [Setting.use, ProcessArguments.set, hpolicies]
  | layout l => cases l <;> cases c.input? <;> simp [Setting.use, ProcessArguments.set, hlayouts]
  | _ => cases c.input? <;> simp [Setting.use, ProcessArguments.set]

end Collected

/-- Options that are new set their fields, one after the other. -/
theorem processArguments?_add_settings {specs : List OptionSpec}
    (h : Admits specs c (ss.map Setting.use)) :
    (c.add (ss.map Setting.use) []).processArguments? =
      c.processArguments?.map fun a => ss.foldl ProcessArguments.set a := by
  induction ss generalizing c with
  | nil => simp
  | cons s ss ih =>
    obtain ⟨hs, hss⟩ := admits_cons.mp h
    have hstep := Collected.processArguments?_add (hs.fresh _ List.mem_cons_self)
    have hrest := ih hss
    rw [hstep, Option.map_map, Collected.add_add] at hrest
    exact hrest

/-- A run is verbose if one of its options says so. -/
theorem has_verbose_add_settings :
    (({} : Collected).add (ss.map Setting.use) operands).has "verbose" =
      decide (.verbose ∈ ss) := by
  have hname (s : Setting) : s.use.long = "verbose" ↔ s = .verbose := by
    cases s with
    | importPolicy p => cases p <;> simp [Setting.use]
    | layout l => cases l <;> simp [Setting.use]
    | _ => simp [Setting.use]
  rw [Bool.eq_iff_iff, Collected.has_iff_mem, decide_eq_true_iff]
  simp [Collected.add, OptionUse.entry, hname]

variable {specs : List OptionSpec} {p : Setting → Prop}

/-- Settings of a table can be made if none of them is made twice. -/
theorem admits_settings
    (hallowed : ∀ u : OptionUse, u.AllowedBy specs ↔ ∃ s : Setting, p s ∧ u = s.use)
    (hss : ∀ s ∈ ss, p s) (honce : (ss.map (·.use.long)).Nodup) :
    Admits specs {} (ss.map Setting.use) := by
  refine ⟨fun u hu => ?_, by rwa [List.map_map], by simp⟩
  exact (hallowed u).mpr (exists_settings.mpr ⟨ss, hss, rfl⟩ u hu)

/-- What is collected with a table of settings is what the arguments say. -/
theorem collect_eq_some_iff (hspecs : Unambiguous specs)
    (hallowed : ∀ u : OptionUse, u.AllowedBy specs ↔ ∃ s : Setting, p s ∧ u = s.use) :
    collect specs {} args = some c ↔ ∃ (ss : List Setting) (operands : List String),
      Line args (ss.map Setting.use) operands ∧ (∀ s ∈ ss, p s) ∧
      (ss.map (·.use.long)).Nodup ∧ c = ({} : Collected).add (ss.map Setting.use) operands := by
  constructor
  · intro h
    obtain ⟨us, operands, hline, hadmits, rfl⟩ := Line.of_collect hspecs h
    obtain ⟨ss, hss, rfl⟩ := exists_settings.mp fun u hu =>
      (hallowed u).mp (hadmits.allowed u hu)
    have honce := hadmits.once
    rw [List.map_map] at honce
    exact ⟨ss, operands, hline, hss, honce, rfl⟩
  · rintro ⟨ss, operands, hline, hss, honce, rfl⟩
    exact hline.collect_eq hspecs (admits_settings hallowed hss honce)

theorem input?_eq_some : c.input? = some input ↔ c.operands = [input] ∧ input ≠ "" := by
  rw [Collected.input?]
  split
  · next only heq =>
    rw [heq, List.cons.injEq, and_iff_left rfl]
    constructor
    · intro h
      split at h
      · cases h
      · next hne =>
        obtain rfl := Option.some.inj h
        exact ⟨rfl, hne⟩
    · rintro ⟨rfl, hne⟩
      rw [if_neg hne]
  · next h => exact iff_of_false nofun fun hinput => h input hinput.1

/-- The arguments of a run are set by what is said, over those of a run without options. -/
theorem processArguments?_eq_some {specs : List OptionSpec} {a : ProcessArguments}
    (h : Admits specs {} (ss.map Setting.use)) :
    (({} : Collected).add (ss.map Setting.use) operands).processArguments? = some a ↔
      ∃ input, operands = [input] ∧ input ≠ "" ∧
        a = ss.foldl ProcessArguments.set (.plain input) := by
  have hplain : (({} : Collected).add [] operands).processArguments? =
      (({} : Collected).add [] operands).input?.map ProcessArguments.plain := by
    rw [Collected.processArguments?]
    cases (({} : Collected).add [] operands).input? <;> rfl
  have hset := processArguments?_add_settings ((admits_add_nil operands).mpr h)
  rw [Collected.add_add, List.nil_append, List.append_nil] at hset
  rw [hset, hplain, Option.map_map, Option.map_eq_some_iff]
  simp only [input?_eq_some, Collected.add, List.nil_append, Function.comp_apply, and_assoc,
    @eq_comm _ _ a]

section Parsing

variable {verbose v : Bool} {command : Command}

theorem says_process : Says ("process" :: args) v command ↔
    ∃ (ss : List Setting) (input : String), Wording args ss [input] ∧ input ≠ "" ∧
      v = decide (.verbose ∈ ss) ∧
      command = .process (ss.foldl ProcessArguments.set (.plain input)) := by
  constructor
  · intro h
    generalize hline : "process" :: args = line at h
    cases h with
    | process h hinput =>
      obtain rfl := (List.cons.inj hline).2
      exact ⟨_, _, h, hinput, rfl, rfl⟩
    | check => simp at hline
  · rintro ⟨ss, input, h, hinput, rfl, rfl⟩
    exact .process h hinput

theorem says_check : Says ("check" :: args) v command ↔
    ∃ (ss : List Setting) (input : String), Wording args ss [input] ∧ input ≠ "" ∧
      (∀ s ∈ ss, s = .verbose) ∧ v = decide (.verbose ∈ ss) ∧ command = .check input := by
  constructor
  · intro h
    generalize hline : "check" :: args = line at h
    cases h with
    | process => simp at hline
    | check h hinput hverbose =>
      obtain rfl := (List.cons.inj hline).2
      exact ⟨_, _, h, hinput, hverbose, rfl, rfl⟩
  · rintro ⟨ss, input, h, hinput, hverbose, rfl, rfl⟩
    exact .check h hinput hverbose

theorem parseArguments_process :
    parseArguments verbose ("process" :: args) = some (.run v command) ↔
      ∃ v', Says ("process" :: args) v' command ∧ v = (verbose || v') := by
  have hcollect (c : Collected) := @collect_eq_some_iff c args _ _ unambiguous_processOptions
    fun _ => allowedBy_processOptions
  have hadmits {ss : List Setting} := @admits_settings ss _ _ fun _ => allowedBy_processOptions
  rw [parseArguments]
  constructor
  · intro h
    obtain ⟨c, hc, h⟩ := Option.bind_eq_some_iff.mp h
    obtain ⟨a, ha, h⟩ := Option.bind_eq_some_iff.mp h
    cases h
    obtain ⟨ss, operands, hline, hproper, honce, rfl⟩ := (hcollect c).mp hc
    obtain ⟨input, rfl, hinput, rfl⟩ := (processArguments?_eq_some (hadmits hproper honce)).mp ha
    exact ⟨_, .process ⟨hline, hproper, honce⟩ hinput, by rw [has_verbose_add_settings]⟩
  · rintro ⟨v', hsays, rfl⟩
    obtain ⟨ss, input, h, hinput, rfl, rfl⟩ := says_process.mp hsays
    have hc := (hcollect _).mpr ⟨ss, [input], h.line, h.proper, h.once, rfl⟩
    have ha := (processArguments?_eq_some (hadmits h.proper h.once)).mpr ⟨input, rfl, hinput, rfl⟩
    simp [hc, ha, has_verbose_add_settings]

theorem parseArguments_check :
    parseArguments verbose ("check" :: args) = some (.run v command) ↔
      ∃ v', Says ("check" :: args) v' command ∧ v = (verbose || v') := by
  have hallowed (u : OptionUse) :
      u.AllowedBy checkOptions ↔ ∃ s : Setting, s = .verbose ∧ u = s.use := by
    rw [allowedBy_checkOptions, exists_eq_left]
  have hcollect (c : Collected) := @collect_eq_some_iff c args _ _ unambiguous_checkOptions hallowed
  have hproper {ss : List Setting} (h : ∀ s ∈ ss, s = .verbose) : ∀ s ∈ ss, s.IsProper := by
    intro s hs
    rw [h s hs]
    trivial
  rw [parseArguments]
  constructor
  · intro h
    obtain ⟨c, hc, h⟩ := Option.bind_eq_some_iff.mp h
    obtain ⟨input, hinput, h⟩ := Option.bind_eq_some_iff.mp h
    cases h
    obtain ⟨ss, operands, hline, hverbose, honce, rfl⟩ := (hcollect c).mp hc
    obtain ⟨hoperands, hne⟩ := input?_eq_some.mp hinput
    obtain rfl : operands = [input] := hoperands
    exact ⟨_, .check ⟨hline, hproper hverbose, honce⟩ hne hverbose,
      by rw [has_verbose_add_settings]⟩
  · rintro ⟨v', hsays, rfl⟩
    obtain ⟨ss, input, h, hinput, hverbose, rfl, rfl⟩ := says_check.mp hsays
    have hc := (hcollect _).mpr ⟨ss, [input], h.line, hverbose, h.once, rfl⟩
    have hoperand : (({} : Collected).add (ss.map Setting.use) [input]).input? = some input :=
      input?_eq_some.mpr ⟨rfl, hinput⟩
    simp [hc, hoperand, has_verbose_add_settings]

/-- Letters before the command that do not ask for the version are one letter at most. -/
theorem eq_of_preambleLetters {letters : List Char}
    (h : preambleLetters verbose letters = some (.verbose, v)) :
    letters = [] ∧ v = verbose ∨ letters = ['v'] ∧ verbose = false ∧ v = true := by
  fun_induction preambleLetters verbose letters with
  | case1 =>
    cases h
    exact .inl ⟨rfl, rfl⟩
  | case2 => cases h
  | case3 => cases h
  | case4 verbose rest hverbose ih =>
    rcases ih h with ⟨rfl, rfl⟩ | ⟨-, htrue, -⟩
    · exact .inr ⟨rfl, by simpa using hverbose, rfl⟩
    · cases htrue
  | case5 => cases h

theorem Says.parseArguments_eq (h : Says args v command) (verbose : Bool) :
    parseArguments verbose args = some (.run (verbose || v) command) := by
  cases h with
  | process h hinput => exact parseArguments_process.mpr ⟨_, .process h hinput, rfl⟩
  | check h hinput hverbose => exact parseArguments_check.mpr ⟨_, .check h hinput hverbose, rfl⟩

/-- The arguments are those of a command, or say first that the run is verbose. -/
theorem parseArguments_cons {arg : String} :
    parseArguments verbose (arg :: args) = some (.run v command) ↔
      (∃ v', Says (arg :: args) v' command ∧ v = (verbose || v')) ∨
      verbose = false ∧ (arg = "-v" ∨ arg = "--verbose") ∧
        parseArguments true args = some (.run v command) := by
  constructor
  · intro h
    -- Only the other words are left to be matched, so that no command is opened here.
    by_cases hprocess : arg = "process"
    · subst hprocess
      exact .inl (parseArguments_process.mp h)
    by_cases hcheck : arg = "check"
    · subst hcheck
      exact .inl (parseArguments_check.mp h)
    refine .inr ?_
    rw [parseArguments.eq_def] at h
    simp only at h
    split at h
    · exact absurd rfl hprocess
    · exact absurd rfl hcheck
    · cases h
    · split at h
      · cases h
      · next hverbose => exact ⟨by simpa using hverbose, .inr rfl, h⟩
    · split at h
      · next letter letters heq =>
        split at h
        · cases h
        · next v' hletters =>
          -- A second letter would make the run verbose twice.
          obtain ⟨hnil, -⟩ | ⟨hv, rfl, rfl⟩ := eq_of_preambleLetters hletters
          · cases hnil
          · refine ⟨rfl, .inl ?_, h⟩
            rw [← String.toList_inj, heq, hv]
            rfl
        · cases h
      · cases h
  · rintro (⟨v', h, rfl⟩ | ⟨rfl, rfl | rfl, h⟩)
    · exact h.parseArguments_eq verbose
    · simpa [parseArguments, preambleLetters] using h
    · simpa [parseArguments] using h

/-- A command line is taken for a run just if it is spelled so. -/
theorem Invocation.ofArguments?_eq_run :
    Invocation.ofArguments? args = some (.run v command) ↔ Spells args v command := by
  rw [Invocation.ofArguments?]
  constructor
  · intro h
    cases args with
    | nil => cases h
    | cons arg args =>
      obtain ⟨v', h, rfl⟩ | ⟨-, hword, h⟩ := parseArguments_cons.mp h
      · exact .command h
      · cases args with
        | nil => cases h
        | cons arg args =>
          obtain ⟨v', hsays, rfl⟩ | ⟨hfalse, -⟩ := parseArguments_cons.mp h
          · exact .verbose hword hsays
          · cases hfalse
  · intro h
    cases h with
    | command h => exact h.parseArguments_eq false
    | verbose hword h => exact parseArguments_cons.mpr (.inr ⟨rfl, hword, h.parseArguments_eq true⟩)

end Parsing

end Reading

/-! ### Rendering -/

/-- The option by its long name, with the value after an equals sign. -/
def OptionUse.word (u : OptionUse) : String :=
  match u.value with
  | none => "--" ++ u.long
  | some value => "--" ++ u.long ++ "=" ++ value

theorem OptionUse.argument_word (u : OptionUse) : Argument u.word.toList [u] none := by
  rw [word]
  cases hvalue : u.value with
  | none => simpa using Argument.flag hvalue
  | some value => simpa using @Argument.equals u value.toList (by simpa using hvalue)

/-- Options by their long names, and then operands. -/
theorem line_map_word (us : List OptionUse) (operands : List String) :
    Line (us.map OptionUse.word ++ "--" :: operands) us operands := by
  induction us with
  | nil => exact .operands operands
  | cons u us ih => exact .option u.argument_word ih

namespace ProcessArguments

/-- What the arguments say, each field by its option unless it is as it is without. -/
def settings (a : ProcessArguments) : List Setting :=
  (a.output.map .output).toList ++ (a.report.map .report).toList ++
  (a.properties.map .properties).toList ++ (a.propertiesOut.map .propertiesOut).toList ++
  (a.serializationLibrary.map .serializationLibrary).toList ++
  (if a.importPolicy = .sameUnit then [] else [.importPolicy a.importPolicy]) ++
  (a.modelImportPrefix.map .modelImportPrefix).toList ++
  (if a.strict then [.strict] else []) ++
  if a.layout = .pretty then [] else [.layout a.layout]

def toArguments (a : ProcessArguments) : List String :=
  "process" :: ((a.settings.map Setting.use).map OptionUse.word ++ ["--", a.input])

/-- No path is empty. -/
structure IsProper (a : ProcessArguments) : Prop where
  input : a.input ≠ ""
  settings : ∀ s ∈ a.settings, s.IsProper

variable (a : ProcessArguments)

/-- Every setting goes by a name of its own. -/
theorem nodup_map_settings : (a.settings.map (·.use.long)).Nodup := by
  have hoptional {long : String} (x : Option String) (f : String → Setting)
      (h : ∀ value, (f value).use.long = long) :
      ((x.map f).toList.map (·.use.long)).Sublist [long] := by
    cases x with
    | none => exact List.nil_sublist _
    | some value => simp [h]
  have houtput := hoptional a.output .output fun _ => rfl
  have hreport := hoptional a.report .report fun _ => rfl
  have hproperties := hoptional a.properties .properties fun _ => rfl
  have hpropertiesOut := hoptional a.propertiesOut .propertiesOut fun _ => rfl
  have hlibrary := hoptional a.serializationLibrary .serializationLibrary fun _ => rfl
  have hpolicy : ((if a.importPolicy = .sameUnit then []
      else [Setting.importPolicy a.importPolicy]).map (·.use.long)).Sublist ["import-policy"] := by
    cases a.importPolicy <;> decide
  have hprefix := hoptional a.modelImportPrefix .modelImportPrefix fun _ => rfl
  have hstrict : ((if a.strict then [Setting.strict] else []).map (·.use.long)).Sublist
      ["strict"] := by
    cases a.strict <;> decide
  have hlayout : ((if a.layout = .pretty then []
      else [Setting.layout a.layout]).map (·.use.long)).Sublist ["format"] := by
    cases a.layout <;> decide
  have hnames := (((((((houtput.append hreport).append hproperties).append hpropertiesOut).append
    hlibrary).append hpolicy).append hprefix).append hstrict).append hlayout
  simp only [← List.map_append] at hnames
  exact hnames.nodup (by decide)

/-- The settings of the arguments give all their fields. -/
theorem foldl_set_settings : a.settings.foldl set (plain a.input) = a := by
  have houtput (b : ProcessArguments) : (a.output.map Setting.output).toList.foldl set b =
      { b with output := a.output.or b.output } := by
    cases a.output <;> rfl
  have hreport (b : ProcessArguments) : (a.report.map Setting.report).toList.foldl set b =
      { b with report := a.report.or b.report } := by
    cases a.report <;> rfl
  have hproperties (b : ProcessArguments) :
      (a.properties.map Setting.properties).toList.foldl set b =
        { b with properties := a.properties.or b.properties } := by
    cases a.properties <;> rfl
  have hpropertiesOut (b : ProcessArguments) :
      (a.propertiesOut.map Setting.propertiesOut).toList.foldl set b =
        { b with propertiesOut := a.propertiesOut.or b.propertiesOut } := by
    cases a.propertiesOut <;> rfl
  have hlibrary (b : ProcessArguments) :
      (a.serializationLibrary.map Setting.serializationLibrary).toList.foldl set b =
        { b with serializationLibrary := a.serializationLibrary.or b.serializationLibrary } := by
    cases a.serializationLibrary <;> rfl
  have hpolicy (b : ProcessArguments) (hb : b.importPolicy = .sameUnit) :
      (if a.importPolicy = .sameUnit then [] else [Setting.importPolicy a.importPolicy]).foldl set b =
        { b with importPolicy := a.importPolicy } := by
    cases a.importPolicy with
    | sameUnit =>
      cases b
      cases hb
      rfl
    | filterAll => rfl
  have hprefix (b : ProcessArguments) :
      (a.modelImportPrefix.map Setting.modelImportPrefix).toList.foldl set b =
        { b with modelImportPrefix := a.modelImportPrefix.or b.modelImportPrefix } := by
    cases a.modelImportPrefix <;> rfl
  have hstrict (b : ProcessArguments) :
      (if a.strict then [Setting.strict] else []).foldl set b =
        { b with strict := a.strict || b.strict } := by
    cases a.strict <;> rfl
  have hlayout (b : ProcessArguments) (hb : b.layout = .pretty) :
      (if a.layout = .pretty then [] else [Setting.layout a.layout]).foldl set b =
        { b with layout := a.layout } := by
    cases a.layout with
    | pretty =>
      cases b
      cases hb
      rfl
    | compact => rfl
  simp only [settings, List.foldl_append, houtput, hreport, hproperties, hpropertiesOut, hlibrary,
    hpolicy, hprefix, hstrict, hlayout, plain, Option.or_none, Bool.or_false]

theorem verbose_not_mem_settings : Setting.verbose ∉ a.settings := by
  simp [settings]

/-- Arguments without an empty path can be spelled. -/
theorem IsProper.spells {a : ProcessArguments} (h : a.IsProper) :
    Spells a.toArguments false (.process a) := by
  have hwording : Wording ((a.settings.map Setting.use).map OptionUse.word ++ ["--", a.input])
      a.settings [a.input] := ⟨line_map_word _ _, h.settings, a.nodup_map_settings⟩
  have hsays := Says.process hwording h.input
  rw [a.foldl_set_settings, decide_eq_false a.verbose_not_mem_settings] at hsays
  exact .command hsays

/-- Arguments without an empty path are read back from their options, and from nothing where they
are as they are without. -/
theorem IsProper.ofArguments?_toArguments {a : ProcessArguments} (h : a.IsProper) :
    Invocation.ofArguments? a.toArguments = some (.run false (.process a)) :=
  Invocation.ofArguments?_eq_run.mpr h.spells

end ProcessArguments

end ModelRegistry.CommandLine
