import Mathlib.Data.List.Nodup
import Mathlib.Data.List.Pairwise
import Mathlib.Data.List.TakeWhile
import ModelRegistry.CommandLine.Arguments

/-!
# The grammar of command lines

How the options of a command are spelled is told here without scanning any argument: by their long
names or by their letters, with a value after an equals sign, in the next argument or directly after
the letter. The scanner of arguments accepts just the lists that are so spelled, with options from
its table, none of them twice.
-/

namespace ModelRegistry.CommandLine

/-- An option as it is used: the names it goes by, and its value unless it is a flag. -/
structure OptionUse where
  long : String
  short : Option Char
  value : Option String

/-! ### Spellings -/

/-- Options that are given by their letters. The last of them may have its value in the same
argument, directly or after an equals sign, or may wait for it. -/
inductive Letters : List Char → List OptionUse → Option OptionUse → Prop
  | nil : Letters [] [] none
  | flag {u : OptionUse} {letter : Char} {letters : List Char} {us : List OptionUse}
      {waiting : Option OptionUse} (hletter : u.short = some letter) (hvalue : u.value = none)
      (rest : Letters letters us waiting) : Letters (letter :: letters) (u :: us) waiting
  | waits {u : OptionUse} {letter : Char} (hletter : u.short = some letter)
      (hvalue : u.value.isSome = true) : Letters [letter] [] (some u)
  | equals {u : OptionUse} {letter : Char} {value : List Char} (hletter : u.short = some letter)
      (hvalue : u.value = some (.ofList value)) : Letters (letter :: '=' :: value) [u] none
  | attached {u : OptionUse} {letter : Char} {value : List Char} (hletter : u.short = some letter)
      (hvalue : u.value = some (.ofList value)) (hne : value ≠ [])
      (hequals : value.head? ≠ some '=') : Letters (letter :: value) [u] none

/-- The options of one argument. The last of them may wait for its value. -/
inductive Argument : List Char → List OptionUse → Option OptionUse → Prop
  | flag {u : OptionUse} (hvalue : u.value = none) :
      Argument ('-' :: '-' :: u.long.toList) [u] none
  | equals {u : OptionUse} {value : List Char} (hvalue : u.value = some (.ofList value)) :
      Argument ('-' :: '-' :: (u.long.toList ++ '=' :: value)) [u] none
  | waits {u : OptionUse} (hvalue : u.value.isSome = true) :
      Argument ('-' :: '-' :: u.long.toList) [] (some u)
  | letters {letters : List Char} {us : List OptionUse} {waiting : Option OptionUse}
      (h : Letters letters us waiting) (hne : letters ≠ []) : Argument ('-' :: letters) us waiting

/-- The options and the operands of a list of arguments, each in their order. What looks like an
option is never a value of its own; after two dashes all is operands. -/
inductive Line : List String → List OptionUse → List String → Prop
  | nil : Line [] [] []
  | operands (args : List String) : Line ("--" :: args) [] args
  | operand {arg : String} {args operands : List String} {us : List OptionUse}
      (harg : looksLikeOption arg = false) (rest : Line args us operands) :
      Line (arg :: args) us (arg :: operands)
  | option {arg : String} {args operands : List String} {us us' : List OptionUse}
      (h : Argument arg.toList us none) (rest : Line args us' operands) :
      Line (arg :: args) (us ++ us') operands
  | spaced {arg value : String} {args operands : List String} {u : OptionUse}
      {us us' : List OptionUse} (h : Argument arg.toList us (some u)) (hu : u.value = some value)
      (hvalue : looksLikeOption value = false) (rest : Line args us' operands) :
      Line (arg :: value :: args) (us ++ u :: us') operands

/-! ### Tables of options -/

/-- A use of the option with this value; of a flag, the only use. -/
def OptionSpec.use (o : OptionSpec) (value : String) : OptionUse :=
  ⟨o.long, o.short, o.accepts.map fun _ => value⟩

/-- The use is one of an option of the table, which accepts the value. -/
def OptionUse.AllowedBy (specs : List OptionSpec) (u : OptionUse) : Prop :=
  ∃ o ∈ specs, ∃ value, u = o.use value ∧ o.accepts.all (· value) = true

/-- What is kept of a use. -/
def OptionUse.entry (u : OptionUse) : String × String :=
  (u.long, u.value.getD "")

/-- No name or letter of the table is that of two options, and all of them can be written. -/
structure Unambiguous (specs : List OptionSpec) : Prop where
  long : (specs.map (·.long)).Nodup
  short : (specs.filterMap (·.short)).Nodup
  named : ∀ o ∈ specs, o.long ≠ "" ∧ '=' ∉ o.long.toList
  lettered : ∀ o ∈ specs, o.short ≠ some '-'

namespace Unambiguous

variable {specs : List OptionSpec} {o o' : OptionSpec} (h : Unambiguous specs)

include h

theorem eq_of_long (ho : o ∈ specs) (ho' : o' ∈ specs) (heq : o.long = o'.long) : o = o' :=
  List.inj_on_of_nodup_map h.long ho ho' heq

theorem eq_of_short {letter : Char} (ho : o ∈ specs) (ho' : o' ∈ specs)
    (hletter : o.short = some letter) (hletter' : o'.short = some letter) : o = o' := by
  have hpairwise := List.pairwise_filterMap.mp h.short
  have hsymm : Std.Symm fun o o' : OptionSpec =>
      ∀ c, o.short = some c → ∀ c', o'.short = some c' → c ≠ c' :=
    ⟨fun _ _ hne c hc c' hc' heq => hne c' hc' c hc heq.symm⟩
  by_contra hne
  exact hpairwise.forall ho ho' hne letter hletter letter hletter' rfl

end Unambiguous

/-- The uses can be added to what has been found: they are allowed, and no option is given twice. -/
structure Admits (specs : List OptionSpec) (c : Collected) (us : List OptionUse) : Prop where
  allowed : ∀ u ∈ us, u.AllowedBy specs
  once : (us.map (·.long)).Nodup
  fresh : ∀ u ∈ us, u.long ∉ c.options.map Prod.fst

/-- What has been found, and then these options and operands. -/
def Collected.add (c : Collected) (us : List OptionUse) (operands : List String) : Collected :=
  ⟨c.options ++ us.map OptionUse.entry, c.operands ++ operands⟩

section Collecting

variable {specs : List OptionSpec} {c c' : Collected} {us us' : List OptionUse} {u : OptionUse}
  {o : OptionSpec} {value : String} {operands operands' : List String}

@[simp] theorem Collected.add_nil : c.add [] [] = c := by
  simp [add]

@[simp] theorem Collected.add_add :
    (c.add us operands).add us' operands' = c.add (us ++ us') (operands ++ operands') := by
  simp [add]

theorem Collected.addOperands_eq : c.addOperands operands = c.add [] operands := by
  simp [addOperands, add]

theorem Collected.has_iff_mem {long : String} :
    c.has long = true ↔ long ∈ c.options.map Prod.fst := by
  rw [has, Option.isSome_iff_ne_none, ne_eq, List.lookup_eq_none_iff, List.mem_map]
  simp only [bne_iff_ne, ne_eq, not_forall, not_not, exists_prop, @eq_comm _ long]

theorem admits_nil : Admits specs c [] :=
  ⟨List.forall_mem_nil _, List.nodup_nil, List.forall_mem_nil _⟩

/-- Uses can be added if the first of them can, and then the others. -/
theorem admits_append (operands : List String) : Admits specs c (us ++ us') ↔
    Admits specs c us ∧ Admits specs (c.add us operands) us' := by
  have hnames : (c.add us operands).options.map Prod.fst =
      c.options.map Prod.fst ++ us.map (·.long) := by
    simp [Collected.add, OptionUse.entry, Function.comp_def]
  constructor
  · rintro ⟨hallowed, honce, hfresh⟩
    rw [List.map_append, List.nodup_append'] at honce
    obtain ⟨hus, hus', hdisjoint⟩ := honce
    rw [List.forall_mem_append] at hallowed hfresh
    refine ⟨⟨hallowed.1, hus, hfresh.1⟩, hallowed.2, hus', fun u hu => ?_⟩
    rw [hnames, List.mem_append, not_or]
    exact ⟨hfresh.2 u hu, fun hmem => hdisjoint hmem (List.mem_map_of_mem hu)⟩
  · rintro ⟨⟨hallowed, hus, hfresh⟩, hallowed', hus', hfresh'⟩
    simp only [hnames, List.mem_append, not_or] at hfresh'
    refine ⟨List.forall_mem_append.mpr ⟨hallowed, hallowed'⟩, ?_,
      List.forall_mem_append.mpr ⟨hfresh, fun u hu => (hfresh' u hu).1⟩⟩
    rw [List.map_append, List.nodup_append']
    refine ⟨hus, hus', fun name hname hname' => ?_⟩
    obtain ⟨u, hu, rfl⟩ := List.mem_map.mp hname'
    exact (hfresh' u hu).2 hname

theorem admits_cons : Admits specs c (u :: us) ↔
    Admits specs c [u] ∧ Admits specs (c.add [u] []) us :=
  @admits_append specs c [u] us []

/-- Operands make no difference to the options. -/
theorem admits_add_nil (operands : List String) :
    Admits specs (c.add [] operands) us ↔ Admits specs c us :=
  ((admits_append operands).trans (and_iff_right admits_nil)).symm

/-- The empty text stands for the value of a flag. -/
theorem OptionUse.AllowedBy.exists_spec (h : u.AllowedBy specs) :
    ∃ o ∈ specs, ∃ value, u = o.use value ∧ (o.accepts = none → value = "") := by
  obtain ⟨o, ho, value, rfl, -⟩ := h
  cases haccepts : o.accepts with
  | none => exact ⟨o, ho, "", by rw [OptionSpec.use, OptionSpec.use, haccepts]; rfl, fun _ => rfl⟩
  | some => exact ⟨o, ho, value, rfl, fun hnone => by rw [haccepts] at hnone; cases hnone⟩

theorem OptionSpec.entry_use (hflag : o.accepts = none → value = "") :
    (o.use value).entry = (o.long, value) := by
  cases haccepts : o.accepts with
  | none => simp [OptionUse.entry, use, haccepts, hflag haccepts]
  | some => simp [OptionUse.entry, use, haccepts]

theorem OptionSpec.allowedBy_use (hspecs : Unambiguous specs) (ho : o ∈ specs) :
    (o.use value).AllowedBy specs ↔ o.accepts.all (· value) = true := by
  constructor
  · rintro ⟨o', ho', value', huse, hvalue⟩
    obtain rfl := hspecs.eq_of_long ho ho' (congrArg OptionUse.long huse)
    have hvalues := congrArg OptionUse.value huse
    cases haccepts : o.accepts with
    | none => rfl
    | some accepts =>
      simp only [use, haccepts, Option.map_some, Option.some.injEq] at hvalues
      rwa [hvalues, ← haccepts]
  · exact fun hvalue => ⟨o, ho, value, rfl, hvalue⟩

theorem admits_use (hspecs : Unambiguous specs) (ho : o ∈ specs) :
    Admits specs c [o.use value] ↔
      o.long ∉ c.options.map Prod.fst ∧ o.accepts.all (· value) = true := by
  rw [← OptionSpec.allowedBy_use hspecs ho]
  constructor
  · exact fun h => ⟨h.fresh _ List.mem_cons_self, h.allowed _ List.mem_cons_self⟩
  · exact fun h => ⟨List.forall_mem_singleton.mpr h.2, List.nodup_singleton _,
      List.forall_mem_singleton.mpr h.1⟩

/-- An option is added if it can be. -/
theorem addOption_eq_some (hspecs : Unambiguous specs) (ho : o ∈ specs)
    (hflag : o.accepts = none → value = "") :
    c.addOption o value = some c' ↔
      Admits specs c [o.use value] ∧ c' = c.add [o.use value] [] := by
  have hadd : c.add [o.use value] [] = { c with options := c.options ++ [(o.long, value)] } := by
    simp [Collected.add, OptionSpec.entry_use hflag]
  rw [admits_use hspecs ho, ← Collected.has_iff_mem, hadd, Collected.addOption]
  split
  · next h =>
    refine iff_of_false (by simp) fun hboth => ?_
    rcases h with h | h
    · exact hboth.1.1 h
    · rw [hboth.1.2] at h
      cases h
  · next h =>
    obtain ⟨hnew, hvalue⟩ := not_or.mp h
    rw [Bool.not_eq_true, Bool.not_eq_false'] at hvalue
    rw [Option.some.injEq, eq_comm, and_iff_right ⟨hnew, hvalue⟩]

end Collecting

/-! ### Scanning -/

section Splitting

variable {s name value : List Char}

theorem splitValue_of_not_mem (h : '=' ∉ s) : splitValue s = (s, none) := by
  have hall : ∀ c ∈ s, decide (c ≠ '=') = true := fun c hc => by
    simpa using ne_of_mem_of_not_mem hc h
  rw [splitValue, List.takeWhile_eq_self_iff.mpr hall, if_neg (by simpa using h)]

theorem splitValue_append (h : '=' ∉ name) :
    splitValue (name ++ '=' :: value) = (name, some value) := by
  have hall : ∀ c ∈ name, decide (c ≠ '=') = true := fun c hc => by
    simpa using ne_of_mem_of_not_mem hc h
  rw [splitValue, List.takeWhile_append_of_pos hall, List.dropWhile_append_of_pos hall]
  simp

theorem eq_of_splitValue_eq_none (h : splitValue s = (name, none)) : s = name := by
  by_cases hmem : '=' ∈ s
  · obtain ⟨before, after, rfl, hbefore⟩ := List.eq_append_cons_of_mem hmem
    rw [splitValue_append hbefore] at h
    cases h
  · exact congrArg Prod.fst ((splitValue_of_not_mem hmem).symm.trans h)

theorem eq_of_splitValue_eq_some (h : splitValue s = (name, some value)) :
    s = name ++ '=' :: value := by
  by_cases hmem : '=' ∈ s
  · obtain ⟨before, after, rfl, hbefore⟩ := List.eq_append_cons_of_mem hmem
    rw [splitValue_append hbefore] at h
    cases h
    rfl
  · rw [splitValue_of_not_mem hmem] at h
    cases h

end Splitting

theorem OptionSpec.use_value_eq_none {o : OptionSpec} {v : String} :
    (o.use v).value = none ↔ o.accepts = none := by
  simp [use]

theorem OptionSpec.use_value_eq_some {o : OptionSpec} {v w : String} :
    (o.use v).value = some w ↔ o.accepts.isSome = true ∧ v = w := by
  cases h : o.accepts <;> simp [use, h]

/-- What waits for a value is an option of the table that takes one. -/
def TakesValue (specs : List OptionSpec) (waiting : Option OptionSpec) : Prop :=
  ∀ o ∈ waiting, o ∈ specs ∧ o.accepts.isSome = true

theorem TakesValue.exists_eq {specs : List OptionSpec} {waiting : Option OptionSpec}
    (h : TakesValue specs waiting) {u : OptionUse} {v : String}
    (hu : some u = waiting.map (·.use v)) :
    ∃ o ∈ specs, o.accepts.isSome = true ∧ waiting = some o ∧ u = o.use v := by
  obtain ⟨o, rfl, rfl⟩ := Option.map_eq_some_iff.mp hu.symm
  obtain ⟨ho, haccepts⟩ := h o rfl
  exact ⟨o, ho, haccepts, rfl, rfl⟩

/-- What looks like an option has a dash and more. -/
theorem looksLikeOption_iff {arg : String} :
    looksLikeOption arg = true ↔ ∃ rest, arg.toList = '-' :: rest ∧ rest ≠ [] := by
  have hdash : arg.startsWith "-" = true ↔ ∃ rest, arg.toList = '-' :: rest := by
    rw [String.startsWith_string_iff]
    constructor
    · rintro ⟨rest, hrest⟩
      exact ⟨rest, hrest.symm⟩
    · rintro ⟨rest, hrest⟩
      exact ⟨rest, hrest.symm⟩
  have hplain : arg = "-" ↔ arg.toList = ['-'] := by
    rw [← String.toList_inj]
    rfl
  rw [looksLikeOption, Bool.and_eq_true, decide_eq_true_eq, hdash, ne_eq, hplain]
  constructor
  · rintro ⟨⟨rest, hrest⟩, hne⟩
    exact ⟨rest, hrest, by simpa [hrest] using hne⟩
  · rintro ⟨rest, hrest, hne⟩
    exact ⟨⟨rest, hrest⟩, by simpa [hrest] using hne⟩

section Scanning

variable {specs : List OptionSpec} {c c' : Collected} {us : List OptionUse} {u : OptionUse}
  {o : OptionSpec} {waiting : Option OptionSpec} (hspecs : Unambiguous specs)

include hspecs

theorem find?_of_short {letter : Char} (ho : o ∈ specs) (hletter : o.short = some letter) :
    specs.find? (·.short = some letter) = some o := by
  have hfound : (specs.find? (·.short = some letter)).isSome = true :=
    List.find?_isSome.mpr ⟨o, ho, decide_eq_true hletter⟩
  obtain ⟨o', hfind⟩ := Option.isSome_iff_exists.mp hfound
  have hletter' : o'.short = some letter := by simpa using List.find?_some hfind
  rw [hfind, hspecs.eq_of_short (List.mem_of_find?_eq_some hfind) ho hletter' hletter]

theorem find?_of_long (ho : o ∈ specs) :
    specs.find? (·.long.toList = o.long.toList) = some o := by
  have hfound : (specs.find? (·.long.toList = o.long.toList)).isSome = true :=
    List.find?_isSome.mpr ⟨o, ho, decide_eq_true rfl⟩
  obtain ⟨o', hfind⟩ := Option.isSome_iff_exists.mp hfound
  have hlong : o'.long = o.long := String.toList_inj.mp (by simpa using List.find?_some hfind)
  rw [hfind, hspecs.eq_of_long (List.mem_of_find?_eq_some hfind) ho hlong]

theorem Admits.exists_addOption (h : Admits specs c [u]) :
    ∃ o ∈ specs, ∃ value, u = o.use value ∧ (o.accepts = none → value = "") ∧
      c.addOption o value = some (c.add [u] []) := by
  obtain ⟨o, ho, value, rfl, hflag⟩ := (h.allowed u List.mem_cons_self).exists_spec
  exact ⟨o, ho, value, rfl, hflag, (addOption_eq_some hspecs ho hflag).mpr ⟨h, rfl⟩⟩

/-- A scan that ends with an option and its value has added just this one. -/
theorem admits_of_addOption {value : String} (ho : o ∈ specs)
    (hflag : o.accepts = none → value = "")
    (h : (do return (← c.addOption o value, none)) = some (c', waiting)) :
    Admits specs c [o.use value] ∧ c' = c.add [o.use value] [] ∧ waiting = none := by
  obtain ⟨c₁, hadd, h⟩ := Option.bind_eq_some_iff.mp h
  obtain ⟨rfl, rfl⟩ := Prod.mk.inj (Option.some.inj h)
  obtain ⟨hadmits, rfl⟩ := (addOption_eq_some hspecs ho hflag).mp hadd
  exact ⟨hadmits, rfl, rfl⟩

theorem Letters.of_scanLetters {letters : List Char} (v : String)
    (h : scanLetters specs c letters = some (c', waiting)) :
    TakesValue specs waiting ∧ ∃ us, Letters letters us (waiting.map (·.use v)) ∧
      Admits specs c us ∧ c' = c.add us [] := by
  induction letters generalizing c with
  | nil =>
    obtain ⟨rfl, rfl⟩ := Prod.mk.inj (Option.some.inj h)
    exact ⟨nofun, [], .nil, admits_nil, Collected.add_nil.symm⟩
  | cons letter letters ih =>
    obtain ⟨o, hfind, h⟩ := Option.bind_eq_some_iff.mp h
    have ho := List.mem_of_find?_eq_some hfind
    have hletter : o.short = some letter := by simpa using List.find?_some hfind
    split at h
    · next hflag =>
      obtain ⟨c₁, hadd, h⟩ := Option.bind_eq_some_iff.mp h
      obtain ⟨hadmits, rfl⟩ := (addOption_eq_some hspecs ho fun _ => rfl).mp hadd
      obtain ⟨hwaiting, us, hletters, hus, rfl⟩ := ih h
      refine ⟨hwaiting, o.use "" :: us, .flag hletter ?_ hletters, admits_cons.mpr ⟨hadmits, hus⟩,
        Collected.add_add⟩
      exact OptionSpec.use_value_eq_none.mpr (Option.isNone_iff_eq_none.mp hflag)
    · next hvalue =>
      have haccepts : o.accepts.isSome = true :=
        Option.isSome_iff_ne_none.mpr fun hnone => hvalue (Option.isNone_iff_eq_none.mpr hnone)
      have hnone (value : String) (hnone : o.accepts = none) : value = "" := by
        simp [hnone] at haccepts
      have huse (value : String) : (o.use value).value = some value :=
        OptionSpec.use_value_eq_some.mpr ⟨haccepts, rfl⟩
      split at h
      · obtain ⟨rfl, rfl⟩ := Prod.mk.inj (Option.some.inj h)
        refine ⟨?_, [], .waits hletter (by simp [huse]), admits_nil, Collected.add_nil.symm⟩
        rintro _ ⟨⟩
        exact ⟨ho, haccepts⟩
      · next value =>
        obtain ⟨hadmits, rfl, rfl⟩ := admits_of_addOption hspecs ho (hnone _) h
        exact ⟨nofun, _, .equals hletter (huse _), hadmits, rfl⟩
      · next hne hequals =>
        obtain ⟨hadmits, rfl, rfl⟩ := admits_of_addOption hspecs ho (hnone _) h
        refine ⟨nofun, _, .attached hletter (huse _) hne fun hhead => ?_, hadmits, rfl⟩
        obtain ⟨value, hvalue⟩ := List.head?_eq_some_iff.mp hhead
        exact hequals value hvalue

theorem Letters.scanLetters_eq {letters : List Char} {w : Option OptionUse} {v : String}
    (h : Letters letters us w) (hw : w = waiting.map (·.use v))
    (hwaiting : TakesValue specs waiting) (hadmits : Admits specs c us) :
    scanLetters specs c letters = some (c.add us [], waiting) := by
  induction h generalizing c with
  | nil =>
    obtain rfl := Option.map_eq_none_iff.mp hw.symm
    simp [scanLetters]
  | flag hletter hvalue _ ih =>
    obtain ⟨hu, hus⟩ := admits_cons.mp hadmits
    obtain ⟨o, ho, value, rfl, hflag, hadd⟩ := hu.exists_addOption hspecs
    have hnone := OptionSpec.use_value_eq_none.mp hvalue
    obtain rfl := hflag hnone
    have hletter' : o.short = some _ := hletter
    simp [scanLetters, find?_of_short hspecs ho hletter', hnone, hadd, ih hw hus]
  | waits hletter =>
    obtain ⟨o, ho, haccepts, rfl, rfl⟩ := hwaiting.exists_eq hw
    have hletter' : o.short = some _ := hletter
    simp [scanLetters, find?_of_short hspecs ho hletter', Option.ne_none_iff_isSome.mpr haccepts]
  | equals hletter hvalue =>
    obtain ⟨o, ho, value, rfl, -, hadd⟩ := hadmits.exists_addOption hspecs
    obtain ⟨haccepts, rfl⟩ := OptionSpec.use_value_eq_some.mp hvalue
    have hletter' : o.short = some _ := hletter
    obtain rfl := Option.map_eq_none_iff.mp hw.symm
    simp [scanLetters, find?_of_short hspecs ho hletter',
      Option.ne_none_iff_isSome.mpr haccepts, hadd]
  | @attached u letter value hletter hvalue hne hequals =>
    obtain ⟨o, ho, value, rfl, -, hadd⟩ := hadmits.exists_addOption hspecs
    obtain ⟨haccepts, rfl⟩ := OptionSpec.use_value_eq_some.mp hvalue
    have hletter' : o.short = some _ := hletter
    obtain rfl := Option.map_eq_none_iff.mp hw.symm
    have hflag : o.accepts.isNone = false := by simpa [← Option.not_isSome] using haccepts
    rw [scanLetters, find?_of_short hspecs ho hletter']
    simp only [Option.bind_eq_bind, Option.bind_some, hflag, Bool.false_eq_true, if_false]
    split
    · exact absurd rfl hne
    · exact absurd rfl hequals
    -- Neither empty nor after an equals sign, all that follows the letter is the value.
    · simp [hadd]

theorem Argument.of_scanOption {arg : String} (v : String) (harg : looksLikeOption arg = true)
    (h : scanOption specs c arg = some (c', waiting)) :
    TakesValue specs waiting ∧ ∃ us, Argument arg.toList us (waiting.map (·.use v)) ∧
      Admits specs c us ∧ c' = c.add us [] := by
  obtain ⟨rest, hrest, hne⟩ := looksLikeOption_iff.mp harg
  rw [scanOption, hrest] at h
  rw [hrest]
  split at h
  · next body heq =>
    obtain rfl := List.tail_eq_of_cons_eq heq
    cases hsplit : splitValue body with | mk name value
    simp only [hsplit] at h
    obtain ⟨o, hfind, hmatch⟩ := Option.bind_eq_some_iff.mp h
    have ho := List.mem_of_find?_eq_some hfind
    obtain rfl : o.long.toList = name := by simpa using List.find?_some hfind
    clear h
    split at hmatch
    · next haccepts =>
      obtain ⟨hadmits, rfl, rfl⟩ := admits_of_addOption hspecs ho (fun _ => rfl) hmatch
      rw [eq_of_splitValue_eq_none hsplit]
      exact ⟨nofun, _, .flag (OptionSpec.use_value_eq_none.mpr haccepts), hadmits, rfl⟩
    · cases hmatch
    · next value haccepts =>
      obtain ⟨hadmits, rfl, rfl⟩ := admits_of_addOption hspecs ho (by simp [haccepts]) hmatch
      have hvalue : (o.use (.ofList value)).value = some (.ofList value) := by
        simp [OptionSpec.use, haccepts]
      rw [eq_of_splitValue_eq_some hsplit]
      exact ⟨nofun, _, .equals hvalue, hadmits, rfl⟩
    · next haccepts =>
      obtain ⟨rfl, rfl⟩ := Prod.mk.inj (Option.some.inj hmatch)
      have hvalue : (o.use v).value.isSome = true := by simp [OptionSpec.use, haccepts]
      rw [eq_of_splitValue_eq_none hsplit]
      refine ⟨?_, [], .waits hvalue, admits_nil, Collected.add_nil.symm⟩
      rintro _ ⟨⟩
      exact ⟨ho, by rw [haccepts]; rfl⟩
  · next heq =>
    obtain rfl := List.tail_eq_of_cons_eq heq
    obtain ⟨hwaiting, us, hus, hadmits, rfl⟩ := Letters.of_scanLetters hspecs v h
    exact ⟨hwaiting, us, .letters hus hne, hadmits, rfl⟩
  · next heq => cases heq

/-- The first letter is not the second of two dashes. -/
theorem Letters.head?_ne {letters : List Char} {w : Option OptionUse} {v : String}
    (h : Letters letters us w) (hw : w = waiting.map (·.use v))
    (hwaiting : TakesValue specs waiting) (hadmits : Admits specs c us) :
    letters.head? ≠ some '-' := by
  have hshort (u : OptionUse) (hu : u ∈ us) : u.short ≠ some '-' := by
    obtain ⟨o, ho, _, rfl, -⟩ := hadmits.allowed u hu
    exact hspecs.lettered _ ho
  cases h with
  | nil => simp
  | flag hletter | equals hletter | attached hletter =>
    exact fun hhead => hshort _ List.mem_cons_self (hletter.trans hhead)
  | waits hletter =>
    -- This use is not among those admitted, but its option is one of the table.
    obtain ⟨o, ho, -, -, rfl⟩ := hwaiting.exists_eq hw
    exact fun hhead => hspecs.lettered _ ho (hletter.trans hhead)

/-- A spelled argument looks like an option, and is more than two dashes. -/
theorem Argument.looksLikeOption {arg : String} {w : Option OptionUse} {v : String}
    (h : Argument arg.toList us w) (hw : w = waiting.map (·.use v))
    (hwaiting : TakesValue specs waiting) (hadmits : Admits specs c us) :
    looksLikeOption arg = true ∧ arg ≠ "--" := by
  have hdashes : arg = "--" ↔ arg.toList = ['-', '-'] := by
    rw [← String.toList_inj]
    rfl
  have hnamed (o : OptionSpec) (ho : o ∈ specs) : o.long.toList ≠ [] :=
    fun hlong => (hspecs.named o ho).1 (String.toList_eq_nil_iff.mp hlong)
  rw [looksLikeOption_iff, ne_eq, hdashes]
  generalize arg.toList = s at h
  cases h with
  | flag =>
    obtain ⟨o, ho, _, rfl, -⟩ := hadmits.allowed _ List.mem_cons_self
    exact ⟨⟨_, rfl, by simp⟩, by simpa [OptionSpec.use] using hnamed o ho⟩
  | equals => exact ⟨⟨_, rfl, by simp⟩, by simp⟩
  | waits =>
    obtain ⟨o, ho, -, -, rfl⟩ := hwaiting.exists_eq hw
    exact ⟨⟨_, rfl, by simp⟩, by simpa [OptionSpec.use] using hnamed o ho⟩
  | letters h hne =>
    have hhead := h.head?_ne hspecs hw hwaiting hadmits
    refine ⟨⟨_, rfl, hne⟩, fun heq => hhead ?_⟩
    rw [(List.cons.inj heq).2]
    rfl

theorem Argument.scanOption_eq {arg : String} {w : Option OptionUse} {v : String}
    (h : Argument arg.toList us w) (hw : w = waiting.map (·.use v))
    (hwaiting : TakesValue specs waiting) (hadmits : Admits specs c us) :
    scanOption specs c arg = some (c.add us [], waiting) := by
  rw [scanOption.eq_def]
  generalize arg.toList = s at h
  cases h with
  | flag hvalue =>
    obtain ⟨o, ho, value, rfl, hflag, hadd⟩ := hadmits.exists_addOption hspecs
    have hnone := OptionSpec.use_value_eq_none.mp hvalue
    obtain rfl := hflag hnone
    have hsplit := splitValue_of_not_mem (hspecs.named _ ho).2
    obtain rfl := Option.map_eq_none_iff.mp hw.symm
    simp [OptionSpec.use, hsplit, find?_of_long hspecs ho, hnone, hadd]
  | equals hvalue =>
    obtain ⟨o, ho, value, rfl, -, hadd⟩ := hadmits.exists_addOption hspecs
    obtain ⟨haccepts, rfl⟩ := OptionSpec.use_value_eq_some.mp hvalue
    obtain ⟨accepts, haccepts⟩ := Option.isSome_iff_exists.mp haccepts
    have hsplit (value : List Char) :
        splitValue (o.long.toList ++ '=' :: value) = (o.long.toList, some value) :=
      splitValue_append (hspecs.named _ ho).2
    obtain rfl := Option.map_eq_none_iff.mp hw.symm
    simp [OptionSpec.use, hsplit, find?_of_long hspecs ho, haccepts, hadd]
  | waits =>
    obtain ⟨o, ho, haccepts, rfl, rfl⟩ := hwaiting.exists_eq hw
    obtain ⟨accepts, haccepts⟩ := Option.isSome_iff_exists.mp haccepts
    have hsplit := splitValue_of_not_mem (hspecs.named _ ho).2
    simp [OptionSpec.use, hsplit, find?_of_long hspecs ho, haccepts]
  | letters h hne =>
    have hscan := h.scanLetters_eq hspecs hw hwaiting hadmits
    have hhead := h.head?_ne hspecs hw hwaiting hadmits
    split
    · next heq =>
      rw [(List.cons.inj heq).2] at hhead
      exact absurd rfl hhead
    · next heq => rw [← (List.cons.inj heq).2, hscan]
    · next heq => cases heq

theorem Line.of_collect {args : List String} (h : collect specs c args = some c') :
    ∃ us operands, Line args us operands ∧ Admits specs c us ∧ c' = c.add us operands := by
  -- The cases are those of the scanner; its failures have collected nothing.
  fun_induction collect specs c args with
  | case1 => exact ⟨[], [], .nil, admits_nil, by simpa using h.symm⟩
  | case2 c args =>
    obtain rfl := Option.some.inj h
    exact ⟨[], args, .operands args, admits_nil, Collected.addOperands_eq⟩
  | case3 => cases h
  | case4 c arg args hdashes harg c₁ hscan ih =>
    obtain ⟨-, us, hus, hadmits, rfl⟩ := Argument.of_scanOption hspecs "" harg hscan
    obtain ⟨us', operands, hline, hadmits', rfl⟩ := ih h
    exact ⟨us ++ us', operands, .option hus hline,
      (admits_append []).mpr ⟨hadmits, hadmits'⟩, by simp⟩
  | case5 => cases h
  | case6 => cases h
  | case7 c arg hdashes harg c₁ o hscan value args hvalue ih =>
    obtain ⟨htakes, us, hus, hadmits, rfl⟩ := Argument.of_scanOption hspecs value harg hscan
    obtain ⟨ho, haccepts⟩ := htakes o rfl
    obtain ⟨c₂, hadd, h⟩ := Option.bind_eq_some_iff.mp h
    have hflag (hnone : o.accepts = none) : value = "" := by simp [hnone] at haccepts
    obtain ⟨hone, rfl⟩ := (addOption_eq_some hspecs ho hflag).mp hadd
    obtain ⟨us', operands, hline, hrest, rfl⟩ := ih _ h
    have hu : (o.use value).value = some value := OptionSpec.use_value_eq_some.mpr ⟨haccepts, rfl⟩
    exact ⟨us ++ o.use value :: us', operands, .spaced hus hu (by simpa using hvalue) hline,
      (admits_append []).mpr ⟨hadmits, admits_cons.mpr ⟨hone, hrest⟩⟩, by simp⟩
  | case8 c arg args hdashes harg ih =>
    obtain ⟨us, operands, hline, hadmits, rfl⟩ := ih h
    rw [Collected.addOperands_eq] at hadmits ⊢
    refine ⟨us, arg :: operands, .operand (by simpa using harg) hline,
      (admits_add_nil [arg]).mp hadmits, by simp⟩

theorem Line.collect_eq {args operands : List String} (h : Line args us operands)
    (hadmits : Admits specs c us) : collect specs c args = some (c.add us operands) := by
  induction h generalizing c with
  | nil => simp [collect]
  | operands args => simp [collect, Collected.addOperands_eq]
  | @operand arg _ _ _ harg _ ih =>
    have hne : arg ≠ "--" := by
      rintro rfl
      rw [looksLikeOption_iff.mpr ⟨['-'], rfl, by simp⟩] at harg
      cases harg
    have hrest := ih ((admits_add_nil [arg]).mpr hadmits)
    simp [collect, hne, harg, Collected.addOperands_eq, hrest]
  | option h _ ih =>
    have hnone : none = (none : Option OptionSpec).map (·.use "") := rfl
    obtain ⟨hus, hrest⟩ := (admits_append []).mp hadmits
    obtain ⟨hlooks, hne⟩ := h.looksLikeOption hspecs hnone nofun hus
    have hscan := h.scanOption_eq hspecs hnone nofun hus
    simp [collect, hne, hlooks, hscan, ih hrest]
  | spaced h hu hvalue _ ih =>
    obtain ⟨hus, hrest⟩ := (admits_append []).mp hadmits
    obtain ⟨hone, hrest⟩ := admits_cons.mp hrest
    obtain ⟨o, ho, value, rfl, -, hadd⟩ := hone.exists_addOption hspecs
    obtain ⟨haccepts, rfl⟩ := OptionSpec.use_value_eq_some.mp hu
    have htakes : TakesValue specs (some o) := by
      rintro _ ⟨⟩
      exact ⟨ho, haccepts⟩
    obtain ⟨hlooks, hne⟩ := h.looksLikeOption hspecs rfl htakes hus
    have hscan := h.scanOption_eq hspecs rfl htakes hus
    simpa [collect, hne, hlooks, hscan, hvalue, hadd] using ih hrest

end Scanning

end ModelRegistry.CommandLine
