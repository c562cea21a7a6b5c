import ModelRegistry.Proofs.CommandRuns
import ModelRegistry.Proofs.FixedPoint
import ModelRegistry.Proofs.ReportReading

/-!
# Warnings read back

In its compact text a tree has no control characters: strings escape theirs, and nothing else is
written with any. So whatever names a diagnostic has, its warning is one line, and the text of all
warnings is cut at its line feeds into just these lines. After its first word a line is the text of
one diagnostic, which is read back from it.
-/

namespace ModelRegistry

namespace Json

/-- No character of a text is a control. -/
def HasNoControls (cs : List Char) : Prop :=
  ∀ c ∈ cs, 32 ≤ c.toNat

section Controls

variable {cs ds : List Char} {c : Char}

@[simp] theorem hasNoControls_nil : HasNoControls [] := List.forall_mem_nil _

@[simp] theorem hasNoControls_cons :
    HasNoControls (c :: cs) ↔ 32 ≤ c.toNat ∧ HasNoControls cs :=
  List.forall_mem_cons

@[simp] theorem hasNoControls_append :
    HasNoControls (cs ++ ds) ↔ HasNoControls cs ∧ HasNoControls ds :=
  List.forall_mem_append

theorem HasNoControls.newline_not_mem (h : HasNoControls cs) : '\n' ∉ cs :=
  fun hmem => absurd (h _ hmem) (by decide)

theorem le_toNat_hexDigit {n : Nat} (h : n < 16) : 32 ≤ (hexDigit n).toNat := by
  interval_cases n <;> decide

/-- A control is written as an escape, which has none. -/
theorem hasNoControls_escapeChar (c : Char) : HasNoControls (escapeChar c) := by
  rw [escapeChar.eq_def]
  split
  case h_1 | h_2 | h_3 | h_4 | h_5 | h_6 | h_7 => simp
  case h_8 =>
    split
    · next hcontrol =>
      have hhigh : 32 ≤ (hexDigit (c.toNat / 16)).toNat := le_toNat_hexDigit (by omega)
      have hlow : 32 ≤ (hexDigit (c.toNat % 16)).toNat := le_toNat_hexDigit (by omega)
      simp [hhigh, hlow]
    · next hplain => simpa using hplain

theorem hasNoControls_stringText (s : String) : HasNoControls (stringText s) := by
  have hescaped : HasNoControls (s.toList.flatMap escapeChar) := by
    intro c hc
    obtain ⟨d, -, hd⟩ := List.mem_flatMap.mp hc
    exact hasNoControls_escapeChar d c hd
  simp [stringText, hescaped]

theorem hasNoControls_text (n : Number) : HasNoControls n.text := by
  have halphabet : HasNoControls numberAlphabet := by simp [numberAlphabet]
  exact fun c hc => halphabet c (text_subset n hc)

/-- Wherever it stands, the tree is written without controls. -/
def WritesNoControls (j : Json) : Prop :=
  ∀ depth, HasNoControls (write .compact depth j)

theorem hasNoControls_writeItems {js : List Json} (hjs : ∀ j ∈ js, WritesNoControls j)
    (depth : Nat) : HasNoControls (writeItems .compact depth js) := by
  induction js with
  | nil => exact hasNoControls_nil
  | cons j js ih =>
    obtain ⟨hj, hjs⟩ := List.forall_mem_cons.mp hjs
    simp [writeItems, Layout.gap, hj depth, ih hjs]

theorem hasNoControls_writeMembers {ms : List (String × Json)}
    (hms : ∀ m ∈ ms, WritesNoControls m.2) (depth : Nat) :
    HasNoControls (writeMembers .compact depth ms) := by
  induction ms with
  | nil => exact hasNoControls_nil
  | cons m ms ih =>
    obtain ⟨hm, hms⟩ := List.forall_mem_cons.mp hms
    simp [writeMembers, Layout.gap, Layout.colon, hasNoControls_stringText, hm depth, ih hms]

theorem writesNoControls (j : Json) : WritesNoControls j := by
  induction j using Json.induction with
  | null => simp [WritesNoControls, write]
  | bool b => cases b <;> simp [WritesNoControls, write]
  | number n => exact fun _ => hasNoControls_text n
  | string s => exact fun _ => hasNoControls_stringText s
  | array items ih =>
    intro depth
    cases items with
    | nil => simp [write]
    | cons j js =>
      obtain ⟨hj, hjs⟩ := List.forall_mem_cons.mp ih
      simp [write, Layout.gap, hj (depth + 1), hasNoControls_writeItems hjs]
  | object members ih =>
    intro depth
    cases members with
    | nil => simp [write]
    | cons m ms =>
      obtain ⟨hm, hms⟩ := List.forall_mem_cons.mp ih
      simp [write, Layout.gap, Layout.colon, hasNoControls_stringText, hm (depth + 1),
        hasNoControls_writeMembers hms]

theorem newline_not_mem_render (j : Json) : '\n' ∉ (j.render .compact).toList := by
  rw [render, String.toList_ofList]
  exact (j.writesNoControls 0).newline_not_mem

end Controls

end Json

namespace CommandLine

/-- The lines of a text that ends with a line feed, or is empty. -/
def lines? (text : String) : Option (List String) :=
  let pieces := text.toList.splitOn '\n'
  if pieces.getLast? = some [] then some (pieces.dropLast.map String.ofList) else none

theorem splitOn_lineText {lines : List String} (h : ∀ line ∈ lines, '\n' ∉ line.toList) :
    (lineText lines).toList.splitOn '\n' = lines.map String.toList ++ [[]] := by
  induction lines with
  | nil => rfl
  | cons line lines ih =>
    obtain ⟨hline, hlines⟩ := List.forall_mem_cons.mp h
    have htext : (lineText (line :: lines)).toList =
        line.toList ++ '\n' :: (lineText lines).toList := by
      simp [lineText]
    rw [htext, List.splitOn_append_cons_self_of_not_mem hline, ih hlines, List.map_cons,
      List.cons_append]

/-- Lines without line feeds are cut from their text as they were printed. -/
theorem lines?_lineText {lines : List String} (h : ∀ line ∈ lines, '\n' ∉ line.toList) :
    lines? (lineText lines) = some lines := by
  simp [lines?, splitOn_lineText h, List.map_map, Function.comp_def]

/-- The diagnostic that a line warns of. -/
def warned? (line : String) : Option Diagnostic := do
  let text ← Text.dropPrefix? "Warning: ".toList line.toList
  (Diagnostic.ofText (String.ofList text)).toOption

theorem newline_not_mem_warning (d : Diagnostic) : '\n' ∉ (warning d).toList := by
  rw [warning, String.toList_append, List.mem_append, not_or]
  exact ⟨by simp, Json.newline_not_mem_render d.toJson⟩

theorem warned?_warning (d : Diagnostic) : warned? (warning d) = some d := by
  have htext : Text.dropPrefix? "Warning: ".toList (warning d).toList =
      some (d.toJson.render .compact).toList :=
    Text.dropPrefix?_eq_some.mpr String.toList_append
  have hread : Diagnostic.ofText (d.toJson.render .compact) = .ok d :=
    d.written.ofText d.written.loosened_self .compact
  rw [warned?, htext]
  simp [hread, Except.toOption]

/-- The text has one line for each of the diagnostics, in their order, from which it is read back. -/
def Warns (text : String) (ds : List Diagnostic) : Prop :=
  ∃ lines, lines? text = some lines ∧ lines.length = ds.length ∧ lines.map warned? = ds.map some

theorem warns_lineText (ds : List Diagnostic) : Warns (lineText (ds.map warning)) ds := by
  have hlines : ∀ line ∈ ds.map warning, '\n' ∉ line.toList :=
    List.forall_mem_map.mpr fun d _ => newline_not_mem_warning d
  refine ⟨ds.map warning, lines?_lineText hlines, List.length_map _, ?_⟩
  rw [List.map_map]
  exact List.map_congr_left fun d _ => warned?_warning d

theorem Warns.unique {text : String} {ds ds' : List Diagnostic} (h : Warns text ds)
    (h' : Warns text ds') : ds = ds' := by
  obtain ⟨lines, htext, -, hds⟩ := h
  obtain ⟨lines', htext', -, hds'⟩ := h'
  obtain rfl := Option.some.inj (htext.symm.trans htext')
  exact List.map_injective_iff.mpr (Option.some_injective _) (hds.symm.trans hds')

/-- What is printed warns of the diagnostics, and could not have been printed of any others. -/
theorem warns_lineText_iff {ds ds' : List Diagnostic} :
    Warns (lineText (ds.map warning)) ds' ↔ ds' = ds := by
  constructor
  · exact fun h => h.unique (warns_lineText ds)
  · rintro rfl
    exact warns_lineText ds'

/-- Warnings cannot be split or forged. Any list of diagnostics, and no other, is read back from the
text that it is warned of with, whatever has been printed before and is done after. A run of
`process` that ends well has warned of the diagnostics of its report, and has printed nothing else to
standard error besides its log. -/
theorem warnings_read_back :
    (∀ ds : List Diagnostic, ∃ text, (∀ ds', Warns text ds' ↔ ds' = ds) ∧
      ∀ (x : Execution) error rest, x.run error ((ds.map fun d => .complain (warning d)) ++ rest) =
        { x with stderr := x.stderr ++ text }.run error rest) ∧
    ∀ {args : List String} {t : FileTree} {a : ProcessArguments}, Asks args (.process a) →
      (execute args t).exit = 0 → ∃ r report, t.Holds a.input Registry.decoder r ∧
        (r.postProcess a.passOptions).result = .ok report ∧
        ∀ ds, Warns (execute args t).stderr ds ↔ ds = report.diagnostics := by
  constructor
  · intro ds
    refine ⟨_, fun _ => warns_lineText_iff, fun x error rest => ?_⟩
    rw [← Execution.run_complain, List.map_map]
    rfl
  · intro args t a hasks hexit
    obtain ⟨verbose, hx⟩ := hasks.execute_eq t
    rw [hx] at hexit ⊢
    obtain ⟨r, ps, settings, report, tree, haccepts, hresult, -, hrun⟩ :=
      exists_execute_process_eq hexit
    refine ⟨r, report, haccepts.registry, hresult, ?_⟩
    rw [hrun]
    exact fun _ => warns_lineText_iff

/-- Names with a line break, a quote and the text of another warning. -/
def forgery : Diagnostic :=
  ⟨"pets\nWarning: \x7b\x7d", "\"Cat\"\r", .basesDropped [warning ⟨"pets", "Cat", .basesDropped []⟩]⟩

theorem warnings_read_back_forgery :
    (∃ text, Warns text [forgery, forgery] ∧ ∀ x : Execution,
      x.run none [.complain (warning forgery), .complain (warning forgery)] =
        { x with stderr := x.stderr ++ text }) ∧
    (execute ["process", "kennel.json"] kennelTree).exit = 0 ∧
    Warns (execute ["process", "kennel.json"] kennelTree).stderr Registry.terseReport.diagnostics := by
  obtain ⟨text, htext, hrun⟩ := warnings_read_back.1 [forgery, forgery]
  have hasks : Asks ["process", "kennel.json"] (.process { input := "kennel.json" }) :=
    ⟨false, by decide +kernel⟩
  have hexit : (execute ["process", "kennel.json"] kennelTree).exit = 0 := by decide +kernel
  obtain ⟨r, report, hregistry, hresult, hwarns⟩ := warnings_read_back.2 hasks hexit
  obtain rfl := hregistry.unique kennelTree_holds
  obtain rfl : report = Registry.terseReport := Except.ok.inj (hresult.symm.trans rfl)
  exact ⟨⟨text, (htext _).mpr rfl, fun x => hrun x none []⟩, hexit, (hwarns _).mpr rfl⟩

end CommandLine

end ModelRegistry
