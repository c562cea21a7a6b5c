import ModelRegistry.Proofs.Documents
import ModelRegistry.Proofs.SortedEntries
import ModelRegistry.Settings

/-!
# Resolving generator settings

Settings are resolved from additional properties unless these ask for a library that there is not.
They ask by a text or by any other value but null, and the JSON text of such a value is never the
name of a library: a number has no letter but `e` in its text, an array begins with a bracket. The
settings have the options of a run as they are by default, and the properties with the flag of the
library among them; resolved once more, these give the same settings.
-/

namespace ModelRegistry

open Json

namespace Json

/-- What the texts of numbers are made of. -/
def numberAlphabet : List Char :=
  ['0', '1', '2', '3', '4', '5', '6', '7', '8', '9', '.', '+', '-', 'e']

theorem natText_subset (n : Nat) : Decimal.natText n ⊆ numberAlphabet := by
  have hdigits : ∀ d < 10, Decimal.digitChar d ∈ numberAlphabet := by decide
  intro c hc
  obtain ⟨d, hd, rfl⟩ := List.mem_map.mp hc
  exact hdigits d (Decimal.lt_ten_of_mem_digits hd)

theorem layout_subset (s : Decimal.Scaled) : Number.layout s ⊆ numberAlphabet := by
  have hds := natText_subset s.coefficient
  have hpoint : '.' ∈ numberAlphabet := by decide
  have hzeros (n : Nat) : List.replicate n '0' ⊆ numberAlphabet := by
    intro c hc
    rw [List.eq_of_mem_replicate hc]
    decide
  simp only [Number.layout]
  split
  · exact List.append_subset.mpr ⟨List.append_subset.mpr ⟨hds, hzeros _⟩, by decide⟩
  · split
    · refine List.append_subset.mpr ⟨List.Subset.trans (List.take_subset _ _) hds, ?_⟩
      exact List.cons_subset.mpr ⟨hpoint, List.Subset.trans (List.drop_subset _ _) hds⟩
    · split
      · refine List.append_subset.mpr ⟨?_, hds⟩
        exact List.cons_subset.mpr ⟨by decide, List.cons_subset.mpr ⟨hpoint, hzeros _⟩⟩
      · refine List.append_subset.mpr ⟨?_, List.cons_subset.mpr ⟨by decide, ?_⟩⟩
        · split
          · next d rest hsplit =>
            obtain ⟨hd, hrest⟩ := List.cons_subset.mp (hsplit ▸ hds)
            exact List.cons_subset.mpr ⟨hd, List.cons_subset.mpr ⟨hpoint, hrest⟩⟩
          · exact hds
        · refine List.cons_subset.mpr ⟨?_, natText_subset _⟩
          split <;> decide

theorem text_subset (n : Number) : n.text ⊆ numberAlphabet := by
  have hminus : '-' ∈ numberAlphabet := by decide
  cases n with
  | integer i hfits =>
    cases i with
    | ofNat n => exact natText_subset n
    | negSucc n => exact List.cons_subset.mpr ⟨hminus, natText_subset (n + 1)⟩
  | double x =>
    have hdigits (magnitude : Nat) : (if magnitude = 0 then ['0', '.', '0']
        else Number.layout (Decimal.shortest (.ofBits magnitude))) ⊆ numberAlphabet := by
      split
      · decide
      · exact layout_subset _
    simp only [Number.text, Number.doubleText]
    split
    · exact hdigits _
    · exact List.cons_subset.mpr ⟨hminus, hdigits _⟩

/-- What is no text is not written as the name of a library. -/
theorem render_ne_name {j : Json} (hj : ∀ s, j ≠ .string s) (l : SerializationLibrary) :
    j.render .compact ≠ l.name := by
  cases l
  intro hname
  have hwrite : write .compact 0 j = "native_serialization".toList := by
    rw [← String.toList_ofList (l := write .compact 0 j)]
    exact congrArg String.toList hname
  cases j with
  | null => cases hwrite
  | bool b => cases b <;> cases hwrite
  | number n =>
    have hn : n.text = "native_serialization".toList := hwrite
    -- The name has a letter in it that no number has.
    have hletter : 'n' ∈ numberAlphabet := text_subset n (by rw [hn]; decide)
    exact absurd hletter (by decide)
  | string s => exact hj s rfl
  | array js => cases js <;> cases hwrite
  | object ms => cases ms <;> cases hwrite

end Json

namespace SerializationLibrary

theorem ofName?_eq_some {name : String} {l : SerializationLibrary} :
    ofName? name = some l ↔ l.name = name := by
  cases l
  by_cases h : SerializationLibrary.name .native = name <;> simp [ofName?, all, h]

/-- The flag of a library is published once. -/
theorem publish_publish (l : SerializationLibrary) (ps : AdditionalProperties) :
    l.publish (l.publish ps).value = l.publish ps := by
  simp only [publish, Logged.value_bind, Logged.value_pure, NameMap.insert_insert]

end SerializationLibrary

namespace AdditionalProperties

variable {ps : AdditionalProperties} {v : Value}

theorem configured_of_none (h : ps.get? libraryKey = none) : ps.configured = none := by
  rw [configured, h]

theorem configured_of_null (h : ps.get? libraryKey = some .null) : ps.configured = none := by
  rw [configured, h]
  rfl

theorem configured_of_string {s : String} (h : ps.get? libraryKey = some (.string s)) :
    ps.configured = some s := by
  rw [configured, h]
  rfl

theorem configured_of_other (h : ps.get? libraryKey = some v) (hnull : v ≠ .null)
    (hstring : ∀ s, v ≠ .string s) : ps.configured = some (v.json.render .compact) := by
  rw [configured, h]
  cases hv : v.json with
  | null => exact absurd (Value.ext hv) hnull
  | string s => exact absurd (Value.ext hv) (hstring s)
  | bool | number | array | object => simp [hv]

/-- The flag of a library does not ask for one. -/
theorem configured_publish (l : SerializationLibrary) :
    (l.publish ps).value.configured = ps.configured := by
  have hkey : libraryKey ≠ l.name := by cases l; decide
  have hget : (ps.insert l.name (.string "true")).get? libraryKey = ps.get? libraryKey :=
    ps.get?_insert_of_ne hkey
  simp only [SerializationLibrary.publish, Logged.value_bind, Logged.value_pure, configured, hget]

end AdditionalProperties

namespace Settings

open AdditionalProperties (libraryKey)

variable {ps : AdditionalProperties} {settings : Logged Event Settings}

/-- Settings are refused just if the properties ask for a library that there is not. -/
theorem ofProperties_eq_error {e : Failure} :
    ofProperties ps = .error e ↔ ∃ name, ps.configured = some name ∧
      (∀ l : SerializationLibrary, l.name ≠ name) ∧ e = .unknownLibrary name := by
  rw [ofProperties]
  cases hname : ps.configured with
  | none => simp [SerializationLibrary.resolve, bind, Except.bind, pure, Except.pure]
  | some name =>
    cases hlibrary : SerializationLibrary.ofName? name with
    | none =>
      have hunknown (l : SerializationLibrary) : l.name ≠ name := fun h => by
        rw [SerializationLibrary.ofName?_eq_some.mpr h] at hlibrary
        cases hlibrary
      simp [SerializationLibrary.resolve, hlibrary, bind, Except.bind, hunknown, @eq_comm _ e]
    | some l =>
      have hknown := SerializationLibrary.ofName?_eq_some.mp hlibrary
      simp only [SerializationLibrary.resolve, hlibrary, bind, Except.bind, pure, Except.pure,
        reduceCtorEq, Option.some.injEq, exists_eq_left', false_iff, not_and]
      exact fun h => absurd hknown (h l)

/-- The settings of properties leave the options of a run as they are by default. -/
theorem of_ofProperties (h : ofProperties ps = .ok settings) :
    settings.value.options = {} ∧
      settings.value.additionalProperties =
        ps.insert SerializationLibrary.default.name (.string "true") ∧
      ∀ e ∈ settings.log, e.level ≠ .warn := by
  have hresolve : ∀ resolved, SerializationLibrary.resolve ps.configured = .ok resolved →
      resolved.value = .default ∧ ∀ e ∈ resolved.log, e.level ≠ .warn := by
    intro resolved hresolved
    cases hname : ps.configured with
    | none =>
      rw [hname] at hresolved
      cases hresolved
      exact ⟨rfl, by decide⟩
    | some name =>
      rw [hname, SerializationLibrary.resolve] at hresolved
      cases hlibrary : SerializationLibrary.ofName? name with
      | none => simp [hlibrary] at hresolved
      | some l =>
        simp only [hlibrary, Except.ok.injEq] at hresolved
        subst hresolved
        cases l
        exact ⟨rfl, List.forall_mem_nil _⟩
  obtain ⟨resolved, hresolved, hsettings⟩ := bind_eq_ok.mp h
  obtain ⟨hvalue, hlog⟩ := hresolve resolved hresolved
  cases hsettings
  simp only [SerializationLibrary.publish, Logged.value_bind, Logged.value_pure, Logged.log_bind,
    Logged.log_pure, hvalue, List.append_nil]
  refine ⟨trivial, trivial, fun e he => ?_⟩
  rcases List.mem_append.mp he with he | he
  · exact hlog e he
  · rw [List.mem_singleton.mp he]
    decide

theorem exists_ofProperties
    (h : ∀ name ∈ ps.configured, ∃ l : SerializationLibrary, l.name = name) :
    ∃ settings, ofProperties ps = .ok settings := by
  cases hresult : ofProperties ps with
  | ok settings => exact ⟨settings, rfl⟩
  | error e =>
    obtain ⟨name, hname, hunknown, -⟩ := ofProperties_eq_error.mp hresult
    obtain ⟨l, hl⟩ := h name hname
    exact absurd hl (hunknown l)

/-- The flag of the library is put among the properties, and all else is left as it is. -/
theorem get?_additionalProperties (h : ofProperties ps = .ok settings) (key : String) :
    settings.value.additionalProperties.get? key =
      if key = "native_serialization" then some (.string "true") else ps.get? key := by
  have hname : SerializationLibrary.default.name = "native_serialization" := rfl
  rw [(of_ofProperties h).2.1, hname]
  by_cases hkey : key = "native_serialization"
  · rw [if_pos hkey, hkey, NameMap.get?_insert_self]
  · rw [if_neg hkey, NameMap.get?_insert_of_ne _ hkey]

/-- Settings are settled: their properties give the same settings again. -/
theorem ofProperties_additionalProperties (h : ofProperties ps = .ok settings) :
    ofProperties settings.value.additionalProperties = .ok settings := by
  obtain ⟨resolved, hresolved, hsettings⟩ := bind_eq_ok.mp h
  cases hsettings
  refine bind_eq_ok.mpr ⟨resolved, ?_, ?_⟩
  · exact (congrArg SerializationLibrary.resolve
      (AdditionalProperties.configured_publish resolved.value)).trans hresolved
  · have hpublish := resolved.value.publish_publish ps
    simp only [Logged.value_bind, Logged.value_pure, hpublish]
    rfl

theorem name_eq (l : SerializationLibrary) : l.name = "native_serialization" := by
  cases l
  rfl

/-- A text that names no library is refused, and named in the error. -/
theorem ofProperties_of_unknown {s : String} (h : ps.get? libraryKey = some (.string s))
    (hs : s ≠ "native_serialization") : ofProperties ps = .error (.unknownLibrary s) := by
  refine ofProperties_eq_error.mpr ⟨s, AdditionalProperties.configured_of_string h, ?_, rfl⟩
  intro l hl
  exact hs (hl.symm.trans (name_eq l))

/-- What is neither null nor a text is refused always, and named by its text. -/
theorem ofProperties_of_other {v : Value} (h : ps.get? libraryKey = some v) (hnull : v ≠ .null)
    (hstring : ∀ s, v ≠ .string s) :
    ofProperties ps = .error (.unknownLibrary (v.json.render .compact)) := by
  have hconfigured := AdditionalProperties.configured_of_other h hnull hstring
  refine ofProperties_eq_error.mpr ⟨_, hconfigured, fun l hl => ?_, rfl⟩
  exact render_ne_name (fun s hs => hstring s (Value.ext hs)) l hl.symm

/-- Settings are resolved just from properties that name no library, or null, or the one there is;
the error names what else is asked for. The options are as they are by default and the properties
have the flag of the library; to resolve them again changes nothing. -/
theorem ofProperties_resolves (ps : AdditionalProperties) :
    ((∃ settings, ofProperties ps = .ok settings) ↔
      ∀ v, ps.get? "serializationLibrary" = some v →
        v = .null ∨ v = .string "native_serialization") ∧
    (∀ s, ps.get? "serializationLibrary" = some (.string s) → s ≠ "native_serialization" →
      ofProperties ps = .error (.unknownLibrary s)) ∧
    (∀ v, ps.get? "serializationLibrary" = some v → v ≠ .null → (∀ s, v ≠ .string s) →
      ofProperties ps = .error (.unknownLibrary (v.json.render .compact))) ∧
    ∀ settings, ofProperties ps = .ok settings →
      settings.value.options = { serializationLibrary := .native } ∧
      (∀ key, settings.value.additionalProperties.get? key =
        if key = "native_serialization" then some (.string "true") else ps.get? key) ∧
      ofProperties settings.value.additionalProperties = .ok settings := by
  refine ⟨⟨?_, ?_⟩, fun s => ofProperties_of_unknown, fun v => ofProperties_of_other, ?_⟩
  · rintro ⟨settings, hsettings⟩ v hv
    by_contra hasks
    obtain ⟨hnull, hnative⟩ := not_or.mp hasks
    by_cases hstring : ∃ s, v = .string s
    · obtain ⟨s, rfl⟩ := hstring
      have hs : s ≠ "native_serialization" := fun hs => hnative (congrArg Value.string hs)
      exact absurd (hsettings.symm.trans (ofProperties_of_unknown hv hs)) (by simp)
    · have herror := ofProperties_of_other hv hnull (not_exists.mp hstring)
      exact absurd (hsettings.symm.trans herror) (by simp)
  · intro hasks
    apply exists_ofProperties
    intro name hname
    cases hv : ps.get? AdditionalProperties.libraryKey with
    | none =>
      rw [AdditionalProperties.configured_of_none hv] at hname
      cases hname
    | some v =>
      rcases hasks v hv with rfl | rfl
      · rw [AdditionalProperties.configured_of_null hv] at hname
        cases hname
      · rw [AdditionalProperties.configured_of_string hv] at hname
        exact ⟨.native, Option.some.inj hname⟩
  · intro settings hsettings
    exact ⟨(of_ofProperties hsettings).1, get?_additionalProperties hsettings,
      ofProperties_additionalProperties hsettings⟩

/-- Properties that ask for a library and come with a flag of their own. -/
def petProperties (library : Value) : AdditionalProperties :=
  (AdditionalProperties.empty.insert "native_serialization" (toValue (.bool false))).insert
    "serializationLibrary" library

/-- Null asks for no library, and a list for one that there is not. -/
theorem ofProperties_resolves_petProperties :
    (∃ settings, ofProperties (petProperties .null) = .ok settings ∧
      settings.value.additionalProperties.get? "native_serialization" =
        some (.string "true") ∧
      ofProperties settings.value.additionalProperties = .ok settings) ∧
    ofProperties (petProperties (toValue (.array [.null]))) =
      .error (.unknownLibrary "[null]") := by
  obtain ⟨hresolved, -, -, hsettings⟩ := ofProperties_resolves (petProperties .null)
  obtain ⟨-, -, hother, -⟩ := ofProperties_resolves (petProperties (toValue (.array [.null])))
  obtain ⟨settings, hok⟩ := hresolved.mpr fun v hv => .inl (Option.some.inj hv).symm
  obtain ⟨-, hget, hagain⟩ := hsettings settings hok
  refine ⟨⟨settings, hok, hget "native_serialization", hagain⟩, ?_⟩
  refine hother _ rfl (fun h => ?_) fun s h => ?_
  · exact Json.noConfusion (congrArg Value.json h)
  · exact Json.noConfusion (congrArg Value.json h)

end Settings

end ModelRegistry
