import Mathlib.Data.List.Pairwise
import ModelRegistry.Json.Record
import ModelRegistry.Proofs.Decoders

/-!
# Records in any order

Of an object a record takes the members that are fields, and these give changes of the record that
are made one after the other. Where the changes of different fields commute, the order of the
members does not count; with fields that are coherent the record is coherent then.
-/

namespace ModelRegistry.Json

variable {σ : Type}

/-- A field makes the changes that it decodes, be it from a document or from a tree. -/
inductive Field.Makes (field : Field σ) (set : σ → σ) : Prop
  | ofDocument {depth : Nat} {doc : Document} (h : field.decoder.ofDocument depth doc = .ok set)
  | ofJson {j : Json} (h : field.decoder.ofJson j = .ok set)

theorem Field.exists_of_makes {α : Type} {d : Decoder α} {f : α → σ → σ} {name : String}
    {required : Bool} {set : σ → σ} (h : Field.Makes ⟨name, required, d.map f⟩ set) :
    ∃ a, set = f a := by
  rcases h with h | h
  all_goals
    obtain ⟨a, -, rfl⟩ := map_eq_ok.mp h
    exact ⟨a, rfl⟩

/-- The changes that two fields make do not touch each other. -/
def Field.Commute (field other : Field σ) : Prop :=
  ∀ ⦃set set' : σ → σ⦄, field.Makes set → other.Makes set' →
    ∀ record, set (set' record) = set' (set record)

instance : Std.Symm (@Field.Commute σ) where
  symm _ _ h _ _ hset hset' record := (h hset' hset record).symm

theorem Field.commute_of_setters {α β : Type} {d : Decoder α} {e : Decoder β} {f : α → σ → σ}
    {g : β → σ → σ} (h : ∀ a b record, f a (g b record) = g b (f a record))
    (name other : String) (required required' : Bool) :
    Field.Commute ⟨name, required, d.map f⟩ ⟨other, required', e.map g⟩ := by
  intro set set' hset hset' record
  obtain ⟨a, rfl⟩ := Field.exists_of_makes hset
  obtain ⟨b, rfl⟩ := Field.exists_of_makes hset'
  exact h a b record

namespace RecordFormat

variable {f : RecordFormat σ} {depth : Nat}

/-- Whether a member is a field. -/
def knows (f : RecordFormat σ) (name : String) : Bool :=
  (f.field? name).isSome

/-- A member and the change that its field makes of it. -/
def Assigns (f : RecordFormat σ) (m : String × Json) (e : String × (σ → σ)) : Prop :=
  m.1 = e.1 ∧ ∃ field, f.field? m.1 = some field ∧ field.decoder.ofJson m.2 = .ok e.2

/-- Makes changes one after the other. -/
def change (es : List (String × (σ → σ))) (record : σ) : σ :=
  es.foldl (fun record e => e.2 record) record

theorem field?_mem {name : String} {field : Field σ} (h : f.field? name = some field) :
    field ∈ f.fields :=
  List.mem_of_find?_eq_some h

theorem field?_name {name : String} {field : Field σ} (h : f.field? name = some field) :
    field.name = name := by
  simpa using List.find?_some h

theorem field?_of_mem (hnames : (f.fields.map (·.name)).Nodup) {field : Field σ}
    (hfield : field ∈ f.fields) : f.field? field.name = some field := by
  cases hfind : f.field? field.name with
  | none =>
    exact absurd (decide_eq_true rfl) (List.find?_eq_none.mp hfind field hfield)
  | some other =>
    have hname := field?_name hfind
    rw [List.inj_on_of_nodup_map hnames (field?_mem hfind) hfield hname]

theorem take_eq_ok {draft draft' : Draft σ} {name : String} {r : Except DecodeError (σ → σ)} :
    draft.take name r = .ok draft' ↔
      name ∉ draft.seen ∧ ∃ set, r = .ok set ∧ draft' = ⟨name :: draft.seen, set draft.record⟩ := by
  unfold Draft.take
  split
  · next hseen => simp [hseen, bind, Except.bind]
  · next hseen =>
    simp only [hseen, not_false_eq_true, true_and, bind_eq_ok]
    exact exists_congr fun set =>
      and_congr_right' ⟨fun h => (Except.ok.inj h).symm, fun h => h ▸ rfl⟩

theorem complete_eq_ok {draft : Draft σ} {record : σ} :
    f.complete draft = .ok record ↔
      (∀ field ∈ f.fields, field.required → field.name ∈ draft.seen) ∧
        record = draft.record := by
  unfold complete
  split
  · next field hfind =>
    simp only [reduceCtorEq, false_iff, not_and]
    have hmissing := List.find?_some hfind
    have hmem := List.mem_of_find?_eq_some hfind
    simp only [Bool.and_eq_true, decide_eq_true_eq] at hmissing
    exact fun hall => absurd (hall field hmem hmissing.1) hmissing.2
  · next hfind =>
    have hall : ∀ field ∈ f.fields, field.required → field.name ∈ draft.seen := by
      simpa using hfind
    rw [and_iff_right hall, Except.ok.injEq, eq_comm]

/-- What one member of a document does to the draft of a record. -/
inductive Step (f : RecordFormat σ) (depth : Nat) : Key × Document → Draft σ → Draft σ → Prop
  | field {name : String} {doc : Document} {field : Field σ} {set : σ → σ} {draft : Draft σ}
      (hfield : f.field? name = some field) (hnew : name ∉ draft.seen)
      (hset : field.decoder.ofDocument depth doc = .ok set) :
      Step f depth (.ok name, doc) draft ⟨name :: draft.seen, set draft.record⟩
  | unknown {name : String} {doc : Document} {draft : Draft σ} (hfield : f.field? name = none)
      (hskip : doc.skip = .ok ()) : Step f depth (.ok name, doc) draft draft

theorem documentMembers_cons_eq_ok {m : Key × Document} {members : List (Key × Document)}
    {draft draft' : Draft σ} :
    f.documentMembers depth (m :: members) draft = .ok draft' ↔
      ∃ draft₁, Step f depth m draft draft₁ ∧
        f.documentMembers depth members draft₁ = .ok draft' := by
  obtain ⟨key, doc⟩ := m
  rw [documentMembers]
  constructor
  · intro hmembers
    obtain ⟨name, hname, h⟩ := bind_eq_ok.mp hmembers
    obtain rfl := refuse_eq_ok.mp hname
    clear hmembers
    cases hfield : f.field? name with
    | some field =>
      simp only [hfield, bind_eq_ok, take_eq_ok] at h
      obtain ⟨_, ⟨hnew, set, hset, rfl⟩, hrest⟩ := h
      exact ⟨_, .field hfield hnew hset, hrest⟩
    | none =>
      simp only [hfield, bind_eq_ok, refuse_eq_ok] at h
      obtain ⟨_, hskip, hrest⟩ := h
      exact ⟨_, .unknown hfield hskip, hrest⟩
  · rintro ⟨_, hstep, hrest⟩
    cases hstep with
    | field hfield hnew hset =>
      refine bind_eq_ok.mpr ⟨_, refuse_ok _, ?_⟩
      simp only [hfield]
      exact bind_eq_ok.mpr ⟨_, take_eq_ok.mpr ⟨hnew, _, hset, rfl⟩, hrest⟩
    | unknown hfield hskip =>
      refine bind_eq_ok.mpr ⟨_, refuse_ok _, ?_⟩
      simp only [hfield]
      exact bind_eq_ok.mpr ⟨_, refuse_eq_ok.mpr hskip, hrest⟩

theorem ofDocument_object_eq_ok {members : List (Key × Document)} {stop : Stop} {record : σ} :
    f.decoder.ofDocument depth (.object members stop) = .ok record ↔
      ∃ k draft, depth = k + 1 ∧ stop = .closed ∧
        f.documentMembers k members f.start = .ok draft ∧ f.complete draft = .ok record := by
  simp only [decoder, ofDocument, bind_eq_ok, refuse_eq_ok, descend_eq_ok, strict_eq_ok]
  constructor
  · rintro ⟨k, hk, draft, hdraft, -, hstop, hrecord⟩
    exact ⟨k, draft, hk, hstop, hdraft, hrecord⟩
  · rintro ⟨k, draft, hk, hstop, hdraft, hrecord⟩
    exact ⟨k, hk, draft, hdraft, (), hstop, hrecord⟩

/-- A field that is new is taken, and the other members after it. -/
theorem jsonMembers_cons {name : String} {j : Json} {ms : List (String × Json)}
    {seen : List String} {record : σ} {field : Field σ} {set : σ → σ}
    (hfield : f.field? name = some field) (hnew : name ∉ seen)
    (hset : field.decoder.ofJson j = .ok set) :
    f.jsonMembers ((name, j) :: ms) ⟨seen, record⟩ =
      f.jsonMembers ms ⟨name :: seen, set record⟩ := by
  have htake : Draft.take ⟨seen, record⟩ name (field.decoder.ofJson j) =
      .ok ⟨name :: seen, set record⟩ :=
    take_eq_ok.mpr ⟨hnew, set, hset, rfl⟩
  rw [jsonMembers, hfield]
  simp only [htake]
  rfl

theorem jsonMembers_eq_ok {ms : List (String × Json)} {draft draft' : Draft σ}
    (hseen : draft.seen.Nodup) :
    f.jsonMembers ms draft = .ok draft' ↔
      ∃ es, List.Forall₂ f.Assigns (ms.filter (f.knows ·.1)) es ∧
        ((es.map Prod.fst).reverse ++ draft.seen).Nodup ∧
        draft' = ⟨(es.map Prod.fst).reverse ++ draft.seen, change es draft.record⟩ := by
  induction ms generalizing draft with
  | nil => simp [jsonMembers, change, hseen, eq_comm]
  | cons m ms ih =>
    obtain ⟨name, j⟩ := m
    rw [jsonMembers]
    cases hfield : f.field? name with
    | none =>
      rw [List.filter_cons_of_neg (by simp [knows, hfield])]
      exact ih hseen
    | some field =>
      rw [List.filter_cons_of_pos (by simp [knows, hfield])]
      simp only [bind_eq_ok, take_eq_ok, List.forall₂_cons_left_iff]
      constructor
      · rintro ⟨_, ⟨hnew, set, hset, rfl⟩, hrest⟩
        obtain ⟨es, hes, hnodup, rfl⟩ := (ih (hseen.cons hnew)).mp hrest
        refine ⟨(name, set) :: es, ⟨_, es, ⟨rfl, field, hfield, hset⟩, hes, rfl⟩, ?_, ?_⟩
        · simpa using hnodup
        · simp [change]
      · rintro ⟨_, ⟨e, es, ⟨rfl, field', hfield', hset⟩, hes, rfl⟩, hnodup, rfl⟩
        cases hfield.symm.trans hfield'
        have hseen' : ((es.map Prod.fst).reverse ++ e.1 :: draft.seen).Nodup := by
          simpa using hnodup
        have hcons := hseen'.of_append_right
        refine ⟨_, ⟨(List.nodup_cons.mp hcons).1, e.2, hset, rfl⟩, (ih hcons).mpr ?_⟩
        exact ⟨es, hes, hseen', by simp [change]⟩

/-- What an object is decoded to: no field comes twice, all that are needed come, and each changes
the record whose fields are all left out. -/
theorem ofJson_object_eq_ok {ms : List (String × Json)} {record : σ} :
    f.decoder.ofJson (.object ms) = .ok record ↔
      ∃ es, List.Forall₂ f.Assigns (ms.filter (f.knows ·.1)) es ∧ (es.map Prod.fst).Nodup ∧
        (∀ field ∈ f.fields, field.required → field.name ∈ es.map Prod.fst) ∧
        record = change es f.initial := by
  simp only [decoder, ofJson, bind_eq_ok, complete_eq_ok,
    jsonMembers_eq_ok (show f.start.seen.Nodup from .nil)]
  constructor
  · rintro ⟨_, ⟨es, hes, hnodup, rfl⟩, hneeded, rfl⟩
    exact ⟨es, hes, by simpa [start] using hnodup, by simpa [start] using hneeded, rfl⟩
  · rintro ⟨es, hes, hnodup, hneeded, rfl⟩
    exact ⟨_, ⟨es, hes, by simpa [start] using hnodup, rfl⟩, by simpa [start] using hneeded, rfl⟩

theorem names_of_assigns {ms : List (String × Json)} {es : List (String × (σ → σ))}
    (h : List.Forall₂ f.Assigns ms es) : es.map Prod.fst = ms.map Prod.fst := by
  induction h with
  | nil => rfl
  | cons hme _ ih => rw [List.map_cons, List.map_cons, ih, hme.1]

section Independent

variable (h : f.fields.Pairwise Field.Commute)

include h

theorem commute_of_name_ne {field other : Field σ} (hfield : field ∈ f.fields)
    (hother : other ∈ f.fields) (hne : field.name ≠ other.name) : field.Commute other :=
  h.forall hfield hother fun heq => hne (congrArg Field.name heq)

/-- Changes of distinct fields may be made in any order. -/
theorem change_perm {ms : List (String × Json)} {es es' : List (String × (σ → σ))}
    (hes : List.Forall₂ f.Assigns ms es) (hnodup : (es.map Prod.fst).Nodup) (hperm : es.Perm es')
    (record : σ) : change es record = change es' record := by
  refine hperm.foldl_eq' (fun d hd e he r => ?_) record
  by_cases hname : d.1 = e.1
  · rw [List.inj_on_of_nodup_map hnodup hd he hname]
  · obtain ⟨m, -, hm, field, hfield, hset⟩ := exists_mem_of_forall₂ hes hd
    obtain ⟨m', -, hm', field', hfield', hset'⟩ := exists_mem_of_forall₂ hes he
    have hne : field'.name ≠ field.name := by
      rw [field?_name hfield, field?_name hfield', hm, hm']
      exact Ne.symm hname
    exact commute_of_name_ne h (field?_mem hfield') (field?_mem hfield) hne (.ofJson hset') (.ofJson hset) r

/-- The order of the members does not count, nor do members that are no fields. -/
theorem ofJson_object_of_perm {ms ns : List (String × Json)} {record : σ}
    (hperm : (ms.filter (f.knows ·.1)).Perm (ns.filter (f.knows ·.1)))
    (hms : f.decoder.ofJson (.object ms) = .ok record) :
    f.decoder.ofJson (.object ns) = .ok record := by
  rw [ofJson_object_eq_ok] at hms ⊢
  obtain ⟨es, hes, hnodup, hneeded, rfl⟩ := hms
  obtain ⟨es', hes', hperm'⟩ := List.perm_comp_forall₂ hperm.symm hes
  have hnames := hperm'.map Prod.fst
  refine ⟨es', hes', hnames.nodup_iff.mpr hnodup, fun field hfield hrequired => ?_, ?_⟩
  · exact hnames.mem_iff.mpr (hneeded field hfield hrequired)
  · exact change_perm h hes hnodup hperm'.symm _

end Independent

/-- The fields are coherent and their changes do not touch each other. -/
structure Coherent (f : RecordFormat σ) : Prop where
  fields : ∀ field ∈ f.fields, field.decoder.Coherent
  commute : f.fields.Pairwise Field.Commute

/-- Whatever a field takes from the one tree, it takes from the other. -/
def Carries (f : RecordFormat σ) (i j : Json) : Prop :=
  ∀ field ∈ f.fields, ∀ set, field.decoder.ofJson i = .ok set → field.decoder.ofJson j = .ok set

theorem jsonMembers_of_carries {ms ns : List (String × Json)} {draft draft' : Draft σ}
    (h : List.Forall₂ (Entries.Match f.Carries) ms ns)
    (hms : f.jsonMembers ms draft = .ok draft') : f.jsonMembers ns draft = .ok draft' := by
  induction h generalizing draft with
  | nil => exact hms
  | @cons m n ms ns hmn _ ih =>
    obtain ⟨name, i⟩ := m
    obtain ⟨_, j⟩ := n
    obtain ⟨rfl, hij⟩ := hmn
    rw [jsonMembers] at hms ⊢
    cases hfield : f.field? name with
    | none => exact ih (by simpa only [hfield] using hms)
    | some field =>
      simp only [hfield, bind_eq_ok, take_eq_ok] at hms ⊢
      obtain ⟨_, ⟨hnew, set, hset, rfl⟩, hrest⟩ := hms
      exact ⟨_, ⟨hnew, set, hij field (field?_mem hfield) set hset, rfl⟩, ih hrest⟩

theorem ofJson_object_of_carries {ms ns : List (String × Json)} {record : σ}
    (h : List.Forall₂ (Entries.Match f.Carries) ms ns)
    (hms : f.decoder.ofJson (.object ms) = .ok record) :
    f.decoder.ofJson (.object ns) = .ok record := by
  obtain ⟨draft, hdraft, hcomplete⟩ := bind_eq_ok.mp hms
  exact bind_eq_ok.mpr ⟨draft, jsonMembers_of_carries h hdraft, hcomplete⟩

theorem jsonItems_of_carries {expectation surplus : String} {total total' i : Nat}
    {fields : List (Field σ)} {js ks : List Json} {record record' : σ}
    (h : List.Forall₂ f.Carries js ks) (hfields : ∀ field ∈ fields, field ∈ f.fields)
    (hjs : jsonItems expectation surplus total i fields js record = .ok record') :
    jsonItems expectation surplus total' i fields ks record = .ok record' := by
  induction fields generalizing i js ks record with
  | nil =>
    cases h with
    | nil => exact hjs
    | cons => cases hjs
  | cons field fields ih =>
    obtain ⟨hfield, hrest⟩ := List.forall_mem_cons.mp hfields
    cases h with
    | nil =>
      simp only [jsonItems] at hjs ⊢
      split at hjs
      · cases hjs
      · next hoptional => rw [if_neg hoptional]; exact ih .nil hrest hjs
    | cons hjk hjks =>
      simp only [jsonItems, bind_eq_ok] at hjs ⊢
      obtain ⟨set, hset, hjs⟩ := hjs
      exact ⟨set, hjk field hfield set hset, ih hjks hrest hjs⟩

section Documents

variable (hfields : ∀ field ∈ f.fields, field.decoder.FollowsTree)

include hfields

theorem documentMembers_eq_ok_iff {members : List (Key × Document)} {ms : List (String × Json)}
    {draft draft' : Draft σ} (h : List.Forall₂ (Document.ReadsMember depth) members ms) :
    f.documentMembers depth members draft = .ok draft' ↔ f.jsonMembers ms draft = .ok draft' := by
  induction h generalizing draft with
  | nil => exact .rfl
  | @cons m n members ms hmn _ ih =>
    obtain ⟨_, doc⟩ := m
    obtain ⟨name, j⟩ := n
    obtain ⟨rfl, hread⟩ := hmn
    rw [documentMembers, jsonMembers]
    cases hfield : f.field? name with
    | none => simpa [bind_eq_ok, hfield, Document.skip_of_read hread] using ih
    | some field =>
      have hset := hfields field (field?_mem hfield) hread
      simp only [bind_eq_ok, refuse_eq_ok, Except.ok.injEq, exists_eq_left', hfield,
        take_eq_ok, hset, ih]

theorem documentItems_eq_ok_iff {expectation surplus : String} {total i : Nat}
    {fields : List (Field σ)} {docs : List Document} {js : List Json} {record record' : σ}
    (h : List.Forall₂ (fun doc j => doc.read depth = .ok j) docs js)
    (hsub : ∀ field ∈ fields, field ∈ f.fields) :
    documentItems expectation depth .closed i fields docs record = .ok record' ↔
      jsonItems expectation surplus total i fields js record = .ok record' := by
  induction fields generalizing i docs js record with
  | nil =>
    cases h with
    | nil => exact .rfl
    | cons => simp [documentItems, jsonItems, closeArray]
  | cons field fields ih =>
    obtain ⟨hfield, hrest⟩ := List.forall_mem_cons.mp hsub
    cases h with
    | nil =>
      simp only [documentItems, jsonItems, bind_eq_ok, refuse_eq_ok, strict_eq_ok]
      split
      · simp
      · simpa using ih .nil hrest
    | cons hread hreads =>
      simp only [documentItems, jsonItems, bind_eq_ok,
        hfields field hfield hread, ih hreads hrest]

/-- A record is taken alike from a document and from its tree, if its fields are. -/
theorem followsTree : f.decoder.FollowsTree := by
  intro depth doc j hread record
  cases Document.read_eq_ok.mp hread with
  | null | bool | number | string => simp [RecordFormat.decoder, ofDocument, ofJson]
  | list hjs => exact documentItems_eq_ok_iff hfields hjs fun _ => id
  | @object k members ms hms =>
    have hmembers (draft : Draft σ) : f.documentMembers k members f.start = .ok draft ↔
        f.jsonMembers ms f.start = .ok draft :=
      documentMembers_eq_ok_iff hfields hms
    simp [RecordFormat.decoder, ofDocument, ofJson, bind_eq_ok, hmembers, descend, Stop.strict]

end Documents

/-- A record is taken alike from a document, from a tree and from its canonical form. -/
theorem Coherent.decoder (h : f.Coherent) : f.decoder.Coherent where
  ofDocument_iff hread := followsTree (fun field hfield => (h.fields field hfield).followsTree) hread
  canonical {j record} hj := by
    cases j with
    | null | bool | number | string => exact hj
    | array js =>
      rw [canonical_array]
      refine jsonItems_of_carries (List.forall₂_map_right_iff.mpr ?_) (fun _ => id) hj
      exact List.forall₂_same.mpr fun j _ field hfield _ => (h.fields field hfield).canonical
    | object ms =>
      have hmatch : List.Forall₂ (Entries.Match f.Carries) ms
          (ms.map fun m => (m.1, m.2.canonical)) :=
        List.forall₂_map_right_iff.mpr (List.forall₂_same.mpr fun m _ =>
          ⟨rfl, fun field hfield _ => (h.fields field hfield).canonical⟩)
      -- Sorting loses repeated members, but what is accepted repeats no field.
      have hms := ofJson_object_of_carries hmatch hj
      obtain ⟨es, hes, hnodup, -⟩ := ofJson_object_eq_ok.mp hms
      rw [names_of_assigns hes] at hnodup
      rw [canonical_object]
      exact ofJson_object_of_perm h.commute (Entries.filter_sorted_perm hnodup).symm hms
  of_canonical {j record} hdistinct hj := by
    cases j with
    | null | bool | number | string => exact hj
    | array js =>
      rw [canonical_array] at hj
      refine jsonItems_of_carries (List.forall₂_map_left_iff.mpr ?_) (fun _ => id) hj
      exact List.forall₂_same.mpr fun j hmem field hfield _ =>
        (h.fields field hfield).of_canonical (hasDistinctKeys_array.mp hdistinct j hmem)
    | object ms =>
      obtain ⟨hkeys, hms⟩ := hasDistinctKeys_object.mp hdistinct
      have hmatch : List.Forall₂ (Entries.Match f.Carries)
          (ms.map fun m => (m.1, m.2.canonical)) ms :=
        List.forall₂_map_left_iff.mpr (List.forall₂_same.mpr fun m hmem =>
          ⟨rfl, fun field hfield _ => (h.fields field hfield).of_canonical (hms m hmem)⟩)
      have hnodup : (((ms.map fun m => (m.1, m.2.canonical)).filter (f.knows ·.1)).map
          Prod.fst).Nodup := by
        refine List.Nodup.sublist (List.filter_sublist.map Prod.fst) ?_
        rwa [List.map_map]
      rw [canonical_object] at hj
      exact ofJson_object_of_carries hmatch
        (ofJson_object_of_perm h.commute (Entries.filter_sorted_perm hnodup) hj)

section Ensures

variable {c : Document → Prop} {p : σ → Prop}

/-- The changes of a field, taken within the depth, keep a property of the record. -/
abbrev Keeps (c : Document → Prop) (depth : Nat) (p : σ → Prop) (field : Field σ) : Prop :=
  field.decoder.Ensures c depth fun set => ∀ record, p record → p (set record)

theorem record_of_documentMembers (hfields : ∀ field ∈ f.fields, Keeps c depth p field)
    {members : List (Key × Document)} (hc : ∀ m ∈ members, c m.2) {draft draft' : Draft σ}
    (hdraft : p draft.record) (h : f.documentMembers depth members draft = .ok draft') :
    p draft'.record := by
  induction members generalizing draft with
  | nil => cases h; exact hdraft
  | cons m members ih =>
    obtain ⟨hm, hmembers⟩ := List.forall_mem_cons.mp hc
    obtain ⟨_, hstep, hrest⟩ := documentMembers_cons_eq_ok.mp h
    cases hstep with
    | field hfield _ hset =>
      exact ih hmembers (hfields _ (field?_mem hfield) hm hset _ hdraft) hrest
    | unknown => exact ih hmembers hdraft hrest

theorem record_of_documentItems {expectation : String} {stop : Stop} {i : Nat}
    {fields : List (Field σ)} (hfields : ∀ field ∈ fields, Keeps c depth p field)
    {docs : List Document} (hc : ∀ d ∈ docs, c d) {record record' : σ} (hrecord : p record)
    (h : documentItems expectation depth stop i fields docs record = .ok record') :
    p record' := by
  induction fields generalizing i docs record with
  | nil =>
    simp only [documentItems, bind_eq_ok] at h
    obtain ⟨-, -, h⟩ := h
    cases h
    exact hrecord
  | cons field fields ih =>
    obtain ⟨hfield, hfields⟩ := List.forall_mem_cons.mp hfields
    cases docs with
    | nil =>
      simp only [documentItems, bind_eq_ok] at h
      obtain ⟨-, -, h⟩ := h
      split at h
      · cases h
      · exact ih hfields hc hrecord h
    | cons doc docs =>
      obtain ⟨hdoc, hdocs⟩ := List.forall_mem_cons.mp hc
      simp only [documentItems, bind_eq_ok] at h
      obtain ⟨set, hset, h⟩ := h
      exact ih hfields hdocs (hfield hdoc hset record hrecord) h

/-- A property that the empty record has and all fields keep is one of every record taken. -/
theorem ensures (hparts : Document.Hereditary c) (hinitial : p f.initial)
    (hfields : ∀ field ∈ f.fields, Keeps c depth p field) :
    f.decoder.Ensures c (depth + 1) p := by
  intro doc record hc h
  cases doc with
  | list items stop => exact record_of_documentItems hfields (hparts.list hc) hinitial h
  | object members stop =>
    obtain ⟨k, draft, hk, -, hdraft, hcomplete⟩ := ofDocument_object_eq_ok.mp h
    cases hk
    obtain ⟨-, rfl⟩ := complete_eq_ok.mp hcomplete
    exact record_of_documentMembers hfields (hparts.object hc) hinitial hdraft
  | null | bool | number | string | brokenLiteral | broken => cases h

end Ensures

end RecordFormat

end ModelRegistry.Json
