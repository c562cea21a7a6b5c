import ModelRegistry.Json.Choice
import ModelRegistry.Located
import ModelRegistry.Proofs.Records

/-!
# Tagged objects with members in any order

A tagged object is told by its kind, wherever that stands among the members. The other members are
those of a record, so their order does not count and members under other names are passed over. A
tree is loosened if the members of its object are rearranged with strings under new names between
them; a statement about a model is still decoded from it.
-/

namespace ModelRegistry.Json

namespace Choice

variable {α : Type} {c : Choice α} {depth : Nat}

theorem unitOfDocument_eq_ok {doc : Document} {j : Json} (h : doc.read depth = .ok j) {u : Unit} :
    unitOfDocument doc = .ok u ↔ j = .null := by
  cases Document.read_eq_ok.mp h <;> simp [unitOfDocument]

theorem ofDocument_single_eq_ok {key : Key} {doc : Document} {a : α} :
    c.ofDocument (depth + 1) (.object [(key, doc)] .closed) = .ok a ↔
      ∃ name, key = .ok name ∧ c.pick name = .ok a ∧ ∃ u, unitOfDocument doc = .ok u := by
  have hdescend : discard (refuse (descend (depth + 1))) = .ok () := rfl
  simp [ofDocument, hdescend, bind_eq_ok, refuse_eq_ok, closeObject]

theorem ofJson_single_eq_ok {isUnit : Json → Bool} {name : String} {j : Json} {a : α} :
    c.ofJson isUnit (.object [(name, j)]) = .ok a ↔ c.pick name = .ok a ∧ isUnit j = true := by
  cases hunit : isUnit j <;> simp [ofJson, hunit, bind_eq_ok]

theorem followsTree (c : Choice α) : c.decoder.FollowsTree := by
  intro depth doc j hread a
  cases Document.read_eq_ok.mp hread with
  | null | bool | number | list => exact iff_of_false nofun nofun
  | string s => rfl
  | object hms =>
    rcases hms with _ | @⟨m, n, _, _, ⟨hkey, hvalue⟩, hrest⟩
    · exact iff_of_false nofun nofun
    · rcases hrest with _ | _
      · obtain ⟨key, doc⟩ := m
        obtain ⟨name, j⟩ := n
        simp only [decoder, ofDocument_single_eq_ok, ofJson_single_eq_ok,
          unitOfDocument_eq_ok hvalue]
        cases j <;> simp_all
      · simp [decoder, ofDocument, ofJson, bind_eq_ok, closeObject]

end Choice

namespace Tagged

variable {α : Type} {t : Tagged α} {depth : Nat}

theorem kindOf_eq_ok_iff {doc : Document} {j : Json} (h : doc.read depth = .ok j)
    {kind : Kind α} : t.kindOf doc = .ok kind ↔ t.kindOfJson j = .ok kind := by
  cases Document.read_eq_ok.mp h <;> simp [kindOf, kindOfJson, bind, Except.bind]

theorem splitMembers_eq_ok_iff {members : List (Key × Document)} {ms : List (String × Json)}
    (h : List.Forall₂ (Document.ReadsMember depth) members ms) {kind : Option (Kind α)}
    {r : Option (Kind α) × List (String × Json)} :
    t.splitMembers depth members kind = .ok r ↔ t.splitJson ms kind = .ok r := by
  induction h generalizing kind r with
  | nil => exact .rfl
  | @cons m n members ms hmn _ ih =>
    obtain ⟨_, doc⟩ := m
    obtain ⟨name, j⟩ := n
    obtain ⟨rfl, hread⟩ := hmn
    simp only at hread
    rw [splitMembers, splitJson]
    by_cases hname : name = "type"
    · by_cases hkind : kind.isSome
      · simp [hname, hkind, bind, Except.bind]
      · simp [hname, hkind, bind_eq_ok, kindOf_eq_ok_iff hread, ih]
    · simp [hname, bind_eq_ok, map_eq_ok, hread, ih]

theorem followsTree (t : Tagged α) : t.decoder.FollowsTree := by
  intro depth doc j hread a
  cases Document.read_eq_ok.mp hread with
  | null | bool | number | string => simp [decoder, ofDocument, ofJson]
  | list hjs =>
    cases hjs with
    | nil => simp [decoder, ofDocument, ofJson, bind_eq_ok]
    | cons hj hjs =>
      simp [decoder, ofDocument, ofJson, bind_eq_ok, descend, Stop.strict, kindOf_eq_ok_iff hj,
        Document.readItems_eq_ok.mpr hjs]
  | object hms =>
    simp [decoder, ofDocument, ofJson, bind_eq_ok, descend, Stop.strict,
      splitMembers_eq_ok_iff hms]

theorem splitJson_of_no_tag {ms : List (String × Json)} (h : ∀ m ∈ ms, m.1 ≠ "type")
    (kind : Option (Kind α)) : t.splitJson ms kind = .ok (kind, ms) := by
  induction ms with
  | nil => rfl
  | cons m ms ih =>
    obtain ⟨hm, hms⟩ := List.forall_mem_cons.mp h
    rw [splitJson, if_neg hm, ih hms]
    rfl

/-- The kind is found wherever it stands, and the other members keep their order. -/
theorem splitJson_of_tag {ms : List (String × Json)} {name : String} {kind : Kind α}
    (htag : ms.filter (·.1 = "type") = [("type", .string name)])
    (hkind : t.pick name = .ok kind) :
    t.splitJson ms none = .ok (some kind, ms.filter (·.1 ≠ "type")) := by
  induction ms with
  | nil => cases htag
  | cons m ms ih =>
    by_cases hm : m.1 = "type"
    · rw [List.filter_cons_of_pos (by simpa using hm)] at htag
      obtain ⟨rfl, hrest⟩ := List.cons_eq_cons.mp htag
      have hothers : ∀ m ∈ ms, m.1 ≠ "type" := by simpa using hrest
      have hfilter : ms.filter (·.1 ≠ "type") = ms :=
        List.filter_eq_self.mpr fun m hmem => by simpa using hothers m hmem
      rw [splitJson, if_pos hm, kindOfJson, hkind, List.filter_cons_of_neg (by simp), hfilter]
      exact splitJson_of_no_tag hothers (some kind)
    · rw [List.filter_cons_of_neg (by simpa using hm)] at htag
      rw [splitJson, if_neg hm, ih htag, List.filter_cons_of_pos (by simpa using hm)]
      rfl

/-- All members but the tag are decoded by the kind. -/
theorem ofJson_of_tag {ms : List (String × Json)} {name : String} {kind : Kind α}
    (htag : ms.filter (·.1 = "type") = [("type", .string name)])
    (hkind : t.pick name = .ok kind) :
    t.decoder.ofJson (.object ms) = kind (.object (ms.filter (·.1 ≠ "type"))) := by
  simp only [decoder, ofJson, splitJson_of_tag htag hkind]
  rfl

end Tagged

/-- The members of an object rearranged, with strings under new names between them. -/
inductive Loosened : Json → Json → Prop
  | object {ms extra ns : List (String × Json)} (hperm : ns.Perm (ms ++ extra))
      (hnew : ∀ m ∈ extra, m.1 ∉ ms.map Prod.fst) (hstrings : ∀ m ∈ extra, ∃ s, m.2 = .string s) :
      Loosened (.object ms) (.object ns)

theorem Loosened.refl (ms : List (String × Json)) : Loosened (.object ms) (.object ms) :=
  @Loosened.object ms [] ms (by rw [List.append_nil]) (List.forall_mem_nil _)
    (List.forall_mem_nil _)

/-- A choice of members by name that takes none of the new ones only rearranges what it took. -/
theorem filter_perm_of_new {ms extra ns : List (String × Json)} (hperm : ns.Perm (ms ++ extra))
    {p : String → Bool} (hnew : ∀ m ∈ extra, p m.1 = false) :
    (ns.filter (p ·.1)).Perm (ms.filter (p ·.1)) := by
  have hextra : extra.filter (p ·.1) = [] :=
    List.filter_eq_nil_iff.mpr fun m hm => by simp [hnew m hm]
  have hfilter := hperm.filter (p ·.1)
  rwa [List.filter_append, hextra, List.append_nil] at hfilter

end ModelRegistry.Json

namespace ModelRegistry.Located

open Json

variable {κ δ : Type} {title key : String} {d : Decoder δ} {initial : δ}

theorem fields_format : (format title key d initial).fields =
    [.needed "unit" .string fun unit l => { l with unit },
      .needed "model" .string fun model l => { l with model },
      .needed key d fun what l => { l with what }] := rfl

theorem independent_format : (format title key d initial).fields.Pairwise Field.Commute := by
  simp [fields_format, Field.needed, Field.commute_of_setters]

theorem knows_format (name : String) :
    (format title key d initial).knows name = true ↔ name ∈ ["unit", "model", key] := by
  simp [RecordFormat.knows, RecordFormat.field?, fields_format, Field.needed, @eq_comm _ name]

/-- The members beside the tag, in the order in which they are written. -/
theorem ofJson_format (hunit : key ≠ "unit") (hmodel : key ≠ "model") {detail : Json} {a : δ}
    (hdetail : d.ofJson detail = .ok a) (unit model : String) :
    (format title key d initial).decoder.ofJson
      (.object [("unit", .string unit), ("model", .string model), (key, detail)]) =
        .ok ⟨unit, model, a⟩ := by
  have hstring (s : String) : Decoder.string.ofJson (.string s) = .ok s := rfl
  have hfield : (format title key d initial).field? key =
      some (.needed key d fun what l => { l with what }) := by
    simp [RecordFormat.field?, fields_format, Field.needed, hunit.symm, hmodel.symm]
  have hmembers : (format title key d initial).jsonMembers
      [("unit", .string unit), ("model", .string model), (key, detail)]
      (format title key d initial).start =
        .ok ⟨[key, "model", "unit"], ⟨unit, model, a⟩⟩ := by
    refine (RecordFormat.jsonMembers_cons rfl List.not_mem_nil
      (map_eq_ok.mpr ⟨_, hstring unit, rfl⟩)).trans ?_
    refine (RecordFormat.jsonMembers_cons rfl (by simp)
      (map_eq_ok.mpr ⟨_, hstring model, rfl⟩)).trans ?_
    exact RecordFormat.jsonMembers_cons hfield (by simp [hunit, hmodel])
      (map_eq_ok.mpr ⟨_, hdetail, rfl⟩)
  refine bind_eq_ok.mpr ⟨_, hmembers, ?_⟩
  exact RecordFormat.complete_eq_ok.mpr ⟨by simp [fields_format, Field.needed], rfl⟩

/-- A statement is decoded from every tree that is loosened from the one it is written as. -/
theorem ofJson_of_loosened {t : Tagged (Located κ)} {kind : String} {f : δ → κ} {l : Located κ}
    {detail j : Json} {a : δ} (h : Loosened (l.toJson kind key detail) j)
    (hkind : t.pick kind = .ok (Located.kind title key d initial f))
    (hkey : key ∉ ["type", "unit", "model"]) (hdetail : d.ofJson detail = .ok a)
    (hwhat : f a = l.what) : t.decoder.ofJson j = .ok l := by
  simp only [List.mem_cons, List.not_mem_nil, or_false, not_or] at hkey
  obtain ⟨htype, hunit, hmodel⟩ := hkey
  rcases h with @⟨_, extra, ns, hperm, hnew, -⟩
  have htag : ns.filter (·.1 = "type") = [("type", .string kind)] := by
    have hfilter := filter_perm_of_new hperm (p := (· = "type")) fun m hm => by
      simpa using fun heq : m.1 = "type" => hnew m hm (by simp [heq])
    refine List.perm_singleton.mp (hfilter.trans ?_)
    simp [htype]
  have hfields : ([("unit", .string l.unit), ("model", .string l.model), (key, detail)].filter
      ((format title key d initial).knows ·.1)).Perm
        ((ns.filter (·.1 ≠ "type")).filter ((format title key d initial).knows ·.1)) := by
    have hothers := hperm.filter (·.1 ≠ "type")
    simp only [List.filter_append] at hothers
    have hunknown : ∀ m ∈ extra.filter (·.1 ≠ "type"),
        (format title key d initial).knows m.1 = false := by
      intro m hm
      have hname := hnew m (List.mem_filter.mp hm).1
      rw [Bool.eq_false_iff, ne_eq, knows_format]
      simp_all
    have hfilter := (filter_perm_of_new hothers hunknown).symm
    simpa [htype] using hfilter
  have hrecord : (format title key d initial).kind (.object (ns.filter (·.1 ≠ "type"))) =
      .ok ⟨l.unit, l.model, a⟩ :=
    RecordFormat.ofJson_object_of_perm independent_format hfields
      (ofJson_format hunit hmodel hdetail l.unit l.model)
  rw [Tagged.ofJson_of_tag htag hkind]
  exact map_eq_ok.mpr ⟨_, hrecord, by rw [Located.map, hwhat]⟩

end ModelRegistry.Located
