import ModelRegistry.Inconsistency
import ModelRegistry.Options
import ModelRegistry.Proofs.RoundTrip
import ModelRegistry.Proofs.TaggedObjects
import ModelRegistry.Report

/-!
# Reports, issues and options read back

Each change, finding and issue is decoded from the object that it is written as, and from every
object loosened from that. So is a report whose entries are loosened, and so are options. None of
these has doubles or nests deep, hence they are also read back from their texts.
-/

namespace ModelRegistry

open Json

namespace Layered

variable {q : Nat → Json → Prop} {n : Nat} (hq : Layered q) {j : Json}

include hq

theorem loosened {ms : List (String × Json)} (h : Loosened (.object ms) j)
    (hms : ∀ m ∈ ms, q n m.2) : q (n + 1) j := by
  obtain @⟨_, extra, ns, hperm, -, hstrings⟩ := h
  refine hq.object fun m hm => ?_
  rcases List.mem_append.mp (hperm.mem_iff.mp hm) with hm | hm
  · exact hms m hm
  · obtain ⟨s, hs⟩ := hstrings m hm
    exact hs ▸ hq.string n s

theorem options (o : Options) : q (n + 2) o.toJson := by
  have hprefix : q (n + 1) ((o.modelImportPrefix.map Json.string).getD .null) := by
    cases o.modelImportPrefix with
    | none => exact hq.null _
    | some s => exact hq.string _ s
  have hfeatures : q (n + 1) o.features.toJson :=
    hq.array (List.forall_mem_map.mpr fun f _ => hq.string n f.key)
  refine hq.object ?_
  simp only [List.forall_mem_cons]
  exact ⟨hq.string _ _, hq.string _ _, hprefix, hfeatures, hq.bool _ _, List.forall_mem_nil _⟩

end Layered

/-- What decodes from a tree without doubles that is not too deep is read of either text of it. -/
theorem Json.Decoder.FollowsTree.ofText_render {α : Type} {d : Decoder α} (hd : d.FollowsTree)
    {j : Json} {a : α} (hq : ∀ {q : Nat → Json → Prop}, Layered q → q maxDepth j)
    (ha : d.ofJson j = .ok a) (l : Layout) : d.ofText (j.render l) = .ok a :=
  hd.ofSource_of_document (Document.ofSource_render (hq layered_hasNoDoubles) l)
    (hq layered_nesting) ha

theorem Feature.ofJson_toJson (f : Feature) : choice.decoder.ofJson f.toJson = .ok f := by
  cases f <;> rfl

namespace FeatureSet

theorem has_ofList {fs : List Feature} {f : Feature} : (ofList fs).has f = true ↔ f ∈ fs := by
  have hfold (s : FeatureSet) : (fs.foldl insert s).has f = true ↔ f ∈ fs ∨ s.has f = true := by
    induction fs generalizing s with
    | nil => simp
    | cons g fs ih => simp [ih, insert, or_assoc, or_left_comm]
  simp [ofList, hfold, empty]

theorem ofList_toList (s : FeatureSet) : ofList s.toList = s := by
  ext f
  rw [Bool.eq_iff_iff, has_ofList, toList, List.mem_filter, and_iff_right f.mem_all]

theorem ofJson_toJson (s : FeatureSet) : decoder.ofJson s.toJson = .ok s :=
  map_eq_ok.mpr ⟨_, Decoder.list_ofJson_map fun f _ => f.ofJson_toJson, s.ofList_toList⟩

theorem followsTree_decoder : decoder.FollowsTree :=
  Feature.choice.followsTree.list.map _

end FeatureSet

namespace Located

variable {κ : Type} {t : Tagged (Located κ)} {l : Located κ} {i j : Json}

/-- A statement and the object that it is written as, by which the statement is told again. -/
inductive Written (t : Tagged (Located κ)) (l : Located κ) : Json → Prop
  | intro {δ : Type} {title kind key : String} {d : Decoder δ} {initial a : δ} {f : δ → κ}
      {detail : Json} (hkind : t.pick kind = .ok (Located.kind title key d initial f))
      (hkey : key ∉ ["type", "unit", "model"]) (hdetail : d.ofJson detail = .ok a)
      (hwhat : f a = l.what)
      (hflat : ∀ {q : Nat → Json → Prop} (n : Nat), Layered q → q (n + 1) detail) :
      Written t l (l.toJson kind key detail)

namespace Written

theorem loosened_self (h : Written t l i) : Loosened i i := by
  cases h
  exact .refl _

theorem layered (h : Written t l i) (hj : Loosened i j) {q : Nat → Json → Prop} (n : Nat)
    (hq : Layered q) : q (n + 2) j := by
  obtain ⟨-, -, -, -, hflat⟩ := h
  exact hq.loosened hj (by simp [hq.string, hflat n hq])

theorem ofJson (h : Written t l i) (hj : Loosened i j) : t.decoder.ofJson j = .ok l := by
  obtain ⟨hkind, hkey, hdetail, hwhat, -⟩ := h
  exact ofJson_of_loosened hj hkind hkey hdetail hwhat

theorem ofText (h : Written t l i) (hj : Loosened i j) (layout : Layout) :
    t.decoder.ofText (j.render layout) = .ok l :=
  t.followsTree.ofText_render (h.layered hj _) (h.ofJson hj) layout

end Written

end Located

theorem Change.written (c : Change) : Located.Written format c c.toJson := by
  obtain ⟨unit, model, what⟩ := c
  cases what
  all_goals exact .intro rfl (by decide) rfl rfl fun _ hq => hq.string _ _

theorem Diagnostic.written (d : Diagnostic) : Located.Written format d d.toJson := by
  obtain ⟨unit, model, what⟩ := d
  cases what with
  | danglingDiscriminator =>
    exact .intro rfl (by decide) rfl rfl fun _ hq => hq.string _ _
  | basesDropped dropped =>
    exact .intro rfl (by decide) (Decoder.list_ofJson_strings dropped) rfl
      fun _ hq => hq.strings dropped

theorem Inconsistency.written (i : Inconsistency) : Located.Written format i i.toJson := by
  obtain ⟨unit, model, what⟩ := i
  cases what with
  | discriminatorPropertyMissing =>
    exact .intro rfl (by decide) rfl rfl fun _ hq => hq.string _ _
  | multipleBases bases =>
    exact .intro rfl (by decide) (Decoder.list_ofJson_strings bases) rfl
      fun _ hq => hq.strings bases
  | unsupportedFeature f =>
    have hfeature : Feature.choice.buffered.ofJson f.toJson = .ok f := by cases f <;> rfl
    exact .intro rfl (by decide) hfeature rfl fun _ hq => hq.string _ _

namespace Report

/-- A tree of the report in which every entry is loosened. -/
inductive Loosened (r : Report) : Json → Prop
  | object {changes diagnostics : List Json}
      (hchanges : List.Forall₂ (fun c j => Json.Loosened (Change.toJson c) j) r.changes changes)
      (hdiagnostics : List.Forall₂ (fun d j => Json.Loosened (Diagnostic.toJson d) j)
        r.diagnostics diagnostics) :
      Loosened r (.object [("changes", .array changes), ("diagnostics", .array diagnostics)])

theorem loosened_toJson (r : Report) : r.Loosened r.toJson :=
  .object
    (List.forall₂_map_right_iff.mpr (List.forall₂_same.mpr fun c _ => c.written.loosened_self))
    (List.forall₂_map_right_iff.mpr (List.forall₂_same.mpr fun d _ => d.written.loosened_self))

theorem followsTree_decoder : format.decoder.FollowsTree := by
  refine RecordFormat.followsTree ?_
  simp only [format, List.forall_mem_cons, Field.needed]
  exact ⟨Change.format.followsTree.list.map _, Diagnostic.format.followsTree.list.map _,
    List.forall_mem_nil _⟩

theorem layered_of_loosened {r : Report} {j : Json} (h : r.Loosened j) {q : Nat → Json → Prop}
    (hq : Layered q) (n : Nat) : q (n + 4) j := by
  obtain @⟨changes, diagnostics, hchanges, hdiagnostics⟩ := h
  have hc : ∀ j ∈ changes, q (n + 2) j := by
    intro j hj
    obtain ⟨c, -, hloose⟩ := exists_mem_of_forall₂ hchanges hj
    exact c.written.layered hloose n hq
  have hd : ∀ j ∈ diagnostics, q (n + 2) j := by
    intro j hj
    obtain ⟨d, -, hloose⟩ := exists_mem_of_forall₂ hdiagnostics hj
    exact d.written.layered hloose n hq
  exact hq.object (by simpa using And.intro (hq.array hc) (hq.array hd))

theorem ofJson_of_loosened {r : Report} {j : Json} (h : r.Loosened j) :
    format.decoder.ofJson j = .ok r := by
  obtain @⟨changes, diagnostics, hchanges, hdiagnostics⟩ := h
  have hcs : Change.format.decoder.list.ofJson (.array changes) = .ok r.changes :=
    Decoder.jsonItems_eq_ok.mpr (hchanges.flip.imp fun _ c => c.written.ofJson)
  have hds : Diagnostic.format.decoder.list.ofJson (.array diagnostics) = .ok r.diagnostics :=
    Decoder.jsonItems_eq_ok.mpr (hdiagnostics.flip.imp fun _ d => d.written.ofJson)
  have hmembers : format.jsonMembers
      [("changes", .array changes), ("diagnostics", .array diagnostics)] format.start =
        .ok ⟨["diagnostics", "changes"], r⟩ := by
    refine (RecordFormat.jsonMembers_cons rfl List.not_mem_nil
      (map_eq_ok.mpr ⟨_, hcs, rfl⟩)).trans ?_
    refine (RecordFormat.jsonMembers_cons rfl (by decide)
      (map_eq_ok.mpr ⟨_, hds, rfl⟩)).trans ?_
    rfl
  exact congrArg (· >>= format.complete) hmembers

theorem ofText_of_loosened {r : Report} {j : Json} (h : r.Loosened j) (l : Layout) :
    ofText (j.render l) = .ok r :=
  followsTree_decoder.ofText_render (fun hq => layered_of_loosened h hq 123)
    (ofJson_of_loosened h) l

end Report

namespace Options

theorem followsTree_decoder : format.decoder.FollowsTree := by
  refine RecordFormat.followsTree ?_
  simp only [format, List.forall_mem_cons, Field.needed, Field.optional]
  refine ⟨?_, ?_, ?_, ?_, ?_, List.forall_mem_nil _⟩
  · exact SerializationLibrary.choice.followsTree.map _
  · exact ImportPolicy.choice.followsTree.map _
  · exact Decoder.followsTree_string.option.map _
  · exact FeatureSet.followsTree_decoder.map _
  · exact Decoder.followsTree_bool.map _

theorem ofJson_toJson (o : Options) : format.decoder.ofJson o.toJson = .ok o := by
  have hlibrary : SerializationLibrary.choice.decoder.ofJson o.serializationLibrary.toJson =
      .ok o.serializationLibrary := by
    cases o.serializationLibrary
    rfl
  have hpolicy : ImportPolicy.choice.decoder.ofJson o.importPolicy.toJson =
      .ok o.importPolicy := by
    cases o.importPolicy <;> rfl
  have hprefix : Decoder.string.option.ofJson
      ((o.modelImportPrefix.map Json.string).getD .null) = .ok o.modelImportPrefix := by
    cases o.modelImportPrefix <;> rfl
  have hstrict : Decoder.bool.ofJson (.bool o.strict) = .ok o.strict := rfl
  have hmembers : format.jsonMembers
      [("serialization-library", o.serializationLibrary.toJson),
        ("import-policy", o.importPolicy.toJson),
        ("model-import-prefix", (o.modelImportPrefix.map Json.string).getD .null),
        ("features", o.features.toJson), ("strict", .bool o.strict)] format.start =
      .ok ⟨["strict", "features", "model-import-prefix", "import-policy",
        "serialization-library"], o⟩ := by
    refine (RecordFormat.jsonMembers_cons rfl List.not_mem_nil
      (map_eq_ok.mpr ⟨_, hlibrary, rfl⟩)).trans ?_
    refine (RecordFormat.jsonMembers_cons rfl (by decide)
      (map_eq_ok.mpr ⟨_, hpolicy, rfl⟩)).trans ?_
    refine (RecordFormat.jsonMembers_cons rfl (by decide)
      (map_eq_ok.mpr ⟨_, hprefix, rfl⟩)).trans ?_
    refine (RecordFormat.jsonMembers_cons rfl (by decide)
      (map_eq_ok.mpr ⟨_, o.features.ofJson_toJson, rfl⟩)).trans ?_
    refine (RecordFormat.jsonMembers_cons rfl (by decide)
      (map_eq_ok.mpr ⟨_, hstrict, rfl⟩)).trans ?_
    rfl
  exact congrArg (· >>= format.complete) hmembers

theorem ofText_render (o : Options) (l : Layout) : ofText (o.toJson.render l) = .ok o :=
  followsTree_decoder.ofText_render (fun hq => hq.options o) o.ofJson_toJson l

end Options

/-- Options, reports, changes, findings and issues are read back from both texts of what they are
written as. Where tagged objects are loosened, which is to say that their members are rearranged
with strings under new names between them, what was written is read back all the same. -/
theorem texts_lossless (l : Layout) :
    (∀ o : Options, Options.ofText (o.toJson.render l) = .ok o) ∧
    (∀ r : Report, Report.ofText (r.toJson.render l) = .ok r ∧
      ∀ j, r.Loosened j → Report.ofText (j.render l) = .ok r) ∧
    (∀ c : Change, Change.format.decoder.ofText (c.toJson.render l) = .ok c ∧
      ∀ j, Loosened c.toJson j → Change.format.decoder.ofText (j.render l) = .ok c) ∧
    (∀ d : Diagnostic, Diagnostic.ofText (d.toJson.render l) = .ok d ∧
      ∀ j, Loosened d.toJson j → Diagnostic.ofText (j.render l) = .ok d) ∧
    ∀ i : Inconsistency, Inconsistency.ofText (i.toJson.render l) = .ok i ∧
      ∀ j, Loosened i.toJson j → Inconsistency.ofText (j.render l) = .ok i := by
  refine ⟨fun o => o.ofText_render l, fun r => ?_, fun c => ?_, fun d => ?_, fun i => ?_⟩
  · exact ⟨Report.ofText_of_loosened r.loosened_toJson l,
      fun j h => Report.ofText_of_loosened h l⟩
  · exact ⟨c.written.ofText c.written.loosened_self l, fun j h => c.written.ofText h l⟩
  · exact ⟨d.written.ofText d.written.loosened_self l, fun j h => d.written.ofText h l⟩
  · exact ⟨i.written.ofText i.written.loosened_self l, fun j h => i.written.ofText h l⟩

/-- A name with an escape, and a list with an empty text. -/
def oddReport : Report where
  changes := [⟨"pets", "\"Dog\"", .importRemoved "\n"⟩]
  diagnostics := [⟨"", "Cat", .basesDropped ["", "Ant"]⟩]

/-- The tag of the change comes last, after members that are fields of other changes; in the finding
an unknown member comes twice. -/
def oddReportTree : Json :=
  .object [
    ("changes", .array [.object [("parent", .string "Ant"), ("property", .string "kind"),
      ("import", .string "\n"), ("model", .string "\"Dog\""), ("unit", .string "pets"),
      ("type", .string "import_removed")]]),
    ("diagnostics", .array [.object [("type", .string "bases_dropped"), ("unit", .string ""),
      ("model", .string "Cat"), ("dropped", .strings ["", "Ant"]), ("note", .string ""),
      ("note", .string "x")]])]

theorem texts_lossless_oddReport :
    oddReport.Loosened oddReportTree ∧
      ∀ l, Report.ofText (oddReportTree.render l) = .ok oddReport := by
  have hloose : oddReport.Loosened oddReportTree := by
    refine .object (.cons ?_ .nil) (.cons ?_ .nil)
    · exact @Loosened.object _ [("property", .string "kind"), ("parent", .string "Ant")] _
        (List.reverse_perm'.mp (.refl _)) (by decide) (by simp)
    · exact @Loosened.object _ [("note", .string ""), ("note", .string "x")] _
        (.refl _) (by decide) (by simp)
  refine ⟨hloose, fun l => ?_⟩
  obtain ⟨-, hreport, -⟩ := texts_lossless l
  exact (hreport oddReport).2 oddReportTree hloose

end ModelRegistry
