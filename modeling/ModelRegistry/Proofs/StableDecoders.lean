import ModelRegistry.Proofs.Rearrangement

/-!
# Decoders that do not mind the order of members

A decoder admits a document in place of another if it takes from it what it takes from the other. It
is stable if it admits every reordered document, as long as no object repeats a key. Texts, values,
lists and maps are stable, and so are records whose fields are stable and make changes that do not
touch each other: the draft of a record is the same, but for the order in which it has got its
fields.
-/

namespace ModelRegistry.Json

open Document

namespace Decoder

variable {α β : Type} {d : Decoder α} {doc doc' : Document}

/-- What the decoder takes from the one document, it takes from the other. -/
def Admits (d : Decoder α) (doc doc' : Document) : Prop :=
  ∀ ⦃depth : Nat⦄ ⦃a : α⦄, d.ofDocument depth doc = .ok a → d.ofDocument depth doc' = .ok a

namespace Admits

protected theorem map (h : d.Admits doc doc') (f : α → β) : (d.map f).Admits doc doc' := by
  intro depth b hb
  obtain ⟨a, ha, rfl⟩ := map_eq_ok.mp hb
  exact map_eq_ok.mpr ⟨a, h ha, rfl⟩

theorem list_item (h : d.Admits doc doc') (before after : List Document) (stop : Stop) :
    d.list.Admits (.list (before ++ doc :: after) stop) (.list (before ++ doc' :: after) stop) := by
  intro depth as has
  rw [list_ofDocument_eq_ok] at has ⊢
  obtain ⟨k, hk, hstop, hitems⟩ := has
  exact ⟨k, hk, hstop, forall₂_replace hitems fun _ ha => h ha⟩

theorem nameMap_member (h : d.Admits doc doc') (before after : List (Key × Document)) (key : Key)
    (stop : Stop) :
    d.nameMap.Admits (.object (before ++ (key, doc) :: after) stop)
      (.object (before ++ (key, doc') :: after) stop) := by
  intro depth m hm
  rw [nameMap_ofDocument_eq_ok] at hm ⊢
  obtain ⟨k, es, hk, hstop, hmembers, rfl⟩ := hm
  exact ⟨k, es, hk, hstop, forall₂_replace hmembers fun _ he => ⟨he.1, h he.2⟩, rfl⟩

end Admits

/-- The order of the members of objects makes no difference. -/
def Stable (d : Decoder α) : Prop :=
  ∀ ⦃doc doc' : Document⦄, Reordered doc doc' → doc.NoRepeats → d.Admits doc doc'

theorem stable_string : string.Stable := by
  intro doc doc' h _ depth a ha
  cases h <;> cases ha

theorem stable_bool : bool.Stable := by
  intro doc doc' h _ depth a ha
  cases h <;> cases ha

theorem stable_value : value.Stable := by
  intro doc doc' h hdoc depth v hv
  obtain ⟨j, hread, rfl⟩ := map_eq_ok.mp hv
  obtain ⟨j', hread', hcanonical⟩ := h.exists_read hdoc (refuse_eq_ok.mp hread)
  exact map_eq_ok.mpr ⟨j', refuse_eq_ok.mpr hread', Value.ext hcanonical⟩

namespace Stable

protected theorem map (h : d.Stable) (f : α → β) : (d.map f).Stable :=
  fun _ _ hreordered hdoc => (h hreordered hdoc).map f

theorem option (h : d.Stable) : d.option.Stable := by
  intro doc doc' hreordered hdoc
  have hsome : (d.map some).Admits doc doc' := h.map some hreordered hdoc
  cases hreordered <;> exact hsome

theorem list (h : d.Stable) : d.list.Stable := by
  intro doc doc' hreordered hdoc
  cases hreordered with
  | here => exact fun _ _ has => nomatch has
  | item hitem =>
    have hadmits := h hitem (noRepeats_list.mp hdoc _ List.mem_append_cons_self)
    exact hadmits.list_item _ _ _
  | member => exact fun _ _ has => nomatch has

theorem nameMap (h : d.Stable) : d.nameMap.Stable := by
  intro doc doc' hreordered hdoc
  cases hreordered with
  | here hperm =>
    intro depth m hm
    rw [nameMap_ofDocument_eq_ok] at hm ⊢
    obtain ⟨k, es, hk, hstop, hmembers, rfl⟩ := hm
    obtain ⟨es', hmembers', hperm'⟩ := List.perm_comp_forall₂ hperm.symm hmembers
    have hnames := (noRepeats_object.mp hdoc).1
    rw [names_of_forall₂ (hmembers.imp fun _ _ he => he.1)] at hnames
    exact ⟨k, es', hk, hstop, hmembers',
      NameMap.ext (Entries.sorted_eq_of_perm hperm'.symm hnames)⟩
  | item => exact fun _ _ hm => nomatch hm
  | member hmember =>
    have hadmits := h hmember ((noRepeats_object.mp hdoc).2 _ List.mem_append_cons_self)
    exact hadmits.nameMap_member _ _ _ _

end Stable

end Decoder

namespace RecordFormat

variable {σ : Type} {f : RecordFormat σ} {depth : Nat}

/-- Two drafts of one record that have got the same fields. -/
structure Draft.Same (draft draft' : Draft σ) : Prop where
  record : draft.record = draft'.record
  seen (name : String) : name ∈ draft.seen ↔ name ∈ draft'.seen

theorem complete_of_same {draft draft' : Draft σ} (h : draft.Same draft') :
    f.complete draft = f.complete draft' := by
  simp only [complete, h.record, h.seen]

theorem Step.of_same {m : Key × Document} {a a' b : Draft σ} (h : Step f depth m a b)
    (hsame : a.Same a') : ∃ b', Step f depth m a' b' ∧ b.Same b' := by
  cases h with
  | field hfield hnew hset =>
    refine ⟨_, .field hfield (fun hmem => hnew ((hsame.seen _).mpr hmem)) hset, ?_⟩
    exact ⟨by simp only [hsame.record], fun name => by simp only [List.mem_cons, hsame.seen]⟩
  | unknown hfield hskip => exact ⟨a', .unknown hfield hskip, hsame⟩

theorem Draft.Same.refl (draft : Draft σ) : draft.Same draft :=
  ⟨rfl, fun _ => .rfl⟩

theorem Draft.Same.trans {a b c : Draft σ} (h : a.Same b) (h' : b.Same c) : a.Same c :=
  ⟨h.record.trans h'.record, fun name => (h.seen name).trans (h'.seen name)⟩

/-- Two members may change their places. -/
theorem Step.swap (hcommute : f.fields.Pairwise Field.Commute) {m n : Key × Document}
    {a b c : Draft σ} (hm : Step f depth m a b) (hn : Step f depth n b c) :
    ∃ b' c', Step f depth n a b' ∧ Step f depth m b' c' ∧ c.Same c' := by
  cases hm with
  | unknown hfield hskip => exact ⟨c, c, hn, .unknown hfield hskip, .refl c⟩
  | @field name doc field set _ hfield hnew hset =>
    cases hn with
    | unknown hfield' hskip' =>
      exact ⟨a, _, .unknown hfield' hskip', .field hfield hnew hset, .refl _⟩
    | @field name' doc' field' set' _ hfield' hnew' hset' =>
      obtain ⟨hne, hnew'⟩ := not_or.mp fun h => hnew' (List.mem_cons.mpr h)
      have hnames : field'.name ≠ field.name := by
        rwa [field?_name hfield, field?_name hfield']
      have hlater : name ∉ name' :: a.seen := by
        rw [List.mem_cons, not_or]
        exact ⟨Ne.symm hne, hnew⟩
      refine ⟨_, _, .field hfield' hnew' hset', .field hfield hlater hset, ?_, fun x => ?_⟩
      · exact commute_of_name_ne hcommute (field?_mem hfield') (field?_mem hfield) hnames
          (.ofDocument hset') (.ofDocument hset) a.record
      · simp only [List.mem_cons, or_left_comm]

theorem exists_documentMembers_of_same {members : List (Key × Document)} {a a' b : Draft σ}
    (hsame : a.Same a') (h : f.documentMembers depth members a = .ok b) :
    ∃ b', f.documentMembers depth members a' = .ok b' ∧ b.Same b' := by
  induction members generalizing a a' with
  | nil =>
    cases h
    exact ⟨a', rfl, hsame⟩
  | cons m members ih =>
    obtain ⟨a₁, hstep, hrest⟩ := documentMembers_cons_eq_ok.mp h
    obtain ⟨a₁', hstep', hsame'⟩ := hstep.of_same hsame
    obtain ⟨b', hrest', hb⟩ := ih hsame' hrest
    exact ⟨b', documentMembers_cons_eq_ok.mpr ⟨a₁', hstep', hrest'⟩, hb⟩

/-- In whatever order its members come, a record in the making gets the same fields. -/
theorem exists_documentMembers_of_perm (hcommute : f.fields.Pairwise Field.Commute)
    {members members' : List (Key × Document)} (hperm : members.Perm members')
    {a b : Draft σ} (h : f.documentMembers depth members a = .ok b) :
    ∃ b', f.documentMembers depth members' a = .ok b' ∧ b.Same b' := by
  induction hperm generalizing a b with
  | nil => exact ⟨b, h, .refl b⟩
  | cons m _ ih =>
    obtain ⟨a₁, hstep, hrest⟩ := documentMembers_cons_eq_ok.mp h
    obtain ⟨b', hrest', hb⟩ := ih hrest
    exact ⟨b', documentMembers_cons_eq_ok.mpr ⟨a₁, hstep, hrest'⟩, hb⟩
  | swap m n members =>
    obtain ⟨a₁, hn, h⟩ := documentMembers_cons_eq_ok.mp h
    obtain ⟨a₂, hm, hrest⟩ := documentMembers_cons_eq_ok.mp h
    obtain ⟨b₁, b₂, hm', hn', hsame⟩ := hn.swap hcommute hm
    obtain ⟨b', hrest', hb⟩ := exists_documentMembers_of_same hsame hrest
    refine ⟨b', documentMembers_cons_eq_ok.mpr ⟨b₁, hm', ?_⟩, hb⟩
    exact documentMembers_cons_eq_ok.mpr ⟨b₂, hn', hrest'⟩
  | trans _ _ ih ih' =>
    obtain ⟨b₁, h₁, hb₁⟩ := ih h
    obtain ⟨b₂, h₂, hb₂⟩ := ih' h₁
    exact ⟨b₂, h₂, hb₁.trans hb₂⟩

/-- A member may be replaced by one that does the same to every draft. -/
theorem documentMembers_replace {before after : List (Key × Document)} {m m' : Key × Document}
    (hm : ∀ a b, Step f depth m a b → Step f depth m' a b) {a b : Draft σ}
    (h : f.documentMembers depth (before ++ m :: after) a = .ok b) :
    f.documentMembers depth (before ++ m' :: after) a = .ok b := by
  induction before generalizing a with
  | nil =>
    obtain ⟨a₁, hstep, hrest⟩ := documentMembers_cons_eq_ok.mp h
    exact documentMembers_cons_eq_ok.mpr ⟨a₁, hm a a₁ hstep, hrest⟩
  | cons n before ih =>
    obtain ⟨a₁, hstep, hrest⟩ := documentMembers_cons_eq_ok.mp h
    exact documentMembers_cons_eq_ok.mpr ⟨a₁, hstep, ih hrest⟩

theorem admits_of_perm (hcommute : f.fields.Pairwise Field.Commute)
    {members members' : List (Key × Document)} (hperm : members.Perm members') (stop : Stop) :
    f.decoder.Admits (.object members stop) (.object members' stop) := by
  intro depth record h
  rw [ofDocument_object_eq_ok] at h ⊢
  obtain ⟨k, draft, hk, hstop, hdraft, hrecord⟩ := h
  obtain ⟨draft', hdraft', hsame⟩ := exists_documentMembers_of_perm hcommute hperm hdraft
  exact ⟨k, draft', hk, hstop, hdraft', complete_of_same hsame ▸ hrecord⟩

theorem admits_member {before after : List (Key × Document)} {key : Key} {stop : Stop}
    {doc doc' : Document}
    (hfield : ∀ name field, key = .ok name → f.field? name = some field →
      field.decoder.Admits doc doc')
    (hskip : ∀ name, key = .ok name → f.field? name = none → doc.skip = .ok () →
      doc'.skip = .ok ()) :
    f.decoder.Admits (.object (before ++ (key, doc) :: after) stop)
      (.object (before ++ (key, doc') :: after) stop) := by
  intro depth record h
  rw [ofDocument_object_eq_ok] at h ⊢
  obtain ⟨k, draft, hk, hstop, hdraft, hrecord⟩ := h
  refine ⟨k, draft, hk, hstop, documentMembers_replace (fun a b hstep => ?_) hdraft, hrecord⟩
  cases hstep with
  | field hname hnew hset => exact .field hname hnew (hfield _ _ rfl hname hset)
  | unknown hname hskipped => exact .unknown hname (hskip _ rfl hname hskipped)

theorem documentItems_replace {expectation : String} {stop : Stop} {i : Nat}
    {fields : List (Field σ)} {before after : List Document} {doc doc' : Document}
    {record record' : σ}
    (hfield : ∀ field, fields[before.length]? = some field → field.decoder.Admits doc doc')
    (h : documentItems expectation depth stop i fields (before ++ doc :: after) record =
      .ok record') :
    documentItems expectation depth stop i fields (before ++ doc' :: after) record =
      .ok record' := by
  induction before generalizing i fields record with
  | nil =>
    cases fields with
    | nil => cases h
    | cons field fields =>
      simp only [List.nil_append, documentItems, bind_eq_ok] at h ⊢
      obtain ⟨set, hset, hrest⟩ := h
      exact ⟨set, hfield field rfl hset, hrest⟩
  | cons d before ih =>
    cases fields with
    | nil => cases h
    | cons field fields =>
      simp only [List.cons_append, documentItems, bind_eq_ok] at h ⊢
      obtain ⟨set, hset, hrest⟩ := h
      exact ⟨set, hset, ih hfield hrest⟩

theorem admits_item {before after : List Document} {stop : Stop} {doc doc' : Document}
    (hfield : ∀ field, f.fields[before.length]? = some field → field.decoder.Admits doc doc') :
    f.decoder.Admits (.list (before ++ doc :: after) stop)
      (.list (before ++ doc' :: after) stop) := by
  intro depth record h
  obtain ⟨k, hk, hitems⟩ := bind_eq_ok.mp h
  exact bind_eq_ok.mpr ⟨k, hk, documentItems_replace hfield hitems⟩

theorem stable (hfields : ∀ field ∈ f.fields, field.decoder.Stable)
    (hcommute : f.fields.Pairwise Field.Commute) : f.decoder.Stable := by
  intro doc doc' hreordered hdoc
  cases hreordered with
  | here hperm => exact admits_of_perm hcommute hperm _
  | item hitem =>
    have hrepeats := noRepeats_list.mp hdoc _ List.mem_append_cons_self
    exact admits_item fun field hfield => hfields field (List.mem_of_getElem? hfield) hitem hrepeats
  | member hmember =>
    have hrepeats := (noRepeats_object.mp hdoc).2 _ List.mem_append_cons_self
    refine admits_member (fun _ field _ hfield => ?_) fun _ _ _ hskip => ?_
    · exact hfields field (field?_mem hfield) hmember hrepeats
    · exact skip_eq_ok.mpr (hmember.complete (skip_eq_ok.mp hskip))

end RecordFormat

end ModelRegistry.Json
