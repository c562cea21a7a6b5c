import ModelRegistry.Proofs.Documents

/-!
# The two ways of decoding

A decoder follows the tree if it takes the same from a document as from the tree that the document
reads as. It is coherent if it also takes the same from a tree as from its canonical form. Putting a
tree in canonical form may lose what made it unacceptable, but only where the tree repeats a key.
What decoders are built from is coherent, and so is what they build.
-/

namespace ModelRegistry.Json

section Pointwise

variable {α β γ : Type} {R : α → γ → Prop} {S : α → β → Prop} {T : β → γ → Prop}

/-- Where matching elements are related to the same things, so are matching lists. -/
theorem forall₂_congr {as : List α} {bs : List β} (h : List.Forall₂ S as bs)
    (hRT : ∀ a b, S a b → ∀ c, R a c ↔ T b c) (cs : List γ) :
    List.Forall₂ R as cs ↔ List.Forall₂ T bs cs := by
  induction h generalizing cs with
  | nil => rw [List.forall₂_nil_left_iff, List.forall₂_nil_left_iff]
  | cons hab _ ih => simp only [List.forall₂_cons_left_iff, hRT _ _ hab, ih]

end Pointwise

/-- A condition that a document passes on to its parts. -/
structure Document.Hereditary (c : Document → Prop) : Prop where
  list {items : List Document} {stop : Stop} : c (.list items stop) → ∀ d ∈ items, c d
  object {members : List (Key × Document)} {stop : Stop} :
    c (.object members stop) → ∀ m ∈ members, c m.2

theorem Document.hereditary_true : Hereditary fun _ => True where
  list _ _ _ := trivial
  object _ _ _ := trivial

namespace Decoder

variable {α β : Type} {d : Decoder α}

section Specification

variable {depth : Nat}

theorem documentItems_eq_ok {docs : List Document} {as : List α} :
    documentItems d depth docs = .ok as ↔
      List.Forall₂ (fun doc a => d.ofDocument depth doc = .ok a) docs as :=
  traverse_eq_ok (fun _ _ => .rfl) (documentItems d depth) rfl fun _ _ => rfl

theorem jsonItems_eq_ok {js : List Json} {as : List α} :
    jsonItems d js = .ok as ↔ List.Forall₂ (fun j a => d.ofJson j = .ok a) js as :=
  traverse_eq_ok (fun _ _ => .rfl) (jsonItems d) rfl fun _ _ => rfl

/-- A member of a document and the entry that it is decoded to. -/
def TakesMember (d : Decoder α) (depth : Nat) (m : Key × Document) (e : String × α) : Prop :=
  m.1 = .ok e.1 ∧ d.ofDocument depth m.2 = .ok e.2

/-- A member of a tree and the entry that it is decoded to. -/
abbrev Takes (d : Decoder α) : String × Json → String × α → Prop :=
  Entries.Match fun j a => d.ofJson j = .ok a

theorem documentMembers_eq_ok {members : List (Key × Document)} {es : List (String × α)} :
    documentMembers d depth members = .ok es ↔
      List.Forall₂ (d.TakesMember depth) members es :=
  traverse_members_eq_ok (fun _ _ => refuse_eq_ok) (documentMembers d depth) rfl
    fun _ _ _ => rfl

theorem jsonMembers_eq_ok {ms : List (String × Json)} {es : List (String × α)} :
    jsonMembers d ms = .ok es ↔ List.Forall₂ d.Takes ms es :=
  traverse_members_eq_ok (fun k name => .of_eq (Except.ok.injEq k name)) (jsonMembers d) rfl
    fun _ _ _ => rfl

theorem list_ofDocument_eq_ok {items : List Document} {stop : Stop} {as : List α} :
    d.list.ofDocument depth (.list items stop) = .ok as ↔
      ∃ k, depth = k + 1 ∧ stop = .closed ∧
        List.Forall₂ (fun doc a => d.ofDocument k doc = .ok a) items as := by
  simp only [list, bind_eq_ok, refuse_eq_ok, descend_eq_ok, strict_eq_ok, documentItems_eq_ok]
  constructor
  · rintro ⟨k, hk, as', has, -, hstop, h⟩
    exact ⟨k, hk, hstop, Except.ok.inj h ▸ has⟩
  · rintro ⟨k, hk, hstop, has⟩
    exact ⟨k, hk, as, has, (), hstop, rfl⟩

theorem nameMap_ofDocument_eq_ok {members : List (Key × Document)} {stop : Stop}
    {m : NameMap α} :
    d.nameMap.ofDocument depth (.object members stop) = .ok m ↔
      ∃ k es, depth = k + 1 ∧ stop = .closed ∧ List.Forall₂ (d.TakesMember k) members es ∧
        m = .ofList es := by
  simp only [nameMap, bind_eq_ok, refuse_eq_ok, descend_eq_ok, strict_eq_ok,
    documentMembers_eq_ok]
  constructor
  · rintro ⟨k, hk, es, hes, -, hstop, h⟩
    exact ⟨k, es, hk, hstop, hes, (Except.ok.inj h).symm⟩
  · rintro ⟨k, es, hk, hstop, hes, rfl⟩
    exact ⟨k, hk, es, hes, (), hstop, rfl⟩

theorem nameMap_ofJson_eq_ok {ms : List (String × Json)} {m : NameMap α} :
    d.nameMap.ofJson (.object ms) = .ok m ↔
      ∃ es, List.Forall₂ d.Takes ms es ∧ m = .ofList es := by
  simp only [nameMap, map_eq_ok, jsonMembers_eq_ok]
  exact exists_congr fun es => and_congr_right' eq_comm

theorem rightUnique_takes : Relator.RightUnique d.Takes :=
  fun _ _ _ h h' => Prod.ext (h.1.symm.trans h'.1) (Except.ok.inj (h.2.symm.trans h'.2))

end Specification

theorem ofList_sorted (es : List (String × α)) :
    NameMap.ofList (Entries.sorted es) = NameMap.ofList es :=
  NameMap.ext (Entries.sorted_eq_self (Entries.ascending_sorted es))

/-- A decoder takes the same from a document as from the tree that it reads as. -/
def FollowsTree (d : Decoder α) : Prop :=
  ∀ ⦃depth : Nat⦄ ⦃doc : Document⦄ ⦃j : Json⦄, doc.read depth = .ok j →
    ∀ a, d.ofDocument depth doc = .ok a ↔ d.ofJson j = .ok a

theorem followsTree_string : string.FollowsTree := by
  intro depth doc j h a
  cases Document.read_eq_ok.mp h <;> simp [string]

theorem followsTree_bool : bool.FollowsTree := by
  intro depth doc j h a
  cases Document.read_eq_ok.mp h <;> simp [bool]

namespace FollowsTree

protected theorem map (h : d.FollowsTree) (f : α → β) : (d.map f).FollowsTree := by
  intro depth doc j hread b
  simp only [Decoder.map, map_eq_ok, h hread]

theorem option (h : d.FollowsTree) : d.option.FollowsTree := by
  intro depth doc j hread a
  have hsome := h.map some hread a
  cases Document.read_eq_ok.mp hread with
  | null => exact .rfl
  | bool | number | string | list | object => exact hsome

theorem list (h : d.FollowsTree) : d.list.FollowsTree := by
  intro depth doc j hread as
  cases Document.read_eq_ok.mp hread with
  | null | bool | number | string | object => simp [Decoder.list]
  | list hjs =>
    have hitems := forall₂_congr hjs (fun _ _ hdoc => h hdoc) as
    rw [list_ofDocument_eq_ok]
    simpa [Decoder.list, jsonItems_eq_ok] using hitems

theorem nameMap (h : d.FollowsTree) : d.nameMap.FollowsTree := by
  intro depth doc j hread m
  cases Document.read_eq_ok.mp hread with
  | null | bool | number | string | list => simp [Decoder.nameMap]
  | @object k members ms hms =>
    have hmembers : ∀ es, List.Forall₂ (d.TakesMember k) members es ↔
        List.Forall₂ d.Takes ms es := by
      refine forall₂_congr hms fun m n hmn e => ?_
      rw [TakesMember, hmn.1, h hmn.2, Except.ok.injEq]
      rfl
    rw [nameMap_ofDocument_eq_ok, nameMap_ofJson_eq_ok]
    simp [hmembers]

end FollowsTree

/-- A decoder takes the same from a document, from the tree that it reads as and from the canonical
form of that tree. -/
structure Coherent (d : Decoder α) : Prop where
  ofDocument_iff {depth : Nat} {doc : Document} {j : Json} :
    doc.read depth = .ok j → ∀ a, d.ofDocument depth doc = .ok a ↔ d.ofJson j = .ok a
  canonical {j : Json} {a : α} : d.ofJson j = .ok a → d.ofJson j.canonical = .ok a
  /-- A repeated key may be what a decoder refuses. -/
  of_canonical {j : Json} {a : α} :
    j.HasDistinctKeys → d.ofJson j.canonical = .ok a → d.ofJson j = .ok a

theorem Coherent.followsTree (h : d.Coherent) : d.FollowsTree :=
  fun _ _ _ => h.ofDocument_iff

theorem coherent_string : string.Coherent where
  ofDocument_iff hread := followsTree_string hread
  canonical {j a} h := by cases j <;> exact h
  of_canonical {j a} _ h := by cases j <;> exact h

theorem coherent_bool : bool.Coherent where
  ofDocument_iff hread := followsTree_bool hread
  canonical {j a} h := by cases j <;> exact h
  of_canonical {j a} _ h := by cases j <;> exact h

theorem toValue_canonical (j : Json) : j.canonical.toValue = j.toValue :=
  Value.ext (canonical_canonical_eq j)

theorem coherent_value : value.Coherent where
  ofDocument_iff {depth doc j} h v := by
    have hdocument : value.ofDocument depth doc = .ok j.toValue :=
      map_eq_ok.mpr ⟨j, refuse_eq_ok.mpr h, rfl⟩
    rw [hdocument]
    rfl
  canonical {j v} h := (congrArg Except.ok (toValue_canonical j)).trans h
  of_canonical {j v} _ h := (congrArg Except.ok (toValue_canonical j)).symm.trans h

namespace Coherent

protected theorem map (h : d.Coherent) (f : α → β) : (d.map f).Coherent where
  ofDocument_iff hread := h.followsTree.map f hread
  canonical hb := by
    obtain ⟨a, ha, rfl⟩ := map_eq_ok.mp hb
    exact map_eq_ok.mpr ⟨a, h.canonical ha, rfl⟩
  of_canonical hj hb := by
    obtain ⟨a, ha, rfl⟩ := map_eq_ok.mp hb
    exact map_eq_ok.mpr ⟨a, h.of_canonical hj ha, rfl⟩

theorem option (h : d.Coherent) : d.option.Coherent where
  ofDocument_iff hread := h.followsTree.option hread
  canonical {j a} ha := by
    cases j with
    | null => exact ha
    | bool | number | string | array | object => exact (h.map some).canonical ha
  of_canonical {j a} hj ha := by
    cases j with
    | null => exact ha
    | bool | number | string | array | object => exact (h.map some).of_canonical hj ha

theorem list (h : d.Coherent) : d.list.Coherent where
  ofDocument_iff hread := h.followsTree.list hread
  canonical {j as} has := by
    cases j with
    | null | bool | number | string | object => cases has
    | array js =>
      rw [canonical_array]
      refine jsonItems_eq_ok.mpr (List.forall₂_map_left_iff.mpr ?_)
      exact (jsonItems_eq_ok.mp has).imp fun _ _ => h.canonical
  of_canonical {j as} hj has := by
    cases j with
    | null | bool | number | string | object => cases has
    | array js =>
      rw [canonical_array] at has
      have hitems := List.forall₂_map_left_iff.mp (jsonItems_eq_ok.mp has)
      have hboth := (List.forall₂_and_left js as).mpr ⟨hasDistinctKeys_array.mp hj, hitems⟩
      exact jsonItems_eq_ok.mpr (hboth.imp fun _ _ ha => h.of_canonical ha.1 ha.2)

theorem nameMap (h : d.Coherent) : d.nameMap.Coherent where
  ofDocument_iff hread := h.followsTree.nameMap hread
  canonical {j m} hm := by
    cases j with
    | null | bool | number | string | array => cases hm
    | object ms =>
      obtain ⟨es, hes, rfl⟩ := nameMap_ofJson_eq_ok.mp hm
      rw [canonical_object, nameMap_ofJson_eq_ok]
      refine ⟨Entries.sorted es, Entries.matching_sorted ?_, (ofList_sorted es).symm⟩
      exact List.forall₂_map_left_iff.mpr (hes.imp fun _ _ he => ⟨he.1, h.canonical he.2⟩)
  of_canonical {j m} hj hm := by
    cases j with
    | null | bool | number | string | array => cases hm
    | object ms =>
      obtain ⟨hkeys, hms⟩ := hasDistinctKeys_object.mp hj
      rw [canonical_object, nameMap_ofJson_eq_ok] at hm
      obtain ⟨bs, hbs, rfl⟩ := hm
      have hnodup : ((ms.map fun m => (m.1, m.2.canonical)).map Prod.fst).Nodup := by
        rwa [List.map_map]
      -- All members are decoded in the order of keys, so they are in the order of the tree.
      obtain ⟨es, hes, -⟩ := List.perm_comp_forall₂ (Entries.sorted_perm hnodup).symm hbs
      have heq : bs = Entries.sorted es :=
        List.right_unique_forall₂' rightUnique_takes hbs (Entries.matching_sorted hes)
      have hboth := (List.forall₂_and_left ms es).mpr ⟨hms, List.forall₂_map_left_iff.mp hes⟩
      refine nameMap_ofJson_eq_ok.mpr ⟨es, hboth.imp fun _ _ he => ?_, ?_⟩
      · exact ⟨he.2.1, h.of_canonical he.1 he.2.2⟩
      · rw [heq, ofList_sorted]

end Coherent

section Sources

variable {s : Source} {v : Value} {a : α}

theorem ofSource_eq_ok :
    d.ofSource s = .ok a ↔
      d.ofDocument maxDepth (Document.ofSource s).document = .ok a ∧
        (Document.ofSource s).surplus = false := by
  simp only [ofSource, bind_eq_ok]
  cases (Document.ofSource s).surplus <;> simp

theorem value_ofSource_eq_ok :
    value.ofSource s = .ok v ↔
      ∃ j, (Document.ofSource s).document.read maxDepth = .ok j ∧ j.toValue = v ∧
        (Document.ofSource s).surplus = false := by
  simp only [ofSource_eq_ok, value, map_eq_ok, refuse_eq_ok, ← and_assoc, exists_and_right]

/-- What decodes from a tree decodes from every text that is the document of the tree. -/
theorem FollowsTree.ofSource_of_document (h : d.FollowsTree) {j : Json}
    (hs : Document.ofSource s = ⟨Document.ofJson j, false⟩) (hdepth : j.nesting ≤ maxDepth)
    (ha : d.ofJson j = .ok a) : d.ofSource s = .ok a := by
  have hread : (Document.ofSource s).document.read maxDepth = .ok j := by
    rw [hs]
    exact Document.read_ofJson hdepth
  exact ofSource_eq_ok.mpr ⟨(h hread a).mpr ha, by rw [hs]⟩

namespace Coherent

/-- What is decoded straight from a text is also decoded from the value of the text. -/
theorem ofValue_of_ofSource (h : d.Coherent) (hv : value.ofSource s = .ok v)
    (ha : d.ofSource s = .ok a) : d.ofValue v = .ok a := by
  obtain ⟨j, hread, rfl, -⟩ := value_ofSource_eq_ok.mp hv
  exact h.canonical ((h.ofDocument_iff hread a).mp (ofSource_eq_ok.mp ha).1)

theorem ofSource_of_ofValue (h : d.Coherent) (hv : value.ofSource s = .ok v)
    (hdistinct : (Document.ofSource s).document.HasDistinctKeys) (ha : d.ofValue v = .ok a) :
    d.ofSource s = .ok a := by
  obtain ⟨j, hread, rfl, hsurplus⟩ := value_ofSource_eq_ok.mp hv
  have hj := h.of_canonical (Document.hasDistinctKeys_of_read hread hdistinct) ha
  exact ofSource_eq_ok.mpr ⟨(h.ofDocument_iff hread a).mpr hj, hsurplus⟩

end Coherent

end Sources

/-- Whatever is taken, within the depth, from a document that satisfies a condition has the
property. -/
def Ensures (d : Decoder α) (c : Document → Prop) (depth : Nat) (p : α → Prop) : Prop :=
  ∀ ⦃doc a⦄, c doc → d.ofDocument depth doc = .ok a → p a

section Ensures

variable {c : Document → Prop} {depth : Nat}

theorem ensures_value :
    value.Ensures (fun _ => True) depth fun v => v.json.nesting ≤ depth := by
  intro doc v _ hv
  obtain ⟨j, hread, rfl⟩ := map_eq_ok.mp hv
  exact nesting_canonical_le (Document.nesting_le_of_read (refuse_eq_ok.mp hread))

namespace Ensures

theorem of_forall {p : α → Prop} (hp : ∀ a, p a) : d.Ensures c depth p :=
  fun _ a _ _ => hp a

theorem imp {p q : α → Prop} (h : d.Ensures c depth p) (hpq : ∀ a, p a → q a) :
    d.Ensures c depth q :=
  fun _ a hc ha => hpq a (h hc ha)

protected theorem map {f : α → β} {p : β → Prop} (h : d.Ensures c depth fun a => p (f a)) :
    (d.map f).Ensures c depth p := by
  intro doc b hc hb
  obtain ⟨a, ha, rfl⟩ := map_eq_ok.mp hb
  exact h hc ha

theorem list (hparts : Document.Hereditary c) {p : α → Prop} (h : d.Ensures c depth p) :
    d.list.Ensures c (depth + 1) fun as => ∀ a ∈ as, p a := by
  intro doc as hc has
  cases doc with
  | list items stop =>
    obtain ⟨k, hk, -, hitems⟩ := list_ofDocument_eq_ok.mp has
    cases hk
    intro a ha
    obtain ⟨_, hitem, hdoc⟩ := exists_mem_of_forall₂ hitems ha
    exact h (hparts.list hc _ hitem) hdoc
  | null | bool | number | string | object | brokenLiteral | broken => cases has

theorem nameMap (hparts : Document.Hereditary c) {p : α → Prop} (h : d.Ensures c depth p) :
    d.nameMap.Ensures c (depth + 1) fun m => ∀ e ∈ m.entries, p e.2 := by
  intro doc m hc hm
  cases doc with
  | object members stop =>
    obtain ⟨k, es, hk, -, hmembers, rfl⟩ := nameMap_ofDocument_eq_ok.mp hm
    cases hk
    intro e he
    obtain ⟨_, hmember, htaken⟩ := exists_mem_of_forall₂ hmembers (Entries.mem_of_mem_sorted he)
    exact h (hparts.object hc _ hmember) htaken.2
  | null | bool | number | string | list | brokenLiteral | broken => cases hm

end Ensures

end Ensures

end Decoder

end ModelRegistry.Json
