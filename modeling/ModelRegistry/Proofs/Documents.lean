import Mathlib.Data.List.Nodup
import ModelRegistry.Json.Decoder
import ModelRegistry.Proofs.Trees

/-!
# Documents that can be read as a whole

A document can be read as a tree within some depth if nothing in it breaks off and it nests no
deeper. `Reads` is the document and its tree side by side, one case for each kind of value. The
document of a tree, complete and without faults, reads as that tree, and as a document it repeats a
key only where the tree does.
-/

namespace ModelRegistry.Json

section Success

variable {ε α β : Type}

theorem bind_eq_ok {x : Except ε α} {f : α → Except ε β} {b : β} :
    x >>= f = .ok b ↔ ∃ a, x = .ok a ∧ f a = .ok b := by
  cases x <;> simp [bind, Except.bind]

theorem map_eq_ok {f : α → β} {x : Except ε α} {b : β} :
    f <$> x = .ok b ↔ ∃ a, x = .ok a ∧ f a = b := by
  cases x <;> simp

@[simp] theorem refuse_ok (a : α) : refuse (.ok a) = .ok a := rfl

@[simp] theorem refuse_error (f : Fault) : refuse (.error f : Except Fault α) = .error (.fault f) :=
  rfl

theorem refuse_eq_ok {x : Except Fault α} {a : α} : refuse x = .ok a ↔ x = .ok a := by
  cases x <;> simp

/-- What goes through a list and stops at the first error takes the list position by position. -/
theorem traverse_eq_ok {f : α → Except ε β} {R : α → β → Prop}
    (hR : ∀ a b, f a = .ok b ↔ R a b) (traverse : List α → Except ε (List β))
    (hnil : traverse [] = .ok [])
    (hcons : ∀ a as, traverse (a :: as) = f a >>= fun b => do return b :: (← traverse as))
    {as : List α} {bs : List β} : traverse as = .ok bs ↔ List.Forall₂ R as bs := by
  induction as generalizing bs with
  | nil => simp [hnil, eq_comm]
  | cons a as ih =>
    simp only [hcons, bind_eq_ok, hR, ih, List.forall₂_cons_left_iff]
    exact ⟨fun ⟨b, hb, bs', hbs, h⟩ => ⟨b, bs', hb, hbs, (Except.ok.inj h).symm⟩,
      fun ⟨b, bs', hb, hbs, h⟩ => ⟨b, hb, bs', hbs, h ▸ rfl⟩⟩

theorem traverse_members_eq_ok {κ δ : Type} {key : κ → Except ε String} {f : δ → Except ε β}
    {K : κ → String → Prop} (hkey : ∀ k name, key k = .ok name ↔ K k name)
    (traverse : List (κ × δ) → Except ε (List (String × β))) (hnil : traverse [] = .ok [])
    (hcons : ∀ k d ms, traverse ((k, d) :: ms) = do
      let name ← key k
      let b ← f d
      return (name, b) :: (← traverse ms))
    {ms : List (κ × δ)} {es : List (String × β)} :
    traverse ms = .ok es ↔ List.Forall₂ (fun m e => K m.1 e.1 ∧ f m.2 = .ok e.2) ms es := by
  have hmember (m : κ × δ) (e : String × β) :
      (do return (← key m.1, ← f m.2)) = Except.ok (ε := ε) e ↔ K m.1 e.1 ∧ f m.2 = .ok e.2 := by
    simp only [bind_eq_ok, hkey]
    constructor
    · rintro ⟨name, hname, b, hb, h⟩
      cases h
      exact ⟨hname, hb⟩
    · rintro ⟨hname, hb⟩
      exact ⟨e.1, hname, e.2, hb, rfl⟩
  refine traverse_eq_ok hmember traverse hnil fun m ms => ?_
  rw [hcons]
  cases key m.1 <;> cases f m.2 <;> rfl

end Success

theorem exists_mem_of_forall₂ {α β : Type} {R : α → β → Prop} {as : List α} {bs : List β}
    (h : List.Forall₂ R as bs) {b : β} (hb : b ∈ bs) : ∃ a ∈ as, R a b := by
  induction h with
  | nil => cases hb
  | cons hab _ ih =>
    rcases List.mem_cons.mp hb with rfl | hb
    · exact ⟨_, List.mem_cons_self, hab⟩
    · obtain ⟨a, ha, hR⟩ := ih hb
      exact ⟨a, List.mem_cons_of_mem _ ha, hR⟩

theorem exists_forall₂_iff {α β : Type} {R : α → β → Prop} {as : List α} :
    (∃ bs, List.Forall₂ R as bs) ↔ ∀ a ∈ as, ∃ b, R a b := by
  induction as with
  | nil => simp
  | cons a as ih =>
    rw [List.forall_mem_cons, ← ih]
    constructor
    · rintro ⟨_, _ | ⟨hb, hbs⟩⟩
      exact ⟨⟨_, hb⟩, _, hbs⟩
    · rintro ⟨⟨b, hb⟩, bs, hbs⟩
      exact ⟨b :: bs, .cons hb hbs⟩

theorem strict_eq_ok {stop : Stop} {u : Unit} : stop.strict = .ok u ↔ stop = .closed := by
  cases stop <;> simp [Stop.strict]

theorem descend_eq_ok {depth k : Nat} : descend depth = .ok k ↔ depth = k + 1 := by
  cases depth <;> simp [descend]

namespace Document

@[elab_as_elim]
theorem induction {P : Document → Prop} (null : P .null) (bool : ∀ b, P (.bool b))
    (number : ∀ n, P (.number n)) (string : ∀ s, P (.string s))
    (list : ∀ items stop, (∀ d ∈ items, P d) → P (.list items stop))
    (object : ∀ members stop, (∀ m ∈ members, P m.2) → P (.object members stop))
    (brokenLiteral : ∀ b, P (.brokenLiteral b)) (broken : ∀ b, P (.broken b))
    (d : Document) : P d :=
  @Document.rec P (fun items => ∀ d ∈ items, P d) (fun members => ∀ m ∈ members, P m.2)
    (fun m => P m.2) null bool number string list object brokenLiteral broken
    (List.forall_mem_nil _) (fun _ _ hd hds => List.forall_mem_cons.mpr ⟨hd, hds⟩)
    (List.forall_mem_nil _) (fun _ _ hm hms => List.forall_mem_cons.mpr ⟨hm, hms⟩)
    (fun _ _ hd => hd) d

/-- A member of a document and the member of a tree that it reads as. -/
def ReadsMember (depth : Nat) (m : Key × Document) (n : String × Json) : Prop :=
  m.1 = .ok n.1 ∧ m.2.read depth = .ok n.2

/-- A document and the tree that it reads as. -/
inductive Reads : Nat → Document → Json → Prop
  | null {depth : Nat} : Reads depth .null .null
  | bool {depth : Nat} (b : Bool) : Reads depth (.bool b) (.bool b)
  | number {depth : Nat} (n : Number) : Reads depth (.number (.ok n)) (.number n)
  | string {depth : Nat} (s : String) : Reads depth (.string (.ok s)) (.string s)
  | list {depth : Nat} {items : List Document} {js : List Json}
      (h : List.Forall₂ (fun d j => d.read depth = .ok j) items js) :
      Reads (depth + 1) (.list items .closed) (.array js)
  | object {depth : Nat} {members : List (Key × Document)} {ms : List (String × Json)}
      (h : List.Forall₂ (ReadsMember depth) members ms) :
      Reads (depth + 1) (.object members .closed) (.object ms)

variable {depth : Nat}

theorem readItems_eq_ok {items : List Document} {js : List Json} :
    readItems depth items = .ok js ↔
      List.Forall₂ (fun d j => d.read depth = .ok j) items js :=
  traverse_eq_ok (fun _ _ => .rfl) (readItems depth) rfl fun _ _ => rfl

theorem readMembers_eq_ok {members : List (Key × Document)} {ms : List (String × Json)} :
    readMembers depth members = .ok ms ↔ List.Forall₂ (ReadsMember depth) members ms :=
  traverse_members_eq_ok (fun _ _ => .rfl) (readMembers depth) rfl fun _ _ _ => rfl

theorem read_eq_ok {d : Document} {j : Json} : d.read depth = .ok j ↔ Reads depth d j := by
  constructor
  · intro h
    cases d with
    | null => cases h; exact .null
    | bool b => cases h; exact .bool b
    | number n =>
      obtain ⟨m, rfl, rfl⟩ := map_eq_ok.mp h
      exact .number m
    | string s =>
      obtain ⟨t, rfl, rfl⟩ := map_eq_ok.mp h
      exact .string t
    | list items stop =>
      simp only [read, bind_eq_ok, descend_eq_ok, strict_eq_ok, readItems_eq_ok] at h
      obtain ⟨k, rfl, js, hjs, -, rfl, hj⟩ := h
      cases hj
      exact .list hjs
    | object members stop =>
      simp only [read, bind_eq_ok, descend_eq_ok, strict_eq_ok, readMembers_eq_ok] at h
      obtain ⟨k, rfl, ms, hms, -, rfl, hj⟩ := h
      cases hj
      exact .object hms
    | brokenLiteral b => cases h
    | broken b => cases h
  · intro h
    cases h with
    | null | bool | number | string => rfl
    | list h =>
      simp only [read, bind_eq_ok, descend_eq_ok, strict_eq_ok, readItems_eq_ok]
      exact ⟨_, rfl, _, h, (), trivial, rfl⟩
    | object h =>
      simp only [read, bind_eq_ok, descend_eq_ok, strict_eq_ok, readMembers_eq_ok]
      exact ⟨_, rfl, _, h, (), trivial, rfl⟩

theorem loose_eq_ok {stop : Stop} {u : Unit} : stop.loose = .ok u ↔ stop = .closed := by
  cases stop <;> simp [Stop.loose]

theorem skipItems_eq_ok {items : List Document} {u : Unit} :
    skipItems items = .ok u ↔ ∀ d ∈ items, d.skip = .ok () := by
  induction items with
  | nil => exact iff_of_true rfl (List.forall_mem_nil _)
  | cons d ds ih => simp [skipItems, bind_eq_ok, ih, Unique.exists_iff]

theorem skipMembers_eq_ok {members : List (Key × Document)} {u : Unit} :
    skipMembers members = .ok u ↔ ∀ m ∈ members, m.2.skip = .ok () := by
  induction members with
  | nil => exact iff_of_true rfl (List.forall_mem_nil _)
  | cons m ms ih => simp [skipMembers, bind_eq_ok, ih, Unique.exists_iff]

/-- What can be read can be skipped. -/
theorem skip_of_read {d : Document} {j : Json} (h : d.read depth = .ok j) : d.skip = .ok () := by
  induction d using Document.induction generalizing depth j with
  | null | bool | number | string => rfl
  | list items stop ih =>
    cases read_eq_ok.mp h with
    | list hjs =>
      have hitems : skipItems items = .ok () := by
        refine skipItems_eq_ok.mpr fun d hd => ?_
        obtain ⟨j, -, hj⟩ := exists_mem_of_forall₂ hjs.flip hd
        exact ih d hd hj
      rw [skip, hitems]
      rfl
  | object members stop ih =>
    cases read_eq_ok.mp h with
    | object hms =>
      have hmembers : skipMembers members = .ok () := by
        refine skipMembers_eq_ok.mpr fun m hm => ?_
        obtain ⟨n, -, hn⟩ := exists_mem_of_forall₂ hms.flip hm
        exact ih m hm hn.2
      rw [skip, hmembers]
      rfl
  | brokenLiteral | broken => cases h

theorem nesting_le_of_read {d : Document} {j : Json} (h : d.read depth = .ok j) :
    j.nesting ≤ depth := by
  induction d using Document.induction generalizing depth j with
  | null | bool | number | string =>
    cases read_eq_ok.mp h
    exact Nat.zero_le _
  | list items stop ih =>
    cases read_eq_ok.mp h with
    | list hjs =>
      rw [nesting_array_le]
      intro j hj
      obtain ⟨d, hd, hread⟩ := exists_mem_of_forall₂ hjs hj
      exact ih d hd hread
  | object members stop ih =>
    cases read_eq_ok.mp h with
    | object hms =>
      rw [nesting_object_le]
      intro m hm
      obtain ⟨n, hn, hread⟩ := exists_mem_of_forall₂ hms hm
      exact ih n hn hread.2
  | brokenLiteral | broken => cases h

mutual

/-- No object of a document has two members of one key. -/
def HasDistinctKeys : Document → Prop
  | .list items _ => DistinctItems items
  | .object members _ => (members.map Prod.fst).Nodup ∧ DistinctMembers members
  | _ => True

def DistinctItems : List Document → Prop
  | [] => True
  | d :: ds => d.HasDistinctKeys ∧ DistinctItems ds

def DistinctMembers : List (Key × Document) → Prop
  | [] => True
  | (_, d) :: ms => d.HasDistinctKeys ∧ DistinctMembers ms

end

mutual

def decidableHasDistinctKeys : (d : Document) → Decidable d.HasDistinctKeys
  | .list items _ => decidableDistinctItems items
  | .object members _ =>
    @instDecidableAnd _ _ inferInstance (decidableDistinctMembers members)
  | .null | .bool _ | .number _ | .string _ | .brokenLiteral _ | .broken _ => .isTrue trivial

def decidableDistinctItems : (ds : List Document) → Decidable (DistinctItems ds)
  | [] => .isTrue trivial
  | d :: ds => @instDecidableAnd _ _ (decidableHasDistinctKeys d) (decidableDistinctItems ds)

def decidableDistinctMembers :
    (ms : List (Key × Document)) → Decidable (DistinctMembers ms)
  | [] => .isTrue trivial
  | (_, d) :: ms =>
    @instDecidableAnd _ _ (decidableHasDistinctKeys d) (decidableDistinctMembers ms)

end

instance (d : Document) : Decidable d.HasDistinctKeys := decidableHasDistinctKeys d

theorem distinctItems_iff {items : List Document} :
    DistinctItems items ↔ ∀ d ∈ items, d.HasDistinctKeys := by
  induction items with
  | nil => simp [DistinctItems]
  | cons d ds ih => simp [DistinctItems, ih]

theorem distinctMembers_iff {members : List (Key × Document)} :
    DistinctMembers members ↔ ∀ m ∈ members, m.2.HasDistinctKeys := by
  induction members with
  | nil => simp [DistinctMembers]
  | cons m ms ih => obtain ⟨k, d⟩ := m; simp [DistinctMembers, ih]

theorem map_key_of_reads {members : List (Key × Document)} {ms : List (String × Json)}
    (h : List.Forall₂ (ReadsMember depth) members ms) :
    members.map Prod.fst = (ms.map Prod.fst).map Except.ok := by
  induction h with
  | nil => rfl
  | cons hm _ ih => rw [List.map_cons, List.map_cons, List.map_cons, ih, hm.1]

/-- A tree repeats a key only where its document does. -/
theorem hasDistinctKeys_of_read {d : Document} {j : Json} (h : d.read depth = .ok j)
    (hd : d.HasDistinctKeys) : j.HasDistinctKeys := by
  induction d using Document.induction generalizing depth j with
  | null | bool | number | string =>
    cases read_eq_ok.mp h
    trivial
  | list items stop ih =>
    cases read_eq_ok.mp h with
    | list hjs =>
      refine hasDistinctKeys_array.mpr fun j hj => ?_
      obtain ⟨d, hmem, hread⟩ := exists_mem_of_forall₂ hjs hj
      exact ih d hmem hread (distinctItems_iff.mp hd d hmem)
  | object members stop ih =>
    cases read_eq_ok.mp h with
    | object hms =>
      refine hasDistinctKeys_object.mpr ⟨?_, fun m hm => ?_⟩
      · have hkeys := hd.1
        rw [map_key_of_reads hms] at hkeys
        exact List.Nodup.of_map Except.ok hkeys
      · obtain ⟨n, hmem, hread⟩ := exists_mem_of_forall₂ hms hm
        exact ih n hmem hread.2 (distinctMembers_iff.mp hd.2 n hmem)
  | brokenLiteral | broken => cases h

mutual

/-- A tree as a document that is complete and has no faults. -/
def ofJson : Json → Document
  | .null => .null
  | .bool b => .bool b
  | .number n => .number (.ok n)
  | .string s => .string (.ok s)
  | .array items => .list (ofItems items) .closed
  | .object members => .object (ofMembers members) .closed

def ofItems : List Json → List Document
  | [] => []
  | j :: js => ofJson j :: ofItems js

def ofMembers : List (String × Json) → List (Key × Document)
  | [] => []
  | (k, j) :: ms => (.ok k, ofJson j) :: ofMembers ms

end

theorem ofJson_array (items : List Json) :
    ofJson (.array items) = .list (items.map ofJson) .closed := by
  have hitems (js : List Json) : ofItems js = js.map ofJson := by
    induction js with
    | nil => rfl
    | cons j js ih => rw [ofItems, ih, List.map_cons]
  rw [ofJson, hitems]

theorem ofJson_object (members : List (String × Json)) :
    ofJson (.object members) = .object (members.map fun m => (.ok m.1, ofJson m.2)) .closed := by
  have hmembers (ms : List (String × Json)) :
      ofMembers ms = ms.map fun m => (.ok m.1, ofJson m.2) := by
    induction ms with
    | nil => rfl
    | cons m ms ih => rw [ofMembers, ih, List.map_cons]
  rw [ofJson, hmembers]

/-- The document of a tree reads as the tree, if the depth that is left allows it. -/
theorem read_ofJson {j : Json} (h : j.nesting ≤ depth) : (ofJson j).read depth = .ok j := by
  rw [read_eq_ok]
  induction j using Json.induction generalizing depth with
  | null => exact .null
  | bool b => exact .bool b
  | number n => exact .number n
  | string s => exact .string s
  | array items ih =>
    obtain _ | depth := depth
    · exact absurd h (Nat.not_succ_le_zero _)
    · rw [ofJson_array]
      refine .list (List.forall₂_map_left_iff.mpr (List.forall₂_same.mpr fun j hj => ?_))
      exact read_eq_ok.mpr (ih j hj (nesting_array_le.mp h j hj))
  | object members ih =>
    obtain _ | depth := depth
    · exact absurd h (Nat.not_succ_le_zero _)
    · rw [ofJson_object]
      refine .object (List.forall₂_map_left_iff.mpr (List.forall₂_same.mpr fun m hm => ?_))
      exact ⟨rfl, read_eq_ok.mpr (ih m hm (nesting_object_le.mp h m hm))⟩

end Document

end ModelRegistry.Json
