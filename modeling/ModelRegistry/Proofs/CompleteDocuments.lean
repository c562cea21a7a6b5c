import ModelRegistry.Proofs.Documents

/-!
# Documents with nothing broken off

What it is for a property to hold of every part of a document. A document is complete if nothing in
it breaks off; these are the documents that can be skipped. An object repeats no key if those of its
keys that are texts are distinct.
-/

namespace ModelRegistry.Json.Document

mutual

/-- A property holds of a document and of every document in it. -/
def All (p : Document → Prop) : Document → Prop
  | .list items stop => p (.list items stop) ∧ AllItems p items
  | .object members stop => p (.object members stop) ∧ AllMembers p members
  | d => p d

def AllItems (p : Document → Prop) : List Document → Prop
  | [] => True
  | d :: ds => d.All p ∧ AllItems p ds

def AllMembers (p : Document → Prop) : List (Key × Document) → Prop
  | [] => True
  | (_, d) :: ms => d.All p ∧ AllMembers p ms

end

section Decidable

variable {p : Document → Prop} [DecidablePred p]

mutual

def decidableAll : (d : Document) → Decidable (d.All p)
  | .list items _ => @instDecidableAnd _ _ inferInstance (decidableAllItems items)
  | .object members _ => @instDecidableAnd _ _ inferInstance (decidableAllMembers members)
  | .null => inferInstanceAs (Decidable (p .null))
  | .bool b => inferInstanceAs (Decidable (p (.bool b)))
  | .number n => inferInstanceAs (Decidable (p (.number n)))
  | .string s => inferInstanceAs (Decidable (p (.string s)))
  | .brokenLiteral b => inferInstanceAs (Decidable (p (.brokenLiteral b)))
  | .broken b => inferInstanceAs (Decidable (p (.broken b)))

def decidableAllItems : (ds : List Document) → Decidable (AllItems p ds)
  | [] => .isTrue trivial
  | d :: ds => @instDecidableAnd _ _ (decidableAll d) (decidableAllItems ds)

def decidableAllMembers : (ms : List (Key × Document)) → Decidable (AllMembers p ms)
  | [] => .isTrue trivial
  | (_, d) :: ms => @instDecidableAnd _ _ (decidableAll d) (decidableAllMembers ms)

end

instance (d : Document) : Decidable (d.All p) := decidableAll d

end Decidable

theorem all_list {p : Document → Prop} {items : List Document} {stop : Stop} :
    (list items stop).All p ↔ p (.list items stop) ∧ ∀ d ∈ items, d.All p := by
  have hitems (ds : List Document) : AllItems p ds ↔ ∀ d ∈ ds, d.All p := by
    induction ds with
    | nil => simp [AllItems]
    | cons d ds ih => simp [AllItems, ih]
  rw [All, hitems]

theorem all_object {p : Document → Prop} {members : List (Key × Document)} {stop : Stop} :
    (object members stop).All p ↔ p (.object members stop) ∧ ∀ m ∈ members, m.2.All p := by
  have hmembers (ms : List (Key × Document)) : AllMembers p ms ↔ ∀ m ∈ ms, m.2.All p := by
    induction ms with
    | nil => simp [AllMembers]
    | cons m ms ih => obtain ⟨k, d⟩ := m; simp [AllMembers, ih]
  rw [All, hmembers]

/-- The document itself does not break off; what is in it may. -/
def IsWhole : Document → Prop
  | .list _ stop | .object _ stop => stop = .closed
  | .brokenLiteral _ | .broken _ => False
  | _ => True

instance : DecidablePred IsWhole
  | .list _ stop => inferInstanceAs (Decidable (stop = .closed))
  | .object _ stop => inferInstanceAs (Decidable (stop = .closed))
  | .brokenLiteral _ | .broken _ => .isFalse id
  | .null | .bool _ | .number _ | .string _ => .isTrue trivial

/-- Nothing in a document breaks off. -/
def Complete (d : Document) : Prop :=
  d.All IsWhole

instance (d : Document) : Decidable d.Complete :=
  inferInstanceAs (Decidable (d.All IsWhole))

theorem complete_list {items : List Document} {stop : Stop} :
    (list items stop).Complete ↔ stop = .closed ∧ ∀ d ∈ items, d.Complete :=
  all_list

theorem complete_object {members : List (Key × Document)} {stop : Stop} :
    (object members stop).Complete ↔ stop = .closed ∧ ∀ m ∈ members, m.2.Complete :=
  all_object

/-- What can be skipped is what is complete. -/
theorem skip_eq_ok {d : Document} : d.skip = .ok () ↔ d.Complete := by
  induction d using Document.induction with
  | null | bool | number | string => exact iff_of_true rfl trivial
  | list items stop ih =>
    have hitems : (∀ d ∈ items, d.skip = .ok ()) ↔ ∀ d ∈ items, d.Complete :=
      forall_congr' fun d => imp_congr_right (ih d)
    rw [complete_list, ← hitems]
    simp [skip, bind_eq_ok, skipItems_eq_ok, loose_eq_ok, and_comm]
  | object members stop ih =>
    have hmembers : (∀ m ∈ members, m.2.skip = .ok ()) ↔ ∀ m ∈ members, m.2.Complete :=
      forall_congr' fun m => imp_congr_right (ih m)
    rw [complete_object, ← hmembers]
    simp [skip, bind_eq_ok, skipMembers_eq_ok, loose_eq_ok, and_comm]
  | brokenLiteral | broken =>
    refine iff_of_false (fun h => ?_) id
    cases h

/-- Those keys of the object itself that are texts are distinct. -/
def HasDistinctNames : Document → Prop
  | .object members _ => (members.filterMap fun m => m.1.toOption).Nodup
  | _ => True

instance : DecidablePred HasDistinctNames
  | .object members _ =>
    inferInstanceAs (Decidable (members.filterMap fun m => m.1.toOption).Nodup)
  | .list _ _ | .brokenLiteral _ | .broken _ | .null | .bool _ | .number _ | .string _ =>
    .isTrue trivial

/-- No object of a document repeats a key. -/
def NoRepeats (d : Document) : Prop :=
  d.All HasDistinctNames

instance (d : Document) : Decidable d.NoRepeats :=
  inferInstanceAs (Decidable (d.All HasDistinctNames))

theorem noRepeats_list {items : List Document} {stop : Stop} :
    (list items stop).NoRepeats ↔ ∀ d ∈ items, d.NoRepeats :=
  all_list.trans (and_iff_right trivial)

theorem noRepeats_object {members : List (Key × Document)} {stop : Stop} :
    (object members stop).NoRepeats ↔
      (members.filterMap fun m => m.1.toOption).Nodup ∧ ∀ m ∈ members, m.2.NoRepeats :=
  all_object

end ModelRegistry.Json.Document
