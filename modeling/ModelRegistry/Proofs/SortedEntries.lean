import Mathlib.Data.List.Perm.Basic
import ModelRegistry.Names.Map

/-!
# Sorting entries

Sorting puts one entry after the other into a list that is in order. It loses only entries whose
name comes again later, and adds none. So it rearranges entries whose names are distinct, does
nothing to a list in ascending order, and takes lists that match name by name to such lists. What is
put under a name is found there, and under every other name what was there before.
-/

namespace ModelRegistry.Entries

variable {α β : Type}

/-- Puts all entries of a list, first to last, into another. -/
def putAll (es acc : List (String × α)) : List (String × α) :=
  es.foldl (fun acc e => put e.1 (fun _ => e.2) acc) acc

theorem putAll_cons (e : String × α) (es acc : List (String × α)) :
    putAll (e :: es) acc = putAll es (put e.1 (fun _ => e.2) acc) := rfl

section Matching

variable {R : α → β → Prop}

/-- Two entries of one name whose values are related. -/
def Match (R : α → β → Prop) (d : String × α) (e : String × β) : Prop :=
  d.1 = e.1 ∧ R d.2 e.2

theorem matching_put {name : String} {a : α} {b : β} (hab : R a b) {ds : List (String × α)}
    {es : List (String × β)} (h : List.Forall₂ (Match R) ds es) :
    List.Forall₂ (Match R) (put name (fun _ => a) ds) (put name (fun _ => b) es) := by
  induction h with
  | nil => exact .cons ⟨rfl, hab⟩ .nil
  | cons hde hrest ih =>
    rw [put, put, hde.1]
    split
    · exact .cons ⟨rfl, hab⟩ (.cons hde hrest)
    · split
      · exact .cons ⟨rfl, hab⟩ hrest
      · exact .cons hde ih

theorem matching_putAll {ds ds' : List (String × α)} {es es' : List (String × β)}
    (h : List.Forall₂ (Match R) ds es) (h' : List.Forall₂ (Match R) ds' es') :
    List.Forall₂ (Match R) (putAll ds ds') (putAll es es') := by
  induction h generalizing ds' es' with
  | nil => exact h'
  | @cons d e _ _ hde _ ih =>
    have hput : List.Forall₂ (Match R) (put d.1 (fun _ => d.2) ds')
        (put e.1 (fun _ => e.2) es') := by
      rw [hde.1]
      exact matching_put hde.2 h'
    exact ih hput

/-- Sorting looks at the names alone. -/
theorem matching_sorted {ds : List (String × α)} {es : List (String × β)}
    (h : List.Forall₂ (Match R) ds es) : List.Forall₂ (Match R) (sorted ds) (sorted es) :=
  matching_putAll h .nil

end Matching

theorem eq_or_mem_of_mem_put {name : String} {a : α} {es : List (String × α)} {e : String × α}
    (h : e ∈ put name (fun _ => a) es) : e = (name, a) ∨ e ∈ es := by
  induction es with
  | nil => exact .inl (List.mem_singleton.mp h)
  | cons d ds ih =>
    rw [put] at h
    split at h
    · exact List.mem_cons.mp h
    · split at h
      · exact (List.mem_cons.mp h).imp_right (List.mem_cons_of_mem _)
      · rcases List.mem_cons.mp h with rfl | h
        · exact .inr List.mem_cons_self
        · exact (ih h).imp_right (List.mem_cons_of_mem _)

theorem mem_of_mem_putAll {es acc : List (String × α)} {e : String × α} (h : e ∈ putAll es acc) :
    e ∈ es ∨ e ∈ acc := by
  induction es generalizing acc with
  | nil => exact .inr h
  | cons d es ih =>
    rcases ih h with h | h
    · exact .inl (List.mem_cons_of_mem _ h)
    · rcases eq_or_mem_of_mem_put h with rfl | h
      · exact .inl List.mem_cons_self
      · exact .inr h

theorem mem_of_mem_sorted {es : List (String × α)} {e : String × α} (h : e ∈ sorted es) :
    e ∈ es :=
  (mem_of_mem_putAll h).resolve_right List.not_mem_nil

theorem put_eq_append {name : String} {a : α} {es : List (String × α)}
    (h : ∀ e ∈ es, e.1 < name) : put name (fun _ => a) es = es ++ [(name, a)] := by
  induction es with
  | nil => rfl
  | cons e es ih =>
    obtain ⟨he, hes⟩ := List.forall_mem_cons.mp h
    rw [put, if_neg (String.lt_asymm he), if_neg (String.ne_of_lt he).symm, ih hes,
      List.cons_append]

theorem putAll_eq_append {es acc : List (String × α)} (h : Ascending (acc ++ es)) :
    putAll es acc = acc ++ es := by
  induction es generalizing acc with
  | nil => exact (List.append_nil acc).symm
  | cons e es ih =>
    have hlast : put e.1 (fun _ => e.2) acc = acc ++ [e] :=
      put_eq_append fun d hd => (List.pairwise_append.mp h).2.2 d hd e List.mem_cons_self
    have hsplit : acc ++ e :: es = acc ++ [e] ++ es := by simp
    rw [putAll_cons, hlast, hsplit]
    exact ih (hsplit ▸ h)

/-- Entries in ascending order are sorted. -/
theorem sorted_eq_self {es : List (String × α)} (h : Ascending es) : sorted es = es :=
  @putAll_eq_append _ es [] h

section Kinds

/-! Entries may be sorted along with others whose names are of another kind. -/

variable {p : String → Bool}

theorem perm_put {name : String} {a : α} {es : List (String × α)}
    (h : name ∉ es.map Prod.fst) : (put name (fun _ => a) es).Perm ((name, a) :: es) := by
  induction es with
  | nil => exact .refl _
  | cons e es ih =>
    rw [List.map_cons, List.mem_cons, not_or] at h
    rw [put, if_neg h.1]
    split
    · exact .refl _
    · exact ((ih h.2).cons e).trans (.swap _ _ _)

theorem filter_put_of_not {name : String} (h : p name = false) (a : α) (es : List (String × α)) :
    (put name (fun _ => a) es).filter (p ·.1) = es.filter (p ·.1) := by
  induction es with
  | nil => simp [put, h]
  | cons e es ih =>
    rw [put]
    split
    · simp [h]
    · split
      · next heq => simp [← heq, h]
      · rw [List.filter_cons, List.filter_cons, ih]

/-- An entry of the kind comes to those there were, if its name is new. -/
theorem filter_put_perm {e : String × α} {es : List (String × α)}
    (h : p e.1 = true → e.1 ∉ (es.filter (p ·.1)).map Prod.fst) :
    ((put e.1 (fun _ => e.2) es).filter (p ·.1)).Perm ((es ++ [e]).filter (p ·.1)) := by
  cases he : p e.1 with
  | false => simp [filter_put_of_not he, he]
  | true =>
    have hnew : e.1 ∉ es.map Prod.fst := by
      intro hmem
      obtain ⟨d, hd, hname⟩ := List.mem_map.mp hmem
      refine h he (List.mem_map.mpr ⟨d, List.mem_filter.mpr ⟨hd, ?_⟩, hname⟩)
      rw [hname, he]
    exact ((perm_put hnew).trans (List.perm_append_singleton e es).symm).filter _

theorem filter_putAll_perm {es acc : List (String × α)}
    (h : (((acc ++ es).filter (p ·.1)).map Prod.fst).Nodup) :
    ((putAll es acc).filter (p ·.1)).Perm ((acc ++ es).filter (p ·.1)) := by
  induction es generalizing acc with
  | nil => rw [List.append_nil]; exact .refl _
  | cons e es ih =>
    have hnew : p e.1 = true → e.1 ∉ (acc.filter (p ·.1)).map Prod.fst := by
      intro he hmem
      rw [List.filter_append, List.map_append, List.nodup_append] at h
      refine h.2.2 e.1 hmem e.1 ?_ rfl
      exact List.mem_map.mpr ⟨e, List.mem_filter.mpr ⟨List.mem_cons_self, he⟩, rfl⟩
    have hsplit : acc ++ e :: es = acc ++ [e] ++ es := by simp
    have hput : ((put e.1 (fun _ => e.2) acc ++ es).filter (p ·.1)).Perm
        ((acc ++ e :: es).filter (p ·.1)) := by
      rw [hsplit, List.filter_append, List.filter_append]
      exact (filter_put_perm hnew).append_right _
    exact (ih ((hput.map Prod.fst).nodup_iff.mpr h)).trans hput

/-- The entries of one kind keep together: if their names are distinct they are only rearranged,
whatever names of other kinds come between them, and how often. -/
theorem filter_sorted_perm {es : List (String × α)}
    (h : ((es.filter (p ·.1)).map Prod.fst).Nodup) :
    ((sorted es).filter (p ·.1)).Perm (es.filter (p ·.1)) :=
  @filter_putAll_perm _ p es [] h

end Kinds

theorem sorted_perm {es : List (String × α)} (h : (es.map Prod.fst).Nodup) :
    (sorted es).Perm es := by
  have hall (l : List (String × α)) : (l.filter fun _ => true) = l :=
    List.filter_eq_self.mpr fun _ _ => rfl
  have hperm := filter_sorted_perm (p := fun _ => true) (by rwa [hall es])
  rwa [hall, hall] at hperm

/-- Only the order of equal names counts. -/
theorem sorted_eq_of_perm {es es' : List (String × α)} (h : es.Perm es')
    (hnodup : (es.map Prod.fst).Nodup) : sorted es = sorted es' := by
  have hnodup' := (h.map Prod.fst).nodup_iff.mp hnodup
  have hperm := (sorted_perm hnodup).trans (h.trans (sorted_perm hnodup').symm)
  exact hperm.eq_of_pairwise (fun d e _ _ hde hed => absurd hed (String.lt_asymm hde))
    (ascending_sorted es) (ascending_sorted es')

section Lookup

variable {name other : String} {f : Option α → α} {es : List (String × α)}

/-- In ascending entries `put` finds the value of the name, and changes it. -/
theorem lookup_put_self_of_ascending (h : Ascending es) :
    (put name f es).lookup name = some (f (es.lookup name)) := by
  induction es with
  | nil => simp [put]
  | cons e es ih =>
    obtain ⟨he, hes⟩ := List.pairwise_cons.mp h
    rw [put]
    by_cases hlt : name < e.1
    · have hnone : (e :: es).lookup name = none := by
        refine List.lookup_eq_none_iff.mpr fun d hd => bne_iff_ne.mpr ?_
        rcases List.mem_cons.mp hd with rfl | hd
        · exact String.ne_of_lt hlt
        · exact String.ne_of_lt (String.lt_trans hlt (he d hd))
      rw [if_pos hlt, hnone, List.lookup_cons, beq_self_eq_true]
    · by_cases heq : name = e.1
      · rw [if_neg hlt, if_pos heq, heq, List.lookup_cons, List.lookup_cons, beq_self_eq_true]
      · rw [if_neg hlt, if_neg heq, List.lookup_cons, List.lookup_cons, beq_false_of_ne heq]
        exact ih hes

theorem lookup_put_of_ne (h : other ≠ name) :
    (put name f es).lookup other = es.lookup other := by
  induction es with
  | nil => simp [put, h]
  | cons e es ih =>
    rw [put]
    split
    · rw [List.lookup_cons, beq_false_of_ne h]
    · split
      · next heq =>
        rw [List.lookup_cons, List.lookup_cons, beq_false_of_ne h, beq_false_of_ne (heq ▸ h)]
      · rw [List.lookup_cons, List.lookup_cons, ih]

theorem put_put (a : α) :
    put name (fun _ => a) (put name (fun _ => a) es) = put name (fun _ => a) es := by
  induction es with
  | nil => simp [put]
  | cons e es ih =>
    by_cases hlt : name < e.1
    · simp [put, hlt]
    · by_cases heq : name = e.1
      · simp [put, heq]
      · simp [put, hlt, heq, ih]

end Lookup

end ModelRegistry.Entries

namespace ModelRegistry.NameMap

variable {α : Type} {name other : String} {a : α}

theorem get?_put_self (m : NameMap α) (f : Option α → α) :
    (m.put name f).get? name = some (f (m.get? name)) :=
  Entries.lookup_put_self_of_ascending m.ascending

theorem get?_put_of_ne (m : NameMap α) (f : Option α → α) (h : other ≠ name) :
    (m.put name f).get? other = m.get? other :=
  Entries.lookup_put_of_ne h

@[simp] theorem get?_insert_self (m : NameMap α) : (m.insert name a).get? name = some a :=
  m.get?_put_self _

theorem get?_insert_of_ne (m : NameMap α) (h : other ≠ name) :
    (m.insert name a).get? other = m.get? other :=
  m.get?_put_of_ne _ h

theorem insert_insert (m : NameMap α) : (m.insert name a).insert name a = m.insert name a :=
  NameMap.ext (Entries.put_put a)

end ModelRegistry.NameMap
