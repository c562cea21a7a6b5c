import ModelRegistry.Proofs.CompleteDocuments
import ModelRegistry.Proofs.Records

/-!
# Documents with members in another order

A document is reordered if the members of one object somewhere in it change their order. A decoder is
stable if it takes the same from a reordered document, as long as no object repeats a key. Values,
lists, maps and records are stable; for a record it matters that the changes which its fields make
do not touch each other.
-/

namespace ModelRegistry.Json

section Pointwise

variable {α β : Type} {R : α → β → Prop}

/-- In related lists one pair may be replaced by another. -/
theorem exists_of_forall₂_append_cons {before after : List α} {a : α} {bs : List β}
    (h : List.Forall₂ R (before ++ a :: after) bs) :
    ∃ xs b ys, bs = xs ++ b :: ys ∧ R a b ∧
      ∀ a' b', R a' b' → List.Forall₂ R (before ++ a' :: after) (xs ++ b' :: ys) := by
  induction before generalizing bs with
  | nil =>
    obtain ⟨b, ys, hab, hys, rfl⟩ := List.forall₂_cons_left_iff.mp h
    exact ⟨[], b, ys, rfl, hab, fun _ _ hab' => .cons hab' hys⟩
  | cons c before ih =>
    obtain ⟨e, bs, hce, hbs, rfl⟩ := List.forall₂_cons_left_iff.mp h
    obtain ⟨xs, b, ys, rfl, hab, hreplace⟩ := ih hbs
    exact ⟨e :: xs, b, ys, rfl, hab, fun a' b' hab' => .cons hce (hreplace a' b' hab')⟩

theorem forall₂_replace {before after : List α} {a a' : α} {bs : List β}
    (h : List.Forall₂ R (before ++ a :: after) bs) (ha : ∀ b, R a b → R a' b) :
    List.Forall₂ R (before ++ a' :: after) bs := by
  obtain ⟨xs, b, ys, rfl, hab, hreplace⟩ := exists_of_forall₂_append_cons h
  exact hreplace a' b (ha b hab)

end Pointwise

namespace Document

/-- One item of a list is replaced by a related one. -/
inductive InItem (R : Document → Document → Prop) : Document → Document → Prop
  | item {before after : List Document} {stop : Stop} {d d' : Document} (h : R d d') :
      InItem R (.list (before ++ d :: after) stop) (.list (before ++ d' :: after) stop)

/-- The value of one member of an object is replaced by a related one. -/
inductive InMember (R : Document → Document → Prop) : Document → Document → Prop
  | member {before after : List (Key × Document)} {stop : Stop} {key : Key} {d d' : Document}
      (h : R d d') :
      InMember R (.object (before ++ (key, d) :: after) stop)
        (.object (before ++ (key, d') :: after) stop)

/-- The members of one object in a document change their order. -/
inductive Reordered : Document → Document → Prop
  | here {members members' : List (Key × Document)} {stop : Stop} (h : members.Perm members') :
      Reordered (.object members stop) (.object members' stop)
  | item {before after : List Document} {stop : Stop} {d d' : Document} (h : Reordered d d') :
      Reordered (.list (before ++ d :: after) stop) (.list (before ++ d' :: after) stop)
  | member {before after : List (Key × Document)} {stop : Stop} {key : Key} {d d' : Document}
      (h : Reordered d d') :
      Reordered (.object (before ++ (key, d) :: after) stop)
        (.object (before ++ (key, d') :: after) stop)

section Replacement

variable {before after : List Document} {members members' : List (Key × Document)} {stop : Stop}
  {key : Key} {d d' : Document}

theorem Complete.replace_item (h : (list (before ++ d :: after) stop).Complete)
    (hd : d.Complete → d'.Complete) : (list (before ++ d' :: after) stop).Complete := by
  simp only [complete_list, List.forall_mem_append, List.forall_mem_cons] at h ⊢
  exact ⟨h.1, h.2.1, hd h.2.2.1, h.2.2.2⟩

theorem Complete.replace_member (h : (object (members ++ (key, d) :: members') stop).Complete)
    (hd : d.Complete → d'.Complete) : (object (members ++ (key, d') :: members') stop).Complete := by
  simp only [complete_object, List.forall_mem_append, List.forall_mem_cons] at h ⊢
  exact ⟨h.1, h.2.1, hd h.2.2.1, h.2.2.2⟩

theorem NoRepeats.replace_item (h : (list (before ++ d :: after) stop).NoRepeats)
    (hd : d.NoRepeats → d'.NoRepeats) : (list (before ++ d' :: after) stop).NoRepeats := by
  simp only [noRepeats_list, List.forall_mem_append, List.forall_mem_cons] at h ⊢
  exact ⟨h.1, hd h.2.1, h.2.2⟩

theorem NoRepeats.replace_member (h : (object (members ++ (key, d) :: members') stop).NoRepeats)
    (hd : d.NoRepeats → d'.NoRepeats) :
    (object (members ++ (key, d') :: members') stop).NoRepeats := by
  simp only [noRepeats_object, List.filterMap_append, List.filterMap_cons,
    List.forall_mem_append, List.forall_mem_cons] at h ⊢
  exact ⟨h.1, h.2.1, hd h.2.2.1, h.2.2.2⟩

end Replacement

namespace Reordered

variable {d d' : Document}

theorem symm (h : Reordered d d') : Reordered d' d := by
  induction h with
  | here h => exact .here h.symm
  | item _ ih => exact .item ih
  | member _ ih => exact .member ih

theorem complete (h : Reordered d d') (hd : d.Complete) : d'.Complete := by
  induction h with
  | here h =>
    obtain ⟨hstop, hmembers⟩ := complete_object.mp hd
    exact complete_object.mpr ⟨hstop, fun m hm => hmembers m (h.mem_iff.mpr hm)⟩
  | item _ ih => exact hd.replace_item ih
  | member _ ih => exact hd.replace_member ih

theorem noRepeats (h : Reordered d d') (hd : d.NoRepeats) : d'.NoRepeats := by
  induction h with
  | here h =>
    obtain ⟨hnames, hmembers⟩ := noRepeats_object.mp hd
    exact noRepeats_object.mpr ⟨(h.filterMap _).nodup_iff.mp hnames,
      fun m hm => hmembers m (h.mem_iff.mpr hm)⟩
  | item _ ih => exact hd.replace_item ih
  | member _ ih => exact hd.replace_member ih

end Reordered

end Document

namespace Document

variable {depth : Nat}

theorem names_of_forall₂ {α : Type} {members : List (Key × Document)} {es : List (String × α)}
    (h : List.Forall₂ (fun m e => m.1 = .ok e.1) members es) :
    members.filterMap (fun m => m.1.toOption) = es.map Prod.fst := by
  induction h with
  | nil => rfl
  | cons hme _ ih =>
    rw [List.map_cons, ← ih, List.filterMap_cons, hme]
    rfl

/-- A reordered document is read as a tree with the same meaning. -/
theorem Reordered.exists_read {d d' : Document} {j : Json} (h : Reordered d d')
    (hd : d.NoRepeats) (hread : d.read depth = .ok j) :
    ∃ j', d'.read depth = .ok j' ∧ j'.canonical = j.canonical := by
  induction h generalizing depth j with
  | here hperm =>
    cases read_eq_ok.mp hread with
    | object hms =>
      obtain ⟨ms, hms', hperm'⟩ := List.perm_comp_forall₂ hperm.symm hms
      refine ⟨.object ms, read_eq_ok.mpr (.object hms'), ?_⟩
      have hnames := (noRepeats_object.mp hd).1
      rw [names_of_forall₂ (hms.imp fun _ _ hm => hm.1)] at hnames
      rw [canonical_object, canonical_object]
      refine (congrArg _ (Entries.sorted_eq_of_perm (hperm'.symm.map _) ?_)).symm
      rwa [List.map_map]
  | item _ ih =>
    cases read_eq_ok.mp hread with
    | list hjs =>
      obtain ⟨xs, j, ys, rfl, hj, hreplace⟩ := exists_of_forall₂_append_cons hjs
      have hitem := noRepeats_list.mp hd _ (List.mem_append_cons_self)
      obtain ⟨j', hj', hcanonical⟩ := ih hitem hj
      refine ⟨_, read_eq_ok.mpr (.list (hreplace _ j' hj')), ?_⟩
      simp [canonical_array, hcanonical]
  | member _ ih =>
    cases read_eq_ok.mp hread with
    | object hms =>
      obtain ⟨xs, m, ys, rfl, ⟨hkey, hj⟩, hreplace⟩ := exists_of_forall₂_append_cons hms
      have hmember := (noRepeats_object.mp hd).2 _ (List.mem_append_cons_self)
      obtain ⟨j', hj', hcanonical⟩ := ih hmember hj
      refine ⟨_, read_eq_ok.mpr (.object (hreplace _ (m.1, j') ⟨hkey, hj'⟩)), ?_⟩
      simp [canonical_object, hcanonical]

end Document

end ModelRegistry.Json
