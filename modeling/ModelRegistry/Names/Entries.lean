/-!
# Entries in ascending order of names

A list of named values is *ascending* when every name is smaller, by code point, than all names
after it; in particular no name occurs twice. `put` sets the value of one name and keeps the list
ascending, `sorted` puts any list of entries in order, the last value of a name winning.
-/

namespace ModelRegistry

theorem name_lt_of_not_lt_of_ne {a b : String} (hlt : ¬ a < b) (hne : a ≠ b) : b < a :=
  Decidable.byContradiction fun h =>
    hne (String.le_antisymm (String.not_lt.1 h) (String.not_lt.1 hlt))

namespace Entries

variable {α : Type}

abbrev Ascending (es : List (String × α)) : Prop :=
  es.Pairwise fun a b => a.1 < b.1

/-- Sets the value of one name to what `f` makes of the value it had. -/
def put (name : String) (f : Option α → α) : List (String × α) → List (String × α)
  | [] => [(name, f none)]
  | e :: es =>
    if name < e.1 then (name, f none) :: e :: es
    else if name = e.1 then (name, f (some e.2)) :: es
    else e :: put name f es

def sorted (es : List (String × α)) : List (String × α) :=
  es.foldl (fun acc e => put e.1 (fun _ => e.2) acc) []

theorem mem_put {name : String} {f : Option α → α} {es : List (String × α)} {e : String × α}
    (h : e ∈ put name f es) : e.1 = name ∨ e ∈ es := by
  induction es with
  | nil => exact .inl (by simp only [put, List.mem_singleton] at h; rw [h])
  | cons d ds ih =>
    rw [put] at h
    split at h
    · rcases List.mem_cons.1 h with rfl | h
      · exact .inl rfl
      · exact .inr h
    · split at h
      · rcases List.mem_cons.1 h with rfl | h
        · exact .inl rfl
        · exact .inr (List.mem_cons_of_mem _ h)
      · rcases List.mem_cons.1 h with rfl | h
        · exact .inr (List.mem_cons_self ..)
        · exact (ih h).imp_right (List.mem_cons_of_mem _)

theorem ascending_put (name : String) (f : Option α → α) {es : List (String × α)}
    (h : Ascending es) : Ascending (put name f es) := by
  induction es with
  | nil => exact List.pairwise_singleton _ _
  | cons d ds ih =>
    obtain ⟨hd, hds⟩ := List.pairwise_cons.1 h
    rw [put]
    split
    · next hlt =>
      refine List.pairwise_cons.2 ⟨fun e he => ?_, h⟩
      rcases List.mem_cons.1 he with rfl | he
      · exact hlt
      · exact String.lt_trans hlt (hd e he)
    · next hge =>
      split
      · next heq => exact List.pairwise_cons.2 ⟨fun e he => heq ▸ hd e he, hds⟩
      · next hne =>
        refine List.pairwise_cons.2 ⟨fun e he => ?_, ih hds⟩
        rcases mem_put he with hname | he
        · exact hname ▸ name_lt_of_not_lt_of_ne hge hne
        · exact hd e he

theorem ascending_foldl_put (es : List (String × α)) {acc : List (String × α)}
    (h : Ascending acc) :
    Ascending (es.foldl (fun acc e => put e.1 (fun _ => e.2) acc) acc) := by
  induction es generalizing acc with
  | nil => exact h
  | cons e es ih => exact ih (ascending_put _ _ h)

theorem ascending_sorted (es : List (String × α)) : Ascending (sorted es) :=
  ascending_foldl_put es .nil

end Entries

end ModelRegistry
