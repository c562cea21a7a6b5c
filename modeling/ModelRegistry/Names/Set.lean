import ModelRegistry.Names.Entries

/-!
# Sets of names

A finite set of names, listed in ascending order without repeats. The order is part of the type, so
two sets with the same members are equal.
-/

namespace ModelRegistry

structure NameSet where
  names : List String
  ascending : names.Pairwise (· < ·)
  deriving DecidableEq

namespace NameSet

def empty : NameSet := ⟨[], .nil⟩

instance : Inhabited NameSet := ⟨empty⟩

@[ext] theorem ext {s t : NameSet} (h : s.names = t.names) : s = t := by
  cases s; cases t; simp_all

def place (name : String) : List String → List String
  | [] => [name]
  | n :: ns =>
    if name < n then name :: n :: ns
    else if name = n then n :: ns
    else n :: place name ns

theorem mem_place {name m : String} {ns : List String} :
    m ∈ place name ns ↔ m = name ∨ m ∈ ns := by
  induction ns with
  | nil => simp [place]
  | cons n ns ih =>
    rw [place]
    split
    · simp
    · split
      · next h => subst h; simp
      · simp [ih, or_left_comm]

theorem ascending_place (name : String) {ns : List String} (h : ns.Pairwise (· < ·)) :
    (place name ns).Pairwise (· < ·) := by
  induction ns with
  | nil => exact List.pairwise_singleton _ _
  | cons n ns ih =>
    obtain ⟨hn, hns⟩ := List.pairwise_cons.1 h
    rw [place]
    split
    · next hlt =>
      refine List.pairwise_cons.2 ⟨fun m hm => ?_, h⟩
      rcases List.mem_cons.1 hm with rfl | hm
      · exact hlt
      · exact String.lt_trans hlt (hn m hm)
    · next hge =>
      split
      · exact h
      · next hne =>
        refine List.pairwise_cons.2 ⟨fun m hm => ?_, ih hns⟩
        rcases mem_place.1 hm with rfl | hm
        · exact name_lt_of_not_lt_of_ne hge hne
        · exact hn m hm

def insert (s : NameSet) (name : String) : NameSet :=
  ⟨place name s.names, ascending_place name s.ascending⟩

def ofList (ns : List String) : NameSet :=
  ns.foldl insert empty

def filter (s : NameSet) (p : String → Bool) : NameSet :=
  ⟨s.names.filter p, s.ascending.filter _⟩

instance : Membership String NameSet := ⟨fun s name => name ∈ s.names⟩

instance (name : String) (s : NameSet) : Decidable (name ∈ s) :=
  inferInstanceAs (Decidable (name ∈ s.names))

@[simp] theorem mem_insert {s : NameSet} {name m : String} :
    m ∈ s.insert name ↔ m = name ∨ m ∈ s :=
  mem_place

@[simp] theorem mem_filter {s : NameSet} {p : String → Bool} {m : String} :
    m ∈ s.filter p ↔ m ∈ s ∧ p m = true :=
  List.mem_filter

end NameSet

end ModelRegistry
