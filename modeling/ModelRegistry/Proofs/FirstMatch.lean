import ModelRegistry.Model

/-!
# Changing the first match

`modifyFirst p f` changes the item that `find? p` finds and no other. It leaves a list as it is if
there is no such item or if `f` does nothing to it, and a second run finds the changed item again
whenever `f` keeps what `p` looks at.
-/

namespace ModelRegistry

variable {α : Type} {p : α → Bool} {f : α → α}

theorem modifyFirst_of_find?_eq_none {l : List α} (h : l.find? p = none) :
    modifyFirst p f l = l := by
  induction l with
  | nil => rfl
  | cons a l ih =>
    rw [List.find?_cons] at h
    cases ha : p a with
    | true => simp [ha] at h
    | false => simp [modifyFirst, ha, ih (by simpa [ha] using h)]

theorem modifyFirst_of_find?_eq_some {l : List α} {a : α} (h : l.find? p = some a) (hf : f a = a) :
    modifyFirst p f l = l := by
  induction l with
  | nil => rfl
  | cons b l ih =>
    rw [List.find?_cons] at h
    cases hb : p b with
    | true =>
      obtain rfl : b = a := by simpa [hb] using h
      simp [modifyFirst, hb, hf]
    | false => simp [modifyFirst, hb, ih (by simpa [hb] using h)]

theorem find?_modifyFirst (hp : ∀ a, p (f a) = p a) (l : List α) :
    (modifyFirst p f l).find? p = (l.find? p).map f := by
  induction l with
  | nil => rfl
  | cons a l ih =>
    rw [modifyFirst, List.find?_cons]
    cases ha : p a with
    | true => simp [hp, ha]
    | false => simp [ha, ih]

theorem modifyFirst_modifyFirst (hp : ∀ a, p (f a) = p a) (hf : ∀ a, f (f a) = f a)
    (l : List α) : modifyFirst p f (modifyFirst p f l) = modifyFirst p f l := by
  cases h : l.find? p with
  | none => rw [modifyFirst_of_find?_eq_none h, modifyFirst_of_find?_eq_none h]
  | some a =>
    have hfind : (modifyFirst p f l).find? p = some (f a) := by
      rw [find?_modifyFirst hp, h, Option.map_some]
    exact modifyFirst_of_find?_eq_some hfind (hf a)

theorem getElem?_modifyFirst (l : List α) (i : Nat) :
    (modifyFirst p f l)[i]? = if l.findIdx? p = some i then l[i]?.map f else l[i]? := by
  induction l generalizing i with
  | nil => simp [modifyFirst]
  | cons a l ih =>
    rw [modifyFirst, List.findIdx?_cons]
    cases ha : p a with
    | true => cases i <;> simp
    | false => cases i <;> simp [ih]

theorem filter_zip_self (g : α → Bool) (l : List α) :
    (l.zip l).filter (fun e => g e.1 != g e.2) = [] := by
  simp [List.zip_eq_zipWith, List.zipWith_self, List.filter_eq_nil_iff]

/-- A list and its changed copy differ in a property at most at the first match, and there just if
`f` changes the property. -/
theorem filter_zip_modifyFirst (g : α → Bool) (l : List α) :
    ((l.zip (modifyFirst p f l)).filter fun e => g e.1 != g e.2).map Prod.fst =
      (l.find? p).toList.filter fun a => g a != g (f a) := by
  induction l with
  | nil => rfl
  | cons a l ih =>
    rw [modifyFirst, List.find?_cons]
    cases ha : p a with
    | true =>
      rw [if_pos rfl, List.zip_cons_cons, List.filter_cons, filter_zip_self]
      by_cases hg : (g a != g (f a)) = true <;> simp [hg]
    | false => simpa [List.filter_cons] using ih

end ModelRegistry
