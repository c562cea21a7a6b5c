/-!
# Parts of a text

Taking a known beginning or end off a text, and splitting it at the last occurrence of a character.
-/

namespace ModelRegistry.Text

def dropPrefix? : List Char → List Char → Option (List Char)
  | [], s => some s
  | _ :: _, [] => none
  | c :: cs, d :: s => if c = d then dropPrefix? cs s else none

def dropSuffix? (ending s : List Char) : Option (List Char) :=
  (dropPrefix? ending.reverse s.reverse).map List.reverse

/-- What stands before and after the last occurrence of a character. -/
def splitLast? (c : Char) : List Char → Option (List Char × List Char)
  | [] => none
  | d :: s =>
    match splitLast? c s with
    | some (before, after) => some (d :: before, after)
    | none => if d = c then some ([], s) else none

theorem dropPrefix?_eq_some {p s rest : List Char} :
    dropPrefix? p s = some rest ↔ s = p ++ rest := by
  fun_induction dropPrefix? p s <;> simp_all [eq_comm]

theorem dropSuffix?_eq_some {p s rest : List Char} :
    dropSuffix? p s = some rest ↔ s = rest ++ p := by
  simp only [dropSuffix?, Option.map_eq_some_iff, dropPrefix?_eq_some]
  constructor
  · rintro ⟨t, h, rfl⟩
    simpa using congrArg List.reverse h
  · rintro rfl
    exact ⟨rest.reverse, by simp, by simp⟩

theorem splitLast?_eq_none {c : Char} {s : List Char} : splitLast? c s = none ↔ c ∉ s := by
  induction s with
  | nil => simp [splitLast?]
  | cons d s ih =>
    rw [splitLast?]
    by_cases hd : d = c
    · subst hd; split <;> simp
    · rw [List.mem_cons, not_or, ← ih]
      cases splitLast? c s <;> simp [hd, Ne.symm hd]

theorem eq_of_splitLast?_eq_some {c : Char} {s before after : List Char}
    (h : splitLast? c s = some (before, after)) : s = before ++ c :: after ∧ c ∉ after := by
  induction s generalizing before with
  | nil => simp [splitLast?] at h
  | cons d s ih =>
    rw [splitLast?] at h
    split at h
    · next b a hs =>
      simp only [Option.some.injEq, Prod.mk.injEq] at h
      obtain ⟨rfl, rfl⟩ := h
      obtain ⟨rfl, ha⟩ := ih hs
      exact ⟨rfl, ha⟩
    · next hs =>
      simp only [Option.ite_none_right_eq_some, Option.some.injEq, Prod.mk.injEq] at h
      obtain ⟨rfl, rfl, rfl⟩ := h
      exact ⟨rfl, splitLast?_eq_none.1 hs⟩

theorem splitLast?_append {c : Char} (before : List Char) {after : List Char} (h : c ∉ after) :
    splitLast? c (before ++ c :: after) = some (before, after) := by
  induction before with
  | nil => simp [splitLast?, splitLast?_eq_none.2 h]
  | cons d before ih => simp [splitLast?, ih]

theorem splitLast?_eq_some {c : Char} {s before after : List Char} :
    splitLast? c s = some (before, after) ↔ s = before ++ c :: after ∧ c ∉ after :=
  ⟨eq_of_splitLast?_eq_some, fun ⟨hs, h⟩ => hs ▸ splitLast?_append before h⟩

end ModelRegistry.Text
