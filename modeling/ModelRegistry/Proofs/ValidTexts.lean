import ModelRegistry.Proofs.CompleteDocuments

/-!
# Valid texts

A text is valid if it is read as a complete document and nothing follows that. In the tokens of such
a text there is nothing wrong, and a number is followed by a delimiter: the machine that builds the
document has no way back from a fault.
-/

namespace ModelRegistry.Json

namespace Token

/-- Nothing is wrong with the token itself. -/
def IsWhole : Token → Prop
  | .broken _ | .brokenString _ | .junk => False
  | _ => True

/-- A token that may stand after a value. -/
def IsDelimiter : Token → Prop
  | .comma | .closeList | .closeObject => True
  | _ => False

/-- All tokens are whole, and a delimiter stands after every number unless it is the last token. -/
def Separated : List Token → Prop
  | [] => True
  | .number _ :: ts => (∀ t ∈ ts.head?, t.IsDelimiter) ∧ Separated ts
  | t :: ts => t.IsWhole ∧ Separated ts

end Token

namespace Document

/-- The document is complete, and nothing follows it. -/
def Reading.Valid (r : Reading) : Prop :=
  r.document.Complete ∧ r.surplus = false

instance (r : Reading) : Decidable r.Valid :=
  inferInstanceAs (Decidable (_ ∧ _))

theorem not_complete_openList (items : List Document) (b : Breach) :
    ¬(openList items b).Complete := by
  simp [openList, complete_list]

theorem not_complete_openObject (members : List (Key × Document)) (b : Breach) :
    ¬(openObject members b).Complete := by
  simp [openObject, complete_object]

theorem not_complete_abandon {d : Document} (h : ¬d.Complete) (frames : List Frame) :
    ¬(abandon d frames).Complete := by
  induction frames generalizing d with
  | nil => exact h
  | cons frame frames ih =>
    cases frame with
    | list items => exact ih (not_complete_openList _ _)
    | object members key => exact ih (not_complete_openObject _ _)

namespace State

/-- Where the text is at fault, something breaks off. -/
def Sound : State → Prop
  | .stopped d => ¬d.Complete
  | _ => True

/-- The text is at fault, or there is too much of it. -/
def Dead : State → Prop
  | .stopped d => ¬d.Complete
  | .surplus _ => True
  | _ => False

theorem sound_fill (d : Document) (frames : List Frame) : (fill d frames).Sound := by
  rcases frames with _ | ⟨_ | _, _⟩ <;> trivial

theorem sound_start (frames : List Frame) (t : Token) : (start frames t).Sound := by
  cases t with
  | openList | openObject => trivial
  | null | bool | number | string => exact sound_fill _ _
  | broken | brokenString | closeList | closeObject | comma | colon | junk =>
    exact not_complete_abandon id _

theorem sound_step {st : State} (h : st.Sound) (t : Token) : (step st t).Sound := by
  fun_cases step st t
  case case1 | case4 => exact sound_start _ _
  case case2 | case6 | case10 | case16 => exact sound_fill _ _
  case case3 | case7 => exact not_complete_abandon (not_complete_openList _ _) _
  case case9 | case11 | case12 | case17 => exact not_complete_abandon (not_complete_openObject _ _) _
  case case14 => exact not_complete_abandon id _
  case case5 | case8 | case13 | case15 | case18 | case19 => trivial
  case case20 => exact h

theorem not_valid_of_dead {st : State} (h : st.Dead) (ts : List Token) :
    ¬(finish (ts.foldl step st)).Valid := by
  induction ts generalizing st with
  | nil =>
    cases st with
    | surplus d => exact fun hvalid => Bool.noConfusion hvalid.2
    | stopped d => exact fun hvalid => h hvalid.1
    | value | item | afterItem | key | colon | afterMember | done => cases h
  | cons t ts ih =>
    cases st with
    | surplus | stopped => exact ih h
    | value | item | afterItem | key | colon | afterMember | done => cases h

theorem dead_start {t : Token} (h : ¬t.IsWhole) (frames : List Frame) : (start frames t).Dead := by
  cases t with
  | broken | brokenString | junk => exact not_complete_abandon id frames
  | openList | closeList | openObject | closeObject | comma | colon | null | bool | number
  | string => exact absurd trivial h

/-- A token with something wrong is never what is due. -/
theorem dead_step_of_not_isWhole {st : State} (hst : st.Sound) {t : Token} (h : ¬t.IsWhole) :
    (step st t).Dead := by
  cases t with
  | openList | closeList | openObject | closeObject | comma | colon | null | bool | number
  | string => exact absurd trivial h
  | broken | brokenString | junk =>
    cases st with
    | value frames => exact dead_start h frames
    | item items frames => cases items <;> exact dead_start h _
    | afterItem items frames => exact not_complete_abandon (not_complete_openList _ _) _
    | key members frames =>
      cases members <;> exact not_complete_abandon (not_complete_openObject _ _) _
    | colon members key frames => exact not_complete_abandon id _
    | afterMember members frames => exact not_complete_abandon (not_complete_openObject _ _) _
    | done | surplus => trivial
    | stopped d => exact hst

/-- A number is a value where a value is due, and a fault anywhere else. -/
theorem step_number {st : State} (hst : st.Sound) (n : Except Fault Number) :
    (step st (.number n)).Dead ∨ ∃ frames, step st (.number n) = fill (.number n) frames := by
  cases st with
  | value frames => exact .inr ⟨frames, rfl⟩
  | item items frames => exact .inr ⟨.list items :: frames, by cases items <;> rfl⟩
  | afterItem items frames => exact .inl (not_complete_abandon (not_complete_openList _ _) _)
  | key members frames =>
    refine .inl ?_
    cases members <;> exact not_complete_abandon (not_complete_openObject _ _) _
  | colon members key frames => exact .inl (not_complete_abandon id _)
  | afterMember members frames =>
    exact .inl (not_complete_abandon (not_complete_openObject _ _) _)
  | done | surplus => exact .inl trivial
  | stopped d => exact .inl hst

theorem dead_step_fill {t : Token} (h : ¬t.IsDelimiter) (d : Document) (frames : List Frame) :
    (step (fill d frames) t).Dead := by
  rcases frames with _ | ⟨items | ⟨members, key⟩, frames⟩
  · trivial
  · cases t with
    | comma | closeList | closeObject => exact absurd trivial h
    | _ => exact not_complete_abandon (not_complete_openList _ _) _
  · cases t with
    | comma | closeList | closeObject => exact absurd trivial h
    | _ => exact not_complete_abandon (not_complete_openObject _ _) _

end State

open State in
theorem separated_of_valid {ts : List Token} {st : State} (hst : st.Sound)
    (h : (finish (ts.foldl step st)).Valid) : Token.Separated ts := by
  induction ts generalizing st with
  | nil => trivial
  | cons t ts ih =>
    have hrest : Token.Separated ts := ih (sound_step hst t) h
    have hwhole : t.IsWhole := by
      by_contra hbroken
      exact not_valid_of_dead (dead_step_of_not_isWhole hst hbroken) ts h
    cases t with
    | number n =>
      refine ⟨fun t ht => ?_, hrest⟩
      obtain ⟨ts, rfl⟩ := List.head?_eq_some_iff.mp ht
      rcases step_number hst n with hdead | ⟨frames, hfill⟩
      · exact absurd h (not_valid_of_dead hdead _)
      · by_contra hdelimiter
        rw [List.foldl_cons, hfill, List.foldl_cons] at h
        exact not_valid_of_dead (dead_step_fill hdelimiter _ frames) ts h
    | _ => exact ⟨hwhole, hrest⟩

end Document

end ModelRegistry.Json
