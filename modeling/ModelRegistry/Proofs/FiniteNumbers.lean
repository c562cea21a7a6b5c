import ModelRegistry.Proofs.Decoders
import ModelRegistry.Proofs.Rereading
import ModelRegistry.Proofs.ValidTexts

/-!
# Numbers that are read are finite

A literal is read as an integer or as a finite double; one that is too large is refused. So the
tokens of a text have finite numbers only, so has the document that they build, wherever it breaks
off, and so has whatever value is taken from that.
-/

namespace ModelRegistry.Json

theorem Numeral.isFinite_of_value {n : Numeral} {m : Number} (h : n.value = .ok m) :
    m.IsFinite := by
  rw [value] at h
  split at h
  · cases h
    trivial
  · obtain ⟨x, hx, rfl⟩ := map_eq_ok.mp h
    exact isFinite_of_toDouble hx

namespace Token

/-- A number, if it is one, is finite. -/
def IsFinite : Token → Prop
  | .number n => ∀ m, n = .ok m → m.IsFinite
  | _ => True

def Step.IsFinite : Step → Prop
  | .blank => True
  | .token t _ | .last t => t.IsFinite

theorem isFinite_word (t : Token) (ht : t.IsFinite) (letters : List Char) (s : Source) :
    (word t letters s).IsFinite := by
  rw [word]
  split
  · exact ht
  · trivial

theorem isFinite_quotation (s : Source) : (quotation s).IsFinite := by
  simp only [quotation]
  split <;> trivial

theorem isFinite_numeral (negative : Bool) (s : Source) : (numeral negative s).IsFinite := by
  rw [numeral]
  split
  · exact fun _ => Numeral.isFinite_of_value
  · trivial

theorem isFinite_step (c : Char) (s : Source) : (step c s).IsFinite := by
  rw [step.eq_def]
  split
  case h_1 | h_2 | h_3 | h_4 | h_5 | h_6 | h_7 | h_8 | h_9 | h_10 => trivial
  case h_11 | h_12 | h_13 => exact isFinite_word _ (by trivial) _ s
  case h_14 => exact isFinite_quotation s
  case h_15 => exact isFinite_numeral _ s
  case h_16 =>
    split
    · exact isFinite_numeral _ _
    · trivial

theorem isFinite_of_mem_ofSource {s : Source} {t : Token} (h : t ∈ ofSource s) : t.IsFinite := by
  fun_induction ofSource s with
  | case1 => cases h
  | case2 => rw [List.mem_singleton.mp h]; trivial
  | case3 c s hstep ih => exact ih h
  | case4 c s u rest hstep ih =>
    have hu : (step c s).IsFinite := isFinite_step c s
    rw [hstep] at hu
    rcases List.mem_cons.mp h with rfl | h
    · exact hu
    · exact ih h
  | case5 c s u hstep =>
    have hu : (step c s).IsFinite := isFinite_step c s
    rw [hstep] at hu
    rw [List.mem_singleton.mp h]
    exact hu

end Token

namespace Document

/-- All numbers of a document are finite. -/
def HasFiniteNumbers (d : Document) : Prop :=
  d.All fun
    | .number n => ∀ m, n = .ok m → m.IsFinite
    | _ => True

variable {d : Document} {items : List Document} {members : List (Key × Document)}
  {frames : List Frame} {st : State} {t : Token}

theorem hasFiniteNumbers_list {stop : Stop} :
    (list items stop).HasFiniteNumbers ↔ ∀ d ∈ items, d.HasFiniteNumbers :=
  all_list.trans (and_iff_right trivial)

theorem hasFiniteNumbers_object {stop : Stop} :
    (object members stop).HasFiniteNumbers ↔ ∀ m ∈ members, m.2.HasFiniteNumbers :=
  all_object.trans (and_iff_right trivial)

theorem hereditary_hasFiniteNumbers : Hereditary HasFiniteNumbers where
  list := hasFiniteNumbers_list.mp
  object := hasFiniteNumbers_object.mp

/-- All numbers of an open container, as far as it has been read, are finite. -/
def Frame.HasFiniteNumbers : Frame → Prop
  | .list items => ∀ d ∈ items, d.HasFiniteNumbers
  | .object members _ => ∀ m ∈ members, m.2.HasFiniteNumbers

/-- All numbers that have been read are finite. -/
def State.HasFiniteNumbers : State → Prop
  | .value frames => ∀ f ∈ frames, f.HasFiniteNumbers
  | .item items frames | .afterItem items frames =>
    (∀ d ∈ items, d.HasFiniteNumbers) ∧ ∀ f ∈ frames, f.HasFiniteNumbers
  | .key members frames | .colon members _ frames | .afterMember members frames =>
    (∀ m ∈ members, m.2.HasFiniteNumbers) ∧ ∀ f ∈ frames, f.HasFiniteNumbers
  | .done d | .surplus d | .stopped d => d.HasFiniteNumbers

theorem hasFiniteNumbers_fill (hd : d.HasFiniteNumbers)
    (hframes : ∀ f ∈ frames, f.HasFiniteNumbers) : (fill d frames).HasFiniteNumbers := by
  cases frames with
  | nil => exact hd
  | cons frame frames =>
    obtain ⟨hframe, hrest⟩ := List.forall_mem_cons.mp hframes
    cases frame <;> exact ⟨List.forall_mem_cons.mpr ⟨hd, hframe⟩, hrest⟩

/-- Items and members that have been read stand last first. -/
theorem hasFiniteNumbers_list_reverse (hitems : ∀ d ∈ items, d.HasFiniteNumbers) (stop : Stop) :
    (list items.reverse stop).HasFiniteNumbers :=
  hasFiniteNumbers_list.mpr fun d hd => hitems d (List.mem_reverse.mp hd)

theorem hasFiniteNumbers_object_reverse (hmembers : ∀ m ∈ members, m.2.HasFiniteNumbers)
    (stop : Stop) : (object members.reverse stop).HasFiniteNumbers :=
  hasFiniteNumbers_object.mpr fun m hm => hmembers m (List.mem_reverse.mp hm)

theorem hasFiniteNumbers_abandon (hd : d.HasFiniteNumbers)
    (hframes : ∀ f ∈ frames, f.HasFiniteNumbers) : (abandon d frames).HasFiniteNumbers := by
  induction frames generalizing d with
  | nil => exact hd
  | cons frame frames ih =>
    obtain ⟨hframe, hrest⟩ := List.forall_mem_cons.mp hframes
    cases frame with
    | list items =>
      have hitems : ∀ i ∈ d :: items, i.HasFiniteNumbers := List.forall_mem_cons.mpr ⟨hd, hframe⟩
      exact ih (hasFiniteNumbers_list_reverse hitems _) hrest
    | object members key =>
      have hmembers : ∀ m ∈ (key, d) :: members, m.2.HasFiniteNumbers :=
        List.forall_mem_cons.mpr ⟨hd, hframe⟩
      exact ih (hasFiniteNumbers_object_reverse hmembers _) hrest

theorem hasFiniteNumbers_start (hframes : ∀ f ∈ frames, f.HasFiniteNumbers) (ht : t.IsFinite) :
    (start frames t).HasFiniteNumbers := by
  cases t with
  | openList | openObject => exact ⟨List.forall_mem_nil _, hframes⟩
  | null | bool | string => exact hasFiniteNumbers_fill trivial hframes
  | number n => exact hasFiniteNumbers_fill ht hframes
  | broken | brokenString | closeList | closeObject | comma | colon | junk =>
    exact hasFiniteNumbers_abandon trivial hframes

/-- Reading a token with a finite number keeps all numbers finite. -/
theorem hasFiniteNumbers_step (hst : st.HasFiniteNumbers) (ht : t.IsFinite) :
    (step st t).HasFiniteNumbers := by
  fun_cases step st t
  case case1 => exact hasFiniteNumbers_start hst ht
  case case4 => exact hasFiniteNumbers_start (List.forall_mem_cons.mpr hst) ht
  case case2 | case6 => exact hasFiniteNumbers_fill (hasFiniteNumbers_list_reverse hst.1 _) hst.2
  case case10 | case16 =>
    exact hasFiniteNumbers_fill (hasFiniteNumbers_object_reverse hst.1 _) hst.2
  case case3 | case7 =>
    exact hasFiniteNumbers_abandon (hasFiniteNumbers_list_reverse hst.1 _) hst.2
  case case9 | case11 | case12 | case17 =>
    exact hasFiniteNumbers_abandon (hasFiniteNumbers_object_reverse hst.1 _) hst.2
  case case13 => exact List.forall_mem_cons.mpr hst
  case case14 => exact hasFiniteNumbers_abandon trivial (List.forall_mem_cons.mpr hst)
  case case5 | case8 | case15 | case18 | case19 | case20 => exact hst

/-- All numbers stay finite while tokens with finite numbers are read. -/
theorem hasFiniteNumbers_foldl_step {ts : List Token} (hst : st.HasFiniteNumbers)
    (hts : ∀ t ∈ ts, t.IsFinite) : (ts.foldl step st).HasFiniteNumbers := by
  induction ts generalizing st with
  | nil => exact hst
  | cons t ts ih =>
    obtain ⟨ht, hts⟩ := List.forall_mem_cons.mp hts
    exact ih (hasFiniteNumbers_step hst ht) hts

theorem hasFiniteNumbers_finish (hst : st.HasFiniteNumbers) :
    (finish st).document.HasFiniteNumbers := by
  fun_cases finish st
  case case1 => exact hasFiniteNumbers_abandon trivial hst
  case case3 | case7 => exact hasFiniteNumbers_abandon trivial (List.forall_mem_cons.mpr hst)
  case case2 | case4 => exact hasFiniteNumbers_abandon (hasFiniteNumbers_list_reverse hst.1 _) hst.2
  case case5 | case6 | case8 =>
    exact hasFiniteNumbers_abandon (hasFiniteNumbers_object_reverse hst.1 _) hst.2
  case case9 | case10 | case11 => exact hst

theorem hasFiniteNumbers_ofSource (s : Source) : (ofSource s).document.HasFiniteNumbers := by
  have hstart : (State.value []).HasFiniteNumbers := List.forall_mem_nil _
  exact hasFiniteNumbers_finish
    (hasFiniteNumbers_foldl_step hstart fun _ => Token.isFinite_of_mem_ofSource)

theorem hasFiniteNumbers_ofJson {j : Json} (h : j.HasFiniteNumbers) :
    (ofJson j).HasFiniteNumbers := by
  induction j using Json.induction with
  | null | bool | string => trivial
  | number n =>
    intro m hm
    cases hm
    exact h
  | array items ih =>
    rw [ofJson_array, hasFiniteNumbers_list, List.forall_mem_map]
    exact fun j hj => ih j hj (Json.hasFiniteNumbers_array.mp h j hj)
  | object members ih =>
    rw [ofJson_object, hasFiniteNumbers_object, List.forall_mem_map]
    exact fun m hm => ih m hm (Json.hasFiniteNumbers_object.mp h m hm)

/-- What is read of a document has no other numbers. -/
theorem hasFiniteNumbers_of_read {depth : Nat} {j : Json} (hd : d.HasFiniteNumbers)
    (h : d.read depth = .ok j) : j.HasFiniteNumbers := by
  induction d using Document.induction generalizing depth j with
  | null | bool | string =>
    cases read_eq_ok.mp h
    trivial
  | number n =>
    cases read_eq_ok.mp h
    exact hd _ rfl
  | list items stop ih =>
    cases read_eq_ok.mp h with
    | list hjs =>
      refine Json.hasFiniteNumbers_array.mpr fun j hj => ?_
      obtain ⟨d, hmem, hread⟩ := exists_mem_of_forall₂ hjs hj
      exact ih d hmem (hasFiniteNumbers_list.mp hd d hmem) hread
  | object members stop ih =>
    cases read_eq_ok.mp h with
    | object hms =>
      refine Json.hasFiniteNumbers_object.mpr fun m hm => ?_
      obtain ⟨n, hmem, hread⟩ := exists_mem_of_forall₂ hms hm
      exact ih n hmem (hasFiniteNumbers_object.mp hd n hmem) hread.2
  | brokenLiteral | broken => cases h

end Document

theorem Decoder.ensures_value_hasFiniteNumbers {depth : Nat} :
    value.Ensures Document.HasFiniteNumbers depth fun v => v.json.HasFiniteNumbers := by
  intro doc v hdoc hv
  obtain ⟨j, hread, rfl⟩ := map_eq_ok.mp hv
  exact (Document.hasFiniteNumbers_of_read hdoc (refuse_eq_ok.mp hread)).canonical

end ModelRegistry.Json
