import ModelRegistry.Proofs.Growth

/-!
# The order of models

A registry lists its models by ascending unit, and those of a unit in the order in which they came.
A list of this kind is told by its parts, one for each unit. So inserting models into an empty
registry sorts them by unit and keeps the order of those that are of one unit; the lookup of a name
finds the one that came first. A visit goes through the models as they are listed.
-/

namespace ModelRegistry

section StableSort

variable {α : Type} {l l' : List (String × α)}

/-- A list in ascending order of names is told by what it has of each name, in order. -/
theorem eq_of_filter_fst_eq (hl : l.Pairwise fun a b => a.1 ≤ b.1)
    (hl' : l'.Pairwise fun a b => a.1 ≤ b.1)
    (h : ∀ name, (l.filter fun a => a.1 = name) = l'.filter fun a => a.1 = name) : l = l' := by
  have hmem (a : String × α) : a ∈ l ↔ a ∈ l' := by
    simpa using congrArg (a ∈ ·) (h a.1)
  induction l generalizing l' with
  | nil =>
    exact (List.eq_nil_iff_forall_not_mem.mpr fun a ha => by simpa using (hmem a).mpr ha).symm
  | cons a l ih =>
    cases l' with
    | nil => exact absurd ((hmem a).mp List.mem_cons_self) List.not_mem_nil
    | cons b l' =>
      obtain ⟨ha, hrest⟩ := List.pairwise_cons.mp hl
      obtain ⟨hb, hrest'⟩ := List.pairwise_cons.mp hl'
      -- Either head is in the other list, so neither has the lesser name.
      have hle : a.1 ≤ b.1 := by
        rcases List.mem_cons.mp ((hmem b).mpr List.mem_cons_self) with rfl | hmem
        · exact String.le_refl _
        · exact ha b hmem
      have hge : b.1 ≤ a.1 := by
        rcases List.mem_cons.mp ((hmem a).mp List.mem_cons_self) with rfl | hmem
        · exact String.le_refl _
        · exact hb a hmem
      have hname : b.1 = a.1 := String.le_antisymm hge hle
      have hheads := h a.1
      rw [List.filter_cons_of_pos (by simp), List.filter_cons_of_pos (by simp [hname])] at hheads
      obtain rfl := (List.cons.inj hheads).1
      have htails (name : String) :
          (l.filter fun a => a.1 = name) = l'.filter fun a => a.1 = name := by
        have hfilter := h name
        by_cases heq : a.1 = name
        · rw [List.filter_cons_of_pos (by simpa using heq),
            List.filter_cons_of_pos (by simpa using heq)] at hfilter
          exact (List.cons.inj hfilter).2
        · rwa [List.filter_cons_of_neg (by simpa using heq),
            List.filter_cons_of_neg (by simpa using heq)] at hfilter
      exact congrArg (a :: ·) (ih hrest hrest' htails fun c => by
        simpa using congrArg (c ∈ ·) (htails c.1))

theorem fst_le_trans (a b c : String × α) (hab : decide (a.1 ≤ b.1) = true)
    (hbc : decide (b.1 ≤ c.1) = true) : decide (a.1 ≤ c.1) = true :=
  decide_eq_true (String.le_trans (of_decide_eq_true hab) (of_decide_eq_true hbc))

theorem fst_le_total (a b : String × α) : (decide (a.1 ≤ b.1) || decide (b.1 ≤ a.1)) = true := by
  simpa using String.le_total a.1 b.1

theorem pairwise_mergeSort_fst (l : List (String × α)) :
    (l.mergeSort fun a b => a.1 ≤ b.1).Pairwise fun a b => a.1 ≤ b.1 :=
  (List.pairwise_mergeSort fst_le_trans fst_le_total l).imp of_decide_eq_true

/-- Sorting by names is stable. -/
theorem filter_mergeSort_fst (l : List (String × α)) (name : String) :
    ((l.mergeSort fun a b => a.1 ≤ b.1).filter fun a => a.1 = name) =
      l.filter fun a => a.1 = name := by
  have hsame : (l.filter fun a => a.1 = name).Pairwise fun a b => decide (a.1 ≤ b.1) = true := by
    refine List.pairwise_of_forall_mem_list fun a ha b hb => decide_eq_true ?_
    have ha' : a.1 = name := of_decide_eq_true (List.mem_filter.mp ha).2
    have hb' : b.1 = name := of_decide_eq_true (List.mem_filter.mp hb).2
    exact (ha'.trans hb'.symm) ▸ String.le_refl a.1
  have hsublist := (List.sublist_mergeSort fst_le_trans fst_le_total hsame
    List.filter_sublist).filter fun a => a.1 = name
  simp only [List.filter_filter, Bool.and_self] at hsublist
  exact (hsublist.eq_of_length ((List.mergeSort_perm l _).filter _).length_eq.symm).symm

end StableSort

namespace Registry

variable {ε : Type} {r : Registry}

/-- Inserts models one after the other, each into its unit. -/
def insertAll (r : Registry) (calls : List (String × Model)) : Registry :=
  calls.foldl (fun r call => r.insert call.1 call.2) r

/-- The models of a unit; none if it is not there. -/
def modelsOf (r : Registry) (unit : String) : List Model :=
  ((r.unit? unit).getD {}).models

theorem filter_models (r : Registry) (unit : String) :
    (r.models.filter fun e => e.1 = unit) = (r.modelsOf unit).map fun m => (unit, m) := by
  have hmembers : (r.models.filter fun e => e.1 = unit) =
      (r.membersOf unit).map fun e => (e.1.unit, e.2) := by
    rw [models_eq_map_members, List.filter_map]
    rfl
  rw [hmembers, membersOf_eq, modelsOf]
  cases r.unit? unit with
  | none => rfl
  | some g => simp [GenerationUnit.place]

theorem find?_filter_unit (l : List (String × Model)) (unit name : String) :
    ((l.filter fun e => e.1 = unit).find? fun e => e.2.name = name) =
      l.find? fun e => e.1 = unit ∧ e.2.name = name := by
  rw [List.find?_filter]
  simp only [Bool.decide_and, Bool.decide_eq_true]

/-- The model that is looked up is the first of its name among those listed for the unit. -/
theorem model?_eq_find? (r : Registry) (unit name : String) :
    r.model? unit name =
      (r.models.find? fun e => e.1 = unit ∧ e.2.name = name).map Prod.snd := by
  rw [← find?_filter_unit, filter_models, List.find?_map, modelsOf, model?]
  cases r.unit? unit with
  | none => rfl
  | some g => simp [GenerationUnit.model?, Function.comp_def]

theorem pairwise_models (r : Registry) : r.models.Pairwise fun d e => d.1 ≤ e.1 := by
  refine List.pairwise_flatMap.mpr ⟨fun e _ => ?_, ?_⟩
  · exact List.pairwise_map.mpr (List.pairwise_of_forall fun _ _ => String.le_refl _)
  · refine r.units.ascending.imp fun hlt x hx y hy => ?_
    obtain ⟨_, -, rfl⟩ := List.mem_map.mp hx
    obtain ⟨_, -, rfl⟩ := List.mem_map.mp hy
    exact String.not_lt.mp (String.lt_asymm hlt)

theorem modelsOf_insert (r : Registry) (unit other : String) (m : Model) :
    (r.insert unit m).modelsOf other =
      r.modelsOf other ++ if unit = other then [m] else [] := by
  by_cases h : unit = other
  · rw [← h, modelsOf, modelsOf, unit?_insert_self, if_pos rfl, Option.getD_some]
  · rw [modelsOf, modelsOf, unit?_insert_of_ne r (Ne.symm h), if_neg h, List.append_nil]

/-- A run of insertions appends to every unit the models that are inserted into it. -/
theorem modelsOf_insertAll (calls : List (String × Model)) (r : Registry) (unit : String) :
    (r.insertAll calls).modelsOf unit =
      r.modelsOf unit ++ (calls.filter fun call => call.1 = unit).map Prod.snd := by
  induction calls generalizing r with
  | nil => exact (List.append_nil _).symm
  | cons call calls ih =>
    refine (ih (r.insert call.1 call.2)).trans ?_
    rw [modelsOf_insert, List.append_assoc, List.filter_cons]
    by_cases h : call.1 = unit <;> simp [h]

theorem filter_models_insertAll (calls : List (String × Model)) (unit : String) :
    ((empty.insertAll calls).models.filter fun e => e.1 = unit) =
      calls.filter fun call => call.1 = unit := by
  have hnone : empty.modelsOf unit = [] := rfl
  rw [filter_models, modelsOf_insertAll, hnone, List.nil_append, List.map_map]
  have hself (call : String × Model) (h : call ∈ calls.filter fun call => call.1 = unit) :
      (unit, call.2) = call :=
    Prod.ext (of_decide_eq_true (List.mem_filter.mp h).2).symm rfl
  exact (List.map_congr_left hself).trans (List.map_id _)

/-- Inserting models into an empty registry sorts them by unit. -/
theorem models_insertAll (calls : List (String × Model)) :
    (empty.insertAll calls).models = calls.mergeSort fun c d => c.1 ≤ d.1 :=
  eq_of_filter_fst_eq (pairwise_models _) (pairwise_mergeSort_fst calls) fun unit => by
    rw [filter_models_insertAll, filter_mergeSort_fst]

/-- The model that is found is the first that was inserted into the unit with the name. -/
theorem model?_insertAll (calls : List (String × Model)) (unit name : String) :
    (empty.insertAll calls).model? unit name =
      (calls.find? fun call => call.1 = unit ∧ call.2.name = name).map Prod.snd := by
  rw [model?_eq_find?, ← find?_filter_unit, filter_models_insertAll, find?_filter_unit]

theorem modelCount_eq_sum (r : Registry) :
    r.modelCount = (r.units.entries.map fun e => e.2.models.length).sum := by
  simp only [modelCount, models, List.length_flatMap, List.length_map]

theorem isEmpty_iff : r.isEmpty = true ↔ r.modelCount = 0 := by
  rw [modelCount, List.length_eq_zero_iff, models, List.flatMap_eq_nil_iff]
  simp [isEmpty]

theorem models_visit (f : String → Model → Logged ε Model) (r : Registry) :
    (r.visit f).value.models = r.models.map fun e => (e.1, (f e.1 e.2).value) := by
  rw [value_visit, models_mapModels, models_eq_map_members, List.map_map]
  rfl

/-- The order of models, whatever is inserted and in which order: a registry lists by ascending unit
all models that were inserted into it, those of one unit as they came; it looks up the first of a
unit and a name, which a later one does not hide. What visits a registry goes through the models as
they are listed, and changes each where it stands. A registry is empty if it has no models, even if
it has units. -/
theorem insertAll_in_order :
    (∀ calls : List (String × Model),
      let r := empty.insertAll calls
      r.models = calls.mergeSort (fun c d => c.1 ≤ d.1) ∧
      r.models.Pairwise (fun c d => c.1 ≤ d.1) ∧
      (∀ unit, (r.models.filter fun c => c.1 = unit) = calls.filter fun c => c.1 = unit) ∧
      r.modelCount = calls.length ∧
      (∀ unit name, r.model? unit name =
        (calls.find? fun c => c.1 = unit ∧ c.2.name = name).map Prod.snd) ∧
      ∀ later unit name, (r.insertAll later).model? unit name =
        (r.model? unit name).or ((empty.insertAll later).model? unit name)) ∧
    ∀ r : Registry,
      (∀ {ε : Type} (f : String → Model → Logged ε Model),
        (r.visit f).log = r.models.flatMap (fun e => (f e.1 e.2).log) ∧
        (r.visit f).value.models = r.models.map fun e => (e.1, (f e.1 e.2).value)) ∧
      (∀ f : String → Model → Model,
        (r.visit fun unit m => ⟨f unit m, [(unit, m)]⟩).log = r.models) ∧
      r.modelCount = (r.units.entries.map fun e => e.2.models.length).sum ∧
      (r.isEmpty = true ↔ r.modelCount = 0) := by
  constructor
  · intro calls r
    refine ⟨models_insertAll calls, r.pairwise_models, filter_models_insertAll calls, ?_,
      model?_insertAll calls, fun later unit name => ?_⟩
    · rw [modelCount, models_insertAll, List.length_mergeSort]
    · have happend : r.insertAll later = empty.insertAll (calls ++ later) :=
        List.foldl_append.symm
      rw [happend, model?_insertAll, model?_insertAll, model?_insertAll, List.find?_append,
        Option.map_or]
  · intro r
    refine ⟨fun f => ⟨r.log_visit f, r.models_visit f⟩, fun f => ?_, r.modelCount_eq_sum,
      isEmpty_iff⟩
    rw [log_visit]
    exact List.flatMap_singleton' _

/-- Two units in turn, and a name that comes twice. -/
def litterCalls : List (String × Model) :=
  [("pets", { name := "Cat" }), ("birds", { name := "Owl" }),
    ("pets", { name := "Cat", parent := some "Pet" })]

theorem insertAll_in_order_litter :
    let r := empty.insertAll litterCalls
    r.models = [("birds", { name := "Owl" }), ("pets", { name := "Cat" }),
        ("pets", { name := "Cat", parent := some "Pet" })] ∧
      r.modelCount = 3 ∧ r.model? "pets" "Cat" = some { name := "Cat" } ∧
      r.isEmpty = false ∧
      (r.visit fun unit m => (⟨m.withBase "Pet", [(unit, m)]⟩ : Logged _ Model)).log =
        r.models := by
  intro r
  obtain ⟨hmodels, -, -, hcount, hfirst, -⟩ := insertAll_in_order.1 litterCalls
  obtain ⟨-, hvisit, -, hempty⟩ := insertAll_in_order.2 r
  have hcount : r.modelCount = 3 := hcount
  refine ⟨hmodels.trans ?_, hcount, hfirst "pets" "Cat", ?_, hvisit fun _ m => m.withBase "Pet"⟩
  · simp [litterCalls, List.mergeSort]
  · rw [Bool.eq_false_iff, ne_eq, hempty, hcount]
    decide

/-- A unit without models counts for nothing. -/
example : ({ units := .ofList [("pets", {})] } : Registry).isEmpty = true := rfl

end Registry

end ModelRegistry
