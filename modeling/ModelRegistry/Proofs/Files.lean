import ModelRegistry.CommandLine.FileTree
import ModelRegistry.Proofs.Documents

/-!
# Files by their places

A path leads to a place through directories alone. Writing a file makes and removes no directory, so
all paths lead where they led before; the file then has the new content, and every file at another
place has the content that it had.
-/

namespace ModelRegistry.CommandLine.FileTree

open Json

variable {t t' : FileTree} {path other : String} {bytes content : ByteArray} {place : Place}

/-- The place that a path leads to, whether or not there is a file. -/
def locate (t : FileTree) (path : String) : Except SystemError Place := do
  let directory ← t.parent path
  match (Route.ofPath path).target with
  | some name => child directory name
  | none => throw .isDirectory

theorem read_eq_content :
    t.read path = .content bytes ↔ (Route.ofPath path).slashed = false ∧
      ∃ place, t.locate path = .ok place ∧ t.node? place = some (.file bytes) := by
  simp only [read, locate, bind, Except.bind, pure, Except.pure, throw, throwThe,
    MonadExceptOf.throw]
  cases t.parent path with
  | error e => simp
  | ok directory =>
    cases (Route.ofPath path).target with
    | none => simp
    | some name =>
      cases hchild : child directory name with
      | error e => simp [hchild]
      | ok place =>
        rcases hnode : t.node? place with _ | ⟨content⟩ | _ <;>
          cases (Route.ofPath path).slashed <;> simp [hchild, hnode]

theorem write_eq_ok :
    t.write path bytes = .ok t' ↔ (Route.ofPath path).slashed = false ∧
      ∃ place, t.locate path = .ok place ∧ t.node? place ≠ some .directory ∧
        t' = t.put place (.file bytes) := by
  simp only [write, locate, bind, Except.bind, pure, Except.pure, throw, throwThe,
    MonadExceptOf.throw]
  cases t.parent path with
  | error e => simp
  | ok directory =>
    cases (Route.ofPath path).target with
    | none => simp
    | some name =>
      cases (Route.ofPath path).slashed with
      | true => simp
      | false =>
        cases hchild : child directory name with
        | error e => simp [hchild]
        | ok place =>
          rcases hnode : t.node? place with _ | ⟨content⟩ | _ <;>
            simp [hchild, hnode, @eq_comm _ t']

theorem node?_put_self {node : FileNode} (h : t.node? place ≠ some .directory) :
    (t.put place node).node? place = some node := by
  have hplace : place.isPrefixOf t.home = false := by
    by_contra habove
    exact h (by rw [node?, if_pos (by simpa using habove)])
  simp [node?, put, hplace]

theorem node?_put_of_ne {node : FileNode} {p : Place} (h : p ≠ place) :
    (t.put place node).node? p = t.node? p := by
  have hlookup (nodes : List (Place × FileNode)) :
      (nodes.filter (·.1 ≠ place)).lookup p = nodes.lookup p := by
    induction nodes with
    | nil => rfl
    | cons n nodes ih =>
      by_cases hn : n.1 = place
      · rw [List.filter_cons_of_neg (by simpa using hn), ih, List.lookup_cons,
          show (p == n.1) = false by simpa [hn] using h]
      · rw [List.filter_cons_of_pos (by simpa using hn), List.lookup_cons, List.lookup_cons, ih]
  rw [node?, node?, put, List.lookup_cons, beq_false_of_ne h, hlookup]

/-- The same places are directories, and one of them is the working directory of both. -/
structure SameDirectories (t t' : FileTree) : Prop where
  home : t.home = t'.home
  directory (place : Place) : t.node? place = some .directory ↔ t'.node? place = some .directory

theorem sameDirectories_put (h : t.node? place ≠ some .directory) :
    SameDirectories t (t.put place (.file bytes)) := by
  refine ⟨rfl, fun p => ?_⟩
  by_cases hp : p = place
  · subst hp
    rw [node?_put_self h]
    simp [h]
  · rw [node?_put_of_ne hp]

namespace SameDirectories

variable (h : SameDirectories t t')

include h

theorem enter {directory d : Place} {name : String} :
    t.enter directory name = .ok d ↔ t'.enter directory name = .ok d := by
  simp only [FileTree.enter]
  split
  · rfl
  · rfl
  · refine bind_eq_ok.trans (Iff.trans ?_ bind_eq_ok.symm)
    refine exists_congr fun place => and_congr_right fun _ => ?_
    -- Only a directory is entered, and it is one in both trees or in neither.
    have hplace := h.directory place
    rcases hnode : t.node? place with _ | ⟨content⟩ | _ <;>
      rcases hnode' : t'.node? place with _ | ⟨content'⟩ | _ <;>
      simp_all

theorem foldlM_enter (directories : List String) (directory d : Place) :
    directories.foldlM t.enter directory = .ok d ↔ directories.foldlM t'.enter directory = .ok d := by
  induction directories generalizing directory with
  | nil => rfl
  | cons name names ih => simp only [List.foldlM_cons, bind_eq_ok, h.enter, ih]

theorem parent {d : Place} : t.parent path = .ok d ↔ t'.parent path = .ok d := by
  rw [FileTree.parent, FileTree.parent, h.home]
  split
  · rfl
  · split
    · rfl
    · exact h.foldlM_enter _ _ _

theorem locate : t.locate path = .ok place ↔ t'.locate path = .ok place := by
  simp only [FileTree.locate, bind_eq_ok, h.parent]

end SameDirectories

theorem sameDirectories_of_write (h : t.write path bytes = .ok t') : SameDirectories t t' := by
  obtain ⟨-, place, -, hnode, rfl⟩ := write_eq_ok.mp h
  exact sameDirectories_put hnode

/-- A file has the content that was written last. -/
theorem read_of_write (h : t.write path bytes = .ok t') : t'.read path = .content bytes := by
  have hsame := sameDirectories_of_write h
  obtain ⟨hslashed, place, hlocate, hnode, rfl⟩ := write_eq_ok.mp h
  exact read_eq_content.mpr ⟨hslashed, place, hsame.locate.mp hlocate, node?_put_self hnode⟩

/-- Two paths do not lead to one place. -/
def Apart (t : FileTree) (path other : String) : Prop :=
  ∀ place, t.locate path = .ok place → t.locate other ≠ .ok place

theorem SameDirectories.apart (h : SameDirectories t t') :
    t.Apart path other ↔ t'.Apart path other := by
  simp only [Apart, Ne, h.locate]

theorem pairwise_apart_of_nodup {paths : List String} (h : (paths.map t.locate).Nodup) :
    paths.Pairwise t.Apart :=
  (List.pairwise_map.mp h).imp fun hne _ hplace hplace' => hne (hplace.trans hplace'.symm)

/-- A write leaves the files at all other places as they are. -/
theorem read_of_write_of_apart (h : t.write path bytes = .ok t') (hne : t.Apart path other)
    (hread : t.read other = .content content) : t'.read other = .content content := by
  have hsame := sameDirectories_of_write h
  obtain ⟨-, place, hlocate, -, rfl⟩ := write_eq_ok.mp h
  obtain ⟨hslashed, p, hp, hnode⟩ := read_eq_content.mp hread
  have hplaces : p ≠ place := by
    rintro rfl
    exact hne p hlocate hp
  refine read_eq_content.mpr ⟨hslashed, p, hsame.locate.mp hp, ?_⟩
  rw [node?_put_of_ne hplaces, hnode]

section Writes

variable {files : List (String × String)}

/-- Writes texts to the files of paths, one after the other. -/
def writeAll (t : FileTree) (files : List (String × String)) : Except SystemError FileTree :=
  files.foldlM (fun t file => t.write file.1 file.2.toUTF8) t

theorem writeAll_cons_eq_ok {file : String × String} :
    t.writeAll (file :: files) = .ok t' ↔
      ∃ t₁, t.write file.1 file.2.toUTF8 = .ok t₁ ∧ t₁.writeAll files = .ok t' := by
  rw [writeAll, List.foldlM_cons, bind_eq_ok]
  rfl

theorem read_of_writeAll_of_apart (h : t.writeAll files = .ok t')
    (hother : ∀ file ∈ files, t.Apart file.1 other) (hread : t.read other = .content content) :
    t'.read other = .content content := by
  induction files generalizing t with
  | nil => exact Except.ok.inj h ▸ hread
  | cons file files ih =>
    obtain ⟨t₁, hwrite, hrest⟩ := writeAll_cons_eq_ok.mp h
    obtain ⟨hfile, hfiles⟩ := List.forall_mem_cons.mp hother
    have hsame := sameDirectories_of_write hwrite
    exact ih hrest (fun f hf => hsame.apart.mp (hfiles f hf))
      (read_of_write_of_apart hwrite hfile hread)

/-- If no two paths lead to one place, every file has in the end what was written to it. -/
theorem read_of_writeAll (h : t.writeAll files = .ok t')
    (hapart : files.Pairwise fun file other => t.Apart file.1 other.1) :
    ∀ file ∈ files, t'.read file.1 = .content file.2.toUTF8 := by
  induction files generalizing t with
  | nil => exact List.forall_mem_nil _
  | cons file files ih =>
    obtain ⟨t₁, hwrite, hrest⟩ := writeAll_cons_eq_ok.mp h
    obtain ⟨hfile, hfiles⟩ := List.pairwise_cons.mp hapart
    have hsame := sameDirectories_of_write hwrite
    have hlater : ∀ f ∈ files, t₁.Apart f.1 file.1 := fun f hf => by
      intro place hplace hplace'
      exact hsame.apart.mp (hfile f hf) place hplace' hplace
    exact List.forall_mem_cons.mpr ⟨read_of_writeAll_of_apart hrest hlater (read_of_write hwrite),
      ih hrest (hfiles.imp hsame.apart.mp)⟩

end Writes

end ModelRegistry.CommandLine.FileTree
