import ModelRegistry.Located
import ModelRegistry.Registry.Format

/-!
# Reports

A report lists what the passes changed in a registry, in the order in which they did it, and what
they noticed and left as it was.
-/

namespace ModelRegistry

open Json

inductive ChangeKind
  | importRemoved (name : String)
  | parentAssigned (parent : String)
  | discriminatorRequired (property : String)
  deriving DecidableEq

abbrev Change := Located ChangeKind

namespace Change

def toJson (c : Change) : Json :=
  match c.what with
  | .importRemoved name => Located.toJson c "import_removed" "import" (.string name)
  | .parentAssigned parent => Located.toJson c "parent_assigned" "parent" (.string parent)
  | .discriminatorRequired property =>
    Located.toJson c "discriminator_required" "property" (.string property)

def format : Tagged Change where
  title := "internally tagged enum Change"
  kinds := [
    ("import_removed",
      Located.kind "Change::ImportRemoved" "import" .string "" .importRemoved),
    ("parent_assigned",
      Located.kind "Change::ParentAssigned" "parent" .string "" .parentAssigned),
    ("discriminator_required",
      Located.kind "Change::DiscriminatorRequired" "property" .string "" .discriminatorRequired)]

end Change

inductive DiagnosticKind
  /-- A discriminator names a property that the model does not declare. -/
  | danglingDiscriminator (property : String)
  /-- Of several bases all but the first are left out of the hierarchy. -/
  | basesDropped (dropped : List String)
  deriving DecidableEq

abbrev Diagnostic := Located DiagnosticKind

namespace Diagnostic

def toJson (d : Diagnostic) : Json :=
  match d.what with
  | .danglingDiscriminator property =>
    Located.toJson d "dangling_discriminator" "property" (.string property)
  | .basesDropped dropped => Located.toJson d "bases_dropped" "dropped" (.strings dropped)

def format : Tagged Diagnostic where
  title := "internally tagged enum Diagnostic"
  kinds := [
    ("dangling_discriminator",
      Located.kind "Diagnostic::DanglingDiscriminator" "property" .string ""
        .danglingDiscriminator),
    ("bases_dropped",
      Located.kind "Diagnostic::BasesDropped" "dropped" (.list .string) [] .basesDropped)]

def ofText (s : String) : Except DecodeError Diagnostic :=
  format.decoder.ofText s

end Diagnostic

structure Report where
  changes : List Change := []
  diagnostics : List Diagnostic := []
  deriving DecidableEq

namespace Report

def empty : Report := {}

instance : Append Report :=
  ⟨fun a b => ⟨a.changes ++ b.changes, a.diagnostics ++ b.diagnostics⟩⟩

def importsRemoved (r : Report) : Nat :=
  r.changes.countP fun c => c.what matches .importRemoved _

def parentsAssigned (r : Report) : Nat :=
  r.changes.countP fun c => c.what matches .parentAssigned _

def discriminatorsRequired (r : Report) : Nat :=
  r.changes.countP fun c => c.what matches .discriminatorRequired _

def toJson (r : Report) : Json :=
  .object [("changes", .array (r.changes.map Change.toJson)),
    ("diagnostics", .array (r.diagnostics.map Diagnostic.toJson))]

def format : RecordFormat Report where
  title := "struct Report"
  initial := {}
  fields := [
    .needed "changes" (.list Change.format.decoder) fun changes r => { r with changes },
    .needed "diagnostics" (.list Diagnostic.format.decoder)
      fun diagnostics r => { r with diagnostics }]

def ofText (s : String) : Except DecodeError Report :=
  format.decoder.ofText s

end Report

end ModelRegistry
