import ModelRegistry.Failure
import ModelRegistry.Hierarchy
import ModelRegistry.Import.Filter

/-!
# Post-processing

A run filters the imports of a registry and then resolves its hierarchy. In strict mode it first
checks the registry and, if there is any inconsistency, fails with the first of them and leaves the
registry as it was.
-/

namespace ModelRegistry

/-- Both passes, one after the other. -/
def Registry.runPasses (r : Registry) (o : Options) : Logged Note Registry := do
  let r ← r.filterImports o
  r.resolveHierarchy

/-- What a run leaves behind: the registry afterwards, also if it failed. -/
structure Outcome where
  registry : Registry
  result : Except Inconsistency Report
  events : List Event

/-- The issue that stops a run before it starts. -/
def Registry.obstacle? (r : Registry) (o : Options) : Option Inconsistency :=
  if o.strict then (r.check o.features).head? else none

def Report.summary (report : Report) (r : Registry) : Event :=
  .finished r.modelCount report.importsRemoved report.parentsAssigned
    report.discriminatorsRequired report.diagnostics.length

def Registry.postProcess (r : Registry) (o : Options) : Outcome :=
  match r.obstacle? o with
  | some issue => ⟨r, .error issue, []⟩
  | none =>
    let run := r.runPasses o
    let report := Report.ofNotes run.log
    ⟨run.value, .ok report, Event.ofNotes run.log ++ [report.summary run.value]⟩

namespace Registry

/-- The JSON value of a registry. -/
def toValue (r : Registry) : Json.Value := r.toJson.toValue

/-- Post-processes a registry that is given as a JSON value, and gives it back as one. -/
def postProcessValue (v : Json.Value) (o : Options) : Except Failure (Json.Value × Report) := do
  let r ← (ofValue v).mapError .json
  let run := r.postProcess o
  let report ← run.result.mapError .inconsistent
  return (run.registry.toValue, report)

end Registry

end ModelRegistry
