import ModelRegistry.Inconsistency

/-!
# Failures

Why post-processing fails: its input does not decode, the serialization library is unknown, or the
registry is inconsistent and the run is strict.
-/

namespace ModelRegistry

inductive Failure
  | json (e : Json.DecodeError)
  | unknownLibrary (name : String)
  | inconsistent (issue : Inconsistency)

def Failure.message : Failure → String
  | .json e => "JSON parsing error: " ++ e.message
  | .unknownLibrary name => "Unknown serialization library: " ++ name
  | .inconsistent issue => "Schema inconsistency: " ++ issue.message

end ModelRegistry
