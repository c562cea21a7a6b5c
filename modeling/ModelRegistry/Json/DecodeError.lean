import ModelRegistry.Json.Fault
import ModelRegistry.Json.Number
import ModelRegistry.Text.Quoted

/-!
# Errors of decoding

Why a JSON text or value is not accepted as a value of some type, with the wording of each reason.
-/

namespace ModelRegistry.Json

/-- What stands where something else is expected. -/
inductive Found
  | null
  | bool (b : Bool)
  | number (n : Number)
  | string (s : String)
  | sequence
  | map
  deriving DecidableEq

inductive DecodeError
  | fault (f : Fault)
  | invalidType (found : Found) (expected : String)
  | invalidValue (found : Found) (expected : String)
  | invalidLength (length : Nat) (expected : String)
  | unknownVariant (name : String) (known : List String)
  | missingField (name : String)
  | duplicateField (name : String)
  deriving DecidableEq

/-- A text that is not JSON, one that ends too early, or JSON of another form. -/
inductive ErrorCategory
  | malformed
  | ended
  | data
  deriving DecidableEq

def Found.describe : Found → String
  | .null => "null"
  | .bool true => "boolean `true`"
  | .bool false => "boolean `false`"
  | .number (.integer i _) => "integer `" ++ String.ofList (Decimal.intText i) ++ "`"
  | .number (.double x) => "floating point `" ++ String.ofList (Number.doubleText x) ++ "`"
  | .string s => "string " ++ Text.quoted s
  | .sequence => "sequence"
  | .map => "map"

def ticked (name : String) : String :=
  "`" ++ name ++ "`"

/-- A choice of names, as a message offers it. -/
def alternatives : List String → String
  | [] => "there are no variants"
  | [a] => "expected " ++ ticked a
  | [a, b] => "expected " ++ ticked a ++ " or " ++ ticked b
  | names => "expected one of " ++ ", ".intercalate (names.map ticked)

namespace DecodeError

def message : DecodeError → String
  | .fault f => f.message
  | .invalidType found expected =>
    "invalid type: " ++ found.describe ++ ", expected " ++ expected
  | .invalidValue found expected =>
    "invalid value: " ++ found.describe ++ ", expected " ++ expected
  | .invalidLength length expected =>
    "invalid length " ++ String.ofList (Decimal.natText length) ++ ", expected " ++ expected
  | .unknownVariant name known =>
    "unknown variant " ++ ticked name ++ ", " ++ alternatives known
  | .missingField name => "missing field " ++ ticked name
  | .duplicateField name => "duplicate field " ++ ticked name

def category : DecodeError → ErrorCategory
  | .fault f => if f.atEnd then .ended else .malformed
  | _ => .data

end DecodeError

end ModelRegistry.Json
