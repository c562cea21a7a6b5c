import ModelRegistry.Json.Tagged

/-!
# Statements about one model

A change, a finding or an issue is a statement `what` about the model of some name in some unit. In
JSON it is a tagged object of its kind, the two names and one more member.
-/

namespace ModelRegistry

open Json

structure Located (κ : Type) where
  unit : String
  model : String
  what : κ
  deriving DecidableEq

namespace Located

variable {κ δ : Type}

def map (f : κ → δ) (l : Located κ) : Located δ :=
  ⟨l.unit, l.model, f l.what⟩

def toJson (l : Located κ) (kind key : String) (detail : Json) : Json :=
  .object [("type", .string kind), ("unit", .string l.unit), ("model", .string l.model),
    (key, detail)]

/-- The members of one kind of statement beside its tag. -/
def format (title key : String) (d : Decoder δ) (initial : δ) : RecordFormat (Located δ) where
  title := "struct variant " ++ title
  initial := ⟨"", "", initial⟩
  fields := [
    .needed "unit" .string fun unit l => { l with unit },
    .needed "model" .string fun model l => { l with model },
    .needed key d fun what l => { l with what }]

def kind (title key : String) (d : Decoder δ) (initial : δ) (f : δ → κ) :
    Tagged.Kind (Located κ) :=
  fun j => map f <$> (format title key d initial).kind j

end Located

end ModelRegistry
