import ModelRegistry.Json.Record

/-!
# Decoding tagged objects

A value of one of several kinds is written as an object with its kind under the key `type`, which
may stand anywhere among the other members, or as an array with its kind first. The whole of it is
read before the other members are decoded, so faults of the text come first.
-/

namespace ModelRegistry.Json

/-- How the other members of one kind of object are decoded. -/
abbrev Tagged.Kind (α : Type) := Json → Except DecodeError α

structure Tagged (α : Type) where
  title : String
  kinds : List (String × Tagged.Kind α)

namespace Tagged

variable {α : Type}

def pick (t : Tagged α) (name : String) : Except DecodeError (Kind α) :=
  match t.kinds.lookup name with
  | some kind => .ok kind
  | none => .error (.unknownVariant name (t.kinds.map (·.1)))

def kindOf (t : Tagged α) : Document → Except DecodeError (Kind α)
  | .string s => do t.pick (← refuse s)
  | d => .error (d.mismatch "variant identifier")

/-- Splits the members into the kind, if it is there, and the others in their order. -/
def splitMembers (t : Tagged α) (depth : Nat) : List (Key × Document) → Option (Kind α) →
    Except DecodeError (Option (Kind α) × List (String × Json))
  | [], kind => .ok (kind, [])
  | (key, d) :: ms, kind => do
    let name ← refuse key
    if name = "type" then
      if kind.isSome then .error (.duplicateField "type")
      else splitMembers t depth ms (some (← t.kindOf d))
    else
      let j ← refuse (d.read depth)
      let (kind, rest) ← splitMembers t depth ms kind
      return (kind, (name, j) :: rest)

def ofDocument (t : Tagged α) (depth : Nat) : Document → Except DecodeError α
  | .object members stop => do
    let (kind, ms) ← t.splitMembers (← refuse (descend depth)) members none
    refuse stop.strict
    match kind with
    | some kind => kind (.object ms)
    | none => .error (.missingField "type")
  | .list items stop => do
    let depth ← refuse (descend depth)
    match items with
    | [] =>
      refuse stop.strict
      .error (.missingField "type")
    | d :: ds =>
      let kind ← t.kindOf d
      let js ← refuse (Document.readItems depth ds)
      refuse stop.strict
      kind (.array js)
  | d => .error (d.mismatch t.title)

def kindOfJson (t : Tagged α) : Json → Except DecodeError (Kind α)
  | .string s => t.pick s
  | j => .error (j.mismatch "variant identifier")

def splitJson (t : Tagged α) : List (String × Json) → Option (Kind α) →
    Except DecodeError (Option (Kind α) × List (String × Json))
  | [], kind => .ok (kind, [])
  | (name, j) :: ms, kind => do
    if name = "type" then
      if kind.isSome then .error (.duplicateField "type")
      else splitJson t ms (some (← t.kindOfJson j))
    else
      let (kind, rest) ← splitJson t ms kind
      return (kind, (name, j) :: rest)

def ofJson (t : Tagged α) : Json → Except DecodeError α
  | .object ms => do
    let (kind, ms) ← t.splitJson ms none
    match kind with
    | some kind => kind (.object ms)
    | none => .error (.missingField "type")
  | .array [] => .error (.missingField "type")
  | .array (j :: js) => do
    let kind ← t.kindOfJson j
    kind (.array js)
  | j => .error (j.mismatch t.title)

def decoder (t : Tagged α) : Decoder α where
  ofDocument := t.ofDocument
  ofJson := t.ofJson

end Tagged

/-- The decoding of the other members of one kind of tagged object. -/
def RecordFormat.kind {σ : Type} (f : RecordFormat σ) : Tagged.Kind σ :=
  f.ofJson (String.ofList (Decimal.natText f.fields.length) ++ " elements in sequence")

end ModelRegistry.Json
