import ModelRegistry.Json.Decoder

/-!
# Decoding records

A record is written as an object of its fields, in any order and with unknown members between them,
or as an array of its fields in their order. A field that is not required may be left out. In an
object no known field may come twice; in an array only fields at the end may be left out, and there
may be no more items than fields.
-/

namespace ModelRegistry.Json

/-- A field of a record `σ`: decoding it gives the change that it makes to the record. -/
structure Field (σ : Type) where
  name : String
  required : Bool
  decoder : Decoder (σ → σ)

structure RecordFormat (σ : Type) where
  title : String
  /-- The record whose fields are all left out. -/
  initial : σ
  fields : List (Field σ)

namespace Field

variable {α σ : Type}

def needed (name : String) (d : Decoder α) (set : α → σ → σ) : Field σ :=
  ⟨name, true, d.map set⟩

def optional (name : String) (d : Decoder α) (set : α → σ → σ) : Field σ :=
  ⟨name, false, d.map set⟩

end Field

namespace RecordFormat

variable {σ : Type}

/-- The wording of the record with its count of fields. -/
def expectation (f : RecordFormat σ) : String :=
  let n := f.fields.length
  f.title ++ " with " ++ String.ofList (Decimal.natText n) ++
    if n = 1 then " element" else " elements"

def field? (f : RecordFormat σ) (name : String) : Option (Field σ) :=
  f.fields.find? (·.name = name)

/-- A record in the making, with the names of the fields that it has got. -/
structure Draft (σ : Type) where
  seen : List String
  record : σ

def start (f : RecordFormat σ) : Draft σ :=
  ⟨[], f.initial⟩

/-- Takes the field of one member, unless it is there already. -/
def Draft.take (draft : Draft σ) (name : String) (r : Except DecodeError (σ → σ)) :
    Except DecodeError (Draft σ) := do
  if name ∈ draft.seen then .error (.duplicateField name)
  let set ← r
  return ⟨name :: draft.seen, set draft.record⟩

/-- A finished record needs all required fields. -/
def complete (f : RecordFormat σ) (draft : Draft σ) : Except DecodeError σ :=
  match f.fields.find? fun field => field.required && field.name ∉ draft.seen with
  | some field => .error (.missingField field.name)
  | none => .ok draft.record

def documentMembers (f : RecordFormat σ) (depth : Nat) :
    List (Key × Document) → Draft σ → Except DecodeError (Draft σ)
  | [], draft => .ok draft
  | (key, d) :: ms, draft => do
    let name ← refuse key
    match f.field? name with
    | some field =>
      documentMembers f depth ms (← draft.take name (field.decoder.ofDocument depth d))
    | none =>
      refuse d.skip
      documentMembers f depth ms draft

def jsonMembers (f : RecordFormat σ) :
    List (String × Json) → Draft σ → Except DecodeError (Draft σ)
  | [], draft => .ok draft
  | (name, j) :: ms, draft => do
    match f.field? name with
    | some field => jsonMembers f ms (← draft.take name (field.decoder.ofJson j))
    | none => jsonMembers f ms draft

/-- The end of an array whose record is full. -/
def closeArray : List Document → Stop → Except Fault Unit
  | [], .closed => .ok ()
  | [], .cut b =>
    .error (if b.strict = .expectedListSeparator then .trailingCharacters else b.strict)
  | _ :: _, _ => .error .trailingCharacters

def documentItems (expectation : String) (depth : Nat) (stop : Stop) :
    Nat → List (Field σ) → List Document → σ → Except DecodeError σ
  | _, [], ds, record => do
    refuse (closeArray ds stop)
    return record
  | i, field :: fields, d :: ds, record => do
    let set ← field.decoder.ofDocument depth d
    documentItems expectation depth stop (i + 1) fields ds (set record)
  | i, field :: fields, [], record => do
    refuse stop.strict
    if field.required then .error (.invalidLength i expectation)
    else documentItems expectation depth stop (i + 1) fields [] record

/-- `total` is the length of the whole array and `surplus` the wording for too long a one. -/
def jsonItems (expectation surplus : String) (total : Nat) :
    Nat → List (Field σ) → List Json → σ → Except DecodeError σ
  | _, [], [], record => .ok record
  | _, [], _ :: _, _ => .error (.invalidLength total surplus)
  | i, field :: fields, j :: js, record => do
    let set ← field.decoder.ofJson j
    jsonItems expectation surplus total (i + 1) fields js (set record)
  | i, field :: fields, [], record =>
    if field.required then .error (.invalidLength i expectation)
    else jsonItems expectation surplus total (i + 1) fields [] record

def ofDocument (f : RecordFormat σ) (depth : Nat) : Document → Except DecodeError σ
  | .object members stop => do
    let draft ← f.documentMembers (← refuse (descend depth)) members f.start
    refuse stop.strict
    f.complete draft
  | .list items stop => do
    documentItems f.expectation (← refuse (descend depth)) stop 0 f.fields items f.initial
  | d => .error (d.mismatch f.title)

def ofJson (f : RecordFormat σ) (surplus : String) : Json → Except DecodeError σ
  | .object ms => do f.complete (← f.jsonMembers ms f.start)
  | .array js => jsonItems f.expectation surplus js.length 0 f.fields js f.initial
  | j => .error (j.mismatch f.title)

def decoder (f : RecordFormat σ) : Decoder σ where
  ofDocument := f.ofDocument
  ofJson := f.ofJson "fewer elements in array"

end RecordFormat

end ModelRegistry.Json
