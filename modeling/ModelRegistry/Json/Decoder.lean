import ModelRegistry.Json.DecodeError
import ModelRegistry.Json.Document

/-!
# Decoders

A decoder takes a type's values from JSON in two ways: straight from a document, within a depth of
nesting that is left, and from a tree that has been read before. The first raises the first error in
the order of the text; parts of a document that do not matter are only skipped.
-/

namespace ModelRegistry.Json

structure Decoder (α : Type) where
  ofDocument : Nat → Document → Except DecodeError α
  ofJson : Json → Except DecodeError α

def refuse {α : Type} (r : Except Fault α) : Except DecodeError α :=
  r.mapError .fault

/-- A document that is not what is expected: a fault in it comes first, if it is no container. -/
def Document.mismatch (expected : String) (d : Document) : DecodeError :=
  let found : Except Fault Found := match d with
    | .null => .ok .null
    | .bool b => .ok (.bool b)
    | .number n => .number <$> n
    | .string s => .string <$> s
    | .list _ _ => .ok .sequence
    | .object _ _ => .ok .map
    | .brokenLiteral b | .broken b => .error b.strict
  match found with
  | .ok f => .invalidType f expected
  | .error f => .fault f

def found : Json → Found
  | .null => .null
  | .bool b => .bool b
  | .number n => .number n
  | .string s => .string s
  | .array _ => .sequence
  | .object _ => .map

def mismatch (expected : String) (j : Json) : DecodeError :=
  .invalidType j.found expected

namespace Decoder

variable {α β : Type}

/-- Decodes a whole text. -/
def ofSource (d : Decoder α) (s : Source) : Except DecodeError α := do
  let r := Document.ofSource s
  let a ← d.ofDocument maxDepth r.document
  if r.surplus then .error (.fault .trailingCharacters) else .ok a

def ofText (d : Decoder α) (s : String) : Except DecodeError α :=
  d.ofSource (.ofText s)

def ofValue (d : Decoder α) (v : Value) : Except DecodeError α :=
  d.ofJson v.json

def map (f : α → β) (d : Decoder α) : Decoder β where
  ofDocument depth doc := f <$> d.ofDocument depth doc
  ofJson j := f <$> d.ofJson j

def string : Decoder String where
  ofDocument _
    | .string s => refuse s
    | d => .error (d.mismatch "a string")
  ofJson
    | .string s => .ok s
    | j => .error (j.mismatch "a string")

def bool : Decoder Bool where
  ofDocument _
    | .bool b => .ok b
    | d => .error (d.mismatch "a boolean")
  ofJson
    | .bool b => .ok b
    | j => .error (j.mismatch "a boolean")

/-- Takes over any value. -/
def value : Decoder Value where
  ofDocument depth d := toValue <$> refuse (d.read depth)
  ofJson j := .ok j.toValue

/-- Takes null for an absent value. -/
def option (d : Decoder α) : Decoder (Option α) where
  ofDocument depth
    | .null => .ok none
    | doc => some <$> d.ofDocument depth doc
  ofJson
    | .null => .ok none
    | j => some <$> d.ofJson j

def documentItems (d : Decoder α) (depth : Nat) : List Document → Except DecodeError (List α)
  | [] => .ok []
  | doc :: docs => do
    let a ← d.ofDocument depth doc
    return a :: (← documentItems d depth docs)

def jsonItems (d : Decoder α) : List Json → Except DecodeError (List α)
  | [] => .ok []
  | j :: js => do
    let a ← d.ofJson j
    return a :: (← jsonItems d js)

def list (d : Decoder α) : Decoder (List α) where
  ofDocument depth
    | .list items stop => do
      let as ← documentItems d (← refuse (descend depth)) items
      refuse stop.strict
      return as
    | doc => .error (doc.mismatch "a sequence")
  ofJson
    | .array js => jsonItems d js
    | j => .error (j.mismatch "a sequence")

def documentMembers (d : Decoder α) (depth : Nat) :
    List (Key × Document) → Except DecodeError (List (String × α))
  | [] => .ok []
  | (key, doc) :: ms => do
    let k ← refuse key
    let a ← d.ofDocument depth doc
    return (k, a) :: (← documentMembers d depth ms)

def jsonMembers (d : Decoder α) : List (String × Json) → Except DecodeError (List (String × α))
  | [] => .ok []
  | (k, j) :: ms => do
    let a ← d.ofJson j
    return (k, a) :: (← jsonMembers d ms)

/-- Objects with members of one kind; the last of equal keys counts. -/
def nameMap (d : Decoder α) : Decoder (NameMap α) where
  ofDocument depth
    | .object members stop => do
      let ms ← documentMembers d (← refuse (descend depth)) members
      refuse stop.strict
      return .ofList ms
    | doc => .error (doc.mismatch "a map")
  ofJson
    | .object ms => .ofList <$> jsonMembers d ms
    | j => .error (j.mismatch "a map")

end Decoder

end ModelRegistry.Json
