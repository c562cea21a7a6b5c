import ModelRegistry.Json.Decoder

/-!
# Decoding a choice of names

A value out of a fixed list is written as its name, or as an object whose only key is the name and
whose only value is null.
-/

namespace ModelRegistry.Json

structure Choice (α : Type) where
  variants : List (String × α)

namespace Choice

variable {α : Type}

def pick (c : Choice α) (name : String) : Except DecodeError α :=
  match c.variants.lookup name with
  | some a => .ok a
  | none => .error (.unknownVariant name (c.variants.map (·.1)))

/-- The end of an object after its only member. -/
def closeObject : List (Key × Document) → Stop → Except Fault Unit
  | [], .closed => .ok ()
  | [], .cut b => .error (if b.strict = .endInObject then .endInObject else .expectedValue)
  | _ :: _, _ => .error .expectedValue

def unitOfDocument : Document → Except DecodeError Unit
  | .null => .ok ()
  | d => .error (d.mismatch "unit")

def ofDocument (c : Choice α) (depth : Nat) : Document → Except DecodeError α
  | .string s => do c.pick (← refuse s)
  | .object members stop => do
    discard (refuse (descend depth))
    match members with
    | [] =>
      refuse stop.strict
      .error (.fault .expectedValue)
    | (key, d) :: ms =>
      let a ← c.pick (← refuse key)
      unitOfDocument d
      refuse (closeObject ms stop)
      return a
  | .broken b => .error (.fault b.strict)
  | _ => .error (.fault .expectedValue)

/-- `isUnit` tells which values may stand beside a name. -/
def ofJson (c : Choice α) (isUnit : Json → Bool) : Json → Except DecodeError α
  | .string s => c.pick s
  | .object [(k, j)] => do
    let a ← c.pick k
    if isUnit j then .ok a else .error (j.mismatch "unit")
  | .object _ => .error (.invalidValue .map "map with a single key")
  | j => .error (j.mismatch "string or map")

def decoder (c : Choice α) : Decoder α where
  ofDocument := c.ofDocument
  ofJson := c.ofJson fun
    | .null => true
    | _ => false

/-- Inside a tagged object an empty object may stand for null. -/
def buffered (c : Choice α) : Decoder α where
  ofDocument := c.ofDocument
  ofJson := c.ofJson fun
    | .null | .object [] => true
    | _ => false

end Choice

end ModelRegistry.Json
