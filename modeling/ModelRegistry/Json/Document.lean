import ModelRegistry.Json.Basic
import ModelRegistry.Json.Token

/-!
# JSON documents

A `Document` is what can be read of a text: a tree in the order of the text, which may break off
where the text stops being JSON. `Document.ofTokens` builds it with a stack of open containers. Of a
document `read` takes over everything, up to a given depth of nesting, and `skip` takes over
nothing; each raises the first fault that it meets. A document is also what decoders of particular
types walk over.
-/

namespace ModelRegistry.Json

/-- Whether a container is closed or its text breaks off. -/
inductive Stop
  | closed
  | cut (b : Breach)
  deriving DecidableEq

/-- A key as the strict reader finds it. -/
abbrev Key := Except Fault String

inductive Document
  | null
  | bool (b : Bool)
  | number (n : Except Fault Number)
  | string (s : Except Fault String)
  | list (items : List Document) (stop : Stop)
  | object (members : List (Key × Document)) (stop : Stop)
  /-- A word or a number that breaks off. -/
  | brokenLiteral (b : Breach)
  /-- No value, or a string that breaks off. -/
  | broken (b : Breach)

namespace Document

instance : Inhabited Document := ⟨.null⟩

/-- An open container: what has been read of it, last first, and the key whose value is due. -/
inductive Frame
  | list (items : List Document)
  | object (members : List (Key × Document)) (key : Key)

/-- What is due next, inside which open containers. In `item` and `key` the container may still be
empty, and only then may it be closed. -/
inductive State
  | value (frames : List Frame)
  | item (items : List Document) (frames : List Frame)
  | afterItem (items : List Document) (frames : List Frame)
  | key (members : List (Key × Document)) (frames : List Frame)
  | colon (members : List (Key × Document)) (key : Key) (frames : List Frame)
  | afterMember (members : List (Key × Document)) (frames : List Frame)
  | done (d : Document)
  | surplus (d : Document)
  | stopped (d : Document)

/-- Adds a complete value to the innermost open container. -/
def fill (d : Document) : List Frame → State
  | [] => .done d
  | .list items :: frames => .afterItem (d :: items) frames
  | .object members key :: frames => .afterMember ((key, d) :: members) frames

def openList (items : List Document) (b : Breach) : Document :=
  .list items.reverse (.cut b)

def openObject (members : List (Key × Document)) (b : Breach) : Document :=
  .object members.reverse (.cut b)

/-- Leaves all open containers unfinished around a value that breaks off. -/
def abandon (d : Document) : List Frame → Document
  | [] => d
  | .list items :: frames => abandon (openList (d :: items) (.both .endInList)) frames
  | .object members key :: frames =>
    abandon (openObject ((key, d) :: members) (.both .endInObject)) frames

def start (frames : List Frame) : Token → State
  | .openList => .item [] frames
  | .openObject => .key [] frames
  | .null => fill .null frames
  | .bool b => fill (.bool b) frames
  | .number n => fill (.number n) frames
  | .string s => fill (.string s) frames
  | .broken b => .stopped (abandon (.brokenLiteral b) frames)
  | .brokenString b => .stopped (abandon (.broken b) frames)
  | .closeList | .closeObject | .comma | .colon | .junk =>
    .stopped (abandon (.broken (.both .expectedValue)) frames)

def step : State → Token → State
  | .value frames, t => start frames t
  | .item [] frames, .closeList => fill (.list [] .closed) frames
  | .item items frames, .closeList =>
    .stopped (abandon (openList items ⟨.trailingComma, .expectedValue⟩) frames)
  | .item items frames, t => start (.list items :: frames) t
  | .afterItem items frames, .comma => .item items frames
  | .afterItem items frames, .closeList => fill (.list items.reverse .closed) frames
  | .afterItem items frames, _ =>
    .stopped (abandon (openList items (.both .expectedListSeparator)) frames)
  | .key members frames, .string key => .colon members key frames
  | .key members frames, .brokenString b => .stopped (abandon (openObject members b) frames)
  | .key [] frames, .closeObject => fill (.object [] .closed) frames
  | .key members frames, .closeObject =>
    .stopped (abandon (openObject members ⟨.trailingComma, .keyNotString⟩) frames)
  | .key members frames, _ =>
    .stopped (abandon (openObject members (.both .keyNotString)) frames)
  | .colon members key frames, .colon => .value (.object members key :: frames)
  | .colon members key frames, _ =>
    .stopped (abandon (.broken (.both .expectedColon)) (.object members key :: frames))
  | .afterMember members frames, .comma => .key members frames
  | .afterMember members frames, .closeObject => fill (.object members.reverse .closed) frames
  | .afterMember members frames, _ =>
    .stopped (abandon (openObject members (.both .expectedObjectSeparator)) frames)
  | .done d, _ => .surplus d
  | .surplus d, _ => .surplus d
  | .stopped d, _ => .stopped d

/-- A document, and whether more text follows it. -/
structure Reading where
  document : Document
  surplus : Bool

def finish : State → Reading
  | .value frames => ⟨abandon (.broken (.both .endInValue)) frames, false⟩
  | .item [] frames => ⟨abandon (openList [] (.both .endInList)) frames, false⟩
  | .item items frames =>
    ⟨abandon (.broken (.both .endInValue)) (.list items :: frames), false⟩
  | .afterItem items frames => ⟨abandon (openList items (.both .endInList)) frames, false⟩
  | .key [] frames => ⟨abandon (openObject [] (.both .endInObject)) frames, false⟩
  | .key members frames =>
    ⟨abandon (openObject members ⟨.endInValue, .endInObject⟩) frames, false⟩
  | .colon members key frames =>
    ⟨abandon (.broken (.both .endInObject)) (.object members key :: frames), false⟩
  | .afterMember members frames => ⟨abandon (openObject members (.both .endInObject)) frames, false⟩
  | .done d => ⟨d, false⟩
  | .surplus d => ⟨d, true⟩
  | .stopped d => ⟨d, false⟩

def ofTokens (ts : List Token) : Reading :=
  finish (ts.foldl step (.value []))

def ofSource (s : Source) : Reading :=
  ofTokens (Token.ofSource s)

end Document

def Stop.strict : Stop → Except Fault Unit
  | .closed => .ok ()
  | .cut b => .error b.strict

def Stop.loose : Stop → Except Fault Unit
  | .closed => .ok ()
  | .cut b => .error b.loose

/-- How many containers may stand inside one another. -/
def maxDepth : Nat := 127

/-- Goes into a container, if the depth that is left allows it. -/
def descend : Nat → Except Fault Nat
  | 0 => .error .tooDeep
  | depth + 1 => .ok depth

namespace Document

mutual

/-- Looks for the end of a value that nobody asked for. -/
def skip : Document → Except Fault Unit
  | .list items stop => do skipItems items; stop.loose
  | .object members stop => do skipMembers members; stop.loose
  | .brokenLiteral b | .broken b => .error b.loose
  | .null | .bool _ | .number _ | .string _ => .ok ()

def skipItems : List Document → Except Fault Unit
  | [] => .ok ()
  | d :: ds => do d.skip; skipItems ds

def skipMembers : List (Key × Document) → Except Fault Unit
  | [] => .ok ()
  | (_, d) :: ms => do d.skip; skipMembers ms

end

mutual

/-- Takes over a whole value, with its members in the order of the text. -/
def read (depth : Nat) : Document → Except Fault Json
  | .null => .ok .null
  | .bool b => .ok (.bool b)
  | .number n => .number <$> n
  | .string s => .string <$> s
  | .list items stop => do
    let js ← readItems (← descend depth) items
    stop.strict
    return .array js
  | .object members stop => do
    let ms ← readMembers (← descend depth) members
    stop.strict
    return .object ms
  | .brokenLiteral b | .broken b => .error b.strict

def readItems (depth : Nat) : List Document → Except Fault (List Json)
  | [] => .ok []
  | d :: ds => do
    let j ← d.read depth
    return j :: (← readItems depth ds)

def readMembers (depth : Nat) : List (Key × Document) → Except Fault (List (String × Json))
  | [] => .ok []
  | (key, d) :: ms => do
    let k ← key
    let j ← d.read depth
    return (k, j) :: (← readMembers depth ms)

end

end Document

end ModelRegistry.Json
