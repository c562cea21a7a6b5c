import ModelRegistry.Json.Basic

/-!
# Writing JSON

`render` writes a tree in one of two layouts: compact, without any blanks, or pretty, with every
item and member on a line of its own, two blanks of indentation for each level, and a blank after
each colon. Both layouts differ only in the gaps between the same tokens.
-/

namespace ModelRegistry.Json

inductive Layout
  | compact
  | pretty
  deriving DecidableEq

namespace Layout

/-- What stands before an item or a closing bracket at the given depth. -/
def gap : Layout → Nat → List Char
  | .compact, _ => []
  | .pretty, depth => '\n' :: List.replicate (2 * depth) ' '

def colon : Layout → List Char
  | .compact => [':']
  | .pretty => [':', ' ']

end Layout

def hexDigit (n : Nat) : Char :=
  if n < 10 then Char.ofNat ('0'.toNat + n) else Char.ofNat ('a'.toNat + (n - 10))

/-- Quotes, backslashes and controls are escaped, all else stands for itself. -/
def escapeChar (c : Char) : List Char :=
  match c with
  | '"' => ['\\', '"']
  | '\\' => ['\\', '\\']
  | '\x08' => ['\\', 'b']
  | '\x0c' => ['\\', 'f']
  | '\n' => ['\\', 'n']
  | '\r' => ['\\', 'r']
  | '\t' => ['\\', 't']
  | c =>
    if c.toNat < 32 then
      ['\\', 'u', '0', '0', hexDigit (c.toNat / 16), hexDigit (c.toNat % 16)]
    else [c]

def stringText (s : String) : List Char :=
  '"' :: s.toList.flatMap escapeChar ++ ['"']

mutual

def write (l : Layout) (depth : Nat) : Json → List Char
  | .null => ['n', 'u', 'l', 'l']
  | .bool true => ['t', 'r', 'u', 'e']
  | .bool false => ['f', 'a', 'l', 's', 'e']
  | .number n => n.text
  | .string s => stringText s
  | .array [] => ['[', ']']
  | .array (j :: js) =>
    '[' :: l.gap (depth + 1) ++ write l (depth + 1) j ++ writeItems l (depth + 1) js ++
      l.gap depth ++ [']']
  | .object [] => ['\x7b', '\x7d']
  | .object ((k, j) :: ms) =>
    '\x7b' :: l.gap (depth + 1) ++ stringText k ++ l.colon ++ write l (depth + 1) j ++
      writeMembers l (depth + 1) ms ++ l.gap depth ++ ['\x7d']

/-- The items after the first, each after a comma. -/
def writeItems (l : Layout) (depth : Nat) : List Json → List Char
  | [] => []
  | j :: js => ',' :: l.gap depth ++ write l depth j ++ writeItems l depth js

/-- The members after the first, each after a comma. -/
def writeMembers (l : Layout) (depth : Nat) : List (String × Json) → List Char
  | [] => []
  | (k, j) :: ms =>
    ',' :: l.gap depth ++ stringText k ++ l.colon ++ write l depth j ++ writeMembers l depth ms

end

def render (l : Layout) (j : Json) : String :=
  String.ofList (write l 0 j)

end ModelRegistry.Json
