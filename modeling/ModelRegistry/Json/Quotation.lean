import ModelRegistry.Json.Fault
import ModelRegistry.Json.Source

/-!
# String literals

`scan` cuts a string literal, after its opening quote, into pieces up to its closing quote; this is
all that the loose reader asks for. `decode` joins the pieces to a text, pairs the halves of
surrogate pairs and refuses those that stand alone and stray bytes.
-/

namespace ModelRegistry.Json.Quotation

/-- A character, a code unit written in hexadecimal, or a stray byte. -/
inductive Piece
  | char (c : Char)
  | unit (u : Nat)
  | stray
  deriving DecidableEq

/-- How a literal ends: at its closing quote, with the text, or at a fault. -/
inductive Closing
  | closed (rest : Source)
  | ended
  | control
  | badEscape
  | badHex

structure Literal where
  pieces : List Piece
  closing : Closing

def Literal.cons (p : Piece) (l : Literal) : Literal :=
  ⟨p :: l.pieces, l.closing⟩

def hexValue (c : Char) : Option Nat :=
  if '0' ≤ c ∧ c ≤ '9' then some (c.toNat - '0'.toNat)
  else if 'a' ≤ c ∧ c ≤ 'f' then some (c.toNat - 'a'.toNat + 10)
  else if 'A' ≤ c ∧ c ≤ 'F' then some (c.toNat - 'A'.toNat + 10)
  else none

def hexUnit (a b c d : Option Char) : Option Nat := do
  let a ← hexValue (← a)
  let b ← hexValue (← b)
  let c ← hexValue (← c)
  let d ← hexValue (← d)
  return ((a * 16 + b) * 16 + c) * 16 + d

def shortEscape : Char → Option Char
  | '"' => some '"'
  | '\\' => some '\\'
  | '/' => some '/'
  | 'b' => some '\x08'
  | 'f' => some '\x0c'
  | 'n' => some '\n'
  | 'r' => some '\r'
  | 't' => some '\t'
  | _ => none

/-- Cuts a literal into pieces. A hexadecimal escape takes four bytes; where fewer are left the text
ends in the string. -/
def scan : Source → Literal
  | [] => ⟨[], .ended⟩
  | none :: rest => (scan rest).cons .stray
  | some '"' :: rest => ⟨[], .closed rest⟩
  | some '\\' :: [] => ⟨[], .ended⟩
  | some '\\' :: none :: _ => ⟨[], .badEscape⟩
  | some '\\' :: some 'u' :: a :: b :: c :: d :: rest =>
    match hexUnit a b c d with
    | some u => (scan rest).cons (.unit u)
    | none => ⟨[], .badHex⟩
  | some '\\' :: some 'u' :: rest => ⟨[], if Source.byteLength rest < 4 then .ended else .badHex⟩
  | some '\\' :: some e :: rest =>
    match shortEscape e with
    | some c => (scan rest).cons (.char c)
    | none => ⟨[], .badEscape⟩
  | some c :: rest => if c.toNat < 32 then ⟨[], .control⟩ else (scan rest).cons (.char c)

def Closing.fault : Closing → Fault
  | .closed _ | .ended => .endInString
  | .control => .controlCharacter
  | .badEscape | .badHex => .invalidEscape

def isHighSurrogate (u : Nat) : Bool := 0xD800 ≤ u && u ≤ 0xDBFF

def isLowSurrogate (u : Nat) : Bool := 0xDC00 ≤ u && u ≤ 0xDFFF

def pairedChar (high low : Nat) : Char :=
  Char.ofNat (0x10000 + (high - 0xD800) * 0x400 + (low - 0xDC00))

/-- The fault of a literal whose last piece is the first half of a surrogate pair: what follows it
has to be another hexadecimal escape. -/
def Closing.faultAfterHigh : Closing → Fault
  | .ended => .endInString
  | .badHex => .invalidEscape
  | .closed _ | .control | .badEscape => .unfinishedSurrogatePair

def decode (closing : Closing) : List Piece → Except Fault (List Char)
  | [] =>
    match closing with
    | .closed _ => .ok []
    | c => .error c.fault
  | .char c :: ps => (c :: ·) <$> decode closing ps
  | .stray :: ps => do
    discard (decode closing ps)
    .error .invalidCodePoint
  | .unit u :: ps =>
    if isLowSurrogate u then .error .loneSurrogate
    else if isHighSurrogate u then
      match ps with
      | .unit v :: ps =>
        if isLowSurrogate v then (pairedChar u v :: ·) <$> decode closing ps
        else .error .loneSurrogate
      | [] => .error closing.faultAfterHigh
      | _ => .error .unfinishedSurrogatePair
    else (Char.ofNat u :: ·) <$> decode closing ps

def Literal.text (l : Literal) : Except Fault String :=
  String.ofList <$> decode l.closing l.pieces

/-- The two faults of a literal that has no closing quote. -/
def Literal.breach (l : Literal) : Breach where
  strict := match l.text with
    | .error f => f
    | .ok _ => l.closing.fault
  loose := l.closing.fault

theorem length_lt_of_scan_closed {s rest : Source} (h : (scan s).closing = .closed rest) :
    rest.length < s.length := by
  fun_induction scan s <;> simp_all [Literal.cons] <;> grind

end ModelRegistry.Json.Quotation
