import ModelRegistry.Json.Numeral
import ModelRegistry.Json.Quotation

/-!
# Tokens of a JSON document

`Token.ofSource` cuts a source into tokens and drops the blanks between them. A token that breaks
off, or a character that starts none, is the last: no reader gets past it. A number that no double
can hold or a literal that is no text is complete as a token, but of no use to a strict reader.
-/

namespace ModelRegistry.Json

inductive Token
  | openList
  | closeList
  | openObject
  | closeObject
  | comma
  | colon
  | null
  | bool (b : Bool)
  | number (n : Except Fault Number)
  | string (s : Except Fault String)
  | brokenString (b : Breach)
  | broken (b : Breach)
  | junk

namespace Token

/-- What the next character begins: nothing, a token with more text after it, or the last token. -/
inductive Step
  | blank
  | token (t : Token) (rest : Source)
  | last (t : Token)

def matchWord : List Char → Source → Except Breach Source
  | [], rest => .ok rest
  | _ :: _, [] => .error (.both .endInValue)
  | c :: cs, g :: rest => if g = some c then matchWord cs rest else .error (.both .expectedLiteral)

def word (t : Token) (letters : List Char) (rest : Source) : Step :=
  match matchWord letters rest with
  | .ok rest => .token t rest
  | .error b => .last (.broken b)

def quotation (rest : Source) : Step :=
  let l := Quotation.scan rest
  match l.closing with
  | .closed rest => .token (.string l.text) rest
  | _ => .last (.brokenString l.breach)

def numeral (negative : Bool) (s : Source) : Step :=
  match Numeral.scanWhole negative s with
  | .found n rest => .token (.number n.value) rest
  | .broken b => .last (.broken b)

def step (c : Char) (rest : Source) : Step :=
  match c with
  | ' ' | '\t' | '\n' | '\r' => .blank
  | '[' => .token .openList rest
  | ']' => .token .closeList rest
  | '\x7b' => .token .openObject rest
  | '\x7d' => .token .closeObject rest
  | ',' => .token .comma rest
  | ':' => .token .colon rest
  | 'n' => word .null ['u', 'l', 'l'] rest
  | 't' => word (.bool true) ['r', 'u', 'e'] rest
  | 'f' => word (.bool false) ['a', 'l', 's', 'e'] rest
  | '"' => quotation rest
  | '-' => numeral true rest
  | c => if (Numeral.digitValue c).isSome then numeral false (some c :: rest) else .last .junk

theorem length_le_of_matchWord {cs : List Char} {s rest : Source}
    (h : matchWord cs s = .ok rest) : rest.length ≤ s.length := by
  fun_induction matchWord cs s with
  | case1 => cases h; exact Nat.le_refl _
  | case2 => cases h
  | case3 c cs rest' ih => exact Nat.le_succ_of_le (ih h)
  | case4 => cases h

theorem length_le_of_word {t u : Token} {cs : List Char} {s rest : Source}
    (h : word t cs s = .token u rest) : rest.length ≤ s.length := by
  rw [word] at h
  split at h
  · next heq => cases h; exact length_le_of_matchWord heq
  · cases h

theorem length_le_of_quotation {u : Token} {s rest : Source}
    (h : quotation s = .token u rest) : rest.length ≤ s.length := by
  simp only [quotation] at h
  split at h
  · next heq => cases h; exact Nat.le_of_lt (Quotation.length_lt_of_scan_closed heq)
  · cases h

theorem length_lt_of_numeral {negative : Bool} {u : Token} {s rest : Source}
    (h : numeral negative s = .token u rest) : rest.length < s.length := by
  rw [numeral] at h
  split at h
  · next heq => cases h; exact Numeral.length_lt_of_scanWhole heq
  · cases h

theorem length_le_of_step {c : Char} {t : Token} {s rest : Source}
    (h : step c s = .token t rest) : rest.length ≤ s.length := by
  rw [step.eq_def] at h
  split at h
  case h_1 | h_2 | h_3 | h_4 => cases h
  case h_5 | h_6 | h_7 | h_8 | h_9 | h_10 => cases h; exact Nat.le_refl _
  case h_11 | h_12 | h_13 => exact length_le_of_word h
  case h_14 => exact length_le_of_quotation h
  case h_15 => exact Nat.le_of_lt (length_lt_of_numeral h)
  case h_16 =>
    split at h
    · exact Nat.le_of_lt_succ (length_lt_of_numeral h)
    · cases h

def ofSource : Source → List Token
  | [] => []
  | none :: _ => [.junk]
  | some c :: s =>
    match _h : step c s with
    | .blank => ofSource s
    | .token t rest => t :: ofSource rest
    | .last t => [t]
termination_by s => s.length
decreasing_by
  · simp
  · have := length_le_of_step _h
    simp only [List.length_cons]
    omega

end Token

end ModelRegistry.Json
