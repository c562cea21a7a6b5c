import ModelRegistry.Json.Fault
import ModelRegistry.Json.Number
import ModelRegistry.Json.Source

/-!
# Number literals

`scan` reads the digits of a number literal, `Numeral.value` finds the number. An integer that fits
64 bits is kept. Every other number becomes a double: its digits are taken into a significand of 64
bits as long as they fit, and the significand is then scaled by a power of ten.
-/

namespace ModelRegistry.Json

structure Numeral where
  negative : Bool
  whole : List Nat
  fraction : List Nat
  exponent : Option Int

namespace Numeral

inductive Scan
  | found (n : Numeral) (rest : Source)
  | broken (b : Breach)

def digitValue (c : Char) : Option Nat :=
  if '0' ≤ c ∧ c ≤ '9' then some (c.toNat - '0'.toNat) else none

def takeDigits : Source → List Nat × Source
  | [] => ([], [])
  | none :: rest => ([], none :: rest)
  | some c :: rest =>
    match digitValue c with
    | some d => (d :: (takeDigits rest).1, (takeDigits rest).2)
    | none => ([], some c :: rest)

theorem length_takeDigits (s : Source) : (takeDigits s).2.length ≤ s.length := by
  fun_induction takeDigits s with
  | case1 | case2 => exact Nat.le_refl _
  | case3 c rest d hd ih => exact Nat.le_succ_of_le ih
  | case4 => exact Nat.le_refl _

/-- A digit is due: the strict reader tells the end of the text from another character. -/
def missingDigit : Source → Breach
  | [] => ⟨.endInValue, .invalidNumber⟩
  | _ :: _ => .both .invalidNumber

def signed (negative : Bool) (n : Nat) : Int :=
  if negative then -n else n

def splitSign : Source → Bool × Source
  | some '-' :: rest => (true, rest)
  | some '+' :: rest => (false, rest)
  | s => (false, s)

def scanExponent (negative : Bool) (whole fraction : List Nat) : Source → Scan
  | [] => .found ⟨negative, whole, fraction, none⟩ []
  | g :: rest =>
    if g = some 'e' ∨ g = some 'E' then
      let (sign, rest) := splitSign rest
      match takeDigits rest with
      | ([], rest) => .broken (missingDigit rest)
      | (ds, rest) => .found ⟨negative, whole, fraction, some (signed sign (Decimal.value ds))⟩ rest
    else .found ⟨negative, whole, fraction, none⟩ (g :: rest)

def scanFraction (negative : Bool) (whole : List Nat) : Source → Scan
  | some '.' :: rest =>
    match takeDigits rest with
    | ([], rest) => .broken (missingDigit rest)
    | (ds, rest) => scanExponent negative whole ds rest
  | s => scanExponent negative whole [] s

/-- Reads the digits after the sign. A leading zero stands alone. -/
def scanWhole (negative : Bool) (s : Source) : Scan :=
  match takeDigits s with
  | ([], rest) => .broken (missingDigit rest)
  | (0 :: _ :: _, _) => .broken (.both .invalidNumber)
  | (ds, rest) => scanFraction negative ds rest

theorem length_splitSign (s : Source) : (splitSign s).2.length ≤ s.length := by
  fun_cases splitSign s <;> simp

theorem length_le_of_scanExponent {negative : Bool} {whole fraction : List Nat} {s rest : Source}
    {n : Numeral} (h : scanExponent negative whole fraction s = .found n rest) :
    rest.length ≤ s.length := by
  cases s with
  | nil => simp only [scanExponent, Scan.found.injEq] at h; simp [← h.2]
  | cons g s =>
    simp only [scanExponent] at h
    split at h
    · have h₁ := length_splitSign s
      have h₂ := length_takeDigits (splitSign s).2
      split at h
      · simp at h
      · next ds r _ heq =>
        simp only [Scan.found.injEq] at h
        rw [heq] at h₂
        simp only [← h.2, List.length_cons] at h₂ ⊢
        omega
    · simp only [Scan.found.injEq] at h; simp [← h.2]

theorem length_le_of_scanFraction {negative : Bool} {whole : List Nat} {s rest : Source}
    {n : Numeral} (h : scanFraction negative whole s = .found n rest) :
    rest.length ≤ s.length := by
  rw [scanFraction.eq_def] at h
  split at h
  · next r =>
    have h₁ := length_takeDigits r
    split at h
    · simp at h
    · next heq =>
      rw [heq] at h₁
      exact Nat.le_succ_of_le (Nat.le_trans (length_le_of_scanExponent h) h₁)
  · exact length_le_of_scanExponent h

theorem length_lt_of_takeDigits {s rest : Source} {d : Nat} {ds : List Nat}
    (h : takeDigits s = (d :: ds, rest)) : rest.length < s.length := by
  cases s with
  | nil => simp [takeDigits] at h
  | cons g s =>
    have hs := length_takeDigits s
    cases g with
    | none => simp [takeDigits] at h
    | some c =>
      rw [takeDigits] at h
      split at h
      · cases h; exact Nat.lt_succ_of_le hs
      · cases h

theorem length_lt_of_scanWhole {negative : Bool} {s rest : Source} {n : Numeral}
    (h : scanWhole negative s = .found n rest) : rest.length < s.length := by
  rw [scanWhole] at h
  split at h
  · cases h
  · cases h
  · next ds r hne _ heq =>
    obtain _ | ⟨d, ds⟩ := ds
    · exact absurd rfl hne
    · exact Nat.lt_of_le_of_lt (length_le_of_scanFraction h) (length_lt_of_takeDigits heq)

/-- Takes digits into a significand while it fits 64 bits; counts them. -/
def absorb (significand : Nat) : List Nat → Nat × Nat
  | [] => (significand, 0)
  | d :: ds =>
    if Fits (10 * significand + d) then
      let (s, count) := absorb (10 * significand + d) ds
      (s, count + 1)
    else (significand, 0)

def powerOfTen (n : Nat) : Float :=
  Float.ofScientific 1 false n

/-- `f · 10 ^ e`, in one multiplication or, for a negative exponent, in divisions by at most
`10 ^ 308`. -/
def scale (f : Float) (e : Int) : Except Fault Float :=
  if _h : e < -308 then
    if f == 0 then .ok f else scale (f / powerOfTen 308) (e + 308)
  else if e < 0 then .ok (f / powerOfTen e.natAbs)
  else if e ≤ 308 then
    let g := f * powerOfTen e.toNat
    if g.isInf then .error .numberOutOfRange else .ok g
  else if f == 0 then .ok f
  else .error .numberOutOfRange
termination_by e.natAbs
decreasing_by omega

def toDouble (n : Numeral) : Except Fault Float := do
  let (whole, kept) := absorb 0 n.whole
  let (significand, places) := absorb whole n.fraction
  let e := (n.whole.length - kept : Int) - places + n.exponent.getD 0
  let f ← scale (UInt64.ofNat significand).toFloat e
  return if n.negative then -f else f

def toInt (n : Numeral) : Int :=
  signed n.negative (Decimal.value n.whole)

/-- Minus zero is a double: no integer has a sign of zero. -/
def value (n : Numeral) : Except Fault Number :=
  if h : (n.fraction = [] ∧ n.exponent = none) ∧ (n.negative → n.toInt ≠ 0) ∧ Fits n.toInt then
    .ok (.integer n.toInt h.2.2)
  else .double <$> n.toDouble

end Numeral

end ModelRegistry.Json
