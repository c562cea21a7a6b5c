import Mathlib.Tactic.IntervalCases
import ModelRegistry.Json.Render
import ModelRegistry.Json.Token

/-!
# Literals read back

Every character that is written into a string literal is cut off again as one piece, which is
decoded as the character, whether it was escaped or not. The digits of an integer are taken up again
if what follows them does not go on with the number.
-/

namespace ModelRegistry.Json

namespace Quotation

theorem hexUnit_control {n : Nat} (h : n < 32) :
    hexUnit (some '0') (some '0') (some (hexDigit (n / 16))) (some (hexDigit (n % 16))) =
      some n := by
  interval_cases n <;> rfl

/-- The piece stands for the character. -/
def Decodes (p : Piece) (c : Char) : Prop :=
  ∀ closing ps, decode closing (p :: ps) = (c :: ·) <$> decode closing ps

theorem decodes_char (c : Char) : Decodes (.char c) c := fun _ _ => rfl

theorem decodes_control {c : Char} (h : c.toNat < 32) : Decodes (.unit c.toNat) c := by
  intro closing ps
  have hlow : isLowSurrogate c.toNat = false := by simp [isLowSurrogate]; omega
  have hhigh : isHighSurrogate c.toNat = false := by simp [isHighSurrogate]; omega
  rw [decode.eq_def]
  simp [hlow, hhigh]

theorem scan_plain {c : Char} (hquote : c ≠ '"') (hbackslash : c ≠ '\\') (hplain : ¬c.toNat < 32)
    (rest : Source) : scan (some c :: rest) = (scan rest).cons (.char c) := by
  rw [scan.eq_9 c rest hquote (fun _ => hbackslash) (fun _ _ => hbackslash)
    (fun _ _ _ _ _ _ => hbackslash) (fun _ _ => hbackslash) (fun _ _ _ => hbackslash),
    if_neg hplain]

theorem exists_scan_escapeChar (c : Char) (rest : Source) :
    ∃ p, Decodes p c ∧ scan ((escapeChar c).map some ++ rest) = (scan rest).cons p := by
  rw [escapeChar.eq_def]
  split
  case h_1 | h_2 | h_3 | h_4 | h_5 | h_6 | h_7 => exact ⟨_, decodes_char _, rfl⟩
  case h_8 hquote hbackslash _ _ _ _ _ =>
    split
    · next hcontrol =>
      refine ⟨_, decodes_control hcontrol, ?_⟩
      simp [scan, hexUnit_control hcontrol]
    · next hplain =>
      exact ⟨_, decodes_char c, scan_plain hquote hbackslash hplain rest⟩

/-- A string literal is closed by its own quote, and its pieces are decoded as its text. -/
theorem exists_scan_escaped (cs : List Char) (rest : Source) :
    ∃ ps, decode (.closed rest) ps = .ok cs ∧
      scan ((cs.flatMap escapeChar).map some ++ some '"' :: rest) = ⟨ps, .closed rest⟩ := by
  induction cs with
  | nil => exact ⟨[], rfl, by simp [scan]⟩
  | cons c cs ih =>
    obtain ⟨ps, hps, hscan⟩ := ih
    obtain ⟨p, hp, hchar⟩ :=
      exists_scan_escapeChar c ((cs.flatMap escapeChar).map some ++ some '"' :: rest)
    refine ⟨p :: ps, by rw [hp, hps]; rfl, ?_⟩
    rw [List.flatMap_cons, List.map_append, List.append_assoc, hchar, hscan]
    rfl

end Quotation

namespace Numeral

/-- What follows a number does not go on with it. -/
def EndsNumber : Source → Prop
  | some c :: _ => digitValue c = none ∧ c ≠ '.' ∧ c ≠ 'e' ∧ c ≠ 'E'
  | _ => True

variable {rest : Source}

theorem digitValue_digitChar {d : Nat} (h : d < 10) :
    digitValue (Decimal.digitChar d) = some d := by
  interval_cases d <;> rfl

theorem takeDigits_of_endsNumber (h : EndsNumber rest) : takeDigits rest = ([], rest) := by
  cases rest with
  | nil => rfl
  | cons g rest =>
    cases g with
    | none => rfl
    | some c => simp [takeDigits, h.1]

theorem takeDigits_map {ds : List Nat} (hds : ∀ d ∈ ds, d < 10)
    (h : takeDigits rest = ([], rest)) :
    takeDigits ((ds.map Decimal.digitChar).map some ++ rest) = (ds, rest) := by
  induction ds with
  | nil => exact h
  | cons d ds ih =>
    obtain ⟨hd, hds⟩ := List.forall_mem_cons.mp hds
    simp only [List.map_cons, List.cons_append, takeDigits, digitValue_digitChar hd, ih hds]

theorem takeDigits_natText (n : Nat) (h : EndsNumber rest) :
    takeDigits ((Decimal.natText n).map some ++ rest) = (Decimal.digits n, rest) :=
  takeDigits_map (fun _ => Decimal.lt_ten_of_mem_digits) (takeDigits_of_endsNumber h)

/-- Only zero has zero for its first digit. -/
theorem exists_digits_eq_cons (n : Nat) :
    ∃ d ds, Decimal.digits n = d :: ds ∧ (d = 0 → n = 0) := by
  fun_induction Decimal.digits n with
  | case1 n _ => exact ⟨n, [], rfl, id⟩
  | case2 n hn ih =>
    obtain ⟨d, ds, hds, hd⟩ := ih
    exact ⟨d, ds ++ [n % 10], by rw [hds, List.cons_append], fun h => by have := hd h; omega⟩

def exponentText : Option Int → List Char
  | none => []
  | some e => 'e' :: (if e < 0 then '-' else '+') :: Decimal.natText e.natAbs

def fractionText (ds : List Nat) : List Char :=
  if ds = [] then [] else '.' :: ds.map Decimal.digitChar

/-- The text of a literal after its sign. -/
def spelling (n : Numeral) : List Char :=
  n.whole.map Decimal.digitChar ++ (fractionText n.fraction ++ exponentText n.exponent)

/-- The text of a literal. -/
def text (n : Numeral) : List Char :=
  if n.negative then '-' :: n.spelling else n.spelling

theorem scanExponent_exponentText (negative : Bool) (whole fraction : List Nat) (e : Option Int)
    (h : EndsNumber rest) :
    scanExponent negative whole fraction ((exponentText e).map some ++ rest) =
      .found ⟨negative, whole, fraction, e⟩ rest := by
  cases e with
  | none =>
    rcases rest with - | ⟨- | c, rest⟩
    · rfl
    · simp [exponentText, scanExponent]
    · obtain ⟨-, -, he, hE⟩ := h
      simp [exponentText, scanExponent, he, hE]
  | some e =>
    have hsign : splitSign (some (if e < 0 then '-' else '+') ::
        ((Decimal.natText e.natAbs).map some ++ rest)) =
          (decide (e < 0), (Decimal.natText e.natAbs).map some ++ rest) := by
      by_cases he : e < 0 <;> simp [he, splitSign]
    have hvalue : signed (decide (e < 0)) (Decimal.value (Decimal.digits e.natAbs)) = e := by
      rw [Decimal.value_digits, signed]
      by_cases he : e < 0
      · rw [if_pos (decide_eq_true he)]
        omega
      · rw [if_neg (by simpa using he)]
        omega
    obtain ⟨d, ds, hds, -⟩ := exists_digits_eq_cons e.natAbs
    simp only [exponentText, List.map_cons, List.cons_append, scanExponent, true_or, if_true,
      hsign, takeDigits_natText _ h]
    rw [hds] at hvalue ⊢
    simp only [hvalue]

theorem takeDigits_exponentText (e : Option Int) (h : EndsNumber rest) :
    takeDigits ((exponentText e).map some ++ rest) = ([], (exponentText e).map some ++ rest) := by
  cases e with
  | none => exact takeDigits_of_endsNumber h
  | some e => rfl

theorem scanFraction_exponentText (negative : Bool) (whole : List Nat) (e : Option Int)
    (h : EndsNumber rest) :
    scanFraction negative whole ((exponentText e).map some ++ rest) =
      .found ⟨negative, whole, [], e⟩ rest := by
  rw [← scanExponent_exponentText negative whole [] e h]
  cases e with
  | none =>
    rcases rest with - | ⟨- | c, rest⟩
    · rfl
    · rfl
    · obtain ⟨-, hpoint, -, -⟩ := h
      simp [exponentText, scanFraction, hpoint]
  | some e => rfl

theorem scanFraction_fractionText (negative : Bool) (whole : List Nat) {fraction : List Nat}
    (e : Option Int) (hfraction : ∀ d ∈ fraction, d < 10) (h : EndsNumber rest) :
    scanFraction negative whole ((fractionText fraction ++ exponentText e).map some ++ rest) =
      .found ⟨negative, whole, fraction, e⟩ rest := by
  cases fraction with
  | nil => exact scanFraction_exponentText negative whole e h
  | cons d ds =>
    have htake := takeDigits_map hfraction (takeDigits_exponentText e h)
    rw [fractionText, if_neg (List.cons_ne_nil d ds), List.map_append, List.append_assoc,
      List.map_cons, List.cons_append, scanFraction, htake]
    exact scanExponent_exponentText negative whole (d :: ds) e h

/-- A literal with digits before the point, and no zero in front of others. -/
structure IsPlain (n : Numeral) : Prop where
  whole : ∀ d ∈ n.whole, d < 10
  fraction : ∀ d ∈ n.fraction, d < 10
  head : ∃ d ds, n.whole = d :: ds ∧ (d = 0 → ds = [])

theorem takeDigits_fractionText (fraction : List Nat) (e : Option Int) (h : EndsNumber rest) :
    takeDigits ((fractionText fraction ++ exponentText e).map some ++ rest) =
      ([], (fractionText fraction ++ exponentText e).map some ++ rest) := by
  cases fraction with
  | nil => exact takeDigits_exponentText e h
  | cons d ds => rfl

/-- The digits of a literal are taken up again if what follows does not go on with them. -/
theorem scanWhole_spelling {n : Numeral} (hn : n.IsPlain) (h : EndsNumber rest) :
    scanWhole n.negative (n.spelling.map some ++ rest) = .found n rest := by
  obtain ⟨d, ds, hwhole, hd⟩ := hn.head
  have htake := takeDigits_map hn.whole (takeDigits_fractionText n.fraction n.exponent h)
  rw [← scanFraction_fractionText n.negative n.whole n.exponent hn.fraction h, scanWhole, spelling,
    List.map_append, List.append_assoc, htake, hwhole]
  cases d with
  | zero =>
    rw [hd rfl]
    rfl
  | succ d => rfl

theorem isPlain_digits (negative : Bool) (n : Nat) :
    IsPlain ⟨negative, Decimal.digits n, [], none⟩ where
  whole _ := Decimal.lt_ten_of_mem_digits
  fraction := List.forall_mem_nil _
  head := by
    obtain ⟨d, ds, hds, hd⟩ := exists_digits_eq_cons n
    refine ⟨d, ds, hds, fun hzero => ?_⟩
    rw [hd hzero, Decimal.digits] at hds
    exact (List.cons.inj hds).2.symm

theorem text_digits (negative : Bool) (n : Nat) :
    text ⟨negative, Decimal.digits n, [], none⟩ =
      if negative then '-' :: Decimal.natText n else Decimal.natText n := by
  have hspelling : spelling ⟨negative, Decimal.digits n, [], none⟩ = Decimal.natText n :=
    List.append_nil _
  rw [text, hspelling]

theorem value_digits (negative : Bool) {n : Nat} (hzero : negative → n ≠ 0)
    (hfits : Fits (signed negative n)) :
    value ⟨negative, Decimal.digits n, [], none⟩ = .ok (.integer (signed negative n) hfits) := by
  have hint : toInt ⟨negative, Decimal.digits n, [], none⟩ = signed negative n := by
    rw [toInt, Decimal.value_digits]
  have hsigned : negative → signed negative n ≠ 0 := by
    intro hnegative
    simpa [signed, hnegative] using hzero hnegative
  have hvalid : (([] : List Nat) = [] ∧ (none : Option Int) = none) ∧
      (negative → toInt ⟨negative, Decimal.digits n, [], none⟩ ≠ 0) ∧
      Fits (toInt ⟨negative, Decimal.digits n, [], none⟩) := by
    rw [hint]
    exact ⟨⟨rfl, rfl⟩, hsigned, hfits⟩
  rw [value, dif_pos hvalid]
  simp only [hint]

end Numeral

namespace Token

variable {rest : Source}

theorem step_digitChar {d : Nat} (hd : d < 10) (rest : Source) :
    step (Decimal.digitChar d) rest =
      numeral false (some (Decimal.digitChar d) :: rest) := by
  interval_cases d <;> rfl

theorem quotation_escaped (s : String) (rest : Source) :
    quotation ((s.toList.flatMap escapeChar).map some ++ some '"' :: rest) =
      .token (.string (.ok s)) rest := by
  obtain ⟨ps, hps, hscan⟩ := Quotation.exists_scan_escaped s.toList rest
  rw [quotation, hscan]
  simp [Quotation.Literal.text, hps]

theorem ofSource_blank {c : Char} {s : Source} (h : step c s = .blank) :
    ofSource (some c :: s) = ofSource s := by
  rw [ofSource]
  split <;> simp_all

theorem ofSource_token {c : Char} {s : Source} {t : Token} (h : step c s = .token t rest) :
    ofSource (some c :: s) = t :: ofSource rest := by
  rw [ofSource]
  split <;> simp_all

theorem ofSource_stringText (s : String) (rest : Source) :
    ofSource ((stringText s).map some ++ rest) = .string (.ok s) :: ofSource rest := by
  have htext : (stringText s).map some ++ rest =
      some '"' :: ((s.toList.flatMap escapeChar).map some ++ some '"' :: rest) := by
    simp [stringText]
  rw [htext]
  exact ofSource_token (quotation_escaped s rest)

theorem ofSource_text {n : Numeral} (hn : n.IsPlain) (h : Numeral.EndsNumber rest) :
    ofSource (n.text.map some ++ rest) = .number n.value :: ofSource rest := by
  have hnumeral : numeral n.negative (n.spelling.map some ++ rest) =
      .token (.number n.value) rest := by
    rw [numeral, Numeral.scanWhole_spelling hn h]
  rw [Numeral.text]
  cases hnegative : n.negative with
  | true =>
    rw [hnegative] at hnumeral
    exact ofSource_token hnumeral
  | false =>
    obtain ⟨d, ds, hwhole, -⟩ := hn.head
    have hd : d < 10 := hn.whole d (hwhole ▸ List.mem_cons_self)
    rw [hnegative] at hnumeral
    rw [if_neg Bool.false_ne_true]
    rw [Numeral.spelling, hwhole, List.map_cons, List.cons_append, List.map_cons,
      List.cons_append] at hnumeral ⊢
    exact ofSource_token ((step_digitChar hd _).trans hnumeral)

theorem ofSource_intText {i : Int} (hfits : Fits i) (h : Numeral.EndsNumber rest) :
    ofSource ((Decimal.intText i).map some ++ rest) =
      .number (.ok (.integer i hfits)) :: ofSource rest := by
  cases i with
  | ofNat n =>
    have hvalue := Numeral.value_digits false (n := n) (fun h => nomatch h) hfits
    have htext := ofSource_text (Numeral.isPlain_digits false n) h
    rwa [hvalue, Numeral.text_digits] at htext
  | negSucc n =>
    have hvalue := Numeral.value_digits true (fun _ => Nat.succ_ne_zero n) hfits
    have htext := ofSource_text (Numeral.isPlain_digits true (n + 1)) h
    rwa [hvalue, Numeral.text_digits] at htext

end Token

end ModelRegistry.Json
