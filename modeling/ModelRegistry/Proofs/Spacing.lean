import ModelRegistry.Proofs.Literals
import ModelRegistry.Proofs.ValidTexts

/-!
# Blanks between tokens

Squeezing a source takes out the blanks that stand outside of its string literals. Scanners go on as
before where a number is not followed by what could go on with it, and in a valid text it never is.
So valid texts that differ in such blanks alone have the same tokens and the same document.
-/

namespace ModelRegistry.Json

/-- A blank that may stand between tokens. -/
def isGap (g : Option Char) : Bool :=
  g = some ' ' || g = some '\t' || g = some '\n' || g = some '\r'

namespace Source

mutual

/-- A source without its blanks outside of string literals. -/
def squeeze : Source → Source
  | [] => []
  | some '"' :: s => some '"' :: squeezeQuoted s
  | g :: s => if isGap g then squeeze s else g :: squeeze s

/-- The same from inside of a literal on. -/
def squeezeQuoted : Source → Source
  | [] => []
  | some '"' :: s => some '"' :: squeeze s
  | some '\\' :: g :: s => some '\\' :: g :: squeezeQuoted s
  | g :: s => g :: squeezeQuoted s

end

theorem squeeze_gap {g : Option Char} (h : isGap g = true) (s : Source) :
    squeeze (g :: s) = squeeze s := by
  rw [squeeze.eq_3 g s (by rintro rfl; cases h), if_pos h]

theorem squeeze_plain {g : Option Char} (hquote : g ≠ some '"') (h : isGap g = false)
    (s : Source) : squeeze (g :: s) = g :: squeeze s := by
  rw [squeeze.eq_3 g s hquote, h]
  rfl

theorem squeezeQuoted_plain {g : Option Char} (hquote : g ≠ some '"')
    (hbackslash : g ≠ some '\\') (s : Source) :
    squeezeQuoted (g :: s) = g :: squeezeQuoted s :=
  squeezeQuoted.eq_4 g s hquote fun _ _ h => absurd h hbackslash

end Source

namespace Quotation

open Source

theorem hexValue_ne {c : Char} {n : Nat} (h : hexValue c = some n) : c ≠ '"' ∧ c ≠ '\\' := by
  constructor <;> rintro rfl <;> cases h

/-- The four digits of an escape are plain characters. -/
theorem squeezeQuoted_hexUnit {a b c d : Option Char} {u : Nat} (h : hexUnit a b c d = some u)
    (s : Source) : squeezeQuoted (a :: b :: c :: d :: s) = a :: b :: c :: d :: squeezeQuoted s := by
  simp only [hexUnit, Option.bind_eq_bind, Option.bind_eq_some_iff] at h
  obtain ⟨a, rfl, _, ha, b, rfl, _, hb, c, rfl, _, hc, d, rfl, _, hd, -⟩ := h
  have hplain {c : Char} {n : Nat} (hc : hexValue c = some n) (s : Source) :
      squeezeQuoted (some c :: s) = some c :: squeezeQuoted s :=
    squeezeQuoted_plain (by simp [hexValue_ne hc]) (by simp [hexValue_ne hc]) s
  rw [hplain ha, hplain hb, hplain hc, hplain hd]

theorem scan_escape {e c : Char} (h : shortEscape e = some c) (rest : Source) :
    scan (some '\\' :: some e :: rest) = (scan rest).cons (.char c) := by
  have hu : e ≠ 'u' := by
    rintro rfl
    cases h
  rw [scan.eq_8 e rest (fun _ _ _ _ _ _ => hu) hu, h]

/-- What follows a literal is no part of its text. -/
theorem decode_closed (rest rest' : Source) (ps : List Piece) :
    decode (.closed rest) ps = decode (.closed rest') ps := by
  fun_induction decode (.closed rest) ps
  all_goals rw [decode.eq_def (.closed rest')] <;> simp_all [Closing.faultAfterHigh]

/-- A literal is scanned as before, and squeezing goes on after its closing quote. -/
theorem scan_squeezeQuoted {s rest : Source} (h : (scan s).closing = .closed rest) :
    scan (squeezeQuoted s) = ⟨(scan s).pieces, .closed (squeeze rest)⟩ := by
  fun_induction scan s generalizing rest with
  | case1 | case4 | case5 | case7 | case10 | case11 => cases h
  | case2 s ih =>
    rw [squeezeQuoted_plain (by simp) (by simp), scan, ih h]
    rfl
  | case3 s =>
    cases h
    rw [squeezeQuoted, scan]
  | case6 a b c d s u hu ih =>
    rw [squeezeQuoted, squeezeQuoted_hexUnit hu, scan, hu]
    simp only [ih h]
    rfl
  | case8 =>
    simp only at h
    split at h <;> cases h
  | case9 e s _ _ c hc ih =>
    rw [squeezeQuoted, scan_escape hc, ih h]
    rfl
  | case12 c s hquote hnil hnone _ _ hsome hplain ih =>
    have hbackslash : c ≠ '\\' := by
      rcases s with _ | ⟨_ | e, s⟩
      · exact hnil rfl
      · exact hnone s rfl
      · exact hsome e s rfl
    rw [squeezeQuoted_plain (by simpa using hquote) (by simpa using hbackslash),
      scan_plain hquote hbackslash hplain, ih h]
    rfl

end Quotation

namespace Numeral

open Source

variable {s rest : Source} {n : Numeral} {negative : Bool} {whole fraction : List Nat}

/-- No digit stands first. -/
def NoDigit (s : Source) : Prop :=
  takeDigits s = ([], s)

theorem squeeze_digit {c : Char} {d : Nat} (h : digitValue c = some d) (s : Source) :
    squeeze (some c :: s) = some c :: squeeze s := by
  have hne {b : Char} (hb : digitValue b = none) : c ≠ b := by
    rintro rfl
    cases h.symm.trans hb
  have hgap : isGap (some c) = false := by
    simp [isGap, hne (b := ' ') rfl, hne (b := '\t') rfl, hne (b := '\n') rfl, hne (b := '\r') rfl]
  exact squeeze_plain (by simpa using hne rfl) hgap s

theorem exists_digit_of_takeDigits {d : Nat} {ds : List Nat} (h : takeDigits s = (d :: ds, rest)) :
    ∃ c s', s = some c :: s' ∧ digitValue c = some d := by
  fun_cases takeDigits s <;> simp_all [takeDigits]

theorem takeDigits_squeeze {ds : List Nat} (h : takeDigits s = (ds, rest))
    (hrest : NoDigit (squeeze rest)) : takeDigits (squeeze s) = (ds, squeeze rest) := by
  fun_induction takeDigits s generalizing ds with
  | case1 | case2 | case4 =>
    cases h
    exact hrest
  | case3 c s d hd ih =>
    cases h
    rw [squeeze_digit hd, takeDigits, hd]
    simp only [ih rfl]

theorem splitSign_squeeze {d : Nat} {ds : List Nat}
    (h : takeDigits (splitSign s).2 = (d :: ds, rest)) :
    splitSign (squeeze s) = ((splitSign s).1, squeeze (splitSign s).2) := by
  fun_cases splitSign s
  case case1 | case2 => rw [squeeze_plain (by simp) rfl, splitSign]
  case case3 hminus hplus =>
    rw [splitSign.eq_3 s hminus hplus] at h
    obtain ⟨c, s', rfl, hc⟩ := exists_digit_of_takeDigits h
    rw [squeeze_digit hc, splitSign.eq_3]
    · rintro _ ⟨⟩
      exact hminus s' rfl
    · rintro _ ⟨⟩
      exact hplus s' rfl

theorem scanExponent_of_endsNumber (h : EndsNumber s) :
    scanExponent negative whole fraction s = .found ⟨negative, whole, fraction, none⟩ s := by
  rcases s with _ | ⟨_ | c, s⟩
  · rfl
  · simp [scanExponent]
  · simp [scanExponent, h.2.2.1, h.2.2.2]

/-- An exponent starts with its letter; a number without one ends at once. -/
theorem exists_of_scanExponent (h : scanExponent negative whole fraction s = .found n rest) :
    rest = s ∨ ∃ c s', (c = 'e' ∨ c = 'E') ∧ s = some c :: s' := by
  rcases s with _ | ⟨g, s⟩
  · exact .inl (Scan.found.inj h).2.symm
  · rw [scanExponent] at h
    split at h
    · next hg =>
      rcases hg with rfl | rfl
      · exact .inr ⟨_, s, .inl rfl, rfl⟩
      · exact .inr ⟨_, s, .inr rfl, rfl⟩
    · exact .inl (Scan.found.inj h).2.symm

theorem scanExponent_squeeze (h : scanExponent negative whole fraction s = .found n rest)
    (hrest : EndsNumber (squeeze rest)) :
    scanExponent negative whole fraction (squeeze s) = .found n (squeeze rest) := by
  rcases s with _ | ⟨g, s⟩
  · cases h
    rfl
  · rw [scanExponent] at h
    split at h
    · next hg =>
      have hsqueeze : squeeze (g :: s) = g :: squeeze s := by
        rcases hg with rfl | rfl <;> exact squeeze_plain (by simp) rfl s
      simp only at h
      split at h
      · cases h
      · next ds r hne htake =>
        obtain _ | ⟨d, ds⟩ := ds
        · exact absurd rfl hne
        cases h
        have hdigits := takeDigits_squeeze htake (takeDigits_of_endsNumber hrest)
        rw [hsqueeze, scanExponent, if_pos hg, splitSign_squeeze htake]
        simp only [hdigits]
    · cases h
      exact scanExponent_of_endsNumber hrest

/-- A fraction starts with its point. -/
theorem exists_of_scanFraction (h : scanFraction negative whole s = .found n rest) :
    rest = s ∨ ∃ c s', (c = '.' ∨ c = 'e' ∨ c = 'E') ∧ s = some c :: s' := by
  rw [scanFraction.eq_def] at h
  split at h
  · next s' => exact .inr ⟨_, s', .inl rfl, rfl⟩
  · rcases exists_of_scanExponent h with hrest | ⟨c, s', hc, rfl⟩
    · exact .inl hrest
    · exact .inr ⟨c, s', .inr hc, rfl⟩

theorem noDigit_squeeze {c : Char} (h : c = '.' ∨ c = 'e' ∨ c = 'E') (s : Source) :
    NoDigit (squeeze (some c :: s)) := by
  rcases h with rfl | rfl | rfl
  all_goals
    rw [squeeze_plain (by simp) rfl]
    rfl

theorem scanFraction_squeeze (h : scanFraction negative whole s = .found n rest)
    (hrest : EndsNumber (squeeze rest)) :
    scanFraction negative whole (squeeze s) = .found n (squeeze rest) := by
  rw [scanFraction.eq_def] at h
  split at h
  · next s =>
    split at h
    · cases h
    · next ds r hne htake =>
      have hr : NoDigit (squeeze r) := by
        rcases exists_of_scanExponent h with rfl | ⟨c, r', hc, rfl⟩
        · exact takeDigits_of_endsNumber hrest
        · exact noDigit_squeeze (.inr hc) r'
      rw [squeeze_plain (by simp) rfl, scanFraction, takeDigits_squeeze htake hr]
      obtain _ | ⟨d, ds⟩ := ds
      · exact absurd rfl hne
      exact scanExponent_squeeze h hrest
  · next hpoint =>
    have hpoint : ∀ s', squeeze s = some '.' :: s' → False := by
      intro s' hs
      rcases exists_of_scanExponent h with rfl | ⟨c, r, rfl | rfl, rfl⟩
      · rw [hs] at hrest
        exact hrest.2.1 rfl
      all_goals
        rw [squeeze_plain (by simp) rfl] at hs
        cases hs
    rw [scanFraction.eq_2 negative whole _ hpoint]
    exact scanExponent_squeeze h hrest

theorem scanWhole_squeeze (h : scanWhole negative s = .found n rest)
    (hrest : EndsNumber (squeeze rest)) :
    scanWhole negative (squeeze s) = .found n (squeeze rest) := by
  rw [scanWhole] at h
  split at h
  · cases h
  · cases h
  · next ds r hnil hzero htake =>
    have hr : NoDigit (squeeze r) := by
      rcases exists_of_scanFraction h with rfl | ⟨c, r', hc, rfl⟩
      · exact takeDigits_of_endsNumber hrest
      · exact noDigit_squeeze hc r'
    rw [scanWhole, takeDigits_squeeze htake hr]
    split
    · next heq => exact (hnil (Prod.mk.inj heq).1).elim
    · next heq => exact (hzero _ _ (Prod.mk.inj heq).1).elim
    · next heq =>
      cases heq
      exact scanFraction_squeeze h hrest

end Numeral

namespace Token

open Source

variable {c : Char} {s rest : Source} {t : Token}

theorem matchWord_squeeze {letters : List Char}
    (hletters : ∀ c ∈ letters, c ≠ '"' ∧ isGap (some c) = false)
    (h : matchWord letters s = .ok rest) : matchWord letters (squeeze s) = .ok (squeeze rest) := by
  induction letters generalizing s with
  | nil => 
    cases h
    rfl
  | cons c cs ih =>
    obtain ⟨hc, hcs⟩ := List.forall_mem_cons.mp hletters
    rcases s with _ | ⟨g, s⟩
    · cases h
    · rw [matchWord] at h
      split at h
      · next hg =>
        subst hg
        rw [squeeze_plain (by simpa using hc.1) hc.2, matchWord, if_pos rfl]
        exact ih hcs h
      · cases h

theorem word_squeeze {u : Token} {letters : List Char}
    (hletters : ∀ c ∈ letters, c ≠ '"' ∧ isGap (some c) = false)
    (h : word u letters s = .token t rest) :
    word u letters (squeeze s) = .token t (squeeze rest) := by
  rw [word] at h ⊢
  split at h
  · next hmatch =>
    cases h
    rw [matchWord_squeeze hletters hmatch]
  · cases h

theorem quotation_squeezeQuoted (h : quotation s = .token t rest) :
    quotation (squeezeQuoted s) = .token t (squeeze rest) := by
  simp only [quotation] at h
  split at h
  · next hclosing =>
    cases h
    rw [quotation, Quotation.scan_squeezeQuoted hclosing]
    simp only [Quotation.Literal.text, hclosing, Quotation.decode_closed _ (squeeze rest)]
  · cases h

theorem numeral_squeeze {negative : Bool} (h : numeral negative s = .token t rest)
    (hrest : Numeral.EndsNumber (squeeze rest)) :
    numeral negative (squeeze s) = .token t (squeeze rest) := by
  rw [numeral] at h ⊢
  split at h
  · next hscan =>
    cases h
    rw [Numeral.scanWhole_squeeze hscan hrest]
  · cases h

theorem step_digit {d : Nat} (h : Numeral.digitValue c = some d) (s : Source) :
    step c s = numeral false (some c :: s) := by
  rw [step.eq_def]
  split
  case h_16 => rw [if_pos (by simp [h])]
  all_goals cases h

theorem step_of_isGap (h : isGap (some c) = true) (s : Source) : step c s = .blank := by
  simp only [isGap, Option.some.injEq, Bool.or_eq_true, decide_eq_true_eq] at h
  rcases h with ((rfl | rfl) | rfl) | rfl <;> rfl

theorem ofSource_last (h : step c s = .last t) : ofSource (some c :: s) = [t] := by
  rw [ofSource]
  split <;> simp_all

/-- What the next character begins may be nothing or a broken token, but each for its reason. -/
def Step.Sound (c : Char) : Step → Prop
  | .blank => isGap (some c) = true
  | .token _ _ => True
  | .last t => ¬t.IsWhole

theorem sound_word (c : Char) (t : Token) (letters : List Char) (s : Source) :
    (word t letters s).Sound c := by
  rw [word]
  split
  · trivial
  · exact id

theorem sound_quotation (c : Char) (s : Source) : (quotation s).Sound c := by
  simp only [quotation]
  split
  · trivial
  · exact id

theorem sound_numeral (c : Char) (negative : Bool) (s : Source) :
    (numeral negative s).Sound c := by
  rw [numeral]
  split
  · trivial
  · exact id

theorem sound_step (c : Char) (s : Source) : (step c s).Sound c := by
  rw [step.eq_def]
  split
  case h_1 | h_2 | h_3 | h_4 => rfl
  case h_5 | h_6 | h_7 | h_8 | h_9 | h_10 => trivial
  case h_11 | h_12 | h_13 => exact sound_word _ _ _ s
  case h_14 => exact sound_quotation _ s
  case h_15 => exact sound_numeral _ _ s
  case h_16 =>
    split
    · exact sound_numeral _ _ _
    · exact id

theorem exists_eq_number_of_numeral {negative : Bool} (h : numeral negative s = .token t rest) :
    ∃ n, t = .number n := by
  rw [numeral] at h
  split at h
  · cases h
    exact ⟨_, rfl⟩
  · cases h

/-- A token is cut off as before, if nothing that comes after a number goes on with it. -/
theorem step_squeeze (h : step c s = .token t rest)
    (hrest : ∀ n, t = .number n → Numeral.EndsNumber (squeeze rest)) :
    ∃ s', squeeze (some c :: s) = some c :: s' ∧ step c s' = .token t (squeeze rest) := by
  rw [step.eq_def] at h
  split at h
  case h_1 | h_2 | h_3 | h_4 => cases h
  case h_5 | h_6 | h_7 | h_8 | h_9 | h_10 =>
    cases h
    exact ⟨_, squeeze_plain (by simp) rfl _, rfl⟩
  case h_11 | h_12 | h_13 =>
    exact ⟨_, squeeze_plain (by simp) rfl _, word_squeeze (by simp [isGap]) h⟩
  case h_14 => exact ⟨_, by rw [squeeze], quotation_squeezeQuoted h⟩
  case h_15 =>
    obtain ⟨n, hn⟩ := exists_eq_number_of_numeral h
    exact ⟨_, squeeze_plain (by simp) rfl _, numeral_squeeze h (hrest n hn)⟩
  case h_16 =>
    split at h
    · next hdigit =>
      obtain ⟨n, hn⟩ := exists_eq_number_of_numeral h
      obtain ⟨d, hd⟩ := Option.isSome_iff_exists.mp hdigit
      have hsqueeze := Numeral.squeeze_digit hd s
      refine ⟨_, hsqueeze, ?_⟩
      rw [step_digit hd, ← hsqueeze]
      exact numeral_squeeze h (hrest n hn)
    · cases h

theorem separated_tail {ts : List Token} (h : Separated (t :: ts)) : Separated ts := by
  cases t <;> exact h.2

theorem isWhole_of_separated {ts : List Token} (h : Separated (t :: ts)) : t.IsWhole := by
  cases t with
  | number => trivial
  | _ => exact h.1

/-- No character of a number begins a delimiter. -/
theorem not_inNumber_of_delimiter (h : ∀ t ∈ (ofSource (some c :: s)).head?, t.IsDelimiter) :
    Numeral.digitValue c = none ∧ c ≠ '.' ∧ c ≠ 'e' ∧ c ≠ 'E' := by
  refine ⟨?_, ?_, ?_, ?_⟩
  · cases hd : Numeral.digitValue c with
    | none => rfl
    | some d =>
      have hstep := step_digit hd s
      have hsound := sound_numeral c false (some c :: s)
      cases hnumeral : numeral false (some c :: s) with
      | blank => 
        rw [numeral] at hnumeral
        split at hnumeral <;> cases hnumeral
      | token t rest =>
        obtain ⟨n, rfl⟩ := exists_eq_number_of_numeral hnumeral
        rw [ofSource_token (hstep.trans hnumeral)] at h
        exact (h _ rfl).elim
      | last t =>
        rw [hnumeral] at hsound
        rw [ofSource_last (hstep.trans hnumeral)] at h
        have hdelimiter := h t rfl
        cases t <;> trivial
  all_goals
    rintro rfl
    rw [ofSource_last rfl] at h
    exact h .junk rfl

/-- Where a delimiter is the next token, nothing goes on with a number before it. -/
theorem endsNumber_squeeze (h : ∀ t ∈ (ofSource s).head?, t.IsDelimiter) :
    Numeral.EndsNumber (squeeze s) := by
  induction s with
  | nil => trivial
  | cons g s ih =>
    by_cases hgap : isGap g = true
    · rcases g with _ | c
      · cases hgap
      · rw [ofSource_blank (step_of_isGap hgap s)] at h
        rw [squeeze_gap hgap]
        exact ih h
    · by_cases hquote : g = some '"'
      · subst hquote
        rw [squeeze]
        exact ⟨rfl, by decide⟩
      · rw [squeeze_plain hquote (by simpa using hgap)]
        rcases g with _ | c
        · trivial
        · exact not_inNumber_of_delimiter h

/-- Blanks make no difference to the tokens of a valid text. -/
theorem ofSource_squeeze (h : Separated (ofSource s)) : ofSource (squeeze s) = ofSource s := by
  fun_induction ofSource s with
  | case1 => rw [squeeze, ofSource]
  | case2 => exact absurd h.1 id
  | case3 c s hblank ih =>
    have hgap : (step c s).Sound c := sound_step c s
    rw [hblank] at hgap
    rw [squeeze_gap hgap, ih h]
  | case4 c s t rest hstep ih =>
    have hrest : ∀ n, t = .number n → Numeral.EndsNumber (squeeze rest) := by
      rintro n rfl
      exact endsNumber_squeeze h.1
    obtain ⟨s', hs', hstep'⟩ := step_squeeze hstep hrest
    rw [hs', ofSource_token hstep', ih (separated_tail h)]
  | case5 c s t hlast =>
    have hbroken : (step c s).Sound c := sound_step c s
    rw [hlast] at hbroken
    exact absurd (isWhole_of_separated h) hbroken

end Token

namespace Source

variable {s t : Source}

/-- The text of one complete document. -/
def Valid (s : Source) : Prop :=
  (Document.ofSource s).Valid

instance (s : Source) : Decidable s.Valid :=
  inferInstanceAs (Decidable (Document.ofSource s).Valid)

theorem Valid.ofSource_squeeze (h : s.Valid) :
    Document.ofSource (squeeze s) = Document.ofSource s := by
  have hseparated : Token.Separated (Token.ofSource s) :=
    @Document.separated_of_valid _ (.value []) trivial h
  rw [Document.ofSource, Token.ofSource_squeeze hseparated, Document.ofSource]

/-- Blanks between tokens make no difference to the document of a valid text. -/
theorem Valid.ofSource_eq (hs : s.Valid) (ht : t.Valid) (h : s.squeeze = t.squeeze) :
    Document.ofSource s = Document.ofSource t := by
  rw [← hs.ofSource_squeeze, h, ht.ofSource_squeeze]

end Source

end ModelRegistry.Json
