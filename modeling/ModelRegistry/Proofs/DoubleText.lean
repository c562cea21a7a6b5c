import ModelRegistry.Proofs.Doubles
import ModelRegistry.Proofs.Literals

/-!
# Written doubles read back

A finite double is written as a decimal that lies in its rounding interval. The digits of a literal
make a significand of 64 bits and a power of ten that do not exceed the decimal, so what was written
of a finite double can be read as a double again. Only the three largest doubles reach beyond what
scaling allows for in general, and these do not overflow either.
-/

namespace ModelRegistry

namespace Decimal

variable {ds es : List Nat} {n k : Nat}

/-- The number with the digits of `n` and the given ones behind these. -/
def extend (n : Nat) (ds : List Nat) : Nat :=
  ds.foldl (fun n d => 10 * n + d) n

theorem value_append (ds es : List Nat) : value (ds ++ es) = extend (value ds) es :=
  List.foldl_append

theorem extend_replicate_zero (n k : Nat) : extend n (List.replicate k 0) = n * 10 ^ k := by
  induction k generalizing n with
  | zero => exact (Nat.mul_one n).symm
  | succ k ih =>
    rw [List.replicate_succ]
    refine (ih (10 * n + 0)).trans ?_
    rw [pow_succ]
    ring

theorem mul_ten_pow_le_extend (n : Nat) (ds : List Nat) : n * 10 ^ ds.length ≤ extend n ds := by
  induction ds generalizing n with
  | nil => exact (Nat.mul_one n).le
  | cons d ds ih =>
    calc n * 10 ^ (ds.length + 1) ≤ (10 * n + d) * 10 ^ ds.length := by
          rw [pow_succ, mul_comm 10 n, add_mul]
          linarith [Nat.zero_le (d * 10 ^ ds.length)]
      _ ≤ extend n (d :: ds) := ih _

theorem le_extend (n : Nat) (ds : List Nat) : n ≤ extend n ds :=
  (Nat.le_mul_of_pos_right n (Nat.pow_pos Nat.ofNat_pos)).trans (mul_ten_pow_le_extend n ds)

theorem extend_lt (hds : ∀ d ∈ ds, d < 10) : extend n ds < (n + 1) * 10 ^ ds.length := by
  induction ds generalizing n with
  | nil => exact (Nat.lt_succ_self n).trans_eq (Nat.mul_one _).symm
  | cons d ds ih =>
    obtain ⟨hd, hds⟩ := List.forall_mem_cons.mp hds
    calc extend n (d :: ds) < (10 * n + d + 1) * 10 ^ ds.length := ih hds
      _ ≤ (10 * (n + 1)) * 10 ^ ds.length := by gcongr; omega
      _ = (n + 1) * 10 ^ (ds.length + 1) := by rw [pow_succ]; ring

end Decimal

namespace Json.Numeral

open Decimal (extend digits Scaled)
open Double (ceiling)

section Absorption

variable {s d : Nat} {ds : List Nat}

theorem absorb_cons (s d : Nat) (ds : List Nat) :
    absorb s (d :: ds) =
      if Fits (10 * s + d) then ((absorb (10 * s + d) ds).1, (absorb (10 * s + d) ds).2 + 1)
      else (s, 0) := rfl

theorem fits_iff : Fits (10 * s + d) ↔ 10 * s + d < 2 ^ 64 := by
  simp only [Fits]
  omega

theorem absorb_of_lt (h : extend s ds < 2 ^ 64) : absorb s ds = (extend s ds, ds.length) := by
  induction ds generalizing s with
  | nil => rfl
  | cons d ds ih =>
    have hfits : 10 * s + d < 2 ^ 64 := (Decimal.le_extend (10 * s + d) ds).trans_lt h
    rw [absorb_cons, if_pos (fits_iff.mpr hfits), ih h]
    rfl

/-- The digits that do not fit are cut off. -/
theorem absorb_bounds (hs : s < 2 ^ 64) (ds : List Nat) :
    (absorb s ds).1 < 2 ^ 64 ∧ (absorb s ds).2 ≤ ds.length ∧
      (absorb s ds).1 * 10 ^ (ds.length - (absorb s ds).2) ≤ extend s ds := by
  induction ds generalizing s with
  | nil => exact ⟨hs, le_rfl, (Nat.mul_one s).le⟩
  | cons d ds ih =>
    rw [absorb_cons]
    split
    · next hfits =>
      obtain ⟨hlt, hcount, hle⟩ := ih (fits_iff.mp hfits)
      refine ⟨hlt, Nat.succ_le_succ hcount, ?_⟩
      rw [List.length_cons, Nat.add_sub_add_right]
      exact hle
    · exact ⟨hs, Nat.zero_le _, Decimal.mul_ten_pow_le_extend s (d :: ds)⟩

/-- A literal becomes a double if its value, `k` digits of which follow the point, is not larger than
the ceiling. -/
theorem exists_toDouble_of_le {n : Numeral} {k : Int} (hwhole : Decimal.value n.whole < 2 ^ 64)
    (hk : (n.fraction.length : Int) - n.exponent.getD 0 = k)
    (hle : Decimal.value (n.whole ++ n.fraction) * 10 ^ (-k).toNat ≤ ceiling * 10 ^ k.toNat) :
    ∃ x, n.toDouble = .ok x := by
  obtain ⟨hlt, hcount, hdigits⟩ := absorb_bounds hwhole n.fraction
  rw [← Decimal.value_append] at hdigits
  generalize hp : absorb (Decimal.value n.whole) n.fraction = p at hlt hcount hdigits
  obtain ⟨significand, places⟩ := p
  set e := (n.whole.length - n.whole.length : Int) - places + n.exponent.getD 0 with he
  have hsignificand : (UInt64.ofNat significand).toNat = significand :=
    UInt64.toNat_ofNat_of_lt' hlt
  have hscale : significand * 10 ^ e.toNat ≤ ceiling := by
    rcases lt_or_ge 0 e with hpos | hneg
    · have hexponent : e.toNat + k.toNat = n.fraction.length - places + (-k).toNat := by
        simp only at hcount
        omega
      refine Nat.le_of_mul_le_mul_right ?_ (Nat.pow_pos Nat.ofNat_pos : 0 < 10 ^ k.toNat)
      calc significand * 10 ^ e.toNat * 10 ^ k.toNat
          = significand * 10 ^ (n.fraction.length - places) * 10 ^ (-k).toNat := by
            rw [mul_assoc, mul_assoc, ← pow_add, ← pow_add, hexponent]
        _ ≤ Decimal.value (n.whole ++ n.fraction) * 10 ^ (-k).toNat := by gcongr
        _ ≤ ceiling * 10 ^ k.toNat := hle
    · rw [Int.toNat_of_nonpos hneg, Nat.pow_zero, Nat.mul_one]
      exact (hlt.trans Double.ceiling_bounds.1).le
  rw [← hsignificand] at hscale
  obtain ⟨x, hx⟩ := exists_scale_of_le hscale
  have hwhole : absorb 0 n.whole = (Decimal.value n.whole, n.whole.length) := absorb_of_lt hwhole
  refine ⟨if n.negative then -x else x, ?_⟩
  simp only [toDouble, hwhole, hp, ← he, hx]
  rfl

end Absorption

section Layouts

variable {s : Scaled}

/-- The literal that a decimal is laid out as. -/
def laidOut (negative : Bool) (s : Scaled) : Numeral :=
  let ds := digits s.coefficient
  let point := (ds.length : Int) + s.exponent
  if 0 ≤ s.exponent ∧ point ≤ 16 then
    ⟨negative, ds ++ List.replicate s.exponent.toNat 0, [0], none⟩
  else if 0 < point ∧ point ≤ 16 then
    ⟨negative, ds.take point.toNat, ds.drop point.toNat, none⟩
  else if -5 < point ∧ point ≤ 0 then
    ⟨negative, [0], List.replicate (-point).toNat 0 ++ ds, none⟩
  else ⟨negative, ds.take 1, ds.drop 1, some (point - 1)⟩

theorem layout_eq_spelling (negative : Bool) (s : Scaled) :
    Number.layout s = (laidOut negative s).spelling := by
  have hlength : (Decimal.natText s.coefficient).length = (digits s.coefficient).length :=
    List.length_map _
  have hzero : Decimal.digitChar 0 = '0' := rfl
  rw [Number.layout, laidOut]
  simp only [hlength]
  split
  · simp [spelling, fractionText, exponentText, Decimal.natText, hzero]
  · split
    · next hpoint hwhole =>
      have hfraction :
          (digits s.coefficient).drop ((digits s.coefficient).length + s.exponent).toNat ≠ [] := by
        rw [Ne, List.drop_eq_nil_iff]
        omega
      simp [spelling, fractionText, exponentText, Decimal.natText, hfraction]
    · obtain ⟨d, ds, hds, -⟩ := exists_digits_eq_cons s.coefficient
      split
      · simp [spelling, fractionText, exponentText, Decimal.natText, hzero, hds]
      · cases ds <;> simp [spelling, fractionText, exponentText, Decimal.natText, hds]

/-- Zero is laid out with one digit only. -/
def IsShort (s : Scaled) : Prop :=
  s.coefficient = 0 → s.exponent = 0

theorem isPlain_laidOut (negative : Bool) (hs : IsShort s) : (laidOut negative s).IsPlain := by
  obtain ⟨d, ds, hds, hd⟩ := exists_digits_eq_cons s.coefficient
  have hten : ∀ a ∈ d :: ds, a < 10 := fun a ha => Decimal.lt_ten_of_mem_digits (hds ▸ ha)
  have hzero : d = 0 → ds = [] := by
    intro h
    rw [hd h, Decimal.digits] at hds
    exact (List.cons.inj hds).2.symm
  rw [laidOut, hds]
  split
  · refine ⟨?_, by simp, d, _, List.cons_append, fun h => ?_⟩
    · intro a ha
      rcases List.mem_append.mp ha with ha | ha
      · exact hten a ha
      · rw [List.eq_of_mem_replicate ha]
        exact Nat.ofNat_pos
    · rw [hzero h, hs (hd h)]
      rfl
  · split
    · next hpoint =>
      obtain ⟨p, hp⟩ : ∃ p : Nat, (((d :: ds).length : Int) + s.exponent).toNat = p + 1 :=
        ⟨_, (Nat.succ_pred_eq_of_pos (by omega)).symm⟩
      rw [hp]
      refine ⟨fun a ha => hten a (List.mem_of_mem_take ha),
        fun a ha => hten a (List.mem_of_mem_drop ha), d, ds.take p, rfl, fun h => ?_⟩
      rw [hzero h]
      exact List.take_nil
    · split
      · refine ⟨by simp, ?_, 0, [], rfl, fun _ => rfl⟩
        intro a ha
        rcases List.mem_append.mp ha with ha | ha
        · rw [List.eq_of_mem_replicate ha]
          exact Nat.ofNat_pos
        · exact hten a ha
      · exact ⟨fun a ha => hten a (List.mem_of_mem_take ha),
          fun a ha => hten a (List.mem_of_mem_drop ha), d, [], rfl, fun _ => rfl⟩

/-- The literal has the digits of the decimal, some zeros behind these, and a point that makes up for
them. -/
theorem value_laidOut (negative : Bool) (s : Scaled) :
    ∃ z : Nat, Decimal.value ((laidOut negative s).whole ++ (laidOut negative s).fraction) =
        s.coefficient * 10 ^ z ∧
      ((laidOut negative s).fraction.length : Int) - (laidOut negative s).exponent.getD 0 =
        z - s.exponent := by
  have hvalue := Decimal.value_digits s.coefficient
  have hpos : 0 < (digits s.coefficient).length := by
    obtain ⟨d, ds, hds, -⟩ := exists_digits_eq_cons s.coefficient
    simp [hds]
  rw [laidOut]
  split
  · refine ⟨s.exponent.toNat + 1, ?_, ?_⟩
    · rw [Decimal.value_append, Decimal.value_append, Decimal.extend_replicate_zero, hvalue, pow_succ]
      exact mul_comm _ _ |>.trans (mul_assoc _ _ _)
    · simp only [List.length_singleton, Option.getD_none]
      omega
  · split
    · refine ⟨0, ?_, ?_⟩
      · rw [List.take_append_drop, hvalue, pow_zero, mul_one]
      · simp only [List.length_drop, Option.getD_none]
        omega
    · split
      · refine ⟨0, ?_, ?_⟩
        · have hzeros : Decimal.value ([0] ++ List.replicate
              (-((digits s.coefficient).length + s.exponent : Int)).toNat 0) = 0 := by
            rw [Decimal.value_append, Decimal.extend_replicate_zero]
            exact zero_mul _
          rw [← List.append_assoc, Decimal.value_append, hzeros, pow_zero, mul_one]
          exact hvalue
        · simp only [List.length_append, List.length_replicate, Option.getD_none]
          omega
      · refine ⟨0, ?_, ?_⟩
        · rw [List.take_append_drop, hvalue, pow_zero, mul_one]
        · simp only [List.length_drop, Option.getD_some]
          omega

theorem length_whole_laidOut_le (negative : Bool) (s : Scaled) :
    (laidOut negative s).whole.length ≤ 16 := by
  rw [laidOut]
  split
  · simp only [List.length_append, List.length_replicate]
    omega
  · split
    · simp only [List.length_take]
      omega
    · split
      · simp
      · simp only [List.length_take]
        omega

theorem text_laidOut (negative : Bool) (s : Scaled) :
    (laidOut negative s).text = if negative then '-' :: Number.layout s else Number.layout s := by
  have hnegative : (laidOut negative s).negative = negative := by
    rw [laidOut]
    split
    · rfl
    · split
      · rfl
      · split <;> rfl
  rw [text, hnegative, ← layout_eq_spelling]

theorem value_eq_double {n : Numeral} (h : n.fraction = [] → n.exponent ≠ none) :
    n.value = .double <$> n.toDouble := by
  rw [value, dif_neg]
  rintro ⟨⟨hfraction, hexponent⟩, -⟩
  exact h hfraction hexponent

theorem value_laidOut_eq_double (negative : Bool) (s : Scaled) :
    (laidOut negative s).value = .double <$> (laidOut negative s).toDouble := by
  refine value_eq_double ?_
  rw [laidOut]
  split
  · exact fun h => nomatch h
  · split
    · intro h
      rw [List.drop_eq_nil_iff] at h
      omega
    · split
      · obtain ⟨d, ds, hds, -⟩ := exists_digits_eq_cons s.coefficient
        simp [hds]
      · exact fun _ h => nomatch h

theorem exists_toDouble_laidOut (negative : Bool) (hs : IsShort s)
    (hle : s.coefficient * 10 ^ s.exponent.toNat ≤ ceiling * 10 ^ (-s.exponent).toNat) :
    ∃ x, (laidOut negative s).toDouble = .ok x := by
  obtain ⟨z, hvalue, hpoint⟩ := value_laidOut negative s
  have hwhole : Decimal.value (laidOut negative s).whole < 2 ^ 64 := by
    calc Decimal.value (laidOut negative s).whole
        < (0 + 1) * 10 ^ (laidOut negative s).whole.length :=
          Decimal.extend_lt (isPlain_laidOut negative hs).whole
      _ ≤ (0 + 1) * 10 ^ 16 := by
          gcongr
          · norm_num
          · exact length_whole_laidOut_le negative s
      _ < 2 ^ 64 := by norm_num
  refine exists_toDouble_of_le hwhole hpoint ?_
  have hexponents : z + (-(z - s.exponent)).toNat + (-s.exponent).toNat =
      s.exponent.toNat + (z - s.exponent).toNat := by omega
  rw [hvalue]
  refine Nat.le_of_mul_le_mul_right ?_ (Nat.pow_pos Nat.ofNat_pos : 0 < 10 ^ (-s.exponent).toNat)
  calc s.coefficient * 10 ^ z * 10 ^ (-(z - s.exponent)).toNat * 10 ^ (-s.exponent).toNat
      = s.coefficient * 10 ^ s.exponent.toNat * 10 ^ (z - s.exponent).toNat := by
        rw [mul_assoc, mul_assoc, mul_assoc, ← pow_add, ← pow_add, ← pow_add, ← hexponents, add_assoc]
    _ ≤ ceiling * 10 ^ (-s.exponent).toNat * 10 ^ (z - s.exponent).toNat := by gcongr
    _ = ceiling * 10 ^ (z - s.exponent).toNat * 10 ^ (-s.exponent).toNat := by ring

end Layouts

end Json.Numeral

namespace Decimal

variable {b : Binary} {s : Scaled}

open Json.Numeral (IsShort)
open Double (ceiling)

/-- The decimal does not exceed the middle between the double and the next larger one. -/
def Within (b : Binary) (s : Scaled) : Prop :=
  s.coefficient * (2 ^ (-(b.exponent - 2)).toNat * 10 ^ s.exponent.toNat) ≤
    (4 * b.significand + 2) * (2 ^ (b.exponent - 2).toNat * 10 ^ (-s.exponent).toNat)

theorem within_of_onGrid {e : Int} {c : Nat} (h : b.onGrid e = some c) :
    0 < c ∧ Within b ⟨c, e⟩ := by
  unfold Binary.onGrid at h
  extract_lets q unit step middle low high inside below above down up at h
  have hinside (c : Nat) (hc : inside c = true) : c * step ≤ high := by
    simp only [inside] at hc
    split at hc
    · exact of_decide_eq_true (Bool.and_eq_true_iff.mp hc).2
    · exact (of_decide_eq_true (Bool.and_eq_true_iff.mp hc).2).le
  -- Whichever neighbour is chosen was found inside of the interval.
  have hbelow (h : (below != 0 && inside below) = true) : 0 < below ∧ below * step ≤ high := by
    obtain ⟨hne, hin⟩ := Bool.and_eq_true_iff.mp h
    exact ⟨Nat.pos_of_ne_zero (bne_iff_ne.mp hne), hinside _ hin⟩
  have habove (h : inside above = true) : 0 < above ∧ above * step ≤ high :=
    ⟨Nat.succ_pos _, hinside _ h⟩
  split at h
  · cases h
  · next hb _ => exact Option.some.inj h ▸ hbelow hb
  · next _ ha => exact Option.some.inj h ▸ habove ha
  · next hb ha =>
    split at h
    · exact Option.some.inj h ▸ hbelow hb
    · exact Option.some.inj h ▸ habove ha

theorem search_spec (b : Binary) (n : Nat) : IsShort (b.search n) ∧ Within b (b.search n) := by
  induction n with
  | zero => exact ⟨fun _ => rfl, by simp [Within, Binary.search]⟩
  | succ n ih =>
    rw [Binary.search]
    cases hgrid : b.onGrid (n - 324) with
    | none => exact ih
    | some c =>
      obtain ⟨hpos, hwithin⟩ := within_of_onGrid hgrid
      exact ⟨fun h => absurd h hpos.ne', hwithin⟩

/-- Beyond the ceiling there are only the three largest doubles. -/
theorem le_ceiling_of_within (hm : b.significand < 2 ^ 53) (hq : b.exponent ≤ 971)
    (hsmall : b.exponent = 971 → b.significand + 3 < 2 ^ 53) (h : Within b s) :
    s.coefficient * 10 ^ s.exponent.toNat ≤ ceiling * 10 ^ (-s.exponent).toNat := by
  have hhigh : (4 * b.significand + 2) * 2 ^ (b.exponent - 2).toNat ≤ ceiling := by
    rcases eq_or_ne b.exponent 971 with htop | hlow
    · have hsmall := hsmall htop
      have hsignificand : 4 * b.significand + 2 ≤ 2 ^ 55 - 14 := by omega
      have hexponent : ((971 : Int) - 2).toNat = 969 := rfl
      rw [ceiling, htop, hexponent]
      exact Nat.mul_le_mul_right _ hsignificand
    · have hexponent : (b.exponent - 2).toNat + 1 ≤ 969 := by omega
      calc (4 * b.significand + 2) * 2 ^ (b.exponent - 2).toNat
          = (2 * b.significand + 1) * 2 ^ ((b.exponent - 2).toNat + 1) := by rw [pow_succ]; ring
        _ ≤ ceiling := by
          rw [ceiling]
          gcongr
          · omega
          · exact one_le_two
  calc s.coefficient * 10 ^ s.exponent.toNat
      ≤ s.coefficient * (2 ^ (-(b.exponent - 2)).toNat * 10 ^ s.exponent.toNat) := by
        gcongr
        exact Nat.le_mul_of_pos_left _ (Nat.two_pow_pos _)
    _ ≤ (4 * b.significand + 2) * (2 ^ (b.exponent - 2).toNat * 10 ^ (-s.exponent).toNat) := h
    _ = (4 * b.significand + 2) * 2 ^ (b.exponent - 2).toNat * 10 ^ (-s.exponent).toNat :=
        (mul_assoc _ _ _).symm
    _ ≤ ceiling * 10 ^ (-s.exponent).toNat := by gcongr

end Decimal

namespace Json.Number

open Decimal
open Numeral (laidOut IsShort EndsNumber)

/-- The exponent bits of a double that is neither infinite nor no number are not all set. -/
theorem exponentBits_ne {x : Float} (hx : x.isFinite = true) :
    x.toBits.toNat / 0x10000000000000 % 0x800 ≠ 0x7ff := by
  intro hbits
  have hne := Double.isFinite_unpack.mp hx
  have hexponent : (@Float.Model.UnpackedFloat.unpackExponent .binary64
      x.toModel.toBits.toBitVec).toNat = x.toBits.toNat / 0x10000000000000 % 0x800 := by
    rw [Float.Model.UnpackedFloat.unpackExponent, BitVec.toNat_cast, BitVec.extractLsb_toNat,
      Nat.shiftRight_eq_div_pow]
    rfl
  exact hne (BitVec.eq_of_toNat_eq (hexponent.trans hbits))

/-- A double is a multiple of at most `2 ^ 971` by a significand of 53 bits. -/
theorem ofBits_bounds {bits : Nat} (hbits : bits < 0x7ff0000000000000) :
    (Binary.ofBits bits).significand < 2 ^ 53 ∧ (Binary.ofBits bits).exponent ≤ 971 ∧
      ((Binary.ofBits bits).exponent = 971 → 2 ^ 53 ≤ (Binary.ofBits bits).significand + 3 →
        0x7fefffffffffffff - bits < 3) := by
  by_cases hzero : bits / Binary.implicitBit % 0x800 = 0
  · have hsubnormal : Binary.ofBits bits = ⟨bits % Binary.implicitBit, -1074, false⟩ :=
      if_pos hzero
    rw [hsubnormal]
    simp only [Binary.implicitBit]
    omega
  · have hnormal : Binary.ofBits bits = ⟨bits % Binary.implicitBit + Binary.implicitBit,
        ((bits / Binary.implicitBit % 0x800 : Nat) : Int) - 1075, _⟩ := if_neg hzero
    rw [hnormal]
    simp only [Binary.implicitBit]
    omega

theorem toDouble_largest :
    ∀ k < 3, ∀ negative, Except.isOk
      (laidOut negative (shortest (.ofBits (0x7fefffffffffffff - k)))).toDouble = true := by
  decide +kernel

theorem exists_toDouble_shortest (negative : Bool) {bits : Nat} (hbits : bits < 0x7ff0000000000000) :
    ∃ y, (laidOut negative (shortest (.ofBits bits))).toDouble = .ok y := by
  obtain ⟨hshort, hwithin⟩ := search_spec (.ofBits bits) 634
  obtain ⟨hsignificand, hexponent, htop⟩ := ofBits_bounds hbits
  by_cases hlarge : 0x7fefffffffffffff - bits < 3
  · have hok := toDouble_largest _ hlarge negative
    have hsub : 0x7fefffffffffffff - (0x7fefffffffffffff - bits) = bits := by omega
    rw [hsub] at hok
    cases hdouble : (laidOut negative (shortest (.ofBits bits))).toDouble with
    | ok y => exact ⟨y, rfl⟩
    | error e =>
      rw [hdouble] at hok
      cases hok
  · exact Numeral.exists_toDouble_laidOut negative hshort
      (le_ceiling_of_within hsignificand hexponent (fun h => by have := htop h; omega) hwithin)

theorem layout_zero : layout ⟨0, 0⟩ = ['0', '.', '0'] := by
  decide +kernel

/-- A double that is neither infinite nor no number is written as a literal that becomes a double. -/
theorem exists_doubleText_eq {x : Float} (hx : x.isFinite = true) :
    ∃ n : Numeral, n.IsPlain ∧ doubleText x = n.text ∧ ∃ y, n.value = .ok (.double y) := by
  have hexponent := exponentBits_ne hx
  have hlt : x.toBits.toNat < 2 ^ 64 := x.toBits.toNat_lt
  generalize hbits : x.toBits.toNat = bits at hexponent hlt
  have hmagnitude : bits % signBit < 0x7ff0000000000000 := by
    rw [signBit]
    omega
  obtain ⟨s, hshort, hdigits, hdouble⟩ : ∃ s, IsShort s ∧
      (if bits % signBit = 0 then ['0', '.', '0']
        else layout (shortest (.ofBits (bits % signBit)))) = layout s ∧
      ∀ negative, ∃ y, (laidOut negative s).toDouble = .ok y := by
    by_cases hzero : bits % signBit = 0
    · refine ⟨⟨0, 0⟩, fun _ => rfl, by rw [if_pos hzero, layout_zero], fun negative => ?_⟩
      exact Numeral.exists_toDouble_laidOut negative (fun _ => rfl) (by simp)
    · exact ⟨_, (search_spec _ _).1, if_neg hzero,
        fun negative => exists_toDouble_shortest negative hmagnitude⟩
  obtain ⟨y, hy⟩ := hdouble (decide (signBit ≤ bits))
  refine ⟨laidOut (decide (signBit ≤ bits)) s, Numeral.isPlain_laidOut _ hshort, ?_, y, ?_⟩
  · rw [Numeral.text_laidOut, doubleText]
    simp only [hbits, hdigits, decide_eq_true_eq]
    by_cases hsign : bits < signBit
    · rw [if_pos hsign, if_neg (by omega)]
    · rw [if_neg hsign, if_pos (by omega)]
  · rw [Numeral.value_laidOut_eq_double, hy]
    rfl

end Json.Number

end ModelRegistry
