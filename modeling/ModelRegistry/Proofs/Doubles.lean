import ModelRegistry.Proofs.Documents
import ModelRegistry.Proofs.Rounding

/-!
# Scaling doubles by powers of ten

A significand of 64 bits and a power of ten become doubles that are too large by one part in
`2 ^ 53` at most. So their product is finite if what they stand for is less than the largest double
by a little. Quotients by a power of ten are always finite, and so is every double that scaling
gives.
-/

namespace ModelRegistry.Double

open Float.Model (Format UnpackedFloat)
open Float.Model.UnpackedFloat

/-- A positive double that is not subnormal, with its mantissa and its exponent. -/
def IsExactly (x : Float) (m : Nat) (e : Int) : Prop :=
  ∃ h : IsNormal m e, x.toModel.unpack = .finite .positive m e h.pos

variable {x y : Float} {m m' n : Nat} {e e' : Int}

theorem IsExactly.isFinite (h : IsExactly x m e) : x.isFinite = true := by
  obtain ⟨_, hx⟩ := h
  change x.toModel.unpack.isFinite = true
  rw [hx]
  rfl

theorem IsExactly.not_isInf (h : IsExactly x m e) : x.isInf = false := by
  obtain ⟨_, hx⟩ := h
  change x.toModel.unpack.isInf = false
  rw [hx]
  rfl

/-- A double for a value from below: it is too large by one part in `2 ^ 53` at most. -/
structure Approximates (x : Float) (value : Nat) (m a : Nat) : Prop where
  exactly : IsExactly x m ((a : Int) - 52)
  le : 2 ^ 53 * (m * 2 ^ a) ≤ (2 ^ 53 + 1) * (value * 2 ^ 52)

theorem exists_isExactly_of_round (n : Nat) (hm : 2 ^ 52 ≤ m)
    (hbound : m * 2 ^ n < (2 ^ 54 - 1) * 2 ^ 2044)
    (hx : x.toModel = .pack (roundWithAccuracy Format.binary64 .positive m (n - 1074) .exact)) :
    ∃ m' j : Nat, IsExactly x m' ((n : Int) - 1074 + j) ∧ m.log2 ≤ 52 + j ∧
      2 ^ 53 * (m' * 2 ^ j) ≤ (2 ^ 53 + 1) * m := by
  obtain ⟨m', j, hnormal, hround, hlog, hle⟩ := exists_isNormal n hm hbound .positive
  refine ⟨m', j, ⟨hnormal, ?_⟩, hlog, hle⟩
  rw [hx, hround]
  exact unpack_pack hnormal

section Significands

/-- A natural number is rounded after it was extended to 53 bits. -/
theorem normalize_natCast (hpos : 0 < n) :
    UnpackedFloat.normalize Format.binary64 n 0 .positive =
      roundWithAccuracy Format.binary64 .positive (n * 2 ^ (52 - n.log2)) (-(52 - n.log2 : Nat))
        .exact := by
  have hcompare : compare (n : Int) 0 = .gt := compare_gt_iff_gt.mpr (Int.natCast_pos.mpr hpos)
  have hshift : (-max ((n.log2 : Int) + 0 - 52) (-1074)).toNat = 52 - n.log2 := by omega
  rw [UnpackedFloat.normalize, hcompare]
  simp only [UnpackedFloat.round, targetExponent_eq, decreaseExponent, Int.toNat_natCast,
    Nat.shiftLeft_eq, zero_sub, hshift]

/-- A significand of 64 bits is far below the largest double. -/
theorem mul_two_pow_lt {v d k l : Nat} (hv : v < 2 ^ 64) (hd : d ≤ k) (hl : k + 64 ≤ l) :
    v * 2 ^ d * 2 ^ (k - d) < (2 ^ 54 - 1) * 2 ^ l := by
  calc v * 2 ^ d * 2 ^ (k - d) = v * 2 ^ k := by
        rw [mul_assoc, ← pow_add, Nat.add_sub_cancel' hd]
    _ < 2 ^ 64 * 2 ^ k := Nat.mul_lt_mul_of_pos_right hv (Nat.two_pow_pos _)
    _ = 2 ^ (k + 64) := by rw [pow_add, mul_comm]
    _ ≤ 2 ^ l := Nat.pow_le_pow_right Nat.two_pos hl
    _ ≤ (2 ^ 54 - 1) * 2 ^ l := Nat.le_mul_of_pos_left _ (by norm_num)

theorem exists_approximates_toFloat {n : UInt64} (hpos : 0 < n.toNat) :
    ∃ m a, Approximates n.toFloat n.toNat m a := by
  set v := n.toNat
  set d := 52 - v.log2
  have hlt : v < 2 ^ 64 := n.toNat_lt
  have hd : d ≤ 52 := Nat.sub_le _ _
  have hm : 2 ^ 52 ≤ v * 2 ^ d := by
    calc 2 ^ 52 ≤ 2 ^ (v.log2 + d) := Nat.pow_le_pow_right Nat.two_pos (by omega)
      _ = 2 ^ v.log2 * 2 ^ d := pow_add _ _ _
      _ ≤ v * 2 ^ d := by gcongr; exact Nat.log2_self_le hpos.ne'
  have hjoin (k : Nat) (hk : d ≤ k) : 2 ^ d * 2 ^ (k - d) = 2 ^ k := by
    rw [← pow_add, Nat.add_sub_cancel' hk]
  have hbound := mul_two_pow_lt hlt (hd.trans (by norm_num : 52 ≤ 1074)) (by norm_num : 1074 + 64 ≤ 2044)
  have hexponent : ((1074 - d : Nat) : Int) - 1074 = -(d : Nat) := by omega
  have hx : n.toFloat.toModel = .pack (roundWithAccuracy Format.binary64 .positive (v * 2 ^ d)
      ((1074 - d : Nat) - 1074) .exact) := by
    rw [hexponent]
    exact congrArg Float.Model.pack (normalize_natCast hpos)
  obtain ⟨m, j, hexactly, -, hle⟩ := exists_isExactly_of_round _ hm hbound hx
  refine ⟨m, j + (52 - d), ?_, ?_⟩
  · have hsum : ((1074 - d : Nat) : Int) - 1074 + j = ((j + (52 - d) : Nat) : Int) - 52 := by omega
    rwa [hsum] at hexactly
  · calc 2 ^ 53 * (m * 2 ^ (j + (52 - d))) = 2 ^ 53 * (m * 2 ^ j) * 2 ^ (52 - d) := by
          rw [pow_add]
          ring
      _ ≤ (2 ^ 53 + 1) * (v * 2 ^ d) * 2 ^ (52 - d) := by gcongr
      _ = (2 ^ 53 + 1) * (v * 2 ^ 52) := by rw [← hjoin 52 hd]; ring

end Significands

section Powers

open Json.Numeral (powerOfTen)

/-- Less than the largest double by a little: a product up to this value is a double, whatever the
errors of its two factors. -/
def ceiling : Nat :=
  (2 ^ 55 - 14) * 2 ^ 969

theorem ceiling_bounds : 2 ^ 64 < ceiling ∧ 10 ^ 308 < ceiling ∧ ceiling < 10 ^ 309 := by
  decide +kernel

theorem ceiling_le : ceiling ≤ (2 ^ 54 - 1) * 2 ^ 970 := by
  rw [ceiling, pow_succ 2 969]
  generalize 2 ^ 969 = p
  omega

/-- Beyond `10 ^ 22` a power of ten is rounded in one multiplication. -/
theorem toModel_powerOfTen (hsmall : 22 < n) (hn : n ≤ 308) :
    (powerOfTen n).toModel = .pack (roundWithAccuracy Format.binary64 .positive (2 ^ 53 * 10 ^ n)
      ((1021 : Nat) - 1074) .exact) := by
  have hslow : powerOfTen n = .ofModel (.ofScientific 1 n) := by
    rw [powerOfTen, Float.ofScientific, dif_neg (fun h => absurd h.2 (by omega))]
    rfl
  have hscientific : UnpackedFloat.ofScientific Format.binary64 1 n =
      roundWithAccuracy Format.binary64 .positive (2 ^ 53 * 10 ^ n) (-53 + 0) .exact := by
    rw [UnpackedFloat.ofScientific, dif_neg Nat.one_ne_zero, if_neg (by norm_num; omega),
      if_neg (by norm_num; omega), if_pos (by omega)]
    rfl
  rw [hslow]
  exact congrArg Float.Model.pack hscientific

/-- Whether a double is a power of ten that is too large by one part in `2 ^ 53` at most. -/
def approximatesPower (u : UnpackedFloat) (n : Nat) : Bool :=
  match u with
  | .finite .positive m e _ =>
    2 ^ 52 ≤ m && m < 2 ^ 53 && (if n = 0 then -52 else -49) ≤ e && e ≤ 971 &&
      2 ^ 53 * (m * 2 ^ (e + 52).toNat) ≤ (2 ^ 53 + 1) * (10 ^ n * 2 ^ 52)
  | _ => false

theorem approximatesPower_powerOfTen :
    ∀ n < 23, approximatesPower (powerOfTen n).toModel.unpack n = true := by
  decide +kernel

theorem two_pow_mul_ten_pow_lt {k l : Nat} (hn : n ≤ 308) (hl : 970 + (53 + k) = l) :
    2 ^ 53 * 10 ^ n * 2 ^ k < (2 ^ 54 - 1) * 2 ^ l := by
  have hmono : Monotone fun k : Nat => 10 ^ k := fun _ _ => Nat.pow_le_pow_right Nat.ofNat_pos
  have hten : 10 ^ n < (2 ^ 54 - 1) * 2 ^ 970 :=
    (hmono hn).trans_lt (ceiling_bounds.2.1.trans_le ceiling_le)
  calc 2 ^ 53 * 10 ^ n * 2 ^ k = 10 ^ n * 2 ^ (53 + k) := by rw [pow_add]; ring
    _ < (2 ^ 54 - 1) * 2 ^ 970 * 2 ^ (53 + k) :=
      Nat.mul_lt_mul_of_pos_right hten (Nat.two_pow_pos _)
    _ = (2 ^ 54 - 1) * 2 ^ l := by rw [← hl, pow_add 2 970, mul_assoc]

theorem exists_approximates_powerOfTen (hn : n ≤ 308) :
    ∃ m a, Approximates (powerOfTen n) (10 ^ n) m a ∧ (0 < n → 3 ≤ a) := by
  rcases Nat.lt_or_ge 22 n with hlarge | hsmall
  · have hten : 8 ≤ 10 ^ n := by
      calc 8 ≤ 10 ^ 1 := by norm_num
        _ ≤ 10 ^ n := Nat.pow_le_pow_right Nat.ofNat_pos (by omega)
    have hm : 2 ^ 56 ≤ 2 ^ 53 * 10 ^ n := by omega
    have hlog : 56 ≤ (2 ^ 53 * 10 ^ n).log2 := (Nat.le_log2 (by omega)).mpr hm
    obtain ⟨m, j, hexactly, hj, hle⟩ := exists_isExactly_of_round 1021 (by omega)
      (two_pow_mul_ten_pow_lt hn (by norm_num)) (toModel_powerOfTen hlarge hn)
    obtain ⟨a, rfl⟩ : ∃ a, j = a + 1 := ⟨j - 1, by omega⟩
    have hexponent : ((1021 : Nat) : Int) - 1074 + (a + 1 : Nat) = (a : Int) - 52 := by omega
    rw [hexponent] at hexactly
    refine ⟨m, a, ⟨hexactly, ?_⟩, fun _ => by omega⟩
    rw [pow_succ 2 a] at hle
    linarith
  · have h := approximatesPower_powerOfTen n (by omega)
    rw [approximatesPower.eq_def] at h
    split at h
    · next m e hm heq =>
      simp only [Bool.and_eq_true, decide_eq_true_eq] at h
      obtain ⟨⟨⟨⟨hle, hlt⟩, hmin⟩, hmax⟩, happrox⟩ := h
      have hmin' : -52 ≤ e := le_trans (by split <;> norm_num) hmin
      have hexponent : ((e + 52).toNat : Int) - 52 = e := by omega
      refine ⟨m, (e + 52).toNat, ⟨⟨⟨hle, hlt, by omega, by omega⟩, ?_⟩, happrox⟩, fun hpos => ?_⟩
      · rw [heq]
        simp only [hexponent]
      · rw [if_neg hpos.ne'] at hmin
        omega
    · cases h

end Powers

section Products

variable {v w m' a b k q l : Nat}

/-- Both errors together are less than what lies between `(2 ^ 55 - 14) * 2 ^ 969` and the middle
between the largest double and the power of two that follows. -/
theorem mul_mul_two_pow_lt (hx : 2 ^ 53 * (m * 2 ^ a) ≤ (2 ^ 53 + 1) * (v * 2 ^ 52))
    (hy : 2 ^ 53 * (m' * 2 ^ b) ≤ (2 ^ 53 + 1) * (w * 2 ^ 52))
    (hvw : v * w ≤ (2 ^ 55 - 14) * 2 ^ k) (hl : k + q + 105 = l) :
    m * m' * 2 ^ (a + b + q) < (2 ^ 54 - 1) * 2 ^ l := by
  have hupper : 2 ^ 106 * (m * m' * 2 ^ (a + b + q)) ≤
      (2 ^ 53 + 1) ^ 2 * 2 ^ 104 * (2 ^ 55 - 14) * (2 ^ k * 2 ^ q) := by
    calc 2 ^ 106 * (m * m' * 2 ^ (a + b + q))
        = 2 ^ 53 * (m * 2 ^ a) * (2 ^ 53 * (m' * 2 ^ b)) * 2 ^ q := by
          rw [pow_add, pow_add]
          ring
      _ ≤ (2 ^ 53 + 1) * (v * 2 ^ 52) * ((2 ^ 53 + 1) * (w * 2 ^ 52)) * 2 ^ q := by gcongr
      _ = (2 ^ 53 + 1) ^ 2 * 2 ^ 104 * (v * w) * 2 ^ q := by ring
      _ ≤ (2 ^ 53 + 1) ^ 2 * 2 ^ 104 * ((2 ^ 55 - 14) * 2 ^ k) * 2 ^ q := by gcongr
      _ = (2 ^ 53 + 1) ^ 2 * 2 ^ 104 * (2 ^ 55 - 14) * (2 ^ k * 2 ^ q) := by ring
  have hroom : (2 ^ 53 + 1) ^ 2 * 2 ^ 104 * (2 ^ 55 - 14) * (2 ^ k * 2 ^ q) <
      2 ^ 106 * (2 ^ 54 - 1) * 2 ^ 105 * (2 ^ k * 2 ^ q) :=
    Nat.mul_lt_mul_of_pos_right (by norm_num) (by positivity)
  have hlower : 2 ^ 106 * ((2 ^ 54 - 1) * 2 ^ l) =
      2 ^ 106 * (2 ^ 54 - 1) * 2 ^ 105 * (2 ^ k * 2 ^ q) := by
    rw [← hl, pow_add, pow_add]
    ring
  exact Nat.lt_of_mul_lt_mul_left (hupper.trans_lt (hroom.trans_eq hlower.symm))

theorem Approximates.not_isInf_mul (hx : Approximates x v m a) (hy : Approximates y w m' b)
    (hvw : v * w ≤ ceiling) : (x * y).isInf = false := by
  rw [ceiling] at hvw
  obtain ⟨hm, hxm⟩ := hx.exactly
  obtain ⟨hm', hym⟩ := hy.exactly
  have hproduct : (x * y).toModel = .pack (roundWithAccuracy Format.binary64 .positive (m * m')
      ((a + b + 970 : Nat) - 1074) .exact) := by
    have hexponent : ((a + b + 970 : Nat) : Int) - 1074 = (a : Int) - 52 + ((b : Int) - 52) := by
      omega
    change Float.Model.pack (mul Format.binary64 x.toModel.unpack y.toModel.unpack) = _
    rw [hxm, hym, hexponent]
    rfl
  have hmm : 2 ^ 52 ≤ m * m' := hm.le.trans (Nat.le_mul_of_pos_right _ hm'.pos)
  obtain ⟨_, _, hexactly, -, -⟩ := exists_isExactly_of_round _ hmm
    (mul_mul_two_pow_lt hx.le hy.le hvw (by norm_num)) hproduct
  exact hexactly.not_isInf

end Products

section Finite

variable {s : Sign} {h : 0 < m}

/-- What a double that is neither infinite nor no number is unpacked to. -/
theorem unpack_of_isFinite (hx : x.isFinite = true) :
    (∃ s, x.toModel.unpack = .zero s) ∨
      ∃ s m e, ∃ h : 0 < m, x.toModel.unpack = .finite s m e h ∧ m < 2 ^ 53 ∧ e ≤ 971 := by
  change UnpackedFloat.isFinite (unpack Format.binary64 x.toModel.toBits.toBitVec) = true at hx
  change (∃ s, unpack Format.binary64 x.toModel.toBits.toBitVec = .zero s) ∨
    ∃ s m e, ∃ h : 0 < m,
      unpack Format.binary64 x.toModel.toBits.toBitVec = .finite s m e h ∧ m < 2 ^ 53 ∧ e ≤ 971
  set b : BitVec Format.binary64.numBits := x.toModel.toBits.toBitVec
  have hne := isFinite_unpack.mp hx
  have hmantissa : (unpackMantissa b).toNat < 2 ^ 52 := (unpackMantissa b).isLt
  have hexponent : (unpackExponent b).toNat < 2 ^ 11 := (unpackExponent b).isLt
  have hmax : (unpackExponent b).toNat ≠ 2047 := fun h => hne (BitVec.eq_of_toNat_eq h)
  rw [unpack, if_neg hne]
  split
  · next hzero =>
    split
    · exact .inl ⟨_, rfl⟩
    · next hne =>
      have hpos : 0 < (unpackMantissa b).toNat :=
        Nat.pos_of_ne_zero fun h => hne (BitVec.eq_of_toNat_eq h)
      refine .inr ⟨_, _, _, hpos, rfl, by omega, ?_⟩
      rw [hzero]
      decide
  · have hnat := toNat_implicit_append (unpackMantissa b)
    have hpos : 0 < (1#1 ++ unpackMantissa b).toNat := by omega
    refine .inr ⟨_, _, _, hpos, rfl, by omega, ?_⟩
    change ((unpackExponent b).toNat : Int) - ((1023 : Nat) + (52 : Nat)) ≤ 971
    omega

theorem isFinite_of_pack_round {m : Nat} {a : Accuracy}
    (hx : x.toModel = .pack (roundWithAccuracy Format.binary64 s m e a))
    (hlog : (m.log2 : Int) + e ≤ 1022) (he : e ≤ 970) : x.isFinite = true := by
  change UnpackedFloat.isFinite x.toModel.unpack = true
  rw [hx]
  rcases zero_or_finite_of_round s m e a with hzero | ⟨m', e', h, hround⟩
  · rw [hzero]
    exact isFinite_pack_zero s
  · rw [hround]
    have hle := exponent_le_of_roundWithAccuracy hround
    exact isFinite_of_exponent_le h (by omega)

theorem isFinite_neg (hx : x.isFinite = true) : (-x).isFinite = true := by
  change UnpackedFloat.isFinite (Float.Model.unpack (.pack x.toModel.unpack.neg)) = true
  rcases unpack_of_isFinite hx with ⟨s, hzero⟩ | ⟨s, m, e, h, hfinite, -, he⟩
  · rw [hzero]
    exact isFinite_pack_zero _
  · rw [hfinite]
    exact isFinite_of_exponent_le h he

theorem isFinite_div {P : Float} {m b : Nat} (hx : x.isFinite = true)
    (hP : IsExactly P m ((b : Int) - 52)) (hb : 3 ≤ b) : (x / P).isFinite = true := by
  obtain ⟨hm, hPm⟩ := hP
  have hquotient : (x / P).toModel = .pack (div Format.binary64 x.toModel.unpack P.toModel.unpack) := rfl
  rcases unpack_of_isFinite hx with ⟨s, hzero⟩ | ⟨s, m₁, e₁, hpos, hfinite, hm₁, he₁⟩
  · change UnpackedFloat.isFinite (x / P).toModel.unpack = true
    rw [hquotient, hzero, hPm]
    exact isFinite_pack_zero _
  · obtain ⟨q, t, a, hcore, hlog, ht⟩ := exists_divCore_eq hpos hm₁ he₁ hm (by omega)
    rw [hfinite, hPm, div, hcore] at hquotient
    exact isFinite_of_pack_round hquotient hlog ht

theorem isFinite_mul {P : Float} {m : Nat} {e : Int} (hx : x.isFinite = true) (hP : IsExactly P m e)
    (hinf : (x * P).isInf = false) : (x * P).isFinite = true := by
  obtain ⟨hm, hPm⟩ := hP
  have hproduct : (x * P).toModel = .pack (mul Format.binary64 x.toModel.unpack P.toModel.unpack) := rfl
  change UnpackedFloat.isInf (x * P).toModel.unpack = false at hinf
  change UnpackedFloat.isFinite (x * P).toModel.unpack = true
  rw [hproduct, hPm] at hinf ⊢
  rcases unpack_of_isFinite hx with ⟨s, hzero⟩ | ⟨s, m₁, e₁, hpos, hfinite, -, -⟩
  · rw [hzero]
    exact isFinite_pack_zero _
  · rw [hfinite, mul] at hinf ⊢
    rcases zero_or_finite_of_round (s * .positive) (m₁ * m) (e₁ + e) .exact with
      hzero | ⟨m', e', h, hround⟩
    · rw [hzero]
      exact isFinite_pack_zero _
    · rw [hround] at hinf ⊢
      rcases isFinite_or_isInf_of_pack h with ⟨-, hf⟩ | ⟨-, hi⟩
      · exact hf
      · exact absurd (hi.symm.trans hinf) (by decide)

theorem not_isInf_of_isFinite (hx : x.isFinite = true) : x.isInf = false := by
  change UnpackedFloat.isFinite x.toModel.unpack = true at hx
  change UnpackedFloat.isInf x.toModel.unpack = false
  cases hu : x.toModel.unpack with
  | zero | finite => rfl
  | infinity | notANumber => rw [hu] at hx; cases hx

theorem isFinite_zero_mul {P : Float} {m : Nat} {e : Int} (hP : IsExactly P m e) :
    (UInt64.toFloat 0 * P).isFinite = true := by
  obtain ⟨hm, hPm⟩ := hP
  have hzero : (UInt64.toFloat 0).toModel.unpack = .zero .positive := by rfl
  change UnpackedFloat.isFinite (Float.Model.unpack (.pack (mul Format.binary64
    (UInt64.toFloat 0).toModel.unpack P.toModel.unpack))) = true
  rw [hzero, hPm]
  exact isFinite_pack_zero _

theorem isFinite_toFloat (n : UInt64) : n.toFloat.isFinite = true := by
  rcases Nat.eq_zero_or_pos n.toNat with hzero | hpos
  · rw [UInt64.toNat.inj (hzero.trans UInt64.toNat_zero.symm)]
    decide +kernel
  · obtain ⟨m, a, happrox⟩ := exists_approximates_toFloat hpos
    exact happrox.exactly.isFinite

end Finite

end ModelRegistry.Double

namespace ModelRegistry.Json.Numeral

open Double

variable {f g : Float} {e : Int} {n : UInt64}

/-- Scaling gives a double that is neither infinite nor no number. -/
theorem isFinite_of_scale (hf : f.isFinite = true) (h : scale f e = .ok g) : g.isFinite = true := by
  fun_induction scale f e with
  | case1 f e he hzero => cases h; exact hf
  | case2 f e he hne ih =>
    obtain ⟨m, a, happrox, ha⟩ := exists_approximates_powerOfTen (Nat.le_refl 308)
    exact ih (isFinite_div hf happrox.exactly (ha (by norm_num))) h
  | case3 f e hlow hneg =>
    obtain ⟨m, a, happrox, ha⟩ := exists_approximates_powerOfTen (n := e.natAbs) (by omega)
    cases h
    exact isFinite_div hf happrox.exactly (ha (by omega))
  | case4 => cases h
  | case5 f e hlow hneg hhigh g' hinf =>
    obtain ⟨m, a, happrox, -⟩ := exists_approximates_powerOfTen (n := e.toNat) (by omega)
    obtain rfl := Except.ok.inj h
    exact isFinite_mul hf happrox.exactly (Bool.eq_false_iff.mpr hinf)
  | case6 => cases h; exact hf
  | case7 => cases h

theorem isFinite_of_toDouble {n : Numeral} {x : Float} (h : n.toDouble = .ok x) :
    x.isFinite = true := by
  simp only [toDouble] at h
  obtain ⟨f, hscale, hx⟩ := bind_eq_ok.mp h
  have hf := isFinite_of_scale (isFinite_toFloat _) hscale
  cases hx
  split
  · exact isFinite_neg hf
  · exact hf

theorem exists_scale_of_neg (f : Float) (he : e < 0) : ∃ g, scale f e = .ok g := by
  fun_induction scale f e with
  | case1 f e hlow hzero => exact ⟨f, rfl⟩
  | case2 f e hlow hne ih => exact ih (by omega)
  | case3 f e hlow hneg => exact ⟨_, rfl⟩
  | case4 | case5 | case6 | case7 => contradiction

/-- A value up to the ceiling does not overflow. -/
theorem exists_scale_of_le (h : n.toNat * 10 ^ e.toNat ≤ ceiling) :
    ∃ x, scale n.toFloat e = .ok x := by
  by_cases hneg : e < 0
  · exact exists_scale_of_neg _ hneg
  · rw [scale, dif_neg (by omega), if_neg hneg]
    by_cases hhigh : e ≤ 308
    · obtain ⟨m, a, happrox, -⟩ := exists_approximates_powerOfTen (n := e.toNat) (by omega)
      have hinf : (n.toFloat * powerOfTen e.toNat).isInf = false := by
        rcases Nat.eq_zero_or_pos n.toNat with hzero | hpos
        · rw [UInt64.toNat.inj (hzero.trans UInt64.toNat_zero.symm)]
          exact not_isInf_of_isFinite (isFinite_zero_mul happrox.exactly)
        · obtain ⟨m', a', hn⟩ := exists_approximates_toFloat hpos
          exact hn.not_isInf_mul happrox h
      simp only [if_pos hhigh, hinf]
      exact ⟨_, rfl⟩
    · have hzero : n.toNat = 0 := by
        by_contra hne
        have hmono : Monotone fun k : Nat => 10 ^ k := fun _ _ => Nat.pow_le_pow_right Nat.ofNat_pos
        have hten : 10 ^ 309 ≤ 10 ^ e.toNat := hmono (by omega)
        exact absurd (ceiling_bounds.2.2.trans_le hten)
          (Nat.not_lt.mpr ((Nat.le_mul_of_pos_left _ (Nat.pos_of_ne_zero hne)).trans h))
      rw [if_neg hhigh, UInt64.toNat.inj (hzero.trans UInt64.toNat_zero.symm)]
      exact ⟨_, if_pos rfl⟩

end ModelRegistry.Json.Numeral
