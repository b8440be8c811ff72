import Mathlib
import XrDelivery.Proofs.SignedOrder
import XrDelivery.Proofs.NearestRounding

/-!
# Magnitudes and square roots of doubles

Rounding to nearest looks at the magnitude only and writes the sign back unchanged
(`abs_roundWithAccuracy`), and packing keeps the sign apart from the rest of the bits
(`abs_unpack_pack`). So the magnitude of a product of finite doubles is the double nearest the
product of their magnitudes (`Float.Magnitude.mul`): such a product is never NaN, and it is
finite whenever that exact product lies below a finite double. Negating either factor negates
the product (`Float.neg_mul`).

Negation mirrors the order of doubles (`Float.signedKey_neg`), so `-b ≤ x ≤ b` bounds the
magnitude of `x` by the value of `b` (`Float.magnitude_of_le`).

The square root of a canonical double is computed from a positive whole part at an exponent
no larger than its target exponent, which stays below `971` (`sqrtCore_bounds`): the square
root of a finite double zero or more is finite and zero or more (`Float.nonNegValue_sqrt`).
A finite double less a smaller one is positive (`Float.zero_lt_sub`).
-/

namespace Float.Model.UnpackedFloat

/-! ## Signs and magnitudes -/

theorem abs_roundWithAccuracy (s : Sign) (m : Nat) (e : Int) (acc : Accuracy) :
    (roundWithAccuracy .binary64 s m e acc).abs = roundWithAccuracy .binary64 .positive m e acc := by
  simp only [roundWithAccuracy]
  split <;> rfl

theorem isFinite_abs (x : UnpackedFloat) : x.abs.isFinite = x.isFinite := by
  cases x <;> rfl

theorem abs_eq_or_eq_neg (x : UnpackedFloat) : x.abs = x ∨ x.abs = x.neg := by
  cases x with
  | infinity s => cases s; exacts [.inr rfl, .inl rfl]
  | notANumber => exact .inl rfl
  | zero s => cases s; exacts [.inr rfl, .inl rfl]
  | finite s m e h => cases s; exacts [.inr rfl, .inl rfl]

theorem isPlus_abs {x : UnpackedFloat} (hx : x ≠ .notANumber) : IsPlus x.abs := by
  cases x with
  | infinity => exact .infinity
  | notANumber => exact absurd rfl hx
  | zero => exact .zero
  | finite s m e h => exact .finite m e h

theorem abs_unpack_pack {w : UnpackedFloat} (hw : Rounded w.abs) :
    (Float.Model.pack w).unpack.abs = (Float.Model.pack w.abs).unpack := by
  cases w with
  | infinity s => cases hw
  | notANumber => cases hw
  | zero s =>
    rw [Float.Model.unpack_pack_zero]
    exact (Float.Model.unpack_pack_zero .positive).symm
  | finite s m e h =>
    have hc : Canonical m e := by cases hw; assumption
    by_cases he : e ≤ 971
    · rw [unpack_pack_finite h hc he]
      exact (unpack_pack_finite h hc he).symm
    · rw [unpack_pack_finite_of_lt h (not_le.mp he)]
      exact (unpack_pack_finite_of_lt h (not_le.mp he)).symm

theorem Sign.neg_mul_eq_mul_neg (a b : Sign) : -a * b = a * -b := by
  cases a <;> cases b <;> rfl

theorem neg_mul_eq_mul_neg (x y : UnpackedFloat) :
    x.neg.mul .binary64 y = x.mul .binary64 y.neg := by
  cases x <;> cases y <;> simp only [neg, mul, Sign.neg_mul_eq_mul_neg]

theorem signedBits_neg (x : UnpackedFloat) : x.neg.signedBits = -x.signedBits := by
  cases x with
  | infinity s => cases s <;> simp [neg, signedBits, plusBits]
  | notANumber => simp [neg, signedBits, plusBits]
  | zero s => cases s <;> simp [neg, signedBits, plusBits]
  | finite s m e h => cases s <;> simp [neg, signedBits, plusBits]

/-! ## Rounded doubles are neither NaN nor, below a finite double, infinite -/

theorem Rounded.isPlus {x : UnpackedFloat} (hx : Rounded x) : IsPlus x := by
  cases hx with
  | zero => exact .zero
  | finite h => exact .finite _ _ h

namespace RoundsFrom

variable {x b : UnpackedFloat} {v β : ℚ}

theorem ne_notANumber (h : RoundsFrom x v) : x ≠ .notANumber := by
  cases h with
  | zero => simp
  | nearest _ ht => exact (isPlus_unpack_pack ht.rounded.isPlus).ne_notANumber

theorem isFinite_of_le (h : RoundsFrom x v) (hb : NonNegValue b β) (hv : v ≤ β) :
    x.isFinite = true := by
  have hle := h.le hb.roundsFrom hv
  cases h with
  | zero => rfl
  | nearest _ ht =>
    have hplus := isPlus_unpack_pack ht.rounded.isPlus
    generalize (Float.Model.pack (UnpackedFloat.nearest _ _)).unpack = X at hle hplus ⊢
    cases hplus with
    | zero => rfl
    | finite => rfl
    | infinity => cases hb <;> simp [UnpackedFloat.le, UnpackedFloat.compare] at hle

end RoundsFrom

theorem NonNegValue.mul {x y : UnpackedFloat} {p q : ℚ} (hx : NonNegValue x p)
    (hy : NonNegValue y q) : RoundsFrom (Float.Model.pack (x.mul .binary64 y)).unpack (p * q) := by
  cases hx with
  | zero s₁ =>
    rw [zero_mul]
    cases hy with
    | zero s₂ =>
      rw [show (UnpackedFloat.zero s₁).mul .binary64 (.zero s₂) = .zero (s₁ * s₂) from rfl,
        Float.Model.unpack_pack_zero]
      exact .zero _
    | finite h₂ =>
      rw [show (UnpackedFloat.zero s₁).mul .binary64 (.finite .positive _ _ h₂) =
        .zero (s₁ * .positive) from rfl, Float.Model.unpack_pack_zero]
      exact .zero _
  | finite h₁ hc₁ =>
    cases hy with
    | zero s₂ =>
      rw [mul_zero, show (UnpackedFloat.finite .positive _ _ h₁).mul .binary64 (.zero s₂) =
        .zero (.positive * s₂) from rfl, Float.Model.unpack_pack_zero]
      exact .zero _
    | finite h₂ hc₂ =>
      have hpos := Nat.mul_pos h₁ h₂
      rw [mul_finite_positive h₁ h₂ hc₁ hc₂, round_eq hpos, value_mul]
      exact .nearest (value_pos hpos _) (targetOf_value hpos _)

theorem roundsFrom_abs_mul {x y : UnpackedFloat} {p q : ℚ} (hx : NonNegValue x.abs p)
    (hy : NonNegValue y.abs q) :
    RoundsFrom (Float.Model.pack (x.mul .binary64 y)).unpack.abs (p * q) := by
  cases x with
  | infinity => cases hx
  | notANumber => cases hx
  | zero s₁ =>
    cases hx
    rw [zero_mul]
    cases y with
    | infinity => cases hy
    | notANumber => cases hy
    | zero s₂ =>
      rw [show (UnpackedFloat.zero s₁).mul .binary64 (.zero s₂) = .zero (s₁ * s₂) from rfl,
        Float.Model.unpack_pack_zero]
      exact .zero _
    | finite s₂ m₂ e₂ h₂ =>
      rw [show (UnpackedFloat.zero s₁).mul .binary64 (.finite s₂ m₂ e₂ h₂) =
        .zero (s₁ * s₂) from rfl, Float.Model.unpack_pack_zero]
      exact .zero _
  | finite s₁ m₁ e₁ h₁ =>
    cases y with
    | infinity => cases hy
    | notANumber => cases hy
    | zero s₂ =>
      cases hy
      rw [mul_zero, show (UnpackedFloat.finite s₁ m₁ e₁ h₁).mul .binary64 (.zero s₂) =
        .zero (s₁ * s₂) from rfl, Float.Model.unpack_pack_zero]
      exact .zero _
    | finite s₂ m₂ e₂ h₂ =>
      have hmag : ((UnpackedFloat.finite s₁ m₁ e₁ h₁).mul .binary64 (.finite s₂ m₂ e₂ h₂)).abs =
          (UnpackedFloat.finite .positive m₁ e₁ h₁).mul .binary64 (.finite .positive m₂ e₂ h₂) :=
        abs_roundWithAccuracy _ _ _ _
      cases hx with
      | finite _ hc₁ he₁ =>
        cases hy with
        | finite _ hc₂ he₂ =>
          have hpos := Nat.mul_pos h₁ h₂
          have hr : Rounded ((UnpackedFloat.finite .positive m₁ e₁ h₁).mul .binary64
              (.finite .positive m₂ e₂ h₂)) := by
            rw [mul_finite_positive h₁ h₂ hc₁ hc₂, round_eq hpos]
            exact (targetOf_value hpos _).rounded
          rw [abs_unpack_pack (hmag ▸ hr), hmag]
          exact (NonNegValue.finite h₁ hc₁ he₁).mul (.finite h₂ hc₂ he₂)

/-! ## Square roots -/

theorem exists_represents (m : Nat) (acc : Accuracy) :
    ∃ x, Represents (ExtendedMantissa.ofMantissaAndAccuracy m acc) x := by
  cases acc with
  | exact => exact ⟨m, represents_exact m⟩
  | inexact o =>
    cases o with
    | lt => exact ⟨m + 1 / 4, by norm_num [Represents, ExtendedMantissa.ofMantissaAndAccuracy]⟩
    | eq => exact ⟨m + 1 / 2, by norm_num [Represents, ExtendedMantissa.ofMantissaAndAccuracy]⟩
    | gt => exact ⟨m + 3 / 4, by norm_num [Represents, ExtendedMantissa.ofMantissaAndAccuracy]⟩

theorem nearest_exponent_le {v : ℚ} {t : Int} {m : Nat} {e : Int} {h : 0 < m}
    (hn : nearest v t = .finite .positive m e h) : e ≤ t + 1 := by
  unfold nearest unitsAt at hn
  split_ifs at hn <;> cases hn <;> omega

/-- The square root of a canonical double is computed from a positive whole part at an exponent no
larger than its target exponent, which is at most `970`. -/
theorem sqrtCore_bounds {m : Nat} {e : Int} (hm : 0 < m) (hc : Canonical m e) (he : e ≤ 971)
    {root : Nat} {t : Int} {acc : Accuracy} (h : sqrtCore .binary64 m e = (root, t, acc)) :
    0 < root ∧ t ≤ Format.binary64.targetExponent (totalExponent root t) ∧
      Format.binary64.targetExponent (totalExponent root t) ≤ 970 := by
  simp only [sqrtCore, Prod.mk.injEq] at h
  obtain ⟨hroot, ht, -⟩ := h
  simp only [targetExponent_binary64, totalExponent, ← Int.div_def] at ht hroot ⊢
  rw [ht, Nat.shiftLeft_eq] at hroot
  have hlog : m.log2 < 53 := (Nat.log2_lt hm.ne').mpr hc.1
  -- the mantissa is shifted left by `k = e - 2t` bits and `root = ⌊√(m · 2^k)⌋`
  set k := (e - 2 * t).toNat with hk
  have hkt : (k : Int) = e - 2 * t := by omega
  have hpos : 0 < root := hroot ▸ Nat.sqrt_pos.mpr (Nat.mul_pos hm (by positivity))
  set K := (k + 54) / 2 with hKdef
  have hroot_lt : root < 2 ^ K := by
    rw [← hroot, Nat.sqrt_lt]
    calc m * 2 ^ k < 2 ^ 53 * 2 ^ k := Nat.mul_lt_mul_of_pos_right hc.1 (by positivity)
      _ = 2 ^ (53 + k) := (pow_add 2 53 k).symm
      _ ≤ 2 ^ (K + K) := Nat.pow_le_pow_right two_pos (by omega)
      _ = 2 ^ K * 2 ^ K := pow_add 2 K K
  have hlog_lt : root.log2 < K := (Nat.log2_lt hpos.ne').mpr hroot_lt
  -- off the least exponent the shift leaves at least `104` bits, so the root has at least `53`
  have hlow : -1074 < t → 52 ≤ root.log2 := by
    intro htmin
    have h104 : 104 ≤ m.log2 + k := by omega
    have hbits : 2 ^ 52 * 2 ^ 52 ≤ m * 2 ^ k :=
      calc 2 ^ 52 * 2 ^ 52 = 2 ^ 104 := by norm_num
        _ ≤ 2 ^ (m.log2 + k) := Nat.pow_le_pow_right two_pos h104
        _ = 2 ^ m.log2 * 2 ^ k := pow_add 2 _ k
        _ ≤ m * 2 ^ k := Nat.mul_le_mul_right _ (Nat.log2_self_le hm.ne')
    have h52 : 2 ^ 52 ≤ root := hroot ▸ Nat.le_sqrt.mpr hbits
    exact (Nat.le_log2 hpos.ne').mpr h52
  refine ⟨hpos, ?_, by omega⟩
  by_cases htmin : -1074 < t
  · have := hlow htmin
    omega
  · omega

theorem NonNegValue.sqrt {x : UnpackedFloat} {p : ℚ} (hx : NonNegValue x p) :
    ∃ q, NonNegValue (Float.Model.pack (x.sqrt .binary64)).unpack q := by
  cases hx with
  | zero s =>
    rw [show (UnpackedFloat.zero s).sqrt .binary64 = .zero s from rfl, Float.Model.unpack_pack_zero]
    exact ⟨0, .zero s⟩
  | @finite m e h hc he =>
    obtain ⟨⟨root, t, acc⟩, hcore⟩ : ∃ r, sqrtCore .binary64 m e = r := ⟨_, rfl⟩
    have hsqrt : (UnpackedFloat.finite .positive m e h).sqrt .binary64 =
        roundWithAccuracy .binary64 .positive root t acc := by
      simp only [UnpackedFloat.sqrt, hcore]
    obtain ⟨hroot, hte, h970⟩ := sqrtCore_bounds h hc he hcore
    obtain ⟨y, hy⟩ := exists_represents root acc
    have hr := (targetOf_represents hy (e := t) (Or.inl hroot)).rounded
    rw [hsqrt, roundWithAccuracy_eq hy hte]
    generalize hN : nearest (y * 2 ^ t) (Format.binary64.targetExponent (totalExponent root t)) = N
      at hr
    cases hr with
    | zero => exact ⟨0, by rw [Float.Model.unpack_pack_zero]; exact .zero _⟩
    | finite h' hc' =>
      have hE := nearest_exponent_le hN
      exact ⟨_, by rw [unpack_pack_finite h' hc' (by omega)]; exact .finite h' hc' (by omega)⟩

end Float.Model.UnpackedFloat

namespace Float

open Float.Model Float.Model.UnpackedFloat

variable {x y x' b : Float} {p q q' β : ℚ}

/-! ## Negation -/

theorem isNaN_neg (x : Float) : (-x).isNaN = x.isNaN := by
  change (-x).toModel.unpack.isNaN = x.toModel.unpack.isNaN
  rw [unpack_neg]
  cases x.toModel.unpack <;> rfl

theorem signedKey_neg (x : Float) : (-x).signedKey = -x.signedKey := by
  rw [signedKey, signedKey, unpack_neg, signedBits_neg]

theorem neg_le_of_neg_le (h : -b ≤ x) : -x ≤ b := by
  obtain ⟨hnb, hx⟩ := isNaN_of_le h
  have hb : b.isNaN = false := by rwa [isNaN_neg] at hnb
  have hnx : (-x).isNaN = false := by rwa [isNaN_neg]
  rw [le_iff_signedKey hnb hx, signedKey_neg] at h
  rw [le_iff_signedKey hnx hb, signedKey_neg]
  omega

theorem zero_le_neg (h : x ≤ 0) : 0 ≤ -x := by
  obtain ⟨hx, h0⟩ := isNaN_of_le h
  have hnx : (-x).isNaN = false := by rwa [isNaN_neg]
  rw [le_iff_signedKey hx h0] at h
  rw [le_iff_signedKey h0 hnx, signedKey_neg]
  change x.signedKey ≤ 0 at h
  change 0 ≤ -x.signedKey
  omega

protected theorem neg_mul (x y : Float) : -x * y = x * -y := by
  obtain ⟨X⟩ := x
  obtain ⟨Y⟩ := y
  show (⟨Model.pack ((-(⟨X⟩ : Float)).toModel.unpack.mul .binary64 Y.unpack)⟩ : Float) =
    ⟨Model.pack (X.unpack.mul .binary64 (-(⟨Y⟩ : Float)).toModel.unpack)⟩
  rw [unpack_neg, unpack_neg, neg_mul_eq_mul_neg]

/-! ## Products and square roots of doubles zero or more -/

theorem roundsFrom_mul (hx : NonNegValue x.toModel.unpack p) (hy : NonNegValue y.toModel.unpack q) :
    RoundsFrom (x * y).toModel.unpack (p * q) := by
  rw [unpack_mul]
  exact hx.mul hy

theorem mul_le_mul_left (hy : NonNegValue y.toModel.unpack p) (hx : NonNegValue x.toModel.unpack q)
    (hx' : NonNegValue x'.toModel.unpack q') (h : x ≤ x') : y * x ≤ y * x' :=
  le_of_roundsFrom (roundsFrom_mul hy hx) (roundsFrom_mul hy hx')
    (mul_le_mul_of_nonneg_left ((le_iff_value hx hx').mp h) hy.nonneg)

theorem nonNegValue_sqrt (hx : NonNegValue x.toModel.unpack p) :
    ∃ q, NonNegValue x.sqrt.toModel.unpack q :=
  hx.sqrt

theorem zero_lt_sub (hx : NonNegValue x.toModel.unpack p) (hy : NonNegValue y.toModel.unpack q)
    (h : q < p) : 0 < x - y := by
  rw [lt_iff_unpack, unpack_zero, unpack_sub]
  generalize x.toModel.unpack = X at hx
  generalize y.toModel.unpack = Y at hy
  cases hx with
  | zero => exact absurd h (not_lt.mpr hy.nonneg)
  | @finite m₁ e₁ h₁ hc₁ he₁ =>
    cases hy with
    | zero s =>
      rw [show (UnpackedFloat.finite .positive m₁ e₁ h₁).sub .binary64 (.zero s) =
        .finite .positive m₁ e₁ h₁ from rfl, unpack_pack_finite h₁ hc₁ he₁]
      rfl
    | @finite m₂ e₂ h₂ hc₂ he₂ =>
      have hlt : m₂ <<< (e₂ - min e₁ e₂).toNat < m₁ <<< (e₁ - min e₁ e₂).toNat := by
        rw [← value_shiftLeft m₁ (min_le_left e₁ e₂), ← value_shiftLeft m₂ (min_le_right e₁ e₂)] at h
        exact value_lt_value_same.mp h
      have hmin : -1074 ≤ min e₁ e₂ := le_min hc₁.2.1 hc₂.2.1
      rw [sub_finite, normalize_of_pos _ _ (by simp only [Sign.apply]; omega)]
      simp only [Sign.apply]
      obtain ⟨M, E, hM, hr, hc, -⟩ := round_ge .positive
        (M := ((m₁ <<< (e₁ - min e₁ e₂).toNat : Nat) - (m₂ <<< (e₂ - min e₁ e₂).toNat : Nat) :
          Int).toNat) one_pos (⟨by norm_num, le_rfl, Or.inr rfl⟩ : Canonical 1 (-1074)) hmin
        (by
          rw [show tinyUnits 1 (-1074) = 1 from rfl]
          exact Nat.mul_pos (by omega) (by positivity))
      rw [hr]
      rcases unpack_pack_finite_cases hM hc with ⟨hb, -⟩ | hinf
      · rw [hb]; rfl
      · rw [hinf]; rfl

/-! ## Magnitudes -/

/-- A finite double whose magnitude has the exact value `p`. -/
def Magnitude (x : Float) (p : ℚ) : Prop := NonNegValue x.toModel.unpack.abs p

theorem magnitude_of_nonNegValue (hx : NonNegValue x.toModel.unpack p) : x.Magnitude p := by
  unfold Magnitude
  generalize x.toModel.unpack = X at hx ⊢
  cases hx with
  | zero s => exact .zero _
  | finite h hc he => exact .finite h hc he

theorem magnitude_of_isFinite (hx : x.isFinite = true) : ∃ p, x.Magnitude p := by
  change x.toModel.unpack.isFinite = true at hx
  unfold Magnitude
  cases hX : x.toModel.unpack with
  | infinity => rw [hX] at hx; cases hx
  | notANumber => rw [hX] at hx; cases hx
  | zero s => exact ⟨0, .zero _⟩
  | finite s m e h =>
    obtain ⟨hc, he⟩ := canonical_of_unpack hX
    exact ⟨_, .finite h hc he⟩

theorem magnitude_of_le (hb : NonNegValue b.toModel.unpack β) (hlo : -b ≤ x) (hhi : x ≤ b) :
    ∃ p, x.Magnitude p ∧ p ≤ β := by
  obtain ⟨y, hy, hyb⟩ : ∃ y : Float, x.toModel.unpack.abs = y.toModel.unpack ∧ y ≤ b := by
    rcases abs_eq_or_eq_neg x.toModel.unpack with h | h
    · exact ⟨x, h, hhi⟩
    · exact ⟨-x, h.trans (unpack_neg x).symm, neg_le_of_neg_le hlo⟩
  have hplus : y.IsPlus := by
    rw [Float.IsPlus, ← hy]
    exact isPlus_abs (unpack_ne_of_isNaN (isNaN_of_le hhi).1)
  obtain ⟨p, hp, hpb⟩ := nonNegValue_of_le hplus.zero_le hyb hb
  exact ⟨p, by rw [Magnitude, hy]; exact hp, hpb⟩

theorem Magnitude.mul (hx : x.Magnitude p) (hy : y.Magnitude q) :
    RoundsFrom (x * y).toModel.unpack.abs (p * q) := by
  rw [unpack_mul]
  exact roundsFrom_abs_mul hx hy

theorem Magnitude.isNaN_mul (hx : x.Magnitude p) (hy : y.Magnitude q) : (x * y).isNaN = false := by
  rw [← Bool.not_eq_true, isNaN_iff]
  intro h
  exact (hx.mul hy).ne_notANumber (by rw [h]; rfl)

theorem Magnitude.isFinite_mul (hx : x.Magnitude p) (hy : y.Magnitude q)
    (hb : NonNegValue b.toModel.unpack β) (h : p * q ≤ β) : (x * y).isFinite = true := by
  change (x * y).toModel.unpack.isFinite = true
  rw [← isFinite_abs]
  exact (hx.mul hy).isFinite_of_le hb h

end Float
