import Mathlib
import XrDelivery.Bounds

/-!
# Adding a nonnegative double never goes back

Instants are doubles, and the pacer and the channel move them on by adding amounts that are
at least zero. This module proves that such a sum is never below where it started:
`a ≤ a + b` for every `a` above `-∞` and every `b` with `0 ≤ b`, where `≤` is the IEEE
comparison of `Float`.

The proof works on the logical model of `Float`, where a sum is the exact sum of the two
values rounded by `UnpackedFloat.round`. Values are counted in units of the least subnormal
`2^-1074` (`tinyUnits`), and a value is seen from the exponent rounding puts it at through its
whole units there (`floorAt`). Rounding never crosses a double: a value at or above a double
rounds to no less (`round_ge`), a value below one to no more (`round_le`). The comparison of
two doubles of one sign is lexicographic in exponent and mantissa, because the doubles that
unpacking gives are canonical (`canonical_of_unpack`).
-/

namespace Float.Model.UnpackedFloat

@[simp] theorem targetExponent_binary64 (t : Int) :
    Format.binary64.targetExponent t = max (t - 53) (-1074) := by
  simp [Format.targetExponent, Format.mantissaBits, Format.minExponent]

theorem least_le_targetExponent (t : Int) : -1074 ≤ Format.binary64.targetExponent t := by
  simp

/-- A finite double in the form `pack` takes: at most 53 mantissa bits, the top one set unless
the exponent is the least one. -/
def Canonical (m : Nat) (e : Int) : Prop :=
  m < 2 ^ 53 ∧ -1074 ≤ e ∧ (2 ^ 52 ≤ m ∨ e = -1074)

theorem targetExponent_of_canonical {m : Nat} {e : Int} (hm : 0 < m) (hc : Canonical m e) :
    Format.binary64.targetExponent (totalExponent m e) = e := by
  obtain ⟨hlt, hle, hnorm⟩ := hc
  have hlog : m.log2 < 53 := (Nat.log2_lt hm.ne').mpr hlt
  simp only [targetExponent_binary64, totalExponent]
  rcases hnorm with hn | rfl
  · have := (Nat.le_log2 hm.ne').mpr hn
    omega
  · omega

theorem canonical_of_unpack {x : Float.Model} {s : Sign} {m : Nat} {e : Int} {hm : 0 < m}
    (hx : x.unpack = .finite s m e hm) : Canonical m e ∧ e ≤ 971 := by
  unfold Float.Model.unpack UnpackedFloat.unpack at hx
  dsimp only at hx
  have hmant := (@unpackMantissa Format.binary64 x.toBits.toBitVec).isLt
  have hexp := (@unpackExponent Format.binary64 x.toBits.toBitVec).isLt
  split at hx
  · split at hx <;> cases hx
  · rename_i hninf
    split at hx
    · rename_i hzero
      split at hx
      · cases hx
      · cases hx
        change _ < 2 ^ 52 at hmant
        have he0 : (@unpackExponent Format.binary64 x.toBits.toBitVec).toNat = 0 := by
          rw [hzero]; rfl
        simp only [Format.exponentBias, he0]
        refine ⟨⟨by omega, by omega, Or.inr (by omega)⟩, by omega⟩
    · rename_i hnzero
      cases hx
      have he0 : (@unpackExponent Format.binary64 x.toBits.toBitVec).toNat ≠ 0 :=
        fun h => hnzero (BitVec.eq_of_toNat_eq h)
      have hemax : (@unpackExponent Format.binary64 x.toBits.toBitVec).toNat ≠ 2047 :=
        fun h => hninf (BitVec.eq_of_toNat_eq h)
      have hm : (1#1 ++ @unpackMantissa Format.binary64 x.toBits.toBitVec).toNat =
          2 ^ 52 + (@unpackMantissa Format.binary64 x.toBits.toBitVec).toNat := by
        rw [BitVec.toNat_append, ← Nat.shiftLeft_add_eq_or_of_lt hmant]
        rfl
      rw [hm]
      change _ < 2 ^ 52 at hmant
      change _ < 2 ^ 11 at hexp
      simp only [Format.exponentBias]
      refine ⟨⟨by omega, by omega, Or.inl (by omega)⟩, by omega⟩

/-- How `pack` writes a finite double: infinity past the greatest exponent, the biased exponent and
the mantissa without its top bit when normal, a zero exponent field when subnormal. -/
theorem pack_finite (s : Sign) (m : Nat) (e : Int) (hm : 0 < m) :
    UnpackedFloat.pack .binary64 (.finite s m e hm) =
      if 971 < e then packedInfinity .binary64 s
      else if m.log2 = 52 then
        packComponents .binary64 s (BitVec.ofNat 11 (e + 1075).toNat) (BitVec.ofNat 52 m)
      else packComponents .binary64 s 0#11 (BitVec.ofNat 52 m) := by
  have hbias : Format.binary64.exponentBias = 1023 := by decide
  have hover : 2 ^ Format.binary64.exponentBits ≤
      (e + ↑Format.binary64.exponentBias + ↑Format.binary64.mantissaBitsWithoutImplicit).toNat + 1
        ↔ 971 < e := by
    rw [hbias]; simp only; omega
  have hnorm : m.log2 + 1 = Format.binary64.mantissaBits ↔ m.log2 = 52 := by
    simp only [Format.mantissaBits]; omega
  unfold UnpackedFloat.pack
  dsimp only
  by_cases h : 971 < e
  · rw [if_pos h, if_pos (hover.mpr h)]
  · rw [if_neg h, if_neg (mt hover.mp h)]
    by_cases hl : m.log2 = 52
    · rw [if_pos hl, if_pos (hnorm.mpr hl), hbias]
      congr 2
      omega
    · rw [if_neg hl, if_neg (mt hnorm.mp hl)]

theorem unpack_pack_finite {s : Sign} {m : Nat} {e : Int} (hm : 0 < m) (hc : Canonical m e)
    (he : e ≤ 971) : (Float.Model.pack (.finite s m e hm)).unpack = .finite s m e hm := by
  obtain ⟨hlt, hle, hnorm⟩ := hc
  have hlog : m.log2 < 53 := (Nat.log2_lt hm.ne').mpr hlt
  unfold Float.Model.unpack Float.Model.pack
  simp only [pack_finite, if_neg (not_lt.mpr he)]
  by_cases hn : 2 ^ 52 ≤ m
  · have hlog' : m.log2 = 52 := by have := (Nat.le_log2 hm.ne').mpr hn; omega
    have hexp : (BitVec.ofNat 11 (e + 1075).toNat).toNat = (e + 1075).toNat := by
      rw [BitVec.toNat_ofNat, Nat.mod_eq_of_lt (by omega)]
    have hmant : (1#1 ++ BitVec.ofNat 52 m).toNat = m := by
      rw [BitVec.toNat_append, ← Nat.shiftLeft_add_eq_or_of_lt (BitVec.isLt _), BitVec.toNat_ofNat]
      simp only [Nat.shiftLeft_eq]
      norm_num
      omega
    have hne1 : BitVec.ofNat 11 (e + 1075).toNat ≠ -1#11 := by
      intro h; have := congrArg BitVec.toNat h; rw [hexp] at this; simp at this; omega
    have hne0 : BitVec.ofNat 11 (e + 1075).toNat ≠ 0#11 := by
      intro h; have := congrArg BitVec.toNat h; rw [hexp] at this; simp at this; omega
    unfold UnpackedFloat.unpack
    simp only [if_pos hlog', unpackExponent_packComponents, unpackMantissa_packComponents,
      unpackSign_packComponents, Sign.ofBitVec_toBitVec, hne1, hne0, if_false, hmant, hexp]
    congr 1
    simp only [Format.exponentBias]
    omega
  · have he' : e = -1074 := hnorm.resolve_left hn
    subst he'
    have hlog' : m.log2 < 52 := (Nat.log2_lt hm.ne').mpr (by omega)
    have hmant : (BitVec.ofNat 52 m).toNat = m := by
      rw [BitVec.toNat_ofNat, Nat.mod_eq_of_lt (by omega)]
    have hne0 : BitVec.ofNat 52 m ≠ 0#52 := by
      intro h; have := congrArg BitVec.toNat h; rw [hmant] at this; simp at this; omega
    unfold UnpackedFloat.unpack
    simp only [if_neg (show m.log2 ≠ 52 by omega), unpackExponent_packComponents,
      unpackMantissa_packComponents, unpackSign_packComponents, Sign.ofBitVec_toBitVec,
      show (0#11 : BitVec 11) ≠ -1#11 by decide, if_false, if_true, hne0, dite_false, hmant]
    rfl

theorem unpack_pack_finite_of_lt {s : Sign} {m : Nat} {e : Int} (hm : 0 < m) (he : 971 < e) :
    (Float.Model.pack (.finite s m e hm)).unpack = .infinity s := by
  unfold Float.Model.unpack Float.Model.pack
  simp only [pack_finite, if_pos he]
  unfold UnpackedFloat.unpack packedInfinity
  simp [unpackExponent_packComponents, unpackMantissa_packComponents]

theorem mantissa_shiftRight (em : ExtendedMantissa) (k : Nat) :
    (em >>> k).mantissa = em.mantissa / 2 ^ k := by
  induction k generalizing em with
  | zero => simp [HShiftRight.hShiftRight, Nat.repeat]
  | succ k ih =>
    change (ExtendedMantissa.shiftRightOne (em >>> k)).mantissa = _
    rw [ExtendedMantissa.shiftRightOne, ih, Nat.div_div_eq_div_mul, Nat.pow_succ]

theorem roundedMantissa_bounds (em : ExtendedMantissa) :
    em.mantissa ≤ em.roundedMantissa ∧ em.roundedMantissa ≤ em.mantissa + 1 := by
  obtain ⟨m, r, s⟩ := em
  cases r <;> cases s <;>
    simp [ExtendedMantissa.roundedMantissa, ExtendedMantissa.accuracy,
      Accuracy.roundToNearestEven]
  omega

/-- The whole units of `2 ^ t` in `m · 2 ^ e`. -/
def floorAt (m : Nat) (e t : Int) : Nat := m * 2 ^ (e - t).toNat / 2 ^ (t - e).toNat

theorem log2_shiftLeft {m : Nat} (hm : 0 < m) (k : Nat) : (m <<< k).log2 = m.log2 + k := by
  rw [Nat.shiftLeft_eq, Nat.log2_eq_iff (by positivity), Nat.pow_add, Nat.pow_succ, Nat.pow_add]
  have hlo := Nat.log2_self_le hm.ne'
  have hhi := Nat.lt_log2_self (n := m)
  rw [Nat.pow_succ] at hhi
  constructor
  · exact Nat.mul_le_mul_right _ hlo
  · calc m * 2 ^ k < 2 ^ m.log2 * 2 * 2 ^ k := Nat.mul_lt_mul_of_pos_right hhi (by positivity)
      _ = 2 ^ m.log2 * 2 ^ k * 2 := by ring

theorem floorAt_target {m : Nat} (hm : 0 < m) (e : Int) :
    let t := Format.binary64.targetExponent (totalExponent m e)
    floorAt m e t < 2 ^ 53 ∧ (2 ^ 52 ≤ floorAt m e t ∨ t = -1074) := by
  intro t
  have ht : t = max (m.log2 + 1 + e - 53) (-1074) := by simp [t, totalExponent]
  have hlo := Nat.log2_self_le hm.ne'
  have hhi := Nat.lt_log2_self (n := m)
  unfold floorAt
  constructor
  · rw [Nat.div_lt_iff_lt_mul (by positivity), ← Nat.pow_add]
    calc m * 2 ^ (e - t).toNat < 2 ^ (m.log2 + 1) * 2 ^ (e - t).toNat :=
          Nat.mul_lt_mul_of_pos_right hhi (by positivity)
      _ = 2 ^ (m.log2 + 1 + (e - t).toNat) := (Nat.pow_add _ _ _).symm
      _ ≤ 2 ^ (53 + (t - e).toNat) := Nat.pow_le_pow_right (by norm_num) (by omega)
  · by_cases hmin : t = -1074
    · exact Or.inr hmin
    · left
      rw [Nat.le_div_iff_mul_le (by positivity), ← Nat.pow_add]
      calc 2 ^ (52 + (t - e).toNat) ≤ 2 ^ (m.log2 + (e - t).toNat) :=
            Nat.pow_le_pow_right (by norm_num) (by omega)
        _ = 2 ^ m.log2 * 2 ^ (e - t).toNat := by rw [Nat.pow_add]
        _ ≤ m * 2 ^ (e - t).toNat := Nat.mul_le_mul_right _ hlo

theorem shiftToTargetExponent_of_lt {r : Nat} {e : Int} (hr : r < 2 ^ 53) (he : -1074 ≤ e) :
    shiftToTargetExponent .binary64 r e .exact = (⟨r, false, false⟩, e) := by
  have hlog : r.log2 < 53 := by
    rcases Nat.eq_zero_or_pos r with rfl | hpos
    · simp
    · exact (Nat.log2_lt hpos.ne').mpr hr
  have hs : (Format.binary64.targetExponent (totalExponent r e) - e).toNat = 0 := by
    simp only [targetExponent_binary64, totalExponent]; omega
  simp only [shiftToTargetExponent, shiftToExponent, hs, Nat.cast_zero, add_zero]
  rfl

theorem shiftToTargetExponent_carry {e : Int} (he : -1074 ≤ e) :
    shiftToTargetExponent .binary64 (2 ^ 53) e .exact = (⟨2 ^ 52, false, false⟩, e + 1) := by
  have hs : (Format.binary64.targetExponent (totalExponent (2 ^ 53) e) - e).toNat = 1 := by
    simp only [targetExponent_binary64, totalExponent, Nat.log2_two_pow]; omega
  simp only [shiftToTargetExponent, shiftToExponent, hs, Nat.cast_one]
  rfl

theorem shiftToTargetExponent_first {m : Nat} (hm : 0 < m) (e : Int) :
    let t := Format.binary64.targetExponent (totalExponent m e)
    let k := (e - t).toNat
    (shiftToTargetExponent .binary64 (m <<< k) (e - k) .exact).1.mantissa = floorAt m e t ∧
      (shiftToTargetExponent .binary64 (m <<< k) (e - k) .exact).2 = t := by
  intro t k
  have htot : totalExponent (m <<< k) (e - k) = totalExponent m e := by
    simp only [totalExponent, log2_shiftLeft hm]; push_cast; ring
  have ht : t = max (m.log2 + 1 + e - 53) (-1074) := by simp [t, totalExponent]
  unfold shiftToTargetExponent
  rw [htot]
  simp only [shiftToExponent, mantissa_shiftRight, ExtendedMantissa.ofMantissaAndAccuracy,
    floorAt, Nat.shiftLeft_eq]
  constructor
  · congr 2; omega
  · omega

/-- Rounding `m · 2^e` seen from its target exponent `t` and its whole units `floorAt m e t`: zero
without a unit, else that many units or one more at `t`, or `2^52` units at `t + 1` on a carry. -/
theorem round_cases (s : Sign) {m : Nat} (hm : 0 < m) (e : Int) {t : Int}
    (ht : t = Format.binary64.targetExponent (totalExponent m e)) :
    (UnpackedFloat.round .binary64 s m e = .zero s ∧ floorAt m e t = 0) ∨
      ∃ M E h, UnpackedFloat.round .binary64 s m e = .finite s M E h ∧ Canonical M E ∧
        ((E = t ∧ floorAt m e t ≤ M ∧ M ≤ floorAt m e t + 1) ∨
          (E = t + 1 ∧ M = 2 ^ 52 ∧ 2 ^ 53 ≤ floorAt m e t + 1)) := by
  obtain ⟨hq, hexp⟩ := shiftToTargetExponent_first hm e
  obtain ⟨hq53, hq52⟩ := floorAt_target hm e
  rw [← ht] at hq hexp hq53 hq52
  have htmin : -1074 ≤ t := ht ▸ least_le_targetExponent _
  unfold UnpackedFloat.round roundWithAccuracy decreaseExponent
  dsimp only
  rw [← ht]
  generalize shiftToTargetExponent .binary64 (m <<< (e - t).toNat) (e - (e - t).toNat) .exact
    = first at hq hexp ⊢
  obtain ⟨em, e₁⟩ := first
  dsimp only at hq hexp ⊢
  subst hexp
  have hb := roundedMantissa_bounds em
  rw [hq] at hb
  by_cases hsmall : em.roundedMantissa < 2 ^ 53
  · rw [shiftToTargetExponent_of_lt hsmall htmin]
    by_cases hz : em.roundedMantissa = 0
    · left
      simp only [hz, dite_true, true_and]
      omega
    · right
      refine ⟨em.roundedMantissa, e₁, Nat.pos_of_ne_zero hz, by simp [hz],
        ⟨hsmall, htmin, ?_⟩, Or.inl ⟨rfl, hb⟩⟩
      rcases hq52 with h | h
      · exact Or.inl (by omega)
      · exact Or.inr h
  · have hcarry : em.roundedMantissa = 2 ^ 53 := by omega
    rw [hcarry, shiftToTargetExponent_carry htmin]
    right
    refine ⟨2 ^ 52, e₁ + 1, by positivity, by simp, ⟨by norm_num, by omega, Or.inl le_rfl⟩,
      Or.inr ⟨rfl, rfl, by omega⟩⟩

/-- The value `m · 2^e` counted in units of the least subnormal `2^-1074` (for `-1074 ≤ e`). -/
def tinyUnits (m : Nat) (e : Int) : Nat := m * 2 ^ (e + 1074).toNat

theorem floorAt_bounds (m : Nat) {e t : Int} (he : -1074 ≤ e) (ht : -1074 ≤ t) :
    floorAt m e t * 2 ^ (t + 1074).toNat ≤ tinyUnits m e ∧
      tinyUnits m e < (floorAt m e t + 1) * 2 ^ (t + 1074).toNat := by
  unfold floorAt tinyUnits
  rcases le_or_gt t e with hte | hte
  · have hsplit : (e + 1074).toNat = (e - t).toNat + (t + 1074).toNat := by omega
    simp only [show (t - e).toNat = 0 by omega, pow_zero, Nat.div_one, hsplit, Nat.pow_add,
      ← Nat.mul_assoc]
    constructor
    · exact le_rfl
    · exact Nat.mul_lt_mul_of_pos_right (Nat.lt_succ_self _) (by positivity)
  · have hsplit : (t + 1074).toNat = (t - e).toNat + (e + 1074).toNat := by omega
    simp only [show (e - t).toNat = 0 by omega, pow_zero, Nat.mul_one, hsplit, Nat.pow_add,
      ← Nat.mul_assoc]
    have hd : 0 < 2 ^ (t - e).toNat := by positivity
    have h1 := Nat.div_mul_le_self m (2 ^ (t - e).toNat)
    have h2 := Nat.lt_div_mul_add hd (a := m)
    constructor
    · exact Nat.mul_le_mul_right _ h1
    · apply Nat.mul_lt_mul_of_pos_right _ (by positivity)
      rw [Nat.add_mul, Nat.one_mul]
      exact h2

theorem totalExponent_le_of_tinyUnits_le {m M : Nat} {e E : Int} (hm : 0 < m)
    (he : -1074 ≤ e) (hE : -1074 ≤ E) (hv : tinyUnits m e ≤ tinyUnits M E) :
    totalExponent m e ≤ totalExponent M E := by
  unfold tinyUnits at hv
  have hlo : 2 ^ (m.log2 + (e + 1074).toNat) ≤ m * 2 ^ (e + 1074).toNat := by
    rw [Nat.pow_add]; exact Nat.mul_le_mul_right _ (Nat.log2_self_le hm.ne')
  have hhi : M * 2 ^ (E + 1074).toNat < 2 ^ (M.log2 + 1 + (E + 1074).toNat) := by
    rw [Nat.pow_add]; exact Nat.mul_lt_mul_of_pos_right Nat.lt_log2_self (by positivity)
  have := (Nat.pow_lt_pow_iff_right (by norm_num : 1 < 2)).mp (lt_of_le_of_lt (hlo.trans hv) hhi)
  unfold totalExponent
  omega

/-- A larger value has a target exponent at least as large. -/
theorem targetExponent_le_of_tinyUnits_le {m M : Nat} {e E : Int} (hm : 0 < m)
    (he : -1074 ≤ e) (hE : -1074 ≤ E) (hv : tinyUnits m e ≤ tinyUnits M E) :
    Format.binary64.targetExponent (totalExponent m e) ≤
      Format.binary64.targetExponent (totalExponent M E) := by
  have := totalExponent_le_of_tinyUnits_le hm he hE hv
  simp only [targetExponent_binary64]
  omega

/-- Rounding a value at or above a canonical double never gives less than that double: it gives
a larger exponent, or the same exponent and at least its mantissa. -/
theorem round_ge (s : Sign) {m₁ M : Nat} {e₁ E : Int} (hm₁ : 0 < m₁) (hc : Canonical m₁ e₁)
    (hE : -1074 ≤ E) (hv : tinyUnits m₁ e₁ ≤ tinyUnits M E) :
    ∃ M' E' h, UnpackedFloat.round .binary64 s M E = .finite s M' E' h ∧ Canonical M' E' ∧
      (e₁ < E' ∨ e₁ = E' ∧ m₁ ≤ M') := by
  have hM : 0 < M := by
    rcases Nat.eq_zero_or_pos M with rfl | h
    · simp only [tinyUnits, Nat.zero_mul] at hv
      exact absurd hv (Nat.not_le.mpr (Nat.mul_pos hm₁ (by positivity)))
    · exact h
  set t := Format.binary64.targetExponent (totalExponent M E) with ht
  have hte : e₁ ≤ t := by
    rw [← targetExponent_of_canonical hm₁ hc]
    exact targetExponent_le_of_tinyUnits_le hm₁ hc.2.1 hE hv
  have htmin : -1074 ≤ t := ht ▸ least_le_targetExponent _
  obtain ⟨-, hup⟩ := floorAt_bounds M hE htmin
  have hunits : e₁ = t → m₁ ≤ floorAt M E t := by
    rintro rfl
    have := lt_of_le_of_lt hv hup
    exact Nat.lt_succ_iff.mp (Nat.lt_of_mul_lt_mul_right this)
  rcases round_cases s hM E ht with ⟨-, hq⟩ | ⟨M', E', h, hr, hcan, hcase⟩
  · exfalso
    obtain ⟨-, hq52⟩ := floorAt_target hM E
    rw [← ht, hq] at hq52
    have : e₁ = t := by have := hc.2.1; omega
    have := hunits this
    omega
  · refine ⟨M', E', h, hr, hcan, ?_⟩
    rcases hcase with ⟨rfl, hlo, -⟩ | ⟨rfl, -, -⟩
    · rcases lt_or_eq_of_le hte with hlt | heq
      · exact Or.inl hlt
      · exact Or.inr ⟨heq, (hunits heq).trans hlo⟩
    · exact Or.inl (by omega)

/-- Rounding never exceeds a canonical double at or above the target exponent `t` whose mantissa,
in units of `2^t`, exceeds the whole units of the value there. -/
theorem round_le_of_floorAt (s : Sign) {m₁ M : Nat} {e₁ E : Int} (hM : 0 < M)
    (hc : Canonical m₁ e₁) {t : Int} (ht : t = Format.binary64.targetExponent (totalExponent M E))
    (hte : t ≤ e₁) (hunits : floorAt M E t + 1 ≤ m₁ * 2 ^ (e₁ - t).toNat) :
    UnpackedFloat.round .binary64 s M E = .zero s ∨
      ∃ M' E' h, UnpackedFloat.round .binary64 s M E = .finite s M' E' h ∧ Canonical M' E' ∧
        (E' < e₁ ∨ E' = e₁ ∧ M' ≤ m₁) := by
  have htmin : -1074 ≤ t := ht ▸ least_le_targetExponent _
  rcases round_cases s hM E ht with ⟨hr, -⟩ | ⟨M', E', h, hr, hcan, hcase⟩
  · exact Or.inl hr
  · right
    refine ⟨M', E', h, hr, hcan, ?_⟩
    rcases hcase with ⟨rfl, -, hhi⟩ | ⟨rfl, rfl, hcarry⟩
    · rcases lt_or_eq_of_le hte with hlt | heq
      · exact Or.inl hlt
      · refine Or.inr ⟨heq, ?_⟩
        rw [← heq, sub_self, Int.toNat_zero, pow_zero, Nat.mul_one] at hunits
        omega
    · rcases lt_or_eq_of_le hte with hlt | heq
      · rcases lt_or_eq_of_le (show t + 1 ≤ e₁ by omega) with hlt' | heq'
        · exact Or.inl hlt'
        · have : 2 ^ 52 ≤ m₁ := hc.2.2.resolve_right (by omega)
          exact Or.inr ⟨heq', this⟩
      · exfalso
        rw [← heq, sub_self, Int.toNat_zero, pow_zero, Nat.mul_one] at hunits
        have := hc.1
        omega

/-- Rounding a value below a canonical double never gives more than that double: it gives
zero, a smaller exponent, or the same exponent and at most its mantissa. -/
theorem round_le (s : Sign) {m₁ M : Nat} {e₁ E : Int} (hM : 0 < M) (hc : Canonical m₁ e₁)
    (hE : -1074 ≤ E) (hv : tinyUnits M E < tinyUnits m₁ e₁) :
    UnpackedFloat.round .binary64 s M E = .zero s ∨
      ∃ M' E' h, UnpackedFloat.round .binary64 s M E = .finite s M' E' h ∧ Canonical M' E' ∧
        (E' < e₁ ∨ E' = e₁ ∧ M' ≤ m₁) := by
  have hm₁ : 0 < m₁ := by
    rcases Nat.eq_zero_or_pos m₁ with rfl | h
    · simp [tinyUnits] at hv
    · exact h
  set t := Format.binary64.targetExponent (totalExponent M E) with ht
  have hte : t ≤ e₁ := by
    rw [← targetExponent_of_canonical hm₁ hc]
    exact targetExponent_le_of_tinyUnits_le hM hE hc.2.1 hv.le
  have htmin : -1074 ≤ t := ht ▸ least_le_targetExponent _
  obtain ⟨hdown, -⟩ := floorAt_bounds M hE htmin
  have hunits : floorAt M E t + 1 ≤ m₁ * 2 ^ (e₁ - t).toNat := by
    have hsplit : (e₁ + 1074).toNat = (e₁ - t).toNat + (t + 1074).toNat := by
      have := hc.2.1; omega
    have := lt_of_le_of_lt hdown hv
    rw [tinyUnits, hsplit, Nat.pow_add, ← Nat.mul_assoc] at this
    exact Nat.lt_of_mul_lt_mul_right this
  exact round_le_of_floorAt s hM hc ht hte hunits

theorem le_finite_positive {m₁ m₂ : Nat} {e₁ e₂ : Int} {h₁ : 0 < m₁} {h₂ : 0 < m₂} :
    (finite .positive m₁ e₁ h₁).le (finite .positive m₂ e₂ h₂) = true ↔
      e₁ < e₂ ∨ e₁ = e₂ ∧ m₁ ≤ m₂ := by
  simp only [UnpackedFloat.le, UnpackedFloat.compare, Option.any_some]
  rcases lt_trichotomy e₁ e₂ with h | rfl | h
  · simp [Int.compare_eq_lt.mpr h, h]
  · simp only [Int.compare_eq_eq.mpr rfl, Ordering.eq_then, lt_irrefl, true_and, false_or]
    exact Nat.isLE_compare
  · simp [Int.compare_eq_gt.mpr h, h.ne', not_lt.mpr h.le]

theorem le_finite_negative {m₁ m₂ : Nat} {e₁ e₂ : Int} {h₁ : 0 < m₁} {h₂ : 0 < m₂} :
    (finite .negative m₁ e₁ h₁).le (finite .negative m₂ e₂ h₂) = true ↔
      e₂ < e₁ ∨ e₁ = e₂ ∧ m₂ ≤ m₁ := by
  simp only [UnpackedFloat.le, UnpackedFloat.compare, Option.any_some]
  rcases lt_trichotomy e₁ e₂ with h | rfl | h
  · simp [Int.compare_eq_lt.mpr h, h.ne, not_lt.mpr h.le]
  · simp only [Int.compare_eq_eq.mpr rfl, Ordering.eq_then, Ordering.isLE_swap, lt_irrefl,
      true_and, false_or]
    exact Nat.isGE_compare
  · simp [Int.compare_eq_gt.mpr h, h]

/-! A signed exact result is rounded with its sign; an exact zero is the zero it is given. -/

theorem normalize_of_pos {spec : Format} {m : Int} (e : Int) (z : Sign) (h : 0 < m) :
    normalize spec m e z = UnpackedFloat.round spec .positive m.toNat e := by
  simp [normalize, Int.compare_eq_gt.mpr h]

theorem normalize_of_neg {spec : Format} {m : Int} (e : Int) (z : Sign) (h : m < 0) :
    normalize spec m e z = UnpackedFloat.round spec .negative (-m).toNat e := by
  simp [normalize, Int.compare_eq_lt.mpr h]

theorem normalize_zero {spec : Format} (e : Int) (z : Sign) :
    normalize spec 0 e z = .zero z := by
  simp [normalize]

end Float.Model.UnpackedFloat

namespace Float.Model
open UnpackedFloat

theorem pack_unpack (x : Float.Model) : pack x.unpack = x := by
  obtain ⟨b, hb⟩ := x
  simp only [pack, unpack]
  congr 1
  simp [UnpackedFloat.pack_unpack_of_valid hb]

@[simp] theorem unpack_pack_zero (s : Sign) : (pack (.zero s)).unpack = .zero s := by
  simp [pack, unpack, UnpackedFloat.pack]

@[simp] theorem unpack_pack_infinity (s : Sign) : (pack (.infinity s)).unpack = .infinity s := by
  simp only [pack, unpack, UnpackedFloat.pack, UInt64.toBitVec_ofBitVec]
  unfold UnpackedFloat.unpack packedInfinity
  simp [unpackExponent_packComponents, unpackMantissa_packComponents]

end Float.Model

namespace Float.Model.UnpackedFloat

/-- Packing a canonical finite double and unpacking it gives it back, or the infinity of its
sign past the greatest exponent. -/
theorem unpack_pack_finite_cases {s : Sign} {m : Nat} {e : Int} (hm : 0 < m)
    (hc : Canonical m e) :
    (Float.Model.pack (.finite s m e hm)).unpack = .finite s m e hm ∧ e ≤ 971 ∨
      (Float.Model.pack (.finite s m e hm)).unpack = .infinity s := by
  by_cases he : e ≤ 971
  · exact Or.inl ⟨unpack_pack_finite hm hc he, he⟩
  · exact Or.inr (unpack_pack_finite_of_lt hm (not_le.mp he))

theorem tinyUnits_shiftLeft (m : Nat) {e t : Int} (hte : t ≤ e) (ht : -1074 ≤ t) :
    tinyUnits (m <<< (e - t).toNat) t = tinyUnits m e := by
  have hsplit : (e + 1074).toNat = (e - t).toNat + (t + 1074).toNat := by omega
  rw [tinyUnits, tinyUnits, Nat.shiftLeft_eq, hsplit, Nat.pow_add, Nat.mul_assoc]

theorem tinyUnits_pos {m : Nat} (hm : 0 < m) (e : Int) : 0 < tinyUnits m e :=
  Nat.mul_pos hm (by positivity)

theorem tinyUnits_add (m n : Nat) (e : Int) :
    tinyUnits (m + n) e = tinyUnits m e + tinyUnits n e := Nat.add_mul _ _ _

theorem tinyUnits_sub (m n : Nat) (e : Int) :
    tinyUnits (m - n) e = tinyUnits m e - tinyUnits n e := Nat.sub_mul _ _ _

/-- The sum of two finite doubles: both mantissas brought to the smaller exponent, added with
their signs and rounded. -/
theorem add_finite (s₁ s₂ : Sign) {m₁ m₂ : Nat} {e₁ e₂ : Int} (h₁ : 0 < m₁) (h₂ : 0 < m₂) :
    (finite s₁ m₁ e₁ h₁).add .binary64 (finite s₂ m₂ e₂ h₂) =
      normalize .binary64 (s₁.apply ↑(m₁ <<< (e₁ - min e₁ e₂).toNat) +
        s₂.apply ↑(m₂ <<< (e₂ - min e₁ e₂).toNat)) (min e₁ e₂) .positive := rfl

/-- The difference of two finite doubles: both mantissas brought to the smaller exponent,
subtracted with their signs and rounded. -/
theorem sub_finite (s₁ s₂ : Sign) {m₁ m₂ : Nat} {e₁ e₂ : Int} (h₁ : 0 < m₁) (h₂ : 0 < m₂) :
    (finite s₁ m₁ e₁ h₁).sub .binary64 (finite s₂ m₂ e₂ h₂) =
      normalize .binary64 (s₁.apply ↑(m₁ <<< (e₁ - min e₁ e₂).toNat) -
        s₂.apply ↑(m₂ <<< (e₂ - min e₁ e₂).toNat)) (min e₁ e₂) .positive := rfl

/-- A nonnegative finite double added to a finite double gives no less than the latter. -/
theorem le_add_finite_positive (s₁ : Sign) {m₁ m₂ : Nat} {e₁ e₂ : Int} (h₁ : 0 < m₁)
    (h₂ : 0 < m₂) (hc₁ : Canonical m₁ e₁) (hc₂ : Canonical m₂ e₂) (he₁ : e₁ ≤ 971) :
    (finite s₁ m₁ e₁ h₁).le
      (Float.Model.pack ((finite s₁ m₁ e₁ h₁).add .binary64 (finite .positive m₂ e₂ h₂))).unpack
      = true := by
  have htmin : -1074 ≤ min e₁ e₂ := le_min hc₁.2.1 hc₂.2.1
  have hua := tinyUnits_shiftLeft m₁ (min_le_left _ _) htmin
  have hub := tinyUnits_shiftLeft m₂ (min_le_right _ _) htmin
  rw [add_finite]
  generalize min e₁ e₂ = t at htmin hua hub ⊢
  generalize m₁ <<< (e₁ - t).toNat = a at hua ⊢
  generalize m₂ <<< (e₂ - t).toNat = b at hub ⊢
  have hb : 0 < b := by
    rcases Nat.eq_zero_or_pos b with rfl | hb
    · simp only [tinyUnits, Nat.zero_mul] at hub
      exact absurd hub.symm (tinyUnits_pos h₂ e₂).ne'
    · exact hb
  have hbt : 0 < tinyUnits b t := hub ▸ tinyUnits_pos h₂ e₂
  cases s₁ with
  | positive =>
    have hpos : (0 : Int) < Sign.apply .positive ↑a + Sign.apply .positive ↑b := by
      simp only [Sign.apply]; omega
    have hv : tinyUnits m₁ e₁ ≤
        tinyUnits (Sign.apply .positive ↑a + Sign.apply .positive (b : Int)).toNat t := by
      simp only [Sign.apply]
      rw [show ((a : Int) + b).toNat = a + b by omega, tinyUnits_add, hua]
      exact Nat.le_add_right _ _
    obtain ⟨M, E, h, hr, hc, hord⟩ := round_ge .positive h₁ hc₁ htmin hv
    rw [normalize_of_pos t .positive hpos, hr]
    rcases unpack_pack_finite_cases (s := .positive) h hc with ⟨hback, -⟩ | hinf
    · rw [hback]
      exact le_finite_positive.mpr (hord.imp_right fun ⟨he, hm⟩ => ⟨he, hm⟩)
    · rw [hinf]
      rfl
  | negative =>
    rcases lt_trichotomy b a with hlt | rfl | hgt
    · have hneg : Sign.apply .negative ↑a + Sign.apply .positive (b : Int) < 0 := by
        simp only [Sign.apply]; omega
      have hM : 0 < (-(Sign.apply .negative ↑a + Sign.apply .positive (b : Int))).toNat := by
        simp only [Sign.apply]; omega
      have hv : tinyUnits (-(Sign.apply .negative ↑a + Sign.apply .positive (b : Int))).toNat t <
          tinyUnits m₁ e₁ := by
        simp only [Sign.apply]
        rw [show (-(-(a : Int) + b)).toNat = a - b by omega, tinyUnits_sub, ← hua]
        have : tinyUnits b t ≤ tinyUnits a t := Nat.mul_le_mul_right _ hlt.le
        omega
      rw [normalize_of_neg t .positive hneg]
      rcases round_le .negative hM hc₁ htmin hv with hr | ⟨M, E, h, hr, hc, hord⟩
      · rw [hr, Float.Model.unpack_pack_zero]
        rfl
      · have hE : E ≤ 971 := by omega
        rw [hr, unpack_pack_finite h hc hE]
        exact le_finite_negative.mpr (hord.imp_right fun ⟨he, hm⟩ => ⟨he.symm, hm⟩)
    · rw [show Sign.apply .negative (b : Int) + Sign.apply .positive ↑b = 0 by simp [Sign.apply],
        normalize_zero, Float.Model.unpack_pack_zero]
      rfl
    · have hpos : 0 < Sign.apply .negative ↑a + Sign.apply .positive (b : Int) := by
        simp only [Sign.apply]; omega
      rw [normalize_of_pos t .positive hpos]
      rcases round_cases .positive (Int.lt_toNat.mpr hpos) t rfl with ⟨hr, -⟩ |
          ⟨M, E, h, hr, hc, -⟩
      · rw [hr, Float.Model.unpack_pack_zero]
        rfl
      · rw [hr]
        rcases unpack_pack_finite_cases (s := .positive) h hc with ⟨hback, -⟩ | hinf
        · rw [hback]; rfl
        · rw [hinf]; rfl

end Float.Model.UnpackedFloat

namespace Float.Model
open UnpackedFloat

@[simp] theorem unpack_pack_notANumber : (pack .notANumber).unpack = .notANumber := by
  simp [pack, unpack, UnpackedFloat.pack]

theorem le_infinity_positive {x : UnpackedFloat} (hx : x ≠ .notANumber) :
    x.le (.infinity .positive) = true := by
  cases x with
  | notANumber => exact absurd rfl hx
  | infinity s => cases s <;> rfl
  | zero s => rfl
  | finite s m e h => rfl

theorem finite_le_self (s : Sign) (m : Nat) (e : Int) (h : 0 < m) :
    (finite s m e h).le (finite s m e h) = true := by
  cases s with
  | positive => exact le_finite_positive.mpr (Or.inr ⟨rfl, le_rfl⟩)
  | negative => exact le_finite_negative.mpr (Or.inr ⟨rfl, le_rfl⟩)

theorem le_add_of_nonneg {a b : Float.Model} (ha : a.unpack ≠ .notANumber)
    (ha' : a.unpack ≠ .infinity .negative) (hb : (zero .positive).le b.unpack = true) :
    a.le (a + b) = true := by
  change a.unpack.le (pack (a.unpack.add .binary64 b.unpack)).unpack = true
  have hself : (pack a.unpack).unpack = a.unpack := by rw [pack_unpack]
  cases hy : b.unpack with
  | notANumber => rw [hy] at hb; cases hb
  | infinity s₂ =>
    cases s₂ with
    | negative => rw [hy] at hb; cases hb
    | positive =>
      have : a.unpack.add .binary64 (.infinity .positive) = .infinity .positive := by
        cases hx : a.unpack with
        | infinity s₁ => cases s₁ <;> first | rfl | exact absurd hx ha'
        | notANumber => exact absurd hx ha
        | zero s₁ => rfl
        | finite s₁ m₁ e₁ h₁ => rfl
      rw [this, unpack_pack_infinity]
      exact le_infinity_positive ha
  | zero s₂ =>
    cases hx : a.unpack with
    | notANumber => exact absurd hx ha
    | infinity s₁ =>
      cases s₁ with
      | negative => exact absurd hx ha'
      | positive =>
        rw [show (infinity .positive).add .binary64 (zero s₂) = infinity .positive from rfl,
          unpack_pack_infinity]
        rfl
    | zero s₁ => simp only [UnpackedFloat.add]; split <;> simp <;> rfl
    | finite s₁ m₁ e₁ h₁ =>
      rw [show (finite s₁ m₁ e₁ h₁).add .binary64 (zero s₂) = finite s₁ m₁ e₁ h₁ from rfl,
        ← hx, hself, hx]
      exact finite_le_self s₁ m₁ e₁ h₁
  | finite s₂ m₂ e₂ h₂ =>
    cases s₂ with
    | negative => rw [hy] at hb; cases hb
    | positive =>
      obtain ⟨hc₂, -⟩ := canonical_of_unpack hy
      cases hx : a.unpack with
      | notANumber => exact absurd hx ha
      | infinity s₁ =>
        cases s₁ with
        | negative => exact absurd hx ha'
        | positive =>
          rw [show (infinity .positive).add .binary64 (finite .positive m₂ e₂ h₂) =
            infinity .positive from rfl, unpack_pack_infinity]
          rfl
      | zero s₁ =>
        rw [show (zero s₁).add .binary64 (finite .positive m₂ e₂ h₂) = finite .positive m₂ e₂ h₂
          from rfl, unpack_pack_finite h₂ hc₂ (canonical_of_unpack hy).2]
        rfl
      | finite s₁ m₁ e₁ h₁ =>
        obtain ⟨hc₁, he₁⟩ := canonical_of_unpack hx
        exact le_add_finite_positive s₁ h₁ h₂ hc₁ hc₂ he₁

end Float.Model

namespace Float
open Float.Model

theorem le_iff_unpack {a b : Float} : a ≤ b ↔ a.toModel.unpack.le b.toModel.unpack = true := by
  show a.le b = true ↔ _
  simp only [Float.le, decide_eq_true_eq]
  rfl

theorem lt_iff_unpack {a b : Float} :
    a < b ↔ a.toModel.unpack.compare b.toModel.unpack = some .lt := by
  show a.lt b = true ↔ _
  simp only [Float.lt, decide_eq_true_eq]
  show (a.toModel.unpack.compare b.toModel.unpack == some .lt) = true ↔ _
  simp

theorem le_of_lt {a b : Float} (h : a < b) : a ≤ b := by
  rw [lt_iff_unpack] at h
  rw [le_iff_unpack, UnpackedFloat.le, h]
  rfl

theorem unpack_of_neg_inf_lt {a : Float} (ha : -Float.inf < a) :
    a.toModel.unpack ≠ .notANumber ∧ a.toModel.unpack ≠ .infinity .negative := by
  rw [lt_iff_unpack] at ha
  constructor <;> intro h <;> rw [h] at ha <;> cases ha

theorem neg_inf_lt_of_isFinite {a : Float} (ha : a.isFinite = true) : -Float.inf < a := by
  rw [lt_iff_unpack]
  change a.toModel.unpack.isFinite = true at ha
  cases h : a.toModel.unpack with
  | notANumber => rw [h] at ha; cases ha
  | infinity s => rw [h] at ha; cases ha
  | zero s => rfl
  | finite s m e hm => cases s <;> rfl

theorem neg_inf_lt_of_nonneg {a : Float} (ha : 0 ≤ a) : -Float.inf < a := by
  rw [le_iff_unpack] at ha
  rw [lt_iff_unpack]
  cases h : a.toModel.unpack with
  | notANumber => rw [h] at ha; cases ha
  | infinity s => cases s <;> first | rfl | (rw [h] at ha; cases ha)
  | zero s => rfl
  | finite s m e hm => cases s <;> rfl

theorem le_add_of_nonneg {a b : Float} (ha : -Float.inf < a) (hb : 0 ≤ b) : a ≤ a + b := by
  obtain ⟨hnan, hinf⟩ := unpack_of_neg_inf_lt ha
  rw [le_iff_unpack] at hb ⊢
  exact Float.Model.le_add_of_nonneg hnan hinf hb

end Float

namespace XrDelivery

theorem zero_le_atLeast (x : Float) : 0 ≤ atLeast 0.0 x := by
  unfold atLeast
  split
  · rename_i h
    exact Float.le_of_lt h
  · rw [Float.le_iff_unpack]
    rfl

end XrDelivery
