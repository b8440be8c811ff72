import Mathlib
import XrDelivery.Proofs.DoubleValues

/-!
# Rounding to nearest is monotone

Every operation on doubles computes a mantissa with a round bit and a sticky bit, which say
where the exact result lies between that mantissa and the next (`Represents`), and rounds it to
the nearest integer, ties to even (`roundEven`). Shifting right halves the exact value and keeps
what the bits say (`Represents.shiftRight`), so rounding at the target exponent `t` gives the
exact value over `2^t` rounded to nearest: the double `nearest v t` (`roundWithAccuracy_eq`,
`round_eq`).

A larger exact value has a target exponent at least as large (`TargetOf.le`), and at one exponent
it rounds to at least as many units, so rounding to nearest never reverses an order
(`TargetOf.nearest_le`), and neither does packing (`Rounded.pack_le`). Sums, quotients and
conversions of naturals are roundings of their exact values (`RoundsFrom`), so doubles computed
from ordered exact values are ordered (`Float.le_of_roundsFrom`). Less than half a unit added to
a double rounds back to it (`Float.unpack_add_of_lt_half`).
-/

namespace Float.Model.UnpackedFloat

/-- The integer nearest to `x`, the even one of two as near. -/
def roundEven (x : ℚ) : ℤ :=
  if x - ⌊x⌋ < 1 / 2 then ⌊x⌋
  else if 1 / 2 < x - ⌊x⌋ then ⌊x⌋ + 1
  else ⌊x⌋ + ⌊x⌋ % 2

theorem roundEven_bounds (x : ℚ) : ⌊x⌋ ≤ roundEven x ∧ roundEven x ≤ ⌊x⌋ + 1 := by
  have h0 := Int.emod_nonneg ⌊x⌋ (by norm_num : (2 : ℤ) ≠ 0)
  have h1 := Int.emod_lt_of_pos ⌊x⌋ (by norm_num : (0 : ℤ) < 2)
  unfold roundEven
  split_ifs <;> omega

theorem roundEven_mono {x y : ℚ} (h : x ≤ y) : roundEven x ≤ roundEven y := by
  rcases lt_or_eq_of_le (Int.floor_mono h) with hlt | heq
  · have := (roundEven_bounds x).2
    have := (roundEven_bounds y).1
    omega
  · have hfrac : x - ⌊x⌋ ≤ y - ⌊y⌋ := by rw [heq]; linarith
    have h0 := Int.emod_nonneg ⌊y⌋ (by norm_num : (2 : ℤ) ≠ 0)
    have h1 := Int.emod_lt_of_pos ⌊y⌋ (by norm_num : (0 : ℤ) < 2)
    unfold roundEven
    rw [heq]
    split_ifs <;> first | omega | linarith

/-- An extended mantissa of `x` in units of its last bit: the whole part, a round bit for a rest of
at least a half, and a sticky bit for a rest neither zero nor a half. -/
def Represents (em : ExtendedMantissa) (x : ℚ) : Prop :=
  if em.roundBit then
    if em.stickyBit then (em.mantissa : ℚ) + 1 / 2 < x ∧ x < em.mantissa + 1
    else x = em.mantissa + 1 / 2
  else
    if em.stickyBit then (em.mantissa : ℚ) < x ∧ x < em.mantissa + 1 / 2
    else x = em.mantissa

theorem represents_exact (m : Nat) :
    Represents (ExtendedMantissa.ofMantissaAndAccuracy m .exact) m := by
  simp [Represents, ExtendedMantissa.ofMantissaAndAccuracy]

theorem represents_fraction (M d : Nat) (hd : 0 < d) :
    Represents (ExtendedMantissa.ofMantissaAndAccuracy (M / d) (accuracyOfFraction (M % d) d))
      ((M : ℚ) / d) := by
  have hsplit : (M : ℚ) / d = (M / d : Nat) + ((M % d : Nat) : ℚ) / d := by
    have hdq : (d : ℚ) ≠ 0 := by positivity
    field_simp
    exact_mod_cast (Nat.div_add_mod M d).symm
  have hr := Nat.mod_lt M hd
  have hdq : (0 : ℚ) < d := by exact_mod_cast hd
  rw [hsplit]
  unfold accuracyOfFraction
  split_ifs with h0
  · simp [Represents, ExtendedMantissa.ofMantissaAndAccuracy, h0]
  · have hpos : (0 : ℚ) < ((M % d : Nat) : ℚ) / d := by
      apply div_pos _ hdq; exact_mod_cast Nat.pos_of_ne_zero h0
    have hlt : ((M % d : Nat) : ℚ) / d < 1 := by
      rw [div_lt_one hdq]; exact_mod_cast hr
    rcases Nat.lt_trichotomy (2 * (M % d)) d with h | h | h
    · have hc : compare (2 * (M % d)) d = .lt := Nat.compare_eq_lt.mpr h
      have : ((M % d : Nat) : ℚ) / d < 1 / 2 := by
        rw [div_lt_div_iff₀ hdq (by norm_num)]; exact_mod_cast (by omega : (M % d) * 2 < 1 * d)
      simp [Represents, ExtendedMantissa.ofMantissaAndAccuracy, hc]
      constructor <;> linarith
    · have hc : compare (2 * (M % d)) d = .eq := Nat.compare_eq_eq.mpr h
      have : ((M % d : Nat) : ℚ) / d = 1 / 2 := by
        rw [div_eq_div_iff (by positivity) (by norm_num)]; exact_mod_cast (by omega : (M % d) * 2 = 1 * d)
      simp [Represents, ExtendedMantissa.ofMantissaAndAccuracy, hc, this]
    · have hc : compare (2 * (M % d)) d = .gt := Nat.compare_eq_gt.mpr h
      have : 1 / 2 < ((M % d : Nat) : ℚ) / d := by
        rw [div_lt_div_iff₀ (by norm_num) hdq]; exact_mod_cast (by omega : 1 * d < (M % d) * 2)
      simp [Represents, ExtendedMantissa.ofMantissaAndAccuracy, hc]
      constructor <;> linarith

theorem Represents.floor {em : ExtendedMantissa} {x : ℚ} (h : Represents em x) :
    ⌊x⌋ = (em.mantissa : ℤ) := by
  apply Int.floor_eq_iff.mpr
  obtain ⟨m, r, s⟩ := em
  cases r <;> cases s <;> simp only [Represents, Bool.false_eq_true, if_true, if_false] at h <;>
    push_cast <;> constructor <;> linarith

theorem Represents.roundedMantissa {em : ExtendedMantissa} {x : ℚ} (h : Represents em x) :
    (em.roundedMantissa : ℤ) = roundEven x := by
  have hf := h.floor
  unfold roundEven
  rw [hf]
  obtain ⟨m, r, s⟩ := em
  cases r <;> cases s <;>
    simp only [Represents, Bool.false_eq_true, if_false, if_true, ExtendedMantissa.roundedMantissa,
      ExtendedMantissa.accuracy, Accuracy.roundToNearestEven] at h ⊢
  all_goals push_cast
  all_goals split_ifs <;> first | omega | linarith

theorem Represents.shiftRightOne {em : ExtendedMantissa} {x : ℚ} (h : Represents em x) :
    Represents em.shiftRightOne (x / 2) := by
  obtain ⟨m, r, s⟩ := em
  have hm := Nat.mod_add_div m 2
  have hc : ((m % 2 : Nat) : ℚ) + 2 * ((m / 2 : Nat) : ℚ) = (m : ℚ) := by exact_mod_cast hm
  rcases Nat.mod_two_eq_zero_or_one m with hr | hr <;>
    cases r <;> cases s <;>
    simp_all [Represents, ExtendedMantissa.shiftRightOne] <;>
    (try constructor) <;> linarith

theorem Represents.shiftRight {em : ExtendedMantissa} {x : ℚ} (h : Represents em x) (n : Nat) :
    Represents (em >>> n) (x / 2 ^ n) := by
  change Represents (n.repeat ExtendedMantissa.shiftRightOne em) _
  induction n with
  | zero => simpa [Nat.repeat] using h
  | succ n ih =>
    rw [Nat.repeat, pow_succ, ← div_div]
    exact ih.shiftRightOne

/-- `q` units of `2^t`, for `q ≤ 2^53`, as rounding leaves them: zero, the double `q · 2^t`, or,
when the units carry out of 53 bits, `2^52` units of `2^(t + 1)`. -/
def unitsAt (q : Nat) (t : Int) : UnpackedFloat :=
  if h : q = 0 then .zero .positive
  else if q < 2 ^ 53 then .finite .positive q t (Nat.pos_of_ne_zero h)
  else .finite .positive (2 ^ 52) (t + 1) (by positivity)

theorem unitsAt_of_lt {q : Nat} (h0 : 0 < q) (h : q < 2 ^ 53) (t : Int) :
    unitsAt q t = .finite .positive q t h0 := by
  simp only [unitsAt, Nat.pos_iff_ne_zero.mp h0, dite_false, if_pos h]

theorem unitsAt_carry (t : Int) :
    unitsAt (2 ^ 53) t = .finite .positive (2 ^ 52) (t + 1) (by positivity) := by
  simp [unitsAt]

theorem zero_le_unitsAt (s : Sign) (q : Nat) (t : Int) : (zero s).le (unitsAt q t) = true := by
  unfold unitsAt
  split_ifs <;> rfl

theorem unitsAt_le_unitsAt {q₁ q₂ : Nat} (h : q₁ ≤ q₂) (h₂ : q₂ ≤ 2 ^ 53) (t : Int) :
    (unitsAt q₁ t).le (unitsAt q₂ t) = true := by
  rcases Nat.eq_zero_or_pos q₁ with rfl | h₁
  · exact zero_le_unitsAt _ _ _
  rcases Nat.lt_or_ge q₂ (2 ^ 53) with hlt₂ | hge₂
  · rw [unitsAt_of_lt h₁ (by omega), unitsAt_of_lt (by omega) hlt₂]
    exact le_finite_positive.mpr (Or.inr ⟨rfl, h⟩)
  · rw [show q₂ = 2 ^ 53 by omega, unitsAt_carry]
    rcases Nat.lt_or_ge q₁ (2 ^ 53) with hlt₁ | hge₁
    · rw [unitsAt_of_lt h₁ hlt₁]
      exact le_finite_positive.mpr (Or.inl (by omega))
    · rw [show q₁ = 2 ^ 53 by omega, unitsAt_carry]
      exact finite_le_self _ _ _ _

theorem unitsAt_le_unitsAt_of_lt {q₁ q₂ : Nat} {t₁ t₂ : Int} (ht : t₁ < t₂) (h₁ : q₁ ≤ 2 ^ 53)
    (h₂ : 2 ^ 52 ≤ q₂) (h₂' : q₂ ≤ 2 ^ 53) : (unitsAt q₁ t₁).le (unitsAt q₂ t₂) = true := by
  have hy : ∃ m e h, unitsAt q₂ t₂ = .finite .positive m e h ∧ t₂ ≤ e ∧ 2 ^ 52 ≤ m := by
    rcases Nat.lt_or_ge q₂ (2 ^ 53) with hlt | hge
    · exact ⟨q₂, t₂, by omega, unitsAt_of_lt (by omega) hlt t₂, le_rfl, h₂⟩
    · exact ⟨2 ^ 52, t₂ + 1, by positivity, by rw [show q₂ = 2 ^ 53 by omega, unitsAt_carry],
        by omega, le_rfl⟩
  obtain ⟨m, e, hm, hq₂, he, hnorm⟩ := hy
  rcases Nat.eq_zero_or_pos q₁ with rfl | hpos
  · exact zero_le_unitsAt _ _ _
  rw [hq₂]
  rcases Nat.lt_or_ge q₁ (2 ^ 53) with hlt₁ | hge₁
  · rw [unitsAt_of_lt hpos hlt₁]
    exact le_finite_positive.mpr (Or.inl (by omega))
  · -- a carry lands at `t₁ + 1 ≤ t₂` with the least normal mantissa
    rw [show q₁ = 2 ^ 53 by omega, unitsAt_carry]
    rcases (show t₁ + 1 ≤ e by omega).lt_or_eq with hlt | heq
    · exact le_finite_positive.mpr (Or.inl hlt)
    · exact le_finite_positive.mpr (Or.inr ⟨heq, hnorm⟩)

/-- `t` is the exponent a positive exact value `v` is rounded at: the least exponent, or the one
that leaves `v` 53 bits. -/
structure TargetOf (v : ℚ) (t : Int) : Prop where
  least : -1074 ≤ t
  lt : v < 2 ^ (t + 53)
  normal : 2 ^ (t + 52) ≤ v ∨ t = -1074

/-- The double nearest to the exact value `v`, rounded at the exponent `t`. -/
def nearest (v : ℚ) (t : Int) : UnpackedFloat := unitsAt (roundEven (v / 2 ^ t)).toNat t

namespace TargetOf

variable {v v₁ v₂ : ℚ} {t t₁ t₂ : Int}

theorem units_le (h : TargetOf v t) : roundEven (v / 2 ^ t) ≤ 2 ^ 53 := by
  have hlt : v / 2 ^ t < 2 ^ 53 := by
    rw [div_lt_iff₀ (zpow_pos two_pos t), ← zpow_natCast, ← zpow_add₀ two_ne_zero, add_comm]
    exact_mod_cast h.lt
  have hfl : ⌊v / 2 ^ t⌋ < 2 ^ 53 := Int.floor_lt.mpr (by exact_mod_cast hlt)
  have := (roundEven_bounds (v / 2 ^ t)).2
  omega

theorem units_normal (h : TargetOf v t) : 2 ^ 52 ≤ roundEven (v / 2 ^ t) ∨ t = -1074 := by
  refine h.normal.imp (fun hn => ?_) id
  have hle : (2 : ℚ) ^ 52 ≤ v / 2 ^ t := by
    rw [le_div_iff₀ (zpow_pos two_pos t), ← zpow_natCast, ← zpow_add₀ two_ne_zero, add_comm]
    exact_mod_cast hn
  have hfl : 2 ^ 52 ≤ ⌊v / 2 ^ t⌋ := Int.le_floor.mpr (by exact_mod_cast hle)
  have := (roundEven_bounds (v / 2 ^ t)).1
  omega

theorem le (h₁ : TargetOf v₁ t₁) (h₂ : TargetOf v₂ t₂) (hv : v₁ ≤ v₂) : t₁ ≤ t₂ := by
  by_contra hlt
  have hn : 2 ^ (t₁ + 52) ≤ v₁ := h₁.normal.resolve_right (by have := h₂.least; omega)
  have : (2 : ℚ) ^ (t₂ + 53) ≤ 2 ^ (t₁ + 52) := zpow_le_zpow_right₀ one_le_two (by omega)
  linarith [h₂.lt]

theorem unique (h₁ : TargetOf v t₁) (h₂ : TargetOf v t₂) : t₁ = t₂ :=
  le_antisymm (h₁.le h₂ le_rfl) (h₂.le h₁ le_rfl)

theorem nearest_le (h₁ : TargetOf v₁ t₁) (h₂ : TargetOf v₂ t₂) (hv : v₁ ≤ v₂) :
    (nearest v₁ t₁).le (nearest v₂ t₂) = true := by
  have hq₁ := h₁.units_le
  have hq₂ := h₂.units_le
  rcases (h₁.le h₂ hv).lt_or_eq with hlt | rfl
  · have hn := h₂.units_normal.resolve_right (by have := h₁.least; omega)
    exact unitsAt_le_unitsAt_of_lt hlt (by omega) (by omega) (by omega)
  · -- at one exponent the values over `2^t` are ordered, and so are their roundings
    have hmono := roundEven_mono (div_le_div_of_nonneg_right hv (zpow_pos two_pos t₁).le)
    exact unitsAt_le_unitsAt (by omega) (by omega) t₁

end TargetOf

theorem div_two_pow_toNat {e t : Int} (h : e ≤ t) (x : ℚ) :
    x * 2 ^ e / 2 ^ t = x / 2 ^ (t - e).toNat := by
  rw [← zpow_natCast, show (((t - e).toNat : Nat) : Int) = t - e by omega, zpow_sub₀ two_ne_zero,
    div_div_eq_mul_div, mul_div_assoc]

@[simp] theorem mantissa_ofMantissaAndAccuracy (m : Nat) (acc : Accuracy) :
    (ExtendedMantissa.ofMantissaAndAccuracy m acc).mantissa = m := by
  cases acc with
  | exact => rfl
  | inexact o => cases o <;> rfl

/-- Rounding from an exponent `e` at or below the target exponent `t` gives the double nearest
to the exact value. -/
theorem roundWithAccuracy_eq {m : Nat} {e : Int} {acc : Accuracy} {x : ℚ}
    (hx : Represents (ExtendedMantissa.ofMantissaAndAccuracy m acc) x)
    (he : e ≤ Format.binary64.targetExponent (totalExponent m e)) :
    roundWithAccuracy .binary64 .positive m e acc =
      nearest (x * 2 ^ e) (Format.binary64.targetExponent (totalExponent m e)) := by
  set t := Format.binary64.targetExponent (totalExponent m e) with ht
  have htmin : -1074 ≤ t := ht ▸ least_le_targetExponent _
  set em := ExtendedMantissa.ofMantissaAndAccuracy m acc >>> (t - e).toNat with hem
  have hfirst : shiftToTargetExponent .binary64 m e acc = (em, t) := by
    simp only [shiftToTargetExponent, shiftToExponent, ← ht, hem]
    congr 1
    omega
  have hq : (em.roundedMantissa : ℤ) = roundEven (x / 2 ^ (t - e).toNat) :=
    (hx.shiftRight _).roundedMantissa
  -- fewer than 53 bits are left at the target exponent, so rounding carries at most to `2^53`
  have hfloor : em.mantissa < 2 ^ 53 := by
    rw [hem, mantissa_shiftRight, mantissa_ofMantissaAndAccuracy]
    rcases Nat.eq_zero_or_pos m with rfl | hpos
    · simp
    · have := (floorAt_target hpos e).1
      simpa [floorAt, ← ht, show (e - t).toNat = 0 by omega] using this
  have hb := roundedMantissa_bounds em
  unfold roundWithAccuracy
  rw [hfirst]
  dsimp only
  rw [nearest, div_two_pow_toNat he, show (roundEven (x / 2 ^ (t - e).toNat)).toNat =
    em.roundedMantissa by omega]
  unfold unitsAt
  rcases Nat.lt_or_ge em.roundedMantissa (2 ^ 53) with hlt | hge
  · rw [shiftToTargetExponent_of_lt hlt htmin]
    by_cases hz : em.roundedMantissa = 0
    · simp [hz]
    · simpa [hz] using hlt
  · rw [show em.roundedMantissa = 2 ^ 53 by omega, shiftToTargetExponent_carry htmin]
    simp

/-- The exponent rounding targets from a whole part `m` at `e` is the target exponent of the
exact value, when `m` is positive or the target is the least exponent. -/
theorem targetOf_represents {m : Nat} {e : Int} {acc : Accuracy} {x : ℚ}
    (hx : Represents (ExtendedMantissa.ofMantissaAndAccuracy m acc) x)
    (hm : 0 < m ∨ Format.binary64.targetExponent (totalExponent m e) = -1074) :
    TargetOf (x * 2 ^ e) (Format.binary64.targetExponent (totalExponent m e)) := by
  set t := Format.binary64.targetExponent (totalExponent m e) with ht
  have htval : t = max ((m.log2 : Int) + 1 + e - 53) (-1074) := by simp [ht, totalExponent]
  have hfl := hx.floor
  rw [mantissa_ofMantissaAndAccuracy] at hfl
  have hlo : (m : ℚ) ≤ x := by exact_mod_cast hfl ▸ Int.floor_le x
  have hhi : x < m + 1 := by exact_mod_cast hfl ▸ Int.lt_floor_add_one x
  have h2e : (0 : ℚ) < 2 ^ e := zpow_pos two_pos e
  refine ⟨by omega, ?_, ?_⟩
  · have htop : (m : ℚ) + 1 ≤ 2 ^ (m.log2 + 1) := by exact_mod_cast Nat.lt_log2_self
    calc x * 2 ^ e < 2 ^ (m.log2 + 1) * 2 ^ e := by gcongr; linarith
      _ = 2 ^ ((m.log2 : Int) + 1 + e) := by
        rw [zpow_add₀ two_ne_zero, ← zpow_natCast]; push_cast; ring_nf
      _ ≤ 2 ^ (t + 53) := zpow_le_zpow_right₀ one_le_two (by omega)
  · refine or_iff_not_imp_right.mpr fun hmin => ?_
    have hpos := hm.resolve_right hmin
    have hbit : (2 : ℚ) ^ m.log2 ≤ m := by exact_mod_cast Nat.log2_self_le hpos.ne'
    calc (2 : ℚ) ^ (t + 52) = 2 ^ m.log2 * 2 ^ e := by
          rw [← zpow_natCast, ← zpow_add₀ two_ne_zero]; congr 1; omega
      _ ≤ x * 2 ^ e := by gcongr; linarith

theorem round_eq {M : Nat} (hM : 0 < M) (E : Int) :
    round .binary64 .positive M E =
      nearest (value M E) (Format.binary64.targetExponent (totalExponent M E)) := by
  set t := Format.binary64.targetExponent (totalExponent M E) with ht
  have htot : totalExponent (M <<< (E - t).toNat) (E - (E - t).toNat) = totalExponent M E := by
    simp only [totalExponent, log2_shiftLeft hM]
    push_cast
    ring
  have hval : value (M <<< (E - t).toNat) (E - (E - t).toNat) = value M E := by
    have h := value_shiftLeft M (show E - ((E - t).toNat : Int) ≤ E by omega)
    rwa [show (E - (E - ((E - t).toNat : Int))).toNat = (E - t).toNat by omega] at h
  unfold round decreaseExponent
  dsimp only
  rw [← ht, roundWithAccuracy_eq (represents_exact _) (by rw [htot]; omega), htot, ← ht,
    ← value, hval]

theorem targetOf_value {M : Nat} (hM : 0 < M) (E : Int) :
    TargetOf (value M E) (Format.binary64.targetExponent (totalExponent M E)) := by
  have h := targetOf_represents (represents_exact M) (e := E) (Or.inl hM)
  rwa [← value] at h


theorem roundEven_add_of_lt_half (k : ℤ) {f : ℚ} (h0 : 0 ≤ f) (h : f < 1 / 2) :
    roundEven (k + f) = k := by
  have hfl : ⌊(k : ℚ) + f⌋ = k := by
    rw [Int.floor_intCast_add, Int.floor_eq_zero_iff.mpr ⟨h0, by linarith⟩, add_zero]
  unfold roundEven
  rw [hfl, if_pos (by linarith)]

theorem nearest_canonical_add {m : Nat} {e : Int} (hm : 0 < m) (hc : Canonical m e) {b : ℚ}
    (hb0 : 0 ≤ b) (hb : b < 2 ^ (e - 1)) :
    TargetOf (value m e + b) e ∧ nearest (value m e + b) e = .finite .positive m e hm := by
  have h2e : (0 : ℚ) < 2 ^ e := zpow_pos two_pos e
  have hhalf : (2 : ℚ) ^ (e - 1) = 2 ^ e / 2 := by
    rw [zpow_sub₀ two_ne_zero, zpow_one]
  have hunits : (value m e + b) / 2 ^ e = (m : ℤ) + b / 2 ^ e := by
    rw [value, add_div, mul_div_cancel_right₀ _ h2e.ne']
    push_cast
    ring
  refine ⟨⟨hc.2.1, ?_, ?_⟩, ?_⟩
  · have hm1 : ((m : ℚ) + 1) ≤ 2 ^ 53 := by exact_mod_cast hc.1
    calc value m e + b < m * 2 ^ e + 2 ^ e := by rw [value]; linarith
      _ = (m + 1) * 2 ^ e := by ring
      _ ≤ 2 ^ 53 * 2 ^ e := by gcongr
      _ = 2 ^ (e + 53) := by rw [zpow_add₀ two_ne_zero]; norm_num [mul_comm]
  · refine hc.2.2.imp (fun hn => ?_) id
    have hn' : (2 : ℚ) ^ 52 ≤ m := by exact_mod_cast hn
    calc (2 : ℚ) ^ (e + 52) = 2 ^ 52 * 2 ^ e := by rw [zpow_add₀ two_ne_zero]; norm_num [mul_comm]
      _ ≤ value m e := by rw [value]; gcongr
      _ ≤ value m e + b := by linarith
  · have hf : b / 2 ^ e < 1 / 2 := by
      rw [div_lt_iff₀ h2e]
      linarith
    rw [nearest, hunits, roundEven_add_of_lt_half _ (div_nonneg hb0 h2e.le) hf, Int.toNat_natCast,
      unitsAt_of_lt hm hc.1]

theorem nearest_canonical {m : Nat} {e : Int} (hm : 0 < m) (hc : Canonical m e) :
    TargetOf (value m e) e ∧ nearest (value m e) e = .finite .positive m e hm := by
  simpa using nearest_canonical_add hm hc le_rfl (zpow_pos two_pos (e - 1))

/-- What rounding a value zero or more gives: positive zero, or a positive canonical double
whose exponent may still be too large to pack. -/
inductive Rounded : UnpackedFloat → Prop
  | zero : Rounded (.zero .positive)
  | finite {m : Nat} {e : Int} (h : 0 < m) (hc : Canonical m e) : Rounded (.finite .positive m e h)

theorem TargetOf.rounded {v : ℚ} {t : Int} (h : TargetOf v t) : Rounded (nearest v t) := by
  have hq := h.units_le
  have hn := h.units_normal
  have hl := h.least
  unfold nearest unitsAt
  split_ifs with h0 hlt
  · exact .zero
  · exact .finite _ ⟨hlt, hl, by omega⟩
  · exact .finite _ ⟨by norm_num, by omega, Or.inl le_rfl⟩

namespace Rounded

variable {x y : UnpackedFloat}

theorem zero_le_pack (hy : Rounded y) (s : Sign) :
    (UnpackedFloat.zero s).le (Float.Model.pack y).unpack = true := by
  cases hy with
  | zero => rw [Float.Model.unpack_pack_zero]; cases s <;> rfl
  | finite h hc =>
    rcases unpack_pack_finite_cases (s := .positive) h hc with ⟨hb, -⟩ | hinf
    · rw [hb]; rfl
    · rw [hinf]; rfl

theorem pack_le (hx : Rounded x) (hy : Rounded y) (h : x.le y = true) :
    (Float.Model.pack x).unpack.le (Float.Model.pack y).unpack = true := by
  cases hx with
  | zero =>
    rw [Float.Model.unpack_pack_zero]
    exact hy.zero_le_pack _
  | @finite m₁ e₁ h₁ hc₁ =>
    cases hy with
    | zero => simp [UnpackedFloat.le, UnpackedFloat.compare] at h
    | finite h₂ hc₂ =>
      rcases unpack_pack_finite_cases (s := .positive) h₂ hc₂ with ⟨hb₂, he₂⟩ | hinf
      · have he₁ : e₁ ≤ 971 := by
          rcases le_finite_positive.mp h with hlt | ⟨heq, -⟩ <;> omega
        rw [unpack_pack_finite h₁ hc₁ he₁, hb₂]
        exact h
      · rw [hinf]
        rcases unpack_pack_finite_cases (s := .positive) h₁ hc₁ with ⟨hb₁, -⟩ | hinf₁
        · rw [hb₁]; rfl
        · rw [hinf₁]; rfl

end Rounded

/-- A double that rounding to nearest gives from an exact value `v ≥ 0`: a zero for `v = 0`,
else the double nearest `v` at its target exponent, packed. -/
inductive RoundsFrom : UnpackedFloat → ℚ → Prop
  | zero (s : Sign) : RoundsFrom (.zero s) 0
  | nearest {v : ℚ} {t : Int} (hv : 0 < v) (ht : TargetOf v t) :
      RoundsFrom (Float.Model.pack (nearest v t)).unpack v

namespace RoundsFrom

variable {x y : UnpackedFloat} {v w : ℚ}

theorem eq_nearest (h : RoundsFrom x v) (hv : 0 < v) :
    ∃ t, TargetOf v t ∧ x = (Float.Model.pack (UnpackedFloat.nearest v t)).unpack := by
  cases h with
  | zero => exact absurd hv (lt_irrefl 0)
  | nearest _ ht => exact ⟨_, ht, rfl⟩

theorem le (hx : RoundsFrom x v) (hy : RoundsFrom y w) (h : v ≤ w) : x.le y = true := by
  cases hx with
  | zero s₁ =>
    cases hy with
    | zero s₂ => cases s₁ <;> cases s₂ <;> rfl
    | nearest _ ht₂ => exact ht₂.rounded.zero_le_pack _
  | nearest hv₁ ht₁ =>
    cases hy with
    | zero => exact absurd h (not_le.mpr hv₁)
    | nearest _ ht₂ => exact ht₁.rounded.pack_le ht₂.rounded (ht₁.nearest_le ht₂ h)

end RoundsFrom

namespace NonNegValue

variable {x y : UnpackedFloat} {p q : ℚ}

theorem unique (h₁ : NonNegValue x p) (h₂ : NonNegValue x q) : p = q := by
  have hle : x.le x = true := (h₁.le_iff h₁).mpr le_rfl
  exact le_antisymm ((h₁.le_iff h₂).mp hle) ((h₂.le_iff h₁).mp hle)

theorem roundsFrom (hx : NonNegValue x p) : RoundsFrom x p := by
  cases hx with
  | zero s => exact .zero s
  | finite h hc he =>
    obtain ⟨ht, hnear⟩ := nearest_canonical h hc
    have hr := RoundsFrom.nearest (value_pos h _) ht
    rwa [hnear, unpack_pack_finite h hc he] at hr

theorem add (hx : NonNegValue x p) (hy : NonNegValue y q) :
    RoundsFrom (Float.Model.pack (x.add .binary64 y)).unpack (p + q) := by
  cases hx with
  | zero s₁ =>
    cases hy with
    | zero s₂ =>
      obtain ⟨s, hs⟩ : ∃ s, (UnpackedFloat.zero s₁).add .binary64 (.zero s₂) = .zero s := by
        cases s₁ <;> cases s₂ <;> exact ⟨_, rfl⟩
      rw [hs, Float.Model.unpack_pack_zero, add_zero]
      exact .zero s
    | finite h₂ hc₂ he₂ =>
      rw [show (UnpackedFloat.zero s₁).add .binary64 (.finite .positive _ _ h₂) =
        .finite .positive _ _ h₂ from rfl, zero_add, unpack_pack_finite h₂ hc₂ he₂]
      exact (NonNegValue.finite h₂ hc₂ he₂).roundsFrom
  | finite h₁ hc₁ he₁ =>
    cases hy with
    | zero s₂ =>
      rw [show (UnpackedFloat.finite .positive _ _ h₁).add .binary64 (.zero s₂) =
        .finite .positive _ _ h₁ from rfl, add_zero, unpack_pack_finite h₁ hc₁ he₁]
      exact (NonNegValue.finite h₁ hc₁ he₁).roundsFrom
    | @finite m₂ e₂ h₂ hc₂ he₂ =>
      rename_i m₁ e₁
      have hsum : value (m₁ <<< (e₁ - min e₁ e₂).toNat + m₂ <<< (e₂ - min e₁ e₂).toNat)
          (min e₁ e₂) = value m₁ e₁ + value m₂ e₂ := by
        rw [← value_add, value_shiftLeft _ (min_le_left _ _), value_shiftLeft _ (min_le_right _ _)]
      have hpos : 0 < m₁ <<< (e₁ - min e₁ e₂).toNat + m₂ <<< (e₂ - min e₁ e₂).toNat := by
        simp only [Nat.shiftLeft_eq]
        positivity
      rw [add_finite, normalize_of_pos _ _ (by simp only [Sign.apply]; omega)]
      simp only [Sign.apply]
      rw [show ((m₁ <<< (e₁ - min e₁ e₂).toNat : Nat) + (m₂ <<< (e₂ - min e₁ e₂).toNat : Nat) :
          Int).toNat = m₁ <<< (e₁ - min e₁ e₂).toNat + m₂ <<< (e₂ - min e₁ e₂).toNat by omega,
        round_eq hpos, hsum]
      exact .nearest (hsum ▸ value_pos hpos _) (hsum ▸ targetOf_value hpos _)

/-- Less than half a unit added to a positive double that packs rounds back to it. -/
theorem add_of_lt_half (hy : NonNegValue y q) {m : Nat} {e : Int} (hm : 0 < m) (hc : Canonical m e)
    (he : e ≤ 971) (hq : q < 2 ^ (e - 1)) :
    (Float.Model.pack ((UnpackedFloat.finite .positive m e hm).add .binary64 y)).unpack =
      .finite .positive m e hm := by
  have hx := NonNegValue.finite hm hc he
  obtain ⟨t, ht, hsum⟩ := (hx.add hy).eq_nearest (add_pos_of_pos_of_nonneg (value_pos hm e) hy.nonneg)
  obtain ⟨hte, hnear⟩ := nearest_canonical_add hm hc hy.nonneg hq
  rw [hsum, ht.unique hte, hnear, unpack_pack_finite hm hc he]

end NonNegValue

/-- Dividing positive canonical doubles gives the double nearest the quotient of their values. -/
theorem div_finite_positive {m₁ m₂ : Nat} {e₁ e₂ : Int} (h₁ : 0 < m₁) (h₂ : 0 < m₂)
    (hc₁ : Canonical m₁ e₁) :
    ∃ t, TargetOf (value m₁ e₁ / value m₂ e₂) t ∧
      (UnpackedFloat.finite .positive m₁ e₁ h₁).div .binary64 (.finite .positive m₂ e₂ h₂) =
        nearest (value m₁ e₁ / value m₂ e₂) t := by
  set t₀ := min (e₁ - e₂)
    (Format.binary64.targetExponent (totalExponent m₁ e₁ - totalExponent m₂ e₂)) with ht₀
  set s := (e₁ - e₂ - t₀).toNat with hs
  set q := (m₁ <<< s) / m₂ with hq
  have hcore : divCore .binary64 m₁ e₁ m₂ e₂ = (q, t₀, accuracyOfFraction ((m₁ <<< s) % m₂) m₂) :=
    rfl
  have hrep := represents_fraction (m₁ <<< s) m₂ h₂
  have hl₁ : m₁.log2 < 53 := (Nat.log2_lt h₁.ne').mpr hc₁.1
  simp only [targetExponent_binary64, totalExponent] at ht₀
  -- off the least exponent the shift leaves the quotient 53 bits: `2^52 ≤ q`
  have hbits : t₀ ≤ -1074 ∨ 2 ^ 52 ≤ q := by
    refine or_iff_not_imp_left.mpr fun hmin => ?_
    rw [hq, Nat.le_div_iff_mul_le h₂, Nat.shiftLeft_eq]
    calc 2 ^ 52 * m₂ ≤ 2 ^ 52 * 2 ^ (m₂.log2 + 1) := Nat.mul_le_mul_left _ Nat.lt_log2_self.le
      _ = 2 ^ m₁.log2 * 2 ^ s := by rw [← Nat.pow_add, ← Nat.pow_add]; congr 1; omega
      _ ≤ m₁ * 2 ^ s := Nat.mul_le_mul_right _ (Nat.log2_self_le h₁.ne')
  have htarget : Format.binary64.targetExponent (totalExponent q t₀) =
      max ((q.log2 : Int) + 1 + t₀ - 53) (-1074) := by
    simp [totalExponent]
  have he : t₀ ≤ Format.binary64.targetExponent (totalExponent q t₀) := by
    rw [htarget]
    rcases hbits with hmin | hq52
    · omega
    · have := (Nat.le_log2 (by omega)).mpr hq52
      omega
  have hm : 0 < q ∨ Format.binary64.targetExponent (totalExponent q t₀) = -1074 := by
    rcases Nat.eq_zero_or_pos q with h0 | hpos
    · right
      rcases hbits with hmin | hq52
      · rw [htarget, h0, Nat.log2_zero]
        omega
      · omega
    · exact Or.inl hpos
  have hval : ((m₁ <<< s : Nat) : ℚ) / m₂ * 2 ^ t₀ = value m₁ e₁ / value m₂ e₂ := by
    have h2 : (2 : ℚ) ^ e₁ = 2 ^ (s : ℤ) * 2 ^ t₀ * 2 ^ e₂ := by
      rw [← zpow_add₀ two_ne_zero, ← zpow_add₀ two_ne_zero]
      congr 1
      omega
    rw [value, value, h2, Nat.shiftLeft_eq, zpow_natCast]
    push_cast
    field_simp
  refine ⟨_, hval ▸ targetOf_represents hrep hm, ?_⟩
  simp only [UnpackedFloat.div, hcore]
  rw [show Sign.positive / Sign.positive = .positive from rfl, roundWithAccuracy_eq hrep he, hval]

theorem NonNegValue.div {x d : UnpackedFloat} {p δ : ℚ} (hx : NonNegValue x p)
    (hd : NonNegValue d δ) (hδ : 0 < δ) :
    RoundsFrom (Float.Model.pack (x.div .binary64 d)).unpack (p / δ) := by
  cases hd with
  | zero => exact absurd hδ (lt_irrefl 0)
  | finite h₂ _ =>
    cases hx with
    | zero s =>
      rw [show (UnpackedFloat.zero s).div .binary64 (.finite .positive _ _ h₂) =
        .zero (s / .positive) from rfl, Float.Model.unpack_pack_zero, zero_div]
      exact .zero _
    | finite h₁ hc₁ =>
      obtain ⟨t, ht, hdiv⟩ := div_finite_positive h₁ h₂ hc₁
      rw [hdiv]
      exact .nearest (div_pos (value_pos h₁ _) (value_pos h₂ _)) ht

theorem roundsFrom_ofNat (n : Nat) : RoundsFrom (Float.Model.pack (ofNat .binary64 n)).unpack n := by
  rcases Nat.eq_zero_or_pos n with rfl | hn
  · rw [show ofNat .binary64 0 = .zero .positive from rfl, Float.Model.unpack_pack_zero,
      Nat.cast_zero]
    exact .zero _
  · have hv : value n 0 = n := by simp [value]
    rw [ofNat_of_pos hn, round_eq hn, hv]
    exact .nearest (by exact_mod_cast hn) (hv ▸ targetOf_value hn 0)

theorem one_le_exponent {m : Nat} {e : Int} (hc : Canonical m e) (h : 2 ^ 53 ≤ value m e) :
    1 ≤ e := by
  by_contra hlt
  have hc₁ : Canonical (2 ^ 52) 1 := ⟨by norm_num, by norm_num, Or.inl le_rfl⟩
  have hv := value_lt_of_exponent_lt hc hc₁ (by omega)
  have h53 : value (2 ^ 52) 1 = 2 ^ 53 := by norm_num [value]
  linarith

end Float.Model.UnpackedFloat

namespace Float

open Float.Model Float.Model.UnpackedFloat

variable {x y d : Float} {v w p q δ : ℚ}

theorem le_of_roundsFrom (hx : RoundsFrom x.toModel.unpack v) (hy : RoundsFrom y.toModel.unpack w)
    (h : v ≤ w) : x ≤ y := by
  rw [le_iff_unpack]
  exact hx.le hy h

theorem roundsFrom_add (hx : NonNegValue x.toModel.unpack p) (hy : NonNegValue y.toModel.unpack q) :
    RoundsFrom (x + y).toModel.unpack (p + q) := by
  rw [unpack_add]
  exact hx.add hy

theorem roundsFrom_div (hx : NonNegValue x.toModel.unpack p) (hd : NonNegValue d.toModel.unpack δ)
    (hδ : 0 < δ) : RoundsFrom (x / d).toModel.unpack (p / δ) := by
  rw [unpack_div]
  exact hx.div hd hδ

theorem roundsFrom_toFloat (n : UInt64) : RoundsFrom n.toFloat.toModel.unpack n.toNat :=
  roundsFrom_ofNat n.toNat

theorem toFloat_le_toFloat {m n : UInt64} (h : m.toNat ≤ n.toNat) : m.toFloat ≤ n.toFloat :=
  le_of_roundsFrom (roundsFrom_toFloat m) (roundsFrom_toFloat n) (by exact_mod_cast h)

theorem unpack_add_of_lt_half {m : Nat} {e : Int} {hm : 0 < m}
    (hx : x.toModel.unpack = .finite .positive m e hm) (hy : NonNegValue y.toModel.unpack q)
    (hq : q < 2 ^ (e - 1)) : (x + y).toModel.unpack = x.toModel.unpack := by
  obtain ⟨hc, he⟩ := canonical_of_unpack hx
  rw [unpack_add, hx]
  exact hy.add_of_lt_half hm hc he hq

end Float
