import Mathlib
import XrDelivery.Proofs.PlusDoubles

/-!
# Rounding never passes a double that bounds the exact result

A finite double is a mantissa `m` at an exponent `e`, of value `m · 2^e` (`value m e`). Every
operation on doubles rounds its exact result to nearest, and rounding never passes a double: a
positive exact value at or below a positive double rounds, and packs, to at most that double
(`round_le_of_value_le`), whatever its exponent, subnormal results and exponents below the least
one included. A value that is a double rounds to exactly that double (`round_of_value_eq`).

Canonical doubles, the ones unpacking gives, are ordered as their values
(`le_finite_positive_iff_value`), so bounds on exact values become bounds on doubles: a product or
a sum of two finite doubles that are zero or more is at most every double above the product or
the sum of their values (`le_of_mul_value_le`, `le_of_add_value_le`), and `a - b ≤ a` for a finite
`a` and `b` that are zero or more (`sub_le_self`). A natural number up to `2^53` becomes a double
of exactly its value (`ofNat_exact`), and dividing a double of at least one by `2^53` only lowers
its exponent by 53 (`div_twoPow53`).
-/

namespace Float.Model.UnpackedFloat

/-- The value `m · 2^e` of a mantissa at an exponent. -/
def value (m : Nat) (e : Int) : ℚ := m * 2 ^ e

theorem value_eq_at {c : Int} (m : Nat) {e : Int} (h : c ≤ e) :
    value m e = ((m * 2 ^ (e - c).toNat : Nat) : ℚ) * 2 ^ c := by
  rw [value, Nat.cast_mul, Nat.cast_pow, Nat.cast_ofNat, mul_assoc, ← zpow_natCast,
    ← zpow_add₀ two_ne_zero]
  congr 2
  omega

theorem value_pos {m : Nat} (hm : 0 < m) (e : Int) : 0 < value m e := by
  unfold value
  positivity

@[simp] theorem value_zero (e : Int) : value 0 e = 0 := by
  simp [value]

/-! Two values compare as their mantissas brought to the smaller exponent. -/

theorem value_le_value_iff (m n : Nat) (e f : Int) :
    value m e ≤ value n f ↔ m * 2 ^ (e - f).toNat ≤ n * 2 ^ (f - e).toNat := by
  rw [value_eq_at m (min_le_left e f), value_eq_at n (min_le_right e f),
    mul_le_mul_iff_of_pos_right (zpow_pos two_pos _), Nat.cast_le,
    show (e - min e f).toNat = (e - f).toNat by omega, show (f - min e f).toNat = (f - e).toNat by omega]

theorem value_lt_value_iff (m n : Nat) (e f : Int) :
    value m e < value n f ↔ m * 2 ^ (e - f).toNat < n * 2 ^ (f - e).toNat := by
  rw [value_eq_at m (min_le_left e f), value_eq_at n (min_le_right e f),
    mul_lt_mul_iff_of_pos_right (zpow_pos two_pos _), Nat.cast_lt,
    show (e - min e f).toNat = (e - f).toNat by omega, show (f - min e f).toNat = (f - e).toNat by omega]

theorem value_eq_value_iff (m n : Nat) (e f : Int) :
    value m e = value n f ↔ m * 2 ^ (e - f).toNat = n * 2 ^ (f - e).toNat := by
  rw [le_antisymm_iff, value_le_value_iff, value_le_value_iff, ← le_antisymm_iff]

@[simp] theorem value_le_value_same {m n : Nat} {e : Int} : value m e ≤ value n e ↔ m ≤ n := by
  simp [value_le_value_iff]

@[simp] theorem value_lt_value_same {m n : Nat} {e : Int} : value m e < value n e ↔ m < n := by
  simp [value_lt_value_iff]

theorem value_mul (m₁ m₂ : Nat) (e₁ e₂ : Int) :
    value m₁ e₁ * value m₂ e₂ = value (m₁ * m₂) (e₁ + e₂) := by
  simp only [value, Nat.cast_mul, zpow_add₀ (two_ne_zero' ℚ)]
  ring

theorem value_add (m n : Nat) (e : Int) : value m e + value n e = value (m + n) e := by
  simp only [value, Nat.cast_add]
  ring

theorem value_shiftLeft (m : Nat) {e t : Int} (h : t ≤ e) :
    value (m <<< (e - t).toNat) t = value m e := by
  rw [value_eq_at m h, Nat.shiftLeft_eq, value]

theorem value_bounds {m : Nat} (hm : 0 < m) (e : Int) :
    (2 : ℚ) ^ (totalExponent m e - 1) ≤ value m e ∧ value m e < 2 ^ totalExponent m e := by
  have hlo : (2 : ℚ) ^ m.log2 ≤ m := by exact_mod_cast Nat.log2_self_le hm.ne'
  have hhi : (m : ℚ) < 2 ^ (m.log2 + 1) := by exact_mod_cast Nat.lt_log2_self
  have hT : totalExponent m e = ((m.log2 + 1 : Nat) : Int) + e := by
    simp only [totalExponent]
    push_cast
    ring
  rw [hT, zpow_add₀ two_ne_zero, zpow_natCast, show ((m.log2 + 1 : Nat) : Int) + e - 1 =
    (m.log2 : Int) + e by push_cast; ring, zpow_add₀ two_ne_zero, zpow_natCast, value]
  exact ⟨mul_le_mul_of_nonneg_right hlo (by positivity),
    mul_lt_mul_of_pos_right hhi (by positivity)⟩

theorem totalExponent_le_of_value_le {m M : Nat} {e E : Int} (hm : 0 < m) (hM : 0 < M)
    (h : value m e ≤ value M E) : totalExponent m e ≤ totalExponent M E := by
  have hlt := lt_of_le_of_lt ((value_bounds hm e).1.trans h) (value_bounds hM E).2
  have := (zpow_lt_zpow_iff_right₀ one_lt_two).mp hlt
  omega

/-- A larger value is rounded at a target exponent at least as large. -/
theorem targetExponent_le_of_value_le {m M : Nat} {e E : Int} (hm : 0 < m) (hM : 0 < M)
    (h : value m e ≤ value M E) :
    Format.binary64.targetExponent (totalExponent m e) ≤
      Format.binary64.targetExponent (totalExponent M E) := by
  have := totalExponent_le_of_value_le hm hM h
  simp only [targetExponent_binary64]
  omega

/-! The whole units of `2^t` in a value lie at or below it, and one more unit lies above it. -/

theorem value_floorAt_le (m : Nat) (e t : Int) : value (floorAt m e t) t ≤ value m e := by
  rw [value_le_value_iff]
  exact Nat.div_mul_le_self _ _

theorem value_lt_floorAt_succ (m : Nat) (e t : Int) : value m e < value (floorAt m e t + 1) t := by
  rw [value_lt_value_iff, floorAt, Nat.add_mul, Nat.one_mul]
  exact Nat.lt_div_mul_add (by positivity)

/-- A positive value below a canonical double rounds to at most that double: to zero, to a
smaller exponent, or to the same exponent and at most its mantissa. -/
theorem round_le_of_value_lt (s : Sign) {M m₁ : Nat} {E e₁ : Int} (hM : 0 < M)
    (hc : Canonical m₁ e₁) (hv : value M E < value m₁ e₁) :
    round .binary64 s M E = .zero s ∨
      ∃ M' E' h, round .binary64 s M E = .finite s M' E' h ∧ Canonical M' E' ∧
        (E' < e₁ ∨ E' = e₁ ∧ M' ≤ m₁) := by
  have hm₁ : 0 < m₁ := by
    rcases Nat.eq_zero_or_pos m₁ with rfl | h
    · have := value_pos hM E
      rw [value_zero] at hv
      linarith
    · exact h
  set t := Format.binary64.targetExponent (totalExponent M E) with ht
  have hte : t ≤ e₁ := by
    rw [← targetExponent_of_canonical hm₁ hc]
    exact targetExponent_le_of_value_le hM hm₁ hv.le
  have hunits : floorAt M E t + 1 ≤ m₁ * 2 ^ (e₁ - t).toNat := by
    have h := lt_of_le_of_lt (value_floorAt_le M E t) hv
    rw [value_lt_value_iff, show (t - e₁).toNat = 0 by omega, pow_zero, Nat.mul_one] at h
    exact h
  exact round_le_of_floorAt s hM hc ht hte hunits

theorem shiftRight_mul_two_pow (q k : Nat) :
    (⟨q * 2 ^ k, false, false⟩ : ExtendedMantissa) >>> k = ⟨q, false, false⟩ := by
  induction k generalizing q with
  | zero => simp [HShiftRight.hShiftRight, Nat.repeat]
  | succ k ih =>
    rw [show q * 2 ^ (k + 1) = 2 * q * 2 ^ k by ring]
    change ExtendedMantissa.shiftRightOne ((⟨2 * q * 2 ^ k, false, false⟩ : ExtendedMantissa) >>> k) = _
    rw [ih]
    simp [ExtendedMantissa.shiftRightOne]

/-- When the value is a whole number `q` of units of its target exponent `t`, the first shift of
`round` lands on exactly `q` at `t`. -/
theorem shiftToTargetExponent_first_exact {M : Nat} (hM : 0 < M) (E : Int) {t : Int}
    (ht : t = Format.binary64.targetExponent (totalExponent M E)) {q : Nat}
    (hq : q * 2 ^ (t - E).toNat = M * 2 ^ (E - t).toNat) :
    shiftToTargetExponent .binary64 (M <<< (E - t).toNat) (E - (E - t).toNat) .exact =
      (⟨q, false, false⟩, t) := by
  have htot : totalExponent (M <<< (E - t).toNat) (E - (E - t).toNat) = totalExponent M E := by
    simp only [totalExponent, log2_shiftLeft hM]
    push_cast
    ring
  unfold shiftToTargetExponent
  rw [htot, ← ht]
  simp only [shiftToExponent, ExtendedMantissa.ofMantissaAndAccuracy]
  rw [show (t - (E - ((E - t).toNat : Int))).toNat = (t - E).toNat by omega, Nat.shiftLeft_eq, ← hq,
    shiftRight_mul_two_pow]
  congr 1
  omega

/-- A value that is a whole number `q` of units of its target exponent `t` rounds to exactly
`q · 2^t`. -/
theorem round_of_exact (s : Sign) {M : Nat} (hM : 0 < M) (E : Int) {t : Int}
    (ht : t = Format.binary64.targetExponent (totalExponent M E)) {q : Nat} (hq0 : 0 < q)
    (hq : q * 2 ^ (t - E).toNat = M * 2 ^ (E - t).toNat) :
    round .binary64 s M E = .finite s q t hq0 := by
  have hfloor : floorAt M E t = q := by
    rw [floorAt, ← hq, Nat.mul_div_cancel _ (by positivity)]
  obtain ⟨hq53, -⟩ := floorAt_target hM E
  rw [← ht, hfloor] at hq53
  have htmin : -1074 ≤ t := ht ▸ least_le_targetExponent _
  unfold round roundWithAccuracy decreaseExponent
  dsimp only
  rw [← ht, shiftToTargetExponent_first_exact hM E ht hq]
  dsimp only
  rw [show (⟨q, false, false⟩ : ExtendedMantissa).roundedMantissa = q from rfl,
    shiftToTargetExponent_of_lt hq53 htmin]
  simp [hq0.ne']

theorem round_of_value_eq (s : Sign) {M m₁ : Nat} {E e₁ : Int} (hm₁ : 0 < m₁)
    (hc : Canonical m₁ e₁) (hv : value M E = value m₁ e₁) :
    round .binary64 s M E = .finite s m₁ e₁ hm₁ := by
  have hM : 0 < M := by
    rcases Nat.eq_zero_or_pos M with rfl | h
    · have := value_pos hm₁ e₁
      rw [value_zero] at hv
      linarith
    · exact h
  have htot : totalExponent M E = totalExponent m₁ e₁ :=
    le_antisymm (totalExponent_le_of_value_le hM hm₁ hv.le)
      (totalExponent_le_of_value_le hm₁ hM hv.ge)
  have ht : e₁ = Format.binary64.targetExponent (totalExponent M E) := by
    rw [htot, targetExponent_of_canonical hm₁ hc]
  exact round_of_exact s hM E ht hm₁ ((value_eq_value_iff _ _ _ _).mp hv.symm)

/-- A positive value at or below a positive double rounds, and packs, to at most that double. -/
theorem round_le_of_value_le {M m₁ : Nat} {E e₁ : Int} (hM : 0 < M) (hm₁ : 0 < m₁)
    (hc : Canonical m₁ e₁) (he₁ : e₁ ≤ 971) (hv : value M E ≤ value m₁ e₁) :
    (Float.Model.pack (round .binary64 .positive M E)).unpack.le (.finite .positive m₁ e₁ hm₁)
      = true := by
  rcases hv.lt_or_eq with hlt | heq
  · rcases round_le_of_value_lt .positive hM hc hlt with hr | ⟨M', E', h, hr, hc', hord⟩
    · rw [hr, Float.Model.unpack_pack_zero]
      rfl
    · have hE' : E' ≤ 971 := by omega
      rw [hr, unpack_pack_finite h hc' hE']
      exact le_finite_positive.mpr hord
  · rw [round_of_value_eq .positive hm₁ hc heq, unpack_pack_finite hm₁ hc he₁]
    exact finite_le_self _ _ _ _

theorem value_lt_of_exponent_lt {m₁ m₂ : Nat} {e₁ e₂ : Int} (hc₁ : Canonical m₁ e₁)
    (hc₂ : Canonical m₂ e₂) (he : e₁ < e₂) : value m₁ e₁ < value m₂ e₂ := by
  have hnorm : 2 ^ 52 ≤ m₂ := hc₂.2.2.resolve_right (by have := hc₁.2.1; omega)
  rw [value_lt_value_iff, show (e₁ - e₂).toNat = 0 by omega, pow_zero, Nat.mul_one]
  calc m₁ < 2 ^ 52 * 2 ^ 1 := by have := hc₁.1; omega
    _ ≤ m₂ * 2 ^ (e₂ - e₁).toNat := Nat.mul_le_mul hnorm (Nat.pow_le_pow_right (by norm_num) (by omega))

theorem value_twoPow52 : value (2 ^ 52) (-52) = 1 := by norm_num [value]

theorem neg52_le_of_one_le {m : Nat} {e : Int} (hc : Canonical m e) (hone : 1 ≤ value m e) :
    -52 ≤ e := by
  by_contra hlt
  have hc₁ : Canonical (2 ^ 52) (-52) := ⟨by norm_num, by norm_num, Or.inl le_rfl⟩
  have := value_lt_of_exponent_lt hc hc₁ (not_le.mp hlt)
  rw [value_twoPow52] at this
  linarith

theorem le_finite_positive_iff_value {m₁ m₂ : Nat} {e₁ e₂ : Int} {h₁ : 0 < m₁} {h₂ : 0 < m₂}
    (hc₁ : Canonical m₁ e₁) (hc₂ : Canonical m₂ e₂) :
    (finite .positive m₁ e₁ h₁).le (finite .positive m₂ e₂ h₂) = true ↔ value m₁ e₁ ≤ value m₂ e₂ := by
  rw [le_finite_positive]
  constructor
  · rintro (he | ⟨rfl, hm⟩)
    · exact (value_lt_of_exponent_lt hc₁ hc₂ he).le
    · exact value_le_value_same.mpr hm
  · intro hv
    rcases lt_trichotomy e₁ e₂ with he | rfl | he
    · exact Or.inl he
    · exact Or.inr ⟨rfl, value_le_value_same.mp hv⟩
    · exact absurd hv (not_le.mpr (value_lt_of_exponent_lt hc₂ hc₁ he))

theorem roundWithAccuracy_eq_round (s : Sign) {M : Nat} {E : Int}
    (h : E ≤ Format.binary64.targetExponent (totalExponent M E)) :
    roundWithAccuracy .binary64 s M E .exact = round .binary64 s M E := by
  unfold round decreaseExponent
  dsimp only
  rw [show (E - Format.binary64.targetExponent (totalExponent M E)).toNat = 0 by omega]
  simp

theorem exponent_le_target_mul {m₁ m₂ : Nat} {e₁ e₂ : Int} (h₁ : 0 < m₁) (h₂ : 0 < m₂)
    (hc₁ : Canonical m₁ e₁) (hc₂ : Canonical m₂ e₂) :
    e₁ + e₂ ≤ Format.binary64.targetExponent (totalExponent (m₁ * m₂) (e₁ + e₂)) := by
  simp only [targetExponent_binary64, totalExponent]
  by_cases hn : 2 ^ 52 ≤ m₁ * m₂
  · have := (Nat.le_log2 (Nat.mul_pos h₁ h₂).ne').mpr hn
    omega
  · have he₁ : e₁ = -1074 := hc₁.2.2.resolve_left fun h => hn (h.trans (Nat.le_mul_of_pos_right _ h₂))
    have he₂ : e₂ = -1074 := hc₂.2.2.resolve_left fun h => hn (h.trans (Nat.le_mul_of_pos_left _ h₁))
    omega

/-- The product of two positive canonical doubles is their exact product rounded. -/
theorem mul_finite_positive {m₁ m₂ : Nat} {e₁ e₂ : Int} (h₁ : 0 < m₁) (h₂ : 0 < m₂)
    (hc₁ : Canonical m₁ e₁) (hc₂ : Canonical m₂ e₂) :
    (finite .positive m₁ e₁ h₁).mul .binary64 (finite .positive m₂ e₂ h₂) =
      round .binary64 .positive (m₁ * m₂) (e₁ + e₂) :=
  roundWithAccuracy_eq_round .positive (exponent_le_target_mul h₁ h₂ hc₁ hc₂)

/-- A finite double of zero or more with its exact value: a zero of either sign, or a positive
canonical double whose exponent fits. -/
inductive NonNegValue : UnpackedFloat → ℚ → Prop
  | zero (s : Sign) : NonNegValue (.zero s) 0
  | finite {m : Nat} {e : Int} (h : 0 < m) (hc : Canonical m e) (he : e ≤ 971) :
      NonNegValue (.finite .positive m e h) (value m e)

namespace NonNegValue

variable {x y z : UnpackedFloat} {p q r : ℚ}

theorem nonneg (hx : NonNegValue x p) : 0 ≤ p := by
  cases hx with
  | zero => exact le_rfl
  | finite h => exact (value_pos h _).le

theorem unpack_pack (hx : NonNegValue x p) : (Float.Model.pack x).unpack = x := by
  cases hx with
  | zero s => exact Float.Model.unpack_pack_zero s
  | finite h hc he => exact unpack_pack_finite h hc he

theorem le_iff (hx : NonNegValue x p) (hy : NonNegValue y q) : x.le y = true ↔ p ≤ q := by
  cases hx with
  | zero s₁ =>
    cases hy with
    | zero s₂ => simp [UnpackedFloat.le, UnpackedFloat.compare]
    | finite h₂ => simp [UnpackedFloat.le, UnpackedFloat.compare, (value_pos h₂ _).le]
  | finite h₁ hc₁ =>
    cases hy with
    | zero s₂ => simp [UnpackedFloat.le, UnpackedFloat.compare, value_pos h₁]
    | finite h₂ hc₂ => exact le_finite_positive_iff_value hc₁ hc₂

theorem zero_le (hz : NonNegValue z r) (s : Sign) : (UnpackedFloat.zero s).le z = true :=
  ((NonNegValue.zero s).le_iff hz).mpr hz.nonneg

theorem round_le (hz : NonNegValue z r) {M : Nat} {E : Int} (hM : 0 < M) (hv : value M E ≤ r) :
    (Float.Model.pack (round .binary64 .positive M E)).unpack.le z = true := by
  cases hz with
  | zero s => exact absurd hv (not_le.mpr (value_pos hM E))
  | finite h hc he => exact round_le_of_value_le hM h hc he hv

theorem negative_le (hz : NonNegValue z r) {M : Nat} (hM : 0 < M) (E : Int) :
    (Float.Model.pack (round .binary64 .negative M E)).unpack.le z = true := by
  rcases round_cases .negative hM E rfl with ⟨hr, -⟩ | ⟨M', E', h, hr, hc, -⟩
  · rw [hr, Float.Model.unpack_pack_zero]
    exact hz.zero_le _
  · rw [hr]
    rcases unpack_pack_finite_cases (s := .negative) h hc with ⟨hback, -⟩ | hinf
    · rw [hback]
      cases hz <;> rfl
    · rw [hinf]
      cases hz <;> rfl

theorem mul_le (hx : NonNegValue x p) (hy : NonNegValue y q) (hz : NonNegValue z r)
    (h : p * q ≤ r) : (Float.Model.pack (x.mul .binary64 y)).unpack.le z = true := by
  cases hx with
  | zero s₁ =>
    cases hy with
    | zero s₂ =>
      rw [show (UnpackedFloat.zero s₁).mul .binary64 (.zero s₂) = .zero (s₁ * s₂) from rfl,
        Float.Model.unpack_pack_zero]
      exact hz.zero_le _
    | finite h₂ =>
      rw [show (UnpackedFloat.zero s₁).mul .binary64 (.finite .positive _ _ h₂) =
        .zero (s₁ * .positive) from rfl, Float.Model.unpack_pack_zero]
      exact hz.zero_le _
  | finite h₁ hc₁ =>
    cases hy with
    | zero s₂ =>
      rw [show (UnpackedFloat.finite .positive _ _ h₁).mul .binary64 (.zero s₂) =
        .zero (.positive * s₂) from rfl, Float.Model.unpack_pack_zero]
      exact hz.zero_le _
    | finite h₂ hc₂ =>
      rw [mul_finite_positive h₁ h₂ hc₁ hc₂]
      exact hz.round_le (Nat.mul_pos h₁ h₂) (by rwa [← value_mul])

theorem add_le (hx : NonNegValue x p) (hy : NonNegValue y q) (hz : NonNegValue z r)
    (h : p + q ≤ r) : (Float.Model.pack (x.add .binary64 y)).unpack.le z = true := by
  cases hx with
  | zero s₁ =>
    cases hy with
    | zero s₂ =>
      have hzero : ∃ s, (UnpackedFloat.zero s₁).add .binary64 (.zero s₂) = .zero s := by
        cases s₁ <;> cases s₂ <;> exact ⟨_, rfl⟩
      obtain ⟨s, hs⟩ := hzero
      rw [hs, Float.Model.unpack_pack_zero]
      exact hz.zero_le _
    | finite h₂ hc₂ he₂ =>
      rw [show (UnpackedFloat.zero s₁).add .binary64 (.finite .positive _ _ h₂) =
        .finite .positive _ _ h₂ from rfl, (NonNegValue.finite h₂ hc₂ he₂).unpack_pack]
      exact ((NonNegValue.finite h₂ hc₂ he₂).le_iff hz).mpr (by simpa using h)
  | finite h₁ hc₁ he₁ =>
    cases hy with
    | zero s₂ =>
      rw [show (UnpackedFloat.finite .positive _ _ h₁).add .binary64 (.zero s₂) =
        .finite .positive _ _ h₁ from rfl, (NonNegValue.finite h₁ hc₁ he₁).unpack_pack]
      exact ((NonNegValue.finite h₁ hc₁ he₁).le_iff hz).mpr (by simpa using h)
    | @finite m₂ e₂ h₂ hc₂ he₂ =>
      rename_i m₁ e₁
      have hsum : value (m₁ <<< (e₁ - min e₁ e₂).toNat + m₂ <<< (e₂ - min e₁ e₂).toNat)
          (min e₁ e₂) = value m₁ e₁ + value m₂ e₂ := by
        rw [← value_add, value_shiftLeft _ (min_le_left _ _), value_shiftLeft _ (min_le_right _ _)]
      have hpos : 0 < m₁ <<< (e₁ - min e₁ e₂).toNat + m₂ <<< (e₂ - min e₁ e₂).toNat := by
        simp only [Nat.shiftLeft_eq]
        positivity
      rw [add_finite, normalize_of_pos _ _ (by simp only [Sign.apply]; omega)]
      simp only [Sign.apply]
      rw [show ((m₁ <<< (e₁ - min e₁ e₂).toNat : Nat) + (m₂ <<< (e₂ - min e₁ e₂).toNat : Nat) :
          Int).toNat = m₁ <<< (e₁ - min e₁ e₂).toNat + m₂ <<< (e₂ - min e₁ e₂).toNat by omega]
      exact hz.round_le hpos (hsum ▸ h)

theorem sub_le (hx : NonNegValue x p) (hy : NonNegValue y q) :
    (Float.Model.pack (x.sub .binary64 y)).unpack.le x = true := by
  cases hx with
  | zero s₁ =>
    cases hy with
    | zero s₂ =>
      have hzero : ∃ s, (UnpackedFloat.zero s₁).sub .binary64 (.zero s₂) = .zero s := by
        cases s₁ <;> cases s₂ <;> exact ⟨_, rfl⟩
      obtain ⟨s, hs⟩ := hzero
      rw [hs, Float.Model.unpack_pack_zero]
      exact (NonNegValue.zero s₁).zero_le _
    | finite h₂ hc₂ he₂ =>
      rw [show (UnpackedFloat.zero s₁).sub .binary64 (.finite .positive _ _ h₂) =
        .finite .negative _ _ h₂ from rfl, unpack_pack_finite h₂ hc₂ he₂]
      rfl
  | finite h₁ hc₁ he₁ =>
    cases hy with
    | zero s₂ =>
      rw [show (UnpackedFloat.finite .positive _ _ h₁).sub .binary64 (.zero s₂) =
        .finite .positive _ _ h₁ from rfl, unpack_pack_finite h₁ hc₁ he₁]
      exact finite_le_self _ _ _ _
    | @finite m₂ e₂ h₂ hc₂ he₂ =>
      rename_i m₁ e₁
      have hx := NonNegValue.finite h₁ hc₁ he₁
      rw [sub_finite]
      simp only [Sign.apply]
      have hva : value (m₁ <<< (e₁ - min e₁ e₂).toNat) (min e₁ e₂) = value m₁ e₁ :=
        value_shiftLeft _ (min_le_left _ _)
      generalize m₁ <<< (e₁ - min e₁ e₂).toNat = a at hva ⊢
      generalize m₂ <<< (e₂ - min e₁ e₂).toNat = b
      rcases lt_trichotomy (b : Int) a with hlt | heq | hgt
      · rw [normalize_of_pos _ _ (by omega), show ((a : Int) - b).toNat = a - b by omega]
        refine hx.round_le (by omega) ?_
        rw [← hva]
        exact value_le_value_same.mpr (Nat.sub_le _ _)
      · rw [heq, sub_self, normalize_zero, Float.Model.unpack_pack_zero]
        exact hx.zero_le _
      · rw [normalize_of_neg _ _ (by omega)]
        exact hx.negative_le (by omega) _

theorem nonNeg_mul (hx : NonNegValue x p) (hy : NonNegValue y q) :
    NonNeg (Float.Model.pack (x.mul .binary64 y)).unpack := by
  cases hx with
  | zero s₁ =>
    cases hy with
    | zero s₂ =>
      rw [show (UnpackedFloat.zero s₁).mul .binary64 (.zero s₂) = .zero (s₁ * s₂) from rfl,
        Float.Model.unpack_pack_zero]
      cases s₁ <;> cases s₂
      exacts [.inl .zero, .inr rfl, .inr rfl, .inl .zero]
    | finite h₂ =>
      rw [show (UnpackedFloat.zero s₁).mul .binary64 (.finite .positive _ _ h₂) =
        .zero (s₁ * .positive) from rfl, Float.Model.unpack_pack_zero]
      cases s₁
      exacts [.inr rfl, .inl .zero]
  | finite h₁ hc₁ =>
    cases hy with
    | zero s₂ =>
      rw [show (UnpackedFloat.finite .positive _ _ h₁).mul .binary64 (.zero s₂) =
        .zero (.positive * s₂) from rfl, Float.Model.unpack_pack_zero]
      cases s₂
      exacts [.inr rfl, .inl .zero]
    | finite h₂ hc₂ =>
      rw [mul_finite_positive h₁ h₂ hc₁ hc₂]
      exact .inl (isPlus_unpack_pack (isPlus_round _ _))

end NonNegValue

theorem ofNat_of_pos {n : Nat} (hn : 0 < n) : ofNat .binary64 n = round .binary64 .positive n 0 := by
  simp [ofNat, ofInt, normalize_of_pos 0 .positive (Int.natCast_pos.mpr hn)]

theorem nonNegValue_ofNat {n : Nat} (h53 : n ≤ 2 ^ 53) :
    NonNegValue (Float.Model.pack (ofNat .binary64 n)).unpack n := by
  rcases Nat.eq_zero_or_pos n with rfl | hn
  · rw [show ofNat .binary64 0 = .zero .positive from rfl, Float.Model.unpack_pack_zero]
    simpa using NonNegValue.zero .positive
  set t := Format.binary64.targetExponent (totalExponent n 0) with ht
  have hlog : n.log2 < 54 := (Nat.log2_lt hn.ne').mpr (by omega)
  have htval : t = max ((n.log2 : Int) - 52) (-1074) := by
    simp only [ht, targetExponent_binary64, totalExponent]
    omega
  have hdvd : 2 ^ t.toNat ∣ n * 2 ^ (-t).toNat := by
    by_cases htpos : t ≤ 0
    · rw [show t.toNat = 0 by omega, pow_zero]
      exact one_dvd _
    · have hl : n.log2 = 53 := by omega
      have hn53 : n = 2 ^ 53 := le_antisymm h53 (hl ▸ Nat.log2_self_le hn.ne')
      rw [show t.toNat = 1 by omega, hn53]
      exact Dvd.dvd.mul_right (dvd_pow_self 2 (by norm_num)) _
  have hq : n * 2 ^ (-t).toNat / 2 ^ t.toNat * 2 ^ (t - 0).toNat = n * 2 ^ (0 - t).toNat := by
    simpa using Nat.div_mul_cancel hdvd
  have hq0 : 0 < n * 2 ^ (-t).toNat / 2 ^ t.toNat :=
    Nat.div_pos (Nat.le_of_dvd (by positivity) hdvd) (by positivity)
  have hround := round_of_exact .positive hn 0 ht hq0 hq
  obtain ⟨hq53, hq52⟩ := floorAt_target hn 0
  rw [← ht, show floorAt n 0 t = n * 2 ^ (-t).toNat / 2 ^ t.toNat by simp [floorAt]] at hq53 hq52
  have hc : Canonical (n * 2 ^ (-t).toNat / 2 ^ t.toNat) t :=
    ⟨hq53, by omega, hq52⟩
  have hval : value (n * 2 ^ (-t).toNat / 2 ^ t.toNat) t = n := by
    rw [(value_eq_value_iff _ _ _ _).mpr hq, value]
    simp
  rw [ofNat_of_pos hn, hround,
    unpack_pack_finite hq0 hc (by omega), ← hval]
  exact .finite hq0 hc (by omega)

theorem isFinite_ofNat {n : Nat} (h : n < 2 ^ 64) :
    (Float.Model.pack (ofNat .binary64 n)).unpack.isFinite = true := by
  rcases Nat.eq_zero_or_pos n with rfl | hn
  · rw [show ofNat .binary64 0 = .zero .positive from rfl, Float.Model.unpack_pack_zero]
    rfl
  have hlog : n.log2 < 64 := (Nat.log2_lt hn.ne').mpr h
  rw [ofNat_of_pos hn]
  rcases round_cases .positive hn 0 rfl with ⟨hr, -⟩ | ⟨M, E, hM, hr, hc, hcase⟩
  · rw [hr, Float.Model.unpack_pack_zero]
    rfl
  · have hE : E ≤ 971 := by
      simp only [targetExponent_binary64, totalExponent] at hcase
      omega
    rw [hr, unpack_pack_finite hM hc hE]
    rfl

theorem div_twoPow53 {m : Nat} {e : Int} (hm : 0 < m) (hc : Canonical m e) (he : -52 ≤ e) :
    (UnpackedFloat.finite .positive m e hm).div .binary64
        (.finite .positive (2 ^ 52) 1 (by positivity)) = .finite .positive m (e - 53) hm := by
  have hnorm : 2 ^ 52 ≤ m := hc.2.2.resolve_right (by omega)
  have hlog : m.log2 = 52 := by
    have h1 := (Nat.le_log2 hm.ne').mpr hnorm
    have h2 := (Nat.log2_lt hm.ne').mpr hc.1
    omega
  -- the quotient is taken with 53 extra bits and no remainder: twice the mantissa at `e - 54`
  have hcore : divCore .binary64 m e (2 ^ 52) 1 = (2 * m, e - 54, .exact) := by
    have htarget : min (e - 1) (Format.binary64.targetExponent
        (totalExponent m e - totalExponent (2 ^ 52) 1)) = e - 54 := by
      simp only [targetExponent_binary64, totalExponent, hlog, Nat.log2_two_pow]
      omega
    simp only [divCore, htarget, show (e - 1 - (e - 54)).toNat = 53 by omega, Nat.shiftLeft_eq,
      show m * 2 ^ 53 = 2 * m * 2 ^ 52 by ring, Nat.mul_div_cancel _ (by positivity : 0 < 2 ^ 52),
      Nat.mul_mod_left]
    rfl
  have hexp : e - 54 ≤ Format.binary64.targetExponent (totalExponent (2 * m) (e - 54)) := by
    have hlog2 : (2 * m).log2 = 53 := by
      rw [show 2 * m = m <<< 1 by rw [Nat.shiftLeft_eq]; ring, log2_shiftLeft hm, hlog]
    simp only [targetExponent_binary64, totalExponent, hlog2]
    omega
  have hval : value (2 * m) (e - 54) = value m (e - 53) := by
    rw [value_eq_value_iff, show (e - 54 - (e - 53)).toNat = 0 by omega,
      show (e - 53 - (e - 54)).toNat = 1 by omega]
    ring
  simp only [UnpackedFloat.div, hcore]
  rw [show Sign.positive / Sign.positive = .positive from rfl,
    roundWithAccuracy_eq_round .positive hexp]
  exact round_of_value_eq .positive hm ⟨hc.1, by omega, Or.inl hnorm⟩ hval

end Float.Model.UnpackedFloat

namespace Float

open Float.Model Float.Model.UnpackedFloat

variable {x y z : Float} {p q r : ℚ}

theorem nonNegValue_of_isFinite (h0 : 0 ≤ x) (hf : x.isFinite = true) :
    ∃ p, NonNegValue x.toModel.unpack p := by
  rw [zero_le_iff] at h0
  change x.toModel.unpack.isFinite = true at hf
  obtain ⟨X, hX⟩ : ∃ X, x.toModel.unpack = X := ⟨_, rfl⟩
  rw [hX] at h0 hf ⊢
  rcases h0 with h0 | rfl
  · cases h0 with
    | zero => exact ⟨0, .zero _⟩
    | finite m e h =>
      obtain ⟨hc, he⟩ := canonical_of_unpack hX
      exact ⟨_, .finite h hc he⟩
    | infinity => cases hf
  · exact ⟨0, .zero _⟩

theorem nonNegValue_of_le (h0 : 0 ≤ x) (h : x ≤ y) (hy : NonNegValue y.toModel.unpack q) :
    ∃ p, NonNegValue x.toModel.unpack p ∧ p ≤ q := by
  rw [zero_le_iff] at h0
  rw [le_iff_unpack] at h
  obtain ⟨X, hX⟩ : ∃ X, x.toModel.unpack = X := ⟨_, rfl⟩
  obtain ⟨Y, hY⟩ : ∃ Y, y.toModel.unpack = Y := ⟨_, rfl⟩
  rw [hX] at h0 h ⊢
  rw [hY] at h hy
  rcases h0 with h0 | rfl
  · cases h0 with
    | zero => exact ⟨0, .zero _, hy.nonneg⟩
    | finite m e hm =>
      obtain ⟨hc, he⟩ := canonical_of_unpack hX
      exact ⟨_, .finite hm hc he, ((NonNegValue.finite hm hc he).le_iff hy).mp h⟩
    | infinity => cases hy <;> cases h
  · exact ⟨0, .zero _, hy.nonneg⟩

theorem nonNegValue_toFloat (n : UInt64) (h : n.toNat ≤ 2 ^ 53) :
    NonNegValue n.toFloat.toModel.unpack n.toNat :=
  nonNegValue_ofNat h

theorem isFinite_toFloat (n : UInt64) : n.toFloat.isFinite = true :=
  isFinite_ofNat n.toBitVec.isLt

theorem zero_le_of_nonNegValue (hx : NonNegValue x.toModel.unpack p) : 0 ≤ x := by
  rw [le_iff_unpack, unpack_zero]
  exact hx.zero_le _

theorem isFinite_of_nonNegValue (hx : NonNegValue x.toModel.unpack p) : x.isFinite = true := by
  change x.toModel.unpack.isFinite = true
  obtain ⟨X, hX⟩ : ∃ X, x.toModel.unpack = X := ⟨_, rfl⟩
  rw [hX] at hx ⊢
  cases hx <;> rfl

theorem le_iff_value (hx : NonNegValue x.toModel.unpack p) (hy : NonNegValue y.toModel.unpack q) :
    x ≤ y ↔ p ≤ q := by
  rw [le_iff_unpack]
  exact hx.le_iff hy

theorem mul_le_of_value (hx : NonNegValue x.toModel.unpack p) (hy : NonNegValue y.toModel.unpack q)
    (hz : NonNegValue z.toModel.unpack r) (h : p * q ≤ r) : x * y ≤ z := by
  rw [le_iff_unpack, unpack_mul]
  exact hx.mul_le hy hz h

theorem add_le_of_value (hx : NonNegValue x.toModel.unpack p) (hy : NonNegValue y.toModel.unpack q)
    (hz : NonNegValue z.toModel.unpack r) (h : p + q ≤ r) : x + y ≤ z := by
  rw [le_iff_unpack, unpack_add]
  exact hx.add_le hy hz h

theorem sub_le_self (hx : NonNegValue x.toModel.unpack p) (hy : NonNegValue y.toModel.unpack q) :
    x - y ≤ x := by
  rw [le_iff_unpack, unpack_sub]
  exact hx.sub_le hy

theorem zero_le_mul (hx : NonNegValue x.toModel.unpack p) (hy : NonNegValue y.toModel.unpack q) :
    0 ≤ x * y := by
  rw [zero_le_iff, unpack_mul]
  exact hx.nonNeg_mul hy

end Float
