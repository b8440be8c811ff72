import Mathlib
import XrDelivery.Proofs.DoubleOrder
import XrDelivery.Proofs.WireCodec
import XrDelivery.Link.DeliveryQueue

/-!
# Doubles with the plus sign

The instants of a run are built from doubles that are zero or more: poll instants, the
serialization time of a datagram, the link's delay and a packet's jitter. The doubles with the
plus sign that are not NaN, `+0`, the positive finite doubles and `+∞` (`Float.IsPlus`), stay
among themselves when a double that is zero or more is added (`Float.IsPlus.add`), and never
go down (`Float.IsPlus.le_add`). A product or a quotient of two of them is one of them or NaN
(`0 · ∞`, `0 / 0`, `∞ / ∞`), and NaN spreads through every operation (`Float.PlusOrNaN`,
`Float.isNaN_add`).

On plus doubles the order of doubles is the order of their bit patterns read as naturals
(`compare_eq_compare_plusBits`), which is their place in the total order of doubles
(`totalKey_of_isPlus`). So `<` and `≤` on plus instants agree with the order the delivery queue
keeps (`Float.IsPlus.le_iff_totalKey`).
-/

namespace Float.Model.UnpackedFloat

/-- A number with the plus sign: `+0`, a positive finite value or `+∞`. -/
inductive IsPlus : UnpackedFloat → Prop
  | zero : IsPlus (.zero .positive)
  | finite (m : Nat) (e : Int) (h : 0 < m) : IsPlus (.finite .positive m e h)
  | infinity : IsPlus (.infinity .positive)

/-- Zero or more: a plus number or `-0`. -/
def NonNeg (x : UnpackedFloat) : Prop := IsPlus x ∨ x = .zero .negative

variable {spec : Format} {x y : UnpackedFloat}

theorem isPlus_roundWithAccuracy (m : Nat) (e : Int) (acc : Accuracy) :
    IsPlus (roundWithAccuracy spec .positive m e acc) := by
  unfold roundWithAccuracy
  dsimp only
  split
  · exact .zero
  · exact .finite _ _ _

theorem isPlus_round (m : Nat) (e : Int) : IsPlus (round spec .positive m e) := by
  unfold round
  exact isPlus_roundWithAccuracy _ _ _

theorem isPlus_add_finite {m₁ m₂ : Nat} {e₁ e₂ : Int} (h₁ : 0 < m₁) (h₂ : 0 < m₂) :
    IsPlus ((finite .positive m₁ e₁ h₁).add spec (finite .positive m₂ e₂ h₂)) := by
  simp only [UnpackedFloat.add, decreaseExponent, Sign.apply]
  rw [normalize_of_pos _ _ (by simp only [Nat.shiftLeft_eq]; positivity)]
  exact isPlus_round _ _

theorem isPlus_add (hx : IsPlus x) (hy : NonNeg y) : IsPlus (x.add spec y) := by
  rcases hy with hy | rfl
  · cases hx with
    | zero =>
      cases hy with
      | zero => exact .zero
      | finite m e h => exact .finite m e h
      | infinity => exact .infinity
    | finite m₁ e₁ h₁ =>
      cases hy with
      | zero => exact .finite m₁ e₁ h₁
      | finite m₂ e₂ h₂ => exact isPlus_add_finite h₁ h₂
      | infinity => exact .infinity
    | infinity =>
      cases hy with
      | zero => exact .infinity
      | finite m e h => exact .infinity
      | infinity => exact .infinity
  · cases hx with
    | zero => exact .zero
    | finite m e h => exact .finite m e h
    | infinity => exact .infinity

theorem isPlus_add_of_nonNeg (hx : NonNeg x) (hy : IsPlus y) : IsPlus (x.add spec y) := by
  rcases hx with hx | rfl
  · exact isPlus_add hx (.inl hy)
  · cases hy with
    | zero => exact .zero
    | finite m e h => exact .finite m e h
    | infinity => exact .infinity

theorem isPlus_mul (hx : IsPlus x) (hy : IsPlus y) :
    IsPlus (x.mul spec y) ∨ x.mul spec y = .notANumber := by
  cases hx with
  | zero =>
    cases hy with
    | zero => exact .inl .zero
    | finite m e h => exact .inl .zero
    | infinity => exact .inr rfl
  | finite m₁ e₁ h₁ =>
    cases hy with
    | zero => exact .inl .zero
    | finite m₂ e₂ h₂ => exact .inl (isPlus_roundWithAccuracy _ _ _)
    | infinity => exact .inl .infinity
  | infinity =>
    cases hy with
    | zero => exact .inr rfl
    | finite m e h => exact .inl .infinity
    | infinity => exact .inl .infinity

theorem isPlus_div (hx : IsPlus x) (hy : IsPlus y) :
    IsPlus (x.div spec y) ∨ x.div spec y = .notANumber := by
  cases hx with
  | zero =>
    cases hy with
    | zero => exact .inr rfl
    | finite m e h => exact .inl .zero
    | infinity => exact .inl .zero
  | finite m₁ e₁ h₁ =>
    cases hy with
    | zero => exact .inl .infinity
    | finite m₂ e₂ h₂ => exact .inl (isPlus_roundWithAccuracy _ _ _)
    | infinity => exact .inl .zero
  | infinity =>
    cases hy with
    | zero => exact .inl .infinity
    | finite m e h => exact .inl .infinity
    | infinity => exact .inr rfl

instance : DecidablePred IsPlus := fun x =>
  match x with
  | .zero .positive => isTrue .zero
  | .zero .negative => isFalse (by rintro ⟨⟩)
  | .finite .positive m e h => isTrue (.finite m e h)
  | .finite .negative _ _ _ => isFalse (by rintro ⟨⟩)
  | .infinity .positive => isTrue .infinity
  | .infinity .negative => isFalse (by rintro ⟨⟩)
  | .notANumber => isFalse (by rintro ⟨⟩)

theorem IsPlus.ne_notANumber {x : UnpackedFloat} (hx : IsPlus x) : x ≠ .notANumber := by
  cases hx <;> simp

theorem add_notANumber_right (spec : Format) (x : UnpackedFloat) : x.add spec .notANumber = .notANumber := by
  cases x <;> rfl

theorem mul_notANumber_right (spec : Format) (x : UnpackedFloat) : x.mul spec .notANumber = .notANumber := by
  cases x <;> rfl

theorem div_notANumber_right (spec : Format) (x : UnpackedFloat) : x.div spec .notANumber = .notANumber := by
  cases x <;> rfl

theorem isPlus_ofNat (n : Nat) : IsPlus (ofNat spec n) := by
  unfold ofNat ofInt normalize
  split
  · rename_i h
    rw [Int.compare_eq_lt] at h
    omega
  · exact .zero
  · exact isPlus_round _ _

theorem isPlus_ofScientific (m : Nat) (e : Int) : IsPlus (ofScientific spec m e) := by
  unfold ofScientific
  split_ifs
  · exact .zero
  · exact .infinity
  · exact .zero
  · exact isPlus_roundWithAccuracy _ _ _
  · exact isPlus_roundWithAccuracy _ _ _

@[simp] theorem isPlus_zero_iff {s : Sign} : IsPlus (.zero s) ↔ s = .positive :=
  ⟨by rintro ⟨⟩; rfl, by rintro rfl; exact .zero⟩

@[simp] theorem isPlus_finite_iff {s : Sign} {m : Nat} {e : Int} {h : 0 < m} :
    IsPlus (.finite s m e h) ↔ s = .positive :=
  ⟨by rintro ⟨⟩; rfl, by rintro rfl; exact .finite m e h⟩

@[simp] theorem isPlus_infinity_iff {s : Sign} : IsPlus (.infinity s) ↔ s = .positive :=
  ⟨by rintro ⟨⟩; rfl, by rintro rfl; exact .infinity⟩

@[simp] theorem not_isPlus_notANumber : ¬IsPlus .notANumber := by rintro ⟨⟩

theorem isPlus_or_nan_add (hx : NonNeg x ∨ x = .notANumber) (hy : IsPlus y ∨ y = .notANumber) :
    IsPlus (x.add spec y) ∨ x.add spec y = .notANumber := by
  rcases hx with hx | rfl
  · rcases hy with hy | rfl
    · exact .inl (isPlus_add_of_nonNeg hx hy)
    · exact .inr (add_notANumber_right _ _)
  · exact .inr rfl

theorem isPlus_or_nan_mul (hx : IsPlus x ∨ x = .notANumber) (hy : IsPlus y ∨ y = .notANumber) :
    IsPlus (x.mul spec y) ∨ x.mul spec y = .notANumber := by
  rcases hx with hx | rfl
  · rcases hy with hy | rfl
    · exact isPlus_mul hx hy
    · exact .inr (mul_notANumber_right _ _)
  · exact .inr rfl

theorem isPlus_or_nan_div (hx : IsPlus x ∨ x = .notANumber) (hy : IsPlus y ∨ y = .notANumber) :
    IsPlus (x.div spec y) ∨ x.div spec y = .notANumber := by
  rcases hx with hx | rfl
  · rcases hy with hy | rfl
    · exact isPlus_div hx hy
    · exact .inr (div_notANumber_right _ _)
  · exact .inr rfl

protected theorem add_comm (spec : Format) (x y : UnpackedFloat) : x.add spec y = y.add spec x := by
  cases x <;> cases y
  case zero.zero s₁ s₂ => cases s₁ <;> cases s₂ <;> rfl
  case infinity.infinity s₁ s₂ => cases s₁ <;> cases s₂ <;> rfl
  case finite.finite s₁ m₁ e₁ h₁ s₂ m₂ e₂ h₂ =>
    simp only [UnpackedFloat.add]
    rw [min_comm e₂ e₁, Int.add_comm]
  all_goals rfl

theorem isPlus_unpack_packComponents {E : BitVec 11} {M : BitVec 52} (hE : E ≠ -1#11) :
    IsPlus (UnpackedFloat.unpack .binary64 (packComponents .binary64 .positive E M)) := by
  unfold UnpackedFloat.unpack
  simp only [unpackExponent_packComponents, unpackMantissa_packComponents,
    unpackSign_packComponents, Sign.ofBitVec_toBitVec]
  rw [if_neg hE]
  split
  · split
    · exact .zero
    · exact .finite _ _ _
  · exact .finite _ _ _

theorem isPlus_unpack_pack (hx : IsPlus x) : IsPlus (Float.Model.pack x).unpack := by
  cases hx with
  | zero => rw [Float.Model.unpack_pack_zero]; exact .zero
  | infinity => rw [Float.Model.unpack_pack_infinity]; exact .infinity
  | finite m e h =>
    unfold Float.Model.unpack Float.Model.pack
    simp only [pack_finite]
    split
    · have hinf := Float.Model.unpack_pack_infinity .positive
      unfold Float.Model.unpack Float.Model.pack at hinf
      simp only [UnpackedFloat.pack] at hinf
      rw [hinf]
      exact .infinity
    · split
      · apply isPlus_unpack_packComponents
        intro hE
        have := congrArg BitVec.toNat hE
        simp at this
        omega
      · exact isPlus_unpack_packComponents (by decide)

/-- The bit pattern of a plus number read as a natural: `(e + 1074) · 2^52 + m` for a finite one
in canonical form, whether normal or subnormal. -/
def plusBits : UnpackedFloat → Nat
  | .zero _ => 0
  | .finite _ m e _ => (e + 1074).toNat * Nat.pow 2 52 + m
  | .infinity _ => 2047 * Nat.pow 2 52
  | .notANumber => 0

theorem toNat_packComponents_positive (E : BitVec 11) (M : BitVec 52) :
    (packComponents .binary64 .positive E M).toNat = E.toNat * Nat.pow 2 52 + M.toNat := by
  have hM := M.isLt
  simp only [packComponents, Sign.toBitVec, BitVec.toNat_append]
  rw [← Nat.shiftLeft_add_eq_or_of_lt hM, Nat.shiftLeft_eq]
  simp

theorem toNat_eq_plusBits {b : BitVec 64} (h : IsPlus (UnpackedFloat.unpack .binary64 b)) :
    b.toNat = plusBits (UnpackedFloat.unpack .binary64 b) := by
  obtain ⟨s, E, M, rfl⟩ : ∃ s E M, b = packComponents .binary64 s E M :=
    ⟨_, _, _, (XrDelivery.packComponents_unpack_fields b).symm⟩
  have hE := E.isLt
  have hM := M.isLt
  unfold UnpackedFloat.unpack at h ⊢
  simp only [unpackExponent_packComponents, unpackMantissa_packComponents,
    unpackSign_packComponents, Sign.ofBitVec_toBitVec] at h ⊢
  cases s with
  | negative => split_ifs at h <;> cases h
  | positive =>
    rw [toNat_packComponents_positive]
    have h52 : Nat.pow 2 52 = 4503599627370496 := rfl
    have hbias : Format.binary64.exponentBias = 1023 := by decide
    split_ifs at h ⊢ with h1 h2 h3 h4
    · subst h1 h2
      rfl
    · cases h
    · subst h3 h4
      rfl
    · subst h3
      simp [plusBits, hbias]
    · have hE0 : E.toNat ≠ 0 := fun h0 => h3 (BitVec.eq_of_toNat_eq (by simpa using h0))
      have hval : (1#1 ++ M).toNat = Nat.pow 2 52 + M.toNat := by
        rw [BitVec.toNat_append, ← Nat.shiftLeft_add_eq_or_of_lt hM, Nat.shiftLeft_eq]
        simp
      simp only [plusBits, hval, hbias, h52] at ⊢
      omega

/-- Canonical finite doubles of one sign compare, exponent first, as their bit patterns do. -/
theorem compare_then_eq_compare_plusBits {m₁ m₂ : Nat} {e₁ e₂ : Int} (hc₁ : Canonical m₁ e₁)
    (hc₂ : Canonical m₂ e₂) :
    (compare e₁ e₂).then (compare m₁ m₂) =
      compare ((e₁ + 1074).toNat * Nat.pow 2 52 + m₁) ((e₂ + 1074).toNat * Nat.pow 2 52 + m₂) := by
  obtain ⟨hlt₁, hle₁, hn₁⟩ := hc₁
  obtain ⟨hlt₂, hle₂, hn₂⟩ := hc₂
  have h52 : Nat.pow 2 52 = 4503599627370496 := rfl
  have h52' : (2 : Nat) ^ 52 = 4503599627370496 := rfl
  have h53 : (2 : Nat) ^ 53 = 9007199254740992 := rfl
  rw [h52]
  rw [h52'] at hn₁ hn₂
  rw [h53] at hlt₁ hlt₂
  rcases lt_trichotomy e₁ e₂ with he | rfl | he
  · rw [Int.compare_eq_lt.mpr he, Ordering.lt_then, eq_comm, Nat.compare_eq_lt]
    omega
  · rw [Int.compare_eq_eq.mpr rfl, Ordering.eq_then]
    rcases lt_trichotomy m₁ m₂ with hm | rfl | hm
    · rw [Nat.compare_eq_lt.mpr hm, eq_comm, Nat.compare_eq_lt]
      omega
    · simp
    · rw [Nat.compare_eq_gt.mpr hm, eq_comm, Nat.compare_eq_gt]
      omega
  · rw [Int.compare_eq_gt.mpr he, Ordering.gt_then, eq_comm, Nat.compare_eq_gt]
    omega

theorem plusBits_finite_bounds {x : Float.Model} {m : Nat} {e : Int} {h : 0 < m}
    (hx : x.unpack = .finite .positive m e h) :
    0 < plusBits (.finite .positive m e h) ∧ plusBits (.finite .positive m e h) < 2047 * Nat.pow 2 52 := by
  obtain ⟨⟨hlt, hle, -⟩, he⟩ := canonical_of_unpack hx
  have h52 : Nat.pow 2 52 = 4503599627370496 := rfl
  have h53 : (2 : Nat) ^ 53 = 9007199254740992 := rfl
  rw [h53] at hlt
  simp only [plusBits, h52]
  omega

theorem compare_eq_compare_plusBits {u v : Float.Model} (hu : IsPlus u.unpack)
    (hv : IsPlus v.unpack) :
    u.unpack.compare v.unpack = some (compare (plusBits u.unpack) (plusBits v.unpack)) := by
  obtain ⟨U, hU⟩ : ∃ U, u.unpack = U := ⟨_, rfl⟩
  obtain ⟨V, hV⟩ : ∃ V, v.unpack = V := ⟨_, rfl⟩
  rw [hU] at hu ⊢
  rw [hV] at hv ⊢
  cases hu with
  | zero =>
    cases hv with
    | zero => rfl
    | finite m e h =>
      have := (plusBits_finite_bounds hV).1
      show some Ordering.lt = _
      rw [Option.some.injEq, eq_comm, Nat.compare_eq_lt]
      exact this
    | infinity => rfl
  | finite m₁ e₁ h₁ =>
    cases hv with
    | zero =>
      have := (plusBits_finite_bounds hU).1
      show some Ordering.gt = _
      rw [Option.some.injEq, eq_comm, Nat.compare_eq_gt]
      exact this
    | finite m₂ e₂ h₂ =>
      show some ((compare e₁ e₂).then (compare m₁ m₂)) = _
      rw [compare_then_eq_compare_plusBits (canonical_of_unpack hU).1 (canonical_of_unpack hV).1]
      rfl
    | infinity =>
      have := (plusBits_finite_bounds hU).2
      show some Ordering.lt = _
      rw [Option.some.injEq, eq_comm, Nat.compare_eq_lt]
      exact this
  | infinity =>
    cases hv with
    | zero => rfl
    | finite m e h =>
      have := (plusBits_finite_bounds hV).2
      show some Ordering.gt = _
      rw [Option.some.injEq, eq_comm, Nat.compare_eq_gt]
      exact this
    | infinity => rfl

end Float.Model.UnpackedFloat

namespace Float

open Float.Model Float.Model.UnpackedFloat

/-- A double with the plus sign that is not NaN: `+0`, a positive finite double or `+∞`. -/
def IsPlus (x : Float) : Prop := x.toModel.unpack.IsPlus

instance : DecidablePred Float.IsPlus := fun x => inferInstanceAs (Decidable x.toModel.unpack.IsPlus)

/-- A plus double or NaN: what sums, products and quotients of plus doubles give. -/
def PlusOrNaN (x : Float) : Prop := x.IsPlus ∨ x.isNaN = true

variable {x y z lo : Float}

theorem unpack_add (x y : Float) :
    (x + y).toModel.unpack = (pack (x.toModel.unpack.add .binary64 y.toModel.unpack)).unpack := rfl

theorem unpack_mul (x y : Float) :
    (x * y).toModel.unpack = (pack (x.toModel.unpack.mul .binary64 y.toModel.unpack)).unpack := rfl

theorem unpack_div (x y : Float) :
    (x / y).toModel.unpack = (pack (x.toModel.unpack.div .binary64 y.toModel.unpack)).unpack := rfl

theorem unpack_sub (x y : Float) :
    (x - y).toModel.unpack = (pack (x.toModel.unpack.sub .binary64 y.toModel.unpack)).unpack := rfl

theorem isNaN_iff : x.isNaN = true ↔ x.toModel.unpack = .notANumber := by
  show x.toModel.unpack.isNaN = true ↔ _
  cases x.toModel.unpack <;> simp [UnpackedFloat.isNaN]

theorem IsPlus.isNaN (hx : x.IsPlus) : x.isNaN = false := by
  rw [← Bool.not_eq_true, isNaN_iff]
  exact IsPlus.ne_notANumber hx

theorem IsPlus.plusOrNaN (hx : x.IsPlus) : x.PlusOrNaN := .inl hx

theorem PlusOrNaN.isPlus (hx : x.PlusOrNaN) (hn : x.isNaN = false) : x.IsPlus := by
  rcases hx with hx | hx
  · exact hx
  · rw [hn] at hx
    cases hx

/-- A NaN operand makes NaN, so a result that is not NaN had operands that are not. -/
theorem not_notANumber_of_pack {op : UnpackedFloat → UnpackedFloat → UnpackedFloat}
    (hr : ∀ a, op a .notANumber = .notANumber) {a b : UnpackedFloat}
    (hl : op .notANumber b = .notANumber) (h : (pack (op a b)).unpack ≠ .notANumber) :
    a ≠ .notANumber ∧ b ≠ .notANumber := by
  constructor
  · rintro rfl
    rw [hl] at h
    exact h unpack_pack_notANumber
  · rintro rfl
    rw [hr] at h
    exact h unpack_pack_notANumber

theorem isNaN_add (h : (x + y).isNaN = false) : x.isNaN = false ∧ y.isNaN = false := by
  simp only [← Bool.not_eq_true, isNaN_iff, unpack_add] at h ⊢
  exact not_notANumber_of_pack (add_notANumber_right _) rfl h

theorem isNaN_mul (h : (x * y).isNaN = false) : x.isNaN = false ∧ y.isNaN = false := by
  simp only [← Bool.not_eq_true, isNaN_iff, unpack_mul] at h ⊢
  exact not_notANumber_of_pack (mul_notANumber_right _) rfl h

theorem isNaN_div (h : (x / y).isNaN = false) : x.isNaN = false ∧ y.isNaN = false := by
  simp only [← Bool.not_eq_true, isNaN_iff, unpack_div] at h ⊢
  exact not_notANumber_of_pack (div_notANumber_right _) rfl h

theorem unpack_zero : (0 : Float).toModel.unpack = .zero .positive := rfl

theorem plusOrNaN_iff : x.PlusOrNaN ↔ UnpackedFloat.IsPlus x.toModel.unpack ∨ x.toModel.unpack = .notANumber := by
  rw [PlusOrNaN, isNaN_iff]
  rfl

theorem plusOrNaN_pack {u : UnpackedFloat} (h : UnpackedFloat.IsPlus u ∨ u = .notANumber) :
    UnpackedFloat.IsPlus (pack u).unpack ∨ (pack u).unpack = .notANumber := by
  rcases h with h | rfl
  · exact .inl (isPlus_unpack_pack h)
  · exact .inr unpack_pack_notANumber

theorem zero_le_iff : 0 ≤ x ↔ NonNeg x.toModel.unpack := by
  rw [le_iff_unpack, unpack_zero]
  cases x.toModel.unpack with
  | zero s => cases s <;> simp [NonNeg, UnpackedFloat.le, UnpackedFloat.compare]
  | finite s m e h => cases s <;> simp [NonNeg, UnpackedFloat.le, UnpackedFloat.compare]
  | infinity s => cases s <;> simp [NonNeg, UnpackedFloat.le, UnpackedFloat.compare]
  | notANumber => simp [NonNeg, UnpackedFloat.le, UnpackedFloat.compare]

theorem not_lt_zero_iff : ¬x < 0 ↔ NonNeg x.toModel.unpack ∨ x.toModel.unpack = .notANumber := by
  rw [lt_iff_unpack, unpack_zero]
  cases x.toModel.unpack with
  | zero s => cases s <;> simp [NonNeg, UnpackedFloat.compare]
  | finite s m e h => cases s <;> simp [NonNeg, UnpackedFloat.compare]
  | infinity s => cases s <;> simp [NonNeg, UnpackedFloat.compare]
  | notANumber => simp [UnpackedFloat.compare]

theorem IsPlus.zero_le (hx : x.IsPlus) : 0 ≤ x := zero_le_iff.mpr (.inl hx)

theorem not_lt_zero_of_nonneg (hx : 0 ≤ x) : ¬x < 0 := not_lt_zero_iff.mpr (.inl (zero_le_iff.mp hx))

theorem PlusOrNaN.not_lt_zero (hx : x.PlusOrNaN) : ¬x < 0 := by
  rw [plusOrNaN_iff] at hx
  exact not_lt_zero_iff.mpr (hx.imp_left .inl)

theorem nonneg_of_not_lt_zero (hx : ¬x < 0) (hn : x.isNaN = false) : 0 ≤ x := by
  rcases not_lt_zero_iff.mp hx with hx | hx
  · exact zero_le_iff.mpr hx
  · rw [← isNaN_iff, hn] at hx
    cases hx

theorem plusOrNaN_of_not_le_zero (h : ¬x ≤ 0) : x.PlusOrNaN := by
  rw [le_iff_unpack, unpack_zero] at h
  rw [plusOrNaN_iff]
  cases hx : x.toModel.unpack with
  | zero s => rw [hx] at h; cases s <;> simp [UnpackedFloat.le, UnpackedFloat.compare] at h
  | finite s m e hm =>
    cases s with
    | positive => exact .inl (.finite m e hm)
    | negative => rw [hx] at h; simp [UnpackedFloat.le, UnpackedFloat.compare] at h
  | infinity s =>
    cases s with
    | positive => exact .inl .infinity
    | negative => rw [hx] at h; simp [UnpackedFloat.le, UnpackedFloat.compare] at h
  | notANumber => exact .inr rfl

theorem PlusOrNaN.add_of_not_lt (hx : ¬x < 0) (hy : y.PlusOrNaN) : (x + y).PlusOrNaN := by
  rw [not_lt_zero_iff] at hx
  rw [plusOrNaN_iff] at hy ⊢
  rw [unpack_add]
  exact plusOrNaN_pack (isPlus_or_nan_add hx hy)

theorem PlusOrNaN.add (hx : x.PlusOrNaN) (hy : y.PlusOrNaN) : (x + y).PlusOrNaN :=
  add_of_not_lt hx.not_lt_zero hy

theorem PlusOrNaN.mul (hx : x.PlusOrNaN) (hy : y.PlusOrNaN) : (x * y).PlusOrNaN := by
  rw [plusOrNaN_iff] at hx hy ⊢
  rw [unpack_mul]
  exact plusOrNaN_pack (isPlus_or_nan_mul hx hy)

theorem PlusOrNaN.div (hx : x.PlusOrNaN) (hy : y.PlusOrNaN) : (x / y).PlusOrNaN := by
  rw [plusOrNaN_iff] at hx hy ⊢
  rw [unpack_div]
  exact plusOrNaN_pack (isPlus_or_nan_div hx hy)

theorem IsPlus.add (hx : x.IsPlus) (hy : 0 ≤ y) : (x + y).IsPlus := by
  show UnpackedFloat.IsPlus (x + y).toModel.unpack
  rw [unpack_add]
  exact isPlus_unpack_pack (isPlus_add hx (zero_le_iff.mp hy))

theorem IsPlus.le_add (hx : x.IsPlus) (hy : 0 ≤ y) : x ≤ x + y :=
  le_add_of_nonneg (neg_inf_lt_of_nonneg hx.zero_le) hy

theorem isPlus_toFloat (n : UInt64) : n.toFloat.IsPlus := by
  show UnpackedFloat.IsPlus (pack (UnpackedFloat.ofUInt64 .binary64 n)).unpack
  exact isPlus_unpack_pack (isPlus_ofNat _)

theorem plusBits_le (hx : x.IsPlus) : plusBits x.toModel.unpack ≤ 2047 * Nat.pow 2 52 := by
  obtain ⟨U, hU⟩ : ∃ U, x.toModel.unpack = U := ⟨_, rfl⟩
  have hx' : UnpackedFloat.IsPlus U := hU ▸ hx
  cases hx' with
  | zero => simp [hU, plusBits]
  | finite m e h => rw [hU]; exact (plusBits_finite_bounds hU).2.le
  | infinity => simp [hU, plusBits]

end Float

namespace XrDelivery

open Float.Model.UnpackedFloat

variable {x y z : Float}

theorem totalKey_of_isPlus (hx : x.IsPlus) : totalKey x = plusBits x.toModel.unpack := by
  have hbits : x.toBits.toNat = plusBits x.toModel.unpack := toNat_eq_plusBits hx
  have hle := Float.plusBits_le hx
  have h52 : Nat.pow 2 52 = 4503599627370496 := rfl
  unfold totalKey
  rw [if_pos (by rw [UInt64.lt_iff_toNat_lt, hbits]; simp only [h52] at hle; simp; omega), hbits]

end XrDelivery

namespace Float

open Float.Model.UnpackedFloat XrDelivery

variable {x y z : Float}

theorem IsPlus.le_iff_totalKey (hx : x.IsPlus) (hy : y.IsPlus) :
    x ≤ y ↔ totalKey x ≤ totalKey y := by
  rw [Float.le_iff_unpack, Float.Model.UnpackedFloat.le, compare_eq_compare_plusBits hx hy,
    totalKey_of_isPlus hx, totalKey_of_isPlus hy]
  simp [Nat.isLE_compare]

theorem IsPlus.lt_iff_totalKey (hx : x.IsPlus) (hy : y.IsPlus) :
    x < y ↔ totalKey x < totalKey y := by
  rw [Float.lt_iff_unpack, compare_eq_compare_plusBits hx hy, totalKey_of_isPlus hx,
    totalKey_of_isPlus hy]
  simp [Nat.compare_eq_lt]

theorem IsPlus.le_refl (hx : x.IsPlus) : x ≤ x := (hx.le_iff_totalKey hx).mpr le_rfl

theorem IsPlus.le_trans (hx : x.IsPlus) (hy : y.IsPlus) (hz : z.IsPlus) (hxy : x ≤ y)
    (hyz : y ≤ z) : x ≤ z :=
  (hx.le_iff_totalKey hz).mpr
    (((hx.le_iff_totalKey hy).mp hxy).trans ((hy.le_iff_totalKey hz).mp hyz))

theorem IsPlus.of_lt {lo : Float} (hlo : lo.IsPlus) (h : lo < x) : x.IsPlus := by
  rw [Float.lt_iff_unpack] at h
  obtain ⟨L, hL⟩ : ∃ L, lo.toModel.unpack = L := ⟨_, rfl⟩
  have hlo' : Model.UnpackedFloat.IsPlus L := hL ▸ hlo
  rw [hL] at h
  show Model.UnpackedFloat.IsPlus x.toModel.unpack
  cases hx : x.toModel.unpack with
  | zero s => rw [hx] at h; cases hlo' <;> cases s <;> cases h
  | finite s m e hm =>
    cases s with
    | positive => exact .finite m e hm
    | negative => rw [hx] at h; cases hlo' <;> cases h
  | infinity s =>
    cases s with
    | positive => exact .infinity
    | negative => rw [hx] at h; cases hlo' <;> cases h
  | notANumber => rw [hx] at h; cases hlo' <;> cases h

theorem IsPlus.not_lt_of_le (hx : x.IsPlus) (hy : y.IsPlus) (h : x ≤ y) : ¬y < x := by
  rw [hx.le_iff_totalKey hy] at h
  rw [hy.lt_iff_totalKey hx]
  omega

theorem nonneg_of_le (hx : 0 ≤ x) (h : x ≤ y) : 0 ≤ y := by
  rw [zero_le_iff] at hx ⊢
  rw [le_iff_unpack] at h
  obtain ⟨X, hX⟩ : ∃ X, x.toModel.unpack = X := ⟨_, rfl⟩
  rw [hX] at hx h
  cases hy : y.toModel.unpack with
  | zero s =>
    cases s with
    | positive => exact .inl .zero
    | negative => exact .inr rfl
  | finite s m e hm =>
    cases s with
    | positive => exact .inl (.finite m e hm)
    | negative => rw [hy] at h; rcases hx with hx | rfl <;> [cases hx <;> cases h; cases h]
  | infinity s =>
    cases s with
    | positive => exact .inl .infinity
    | negative => rw [hy] at h; rcases hx with hx | rfl <;> [cases hx <;> cases h; cases h]
  | notANumber => rw [hy] at h; rcases hx with hx | rfl <;> [cases hx <;> cases h; cases h]

theorem lt_of_lt_zero (hx : x < 0) (hy : 0 ≤ y) : x < y := by
  rw [lt_iff_unpack, unpack_zero] at hx
  rw [zero_le_iff] at hy
  rw [lt_iff_unpack]
  obtain ⟨Y, hY⟩ : ∃ Y, y.toModel.unpack = Y := ⟨_, rfl⟩
  rw [hY] at hy ⊢
  cases hX : x.toModel.unpack with
  | zero s => rw [hX] at hx; cases s <;> cases hx
  | finite s m e hm =>
    cases s with
    | positive => rw [hX] at hx; cases hx
    | negative => rcases hy with hy | rfl <;> [cases hy <;> rfl; rfl]
  | infinity s =>
    cases s with
    | positive => rw [hX] at hx; cases hx
    | negative => rcases hy with hy | rfl <;> [cases hy <;> rfl; rfl]
  | notANumber => rw [hX] at hx; cases hx

theorem add_zero_of_lt_zero (hx : x < 0) : x + 0.0 = x := by
  have hsum : x.toModel.unpack.add .binary64 (0.0 : Float).toModel.unpack = x.toModel.unpack := by
    rw [lt_iff_unpack, unpack_zero] at hx
    rw [show (0.0 : Float).toModel.unpack = .zero .positive from rfl]
    cases h : x.toModel.unpack with
    | zero s => rw [h] at hx; cases s <;> cases hx
    | finite s m e hm => rfl
    | infinity s => rfl
    | notANumber => rw [h] at hx; cases hx
  obtain ⟨X⟩ := x
  show (⟨Model.pack (X.unpack.add .binary64 (0.0 : Float).toModel.unpack)⟩ : Float) = ⟨X⟩
  rw [hsum, Model.pack_unpack]

protected theorem add_comm (x y : Float) : x + y = y + x := by
  obtain ⟨X⟩ := x
  obtain ⟨Y⟩ := y
  show (⟨Model.pack (X.unpack.add .binary64 Y.unpack)⟩ : Float) = ⟨Model.pack (Y.unpack.add .binary64 X.unpack)⟩
  rw [Model.UnpackedFloat.add_comm]

theorem plusOrNaN_toFloat (n : Nat) : n.toFloat.PlusOrNaN := by
  show (Float.ofScientific n false 0).PlusOrNaN
  unfold Float.ofScientific
  split
  · have hten : ∀ y ∈ Float.exactlyRepresentablePowersOfTen.toList, y.IsPlus := by decide
    exact (isPlus_toFloat _).plusOrNaN.mul
      (.inl (hten _ (Array.mem_toList_iff.mpr (Array.getElem_mem _))))
  · exact .inl (isPlus_unpack_pack (isPlus_ofScientific _ _))

end Float

namespace XrDelivery

variable {x : Float}

theorem isPlus_maxOf {a b : Float} (ha : a.IsPlus) (hb : b.PlusOrNaN) :
    (maxOf a b).IsPlus ∧ a ≤ maxOf a b := by
  unfold maxOf
  rw [if_neg (by rw [ha.isNaN]; exact Bool.false_ne_true)]
  rcases hb with hb | hb
  · rw [if_neg (by rw [hb.isNaN]; exact Bool.false_ne_true)]
    split
    · exact ⟨hb, Float.le_of_lt ‹_›⟩
    · exact ⟨ha, ha.le_refl⟩
  · rw [if_pos hb]
    exact ⟨ha, ha.le_refl⟩

theorem isPlus_atLeast {lo : Float} (hlo : lo.IsPlus) (x : Float) : (atLeast lo x).IsPlus := by
  unfold atLeast
  split
  · exact hlo.of_lt ‹_›
  · exact hlo

theorem not_infinity_lt (t : Float) : ¬(1.0 / 0.0 : Float) < t := by
  rw [Float.lt_iff_unpack, show (1.0 / 0.0 : Float).toModel.unpack = .infinity .positive from rfl]
  cases t.toModel.unpack with
  | zero s => simp [Float.Model.UnpackedFloat.compare]
  | finite s m e h => simp [Float.Model.UnpackedFloat.compare]
  | infinity s => cases s <;> simp [Float.Model.UnpackedFloat.compare, compare]
  | notANumber => simp [Float.Model.UnpackedFloat.compare]

end XrDelivery
