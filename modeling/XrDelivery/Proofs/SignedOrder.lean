import Mathlib
import XrDelivery.Proofs.DoubleValues

/-!
# Doubles other than NaN are ordered by an integer key

Off NaN, `≤` on doubles is a total preorder: the two zeros are equal, and all other doubles are
ordered as their values. Each double has a place `Float.signedKey`: the bit pattern of its
magnitude read as a natural, negated for the minus sign, and zero for both zeros. On doubles that
are not NaN, `≤` and `<` are the order of these places (`Float.le_iff_signedKey`,
`Float.lt_iff_signedKey`), so `≤` is transitive (`Float.le_trans`), reflexive off NaN and total
(`Float.le_of_not_lt`). A comparison that holds has no NaN on either side (`Float.isNaN_of_le`).

Also here: negation only flips the sign of the unpacked double (`Float.unpack_neg`), and a
double that is not NaN plus a finite one is not NaN (`Float.isNaN_add_of_isFinite`).
-/

namespace Float.Model.UnpackedFloat

/-- The place of an unpacked double in the order of doubles: the bit pattern of its magnitude
read as a natural, negated for the minus sign; both zeros, and NaN, at zero. -/
def signedBits (x : UnpackedFloat) : Int :=
  match x with
  | .finite .negative .. | .infinity .negative => -(plusBits x : Int)
  | _ => plusBits x

theorem plusBits_bounds {m : Nat} {e : Int} (hm : 0 < m) (hc : Canonical m e) (he : e ≤ 971)
    (s : Sign) :
    0 < plusBits (.finite s m e hm) ∧ plusBits (.finite s m e hm) < 2047 * Nat.pow 2 52 := by
  have h52 : Nat.pow 2 52 = 4503599627370496 := rfl
  have h53 : (2 : Nat) ^ 53 = 9007199254740992 := rfl
  have := hc.1
  have := hc.2.1
  rw [h53] at *
  simp only [plusBits, h52]
  omega

theorem compare_natCast (a b : Nat) : compare (a : Int) (b : Int) = compare a b := by
  rw [Int.compare_eq_ite_lt, Nat.compare_eq_ite_lt]
  simp

theorem some_eq_compare {a b : Int} {o : Ordering} (h : compare a b = o) :
    some o = some (compare a b) := by
  rw [h]

theorem compare_eq_compare_signedBits {u v : Float.Model} (hu : u.unpack ≠ .notANumber)
    (hv : v.unpack ≠ .notANumber) :
    u.unpack.compare v.unpack = some (compare (signedBits u.unpack) (signedBits v.unpack)) := by
  obtain ⟨U, hU⟩ : ∃ U, u.unpack = U := ⟨_, rfl⟩
  obtain ⟨V, hV⟩ : ∃ V, v.unpack = V := ⟨_, rfl⟩
  rw [hU] at hu ⊢
  rw [hV] at hv ⊢
  have h52 : Nat.pow 2 52 = 4503599627370496 := rfl
  -- split on both doubles; the finite ones are canonical, strictly between zero and infinity
  cases U with
  | notANumber => exact absurd rfl hu
  | zero s₁ =>
    cases V with
    | notANumber => exact absurd rfl hv
    | zero s₂ => exact some_eq_compare (Int.compare_eq_eq.mpr (by simp [signedBits, plusBits]))
    | finite s₂ m₂ e₂ h₂ =>
      obtain ⟨hc₂, he₂⟩ := canonical_of_unpack hV
      have := plusBits_bounds h₂ hc₂ he₂ s₂
      cases s₂ with
      | positive => exact some_eq_compare (Int.compare_eq_lt.mpr (by simp [signedBits, plusBits] at this ⊢; omega))
      | negative => exact some_eq_compare (Int.compare_eq_gt.mpr (by simp [signedBits, plusBits] at this ⊢; omega))
    | infinity s₂ =>
      cases s₂ with
      | positive => exact some_eq_compare (Int.compare_eq_lt.mpr (by simp [signedBits, plusBits]))
      | negative => exact some_eq_compare (Int.compare_eq_gt.mpr (by simp [signedBits, plusBits]))
  | finite s₁ m₁ e₁ h₁ =>
    obtain ⟨hc₁, he₁⟩ := canonical_of_unpack hU
    have hb₁ := plusBits_bounds h₁ hc₁ he₁ s₁
    cases V with
    | notANumber => exact absurd rfl hv
    | zero s₂ =>
      cases s₁ with
      | positive => exact some_eq_compare (Int.compare_eq_gt.mpr (by simp [signedBits, plusBits] at hb₁ ⊢; omega))
      | negative => exact some_eq_compare (Int.compare_eq_lt.mpr (by simp [signedBits, plusBits] at hb₁ ⊢; omega))
    | finite s₂ m₂ e₂ h₂ =>
      obtain ⟨hc₂, he₂⟩ := canonical_of_unpack hV
      have hb₂ := plusBits_bounds h₂ hc₂ he₂ s₂
      have hlex := compare_then_eq_compare_plusBits hc₁ hc₂
      cases s₁ <;> cases s₂
      · show some ((compare e₁ e₂).then (compare m₁ m₂)).swap = _
        rw [hlex, ← compare_natCast, Int.compare_swap]
        simp only [signedBits, plusBits]
        rw [Int.compare_eq_ite_lt, Int.compare_eq_ite_lt]
        simp only [neg_lt_neg_iff]
      · exact some_eq_compare (Int.compare_eq_lt.mpr (by simp [signedBits, plusBits] at hb₁ hb₂ ⊢; omega))
      · exact some_eq_compare (Int.compare_eq_gt.mpr (by simp [signedBits, plusBits] at hb₁ hb₂ ⊢; omega))
      · show some ((compare e₁ e₂).then (compare m₁ m₂)) = _
        rw [hlex, ← compare_natCast]
        rfl
    | infinity s₂ =>
      cases s₁ <;> cases s₂
      all_goals first
        | exact some_eq_compare (Int.compare_eq_lt.mpr (by simp [signedBits, plusBits] at hb₁ ⊢; omega))
        | exact some_eq_compare (Int.compare_eq_gt.mpr (by simp [signedBits, plusBits] at hb₁ ⊢; omega))
  | infinity s₁ =>
    cases V with
    | notANumber => exact absurd rfl hv
    | zero s₂ =>
      cases s₁ with
      | positive => exact some_eq_compare (Int.compare_eq_gt.mpr (by simp [signedBits, plusBits]))
      | negative => exact some_eq_compare (Int.compare_eq_lt.mpr (by simp [signedBits, plusBits]))
    | finite s₂ m₂ e₂ h₂ =>
      obtain ⟨hc₂, he₂⟩ := canonical_of_unpack hV
      have hb₂ := plusBits_bounds h₂ hc₂ he₂ s₂
      cases s₁ <;> cases s₂
      all_goals first
        | exact some_eq_compare (Int.compare_eq_lt.mpr (by simp [signedBits, plusBits] at hb₂ ⊢; omega))
        | exact some_eq_compare (Int.compare_eq_gt.mpr (by simp [signedBits, plusBits] at hb₂ ⊢; omega))
    | infinity s₂ =>
      cases s₁ <;> cases s₂
      all_goals first
        | exact some_eq_compare (Int.compare_eq_eq.mpr (by simp [signedBits, plusBits]))
        | exact some_eq_compare (Int.compare_eq_lt.mpr (by simp [signedBits, plusBits]))
        | exact some_eq_compare (Int.compare_eq_gt.mpr (by simp [signedBits, plusBits]))

theorem unpack_pack_round_ne (s : Sign) {M : Nat} (hM : 0 < M) (E : Int) :
    (Float.Model.pack (round .binary64 s M E)).unpack ≠ .notANumber := by
  rcases round_cases s hM E rfl with ⟨hr, -⟩ | ⟨M', E', h, hr, hc, -⟩
  · rw [hr, Float.Model.unpack_pack_zero]
    simp
  · rw [hr]
    rcases unpack_pack_finite_cases h hc with ⟨hback, -⟩ | hinf
    · rw [hback]
      simp
    · rw [hinf]
      simp

theorem unpack_pack_normalize_ne (m e : Int) (z : Sign) :
    (Float.Model.pack (normalize .binary64 m e z)).unpack ≠ .notANumber := by
  rcases lt_trichotomy m 0 with h | rfl | h
  · rw [normalize_of_neg e z h]
    exact unpack_pack_round_ne _ (by omega) _
  · rw [normalize_zero, Float.Model.unpack_pack_zero]
    simp
  · rw [normalize_of_pos e z h]
    exact unpack_pack_round_ne _ (by omega) _

end Float.Model.UnpackedFloat

namespace Float

open Float.Model Float.Model.UnpackedFloat

/-- The place of a double in the order of doubles. -/
def signedKey (x : Float) : Int := signedBits x.toModel.unpack

variable {x y z : Float}

theorem unpack_ne_of_isNaN (hx : x.isNaN = false) : x.toModel.unpack ≠ .notANumber := by
  rw [← Bool.not_eq_true, isNaN_iff] at hx
  exact hx

theorem le_iff_signedKey (hx : x.isNaN = false) (hy : y.isNaN = false) :
    x ≤ y ↔ x.signedKey ≤ y.signedKey := by
  rw [le_iff_unpack, UnpackedFloat.le,
    compare_eq_compare_signedBits (unpack_ne_of_isNaN hx) (unpack_ne_of_isNaN hy)]
  simp [signedKey, Int.isLE_compare]

theorem lt_iff_signedKey (hx : x.isNaN = false) (hy : y.isNaN = false) :
    x < y ↔ x.signedKey < y.signedKey := by
  rw [lt_iff_unpack, compare_eq_compare_signedBits (unpack_ne_of_isNaN hx) (unpack_ne_of_isNaN hy),
    Option.some_inj, Int.compare_eq_lt]
  rfl

theorem isNaN_of_le (h : x ≤ y) : x.isNaN = false ∧ y.isNaN = false := by
  rw [le_iff_unpack] at h
  simp only [← Bool.not_eq_true, isNaN_iff]
  constructor
  · intro hx
    rw [hx] at h
    simp [UnpackedFloat.le, UnpackedFloat.compare] at h
  · intro hy
    rw [hy] at h
    generalize x.toModel.unpack = X at h
    cases X <;> simp [UnpackedFloat.le, UnpackedFloat.compare] at h

protected theorem le_trans (hxy : x ≤ y) (hyz : y ≤ z) : x ≤ z := by
  obtain ⟨hx, hy⟩ := isNaN_of_le hxy
  obtain ⟨-, hz⟩ := isNaN_of_le hyz
  rw [le_iff_signedKey hx hy] at hxy
  rw [le_iff_signedKey hy hz] at hyz
  exact (le_iff_signedKey hx hz).mpr (hxy.trans hyz)

protected theorem le_refl (hx : x.isNaN = false) : x ≤ x :=
  (le_iff_signedKey hx hx).mpr le_rfl

protected theorem le_of_not_lt (hx : x.isNaN = false) (hy : y.isNaN = false) (h : ¬x < y) :
    y ≤ x := by
  rw [lt_iff_signedKey hx hy] at h
  exact (le_iff_signedKey hy hx).mpr (not_lt.mp h)

protected theorem lt_of_not_le (hx : x.isNaN = false) (hy : y.isNaN = false) (h : ¬x ≤ y) :
    y < x := by
  rw [le_iff_signedKey hx hy] at h
  exact (lt_iff_signedKey hy hx).mpr (not_le.mp h)

theorem isNaN_of_isFinite (hx : x.isFinite = true) : x.isNaN = false := by
  change x.toModel.unpack.isFinite = true at hx
  change x.toModel.unpack.isNaN = false
  generalize x.toModel.unpack = X at hx ⊢
  cases X <;> first | rfl | cases hx

theorem unpack_neg (x : Float) : (-x).toModel.unpack = x.toModel.unpack.neg := by
  show (pack x.toModel.unpack.neg).unpack = _
  cases hX : x.toModel.unpack with
  | zero s => exact unpack_pack_zero _
  | infinity s => exact unpack_pack_infinity _
  | notANumber => exact unpack_pack_notANumber
  | finite s m e h =>
    obtain ⟨hc, he⟩ := canonical_of_unpack hX
    exact unpack_pack_finite h hc he

theorem isFinite_neg (hx : x.isFinite = true) : (-x).isFinite = true := by
  change (-x).toModel.unpack.isFinite = true
  change x.toModel.unpack.isFinite = true at hx
  rw [unpack_neg]
  generalize x.toModel.unpack = X at hx ⊢
  cases X <;> first | rfl | cases hx

theorem isNaN_add_of_isFinite (hx : x.isNaN = false) (hy : y.isFinite = true) :
    (x + y).isNaN = false := by
  rw [← Bool.not_eq_true, isNaN_iff, unpack_add]
  have hx' := unpack_ne_of_isNaN hx
  change y.toModel.unpack.isFinite = true at hy
  obtain ⟨X, hX⟩ : ∃ X, x.toModel.unpack = X := ⟨_, rfl⟩
  obtain ⟨Y, hY⟩ : ∃ Y, y.toModel.unpack = Y := ⟨_, rfl⟩
  rw [hX] at hx' ⊢
  rw [hY] at hy ⊢
  cases Y with
  | notANumber => cases hy
  | infinity s₂ => cases hy
  | zero s₂ =>
    cases X with
    | notANumber => exact absurd rfl hx'
    | infinity s₁ =>
      rw [show (UnpackedFloat.infinity s₁).add .binary64 (.zero s₂) = .infinity s₁ from rfl,
        unpack_pack_infinity]
      simp
    | zero s₁ =>
      obtain ⟨s, hs⟩ : ∃ s, (UnpackedFloat.zero s₁).add .binary64 (.zero s₂) = .zero s := by
        cases s₁ <;> cases s₂ <;> exact ⟨_, rfl⟩
      rw [hs, unpack_pack_zero]
      simp
    | finite s₁ m₁ e₁ h₁ =>
      rw [show (UnpackedFloat.finite s₁ m₁ e₁ h₁).add .binary64 (.zero s₂) = .finite s₁ m₁ e₁ h₁
        from rfl, ← hX, pack_unpack, hX]
      simp
  | finite s₂ m₂ e₂ h₂ =>
    cases X with
    | notANumber => exact absurd rfl hx'
    | infinity s₁ =>
      rw [show (UnpackedFloat.infinity s₁).add .binary64 (.finite s₂ m₂ e₂ h₂) = .infinity s₁
        from rfl, unpack_pack_infinity]
      simp
    | zero s₁ =>
      rw [show (UnpackedFloat.zero s₁).add .binary64 (.finite s₂ m₂ e₂ h₂) = .finite s₂ m₂ e₂ h₂
        from rfl, ← hY, pack_unpack, hY]
      simp
    | finite s₁ m₁ e₁ h₁ =>
      rw [add_finite]
      exact unpack_pack_normalize_ne _ _ _

end Float
