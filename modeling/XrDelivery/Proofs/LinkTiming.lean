import Mathlib
import XrDelivery.Proofs.PlusDoubles
import XrDelivery.Proofs.WalkBounds
import XrDelivery.Proofs.WholeRun

/-!
# Arrivals are never before their sending

A datagram sent over a channel arrives when the link is free, the later of the sending instant
and the end of the last transmission, plus its serialization time, plus the link's delay and a
packet jitter. When every part is a double that is zero or more, an arrival that is not NaN is
no earlier than its sending (`Channel.transmit_sound`): serialization times and jitters are
plus doubles or NaN by construction, and the delay is never below zero as long as the link's
conditions are sound (`Conditions.Sound`).

The delays of a link come from its random walk: the first frame holds the base delay, and each
step keeps the delay within bounds whose floor, `max 0 (base - range)`, is zero or more
(`not_lt_zero_of_keepWithin`). So a walk from a base delay that is not below zero has sound
conditions throughout (`Timeline.generate_sound`). A resolved link checks its base delay, except
an ideal one, whose delay range is zero: there the walk's own bounds check does it, as soon as
the walk takes a step (`Timeline.generate_sound_of_resolved`), which it does over every span of
five seconds or more (`Span.nanos_pos_of_ofSeconds`).
-/

namespace XrDelivery

open Float.Model Float.Model.UnpackedFloat

variable {x : Float}

theorem not_lt_of_isNaN (hx : x.isNaN = true) (y : Float) : ¬x < y := by
  rw [Float.isNaN_iff] at hx
  rw [Float.lt_iff_unpack, hx]
  simp [UnpackedFloat.compare]

theorem exponentField_eq (b : UInt64) : ((b >>> 52) &&& 0x7FF).toNat = b.toNat / Nat.pow 2 52 % 2048 := by
  rw [UInt64.toNat_and, UInt64.toNat_shiftRight, Nat.shiftRight_eq_div_pow]
  rw [show (0x7FF : UInt64).toNat = 2 ^ 11 - 1 from rfl, Nat.and_two_pow_sub_one_eq_mod]
  rfl

theorem toNat_packComponents (s : Sign) (E : BitVec 11) (M : BitVec 52) :
    (packComponents .binary64 s E M).toNat =
      s.toBitVec.toNat * Nat.pow 2 63 + E.toNat * Nat.pow 2 52 + M.toNat := by
  have hM := M.isLt
  have hE := E.isLt
  simp only [packComponents, BitVec.toNat_append]
  rw [← Nat.shiftLeft_add_eq_or_of_lt hM, Nat.shiftLeft_eq, ← Nat.shiftLeft_add_eq_or_of_lt hE,
    Nat.shiftLeft_eq]
  simp only [Nat.pow_eq]
  ring

theorem exponentField_of_isNaN (hx : x.isNaN = true) :
    ((x.toBits >>> 52) &&& 0x7FF).toNat = 2047 := by
  rw [Float.isNaN_iff] at hx
  rw [exponentField_eq]
  obtain ⟨s, E, M, hb⟩ : ∃ s E M, x.toModel.toBits.toBitVec = packComponents .binary64 s E M :=
    ⟨_, _, _, (packComponents_unpack_fields _).symm⟩
  have hE : E = -1#11 := by
    unfold Float.Model.unpack UnpackedFloat.unpack at hx
    rw [hb] at hx
    simp only [unpackExponent_packComponents, unpackMantissa_packComponents] at hx
    split_ifs at hx with h1
    exact h1
  have hbits : x.toBits.toNat = (packComponents .binary64 s E M).toNat := by
    rw [← hb]; rfl
  rw [hbits, toNat_packComponents, hE]
  have hs : s.toBitVec.toNat < 2 := s.toBitVec.isLt
  have hM := M.isLt
  simp only [show (-1#11).toNat = 2047 from rfl, show Nat.pow 2 63 = 9223372036854775808 from rfl,
    show Nat.pow 2 52 = 4503599627370496 from rfl] at hM ⊢
  omega

theorem isPlus_of_not_lt_finite {lo : Float} {m : Nat} {e : Int} {hm : 0 < m}
    (hlo : lo.toModel.unpack = .finite .positive m e hm) (hx : x.isNaN = false) (h : ¬x < lo) :
    x.IsPlus := by
  rw [Float.lt_iff_unpack, hlo] at h
  rw [← Bool.not_eq_true, Float.isNaN_iff] at hx
  show UnpackedFloat.IsPlus x.toModel.unpack
  cases hX : x.toModel.unpack with
  | zero s => rw [hX] at h; exact absurd rfl h
  | finite s m' e' hm' =>
    cases s with
    | positive => exact .finite m' e' hm'
    | negative => rw [hX] at h; exact absurd rfl h
  | infinity s =>
    cases s with
    | positive => exact .infinity
    | negative => rw [hX] at h; exact absurd rfl h
  | notANumber => exact absurd hX hx

theorem roundHalfEven_pos {num den : Nat} (hden : 0 < den) (h : den ≤ num) :
    0 < Decimal.roundHalfEven num den := by
  have hq : 0 < num / den := Nat.div_pos h hden
  unfold Decimal.roundHalfEven
  dsimp only
  split_ifs <;> omega

theorem Span.nanos_pos_of_ofSeconds {s : Span} (h : Span.ofSeconds x = .ok s) (h5 : ¬x < 5.0) :
    0 < s.nanos := by
  unfold Span.ofSeconds at h
  by_cases hnan : x.isNaN = true
  · rw [if_neg (not_lt_of_isNaN hnan _)] at h
    simp only [exponentField_of_isNaN hnan] at h
    cases h
  · have hplus : x.IsPlus := isPlus_of_not_lt_finite
      (show (5.0 : Float).toModel.unpack = .finite .positive 5629499534213120 (-50) (by decide) from rfl)
      (by simpa using hnan) h5
    have hbits : x.toBits.toNat = plusBits x.toModel.unpack := toNat_eq_plusBits hplus
    have hlow : 4617315517961601024 ≤ x.toBits.toNat := by
      have h5' := (Float.IsPlus.lt_iff_totalKey hplus (by decide)).not.mp h5
      rw [totalKey_of_isPlus hplus, totalKey_of_isPlus (by decide)] at h5'
      rw [hbits]
      have : plusBits (5.0 : Float).toModel.unpack = 4617315517961601024 := rfl
      omega
    have hhigh := Float.plusBits_le hplus
    rw [← hbits, show Nat.pow 2 52 = 4503599627370496 from rfl] at hhigh
    rw [if_neg (show ¬x < 0.0 from Float.not_lt_zero_of_nonneg hplus.zero_le)] at h
    simp only [exponentField_eq, show Nat.pow 2 52 = 4503599627370496 from rfl] at h
    split at h
    · cases h
    · rename_i hsmall
      cases h
      unfold Decimal.Binary.ofBits
      simp only [exponentField_eq, show Nat.pow 2 52 = 4503599627370496 from rfl]
      rw [if_neg (by simp; omega)]
      -- at least five seconds: the exponent is at least `1025`, so at most 50 bits are fractional
      generalize hE : x.toBits.toNat / 4503599627370496 % 2048 = E at hsmall ⊢
      generalize (x.toBits &&& 4503599627370495).toNat = F
      have hE' : 1025 ≤ E := by omega
      have hfrac : (-((E : Int) - 1075)).toNat ≤ 50 := by omega
      apply roundHalfEven_pos (Nat.pos_of_ne_zero (by simp))
      show 2 ^ (-((E : Int) - 1075)).toNat ≤ (4503599627370496 + F) * 2 ^ ((E : Int) - 1075).toNat * 1000000000
      calc 2 ^ (-((E : Int) - 1075)).toNat ≤ 2 ^ 50 := Nat.pow_le_pow_right (by norm_num) hfrac
        _ ≤ 4503599627370496 * 1 * 1 := by norm_num
        _ ≤ (4503599627370496 + F) * 2 ^ ((E : Int) - 1075).toNat * 1000000000 := by
          gcongr
          · omega
          · exact Nat.one_le_two_pow
          · norm_num

theorem not_lt_zero_of_keepWithin {lo hi y r : Float} (hlo : 0 ≤ lo) (h : keepWithin lo hi y = .ok r) :
    ¬r < 0 := by
  unfold keepWithin at h
  split at h
  · rename_i hle
    cases h
    by_cases hy : y < lo
    · rw [if_pos hy]
      split
      · exact Float.not_lt_zero_of_nonneg (Float.nonneg_of_le hlo hle)
      · exact Float.not_lt_zero_of_nonneg hlo
    · rw [if_neg hy]
      split
      · exact Float.not_lt_zero_of_nonneg (Float.nonneg_of_le hlo hle)
      · exact fun hr => hy (Float.lt_of_lt_zero hr hlo)
  · cases h

/-- Link conditions under which a datagram does not arrive before it is sent: a delay that is not
below zero, NaN aside, and a rate, if limited, with the plus sign. -/
structure Conditions.Sound (c : Conditions) : Prop where
  delay : ¬c.delayMs < 0
  rate : ∀ r, c.rateKbit = some r → r.IsPlus

theorem Conditions.sound_perfect : Conditions.perfect.Sound where
  delay := by decide
  rate := by simp [Conditions.perfect]

namespace LinkWalk

variable {w w' : LinkWalk}

theorem step_delay (h : w.step = .ok w') : ¬w'.delayMs < 0 ∧ w'.profile = w.profile := by
  unfold LinkWalk.step at h
  obtain ⟨rate, -, h⟩ := exists_of_bind_eq_ok h
  obtain ⟨delay, hdelay, h⟩ := exists_of_bind_eq_ok h
  obtain ⟨loss, -, h⟩ := exists_of_bind_eq_ok h
  cases h
  exact ⟨not_lt_zero_of_keepWithin (zero_le_atLeast _) hdelay, rfl⟩

theorem sound_conditions (hw : ¬w.delayMs < 0) : w.conditions.Sound where
  delay := hw
  rate r hr := by
    simp only [LinkWalk.conditions] at hr
    split at hr
    · cases hr
      exact isPlus_atLeast (by decide) _
    · cases hr

/-- Every frame sampled from a walk whose delay is not below zero has sound conditions: each
step keeps the delay so. -/
theorem framesFrom_sound {step : Span} {total : Nat} (n : Nat) (w : LinkWalk) (acc : List LinkFrame)
    {fs : List LinkFrame} {w' : LinkWalk} (hw : ¬w.delayMs < 0)
    (hacc : ∀ f ∈ acc, f.conditions.Sound) (h : LinkWalk.framesFrom step total n w acc = .ok (fs, w')) :
    ∀ f ∈ fs, f.conditions.Sound := by
  induction n generalizing w acc with
  | zero =>
    cases h
    simpa using hacc
  | succ left ih =>
    unfold LinkWalk.framesFrom at h
    dsimp only at h
    split at h
    · cases h
    · rename_i w₁ hw₁
      have hd₁ : ¬w₁.delayMs < 0 := by
        split at hw₁
        · exact (step_delay hw₁).1
        · cases hw₁
          exact hw
      refine ih w₁ _ hd₁ ?_ h
      intro f hf
      rcases List.mem_cons.mp hf with rfl | hf
      · exact sound_conditions hd₁
      · exact hacc f hf

theorem delayMs_new (p : LinkProfile) (seed : UInt64) : (LinkWalk.new p seed).delayMs = p.baseDelayMs := by
  unfold LinkWalk.new
  dsimp only

end LinkWalk

theorem Timeline.generate_sound {p : LinkProfile} {seed : UInt64} {d : Span} {tl : Timeline}
    (hbase : ¬p.baseDelayMs < 0) (h : Timeline.generate p seed d = .ok tl) :
    ∀ f ∈ tl.frames.toList, f.conditions.Sound := by
  unfold Timeline.generate at h
  split at h
  · rename_i fs w' hfs
    cases h
    unfold LinkWalk.frames at hfs
    have hnew : ¬(LinkWalk.new p seed).delayMs < 0 := by
      rw [LinkWalk.delayMs_new]
      exact hbase
    simpa using LinkWalk.framesFrom_sound _ _ _ hnew (by simp) hfs
  · cases h

theorem Timeline.at_sound {tl : Timeline} (h : ∀ f ∈ tl.frames.toList, f.conditions.Sound) (t : Float) :
    (tl.at t).Sound := by
  unfold Timeline.at
  dsimp only
  split
  · rename_i f hf
    exact h f (Array.mem_toList_iff.mpr (Array.mem_of_getElem? hf))
  · exact Conditions.sound_perfect

theorem LinkInput.resolve_delay {l : LinkInput} {p : LinkProfile} (h : l.resolve = .ok p) :
    ¬p.baseDelayMs < 0 ∨ p.delayRangeMs = 0.0 := by
  unfold LinkInput.resolve at h
  split at h
  · cases h
    exact .inr rfl
  · dsimp only at h
    split_ifs at h with _ _ hdelay
    cases h
    simp only [Bool.or_eq_true, decide_eq_true_eq, not_or] at hdelay
    exact .inl hdelay.1

theorem LinkProfile.BoundsOrdered.base_delay {p : LinkProfile} (hp : p.BoundsOrdered)
    (hrange : p.delayRangeMs = 0.0) : ¬p.baseDelayMs < 0 := by
  obtain ⟨-, hdelay, -⟩ := hp
  rw [hrange] at hdelay
  have hsum : 0 ≤ p.baseDelayMs + 0.0 := Float.nonneg_of_le (zero_le_atLeast _) hdelay
  intro hbase
  rw [Float.add_zero_of_lt_zero hbase] at hsum
  exact Float.not_lt_zero_of_nonneg hsum hbase

theorem Timeline.generate_sound_of_resolved {p : LinkProfile} {seed : UInt64} {d : Span}
    {tl : Timeline} (hp : ¬p.baseDelayMs < 0 ∨ p.delayRangeMs = 0.0) (hd : 0 < d.nanos)
    (h : Timeline.generate p seed d = .ok tl) : ∀ f ∈ tl.frames.toList, f.conditions.Sound := by
  refine Timeline.generate_sound ?_ h
  rcases hp with hbase | hrange
  · exact hbase
  · have hordered := ((generate_ok_iff p seed d).mp ⟨tl, h⟩).resolve_left (by omega)
    exact hordered.base_delay hrange

/-- A channel whose link is next free at a plus instant, or NaN, and whose conditions are sound at
every instant. -/
structure Channel.Sound (ch : Channel) : Prop where
  busy : ch.busyUntil.PlusOrNaN
  conditions : ∀ t, (ch.timeline.at t).Sound

theorem serializationTime_plusOrNaN {rate : Option Float} {len : Nat} {ser : Float}
    (hrate : ∀ r, rate = some r → r.IsPlus) (h : serializationTime rate len = .ok ser) : ser.PlusOrNaN := by
  unfold serializationTime at h
  split at h
  · rename_i r
    split at h
    · cases h
      exact (Float.isPlus_toFloat _).plusOrNaN.div
        ((hrate r rfl).plusOrNaN.mul (.inl (by decide)))
    · cases h
  · cases h
    exact .inl (by decide)

theorem unit_plusOrNaN (g : Random.Stream) : g.unit.1.PlusOrNaN :=
  (Float.isPlus_toFloat _).plusOrNaN.div (.inl (by decide))

theorem drawJitter_plusOrNaN (g : Random.Stream) (jitterMs : Float) :
    (g.drawJitter jitterMs).1.PlusOrNaN := by
  unfold Random.Stream.drawJitter
  split
  · rename_i hj
    exact (unit_plusOrNaN g).mul (.inl ((show (0.0 : Float).IsPlus by decide).of_lt hj))
  · exact .inl (show (0.0 : Float).IsPlus by decide)

theorem le_arrival {now busy ser d : Float} (hnow : now.IsPlus) (hbusy : busy.PlusOrNaN)
    (hser : ser.PlusOrNaN) (hd : d.PlusOrNaN) (hn : (maxOf now busy + ser + d).isNaN = false) :
    (maxOf now busy + ser + d).IsPlus ∧ now ≤ maxOf now busy + ser + d := by
  obtain ⟨hsum, hd'⟩ := Float.isNaN_add hn
  obtain ⟨-, hser'⟩ := Float.isNaN_add hsum
  obtain ⟨hstart, hle⟩ := isPlus_maxOf hnow hbusy
  have hserp := hser.isPlus hser'
  have hdp := hd.isPlus hd'
  have hfree := hstart.add hserp.zero_le
  have harrival := hfree.add hdp.zero_le
  have h₁ : maxOf now busy ≤ maxOf now busy + ser := hstart.le_add hserp.zero_le
  have h₂ : maxOf now busy + ser ≤ maxOf now busy + ser + d := hfree.le_add hdp.zero_le
  exact ⟨harrival, hnow.le_trans hstart harrival hle (hstart.le_trans hfree harrival h₁ h₂)⟩

theorem Channel.transmit_sound {ch ch' : Channel} {now : Float} {len : Nat} {arr : Option Float}
    (hch : ch.Sound) (hnow : now.IsPlus) (h : ch.transmit now len = .ok (arr, ch')) :
    ch'.Sound ∧ ∀ t, arr = some t → t.PlusOrNaN ∧ (t.isNaN = false → now ≤ t) := by
  unfold Channel.transmit at h
  obtain ⟨offered, -, h⟩ := exists_of_bind_eq_ok h
  dsimp only at h
  obtain ⟨ser, hser, h⟩ := exists_of_bind_eq_ok h
  have hser' := serializationTime_plusOrNaN (hch.conditions now).rate hser
  have hfree : (maxOf now ch.busyUntil + ser).PlusOrNaN :=
    (isPlus_maxOf hnow hch.busy).1.plusOrNaN.add hser'
  split at h
  · obtain ⟨dropped, -, h⟩ := exists_of_bind_eq_ok h
    cases h
    exact ⟨⟨hfree, hch.conditions⟩, by simp⟩
  · obtain ⟨delivered, -, h⟩ := exists_of_bind_eq_ok h
    obtain ⟨bytes, -, h⟩ := exists_of_bind_eq_ok h
    cases h
    refine ⟨⟨hfree, hch.conditions⟩, ?_⟩
    rintro t ⟨⟩
    have hd := (Float.PlusOrNaN.add_of_not_lt (hch.conditions now).delay
      (drawJitter_plusOrNaN (ch.stream.drawLoss (ch.timeline.at now).lossPercent).2
        (ch.timeline.at now).packetJitterMs)).div (.inl (show (1000.0 : Float).IsPlus by decide))
    exact ⟨hfree.add hd, fun hn => (le_arrival hnow hch.busy hser' hd hn).2⟩

end XrDelivery
