import Mathlib
import XrDelivery.Proofs.DatagramCounts
import XrDelivery.Proofs.WalkRanges
import XrDelivery.Proofs.DoubleMagnitudes

/-!
# The link holds one datagram at a time

A channel puts each datagram on the link when it is sent or, if the link is still busy, when the
link releases the datagram before, and holds it there for its serialization time, its bits over
the rate at its sending instant; a datagram lost on the way holds the link all the same. So the
link's time splits into slots that depend on the timeline and the datagrams alone, not on the
random draws (`Timeline.slotsFrom`): from instant zero the link takes and releases datagrams in
order, each no earlier than it is sent (`Timeline.slotsFrom_ordered`), as long as the delays are
zero or more and the rates, where limited, above zero (`Conditions.Physical`). A delivered
datagram arrives after its release by the delay and a packet jitter, so never before it; only a
jitter of `+∞` met by a draw of exactly zero makes the arrival NaN (`0 · ∞`). The channel counts
each datagram offered once, as dropped or delivered, and its longest wait is the largest wait of
a slot (`link_holds_datagrams_in_order`).

Counts and bit lengths are 64-bit words, and a send that would carry one past its range is
refused: a sequence of sends runs through when its count and its bits fit
(`Channel.transmitEach_ok`), while a datagram of `2^61` bytes on a link that limits its rate
has `2^64` bits and is refused (`defaultLink_refuses_huge_datagram`).

The double arithmetic behind this: a plus double less a smaller finite double is a plus double
(`Float.isPlus_sub_of_lt`), a finite double less itself is `+0`, and a finite plus double over a
double above zero is a plus double (`Float.IsPlus.div_pos`), so no wait, serialization time or
release is NaN.
-/

namespace Float.Model.UnpackedFloat

variable {spec : Format} {x : UnpackedFloat}

theorem isPlus_mul_finite (hx : IsPlus x) {m : Nat} {e : Int} (hm : 0 < m) :
    IsPlus (x.mul spec (.finite .positive m e hm)) := by
  cases hx with
  | zero => exact .zero
  | finite m₁ e₁ h₁ => exact isPlus_roundWithAccuracy _ _ _
  | infinity => exact .infinity

theorem isPlus_mul_or {y : UnpackedFloat} (hx : IsPlus x) (hy : IsPlus y) :
    IsPlus (x.mul spec y) ∨ (x = .zero .positive ∧ y = .infinity .positive) ∨
      (x = .infinity .positive ∧ y = .zero .positive) := by
  cases hx with
  | zero =>
    cases hy with
    | zero => exact .inl .zero
    | finite m e h => exact .inl .zero
    | infinity => exact .inr (.inl ⟨rfl, rfl⟩)
  | finite m₁ e₁ h₁ =>
    cases hy with
    | zero => exact .inl .zero
    | finite m₂ e₂ h₂ => exact .inl (isPlus_roundWithAccuracy _ _ _)
    | infinity => exact .inl .infinity
  | infinity =>
    cases hy with
    | zero => exact .inr (.inr ⟨rfl, rfl⟩)
    | finite m e h => exact .inl .infinity
    | infinity => exact .inl .infinity

theorem isPlus_sub_negative (hx : IsPlus x) {m : Nat} {e : Int} (hm : 0 < m) :
    IsPlus (x.sub .binary64 (.finite .negative m e hm)) := by
  cases hx with
  | zero => exact .finite m e hm
  | finite m₁ e₁ h₁ =>
    have h₁' : 0 < m₁ <<< (e₁ - min e₁ e).toNat := by
      rw [Nat.shiftLeft_eq]
      positivity
    have h₂ : 0 < m <<< (e - min e₁ e).toNat := by
      rw [Nat.shiftLeft_eq]
      positivity
    rw [sub_finite, normalize_of_pos _ _ (by simp only [Sign.apply]; omega)]
    exact isPlus_round _ _
  | infinity => exact .infinity

theorem isPlus_div_finite (hx : IsPlus x) {m : Nat} {e : Int} (hm : 0 < m) :
    IsPlus (x.div spec (.finite .positive m e hm)) := by
  cases hx with
  | zero => exact .zero
  | finite m₁ e₁ h₁ => exact isPlus_roundWithAccuracy _ _ _
  | infinity => exact .infinity

end Float.Model.UnpackedFloat

namespace Float

open Float.Model Float.Model.UnpackedFloat

variable {x y : Float}

theorem unpack_thousand :
    (1000.0 : Float).toModel.unpack = .finite .positive 8796093022208000 (-43) (by decide) := rfl

theorem IsPlus.mul_thousand (hx : x.IsPlus) : (x * 1000.0).IsPlus := by
  show UnpackedFloat.IsPlus (x * 1000.0).toModel.unpack
  rw [unpack_mul, unpack_thousand]
  exact isPlus_unpack_pack (isPlus_mul_finite hx _)

theorem IsPlus.div_thousand (hx : x.IsPlus) : (x / 1000.0).IsPlus := by
  show UnpackedFloat.IsPlus (x / 1000.0).toModel.unpack
  rw [unpack_div, unpack_thousand]
  exact isPlus_unpack_pack (isPlus_div_finite hx _)

theorem isPlus_sub_of_lt (hx : x.IsPlus) (hy : y.isFinite = true) (h : y < x) : (x - y).IsPlus := by
  show UnpackedFloat.IsPlus (x - y).toModel.unpack
  by_cases hxf : x.isFinite = true
  · by_cases hy0 : y < 0
    · have hneg : ¬(NonNeg y.toModel.unpack ∨ y.toModel.unpack = .notANumber) :=
        fun h' => not_lt_zero_iff.mpr h' hy0
      change y.toModel.unpack.isFinite = true at hy
      rw [unpack_sub]
      apply isPlus_unpack_pack
      generalize y.toModel.unpack = Y at hy hneg
      cases Y with
      | zero s =>
        cases s
        · exact absurd (.inl (.inr rfl)) hneg
        · exact absurd (.inl (.inl .zero)) hneg
      | finite s m e hm =>
        cases s with
        | negative => exact isPlus_sub_negative hx hm
        | positive => exact absurd (.inl (.inl (.finite m e hm))) hneg
      | infinity s => cases hy
      | notANumber => cases hy
    · obtain ⟨q, hq⟩ := nonNegValue_of_isFinite (nonneg_of_not_lt_zero hy0 (isNaN_of_isFinite hy)) hy
      obtain ⟨p, hp⟩ := nonNegValue_of_isFinite hx.zero_le hxf
      have hqp : q < p := by
        by_contra hpq
        have hxy := (le_iff_value hp hq).mpr (not_lt.mp hpq)
        rw [le_iff_signedKey hx.isNaN (isNaN_of_isFinite hy)] at hxy
        rw [lt_iff_signedKey (isNaN_of_isFinite hy) hx.isNaN] at h
        omega
      exact (show (0 : Float).IsPlus by decide).of_lt (zero_lt_sub hp hq hqp)
  · have hx' : UnpackedFloat.IsPlus x.toModel.unpack := hx
    change ¬x.toModel.unpack.isFinite = true at hxf
    change y.toModel.unpack.isFinite = true at hy
    rw [unpack_sub]
    apply isPlus_unpack_pack
    generalize x.toModel.unpack = X at hx' hxf
    generalize y.toModel.unpack = Y at hy
    cases hx' with
    | zero => exact absurd rfl hxf
    | finite m e h => exact absurd rfl hxf
    | infinity => cases Y <;> first | exact .infinity | cases hy

theorem isPlus_sub_self (hy : y.isFinite = true) : (y - y).IsPlus := by
  show UnpackedFloat.IsPlus (y - y).toModel.unpack
  change y.toModel.unpack.isFinite = true at hy
  rw [unpack_sub]
  apply isPlus_unpack_pack
  generalize y.toModel.unpack = Y at hy ⊢
  cases Y with
  | zero s => cases s <;> exact .zero
  | finite s m e hm =>
    rw [sub_finite, sub_self, normalize_zero]
    exact .zero
  | infinity s => cases hy
  | notANumber => cases hy

theorem IsPlus.div_pos (hx : x.IsPlus) (hxf : x.isFinite = true) (hy : 0 < y) : (x / y).IsPlus := by
  have hy' : UnpackedFloat.IsPlus y.toModel.unpack := (show (0 : Float).IsPlus by decide).of_lt hy
  have hy0 : y.toModel.unpack ≠ .zero .positive := fun h0 => by
    rw [lt_iff_unpack, unpack_zero, h0] at hy
    exact absurd hy (by decide)
  have hx' : UnpackedFloat.IsPlus x.toModel.unpack := hx
  show UnpackedFloat.IsPlus (x / y).toModel.unpack
  change x.toModel.unpack.isFinite = true at hxf
  rw [unpack_div]
  apply isPlus_unpack_pack
  generalize x.toModel.unpack = X at hx' hxf
  generalize y.toModel.unpack = Y at hy' hy0
  cases hx' with
  | zero =>
    cases hy' with
    | zero => exact absurd rfl hy0
    | finite m e h => exact .zero
    | infinity => exact .zero
  | finite m₁ e₁ h₁ =>
    cases hy' with
    | zero => exact absurd rfl hy0
    | finite m e h => exact isPlus_roundWithAccuracy _ _ _
    | infinity => exact .zero
  | infinity => cases hxf

protected theorem lt_of_lt_of_le (hxy : x < y) {z : Float} (hyz : y ≤ z) : x < z := by
  obtain ⟨hx, -⟩ := isNaN_of_le (Float.le_of_lt hxy)
  obtain ⟨hy, hz⟩ := isNaN_of_le hyz
  rw [lt_iff_signedKey hx hy] at hxy
  rw [le_iff_signedKey hy hz] at hyz
  exact (lt_iff_signedKey hx hz).mpr (hxy.trans_le hyz)

theorem nonNegValue_thousand : NonNegValue (1000.0 : Float).toModel.unpack 1000 := by
  rw [unpack_thousand, show (1000 : ℚ) = value 8796093022208000 (-43) by norm_num [value]]
  exact .finite _ ⟨by norm_num, by norm_num, .inl (by norm_num)⟩ (by norm_num)

theorem pos_mul_thousand (hx : 0 < x) : 0 < x * 1000.0 := by
  have hx' : x.IsPlus := (show (0 : Float).IsPlus by decide).of_lt hx
  by_cases hxf : x.isFinite = true
  · obtain ⟨p, hp⟩ := nonNegValue_of_isFinite hx'.zero_le hxf
    have hle : x ≤ x * 1000.0 :=
      le_of_roundsFrom hp.roundsFrom (roundsFrom_mul hp nonNegValue_thousand)
        (le_mul_of_one_le_right hp.nonneg (by norm_num))
    exact Float.lt_of_lt_of_le hx hle
  · have hX : x.toModel.unpack = .infinity .positive := by
      have hX' : UnpackedFloat.IsPlus x.toModel.unpack := hx'
      change ¬x.toModel.unpack.isFinite = true at hxf
      generalize x.toModel.unpack = X at hX' hxf
      cases hX' with
      | zero => exact absurd rfl hxf
      | finite m e h => exact absurd rfl hxf
      | infinity => rfl
    rw [lt_iff_unpack, unpack_zero, unpack_mul, hX, unpack_thousand]
    rfl

end Float

namespace XrDelivery

open Float.Model Float.Model.UnpackedFloat

/-! ### Instants of the link -/

theorem maxOf_of_not_isNaN {a b : Float} (ha : a.isNaN = false) (hb : b.isNaN = false) :
    maxOf a b = if a < b then b else a := by
  simp only [maxOf, ha, hb, Bool.false_eq_true, if_false]

theorem maxOf_start {t b : Float} (ht : t.isFinite = true) (hb : b.IsPlus) :
    t ≤ maxOf t b ∧ b ≤ maxOf t b ∧ 0 ≤ maxOf t b ∧ (maxOf t b - t).IsPlus := by
  have htn := Float.isNaN_of_isFinite ht
  rw [maxOf_of_not_isNaN htn hb.isNaN]
  split
  · rename_i hlt
    exact ⟨Float.le_of_lt hlt, hb.le_refl, hb.zero_le, Float.isPlus_sub_of_lt hb ht hlt⟩
  · rename_i hge
    have hbt : b ≤ t := Float.le_of_not_lt htn hb.isNaN hge
    exact ⟨Float.le_refl htn, hbt, Float.nonneg_of_le hb.zero_le hbt, Float.isPlus_sub_self ht⟩

theorem maxOf_of_isPlus {a b : Float} (ha : a.IsPlus) (hb : b.IsPlus) :
    (maxOf a b).IsPlus ∧ a ≤ maxOf a b ∧ b ≤ maxOf a b ∧ (maxOf a b = a ∨ maxOf a b = b) := by
  rw [maxOf_of_not_isNaN ha.isNaN hb.isNaN]
  split
  · exact ⟨hb, Float.le_of_lt ‹_›, hb.le_refl, .inr rfl⟩
  · exact ⟨ha, ha.le_refl, Float.le_of_not_lt ha.isNaN hb.isNaN ‹_›, .inl rfl⟩

theorem foldl_maxOf {m : Float} (hm : m.IsPlus) {ws : List Float} (hws : ∀ w ∈ ws, w.IsPlus) :
    (ws.foldl maxOf m).IsPlus ∧ m ≤ ws.foldl maxOf m ∧ (∀ w ∈ ws, w ≤ ws.foldl maxOf m) ∧
      (ws.foldl maxOf m = m ∨ ws.foldl maxOf m ∈ ws) := by
  induction ws generalizing m with
  | nil => exact ⟨hm, hm.le_refl, by simp, .inl rfl⟩
  | cons w ws ih =>
    obtain ⟨hmw, hle₁, hle₂, heq⟩ := maxOf_of_isPlus hm (hws w List.mem_cons_self)
    obtain ⟨hM, hle, hall, hin⟩ := ih hmw (fun v hv => hws v (List.mem_cons_of_mem _ hv))
    rw [List.foldl_cons]
    refine ⟨hM, Float.le_trans hle₁ hle, ?_, ?_⟩
    · intro v hv
      rcases List.mem_cons.mp hv with rfl | hv
      · exact Float.le_trans hle₂ hle
      · exact hall v hv
    · rcases hin with hin | hin
      · rcases heq with heq | heq
        · exact .inl (hin.trans heq)
        · rw [hin, heq]
          exact .inr List.mem_cons_self
      · exact .inr (List.mem_cons_of_mem _ hin)

theorem serializationTime_isPlus {rate : Option Float} {len : Nat} {ser : Float}
    (hrate : ∀ r, rate = some r → 0 < r) (h : serializationTime rate len = .ok ser) : ser.IsPlus := by
  unfold serializationTime at h
  split at h
  · rename_i r
    split at h
    · cases h
      exact (Float.isPlus_toFloat _).div_pos (Float.isFinite_toFloat _)
        (Float.pos_mul_thousand (hrate r rfl))
    · cases h
  · cases h
    exact (show (0.0 : Float).IsPlus by decide)

theorem unit_isPlus (g : Random.Stream) : g.unit.1.IsPlus := by
  unfold Random.Stream.unit
  generalize g.nextWide = r
  obtain ⟨w, g'⟩ := r
  show UnpackedFloat.IsPlus ((w >>> 11).toFloat / Random.twoPow53).toModel.unpack
  rw [Float.unpack_div, unpack_twoPow53]
  exact isPlus_unpack_pack (isPlus_div_finite (Float.isPlus_toFloat _) _)

theorem drawJitter_bounds (g : Random.Stream) {j : Float} :
    (g.drawJitter j).1.PlusOrNaN ∧ ((g.drawJitter j).1.isNaN = true → j.isInf = true) := by
  unfold Random.Stream.drawJitter
  split
  · rename_i hpos
    change (0.0 : Float) < j at hpos
    have hu := unit_isPlus g
    generalize g.unit = r at hu ⊢
    obtain ⟨u, g'⟩ := r
    have hu' : UnpackedFloat.IsPlus u.toModel.unpack := hu
    have hJ : UnpackedFloat.IsPlus j.toModel.unpack := (show (0.0 : Float).IsPlus by decide).of_lt hpos
    have hJ0 : j.toModel.unpack ≠ .zero .positive := fun h0 => by
      rw [Float.lt_iff_unpack, h0] at hpos
      exact absurd hpos (by decide)
    have hprod : (u * j).PlusOrNaN := (Float.IsPlus.plusOrNaN hu).mul (.inl hJ)
    refine ⟨hprod, fun hn => ?_⟩
    rcases @isPlus_mul_or .binary64 _ _ hu' hJ with hp | ⟨-, hinf⟩ | ⟨-, hzero⟩
    · have hp' : (u * j).IsPlus := by
        show UnpackedFloat.IsPlus (u * j).toModel.unpack
        rw [Float.unpack_mul]
        exact isPlus_unpack_pack hp
      rw [hp'.isNaN] at hn
      cases hn
    · show j.toModel.unpack.isInf = true
      rw [hinf]
      rfl
    · exact absurd hzero hJ0
  · show (0.0 : Float).PlusOrNaN ∧ ((0.0 : Float).isNaN = true → j.isInf = true)
    exact ⟨.inl (by decide), fun h => absurd h (by decide)⟩

theorem release_le_arrival {stop d j : Float} (hstop : stop.IsPlus) (hd : 0 ≤ d) (hj : j.PlusOrNaN) :
    stop ≤ stop + (d + j) / 1000.0 ∨ ((stop + (d + j) / 1000.0).isNaN = true ∧ j.isNaN = true) := by
  rcases hj with hj | hj
  · have hdj : (d + j).IsPlus := by
      show UnpackedFloat.IsPlus (d + j).toModel.unpack
      rw [Float.unpack_add]
      exact isPlus_unpack_pack (isPlus_add_of_nonNeg (Float.zero_le_iff.mp hd) hj)
    exact .inl (hstop.le_add hdj.div_thousand.zero_le)
  · refine .inr ⟨?_, hj⟩
    rw [← Bool.not_eq_false]
    intro hn
    obtain ⟨-, h₁⟩ := Float.isNaN_add hn
    obtain ⟨h₂, -⟩ := Float.isNaN_div h₁
    obtain ⟨-, h₃⟩ := Float.isNaN_add h₂
    rw [hj] at h₃
    cases h₃

/-! ### Physical links -/

/-- Link conditions with a physical meaning: a delay of zero or more, and a rate above zero if the
link limits it. -/
structure Conditions.Physical (c : Conditions) : Prop where
  delay : 0 ≤ c.delayMs
  rate : ∀ r, c.rateKbit = some r → 0 < r

theorem Conditions.physical_perfect : Conditions.perfect.Physical where
  delay := by decide
  rate := by simp [Conditions.perfect]

instance (c : Conditions) : Decidable c.Physical :=
  decidable_of_iff (0 ≤ c.delayMs ∧ ∀ r ∈ c.rateKbit, 0 < r)
    ⟨fun h => ⟨h.1, fun r hr => h.2 r hr⟩, fun h => ⟨h.1, fun r hr => h.2 r hr⟩⟩

theorem Timeline.at_physical {tl : Timeline} (h : ∀ f ∈ tl.frames.toList, f.conditions.Physical)
    (t : Float) : (tl.at t).Physical := by
  unfold Timeline.at
  dsimp only
  split
  · rename_i f hf
    exact h f (Array.mem_toList_iff.mpr (Array.mem_of_getElem? hf))
  · exact Conditions.physical_perfect

/-! ### Slots on the link -/

/-- A datagram's hold on the link: sent at `sendAt`, taken by the link at `start` and released
at `stop`. -/
structure Slot where
  sendAt : Float
  start : Float
  stop : Float

/-- The instants at which the link takes and releases a datagram. -/
def Slot.bounds (s : Slot) : List Float := [s.start, s.stop]

/-- How long a datagram waited for the link, in milliseconds. -/
def Slot.waitMs (s : Slot) : Float := (s.start - s.sendAt) * 1000.0

/-- The slots of datagrams, each a sending instant and a length, offered in a row to a link free
from `free`: each is taken when sent or when the one before is released, and held for its
serialization time, lost or not. -/
def Timeline.slotsFrom (tl : Timeline) (free : Float) :
    List (Float × Nat) → Except ChannelError (List Slot)
  | [] => .ok []
  | c :: rest => do
    let ser ← serializationTime (tl.at c.1).rateKbit c.2
    let start := maxOf c.1 free
    let slots ← tl.slotsFrom (start + ser) rest
    pure (⟨c.1, start, start + ser⟩ :: slots)

/-- The slots of datagrams offered to a link that is free from instant zero on. -/
def Timeline.slots (tl : Timeline) (calls : List (Float × Nat)) : Except ChannelError (List Slot) :=
  tl.slotsFrom 0.0 calls

/-- A slot follows from the one before it: its datagram's serialization time, and the slots after
it from its release on. -/
theorem Timeline.slotsFrom_cons_eq_ok {tl : Timeline} {free : Float} {c : Float × Nat}
    {rest : List (Float × Nat)} {slots : List Slot} (h : tl.slotsFrom free (c :: rest) = .ok slots) :
    ∃ ser rest', serializationTime (tl.at c.1).rateKbit c.2 = .ok ser ∧
      tl.slotsFrom (maxOf c.1 free + ser) rest = .ok rest' ∧
      slots = ⟨c.1, maxOf c.1 free, maxOf c.1 free + ser⟩ :: rest' := by
  unfold Timeline.slotsFrom at h
  obtain ⟨ser, hser, h⟩ := exists_of_bind_eq_ok h
  obtain ⟨rest', hrest, h⟩ := exists_of_bind_eq_ok h
  cases h
  exact ⟨ser, rest', hser, hrest, rfl⟩

theorem Timeline.slotsFrom_sendAt {tl : Timeline} {free : Float} {calls : List (Float × Nat)}
    {slots : List Slot} (h : tl.slotsFrom free calls = .ok slots) :
    slots.map Slot.sendAt = calls.map Prod.fst := by
  induction calls generalizing free slots with
  | nil =>
    cases h
    rfl
  | cons c rest ih =>
    obtain ⟨ser, rest', -, hrest, rfl⟩ := Timeline.slotsFrom_cons_eq_ok h
    simp [ih hrest]

/-- On a physical link free from a plus instant, the slots of datagrams sent at finite instants
never go back, and each datagram is taken no earlier than it is sent. -/
theorem Timeline.slotsFrom_ordered {tl : Timeline} (htl : ∀ t, (tl.at t).Physical) {free : Float}
    (hfree : free.IsPlus) {calls : List (Float × Nat)} (hfin : ∀ c ∈ calls, c.1.isFinite = true)
    {slots : List Slot} (h : tl.slotsFrom free calls = .ok slots) :
    List.IsChain (· ≤ ·) (free :: slots.flatMap Slot.bounds) ∧
      ∀ s ∈ slots, s.sendAt ≤ s.start ∧ s.stop.IsPlus ∧ s.waitMs.IsPlus := by
  induction calls generalizing free slots with
  | nil =>
    cases h
    exact ⟨List.isChain_singleton _, by simp⟩
  | cons c rest ih =>
    obtain ⟨ser, rest', hser, hrest, rfl⟩ := Timeline.slotsFrom_cons_eq_ok h
    obtain ⟨hsent, hfreed, hstart, hwait⟩ :=
      maxOf_start (hfin c List.mem_cons_self) hfree
    have hser' := serializationTime_isPlus (htl c.1).rate hser
    have hstop : (maxOf c.1 free + ser).IsPlus := by
      rw [Float.add_comm]
      exact hser'.add hstart
    have hheld : maxOf c.1 free ≤ maxOf c.1 free + ser :=
      Float.le_add_of_nonneg (Float.neg_inf_lt_of_nonneg hstart) hser'.zero_le
    obtain ⟨hchain, hrest'⟩ := ih hstop (fun c' hc' => hfin c' (List.mem_cons_of_mem _ hc')) hrest
    refine ⟨?_, ?_⟩
    · simp only [List.flatMap_cons, Slot.bounds, List.cons_append, List.nil_append]
      exact List.isChain_cons_cons.mpr ⟨hfreed, List.isChain_cons_cons.mpr ⟨hheld, hchain⟩⟩
    · intro s hs
      rcases List.mem_cons.mp hs with rfl | hs
      · exact ⟨hsent, hstop, hwait.mul_thousand⟩
      · exact hrest' s hs

/-! ### Sends in a row -/

theorem addToWord_eq_ok {a : UInt64} {b : Nat} (h : a.toNat + b < 2 ^ 64) :
    addToWord a b = .ok (a + b.toUInt64) := by
  unfold addToWord
  exact if_pos h

/-- Offer datagrams in a row, each a sending instant and a length: the arrival of each, none for
a datagram that is lost, and the channel after the last. -/
def Channel.transmitEach (ch : Channel) :
    List (Float × Nat) → Except ChannelError (List (Option Float) × Channel)
  | [] => .ok ([], ch)
  | c :: rest => do
    let r ← ch.transmit c.1 c.2
    let w ← r.2.transmitEach rest
    pure (r.1 :: w.1, w.2)

namespace Channel

variable {ch ch' : Channel} {t : Float} {len : Nat} {a? : Option Float}

/-- A run of sends that went through: the first datagram was sent, then the rest on the channel
it left. -/
theorem transmitEach_cons_eq_ok {c : Float × Nat} {rest : List (Float × Nat)}
    {arrs : List (Option Float)} (h : ch.transmitEach (c :: rest) = .ok (arrs, ch')) :
    ∃ a? ch₁ arrs', ch.transmit c.1 c.2 = .ok (a?, ch₁) ∧
      ch₁.transmitEach rest = .ok (arrs', ch') ∧ arrs = a? :: arrs' := by
  unfold transmitEach at h
  obtain ⟨⟨a?, ch₁⟩, hr, h⟩ := exists_of_bind_eq_ok h
  obtain ⟨⟨arrs', ch₂⟩, hw, h⟩ := exists_of_bind_eq_ok h
  cases h
  exact ⟨a?, ch₁, arrs', hr, hw, rfl⟩

/-- One send: the link is busy until the datagram's release after its serialization time, and an
arrival, if any, is the release plus the delay and a drawn jitter. -/
theorem transmit_timing (h : ch.transmit t len = .ok (a?, ch')) :
    ∃ ser, serializationTime (ch.timeline.at t).rateKbit len = .ok ser ∧
      ch'.timeline = ch.timeline ∧ ch'.busyUntil = maxOf t ch.busyUntil + ser ∧
      ch'.stats.maxQueueingMs = maxOf ch.stats.maxQueueingMs ((maxOf t ch.busyUntil - t) * 1000.0) ∧
      ∀ a ∈ a?, ∃ g : Random.Stream, a = ch'.busyUntil +
        ((ch.timeline.at t).delayMs + (g.drawJitter (ch.timeline.at t).packetJitterMs).1) / 1000.0 := by
  unfold Channel.transmit at h
  obtain ⟨offered, -, h⟩ := exists_of_bind_eq_ok h
  dsimp only at h
  obtain ⟨ser, hser, h⟩ := exists_of_bind_eq_ok h
  refine ⟨ser, hser, ?_⟩
  split at h
  · obtain ⟨dropped, -, h⟩ := exists_of_bind_eq_ok h
    cases h
    exact ⟨rfl, rfl, rfl, by simp⟩
  · obtain ⟨delivered, -, h⟩ := exists_of_bind_eq_ok h
    obtain ⟨bytes, -, h⟩ := exists_of_bind_eq_ok h
    cases h
    refine ⟨rfl, rfl, rfl, ?_⟩
    rintro a ⟨⟩
    exact ⟨_, rfl⟩

/-- Sends in a row hold the link slot after slot, and the longest wait is the running maximum of the
slots' waits. -/
theorem transmitEach_slots {calls : List (Float × Nat)} {arrs : List (Option Float)}
    (h : ch.transmitEach calls = .ok (arrs, ch')) :
    ∃ slots, ch.timeline.slotsFrom ch.busyUntil calls = .ok slots ∧
      List.Forall₂ (fun s a? => ∀ a ∈ a?, ∃ g : Random.Stream, a = s.stop +
        ((ch.timeline.at s.sendAt).delayMs +
          (g.drawJitter (ch.timeline.at s.sendAt).packetJitterMs).1) / 1000.0) slots arrs ∧
      ch'.stats.maxQueueingMs = (slots.map Slot.waitMs).foldl maxOf ch.stats.maxQueueingMs := by
  induction calls generalizing ch arrs with
  | nil =>
    cases h
    exact ⟨[], rfl, .nil, rfl⟩
  | cons c rest ih =>
    obtain ⟨a?, ch₁, arrs', hr, hw, rfl⟩ := transmitEach_cons_eq_ok h
    obtain ⟨ser, hser, htl, hbusy, hmax, harr⟩ := transmit_timing hr
    obtain ⟨slots, hslots, hall, hmax'⟩ := ih hw
    rw [htl, hbusy] at hslots
    rw [htl] at hall
    refine ⟨⟨c.1, maxOf c.1 ch.busyUntil, maxOf c.1 ch.busyUntil + ser⟩ :: slots, ?_, ?_, ?_⟩
    · simp only [Timeline.slotsFrom, hser, bind, Except.bind, hslots]
      rfl
    · refine .cons (fun a ha => ?_) hall
      obtain ⟨g, hg⟩ := harr a ha
      exact ⟨g, by rw [hg, hbusy]⟩
    · rw [hmax', hmax]
      rfl

/-- Sends in a row count every datagram offered, each as dropped or delivered, and the bytes of
the delivered ones, those whose arrival is not none. -/
theorem transmitEach_counts {calls : List (Float × Nat)} {arrs : List (Option Float)}
    (h : ch.transmitEach calls = .ok (arrs, ch')) :
    arrs.length = calls.length ∧
      ch'.stats.offered.toNat = ch.stats.offered.toNat + calls.length ∧
      ch'.stats.dropped.toNat + (arrs.filterMap id).length = ch.stats.dropped.toNat + calls.length ∧
      ch'.stats.delivered.toNat = ch.stats.delivered.toNat + (arrs.filterMap id).length ∧
      ch'.stats.bytesDelivered.toNat = ch.stats.bytesDelivered.toNat +
        (((calls.zip arrs).filter (·.2.isSome)).map (·.1.2)).sum := by
  induction calls generalizing ch arrs with
  | nil =>
    cases h
    simp
  | cons c rest ih =>
    obtain ⟨a?, ch₁, arrs', hr, hw, rfl⟩ := transmitEach_cons_eq_ok h
    obtain ⟨ho₁, hd₁, hv₁, hb₁⟩ := transmit_counts hr
    obtain ⟨hl, ho₂, hd₂, hv₂, hb₂⟩ := ih hw
    cases a? with
    | none =>
      have hf : (none :: arrs').filterMap id = arrs'.filterMap id := rfl
      simp only [Option.toList_none, List.length_nil] at hd₁ hv₁ hb₁
      simp only [hf, List.length_cons, List.zip_cons_cons, List.filter_cons, Option.isSome_none,
        Bool.false_eq_true, if_false]
      omega
    | some a =>
      have hf : (some a :: arrs').filterMap id = a :: arrs'.filterMap id := rfl
      simp only [Option.toList_some, List.length_singleton] at hd₁ hv₁ hb₁
      simp only [hf, List.length_cons, List.zip_cons_cons, List.filter_cons, Option.isSome_some,
        if_true, List.map_cons, List.sum_cons]
      omega

/-- A send goes through when its count and its bits stay within 64-bit words. -/
theorem transmit_ok
    (hsum : ch.stats.dropped.toNat + ch.stats.delivered.toNat = ch.stats.offered.toNat)
    (hoff : ch.stats.offered.toNat + 1 < 2 ^ 64)
    (hbytes : ch.stats.bytesDelivered.toNat + 8 * len < 2 ^ 64) :
    ∃ r, ch.transmit t len = .ok r := by
  have hser : ∃ ser, serializationTime (ch.timeline.at t).rateKbit len = .ok ser := by
    unfold serializationTime
    split
    · rw [if_pos (show len * 8 < Nat.pow 2 64 by show len * 8 < 2 ^ 64; omega)]
      exact ⟨_, rfl⟩
    · exact ⟨_, rfl⟩
  obtain ⟨ser, hser⟩ := hser
  unfold Channel.transmit
  simp only [addToWord_eq_ok hoff, hser, bind, Except.bind]
  split
  · rw [addToWord_eq_ok (by omega)]
    exact ⟨_, rfl⟩
  · rw [addToWord_eq_ok (by omega), addToWord_eq_ok (by omega)]
    exact ⟨_, rfl⟩

/-- Sends in a row go through when their count and their bits stay within 64-bit words. -/
theorem transmitEach_ok
    (hsum : ch.stats.dropped.toNat + ch.stats.delivered.toNat = ch.stats.offered.toNat)
    {calls : List (Float × Nat)} (hoff : ch.stats.offered.toNat + calls.length < 2 ^ 64)
    (hbytes : ch.stats.bytesDelivered.toNat + 8 * (calls.map Prod.snd).sum < 2 ^ 64) :
    ∃ r, ch.transmitEach calls = .ok r := by
  induction calls generalizing ch with
  | nil => exact ⟨_, rfl⟩
  | cons c rest ih =>
    simp only [List.length_cons, List.map_cons, List.sum_cons] at hoff hbytes
    obtain ⟨⟨a?, ch₁⟩, hr⟩ := @transmit_ok ch c.1 c.2 hsum (by omega) (by omega)
    obtain ⟨ho, hd, hv, hb⟩ := transmit_counts hr
    have hlen : a?.toList.length * c.2 ≤ c.2 := by
      cases a? <;> simp
    obtain ⟨w, hw⟩ := @ih ch₁ (by omega) (by omega) (by omega)
    refine ⟨(a? :: w.1, w.2), ?_⟩
    simp only [transmitEach, hr, hw, bind, Except.bind]
    rfl

end Channel

/-! ### Datagrams held in order -/

/-- A datagram released at a plus instant on a link whose delay is zero or more arrives no
earlier than its release, unless a jitter of `+∞` met a draw of zero and made the arrival NaN. -/
theorem Slot.stop_le_arrival {tl : Timeline} {s : Slot} (hstop : s.stop.IsPlus)
    (hc : (tl.at s.sendAt).Physical) {a : Float}
    (ha : ∃ g : Random.Stream, a = s.stop + ((tl.at s.sendAt).delayMs +
      (g.drawJitter (tl.at s.sendAt).packetJitterMs).1) / 1000.0) :
    s.stop ≤ a ∨ (a.isNaN = true ∧ (tl.at s.sendAt).packetJitterMs.isInf = true) := by
  obtain ⟨g, rfl⟩ := ha
  obtain ⟨hj, hjn⟩ := drawJitter_bounds g (j := (tl.at s.sendAt).packetJitterMs)
  rcases release_le_arrival hstop hc.delay hj with hle | ⟨hn, hjnan⟩
  · exact .inl hle
  · exact .inr ⟨hn, hjn hjnan⟩

/-- What a link did with datagrams offered in a row: it took and released them in the timeline's
slots from instant zero, delivered each no earlier than its release (NaN apart), counted each as
dropped or delivered, and its longest wait is the largest wait of a slot. -/
structure HeldInOrder (tl : Timeline) (calls : List (Float × Nat)) (arrs : List (Option Float))
    (stats : ChannelStats) (slots : List Slot) : Prop where
  sendAt : slots.map Slot.sendAt = calls.map Prod.fst
  ordered : List.IsChain (· ≤ ·) (0.0 :: slots.flatMap Slot.bounds)
  sent_le_start : ∀ s ∈ slots, s.sendAt ≤ s.start
  arrivals : List.Forall₂ (fun s a? => ∀ a ∈ a?, s.stop ≤ a ∨
    (a.isNaN = true ∧ (tl.at s.sendAt).packetJitterMs.isInf = true)) slots arrs
  offered : stats.offered.toNat = calls.length
  dropped_add_delivered : stats.dropped.toNat + stats.delivered.toNat = calls.length
  delivered : stats.delivered.toNat = (arrs.filterMap id).length
  bytesDelivered : stats.bytesDelivered.toNat =
    (((calls.zip arrs).filter (·.2.isSome)).map (·.1.2)).sum
  wait_nonneg : 0 ≤ stats.maxQueueingMs
  wait_le : ∀ s ∈ slots, s.waitMs ≤ stats.maxQueueingMs
  wait_attained : stats.maxQueueingMs = 0.0 ∨ stats.maxQueueingMs ∈ slots.map Slot.waitMs

/-- A channel over physical conditions holds datagrams sent at finite instants one after another:
sends that fit its 64-bit counters go through, take and release their datagrams in order from
instant zero, deliver each no earlier than its release (NaN apart), and count each once. -/
theorem link_holds_datagrams_in_order {tl : Timeline}
    (htl : ∀ f ∈ tl.frames.toList, f.conditions.Physical) (seed : UInt64)
    {calls : List (Float × Nat)} (hfin : ∀ c ∈ calls, c.1.isFinite = true) :
    (calls.length + 8 * (calls.map Prod.snd).sum < 2 ^ 64 →
      ∃ r, (Channel.new tl seed).transmitEach calls = .ok r) ∧
    ∀ arrs ch, (Channel.new tl seed).transmitEach calls = .ok (arrs, ch) →
      ∃ slots, tl.slots calls = .ok slots ∧ HeldInOrder tl calls arrs ch.stats slots := by
  refine ⟨fun hbits => @Channel.transmitEach_ok (Channel.new tl seed) rfl calls
    (by simpa using hbits.trans_le' (by omega)) (by simpa using hbits.trans_le' (by omega)), ?_⟩
  intro arrs ch h
  obtain ⟨slots, hslots, harr, hmax⟩ := Channel.transmitEach_slots h
  obtain ⟨-, hoff, hdrop, hdel, hbytes⟩ := Channel.transmitEach_counts h
  simp only [Channel.new_timeline, Channel.new_busyUntil, Channel.new_stats] at *
  have hphys := Timeline.at_physical htl
  have hzero : (0.0 : Float).IsPlus := by decide
  obtain ⟨hchain, hslot⟩ := Timeline.slotsFrom_ordered hphys hzero hfin hslots
  obtain ⟨hM, -, hle, hin⟩ := @foldl_maxOf 0.0 hzero (slots.map Slot.waitMs)
    (by simpa using fun s hs => (hslot s hs).2.2)
  refine ⟨slots, hslots, ⟨Timeline.slotsFrom_sendAt hslots, hchain, fun s hs => (hslot s hs).1,
    ?_, ?_, ?_, ?_, ?_, ?_, ?_, ?_⟩⟩
  · refine ((List.forall₂_and_left _ _).mpr ⟨fun s hs => (hslot s hs).2.1, harr⟩).imp ?_
    rintro s a? ⟨hstop, hs⟩ a ha
    exact Slot.stop_le_arrival hstop (hphys s.sendAt) (hs a ha)
  · simpa using hoff
  · simp at hdrop hdel
    omega
  · simpa using hdel
  · simpa using hbytes
  · rw [hmax]
    exact hM.zero_le
  · intro s hs
    rw [hmax]
    exact hle _ (List.mem_map_of_mem hs)
  · rw [hmax]
    exact hin

/-- A link of 8 kbit/s with a delay of 8 ms, no jitter and no loss. -/
def eightKbitLink : Timeline :=
  ⟨#[{ time := ⟨0⟩, conditions := ⟨8.0, 0.0, 0.0, some 8.0⟩ }]⟩

/-- Two datagrams of a thousand bytes sent together, and a third half a second later: on a link
of 8 kbit/s each holds it for a second. -/
def thousandByteSends : List (Float × Nat) := [(0.0, 1000), (0.0, 1000), (0.5, 1000)]

theorem eightKbitLink_holds_sends_in_order :
    (∀ f ∈ eightKbitLink.frames.toList, f.conditions.Physical) ∧
      (∀ c ∈ thousandByteSends, c.1.isFinite = true) ∧
      (thousandByteSends.length + 8 * (thousandByteSends.map Prod.snd).sum < 2 ^ 64 →
        ∃ r, (Channel.new eightKbitLink 1).transmitEach thousandByteSends = .ok r) ∧
      ∀ arrs ch, (Channel.new eightKbitLink 1).transmitEach thousandByteSends = .ok (arrs, ch) →
        ∃ slots, eightKbitLink.slots thousandByteSends = .ok slots ∧
          HeldInOrder eightKbitLink thousandByteSends arrs ch.stats slots := by
  have hphys : ∀ f ∈ eightKbitLink.frames.toList, f.conditions.Physical := by decide
  have hfin : ∀ c ∈ thousandByteSends, c.1.isFinite = true := by decide
  exact ⟨hphys, hfin, link_holds_datagrams_in_order hphys 1 hfin⟩

theorem Channel.transmit_refuses_huge {ch : Channel} {t : Float} {len : Nat} {r : Float}
    (hr : (ch.timeline.at t).rateKbit = some r) (hlen : 2 ^ 61 ≤ len)
    (hoff : ch.stats.offered.toNat + 1 < 2 ^ 64) : ch.transmit t len = .error .countOverflow := by
  have hser : serializationTime (ch.timeline.at t).rateKbit len = .error .countOverflow := by
    unfold serializationTime
    rw [hr]
    exact if_neg (show ¬len * 8 < Nat.pow 2 64 by show ¬len * 8 < 2 ^ 64; omega)
  unfold Channel.transmit
  simp only [addToWord_eq_ok hoff, hser, bind, Except.bind]

/-- The default link, sampled over 100 ms from seed 1, limits its rate from instant zero, so a
datagram of `2^61` bytes sent then is refused. -/
theorem defaultLink_refuses_huge_datagram :
    ∃ tl, Timeline.generate {} 1 (Span.ofMillis 100) = .ok tl ∧
      (∀ f ∈ tl.frames.toList, f.conditions.Physical ∧ 0 ≤ f.conditions.packetJitterMs) ∧
      (Channel.new tl 1).transmitEach [(0.0, 2 ^ 61)] = .error .countOverflow := by
  have hcheck : ((Timeline.generate {} 1 (Span.ofMillis 100)).toOption.map fun tl =>
      decide (∀ f ∈ tl.frames.toList, f.conditions.Physical ∧ 0 ≤ f.conditions.packetJitterMs) &&
        (tl.at 0.0).rateKbit.isSome) = some true := by
    decide +kernel
  cases hgen : Timeline.generate {} 1 (Span.ofMillis 100) with
  | error e =>
    rw [hgen] at hcheck
    cases hcheck
  | ok tl =>
    rw [hgen] at hcheck
    simp only [Except.toOption, Option.map_some, Option.some.injEq, Bool.and_eq_true,
      decide_eq_true_eq] at hcheck
    obtain ⟨hphys, hrate⟩ := hcheck
    obtain ⟨r, hr⟩ := Option.isSome_iff_exists.mp hrate
    refine ⟨tl, rfl, hphys, ?_⟩
    have hrefused := @Channel.transmit_refuses_huge (Channel.new tl 1) 0.0 (2 ^ 61) r hr le_rfl
      (by simp)
    simp only [Channel.transmitEach, hrefused, bind, Except.bind]

end XrDelivery
