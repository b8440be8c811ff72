import Mathlib
import XrDelivery.Link.Timeline
import XrDelivery.Proofs.SignedOrder
import XrDelivery.Proofs.NearestRounding
import XrDelivery.Proofs.WalkRanges
import XrDelivery.Proofs.WalkBounds

/-!
# Looking up a timeline

`Timeline.at t` halves the frames for the number of them, from the front, whose instant in
seconds is at most `t`, and reads the frame before that count, or the first frame when the count
is zero. The halving is a correct count only when the frames at or before `t` form a prefix
(`countPrefix_spec`), which holds when the instants never go back. Then the lookup gives the
conditions in effect (`inEffect`): those of the last frame at or before `t`, those of the first
frame when there is none, and a perfect link on a timeline without frames
(`Timeline.at_eq_inEffect`).

A sampling of a link's walk makes one frame at time zero and one per step, at the step's
multiples capped at the greatest span (`LinkWalk.frames_times`). Their instants in seconds never
go back: a span in seconds is its whole seconds plus its nanoseconds over `10^9`, each the double
nearest its exact value, and on spans up to the greatest one that sum is monotone, though past
`2^53` the whole seconds are rounded (`Span.toSeconds_le_toSeconds`). So a generated timeline
gives the conditions in effect, and the first frame's at an instant that is negative or NaN
(`timeline_lookup_finds_conditions_in_effect`).
-/

namespace XrDelivery

/-- A frame whose instant, in seconds, is at most `t`. -/
def LinkFrame.startsBy (t : Float) (f : LinkFrame) : Bool := f.time.toSeconds <= t

/-- The conditions in effect at `t` on frames in time order: the last frame's at or before `t`, the
first frame's before all, a perfect link on none. -/
def inEffect (fs : List LinkFrame) (t : Float) : Conditions :=
  match (fs.filter (LinkFrame.startsBy t)).getLast?, fs.head? with
  | some f, _ => f.conditions
  | none, some f => f.conditions
  | none, none => Conditions.perfect

/-- What the halving of `countPrefix` knows between `lo` and `hi`: the frames before `lo`
satisfy `p`, and no frame from `hi` on does. -/
structure CountBounds (a : Array LinkFrame) (p : LinkFrame → Bool) (lo hi : Nat) : Prop where
  le : lo ≤ hi
  le_size : hi ≤ a.size
  below : ∀ i < lo, a[i]?.all p = true
  above : ∀ i, hi ≤ i → i < a.size → a[i]?.all p = false

/-- For a `p` that holds on a prefix of the frames, the count `countPrefix` finds is where `p`
stops holding. -/
theorem countPrefix_spec {a : Array LinkFrame} {p : LinkFrame → Bool}
    (hclosed : ∀ i j, i ≤ j → j < a.size → a[j]?.all p = true → a[i]?.all p = true)
    {lo hi : Nat} (hb : CountBounds a p lo hi) :
    CountBounds a p (countPrefix a p lo hi) (countPrefix a p lo hi) := by
  fun_induction countPrefix a p lo hi with
  | case1 lo hi hlt mid hmid ih =>
    have hsize := hb.le_size
    refine ih ⟨by omega, hsize, fun i hi => ?_, hb.above⟩
    exact hclosed i mid (by omega) (by omega) hmid
  | case2 lo hi hlt mid hmid ih =>
    refine ih ⟨by omega, by have := hb.le_size; omega, hb.below, fun i hi hsize => ?_⟩
    cases h : a[i]?.all p with
    | false => rfl
    | true => simp [hclosed mid i hi hsize h] at hmid
  | case3 lo hi hge =>
    exact ⟨le_rfl, by have := hb.le_size; have := hb.le; omega, hb.below,
      fun i hi => hb.above i (by have := hb.le; omega)⟩

/-- On frames where `p` holds exactly on the first `n`, the frames satisfying `p` are the first
`n`. -/
theorem filter_eq_take {p : LinkFrame → Bool} :
    ∀ {fs : List LinkFrame} {n : Nat}, n ≤ fs.length → (∀ i < n, fs[i]?.all p = true) →
      (∀ i, n ≤ i → i < fs.length → fs[i]?.all p = false) → fs.filter p = fs.take n
  | [], _, _, _, _ => by simp
  | f :: fs, 0, _, _, habove => by
    rw [List.take_zero, List.filter_eq_nil_iff]
    intro g hg
    obtain ⟨i, hi, rfl⟩ := List.getElem_of_mem hg
    simpa [List.getElem?_eq_getElem hi] using habove i (Nat.zero_le _) hi
  | f :: fs, n + 1, hlen, hbelow, habove => by
    have hf : p f = true := by simpa using hbelow 0 (Nat.succ_pos _)
    rw [List.filter_cons_of_pos hf, List.take_succ_cons,
      filter_eq_take (by simp at hlen; omega) (fun i hi => by simpa using hbelow (i + 1) (by omega))
        (fun i hi hsize => by simpa using habove (i + 1) (by omega) (by simp; omega))]

theorem getLast?_take_of_pos {fs : List LinkFrame} {n : Nat} (hn : 0 < n) (hlen : n ≤ fs.length) :
    (fs.take n).getLast? = fs[n - 1]? := by
  rw [List.getLast?_eq_getElem?, List.length_take, Nat.min_eq_left hlen, List.getElem?_take,
    if_pos (by omega)]

theorem Timeline.at_eq (tl : Timeline) (t : Float) :
    tl.at t = ((tl.frames[countPrefix tl.frames (LinkFrame.startsBy t) 0 tl.frames.size - 1]?).map
      LinkFrame.conditions).getD Conditions.perfect := by
  unfold Timeline.at
  rw [show (fun f : LinkFrame => decide (f.time.toSeconds ≤ t)) = LinkFrame.startsBy t from rfl]
  dsimp only
  split <;> simp_all

theorem Timeline.at_eq_inEffect {fs : List LinkFrame}
    (hord : fs.Pairwise fun f g => f.time.toSeconds ≤ g.time.toSeconds) (t : Float) :
    (Timeline.mk fs.toArray).at t = inEffect fs t := by
  -- the frames at or before `t` are a prefix: an earlier instant is at most a later one
  have hclosed : ∀ i j, i ≤ j → j < fs.toArray.size → fs.toArray[j]?.all (LinkFrame.startsBy t) = true →
      fs.toArray[i]?.all (LinkFrame.startsBy t) = true := by
    intro i j hij hj hp
    simp only [List.size_toArray, List.getElem?_toArray] at hj hp ⊢
    rw [List.getElem?_eq_getElem hj, Option.all_some] at hp
    rw [List.getElem?_eq_getElem (by omega), Option.all_some]
    rcases Nat.lt_or_eq_of_le hij with hlt | rfl
    · have hle := List.pairwise_iff_getElem.mp hord i j (by omega) hj hlt
      simp only [LinkFrame.startsBy, decide_eq_true_eq] at hp ⊢
      exact Float.le_trans hle hp
    · exact hp
  have hinit : CountBounds fs.toArray (LinkFrame.startsBy t) 0 fs.toArray.size :=
    ⟨Nat.zero_le _, le_rfl, fun i hi => absurd hi (Nat.not_lt_zero _),
      fun i hi hsize => absurd hsize (by omega)⟩
  obtain ⟨-, hsize, hbelow, habove⟩ := countPrefix_spec hclosed hinit
  rw [Timeline.at_eq]
  generalize countPrefix fs.toArray (LinkFrame.startsBy t) 0 fs.toArray.size = n at hsize hbelow habove ⊢
  simp only [List.size_toArray, List.getElem?_toArray] at hsize hbelow habove ⊢
  unfold inEffect
  rw [filter_eq_take hsize hbelow habove]
  rcases Nat.eq_zero_or_pos n with rfl | hn
  · cases fs <;> rfl
  · rw [getLast?_take_of_pos hn hsize, List.getElem?_eq_getElem (by omega)]
    rfl

/-- A sampling that succeeds from `n` frames before its end gives the frames at the step's
multiples: by induction on the frames left, with the frames made so far kept in reverse. -/
theorem LinkWalk.framesFrom_times {step : Span} {total : Nat} :
    ∀ (n : Nat) (w : LinkWalk) (acc : List LinkFrame) {fs : List LinkFrame} {w' : LinkWalk},
      LinkWalk.framesFrom step total n w acc = .ok (fs, w') → acc.length + n = total + 1 →
      acc.reverse.map LinkFrame.time = (List.range acc.length).map step.scale →
      fs.map LinkFrame.time = (List.range (total + 1)).map step.scale
  | 0, w, acc, fs, w', h, hlen, htimes => by
    simp only [LinkWalk.framesFrom, Except.ok.injEq, Prod.mk.injEq] at h
    rw [← h.1, htimes, show acc.length = total + 1 by omega]
  | left + 1, w, acc, fs, w', h, hlen, htimes => by
    unfold LinkWalk.framesFrom at h
    dsimp only at h
    split at h
    · cases h
    · rename_i w₁ _
      refine LinkWalk.framesFrom_times left w₁ _ h (by simp; omega) ?_
      simp [htimes, List.range_succ, show total - left = acc.length by omega]

theorem LinkWalk.frames_times {w w' : LinkWalk} {d : Span} {fs : List LinkFrame}
    (h : w.frames d = .ok (fs, w')) :
    ∃ (step : Span) (total : Nat), fs.map LinkFrame.time = (List.range (total + 1)).map step.scale := by
  unfold LinkWalk.frames at h
  exact ⟨_, _, LinkWalk.framesFrom_times _ w [] h (by simp) (by simp)⟩

/-! A span's instant in seconds is its whole seconds plus its nanoseconds over `10^9`, each the
double nearest its exact value; on spans up to the greatest one the sum never goes back. -/

open Float.Model.UnpackedFloat in
theorem nonNegValue_billion : NonNegValue (1000000000.0 : Float).toModel.unpack 1000000000 := by
  rw [show (1000000000.0 : Float) = (1000000000 : UInt64).toFloat by decide]
  simpa using Float.nonNegValue_toFloat 1000000000 (by decide)

/-- The whole seconds of a span, as a double. -/
def Span.wholePart (s : Span) : Float := (s.nanos / nanosPerSecond).toUInt64.toFloat

/-- The nanoseconds of a span past its whole seconds, over `10^9`, as a double. -/
def Span.fractionPart (s : Span) : Float :=
  (s.nanos % nanosPerSecond).toUInt64.toFloat / 1000000000.0

theorem Span.toSeconds_eq (s : Span) : s.toSeconds = s.wholePart + s.fractionPart := rfl

section SpanSeconds

open Float.Model.UnpackedFloat

theorem Span.toNat_wholeSeconds {s : Span} (h : s.nanos ≤ Span.max) :
    (s.nanos / nanosPerSecond).toUInt64.toNat = s.nanos / nanosPerSecond := by
  simp only [Span.max, nanosPerSecond, Nat.pow_eq] at h
  simp only [Nat.toUInt64, UInt64.toNat_ofNat', nanosPerSecond]
  omega

theorem Span.roundsFrom_wholePart {s : Span} (h : s.nanos ≤ Span.max) :
    RoundsFrom s.wholePart.toModel.unpack (s.nanos / nanosPerSecond : Nat) := by
  have hr := Float.roundsFrom_toFloat (s.nanos / nanosPerSecond).toUInt64
  rwa [Span.toNat_wholeSeconds h] at hr

theorem Span.nonNegValue_wholePart (s : Span) : ∃ a, NonNegValue s.wholePart.toModel.unpack a :=
  Float.nonNegValue_of_isFinite (Float.isPlus_toFloat _).zero_le (Float.isFinite_toFloat _)

theorem Span.roundsFrom_fractionPart (s : Span) :
    RoundsFrom s.fractionPart.toModel.unpack ((s.nanos % nanosPerSecond : Nat) / 1000000000) := by
  have hlt : s.nanos % nanosPerSecond < 1000000000 := Nat.mod_lt _ (by decide)
  have hr : (s.nanos % nanosPerSecond).toUInt64.toNat = s.nanos % nanosPerSecond := by
    simp only [Nat.toUInt64, UInt64.toNat_ofNat']
    omega
  have hn := Float.nonNegValue_toFloat (s.nanos % nanosPerSecond).toUInt64 (by rw [hr]; omega)
  rw [hr] at hn
  exact Float.roundsFrom_div hn nonNegValue_billion (by norm_num)

theorem Span.zero_le_fractionPart (s : Span) : 0 ≤ s.fractionPart :=
  Float.le_of_roundsFrom (by rw [Float.unpack_zero]; exact .zero _) s.roundsFrom_fractionPart
    (by positivity)

theorem Span.fractionPart_lt_one (s : Span) :
    ∃ b, NonNegValue s.fractionPart.toModel.unpack b ∧ b < 1 := by
  have htop : s.fractionPart ≤ (⟨999999999⟩ : Span).fractionPart := by
    refine Float.le_of_roundsFrom s.roundsFrom_fractionPart (⟨999999999⟩ : Span).roundsFrom_fractionPart ?_
    have : s.nanos % nanosPerSecond ≤ 999999999 := by
      have := Nat.mod_lt s.nanos (show 0 < nanosPerSecond by decide)
      unfold nanosPerSecond at *
      omega
    gcongr
    exact_mod_cast this.trans (by decide)
  obtain ⟨β, hβ⟩ := Float.nonNegValue_of_isFinite
    (by decide : (0 : Float) ≤ (⟨999999999⟩ : Span).fractionPart) (by decide)
  obtain ⟨b, hb, hbβ⟩ := Float.nonNegValue_of_le s.zero_le_fractionPart htop hβ
  refine ⟨b, hb, lt_of_le_of_lt hbβ (not_le.mp fun hge => ?_)⟩
  have : (1.0 : Float) ≤ (⟨999999999⟩ : Span).fractionPart :=
    (Float.le_iff_value nonNegValue_one hβ).mpr hge
  exact absurd this (by decide)

theorem Span.add_le_wholePart {s s' : Span}
    (hlt : s.nanos / nanosPerSecond < s'.nanos / nanosPerSecond) (h' : s'.nanos ≤ Span.max) :
    s.wholePart + s.fractionPart ≤ s'.wholePart := by
  have hs : s.nanos ≤ Span.max := by
    have : s.nanos < s'.nanos := by
      by_contra hge
      exact absurd (Nat.div_le_div_right (not_lt.mp hge)) (not_le.mpr hlt)
    omega
  obtain ⟨a, ha⟩ := s.nonNegValue_wholePart
  obtain ⟨b, hb, hb1⟩ := s.fractionPart_lt_one
  have hw := Span.roundsFrom_wholePart hs
  have hw' := Span.roundsFrom_wholePart h'
  have hnext : ((s.nanos / nanosPerSecond : Nat) : ℚ) + 1 ≤ (s'.nanos / nanosPerSecond : Nat) := by
    exact_mod_cast hlt
  by_cases hdown : a ≤ (s.nanos / nanosPerSecond : Nat)
  · exact Float.le_of_roundsFrom (Float.roundsFrom_add ha hb) hw' (by linarith)
  · have hbig : 9007199254740992 < s.nanos / nanosPerSecond := by
      by_contra hsmall
      have hexact := Float.nonNegValue_toFloat (s.nanos / nanosPerSecond).toUInt64
        (by rw [Span.toNat_wholeSeconds hs]; omega)
      rw [Span.toNat_wholeSeconds hs] at hexact
      exact hdown (ha.unique hexact).le
    have h53 : (2 : ℚ) ^ 53 ≤ a := by
      have hle : (9007199254740992 : UInt64).toFloat ≤ s.wholePart :=
        Float.toFloat_le_toFloat (by rw [Span.toNat_wholeSeconds hs]; simp; omega)
      have h53v : NonNegValue (9007199254740992 : UInt64).toFloat.toModel.unpack (2 ^ 53) := by
        norm_num
        simpa using Float.nonNegValue_toFloat 9007199254740992 (by decide)
      exact (Float.le_iff_value h53v ha).mp hle
    obtain ⟨X, hX⟩ : ∃ X, s.wholePart.toModel.unpack = X := ⟨_, rfl⟩
    rw [hX] at ha
    cases ha with
    | zero => norm_num at h53
    | @finite m e hm hc he =>
      have he1 : 1 ≤ e := one_le_exponent hc h53
      have hhalf : b < 2 ^ (e - 1) := lt_of_lt_of_le hb1 (one_le_zpow₀ one_le_two (by omega))
      rw [Float.le_iff_unpack, Float.unpack_add_of_lt_half hX hb hhalf, ← Float.le_iff_unpack]
      exact Float.toFloat_le_toFloat
        (by rw [Span.toNat_wholeSeconds hs, Span.toNat_wholeSeconds h']; omega)

theorem Span.toSeconds_le_toSeconds {s s' : Span} (h : s.nanos ≤ s'.nanos)
    (h' : s'.nanos ≤ Span.max) : s.toSeconds ≤ s'.toSeconds := by
  rw [Span.toSeconds_eq, Span.toSeconds_eq]
  rcases (Nat.div_le_div_right (c := nanosPerSecond) h).lt_or_eq with hlt | heq
  · exact Float.le_trans (Span.add_le_wholePart hlt h')
      ((Float.isPlus_toFloat _).le_add s'.zero_le_fractionPart)
  · have hwhole : s.wholePart = s'.wholePart := by rw [Span.wholePart, Span.wholePart, heq]
    obtain ⟨a, ha⟩ := s'.nonNegValue_wholePart
    obtain ⟨b, hb, -⟩ := s.fractionPart_lt_one
    obtain ⟨b', hb', -⟩ := s'.fractionPart_lt_one
    have hfrac : s.fractionPart ≤ s'.fractionPart := by
      refine Float.le_of_roundsFrom s.roundsFrom_fractionPart s'.roundsFrom_fractionPart ?_
      have hmod : s.nanos % nanosPerSecond ≤ s'.nanos % nanosPerSecond := by
        have := Nat.div_add_mod s.nanos nanosPerSecond
        have := Nat.div_add_mod s'.nanos nanosPerSecond
        unfold nanosPerSecond at *
        omega
      gcongr
    rw [hwhole]
    exact Float.le_of_roundsFrom (Float.roundsFrom_add ha hb) (Float.roundsFrom_add ha hb')
      (by linarith [(Float.le_iff_value hb hb').mp hfrac])

theorem Span.zero_le_toSeconds (s : Span) : 0 ≤ s.toSeconds :=
  ((Float.isPlus_toFloat _).add s.zero_le_fractionPart).zero_le

theorem Span.toSeconds_zero : (⟨0⟩ : Span).toSeconds = 0 := by decide

end SpanSeconds

theorem LinkWalk.frames_ordered {w w' : LinkWalk} {d : Span} {fs : List LinkFrame}
    (h : w.frames d = .ok (fs, w')) :
    fs.Pairwise fun f g => f.time.toSeconds ≤ g.time.toSeconds := by
  obtain ⟨step, total, htimes⟩ := LinkWalk.frames_times h
  have hmap : (fs.map LinkFrame.time).Pairwise fun a b => a.toSeconds ≤ b.toSeconds := by
    rw [htimes, List.pairwise_map]
    refine (List.pairwise_lt_range).imp fun {i j} hij =>
      Span.toSeconds_le_toSeconds ?_ (min_le_right _ _)
    exact min_le_min_right _ (Nat.mul_le_mul_left _ hij.le)
  rwa [List.pairwise_map] at hmap

theorem LinkWalk.frames_head {w w' : LinkWalk} {d : Span} {fs : List LinkFrame}
    (h : w.frames d = .ok (fs, w')) : ∃ f, fs.head? = some f ∧ f.time = ⟨0⟩ := by
  obtain ⟨step, total, htimes⟩ := LinkWalk.frames_times h
  have hhead := congrArg List.head? htimes
  rw [List.head?_map, List.head?_map, List.head?_range] at hhead
  cases hf : fs.head? with
  | none => simp [hf] at hhead
  | some f =>
    refine ⟨f, rfl, ?_⟩
    simpa [hf, Span.scale] using hhead

/-- A generated timeline is in time order, and a lookup at `x` gives the last frame at or before
`x`, the first frame's conditions when `x` is negative or NaN, and a perfect link on no frames. -/
theorem timeline_lookup_finds_conditions_in_effect {p : LinkProfile} {seed : UInt64} {d : Span}
    {tl : Timeline} (h : Timeline.generate p seed d = .ok tl) (x : Float) :
    tl.frames.toList.Pairwise (fun f g => f.time.toSeconds ≤ g.time.toSeconds) ∧
      (∀ f, (tl.frames.toList.filter (LinkFrame.startsBy x)).getLast? = some f →
        tl.at x = f.conditions) ∧
      (tl.frames.toList.filter (LinkFrame.startsBy x) = [] ↔ x < 0 ∨ x.isNaN = true) ∧
      (x < 0 ∨ x.isNaN = true → ∃ f, tl.frames.toList.head? = some f ∧ tl.at x = f.conditions) ∧
      (∀ f, tl.frames.toList.getLast? = some f → f.time.toSeconds ≤ x → tl.at x = f.conditions) ∧
      (Timeline.mk #[]).at x = Conditions.perfect := by
  unfold Timeline.generate at h
  split at h
  · rename_i fs w' hw
    cases h
    have hord := LinkWalk.frames_ordered hw
    have hat := Timeline.at_eq_inEffect hord x
    obtain ⟨f₀, hhead, htime₀⟩ := LinkWalk.frames_head hw
    have hnone : fs.filter (LinkFrame.startsBy x) = [] ↔ x < 0 ∨ x.isNaN = true := by
      rw [List.filter_eq_nil_iff]
      constructor
      · intro hno
        have h₀ := hno f₀ (List.mem_of_mem_head? hhead)
        simp only [LinkFrame.startsBy, htime₀, Span.toSeconds_zero, decide_eq_true_eq] at h₀
        by_contra hx
        rw [not_or, Bool.not_eq_true] at hx
        exact h₀ (Float.nonneg_of_not_lt_zero hx.1 hx.2)
      · rintro hx g - hg
        simp only [LinkFrame.startsBy, decide_eq_true_eq] at hg
        have h0x := Float.le_trans g.time.zero_le_toSeconds hg
        rcases hx with hneg | hnan
        · exact Float.not_lt_zero_of_nonneg h0x hneg
        · rw [(Float.isNaN_of_le h0x).2] at hnan
          cases hnan
    refine ⟨hord, fun f hf => ?_, hnone, fun hx => ⟨f₀, hhead, ?_⟩, fun f hlast hle => ?_, ?_⟩
    · rw [hat, inEffect, hf]
    · rw [hat, inEffect, hnone.mpr hx, List.getLast?_nil, hhead]
    · obtain ⟨init, rfl⟩ := List.getLast?_eq_some_iff.mp hlast
      have hf : LinkFrame.startsBy x f = true := by simpa [LinkFrame.startsBy] using hle
      rw [hat, inEffect, List.filter_append, List.filter_singleton, hf]
      simp
    · simpa [inEffect] using @Timeline.at_eq_inEffect [] List.Pairwise.nil x
  · cases h

/-- The default profile's walk over a quarter of a second, looked up between its frames. -/
theorem defaultTimeline_lookup :
    ∃ tl, Timeline.generate {} 7 ⟨250000000⟩ = .ok tl ∧
      (tl.frames.toList.Pairwise (fun f g => f.time.toSeconds ≤ g.time.toSeconds) ∧
        (∀ f, (tl.frames.toList.filter (LinkFrame.startsBy 0.15)).getLast? = some f →
          tl.at 0.15 = f.conditions) ∧
        (tl.frames.toList.filter (LinkFrame.startsBy 0.15) = [] ↔ 0.15 < 0 ∨ (0.15 : Float).isNaN = true) ∧
        ((0.15 : Float) < 0 ∨ (0.15 : Float).isNaN = true →
          ∃ f, tl.frames.toList.head? = some f ∧ tl.at 0.15 = f.conditions) ∧
        (∀ f, tl.frames.toList.getLast? = some f → f.time.toSeconds ≤ 0.15 →
          tl.at 0.15 = f.conditions) ∧
        (Timeline.mk #[]).at 0.15 = Conditions.perfect) := by
  obtain ⟨⟨fs, w⟩, hw⟩ :=
    (LinkWalk.frames_isOk_iff (LinkWalk.new {} 7) ⟨250000000⟩).mpr (Or.inr (by decide))
  have hgen : Timeline.generate {} 7 ⟨250000000⟩ = .ok ⟨fs.toArray⟩ := by
    unfold Timeline.generate
    rw [hw]
  exact ⟨_, hgen, timeline_lookup_finds_conditions_in_effect hgen 0.15⟩

end XrDelivery
