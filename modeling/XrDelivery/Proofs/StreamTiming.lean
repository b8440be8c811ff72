import Mathlib
import XrDelivery.Proofs.LinkTiming
import XrDelivery.Proofs.SenderRun
import XrDelivery.Proofs.SenderProtocol

/-!
# When the streams of a resolved run send

A resolved configuration gives every user a start offset that is not below zero
(`ConfigInput.resolve_link_users`), and its link a base delay that is not below zero unless the
link is ideal. The streams set up from it are *timely* (`RunConfig.timely_of_setupStreams`): the
conditions of the stream's link are sound at every instant and the link is free from instant
zero, and the sender's first frame waits an offset of zero or more. What makes the link's
conditions sound is that the span of conditions a stream asks for is never below the margin
(`not_lt_streamHorizon`), so the walk of the link takes a step and its bounds are checked.

Started at instant zero, a timely sender is first polled at a plus instant
(`Sender.start_isPlus`), and every poll that sends schedules the next one no earlier
(`Sender.poll_next`).
-/

namespace XrDelivery

open Float

section ExceptFold

variable {ε α β : Type}

theorem foldlM_invariant (P : β → Prop) {step : β → α → Except ε β} {l : List α} {init r : β}
    (hinit : P init) (hstep : ∀ b a b', a ∈ l → P b → step b a = .ok b' → P b')
    (h : l.foldlM step init = .ok r) : P r := by
  induction l generalizing init with
  | nil => cases h; exact hinit
  | cons a l ih =>
    rw [List.foldlM_cons] at h
    obtain ⟨b, hb, h⟩ := exists_of_bind_eq_ok h
    exact ih (hstep init a b List.mem_cons_self hinit hb)
      (fun b a b' ha => hstep b a b' (List.mem_cons_of_mem _ ha)) h

end ExceptFold

section Resolution

theorem UserScan.add_done {shared : CatalogSource} {start : Float} {s s' : UserScan} {idx : Nat}
    {u : UserInput} (h : s.add shared start idx u = .ok s') :
    ∃ user : UserConfig, s'.done = user :: s.done ∧ ¬user.startOffset < 0 := by
  unfold UserScan.add at h
  dsimp only at h
  split at h
  · cases h
  split at h
  · cases h
  · rename_i hstart
    cases h
    refine ⟨_, rfl, ?_⟩
    simp only [Bool.or_eq_true, Bool.not_eq_true', decide_eq_true_eq, not_or] at hstart
    exact hstart.2

theorem ConfigInput.resolve_link_users {ci : ConfigInput} {c : RunConfig} (h : ci.resolve = .ok c) :
    ci.link.resolve = .ok c.link ∧ ∀ u ∈ c.users, ¬u.startOffset < 0 := by
  obtain ⟨-, -, -, hlink, scan, hscan, -, husers⟩ := ConfigInput.resolve_eq_ok h
  refine ⟨hlink, ?_⟩
  have hdone := foldlM_invariant (fun s : UserScan => ∀ u ∈ s.done, ¬u.startOffset < 0) ?_
    (fun s a s' _ hs hstep => ?_) hscan
  · rw [husers]
    simpa using hdone
  · simp
  · obtain ⟨user, hdone, huser⟩ := UserScan.add_done hstep
    rw [hdone]
    exact List.forall_mem_cons.mpr ⟨huser, hs⟩

end Resolution

section Sending

variable {s s' : Sender} {now : Float}

theorem Pacer.new_timing {fps offset : Float} {j : Jitter} {n : Nat} {p : Pacer}
    (h : Pacer.new fps offset j n = .ok p) : ¬fps ≤ 0.0 ∧ 0 ≤ p.startOffset := by
  unfold Pacer.new at h
  split at h
  · cases h
  · rename_i hfps
    obtain ⟨sampler, -, h⟩ := exists_of_bind_eq_ok h
    cases h
    simp only [Bool.or_eq_true, Bool.not_eq_true', decide_eq_true_eq, not_or] at hfps
    exact ⟨hfps.2, zero_le_atLeast _⟩

theorem Sender.new_timing {c : SenderConfig} {cat : Catalog} (h : Sender.new c cat = .ok s) :
    ¬c.fps ≤ 0.0 ∧ 0 ≤ s.pacer.startOffset := by
  unfold Sender.new at h
  obtain ⟨-, -, h⟩ := exists_of_bind_eq_ok h
  obtain ⟨p, hp, h⟩ := exists_of_bind_eq_ok h
  cases h
  exact Pacer.new_timing hp

theorem Pacer.start_isPlus {p : Pacer} (hoff : 0 ≤ p.startOffset) (hnow : now.IsPlus) :
    ∀ t, (p.start now).1 = some t → t.IsPlus := by
  unfold Pacer.start
  split
  · simp
  · rintro t ⟨⟩
    exact (hnow.add hoff).add (Pacer.zero_le_nextInterval p)

theorem Sender.start_isPlus {dir : Directory} {first : Option Float}
    (hoff : 0 ≤ s.pacer.startOffset) (hnow : now.IsPlus) (h : s.start now dir = .ok (first, s')) :
    ∀ t, first = some t → t.IsPlus := by
  unfold Sender.start at h
  split at h
  · cases h
  · cases h
    exact Pacer.start_isPlus hoff hnow

theorem Sender.poll_next {b : Burst} (hnow : now.IsPlus) (h : s.poll now = .ok (some b, s')) :
    ∀ t, b.nextSendAt = some t → t.IsPlus ∧ now ≤ t := by
  unfold Sender.poll Sender.emit at h
  split at h
  · cases h
  · split at h
    · cases h
    · dsimp only at h
      split at h
      · cases h
      · rename_i i htick
        split at h
        · cases h
        · split at h
          · cases h
          · cases h
            rcases Pacer.tick_cases s.pacer now with hnone | ⟨-, -, -, -, -, hnext⟩
            · rw [hnone] at htick
              cases htick
            · intro t ht
              obtain ⟨iv, hiv, rfl⟩ := hnext t ht
              exact ⟨hnow.add hiv, hnow.le_add hiv⟩

end Sending

section Setup

theorem not_lt_streamHorizon {offset : Float} (hoff : ¬offset < 0) (n : Nat) {c : SenderConfig}
    (hfps : ¬c.fps ≤ 0.0) : ¬streamHorizon offset n c < timelineMargin := by
  have h5 : timelineMargin.IsPlus := by decide
  have hper : (1.0 / c.fps + atLeast 0.0 c.jitter.max / 1000.0).PlusOrNaN :=
    ((show (1.0 : Float).IsPlus by decide).plusOrNaN.div (plusOrNaN_of_not_le_zero hfps)).add
      ((isPlus_atLeast (by decide) _).plusOrNaN.div (show (1000.0 : Float).IsPlus by decide).plusOrNaN)
  have hspan := PlusOrNaN.add_of_not_lt hoff ((plusOrNaN_toFloat n).mul hper)
  unfold streamHorizon
  rcases hspan.add h5.plusOrNaN with hplus | hnan
  · have hY := hspan.isPlus (isNaN_add hplus.isNaN).1
    rw [Float.add_comm] at hplus ⊢
    exact h5.not_lt_of_le hplus (h5.le_add hY.zero_le)
  · exact not_lt_of_isNaN hnan _

/-- What a resolved run's setup guarantees of a stream's timing: sound link conditions, a link free
from instant zero, and a first frame offset of zero or more. -/
structure StreamSetup.Timely (s : StreamSetup) : Prop where
  channel : s.channel.Sound
  offset : 0 ≤ s.sender.pacer.startOffset

variable {c : RunConfig} {read : FileReader}

/-- A stream is timely when its link's base delay is not below zero, or when its link has no
delay range and its user starts at an offset not below zero. -/
theorem RunConfig.setupStream_timely {agg agg' : Aggregator} {i : Nat} {u : UserConfig}
    {s : StreamSetup}
    (hlink : ¬c.link.baseDelayMs < 0 ∨ c.link.delayRangeMs = 0.0 ∧ ¬u.startOffset < 0)
    (h : c.setupStream read agg i u = .ok (s, agg')) : s.Timely := by
  unfold RunConfig.setupStream at h
  obtain ⟨cat, -, h⟩ := exists_of_bind_eq_ok h
  obtain ⟨span, hspan, h⟩ := exists_of_bind_eq_ok h
  obtain ⟨tl, htl, h⟩ := exists_of_bind_eq_ok h
  obtain ⟨tx, htx, h⟩ := exists_of_bind_eq_ok h
  obtain ⟨⟨rx, agg₁⟩, -, h⟩ := exists_of_bind_eq_ok h
  cases h
  obtain ⟨hfps, hoff⟩ := Sender.new_timing (ok_of_mapError_eq_ok htx)
  have hsound : ∀ f ∈ tl.frames.toList, f.conditions.Sound := by
    rcases hlink with hbase | ⟨hrange, hu⟩
    · exact Timeline.generate_sound hbase (ok_of_mapError_eq_ok htl)
    · exact Timeline.generate_sound_of_resolved (.inr hrange)
        (Span.nanos_pos_of_ofSeconds (ok_of_mapError_eq_ok hspan) (not_lt_streamHorizon hu _ hfps))
        (ok_of_mapError_eq_ok htl)
  exact ⟨⟨.inl (show (0.0 : Float).IsPlus by decide), Timeline.at_sound hsound⟩, hoff⟩

/-- What holds of every stream set up for a user of a run holds of every stream of the run. -/
theorem RunConfig.forall_of_setupStreams {P : StreamSetup → Prop}
    (hP : ∀ agg agg' i u s, u ∈ c.users → c.setupStream read agg i u = .ok (s, agg') → P s)
    {setups : List StreamSetup} {agg : Aggregator} (h : c.setupStreams read = .ok (setups, agg)) :
    ∀ s ∈ setups, P s := by
  unfold setupStreams at h
  obtain ⟨⟨acc, agg₀⟩, hf, h⟩ := exists_of_bind_eq_ok h
  cases h
  have hacc := foldlM_invariant (fun p : List StreamSetup × Aggregator => ∀ s ∈ p.1, P s)
    ?_ ?_ hf
  · simpa using hacc
  · simp
  · rintro ⟨acc, agg⟩ ⟨u, i⟩ ⟨acc', agg'⟩ hui hacc hstep
    obtain ⟨⟨s, agg₁⟩, hs, hstep⟩ := exists_of_bind_eq_ok hstep
    cases hstep
    intro s' hs'
    rcases List.mem_cons.mp hs' with rfl | hs'
    · exact hP _ _ _ _ _ (List.fst_mem_of_mem_zipIdx hui) hs
    · exact hacc s' hs'

theorem RunConfig.timely_of_setupStreams {ci : ConfigInput} {setups : List StreamSetup}
    {agg : Aggregator} (hc : ci.resolve = .ok c) (h : c.setupStreams read = .ok (setups, agg)) :
    ∀ s ∈ setups, s.Timely := by
  obtain ⟨hlink, husers⟩ := ConfigInput.resolve_link_users hc
  have hdelay := LinkInput.resolve_delay hlink
  exact forall_of_setupStreams (fun _ _ _ u _ hu hs =>
    setupStream_timely (hdelay.imp id fun hrange => ⟨hrange, husers u hu⟩) hs) h

theorem RunConfig.timely_of_baseDelay {setups : List StreamSetup} {agg : Aggregator}
    (hbase : ¬c.link.baseDelayMs < 0) (h : c.setupStreams read = .ok (setups, agg)) :
    ∀ s ∈ setups, s.Timely :=
  forall_of_setupStreams (fun _ _ _ _ _ _ hs => setupStream_timely (.inl hbase) hs) h

end Setup

end XrDelivery
