import XrDelivery.Jitter
/-!
# The frame pacer

The pacer decides when each frame of a catalog is sent. Frames go out one per interval
`1/fps` seconds, each interval perturbed by a jitter sample and never negative. The first
frame waits for the start offset (negative offsets count as zero) and one interval.

The pacer holds the index of the next frame and the instant it is due; it never emits more
frames than the catalog holds: once all are emitted nothing is due any more.
-/
namespace XrDelivery

/-- The state of the pacer. -/
structure Pacer where
  fps : Float
  startOffset : Float
  jitter : JitterSampler
  frameIndex : Nat
  totalFrames : Nat
  nextSendAt : Option Float

/-- A pacer for `totalFrames` frames; the frame rate is checked first, then the jitter. -/
def Pacer.new (fps startOffset : Float) (jitter : Jitter) (totalFrames : Nat) :
    Except SetupError Pacer :=
  if !fps.isFinite || fps <= 0.0 then .error (.frameRateInvalid fps)
  else do
    let sampler ← JitterSampler.new jitter
    -- a NaN offset counts as zero, like a negative one
    let offset := atLeast 0.0 startOffset
    pure ⟨fps, offset, sampler, 0, totalFrames, none⟩

theorem Pacer.new_eq_ok {fps offset : Float} {j : Jitter} {n : Nat} {p : Pacer}
    (h : Pacer.new fps offset j n = .ok p) :
    p.frameIndex = 0 ∧ p.totalFrames = n ∧ p.nextSendAt = none := by
  unfold Pacer.new at h
  split at h
  · cases h
  · cases hj : JitterSampler.new j with
    | error e => simp [hj, bind, Except.bind] at h
    | ok sampler =>
      simp only [hj, bind, Except.bind, pure, Except.pure, Except.ok.injEq] at h
      subst h
      exact ⟨rfl, rfl, rfl⟩

/-- The next interval in seconds: the nominal interval plus a jitter sample, at least zero. -/
def Pacer.nextInterval (p : Pacer) : Float × Pacer :=
  let (j, s) := p.jitter.sample
  (atLeast 0.0 (1.0 / p.fps + j / 1000.0), { p with jitter := s })

@[simp] theorem Pacer.frameIndex_nextInterval (p : Pacer) :
    p.nextInterval.2.frameIndex = p.frameIndex := rfl

@[simp] theorem Pacer.totalFrames_nextInterval (p : Pacer) :
    p.nextInterval.2.totalFrames = p.totalFrames := rfl

@[simp] theorem Pacer.nextSendAt_nextInterval (p : Pacer) :
    p.nextInterval.2.nextSendAt = p.nextSendAt := rfl

@[simp] theorem Pacer.startOffset_nextInterval (p : Pacer) :
    p.nextInterval.2.startOffset = p.startOffset := rfl

/-- Start at `now`: the first frame is due after the offset and one interval, unless all
frames are already out. -/
def Pacer.start (p : Pacer) (now : Float) : Option Float × Pacer :=
  if p.frameIndex ≥ p.totalFrames then (none, { p with nextSendAt := none })
  else
    let (iv, p) := p.nextInterval
    let first := now + p.startOffset + iv
    (some first, { p with nextSendAt := some first })

@[simp] theorem Pacer.frameIndex_start (p : Pacer) (now : Float) :
    (p.start now).2.frameIndex = p.frameIndex := by
  unfold Pacer.start
  split <;> rfl

@[simp] theorem Pacer.totalFrames_start (p : Pacer) (now : Float) :
    (p.start now).2.totalFrames = p.totalFrames := by
  unfold Pacer.start
  split <;> rfl

theorem Pacer.lt_of_start_isSome {p : Pacer} {now : Float}
    (h : (p.start now).2.nextSendAt.isSome) : p.frameIndex < p.totalFrames := by
  unfold Pacer.start at h
  split at h
  · simp at h
  · omega

theorem Pacer.start_fst (p : Pacer) (now : Float) :
    (p.start now).1 = (p.start now).2.nextSendAt ∧
      ((p.start now).1.isSome ↔ p.frameIndex < p.totalFrames) := by
  unfold Pacer.start
  split
  · exact ⟨rfl, by simp; omega⟩
  · exact ⟨rfl, by simp; omega⟩

/-- At `now`: if a frame is due, emit its index and schedule the next one an interval later
while frames remain. -/
def Pacer.tick (p : Pacer) (now : Float) : Option Nat × Pacer :=
  match p.nextSendAt with
  | none => (none, p)
  | some due =>
    if now < due then (none, p)
    else
      let index := p.frameIndex
      let p := { p with frameIndex := index + 1 }
      if p.frameIndex < p.totalFrames then
        let (iv, p) := p.nextInterval
        (some index, { p with nextSendAt := some (now + iv) })
      else (some index, { p with nextSendAt := none })

theorem Pacer.tick_eq_some {p : Pacer} {now : Float} {i : Nat} (h : (p.tick now).1 = some i) :
    i = p.frameIndex ∧ (p.tick now).2.frameIndex = p.frameIndex + 1 := by
  unfold Pacer.tick at h ⊢
  split at h
  · cases h
  · split at h
    · cases h
    · rename_i hdue
      simp only [hdue] at h ⊢
      split at h
      · cases h; simp [*]
      · cases h; simp [*]

theorem Pacer.tick_of_due {p : Pacer} {now due : Float} (h : p.nextSendAt = some due)
    (hnow : ¬now < due) : (p.tick now).1 = some p.frameIndex := by
  unfold Pacer.tick
  simp only [h, hnow, if_false]
  split <;> rfl

/-- Stop: nothing is due any more. -/
def Pacer.stop (p : Pacer) : Pacer := { p with nextSendAt := none }

@[simp] theorem Pacer.frameIndex_stop (p : Pacer) : p.stop.frameIndex = p.frameIndex := rfl

@[simp] theorem Pacer.totalFrames_stop (p : Pacer) : p.stop.totalFrames = p.totalFrames := rfl

@[simp] theorem Pacer.nextSendAt_stop (p : Pacer) : p.stop.nextSendAt = none := rfl

/-- Every frame has been emitted. -/
def Pacer.isFinished (p : Pacer) : Bool := p.frameIndex ≥ p.totalFrames

end XrDelivery
