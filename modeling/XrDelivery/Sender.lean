import XrDelivery.Pacer
import XrDelivery.Catalog.Basic
import XrDelivery.Directory
/-!
# The sender

A sender plays a catalog to one destination. It is idle until started; starting resolves the
destination in the directory (an unknown address is an error and changes nothing), and asks
the pacer for the first sending instant. While running, each poll at a due instant takes the
next frame of the catalog and cuts it into fragments; a frame that cannot be cut stops the
sender. Stopping ends the stream; it is finished when every frame is out or it was stopped.
-/
namespace XrDelivery

/-- What a sender is told. -/
structure SenderConfig where
  fps : Float := 60.0
  startOffset : Float := 0.0
  jitter : Jitter := {}
  maxPayload : Nat := 1400
  destination : String := ""

/-- The first value out of range: the payload bound, then the frame rate, then the jitter. -/
def SenderConfig.validate (c : SenderConfig) : Except SetupError Unit :=
  if c.maxPayload = 0 then .error (.payloadSizeZero c.maxPayload)
  else if !c.fps.isFinite || c.fps <= 0.0 then .error (.frameRateInvalid c.fps)
  else c.jitter.validate

/-- What a sender counted. -/
structure SenderStats where
  framesSent : UInt64 := 0
  fragmentsSent : UInt64 := 0
  bytesSent : UInt64 := 0
  framesRejected : UInt64 := 0

/-- Fragments per frame sent, zero before the first frame. -/
def SenderStats.fragmentsPerFrame (s : SenderStats) : Float :=
  if s.framesSent = 0 then 0.0 else s.fragmentsSent.toFloat / s.framesSent.toFloat

/-- The phase of a sender. -/
inductive SenderPhase where
  | idle
  | running
  | stopped
deriving DecidableEq

/-- One frame on its way: the frame, its destination, its fragments, and when the next frame
is due. -/
structure Burst where
  frame : Frame
  destination : PeerId
  fragments : List Fragment
  nextSendAt : Option Float

/-- A sender's state. -/
structure Sender where
  config : SenderConfig
  catalog : Catalog
  pacer : Pacer
  destination : Option PeerId := none
  phase : SenderPhase := .idle
  stats : SenderStats := {}

/-- A sender of a catalog under a valid configuration. -/
def Sender.new (c : SenderConfig) (cat : Catalog) : Except SetupError Sender := do
  c.validate
  let pacer ← Pacer.new c.fps c.startOffset c.jitter cat.size
  pure { config := c, catalog := cat, pacer }

theorem Sender.new_eq_ok {c : SenderConfig} {cat : Catalog} {s : Sender}
    (h : Sender.new c cat = .ok s) : s.config = c ∧ s.catalog = cat ∧ s.pacer.frameIndex = 0 := by
  unfold Sender.new at h
  cases hv : c.validate with
  | error e => simp [hv] at h; cases h
  | ok u =>
    cases hp : Pacer.new c.fps c.startOffset c.jitter cat.size with
    | error e => simp [hv, hp] at h; cases h
    | ok p =>
      simp only [hv, hp, bind, Except.bind, pure, Except.pure, Except.ok.injEq] at h
      subst h
      exact ⟨rfl, rfl, (Pacer.new_eq_ok hp).1⟩

/-- Start at `now`: resolve the destination and schedule the first frame. -/
def Sender.start (s : Sender) (now : Float) (dir : Directory) :
    Except SetupError (Option Float × Sender) :=
  match dir.resolve s.config.destination with
  | none => .error (.unresolvedDestination s.config.destination)
  | some peer =>
    let (first, pacer) := s.pacer.start now
    .ok (first, { s with destination := some peer, phase := .running, pacer })

theorem Sender.start_eq_ok {s s' : Sender} {now : Float} {dir : Directory} {first : Option Float}
    (h : s.start now dir = .ok (first, s')) :
    s'.catalog = s.catalog ∧ s'.config = s.config ∧ s'.pacer.frameIndex = s.pacer.frameIndex := by
  unfold Sender.start at h
  split at h
  · cases h
  · cases h
    exact ⟨rfl, rfl, Pacer.frameIndex_start s.pacer now⟩

theorem Sender.stats_start {s s' : Sender} {now : Float} {dir : Directory} {first : Option Float}
    (h : s.start now dir = .ok (first, s')) : s'.stats = s.stats := by
  unfold Sender.start at h
  split at h
  · cases h
  · cases h
    rfl

/-- Stop the sender: nothing more is scheduled. -/
def Sender.stop (s : Sender) : Sender := { s with pacer := s.pacer.stop, phase := .stopped }

/-- Send the frame the pacer emitted at `now`, if it emitted one, cut into fragments for `dest`.
A frame that cannot be cut is counted as rejected and stops the sender. -/
def Sender.emit (s : Sender) (dest : PeerId) (now : Float) :
    Option Nat → Except (SetupError × Sender) (Option Burst × Sender)
  | none => .ok (none, s)
  | some i =>
    match s.catalog.get? i with
    | none => .ok (none, s)
    | some frame =>
      match frame.fragments s.config.maxPayload now with
      | .error e =>
        .error (e, { s with stats.framesRejected := s.stats.framesRejected + 1 }.stop)
      | .ok frags =>
        let s := { s with stats := { s.stats with
          framesSent := s.stats.framesSent + 1
          fragmentsSent := s.stats.fragmentsSent + frags.length.toUInt64
          bytesSent := s.stats.bytesSent + frame.size.toUInt64 } }
        .ok (some ⟨frame, dest, frags, s.pacer.nextSendAt⟩, s)

/-- Poll at `now`: the frame due, cut into fragments, if the sender runs and one is due. -/
def Sender.poll (s : Sender) (now : Float) : Except (SetupError × Sender) (Option Burst × Sender) :=
  if s.phase != .running then .ok (none, s)
  else
    match s.destination with
    | none => .ok (none, s)
    | some dest =>
      let (idx, pacer) := s.pacer.tick now
      { s with pacer }.emit dest now idx

theorem Sender.poll_of_not_running {s : Sender} (h : s.phase ≠ .running) (now : Float) :
    s.poll now = .ok (none, s) := by
  unfold Sender.poll Sender.emit
  simp [h]

/-- A poll that sends cuts the frame at the pacer's index at the poll instant and moves on to the
next index. -/
theorem Sender.poll_eq_burst {s s' : Sender} {now : Float} {b : Burst}
    (h : s.poll now = .ok (some b, s')) :
    s.catalog.get? s.pacer.frameIndex = some b.frame ∧
      b.frame.fragments s.config.maxPayload now = .ok b.fragments ∧
      s'.catalog = s.catalog ∧ s'.config = s.config ∧
      s'.pacer.frameIndex = s.pacer.frameIndex + 1 := by
  unfold Sender.poll Sender.emit at h
  split at h
  · cases h
  · split at h
    · cases h
    · dsimp only at h
      split at h
      · cases h
      · rename_i i htick
        split at h
        · cases h
        · rename_i fr hfr
          split at h
          · cases h
          · rename_i frs hfrs
            cases h
            obtain ⟨rfl, hidx⟩ := Pacer.tick_eq_some htick
            exact ⟨hfr, hfrs, rfl, rfl, hidx⟩

/-- When the next frame is due, while running. -/
def Sender.nextSendAt (s : Sender) : Option Float :=
  if s.phase = .running then s.pacer.nextSendAt else none

/-- Every frame is out, or the sender was stopped. -/
def Sender.isFinished (s : Sender) : Bool := s.pacer.isFinished || s.phase == .stopped

end XrDelivery
