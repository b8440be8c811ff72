import Mathlib
import XrDelivery.Proofs.SenderProtocol
import XrDelivery.Proofs.SignedOrder
import XrDelivery.Proofs.JitterBounds

/-!
# The pacer under any sequence of calls

A host drives a pacer by three calls: start at an instant, tick at an instant, and stop. This
module follows a pacer set up by `Pacer.new` for `T` frames through any history of such calls,
at any instants, NaN and the infinities included.

What every call keeps (`Pacer.Valid`): the pacer still counts `T` frames, its index lies within
them, and a frame is due only while one remains. The ticks of a history emit the indices
`0, 1, …, k - 1` in order, `k` being the pacer's index after it (`emitted_eq_range'`), so no
tick hands out an index of `T` or more.

A tick emits only when a frame is due and the instant is not before it, `¬now < due`; a due
instant that is NaN (a start or tick at `-∞` that adds an infinite offset or interval) is never
after an instant, so it counts as due. Every interval is at least zero, so the next instant a
tick at an instant above `-∞` schedules is not before it. Once every frame is out, and after a
stop until the next start, every call hands out nothing.

Without jitter an interval is the nominal `1/fps`, or zero after a NaN sample, and the sampler
moves on by one normal draw (`Pacer.nextInterval_off`). So a sender's start is one of two, both
computed without the maths library (`Sender.start_mem_starts`).
-/

namespace XrDelivery

namespace Pacer

/-- A call a host makes on a pacer. -/
inductive Call where
  | start (now : Float)
  | tick (now : Float)
  | stop

/-- A start, the only call that arms a pacer. -/
def Call.isStart : Call → Bool
  | .start _ => true
  | _ => false

/-- What a call hands back: the instant a start arms, the index a tick emits, or nothing. -/
inductive Reply where
  | started (first : Option Float)
  | ticked (index : Option Nat)
  | stopped

/-- The index a reply emits, if it is a tick's that emits one. -/
def Reply.index? : Reply → Option Nat
  | .ticked i => i
  | _ => none

/-- A reply that hands nothing out: a start that arms nothing, a tick that emits nothing, or
a stop. -/
def Reply.isIdle : Reply → Bool
  | .started none => true
  | .ticked none => true
  | .stopped => true
  | _ => false

/-- One call: the reply and the pacer after it. -/
def call (p : Pacer) : Call → Reply × Pacer
  | .start now => (.started (p.start now).1, (p.start now).2)
  | .tick now => (.ticked (p.tick now).1, (p.tick now).2)
  | .stop => (.stopped, p.stop)

/-- The pacer after a history of calls. -/
def callAll (p : Pacer) (hist : List Call) : Pacer := hist.foldl (fun p x => (p.call x).2) p

/-- The replies to a history of calls, in order. -/
def replies (p : Pacer) : List Call → List Reply
  | [] => []
  | x :: hist => (p.call x).1 :: (p.call x).2.replies hist

/-- The indices the ticks of a history emit, in order. -/
def emitted (p : Pacer) : List Call → List Nat
  | [] => []
  | x :: hist => ((p.call x).1.index?).toList ++ (p.call x).2.emitted hist

@[simp] theorem call_start (p : Pacer) (now : Float) :
    p.call (.start now) = (.started (p.start now).1, (p.start now).2) := rfl

@[simp] theorem call_tick (p : Pacer) (now : Float) :
    p.call (.tick now) = (.ticked (p.tick now).1, (p.tick now).2) := rfl

@[simp] theorem call_stop (p : Pacer) : p.call .stop = (.stopped, p.stop) := rfl

@[simp] theorem callAll_nil (p : Pacer) : p.callAll [] = p := rfl

@[simp] theorem callAll_cons (p : Pacer) (x : Call) (hist : List Call) :
    p.callAll (x :: hist) = (p.call x).2.callAll hist := rfl

@[simp] theorem replies_nil (p : Pacer) : p.replies [] = [] := rfl

@[simp] theorem replies_cons (p : Pacer) (x : Call) (hist : List Call) :
    p.replies (x :: hist) = (p.call x).1 :: (p.call x).2.replies hist := rfl

@[simp] theorem emitted_nil (p : Pacer) : p.emitted [] = [] := rfl

@[simp] theorem emitted_cons (p : Pacer) (x : Call) (hist : List Call) :
    p.emitted (x :: hist) = ((p.call x).1.index?).toList ++ (p.call x).2.emitted hist := rfl

variable {p : Pacer} {T : Nat} {now : Float}

theorem start_of_finished (h : p.totalFrames ≤ p.frameIndex) (now : Float) :
    p.start now = (none, p.stop) := by
  simp [Pacer.start, Pacer.stop, h]

theorem tick_of_idle (h : p.nextSendAt = none) (now : Float) : p.tick now = (none, p) := by
  simp [Pacer.tick, h]

theorem due_of_tick {i : Nat} (h : (p.tick now).1 = some i) :
    ∃ due, p.nextSendAt = some due ∧ ¬now < due := by
  unfold Pacer.tick at h
  split at h
  · cases h
  · rename_i due hdue
    split at h
    · cases h
    · exact ⟨due, hdue, ‹_›⟩

theorem le_next_of_tick {i : Nat} {t : Float} (h : (p.tick now).1 = some i)
    (hnow : -Float.inf < now) (ht : (p.tick now).2.nextSendAt = some t) : now ≤ t := by
  rcases tick_cases p now with hnone | ⟨-, -, -, -, -, hlater⟩
  · rw [hnone] at h
    cases h
  · obtain ⟨iv, hiv, rfl⟩ := hlater t ht
    exact Float.le_add_of_nonneg hnow hiv

theorem start_of_lt (h : p.frameIndex < p.totalFrames) (now : Float) :
    (p.start now).1 = some (now + p.startOffset + p.nextInterval.1) ∧
      (p.start now).2.nextSendAt = (p.start now).1 := by
  have hnot : ¬p.frameIndex ≥ p.totalFrames := by omega
  simp [Pacer.start, hnot]

/-- What every call keeps of a pacer for `T` frames: it still counts `T` frames, its index
lies within them, and a frame is due only while one remains. -/
structure Valid (T : Nat) (p : Pacer) : Prop where
  total_eq : p.totalFrames = T
  index_le : p.frameIndex ≤ T
  index_lt_of_due : p.nextSendAt.isSome → p.frameIndex < T

theorem valid_of_new {fps offset : Float} {j : Jitter} (h : Pacer.new fps offset j T = .ok p) :
    Valid T p ∧ p.frameIndex = 0 := by
  obtain ⟨hidx, htot, hnext⟩ := new_eq_ok h
  exact ⟨⟨htot, by omega, by simp [hnext]⟩, hidx⟩

theorem Valid.stop (hv : Valid T p) : Valid T p.stop :=
  ⟨hv.total_eq, hv.index_le, by simp⟩

theorem Valid.call (hv : Valid T p) (x : Call) : Valid T (p.call x).2 := by
  cases x with
  | start now =>
    refine ⟨by simp [hv.total_eq], by simp [hv.index_le], fun hdue => ?_⟩
    simpa [hv.total_eq] using lt_of_start_isSome hdue
  | tick now =>
    rcases tick_cases p now with hnone | ⟨hdue, -, hidx, htot, hlast, -⟩
    · simpa [hnone] using hv
    · -- a frame was due, so one remained; the next is due only while another remains
      have hlt := hv.index_lt_of_due hdue
      refine ⟨by simp [htot, hv.total_eq], by simp [hidx]; omega, fun hnext => ?_⟩
      have : (p.tick now).2.nextSendAt ≠ none := by
        simpa [Option.isSome_iff_ne_none] using hnext
      have hmore := mt hlast.mpr this
      rw [hv.total_eq] at hmore
      simp only [call_tick, hidx]
      omega
  | stop => exact hv.stop

theorem Valid.callAll (hv : Valid T p) (hist : List Call) : Valid T (p.callAll hist) := by
  induction hist generalizing p with
  | nil => exact hv
  | cons x hist ih => exact ih (hv.call x)

theorem call_index (p : Pacer) (x : Call) :
    ((p.call x).1.index? = none ∧ (p.call x).2.frameIndex = p.frameIndex) ∨
      ((p.call x).1.index? = some p.frameIndex ∧ (p.call x).2.frameIndex = p.frameIndex + 1) := by
  cases x with
  | start now => exact .inl ⟨rfl, frameIndex_start p now⟩
  | tick now =>
    rcases tick_cases p now with hnone | ⟨-, hemit, hidx, -⟩
    · exact .inl ⟨by simp [Reply.index?, hnone], by simp [hnone]⟩
    · exact .inr ⟨by simp [Reply.index?, hemit], hidx⟩
  | stop => exact .inl ⟨rfl, rfl⟩

theorem emitted_eq_range' (p : Pacer) (hist : List Call) :
    p.emitted hist = List.range' p.frameIndex ((p.callAll hist).frameIndex - p.frameIndex) ∧
      p.frameIndex ≤ (p.callAll hist).frameIndex := by
  induction hist generalizing p with
  | nil => simp
  | cons x hist ih =>
    obtain ⟨hrest, hle⟩ := ih (p.call x).2
    rcases call_index p x with ⟨hnone, hidx⟩ | ⟨hsome, hidx⟩
    · rw [hidx] at hrest hle
      simp [hnone, hrest, hle]
    · rw [hidx] at hrest hle
      have hlen : (((p.call x).2.callAll hist).frameIndex - p.frameIndex) =
          (((p.call x).2.callAll hist).frameIndex - (p.frameIndex + 1)) + 1 := by omega
      refine ⟨?_, by simp; omega⟩
      simp only [emitted_cons, hsome, Option.toList_some, callAll_cons, hrest, hlen,
        List.range'_succ, List.singleton_append]

theorem replies_idle_of_finished (hv : Valid T p) (hT : p.frameIndex = T) (hist : List Call) :
    ∀ r ∈ p.replies hist, r.isIdle := by
  induction hist generalizing p with
  | nil => simp
  | cons x hist ih =>
    have hidle : p.nextSendAt = none := by
      cases h : p.nextSendAt with
      | none => rfl
      | some due => have := hv.index_lt_of_due (by simp [h]); omega
    have hfin : p.totalFrames ≤ p.frameIndex := by rw [hv.total_eq, hT]
    have hcall : (p.call x).1.isIdle ∧ (p.call x).2.frameIndex = T := by
      cases x with
      | start now => simp [start_of_finished hfin, Reply.isIdle, hT]
      | tick now => simp [tick_of_idle hidle, Reply.isIdle, hT]
      | stop => simp [Reply.isIdle, hT]
    intro r hr
    rcases List.mem_cons.mp hr with rfl | hr
    · exact hcall.1
    · exact ih (hv.call x) hcall.2 r hr

theorem replies_idle_of_unarmed (hidle : p.nextSendAt = none) (hist : List Call)
    (hno : ∀ x ∈ hist, x.isStart = false) : ∀ r ∈ p.replies hist, r.isIdle := by
  induction hist generalizing p with
  | nil => simp
  | cons x hist ih =>
    have hcall : (p.call x).1.isIdle ∧ (p.call x).2.nextSendAt = none := by
      cases x with
      | start now => simp [Call.isStart] at hno
      | tick now => simp [tick_of_idle hidle, Reply.isIdle, hidle]
      | stop => simp [Reply.isIdle]
    intro r hr
    rcases List.mem_cons.mp hr with rfl | hr
    · exact hcall.1
    · exact ih hcall.2 (fun y hy => hno y (List.mem_cons_of_mem x hy)) r hr

/-- A pacer for `T` frames after any starts, ticks and stops: its ticks emitted `0, …, k - 1` in
order, `k ≤ T` being its index; it emits only when due, schedules no earlier, and hands out nothing
once every frame is out, or after a stop until a start. -/
theorem pacer_schedule_invariant {fps offset : Float} {j : Jitter}
    (hp : Pacer.new fps offset j T = .ok p) (hist : List Call) :
    p.emitted hist = List.range (p.callAll hist).frameIndex ∧
    Valid T (p.callAll hist) ∧
    (∀ now i, ((p.callAll hist).tick now).1 = some i →
      ∃ due, (p.callAll hist).nextSendAt = some due ∧ ¬now < due) ∧
    0 ≤ (p.callAll hist).nextInterval.1 ∧
    (∀ now i t, ((p.callAll hist).tick now).1 = some i → -Float.inf < now →
      ((p.callAll hist).tick now).2.nextSendAt = some t → now ≤ t) ∧
    ((p.callAll hist).frameIndex = T → ∀ rest, ∀ r ∈ (p.callAll hist).replies rest, r.isIdle) ∧
    (∀ rest, (∀ x ∈ rest, x.isStart = false) →
      ∀ r ∈ ((p.callAll hist).call .stop).2.replies rest, r.isIdle) := by
  obtain ⟨hv, hidx⟩ := valid_of_new hp
  have hv' := hv.callAll hist
  refine ⟨?_, hv', fun now i h => due_of_tick h, zero_le_nextInterval _,
    fun now i t h hnow ht => le_next_of_tick h hnow ht,
    fun hT rest => replies_idle_of_finished hv' hT rest,
    fun rest hno => replies_idle_of_unarmed rfl rest hno⟩
  rw [(emitted_eq_range' p hist).1, hidx, Nat.sub_zero, List.range_eq_range']

/-- A history of a start and two ticks on a pacer for two frames at sixty frames a second. -/
def startTwoTicks : List Call := [.start 0.0, .tick Float.inf, .tick Float.inf]

/-- A pacer for two frames, started at `0` and ticked twice at `+∞`: its ticks emitted the
first indices in order, and it stays valid. -/
theorem twoFrames_schedule :
    ∃ p, Pacer.new 60.0 0.0 Jitter.none 2 = .ok p ∧
      p.emitted startTwoTicks = List.range (p.callAll startTwoTicks).frameIndex ∧
      Valid 2 (p.callAll startTwoTicks) := by
  have hp : Pacer.new 60.0 0.0 Jitter.none 2 =
      .ok ⟨60.0, atLeast 0.0 0.0, ⟨Jitter.none, Random.Stream.ofSeed 0⟩, 0, 2, none⟩ := by rfl
  obtain ⟨hemit, hv, -⟩ := pacer_schedule_invariant hp startTwoTicks
  exact ⟨_, hp, hemit, hv⟩

/-- A pacer for two frames with an infinite start offset, started at `-∞`: the frame is due at
`-∞ + ∞`, which is NaN, and a tick at `0` emits it though `0` is not at or after that instant. -/
theorem infiniteOffset_emits_before_due :
    ∃ p, Pacer.new 60.0 Float.inf Jitter.none 2 = .ok p ∧
      ((p.callAll [.start (-Float.inf)]).tick 0.0).1 = some 0 ∧
      ∀ due, (p.callAll [.start (-Float.inf)]).nextSendAt = some due → ¬due ≤ 0.0 := by
  let p : Pacer := ⟨60.0, atLeast 0.0 Float.inf, ⟨Jitter.none, Random.Stream.ofSeed 0⟩, 0, 2, none⟩
  have hp : Pacer.new 60.0 Float.inf Jitter.none 2 = .ok p := by rfl
  obtain ⟨hfirst, hnext⟩ := start_of_lt (p := p) (by decide) (-Float.inf)
  -- the armed instant is NaN, so no comparison with it holds
  have hnan : (-Float.inf + p.startOffset + p.nextInterval.1).isNaN = true := by
    have hsum : (-Float.inf + p.startOffset).isNaN = true := by decide
    cases h : (-Float.inf + p.startOffset + p.nextInterval.1).isNaN with
    | true => rfl
    | false => rw [(Float.isNaN_add h).1] at hsum; cases hsum
  have hnot_le : ∀ t, ¬(-Float.inf + p.startOffset + p.nextInterval.1) ≤ t := fun t hle => by
    rw [(Float.isNaN_of_le hle).1] at hnan
    cases hnan
  have hdue : (p.callAll [.start (-Float.inf)]).nextSendAt =
      some (-Float.inf + p.startOffset + p.nextInterval.1) := by
    simp only [callAll_cons, callAll_nil, call_start, hnext, hfirst]
  refine ⟨p, hp, ?_, fun due h => ?_⟩
  · have hnot_lt : ¬(0.0 : Float) < -Float.inf + p.startOffset + p.nextInterval.1 := fun hlt => by
      rw [(Float.isNaN_of_le (Float.le_of_lt hlt)).2] at hnan
      cases hnan
    rw [tick_of_due hdue hnot_lt]
    rfl
  · rw [hdue] at h
    cases h
    exact hnot_le 0.0

end Pacer

/-! ### Pacing without jitter -/

theorem atLeast_nominal_of_isNaN {fps j : Float} (hj : j.isNaN = true) :
    atLeast 0.0 (1.0 / fps + j / 1000.0) = 0.0 := by
  have hq : (j / 1000.0).isNaN = true := by
    cases h : (j / 1000.0).isNaN with
    | false => rw [(Float.isNaN_div h).1] at hj; cases hj
    | true => rfl
  have hsum : (1.0 / fps + j / 1000.0).isNaN = true := by
    cases h : (1.0 / fps + j / 1000.0).isNaN with
    | false => rw [(Float.isNaN_add h).2] at hq; cases hq
    | true => rfl
  exact if_neg (Float.not_outside_zero (.inr hsum)).2

theorem Pacer.nextInterval_off {p : Pacer} (hp : p.jitter.config.Off) :
    p.nextInterval = (atLeast 0.0 (1.0 / p.fps + 0.0 / 1000.0),
        { p with jitter := { p.jitter with stream := p.jitter.stream.unit.2.unit.2 } }) ∨
      p.nextInterval =
        (0.0, { p with jitter := { p.jitter with stream := p.jitter.stream.unit.2.unit.2 } }) := by
  obtain ⟨hs, hj⟩ := JitterSampler.sampleWith_off .libm hp
  unfold Pacer.nextInterval JitterSampler.sample
  rcases hsample : p.jitter.sampleWith .libm with ⟨j, s⟩
  rw [hsample] at hs hj
  dsimp only at hs hj ⊢
  rw [hs]
  rcases hj with rfl | hj
  · exact .inl rfl
  · exact .inr (by rw [atLeast_nominal_of_isNaN hj])

/-- How a tick goes when the interval it draws, if it draws one, comes out as `iv` and its
jitter stream moves on by one normal draw. -/
def Pacer.tickAfter (p : Pacer) (iv now : Float) : Option Nat × Pacer :=
  match p.nextSendAt with
  | none => (none, p)
  | some due =>
    if now < due then (none, p)
    else
      let index := p.frameIndex
      let p := { p with frameIndex := index + 1 }
      if p.frameIndex < p.totalFrames then
        (some index, { p with jitter := { p.jitter with stream := p.jitter.stream.unit.2.unit.2 },
                              nextSendAt := some (now + iv) })
      else (some index, { p with nextSendAt := none })

theorem Pacer.tick_eq_tickAfter {p : Pacer} {iv : Float}
    (h : { p with frameIndex := p.frameIndex + 1 }.nextInterval =
      (iv, { p with frameIndex := p.frameIndex + 1,
                    jitter := { p.jitter with stream := p.jitter.stream.unit.2.unit.2 } }))
    (now : Float) : p.tick now = p.tickAfter iv now := by
  unfold Pacer.tick Pacer.tickAfter
  cases hn : p.nextSendAt with
  | none => rfl
  | some due =>
    rw [hn] at h
    simp only [h]

theorem Pacer.tick_off {p : Pacer} (hp : p.jitter.config.Off) (now : Float) :
    p.tick now = p.tickAfter (atLeast 0.0 (1.0 / p.fps + 0.0 / 1000.0)) now ∨
      p.tick now = p.tickAfter 0.0 now := by
  rcases Pacer.nextInterval_off (p := { p with frameIndex := p.frameIndex + 1 }) hp with h | h
  · exact .inl (Pacer.tick_eq_tickAfter h now)
  · exact .inr (Pacer.tick_eq_tickAfter h now)

/-- The ticks a pacer may make at `now`: without jitter and with a frame left after the next,
one for each way the interval it may draw comes out; otherwise its tick. -/
def Pacer.ticks (p : Pacer) (now : Float) : List (Option Nat × Pacer) :=
  if p.jitter.config.Off ∧ p.frameIndex + 1 < p.totalFrames then
    [p.tickAfter (atLeast 0.0 (1.0 / p.fps + 0.0 / 1000.0)) now, p.tickAfter 0.0 now]
  else [p.tick now]

theorem Pacer.tick_mem_ticks (p : Pacer) (now : Float) : p.tick now ∈ p.ticks now := by
  unfold Pacer.ticks
  split
  next h => rcases Pacer.tick_off h.1 now with h' | h' <;> simp [h']
  next => exact List.mem_singleton_self _

namespace Sender

/-- How a sender's start goes when its first interval comes out as `iv` and its jitter stream
moves on by one normal draw. -/
def startAfter (s : Sender) (iv now : Float) (dir : Directory) :
    Except SetupError (Option Float × Sender) :=
  match dir.resolve s.config.destination with
  | none => .error (.unresolvedDestination s.config.destination)
  | some peer =>
    .ok (some (now + s.pacer.startOffset + iv),
      { s with destination := some peer, phase := .running,
               pacer := { s.pacer with
                 jitter := { s.pacer.jitter with stream := s.pacer.jitter.stream.unit.2.unit.2 },
                 nextSendAt := some (now + s.pacer.startOffset + iv) } })

variable {s : Sender}

theorem start_eq_startAfter {iv : Float} (hn : s.pacer.frameIndex < s.pacer.totalFrames)
    (h : s.pacer.nextInterval =
      (iv, { s.pacer with jitter := { s.pacer.jitter with stream := s.pacer.jitter.stream.unit.2.unit.2 } }))
    (now : Float) (dir : Directory) : s.start now dir = s.startAfter iv now dir := by
  have hnot : ¬s.pacer.frameIndex ≥ s.pacer.totalFrames := by omega
  unfold start startAfter Pacer.start
  cases dir.resolve s.config.destination with
  | none => rfl
  | some peer => simp only [if_neg hnot, h]

/-- Without jitter, a sender with a frame to send starts one nominal interval after its offset,
or at its offset when the normal drawn is not finite. -/
theorem start_off (hj : s.pacer.jitter.config.Off) (hn : s.pacer.frameIndex < s.pacer.totalFrames)
    (now : Float) (dir : Directory) :
    s.start now dir = s.startAfter (atLeast 0.0 (1.0 / s.pacer.fps + 0.0 / 1000.0)) now dir ∨
      s.start now dir = s.startAfter 0.0 now dir := by
  rcases Pacer.nextInterval_off hj with h | h
  · exact .inl (start_eq_startAfter hn h now dir)
  · exact .inr (start_eq_startAfter hn h now dir)

/-- The starts a sender may make at `now`: without jitter and with a frame to send, one for each
way its first sample may come out; otherwise its start. -/
def starts (s : Sender) (now : Float) (dir : Directory) :
    List (Except SetupError (Option Float × Sender)) :=
  if s.pacer.jitter.config.Off ∧ s.pacer.frameIndex < s.pacer.totalFrames then
    [s.startAfter (atLeast 0.0 (1.0 / s.pacer.fps + 0.0 / 1000.0)) now dir, s.startAfter 0.0 now dir]
  else [s.start now dir]

theorem start_mem_starts (s : Sender) (now : Float) (dir : Directory) :
    s.start now dir ∈ s.starts now dir := by
  unfold starts
  split
  next h => rcases start_off h.1 h.2 now dir with h' | h' <;> simp [h']
  next => exact List.mem_singleton_self _

/-- The polls a sender may make at `now`, one for each tick its pacer may make. -/
def polls (s : Sender) (now : Float) : List (Except (SetupError × Sender) (Option Burst × Sender)) :=
  if s.phase != .running then [.ok (none, s)]
  else
    match s.destination with
    | none => [.ok (none, s)]
    | some dest => (s.pacer.ticks now).map fun t => { s with pacer := t.2 }.emit dest now t.1

theorem poll_mem_polls (s : Sender) (now : Float) : s.poll now ∈ s.polls now := by
  unfold poll polls
  split
  · exact List.mem_singleton_self _
  · cases s.destination with
    | none => exact List.mem_singleton_self _
    | some dest => exact List.mem_map.mpr ⟨s.pacer.tick now, s.pacer.tick_mem_ticks now, rfl⟩

end Sender

end XrDelivery
