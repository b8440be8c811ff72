import Mathlib
import XrDelivery.Proofs.SenderRun
import XrDelivery.Proofs.DoubleOrder

/-!
# A sender under any sequence of calls

A host drives a sender by three calls: start at an instant toward a directory, poll at an
instant, and stop. A start whose destination does not resolve fails and leaves the sender as it
was. This module follows a sender set up by `Sender.new` through any history of such calls.

The frames the polls take from the catalog (`Sender.taken`) are the catalog's frames in order
from the first: the `k`-th frame taken is catalog frame `k`, sent as a burst cut at the poll's
instant or, when it cannot be cut, answered by the error of cutting it (`FollowsCatalog`). The
sender's place in the catalog is the number of frames taken, so no lookup misses. A burst is
due again an interval later, not before its own instant, unless it carried the last frame.

A poll sends only while the sender runs, to the peer of the last start that resolved. A frame
that cannot be cut stops the sender and counts as rejected; from there, as from a new sender,
every call answers as an idle sender until a start resolves. The counters are the number of
bursts, their fragments and their bytes, and the number of rejected frames.
-/
namespace XrDelivery

namespace Pacer

variable {p : Pacer} {now : Float}

theorem zero_le_nextInterval (p : Pacer) : 0 ≤ p.nextInterval.1 := zero_le_atLeast _

/-- What a tick does: nothing, or, when a frame is due, emit the pacer's index and move on by
one, scheduling the next frame an interval later while frames remain. -/
theorem tick_cases (p : Pacer) (now : Float) :
    p.tick now = (none, p) ∨
      (p.nextSendAt.isSome ∧ (p.tick now).1 = some p.frameIndex ∧
        (p.tick now).2.frameIndex = p.frameIndex + 1 ∧
        (p.tick now).2.totalFrames = p.totalFrames ∧
        ((p.tick now).2.nextSendAt = none ↔ p.totalFrames ≤ p.frameIndex + 1) ∧
        ∀ t, (p.tick now).2.nextSendAt = some t → ∃ iv, 0 ≤ iv ∧ t = now + iv) := by
  unfold Pacer.tick
  split
  · exact Or.inl rfl
  · rename_i due hdue
    split
    · exact Or.inl rfl
    · right
      refine ⟨by simp [hdue], ?_⟩
      dsimp only
      split
      · rename_i hlt
        refine ⟨rfl, rfl, rfl, by simp; omega, ?_⟩
        rintro t ht
        exact ⟨_, zero_le_nextInterval _, (Option.some.inj ht).symm⟩
      · rename_i hge
        exact ⟨rfl, rfl, rfl, by simp; omega, by simp⟩

end Pacer

/-- The counters after one frame taken: a burst counts as a frame sent with its fragments and
bytes, an error as a frame rejected. -/
def SenderStats.tally (st : SenderStats) : Except SetupError Burst → SenderStats
  | .ok b =>
    { st with framesSent := st.framesSent + 1,
              fragmentsSent := st.fragmentsSent + b.fragments.length.toUInt64,
              bytesSent := st.bytesSent + b.frame.size.toUInt64 }
  | .error _ => { st with framesRejected := st.framesRejected + 1 }

/-- The counters of a sender that took `es` from zero: the bursts, their fragments and bytes,
and the frames refused, each counted in a 64-bit word. -/
def SenderStats.ofTaken (es : List (Float × Except SetupError Burst)) : SenderStats :=
  let bursts := es.filterMap fun e => e.2.toOption
  { framesSent := bursts.length.toUInt64
    fragmentsSent := (bursts.map fun (b : Burst) => b.fragments.length).sum.toUInt64
    bytesSent := (bursts.map fun (b : Burst) => b.frame.size.toNat).sum.toUInt64
    framesRejected := (es.countP fun e => !e.2.isOk).toUInt64 }

theorem SenderStats.foldl_tally (es : List (Float × Except SetupError Burst)) (st : SenderStats) :
    es.foldl (fun st e => st.tally e.2) st =
      { framesSent := st.framesSent + (ofTaken es).framesSent
        fragmentsSent := st.fragmentsSent + (ofTaken es).fragmentsSent
        bytesSent := st.bytesSent + (ofTaken es).bytesSent
        framesRejected := st.framesRejected + (ofTaken es).framesRejected } := by
  induction es generalizing st with
  | nil => simp [ofTaken]
  | cons e es ih =>
    obtain ⟨now, err | b⟩ := e
    · rw [List.foldl_cons, ih]
      simp [tally, ofTaken, Except.isOk, Except.toBool, Except.toOption, UInt64.add_assoc,
        UInt64.add_comm]
    · rw [List.foldl_cons, ih]
      simp [tally, ofTaken, Except.isOk, Except.toBool, Except.toOption, UInt64.add_assoc,
        UInt64.add_comm]

namespace Sender

/-- A call a host makes on a sender. -/
inductive Call where
  | start (now : Float) (dir : Directory)
  | poll (now : Float)
  | stop

/-- What a call hands back: the first instant of a start, the burst of a poll, or the error
of either. -/
inductive Reply where
  | started (r : Except SetupError (Option Float))
  | polled (r : Except SetupError (Option Burst))
  | stopped

/-- One call: the reply and the sender after it. A start that fails leaves the sender as it
was. -/
def call (s : Sender) : Call → Reply × Sender
  | .start now dir =>
    match s.start now dir with
    | .ok (first, s') => (.started (.ok first), s')
    | .error e => (.started (.error e), s)
  | .poll now =>
    match s.poll now with
    | .ok (b, s') => (.polled (.ok b), s')
    | .error (e, s') => (.polled (.error e), s')
  | .stop => (.stopped, s.stop)

/-- The sender after a history of calls. -/
def callAll (s : Sender) (hist : List Call) : Sender := hist.foldl (fun s x => (s.call x).2) s

/-- The replies to a history of calls, in order. -/
def replies (s : Sender) : List Call → List Reply
  | [] => []
  | x :: hist => (s.call x).1 :: (s.call x).2.replies hist

/-- The peer a call resolves the address `name` to: a start's lookup in its directory. -/
def Call.resolves (name : String) : Call → Option PeerId
  | .start _ dir => dir.resolve name
  | _ => none

/-- How a sender that does not run answers a call that resolves nothing, `name` being its
address: a start fails on the address, a poll has nothing to send. -/
def Call.idleReply (name : String) : Call → Reply
  | .start _ _ => .started (.error (.unresolvedDestination name))
  | .poll _ => .polled (.ok none)
  | .stop => .stopped

/-- The frame a call took from the catalog, by its reply, with the instant of the poll: sent
as a burst, or refused with the error of cutting it. -/
def Call.takes : Call → Reply → Option (Float × Except SetupError Burst)
  | .poll now, .polled (.ok (some b)) => some (now, .ok b)
  | .poll now, .polled (.error e) => some (now, .error e)
  | _, _ => none

/-- The frames a history of calls took from the catalog, in order. -/
def taken (s : Sender) : List Call → List (Float × Except SetupError Burst)
  | [] => []
  | x :: hist => (x.takes (s.call x).1).toList ++ (s.call x).2.taken hist

/-- The `k`-th frame taken from `cat` under bound `m`: catalog frame `k` cut at the poll instant and
due again no earlier unless last, or the error of cutting it. -/
def FollowsCatalog (cat : Catalog) (m k : Nat) : Float × Except SetupError Burst → Prop
  | (now, .ok b) =>
    cat.frames[k]? = some b.frame ∧ b.frame.fragments m now = .ok b.fragments ∧
      (b.nextSendAt = none ↔ k + 1 = cat.size) ∧
      ∀ t, b.nextSendAt = some t → -Float.inf < now → now ≤ t
  | (now, .error e) => ∃ fr, cat.frames[k]? = some fr ∧ fr.fragments m now = .error e

variable {c : SenderConfig} {cat : Catalog} {s s' : Sender} {now : Float}

/-- What every call keeps of a sender on `cat` under `c`: the pacer counts the catalog, its place
lies within it, a frame is due only while one remains, and a running sender has a peer. -/
structure Valid (c : SenderConfig) (cat : Catalog) (s : Sender) : Prop where
  config_eq : s.config = c
  catalog_eq : s.catalog = cat
  total_eq : s.pacer.totalFrames = cat.size
  index_le : s.pacer.frameIndex ≤ cat.size
  index_lt_of_due : s.pacer.nextSendAt.isSome → s.pacer.frameIndex < cat.size
  peer_of_running : s.phase = .running → s.destination.isSome

theorem valid_of_new (h : Sender.new c cat = .ok s) :
    Valid c cat s ∧ s.pacer.frameIndex = 0 ∧ s.phase = .idle ∧ s.destination = none ∧
      s.stats = {} := by
  unfold Sender.new at h
  cases hv : c.validate with
  | error e => simp [hv] at h; cases h
  | ok u =>
    cases hp : Pacer.new c.fps c.startOffset c.jitter cat.size with
    | error e => simp [hv, hp] at h; cases h
    | ok p =>
      obtain ⟨hidx, htot, hnext⟩ := Pacer.new_eq_ok hp
      simp only [hv, hp, bind, Except.bind, pure, Except.pure, Except.ok.injEq] at h
      subst h
      exact ⟨⟨rfl, rfl, htot, by simp [hidx], by simp [hnext], by simp⟩, hidx, rfl, rfl, rfl⟩

/-- A poll at `now` that sends `b`: the sender runs toward `b`'s destination, `b` is the frame at
its place, and it moves on by one, counts the burst and is next due when `b` says. -/
structure Sends (cat : Catalog) (m : Nat) (s : Sender) (now : Float) (b : Burst) (s' : Sender) :
    Prop where
  running : s.phase = .running
  destination_eq : s.destination = some b.destination
  follows : FollowsCatalog cat m s.pacer.frameIndex (now, .ok b)
  eq : s' = { s with pacer := s'.pacer, stats := s.stats.tally (.ok b) }
  index_eq : s'.pacer.frameIndex = s.pacer.frameIndex + 1
  total_eq : s'.pacer.totalFrames = s.pacer.totalFrames
  next_eq : s'.pacer.nextSendAt = b.nextSendAt

/-- A poll at `now` that fails with `e`: the frame at the sender's place cannot be cut, and the
sender moves past it, counts a rejection and stops. -/
structure Rejects (cat : Catalog) (m : Nat) (s : Sender) (now : Float) (e : SetupError)
    (s' : Sender) : Prop where
  running : s.phase = .running
  follows : FollowsCatalog cat m s.pacer.frameIndex (now, .error e)
  eq : s' = { s with pacer := s'.pacer, phase := .stopped, stats := s.stats.tally (.error e) }
  index_eq : s'.pacer.frameIndex = s.pacer.frameIndex + 1
  total_eq : s'.pacer.totalFrames = s.pacer.totalFrames
  next_eq : s'.pacer.nextSendAt = none

/-- What a poll of a valid sender does: nothing, when it does not run or its pacer has nothing
due; send the frame at its place; or reject it. -/
theorem poll_cases (hv : Valid c cat s) (now : Float) :
    (s.poll now = .ok (none, s) ∧ (s.phase = .running → (s.pacer.tick now).1 = none)) ∨
      (∃ b s', s.poll now = .ok (some b, s') ∧ Sends cat c.maxPayload s now b s') ∨
      (∃ e s', s.poll now = .error (e, s') ∧ Rejects cat c.maxPayload s now e s') := by
  by_cases hrun : s.phase = .running
  swap
  · exact Or.inl ⟨poll_of_not_running hrun now, fun h => absurd h hrun⟩
  obtain ⟨dest, hdest⟩ := Option.isSome_iff_exists.mp (hv.peer_of_running hrun)
  · rcases Pacer.tick_cases s.pacer now with htick | ⟨hdue, hidx, hnext, htot, hnone, hlater⟩
    · refine Or.inl ⟨?_, fun _ => by rw [htick]⟩
      unfold Sender.poll Sender.emit
      simp [hrun, hdest, htick]
      rw [← hdest, ← hrun]
    · have hlt : s.pacer.frameIndex < cat.size := hv.index_lt_of_due hdue
      have hfr : cat.frames[s.pacer.frameIndex]? = some cat.frames[s.pacer.frameIndex] :=
        List.getElem?_eq_getElem hlt
      have hget : s.catalog.get? s.pacer.frameIndex = some cat.frames[s.pacer.frameIndex] := by
        rw [Catalog.get?, hv.catalog_eq, hfr]
      generalize hq : s.pacer.tick now = q at hidx hnext htot hnone hlater
      obtain ⟨i, p'⟩ := q
      dsimp only at hidx hnext htot hnone hlater
      subst hidx
      right
      cases hcut : cat.frames[s.pacer.frameIndex].fragments c.maxPayload now with
      | error e =>
        right
        have hpoll : s.poll now = .error (e, { s with
            pacer := p'.stop, phase := .stopped, stats := s.stats.tally (.error e) }) := by
          unfold Sender.poll Sender.emit
          simp [hrun, hdest, hq, hget, hv.config_eq, hcut]
          rfl
        exact ⟨e, _, hpoll, hrun, ⟨_, hfr, hcut⟩, rfl, by simp [hnext], by simp [htot], rfl⟩
      | ok frags =>
        left
        let b : Burst := ⟨cat.frames[s.pacer.frameIndex], dest, frags, p'.nextSendAt⟩
        have hpoll : s.poll now =
            .ok (some b, { s with pacer := p', stats := s.stats.tally (.ok b) }) := by
          unfold Sender.poll Sender.emit
          simp [hrun, hdest, hq, hget, hv.config_eq, hcut]
          exact ⟨rfl, rfl⟩
        refine ⟨b, _, hpoll, hrun, hdest, ⟨hfr, hcut, ?_, ?_⟩, rfl, hnext, htot, rfl⟩
        · -- nothing is due next exactly when this was the catalog's last frame
          rw [hnone, hv.total_eq]
          omega
        · intro t ht hnow
          obtain ⟨iv, hiv, rfl⟩ := hlater t ht
          exact Float.le_add_of_nonneg hnow hiv

theorem Sends.valid {b : Burst} (hv : Valid c cat s) (h : Sends cat c.maxPayload s now b s') :
    Valid c cat s' := by
  obtain ⟨hframe, -, hlast, -⟩ := h.follows
  have hlt : s.pacer.frameIndex < cat.size := (List.getElem?_eq_some_iff.mp hframe).1
  rw [h.eq]
  refine ⟨hv.config_eq, hv.catalog_eq, h.total_eq.trans hv.total_eq, by simp [h.index_eq]; omega,
    fun hdue => ?_, hv.peer_of_running⟩
  have : b.nextSendAt ≠ none := by rw [← h.next_eq]; simpa [Option.isSome_iff_ne_none] using hdue
  simp only [h.index_eq]
  have := mt hlast.mpr this
  omega

theorem Rejects.valid {e : SetupError} (hv : Valid c cat s)
    (h : Rejects cat c.maxPayload s now e s') : Valid c cat s' := by
  obtain ⟨fr, hframe, -⟩ := h.follows
  have hlt : s.pacer.frameIndex < cat.size := (List.getElem?_eq_some_iff.mp hframe).1
  rw [h.eq]
  exact ⟨hv.config_eq, hv.catalog_eq, h.total_eq.trans hv.total_eq, by simp [h.index_eq]; omega,
    fun hdue => by simp [h.next_eq] at hdue, fun hrun => by cases hrun⟩

/-- A start resolves the sender's address in the directory: it fails when that finds nothing,
and otherwise runs toward the peer found, scheduling the next frame from the sender's place. -/
theorem call_start (hv : Valid c cat s) (now : Float) (dir : Directory) :
    s.call (.start now dir) =
      match dir.resolve c.destination with
      | none => (.started (.error (.unresolvedDestination c.destination)), s)
      | some peer => (.started (.ok (s.pacer.start now).1),
          { s with destination := some peer, phase := .running, pacer := (s.pacer.start now).2 }) := by
  have hdest : dir.resolve s.config.destination = dir.resolve c.destination := by
    rw [hv.config_eq]
  cases h : dir.resolve c.destination with
  | none => simp [call, Sender.start, h, hv.config_eq]
  | some peer => simp [call, Sender.start, hdest, h]

@[simp] theorem call_stop (s : Sender) : s.call .stop = (.stopped, s.stop) := rfl

theorem Valid.call (hv : Valid c cat s) (x : Call) : Valid c cat (s.call x).2 := by
  cases x with
  | start now dir =>
    rw [call_start hv]
    cases dir.resolve c.destination with
    | none => exact hv
    | some peer =>
      refine ⟨hv.config_eq, hv.catalog_eq, by simp [hv.total_eq], by simp [hv.index_le],
        fun hdue => ?_, fun _ => rfl⟩
      have := Pacer.lt_of_start_isSome hdue
      simpa [hv.total_eq] using this
  | poll now =>
    rcases poll_cases hv now with ⟨h, -⟩ | ⟨b, s', h, hs⟩ | ⟨e, s', h, hs⟩
    · simpa [Sender.call, h] using hv
    · simpa [Sender.call, h] using hs.valid hv
    · simpa [Sender.call, h] using hs.valid hv
  | stop =>
    exact ⟨hv.config_eq, hv.catalog_eq, hv.total_eq, hv.index_le, by simp [Sender.stop],
      fun hrun => by cases hrun⟩

@[simp] theorem callAll_nil (s : Sender) : s.callAll [] = s := rfl

@[simp] theorem callAll_cons (s : Sender) (x : Call) (hist : List Call) :
    s.callAll (x :: hist) = (s.call x).2.callAll hist := rfl

@[simp] theorem replies_nil (s : Sender) : s.replies [] = [] := rfl

@[simp] theorem replies_cons (s : Sender) (x : Call) (hist : List Call) :
    s.replies (x :: hist) = (s.call x).1 :: (s.call x).2.replies hist := rfl

@[simp] theorem taken_nil (s : Sender) : s.taken [] = [] := rfl

@[simp] theorem taken_cons (s : Sender) (x : Call) (hist : List Call) :
    s.taken (x :: hist) = (x.takes (s.call x).1).toList ++ (s.call x).2.taken hist := rfl

/-- One call takes at most the frame at the sender's place, then moves on by one and counts it; a
call that takes nothing leaves the place and the counters. -/
theorem call_takes (hv : Valid c cat s) (x : Call) :
    (∀ e, x.takes (s.call x).1 = some e →
      FollowsCatalog cat c.maxPayload s.pacer.frameIndex e ∧
        (s.call x).2.pacer.frameIndex = s.pacer.frameIndex + 1 ∧
        (s.call x).2.stats = s.stats.tally e.2) ∧
    (x.takes (s.call x).1 = none →
      (s.call x).2.pacer.frameIndex = s.pacer.frameIndex ∧ (s.call x).2.stats = s.stats) := by
  cases x with
  | start now dir =>
    rw [call_start hv]
    cases dir.resolve c.destination <;> simp [Call.takes]
  | poll now =>
    rcases poll_cases hv now with ⟨h, -⟩ | ⟨b, s', h, hs⟩ | ⟨e, s', h, hs⟩
    · simp [Sender.call, h, Call.takes]
    · simp only [Sender.call, h, Call.takes, Option.some.injEq, reduceCtorEq, IsEmpty.forall_iff,
        and_true]
      rintro _ rfl
      exact ⟨hs.follows, hs.index_eq, by rw [hs.eq]⟩
    · simp only [Sender.call, h, Call.takes, Option.some.injEq, reduceCtorEq, IsEmpty.forall_iff,
        and_true]
      rintro _ rfl
      exact ⟨hs.follows, hs.index_eq, by rw [hs.eq]⟩
  | stop => simp [Call.takes, Sender.stop]

/-- The frames a history takes are the catalog's from the sender's place on, in order; the
sender moves on by their number, and its counters add them up. -/
theorem taken_spec (hv : Valid c cat s) (hist : List Call) :
    (∀ k e, (s.taken hist)[k]? = some e →
      FollowsCatalog cat c.maxPayload (s.pacer.frameIndex + k) e) ∧
    (s.callAll hist).pacer.frameIndex = s.pacer.frameIndex + (s.taken hist).length ∧
    (s.callAll hist).stats = (s.taken hist).foldl (fun st e => st.tally e.2) s.stats := by
  induction hist generalizing s with
  | nil => simp
  | cons x hist ih =>
    obtain ⟨hfollow, hidx, hstats⟩ := ih (hv.call x)
    obtain ⟨hsome, hnone⟩ := call_takes hv x
    rw [taken_cons, callAll_cons]
    cases ht : x.takes (s.call x).1 with
    | none =>
      obtain ⟨hi, hst⟩ := hnone ht
      rw [hi] at hfollow hidx
      rw [hst] at hstats
      simp only [Option.toList_none, List.nil_append]
      exact ⟨hfollow, hidx, hstats⟩
    | some e =>
      obtain ⟨he, hi, hst⟩ := hsome e ht
      rw [hi] at hfollow hidx
      rw [hst] at hstats
      refine ⟨fun k e' hk => ?_, by simp [hidx]; omega, by simpa using hstats⟩
      cases k with
      | zero =>
        simp only [Option.toList_some, List.singleton_append, List.getElem?_cons_zero,
          Option.some.injEq] at hk
        subst hk
        simpa using he
      | succ k =>
        simp only [Option.toList_some, List.singleton_append, List.getElem?_cons_succ] at hk
        have := hfollow k e' hk
        rwa [show s.pacer.frameIndex + 1 + k = s.pacer.frameIndex + (k + 1) by omega] at this

/-- A start that resolves leaves the sender due at the instant it returns, which it has exactly
while frames remain. -/
theorem due_of_started {dir : Directory} {first : Option Float} (hv : Valid c cat s)
    (h : (s.call (.start now dir)).1 = .started (.ok first)) :
    (s.call (.start now dir)).2.nextSendAt = first ∧
      (first.isSome ↔ s.pacer.frameIndex < cat.size) := by
  rw [call_start hv] at h ⊢
  cases hr : dir.resolve c.destination with
  | none => simp [hr] at h
  | some peer =>
    simp only [hr, Reply.started.injEq, Except.ok.injEq] at h ⊢
    subst h
    obtain ⟨hfst, hsome⟩ := Pacer.start_fst s.pacer now
    rw [hv.total_eq] at hsome
    exact ⟨by simp [Sender.nextSendAt, hfst], hsome⟩

theorem takes_of_due {due : Float} (hv : Valid c cat s) (hrun : s.phase = .running)
    (hdue : s.pacer.nextSendAt = some due) (hnow : ¬now < due) :
    ((Call.poll now).takes (s.call (.poll now)).1).isSome := by
  rcases poll_cases hv now with ⟨-, htick⟩ | ⟨b, s', h, -⟩ | ⟨e, s', h, -⟩
  · rw [Pacer.tick_of_due hdue hnow] at htick
    cases htick hrun
  · simp [Sender.call, h, Call.takes]
  · simp [Sender.call, h, Call.takes]

theorem Valid.callAll (hv : Valid c cat s) (hist : List Call) : Valid c cat (s.callAll hist) := by
  induction hist generalizing s with
  | nil => exact hv
  | cons x hist ih => exact ih (hv.call x)

theorem destination_call (hv : Valid c cat s) (x : Call) :
    (s.call x).2.destination = (x.resolves c.destination).or s.destination := by
  cases x with
  | start now dir =>
    rw [call_start hv]
    cases h : dir.resolve c.destination <;> simp [Call.resolves, h]
  | poll now =>
    rcases poll_cases hv now with ⟨h, -⟩ | ⟨b, s', h, hs⟩ | ⟨e, s', h, hs⟩
    · simp [Sender.call, h, Call.resolves]
    · simp only [Sender.call, h, Call.resolves, Option.none_or]
      rw [hs.eq]
    · simp only [Sender.call, h, Call.resolves, Option.none_or]
      rw [hs.eq]
  | stop => simp [Sender.stop, Call.resolves]

theorem destination_callAll (hv : Valid c cat s) (hist : List Call) :
    (s.callAll hist).destination =
      (hist.filterMap (Call.resolves c.destination)).getLast?.or s.destination := by
  induction hist generalizing s with
  | nil => simp
  | cons x hist ih =>
    rw [callAll_cons, ih (hv.call x), destination_call hv x, List.filterMap_cons]
    cases x.resolves c.destination with
    | none => rfl
    | some p =>
      cases h : (hist.filterMap (Call.resolves c.destination)).getLast? <;>
        simp [h, List.getLast?_cons]

theorem call_of_not_running (hv : Valid c cat s) (hs : s.phase ≠ .running) {x : Call}
    (hx : x.resolves c.destination = none) :
    (s.call x).1 = x.idleReply c.destination ∧ (s.call x).2.phase ≠ .running := by
  cases x with
  | start now dir =>
    simp only [Call.resolves] at hx
    rw [call_start hv, hx]
    exact ⟨rfl, hs⟩
  | poll now => simp [Sender.call, poll_of_not_running hs, Call.idleReply, hs]
  | stop => simp [Sender.stop, Call.idleReply]

theorem replies_of_not_running (hv : Valid c cat s) (hs : s.phase ≠ .running) (hist : List Call)
    (hh : ∀ x ∈ hist, x.resolves c.destination = none) :
    s.replies hist = hist.map (Call.idleReply c.destination) := by
  induction hist generalizing s with
  | nil => rfl
  | cons x hist ih =>
    obtain ⟨hr, hrun⟩ := call_of_not_running hv hs (hh x List.mem_cons_self)
    rw [replies_cons, List.map_cons, hr,
      ih (hv.call x) hrun fun y hy => hh y (List.mem_cons_of_mem x hy)]

theorem running_of_polled {b : Burst} (hv : Valid c cat s)
    (h : (s.call (.poll now)).1 = .polled (.ok (some b))) :
    s.phase = .running ∧ s.destination = some b.destination := by
  rcases poll_cases hv now with ⟨hp, -⟩ | ⟨b', s', hp, hs⟩ | ⟨e, s', hp, hs⟩
  · simp [Sender.call, hp] at h
  · simp only [Sender.call, hp, Reply.polled.injEq, Except.ok.injEq, Option.some.injEq] at h
    subst h
    exact ⟨hs.running, hs.destination_eq⟩
  · simp [Sender.call, hp] at h

/-- A poll that fails stops the sender and counts one frame rejected, and nothing else. -/
theorem stopped_of_polled {e : SetupError} (hv : Valid c cat s)
    (h : (s.call (.poll now)).1 = .polled (.error e)) :
    (s.call (.poll now)).2.phase = .stopped ∧
      (s.call (.poll now)).2.stats =
        { s.stats with framesRejected := s.stats.framesRejected + 1 } := by
  rcases poll_cases hv now with ⟨hp, -⟩ | ⟨b, s', hp, hs⟩ | ⟨e', s', hp, hs⟩
  · simp [Sender.call, hp] at h
  · simp [Sender.call, hp] at h
  · simp only [Sender.call, hp, Reply.polled.injEq, Except.error.injEq] at h ⊢
    subst h
    rw [hs.eq]
    exact ⟨rfl, rfl⟩

/-- A sender on catalog `cat` under any history of calls sends only while running, toward the last
resolved start's peer; its `k`-th frame taken is catalog frame `k` cut at its poll instant or
refused, a refusal stops it with one rejection, and the counters add up the frames taken. -/
theorem sender_follows_catalog (hs : Sender.new c cat = .ok s) (hist : List Call) :
    (∀ pre now b, ((s.callAll pre).call (.poll now)).1 = .polled (.ok (some b)) →
      (s.callAll pre).phase = .running ∧
        (pre.filterMap (Call.resolves c.destination)).getLast? = some b.destination) ∧
    (∀ pre now dir first, ((s.callAll pre).call (.start now dir)).1 = .started (.ok first) →
      ((s.callAll pre).call (.start now dir)).2.nextSendAt = first ∧
        (first.isSome ↔ (s.taken pre).length < cat.size)) ∧
    (∀ pre now due, (s.callAll pre).nextSendAt = some due → ¬now < due →
      ((Call.poll now).takes ((s.callAll pre).call (.poll now)).1).isSome) ∧
    ((∀ x ∈ hist, x.resolves c.destination = none) →
      s.replies hist = hist.map (Call.idleReply c.destination)) ∧
    (∀ k e, (s.taken hist)[k]? = some e → FollowsCatalog cat c.maxPayload k e) ∧
    (s.callAll hist).pacer.frameIndex = (s.taken hist).length ∧
    (s.taken hist).length ≤ cat.size ∧
    (∀ pre now e, ((s.callAll pre).call (.poll now)).1 = .polled (.error e) →
      ((s.callAll pre).call (.poll now)).2.phase = .stopped ∧
      ((s.callAll pre).call (.poll now)).2.stats =
        { (s.callAll pre).stats with framesRejected := (s.callAll pre).stats.framesRejected + 1 } ∧
      ∀ rest, (∀ x ∈ rest, x.resolves c.destination = none) →
        ((s.callAll pre).call (.poll now)).2.replies rest =
          rest.map (Call.idleReply c.destination)) ∧
    (s.callAll hist).stats = SenderStats.ofTaken (s.taken hist) := by
  obtain ⟨hv, hidx, hidle, hdest, hstats⟩ := valid_of_new hs
  obtain ⟨hfollow, hplace, hcount⟩ := taken_spec hv hist
  rw [hidx, Nat.zero_add] at hplace
  refine ⟨fun pre now b h => ?_, fun pre now dir first h => ?_, fun pre now due hdue hnow => ?_,
    replies_of_not_running hv (by simp [hidle]) hist,
    fun k e hk => by simpa [hidx] using hfollow k e hk, hplace,
    hplace ▸ (hv.callAll hist).index_le, fun pre now e h => ?_, ?_⟩
  · obtain ⟨hrun, hd⟩ := running_of_polled (hv.callAll pre) h
    rw [destination_callAll hv, hdest, Option.or_none] at hd
    exact ⟨hrun, hd⟩
  · have := due_of_started (hv.callAll pre) h
    rwa [(taken_spec hv pre).2.1, hidx, Nat.zero_add] at this
  · unfold Sender.nextSendAt at hdue
    split at hdue
    · exact takes_of_due (hv.callAll pre) ‹_› hdue hnow
    · cases hdue
  · obtain ⟨hstop, hst⟩ := stopped_of_polled (hv.callAll pre) h
    exact ⟨hstop, hst, replies_of_not_running ((hv.callAll pre).call _) (by simp [hstop])⟩
  · rw [hcount, hstats, SenderStats.foldl_tally]
    simp

/-- A catalog of two frames, the second of them empty. -/
def frameThenEmpty : Catalog :=
  ⟨[⟨1, 4, 0.5, 3000⟩, ⟨2, 4, 0.25, 0⟩], by simp⟩

/-- A start toward a directory where the default address is peer 7, then three polls. -/
def startThenPolls : List Call :=
  [.start 0.0 ⟨[("", ⟨7⟩)]⟩, .poll 1.0, .poll 2.0, .poll 3.0]

theorem frameThenEmpty_taken_follow :
    ∃ s, Sender.new {} frameThenEmpty = .ok s ∧
      ∀ k e, (s.taken startThenPolls)[k]? = some e → FollowsCatalog frameThenEmpty 1400 k e := by
  obtain ⟨s, hs⟩ : ∃ s, Sender.new {} frameThenEmpty = .ok s := ⟨_, rfl⟩
  exact ⟨s, hs, (sender_follows_catalog hs startThenPolls).2.2.2.2.1⟩

end Sender

end XrDelivery
