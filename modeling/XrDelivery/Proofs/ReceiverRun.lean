import Mathlib
import XrDelivery.Receiver
import XrDelivery.Proofs.Reassembly
import XrDelivery.Proofs.LossDetection

/-!
# A receiver's stream, from the first fragment to finalize

While a receiver is active, a fragment does to its tracker what `Tracker.ingest` does and adds
an event only when it completes its frame: the frame's record as the tracker then holds it. A
complete frame never changes again, so the completion events agree with the tracker at every
step (`Receiver.CompletionsAgree`): a frame has a completion event exactly when it is
complete, and the event carries the frame's record. Finalizing adds only loss events, one for
each expected frame that is unknown or incomplete, and leaves the complete frames as they are.

From a fresh receiver the verdict on an expected frame therefore follows from its arrivals
alone: complete, with its first arrival's metadata, at the `c`-th arrival once `c` of them came,
and reported lost otherwise.
-/
namespace XrDelivery

namespace Receiver

variable {r : Receiver} {f : Fragment} {a : Float}

/-- The event a fragment reports: the record of the frame it completes, if it completes one. -/
def completionEvents (t : Tracker) (f : Fragment) (arrival deadlineMs : Float) :
    List ReceiverEvent :=
  match (t.ingest f arrival).1.status with
  | .completed _ => ((t.ingest f arrival).2.get? f.frameSeq).toList.map fun s =>
      .completed (FrameRecord.ofState f.frameSeq s deadlineMs)
  | _ => []

theorem mem_completionEvents {t : Tracker} {deadlineMs : Float} {ev : ReceiverEvent} :
    ev ∈ completionEvents t f a deadlineMs ↔
      ∃ cl s, (t.ingest f a).1.status = .completed cl ∧ (t.ingest f a).2.get? f.frameSeq = some s ∧
        ev = .completed (FrameRecord.ofState f.frameSeq s deadlineMs) := by
  unfold completionEvents
  split
  · rename_i cl hst
    simp [hst, eq_comm]
  · rename_i hst
    simp only [List.not_mem_nil, false_iff, not_exists, not_and]
    intro cl s hcl
    exact absurd hcl (hst cl)

/-- What an active receiver does with a fragment: its tracker takes the fragment in, a
completion adds the frame's event, and otherwise only the counters change. -/
theorem onFragment_of_active (h : r.outcome = none) :
    ∃ st, r.onFragment f a =
      { r with
        tracker := (r.tracker.ingest f a).2
        events := r.events ++ completionEvents r.tracker f a r.config.deadlineMs
        stats := st } := by
  unfold onFragment completionEvents
  rw [if_neg (by simp [isFinalized, h])]
  dsimp only
  generalize (r.tracker.ingest f a) = ing
  obtain ⟨⟨status, mismatch⟩, t'⟩ := ing
  cases status with
  | completed c => cases hs : t'.get? f.frameSeq <;> cases mismatch <;> simp [hs]
  | pending | duplicate | malformed => cases mismatch <;> simp

@[simp] theorem config_onFragment : (r.onFragment f a).config = r.config := by
  cases h : r.outcome with
  | none =>
    obtain ⟨st, hst⟩ := onFragment_of_active (f := f) (a := a) h
    rw [hst]
  | some o => rw [onFragment_of_finalized (by simp [h])]

@[simp] theorem outcome_onFragment : (r.onFragment f a).outcome = r.outcome := by
  cases h : r.outcome with
  | none =>
    obtain ⟨st, hst⟩ := onFragment_of_active (f := f) (a := a) h
    rw [hst, h]
  | some o => rw [onFragment_of_finalized (by simp [h]), h]

/-- Take in fragments in order, each at its arrival instant. -/
def receiveAll (r : Receiver) (evs : List (Fragment × Float)) : Receiver :=
  evs.foldl (fun r e => r.onFragment e.1 e.2) r

@[simp] theorem receiveAll_nil (r : Receiver) : r.receiveAll [] = r := rfl

theorem receiveAll_append_singleton (r : Receiver) (evs : List (Fragment × Float))
    (e : Fragment × Float) : r.receiveAll (evs ++ [e]) = (r.receiveAll evs).onFragment e.1 e.2 := by
  simp [receiveAll]

@[simp] theorem config_receiveAll (r : Receiver) (evs : List (Fragment × Float)) :
    (r.receiveAll evs).config = r.config := by
  induction evs using List.reverseRecOn with
  | nil => rfl
  | append_singleton evs e ih => rw [receiveAll_append_singleton, config_onFragment, ih]

@[simp] theorem outcome_receiveAll (r : Receiver) (evs : List (Fragment × Float)) :
    (r.receiveAll evs).outcome = r.outcome := by
  induction evs using List.reverseRecOn with
  | nil => rfl
  | append_singleton evs e ih => rw [receiveAll_append_singleton, outcome_onFragment, ih]

theorem tracker_receiveAll (h : r.outcome = none) (evs : List (Fragment × Float)) :
    (r.receiveAll evs).tracker = r.tracker.ingestAll evs := by
  induction evs using List.reverseRecOn with
  | nil => rfl
  | append_singleton evs e ih =>
    have hact : (r.receiveAll evs).outcome = none := by rw [outcome_receiveAll, h]
    obtain ⟨st, hst⟩ := onFragment_of_active (f := e.1) (a := e.2) hact
    rw [receiveAll_append_singleton, hst, Tracker.ingestAll_append_singleton, ih]

/-- The completion events agree with the tracker: each carries the record of a complete frame
as the tracker holds it, every complete frame has one, and nothing is reported lost. -/
structure CompletionsAgree (r : Receiver) : Prop where
  complete_of_mem : ∀ rec, .completed rec ∈ r.events → ∃ s,
    r.tracker.get? rec.frameNumber = some s ∧ s.isComplete = true ∧
      rec = FrameRecord.ofState rec.frameNumber s r.config.deadlineMs
  mem_of_complete : ∀ k s, r.tracker.get? k = some s → s.isComplete = true →
    .completed (FrameRecord.ofState k s r.config.deadlineMs) ∈ r.events
  lost_not_mem : ∀ rec, .lost rec ∉ r.events

theorem CompletionsAgree.onFragment (h : r.outcome = none) (hr : r.CompletionsAgree) :
    (r.onFragment f a).CompletionsAgree := by
  obtain ⟨st, hst⟩ := onFragment_of_active (f := f) (a := a) h
  rw [hst]
  constructor
  · intro rec hrec
    rcases List.mem_append.mp hrec with hold | hnew
    · obtain ⟨s, hs, hcs, hrec⟩ := hr.complete_of_mem rec hold
      exact ⟨s, Tracker.get?_ingest_of_isComplete _ f a hs hcs, hcs, hrec⟩
    · obtain ⟨cl, s, hcl, hs, hev⟩ := mem_completionEvents.mp hnew
      cases hev
      obtain ⟨-, -, s', hs', hcs', -⟩ := (Tracker.ingest_completed_iff _ f a cl).mp hcl
      rw [hs] at hs'
      cases hs'
      exact ⟨s, hs, hcs', rfl⟩
  · intro k s hs hcs
    rcases Tracker.isComplete_ingest _ f a hs hcs with hold | ⟨rfl, cl, hcl⟩
    · exact List.mem_append_left _ (hr.mem_of_complete k s hold hcs)
    · exact List.mem_append_right _ (mem_completionEvents.mpr ⟨cl, s, hcl, hs, rfl⟩)
  · intro rec hrec
    rcases List.mem_append.mp hrec with hold | hnew
    · exact hr.lost_not_mem rec hold
    · obtain ⟨cl, s, -, -, hev⟩ := mem_completionEvents.mp hnew
      cases hev

theorem CompletionsAgree.receiveAll (h : r.outcome = none) (hr : r.CompletionsAgree)
    (evs : List (Fragment × Float)) : (r.receiveAll evs).CompletionsAgree := by
  induction evs using List.reverseRecOn with
  | nil => exact hr
  | append_singleton evs e ih =>
    rw [receiveAll_append_singleton]
    exact ih.onFragment (by rw [outcome_receiveAll, h])

theorem completionsAgree_of_new {c : ReceiverConfig} {agg agg' : Aggregator}
    (h : Receiver.new c agg = .ok (r, agg')) : r.CompletionsAgree := by
  obtain ⟨-, ht, -, hev⟩ := new_eq_ok h
  refine ⟨?_, ?_, ?_⟩
  · intro rec hrec; simp [hev] at hrec
  · intro k s hs
    simp [ht, Tracker.new, Tracker.get?] at hs
  · intro rec hrec; simp [hev] at hrec

/-- The first finalize: loss detection over the expected frames, and one loss event for each
absent or partial frame, in increasing frame number, after the events already there. -/
theorem finalize_of_active (h : r.outcome = none) (agg : Aggregator) :
    (r.finalize agg).2.1.tracker = (r.tracker.detectLost r.config.expectedFrames).2 ∧
      (r.finalize agg).2.1.config = r.config ∧
      (r.finalize agg).2.1.events = r.events ++
        (((r.tracker.detectLost r.config.expectedFrames).1.absent ++
          (r.tracker.detectLost r.config.expectedFrames).1.incomplete).mergeSort (· ≤ ·)).map
          fun seq => .lost (FrameRecord.lost seq r.config.penalty r.config.deadlineMs) := by
  simp [finalize, h]

theorem completed_mem_finalize_iff (h : r.outcome = none) (agg : Aggregator) (rec : FrameRecord) :
    .completed rec ∈ (r.finalize agg).2.1.events ↔ .completed rec ∈ r.events := by
  rw [(finalize_of_active h agg).2.2]
  simp

theorem any_isComplete_finalize (h : r.outcome = none) (agg : Aggregator) (k : UInt32) :
    ((r.finalize agg).2.1.tracker.get? k).any FrameState.isComplete =
      (r.tracker.get? k).any FrameState.isComplete := by
  rw [(finalize_of_active h agg).1, (Tracker.detectLost_eq _ _).2.2.2 k]
  split
  · rename_i hk
    simp [hk.2, FrameState.lost, FrameState.isComplete]
  · rfl

/-- An expected frame that the tracker does not know, or holds partially, is reported lost. -/
theorem lost_mem_finalize (h : r.outcome = none) (agg : Aggregator) {k : UInt32}
    (hk : 1 ≤ k.toNat ∧ k.toNat ≤ r.config.expectedFrames.toNat)
    (hgap : r.tracker.get? k = none ∨ r.tracker.isPartial k = true) :
    .lost (FrameRecord.lost k r.config.penalty r.config.deadlineMs) ∈
      (r.finalize agg).2.1.events := by
  obtain ⟨habs, hinc, -⟩ := Tracker.detectLost_eq r.tracker r.config.expectedFrames
  have hmem : k ∈ frameNumbers r.config.expectedFrames.toNat := (mem_frameNumbers _ _).mpr hk
  have hloss : k ∈ (r.tracker.detectLost r.config.expectedFrames).1.absent ++
      (r.tracker.detectLost r.config.expectedFrames).1.incomplete := by
    rw [habs, hinc, List.mem_append, List.mem_filter, List.mem_filter]
    rcases hgap with hnone | hpart
    · exact .inl ⟨hmem, by simp [hnone]⟩
    · exact .inr ⟨hmem, hpart⟩
  rw [(finalize_of_active h agg).2.2, List.mem_append, List.mem_map]
  exact .inr ⟨k, List.mem_mergeSort.mpr hloss, rfl⟩

section Verdict

/-! ### The verdict on a frame, from a fresh receiver -/

variable {c : ReceiverConfig} {agg agg' : Aggregator}

/-- A fresh receiver's tracker holds, for every frame, the closed form of its arrivals. -/
theorem get?_receiveAll_new (h : Receiver.new c agg = .ok (r, agg'))
    (evs : List (Fragment × Float)) (k : UInt32) :
    (r.receiveAll evs).tracker.get? k =
      FrameState.ofArrivals ⟨c.deadlineMs, c.penalty⟩ (arrivalsOf k evs) := by
  obtain ⟨-, ht, hout, -⟩ := new_eq_ok h
  rw [tracker_receiveAll hout, ht, Tracker.get?_ingestAll_new]

/-- Every frame a fresh receiver knows is owed to its first arrival. -/
theorem consistent_receiveAll_new (h : Receiver.new c agg = .ok (r, agg'))
    (evs : List (Fragment × Float)) {n : UInt32} {s : FrameState}
    (hs : (r.receiveAll evs).tracker.get? n = some s) :
    ∃ f a, s.Consistent ⟨c.deadlineMs, c.penalty⟩ f a := by
  rw [get?_receiveAll_new h] at hs
  cases harr : arrivalsOf n evs with
  | nil => rw [harr] at hs; cases hs
  | cons e rest =>
    obtain ⟨f, a⟩ := e
    rw [harr] at hs
    have hf : f.count ≠ 0 := arrivalsOf_count_ne_zero _ (by rw [harr]; exact List.mem_cons_self)
    exact ⟨f, a, FrameState.consistent_ofArrivals _ f a rest hf s hs⟩

/-- The record of a frame completed at the instant `done` of its `c`-th arrival: the first
arrival's metadata, completed at `done`, and the classification of `done`. -/
theorem ofState_ofArrivals (d : Deadline) (f : Fragment) (a : Float)
    (rest : List (Fragment × Float)) {x : Fragment} {done : Float}
    (hget : ((f, a) :: rest)[f.count.toNat - 1]? = some (x, done)) (n : UInt32)
    (deadlineMs : Float) :
    (FrameState.ofArrivals d ((f, a) :: rest)).map (FrameRecord.ofState n · deadlineMs) = some
      { frameNumber := n, components := f.components, error := f.error, size := f.frameSize,
        sentAt := f.sentAt, receivedAt := done,
        delayMs := (d.classify f.sentAt done f.error).delayMs,
        onTime := (d.classify f.sentAt done f.error).onTime,
        effectiveError := (d.classify f.sentAt done f.error).effectiveError, deadlineMs } := by
  simp [FrameState.ofArrivals, hget, FrameRecord.ofState, FrameState.complete, FrameState.first,
    FrameState.delayOrSentinel]

variable (h : Receiver.new c agg = .ok (r, agg')) (evs : List (Fragment × Float))
  (agg₂ : Aggregator) (n : UInt32)
include h

theorem isComplete_verdict_iff :
    (((r.receiveAll evs).finalize agg₂).2.1.tracker.get? n).any FrameState.isComplete = true ↔
      ∃ f a rest, arrivalsOf n evs = (f, a) :: rest ∧ f.count.toNat ≤ rest.length + 1 := by
  have hout : (r.receiveAll evs).outcome = none := by
    rw [outcome_receiveAll, (new_eq_ok h).2.2.1]
  rw [any_isComplete_finalize hout, get?_receiveAll_new h]
  cases harr : arrivalsOf n evs with
  | nil => simp
  | cons e rest =>
    obtain ⟨f, a⟩ := e
    obtain ⟨s, hs⟩ := FrameState.ofArrivals_cons_exists ⟨c.deadlineMs, c.penalty⟩ f a rest
    rw [hs, Option.any_some, FrameState.isComplete_ofArrivals _ f a rest s hs]
    simp

/-- A frame has a completion event exactly when it ends complete. -/
theorem completed_verdict_iff :
    (∃ rec, .completed rec ∈ ((r.receiveAll evs).finalize agg₂).2.1.events ∧
        rec.frameNumber = n) ↔
      (((r.receiveAll evs).finalize agg₂).2.1.tracker.get? n).any FrameState.isComplete = true := by
  have hout : (r.receiveAll evs).outcome = none := by
    rw [outcome_receiveAll, (new_eq_ok h).2.2.1]
  have hagree := (completionsAgree_of_new h).receiveAll (new_eq_ok h).2.2.1 evs
  rw [any_isComplete_finalize hout]
  constructor
  · rintro ⟨rec, hrec, rfl⟩
    obtain ⟨s, hs, hcs, -⟩ :=
      hagree.complete_of_mem rec ((completed_mem_finalize_iff hout agg₂ rec).mp hrec)
    simp [hs, hcs]
  · intro hcomplete
    obtain ⟨s, hs, hcs⟩ := (Option.any_eq_true _ _).mp hcomplete
    exact ⟨_, (completed_mem_finalize_iff hout agg₂ _).mpr
      (hagree.mem_of_complete n s hs hcs), rfl⟩

/-- The completion event of a frame whose `c`-th arrival came at `done`. -/
theorem completed_record_mem {f : Fragment} {a : Float} {rest : List (Fragment × Float)}
    (harr : arrivalsOf n evs = (f, a) :: rest) {x : Fragment} {done : Float}
    (hget : ((f, a) :: rest)[f.count.toNat - 1]? = some (x, done)) :
    .completed
      { frameNumber := n, components := f.components, error := f.error, size := f.frameSize,
        sentAt := f.sentAt, receivedAt := done,
        delayMs := (Deadline.classify ⟨c.deadlineMs, c.penalty⟩ f.sentAt done f.error).delayMs,
        onTime := (Deadline.classify ⟨c.deadlineMs, c.penalty⟩ f.sentAt done f.error).onTime,
        effectiveError :=
          (Deadline.classify ⟨c.deadlineMs, c.penalty⟩ f.sentAt done f.error).effectiveError,
        deadlineMs := c.deadlineMs } ∈ ((r.receiveAll evs).finalize agg₂).2.1.events := by
  obtain ⟨hcfg, -, hout₀, -⟩ := new_eq_ok h
  have hout : (r.receiveAll evs).outcome = none := by rw [outcome_receiveAll, hout₀]
  have hagree := (completionsAgree_of_new h).receiveAll hout₀ evs
  obtain ⟨s, hs⟩ := FrameState.ofArrivals_cons_exists ⟨c.deadlineMs, c.penalty⟩ f a rest
  have hrec := ofState_ofArrivals ⟨c.deadlineMs, c.penalty⟩ f a rest hget n c.deadlineMs
  rw [hs, Option.map_some] at hrec
  have hlen : f.count.toNat ≤ rest.length + 1 := by
    have := (List.getElem?_eq_some_iff.mp hget).1
    simp at this
    omega
  have hcs : s.isComplete = true := by
    rw [FrameState.isComplete_ofArrivals _ f a rest s hs]
    simpa using hlen
  have hget' : (r.receiveAll evs).tracker.get? n = some s := by
    rw [get?_receiveAll_new h, harr, hs]
  have hmem := hagree.mem_of_complete n s hget' hcs
  rw [config_receiveAll, hcfg, Option.some_inj.mp hrec] at hmem
  exact (completed_mem_finalize_iff hout agg₂ _).mpr hmem

/-- An expected frame that does not end complete is reported lost. -/
theorem lost_verdict_mem (hn : 1 ≤ n.toNat ∧ n.toNat ≤ c.expectedFrames.toNat)
    (hinc : (((r.receiveAll evs).finalize agg₂).2.1.tracker.get? n).any FrameState.isComplete =
      false) :
    .lost (FrameRecord.lost n c.penalty c.deadlineMs) ∈
      ((r.receiveAll evs).finalize agg₂).2.1.events := by
  obtain ⟨hcfg, -, hout₀, -⟩ := new_eq_ok h
  have hout : (r.receiveAll evs).outcome = none := by rw [outcome_receiveAll, hout₀]
  rw [any_isComplete_finalize hout] at hinc
  have hmem := lost_mem_finalize hout agg₂ (by rw [config_receiveAll, hcfg]; exact hn) ?_
  · rwa [config_receiveAll, hcfg] at hmem
  cases hs : (r.receiveAll evs).tracker.get? n with
  | none => exact .inl rfl
  | some s =>
    right
    obtain ⟨f, a, hcons⟩ := consistent_receiveAll_new h evs hs
    rw [hs] at hinc
    simp only [Option.any_some] at hinc
    simp [Tracker.isPartial, hs, hinc]
    exact hcons.received_pos

end Verdict

end Receiver

end XrDelivery
