import Mathlib
import XrDelivery.Proofs.ReceiverRun

/-!
# Every expected frame is reported once

While a receiver is active, a fragment adds an event only when it completes its frame, and a
frame completes once; so the completion events name distinct frames, and there are as many of
them as the completions the receiver counted. Finalizing adds a loss event for every expected
frame that is absent or partial, in increasing frame number, after the completion events.

An expected frame is complete, absent or partial, and only one of these, since every frame the
tracker knows holds at least its first fragment. So each expected frame number has exactly one
event: its completion if it completed, its loss otherwise. The quality summary counts the same
frames: the frames it finds lost are the absent and the partial ones, and the partial frames it
counts are those the loss report lists.
-/
namespace XrDelivery

/-! ### What the quality summary counts -/

/-- Over frame numbers `ns`, the tally adds as lost the frames that are not complete and as
partial those that hold some fragments without being complete. -/
theorem Tally.foldl_add_lost_partials (p : Float) (t : Tracker) (ns : List UInt32)
    (acc : Tally) :
    (ns.foldl (fun acc n => acc.add p (t.get? n)) acc).lost =
        acc.lost + (ns.filter fun n => !(t.get? n).any FrameState.isComplete).length ∧
      (ns.foldl (fun acc n => acc.add p (t.get? n)) acc).partials =
        acc.partials + (ns.filter t.isPartial).length := by
  induction ns generalizing acc with
  | nil => simp
  | cons n ns ih =>
    obtain ⟨hlost, hpart⟩ := ih (acc.add p (t.get? n))
    rw [List.foldl_cons, hlost, hpart, List.filter_cons, List.filter_cons]
    cases hs : t.get? n with
    | none => simp [Tally.add, Tracker.isPartial, hs]; omega
    | some s =>
      cases hd : s.delayMs with
      | some d =>
        cases ho : s.onTime <;>
          simp [Tally.add, Tracker.isPartial, FrameState.isComplete, hs, hd, ho]
      | none =>
        by_cases hr : s.received > 0 <;>
          simp [Tally.add, Tracker.isPartial, FrameState.isComplete, hs, hd, hr] <;> omega

theorem StreamQuality.lostFrames_compute (t : Tracker) (E : UInt32) (threshold : Float) :
    (StreamQuality.compute t E threshold).lostFrames.toNat =
      ((frameNumbers E.toNat).filter fun n => !(t.get? n).any FrameState.isComplete).length := by
  have hlen : ((frameNumbers E.toNat).filter
      fun n => !(t.get? n).any FrameState.isComplete).length < 2 ^ 32 :=
    (List.length_filter_le _ _).trans_lt (by simpa [frameNumbers] using E.toNat_lt)
  simp only [StreamQuality.compute, (Tally.foldl_add_lost_partials _ _ _ _).1]
  simp
  omega

theorem StreamQuality.partialFrames_compute (t : Tracker) (E : UInt32) (threshold : Float) :
    (StreamQuality.compute t E threshold).partialFrames.toNat =
      ((frameNumbers E.toNat).filter t.isPartial).length := by
  have hlen : ((frameNumbers E.toNat).filter t.isPartial).length < 2 ^ 32 :=
    (List.length_filter_le _ _).trans_lt (by simpa [frameNumbers] using E.toNat_lt)
  simp only [StreamQuality.compute, (Tally.foldl_add_lost_partials _ _ _ _).2]
  simp
  omega

/-! ### What loss detection reports -/

namespace Tracker

variable (t : Tracker) (E : UInt32)

theorem disjoint_absent_incomplete :
    (t.detectLost E).1.absent.Disjoint (t.detectLost E).1.incomplete := by
  obtain ⟨habs, hinc, -⟩ := t.detectLost_eq E
  rw [habs, hinc]
  intro n hn hn'
  have hnone : t.get? n = none := by simpa using (List.mem_filter.mp hn).2
  simp [hnone] at hn'

theorem nodup_absent_append_incomplete :
    ((t.detectLost E).1.absent ++ (t.detectLost E).1.incomplete).Nodup := by
  obtain ⟨habs, hinc, -⟩ := t.detectLost_eq E
  refine List.nodup_append.mpr ⟨?_, ?_, fun a ha b hb hab => ?_⟩
  · rw [habs]; exact (nodup_frameNumbers E).filter _
  · rw [hinc]; exact (nodup_frameNumbers E).filter _
  · exact t.disjoint_absent_incomplete E ha (hab ▸ hb)

variable {t}

/-- When every frame the tracker knows holds a fragment, the absent and partial frames are the
expected frames that are not complete. -/
theorem mem_absent_or_incomplete_iff (hpos : ∀ n s, t.get? n = some s → 0 < s.received)
    (n : UInt32) :
    n ∈ (t.detectLost E).1.absent ∨ n ∈ (t.detectLost E).1.incomplete ↔
      n ∈ frameNumbers E.toNat ∧ (t.get? n).any FrameState.isComplete = false := by
  obtain ⟨habs, hinc, -⟩ := t.detectLost_eq E
  rw [habs, hinc, List.mem_filter, List.mem_filter, ← and_or_left]
  refine and_congr_right fun _ => ?_
  cases hs : t.get? n with
  | none => simp
  | some s => simp [isPartial, hs, hpos n s hs]

theorem get?_detectLost_of_mem (n : UInt32) {s : FrameState} (hs : t.get? n = some s) :
    (t.detectLost E).2.get? n = some s := by
  rw [(t.detectLost_eq E).2.2.2 n, hs]
  simp

theorem lostCount_detectLost (hpos : ∀ n s, t.get? n = some s → 0 < s.received) :
    (t.detectLost E).1.lostCount = ((frameNumbers E.toNat).filter
      fun n => !((t.detectLost E).2.get? n).any FrameState.isComplete).length := by
  obtain ⟨-, -, -, hget⟩ := t.detectLost_eq E
  have hsame : (frameNumbers E.toNat).filter
      (fun n => !((t.detectLost E).2.get? n).any FrameState.isComplete) =
      (frameNumbers E.toNat).filter (fun n => !(t.get? n).any FrameState.isComplete) :=
    List.filter_congr fun n hn => by
      cases hs : t.get? n <;> simp [hget, hn, hs, FrameState.lost, FrameState.isComplete]
  have hperm : ((t.detectLost E).1.absent ++ (t.detectLost E).1.incomplete).Perm
      ((frameNumbers E.toNat).filter fun n => !(t.get? n).any FrameState.isComplete) := by
    rw [List.perm_ext_iff_of_nodup (t.nodup_absent_append_incomplete E)
      ((nodup_frameNumbers E).filter _)]
    intro n
    rw [List.mem_append, mem_absent_or_incomplete_iff E hpos, List.mem_filter]
    simp
  rw [hsame, ← hperm.length_eq, LossReport.lostCount, List.length_append]

theorem incomplete_detectLost :
    (frameNumbers E.toNat).filter (t.detectLost E).2.isPartial = (t.detectLost E).1.incomplete := by
  obtain ⟨-, hinc, -, hget⟩ := t.detectLost_eq E
  rw [hinc]
  refine List.filter_congr fun n hn => ?_
  cases hs : t.get? n with
  | none => simp [isPartial, hget, hn, hs, FrameState.lost]
  | some s => simp [isPartial, hget, hs]

end Tracker

theorem pairwise_lt_mergeSort {l : List UInt32} (h : l.Nodup) :
    (l.mergeSort (· ≤ ·)).Pairwise (· < ·) := by
  have hs := @List.pairwise_mergeSort _ (fun a b : UInt32 => decide (a ≤ b))
    (fun a b c hab hbc => by simp [UInt32.le_iff_toNat_le] at hab hbc ⊢; omega)
    (fun a b => by simp [UInt32.le_iff_toNat_le]; omega) l
  have hn : (l.mergeSort (· ≤ ·)).Nodup := (List.mergeSort_perm l _).nodup_iff.mpr h
  refine (hs.and hn).imp fun ⟨hle, hne⟩ => ?_
  have hne' := UInt32.toNat_inj.not.mpr hne
  simp [UInt32.le_iff_toNat_le, UInt32.lt_iff_toNat_lt] at hle hne' ⊢
  omega

theorem length_le_of_nodup_uint32 {l : List UInt32} (h : l.Nodup) : l.length ≤ 2 ^ 32 := by
  have hcard := h.length_le_card
  rwa [← FinEnum.card_eq_fintypeCard, FinEnum.card_UInt32] at hcard

theorem filter_key_eq_singleton {α β : Type} [DecidableEq β] {g : α → β} {l : List α}
    (hl : (l.map g).Nodup) {x : α} (hx : x ∈ l) : l.filter (fun y => g y = g x) = [x] := by
  induction l with
  | nil => cases hx
  | cons y l ih =>
    rw [List.map_cons, List.nodup_cons] at hl
    rcases List.mem_cons.mp hx with rfl | hx
    · have hrest : l.filter (fun z => g z = g x) = [] := by
        refine List.filter_eq_nil_iff.mpr fun z hz hgz => hl.1 ?_
        rw [← of_decide_eq_true hgz]
        exact List.mem_map_of_mem hz
      simp [hrest]
    · have hne : g y ≠ g x := fun hyx => hl.1 (hyx ▸ List.mem_map_of_mem hx)
      simp [hne, ih hl.2 hx]

/-- The record of a completion event. -/
def ReceiverEvent.completed? : ReceiverEvent → Option FrameRecord
  | .completed r => some r
  | .lost _ => none

namespace Receiver

variable {r : Receiver} {f : Fragment} {a : Float}

/-! ### The completion events of an active receiver -/

theorem get?_isSome_of_completed {t : Tracker} {cl : Classification}
    (h : (t.ingest f a).1.status = .completed cl) :
    ((t.ingest f a).2.get? f.frameSeq).isSome := by
  obtain ⟨-, -, s', hs', -⟩ := (Tracker.ingest_completed_iff _ f a cl).mp h
  simp [hs']

theorem framesCompleted_onFragment (h : r.outcome = none) :
    (r.onFragment f a).stats.framesCompleted = r.stats.framesCompleted +
      (completionEvents r.tracker f a r.config.deadlineMs).length.toUInt64 := by
  have key := fun cl => @get?_isSome_of_completed f a r.tracker cl
  unfold onFragment completionEvents
  rw [if_neg (by simp [isFinalized, h])]
  dsimp only
  generalize r.tracker.ingest f a = ing at key ⊢
  obtain ⟨⟨status, mismatch⟩, t'⟩ := ing
  cases status with
  | completed cl =>
    obtain ⟨s', hs'⟩ := Option.isSome_iff_exists.mp (key cl rfl)
    cases mismatch <;> simp [hs']
  | pending | duplicate | malformed => cases mismatch <;> simp

/-- The event a fragment adds names its frame, which was not complete before. -/
theorem frameNumber_of_mem_completionEvents {t : Tracker} {d : Float} {ev : ReceiverEvent}
    (hev : ev ∈ completionEvents t f a d) :
    ev.record.frameNumber = f.frameSeq ∧
      ∀ s, t.get? f.frameSeq = some s → s.isComplete = false := by
  obtain ⟨cl, s, hcl, -, rfl⟩ := mem_completionEvents.mp hev
  exact ⟨rfl, ((Tracker.ingest_completed_iff _ f a cl).mp hcl).2.1⟩

theorem length_completionEvents_le (t : Tracker) (d : Float) :
    (completionEvents t f a d).length ≤ 1 := by
  unfold completionEvents
  split
  · cases (t.ingest f a).2.get? f.frameSeq <;> simp
  · simp

/-- What an active receiver's events owe to its tracker and counters: they are the completion
events of the complete frames, one per frame, as many as the completions counted. -/
structure CompletionLog (r : Receiver) : Prop where
  agree : r.CompletionsAgree
  nodup : (r.events.map (·.record.frameNumber)).Nodup
  count : r.stats.framesCompleted.toNat = r.events.length

theorem CompletionLog.onFragment (h : r.outcome = none) (hr : r.CompletionLog) :
    (r.onFragment f a).CompletionLog := by
  obtain ⟨st, hst⟩ := onFragment_of_active (f := f) (a := a) h
  have hcount := framesCompleted_onFragment (f := f) (a := a) h
  have hle := length_completionEvents_le (f := f) (a := a) r.tracker r.config.deadlineMs
  have hnodup : ((r.events ++ completionEvents r.tracker f a r.config.deadlineMs).map
      (·.record.frameNumber)).Nodup := by
    rw [List.map_append, List.nodup_append]
    refine ⟨hr.nodup, List.nodup_iff_count_le_one.mpr fun k => ?_, ?_⟩
    · exact (List.count_le_length).trans (by simpa using hle)
    · rintro _ hold _ hnew hk
      obtain ⟨ev, hev, rfl⟩ := List.mem_map.mp hold
      obtain ⟨ev', hev', rfl⟩ := List.mem_map.mp hnew
      obtain ⟨hk', hinc⟩ := frameNumber_of_mem_completionEvents hev'
      cases ev with
      | lost rec => exact hr.agree.lost_not_mem rec hev
      | completed rec =>
        obtain ⟨s, hs, hcs, -⟩ := hr.agree.complete_of_mem rec hev
        rw [show rec.frameNumber = f.frameSeq from hk.trans hk'] at hs
        simp [hinc s hs] at hcs
  -- distinct frame numbers bound the events, so the counter does not wrap
  have hbound := length_le_of_nodup_uint32 hnodup
  rw [List.length_map, List.length_append] at hbound
  refine ⟨hr.agree.onFragment h, by rw [hst]; exact hnodup, ?_⟩
  rw [hcount, hst, UInt64.toNat_add, hr.count]
  simp
  omega

theorem CompletionLog.receiveAll (h : r.outcome = none) (hr : r.CompletionLog)
    (evs : List (Fragment × Float)) : (r.receiveAll evs).CompletionLog := by
  induction evs using List.reverseRecOn with
  | nil => exact hr
  | append_singleton evs e ih =>
    rw [receiveAll_append_singleton]
    exact ih.onFragment (by rw [outcome_receiveAll, h])

theorem completionLog_of_new {c : ReceiverConfig} {agg agg' : Aggregator}
    (h : Receiver.new c agg = .ok (r, agg')) : r.CompletionLog := by
  obtain ⟨-, rfl, -⟩ := new_eq_ok_iff.mp h
  exact ⟨completionsAgree_of_new h, by simp, by simp⟩

/-- A completion event of a run was added by the call that completed its frame. -/
theorem completed_added_by_completing_call (h : r.outcome = none)
    (evs : List (Fragment × Float)) {rec : FrameRecord}
    (hrec : .completed rec ∈ (r.receiveAll evs).events) (hnot : .completed rec ∉ r.events) :
    ∃ i, ∃ hi : i < evs.length, evs[i].1.frameSeq = rec.frameNumber ∧
      (∃ cl, ((r.receiveAll (evs.take i)).tracker.ingest evs[i].1 evs[i].2).1.status =
        .completed cl) ∧
      .completed rec ∉ (r.receiveAll (evs.take i)).events ∧
      .completed rec ∈ (r.receiveAll (evs.take (i + 1))).events := by
  induction evs using List.reverseRecOn with
  | nil => exact absurd hrec hnot
  | append_singleton evs e ih =>
    have hact : (r.receiveAll evs).outcome = none := by rw [outcome_receiveAll, h]
    obtain ⟨st, hst⟩ := onFragment_of_active (f := e.1) (a := e.2) hact
    have hlast := receiveAll_append_singleton r evs e
    rw [hst] at hlast
    rw [hlast] at hrec
    by_cases hold : .completed rec ∈ (r.receiveAll evs).events
    · obtain ⟨i, hi, hseq, hcl, hbefore, hafter⟩ := ih hold
      have htake : (evs ++ [e]).take i = evs.take i := List.take_append_of_le_length (by omega)
      have htake' : (evs ++ [e]).take (i + 1) = evs.take (i + 1) :=
        List.take_append_of_le_length (by omega)
      refine ⟨i, by simp; omega, ?_⟩
      rw [List.getElem_append_left hi, htake, htake']
      exact ⟨hseq, hcl, hbefore, hafter⟩
    · obtain ⟨cl, s, hcl, -, hev⟩ :=
        mem_completionEvents.mp ((List.mem_append.mp hrec).resolve_left hold)
      have htake : (evs ++ [e]).take evs.length = evs := by simp
      have htake' : (evs ++ [e]).take (evs.length + 1) = evs ++ [e] := by simp
      refine ⟨evs.length, by simp, ?_⟩
      rw [List.getElem_append_right (by simp), htake, htake', hlast]
      cases hev
      exact ⟨by simp [FrameRecord.ofState], ⟨cl, by simpa using hcl⟩, hold, hrec⟩

variable {c : ReceiverConfig} {agg agg' : Aggregator}

/-! ### Finalizing -/

section Finalize

variable (h : r.outcome = none) (agg : Aggregator)
include h

theorem stats_finalize_of_active : (r.finalize agg).2.1.stats = r.stats := by
  simp [finalize, h]

/-- The first finalize scores the tracker after loss detection and reports what detection found. -/
theorem outcome_finalize_of_active :
    (r.finalize agg).1.quality = StreamQuality.compute
        (r.tracker.detectLost r.config.expectedFrames).2 r.config.expectedFrames
        r.config.reliabilityThreshold ∧
      (r.finalize agg).1.loss = (r.tracker.detectLost r.config.expectedFrames).1 := by
  simp [finalize, h, quality]

/-- The first finalize adds the loss events after the events already there: one for each absent
or partial frame, in increasing frame number. -/
theorem events_finalize_of_active :
    ∃ ns : List UInt32, (r.finalize agg).2.1.events = r.events ++
        ns.map (fun n => .lost (FrameRecord.lost n r.config.penalty r.config.deadlineMs)) ∧
      ns.Pairwise (· < ·) ∧
      ns.Perm ((r.finalize agg).1.loss.absent ++ (r.finalize agg).1.loss.incomplete) := by
  obtain ⟨-, -, hevs⟩ := finalize_of_active h agg
  refine ⟨_, hevs, pairwise_lt_mergeSort (Tracker.nodup_absent_append_incomplete _ _), ?_⟩
  rw [(outcome_finalize_of_active h agg).2]
  exact List.mergeSort_perm _ _

variable (hlog : r.CompletionLog)
include hlog

theorem completionFrames_finalize :
    ((r.finalize agg).2.1.events.filterMap ReceiverEvent.completed?).map (·.frameNumber) =
      r.events.map (·.record.frameNumber) := by
  obtain ⟨ns, hevs, -⟩ := events_finalize_of_active h agg
  have hcomp : r.events.filterMap ReceiverEvent.completed? = r.events.map ReceiverEvent.record := by
    rw [← List.filterMap_eq_map]
    refine List.filterMap_congr fun ev hev => ?_
    cases ev with
    | completed rec => rfl
    | lost rec => exact absurd hev (hlog.agree.lost_not_mem rec)
  rw [hevs, List.filterMap_append, hcomp]
  simp [ReceiverEvent.completed?, Function.comp_def]

/-- A completion event after finalize was there before it, and carries the delay, timeliness,
score and completion instant of its frame, which finalize left as it was. -/
theorem completed_record_finalize
    (hdone : ∀ n s, r.tracker.get? n = some s → s.isComplete = true → s.completedAt.isSome)
    {rec : FrameRecord} (hrec : .completed rec ∈ (r.finalize agg).2.1.events) :
    .completed rec ∈ r.events ∧ ∃ s, (r.finalize agg).2.1.tracker.get? rec.frameNumber = some s ∧
      s.delayMs = some rec.delayMs ∧ s.onTime = rec.onTime ∧
      s.effectiveError = rec.effectiveError ∧ s.completedAt = some rec.receivedAt := by
  have hold := (completed_mem_finalize_iff h agg rec).mp hrec
  obtain ⟨s, hs, hcs, hrs⟩ := hlog.agree.complete_of_mem rec hold
  obtain ⟨done, hdn⟩ := Option.isSome_iff_exists.mp (hdone _ s hs hcs)
  obtain ⟨d, hd⟩ := Option.isSome_iff_exists.mp (show s.delayMs.isSome from hcs)
  refine ⟨hold, s, ?_, ?_⟩
  · rw [(finalize_of_active h agg).1]
    exact Tracker.get?_detectLost_of_mem _ _ hs
  · rw [hrs]
    simp [FrameRecord.ofState, FrameState.delayOrSentinel, hd, hdn]

variable (hpos : ∀ n s, r.tracker.get? n = some s → 0 < s.received)
include hpos

/-- The summary counts as lost the frames the report lists, and as partial its partial frames;
the events are the completions counted and one per lost frame. -/
theorem counts_finalize_of_active :
    (r.finalize agg).1.quality.lostFrames.toNat = (r.finalize agg).1.loss.lostCount ∧
      (r.finalize agg).1.loss.incomplete.length =
        (r.finalize agg).1.quality.partialFrames.toNat ∧
      (r.finalize agg).2.1.events.length = (r.finalize agg).2.1.stats.framesCompleted.toNat +
        (r.finalize agg).1.quality.lostFrames.toNat := by
  obtain ⟨hq, hloss⟩ := outcome_finalize_of_active h agg
  obtain ⟨ns, hevs, -, hperm⟩ := events_finalize_of_active h agg
  have hlost : (r.finalize agg).1.quality.lostFrames.toNat = (r.finalize agg).1.loss.lostCount := by
    rw [hq, StreamQuality.lostFrames_compute, hloss, Tracker.lostCount_detectLost _ hpos]
  refine ⟨hlost, ?_, ?_⟩
  · rw [hq, StreamQuality.partialFrames_compute, hloss, Tracker.incomplete_detectLost]
  · rw [hevs, stats_finalize_of_active h, hlost, List.length_append, List.length_map,
      hperm.length_eq, hlog.count, List.length_append, LossReport.lostCount]

/-- An expected frame has exactly one event after finalize: its completion if it is complete,
its loss otherwise. -/
theorem filter_frameNumber_finalize {n : UInt32}
    (hn : n ∈ frameNumbers r.config.expectedFrames.toNat) :
    ∃ ev, (r.finalize agg).2.1.events.filter (fun e => e.record.frameNumber = n) = [ev] ∧
      ((r.tracker.get? n).any FrameState.isComplete = true → ∃ s, r.tracker.get? n = some s ∧
        ev = .completed (FrameRecord.ofState n s r.config.deadlineMs)) ∧
      ((r.tracker.get? n).any FrameState.isComplete = false →
        ev = .lost (FrameRecord.lost n r.config.penalty r.config.deadlineMs)) := by
  obtain ⟨ns, hevs, -, hperm⟩ := events_finalize_of_active h agg
  have hloss := (outcome_finalize_of_active h agg).2
  have hnodup : ns.Nodup := hperm.nodup_iff.mpr (hloss ▸ Tracker.nodup_absent_append_incomplete _ _)
  have hmem : n ∈ ns ↔ (r.tracker.get? n).any FrameState.isComplete = false := by
    rw [hperm.mem_iff, List.mem_append, hloss, Tracker.mem_absent_or_incomplete_iff _ hpos]
    simp [hn]
  have hlost : (ns.map fun m => ReceiverEvent.lost
        (FrameRecord.lost m r.config.penalty r.config.deadlineMs)).filter
        (fun e => e.record.frameNumber = n) =
      (ns.filter (· = n)).map fun m => ReceiverEvent.lost
        (FrameRecord.lost m r.config.penalty r.config.deadlineMs) := by
    rw [List.filter_map]
    rfl
  rw [hevs, List.filter_append, hlost, List.filter_eq]
  cases hc : (r.tracker.get? n).any FrameState.isComplete with
  | true =>
    obtain ⟨s, hs, hcs⟩ : ∃ s, r.tracker.get? n = some s ∧ s.isComplete = true := by
      cases hs : r.tracker.get? n with
      | none => simp [hs] at hc
      | some s => exact ⟨s, rfl, by simpa [hs] using hc⟩
    have hone := filter_key_eq_singleton hlog.nodup (hlog.agree.mem_of_complete n s hs hcs)
    have hzero : ns.count n = 0 := List.count_eq_zero.mpr fun hn' => by simp [hmem.mp hn'] at hc
    refine ⟨_, ?_, fun _ => ⟨s, hs, rfl⟩, fun hf => by simp at hf⟩
    rw [hzero, List.replicate_zero, List.map_nil, List.append_nil]
    exact hone
  | false =>
    have hnone : r.events.filter (fun e => e.record.frameNumber = n) = [] := by
      refine List.filter_eq_nil_iff.mpr fun ev hev hk => ?_
      cases ev with
      | lost rec => exact hlog.agree.lost_not_mem rec hev
      | completed rec =>
        obtain ⟨s, hs, hcs, -⟩ := hlog.agree.complete_of_mem rec hev
        rw [show rec.frameNumber = n from of_decide_eq_true hk] at hs
        simp [hs, hcs] at hc
    have hone : ns.count n = 1 := List.count_eq_one_of_mem hnodup (hmem.mpr hc)
    exact ⟨_, by rw [hnone, hone]; rfl, fun ht => by simp at ht, fun _ => rfl⟩

end Finalize

/-- A receiver fed fragments and finalized reports each expected frame exactly once: a completion,
added by the call that completed it, or a loss, the losses after the completions in increasing
frame number and as many as the summary and the loss report count. -/
theorem expected_frames_reported_once (h : Receiver.new c agg = .ok (r, agg'))
    (evs : List (Fragment × Float)) (agg₂ : Aggregator) :
    let active := r.receiveAll evs
    let fin := active.finalize agg₂
    (∀ n : UInt32, 1 ≤ n.toNat → n.toNat ≤ c.expectedFrames.toNat →
      ∃ ev, fin.2.1.events.filter (fun e => e.record.frameNumber = n) = [ev] ∧
        ((active.tracker.get? n).any FrameState.isComplete = true →
          ∃ s, active.tracker.get? n = some s ∧
            ev = .completed (FrameRecord.ofState n s c.deadlineMs)) ∧
        ((active.tracker.get? n).any FrameState.isComplete = false →
          ev = .lost (FrameRecord.lost n c.penalty c.deadlineMs))) ∧
    ((fin.2.1.events.filterMap ReceiverEvent.completed?).map (·.frameNumber)).Nodup ∧
    (∀ rec, .completed rec ∈ fin.2.1.events →
      (∃ s, fin.2.1.tracker.get? rec.frameNumber = some s ∧ s.delayMs = some rec.delayMs ∧
        s.onTime = rec.onTime ∧ s.effectiveError = rec.effectiveError ∧
        s.completedAt = some rec.receivedAt) ∧
      ∃ i, ∃ hi : i < evs.length, evs[i].1.frameSeq = rec.frameNumber ∧
        (∃ cl, ((r.receiveAll (evs.take i)).tracker.ingest evs[i].1 evs[i].2).1.status =
          .completed cl) ∧
        .completed rec ∉ (r.receiveAll (evs.take i)).events ∧
        .completed rec ∈ (r.receiveAll (evs.take (i + 1))).events) ∧
    (∃ ns : List UInt32, (∀ ev ∈ active.events, ∃ rec, ev = .completed rec) ∧
      fin.2.1.events = active.events ++
        ns.map (fun n => .lost (FrameRecord.lost n c.penalty c.deadlineMs)) ∧
      ns.Pairwise (· < ·) ∧ ns.Perm (fin.1.loss.absent ++ fin.1.loss.incomplete) ∧
      fin.1.loss.absent.Disjoint fin.1.loss.incomplete ∧
      ns.length = fin.1.quality.lostFrames.toNat ∧
      fin.1.quality.lostFrames.toNat = fin.1.loss.lostCount ∧
      fin.1.loss.incomplete.length = fin.1.quality.partialFrames.toNat ∧
      fin.2.1.events.length = fin.2.1.stats.framesCompleted.toNat +
        fin.1.quality.lostFrames.toNat) := by
  dsimp only
  obtain ⟨hcfg₀, -, hout₀, hev₀⟩ := new_eq_ok h
  have hact : (r.receiveAll evs).outcome = none := by rw [outcome_receiveAll, hout₀]
  have hcfg : (r.receiveAll evs).config = c := by rw [config_receiveAll, hcfg₀]
  have hlog : (r.receiveAll evs).CompletionLog := (completionLog_of_new h).receiveAll hout₀ evs
  have hpos : ∀ n s, (r.receiveAll evs).tracker.get? n = some s → 0 < s.received := by
    intro n s hs
    obtain ⟨f, a, hcons⟩ := consistent_receiveAll_new h evs hs
    exact hcons.received_pos
  have hdone : ∀ n s, (r.receiveAll evs).tracker.get? n = some s → s.isComplete = true →
      s.completedAt.isSome := by
    intro n s hs hcs
    obtain ⟨f, a, hcons⟩ := consistent_receiveAll_new h evs hs
    cases hc : s.completedAt with
    | none => simp [FrameState.isComplete, (hcons.penalized hc).1] at hcs
    | some done => rfl
  obtain ⟨ns, hevs, hsorted, hperm⟩ := events_finalize_of_active hact agg₂
  obtain ⟨hlost, hpartial, hcount⟩ := counts_finalize_of_active hact agg₂ hlog hpos
  refine ⟨fun n h1 h2 => ?_, ?_, fun rec hrec => ?_, ns, ?_⟩
  · have hn : n ∈ frameNumbers (r.receiveAll evs).config.expectedFrames.toNat := by
      rw [hcfg]
      exact (mem_frameNumbers _ _).mpr ⟨h1, h2⟩
    have hone := filter_frameNumber_finalize hact agg₂ hlog hpos hn
    rwa [hcfg] at hone
  · rw [completionFrames_finalize hact agg₂ hlog]
    exact hlog.nodup
  · obtain ⟨hold, hfields⟩ := completed_record_finalize hact agg₂ hlog hdone hrec
    exact ⟨hfields, completed_added_by_completing_call hout₀ evs hold (by simp [hev₀])⟩
  · refine ⟨fun ev hev => ?_, by rwa [hcfg] at hevs, hsorted, hperm,
      (outcome_finalize_of_active hact agg₂).2 ▸ Tracker.disjoint_absent_incomplete _ _,
      by rw [hperm.length_eq, List.length_append, ← LossReport.lostCount, hlost], hlost,
      hpartial, hcount⟩
    cases ev with
    | completed rec => exact ⟨rec, rfl⟩
    | lost rec => exact absurd hev (hlog.agree.lost_not_mem rec)

/-- A receiver of two expected frames under the default deadline and penalty, as set up. -/
def twoFrameReceiver : Receiver :=
  { config := { expectedFrames := 2 }, tracker := Tracker.new ⟨40.0, 1000.0⟩, streamId := 0 }

/-- Frame 1, whole in one fragment. -/
def wholeFrameOne : Fragment :=
  { frameSeq := 1, index := 0, count := 1, payload := 100, sentAt := 0.0, components := 10,
    error := 2.0, frameSize := 100 }

theorem two_frames_one_taken_events :
    Receiver.new { expectedFrames := 2 } {} = .ok (twoFrameReceiver, { streamCount := 1 }) ∧
      let fin := (twoFrameReceiver.receiveAll [(wholeFrameOne, 0.01)]).finalize {}
      fin.2.1.events.length =
        fin.2.1.stats.framesCompleted.toNat + fin.1.quality.lostFrames.toNat := by
  have hnew : Receiver.new { expectedFrames := 2 } {} =
      .ok (twoFrameReceiver, { streamCount := 1 }) := rfl
  obtain ⟨-, -, -, ns, -, -, -, -, -, -, -, -, hcount⟩ :=
    expected_frames_reported_once hnew [(wholeFrameOne, 0.01)] {}
  exact ⟨hnew, hcount⟩

end Receiver

end XrDelivery
