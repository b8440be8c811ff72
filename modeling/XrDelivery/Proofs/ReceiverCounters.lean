import Mathlib
import XrDelivery.Proofs.ReceiverRun

/-!
# A receiver's counters

Every fragment an active receiver takes in has exactly one outcome at its tracker: malformed
when its count is zero, a duplicate when its frame is full or complete, and otherwise accepted,
pending or completing its frame. The receiver raises one counter per outcome, adds an accepted
fragment's payload to the bytes, notes the instant of the first accepted fragment, and counts a
count that disagrees with the frame's separately (`Receiver.stats_onFragment`).

The tracker moves in step (`Tracker.receivedTotal_ingest`, `Tracker.completeFrames_ingest`): an
accepted fragment adds one to the fragments held by its frame, a rejected one leaves the tracker
as it is, and a completion makes exactly its frame complete. So over any run from the receiver's
setup the counters agree with the tracker: the fragments received are those its frames hold, and
the frames completed those complete. A count disagrees exactly when a frame already holds a
first fragment with another count, which is the first fragment of positive count of the frame
in the run.
-/

namespace XrDelivery

/-! ### The outcomes of a fragment -/

namespace IngestStatus

/-- The frame counted the fragment: it left the frame pending or completed it. -/
def accepted : IngestStatus → Bool
  | .pending | .completed _ => true
  | .duplicate | .malformed => false

/-- The fragment's frame was full or complete already. -/
def isDuplicate : IngestStatus → Bool
  | .duplicate => true
  | _ => false

/-- The fragment had a count of zero. -/
def isMalformed : IngestStatus → Bool
  | .malformed => true
  | _ => false

/-- The fragment completed its frame. -/
def isCompleted : IngestStatus → Bool
  | .completed _ => true
  | _ => false

theorem outcome_partition (st : IngestStatus) :
    (if st.isMalformed then 1 else 0) + (if st.isDuplicate then 1 else 0) +
      (if st.accepted then 1 else 0) = (1 : UInt64) := by
  cases st <;> rfl

end IngestStatus

/-- A fragment of the run `evs` whose count is positive and differs from the count of the first
fragment of positive count of its frame in the run. -/
def countDisagrees (evs : List (Fragment × Float)) (e : Fragment × Float) : Bool :=
  e.1.count != 0 && (arrivalsOf e.1.frameSeq evs).head?.map (·.1.count) != some e.1.count

theorem FrameState.count_ofArrivals (d : Deadline) (as : List (Fragment × Float)) :
    (FrameState.ofArrivals d as).map (·.count) = as.head?.map (·.1.count) := by
  match as with
  | [] => rfl
  | (f, a) :: rest =>
    simp only [FrameState.ofArrivals]
    split <;> simp [FrameState.complete, FrameState.first]

theorem countDisagrees_append_singleton {evs : List (Fragment × Float)} {e' : Fragment × Float}
    (he' : e' ∈ evs) (e : Fragment × Float) :
    countDisagrees (evs ++ [e]) e' = countDisagrees evs e' := by
  unfold countDisagrees
  by_cases hc : e'.1.count = 0
  · simp [hc]
  · have hmem : e' ∈ arrivalsOf e'.1.frameSeq evs := by simp [arrivalsOf, he', hc]
    have hne : arrivalsOf e'.1.frameSeq evs ≠ [] := List.ne_nil_of_mem hmem
    rw [arrivalsOf_append_singleton]
    split
    · rw [List.head?_append_of_ne_nil _ hne]
    · rfl

namespace Tracker

/-- What each fragment did, in order, as the tracker took them in one after the other. -/
def ingests : Tracker → List (Fragment × Float) → List Ingest
  | _, [] => []
  | t, e :: evs => (t.ingest e.1 e.2).1 :: (t.ingest e.1 e.2).2.ingests evs

theorem ingests_append_singleton (t : Tracker) (evs : List (Fragment × Float))
    (e : Fragment × Float) :
    t.ingests (evs ++ [e]) = t.ingests evs ++ [((t.ingestAll evs).ingest e.1 e.2).1] := by
  induction evs generalizing t with
  | nil => rfl
  | cons e' evs ih => simp [ingests, ingestAll, ih]

@[simp] theorem length_ingests (t : Tracker) (evs : List (Fragment × Float)) :
    (t.ingests evs).length = evs.length := by
  induction evs generalizing t with
  | nil => rfl
  | cons e evs ih => simp [ingests, ih]

/-- The fragments the tracker's frames hold, summed over all frame numbers. -/
def receivedTotal (t : Tracker) : Nat :=
  ∑ k : UInt32, ((t.get? k).map fun s => s.received.toNat).getD 0

/-- The frame numbers whose frame is complete. -/
def completeFrames (t : Tracker) : Finset UInt32 :=
  Finset.univ.filter fun k => (t.get? k).any FrameState.isComplete

@[simp] theorem mem_completeFrames (t : Tracker) (k : UInt32) :
    k ∈ t.completeFrames ↔ (t.get? k).any FrameState.isComplete = true := by
  simp [completeFrames]

variable (t : Tracker) (f : Fragment) (a : Float)

theorem ingest_of_count_eq_zero (h : f.count = 0) : t.ingest f a = (⟨.malformed, false⟩, t) := by
  simp [ingest, h]

theorem isMalformed_ingest : (t.ingest f a).1.status.isMalformed = decide (f.count = 0) := by
  by_cases hc : f.count = 0
  · simp [ingest_of_count_eq_zero t f a hc, IngestStatus.isMalformed, hc]
  · rw [ingest_status t f a hc]
    simp only [hc, decide_false]
    cases t.get? f.frameSeq with
    | none => simp only [FrameState.absorbStatus]; split <;> rfl
    | some s => simp only [FrameState.absorbStatus]; split <;> (try split) <;> rfl

theorem countMismatch_ingest :
    (t.ingest f a).1.countMismatch =
      (f.count != 0 && (t.get? f.frameSeq).any fun s => f.count != s.count) := by
  unfold ingest
  by_cases hc : f.count = 0
  · simp [hc]
  · simp only [hc, if_false, get?]
    cases t.frames.get? f.frameSeq with
    | none => simp [settle_eq]
    | some s =>
      by_cases hdup : s.isComplete || s.received ≥ s.count
      · simp [hdup, hc]
      · simp [settle_eq, hdup, hc]

theorem accepted_settle (seq : UInt32) (s : FrameState) (m : Bool) :
    (t.settle seq s a m).1.status.accepted = true := by
  rw [settle_eq]
  split <;> rfl

/-- After a run from empty, a fragment's count disagrees exactly when it differs from that of the
first fragment of positive count of its frame. -/
theorem countMismatch_ingestAll_new (d : Deadline) (evs : List (Fragment × Float))
    (e : Fragment × Float) :
    (((Tracker.new d).ingestAll evs).ingest e.1 e.2).1.countMismatch =
      countDisagrees (evs ++ [e]) e := by
  have hcount := FrameState.count_ofArrivals d (arrivalsOf e.1.frameSeq evs)
  rw [← get?_ingestAll_new] at hcount
  rw [countMismatch_ingest]
  unfold countDisagrees
  rw [arrivalsOf_append_singleton]
  by_cases hc : e.1.count = 0
  · simp [hc]
  · rw [if_pos ⟨rfl, hc⟩]
    cases has : arrivalsOf e.1.frameSeq evs with
    | nil =>
      rw [has] at hcount
      cases hg : ((Tracker.new d).ingestAll evs).get? e.1.frameSeq with
      | none => simp
      | some s => simp [hg] at hcount
    | cons first rest =>
      rw [has] at hcount
      cases hg : ((Tracker.new d).ingestAll evs).get? e.1.frameSeq with
      | none => simp [hg] at hcount
      | some s =>
        simp only [hg, Option.map_some, List.head?_cons, Option.some.injEq] at hcount
        rw [Bool.eq_iff_iff]
        simp only [Option.any_some, List.cons_append, List.head?_cons, Option.map_some,
          Option.some.injEq, hcount, Bool.and_eq_true, bne_iff_ne, ne_eq]
        exact and_congr_right fun _ => not_congr eq_comm

theorem ingest_of_not_accepted (h : (t.ingest f a).1.status.accepted = false) :
    (t.ingest f a).2 = t := by
  unfold ingest at h ⊢
  by_cases hc : f.count = 0
  · simp [hc]
  · simp only [hc, if_false] at h ⊢
    cases hs : t.frames.get? f.frameSeq with
    | none =>
      simp only [hs, accepted_settle] at h
      cases h
    | some s =>
      simp only [hs] at h ⊢
      by_cases hdup : (s.isComplete || s.received ≥ s.count) = true
      · simp only [hdup, if_true]
      · simp only [hdup, Bool.false_eq_true, if_false, accepted_settle] at h
        cases h

theorem received_ingest_of_accepted (h : (t.ingest f a).1.status.accepted = true) (k : UInt32) :
    (((t.ingest f a).2.get? k).map fun s => s.received.toNat).getD 0 =
      ((t.get? k).map fun s => s.received.toNat).getD 0 + if k = f.frameSeq then 1 else 0 := by
  have hc : f.count ≠ 0 := fun hc => by simp [ingest_of_count_eq_zero t f a hc,
    IngestStatus.accepted] at h
  rw [get?_ingest]
  by_cases hk : f.frameSeq = k
  · subst hk
    rw [if_pos ⟨rfl, hc⟩, if_pos rfl]
    rw [ingest_status t f a hc] at h
    cases hs : t.get? f.frameSeq with
    | none =>
      by_cases h1 : (1 : UInt16) = f.count
      · have hone : f.count.toNat = 1 := by rw [← h1]; rfl
        simp [FrameState.absorb, FrameState.settle, FrameState.first, FrameState.complete, h1, hone]
      · simp [FrameState.absorb, FrameState.settle, FrameState.first, h1]
    | some s =>
      rw [hs] at h
      have hdup : (s.isComplete || s.received ≥ s.count) = false := by
        cases hd : (s.isComplete || s.received ≥ s.count)
        · rfl
        · simp [FrameState.absorbStatus, hd, IngestStatus.accepted] at h
      -- the frame was short of its count, so one more fragment does not wrap
      have hlt : s.received.toNat < s.count.toNat := by
        simp only [Bool.or_eq_false_iff, decide_eq_false_iff_not, UInt16.le_iff_toNat_le] at hdup
        omega
      have hsucc : (s.received + 1).toNat = s.received.toNat + 1 := by
        rw [UInt16.toNat_add, UInt16.toNat_one]
        have := s.count.toNat_lt
        omega
      simp only [FrameState.absorb, hdup, Bool.false_eq_true, if_false, FrameState.settle]
      split <;> simp [FrameState.complete, hsucc]
  · rw [if_neg fun h' => hk h'.1, if_neg (Ne.symm hk)]
    rfl

/-- A completion makes exactly the fragment's frame complete; any other fragment changes no
frame's completeness. -/
theorem any_isComplete_ingest (k : UInt32) :
    ((t.ingest f a).2.get? k).any FrameState.isComplete =
      ((t.get? k).any FrameState.isComplete ||
        ((t.ingest f a).1.status.isCompleted && k == f.frameSeq)) := by
  cases hst : (t.ingest f a).1.status with
  | completed cl =>
    obtain ⟨-, -, s', hs', hcs', -⟩ := (ingest_completed_iff t f a cl).mp hst
    by_cases hk : k = f.frameSeq
    · subst hk
      simp [hs', hcs', IngestStatus.isCompleted]
    · rw [get?_ingest, if_neg fun h => hk h.1.symm]
      simp [hk, IngestStatus.isCompleted]
  | pending | duplicate | malformed =>
    simp only [IngestStatus.isCompleted, Bool.false_and, Bool.or_false]
    apply Bool.eq_iff_iff.mpr
    constructor
    · intro hafter
      obtain ⟨s, hs, hcs⟩ := Option.any_eq_true _ _ |>.mp hafter
      rcases isComplete_ingest t f a hs hcs with hold | ⟨-, cl, hcl⟩
      · rw [hold]
        exact hcs
      · rw [hst] at hcl
        cases hcl
    · intro hbefore
      obtain ⟨s, hs, hcs⟩ := Option.any_eq_true _ _ |>.mp hbefore
      rw [get?_ingest_of_isComplete t f a hs hcs]
      exact hcs

theorem completeFrames_ingest :
    (t.ingest f a).2.completeFrames =
      if (t.ingest f a).1.status.isCompleted then insert f.frameSeq t.completeFrames
      else t.completeFrames := by
  apply Finset.ext
  intro k
  rw [mem_completeFrames, any_isComplete_ingest]
  split
  · rename_i hc
    rw [Finset.mem_insert, mem_completeFrames, hc, Bool.true_and, Bool.or_eq_true, beq_iff_eq,
      or_comm]
  · rename_i hc
    rw [mem_completeFrames, Bool.eq_false_iff.mpr hc, Bool.false_and, Bool.or_false]

theorem card_univ_uint32 : (Finset.univ : Finset UInt32).card = 2 ^ 32 := by
  rw [Finset.card_univ, ← FinEnum.card_eq_fintypeCard, FinEnum.card_UInt32]

theorem receivedTotal_lt : t.receivedTotal < 2 ^ 64 := by
  have hle := Finset.sum_le_card_nsmul (Finset.univ : Finset UInt32)
    (fun k => ((t.get? k).map fun s => s.received.toNat).getD 0) 65535 fun k _ => by
      cases t.get? k with
      | none => simp
      | some s => simpa using Nat.le_of_lt_succ s.received.toNat_lt
  rw [card_univ_uint32, smul_eq_mul] at hle
  unfold receivedTotal
  exact lt_of_le_of_lt hle (by norm_num)

theorem card_completeFrames_lt : t.completeFrames.card < 2 ^ 64 := by
  have hle := Finset.card_le_card (Finset.subset_univ t.completeFrames)
  rw [card_univ_uint32] at hle
  exact lt_of_le_of_lt hle (by norm_num)

theorem receivedTotal_ingest :
    (t.ingest f a).2.receivedTotal =
      t.receivedTotal + if (t.ingest f a).1.status.accepted then 1 else 0 := by
  cases hacc : (t.ingest f a).1.status.accepted with
  | false => rw [ingest_of_not_accepted t f a hacc, if_neg Bool.false_ne_true, Nat.add_zero]
  | true =>
    rw [if_pos rfl]
    unfold receivedTotal
    -- each step is stated with the sums written out, so no check has to evaluate one
    calc ∑ k : UInt32, (((t.ingest f a).2.get? k).map fun s => s.received.toNat).getD 0
        = ∑ k : UInt32, (((t.get? k).map fun s => s.received.toNat).getD 0 +
            if k = f.frameSeq then 1 else 0) :=
          Finset.sum_congr rfl fun k _ => received_ingest_of_accepted t f a hacc k
      _ = ∑ k : UInt32, ((t.get? k).map fun s => s.received.toNat).getD 0 +
            ∑ k : UInt32, (if k = f.frameSeq then 1 else 0) := Finset.sum_add_distrib
      _ = ∑ k : UInt32, ((t.get? k).map fun s => s.received.toNat).getD 0 + 1 := by
          rw [Finset.sum_ite_eq', if_pos (Finset.mem_univ _)]

theorem card_completeFrames_ingest :
    (t.ingest f a).2.completeFrames.card =
      t.completeFrames.card + if (t.ingest f a).1.status.isCompleted then 1 else 0 := by
  rw [completeFrames_ingest]
  split
  · rename_i hc
    have hnot : f.frameSeq ∉ t.completeFrames := by
      cases hst : (t.ingest f a).1.status with
      | completed cl =>
        obtain ⟨-, hbefore, -⟩ := (ingest_completed_iff t f a cl).mp hst
        rw [mem_completeFrames]
        cases hs : t.get? f.frameSeq with
        | none => simp
        | some s => simp [hbefore s hs]
      | pending | duplicate | malformed =>
        rw [hst] at hc
        cases hc
    rw [Finset.card_insert_of_notMem hnot]
  · rw [Nat.add_zero]

@[simp] theorem receivedTotal_new (d : Deadline) : (Tracker.new d).receivedTotal = 0 := by
  unfold receivedTotal
  exact Finset.sum_eq_zero fun k _ => by rw [get?_new, Option.map_none, Option.getD_none]

@[simp] theorem completeFrames_new (d : Deadline) : (Tracker.new d).completeFrames = ∅ :=
  Finset.eq_empty_of_forall_notMem fun k => by simp

/-- The fragments of a run that their frames accepted, in order, each with its arrival. -/
def acceptedOf (t : Tracker) (evs : List (Fragment × Float)) : List (Fragment × Float) :=
  ((evs.zip (t.ingests evs)).filter (·.2.status.accepted)).map (·.1)

@[simp] theorem acceptedOf_nil (t : Tracker) : t.acceptedOf [] = [] := rfl

theorem acceptedOf_append_singleton (t : Tracker) (evs : List (Fragment × Float))
    (e : Fragment × Float) :
    t.acceptedOf (evs ++ [e]) = t.acceptedOf evs ++
      if ((t.ingestAll evs).ingest e.1 e.2).1.status.accepted then [e] else [] := by
  unfold acceptedOf
  rw [ingests_append_singleton, List.zip_append (by simp), List.filter_append, List.map_append]
  split <;> simp [*]

end Tracker

/-! ### The counters of a receiver -/

namespace Receiver

variable {r : Receiver} {f : Fragment} {a : Float}

theorem stats_onFragment (h : r.outcome = none) :
    let ing := (r.tracker.ingest f a).1
    let st := (r.onFragment f a).stats
    st.malformedFragments = r.stats.malformedFragments + (if ing.status.isMalformed then 1 else 0) ∧
    st.duplicateFragments = r.stats.duplicateFragments + (if ing.status.isDuplicate then 1 else 0) ∧
    st.fragmentsReceived = r.stats.fragmentsReceived + (if ing.status.accepted then 1 else 0) ∧
    st.bytesReceived = r.stats.bytesReceived + (if ing.status.accepted then f.payload.toUInt64 else 0) ∧
    st.framesCompleted = r.stats.framesCompleted + (if ing.status.isCompleted then 1 else 0) ∧
    st.inconsistentFragmentCounts =
      r.stats.inconsistentFragmentCounts + (if ing.countMismatch then 1 else 0) ∧
    st.firstArrivalAt = if ing.status.accepted then r.stats.firstArrivalAt.orElse fun _ => some a
      else r.stats.firstArrivalAt := by
  dsimp only
  unfold onFragment
  rw [if_neg (by simp [isFinalized, h])]
  dsimp only
  generalize r.tracker.ingest f a = x
  obtain ⟨⟨status, mismatch⟩, t'⟩ := x
  cases status with
  | completed c =>
    cases hs : t'.get? f.frameSeq <;> cases mismatch <;>
      simp [hs, IngestStatus.accepted, IngestStatus.isMalformed, IngestStatus.isDuplicate,
        IngestStatus.isCompleted]
  | pending | duplicate | malformed =>
    cases mismatch <;>
      simp [IngestStatus.accepted, IngestStatus.isMalformed, IngestStatus.isDuplicate,
        IngestStatus.isCompleted]

/-- The counters of an active receiver whose tracker took in the run `evs` from empty under
`d`, as the run and the tracker determine them. -/
structure CountersAgree (d : Deadline) (evs : List (Fragment × Float)) (r : Receiver) : Prop where
  tracker_eq : r.tracker = (Tracker.new d).ingestAll evs
  partition : r.stats.malformedFragments + r.stats.duplicateFragments +
    r.stats.fragmentsReceived = evs.length.toUInt64
  malformed_eq : r.stats.malformedFragments = (evs.countP fun e => e.1.count = 0).toUInt64
  received_eq : r.stats.fragmentsReceived.toNat = r.tracker.receivedTotal
  bytes_eq : r.stats.bytesReceived =
    (((Tracker.new d).acceptedOf evs).map (·.1.payload.toUInt64)).sum
  completed_eq : r.stats.framesCompleted.toNat = r.tracker.completeFrames.card
  inconsistent_eq : r.stats.inconsistentFragmentCounts = (evs.countP (countDisagrees evs)).toUInt64
  firstArrival_eq : r.stats.firstArrivalAt = ((Tracker.new d).acceptedOf evs).head?.map (·.2)

variable {d : Deadline} {evs : List (Fragment × Float)}

theorem toNat_add_ite {x : UInt64} {n : Nat} (b : Bool) (hx : x.toNat = n)
    (hlt : n + (if b then 1 else 0) < 2 ^ 64) :
    (x + if b then 1 else 0).toNat = n + if b then 1 else 0 := by
  rw [UInt64.toNat_add, hx]
  cases b
  · simp only [Bool.false_eq_true, if_false, UInt64.toNat_zero] at hlt ⊢
    exact Nat.mod_eq_of_lt hlt
  · simp only [if_true, UInt64.toNat_one] at hlt ⊢
    exact Nat.mod_eq_of_lt hlt

theorem CountersAgree.onFragment (h : r.outcome = none) (hr : r.CountersAgree d evs)
    (e : Fragment × Float) : (r.onFragment e.1 e.2).CountersAgree d (evs ++ [e]) := by
  obtain ⟨hmal, hdup, hrec, hbytes, hcomp, hinc, hfirst⟩ := stats_onFragment (f := e.1) (a := e.2) h
  obtain ⟨st, hst⟩ := onFragment_of_active (f := e.1) (a := e.2) h
  have htr : (r.onFragment e.1 e.2).tracker = (r.tracker.ingest e.1 e.2).2 := by rw [hst]
  have hacc := Tracker.acceptedOf_append_singleton (Tracker.new d) evs e
  rw [← hr.tracker_eq] at hacc
  constructor
  · rw [htr, hr.tracker_eq, Tracker.ingestAll_append_singleton]
  · have hone := (r.tracker.ingest e.1 e.2).1.status.outcome_partition
    have hsum := hr.partition
    rw [hmal, hdup, hrec, List.length_append, List.length_singleton, Nat.toUInt64_eq, UInt64.ofNat_add]
    grind
  · rw [hmal, hr.malformed_eq, Tracker.isMalformed_ingest, List.countP_append]
    simp only [List.countP_singleton, Nat.toUInt64_eq, UInt64.ofNat_add, decide_eq_true_eq]
    split <;> rfl
  · have hlt := Tracker.receivedTotal_lt (r.tracker.ingest e.1 e.2).2
    rw [Tracker.receivedTotal_ingest] at hlt
    rw [hrec, htr, Tracker.receivedTotal_ingest]
    exact toNat_add_ite _ hr.received_eq hlt
  · rw [hbytes, hr.bytes_eq, hacc]
    split <;> simp [*]
  · have hlt := Tracker.card_completeFrames_lt (r.tracker.ingest e.1 e.2).2
    rw [Tracker.card_completeFrames_ingest] at hlt
    rw [hcomp, htr, Tracker.card_completeFrames_ingest]
    exact toNat_add_ite _ hr.completed_eq hlt
  · have hold : evs.countP (countDisagrees (evs ++ [e])) = evs.countP (countDisagrees evs) :=
      List.countP_congr fun e' he' => by rw [countDisagrees_append_singleton he' e]
    have hnew := Tracker.countMismatch_ingestAll_new d evs e
    rw [← hr.tracker_eq] at hnew
    rw [hinc, hr.inconsistent_eq, List.countP_append, hold, hnew]
    split <;> simp [*]
  · rw [hfirst, hr.firstArrival_eq, hacc]
    split
    · cases (Tracker.new d).acceptedOf evs <;> simp
    · rw [List.append_nil]

theorem CountersAgree.receiveAll (h : r.outcome = none) (hr : r.CountersAgree d [])
    (evs : List (Fragment × Float)) : (r.receiveAll evs).CountersAgree d evs := by
  induction evs using List.reverseRecOn with
  | nil => exact hr
  | append_singleton evs e ih =>
    rw [receiveAll_append_singleton]
    exact ih.onFragment (by rw [outcome_receiveAll, h]) e

theorem countersAgree_of_new {c : ReceiverConfig} {agg agg' : Aggregator}
    (h : Receiver.new c agg = .ok (r, agg')) : r.CountersAgree ⟨c.deadlineMs, c.penalty⟩ [] := by
  obtain ⟨-, rfl, -⟩ := new_eq_ok_iff.mp h
  constructor <;> simp

/-- A fresh receiver's counters over any fragments: malformed, duplicate and received add up to the
fragments taken in; received fragments and completed frames are the tracker's; received bytes,
disagreeing counts and the first arrival are those of the accepted fragments. -/
theorem receiver_counters_conserved {c : ReceiverConfig} {agg agg' : Aggregator}
    (h : Receiver.new c agg = .ok (r, agg')) (evs : List (Fragment × Float)) :
    let st := (r.receiveAll evs).stats
    let t := (r.receiveAll evs).tracker
    st.malformedFragments + st.duplicateFragments + st.fragmentsReceived = evs.length.toUInt64 ∧
    st.malformedFragments = (evs.countP fun e => e.1.count = 0).toUInt64 ∧
    st.fragmentsReceived.toNat = t.receivedTotal ∧
    st.bytesReceived = ((r.tracker.acceptedOf evs).map (·.1.payload.toUInt64)).sum ∧
    st.framesCompleted.toNat = t.completeFrames.card ∧
    st.inconsistentFragmentCounts = (evs.countP (countDisagrees evs)).toUInt64 ∧
    st.firstArrivalAt = (r.tracker.acceptedOf evs).head?.map (·.2) ∧
    (st.firstArrivalAt = none ↔ r.tracker.acceptedOf evs = []) := by
  intro st t
  obtain ⟨-, htr, hout, -⟩ := new_eq_ok h
  have hr := (countersAgree_of_new h).receiveAll hout evs
  rw [htr]
  refine ⟨hr.partition, hr.malformed_eq, hr.received_eq, hr.bytes_eq, hr.completed_eq,
    hr.inconsistent_eq, hr.firstArrival_eq, ?_⟩
  rw [hr.firstArrival_eq, Option.map_eq_none_iff, List.head?_eq_none_iff]

/-- A receiver of one expected frame under the default deadline and penalty, as set up. -/
def oneFrameReceiver : Receiver :=
  { config := { expectedFrames := 1 }, tracker := Tracker.new ⟨40.0, 1000.0⟩, streamId := 0 }

/-- The first of two fragments of frame 1. -/
def firstOfTwo : Fragment :=
  { frameSeq := 1, index := 0, count := 2, payload := 60, sentAt := 0.0, components := 10,
    error := 2.0, frameSize := 100 }

theorem oneFrameReceiver_counts_disagreeing_second :
    Receiver.new { expectedFrames := 1 } {} = .ok (oneFrameReceiver, { streamCount := 1 }) ∧
      let evs := [(firstOfTwo, 0.01), ({ firstOfTwo with index := 1, count := 3 }, 0.02)]
      let st := (oneFrameReceiver.receiveAll evs).stats
      let t := (oneFrameReceiver.receiveAll evs).tracker
      st.malformedFragments + st.duplicateFragments + st.fragmentsReceived =
          evs.length.toUInt64 ∧
        st.malformedFragments = (evs.countP fun e => e.1.count = 0).toUInt64 ∧
        st.fragmentsReceived.toNat = t.receivedTotal ∧
        st.bytesReceived =
          ((oneFrameReceiver.tracker.acceptedOf evs).map (·.1.payload.toUInt64)).sum ∧
        st.framesCompleted.toNat = t.completeFrames.card ∧
        st.inconsistentFragmentCounts = (evs.countP (countDisagrees evs)).toUInt64 ∧
        st.firstArrivalAt = (oneFrameReceiver.tracker.acceptedOf evs).head?.map (·.2) ∧
        (st.firstArrivalAt = none ↔ oneFrameReceiver.tracker.acceptedOf evs = []) := by
  have hnew : Receiver.new { expectedFrames := 1 } {} =
      .ok (oneFrameReceiver, { streamCount := 1 }) := rfl
  exact ⟨hnew, receiver_counters_conserved hnew _⟩

end Receiver

end XrDelivery
