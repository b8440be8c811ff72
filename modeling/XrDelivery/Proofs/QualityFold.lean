import Mathlib
import XrDelivery.Proofs.LossDetection
import XrDelivery.Quality.Stream

/-!
# The quality fold

The quality of a stream is one pass over the frame numbers `1, …, E`. Each frame raises
exactly one of the counts received and lost, a received frame one of on time and late, and a
lost frame that holds fragments the partial count too (`Tally.add_counts`). So every count of
the pass is the number of expected frames of one kind (`Tally.foldl_count`), and the counts
add up: received and lost make up the expected frames, on time and late the received ones.

A frame the tracker does not know scores as lost with the penalty, exactly as the state loss
detection records for it (`Tally.add_lost`). So detection, over any range, changes nothing of
the quality, floating-point sums included (`StreamQuality.compute_detectLost`).
-/

namespace XrDelivery

namespace Tally

variable (p : Float) (acc : Tally) (o : Option FrameState)

/-- What one frame adds to the counts: a complete frame is received, and on time or late; any
other frame is lost, and partial if it holds fragments. -/
theorem add_counts :
    (acc.add p o).received = acc.received + (if o.any FrameState.isComplete then 1 else 0) ∧
    (acc.add p o).onTime =
      acc.onTime + (if o.any (fun s => s.isComplete && s.onTime) then 1 else 0) ∧
    (acc.add p o).late =
      acc.late + (if o.any (fun s => s.isComplete && !s.onTime) then 1 else 0) ∧
    (acc.add p o).lost = acc.lost + (if o.any FrameState.isComplete then 0 else 1) ∧
    (acc.add p o).partials =
      acc.partials + (if o.any (fun s => s.received > 0 && !s.isComplete) then 1 else 0) := by
  cases o with
  | none => simp [Tally.add]
  | some s =>
    cases hd : s.delayMs with
    | some d => cases ho : s.onTime <;> simp [Tally.add, FrameState.isComplete, hd, ho]
    | none =>
      by_cases hr : s.received > 0 <;> simp [Tally.add, FrameState.isComplete, hd, hr]

theorem add_lost : acc.add p (some (FrameState.lost p)) = acc.add p none := by
  simp [Tally.add, FrameState.lost]

variable {p}

/-- A count that one frame raises by one exactly when `P` holds of the tracker's state of it
counts, over a pass, the frames of which `P` holds. -/
theorem foldl_count (t : Tracker) (c : Tally → Nat) (P : Option FrameState → Bool)
    (hc : ∀ acc o, c (acc.add p o) = c acc + if P o then 1 else 0) (ns : List UInt32)
    (acc : Tally) :
    c (ns.foldl (fun acc n => acc.add p (t.get? n)) acc) =
      c acc + (ns.filter fun n => P (t.get? n)).length := by
  induction ns generalizing acc with
  | nil => simp
  | cons n ns ih =>
    rw [List.foldl_cons, ih, hc, List.filter_cons]
    split
    · rw [List.length_cons]
      omega
    · rw [Nat.add_zero]

end Tally

namespace StreamQuality

variable (t : Tracker) (E : UInt32) (θ : Float)

theorem toNat_length_filter (P : UInt32 → Bool) :
    ((frameNumbers E.toNat).filter P).length.toUInt32.toNat =
      ((frameNumbers E.toNat).filter P).length := by
  have hlen : ((frameNumbers E.toNat).filter P).length < 2 ^ 32 :=
    (List.length_filter_le _ _).trans_lt (by simpa [frameNumbers] using E.toNat_lt)
  simp only [Nat.toUInt32_eq, UInt32.toNat_ofNat']
  omega

/-- The counts of the quality: the expected frames complete, complete and on time, complete
and late, not complete, and partial. -/
theorem counts_compute :
    (compute t E θ).receivedFrames.toNat =
      ((frameNumbers E.toNat).filter fun n => (t.get? n).any FrameState.isComplete).length ∧
    (compute t E θ).onTimeFrames.toNat = ((frameNumbers E.toNat).filter
      fun n => (t.get? n).any fun s => s.isComplete && s.onTime).length ∧
    (compute t E θ).lateFrames.toNat = ((frameNumbers E.toNat).filter
      fun n => (t.get? n).any fun s => s.isComplete && !s.onTime).length ∧
    (compute t E θ).lostFrames.toNat =
      ((frameNumbers E.toNat).filter fun n => !(t.get? n).any FrameState.isComplete).length ∧
    (compute t E θ).partialFrames.toNat = ((frameNumbers E.toNat).filter t.isPartial).length := by
  have hstep := Tally.add_counts t.deadline.penalty
  simp only [compute]
  refine ⟨?_, ?_, ?_, ?_, ?_⟩
  · rw [Tally.foldl_count t Tally.received _ fun acc o => (hstep acc o).1, Nat.zero_add]
    exact toNat_length_filter E _
  · rw [Tally.foldl_count t Tally.onTime _ fun acc o => (hstep acc o).2.1, Nat.zero_add]
    exact toNat_length_filter E _
  · rw [Tally.foldl_count t Tally.late _ fun acc o => (hstep acc o).2.2.1, Nat.zero_add]
    exact toNat_length_filter E _
  · rw [Tally.foldl_count t Tally.lost (fun o => !o.any FrameState.isComplete)
      (fun acc o => by rw [(hstep acc o).2.2.2.1]; cases o.any FrameState.isComplete <;> rfl),
      Nat.zero_add]
    exact toNat_length_filter E _
  · rw [Tally.foldl_count t Tally.partials _ fun acc o => (hstep acc o).2.2.2.2, Nat.zero_add]
    exact toNat_length_filter E t.isPartial

theorem compute_detectLost (E' : UInt32) : compute (t.detectLost E').2 E θ = compute t E θ := by
  obtain ⟨-, -, hdl, hget⟩ := t.detectLost_eq E'
  -- each frame adds the same to the tally before and after detection
  have hadd : (fun acc n => acc.add t.deadline.penalty ((t.detectLost E').2.get? n)) =
      (fun (acc : Tally) n => acc.add t.deadline.penalty (t.get? n)) := by
    funext acc n
    rw [hget n]
    split
    · rename_i hn
      rw [Tally.add_lost, hn.2]
    · rfl
  unfold compute
  rw [hdl, hadd]

end StreamQuality

theorem card_filter_frameNumbers (E : UInt32) (P : UInt32 → Bool) :
    (Finset.univ.filter fun n : UInt32 => 1 ≤ n.toNat ∧ n.toNat ≤ E.toNat ∧ P n = true).card =
      ((frameNumbers E.toNat).filter P).length := by
  have hset : (Finset.univ.filter fun n : UInt32 => 1 ≤ n.toNat ∧ n.toNat ≤ E.toNat ∧
      P n = true) = ((frameNumbers E.toNat).filter P).toFinset := by
    ext n
    simp only [Finset.mem_filter, Finset.mem_univ, true_and, List.mem_toFinset, List.mem_filter,
      mem_frameNumbers, and_assoc]
  rw [hset, List.toFinset_card_of_nodup ((nodup_frameNumbers E).filter P)]

/-- The quality of frames `1, …, E` as any tracker holds them: each is received or lost, partial
frames are lost, on-time frames are the complete on-time ones, satisfaction compares their share
with the threshold, and loss detection run before changes none of it. -/
theorem quality_fold_consistent (t : Tracker) (E : UInt32) (θ : Float) :
    let q := StreamQuality.compute t E θ
    q.receivedFrames.toNat + q.lostFrames.toNat = E.toNat ∧
    q.onTimeFrames.toNat + q.lateFrames.toNat = q.receivedFrames.toNat ∧
    q.partialFrames.toNat ≤ q.lostFrames.toNat ∧
    q.onTimeFrames.toNat = (Finset.univ.filter fun n : UInt32 => 1 ≤ n.toNat ∧
      n.toNat ≤ E.toNat ∧ (t.get? n).any (fun s => s.isComplete && s.onTime) = true).card ∧
    (q.userSatisfied = true ↔ q.onTimeRatio ≥ θ) ∧
    (E = 0 → q.onTimeRatio = 0.0) ∧
    ∀ E', StreamQuality.compute (t.detectLost E').2 E θ = q := by
  intro q
  obtain ⟨hrecv, hon, hlate, hlost, hpart⟩ := StreamQuality.counts_compute t E θ
  have hlen : (frameNumbers E.toNat).length = E.toNat := by simp [frameNumbers]
  refine ⟨?_, ?_, ?_, ?_, by simp [q, StreamQuality.compute], fun h0 => by
    simp [q, StreamQuality.compute, h0], StreamQuality.compute_detectLost t E θ⟩
  · have hsplit := List.length_eq_length_filter_add (l := frameNumbers E.toNat)
      fun n => (t.get? n).any FrameState.isComplete
    rw [hrecv, hlost]
    omega
  · have hsplit := List.length_eq_length_filter_add
      (l := (frameNumbers E.toNat).filter fun n => (t.get? n).any FrameState.isComplete)
      fun n => (t.get? n).any (·.onTime)
    rw [List.filter_filter, List.filter_filter] at hsplit
    have hon' : (frameNumbers E.toNat).filter (fun n => (t.get? n).any (·.onTime) &&
        (t.get? n).any FrameState.isComplete) =
        (frameNumbers E.toNat).filter fun n => (t.get? n).any fun s => s.isComplete && s.onTime :=
      List.filter_congr fun n _ => by cases t.get? n <;> simp [Bool.and_comm]
    have hlate' : (frameNumbers E.toNat).filter (fun n => !(t.get? n).any (·.onTime) &&
        (t.get? n).any FrameState.isComplete) =
        (frameNumbers E.toNat).filter fun n => (t.get? n).any fun s => s.isComplete && !s.onTime :=
      List.filter_congr fun n _ => by cases t.get? n <;> simp [Bool.and_comm]
    rw [hon, hlate, hrecv, hsplit, hon', hlate']
  · rw [hpart, hlost]
    refine (List.monotone_filter_right _ fun n hn => ?_).length_le
    simp only [Tracker.isPartial] at hn
    cases hs : t.get? n <;> simp_all
  · rw [hon, card_filter_frameNumbers]

end XrDelivery
