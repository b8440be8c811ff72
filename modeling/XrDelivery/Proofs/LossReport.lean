import Mathlib
import XrDelivery.Proofs.FrameEvents

/-!
# What loss detection reports on a stream

On a tracker that took in fragments from empty, every frame it knows holds at least the first
fragment of the frame (`Tracker.consistent_ingestAll_new`). Loss detection over `1, …, E` then
splits the expected frames that are not complete exactly: the absent ones are those of which
nothing arrived, the partial ones those that hold fragments without being complete. Both lists
come in increasing frame number, since the scan runs over `1, …, E` in order
(`pairwise_lt_frameNumbers`).

Detection records every absent frame, and only those, so a second detection over the same range
finds every expected frame known: it changes nothing, finds nothing absent, and notes the same
partial frames again (`Tracker.detectLost_of_known`, `Tracker.incomplete_detectLost`).
-/

namespace XrDelivery

namespace Tracker

variable (t : Tracker) (E : UInt32)

theorem mem_absent_detectLost (n : UInt32) :
    n ∈ (t.detectLost E).1.absent ↔ (1 ≤ n.toNat ∧ n.toNat ≤ E.toNat) ∧ t.get? n = none := by
  rw [(t.detectLost_eq E).1, List.mem_filter, mem_frameNumbers]
  simp

theorem mem_incomplete_detectLost (n : UInt32) :
    n ∈ (t.detectLost E).1.incomplete ↔ (1 ≤ n.toNat ∧ n.toNat ≤ E.toNat) ∧
      ∃ s, t.get? n = some s ∧ 0 < s.received ∧ s.isComplete = false := by
  rw [(t.detectLost_eq E).2.1, List.mem_filter, mem_frameNumbers]
  cases hs : t.get? n <;> simp [isPartial, hs]

theorem isSome_detectLost {n : UInt32} (hn : n ∈ frameNumbers E.toNat) :
    ((t.detectLost E).2.get? n).isSome := by
  rw [(t.detectLost_eq E).2.2.2 n]
  split
  · rfl
  · rename_i h
    cases hs : t.get? n with
    | none => exact absurd ⟨hn, hs⟩ h
    | some s => rfl

theorem detectLost_detectLost :
    (t.detectLost E).2.detectLost E =
      ({ absent := [], incomplete := (t.detectLost E).1.incomplete }, (t.detectLost E).2) := by
  rw [detectLost_of_known _ E fun n hn => t.isSome_detectLost E hn, incomplete_detectLost]

end Tracker

/-- Loss detection over `1, …, E` after any fragments: absent frames are those of which nothing
arrived, partial ones those held incomplete, both increasing and disjoint; absent frames become
lost, nothing else changes, and a second detection finds nothing absent. -/
theorem loss_detection_fills_gaps (d : Deadline) (evs : List (Fragment × Float)) (E : UInt32) :
    let t := (Tracker.new d).ingestAll evs
    let r := (t.detectLost E).1
    let t' := (t.detectLost E).2
    (∀ n, n ∈ r.absent ↔ (1 ≤ n.toNat ∧ n.toNat ≤ E.toNat) ∧ t.get? n = none) ∧
    r.absent.Pairwise (· < ·) ∧
    (∀ n, n ∈ r.incomplete ↔ (1 ≤ n.toNat ∧ n.toNat ≤ E.toNat) ∧
      ∃ s, t.get? n = some s ∧ s.isComplete = false) ∧
    r.incomplete.Pairwise (· < ·) ∧
    (∀ n ∈ r.incomplete, ∃ s, t.get? n = some s ∧ 1 ≤ s.received) ∧
    r.absent.Disjoint r.incomplete ∧
    (∀ n, 1 ≤ n.toNat → n.toNat ≤ E.toNat → (t'.get? n).isSome) ∧
    (∀ n, t'.get? n = if (1 ≤ n.toNat ∧ n.toNat ≤ E.toNat) ∧ t.get? n = none then
      some (FrameState.lost d.penalty) else t.get? n) ∧
    t'.detectLost E = ({ absent := [], incomplete := r.incomplete }, t') ∧
    ((t'.detectLost E).1.absent = [] ∧ (t'.detectLost E).1.incomplete = [] ↔
      ∀ n, 1 ≤ n.toNat → n.toNat ≤ E.toNat → ∀ s, t.get? n = some s → s.isComplete = true) := by
  intro t r t'
  have hpos : ∀ n s, t.get? n = some s → 1 ≤ s.received := fun n s hs => by
    obtain ⟨f, a, rest, -, hcons⟩ := Tracker.consistent_ingestAll_new d evs hs
    exact hcons.received_pos
  have hinc : ∀ n, n ∈ r.incomplete ↔ (1 ≤ n.toNat ∧ n.toNat ≤ E.toNat) ∧
      ∃ s, t.get? n = some s ∧ s.isComplete = false := fun n => by
    rw [Tracker.mem_incomplete_detectLost]
    refine and_congr_right fun _ => ⟨fun ⟨s, hs, _, hc⟩ => ⟨s, hs, hc⟩, fun ⟨s, hs, hc⟩ => ?_⟩
    have h1 := hpos n s hs
    have h0 : 0 < s.received := by
      rw [UInt16.le_iff_toNat_le] at h1
      rw [UInt16.lt_iff_toNat_lt]
      simp only [UInt16.toNat_one, UInt16.toNat_zero] at h1 ⊢
      omega
    exact ⟨s, hs, h0, hc⟩
  have hdl : t.deadline = d := by simp [t, Tracker.new]
  have hget : ∀ n, t'.get? n = if (1 ≤ n.toNat ∧ n.toNat ≤ E.toNat) ∧ t.get? n = none then
      some (FrameState.lost d.penalty) else t.get? n := fun n => by
    show (t.detectLost E).2.get? n = _
    simp only [(t.detectLost_eq E).2.2.2 n, mem_frameNumbers, hdl]
  have hagain : t'.detectLost E = ({ absent := [], incomplete := r.incomplete }, t') :=
    t.detectLost_detectLost E
  refine ⟨t.mem_absent_detectLost E, ?_, hinc, ?_, fun n hn => ?_,
    t.disjoint_absent_incomplete E, fun n h1 h2 => t.isSome_detectLost E
      ((mem_frameNumbers E n).mpr ⟨h1, h2⟩), hget, hagain, ?_⟩
  · rw [(t.detectLost_eq E).1]
    exact (pairwise_lt_frameNumbers E).filter _
  · rw [(t.detectLost_eq E).2.1]
    exact (pairwise_lt_frameNumbers E).filter _
  · obtain ⟨-, s, hs, -⟩ := (hinc n).mp hn
    exact ⟨s, hs, hpos n s hs⟩
  · rw [hagain]
    simp only [true_and, List.eq_nil_iff_forall_not_mem, hinc]
    constructor
    · intro h n h1 h2 s hs
      by_contra hc
      exact h n ⟨⟨h1, h2⟩, s, hs, by simpa using hc⟩
    · rintro h n ⟨⟨h1, h2⟩, s, hs, hc⟩
      simp [h n h1 h2 s hs] at hc

end XrDelivery
