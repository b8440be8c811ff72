import Mathlib
import XrDelivery.Reception.Loss

/-!
# Loss detection fills the gaps

`Tracker.checkLost` looks at one frame number: it records the number absent when the tracker
does not know it, and partial when its state holds some fragments but is not complete.
Recording an absent frame adds that frame's entry and nothing else, so over distinct frame
numbers every verdict depends only on the tracker as it was before the scan. The absent frames
are the numbers the tracker did not know, the partial ones those it held incomplete, and the
tracker afterwards knows every number looked at, with the states it already held unchanged.
-/
namespace XrDelivery

namespace Tracker

/-- The frame holds some of its fragments but is not complete. -/
def isPartial (t : Tracker) (seq : UInt32) : Bool :=
  (t.get? seq).any fun s => s.received > 0 && !s.isComplete

@[simp] theorem isPartial_of_get?_eq_none {t : Tracker} {seq : UInt32} (h : t.get? seq = none) :
    t.isPartial seq = false := by
  simp [isPartial, h]

theorem checkLost_eq (r : LossReport) (t : Tracker) (k : UInt32) :
    checkLost (r, t) k =
      ({ absent := if (t.get? k).isNone then k :: r.absent else r.absent,
         incomplete := if t.isPartial k then k :: r.incomplete else r.incomplete },
       (t.insertAbsent k).2) := by
  cases hk : t.get? k with
  | none => simp [checkLost, insertAbsent_eq, hk]
  | some s =>
    cases r
    simp only [checkLost, insertAbsent_eq, hk, Option.isSome_some, if_true, Option.isNone_some,
      isPartial, Option.any_some]
    by_cases hp : s.received > 0 && !s.isComplete <;> simp [hp]

/-- The scan over distinct frame numbers: the absent and partial ones pushed in reverse order, and a
lost state for each unknown number. -/
theorem foldl_checkLost (ks : List UInt32) (hks : ks.Nodup) (r : LossReport) (t : Tracker) :
    (ks.foldl checkLost (r, t)).1.absent =
        (ks.filter fun k => (t.get? k).isNone).reverse ++ r.absent ∧
      (ks.foldl checkLost (r, t)).1.incomplete = (ks.filter t.isPartial).reverse ++ r.incomplete ∧
      (ks.foldl checkLost (r, t)).2.deadline = t.deadline ∧
      ∀ j, (ks.foldl checkLost (r, t)).2.get? j =
        if j ∈ ks ∧ t.get? j = none then some (FrameState.lost t.deadline.penalty)
        else t.get? j := by
  induction ks generalizing r t with
  | nil => simp
  | cons k ks ih =>
    obtain ⟨hk, hks⟩ := List.nodup_cons.mp hks
    rw [List.foldl_cons, checkLost_eq]
    set t₁ := (t.insertAbsent k).2 with ht₁
    have hsame : ∀ j ∈ ks, t₁.get? j = t.get? j := by
      intro j hj
      have hjk : j ≠ k := fun h => hk (h ▸ hj)
      simp [ht₁, get?_insertAbsent, hjk]
    have hfilter : ks.filter (fun j => (t₁.get? j).isNone) = ks.filter (fun j => (t.get? j).isNone) :=
      List.filter_congr fun j hj => by rw [hsame j hj]
    have hpartial : ks.filter t₁.isPartial = ks.filter t.isPartial :=
      List.filter_congr fun j hj => by simp only [isPartial, hsame j hj]
    obtain ⟨habs, hinc, hdl, hget⟩ := ih hks _ t₁
    refine ⟨?_, ?_, ?_, ?_⟩
    · rw [habs, hfilter, List.filter_cons]
      by_cases hn : (t.get? k).isNone <;> simp [hn]
    · rw [hinc, hpartial, List.filter_cons]
      by_cases hp : t.isPartial k <;> simp [hp]
    · rw [hdl, ht₁, deadline_insertAbsent]
    · intro j
      rw [hget j, ht₁, deadline_insertAbsent, get?_insertAbsent]
      by_cases hjk : j = k
      · subst hjk
        simp [hk]
      · by_cases hj : j ∈ ks
        · simp [hjk, hj]
        · simp [hjk, hj]

/-- A scan over frame numbers the tracker already knows records nothing absent and leaves the
tracker as it is; it only notes the partial ones again. -/
theorem foldl_checkLost_of_known (ks : List UInt32) (r : LossReport) (t : Tracker)
    (hknown : ∀ k ∈ ks, (t.get? k).isSome) :
    ks.foldl checkLost (r, t) =
      ({ r with incomplete := (ks.filter t.isPartial).reverse ++ r.incomplete }, t) := by
  induction ks generalizing r with
  | nil => simp
  | cons k ks ih =>
    have hk : (t.get? k).isSome := hknown k List.mem_cons_self
    have hsame : (t.insertAbsent k).2 = t := by simp [insertAbsent_eq, hk]
    rw [List.foldl_cons, checkLost_eq, hsame, ih _ fun j hj => hknown j (List.mem_cons_of_mem _ hj)]
    have hnone : (t.get? k).isNone = false := by simpa using hk
    by_cases hp : t.isPartial k <;> simp [hnone, hp]

end Tracker

theorem mem_frameNumbers (E k : UInt32) :
    k ∈ frameNumbers E.toNat ↔ 1 ≤ k.toNat ∧ k.toNat ≤ E.toNat := by
  have hE : E.toNat < 2 ^ 32 := E.toNat_lt
  have hk : k.toNat < 2 ^ 32 := k.toNat_lt
  simp only [frameNumbers, List.mem_map, List.mem_range]
  constructor
  · rintro ⟨i, hi, rfl⟩
    have : ((i + 1).toUInt32).toNat = i + 1 := by simp; omega
    omega
  · rintro ⟨h1, h2⟩
    refine ⟨k.toNat - 1, by omega, ?_⟩
    apply UInt32.toNat_inj.mp
    simp
    omega

theorem nodup_frameNumbers (E : UInt32) : (frameNumbers E.toNat).Nodup := by
  have hE : E.toNat < 2 ^ 32 := E.toNat_lt
  apply List.Nodup.map_on _ List.nodup_range
  intro i hi j hj hij
  simp only [List.mem_range] at hi hj
  have := congrArg UInt32.toNat hij
  simp only [Nat.toUInt32_eq, UInt32.toNat_ofNat'] at this
  omega

/-- Loss detection over `1, …, E`: the unknown numbers are absent and the incomplete ones partial,
both in increasing order; afterwards unknown numbers are lost and every other state is kept. -/
theorem Tracker.detectLost_eq (t : Tracker) (E : UInt32) :
    (t.detectLost E).1.absent = (frameNumbers E.toNat).filter (fun k => (t.get? k).isNone) ∧
      (t.detectLost E).1.incomplete = (frameNumbers E.toNat).filter t.isPartial ∧
      (t.detectLost E).2.deadline = t.deadline ∧
      ∀ j, (t.detectLost E).2.get? j =
        if j ∈ frameNumbers E.toNat ∧ t.get? j = none then
          some (FrameState.lost t.deadline.penalty)
        else t.get? j := by
  obtain ⟨habs, hinc, hdl, hget⟩ :=
    Tracker.foldl_checkLost (frameNumbers E.toNat) (nodup_frameNumbers E) {} t
  refine ⟨?_, ?_, hdl, hget⟩
  · simp [Tracker.detectLost, habs]
  · simp [Tracker.detectLost, hinc]

theorem pairwise_lt_frameNumbers (E : UInt32) : (frameNumbers E.toNat).Pairwise (· < ·) := by
  have hE : E.toNat < 2 ^ 32 := E.toNat_lt
  unfold frameNumbers
  rw [List.pairwise_map]
  refine List.pairwise_lt_range.imp_of_mem fun {i j} hi hj hij => ?_
  simp only [List.mem_range] at hi hj
  rw [UInt32.lt_iff_toNat_lt]
  simp only [Nat.toUInt32_eq, UInt32.toNat_ofNat']
  omega

theorem Tracker.detectLost_of_known (t : Tracker) (E : UInt32)
    (hknown : ∀ k ∈ frameNumbers E.toNat, (t.get? k).isSome) :
    t.detectLost E = ({ absent := [], incomplete := (frameNumbers E.toNat).filter t.isPartial }, t) := by
  unfold detectLost
  rw [Tracker.foldl_checkLost_of_known _ _ _ hknown]
  simp

end XrDelivery
