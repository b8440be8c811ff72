import Mathlib
import XrDelivery.Reception.Tracker

/-!
# Reassembly, frame by frame

The tracker keeps one state per frame number, and a fragment only ever touches the state of
its own frame. So the state of frame `k` after any sequence of fragments depends on the
fragments of `k` with a positive count alone, in the order they came: its *arrivals*. The
first arrival fixes the metadata and the count `c`; the frame then holds `min n c` of its `n`
arrivals, and it is complete, classified at the instant of the `c`-th arrival, once `c` of
them have come. Mismatched counts, repeated indices and fragments after completion change
nothing of this: completion counts against the first count, not against the indices.

`FrameState.ofArrivals` states that closed form, `FrameState.absorb` what one arrival does to
the state of its frame, and `Tracker.get?_ingestAll_new` the whole run. A call reports
completion exactly when it takes its frame from incomplete to complete, which by the closed
form is the call of the `c`-th arrival.
-/
namespace XrDelivery

/-- Take in fragments in order, each with the instant it arrived. -/
def Tracker.ingestAll (t : Tracker) (evs : List (Fragment × Float)) : Tracker :=
  evs.foldl (fun t e => (t.ingest e.1 e.2).2) t

@[simp] theorem Tracker.ingestAll_nil (t : Tracker) : t.ingestAll [] = t := rfl

theorem Tracker.ingestAll_append_singleton (t : Tracker) (evs : List (Fragment × Float))
    (e : Fragment × Float) : t.ingestAll (evs ++ [e]) = ((t.ingestAll evs).ingest e.1 e.2).2 := by
  simp [Tracker.ingestAll]

/-- The fragments of frame `seq` that count: those with a positive fragment count, in the
order they came. -/
def arrivalsOf (seq : UInt32) (evs : List (Fragment × Float)) : List (Fragment × Float) :=
  evs.filter fun e => e.1.frameSeq == seq && e.1.count != 0

theorem arrivalsOf_append_singleton (seq : UInt32) (evs : List (Fragment × Float))
    (e : Fragment × Float) :
    arrivalsOf seq (evs ++ [e]) =
      if e.1.frameSeq = seq ∧ e.1.count ≠ 0 then arrivalsOf seq evs ++ [e]
      else arrivalsOf seq evs := by
  by_cases h : e.1.frameSeq = seq ∧ e.1.count ≠ 0 <;> simp_all [arrivalsOf]

/-- A frame state after a fragment came at `arrival`: complete once it holds as many
fragments as its first fragment announced. -/
def FrameState.settle (d : Deadline) (s : FrameState) (arrival : Float) : FrameState :=
  if s.received = s.count then s.complete (d.classify s.sentAt arrival s.error) arrival else s

/-- What a fragment with a positive count does to the state of its frame: the first one
creates it, later ones add one until the frame is full or complete. -/
def FrameState.absorb (d : Deadline) (f : Fragment) (arrival : Float) :
    Option FrameState → FrameState
  | none => (FrameState.first f arrival d.penalty).settle d arrival
  | some s =>
    if s.isComplete || s.received ≥ s.count then s
    else { s with received := s.received + 1 }.settle d arrival

theorem Tracker.settle_eq (t : Tracker) (seq : UInt32) (s : FrameState) (arrival : Float)
    (mismatch : Bool) :
    t.settle seq s arrival mismatch =
      (⟨if s.received = s.count then .completed (t.deadline.classify s.sentAt arrival s.error)
          else .pending, mismatch⟩,
        { t with frames := t.frames.insert seq (s.settle t.deadline arrival) }) := by
  unfold Tracker.settle FrameState.settle
  split <;> rfl

@[simp] theorem Tracker.deadline_ingest (t : Tracker) (f : Fragment) (arrival : Float) :
    (t.ingest f arrival).2.deadline = t.deadline := by
  unfold Tracker.ingest
  split
  · rfl
  · split
    · simp [Tracker.settle_eq]
    · split
      · rfl
      · simp [Tracker.settle_eq]

/-- One fragment changes the state of its own frame, by `absorb`, and of no other. -/
theorem Tracker.get?_ingest (t : Tracker) (f : Fragment) (arrival : Float) (k : UInt32) :
    (t.ingest f arrival).2.get? k =
      if f.frameSeq = k ∧ f.count ≠ 0 then some (FrameState.absorb t.deadline f arrival (t.get? k))
      else t.get? k := by
  unfold Tracker.ingest
  by_cases hc : f.count = 0
  · simp [hc]
  · simp only [hc, if_false, Tracker.get?, Std.TreeMap.get?_eq_getElem?]
    by_cases hk : f.frameSeq = k
    · subst hk
      cases hs : t.frames[f.frameSeq]? with
      | none => simp [Tracker.settle_eq, hc, FrameState.absorb]
      | some s =>
        by_cases hdup : s.isComplete || s.received ≥ s.count
        · simp [hc, hs, FrameState.absorb, hdup]
        · simp [Tracker.settle_eq, hc, FrameState.absorb, hdup]
    · simp only [hk, false_and, if_false]
      cases hs : t.frames[f.frameSeq]? with
      | none => simp [Tracker.settle_eq, Std.TreeMap.getElem?_insert, hk]
      | some s =>
        by_cases hdup : s.isComplete || s.received ≥ s.count
        · simp [hdup]
        · simp [Tracker.settle_eq, Std.TreeMap.getElem?_insert, hk, hdup]

/-- The state of a frame after its arrivals, in the order they came: nothing before the first;
then the first arrival's metadata, `min n c` fragments of the first count `c`, and, once there
are `c` arrivals, completion at the instant of the `c`-th. -/
def FrameState.ofArrivals (d : Deadline) : List (Fragment × Float) → Option FrameState
  | [] => none
  | (f, a) :: rest =>
    let s : FrameState :=
      { FrameState.first f a d.penalty with received := (min (rest.length + 1) f.count.toNat).toUInt16 }
    match ((f, a) :: rest)[f.count.toNat - 1]? with
    | some (_, done) => some (s.complete (d.classify f.sentAt done f.error) done)
    | none => some s

@[simp] theorem FrameState.ofArrivals_nil (d : Deadline) : FrameState.ofArrivals d [] = none :=
  rfl

/-- One more arrival does to the closed form what `absorb` does to the state. -/
theorem FrameState.ofArrivals_append_singleton (d : Deadline) (as : List (Fragment × Float))
    (f : Fragment) (a : Float) (hpos : ∀ e ∈ as, e.1.count ≠ 0) (hf : f.count ≠ 0) :
    FrameState.ofArrivals d (as ++ [(f, a)]) =
      some (FrameState.absorb d f a (FrameState.ofArrivals d as)) := by
  match as with
  | [] =>
    have hc : 1 ≤ f.count.toNat := by
      have := UInt16.toNat_inj.not.mpr hf; simp at this; omega
    by_cases h1 : f.count.toNat = 1
    · have hcount : f.count = 1 := UInt16.toNat_inj.mp (by simpa using h1)
      simp [FrameState.ofArrivals, FrameState.absorb, FrameState.settle, FrameState.first,
        hcount]
    · have hne : (1 : UInt16) ≠ f.count := fun h => h1 (by simp [← h])
      have hnone : [(f, a)][f.count.toNat - 1]? = none := List.getElem?_eq_none (by simp; omega)
      simp [FrameState.ofArrivals, FrameState.absorb, FrameState.settle, FrameState.first, hne,
        hnone, show min 1 f.count.toNat = 1 by omega]
  | (f₀, a₀) :: rest =>
    have hc₀ : f₀.count ≠ 0 := hpos (f₀, a₀) (by simp)
    have hcpos : 1 ≤ f₀.count.toNat := by
      have := UInt16.toNat_inj.not.mpr hc₀; simp at this; omega
    have hcmax : f₀.count.toNat < 65536 := f₀.count.toNat_lt
    by_cases hfull : f₀.count.toNat ≤ rest.length + 1
    · obtain ⟨⟨x, done⟩, hget⟩ : ∃ p, ((f₀, a₀) :: rest)[f₀.count.toNat - 1]? = some p :=
        ⟨_, List.getElem?_eq_getElem (by simp; omega)⟩
      have hget' : ((f₀, a₀) :: (rest ++ [(f, a)]))[f₀.count.toNat - 1]? = some (x, done) := by
        rw [← List.cons_append, List.getElem?_append_left (by simp; omega), hget]
      simp [FrameState.ofArrivals, FrameState.absorb, FrameState.isComplete, FrameState.complete,
        hget, hget']
      congr 1
      omega
    · have hnone : ((f₀, a₀) :: rest)[f₀.count.toNat - 1]? = none :=
        List.getElem?_eq_none (by simp; omega)
      have hnotfull : ¬ (f₀.count ≤ (min (rest.length + 1) f₀.count.toNat).toUInt16) := by
        rw [UInt16.le_iff_toNat_le]; simp; omega
      have hsucc : (min (rest.length + 1) f₀.count.toNat).toUInt16 + 1 =
          (min (rest.length + 1 + 1) f₀.count.toNat).toUInt16 := by
        apply UInt16.toNat_inj.mp; simp; omega
      by_cases hlast : rest.length + 1 + 1 = f₀.count.toNat
      · have hget' : ((f₀, a₀) :: (rest ++ [(f, a)]))[f₀.count.toNat - 1]? = some (f, a) := by
          have hidx : f₀.count.toNat - 1 = ((f₀, a₀) :: rest).length := by simp; omega
          rw [← List.cons_append, hidx, List.getElem?_concat_length]
        have hreach : (min (rest.length + 1 + 1) f₀.count.toNat).toUInt16 = f₀.count := by
          apply UInt16.toNat_inj.mp; simp; omega
        simp [FrameState.ofArrivals, FrameState.absorb, FrameState.isComplete, FrameState.settle,
          FrameState.first, hnone, hget', hnotfull, hsucc, hreach]
      · have hnone' : ((f₀, a₀) :: (rest ++ [(f, a)]))[f₀.count.toNat - 1]? = none :=
          List.getElem?_eq_none (by simp; omega)
        have hshort : (min (rest.length + 1 + 1) f₀.count.toNat).toUInt16 ≠ f₀.count := by
          intro h; have := congrArg UInt16.toNat h; simp at this; omega
        simp [FrameState.ofArrivals, FrameState.absorb, FrameState.isComplete, FrameState.settle,
          FrameState.first, hnone, hnone', hnotfull, hsucc, hshort]

@[simp] theorem Tracker.deadline_ingestAll (t : Tracker) (evs : List (Fragment × Float)) :
    (t.ingestAll evs).deadline = t.deadline := by
  induction evs using List.reverseRecOn with
  | nil => rfl
  | append_singleton evs e ih => rw [Tracker.ingestAll_append_singleton, Tracker.deadline_ingest, ih]

theorem arrivalsOf_count_ne_zero {seq : UInt32} {evs : List (Fragment × Float)} :
    ∀ e ∈ arrivalsOf seq evs, e.1.count ≠ 0 := by
  intro e he
  simp only [arrivalsOf, List.mem_filter, Bool.and_eq_true, bne_iff_ne] at he
  exact he.2.2

theorem Tracker.get?_ingestAll_new (d : Deadline) (evs : List (Fragment × Float)) (k : UInt32) :
    ((Tracker.new d).ingestAll evs).get? k = FrameState.ofArrivals d (arrivalsOf k evs) := by
  induction evs using List.reverseRecOn with
  | nil => simp [Tracker.new, Tracker.get?, arrivalsOf, FrameState.ofArrivals]
  | append_singleton evs e ih =>
    rw [Tracker.ingestAll_append_singleton, Tracker.get?_ingest, arrivalsOf_append_singleton,
      Tracker.deadline_ingestAll]
    by_cases he : e.1.frameSeq = k ∧ e.1.count ≠ 0
    · rw [if_pos he, if_pos he, ih, FrameState.ofArrivals_append_singleton d _ e.1 e.2
        arrivalsOf_count_ne_zero he.2]
      rfl
    · rw [if_neg he, if_neg he, ih]

/-- What a fragment with a positive count reports, given the state of its frame before it. -/
def FrameState.absorbStatus (d : Deadline) (f : Fragment) (arrival : Float) :
    Option FrameState → IngestStatus
  | none => if 1 = f.count then .completed (d.classify f.sentAt arrival f.error) else .pending
  | some s =>
    if s.isComplete || s.received ≥ s.count then .duplicate
    else if s.received + 1 = s.count then .completed (d.classify s.sentAt arrival s.error)
    else .pending

theorem Tracker.ingest_status (t : Tracker) (f : Fragment) (arrival : Float) (hc : f.count ≠ 0) :
    (t.ingest f arrival).1.status =
      FrameState.absorbStatus t.deadline f arrival (t.get? f.frameSeq) := by
  unfold Tracker.ingest
  simp only [hc, if_false, Tracker.get?]
  cases t.frames.get? f.frameSeq with
  | none => simp [Tracker.settle_eq, FrameState.absorbStatus, FrameState.first]
  | some s =>
    by_cases hdup : s.isComplete || s.received ≥ s.count
    · simp [FrameState.absorbStatus, hdup]
    · simp [Tracker.settle_eq, FrameState.absorbStatus, hdup]

/-- The report is a completion exactly when the frame goes from incomplete to complete. -/
theorem FrameState.absorbStatus_completed_iff (d : Deadline) (f : Fragment) (arrival : Float)
    (o : Option FrameState) (cl : Classification) :
    FrameState.absorbStatus d f arrival o = .completed cl ↔
      (∀ s, o = some s → s.isComplete = false) ∧
      (FrameState.absorb d f arrival o).isComplete = true ∧
      cl = d.classify (FrameState.absorb d f arrival o).sentAt arrival
        (FrameState.absorb d f arrival o).error := by
  cases o with
  | none =>
    by_cases h1 : (1 : UInt16) = f.count
    · simp [FrameState.absorbStatus, FrameState.absorb, FrameState.settle, FrameState.first,
        FrameState.complete, FrameState.isComplete, h1]
      exact eq_comm
    · simp [FrameState.absorbStatus, FrameState.absorb, FrameState.settle, FrameState.first,
        FrameState.isComplete, h1]
  | some s =>
    by_cases hdup : (s.isComplete || s.received ≥ s.count) = true
    · have hstat : FrameState.absorbStatus d f arrival (some s) = .duplicate := by
        simp only [FrameState.absorbStatus, hdup, if_true]
      have habs : FrameState.absorb d f arrival (some s) = s := by
        simp only [FrameState.absorb, hdup, if_true]
      rw [hstat, habs]
      constructor
      · intro h
        cases h
      · rintro ⟨hinc, hcomp, -⟩
        simp [hinc s rfl] at hcomp
    · have hdupf : (s.isComplete || s.received ≥ s.count) = false := by simpa using hdup
      have hinc : s.isComplete = false := by
        simp only [Bool.or_eq_false_iff] at hdupf
        exact hdupf.1
      have hnone : s.delayMs = none := by simpa [FrameState.isComplete] using hinc
      by_cases hlast : s.received + 1 = s.count
      · have hstat : FrameState.absorbStatus d f arrival (some s) =
            .completed (d.classify s.sentAt arrival s.error) := by
          simp only [FrameState.absorbStatus, hdupf, Bool.false_eq_true, if_false, hlast, if_true]
        have habs : FrameState.absorb d f arrival (some s) =
            { s with received := s.received + 1 }.complete (d.classify s.sentAt arrival s.error)
              arrival := by
          simp only [FrameState.absorb, FrameState.settle, hdupf, Bool.false_eq_true, if_false,
            hlast, if_true]
        rw [hstat, habs]
        simp only [FrameState.complete, FrameState.isComplete, IngestStatus.completed.injEq,
          Option.isSome_some, hnone, Option.isSome_none, true_and, forall_eq', Option.some.injEq]
        exact eq_comm
      · have hstat : FrameState.absorbStatus d f arrival (some s) = .pending := by
          simp only [FrameState.absorbStatus, hdupf, Bool.false_eq_true, if_false, hlast]
        have habs : FrameState.absorb d f arrival (some s) = { s with received := s.received + 1 } := by
          simp only [FrameState.absorb, FrameState.settle, hdupf, Bool.false_eq_true, if_false,
            hlast]
        rw [hstat, habs]
        simp [FrameState.isComplete, hnone]

/-- A call reports completion exactly when it takes its frame from incomplete to complete; the
classification is that of the frame's first sending instant and error at the call's instant. -/
theorem Tracker.ingest_completed_iff (t : Tracker) (f : Fragment) (arrival : Float)
    (cl : Classification) :
    (t.ingest f arrival).1.status = .completed cl ↔
      f.count ≠ 0 ∧ (∀ s, t.get? f.frameSeq = some s → s.isComplete = false) ∧
      ∃ s', (t.ingest f arrival).2.get? f.frameSeq = some s' ∧ s'.isComplete = true ∧
        cl = t.deadline.classify s'.sentAt arrival s'.error := by
  by_cases hc : f.count = 0
  · unfold Tracker.ingest
    simp [hc]
  · rw [Tracker.ingest_status t f arrival hc, FrameState.absorbStatus_completed_iff,
      Tracker.get?_ingest, if_pos ⟨rfl, hc⟩]
    simp [hc]

theorem Tracker.get?_ingest_of_isComplete (t : Tracker) (f : Fragment) (arrival : Float)
    {k : UInt32} {s : FrameState} (hs : t.get? k = some s) (hcs : s.isComplete = true) :
    (t.ingest f arrival).2.get? k = some s := by
  rw [Tracker.get?_ingest, hs]
  split
  · simp [FrameState.absorb, hcs]
  · rfl

/-- A frame becomes complete only by the call that reports its completion. -/
theorem Tracker.isComplete_ingest (t : Tracker) (f : Fragment) (arrival : Float) {k : UInt32}
    {s : FrameState} (hs : (t.ingest f arrival).2.get? k = some s) (hcs : s.isComplete = true) :
    t.get? k = some s ∨
      f.frameSeq = k ∧ ∃ cl, (t.ingest f arrival).1.status = .completed cl := by
  by_cases hk : f.frameSeq = k ∧ f.count ≠ 0
  · obtain ⟨rfl, hc⟩ := hk
    cases hold : t.get? f.frameSeq with
    | none =>
      refine .inr ⟨rfl, t.deadline.classify s.sentAt arrival s.error, ?_⟩
      rw [Tracker.ingest_completed_iff]
      exact ⟨hc, by simp [hold], s, hs, hcs, rfl⟩
    | some s₀ =>
      by_cases hc₀ : s₀.isComplete = true
      · left
        rw [Tracker.get?_ingest_of_isComplete t f arrival hold hc₀] at hs
        rw [hs]
      · refine .inr ⟨rfl, t.deadline.classify s.sentAt arrival s.error, ?_⟩
        rw [Tracker.ingest_completed_iff]
        refine ⟨hc, ?_, s, hs, hcs, rfl⟩
        intro s' hs'
        rw [hold] at hs'
        cases hs'
        exact Bool.eq_false_iff.mpr hc₀
  · left
    rwa [Tracker.get?_ingest, if_neg hk] at hs

/-- What a tracker's entry owes to the first arrival `(f, a)` of its frame under deadline `d`: one
to `count` fragments, `f`'s count, metadata and sending instant, and a delay and a classified
completion exactly when full. -/
structure FrameState.Consistent (d : Deadline) (f : Fragment) (a : Float) (s : FrameState) :
    Prop where
  received_pos : 1 ≤ s.received
  received_le_count : s.received ≤ s.count
  count_eq : s.count = f.count
  components_eq : s.components = f.components
  error_eq : s.error = f.error
  size_eq : s.size = f.frameSize
  sentAt_eq : s.sentAt = f.sentAt
  firstArrival_eq : s.firstArrival = a
  complete_iff_full : (s.delayMs.isSome ∧ s.completedAt.isSome) ↔ s.received = s.count
  classified : ∀ done, s.completedAt = some done →
    s.delayMs = some (d.classify s.sentAt done s.error).delayMs ∧
      s.onTime = (d.classify s.sentAt done s.error).onTime ∧
      s.effectiveError = (d.classify s.sentAt done s.error).effectiveError
  penalized : s.completedAt = none →
    s.delayMs = none ∧ s.onTime = false ∧ s.effectiveError = d.penalty

theorem FrameState.consistent_ofArrivals (d : Deadline) (f : Fragment) (a : Float)
    (rest : List (Fragment × Float)) (hf : f.count ≠ 0) (s : FrameState)
    (h : FrameState.ofArrivals d ((f, a) :: rest) = some s) : s.Consistent d f a := by
  have hcpos : 1 ≤ f.count.toNat := by
    have := UInt16.toNat_inj.not.mpr hf; simp at this; omega
  have hcmax : f.count.toNat < 65536 := f.count.toNat_lt
  have hone : (1 : UInt16) ≤ f.count := by rw [UInt16.le_iff_toNat_le]; simpa using hcpos
  simp only [FrameState.ofArrivals] at h
  split at h
  · rename_i x done hget
    obtain ⟨hlt, -⟩ := List.getElem?_eq_some_iff.mp hget
    have hrecv : (min (rest.length + 1) f.count.toNat).toUInt16 = f.count := by
      apply UInt16.toNat_inj.mp; simp at hlt ⊢; omega
    cases h
    refine ⟨?_, ?_, ?_, rfl, rfl, rfl, rfl, rfl, ?_, ?_, ?_⟩ <;>
      simp [FrameState.complete, FrameState.first, hrecv, hone]
  · rename_i hnone
    have hlen := List.getElem?_eq_none_iff.mp hnone
    simp only [List.length_cons] at hlen
    have hrecv : ((min (rest.length + 1) f.count.toNat).toUInt16).toNat = rest.length + 1 := by
      simp; omega
    cases h
    refine ⟨?_, ?_, rfl, rfl, rfl, rfl, rfl, rfl, ?_, ?_, ?_⟩
    · rw [UInt16.le_iff_toNat_le, hrecv]; simp
    · rw [UInt16.le_iff_toNat_le, hrecv]; simp [FrameState.first]; omega
    · simp only [FrameState.first, Option.isSome_none, Bool.false_eq_true, false_and,
        false_iff]
      intro heq
      have := congrArg UInt16.toNat heq
      omega
    · simp [FrameState.first]
    · simp [FrameState.first]

theorem FrameState.ofArrivals_cons_exists (d : Deadline) (f : Fragment) (a : Float)
    (rest : List (Fragment × Float)) : ∃ s, FrameState.ofArrivals d ((f, a) :: rest) = some s := by
  simp only [FrameState.ofArrivals]
  split <;> simp

theorem Tracker.consistent_ingestAll_new (d : Deadline) (evs : List (Fragment × Float))
    {k : UInt32} {s : FrameState} (hs : ((Tracker.new d).ingestAll evs).get? k = some s) :
    ∃ f a rest, arrivalsOf k evs = (f, a) :: rest ∧ s.Consistent d f a := by
  rw [Tracker.get?_ingestAll_new] at hs
  cases has : arrivalsOf k evs with
  | nil => simp [has] at hs
  | cons first rest =>
    obtain ⟨f, a⟩ := first
    rw [has] at hs
    exact ⟨f, a, rest, rfl, FrameState.consistent_ofArrivals d f a rest
      (arrivalsOf_count_ne_zero (f, a) (by rw [has]; simp)) s hs⟩

theorem FrameState.isComplete_ofArrivals (d : Deadline) (f : Fragment) (a : Float)
    (rest : List (Fragment × Float)) (s : FrameState)
    (h : FrameState.ofArrivals d ((f, a) :: rest) = some s) :
    s.isComplete = decide (f.count.toNat ≤ rest.length + 1) := by
  simp only [FrameState.ofArrivals] at h
  split at h
  · rename_i x done hget
    obtain ⟨hlt, -⟩ := List.getElem?_eq_some_iff.mp hget
    cases h
    simp at hlt
    simp [FrameState.complete, FrameState.isComplete]
    omega
  · rename_i hnone
    have hlen := List.getElem?_eq_none_iff.mp hnone
    cases h
    simp at hlen
    simp [FrameState.isComplete, FrameState.first]
    omega

/-- A call reports a completion exactly when it brings the `c`-th arrival of its frame, classified
with the first arrival's sending instant and error. -/
theorem Tracker.ingest_ingestAll_completed_iff (d : Deadline) (evs : List (Fragment × Float))
    (f : Fragment) (a : Float) (cl : Classification) :
    (((Tracker.new d).ingestAll evs).ingest f a).1.status = .completed cl ↔
      f.count ≠ 0 ∧ ∃ f₀ a₀ rest, arrivalsOf f.frameSeq (evs ++ [(f, a)]) = (f₀, a₀) :: rest ∧
        rest.length + 1 = f₀.count.toNat ∧ cl = d.classify f₀.sentAt a f₀.error := by
  have hstep := Tracker.ingestAll_append_singleton (Tracker.new d) evs (f, a)
  simp only at hstep
  rw [Tracker.ingest_completed_iff, ← hstep, Tracker.get?_ingestAll_new,
    Tracker.get?_ingestAll_new, Tracker.deadline_ingestAll]
  by_cases hc : f.count = 0
  · simp [hc]
  · simp only [arrivalsOf_append_singleton, hc, ne_eq, not_false_eq_true, and_true, true_and,
      if_true, Tracker.new]
    cases has : arrivalsOf f.frameSeq evs with
    | nil =>
      obtain ⟨s', hs'⟩ := FrameState.ofArrivals_cons_exists d f a []
      have hcons := FrameState.consistent_ofArrivals d f a [] hc s' hs'
      have hcomp := FrameState.isComplete_ofArrivals d f a [] s' hs'
      have hcpos : 1 ≤ f.count.toNat := by
        have := UInt16.toNat_inj.not.mpr hc; simp at this; omega
      simp [hs', hcomp, hcons.sentAt_eq, hcons.error_eq]
      omega
    | cons first r =>
      obtain ⟨f₀, a₀⟩ := first
      obtain ⟨s₀, hs₀⟩ := FrameState.ofArrivals_cons_exists d f₀ a₀ r
      obtain ⟨s', hs'⟩ := FrameState.ofArrivals_cons_exists d f₀ a₀ (r ++ [(f, a)])
      have hc₀ : f₀.count ≠ 0 := arrivalsOf_count_ne_zero (f₀, a₀) (by rw [has]; simp)
      have hcons := FrameState.consistent_ofArrivals d f₀ a₀ _ hc₀ s' hs'
      have hcomp₀ := FrameState.isComplete_ofArrivals d f₀ a₀ r s₀ hs₀
      have hcomp := FrameState.isComplete_ofArrivals d f₀ a₀ _ s' hs'
      simp [List.cons_append, hs₀, hs', hcomp₀, hcomp, hcons.sentAt_eq, hcons.error_eq]
      constructor
      · rintro ⟨hbefore, hafter, rfl⟩
        exact ⟨by omega, rfl⟩
      · rintro ⟨hlast, rfl⟩
        exact ⟨by omega, by omega, rfl⟩

theorem arrivalsOf_take_prefix (k : UInt32) (evs : List (Fragment × Float)) {i j : Nat}
    (h : i ≤ j) : arrivalsOf k (evs.take i) <+: arrivalsOf k (evs.take j) :=
  (List.take_prefix_take_left h).filter _

/-- The `i`-th call as a call after the first `i` fragments. -/
theorem ingest_getElem_completed_iff (d : Deadline) (evs : List (Fragment × Float)) (i : Nat)
    (hi : i < evs.length) (cl : Classification) :
    (((Tracker.new d).ingestAll (evs.take i)).ingest evs[i].1 evs[i].2).1.status = .completed cl ↔
      evs[i].1.count ≠ 0 ∧ ∃ f a rest,
        arrivalsOf evs[i].1.frameSeq (evs.take (i + 1)) = (f, a) :: rest ∧
          rest.length + 1 = f.count.toNat ∧ cl = d.classify f.sentAt evs[i].2 f.error := by
  rw [List.take_succ_eq_append_getElem hi]
  exact Tracker.ingest_ingestAll_completed_iff d (evs.take i) evs[i].1 evs[i].2 cl

/-- A fresh tracker fed any fragments keeps every entry consistent with its frame's first fragment
of positive count, reports a completion exactly at the `c`-th such fragment, and never twice for one
frame. -/
theorem reassembly_tracks_first_arrivals (d : Deadline) (evs : List (Fragment × Float)) :
    (∀ k s, ((Tracker.new d).ingestAll evs).get? k = some s →
      ∃ f a rest, arrivalsOf k evs = (f, a) :: rest ∧ s.Consistent d f a) ∧
    (∀ i (hi : i < evs.length) cl,
      (((Tracker.new d).ingestAll (evs.take i)).ingest evs[i].1 evs[i].2).1.status =
          .completed cl ↔
        evs[i].1.count ≠ 0 ∧ ∃ f a rest,
          arrivalsOf evs[i].1.frameSeq (evs.take (i + 1)) = (f, a) :: rest ∧
            rest.length + 1 = f.count.toNat ∧ cl = d.classify f.sentAt evs[i].2 f.error) ∧
    (∀ i j (hi : i < evs.length) (hj : j < evs.length) cl cl', i < j →
      evs[i].1.frameSeq = evs[j].1.frameSeq →
      (((Tracker.new d).ingestAll (evs.take i)).ingest evs[i].1 evs[i].2).1.status =
        .completed cl →
      (((Tracker.new d).ingestAll (evs.take j)).ingest evs[j].1 evs[j].2).1.status ≠
        .completed cl') := by
  refine ⟨?_, ingest_getElem_completed_iff d evs, ?_⟩
  · intro k s hs
    rw [Tracker.get?_ingestAll_new] at hs
    cases has : arrivalsOf k evs with
    | nil => simp [has] at hs
    | cons first rest =>
      obtain ⟨f, a⟩ := first
      rw [has] at hs
      exact ⟨f, a, rest, rfl,
        FrameState.consistent_ofArrivals d f a rest
          (arrivalsOf_count_ne_zero (f, a) (by rw [has]; simp)) s hs⟩
  · intro i j hi hj cl cl' hij hseq hci hcj
    obtain ⟨-, f, a, rest, hari, hleni, -⟩ := (ingest_getElem_completed_iff d evs i hi cl).1 hci
    obtain ⟨hcj0, f', a', rest', harj, hlenj, -⟩ :=
      (ingest_getElem_completed_iff d evs j hj cl').1 hcj
    have hpre : arrivalsOf evs[j].1.frameSeq (evs.take (i + 1)) <+:
        arrivalsOf evs[j].1.frameSeq (evs.take j) := arrivalsOf_take_prefix _ evs (by omega)
    have hlast : arrivalsOf evs[j].1.frameSeq (evs.take (j + 1)) =
        arrivalsOf evs[j].1.frameSeq (evs.take j) ++ [evs[j]] := by
      rw [List.take_succ_eq_append_getElem hj, arrivalsOf_append_singleton, if_pos ⟨rfl, hcj0⟩]
    rw [hseq] at hari
    rw [hari] at hpre
    rw [hlast] at harj
    obtain ⟨tail, htail⟩ := hpre
    rw [← htail] at harj
    simp only [List.cons_append, List.cons.injEq, Prod.mk.injEq] at harj
    obtain ⟨⟨rfl, rfl⟩, rfl⟩ := harj
    simp at hlenj
    omega

end XrDelivery
