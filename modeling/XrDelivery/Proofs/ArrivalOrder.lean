import Mathlib.Data.List.Sort
import XrDelivery.Link.DeliveryQueue

/-!
# Sorting by arrival

A queue can keep its items as a list in the total order of their arrival instants, a new item
behind every item that does not arrive later (`ArrivalQueue`, `insertByArrival`). Pushing items
one after the other into such a queue sorts them stably: the queue of a sorted list and one
more item is the stable sort of the longer list (`insertByArrival_sortByArrival`), where the
stable sort is `List.mergeSort` on the places of the instants (`sortByArrival`). The argument
goes through insertion sort, the right fold of `List.orderedInsert`: merge sort inserts each item
before the first one not below it (`mergeSort_eq_insertionSort`), and inserting from the left
behind equal items commutes with that (`insertByArrival_orderedInsert`).

The delivery queue is such a queue in disguise. Its heap holds the datagrams in push order, and
the greatest under the reversed order is the front of their stable sort by arrival
(`sortByArrival_takeGreatest`), so a delivery queue answers every push and pop as the sorted list
of its datagrams does (`DeliveryQueue.Sorts`).
-/

namespace XrDelivery

variable {α : Type}

/-- Insert behind every item that is not later. -/
def insertByArrival (arrival : Float) (a : α) : List (Float × α) → List (Float × α)
  | [] => [(arrival, a)]
  | (t, b) :: rest =>
    if totalKey arrival < totalKey t then (arrival, a) :: (t, b) :: rest
    else (t, b) :: insertByArrival arrival a rest

/-- A queue of items kept as a list sorted by arrival instant, its front the next to leave. -/
structure ArrivalQueue (α : Type) where
  items : List (Float × α) := []

namespace ArrivalQueue

def push (q : ArrivalQueue α) (arrival : Float) (a : α) : ArrivalQueue α :=
  ⟨insertByArrival arrival a q.items⟩

/-- Take the front item if it is due at `now`. -/
def popDue (q : ArrivalQueue α) (now : Float) : Option (Float × α) × ArrivalQueue α :=
  match q.items with
  | [] => (none, q)
  | (t, a) :: rest => if t > now then (none, q) else (some (t, a), ⟨rest⟩)

def nextArrival (q : ArrivalQueue α) : Option Float := q.items.head?.map Prod.fst

def size (q : ArrivalQueue α) : Nat := q.items.length

@[simp] theorem items_push (q : ArrivalQueue α) (x : Float) (c : α) :
    (q.push x c).items = insertByArrival x c q.items := rfl

@[simp] theorem size_eq (q : ArrivalQueue α) : q.size = q.items.length := rfl

theorem popDue_nil (now : Float) : (⟨[]⟩ : ArrivalQueue α).popDue now = (none, ⟨[]⟩) := rfl

theorem popDue_cons (now t : Float) (c : α) (rest : List (Float × α)) :
    (⟨(t, c) :: rest⟩ : ArrivalQueue α).popDue now =
      if t > now then (none, ⟨(t, c) :: rest⟩) else (some (t, c), ⟨rest⟩) := rfl

end ArrivalQueue

/-- The items stably sorted by arrival instant, in the total order of doubles: items with the
same instant keep their order. -/
def sortByArrival (l : List (Float × α)) : List (Float × α) :=
  l.mergeSort fun p q => decide (totalKey p.1 ≤ totalKey q.1)

/-- One item comes no later than another in the total order of doubles. -/
def ArrivesBy (p q : Float × α) : Prop := totalKey p.1 ≤ totalKey q.1

instance : DecidableRel (@ArrivesBy α) := fun _ _ => inferInstanceAs (Decidable (_ ≤ _))

section Sorting

variable {p q : Float × α} {l l₁ l₂ : List (Float × α)}

theorem arrivesBy_trans (a b c : Float × α) :
    decide (ArrivesBy a b) = true → decide (ArrivesBy b c) = true → decide (ArrivesBy a c) = true :=
  fun hab hbc => decide_eq_true (Int.le_trans (of_decide_eq_true hab) (of_decide_eq_true hbc))

theorem arrivesBy_total (a b : Float × α) : (decide (ArrivesBy a b) || decide (ArrivesBy b a)) = true := by
  rw [Bool.or_eq_true]
  exact (Int.le_total _ _).imp decide_eq_true decide_eq_true

theorem sortByArrival_eq : sortByArrival l = l.mergeSort fun p q => decide (ArrivesBy p q) := rfl

theorem orderedInsert_append (h : ∀ b ∈ l₁, ¬ArrivesBy p b) :
    (l₁ ++ l₂).orderedInsert ArrivesBy p = l₁ ++ l₂.orderedInsert ArrivesBy p := by
  induction l₁ with
  | nil => rfl
  | cons b l₁ ih =>
    rw [List.cons_append, List.orderedInsert_cons, if_neg (h b List.mem_cons_self),
      ih fun c hc => h c (List.mem_cons_of_mem _ hc), List.cons_append]

theorem orderedInsert_of_forall (h : ∀ b ∈ l, ArrivesBy p b) : l.orderedInsert ArrivesBy p = p :: l := by
  cases l with
  | nil => rfl
  | cons b l => rw [List.orderedInsert_cons, if_pos (h b List.mem_cons_self)]

theorem mergeSort_eq_insertionSort (l : List (Float × α)) :
    l.mergeSort (fun p q => decide (ArrivesBy p q)) = l.insertionSort ArrivesBy := by
  induction l with
  | nil => simp
  | cons a l ih =>
    obtain ⟨l₁, l₂, hcons, hl, hbelow⟩ := List.mergeSort_cons arrivesBy_trans arrivesBy_total a l
    have hsorted := List.pairwise_mergeSort arrivesBy_trans arrivesBy_total (a :: l)
    rw [hcons, List.pairwise_append, List.pairwise_cons] at hsorted
    have hafter : ∀ b ∈ l₂, ArrivesBy a b := fun b hb => by simpa using hsorted.2.1.1 b hb
    rw [hcons, List.insertionSort_cons, ← ih, hl,
      orderedInsert_append fun b hb => by simpa using hbelow b hb, orderedInsert_of_forall hafter]

theorem insertByArrival_orderedInsert (x : Float) (c : α) (a : Float × α) (l : List (Float × α)) :
    insertByArrival x c (l.orderedInsert ArrivesBy a) = (insertByArrival x c l).orderedInsert ArrivesBy a := by
  obtain ⟨s, e⟩ := a
  induction l with
  | nil =>
    by_cases hsx : totalKey s ≤ totalKey x
    · simp [insertByArrival, ArrivesBy, hsx, show ¬totalKey x < totalKey s by omega]
    · simp [insertByArrival, ArrivesBy, hsx, show totalKey x < totalKey s by omega]
  | cons b l ih =>
    obtain ⟨t, d⟩ := b
    by_cases hst : totalKey s ≤ totalKey t <;> by_cases hxt : totalKey x < totalKey t
    · by_cases hsx : totalKey s ≤ totalKey x
      · simp [insertByArrival, ArrivesBy, hst, hxt, hsx, show ¬totalKey x < totalKey s by omega]
      · simp [insertByArrival, ArrivesBy, hst, hxt, hsx, show totalKey x < totalKey s by omega]
    · simp [insertByArrival, ArrivesBy, hst, hxt, show ¬totalKey x < totalKey s by omega]
    · simp [insertByArrival, ArrivesBy, hst, hxt, show ¬totalKey s ≤ totalKey x by omega]
    · simp [insertByArrival, ArrivesBy, hst, hxt, ih]

theorem insertionSort_append_singleton (l : List (Float × α)) (x : Float) (c : α) :
    (l ++ [(x, c)]).insertionSort ArrivesBy = insertByArrival x c (l.insertionSort ArrivesBy) := by
  induction l with
  | nil => rfl
  | cons a l ih =>
    rw [List.cons_append, List.insertionSort_cons, ih, List.insertionSort_cons,
      insertByArrival_orderedInsert]

theorem insertByArrival_sortByArrival (l : List (Float × α)) (x : Float) (c : α) :
    insertByArrival x c (sortByArrival l) = sortByArrival (l ++ [(x, c)]) := by
  rw [sortByArrival_eq, sortByArrival_eq, mergeSort_eq_insertionSort, mergeSort_eq_insertionSort,
    insertionSort_append_singleton]

theorem foldl_insertByArrival_sortByArrival (l new : List (Float × α)) :
    new.foldl (fun q p => insertByArrival p.1 p.2 q) (sortByArrival l) = sortByArrival (l ++ new) := by
  induction new generalizing l with
  | nil => simp
  | cons p new ih =>
    rw [List.foldl_cons, insertByArrival_sortByArrival, ih, List.append_assoc, List.singleton_append]

theorem insertByArrival_perm (x : Float) (c : α) (l : List (Float × α)) :
    (insertByArrival x c l).Perm ((x, c) :: l) := by
  induction l with
  | nil => exact List.Perm.refl _
  | cons p l ih =>
    obtain ⟨t, b⟩ := p
    unfold insertByArrival
    split
    · exact List.Perm.refl _
    · exact (ih.cons _).trans (List.Perm.swap _ _ _)

theorem foldl_insertByArrival_perm (new l : List (Float × α)) :
    (new.foldl (fun q p => insertByArrival p.1 p.2 q) l).Perm (l ++ new) := by
  induction new generalizing l with
  | nil => simp
  | cons p new ih =>
    rw [List.foldl_cons]
    refine (ih _).trans ?_
    rw [← List.singleton_append, ← List.append_assoc]
    exact ((insertByArrival_perm p.1 p.2 l).trans (List.perm_append_singleton p l).symm).append_right _

theorem sortByArrival_perm (l : List (Float × α)) : (sortByArrival l).Perm l :=
  List.mergeSort_perm l _

theorem sortByArrival_sorted (l : List (Float × α)) :
    (sortByArrival l).Pairwise fun p q => totalKey p.1 ≤ totalKey q.1 :=
  (List.pairwise_mergeSort arrivesBy_trans arrivesBy_total l).imp of_decide_eq_true

theorem sortByArrival_stable (l : List (Float × α)) (k : Int) :
    (sortByArrival l).filter (fun p => totalKey p.1 == k) = l.filter fun p => totalKey p.1 == k := by
  have hchain : (l.filter fun p => totalKey p.1 == k).Pairwise fun p q => decide (ArrivesBy p q) := by
    refine List.pairwise_of_forall_mem_list fun p hp q hq => ?_
    simp only [List.mem_filter, beq_iff_eq] at hp hq
    simp [ArrivesBy, hp.2, hq.2]
  have hsub := List.sublist_mergeSort arrivesBy_trans arrivesBy_total hchain List.filter_sublist
  have hsub' := hsub.filter fun p => totalKey p.1 == k
  simp only [List.filter_filter, Bool.and_self] at hsub'
  refine (hsub'.eq_of_length ?_).symm
  exact ((List.mergeSort_perm l _).filter _).length_eq.symm

end Sorting

section Handover

variable {D Q : List (Float × α)}

theorem insertByArrival_append (x : Float) (c : α) (h : ∀ d ∈ D, totalKey d.1 ≤ totalKey x) :
    insertByArrival x c (D ++ Q) = D ++ insertByArrival x c Q := by
  induction D with
  | nil => rfl
  | cons d D ih =>
    obtain ⟨t, b⟩ := d
    have hd : ¬totalKey x < totalKey t := Int.not_lt.mpr (h (t, b) List.mem_cons_self)
    rw [List.cons_append, insertByArrival, if_neg hd, ih fun e he => h e (List.mem_cons_of_mem _ he),
      List.cons_append]

/-- Items that arrive no earlier than everything handed over go behind it. -/
theorem foldl_insertByArrival_append (new : List (Float × α))
    (h : ∀ d ∈ D, ∀ p ∈ new, totalKey d.1 ≤ totalKey p.1) :
    new.foldl (fun q p => insertByArrival p.1 p.2 q) (D ++ Q) =
      D ++ new.foldl (fun q p => insertByArrival p.1 p.2 q) Q := by
  induction new generalizing Q with
  | nil => rfl
  | cons p new ih =>
    rw [List.foldl_cons, insertByArrival_append p.1 p.2 fun d hd => h d hd p List.mem_cons_self,
      List.foldl_cons, ih fun d hd q hq => h d hd q (List.mem_cons_of_mem _ hq)]

end Handover

/-! ### The delivery queue seen as a sorted list -/

section HeapView

variable {q : DeliveryQueue α}

/-- A scheduled datagram as an item of a queue sorted by arrival. -/
def Scheduled.entry (s : Scheduled α) : Float × α := (s.arrival, s.datagram)

/-- The datagrams of a delivery queue stably sorted by arrival, so in push order at one instant. -/
def DeliveryQueue.view (q : DeliveryQueue α) : ArrivalQueue α :=
  ⟨sortByArrival (q.heap.items.map Scheduled.entry)⟩

/-- The heap holds its datagrams in push order, each numbered below the next push. -/
structure DeliveryQueue.InPushOrder (q : DeliveryQueue α) : Prop where
  ordered : (q.heap.items.map Scheduled.order).Pairwise (· < ·)
  numbered : ∀ s ∈ q.heap.items, s.order < q.nextOrder

theorem Scheduled.cmp_eq_lt_iff {a b : Scheduled α} (h : a.order < b.order) :
    Scheduled.cmp a b = .lt ↔ totalKey b.arrival < totalKey a.arrival := by
  unfold Scheduled.cmp totalCmp
  rw [Nat.compare_eq_gt.mpr h]
  cases hc : compare (totalKey b.arrival) (totalKey a.arrival) with
  | lt => simpa [Ordering.then] using compare_lt_iff_lt.mp hc
  | eq =>
    have := compare_eq_iff_eq.mp hc
    simp [Ordering.then]
    omega
  | gt =>
    have := compare_gt_iff_gt.mp hc
    simp [Ordering.then]
    omega

/-- The greatest datagram of a heap in push order is the front of its insertion sort by arrival,
and the others sort as the rest. -/
theorem insertionSort_takeGreatest {l : List (Scheduled α)} (hl : (l.map Scheduled.order).Pairwise (· < ·))
    {s : Scheduled α} {rest : List (Scheduled α)}
    (h : MaxHeap.takeGreatest Scheduled.cmp l = some (s, rest)) :
    (l.map Scheduled.entry).insertionSort ArrivesBy =
      s.entry :: (rest.map Scheduled.entry).insertionSort ArrivesBy := by
  induction l generalizing s rest with
  | nil => cases h
  | cons b l ih =>
    rw [List.map_cons, List.pairwise_cons] at hl
    simp only [MaxHeap.takeGreatest] at h
    split at h
    next c others hc =>
      have hbc : b.order < c.order :=
        hl.1 _ (List.mem_map_of_mem ((MaxHeap.takeGreatest_perm hc).subset List.mem_cons_self))
      rw [List.map_cons, List.insertionSort_cons, ih hl.2 hc]
      split at h
      next hlt =>
        obtain ⟨rfl, rfl⟩ := Prod.mk.inj (Option.some.inj h)
        have hafter : ¬ArrivesBy b.entry c.entry := by
          have := (Scheduled.cmp_eq_lt_iff hbc).mp hlt
          simp only [ArrivesBy, Scheduled.entry]
          omega
        rw [List.orderedInsert_cons, if_neg hafter, List.map_cons, List.insertionSort_cons]
      next hnlt =>
        obtain ⟨rfl, rfl⟩ := Prod.mk.inj (Option.some.inj h)
        have hby : ArrivesBy b.entry c.entry := by
          have := mt (Scheduled.cmp_eq_lt_iff hbc).mpr hnlt
          simp only [ArrivesBy, Scheduled.entry]
          omega
        rw [List.orderedInsert_cons, if_pos hby, ih hl.2 hc]
    next hnone =>
      obtain ⟨rfl, rfl⟩ := Prod.mk.inj (Option.some.inj h)
      rw [MaxHeap.takeGreatest_eq_none_iff.mp hnone]
      rfl

/-- The heap gives out the front of its datagrams stably sorted by arrival. -/
theorem sortByArrival_takeGreatest {l : List (Scheduled α)}
    (hl : (l.map Scheduled.order).Pairwise (· < ·)) {s : Scheduled α} {rest : List (Scheduled α)}
    (h : MaxHeap.takeGreatest Scheduled.cmp l = some (s, rest)) :
    sortByArrival (l.map Scheduled.entry) = s.entry :: sortByArrival (rest.map Scheduled.entry) := by
  rw [sortByArrival_eq, sortByArrival_eq, mergeSort_eq_insertionSort, mergeSort_eq_insertionSort]
  exact insertionSort_takeGreatest hl h

namespace DeliveryQueue

theorem inPushOrder_empty : ({} : DeliveryQueue α).InPushOrder :=
  ⟨.nil, fun _ h => nomatch h⟩

@[simp] theorem view_empty : ({} : DeliveryQueue α).view = {} := by
  simp [view, sortByArrival]

theorem InPushOrder.push (hq : q.InPushOrder) (x : Float) (a : α) : (q.push x a).InPushOrder where
  ordered := by
    rw [heap_push, List.map_append, List.pairwise_append]
    refine ⟨hq.ordered, List.pairwise_singleton _ _, ?_⟩
    simp only [List.mem_map, List.map_cons, List.map_nil, List.mem_singleton]
    rintro _ ⟨s, hs, rfl⟩ _ rfl
    exact hq.numbered s hs
  numbered := by
    simp only [heap_push, nextOrder_push, List.mem_append, List.mem_singleton]
    rintro s (hs | rfl)
    · exact Nat.lt_succ_of_lt (hq.numbered s hs)
    · exact Nat.lt_succ_self _

/-- A push goes behind every datagram of the sorted list that does not arrive later. -/
@[simp] theorem view_push (q : DeliveryQueue α) (x : Float) (a : α) :
    (q.push x a).view = q.view.push x a := by
  simp only [view, ArrivalQueue.push, heap_push, List.map_append, List.map_singleton,
    insertByArrival_sortByArrival]
  rfl

theorem size_view (q : DeliveryQueue α) : q.view.size = q.size := by
  simp [view, ArrivalQueue.size, size, MaxHeap.size, (sortByArrival_perm _).length_eq]

theorem InPushOrder.popDue (hq : q.InPushOrder) (now : Float) :
    (q.popDue now).2.InPushOrder ∧ (q.popDue now).1 = (q.view.popDue now).1 ∧
      (q.popDue now).2.view = (q.view.popDue now).2 := by
  unfold DeliveryQueue.popDue
  cases hp : q.heap.pop Scheduled.cmp with
  | none =>
    have hview : q.view = ⟨[]⟩ := by simp [view, MaxHeap.items_of_pop_eq_none hp, sortByArrival]
    simp [hview, ArrivalQueue.popDue_nil, hq]
  | some p =>
    obtain ⟨s, h⟩ := p
    have htake := MaxHeap.takeGreatest_of_pop hp
    have hview : q.view = ⟨s.entry :: (⟨{ q with heap := h }.view.items⟩ : ArrivalQueue α).items⟩ :=
      congrArg ArrivalQueue.mk (sortByArrival_takeGreatest hq.ordered htake)
    have hsub := MaxHeap.takeGreatest_sublist htake
    have hq' : ({ q with heap := h } : DeliveryQueue α).InPushOrder :=
      ⟨hq.ordered.sublist (hsub.map _), fun s' hs' => hq.numbered s' (hsub.subset hs')⟩
    rw [hview, Scheduled.entry, ArrivalQueue.popDue_cons]
    by_cases hgt : s.arrival > now
    · simp [hgt, hq, hview, Scheduled.entry]
    · simp [hgt, hq']

theorem InPushOrder.nextArrival_eq (hq : q.InPushOrder) : q.nextArrival = q.view.nextArrival := by
  unfold DeliveryQueue.nextArrival MaxHeap.peek ArrivalQueue.nextArrival
  cases ht : MaxHeap.takeGreatest Scheduled.cmp q.heap.items with
  | none => simp [view, MaxHeap.takeGreatest_eq_none_iff.mp ht, sortByArrival]
  | some p =>
    obtain ⟨s, rest⟩ := p
    simp [view, sortByArrival_takeGreatest hq.ordered ht, Scheduled.entry]

theorem popDue_perm (q : DeliveryQueue α) (now : Float) :
    ((q.popDue now).1.toList ++ (q.popDue now).2.heap.items.map Scheduled.entry).Perm
      (q.heap.items.map Scheduled.entry) := by
  unfold DeliveryQueue.popDue
  cases hp : q.heap.pop Scheduled.cmp with
  | none => exact List.Perm.refl _
  | some p =>
    obtain ⟨s, h⟩ := p
    by_cases hgt : s.arrival > now
    · simp [hgt]
    · simpa [hgt, Scheduled.entry] using
        (MaxHeap.takeGreatest_perm (MaxHeap.takeGreatest_of_pop hp)).map Scheduled.entry

end DeliveryQueue

end HeapView

end XrDelivery
