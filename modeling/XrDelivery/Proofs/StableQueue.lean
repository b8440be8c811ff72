import Mathlib
import XrDelivery.Proofs.DatagramCounts
import XrDelivery.Proofs.SignedOrder

/-!
# The delivery queue is a stable priority queue

A stable priority queue numbers every push and hands out, when asked at `now`, the pending
ticket that is least by arrival instant in the total order of doubles and then by push number,
provided its instant is at or before `now` (`TicketQueue`). The delivery queue is a max-heap of
scheduled datagrams numbered by a push counter, whose order is that one reversed.

For every sequence of pushes and pops whose instants are not NaN, the two answer every pop
alike, hold as many items, and name the same next arrival (`delivery_queue_stable_priority`).
The proof goes through the heap's datagrams sorted by arrival (`DeliveryQueue.view`), which hold
the pending tickets sorted by instant and push number (`Holds`): a push goes behind every ticket
it does not precede, since every ticket pending was pushed before it (`Holds.push`), and the
front of the list is the least ticket, which a pop hands out exactly when the stable queue does,
since off NaN an instant not after `now` is one at or before it (`Holds.popDue`).
-/

namespace XrDelivery

variable {α : Type}

/-- An operation on a queue of items by arrival instant. -/
inductive QueueOp (α : Type) where
  | push (arrival : Float) (item : α)
  | popDue (now : Float)

/-- The instant an operation names. -/
def QueueOp.instant : QueueOp α → Float
  | .push arrival _ => arrival
  | .popDue now => now

/-- The item an operation pushes, if it is a push. -/
def QueueOp.pushed : QueueOp α → Option (Float × α)
  | .push arrival item => some (arrival, item)
  | .popDue _ => none

/-- Run operations on a queue given by its push and its pop: the answers of the pops, and the
queue left. -/
def replay {Q : Type} (push : Q → Float → α → Q) (pop : Q → Float → Option (Float × α) × Q)
    (q : Q) : List (QueueOp α) → List (Option (Float × α)) × Q
  | [] => ([], q)
  | .push x a :: ops => replay push pop (push q x a) ops
  | .popDue now :: ops =>
    ((pop q now).1 :: (replay push pop (pop q now).2 ops).1, (replay push pop (pop q now).2 ops).2)

/-- Two queues that stay related through every push and every pop, and answer every pop alike
while related, answer every run of operations alike. -/
theorem replay_of_simulation {Q R : Type} {push₁ : Q → Float → α → Q}
    {pop₁ : Q → Float → Option (Float × α) × Q} {push₂ : R → Float → α → R}
    {pop₂ : R → Float → Option (Float × α) × R} (rel : Q → R → Prop)
    (hpush : ∀ q r x a, rel q r → x.isNaN = false → rel (push₁ q x a) (push₂ r x a))
    (hpop : ∀ q r now, rel q r → now.isNaN = false →
      (pop₁ q now).1 = (pop₂ r now).1 ∧ rel (pop₁ q now).2 (pop₂ r now).2)
    (ops : List (QueueOp α)) (hops : ∀ op ∈ ops, op.instant.isNaN = false) {q : Q} {r : R}
    (h : rel q r) :
    (replay push₁ pop₁ q ops).1 = (replay push₂ pop₂ r ops).1 ∧
      rel (replay push₁ pop₁ q ops).2 (replay push₂ pop₂ r ops).2 := by
  induction ops generalizing q r with
  | nil => exact ⟨rfl, h⟩
  | cons op ops ih =>
    have hrest : ∀ op' ∈ ops, op'.instant.isNaN = false :=
      fun op' hop' => hops op' (List.mem_cons_of_mem op hop')
    have hop := hops op List.mem_cons_self
    cases op with
    | push x a =>
      rw [QueueOp.instant] at hop
      exact ih hrest (hpush q r x a h hop)
    | popDue now =>
      rw [QueueOp.instant] at hop
      obtain ⟨hout, hrel⟩ := hpop q r now h hop
      obtain ⟨houts, hrel'⟩ := ih hrest hrel
      rw [replay, replay, hout, houts]
      exact ⟨rfl, hrel'⟩

/-- Every item pushed into a delivery queue is handed out by exactly one pop or is still held. -/
theorem replay_conserves (q : DeliveryQueue α) (ops : List (QueueOp α)) :
    ((replay DeliveryQueue.push DeliveryQueue.popDue q ops).1.filterMap id ++
      (replay DeliveryQueue.push DeliveryQueue.popDue q ops).2.heap.items.map Scheduled.entry).Perm
      (q.heap.items.map Scheduled.entry ++ ops.filterMap QueueOp.pushed) := by
  induction ops generalizing q with
  | nil => simp [replay]
  | cons op ops ih =>
    cases op with
    | push x a =>
      refine (ih _).trans ?_
      rw [DeliveryQueue.heap_push, List.filterMap_cons_some (f := QueueOp.pushed) rfl]
      simp [Scheduled.entry]
    | popDue now =>
      have hanswers : ∀ (o : Option (Float × α)) l, (o :: l).filterMap id = o.toList ++ l.filterMap id := by
        rintro (_ | p) l <;> rfl
      rw [replay, hanswers, List.filterMap_cons_none (f := QueueOp.pushed) rfl, List.append_assoc]
      refine ((ih _).append_left _).trans ?_
      rw [← List.append_assoc]
      exact (DeliveryQueue.popDue_perm q now).append_right _

/-! ### The stable priority queue -/

/-- A pushed item with its arrival instant and the number of pushes before it. -/
structure Ticket (α : Type) where
  arrival : Float
  order : Nat
  item : α

/-- Ticket `t` leaves before `u`: it arrives earlier in the total order of doubles, or at the
same place and was pushed earlier. -/
def Ticket.Before (t u : Ticket α) : Prop :=
  totalKey t.arrival < totalKey u.arrival ∨
    totalKey t.arrival = totalKey u.arrival ∧ t.order < u.order

instance : DecidableRel (@Ticket.Before α) := fun _ _ => inferInstanceAs (Decidable (_ ∨ _))

/-- What a ticket hands out: its instant and its item. -/
def Ticket.entry (t : Ticket α) : Float × α := (t.arrival, t.item)

/-- The ticket of a list that leaves first; of two that neither leaves before, the earlier in
the list. -/
def firstToLeave : List (Ticket α) → Option (Ticket α)
  | [] => none
  | t :: ts =>
    match firstToLeave ts with
    | some u => if u.Before t then some u else some t
    | none => some t

/-- A stable priority queue: the pending tickets, and the number of pushes so far. -/
structure TicketQueue (α : Type) where
  pending : List (Ticket α) := []
  pushes : Nat := 0

namespace TicketQueue

/-- Add an item arriving at `arrival`, numbered by the pushes before it. -/
def push (r : TicketQueue α) (arrival : Float) (a : α) : TicketQueue α :=
  { pending := r.pending ++ [⟨arrival, r.pushes, a⟩], pushes := r.pushes + 1 }

/-- Hand out the pending ticket that leaves first if its instant is at or before `now`. -/
def popDue (r : TicketQueue α) (now : Float) : Option (Float × α) × TicketQueue α :=
  match firstToLeave r.pending with
  | some t =>
    if t.arrival ≤ now then (some t.entry, { r with pending := r.pending.filter (·.order ≠ t.order) })
    else (none, r)
  | none => (none, r)

end TicketQueue

/-! ### The delivery queue holds the pending tickets in order -/

/-- One ticket leaves no later than another: the other does not leave before it. -/
def Ticket.LeavesBy (t u : Ticket α) : Prop := ¬u.Before t

instance : Std.Total (@Ticket.LeavesBy α) :=
  ⟨fun t u => by unfold Ticket.LeavesBy Ticket.Before; omega⟩

instance : IsTrans (Ticket α) Ticket.LeavesBy :=
  ⟨fun _ _ _ => by unfold Ticket.LeavesBy Ticket.Before; omega⟩

instance : DecidableRel (@Ticket.LeavesBy α) := fun _ _ => inferInstanceAs (Decidable (¬_))

/-- The delivery queue holds exactly the pending tickets, each once and in the order they
leave, all at instants other than NaN and pushed before the next push. -/
structure Holds (q : ArrivalQueue α) (r : TicketQueue α) : Prop where
  sorted : ∃ S : List (Ticket α), S.Perm r.pending ∧ S.Pairwise Ticket.LeavesBy ∧
    q.items = S.map Ticket.entry
  distinct : (r.pending.map Ticket.order).Nodup
  pushed : ∀ t ∈ r.pending, t.order < r.pushes
  notNaN : ∀ t ∈ r.pending, t.arrival.isNaN = false

theorem holds_empty : Holds ({} : ArrivalQueue α) {} :=
  ⟨⟨[], .nil, .nil, rfl⟩, List.nodup_nil, by simp, by simp⟩

section FirstToLeave

variable {l : List (Ticket α)} {m : Ticket α}

theorem firstToLeave_eq_none_iff : firstToLeave l = none ↔ l = [] := by
  cases l with
  | nil => simp [firstToLeave]
  | cons t ts =>
    simp only [firstToLeave, reduceCtorEq, iff_false]
    split <;> [split <;> simp; simp]

theorem mem_of_firstToLeave (h : firstToLeave l = some m) : m ∈ l := by
  induction l with
  | nil => cases h
  | cons t ts ih =>
    rw [firstToLeave] at h
    split at h
    · rename_i u hu
      split at h
      · cases h
        exact List.mem_cons_of_mem t (ih hu)
      · cases h
        exact List.mem_cons_self
    · cases h
      exact List.mem_cons_self

theorem not_before_firstToLeave (h : firstToLeave l = some m) : ∀ u ∈ l, ¬u.Before m := by
  induction l generalizing m with
  | nil => cases h
  | cons t ts ih =>
    rw [firstToLeave] at h
    split at h
    · rename_i u hu
      have hts := ih hu
      split at h
      · cases h
        rintro v (_ | ⟨_, hv⟩)
        · unfold Ticket.Before at *; omega
        · exact hts v hv
      · cases h
        rintro v (_ | ⟨_, hv⟩)
        · unfold Ticket.Before; omega
        · have := hts v hv
          unfold Ticket.Before at *; omega
    · rename_i hnone
      cases h
      rw [firstToLeave_eq_none_iff.mp hnone]
      rintro v (_ | ⟨_, hv⟩)
      · unfold Ticket.Before; omega
      · cases hv

end FirstToLeave

theorem Float.not_lt_iff_le {x y : Float} (hx : x.isNaN = false) (hy : y.isNaN = false) :
    ¬x < y ↔ y ≤ x := by
  rw [Float.lt_iff_signedKey hx hy, Float.le_iff_signedKey hy hx]
  omega

/-- A ticket pushed after every ticket of a list goes behind every one it does not precede,
exactly where the delivery queue puts its item. -/
theorem insertByArrival_entry {S : List (Ticket α)} {t : Ticket α}
    (h : ∀ u ∈ S, u.order < t.order) :
    insertByArrival t.arrival t.item (S.map Ticket.entry) =
      (S.orderedInsert Ticket.LeavesBy t).map Ticket.entry := by
  induction S with
  | nil => rfl
  | cons u S ih =>
    have hu := h u List.mem_cons_self
    simp only [List.map_cons, Ticket.entry, List.orderedInsert_cons]
    rw [insertByArrival]
    by_cases hlt : totalKey t.arrival < totalKey u.arrival
    · have hby : t.LeavesBy u := by unfold Ticket.LeavesBy Ticket.Before; omega
      simp [hlt, hby, Ticket.entry]
    · have hby : ¬t.LeavesBy u := by unfold Ticket.LeavesBy Ticket.Before; omega
      simp [hlt, hby, Ticket.entry, ← ih fun v hv => h v (List.mem_cons_of_mem u hv)]

namespace Holds

variable {q : ArrivalQueue α} {r : TicketQueue α}

theorem push (h : Holds q r) {x : Float} (hx : x.isNaN = false) (a : α) :
    Holds (q.push x a) (r.push x a) := by
  obtain ⟨S, hperm, hsorted, hitems⟩ := h.sorted
  have hlater : ∀ u ∈ S, u.order < r.pushes := fun u hu => h.pushed u (hperm.subset hu)
  refine ⟨⟨S.orderedInsert Ticket.LeavesBy ⟨x, r.pushes, a⟩, ?_, hsorted.orderedInsert _ _, ?_⟩,
    ?_, ?_, ?_⟩
  · exact (List.perm_orderedInsert _ _ _).trans ((hperm.cons _).trans (List.perm_append_singleton _ _).symm)
  · rw [ArrivalQueue.items_push, hitems]
    exact insertByArrival_entry (t := ⟨x, r.pushes, a⟩) hlater
  · simp only [TicketQueue.push, List.map_append, List.map_cons, List.map_nil]
    refine List.nodup_append.mpr ⟨h.distinct, List.nodup_singleton _, ?_⟩
    simp only [List.mem_map, List.mem_singleton]
    rintro _ ⟨u, hu, rfl⟩ _ rfl
    exact (h.pushed u hu).ne
  · simp only [TicketQueue.push, List.mem_append, List.mem_singleton]
    rintro u (hu | rfl)
    · exact Nat.lt_succ_of_lt (h.pushed u hu)
    · exact Nat.lt_succ_self _
  · simp only [TicketQueue.push, List.mem_append, List.mem_singleton]
    rintro u (hu | rfl)
    · exact h.notNaN u hu
    · exact hx

theorem size_eq_length (h : Holds q r) : q.size = r.pending.length := by
  obtain ⟨S, hperm, -, hitems⟩ := h.sorted
  rw [ArrivalQueue.size_eq, hitems, List.length_map, hperm.length_eq]

theorem firstToLeave_eq {t : Ticket α} {S : List (Ticket α)} (h : Holds q r)
    (hperm : (t :: S).Perm r.pending) (hsorted : (t :: S).Pairwise Ticket.LeavesBy) :
    firstToLeave r.pending = some t := by
  have ht : t ∈ r.pending := hperm.subset List.mem_cons_self
  obtain ⟨m, hm⟩ : ∃ m, firstToLeave r.pending = some m :=
    Option.ne_none_iff_exists'.mp fun hnone => by simp [firstToLeave_eq_none_iff.mp hnone] at ht
  have hmt : ¬t.Before m := not_before_firstToLeave hm t ht
  have htm : ¬m.Before t := by
    rcases List.mem_cons.mp (hperm.symm.subset (mem_of_firstToLeave hm)) with rfl | hmS
    · unfold Ticket.Before; omega
    · exact List.rel_of_pairwise_cons hsorted hmS
  have horder : m.order = t.order := by unfold Ticket.Before at hmt htm; omega
  rw [hm, List.inj_on_of_nodup_map h.distinct (mem_of_firstToLeave hm) ht horder]

theorem nextArrival_eq (h : Holds q r) :
    q.nextArrival = (firstToLeave r.pending).map Ticket.arrival := by
  obtain ⟨S, hperm, hsorted, hitems⟩ := h.sorted
  cases S with
  | nil => simp [ArrivalQueue.nextArrival, hitems, ← hperm.nil_eq, firstToLeave]
  | cons t S => simp [ArrivalQueue.nextArrival, hitems, h.firstToLeave_eq hperm hsorted, Ticket.entry]

theorem dropFront {t : Ticket α} {S : List (Ticket α)} (h : Holds q r)
    (hperm : (t :: S).Perm r.pending) (hsorted : (t :: S).Pairwise Ticket.LeavesBy) :
    Holds ⟨S.map Ticket.entry⟩ { r with pending := r.pending.filter (·.order ≠ t.order) } := by
  have hdistinct : ((t :: S).map Ticket.order).Nodup := (hperm.map _).nodup_iff.mpr h.distinct
  have hS : ∀ u ∈ S, u.order ≠ t.order := by
    rw [List.map_cons, List.nodup_cons, List.mem_map] at hdistinct
    exact fun u hu heq => hdistinct.1 ⟨u, hu, heq⟩
  refine ⟨⟨S, ?_, hsorted.of_cons, rfl⟩, ?_, ?_, ?_⟩
  · have hfilter := hperm.filter fun u => decide (u.order ≠ t.order)
    rwa [List.filter_cons_of_neg (by simp), List.filter_eq_self.mpr (by simpa using hS)] at hfilter
  · exact h.distinct.sublist (List.filter_sublist.map _)
  · exact fun u hu => h.pushed u (List.mem_of_mem_filter hu)
  · exact fun u hu => h.notNaN u (List.mem_of_mem_filter hu)

theorem popDue (h : Holds q r) {now : Float} (hnow : now.isNaN = false) :
    (q.popDue now).1 = (r.popDue now).1 ∧ Holds (q.popDue now).2 (r.popDue now).2 := by
  obtain ⟨S, hperm, hsorted, hitems⟩ := h.sorted
  obtain ⟨items⟩ := q
  dsimp only at hitems
  subst hitems
  cases S with
  | nil =>
    have hr : r.popDue now = (none, r) := by
      simp [TicketQueue.popDue, ← hperm.nil_eq, firstToLeave]
    rw [hr]
    exact ⟨rfl, h⟩
  | cons t S =>
    have ht : t.arrival.isNaN = false := h.notNaN t (hperm.subset List.mem_cons_self)
    simp only [List.map_cons, Ticket.entry, ArrivalQueue.popDue_cons, TicketQueue.popDue,
      h.firstToLeave_eq hperm hsorted]
    by_cases hdue : t.arrival ≤ now
    · rw [if_neg ((Float.not_lt_iff_le hnow ht).mpr hdue), if_pos hdue]
      exact ⟨rfl, h.dropFront hperm hsorted⟩
    · rw [if_pos (Float.lt_of_not_le ht hnow hdue), if_neg hdue]
      exact ⟨rfl, h⟩

end Holds

/-- The heap holds its datagrams in push order, and sorted by arrival they hold the pending
tickets. -/
def HeapHolds (q : DeliveryQueue α) (r : TicketQueue α) : Prop := q.InPushOrder ∧ Holds q.view r

namespace HeapHolds

variable {q : DeliveryQueue α} {r : TicketQueue α}

theorem push (h : HeapHolds q r) {x : Float} (hx : x.isNaN = false) (a : α) :
    HeapHolds (q.push x a) (r.push x a) :=
  ⟨h.1.push x a, by rw [DeliveryQueue.view_push]; exact h.2.push hx a⟩

theorem popDue (h : HeapHolds q r) {now : Float} (hnow : now.isNaN = false) :
    (q.popDue now).1 = (r.popDue now).1 ∧ HeapHolds (q.popDue now).2 (r.popDue now).2 := by
  obtain ⟨hordered, hanswer, hview⟩ := h.1.popDue now
  obtain ⟨hanswer', hholds⟩ := h.2.popDue hnow
  exact ⟨hanswer.trans hanswer', hordered, hview ▸ hholds⟩

theorem size_eq_length (h : HeapHolds q r) : q.size = r.pending.length := by
  rw [← DeliveryQueue.size_view, h.2.size_eq_length]

theorem nextArrival_eq (h : HeapHolds q r) :
    q.nextArrival = (firstToLeave r.pending).map Ticket.arrival := by
  rw [h.1.nextArrival_eq, h.2.nextArrival_eq]

end HeapHolds

theorem heapHolds_empty : HeapHolds ({} : DeliveryQueue α) {} :=
  ⟨DeliveryQueue.inPushOrder_empty, by rw [DeliveryQueue.view_empty]; exact holds_empty⟩

/-- The delivery queue after a run of operations from empty, with the answers of its pops. -/
def DeliveryQueue.run (ops : List (QueueOp α)) : List (Option (Float × α)) × DeliveryQueue α :=
  replay DeliveryQueue.push DeliveryQueue.popDue {} ops

/-- The stable priority queue after a run of operations from empty, with the answers of its
pops. -/
def TicketQueue.run (ops : List (QueueOp α)) : List (Option (Float × α)) × TicketQueue α :=
  replay TicketQueue.push TicketQueue.popDue {} ops

/-- The delivery queue is a stable priority queue: under pushes and pops at instants that are not
NaN it answers every pop as the queue of numbered tickets does, least by instant and then by push
number, and every item pushed is handed out once or still held. -/
theorem delivery_queue_stable_priority (ops : List (QueueOp α))
    (hops : ∀ op ∈ ops, op.instant.isNaN = false) :
    (DeliveryQueue.run ops).1 = (TicketQueue.run ops).1 ∧
      (DeliveryQueue.run ops).2.size = (TicketQueue.run ops).2.pending.length ∧
      (DeliveryQueue.run ops).2.nextArrival =
        (firstToLeave (TicketQueue.run ops).2.pending).map Ticket.arrival ∧
      ((DeliveryQueue.run ops).1.filterMap id ++
        (DeliveryQueue.run ops).2.heap.items.map Scheduled.entry).Perm
        (ops.filterMap QueueOp.pushed) := by
  obtain ⟨hanswers, hholds⟩ := @replay_of_simulation α _ _ DeliveryQueue.push
    DeliveryQueue.popDue TicketQueue.push TicketQueue.popDue HeapHolds
    (fun _ _ _ a h hx => h.push hx a) (fun _ _ _ h hnow => h.popDue hnow) ops hops _ _
    heapHolds_empty
  exact ⟨hanswers, hholds.size_eq_length, hholds.nextArrival_eq, replay_conserves {} ops⟩

/-- Four items, two at one instant, then pops before the first is due and after three are. -/
def fourArrivals : List (QueueOp String) :=
  [.push 0.3 "c", .push 0.1 "a", .push 0.2 "b", .push 0.2 "b2",
   .popDue 0.05, .popDue 0.25, .popDue 0.25, .popDue 0.25, .popDue 0.25]

theorem fourArrivals_pop_stably :
    (∀ op ∈ fourArrivals, op.instant.isNaN = false) ∧
      (DeliveryQueue.run fourArrivals).1 = (TicketQueue.run fourArrivals).1 ∧
      (DeliveryQueue.run fourArrivals).2.size = (TicketQueue.run fourArrivals).2.pending.length ∧
      (DeliveryQueue.run fourArrivals).2.nextArrival =
        (firstToLeave (TicketQueue.run fourArrivals).2.pending).map Ticket.arrival ∧
      ((DeliveryQueue.run fourArrivals).1.filterMap id ++
        (DeliveryQueue.run fourArrivals).2.heap.items.map Scheduled.entry).Perm
        (fourArrivals.filterMap QueueOp.pushed) :=
  have hops : ∀ op ∈ fourArrivals, op.instant.isNaN = false := by decide +kernel
  ⟨hops, delivery_queue_stable_priority fourArrivals hops⟩

example : (DeliveryQueue.run fourArrivals).1.map (Option.map Prod.snd) =
    [none, some "a", some "b", some "b2", none] := by decide

end XrDelivery
