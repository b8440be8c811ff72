/-!
# The delivery queue

Datagrams in flight wait in a binary max-heap of scheduled datagrams. Each is numbered by the
pushes before it, and the heap's order is reversed: of two datagrams the greater is the one that
arrives earlier in the total order of doubles (`-0` before `+0`, NaN after the infinities, a NaN
with the sign bit set before everything), and at one instant the one pushed earlier. So the
heap gives out the next datagram to arrive, in push order at one instant.

A datagram is due at `now` unless its instant is greater than `now`, so one at NaN is always
due. The heap is modelled by what it promises: it holds its items and gives out the greatest.
Since no two datagrams share a number, the greatest is unique and any heap gives out the same.
-/
namespace XrDelivery

/-- The position of a double in the total order of doubles. -/
def totalKey (x : Float) : Int :=
  let b := x.toBits
  if b < 0x8000000000000000 then b.toNat
  else ((b ^^^ 0x7FFFFFFFFFFFFFFF).toNat : Int) - Nat.pow 2 64

/-- Two doubles compared by their places in the total order. -/
def totalCmp (x y : Float) : Ordering := compare (totalKey x) (totalKey y)

/-- A datagram in flight: its arrival instant and the number of pushes before it. -/
structure Scheduled (α : Type) where
  arrival : Float
  order : Nat
  datagram : α

/-- The heap's order, reversed: the earlier arrival is the greater, then the earlier push. -/
def Scheduled.cmp {α : Type} (a b : Scheduled α) : Ordering :=
  (totalCmp b.arrival a.arrival).then (compare b.order a.order)

/-- A max-heap: the items it holds. -/
structure MaxHeap (α : Type) where
  items : List α := []

namespace MaxHeap

variable {α : Type}

/-- The greatest item of a list under `cmp`, the first of equals, and the others in order. -/
def takeGreatest (cmp : α → α → Ordering) : List α → Option (α × List α)
  | [] => none
  | a :: rest =>
    match takeGreatest cmp rest with
    | some (b, others) => if cmp a b = .lt then some (b, a :: others) else some (a, rest)
    | none => some (a, [])

def push (h : MaxHeap α) (a : α) : MaxHeap α := ⟨h.items ++ [a]⟩

/-- Take out the greatest item. -/
def pop (cmp : α → α → Ordering) (h : MaxHeap α) : Option (α × MaxHeap α) :=
  (takeGreatest cmp h.items).map fun p => (p.1, ⟨p.2⟩)

/-- The greatest item, left in. -/
def peek (cmp : α → α → Ordering) (h : MaxHeap α) : Option α :=
  (takeGreatest cmp h.items).map Prod.fst

def size (h : MaxHeap α) : Nat := h.items.length

theorem takeGreatest_eq_none_iff {cmp : α → α → Ordering} {l : List α} :
    takeGreatest cmp l = none ↔ l = [] := by
  cases l with
  | nil => simp [takeGreatest]
  | cons a rest =>
    simp only [takeGreatest, reduceCtorEq, iff_false]
    split
    · split <;> simp
    · simp

theorem takeGreatest_perm {cmp : α → α → Ordering} {l : List α} {a : α} {rest : List α}
    (h : takeGreatest cmp l = some (a, rest)) : (a :: rest).Perm l := by
  induction l generalizing a rest with
  | nil => cases h
  | cons b l ih =>
    simp only [takeGreatest] at h
    split at h
    next c others hc =>
      split at h
      · cases h
        exact (List.Perm.swap b _ _).trans ((ih hc).cons b)
      · cases h
        exact List.Perm.refl _
    next hnone =>
      cases h
      rw [takeGreatest_eq_none_iff.mp hnone]

theorem takeGreatest_sublist {cmp : α → α → Ordering} {l : List α} {a : α} {rest : List α}
    (h : takeGreatest cmp l = some (a, rest)) : rest.Sublist l := by
  induction l generalizing a rest with
  | nil => cases h
  | cons b l ih =>
    simp only [takeGreatest] at h
    split at h
    next c others hc =>
      split at h
      · cases h
        exact (ih hc).cons_cons b
      · cases h
        exact List.sublist_cons_self b l
    next =>
      cases h
      exact List.nil_sublist _

@[simp] theorem size_push (h : MaxHeap α) (a : α) : (h.push a).size = h.size + 1 := by
  simp [push, size]

theorem takeGreatest_of_pop {cmp : α → α → Ordering} {h h' : MaxHeap α} {a : α}
    (hp : h.pop cmp = some (a, h')) : takeGreatest cmp h.items = some (a, h'.items) := by
  simp only [pop, Option.map_eq_some_iff] at hp
  obtain ⟨⟨b, rest⟩, hb, heq⟩ := hp
  cases heq
  exact hb

theorem items_of_pop_eq_none {cmp : α → α → Ordering} {h : MaxHeap α} (hp : h.pop cmp = none) :
    h.items = [] := by
  simpa [pop, takeGreatest_eq_none_iff] using hp

theorem size_pop {cmp : α → α → Ordering} {h h' : MaxHeap α} {a : α}
    (hp : h.pop cmp = some (a, h')) : h'.size + 1 = h.size := by
  simpa [size] using (takeGreatest_perm (takeGreatest_of_pop hp)).length_eq

end MaxHeap

/-- A queue of datagrams by arrival instant: the heap and the number of the next push. The
number is a 64-bit counter, which no run pushes often enough to wrap. -/
structure DeliveryQueue (α : Type) where
  heap : MaxHeap (Scheduled α) := {}
  nextOrder : Nat := 0

namespace DeliveryQueue

variable {α : Type}

/-- Add a datagram arriving at `arrival`. -/
def push (q : DeliveryQueue α) (arrival : Float) (a : α) : DeliveryQueue α :=
  { heap := q.heap.push ⟨arrival, q.nextOrder, a⟩, nextOrder := q.nextOrder + 1 }

/-- Look at the greatest datagram, the next to arrive, and take it out if it is due at `now`. -/
def popDue (q : DeliveryQueue α) (now : Float) : Option (Float × α) × DeliveryQueue α :=
  match q.heap.pop Scheduled.cmp with
  | some (s, h) =>
    if s.arrival > now then (none, q) else (some (s.arrival, s.datagram), { q with heap := h })
  | none => (none, q)

/-- The arrival instant of the greatest datagram. -/
def nextArrival (q : DeliveryQueue α) : Option Float := (q.heap.peek Scheduled.cmp).map (·.arrival)

/-- The number of datagrams held. -/
def size (q : DeliveryQueue α) : Nat := q.heap.size

@[simp] theorem size_push (q : DeliveryQueue α) (x : Float) (a : α) :
    (q.push x a).size = q.size + 1 := by
  simp [push, size]

@[simp] theorem nextOrder_push (q : DeliveryQueue α) (x : Float) (a : α) :
    (q.push x a).nextOrder = q.nextOrder + 1 := rfl

@[simp] theorem heap_push (q : DeliveryQueue α) (x : Float) (a : α) :
    (q.push x a).heap.items = q.heap.items ++ [⟨x, q.nextOrder, a⟩] := rfl

theorem popDue_of_fst_eq_none {q : DeliveryQueue α} {now : Float} (h : (q.popDue now).1 = none) :
    (q.popDue now).2 = q := by
  unfold popDue at h ⊢
  cases hp : q.heap.pop Scheduled.cmp with
  | none => rfl
  | some p =>
    obtain ⟨s, h'⟩ := p
    rw [hp] at h
    by_cases hgt : s.arrival > now
    · simp [hgt]
    · simp [hgt] at h

end DeliveryQueue

end XrDelivery
