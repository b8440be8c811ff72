import Mathlib
import XrDelivery.Proofs.ArrivalOrder
import XrDelivery.Proofs.StreamTiming
import XrDelivery.Proofs.EndToEnd
import XrDelivery.Proofs.FragmentFlight

/-!
# The interleaved run of a stream and its two phases

A stream runs interleaved: before each poll of its sender, the datagrams that have arrived by
then go to the receiver, and the fragments of a frame go on the link at the instant of its poll.
The same stream can be run in two phases instead: first the sender to its end, then every
fragment through the same channel at its poll instant and in the same order, and last the
datagrams that arrive, stably sorted by arrival instant, to the receiver.

For a stream of a run whose link's base delay is not below zero, both give the same flight
(`interleaved_run_refines_two_phase`): the same sender, channel and receiver, so the same
report. The invariant of the interleaved run (`FragmentFlight.OnTrack`) is that the datagrams
handed over and those still queued make up, in this order, the stable sort of the datagrams sent
so far, and that every handed datagram arrived by the next poll. A datagram sent at a poll
arrives no earlier than the poll, so it sorts behind every handed one
(`foldl_insertByArrival_append`): the queue of the interleaved run is the sorted wire less its
front. This needs arrival instants that are numbers: the queue hands over a NaN at once, where
the total order puts it last. Over a link whose delay is below zero a datagram can arrive before
it is sent, and the two runs can complete frames in different orders.
-/

namespace XrDelivery

open Wire

/-! ### The sender, run to its end -/

namespace Sender

/-- Poll at each instant the sender asks for, at most `fuel` times: the frames sent with their poll
instants, the sender at the end, and the error that stopped it, if any. -/
def runFor (s : Sender) : Nat → Option Float → List (Float × Burst) × Sender × Option String
  | 0, _ => ([], s, none)
  | _ + 1, none => ([], s, none)
  | fuel + 1, some now =>
    match s.poll now with
    | .ok (some b, s') =>
      let rest := s'.runFor fuel b.nextSendAt
      ((now, b) :: rest.1, rest.2)
    | .ok (none, s') => ([], s', none)
    | .error (e, s') => ([], s', some e.message)

variable {s s' : Sender} {now : Float}

theorem runFor_of_poll_some (fuel : Nat) {b : Burst} (h : s.poll now = .ok (some b, s')) :
    s.runFor (fuel + 1) (some now) =
      ((now, b) :: (s'.runFor fuel b.nextSendAt).1, (s'.runFor fuel b.nextSendAt).2) := by
  simp [runFor, h]

theorem runFor_of_poll_none (fuel : Nat) (h : s.poll now = .ok (none, s')) :
    s.runFor (fuel + 1) (some now) = ([], s', none) := by
  simp [runFor, h]

theorem runFor_of_poll_error (fuel : Nat) {e : SetupError} (h : s.poll now = .error (e, s')) :
    s.runFor (fuel + 1) (some now) = ([], s', some e.message) := by
  simp [runFor, h]

@[simp] theorem runFor_none (fuel : Nat) : s.runFor fuel none = ([], s, none) := by
  cases fuel <;> rfl

theorem runFor_fst_eq_drive (fuel : Nat) (next : Option Float) (s : Sender)
    (hfuel : s.catalog.size - s.pacer.frameIndex < fuel) : (s.runFor fuel next).1 = s.drive next := by
  fun_induction s.drive next generalizing fuel with
  | case1 s => simp
  | case2 s now b s' hpoll ih =>
    obtain ⟨hget, -, hcat, -, hidx⟩ := poll_eq_burst hpoll
    have hlt : s.pacer.frameIndex < s.catalog.size := (List.getElem?_eq_some_iff.mp hget).1
    obtain ⟨fuel, rfl⟩ : ∃ k, fuel = k + 1 := ⟨fuel - 1, by omega⟩
    rw [runFor_of_poll_some fuel hpoll, ih fuel (by rw [hcat, hidx]; omega)]
  | case3 s now hne =>
    obtain ⟨fuel, rfl⟩ : ∃ k, fuel = k + 1 := ⟨fuel - 1, by omega⟩
    cases hpoll : s.poll now with
    | error r => rw [runFor_of_poll_error fuel hpoll]
    | ok r =>
      obtain ⟨b?, s'⟩ := r
      cases b? with
      | none => rw [runFor_of_poll_none fuel hpoll]
      | some b => exact absurd hpoll (hne b s')

theorem runFor_isPlus (fuel : Nat) (next : Option Float) (s : Sender)
    (hnext : ∀ t, next = some t → t.IsPlus) : ∀ e ∈ (s.runFor fuel next).1, e.1.IsPlus := by
  induction fuel generalizing s next with
  | zero => simp [runFor]
  | succ fuel ih =>
    cases next with
    | none => simp
    | some now =>
      have hnow := hnext now rfl
      cases hpoll : s.poll now with
      | error r =>
        obtain ⟨e, s'⟩ := r
        simp [runFor_of_poll_error fuel hpoll]
      | ok r =>
        obtain ⟨b?, s'⟩ := r
        cases b? with
        | none => simp [runFor_of_poll_none fuel hpoll]
        | some b =>
          rw [runFor_of_poll_some fuel hpoll]
          intro e he
          rcases List.mem_cons.mp he with rfl | hrest
          · exact hnow
          · exact ih b.nextSendAt s' (fun t ht => (poll_next hnow hpoll t ht).1) e hrest

end Sender

/-- The fragments of the frames sent, each with the instant of its poll, in sending order. -/
def fragmentSends (bursts : List (Float × Burst)) : List (Float × Fragment) :=
  bursts.flatMap fun e => e.2.fragments.map (e.1, ·)

@[simp] theorem fragmentSends_nil : fragmentSends [] = [] := rfl

theorem fragmentSends_cons (now : Float) (b : Burst) (bursts : List (Float × Burst)) :
    fragmentSends ((now, b) :: bursts) = b.fragments.map (now, ·) ++ fragmentSends bursts := rfl

/-! ### Datagrams through a channel -/

namespace Channel

variable {α : Type} (len : α → Nat)

/-- Send datagrams in order, each at its instant: those that arrive, with their arrival
instants and in sending order, and the channel after the last one. -/
def transmitAll (ch : Channel) : List (Float × α) → Except ChannelError (List (Float × α) × Channel)
  | [] => .ok ([], ch)
  | p :: rest => do
    let r ← ch.transmit p.1 (len p.2)
    let w ← r.2.transmitAll rest
    pure ((r.1.map fun a => (a, p.2)).toList ++ w.1, w.2)

@[simp] theorem transmitAll_nil (ch : Channel) : ch.transmitAll len [] = .ok ([], ch) := rfl

theorem transmitAll_cons (ch : Channel) (p : Float × α) (rest : List (Float × α)) :
    ch.transmitAll len (p :: rest) = ch.transmit p.1 (len p.2) >>= fun r =>
      (r.2.transmitAll len rest).map fun w => ((r.1.map fun a => (a, p.2)).toList ++ w.1, w.2) := by
  show (do
    let r ← ch.transmit p.1 (len p.2)
    let w ← r.2.transmitAll len rest
    pure ((r.1.map fun a => (a, p.2)).toList ++ w.1, w.2)) = _
  cases ch.transmit p.1 (len p.2) with
  | error e => rfl
  | ok r => cases r.2.transmitAll len rest <;> rfl

/-- A run of sends that went through: the first datagram was sent, the rest after it on the
channel it left, and what arrived is the first datagram, if it did, then the rest's. -/
theorem transmitAll_cons_eq_ok {ch ch' : Channel} {p : Float × α} {rest w : List (Float × α)}
    (h : ch.transmitAll len (p :: rest) = .ok (w, ch')) :
    ∃ r u, ch.transmit p.1 (len p.2) = .ok r ∧ r.2.transmitAll len rest = .ok (u, ch') ∧
      w = (r.1.map fun a => (a, p.2)).toList ++ u := by
  rw [transmitAll_cons] at h
  obtain ⟨r, hr, h⟩ := exists_of_bind_eq_ok h
  obtain ⟨⟨u, ch''⟩, hu, h⟩ := exists_of_map_eq_ok h
  cases h
  exact ⟨r, u, hr, hu, rfl⟩

theorem transmitAll_append (ch : Channel) (xs ys : List (Float × α)) :
    ch.transmitAll len (xs ++ ys) = ch.transmitAll len xs >>= fun u =>
      (u.2.transmitAll len ys).map fun w => (u.1 ++ w.1, w.2) := by
  induction xs generalizing ch with
  | nil =>
    rw [List.nil_append, transmitAll_nil]
    show _ = (ch.transmitAll len ys).map _
    cases ch.transmitAll len ys <;> rfl
  | cons p xs ih =>
    rw [List.cons_append, transmitAll_cons, transmitAll_cons]
    cases ch.transmit p.1 (len p.2) with
    | error e => rfl
    | ok r =>
      simp only [bind, Except.bind, ih]
      cases r.2.transmitAll len xs with
      | error e => rfl
      | ok u =>
        simp only [Except.map]
        cases u.2.transmitAll len ys <;> simp

theorem transmitAll_sublist {ch ch' : Channel} {xs w : List (Float × α)}
    (h : ch.transmitAll len xs = .ok (w, ch')) : (w.map Prod.snd).Sublist (xs.map Prod.snd) := by
  induction xs generalizing ch w with
  | nil =>
    cases h
    exact List.nil_sublist _
  | cons p xs ih =>
    obtain ⟨r, u, -, hu, rfl⟩ := transmitAll_cons_eq_ok len h
    have hrest := ih hu
    cases r.1 with
    | none => exact (hrest.trans (List.sublist_cons_self _ _))
    | some a => simpa using hrest

/-- Sending other contents of the same lengths: the channel draws and counts the same, and
the same datagrams arrive at the same instants. -/
theorem transmitAll_map {β : Type} (len' : β → Nat) (g : α → β) (ch : Channel)
    (xs : List (Float × α)) (hlen : ∀ p ∈ xs, len' (g p.2) = len p.2) :
    ch.transmitAll len' (xs.map fun p => (p.1, g p.2)) =
      (ch.transmitAll len xs).map fun w => (w.1.map fun p => (p.1, g p.2), w.2) := by
  induction xs generalizing ch with
  | nil => rfl
  | cons p xs ih =>
    rw [List.map_cons, transmitAll_cons, transmitAll_cons, hlen p List.mem_cons_self]
    cases ch.transmit p.1 (len p.2) with
    | error e => rfl
    | ok r =>
      simp only [bind, Except.bind]
      rw [ih r.2 fun q hq => hlen q (List.mem_cons_of_mem _ hq)]
      cases r.2.transmitAll len xs with
      | error e => rfl
      | ok u => cases r.1 <;> rfl

theorem timeline_transmit {ch ch' : Channel} {now : Float} {len : Nat} {arr : Option Float}
    (h : ch.transmit now len = .ok (arr, ch')) : ch'.timeline = ch.timeline := by
  unfold Channel.transmit at h
  obtain ⟨offered, -, h⟩ := exists_of_bind_eq_ok h
  dsimp only at h
  obtain ⟨ser, -, h⟩ := exists_of_bind_eq_ok h
  split at h
  · obtain ⟨dropped, -, h⟩ := exists_of_bind_eq_ok h
    cases h
    rfl
  · obtain ⟨delivered, -, h⟩ := exists_of_bind_eq_ok h
    obtain ⟨bytes, -, h⟩ := exists_of_bind_eq_ok h
    cases h
    rfl

theorem arrival_unimpaired {ch ch' : Channel} {now a : Float} {len : Nat}
    (hc : ch.timeline.at now = Conditions.perfect) (hnow : now.IsPlus)
    (hbusy : ch.busyUntil.PlusOrNaN) (h : ch.transmit now len = .ok (some a, ch')) : a.IsPlus := by
  unfold Channel.transmit at h
  obtain ⟨offered, -, h⟩ := exists_of_bind_eq_ok h
  dsimp only at h
  obtain ⟨ser, hser, h⟩ := exists_of_bind_eq_ok h
  rw [hc] at hser h
  simp only [Conditions.perfect, serializationTime, Except.ok.injEq] at hser
  subst hser
  split at h
  · obtain ⟨dropped, -, h⟩ := exists_of_bind_eq_ok h
    cases h
  · obtain ⟨delivered, -, h⟩ := exists_of_bind_eq_ok h
    obtain ⟨bytes, -, h⟩ := exists_of_bind_eq_ok h
    cases h
    have hj : (Random.Stream.drawJitter (ch.stream.drawLoss 0.0).2 0.0).1 = 0.0 := by
      unfold Random.Stream.drawJitter
      rw [if_neg (by decide)]
    simp only [Conditions.perfect, hj]
    exact ((isPlus_maxOf hnow hbusy).1.add (by decide)).add (by decide)

/-- Datagrams sent at a plus instant over a sound channel arrive, when at a number, no earlier
than that instant, and the channel stays sound. -/
theorem transmitAll_sound {ch ch' : Channel} {now : Float} {xs w : List (Float × α)}
    (hch : ch.Sound) (hnow : now.IsPlus) (hxs : ∀ p ∈ xs, p.1 = now)
    (h : ch.transmitAll len xs = .ok (w, ch')) :
    ch'.Sound ∧ ∀ q ∈ w, q.1.PlusOrNaN ∧ (q.1.isNaN = false → now ≤ q.1) := by
  induction xs generalizing ch w with
  | nil =>
    cases h
    exact ⟨hch, by simp⟩
  | cons p xs ih =>
    obtain ⟨r, u, hr, hu, rfl⟩ := transmitAll_cons_eq_ok len h
    have hp := hxs p List.mem_cons_self
    obtain ⟨hch₁, harr⟩ := transmit_sound hch (hp ▸ hnow) hr
    obtain ⟨hch₂, hrest⟩ := ih hch₁ (fun q hq => hxs q (List.mem_cons_of_mem _ hq)) hu
    refine ⟨hch₂, fun q hq => ?_⟩
    rcases List.mem_append.mp hq with hfirst | hlater
    · simp only [Option.mem_toList, Option.map_eq_some_iff] at hfirst
      obtain ⟨a, hr₁, rfl⟩ := hfirst
      obtain ⟨hpn, hle⟩ := harr a hr₁
      exact ⟨hpn, fun hn => hp ▸ hle hn⟩
    · exact hrest q hlater

/-- Over a link without impairments at any instant, datagrams sent at plus instants arrive at
plus instants. -/
theorem transmitAll_unimpaired {ch ch' : Channel} {xs w : List (Float × α)}
    (hc : ∀ t, ch.timeline.at t = Conditions.perfect) (hbusy : ch.busyUntil.PlusOrNaN)
    (hxs : ∀ p ∈ xs, p.1.IsPlus) (h : ch.transmitAll len xs = .ok (w, ch')) :
    ∀ q ∈ w, q.1.IsPlus := by
  induction xs generalizing ch w with
  | nil =>
    cases h
    simp
  | cons p xs ih =>
    obtain ⟨r, u, hr, hu, rfl⟩ := transmitAll_cons_eq_ok len h
    have hp := hxs p List.mem_cons_self
    have hch : ch.Sound := ⟨hbusy, fun t => hc t ▸ Conditions.sound_perfect⟩
    have hch₁ := (transmit_sound hch hp hr).1
    have hc₁ : ∀ t, r.2.timeline.at t = Conditions.perfect := fun t => by
      rw [timeline_transmit hr]
      exact hc t
    intro q hq
    rcases List.mem_append.mp hq with hfirst | hlater
    · simp only [Option.mem_toList, Option.map_eq_some_iff] at hfirst
      obtain ⟨a, hr₁, rfl⟩ := hfirst
      exact arrival_unimpaired (hc p.1) hp hbusy (by rw [hr, ← hr₁])
    · exact ih hc₁ hch₁.busy (fun q hq => hxs q (List.mem_cons_of_mem _ hq)) hu q hlater

end Channel

/-! ### The flight of a stream -/

namespace FragmentFlight

/-- Sending fragments at `now` puts on the queue those that arrive, one after the other. -/
theorem transmit_eq (f : FragmentFlight) (now : Float) (frags : List Fragment) :
    f.transmit now frags = (f.channel.transmitAll Fragment.wireLength (frags.map (now, ·))).map
      fun w => { f with
        channel := w.2
        queue := ⟨w.1.foldl (fun q p => insertByArrival p.1 p.2 q) f.queue.items⟩ } := by
  induction frags generalizing f with
  | nil => rfl
  | cons frag frags ih =>
    rw [transmit_cons, List.map_cons, Channel.transmitAll_cons]
    simp only [bind, Except.bind]
    cases f.channel.transmit now frag.wireLength with
    | error e => rfl
    | ok r =>
      obtain ⟨arr, ch⟩ := r
      dsimp only
      rw [ih]
      cases ch.transmitAll Fragment.wireLength (frags.map (now, ·)) with
      | error e => rfl
      | ok w => cases arr <;> rfl

/-- A datagram at `t` has arrived by `now` unless its instant is above `now`. -/
def ArrivedBy (now : Float) (p : Float × Fragment) : Bool := !decide (p.1 > now)

theorem deliverUntil_eq (now : Float) (n : Nat) (f : FragmentFlight) (hn : f.queue.size ≤ n) :
    f.deliverUntil now n = { f with
      queue := ⟨f.queue.items.dropWhile (ArrivedBy now)⟩
      receiver := f.receiver.receiveAll
        ((f.queue.items.takeWhile (ArrivedBy now)).map Prod.swap) } := by
  obtain ⟨tx, rx, ch, ⟨items⟩, err⟩ := f
  induction n generalizing rx items with
  | zero =>
    have hnil : items = [] := List.eq_nil_of_length_eq_zero (Nat.le_zero.mp hn)
    subst hnil
    rfl
  | succ n ih =>
    cases items with
    | nil => rfl
    | cons p rest =>
      obtain ⟨t, c⟩ := p
      simp only [deliverUntil, ArrivalQueue.popDue_cons]
      by_cases ht : t > now
      · simp [ht, ArrivedBy]
      · simp only [ht, if_false]
        rw [ih _ _ (by simpa using hn)]
        simp [ArrivedBy, ht, Receiver.receiveAll]

theorem deliver_eq (f : FragmentFlight) (now : Float) :
    f.deliver now = { f with
      queue := ⟨f.queue.items.dropWhile (ArrivedBy now)⟩
      receiver := f.receiver.receiveAll
        ((f.queue.items.takeWhile (ArrivedBy now)).map Prod.swap) } :=
  f.deliverUntil_eq now f.queue.size le_rfl

@[simp] theorem sender_deliver (f : FragmentFlight) (now : Float) : (f.deliver now).sender = f.sender := by
  rw [deliver_eq]

@[simp] theorem channel_deliver (f : FragmentFlight) (now : Float) : (f.deliver now).channel = f.channel := by
  rw [deliver_eq]

@[simp] theorem senderError_deliver (f : FragmentFlight) (now : Float) :
    (f.deliver now).senderError = f.senderError := by
  rw [deliver_eq]

/-- A flight on its way against the datagrams `W` arrived so far: the handed and queued datagrams
make up `W` sorted by arrival, instants are plus doubles, and the link is sound. -/
structure OnTrack (r₀ : Receiver) (W H : List (Float × Fragment)) (f : FragmentFlight) : Prop where
  sorted : H ++ f.queue.items = sortByArrival W
  receiver_eq : f.receiver = r₀.receiveAll (H.map Prod.swap)
  plus : ∀ p ∈ W, p.1.IsPlus
  channel : f.channel.Sound

variable {r₀ : Receiver} {W H : List (Float × Fragment)} {f : FragmentFlight}

theorem OnTrack.mem_wire (ht : f.OnTrack r₀ W H) {p : Float × Fragment}
    (hp : p ∈ H ++ f.queue.items) : p ∈ W := by
  rw [ht.sorted] at hp
  exact (sortByArrival_perm W).mem_iff.mp hp

theorem onTrack_start {ch : Channel} (hch : ch.Sound) (tx : Sender) (err : Option String) :
    OnTrack r₀ [] [] { sender := tx, receiver := r₀, channel := ch, senderError := err } :=
  ⟨by simp [sortByArrival], rfl, by simp, hch⟩

theorem OnTrack.with_sender (ht : f.OnTrack r₀ W H) (tx : Sender) (err : Option String) :
    ({ f with sender := tx, senderError := err } : FragmentFlight).OnTrack r₀ W H :=
  ⟨ht.sorted, ht.receiver_eq, ht.plus, ht.channel⟩

theorem OnTrack.deliver (ht : f.OnTrack r₀ W H) {now : Float} (hnow : now.IsPlus)
    (hH : ∀ p ∈ H, totalKey p.1 ≤ totalKey now) :
    let H' := H ++ f.queue.items.takeWhile (ArrivedBy now)
    (f.deliver now).OnTrack r₀ W H' ∧ ∀ p ∈ H', totalKey p.1 ≤ totalKey now := by
  intro H'
  rw [deliver_eq]
  refine ⟨⟨?_, ?_, ht.plus, ht.channel⟩, ?_⟩
  · show H' ++ f.queue.items.dropWhile (ArrivedBy now) = _
    rw [List.append_assoc, List.takeWhile_append_dropWhile, ht.sorted]
  · show f.receiver.receiveAll _ = _
    rw [ht.receiver_eq, List.map_append, Receiver.receiveAll, Receiver.receiveAll,
      Receiver.receiveAll, List.foldl_append]
  · intro p hp
    rcases List.mem_append.mp hp with hold | hnew
    · exact hH p hold
    · have hdue : ¬p.1 > now := by simpa [ArrivedBy] using List.mem_takeWhile_imp hnew
      have hplus := ht.plus p (ht.mem_wire (List.mem_append_right _
        ((List.takeWhile_sublist _).subset hnew)))
      rw [gt_iff_lt, hnow.lt_iff_totalKey hplus] at hdue
      omega

theorem OnTrack.deliver_infinity (ht : f.OnTrack r₀ W H) :
    f.deliver (1.0 / 0.0) =
      { sender := f.sender
        receiver := r₀.receiveAll ((sortByArrival W).map Prod.swap)
        channel := f.channel
        senderError := f.senderError } := by
  have hall : ∀ p ∈ f.queue.items, ArrivedBy (1.0 / 0.0) p = true := fun p _ => by
    simp [ArrivedBy, not_infinity_lt]
  rw [deliver_eq, List.takeWhile_eq_self_iff.mpr hall, List.dropWhile_eq_nil_iff.mpr hall,
    ht.receiver_eq, Receiver.receiveAll, Receiver.receiveAll, Receiver.receiveAll,
    ← List.foldl_append, ← List.map_append, ht.sorted]

/-- Datagrams sent at `now` arrive no earlier, so they go on the queue behind every datagram
handed over by `now`, and the queue stays the sorted wire less its front. -/
theorem OnTrack.transmit (ht : f.OnTrack r₀ W H) {now : Float} (hnow : now.IsPlus)
    (hH : ∀ p ∈ H, totalKey p.1 ≤ totalKey now) {frags : List Fragment}
    {w : List (Float × Fragment)} {ch : Channel}
    (hw : f.channel.transmitAll Fragment.wireLength (frags.map (now, ·)) = .ok (w, ch))
    (hnan : ∀ p ∈ w, p.1.isNaN = false) :
    ({ f with
        channel := ch
        queue := ⟨w.foldl (fun q p => insertByArrival p.1 p.2 q) f.queue.items⟩ } : FragmentFlight).OnTrack
      r₀ (W ++ w) H := by
  obtain ⟨hch, harr⟩ := Channel.transmitAll_sound _ ht.channel hnow (by simp) hw
  have hlate : ∀ p ∈ w, p.1.IsPlus ∧ totalKey now ≤ totalKey p.1 := fun p hp => by
    obtain ⟨hpn, hle⟩ := harr p hp
    have hplus := hpn.isPlus (hnan p hp)
    exact ⟨hplus, (hnow.le_iff_totalKey hplus).mp (hle (hnan p hp))⟩
  refine ⟨?_, ht.receiver_eq, ?_, hch⟩
  · show H ++ w.foldl _ f.queue.items = _
    rw [← foldl_insertByArrival_append w fun d hd p hp => (hH d hd).trans (hlate p hp).2,
      ht.sorted, foldl_insertByArrival_sortByArrival]
  · intro p hp
    rcases List.mem_append.mp hp with hold | hnew
    · exact ht.plus p hold
    · exact (hlate p hnew).1

/-- The flight a stream ends in when its sender ended at `tx` and stopped with `err`, its channel
ended at `ch`, and its receiver took in the wire `W` sorted by arrival after `r₀`. -/
def settled (tx : Sender) (r₀ : Receiver) (W : List (Float × Fragment)) (ch : Channel)
    (err : Option String) : FragmentFlight :=
  { sender := tx, receiver := r₀.receiveAll ((sortByArrival W).map Prod.swap), channel := ch,
    senderError := err }

/-- The interleaved run stops with the channel's error once the channel refuses a datagram that
the sender's polls send: the sender's polls do not depend on the datagrams in flight. -/
theorem play_error {e : ChannelError} (fuel : Nat) (next : Option Float) (f : FragmentFlight)
    (h : f.channel.transmitAll Fragment.wireLength (fragmentSends (f.sender.runFor fuel next).1) =
      .error e) :
    play fuel next f = .error e := by
  induction fuel generalizing next f with
  | zero => cases h
  | succ fuel ih =>
    cases next with
    | none => cases h
    | some now =>
      simp only [play, sender_deliver]
      cases hpoll : f.sender.poll now with
      | error r =>
        obtain ⟨err, tx⟩ := r
        rw [Sender.runFor_of_poll_error fuel hpoll] at h
        cases h
      | ok r =>
        obtain ⟨b?, tx⟩ := r
        cases b? with
        | none =>
          rw [Sender.runFor_of_poll_none fuel hpoll] at h
          cases h
        | some b =>
          rw [Sender.runFor_of_poll_some fuel hpoll, fragmentSends_cons,
            Channel.transmitAll_append] at h
          dsimp only
          rw [transmit_eq]
          cases hb : f.channel.transmitAll Fragment.wireLength (b.fragments.map (now, ·)) with
          | error e' =>
            rw [hb] at h
            cases h
            simp [hb, Except.map, bind, Except.bind]
          | ok u =>
            rw [hb] at h
            simp only [bind, Except.bind, channel_deliver, hb, Except.map]
            apply ih
            cases hr : u.2.transmitAll Fragment.wireLength (fragmentSends (tx.runFor fuel b.nextSendAt).1) with
            | error e'' =>
              cases e
              cases e''
              rfl
            | ok v => simp [hr, bind, Except.bind, Except.map] at h

/-- From a flight on its way, the interleaved run to the end is the sender's own run, the channel
fed its sends in order and the receiver taking the sorted wire, when no arrival is NaN or late for
its poll. -/
theorem OnTrack.play_deliver (fuel : Nat) (next : Option Float) (ht : f.OnTrack r₀ W H)
    (hnext : ∀ t, next = some t → t.IsPlus ∧ ∀ p ∈ H, totalKey p.1 ≤ totalKey t)
    (hnan : ∀ w ch, f.channel.transmitAll Fragment.wireLength
      (fragmentSends (f.sender.runFor fuel next).1) = .ok (w, ch) → ∀ p ∈ w, p.1.isNaN = false) :
    (play fuel next f).map (·.deliver (1.0 / 0.0)) =
      (f.channel.transmitAll Fragment.wireLength (fragmentSends (f.sender.runFor fuel next).1)).map
        fun w => settled (f.sender.runFor fuel next).2.1 r₀ (W ++ w.1) w.2
          ((f.sender.runFor fuel next).2.2.or f.senderError) := by
  induction fuel generalizing next f W H with
  | zero =>
    simp only [play, Sender.runFor, fragmentSends_nil, Channel.transmitAll_nil, Except.map,
      List.append_nil, ht.deliver_infinity]
    rfl
  | succ fuel ih =>
    cases next with
    | none =>
      simp only [play, Sender.runFor, fragmentSends_nil, Channel.transmitAll_nil, Except.map,
        List.append_nil, ht.deliver_infinity]
      rfl
    | some now =>
      obtain ⟨hnow, hH⟩ := hnext now rfl
      obtain ⟨ht₁, hH₁⟩ := ht.deliver hnow hH
      simp only [play, sender_deliver]
      cases hpoll : f.sender.poll now with
      | error r =>
        obtain ⟨err, tx⟩ := r
        rw [Sender.runFor_of_poll_error fuel hpoll]
        simp only [fragmentSends_nil, Channel.transmitAll_nil, Except.map, List.append_nil]
        rw [(ht₁.with_sender tx (some err.message)).deliver_infinity]
        simp [settled, Option.or]
      | ok r =>
        obtain ⟨b?, tx⟩ := r
        cases b? with
        | none =>
          rw [Sender.runFor_of_poll_none fuel hpoll]
          simp only [fragmentSends_nil, Channel.transmitAll_nil, Except.map, List.append_nil]
          rw [(ht₁.with_sender tx (f.deliver now).senderError).deliver_infinity]
          simp [settled, Option.or]
        | some b =>
          rw [Sender.runFor_of_poll_some fuel hpoll, fragmentSends_cons,
            Channel.transmitAll_append]
          rw [Sender.runFor_of_poll_some fuel hpoll, fragmentSends_cons,
            Channel.transmitAll_append] at hnan
          dsimp only
          rw [transmit_eq]
          simp only [channel_deliver]
          cases hb : f.channel.transmitAll Fragment.wireLength (b.fragments.map (now, ·)) with
          | error e => rfl
          | ok u =>
            obtain ⟨w₁, ch₁⟩ := u
            simp only [hb, bind, Except.bind, Except.map] at hnan ⊢
            cases hr : ch₁.transmitAll Fragment.wireLength
                (fragmentSends (tx.runFor fuel b.nextSendAt).1) with
            | error e =>
              rw [play_error fuel b.nextSendAt _ (by exact hr)]
            | ok v =>
              obtain ⟨w₂, ch₂⟩ := v
              have hnan₁₂ := hnan _ _ (by rw [hr])
              have ht₂ := (ht₁.with_sender tx (f.deliver now).senderError).transmit hnow hH₁
                (by simpa using hb) fun p hp => hnan₁₂ p (List.mem_append_left _ hp)
              have hnext₂ : ∀ t, b.nextSendAt = some t → t.IsPlus ∧
                  ∀ p ∈ H ++ f.queue.items.takeWhile (ArrivedBy now),
                    totalKey p.1 ≤ totalKey t := fun t ht' => by
                obtain ⟨htp, hle⟩ := Sender.poll_next hnow hpoll t ht'
                exact ⟨htp, fun p hp => (hH₁ p hp).trans ((hnow.le_iff_totalKey htp).mp hle)⟩
              have := ih b.nextSendAt ht₂ hnext₂ fun w ch hw => by
                intro p hp
                exact hnan (w₁ ++ w) ch (by simp only at hw; simp [hw])
                  p (List.mem_append_right _ hp)
              simp only [Except.map] at this
              rw [this, hr]
              simp only [List.append_assoc, senderError_deliver]

end FragmentFlight

theorem sortByArrival_map {α β : Type} (g : α → β) (l : List (Float × α)) :
    sortByArrival (l.map fun p => (p.1, g p.2)) = (sortByArrival l).map fun p => (p.1, g p.2) :=
  (@List.map_mergeSort (Float × α) (Float × β) (fun p q => decide (totalKey p.1 ≤ totalKey q.1))
    (fun p q => decide (totalKey p.1 ≤ totalKey q.1)) (fun p => (p.1, g p.2)) l
    fun _ _ _ _ => rfl).symm

theorem readFragments_datagrams (l : List (Float × Fragment))
    (hl : ∀ p ∈ l, (Datagram.decode? p.2.datagram).map Datagram.toFragment = some p.2) :
    readFragments ((l.map fun p => (p.1, p.2.datagram)).map Prod.swap) = l.map Prod.swap := by
  induction l with
  | nil => rfl
  | cons p l ih =>
    have hp := hl p List.mem_cons_self
    obtain ⟨d, hd, hdf⟩ := Option.map_eq_some_iff.mp hp
    have hrest := ih fun q hq => hl q (List.mem_cons_of_mem _ hq)
    simp only [List.map_cons, readFragments, List.filterMap_cons, Prod.swap, hd,
      Option.map_some] at hrest ⊢
    rw [hrest, hdf]

/-! ### The two runs of a stream -/

namespace StreamSetup

variable (s : StreamSetup) (dir : Directory)

/-- The sender of a stream run on its own, from instant zero toward `dir`: its frames with the
instants of their polls, the sender at the end, and why it stopped, if it failed. -/
def bursts : List (Float × Burst) × Sender × Option String :=
  match s.sender.start 0.0 dir with
  | .ok (first, tx) => tx.runFor (s.sender.catalog.size + 2) first
  | .error e => ([], s.sender, some e.message)

/-- The wire of frames sent as `bursts`: each fragment's datagram put on the link at its poll
instant, in order, with the arrivals and the channel at the end. -/
def wireOf (bursts : List (Float × Burst)) : Except ChannelError (List (Float × List UInt8) × Channel) :=
  s.channel.transmitAll List.length ((fragmentSends bursts).map fun p => (p.1, p.2.datagram))

/-- The flight of a sender's run `run` settled in one go: its wire is stably sorted by arrival
instant and the receiver reads every datagram of it in that order. -/
def settle (run : List (Float × Burst) × Sender × Option String) : Except ChannelError FragmentFlight :=
  (s.wireOf run.1).map fun w =>
    { sender := run.2.1
      receiver := s.receiver.receiveDatagrams ((sortByArrival w.1).map Prod.swap)
      channel := w.2
      senderError := run.2.2 }

/-- The wire of a stream run in two phases. -/
def wire : Except ChannelError (List (Float × List UInt8) × Channel) := s.wireOf (s.bursts dir).1

/-- A stream run in two phases: its sender runs to its end, then its flight is settled. -/
def twoPhase : Except ChannelError FragmentFlight := s.settle (s.bursts dir)

/-- What a stream run in two phases reports. -/
def runTwoPhase (agg : Aggregator) : Except RunError (StreamReport × Aggregator) :=
  ((s.twoPhase dir).mapError fun _ => RunError.channelOverflow s.user.name).map (s.finish · agg)

theorem bursts_fst : (s.bursts dir).1 = s.sender.transmit 0.0 dir := by
  unfold bursts Sender.transmit
  cases hstart : s.sender.start 0.0 dir with
  | error e => rfl
  | ok r =>
    obtain ⟨first, tx⟩ := r
    obtain ⟨hcat, -, hidx⟩ := Sender.start_eq_ok hstart
    exact Sender.runFor_fst_eq_drive (s.sender.catalog.size + 2) first tx
      (by rw [hcat, hidx]; omega)

theorem read_sent {f : Fragment} (hf : f ∈ (fragmentSends (s.bursts dir).1).map Prod.snd) :
    (Datagram.decode? f.datagram).map Datagram.toFragment = some f := by
  rw [bursts_fst] at hf
  obtain ⟨p, hp, rfl⟩ := List.mem_map.mp hf
  obtain ⟨e, he, hpe⟩ := List.mem_flatMap.mp hp
  obtain ⟨g, hg, rfl⟩ := List.mem_map.mp hpe
  have hc := (Frame.carries_of_mem_fragments (Sender.fragments_of_mem_transmit _ _ _ e he) hg).1
  exact Wire.decode?_encode_ofFragment g hc.count_ne_zero hc.index_lt hc.payload_ne_zero

theorem wire_eq : s.wire dir =
    (s.channel.transmitAll Fragment.wireLength (fragmentSends (s.bursts dir).1)).map
      fun w => (w.1.map fun p => (p.1, p.2.datagram), w.2) :=
  Channel.transmitAll_map _ _ _ _ _ fun p _ => by
    simp [Fragment.datagram, Datagram.encode, Datagram.ofFragment, Fragment.wireLength]

theorem sends_isPlus (hs : s.Timely) : ∀ p ∈ fragmentSends (s.bursts dir).1, p.1.IsPlus := by
  unfold bursts
  cases hstart : s.sender.start 0.0 dir with
  | error e => simp
  | ok r =>
    obtain ⟨first, tx⟩ := r
    have hpolls := tx.runFor_isPlus (s.sender.catalog.size + 2) first
      (Sender.start_isPlus hs.offset (by decide) hstart)
    intro p hp
    obtain ⟨e, he, hpe⟩ := List.mem_flatMap.mp hp
    obtain ⟨f, -, rfl⟩ := List.mem_map.mp hpe
    exact hpolls e he

/-- A receiver that reads the sorted wire of datagrams takes in the sorted wire of the fragments
they encode: every fragment on the wire was sent, and reads back. -/
theorem receiveDatagrams_sorted {w : List (Float × Fragment)} {ch : Channel}
    (hw : s.channel.transmitAll Fragment.wireLength (fragmentSends (s.bursts dir).1) = .ok (w, ch)) :
    s.receiver.receiveDatagrams
        ((sortByArrival (w.map fun p => (p.1, p.2.datagram))).map Prod.swap) =
      s.receiver.receiveAll ((sortByArrival w).map Prod.swap) := by
  have hsent := Channel.transmitAll_sublist _ hw
  rw [Receiver.receiveDatagrams_eq, sortByArrival_map, readFragments_datagrams]
  intro p hp
  exact s.read_sent dir (hsent.subset (List.mem_map_of_mem
    ((sortByArrival_perm w).mem_iff.mp hp)))

variable {s dir}

theorem fragmentRun_eq_twoPhase (hs : s.Timely)
    (hnan : ∀ w ch, s.wire dir = .ok (w, ch) → ∀ p ∈ w, p.1.isNaN = false) :
    s.fragmentRun dir = s.twoPhase dir := by
  have hnan' : ∀ w ch, s.channel.transmitAll Fragment.wireLength
      (fragmentSends (s.bursts dir).1) = .ok (w, ch) → ∀ p ∈ w, p.1.isNaN = false :=
    fun w ch hw p hp => by
      have := hnan _ ch (by rw [wire_eq, hw]; rfl) (p.1, p.2.datagram)
      exact this (List.mem_map_of_mem hp)
  have hrecv := fun w ch (hw : s.channel.transmitAll Fragment.wireLength
      (fragmentSends (s.bursts dir).1) = .ok (w, ch)) => receiveDatagrams_sorted s dir hw
  unfold fragmentRun twoPhase settle
  rw [show s.wireOf (s.bursts dir).1 = s.wire dir from rfl, wire_eq]
  unfold bursts at hnan' hrecv ⊢
  cases hstart : s.sender.start 0.0 dir with
  | error e =>
    simp only [hstart] at hnan' hrecv ⊢
    rw [(FragmentFlight.onTrack_start hs.channel s.sender (some e.message)).play_deliver _ none (by simp)
      (by simp)]
    simp [Except.map, FragmentFlight.settled, sortByArrival, Option.or]
    rfl
  | ok r =>
    obtain ⟨first, tx⟩ := r
    simp only [hstart] at hnan' hrecv ⊢
    have hfirst : ∀ t, first = some t → t.IsPlus ∧ ∀ p ∈ ([] : List (Float × Fragment)),
        totalKey p.1 ≤ totalKey t := fun t ht =>
      ⟨Sender.start_isPlus hs.offset (by decide) hstart t ht, by simp⟩
    rw [(FragmentFlight.onTrack_start hs.channel tx none).play_deliver _ first hfirst hnan']
    cases hw : s.channel.transmitAll Fragment.wireLength
        (fragmentSends (tx.runFor (s.sender.catalog.size + 2) first).1) with
    | error e => rfl
    | ok w =>
      simp only [Except.map, FragmentFlight.settled, List.nil_append, Option.or_none, hrecv w.1 w.2 hw]

end StreamSetup

/-- A stream of a run whose link's base delay is not below zero, with arrivals that are numbers,
ends its interleaved run in the flight of its two-phase run: the same sender, channel and receiver,
and nothing in flight; its receiver gets every arrival once, stably sorted by arrival. -/
theorem interleaved_run_refines_two_phase {c : RunConfig} {read : FileReader}
    {setups : List StreamSetup} {agg₀ : Aggregator} (hbase : ¬c.link.baseDelayMs < 0)
    (hsetup : c.setupStreams read = .ok (setups, agg₀)) {s : StreamSetup} (hmem : s ∈ setups)
    (dir : Directory) (hnan : ∀ w ch, s.wire dir = .ok (w, ch) → ∀ p ∈ w, p.1.isNaN = false)
    (agg : Aggregator) :
    (s.interleaved dir).map Flight.read = s.twoPhase dir ∧
    s.run dir agg = s.runTwoPhase dir agg ∧
    (s.bursts dir).1 = s.sender.transmit 0.0 dir ∧
    ∀ w ch, s.wire dir = .ok (w, ch) →
      (w.map Prod.snd).Sublist ((fragmentSends (s.bursts dir).1).map fun p => p.2.datagram) ∧
      (∀ p ∈ w, ∃ f ∈ (fragmentSends (s.bursts dir).1).map Prod.snd,
        p.2 = f.datagram ∧ (Datagram.decode? p.2).map Datagram.toFragment = some f) ∧
      ∃ handed : List (List UInt8 × Float),
        (s.interleaved dir).map (·.receiver) = .ok (s.receiver.receiveDatagrams handed) ∧
        handed.Perm (w.map Prod.swap) ∧
        handed.Pairwise (fun x y => totalKey x.2 ≤ totalKey y.2) ∧
        ∀ k : Int, handed.filter (fun x => totalKey x.2 == k) =
          (w.map Prod.swap).filter fun x => totalKey x.2 == k := by
  have hs := RunConfig.timely_of_baseDelay hbase hsetup s hmem
  have heq := (s.interleaved_read dir).trans (StreamSetup.fragmentRun_eq_twoPhase hs hnan)
  refine ⟨heq, by rw [StreamSetup.run_eq, StreamSetup.runTwoPhase,
    StreamSetup.fragmentRun_eq_twoPhase hs hnan], s.bursts_fst dir, fun w ch hw => ?_⟩
  have hsub : (w.map Prod.snd).Sublist ((fragmentSends (s.bursts dir).1).map fun p => p.2.datagram) := by
    have := Channel.transmitAll_sublist _ hw
    rwa [List.map_map] at this
  refine ⟨hsub, fun p hp => ?_, (sortByArrival w).map Prod.swap, ?_, ?_, ?_, fun k => ?_⟩
  · obtain ⟨q, hq, hpq⟩ := List.mem_map.mp (hsub.subset (List.mem_map_of_mem hp))
    exact ⟨q.2, List.mem_map_of_mem hq, hpq.symm, hpq ▸ s.read_sent dir (List.mem_map_of_mem hq)⟩
  · have hrecv : (s.interleaved dir).map (·.receiver) =
        ((s.interleaved dir).map Flight.read).map (·.receiver) := by
      cases s.interleaved dir <;> rfl
    rw [hrecv, heq, StreamSetup.twoPhase, StreamSetup.settle,
      show s.wireOf (s.bursts dir).1 = s.wire dir from rfl, hw]
    rfl
  · exact (sortByArrival_perm w).map _
  · exact List.pairwise_map.mpr (sortByArrival_sorted w)
  · rw [List.filter_map, List.filter_map]
    exact congrArg (List.map Prod.swap) (sortByArrival_stable w k)

/-! ### Runs without jitter, evaluated

Without jitter each interval a sender draws comes out in one of two ways (`Pacer.ticks`), so a
stream's interleaved run, and its sender's run on its own, end in one of finitely many ways, each
computed without the maths library. A check that all of them pass holds of the run. -/

namespace Flight

/-- The flights a play may end in, one for each way its sender's polls may go. -/
def plays : Nat → Option Float → Flight → List (Except ChannelError Flight)
  | 0, _, f => [.ok f]
  | _ + 1, none, f => [.ok f]
  | fuel + 1, some now, f =>
    let f := f.deliver now
    (f.sender.polls now).flatMap fun
      | .ok (some b, tx) =>
        match { f with sender := tx }.transmit now b.fragments with
        | .ok f' => plays fuel b.nextSendAt f'
        | .error e => [.error e]
      | .ok (none, tx) => [.ok { f with sender := tx }]
      | .error (e, tx) => [.ok { f with sender := tx, senderError := some e.message }]

theorem play_mem_plays (fuel : Nat) (next : Option Float) (f : Flight) :
    play fuel next f ∈ plays fuel next f := by
  induction fuel generalizing next f with
  | zero => exact List.mem_singleton_self _
  | succ fuel ih =>
    cases next with
    | none => exact List.mem_singleton_self _
    | some now =>
      unfold play plays
      dsimp only
      refine List.mem_flatMap.mpr ⟨_, Sender.poll_mem_polls _ now, ?_⟩
      rcases (f.deliver now).sender.poll now with ⟨e, tx⟩ | ⟨_ | b, tx⟩
      · exact List.mem_singleton_self _
      · exact List.mem_singleton_self _
      · dsimp only
        cases { f.deliver now with sender := tx }.transmit now b.fragments with
        | error e => exact List.mem_singleton_self _
        | ok f' => exact ih _ _

end Flight

namespace Sender

/-- The runs a sender may make on its own, one for each way its polls may go. -/
def runFors (s : Sender) : Nat → Option Float → List (List (Float × Burst) × Sender × Option String)
  | 0, _ => [([], s, none)]
  | _ + 1, none => [([], s, none)]
  | fuel + 1, some now =>
    (s.polls now).flatMap fun
      | .ok (some b, s') => (s'.runFors fuel b.nextSendAt).map fun rest => ((now, b) :: rest.1, rest.2)
      | .ok (none, s') => [([], s', none)]
      | .error (e, s') => [([], s', some e.message)]

theorem runFor_mem_runFors (s : Sender) (fuel : Nat) (next : Option Float) :
    s.runFor fuel next ∈ s.runFors fuel next := by
  induction fuel generalizing s next with
  | zero => exact List.mem_singleton_self _
  | succ fuel ih =>
    cases next with
    | none => exact List.mem_singleton_self _
    | some now =>
      unfold runFor runFors
      refine List.mem_flatMap.mpr ⟨_, s.poll_mem_polls now, ?_⟩
      rcases s.poll now with ⟨e, s'⟩ | ⟨_ | b, s'⟩
      · exact List.mem_singleton_self _
      · exact List.mem_singleton_self _
      · exact List.mem_map_of_mem (ih s' _)

end Sender

namespace StreamSetup

variable (s : StreamSetup) (dir : Directory)

/-- The flights a stream's interleaved run may end in. -/
def interleavings : List (Except ChannelError Flight) :=
  (s.sender.starts 0.0 dir).flatMap fun st =>
    let (next, f) := s.launch st
    (Flight.plays (s.sender.catalog.size + 2) next f).map (·.map (·.deliver (1.0 / 0.0)))

/-- The runs a stream's sender may make on its own. -/
def burstings : List (List (Float × Burst) × Sender × Option String) :=
  (s.sender.starts 0.0 dir).flatMap fun
    | .ok (first, tx) => tx.runFors (s.sender.catalog.size + 2) first
    | .error e => [([], s.sender, some e.message)]

theorem interleaved_mem_interleavings : s.interleaved dir ∈ s.interleavings dir := by
  refine List.mem_flatMap.mpr ⟨_, Sender.start_mem_starts _ _ _, ?_⟩
  unfold interleaved
  rcases s.launch (s.sender.start 0.0 dir) with ⟨next, f⟩
  exact List.mem_map_of_mem (Flight.play_mem_plays _ _ _)

theorem bursts_mem_burstings : s.bursts dir ∈ s.burstings dir := by
  refine List.mem_flatMap.mpr ⟨_, Sender.start_mem_starts _ _ _, ?_⟩
  unfold bursts
  rcases s.sender.start 0.0 dir with e | ⟨first, tx⟩
  · exact List.mem_singleton_self _
  · exact Sender.runFor_mem_runFors _ _ _

variable {s dir}

theorem interleaved_of_all {P : Except ChannelError Flight → Bool}
    (h : (s.interleavings dir).all P = true) : P (s.interleaved dir) = true :=
  List.all_eq_true.mp h _ (s.interleaved_mem_interleavings dir)

theorem bursts_of_all {P : List (Float × Burst) × Sender × Option String → Bool}
    (h : (s.burstings dir).all P = true) : P (s.bursts dir) = true :=
  List.all_eq_true.mp h _ (s.bursts_mem_burstings dir)

theorem wire_of_all {P : List (Float × List UInt8) → Bool}
    (h : (s.burstings dir).all (fun run => (s.wireOf run.1).toOption.all fun w => P w.1) = true)
    {w : List (Float × List UInt8)} {ch : Channel} (hw : s.wire dir = .ok (w, ch)) : P w = true := by
  have hrun := bursts_of_all h
  rwa [show s.wireOf (s.bursts dir).1 = s.wire dir from rfl, hw] at hrun

end StreamSetup

theorem RunConfig.exists_setup_of_any (c : RunConfig) (read : FileReader) {P : StreamSetup → Bool}
    (h : (c.setupStreams read).toOption.any (fun p => p.1.length == 1 && p.1.all P) = true) :
    ∃ s agg, c.setupStreams read = .ok ([s], agg) ∧ P s = true := by
  cases hs : c.setupStreams read with
  | error e => simp [hs, Except.toOption] at h
  | ok p =>
    obtain ⟨setups, agg⟩ := p
    simp only [hs, Except.toOption, Option.any_some, Bool.and_eq_true, beq_iff_eq,
      List.all_eq_true] at h
    obtain ⟨s, rfl⟩ := List.length_eq_one_iff.mp h.1
    exact ⟨s, agg, rfl, h.2 s (List.mem_singleton_self s)⟩

/-- A link whose delay starts at -50 ms, within 100 ms either way, with up to 30 ms of jitter on
each datagram: a datagram may arrive before it was sent. -/
def earlyLink : LinkProfile where
  minRateKbit := 0
  maxRateKbit := 0
  rateStepKbit := 0
  baseDelayMs := -50.0
  delayRangeMs := 100.0
  delayStepMs := 0.0
  packetJitterMs := 30.0
  maxLossPercent := 0.0
  lossStepPercent := 0.0
  step := ⟨100000000000⟩

/-- The same link 100 ms later, whose delays are never below zero. -/
def lateLink : LinkProfile := { earlyLink with baseDelayMs := 50.0 }

/-- A catalog file of two frames of 1000 bytes, one datagram each, at 10 components. -/
def twoFrameFile : FileReader := fun _ => .ok "frame,components,error,size\n1,10,0.5,1000\n2,10,0.5,1000\n"

/-- One user sending two frames to itself over `link`, without jitter. -/
def loopRun (link : LinkProfile) : RunConfig where
  version := 1
  seed := 4
  sender := { jitter := Jitter.none }
  receiver := { expectedFrames := 2 }
  link := link
  users := [{ name := "a", address := "ue0", destination := "ue0", level := 10,
              startOffset := 0.0, catalog := .file "frames.csv" }]

theorem lateLoop_runs_agree :
    ¬(loopRun lateLink).link.baseDelayMs < 0 ∧
    ∃ s agg₀, (loopRun lateLink).setupStreams twoFrameFile = .ok ([s], agg₀) ∧
      (∀ w ch, s.wire (loopRun lateLink).directory = .ok (w, ch) → ∀ p ∈ w, p.1.isNaN = false) ∧
      (s.interleaved (loopRun lateLink).directory).map Flight.read =
        s.twoPhase (loopRun lateLink).directory ∧
      s.run (loopRun lateLink).directory {} = s.runTwoPhase (loopRun lateLink).directory {} ∧
      (s.bursts (loopRun lateLink).directory).1 = s.sender.transmit 0.0 (loopRun lateLink).directory ∧
      ∀ w ch, s.wire (loopRun lateLink).directory = .ok (w, ch) →
        (w.map Prod.snd).Sublist
          ((fragmentSends (s.bursts (loopRun lateLink).directory).1).map fun p => p.2.datagram) ∧
        (∀ p ∈ w, ∃ f ∈ (fragmentSends (s.bursts (loopRun lateLink).directory).1).map Prod.snd,
          p.2 = f.datagram ∧ (Datagram.decode? p.2).map Datagram.toFragment = some f) ∧
        ∃ handed : List (List UInt8 × Float),
          (s.interleaved (loopRun lateLink).directory).map (·.receiver) =
            .ok (s.receiver.receiveDatagrams handed) ∧
          handed.Perm (w.map Prod.swap) ∧
          handed.Pairwise (fun x y => totalKey x.2 ≤ totalKey y.2) ∧
          ∀ k : Int, handed.filter (fun x => totalKey x.2 == k) =
            (w.map Prod.swap).filter fun x => totalKey x.2 == k := by
  have hbase : ¬(loopRun lateLink).link.baseDelayMs < 0 := by decide
  -- every way the sender may run puts datagrams on the link that arrive at numbers
  obtain ⟨s, agg₀, hsetup, hchk⟩ := RunConfig.exists_setup_of_any (loopRun lateLink) twoFrameFile (P := fun s =>
      (s.burstings (loopRun lateLink).directory).all fun run =>
        (s.wireOf run.1).toOption.all fun w => w.1.all fun p => !p.1.isNaN) (by decide +kernel)
  have hnan : ∀ w ch, s.wire (loopRun lateLink).directory = .ok (w, ch) →
      ∀ p ∈ w, p.1.isNaN = false := fun w ch hw p hp => by
    simpa using List.all_eq_true.mp
      (StreamSetup.wire_of_all (P := fun w => w.all fun p => !p.1.isNaN) hchk hw) p hp
  exact ⟨hbase, s, agg₀, hsetup, hnan, interleaved_run_refines_two_phase hbase hsetup
    (List.mem_singleton_self s) _ hnan {}⟩

/-- Over the early link the second frame arrives before the first, which was already handed over, so
the interleaved run completes frames in sending order and the two-phase run in arrival order. -/
theorem earlyLoop_runs_disagree :
    (loopRun earlyLink).link.baseDelayMs < 0 ∧
    ∃ s agg₀, (loopRun earlyLink).setupStreams twoFrameFile = .ok ([s], agg₀) ∧
      (s.interleaved (loopRun earlyLink).directory).map
          (·.receiver.events.map (·.record.frameNumber)) = .ok [1, 2] ∧
      (s.twoPhase (loopRun earlyLink).directory).map
          (·.receiver.events.map (·.record.frameNumber)) = .ok [2, 1] ∧
      (s.interleaved (loopRun earlyLink).directory).map Flight.read ≠
        s.twoPhase (loopRun earlyLink).directory := by
  obtain ⟨s, agg₀, hsetup, hchk⟩ := RunConfig.exists_setup_of_any (loopRun earlyLink) twoFrameFile (P := fun s =>
      (s.interleavings (loopRun earlyLink).directory).all (fun e => decide
        ((e.map (·.receiver.events.map (·.record.frameNumber))).toOption = some [1, 2])) &&
      (s.burstings (loopRun earlyLink).directory).all (fun run => decide
        (((s.settle run).map (·.receiver.events.map (·.record.frameNumber))).toOption =
          some [2, 1])))
      (by simp only [StreamSetup.settle, sortByArrival_eq, mergeSort_eq_insertionSort]
          decide +kernel)
  rw [Bool.and_eq_true] at hchk
  have hi := eq_ok_of_toOption_eq_some (of_decide_eq_true (StreamSetup.interleaved_of_all hchk.1))
  have ht := eq_ok_of_toOption_eq_some (of_decide_eq_true (StreamSetup.bursts_of_all hchk.2))
  refine ⟨by decide, s, agg₀, hsetup, hi, ht, fun heq => ?_⟩
  have hread : ((s.interleaved (loopRun earlyLink).directory).map Flight.read).map
      (·.receiver.events.map (·.record.frameNumber)) =
      (s.interleaved (loopRun earlyLink).directory).map
        (·.receiver.events.map (·.record.frameNumber)) := by
    cases s.interleaved (loopRun earlyLink).directory <;> rfl
  rw [heq, hi] at hread
  exact absurd (ht.symm.trans hread) (by decide)

end XrDelivery
