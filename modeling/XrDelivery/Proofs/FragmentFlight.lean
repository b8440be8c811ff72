import Mathlib
import XrDelivery.Proofs.ArrivalOrder
import XrDelivery.Proofs.EndToEnd
import XrDelivery.Proofs.Fragmentation
import XrDelivery.Simulation

/-!
# Following a stream by its fragments

A running stream keeps the bytes of its datagrams in flight in a heap (`Flight`). The same stream
can be followed by the fragments those bytes stand for, kept in a list sorted by arrival
(`FragmentFlight`). Reading a flight (`Flight.read`) decodes its datagrams in flight, in the
order of the sorted view of the heap, and keeps the rest.

Every datagram a stream puts on its link is the encoding of a fragment its sender cut, and it
decodes back to that fragment (`Sender.readsBack_of_poll`). So a flight whose heap is in push
order and whose datagrams all decode stays so (`Flight.Readable`), and the fragment flight
follows it step for step: a delivery hands the receiver the fragment of each datagram the heap
gives out, and none is dropped as undecodable; a transmission queues the fragment of each
datagram that arrives (`Flight.Readable.play`). So a stream's run reads as its run by fragments
(`StreamSetup.interleaved_read`).
-/
namespace XrDelivery

open Wire

/-- The bytes a fragment's datagram takes on the wire. -/
def Fragment.wireLength (f : Fragment) : Nat := headerSize + f.payload.toNat

theorem Fragment.length_datagram (f : Fragment) : f.datagram.length = f.wireLength := by
  simp [Fragment.datagram, Datagram.encode, Datagram.ofFragment, Fragment.wireLength]

/-- The bytes of a fragment's datagram decode back to the fragment. -/
def Fragment.ReadsBack (f : Fragment) : Prop :=
  (Datagram.decode? f.datagram).map Datagram.toFragment = some f

/-- A stream while it runs, with the fragments its datagrams in flight stand for. -/
structure FragmentFlight where
  sender : Sender
  receiver : Receiver
  channel : Channel
  queue : ArrivalQueue Fragment := {}
  senderError : Option String := none

namespace FragmentFlight

/-- Hand the receiver every fragment that has arrived by `now`, at most `fuel` of them. -/
def deliverUntil (now : Float) : Nat → FragmentFlight → FragmentFlight
  | 0, f => f
  | fuel + 1, f =>
    match f.queue.popDue now with
    | (some (arrival, frag), q) =>
      deliverUntil now fuel { f with queue := q, receiver := f.receiver.onFragment frag arrival }
    | (none, _) => f

def deliver (f : FragmentFlight) (now : Float) : FragmentFlight := f.deliverUntil now f.queue.size

/-- Put the fragments of a frame sent at `now` on the link. -/
def transmit (f : FragmentFlight) (now : Float) (frags : List Fragment) :
    Except ChannelError FragmentFlight :=
  frags.foldlM (fun f frag => do
    match ← f.channel.transmit now frag.wireLength with
    | (some arrival, ch) => pure { f with channel := ch, queue := f.queue.push arrival frag }
    | (none, ch) => pure { f with channel := ch }) f

/-- Run the sender from instant `next` while frames are due, at most `fuel` frames. -/
def play : Nat → Option Float → FragmentFlight → Except ChannelError FragmentFlight
  | 0, _, f => .ok f
  | _, none, f => .ok f
  | fuel + 1, some now, f =>
    let f := f.deliver now
    match f.sender.poll now with
    | .ok (some b, tx) => do
      play fuel b.nextSendAt (← { f with sender := tx }.transmit now b.fragments)
    | .ok (none, tx) => .ok { f with sender := tx }
    | .error (e, tx) => .ok { f with sender := tx, senderError := some e.message }

theorem transmit_cons (f : FragmentFlight) (now : Float) (frag : Fragment) (frags : List Fragment) :
    f.transmit now (frag :: frags) = f.channel.transmit now frag.wireLength >>= fun r =>
      ({ f with
        channel := r.2
        queue := (r.1.map fun a => f.queue.push a frag).getD f.queue } : FragmentFlight).transmit
          now frags := by
  unfold transmit
  rw [List.foldlM_cons]
  simp only [bind, Except.bind]
  cases f.channel.transmit now frag.wireLength with
  | error e => rfl
  | ok r =>
    obtain ⟨arr, ch⟩ := r
    cases arr <;> rfl

end FragmentFlight

theorem Sender.readsBack_of_poll {s s' : Sender} {now : Float} {b : Burst}
    (h : s.poll now = .ok (some b, s')) : ∀ frag ∈ b.fragments, frag.ReadsBack := by
  intro frag hfrag
  have hc := (Frame.carries_of_mem_fragments (Sender.poll_eq_burst h).2.1 hfrag).1
  exact Wire.decode?_encode_ofFragment frag hc.count_ne_zero hc.index_lt hc.payload_ne_zero

/-! ### Reading the datagrams in flight -/

/-- The fragment a datagram in flight stands for, at its arrival instant, if it decodes. -/
def readEntry (p : Float × List UInt8) : Option (Float × Fragment) :=
  (Datagram.decode? p.2).map fun d => (p.1, d.toFragment)

/-- Every datagram of a list decodes. -/
def Decodes (l : List (Float × List UInt8)) : Prop := ∀ p ∈ l, (Datagram.decode? p.2).isSome

theorem readEntry_datagram {frag : Fragment} (h : frag.ReadsBack) (x : Float) :
    readEntry (x, frag.datagram) = some (x, frag) := by
  obtain ⟨d, hd, rfl⟩ := Option.map_eq_some_iff.mp h
  simp [readEntry, hd]

theorem Decodes.readEntry_cons {t : Float} {bytes : List UInt8} {l : List (Float × List UInt8)}
    (h : Decodes ((t, bytes) :: l)) : ∃ d, Datagram.decode? bytes = some d ∧
      (((t, bytes) :: l).filterMap readEntry) = (t, d.toFragment) :: l.filterMap readEntry := by
  obtain ⟨d, hd⟩ := Option.isSome_iff_exists.mp (h (t, bytes) List.mem_cons_self)
  exact ⟨d, hd, by simp [readEntry, hd]⟩

theorem Decodes.tail {p : Float × List UInt8} {l : List (Float × List UInt8)}
    (h : Decodes (p :: l)) : Decodes l :=
  fun q hq => h q (List.mem_cons_of_mem p hq)

/-- Reading datagrams that all decode commutes with inserting one more that reads back. -/
theorem filterMap_readEntry_insertByArrival {l : List (Float × List UInt8)} (hl : Decodes l)
    (x : Float) {frag : Fragment} (hfrag : frag.ReadsBack) :
    (insertByArrival x frag.datagram l).filterMap readEntry =
      insertByArrival x frag (l.filterMap readEntry) := by
  induction l with
  | nil => simp [insertByArrival, readEntry_datagram hfrag]
  | cons p l ih =>
    obtain ⟨t, bytes⟩ := p
    obtain ⟨d, hd, hread⟩ := hl.readEntry_cons
    by_cases hxt : totalKey x < totalKey t
    · simp only [insertByArrival, hxt, if_true, List.filterMap_cons, readEntry_datagram hfrag]
      rw [← List.filterMap_cons, hread, insertByArrival, if_pos hxt]
    · have hp : readEntry (t, bytes) = some (t, d.toFragment) := by simp [readEntry, hd]
      simp only [insertByArrival, hxt, if_false, List.filterMap_cons, hp, ih hl.tail, hread]

namespace Flight

/-- A stream's flight followed by its fragments: the datagrams in flight, in the order the heap
gives them out, read as fragments. -/
def read (f : Flight) : FragmentFlight :=
  { sender := f.sender, receiver := f.receiver, channel := f.channel,
    queue := ⟨f.queue.view.items.filterMap readEntry⟩, senderError := f.senderError }

@[simp] theorem sender_read (f : Flight) : f.read.sender = f.sender := rfl

@[simp] theorem receiver_read (f : Flight) : f.read.receiver = f.receiver := rfl

@[simp] theorem channel_read (f : Flight) : f.read.channel = f.channel := rfl

@[simp] theorem senderError_read (f : Flight) : f.read.senderError = f.senderError := rfl

/-- A flight whose heap is in push order and whose datagrams in flight all decode. -/
structure Readable (f : Flight) : Prop where
  inPushOrder : f.queue.InPushOrder
  decodes : Decodes f.queue.view.items

variable {f : Flight}

theorem readable_start (tx : Sender) (rx : Receiver) (ch : Channel) (err : Option String) :
    ({ sender := tx, receiver := rx, channel := ch, senderError := err } : Flight).Readable :=
  ⟨DeliveryQueue.inPushOrder_empty, by simp [Decodes]⟩

theorem read_start (tx : Sender) (rx : Receiver) (ch : Channel) (err : Option String) :
    ({ sender := tx, receiver := rx, channel := ch, senderError := err } : Flight).read =
      { sender := tx, receiver := rx, channel := ch, senderError := err } := by
  simp [read]

theorem Readable.with_sender (hf : f.Readable) (tx : Sender) (err : Option String) :
    ({ f with sender := tx, senderError := err } : Flight).Readable :=
  ⟨hf.inPushOrder, hf.decodes⟩

theorem Readable.size_read (hf : f.Readable) : f.read.queue.size = f.queue.size := by
  rw [← DeliveryQueue.size_view]
  exact List.filterMap_length_eq_length.mpr fun p hp => by simpa [readEntry] using hf.decodes p hp

theorem transmit_cons (f : Flight) (now : Float) (frag : Fragment) (frags : List Fragment) :
    f.transmit now (frag :: frags) = f.channel.transmit now frag.datagram.length >>= fun r =>
      ({ f with
        channel := r.2
        queue := (r.1.map fun a => f.queue.push a frag.datagram).getD f.queue } : Flight).transmit
          now frags := by
  unfold transmit Fragment.datagram
  rw [List.foldlM_cons]
  simp only [bind, Except.bind]
  cases f.channel.transmit now (Datagram.ofFragment frag).encode.length with
  | error e => rfl
  | ok r =>
    obtain ⟨arr, ch⟩ := r
    cases arr <;> rfl

theorem Readable.deliverUntil (now : Float) (n : Nat) (hf : f.Readable) :
    (f.deliverUntil now n).Readable ∧ (f.deliverUntil now n).read = f.read.deliverUntil now n := by
  induction n generalizing f with
  | zero => exact ⟨hf, rfl⟩
  | succ n ih =>
    obtain ⟨hord, hans, hview⟩ := hf.inPushOrder.popDue now
    have hdec := hf.decodes
    have hqueue : f.read.queue = ⟨f.queue.view.items.filterMap readEntry⟩ := rfl
    generalize f.queue.view = v at hans hview hqueue hdec
    obtain ⟨_ | ⟨⟨t, bytes⟩, rest⟩⟩ := v
    · obtain ⟨q', hq'⟩ : ∃ q', f.queue.popDue now = (none, q') := ⟨_, Prod.ext hans rfl⟩
      rw [Flight.deliverUntil, hq', FragmentFlight.deliverUntil, hqueue]
      exact ⟨hf, rfl⟩
    · obtain ⟨d, hd, hread⟩ := hdec.readEntry_cons
      rw [hread] at hqueue
      by_cases ht : t > now
      · obtain ⟨q', hq'⟩ : ∃ q', f.queue.popDue now = (none, q') :=
          ⟨_, Prod.ext (by rw [hans, ArrivalQueue.popDue_cons, if_pos ht]) rfl⟩
        rw [Flight.deliverUntil, hq', FragmentFlight.deliverUntil, hqueue, ArrivalQueue.popDue_cons,
          if_pos ht]
        exact ⟨hf, rfl⟩
      · obtain ⟨q', hq'⟩ : ∃ q', f.queue.popDue now = (some (t, bytes), q') :=
          ⟨_, Prod.ext (by rw [hans, ArrivalQueue.popDue_cons, if_neg ht]) rfl⟩
        simp only [hq', ArrivalQueue.popDue_cons, ht, if_false] at hview hord
        have hf' : ({ f with queue := q', receiver := f.receiver.onFragment d.toFragment t } :
            Flight).Readable := ⟨hord, by rw [hview]; exact hdec.tail⟩
        rw [Flight.deliverUntil, hq', FragmentFlight.deliverUntil, hqueue, ArrivalQueue.popDue_cons,
          if_neg ht]
        simp only [hd]
        refine ⟨(ih hf').1, (ih hf').2.trans ?_⟩
        simp only [read, hview]

theorem Readable.deliver (now : Float) (hf : f.Readable) :
    (f.deliver now).Readable ∧ (f.deliver now).read = f.read.deliver now := by
  rw [Flight.deliver, FragmentFlight.deliver, hf.size_read]
  exact hf.deliverUntil now _

theorem Readable.push (hf : f.Readable) {frag : Fragment} (hfrag : frag.ReadsBack) (a : Float)
    (ch : Channel) :
    ({ f with channel := ch, queue := f.queue.push a frag.datagram } : Flight).Readable ∧
      ({ f with channel := ch, queue := f.queue.push a frag.datagram } : Flight).read =
        { sender := f.sender, receiver := f.receiver, channel := ch,
          queue := f.read.queue.push a frag, senderError := f.senderError } := by
  refine ⟨⟨hf.inPushOrder.push a _, ?_⟩, ?_⟩
  · intro p hp
    rw [DeliveryQueue.view_push, ArrivalQueue.items_push] at hp
    rcases List.mem_cons.mp ((insertByArrival_perm _ _ _).subset hp) with rfl | hp
    · exact Option.isSome_iff_exists.mpr ⟨_, (Option.map_eq_some_iff.mp hfrag).choose_spec.1⟩
    · exact hf.decodes p hp
  · simp only [read, DeliveryQueue.view_push, ArrivalQueue.push,
      filterMap_readEntry_insertByArrival hf.decodes a hfrag]

/-- Sending fragments that read back from a readable flight queues their datagrams where its
fragment flight queues the fragments, and leaves a readable flight. -/
theorem Readable.transmit (now : Float) {frags : List Fragment}
    (hfrags : ∀ frag ∈ frags, frag.ReadsBack) (hf : f.Readable) :
    (f.transmit now frags).map read = f.read.transmit now frags ∧
      ∀ f', f.transmit now frags = .ok f' → f'.Readable := by
  induction frags generalizing f with
  | nil => exact ⟨rfl, fun f' h => by cases h; exact hf⟩
  | cons frag frags ih =>
    have hrest : ∀ g ∈ frags, g.ReadsBack := fun g hg => hfrags g (List.mem_cons_of_mem _ hg)
    rw [transmit_cons, FragmentFlight.transmit_cons, ← Fragment.length_datagram]
    simp only [sender_read, receiver_read, channel_read, senderError_read]
    cases f.channel.transmit now frag.datagram.length with
    | error e => exact ⟨rfl, fun _ h => nomatch h⟩
    | ok r =>
      obtain ⟨arr, ch⟩ := r
      simp only [bind, Except.bind]
      cases arr with
      | none =>
        simp only [Option.map_none, Option.getD_none]
        exact ih hrest ⟨hf.inPushOrder, hf.decodes⟩
      | some a =>
        obtain ⟨hf₁, hread₁⟩ := hf.push (hfrags frag List.mem_cons_self) a ch
        simp only [Option.map_some, Option.getD_some]
        have := ih hrest hf₁
        rwa [hread₁] at this

theorem Readable.play (fuel : Nat) (next : Option Float) (hf : f.Readable) :
    (f.play fuel next).map read = f.read.play fuel next ∧
      ∀ f', f.play fuel next = .ok f' → f'.Readable := by
  induction fuel generalizing next f with
  | zero => exact ⟨rfl, fun f' h => by cases h; exact hf⟩
  | succ fuel ih =>
    cases next with
    | none => exact ⟨rfl, fun f' h => by cases h; exact hf⟩
    | some now =>
      obtain ⟨hd, hdread⟩ := hf.deliver now
      simp only [Flight.play, FragmentFlight.play, ← hdread]
      generalize f.deliver now = g at hd ⊢
      simp only [sender_read, receiver_read, channel_read, senderError_read]
      cases hpoll : g.sender.poll now with
      | error r =>
        obtain ⟨e, tx⟩ := r
        exact ⟨rfl, fun f' h => by cases h; exact hd.with_sender tx _⟩
      | ok r =>
        obtain ⟨_ | b, tx⟩ := r
        · exact ⟨rfl, fun f' h => by cases h; exact hd.with_sender tx _⟩
        · obtain ⟨htr, htr'⟩ := (hd.with_sender tx g.senderError).transmit now
            (Sender.readsBack_of_poll hpoll)
          have hfr : ({ sender := tx, receiver := g.receiver, channel := g.channel,
                        queue := g.read.queue, senderError := g.senderError } : FragmentFlight) =
              ({ g with sender := tx } : Flight).read := rfl
          dsimp only
          rw [hfr, ← htr]
          cases htx : ({ g with sender := tx } : Flight).transmit now b.fragments with
          | error e => exact ⟨rfl, fun _ h => nomatch h⟩
          | ok f₂ =>
            simp only [bind, Except.bind, Except.map]
            exact ih b.nextSendAt (htr' f₂ htx)

theorem Readable.play_deliver (fuel : Nat) (next : Option Float) (hf : f.Readable) (now : Float) :
    ((f.play fuel next).map (·.deliver now)).map read =
      (f.read.play fuel next).map (·.deliver now) := by
  obtain ⟨hplay, hready⟩ := hf.play fuel next
  rw [← hplay]
  cases h : f.play fuel next with
  | error e => rfl
  | ok f' => exact congrArg Except.ok ((hready f' h).deliver now).2

end Flight

/-! ### A stream's run, followed by fragments -/

namespace StreamSetup

variable (s : StreamSetup) (dir : Directory)

/-- The flight of a stream run as `StreamSetup.run` runs it, once its sender is done and every
datagram in flight has arrived. -/
def interleaved : Except ChannelError Flight :=
  let (next, f) := s.launch (s.sender.start 0.0 dir)
  (Flight.play (s.sender.catalog.size + 2) next f).map (·.deliver (1.0 / 0.0))

/-- The same run followed by the fragments its datagrams stand for. -/
def fragmentRun : Except ChannelError FragmentFlight :=
  let (next, f) : Option Float × FragmentFlight :=
    match s.sender.start 0.0 dir with
    | .ok (first, tx) => (first, { sender := tx, receiver := s.receiver, channel := s.channel })
    | .error e => (none, { sender := s.sender, receiver := s.receiver, channel := s.channel,
                           senderError := some e.message })
  (FragmentFlight.play (s.sender.catalog.size + 2) next f).map (·.deliver (1.0 / 0.0))

/-- What a stream reports from its final flight: the receiver is finalized with the aggregator
and its events drained. -/
def finish (f : FragmentFlight) (agg : Aggregator) : StreamReport × Aggregator :=
  let (outcome, rx, agg) := f.receiver.finalize agg
  let (events, rx) := rx.drain
  ({ index := s.index, name := s.user.name, level := s.user.level, catalog := s.catalog,
     quality := outcome.quality, sender := f.sender.stats, receiver := rx.stats,
     channel := f.channel.stats, senderError := f.senderError,
     records := events.map ReceiverEvent.record }, agg)

theorem interleaved_read : (s.interleaved dir).map Flight.read = s.fragmentRun dir := by
  unfold interleaved fragmentRun launch
  cases s.sender.start 0.0 dir with
  | error e =>
    dsimp only
    rw [(Flight.readable_start _ _ _ _).play_deliver, Flight.read_start]
  | ok r =>
    dsimp only
    rw [(Flight.readable_start _ _ _ _).play_deliver, Flight.read_start]

theorem run_eq (agg : Aggregator) :
    s.run dir agg = ((s.fragmentRun dir).mapError fun _ => RunError.channelOverflow s.user.name).map
      (s.finish · agg) := by
  rw [← interleaved_read]
  unfold run runFrom interleaved launch
  cases s.sender.start 0.0 dir with
  | error e =>
    dsimp only
    cases Flight.play (s.sender.catalog.size + 2) none _ <;> rfl
  | ok r =>
    dsimp only
    cases Flight.play (s.sender.catalog.size + 2) r.1 _ <;> rfl

end StreamSetup

end XrDelivery
