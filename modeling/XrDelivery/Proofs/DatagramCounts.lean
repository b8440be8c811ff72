import Mathlib
import XrDelivery.Proofs.TwoPhaseRun
import XrDelivery.Proofs.ReceiverCounters
import XrDelivery.Proofs.FrameEvents

/-!
# Datagrams counted along a stream

Every fragment the sender cuts is offered to the channel as one datagram, which the channel
drops or delivers; a delivered datagram reaches the receiver once the stream ends. So the
counts of the three agree: the fragments sent are the datagrams offered, these split into the
dropped and the delivered ones, and the delivered ones into the fragments the receiver
accepted and its duplicates. No fragment sent has a count of zero, so none is malformed. The
bytes delivered are the header and payload of each delivered datagram.

When the frames a sender emits carry distinct numbers, each frame's fragments are distinct and
announce the frame's own fragment count, so no frame ever holds more than it announced: nothing
is a duplicate, no count disagrees, and the receiver accepts every datagram delivered.

The invariant of the running stream (`FragmentFlight.Counted`) names the fragments sent so far and the
datagrams delivered so far, those handed to the receiver and those still in flight.
-/

namespace XrDelivery

open Wire

/-! ### What one send counts -/

theorem toNat_addToWord {a c : UInt64} {b : Nat} (h : addToWord a b = .ok c) :
    c.toNat = a.toNat + b := by
  unfold addToWord at h
  split at h
  · rename_i hlt
    cases h
    have hlt' : a.toNat + b < 2 ^ 64 := hlt
    rw [UInt64.toNat_add, Nat.toUInt64_eq, UInt64.toNat_ofNat']
    omega
  · cases h

theorem eq_toUInt64_of_toNat_eq {x : UInt64} {n : Nat} (h : x.toNat = n) : x = n.toUInt64 := by
  rw [← h, Nat.toUInt64_eq, UInt64.ofNat_toNat]

namespace Channel

variable {ch ch' : Channel} {now : Float} {len : Nat} {arr : Option Float}

/-- A send counts one datagram offered, and either one dropped or one delivered with its
bytes; `arr.toList.length` is one when the datagram arrives. -/
theorem transmit_counts (h : ch.transmit now len = .ok (arr, ch')) :
    ch'.stats.offered.toNat = ch.stats.offered.toNat + 1 ∧
    ch'.stats.dropped.toNat + arr.toList.length = ch.stats.dropped.toNat + 1 ∧
    ch'.stats.delivered.toNat = ch.stats.delivered.toNat + arr.toList.length ∧
    ch'.stats.bytesDelivered.toNat = ch.stats.bytesDelivered.toNat + arr.toList.length * len := by
  unfold Channel.transmit at h
  obtain ⟨offered, hoff, h⟩ := exists_of_bind_eq_ok h
  dsimp only at h
  obtain ⟨ser, -, h⟩ := exists_of_bind_eq_ok h
  have hoff' := toNat_addToWord hoff
  split at h
  · obtain ⟨dropped, hdrop, h⟩ := exists_of_bind_eq_ok h
    cases h
    have hdrop' := toNat_addToWord hdrop
    exact ⟨hoff', by simpa using hdrop', by simp, by simp⟩
  · obtain ⟨delivered, hdel, h⟩ := exists_of_bind_eq_ok h
    obtain ⟨bytes, hbytes, h⟩ := exists_of_bind_eq_ok h
    cases h
    have hdel' := toNat_addToWord hdel
    have hbytes' := toNat_addToWord hbytes
    exact ⟨hoff', by simp, by simpa using hdel', by simpa using hbytes'⟩

variable {α : Type} (len : α → Nat)

/-- Sends in a row count every datagram offered, and each one as dropped or delivered; the bytes
delivered are the lengths of the datagrams that arrive. -/
theorem transmitAll_counts {xs w : List (Float × α)} (h : ch.transmitAll len xs = .ok (w, ch')) :
    ch'.stats.offered.toNat = ch.stats.offered.toNat + xs.length ∧
    ch'.stats.dropped.toNat + w.length = ch.stats.dropped.toNat + xs.length ∧
    ch'.stats.delivered.toNat = ch.stats.delivered.toNat + w.length ∧
    ch'.stats.bytesDelivered.toNat = ch.stats.bytesDelivered.toNat + (w.map (len ·.2)).sum := by
  induction xs generalizing ch w with
  | nil =>
    cases h
    simp
  | cons p xs ih =>
    obtain ⟨⟨arr, ch₁⟩, u, hr, hu, rfl⟩ := transmitAll_cons_eq_ok len h
    dsimp only at hu
    obtain ⟨ho₁, hd₁, hv₁, hb₁⟩ := transmit_counts hr
    obtain ⟨ho₂, hd₂, hv₂, hb₂⟩ := ih hu
    have hlen : ((arr.map fun a => (a, p.2)).toList ++ u).length = arr.toList.length + u.length := by
      cases arr <;> simp [Nat.add_comm]
    have hsum : (((arr.map fun a => (a, p.2)).toList ++ u).map (len ·.2)).sum =
        arr.toList.length * len p.2 + (u.map (len ·.2)).sum := by
      cases arr <;> simp
    rw [hlen, hsum, List.length_cons]
    omega

end Channel

/-! ### What the sender counts -/

namespace Sender

variable {s s' : Sender} {now : Float}

theorem fragmentsSent_poll {b? : Option Burst} (h : s.poll now = .ok (b?, s')) :
    s'.stats.fragmentsSent =
      s.stats.fragmentsSent + ((b?.map fun b : Burst => b.fragments.length).getD 0).toUInt64 := by
  unfold Sender.poll Sender.emit at h
  split at h
  · cases h
    simp
  · split at h
    · cases h
      simp
    · dsimp only at h
      split at h
      · cases h
        simp
      · split at h
        · cases h
          simp
        · split at h
          · cases h
          · cases h
            rfl

theorem fragmentsSent_poll_error {e : SetupError} (h : s.poll now = .error (e, s')) :
    s'.stats.fragmentsSent = s.stats.fragmentsSent := by
  unfold Sender.poll Sender.emit at h
  split at h
  · cases h
  · split at h
    · cases h
    · dsimp only at h
      split at h
      · cases h
      · split at h
        · cases h
        · split at h
          · cases h
            rfl
          · cases h

theorem fragmentsSent_runFor (fuel : Nat) (next : Option Float) (s : Sender) :
    (s.runFor fuel next).2.1.stats.fragmentsSent =
      s.stats.fragmentsSent + (fragmentsOf (s.runFor fuel next).1).length.toUInt64 := by
  induction fuel generalizing s next with
  | zero => simp [runFor, fragmentsOf]
  | succ fuel ih =>
    cases next with
    | none => simp [fragmentsOf]
    | some now =>
      cases hpoll : s.poll now with
      | error r =>
        obtain ⟨e, s'⟩ := r
        rw [runFor_of_poll_error fuel hpoll]
        simp [fragmentsOf, fragmentsSent_poll_error hpoll]
      | ok r =>
        obtain ⟨b?, s'⟩ := r
        cases b? with
        | none =>
          rw [runFor_of_poll_none fuel hpoll]
          simpa [fragmentsOf] using fragmentsSent_poll hpoll
        | some b =>
          rw [runFor_of_poll_some fuel hpoll]
          dsimp only
          rw [ih, fragmentsSent_poll hpoll]
          simp [fragmentsOf, UInt64.add_assoc]

end Sender

/-! ### Arrivals that fit their counts -/

/-- A run of arrivals in which every fragment announces a positive count, the same as every
other fragment of its frame, and no frame arrives more often than that count. -/
def FitsCounts (evs : List (Fragment × Float)) : Prop :=
  ∀ e ∈ evs, e.1.count ≠ 0 ∧ (arrivalsOf e.1.frameSeq evs).length ≤ e.1.count.toNat ∧
    ∀ e' ∈ evs, e'.1.frameSeq = e.1.frameSeq → e'.1.count = e.1.count

theorem FitsCounts.count_eq {evs : List (Fragment × Float)} (hfit : FitsCounts evs)
    {e g : Fragment × Float} (he : e ∈ evs) (hg : g ∈ arrivalsOf e.1.frameSeq evs) :
    g.1.count = e.1.count := by
  simp only [arrivalsOf, List.mem_filter, Bool.and_eq_true, beq_iff_eq] at hg
  exact (hfit e he).2.2 g hg.1 hg.2.1

theorem FitsCounts.of_append_singleton {evs : List (Fragment × Float)} {e : Fragment × Float}
    (h : FitsCounts (evs ++ [e])) : FitsCounts evs := by
  intro e' he'
  obtain ⟨hc, hlen, hsame⟩ := h e' (List.mem_append_left _ he')
  have hsub : (arrivalsOf e'.1.frameSeq evs).Sublist (arrivalsOf e'.1.frameSeq (evs ++ [e])) :=
    (List.sublist_append_left evs [e]).filter _
  exact ⟨hc, hsub.length_le.trans hlen, fun e'' he'' => hsame e'' (List.mem_append_left _ he'')⟩

theorem FrameState.isDuplicate_absorbStatus_ofArrivals (d : Deadline) (f : Fragment) (a : Float)
    {as : List (Fragment × Float)} (h : ∀ g ∈ as.head?, as.length < g.1.count.toNat) :
    (FrameState.absorbStatus d f a (FrameState.ofArrivals d as)).isDuplicate = false := by
  match as, h with
  | [], _ =>
    simp only [FrameState.ofArrivals, FrameState.absorbStatus]
    split <;> rfl
  | (g, b) :: rest, h =>
    have hlt : rest.length + 1 < g.count.toNat := by simpa using h (g, b) rfl
    have hnone : ((g, b) :: rest)[g.count.toNat - 1]? = none :=
      List.getElem?_eq_none (by simp only [List.length_cons]; omega)
    have hfull : ¬(min (rest.length + 1) g.count.toNat).toUInt16 ≥ g.count := by
      have hmin : min (rest.length + 1) g.count.toNat = rest.length + 1 := by omega
      have hcount := g.count.toNat_lt
      rw [hmin, ge_iff_le, UInt16.le_iff_toNat_le, Nat.toUInt16_eq, UInt16.toNat_ofNat',
        Nat.mod_eq_of_lt (by omega)]
      omega
    simp only [FrameState.ofArrivals, hnone, FrameState.absorbStatus, FrameState.isComplete,
      FrameState.first, Option.isSome_none, Bool.false_or, decide_eq_true_eq, hfull, if_false]
    split <;> rfl

namespace Receiver

variable {r : Receiver} {d : Deadline}

theorem duplicateFragments_receiveAll (h : r.outcome = none) (hr : r.CountersAgree d [])
    (hdup : r.stats.duplicateFragments = 0) (evs : List (Fragment × Float)) (hfit : FitsCounts evs) :
    (r.receiveAll evs).stats.duplicateFragments = 0 := by
  induction evs using List.reverseRecOn with
  | nil => exact hdup
  | append_singleton evs e ih =>
    have hagree := hr.receiveAll h evs
    obtain ⟨hc, hlen, -⟩ := hfit e (List.mem_append_right _ List.mem_cons_self)
    have hbefore : ∀ g ∈ (arrivalsOf e.1.frameSeq evs).head?,
        (arrivalsOf e.1.frameSeq evs).length < g.1.count.toNat := by
      intro g hg
      have hg' : g ∈ arrivalsOf e.1.frameSeq (evs ++ [e]) :=
        ((List.sublist_append_left evs [e]).filter _).subset (List.mem_of_mem_head? hg)
      rw [hfit.count_eq (List.mem_append_right _ List.mem_cons_self) hg']
      rw [arrivalsOf_append_singleton, if_pos ⟨rfl, hc⟩, List.length_append,
        List.length_singleton] at hlen
      omega
    have hstatus : ((r.receiveAll evs).tracker.ingest e.1 e.2).1.status.isDuplicate = false := by
      rw [Tracker.ingest_status _ _ _ hc, hagree.tracker_eq, Tracker.get?_ingestAll_new,
        Tracker.deadline_ingestAll]
      exact FrameState.isDuplicate_absorbStatus_ofArrivals _ _ _ hbefore
    obtain ⟨-, hdup', -⟩ := stats_onFragment (f := e.1) (a := e.2)
      (show (r.receiveAll evs).outcome = none by rw [outcome_receiveAll, h])
    rw [receiveAll_append_singleton, hdup', ih hfit.of_append_singleton, hstatus]
    rfl

variable {c : ReceiverConfig} {agg agg' : Aggregator} {evs : List (Fragment × Float)}

/-- A new receiver that takes in fragments of positive count finds none malformed, and counts
each as received or as a duplicate. -/
theorem counts_receiveAll_new (hnew : Receiver.new c agg = .ok (r, agg'))
    (hpos : ∀ e ∈ evs, e.1.count ≠ 0) :
    (r.receiveAll evs).stats.malformedFragments = 0 ∧
      (r.receiveAll evs).stats.duplicateFragments + (r.receiveAll evs).stats.fragmentsReceived =
        evs.length.toUInt64 := by
  obtain ⟨-, -, hout, -⟩ := new_eq_ok hnew
  have hr := (countersAgree_of_new hnew).receiveAll hout evs
  have hmal : (r.receiveAll evs).stats.malformedFragments = 0 := by
    rw [hr.malformed_eq, List.countP_eq_zero.mpr fun e he => by simpa using hpos e he]
    rfl
  have hsum := hr.partition
  rw [hmal, UInt64.zero_add] at hsum
  exact ⟨hmal, hsum⟩

/-- A new receiver that takes in a run fitting its counts meets no duplicate and no
disagreeing count: it receives every fragment. -/
theorem fits_receiveAll_new (hnew : Receiver.new c agg = .ok (r, agg')) (hfit : FitsCounts evs) :
    (r.receiveAll evs).stats.duplicateFragments = 0 ∧
      (r.receiveAll evs).stats.inconsistentFragmentCounts = 0 ∧
      (r.receiveAll evs).stats.fragmentsReceived = evs.length.toUInt64 := by
  obtain ⟨-, hr₀, -⟩ := new_eq_ok_iff.mp hnew
  obtain ⟨-, -, hout, -⟩ := new_eq_ok hnew
  have hr := (countersAgree_of_new hnew).receiveAll hout evs
  have hdup := duplicateFragments_receiveAll hout (countersAgree_of_new hnew) (by rw [hr₀])
    evs hfit
  have hagree : ∀ e ∈ evs, countDisagrees evs e = false := by
    intro e he
    have hc := (hfit e he).1
    have hmem : e ∈ arrivalsOf e.1.frameSeq evs := by simp [arrivalsOf, he, hc]
    obtain ⟨g, rest, hgr⟩ := List.exists_cons_of_ne_nil (List.ne_nil_of_mem hmem)
    have hg := hfit.count_eq he (hgr ▸ List.mem_cons_self)
    simp [countDisagrees, hgr, hg]
  refine ⟨hdup, ?_, ?_⟩
  · rw [hr.inconsistent_eq, List.countP_eq_zero.mpr fun e he => by simp [hagree e he]]
    rfl
  · have hsum := (counts_receiveAll_new hnew fun e he => (hfit e he).1).2
    rwa [hdup, UInt64.zero_add] at hsum

end Receiver

theorem WellCut.fitsCounts {bursts : List (Float × Burst)} (hw : WellCut bursts)
    {evs : List (Fragment × Float)} (hsub : (evs.map Prod.fst).Subperm (fragmentsOf bursts)) :
    FitsCounts evs := by
  intro e he
  obtain ⟨b, hb, hfb⟩ := mem_fragmentsOf.mp (hsub.subset (List.mem_map_of_mem he))
  obtain ⟨hcar, hcount⟩ := hw.carries b hb e.1 hfb
  have hof : ∀ g ∈ evs, g.1.frameSeq = e.1.frameSeq → g.1 ∈ b.2.fragments := fun g hg hseq =>
    hw.mem_fragments_of_frameSeq hb (hsub.subset (List.mem_map_of_mem hg))
      (hseq.trans hcar.frameSeq_eq)
  refine ⟨hcar.count_ne_zero, ?_, fun g hg hseq => ?_⟩
  · have hnodup : ((arrivalsOf e.1.frameSeq evs).map Prod.fst).Nodup :=
      (List.filter_sublist.map Prod.fst).nodup (nodup_of_subperm hsub hw.nodup_sent)
    have hsubset : (arrivalsOf e.1.frameSeq evs).map Prod.fst ⊆ b.2.fragments := by
      intro g hg
      obtain ⟨p, hp, rfl⟩ := List.mem_map.mp hg
      simp only [arrivalsOf, List.mem_filter, Bool.and_eq_true, beq_iff_eq] at hp
      exact hof p hp.1 hp.2.1
    have hle := hnodup.length_le_of_subset hsubset
    rw [List.length_map] at hle
    omega
  · have hgcount := (hw.carries b hb g.1 (hof g hg hseq)).2
    exact UInt16.toNat_inj.mp (hgcount.trans hcount.symm)


/-! ### The counts of a running stream -/

namespace FragmentFlight

/-- A flight against the fragments `S` sent and the datagrams `D` delivered so far, after its
receiver took in `H` from `r₀`: `D` is handed over or in flight, and the channel offered every
fragment of `S`, delivered `D`, dropped the rest and counted the bytes delivered. -/
structure Counted (r₀ : Receiver) (S : List Fragment) (D H : List (Float × Fragment)) (f : FragmentFlight) :
    Prop where
  handed : (H ++ f.queue.items).Perm D
  receiver_eq : f.receiver = r₀.receiveAll (H.map Prod.swap)
  offered : f.channel.stats.offered.toNat = S.length
  dropped : f.channel.stats.dropped.toNat + D.length = S.length
  delivered : f.channel.stats.delivered.toNat = D.length
  bytes : f.channel.stats.bytesDelivered.toNat = (D.map (·.2.wireLength)).sum
  sent : (D.map Prod.snd).Subperm S

variable {r₀ : Receiver} {S : List Fragment} {D H : List (Float × Fragment)} {f : FragmentFlight}

theorem counted_start {ch : Channel} (hch : ch.stats = {}) (tx : Sender) (err : Option String) :
    Counted r₀ [] [] [] { sender := tx, receiver := r₀, channel := ch, senderError := err } := by
  constructor <;> simp [hch]

theorem Counted.with_sender (hc : f.Counted r₀ S D H) (tx : Sender) (err : Option String) :
    ({ f with sender := tx, senderError := err } : FragmentFlight).Counted r₀ S D H :=
  ⟨hc.handed, hc.receiver_eq, hc.offered, hc.dropped, hc.delivered, hc.bytes, hc.sent⟩

theorem Counted.deliver (hc : f.Counted r₀ S D H) (now : Float) :
    (f.deliver now).Counted r₀ S D (H ++ f.queue.items.takeWhile (ArrivedBy now)) := by
  rw [deliver_eq]
  refine ⟨?_, ?_, hc.offered, hc.dropped, hc.delivered, hc.bytes, hc.sent⟩
  · show (H ++ _ ++ f.queue.items.dropWhile (ArrivedBy now)).Perm D
    rw [List.append_assoc, List.takeWhile_append_dropWhile]
    exact hc.handed
  · show f.receiver.receiveAll _ = _
    rw [hc.receiver_eq, List.map_append, Receiver.receiveAll, Receiver.receiveAll,
      Receiver.receiveAll, List.foldl_append]

/-- The fragments of a frame put on the link at `now` are offered, and those that arrive join
the delivered ones and the queue. -/
theorem Counted.transmit (hc : f.Counted r₀ S D H) {now : Float} {frags : List Fragment}
    {w : List (Float × Fragment)} {ch : Channel}
    (hw : f.channel.transmitAll Fragment.wireLength (frags.map (now, ·)) = .ok (w, ch)) :
    ({ f with
        channel := ch
        queue := ⟨w.foldl (fun q p => insertByArrival p.1 p.2 q) f.queue.items⟩ } : FragmentFlight).Counted
      r₀ (S ++ frags) (D ++ w) H := by
  obtain ⟨ho, hd, hv, hb⟩ := Channel.transmitAll_counts _ hw
  have hsub : (w.map Prod.snd).Sublist frags := by
    simpa [List.map_map, Function.comp_def] using Channel.transmitAll_sublist _ hw
  have hlen : (frags.map (now, ·)).length = frags.length := List.length_map _
  refine ⟨?_, hc.receiver_eq, ?_, ?_, ?_, ?_, ?_⟩
  · show (H ++ w.foldl _ f.queue.items).Perm (D ++ w)
    refine ((foldl_insertByArrival_perm w f.queue.items).append_left H).trans ?_
    rw [← List.append_assoc]
    exact hc.handed.append_right w
  · show ch.stats.offered.toNat = _
    rw [ho, hlen, hc.offered, List.length_append]
  · show ch.stats.dropped.toNat + _ = _
    have := hc.dropped
    rw [hlen] at hd
    simp only [List.length_append] at this ⊢
    omega
  · show ch.stats.delivered.toNat = _
    rw [hv, hc.delivered, List.length_append]
  · show ch.stats.bytesDelivered.toNat = _
    rw [hb, hc.bytes, List.map_append, List.sum_append]
  · rw [List.map_append]
    exact hc.sent.append hsub.subperm

/-- Played to its end, a counted flight stays counted: the fragments of every frame the sender's
polls send join those sent, and the sender ends as it ends when polled on its own. -/
theorem Counted.play (fuel : Nat) (next : Option Float) (hc : f.Counted r₀ S D H) {f' : FragmentFlight}
    (h : play fuel next f = .ok f') :
    ∃ D' H', f'.Counted r₀ (S ++ fragmentsOf (f.sender.runFor fuel next).1) D' H' ∧
      f'.sender = (f.sender.runFor fuel next).2.1 := by
  induction fuel generalizing next f S D H with
  | zero =>
    cases h
    exact ⟨D, H, by simpa [Sender.runFor, fragmentsOf] using hc, by simp [Sender.runFor]⟩
  | succ fuel ih =>
    cases next with
    | none =>
      cases h
      exact ⟨D, H, by simpa [fragmentsOf] using hc, by simp⟩
    | some now =>
      have hc₁ := hc.deliver now
      simp only [play, sender_deliver] at h
      cases hpoll : f.sender.poll now with
      | error r =>
        obtain ⟨e, tx⟩ := r
        rw [hpoll] at h
        cases h
        rw [Sender.runFor_of_poll_error fuel hpoll]
        exact ⟨D, _, by simpa [fragmentsOf] using hc₁.with_sender tx (some e.message), rfl⟩
      | ok r =>
        obtain ⟨b?, tx⟩ := r
        rw [hpoll] at h
        cases b? with
        | none =>
          cases h
          rw [Sender.runFor_of_poll_none fuel hpoll]
          exact ⟨D, _, by simpa [fragmentsOf] using
            hc₁.with_sender tx (f.deliver now).senderError, rfl⟩
        | some b =>
          obtain ⟨f₁, hf₁, h⟩ := exists_of_bind_eq_ok h
          rw [transmit_eq] at hf₁
          obtain ⟨⟨w, ch⟩, hw, rfl⟩ := exists_of_map_eq_ok hf₁
          have hw' : ({ f.deliver now with sender := tx }).channel.transmitAll Fragment.wireLength
              (b.fragments.map (now, ·)) = .ok (w, ch) := by simpa using hw
          have hc₂ := (hc₁.with_sender tx (f.deliver now).senderError).transmit hw'
          obtain ⟨D', H', hc', hsender⟩ := ih b.nextSendAt hc₂ h
          rw [Sender.runFor_of_poll_some fuel hpoll]
          refine ⟨D', H', ?_, hsender⟩
          simpa [fragmentsOf, List.append_assoc] using hc'

theorem queue_deliver_infinity (f : FragmentFlight) : (f.deliver (1.0 / 0.0)).queue.items = [] := by
  rw [deliver_eq]
  exact List.dropWhile_eq_nil_iff.mpr fun p _ => by simp [ArrivedBy, not_infinity_lt]

/-- A flight played from nothing counted to its end, with every datagram in flight delivered:
the receiver took in each datagram delivered once. -/
theorem Counted.play_deliver (hc : f.Counted r₀ [] [] []) {fuel : Nat} {next : Option Float}
    {f' : FragmentFlight} (h : FragmentFlight.play fuel next f = .ok f') :
    ∃ D H, (f'.deliver (1.0 / 0.0)).Counted r₀ (fragmentsOf (f.sender.runFor fuel next).1) D H ∧
      H.Perm D ∧ (f'.deliver (1.0 / 0.0)).sender = (f.sender.runFor fuel next).2.1 := by
  obtain ⟨D, H, hc', hsender⟩ := hc.play fuel next h
  have hend := hc'.deliver (1.0 / 0.0)
  rw [List.nil_append] at hend
  refine ⟨D, _, hend, ?_, by rw [sender_deliver, hsender]⟩
  simpa [queue_deliver_infinity] using hend.handed

end FragmentFlight

theorem sum_map_wireLength (l : List Fragment) :
    (l.map Fragment.wireLength).sum = headerSize * l.length + (l.map (·.payload.toNat)).sum := by
  induction l with
  | nil => rfl
  | cons f l ih =>
    simp only [List.map_cons, List.sum_cons, ih, List.length_cons, Fragment.wireLength]
    ring

/-! ### The counts a stream reports -/

/-- What the counts of a stream's report owe to the fragments `sent` and those `delivered`: each
sent one offered, each offered one dropped or delivered, each delivered one received or a
duplicate, and a 32-byte header and the payload per delivered datagram. -/
structure StreamReport.CountsDatagrams (sent delivered : List Fragment) (r : StreamReport) :
    Prop where
  fragmentsSent_eq : r.sender.fragmentsSent = r.channel.offered
  offered_eq : r.channel.offered.toNat = sent.length
  offered_split : r.channel.offered.toNat = r.channel.dropped.toNat + r.channel.delivered.toNat
  delivered_eq : r.channel.delivered.toNat = delivered.length
  delivered_sent : delivered.Subperm sent
  received_split : r.channel.delivered = r.receiver.fragmentsReceived + r.receiver.duplicateFragments
  malformed_eq : r.receiver.malformedFragments = 0
  bytes_eq : r.channel.bytesDelivered.toNat =
    32 * r.channel.delivered.toNat + (delivered.map (·.payload.toNat)).sum

namespace StreamSetup

/-- A stream as it is set up: its sender and channel have counted nothing, and its receiver is
new. -/
structure Fresh (s : StreamSetup) : Prop where
  sender_stats : s.sender.stats = {}
  channel_stats : s.channel.stats = {}
  receiver_new : ∃ c agg agg', Receiver.new c agg = .ok (s.receiver, agg')

variable {s : StreamSetup} {dir : Directory}

theorem fragmentsSent_bursts :
    (s.bursts dir).2.1.stats.fragmentsSent =
      s.sender.stats.fragmentsSent + (fragmentsOf (s.bursts dir).1).length.toUInt64 := by
  unfold bursts
  cases hstart : s.sender.start 0.0 dir with
  | error e => simp [fragmentsOf]
  | ok r =>
    obtain ⟨first, tx⟩ := r
    dsimp only
    rw [Sender.fragmentsSent_runFor, Sender.stats_start hstart]

/-- At its end a stream's flight has counted the fragments of every frame its sender sends on
its own, and its receiver took in every datagram delivered once. -/
theorem interleaved_counted (hch : s.channel.stats = {}) {f : FragmentFlight}
    (h : s.fragmentRun dir = .ok f) :
    ∃ D H, f.Counted s.receiver (fragmentsOf (s.bursts dir).1) D H ∧ H.Perm D ∧
      f.sender = (s.bursts dir).2.1 := by
  unfold fragmentRun at h
  unfold bursts
  cases hstart : s.sender.start 0.0 dir with
  | error e =>
    simp only [hstart] at h
    obtain ⟨f₀, hplay, rfl⟩ := exists_of_map_eq_ok h
    simpa using (FragmentFlight.counted_start hch s.sender (some e.message)).play_deliver hplay
  | ok r =>
    obtain ⟨first, tx⟩ := r
    simp only [hstart] at h
    obtain ⟨f₀, hplay, rfl⟩ := exists_of_map_eq_ok h
    exact (FragmentFlight.counted_start hch tx none).play_deliver hplay

/-- The counts a fresh stream reports, against the fragments its sender emits and the datagrams
delivered; with distinct frame numbers every delivered datagram is received. -/
theorem run_counts (hs : s.Fresh) {agg agg' : Aggregator} {r : StreamReport}
    (h : s.run dir agg = .ok (r, agg')) :
    ∃ delivered, r.CountsDatagrams (fragmentsOf (s.sender.transmit 0.0 dir)) delivered ∧
      (((s.sender.transmit 0.0 dir).map fun e => e.2.frame.seq).Nodup →
        r.receiver.duplicateFragments = 0 ∧ r.receiver.inconsistentFragmentCounts = 0 ∧
        r.receiver.fragmentsReceived = r.channel.delivered) := by
  rw [run_eq] at h
  obtain ⟨f, hf, hr⟩ := exists_of_map_eq_ok h
  obtain ⟨D, H, hc, hperm, hsender⟩ := interleaved_counted hs.channel_stats (ok_of_mapError_eq_ok hf)
  obtain ⟨c, agg₀, agg₀', hnew⟩ := hs.receiver_new
  obtain ⟨-, -, hout, -⟩ := Receiver.new_eq_ok hnew
  rw [bursts_fst] at hc
  have hrep : r.sender = f.sender.stats ∧ r.channel = f.channel.stats ∧
      r.receiver = (s.receiver.receiveAll (H.map Prod.swap)).stats := by
    cases hr
    refine ⟨rfl, rfl, ?_⟩
    show (f.receiver.finalize agg).2.1.stats = _
    rw [Receiver.stats_finalize_of_active (by rw [hc.receiver_eq, Receiver.outcome_receiveAll, hout]),
      hc.receiver_eq]
  obtain ⟨hrs, hrc, hrr⟩ := hrep
  set sent := fragmentsOf (s.sender.transmit 0.0 dir)
  have hevs : ((H.map Prod.swap).map Prod.fst).Perm (D.map Prod.snd) := by
    rw [List.map_map]
    exact hperm.map _
  have hsub : ((H.map Prod.swap).map Prod.fst).Subperm sent := hevs.subperm.trans hc.sent
  have hpos : ∀ e ∈ H.map Prod.swap, e.1.count ≠ 0 := by
    intro e he
    obtain ⟨b, hb, hfb⟩ := mem_fragmentsOf.mp (hsub.subset (List.mem_map_of_mem he))
    exact (Frame.carries_of_mem_fragments
      (Sender.fragments_of_mem_transmit _ _ _ b hb) hfb).1.count_ne_zero
  obtain ⟨hmal, hsplit⟩ := Receiver.counts_receiveAll_new hnew hpos
  have hlen : (H.map Prod.swap).length = D.length := by rw [List.length_map, hperm.length_eq]
  have hdelivered : f.channel.stats.delivered = (H.map Prod.swap).length.toUInt64 :=
    eq_toUInt64_of_toNat_eq (hc.delivered.trans hlen.symm)
  refine ⟨D.map Prod.snd, ⟨?_, ?_, ?_, ?_, hc.sent, ?_, ?_, ?_⟩, fun hnodup => ?_⟩
  · rw [hrs, hrc, hsender, fragmentsSent_bursts, hs.sender_stats, bursts_fst,
      eq_toUInt64_of_toNat_eq hc.offered]
    exact UInt64.zero_add _
  · rw [hrc]
    exact hc.offered
  · rw [hrc, hc.offered, ← hc.dropped, hc.delivered]
  · rw [hrc, hc.delivered, List.length_map]
  · rw [hrc, hrr, hdelivered, ← hsplit, UInt64.add_comm]
  · rw [hrr]
    exact hmal
  · rw [hrc, hc.bytes, hc.delivered, ← List.length_map (f := Prod.snd)]
    have hbytes := sum_map_wireLength (D.map Prod.snd)
    rw [List.map_map] at hbytes
    exact hbytes
  · have hw : WellCut (s.sender.transmit 0.0 dir) :=
      { nodup_seq := hnodup
        carries := fun e he _ hf =>
          Frame.carries_of_mem_fragments (Sender.fragments_of_mem_transmit _ _ _ e he) hf
        nodup := fun e he => Frame.nodup_fragments (Sender.fragments_of_mem_transmit _ _ _ e he)
        ne_nil := fun e he => List.ne_nil_of_length_pos
          (Frame.one_le_length_fragments (Sender.fragments_of_mem_transmit _ _ _ e he)) }
    obtain ⟨hdup, hinc, hrec⟩ := Receiver.fits_receiveAll_new hnew (hw.fitsCounts hsub)
    rw [hrr, hrc, hdelivered]
    exact ⟨hdup, hinc, hrec⟩

end StreamSetup

/-! ### Every stream of a run -/

section Run

variable {c : RunConfig} {read : FileReader}

theorem RunConfig.setupStream_fresh {agg agg' : Aggregator} {i : Nat} {u : UserConfig}
    {s : StreamSetup} (h : c.setupStream read agg i u = .ok (s, agg')) : s.Fresh := by
  unfold RunConfig.setupStream at h
  obtain ⟨cat, -, h⟩ := exists_of_bind_eq_ok h
  obtain ⟨span, -, h⟩ := exists_of_bind_eq_ok h
  obtain ⟨tl, -, h⟩ := exists_of_bind_eq_ok h
  obtain ⟨tx, htx, h⟩ := exists_of_bind_eq_ok h
  obtain ⟨⟨rx, agg₁⟩, hrx, h⟩ := exists_of_bind_eq_ok h
  cases h
  exact ⟨(Sender.valid_of_new (ok_of_mapError_eq_ok htx)).2.2.2.2, rfl,
    ⟨_, _, _, ok_of_mapError_eq_ok hrx⟩⟩

theorem RunConfig.fresh_of_setupStreams {setups : List StreamSetup} {agg : Aggregator}
    (h : c.setupStreams read = .ok (setups, agg)) : ∀ s ∈ setups, s.Fresh :=
  RunConfig.forall_of_setupStreams (fun _ _ _ _ _ _ hs => RunConfig.setupStream_fresh hs) h

/-- The results of a `mapM` that succeeds, element by element, for elements with a property. -/
theorem forall₂_of_mapM_eq_ok {α β ε : Type} {P : α → Prop} {g : α → Except ε β} :
    ∀ {l : List α} {bs : List β}, (∀ a ∈ l, P a) → l.mapM g = .ok bs →
      List.Forall₂ (fun a b => P a ∧ g a = .ok b) l bs
  | [], bs, _, h => by
    cases h
    exact .nil
  | a :: l, bs, hP, h => by
    rw [List.mapM_cons] at h
    obtain ⟨b, hb, h⟩ := exists_of_bind_eq_ok h
    obtain ⟨bs', hbs, h⟩ := exists_of_bind_eq_ok h
    cases h
    exact .cons ⟨hP a List.mem_cons_self, hb⟩
      (forall₂_of_mapM_eq_ok (fun a' ha' => hP a' (List.mem_cons_of_mem _ ha')) hbs)

/-- Datagrams are conserved along every stream's link: in a run that completes, the fragments sent
are the datagrams offered, dropped or delivered, and the delivered ones are received or duplicates,
none malformed, each a 32-byte header and its payload; distinct frame numbers leave no duplicate. -/
theorem run_conserves_datagrams {rep : RunReport} (h : c.run read = .ok rep) :
    ∃ setups agg, c.setupStreams read = .ok (setups, agg) ∧
      List.Forall₂ (fun s r =>
        ∃ delivered, r.CountsDatagrams (fragmentsOf (s.sender.transmit 0.0 c.directory)) delivered ∧
          (((s.sender.transmit 0.0 c.directory).map fun e => e.2.frame.seq).Nodup →
            r.receiver.duplicateFragments = 0 ∧ r.receiver.inconsistentFragmentCounts = 0 ∧
            r.receiver.fragmentsReceived = r.channel.delivered)) setups rep.streams := by
  rw [RunConfig.run_eq] at h
  obtain ⟨⟨setups, agg⟩, hsetup, h⟩ := exists_of_bind_eq_ok h
  obtain ⟨rs, hrs, h⟩ := exists_of_bind_eq_ok h
  cases h
  refine ⟨setups, agg, hsetup, ?_⟩
  refine (forall₂_of_mapM_eq_ok (RunConfig.fresh_of_setupStreams hsetup) hrs).imp ?_
  rintro s r ⟨hs, hr⟩
  obtain ⟨⟨r', agg'⟩, hrun, rfl⟩ := exists_of_map_eq_ok hr
  exact StreamSetup.run_counts hs hrun

theorem pairRun_conserves_datagrams :
    ∃ rep, pairRun.run oneFrameFile = .ok rep ∧
      rep.streams.map StreamReport.counts = [(3, 3, 1, 2, 0, 1, 0), (3, 3, 0, 3, 1, 0, 1)] ∧
      ∃ setups agg, pairRun.setupStreams oneFrameFile = .ok (setups, agg) ∧
        List.Forall₂ (fun s r =>
          ∃ delivered, r.CountsDatagrams
            (fragmentsOf (s.sender.transmit 0.0 pairRun.directory)) delivered ∧
            (((s.sender.transmit 0.0 pairRun.directory).map fun e => e.2.frame.seq).Nodup →
              r.receiver.duplicateFragments = 0 ∧ r.receiver.inconsistentFragmentCounts = 0 ∧
              r.receiver.fragmentsReceived = r.channel.delivered)) setups rep.streams := by
  obtain ⟨rep, hrun, hcounts⟩ := pairRun_counts
  exact ⟨rep, hrun, hcounts, run_conserves_datagrams hrun⟩

end Run

end XrDelivery
