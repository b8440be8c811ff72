import Mathlib
import XrDelivery.Proofs.DatagramCounts
import XrDelivery.Proofs.CatalogText

/-!
# Frame logs mark lost frames exactly

A frame log writes a record in its compact form (`FrameRecord.lostRow`: delay `-1`, no
metadata) exactly when the record's delay is below zero, and in full (`FrameRecord.fullRow`)
otherwise. A lost frame's record has the delay `-1`; a completed frame's delay is the time from
the sending of its first arrival to its completing arrival, in milliseconds. This module proves
that in every run of a resolved configuration that delay is zero or more, or NaN, so the log
marks exactly the lost frames, whether or not catalog rows repeat a frame number
(`frame_logs_mark_losses`).

The delay is never below zero because the receiver takes in datagrams in an order in which
every datagram arrives no earlier than every datagram before it was sent, unless it arrives at
NaN (`SentByArrival`). The delivery queue keeps datagrams in the total order of their arrival
instants, and a datagram handed over at a poll was sent by then, while one sent at a poll
arrives no earlier (`FragmentFlight.InOrder`). For doubles, a difference `b - a` of plus doubles with
`a ≤ b` is a plus double or NaN (`Float.PlusOrNaN.sub_of_le`).

Every row is free of line breaks, so the log has one line per record under its header.
-/

namespace Float.Model.UnpackedFloat

/-- Of two canonical positive doubles, the larger has the larger mantissa at the smaller
exponent. -/
theorem shiftLeft_le_of_le {m₁ m₂ : Nat} {e₁ e₂ : Int} {h₁ : 0 < m₁} {h₂ : 0 < m₂}
    (hc₁ : Canonical m₁ e₁) (hc₂ : Canonical m₂ e₂)
    (hle : (finite .positive m₁ e₁ h₁).le (finite .positive m₂ e₂ h₂) = true) :
    m₁ <<< (e₁ - min e₂ e₁).toNat ≤ m₂ <<< (e₂ - min e₂ e₁).toNat := by
  rcases le_finite_positive.mp hle with hlt | ⟨rfl, hm⟩
  · have hnorm : 2 ^ 52 ≤ m₂ := hc₂.2.2.resolve_right (by have := hc₁.2.1; omega)
    have hk : 1 ≤ (e₂ - e₁).toNat := by omega
    rw [min_eq_right hlt.le, sub_self, Int.toNat_zero, Nat.shiftLeft_zero, Nat.shiftLeft_eq]
    calc m₁ ≤ 2 ^ 52 * 2 ^ 1 := by have := hc₁.1; omega
      _ ≤ m₂ * 2 ^ (e₂ - e₁).toNat :=
        Nat.mul_le_mul hnorm (Nat.pow_le_pow_right (by norm_num) hk)
  · simpa using hm

/-- A positive finite double less one not above it is a plus number. -/
theorem isPlus_sub_finite {m₁ m₂ : Nat} {e₁ e₂ : Int} {h₁ : 0 < m₁} {h₂ : 0 < m₂}
    (hc₁ : Canonical m₁ e₁) (hc₂ : Canonical m₂ e₂)
    (hle : (finite .positive m₁ e₁ h₁).le (finite .positive m₂ e₂ h₂) = true) :
    IsPlus ((finite .positive m₂ e₂ h₂).sub .binary64 (finite .positive m₁ e₁ h₁)) := by
  have hmant := shiftLeft_le_of_le hc₁ hc₂ hle
  rw [sub_finite]
  simp only [Sign.apply]
  rcases lt_or_eq_of_le hmant with hlt | heq
  · rw [normalize_of_pos _ _ (by omega)]
    exact isPlus_round _ _
  · rw [heq, sub_self, normalize_zero]
    exact .zero

theorem isPlus_sub {x y : Float.Model} (hx : IsPlus x.unpack) (hy : IsPlus y.unpack)
    (hle : y.unpack.le x.unpack = true) :
    IsPlus (x.unpack.sub .binary64 y.unpack) ∨ x.unpack.sub .binary64 y.unpack = .notANumber := by
  obtain ⟨X, hX⟩ : ∃ X, x.unpack = X := ⟨_, rfl⟩
  obtain ⟨Y, hY⟩ : ∃ Y, y.unpack = Y := ⟨_, rfl⟩
  rw [hX] at hx hle ⊢
  rw [hY] at hy hle ⊢
  cases hx with
  | zero =>
    cases hy with
    | zero => exact .inl .zero
    | finite m e h => cases hle
    | infinity => cases hle
  | finite m₂ e₂ h₂ =>
    cases hy with
    | zero => exact .inl (.finite m₂ e₂ h₂)
    | finite m₁ e₁ h₁ =>
      exact .inl (isPlus_sub_finite (canonical_of_unpack hY).1 (canonical_of_unpack hX).1 hle)
    | infinity => cases hle
  | infinity =>
    cases hy with
    | zero => exact .inl .infinity
    | finite m e h => exact .inl .infinity
    | infinity => exact .inr rfl

end Float.Model.UnpackedFloat

namespace Float

open Float.Model Float.Model.UnpackedFloat

variable {x y : Float}

theorem PlusOrNaN.sub_of_le (hx : x.PlusOrNaN) (hy : y.IsPlus) (hle : x.isNaN = false → y ≤ x) :
    (x - y).PlusOrNaN := by
  rw [plusOrNaN_iff, unpack_sub]
  rcases hx with hx | hx
  · exact plusOrNaN_pack (isPlus_sub hx hy (le_iff_unpack.mp (hle hx.isNaN)))
  · rw [isNaN_iff.mp hx]
    exact .inr unpack_pack_notANumber

theorem toNat_toBits_of_isNaN (hx : x.isNaN = true) : x.toBits.toNat = 0x7FF8000000000000 := by
  rw [isNaN_iff] at hx
  have hparts : @unpackExponent Format.binary64 x.toModel.toBits.toBitVec = -1#11 ∧
      @unpackMantissa Format.binary64 x.toModel.toBits.toBitVec ≠ 0#52 := by
    unfold Float.Model.unpack UnpackedFloat.unpack at hx
    dsimp only at hx
    split_ifs at hx with h1 h2
    exact ⟨h1, h2⟩
  have hbits : x.toBits.toBitVec = packedNaN .binary64 :=
    x.toModel.valid.eq_packedNaN hparts.1 hparts.2
  show x.toBits.toBitVec.toNat = _
  rw [hbits]
  rfl

end Float

namespace XrDelivery

theorem totalKey_of_isNaN {x : Float} (hx : x.isNaN = true) : totalKey x = 0x7FF8000000000000 := by
  have hbits := Float.toNat_toBits_of_isNaN hx
  unfold totalKey
  rw [if_pos (by rw [UInt64.lt_iff_toNat_lt, hbits]; decide), hbits]
  rfl

end XrDelivery

namespace Float

open XrDelivery

variable {x y : Float}

theorem PlusOrNaN.le_of_totalKey_le (hx : x.PlusOrNaN) (hy : y.IsPlus)
    (h : totalKey x ≤ totalKey y) : x.IsPlus ∧ x ≤ y := by
  rcases hx with hx | hx
  · exact ⟨hx, (hx.le_iff_totalKey hy).mpr h⟩
  · have hle := plusBits_le hy
    have h52 : Nat.pow 2 52 = 4503599627370496 := rfl
    rw [totalKey_of_isNaN hx, totalKey_of_isPlus hy] at h
    omega

end Float

namespace XrDelivery

/-! ### Fragments taken in after they were sent -/

/-- Fragment `e` was sent by the instant fragment `e'` arrived, unless `e'` arrived at NaN. -/
def SentBy (e e' : Fragment × Float) : Prop := e'.2.isNaN = false → e.1.sentAt ≤ e'.2

/-- A fragment with its arrival instant: sent at a plus instant, and arrived at a plus instant no
earlier, or at NaN. -/
structure Punctual (e : Fragment × Float) : Prop where
  sent : e.1.sentAt.IsPlus
  arrival : e.2.PlusOrNaN
  self : SentBy e e

/-- Fragments taken in one after the other, each punctual, and each arriving no earlier than
every fragment before it was sent, unless it arrives at NaN. -/
structure SentByArrival (evs : List (Fragment × Float)) : Prop where
  punctual : ∀ e ∈ evs, Punctual e
  pairwise : evs.Pairwise SentBy

theorem SentByArrival.sublist {evs evs' : List (Fragment × Float)} (h : SentByArrival evs)
    (hs : evs'.Sublist evs) : SentByArrival evs' :=
  ⟨fun e he => h.punctual e (hs.subset he), h.pairwise.sublist hs⟩

theorem FrameState.delayMs_ofArrivals {d : Deadline} {as : List (Fragment × Float)}
    (h : SentByArrival as) {s : FrameState} (hs : FrameState.ofArrivals d as = some s) :
    ∀ x, s.delayMs = some x → x.PlusOrNaN := by
  match as, h, hs with
  | (f, a) :: rest, h, hs =>
    have hfirst := h.punctual (f, a) List.mem_cons_self
    simp only [FrameState.ofArrivals] at hs
    split at hs
    · rename_i g done hdone
      cases hs
      rintro x ⟨⟩
      have hmem := List.mem_of_getElem? hdone
      have hsent : SentBy (f, a) (g, done) := by
        rcases List.mem_cons.mp hmem with heq | hlater
        · rw [heq]
          exact hfirst.self
        · exact List.rel_of_pairwise_cons h.pairwise hlater
      exact ((h.punctual _ hmem).arrival.sub_of_le hfirst.sent hsent).mul
        (.inl (show (1000.0 : Float).IsPlus by decide))
    · cases hs
      rintro x ⟨⟩


namespace Receiver

variable {c : ReceiverConfig} {agg agg' : Aggregator} {r : Receiver}

/-- A finalized receiver that took in fragments in sending order reports completed frames with a
plus or NaN delay and lost frames with `-1`. -/
theorem delays_finalize (h : Receiver.new c agg = .ok (r, agg')) {H : List (Fragment × Float)}
    (hH : SentByArrival H) (agg₂ : Aggregator) :
    (∀ rec, .completed rec ∈ ((r.receiveAll H).finalize agg₂).2.1.events → rec.delayMs.PlusOrNaN) ∧
      ∀ rec, .lost rec ∈ ((r.receiveAll H).finalize agg₂).2.1.events → rec.delayMs = -1.0 := by
  obtain ⟨-, ht, hout, -⟩ := new_eq_ok h
  have hact : (r.receiveAll H).outcome = none := by rw [outcome_receiveAll, hout]
  have hagree := (completionsAgree_of_new h).receiveAll hout H
  constructor
  · intro rec hrec
    obtain ⟨s, hs, hcs, hrec_eq⟩ :=
      hagree.complete_of_mem rec ((completed_mem_finalize_iff hact agg₂ rec).mp hrec)
    rw [tracker_receiveAll hout, ht, Tracker.get?_ingestAll_new] at hs
    obtain ⟨x, hx⟩ := Option.isSome_iff_exists.mp hcs
    have hdelay := FrameState.delayMs_ofArrivals (hH.sublist List.filter_sublist) hs x hx
    rw [hrec_eq]
    simpa [FrameRecord.ofState, FrameState.delayOrSentinel, hx] using hdelay
  · intro rec hrec
    rw [(finalize_of_active hact agg₂).2.2] at hrec
    rcases List.mem_append.mp hrec with hold | hnew
    · exact absurd hold (hagree.lost_not_mem rec)
    · obtain ⟨seq, -, heq⟩ := List.mem_map.mp hnew
      cases heq
      rfl

end Receiver


/-! ### The delivery order of a running stream -/

section Queue

variable {α : Type}

theorem pairwise_insertByArrival {l : List (Float × α)} (x : Float) (c : α)
    (h : l.Pairwise ArrivesBy) : (insertByArrival x c l).Pairwise ArrivesBy := by
  have hl : sortByArrival l = l := List.mergeSort_of_pairwise (h.imp decide_eq_true)
  rw [← hl, insertByArrival_sortByArrival]
  exact sortByArrival_sorted _

theorem pairwise_foldl_insertByArrival (new : List (Float × α)) {l : List (Float × α)}
    (h : l.Pairwise ArrivesBy) :
    (new.foldl (fun q p => insertByArrival p.1 p.2 q) l).Pairwise ArrivesBy := by
  induction new generalizing l with
  | nil => exact h
  | cons p new ih => exact ih (pairwise_insertByArrival p.1 p.2 h)

end Queue

theorem Sender.sentAt_of_poll {s s' : Sender} {now : Float} {b : Burst}
    (h : s.poll now = .ok (some b, s')) : ∀ fr ∈ b.fragments, fr.sentAt = now :=
  fun _ hfr => (Frame.carries_of_mem_fragments (Sender.poll_eq_burst h).2.1 hfr).1.sentAt_eq

theorem sentBy_of_arrivesBy {p q : Float × Fragment} (hp : Punctual p.swap) (hq : q.1.PlusOrNaN)
    (h : ArrivesBy p q) : SentBy p.swap q.swap := by
  intro hqn
  have hqp : q.1.IsPlus := hq.isPlus hqn
  obtain ⟨hpp, hle⟩ := hp.arrival.le_of_totalKey_le hqp h
  exact hp.sent.le_trans hpp hqp (hp.self hpp.isNaN) hle

namespace FragmentFlight

/-- A flight whose receiver took in `H` after `r₀`, its sender last polled at the plus instant
`clock`: what was handed over came in sending order, the queue is sorted by arrival and holds
punctual datagrams sent by `clock`, and the link is sound. -/
structure InOrder (r₀ : Receiver) (H : List (Fragment × Float)) (clock : Float) (f : FragmentFlight) :
    Prop where
  receiver_eq : f.receiver = r₀.receiveAll H
  handed : SentByArrival H
  sorted : f.queue.items.Pairwise ArrivesBy
  queued : ∀ p ∈ f.queue.items, Punctual p.swap ∧ p.2.sentAt ≤ clock
  handed_queued : ∀ e ∈ H, ∀ p ∈ f.queue.items, SentBy e p.swap
  handed_clock : ∀ e ∈ H, e.1.sentAt ≤ clock
  clock : clock.IsPlus
  channel : f.channel.Sound

variable {r₀ : Receiver} {H : List (Fragment × Float)} {clock : Float} {f : FragmentFlight}

theorem inOrder_start {ch : Channel} (hch : ch.Sound) (tx : Sender) (err : Option String) :
    InOrder r₀ [] 0 { sender := tx, receiver := r₀, channel := ch, senderError := err } where
  receiver_eq := rfl
  handed := ⟨by simp, .nil⟩
  sorted := .nil
  queued := by simp
  handed_queued := by simp
  handed_clock := by simp
  clock := by decide
  channel := hch

theorem InOrder.with_sender (hi : f.InOrder r₀ H clock) (tx : Sender) (err : Option String) :
    ({ f with sender := tx, senderError := err } : FragmentFlight).InOrder r₀ H clock :=
  ⟨hi.receiver_eq, hi.handed, hi.sorted, hi.queued, hi.handed_queued, hi.handed_clock, hi.clock,
    hi.channel⟩

theorem InOrder.advance (hi : f.InOrder r₀ H clock) {now : Float} (hnow : now.IsPlus)
    (hle : clock ≤ now) : f.InOrder r₀ H now where
  receiver_eq := hi.receiver_eq
  handed := hi.handed
  sorted := hi.sorted
  queued p hp := ⟨(hi.queued p hp).1,
    (hi.queued p hp).1.sent.le_trans hi.clock hnow (hi.queued p hp).2 hle⟩
  handed_queued := hi.handed_queued
  handed_clock e he := (hi.handed.punctual e he).sent.le_trans hi.clock hnow (hi.handed_clock e he) hle
  clock := hnow
  channel := hi.channel

theorem InOrder.deliver (hi : f.InOrder r₀ H clock) (now : Float) :
    (f.deliver now).InOrder r₀ (H ++ (f.queue.items.takeWhile (ArrivedBy now)).map Prod.swap)
      clock := by
  rw [deliver_eq]
  have hsplit := List.takeWhile_append_dropWhile (p := ArrivedBy now) (l := f.queue.items)
  have hsorted := hi.sorted
  rw [← hsplit, List.pairwise_append] at hsorted
  have hmemT : ∀ p ∈ f.queue.items.takeWhile (ArrivedBy now), p ∈ f.queue.items :=
    fun p hp => (List.takeWhile_sublist _).subset hp
  have hmemD : ∀ p ∈ f.queue.items.dropWhile (ArrivedBy now), p ∈ f.queue.items :=
    fun p hp => (List.dropWhile_sublist _).subset hp
  have hqueue : ∀ p ∈ f.queue.items, ∀ q ∈ f.queue.items, ArrivesBy p q → SentBy p.swap q.swap :=
    fun p hp q hq h => sentBy_of_arrivesBy (hi.queued p hp).1 (hi.queued q hq).1.arrival h
  refine ⟨?_, ⟨?_, ?_⟩, hsorted.2.1, fun p hp => hi.queued p (hmemD p hp), ?_, ?_, hi.clock,
    hi.channel⟩
  · show f.receiver.receiveAll _ = _
    rw [hi.receiver_eq, Receiver.receiveAll, Receiver.receiveAll, Receiver.receiveAll,
      List.foldl_append]
  · intro e he
    rcases List.mem_append.mp he with hold | hnew
    · exact hi.handed.punctual e hold
    · obtain ⟨p, hp, rfl⟩ := List.mem_map.mp hnew
      exact (hi.queued p (hmemT p hp)).1
  · refine List.pairwise_append.mpr ⟨hi.handed.pairwise, ?_, ?_⟩
    · exact List.pairwise_map.mpr (hsorted.1.imp_of_mem fun hp hq h =>
        hqueue _ (hmemT _ hp) _ (hmemT _ hq) h)
    · intro e he e' he'
      obtain ⟨p, hp, rfl⟩ := List.mem_map.mp he'
      exact hi.handed_queued e he p (hmemT p hp)
  · intro e he q hq
    rcases List.mem_append.mp he with hold | hnew
    · exact hi.handed_queued e hold q (hmemD q hq)
    · obtain ⟨p, hp, rfl⟩ := List.mem_map.mp hnew
      exact hqueue p (hmemT p hp) q (hmemD q hq) (hsorted.2.2 p hp q hq)
  · intro e he
    rcases List.mem_append.mp he with hold | hnew
    · exact hi.handed_clock e hold
    · obtain ⟨p, hp, rfl⟩ := List.mem_map.mp hnew
      exact (hi.queued p (hmemT p hp)).2

/-- Fragments sent at the clock's poll go on the sorted queue; each arrives no earlier than the
poll, so no earlier than every handed datagram was sent. -/
theorem InOrder.transmit (hi : f.InOrder r₀ H clock) {frags : List Fragment}
    (hsent : ∀ fr ∈ frags, fr.sentAt = clock) {w : List (Float × Fragment)} {ch : Channel}
    (hw : f.channel.transmitAll Fragment.wireLength (frags.map (clock, ·)) = .ok (w, ch)) :
    ({ f with
        channel := ch
        queue := ⟨w.foldl (fun q p => insertByArrival p.1 p.2 q) f.queue.items⟩ } : FragmentFlight).InOrder
      r₀ H clock := by
  obtain ⟨hch, harr⟩ := Channel.transmitAll_sound _ hi.channel hi.clock (by simp) hw
  have hsub : (w.map Prod.snd).Sublist frags := by
    simpa [List.map_map, Function.comp_def] using Channel.transmitAll_sublist _ hw
  have hw_sent : ∀ p ∈ w, p.2.sentAt = clock :=
    fun p hp => hsent p.2 (hsub.subset (List.mem_map_of_mem hp))
  have hmem : ∀ p ∈ w.foldl (fun q p => insertByArrival p.1 p.2 q) f.queue.items,
      p ∈ f.queue.items ∨ p ∈ w :=
    fun p hp => List.mem_append.mp ((foldl_insertByArrival_perm w _).subset hp)
  refine ⟨hi.receiver_eq, hi.handed, pairwise_foldl_insertByArrival w hi.sorted, ?_, ?_,
    hi.handed_clock, hi.clock, hch⟩
  · intro p hp
    rcases hmem p hp with hold | hnew
    · exact hi.queued p hold
    · have hpc := hw_sent p hnew
      exact ⟨⟨hpc ▸ hi.clock, (harr p hnew).1, fun hn => hpc ▸ (harr p hnew).2 hn⟩,
        hpc ▸ hi.clock.le_refl⟩
  · intro e he p hp
    rcases hmem p hp with hold | hnew
    · exact hi.handed_queued e he p hold
    · intro hn
      exact (hi.handed.punctual e he).sent.le_trans hi.clock ((harr p hnew).1.isPlus hn)
        (hi.handed_clock e he) ((harr p hnew).2 hn)

theorem InOrder.play (fuel : Nat) (next : Option Float) (hi : f.InOrder r₀ H clock)
    (hnext : ∀ t, next = some t → t.IsPlus ∧ clock ≤ t) {f' : FragmentFlight}
    (h : FragmentFlight.play fuel next f = .ok f') : ∃ H' clock', f'.InOrder r₀ H' clock' := by
  induction fuel generalizing next f H clock with
  | zero =>
    cases h
    exact ⟨H, clock, hi⟩
  | succ fuel ih =>
    cases next with
    | none =>
      cases h
      exact ⟨H, clock, hi⟩
    | some now =>
      obtain ⟨hnow, hle⟩ := hnext now rfl
      have hi₁ := (hi.advance hnow hle).deliver now
      simp only [FragmentFlight.play, sender_deliver] at h
      cases hpoll : f.sender.poll now with
      | error r =>
        obtain ⟨e, tx⟩ := r
        rw [hpoll] at h
        cases h
        exact ⟨_, _, hi₁.with_sender tx (some e.message)⟩
      | ok r =>
        obtain ⟨b?, tx⟩ := r
        rw [hpoll] at h
        cases b? with
        | none =>
          cases h
          exact ⟨_, _, hi₁.with_sender tx (f.deliver now).senderError⟩
        | some b =>
          obtain ⟨f₁, hf₁, h⟩ := exists_of_bind_eq_ok h
          rw [transmit_eq] at hf₁
          obtain ⟨⟨w, ch⟩, hw, rfl⟩ := exists_of_map_eq_ok hf₁
          have hw' : ({ f.deliver now with sender := tx }).channel.transmitAll Fragment.wireLength
              (b.fragments.map (now, ·)) = .ok (w, ch) := by simpa using hw
          have hi₂ := (hi₁.with_sender tx (f.deliver now).senderError).transmit
            (Sender.sentAt_of_poll hpoll) hw'
          exact ih b.nextSendAt hi₂ (Sender.poll_next hnow hpoll) h

end FragmentFlight

/-! ### Frame log lines -/

namespace Text

theorem fieldChar_of_mem_fixedDigits (n places : Nat) :
    ∀ c ∈ (Decimal.fixedDigits n places).toList, FieldChar c := by
  have hpadded : ∀ c ∈ (Decimal.zeros (places + 1 - (toString n).length) ++ toString n).toList,
      FieldChar c := by
    intro c hc
    rw [String.toList_append, List.mem_append] at hc
    rcases hc with hc | hc
    · exact fieldChar_of_mem_zeros _ c hc
    · exact fieldChar_of_mem_toString n c hc
  unfold Decimal.fixedDigits
  dsimp only
  generalize Decimal.zeros (places + 1 - (toString n).length) ++ toString n = s at hpadded ⊢
  split
  · exact hpadded
  · exact fieldChar_of_mem_point_cut hpadded _

theorem fieldChar_of_mem_fixedText (places : Nat) (x : Float) :
    ∀ c ∈ (x.fixedText places).toList, FieldChar c := by
  unfold Float.fixedText
  split
  · rename_i s hs
    exact fieldChar_of_mem_special hs
  · exact fieldChar_of_mem_sign_append _ (fieldChar_of_mem_fixedDigits _ _)

theorem FieldChar.ne_newline {c : Char} (h : FieldChar c) : c ≠ '\n' := by
  rintro rfl
  exact absurd h.2 (by decide)

theorem newline_not_mem_of_fieldChar {s : String} (h : ∀ c ∈ s.toList, FieldChar c) :
    '\n' ∉ s.toList :=
  fun hn => FieldChar.ne_newline (h _ hn) rfl

@[simp] theorem newline_not_mem_toString_uint32 (w : UInt32) : '\n' ∉ (toString w).toList :=
  newline_not_mem_of_fieldChar (fieldChar_of_mem_toString w.toNat)

@[simp] theorem newline_not_mem_plainText (x : Float) : '\n' ∉ x.plainText.toList :=
  newline_not_mem_of_fieldChar (fieldChar_of_mem_plainText x)

@[simp] theorem newline_not_mem_fixedText (places : Nat) (x : Float) :
    '\n' ∉ (x.fixedText places).toList :=
  newline_not_mem_of_fieldChar (fieldChar_of_mem_fixedText places x)

end Text

theorem toString_string (s : String) : toString s = s := rfl

theorem newline_not_mem_row (r : FrameRecord) : '\n' ∉ r.row.toList := by
  unfold FrameRecord.row
  split
  · simp [FrameRecord.lostRow, toString_string]
  · have honTime : '\n' ∉ (if r.onTime = true then "1" else "0").toList := by
      split <;> simp
    simp [FrameRecord.fullRow, toString_string, honTime]

theorem frameLog_lines (rs : List FrameRecord) :
    (frameLog rs).splitToList (· == '\n') = frameLogHeader :: rs.map FrameRecord.row ++ [""] := by
  have hjoin : frameLog rs =
      String.join ((frameLogHeader :: rs.map FrameRecord.row).map (· ++ "\n")) := by
    simp [frameLog, String.join_cons, List.map_map, Function.comp_def, String.append_assoc]
  rw [hjoin, Text.splitToList_join_newline]
  intro l hl
  rcases List.mem_cons.mp hl with rfl | hrow
  · simp [frameLogHeader]
  · obtain ⟨r, -, rfl⟩ := List.mem_map.mp hrow
    exact newline_not_mem_row r

/-! ### The streams of a run -/

namespace StreamSetup

variable {s : StreamSetup} {dir : Directory}

theorem fragmentRun_sentByArrival (hs : s.Timely) {f : FragmentFlight} (h : s.fragmentRun dir = .ok f) :
    ∃ H, f.receiver = s.receiver.receiveAll H ∧ SentByArrival H := by
  unfold fragmentRun at h
  cases hstart : s.sender.start 0.0 dir with
  | error e =>
    simp only [hstart] at h
    obtain ⟨f₁, hf₁, rfl⟩ := exists_of_map_eq_ok h
    obtain ⟨H, clock, hi⟩ :=
      (FragmentFlight.inOrder_start hs.channel s.sender (some e.message)).play _ none (by simp) hf₁
    exact ⟨_, (hi.deliver _).receiver_eq, (hi.deliver _).handed⟩
  | ok r =>
    obtain ⟨first, tx⟩ := r
    simp only [hstart] at h
    obtain ⟨f₁, hf₁, rfl⟩ := exists_of_map_eq_ok h
    have hfirst := Sender.start_isPlus hs.offset (by decide) hstart
    obtain ⟨H, clock, hi⟩ := (FragmentFlight.inOrder_start hs.channel tx none).play _ first
      (fun t ht => ⟨hfirst t ht, (hfirst t ht).zero_le⟩) hf₁
    exact ⟨_, (hi.deliver _).receiver_eq, (hi.deliver _).handed⟩

/-- A timely stream reports its finalized receiver's records: completed frames with a delay of zero
or more or NaN, written in full, and lost frames with `-1`, written compactly. -/
theorem run_marks_losses (hs : s.Timely) (hfresh : s.Fresh) {agg agg' : Aggregator}
    {r : StreamReport} (h : s.run dir agg = .ok (r, agg')) :
    ∃ f, s.interleaved dir = .ok f ∧
      r.records = (f.receiver.finalize agg).2.1.events.map ReceiverEvent.record ∧
      (∀ rec, .completed rec ∈ (f.receiver.finalize agg).2.1.events →
        (0 ≤ rec.delayMs ∨ rec.delayMs.isNaN = true) ∧ rec.row = rec.fullRow) ∧
      ∀ rec, .lost rec ∈ (f.receiver.finalize agg).2.1.events →
        rec.delayMs = -1.0 ∧ rec.row = rec.lostRow := by
  rw [run_eq] at h
  obtain ⟨f, hf, hr⟩ := exists_of_map_eq_ok h
  have hf' := ok_of_mapError_eq_ok hf
  obtain ⟨fb, hfb, rfl⟩ := exists_of_map_eq_ok ((s.interleaved_read dir).trans hf')
  obtain ⟨H, hrx, hH⟩ := fragmentRun_sentByArrival hs hf'
  obtain ⟨c, agg₀, agg₀', hnew⟩ := hfresh.receiver_new
  obtain ⟨hcompleted, hlost⟩ := Receiver.delays_finalize hnew hH agg
  rw [← hrx, Flight.receiver_read] at hcompleted hlost
  refine ⟨fb, hfb, by cases hr; rfl, fun rec hrec => ?_, fun rec hrec => ?_⟩
  · have hd := hcompleted rec hrec
    exact ⟨hd.imp Float.IsPlus.zero_le id, if_neg hd.not_lt_zero⟩
  · have hd := hlost rec hrec
    exact ⟨hd, if_pos (by rw [hd]; decide)⟩

end StreamSetup

section Run

variable {ci : ConfigInput} {c : RunConfig} {read : FileReader}

/-- Frame logs mark exactly the lost frames: in a run that completes over a link whose base delay is
not below zero, a completed frame's row is written in full with a delay of zero or more or NaN, and
a lost frame's row in the compact form with the delay `-1`, whatever the catalog. -/
theorem frame_logs_mark_losses {rep : RunReport} (hbase : ¬c.link.baseDelayMs < 0)
    (h : c.run read = .ok rep) :
    ∃ setups agg, c.setupStreams read = .ok (setups, agg) ∧
      List.Forall₂ (fun s r => ∃ f, s.interleaved c.directory = .ok f ∧
        r.records = (f.receiver.finalize {}).2.1.events.map ReceiverEvent.record ∧
        (∀ rec, .completed rec ∈ (f.receiver.finalize {}).2.1.events →
          (0 ≤ rec.delayMs ∨ rec.delayMs.isNaN = true) ∧ rec.row = rec.fullRow) ∧
        (∀ rec, .lost rec ∈ (f.receiver.finalize {}).2.1.events →
          rec.delayMs = -1.0 ∧ rec.row = rec.lostRow) ∧
        (frameLog r.records).splitToList (· == '\n') =
          frameLogHeader :: r.records.map FrameRecord.row ++ [""]) setups rep.streams := by
  rw [RunConfig.run_eq] at h
  obtain ⟨⟨setups, agg⟩, hsetup, h⟩ := exists_of_bind_eq_ok h
  obtain ⟨rs, hrs, h⟩ := exists_of_bind_eq_ok h
  cases h
  refine ⟨setups, agg, hsetup, ?_⟩
  have hstreams : ∀ s ∈ setups, s.Timely ∧ s.Fresh := fun s hs =>
    ⟨RunConfig.timely_of_baseDelay hbase hsetup s hs, RunConfig.fresh_of_setupStreams hsetup s hs⟩
  refine (forall₂_of_mapM_eq_ok hstreams hrs).imp ?_
  rintro s r ⟨⟨htimely, hfresh⟩, hr⟩
  obtain ⟨⟨r', agg'⟩, hrun, rfl⟩ := exists_of_map_eq_ok hr
  obtain ⟨f, hf, hrecords, hcompleted, hlost⟩ := StreamSetup.run_marks_losses htimely hfresh hrun
  exact ⟨f, hf, hrecords, hcompleted, hlost, frameLog_lines _⟩

/-- One user whose sender cannot start, its destination being no user's address, over a link
without impairments, as written. -/
def unreachableUserInput : ConfigInput where
  receiver := { expectedFrames := some 1 }
  catalog := { frames := some 1, levels := some [10] }
  link := { minRateKbit := some 0, maxRateKbit := some 0, rateStepKbit := some 0,
            baseDelayMs := some 5.0, delayRangeMs := some 0.0, delayStepMs := some 0.0,
            packetJitterMs := some 0.0, maxLossPercent := some 0.0, lossStepPercent := some 0.0,
            stepMs := some 100000 }
  users := [{ name := some "a", level := some 10, destination := some "nowhere" }]

theorem pairRun_marks_losses :
    ¬pairRun.link.baseDelayMs < 0 ∧
    ∃ rep, pairRun.run oneFrameFile = .ok rep ∧
      rep.streams.map StreamReport.counts = [(3, 3, 1, 2, 0, 1, 0), (3, 3, 0, 3, 1, 0, 1)] ∧
      ∃ setups agg, pairRun.setupStreams oneFrameFile = .ok (setups, agg) ∧
        List.Forall₂ (fun s r => ∃ f, s.interleaved pairRun.directory = .ok f ∧
          r.records = (f.receiver.finalize {}).2.1.events.map ReceiverEvent.record ∧
          (∀ rec, .completed rec ∈ (f.receiver.finalize {}).2.1.events →
            (0 ≤ rec.delayMs ∨ rec.delayMs.isNaN = true) ∧ rec.row = rec.fullRow) ∧
          (∀ rec, .lost rec ∈ (f.receiver.finalize {}).2.1.events →
            rec.delayMs = -1.0 ∧ rec.row = rec.lostRow) ∧
          (frameLog r.records).splitToList (· == '\n') =
            frameLogHeader :: r.records.map FrameRecord.row ++ [""]) setups rep.streams := by
  have hbase : ¬pairRun.link.baseDelayMs < 0 := by decide
  obtain ⟨rep, hrun, hcounts⟩ := pairRun_counts
  exact ⟨hbase, rep, hrun, hcounts, frame_logs_mark_losses hbase hrun⟩

end Run


/-- Two users sending one frame each over the early link. -/
def earlyPairRun : RunConfig := { pairRun with link := earlyLink }

/-- Over a link whose delay is below zero, a completed frame's record has a negative delay, so its
row takes the compact form of a lost frame. -/
theorem earlyPairRun_logs_completions_as_lost :
    earlyPairRun.link.baseDelayMs < 0 ∧
    ∃ rep, earlyPairRun.run oneFrameFile = .ok rep ∧
      rep.streams.map (fun r => (r.counts, r.records.map fun rec =>
          (decide (rec.delayMs < 0.0), rec.row))) =
        [((3, 3, 0, 3, 1, 0, 1), [(true, "1,0,0,0,0,0,-1,0,0.5,40")]),
         ((3, 3, 0, 3, 1, 0, 1), [(true, "1,0,0,0,0,0,-1,0,0.5,40")])] :=
  ⟨by decide, RunConfig.run_summary _ (by decide +kernel)⟩
end XrDelivery
