import Mathlib
import XrDelivery.Proofs.WireCodec
import XrDelivery.Proofs.SenderRun
import XrDelivery.Proofs.ReceiverRun
import XrDelivery.Proofs.PacerSchedule

/-!
# Frame verdicts from end to end

The sender runs to its end and every fragment of every frame it sends travels as its datagram.
The link delivers any of these datagrams, each at most once, at any instants and in any order;
the receiver decodes what arrives, takes the fragments in, and is finalized.

Every datagram sent decodes to the fragment it was made of, and two fragments sent are never
equal: different frames have different numbers, and the fragments of one frame different
indices. So the arrivals of a frame at the receiver are exactly its delivered fragments, in
delivery order, and each counts once. The verdict on an expected frame then reads
(`frame_verdicts_end_to_end`): it is received exactly when some frame sent carried its number and
every fragment of that frame came, with the delay from the poll that sent it to the last of
them; it is reported lost otherwise.
-/
namespace XrDelivery

open Wire

/-- The bytes of a fragment's datagram. -/
def Fragment.datagram (f : Fragment) : List UInt8 := (Datagram.ofFragment f).encode

/-- The fragments of every frame sent, in sending order. -/
def fragmentsOf (bursts : List (Float × Burst)) : List Fragment :=
  bursts.flatMap fun e => e.2.fragments

/-- The datagrams of every fragment of every frame sent, in sending order. -/
def datagramsOf (bursts : List (Float × Burst)) : List (List UInt8) :=
  bursts.flatMap fun e => e.2.fragments.map Fragment.datagram

/-- The fragments that delivered datagrams stand for, each with its arrival instant; bytes that
do not decode are dropped. -/
def readFragments (dels : List (List UInt8 × Float)) : List (Fragment × Float) :=
  dels.filterMap fun d => (Datagram.decode? d.1).map fun dg => (dg.toFragment, d.2)

namespace Receiver

/-- Take in one delivered datagram, if it decodes, as the fragment it stands for. -/
def onDatagram (r : Receiver) (bytes : List UInt8) (arrival : Float) : Receiver :=
  match Datagram.decode? bytes with
  | some d => r.onFragment d.toFragment arrival
  | none => r

/-- Take in delivered datagrams in order, each at its arrival instant. -/
def receiveDatagrams (r : Receiver) (dels : List (List UInt8 × Float)) : Receiver :=
  dels.foldl (fun r d => r.onDatagram d.1 d.2) r

theorem receiveDatagrams_eq (r : Receiver) (dels : List (List UInt8 × Float)) :
    r.receiveDatagrams dels = r.receiveAll (readFragments dels) := by
  induction dels generalizing r with
  | nil => rfl
  | cons d dels ih =>
    simp only [receiveDatagrams, List.foldl_cons] at ih ⊢
    rw [ih]
    unfold onDatagram
    cases hd : Datagram.decode? d.1 with
    | none => simp [readFragments, hd]
    | some dg => simp [readFragments, hd, receiveAll]

end Receiver

private theorem subperm_filterMap {α β : Type} {l₁ l₂ : List α} (f : α → Option β)
    (h : l₁.Subperm l₂) : (l₁.filterMap f).Subperm (l₂.filterMap f) := by
  obtain ⟨l, hperm, hsub⟩ := h
  exact ⟨l.filterMap f, hperm.filterMap f, hsub.filterMap f⟩

theorem nodup_of_subperm {α : Type} {l₁ l₂ : List α} (h : l₁.Subperm l₂)
    (hn : l₂.Nodup) : l₁.Nodup := by
  obtain ⟨l, hperm, hsub⟩ := h
  exact hperm.nodup_iff.mp (hsub.nodup hn)

theorem datagramsOf_eq (bursts : List (Float × Burst)) :
    datagramsOf bursts = (fragmentsOf bursts).map Fragment.datagram := by
  simp [datagramsOf, fragmentsOf, List.map_flatMap]

theorem mem_fragmentsOf {bursts : List (Float × Burst)} {f : Fragment} :
    f ∈ fragmentsOf bursts ↔ ∃ e ∈ bursts, f ∈ e.2.fragments :=
  List.mem_flatMap

/-- What a sender run guarantees of the frames it sent: distinct frame numbers, each frame cut into
distinct fragments that carry it, as many as their count says. -/
structure WellCut (bursts : List (Float × Burst)) : Prop where
  nodup_seq : (bursts.map fun e => e.2.frame.seq).Nodup
  carries : ∀ e ∈ bursts, ∀ f ∈ e.2.fragments,
    f.Carries e.2.frame e.1 ∧ f.count.toNat = e.2.fragments.length
  nodup : ∀ e ∈ bursts, e.2.fragments.Nodup
  ne_nil : ∀ e ∈ bursts, e.2.fragments ≠ []

theorem wellCut_transmit (s : Sender) (now : Float) (dir : Directory)
    (hseq : (s.catalog.frames.map Frame.seq).Nodup) : WellCut (s.transmit now dir) where
  nodup_seq := Sender.nodup_seq_transmit s now dir hseq
  carries e he _ hf :=
    Frame.carries_of_mem_fragments (Sender.fragments_of_mem_transmit s now dir e he) hf
  nodup e he := Frame.nodup_fragments (Sender.fragments_of_mem_transmit s now dir e he)
  ne_nil e he := List.ne_nil_of_length_pos
    (Frame.one_le_length_fragments (Sender.fragments_of_mem_transmit s now dir e he))

namespace WellCut

variable {bursts : List (Float × Burst)} (hw : WellCut bursts)
include hw

theorem eq_of_seq_eq {e₁ e₂ : Float × Burst} (h₁ : e₁ ∈ bursts) (h₂ : e₂ ∈ bursts)
    (h : e₁.2.frame.seq = e₂.2.frame.seq) : e₁ = e₂ :=
  List.inj_on_of_nodup_map hw.nodup_seq h₁ h₂ h

theorem mem_fragments_of_frameSeq {e : Float × Burst} (he : e ∈ bursts) {f : Fragment}
    (hf : f ∈ fragmentsOf bursts) (hseq : f.frameSeq = e.2.frame.seq) :
    f ∈ e.2.fragments := by
  obtain ⟨e', he', hf'⟩ := mem_fragmentsOf.mp hf
  have hcarries := (hw.carries e' he' f hf').1
  rw [hw.eq_of_seq_eq he he' (hseq.symm.trans hcarries.frameSeq_eq)]
  exact hf'

theorem nodup_sent : (fragmentsOf bursts).Nodup := by
  refine List.nodup_flatMap.mpr ⟨hw.nodup, ?_⟩
  have hpair := List.pairwise_map.mp hw.nodup_seq
  refine hpair.imp_of_mem ?_
  intro e₁ e₂ he₁ he₂ hne f hf₁ hf₂
  exact hne ((hw.carries e₁ he₁ f hf₁).1.frameSeq_eq.symm.trans
    (hw.carries e₂ he₂ f hf₂).1.frameSeq_eq)

theorem read_datagram {f : Fragment} (hf : f ∈ fragmentsOf bursts) :
    (Datagram.decode? f.datagram).map Datagram.toFragment = some f := by
  obtain ⟨e, he, hfe⟩ := mem_fragmentsOf.mp hf
  have hc := (hw.carries e he f hfe).1
  exact Wire.decode?_encode_ofFragment f hc.count_ne_zero hc.index_lt hc.payload_ne_zero

theorem eq_of_datagram_eq {f g : Fragment} (hf : f ∈ fragmentsOf bursts)
    (hg : g ∈ fragmentsOf bursts) (h : f.datagram = g.datagram) : f = g := by
  have := hw.read_datagram hf
  rw [h, hw.read_datagram hg] at this
  exact (Option.some_inj.mp this).symm

end WellCut

theorem readFragments_cons_of_read {d : List UInt8 × Float} {f : Fragment}
    (h : (Datagram.decode? d.1).map Datagram.toFragment = some f) (l : List (List UInt8 × Float)) :
    readFragments (d :: l) = (f, d.2) :: readFragments l := by
  cases hx : Datagram.decode? d.1 with
  | none => simp [hx] at h
  | some dg =>
    simp only [hx, Option.map_some, Option.some_inj] at h
    simp [readFragments, hx, h]

theorem mem_readFragments {dels : List (List UInt8 × Float)} {p : Fragment × Float} :
    p ∈ readFragments dels ↔
      ∃ d ∈ dels, (Datagram.decode? d.1).map Datagram.toFragment = some p.1 ∧ p.2 = d.2 := by
  obtain ⟨f, a⟩ := p
  simp only [readFragments, List.mem_filterMap, Option.map_eq_some_iff, Prod.mk.injEq]
  constructor
  · rintro ⟨d, hd, dg, hdg, rfl, rfl⟩
    exact ⟨d, hd, ⟨dg, hdg, rfl⟩, rfl⟩
  · rintro ⟨d, hd, ⟨dg, hdg, rfl⟩, rfl⟩
    exact ⟨d, hd, dg, hdg, rfl, rfl⟩

section Delivery

/-! ### What the receiver reads from the datagrams delivered -/

variable {bursts : List (Float × Burst)} {dels : List (List UInt8 × Float)}

/-- Every datagram delivered was sent, so it reads as the fragment it was made of. -/
theorem read_of_delivered (hw : WellCut bursts)
    (hdel : (dels.map Prod.fst).Subperm (datagramsOf bursts)) {d : List UInt8 × Float}
    (hd : d ∈ dels) :
    ∃ f ∈ fragmentsOf bursts, d.1 = f.datagram ∧
      (Datagram.decode? d.1).map Datagram.toFragment = some f := by
  have hsent : d.1 ∈ datagramsOf bursts := hdel.subset (List.mem_map_of_mem hd)
  rw [datagramsOf_eq, List.mem_map] at hsent
  obtain ⟨f, hf, hfd⟩ := hsent
  exact ⟨f, hf, hfd.symm, by rw [← hfd]; exact hw.read_datagram hf⟩

theorem subperm_readFragments (hw : WellCut bursts)
    (hdel : (dels.map Prod.fst).Subperm (datagramsOf bursts)) :
    ((readFragments dels).map Prod.fst).Subperm (fragmentsOf bursts) := by
  have hmap : (readFragments dels).map Prod.fst =
      (dels.map Prod.fst).filterMap fun x => (Datagram.decode? x).map Datagram.toFragment := by
    simp [readFragments, List.map_filterMap, List.filterMap_map, Function.comp_def]
  have hsent : (datagramsOf bursts).filterMap
      (fun x => (Datagram.decode? x).map Datagram.toFragment) = fragmentsOf bursts := by
    rw [datagramsOf_eq, List.filterMap_map]
    calc (fragmentsOf bursts).filterMap _ = (fragmentsOf bursts).filterMap some :=
          List.filterMap_congr fun f hf => hw.read_datagram hf
      _ = fragmentsOf bursts := List.filterMap_some
  rw [hmap, ← hsent]
  exact subperm_filterMap _ hdel

/-- A fragment sent is read exactly when its datagram was delivered. -/
theorem mem_read_iff (hw : WellCut bursts)
    (hdel : (dels.map Prod.fst).Subperm (datagramsOf bursts)) {f : Fragment}
    (hf : f ∈ fragmentsOf bursts) :
    f ∈ (readFragments dels).map Prod.fst ↔ f.datagram ∈ dels.map Prod.fst := by
  constructor
  · intro hmem
    obtain ⟨p, hp, rfl⟩ := List.mem_map.mp hmem
    obtain ⟨d, hd, hread, -⟩ := mem_readFragments.mp hp
    obtain ⟨g, -, hdg, hread'⟩ := read_of_delivered hw hdel hd
    rw [hread] at hread'
    cases hread'
    exact List.mem_map.mpr ⟨d, hd, hdg⟩
  · intro hmem
    obtain ⟨d, hd, hdf⟩ := List.mem_map.mp hmem
    have hread : (Datagram.decode? d.1).map Datagram.toFragment = some f := by
      rw [hdf]; exact hw.read_datagram hf
    exact List.mem_map.mpr ⟨(f, d.2), mem_readFragments.mpr ⟨d, hd, hread, rfl⟩, rfl⟩

/-- The arrivals of a frame sent are the fragments read from its delivered datagrams, in
delivery order. -/
theorem arrivalsOf_readFragments (hw : WellCut bursts) {e : Float × Burst} (he : e ∈ bursts)
    (dels : List (List UInt8 × Float))
    (hsent : ∀ d ∈ dels, ∃ f ∈ fragmentsOf bursts, d.1 = f.datagram) :
    arrivalsOf e.2.frame.seq (readFragments dels) =
      readFragments (dels.filter fun d => d.1 ∈ e.2.fragments.map Fragment.datagram) := by
  induction dels with
  | nil => rfl
  | cons d dels ih =>
    obtain ⟨f, hf, hdf⟩ := hsent d (by simp)
    have hread : (Datagram.decode? d.1).map Datagram.toFragment = some f := by
      rw [hdf]; exact hw.read_datagram hf
    have hkeep : (f.frameSeq = e.2.frame.seq ∧ f.count ≠ 0) ↔
        d.1 ∈ e.2.fragments.map Fragment.datagram := by
      constructor
      · rintro ⟨hseq, -⟩
        rw [hdf]
        exact List.mem_map_of_mem (hw.mem_fragments_of_frameSeq he hf hseq)
      · intro hmem
        obtain ⟨g, hg, hgd⟩ := List.mem_map.mp hmem
        have hgs : g ∈ fragmentsOf bursts := mem_fragmentsOf.mpr ⟨e, he, hg⟩
        have hfg : f = g := hw.eq_of_datagram_eq hf hgs (hdf ▸ hgd.symm)
        subst hfg
        have hc := (hw.carries e he f hg).1
        exact ⟨hc.frameSeq_eq, hc.count_ne_zero⟩
    have ih' := ih fun d' hd' => hsent d' (List.mem_cons_of_mem d hd')
    rw [readFragments_cons_of_read hread, List.filter_cons]
    by_cases hin : d.1 ∈ e.2.fragments.map Fragment.datagram
    · rw [if_pos (by simpa using hin), readFragments_cons_of_read hread, ← ih']
      simp [arrivalsOf, hkeep.mpr hin]
    · rw [if_neg (by simpa using hin), ← ih']
      have hdrop : ¬ (f.frameSeq = e.2.frame.seq ∧ f.count ≠ 0) := fun h => hin (hkeep.mp h)
      simp only [arrivalsOf, List.filter_cons]
      rw [if_neg (by simpa using hdrop)]

theorem map_snd_readFragments (hw : WellCut bursts) (l : List (List UInt8 × Float))
    (hsent : ∀ d ∈ l, ∃ f ∈ fragmentsOf bursts, d.1 = f.datagram) :
    (readFragments l).map Prod.snd = l.map Prod.snd := by
  induction l with
  | nil => rfl
  | cons d l ih =>
    obtain ⟨f, hf, hdf⟩ := hsent d (by simp)
    have hread : (Datagram.decode? d.1).map Datagram.toFragment = some f := by
      rw [hdf]; exact hw.read_datagram hf
    rw [readFragments_cons_of_read hread, List.map_cons, List.map_cons,
      ih fun d' hd' => hsent d' (List.mem_cons_of_mem d hd')]

/-- The arrivals of a frame sent are some of its fragments, each at most once. -/
theorem arrivals_subset_nodup (hw : WellCut bursts)
    (hdel : (dels.map Prod.fst).Subperm (datagramsOf bursts)) {e : Float × Burst}
    (he : e ∈ bursts) :
    (∀ p ∈ arrivalsOf e.2.frame.seq (readFragments dels), p.1 ∈ e.2.fragments) ∧
      ((arrivalsOf e.2.frame.seq (readFragments dels)).map Prod.fst).Nodup := by
  constructor
  · intro p hp
    have hp' := List.mem_filter.mp hp
    have hkeep : p.1.frameSeq = e.2.frame.seq ∧ p.1.count ≠ 0 := by simpa using hp'.2
    have hsent := (subperm_readFragments hw hdel).subset (List.mem_map_of_mem hp'.1)
    exact hw.mem_fragments_of_frameSeq he hsent hkeep.1
  · have hsub : ((arrivalsOf e.2.frame.seq (readFragments dels)).map Prod.fst).Sublist
        ((readFragments dels).map Prod.fst) := List.filter_sublist.map _
    exact hsub.nodup (nodup_of_subperm (subperm_readFragments hw hdel) hw.nodup_sent)

/-- A frame sent collects as many arrivals as its count exactly when every one of its
datagrams was delivered: its arrivals are distinct fragments of its own. -/
theorem full_iff_delivered (hw : WellCut bursts)
    (hdel : (dels.map Prod.fst).Subperm (datagramsOf bursts)) {e : Float × Burst}
    (he : e ∈ bursts) :
    (∃ f a rest, arrivalsOf e.2.frame.seq (readFragments dels) = (f, a) :: rest ∧
        f.count.toNat ≤ rest.length + 1) ↔
      ∀ f ∈ e.2.fragments, f.datagram ∈ dels.map Prod.fst := by
  obtain ⟨hsubA, hnodupA⟩ := arrivals_subset_nodup hw hdel he
  have hmemA : ∀ g ∈ e.2.fragments, g ∈ (arrivalsOf e.2.frame.seq (readFragments dels)).map
      Prod.fst ↔ g.datagram ∈ dels.map Prod.fst := by
    intro g hg
    have hc := (hw.carries e he g hg).1
    rw [← mem_read_iff hw hdel (mem_fragmentsOf.mpr ⟨e, he, hg⟩)]
    simp [arrivalsOf, hc.frameSeq_eq, hc.count_ne_zero]
  have hsub : (arrivalsOf e.2.frame.seq (readFragments dels)).map Prod.fst ⊆ e.2.fragments := by
    intro g hg
    obtain ⟨p, hp, rfl⟩ := List.mem_map.mp hg
    exact hsubA p hp
  constructor
  · rintro ⟨f, a, rest, harr, hfull⟩
    have hf : f ∈ e.2.fragments := hsubA (f, a) (by rw [harr]; exact List.mem_cons_self)
    have hlen : e.2.fragments.length ≤
        ((arrivalsOf e.2.frame.seq (readFragments dels)).map Prod.fst).length := by
      rw [List.length_map, harr, ← (hw.carries e he f hf).2]
      simpa using hfull
    have hperm := (hnodupA.subperm hsub).perm_of_length_le hlen
    intro g hg
    exact (hmemA g hg).mp (hperm.symm.subset hg)
  · intro hall
    have hsup : e.2.fragments ⊆ (arrivalsOf e.2.frame.seq (readFragments dels)).map Prod.fst :=
      fun g hg => (hmemA g hg).mpr (hall g hg)
    have hlen := ((hw.nodup e he).subperm hsup).length_le
    obtain ⟨g, hg⟩ := List.exists_mem_of_ne_nil _ (hw.ne_nil e he)
    cases harr : arrivalsOf e.2.frame.seq (readFragments dels) with
    | nil =>
      rw [harr] at hsup
      exact absurd (hsup hg) List.not_mem_nil
    | cons p rest =>
      obtain ⟨f, a⟩ := p
      have hf : f ∈ e.2.fragments := hsubA (f, a) (by rw [harr]; exact List.mem_cons_self)
      refine ⟨f, a, rest, rfl, ?_⟩
      rw [(hw.carries e he f hf).2]
      rw [harr] at hlen
      simpa using hlen

/-- Once every datagram of a frame sent was delivered, exactly `c` of its fragments arrived, so
the `c`-th arrival is the last: it came at the instant the last of its datagrams was delivered. -/
theorem last_arrival (hw : WellCut bursts)
    (hdel : (dels.map Prod.fst).Subperm (datagramsOf bursts)) {e : Float × Burst}
    (he : e ∈ bursts) (hall : ∀ f ∈ e.2.fragments, f.datagram ∈ dels.map Prod.fst) :
    ∃ f a rest x done, arrivalsOf e.2.frame.seq (readFragments dels) = (f, a) :: rest ∧
      ((f, a) :: rest)[f.count.toNat - 1]? = some (x, done) ∧
      ((dels.filter fun d => d.1 ∈ e.2.fragments.map Fragment.datagram).map Prod.snd).getLast? =
        some done := by
  obtain ⟨f, a, rest, harr, hfull⟩ := (full_iff_delivered hw hdel he).mpr hall
  obtain ⟨hsubA, hnodupA⟩ := arrivals_subset_nodup hw hdel he
  have hf : f ∈ e.2.fragments := hsubA (f, a) (by rw [harr]; exact List.mem_cons_self)
  have hle : rest.length + 1 ≤ f.count.toNat := by
    have hsub : (arrivalsOf e.2.frame.seq (readFragments dels)).map Prod.fst ⊆ e.2.fragments := by
      intro g hg
      obtain ⟨p, hp, rfl⟩ := List.mem_map.mp hg
      exact hsubA p hp
    have := (hnodupA.subperm hsub).length_le
    rw [List.length_map, harr, ← (hw.carries e he f hf).2] at this
    simpa using this
  have hlast : ((f, a) :: rest)[f.count.toNat - 1]? = ((f, a) :: rest).getLast? := by
    rw [List.getLast?_eq_getElem?]
    congr 1
    simp only [List.length_cons]
    omega
  rw [List.getLast?_eq_some_getLast (List.cons_ne_nil _ _)] at hlast
  refine ⟨f, a, rest, _, _, harr, hlast, ?_⟩
  have hsent : ∀ d ∈ dels, ∃ g ∈ fragmentsOf bursts, d.1 = g.datagram := fun d hd =>
    (read_of_delivered hw hdel hd).imp fun g hg => ⟨hg.1, hg.2.1⟩
  have hread := arrivalsOf_readFragments hw he dels hsent
  rw [← map_snd_readFragments hw _ fun d hd => hsent d (List.mem_of_mem_filter hd), ← hread,
    harr, List.getLast?_map, List.getLast?_eq_some_getLast (List.cons_ne_nil _ _), Option.map_some]

end Delivery

/-- End-to-end frame verdicts, for a sender polled to its end, a link that delivers any of its
datagrams at most once in any order, and a finalized receiver: frame `n` ends received exactly when
every datagram of a frame carrying it arrived, with a record of its poll instant, last arrival,
delay, timeliness and score; otherwise it is reported lost. -/
theorem frame_verdicts_end_to_end (sc : SenderConfig) (cat : Catalog) (tx : Sender)
    (htx : Sender.new sc cat = .ok tx) (hseq : (cat.frames.map Frame.seq).Nodup)
    (start : Float) (dir : Directory) (rc : ReceiverConfig) (agg agg' agg₂ : Aggregator)
    (rx : Receiver) (hrx : Receiver.new rc agg = .ok (rx, agg'))
    (dels : List (List UInt8 × Float))
    (hdel : (dels.map Prod.fst).Subperm (datagramsOf (tx.transmit start dir)))
    (n : UInt32) (hn : 1 ≤ n.toNat ∧ n.toNat ≤ rc.expectedFrames.toNat) :
    let bursts := tx.transmit start dir
    let fin := ((rx.receiveDatagrams dels).finalize agg₂).2.1
    (∀ e ∈ bursts, e.2.fragments.length =
        (e.2.frame.size.toNat + sc.maxPayload - 1) / sc.maxPayload) ∧
    ((fin.tracker.get? n).any FrameState.isComplete = true ↔
      ∃ e ∈ bursts, e.2.frame.seq = n ∧ ∀ f ∈ e.2.fragments, f.datagram ∈ dels.map Prod.fst) ∧
    ((∃ rec, .completed rec ∈ fin.events ∧ rec.frameNumber = n) ↔
      (fin.tracker.get? n).any FrameState.isComplete = true) ∧
    (∀ e ∈ bursts, e.2.frame.seq = n →
      (∀ f ∈ e.2.fragments, f.datagram ∈ dels.map Prod.fst) →
      ∃ a, ((dels.filter fun d => d.1 ∈ e.2.fragments.map Fragment.datagram).map
          Prod.snd).getLast? = some a ∧
        .completed
          { frameNumber := n, components := e.2.frame.components, error := e.2.frame.error
            size := e.2.frame.size, sentAt := e.1, receivedAt := a
            delayMs := (a - e.1) * 1000.0
            onTime := decide ((a - e.1) * 1000.0 ≤ rc.deadlineMs)
            effectiveError :=
              if (a - e.1) * 1000.0 ≤ rc.deadlineMs then e.2.frame.error else rc.penalty
            deadlineMs := rc.deadlineMs } ∈ fin.events) ∧
    ((fin.tracker.get? n).any FrameState.isComplete = false →
      .lost (FrameRecord.lost n rc.penalty rc.deadlineMs) ∈ fin.events) := by
  intro bursts fin
  obtain ⟨hcfg, hcat, -⟩ := Sender.new_eq_ok htx
  have hw : WellCut bursts := wellCut_transmit tx start dir (hcat ▸ hseq)
  have hfin : fin = ((rx.receiveAll (readFragments dels)).finalize agg₂).2.1 := by
    simp only [fin, Receiver.receiveDatagrams_eq]
  refine ⟨?cut, ?received, ?events, ?record, ?lost⟩
  case cut =>
    intro e he
    obtain ⟨-, -, hlen, -, -⟩ :=
      Frame.fragments_eq_ok (Sender.fragments_of_mem_transmit tx start dir e he)
    rw [hcfg] at hlen
    exact hlen
  case received =>
    rw [hfin, Receiver.isComplete_verdict_iff hrx]
    constructor
    · rintro ⟨f, a, rest, harr, hfull⟩
      have hmem := List.mem_filter.mp
        (show (f, a) ∈ arrivalsOf n (readFragments dels) by rw [harr]; exact List.mem_cons_self)
      have hkeep : f.frameSeq = n ∧ f.count ≠ 0 := by simpa using hmem.2
      obtain ⟨e, he, hfe⟩ := mem_fragmentsOf.mp
        ((subperm_readFragments hw hdel).subset (List.mem_map_of_mem hmem.1))
      have hseq_e : e.2.frame.seq = n := (hw.carries e he f hfe).1.frameSeq_eq ▸ hkeep.1
      subst hseq_e
      exact ⟨e, he, rfl, (full_iff_delivered hw hdel he).mp ⟨f, a, rest, harr, hfull⟩⟩
    · rintro ⟨e, he, rfl, hall⟩
      exact (full_iff_delivered hw hdel he).mpr hall
  case events =>
    rw [hfin]
    exact Receiver.completed_verdict_iff hrx _ _ _
  case record =>
    intro e he hseq_e hall
    subst hseq_e
    obtain ⟨f, a, rest, x, done, harr, hget, hlast⟩ := last_arrival hw hdel he hall
    have hf : f ∈ e.2.fragments :=
      (arrivals_subset_nodup hw hdel he).1 (f, a) (by rw [harr]; exact List.mem_cons_self)
    have hc := (hw.carries e he f hf).1
    have hrec := Receiver.completed_record_mem hrx (readFragments dels) agg₂ e.2.frame.seq harr hget
    rw [hc.components_eq, hc.error_eq, hc.frameSize_eq, hc.sentAt_eq] at hrec
    rw [hfin]
    exact ⟨done, hlast, hrec⟩
  case lost =>
    intro hinc
    rw [hfin] at hinc ⊢
    exact Receiver.lost_verdict_mem hrx _ _ _ hn hinc

/-- A catalog of one frame of 100 bytes. -/
def oneFrameCatalog : Catalog := ⟨[⟨1, 10, 2.0, 100⟩], List.cons_ne_nil _ _⟩

/-- The new receiver of the default configuration. -/
def defaultReceiver : Receiver :=
  { config := {}, tracker := Tracker.new ⟨40.0, 1000.0⟩, streamId := 0 }

/-- A sender of `oneFrameCatalog` without jitter, sending to `rx`. -/
def steadySender : Sender :=
  { config := { jitter := Jitter.none, destination := "rx" }
    catalog := oneFrameCatalog
    pacer := ⟨60.0, atLeast 0.0 0.0, ⟨Jitter.none, Random.Stream.ofSeed 0⟩, 0, 1, none⟩ }

/-- A directory in which `rx` is peer 0. -/
def rxDirectory : Directory := Directory.ofList [("rx", ⟨0⟩)]

/-- The frame goes out in one datagram, which is delivered half a second in, and the frame is
received; so does every frame of the verdicts. -/
theorem frame_verdicts_all_delivered :
    let bursts := steadySender.transmit 0.0 rxDirectory
    let dels := (datagramsOf bursts).map (·, 0.5)
    let fin := ((defaultReceiver.receiveDatagrams dels).finalize {}).2.1
    bursts.map (fun e => e.2.fragments.length) = [1] ∧
    (fin.tracker.get? 1).any FrameState.isComplete = true ∧
    (∀ e ∈ bursts, e.2.fragments.length =
        (e.2.frame.size.toNat + (1400 : Nat) - 1) / 1400) ∧
    ((fin.tracker.get? 1).any FrameState.isComplete = true ↔
      ∃ e ∈ bursts, e.2.frame.seq = 1 ∧ ∀ f ∈ e.2.fragments, f.datagram ∈ dels.map Prod.fst) ∧
    ((∃ rec, .completed rec ∈ fin.events ∧ rec.frameNumber = 1) ↔
      (fin.tracker.get? 1).any FrameState.isComplete = true) ∧
    (∀ e ∈ bursts, e.2.frame.seq = 1 →
      (∀ f ∈ e.2.fragments, f.datagram ∈ dels.map Prod.fst) →
      ∃ a, ((dels.filter fun d => d.1 ∈ e.2.fragments.map Fragment.datagram).map
          Prod.snd).getLast? = some a ∧
        .completed
          { frameNumber := 1, components := e.2.frame.components, error := e.2.frame.error
            size := e.2.frame.size, sentAt := e.1, receivedAt := a
            delayMs := (a - e.1) * 1000.0
            onTime := decide ((a - e.1) * 1000.0 ≤ 40.0)
            effectiveError := if (a - e.1) * 1000.0 ≤ 40.0 then e.2.frame.error else 1000.0
            deadlineMs := 40.0 } ∈ fin.events) ∧
    ((fin.tracker.get? 1).any FrameState.isComplete = false →
      .lost (FrameRecord.lost 1 1000.0 40.0) ∈ fin.events) := by
  have hstart := Sender.start_off (s := steadySender) ⟨rfl, rfl, rfl, rfl⟩ (by decide) 0.0
    rxDirectory
  have hsent : (steadySender.transmit 0.0 rxDirectory).map (fun e => e.2.fragments.length) =
      [1] := by
    unfold Sender.transmit
    rcases hstart with h | h <;> rw [h] <;> decide +kernel
  have hreceived : (((defaultReceiver.receiveDatagrams
      ((datagramsOf (steadySender.transmit 0.0 rxDirectory)).map (·, 0.5))).finalize {}).2.1.tracker.get?
        1).any FrameState.isComplete = true := by
    unfold Sender.transmit
    rcases hstart with h | h <;> rw [h] <;> decide +kernel
  have hdel : (((datagramsOf (steadySender.transmit 0.0 rxDirectory)).map (·, 0.5)).map
      Prod.fst).Subperm (datagramsOf (steadySender.transmit 0.0 rxDirectory)) := by
    rw [List.map_map]
    exact (List.map_id' _ ▸ List.Subperm.refl _)
  exact ⟨hsent, hreceived, frame_verdicts_end_to_end { jitter := Jitter.none, destination := "rx" }
    oneFrameCatalog steadySender rfl (by decide) 0.0 rxDirectory {} {} _ {} defaultReceiver rfl _
    hdel 1 (by decide)⟩

end XrDelivery
