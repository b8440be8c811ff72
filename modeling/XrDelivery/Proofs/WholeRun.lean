import Mathlib
import XrDelivery.Simulation
import XrDelivery.Proofs.ReceiverRun
import XrDelivery.Proofs.Publication
import XrDelivery.Proofs.PacerSchedule

/-!
# A whole run publishes the global summary

Every stream of a run is set up, and its receiver registered, before any stream runs; each
stream then runs on its own, and the only thing it shares with the others is the aggregator, to
which its receiver contributes once, when it is finalized. So whatever order the streams finish
in, the aggregator sees all the registrations and then one contribution per stream: the last
contribution publishes, the reports are those of the streams run alone, and the global counts are
sums over the reports. Only the sum of the error sums depends on the order, as floating-point
additions do.

`RunConfig.runInOrder` runs the streams one after the other in a given order and puts the
reports back in user order; `RunConfig.run` is the run in user order.
-/
namespace XrDelivery

section ExceptSteps

variable {ε ε' α β : Type}

theorem exists_of_bind_eq_ok {x : Except ε α} {g : α → Except ε β} {b : β}
    (h : x >>= g = .ok b) : ∃ a, x = .ok a ∧ g a = .ok b := by
  cases x with
  | error e => cases h
  | ok a => exact ⟨a, rfl, h⟩

theorem eq_ok_of_toOption_eq_some {x : Except ε α} {a : α} (h : x.toOption = some a) :
    x = .ok a := by
  cases x with
  | error e => cases h
  | ok b => cases h; rfl

theorem ok_of_mapError_eq_ok {g : ε → ε'} {x : Except ε α} {a : α}
    (h : x.mapError g = .ok a) : x = .ok a := by
  cases x <;> simp_all [Except.mapError]

theorem exists_of_map_eq_ok {x : Except ε α} {g : α → β} {b : β} (h : g <$> x = .ok b) :
    ∃ a, x = .ok a ∧ g a = b := by
  cases x with
  | error e => cases h
  | ok a => cases h; exact ⟨a, rfl, rfl⟩

theorem eq_ok_unit_of_forall_ne_error {x : Except ε Unit} (h : ∀ e, x = .error e → False) :
    x = .ok () := by
  cases x with
  | error e => exact (h e rfl).elim
  | ok u => rfl

theorem bind_congr_of_ok {x : Except ε α} {g g' : α → Except ε β}
    (h : ∀ a, x = .ok a → g a = g' a) : x >>= g = x >>= g' := by
  cases x with
  | error e => rfl
  | ok a => exact h a rfl

theorem mapM_eq_ok_iff (f : α → Except ε β) (l : List α) (bs : List β) :
    l.mapM f = .ok bs ↔ bs.map some = l.map fun a => (f a).toOption := by
  induction l generalizing bs with
  | nil => cases bs <;> simp [pure, Except.pure]
  | cons a l ih =>
    rw [List.mapM_cons]
    cases hf : f a with
    | error e => cases bs <;> simp [bind, Except.bind, Except.toOption, hf]
    | ok b =>
      cases bs with
      | nil => cases hl : l.mapM f <;> simp [bind, Except.bind, pure, Except.pure]
      | cons b' bs =>
        rw [List.map_cons, List.map_cons, hf, List.cons.injEq, ← ih bs]
        cases hl : l.mapM f <;> simp [bind, Except.bind, pure, Except.pure, Except.toOption]
        exact fun _ => eq_comm

theorem exists_mapM_eq_ok {f : α → Except ε β} {l : List α} (h : ∀ a ∈ l, ∃ b, f a = .ok b) :
    ∃ bs, l.mapM f = .ok bs := by
  induction l with
  | nil => exact ⟨[], rfl⟩
  | cons a l ih =>
    obtain ⟨b, hb⟩ := h a List.mem_cons_self
    obtain ⟨bs, hbs⟩ := ih fun a' ha' => h a' (List.mem_cons_of_mem a ha')
    exact ⟨b :: bs, by simp [List.mapM_cons, hb, hbs, bind, Except.bind, pure, Except.pure]⟩

theorem exists_of_mapM_eq_ok {f : α → Except ε β} {l : List α} {bs : List β}
    (h : l.mapM f = .ok bs) {a : α} (ha : a ∈ l) : ∃ b, f a = .ok b := by
  have hmem : (f a).toOption ∈ bs.map some := by
    rw [(mapM_eq_ok_iff f l bs).mp h]
    exact List.mem_map_of_mem ha
  obtain ⟨b, -, hb⟩ := List.mem_map.mp hmem
  cases hfa : f a with
  | error e => simp [hfa, Except.toOption] at hb
  | ok b' => exact ⟨b', rfl⟩

end ExceptSteps

namespace Flight

theorem receiver_deliverUntil (now : Float) (fuel : Nat) (f : Flight) :
    (Flight.deliverUntil now fuel f).receiver.config = f.receiver.config ∧
      (Flight.deliverUntil now fuel f).receiver.outcome = f.receiver.outcome := by
  induction fuel generalizing f with
  | zero => exact ⟨rfl, rfl⟩
  | succ fuel ih =>
    unfold Flight.deliverUntil
    split
    · rw [(ih _).1, (ih _).2]
      dsimp only
      split <;> simp
    · exact ⟨rfl, rfl⟩

theorem receiver_deliver (f : Flight) (now : Float) :
    (f.deliver now).receiver.config = f.receiver.config ∧
      (f.deliver now).receiver.outcome = f.receiver.outcome :=
  receiver_deliverUntil now _ f

theorem receiver_transmit {now : Float} {frags : List Fragment} {f f' : Flight}
    (h : f.transmit now frags = .ok f') : f'.receiver = f.receiver := by
  induction frags generalizing f with
  | nil =>
    simp only [Flight.transmit, List.foldlM_nil] at h
    cases h
    rfl
  | cons frag frags ih =>
    simp only [Flight.transmit, List.foldlM_cons] at h
    cases hc : f.channel.transmit now (Wire.Datagram.ofFragment frag).encode.length with
    | error e => simp [hc, bind, Except.bind] at h
    | ok p =>
      obtain ⟨arrival, ch⟩ := p
      simp only [hc, bind, Except.bind, pure, Except.pure] at h
      cases arrival with
      | some a =>
        exact ih (f := { f with channel := ch, queue := _ })
          (by simpa only [Flight.transmit, bind, Except.bind, pure, Except.pure] using h)
      | none =>
        exact ih (f := { f with channel := ch })
          (by simpa only [Flight.transmit, bind, Except.bind, pure, Except.pure] using h)

theorem receiver_play {fuel : Nat} {next : Option Float} {f f' : Flight}
    (h : Flight.play fuel next f = .ok f') :
    f'.receiver.config = f.receiver.config ∧ f'.receiver.outcome = f.receiver.outcome := by
  induction fuel generalizing next f with
  | zero =>
    cases h
    exact ⟨rfl, rfl⟩
  | succ fuel ih =>
    cases next with
    | none =>
      cases h
      exact ⟨rfl, rfl⟩
    | some now =>
      have hd := receiver_deliver f now
      unfold Flight.play at h
      dsimp only at h
      split at h
      next b tx _ =>
        cases ht : ({ f.deliver now with sender := tx } : Flight).transmit now b.fragments with
        | error e => simp [ht, bind, Except.bind] at h
        | ok g =>
          simp only [ht, bind, Except.bind] at h
          obtain ⟨h1, h2⟩ := ih h
          have hg := receiver_transmit ht
          exact ⟨by rw [h1, hg, hd.1], by rw [h2, hg, hd.2]⟩
      · cases h
        exact hd
      · cases h
        exact hd

end Flight

namespace Receiver

variable {r : Receiver}

theorem new_registers {c : ReceiverConfig} {agg agg' : Aggregator}
    (h : Receiver.new c agg = .ok (r, agg')) : agg' = (agg.call .register).2 :=
  (new_eq_ok_iff.mp h).2.2

/-- The first finalize contributes the stream's quality once; nothing else it does depends on
the aggregator. -/
theorem finalize_contributes (h : r.outcome = none) (agg : Aggregator) :
    (r.finalize agg).2.1 = (r.finalize {}).2.1 ∧
      (r.finalize agg).1.quality = (r.finalize {}).1.quality ∧
      (r.finalize agg).2.2 = (agg.contribute (r.finalize {}).1.quality).2 := by
  simp [finalize, h]

theorem totalFrames_finalize (h : r.outcome = none) (agg : Aggregator) :
    (r.finalize agg).1.quality.totalFrames = r.config.expectedFrames := by
  simp [finalize, h, quality, StreamQuality.compute]

end Receiver

namespace StreamSetup

variable {s : StreamSetup} {dir : Directory}

/-- What a stream reports when it runs on its own. -/
def report (s : StreamSetup) (dir : Directory) : Except RunError StreamReport :=
  Prod.fst <$> s.run dir {}

theorem runFrom_eq_report (h : s.receiver.outcome = none)
    (st : Except SetupError (Option Float × Sender)) (agg : Aggregator) :
    s.runFrom st agg = (fun r => (r, (agg.contribute r.quality).2)) <$> (Prod.fst <$> s.runFrom st {}) := by
  unfold StreamSetup.runFrom StreamSetup.launch
  cases st <;>
  · simp only [map_bind, map_pure]
    refine bind_congr_of_ok fun f hf => ?_
    have hout : (f.deliver (1.0 / 0.0)).receiver.outcome = none := by
      rw [(Flight.receiver_deliver f _).2, (Flight.receiver_play (ok_of_mapError_eq_ok hf)).2]
      exact h
    obtain ⟨h1, h2, h3⟩ := Receiver.finalize_contributes hout agg
    simp only [h1, h2, h3]

theorem run_eq_report (h : s.receiver.outcome = none) (dir : Directory) (agg : Aggregator) :
    s.run dir agg = (fun r => (r, (agg.contribute r.quality).2)) <$> s.report dir :=
  runFrom_eq_report h _ agg

theorem runFrom_eq_ok (h : s.receiver.outcome = none) {st : Except SetupError (Option Float × Sender)}
    {r : StreamReport} (hr : Prod.fst <$> s.runFrom st {} = .ok r) :
    r.index = s.index ∧ r.quality.totalFrames = s.receiver.config.expectedFrames := by
  revert hr
  unfold StreamSetup.runFrom StreamSetup.launch
  cases st <;>
  · intro hr
    simp only [map_bind, map_pure] at hr
    obtain ⟨f, hf, hr⟩ := exists_of_bind_eq_ok hr
    cases hr
    have hpl := Flight.receiver_play (ok_of_mapError_eq_ok hf)
    have hdl := Flight.receiver_deliver f (1.0 / 0.0)
    refine ⟨rfl, ?_⟩
    rw [Receiver.totalFrames_finalize (by rw [hdl.2, hpl.2]; exact h), hdl.1, hpl.1]

theorem report_eq_ok (h : s.receiver.outcome = none) {r : StreamReport}
    (hr : s.report dir = .ok r) :
    r.index = s.index ∧ r.quality.totalFrames = s.receiver.config.expectedFrames :=
  runFrom_eq_ok h hr

end StreamSetup

namespace RunConfig

variable {c : RunConfig} {read : FileReader}

/-- Setting up a stream registers its receiver, unfinalized and with the run's receiver
configuration. -/
theorem setupStream_eq_ok {agg agg' : Aggregator} {i : Nat} {u : UserConfig} {st : StreamSetup}
    (h : c.setupStream read agg i u = .ok (st, agg')) :
    st.index = i ∧ st.receiver.config = c.receiver ∧ st.receiver.outcome = none ∧
      agg' = (agg.call .register).2 := by
  unfold setupStream at h
  obtain ⟨cat, -, h⟩ := exists_of_bind_eq_ok h
  obtain ⟨span, -, h⟩ := exists_of_bind_eq_ok h
  obtain ⟨tl, -, h⟩ := exists_of_bind_eq_ok h
  obtain ⟨tx, -, h⟩ := exists_of_bind_eq_ok h
  obtain ⟨⟨rx, agg₁⟩, hrx, h⟩ := exists_of_bind_eq_ok h
  cases h
  have hnew := ok_of_mapError_eq_ok hrx
  obtain ⟨hc, -, hout, -⟩ := Receiver.new_eq_ok hnew
  exact ⟨rfl, hc, hout, Receiver.new_registers hnew⟩

/-- Setting up users in turn, each at its position: the new streams come in the users' order,
each registered once. -/
theorem foldlM_setupStream
    {step : List StreamSetup × Aggregator → UserConfig × Nat →
      Except RunError (List StreamSetup × Aggregator)}
    (hstep : ∀ acc agg u i,
      step (acc, agg) (u, i) = (fun p => (p.1 :: acc, p.2)) <$> c.setupStream read agg i u)
    (l : List (UserConfig × Nat)) (acc : List StreamSetup) (agg : Aggregator)
    {acc' : List StreamSetup} {agg' : Aggregator} (h : l.foldlM step (acc, agg) = .ok (acc', agg')) :
    ∃ new : List StreamSetup, acc' = new.reverse ++ acc ∧
      new.map StreamSetup.index = l.map Prod.snd ∧
      (∀ s ∈ new, s.receiver.config = c.receiver ∧ s.receiver.outcome = none) ∧
      agg' = agg.callAll (List.replicate l.length .register) := by
  induction l generalizing acc agg with
  | nil =>
    cases h
    exact ⟨[], rfl, rfl, by simp, rfl⟩
  | cons ui l ih =>
    obtain ⟨u, i⟩ := ui
    rw [List.foldlM_cons] at h
    obtain ⟨p, hp, h⟩ := exists_of_bind_eq_ok h
    rw [hstep] at hp
    obtain ⟨⟨st, agg₁⟩, hst, rfl⟩ := exists_of_map_eq_ok hp
    obtain ⟨hi, hc, hout, rfl⟩ := setupStream_eq_ok hst
    obtain ⟨new, rfl, hidx, hrec, rfl⟩ := ih (st :: acc) _ h
    refine ⟨st :: new, by simp, by simp [hi, hidx], ?_, rfl⟩
    intro s hs
    rcases List.mem_cons.mp hs with rfl | hs
    · exact ⟨hc, hout⟩
    · exact hrec s hs

/-- After the setup, every user has a stream at its position, with a fresh receiver under the
run's receiver configuration, and the aggregator has one registration per user. -/
theorem setupStreams_eq_ok {setups : List StreamSetup} {agg : Aggregator}
    (h : c.setupStreams read = .ok (setups, agg)) :
    setups.map StreamSetup.index = List.range c.users.length ∧
      (∀ s ∈ setups, s.receiver.config = c.receiver ∧ s.receiver.outcome = none) ∧
      agg = ({} : Aggregator).callAll (List.replicate c.users.length .register) := by
  unfold setupStreams at h
  obtain ⟨⟨acc, agg₀⟩, hf, h⟩ := exists_of_bind_eq_ok h
  cases h
  obtain ⟨new, rfl, hidx, hrec, rfl⟩ := foldlM_setupStream (fun _ _ _ _ => rfl) _ _ _ hf
  refine ⟨?_, by simpa using hrec, by simp⟩
  simp [hidx, List.zipIdx_map_snd, List.range_eq_range']

/-- Running streams one after the other: each reports what it reports alone, the reports pile
up last first, and the aggregator takes one contribution per stream, in the order they ran. -/
theorem foldlM_run_streams {dir : Directory}
    {step : List StreamReport × Aggregator → StreamSetup →
      Except RunError (List StreamReport × Aggregator)}
    (hstep : ∀ acc agg s, step (acc, agg) s = (fun p => (p.1 :: acc, p.2)) <$> s.run dir agg)
    (ss : List StreamSetup) (hss : ∀ s ∈ ss, s.receiver.outcome = none)
    (acc : List StreamReport) (agg : Aggregator) :
    ss.foldlM step (acc, agg) =
      (fun rs => (rs.reverse ++ acc,
        agg.callAll (rs.map fun r => .contribute r.index r.quality))) <$>
        ss.mapM (·.report dir) := by
  induction ss generalizing acc agg with
  | nil => rfl
  | cons st ss ih =>
    rw [List.foldlM_cons, List.mapM_cons, hstep,
      StreamSetup.run_eq_report (hss st List.mem_cons_self)]
    cases hr : st.report dir with
    | error e => rfl
    | ok r =>
      simp only [Functor.map, Except.map, bind, Except.bind]
      rw [ih (fun s hs => hss s (List.mem_cons_of_mem _ hs))]
      cases ss.mapM (·.report dir) <;> simp [Functor.map, Except.map, pure, Except.pure,
        Aggregator.callAll_cons, Aggregator.call]

/-- A run in user order sets every stream up, runs each on its own, and hands the aggregator all
the registrations, then one contribution per stream in user order. -/
theorem run_eq (c : RunConfig) (read : FileReader) :
    c.run read = (do
      let (setups, agg) ← c.setupStreams read
      let rs ← setups.mapM (·.report c.directory)
      pure { seed := c.seed, streams := rs,
             global := (agg.callAll (rs.map fun r => .contribute r.index r.quality)).published }) := by
  unfold run
  refine bind_congr_of_ok fun ⟨setups, agg⟩ h => ?_
  have hss s (hs : s ∈ setups) := ((setupStreams_eq_ok h).2.1 s hs).2
  simp only
  rw [foldlM_run_streams (fun _ _ _ => rfl) setups hss]
  cases setups.mapM (·.report c.directory) with
  | error e => rfl
  | ok rs => simp [Functor.map, Except.map, bind, Except.bind]

/-- A run whose streams finish in the order `order`: every stream set up first, each run on its own
and contributed as it finishes, and the reports put back in user order. -/
def runInOrder (c : RunConfig) (read : FileReader) (order : List Nat) :
    Except RunError RunReport := do
  let (setups, agg) ← c.setupStreams read
  let dir := c.directory
  let (reports, agg) ← (order.filterMap fun i => setups[i]?).foldlM (fun (acc, agg) s => do
    let (r, agg) ← s.run dir agg
    pure (r :: acc, agg)) (([] : List StreamReport), agg)
  pure { seed := c.seed, streams := reports.mergeSort fun r r' => decide (r.index ≤ r'.index),
         global := agg.published }

theorem runInOrder_eq (c : RunConfig) (read : FileReader) (order : List Nat) :
    c.runInOrder read order = (do
      let (setups, agg) ← c.setupStreams read
      let rs ← (order.filterMap fun i => setups[i]?).mapM (·.report c.directory)
      pure { seed := c.seed, streams := rs.reverse.mergeSort fun r r' => decide (r.index ≤ r'.index),
             global := (agg.callAll (rs.map fun r => .contribute r.index r.quality)).published }) := by
  unfold runInOrder
  refine bind_congr_of_ok fun ⟨setups, agg⟩ h => ?_
  have hss (s : StreamSetup) (hs : s ∈ order.filterMap fun i => setups[i]?) :
      s.receiver.outcome = none := by
    obtain ⟨i, -, hi⟩ := List.mem_filterMap.mp hs
    exact ((setupStreams_eq_ok h).2.1 s (List.mem_of_getElem? hi)).2
  simp only
  rw [foldlM_run_streams (fun _ _ _ => rfl) _ hss]
  cases (order.filterMap fun i => setups[i]?).mapM (·.report c.directory) with
  | error e => rfl
  | ok rs => simp [Functor.map, Except.map, bind, Except.bind]

end RunConfig

section Interleaving

variable {dir : Directory}

theorem filterMap_getElem?_range {α : Type} (l : List α) (n : Nat) :
    (List.range n).filterMap (fun i => l[i]?) = l.take n := by
  induction n with
  | zero => simp
  | succ n ih =>
    rw [List.range_succ, List.filterMap_append, ih, List.take_add_one]
    congr 1

/-- Streams that all report carry, in their reports, their indices and the frames their
receivers expect. -/
theorem reports_eq_ok {ss : List StreamSetup} (hss : ∀ s ∈ ss, s.receiver.outcome = none)
    {rs : List StreamReport} (h : ss.mapM (·.report dir) = .ok rs) :
    rs.map StreamReport.index = ss.map StreamSetup.index ∧
      rs.map (·.quality.totalFrames) = ss.map (·.receiver.config.expectedFrames) := by
  induction ss generalizing rs with
  | nil =>
    cases h
    exact ⟨rfl, rfl⟩
  | cons st ss ih =>
    rw [List.mapM_cons] at h
    obtain ⟨r, hr, h⟩ := exists_of_bind_eq_ok h
    obtain ⟨rs', hrs', h⟩ := exists_of_bind_eq_ok h
    cases h
    obtain ⟨hi, ht⟩ := StreamSetup.report_eq_ok (hss st List.mem_cons_self) hr
    obtain ⟨ih1, ih2⟩ := ih (fun s hs => hss s (List.mem_cons_of_mem _ hs)) hrs'
    exact ⟨by simp [hi, ih1], by simp [ht, ih2]⟩

/-- The reports of streams whose receivers share a configuration all count the frames it
expects. -/
theorem totalFrames_reports {ss : List StreamSetup} {rc : ReceiverConfig}
    (hss : ∀ s ∈ ss, s.receiver.config = rc ∧ s.receiver.outcome = none)
    {rs : List StreamReport} (h : ss.mapM (·.report dir) = .ok rs) :
    rs.map (·.quality.totalFrames.toUInt64) =
      List.replicate ss.length rc.expectedFrames.toUInt64 := by
  have hframes := congrArg (List.map UInt32.toUInt64)
    (reports_eq_ok (fun s hs => (hss s hs).2) h).2
  simp only [List.map_map, Function.comp_def] at hframes
  rw [hframes, List.eq_replicate_iff]
  refine ⟨by simp, fun x hx => ?_⟩
  obtain ⟨s, hs, rfl⟩ := List.mem_map.mp hx
  rw [(hss s hs).1]

/-- Streams that all report in a permuted order report in user order too, with the same reports. -/
theorem reports_of_perm {setups : List StreamSetup} {order : List Nat}
    (hperm : order.Perm (List.range setups.length)) {rs : List StreamReport}
    (hrs : (order.filterMap fun i => setups[i]?).mapM (·.report dir) = .ok rs) :
    ∃ rs₀, setups.mapM (·.report dir) = .ok rs₀ ∧ rs.Perm rs₀ ∧
      order.filterMap (fun i => rs₀[i]?) = rs := by
  have hss : (order.filterMap fun i => setups[i]?).Perm setups := by
    simpa [filterMap_getElem?_range] using hperm.filterMap (fun i => setups[i]?)
  rw [mapM_eq_ok_iff] at hrs
  have hall : ∀ s ∈ setups, ∃ r, (s.report dir).toOption = some r := by
    intro s hs
    have hmem : (s.report dir).toOption ∈ rs.map some :=
      hrs ▸ List.mem_map_of_mem (hss.symm.subset hs)
    obtain ⟨r, -, hr⟩ := List.mem_map.mp hmem
    exact ⟨r, hr.symm⟩
  let rs₀ := setups.filterMap fun s => (s.report dir).toOption
  have h₀ : rs₀.map some = setups.map fun s => (s.report dir).toOption := by
    rw [List.map_filterMap, ← List.filterMap_eq_map]
    refine List.filterMap_congr fun s hs => ?_
    obtain ⟨r, hr⟩ := hall s hs
    simp [hr]
  refine ⟨rs₀, (mapM_eq_ok_iff _ _ _).mpr h₀, ?_, ?_⟩
  · rw [← List.map_perm_map_iff (Option.some_injective _), hrs, h₀]
    exact hss.map _
  · apply List.map_injective_iff.mpr (Option.some_injective _)
    rw [hrs, List.map_filterMap, List.map_filterMap]
    refine List.filterMap_congr fun i _ => ?_
    rw [← List.getElem?_map, h₀, List.getElem?_map]

theorem mergeSort_reports {rs rs₀ : List StreamReport} (hperm : rs.Perm rs₀)
    (hidx : rs₀.map StreamReport.index = List.range rs₀.length) :
    rs.reverse.mergeSort (fun r r' => decide (r.index ≤ r'.index)) = rs₀ := by
  have hsort := List.mergeSort_perm rs.reverse fun r r' => decide (r.index ≤ r'.index)
  have hnodup : (rs₀.map StreamReport.index).Nodup := hidx ▸ List.nodup_range
  refine @List.Perm.eq_of_pairwise _ (fun r r' => r.index ≤ r'.index) _ _ ?_ ?_ ?_
    (hsort.trans ((List.reverse_perm _).trans hperm))
  · intro a b ha hb hab hba
    have ha₀ : a ∈ rs₀ := (hsort.trans ((List.reverse_perm _).trans hperm)).subset ha
    exact List.inj_on_of_nodup_map hnodup ha₀ hb (by omega)
  · have h := @List.pairwise_mergeSort _ (fun r r' => decide (r.index ≤ r'.index))
      (fun a b c hab hbc => by simp at hab hbc ⊢; omega) (fun a b => by simp; omega) rs.reverse
    exact h.imp fun hab => by simpa using hab
  · have h : (rs₀.map StreamReport.index).Pairwise (· < ·) := hidx ▸ List.pairwise_lt_range
    exact (List.pairwise_map.mp h).imp Nat.le_of_lt

theorem contributions_map_contribute (rs : List StreamReport) :
    contributions (rs.map fun r => .contribute r.index r.quality) = rs.map (·.quality) := by
  simp [contributions, List.filterMap_map, AggregatorCall.contribution?, Function.comp_def]

theorem tokens_map_contribute (rs : List StreamReport) :
    (rs.map fun r => AggregatorCall.contribute r.index r.quality).filterMap
      AggregatorCall.token? = rs.map StreamReport.index := by
  simp [List.filterMap_map, AggregatorCall.token?, Function.comp_def]

theorem sum_replicate_uint64 (n : Nat) (x : UInt64) :
    (List.replicate n x).sum = n.toUInt64 * x := by
  induction n with
  | zero => simp
  | succ n ih =>
    rw [List.replicate_succ', List.sum_append, ih]
    simp [UInt64.add_mul]

theorem totals_of_reports (N : Nat) (rs : List StreamReport) :
    let a := ({} : Aggregator).callAll
      (List.replicate N .register ++ rs.map fun r => .contribute r.index r.quality)
    a.streamCount = N ∧ a.satisfiedStreamCount = rs.countP (·.quality.userSatisfied) ∧
      a.totalExpectedFrames = (rs.map (·.quality.totalFrames.toUInt64)).sum ∧
      a.totalOnTimeFrames = (rs.map (·.quality.onTimeFrames.toUInt64)).sum ∧
      a.totalSumError = rs.foldl (fun e r => e + r.quality.sumError) 0.0 := by
  intro a
  obtain ⟨h1, -, h3, h4, h5, h6⟩ := Aggregator.callAll_totals {}
    (List.replicate N .register ++ rs.map fun r => .contribute r.index r.quality)
  have hreg : registrations (rs.map fun r => AggregatorCall.contribute r.index r.quality) = 0 :=
    List.countP_eq_zero.mpr fun c hc => by
      obtain ⟨r, -, rfl⟩ := List.mem_map.mp hc
      simp [AggregatorCall.isRegister]
  simp only [contributions_append, contributions_replicate_register, List.nil_append,
    contributions_map_contribute, registrations_append, registrations_replicate_register,
    hreg] at h1 h3 h4 h5 h6
  refine ⟨by simpa using h1, by simpa [List.countP_map, Function.comp_def] using h3,
    by simpa [Function.comp_def] using h4, by simpa [Function.comp_def] using h5,
    by simpa [List.foldl_map] using h6⟩

/-- After the registrations of `N` streams, the contributions of reports whose indices permute
the positions publish the summary of the totals over the reports. -/
theorem published_of_reports {N : Nat} (hN : 0 < N) {rs : List StreamReport}
    (hidx : (rs.map StreamReport.index).Perm (List.range N)) :
    ((({} : Aggregator).callAll (List.replicate N .register)).callAll
        (rs.map fun r => .contribute r.index r.quality)).published =
      some (({} : Aggregator).callAll
        (List.replicate N .register ++ rs.map fun r => .contribute r.index r.quality)).summarize := by
  rw [← Aggregator.callAll_append]
  refine published_registrations_first hN (by rwa [tokens_map_contribute]) ?_
  intro c hc
  obtain ⟨r, -, rfl⟩ := List.mem_map.mp hc
  rfl

end Interleaving

/-! ### Runs of senders without jitter

A sender without jitter starts in one of two ways (`Sender.starts`), both computed without the
maths library. A stream whose reports agree however its sender starts has that report, and a run
of such streams can be evaluated. -/

namespace StreamSetup

variable {β : Type} {s : StreamSetup} {dir : Directory} {summary : StreamReport → β} {v : β}

/-- The reports a stream may give on its own, one for each start its sender may make. -/
def reports (s : StreamSetup) (dir : Directory) : List (Except RunError StreamReport) :=
  (s.sender.starts 0.0 dir).map fun st => Prod.fst <$> s.runFrom st {}

theorem report_mem_reports (s : StreamSetup) (dir : Directory) : s.report dir ∈ s.reports dir :=
  List.mem_map_of_mem (Sender.start_mem_starts _ _ _)

/-- Every report a stream may give goes through, with summary `v`. -/
def Settles (s : StreamSetup) (dir : Directory) (summary : StreamReport → β) (v : β) : Prop :=
  ∀ e ∈ s.reports dir, (summary <$> e).toOption = some v

instance [DecidableEq β] : Decidable (s.Settles dir summary v) :=
  inferInstanceAs (Decidable (∀ e ∈ s.reports dir, _))

theorem report_of_settles (h : s.Settles dir summary v) : ∃ r, s.report dir = .ok r ∧ summary r = v := by
  have hv := h _ (report_mem_reports s dir)
  cases hr : s.report dir with
  | error e => simp [hr, Except.toOption, Functor.map, Except.map] at hv
  | ok r =>
    simp only [hr, Except.toOption, Functor.map, Except.map, Option.some.injEq] at hv
    exact ⟨r, rfl, hv⟩

theorem mapM_report_of_settles {ss : List StreamSetup} {vs : List β}
    (h : List.Forall₂ (fun s v => s.Settles dir summary v) ss vs) :
    ∃ rs, ss.mapM (·.report dir) = .ok rs ∧ rs.map summary = vs := by
  induction h with
  | nil => exact ⟨[], rfl, rfl⟩
  | cons hs _ ih =>
    obtain ⟨r, hr, rfl⟩ := report_of_settles hs
    obtain ⟨rs, hrs, rfl⟩ := ih
    exact ⟨r :: rs, by simp [List.mapM_cons, hr, hrs, bind, Except.bind, pure, Except.pure], rfl⟩

end StreamSetup

namespace RunConfig

variable {c : RunConfig} {read : FileReader}

/-- A run whose streams settle, each on its summary, goes through with those summaries. The
hypothesis is checked by evaluation. -/
theorem run_summary {β : Type} [DecidableEq β] (summary : StreamReport → β) {vs : List β}
    (h : (c.setupStreams read).toOption.any
      (fun p => decide (List.Forall₂ (fun s v => s.Settles c.directory summary v) p.1 vs)) = true) :
    ∃ rep, c.run read = .ok rep ∧ rep.streams.map summary = vs := by
  cases hsetup : c.setupStreams read with
  | error e => simp [hsetup, Except.toOption] at h
  | ok p =>
    obtain ⟨setups, agg⟩ := p
    simp only [hsetup, Except.toOption, Option.any_some, decide_eq_true_eq] at h
    obtain ⟨rs, hrs, hsum⟩ := StreamSetup.mapM_report_of_settles h
    refine ⟨{ seed := c.seed, streams := rs,
               global := (agg.callAll (rs.map fun r => .contribute r.index r.quality)).published },
      ?_, hsum⟩
    rw [run_eq, hsetup]
    simp only [bind, Except.bind, hrs, pure, Except.pure]

theorem runInOrder_eq_ok_of_run {rep₀ : RunReport} (h : c.run read = .ok rep₀) (order : List Nat) :
    ∃ rep, c.runInOrder read order = .ok rep := by
  rw [run_eq] at h
  obtain ⟨⟨setups, agg⟩, hsetup, h⟩ := exists_of_bind_eq_ok h
  obtain ⟨rs, hrs, -⟩ := exists_of_bind_eq_ok h
  obtain ⟨rs', hrs'⟩ := exists_mapM_eq_ok (l := order.filterMap fun i => setups[i]?)
    (f := (·.report c.directory)) fun s hs => by
      obtain ⟨i, -, hi⟩ := List.mem_filterMap.mp hs
      exact exists_of_mapM_eq_ok hrs (List.mem_of_getElem? hi)
  rw [runInOrder_eq, hsetup]
  simp only [bind, Except.bind, hrs', pure, Except.pure]
  exact ⟨_, rfl⟩

end RunConfig

/-- What a resolved configuration holds: the seed, checked sender and receiver templates, the
written link resolved, and users that the scan of the fitted entries resolved, at least one. -/
theorem ConfigInput.resolve_eq_ok {ci : ConfigInput} {c : RunConfig} (h : ci.resolve = .ok c) :
    c.seed = ci.seed.getD 1 ∧ c.sender.validate = .ok () ∧ c.receiver.validate = .ok () ∧
      ci.link.resolve = .ok c.link ∧
      ∃ scan : UserScan,
        (fitUsers (ci.userCount.getD (max ci.users.length 1)) ci.users).zipIdx.foldlM
          (fun (s : UserScan) (p : UserInput × Nat) =>
            s.add (ci.catalog.resolve c.seed) c.sender.startOffset p.2 p.1)
          { levels := Random.Stream.ofSeed c.seed } = .ok scan ∧
        scan.done ≠ [] ∧ c.users = scan.done.reverse := by
  unfold ConfigInput.resolve at h
  simp only [bind, Except.bind, pure, Except.pure, throw, throwThe, MonadExceptOf.throw] at h
  repeat' split at h
  all_goals try cases h
  all_goals
    refine ⟨rfl, eq_ok_unit_of_forall_ne_error ?_, eq_ok_unit_of_forall_ne_error ?_, ?_, _, ?_, ?_,
      rfl⟩
  all_goals first | assumption | exact fun hnil => by simp_all

theorem ConfigInput.users_ne_nil_of_resolve {ci : ConfigInput} {c : RunConfig}
    (h : ci.resolve = .ok c) : c.users ≠ [] := by
  obtain ⟨-, -, -, -, scan, -, hne, husers⟩ := ConfigInput.resolve_eq_ok h
  rw [husers]
  exact List.reverse_ne_nil_iff.mpr hne

/-- Whatever order the streams finish in, a completed run reports every stream in user order as the
in-order run does and publishes the global summary; only the error sum, and the mean drawn from it,
follow the finishing order. -/
theorem run_publishes_every_stream (c : RunConfig) (read : FileReader) (hne : c.users ≠ [])
    (order : List Nat) (hperm : order.Perm (List.range c.users.length))
    (rep : RunReport) (hrun : c.runInOrder read order = .ok rep) :
    rep.streams.map StreamReport.index = List.range c.users.length ∧
    (∃ rep₀, c.run read = .ok rep₀ ∧ rep.streams = rep₀.streams) ∧
    ∃ g, rep.global = some g ∧
      g.streamCount = c.users.length ∧
      g.satisfiedStreamCount = rep.streams.countP (·.quality.userSatisfied) ∧
      g.totalExpectedFrames = c.users.length.toUInt64 * c.receiver.expectedFrames.toUInt64 ∧
      g.totalOnTimeFrames = (rep.streams.map (·.quality.onTimeFrames.toUInt64)).sum ∧
      g.globalDelayReliability = (if g.totalExpectedFrames = 0 then 0.0
        else g.totalOnTimeFrames.toFloat / g.totalExpectedFrames.toFloat) ∧
      g.totalSumError = (order.filterMap fun i => rep.streams[i]?).foldl
        (fun e r => e + r.quality.sumError) 0.0 ∧
      g.globalMeanError = (if g.totalExpectedFrames = 0 then 0.0
        else g.totalSumError / g.totalExpectedFrames.toFloat) := by
  rw [RunConfig.runInOrder_eq] at hrun
  obtain ⟨⟨setups, agg⟩, hsetup, hrun⟩ := exists_of_bind_eq_ok hrun
  obtain ⟨rs, hrs, hrun⟩ := exists_of_bind_eq_ok hrun
  cases hrun
  obtain ⟨hidx, hrec, rfl⟩ := RunConfig.setupStreams_eq_ok hsetup
  have hlen : setups.length = c.users.length := by simpa using congrArg List.length hidx
  obtain ⟨rs₀, hrs₀, hperm₀, horder⟩ := reports_of_perm (hlen ▸ hperm) hrs
  have hidx₀ := (reports_eq_ok (fun s hs => (hrec s hs).2) hrs₀).1
  have hlen₀ : rs₀.length = c.users.length := by
    simpa [hlen] using congrArg List.length hidx₀
  have hsorted : rs.reverse.mergeSort (fun r r' => decide (r.index ≤ r'.index)) = rs₀ :=
    mergeSort_reports hperm₀ (by rw [hidx₀, hidx, hlen₀])
  simp only [hsorted]
  refine ⟨by rw [hidx₀, hidx], ?sequential, ?global⟩
  case sequential =>
    have hrun₀ : c.run read = .ok
        { seed := c.seed
          streams := rs₀
          global := ((({} : Aggregator).callAll (List.replicate c.users.length .register)).callAll
            (rs₀.map fun r => .contribute r.index r.quality)).published } := by
      rw [RunConfig.run_eq, hsetup]
      simp only [bind, Except.bind, hrs₀, pure, Except.pure]
    exact ⟨_, hrun₀, rfl⟩
  case global =>
    have hN : 0 < c.users.length := List.length_pos_iff.mpr hne
    have hidxperm : (rs.map StreamReport.index).Perm (List.range c.users.length) := by
      simpa [hidx₀, hidx] using hperm₀.map StreamReport.index
    have hE := totalFrames_reports hrec hrs₀
    rw [hlen] at hE
    obtain ⟨hcount, hsat, hexpected, honTime, herror⟩ := totals_of_reports c.users.length rs
    refine ⟨_, published_of_reports hN hidxperm, hcount, ?_, ?_, ?_, rfl, ?_, rfl⟩
    · exact hsat.trans (hperm₀.countP_eq _)
    · rw [← sum_replicate_uint64, ← hE]
      exact hexpected.trans ((hperm₀.map _).sum_eq)
    · exact honTime.trans ((hperm₀.map _).sum_eq)
    · rw [horder]
      exact herror

/-- What a stream report counts: fragments sent; datagrams offered, dropped and delivered; frames
received, lost and on time. -/
def StreamReport.counts (r : StreamReport) :
    UInt64 × UInt64 × UInt64 × UInt64 × UInt32 × UInt32 × UInt32 :=
  (r.sender.fragmentsSent, r.channel.offered, r.channel.dropped, r.channel.delivered,
    r.quality.receivedFrames, r.quality.lostFrames, r.quality.onTimeFrames)

/-- Two users sending each other one frame without jitter, over a link with a 5 ms delay that
loses up to half its datagrams. -/
def pairRun : RunConfig where
  version := 1
  seed := 11
  sender := { jitter := Jitter.none }
  receiver := { expectedFrames := 1 }
  link := { minRateKbit := 0, maxRateKbit := 0, rateStepKbit := 0, baseDelayMs := 5.0,
            delayRangeMs := 0.0, delayStepMs := 0.0, packetJitterMs := 0.0,
            maxLossPercent := 50.0, lossStepPercent := 0.0, step := ⟨100000000000⟩ }
  users := [{ name := "a", address := "ue0", destination := "ue1", level := 10,
              startOffset := 0.0, catalog := .file "frames.csv" },
            { name := "b", address := "ue1", destination := "ue0", level := 10,
              startOffset := 0.0, catalog := .file "frames.csv" }]

/-- A catalog file of one frame of 3000 bytes, so three datagrams, at 10 components. -/
def oneFrameFile : FileReader := fun _ => .ok "frame,components,error,size\n1,10,0.5,3000\n"

theorem pairRun_counts : ∃ rep, pairRun.run oneFrameFile = .ok rep ∧
    rep.streams.map StreamReport.counts = [(3, 3, 1, 2, 0, 1, 0), (3, 3, 0, 3, 1, 0, 1)] :=
  RunConfig.run_summary StreamReport.counts (by decide +kernel)

/-- A reader for runs that read no file. -/
def noFiles : FileReader := fun _ => .error .notFound

theorem pairRun_publishes_in_reverse :
    ∃ rep, pairRun.runInOrder oneFrameFile [1, 0] = .ok rep ∧
      rep.streams.map StreamReport.counts = [(3, 3, 1, 2, 0, 1, 0), (3, 3, 0, 3, 1, 0, 1)] ∧
      ∃ g, rep.global = some g ∧ g.streamCount = 2 ∧ g.totalOnTimeFrames = 1 := by
  obtain ⟨rep₀, hrun₀, hcounts⟩ := pairRun_counts
  obtain ⟨rep, hrep⟩ := RunConfig.runInOrder_eq_ok_of_run hrun₀ [1, 0]
  obtain ⟨-, ⟨rep₁, hrun₁, hstreams⟩, g, hg, hcount, -, -, honTime, -⟩ :=
    run_publishes_every_stream pairRun oneFrameFile (by decide) [1, 0] (by decide) rep hrep
  obtain rfl : rep₁ = rep₀ := Except.ok.inj (hrun₁.symm.trans hrun₀)
  have honTime' : rep.streams.map (·.quality.onTimeFrames.toUInt64) = [0, 1] := by
    rw [hstreams, show (fun r : StreamReport => r.quality.onTimeFrames.toUInt64) =
      (fun c => c.2.2.2.2.2.2.toUInt64) ∘ StreamReport.counts from rfl, ← List.map_map, hcounts]
    rfl
  refine ⟨rep, hrep, hstreams ▸ hcounts, g, hg, hcount, ?_⟩
  rw [honTime, honTime']
  rfl

theorem run_without_users (c : RunConfig) (read : FileReader) :
    { c with users := [] }.run read = .ok { seed := c.seed, streams := [], global := none } := rfl

theorem pairRun_without_users_publishes_nothing :
    { pairRun with users := [] }.run noFiles = .ok { seed := 11, streams := [], global := none } :=
  run_without_users pairRun noFiles

end XrDelivery
