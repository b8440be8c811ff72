import Mathlib
import XrDelivery.Proofs.WholeRun
import XrDelivery.Proofs.EndToEnd
import XrDelivery.Proofs.FrameEvents

/-!
# A receiver contributes once, at its first finalize

A host drives a receiver by three calls: a fragment that arrived, finalize, and draining the
pending events. The aggregator is shared with the other streams, so each call is made on the
aggregator as that call finds it, and what it leaves there is all the call does to it.

The first finalize is the only call that touches the aggregator: it contributes the quality it
returns, and the summary it returns is the one that contribution published. It keeps its outcome
without the summary. From then on the receiver is finalized for good: finalizing again returns
that outcome and changes nothing, a fragment changes nothing, and no call touches the
aggregator. Setting a receiver up fails exactly when its configuration does not validate, and
then no aggregator comes back; one that is set up has registered once.
-/
namespace XrDelivery

namespace Receiver

/-- A call a host makes on a receiver. -/
inductive Call where
  | fragment (f : Fragment) (arrival : Float)
  | finalize
  | drain

/-- What a call hands back: nothing for a fragment, the outcome of a finalize, the events a
drain takes out. -/
inductive Reply where
  | accepted
  | finalized (o : FinalizeOutcome)
  | drained (evs : List ReceiverEvent)

/-- One call, made on the aggregator as the call finds it: the reply, the receiver after the
call and the aggregator after it. -/
def call (r : Receiver) (agg : Aggregator) : Call → Reply × Receiver × Aggregator
  | .fragment f a => (.accepted, r.onFragment f a, agg)
  | .finalize => (.finalized (r.finalize agg).1, (r.finalize agg).2.1, (r.finalize agg).2.2)
  | .drain => (.drained r.drain.1, r.drain.2, agg)

/-- The receiver after some calls, each made on the aggregator it found; the other streams may
use the aggregator between two calls. -/
def callAll (r : Receiver) (hist : List (Call × Aggregator)) : Receiver :=
  hist.foldl (fun r x => (r.call x.2 x.1).2.1) r

variable {r : Receiver}

@[simp] theorem callAll_nil (r : Receiver) : r.callAll [] = r := rfl

@[simp] theorem callAll_cons (r : Receiver) (x : Call × Aggregator)
    (hist : List (Call × Aggregator)) :
    r.callAll (x :: hist) = (r.call x.2 x.1).2.1.callAll hist := rfl

/-- Every call on a finalized receiver leaves the aggregator and the outcome; finalizing again
answers the kept outcome and changes nothing, and so does a fragment. -/
theorem call_of_finalized {o : FinalizeOutcome} (h : r.outcome = some o) (agg : Aggregator)
    (c : Call) :
    (r.call agg c).2.2 = agg ∧ (r.call agg c).2.1.outcome = some o ∧
      (c = .finalize → (r.call agg c).1 = .finalized { o with global := none } ∧
        (r.call agg c).2.1 = r) ∧
      (∀ f a, c = .fragment f a → (r.call agg c).2.1 = r) := by
  have hfin : r.outcome.isSome := by simp [h]
  cases c with
  | fragment f a => simp [call, onFragment_of_finalized hfin, h]
  | finalize => simp [call, finalize, h]
  | drain => simp [call, drain, h]

theorem call_of_active (h : r.outcome = none) (agg : Aggregator) {c : Call}
    (hc : c ≠ .finalize) : (r.call agg c).2.2 = agg ∧ (r.call agg c).2.1.outcome = none := by
  cases c with
  | fragment f a => simp [call, h]
  | finalize => exact absurd rfl hc
  | drain => simp [call, drain, h]

/-- The first finalize contributes the quality it returns, the summary it returns is what that
contribution published, and the receiver keeps the outcome without it. -/
theorem finalize_of_active_contributes (h : r.outcome = none) (agg : Aggregator) :
    (r.finalize agg).2.2 = (agg.contribute (r.finalize agg).1.quality).2 ∧
      (r.finalize agg).1.global = (agg.contribute (r.finalize agg).1.quality).1 ∧
      (r.finalize agg).2.1.outcome = some { (r.finalize agg).1 with global := none } := by
  simp [finalize, h]

theorem outcome_callAll_of_active (h : r.outcome = none) (hist : List (Call × Aggregator))
    (hh : ∀ x ∈ hist, x.1 ≠ .finalize) : (r.callAll hist).outcome = none := by
  induction hist generalizing r with
  | nil => exact h
  | cons x hist ih =>
    rw [callAll_cons]
    exact ih (call_of_active h x.2 (hh x List.mem_cons_self)).2
      fun y hy => hh y (List.mem_cons_of_mem x hy)

theorem outcome_callAll_of_finalized {o : FinalizeOutcome} (h : r.outcome = some o)
    (hist : List (Call × Aggregator)) : (r.callAll hist).outcome = some o := by
  induction hist generalizing r with
  | nil => exact h
  | cons x hist ih =>
    rw [callAll_cons]
    exact ih (call_of_finalized h x.2 x.1).2.1

theorem new_eq_error_iff (c : ReceiverConfig) (agg : Aggregator) (e : SetupError) :
    Receiver.new c agg = .error e ↔ c.validate = .error e := by
  rw [new_eq]
  cases c.validate <;> simp [Except.map]

/-- Over any history of calls a receiver contributes to the aggregator once, at its first finalize;
finalizing again returns the same quality without a summary, and later fragments change nothing. -/
theorem receiver_contributes_once (hr : r.outcome = none) (pre post : List (Call × Aggregator))
    (agg : Aggregator) (hpre : ∀ x ∈ pre, x.1 ≠ .finalize) :
    (∀ mid x rest, pre = mid ++ x :: rest → ((r.callAll mid).call x.2 x.1).2.2 = x.2) ∧
    ((r.callAll pre).finalize agg).2.2 =
        (agg.contribute ((r.callAll pre).finalize agg).1.quality).2 ∧
    ((r.callAll pre).finalize agg).1.global =
        (agg.contribute ((r.callAll pre).finalize agg).1.quality).1 ∧
    (∀ mid x rest, post = mid ++ x :: rest →
      let before := ((r.callAll pre).finalize agg).2.1.callAll mid
      (before.call x.2 x.1).2.2 = x.2 ∧
      (x.1 = .finalize → (before.call x.2 x.1).1 =
          .finalized { ((r.callAll pre).finalize agg).1 with global := none } ∧
        (before.call x.2 x.1).2.1 = before) ∧
      (∀ f a, x.1 = .fragment f a → (before.call x.2 x.1).2.1 = before)) ∧
    (∀ (c : ReceiverConfig) (agg₀ : Aggregator),
      (∀ e, Receiver.new c agg₀ = .error e ↔ c.validate = .error e) ∧
      ∀ r' agg', Receiver.new c agg₀ = .ok (r', agg') →
        agg' = { agg₀ with streamCount := agg₀.streamCount + 1 } ∧ r'.outcome = none) := by
  have hact : (r.callAll pre).outcome = none := outcome_callAll_of_active hr pre hpre
  obtain ⟨hagg, hglobal, hkept⟩ := finalize_of_active_contributes hact agg
  refine ⟨?_, hagg, hglobal, ?_, fun c agg₀ => ⟨new_eq_error_iff c agg₀, ?_⟩⟩
  · rintro mid x rest rfl
    have hmid : (r.callAll mid).outcome = none :=
      outcome_callAll_of_active hr mid fun y hy => hpre y (List.mem_append_left _ hy)
    exact (call_of_active hmid x.2 (hpre x (by simp))).1
  · rintro mid x rest -
    have hbefore := outcome_callAll_of_finalized hkept mid
    obtain ⟨hx, -, hfin, hfrag⟩ := call_of_finalized hbefore x.2 x.1
    exact ⟨hx, fun h => by simpa using hfin h, hfrag⟩
  · intro r' agg' h
    exact ⟨by simp [new_registers h], (new_eq_ok h).2.2.1⟩

theorem second_finalize_answers_first :
    let pre : List (Call × Aggregator) := [(.fragment wholeFrameOne 0.01, {})]
    let first := (defaultReceiver.callAll pre).finalize {}
    defaultReceiver.outcome = none ∧ (∀ x ∈ pre, x.1 ≠ .finalize) ∧
      (first.2.1.call {} .finalize).1 = .finalized { first.1 with global := none } ∧
      (first.2.1.call {} .finalize).2.1 = first.2.1 := by
  intro pre first
  have hpre : ∀ x ∈ pre, x.1 ≠ .finalize := by simp [pre]
  obtain ⟨-, -, -, hpost, -⟩ :=
    receiver_contributes_once (r := defaultReceiver) rfl pre [(.finalize, {})] {} hpre
  have hsecond := (hpost [] (.finalize, {}) [] rfl).2.1 rfl
  simp only [callAll_nil] at hsecond
  refine ⟨rfl, hpre, ?_⟩
  -- the kept outcome is spelled through `first`; unfolding it makes the two sides the same
  simp only [first]
  exact hsecond

end Receiver

end XrDelivery
