import Mathlib
import XrDelivery.Quality.Global

/-!
# The global summary is published exactly once

The aggregator is shared by every stream of a run and takes their calls one at a time:
registrations, and contributions under the token a registration returned. Registrations from a
fresh aggregator return `0, 1, 2, …`, and a token is contributed at most once, so the streams
that finished never outnumber those registered.

The summary is published by the first call after which as many streams finished as are
registered, and by no other: that call raises the published flag, nothing lowers it, and a
raised flag keeps every later contribution from publishing, after late registrations too. The
summary is that of the totals right after the call, and `published` shows nothing before the
call and that summary from then on.
-/
namespace XrDelivery

/-- A call on the aggregator: a registration, or the contribution of a finished stream's
quality under the token its registration returned. -/
inductive AggregatorCall where
  | register
  | contribute (token : Nat) (q : StreamQuality)

namespace AggregatorCall

/-- The quality a call contributes. -/
def contribution? : AggregatorCall → Option StreamQuality
  | register => none
  | contribute _ q => some q

/-- The token a call contributes under. -/
def token? : AggregatorCall → Option Nat
  | register => none
  | contribute t _ => some t

def isRegister : AggregatorCall → Bool
  | register => true
  | contribute _ _ => false

end AggregatorCall

/-- The number of registrations among some calls. -/
def registrations (cs : List AggregatorCall) : Nat := cs.countP AggregatorCall.isRegister

/-- The qualities contributed by some calls, in order. -/
def contributions (cs : List AggregatorCall) : List StreamQuality :=
  cs.filterMap AggregatorCall.contribution?

@[simp] theorem registrations_append (cs cs' : List AggregatorCall) :
    registrations (cs ++ cs') = registrations cs + registrations cs' := List.countP_append

@[simp] theorem contributions_append (cs cs' : List AggregatorCall) :
    contributions (cs ++ cs') = contributions cs ++ contributions cs' := List.filterMap_append

@[simp] theorem registrations_replicate_register (n : Nat) :
    registrations (List.replicate n .register) = n := by
  simp [registrations, List.countP_replicate, AggregatorCall.isRegister]

@[simp] theorem contributions_replicate_register (n : Nat) :
    contributions (List.replicate n .register) = [] := by
  simp [contributions, List.filterMap_replicate, AggregatorCall.contribution?]

theorem length_contributions_add_registrations (cs : List AggregatorCall) :
    (contributions cs).length + registrations cs = cs.length := by
  induction cs with
  | nil => rfl
  | cons c cs ih =>
    cases c <;> simp [contributions, registrations, List.filterMap_cons, List.countP_cons,
      AggregatorCall.contribution?, AggregatorCall.isRegister] at ih ⊢ <;> omega

namespace Aggregator

/-- The totals with one more finished stream, before the publication check. -/
def addQuality (a : Aggregator) (q : StreamQuality) : Aggregator :=
  { a with
    totalSumError := a.totalSumError + q.sumError
    totalExpectedFrames := a.totalExpectedFrames + q.totalFrames.toUInt64
    totalOnTimeFrames := a.totalOnTimeFrames + q.onTimeFrames.toUInt64
    satisfiedStreamCount :=
      if q.userSatisfied then a.satisfiedStreamCount + 1 else a.satisfiedStreamCount
    finishedStreamCount := a.finishedStreamCount + 1 }

/-- A contribution adds the quality, then publishes unless streams are still missing or the
summary is already out. -/
theorem contribute_eq (a : Aggregator) (q : StreamQuality) :
    a.contribute q =
      if (a.addQuality q).finishedStreamCount < (a.addQuality q).streamCount ||
          (a.addQuality q).summaryPublished then (none, a.addQuality q)
      else (some (a.addQuality q).summarize,
        { a.addQuality q with
          summaryPublished := true
          published := some (a.addQuality q).summarize }) := rfl

/-- One call: the summary, if the call published it, and the aggregator after it. -/
def call (a : Aggregator) : AggregatorCall → Option GlobalQuality × Aggregator
  | .register => (none, a.register.2)
  | .contribute _ q => a.contribute q

/-- The aggregator after some calls. -/
def callAll (a : Aggregator) (cs : List AggregatorCall) : Aggregator :=
  cs.foldl (fun a c => (a.call c).2) a

/-- What each of some calls answers, in order: the summary if it published it. -/
def answers (a : Aggregator) : List AggregatorCall → List (Option GlobalQuality)
  | [] => []
  | c :: cs => (a.call c).1 :: (a.call c).2.answers cs

@[simp] theorem callAll_nil (a : Aggregator) : a.callAll [] = a := rfl

theorem callAll_cons (a : Aggregator) (c : AggregatorCall) (cs : List AggregatorCall) :
    a.callAll (c :: cs) = (a.call c).2.callAll cs := rfl

theorem callAll_append (a : Aggregator) (cs cs' : List AggregatorCall) :
    a.callAll (cs ++ cs') = (a.callAll cs).callAll cs' := by
  simp [callAll]

theorem callAll_append_singleton (a : Aggregator) (cs : List AggregatorCall)
    (c : AggregatorCall) : a.callAll (cs ++ [c]) = ((a.callAll cs).call c).2 := by
  simp [callAll]

@[simp] theorem length_answers (a : Aggregator) (cs : List AggregatorCall) :
    (a.answers cs).length = cs.length := by
  induction cs generalizing a with
  | nil => rfl
  | cons c cs ih => simp [answers, ih]

theorem getElem?_answers (a : Aggregator) (cs : List AggregatorCall) (i : Nat)
    (hi : i < cs.length) :
    (a.answers cs)[i]? = some ((a.callAll (cs.take i)).call cs[i]).1 := by
  induction cs generalizing a i with
  | nil => simp at hi
  | cons c cs ih =>
    cases i with
    | zero => rfl
    | succ i =>
      simp only [answers, List.getElem?_cons_succ, List.take_succ_cons, List.getElem_cons_succ]
      exact ih _ i (by simpa using hi)

@[simp] theorem call_register (a : Aggregator) :
    a.call .register = (none, { a with streamCount := a.streamCount + 1 }) := rfl

theorem contribute_snd (a : Aggregator) (q : StreamQuality) :
    ∃ flag pub, (a.contribute q).2 =
      { a.addQuality q with summaryPublished := flag, published := pub } := by
  rw [contribute_eq]
  split
  · exact ⟨(a.addQuality q).summaryPublished, (a.addQuality q).published, rfl⟩
  · exact ⟨true, _, rfl⟩

/-- The totals after some calls: registrations and contributions add up, whatever was
published on the way. -/
theorem callAll_totals (a : Aggregator) (cs : List AggregatorCall) :
    (a.callAll cs).streamCount = a.streamCount + registrations cs ∧
      (a.callAll cs).finishedStreamCount = a.finishedStreamCount + (contributions cs).length ∧
      (a.callAll cs).satisfiedStreamCount =
        a.satisfiedStreamCount + (contributions cs).countP (·.userSatisfied) ∧
      (a.callAll cs).totalExpectedFrames =
        a.totalExpectedFrames + ((contributions cs).map (·.totalFrames.toUInt64)).sum ∧
      (a.callAll cs).totalOnTimeFrames =
        a.totalOnTimeFrames + ((contributions cs).map (·.onTimeFrames.toUInt64)).sum ∧
      (a.callAll cs).totalSumError =
        (contributions cs).foldl (fun s q => s + q.sumError) a.totalSumError := by
  induction cs generalizing a with
  | nil => simp [registrations, contributions]
  | cons c cs ih =>
    obtain ⟨h1, h2, h3, h4, h5, h6⟩ := ih (a.call c).2
    rw [callAll_cons, h1, h2, h3, h4, h5, h6]
    cases c with
    | register =>
      simp [registrations, contributions, List.countP_cons, List.filterMap_cons,
        AggregatorCall.isRegister, AggregatorCall.contribution?]
      omega
    | contribute t q =>
      obtain ⟨flag, pub, hc⟩ := contribute_snd a q
      simp [call, hc, addQuality, registrations, contributions, List.countP_cons,
        AggregatorCall.isRegister, AggregatorCall.contribution?, UInt64.add_assoc]
      split <;> omega

theorem call_of_published {a : Aggregator} (h : a.summaryPublished = true) (c : AggregatorCall) :
    (a.call c).1 = none ∧ (a.call c).2.summaryPublished = true ∧
      (a.call c).2.published = a.published := by
  cases c with
  | register => exact ⟨rfl, h, rfl⟩
  | contribute t q =>
    have hflag : (a.addQuality q).summaryPublished = true := h
    simp only [call]
    rw [contribute_eq, if_pos (by simp [hflag])]
    exact ⟨rfl, h, rfl⟩

/-- Before the summary is out, a call publishes exactly when it leaves as many streams finished as
registered, and then keeps the summary of the totals after it. -/
theorem call_of_unpublished {a : Aggregator} (h : a.summaryPublished = false)
    (hpub : a.published = none) (hpre : a.finishedStreamCount ≤ a.streamCount)
    (c : AggregatorCall)
    (hpost : (a.call c).2.finishedStreamCount ≤ (a.call c).2.streamCount) :
    (a.call c).1 = (if (a.call c).2.finishedStreamCount = (a.call c).2.streamCount then
        some (a.call c).2.summarize else none) ∧
      (a.call c).2.summaryPublished =
        decide ((a.call c).2.finishedStreamCount = (a.call c).2.streamCount) ∧
      (a.call c).2.published = (a.call c).1 := by
  cases c with
  | register =>
    have hne : a.finishedStreamCount ≠ a.streamCount + 1 := by omega
    simp [hne, h, hpub]
  | contribute t q =>
    have hflag : (a.addQuality q).summaryPublished = false := h
    by_cases hlt : (a.addQuality q).finishedStreamCount < (a.addQuality q).streamCount
    · simp only [call, contribute_eq, hlt, decide_true, Bool.true_or, if_true]
      simp only [addQuality] at hlt ⊢
      have hne : a.finishedStreamCount + 1 ≠ a.streamCount := by omega
      simp [hne, h, hpub]
    · simp only [call, contribute_eq, hlt, hflag, decide_false, Bool.false_or,
        Bool.false_eq_true, if_false] at hpost ⊢
      have heq : (a.addQuality q).finishedStreamCount = (a.addQuality q).streamCount := by
        simp only [addQuality] at hpost hlt ⊢
        omega
      simp only [addQuality] at heq ⊢
      simp [heq]
      rfl

/-- One call answers the summary of the state after it exactly when nothing was published and it
settles the count; the flag stays raised, and the summary kept is the old one or the answer. -/
theorem call_step {a : Aggregator} (hflag : a.summaryPublished = a.published.isSome)
    (hpre : a.finishedStreamCount ≤ a.streamCount) (c : AggregatorCall)
    (hpost : (a.call c).2.finishedStreamCount ≤ (a.call c).2.streamCount) :
    (a.call c).1 = (if (!a.summaryPublished && decide ((a.call c).2.finishedStreamCount =
        (a.call c).2.streamCount)) = true then some (a.call c).2.summarize else none) ∧
      (a.call c).2.summaryPublished = (a.summaryPublished ||
        decide ((a.call c).2.finishedStreamCount = (a.call c).2.streamCount)) ∧
      (a.call c).2.published = a.published.or (a.call c).1 := by
  cases hp : a.summaryPublished with
  | false =>
    have hnone : a.published = none :=
      Option.not_isSome_iff_eq_none.mp (by simp [← hflag, hp])
    obtain ⟨h1, h2, h3⟩ := call_of_unpublished hp hnone hpre c hpost
    exact ⟨by simpa using h1, by simpa using h2, by simp [hnone, h3]⟩
  | true =>
    obtain ⟨h1, h2, h3⟩ := call_of_published hp c
    exact ⟨by simpa using h1, by simpa using h2, by simp [h1, h3]⟩

theorem summarize_of_totalExpectedFrames_eq_zero (a : Aggregator)
    (h : a.totalExpectedFrames = 0) :
    a.summarize.globalMeanError = 0.0 ∧ a.summarize.globalDelayReliability = 0.0 := by
  simp [summarize, h]

end Aggregator

/-- Calls made on a fresh aggregator in which every contribution is under a token that a
registration before it returned, and no token is contributed twice. -/
structure WellTokened (cs : List AggregatorCall) : Prop where
  issued : ∀ i (hi : i < cs.length) t q, cs[i] = .contribute t q →
    ∃ j < i, cs[j]? = some .register ∧ (({} : Aggregator).callAll (cs.take j)).register.1 = t
  nodup : (cs.filterMap AggregatorCall.token?).Nodup

theorem register_callAll_fresh (cs : List AggregatorCall) :
    (({} : Aggregator).callAll cs).register.1 = registrations cs := by
  simp [Aggregator.register, (Aggregator.callAll_totals {} cs).1]

theorem WellTokened.token_lt {cs : List AggregatorCall} (hw : WellTokened cs) {i : Nat}
    (hi : i < cs.length) {t : Nat} {q : StreamQuality} (hc : cs[i] = .contribute t q) :
    t < registrations (cs.take i) := by
  obtain ⟨j, hji, hj, rfl⟩ := hw.issued i hi t q hc
  have hjlen : j < cs.length := by omega
  have hsucc : registrations (cs.take (j + 1)) = registrations (cs.take j) + 1 := by
    rw [List.getElem?_eq_some_iff] at hj
    obtain ⟨_, hj⟩ := hj
    simp [registrations, List.take_succ_eq_append_getElem hjlen, hj, AggregatorCall.isRegister]
  have hmono : registrations (cs.take (j + 1)) ≤ registrations (cs.take i) :=
    (List.take_prefix_take_left hji).countP_le
  rw [register_callAll_fresh]
  omega

theorem length_tokens (cs : List AggregatorCall) :
    (cs.filterMap AggregatorCall.token?).length = (contributions cs).length := by
  induction cs with
  | nil => rfl
  | cons c cs ih =>
    unfold contributions at ih ⊢
    cases c <;> simp [List.filterMap_cons, AggregatorCall.token?, AggregatorCall.contribution?, ih]

theorem WellTokened.contributions_le {cs : List AggregatorCall} (hw : WellTokened cs) (k : Nat) :
    (contributions (cs.take k)).length ≤ registrations (cs.take k) := by
  have hnodup : ((cs.take k).filterMap AggregatorCall.token?).Nodup :=
    hw.nodup.sublist ((List.take_sublist k cs).filterMap _)
  have hlt : ∀ t ∈ (cs.take k).filterMap AggregatorCall.token?,
      t ∈ List.range (registrations (cs.take k)) := by
    intro t ht
    obtain ⟨c, hc, hct⟩ := List.mem_filterMap.mp ht
    obtain ⟨i, hi, rfl⟩ := List.getElem_of_mem hc
    have hik : i < k := by simp at hi; omega
    have hilen : i < cs.length := by simp at hi; omega
    rw [List.getElem_take] at hct
    cases hci : cs[i] with
    | register => simp [hci, AggregatorCall.token?] at hct
    | contribute t' q =>
      simp only [hci, AggregatorCall.token?, Option.some.injEq] at hct
      subst hct
      have hissued := hw.token_lt hilen hci
      have hmono : registrations (cs.take i) ≤ registrations (cs.take k) :=
        (List.take_prefix_take_left hik.le).countP_le
      exact List.mem_range.mpr (by omega)
  have := (hnodup.subperm hlt).length_le
  rw [List.length_range, length_tokens] at this
  exact this

/-- All the registrations first, then contributions under the tokens they returned, each
once: such calls are well tokened. -/
theorem wellTokened_registrations_first {N : Nat} {cs' : List AggregatorCall}
    (htok : (cs'.filterMap AggregatorCall.token?).Perm (List.range N)) :
    WellTokened (List.replicate N .register ++ cs') where
  issued i hi t q hc := by
    have hiN : N ≤ i := by
      by_contra hlt
      rw [List.getElem_append_left (by simp; omega)] at hc
      simp at hc
    rw [List.getElem_append_right (by simp; omega)] at hc
    have ht : t ∈ cs'.filterMap AggregatorCall.token? :=
      List.mem_filterMap.mpr ⟨_, List.getElem_mem _, by rw [hc]; rfl⟩
    have htN : t < N := List.mem_range.mp (htok.subset ht)
    refine ⟨t, by omega, ?_, ?_⟩
    · rw [List.getElem?_append_left (by simp; omega)]
      simp [htN]
    · rw [register_callAll_fresh, List.take_append, List.take_replicate]
      simp [Nat.min_eq_left htN.le, Nat.sub_eq_zero_of_le htN.le]
  nodup := by
    have hreg : (List.replicate N AggregatorCall.register).filterMap AggregatorCall.token? = [] := by
      simp [List.filterMap_replicate, AggregatorCall.token?]
    rw [List.filterMap_append, hreg, List.nil_append]
    exact htok.nodup_iff.mpr List.nodup_range

namespace Aggregator

/-- The state of a fresh aggregator after the first `k` of some calls. -/
def after (cs : List AggregatorCall) (k : Nat) : Aggregator := ({} : Aggregator).callAll (cs.take k)

theorem after_succ {cs : List AggregatorCall} {i : Nat} (hi : i < cs.length) :
    after cs (i + 1) = ((after cs i).call cs[i]).2 := by
  rw [after, List.take_succ_eq_append_getElem hi, callAll_append_singleton]
  rfl

theorem after_of_length_le {cs : List AggregatorCall} {k : Nat} (hk : cs.length ≤ k) :
    after cs k = after cs cs.length := by
  simp [after, List.take_of_length_le hk]

theorem getElem?_answers_fresh {cs : List AggregatorCall} {i : Nat} (hi : i < cs.length) :
    (({} : Aggregator).answers cs)[i]? = some ((after cs i).call cs[i]).1 :=
  getElem?_answers _ _ _ hi

theorem take_succ_answers {cs : List AggregatorCall} {i : Nat} (hi : i < cs.length) :
    (({} : Aggregator).answers cs).take (i + 1) =
      (({} : Aggregator).answers cs).take i ++ [((after cs i).call cs[i]).1] := by
  rw [List.take_add_one, getElem?_answers_fresh hi]
  rfl

end Aggregator

open Aggregator

section FreshRun

variable {cs : List AggregatorCall}

theorem WellTokened.finished_le (hw : WellTokened cs) (k : Nat) :
    (after cs k).finishedStreamCount ≤ (after cs k).streamCount := by
  obtain ⟨h1, h2, -⟩ := callAll_totals {} (cs.take k)
  rw [after, h1, h2]
  simpa using hw.contributions_le k

/-- One call of a well-tokened run, read off `call_step` at the states before and after it. -/
theorem WellTokened.after_step (hw : WellTokened cs) {i : Nat} (hi : i < cs.length)
    (hflag : (after cs i).summaryPublished = (after cs i).published.isSome) :
    ((after cs i).call cs[i]).1 = (if (!(after cs i).summaryPublished && decide
        ((after cs (i + 1)).finishedStreamCount = (after cs (i + 1)).streamCount)) = true then
        some (after cs (i + 1)).summarize else none) ∧
      (after cs (i + 1)).summaryPublished = ((after cs i).summaryPublished ||
        decide ((after cs (i + 1)).finishedStreamCount = (after cs (i + 1)).streamCount)) ∧
      (after cs (i + 1)).published = (after cs i).published.or ((after cs i).call cs[i]).1 := by
  have hpost := hw.finished_le (i + 1)
  rw [after_succ hi] at hpost ⊢
  exact call_step hflag (hw.finished_le i) cs[i] hpost

/-- What the first `k` calls on a fresh aggregator published: the flag is raised exactly when a
summary is kept, the first one answered, and at most one was answered. -/
structure PublishedSoFar (cs : List AggregatorCall) (k : Nat) : Prop where
  flag_eq : (after cs k).summaryPublished = (after cs k).published.isSome
  flag_iff : (after cs k).summaryPublished = true ↔
    ∃ j < k, (after cs (j + 1)).finishedStreamCount = (after cs (j + 1)).streamCount
  published_eq : (after cs k).published =
    (((({} : Aggregator).answers cs).take k).filterMap id).head?
  length_le : (((({} : Aggregator).answers cs).take k).filterMap id).length ≤ 1

theorem publishedSoFar_zero : PublishedSoFar cs 0 where
  flag_eq := rfl
  flag_iff := by simp [after]
  published_eq := by simp [after]
  length_le := by simp

theorem PublishedSoFar.succ (hw : WellTokened cs) {i : Nat} (hk : PublishedSoFar cs i)
    (hi : i < cs.length) : PublishedSoFar cs (i + 1) := by
  obtain ⟨hr, hf, hp⟩ := hw.after_step hi hk.flag_eq
  constructor
  case flag_eq =>
    rw [hf, hp, Option.isSome_or, ← hk.flag_eq, hr]
    cases (after cs i).summaryPublished <;> split <;> simp_all
  case flag_iff =>
    rw [hf, Bool.or_eq_true, hk.flag_iff, Nat.exists_lt_succ_right]
    simp
  case published_eq =>
    rw [hp, hk.published_eq, take_succ_answers hi, List.filterMap_append, List.head?_append]
    simp
  case length_le =>
    rw [take_succ_answers hi, List.filterMap_append, List.length_append]
    cases hrs : ((after cs i).call cs[i]).1 with
    | none => simpa using hk.length_le
    | some g =>
      have hflag : (after cs i).summaryPublished = false := by
        cases hfl : (after cs i).summaryPublished <;> simp_all
      have hnil : ((({} : Aggregator).answers cs).take i).filterMap id = [] := by
        rw [← List.head?_eq_none_iff, ← hk.published_eq]
        exact Option.not_isSome_iff_eq_none.mp (by rw [← hk.flag_eq, hflag]; decide)
      rw [hnil]
      simp

theorem WellTokened.publishedSoFar (hw : WellTokened cs) :
    ∀ k ≤ cs.length, PublishedSoFar cs k
  | 0, _ => publishedSoFar_zero
  | k + 1, hk => (hw.publishedSoFar k (by omega)).succ hw (by omega)


/-- The totals after the first `k` calls on a fresh aggregator. -/
theorem after_totals (cs : List AggregatorCall) (k : Nat) :
    (after cs k).streamCount = registrations (cs.take k) ∧
      (after cs k).finishedStreamCount = (contributions (cs.take k)).length ∧
      (after cs k).satisfiedStreamCount = (contributions (cs.take k)).countP (·.userSatisfied) ∧
      (after cs k).totalExpectedFrames =
        ((contributions (cs.take k)).map (·.totalFrames.toUInt64)).sum ∧
      (after cs k).totalOnTimeFrames =
        ((contributions (cs.take k)).map (·.onTimeFrames.toUInt64)).sum := by
  obtain ⟨h1, h2, h3, h4, h5, -⟩ := callAll_totals {} (cs.take k)
  simp [after, h1, h2, h3, h4, h5]

/-- A call of a well-tokened run answers exactly when it is the first to settle the count. -/
theorem WellTokened.answer_isSome_iff (hw : WellTokened cs) {i : Nat} (hi : i < cs.length) :
    ((after cs i).call cs[i]).1.isSome ↔
      (after cs (i + 1)).finishedStreamCount = (after cs (i + 1)).streamCount ∧
        ∀ j < i, (after cs (j + 1)).finishedStreamCount ≠ (after cs (j + 1)).streamCount := by
  have hk := hw.publishedSoFar i hi.le
  obtain ⟨hr, -, -⟩ := hw.after_step hi hk.flag_eq
  have hfalse : (after cs i).summaryPublished = false ↔
      ∀ j < i, (after cs (j + 1)).finishedStreamCount ≠ (after cs (j + 1)).streamCount := by
    rw [← Bool.not_eq_true, hk.flag_iff]
    simp
  rw [hr, ← hfalse]
  by_cases hS : (after cs (i + 1)).finishedStreamCount = (after cs (i + 1)).streamCount <;>
    cases (after cs i).summaryPublished <;> simp [hS]

theorem WellTokened.answer_eq (hw : WellTokened cs) {i : Nat} (hi : i < cs.length)
    {g : GlobalQuality} (hg : ((after cs i).call cs[i]).1 = some g) :
    g = (after cs (i + 1)).summarize := by
  obtain ⟨hr, -, -⟩ := hw.after_step hi (hw.publishedSoFar i hi.le).flag_eq
  rw [hr] at hg
  split at hg
  · exact (Option.some.inj hg).symm
  · cases hg

theorem WellTokened.published_after (hw : WellTokened cs) (k : Nat) :
    (after cs k).published = (((({} : Aggregator).answers cs).take k).filterMap id).head? := by
  rcases Nat.le_total k cs.length with hk | hk
  · exact (hw.publishedSoFar k hk).published_eq
  · have hall : (({} : Aggregator).answers cs).take k = ({} : Aggregator).answers cs :=
      List.take_of_length_le (by simpa using hk)
    have hlast := (hw.publishedSoFar _ le_rfl).published_eq
    rw [List.take_of_length_le (by simp)] at hlast
    rw [after_of_length_le hk, hall, hlast]

theorem WellTokened.length_filterMap_answers_le (hw : WellTokened cs) :
    ((({} : Aggregator).answers cs).filterMap id).length ≤ 1 := by
  have h := (hw.publishedSoFar _ le_rfl).length_le
  rwa [List.take_of_length_le (by simp)] at h

/-- When every registration comes first, the count is settled only by the last contribution. -/
theorem after_registrations_first {N : Nat} {cs' : List AggregatorCall} (hlen : cs'.length = N)
    (hcon : ∀ c ∈ cs', c.isRegister = false) (k : Nat) :
    (after (List.replicate N .register ++ cs') k).streamCount = min k N ∧
      (after (List.replicate N .register ++ cs') k).finishedStreamCount = min (k - N) N := by
  obtain ⟨h1, h2, -⟩ := after_totals (List.replicate N .register ++ cs') k
  have hreg : registrations (cs'.take (k - N)) = 0 :=
    List.countP_eq_zero.mpr fun c hc => by simpa using hcon c (List.mem_of_mem_take hc)
  have hlen' := length_contributions_add_registrations (cs'.take (k - N))
  rw [h1, h2, List.take_append, List.take_replicate]
  simp only [registrations_append, contributions_append, registrations_replicate_register,
    contributions_replicate_register, List.nil_append, List.length_replicate, hreg]
  simp [hlen] at hlen' ⊢
  omega


/-- When all `N` registrations come first and `N` contributions follow, in whatever order, only
the last contribution answers, with the summary of the final totals. -/
theorem WellTokened.answers_registrations_first (hw : WellTokened cs) {N : Nat}
    {cs' : List AggregatorCall} (hN : 0 < N) (hcs : cs = List.replicate N .register ++ cs')
    (hlen : cs'.length = N) (hcon : ∀ c ∈ cs', c.isRegister = false) :
    ({} : Aggregator).answers cs =
      List.replicate (2 * N - 1) none ++ [some (after cs (2 * N)).summarize] := by
  have hcslen : cs.length = 2 * N := by simp [hcs, hlen]; omega
  have hsettled : ∀ j < 2 * N, (after cs (j + 1)).finishedStreamCount =
      (after cs (j + 1)).streamCount ↔ j = 2 * N - 1 := by
    intro j hj
    obtain ⟨h1, h2⟩ := after_registrations_first hlen hcon (j + 1)
    rw [hcs, h1, h2]
    omega
  apply List.ext_getElem?
  intro i
  rcases Nat.lt_or_ge i (2 * N) with hi | hi
  · have hi' : i < cs.length := by omega
    rw [getElem?_answers_fresh hi']
    by_cases hlast : i = 2 * N - 1
    · have hsome : ((after cs i).call cs[i]).1.isSome :=
        (hw.answer_isSome_iff hi').mpr ⟨(hsettled i hi).mpr hlast, fun j hj => by
          rw [Ne, hsettled j (by omega)]
          omega⟩
      obtain ⟨g, hg⟩ := Option.isSome_iff_exists.mp hsome
      have h2N : i + 1 = 2 * N := by omega
      rw [hg, hw.answer_eq hi' hg, List.getElem?_append_right (by simp; omega), h2N]
      simp [hlast]
    · have hnone : ((after cs i).call cs[i]).1 = none := by
        rw [← Option.not_isSome_iff_eq_none, hw.answer_isSome_iff hi', hsettled i hi]
        tauto
      rw [hnone, List.getElem?_append_left (by simp; omega), List.getElem?_replicate,
        if_pos (by omega)]
  · rw [List.getElem?_eq_none (by simp; omega), List.getElem?_eq_none (by simp; omega)]

/-- All `N` registrations first, then one contribution under each token in any order: the
summary is published, and it is that of the final totals. -/
theorem published_registrations_first {N : Nat} (hN : 0 < N) {cs' : List AggregatorCall}
    (htok : (cs'.filterMap AggregatorCall.token?).Perm (List.range N))
    (hcon : ∀ c ∈ cs', c.isRegister = false) :
    (({} : Aggregator).callAll (List.replicate N .register ++ cs')).published =
      some (({} : Aggregator).callAll (List.replicate N .register ++ cs')).summarize := by
  have hw := wellTokened_registrations_first htok
  have hreg : registrations cs' = 0 :=
    List.countP_eq_zero.mpr fun c hc => by simpa using hcon c hc
  have hlen : cs'.length = N := by
    have h1 := length_contributions_add_registrations cs'
    rw [hreg, ← length_tokens, htok.length_eq, List.length_range] at h1
    omega
  have hall : (List.replicate N AggregatorCall.register ++ cs').length ≤ 2 * N := by simp; omega
  have hp := hw.published_after (2 * N)
  rw [hw.answers_registrations_first hN rfl hlen hcon,
    List.take_of_length_le (by simp; omega)] at hp
  rw [after_of_length_le hall, after, List.take_of_length_le le_rfl] at hp
  rw [hp]
  simp [List.filterMap_append]

end FreshRun

/-- The global summary of well-tokened calls on a fresh aggregator is published exactly once, by the
first call after which every registered stream finished, with the totals right after it; when all
registrations come first, the last contribution publishes the sums over all of them. -/
theorem summary_published_exactly_once (cs : List AggregatorCall) (hw : WellTokened cs) :
    (∀ k, (after cs k).finishedStreamCount ≤ (after cs k).streamCount) ∧
    ((({} : Aggregator).answers cs).filterMap id).length ≤ 1 ∧
    (∀ i (hi : i < cs.length), ((after cs i).call cs[i]).1.isSome ↔
      (after cs (i + 1)).finishedStreamCount = (after cs (i + 1)).streamCount ∧
        ∀ j < i, (after cs (j + 1)).finishedStreamCount ≠ (after cs (j + 1)).streamCount) ∧
    (∀ i (hi : i < cs.length) g, ((after cs i).call cs[i]).1 = some g →
      g = (after cs (i + 1)).summarize ∧
      g.streamCount = registrations (cs.take (i + 1)) ∧
      g.satisfiedStreamCount = (contributions (cs.take (i + 1))).countP (·.userSatisfied) ∧
      g.totalExpectedFrames =
        ((contributions (cs.take (i + 1))).map (·.totalFrames.toUInt64)).sum ∧
      g.totalOnTimeFrames =
        ((contributions (cs.take (i + 1))).map (·.onTimeFrames.toUInt64)).sum ∧
      (g.totalExpectedFrames = 0 → g.globalMeanError = 0.0 ∧ g.globalDelayReliability = 0.0)) ∧
    (∀ k, (after cs k).published = (((({} : Aggregator).answers cs).take k).filterMap id).head?) ∧
    (∀ N cs', 0 < N → cs = List.replicate N .register ++ cs' → cs'.length = N →
      (∀ c ∈ cs', c.isRegister = false) →
      ∃ g, ({} : Aggregator).answers cs = List.replicate (2 * N - 1) none ++ [some g] ∧
        g.streamCount = N ∧
        g.satisfiedStreamCount = (contributions cs').countP (·.userSatisfied) ∧
        g.totalExpectedFrames = ((contributions cs').map (·.totalFrames.toUInt64)).sum ∧
        g.totalOnTimeFrames = ((contributions cs').map (·.onTimeFrames.toUInt64)).sum) := by
  refine ⟨hw.finished_le, hw.length_filterMap_answers_le, fun i hi => hw.answer_isSome_iff hi,
    ?value, hw.published_after, ?first⟩
  case value =>
    intro i hi g hg
    obtain rfl := hw.answer_eq hi hg
    obtain ⟨hcount, -, hsat, hexpected, honTime⟩ := after_totals cs (i + 1)
    exact ⟨rfl, hcount, hsat, hexpected, honTime, summarize_of_totalExpectedFrames_eq_zero _⟩
  case first =>
    intro N cs' hN hcs hlen hcon
    refine ⟨_, hw.answers_registrations_first hN hcs hlen hcon, ?_⟩
    have hall : cs.take (2 * N) = cs := List.take_of_length_le (by simp [hcs, hlen]; omega)
    have hreg : registrations cs' = 0 :=
      List.countP_eq_zero.mpr fun c hc => by simpa using hcon c hc
    have hregs : registrations cs = N := by simp [hcs, hreg]
    have hcontr : contributions cs = contributions cs' := by simp [hcs]
    obtain ⟨hcount, -, hsat, hexpected, honTime⟩ := after_totals cs (2 * N)
    rw [hall, hregs] at hcount
    rw [hall, hcontr] at hsat hexpected honTime
    exact ⟨hcount, hsat, hexpected, honTime⟩

/-- Two registrations, then the two contributions in the order opposite to the tokens. -/
def twoStreamsReversed : List AggregatorCall :=
  [.register, .register, .contribute 1 {}, .contribute 0 {}]

theorem twoStreamsReversed_wellTokened : WellTokened twoStreamsReversed where
  issued i hi t q h := by
    obtain _ | _ | _ | _ | i := i
    · simp [twoStreamsReversed] at h
    · simp [twoStreamsReversed] at h
    · simp only [twoStreamsReversed, List.getElem_cons_succ, List.getElem_cons_zero,
        AggregatorCall.contribute.injEq] at h
      exact ⟨1, by omega, rfl, by rw [← h.1]; rfl⟩
    · simp only [twoStreamsReversed, List.getElem_cons_succ, List.getElem_cons_zero,
        AggregatorCall.contribute.injEq] at h
      exact ⟨0, by omega, rfl, by rw [← h.1]; rfl⟩
    · simp only [twoStreamsReversed, List.length_cons, List.length_nil] at hi
      omega
  nodup := by decide

theorem twoStreamsReversed_publish_last : WellTokened twoStreamsReversed ∧
    ∃ g, ({} : Aggregator).answers twoStreamsReversed = [none, none, none, some g] ∧
      g.streamCount = 2 := by
  obtain ⟨g, hans, hcount, -⟩ :=
    (summary_published_exactly_once twoStreamsReversed twoStreamsReversed_wellTokened).2.2.2.2.2
      2 [.contribute 1 {}, .contribute 0 {}] (by decide) rfl rfl (by simp [AggregatorCall.isRegister])
  exact ⟨twoStreamsReversed_wellTokened, g, hans, hcount⟩

end XrDelivery
