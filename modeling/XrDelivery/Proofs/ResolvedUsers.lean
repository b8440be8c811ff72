import Mathlib
import XrDelivery.Proofs.StreamTiming
import XrDelivery.Proofs.SignedOrder

/-!
# The users of a resolved configuration

Resolving a configuration scans the written users, cut or filled up to the count, one by one
(`UserScan.add`). Each step resolves one entry at its index (`UserConfig.ResolvesFrom`): the
address `ue{i}`, the trimmed name or the address when the name is blank, the destination and
start time with their defaults, and a compression level that is the written one or one drawn
from the shared catalog's levels. It refuses a start that is not finite or below zero, and a
frame log name that an earlier user already took.

The scan's invariant (`UserScan.Covers`) says that after `n` entries there is one user for
each, resolved from it, and that the frame log names of the users are all different and all
taken. From it, a resolved configuration has the users its count asks for, at least one, each
resolved from the written entry at its index, with frame logs in files of their own; and the
sender every user runs passes the checks of the shared one (`resolved_users_well_formed`).
-/

namespace XrDelivery

open Float

/-- User `idx` resolved from its written entry `u`, against the shared catalog and the sender's
start time. -/
structure UserConfig.ResolvesFrom (shared : CatalogSource) (defaultStart : Float) (idx : Nat)
    (u : UserInput) (user : UserConfig) : Prop where
  address : user.address = s!"ue{idx}"
  name : user.name = ((u.name.map Text.trimBlank).filter fun n => !n.isEmpty).getD s!"ue{idx}"
  destination : user.destination = u.destination.getD s!"ue{idx}"
  start : user.startOffset = u.startTime.getD defaultStart
  finite : user.startOffset.isFinite = true
  nonneg : 0.0 ≤ user.startOffset
  level : u.level = some user.level ∨ u.level = none ∧ user.level ∈ shared.drawLevels
  catalog : user.catalog = (u.catalog.map CatalogSource.file).getD shared

section Draws

theorem Random.Stream.below_lt (g : Random.Stream) {n : Nat} (hn : 0 < n) :
    (g.below n).1 < n := by
  have h32 : Nat.pow 2 32 = 4294967296 := rfl
  unfold Random.Stream.below
  obtain ⟨w, g'⟩ := g.next
  have hw : w.toNat < 4294967296 := w.toNat_lt
  simp only [h32]
  split
  · omega
  · have hr : n % 4294967296 < 4294967296 := Nat.mod_lt _ (by norm_num)
    have hrn : n % 4294967296 ≤ n := Nat.mod_le _ _
    have hp : w.toNat * (n % 4294967296) ≤ 4294967295 * (n % 4294967296) :=
      Nat.mul_le_mul_right _ (by omega)
    have hsplit := Nat.div_add_mod (w.toNat * (n % 4294967296)) 4294967296
    split
    · obtain ⟨w2, g''⟩ := g'.next
      dsimp only
      split <;> omega
    · omega

theorem CatalogSource.drawLevels_ne_nil (shared : CatalogSource) : shared.drawLevels ≠ [] := by
  cases shared with
  | file path => simp [drawLevels, standardLevels]
  | synthetic s =>
    simp only [drawLevels]
    split
    · simp [standardLevels]
    · rename_i h
      simpa using h

end Draws

section Scan

variable {shared : CatalogSource} {start : Float} {s s' : UserScan}

/-- What resolving one user does: it puts the user, resolved from its entry, in front of the
users before, and takes its frame log name, which was free. -/
theorem UserScan.add_eq_ok {idx : Nat} {u : UserInput} (h : s.add shared start idx u = .ok s') :
    ∃ user : UserConfig, s'.done = user :: s.done ∧ user.ResolvesFrom shared start idx u ∧
      frameLogName user.name ∉ s.taken ∧
      s'.taken = s.taken.insert (frameLogName user.name) user.name := by
  unfold UserScan.add at h
  dsimp only at h
  split at h
  · cases h
  split at h
  · cases h
  rename_i hfree hstart
  cases h
  simp only [Bool.or_eq_true, Bool.not_eq_true', decide_eq_true_eq, not_or,
    Bool.not_eq_false] at hstart
  refine ⟨_, rfl, ⟨rfl, ?name, rfl, rfl, hstart.1, ?nonneg, ?level, rfl⟩, ?free, rfl⟩
  case name =>
    split <;> rename_i hn <;> simp [hn, Option.filter]
    split <;> simp_all
  case nonneg =>
    exact Float.le_of_not_lt (isNaN_of_isFinite hstart.1) rfl hstart.2
  case level =>
    cases hl : u.level with
    | some l => exact .inl rfl
    | none =>
      refine .inr ⟨rfl, ?_⟩
      have hlt := s.levels.below_lt (List.length_pos_iff.mpr shared.drawLevels_ne_nil)
      dsimp only
      rw [List.getD_eq_getElem _ _ hlt]
      exact List.getElem_mem hlt
  case free =>
    intro hmem
    obtain ⟨other, hother⟩ :=
      Option.isSome_iff_exists.mp (Std.TreeMap.mem_iff_isSome_getElem?.mp hmem)
    exact hfree other (by rw [Std.TreeMap.get?_eq_getElem?]; exact hother)

/-- The users resolved after `n` entries of `inputs`: one for each entry, resolved from it at
its index, with frame log names that are all different and all taken. -/
structure UserScan.Covers (shared : CatalogSource) (start : Float) (inputs : List UserInput)
    (n : Nat) (s : UserScan) : Prop where
  length : s.done.length = n
  resolves : ∀ i (user : UserConfig), s.done.reverse[i]? = some user →
    user.ResolvesFrom shared start i (inputs.getD i {})
  distinct : (s.done.map fun u => frameLogName u.name).Nodup
  taken : ∀ u ∈ s.done, frameLogName u.name ∈ s.taken

theorem UserScan.covers_init (inputs : List UserInput) (g : Random.Stream) :
    ({ levels := g } : UserScan).Covers shared start inputs 0 := by
  constructor <;> simp

theorem UserScan.Covers.add {inputs : List UserInput} {n : Nat}
    (hs : s.Covers shared start inputs n) (hn : n < inputs.length)
    (h : s.add shared start n inputs[n] = .ok s') : s'.Covers shared start inputs (n + 1) := by
  obtain ⟨user, hdone, hres, hfree, htaken⟩ := UserScan.add_eq_ok h
  constructor
  case length => rw [hdone, List.length_cons, hs.length]
  case resolves =>
    intro i u hu
    rw [hdone, List.reverse_cons, List.getElem?_append, List.length_reverse] at hu
    split at hu
    · exact hs.resolves i u hu
    · rename_i hge
      have hi : i = n := by
        have hlt := (List.getElem?_eq_some_iff.mp hu).1
        have hlen := hs.length
        simp only [List.length_singleton] at hlt
        omega
      subst hi
      simp only [hs.length, Nat.sub_self, List.getElem?_cons_zero, Option.some.injEq] at hu
      rw [← hu, List.getD_eq_getElem _ _ hn]
      exact hres
  case distinct =>
    rw [hdone, List.map_cons, List.nodup_cons]
    refine ⟨fun hmem => hfree ?_, hs.distinct⟩
    obtain ⟨u, hu, heq⟩ := List.mem_map.mp hmem
    exact heq ▸ hs.taken u hu
  case taken =>
    rw [hdone, htaken]
    intro u hu
    rcases List.mem_cons.mp hu with rfl | hu
    · exact Std.TreeMap.mem_insert_self
    · exact Std.TreeMap.mem_insert.mpr (.inr (hs.taken u hu))

end Scan

section ExceptFold

variable {ε α β : Type}

/-- A fold in the exception monad over a list numbered from `k`: a property of how many
elements were folded and of the state, kept by every step, holds of the result. -/
theorem foldlM_zipIdx_invariant (P : Nat → β → Prop) {step : β → α × Nat → Except ε β}
    {l : List α} {k : Nat} {init r : β} (hinit : P k init)
    (hstep : ∀ b b' i (hi : i < l.length), P (k + i) b → step b (l[i], k + i) = .ok b' →
      P (k + i + 1) b')
    (h : (l.zipIdx k).foldlM step init = .ok r) : P (k + l.length) r := by
  induction l generalizing k init with
  | nil => cases h; exact hinit
  | cons a l ih =>
    rw [List.zipIdx_cons, List.foldlM_cons] at h
    obtain ⟨b, hb, h⟩ := exists_of_bind_eq_ok h
    have hfirst : P (k + 1) b := hstep init b 0 (by simp) hinit hb
    have hrest := ih hfirst (fun b b' i hi hP hs => ?_) h
    · rwa [List.length_cons, ← Nat.add_assoc, Nat.add_right_comm]
    · have hshift : k + 1 + i = k + (i + 1) := by omega
      rw [hshift] at hP hs ⊢
      exact hstep b b' (i + 1) (by simpa using hi) hP hs

end ExceptFold

section Resolve

theorem length_fitUsers (count : Nat) (users : List UserInput) :
    (fitUsers count users).length = count := by
  simp only [fitUsers, List.length_append, List.length_take, List.length_replicate]
  omega

theorem getD_fitUsers {count i : Nat} (users : List UserInput) (hi : i < count) :
    (fitUsers count users).getD i {} = users.getD i {} := by
  simp only [fitUsers, List.getD_eq_getElem?_getD, List.getElem?_append, List.length_take,
    List.getElem?_take, List.getElem?_replicate]
  split
  · rfl
  · have hpast : users.length ≤ i := by omega
    rw [List.getElem?_eq_none hpast]
    split <;> rfl

theorem SenderConfig.validate_retarget (c : SenderConfig) (d : String) (x : Float) (s : UInt64) :
    ({ c with destination := d, startOffset := x, jitter := { c.jitter with seed := s } } :
      SenderConfig).validate = c.validate := rfl

theorem RunConfig.validate_senderFor (c : RunConfig) (i : Nat) (u : UserConfig) :
    (c.senderFor i u).validate = c.sender.validate :=
  SenderConfig.validate_retarget c.sender u.destination u.startOffset (streamSeed c.seed i 0)

/-- A resolved configuration has its counted users, at least one, each from its written entry or the
default; no two share a frame log, and every sender and receiver passes its checks. -/
theorem resolved_users_well_formed {ci : ConfigInput} {c : RunConfig} (h : ci.resolve = .ok c) :
    c.users.length = ci.userCount.getD (max ci.users.length 1) ∧ 1 ≤ c.users.length ∧
      (∀ i (hi : i < c.users.length), c.users[i].ResolvesFrom (ci.catalog.resolve (ci.seed.getD 1))
        c.sender.startOffset i (ci.users.getD i {})) ∧
      (c.users.map fun u => frameLogName u.name).Nodup ∧
      c.sender.validate = .ok () ∧ c.receiver.validate = .ok () ∧
      ∀ i (hi : i < c.users.length), (c.senderFor i c.users[i]).validate = .ok () := by
  obtain ⟨hseed, hsender, hreceiver, -, scan, hscan, hne, husers⟩ := ConfigInput.resolve_eq_ok h
  have hcov := foldlM_zipIdx_invariant
    (UserScan.Covers (ci.catalog.resolve c.seed) c.sender.startOffset
      (fitUsers (ci.userCount.getD (max ci.users.length 1)) ci.users))
    (UserScan.covers_init _ _)
    (fun b b' i hi hb hstep => by
      rw [Nat.zero_add] at hb hstep ⊢
      exact hb.add hi hstep) hscan
  rw [Nat.zero_add, length_fitUsers] at hcov
  have hlen : c.users.length = ci.userCount.getD (max ci.users.length 1) := by
    rw [husers, List.length_reverse, hcov.length]
  refine ⟨hlen, ?_, fun i hi => ?_, ?_, hsender, hreceiver, fun i _ => ?_⟩
  · rw [husers, List.length_reverse]
    exact List.length_pos_iff.mpr hne
  · have hres := hcov.resolves i c.users[i] (by rw [← husers]; exact List.getElem?_eq_getElem hi)
    rwa [getD_fitUsers _ (hlen ▸ hi), hseed] at hres
  · rw [husers, List.map_reverse, List.nodup_reverse]
    exact hcov.distinct
  · rw [RunConfig.validate_senderFor]
    exact hsender

/-- Three users from two written entries: a name padded with blanks and a blank name, the
third entry left to its defaults, over a synthetic sweep that names no levels. -/
def paddedNamesInput : ConfigInput where
  userCount := some 3
  catalog := { frames := some 2, levels := some [] }
  users := [{ name := some "  ann  ", level := some 20 },
    { name := some " ", startTime := some 0.5 }]

theorem paddedNames_resolve_well_formed :
    ∃ c, paddedNamesInput.resolve = .ok c ∧
      c.users.length = paddedNamesInput.userCount.getD (max paddedNamesInput.users.length 1) ∧
      1 ≤ c.users.length ∧
      (∀ i (hi : i < c.users.length), c.users[i].ResolvesFrom
        (paddedNamesInput.catalog.resolve (paddedNamesInput.seed.getD 1)) c.sender.startOffset i
        (paddedNamesInput.users.getD i {})) ∧
      (c.users.map fun u => frameLogName u.name).Nodup ∧
      c.sender.validate = .ok () ∧ c.receiver.validate = .ok () ∧
      ∀ i (hi : i < c.users.length), (c.senderFor i c.users[i]).validate = .ok () := by
  have hok : paddedNamesInput.resolve.toOption.isSome = true := by decide +kernel
  cases hc : paddedNamesInput.resolve with
  | error e =>
    rw [hc] at hok
    cases hok
  | ok c => exact ⟨c, rfl, resolved_users_well_formed hc⟩

example : (paddedNamesInput.resolve.toOption.map fun c => c.users.map UserConfig.name) =
    some ["ann", "ue1", "ue2"] := by
  decide +kernel

end Resolve

end XrDelivery
