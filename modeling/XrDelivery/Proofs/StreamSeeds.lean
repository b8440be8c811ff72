import Mathlib
import XrDelivery.Config.Resolved

/-!
# The seeds of a run's streams

Every user of a run has two random streams of its own: the jitter of its sender and its link.
Both are seeded by `streamSeed seed i salt = seed · 0x9E3779B97F4A7C15 + (i <<< 8) + salt` in
64-bit words, salt `0` for the jitter and `1` for the link.

The shift puts the user's index above the low byte and drops its top eight bits, and a salt
below `256` fills the low byte without a carry, so the index part and the salt part of a seed
never mix. Two seeds of one run are therefore equal exactly when their salts are equal and
their indices agree modulo `2^56` (`streamSeed_eq_streamSeed_iff`), and a run of fewer than
`2^56` users hands its streams `2N` different seeds.
-/

namespace XrDelivery

theorem toNat_shiftLeft_add_salt (i : Nat) {a : UInt64} (ha : a < 256) :
    (i.toUInt64 <<< 8 + a).toNat = i % Nat.pow 2 56 * 256 + a.toNat := by
  have ha' : a.toNat < 256 := ha
  simp only [UInt64.toNat_add, UInt64.toNat_shiftLeft, Nat.toUInt64, UInt64.toNat_ofNat',
    Nat.shiftLeft_eq]
  simp only [show (8 : UInt64).toNat % 64 = 8 from rfl, Nat.pow_eq]
  omega

theorem streamSeed_eq_streamSeed_iff_offsets (s : UInt64) (i j : Nat) (a b : UInt64) :
    streamSeed s i a = streamSeed s j b ↔ i.toUInt64 <<< 8 + a = j.toUInt64 <<< 8 + b := by
  simp only [streamSeed, UInt64.add_assoc, UInt64.add_right_inj]

theorem streamSeed_eq_streamSeed_iff (s : UInt64) (i j : Nat) {a b : UInt64} (ha : a < 256)
    (hb : b < 256) :
    streamSeed s i a = streamSeed s j b ↔ a = b ∧ i % Nat.pow 2 56 = j % Nat.pow 2 56 := by
  have ha' : a.toNat < 256 := ha
  have hb' : b.toNat < 256 := hb
  rw [streamSeed_eq_streamSeed_iff_offsets, ← UInt64.toNat_inj, toNat_shiftLeft_add_salt i ha,
    toNat_shiftLeft_add_salt j hb, ← UInt64.toNat_inj]
  omega

/-- The seeds a run gives its users' streams: the jitter seed of each user's sender, in user
order, then the seed of each user's link. -/
def RunConfig.streamSeeds (c : RunConfig) : List UInt64 :=
  c.users.mapIdx (fun i u => (c.senderFor i u).jitter.seed) ++
    (List.range c.users.length).map c.linkSeed

theorem RunConfig.streamSeeds_eq (c : RunConfig) :
    c.streamSeeds = (List.range c.users.length).map (fun i => streamSeed c.seed i 0) ++
      (List.range c.users.length).map (fun i => streamSeed c.seed i 1) := by
  simp only [streamSeeds, RunConfig.senderFor, List.mapIdx_eq_ofFn]
  congr 1
  apply List.ext_getElem <;> simp

theorem nodup_streamSeeds_of_salt (s : UInt64) {n : Nat} (hn : n < Nat.pow 2 56) {a : UInt64}
    (ha : a < 256) : ((List.range n).map fun i => streamSeed s i a).Nodup := by
  apply List.nodup_range.map_on
  intro i hi j hj h
  rw [List.mem_range] at hi hj
  have := ((streamSeed_eq_streamSeed_iff s i j ha ha).mp h).2
  rwa [Nat.mod_eq_of_lt (by omega), Nat.mod_eq_of_lt (by omega)] at this

/-- Two stream seeds of one run agree exactly when their salts do and their indices agree modulo
`2^56`, so fewer than `2^56` users get `2N` different seeds. -/
theorem stream_seeds_pairwise_distinct :
    (∀ (s : UInt64) (i j : Nat) (a b : UInt64), a ≤ 1 → b ≤ 1 →
      (streamSeed s i a = streamSeed s j b ↔ a = b ∧ i % Nat.pow 2 56 = j % Nat.pow 2 56)) ∧
    ∀ c : RunConfig, c.users.length < Nat.pow 2 56 →
      c.streamSeeds.Nodup ∧ c.streamSeeds.length = 2 * c.users.length := by
  refine ⟨fun s i j a b ha hb => ?_, fun c hn => ⟨?_, ?_⟩⟩
  · have one_lt : (1 : UInt64) < 256 := by decide
    exact streamSeed_eq_streamSeed_iff s i j (UInt64.lt_of_le_of_lt ha one_lt)
      (UInt64.lt_of_le_of_lt hb one_lt)
  · rw [c.streamSeeds_eq, List.nodup_append]
    refine ⟨nodup_streamSeeds_of_salt c.seed hn (by decide),
      nodup_streamSeeds_of_salt c.seed hn (by decide), ?_⟩
    simp only [List.mem_map, List.mem_range]
    rintro _ ⟨i, -, rfl⟩ _ ⟨j, -, rfl⟩ h
    have := ((streamSeed_eq_streamSeed_iff c.seed i j (by decide) (by decide)).mp h).1
    exact absurd this (by decide)
  · simp [c.streamSeeds_eq]
    omega

/-- Two users `ue0` and `ue1` on the default sender, receiver, link and sweep, seeded by `1`. -/
def twoUserRun : RunConfig :=
  { version := 1, seed := 1, sender := {}, receiver := {}, link := {},
    users := [0, 1].map fun i =>
      { name := s!"ue{i}", address := s!"ue{i}", destination := s!"ue{i}", level := 10,
        startOffset := 0.0, catalog := .synthetic {} } }

/-- User `2^56` gets the jitter seed of user `0`, and the two users of `twoUserRun` get four
different seeds. -/
theorem twoUserRun_seeds_distinct :
    ((0 : UInt64) ≤ 1 ∧ streamSeed 1 0 0 = streamSeed 1 (Nat.pow 2 56) 0) ∧
      twoUserRun.users.length < Nat.pow 2 56 ∧ twoUserRun.streamSeeds.Nodup ∧
      twoUserRun.streamSeeds.length = 2 * twoUserRun.users.length := by
  have hlen : twoUserRun.users.length < Nat.pow 2 56 := by decide
  have hzero : (0 : UInt64) ≤ 1 := by decide
  refine ⟨⟨hzero, ?_⟩, hlen, stream_seeds_pairwise_distinct.2 twoUserRun hlen⟩
  exact (stream_seeds_pairwise_distinct.1 1 0 (Nat.pow 2 56) 0 0 hzero hzero).mpr ⟨rfl, by decide⟩

end XrDelivery
