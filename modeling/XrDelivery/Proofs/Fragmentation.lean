import Mathlib
import XrDelivery.Frame

/-!
# Cutting a frame into fragments

A successful cut of a frame into pieces of at most `m` bytes gives `⌈size / m⌉` fragments,
at least one and at most `65535`. Fragment `i` is piece `i`: it repeats the frame's metadata
and sending instant, names its index among the count, and carries a non-empty payload. The
pieces are told apart by their indices, so a cut never repeats a fragment.

The payloads tile the frame (`fragments_tile_frame`): with `k = ⌈size / m⌉` pieces of
`min m size` bytes, one piece fewer leaves bytes over and `k` of them hold the frame
(`pieces_bounds`), so the last piece takes the rest, between one byte and a full piece.
-/
namespace XrDelivery

/-- A fragment carries frame `fr` sent at `g`: the frame's number and metadata, a positive
count, an index below the count and a non-empty payload. -/
structure Fragment.Carries (f : Fragment) (fr : Frame) (g : Float) : Prop where
  frameSeq_eq : f.frameSeq = fr.seq
  components_eq : f.components = fr.components
  error_eq : f.error = fr.error
  frameSize_eq : f.frameSize = fr.size
  sentAt_eq : f.sentAt = g
  count_ne_zero : f.count ≠ 0
  index_lt : f.index < f.count
  payload_ne_zero : f.payload ≠ 0

namespace Frame

variable {fr : Frame} {m : Nat} {g : Float} {frs : List Fragment}

/-- What a successful cut is: the bound and the size are positive, the count is `⌈size / m⌉`
and fits the 16-bit field, and fragment `i` is piece `i` of the frame. -/
theorem fragments_eq_ok (h : fr.fragments m g = .ok frs) :
    m ≠ 0 ∧ fr.size ≠ 0 ∧ frs.length = (fr.size.toNat + m - 1) / m ∧ frs.length ≤ 65535 ∧
      ∀ i (hi : i < frs.length), frs[i] =
        { frameSeq := fr.seq, index := i.toUInt16, count := frs.length.toUInt16,
          payload := (if i + 1 < frs.length then min m fr.size.toNat
            else fr.size.toNat - (frs.length - 1) * min m fr.size.toNat).toUInt32,
          sentAt := g, components := fr.components, error := fr.error,
          frameSize := fr.size } := by
  unfold Frame.fragments at h
  dsimp only at h
  split at h
  · cases h
  · rename_i hm
    split at h
    · cases h
    · rename_i hsize
      split at h
      · cases h
      · rename_i hcount
        injection h with h
        subst h
        refine ⟨hm, hsize, by simp [pieceSizes], by simp [pieceSizes]; omega, ?_⟩
        intro i hi
        simp [pieceSizes]

theorem one_le_length_fragments (h : fr.fragments m g = .ok frs) : 1 ≤ frs.length := by
  obtain ⟨hm, hsize, hlen, -, -⟩ := fragments_eq_ok h
  have hpos : 0 < fr.size.toNat := by
    rcases Nat.eq_zero_or_pos fr.size.toNat with h0 | h0
    · exact absurd (UInt32.toNat_inj.mp (by simpa using h0)) hsize
    · exact h0
  rw [hlen, Nat.le_div_iff_mul_le (Nat.pos_of_ne_zero hm)]
  omega

theorem piece_pos (hm : m ≠ 0) (hsize : 0 < fr.size.toNat) (i : Nat) :
    0 < (if i + 1 < (fr.size.toNat + m - 1) / m then min m fr.size.toNat
      else fr.size.toNat - ((fr.size.toNat + m - 1) / m - 1) * min m fr.size.toNat) := by
  split
  · omega
  · have hc : (fr.size.toNat + m - 1) / m * m ≤ fr.size.toNat + m - 1 := Nat.div_mul_le_self _ _
    rcases le_total m fr.size.toNat with hle | hle
    · rw [min_eq_left hle, Nat.sub_mul, one_mul]
      omega
    · have hone : (fr.size.toNat + m - 1) / m ≤ 1 := by
        rw [Nat.div_le_iff_le_mul_add_pred (Nat.pos_of_ne_zero hm)]
        omega
      rw [min_eq_right hle]
      have : ((fr.size.toNat + m - 1) / m - 1) * fr.size.toNat = 0 := by
        rw [Nat.sub_eq_zero_of_le hone, zero_mul]
      omega

theorem carries_of_mem_fragments (h : fr.fragments m g = .ok frs) {f : Fragment}
    (hf : f ∈ frs) : f.Carries fr g ∧ f.count.toNat = frs.length := by
  obtain ⟨hm, hsize, hlen, hmax, hget⟩ := fragments_eq_ok h
  obtain ⟨i, hi, rfl⟩ := List.getElem_of_mem hf
  have hone := one_le_length_fragments h
  have hsz : 0 < fr.size.toNat := Nat.pos_of_ne_zero fun h0 =>
    hsize (UInt32.toNat_inj.mp (by simpa using h0))
  have hcount : frs.length.toUInt16.toNat = frs.length := by
    simp only [Nat.toUInt16_eq, UInt16.toNat_ofNat']; omega
  have hpay := piece_pos hm hsz i
  rw [← hlen] at hpay
  have hpay_le : (if i + 1 < frs.length then min m fr.size.toNat
      else fr.size.toNat - (frs.length - 1) * min m fr.size.toNat) ≤ fr.size.toNat := by
    split <;> omega
  have hsize_lt : fr.size.toNat < 2 ^ 32 := fr.size.toNat_lt
  rw [hget i hi]
  refine ⟨⟨rfl, rfl, rfl, rfl, rfl, ?_, ?_, ?_⟩, hcount⟩
  · intro h0
    have := congrArg UInt16.toNat h0
    simp only [hcount, UInt16.toNat_zero] at this
    omega
  · rw [UInt16.lt_iff_toNat_lt, hcount]
    simp only [Nat.toUInt16_eq, UInt16.toNat_ofNat']
    omega
  · intro h0
    have := congrArg UInt32.toNat h0
    simp only [Nat.toUInt32_eq, UInt32.toNat_ofNat', UInt32.toNat_zero] at this
    omega

theorem map_index_fragments (h : fr.fragments m g = .ok frs) :
    frs.map Fragment.index = (List.range frs.length).map Nat.toUInt16 := by
  obtain ⟨-, -, -, -, hget⟩ := fragments_eq_ok h
  apply List.ext_getElem (by simp)
  intro i hi _
  simp [hget i (by simpa using hi)]

theorem nodup_fragments (h : fr.fragments m g = .ok frs) : frs.Nodup := by
  obtain ⟨-, -, -, hmax, -⟩ := fragments_eq_ok h
  apply List.Nodup.of_map Fragment.index
  rw [map_index_fragments h]
  apply List.Nodup.map_on _ List.nodup_range
  intro i hi j hj hij
  have := congrArg UInt16.toNat hij
  simp only [List.mem_range] at hi hj
  simp only [Nat.toUInt16_eq, UInt16.toNat_ofNat'] at this
  omega

/-! ### The payloads tile the frame -/

section Tiling

variable {size piece count m : Nat}

theorem ceilDiv_bounds (hm : 0 < m) (hs : 0 < size) :
    ((size + m - 1) / m - 1) * m < size ∧ size ≤ (size + m - 1) / m * m := by
  have hdiv := Nat.div_add_mod (size + m - 1) m
  have hmod := Nat.mod_lt (size + m - 1) hm
  rw [Nat.mul_comm] at hdiv
  rw [Nat.sub_mul, one_mul]
  generalize (size + m - 1) / m * m = q at hdiv ⊢
  constructor <;> omega

theorem pieces_bounds (hm : 0 < m) (hs : 0 < size) :
    ((size + m - 1) / m - 1) * min m size < size ∧ size ≤ (size + m - 1) / m * min m size := by
  rcases le_total m size with hle | hle
  · rw [min_eq_left hle]
    exact ceilDiv_bounds hm hs
  · have hone : (size + m - 1) / m = 1 := by
      exact Nat.div_eq_of_lt_le (by omega) (by omega)
    rw [min_eq_right hle, hone]
    omega

@[simp] theorem length_pieceSizes : (pieceSizes size piece count).length = count := by
  simp [pieceSizes]

theorem getElem_pieceSizes {i : Nat} (hi : i < (pieceSizes size piece count).length) :
    (pieceSizes size piece count)[i] =
      if i + 1 < count then piece else size - (count - 1) * piece := by
  simp [pieceSizes]

theorem sum_take_pieceSizes {i : Nat} (hi : i < count) :
    ((pieceSizes size piece count).take i).sum = i * piece := by
  induction i with
  | zero => simp
  | succ i ih =>
    rw [List.sum_take_succ _ _ (by simp; omega), ih (by omega), getElem_pieceSizes,
      if_pos (by omega), Nat.succ_mul]

theorem sum_pieceSizes (hc : 0 < count) (hle : (count - 1) * piece ≤ size) :
    (pieceSizes size piece count).sum = size := by
  have hlast := List.sum_take_succ (pieceSizes size piece count) (count - 1) (by simp; omega)
  rw [Nat.sub_add_cancel hc, List.take_of_length_le (by simp),
    sum_take_pieceSizes (by omega), getElem_pieceSizes, if_neg (by omega)] at hlast
  omega

theorem pieceSizes_tile (hm : 0 < m) (hs : 0 < size) {i : Nat}
    (hi : i < (pieceSizes size (min m size) ((size + m - 1) / m)).length) :
    let l := pieceSizes size (min m size) ((size + m - 1) / m)
    1 ≤ l[i] ∧ l[i] ≤ m ∧ (i + 1 < (size + m - 1) / m → l[i] = min m size) ∧
      (l.take i).sum + l[i] ≤ size ∧ l[i] = min (size - (l.take i).sum) (min m size) := by
  intro l
  rw [length_pieceSizes] at hi
  obtain ⟨hlow, hhigh⟩ := pieces_bounds hm hs
  have htake : (l.take i).sum = i * min m size := sum_take_pieceSizes hi
  have hp : 1 ≤ min m size := by omega
  have hpm : min m size ≤ m := min_le_left m size
  rw [htake, getElem_pieceSizes]
  generalize hk : (size + m - 1) / m = k at hi hlow hhigh
  generalize min m size = p at hp hpm hlow hhigh
  have hkp : k * p = (k - 1) * p + p := by rw [← Nat.succ_mul, Nat.succ_eq_add_one, Nat.sub_add_cancel (by omega)]
  split
  · have hip : (i + 1) * p ≤ (k - 1) * p := Nat.mul_le_mul_right p (by omega)
    rw [Nat.succ_mul] at hip
    refine ⟨hp, hpm, fun _ => rfl, by omega, by omega⟩
  · have hlast : i = k - 1 := by omega
    subst hlast
    refine ⟨by omega, by omega, fun h => absurd h ‹_›, by omega, by omega⟩

end Tiling

theorem map_payload_fragments (h : fr.fragments m g = .ok frs) :
    frs.map (·.payload.toNat) = pieceSizes fr.size.toNat (min m fr.size.toNat) frs.length := by
  obtain ⟨-, -, -, -, hget⟩ := fragments_eq_ok h
  have hsize : fr.size.toNat < 2 ^ 32 := fr.size.toNat_lt
  apply List.ext_getElem (by simp)
  intro i hi _
  rw [List.getElem_map, hget i (by simpa using hi), getElem_pieceSizes]
  simp only [Nat.toUInt32_eq, UInt32.toNat_ofNat']
  split <;> omega

theorem fragments_isOk (hm : m ≠ 0) (hs : fr.size ≠ 0)
    (hk : (fr.size.toNat + m - 1) / m ≤ 65535) : ∃ frs, fr.fragments m g = .ok frs := by
  unfold Frame.fragments
  rw [if_neg hm, if_neg hs, if_neg (by omega)]
  exact ⟨_, rfl⟩

/-- Cutting a frame into fragments of at most `m` bytes refuses a zero bound, an empty frame and
more than `65535` fragments, in that order; otherwise it gives `fragmentCount` fragments numbered in
order and carrying the frame, whose payloads of one to `m` bytes add up to its size. -/
theorem fragments_tile_frame (fr : Frame) (m : Nat) (t : Float) :
    (m = 0 → fr.fragments m t = .error (.payloadSizeZero m)) ∧
    (m ≠ 0 → fr.size = 0 → fr.fragments m t = .error (.emptyFrame fr.seq)) ∧
    (m ≠ 0 → fr.size ≠ 0 → ∃ k, fragmentCount fr.size m = .ok k ∧
      (k - 1) * m < fr.size.toNat ∧ fr.size.toNat ≤ k * m ∧
      (65535 < k → fr.fragments m t = .error (.tooManyFragments fr.seq k)) ∧
      (k ≤ 65535 → ∃ frs, fr.fragments m t = .ok frs ∧ frs.length = k ∧
        (frs.map (·.payload.toNat)).sum = fr.size.toNat ∧
        ∀ i (hi : i < frs.length),
          frs[i].index.toNat = i ∧ frs[i].count.toNat = k ∧ frs[i].sentAt = t ∧
          frs[i].frameSeq = fr.seq ∧ frs[i].components = fr.components ∧
          frs[i].error = fr.error ∧ frs[i].frameSize = fr.size ∧
          1 ≤ frs[i].payload.toNat ∧ frs[i].payload.toNat ≤ m ∧
          (i + 1 < k → frs[i].payload.toNat = min m fr.size.toNat) ∧
          ((frs.take i).map (·.payload.toNat)).sum + frs[i].payload.toNat ≤ fr.size.toNat ∧
          frs[i].payload.toNat =
            min (fr.size.toNat - ((frs.take i).map (·.payload.toNat)).sum)
              (min m fr.size.toNat))) := by
  refine ⟨fun hm => by simp [Frame.fragments, hm], fun hm hs => by simp [Frame.fragments, hm, hs],
    fun hm hs => ⟨(fr.size.toNat + m - 1) / m, by simp [fragmentCount, hm], ?_⟩⟩
  have hm' : 0 < m := Nat.pos_of_ne_zero hm
  have hs' : 0 < fr.size.toNat := Nat.pos_of_ne_zero fun h0 =>
    hs (UInt32.toNat_inj.mp (by simpa using h0))
  obtain ⟨hlow, hhigh⟩ := ceilDiv_bounds hm' hs'
  refine ⟨hlow, hhigh, fun hk => by simp [Frame.fragments, hm, hs, hk], fun hk => ?_⟩
  obtain ⟨frs, hfrs⟩ := fragments_isOk (g := t) hm hs hk
  obtain ⟨-, -, hlen, -, hget⟩ := fragments_eq_ok hfrs
  have hpay := map_payload_fragments hfrs
  rw [hlen] at hpay
  refine ⟨frs, hfrs, hlen, ?_, fun i hi => ?_⟩
  · rw [hpay]
    exact sum_pieceSizes (hlen ▸ one_le_length_fragments hfrs)
      (Nat.le_of_lt (pieces_bounds hm' hs').1)
  have hi' : i < (pieceSizes fr.size.toNat (min m fr.size.toNat)
      ((fr.size.toNat + m - 1) / m)).length := by simpa [hlen] using hi
  have htile := pieceSizes_tile hm' hs' hi'
  have hpi : frs[i].payload.toNat = (pieceSizes fr.size.toNat (min m fr.size.toNat)
      ((fr.size.toNat + m - 1) / m))[i] := by
    simp only [← hpay, List.getElem_map]
  have htake : (frs.take i).map (·.payload.toNat) = (pieceSizes fr.size.toNat
      (min m fr.size.toNat) ((fr.size.toNat + m - 1) / m)).take i := by
    rw [List.map_take, hpay]
  have hidx : i.toUInt16.toNat = i := by simp only [Nat.toUInt16_eq, UInt16.toNat_ofNat']; omega
  have hcnt : frs.length.toUInt16.toNat = frs.length := by
    simp only [Nat.toUInt16_eq, UInt16.toNat_ofNat']; omega
  rw [hpi, htake, hget i hi]
  exact ⟨hidx, by rw [hcnt, hlen], rfl, rfl, rfl, rfl, rfl, htile⟩

end Frame

end XrDelivery
