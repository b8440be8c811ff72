import Mathlib
import XrDelivery.Proofs.DoubleValues
import XrDelivery.Proofs.CatalogText

/-!
# The shape of a synthetic sweep

A sweep's rows come from two nested loops, frame numbers outside and levels inside, with one
word stream threaded through both for the noise. What the loops fix does not depend on the
draws: read as frame number and component count (`Frame.slot`), the rows are one block per
frame number `i + 1`, in order, each pairing it with the levels in order (`Sweep.rows_slots`).
So a sweep of `L` levels has `frames · L` rows, and row `k` has frame number `k / L + 1` and
the level at `k % L` (`getElem?_flatMap_range`).

Every size is at least one byte: the rounded size is raised to one before it is cut to 32 bits,
and a double of at least one cuts to at least one (`one_le_toUInt32_of_one_le`), an infinity or
NaN size included.

The catalog of a level keeps the rows with that many components. The frame numbers of a level
listed once are `1, …, frames`, in order; a level keeps no row exactly when it is not listed
or there are no frames; and the catalog of every frame is all the rows (`synthetic_sweep_shape`).
-/

namespace Float.Model.UnpackedFloat

theorem roundToInt_positive (m : Nat) (e : Int) : roundToInt .positive m e = floorAt m e 0 := by
  simp only [roundToInt, decreaseExponent, shiftToExponent, mantissa_shiftRight, floorAt,
    Nat.shiftLeft_eq]
  rw [show (0 - (e - ((e - 0).toNat : Int))).toNat = (0 - e).toNat by omega]
  rfl

theorem one_le_floorAt {m : Nat} {e : Int} (h : 1 ≤ value m e) : 1 ≤ floorAt m e 0 := by
  have hlt := lt_of_le_of_lt h (value_lt_floorAt_succ m e 0)
  rw [value, zpow_zero, mul_one] at hlt
  exact_mod_cast Nat.lt_succ_iff.mp (by exact_mod_cast hlt)

end Float.Model.UnpackedFloat

namespace Float
open Float.Model Float.Model.UnpackedFloat

theorem unpack_one : (1.0 : Float).toModel.unpack = .finite .positive (2 ^ 52) (-52) (by decide) := rfl

theorem one_le_toNat_ofNatClamp {n : Nat} (h : 1 ≤ n) : 1 ≤ (UInt32.ofNatClamp n).toNat := by
  unfold UInt32.ofNatClamp
  split <;> simp [UInt32.toNat_ofNatLT]
  omega

theorem one_le_toUInt32_of_one_le {x : Float} (h : 1.0 ≤ x) : 1 ≤ x.toUInt32.toNat := by
  rw [le_iff_unpack, unpack_one] at h
  change 1 ≤ (x.toModel.unpack.toUInt32).toNat
  cases hx : x.toModel.unpack with
  | notANumber => rw [hx] at h; cases h
  | zero s => rw [hx] at h; cases h
  | infinity s =>
    rw [hx] at h
    cases s
    · cases h
    · decide
  | finite s m e hm =>
    rw [hx] at h
    cases s
    · cases h
    · obtain ⟨hc, -⟩ := canonical_of_unpack hx
      have hone := (le_finite_positive_iff_value ⟨by norm_num, by norm_num, by norm_num⟩ hc).mp h
      rw [value_twoPow52] at hone
      simp only [UnpackedFloat.toUInt32, toInt, roundToInt_positive]
      exact one_le_toNat_ofNatClamp (by simpa using one_le_floorAt hone)

end Float

namespace XrDelivery

section Fold

variable {β γ δ κ : Type}

/-- A left fold whose every step puts a block of new items in front of its accumulator lists
the blocks in reverse, whatever else the fold threads through. -/
theorem foldl_fst_map_eq {step : List β × γ → δ → List β × γ} (proj : β → κ)
    (block : δ → List κ) {l : List δ}
    (hstep : ∀ x, ∀ d ∈ l, ∃ out, (step x d).1 = out ++ x.1 ∧ out.map proj = (block d).reverse)
    (x : List β × γ) :
    (l.foldl step x).1.map proj = (l.flatMap block).reverse ++ x.1.map proj := by
  induction l generalizing x with
  | nil => simp
  | cons d l ih =>
    obtain ⟨out, hout, hproj⟩ := hstep x d List.mem_cons_self
    rw [List.foldl_cons, ih (fun y e he => hstep y e (List.mem_cons_of_mem d he)), hout,
      List.map_append, hproj, List.flatMap_cons, List.reverse_append, List.append_assoc]

end Fold

section Blocks

variable {α β : Type}

theorem length_flatMap_range (n : Nat) (xs : List α) (f : Nat → α → β) :
    ((List.range n).flatMap fun i => xs.map (f i)).length = n * xs.length := by
  induction n with
  | zero => simp
  | succ n ih => simp [List.range_succ, ih, Nat.succ_mul]

theorem getElem?_flatMap_range (n : Nat) (xs : List α) (f : Nat → α → β) (k : Nat) :
    ((List.range n).flatMap fun i => xs.map (f i))[k]? =
      if k < n * xs.length then xs[k % xs.length]?.map (f (k / xs.length)) else none := by
  induction n with
  | zero => simp
  | succ n ih =>
    rw [List.range_succ, List.flatMap_append, List.getElem?_append, length_flatMap_range, ih]
    by_cases hk : k < n * xs.length
    · simp [hk, show k < (n + 1) * xs.length by rw [Nat.succ_mul]; omega]
    · simp only [hk, if_false, List.flatMap_cons, List.flatMap_nil, List.append_nil,
        List.getElem?_map]
      by_cases hk' : k < (n + 1) * xs.length
      · have hdiv : k / xs.length = n := Nat.div_eq_of_lt_le (by omega) hk'
        rw [if_pos hk', Nat.mod_eq_sub_mul_div, hdiv, Nat.mul_comm]
      · rw [if_neg hk', List.getElem?_eq_none (by rw [Nat.succ_mul] at hk'; omega), Option.map_none]

end Blocks

theorem one_le_toUInt32_atLeast (x : Float) : 1 ≤ (atLeast 1.0 x).toUInt32.toNat := by
  unfold atLeast
  split
  · exact Float.one_le_toUInt32_of_one_le (Float.le_of_lt ‹_›)
  · decide

theorem toNat_succ_toUInt32 {i : Nat} {n : UInt32} (h : i < n.toNat) :
    (i + 1).toUInt32.toNat = i + 1 := by
  have : n.toNat < 4294967296 := n.toNat_lt
  rw [Nat.toUInt32_eq, UInt32.toNat_ofNat_of_lt' (by change _ < 4294967296; omega)]

/-- What the loops of a sweep fix of a row: its frame number and component count. -/
def Frame.slot (f : Frame) : UInt32 × UInt32 := (f.seq, f.components)

namespace Sweep

variable (s : Sweep)

theorem rowsOf_slots (spread : Float) (seq : UInt32) (g : Random.Stream) :
    (s.rowsOf spread seq g).1.map Frame.slot = s.levels.map (seq, ·) := by
  unfold rowsOf
  rw [List.map_reverse, foldl_fst_map_eq Frame.slot fun level => [(seq, level)]]
  · simp [List.map_eq_flatMap]
  rintro ⟨acc, g⟩ level -
  exact ⟨[_], rfl, rfl⟩

theorem rows_slots :
    s.rows.map Frame.slot =
      (List.range s.frames.toNat).flatMap fun i => s.levels.map ((i + 1).toUInt32, ·) := by
  unfold rows
  rw [List.map_reverse, foldl_fst_map_eq Frame.slot fun i => s.levels.map ((i + 1).toUInt32, ·)]
  · simp
  rintro ⟨acc, g⟩ i -
  exact ⟨_, rfl, by rw [List.map_reverse, rowsOf_slots]⟩

theorem length_rows : s.rows.length = s.frames.toNat * s.levels.length := by
  rw [← List.length_map (f := Frame.slot), rows_slots, length_flatMap_range]

theorem getElem_rows {k : Nat} (hk : k < s.rows.length) :
    s.rows[k].seq.toNat = k / s.levels.length + 1 ∧
      s.levels[k % s.levels.length]? = some s.rows[k].components := by
  have hslot := s.rows_slots ▸ (List.getElem?_map (f := Frame.slot) (l := s.rows) (i := k))
  rw [List.getElem?_eq_getElem hk, getElem?_flatMap_range, if_pos (s.length_rows ▸ hk),
    Option.map_some] at hslot
  obtain ⟨lv, hlv, heq⟩ := Option.map_eq_some_iff.mp hslot
  simp only [Frame.slot, Prod.mk.injEq] at heq
  have hbound : k / s.levels.length < s.frames.toNat :=
    Nat.div_lt_of_lt_mul (by rw [Nat.mul_comm, ← s.length_rows]; exact hk)
  rw [← heq.1, toNat_succ_toUInt32 hbound]
  exact ⟨rfl, hlv.trans (congrArg some heq.2)⟩

theorem one_le_size_of_mem_rowsOf {spread : Float} {seq : UInt32} {g : Random.Stream} {f : Frame}
    (hf : f ∈ (s.rowsOf spread seq g).1) : 1 ≤ f.size.toNat := by
  unfold rowsOf at hf
  refine foldl_fst_of_forall (P := fun acc : List Frame => ∀ f ∈ acc, 1 ≤ f.size.toNat) ?_
    (by simp) f (List.mem_reverse.mp hf)
  rintro ⟨acc, g⟩ level - hacc f hf
  rcases List.mem_cons.mp hf with rfl | hf
  · exact one_le_toUInt32_atLeast _
  · exact hacc f hf

theorem one_le_size_of_mem_rows {f : Frame} (hf : f ∈ s.rows) : 1 ≤ f.size.toNat := by
  unfold rows at hf
  refine foldl_fst_of_forall (P := fun acc : List Frame => ∀ f ∈ acc, 1 ≤ f.size.toNat) ?_
    (by simp) f (List.mem_reverse.mp hf)
  rintro ⟨acc, g⟩ i - hacc f hf
  rcases List.mem_append.mp hf with hf | hf
  · exact one_le_size_of_mem_rowsOf s (List.mem_reverse.mp hf)
  · exact hacc f hf

/-- The rows a level of components keeps, frame-major: per frame number, its copies of the
level. -/
theorem filter_rows_slots (l : UInt32) :
    (s.rows.filter (Level.components l).accepts).map Frame.slot =
      (List.range s.frames.toNat).flatMap fun i =>
        (s.levels.filter (· == l)).map ((i + 1).toUInt32, ·) := by
  have hsel : (Level.components l).accepts = (fun p : UInt32 × UInt32 => p.2 == l) ∘ Frame.slot := rfl
  rw [hsel, ← List.filter_map, rows_slots, List.filter_flatMap]
  simp [List.filter_map, Function.comp_def]

theorem filter_rows_eq_nil_iff (l : UInt32) :
    s.rows.filter (Level.components l).accepts = [] ↔ l ∉ s.levels ∨ s.frames.toNat = 0 := by
  rw [← List.map_eq_nil_iff (f := Frame.slot), filter_rows_slots, List.flatMap_eq_nil_iff]
  simp only [List.mem_range, List.map_eq_nil_iff, List.filter_eq_nil_iff, beq_iff_eq]
  constructor
  · intro h
    by_cases hn : s.frames.toNat = 0
    · exact .inr hn
    · exact .inl fun hl => h 0 (by omega) l hl rfl
  · rintro (hl | hn) i hi l' hl' rfl
    · exact hl hl'
    · omega

theorem seqs_filter_rows {l : UInt32} (hl : s.levels.count l = 1) :
    (s.rows.filter (Level.components l).accepts).map (fun f => f.seq.toNat) =
      List.range' 1 s.frames.toNat := by
  have hslots := s.filter_rows_slots l
  rw [List.filter_beq, hl, List.replicate_one] at hslots
  have hseq := congrArg (List.map fun p : UInt32 × UInt32 => p.1.toNat) hslots
  simp only [List.map_map, List.map_flatMap, List.map_cons, List.map_nil] at hseq
  rw [show (fun f : Frame => f.seq.toNat) = (fun p : UInt32 × UInt32 => p.1.toNat) ∘ Frame.slot
    from rfl, hseq, List.range'_eq_map_range, ← List.map_eq_flatMap]
  refine List.map_congr_left fun i hi => ?_
  rw [toNat_succ_toUInt32 (List.mem_range.mp hi), Nat.add_comm]

end Sweep

namespace Catalog

variable {fs : List Frame} {level : Level} {c : Catalog}

theorem ofFrames_eq_error_iff :
    Catalog.ofFrames fs level = .error .emptyCatalog ↔ fs.filter level.accepts = [] := by
  unfold ofFrames
  dsimp only
  split <;> simp_all

theorem frames_of_ofFrames_eq_ok (h : Catalog.ofFrames fs level = .ok c) :
    c.frames = fs.filter level.accepts := by
  unfold ofFrames at h
  dsimp only at h
  split at h
  · cases h
  · cases h
    rfl

theorem ofFrames_cases (fs : List Frame) (level : Level) :
    Catalog.ofFrames fs level = .error .emptyCatalog ∨ ∃ c, Catalog.ofFrames fs level = .ok c := by
  unfold ofFrames
  dsimp only
  split
  · exact .inl rfl
  · exact .inr ⟨_, rfl⟩

end Catalog

/-- Synthetic sweeps have the advertised shape: row `k` of `L` levels has frame `k / L + 1`, level
`k % L` and at least one byte, of `frames · L` rows; a level's catalog plays the frames
`1, …, frames`, and a catalog fails exactly when it would be empty. -/
theorem synthetic_sweep_shape (s : Sweep) :
    s.rows.length = s.frames.toNat * s.levels.length ∧
    (∀ k (hk : k < s.rows.length), s.rows[k].seq.toNat = k / s.levels.length + 1 ∧
      s.levels[k % s.levels.length]? = some s.rows[k].components ∧ 1 ≤ s.rows[k].size.toNat) ∧
    (∀ level, s.catalog level = .error .emptyCatalog ∨ ∃ c, s.catalog level = .ok c) ∧
    (∀ l, s.catalog (.components l) = .error .emptyCatalog ↔ l ∉ s.levels ∨ s.frames = 0) ∧
    (∀ l c, s.levels.count l = 1 → s.catalog (.components l) = .ok c →
      c.frames.map (fun f => f.seq.toNat) = List.range' 1 s.frames.toNat) ∧
    (s.catalog .all = .error .emptyCatalog ↔ s.frames.toNat * s.levels.length = 0) ∧
    (∀ c, s.catalog .all = .ok c → c.frames = s.rows) ∧
    ∀ level c, s.catalog level = .ok c → ∀ f ∈ c.frames, f.size ≠ 0 := by
  have hall : (Level.all).accepts = fun _ => true := rfl
  refine ⟨s.length_rows, fun k hk => ?_, fun level => Catalog.ofFrames_cases _ _,
    fun l => ?_, fun l c hl h => ?_, ?_, fun c h => ?_, fun level c h f hf => ?_⟩
  · exact ⟨(s.getElem_rows hk).1, (s.getElem_rows hk).2,
      s.one_le_size_of_mem_rows (List.getElem_mem hk)⟩
  · rw [Sweep.catalog, Catalog.ofFrames_eq_error_iff, Sweep.filter_rows_eq_nil_iff,
      ← UInt32.toNat_inj, UInt32.toNat_zero]
  · rw [Sweep.catalog] at h
    rw [Catalog.frames_of_ofFrames_eq_ok h, s.seqs_filter_rows hl]
  · rw [Sweep.catalog, Catalog.ofFrames_eq_error_iff, hall, List.filter_true, ← s.length_rows,
      List.length_eq_zero_iff]
  · rw [Sweep.catalog] at h
    rw [Catalog.frames_of_ofFrames_eq_ok h, hall, List.filter_true]
  · rw [Sweep.catalog] at h
    rw [Catalog.frames_of_ofFrames_eq_ok h] at hf
    have := s.one_le_size_of_mem_rows (List.mem_filter.mp hf).1
    intro h0
    rw [h0, UInt32.toNat_zero] at this
    omega

end XrDelivery
