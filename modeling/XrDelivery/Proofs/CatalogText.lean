import Mathlib
import XrDelivery.Catalog.Csv
import XrDelivery.Catalog.Synthetic

/-!
# Catalog text reads back as the catalog it was written from

A catalog line is a frame's number, component count, error and size joined by commas
(`Frame.csvRow`). Reading a catalog text gives back the frames whose lines were written, in
order, whatever a writer or an editor adds around them: a header line of any text, blanks
anywhere inside a line (a carriage return before the line feed among them), and blank lines.
The frame number must not be zero and the error must be finite, not below zero, and read back
from its shortest digits; a frame without these is one the reader drops.

The argument runs on the characters of the text. Splitting at a separator commutes with
removing characters that are never separators (`splitOnP_filter`), so a line's fields read
the same before and after its blanks are removed; a text of lines each ended by a line feed
splits into those lines (`Text.lines_join`); and the four fields of a frame's line hold no
comma and no blank, so they split apart as written (`splitToList_csvRow`).
-/
namespace XrDelivery

/-! ## Splitting lists at separators -/

section Split

variable {α : Type} {p q : α → Bool}

theorem splitOnP_filter (hpq : ∀ a, p a = true → q a = true) (l : List α) :
    (l.filter q).splitOnP p = (l.splitOnP p).map (List.filter q) := by
  induction l with
  | nil => simp
  | cons a l ih =>
    by_cases hp : p a = true
    · simp [List.splitOnP_cons_eq_if_modifyHead, hp, hpq a hp, ih]
    · obtain ⟨x, xs, hx⟩ := List.exists_cons_of_ne_nil (List.splitOnP_ne_nil p l)
      by_cases hq : q a = true
      · simp [List.splitOnP_cons_eq_if_modifyHead, hp, hq, ih, hx]
      · simp [List.splitOnP_cons_eq_if_modifyHead, hp, hq, ih, hx]

theorem splitOnP_flatten_map_append (sep : α) (hsep : p sep = true) (ls : List (List α))
    (h : ∀ l ∈ ls, ∀ x ∈ l, p x = false) :
    (ls.map (· ++ [sep])).flatten.splitOnP p = ls ++ [[]] := by
  induction ls with
  | nil => simp
  | cons l ls ih =>
    simp only [List.map_cons, List.flatten_cons, List.append_assoc, List.singleton_append]
    rw [List.splitOnP_append_cons_of_forall_mem (h l (by simp)) sep hsep,
      ih fun l' hl' => h l' (by simp [hl'])]
    rfl

end Split

/-! ## Blanks, fields and lines -/

namespace Text

@[simp] theorem toList_dropBlanks (s : String) :
    (dropBlanks s).toList = s.toList.filter fun c => !isBlank c := by
  simp [dropBlanks]

theorem dropBlanks_dropBlanks (s : String) : dropBlanks (dropBlanks s) = dropBlanks s := by
  simp [← String.toList_inj]

theorem splitToList_comma_dropBlanks (s : String) :
    (dropBlanks s).splitToList (· == ',') = (s.splitToList (· == ',')).map dropBlanks := by
  have hcomma : ∀ c, (c == ',') = true → (!isBlank c) = true := by
    intro c hc
    rw [beq_iff_eq] at hc
    subst hc
    decide
  rw [String.splitToList_of_valid, String.splitToList_of_valid, toList_dropBlanks,
    splitOnP_filter hcomma, List.map_map, List.map_map]
  congr 1
  funext cs
  simp [dropBlanks]

theorem splitToList_join_newline (ls : List String) (h : ∀ l ∈ ls, '\n' ∉ l.toList) :
    (String.join (ls.map (· ++ "\n"))).splitToList (· == '\n') = ls ++ [""] := by
  have hsplit := splitOnP_flatten_map_append (p := (· == '\n')) '\n' (by decide)
    (ls.map String.toList) (by
      simp only [List.mem_map, forall_exists_index, and_imp, forall_apply_eq_imp_iff₂]
      intro l hl x hx
      simp only [beq_eq_false_iff_ne]
      rintro rfl
      exact h l hl hx)
  have hlist : (String.join (ls.map (· ++ "\n"))).toList =
      ((ls.map String.toList).map (· ++ ['\n'])).flatten := by
    simp [String.toList_join, List.flatMap_def, Function.comp_def]
  rw [String.splitToList_of_valid, hlist, hsplit]
  simp

theorem lines_join (ls : List String) (h : ∀ l ∈ ls, '\n' ∉ l.toList) :
    lines (String.join (ls.map (· ++ "\n"))) = ls.map dropCr := by
  unfold lines
  rw [splitToList_join_newline ls h]
  simp

theorem dropCr_cases (p : String) :
    dropCr p = p ∨ p.toList = (dropCr p).toList ++ ['\r'] := by
  unfold dropCr
  split
  · rename_i hcr
    rw [String.endsWith_eq_endsWith_toSlice, String.Slice.endsWith_string_iff] at hcr
    simp only [String.copy_toSlice, List.suffix_iff_exists_append_eq] at hcr
    obtain ⟨t, ht⟩ := hcr
    right
    simp [← ht]
  · left
    rfl

@[simp] theorem isBlankText_dropCr (p : String) : isBlankText (dropCr p) = isBlankText p := by
  rcases dropCr_cases p with h | h
  · rw [h]
  · simp [isBlankText, h, show isBlank '\r' = true by decide]

@[simp] theorem dropBlanks_dropCr (p : String) : dropBlanks (dropCr p) = dropBlanks p := by
  rcases dropCr_cases p with h | h
  · rw [h]
  · simp [← String.toList_inj, h, show isBlank '\r' = true by decide]

/-- A character a catalog field keeps as it is: neither the separator nor blank. -/
def FieldChar (c : Char) : Prop := c ≠ ',' ∧ isBlank c = false

instance : DecidablePred FieldChar := fun _ => inferInstanceAs (Decidable (_ ∧ _))

theorem fieldChar_of_isDigit {c : Char} (h : c.isDigit = true) : FieldChar c := by
  have hn := Char.isDigit_iff_toNat.mp h
  simp only [Char.reduceToNat] at hn
  refine ⟨?_, ?_⟩
  · rintro rfl
    simp at hn
  · simp only [isBlank]
    simp
    omega

theorem dropBlanks_eq_self {s : String} (h : ∀ c ∈ s.toList, isBlank c = false) :
    dropBlanks s = s := by
  rw [← String.toList_inj, toList_dropBlanks, List.filter_eq_self]
  intro c hc
  simp [h c hc]

end Text

/-! ## Numbers read back from their text -/

namespace Decimal

theorem digitsValue_eq_ofDigitChars (cs : List Char) :
    digitsValue cs = Nat.ofDigitChars 10 cs 0 := by
  simp only [digitsValue, Nat.ofDigitChars, Nat.mul_comm]

theorem readNat?_toString (n : Nat) : readNat? (toString n) = some n := by
  have hdigits : ∀ c ∈ Nat.toDigits 10 n, c.isDigit = true :=
    fun c hc => Nat.isDigit_of_mem_toDigits (by decide) (by decide) hc
  obtain ⟨c, cs, hcs⟩ := List.exists_cons_of_ne_nil (Nat.toDigits_ne_nil (n := n) (b := 10))
  have hplus : c ≠ '+' := by
    rintro rfl
    exact absurd (hdigits '+' (by simp [hcs])) (by decide)
  unfold readNat?
  simp only [Nat.toString_eq_repr, Nat.toList_repr, hcs]
  split
  · rename_i r h
    simp only [List.cons.injEq] at h
    exact absurd h.1 hplus
  · simp only [List.isEmpty_cons, Bool.false_or]
    rw [← hcs, allDigits, List.all_eq_true.mpr hdigits, digitsValue_eq_ofDigitChars,
      Nat.ofDigitChars_ten_toDigits]
    rfl

end Decimal

theorem readWord?_toString (w : UInt32) : readWord? (toString w) = some w := by
  have hw : toString w = toString w.toNat := rfl
  have hlt : w.toNat < Nat.pow 2 32 := w.toNat_lt
  rw [readWord?, hw, Decimal.readNat?_toString]
  simp only [hlt, if_true, UInt32.ofNat_toNat]

namespace Text

theorem fieldChar_of_mem_toString (n : Nat) : ∀ c ∈ (toString n).toList, FieldChar c := by
  intro c hc
  rw [Nat.toString_eq_repr, Nat.toList_repr] at hc
  exact fieldChar_of_isDigit (Nat.isDigit_of_mem_toDigits (by decide) (by decide) hc)

theorem fieldChar_of_mem_zeros (n : Nat) : ∀ c ∈ (Decimal.zeros n).toList, FieldChar c := by
  intro c hc
  simp only [Decimal.zeros, String.toList_ofList, List.mem_replicate] at hc
  rw [hc.2]
  decide

theorem fieldChar_of_mem_point_cut {s : String} (hs : ∀ c ∈ s.toList, FieldChar c) (k : Nat) :
    ∀ c ∈ (String.ofList (s.toList.take k) ++ "." ++ String.ofList (s.toList.drop k)).toList,
      FieldChar c := by
  intro c hc
  simp only [String.toList_append, String.toList_ofList, List.mem_append] at hc
  rcases hc with (hc | hc) | hc
  · exact hs c (List.mem_of_mem_take hc)
  · obtain rfl : c = '.' := by simpa using hc
    decide
  · exact hs c (List.mem_of_mem_drop hc)

theorem fieldChar_of_mem_plain (d : Decimal.Dec) : ∀ c ∈ d.plain.toList, FieldChar c := by
  have hdigits := fieldChar_of_mem_toString d.digits
  unfold Decimal.Dec.plain
  dsimp only
  split
  · intro c hc
    simp only [String.toList_append, List.mem_append] at hc
    rcases hc with hc | hc
    · exact hdigits c hc
    · exact fieldChar_of_mem_zeros _ c hc
  · split
    · exact fieldChar_of_mem_point_cut hdigits _
    · intro c hc
      simp only [String.toList_append, List.mem_append] at hc
      rcases hc with (hc | hc) | hc
      · obtain rfl | rfl : c = '0' ∨ c = '.' := by simpa using hc
        all_goals decide
      · exact fieldChar_of_mem_zeros _ c hc
      · exact hdigits c hc

theorem fieldChar_of_mem_special {x : Float} {s : String} (hs : Decimal.special x = some s) :
    ∀ c ∈ s.toList, FieldChar c := by
  unfold Decimal.special at hs
  split_ifs at hs <;> cases hs <;> simp [FieldChar, isBlank]

theorem fieldChar_of_mem_sign_append (neg : Bool) {body : String}
    (hb : ∀ c ∈ body.toList, FieldChar c) :
    ∀ c ∈ ((if neg then "-" else "") ++ body).toList, FieldChar c := by
  intro c hc
  simp only [String.toList_append, List.mem_append] at hc
  rcases hc with hc | hc
  · split at hc
    · obtain rfl : c = '-' := by simpa using hc
      decide
    · simp at hc
  · exact hb c hc

theorem fieldChar_of_mem_plainText (x : Float) : ∀ c ∈ x.plainText.toList, FieldChar c := by
  unfold Float.plainText
  split
  · rename_i s hs
    exact fieldChar_of_mem_special hs
  · exact fieldChar_of_mem_sign_append _ (fieldChar_of_mem_plain _)

end Text

/-! ## A frame's catalog line -/

/-- An error the catalog reader keeps when it reads the error's own text: finite, not below
zero, and read back from its shortest digits. -/
structure ReadableError (x : Float) : Prop where
  finite : x.isFinite = true
  not_neg : ¬x < 0.0
  reads_back : Decimal.readFloat? x.plainText = some x

theorem toList_csvRow (f : Frame) :
    f.csvRow.toList = (toString f.seq).toList ++ ',' :: ((toString f.components).toList ++
      ',' :: (f.error.plainText.toList ++ ',' :: (toString f.size).toList)) := by
  simp [Frame.csvRow, show toString "," = "," from rfl,
    show toString f.error.plainText = f.error.plainText from rfl]

open Text in
theorem fieldChar_of_mem_csvRow (f : Frame) :
    ∀ c ∈ f.csvRow.toList, c = ',' ∨ FieldChar c := by
  have hword : ∀ w : UInt32, ∀ c ∈ (toString w).toList, FieldChar c :=
    fun w => fieldChar_of_mem_toString w.toNat
  intro c hc
  simp only [toList_csvRow, List.mem_append, List.mem_cons] at hc
  rcases hc with hseq | hcomma | hcomp | hcomma | herr | hcomma | hsize
  · exact Or.inr (hword f.seq c hseq)
  · exact Or.inl hcomma
  · exact Or.inr (hword f.components c hcomp)
  · exact Or.inl hcomma
  · exact Or.inr (fieldChar_of_mem_plainText f.error c herr)
  · exact Or.inl hcomma
  · exact Or.inr (hword f.size c hsize)

theorem isBlank_of_mem_csvRow (f : Frame) : ∀ c ∈ f.csvRow.toList, Text.isBlank c = false := by
  intro c hc
  rcases fieldChar_of_mem_csvRow f c hc with rfl | hc
  · decide
  · exact hc.2

theorem isBlankText_csvRow (f : Frame) : Text.isBlankText f.csvRow = false := by
  obtain ⟨c, cs, hcs⟩ := List.exists_cons_of_ne_nil (Nat.toDigits_ne_nil (n := f.seq.toNat) (b := 10))
  have hc : c ∈ f.csvRow.toList := by
    rw [toList_csvRow]
    exact List.mem_append_left _ (by simp [show toString f.seq = toString f.seq.toNat from rfl, hcs])
  rw [Text.isBlankText, Bool.eq_false_iff]
  intro hall
  have := List.all_eq_true.mp hall c hc
  rw [isBlank_of_mem_csvRow f c hc] at this
  exact Bool.false_ne_true this

open Text in
theorem splitToList_csvRow (f : Frame) :
    f.csvRow.splitToList (· == ',') =
      [toString f.seq, toString f.components, f.error.plainText, toString f.size] := by
  have hnone : ∀ s : String, (∀ c ∈ s.toList, FieldChar c) →
      ∀ c ∈ s.toList, (c == ',') = false :=
    fun s hs c hc => by simpa using (hs c hc).1
  have hword : ∀ w : UInt32, ∀ c ∈ (toString w).toList, (c == ',') = false :=
    fun w => hnone _ (fieldChar_of_mem_toString w.toNat)
  have herr := hnone _ (fieldChar_of_mem_plainText f.error)
  rw [String.splitToList_of_valid, toList_csvRow,
    List.splitOnP_append_cons_of_forall_mem (hword _) _ rfl,
    List.splitOnP_append_cons_of_forall_mem (hword _) _ rfl,
    List.splitOnP_append_cons_of_forall_mem herr _ rfl, List.splitOnP_eq_singleton (hword _)]
  simp

open Text in
theorem ofCsvRow?_csvRow {f : Frame} (hseq : f.seq ≠ 0) (he : ReadableError f.error) :
    Frame.ofCsvRow? f.csvRow = some f := by
  have hword : ∀ w : UInt32, dropBlanks (toString w) = toString w :=
    fun w => dropBlanks_eq_self fun c hc => (fieldChar_of_mem_toString w.toNat c hc).2
  have herr : dropBlanks f.error.plainText = f.error.plainText :=
    dropBlanks_eq_self fun c hc => (fieldChar_of_mem_plainText f.error c hc).2
  unfold Frame.ofCsvRow?
  rw [splitToList_csvRow]
  simp only [List.map_cons, List.map_nil, hword, herr]
  simp [readWord?_toString, hseq, he.reads_back, he.finite, he.not_neg]

theorem ofCsvRow?_dropBlanks (line : String) :
    Frame.ofCsvRow? (Text.dropBlanks line) = Frame.ofCsvRow? line := by
  unfold Frame.ofCsvRow?
  rw [Text.splitToList_comma_dropBlanks, List.map_map,
    show Text.dropBlanks ∘ Text.dropBlanks = Text.dropBlanks from funext Text.dropBlanks_dropBlanks]

theorem ofCsvRow?_dropCr (line : String) :
    Frame.ofCsvRow? (Text.dropCr line) = Frame.ofCsvRow? line := by
  rw [← ofCsvRow?_dropBlanks, Text.dropBlanks_dropCr, ofCsvRow?_dropBlanks]

theorem filterMap_ofCsvRow?_csvRow {L : List Frame}
    (hL : ∀ f ∈ L, f.seq ≠ 0 ∧ ReadableError f.error) :
    (L.map Frame.csvRow).filterMap Frame.ofCsvRow? = L := by
  rw [List.filterMap_map]
  conv => rhs; rw [← List.filterMap_some (l := L)]
  apply List.filterMap_congr
  intro f hf
  exact ofCsvRow?_csvRow (hL f hf).1 (hL f hf).2

/-! ## Catalog texts -/

/-- A text of a header and lines, each ended by a line feed, describes the frames of its
non-blank lines after the header, each read without its blanks. -/
theorem framesOfCsv_lines {header : String} {rows : List String} (hh : '\n' ∉ header.toList)
    (hr : ∀ r ∈ rows, '\n' ∉ r.toList) :
    framesOfCsv (header ++ "\n" ++ String.join (rows.map (· ++ "\n"))) =
      ((rows.filter fun r => !Text.isBlankText r).map Text.dropBlanks).filterMap
        Frame.ofCsvRow? := by
  have htext : header ++ "\n" ++ String.join (rows.map (· ++ "\n")) =
      String.join ((header :: rows).map (· ++ "\n")) := by
    simp [String.join_cons, String.append_assoc]
  have hlines := Text.lines_join (header :: rows) (List.forall_mem_cons.mpr ⟨hh, hr⟩)
  unfold framesOfCsv
  rw [htext, hlines]
  simp [List.filter_map, List.filterMap_map, Function.comp_def, ofCsvRow?_dropCr,
    ofCsvRow?_dropBlanks]

/-- Reading a catalog text made of a header and the lines of readable frames, with blanks and
blank lines added anywhere, gives the catalog of the frames themselves. -/
theorem ofCsv_of_rows {L : List Frame} (hL : ∀ f ∈ L, f.seq ≠ 0 ∧ ReadableError f.error)
    {header : String} {rows : List String} (hh : '\n' ∉ header.toList)
    (hr : ∀ r ∈ rows, '\n' ∉ r.toList)
    (hrows : (rows.filter fun r => !Text.isBlankText r).map Text.dropBlanks = L.map Frame.csvRow)
    (level : Level) :
    Catalog.ofCsv (header ++ "\n" ++ String.join (rows.map (· ++ "\n"))) level =
      Catalog.ofFrames L level := by
  have hlines : Text.lines (header ++ "\n" ++ String.join (rows.map (· ++ "\n"))) ≠ [] := by
    have htext : header ++ "\n" ++ String.join (rows.map (· ++ "\n")) =
        String.join ((header :: rows).map (· ++ "\n")) := by
      simp [String.join_cons, String.append_assoc]
    rw [htext, Text.lines_join (header :: rows) (List.forall_mem_cons.mpr ⟨hh, hr⟩)]
    simp
  unfold Catalog.ofCsv
  rw [if_neg hlines, framesOfCsv_lines hh hr, hrows, filterMap_ofCsvRow?_csvRow hL]

/-! ## Synthetic sweeps -/

theorem foldl_fst_of_forall {β γ δ : Type} {P : β → Prop} {step : β × γ → δ → β × γ}
    {l : List δ} (hstep : ∀ x, ∀ d ∈ l, P x.1 → P (step x d).1) {x : β × γ} (hx : P x.1) :
    P (l.foldl step x).1 := by
  induction l generalizing x with
  | nil => exact hx
  | cons d l ih =>
    exact ih (fun y e he => hstep y e (List.mem_cons_of_mem d he)) (hstep x d List.mem_cons_self hx)

theorem Sweep.seq_of_mem_rowsOf {s : Sweep} {spread : Float} {seq : UInt32} {g : Random.Stream}
    {f : Frame} (hf : f ∈ (s.rowsOf spread seq g).1) : f.seq = seq := by
  unfold Sweep.rowsOf at hf
  refine foldl_fst_of_forall (P := fun acc : List Frame => ∀ f ∈ acc, f.seq = seq) ?_
    (by simp) f (List.mem_reverse.mp hf)
  rintro ⟨acc, g⟩ level - hacc f hf
  rcases List.mem_cons.mp hf with rfl | hf
  · rfl
  · exact hacc f hf

theorem Sweep.seq_ne_zero_of_mem_rows {s : Sweep} {f : Frame} (hf : f ∈ s.rows) : f.seq ≠ 0 := by
  unfold Sweep.rows at hf
  refine foldl_fst_of_forall (P := fun acc : List Frame => ∀ f ∈ acc, f.seq ≠ 0) ?_
    (by simp) f (List.mem_reverse.mp hf)
  rintro ⟨acc, g⟩ i hi hacc f hf
  rcases List.mem_append.mp hf with hf | hf
  · rw [Sweep.seq_of_mem_rowsOf (List.mem_reverse.mp hf)]
    have hi : i + 1 < 4294967296 := by
      have := List.mem_range.mp hi
      have := s.frames.toNat_lt
      omega
    intro h
    have := congrArg UInt32.toNat h
    simp [Nat.mod_eq_of_lt hi] at this
  · exact hacc f hf

theorem Sweep.ofCsv_toCsv (s : Sweep) (h : ∀ f ∈ s.rows, ReadableError f.error)
    (level : Level) : Catalog.ofCsv s.toCsv level = s.catalog level := by
  have htext : s.toCsv = "frame,components,mse,size_bytes" ++ "\n" ++
      String.join ((s.rows.map Frame.csvRow).map (· ++ "\n")) := by
    have hheader : "frame,components,mse,size_bytes\n" =
        "frame,components,mse,size_bytes" ++ "\n" := by simp
    unfold Sweep.toCsv
    rw [hheader, List.map_map]
    rfl
  rw [htext, Sweep.catalog]
  apply ofCsv_of_rows
  · exact fun f hf => ⟨Sweep.seq_ne_zero_of_mem_rows hf, h f hf⟩
  · simp
  · intro r hr hnl
    obtain ⟨f, -, rfl⟩ := List.mem_map.mp hr
    exact absurd (isBlank_of_mem_csvRow f '\n' hnl) (by decide)
  · rw [List.filter_eq_self.mpr (by simp [isBlankText_csvRow]), List.map_map]
    apply List.map_congr_left
    intro f _
    exact Text.dropBlanks_eq_self (isBlank_of_mem_csvRow f)

/-! ## The round trip -/

/-- A catalog text of a header and the lines of frames with nonzero numbers and readable errors
reads back, at every level, as the catalog of those frames, whatever blanks, carriage returns
and blank lines are added to it; in particular a sweep's text reads back as its catalog. -/
theorem catalog_text_round_trip :
    (∀ L : List Frame, (∀ f ∈ L, f.seq ≠ 0 ∧ ReadableError f.error) →
      ∀ (header : String) (rows : List String), '\n' ∉ header.toList →
        (∀ r ∈ rows, '\n' ∉ r.toList) →
        (rows.filter fun r => !Text.isBlankText r).map Text.dropBlanks = L.map Frame.csvRow →
        ∀ level, Catalog.ofCsv (header ++ "\n" ++ String.join (rows.map (· ++ "\n"))) level =
          Catalog.ofFrames L level) ∧
    (∀ s : Sweep, (∀ f ∈ s.rows, ReadableError f.error) →
      ∀ level, Catalog.ofCsv s.toCsv level = s.catalog level) :=
  ⟨fun _ hL _ _ hh hr hrows level => ofCsv_of_rows hL hh hr hrows level,
    fun s h level => Sweep.ofCsv_toCsv s h level⟩

/-- A frame's line spaced out and ended by a carriage return, after the sweep's header and
before a blank line, reads back as the frame. -/
theorem spacedRow_reads_back :
    Catalog.ofCsv ("frame,components,mse,size_bytes" ++ "\n" ++
        String.join (["1, 4,0.5 ,3000\r", " \t"].map (· ++ "\n"))) .all =
      Catalog.ofFrames [⟨1, 4, 0.5, 3000⟩] .all := by
  have hread : Decimal.readFloat? (Float.plainText 0.5) = some 0.5 := by
    have htext : Float.plainText 0.5 = "0.5" := by decide +kernel
    rw [htext]
    exact (by decide : Decimal.readFloat? "0.5" = some (Float.ofBits 0x3FE0000000000000))
  have hframe : ∀ f ∈ [(⟨1, 4, 0.5, 3000⟩ : Frame)], f.seq ≠ 0 ∧ ReadableError f.error := by
    simp only [List.mem_singleton, forall_eq]
    exact ⟨by decide, by decide, by decide, hread⟩
  exact catalog_text_round_trip.1 _ hframe _ _ (by simp) (by simp) (by decide +kernel) .all

end XrDelivery
