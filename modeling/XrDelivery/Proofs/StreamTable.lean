import Mathlib
import XrDelivery.Proofs.FrameLogRows
import XrDelivery.Report.Streams

/-!
# Lines of the stream table

The stream table is its header and one line per stream, each ended by a line feed, and a
stream's line is its twelve fields joined by commas (`StreamReport.fields`). No field holds a
comma: the name and the sender's error lose theirs to `csvField`, and numbers are written in
digits. So every line splits at its commas into its twelve fields (`StreamReport.splitToList_row`).

Line feeds are another matter. The only text that can hold one is a user's name: names are
trimmed at their ends only, and `csvField` keeps line feeds. A sender's error is the sentence of
a setup error, in which numbers are digits and an address is quoted with its line feeds escaped
(`SetupError.newline_not_mem_message`). In every run the table therefore holds one line feed
more for each line feed inside a user's name (`stream_table_lines`): it keeps one line per stream
exactly when no name holds one, and a name with a line feed inside breaks its stream's
line in two (`lineFeedName_breaks_stream_line`).
-/

namespace XrDelivery

section Messages

namespace Text

theorem exists_digitChar_of_mem_toDigitsCore {b fuel n : Nat} {ds : List Char} {c : Char}
    (h : c ∈ Nat.toDigitsCore b fuel n ds) : c ∈ ds ∨ ∃ d : Nat, c = d.digitChar := by
  induction fuel generalizing n ds with
  | zero => exact .inl h
  | succ fuel ih =>
    simp only [Nat.toDigitsCore] at h
    split at h
    · rcases List.mem_cons.mp h with rfl | h
      · exact .inr ⟨_, rfl⟩
      · exact .inl h
    · rcases ih h with h | h
      · rcases List.mem_cons.mp h with rfl | h
        · exact .inr ⟨_, rfl⟩
        · exact .inl h
      · exact .inr h

theorem toLower_ne_newline {c : Char} (h : c ≠ '\n') : c.toLower ≠ '\n' := by
  unfold Char.toLower
  split
  · rename_i hup
    intro heq
    have hval := congrArg Char.toNat heq
    simp only [Char.reduceVal, ge_iff_le] at hup
    have hshift : 'a'.val - 'A'.val = 32 := by decide
    change (c.val + ('a'.val - 'A'.val)).toNat = 10 at hval
    rw [hshift, UInt32.toNat_add] at hval
    have h1 := UInt32.le_iff_toNat_le.mp hup.1
    have h2 := UInt32.le_iff_toNat_le.mp hup.2
    simp only [UInt32.reduceToNat] at h1 h2 hval
    omega
  · exact h

/-- Digits, in any base, never break a line. -/
@[simp] theorem newline_not_mem_toDigits (b n : Nat) : '\n' ∉ Nat.toDigits b n := by
  intro h
  change '\n' ∈ Nat.toDigitsCore b (n + 1) n [] at h
  rcases exists_digitChar_of_mem_toDigitsCore h with h | ⟨d, hd⟩
  · simp at h
  · exact Nat.digitChar_ne '\n' (by decide) hd.symm

theorem newline_not_mem_hexDigits (n : Nat) : '\n' ∉ (hexDigits n).toList := by
  simp only [hexDigits, String.toList_ofList, List.mem_map, not_exists, not_and]
  intro c hc
  exact toLower_ne_newline fun h => newline_not_mem_toDigits 16 n (h ▸ hc)

theorem newline_not_mem_escapeChar (c : Char) : '\n' ∉ (escapeChar c).toList := by
  unfold escapeChar
  split
  any_goals decide
  rename_i hnl _ _
  split
  · simp [newline_not_mem_hexDigits]
  · simpa [Char.toString] using fun h => hnl h.symm

theorem newline_not_mem_quote (s : String) : '\n' ∉ (quote s).toList := by
  simp [quote, String.toList_join, newline_not_mem_escapeChar]

end Text

open Text in
theorem SetupError.newline_not_mem_message (e : SetupError) : '\n' ∉ e.message.toList := by
  cases e <;> unfold SetupError.message <;> dsimp only
  all_goals simp [toString_string, newline_not_mem_quote]

end Messages

section Row

theorem comma_not_mem_csvField (s : String) : ',' ∉ (csvField s).toList := by
  simp only [csvField, String.toList_map, List.mem_map, not_exists, not_and]
  intro c _
  split <;> simp_all

/-- A field keeps the line feeds of its text. -/
@[simp] theorem count_newline_csvField (s : String) :
    (csvField s).toList.count '\n' = s.toList.count '\n' := by
  simp only [csvField, String.toList_map, List.count_eq_countP, List.countP_map]
  apply List.countP_congr
  intro c _
  by_cases h : c = ',' <;> simp [h]

/-- The twelve fields of a stream's line, in the order of the header: the name, the compression
level, the five frame counts, the mean error, the average delay and the delay reliability with six
decimals, whether the user was satisfied, and the sender's error. -/
def StreamReport.fields (s : StreamReport) : List String :=
  [csvField s.name, toString s.level, toString s.quality.totalFrames,
    toString s.quality.receivedFrames, toString s.quality.onTimeFrames,
    toString s.quality.lateFrames, toString s.quality.lostFrames,
    Float.fixedText 6 s.quality.meanError, Float.fixedText 6 s.quality.avgDelayMs,
    Float.fixedText 6 s.quality.delayReliability, if s.quality.userSatisfied then "1" else "0",
    csvField (s.senderError.getD "")]

theorem StreamReport.row_eq (s : StreamReport) : s.row = ",".intercalate s.fields := by
  simp only [← String.toList_inj, String.toList_intercalate]
  simp [StreamReport.row, StreamReport.fields, List.intercalate, toString_string]

open Text in
theorem StreamReport.comma_not_mem_fields (s : StreamReport) :
    ∀ f ∈ s.fields, ',' ∉ f.toList := by
  have hword : ∀ w : UInt32, ',' ∉ (toString w).toList :=
    fun w h => (fieldChar_of_mem_toString w.toNat _ h).1 rfl
  have hfixed : ∀ x : Float, ',' ∉ (x.fixedText 6).toList :=
    fun x h => (fieldChar_of_mem_fixedText 6 x _ h).1 rfl
  have hflag : ',' ∉ (if s.quality.userSatisfied then "1" else "0").toList := by
    split <;> decide
  simp only [fields, List.forall_mem_cons, List.not_mem_nil, IsEmpty.forall_iff, forall_const,
    and_true]
  exact ⟨comma_not_mem_csvField _, hword _, hword _, hword _, hword _, hword _, hword _,
    hfixed _, hfixed _, hfixed _, hflag, comma_not_mem_csvField _⟩

theorem StreamReport.splitToList_row (s : StreamReport) :
    s.row.splitToList (· == ',') = s.fields := by
  have hsep : ∀ l ∈ s.fields.map String.toList, ',' ∉ l := by
    simp only [List.mem_map, forall_exists_index, and_imp, forall_apply_eq_imp_iff₂]
    exact s.comma_not_mem_fields
  have hcomma : ",".toList = [','] := by decide
  rw [String.splitToList_of_valid, row_eq, String.toList_intercalate, hcomma,
    ← List.splitOn_eq_splitOnP, List.splitOn_intercalate ',' hsep (by simp [fields])]
  simp [Function.comp_def]

theorem StreamReport.count_newline_row (s : StreamReport) :
    s.row.toList.count '\n' =
      s.name.toList.count '\n' + (s.senderError.getD "").toList.count '\n' := by
  have hflag : '\n' ∉ (if s.quality.userSatisfied then "1" else "0").toList := by
    split <;> decide
  simp [hflag, StreamReport.row, List.count_append, List.count_eq_zero_of_not_mem, toString_string]

end Row

section Table

theorem streamsTable_eq_join (ss : List StreamReport) :
    streamsTable ss =
      String.join ((streamsHeader :: ss.map StreamReport.row).map (· ++ "\n")) := by
  simp [streamsTable, String.join_cons, List.map_map, Function.comp_def, String.append_assoc]

theorem newline_not_mem_streamsHeader : '\n' ∉ streamsHeader.toList := by
  unfold streamsHeader
  rw [String.toList_append, List.mem_append, not_or]
  constructor <;> decide +kernel

theorem count_newline_append_newline (l : String) :
    (l ++ "\n").toList.count '\n' = l.toList.count '\n' + 1 := by
  rw [String.toList_append, List.count_append, show ("\n" : String).toList = ['\n'] by decide]
  simp

theorem count_newline_join (ls : List String) :
    (String.join (ls.map (· ++ "\n"))).toList.count '\n' =
      ls.length + (ls.map fun l => l.toList.count '\n').sum := by
  induction ls with
  | nil => simp
  | cons l ls ih =>
    rw [List.map_cons, String.join_cons, String.toList_append, List.count_append, ih,
      count_newline_append_newline]
    simp only [List.length_cons, List.map_cons, List.sum_cons]
    omega

/-- The stream table breaks a line after the header and after each stream's line, and wherever
a stream's name or its sender's error does. -/
theorem count_newline_streamsTable (ss : List StreamReport) :
    (streamsTable ss).toList.count '\n' = 1 + ss.length +
      (ss.map fun s =>
        s.name.toList.count '\n' + (s.senderError.getD "").toList.count '\n').sum := by
  rw [streamsTable_eq_join, count_newline_join, List.map_cons, List.sum_cons,
    List.count_eq_zero_of_not_mem newline_not_mem_streamsHeader, List.map_map]
  simp only [List.length_cons, List.length_map, Function.comp_def, StreamReport.count_newline_row]
  omega

/-- When no stream's name nor its sender's error breaks a line, the stream table is the header
and one line per stream, each ended by a line feed. -/
theorem splitToList_streamsTable {ss : List StreamReport}
    (h : ∀ s ∈ ss, '\n' ∉ s.name.toList ∧ '\n' ∉ (s.senderError.getD "").toList) :
    (streamsTable ss).splitToList (· == '\n') =
      streamsHeader :: ss.map StreamReport.row ++ [""] := by
  rw [streamsTable_eq_join, Text.splitToList_join_newline]
  intro l hl
  rcases List.mem_cons.mp hl with rfl | hrow
  · exact newline_not_mem_streamsHeader
  · obtain ⟨s, hs, rfl⟩ := List.mem_map.mp hrow
    rw [← List.count_eq_zero, StreamReport.count_newline_row,
      List.count_eq_zero.mpr (h s hs).1, List.count_eq_zero.mpr (h s hs).2]

end Table

section Run

namespace FragmentFlight

variable {f f' : FragmentFlight}

theorem senderError_transmit {now : Float} {frags : List Fragment}
    (h : f.transmit now frags = .ok f') : f'.senderError = f.senderError := by
  rw [transmit_eq] at h
  obtain ⟨w, -, rfl⟩ := exists_of_map_eq_ok h
  rfl

theorem senderError_play {fuel : Nat} {next : Option Float} (h : FragmentFlight.play fuel next f = .ok f') :
    f'.senderError = f.senderError ∨ ∃ e : SetupError, f'.senderError = some e.message := by
  induction fuel generalizing next f with
  | zero =>
    cases h
    exact .inl rfl
  | succ fuel ih =>
    cases next with
    | none =>
      cases h
      exact .inl rfl
    | some now =>
      unfold FragmentFlight.play at h
      dsimp only at h
      split at h
      next b tx _ =>
        obtain ⟨g, hg, h⟩ := exists_of_bind_eq_ok h
        refine (ih h).imp (fun heq => ?_) id
        rw [heq, senderError_transmit hg]
        simp
      · cases h
        exact .inl (by simp)
      · cases h
        exact .inr ⟨_, rfl⟩

end FragmentFlight

namespace StreamSetup

variable {s : StreamSetup} {dir : Directory}

theorem report_texts {r : StreamReport} (h : s.report dir = .ok r) :
    r.name = s.user.name ∧
      (r.senderError = none ∨ ∃ e : SetupError, r.senderError = some e.message) := by
  unfold report at h
  obtain ⟨⟨r', agg⟩, hrun, rfl⟩ := exists_of_map_eq_ok h
  rw [run_eq] at hrun
  obtain ⟨f, hf, hfin⟩ := exists_of_map_eq_ok hrun
  cases hfin
  refine ⟨rfl, ?_⟩
  have hf' := ok_of_mapError_eq_ok hf
  unfold fragmentRun at hf'
  cases hstart : s.sender.start 0.0 dir with
  | error e =>
    simp only [hstart] at hf'
    obtain ⟨g, hg, rfl⟩ := exists_of_map_eq_ok hf'
    change (g.deliver _).senderError = none ∨ _
    rw [FragmentFlight.senderError_deliver]
    exact .inr ((FragmentFlight.senderError_play hg).elim (fun h => ⟨e, h⟩) id)
  | ok p =>
    simp only [hstart] at hf'
    obtain ⟨g, hg, rfl⟩ := exists_of_map_eq_ok hf'
    change (g.deliver _).senderError = none ∨ _
    rw [FragmentFlight.senderError_deliver]
    exact FragmentFlight.senderError_play hg

/-- Streams that all report do so under their users' names, and no sender's error breaks a
line. -/
theorem reports_texts {ss : List StreamSetup} {rs : List StreamReport}
    (h : ss.mapM (·.report dir) = .ok rs) :
    rs.map StreamReport.name = ss.map (·.user.name) ∧
      ∀ r ∈ rs, '\n' ∉ (r.senderError.getD "").toList := by
  induction ss generalizing rs with
  | nil =>
    cases h
    simp
  | cons st ss ih =>
    rw [List.mapM_cons] at h
    obtain ⟨r, hr, h⟩ := exists_of_bind_eq_ok h
    obtain ⟨rs', hrs', h⟩ := exists_of_bind_eq_ok h
    cases h
    obtain ⟨hname, herr⟩ := report_texts hr
    obtain ⟨ih1, ih2⟩ := ih hrs'
    refine ⟨by simp [hname, ih1], List.forall_mem_cons.mpr ⟨?_, ih2⟩⟩
    rcases herr with herr | ⟨e, herr⟩
    · simp [herr]
    · simpa [herr] using e.newline_not_mem_message

end StreamSetup

namespace RunConfig

variable {c : RunConfig} {read : FileReader}

theorem setupStream_user {agg agg' : Aggregator} {i : Nat} {u : UserConfig} {st : StreamSetup}
    (h : c.setupStream read agg i u = .ok (st, agg')) : st.user = u := by
  unfold setupStream at h
  obtain ⟨cat, -, h⟩ := exists_of_bind_eq_ok h
  obtain ⟨span, -, h⟩ := exists_of_bind_eq_ok h
  obtain ⟨tl, -, h⟩ := exists_of_bind_eq_ok h
  obtain ⟨tx, -, h⟩ := exists_of_bind_eq_ok h
  obtain ⟨⟨rx, agg₁⟩, -, h⟩ := exists_of_bind_eq_ok h
  cases h
  rfl

/-- Setting up users in turn gives their streams in the users' order. -/
theorem foldlM_setupStream_users
    {step : List StreamSetup × Aggregator → UserConfig × Nat →
      Except RunError (List StreamSetup × Aggregator)}
    (hstep : ∀ acc agg u i,
      step (acc, agg) (u, i) = (fun p => (p.1 :: acc, p.2)) <$> c.setupStream read agg i u)
    (l : List (UserConfig × Nat)) (acc : List StreamSetup) (agg : Aggregator)
    {acc' : List StreamSetup} {agg' : Aggregator}
    (h : l.foldlM step (acc, agg) = .ok (acc', agg')) :
    ∃ new : List StreamSetup, acc' = new.reverse ++ acc ∧
      new.map StreamSetup.user = l.map Prod.fst := by
  induction l generalizing acc agg with
  | nil =>
    cases h
    exact ⟨[], rfl, rfl⟩
  | cons ui l ih =>
    obtain ⟨u, i⟩ := ui
    rw [List.foldlM_cons] at h
    obtain ⟨p, hp, h⟩ := exists_of_bind_eq_ok h
    rw [hstep] at hp
    obtain ⟨⟨st, agg₁⟩, hst, rfl⟩ := exists_of_map_eq_ok hp
    obtain ⟨new, rfl, husers⟩ := ih (st :: acc) _ h
    exact ⟨st :: new, by simp, by simp [setupStream_user hst, husers]⟩

theorem setupStreams_users {setups : List StreamSetup} {agg : Aggregator}
    (h : c.setupStreams read = .ok (setups, agg)) : setups.map StreamSetup.user = c.users := by
  unfold setupStreams at h
  obtain ⟨⟨acc, agg₀⟩, hf, h⟩ := exists_of_bind_eq_ok h
  cases h
  obtain ⟨new, rfl, husers⟩ := foldlM_setupStream_users (fun _ _ _ _ => rfl) _ _ _ hf
  simp [husers, List.zipIdx_map_fst]

theorem run_stream_texts {rep : RunReport} (h : c.run read = .ok rep) :
    rep.streams.map StreamReport.name = c.users.map UserConfig.name ∧
      ∀ r ∈ rep.streams, '\n' ∉ (r.senderError.getD "").toList := by
  rw [run_eq] at h
  obtain ⟨⟨setups, agg⟩, hsetup, h⟩ := exists_of_bind_eq_ok h
  obtain ⟨rs, hrs, h⟩ := exists_of_bind_eq_ok h
  cases h
  obtain ⟨hnames, herr⟩ := StreamSetup.reports_texts hrs
  refine ⟨?_, herr⟩
  rw [hnames, ← setupStreams_users hsetup, List.map_map]
  rfl

theorem count_newline_streamsTable_run {rep : RunReport} (h : c.run read = .ok rep) :
    (streamsTable rep.streams).toList.count '\n' =
      1 + rep.streams.length + (c.users.map fun u => u.name.toList.count '\n').sum := by
  obtain ⟨hnames, herr⟩ := run_stream_texts h
  have herr0 : ∀ r ∈ rep.streams, (r.senderError.getD "").toList.count '\n' = 0 :=
    fun r hr => List.count_eq_zero.mpr (herr r hr)
  have hcount : (rep.streams.map fun r => r.name.toList.count '\n') =
      c.users.map fun u => u.name.toList.count '\n' := by
    simpa [List.map_map, Function.comp_def] using
      congrArg (List.map fun n : String => n.toList.count '\n') hnames
  rw [count_newline_streamsTable, List.map_congr_left fun r hr => by rw [herr0 r hr, Nat.add_zero],
    hcount]

end RunConfig

theorem ConfigInput.exists_run_of_isSome {ci : ConfigInput} {read : FileReader}
    (h : (ci.resolve.toOption.bind fun c => (c.run read).toOption).isSome = true) :
    ∃ c rep, ci.resolve = .ok c ∧ c.run read = .ok rep := by
  cases hc : ci.resolve with
  | error e =>
    rw [hc] at h
    cases h
  | ok c =>
    cases hrun : c.run read with
    | error e =>
      rw [hc] at h
      simp [Except.toOption, hrun] at h
    | ok rep => exact ⟨c, rep, rfl, hrun⟩

/-- The stream table keeps one line per stream exactly when no user's name breaks a line. In
every run that completes, the table holds a line feed after the header, one after each stream's
line, and one for each line feed in a user's name, since names are only trimmed at their ends
and a field only loses its commas; the sender's error never holds one. When no name does, the
table splits into the header and the streams' lines in user order, each ended by a line feed.
Whatever the names, each stream's line splits at its commas into its twelve fields. -/
theorem stream_table_lines {c : RunConfig} {read : FileReader} {rep : RunReport}
    (h : c.run read = .ok rep) :
    (streamsTable rep.streams).toList.count '\n' =
        1 + rep.streams.length + (c.users.map fun u => u.name.toList.count '\n').sum ∧
      ((∀ u ∈ c.users, '\n' ∉ u.name.toList) →
        (streamsTable rep.streams).splitToList (· == '\n') =
          streamsHeader :: rep.streams.map StreamReport.row ++ [""]) ∧
      ∀ r ∈ rep.streams, r.row.splitToList (· == ',') = r.fields := by
  obtain ⟨hnames, herr⟩ := RunConfig.run_stream_texts h
  refine ⟨RunConfig.count_newline_streamsTable_run h,
    fun hu => splitToList_streamsTable fun r hr => ⟨?_, herr r hr⟩,
    fun r _ => r.splitToList_row⟩
  obtain ⟨u, hu', heq⟩ := List.mem_map.mp (hnames ▸ List.mem_map_of_mem hr)
  exact heq ▸ hu u hu'

theorem unreachableUser_stream_table :
    ∃ c rep, unreachableUserInput.resolve = .ok c ∧ c.run noFiles = .ok rep ∧
      (streamsTable rep.streams).toList.count '\n' =
          1 + rep.streams.length + (c.users.map fun u => u.name.toList.count '\n').sum ∧
      ((∀ u ∈ c.users, '\n' ∉ u.name.toList) →
        (streamsTable rep.streams).splitToList (· == '\n') =
          streamsHeader :: rep.streams.map StreamReport.row ++ [""]) ∧
      ∀ r ∈ rep.streams, r.row.splitToList (· == ',') = r.fields := by
  obtain ⟨c, rep, hc, hrun⟩ :=
    @ConfigInput.exists_run_of_isSome unreachableUserInput noFiles (by decide +kernel)
  exact ⟨c, rep, hc, hrun, stream_table_lines hrun⟩

/-- The user of `unreachableUserInput`, renamed with a line feed inside its name. -/
def lineFeedNameInput : ConfigInput :=
  { unreachableUserInput with
    users := [{ name := some "a\nb", level := some 10, destination := some "nowhere" }] }

/-- A name with a line feed inside breaks its stream's line in two: the table of the one stream
holds three line feeds. -/
theorem lineFeedName_breaks_stream_line :
    ∃ c rep, lineFeedNameInput.resolve = .ok c ∧ c.run noFiles = .ok rep ∧
      rep.streams.length = 1 ∧ (streamsTable rep.streams).toList.count '\n' = 3 := by
  obtain ⟨c, rep, hc, hrun⟩ :=
    @ConfigInput.exists_run_of_isSome lineFeedNameInput noFiles (by decide +kernel)
  have hnames : lineFeedNameInput.resolve.toOption.map (fun c => c.users.map UserConfig.name) =
      some ["a\nb"] := by
    decide +kernel
  rw [hc] at hnames
  have husers : c.users.map UserConfig.name = ["a\nb"] := by
    simpa [Except.toOption] using hnames
  have hlen : rep.streams.length = 1 := by
    simpa using congrArg List.length ((RunConfig.run_stream_texts hrun).1.trans husers)
  have hcounts : (c.users.map fun u => u.name.toList.count '\n') = [1] := by
    have := congrArg (List.map fun n : String => n.toList.count '\n') husers
    simp only [List.map_map, Function.comp_def] at this
    rw [this]
    decide
  refine ⟨c, rep, hc, hrun, hlen, ?_⟩
  rw [RunConfig.count_newline_streamsTable_run hrun, hlen, hcounts]
  rfl

end Run

end XrDelivery
