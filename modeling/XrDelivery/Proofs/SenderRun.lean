import Mathlib
import XrDelivery.Sender
import XrDelivery.Proofs.Fragmentation

/-!
# Running a sender to its end

`Sender.drive` polls a sender at each instant it asks for, until nothing more is due or a poll
fails; `Sender.transmit` starts the sender first. A poll that sends takes the frame at the
pacer's index and moves the index on by one, so the frames sent are the catalog's from the
starting index on, in catalog order and without gaps, each cut at the instant of its poll under
the sender's own payload bound. A catalog without repeated frame numbers therefore sends every
frame number at most once.
-/
namespace XrDelivery

namespace Sender

variable {s s' : Sender} {now : Float} {b : Burst}

set_option linter.unusedVariables false in
/-- Poll at each instant the sender asks for, from `next` on, until nothing more is due or a
poll fails: the frames sent, each with the instant of its poll. -/
def drive (s : Sender) (next : Option Float) : List (Float × Burst) :=
  match next with
  | none => []
  | some now =>
    match h : s.poll now with
    | .ok (some b, s') => (now, b) :: s'.drive b.nextSendAt
    | _ => []
termination_by s.catalog.size - s.pacer.frameIndex
decreasing_by
  obtain ⟨hget, -, hcat, -, hidx⟩ := poll_eq_burst h
  have hlt : s.pacer.frameIndex < s.catalog.size :=
    (List.getElem?_eq_some_iff.mp hget).1
  rw [hcat, hidx]
  omega

/-- Start at `now` toward the destination `dir` gives, then drive the sender from the first
instant it asks for; a destination that cannot be resolved sends nothing. -/
def transmit (s : Sender) (now : Float) (dir : Directory) : List (Float × Burst) :=
  match s.start now dir with
  | .ok (first, s) => s.drive first
  | .error _ => []

theorem drive_frames_isPrefix_drop (s : Sender) (next : Option Float) :
    (s.drive next).map (fun e => e.2.frame) <+: s.catalog.frames.drop s.pacer.frameIndex := by
  fun_induction s.drive next with
  | case1 s => simp
  | case2 s now b s' h ih =>
    obtain ⟨hget, -, hcat, -, hidx⟩ := poll_eq_burst h
    have hlt : s.pacer.frameIndex < s.catalog.frames.length :=
      (List.getElem?_eq_some_iff.mp hget).1
    have hframe : s.catalog.frames[s.pacer.frameIndex] = b.frame :=
      (List.getElem?_eq_some_iff.mp hget).2
    rw [hcat, hidx] at ih
    rw [List.drop_eq_getElem_cons hlt, hframe, List.map_cons]
    exact List.cons_prefix_cons.mpr ⟨rfl, ih⟩
  | case3 => simp

theorem fragments_of_mem_drive (s : Sender) (next : Option Float) :
    ∀ e ∈ s.drive next, e.2.frame.fragments s.config.maxPayload e.1 = .ok e.2.fragments := by
  fun_induction s.drive next with
  | case1 s => simp
  | case2 s now b s' h ih =>
    obtain ⟨-, hfrs, -, hcfg, -⟩ := poll_eq_burst h
    rw [hcfg] at ih
    intro e he
    rcases List.mem_cons.mp he with rfl | he
    · exact hfrs
    · exact ih e he
  | case3 => simp

theorem transmit_frames_isPrefix_drop (s : Sender) (now : Float) (dir : Directory) :
    (s.transmit now dir).map (fun e => e.2.frame) <+: s.catalog.frames.drop s.pacer.frameIndex := by
  unfold transmit
  split
  · rename_i first s' hstart
    obtain ⟨hcat, -, hidx⟩ := start_eq_ok hstart
    rw [← hcat, ← hidx]
    exact drive_frames_isPrefix_drop s' first
  · simp

theorem fragments_of_mem_transmit (s : Sender) (now : Float) (dir : Directory) :
    ∀ e ∈ s.transmit now dir, e.2.frame.fragments s.config.maxPayload e.1 = .ok e.2.fragments := by
  unfold transmit
  split
  · rename_i first s' hstart
    obtain ⟨-, hcfg, -⟩ := start_eq_ok hstart
    rw [← hcfg]
    exact fragments_of_mem_drive s' first
  · simp

theorem nodup_seq_transmit (s : Sender) (now : Float) (dir : Directory)
    (hseq : (s.catalog.frames.map Frame.seq).Nodup) :
    ((s.transmit now dir).map fun e => e.2.frame.seq).Nodup := by
  have hsub : List.Sublist ((s.transmit now dir).map fun e => e.2.frame) s.catalog.frames :=
    (transmit_frames_isPrefix_drop s now dir).sublist.trans (List.drop_sublist _ _)
  have := (hsub.map Frame.seq).nodup hseq
  rw [List.map_map] at this
  exact this

end Sender

end XrDelivery
