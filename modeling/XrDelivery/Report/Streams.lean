import XrDelivery.Simulation
/-!
# The stream table

The stream table has one comma-separated line per stream under a fixed header: the user, the
compression level, the frame counts, the mean error, average delay and delay reliability with
six decimals, whether the user was satisfied (`1`/`0`) and why the sender stopped, if it
failed. Free text cannot hold a comma: each one becomes `;`.
-/
namespace XrDelivery

/-- The header of the stream table. -/
def streamsHeader : String :=
  "user,compression_level,total_frames,received_frames,on_time_frames,late_frames,lost_frames," ++
    "mean_error,avg_delay_ms,delay_reliability,user_satisfied,sender_error"

/-- Free text as one field: every comma becomes a semicolon. -/
def csvField (s : String) : String := s.map fun c => if c = ',' then ';' else c

/-- One line of the stream table. -/
def StreamReport.row (s : StreamReport) : String :=
  let q := s.quality
  let satisfied := if q.userSatisfied then "1" else "0"
  csvField s.name ++ s!",{s.level},{q.totalFrames},{q.receivedFrames},{q.onTimeFrames}," ++
    s!"{q.lateFrames},{q.lostFrames},{Float.fixedText 6 q.meanError},{Float.fixedText 6 q.avgDelayMs}," ++
    s!"{Float.fixedText 6 q.delayReliability},{satisfied}," ++ csvField (s.senderError.getD "")

/-- The stream table of a run: the header, then one line per stream. -/
def streamsTable (ss : List StreamReport) : String :=
  streamsHeader ++ "\n" ++ String.join (ss.map fun s => s.row ++ "\n")

end XrDelivery
