import XrDelivery.Receiver
/-!
# Frame logs and the global table

A stream's frame log has one comma-separated line per frame record under a fixed header.
A completed frame shows its metadata, its sending and completion instants with nine decimals,
its delay and effective error with six, whether it was on time (`1`/`0`) and the deadline in
shortest digits. A frame with a negative delay (a lost one) shows only its number, zeros, the
delay `-1`, its effective error and the deadline, both in shortest digits.

The global table has one line with the user counts, the mean error and reliability (six
decimals) and the frame totals. Frame log files are named after their user, with every
character other than ASCII letters, digits, `_` and `-` replaced by `_`.
-/
namespace XrDelivery

/-- The header of a frame log. -/
def frameLogHeader : String :=
  "frameNumber,components,mse,sizeBytes,genTime,recvTime,delay_ms,receivedOnTime,effectiveError,deadline_ms"

/-- The header of the global table. -/
def globalHeader : String :=
  "num_users,satisfied_users,global_avg_mean_error,global_delay_reliability,total_frames,total_ontime_frames"

/-- The compact line of a lost frame: its number, zeros, the delay `-1`, its effective error and
the deadline. -/
def FrameRecord.lostRow (r : FrameRecord) : String :=
  s!"{r.frameNumber},0,0,0,0,0,-1,0,{r.effectiveError.plainText},{r.deadlineMs.plainText}"

/-- The full line of a completed frame. -/
def FrameRecord.fullRow (r : FrameRecord) : String :=
  let onTime := if r.onTime then "1" else "0"
  s!"{r.frameNumber},{r.components},{r.error.plainText},{r.size}," ++
    s!"{Float.fixedText 9 r.sentAt},{Float.fixedText 9 r.receivedAt},{Float.fixedText 6 r.delayMs}," ++
    s!"{onTime},{Float.fixedText 6 r.effectiveError},{r.deadlineMs.plainText}"

/-- One line of a frame log: the compact form when the delay is below zero. -/
def FrameRecord.row (r : FrameRecord) : String :=
  if r.delayMs < 0.0 then r.lostRow else r.fullRow

/-- The frame log of a list of records: the header, then one line per record. -/
def frameLog (rs : List FrameRecord) : String :=
  frameLogHeader ++ "\n" ++ String.join (rs.map fun r => r.row ++ "\n")

/-- The global table of a published summary. -/
def GlobalQuality.table (g : GlobalQuality) : String :=
  globalHeader ++ "\n" ++
    s!"{g.streamCount},{g.satisfiedStreamCount},{Float.fixedText 6 g.globalMeanError}," ++
    s!"{Float.fixedText 6 g.globalDelayReliability},{g.totalExpectedFrames},{g.totalOnTimeFrames}\n"

/-- The character as it may stand in a file name. -/
def fileNameChar (c : Char) : Char :=
  if (c.isAlphanum && c.toNat < 128) || c == '_' || c == '-' then c else '_'

/-- The file name of a user's frame log. -/
def frameLogName (user : String) : String :=
  "user_" ++ String.ofList (user.toList.map fileNameChar) ++ "_frames.csv"

end XrDelivery
