import XrDelivery.Json.Value
import XrDelivery.Simulation
/-!
# The JSON forms of the library's values

The values a run reports, each as a JSON object whose fields are named in snake case after
the value's parts: frames and fragments, catalog summaries, classifications, loss reports,
frame states, stream and global quality, the counters of senders, receivers and channels, frame
records, and the reports of streams and runs; and the resolved configuration with its sender,
receiver, link, catalog and users. Optional parts are `null` when absent.
-/
namespace XrDelivery

open Json

/-- A frame. -/
def Frame.toJson (f : Frame) : Value :=
  .obj [("sequence_number", nat f.seq.toNat), ("component_count", nat f.components.toNat),
    ("reconstruction_error", .float f.error), ("size_bytes", nat f.size.toNat)]

/-- A fragment. -/
def Fragment.toJson (f : Fragment) : Value :=
  .obj [("frame_sequence_number", nat f.frameSeq.toNat), ("fragment_index", nat f.index.toNat),
    ("fragment_count", nat f.count.toNat), ("payload_size", nat f.payload.toNat),
    ("generation_timestamp", .float f.sentAt), ("component_count", nat f.components.toNat),
    ("reconstruction_error", .float f.error), ("frame_size_bytes", nat f.frameSize.toNat)]

/-- A catalog summary. -/
def Summary.toJson (s : Summary) : Value :=
  .obj [("frames", nat s.frames), ("min_size_bytes", nat s.minSize.toNat),
    ("max_size_bytes", nat s.maxSize.toNat), ("mean_error", .float s.meanError)]

/-- A classification against the deadline. -/
def Classification.toJson (c : Classification) : Value :=
  .obj [("delay_ms", .float c.delayMs), ("on_time", .bool c.onTime), ("effective_error", .float c.effectiveError)]

/-- A loss report: the frames never seen and the frames seen in part. -/
def LossReport.toJson (l : LossReport) : Value :=
  .obj [("absent", .arr (l.absent.map fun n => nat n.toNat)), ("partial", .arr (l.incomplete.map fun n => nat n.toNat))]

/-- What has arrived of a frame. -/
def FrameState.toJson (s : FrameState) : Value :=
  .obj [("reconstruction_error", .float s.error), ("component_count", nat s.components.toNat),
    ("size_bytes", nat s.size.toNat), ("generation_timestamp", .float s.sentAt),
    ("first_arrival_timestamp", .float s.firstArrival), ("fragments_received", nat s.received.toNat),
    ("fragment_count", nat s.count.toNat), ("delay_ms", opt .float s.delayMs),
    ("completed_at", opt .float s.completedAt), ("received_on_time", .bool s.onTime),
    ("effective_error", .float s.effectiveError)]

/-- The quality of a stream. -/
def StreamQuality.toJson (q : StreamQuality) : Value :=
  .obj [("total_frames", nat q.totalFrames.toNat), ("received_frames", nat q.receivedFrames.toNat),
    ("on_time_frames", nat q.onTimeFrames.toNat), ("late_frames", nat q.lateFrames.toNat),
    ("lost_frames", nat q.lostFrames.toNat), ("partial_frames", nat q.partialFrames.toNat),
    ("sum_error", .float q.sumError), ("mean_error", .float q.meanError),
    ("delivery_ratio", .float q.deliveryRatio), ("on_time_ratio", .float q.onTimeRatio),
    ("loss_ratio", .float q.lossRatio), ("avg_delay_ms", .float q.avgDelayMs),
    ("delay_reliability", .float q.delayReliability), ("user_satisfied", .bool q.userSatisfied),
    ("deadline_ms", .float q.deadlineMs), ("reliability_threshold", .float q.reliabilityThreshold)]

/-- A sender's counters. -/
def SenderStats.toJson (s : SenderStats) : Value :=
  .obj [("frames_sent", nat s.framesSent.toNat), ("fragments_sent", nat s.fragmentsSent.toNat),
    ("bytes_sent", nat s.bytesSent.toNat), ("frames_rejected", nat s.framesRejected.toNat)]

/-- A receiver's counters. -/
def ReceiverStats.toJson (s : ReceiverStats) : Value :=
  .obj [("fragments_received", nat s.fragmentsReceived.toNat), ("bytes_received", nat s.bytesReceived.toNat),
    ("duplicate_fragments", nat s.duplicateFragments.toNat),
    ("inconsistent_fragment_counts", nat s.inconsistentFragmentCounts.toNat),
    ("malformed_fragments", nat s.malformedFragments.toNat), ("frames_completed", nat s.framesCompleted.toNat),
    ("first_arrival_at", opt .float s.firstArrivalAt)]

/-- A channel's counters. -/
def ChannelStats.toJson (s : ChannelStats) : Value :=
  .obj [("datagrams_offered", nat s.offered.toNat), ("datagrams_dropped", nat s.dropped.toNat),
    ("datagrams_delivered", nat s.delivered.toNat), ("bytes_delivered", nat s.bytesDelivered.toNat),
    ("max_queueing_ms", .float s.maxQueueingMs)]

/-- A frame record. -/
def FrameRecord.toJson (r : FrameRecord) : Value :=
  .obj [("frame_number", nat r.frameNumber.toNat), ("component_count", nat r.components.toNat),
    ("reconstruction_error", .float r.error), ("size_bytes", nat r.size.toNat),
    ("generation_timestamp", .float r.sentAt), ("reception_timestamp", .float r.receivedAt),
    ("delay_ms", .float r.delayMs), ("received_on_time", .bool r.onTime),
    ("effective_error", .float r.effectiveError), ("deadline_ms", .float r.deadlineMs)]

/-- The published global quality. -/
def GlobalQuality.toJson (g : GlobalQuality) : Value :=
  .obj [("stream_count", nat g.streamCount), ("satisfied_stream_count", nat g.satisfiedStreamCount),
    ("total_expected_frames", nat g.totalExpectedFrames.toNat), ("total_on_time_frames", nat g.totalOnTimeFrames.toNat),
    ("total_sum_error", .float g.totalSumError), ("global_mean_error", .float g.globalMeanError),
    ("global_delay_reliability", .float g.globalDelayReliability)]

/-- The running totals of the aggregator. -/
def Aggregator.toJson (a : Aggregator) : Value :=
  .obj [("stream_count", nat a.streamCount), ("satisfied_stream_count", nat a.satisfiedStreamCount),
    ("total_sum_error", .float a.totalSumError), ("total_expected_frames", nat a.totalExpectedFrames.toNat),
    ("total_on_time_frames", nat a.totalOnTimeFrames.toNat), ("finished_stream_count", nat a.finishedStreamCount),
    ("summary_published", .bool a.summaryPublished)]

/-- What a stream reports, without its frame records. -/
def StreamReport.toJson (s : StreamReport) : Value :=
  .obj [("index", nat s.index), ("name", .str s.name), ("compression_level", nat s.level.toNat),
    ("catalog", s.catalog.toJson), ("summary", s.quality.toJson), ("sender", s.sender.toJson),
    ("receiver", s.receiver.toJson), ("channel", s.channel.toJson), ("sender_error", opt .str s.senderError)]

/-- What a run reports. -/
def RunReport.toJson (r : RunReport) : Value :=
  .obj [("seed", nat r.seed.toNat), ("streams", .arr (r.streams.map StreamReport.toJson)),
    ("global", opt GlobalQuality.toJson r.global)]

/-- A jitter configuration. -/
def Jitter.toJson (j : Jitter) : Value :=
  .obj [("mean_ms", .float j.mean), ("stddev_ms", .float j.stddev), ("min_ms", .float j.min),
    ("max_ms", .float j.max), ("seed", nat j.seed.toNat)]

/-- A sender configuration. -/
def SenderConfig.toJson (c : SenderConfig) : Value :=
  .obj [("fps", .float c.fps), ("start_offset_s", .float c.startOffset), ("jitter", c.jitter.toJson),
    ("max_payload_size", nat c.maxPayload), ("destination", .str c.destination)]

/-- A receiver configuration. -/
def ReceiverConfig.toJson (c : ReceiverConfig) : Value :=
  .obj [("deadline_ms", .float c.deadlineMs), ("reliability_threshold", .float c.reliabilityThreshold),
    ("expected_total_frames", nat c.expectedFrames.toNat), ("max_penalty", .float c.penalty)]

/-- A link profile, its step in nanoseconds. -/
def LinkProfile.toJson (l : LinkProfile) : Value :=
  .obj [("min_rate_kbit", nat l.minRateKbit.toNat), ("max_rate_kbit", nat l.maxRateKbit.toNat),
    ("rate_step_kbit", nat l.rateStepKbit.toNat), ("base_delay_ms", .float l.baseDelayMs),
    ("delay_range_ms", .float l.delayRangeMs), ("delay_step_ms", .float l.delayStepMs),
    ("packet_jitter_ms", .float l.packetJitterMs), ("max_loss_percent", .float l.maxLossPercent),
    ("loss_step_percent", .float l.lossStepPercent), ("step_ns", nat l.step.nanos)]

/-- A synthetic sweep. -/
def Sweep.toJson (s : Sweep) : Value :=
  .obj [("frames", nat s.frames.toNat), ("levels", .arr (s.levels.map fun l => nat l.toNat)),
    ("bytes_per_component", nat s.bytesPerComponent.toNat), ("base_mse", .float s.baseMse),
    ("spread", .float s.spread), ("seed", nat s.seed.toNat)]

/-- Where a user's frames come from: a file or a synthetic sweep. -/
def CatalogSource.toJson : CatalogSource → Value
  | .file path => .obj [("file", .str path)]
  | .synthetic s => .obj [("synthetic", s.toJson)]

/-- User `index` of a configuration, with the sender and link seed it is given and the name
of its frame log. -/
def RunConfig.userJson (c : RunConfig) (u : UserConfig) (index : Nat) : Value :=
  .obj [("name", .str u.name), ("address", .str u.address), ("destination", .str u.destination),
    ("compression_level", nat u.level.toNat), ("start_offset_s", .float u.startOffset),
    ("catalog", u.catalog.toJson), ("sender", (c.senderFor index u).toJson),
    ("link_seed", nat (c.linkSeed index).toNat), ("frame_log_name", .str (frameLogName u.name))]

/-- A resolved configuration. -/
def RunConfig.toJson (c : RunConfig) : Value :=
  .obj [("version", nat c.version.toNat), ("seed", nat c.seed.toNat), ("sender", c.sender.toJson),
    ("receiver", c.receiver.toJson), ("link", c.link.toJson),
    ("users", .arr (c.users.zipIdx.map fun (u, i) => c.userJson u i))]

end XrDelivery
