import Std.Data.TreeMap.Basic
import XrDelivery.Config.Input
import XrDelivery.Sender
import XrDelivery.Receiver
import XrDelivery.Catalog.Synthetic
import XrDelivery.Link.Profile
import XrDelivery.Report.FrameLog
/-!
# The resolved configuration

Resolving a written configuration fills in every default and checks every value, in this
order: the version (0 means the current one, 1; any other is unsupported), the sender settings,
the receiver settings, the link settings, then the users one by one.

* The seed defaults to 1. The sender's jitter is seeded by it; the synthetic catalog by the seed
  with its own seed `7` mixed in by exclusive or.
* The link is ideal (only a fixed delay) when `ideal` is set; otherwise its rate bounds must not
  be inverted when the rate is limited, its loss bound must lie in `[0, 100]`, and its delays
  must not be negative.
* There are `user_count` users, or as many as are written (at least one): written users beyond
  the count are dropped, missing ones take every default. A count whose table of 96-byte
  entries would exceed `2^63 - 1` bytes is refused. User `i` is reachable at `ue{i}` and
  is named by its trimmed name, or by its address when the name is blank. Two users whose frame
  logs would share a file name collide. A user without a compression level draws one from the
  levels of the synthetic sweep (the standard levels for a catalog file or an empty list), with
  a stream seeded by the run's seed. Its start time, by default the sender's, must be finite and
  not negative.

Each user's sender is the shared one, aimed at the user's destination, started at the user's
start time and with its jitter seeded for the user; each user's link has a seed of its own.
Both seeds are `seed · 0x9E3779B97F4A7C15 + 256 · i + salt` in 64-bit words, salt 0 for the
jitter and 1 for the link.
-/
namespace XrDelivery

/-- Where a user's frames come from. -/
inductive CatalogSource where
  | file (path : String)
  | synthetic (sweep : Sweep)

/-- One user, resolved. -/
structure UserConfig where
  name : String
  address : String
  destination : String
  level : UInt32
  startOffset : Float
  catalog : CatalogSource

/-- A resolved configuration. -/
structure RunConfig where
  version : UInt32
  seed : UInt64
  sender : SenderConfig
  receiver : ReceiverConfig
  link : LinkProfile
  users : List UserConfig

/-- Why a configuration cannot be resolved. -/
inductive ConfigError where
  | unreadable (e : InputError)
  | unsupportedVersion (v : UInt32)
  | senderInvalid (e : SetupError)
  | receiverInvalid (e : SetupError)
  | rateBoundsInverted (min max : UInt64)
  | lossOutOfRange (x : Float)
  | negativeDelay
  | namesCollide (earlier later : String)
  | startInvalid (name : String) (x : Float)
  | noUsers
  /-- More users than a table in memory can hold. -/
  | tooManyUsers (count : Nat)

/-- The sentence of the error, with the sentences of its causes after colons. -/
def ConfigError.message : ConfigError → String
  | .unreadable _ => "invalid config TOML"
  | .unsupportedVersion v => s!"unsupported config version {v}"
  | .senderInvalid e => "invalid [sender] section: " ++ e.message
  | .receiverInvalid e => "invalid [receiver] section: " ++ e.message
  | .rateBoundsInverted lo hi => s!"[link] min_rate_kbit {lo} exceeds max_rate_kbit {hi}"
  | .lossOutOfRange x => "[link] max_loss_percent must lie in [0, 100] (got " ++ x.plainText ++ ")"
  | .negativeDelay => "[link] delays must be non-negative"
  | .namesCollide a b =>
    "user names " ++ Text.quote a ++ " and " ++ Text.quote b ++ " collide; names must be unique"
  | .startInvalid name x => "user " ++ name ++ ": start_time_s must be non-negative (got " ++ x.plainText ++ ")"
  | .noUsers => "at least one user is required"
  | .tooManyUsers n => s!"a table of {n} users exceeds the address space"

/-- The seed of one of a user's streams. -/
def streamSeed (seed : UInt64) (index : Nat) (salt : UInt64) : UInt64 :=
  seed * (0x9E3779B97F4A7C15 : UInt64) + (index.toUInt64 <<< 8) + salt

/-- The link of a written configuration. -/
def LinkInput.resolve (l : LinkInput) : Except ConfigError LinkProfile :=
  let d : LinkProfile := {}
  if l.ideal then .ok (LinkProfile.ideal (l.baseDelayMs.getD d.baseDelayMs))
  else
    let p : LinkProfile :=
      { minRateKbit := l.minRateKbit.getD d.minRateKbit, maxRateKbit := l.maxRateKbit.getD d.maxRateKbit,
        rateStepKbit := l.rateStepKbit.getD d.rateStepKbit, baseDelayMs := l.baseDelayMs.getD d.baseDelayMs,
        delayRangeMs := l.delayRangeMs.getD d.delayRangeMs, delayStepMs := l.delayStepMs.getD d.delayStepMs,
        packetJitterMs := l.packetJitterMs.getD d.packetJitterMs,
        maxLossPercent := l.maxLossPercent.getD d.maxLossPercent,
        lossStepPercent := l.lossStepPercent.getD d.lossStepPercent,
        step := (l.stepMs.map Span.ofMillis).getD d.step }
    if p.maxRateKbit > 0 && p.minRateKbit > p.maxRateKbit then .error (.rateBoundsInverted p.minRateKbit p.maxRateKbit)
    else if !(0.0 ≤ p.maxLossPercent && p.maxLossPercent ≤ 100.0) then .error (.lossOutOfRange p.maxLossPercent)
    else if p.baseDelayMs < 0.0 || p.packetJitterMs < 0.0 then .error .negativeDelay
    else .ok p

/-- The catalog every user plays unless it names a file of its own. -/
def CatalogInput.resolve (c : CatalogInput) (seed : UInt64) : CatalogSource :=
  match c.path with
  | some path => .file path
  | none =>
    let d : Sweep := {}
    .synthetic { frames := c.frames.getD d.frames, levels := c.levels.getD d.levels,
                 bytesPerComponent := c.bytesPerComponent.getD d.bytesPerComponent,
                 baseMse := c.baseMse.getD d.baseMse, spread := c.spread.getD d.spread, seed := seed ^^^ d.seed }

/-- The levels a user without one draws from. -/
def CatalogSource.drawLevels : CatalogSource → List UInt32
  | .synthetic s => if s.levels.isEmpty then standardLevels else s.levels
  | .file _ => standardLevels

/-- The written users, cut or filled up to the count. -/
def fitUsers (count : Nat) (users : List UserInput) : List UserInput :=
  users.take count ++ List.replicate (count - users.length) ({} : UserInput)

/-- The most users a configuration may have: as many 96-byte entries as fit in `2^63 - 1`
bytes. -/
def maxUsers : Nat := (Nat.pow 2 63 - 1) / 96

/-- What resolving the users carries from one to the next: the users so far (last first),
the frame log names taken with the users that took them, and the level stream. -/
structure UserScan where
  done : List UserConfig := []
  taken : Std.TreeMap String String compare := {}
  levels : Random.Stream

/-- Resolve user `idx`. -/
def UserScan.add (shared : CatalogSource) (defaultStart : Float) (s : UserScan) (idx : Nat)
    (u : UserInput) : Except ConfigError UserScan := do
  let address := s!"ue{idx}"
  let name := match u.name.map Text.trimBlank with
    | some n => if n.isEmpty then address else n
    | none => address
  let logName := frameLogName name
  if let some other := s.taken.get? logName then throw (.namesCollide other name)
  let taken := s.taken.insert logName name
  let (level, levels) := match u.level with
    | some l => (l, s.levels)
    | none =>
      let pool := shared.drawLevels
      let (i, g) := s.levels.below pool.length
      (pool.getD i 0, g)
  let start := u.startTime.getD defaultStart
  if !start.isFinite || start < 0.0 then throw (.startInvalid name start)
  let user : UserConfig :=
    { name, address, destination := u.destination.getD address, level, startOffset := start,
      catalog := (u.catalog.map CatalogSource.file).getD shared }
  pure { done := user :: s.done, taken, levels }

/-- Resolve a written configuration. -/
def ConfigInput.resolve (c : ConfigInput) : Except ConfigError RunConfig := do
  let version := if c.version = 0 then 1 else c.version
  if version ≠ 1 then throw (.unsupportedVersion version)
  let seed := c.seed.getD 1
  let ds : SenderConfig := {}
  let dj : Jitter := {}
  let sender : SenderConfig :=
    { fps := c.sender.fps.getD ds.fps, startOffset := c.sender.startTime.getD ds.startOffset,
      jitter := { mean := c.sender.jitter.mean.getD dj.mean, stddev := c.sender.jitter.stddev.getD dj.stddev,
                  min := c.sender.jitter.min.getD dj.min, max := c.sender.jitter.max.getD dj.max, seed },
      maxPayload := c.sender.maxPayload.getD ds.maxPayload, destination := "" }
  if let .error e := sender.validate then throw (.senderInvalid e)
  let dr : ReceiverConfig := {}
  let receiver : ReceiverConfig :=
    { deadlineMs := c.receiver.deadlineMs.getD dr.deadlineMs,
      reliabilityThreshold := c.receiver.reliabilityThreshold.getD dr.reliabilityThreshold,
      expectedFrames := c.receiver.expectedFrames.getD dr.expectedFrames,
      penalty := c.receiver.penalty.getD dr.penalty }
  if let .error e := receiver.validate then throw (.receiverInvalid e)
  let link ← c.link.resolve
  let shared := c.catalog.resolve seed
  let count := c.userCount.getD (max c.users.length 1)
  if count > maxUsers then throw (.tooManyUsers count)
  let inputs := fitUsers count c.users
  let scan ← (inputs.zipIdx).foldlM (fun s (u, idx) => s.add shared sender.startOffset idx u)
    ({ levels := Random.Stream.ofSeed seed } : UserScan)
  if scan.done.isEmpty then throw .noUsers
  pure { version, seed, sender, receiver, link, users := scan.done.reverse }

/-- The sender of user `index`: the shared one aimed at the user, from the user's start time,
with jitter seeded for the user. -/
def RunConfig.senderFor (c : RunConfig) (index : Nat) (u : UserConfig) : SenderConfig :=
  { c.sender with destination := u.destination, startOffset := u.startOffset,
                  jitter := { c.sender.jitter with seed := streamSeed c.seed index 0 } }

/-- The seed of user `index`'s link. -/
def RunConfig.linkSeed (c : RunConfig) (index : Nat) : UInt64 := streamSeed c.seed index 1

/-- The configuration a text describes, with the seed and the user count set from outside
when given. -/
def RunConfig.ofText (text : String) (seed : Option UInt64) (users : Option Nat) :
    Except ConfigError RunConfig :=
  match ConfigInput.ofText text with
  | .error e => .error (.unreadable e)
  | .ok c =>
    let c := match seed with | some s => { c with seed := some s } | none => c
    let c := match users with | some n => { c with userCount := some n } | none => c
    c.resolve

end XrDelivery
