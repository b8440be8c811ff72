import XrDelivery.Link.Timeline
/-!
# The impaired channel

A channel carries datagrams over a link whose state follows a timeline. A datagram sent at an
instant waits until the link is free, then occupies it for its serialization time (its bits
over the rate, none without a rate limit); it may be lost on the way, with the loss
percentage of the link at its sending instant, and otherwise arrives after the link's delay
plus a random packet jitter. A lost datagram still occupied the link.

The channel counts datagrams offered, dropped and delivered, bytes delivered, and the
longest wait for the link. Its counts and a datagram's bits are 64-bit words: a datagram that
would carry one past its range is refused (`ChannelError.countOverflow`), and the channel
stops there.
-/
namespace XrDelivery

/-- What a channel counted. -/
structure ChannelStats where
  offered : UInt64 := 0
  dropped : UInt64 := 0
  delivered : UInt64 := 0
  bytesDelivered : UInt64 := 0
  maxQueueingMs : Float := 0.0

/-- The share of offered datagrams that were dropped, zero when none were offered. -/
def ChannelStats.lossRatio (s : ChannelStats) : Float :=
  if s.offered = 0 then 0.0 else s.dropped.toFloat / s.offered.toFloat

/-- A channel: its timeline, its word stream, when the link is next free, and its counts. -/
structure Channel where
  timeline : Timeline
  stream : Random.Stream
  busyUntil : Float := 0.0
  stats : ChannelStats := {}

/-- Why a channel could not take a datagram. -/
inductive ChannelError where
  /-- A count, or the bits of the datagram, would leave the range of a 64-bit word. -/
  | countOverflow
deriving DecidableEq, Repr

/-- The sum of a 64-bit count and an amount, if it stays in range. -/
def addToWord (a : UInt64) (b : Nat) : Except ChannelError UInt64 :=
  if a.toNat + b < Nat.pow 2 64 then .ok (a + b.toUInt64) else .error .countOverflow

/-- A channel over a timeline, drawing from a seed. -/
def Channel.new (tl : Timeline) (seed : UInt64) : Channel :=
  { timeline := tl, stream := Random.Stream.ofSeed seed }

@[simp] theorem Channel.new_timeline (tl : Timeline) (seed : UInt64) :
    (Channel.new tl seed).timeline = tl := rfl

@[simp] theorem Channel.new_busyUntil (tl : Timeline) (seed : UInt64) :
    (Channel.new tl seed).busyUntil = 0.0 := rfl

@[simp] theorem Channel.new_stats (tl : Timeline) (seed : UInt64) :
    (Channel.new tl seed).stats = {} := rfl

/-- The time `len` bytes occupy a link of `rate` kbit/s, in seconds: their bits over the rate,
and none without a rate limit. -/
def serializationTime (rate : Option Float) (len : Nat) : Except ChannelError Float :=
  match rate with
  | some rate =>
    if len * 8 < Nat.pow 2 64 then .ok ((len * 8).toUInt64.toFloat / (rate * 1000.0))
    else .error .countOverflow
  | none => .ok 0.0

/-- Whether a datagram is lost at the loss percentage: a unit draw below it; nothing is drawn
when nothing can be lost. -/
def Random.Stream.drawLoss (g : Random.Stream) (lossPercent : Float) : Bool × Random.Stream :=
  if lossPercent > 0.0 then
    let (u, g) := g.unit
    (u * 100.0 < lossPercent, g)
  else (false, g)

/-- A packet's jitter in milliseconds: a unit draw scaled to the link's jitter; nothing is drawn
without jitter. -/
def Random.Stream.drawJitter (g : Random.Stream) (jitterMs : Float) : Float × Random.Stream :=
  if jitterMs > 0.0 then
    let (u, g) := g.unit
    (u * jitterMs, g)
  else (0.0, g)

/-- Send `len` bytes at `sendAt`: the arrival instant, or none when the datagram is lost. -/
def Channel.transmit (ch : Channel) (sendAt : Float) (len : Nat) :
    Except ChannelError (Option Float × Channel) := do
  let offered ← addToWord ch.stats.offered 1
  let stats := { ch.stats with offered }
  let c := ch.timeline.at sendAt
  let start := maxOf sendAt ch.busyUntil
  let serialization ← serializationTime c.rateKbit len
  let busyUntil := start + serialization
  let stats := { stats with maxQueueingMs := maxOf stats.maxQueueingMs ((start - sendAt) * 1000.0) }
  let ch := { ch with busyUntil, stats }
  let (lost, g) := ch.stream.drawLoss c.lossPercent
  let ch := { ch with stream := g }
  if lost then
    let dropped ← addToWord ch.stats.dropped 1
    pure (none, { ch with stats.dropped := dropped })
  else
    let (jitter, g) := ch.stream.drawJitter c.packetJitterMs
    let delivered ← addToWord ch.stats.delivered 1
    let bytesDelivered ← addToWord ch.stats.bytesDelivered len
    let ch := { ch with stream := g, stats.delivered := delivered, stats.bytesDelivered := bytesDelivered }
    pure (some (busyUntil + (c.delayMs + jitter) / 1000.0), ch)

end XrDelivery
