import XrDelivery.Config.Resolved
import XrDelivery.Catalog.Csv
import XrDelivery.Link.Channel
import XrDelivery.Link.DeliveryQueue
import XrDelivery.Wire.Datagram
/-!
# Simulating a run

A run plays every user's catalog over the user's own impaired link to the user's own receiver,
and scores the streams together.

First every stream is set up, in user order, and the first failure ends the run: the user's
catalog is loaded at the user's compression level; the link's timeline is generated far enough
to cover the whole stream (the start offset, one interval per frame at the longest jitter, and
five seconds more); the sender and the receiver are made, and the receiver registers with the
global aggregator. Users are reachable at their addresses, user `i` as peer `i`.

Then each stream runs on its own clock from instant 0: the sender starts (a destination that
does not resolve stops it at once, and the stream still finishes), and at each instant a frame
is due, the datagrams that have arrived by then are handed to the receiver, the sender cuts the
next frame into fragments, and the channel carries each fragment's datagram (header and
payload) towards the receiver. When the sender has nothing more to send, every datagram still
in flight is delivered, the receiver is finalized and its frame records are collected. A
datagram that arrives is decoded, and one that does not decode is dropped.
-/
namespace XrDelivery

open Wire

/-- Why a run could not start, or a stream could not go on. -/
inductive RunError where
  | catalogUnplayable (name : String) (level : UInt32) (e : LoadError)
  | horizonOutOfRange (name : String) (horizon : Float) (e : SpanError)
  /-- The link's bounds cross, so its random walk cannot keep within them. -/
  | linkWalkFailed (name : String)
  | senderRejected (name : String) (e : SetupError)
  | receiverRejected (name : String) (e : SetupError)
  /-- A count of the stream's channel would leave its 64-bit range. -/
  | channelOverflow (name : String)

/-- The sentence of the error, with the sentences of its causes after colons. -/
def RunError.message : RunError → String
  | .catalogUnplayable name level e =>
    s!"user {name}: no playable catalog at compression level {level}: " ++ ": ".intercalate e.chain
  | .horizonOutOfRange name h e =>
    "user " ++ name ++ ": run horizon of " ++ h.plainText ++ " s is out of range: " ++ e.message
  | .linkWalkFailed name => "user " ++ name ++ ": link bounds cross"
  | .senderRejected name e => "user " ++ name ++ ": invalid sender config: " ++ e.message
  | .receiverRejected name e => "user " ++ name ++ ": invalid receiver config: " ++ e.message
  | .channelOverflow name => "user " ++ name ++ ": channel count overflow"

/-- The catalog a user plays. -/
def UserConfig.loadCatalog (read : FileReader) (u : UserConfig) : Except LoadError Catalog :=
  match u.catalog with
  | .file path => Catalog.load read path (Level.ofNat u.level)
  | .synthetic s => (s.catalog (Level.ofNat u.level)).mapError LoadError.setup

/-- How far ahead a link's conditions are generated beyond the last frame, in seconds. -/
def timelineMargin : Float := 5.0

/-- The span of link conditions a stream needs: its start offset, one interval per frame at
the longest jitter, and the margin. -/
def streamHorizon (startOffset : Float) (frames : Nat) (c : SenderConfig) : Float :=
  startOffset + frames.toFloat * (1.0 / c.fps + atLeast 0.0 c.jitter.max / 1000.0) + timelineMargin

/-- A stream ready to run. -/
structure StreamSetup where
  index : Nat
  user : UserConfig
  catalog : Summary
  sender : Sender
  receiver : Receiver
  channel : Channel

/-- Set up user `index`'s stream, registering its receiver. -/
def RunConfig.setupStream (c : RunConfig) (read : FileReader) (agg : Aggregator) (index : Nat)
    (u : UserConfig) : Except RunError (StreamSetup × Aggregator) := do
  let cat ← (u.loadCatalog read).mapError (RunError.catalogUnplayable u.name u.level)
  let sc := c.senderFor index u
  let horizon := streamHorizon u.startOffset cat.size sc
  let span ← (Span.ofSeconds horizon).mapError (RunError.horizonOutOfRange u.name horizon)
  let tl ← (Timeline.generate c.link (c.linkSeed index) span).mapError fun _ => RunError.linkWalkFailed u.name
  let tx ← (Sender.new sc cat).mapError (RunError.senderRejected u.name)
  let (rx, agg) ← (Receiver.new c.receiver agg).mapError (RunError.receiverRejected u.name)
  pure (⟨index, u, cat.summary, tx, rx, Channel.new tl (c.linkSeed index)⟩, agg)

/-- Set up every stream in user order. -/
def RunConfig.setupStreams (c : RunConfig) (read : FileReader) :
    Except RunError (List StreamSetup × Aggregator) := do
  let (acc, agg) ← c.users.zipIdx.foldlM (fun (acc, agg) (u, i) => do
    let (s, agg) ← c.setupStream read agg i u
    pure (s :: acc, agg)) (([] : List StreamSetup), ({} : Aggregator))
  pure (acc.reverse, agg)

/-- The directory of a run: user `i`'s address is peer `i`. -/
def RunConfig.directory (c : RunConfig) : Directory :=
  Directory.ofList (c.users.zipIdx.map fun (u, i) => (u.address, ⟨i.toUInt32⟩))

/-- A stream while it runs: its endpoints, its link, the datagrams in flight, and why the
sender stopped, if it failed. -/
structure Flight where
  sender : Sender
  receiver : Receiver
  channel : Channel
  queue : DeliveryQueue (List UInt8) := {}
  senderError : Option String := none

/-- Hand the receiver every datagram that has arrived by `now`, at most `fuel` of them, dropping
those that do not decode. -/
def Flight.deliverUntil (now : Float) : Nat → Flight → Flight
  | 0, f => f
  | fuel + 1, f =>
    match f.queue.popDue now with
    | (some (arrival, bytes), q) =>
      let receiver := match Datagram.decode? bytes with
        | some d => f.receiver.onFragment d.toFragment arrival
        | none => f.receiver
      Flight.deliverUntil now fuel { f with queue := q, receiver }
    | (none, _) => f

/-- Hand the receiver every datagram that has arrived by `now`. -/
def Flight.deliver (f : Flight) (now : Float) : Flight := f.deliverUntil now f.queue.size

/-- Put the datagrams of the fragments of a frame sent at `now` on the link. -/
def Flight.transmit (f : Flight) (now : Float) (frags : List Fragment) : Except ChannelError Flight :=
  frags.foldlM (fun f frag => do
    let bytes := (Datagram.ofFragment frag).encode
    match ← f.channel.transmit now bytes.length with
    | (some arrival, ch) => pure { f with channel := ch, queue := f.queue.push arrival bytes }
    | (none, ch) => pure { f with channel := ch }) f

/-- Run the sender from instant `next` while frames are due, at most `fuel` frames. -/
def Flight.play : Nat → Option Float → Flight → Except ChannelError Flight
  | 0, _, f => .ok f
  | _, none, f => .ok f
  | fuel + 1, some now, f =>
    let f := f.deliver now
    match f.sender.poll now with
    | .ok (some b, tx) => do
      Flight.play fuel b.nextSendAt (← { f with sender := tx }.transmit now b.fragments)
    | .ok (none, tx) => .ok { f with sender := tx }
    | .error (e, tx) => .ok { f with sender := tx, senderError := some e.message }

/-- What one stream reports. -/
structure StreamReport where
  index : Nat
  name : String
  level : UInt32
  catalog : Summary
  quality : StreamQuality
  sender : SenderStats
  receiver : ReceiverStats
  channel : ChannelStats
  senderError : Option String
  records : List FrameRecord

/-- The flight a stream starts from, and its first poll, once its sender's start went `st`: a
sender that could not start sends nothing and keeps the reason. -/
def StreamSetup.launch (s : StreamSetup) (st : Except SetupError (Option Float × Sender)) :
    Option Float × Flight :=
  match st with
  | .ok (first, tx) => (first, { sender := tx, receiver := s.receiver, channel := s.channel })
  | .error e => (none, { sender := s.sender, receiver := s.receiver, channel := s.channel,
                         senderError := some e.message })

/-- Run one stream from its sender's start `st` to its end and finalize its receiver. -/
def StreamSetup.runFrom (s : StreamSetup) (st : Except SetupError (Option Float × Sender))
    (agg : Aggregator) : Except RunError (StreamReport × Aggregator) := do
  let (next, f) := s.launch st
  let f ← (Flight.play (s.sender.catalog.size + 2) next f).mapError
    fun _ => RunError.channelOverflow s.user.name
  let f := f.deliver (1.0 / 0.0)
  let (outcome, rx, agg) := f.receiver.finalize agg
  let (events, rx) := rx.drain
  let report : StreamReport :=
    { index := s.index, name := s.user.name, level := s.user.level, catalog := s.catalog,
      quality := outcome.quality, sender := f.sender.stats, receiver := rx.stats,
      channel := f.channel.stats, senderError := f.senderError,
      records := events.map ReceiverEvent.record }
  pure (report, agg)

/-- Run one stream, its sender started at instant zero. -/
def StreamSetup.run (s : StreamSetup) (dir : Directory) (agg : Aggregator) :
    Except RunError (StreamReport × Aggregator) :=
  s.runFrom (s.sender.start 0.0 dir) agg

/-- What a run reports: its seed, every stream in user order, and the global summary once the
last stream has finished. -/
structure RunReport where
  seed : UInt64
  streams : List StreamReport
  global : Option GlobalQuality

/-- Simulate a run, reading catalog files with `read`. -/
def RunConfig.run (c : RunConfig) (read : FileReader) : Except RunError RunReport := do
  let (setups, agg) ← c.setupStreams read
  let dir := c.directory
  let (reports, agg) ← setups.foldlM (fun (acc, agg) s => do
    let (r, agg) ← s.run dir agg
    pure (r :: acc, agg)) (([] : List StreamReport), agg)
  pure { seed := c.seed, streams := reports.reverse, global := agg.published }

end XrDelivery
