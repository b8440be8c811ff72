import XrDelivery.Toml.Reader
import XrDelivery.Text.Blank
/-!
# The configuration as written

A run is configured by a TOML document in which every key is optional:

```
version = 1            seed = 9            user_count = 3
[sender]   fps, start_time_s, max_payload_size, [sender.jitter] mean_ms, stddev_ms, min_ms, max_ms
[receiver] deadline_ms, reliability_threshold, expected_frames, max_penalty
[catalog]  path, synthetic_frames, levels, bytes_per_component, base_mse, spread
[link]     ideal, min_rate_kbit, max_rate_kbit, rate_step_kbit, base_delay_ms, delay_range_ms,
           delay_step_ms, packet_jitter_ms, max_loss_percent, loss_step_percent, step_ms
[[users]]  name, compression_level, start_time_s, destination, catalog
```

Keys the schema does not know are read and dropped. A known key must hold a value of its type:
a float field takes a float or an integer of the signed or unsigned 64-bit range, an integer
field an integer in its range (32 or 64 bits, never negative), a section or a user a record,
`users` an array of records. A record is a table, or an array that lists its fields in the
order above. A text of blanks alone is the empty configuration.
-/
namespace XrDelivery

open Toml

/-- Why a text is not a configuration: it is not TOML, or a known key holds a value of the
wrong type or range. -/
inductive InputError where
  | toml (e : TomlError)
  | wrongType (key : String)

/-- Jitter settings as written. -/
structure JitterInput where
  mean : Option Float := none
  stddev : Option Float := none
  min : Option Float := none
  max : Option Float := none

/-- Sender settings as written. -/
structure SenderInput where
  fps : Option Float := none
  startTime : Option Float := none
  maxPayload : Option Nat := none
  jitter : JitterInput := {}

/-- Receiver settings as written. -/
structure ReceiverInput where
  deadlineMs : Option Float := none
  reliabilityThreshold : Option Float := none
  expectedFrames : Option UInt32 := none
  penalty : Option Float := none

/-- Catalog settings as written: a file, or the parameters of a synthetic sweep. -/
structure CatalogInput where
  path : Option String := none
  frames : Option UInt32 := none
  levels : Option (List UInt32) := none
  bytesPerComponent : Option UInt32 := none
  baseMse : Option Float := none
  spread : Option Float := none

/-- Link settings as written. -/
structure LinkInput where
  ideal : Bool := false
  minRateKbit : Option UInt64 := none
  maxRateKbit : Option UInt64 := none
  rateStepKbit : Option UInt64 := none
  baseDelayMs : Option Float := none
  delayRangeMs : Option Float := none
  delayStepMs : Option Float := none
  packetJitterMs : Option Float := none
  maxLossPercent : Option Float := none
  lossStepPercent : Option Float := none
  stepMs : Option Nat := none

/-- One user as written. -/
structure UserInput where
  name : Option String := none
  level : Option UInt32 := none
  startTime : Option Float := none
  destination : Option String := none
  catalog : Option String := none

/-- A configuration as written. -/
structure ConfigInput where
  version : UInt32 := 0
  seed : Option UInt64 := none
  userCount : Option Nat := none
  sender : SenderInput := {}
  receiver : ReceiverInput := {}
  catalog : CatalogInput := {}
  link : LinkInput := {}
  users : List UserInput := []

/-- A decoder of the value of a known key. -/
abbrev Decode (α : Type) := String → Value → Except InputError α

/-- An integer below a bound, never negative. -/
def decodeNat (bound : Nat) : Decode Nat
  | key, .integer i => if 0 ≤ i ∧ i < bound then .ok i.toNat else .error (.wrongType key)
  | key, _ => .error (.wrongType key)

/-- A 32-bit word. -/
def decodeWord : Decode UInt32 := fun k v => (decodeNat (Nat.pow 2 32) k v).map Nat.toUInt32

/-- A 64-bit word. -/
def decodeWide : Decode UInt64 := fun k v => (decodeNat (Nat.pow 2 64) k v).map Nat.toUInt64

/-- A float; an integer of the signed or unsigned 64-bit range is taken at its nearest double. -/
def decodeFloat : Decode Float
  | _, .float x => .ok x
  | key, .integer i =>
    if -(Nat.pow 2 63 : Int) ≤ i ∧ i < Nat.pow 2 64 then
      .ok (Decimal.Dec.toFloat (i < 0) ⟨i.natAbs, 0⟩)
    else .error (.wrongType key)
  | key, _ => .error (.wrongType key)

/-- A string. -/
def decodeString : Decode String
  | _, .string s => .ok s
  | key, _ => .error (.wrongType key)

/-- A boolean. -/
def decodeBool : Decode Bool
  | _, .boolean b => .ok b
  | key, _ => .error (.wrongType key)

/-- A list of 32-bit words. -/
def decodeWords : Decode (List UInt32)
  | key, .array xs => xs.mapM (decodeWord key)
  | key, _ => .error (.wrongType key)

/-- A field of a record: its key, and how a value sets it. -/
structure Field (α : Type) where
  key : String
  take : Value → Except InputError (α → α)

/-- The field `key` of a record, decoded by `d` and stored by `set`. -/
def Field.of {α β : Type} (key : String) (d : Decode β) (set : α → β → α) : Field α :=
  ⟨key, fun v => (d key v).map fun b r => set r b⟩

/-- A record from the defaults `init` and its fields in order: a table sets fields by key (other
keys are read and dropped), an array by position; fields not set keep their defaults, as every
field of a date-time does. -/
def decodeRecord {α : Type} (fields : List (Field α)) (init : α) : Decode α
  | _, .table es =>
    es.foldlM (fun r (k, v) =>
      match fields.find? (·.key == k) with
      | some f => (f.take v).map (· r)
      | none => if v.readable then .ok r else .error (.wrongType k)) init
  | _, .array xs =>
    (fields.zip xs).foldlM (fun r (f, v) => (f.take v).map (· r)) init
  | _, .datetime _ => .ok init
  | key, _ => .error (.wrongType key)

/-- The fields of the jitter settings. -/
def JitterInput.fields : List (Field JitterInput) :=
  [.of "mean_ms" decodeFloat fun r x => { r with mean := some x },
   .of "stddev_ms" decodeFloat fun r x => { r with stddev := some x },
   .of "min_ms" decodeFloat fun r x => { r with min := some x },
   .of "max_ms" decodeFloat fun r x => { r with max := some x }]

/-- The fields of the sender settings. -/
def SenderInput.fields : List (Field SenderInput) :=
  [.of "fps" decodeFloat fun r x => { r with fps := some x },
   .of "start_time_s" decodeFloat fun r x => { r with startTime := some x },
   .of "max_payload_size" (decodeNat (Nat.pow 2 64)) fun r n => { r with maxPayload := some n },
   .of "jitter" (decodeRecord JitterInput.fields {}) fun r j => { r with jitter := j }]

/-- The fields of the receiver settings. -/
def ReceiverInput.fields : List (Field ReceiverInput) :=
  [.of "deadline_ms" decodeFloat fun r x => { r with deadlineMs := some x },
   .of "reliability_threshold" decodeFloat fun r x => { r with reliabilityThreshold := some x },
   .of "expected_frames" decodeWord fun r n => { r with expectedFrames := some n },
   .of "max_penalty" decodeFloat fun r x => { r with penalty := some x }]

/-- The fields of the catalog settings. -/
def CatalogInput.fields : List (Field CatalogInput) :=
  [.of "path" decodeString fun r p => { r with path := some p },
   .of "synthetic_frames" decodeWord fun r n => { r with frames := some n },
   .of "levels" decodeWords fun r ls => { r with levels := some ls },
   .of "bytes_per_component" decodeWord fun r n => { r with bytesPerComponent := some n },
   .of "base_mse" decodeFloat fun r x => { r with baseMse := some x },
   .of "spread" decodeFloat fun r x => { r with spread := some x }]

/-- The fields of the link settings. -/
def LinkInput.fields : List (Field LinkInput) :=
  [.of "ideal" decodeBool fun r b => { r with ideal := b },
   .of "min_rate_kbit" decodeWide fun r n => { r with minRateKbit := some n },
   .of "max_rate_kbit" decodeWide fun r n => { r with maxRateKbit := some n },
   .of "rate_step_kbit" decodeWide fun r n => { r with rateStepKbit := some n },
   .of "base_delay_ms" decodeFloat fun r x => { r with baseDelayMs := some x },
   .of "delay_range_ms" decodeFloat fun r x => { r with delayRangeMs := some x },
   .of "delay_step_ms" decodeFloat fun r x => { r with delayStepMs := some x },
   .of "packet_jitter_ms" decodeFloat fun r x => { r with packetJitterMs := some x },
   .of "max_loss_percent" decodeFloat fun r x => { r with maxLossPercent := some x },
   .of "loss_step_percent" decodeFloat fun r x => { r with lossStepPercent := some x },
   .of "step_ms" (decodeNat (Nat.pow 2 64)) fun r n => { r with stepMs := some n }]

/-- The fields of one user. -/
def UserInput.fields : List (Field UserInput) :=
  [.of "name" decodeString fun r s => { r with name := some s },
   .of "compression_level" decodeWord fun r n => { r with level := some n },
   .of "start_time_s" decodeFloat fun r x => { r with startTime := some x },
   .of "destination" decodeString fun r s => { r with destination := some s },
   .of "catalog" decodeString fun r p => { r with catalog := some p }]

/-- The users: an array of records. -/
def decodeUsers : Decode (List UserInput)
  | key, .array xs => xs.mapM (decodeRecord UserInput.fields {} key)
  | key, _ => .error (.wrongType key)

/-- The fields of a configuration. -/
def ConfigInput.fields : List (Field ConfigInput) :=
  [.of "version" decodeWord fun r n => { r with version := n },
   .of "seed" decodeWide fun r n => { r with seed := some n },
   .of "user_count" (decodeNat (Nat.pow 2 64)) fun r n => { r with userCount := some n },
   .of "sender" (decodeRecord SenderInput.fields {}) fun r x => { r with sender := x },
   .of "receiver" (decodeRecord ReceiverInput.fields {}) fun r x => { r with receiver := x },
   .of "catalog" (decodeRecord CatalogInput.fields {}) fun r x => { r with catalog := x },
   .of "link" (decodeRecord LinkInput.fields {}) fun r x => { r with link := x },
   .of "users" decodeUsers fun r us => { r with users := us }]

/-- The configuration a document's table describes. -/
def ConfigInput.ofTable (es : List (String × Value)) : Except InputError ConfigInput :=
  decodeRecord ConfigInput.fields {} "" (.table es)

/-- The configuration a text describes; a text of blanks alone is the empty one. -/
def ConfigInput.ofText (text : String) : Except InputError ConfigInput :=
  if Text.isBlankText text then .ok {}
  else
    match Toml.parse text with
    | .ok es => ConfigInput.ofTable es
    | .error e => .error (.toml e)

end XrDelivery
