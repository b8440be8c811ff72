import XrDelivery.Simulation
import XrDelivery.Json.Forms
import XrDelivery.Report.Streams
/-!
# The command line

The simulator reads a configuration file (every default applies without one), lets the seed
and the number of users be set on the command line, runs every user's stream and writes the
results into a directory: one frame log per user, the stream table `streams.csv`, the global
table `global_qoe.csv` once the run has a global summary, and the whole report, indented, as
`report.json`. With `--json` the report is also printed; with `--dump-catalog` the first user's
synthetic catalog is written out as comma-separated text.

Options are written `--name value` or `--name=value`. A failure is reported on the error
stream with its causes, and the program ends with status 1; a command line that does not read
ends with status 2.
-/
namespace XrDelivery.CommandLine

/-- What the command line asks for. -/
structure Options where
  config : Option String := none
  outputDir : String := "results"
  seed : Option UInt64 := none
  streams : Option Nat := none
  dumpCatalog : Option String := none
  json : Bool := false
  help : Bool := false

/-- The help text. -/
def usage : String :=
  "Simulate XR frame delivery and score per-user QoE\n\n" ++
  "Usage: xr-delivery [OPTIONS]\n\n" ++
  "Options:\n" ++
  "      --config <CONFIG>              TOML configuration file. Defaults apply when omitted\n" ++
  "      --output-dir <OUTPUT_DIR>      Directory for result files [default: results]\n" ++
  "      --seed <SEED>                  Override the run seed\n" ++
  "      --streams <STREAMS>            Override the number of users\n" ++
  "      --dump-catalog <DUMP_CATALOG>  Also write the first user's synthetic catalog as CSV to this path\n" ++
  "      --json                         Print the report as JSON on stdout\n" ++
  "  -h, --help                         Print help\n"

/-- A number given to an option, below a bound. -/
def readBounded (name text : String) (bound : Nat) : Except String Nat :=
  match text.toNat? with
  | some n => if n < bound then .ok n else .error s!"invalid value for {name}: number too large"
  | none => .error s!"invalid value for {name}: invalid digit found in string"

/-- Set the option `name` to `value`. -/
def Options.set (o : Options) (name value : String) : Except String Options :=
  match name with
  | "--config" => .ok { o with config := some value }
  | "--output-dir" => .ok { o with outputDir := value }
  | "--seed" => (readBounded name value (Nat.pow 2 64)).map fun n => { o with seed := some n.toUInt64 }
  | "--streams" => (readBounded name value (Nat.pow 2 64)).map fun n => { o with streams := some n }
  | "--dump-catalog" => .ok { o with dumpCatalog := some value }
  | _ => .error s!"unexpected argument {name} found"

/-- Whether an option takes a value. -/
def takesValue (name : String) : Bool :=
  name == "--config" || name == "--output-dir" || name == "--seed" || name == "--streams" ||
    name == "--dump-catalog"

/-- Read the command line's words into options. -/
def Options.parse (o : Options) : List String → Except String Options
  | [] => .ok o
  | "--json" :: rest => Options.parse { o with json := true } rest
  | "--help" :: rest | "-h" :: rest => Options.parse { o with help := true } rest
  | word :: rest =>
    match word.splitOn "=" with
    | name :: v :: more =>
      if takesValue name then
        match o.set name ("=".intercalate (v :: more)) with
        | .ok o => Options.parse o rest
        | .error e => .error e
      else .error s!"unexpected argument {word} found"
    | _ =>
      if takesValue word then
        match rest with
        | value :: later =>
          match o.set word value with
          | .ok o => Options.parse o later
          | .error e => .error e
        | [] => .error s!"a value is required for {word} but none was supplied"
      else .error s!"unexpected argument {word} found"

/-- A path inside a directory. -/
def inDirectory (dir name : String) : String :=
  if dir.endsWith "/" then dir ++ name else dir ++ "/" ++ name

/-- The reason a file could not be read, as the catalog reports it. -/
def failureOf : IO.Error → ReadFailure
  | .noFileOrDirectory .. => .notFound
  | .permissionDenied .. => .permissionDenied
  | .inappropriateType _ 20 _ => .notADirectory
  | .inappropriateType .. => .isDirectory
  | .userError .. => .notText
  | _ => .notFound

/-- Read every catalog file that the users name, so that the run can look them up. -/
def readCatalogs (c : RunConfig) : IO (List (String × Except ReadFailure String)) := do
  let paths := c.users.filterMap fun u => match u.catalog with
    | .file p => some p
    | .synthetic _ => none
  paths.eraseDups.mapM fun (p : String) => do
    if p.contains (Char.ofNat 0) then return (p, .error .nulInName)
    match ← (IO.FS.readFile p).toBaseIO with
    | .ok text => pure (p, .ok text)
    | .error e => pure (p, .error (failureOf e))

/-- The reader that answers from files read in advance. -/
def readerOf (files : List (String × Except ReadFailure String)) : FileReader := fun p =>
  (files.lookup p).getD (.error .notFound)

/-- A JSON object with one more field at its end. -/
def withField (v : Json.Value) (key : String) (x : Json.Value) : Json.Value :=
  match v with
  | .obj fields => .obj (fields ++ [(key, x)])
  | v => v

/-- Report a failure and give the failing status. -/
def failWith (text : String) : IO UInt32 := do
  IO.eprintln ("Error: " ++ text)
  pure 1

/-- Report a failure with its cause and give the failing status. -/
def fail (context cause : String) : IO UInt32 :=
  failWith (context ++ "\n\nCaused by:\n    " ++ cause)

/-- The milliseconds between two readings of the monotonic clock. -/
def millisBetween (t0 t1 : Nat) : Float := (t1 - t0).toFloat / 1000000.0

/-- Run the simulation that the options describe. -/
def runWith (o : Options) : IO UInt32 := do
  let text ← match o.config with
    | some path =>
      match ← (IO.FS.readFile path).toBaseIO with
      | .ok t => pure (some t)
      | .error e =>
        let _ ← fail ("reading config " ++ path) (toString e)
        pure none
    | none => pure (some "")
  let some text := text | pure 1
  let config ← match RunConfig.ofText text o.seed o.streams with
    | .ok c => pure (some c)
    | .error (.unreadable _) =>
      let _ ← fail ("in config " ++ o.config.getD "") "invalid config TOML"
      pure none
    | .error e =>
      let _ ← fail "invalid configuration" e.message
      pure none
  let some config := config | pure 1
  IO.eprintln s!"xr-delivery starting: seed={config.seed} users={config.users.length}"
  if let some path := o.dumpCatalog then
    match config.users.head? with
    | some { catalog := .synthetic s, .. } =>
      match ← (IO.FS.writeFile path s.toCsv).toBaseIO with
      | .ok () => IO.eprintln s!"synthetic catalog written: {path}"
      | .error e => return ← fail ("writing catalog " ++ path) (toString e)
    | _ => IO.eprintln "--dump-catalog ignored: first user reads a catalog file"
  let read := readerOf (← readCatalogs config)
  let started ← IO.monoNanosNow
  match config.setupStreams read with
  | .error e => failWith e.message
  | .ok (setups, agg) =>
    let dir := config.directory
    let mut agg := agg
    let mut reports : List (StreamReport × Float) := []
    for s in setups do
      let t0 ← IO.monoNanosNow
      let (r, a) ← match s.run dir agg with
        | .ok ra => pure ra
        | .error e => return ← failWith e.message
      agg := a
      let t1 ← IO.monoNanosNow
      reports := reports ++ [(r, millisBetween t0 t1)]
    let finished ← IO.monoNanosNow
    let streams := reports.map Prod.fst
    let report : Json.Value :=
      withField (.obj [("seed", Json.nat config.seed.toNat),
          ("streams", .arr (reports.map fun (r, ms) => withField r.toJson "elapsed_ms" (.float ms))),
          ("global", Json.opt GlobalQuality.toJson agg.published)])
        "elapsed_ms" (.float (millisBetween started finished))
    let out := o.outputDir
    match ← (IO.FS.createDirAll out).toBaseIO with
    | .error e => return ← fail ("creating " ++ out) (toString e)
    | .ok () => pure ()
    let mut files : List (String × String) :=
      streams.map fun r => (inDirectory out (frameLogName r.name), frameLog r.records)
    files := files ++ [(inDirectory out "streams.csv", streamsTable streams)]
    if let some g := agg.published then
      files := files ++ [(inDirectory out "global_qoe.csv", g.table)]
    files := files ++ [(inDirectory out "report.json", report.pretty 0)]
    for (path, body) in files do
      if let .error e := ← (IO.FS.writeFile path body).toBaseIO then
        return ← fail ("writing " ++ path) (toString e)
    IO.eprintln s!"results written: {out} ({files.length} files)"
    for r in streams do
      let q := r.quality
      IO.eprintln s!"stream finished: user={r.name} level={r.level} on_time={q.onTimeFrames} lost={q.lostFrames}"
    if o.json then IO.println (report.pretty 0)
    pure 0

end XrDelivery.CommandLine

open XrDelivery.CommandLine in
/-- Read the command line and run. -/
def main (args : List String) : IO UInt32 := do
  match Options.parse {} args with
  | .error e =>
    IO.eprintln ("error: " ++ e ++ "\n\nUsage: xr-delivery [OPTIONS]\n\nFor more information, try --help.")
    pure 2
  | .ok o =>
    if o.help then
      IO.print usage
      pure 0
    else runWith o
