import XrDelivery.Catalog.Basic
import XrDelivery.Decimal.Read
import XrDelivery.Text.Blank
/-!
# Catalogs from comma-separated text

A catalog file has a header line, then one frame a line: frame number, component count,
reconstruction error and size in bytes, separated by commas. Blank lines are skipped, and so
is a line that does not describe a playable frame: not four fields, a field that does not
read, frame number 0, or an error that is not a finite non-negative number. Blanks anywhere
inside a field are ignored, so `1 0` reads as `10`.

A file that cannot be read is reported with its path and the reason.
-/
namespace XrDelivery

/-- A 32-bit word written in decimal, with an optional `+`. -/
def readWord? (s : String) : Option UInt32 :=
  match Decimal.readNat? s with
  | some n => if n < Nat.pow 2 32 then some n.toUInt32 else none
  | none => none

/-- The frame a catalog line describes, if it describes a playable one. -/
def Frame.ofCsvRow? (line : String) : Option Frame :=
  match (line.splitToList (· == ',')).map Text.dropBlanks with
  | [a, b, c, d] => do
    let seq ← readWord? a
    if seq = 0 then none
    let components ← readWord? b
    let error ← Decimal.readFloat? c
    if !error.isFinite || error < 0.0 then none
    let size ← readWord? d
    pure { seq, components, error, size }
  | _ => none

/-- The frames of a catalog text in order: the first line is a header, blank lines are
skipped, unplayable lines dropped. -/
def framesOfCsv (text : String) : List Frame :=
  ((Text.lines text).drop 1).filter (fun l => !Text.isBlankText l) |>.filterMap Frame.ofCsvRow?

/-- The catalog of a text at a level. A text without even a header line has no frames. -/
def Catalog.ofCsv (text : String) (level : Level) : Except SetupError Catalog :=
  if Text.lines text = [] then .error .emptyCatalog
  else Catalog.ofFrames (framesOfCsv text) level

/-- Why a file could not be read. -/
inductive ReadFailure where
  | notFound
  | isDirectory
  | notADirectory
  | permissionDenied
  | notText
  /-- A path with a NUL character, which no file name can hold. -/
  | nulInName
deriving DecidableEq, Repr

/-- The operating system's sentence for the failure. -/
def ReadFailure.message : ReadFailure → String
  | .notFound => "No such file or directory (os error 2)"
  | .isDirectory => "Is a directory (os error 21)"
  | .notADirectory => "Not a directory (os error 20)"
  | .permissionDenied => "Permission denied (os error 13)"
  | .notText => "stream did not contain valid UTF-8"
  | .nulInName => "file name contained an unexpected NUL byte"

/-- A way to read a text file by its path. -/
abbrev FileReader := String → Except ReadFailure String

/-- Why a catalog file gave no catalog. -/
inductive LoadError where
  | setup (e : SetupError)
  | unreadable (path : String) (why : ReadFailure)

/-- The sentence of the error. -/
def LoadError.message : LoadError → String
  | .setup e => "configuration error: " ++ e.message
  | .unreadable path why => "cannot read " ++ path ++ ": " ++ why.message

/-- The error's sentence followed by the sentence of its cause. -/
def LoadError.chain : LoadError → List String
  | .setup e => [LoadError.message (.setup e), e.message]
  | .unreadable p why => [LoadError.message (.unreadable p why), why.message]

/-- Read the catalog file at `path` and keep the frames of a level. -/
def Catalog.load (read : FileReader) (path : String) (level : Level) : Except LoadError Catalog :=
  match read path with
  | .error why => .error (.unreadable path why)
  | .ok text =>
    match Catalog.ofCsv text level with
    | .ok c => .ok c
    | .error e => .error (.setup e)

end XrDelivery
