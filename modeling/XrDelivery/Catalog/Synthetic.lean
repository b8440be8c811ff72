import XrDelivery.Catalog.Basic
import XrDelivery.Random.Draw
import XrDelivery.Bounds
/-!
# Synthetic compression sweeps

A synthetic sweep stands in for a measured one: for every frame number `1, …, frames` and every
compression level in order, a frame whose size is `level · bytesPerComponent` and whose error
is `baseMse · e^(-level/25)`, each scaled by its own noise factor `1 + spread · (2u - 1)` with
`u` uniform in `[0, 1)`. The spread is first limited to `[0, 0.99]`; sizes are rounded half away
from zero and are at least one byte.

`Sweep.toCsv` writes the sweep in the catalog file format, errors in shortest digits.
-/
namespace XrDelivery

/-- The compression levels of a sweep unless told otherwise: 5, 10, …, 80 components. -/
def standardLevels : List UInt32 := (List.range 16).map fun i => ((i + 1) * 5).toUInt32

/-- The parameters of a synthetic sweep. -/
structure Sweep where
  frames : UInt32 := 100
  levels : List UInt32 := standardLevels
  bytesPerComponent : UInt32 := 400
  baseMse : Float := 60.0
  spread : Float := 0.15
  seed : UInt64 := 7

/-- A noise factor `1 + spread · (2u - 1)`. -/
def Random.Stream.noise (g : Random.Stream) (spread : Float) : Float × Random.Stream :=
  let (u, g) := g.unit
  (1.0 + spread * (u * 2.0 - 1.0), g)

/-- The frame of a frame number at a level, with its two noise draws. -/
def Sweep.row (s : Sweep) (spread : Float) (seq level : UInt32) (g : Random.Stream) :
    Frame × Random.Stream :=
  let (n1, g) := g.noise spread
  let size := (level.toFloat * s.bytesPerComponent.toFloat * n1).round
  let (n2, g) := g.noise spread
  let mse := s.baseMse * Float.exp (-level.toFloat / 25.0) * n2
  ({ seq, components := level, error := mse, size := (atLeast 1.0 size).toUInt32 }, g)

/-- The rows of one frame number, one per level, in level order. -/
def Sweep.rowsOf (s : Sweep) (spread : Float) (seq : UInt32) (g : Random.Stream) :
    List Frame × Random.Stream :=
  let (acc, g) := s.levels.foldl (fun (acc, g) level =>
    let (f, g) := s.row spread seq level g
    (f :: acc, g)) ([], g)
  (acc.reverse, g)

/-- Every row of the sweep: frame numbers in order, levels in order within each. -/
def Sweep.rows (s : Sweep) : List Frame :=
  let spread := clampTo 0.0 0.99 s.spread
  let (acc, _) := (List.range s.frames.toNat).foldl (fun (acc, g) i =>
    let (fs, g) := s.rowsOf spread (i + 1).toUInt32 g
    (fs.reverse ++ acc, g)) (([] : List Frame), Random.Stream.ofSeed s.seed)
  acc.reverse

/-- The catalog line of a frame: its number, component count, error and size. -/
def Frame.csvRow (f : Frame) : String :=
  s!"{f.seq},{f.components},{f.error.plainText},{f.size}"

/-- The sweep in the catalog file format. -/
def Sweep.toCsv (s : Sweep) : String :=
  "frame,components,mse,size_bytes\n" ++ String.join (s.rows.map fun f => f.csvRow ++ "\n")

/-- The catalog of the sweep at a level. -/
def Sweep.catalog (s : Sweep) (level : Level) : Except SetupError Catalog :=
  Catalog.ofFrames s.rows level

end XrDelivery
