import XrDelivery.Frame
/-!
# The fragment header

Every datagram starts with a 32-byte header, all fields big-endian: the frame number, the
component count, the reconstruction error (the 64 bits of the double), the frame size, the
instant the frame was sent (64 bits), the fragment index and the fragment count (16 bits
each).

`Header.encode` writes the 32 bytes; `Header.decode?` reads them back from the front of a
byte list and refuses a list shorter than 32 bytes, a count of zero and an index that is not
below the count.
-/
namespace XrDelivery.Wire

/-- The bytes of a header on the wire. -/
def headerSize : Nat := 32

/-- The fields of a fragment header. The two doubles travel as their bits, so NaN payloads
and the sign of zero survive the trip. -/
structure Header where
  frameNumber : UInt32
  components : UInt32
  errorBits : UInt64
  frameSize : UInt32
  sentAtBits : UInt64
  index : UInt16
  count : UInt16
deriving DecidableEq, Repr

/-- The big-endian bytes of the low `n` bytes of `v`. -/
def bytesBE (n : Nat) (v : Nat) : List UInt8 :=
  (List.range n).reverse.map fun i => (v / Nat.pow 256 i % 256).toUInt8

@[simp] theorem length_bytesBE (n v : Nat) : (bytesBE n v).length = n := by
  simp [bytesBE]

/-- The value of big-endian bytes. -/
def valueBE (bs : List UInt8) : Nat := bs.foldl (fun acc b => acc * 256 + b.toNat) 0

/-- The 32 bytes of a header. -/
def Header.encode (h : Header) : List UInt8 :=
  bytesBE 4 h.frameNumber.toNat ++ bytesBE 4 h.components.toNat ++ bytesBE 8 h.errorBits.toNat ++
    bytesBE 4 h.frameSize.toNat ++ bytesBE 8 h.sentAtBits.toNat ++ bytesBE 2 h.index.toNat ++
    bytesBE 2 h.count.toNat

@[simp] theorem Header.length_encode (h : Header) : h.encode.length = headerSize := by
  simp [Header.encode, headerSize]

/-- The fields of the first 32 bytes, whatever their values. -/
def Header.read? (bs : List UInt8) : Option Header :=
  if bs.length < headerSize then none
  else
    let field (start len : Nat) : Nat := valueBE ((bs.drop start).take len)
    some { frameNumber := (field 0 4).toUInt32, components := (field 4 4).toUInt32,
           errorBits := (field 8 8).toUInt64, frameSize := (field 16 4).toUInt32,
           sentAtBits := (field 20 8).toUInt64, index := (field 28 2).toUInt16,
           count := (field 30 2).toUInt16 }

/-- The header names a fragment that can exist: a positive count and an index below it. -/
def Header.valid (h : Header) : Bool := h.count != 0 && h.index < h.count

/-- The header at the front of the bytes, if there are 32 of them and they name a fragment
that can exist. -/
def Header.decode? (bs : List UInt8) : Option Header :=
  (Header.read? bs).filter Header.valid

/-- The reconstruction error the header carries. -/
def Header.error (h : Header) : Float := Float.ofBits h.errorBits

/-- The sending instant the header carries. -/
def Header.sentAt (h : Header) : Float := Float.ofBits h.sentAtBits

/-- The header of a fragment. -/
def Header.ofFragment (f : Fragment) : Header :=
  { frameNumber := f.frameSeq, components := f.components, errorBits := f.error.toBits,
    frameSize := f.frameSize, sentAtBits := f.sentAt.toBits, index := f.index,
    count := f.count }

theorem Header.valid_ofFragment (f : Fragment) :
    (Header.ofFragment f).valid ↔ f.count ≠ 0 ∧ f.index < f.count := by
  simp only [Header.valid, Header.ofFragment, Bool.and_eq_true, bne_iff_ne, ne_eq]
  exact and_congr_right fun _ => decide_eq_true_iff

end XrDelivery.Wire
