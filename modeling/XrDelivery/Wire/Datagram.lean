import XrDelivery.Wire.Header
/-!
# Datagrams

A datagram is a fragment header followed by a payload of at least one byte. The sender fills
the payload with as many zero bytes as the fragment carries; the receiver needs only its
length, so `Datagram.toFragment` reads the payload size off the bytes that arrived.

`Datagram.decode?` accepts exactly the byte lists that start with a valid header and carry
at least one byte after it.
-/
namespace XrDelivery.Wire

/-- A header and the payload bytes behind it. -/
structure Datagram where
  header : Header
  payload : List UInt8

/-- The datagram of a fragment: its header and a zero payload of the fragment's size. -/
def Datagram.ofFragment (f : Fragment) : Datagram :=
  ⟨Header.ofFragment f, List.replicate f.payload.toNat 0⟩

/-- The fragment a datagram stands for; its payload size is the payload's length. -/
def Datagram.toFragment (d : Datagram) : Fragment :=
  { frameSeq := d.header.frameNumber, index := d.header.index, count := d.header.count,
    payload := d.payload.length.toUInt32, sentAt := d.header.sentAt,
    components := d.header.components, error := d.header.error,
    frameSize := d.header.frameSize }

/-- The bytes on the wire: header, then payload. -/
def Datagram.encode (d : Datagram) : List UInt8 := d.header.encode ++ d.payload

/-- The size of the encoded datagram. -/
def Datagram.encodedLength (d : Datagram) : Nat := headerSize + d.payload.length

/-- Read a datagram: a valid header and a payload that is not empty. -/
def Datagram.decode? (bs : List UInt8) : Option Datagram :=
  match Header.decode? bs with
  | none => none
  | some h =>
    let payload := bs.drop headerSize
    if payload.isEmpty then none else some ⟨h, payload⟩

end XrDelivery.Wire
