import Mathlib
import XrDelivery.Wire.Datagram

/-!
# The datagram codec reads back what it writes

A double crosses the wire as its 64 bits. Every double of the logic has a canonical bit
pattern (its NaN is the one canonical NaN), so `Float.ofBits` inverts `Float.toBits`; the
proof unpacks the pattern into sign, exponent and mantissa and packs it again, one case per
class of double.

The header's fields are written as big-endian byte groups and read back from the same
offsets, so reading the front of `h.encode ++ rest` gives `h` back whatever follows. A
datagram of a fragment with a positive count, an index below it and a non-empty payload
therefore decodes to a datagram that stands for the same fragment.
-/
namespace XrDelivery

section Doubles

open Float.Model UnpackedFloat

private abbrev binary64 : Format := Format.binary64

theorem packComponents_unpack_fields (b : BitVec 64) :
    packComponents binary64 (Sign.ofBitVec (@unpackSign binary64 b))
      (@unpackExponent binary64 b) (@unpackMantissa binary64 b) = b := by
  have hsign : (Sign.ofBitVec (@unpackSign binary64 b)).toBitVec =
      @unpackSign binary64 b := by
    unfold Sign.ofBitVec
    split
    · simp_all [Sign.toBitVec]
    · simp only [Sign.toBitVec]; bv_omega
  simp only [packComponents, hsign]
  ext i hi
  simp only [unpackSign, unpackExponent, unpackMantissa, Format.numBits, BitVec.getElem_append]
  -- bits 0-51 are the mantissa, 52-62 the exponent, 63 the sign
  by_cases hm : i < 52
  · simp [hm, BitVec.getLsbD_eq_getElem hi]
  · by_cases he : i - 52 < 11
    · simp [hm, he, show 52 + (i - 52) = i by omega, BitVec.getLsbD_eq_getElem hi]
    · simp [hm, he, show 63 + (i - 52 - 11) = i by omega, BitVec.getLsbD_eq_getElem hi]

theorem pack_unpack_binary64 (b : BitVec 64) (hv : binary64.Valid b) :
    UnpackedFloat.pack binary64 (UnpackedFloat.unpack binary64 b) = b := by
  have hbias : binary64.exponentBias = 1023 := by decide
  have hbits : binary64.mantissaBits = 53 := by decide
  have hm52 : (@unpackMantissa binary64 b).toNat < 2 ^ 52 :=
    (@unpackMantissa binary64 b).isLt
  have he11 : (@unpackExponent binary64 b).toNat < 2 ^ 11 :=
    (@unpackExponent binary64 b).isLt
  unfold UnpackedFloat.unpack
  simp only
  split
  · rename_i htop
    split
    · rename_i hm
      conv => rhs; rw [← packComponents_unpack_fields b]
      simp [UnpackedFloat.pack, packedInfinity, htop, hm]
    · rename_i hm
      simp [UnpackedFloat.pack, hv.eq_packedNaN htop hm]
  · rename_i htop
    split
    · rename_i hzero
      split
      · rename_i hm
        conv => rhs; rw [← packComponents_unpack_fields b]
        simp [UnpackedFloat.pack, packedZero, hzero, hm]
      · rename_i hm
        have hpos : (@unpackMantissa binary64 b).toNat ≠ 0 := by
          intro h; exact hm (BitVec.eq_of_toNat_eq (by simpa using h))
        have hlog : (@unpackMantissa binary64 b).toNat.log2 < 52 :=
          (Nat.log2_lt hpos).2 hm52
        conv => rhs; rw [← packComponents_unpack_fields b]
        simp [UnpackedFloat.pack, hzero, hbias, hbits]
        omega
    · rename_i hzero
      have hpos : (@unpackExponent binary64 b).toNat ≠ 0 := by
        intro h; exact hzero (BitVec.eq_of_toNat_eq (by simpa using h))
      have hnotop : (@unpackExponent binary64 b).toNat ≠ 2047 := by
        intro h; exact htop (BitVec.eq_of_toNat_eq (by simpa using h))
      have hval : (1#1 ++ @unpackMantissa binary64 b).toNat =
          2 ^ 52 + (@unpackMantissa binary64 b).toNat := by
        rw [BitVec.toNat_append, ← Nat.shiftLeft_add_eq_or_of_lt hm52, Nat.shiftLeft_eq]
        simp
      have hlog : (1#1 ++ @unpackMantissa binary64 b).toNat.log2 = 52 := by
        rw [hval]
        exact (Nat.log2_eq_iff (by omega)).2 ⟨by omega, by omega⟩
      have hlow : BitVec.setWidth 52 (1#1 ++ @unpackMantissa binary64 b) =
          @unpackMantissa binary64 b := by
        apply BitVec.eq_of_toNat_eq
        simp [hval]
        omega
      have hexp : BitVec.ofNat 11
          ((@unpackExponent binary64 b).toNat - 1075 + 1023 + 52 : Int).toNat =
          @unpackExponent binary64 b := by
        apply BitVec.eq_of_toNat_eq
        simp
        omega
      have hfinite : ¬ 2047 ≤
          ((@unpackExponent binary64 b).toNat - 1075 + 1023 + 52 : Int).toNat := by
        omega
      conv => rhs; rw [← packComponents_unpack_fields b]
      simp only [UnpackedFloat.pack, hbias, hbits]
      simp [hlog, hlow, hexp, hfinite]

/-- A double read back from its bits is the same double. -/
@[simp] theorem ofBits_toBits (x : Float) : Float.ofBits x.toBits = x := by
  obtain ⟨⟨bits, hv⟩⟩ := x
  simp only [Float.ofBits, Float.toBits, Float.Model.ofBits, Float.Model.pack,
    pack_unpack_binary64 _ hv]

end Doubles

namespace Wire

theorem bytesBE_succ (n v : Nat) :
    bytesBE (n + 1) v = (v / 256 ^ n % 256).toUInt8 :: bytesBE n v := by
  simp [bytesBE, List.range_succ]

theorem foldl_valueBE (acc : Nat) (bs : List UInt8) :
    bs.foldl (fun acc b => acc * 256 + b.toNat) acc = acc * 256 ^ bs.length + valueBE bs := by
  induction bs generalizing acc with
  | nil => simp [valueBE]
  | cons b bs ih =>
    simp only [List.foldl_cons, valueBE, List.length_cons]
    rw [ih, ih (0 * 256 + b.toNat), pow_succ]
    ring

theorem valueBE_cons (b : UInt8) (bs : List UInt8) :
    valueBE (b :: bs) = b.toNat * 256 ^ bs.length + valueBE bs := by
  conv_lhs => rw [valueBE, List.foldl_cons, foldl_valueBE]
  simp

/-- The big-endian bytes of `v` read back as `v` modulo the width. -/
@[simp] theorem valueBE_bytesBE (n v : Nat) : valueBE (bytesBE n v) = v % 256 ^ n := by
  induction n with
  | zero => simp [bytesBE, valueBE, Nat.mod_one]
  | succ n ih =>
    rw [bytesBE_succ, valueBE_cons, ih, length_bytesBE, pow_succ, Nat.mod_mul]
    simp
    ring

/-- The fields read from the front of an encoded header are the header's, whatever follows. -/
@[simp] theorem Header.read?_encode_append (h : Header) (rest : List UInt8) :
    Header.read? (h.encode ++ rest) = some h := by
  simp [Header.read?, Header.encode, headerSize, List.drop_append, List.drop_eq_nil_of_le]
  omega

theorem Header.decode?_encode_append (h : Header) (hv : h.valid) (rest : List UInt8) :
    Header.decode? (h.encode ++ rest) = some h := by
  simp [Header.decode?, hv]

theorem Datagram.decode?_encode (d : Datagram) (hv : d.header.valid) (hp : d.payload ≠ []) :
    Datagram.decode? d.encode = some d := by
  simp only [Datagram.decode?, Datagram.encode, Header.decode?_encode_append _ hv]
  have hdrop : (d.header.encode ++ d.payload).drop headerSize = d.payload := by
    simp
  simp [hdrop, hp]

/-- The fragment a fragment's datagram stands for is the fragment itself. -/
@[simp] theorem Datagram.toFragment_ofFragment (f : Fragment) :
    (Datagram.ofFragment f).toFragment = f := by
  simp [Datagram.toFragment, Datagram.ofFragment, Header.ofFragment, Header.sentAt,
    Header.error]

theorem decode?_encode_ofFragment (f : Fragment) (hc : f.count ≠ 0) (hi : f.index < f.count)
    (hp : f.payload ≠ 0) :
    (Datagram.decode? (Datagram.ofFragment f).encode).map Datagram.toFragment = some f := by
  have hv : (Datagram.ofFragment f).header.valid := (Header.valid_ofFragment f).2 ⟨hc, hi⟩
  have hne : (Datagram.ofFragment f).payload ≠ [] := by
    have : f.payload.toNat ≠ 0 := fun h => hp (UInt32.toNat_inj.mp (by simpa using h))
    simpa [Datagram.ofFragment] using this
  simp [Datagram.decode?_encode _ hv hne]

/-- A fragment with a positive count, an index below it and a payload travels as 32 header
bytes and its payload bytes, and is read back as the same fragment, its doubles bit for bit. A
valid header alone is read back as itself, whatever bits its two doubles carry. -/
theorem datagram_round_trip :
    (∀ f : Fragment, f.count ≠ 0 → f.index < f.count → f.payload ≠ 0 →
      (Datagram.ofFragment f).encode.length = headerSize + f.payload.toNat ∧
        ∃ d, Datagram.decode? (Datagram.ofFragment f).encode = some d ∧ d.toFragment = f) ∧
    ∀ h : Header, h.count ≠ 0 → h.index < h.count → Header.decode? h.encode = some h := by
  refine ⟨fun f hc hi hp => ⟨?_, ?_⟩, fun h hc hi => ?_⟩
  · simp [Datagram.encode, Datagram.ofFragment]
  · obtain ⟨d, hd, hfd⟩ := Option.map_eq_some_iff.mp (decode?_encode_ofFragment f hc hi hp)
    exact ⟨d, hd, hfd⟩
  · have hv : h.valid := by simp [Header.valid, hc, hi]
    simpa using Header.decode?_encode_append h hv []

/-- A fragment whose error is the negative zero and whose sending instant is NaN. -/
def signedZeroFragment : Fragment :=
  { frameSeq := 42, index := 1, count := 3, payload := 100, sentAt := 0.0 / 0.0,
    components := 15, error := -0.0, frameSize := 250 }

theorem signedZeroFragment_round_trip :
    (signedZeroFragment.count ≠ 0 ∧ signedZeroFragment.index < signedZeroFragment.count ∧
        signedZeroFragment.payload ≠ 0) ∧
      (Datagram.ofFragment signedZeroFragment).encode.length =
          headerSize + signedZeroFragment.payload.toNat ∧
        ∃ d, Datagram.decode? (Datagram.ofFragment signedZeroFragment).encode = some d ∧
          d.toFragment = signedZeroFragment :=
  ⟨⟨by decide, by decide, by decide⟩,
    datagram_round_trip.1 signedZeroFragment (by decide) (by decide) (by decide)⟩

end Wire

end XrDelivery
