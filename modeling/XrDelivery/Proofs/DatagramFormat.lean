import Mathlib
import XrDelivery.Proofs.WireCodec

/-!
# The datagram decoder accepts exactly its format

Big-endian bytes of one length are told apart by their value, so writing the value of `n`
bytes back in `n` bytes gives the same bytes. The header's fields are read from fixed offsets
that tile the first 32 bytes, so a header read from a byte list writes those 32 bytes again,
and a datagram read from a byte list writes the whole list again.

Which byte lists are read as a datagram is decided by three of their numbers: the length, the
fragment count at offset 30 and the fragment index at offset 28. The rest of the header is
taken as it stands.
-/
namespace XrDelivery.Wire

theorem valueBE_lt (bs : List UInt8) : valueBE bs < 256 ^ bs.length := by
  induction bs with
  | nil => simp [valueBE]
  | cons b bs ih =>
    rw [valueBE_cons, List.length_cons, pow_succ]
    have hb : b.toNat < 256 := b.toNat_lt
    nlinarith

theorem valueBE_take_lt (bs : List UInt8) (n : Nat) : valueBE (bs.take n) < 256 ^ n :=
  (valueBE_lt _).trans_le (Nat.pow_le_pow_right (by norm_num) (List.length_take_le _ _))

theorem valueBE_cons_div_mod (b : UInt8) (bs : List UInt8) :
    valueBE (b :: bs) / 256 ^ bs.length = b.toNat ∧
      valueBE (b :: bs) % 256 ^ bs.length = valueBE bs := by
  rw [valueBE_cons]
  exact (Nat.div_mod_unique (by positivity)).mpr ⟨by ring, valueBE_lt bs⟩

theorem eq_of_valueBE_eq {bs cs : List UInt8} (hl : bs.length = cs.length)
    (h : valueBE bs = valueBE cs) : bs = cs := by
  induction bs generalizing cs with
  | nil => simpa [eq_comm] using hl
  | cons b bs ih =>
    cases cs with
    | nil => simp at hl
    | cons c cs =>
      have hl' : bs.length = cs.length := by simpa using hl
      have hb := valueBE_cons_div_mod b bs
      have hc := valueBE_cons_div_mod c cs
      rw [h, hl'] at hb
      rw [UInt8.toNat_inj.mp (hb.1.symm.trans hc.1), ih hl' (hb.2.symm.trans hc.2)]

/-- Writing the value of big-endian bytes in as many bytes gives them back. -/
@[simp] theorem bytesBE_valueBE (bs : List UInt8) : bytesBE bs.length (valueBE bs) = bs := by
  apply eq_of_valueBE_eq (length_bytesBE _ _)
  rw [valueBE_bytesBE, Nat.mod_eq_of_lt (valueBE_lt bs)]

theorem bytesBE_valueBE_slice {bs : List UInt8} {start n : Nat} (h : start + n ≤ bs.length) :
    bytesBE n (valueBE ((bs.drop start).take n)) = (bs.drop start).take n := by
  have hlen : ((bs.drop start).take n).length = n := by simp; omega
  have hback := bytesBE_valueBE ((bs.drop start).take n)
  rwa [hlen] at hback

/-- The fields of `h` are the big-endian values of the bytes at their offsets in `bs`: the
frame number at 0, the component count at 4, the error's bits at 8, the frame size at 16, the
sending instant's bits at 20, the fragment index at 28 and the fragment count at 30. -/
structure Header.ReadFrom (h : Header) (bs : List UInt8) : Prop where
  frameNumber : h.frameNumber.toNat = valueBE (bs.take 4)
  components : h.components.toNat = valueBE ((bs.drop 4).take 4)
  errorBits : h.errorBits.toNat = valueBE ((bs.drop 8).take 8)
  frameSize : h.frameSize.toNat = valueBE ((bs.drop 16).take 4)
  sentAtBits : h.sentAtBits.toNat = valueBE ((bs.drop 20).take 8)
  index : h.index.toNat = valueBE ((bs.drop 28).take 2)
  count : h.count.toNat = valueBE ((bs.drop 30).take 2)

theorem Header.read?_isSome_iff (bs : List UInt8) :
    (Header.read? bs).isSome ↔ headerSize ≤ bs.length := by
  unfold Header.read?
  split <;> simp <;> omega

theorem Header.readFrom_of_read? {bs : List UInt8} {h : Header} (hr : Header.read? bs = some h) :
    h.ReadFrom bs := by
  unfold Header.read? at hr
  split at hr
  · cases hr
  · cases hr
    constructor <;> simp <;> exact (valueBE_take_lt _ _).trans_eq (by norm_num)

theorem Header.encode_of_readFrom {bs : List UInt8} {h : Header} (hr : h.ReadFrom bs)
    (hlen : headerSize ≤ bs.length) : h.encode = bs.take headerSize := by
  unfold headerSize at hlen
  have h0 : bytesBE 4 (valueBE (bs.take 4)) = bs.take 4 := by
    simpa using @bytesBE_valueBE_slice bs 0 4 (by omega)
  rw [Header.encode, hr.frameNumber, hr.components, hr.errorBits, hr.frameSize, hr.sentAtBits,
    hr.index, hr.count, h0, bytesBE_valueBE_slice (by omega), bytesBE_valueBE_slice (by omega),
    bytesBE_valueBE_slice (by omega), bytesBE_valueBE_slice (by omega),
    bytesBE_valueBE_slice (by omega), bytesBE_valueBE_slice (by omega)]
  simp only [headerSize, ← List.take_add]

theorem Header.valid_iff (h : Header) :
    h.valid ↔ h.count.toNat ≠ 0 ∧ h.index.toNat < h.count.toNat := by
  simp [Header.valid, UInt16.lt_iff_toNat_lt, ← UInt16.toNat_inj]

/-- A datagram is read from a list that starts with a valid header and has bytes after it. -/
theorem Datagram.decode?_eq_some_iff {bs : List UInt8} {d : Datagram} :
    Datagram.decode? bs = some d ↔
      Header.read? bs = some d.header ∧ d.header.valid ∧ d.payload = bs.drop headerSize ∧
        d.payload ≠ [] := by
  obtain ⟨h, p⟩ := d
  unfold Datagram.decode? Header.decode?
  cases hr : Header.read? bs with
  | none => simp
  | some h' =>
    cases hv : h'.valid with
    | false =>
      simp only [Option.filter_some, hv]
      simp
      rintro rfl
      simp [hv]
    | true =>
      simp only [Option.filter_some, hv, if_true]
      by_cases hp : bs.length ≤ headerSize
      · simp [hp]
        rintro - - rfl
        exact List.drop_eq_nil_of_le hp
      · simp [hp]
        rintro rfl
        constructor
        · rintro rfl
          exact ⟨hv, rfl, by simpa using hp⟩
        · rintro ⟨-, rfl, -⟩
          rfl

theorem Datagram.encode_of_decode? {bs : List UInt8} {d : Datagram}
    (h : Datagram.decode? bs = some d) : d.encode = bs := by
  obtain ⟨hr, -, hp, -⟩ := Datagram.decode?_eq_some_iff.mp h
  have hlen := (Header.read?_isSome_iff bs).mp (by simp [hr])
  rw [Datagram.encode, Header.encode_of_readFrom (Header.readFrom_of_read? hr) hlen, hp,
    List.take_append_drop]

/-- The byte lists read as a datagram: 33 bytes or more, a fragment count that is not zero,
and a fragment index below it. -/
theorem Datagram.decode?_isSome_iff (bs : List UInt8) :
    (Datagram.decode? bs).isSome ↔
      33 ≤ bs.length ∧ valueBE ((bs.drop 30).take 2) ≠ 0 ∧
        valueBE ((bs.drop 28).take 2) < valueBE ((bs.drop 30).take 2) := by
  constructor
  · intro hs
    obtain ⟨d, hd⟩ := Option.isSome_iff_exists.mp hs
    obtain ⟨hr, hv, hp, hne⟩ := Datagram.decode?_eq_some_iff.mp hd
    have hf := Header.readFrom_of_read? hr
    have hlen : headerSize < bs.length := by
      rw [hp] at hne
      simpa using hne
    rw [Header.valid_iff, hf.count, hf.index] at hv
    exact ⟨hlen, hv⟩
  · rintro ⟨hlen, hc, hi⟩
    obtain ⟨h, hr⟩ :=
      Option.isSome_iff_exists.mp ((Header.read?_isSome_iff bs).mpr (by unfold headerSize; omega))
    have hf := Header.readFrom_of_read? hr
    have hv : h.valid := (Header.valid_iff h).mpr (by rw [hf.count, hf.index]; exact ⟨hc, hi⟩)
    have hne : bs.drop headerSize ≠ [] := by simp [headerSize]; omega
    exact Option.isSome_iff_exists.mpr
      ⟨⟨h, bs.drop headerSize⟩, Datagram.decode?_eq_some_iff.mpr ⟨hr, hv, rfl, hne⟩⟩

/-- The decoder accepts exactly the byte lists of its format: 33 bytes or more, a fragment
count that is not zero and an index below it. What it reads is the fields at their offsets and
the bytes after the header as payload, and writing it gives the same bytes back; so every
datagram read has an index below its count and a payload. -/
theorem datagram_decoder_accepts_its_format (bs : List UInt8) :
    ((Datagram.decode? bs).isSome ↔
      33 ≤ bs.length ∧ valueBE ((bs.drop 30).take 2) ≠ 0 ∧
        valueBE ((bs.drop 28).take 2) < valueBE ((bs.drop 30).take 2)) ∧
    ∀ d, Datagram.decode? bs = some d →
      d.header.ReadFrom bs ∧ d.payload = bs.drop headerSize ∧ d.encode = bs ∧
        d.header.index < d.header.count ∧ d.payload ≠ [] := by
  refine ⟨Datagram.decode?_isSome_iff bs, fun d hd => ?_⟩
  obtain ⟨hr, hv, hp, hne⟩ := Datagram.decode?_eq_some_iff.mp hd
  have hlt : d.header.index < d.header.count :=
    UInt16.lt_iff_toNat_lt.mpr ((Header.valid_iff _).mp hv).2
  exact ⟨Header.readFrom_of_read? hr, hp, Datagram.encode_of_decode? hd, hlt, hne⟩

end XrDelivery.Wire
