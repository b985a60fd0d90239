import Mathlib.Data.List.Basic
import Mathlib.Data.String.Basic
import Mathlib.Data.UInt
import Mathlib.Tactic.Ring
import Mathlib.Tactic.Linarith

/-!
# cTCP Segment Codec

The wire segment of `ctcp_sys.h` and the checksum of `ctcp_utils.c`, the two host files
`ctcp.c` is compiled against. Neither is among the sources, so the constants, the header
layout and the checksum below follow the spec (§3, §4.1, §6), and their docstrings say so.

Fields are held in host order. `Segment.bytes` lays them out big-endian, as `htonl` and
`htons` leave them in the buffer that `conn_send` receives and `ctcp_receive` reads back.

## Machine words

`ctcp.c` keeps its counters in `uint32_t`, `uint16_t` and `uint8_t`. They are `UInt32`,
`UInt16` and `UInt8` here. The library gives their arithmetic through `toNat`
(`UInt32.toNat_add`, `UInt32.toNat_sub`, `UInt32.toNat_lt`, with `UInt32.size` unfolded for
`omega`) and their ring laws (`add_assoc`, `sub_self`); §1 adds the conversions from `Nat`
(`UInt32.ofNat`) that the invariant proofs need.
-/

namespace Ctcp

/-! ## §1 Machine words -/

section Words

theorem u32_toNat_ofNat (n : Nat) : (UInt32.ofNat n).toNat = n % 2 ^ 32 :=
  BitVec.toNat_ofNat n 32

theorem u16_toNat_ofNat (n : Nat) : (UInt16.ofNat n).toNat = n % 2 ^ 16 :=
  BitVec.toNat_ofNat n 16

@[simp] theorem u32_toNat_one : (1 : UInt32).toNat = 1 := rfl

theorem u32_ofNat_add (a b : Nat) :
    UInt32.ofNat (a + b) = UInt32.ofNat a + UInt32.ofNat b :=
  UInt32.toNat.inj (by simp only [UInt32.toNat_add, UInt32.size, u32_toNat_ofNat]; omega)

theorem u16_ofNat_add (a b : Nat) :
    UInt16.ofNat (a + b) = UInt16.ofNat a + UInt16.ofNat b :=
  UInt16.toNat.inj (by simp only [UInt16.toNat_add, UInt16.size, u16_toNat_ofNat]; omega)

theorem u16_sub_sub (u : UInt16) (a b : Nat) :
    u - UInt16.ofNat a - UInt16.ofNat b = u - UInt16.ofNat (a + b) := by
  rw [u16_ofNat_add, sub_add_eq_sub_sub]

theorem u16_toNat_add_ofNat {u : UInt16} {n : Nat} (h : u.toNat + n < 2 ^ 16) :
    (u + UInt16.ofNat n).toNat = u.toNat + n := by
  simp only [UInt16.toNat_add, UInt16.size, u16_toNat_ofNat]; omega

theorem u16_toNat_sub_ofNat {u : UInt16} {n : Nat} (h : n ≤ u.toNat) :
    (u - UInt16.ofNat n).toNat = u.toNat - n := by
  have := UInt16.toNat_lt u
  simp only [UInt16.toNat_sub, UInt16.size, u16_toNat_ofNat]; omega

theorem u32_toNat_add_ofNat {u : UInt32} {n : Nat} (h : u.toNat + n < 2 ^ 32) :
    (u + UInt32.ofNat n).toNat = u.toNat + n := by
  simp only [UInt32.toNat_add, UInt32.size, u32_toNat_ofNat]; omega

@[simp] theorem u8_toNat_zero : (0 : UInt8).toNat = 0 := rfl

theorem u8_toNat_one : (1 : UInt8).toNat = 1 := rfl

theorem u32_le_iff (a b : UInt32) : a ≤ b ↔ a.toNat ≤ b.toNat := Iff.rfl

theorem u32_lt_iff (a b : UInt32) : a < b ↔ a.toNat < b.toNat := Iff.rfl

@[simp] theorem u16_toNat_toUInt32 (a : UInt16) : a.toUInt32.toNat = a.toNat := rfl

end Words

/-! ## §2 Host constants -/

/-- Modelled from the spec: `MAX_SEG_DATA_SIZE` of `ctcp_sys.h`, at the value the spec's
scenarios fix (§8). -/
def MAX_SEG_DATA_SIZE : Nat := 1000

/-- Modelled from the spec: `sizeof(ctcp_segment_t)`, the six header fields of §3
(4 + 4 + 2 + 2 + 4 + 2 bytes) with the payload following at once. -/
def headerSize : Nat := 18

/-- Modelled from the spec: the `FIN` bit of the host header's flags (§6, bit `0x1`). -/
def FIN : UInt32 := 1

/-- Modelled from the spec: the `ACK` bit of the host header's flags (§6, bit `0x2`). -/
def ACK : UInt32 := 2

/-! ## §3 Segments -/

/-- `ctcp_segment_t`, its fields in host order, followed by the payload. -/
structure Segment where
  seqno : UInt32
  ackno : UInt32
  /-- Total length, header and payload, as the sender declares it. -/
  len : UInt16
  cksum : UInt16
  flags : UInt32
  /-- Advertised receive window. -/
  window : UInt16
  data : List UInt8
deriving DecidableEq, Repr

/-- Big-endian bytes of a 16-bit field (`htons`). -/
def be16 (x : UInt16) : List UInt8 := [(x >>> 8).toUInt8, x.toUInt8]

/-- Big-endian bytes of a 32-bit field (`htonl`). -/
def be32 (x : UInt32) : List UInt8 :=
  [(x >>> 24).toUInt8, (x >>> 16).toUInt8, (x >>> 8).toUInt8, x.toUInt8]

/-- The bytes of a segment on the wire: the header, big-endian, then the payload. -/
def Segment.bytes (s : Segment) : List UInt8 :=
  be32 s.seqno ++ be32 s.ackno ++ be16 s.len ++ be16 s.cksum ++ be32 s.flags ++
    be16 s.window ++ s.data

@[simp] theorem Segment.bytes_length (s : Segment) :
    s.bytes.length = headerSize + s.data.length := by
  simp only [Segment.bytes, be32, be16, List.length_append, List.length_cons, List.length_nil,
    headerSize]

/-! ## §4 Checksum -/

/-- The buffer read as big-endian 16-bit words, an odd last byte padded with zero. -/
def words : List UInt8 → List Nat
  | [] => []
  | [a] => [a.toNat * 256]
  | a :: b :: rest => (a.toNat * 256 + b.toNat) :: words rest

/-- One's-complement addition of two 16-bit values: the carry out of bit 15 is added
back in. -/
def onesAdd (a b : Nat) : Nat := if a + b < 65536 then a + b else a + b - 65535

/-- Modelled from the spec: `cksum` of `ctcp_utils.c`, "the internet-style 16-bit
one's-complement checksum" (§1, §4.1): the complement of the one's-complement sum of the
buffer's 16-bit words. -/
def cksum (bytes : List UInt8) : UInt16 :=
  UInt16.ofNat (65535 - (words bytes).foldl onesAdd 0)

/-- What an encoder puts on the wire: the checksum field computed over the segment with
that field zeroed (`ctcp_send_flags`, `ctcp_send_data_segment`). -/
def Segment.seal (s : Segment) : Segment :=
  { s with cksum := Ctcp.cksum { s with cksum := 0 }.bytes }

@[simp] theorem Segment.seal_seqno (s : Segment) : s.seal.seqno = s.seqno := by
  simp only [Segment.seal]
@[simp] theorem Segment.seal_ackno (s : Segment) : s.seal.ackno = s.ackno := by
  simp only [Segment.seal]
@[simp] theorem Segment.seal_len (s : Segment) : s.seal.len = s.len := by
  simp only [Segment.seal]
@[simp] theorem Segment.seal_flags (s : Segment) : s.seal.flags = s.flags := by
  simp only [Segment.seal]
@[simp] theorem Segment.seal_data (s : Segment) : s.seal.data = s.data := by
  simp only [Segment.seal]
@[simp] theorem Segment.seal_window (s : Segment) : s.seal.window = s.window := by
  simp only [Segment.seal]

/-- The check `ctcp_receive` makes on a datagram of `len` bytes: the declared length is the
received length, and the checksum recomputed with the field zeroed matches. -/
def Segment.verifies (s : Segment) : Bool :=
  s.bytes.length == s.len.toNat && s.cksum == Ctcp.cksum { s with cksum := 0 }.bytes

/-- A sealed segment whose declared length is its size passes the receiver's check: a carrier
that does not corrupt never makes `ctcp_receive` drop a segment an engine sent. -/
theorem Segment.seal_verifies (s : Segment) (hlen : s.len.toNat = headerSize + s.data.length) :
    s.seal.verifies = true := by
  simp [Segment.verifies, Segment.seal, hlen]

/-! ## §5 Flags -/

/-- `Segment_type`: how `ctcp_receive` classifies a segment by its flags. -/
inductive SegmentType where
  | DATA_SEG
  | ACK_SEG
  | FIN_WITH_ACK
  | FIN_WITH_NO_ACK
deriving DecidableEq, Repr

/-- The classification of `ctcp_receive`: FIN first, then ACK, else data. -/
def segmentType (flags : UInt32) : SegmentType :=
  if flags &&& FIN != 0 then
    if flags &&& ACK != 0 then .FIN_WITH_ACK else .FIN_WITH_NO_ACK
  else if flags &&& ACK != 0 then .ACK_SEG
  else .DATA_SEG

@[simp] theorem segmentType_zero : segmentType 0 = .DATA_SEG := by decide

@[simp] theorem segmentType_FIN : segmentType FIN = .FIN_WITH_NO_ACK := by decide

@[simp] theorem segmentType_ACK : segmentType ACK = .ACK_SEG := by decide

end Ctcp
