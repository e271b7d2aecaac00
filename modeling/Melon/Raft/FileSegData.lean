/-
Melon.Raft.FileSegData — the model of `FileSegData`
(`src/unnamed/part_006`), the buffer that carries pieces of a file as
segments, each behind a 12-byte header of its offset and length.

* `HeaderCodec` — `RawPacker(buf).pack64(offset).pack32(len)` and the
  `RawUnpacker` that reads it back. `mutil::RawPacker` is not among the
  sources, so the codec is a parameter: 12 bytes, read back as written.
  `HeaderCodec.network` packs in network byte order.
* `FileSegData` — `_data` as its bytes, `_seg_header` as the position of
  the area `reserve` gave, `_seg_offset`, `_seg_len`.
* `FileSegData.appendBuf`, `FileSegData.appendRaw` — the two `append`s,
  which differ only in where the bytes and the length come from
  (`appendPiece`); `FileSegData.close`.
* `next`, `nextAll` — one `next(&offset, &data)`, and calls of it until
  `_data` is empty.

`_data.reserve(12)` gives 12 bytes nobody has written: `junk p` is what
they hold when the area starts at byte `p`. `unsafe_assign` overwrites
the area in place. A failed `CHECK` is `none`.
-/
import Mathlib.Data.List.Basic
import Mathlib.Tactic.Ring

namespace Melon.Raft

/-- `pack64(offset).pack32(len)` into a 12-byte header, and the unpacking
of one; what is packed unpacks to itself. -/
structure HeaderCodec where
  pack : UInt64 → UInt32 → List UInt8
  unpack : List UInt8 → UInt64 × UInt32
  length_pack : ∀ o l, (pack o l).length = 12
  unpack_pack : ∀ o l, unpack (pack o l) = (o, l)

/-- The `n` low bytes of `v`, most significant first. -/
def bytesBE : Nat → Nat → List UInt8
  | 0, _ => []
  | n + 1, v => UInt8.ofNat (v / 256 ^ n) :: bytesBE n v

/-- The value of bytes, most significant first. -/
def valueBE (bs : List UInt8) : Nat :=
  bs.foldl (fun v b => 256 * v + b.toNat) 0

theorem length_bytesBE (n v : Nat) : (bytesBE n v).length = n := by
  induction n with
  | zero => rfl
  | succ n ih => simp [bytesBE, ih]

theorem foldl_bytesBE (n v acc : Nat) :
    (bytesBE n v).foldl (fun a b => 256 * a + b.toNat) acc = acc * 256 ^ n + v % 256 ^ n := by
  induction n generalizing acc with
  | zero => simp [bytesBE, Nat.mod_one]
  | succ n ih =>
    have hb : (UInt8.ofNat (v / 256 ^ n)).toNat = v / 256 ^ n % 256 := BitVec.toNat_ofNat _ _
    rw [bytesBE, List.foldl_cons, ih, hb, Nat.mod_pow_succ, pow_succ]
    ring

theorem valueBE_bytesBE (n v : Nat) : valueBE (bytesBE n v) = v % 256 ^ n := by
  rw [valueBE, foldl_bytesBE, Nat.zero_mul, Nat.zero_add]

/-- Network byte order: the eight bytes of the offset, then the four of
the length, most significant first. -/
def HeaderCodec.network : HeaderCodec where
  pack o l := bytesBE 8 o.toNat ++ bytesBE 4 l.toNat
  unpack bs := (UInt64.ofNat (valueBE (bs.take 8)), UInt32.ofNat (valueBE ((bs.drop 8).take 4)))
  length_pack o l := by simp [length_bytesBE]
  unpack_pack o l := by
    have h8 := length_bytesBE 8 o.toNat
    have h4 := length_bytesBE 4 l.toNat
    dsimp only
    have ho : o.toNat % 256 ^ 8 = o.toNat := Nat.mod_eq_of_lt o.toNat_lt_size
    have hl : l.toNat % 256 ^ 4 = l.toNat := Nat.mod_eq_of_lt l.toNat_lt_size
    rw [List.take_left' h8, List.drop_left' h8, List.take_of_length_le h4.le, valueBE_bytesBE,
      valueBE_bytesBE, ho, hl]
    exact Prod.ext (UInt64.toNat.inj ((BitVec.toNat_ofNat _ _).trans ho))
      (UInt32.toNat.inj ((BitVec.toNat_ofNat _ _).trans hl))

/-- A `FileSegData`. -/
structure FileSegData where
  /-- `_data`. -/
  data : List UInt8
  /-- `_seg_header`: where the area of the last segment's header starts. -/
  segHeader : Nat
  /-- `_seg_offset`. -/
  segOffset : UInt64
  /-- `_seg_len`. -/
  segLen : UInt32
  deriving DecidableEq, Repr

/-- `_data.unsafe_assign(area, bytes)`: the bytes of the area replaced. -/
def unsafeAssign (d : List UInt8) (area : Nat) (bytes : List UInt8) : List UInt8 :=
  d.take area ++ bytes ++ d.drop (area + bytes.length)

namespace FileSegData

/-- A new `FileSegData`, whose declaration is not among the sources:
`_data` empty, and `_seg_offset` and `_seg_len` 0, as `close()` leaves
them. -/
def empty : FileSegData := ⟨[], 0, 0, 0⟩

variable (codec : HeaderCodec) (junk : Nat → List UInt8) (s : FileSegData)

/-- "close last segment": `if (_seg_len > 0)` its offset and length are
packed into the area `_seg_header`. -/
def closeSegment : List UInt8 :=
  if s.segLen > 0 then unsafeAssign s.data s.segHeader (codec.pack s.segOffset s.segLen) else s.data

/-- The body of both `append`s: `bytes` go to `_data`, `len` to
`_seg_len`. -/
def appendPiece (bytes : List UInt8) (offset : UInt64) (len : UInt32) : FileSegData :=
  if s.segOffset ≠ 0 ∧ offset = s.segOffset + s.segLen.toUInt64 then
    -- append to last segment
    { s with segLen := s.segLen + len, data := s.data ++ bytes }
  else
    -- close last segment, start a new one behind a reserved header
    let d := s.closeSegment codec
    ⟨d ++ junk d.length ++ bytes, d.length, offset, len⟩

/-- `append(const IOBuf& data, uint64_t offset)`: `uint32_t len =
data.size()`. -/
def appendBuf (data : List UInt8) (offset : UInt64) : FileSegData :=
  s.appendPiece codec junk data offset (UInt32.ofNat data.length)

/-- `append(void* data, uint64_t offset, uint32_t len)`: the `len` bytes
at `data`. -/
def appendRaw (data : List UInt8) (offset : UInt64) (len : UInt32) : FileSegData :=
  s.appendPiece codec junk (data.take len.toNat) offset len

/-- `close()`. -/
def close : FileSegData :=
  { s with data := s.closeSegment codec, segOffset := 0, segLen := 0 }

end FileSegData

/-- A call of `append`. -/
inductive SegAppend
  /-- `append(data, offset)` with an `IOBuf`. -/
  | buf (data : List UInt8) (offset : UInt64)
  /-- `append(data, offset, len)` with a pointer to `data`. -/
  | raw (data : List UInt8) (offset : UInt64) (len : UInt32)
  deriving DecidableEq, Repr

namespace FileSegData

variable (codec : HeaderCodec) (junk : Nat → List UInt8)

/-- One call of `append`. -/
def apply (s : FileSegData) : SegAppend → FileSegData
  | .buf data offset => s.appendBuf codec junk data offset
  | .raw data offset len => s.appendRaw codec junk data offset len

/-- Calls of `append`, in order. -/
def run (s : FileSegData) (ops : List SegAppend) : FileSegData :=
  ops.foldl (apply codec junk) s

end FileSegData

variable (codec : HeaderCodec)

/-- `next(&offset, &data)` on `_data = d`: `some (none, d)` when it
returns 0 on an empty `_data` without writing `offset`; otherwise the
offset and bytes of the segment it cut, and the `_data` left. It
returns the length of those bytes. -/
def next (d : List UInt8) : Option (Option (UInt64 × List UInt8) × List UInt8) :=
  if d.length = 0 then some (none, d)
  else if d.length < 12 then none
  else
    let h := codec.unpack (d.take 12)
    let body := (d.drop 12).take h.2.toNat
    if body.length = h.2.toNat then some (some (h.1, body), (d.drop 12).drop h.2.toNat) else none

/-- `next` called until it finds `_data` empty, at most `fuel` times:
the segments it gave. -/
def nextAll : Nat → List UInt8 → Option (List (UInt64 × List UInt8))
  | 0, _ => none
  | fuel + 1, d =>
    match next codec d with
    | some (some seg, rest) => (nextAll fuel rest).map (seg :: ·)
    | some (none, _) => some []
    | none => none

end Melon.Raft
