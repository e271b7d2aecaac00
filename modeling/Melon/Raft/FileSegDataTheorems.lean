/-
Melon.Raft.FileSegDataTheorems — what `next()` gives back from a
`FileSegData` built by `append`s and `close()`.

* `coalesce` — the segments the pieces make: a piece joins the last
  segment exactly when that segment's offset is not 0 and the piece
  starts where the segment ends.
* `encode` — the buffer those segments should make: each segment behind
  the header of its offset and length.
* `FileSegData.Tracks` — how the state of `FileSegData` stands for the
  segments so far: the closed ones encoded, then the reserved area, then
  the bytes of the open one, with `_seg_offset` and `_seg_len` its own.
* `next_returns_each_segment` — when every segment is non-empty, shorter
  than 2^32 bytes and ends below 2^64, `next()` returns the segments in
  order, then 0.
* `zero_length_segment_header_unwritten` — a segment of length 0 keeps
  the bytes its reserved header held, and `next()` reads them as a
  header.

## How the proof goes

`Tracks.appendPiece` is the step: both branches of `append` keep
`Tracks`, given the bounds of the segment left open and that a segment
closed is not empty (`closeSegment_of_tracks` writes its header). The
bounds of the open segment come from those of the segment it grows into
(`cur_sub_final`), and a closed segment is a final one
(`closed_sub_final`). `Tracks.run` is the induction over the calls,
`close_of_tracks` the last header, and `nextAll_encode` reads the
encoded segments back one header at a time.

`if (_seg_len > 0)` is the slip: it is meant to skip the state before
the first segment, but it also skips a segment of length 0, whose
reserved header stays as `reserve` left it.
-/
import Melon.Raft.FileSegData

namespace Melon.Raft

/-! ## 1. The segments the pieces make -/

/-- A piece or a segment: its offset and its bytes. -/
abbrev Piece := UInt64 × List UInt8

/-- One piece: it joins the open segment when that segment's offset is
not 0 and the piece starts where the segment ends; otherwise the open
segment is closed and the piece opens the next. -/
def coalesceStep : List Piece × Option Piece → Piece → List Piece × Option Piece
  | (closed, none), p => (closed, some p)
  | (closed, some (o, b)), (o', b') =>
    if o ≠ 0 ∧ o'.toNat = o.toNat + b.length then (closed, some (o, b ++ b'))
    else (closed ++ [(o, b)], some (o', b'))

/-- The closed segments and the open one. -/
def segmentsOf (st : List Piece × Option Piece) : List Piece := st.1 ++ st.2.toList

/-- The segments of the pieces, in order. -/
def coalesce (pieces : List Piece) : List Piece :=
  segmentsOf (pieces.foldl coalesceStep ([], none))

/-- Each segment behind the header of its offset and length. -/
def encode (codec : HeaderCodec) : List Piece → List UInt8
  | [] => []
  | (o, b) :: segs => codec.pack o (UInt32.ofNat b.length) ++ b ++ encode codec segs

/-- The offset and the bytes a call appends. -/
def SegAppend.piece : SegAppend → Piece
  | .buf data offset => (offset, data)
  | .raw data offset len => (offset, data.take len.toNat)

/-- What a call adds to `_seg_len`. -/
def SegAppend.len : SegAppend → UInt32
  | .buf data _ => UInt32.ofNat data.length
  | .raw _ _ len => len

theorem closed_sub_final {seg : Piece} : ∀ (ps : List Piece) {st : List Piece × Option Piece},
    seg ∈ st.1 → seg ∈ segmentsOf (ps.foldl coalesceStep st)
  | [], _, h => List.mem_append_left _ h
  | p :: ps, (closed, cur), h => by
    refine closed_sub_final ps ?_
    rcases cur with _ | ⟨o, b⟩
    · exact h
    · simp only [coalesceStep]
      split_ifs
      · exact h
      · exact List.mem_append_left _ h

/-- The open segment grows into a segment of the end. -/
theorem cur_sub_final : ∀ (ps closed : List Piece) (o : UInt64) (b : List UInt8),
    ∃ x, (o, b ++ x) ∈ segmentsOf (ps.foldl coalesceStep (closed, some (o, b)))
  | [], _, _, _ => ⟨[], by simp [segmentsOf]⟩
  | (o', b') :: ps, closed, o, b => by
    simp only [List.foldl_cons, coalesceStep]
    split_ifs
    · obtain ⟨x, hx⟩ := cur_sub_final ps closed o (b ++ b')
      exact ⟨b' ++ x, by simpa using hx⟩
    · exact ⟨[], by simpa using closed_sub_final ps (by simp)⟩

theorem encode_append (codec : HeaderCodec) (segs : List Piece) (o : UInt64) (b : List UInt8) :
    encode codec (segs ++ [(o, b)]) = encode codec segs ++ (codec.pack o (UInt32.ofNat b.length) ++ b) := by
  induction segs with
  | nil => simp [encode]
  | cons seg segs ih => obtain ⟨o', b'⟩ := seg; simp [encode, ih]

/-- `unsafe_assign` into an area reserved at the end of `E`. -/
theorem unsafeAssign_reserved (E J H b : List UInt8) (hJ : J.length = H.length) :
    unsafeAssign (E ++ J ++ b) E.length H = E ++ H ++ b := by
  rw [unsafeAssign, List.append_assoc E J b, List.take_left' rfl, ← hJ, List.drop_append,
    List.drop_left' rfl]

/-! ## 2. Reading the segments back -/

section Next

variable (codec : HeaderCodec)

theorem toNat_ofNat32 {n : Nat} (h : n < 2 ^ 32) : (UInt32.ofNat n).toNat = n :=
  (BitVec.toNat_ofNat _ _).trans (Nat.mod_eq_of_lt h)

/-- `next` cuts one encoded segment off the front. -/
theorem next_encode_cons (o : UInt64) (b rest : List UInt8) (hb : b.length < 2 ^ 32) :
    next codec (codec.pack o (UInt32.ofNat b.length) ++ b ++ rest) = some (some (o, b), rest) := by
  have hp := codec.length_pack o (UInt32.ofNat b.length)
  have hn := toNat_ofNat32 hb
  simp only [next, List.append_assoc, List.length_append, hp, List.take_left' hp, List.drop_left' hp,
    codec.unpack_pack, hn, List.take_left' rfl, List.drop_left' rfl]
  simp

theorem nextAll_encode : ∀ (segs : List Piece), (∀ seg ∈ segs, seg.2.length < 2 ^ 32) →
    nextAll codec (segs.length + 1) (encode codec segs) = some segs
  | [], _ => by simp [nextAll, encode, next]
  | (o, b) :: segs, h => by
    rw [List.length_cons, nextAll, encode, next_encode_cons codec o b _ (h _ (List.mem_cons_self _ _))]
    dsimp only
    rw [nextAll_encode segs fun seg hs => h seg (List.mem_cons_of_mem _ hs)]
    rfl

end Next

/-! ## 3. The state of `FileSegData` against the segments -/

namespace FileSegData

variable (codec : HeaderCodec) (junk : Nat → List UInt8)

/-- The state stands for the segments `st`: the closed ones encoded,
then the area reserved for the open one's header, then its bytes, with
`_seg_offset` and `_seg_len` its own (and the open segment short enough
for `_seg_len` and its end below 2^64). Before the first piece nothing
is open and `_seg_offset` and `_seg_len` are 0. -/
def Tracks (s : FileSegData) : List Piece × Option Piece → Prop
  | (closed, none) => s.data = encode codec closed ∧ s.segOffset = 0 ∧ s.segLen = 0
  | (closed, some (o, b)) =>
    s.data = encode codec closed ++ junk (encode codec closed).length ++ b ∧
      s.segHeader = (encode codec closed).length ∧ s.segOffset = o ∧ s.segLen.toNat = b.length ∧
      b.length < 2 ^ 32 ∧ o.toNat + b.length < 2 ^ 64

theorem tracks_empty : empty.Tracks codec junk ([], none) := ⟨rfl, rfl, rfl⟩

theorem merge_iff {o o' : UInt64} {l : UInt32} (h : o.toNat + l.toNat < 2 ^ 64) :
    o' = o + l.toUInt64 ↔ o'.toNat = o.toNat + l.toNat := by
  have hsum : (o + l.toUInt64).toNat = o.toNat + l.toNat :=
    (Nat.mod_eq_of_lt h : (o.toNat + l.toNat) % 2 ^ 64 = _)
  exact ⟨fun he => he ▸ hsum, fun he => UInt64.toNat.inj (he.trans hsum.symm)⟩

variable {codec junk} (hjunk : ∀ p, (junk p).length = 12)
include hjunk

/-- Closing a non-empty open segment writes its header. -/
theorem closeSegment_of_tracks {s : FileSegData} {closed : List Piece} {o : UInt64} {b : List UInt8}
    (h : s.Tracks codec junk (closed, some (o, b))) (hb : b ≠ []) :
    s.closeSegment codec = encode codec (closed ++ [(o, b)]) := by
  obtain ⟨hd, hh, ho, hl, hlt, -⟩ := h
  have hpos : s.segLen > 0 := by
    show 0 < s.segLen.toNat
    rw [hl]; exact List.length_pos.2 hb
  have hlen : s.segLen = UInt32.ofNat b.length := UInt32.toNat.inj (by rw [hl, toNat_ofNat32 hlt])
  rw [closeSegment, if_pos hpos, hd, hh, ho, hlen, encode_append, unsafeAssign_reserved _ _ _ _
    ((hjunk _).trans (codec.length_pack _ _).symm), List.append_assoc]

/-- One `append` keeps `Tracks`, given the bounds of the segment it
leaves open and that the segment it closes is not empty. -/
theorem Tracks.appendPiece {s : FileSegData} {st : List Piece × Option Piece}
    (h : s.Tracks codec junk st) (p : Piece) (len : UInt32) (hlen : len.toNat = p.2.length)
    (hcur : ∀ o b, (coalesceStep st p).2 = some (o, b) → b.length < 2 ^ 32 ∧ o.toNat + b.length < 2 ^ 64)
    (hclosed : ∀ seg ∈ (coalesceStep st p).1, seg.2 ≠ []) :
    (s.appendPiece codec junk p.2 p.1 len).Tracks codec junk (coalesceStep st p) := by
  obtain ⟨closed, _ | ⟨o, b⟩⟩ := st <;> obtain ⟨o', b'⟩ := p
  · obtain ⟨hd, ho, hl⟩ := h
    obtain ⟨hb1, hb2⟩ := hcur o' b' rfl
    have hnm : ¬(s.segOffset ≠ 0 ∧ o' = s.segOffset + s.segLen.toUInt64) := fun hm => hm.1 ho
    have hcs : s.closeSegment codec = s.data := by simp [closeSegment, hl]
    simp only [FileSegData.appendPiece, if_neg hnm, hcs, hd]
    exact ⟨rfl, rfl, rfl, hlen, hb1, hb2⟩
  · obtain ⟨hd, hh, ho, hl, hlt, hend⟩ := h
    have hdec : (s.segOffset ≠ 0 ∧ o' = s.segOffset + s.segLen.toUInt64) ↔
        (o ≠ 0 ∧ o'.toNat = o.toNat + b.length) := by
      rw [ho, merge_iff (by rw [hl]; exact hend), hl]
    by_cases hm : o ≠ 0 ∧ o'.toNat = o.toNat + b.length
    · have hstep : coalesceStep (closed, some (o, b)) (o', b') = (closed, some (o, b ++ b')) := by
        simp only [coalesceStep, if_pos hm]
      rw [hstep] at hcur ⊢
      obtain ⟨hb1, hb2⟩ := hcur o (b ++ b') rfl
      simp only [FileSegData.appendPiece, if_pos (hdec.2 hm)]
      refine ⟨by rw [hd]; simp, hh, ho, ?_, hb1, hb2⟩
      show (s.segLen.toNat + len.toNat) % 2 ^ 32 = _
      rw [hl, hlen, ← List.length_append, Nat.mod_eq_of_lt hb1]
    · have hstep : coalesceStep (closed, some (o, b)) (o', b') =
          (closed ++ [(o, b)], some (o', b')) := by
        simp only [coalesceStep, if_neg hm]
      rw [hstep] at hcur hclosed ⊢
      obtain ⟨hb1, hb2⟩ := hcur o' b' rfl
      have hcs := closeSegment_of_tracks hjunk ⟨hd, hh, ho, hl, hlt, hend⟩
        (hclosed (o, b) (List.mem_append_right _ (List.mem_singleton_self _)))
      simp only [FileSegData.appendPiece, if_neg (mt hdec.1 hm), hcs]
      exact ⟨rfl, rfl, rfl, hlen, hb1, hb2⟩

/-- A run of `append`s keeps `Tracks`, when every segment at the end is
non-empty, shorter than 2^32 bytes and ends below 2^64. -/
theorem Tracks.run {s : FileSegData} {st : List Piece × Option Piece} (h : s.Tracks codec junk st)
    (ops : List SegAppend) (hlen : ∀ op ∈ ops, op.len.toNat = op.piece.2.length)
    (hseg : ∀ seg ∈ segmentsOf ((ops.map SegAppend.piece).foldl coalesceStep st),
      seg.2 ≠ [] ∧ seg.2.length < 2 ^ 32 ∧ seg.1.toNat + seg.2.length < 2 ^ 64) :
    (s.run codec junk ops).Tracks codec junk ((ops.map SegAppend.piece).foldl coalesceStep st) := by
  induction ops generalizing s st with
  | nil => exact h
  | cons op ops ih =>
    simp only [List.map_cons, List.foldl_cons] at hseg ⊢
    have happ : s.apply codec junk op = s.appendPiece codec junk op.piece.2 op.piece.1 op.len := by
      cases op <;> rfl
    refine ih ?_ (fun op' hop => hlen op' (List.mem_cons_of_mem _ hop)) hseg
    rw [happ]
    refine h.appendPiece hjunk op.piece op.len (hlen op (List.mem_cons_self _ _)) (fun o b hcur => ?_)
      fun seg hs => (hseg seg (closed_sub_final _ hs)).1
    generalize coalesceStep st op.piece = q at hcur hseg
    obtain ⟨closed, cur⟩ := q
    simp only at hcur
    subst hcur
    obtain ⟨x, hx⟩ := cur_sub_final (ops.map SegAppend.piece) closed o b
    obtain ⟨-, h1, h2⟩ := hseg _ hx
    simp only [List.length_append] at h1 h2
    exact ⟨by omega, by omega⟩

/-- `close()` writes the last header. -/
theorem close_of_tracks {s : FileSegData} {st : List Piece × Option Piece} (h : s.Tracks codec junk st)
    (hne : ∀ seg ∈ segmentsOf st, seg.2 ≠ []) : (s.close codec).data = encode codec (segmentsOf st) := by
  obtain ⟨closed, _ | ⟨o, b⟩⟩ := st
  · obtain ⟨hd, -, hl⟩ := h
    simp [FileSegData.close, closeSegment, hl, hd, segmentsOf]
  · exact closeSegment_of_tracks hjunk h (hne (o, b) (by simp [segmentsOf]))

end FileSegData

/-! ## 4. `next()` after `close()` -/

/-- When every segment is non-empty, shorter than 2^32 bytes and ends
below 2^64, and each call's length is that of its bytes, `next()` on the
buffer `close()` leaves returns the segments in order, then 0; the
reserved areas may have held anything. -/
theorem next_returns_each_segment (codec : HeaderCodec) (junk : Nat → List UInt8)
    (hjunk : ∀ p, (junk p).length = 12) (ops : List SegAppend)
    (hlen : ∀ op ∈ ops, op.len.toNat = op.piece.2.length)
    (hseg : ∀ seg ∈ coalesce (ops.map SegAppend.piece),
      seg.2 ≠ [] ∧ seg.2.length < 2 ^ 32 ∧ seg.1.toNat + seg.2.length < 2 ^ 64) :
    nextAll codec ((coalesce (ops.map SegAppend.piece)).length + 1)
        ((FileSegData.empty.run codec junk ops).close codec).data =
      some (coalesce (ops.map SegAppend.piece)) := by
  have ht := (FileSegData.tracks_empty codec junk).run hjunk ops hlen hseg
  rw [FileSegData.close_of_tracks hjunk ht fun seg hs => (hseg seg hs).1]
  exact nextAll_encode codec _ fun seg hs => (hseg seg hs).2.1

/-- Three pieces, the second joining the first, on network headers. -/
def threePieces : List SegAppend := [.buf [1] 5, .raw [2, 3, 4] 6 2, .buf [7] 100]

theorem next_returns_each_segment_threePieces :
    (List.replicate 12 (0 : UInt8)).length = 12 ∧
      nextAll HeaderCodec.network ((coalesce (threePieces.map SegAppend.piece)).length + 1)
        ((FileSegData.empty.run HeaderCodec.network (fun _ => List.replicate 12 0) threePieces).close
          HeaderCodec.network).data =
      some (coalesce (threePieces.map SegAppend.piece)) :=
  ⟨rfl, next_returns_each_segment HeaderCodec.network (fun _ => List.replicate 12 0)
    (fun _ => rfl) threePieces (by decide) (by decide)⟩

/-- An empty piece at offset 5, then `"ab"` at offset 100. -/
def zeroLengthFirst : List SegAppend := [.buf [] 5, .buf [97, 98] 100]

/-- After `append(IOBuf(), 5)`, `append("ab", 100)` and `close()` the
buffer starts with the 12 bytes `reserve` gave the empty segment,
never written; the first `next()` gives the empty segment at 5 only if
those bytes happen to unpack to `(5, 0)`. -/
theorem zero_length_segment_header_unwritten (codec : HeaderCodec) (junk : Nat → List UInt8)
    (hjunk : ∀ p, (junk p).length = 12) :
    coalesce (zeroLengthFirst.map SegAppend.piece) = [(5, []), (100, [97, 98])] ∧
      ((FileSegData.empty.run codec junk zeroLengthFirst).close codec).data =
        junk 0 ++ codec.pack 100 2 ++ [97, 98] ∧
      (next codec ((FileSegData.empty.run codec junk zeroLengthFirst).close codec).data =
          some (some (5, []), codec.pack 100 2 ++ [97, 98]) →
        codec.unpack (junk 0) = (5, 0)) := by
  have hdata : ((FileSegData.empty.run codec junk zeroLengthFirst).close codec).data =
      junk 0 ++ codec.pack 100 2 ++ [97, 98] := by
    have h12 := hjunk 0
    have h100 : ¬(100 : UInt64) = 5 + UInt32.toUInt64 0 := by decide
    have h2 : (0 : UInt32) < 2 := by decide
    simp only [FileSegData.run, zeroLengthFirst, List.foldl, FileSegData.apply, FileSegData.appendBuf,
      FileSegData.appendPiece, FileSegData.empty, FileSegData.closeSegment, FileSegData.close]
    simp [unsafeAssign, h12, codec.length_pack, h100, h2, List.drop_append_eq_append_drop, hjunk]
  refine ⟨by decide, hdata, fun hn => ?_⟩
  rw [hdata] at hn
  have h12 := hjunk 0
  rw [next, if_neg (by simp [h12]), if_neg (by simp [h12])] at hn
  simp only [List.append_assoc, List.take_left' h12, List.drop_left' h12] at hn
  split_ifs at hn with h3
  simp only [Option.some.injEq, Prod.mk.injEq] at hn
  obtain ⟨⟨ho, hb⟩, -⟩ := hn
  refine Prod.ext ho (UInt32.toNat.inj ?_)
  rw [← h3, hb]; rfl

theorem zero_length_segment_header_unwritten_zeros :
    (List.replicate 12 (0 : UInt8)).length = 12 ∧
      coalesce (zeroLengthFirst.map SegAppend.piece) = [(5, []), (100, [97, 98])] ∧
      ((FileSegData.empty.run HeaderCodec.network (fun _ => List.replicate 12 0) zeroLengthFirst).close
          HeaderCodec.network).data =
        List.replicate 12 0 ++ HeaderCodec.network.pack 100 2 ++ [97, 98] ∧
      (next HeaderCodec.network ((FileSegData.empty.run HeaderCodec.network (fun _ => List.replicate 12 0)
            zeroLengthFirst).close HeaderCodec.network).data =
          some (some (5, []), HeaderCodec.network.pack 100 2 ++ [97, 98]) →
        HeaderCodec.network.unpack (List.replicate 12 0) = (5, 0)) :=
  ⟨rfl, zero_length_segment_header_unwritten HeaderCodec.network (fun _ => List.replicate 12 0)
    fun _ => rfl⟩

end Melon.Raft
