import SomeipTunnel.Lib.OrderedSet
import SomeipTunnel.Lib.Run
import SomeipTunnel.Tp.Wire

/-!
# `tp_message`: the buffer of one segmented message

The model of `tp_message.cpp`. A `TpMessage` is built from the first datagram (`TpMessage.new`) and
fed with the others (`addSegment`), which answers whether the message is complete.

`addSegment` is cut where the source has its branches: `checkLengths` decides whether the datagram
is taken at all, `segments_.emplace` finds the gap `(pre, post)` of its interval (or a duplicate),
`place` is the branch that the neighbours in front of and behind the gap select, and `finish` is
the completeness scan with the header update. Every branch of `place` does one `insert` or
`memcpy`; it is described by a `Copy` and performed only if it stays inside the datagram's payload
and inside `message_`. Otherwise the call leaves the defined behaviour of the program and the
model stops with a `Fault`.
-/

namespace SomeipTunnel.Tp

open Buffer

/-! ### Segments and copies -/

/-- The payload offsets `start_ .. end_` of a received segment.
Source: `tp_message.hpp`, `segment_t` -/
structure Segment where
  start_ : ℕ
  end_ : ℕ
deriving DecidableEq, Repr

/-- Source: `tp_message.hpp`, `segment_t::operator<` -/
def Segment.lt (a b : Segment) : Bool :=
  a.start_ < b.start_ || (a.start_ ≥ b.start_ && a.end_ < b.end_)

/-- One `insert` or `memcpy` of `add_segment`. -/
structure Copy where
  /-- The first index of `message_` that is written. -/
  dst : ℕ
  /-- The first index of `_data` that is read; pointer arithmetic may leave the array. -/
  src : ℤ
  /-- The number of bytes, as the program computes it. -/
  count : ℕ
  /-- The number of bytes without wrap-around of the unsigned subtractions. -/
  exact : ℤ
  /-- The size of `message_` when the bytes are there. -/
  room : ℕ
deriving DecidableEq, Repr

/-- The copy reads only payload bytes of a datagram of length `dataLength`, writes only inside
`message_` and its count did not wrap around. -/
def Copy.InBounds (c : Copy) (dataLength : ℕ) : Prop :=
  (c.count : ℤ) = c.exact ∧
    (c.count = 0 ∨ 20 ≤ c.src ∧ c.src + c.count ≤ dataLength ∧ c.dst + c.count ≤ c.room)

instance (c : Copy) (dataLength : ℕ) : Decidable (c.InBounds dataLength) :=
  inferInstanceAs (Decidable (_ ∧ _))

/-- How a call leaves the defined behaviour: an `insert` or `memcpy` out of bounds, or the header
update of a `message_` that has no room for a header. -/
inductive Fault where
  | copy (c : Copy)
  | header
deriving DecidableEq, Repr

/-! ### The object and its length checks -/

/-- Source: `tp_message.hpp`, the members of `tp_message` (times in nanoseconds) -/
structure TpMessage where
  timepointCreation_ : ℤ
  maxMessageSize_ : ℕ
  currentMessageSize_ : ℕ
  lastSegmentReceived_ : Bool
  segments_ : List Segment
  message_ : List UInt8
deriving DecidableEq, Repr

/-- Source: `tp_message.cpp`, `check_lengths` -/
def TpMessage.checkLengths (m : TpMessage) (data : List UInt8) (segmentSize : ℕ)
    (moreFragments : Bool) : Bool :=
  let itsLength := readUint32Be data 4
  let itsTpHeader := readUint32Be data 16
  if !tpFlagIsSet (byteAt data 14) then false
  else if data.length ≠ u32 (itsLength + 8) then false
  else if segmentSize ≠ u32Sub (u32Sub itsLength 4) 8 then false
  else if segmentSize > 1392 then false
  else if moreFragments ∧ segmentSize % 16 > 0 then false
  else if u32 (m.currentMessageSize_ + segmentSize) > m.maxMessageSize_ ∨
      u32 (m.currentMessageSize_ + segmentSize) < segmentSize then false
  else if u32 (getOffset itsTpHeader + segmentSize) > m.maxMessageSize_ ∨
      u32 (getOffset itsTpHeader + segmentSize) < segmentSize then false
  else true

/-- The interval of a datagram's segment, an empty one has its end in front of its start.
Source: `tp_message.cpp`, `segment_t(its_offset, its_offset + its_segment_size - 1)` -/
def segmentOf (itsOffset itsSegmentSize : ℕ) : Segment :=
  ⟨itsOffset, u32Sub (u32 (itsOffset + itsSegmentSize)) 1⟩

/-- The object before the constructor looks at its datagram.
Source: `tp_message.cpp`, the initialisers of the constructor -/
def TpMessage.blank (maxMessageSize : ℕ) (now : ℤ) : TpMessage :=
  ⟨now, maxMessageSize, 0, false, [], []⟩

/-- The header of a message: that of its first datagram without the TP flag.
Source: `tp_message.cpp`, the constructor, lines 37–40 -/
def messageHeader (data : List UInt8) : List UInt8 :=
  overwrite (data.take 16) 14 [tpFlagUnset (byteAt data 14)]

/-- Source: `tp_message.cpp`, the constructor -/
def TpMessage.new (data : List UInt8) (maxMessageSize : ℕ) (now : ℤ) : TpMessage :=
  let m := TpMessage.blank maxMessageSize now
  if data.length < 20 then m
  else
    let header := messageHeader data
    let itsSegmentSize := data.length - 16 - 4
    let itsTpHeader := readUint32Be data 16
    if m.checkLengths data itsSegmentSize (moreSegments itsTpHeader) then
      let itsOffset := getOffset itsTpHeader
      { m with
        segments_ := [segmentOf itsOffset itsSegmentSize]
        -- the last segment is noted only if it is not the first one, too
        lastSegmentReceived_ := itsOffset ≠ 0 && !moreSegments itsTpHeader
        message_ := (if itsOffset ≠ 0 then resize header (u32 (16 + itsOffset)) 0 else header) ++
          slice data 20 itsSegmentSize
        currentMessageSize_ := u32 (16 + itsSegmentSize) }
    else { m with message_ := header }

/-! ### The branches of `add_segment` -/

/-- What a branch does: `message_` before the copy, the copy (an `insert` at the end or a
`memcpy`), the segments afterwards and the growth of `current_message_size_`. -/
structure Placement where
  base : List UInt8
  atEnd : Bool
  copy : Copy
  segments : List Segment
  grown : ℕ

/-- `message_` after the copy. -/
def Placement.message (p : Placement) (data : List UInt8) : List UInt8 :=
  if p.atEnd then p.base ++ slice data p.copy.src.toNat p.copy.count
  else overwrite p.base p.copy.dst (slice data p.copy.src.toNat p.copy.count)

/-- `message_.insert(message_.end(), &_data[20] + skip, &_data[20] + its_segment_size)`; `gap` is
`skip` without wrap-around. -/
def insertCopy (base : List UInt8) (skip : ℕ) (gap : ℤ) (itsSegmentSize : ℕ) : Copy :=
  -- the distance of the two pointers is converted to a `size_t`
  let count := (itsSegmentSize + 2 ^ 64 - skip) % 2 ^ 64
  ⟨base.length, 20 + skip, count, itsSegmentSize - gap, base.length + count⟩

/-- Neither neighbour overlaps the segment in front: it is copied up to the next one.
Source: `tp_message.cpp`, lines 136–152 -/
def TpMessage.placeBefore (m : TpMessage) (itsOffset itsSegmentSize : ℕ) (pre post : List Segment)
    (next : Segment) : Placement :=
  let cur := segmentOf itsOffset itsSegmentSize
  if cur.end_ < next.start_ then
    ⟨m.message_, false,
      ⟨u32 (16 + itsOffset), 20, itsSegmentSize, itsSegmentSize, m.message_.length⟩,
      pre ++ cur :: post, itsSegmentSize⟩
  else
    -- this segment ends after the start of the next and would overwrite already received data
    ⟨m.message_, false,
      ⟨u32 (16 + itsOffset), 20, u32Sub next.start_ itsOffset, (next.start_ : ℤ) - itsOffset,
        m.message_.length⟩,
      OrderedSet.insert Segment.lt (pre ++ post) ⟨cur.start_, u32Sub next.start_ 1⟩,
      u32Sub next.start_ cur.start_⟩

/-- The segment starts inside the previous one and there is a next one.
Source: `tp_message.cpp`, lines 153–187 -/
def TpMessage.placeBetween (m : TpMessage) (itsOffset itsSegmentSize : ℕ)
    (pre post : List Segment) (prev next : Segment) : Placement :=
  let cur := segmentOf itsOffset itsSegmentSize
  let itsCorrectedOffset := u32 (prev.end_ + 1)
  let copy : Copy := ⟨u32 (16 + itsCorrectedOffset), (20 : ℤ) + itsCorrectedOffset - itsOffset,
    u32Sub next.start_ itsCorrectedOffset, (next.start_ : ℤ) - (prev.end_ + 1), m.message_.length⟩
  if cur.end_ < next.start_ then
    -- the count runs up to the next segment here, too, but the interval does not
    ⟨m.message_, false, copy,
      OrderedSet.insert Segment.lt (pre ++ post) ⟨u32 (prev.end_ + 1), cur.end_⟩,
      u32Sub cur.end_ prev.end_⟩
  else
    ⟨m.message_, false, copy,
      OrderedSet.insert Segment.lt (pre ++ post) ⟨u32 (prev.end_ + 1), u32Sub next.start_ 1⟩,
      u32Sub next.start_ (u32 (prev.end_ + 1))⟩

/-- The segment is behind all others.
Source: `tp_message.cpp`, lines 82–129 -/
def TpMessage.placeLast (m : TpMessage) (itsOffset itsSegmentSize : ℕ) (pre : List Segment) :
    Placement :=
  let cur := segmentOf itsOffset itsSegmentSize
  let resized := resize m.message_ (u32 (16 + itsOffset)) 0
  match pre.getLast? with
  | none =>
      -- received segment of message but the first received segment was invalid
      let base := if itsOffset ≠ 0 then resized else m.message_
      ⟨base, true, insertCopy base 0 0 itsSegmentSize, [cur], itsSegmentSize⟩
  | some prev =>
      if prev.end_ < cur.start_ then
        let base := if u32 (prev.end_ + 1) ≠ cur.start_ then resized else m.message_
        ⟨base, true, insertCopy base 0 0 itsSegmentSize, pre ++ [cur], itsSegmentSize⟩
      else
        -- this segment starts before the end of the previous one
        ⟨m.message_, true,
          insertCopy m.message_ (u32Sub (u32 (prev.end_ + 1)) cur.start_)
            ((prev.end_ + 1 : ℤ) - cur.start_) itsSegmentSize,
          OrderedSet.insert Segment.lt pre ⟨u32 (prev.end_ + 1), cur.end_⟩,
          u32Sub cur.end_ prev.end_⟩

/-- The branch for a segment whose interval goes between `pre` and `post`.
Source: `tp_message.cpp`, lines 78–188 -/
def TpMessage.place (m : TpMessage) (itsOffset itsSegmentSize : ℕ) (pre post : List Segment) :
    Placement :=
  match post.head? with
  | none => m.placeLast itsOffset itsSegmentSize pre
  | some next =>
      match pre.getLast? with
      | none => m.placeBefore itsOffset itsSegmentSize pre post next
      | some prev =>
          if prev.end_ < (segmentOf itsOffset itsSegmentSize).start_ then
            m.placeBefore itsOffset itsSegmentSize pre post next
          else m.placeBetween itsOffset itsSegmentSize pre post prev next

/-! ### Completion -/

/-- The completeness scan; `lastEnd` is the end of the segment before.
Source: `tp_message.cpp`, lines 195–204 -/
def scanComplete (lastEnd : ℕ) : List Segment → Bool
  | [] => true
  | seg :: segs => if u32 (lastEnd + 1) ≠ seg.start_ then false else scanComplete seg.end_ segs

/-- Source: `tp_message.cpp`, lines 193–213 -/
def TpMessage.finish (m : TpMessage) (data : List UInt8) : Except Fault (Bool × TpMessage) :=
  if m.lastSegmentReceived_ && scanComplete (2 ^ 32 - 1) m.segments_ then
    if m.message_.length < 16 then .error .header
    else
      let lengthSet := overwrite m.message_ 4 (uint32Bytes (m.message_.length - 8))
      .ok (true, { m with message_ := overwrite lengthSet 15 [byteAt data 15] })
  else .ok (false, m)

/-- The branch a datagram selects: `none` if `add_segment` does not take it, because it is too
short, its lengths do not fit, or its interval is already there.
Source: `tp_message.cpp`, lines 62–77 -/
def TpMessage.placement? (m : TpMessage) (data : List UInt8) : Option Placement :=
  if data.length < 20 then none
  else
    let itsSegmentSize := data.length - 16 - 4
    let itsTpHeader := readUint32Be data 16
    if m.checkLengths data itsSegmentSize (moreSegments itsTpHeader) then
      let itsOffset := getOffset itsTpHeader
      match OrderedSet.emplace Segment.lt m.segments_ (segmentOf itsOffset itsSegmentSize) with
      | none => none
      | some (pre, post) => some (m.place itsOffset itsSegmentSize pre post)
    else none

/-- The object after a branch has done its copy. -/
def TpMessage.store (m : TpMessage) (data : List UInt8) (p : Placement) : TpMessage :=
  { m with
    segments_ := p.segments
    message_ := p.message data
    currentMessageSize_ := u32 (m.currentMessageSize_ + p.grown)
    lastSegmentReceived_ := m.lastSegmentReceived_ || !moreSegments (readUint32Be data 16) }

/-- Source: `tp_message.cpp`, `add_segment` -/
def TpMessage.addSegment (m : TpMessage) (data : List UInt8) : Except Fault (Bool × TpMessage) :=
  match m.placement? data with
  | none => .ok (false, m)
  | some p =>
      if p.copy.InBounds data.length then (m.store data p).finish data
      else .error (.copy p.copy)

end SomeipTunnel.Tp
