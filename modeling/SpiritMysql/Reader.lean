import SpiritMysql.AsyncAction
import SpiritMysql.ByteCodec
import SpiritMysql.Errors

/-!
# The packet reader

`MyProtocolReader` over the whole stream of received bytes. The bytes that
are in its buffer and the bytes that are still to arrive are one list, so
each `read() ?? await readAsync()` pair is one operation. An operation that
needs more bytes than there are stays pending while the connection is open,
and throws when it was closed.
-/

namespace SpiritMysql.Reader

open AsyncAction ByteCodec Errors

/-- The largest payload of one packet. -/
def maxPayload : ℕ := 0xFFFFFF

/-- `BUFFER_LEN`, the size of the receive buffer. -/
def bufferLen : ℕ := 8*1024

/-- The state of a reader. -/
structure State where
  /-- The consumed bytes, latest first. -/
  before : List UInt8 := []
  /-- The bytes not consumed yet. -/
  rest : List UInt8
  /-- The server closed the stream after these bytes. -/
  closed : Bool := false
  /-- Payload length in the header of the current packet. -/
  payloadLength : ℕ := 0
  /-- How much of the payload was consumed. It is negative after two packets
  were joined. -/
  packetOffset : ℤ := 0
  /-- The next packet number. -/
  sequenceId : ℤ := 0
  /-- Payload bytes announced by the headers so far. -/
  totalBytesInPacket : ℕ := 0
  /-- A record for statements only: how many bytes were unread at each
  packet header that was consumed, first header first. -/
  headers : List ℕ := []
deriving DecidableEq, Repr

/-- An operation of the reader. -/
abbrev Read (α : Type) := Act Error State α

/-- `isAtEndOfPacket()`. -/
def State.isAtEndOfPacket (s : State) : Bool := decide ((s.payloadLength : ℤ) ≤ s.packetOffset)

/-- `#recvAtLeast()`. When the buffer is full and more is wanted, the read
gets an empty view, which is an error. -/
def recvAtLeast (nBytes : ℕ) : Read Unit := fun s =>
  if min nBytes bufferLen ≤ s.rest.length then
    if nBytes ≤ bufferLen then .done () s
    else .thrown (.error "TypeError: empty view") s
  else if s.closed=true then .thrown (.serverDisconnected "Lost connection to server") s
  else .waiting s

/-- Consume bytes without counting them as payload. -/
def State.consume (n : ℕ) (s : State) : State :=
  {s with before := (s.rest.take n).reverse++s.before, rest := s.rest.drop n}

/-- Consume bytes of the payload. -/
def State.advance (n : ℕ) (s : State) : State :=
  {s.consume n with packetOffset := s.packetOffset+n}

/-- Consume received bytes of the payload and return them. -/
def take (n : ℕ) : Read (List UInt8) := fun s => .done (s.rest.take n) (s.advance n)

/-- Move the cursor back over consumed bytes. -/
def moveBack (n : ℕ) : Read Unit := fun s =>
  .done () {s with
    before := s.before.drop n, rest := (s.before.take n).reverse++s.rest,
    packetOffset := s.packetOffset-n}

/-- The fields that a consumed packet header sets. -/
def State.enterPacket (header : List UInt8) (offset : ℤ) (s : State) : State :=
  {s with
    payloadLength := leNat (header.take 3)
    packetOffset := offset
    sequenceId := leInt 1 (header.drop 3)+1
    totalBytesInPacket := s.totalBytesInPacket+leNat (header.take 3)}

/-- Consume the header of a packet and start counting its payload. -/
def State.nextPacket (s : State) : State :=
  {(s.consume 4).enterPacket (s.rest.take 4) 0 with headers := s.headers++[s.rest.length]}

/-- `readPacketHeader() || await readPacketHeaderAsync()`. -/
def readPacketHeader : Read Unit := do
  recvAtLeast 4
  modify State.nextPacket

/-- Cut out the header that stands after the last `tail` bytes of a packet,
so that they are followed by the payload of the next packet. -/
def State.joinPacket (tail : ℕ) (s : State) : State :=
  {s.enterPacket ((s.rest.drop tail).take 4) (-tail) with
    before := ((s.rest.drop tail).take 4).reverse++s.before
    rest := s.rest.take tail++s.rest.drop (tail+4)
    headers := s.headers++[s.rest.length-tail]}

/-- `#correctNearPacketBoundary()`: when the packet is a full one, join the
next one, and count the offset from the beginning of its payload. -/
def correctNearPacketBoundary : Read Unit := fun s =>
  if s.payloadLength=maxPayload then
    let tail := ((s.payloadLength : ℤ)-s.packetOffset).toNat
    if tail+4 ≤ s.rest.length then .done () (s.joinPacket tail)
    else if s.closed=true then .thrown (.serverDisconnected "Lost connection to server") s
    else .waiting s
  else .done () s

/-- Join the next packet when fewer than `k` bytes of a full packet are left. -/
def reserve (k : ℕ) : Read Unit := fun s =>
  if (maxPayload : ℤ)-k < s.packetOffset then correctNearPacketBoundary s else .done () s

/-- The fixed-width readers are one scheme: `k` bytes that never straddle a
packet boundary. -/
def readFixed (k : ℕ) : Read (List UInt8) := do
  reserve k
  recvAtLeast k
  take k

/-- `readUint8() ?? await readUint8Async()`. -/
def readUint8 : Read ℕ := do return leNat (←readFixed 1)
/-- `readInt8() ?? await readInt8Async()`. -/
def readInt8 : Read ℤ := do return leInt 1 (←readFixed 1)
/-- `readUint16() ?? await readUint16Async()`. -/
def readUint16 : Read ℕ := do return leNat (←readFixed 2)
/-- `readInt16() ?? await readInt16Async()`. -/
def readInt16 : Read ℤ := do return leInt 2 (←readFixed 2)
/-- `readUint24() ?? await readUint24Async()`. -/
def readUint24 : Read ℕ := do return leNat (←readFixed 3)
/-- `readUint32() ?? await readUint32Async()`. -/
def readUint32 : Read ℕ := do return leNat (←readFixed 4)
/-- `readInt32() ?? await readInt32Async()`. -/
def readInt32 : Read ℤ := do return leInt 4 (←readFixed 4)
/-- `readUint64() ?? await readUint64Async()`. -/
def readUint64 : Read ℕ := do return leNat (←readFixed 8)
/-- `readInt64() ?? await readInt64Async()`. -/
def readInt64 : Read ℤ := do return leInt 8 (←readFixed 8)

/-- The length of a length-encoded integer that begins with a byte. -/
def lenencSize (desc : UInt8) : ℕ :=
  if desc=0xFE then 9 else if desc=0xFD then 4 else if desc=0xFC then 3 else 1

/-- The value of a length-encoded integer. The null mark gives `-1`. -/
def lenencValue (bs : List UInt8) : ℤ :=
  match bs with
  | [] => 0
  | desc::value =>
    if desc=0xFE ∨ desc=0xFD ∨ desc=0xFC then leNat value
    else if desc=0xFB then -1
    else desc.toNat

/-- `readLenencInt() ?? await readLenencIntAsync()`. -/
def readLenencInt : Read ℤ := do
  reserve 9
  recvAtLeast 1
  let s ← get
  let size := lenencSize (s.rest.headD 0)
  recvAtLeast size
  return lenencValue (←take size)

/-- The bytes that are left of the current packet. -/
def State.lenInCurPacket (s : State) : ℤ := s.payloadLength-s.packetOffset

/-- `readShortBytes() ?? await readShortBytesAsync()`: at most one packet
boundary is crossed. A negative length moves the cursor back. -/
def readShortBytes (len : ℤ) : Read (List UInt8) := do
  if (bufferLen : ℤ)-4 < len then
    fail (.error "String is too long for this operation. Longer than 8188 bytes")
  else
    let s ← get
    if len < 0 then
      moveBack len.natAbs
      return []
    else if len ≤ s.lenInCurPacket then
      recvAtLeast len.toNat
      take len.toNat
    else if s.lenInCurPacket < 0 then
      recvAtLeast (s.lenInCurPacket+4).toNat
      fail (.error "RangeError: offset is out of bounds")
    else
      let head := s.lenInCurPacket.toNat
      recvAtLeast (head+4)
      let a ← take head
      readPacketHeader
      let n := len.toNat-head
      recvAtLeast n
      let b ← take n
      return a++b

/-- `readShortLenencBytes() ?? await readShortLenencBytesAsync()`, also under
the decoder. The null mark gives an empty value. -/
def readShortLenencBytes : Read (List UInt8) := do
  let len ← readLenencInt
  if len ≤ -1 then return [] else readShortBytes len

/-- `readShortEofBytes() ?? await readShortEofBytesAsync()`, also under the
decoder: the rest of the packet without one zero byte at its end. -/
def readShortEofBytes : Read (List UInt8) := do
  let s ← get
  if s.lenInCurPacket < 0 then
    moveBack s.lenInCurPacket.natAbs
    return []
  else
    let len := s.lenInCurPacket.toNat
    recvAtLeast len
    let bytes ← take len
    return if bytes.getLast?=some 0 then bytes.dropLast else bytes

/-- The loop of `readBytesToBuffer()` and of `readVoidAsync()`: `enter` makes
sure that the current packet has bytes, then what was received of it is
passed. A turn that can pass nothing never ends. -/
def passLoop (enter : Read Unit) : ℕ → ℕ → Read (List UInt8)
  | 0,_ => wait
  | fuel+1,len => do
    if len=0 then return [] else
      enter
      let s ← get
      let n := min s.lenInCurPacket.toNat len
      recvAtLeast (min n 1)
      let n' := min n s.rest.length
      let a ← take n'
      let b ← passLoop enter fuel (len-n')
      return a++b

/-- `readBytesToBuffer()` for a destination of `len` bytes. -/
def readBytesToBuffer (len : ℕ) : Read (List UInt8) := fun s =>
  passLoop (fun s => if s.lenInCurPacket=0 then readPacketHeader s else .done () s)
    (s.rest.length+1) len s

/-- `readVoid() || await readVoidAsync()`: a length that is not positive
moves the cursor back. Skipping past the end of a short packet, which only a
malformed stream asks for, follows the loop of `readVoidAsync()`. -/
def readVoid (len : ℤ) : Read Unit := do
  let s ← get
  if len ≤ 0 then moveBack len.natAbs
  else
    let _ ← passLoop (reserve 1) (s.rest.length+1) len.toNat

/-- Moving back by nothing changes nothing. -/
@[simp] theorem moveBack_zero (s : State) : moveBack 0 s=.done () s := by
  simp only [moveBack,List.drop_zero,List.take_zero,List.reverse_nil,List.nil_append,
    Nat.cast_zero,sub_zero]

/-- Skipping nothing changes nothing. -/
@[simp] theorem readVoid_zero (s : State) : readVoid 0 s=.done () s := by
  simp only [readVoid,bind_apply,get_apply,Outcome.andThen_done,le_refl,if_pos,Int.natAbs_zero,
    moveBack_zero]

/-- `gotoEndOfPacket() || await gotoEndOfPacketAsync()`. -/
def gotoEndOfPacket : Read Unit := fun s => readVoid s.lenInCurPacket s

/-- `unput()`: put a byte back. -/
def unput (byte : UInt8) : Read Unit := fun s =>
  .done () {s with
    before := s.before.drop 1, rest := byte::s.rest, packetOffset := s.packetOffset-1}

end SpiritMysql.Reader
