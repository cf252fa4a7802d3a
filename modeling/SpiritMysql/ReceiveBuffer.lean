import SpiritMysql.ReadScript

/-!
# The receive buffer

`MyProtocolReader` as it keeps the received bytes: a buffer of a fixed size with a
window of unread bytes, and network reads that fill it behind the window. Each
reading operation has a fast variant, that finds what it needs in the window, and an
asynchronous one, that moves the window, waits for more bytes, or joins two packets
near their boundary. An operation is `fast() ?? await slow()`.
-/

namespace SpiritMysql.ReceiveBuffer

open AsyncAction ByteCodec Errors Reader

/-- The fields of the reader, and what the network will deliver. -/
structure State where
  /-- `buffer`. -/
  buffer : List UInt8
  /-- `bufferStart`. -/
  bufferStart : ℕ := 0
  /-- `bufferEnd`. -/
  bufferEnd : ℕ := 0
  /-- `payloadLength`. -/
  payloadLength : ℕ := 0
  /-- `packetOffset`. -/
  packetOffset : ℤ := 0
  /-- `sequenceId`. -/
  sequenceId : ℤ := 0
  /-- `totalBytesInPacket`. -/
  totalBytesInPacket : ℕ := 0
  /-- The pieces in which the next bytes arrive. -/
  incoming : List (List UInt8) := []
  /-- The connection is closed after these. -/
  closed : Bool := false
deriving DecidableEq, Repr

/-- An operation of the reader. -/
abbrev Recv (α : Type) := Act Error State α

/-- A new reader. -/
def State.new (incoming : List (List UInt8)) : State :=
  {buffer := List.replicate bufferLen 0,incoming := incoming}

/-- `bufferEnd-bufferStart`. -/
def State.haveBytes (b : State) : ℕ := b.bufferEnd-b.bufferStart

/-- The unread bytes that were received. -/
def State.window (b : State) : List UInt8 := (b.buffer.take b.bufferEnd).drop b.bufferStart

/-- The unread bytes, received or not. -/
def State.stream (b : State) : List UInt8 := b.window++b.incoming.flatten

/-- The payload bytes that are left of the current packet. -/
def State.lenInCurPacket (b : State) : ℤ := b.payloadLength-b.packetOffset

/-- Overwrite bytes in the middle. -/
def splice (at_ : ℕ) (bytes buffer : List UInt8) : List UInt8 :=
  buffer.take at_++(bytes++buffer.drop (at_+bytes.length))

/-! ## Receiving -/

/-- `readFromConn()` to a view of some bytes: what was read, or `none` at the end. -/
def readFromConn (size : ℕ) : Recv (Option (List UInt8)) := fun b =>
  if size=0 then .thrown (.error "TypeError: empty view") b
  else
    match b.incoming with
    | [] => if b.closed=true then .done none b else .waiting b
    | piece::rest =>
      .done (some (piece.take size)) {b with
        incoming := if piece.drop size=[] then rest else piece.drop size::rest}

/-- A read from the first piece. -/
theorem readFromConn_piece {size : ℕ} {b : State} {piece : List UInt8} {rest : List (List UInt8)}
    (hs : size≠0) (hb : b.incoming=piece::rest) :
    readFromConn size b=.done (some (piece.take size)) {b with
      incoming := if piece.drop size=[] then rest else piece.drop size::rest} := by
  unfold readFromConn
  rw [if_neg hs,hb]

/-- The error of a connection that was closed. -/
def lostConnection : Error := .serverDisconnected "Lost connection to server"

/-- One read to the part of the buffer that is behind the window. -/
def receive : Recv Unit := do
  let b ← get
  let value ← readFromConn (b.buffer.length-b.bufferEnd)
  match value with
  | none => fail lostConnection
  | some value =>
    if value=[] then fail (.serverDisconnected "Reader returned 0 bytes without EOF")
    else
      modify fun b => {b with
        buffer := splice b.bufferEnd value b.buffer,bufferEnd := b.bufferEnd+value.length}

/-- Move the window to the beginning of the buffer. -/
def State.compact (b : State) : State :=
  {b with
    buffer := splice 0 b.window b.buffer
    bufferEnd := b.bufferEnd-b.bufferStart
    bufferStart := 0}

/-- Make room for some bytes. -/
def State.makeRoom (nBytes : ℕ) (b : State) : State :=
  if b.bufferStart=b.bufferEnd then {b with bufferStart := 0,bufferEnd := 0}
  else if b.buffer.length < b.bufferStart+nBytes then b.compact
  else b

/-- The loop of `#recvAtLeast()`. -/
def fillTo (target : ℕ) : ℕ → Recv Unit
  | 0 => wait
  | fuel+1 => do
    let b ← get
    if b.bufferEnd < target then do
      receive
      fillTo target fuel
    else pure ()

/-- `#recvAtLeast()`. -/
def recvAtLeast (nBytes : ℕ) : Recv Unit := do
  modify (State.makeRoom nBytes)
  let b ← get
  fillTo (b.bufferStart+nBytes) (nBytes+1)

/-! ## Headers -/

/-- Set the fields of a packet header. -/
def State.enterPacket (header : List UInt8) (offset : ℤ) (b : State) : State :=
  {b with
    payloadLength := leNat (header.take 3)
    packetOffset := offset
    sequenceId := leInt 1 (header.drop 3)+1
    totalBytesInPacket := b.totalBytesInPacket+leNat (header.take 3)}

/-- Some bytes of the buffer, from an index on. -/
def State.bytesAt (b : State) (first n : ℕ) : List UInt8 := (b.buffer.drop first).take n

/-- Consume the header of a packet. -/
def State.nextPacket (b : State) : State :=
  {b.enterPacket (b.bytesAt b.bufferStart 4) 0 with bufferStart := b.bufferStart+4}

/-- `readPacketHeader()`. -/
def readPacketHeader (b : State) : Option State :=
  if 4 ≤ b.haveBytes then some b.nextPacket else none

/-- `readPacketHeaderAsync()`. -/
def readPacketHeaderAsync : Recv Unit := do
  recvAtLeast 4
  modify State.nextPacket

/-- The loop of `#correctNearPacketBoundary()`. -/
def fillCompact (wantRead : ℕ) : ℕ → Recv Unit
  | 0 => wait
  | fuel+1 => do
    let b ← get
    if b.haveBytes < wantRead then do
      modify State.compact
      receive
      fillCompact wantRead fuel
    else pure ()

/-- Cut the next header out, so that the two parts of the payload are joined. -/
def State.joinPacket (tail : ℕ) (b : State) : State :=
  let b' := b.enterPacket (b.bytesAt (b.bufferStart+tail) 4) (-tail)
  {b' with
    buffer := splice (b.bufferStart+4) (b.bytesAt b.bufferStart tail) b.buffer
    bufferStart := b.bufferStart+4}

/-- `#correctNearPacketBoundary()`. -/
def correctNearPacketBoundary : Recv Unit := do
  let b ← get
  doWhen (b.payloadLength=maxPayload) (do
    let tail := b.lenInCurPacket.toNat
    fillCompact (tail+4) (tail+5)
    modify (State.joinPacket tail))

/-- Join the next packet, when fewer than some bytes are left of a full one. -/
def reserve (k : ℕ) : Recv Unit := do
  let b ← get
  doWhen ((maxPayload : ℤ)-k < b.packetOffset) correctNearPacketBoundary

/-! ## Reading -/

/-- A fast variant, and the asynchronous one when it finds too few bytes. -/
def orAsync {α : Type} (fast : State → Option (α×State)) (slow : Recv α) : Recv α := fun b =>
  match fast b with
  | some (a,b') => .done a b'
  | none => slow b

/-- The fast variant finds what it needs. -/
theorem orAsync_some {α : Type} {fast : State → Option (α×State)} {b b' : State} {a : α}
    (h : fast b=some (a,b')) (slow : Recv α) : orAsync fast slow b=.done a b' := by
  unfold orAsync
  rw [h]

/-- The fast variant gives up. -/
theorem orAsync_none {α : Type} {fast : State → Option (α×State)} {b : State} (h : fast b=none)
    (slow : Recv α) : orAsync fast slow b=slow b := by
  unfold orAsync
  rw [h]

/-- Pass bytes of the payload. -/
def State.advance (n : ℕ) (b : State) : State :=
  {b with bufferStart := b.bufferStart+n,packetOffset := b.packetOffset+n}

/-- Pass bytes of the payload and return them. -/
def consume (n : ℕ) : Recv (List UInt8) := fun b =>
  .done (b.bytesAt b.bufferStart n) (b.advance n)

/-- `readPacketHeader() || await readPacketHeaderAsync()`. -/
def header : Recv Unit := orAsync (fun b => (readPacketHeader b).map fun b' => ((),b'))
  readPacketHeaderAsync

/-- `readUint8()` and the like, for numbers of some bytes. -/
def fixedFast (k : ℕ) (b : State) : Option (List UInt8×State) :=
  if k ≤ b.haveBytes ∧ b.packetOffset ≤ (maxPayload : ℤ)-k then
    some (b.bytesAt b.bufferStart k,b.advance k)
  else none

/-- `readUint8Async()` and the like. -/
def fixedAsync (k : ℕ) : Recv (List UInt8) := do
  reserve k
  recvAtLeast k
  consume k

/-- A number of some bytes. -/
def readFixed (k : ℕ) : Recv (List UInt8) := orAsync (fixedFast k) (fixedAsync k)

/-- The byte at the beginning of the window. -/
def State.desc (b : State) : UInt8 := (b.buffer.drop b.bufferStart).headD 0

/-- `readLenencInt()`. -/
def lenencFast (b : State) : Option (ℤ×State) :=
  if 0 < b.haveBytes ∧ b.packetOffset ≤ (maxPayload : ℤ)-9 then
    let size := lenencSize b.desc
    if b.haveBytes < size then none
    else some (lenencValue (b.bytesAt b.bufferStart size),b.advance size)
  else none

/-- `readLenencIntAsync()`. -/
def lenencAsync : Recv ℤ := do
  reserve 9
  let b ← get
  doWhen (b.haveBytes=0) (recvAtLeast 1)
  let b ← get
  let size := lenencSize b.desc
  doWhen (1 < size) (recvAtLeast size)
  return lenencValue (←consume size)

/-- A length-encoded integer. -/
def readLenencInt : Recv ℤ := orAsync lenencFast lenencAsync

/-- The error of a string that is too long for the buffer. -/
def tooLong : Error := .error "String is too long for this operation. Longer than 8188 bytes"

/-- The part of `readShortBytes()` that crosses a packet boundary. -/
def State.acrossBoundary (head len : ℕ) (b : State) : List UInt8×State :=
  let b' := {b with bufferStart := b.bufferStart+head}.nextPacket
  (b.bytesAt b.bufferStart head++b'.bytesAt b'.bufferStart (len-head),b'.advance (len-head))

/-- `readShortBytes()`, for a length that the buffer has room for. -/
def shortBytesFast (len : ℕ) (b : State) : Option (List UInt8×State) :=
  if len ≤ b.haveBytes then
    if (len : ℤ) ≤ b.lenInCurPacket then some (b.bytesAt b.bufferStart len,b.advance len)
    else if len+4 ≤ b.haveBytes then some (b.acrossBoundary b.lenInCurPacket.toNat len)
    else none
  else none

/-- Pass the bytes before a packet header and return them. -/
def passHead (n : ℕ) : Recv (List UInt8) := fun b =>
  .done (b.bytesAt b.bufferStart n) {b with bufferStart := b.bufferStart+n}

/-- `readShortBytesAsync()`. -/
def shortBytesAsync (len : ℕ) : Recv (List UInt8) := do
  let b ← get
  if (len : ℤ) ≤ b.lenInCurPacket then
    recvAtLeast len
    consume len
  else
    let head := b.lenInCurPacket.toNat
    recvAtLeast (head+4)
    let first ← passHead head
    modify State.nextPacket
    recvAtLeast (len-head)
    let second ← consume (len-head)
    return first++second

/-- A byte string of a given length. -/
def readShortBytes (len : ℕ) : Recv (List UInt8) :=
  if bufferLen-4 < len then fail tooLong else orAsync (shortBytesFast len) (shortBytesAsync len)

/-- `readShortLenencBytes()`. -/
def lenencBytesFast (b : State) : Option (List UInt8×State) :=
  if 0 < b.haveBytes ∧ b.packetOffset ≤ (maxPayload : ℤ)-9 then
    let numLen := lenencSize b.desc
    if b.haveBytes < numLen then none
    else
      let strLen := lenencValue (b.bytesAt b.bufferStart numLen)
      if b.desc=0xFB then some ([],b.advance 1)
      else if b.desc=0xFE ∧ (bufferLen : ℤ) < strLen then none
      else
        let allLen := strLen.toNat+numLen
        if allLen ≤ b.haveBytes then
          if (allLen : ℤ) ≤ b.lenInCurPacket then
            some ((b.bytesAt b.bufferStart allLen).drop numLen,b.advance allLen)
          else if allLen+4 ≤ b.haveBytes then
            let (value,b') := b.acrossBoundary b.lenInCurPacket.toNat allLen
            some (value.drop numLen,b')
          else none
        else none
  else none

/-- `readShortLenencBytesAsync()`. -/
def lenencBytesAsync : Recv (List UInt8) := do
  let len ← readLenencInt
  if (bufferLen : ℤ)-4 < len then fail tooLong
  else if len ≤ -1 then return []
  else readShortBytes len.toNat

/-- A byte string with its length before it. -/
def readShortLenencBytes : Recv (List UInt8) := orAsync lenencBytesFast lenencBytesAsync

/-- The loop of `readBytesToBuffer()` that reads from the connection to the destination. -/
def directLoop : ℕ → ℤ → ℕ → Recv (List UInt8)
  | 0,_,_ => wait
  | fuel+1,lenInCurPacket,len =>
    if 0 < lenInCurPacket ∧ 0 < len then do
      let value ← readFromConn (min lenInCurPacket.toNat len)
      match value with
      | none => fail lostConnection
      | some value =>
        if value=[] then fail (.serverDisconnected "Reader returned 0 bytes without EOF")
        else
          modify fun b => {b with
            packetOffset := b.packetOffset+value.length,bufferStart := 0,bufferEnd := 0}
          let rest ← directLoop fuel (lenInCurPacket-value.length) (len-value.length)
          return value++rest
    else return []

/-- The bytes of the window that `readBytesToBuffer()` copies. -/
def State.copied (b : State) (len : ℕ) : ℕ := min (min b.haveBytes b.lenInCurPacket.toNat) len

/-- The loop of `readBytesToBuffer()`. -/
def copyLoop : ℕ → ℕ → Recv (List UInt8)
  | 0,_ => wait
  | fuel+1,len => do
    if len=0 then return [] else
      let b ← get
      doWhen (b.lenInCurPacket=0) header
      let b ← get
      let n := b.copied len
      let a ← consume n
      let c ← directLoop (len-n+1) (b.lenInCurPacket-n) (len-n)
      let rest ← copyLoop fuel (len-n-c.length)
      return a++c++rest

/-- `readBytesToBuffer()` for a destination of `len` bytes. -/
def readBytesToBuffer (len : ℕ) : Recv (List UInt8) := fun b =>
  copyLoop (b.stream.length+1) len b

end SpiritMysql.ReceiveBuffer
