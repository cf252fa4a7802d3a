import SpiritMysql.PacketStream
import SpiritMysql.Utf16Text

/-!
# The packet writer

`MyProtocolReaderWriter` over its buffer and the bytes it has handed over
to the connection. The connection takes every byte, so the `catch` blocks
of the sending operations are not reached. In the compressed protocol the
bytes handed over are those that are wrapped in compressed packets.
-/

namespace SpiritMysql.Writer

open AsyncAction ByteCodec Errors Reader Utf16Text

/-- `MAX_CAN_WAIT_PACKET_PRELUDE_BYTES`. -/
def maxCanWaitPacketPreludeBytes : ℕ := 12

/-- The state of a writer. -/
structure State where
  /-- The buffer with all its bytes, also those left by earlier packets. -/
  buffer : List UInt8
  /-- Where the current packet begins. -/
  bufferStart : ℕ := 0
  /-- Where the next byte is written. -/
  bufferEnd : ℕ := 0
  /-- The number of the next packet. Its low byte is sent. -/
  sequenceId : ℕ := 0
  /-- The compressed protocol is used. -/
  compression : Bool := false
  /-- The bytes handed over to the connection. -/
  out : List UInt8 := []
deriving DecidableEq, Repr

/-- An operation of the writer. -/
abbrev Write (α : Type) := Act Error State α

/-- Data that can be sent as a part of a packet. -/
inductive SqlSource where
  /-- A string of UTF-16 units. -/
  | string (text : List UInt16)
  /-- A byte array. -/
  | bytes (data : List UInt8)
  /-- An object that converts itself to `text`. It may put the result to the
  room that is left in the buffer, when it likes the size of the room. -/
  | toSqlBytes (text : List UInt8) (inRoom : ℕ → Bool)
  /-- A reader or a stream of a declared size, and the chunks that it will
  deliver. -/
  | stream (size : ℕ) (chunks : List (List UInt8))

/-- Overwrite bytes in the middle. -/
def splice (at_ : ℕ) (bytes buffer : List UInt8) : List UInt8 :=
  buffer.take at_++(bytes++buffer.drop (at_+bytes.length))

/-- Where an argument of `subarray()` points to. -/
def position (length : ℕ) (k : ℤ) : ℕ :=
  if k < 0 then (length+k).toNat else min k.toNat length

/-- `subarray(begin, end)`. -/
def subarray (first last : ℤ) (bytes : List UInt8) : List UInt8 :=
  (bytes.take (position bytes.length last)).drop (position bytes.length first)

/-- `buffer.set()`, which throws out of the range. -/
def set (at_ : ℕ) (bytes : List UInt8) : Write Unit := fun s =>
  if at_+bytes.length ≤ s.buffer.length then
    .done () {s with buffer := splice at_ bytes s.buffer}
  else .thrown (.error "RangeError: offset is out of bounds") s

/-- Move the place of the next byte. -/
def skip (n : ℕ) : Write Unit := modify fun s => {s with bufferEnd := s.bufferEnd+n}

/-- Set the bounds of the current packet. -/
def setBounds (first last : ℕ) : Write Unit :=
  modify fun s => {s with bufferStart := first, bufferEnd := last}

/-- The header of a packet. The packet number is in the high byte. -/
def header (payloadLength sequenceId : ℕ) : List UInt8 :=
  leBytes 4 (payloadLength ||| sequenceId <<< 24)

/-- `setHeader()`. -/
def setHeader (payloadLength : ℕ) : Write Unit := do
  let s ← get
  modify fun s => {s with sequenceId := s.sequenceId+1}
  set s.bufferStart (header payloadLength s.sequenceId)

/-- `sendPackets()`. -/
def sendPackets (last : ℕ) : Write Unit :=
  modify fun s => {s with out := s.out++s.buffer.take last}

/-- `sendData()`. -/
def sendData (data : List UInt8) : Write Unit := modify fun s => {s with out := s.out++data}

/-- Set the header of a packet and send it with the packets before it. -/
def sendCurrent (payloadLength : ℕ) : Write Unit := do
  setHeader payloadLength
  let s ← get
  sendPackets s.bufferEnd

/-- `send()`. -/
def send : Write Unit := do
  let s ← get
  setHeader (s.bufferEnd-s.bufferStart-4)
  setBounds 0 0
  sendPackets s.bufferEnd

/-- Where a new packet begins. Its predecessor stays in the queue. -/
def openPacket : Write Unit := do
  let s ← get
  if s.bufferEnd=s.bufferStart then setBounds 0 4
  else do
    setHeader (s.bufferEnd-s.bufferStart-4)
    setBounds s.bufferEnd (s.bufferEnd+4)

/-- `startWritingNewPacket()`. -/
def startWritingNewPacket (resetSequenceId : Bool) : Write Unit := do
  openPacket
  doWhen (resetSequenceId=true) (modify fun s => {s with sequenceId := 0})

/-- `writeShortBytes()`. -/
def writeShortBytes (bytes : List UInt8) : Write Unit := do
  let s ← get
  set s.bufferEnd bytes
  skip bytes.length

/-- `writeShortString()`. What does not fit the buffer is dropped. -/
def writeShortString (value : List UInt16) : Write Unit := do
  let s ← get
  let written := (encodeInto value (s.buffer.length-s.bufferEnd)).2
  set s.bufferEnd written
  skip written.length

/-- Is there room in the buffer for the prelude of one more packet? -/
def State.hasRoom (s : State) : Bool :=
  decide (s.bufferEnd+maxCanWaitPacketPreludeBytes ≤ s.buffer.length)

/-- The end of `sendWithData()`: prepare for the reader. -/
def finish : Write Bool := do
  setBounds 0 0
  pure false

/-! ## Byte arrays -/

/-- The packets of `0xFFFFFF` bytes. The result is the size of the last
packet and the data that is not sent yet. -/
def bytesLoop : ℕ → ℕ → List UInt8 → Write (ℕ×List UInt8)
  | 0,_,_ => wait
  | fuel+1,packetSizeRemaining,data =>
    if maxPayload ≤ packetSizeRemaining then do
      sendCurrent maxPayload
      let s ← get
      let dataChunkLen : ℤ := maxPayload-(s.bufferEnd-s.bufferStart-4)
      sendData (subarray 0 dataChunkLen data)
      let data := subarray dataChunkLen data.length data
      setBounds 0 4
      bytesLoop fuel data.length data
    else pure (packetSizeRemaining,data)

/-- The last packet of a byte array. The result tells whether it waits in
the buffer. -/
def lastBytes (canWait : Bool) (packetSizeRemaining : ℕ) (data : List UInt8) : Write Bool := do
  let s ← get
  if s.bufferStart+4+packetSizeRemaining ≤ s.buffer.length then do
    set s.bufferEnd data
    skip data.length
    let s ← get
    if canWait && s.hasRoom then pure true
    else do
      sendCurrent packetSizeRemaining
      finish
  else do
    sendCurrent packetSizeRemaining
    if canWait && !s.compression &&
        decide (data.length+maxCanWaitPacketPreludeBytes ≤ s.buffer.length) then do
      set 0 data
      setBounds data.length data.length
      pure true
    else do
      sendData data
      finish

/-- `sendWithData()` of a byte array. -/
def sendBytes (canWait : Bool) (data : List UInt8) : Write Bool := do
  let s ← get
  let packetSize := s.bufferEnd-s.bufferStart-4+data.length
  let (packetSizeRemaining,rest) ← bytesLoop (packetSize+1) packetSize data
  lastBytes canWait packetSizeRemaining rest

/-! ## Strings -/

/-- `utf8StringLength()`: the bytes that a text takes above one for each
unit. -/
def utf8Extra : List UInt16 → ℕ
  | [] => 0
  | [c] => (if 0x7F < c.toNat then 1 else 0)+if 0x7FF < c.toNat then 1 else 0
  | c::c2::rest =>
    if 0x7FF < c.toNat ∧ isHigh c=true ∧ isLow c2=true then 2+utf8Extra rest
    else
      (if 0x7F < c.toNat then 1 else 0)+(if 0x7FF < c.toNat then 1 else 0)+utf8Extra (c2::rest)

/-- `utf8StringLength()`. -/
def utf8StringLength (str : List UInt16) : ℕ := str.length+utf8Extra str

/-- What is not sent yet of a long string: its characters, the number of its
bytes, and the tail of a character that a packet boundary has split. -/
structure LongText where
  /-- The characters that are not encoded yet. -/
  data : List UInt16
  /-- The number of bytes, with those of the tail. -/
  dataLength : ℤ
  /-- `carry[carryStart .. carryEnd]`. -/
  carry : List UInt8 := []

/-- The next bytes of a long string, for the room that is left in the
current packet. -/
def nextPart (dataChunkLen : ℤ) (t : LongText) : Write (List UInt8×LongText) := do
  let s ← get
  if t.carry=[] then
    match encodeInto t.data (min dataChunkLen.toNat s.buffer.length) with
    | (_,[]) =>
      if t.data=[] then fail (.error "RangeError: Invalid code point undefined")
      else
        -- a character straddles the packet boundary
        let char := firstChar t.data
        pure ((encode char).take dataChunkLen.toNat,
          {t with data := t.data.drop char.length,
                  carry := (encode char).drop dataChunkLen.toNat})
    | (read,written) => do
      set 0 written
      pure (written,{t with data := t.data.drop read})
  else pure (t.carry,{t with carry := []})

/-- Complete a packet of `0xFFFFFF` bytes. -/
def chunkLoop : ℕ → ℤ → LongText → Write LongText
  | 0,_,_ => wait
  | fuel+1,dataChunkLen,t =>
    if 0 < dataChunkLen then do
      let (part,rest) ← nextPart dataChunkLen t
      sendData part
      chunkLoop fuel (dataChunkLen-part.length) rest
    else pure t

/-- The packets of `0xFFFFFF` bytes of a long string. The result is the size
of the last packet and what is not sent yet. -/
def textLoop : ℕ → ℤ → LongText → Write (ℤ×LongText)
  | 0,_,_ => wait
  | fuel+1,packetSizeRemaining,t =>
    if maxPayload ≤ packetSizeRemaining then do
      sendCurrent maxPayload
      let s ← get
      let dataChunkLen : ℤ := maxPayload-(s.bufferEnd-s.bufferStart-4)
      let t ← chunkLoop (dataChunkLen.toNat+1) dataChunkLen
        {t with dataLength := t.dataLength-dataChunkLen}
      setBounds 0 4
      textLoop fuel t.dataLength t
    else pure (packetSizeRemaining,t)

/-- Send what is left of a long string by parts of the size of the buffer. -/
def restLoop : ℕ → LongText → Write Unit
  | 0,_ => wait
  | fuel+1,t =>
    if 0 < t.dataLength then do
      let s ← get
      let (read,written) := encodeInto t.data (min t.dataLength.toNat s.buffer.length)
      set 0 written
      sendData written
      restLoop fuel {t with data := t.data.drop read, dataLength := t.dataLength-written.length}
    else pure ()

/-- The last packet of a long string. -/
def lastText (canWait : Bool) (packetSizeRemaining : ℤ) (t : LongText) : Write Bool := do
  let s ← get
  if s.bufferStart+4+packetSizeRemaining ≤ s.buffer.length then do
    writeShortBytes t.carry
    writeShortString t.data
    let s ← get
    if canWait && s.hasRoom then pure true
    else do
      sendCurrent packetSizeRemaining.toNat
      finish
  else do
    sendCurrent packetSizeRemaining.toNat
    sendData t.carry
    let dataLength := t.dataLength-t.carry.length
    restLoop (dataLength.toNat+1) {t with dataLength := dataLength, carry := []}
    finish

/-- `sendWithData()` of a string that does not fit the buffer. -/
def sendLongString (canWait : Bool) (data : List UInt16) : Write Bool := do
  let s ← get
  let dataLength := utf8StringLength data
  let packetSize := s.bufferEnd-s.bufferStart-4+dataLength
  let (packetSizeRemaining,t) ← textLoop (packetSize+1) packetSize {data, dataLength}
  lastText canWait packetSizeRemaining t

/-- Does a string fit the buffer? The size is computed when four bytes for
each unit are too many. -/
def State.fitsString (s : State) (data : List UInt16) : Bool :=
  decide (s.bufferEnd+data.length*4 ≤ s.buffer.length) ||
    decide (s.bufferEnd+utf8StringLength data ≤ s.buffer.length)

/-- `sendWithData()` of a string. -/
def sendString (canWait : Bool) (data : List UInt16) : Write Bool := do
  let s ← get
  if s.fitsString data then do
    writeShortString data
    let s ← get
    if canWait && s.hasRoom then pure true
    else do
      send
      pure false
  else sendLongString canWait data

/-! ## Streams -/

/-- Read from a stream to a part of the buffer. The result is the number of
bytes, and the chunks that follow. -/
def readStream (first last : ℤ) (chunks : List (List UInt8)) :
    Write (List UInt8×List (List UInt8)) := do
  let s ← get
  let view := subarray first last s.buffer
  if view=[] then fail (.error "TypeError: empty view")
  else
    match chunks with
    | [] => fail (.error "Unexpected end of stream")
    | chunk::chunks => do
      let value := chunk.take view.length
      set (position s.buffer.length first) value
      let rest := chunk.drop view.length
      pure (value,if rest=[] then chunks else rest::chunks)

/-- Send bytes read from a stream. When something is in the buffer before
them, it begins with packet headers. -/
def sendValue (queued : ℕ) (value : List UInt8) : Write Unit :=
  if 0 < queued then sendPackets (queued+value.length) else sendData value

/-- Pipe a stream to the connection. -/
def pipe : ℕ → ℤ → ℕ → List (List UInt8) → Write Unit
  | 0,_,_,_ => wait
  | fuel+1,canSend,packetSizeRemaining,chunks => do
    let s ← get
    let (value,chunks) ← readStream s.bufferEnd (s.bufferEnd+canSend) chunks
    sendValue s.bufferEnd value
    let canSend := canSend-value.length
    if 0 < canSend then do
      setBounds 0 0
      pipe fuel canSend packetSizeRemaining chunks
    else if packetSizeRemaining=0 then pure ()
    else do
      let canSend := min packetSizeRemaining maxPayload
      setBounds 0 4
      setHeader canSend
      pipe fuel canSend (packetSizeRemaining-canSend) chunks

/-- `sendWithData()` of a reader or a stream. -/
def sendStream (canWait : Bool) (dataLength : ℕ) (chunks : List (List UInt8)) : Write Bool := do
  let s ← get
  if dataLength=0 then
    if canWait && s.hasRoom then pure true
    else do
      send
      pure false
  else do
    let alreadyFilled := s.bufferEnd-s.bufferStart-4
    let packetSize := alreadyFilled+dataLength
    let canSend := min packetSize maxPayload
    setHeader canSend
    setBounds 0 s.bufferEnd
    doWhen (s.buffer.length < 2*s.bufferEnd) (do
      sendPackets s.bufferEnd
      setBounds 0 0)
    pipe (dataLength+chunks.length+1) (canSend-alreadyFilled) (packetSize-canSend) chunks
    finish

/-! ## All sources -/

/-- `sendWithData()`. -/
def sendWithData (data : SqlSource) (canWait : Bool) : Write Bool :=
  match data with
  | .string text => sendString canWait text
  | .bytes data => sendBytes canWait data
  | .toSqlBytes text inRoom => do
    let s ← get
    if inRoom (s.buffer.length-s.bufferEnd) then do
      set s.bufferEnd text
      skip text.length
      send
      pure false
    else sendBytes canWait text
  | .stream size chunks => sendStream canWait size chunks

end SpiritMysql.Writer
