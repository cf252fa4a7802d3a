import SpiritMysql.CompressedReader
import SpiritMysql.Writer

/-!
# Writing in the compressed protocol

The operations of `MyProtocolReaderWriter` that queue packets in the buffer
and hand them over, with the offsets at which commands begin. The same
operations without compression are the ordinary protocol.
-/

namespace SpiritMysql.CompressedWriter

open ByteCodec CompressedPackets CompressedReader
open Writer (header)

/-- A byte of the buffer, if it was written since the buffer was handed over,
and whether a command begins with it. The mark is not in the source. -/
abbrev Slot := Option UInt8×Bool

/-- A record for statements only: what was sent and received, in order. -/
inductive Event where
  /-- Bytes were handed over. -/
  | sent (cells : List Cell)
  /-- A compressed packet with a number was received. -/
  | received (seqId : ℕ)

/-- The state of a writer. -/
structure State where
  /-- The buffer up to `bufferEnd`. -/
  buffer : List Slot := []
  /-- Where the current packet begins. -/
  bufferStart : ℕ := 0
  /-- The size of the buffer. -/
  bufferLength : ℕ
  /-- The number of the next packet. -/
  sequenceId : ℕ := 0
  /-- `compression`. -/
  compression : Option Compression
  /-- `#commandStarts`. -/
  commandStarts : List ℕ := []
  /-- The number of the next compressed packet. -/
  compressedSeqId : ℕ := 0
  /-- The bytes handed over to the connection. -/
  wire : List UInt8 := []
  /-- What happened. -/
  log : List Event := []

/-- Typed arrays of the writer are smaller. -/
def maxArray : ℕ := 2^31

/-- A header that is not set yet. A command can begin with it. -/
def unsetHeader (command : Bool) : List Slot :=
  [(none,command),(none,false),(none,false),(none,false)]

/-- Write bytes over slots. The marks stay. -/
def overwrite (bytes : List UInt8) (slots : List Slot) : List Slot :=
  List.zipWith (fun b (slot : Slot) => (some b,slot.2)) bytes slots

/-- `setHeader()`. -/
def setHeader (payloadLength : ℕ) (s : State) : Option State :=
  if s.bufferStart+4 ≤ s.buffer.length then
    some {s with
      sequenceId := s.sequenceId+1
      buffer := s.buffer.take s.bufferStart++
        (overwrite (header payloadLength s.sequenceId) ((s.buffer.drop s.bufferStart).take 4)++
          s.buffer.drop (s.bufferStart+4))}
  else none

/-- Begin a packet at the end of the buffer. -/
def pushHeader (command : Bool) (s : State) : Option State :=
  if s.buffer.length+4 ≤ s.bufferLength then
    some {s with
      bufferStart := s.buffer.length
      buffer := s.buffer++unsetHeader command
      sequenceId := if command=true then 0 else s.sequenceId
      commandStarts :=
        if command=true ∧ s.compression≠none then s.commandStarts++[s.buffer.length]
        else s.commandStarts}
  else none

/-- `startWritingNewPacket()`: after existing packets that are not sent yet, or at
the start of the buffer. -/
def startWritingNewPacket (resetSequenceId : Bool) (s : State) : Option State :=
  if s.buffer.length=s.bufferStart then
    pushHeader resetSequenceId {s with buffer := [], commandStarts := []}
  else
    match setHeader (s.buffer.length-s.bufferStart-4) s with
    | none => none
    | some s => pushHeader resetSequenceId s

/-- `discardPacket()`. -/
def discardPacket (s : State) : Option State :=
  if s.bufferStart+4 ≤ s.buffer.length then
    some {s with
      buffer := s.buffer.take s.bufferStart
      commandStarts :=
        if s.commandStarts.getLast?=some s.bufferStart then s.commandStarts.dropLast
        else s.commandStarts}
  else none

/-- The write operations: all append to the current packet. -/
def write (bytes : List UInt8) (s : State) : Option State :=
  if s.buffer.length+bytes.length ≤ s.bufferLength then
    some {s with buffer := s.buffer++bytes.map (fun b => (some b,false))}
  else none

/-- The bytes of slots, when all were written. -/
def known : List Slot → Option (List Cell)
  | [] => some []
  | (none,_)::_ => none
  | (some b,command)::slots => (known slots).map ((b,command)::·)

/-- Hand bytes over: as they are, or as compressed packets. -/
def handOver (z : Codec) (writeAt : ℕ) (cells : List Cell) (starts : List ℕ) (s : State) :
    Option State :=
  match s.compression with
  | none => some {s with wire := s.wire++bytesOf cells, log := s.log++[.sent cells]}
  | some c =>
    match toCompressedPackets z c s.bufferLength writeAt (bytesOf cells) starts s.compressedSeqId with
    | none => none
    | some r => some {s with
        wire := s.wire++r.1, compressedSeqId := r.2, log := s.log++[.sent cells]}

/-- `sendPackets()` with the whole buffer. Then the callers set the bounds back. -/
def sendPackets (z : Codec) (s : State) : Option State :=
  match known s.buffer with
  | none => none
  | some cells =>
    (handOver z cells.length cells s.commandStarts s).map
      (fun s => {s with buffer := [], bufferStart := 0, commandStarts := []})

/-- `send()`. -/
def send (z : Codec) (s : State) : Option State :=
  match setHeader (s.buffer.length-s.bufferStart-4) s with
  | none => none
  | some s => sendPackets z s

/-- The callers leave room for the header of one more packet of the same command. -/
def reserveHeader (s : State) : Option State :=
  if s.buffer=[] ∧ 4 ≤ s.bufferLength then some {s with buffer := unsetHeader false} else none

/-- `sendData()`: a continuation of a payload, after the packets in the buffer were
flushed. The data can be in the buffer or elsewhere. -/
def sendData (z : Codec) (data : List UInt8) (inBuffer : Bool) (s : State) : Option State :=
  if s.buffer=[] ∧ data.length < maxArray then
    handOver z (if inBuffer=true then data.length else 0) (data.map (fun b => (b,false))) [] s
  else none

/-- The loop of `ensureRoom()`. -/
def growLoop (wantLen : ℕ) : ℕ → ℕ → ℕ
  | 0,len => len
  | fuel+1,len => if len < wantLen then growLoop wantLen fuel (len*2) else len

/-- `ensureRoom()`. -/
def ensureRoom (room : ℕ) (s : State) : Option State :=
  let wantLen := s.buffer.length+room
  if s.bufferLength < wantLen then
    let len := growLoop wantLen wantLen (s.bufferLength*2)
    if len < maxArray then some {s with bufferLength := len} else none
  else some s

/-- `readFromConn()` adopts the number of a compressed packet. -/
def receive (seqId : ℕ) (s : State) : State :=
  {s with
    compressedSeqId := if s.compression=none then s.compressedSeqId else adopt seqId
    log := s.log++[.received seqId]}

/-- The operations of a connection. -/
inductive Op where
  | startWritingNewPacket (resetSequenceId : Bool)
  | discardPacket
  | write (bytes : List UInt8)
  | setHeader (payloadLength : ℕ)
  | send
  | sendPackets
  | reserveHeader
  | sendData (data : List UInt8) (inBuffer : Bool)
  | ensureRoom (room : ℕ)
  /-- A compressed packet is received. -/
  | receive (seqId : ℕ)

/-- One operation, if it is possible. -/
def step (z : Codec) (s : State) : Op → Option State
  | .startWritingNewPacket reset => startWritingNewPacket reset s
  | .discardPacket => discardPacket s
  | .write bytes => write bytes s
  | .setHeader payloadLength => setHeader payloadLength s
  | .send => send z s
  | .sendPackets => sendPackets z s
  | .reserveHeader => reserveHeader s
  | .sendData data inBuffer => sendData z data inBuffer s
  | .ensureRoom room => ensureRoom room s
  | .receive seqId => some (receive seqId s)

/-- Operations one after another. -/
def run (z : Codec) : List Op → State → Option State
  | [],s => some s
  | op::ops,s =>
    match step z s op with
    | none => none
    | some s => run z ops s

end SpiritMysql.CompressedWriter
