import SpiritMysql.EventSystem
import SpiritMysql.InsertionMaps
import SpiritMysql.ReallocAppend
import Mathlib.Algebra.GroupWithZero.Nat

/-!
# The writer of the SQL log

`SqlLogToWritableBase` keeps the bytes that wait for the sink in a buffer for each
connection, and a task writes one buffer after another. A buffer can be appended to while
the sink reads it. What happens between two awaits is one step here.
-/

namespace SpiritMysql.SqlLogWriter

open AsyncAction TypedArrays ReallocAppend InsertionMaps

/-- `MAX_BUFFER_SIZE`. -/
def MAX_BUFFER_SIZE : ℕ := 1*1024*1024

/-- A banner is put in front of what a buffer has. -/
def prepend (buf : View) (banner : List UInt8) : Op View := do
  let banner ← ofBytes banner
  let m ← get
  if buf.length+banner.length ≤ (content m buf.buffer).length then do
    let newBuf ← whole buf.buffer
    newBuf.copyWithin banner.length buf.byteOffset (buf.byteOffset+buf.length)
    newBuf.set banner 0
    pure (newBuf.subarray 0 (buf.length+banner.length))
  else do
    let newBuf ← alloc (buf.length+banner.length)
    newBuf.set banner 0
    newBuf.set buf banner.length
    pure newBuf

/-- What a buffer has is moved to its beginning. -/
def moveToFront (buf : View) : Op View := do
  let newBuf ← whole buf.buffer
  newBuf.copyWithin 0 buf.byteOffset (buf.byteOffset+buf.length)
  pure (newBuf.subarray 0 buf.length)

/-- The buffer that is given to the sink. -/
def prepare (buf : View) : Option (List UInt8) → Op View
  | some banner => prepend buf banner
  | none => if buf.byteOffset≠0 then moveToFront buf else pure buf

/-- A call of `write()` before the logger is shut down. -/
structure Call (Dsn : Type) where
  dsn : Dsn
  connectionId : ℕ
  data : List UInt8

/-- What the sink got of one buffer. -/
structure Chunk (Dsn : Type) where
  dsn : Dsn
  connectionId : ℕ
  /-- The banner in front. -/
  banner : Option (List UInt8)
  /-- The bytes that the sink read until now. -/
  bytes : List UInt8

/-- A buffer that the sink reads. -/
structure Writing (Dsn : Type) where
  dsn : Dsn
  connectionId : ℕ
  /-- What was given to the sink. -/
  buf : View
  /-- How much of it the sink read. -/
  taken : ℕ

/-- `#ongoing`. -/
inductive Task (Dsn : Type) where
  /-- No task. -/
  | none
  /-- The task waits for the sink. -/
  | writing (w : Writing Dsn)
  /-- The task found no connection in a map of connections, and does not end. -/
  | spins

/-- The fields of `SqlLogToWritableBase`, and what was done. -/
structure State (Dsn : Type) where
  memory : Memory := []
  /-- `#pending`. -/
  pending : List (Dsn × List (ℕ×View)) := []
  ongoing : Task Dsn := .none
  /-- The promises that wait until there is less to be written. -/
  continueAfterFlush : List ℕ := []
  isDisposed : Bool := false
  isBroken : Bool := false
  /-- `writerStatePerSink` of the sink. -/
  writerState : Option (ℕ×Dsn) := none
  /-- How many banners were asked for. -/
  nBanners : ℕ := 0
  /-- How many promises were returned. -/
  nPromises : ℕ := 0
  /-- The promises that are resolved. -/
  resolved : List ℕ := []
  calls : List (Call Dsn) := []
  chunks : List (Chunk Dsn) := []

/-- What can happen to the logger. -/
inductive Event (Dsn : Type) where
  /-- `write()` is called. -/
  | write (dsn : Dsn) (connectionId : ℕ) (data : List UInt8)
  /-- The sink reads more bytes. -/
  | take (count : ℕ)
  /-- The sink wrote all that was given to it. -/
  | written
  /-- The sink fails. -/
  | fails
  /-- `dispose()` is called. -/
  | dispose

variable {Dsn : Type} [DecidableEq Dsn]

/-- `nextConnBanner()`, which can answer every time as it likes. -/
abbrev Banners (Dsn : Type) := ℕ → Dsn → ℕ → Option (List UInt8)

/-- The buffer of a connection. -/
def State.buf? (s : State Dsn) (dsn : Dsn) (connectionId : ℕ) : Option View :=
  (InsertionMaps.get dsn s.pending).bind (InsertionMaps.get connectionId)

/-- The buffer of a connection is set. -/
def State.setBuf (s : State Dsn) (dsn : Dsn) (connectionId : ℕ) (buf : View) : State Dsn :=
  let byConn := (InsertionMaps.get dsn s.pending).getD []
  {s with pending := InsertionMaps.set dsn (InsertionMaps.set connectionId buf byConn) s.pending}

/-- The buffer of a connection is deleted, and the map of connections when it is empty then. -/
def State.deleteBuf (s : State Dsn) (dsn : Dsn) (connectionId : ℕ) : State Dsn :=
  let byConn := delete connectionId ((InsertionMaps.get dsn s.pending).getD [])
  if byConn=[] then {s with pending := delete dsn s.pending}
  else {s with pending := InsertionMaps.set dsn byConn s.pending}

/-- `#getMemory()`. -/
def State.getMemory (s : State Dsn) : ℕ :=
  (s.pending.flatMap (fun e => e.2.map (fun c => (content s.memory c.2.buffer).length))).sum

/-- The callbacks are called. -/
def State.callback (s : State Dsn) : State Dsn :=
  {s with resolved := s.resolved++s.continueAfterFlush, continueAfterFlush := []}

/-- The task ends after an error. -/
def State.breakDown (s : State Dsn) : State Dsn :=
  {s.callback with isBroken := true, ongoing := .none}

/-- The buffer of a connection is given to the sink. -/
def State.sendBuf (banners : Banners Dsn) (s : State Dsn) (dsn : Dsn) (connectionId : ℕ) :
    State Dsn :=
  match s.buf? dsn connectionId with
  | none => {s with ongoing := .spins}
  | some buf =>
    let isNext := decide (s.writerState≠some (connectionId,dsn))
    let banner := if isNext=true then banners s.nBanners dsn connectionId else none
    let s := {s with
      writerState := some (connectionId,dsn)
      nBanners := if isNext=true then s.nBanners+1 else s.nBanners}
    match prepare buf banner s.memory with
    | .done buf m =>
      {State.setBuf {s with memory := m} dsn connectionId buf with
        ongoing := .writing ⟨dsn,connectionId,buf,0⟩
        chunks := s.chunks++[⟨dsn,connectionId,banner,[]⟩]}
    | .thrown _ m => State.breakDown {s with memory := m}
    | .waiting m => {s with memory := m}

/-- The first connection of a map of connections is next. -/
def State.sendFirst (banners : Banners Dsn) (s : State Dsn) (dsn : Dsn) :
    List (ℕ×View) → State Dsn
  | [] => {s with ongoing := .spins}
  | (connectionId,_)::_ => s.sendBuf banners dsn connectionId

/-- The beginning of the loop of `#doTask()`. -/
def State.doTask (banners : Banners Dsn) (s : State Dsn) : State Dsn :=
  let s := if s.continueAfterFlush≠[] ∧ s.getMemory < MAX_BUFFER_SIZE ∨ s.isBroken=true then
    s.callback else s
  if s.isBroken=true then {s with ongoing := .none}
  else
    match s.pending with
    | [] => {s with ongoing := .none}
    | (dsn,byConn)::_ => s.sendFirst banners dsn byConn

/-- The task goes on with the next connection. -/
def State.nextConn (banners : Banners Dsn) (s : State Dsn) (dsn : Dsn) : State Dsn :=
  match InsertionMaps.get dsn s.pending with
  | some byConn => s.sendFirst banners dsn byConn
  | none => s.doTask banners

/-- The task goes on after the sink wrote a buffer. -/
def State.afterWrite (banners : Banners Dsn) (s : State Dsn) (w : Writing Dsn) : State Dsn :=
  match s.buf? w.dsn w.connectionId with
  | none => (s.deleteBuf w.dsn w.connectionId).nextConn banners w.dsn
  | some buf =>
    if w.buf.length=buf.length then
      (s.deleteBuf w.dsn w.connectionId).nextConn banners w.dsn
    else
      (s.setBuf w.dsn w.connectionId (buf.subarray w.buf.length buf.length)).sendBuf banners
        w.dsn w.connectionId

/-- The buffer of a connection, or a new one. -/
def State.obtain (s : State Dsn) (dsn : Dsn) (connectionId : ℕ) : View×State Dsn :=
  match s.buf? dsn connectionId with
  | some buf => (buf,s)
  | none =>
    let buf : View := ⟨s.memory.length,0,0⟩
    (buf,State.setBuf {s with memory := s.memory++[List.replicate (8*1024) 0]} dsn connectionId
      buf)

/-- A promise that is resolved is returned. -/
def State.resolve (s : State Dsn) : State Dsn :=
  {s with nPromises := s.nPromises+1, resolved := s.resolved++[s.nPromises]}

/-- The task is begun when there is none. -/
def State.ensureTask (banners : Banners Dsn) (s : State Dsn) : State Dsn :=
  match s.ongoing with
  | .none => s.doTask banners
  | _ => s

/-- A promise is returned, and it waits when there is much to be written. -/
def State.answer (s : State Dsn) : State Dsn :=
  if s.getMemory < MAX_BUFFER_SIZE then s.resolve
  else {s with
    nPromises := s.nPromises+1
    continueAfterFlush := s.continueAfterFlush++[s.nPromises]}

/-- `write()`. -/
def State.write (banners : Banners Dsn) (s : State Dsn) (dsn : Dsn) (connectionId : ℕ)
    (data : List UInt8) : State Dsn :=
  if s.isDisposed=true then s
  else if s.isBroken=true then
    State.resolve {s with calls := s.calls++[⟨dsn,connectionId,data⟩]}
  else if data=[] then State.resolve {s with calls := s.calls++[⟨dsn,connectionId,data⟩]}
  else
    let buf := (s.obtain dsn connectionId).1
    let s := (s.obtain dsn connectionId).2
    match (do
      let data ← ofBytes data
      reallocAppend buf data true : Op View) s.memory with
    | .thrown _ m => {s with memory := m, calls := s.calls++[⟨dsn,connectionId,data⟩]}
    | .waiting m => {s with memory := m}
    | .done newBuf m =>
      let s := State.setBuf {s with
        memory := m
        calls := s.calls++[⟨dsn,connectionId,data⟩]} dsn connectionId newBuf
      (s.ensureTask banners).answer

/-- The sink reads bytes of the buffer that it was given, as they are now. -/
def State.take (s : State Dsn) (w : Writing Dsn) (count : ℕ) : State Dsn :=
  {s with
    ongoing := .writing {w with taken := w.taken+count}
    chunks := s.chunks.modifyLast (fun c => {c with
      bytes := c.bytes++read (w.buf.byteOffset+w.taken) count (content s.memory w.buf.buffer)})}

/-- The state after an event, when it can happen. -/
def State.step (banners : Banners Dsn) (s : State Dsn) : Event Dsn → Option (State Dsn)
  | .write dsn connectionId data => some (s.write banners dsn connectionId data)
  | .take count =>
    match s.ongoing with
    | .writing w => if w.taken+count ≤ w.buf.length then some (s.take w count) else none
    | _ => none
  | .written =>
    match s.ongoing with
    | .writing w => if w.taken=w.buf.length then some (s.afterWrite banners w) else none
    | _ => none
  | .fails =>
    match s.ongoing with
    | .writing _ => some s.breakDown
    | _ => none
  | .dispose => some {s with isDisposed := true}

end SpiritMysql.SqlLogWriter
