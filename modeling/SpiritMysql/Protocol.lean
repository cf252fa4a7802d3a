import SpiritMysql.RowReader

/-!
# The protocol state and its packets

The fields of `MyProtocol` and the reading of packets: `#readPacket()`,
column definitions and query responses. What the server answers to a command
arrives when the command is sent.
-/

namespace SpiritMysql.Protocol

open AsyncAction ColumnValues Errors Reader RowReader

/-- `ProtocolState`. -/
inductive ProtocolState where
  | IDLE | IDLE_IN_POOL | QUERYING | HAS_MORE_ROWS | HAS_MORE_RESULTSETS | ERROR | TERMINATED
deriving DecidableEq, Repr

/-- `ReadPacketMode`. -/
inductive ReadPacketMode where
  | REGULAR | ROWS_OR_PREPARED_STMT | PREPARED_STMT_OK_CONTINUATION
deriving DecidableEq, Repr

/-- The bits of `capabilityFlags` that reading packets tests, and the one of
the MariaDB flags. -/
structure Capabilities where
  /-- `CLIENT_DEPRECATE_EOF`. -/
  deprecateEof : Bool
  /-- `CLIENT_PROTOCOL_41`. -/
  protocol41 : Bool := true
  /-- `CLIENT_TRANSACTIONS`. -/
  transactions : Bool := true
  /-- `CLIENT_SESSION_TRACK`. -/
  sessionTrack : Bool := true
  /-- `CLIENT_LONG_FLAG`. -/
  longFlag : Bool := true
  /-- `CLIENT_FOUND_ROWS`. -/
  foundRows : Bool := false
  /-- `MARIADB_CLIENT_EXTENDED_METADATA`. -/
  extendedMetadata : Bool := false
deriving DecidableEq, Repr

/-- The fields of `ResultsetsInternal` that the protocol sets. -/
structure Resultsets where
  /-- The protocol is still connected to the object. -/
  hasProtocol : Bool := false
  /-- The object came from preparing a statement. -/
  isPreparedStmt : Bool := false
  /-- The id of the prepared statement, or `-1`. -/
  stmtId : ℤ := -1
  /-- There are rows or resultsets to read. -/
  hasMoreInternal : Bool := false
  /-- The number of placeholders of the prepared statement. -/
  nPlaceholders : ℕ := 0
  /-- The columns of the current resultset. -/
  columns : List Column := []
  /-- The last inserted id. -/
  lastInsertId : ℤ := 0
  /-- The number of warnings. -/
  warnings : ℕ := 0
  /-- The information text. -/
  statusInfo : List UInt8 := []
  /-- The affected rows. -/
  affectedRows : ℤ := 0
  /-- The found rows, with `CLIENT_FOUND_ROWS`. -/
  foundRows : ℤ := 0
  /-- `SERVER_STATUS_NO_GOOD_INDEX_USED`. -/
  noGoodIndexUsed : Bool := false
  /-- `SERVER_STATUS_NO_INDEX_USED`. -/
  noIndexUsed : Bool := false
  /-- `SERVER_QUERY_WAS_SLOW`. -/
  isSlowQuery : Bool := false
deriving DecidableEq, Repr

/-- The commands the client sends. -/
inductive Command where
  /-- `COM_STMT_CLOSE`. -/
  | stmtClose (stmtId : ℕ)
  /-- `COM_INIT_DB`. -/
  | initDb (schema : List UInt8)
  /-- `COM_SET_OPTION`. -/
  | setOption (option : ℕ)
  /-- `COM_QUERY`. -/
  | query (sql : List UInt8)
  /-- `COM_STMT_PREPARE`. -/
  | stmtPrepare (sql : List UInt8)
  /-- `COM_STMT_EXECUTE` with the long data before it. -/
  | stmtExecute (stmtId : ℕ)
deriving DecidableEq, Repr

/-- The server answers every command but the one that closes a statement. -/
def Command.isAnswered : Command → Bool
  | .stmtClose _ => false
  | _ => true

/-- The state of a protocol object and of the bytes between it and the
server. -/
structure State where
  /-- The receiving half. -/
  reader : Reader.State
  /-- `#state`. -/
  state : ProtocolState := .IDLE
  /-- `statusFlags`. -/
  statusFlags : ℕ := 0
  /-- `#affectedRows`. -/
  affectedRows : ℤ := 0
  /-- `#lastInsertId`. -/
  lastInsertId : ℤ := 0
  /-- `#warnings`. -/
  warnings : ℕ := 0
  /-- `#statusInfo`. -/
  statusInfo : List UInt8 := []
  /-- `schema`. -/
  schema : List UInt8 := []
  /-- The name of the character set of the decoder. -/
  decoder : List UInt8 := []
  /-- `#timezoneMsecOffsetFromSystem`. Nothing stands for `NaN`. -/
  timezoneOffset : Option ℤ := none
  /-- `#curResultsets`. -/
  curResultsets : Option Resultsets := none
  /-- The lengths that the reader of the last column keeps. -/
  curLastColumnReader : Option (ℤ×ℤ) := none
  /-- `#pendingChangeSchema`. -/
  pendingChangeSchema : List UInt8 := []
  /-- `#curMultiStatements`. -/
  curMultiStatements : ℕ := 1
  /-- `#pendingCloseStmts`. -/
  pendingCloseStmts : List ℕ := []
  /-- `#closer` was disposed, so the transport is closed. -/
  isClosed : Bool := false
  /-- What the server will answer to the next commands, one entry each. -/
  answers : List (List UInt8) := []
  /-- The commands sent so far, first one first. -/
  sent : List Command := []
  /-- A record for statements only: how many bytes were unread at the headers
  of the packets that `#readPacket()` took for OK, EOF or ERR. -/
  accepted : List ℕ := []
deriving DecidableEq, Repr

/-- An operation of the protocol. -/
abbrev Proto (α : Type) := Act Error State α

/-- What does not change while a connection lives. -/
structure Config where
  /-- The negotiated capabilities. -/
  capabilities : Capabilities
  /-- The offset that `getTimezoneMsecOffsetFromSystem()` finds for the name of
  a time zone, or the offset that stays when it throws. -/
  timezoneOffsetOf : List UInt8 → ℤ := fun _ => 0
  /-- The zone of the process. -/
  systemZone : ℤ := 0
  /-- `convColumnValue()` as a function of the options that vary, of the column
  and of its bytes. -/
  convColumnValue : RowOptions → Column → List UInt8 → ColumnValue := fun _ _ v => .bytes v
  /-- What is done when the server asks for a file: call the handler and send
  what it returns, or throw when there is no handler. -/
  onLoadFile : List UInt8 → Proto Unit := fun _ => fail (.error "LOCAL INFILE handler is not set")

/-- Run a reading operation. -/
def read {α : Type} (x : Read α) : Proto α :=
  onPart State.reader (fun r s => {s with reader := r}) x

@[simp] theorem read_apply {α : Type} (x : Read α) (s : State) :
    read x s=(x s.reader).mapState (fun r => {s with reader := r}) := rfl

/-- The bit `SERVER_MORE_RESULTS_EXISTS`. -/
def moreResultsExist (statusFlags : ℕ) : Bool := statusFlags.testBit 3

/-- Take note that a packet was taken for OK, EOF or ERR. -/
def State.accept (s : State) : State :=
  {s with accepted := s.accepted++[s.reader.headers.getLastD 0]}

/-- The type of a packet that is left to the caller: the first byte with
`PACKET_NOT_READ_BIT`. -/
def notRead (type : ℕ) : ℕ := type+256

/-- The names that `#setCharacterSetResults()` knows, besides the names that
begin with `utf8`. -/
def resultCharsets : List String :=
  ["latin1","latin2","latin3","latin4","cp866","cp1250","cp1251","cp1256","cp1257","big5","gb2312",
    "gb18030","greek","hebrew","sjis","koi8r","koi8u","eucjpms"]

/-- The bytes of a fixed text. -/
def text (t : String) : List UInt8 := t.toList.map (fun c => UInt8.ofNat c.toNat)

/-- `#setCharacterSetClient()`. -/
def setCharacterSetClient (value : List UInt8) : Proto Unit :=
  if value.take 4=text "utf8" then pure ()
  else fail (.error "Cannot use this value for character_set_client")

/-- `#setCharacterSetResults()`. -/
def setCharacterSetResults (value : List UInt8) : Proto Unit :=
  if value.take 4=text "utf8" then modify fun s => {s with decoder := text "utf-8"}
  else if (resultCharsets.map text).contains value=true then modify fun s => {s with decoder := value}
  else fail (.error "Cannot use this value for character_set_results")

/-- `#setTimeZone()`. -/
def setTimeZone (cfg : Config) (value : List UInt8) : Proto Unit :=
  let offset := if value=text "SYSTEM" then 0 else cfg.timezoneOffsetOf value
  modify fun s => {s with timezoneOffset := some offset}

/-- One session state change of an OK packet. -/
def readSessionChange (cfg : Config) : Proto Unit := do
  let changeType ← read readUint8
  if changeType=0 then
    let _ ← read readLenencInt
    let name ← read readShortLenencBytes
    let value ← read readShortLenencBytes
    if name=text "character_set_client" then setCharacterSetClient value
    else if name=text "character_set_results" then setCharacterSetResults value
    else if name=text "time_zone" then setTimeZone cfg value
    else pure ()
  else if changeType=1 then
    let _ ← read readLenencInt
    let schema ← read readShortLenencBytes
    modify fun s => {s with schema := schema}
  else
    let _ ← read readShortLenencBytes

/-- The session state changes up to an offset of the packet. -/
def readSessionChanges (cfg : Config) (bound : ℤ) : ℕ → Proto Unit
  | 0 => wait
  | fuel+1 => do
    let s ← get
    if s.reader.packetOffset < bound then
      readSessionChange cfg
      readSessionChanges cfg bound fuel
    else pure ()

/-- The session state changes of an OK packet, when the flags announce them. -/
def readChanges (cfg : Config) : Proto Unit := do
  let s ← get
  if s.statusFlags.testBit 14=true then
    let len ← read readLenencInt
    let s ← get
    readSessionChanges cfg (s.reader.packetOffset+len) (s.reader.rest.length+1)
    read gotoEndOfPacket
  else read gotoEndOfPacket

/-- The text of an OK packet and what follows it, when the session is tracked. -/
def readTrackedInfo (cfg : Config) : Proto Unit := do
  let info ← read readShortLenencBytes
  modify fun s => {s with statusInfo := info}
  readChanges cfg

/-- The text of an OK packet, when the session is not tracked. -/
def readPlainInfo : Proto Unit := do
  let info ← read readShortEofBytes
  modify fun s => {s with statusInfo := info}

/-- The part of an OK packet after the status flags, when there is one. -/
def readOkInfo (cfg : Config) : Proto Unit := do
  let s ← get
  if s.reader.isAtEndOfPacket=true then pure ()
  else if cfg.capabilities.sessionTrack=true then readTrackedInfo cfg
  else readPlainInfo

/-- The status flags and the warnings of an OK packet. -/
def readOkStatus (cfg : Config) : Proto Unit := do
  if cfg.capabilities.protocol41=true then
    let statusFlags ← read readUint16
    modify fun s => {s with statusFlags := statusFlags}
    let warnings ← read readUint16
    modify fun s => {s with warnings := warnings}
  else if cfg.capabilities.transactions=true then
    let statusFlags ← read readUint16
    modify fun s => {s with statusFlags := statusFlags}
  else pure ()

/-- The numbers of an OK packet. -/
def readOkNumbers (cfg : Config) : Proto Unit := do
  let affectedRows ← read readLenencInt
  modify fun s => {s with affectedRows := affectedRows}
  let lastInsertId ← read readLenencInt
  modify fun s => {s with lastInsertId := lastInsertId}
  readOkStatus cfg

/-- An OK packet after its first byte. -/
def readOk (cfg : Config) : Proto Unit := do
  readOkNumbers cfg
  readOkInfo cfg

/-- An EOF packet after its first byte. -/
def readEof (cfg : Config) : Proto Unit := do
  if cfg.capabilities.protocol41=true then
    let warnings ← read readUint16
    modify fun s => {s with warnings := warnings}
    let statusFlags ← read readUint16
    modify fun s => {s with statusFlags := statusFlags}
    read gotoEndOfPacket
  else read gotoEndOfPacket

/-- The SQL state of an ERR packet. -/
def readSqlState (cfg : Config) : Proto (List UInt8) :=
  if cfg.capabilities.protocol41=true then read (readShortBytes 6) else pure []

/-- An ERR packet after its first byte: it is thrown as `SqlError`. -/
def readErr {α : Type} (cfg : Config) : Proto α := do
  let errorCode ← read readUint16
  let sqlState ← readSqlState cfg
  let errorMessage ← read readShortEofBytes
  let s ← get
  fail (.sql (SqlError.make errorMessage errorCode sqlState (s.statusFlags.testBit 1)
    (s.statusFlags.testBit 0)))

/-- What `#readPacket()` returns for a packet that it read to the end. -/
def packetType (mode : ReadPacketMode) (type : ℕ) : ℕ := if mode=.REGULAR then 0 else type

/-- The body of `#readPacket()` once the first byte is known. -/
def readPacketBody (cfg : Config) (mode : ReadPacketMode) (type : ℕ) : Proto ℕ := do
  let s ← get
  if type=0xFE ∧ 9 ≤ s.reader.payloadLength then return notRead type
  else if type=0xFE ∧ cfg.capabilities.deprecateEof=false then
    modify State.accept
    readEof cfg
    return packetType mode type
  else if type=0xFE ∨ type=0 then
    if mode=.ROWS_OR_PREPARED_STMT ∧ type=0 then return notRead type
    else
      modify State.accept
      readOk cfg
      return packetType mode type
  else if type=0xFF then
    modify State.accept
    readErr cfg
  else return notRead type

/-- `#readPacket()`: the type is a continued one, or it is the first byte of
the next packet. -/
def readPacket (cfg : Config) (mode : ReadPacketMode) : Proto ℕ :=
  if mode=.PREPARED_STMT_OK_CONTINUATION then readPacketBody cfg mode 0
  else do
    read readPacketHeader
    let type ← read readUint8
    readPacketBody cfg mode type

end SpiritMysql.Protocol
