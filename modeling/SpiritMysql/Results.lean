import SpiritMysql.Protocol

/-!
# Reading results

Column definitions, query responses, fetching of rows, discarding of what is
unread and moving to the next resultset.
-/

namespace SpiritMysql.Results

open AsyncAction ByteCodec ColumnValues Errors Protocol Reader RowReader

/-- `#setState()`. -/
def setState (state : ProtocolState) : Proto Unit := modify fun s => {s with state := state}

/-- `#rethrowError()`: only an error of the server keeps the connection. -/
def rethrowError {α : Type} (error : Error) : Proto α := do
  if error.isSql=true then
    setState .IDLE
    fail error
  else
    modify fun s => {s with isClosed := true}
    setState .ERROR
    fail error

/-- `#rethrowErrorIfFatal()`: with `isFromPool` a fatal error is not thrown. -/
def rethrowErrorIfFatal {α : Type} (error : Error) (isFromPool : Bool) : Proto (Option α) := do
  if error.isSql=true then
    setState .IDLE
    fail error
  else
    modify fun s => {s with isClosed := true}
    setState .ERROR
    if isFromPool=true then return none else fail error

/-- `#initResultsets()`. -/
def initResultsets (cfg : Config) (s : Protocol.State) (resultsets : Resultsets) : Resultsets :=
  {resultsets with
    lastInsertId := s.lastInsertId
    warnings := s.warnings
    statusInfo := s.statusInfo
    noGoodIndexUsed := s.statusFlags.testBit 4
    noIndexUsed := s.statusFlags.testBit 5
    isSlowQuery := s.statusFlags.testBit 11
    foundRows := if cfg.capabilities.foundRows=true then s.affectedRows else resultsets.foundRows
    affectedRows :=
      if cfg.capabilities.foundRows=true then resultsets.affectedRows else s.affectedRows}

/-- The attributes of the extended type info: does one say that the format is
JSON? -/
def isJsonInfo : ℕ → List UInt8 → Bool
  | 0,_ => false
  | _+1,[] => false
  | _+1,[_] => false
  | fuel+1,key::len::block =>
    if block.length < len.toNat then false
    else if key=1 then block.take len.toNat==text "JSON"
    else isJsonInfo fuel (block.drop len.toNat)

/-- `#readMariadbExtendedTypeInfo()`. -/
def readMariadbExtendedTypeInfo : Read Bool := do
  let blockLen ← readLenencInt
  if 0 < blockLen then
    let block ← readShortBytes blockLen
    return isJsonInfo block.length block
  else return false

/-- Whether the extended type info of a column says JSON, when it is sent. -/
def readIsJson (cfg : Config) : Read Bool :=
  if cfg.capabilities.extendedMetadata=true then readMariadbExtendedTypeInfo else pure false

/-- One byte of a block. -/
def byteAt (block : List UInt8) (i : ℕ) : UInt8 := block.getD i 0

/-- The little-endian word of `k` bytes at an offset of a block. -/
def wordAt (block : List UInt8) (i k : ℕ) : ℕ := leNat ((block.drop i).take k)

/-- The column that the fixed block of a definition describes. -/
def columnOfBlock (catalog schema table orgTable name orgName : List UInt8) (isJson : Bool)
    (block : List UInt8) : Column :=
  { catalog := catalog, schema := schema, table := table, orgTable := orgTable, name := name
    orgName := orgName
    charsetId := wordAt block 0 2
    length := wordAt block 2 4
    typeId := if isJson=true then .JSON else MysqlType.ofId (byteAt block 6)
    flags := wordAt block 7 2
    decimals := (byteAt block 9).toNat }

/-- The error of a block that is too short. -/
def shortBlock {α : Type} : Read α :=
  fail (.error "Invalid column definition packet: block length too small")

/-- One `ColumnDefinition41` packet. -/
def readColumnDefinition41 (cfg : Config) : Read Column := do
  readPacketHeader
  let catalog ← readShortLenencBytes
  let schema ← readShortLenencBytes
  let table ← readShortLenencBytes
  let orgTable ← readShortLenencBytes
  let name ← readShortLenencBytes
  let orgName ← readShortLenencBytes
  let isJson ← readIsJson cfg
  let blockLen ← readLenencInt
  if blockLen < 12 then shortBlock
  else
    let block ← readShortBytes blockLen
    gotoEndOfPacket
    return columnOfBlock catalog schema table orgTable name orgName isJson block

/-- A block of the older column definition with its length, which must have a
number of bytes. -/
def readBlock (minLen : ℤ) : Read (List UInt8) := do
  let blockLen ← readLenencInt
  if blockLen < minLen then shortBlock else readShortBytes blockLen

/-- One `ColumnDefinition320` packet. -/
def readColumnDefinition320 (cfg : Config) : Read Column := do
  readPacketHeader
  let table ← readShortLenencBytes
  let name ← readShortLenencBytes
  let lengthBlock ← readBlock 3
  let typeBlock ← readBlock 1
  let flagsBlock ← readBlock (if cfg.capabilities.longFlag=true then 3 else 2)
  gotoEndOfPacket
  let flagsLen := if cfg.capabilities.longFlag=true then 2 else 1
  return {
    table := table, name := name
    length := wordAt lengthBlock 0 3
    typeId := MysqlType.ofId (byteAt typeBlock 0)
    flags := wordAt flagsBlock 0 flagsLen
    decimals := (byteAt flagsBlock flagsLen).toNat }

/-- One column definition of the negotiated form. -/
def readColumnDefinition (cfg : Config) : Read Column :=
  if cfg.capabilities.protocol41=true then readColumnDefinition41 cfg
  else readColumnDefinition320 cfg

/-- Several column definitions in order. -/
def readColumnDefinitions (cfg : Config) : ℕ → Read (List Column)
  | 0 => pure []
  | n+1 => do
    let column ← readColumnDefinition cfg
    let columns ← readColumnDefinitions cfg n
    return column::columns

/-- The EOF packet after column definitions, when it is sent. -/
def readColumnsEof (cfg : Config) : Proto Unit := do
  if cfg.capabilities.deprecateEof=true then pure ()
  else
    let _ ← readPacket cfg .REGULAR

/-- `#readColumnDefinitionPackets()`. -/
def readColumnDefinitionPackets (cfg : Config) (nPackets : ℕ) : Proto (List Column) := do
  if nPackets=0 then return []
  else
    let columns ← read (readColumnDefinitions cfg nPackets)
    readColumnsEof cfg
    return columns

/-- Several packets passed over. -/
def skipPackets : ℕ → Read Unit
  | 0 => pure ()
  | n+1 => do
    readPacketHeader
    gotoEndOfPacket
    skipPackets n

/-- `#skipColumnDefinitionPackets()`. -/
def skipColumnDefinitionPackets (cfg : Config) (nPackets : ℕ) : Proto Unit := do
  read (skipPackets nPackets)
  readColumnsEof cfg

/-- The state that the status flags ask for when there are no rows. -/
def stateAfterOk (statusFlags : ℕ) : ProtocolState :=
  if moreResultsExist statusFlags=true then .HAS_MORE_RESULTSETS else .IDLE

/-- The definitions of placeholders are passed over. -/
def skipPlaceholders (cfg : Config) (nPlaceholders : ℕ) : Proto Unit :=
  if 0 < nPlaceholders then skipColumnDefinitionPackets cfg nPlaceholders else pure ()

/-- The columns part of `#readQueryResponse()`. -/
def readResponseColumns (cfg : Config) (resultsets : Resultsets) (skipColumns : Bool)
    (nColumns nPlaceholders : ℕ) : Proto (Resultsets×ProtocolState) := do
  if maxSafeInteger < nColumns then fail (.error "Can't handle so many columns")
  else
    skipPlaceholders cfg nPlaceholders
    let resultsets := {resultsets with nPlaceholders := nPlaceholders}
    if nColumns=0 then
      let s ← get
      return ({resultsets with columns := []},stateAfterOk s.statusFlags)
    else if skipColumns=true then
      skipColumnDefinitionPackets cfg nColumns
      return ({resultsets with columns := []},.HAS_MORE_ROWS)
    else
      let columns ← readColumnDefinitionPackets cfg nColumns
      return ({resultsets with columns := columns},.HAS_MORE_ROWS)

/-- `#readQueryResponse()`, with the number of packets that may still ask for
a file. -/
def readQueryResponseLoop (cfg : Config) (resultsets : Resultsets) (mode : ReadPacketMode)
    (skipColumns : Bool) : ℕ → Proto (Resultsets×ProtocolState)
  | 0 => wait
  | fuel+1 => do
    let type ← readPacket cfg mode
    if type=0 then
      let s ← get
      readResponseColumns cfg (initResultsets cfg s resultsets) skipColumns 0 0
    else if type=notRead 0 then
      let stmtId ← read readUint32
      let nColumns ← read readUint16
      let nPlaceholders ← read readUint16
      let _ ← read readUint8
      let warnings ← read readUint16
      modify fun s => {s with warnings := warnings}
      read gotoEndOfPacket
      readResponseColumns cfg {resultsets with isPreparedStmt := true, stmtId := stmtId} skipColumns
        nColumns nPlaceholders
    else if type=notRead 0xFB then
      let filename ← read readShortEofBytes
      cfg.onLoadFile filename
      readQueryResponseLoop cfg resultsets mode skipColumns fuel
    else if type=notRead 0xFC then
      let nColumns ← read readUint16
      readResponseColumns cfg resultsets skipColumns nColumns 0
    else if type=notRead 0xFD then
      let nColumns ← read readUint24
      readResponseColumns cfg resultsets skipColumns nColumns 0
    else if type=notRead 0xFE then
      let nColumns ← read readUint64
      readResponseColumns cfg resultsets skipColumns nColumns 0
    else readResponseColumns cfg resultsets skipColumns (type%256) 0

/-- `#readQueryResponse()`: every packet that asks for a file has a byte. -/
def readQueryResponse (cfg : Config) (resultsets : Resultsets) (mode : ReadPacketMode)
    (skipColumns : Bool) : Proto (Resultsets×ProtocolState) := fun s =>
  readQueryResponseLoop cfg resultsets mode skipColumns
    (s.reader.rest.length+(s.answers.map List.length).sum+1) s

/-- The resultset is read to its end: a prepared statement stays connected. -/
def finished (r : Resultsets) : Resultsets :=
  {r with hasMoreInternal := false, hasProtocol := if r.stmtId < 0 then false else r.hasProtocol}

/-- Nothing more will be read for the current resultset. -/
def finishResultsets : Proto Unit := modify fun s => {s with curResultsets := none}

/-- The options that a call of `fetch()` passes to the deserializers. -/
def rowOptions (cfg : Config) (s : Protocol.State) (rowType : RowType) (maxColumnLen : ℕ)
    (jsonAsString datesAsString isForSerialize : Bool) : RowOptions :=
  let o : RowOptions :=
    { rowType := rowType, maxColumnLen := maxColumnLen, jsonAsString := jsonAsString
      datesAsString := datesAsString, isForSerialize := isForSerialize
      timezoneOffset := s.timezoneOffset.getD 0, systemZone := cfg.systemZone
      convColumnValue := fun _ v => .bytes v }
  {o with convColumnValue := cfg.convColumnValue o}

/-- Read the row whose first byte was read. -/
def readRow (o : RowOptions) (r : Resultsets) (type : ℕ) : Proto (Row×ℤ) := do
  if r.isPreparedStmt=true then read (deserializeRowBinary o r.columns)
  else
    read (unput (UInt8.ofNat type))
    read (deserializeRowText o r.columns)

/-- The part of `fetch()` after the first byte of a packet. -/
def fetchOfType (cfg : Config) (r : Resultsets) (rowType : RowType) (maxColumnLen : ℕ)
    (jsonAsString datesAsString isForSerialize : Bool) (type : ℕ) : Proto (Option Row) := do
  let s ← get
  if type=0xFE then
    if moreResultsExist s.statusFlags=true then
      setState .HAS_MORE_RESULTSETS
      return none
    else
      finishResultsets
      setState .IDLE
      return none
  else
    let row ← readRow (rowOptions cfg s rowType maxColumnLen jsonAsString datesAsString
      isForSerialize) r type
    if rowType.isLastColumn=true then
      modify fun s => {s with curLastColumnReader := some (row.2,min row.2 s.reader.lenInCurPacket)}
      return some row.1
    else
      setState .HAS_MORE_ROWS
      return some row.1

/-- The part of `fetch()` that reads a packet. -/
def fetchRow (cfg : Config) (r : Resultsets) (rowType : RowType) (maxColumnLen : ℕ)
    (jsonAsString datesAsString isForSerialize : Bool) : Proto (Option Row) := do
  let type ← readPacket cfg .ROWS_OR_PREPARED_STMT
  fetchOfType cfg r rowType maxColumnLen jsonAsString datesAsString isForSerialize type

/-- `fetch()`. -/
def fetch (cfg : Config) (rowType : RowType) (maxColumnLen : ℕ)
    (jsonAsString datesAsString isForSerialize : Bool) : Proto (Option Row) := do
  let s ← get
  match s.state with
  | .IDLE => return none
  | .IDLE_IN_POOL => return none
  | .HAS_MORE_RESULTSETS => return none
  | .QUERYING => fail (.busy "Previous operation is still in progress")
  | .TERMINATED => fail (.canceled "Connection terminated")
  | _ => match s.curResultsets with
    | none =>
      setState .QUERYING
      rethrowError (.error "TypeError: undefined")
    | some r =>
      setState .QUERYING
      attempt (fetchRow cfg r rowType maxColumnLen jsonAsString datesAsString isForSerialize)
        rethrowError

/-- The rows part of `#doDiscard()`: pass packets up to the one that ends the
rows. -/
def discardRows (cfg : Config) (isPreparedStmt : Bool) : ℕ → Proto Unit
  | 0 => wait
  | fuel+1 => do
    let type ← readPacket cfg (if isPreparedStmt=true then .ROWS_OR_PREPARED_STMT else .REGULAR)
    read gotoEndOfPacket
    if type=(if isPreparedStmt=true then 0xFE else 0) then pure ()
    else discardRows cfg isPreparedStmt fuel

/-- The rows part of `#doDiscard()`: every packet has a byte. -/
def discardAllRows (cfg : Config) (isPreparedStmt : Bool) : Proto Unit := fun s =>
  discardRows cfg isPreparedStmt (s.reader.rest.length+1) s

/-- The loop of `#doDiscard()` over resultsets. -/
def discardLoop (cfg : Config) (onlyRows : Bool) :
    ℕ → Resultsets → ProtocolState → Proto (Resultsets×ProtocolState)
  | 0,_,_ => wait
  | fuel+1,r,state => do
    if state=.HAS_MORE_ROWS then
      discardAllRows cfg r.isPreparedStmt
      let s ← get
      if onlyRows=false ∧ stateAfterOk s.statusFlags=.HAS_MORE_RESULTSETS then
        let next ← readQueryResponse cfg r
          (if r.isPreparedStmt=true then .ROWS_OR_PREPARED_STMT else .REGULAR) false
        discardLoop cfg onlyRows fuel next.1 next.2
      else return (r,stateAfterOk s.statusFlags)
    else if onlyRows=false ∧ state=.HAS_MORE_RESULTSETS then
      let next ← readQueryResponse cfg r
        (if r.isPreparedStmt=true then .ROWS_OR_PREPARED_STMT else .REGULAR) false
      discardLoop cfg onlyRows fuel next.1 next.2
    else return (r,state)

/-- `#doDiscard()` on the current resultset: returns the state reached, and
the resultset as it is then. -/
def doDiscard (cfg : Config) (r : Resultsets) (state : ProtocolState) (onlyRows : Bool) :
    Proto (Resultsets×ProtocolState) := do
  let s ← get
  let last ← discardLoop cfg onlyRows (s.reader.rest.length+1) r state
  if last.2=.IDLE then
    finishResultsets
    return (finished last.1,last.2)
  else
    modify fun s => {s with curResultsets := some last.1}
    return last

end SpiritMysql.Results
