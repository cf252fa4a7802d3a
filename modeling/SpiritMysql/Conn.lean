import SpiritMysql.Commands

/-!
# Connections

`MyConn`: it takes a connection of the pool when it needs one, sends transaction
commands lazily, and gives the connection up. The operations run one after another.
-/

namespace SpiritMysql.Conn

open AsyncAction Errors Protocol TrxStore

/-- The schema that `getProtocol()` selects on a connection of the pool. -/
def wantedSchema (dsnSchema pendingChangeSchema : String) (stolen : Bool) : String :=
  if pendingChangeSchema="" ∧ stolen=true then dsnSchema else pendingChangeSchema

/-- A connection of the pool: it was reset, and no query was executed since. -/
def MyProtocol.fromPool (p : MyProtocol) (pendingChangeSchema : String) : MyProtocol :=
  {p with
    state := .IDLE_IN_POOL,pendingChangeSchema := pendingChangeSchema
    inTrans := false,inTransReadonly := false,moreResults := false,curCommand := none
    session := ⟨p.session.committed,none⟩,stmts := [],nResults := 0}

/-- A new connection: the handshake carries a schema, and then the initial SQL
is executed. -/
def MyProtocol.opened (p : MyProtocol) (schema : String) (leaves : String → String) : MyProtocol :=
  {p with
    state := .IDLE,pendingChangeSchema := "",isAlive := true
    inTrans := false,inTransReadonly := false,moreResults := false,curCommand := none
    session := ⟨p.session.committed,none⟩,stmts := [],nResults := 0
    db := leaves schema,schema := if p.tracksSchema=true then leaves schema else ""}

/-- `connect()`. -/
def connect : Op Unit := fun w =>
  if w.conn.isConnecting=true then .thrown (.busy "Previous operation is still in progress") w
  else
    match w.conn.protocol with
    | some _ => .done () w
    | none =>
      if w.conn.isDisposed=true then .thrown (.error "This connection object is already disposed of") w
      else
        let pendingChangeSchema := w.conn.pendingChangeSchema
        let w := {w with conn := {w.conn with pendingChangeSchema := ""}}
        match w.supply with
        | .pooled p stolen::supply =>
          .done () (World.setProtocol {w with supply := supply}
            (p.fromPool (wantedSchema w.dsnSchema pendingChangeSchema stolen)))
        | .opened p leaves::supply =>
          .done () (World.setProtocol {w with supply := supply}
            (p.opened (if pendingChangeSchema="" then w.dsnSchema else pendingChangeSchema) leaves))
        | .failed e::supply => .thrown e {w with supply := supply}
        | [] => .waiting w

/-- How a connection is given up at once. -/
structure Force where
  /-- `noRollbackCurXa`. -/
  noRollbackCurXa : Bool := false
  /-- `noKillCurQuery`. -/
  noKillCurQuery : Bool := false
deriving DecidableEq

/-- The part of `#doEnd()` that resets the fields. -/
def MyConn.reset (c : MyConn) (noResetPending : Bool) : MyConn :=
  let c := {c with
    isConnecting := false,savepointEnum := 0,isXaPrepared := false,preparedStmtsForParams := []
    protocol := none}
  if noResetPending=true then c
  else {c with pendingTrxSql := [],curXaId := "",curXaIdAppendConn := false}

/-- `forceImmediateDisconnect()` of the protocol. -/
def MyProtocol.forceImmediateDisconnect (p : MyProtocol) : MyProtocol :=
  if p.state=.ERROR ∨ p.state=.TERMINATED then p else {p with state := .ERROR,isAlive := false}

/-- What `returnProtocolAndForceImmediateDisconnect()` puts on the list. -/
def takeCareOf (p : MyProtocol) (rollbackPreparedXaId : String) (killCurQuery : Bool) : List TakeCare :=
  let kill := killCurQuery && decide (p.state=.QUERYING)
  if rollbackPreparedXaId≠"" ∨ kill=true then
    [⟨rollbackPreparedXaId,if kill=true then p.connectionId else 0⟩]
  else []

/-- The transaction that the object knows to be prepared. -/
def MyConn.preparedXaId (c : MyConn) : String := if c.isXaPrepared=true then c.curXaId else ""

/-- `#doEnd()`. What it returns is left out. -/
def World.doEnd (w : World) (noResetPending : Bool) (force : Option Force) : World :=
  let conn := w.conn.reset noResetPending
  match w.conn.protocol with
  | none => {w with conn := conn}
  | some p =>
    let conn := {conn with pendingChangeSchema := p.schema}
    match force with
    | none => {w with conn := conn,givenUp := w.givenUp++[⟨p,w.conn.preparedXaId,false⟩]}
    | some f =>
      let rollbackPreparedXaId := if f.noRollbackCurXa=true then "" else w.conn.preparedXaId
      {w with
        conn := conn
        takeCare := w.takeCare++takeCareOf p rollbackPreparedXaId (!f.noKillCurQuery)
        givenUp := w.givenUp++[⟨p.forceImmediateDisconnect,rollbackPreparedXaId,true⟩]}

/-- `end()`. -/
def endConn : Op Unit := modify fun w => w.doEnd false none

/-- `[Symbol.dispose]()`. -/
def dispose : Op Unit := modify fun w =>
  World.doEnd {w with conn := {w.conn with isDisposed := true}} false none

/-- `forceImmediateDisconnect()`. -/
def forceImmediateDisconnect (force : Force) : Op Unit := modify fun w => w.doEnd false (some force)

/-- `use()`. -/
def use (schema : String) : Op Unit := modify fun w =>
  match w.conn.protocol with
  | some p => w.setProtocol {p with pendingChangeSchema := schema}
  | none => {w with conn := {w.conn with pendingChangeSchema := schema}}

/-- An error that the library builds, of the class `SqlError`. -/
def sqlError (message : String) : Error :=
  .sql ⟨text message,0,[],.NONE⟩

/-- The handler `onBeforeCommit`. -/
def callOnBeforeCommit : Op Unit := fun w =>
  match w.onBeforeCommit with
  | some false => .thrown (.error "onBeforeCommit") w
  | _ => .done () w

/-- The fields of the transaction are cleared. -/
def MyConn.clearTrx (c : MyConn) : MyConn :=
  {c with curXaId := "",curXaIdAppendConn := false,isXaPrepared := false,pendingTrxSql := []}

/-- The fields of the transaction are cleared. -/
def clearTrx : Op Unit := modify fun w => {w with conn := w.conn.clearTrx}

/-- The server has a transaction of the connection, as far as is known. -/
def World.inTrans (w : World) : Bool := (w.conn.protocol.map MyProtocol.inTrans).getD false

/-- The test of `commit()` and `rollback()`: there is something to send. -/
def World.hasTrx (w : World) : Bool :=
  w.conn.protocol.isSome && (w.inTrans || w.conn.isXaPrepared)

/-- The error after a connection was given up. -/
def serverDisconnected : Error := .serverDisconnected "Server disconnected"

/-- Throw an error, when there is one. -/
def throwSome : Option Error → Op Unit
  | some error => fail error
  | none => pure ()

/-- The commit of `commit()`, and the rollback when it fails. The connection is
given up when that fails too. -/
def commitOrRollback (sql back : Sql) : Op (Option Error) :=
  attempt
    (do
      command sql
      return none)
    (fun error =>
      attempt
        (do
          command back
          return some error)
        (fun _ => do
          endConn
          fail serverDisconnected))

/-- `commit()`. -/
def commit (andChain : Bool) : Op Unit := do
  let w ← get
  if w.hasTrx=true then
    if w.conn.curXaId≠"" then
      if w.conn.isXaPrepared=false then fail (sqlError "Please, prepare commit first")
      else
        let error ← commitOrRollback (.xaCommit w.conn.curXaId) (.xaRollback w.conn.curXaId)
        clearTrx
        throwSome (error.or (if andChain=true then some (sqlError "Cannot chain XA") else none))
    else
      callOnBeforeCommit
      let error ← commitOrRollback (.commit andChain) (.rollback andChain)
      clearTrx
      throwSome error
  else clearTrx

/-- The options of `startTrx()`. -/
structure TrxOptions where
  /-- `readonly`. -/
  readonly : Bool := false
  /-- `xaId`. -/
  xaId : String := ""
  /-- `xaId1`. -/
  xaId1 : String := ""
deriving DecidableEq, Repr

/-- The part of `startTrx()` that sets the fields. -/
def MyConn.setTrx (c : MyConn) (options : TrxOptions) : MyConn :=
  if options.xaId≠"" then
    {c with
      curXaId := options.xaId,curXaIdAppendConn := false,savepointEnum := 0
      pendingTrxSql := [some (.xaStart options.xaId)]}
  else if options.xaId1≠"" then
    match c.protocol with
    | none =>
      {c with
        curXaId := options.xaId1,curXaIdAppendConn := true,savepointEnum := 0
        pendingTrxSql := [none]}
    | some p =>
      {c with
        curXaId := options.xaId1++toString p.connectionId,curXaIdAppendConn := false
        savepointEnum := 0
        pendingTrxSql := [some (.xaStart (options.xaId1++toString p.connectionId))]}
  else
    {c with
      curXaId := "",curXaIdAppendConn := false,savepointEnum := 0
      pendingTrxSql := [some (.startTransaction options.readonly)]}

/-- The characters that an XA id must not have. -/
def isInvalidXaId (xaId : String) : Bool :=
  xaId.toList.contains (Char.ofNat 39) || xaId.toList.contains (Char.ofNat 92)

/-- `startTrx()`. -/
def startTrx (options : TrxOptions) : Op Unit := do
  let w ← get
  if w.inTrans=true ∧ w.conn.curXaId≠"" then
    fail (sqlError "There's already an active Distributed Transaction")
  else
    doWhen (w.inTrans=true) (commit false)
    if isInvalidXaId (if options.xaId="" then options.xaId1 else options.xaId)=true then
      fail (.error "Invalid XA ID")
    else modify fun w => {w with conn := w.conn.setTrx options}

/-- `savepoint()`: its result is the new value of the counter. -/
def savepoint : Op ℕ := fun w =>
  let pointId := w.conn.savepointEnum+1
  .done pointId {w with conn := {w.conn with
    savepointEnum := pointId
    pendingTrxSql := w.conn.pendingTrxSql++[some (.savepoint false pointId)]}}

/-- `sessionSavepoint()`. -/
def sessionSavepoint (pointId : ℕ) : Op Unit := modify fun w =>
  {w with conn := {w.conn with
    pendingTrxSql := w.conn.pendingTrxSql++[some (.savepoint true pointId)]}}

/-- `prepareCommit()`. -/
def prepareCommit : Op Unit := do
  let w ← get
  if w.inTrans=true ∧ w.conn.curXaId≠"" ∧ w.conn.isXaPrepared=false then
    callOnBeforeCommit
    twoCommands (.xaEnd w.conn.curXaId) false (.xaPrepare w.conn.curXaId)
    modify fun w => {w with conn := {w.conn with isXaPrepared := true}}
  else pure ()

/-- The commands of `rollback()` that end the transaction. -/
def rollbackCommand (curXaId : String) (isXaPrepared toStart : Bool) : Op Unit :=
  if toStart=true then command (.rollback true)
  else if curXaId="" then command (.rollback false)
  else if isXaPrepared=true then command (.xaRollback curXaId)
  else twoCommands (.xaEnd curXaId) true (.xaRollback curXaId)

/-- What `rollback()` does when the command fails. -/
def giveUp (toStart : Bool) : Op Unit := do
  let w ← get
  endConn
  doWhen (toStart=true)
    (startTrx {readonly := (w.conn.protocol.map MyProtocol.inTransReadonly).getD false})
  fail serverDisconnected

/-- `rollback()` without a savepoint. With `toStart`, which is `rollback(0)`, the
transaction is chained. -/
def rollbackAll (toStart : Bool) : Op Unit := do
  let w ← get
  if w.hasTrx=true then
    attempt (rollbackCommand w.conn.curXaId w.conn.isXaPrepared toStart) (fun _ => giveUp toStart)
    clearTrx
  else clearTrx

/-- `SAVEPOINT_ENUM_SESSION_FROM`. -/
def savepointEnumSessionFrom : ℕ := 0x40000000

/-- The loop of `rollback()` over the pending commands, from the last one: what
is left when the savepoint is found among the last savepoints of its kind. -/
def beforeSavepoint (ofSession : Bool) (pointId : ℕ) : List (Option Sql) → Option (List (Option Sql))
  | some (.savepoint s n)::before =>
    if s=ofSession then if n=pointId then some before else beforeSavepoint ofSession pointId before
    else none
  | _ => none

/-- The parameters of a query. -/
inductive Params where
  /-- None: the text protocol. -/
  | none
  /-- `true`: prepare only. -/
  | prepare
  /-- Positional parameters. -/
  | positional (values : List Value)
  /-- Named parameters. -/
  | named (params : List (String×Value))
deriving DecidableEq, Repr

/-- What a query is called with. -/
structure Query where
  /-- Where the SQL comes from. -/
  sql : Source
  /-- The parameters. -/
  params : Params := .none
  /-- No rows are wanted. -/
  void : Bool := false
  /-- The options about retrying that are given. -/
  retryLockWaitTimeout : Option Bool := none
  /-- The number of retries that is given. -/
  retryQueryTimes : Option ℕ := none
  /-- Several statements are allowed. -/
  multiStatements : Bool := false

/-- The retry options of a query. -/
def Query.options (q : Query) (w : World) : RetryOptions :=
  ⟨q.retryLockWaitTimeout.getD w.retryLockWaitTimeout,
    q.retryQueryTimes.getD w.retryOptions.retryQueryTimes⟩

/-- The id of the connection is appended to the XA id, when that was put off. -/
def appendConn : Op Unit := modify fun w =>
  if w.conn.curXaIdAppendConn=true then
    {w with conn := {w.conn with
      curXaId := w.conn.curXaId++toString ((w.conn.protocol.map MyProtocol.connectionId).getD 0)
      curXaIdAppendConn := false}}
  else w

/-- The pending commands one after another, each with the number of retries
that remain. When the connection from the pool is dead, the result is `none`. -/
def flushPending : List (Option Sql) → ℕ → Op (Option ℕ)
  | [],nRetriesRemaining => return some nRetriesRemaining
  | pending::rest,nRetriesRemaining => do
    doWhen (pending=none) appendConn
    let w ← get
    let done ← sendComQuery (.text (pending.getD (.xaStart w.conn.curXaId))) true
      (decide (0 < nRetriesRemaining)) w.retryOptions
    match done with
    | some () => flushPending rest (nRetriesRemaining-1)
    | none => return none

/-- The number of placeholders for a number of named parameters. -/
def nPlaceholders (n : ℕ) : ℕ := ((n-1)/8+1)*8

/-- Remember the statement for a number of placeholders. -/
def MyConn.rememberStmt (c : MyConn) (pos stmtId : ℕ) : MyConn :=
  let stmts := c.preparedStmtsForParams++List.replicate (pos+1-c.preparedStmtsForParams.length) none
  {c with preparedStmtsForParams := stmts.set pos (some stmtId)}

/-- The statement that `#getNamedParamsQueries()` finds or prepares. -/
def namedStmt (n : ℕ) (letReturnUndefined : Bool) : Op (Option ℕ) := do
  let w ← get
  match (w.conn.preparedStmtsForParams[(n-1)/8]?).join with
  | some stmtId => return some stmtId
  | none =>
    let stmtId ← sendComStmtPrepare (.text (.placeholders (nPlaceholders n))) letReturnUndefined
    match stmtId with
    | some stmtId =>
      modify fun w => {w with conn := w.conn.rememberStmt ((n-1)/8) stmtId}
      return some stmtId
    | none => return none

/-- The values for the placeholders: `null` where there is no parameter. -/
def padded (values : List Value) : List Value :=
  values++List.replicate (nPlaceholders values.length-values.length) []

/-- The source that remains, when the query was not done. -/
def leftOver {α : Type} (done : Option α) (source : Source) : Option Source :=
  match done with
  | some _ => none
  | none => some source

/-- The part of `#doQuery()` that sends the query. What is returned is the
source that remains when the connection from the pool is dead. -/
def sendQuery (q : Query) (source : Source) (letReturnUndefined : Bool) : Op (Option Source) := do
  let w ← get
  match q.params with
  | .none =>
    let done ← sendComQuery source q.void letReturnUndefined (q.options w)
    return leftOver done source.rest
  | .prepare =>
    if q.multiStatements=true then fail (.error "Cannot prepare multiple statements")
    else
      let stmtId ← sendComStmtPrepare source letReturnUndefined
      return leftOver stmtId source.rest
  | .positional values =>
    if q.multiStatements=true then
      fail (.error "Cannot prepare multiple statements (however you can use named parameters)")
    else
      let stmtId ← sendComStmtPrepare source letReturnUndefined
      match stmtId with
      | some stmtId =>
        execStmt stmtId values q.void
        return none
      | none => return some source.rest
  | .named [] =>
    let done ← sendComQuery source q.void letReturnUndefined (q.options w)
    return leftOver done source.rest
  | .named params =>
    if 0xFFFF < params.length then
      fail (sqlError "Too many query parameters. The maximum of 65535 is supported")
    else
      let stmtId ← namedStmt params.length letReturnUndefined
      match stmtId with
      | some stmtId =>
        let done ← sendThreeQueries (some ⟨stmtId,padded (params.map Prod.snd)⟩)
          (some (.names (params.map Prod.fst))) false source q.void letReturnUndefined (q.options w)
        return leftOver done source.rest
      | none => return some source

/-- One iteration of the loop of `#doQuery()` on the connection that is taken:
the query is done, or the source and the number of retries that remain. -/
def queryOnce (q : Query) (source : Source) (nRetriesRemaining : ℕ) : Op (Option (Source×ℕ)) := do
  let w ← get
  let flushed ← flushPending w.conn.pendingTrxSql nRetriesRemaining
  match flushed with
  | none =>
    modify fun w => w.doEnd true none
    return some (source,nRetriesRemaining-1)
  | some nRetriesRemaining =>
    modify fun w => {w with conn := {w.conn with pendingTrxSql := []}}
    let left ← sendQuery q source (decide (0 < nRetriesRemaining))
    match left with
    | none => return none
    | some source =>
      endConn
      return some (source,nRetriesRemaining-1)

/-- The loop of `#doQuery()`, for a number of iterations. -/
def queryIterations (q : Query) : ℕ → Source → ℕ → Op Unit
  | 0,_,_ => wait
  | n+1,source,nRetriesRemaining => do
    connect
    let next ← queryOnce q source nRetriesRemaining
    match next with
    | none => return ()
    | some (source,nRetriesRemaining) => queryIterations q n source nRetriesRemaining

/-- `#doQuery()`: every iteration but the last one takes a retry. -/
def doQuery (q : Query) : Op Unit := fun w => queryIterations q (w.maxConns+1) q.sql w.maxConns w

/-- `rollback()` to a savepoint. -/
def rollbackTo (toPointId : ℕ) : Op Unit := do
  let w ← get
  let ofSession := decide (savepointEnumSessionFrom ≤ toPointId)
  let pointId := if ofSession=true then toPointId-savepointEnumSessionFrom else toPointId
  match beforeSavepoint ofSession pointId w.conn.pendingTrxSql.reverse with
  | some before => modify fun w => {w with conn := {w.conn with pendingTrxSql := before.reverse}}
  | none =>
    if w.inTrans=true then doQuery {sql := .text (.rollbackTo ofSession pointId),void := true}
    else fail (.error "No such SAVEPOINT")

/-- `rollback()`. -/
def rollback : Option ℕ → Op Unit
  | none => rollbackAll false
  | some 0 => rollbackAll true
  | some toPointId => rollbackTo toPointId

end SpiritMysql.Conn
