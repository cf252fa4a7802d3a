import SpiritMysql.AsyncAction
import SpiritMysql.Protocol
import SpiritMysql.TrxStore

/-!
# Commands

What a connection sends to the server, command by command, and what the server
answers. The answers come one for each result, in the order of the commands. The
server keeps the transaction that is open on the connection.
-/

namespace SpiritMysql.Conn

open AsyncAction Errors Protocol TrxStore

/-- The SQL that the library sends by itself, and the text of a user. -/
inductive Sql where
  /-- `START TRANSACTION`. -/
  | startTransaction (readonly : Bool)
  /-- `SAVEPOINT`, of a connection or of a session. -/
  | savepoint (ofSession : Bool) (pointId : ℕ)
  /-- `ROLLBACK TO`. -/
  | rollbackTo (ofSession : Bool) (pointId : ℕ)
  /-- `COMMIT`. -/
  | commit (andChain : Bool)
  /-- `ROLLBACK`. -/
  | rollback (andChain : Bool)
  /-- `XA START`. -/
  | xaStart (xaId : String)
  /-- `XA END`. -/
  | xaEnd (xaId : String)
  /-- `XA PREPARE`. -/
  | xaPrepare (xaId : String)
  /-- `XA COMMIT`. -/
  | xaCommit (xaId : String)
  /-- `XA ROLLBACK`. -/
  | xaRollback (xaId : String)
  /-- The query that assigns the placeholders of named parameters. -/
  | placeholders (n : ℕ)
  /-- The query that names the parameters. -/
  | names (keys : List String)
  /-- The text of a user. -/
  | user (text : String)
deriving DecidableEq, Repr

/-- The letter of a savepoint's name. -/
def pointLetter (ofSession : Bool) : String := if ofSession=true then "s" else "p"

/-- The text of the SQL. The two queries for named parameters are left symbolic. -/
def Sql.text : Sql → String
  | .startTransaction readonly => if readonly=true then "START TRANSACTION READ ONLY" else "START TRANSACTION"
  | .savepoint ofSession pointId => "SAVEPOINT "++pointLetter ofSession++toString pointId
  | .rollbackTo ofSession pointId => "ROLLBACK TO "++pointLetter ofSession++toString pointId
  | .commit andChain => if andChain=true then "COMMIT AND CHAIN" else "COMMIT"
  | .rollback andChain => if andChain=true then "ROLLBACK AND CHAIN" else "ROLLBACK"
  | .xaStart xaId => "XA START '"++xaId++"'"
  | .xaEnd xaId => "XA END '"++xaId++"'"
  | .xaPrepare xaId => "XA PREPARE '"++xaId++"'"
  | .xaCommit xaId => "XA COMMIT '"++xaId++"'"
  | .xaRollback xaId => "XA ROLLBACK '"++xaId++"'"
  | .placeholders n => "SET placeholders "++toString n
  | .names keys => "SET names "++toString keys
  | .user text => text

/-- A parameter value, as the bytes that are sent. -/
abbrev Value := List UInt8

/-- The commands of a connection. -/
inductive Command where
  /-- `COM_INIT_DB`. -/
  | initDb (schema : String)
  /-- `COM_QUERY`. -/
  | query (sql : Sql)
  /-- `COM_STMT_PREPARE`. -/
  | stmtPrepare (sql : Sql)
  /-- `COM_STMT_EXECUTE`. -/
  | stmtExecute (stmtId : ℕ) (values : List Value)
  /-- `COM_RESET_CONNECTION`. -/
  | resetConnection
  /-- `COM_QUIT`. -/
  | quit
deriving DecidableEq, Repr

/-- How far a distributed transaction is. -/
inductive Phase where
  | active | idle | prepared
deriving DecidableEq, Repr

/-- The kinds of transactions. -/
inductive Kind where
  /-- An ordinary one. -/
  | plain (readonly : Bool)
  /-- A distributed one. -/
  | xa (xaId : String) (phase : Phase)
deriving DecidableEq, Repr

/-- The transaction state on the server. The data are the statements that were
executed. A savepoint belongs to a connection or to a session. -/
abbrev Session := Store Kind (Bool×ℕ) (List String)

/-- The kind of the transaction that is open. -/
def Session.kind (s : Session) : Option Kind := s.trx.map Trx.kind

/-- The transaction goes to another phase. -/
def Session.setKind (kind : Kind) (s : Session) : Session :=
  {s with trx := s.trx.map (fun t => {t with kind := kind})}

/-- What a command of the library does on the server: `none` when it is not
possible there. -/
def Session.exec (s : Session) : Sql → Option Session
  | .startTransaction readonly =>
    match s.kind with
    | some (.xa _ _) => none
    | _ => some (s.start (.plain readonly))
  | .savepoint ofSession pointId =>
    match s.kind with
    | some (.xa _ .idle) => none
    | some (.xa _ .prepared) => none
    | _ => some (s.setPoint (ofSession,pointId))
  | .rollbackTo ofSession pointId =>
    match s.kind with
    | some (.xa _ .idle) => none
    | some (.xa _ .prepared) => none
    | _ => s.rollbackTo (ofSession,pointId)
  | .commit andChain =>
    match s.kind with
    | some (.xa _ _) => none
    | some (.plain readonly) => some (if andChain=true then s.commit.start (.plain readonly) else s.commit)
    | none => some (if andChain=true then s.start (.plain false) else s)
  | .rollback andChain =>
    match s.kind with
    | some (.xa _ _) => none
    | some (.plain readonly) =>
      some (if andChain=true then s.rollback.start (.plain readonly) else s.rollback)
    | none => some (if andChain=true then s.start (.plain false) else s)
  | .xaStart xaId => if s.kind=none then some (s.start (.xa xaId .active)) else none
  | .xaEnd xaId => if s.kind=some (.xa xaId .active) then some (s.setKind (.xa xaId .idle)) else none
  | .xaPrepare xaId =>
    if s.kind=some (.xa xaId .idle) then some (s.setKind (.xa xaId .prepared)) else none
  | .xaCommit xaId => if s.kind=some (.xa xaId .prepared) then some s.commit else none
  | .xaRollback xaId =>
    if s.kind=some (.xa xaId .idle) ∨ s.kind=some (.xa xaId .prepared) then some s.rollback else none
  | .placeholders _ => some s
  | .names _ => some s
  | .user _ => some s

/-- `SERVER_STATUS_IN_TRANS`. It can be unset when a transaction is prepared. -/
def Session.inTrans (detachOnPrepare : Bool) (s : Session) : Bool :=
  match s.kind with
  | none => false
  | some (.xa _ .prepared) => !detachOnPrepare
  | some _ => true

/-- `SERVER_STATUS_IN_TRANS_READONLY`. -/
def Session.inTransReadonly (s : Session) : Bool :=
  match s.kind with
  | some (.plain readonly) => readonly
  | _ => false

/-- What `COM_RESET_CONNECTION` does: a transaction that is prepared stays. -/
def Session.reset (s : Session) : Session :=
  match s.kind with
  | some (.xa _ .prepared) => s
  | _ => s.rollback

/-- What the server answers with to a command, or to one more statement of it. -/
inductive Answer where
  /-- Success: do rows follow, and does one more answer follow? -/
  | ok (hasRows more : Bool)
  /-- An error packet. -/
  | refused (e : SqlError)
  /-- The connection is lost. -/
  | lost
deriving DecidableEq, Repr

/-- The error that an answer is thrown as. -/
def Answer.error : Answer → Option Error
  | .ok _ _ => none
  | .refused e => some (.sql e)
  | .lost => some (.serverDisconnected "Server disconnected")

/-- An answer after which rows follow. -/
def Answer.hasRows : Answer → Bool
  | .ok hasRows _ => hasRows
  | _ => false

/-- An answer after which one more answer follows. -/
def Answer.more : Answer → Bool
  | .ok _ more => more
  | _ => false

/-- How a server behaves. -/
structure Server where
  /-- What the statement of a number in a text of a user does, when it succeeds. -/
  userExec : String → ℕ → Session → Session := fun text _ s => s.write (fun data => data++[text])
  /-- What the statement does when it is refused. -/
  userFail : String → ℕ → Session → Session := fun _ _ s => s
  /-- What must be answered to SQL, where the state decides it: the error, or
  success. -/
  judge : Session → Sql → Option (Option SqlError) := fun _ _ => none
  /-- `xa_detach_on_prepare`. -/
  detachOnPrepare : Bool := false

/-- What SQL does when it succeeds. -/
def Server.exec (b : Server) (sql : Sql) (n : ℕ) (s : Session) : Session :=
  match sql with
  | .user text => b.userExec text n s
  | sql => (s.exec sql).getD s

/-- What SQL does when it is refused. -/
def Server.fail (b : Server) (sql : Sql) (n : ℕ) (s : Session) : Session :=
  match sql with
  | .user text => b.userFail text n s
  | _ => s

/-- The fields of `MyProtocol` that a connection depends on, and the other end of
the connection. -/
structure MyProtocol where
  /-- `connectionId`. -/
  connectionId : ℕ
  /-- `#state`. -/
  state : ProtocolState := .IDLE
  /-- `schema`: what the server reported. -/
  schema : String := ""
  /-- `#pendingChangeSchema`. -/
  pendingChangeSchema : String := ""
  /-- `SERVER_STATUS_IN_TRANS`. -/
  inTrans : Bool := false
  /-- `SERVER_STATUS_IN_TRANS_READONLY`. -/
  inTransReadonly : Bool := false
  /-- `SERVER_MORE_RESULTS_EXISTS`. -/
  moreResults : Bool := false
  /-- The command whose results `#curResultsets` reads. -/
  curCommand : Option Command := none
  /-- `#retryQueryTimes`. -/
  retryQueryTimes : ℕ := 0
  /-- The server reports changes of the schema. -/
  tracksSchema : Bool := true
  /-- The transport works. -/
  isAlive : Bool := true
  /-- The default schema on the server. -/
  db : String := ""
  /-- The transaction on the server. -/
  session : Session := ⟨[],none⟩
  /-- The prepared statements on the server, the one of the id 1 first. -/
  stmts : List Sql := []
  /-- How many statements of the current command were executed. -/
  nResults : ℕ := 0
deriving DecidableEq, Repr

/-- An answer without rows and without one more answer. -/
def Answer.plain : Answer → Answer
  | .ok _ _ => .ok false false
  | a => a

/-- The text of a user, which can have several results. -/
def Sql.isUser : Sql → Bool
  | .user _ => true
  | _ => false

/-- The SQL that a command executes. -/
def MyProtocol.executed (p : MyProtocol) : Command → Option Sql
  | .query sql => some sql
  | .stmtExecute stmtId _ => p.stmts[stmtId-1]?
  | _ => none

/-- What a successful answer says about the transaction. -/
def MyProtocol.setSession (p : MyProtocol) (b : Server) (s : Session) : MyProtocol :=
  {p with session := s,inTrans := s.inTrans b.detachOnPrepare,inTransReadonly := s.inTransReadonly}

/-- The connection, seen from both ends, after a command is answered. -/
def MyProtocol.after (p : MyProtocol) (b : Server) (command : Command) : Answer → MyProtocol
  | .ok _ more =>
    let s := ((p.executed command).map (fun sql => b.exec sql p.nResults p.session)).getD p.session
    let q := {p.setSession b s with
      moreResults := more
      nResults := if more=true then p.nResults+1 else 0}
    match command with
    | .initDb schema => {q with db := schema,schema := if p.tracksSchema=true then schema else p.schema}
    | .stmtPrepare sql => {q with stmts := p.stmts++[sql]}
    | .resetConnection => q.setSession b s.reset
    | _ => q
  | .refused _ =>
    {p with
      session := ((p.executed command).map (fun sql => b.fail sql p.nResults p.session)).getD p.session
      moreResults := false
      nResults := 0}
  | .lost => {p with isAlive := false}

/-- The fields of `MyConn`. -/
structure MyConn where
  /-- `#protocol`. -/
  protocol : Option MyProtocol := none
  /-- `#isConnecting`. -/
  isConnecting : Bool := false
  /-- `#savepointEnum`. -/
  savepointEnum : ℕ := 0
  /-- `#curXaId`. -/
  curXaId : String := ""
  /-- `#curXaIdAppendConn`. -/
  curXaIdAppendConn : Bool := false
  /-- `#isXaPrepared`. -/
  isXaPrepared : Bool := false
  /-- `#pendingChangeSchema`. -/
  pendingChangeSchema : String := ""
  /-- `pendingTrxSql`. The empty string of the source, an `XA START` whose id is
  not known yet, is `none`. -/
  pendingTrxSql : List (Option Sql) := []
  /-- `#preparedStmtsForParams`. -/
  preparedStmtsForParams : List (Option ℕ) := []
  /-- `#isDisposed`. -/
  isDisposed : Bool := false
deriving DecidableEq, Repr

/-- What `getProtocol()` gives. -/
inductive Supply where
  /-- A connection of the pool, which can be stolen from another schema. -/
  | pooled (protocol : MyProtocol) (stolen : Bool)
  /-- A new connection, and the schema that the initial SQL leaves. -/
  | opened (protocol : MyProtocol) (leaves : String → String)
  /-- An error. -/
  | failed (e : Error)

/-- What is in the log of a connection object. -/
inductive Entry where
  /-- A command is written to the connection of an id. -/
  | sent (connectionId : ℕ) (command : Command)
  /-- An answer is read as the one to a command. -/
  | answered (connectionId : ℕ) (command : Command) (answer : Answer)
deriving DecidableEq, Repr

/-- A connection that was given up. -/
structure GivenUp where
  /-- The connection. -/
  protocol : MyProtocol
  /-- The argument `rollbackPreparedXaId`. -/
  rollbackPreparedXaId : String
  /-- It was closed at once, and not returned. -/
  forced : Bool
deriving DecidableEq, Repr

/-- An entry of the pool's list `#takeCareOfDisconneced`. -/
structure TakeCare where
  /-- The prepared transaction to roll back. -/
  rollbackPreparedXaId : String
  /-- The connection whose query to kill, or 0. -/
  killConnectionId : ℕ
deriving DecidableEq, Repr

/-- A connection object with what surrounds it. -/
structure World where
  /-- The fields of the object. -/
  conn : MyConn := {}
  /-- `dsn.schema`. -/
  dsnSchema : String := ""
  /-- `dsn.retryLockWaitTimeout`. -/
  retryLockWaitTimeout : Bool := false
  /-- `dsn.maxConns || DEFAULT_MAX_CONNS`. -/
  maxConns : ℕ := 250
  /-- The handler `onBeforeCommit`, when it is set, and whether it resolves. -/
  onBeforeCommit : Option Bool := none
  /-- The server. -/
  server : Server := {}
  /-- What the next calls of `getProtocol()` give. -/
  supply : List Supply := []
  /-- What the server will answer, where its state does not decide it. -/
  answers : List Answer := []
  /-- The commands and answers so far. -/
  log : List Entry := []
  /-- The connections given up so far. -/
  givenUp : List GivenUp := []
  /-- The pool's list `#takeCareOfDisconneced`. -/
  takeCare : List TakeCare := []

/-- An operation of a connection object. -/
abbrev Op (α : Type) := Act Error World α

/-- The connection after it is changed. -/
def World.setProtocol (w : World) (p : MyProtocol) : World :=
  {w with conn := {w.conn with protocol := some p}}

/-- One more entry in the log. -/
def World.note (w : World) (e : Entry) : World := {w with log := w.log++[e]}

/-- What the state of the server decides about the answer. -/
def World.verdict (w : World) (p : MyProtocol) (command : Command) : Option Answer :=
  match command with
  | .query sql =>
    match w.server.judge p.session sql with
    | some none => some (.ok false false)
    | some (some e) => some (.refused e)
    | none => none
  | _ => none

/-- The answer to a command, and the answers that remain. Only what a user wrote
has rows or several results. -/
def World.reply (w : World) (p : MyProtocol) (command : Command) : Option (Answer×List Answer) :=
  match w.verdict p command with
  | some a => some (a,w.answers)
  | none =>
    match w.answers with
    | a::answers =>
      some (if (p.executed command).any Sql.isUser=true then a else a.plain,answers)
    | [] => none

/-- Write a command. -/
def send (command : Command) : Op Unit := fun w =>
  match w.conn.protocol with
  | some p => .done () (w.note (.sent p.connectionId command))
  | none => .done () w

/-- Read the answer to a command. On a dead connection nothing arrives. -/
def receive (command : Command) : Op Answer := fun w =>
  match w.conn.protocol with
  | some p =>
    if p.isAlive=false then .done .lost w
    else
      match w.reply p command with
      | some (a,answers) =>
        .done a (World.setProtocol {w.note (.answered p.connectionId command a) with
          answers := answers} (p.after w.server command a))
      | none => .waiting w
  | none => .waiting w

/-- `#setState()` of the current connection. -/
def setState (state : ProtocolState) : Op Unit := modify fun w =>
  match w.conn.protocol with
  | some p => w.setProtocol {p with state := state}
  | none => w

/-- `#setQueryingState()`: was the connection just taken from the pool? -/
def setQueryingState : Op Bool := fun w =>
  match w.conn.protocol with
  | none => .waiting w
  | some p =>
    match p.state with
    | .QUERYING => .thrown (.busy "Previous operation is still in progress") w
    | .HAS_MORE_ROWS => .thrown (.busy "Rows from previous query are not read to the end") w
    | .HAS_MORE_RESULTSETS => .thrown (.busy "Previous query has unread resultsets") w
    | .TERMINATED => .thrown (.canceled "Connection terminated") w
    | .ERROR => .thrown (.error "Protocol error") w
    | .IDLE_IN_POOL => .done true (w.setProtocol {p with state := .QUERYING})
    | .IDLE => .done false (w.setProtocol {p with state := .QUERYING})

/-- `#maybeInitDb()`: the schema to select before the query. -/
def maybeInitDb : Op (Option String) := fun w =>
  match w.conn.protocol with
  | none => .done none w
  | some p =>
    let w' := w.setProtocol {p with pendingChangeSchema := ""}
    if p.pendingChangeSchema="" then .done none w
    else if p.schema="" ∨ p.schema≠p.pendingChangeSchema then .done (some p.pendingChangeSchema) w'
    else .done none w'

/-- Write `COM_INIT_DB`, when it is wanted. -/
def sendInitDb : Option String → Op Unit
  | some schema => send (.initDb schema)
  | none => pure ()

/-- Read the answer to `COM_INIT_DB`, when it was sent; the error is kept. -/
def readInitDb : Option String → Op (Option Error)
  | some schema => do
    let answer ← receive (.initDb schema)
    return answer.error
  | none => return none

/-- `#rethrowErrorIfFatal()`: with `isFromPool` a fatal error is not thrown. -/
def rethrowErrorIfFatal {α : Type} (error : Error) (isFromPool : Bool) : Op (Option α) := do
  if error.isSql=true then
    setState .IDLE
    fail error
  else
    setState .ERROR
    if isFromPool=true then return none else fail error

/-- The test for sending the query again. -/
def canRetryQuery (retryLockWaitTimeout : Bool) : Error → Bool
  | .sql e =>
    decide (e.canRetry=.QUERY ∧ ¬(e.errorCode=lockWaitTimeout ∧ retryLockWaitTimeout=false))
  | _ => false

/-- The loop over the results that remain; it stops at an error. -/
def discardLoop (command : Command) : ℕ → Op (Option Error)
  | 0 => wait
  | n+1 => do
    let w ← get
    if (w.conn.protocol.map MyProtocol.moreResults).getD false=true then
      let answer ← receive command
      match answer.error with
      | some error => return some error
      | none => discardLoop command n
    else return none

/-- `#doDiscard()` over the results that remain. -/
def doDiscard (command : Command) : Op (Option Error) := fun w =>
  discardLoop command (w.answers.length+2) w

/-- The state after a successful query, with the results that are left to read. -/
def setStateAfter (command : Option Command) (answer : Answer) (void : Bool) : Op Unit := modify fun w =>
  match w.conn.protocol with
  | some p =>
    if void=true then w.setProtocol {p with state := .IDLE}
    else if answer.hasRows=true then
      w.setProtocol {p with state := .HAS_MORE_ROWS,curCommand := command}
    else if answer.more=true then
      w.setProtocol {p with state := .HAS_MORE_RESULTSETS,curCommand := command}
    else w.setProtocol {p with state := .IDLE}
  | none => w

/-- The end of an attempt: the error that is thrown, if any, and the answer to
the query. -/
abbrev Attempt := Option Error×Answer

/-- What is done after the last attempt. -/
def conclude (command : Option Command) (attempt : Attempt) (void isFromPool : Bool) : Op (Option Unit) :=
  match attempt.1 with
  | none => do
    setStateAfter command attempt.2 void
    return some ()
  | some error => rethrowErrorIfFatal error isFromPool

/-- The test for one more attempt. -/
def isRetriable (retryLockWaitTimeout : Bool) (attempt : Attempt) : Bool :=
  attempt.1.any (canRetryQuery retryLockWaitTimeout)

/-- What SQL a query has. -/
inductive Source where
  /-- A string or bytes. -/
  | text (sql : Sql)
  /-- A reader with `seek()`: what remains to be read is sent. -/
  | seeker (sql : Sql)
  /-- A reader or a stream of a declared size. -/
  | stream (sql : Sql)
  /-- Such a reader at its end. -/
  | consumed
deriving DecidableEq, Repr

/-- The SQL that is sent, when the source is read now. -/
def Source.sql : Source → Option Sql
  | .text sql => some sql
  | .seeker sql => some sql
  | .stream sql => some sql
  | .consumed => none

/-- The source after it was read. -/
def Source.rest : Source → Source
  | .text sql => .text sql
  | .seeker _ => .seeker (.user "")
  | .stream _ => .consumed
  | .consumed => .consumed

/-- The error of a source that has less data than declared. -/
def endOfStream : Error := .error "Unexpected end of stream"

/-- Read the result of a query; without rows wanted, also the ones that follow. -/
def readResults (command : Command) (void : Bool) : Op Attempt := do
  let answer ← receive command
  match answer.error with
  | some error => return (some error,answer)
  | none =>
    if void=true then
      let error ← doDiscard command
      return (error,answer)
    else return (none,answer)

/-- An attempt of `sendComQuery()`. An error of `COM_INIT_DB` is kept, and comes
before the one of the query. -/
def exchange (source : Source) (void : Bool) : Op Attempt := do
  let initDb ← maybeInitDb
  match source.sql with
  | none => return (some endOfStream,.lost)
  | some sql =>
    sendInitDb initDb
    send (.query sql)
    let early ← readInitDb initDb
    let attempt ← readResults (.query sql) void
    return (early.or attempt.1,attempt.2)

/-- The command that a source is sent as. -/
def Source.command (source : Source) : Option Command := source.sql.map .query

/-- The loop of `sendComQuery()`. -/
def queryLoop (void isFromPool retryLockWaitTimeout : Bool) : ℕ → Source → Op (Option Unit)
  | 0,source => do
    let last ← exchange source void
    conclude source.command last void isFromPool
  | retryQueryTimes+1,source => do
    let last ← exchange source void
    if isRetriable retryLockWaitTimeout last=true then
      queryLoop void isFromPool retryLockWaitTimeout retryQueryTimes source.rest
    else conclude source.command last void isFromPool

/-- The options of a query that decide how often it is sent. -/
structure RetryOptions where
  /-- `retryLockWaitTimeout`. -/
  retryLockWaitTimeout : Bool
  /-- `retryQueryTimes`. -/
  retryQueryTimes : ℕ

/-- The options that are used when none are given. -/
def World.retryOptions (w : World) : RetryOptions :=
  ⟨w.retryLockWaitTimeout,(w.conn.protocol.map MyProtocol.retryQueryTimes).getD 0⟩

/-- `sendComQuery()`. -/
def sendComQuery (source : Source) (void letReturnUndefined : Bool) (options : RetryOptions) :
    Op (Option Unit) := do
  let isFromPool ← setQueryingState
  queryLoop void (isFromPool && letReturnUndefined) options.retryLockWaitTimeout
    options.retryQueryTimes source

/-- `sendComQuery()` of a command of the library. -/
def command (sql : Sql) : Op Unit := do
  let w ← get
  let _ ← sendComQuery (.text sql) true false w.retryOptions

/-- The number of prepared statements, which is the id of the last one. -/
def World.lastStmtId (w : World) : ℕ := ((w.conn.protocol.map MyProtocol.stmts).getD []).length

/-- `sendComStmtPrepare()`: the id of the statement. -/
def sendComStmtPrepare (source : Source) (letReturnUndefined : Bool) : Op (Option ℕ) := do
  let isFromPool ← setQueryingState
  let initDb ← maybeInitDb
  match source.sql with
  | none => rethrowErrorIfFatal endOfStream (isFromPool && letReturnUndefined)
  | some sql =>
    sendInitDb initDb
    send (.stmtPrepare sql)
    let early ← readInitDb initDb
    let answer ← receive (.stmtPrepare sql)
    match answer.error.or early with
    | none =>
      setState .IDLE
      let w ← get
      return some w.lastStmtId
    | some error => rethrowErrorIfFatal error (isFromPool && letReturnUndefined)

/-- `#rethrowError()`. -/
def rethrowError {α : Type} (error : Error) : Op α := do
  setState (if error.isSql=true then .IDLE else .ERROR)
  fail error

/-- `discard()` of the resultsets of a connection. -/
def discard : Op Unit := do
  let w ← get
  match w.conn.protocol with
  | none => pure ()
  | some p =>
    match p.curCommand with
    | none => pure ()
    | some command =>
      if p.state=.HAS_MORE_ROWS ∨ p.state=.HAS_MORE_RESULTSETS then
        let error ← doDiscard command
        match error with
        | none => setState .IDLE
        | some error => rethrowError error
      else pure ()

/-- `exec()` of a prepared statement. -/
def execStmt (stmtId : ℕ) (values : List Value) (void : Bool) : Op Unit := do
  let _ ← setQueryingState
  send (.stmtExecute stmtId values)
  let answer ← receive (.stmtExecute stmtId values)
  match answer.error with
  | none =>
    setStateAfter (some (.stmtExecute stmtId values)) answer false
    doWhen (void=true) discard
  | some error => rethrowError error

/-- The prepared statement that goes before two queries. -/
structure PreStmt where
  /-- The id of the statement. -/
  stmtId : ℕ
  /-- The values. -/
  values : List Value
deriving DecidableEq

/-- Write the statement before, when there is one. -/
def sendPreStmt : Option PreStmt → Op Unit
  | some pre => send (.stmtExecute pre.stmtId pre.values)
  | none => pure ()

/-- Read the answer to the statement before. Its error is not kept. -/
def readPreStmt : Option PreStmt → Op (Option Error)
  | some pre => do
    let answer ← receive (.stmtExecute pre.stmtId pre.values)
    return answer.error
  | none => return none

/-- Write the query before, when there is one. -/
def sendPrequery : Option Sql → Op Unit
  | some sql => send (.query sql)
  | none => pure ()

/-- The error of the query before that is kept: one of the server can be ignored. -/
def keptPrequeryError (ignorePrequeryError : Bool) (error : Option Error) : Option Error :=
  error.filter (fun e => !(ignorePrequeryError && e.isSql))

/-- Read the answer to the query before. -/
def readPrequery (ignorePrequeryError : Bool) : Option Sql → Op (Option Error)
  | some sql => do
    let answer ← receive (.query sql)
    return keptPrequeryError ignorePrequeryError answer.error
  | none => return none

/-- Read the result of the last query. Its error wins over an earlier one, and only
without an error the results that follow are read. -/
def readLast (command : Command) (earlier : Option Error) (void : Bool) : Op Attempt := do
  let answer ← receive command
  match answer.error.or earlier with
  | some error => return (some error,answer)
  | none =>
    if void=true then
      let error ← doDiscard command
      return (error,answer)
    else return (none,answer)

/-- An attempt of `sendThreeQueries()`. When the statement before is refused,
the other answers are not read. -/
def exchangeThree (preStmt : Option PreStmt) (prequery : Option Sql) (ignorePrequeryError : Bool)
    (source : Source) (void : Bool) : Op Attempt := do
  let initDb ← maybeInitDb
  match source.sql with
  | none => return (some endOfStream,.lost)
  | some sql =>
    sendInitDb initDb
    sendPreStmt preStmt
    sendPrequery prequery
    send (.query sql)
    let early ← readInitDb initDb
    let preError ← readPreStmt preStmt
    match preError with
    | some error => return (early.or (some error),.lost)
    | none =>
      let preqError ← readPrequery ignorePrequeryError prequery
      readLast (.query sql) (preqError.or early) void

/-- The loop of `sendThreeQueries()`. Only the last query is sent again. -/
def threeLoop (ignorePrequeryError void isFromPool retryLockWaitTimeout : Bool) :
    ℕ → Option PreStmt → Option Sql → Source → Op (Option Unit)
  | 0,preStmt,prequery,source => do
    let last ← exchangeThree preStmt prequery ignorePrequeryError source void
    conclude source.command last void isFromPool
  | retryQueryTimes+1,preStmt,prequery,source => do
    let last ← exchangeThree preStmt prequery ignorePrequeryError source void
    if isRetriable retryLockWaitTimeout last=true then
      threeLoop ignorePrequeryError void isFromPool retryLockWaitTimeout retryQueryTimes none none
        source.rest
    else conclude source.command last void isFromPool

/-- `sendThreeQueries()`. -/
def sendThreeQueries (preStmt : Option PreStmt) (prequery : Option Sql) (ignorePrequeryError : Bool)
    (source : Source) (void letReturnUndefined : Bool) (options : RetryOptions) :
    Op (Option Unit) := do
  let isFromPool ← setQueryingState
  threeLoop ignorePrequeryError void (isFromPool && letReturnUndefined)
    options.retryLockWaitTimeout options.retryQueryTimes preStmt prequery source

/-- `sendThreeQueries()` of two commands of the library. -/
def twoCommands (prequery : Sql) (ignorePrequeryError : Bool) (sql : Sql) : Op Unit := do
  let w ← get
  let _ ← sendThreeQueries none (some prequery) ignorePrequeryError (.text sql) true false
    w.retryOptions

end SpiritMysql.Conn
