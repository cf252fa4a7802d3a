import Mathlib.Algebra.Order.Group.Multiset
import SpiritMysql.EventSystem
import SpiritMysql.ListUpdates
import SpiritMysql.Protocol

/-!
# Prepared statements of a connection

Who holds the id of a prepared statement: a resultsets object, the cache for
queries with named parameters, or the list of statements that are to be
closed. The operations are cut where the code waits, and others can come in
between. What was sent is kept in a log.
-/

namespace SpiritMysql.Statements

open EventSystem ListUpdates Protocol

/-- Who works with a resultsets object. -/
inductive Use where
  /-- The caller has it. -/
  | caller
  /-- `#doQuery()` is to execute it with this many parameters. -/
  | positional (nParams : ℕ)
  /-- `#doQuery()` executes it. -/
  | executing
  /-- The `finally` of `#doQuery()` is to come. -/
  | leaving
deriving DecidableEq, Repr

/-- The fields of `ResultsetsInternal` that say what becomes of a statement. -/
structure Handle where
  /-- `isPreparedStmt`. -/
  isPreparedStmt : Bool := false
  /-- `stmtId`. -/
  stmtId : ℤ := -1
  /-- `protocol` is set. -/
  protocol : Bool := false
  /-- `hasMoreInternal`. -/
  hasMoreInternal : Bool := false
  /-- `nPlaceholders`. -/
  nPlaceholders : ℕ := 0
  /-- Who works with it. -/
  use : Use := .caller
deriving DecidableEq, Repr

/-- What a statement is prepared for. -/
inductive Purpose where
  /-- For the caller. -/
  | caller
  /-- For one execution, with positional parameters. -/
  | positional (nParams : ℕ)
  /-- For the cache at a position, and a query with named parameters. -/
  | named (pos : ℕ) (void : Bool)
deriving DecidableEq, Repr

/-- The operations of the protocol object, with what each has in its variables. -/
inductive Job where
  /-- `sendComQuery()`, and the error of a command that was sent before, with whether the
  query is retried after it. -/
  | query (void : Bool) (error : Option Bool)
  /-- `sendComStmtPrepare()`. -/
  | prepare (purpose : Purpose)
  /-- `execStmt()`. -/
  | exec (h : ℕ) (stmtId : ℤ) (positional : Bool)
  /-- `sendThreeQueries()`. -/
  | named (stmtId : ℤ) (void : Bool)
  /-- `fetch()`. -/
  | fetch (stmtId : ℤ)
  /-- `nextResultset()`. -/
  | nextResultset (stmtId : ℤ)
deriving DecidableEq, Repr

/-- How far an operation is. -/
inductive Stage where
  /-- In the loop that calls `#doPending()`. -/
  | closing
  /-- After the loop, before the command is written. -/
  | ready
  /-- Waiting for the answer. -/
  | sent
  /-- Reading rows. -/
  | rows
  /-- Reading the next response. -/
  | results
deriving DecidableEq, Repr

/-- The operation in progress. -/
structure Task where
  /-- The operation. -/
  job : Job
  /-- How far it is. -/
  stage : Stage
deriving DecidableEq, Repr

/-- A query with named parameters, where it waits. -/
structure Continuation where
  /-- `stmtId`. -/
  stmtId : ℤ
  /-- `pos`. -/
  pos : ℕ
  /-- The rows are not wanted. -/
  void : Bool
  /-- The id is in the cache. -/
  stored : Bool
deriving DecidableEq, Repr

/-- What happened, in order. -/
inductive Entry where
  /-- The server returned a statement id. -/
  | returned (stmtId : ℤ)
  /-- The id was put in `#pendingCloseStmts`. -/
  | queued (stmtId : ℤ)
  /-- `#doPending()` found nothing to send. -/
  | flushed
  /-- `COM_STMT_CLOSE`. -/
  | close (stmtId : ℤ)
  /-- `COM_QUERY`. -/
  | query
  /-- `COM_STMT_PREPARE`. -/
  | prepare
  /-- `COM_STMT_EXECUTE`. -/
  | execute (stmtId : ℤ)
deriving DecidableEq, Repr

/-- The connection, with its resultsets objects. -/
structure State where
  /-- `#state`. -/
  state : ProtocolState := .IDLE
  /-- `#pendingCloseStmts`. -/
  pendingCloseStmts : List ℤ := []
  /-- `#preparedStmtsForParams`. -/
  preparedStmtsForParams : List ℤ := []
  /-- The resultsets objects. -/
  handles : List Handle := []
  /-- `#curResultsets`. -/
  curResultsets : Option ℕ := none
  /-- The operation in progress. -/
  task : Option Task := none
  /-- The queries with named parameters that wait. -/
  later : List Continuation := []
  /-- What happened. -/
  log : List Entry := []
  /-- An operation is over whose answers were not read to the end. -/
  unread : Bool := false

/-- The commands that were sent before the last one, and are refused. -/
structure Batch where
  /-- `COM_INIT_DB` or `COM_SET_OPTION`. -/
  option : Bool := false
  /-- The statement that sets the parameters. -/
  preStmt : Bool := false
  /-- The query that names the parameters. -/
  prequery : Bool := false
  /-- The error is one after which the query is retried. -/
  retry : Bool := false
deriving DecidableEq, Repr

/-- What the server sends. -/
inductive Answer where
  /-- The OK packet of `COM_STMT_PREPARE`. -/
  | prepared (stmtId nPlaceholders : ℕ)
  /-- Another OK packet, with the number in its first bytes. -/
  | ok (more : Bool) (head : ℕ)
  /-- The columns of a resultset. -/
  | columns
  /-- A row. -/
  | row
  /-- The end of the rows. -/
  | rowsEnd (more : Bool)
  /-- An error packet. -/
  | refused
deriving DecidableEq, Repr

/-- What can happen. -/
inductive Event where
  /-- A query without parameters. -/
  | query (void : Bool)
  /-- A statement is prepared. -/
  | prepare
  /-- A query with positional parameters. -/
  | positional (nParams : ℕ)
  /-- A query with named parameters. -/
  | named (nParams : ℕ) (void : Bool)
  /-- `exec()` of a resultsets object. -/
  | exec (h nParams : ℕ)
  /-- A row is read. -/
  | fetch
  /-- The next resultset is wanted. -/
  | nextResultset
  /-- A resultsets object is disposed of. -/
  | dispose (h : ℕ)
  /-- A query with positional parameters goes on. -/
  | goOn (h : ℕ)
  /-- A query with named parameters goes on. -/
  | resume (i : ℕ)
  /-- A call of `#doPending()` writes this many commands. -/
  | doPending (n : ℕ)
  /-- `#doPending()` returns `undefined`. -/
  | flush
  /-- The command is sent. -/
  | send
  /-- An answer comes. -/
  | answer (batch : Batch) (a : Answer)
  /-- The operation fails with an error that did not come from the server. -/
  | lost
deriving DecidableEq, Repr

/-! ## The parts of the operations -/

/-- An operation begins, after `#setQueryingState()`. -/
def State.begin (s : State) (job : Job) : Option State :=
  match s.state with
  | .IDLE | .IDLE_IN_POOL => some {s with state := .QUERYING,task := some ⟨job,.closing⟩}
  | _ => none

/-- `exec()` and the beginning of `execStmt()`. -/
def State.exec (s : State) (h : ℕ) (x : Handle) (nParams : ℕ) (positional : Bool) : Option State :=
  if nParams≠x.nPlaceholders then none
  else if x.protocol=false then none
  else if x.stmtId < 0 then none
  else s.begin (.exec h x.stmtId positional)

/-- An operation ends in a state of the protocol object. -/
def State.done (s : State) (state : ProtocolState) : State := {s with state := state,task := none}

/-- A query fails, and is retried without the other two. -/
def State.failed (s : State) (void retry : Bool) : State :=
  if retry=true then {s with task := some ⟨.query void none,.closing⟩} else s.done .IDLE

/-- The end of a query, when an earlier command of it may have been refused. -/
def State.ended (s : State) (void : Bool) (error : Option Bool) : State :=
  match error with
  | none => s.done .IDLE
  | some retry => s.failed void retry

/-- `disposePreparedStmt()` of a resultsets object, and of the protocol object. -/
def State.disposePreparedStmt (s : State) (h : ℕ) (x : Handle) : State :=
  if x.protocol=true then
    let s' := {s with
      handles := s.handles.set h {x with stmtId := -1,protocol := x.hasMoreInternal,use := .caller}}
    if s.state≠.ERROR ∧ s.state≠.TERMINATED then
      {s' with
        pendingCloseStmts := s.pendingCloseStmts++[x.stmtId],log := s.log++[.queued x.stmtId]}
    else s'
  else {s with handles := s.handles.set h {x with use := .caller}}

/-- The id is put in the cache, after the positions that are not taken. -/
def storeStmt (cache : List ℤ) (pos : ℕ) (stmtId : ℤ) : List ℤ :=
  let cache' := cache++List.replicate (pos-cache.length) (-1)
  if pos < cache'.length then cache'.set pos stmtId else cache'++[stmtId]

/-- The current resultsets object, with its place. -/
def State.current (s : State) : Option (ℕ×Handle) :=
  s.curResultsets.bind fun h => s.handles[h]?.map fun x => (h,x)

/-- There are rows or resultsets of an object to read. -/
def State.hasMore (s : State) (h : ℕ) : State := {s with
  handles := s.handles.modify h fun x => {x with protocol := true,hasMoreInternal := true}
  curResultsets := some h}

/-- The current resultsets object is read to the end. -/
def State.readToEnd (s : State) (stmtId : ℤ) : State :=
  match s.curResultsets with
  | none => s
  | some h => {s with
    handles := s.handles.modify h fun x =>
      {x with protocol := x.protocol && decide (0 ≤ stmtId),hasMoreInternal := false}
    curResultsets := none}

/-- What an operation sends. -/
def Job.commands : Job → List Entry
  | .query _ _ => [.query]
  | .prepare _ => [.prepare]
  | .exec _ stmtId _ => [.execute stmtId]
  | .named stmtId _ => [.execute stmtId,.query,.query]
  | .fetch _ | .nextResultset _ => []

/-- The id that an operation took from the current resultsets object. -/
def Job.captured : Job → ℤ
  | .fetch stmtId | .nextResultset stmtId => stmtId
  | _ => -1

/-! ## The answers -/

/-- The answer to `COM_STMT_PREPARE`. An id that it returns is not in use. -/
def State.prepared (s : State) (purpose : Purpose) (batch : Batch) (a : Answer) : Option State :=
  match a with
  | .prepared stmtId nPlaceholders =>
    if .returned (stmtId : ℤ) ∈ s.log then none
    else
      let s' := {s.done .IDLE with log := s.log++[.returned stmtId]}
      let x : Handle := {
        isPreparedStmt := true,stmtId := stmtId,protocol := true,nPlaceholders := nPlaceholders}
      if batch.option=true then some s'
      else match purpose with
      | .caller => some {s' with handles := s.handles++[x]}
      | .positional nParams => some {s' with handles := s.handles++[{x with use := .positional nParams}]}
      | .named pos void => some {s' with later := s.later++[⟨stmtId,pos,void,false⟩]}
  | .refused => some (s.done .IDLE)
  | _ => none

/-- The answer to `COM_STMT_EXECUTE`. -/
def State.executed (s : State) (h : ℕ) (positional : Bool) (a : Answer) : Option State :=
  let s' := if positional=true then
    {s with handles := s.handles.modify h fun x => {x with use := .leaving}} else s
  match a with
  | .ok false _ | .refused => some (s'.done .IDLE)
  | .ok true _ => some ((s'.hasMore h).done .HAS_MORE_RESULTSETS)
  | .columns => some ((s'.hasMore h).done .HAS_MORE_ROWS)
  | _ => none

/-- The answer to a query, after those to the commands before it. The rows of a query
whose earlier commands were refused stay unread, except when they are not wanted
and there was no other query before it. -/
def State.queried (s : State) (void : Bool) (error : Option Bool) (alone retry : Bool) (a : Answer) :
    Option State :=
  let x : Handle := {protocol := true,hasMoreInternal := true}
  let s' : State := {s with handles := s.handles++[x],curResultsets := some s.handles.length}
  let more (state : ProtocolState) (stage : Stage) : State :=
    if error≠none ∧ (void=false ∨ alone=false) then {s.done .IDLE with unread := true}
    else if void=true then {s' with task := some ⟨.query void error,stage⟩}
    else s'.done state
  match a with
  | .ok false _ => some (State.ended {s with handles := s.handles++[({} : Handle)]} void error)
  | .ok true _ => some (more .HAS_MORE_RESULTSETS .results)
  | .columns => some (more .HAS_MORE_ROWS .rows)
  | .refused => some (s.failed void retry)
  | _ => none

/-- Reading is over. -/
def State.readingEnds (s : State) : Job → State
  | .query void error => (s.readToEnd (-1)).ended void error
  | job => (s.readToEnd job.captured).done .IDLE

/-- An error packet, where rows or a response are read. -/
def State.readingFails (s : State) (retry : Bool) : Job → State
  | .query void error => s.failed void (error.getD retry)
  | _ => s.done .IDLE

/-- Rows are read. -/
def State.readRows (s : State) (job : Job) (retry : Bool) (a : Answer) : Option State :=
  match a with
  | .row =>
    match job with
    | .fetch _ => some (s.done .HAS_MORE_ROWS)
    | _ => some s
  | .rowsEnd more =>
    if more=true then
      match job with
      | .fetch _ => some (s.done .HAS_MORE_RESULTSETS)
      | .nextResultset _ =>
        match s.current with
        | some (_,x) => some {s with task := some ⟨.nextResultset x.stmtId,.results⟩}
        | none => none
      | _ => some {s with task := some ⟨job,.results⟩}
    else some (s.readingEnds job)
  | .refused => some (s.readingFails retry job)
  | _ => none

/-- The next response is read. An OK packet is taken for that of
`COM_STMT_PREPARE` when the object came from a prepared statement, and what follows is read
where there is nothing more. -/
def State.readResults (s : State) (job : Job) (retry : Bool) (a : Answer) : Option State :=
  match a with
  | .ok more head =>
    match s.current with
    | none => none
    | some (h,x) =>
      if x.isPreparedStmt=true then
        some {s with handles := s.handles.set h {x with stmtId := head},task := none,unread := true}
      else if more=true then
        match job with
        | .query _ _ => some s
        | _ => some (s.done .HAS_MORE_RESULTSETS)
      else some (s.readingEnds job)
  | .columns =>
    match job with
    | .query _ _ => some {s with task := some ⟨job,.rows⟩}
    | _ => some (s.done .HAS_MORE_ROWS)
  | .refused => some (s.readingFails retry job)
  | _ => none

/-- An answer to the operation in progress. -/
def State.answer (s : State) (t : Task) (batch : Batch) (a : Answer) : Option State :=
  let error := if (batch.option || batch.prequery)=true then some batch.retry else none
  match t.stage with
  | .closing | .ready => none
  | .rows => s.readRows t.job batch.retry a
  | .results => s.readResults t.job batch.retry a
  | .sent =>
    match t.job with
    | .prepare purpose => s.prepared purpose batch a
    | .exec h _ positional => s.executed h positional a
    | .query void _ => s.queried void (if batch.option=true then some batch.retry else none) true
        batch.retry a
    | .named _ void =>
      if batch.preStmt=true then some {s.done .IDLE with unread := true}
      else s.queried void error false batch.retry a
    | .fetch _ | .nextResultset _ => none

/-! ## The events -/

/-- An operation of the caller: it throws when it cannot begin. -/
def State.call (s : State) (job : Job) : State := (s.begin job).getD s

/-- The state after an event, when it can happen. -/
def State.step (s : State) : Event → Option State
  | .query void => if s.unread=true then none else some (s.call (.query void none))
  | .prepare => if s.unread=true then none else some (s.call (.prepare .caller))
  | .positional nParams => if s.unread=true then none else some (s.call (.prepare (.positional nParams)))
  | .named nParams void =>
    let pos := (nParams-1)/8
    if s.unread=true then none
    else if nParams=0 then some (s.call (.query void none))
    else if 0xFFFF < nParams then some s
    else match s.preparedStmtsForParams[pos]? with
    | some stmtId =>
      if stmtId≠-1 then some {s with later := s.later++[⟨stmtId,pos,void,true⟩]}
      else some (s.call (.prepare (.named pos void)))
    | none => some (s.call (.prepare (.named pos void)))
  | .exec h nParams =>
    match s.handles[h]? with
    | some x =>
      if s.unread=true ∨ x.use≠.caller then none else some ((s.exec h x nParams false).getD s)
    | none => none
  | .fetch =>
    if s.unread=true then none
    else match s.state,s.current with
    | .HAS_MORE_ROWS,some (_,x) =>
      some {s with state := .QUERYING,task := some ⟨.fetch x.stmtId,.rows⟩}
    | _,_ => some s
  | .nextResultset =>
    if s.unread=true then none
    else match s.state,s.current with
    | .HAS_MORE_ROWS,some (_,x) =>
      some {s with state := .QUERYING,task := some ⟨.nextResultset x.stmtId,.rows⟩}
    | .HAS_MORE_RESULTSETS,some (_,x) =>
      some {s with state := .QUERYING,task := some ⟨.nextResultset x.stmtId,.results⟩}
    | _,_ => some s
  | .dispose h =>
    match s.handles[h]? with
    | some x =>
      if x.use≠.caller then none
      else if x.stmtId=-1 then some s
      else some (s.disposePreparedStmt h x)
    | none => none
  | .goOn h =>
    match s.handles[h]? with
    | some x =>
      match x.use with
      | .positional nParams =>
        match s.exec h x nParams true with
        | some s' => some {s' with handles := s.handles.modify h fun x => {x with use := .executing}}
        | none => some {s with handles := s.handles.modify h fun x => {x with use := .leaving}}
      | .leaving => some (s.disposePreparedStmt h x)
      | _ => none
    | none => none
  | .resume i =>
    match s.later[i]? with
    | some c =>
      if c.stored=true then
        some (({s with later := s.later.eraseIdx i}).call (.named c.stmtId c.void))
      else some {s with
        later := s.later.set i {c with stored := true}
        preparedStmtsForParams := storeStmt s.preparedStmtsForParams c.pos c.stmtId}
    | none => none
  | .doPending n =>
    match s.task with
    | some ⟨_,.closing⟩ => some {s with
        pendingCloseStmts := s.pendingCloseStmts.take (s.pendingCloseStmts.length-n)
        log := s.log++(s.pendingCloseStmts.drop (s.pendingCloseStmts.length-n)).reverse.map .close}
    | _ => none
  | .flush =>
    match s.task with
    | some ⟨job,.closing⟩ =>
      if s.pendingCloseStmts=[] then
        some {s with task := some ⟨job,.ready⟩,log := s.log++[.flushed]}
      else none
    | _ => none
  | .send =>
    match s.task with
    | some ⟨job,.ready⟩ =>
      some {s with task := some ⟨job,.sent⟩,log := s.log++job.commands}
    | _ => none
  | .answer batch a =>
    match s.task with
    | some t => s.answer t batch a
    | none => none
  | .lost =>
    match s.task with
    | some ⟨job,_⟩ => some {s.done .ERROR with
        handles := match job with
          | .exec h _ true => s.handles.modify h fun x => {x with use := .leaving}
          | _ => s.handles}
    | none => none

/-! ## What is to hold -/

/-- A statement id, where the number is one. -/
def ids (stmtId : ℤ) : Multiset ℤ := if 0 ≤ stmtId then {stmtId} else 0

/-- The ids that a resultsets object, the cache or a waiting query holds. -/
def State.owned (s : State) : Multiset ℤ :=
  (s.handles.map fun x => ids x.stmtId).sum+(s.preparedStmtsForParams.map ids).sum+
    (s.later.map fun c => if c.stored=true then 0 else ids c.stmtId).sum

/-- The ids that the server returned. -/
def returnedIds (log : List Entry) : List ℤ :=
  log.filterMap fun | .returned stmtId => some stmtId | _ => none

/-- The ids that were put in `#pendingCloseStmts`. -/
def queuedIds (log : List Entry) : List ℤ :=
  log.filterMap fun | .queued stmtId => some stmtId | _ => none

/-- The ids of the `COM_STMT_CLOSE` commands. -/
def closedIds (log : List Entry) : List ℤ :=
  log.filterMap fun | .close stmtId => some stmtId | _ => none

/-- What was queued is closed before the next command. -/
def Delivered (log : List Entry) : Prop :=
  ∀ before after,log=before++Entry.flushed::after → ∀ stmtId,
    .queued stmtId ∈ before → .close stmtId ∈ before

/-- What is closed is not executed afterwards. -/
def ClosedLast (log : List Entry) : Prop :=
  ∀ before after stmtId,log=before++Entry.close stmtId::after → .execute stmtId ∉ after

/-- Every statement is closed once. -/
structure ClosedOnce (s : State) : Prop where
  /-- While the connection is alive, an id that the server returned is owned, or is to be closed,
  or was closed, and only one of these. -/
  held : s.state≠.ERROR → ∀ stmtId ∈ returnedIds s.log,
    s.owned.count stmtId+s.pendingCloseStmts.count stmtId+(closedIds s.log).count stmtId=1
  /-- No id is queued twice. -/
  queuedOnce : (queuedIds s.log).Nodup
  /-- No id is closed twice. -/
  closedOnce : (closedIds s.log).Nodup
  /-- The server returned the ids that are closed. -/
  known : ∀ stmtId ∈ closedIds s.log,stmtId ∈ returnedIds s.log
  /-- What was queued is closed before the next command. -/
  delivered : Delivered s.log
  /-- What is closed is not executed afterwards. -/
  last : ClosedLast s.log

end SpiritMysql.Statements
