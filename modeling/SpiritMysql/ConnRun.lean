import SpiritMysql.Conn
import SpiritMysql.EventSystem

/-!
# Runs of a connection object

The operations that a user calls on a `MyConn`, one after another, and what
becomes of a connection that was given up: `end()` of its `MyProtocol`.
-/

namespace SpiritMysql.Conn

open AsyncAction Errors Protocol TrxStore

/-- The SQL that a user wrote. -/
def Query.OfUser (q : Query) : Prop := ∀ sql,q.sql.sql=some sql → sql.isUser=true

instance (q : Query) : Decidable q.OfUser :=
  match h : q.sql.sql with
  | none => isTrue (by simp [Query.OfUser,h])
  | some sql => decidable_of_iff (sql.isUser=true) (by simp [Query.OfUser,h])

/-- What a user calls. -/
inductive Call where
  /-- `connect()`. -/
  | connect
  /-- `use()`. -/
  | use (schema : String)
  /-- `query()` and its variants. -/
  | query (q : {q : Query // q.OfUser})
  /-- `discard()` of the resultsets. -/
  | discard
  /-- `startTrx()`. -/
  | startTrx (options : TrxOptions)
  /-- `savepoint()`. -/
  | savepoint
  /-- `savepoint()` of the session. -/
  | sessionSavepoint (pointId : ℕ)
  /-- `prepareCommit()`. -/
  | prepareCommit
  /-- `rollback()`. -/
  | rollback (toPointId : Option ℕ)
  /-- `commit()`. -/
  | commit (andChain : Bool)
  /-- `end()`. -/
  | endConn
  /-- `[Symbol.dispose]()`. -/
  | dispose
  /-- `forceImmediateDisconnect()`. -/
  | forceImmediateDisconnect (force : Force)

/-- The operation that is called. -/
def Call.op : Call → Op Unit
  | .connect => Conn.connect
  | .use schema => Conn.use schema
  | .query q => doQuery q.1
  | .discard => Conn.discard
  | .startTrx options => Conn.startTrx options
  | .savepoint => do
    let _ ← Conn.savepoint
  | .sessionSavepoint pointId => Conn.sessionSavepoint pointId
  | .prepareCommit => Conn.prepareCommit
  | .rollback toPointId => Conn.rollback toPointId
  | .commit andChain => Conn.commit andChain
  | .endConn => Conn.endConn
  | .dispose => Conn.dispose
  | .forceImmediateDisconnect force => Conn.forceImmediateDisconnect force

/-- The state in which the next operation is called: this one returned or threw. -/
def settled {α : Type} : Outcome Error World α → Option World
  | .done _ w => some w
  | .thrown _ w => some w
  | .waiting _ => none

/-- One call. -/
def World.step (w : World) (c : Call) : Option World := settled (c.op w)

/-- An answer does not bring back a schema. -/
theorem after_schema {p : MyProtocol} (b : Server) (c : Command) (a : Answer) :
    (p.after b c a).pendingChangeSchema=p.pendingChangeSchema := by
  cases a with
  | ok hasRows more => cases c <;> rfl
  | _ => rfl

/-- A state that an operation settles in is the one that it left behind. -/
theorem state_of_settled {α : Type} {x : Outcome Error World α} {w : World}
    (h : settled x=some w) : x.state=w := by
  cases x with
  | done a s => exact Option.some_inj.mp h
  | thrown e s => exact Option.some_inj.mp h
  | waiting s => cases h

/-- What is kept by an operation is kept by a call of it. -/
theorem step_state {w w' : World} {c : Call} (h : w.step c=some w') : (c.op w).state=w' :=
  state_of_settled h

/-- The results that were open are discarded: is the connection still usable? -/
def endResults (p : MyProtocol) : Op Bool :=
  match p.curCommand with
  | none => return true
  | some command =>
    if p.state=.HAS_MORE_ROWS ∨ p.state=.HAS_MORE_RESULTSETS then do
      let error ← doDiscard command
      return error.isNone
    else return true

/-- The commands of `end()` for a transaction that is prepared. Their errors are
only logged. -/
def rollbackPrepared (rollbackPreparedXaId : String) : Op Unit :=
  if rollbackPreparedXaId="" then pure ()
  else do
    attempt (command (.xaEnd rollbackPreparedXaId)) (fun _ => pure ())
    attempt (command (.xaRollback rollbackPreparedXaId)) (fun _ => pure ())

/-- `COM_RESET_CONNECTION`, and the schema of the DSN. -/
def sendComResetConnectionAndInitDb (schema : String) : Op Bool := do
  send .resetConnection
  doWhen (schema≠"") (send (.initDb schema))
  let answer ← receive .resetConnection
  let initDb ← readInitDb (if schema="" then none else some schema)
  return answer.error.isNone && initDb.isNone

/-- The new `MyProtocol` object over the same connection. -/
def MyProtocol.renewed (p : MyProtocol) : MyProtocol :=
  {p with
    state := .IDLE,schema := "",pendingChangeSchema := "",inTrans := false
    inTransReadonly := false,moreResults := false,curCommand := none}

/-- `end()` of `MyProtocol`: the connection that goes back to the idle list. -/
def endProtocol (rollbackPreparedXaId : String) (recycleConnection : Bool) :
    Op (Option MyProtocol) := do
  let w ← get
  match w.conn.protocol with
  | none => return none
  | some p =>
    if p.state=.TERMINATED then return none
    else
      setState .TERMINATED
      let isUsable ← endResults p
      rollbackPrepared rollbackPreparedXaId
      if recycleConnection=true ∧ isUsable=true ∧ p.state≠.ERROR then
        modify fun w => {w with conn := {w.conn with protocol := w.conn.protocol.map MyProtocol.renewed}}
        let isReset ← sendComResetConnectionAndInitDb w.dsnSchema
        if isReset=true then
          setState .IDLE_IN_POOL
          let w ← get
          return w.conn.protocol
        else
          send .quit
          return none
      else
        doWhen (p.state≠.ERROR) (send .quit)
        return none

/-- The world of a connection that was given up, with what the server will
answer there. -/
def GivenUp.world (g : GivenUp) (w : World) (answers : List Answer) : World :=
  {w with conn := {protocol := some g.protocol},answers := answers,log := []}

end SpiritMysql.Conn
