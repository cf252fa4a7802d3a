import SpiritMysql.Conn

/-!
# Transactions of a session

`MySession` starts, commits and rolls back the transactions of all its
connections. The handler `onBeforeCommit` of the pool is called by the session
and by the connections, and each call of it is noted. The promises of the
connections are awaited together, and the connections do not depend on one
another, so they are run one after another.
-/

namespace SpiritMysql.TrxSession

open AsyncAction Errors Conn

/-- A call of the handler `onBeforeCommit`. -/
structure HandlerCall where
  /-- The positions of the connections that it is given. -/
  conns : List ℕ
  /-- What these connections had sent until then. -/
  logs : List (List Entry)
deriving DecidableEq

/-- Whether the handler resolves, at each call. -/
abbrev Handler := ℕ → Bool

/-- A connection object, with the handler of the pool. -/
structure Hooked where
  /-- The connection object. -/
  world : World
  /-- The handler, when it is set. -/
  onBeforeCommit : Option Handler := none
  /-- The calls so far. -/
  calls : List HandlerCall := []

/-- An operation of such a connection object. -/
abbrev HookedOp (α : Type) := Act Error Hooked α

/-- An operation that does not call the handler. -/
def onWorld {α : Type} (x : Op α) : HookedOp α :=
  onPart Hooked.world (fun w s => {s with world := w}) x

/-- The error of a handler that rejects. -/
def handlerError : Error := .error "onBeforeCommit"

/-- `await onBeforeCommit([this])`, when it is set. What the handler itself does with the
connection is left out. -/
def callHandler (self : ℕ) : HookedOp Unit := fun s =>
  match s.onBeforeCommit with
  | none => .done () s
  | some handler =>
    let s' := {s with calls := s.calls++[⟨[self],[s.world.log]⟩]}
    if handler s.calls.length=true then .done () s' else .thrown handlerError s'

/-- `prepareCommit()`. -/
def prepareCommit (self : ℕ) : HookedOp Unit := do
  let s ← get
  if s.world.inTrans=true ∧ s.world.conn.curXaId≠"" ∧ s.world.conn.isXaPrepared=false then
    callHandler self
    onWorld (do
      twoCommands (.xaEnd s.world.conn.curXaId) false (.xaPrepare s.world.conn.curXaId)
      modify fun w => {w with conn := {w.conn with isXaPrepared := true}})
  else pure ()

/-- The part of `commit()` for an XA transaction. -/
def commitXa (curXaId : String) (andChain : Bool) : Op Unit := do
  let error ← commitOrRollback (.xaCommit curXaId) (.xaRollback curXaId)
  clearTrx
  throwSome (error.or (if andChain=true then some (sqlError "Cannot chain XA") else none))

/-- The part of `commit()` for a regular transaction, after the handler. -/
def commitPlain (andChain : Bool) : Op Unit := do
  let error ← commitOrRollback (.commit andChain) (.rollback andChain)
  clearTrx
  throwSome error

/-- `commit()`. -/
def commit (self : ℕ) (andChain : Bool) : HookedOp Unit := do
  let s ← get
  if s.world.hasTrx=true then
    if s.world.conn.curXaId≠"" then
      if s.world.conn.isXaPrepared=false then fail (sqlError "Please, prepare commit first")
      else onWorld (commitXa s.world.conn.curXaId andChain)
    else
      callHandler self
      onWorld (commitPlain andChain)
  else onWorld clearTrx

/-- `startTrx()`. -/
def startTrx (self : ℕ) (options : TrxOptions) : HookedOp Unit := do
  let s ← get
  if s.world.inTrans=true ∧ s.world.conn.curXaId≠"" then
    fail (sqlError "There's already an active Distributed Transaction")
  else
    doWhen (s.world.inTrans=true) (commit self false)
    if isInvalidXaId (if options.xaId="" then options.xaId1 else options.xaId)=true then
      fail (.error "Invalid XA ID")
    else onWorld (modify fun w => {w with conn := w.conn.setTrx options})

/-! ## The session -/

/-- `MySession`. -/
structure Session where
  /-- `#connsArr`. -/
  conns : List World := []
  /-- `#savepointEnum`. -/
  savepointEnum : ℕ := 0
  /-- `#trxOptions`. -/
  trxOptions : Option TrxOptions := none
  /-- The handler of the pool, when it is set. -/
  onBeforeCommit : Option Handler := none
  /-- Its calls so far. -/
  calls : List HandlerCall := []
  /-- What `xaIdGen.next()` gives. -/
  nextXaId : ℕ → String := fun n => toString n
  /-- How often it was called. -/
  nXaIds : ℕ := 0

/-- An operation of a session. -/
abbrev SessionOp (α : Type) := Act Error Session α

/-- What `Promise.allSettled()` gives. -/
structure Settled where
  /-- The connections. -/
  conns : List World
  /-- The calls of the handler so far. -/
  calls : List HandlerCall
  /-- The first error. -/
  error : Option Error := none
  /-- A promise is not settled. -/
  isWaiting : Bool := false

/-- The error of an operation. -/
def errorOf {σ α : Type} : Outcome Error σ α → Option Error
  | .thrown e _ => some e
  | _ => none

/-- The operation does not end. -/
def waits {σ α : Type} : Outcome Error σ α → Bool
  | .waiting _ => true
  | _ => false

/-- An operation on each of the connections, from a position on. -/
def settleAll (op : ℕ → HookedOp Unit) (handler : Option Handler) :
    ℕ → List World → List HandlerCall → Settled
  | _,[],calls => {conns := [],calls := calls}
  | i,w::conns,calls =>
    let x := op i ⟨w,handler,calls⟩
    let rest := settleAll op handler (i+1) conns x.state.calls
    { conns := x.state.world::rest.conns,calls := rest.calls
      error := (errorOf x).or rest.error,isWaiting := waits x || rest.isWaiting }

/-- The operation on all connections of a session. -/
def Session.settle (s : Session) (op : ℕ → HookedOp Unit) : Settled :=
  settleAll op s.onBeforeCommit 0 s.conns s.calls

/-- The session after an operation on its connections. -/
def Session.after (s : Session) (r : Settled) : Session :=
  {s with conns := r.conns,calls := r.calls}

/-- `#doAll()`, without the rollback. -/
def doAll (op : ℕ → HookedOp Unit) : SessionOp Unit := fun s =>
  let r := s.settle op
  if r.isWaiting=true then .waiting (s.after r)
  else
    match r.error with
    | some e => .thrown e (s.after r)
    | none => .done () (s.after r)

/-- `rollback()` without a number. -/
def rollbackAll : SessionOp Unit := do
  modify fun s => {s with trxOptions := none,savepointEnum := 0}
  doAll fun _ => onWorld (Conn.rollback none)

/-- `await onBeforeCommit(this.conns)`, when it is set. -/
def callSessionHandler : SessionOp Unit := fun s =>
  match s.onBeforeCommit with
  | none => .done () s
  | some handler =>
    let s' := {s with calls := s.calls++[⟨List.range s.conns.length,s.conns.map World.log⟩]}
    if handler s.calls.length=true then .done () s' else .thrown handlerError s'

/-- A `catch` block that rolls back, where the error of the rollback is only logged. -/
def rollbackOnError (back x : SessionOp Unit) : SessionOp Unit :=
  attempt x fun e => do
    attempt back fun _ => pure ()
    fail e

/-- `prepareCommit()` of a connection that is `inXa`. -/
def prepareXa (i : ℕ) : HookedOp Unit := do
  let s ← get
  doWhen (s.world.conn.curXaId≠"") (prepareCommit i)

/-- The preparation of the XA transactions, and the commit. -/
def prepareAndCommit (back : SessionOp Unit) : SessionOp Unit := do
  rollbackOnError back (doAll prepareXa)
  doAll fun i => commit i false

/-- The first three steps of `commit()`. -/
def commitConns (back : SessionOp Unit) : SessionOp Unit := do
  rollbackOnError back callSessionHandler
  prepareAndCommit back

/-- `commit()`. -/
def commitAll : SessionOp Unit := do
  modify fun s => {s with trxOptions := none,savepointEnum := 0}
  let s ← get
  doWhen (s.conns≠[]) (commitConns rollbackAll)

/-- The options of `startTrx()` of a session. -/
structure SessionTrxOptions where
  /-- `readonly`. -/
  readonly : Bool := false
  /-- `xa`. -/
  xa : Bool := false
deriving DecidableEq, Repr

/-- `startTrx()`. What becomes of the promises of the connections is not looked at. -/
def startTrxAll (options : SessionTrxOptions) : SessionOp Unit := do
  let s ← get
  doWhen (s.conns≠[]) commitAll
  modify fun s =>
    let trxOptions : TrxOptions :=
      if options.xa=true then {xaId1 := s.nextXaId s.nXaIds} else {readonly := options.readonly}
    let s := {s with
      trxOptions := some trxOptions,savepointEnum := 0
      nXaIds := if options.xa=true then s.nXaIds+1 else s.nXaIds}
    s.after (s.settle fun i => startTrx i trxOptions)

/-- `rollback(0)`. The XA transactions are restarted, and the error of the rollback wins. -/
def rollbackToStart : SessionOp Unit := do
  let s ← get
  if (s.trxOptions.map TrxOptions.xaId1).getD ""≠"" then
    modify fun s => {s with trxOptions := none,savepointEnum := 0}
    attempt (doAll fun _ => onWorld (Conn.rollback none)) fun e => do
      attempt (startTrxAll {xa := true}) fun _ => pure ()
      fail e
    startTrxAll {xa := true}
  else
    modify fun s => {s with savepointEnum := 0}
    doAll fun _ => onWorld (Conn.rollback (some 0))

/-- `rollback()`. -/
def rollback : Option ℕ → SessionOp Unit
  | none => rollbackAll
  | some 0 => rollbackToStart
  | some toPointId =>
    if toPointId ≤ savepointEnumSessionFrom then fail (.error "No such SAVEPOINT")
    else do
      modify fun s => {s with savepointEnum := toPointId-(savepointEnumSessionFrom+1)}
      doAll fun _ => onWorld (Conn.rollback (some toPointId))

/-- `commit()`, also with `andChain`. -/
def commitSession (andChain : Bool) : SessionOp Unit := do
  let trxOptions := Session.trxOptions (← get)
  modify fun s => {s with trxOptions := none,savepointEnum := 0}
  let s ← get
  doWhen (s.conns≠[]) (do
    commitConns (rollback (if andChain=true then some 0 else none))
    doWhen (andChain=true) (startTrxAll ⟨(trxOptions.map TrxOptions.readonly).getD false,
      decide ((trxOptions.map TrxOptions.xaId1).getD ""≠"")⟩))

/-- Without `andChain` it is the commit that `startTrx()` does first. -/
theorem commitSession_false : commitSession false=commitAll := by
  funext s
  simp only [commitSession,commitAll,bind_apply,get_apply,modify_apply,Outcome.andThen_done]
  by_cases h : s.conns=[]
  · simp [doWhen,h]
  · simp only [doWhen,h,not_false_eq_true,ne_eq,if_true,bind_apply,Bool.false_eq_true,if_false,rollback]
    cases commitConns rollbackAll _ <;> rfl

/-- The savepoints of a session, made on a connection. -/
def addPoints (n : ℕ) (w : World) : World :=
  (List.range n).foldl (fun w i => (sessionSavepoint (i+1) w).state) w

/-- A connection object that joins the session. -/
def Session.joining (s : Session) (w : World) : World :=
  let w := {w with conn := {}}
  addPoints s.savepointEnum
    (match s.trxOptions with
      | some options => (Conn.startTrx options w).state
      | none => w)

/-- `conn()`, when no connection is found. -/
def conn (w : World) : SessionOp Unit := modify fun s => {s with conns := s.conns++[s.joining w]}

/-- `savepoint()`. -/
def savepoint : SessionOp Unit := modify fun s =>
  let pointId := s.savepointEnum+1
  {s with
    savepointEnum := pointId
    conns := s.conns.map fun w => (sessionSavepoint pointId w).state}

/-! ## The connections -/

/-- What an operation does with the connection. -/
theorem onWorld_world {α : Type} (x : Op α) (s : Hooked) :
    (onWorld x s).mapState Hooked.world=x s.world := by
  unfold onWorld
  rw [onPart_apply]
  cases x s.world <;> rfl

/-- An operation that does not call the handler. -/
theorem onWorld_calls {α : Type} (x : Op α) (s : Hooked) : (onWorld x s).state.calls=s.calls := by
  unfold onWorld
  rw [onPart_apply]
  cases x s.world <;> rfl

/-- The connection knows what the next call of the handler gives. -/
def Hooked.Knows (s : Hooked) : Prop :=
  s.world.onBeforeCommit=s.onBeforeCommit.map fun handler => handler s.calls.length

/-- After the handler the rest of an operation is the one of the connection's model. -/
theorem callHandler_world {s : Hooked} (hs : s.Knows) (self : ℕ) (x : Op Unit) :
    ((callHandler self >>= fun _ => onWorld x) s).mapState Hooked.world=
      (callOnBeforeCommit >>= fun _ => x) s.world := by
  have he : s.world.onBeforeCommit=_ := hs
  simp only [bind_apply,callHandler,callOnBeforeCommit,he]
  cases hh : s.onBeforeCommit with
  | none => exact onWorld_world x s
  | some handler =>
    simp only [Option.map_some]
    cases handler s.calls.length with
    | true => exact onWorld_world x _
    | false => rfl

/-- `prepareCommit()` does with the connection what its model says. -/
theorem prepareCommit_world {s : Hooked} (hs : s.Knows) (self : ℕ) :
    (prepareCommit self s).mapState Hooked.world=Conn.prepareCommit s.world := by
  unfold prepareCommit Conn.prepareCommit
  simp only [bind_apply,get_apply,Outcome.andThen_done,branch_apply]
  split
  · exact callHandler_world hs self _
  · rfl

/-- `commit()` does with the connection what its model says. -/
theorem commit_world {s : Hooked} (hs : s.Knows) (self : ℕ) (andChain : Bool) :
    (commit self andChain s).mapState Hooked.world=Conn.commit andChain s.world := by
  unfold commit Conn.commit
  simp only [bind_apply,get_apply,Outcome.andThen_done,branch_apply]
  split
  · split
    · split
      · rfl
      · exact onWorld_world (commitXa s.world.conn.curXaId andChain) s
    · exact callHandler_world hs self (commitPlain andChain)
  · exact onWorld_world clearTrx s

end SpiritMysql.TrxSession
