import SpiritMysql.Conn
import SpiritMysql.EventSystem
import SpiritMysql.ListUpdates

/-!
# Savepoints of a session

`MySession` makes savepoints on all its connections. A savepoint is a number
that the session counts, a command that waits on the connection, or a savepoint
on the server. A connection that joins later makes the savepoints that the
session has counted.
-/

namespace SpiritMysql.SessionPoints

open EventSystem TrxStore

variable {δ : Type}

/-- A connection of the session, with the data of its server. -/
structure Member (δ : Type) where
  /-- `pendingTrxSql`. -/
  pendingTrxSql : List (Option Conn.Sql) := []
  /-- `#savepointEnum`. -/
  savepointEnum : ℕ := 0
  /-- `connectionId`, when there is a connection to the server. -/
  connectionId : Option ℕ := none
  /-- `SERVER_STATUS_IN_TRANS`, of the connection to the server. -/
  inTrans : Bool := false
  /-- The server: its savepoints are called by their kind and number. -/
  store : Store Unit (Bool×ℕ) δ
  /-- The data when each session savepoint was made last. -/
  mark : ℕ → δ

/-- `MySession`. -/
structure Session (δ : Type) where
  /-- `#connsArr`. -/
  conns : List (Member δ) := []
  /-- `#savepointEnum`. -/
  savepointEnum : ℕ := 0
  /-- `#trxOptions`. -/
  trxOptions : Option Conn.TrxOptions := none

/-- What a query does on the server. -/
inductive Effect (δ : Type) where
  /-- It changes the data, or not. -/
  | write (f : δ → δ)
  /-- The transaction is committed. -/
  | commit
  /-- The transaction is rolled back. -/
  | rollback

/-! ## A connection -/

/-- What the server does with a command that waited. -/
def execSql (store : Store Unit (Bool×ℕ) δ) : Option Conn.Sql → Store Unit (Bool×ℕ) δ
  | none | some (.xaStart _) | some (.startTransaction _) => store.start ()
  | some (.savepoint ofSession pointId) => store.setPoint (ofSession,pointId)
  | _ => store

/-- The server after all commands that wait. -/
def flushTo (store : Store Unit (Bool×ℕ) δ) (pending : List (Option Conn.Sql)) :
    Store Unit (Bool×ℕ) δ := pending.foldl execSql store

/-- The server after the commands of a connection. -/
def Member.flushed (m : Member δ) : Store Unit (Bool×ℕ) δ := flushTo m.store m.pendingTrxSql

/-- The connection has a transaction, or will have one with the next query. -/
def Member.TakesPart (m : Member δ) : Prop := m.flushed.trx.isSome=true

instance (m : Member δ) : Decidable m.TakesPart := inferInstanceAs (Decidable (_=true))

/-- The status after the commands that waited. -/
def Member.status (m : Member δ) : Bool :=
  if m.pendingTrxSql=[] then m.inTrans else m.flushed.trx.isSome

/-- The command that starts a transaction. -/
def startSql (connectionId : Option ℕ) (options : Conn.TrxOptions) : Option Conn.Sql :=
  if options.xaId1≠"" then connectionId.map fun id => .xaStart (options.xaId1++toString id)
  else some (.startTransaction options.readonly)

/-- `startTrx()`, where no transaction is open. -/
def Member.startTrx (m : Member δ) (options : Conn.TrxOptions) : Member δ :=
  {m with pendingTrxSql := [startSql m.connectionId options],savepointEnum := 0}

/-- `commit()`; when it is refused the transaction is rolled back. -/
def Member.commit (m : Member δ) (refused : Bool) : Member δ :=
  if m.inTrans=true then
    {m with
      pendingTrxSql := [],inTrans := false
      store := if refused=true then m.store.rollback else m.store.commit}
  else {m with pendingTrxSql := []}

/-- `rollback()`. When the connection is lost, it is ended. -/
def Member.rollbackAll (m : Member δ) (lost : Bool) : Member δ :=
  if m.inTrans=true then
    let m' := {m with pendingTrxSql := [],inTrans := false,store := m.store.rollback}
    if lost=true then {m' with connectionId := none,savepointEnum := 0} else m'
  else {m with pendingTrxSql := []}

/-- `rollback(0)`. When the connection is lost, the transaction is restarted. -/
def Member.rollbackChain (m : Member δ) (lost : Bool) (options : Conn.TrxOptions) : Member δ :=
  if m.inTrans=true then
    if lost=true then
      Member.startTrx {m with connectionId := none,inTrans := false,store := m.store.rollback} options
    else {m with pendingTrxSql := [],store := m.store.rollback.start ()}
  else {m with pendingTrxSql := []}

/-- `rollback()` to a savepoint, and whether it is accepted. -/
def Member.rollbackTo (m : Member δ) (ofSession : Bool) (pointId : ℕ) : Member δ×Bool :=
  match Conn.beforeSavepoint ofSession pointId m.pendingTrxSql.reverse with
  | some before => ({m with pendingTrxSql := before.reverse},true)
  | none =>
    if m.inTrans=true then
      match m.flushed.rollbackTo (ofSession,pointId) with
      | some store => ({m with pendingTrxSql := [],store := store,inTrans := store.trx.isSome},true)
      | none => ({m with pendingTrxSql := [],store := m.flushed,inTrans := m.status},false)
    else (m,false)

/-- `savepoint()`. -/
def Member.savepoint (m : Member δ) : Member δ :=
  {m with
    savepointEnum := m.savepointEnum+1
    pendingTrxSql := m.pendingTrxSql++[some (.savepoint false (m.savepointEnum+1))]}

/-- `sessionSavepoint()`. -/
def Member.sessionSavepoint (m : Member δ) (pointId : ℕ) : Member δ :=
  {m with
    pendingTrxSql := m.pendingTrxSql++[some (.savepoint true pointId)]
    mark := fun n => if n=pointId then m.store.visible else m.mark n}

/-- A query, after the commands that wait. An error packet carries no status. -/
def Member.query (m : Member δ) (connectionId : ℕ) (effect : Effect δ) (refused : Bool) : Member δ :=
  let store := match effect with
    | .write f => m.flushed.write f
    | .commit => m.flushed.commit
    | .rollback => m.flushed.rollback
  {m with
    pendingTrxSql := [],connectionId := some (m.connectionId.getD connectionId)
    store := store,inTrans := if refused=true then m.status else store.trx.isSome}

/-! ## The session -/

/-- What can happen. -/
inductive Event (δ : Type) where
  /-- `conn()` makes a new connection. -/
  | conn (data : δ)
  /-- `startTrx()`, with the connections on which the commit is refused. -/
  | startTrx (readonly : Bool) (xaId1 : String) (refused : List ℕ)
  /-- `savepoint()`. -/
  | savepoint
  /-- `rollback()` with a number, the connections that are lost on the way, and the next
  XA id. -/
  | rollback (toPointId : ℕ) (lost : List ℕ) (xaId1 : String)
  /-- A query on a connection. -/
  | query (i connectionId : ℕ) (effect : Effect δ) (refused : Bool)
  /-- `savepoint()` of a connection. -/
  | connSavepoint (i : ℕ)
  /-- `rollback()` of a connection, to one of its own savepoints. -/
  | connRollback (i pointId : ℕ)

/-- `conn()`, when no connection is found. -/
def Session.conn (s : Session δ) (data : δ) : Session δ :=
  let m : Member δ := {
    store := ⟨data,none⟩,mark := fun _ => data
    pendingTrxSql := (s.trxOptions.map (startSql none)).toList++
      (List.range s.savepointEnum).map fun i => some (.savepoint true (i+1))}
  {s with conns := s.conns++[m]}

/-- `startTrx()`: it fails when a commit is refused. -/
def Session.startTrx (s : Session δ) (options : Conn.TrxOptions) (refused : List ℕ) : Session δ :=
  let conns := s.conns.mapIdx fun i m => m.commit (refused.contains i)
  if s.conns.zipIdx.any (fun p => p.1.inTrans && refused.contains p.2)=true then
    {conns := conns,savepointEnum := 0,trxOptions := none}
  else
    {conns := conns.map fun m => m.startTrx options,savepointEnum := 0,trxOptions := some options}

/-- `savepoint()`. -/
def Session.savepoint (s : Session δ) : Session δ :=
  let pointId := s.savepointEnum+1
  {s with savepointEnum := pointId,conns := s.conns.map fun m => m.sessionSavepoint pointId}

/-- `rollback()` with a number. -/
def Session.rollback (s : Session δ) (toPointId : ℕ) (lost : List ℕ) (xaId1 : String) : Session δ :=
  if toPointId=0 then
    match s.trxOptions with
    | none => {s with
        savepointEnum := 0,conns := s.conns.mapIdx fun i m => m.rollbackChain (lost.contains i) {}}
    | some options =>
      if options.xaId1≠"" then
        Session.startTrx {s with
          savepointEnum := 0,trxOptions := none
          conns := s.conns.mapIdx fun i m => m.rollbackAll (lost.contains i)} {xaId1 := xaId1} []
      else {s with
        savepointEnum := 0
        conns := s.conns.mapIdx fun i m => m.rollbackChain (lost.contains i) options}
  else if toPointId ≤ Conn.savepointEnumSessionFrom then s
  else {s with
    savepointEnum := toPointId-(Conn.savepointEnumSessionFrom+1)
    conns := s.conns.map fun m => (m.rollbackTo true (toPointId-Conn.savepointEnumSessionFrom)).1}

/-- The state after an event. -/
def Session.step (s : Session δ) : Event δ → Option (Session δ)
  | .conn data => some (s.conn data)
  | .startTrx readonly xaId1 refused =>
    some (s.startTrx {readonly := readonly && decide (xaId1=""),xaId1 := xaId1} refused)
  | .savepoint => some s.savepoint
  | .rollback toPointId lost xaId1 => some (s.rollback toPointId lost xaId1)
  | .query i connectionId effect refused =>
    some {s with conns := s.conns.modify i fun m => m.query connectionId effect refused}
  | .connSavepoint i => some {s with conns := s.conns.modify i Member.savepoint}
  | .connRollback i pointId =>
    some {s with conns := s.conns.modify i fun m => (m.rollbackTo false pointId).1}

/-- A rollback to each session savepoint is accepted by all connections that take part in
the transaction, and restores the data of each, or it is accepted by none. -/
def Uniform (s : Session δ) : Prop :=
  ∀ pointId,
    (∀ m ∈ s.conns,m.TakesPart → (m.rollbackTo true pointId).2=true ∧
      (m.rollbackTo true pointId).1.store.visible=m.mark pointId) ∨
    ∀ m ∈ s.conns,m.TakesPart → (m.rollbackTo true pointId).2=false

end SpiritMysql.SessionPoints
