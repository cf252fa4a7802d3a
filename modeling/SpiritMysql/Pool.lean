import SpiritMysql.DsnName
import Mathlib.Algebra.Field.Rat

/-!
# The connection pool

`Pool` keeps its connections by the hash of the name they were asked for. What
`getProtocol()`, `returnProtocol()` and the common task do to the lists
between two awaits is one step here.
-/

namespace SpiritMysql.Pool

open DsnName

/-- `Number.MAX_SAFE_INTEGER`. -/
def maxSafeInteger : WithTop ℚ := ((9007199254740991 : ℚ) : WithTop ℚ)

/-- A `MyProtocol` object in the pool's lists, with what its connection is on
the server's side. -/
structure PooledProtocol where
  /-- The identity of the object. -/
  id : ℕ
  /-- The name that the connection serves now. -/
  dsn : Dsn
  /-- The name that the connection was opened and authenticated with. -/
  openedFor : Dsn
  /-- `CLIENT_SESSION_TRACK` was negotiated. -/
  tracksSchema : Bool
  /-- The schema that the server reported, if any. -/
  schema : String
  /-- `#pendingChangeSchema`. -/
  pendingChangeSchema : String
  /-- The default schema of the connection on the server. -/
  db : String
  /-- The schema that was selected after the commands of the last holder. -/
  selected : String
  /-- The time to close an idle connection at. -/
  useTill : WithTop ℚ
  /-- How many times the connection can be used again. -/
  useNTimes : WithTop ℚ
deriving DecidableEq

/-- The server's default schema becomes `db`. It is reported where that is
negotiated, and the schema changed or the command always reports it. -/
def PooledProtocol.changeDb (p : PooledProtocol) (db : String) (always : Bool) : PooledProtocol :=
  {p with
    db := db
    schema := if p.tracksSchema=true ∧ (always=true ∨ db≠p.db) then db else p.schema}

/-- The library selects a schema. -/
def PooledProtocol.select (p : PooledProtocol) (schema : String) : PooledProtocol :=
  {p.changeDb schema true with selected := schema}

/-- `use()`. -/
def PooledProtocol.use (p : PooledProtocol) (schema : String) : PooledProtocol :=
  {p with pendingChangeSchema := schema}

/-- `#maybeInitDb()`, with what `COM_INIT_DB` does when the schema exists. -/
def PooledProtocol.maybeInitDb (p : PooledProtocol) : PooledProtocol :=
  if p.pendingChangeSchema="" then p
  else if p.schema="" ∨ p.schema≠p.pendingChangeSchema then
    {p.select p.pendingChangeSchema with pendingChangeSchema := ""}
  else {p with pendingChangeSchema := ""}

/-- The holder's commands leave the server with the schema `db`. -/
def PooledProtocol.work (p : PooledProtocol) (db : String) (always : Bool) : PooledProtocol :=
  {p.changeDb db always with pendingChangeSchema := "",selected := ""}

/-- `MyProtocol.inst()`: the handshake carries the pending schema or the one of
the name, and the initial SQL leaves the schema `db`. -/
def inst (id : ℕ) (dsn : Dsn) (pendingChangeSchema : String) (tracksSchema : Bool) (db : String)
    (always : Bool) : PooledProtocol :=
  let schema := if pendingChangeSchema="" then dsn.schema else pendingChangeSchema
  PooledProtocol.changeDb
    { id := id,dsn := dsn,openedFor := dsn,tracksSchema := tracksSchema
      schema := if tracksSchema=true then schema else ""
      pendingChangeSchema := "",db := schema,selected := schema
      useTill := maxSafeInteger,useNTimes := maxSafeInteger } db always

/-- What `end()` does to a connection that it recycles: a new object, the
schema of the name selected, and the initial SQL that leaves the schema `db`. -/
def PooledProtocol.recycle (p : PooledProtocol) (id : ℕ) (db : String) (always : Bool) :
    PooledProtocol :=
  let reset := {p with
    id := id,schema := "",pendingChangeSchema := "",useNTimes := p.useNTimes.map (fun n => n-1)}
  (if p.dsn.schema="" then reset else reset.select p.dsn.schema).changeDb db always

/-- `Protocols`: the connections of one key. -/
structure Protocols where
  /-- The key that the object was made for. -/
  key : BitVec 32
  /-- Connections that can be taken, the last one first. -/
  idle : List PooledProtocol := []
  /-- Connections that are taken. -/
  busy : List PooledProtocol := []
  /-- Connections that are being opened. -/
  nConnecting : ℕ := 0

/-- Where a call of `getProtocol()` is. -/
inductive RequestStatus where
  /-- It looks for a free slot and a connection. -/
  | waiting
  /-- It opens a connection. -/
  | connecting
  /-- It returned or threw. -/
  | finished
deriving DecidableEq

/-- A call of `getProtocol()`. -/
structure Request where
  /-- The name asked for. -/
  dsn : Dsn
  /-- The pending schema as the caller passed it. -/
  asked : String
  /-- The variable `pendingChangeSchema`. -/
  pendingChangeSchema : String
  /-- The object that the variable `conns` refers to. -/
  conns : ℕ
  /-- The time to give up waiting at. -/
  till : WithTop ℚ
  /-- Where the call is. -/
  status : RequestStatus

/-- A connection that `getProtocol()` returned. -/
structure Grant where
  /-- The name asked for. -/
  dsn : Dsn
  /-- The pending schema that the caller passed. -/
  asked : String
  /-- The connection came from the pool. -/
  reused : Bool
  /-- The connection as it was returned. -/
  protocol : PooledProtocol

/-- The fields of `Pool`. -/
structure State where
  /-- All the `Protocols` objects made so far. -/
  objects : List Protocols := []
  /-- `#protocolsPerSchema`, in the order of insertion. -/
  protocolsPerSchema : List (BitVec 32×ℕ) := []
  /-- The calls of `getProtocol()` so far. -/
  requests : List Request := []
  /-- `#nIdleAll`. -/
  nIdleAll : ℤ := 0
  /-- `#nBusyAll`. -/
  nBusyAll : ℤ := 0
  /-- The identity of the next `MyProtocol` object. -/
  nextId : ℕ := 0
  /-- The connections returned to callers so far. -/
  granted : List Grant := []

/-- `dsn.maxConns || DEFAULT_MAX_CONNS`. -/
def maxConns (dsn : Dsn) : WithTop ℚ :=
  match dsn.maxConns with
  | some n => if n.value=0 then 250 else n.value
  | none => 250

/-- A parameter that is replaced when it is not given. -/
def orDefault (n : Option JsNumber) (default : WithTop ℚ) : WithTop ℚ :=
  match n with
  | some n => if 0 ≤ n.value then n.value else default
  | none => default

/-- `keepAliveTimeout` of `getProtocol()`. -/
def keepAliveTimeout (dsn : Dsn) : WithTop ℚ := orDefault dsn.keepAliveTimeout 10000

/-- `keepAliveMax` of `getProtocol()`. -/
def keepAliveMax (dsn : Dsn) : WithTop ℚ := orDefault dsn.keepAliveMax maxSafeInteger

/-- `connectionTimeout` of `getProtocol()`. -/
def connectionTimeout (dsn : Dsn) : WithTop ℚ := orDefault dsn.connectionTimeout 5000

/-- `#protocolsPerSchema.get()`. -/
def State.lookup (s : State) (hash : BitVec 32) : Option ℕ :=
  (s.protocolsPerSchema.find? (fun e => e.1=hash)).map Prod.snd

/-- An update of one `Protocols` object. -/
def State.modify (s : State) (ref : ℕ) (f : Protocols → Protocols) : State :=
  {s with objects := s.objects.modify ref f}

/-- The first step of `getProtocol()`: find the key's object or make it. -/
def State.getProtocol (s : State) (dsn : Dsn) (pendingChangeSchema : String) (now : WithTop ℚ) :
    State :=
  let call := fun conns => Request.mk dsn pendingChangeSchema pendingChangeSchema conns
    (now+connectionTimeout dsn) .waiting
  match s.lookup dsn.hash with
  | some conns => {s with requests := s.requests++[call conns]}
  | none =>
    {s with
      objects := s.objects++[{key := dsn.hash}]
      protocolsPerSchema := s.protocolsPerSchema++[(dsn.hash,s.objects.length)]
      requests := s.requests++[call s.objects.length]}

/-- `#stealIdleProtocolWithTheSameHost()`. -/
def State.steal (s : State) (dsn : Dsn) : Option (PooledProtocol×State) :=
  s.protocolsPerSchema.findSome? fun e =>
    match s.objects[e.2]? with
    | some conns =>
      match conns.idle.getLast? with
      | some protocol =>
        if protocol.dsn.hashNoSchema=dsn.hashNoSchema then
          some ({protocol with dsn := dsn},s.modify e.2 fun o => {o with idle := o.idle.dropLast})
        else none
      | none => none
    | none => none

/-- The status of a call changes. -/
def State.setRequest (s : State) (i : ℕ) (r : Request) : State :=
  {s with requests := s.requests.set i r}

/-- The end of `getProtocol()`: the connection is busy, and the call returns
it. -/
def State.grant (s : State) (i : ℕ) (r : Request) (now : WithTop ℚ) (reused : Bool)
    (protocol : PooledProtocol) : State :=
  let p := {protocol with
    useTill := min protocol.useTill (now+keepAliveTimeout r.dsn)
    useNTimes := min protocol.useNTimes (keepAliveMax r.dsn)}
  {(s.modify r.conns fun o => {o with busy := o.busy++[p]}).setRequest i
      {r with status := .finished} with
    nBusyAll := s.nBusyAll+1
    granted := s.granted++[⟨r.dsn,r.asked,reused,p⟩]}

/-- A connection was taken from an idle list: close it when its time is over,
and let the call look again, or return it. -/
def State.take (s : State) (i : ℕ) (r : Request) (now : WithTop ℚ) (protocol : PooledProtocol) :
    State :=
  if protocol.useTill ≤ now then
    {s.setRequest i r with nIdleAll := s.nIdleAll-1,nBusyAll := s.nBusyAll+1}
  else
    State.grant {s with nIdleAll := s.nIdleAll-1} i r now true
      (protocol.use r.pendingChangeSchema)

/-- One iteration of the connecting loop of `getProtocol()`. -/
def State.connect (s : State) (i : ℕ) (r : Request) (now : WithTop ℚ) (conns : Protocols) : State :=
  match conns.idle.getLast? with
  | some protocol =>
    (s.modify r.conns fun o => {o with idle := o.idle.dropLast}).take i r now protocol
  | none =>
    match if r.dsn.schema="" then none else s.steal r.dsn with
    | some (protocol,s') =>
      let r' := if r.pendingChangeSchema="" then {r with pendingChangeSchema := r.dsn.schema} else r
      s'.take i r' now protocol
    | none =>
      {(s.modify r.conns fun o => {o with nConnecting := o.nConnecting+1}).setRequest i
          {r with status := .connecting} with
        nBusyAll := s.nBusyAll+1}

/-- The wait for a free slot of `getProtocol()`, and an iteration of the loop
after it. The queue of waiting calls can refuse one more. -/
def State.next (s : State) (i : ℕ) (r : Request) (now : WithTop ℚ) (refused : Bool)
    (conns : Protocols) : State :=
  if maxConns r.dsn ≤ (((conns.busy.length+conns.nConnecting : ℕ) : ℚ) : WithTop ℚ) then
    if r.till ≤ now ∨ refused=true then s.setRequest i {r with status := .finished} else s
  else s.connect i r now conns

/-- Take the element at a place out of a list and put the last one there. -/
def swapRemove {α : Type} (l : List α) (i : ℕ) : List α :=
  match l.getLast? with
  | some last => (l.set i last).dropLast
  | none => l

/-- The place of the first busy connection of an object that satisfies a test. -/
def State.busyPlace (s : State) (ref : ℕ) (is : PooledProtocol → Bool) : Option (ℕ×ℕ) :=
  match s.objects[ref]? with
  | some conns => (conns.busy.findIdx? is).map fun i => (ref,i)
  | none => none

/-- Where `#doReturnProtocol()` finds the connection: in the busy list of the
key of its name, or else where some connection of that name is busy. -/
def State.findBusy (s : State) (protocol : PooledProtocol) : Option (ℕ×ℕ) :=
  match (s.lookup protocol.dsn.hash).bind fun ref =>
      s.busyPlace ref fun q => q.id=protocol.id with
  | some place => some place
  | none => s.protocolsPerSchema.findSome? fun e =>
      s.busyPlace e.2 fun q => q.dsn=protocol.dsn

/-- `#doReturnProtocol()`. -/
def State.doReturnProtocol (s : State) (protocol : PooledProtocol)
    (protocolForReuse : Option PooledProtocol) : State :=
  match s.findBusy protocol with
  | some (ref,i) =>
    {s.modify ref fun o =>
        {o with busy := swapRemove o.busy i,idle := o.idle++protocolForReuse.toList} with
      nIdleAll := s.nIdleAll+protocolForReuse.toList.length
      nBusyAll := s.nBusyAll-1}
  | none => s

/-- `returnProtocol()`, after `end()`: the connection is recycled when it may be
used again and is alive. -/
def State.returnProtocol (s : State) (protocol : PooledProtocol) (now : WithTop ℚ)
    (alive : Option (String×Bool)) : State :=
  match alive with
  | some (db,always) =>
    if 1 < protocol.useNTimes ∧ now < protocol.useTill then
      State.doReturnProtocol {s with nextId := s.nextId+1} protocol
        (some (protocol.recycle s.nextId db always))
    else s.doReturnProtocol protocol none
  | none => s.doReturnProtocol protocol none

/-- The loop of the common task over an idle list, from its end. -/
def closeIdle (close : PooledProtocol → Bool) : ℕ → List PooledProtocol → List PooledProtocol
  | 0,idle => idle
  | i+1,idle =>
    closeIdle close i
      (match idle[i]? with
      | some protocol => if close protocol=true then swapRemove idle i else idle
      | none => idle)

/-- What the common task does with one entry of the map: connections are closed
that are idle for too long, or all of them, and an entry of nothing is removed
when it has no statistics left. -/
def State.taskEntry (now : WithTop ℚ) (closeAll quiet : BitVec 32 → Bool) (s : State)
    (e : BitVec 32×ℕ) : State :=
  match s.objects[e.2]? with
  | some conns =>
    let idle := closeIdle (fun p => closeAll e.1 || decide (p.useTill ≤ now)) conns.idle.length
      conns.idle
    let s' := {s.modify e.2 fun o => {o with idle := idle} with
      nIdleAll := s.nIdleAll-(conns.idle.length-idle.length)
      nBusyAll := s.nBusyAll+(conns.idle.length-idle.length)}
    if conns.busy.length+idle.length+conns.nConnecting=0 ∧ quiet e.1=true then
      {s' with protocolsPerSchema := s'.protocolsPerSchema.filter fun e' => e'.1≠e.1}
    else s'
  | none => s

/-- The busy connection of an identity. -/
def State.busyProtocol (s : State) (id : ℕ) : Option PooledProtocol :=
  s.objects.findSome? fun o => o.busy.find? fun p => p.id=id

/-- The holder of a connection changes it. -/
def State.updateBusy (s : State) (id : ℕ) (f : PooledProtocol → PooledProtocol) : State :=
  {s with objects := s.objects.map fun o =>
    {o with busy := o.busy.map fun p => if p.id=id then f p else p}}

/-- What can happen in a pool. Times, and what the servers do, come with the
events. -/
inductive Event where
  /-- `getProtocol()` is called. -/
  | getProtocol (dsn : Dsn) (pendingChangeSchema : String) (now : WithTop ℚ)
  /-- A call of `getProtocol()` goes on to its next await. -/
  | next (i : ℕ) (now : WithTop ℚ) (refused : Bool)
  /-- The connection that a call opens is there. -/
  | connected (i : ℕ) (now : WithTop ℚ) (tracksSchema : Bool) (db : String) (always : Bool)
  /-- The connection that a call opens is refused. -/
  | connectFailed (i : ℕ)
  /-- The holder calls `use()`. -/
  | use (id : ℕ) (schema : String)
  /-- The holder's commands are executed. -/
  | work (id : ℕ) (db : String) (always : Bool)
  /-- `returnProtocol()` ends. -/
  | returnProtocol (id : ℕ) (now : WithTop ℚ) (alive : Option (String×Bool))
  /-- `returnProtocolAndForceImmediateDisconnect()`. -/
  | forceDisconnect (id : ℕ)
  /-- The common task runs. -/
  | commonTask (now : WithTop ℚ) (closeAll quiet : BitVec 32 → Bool)
  /-- A connection taken from an idle list is closed. -/
  | closed

/-- The state after an event, when it can happen. -/
def State.step (s : State) : Event → Option State
  | .getProtocol dsn pendingChangeSchema now => some (s.getProtocol dsn pendingChangeSchema now)
  | .next i now refused =>
    match s.requests[i]? with
    | some r =>
      match s.objects[r.conns]? with
      | some conns => if r.status=.waiting then some (s.next i r now refused conns) else none
      | none => none
    | none => none
  | .connected i now tracksSchema db always =>
    match s.requests[i]? with
    | some r =>
      if r.status=.connecting then
        some (State.grant {(s.modify r.conns fun o => {o with nConnecting := o.nConnecting-1}) with
            nBusyAll := s.nBusyAll-1,nextId := s.nextId+1} i r now false
          (inst s.nextId r.dsn r.pendingChangeSchema tracksSchema db always))
      else none
    | none => none
  | .connectFailed i =>
    match s.requests[i]? with
    | some r =>
      if r.status=.connecting then
        some {(s.modify r.conns fun o => {o with nConnecting := o.nConnecting-1}).setRequest i
            {r with status := .finished} with
          nBusyAll := s.nBusyAll-1}
      else none
    | none => none
  | .use id schema => some (s.updateBusy id (·.use schema))
  | .work id db always => some (s.updateBusy id (·.work db always))
  | .returnProtocol id now alive =>
    (s.busyProtocol id).map fun protocol => s.returnProtocol protocol now alive
  | .forceDisconnect id =>
    (s.busyProtocol id).map fun protocol => s.doReturnProtocol protocol none
  | .commonTask now closeAll quiet =>
    some (s.protocolsPerSchema.foldl (State.taskEntry now closeAll quiet) s)
  | .closed => some {s with nBusyAll := s.nBusyAll-1}

end SpiritMysql.Pool
