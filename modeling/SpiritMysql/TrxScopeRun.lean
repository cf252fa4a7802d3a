import SpiritMysql.EventSystem
import SpiritMysql.ConnRun
import SpiritMysql.TrxScope

/-!
# Runs between a transaction's start and its disposal

A `Trx` object is made by `getTrx()`. Until it is disposed of, anything can be
called on its connection or session. As long as no other transaction is started
there, the disposal rolls back nothing after a commit, and otherwise the
transaction of the object.
-/

namespace SpiritMysql.TrxSession

open AsyncAction Errors Conn EventSystem

/-! ## A connection -/

/-- What is called on a connection. -/
def callOn (self : ℕ) : Call → HookedOp Unit
  | .startTrx options => startTrx self options
  | .prepareCommit => prepareCommit self
  | .commit andChain => commit self andChain
  | c => onWorld c.op

/-- The state in which the next operation is called. -/
def settledState {σ α : Type} : Outcome Error σ α → Option σ
  | .done _ s => some s
  | .thrown _ s => some s
  | .waiting _ => none

/-- A state that an operation settles in is the one that it left behind. -/
theorem state_of_settledState {σ α : Type} {x : Outcome Error σ α} {s : σ}
    (h : settledState x=some s) : x.state=s := by
  cases x with
  | done a t => exact Option.some_inj.mp h
  | thrown e t => exact Option.some_inj.mp h
  | waiting t => cases h

/-- The call starts another transaction. A query does when its SQL is said to. -/
def startsOther (c : Call) (sqlStarts : Bool) : Bool :=
  match c with
  | .startTrx _ => true
  | .commit andChain => andChain
  | .query _ => sqlStarts
  | .discard => sqlStarts
  | _ => false

/-- The call starts no other transaction, and begins nothing where nothing is open or
pending. -/
def Quiet (w : World) (c : Call) (sqlStarts : Bool) : Prop :=
  startsOther c sqlStarts=false ∧
    match c with
    | .savepoint => ¬Cleared w
    | .sessionSavepoint _ => ¬Cleared w
    | .query q => Cleared w → ∀ w',settled (doQuery q.1 w)=some w' → Cleared w'
    | .discard => Cleared w → ∀ w',settled (discard w)=some w' → Cleared w'
    | _ => True

/-- A `Trx` object of a connection. -/
structure Scope where
  /-- The connection. -/
  conn : Hooked
  /-- `commit()` of the object resolved. -/
  committed : Bool := false
  /-- What is open or pending on the connection is the transaction of the object. -/
  own : Bool := true

/-- What can happen. -/
inductive Event where
  /-- Something is called on the connection. -/
  | call (c : Call) (sqlStarts : Bool)
  /-- `commit()` of the object. -/
  | commitTrx

/-- What happens to the object and its connection. -/
def Scope.step (s : Scope) : Event → Option Scope
  | .call c sqlStarts => (settledState (callOn 0 c s.conn)).map fun conn =>
    {s with conn := conn,own := s.own && !startsOther c sqlStarts}
  | .commitTrx =>
    match commit 0 false s.conn with
    | .done _ conn => some {s with conn := conn,committed := true}
    | .thrown _ conn => some {s with conn := conn}
    | .waiting _ => none

/-- No other transaction is started, and the server refuses what is not possible. -/
def Careful (s : Scope) : Event → Prop
  | .call c sqlStarts => Quiet s.conn.world c sqlStarts
  | .commitTrx => Refuses s.conn.world.server

/-- Disposing of the object after its commit does nothing. Otherwise it rolls back exactly
what is open or pending, and this is the transaction of the object. -/
structure Disposes (w : World) (committed own : Bool) : Prop where
  /-- The transaction was committed. -/
  afterCommit : committed=true → Untouched w
  /-- It was not. -/
  rollsBack : committed=false → own=true ∧ RollsBack w

section Cleared

variable {w w' : World}

/-- The fields of the transaction can be cleared again. -/
theorem Cleared.clearTrx (h : Cleared w) : Cleared {w with conn := w.conn.clearTrx} :=
  cleared_of_inTrans (inTrans_of_clear h.hasTrx)

/-- Another connection to the server, without a transaction. -/
theorem Cleared.setProtocol (h : Cleared w) {p : MyProtocol} (hp : p.inTrans=false) {v : World}
    (hpend : v.conn.pendingTrxSql=w.conn.pendingTrxSql) (hid : v.conn.curXaId=w.conn.curXaId)
    (hprep : v.conn.isXaPrepared=w.conn.isXaPrepared) : Cleared (v.setProtocol p) := by
  refine ⟨⟨?_,hpend.trans h.pending,hid.trans h.curXaId⟩,hprep.trans h.isXaPrepared⟩
  have hv : v.conn.isXaPrepared=false := hprep.trans h.isXaPrepared
  unfold World.hasTrx World.inTrans World.setProtocol
  simp [hp,hv]

/-- Where only other fields change. -/
theorem Cleared.of_same (h : Cleared w) (hp : w'.conn.protocol=w.conn.protocol)
    (hpend : w'.conn.pendingTrxSql=w.conn.pendingTrxSql) (hid : w'.conn.curXaId=w.conn.curXaId)
    (hprep : w'.conn.isXaPrepared=w.conn.isXaPrepared) : Cleared w' := by
  refine ⟨⟨?_,hpend.trans h.pending,hid.trans h.curXaId⟩,hprep.trans h.isXaPrepared⟩
  have ht := h.hasTrx
  unfold World.hasTrx World.inTrans at ht ⊢
  rwa [hp,hprep]

/-- A connection is taken. -/
theorem connect_cleared (h : Cleared w) : Cleared (connect w).state := by
  unfold connect
  split
  · exact h
  · cases hp : w.conn.protocol with
    | some p => exact h
    | none =>
      dsimp only
      split
      · exact h
      · cases hs : w.supply with
        | nil => exact h.of_same rfl rfl rfl rfl
        | cons supply rest =>
          cases supply with
          | pooled p stolen => exact h.setProtocol rfl rfl rfl rfl
          | opened p leaves => exact h.setProtocol rfl rfl rfl rfl
          | failed e => exact h.of_same rfl rfl rfl rfl

/-- Another schema is wanted. -/
theorem use_cleared (h : Cleared w) (schema : String) : Cleared (use schema w).state := by
  unfold use
  rw [modify_apply]
  show Cleared _
  cases hp : w.conn.protocol with
  | none =>
    dsimp only
    exact h.of_same rfl rfl rfl rfl
  | some p =>
    have hi : p.inTrans=false := by
      have ht := inTrans_of_clear h.hasTrx
      unfold World.inTrans at ht
      rw [hp] at ht
      exact ht
    have hset : Cleared (w.setProtocol {p with pendingChangeSchema := schema}) :=
      h.setProtocol (p := {p with pendingChangeSchema := schema}) hi rfl rfl rfl
    exact hset

/-- A rollback where nothing is open or pending. -/
theorem rollback_cleared (h : Cleared w) (toPointId : Option ℕ) :
    Cleared (Conn.rollback toPointId w).state := by
  match toPointId with
  | none =>
    rw [rollback_none,rollbackAll_idle h.hasTrx]
    exact h.clearTrx
  | some 0 =>
    have he : Conn.rollback (some 0)=Conn.rollbackAll true := rfl
    rw [he,rollbackAll_idle h.hasTrx]
    exact h.clearTrx
  | some (n+1) =>
    have he : Conn.rollback (some (n+1))=Conn.rollbackTo (n+1) := rfl
    rw [he]
    unfold Conn.rollbackTo
    rw [bind_apply,get_apply,Outcome.andThen_done,h.pending]
    have hb : ∀ ofSession pointId,beforeSavepoint ofSession pointId ([] : List (Option Sql)).reverse=none :=
      fun _ _ => rfl
    rw [hb]
    dsimp only
    rw [branch_apply,inTrans_of_clear h.hasTrx,if_neg Bool.false_ne_true]
    exact h

end Cleared

section Calls

variable {s t : Hooked} {self : ℕ}

/-- An operation that leaves the connection cleared. -/
theorem onWorld_cleared (x : Op Unit) (hx : Cleared (x s.world).state)
    (h : settledState (onWorld x s)=some t) : Cleared t.world := by
  unfold onWorld at h
  rw [onPart_apply] at h
  cases hw : x s.world with
  | done a w => rw [hw] at h hx; cases h; exact hx
  | thrown e w => rw [hw] at h hx; cases h; exact hx
  | waiting w => rw [hw] at h; cases h

/-- A commit where nothing is open or pending. -/
theorem commit_cleared (hs : Cleared s.world) (andChain : Bool)
    (h : settledState (commit self andChain s)=some t) : Cleared t.world := by
  unfold commit at h
  rw [bind_apply,get_apply,Outcome.andThen_done,branch_apply,hs.hasTrx,if_neg Bool.false_ne_true] at h
  exact onWorld_cleared clearTrx hs.clearTrx h

/-- A commit that resolves. -/
theorem commit_clears (hb : Refuses s.world.server) (h : commit self false s=.done () t) :
    Cleared t.world := by
  cases ht : s.world.hasTrx with
  | false =>
    unfold commit at h
    rw [bind_apply,get_apply,Outcome.andThen_done,branch_apply,ht,if_neg Bool.false_ne_true] at h
    cases h
    exact cleared_of_inTrans (inTrans_of_clear ht)
  | true =>
    have hcase : ∃ (sql back : Sql) (u : Hooked),u.world=s.world ∧ EndsTrx sql ∧ sql.isUser=false ∧
        onWorld (do
          let error ← commitOrRollback sql back
          clearTrx
          throwSome error) u=.done () t := by
      unfold commit at h
      rw [bind_apply,get_apply,Outcome.andThen_done,branch_apply,if_pos ht] at h
      rw [branch_apply] at h
      split at h
      · rw [branch_apply] at h
        split at h
        · cases h
        · refine ⟨.xaCommit s.world.conn.curXaId,.xaRollback s.world.conn.curXaId,s,rfl,trivial,rfl,?_⟩
          simpa only [commitXa,Bool.false_eq_true,if_false,Option.or_none] using h
      · obtain ⟨_,u,hu,h⟩ := bind_eq_done.mp h
        refine ⟨.commit false,.rollback false,u,?_,trivial,rfl,h⟩
        unfold callHandler at hu
        split at hu
        · cases hu; rfl
        · dsimp only at hu
          split at hu <;> cases hu
          rfl
    obtain ⟨sql,back,u,hu,hends,huser,h⟩ := hcase
    unfold onWorld at h
    rw [onPart_apply] at h
    obtain ⟨w,hw,rfl⟩ := Outcome.mapState_eq_done.mp h
    obtain ⟨error,w₁,hc,hw⟩ := bind_eq_done.mp hw
    obtain ⟨_,w₂,hclear,hw⟩ := bind_eq_done.mp hw
    cases hclear
    cases error with
    | some e => cases hw
    | none =>
      cases hw
      unfold commitOrRollback at hc
      rw [attempt_apply] at hc
      rcases Outcome.orElse_eq_done.mp hc with hc | ⟨e,v,_,hc⟩
      · obtain ⟨_,w₃,hc,hpure⟩ := bind_eq_done.mp hc
        cases hpure
        rw [hu] at hc
        exact cleared_of_inTrans
          (succeeded_ends (command_ok respects_server trivial huser hc) (fun _ => id) hb hends).1
      · rw [attempt_apply] at hc
        rcases Outcome.orElse_eq_done.mp hc with hc | ⟨e',v',_,hc⟩
        · obtain ⟨_,w₃,_,hpure⟩ := bind_eq_done.mp hc
          cases hpure
        · obtain ⟨_,w₃,_,hf⟩ := bind_eq_done.mp hc
          cases hf

/-- What is cleared stays so, while no other transaction is started. -/
theorem callOn_cleared {c : Call} {sqlStarts : Bool} (hs : Cleared s.world)
    (hq : Quiet s.world c sqlStarts) (h : settledState (callOn self c s)=some t) : Cleared t.world := by
  obtain ⟨hstarts,hq⟩ := hq
  have hquery : ∀ x : Op Unit,(∀ w',settled (x s.world)=some w' → Cleared w') →
      settledState (onWorld x s)=some t → Cleared t.world := by
    intro x hx h
    unfold onWorld at h
    rw [onPart_apply] at h
    cases hw : x s.world with
    | done a w => rw [hw] at h hx; cases h; exact hx w rfl
    | thrown e w => rw [hw] at h hx; cases h; exact hx w rfl
    | waiting w => rw [hw] at h; cases h
  cases c with
  | connect => exact onWorld_cleared _ (connect_cleared hs) h
  | use schema => exact onWorld_cleared _ (use_cleared hs schema) h
  | query q => exact hquery _ (hq hs) h
  | discard => exact hquery _ (hq hs) h
  | startTrx options => cases hstarts
  | savepoint => exact absurd hs hq
  | sessionSavepoint pointId => exact absurd hs hq
  | prepareCommit =>
    have hn : ¬(s.world.inTrans=true ∧ s.world.conn.curXaId≠"" ∧ s.world.conn.isXaPrepared=false) :=
      fun hn => Bool.false_ne_true ((inTrans_of_clear hs.hasTrx).symm.trans hn.1)
    unfold callOn prepareCommit at h
    dsimp only at h
    rw [bind_apply,get_apply,Outcome.andThen_done,branch_apply,if_neg hn] at h
    cases h
    exact hs
  | rollback toPointId => exact onWorld_cleared _ (rollback_cleared hs toPointId) h
  | commit andChain => exact commit_cleared hs andChain h
  | endConn => exact onWorld_cleared endConn (doEnd_cleared s.world none).1 h
  | dispose => exact onWorld_cleared dispose (doEnd_cleared _ none).1 h
  | forceImmediateDisconnect force => exact onWorld_cleared (Conn.forceImmediateDisconnect force) (doEnd_cleared s.world (some force)).1 h

end Calls

/-- What holds until the disposal. -/
structure Kept (s : Scope) : Prop where
  /-- After the commit nothing is open or pending. -/
  cleared : s.committed=true → Cleared s.conn.world
  /-- No other transaction was started. -/
  own : s.own=true

/-- What one event keeps. -/
theorem Kept.step {s s' : Scope} {e : Event} (h : Kept s) (hc : Careful s e)
    (hs : s.step e=some s') : Kept s' := by
  cases e with
  | call c sqlStarts =>
    obtain ⟨conn,hconn,rfl⟩ := Option.map_eq_some_iff.mp hs
    refine ⟨fun hcom => callOn_cleared (h.cleared hcom) hc hconn,?_⟩
    have hn : startsOther c sqlStarts=false := hc.1
    simp [h.own,hn]
  | commitTrx =>
    simp only [Scope.step] at hs
    cases hx : commit 0 false s.conn with
    | done a conn =>
      rw [hx] at hs
      cases hs
      exact ⟨fun _ => commit_clears hc hx,h.own⟩
    | thrown e conn =>
      rw [hx] at hs
      cases hs
      exact ⟨fun hcom => commit_cleared (h.cleared hcom) false (by rw [hx]; rfl),h.own⟩
    | waiting conn =>
      rw [hx] at hs
      cases hs

/-- `getTrx()`. -/
def getTrx (options : TrxOptions) (s : Hooked) : Option Scope :=
  match startTrx 0 options s with
  | .done _ conn => some {conn := conn}
  | _ => none

/-- The disposal of an object of a connection, after a run. -/
theorem conn_disposes {s : Hooked} {options : TrxOptions} {scope : Scope}
    (hget : getTrx options s=some scope) {events : List Event} {t : Scope}
    (hrun : run Scope.step scope events=some t) (hc : Meets Scope.step Careful scope events)
    (hb : Refuses t.conn.world.server) : Disposes t.conn.world t.committed t.own := by
  have hnew : Kept scope := by
    unfold getTrx at hget
    split at hget <;> cases hget
    exact ⟨fun hn => absurd hn Bool.false_ne_true,rfl⟩
  have h : Kept t := run_meets (fun s e s' hs hce hse => Kept.step hs hce hse) hnew hc hrun
  exact ⟨fun hcom => (untouched_iff _).mpr (h.cleared hcom).toClear,fun _ => ⟨h.own,rollsBack hb⟩⟩

/-! ## A session -/

/-- Nothing is open or pending in a session. -/
structure SessionClear (s : Session) : Prop where
  /-- On its connections. -/
  conns : ∀ w ∈ s.conns,Clear w
  /-- The options of its transaction. -/
  trxOptions : s.trxOptions=none
  /-- Its savepoints. -/
  savepointEnum : s.savepointEnum=0

/-- Nothing is open or pending in a session, and nothing is taken for prepared. -/
structure SessionCleared (s : Session) : Prop where
  /-- On its connections. -/
  conns : ∀ w ∈ s.conns,Cleared w
  /-- The options of its transaction. -/
  trxOptions : s.trxOptions=none
  /-- Its savepoints. -/
  savepointEnum : s.savepointEnum=0

/-- Disposing of a transaction of the session does nothing. -/
def SessionUntouched (s : Session) : Prop :=
  ∃ s',rollback none s=.done () s' ∧ List.Forall₂ Same s.conns s'.conns ∧
    s'.trxOptions=s.trxOptions ∧ s'.savepointEnum=s.savepointEnum

/-- Disposing of a transaction of the session rolls back what is open or pending on its
connections, and forgets its options and savepoints. -/
structure SessionRollsBack (s : Session) : Prop where
  /-- Each of the connections. -/
  conns : (rollback none s).state.conns=s.conns.map fun w => (Conn.rollback none w).state
  /-- What this does. -/
  rollsBack : ∀ w ∈ s.conns,RollsBack w
  /-- The options. -/
  trxOptions : (rollback none s).state.trxOptions=none
  /-- The savepoints. -/
  savepointEnum : (rollback none s).state.savepointEnum=0

/-- Something is called on a connection of the session. -/
def onConn (i : ℕ) (c : Call) : SessionOp Unit := fun s =>
  match s.conns[i]? with
  | none => .done () s
  | some w => (callOn i c ⟨w,s.onBeforeCommit,s.calls⟩).mapState fun h =>
    {s with conns := s.conns.set i h.world,calls := h.calls}

/-- What can happen in a session. -/
inductive SessionEvent where
  /-- `conn()`: a new connection. -/
  | conn (w : World)
  /-- `startTrx()`. -/
  | startTrx (options : SessionTrxOptions)
  /-- `savepoint()`. -/
  | savepoint
  /-- `rollback()`. -/
  | rollback (toPointId : Option ℕ)
  /-- `commit()` of the session. -/
  | commit (andChain : Bool)
  /-- `commit()` of the object. -/
  | commitTrx
  /-- Something is called on a connection. -/
  | onConn (i : ℕ) (c : Call) (sqlStarts : Bool)

/-- What is called. -/
def SessionEvent.op : SessionEvent → SessionOp Unit
  | .conn w => TrxSession.conn w
  | .startTrx options => startTrxAll options
  | .savepoint => TrxSession.savepoint
  | .rollback toPointId => TrxSession.rollback toPointId
  | .commit andChain => commitSession andChain
  | .commitTrx => commitSession false
  | .onConn i c _ => TrxSession.onConn i c

/-- The event starts another transaction. -/
def SessionEvent.startsOther : SessionEvent → Bool
  | .startTrx _ => true
  | .commit andChain => andChain
  | .onConn _ c sqlStarts => TrxSession.startsOther c sqlStarts
  | _ => false

/-- It is the commit of the object. -/
def SessionEvent.isCommitTrx : SessionEvent → Bool
  | .commitTrx => true
  | _ => false

/-- A `Trx` object of a session. -/
structure SessionScope where
  /-- The session. -/
  session : Session
  /-- `commit()` of the object resolved. -/
  committed : Bool := false
  /-- What is open or pending in the session is the transaction of the object. -/
  own : Bool := true

/-- What happens to the object and its session. -/
def SessionScope.step (s : SessionScope) (e : SessionEvent) : Option SessionScope :=
  let own := s.own && !e.startsOther
  match e.op s.session with
  | .done _ session => some ⟨session,s.committed || e.isCommitTrx,own⟩
  | .thrown _ session => some ⟨session,s.committed,own⟩
  | .waiting _ => none

/-- No other transaction is started, nothing is begun where nothing is open or pending,
and the servers refuse what is not possible. -/
def SessionCareful (s : SessionScope) (e : SessionEvent) : Prop :=
  e.startsOther=false ∧
    match e with
    | .savepoint => ¬SessionCleared s.session
    | .rollback (some (_+1)) => ¬SessionCleared s.session
    | .commitTrx => ∀ w ∈ s.session.conns,Refuses w.server
    | .onConn i c sqlStarts => ∀ w,s.session.conns[i]?=some w → Quiet w c sqlStarts
    | _ => True

/-- Disposing of the object after its commit does nothing. Otherwise it rolls back exactly
what is open or pending, and this is the transaction of the object. -/
structure SessionDisposes (s : Session) (committed own : Bool) : Prop where
  /-- The transaction was committed. -/
  afterCommit : committed=true → SessionUntouched s
  /-- It was not. -/
  rollsBack : committed=false → own=true ∧ SessionRollsBack s

section Session

variable {s t : Session}

/-- What an operation does on all connections, when it is fulfilled on each. -/
theorem settleAll_done {op : ℕ → HookedOp Unit} {handler : Option Handler} {R : World → World → Prop}
    (hr : ∀ i h h',op i h=.done () h' → R h.world h'.world) (i : ℕ) (conns : List World)
    (calls : List HandlerCall) (hw : (settleAll op handler i conns calls).isWaiting=false)
    (he : (settleAll op handler i conns calls).error=none) :
    List.Forall₂ R conns (settleAll op handler i conns calls).conns := by
  induction conns generalizing i calls with
  | nil => exact .nil
  | cons w conns ih =>
    simp only [settleAll] at hw he ⊢
    obtain ⟨hw₁,hw₂⟩ := Bool.or_eq_false_iff.mp hw
    obtain ⟨he₁,he₂⟩ := Option.or_eq_none_iff.mp he
    cases hx : op i ⟨w,handler,calls⟩ with
    | done a h =>
      rw [hx] at hw₂ he₂
      exact .cons (hr i _ h hx) (ih (i+1) _ hw₂ he₂)
    | thrown e h =>
      rw [hx] at he₁
      cases he₁
    | waiting h =>
      rw [hx] at hw₁
      cases hw₁

/-- An operation on all connections that resolves. -/
theorem doAll_done {op : ℕ → HookedOp Unit} {R : World → World → Prop}
    (hr : ∀ i h h',op i h=.done () h' → R h.world h'.world) (h : doAll op s=.done () t) :
    t=s.after (s.settle op) ∧ List.Forall₂ R s.conns t.conns := by
  unfold doAll at h
  dsimp only at h
  split at h
  · cases h
  · rename_i hw
    split at h
    · cases h
    · rename_i he
      cases h
      exact ⟨rfl,settleAll_done hr 0 s.conns s.calls (Bool.eq_false_iff.mpr hw) he⟩

/-- The connections after a rollback. -/
theorem settleAll_rollback (i : ℕ) (conns : List World) (handler : Option Handler)
    (calls : List HandlerCall) :
    (settleAll (fun _ => onWorld (Conn.rollback none)) handler i conns calls).conns=
      conns.map fun w => (Conn.rollback none w).state := by
  induction conns generalizing i calls with
  | nil => rfl
  | cons w conns ih =>
    simp only [settleAll,List.map_cons]
    refine List.cons_eq_cons.mpr ⟨?_,ih (i+1) _⟩
    unfold onWorld
    rw [onPart_apply]
    cases Conn.rollback none w <;> rfl

/-- A rollback without a number. -/
theorem rollback_session (s : Session) : rollback none s=
    doAll (fun _ => onWorld (Conn.rollback none)) s.begun := rfl

/-- The operation of a connection that an operation of the session is. -/
theorem onWorld_done {x : Op Unit} {h h' : Hooked} (hx : onWorld x h=.done () h') :
    x h.world=.done () h'.world := by
  unfold onWorld at hx
  rw [onPart_apply] at hx
  obtain ⟨w,hw,rfl⟩ := Outcome.mapState_eq_done.mp hx
  exact hw

/-- Disposing of a transaction of a session does nothing exactly when nothing is open or
pending in it. -/
theorem session_untouched_iff (s : Session) : SessionUntouched s↔SessionClear s := by
  constructor
  · rintro ⟨s',hs,hsame,hoptions,hpoints⟩
    rw [rollback_session] at hs
    obtain ⟨he,hdone⟩ := doAll_done (R := fun w w' => Conn.rollback none w=.done () w')
      (fun i h h' hx => onWorld_done hx) hs
    have hclear : List.Forall₂ (fun w w' => Clear w ∧ Same w w') s.conns s'.conns :=
      List.Forall₂.mp (fun w w' hroll h => ⟨(untouched_iff w).mp ⟨w',hroll,h⟩,h⟩) hdone hsame
    refine ⟨((List.forall₂_and_left _ _).mp hclear).1,?_,?_⟩
    · rw [← hoptions,he]
      rfl
    · rw [← hpoints,he]
      rfl
  · intro h
    have hdone : doAll (fun _ => onWorld (Conn.rollback none)) s.begun=
        .done () (s.begun.after (s.begun.settle fun _ => onWorld (Conn.rollback none))) := by
      refine doAll_fulfilled (fun w hw i calls => ?_)
      unfold onWorld
      rw [onPart_apply,rollback_idle (h.conns w hw).hasTrx]
      exact ⟨_,rfl⟩
    refine ⟨_,(rollback_session s).trans hdone,?_,h.trxOptions.symm,h.savepointEnum.symm⟩
    show List.Forall₂ Same s.conns (settleAll _ _ 0 s.conns s.calls).conns
    rw [settleAll_rollback]
    refine List.forall₂_map_right_iff.mpr (List.forall₂_same.mpr (fun w hw => ?_))
    have hw := h.conns w hw
    rw [rollback_idle hw.hasTrx]
    exact ⟨rfl,hw.pending.symm,hw.curXaId.symm⟩

/-- Disposing of a transaction of a session rolls back what is open or pending. -/
theorem session_rollsBack (hb : ∀ w ∈ s.conns,Refuses w.server) : SessionRollsBack s := by
  refine ⟨?_,fun w hw => rollsBack (hb w hw),?_,?_⟩
  · rw [rollback_session,doAll_state]
    exact settleAll_rollback 0 s.conns s.onBeforeCommit s.calls
  · rw [rollback_session,doAll_state]
    rfl
  · rw [rollback_session,doAll_state]
    rfl

/-! ## What is cleared stays so -/

/-- The state is cleared after, when it is before. -/
def KeepsCleared (s t : Session) : Prop := SessionCleared s → SessionCleared t

theorem KeepsCleared.refl (s : Session) : KeepsCleared s s := id

theorem KeepsCleared.trans (s t u : Session) (h : KeepsCleared s t) (h' : KeepsCleared t u) :
    KeepsCleared s u := fun hs => h' (h hs)

/-- The session starts to commit or to roll back. -/
theorem begun_keeps (s : Session) : KeepsCleared s s.begun := fun h => ⟨h.conns,rfl,rfl⟩

/-- What an operation keeps on each connection. -/
theorem settleAll_forall {op : ℕ → HookedOp Unit} {handler : Option Handler} {I : World → Prop}
    (hop : ∀ i h,I h.world → I (op i h).state.world) (i : ℕ) {conns : List World}
    (calls : List HandlerCall) (hw : ∀ w ∈ conns,I w) :
    ∀ w ∈ (settleAll op handler i conns calls).conns,I w := by
  induction conns generalizing i calls with
  | nil => exact hw
  | cons v conns ih =>
    intro w hm
    rcases List.mem_cons.mp hm with rfl | hm
    · exact hop i _ (hw v List.mem_cons_self)
    · exact ih (i+1) _ (fun u hu => hw u (List.mem_cons_of_mem _ hu)) w hm

/-- An operation on all connections. -/
theorem doAll_keeps {op : ℕ → HookedOp Unit}
    (hop : ∀ i h,Cleared h.world → Cleared (op i h).state.world) : Always KeepsCleared (doAll op) := by
  intro s hs
  rw [doAll_state]
  exact ⟨settleAll_forall hop 0 s.calls hs.conns,hs.trxOptions,hs.savepointEnum⟩

/-- A rollback of a connection. -/
theorem onWorld_rollback (toPointId : Option ℕ) (i : ℕ) (h : Hooked) (hw : Cleared h.world) :
    Cleared ((fun _ => onWorld (Conn.rollback toPointId) : ℕ → HookedOp Unit) i h).state.world := by
  have hr := rollback_cleared hw toPointId
  dsimp only
  unfold onWorld
  rw [onPart_apply]
  cases hx : Conn.rollback toPointId h.world with
  | done a w => rw [hx] at hr; exact hr
  | thrown e w => rw [hx] at hr; exact hr
  | waiting w => rw [hx] at hr; exact hr

/-- A rollback without a number. -/
theorem rollbackAll_keeps : Always KeepsCleared rollbackAll :=
  Always.bind KeepsCleared.trans (fun s => begun_keeps s) (fun _ => doAll_keeps (onWorld_rollback none))

/-- The handler does nothing with the session. -/
theorem callSessionHandler_keeps : Always KeepsCleared callSessionHandler := by
  intro s hs
  unfold callSessionHandler
  split
  · exact hs
  · dsimp only
    split <;> exact ⟨hs.conns,hs.trxOptions,hs.savepointEnum⟩

/-- A rollback after an error. -/
theorem rollbackOnError_keeps {back x : SessionOp Unit} (hb : Always KeepsCleared back)
    (hx : Always KeepsCleared x) : Always KeepsCleared (rollbackOnError back x) := by
  refine Always.attempt KeepsCleared.trans hx (fun e => ?_)
  refine Always.bind KeepsCleared.trans (Always.attempt KeepsCleared.trans hb
    (fun _ => Always.pure KeepsCleared.refl ())) (fun _ => Always.fail KeepsCleared.refl e)

/-- Nothing is prepared where nothing is open. -/
theorem prepareXa_cleared (i : ℕ) (h : Hooked) (hw : Cleared h.world) :
    Cleared (prepareXa i h).state.world := by
  have hn : ¬IsUnprepared h.world :=
    fun hn => Bool.false_ne_true ((inTrans_of_clear hw.hasTrx).symm.trans hn.1)
  have hi := prepare_idle hn i h.onBeforeCommit h.calls
  rw [show h=⟨h.world,h.onBeforeCommit,h.calls⟩ from rfl,hi]
  exact hw

/-- Nothing is committed where nothing is open. -/
theorem commit_idle_cleared (i : ℕ) (h : Hooked) (hw : Cleared h.world) :
    Cleared (commit i false h).state.world := by
  unfold commit
  rw [bind_apply,get_apply,Outcome.andThen_done,branch_apply,hw.hasTrx,if_neg Bool.false_ne_true]
  exact hw.clearTrx

/-- A commit. -/
theorem commitAll_keeps : Always KeepsCleared commitAll := by
  refine Always.bind KeepsCleared.trans (fun s => begun_keeps s) (fun _ => ?_)
  refine Always.bind KeepsCleared.trans (Always.get KeepsCleared.refl) (fun s => ?_)
  refine Always.doWhen KeepsCleared.refl ?_
  refine Always.bind KeepsCleared.trans
    (rollbackOnError_keeps rollbackAll_keeps callSessionHandler_keeps) (fun _ => ?_)
  exact Always.bind KeepsCleared.trans
    (rollbackOnError_keeps rollbackAll_keeps (doAll_keeps prepareXa_cleared))
    (fun _ => doAll_keeps commit_idle_cleared)

/-- A rollback to the start. -/
theorem rollbackToStart_cleared (hs : SessionCleared s) : SessionCleared (rollbackToStart s).state := by
  have h := doAll_keeps (onWorld_rollback (some 0)) {s with savepointEnum := 0}
    ⟨hs.conns,hs.trxOptions,rfl⟩
  simpa only [rollbackToStart,bind_apply,get_apply,Outcome.andThen_done,hs.trxOptions,
    Option.map_none,Option.getD_none,branch_apply,ne_eq,not_true_eq_false,if_false,modify_apply] using h

/-- What each element on the left gives the one on the right. -/
theorem forall_right {α β : Type} {R : α → β → Prop} {P : α → Prop} {Q : β → Prop} {as : List α}
    {bs : List β} (h : List.Forall₂ R as bs) (hR : ∀ a b,R a b → P a → Q b) (hP : ∀ a ∈ as,P a) :
    ∀ b ∈ bs,Q b := by
  induction h with
  | nil => exact fun b hb => by cases hb
  | cons hab _ ih =>
    intro b hb
    rcases List.mem_cons.mp hb with rfl | hb
    · exact hR _ _ hab (hP _ List.mem_cons_self)
    · exact ih (fun a ha => hP a (List.mem_cons_of_mem _ ha)) b hb

/-- The server of a connection is the same. -/
def SameServer (h h' : Hooked) : Prop := h'.world.server=h.world.server

theorem SameServer.refl (h : Hooked) : SameServer h h := rfl

theorem SameServer.trans (h h' h'' : Hooked) (hs : SameServer h h') (hs' : SameServer h' h'') :
    SameServer h h'' := Eq.trans hs' hs

/-- The handler leaves the server as it is. -/
theorem callHandler_server (i : ℕ) : Always SameServer (callHandler i) := by
  intro h
  unfold callHandler
  split
  · rfl
  · dsimp only
    split <;> rfl

/-- An operation of the connection. -/
theorem onWorld_server {x : Op Unit} (hx : Always (fun w w' => w'.server=w.server) x) :
    Always SameServer (onWorld x) := by
  intro h
  have hw := hx h.world
  unfold onWorld
  rw [onPart_apply]
  cases hr : x h.world with
  | done a w => rw [hr] at hw; exact hw
  | thrown e w => rw [hr] at hw; exact hw
  | waiting w => rw [hr] at hw; exact hw

/-- Preparing a transaction leaves the server as it is. -/
theorem prepareXa_server (i : ℕ) : Always SameServer (prepareXa i) := by
  refine Always.bind SameServer.trans (Always.get SameServer.refl) (fun h => Always.doWhen SameServer.refl ?_)
  refine Always.bind SameServer.trans (Always.get SameServer.refl) (fun h => Always.ite ?_
    (Always.pure SameServer.refl ()))
  refine Always.bind SameServer.trans (callHandler_server i) (fun _ => onWorld_server ?_)
  exact respects_server.bind (respects_server.twoCommands trivial trivial false) (fun _ _ => rfl)

/-- Committing a transaction leaves the server as it is. -/
theorem commit_server (i : ℕ) (andChain : Bool) : Always SameServer (commit i andChain) := by
  have hthrow : ∀ error,Always (fun w w' : World => w'.server=w.server) (throwSome error) := by
    intro error
    cases error with
    | none => exact respects_server.pure ()
    | some e => exact respects_server.fail e
  have hend : Always (fun w w' : World => w'.server=w.server) endConn := by
    intro w
    show (w.doEnd false none).server=w.server
    unfold World.doEnd
    split <;> rfl
  have hsend : ∀ sql back,Always (fun w w' : World => w'.server=w.server) (commitOrRollback sql back) := by
    intro sql back
    refine respects_server.attempt (respects_server.bind (respects_server.command trivial)
      (fun _ => respects_server.pure _)) (fun e => respects_server.attempt ?_ (fun _ => ?_))
    · exact respects_server.bind (respects_server.command trivial) (fun _ => respects_server.pure _)
    · exact respects_server.bind hend (fun _ => respects_server.fail _)
  have hclear : Always (fun w w' : World => w'.server=w.server) clearTrx := fun _ => rfl
  refine Always.bind SameServer.trans (Always.get SameServer.refl) (fun h => Always.ite (Always.ite
    (Always.ite (Always.fail SameServer.refl _) (onWorld_server ?_)) ?_) (onWorld_server hclear))
  · exact respects_server.bind (hsend _ _) (fun _ => respects_server.bind hclear (fun _ => hthrow _))
  · refine Always.bind SameServer.trans (callHandler_server i) (fun _ => onWorld_server ?_)
    exact respects_server.bind (hsend _ _) (fun _ => respects_server.bind hclear (fun _ => hthrow _))

/-- Without an error there was nothing to roll back. -/
theorem rollbackOnError_inv {back x : SessionOp Unit} (h : rollbackOnError back x s=.done () t) :
    x s=.done () t := by
  cases hx : x s with
  | done a u =>
    rw [rollbackOnError_done back hx] at h
    exact h
  | thrown e u => exact absurd h ((rollbackOnError_thrown back hx).2 t)
  | waiting u =>
    unfold rollbackOnError at h
    rw [attempt_apply,hx] at h
    cases h

/-- A commit that resolves leaves nothing open or pending. -/
theorem commitSession_clears (hb : ∀ w ∈ s.conns,Refuses w.server)
    (h : commitSession false s=.done () t) : SessionCleared t := by
  rw [commitSession_false] at h
  obtain ⟨_,_,hm,h⟩ := bind_eq_done.mp h
  cases hm
  obtain ⟨_,_,hg,h⟩ := bind_eq_done.mp h
  cases hg
  unfold doWhen at h
  rw [branch_apply] at h
  split at h
  · obtain ⟨_,s₁,h₁,h⟩ := bind_eq_done.mp h
    obtain ⟨_,s₂,h₂,h₃⟩ := bind_eq_done.mp h
    have hfirst : s₁.conns=s.conns ∧ s₁.trxOptions=none ∧ s₁.savepointEnum=0 := by
      have hc := rollbackOnError_inv h₁
      unfold callSessionHandler at hc
      split at hc
      · cases hc
        exact ⟨rfl,rfl,rfl⟩
      · dsimp only at hc
        split at hc <;> cases hc
        exact ⟨rfl,rfl,rfl⟩
    obtain ⟨he₂,hserver⟩ := doAll_done (R := fun w w' => w'.server=w.server)
      (fun i h h' hx => by
        have hs := prepareXa_server i h
        rw [hx] at hs
        exact hs) (rollbackOnError_inv h₂)
    have hb₂ : ∀ w ∈ s₂.conns,Refuses w.server := by
      refine forall_right hserver (fun w w' hs hw => ?_) (fun w hw => hb w (hfirst.1 ▸ hw))
      rw [hs]
      exact hw
    obtain ⟨he₃,hcleared⟩ := doAll_done (R := fun w w' => Refuses w.server → Cleared w')
      (fun i h h' hx hw => commit_clears hw hx) h₃
    refine ⟨forall_right hcleared (fun w w' hs => hs) hb₂,?_,?_⟩
    · rw [he₃,he₂]
      exact hfirst.2.1
    · rw [he₃,he₂]
      exact hfirst.2.2
  · rename_i hn
    cases h
    have hnil : s.conns=[] := not_not.mp hn
    exact ⟨(fun w hw => by rw [hnil] at hw; cases hw),rfl,rfl⟩

/-- A new connection of a session where nothing is open or pending. -/
theorem conn_cleared (hs : SessionCleared s) (w : World) : SessionCleared (conn w s).state := by
  refine ⟨fun v hv => ?_,hs.trxOptions,hs.savepointEnum⟩
  rcases List.mem_append.mp hv with hv | hv
  · exact hs.conns v hv
  · have hj : s.joining w={w with conn := {}} := by
      unfold Session.joining addPoints
      rw [hs.trxOptions,hs.savepointEnum]
      rfl
    rw [List.mem_singleton.mp hv,hj]
    exact ⟨⟨rfl,rfl,rfl⟩,rfl⟩

/-- Something is called on a connection of a session where nothing is open or pending. -/
theorem onConn_cleared (hs : SessionCleared s) {i : ℕ} {c : Call} {sqlStarts : Bool}
    (hq : ∀ w,s.conns[i]?=some w → Quiet w c sqlStarts) (h : settledState (onConn i c s)=some t) :
    SessionCleared t := by
  unfold onConn at h
  cases hw : s.conns[i]? with
  | none =>
    rw [hw] at h
    cases h
    exact hs
  | some w =>
    rw [hw] at h
    dsimp only at h
    have hset : ∀ h' : Hooked,settledState (callOn i c ⟨w,s.onBeforeCommit,s.calls⟩)=some h' →
        SessionCleared {s with conns := s.conns.set i h'.world,calls := h'.calls} := by
      intro h' hh
      have hcl := @callOn_cleared ⟨w,s.onBeforeCommit,s.calls⟩ h' i c sqlStarts
        (hs.conns w (List.mem_of_getElem? hw)) (hq w hw) hh
      refine ⟨fun v hv => ?_,hs.trxOptions,hs.savepointEnum⟩
      rcases List.mem_or_eq_of_mem_set hv with hv | rfl
      · exact hs.conns v hv
      · exact hcl
    cases hx : callOn i c ⟨w,s.onBeforeCommit,s.calls⟩ with
    | done a h' => rw [hx] at h hset; cases h; exact hset h' rfl
    | thrown e h' => rw [hx] at h hset; cases h; exact hset h' rfl
    | waiting h' => rw [hx] at h; cases h

end Session

/-- What holds until the disposal. -/
structure SessionKept (s : SessionScope) : Prop where
  /-- After the commit nothing is open or pending. -/
  cleared : s.committed=true → SessionCleared s.session
  /-- No other transaction was started. -/
  own : s.own=true

/-- What is cleared in a session stays so, while no other transaction is started. -/
theorem op_cleared {s : SessionScope} {e : SessionEvent} (hs : SessionCleared s.session)
    (hc : SessionCareful s e) {t : Session} (h : settledState (e.op s.session)=some t) :
    SessionCleared t := by
  have hcommit : ∀ {u},settledState (commitSession false s.session)=some u → SessionCleared u := by
    intro u hu
    rw [commitSession_false] at hu
    rw [← state_of_settledState hu]
    exact commitAll_keeps _ hs
  obtain ⟨hstarts,hc⟩ := hc
  cases e with
  | conn w =>
    cases h
    exact conn_cleared hs w
  | startTrx options => cases hstarts
  | savepoint => exact absurd hs hc
  | rollback toPointId =>
    rw [← state_of_settledState h]
    match toPointId with
    | none => exact rollbackAll_keeps _ hs
    | some 0 => exact rollbackToStart_cleared hs
    | some (n+1) => exact absurd hs hc
  | commit andChain =>
    have hn : andChain=false := hstarts
    subst hn
    exact hcommit h
  | commitTrx => exact hcommit h
  | onConn i c sqlStarts => exact onConn_cleared hs hc h

/-- What one event keeps. -/
theorem SessionKept.step {s s' : SessionScope} {e : SessionEvent} (h : SessionKept s)
    (hc : SessionCareful s e) (hs : s.step e=some s') : SessionKept s' := by
  have hown : (s.own && !e.startsOther)=true := by
    have hn := hc.1
    simp [h.own,hn]
  unfold SessionScope.step at hs
  cases hx : e.op s.session with
  | waiting t =>
    rw [hx] at hs
    cases hs
  | thrown er t =>
    rw [hx] at hs
    cases hs
    exact ⟨fun hcom => op_cleared (h.cleared hcom) hc (by rw [hx]; rfl),hown⟩
  | done a t =>
    rw [hx] at hs
    cases hs
    refine ⟨fun hcom => ?_,hown⟩
    rcases Bool.or_eq_true_iff.mp hcom with hcom | hcom
    · exact op_cleared (h.cleared hcom) hc (by rw [hx]; rfl)
    · cases e with
      | commitTrx => exact commitSession_clears hc.2 hx
      | _ => cases hcom

/-- `getTrx()` of a session. -/
def getSessionTrx (options : SessionTrxOptions) (s : Session) : Option SessionScope :=
  match startTrxAll options s with
  | .done _ session => some {session := session}
  | _ => none

/-- The disposal of an object of a session, after a run. -/
theorem session_disposes {s : Session} {options : SessionTrxOptions} {scope : SessionScope}
    (hget : getSessionTrx options s=some scope) {events : List SessionEvent} {t : SessionScope}
    (hrun : run SessionScope.step scope events=some t)
    (hc : Meets SessionScope.step SessionCareful scope events)
    (hb : ∀ w ∈ t.session.conns,Refuses w.server) :
    SessionDisposes t.session t.committed t.own := by
  have hnew : SessionKept scope := by
    unfold getSessionTrx at hget
    split at hget <;> cases hget
    exact ⟨fun hn => absurd hn Bool.false_ne_true,rfl⟩
  have h : SessionKept t := run_meets (fun s e s' hs hce hse => SessionKept.step hs hce hse) hnew hc hrun
  refine ⟨fun hcom => (session_untouched_iff _).mpr ?_,fun _ => ⟨h.own,session_rollsBack hb⟩⟩
  have hcl := h.cleared hcom
  exact ⟨fun w hw => (hcl.conns w hw).toClear,hcl.trxOptions,hcl.savepointEnum⟩

/-- A server that does what is possible, and refuses the rest. -/
def obedient : Server :=
  {judge := fun s sql => some (match s.exec sql with
    | none => some ⟨[],1399,[],.NONE⟩
    | some _ => none)}

/-- It refuses what is not possible. -/
theorem obedient_refuses : Refuses obedient := by
  intro s sql h
  refine ⟨⟨[],1399,[],.NONE⟩,?_⟩
  simp only [obedient,h]

/-- A connection object of such a server, before it is connected. -/
def fresh : World := {server := obedient,supply := [.opened {connectionId := 7} id]}

/-- A query. -/
def insert : {q : Query // q.OfUser} := ⟨{sql := .text (.user "INSERT")},by decide⟩

/-- The object of a connection. -/
def freshScope : Scope := (getTrx {} {world := fresh}).get (by decide +kernel)

/-- The object of a session. -/
def freshSession : SessionScope := (getSessionTrx {} {conns := [fresh]}).get (by decide +kernel)

/-- The object after a query and a commit. -/
def usedScope : Scope :=
  (run Scope.step freshScope [.call (.query insert) false,.commitTrx]).get (by decide +kernel)

/-- The object after a commit. -/
def usedSession : SessionScope :=
  (run SessionScope.step freshSession [.commitTrx]).get (by decide +kernel)

/-- The run of the object of the connection. -/
theorem used_run : getTrx {} {world := fresh}=some freshScope ∧
    run Scope.step freshScope [.call (.query insert) false,.commitTrx]=some usedScope :=
  ⟨(Option.some_get _).symm,(Option.some_get _).symm⟩

/-- The run of the object of the session. -/
theorem used_session_run : getSessionTrx {} {conns := [fresh]}=some freshSession ∧
    run SessionScope.step freshSession [.commitTrx]=some usedSession :=
  ⟨(Option.some_get _).symm,(Option.some_get _).symm⟩

/-- The server of the connection is the same after the query. -/
theorem queried_server {s : Scope} (hs : freshScope.step (.call (.query insert) false)=some s) :
    s.conn.world.server=obedient := by
  have he : (freshScope.step (.call (.query insert) false)).map (fun s => s.conn.world.server)=
      some obedient := rfl
  rw [hs] at he
  exact Option.some_inj.mp he

/-- It is the same after the commit. -/
theorem used_server : usedScope.conn.world.server=obedient := by
  obtain ⟨s,hs,hrun⟩ := run_cons_inv used_run.2
  obtain ⟨s',hs',hrun⟩ := run_cons_inv hrun
  have hlast : s'=usedScope := Option.some_inj.mp hrun
  rw [← hlast]
  have hserver := commit_server 0 false s.conn
  simp only [Scope.step] at hs'
  cases hx : commit 0 false s.conn with
  | done a h => rw [hx] at hs' hserver; cases hs'; exact Eq.trans hserver (queried_server hs)
  | thrown e h => rw [hx] at hs' hserver; cases hs'; exact Eq.trans hserver (queried_server hs)
  | waiting h => rw [hx] at hs'; cases hs'

/-- The servers of the session are the same. -/
theorem used_servers : usedSession.session.conns.map World.server=[obedient] := by
  have he : (run SessionScope.step freshSession [.commitTrx]).map
      (fun s => s.session.conns.map World.server)=some [obedient] := rfl
  rw [used_session_run.2] at he
  exact Option.some_inj.mp he

/-- Where all servers are the same. -/
theorem refuses_of_servers {conns : List World} (h : conns.map World.server=[obedient]) :
    ∀ w ∈ conns,Refuses w.server := by
  intro w hw
  have hm : w.server ∈ conns.map World.server := List.mem_map_of_mem hw
  rw [h] at hm
  rw [List.mem_singleton.mp hm]
  exact obedient_refuses

/-- The object after its commit, when another transaction was started. -/
def overtaken : Scope :=
  (run Scope.step freshScope [.commitTrx,.call (.startTrx {}) false]).get (by decide +kernel)

/-- Its run, and its server. -/
theorem overtaken_run : run Scope.step freshScope [.commitTrx,.call (.startTrx {}) false]=some overtaken ∧
    overtaken.conn.world.server=obedient := by
  have hrun : run Scope.step freshScope [.commitTrx,.call (.startTrx {}) false]=some overtaken :=
    (Option.some_get _).symm
  have he : (run Scope.step freshScope [.commitTrx,.call (.startTrx {}) false]).map
      (fun s => s.conn.world.server)=some obedient := rfl
  rw [hrun] at he
  exact ⟨hrun,Option.some_inj.mp he⟩

end SpiritMysql.TrxSession
