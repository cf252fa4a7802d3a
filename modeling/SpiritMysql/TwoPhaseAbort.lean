import SpiritMysql.TwoPhase

/-!
# A commit that is not decided

When the transaction of one connection cannot be prepared, nobody is told to commit,
and every open transaction of the session is rolled back by its server, or its
connection is given up. A transaction is never left open on a connection that stays.
-/

namespace SpiritMysql.TrxSession

open AsyncAction Errors Conn Protocol TrxStore

/-! ## A transaction that is not prepared -/

/-- The distributed transaction of the connection is on the server, in a phase, and no
schema is to be selected. -/
def IsOpen (xaId : String) (phase : Phase) (w : World) : Prop :=
  ∃ p,w.conn.protocol=some p ∧ p.inTrans=true ∧ p.pendingChangeSchema="" ∧
    p.session.kind=some (.xa xaId phase)

variable {w w' : World} {xaId : String} {phase : Phase}

/-- A connection that only differs in its state. -/
theorem IsOpen.of_protocol (h : IsOpen xaId phase w) (hw : w'.conn.protocol=w.conn.protocol) :
    IsOpen xaId phase w' := by
  obtain ⟨p,hp,hrest⟩ := h
  exact ⟨p,hw.trans hp,hrest⟩

/-- What is written leaves the connection alone. -/
theorem send_protocol (c : Conn.Command) (w : World) :
    (send c w).state.conn.protocol=w.conn.protocol := by
  unfold send
  split <;> rfl

/-- An error leaves the transaction where it is. -/
theorem after_error {p : MyProtocol} {b : Server} {sql : Sql} (hs : sql.isUser=false) {a : Answer}
    (ha : a.error≠none) : (p.after b (.query sql) a).session=p.session ∧
      (p.after b (.query sql) a).inTrans=p.inTrans := by
  have hfail : b.fail sql p.nResults p.session=p.session := by
    cases sql <;> first | rfl | cases hs
  cases a with
  | ok hasRows more => exact absurd rfl ha
  | refused e => exact ⟨by simp [MyProtocol.after,MyProtocol.executed,hfail],rfl⟩
  | lost => exact ⟨rfl,rfl⟩

/-- A refused command leaves the transaction open. -/
theorem receive_open (h : IsOpen xaId phase w) {sql : Sql} (hs : sql.isUser=false) {a : Answer}
    (hr : receive (.query sql) w=.done a w') (ha : a.error≠none) : IsOpen xaId phase w' := by
  obtain ⟨p,hp,hin,hdb,hkind⟩ := h
  rcases receive_cases (.query sql) w with hc | hc | ⟨q,b,answers,hq,_,_,hc⟩
  · rw [hc] at hr
    cases hr
  · rw [hc] at hr
    cases hr
    exact ⟨p,hp,hin,hdb,hkind⟩
  · rw [hc] at hr
    cases hr
    have hpq : q=p := Option.some_inj.mp (hq.symm.trans hp)
    obtain ⟨hses,hin'⟩ := after_error (p := p) (b := w.server) hs ha
    exact ⟨_,rfl,by rw [hpq,hin',hin],by rw [hpq,after_schema,hdb],by rw [hpq,hses,hkind]⟩

/-- What a command that is accepted makes of the transaction. -/
theorem receive_exec (h : IsOpen xaId phase w) {sql : Sql} (hs : sql.isUser=false) {a : Answer}
    (hr : receive (.query sql) w=.done a w') (ha : a.error=none) :
    ∃ p q,w.conn.protocol=some p ∧ w'.conn.protocol=some q ∧ q.pendingChangeSchema="" ∧
      q.session=w.server.exec sql p.nResults p.session ∧
      q.inTrans=q.session.inTrans w.server.detachOnPrepare := by
  obtain ⟨p,hp,hin,hdb,hkind⟩ := h
  obtain ⟨q,hasRows,answers,hq,rfl,_,hq'⟩ := receive_ok hs hr ha
  have hpq : q=p := Option.some_inj.mp (hq.symm.trans hp)
  refine ⟨p,_,hp,hq',by rw [hpq,after_schema,hdb],by rw [hpq]; rfl,by rw [hpq]; rfl⟩

/-- An open transaction has no schema to select. -/
theorem IsOpen.noSchema (h : IsOpen xaId phase w) : w.NoSchema := by
  obtain ⟨p,hp,_,hdb,_⟩ := h
  intro q hq
  rw [hp] at hq
  cases hq
  exact hdb

/-- A transaction that can still be prepared: it is ended already, or it is ended next. -/
def CanPrepare (xaId : String) (prequery : Option Sql) (w : World) : Prop :=
  IsOpen xaId .active w ∨ IsOpen xaId .idle w ∧ prequery=none

/-- A transaction that was not prepared. -/
def IsLeft (xaId : String) (w : World) : Prop := IsOpen xaId .active w ∨ IsOpen xaId .idle w

/-- `XA END`, when it is sent. -/
theorem readPrequery_left {prequery : Option Sql} (hq : prequery=none ∨ prequery=some (.xaEnd xaId))
    (h : CanPrepare xaId prequery w) {error : Option Error}
    (hr : readPrequery false prequery w=.done error w') :
    IsOpen xaId .active w' ∨ IsOpen xaId .idle w' ∧ error=none := by
  rcases hq with rfl | rfl
  · cases hr
    exact h.imp id fun h => ⟨h.1,rfl⟩
  · have hopen : IsOpen xaId .active w := h.resolve_right fun h => Option.some_ne_none _ h.2
    obtain ⟨a,w₁,ha,hr⟩ := bind_eq_done.mp hr
    have hkept : keptPrequeryError false a.error=a.error := by
      unfold keptPrequeryError
      cases a.error <;> rfl
    cases hr
    by_cases he : a.error=none
    · obtain ⟨p,q,hp,hq,hdb,hses,hin⟩ := receive_exec hopen rfl ha he
      obtain ⟨p',hp',_,_,hkind⟩ := hopen
      have hpp : p=p' := Option.some_inj.mp (hp.symm.trans hp')
      have hk : q.session.kind=some (.xa xaId .idle) := by
        rw [hses,hpp]
        simp only [Server.exec,Session.exec,hkind,if_true,Option.getD_some,kind_setKind,
          Option.map_some]
      refine Or.inr ⟨⟨q,hq,?_,hdb,hk⟩,hkept.trans he⟩
      rw [hin]
      simp only [Session.inTrans,hk]
    · exact Or.inl (receive_open hopen rfl ha he)

/-- `XA PREPARE`: it succeeds, or the transaction is left as it was. -/
theorem readLast_left {earlier : Option Error} {last : Attempt}
    (h : IsOpen xaId .active w ∨ IsOpen xaId .idle w ∧ earlier=none)
    (hr : readLast (.query (.xaPrepare xaId)) earlier true w=.done last w') :
    last.1=none ∨ IsLeft xaId w' := by
  obtain ⟨a,w₁,ha,hr⟩ := bind_eq_done.mp hr
  cases he : a.error.or earlier with
  | none =>
    rw [he] at hr
    obtain ⟨p,_,_,_,rfl,_,hp₁⟩ := receive_ok rfl ha (Option.or_eq_none_iff.mp he).1
    have hd : doDiscard (.query (.xaPrepare xaId)) w₁=.done none w₁ := by
      apply doDiscard_none
      rw [hp₁]
      exact after_more rfl rfl
    dsimp only at hr
    rw [branch_apply,if_pos rfl,bind_apply,hd,Outcome.andThen_done] at hr
    cases hr
    exact Or.inl rfl
  | some e =>
    rw [he] at hr
    cases hr
    right
    by_cases hae : a.error=none
    · -- it was accepted, although `XA END` was not
      rcases h with h | ⟨_,hn⟩
      · obtain ⟨p,q,hp,hq,hdb,hses,hin⟩ := receive_exec h rfl ha hae
        obtain ⟨p',hp',_,_,hkind⟩ := h
        have hpp : p=p' := Option.some_inj.mp (hp.symm.trans hp')
        have hne : ¬p'.session.kind=some (.xa xaId .idle) := by
          intro h
          rw [hkind] at h
          cases h
        have hk : q.session.kind=some (.xa xaId .active) := by
          have hexec : Session.exec p'.session (.xaPrepare xaId)=none := if_neg hne
          rw [hses,hpp]
          simp only [Server.exec,hexec,Option.getD_none,hkind]
        refine Or.inl ⟨q,hq,?_,hdb,hk⟩
        rw [hin]
        simp only [Session.inTrans,hk]
      · rw [hae,hn] at he
        cases he
    · exact (h.imp id And.left).imp (fun h => receive_open h rfl ha hae)
        (fun h => receive_open h rfl ha hae)

/-- The connection after writing. -/
theorem send_done {c : Conn.Command} (h : send c w=.done () w') :
    w'.conn.protocol=w.conn.protocol := by
  have hs := send_protocol c w
  rwa [h] at hs

/-- An attempt to prepare: it succeeds, or the transaction is left. -/
theorem exchange_left {prequery : Option Sql} (hq : prequery=none ∨ prequery=some (.xaEnd xaId))
    (h : CanPrepare xaId prequery w) {last : Attempt}
    (hx : exchangeThree none prequery false (.text (.xaPrepare xaId)) true w=.done last w') :
    last.1=none ∨ IsLeft xaId w' := by
  have hno : w.NoSchema := h.elim IsOpen.noSchema fun h => h.1.noSchema
  obtain ⟨initDb,w₁,h₁,hx⟩ := bind_eq_done.mp hx
  rw [maybeInitDb_none hno] at h₁
  cases h₁
  obtain ⟨_,w₂,h₂,hx⟩ := bind_eq_done.mp hx
  cases h₂
  obtain ⟨_,w₃,h₃,hx⟩ := bind_eq_done.mp hx
  cases h₃
  obtain ⟨_,w₄,h₄,hx⟩ := bind_eq_done.mp hx
  obtain ⟨_,w₅,h₅,hx⟩ := bind_eq_done.mp hx
  obtain ⟨early,w₆,h₆,hx⟩ := bind_eq_done.mp hx
  cases h₆
  obtain ⟨preError,w₇,h₇,hx⟩ := bind_eq_done.mp hx
  cases h₇
  obtain ⟨preqError,w₈,h₈,hx⟩ := bind_eq_done.mp hx
  have h₄' : w₄.conn.protocol=w.conn.protocol := by
    cases prequery with
    | none =>
      cases h₄
      rfl
    | some sql => exact send_done h₄
  have hsame := (send_done h₅).trans h₄'
  have hcan : CanPrepare xaId prequery w₅ :=
    h.imp (fun h => h.of_protocol hsame) fun h => ⟨h.1.of_protocol hsame,h.2⟩
  have hread := readPrequery_left hq hcan h₈
  rw [Option.or_none] at hx
  exact readLast_left hread hx

/-- A transaction that is left is open on a connection. -/
theorem IsLeft.inTrans (h : IsLeft xaId w) : w.inTrans=true := by
  rcases h with ⟨p,hp,hin,_⟩ | ⟨p,hp,hin,_⟩
  · simp [World.inTrans,hp,hin]
  · simp [World.inTrans,hp,hin]

/-- An error that is thrown at last leaves the transaction. -/
theorem conclude_left {command : Option Conn.Command} {attempt : Attempt} {e : Error}
    (h : attempt.1=none ∨ IsLeft xaId w) (hx : conclude command attempt true false w=.thrown e w') :
    w'.inTrans=true := by
  unfold conclude at hx
  cases ha : attempt.1 with
  | none =>
    rw [ha] at hx
    rcases bind_eq_thrown.mp hx with hx | ⟨_,_,_,hx⟩
    · cases hx
    · cases hx
  | some error =>
    rw [ha] at hx
    have hin := (h.resolve_left (by rw [ha]; exact Option.some_ne_none _)).inTrans
    have hset : ∀ state,(setState state w).state.inTrans=true := by
      intro state
      unfold setState World.inTrans at *
      cases hp : w.conn.protocol with
      | none =>
        rw [hp] at hin
        cases hin
      | some p =>
        rw [hp] at hin
        simp only [modify_apply,Outcome.state,hp,World.setProtocol]
        exact hin
    dsimp only at hx
    unfold rethrowErrorIfFatal at hx
    rw [branch_apply] at hx
    split at hx
    · cases hx
      exact hset .IDLE
    · rw [bind_apply] at hx
      cases hx
      exact hset .ERROR

/-- A transaction that cannot be prepared is left. -/
theorem threeLoop_left {retryLockWaitTimeout : Bool} {n : ℕ} {prequery : Option Sql}
    (hq : prequery=none ∨ prequery=some (.xaEnd xaId)) (h : CanPrepare xaId prequery w) {e : Error}
    (hx : threeLoop false true false retryLockWaitTimeout n none prequery
      (.text (.xaPrepare xaId)) w=.thrown e w') : w'.inTrans=true := by
  induction n generalizing w prequery with
  | zero =>
    rcases bind_eq_thrown.mp hx with hx | ⟨last,w₁,hl,hx⟩
    · exact absurd hx (exchangeThree_never _ _ _ _ _ _ _ _)
    · exact conclude_left (exchange_left hq h hl) hx
  | succ n ih =>
    rcases bind_eq_thrown.mp hx with hx | ⟨last,w₁,hl,hx⟩
    · exact absurd hx (exchangeThree_never _ _ _ _ _ _ _ _)
    · rw [branch_apply] at hx
      split at hx
      · rename_i hretry
        have hleft := (exchange_left hq h hl).resolve_left (fun hn => by
          rw [isRetriable,hn] at hretry
          cases hretry)
        exact ih (Or.inl rfl) (hleft.imp id fun h => ⟨h,rfl⟩) hx
      · exact conclude_left (exchange_left hq h hl) hx

/-- When a transaction is not prepared, the connection still has it. -/
theorem prepareSql_thrown (h : IsOpen xaId .active w) {e : Error}
    (hx : prepareSql xaId w=.thrown e w') : w'.inTrans=true := by
  rcases bind_eq_thrown.mp hx with hx | ⟨_,_,_,hx⟩
  · rcases bind_eq_thrown.mp hx with hx | ⟨_,v,hg,hx⟩
    · cases hx
    · cases hg
      rcases bind_eq_thrown.mp hx with hx | ⟨_,_,_,hx⟩
      · rcases bind_eq_thrown.mp hx with hx | ⟨isFromPool,w₁,hq,hx⟩
        · have hin : w.inTrans=true := IsLeft.inTrans (Or.inl h)
          obtain ⟨p,hp,_⟩ := h
          unfold setQueryingState at hx
          rw [hp] at hx
          dsimp only at hx
          cases hs : p.state <;> rw [hs] at hx <;> cases hx <;> exact hin
        · rw [Bool.and_false] at hx
          obtain ⟨p,hp,rfl⟩ := setQueryingState_done hq
          obtain ⟨p',hp',hin,hdb,hkind⟩ := h
          have hpp : p=p' := Option.some_inj.mp (hp.symm.trans hp')
          subst hpp
          refine threeLoop_left (Or.inr rfl) (Or.inl ?_) hx
          exact ⟨{p with state := .QUERYING},rfl,hin,hdb,hkind⟩
      · cases hx
  · cases hx

/-! ## A commit that fails in the first phase -/

/-- A distributed transaction that is to be ended: it was prepared before, or it is active on
the server, with no schema to select. -/
def HasBranch (w : World) : Prop :=
  w.conn.curXaId≠"" ∧ (w.conn.isXaPrepared=true ∧ w.conn.protocol.isSome=true ∨
    w.conn.isXaPrepared=false ∧ IsOpen w.conn.curXaId .active w)

/-- The connection is handed over to be ended. -/
def GaveUp (w w' : World) : Prop :=
  w'.conn.protocol=none ∧ ∃ p xaId,w'.givenUp=w.givenUp++[⟨p,xaId,false⟩]

/-- What becomes of a connection when its session does not commit. -/
structure Aborted (w w' : World) : Prop where
  /-- Nothing is committed. -/
  undecided : Undecided w w'
  /-- The server accepted to roll back, or the connection is given up. -/
  ended : HasBranch w → AcceptedSince (.xaRollback w.conn.curXaId) w w' ∨ GaveUp w w'

/-- A transaction that is still to be ended. -/
structure StillOpen (w w' : World) : Prop where
  /-- The same transaction. -/
  curXaId : w'.conn.curXaId=w.conn.curXaId
  /-- There is something to roll back. -/
  hasTrx : w'.hasTrx=true
  /-- No connection was given up. -/
  givenUp : w'.givenUp=w.givenUp

/-- What a rollback does with a connection. -/
def EndsBranch (w w' : World) : Prop := Undecided w w' ∧ (w.conn.curXaId≠"" → w.hasTrx=true →
  AcceptedSince (.xaRollback w.conn.curXaId) w w' ∨ GaveUp w w')

/-- The commands give no connection up. -/
theorem respects_givenUp :
    Respects (fun w w' => w'.givenUp=w.givenUp) (fun _ => True) (fun _ => True) where
  refl := fun _ => rfl
  trans := fun _ _ _ h h' => h'.trans h
  initDb := fun _ => trivial
  send := by
    intro c _ w
    unfold Conn.send
    split <;> rfl
  receive := by
    intro c _ w
    unfold Conn.receive
    split
    · split
      · rfl
      · split <;> rfl
    · rfl
  schema := fun _ _ _ => rfl
  update := fun _ _ _ _ _ _ _ => rfl

/-- There is something to roll back on a connection with an open transaction. -/
theorem HasBranch.hasTrx (h : HasBranch w) : w.hasTrx=true := by
  rcases h.2 with ⟨hp,hc⟩ | ⟨_,hopen⟩
  · simp [World.hasTrx,hp,hc]
  · exact hasTrx_of_inTrans (IsLeft.inTrans (Or.inl hopen))

/-- The first phase leaves a transaction to be ended, when it ends. -/
theorem prepareXa_stillOpen {i : ℕ} {s : Hooked} (hw : waits (prepareXa i s)=false)
    (h : HasBranch s.world) : StillOpen s.world (prepareXa i s).state.world := by
  have hsame : StillOpen s.world s.world := ⟨rfl,h.hasTrx,rfl⟩
  by_cases hu : IsUnprepared s.world
  · have hopen : IsOpen s.world.conn.curXaId .active s.world := by
      rcases h.2 with ⟨hp,_⟩ | ⟨_,hopen⟩
      · exact absurd (hp.symm.trans hu.2.2) Bool.false_ne_true.symm
      · exact hopen
    have hsome : s.world.conn.protocol.isSome=true := by
      obtain ⟨p,hp,_⟩ := hopen
      rw [hp]
      rfl
    rw [prepareXa_unprepared hu] at hw ⊢
    have hc := callHandler_conn i s
    rw [bind_apply] at hw ⊢
    cases hx : callHandler i s with
    | thrown e t =>
      rw [hx] at hc
      have ht : t.world=s.world := hc
      rw [Outcome.andThen_thrown,Outcome.state,ht]
      exact hsame
    | waiting t =>
      rw [hx] at hw
      cases hw
    | done a t =>
      rw [hx] at hc hw
      have ht : t.world=s.world := hc
      rw [Outcome.andThen_done] at hw ⊢
      rw [onWorld_state,ht]
      have hid := (respects_curXaId.bind (respects_curXaId.twoCommands trivial trivial false)
        (fun _ _ => rfl) : Always _ (prepareSql s.world.conn.curXaId)) s.world
      have hgiven := (respects_givenUp.bind (respects_givenUp.twoCommands trivial trivial false)
        (fun _ _ => rfl) : Always _ (prepareSql s.world.conn.curXaId)) s.world
      refine ⟨hid,?_,hgiven⟩
      cases hy : prepareSql s.world.conn.curXaId s.world with
      | done b w' => exact (prepareSql_done hsome hy).2.2.2
      | thrown e w' => exact hasTrx_of_inTrans (prepareSql_thrown hopen hy)
      | waiting w' =>
        have hwait : waits (onWorld (prepareSql s.world.conn.curXaId) t)=true := by
          unfold onWorld
          rw [onPart_apply,ht,hy]
          rfl
        exact absurd (hwait.symm.trans hw) Bool.false_ne_true.symm
  · have hidle : prepareXa i s=.done () s := prepare_idle hu i s.onBeforeCommit s.calls
    rw [hidle]
    exact hsame

/-- The commands that roll a distributed transaction back. -/
theorem rollbackCommand_accepted {isXaPrepared : Bool} (hid : xaId≠"")
    (h : rollbackCommand xaId isXaPrepared false w=.done () w') :
    AcceptedSince (.xaRollback xaId) w w' := by
  unfold rollbackCommand at h
  rw [if_neg Bool.false_ne_true,if_neg hid] at h
  split at h
  · exact command_accepted h
  · exact twoCommands_accepted h

/-- A rollback that ends ends the transaction, or gives the connection up. -/
theorem rollback_ends (hid : w.conn.curXaId≠"") (ht : w.hasTrx=true)
    (hw : waits (Conn.rollback none w)=false) :
    AcceptedSince (.xaRollback w.conn.curXaId) w (Conn.rollback none w).state ∨
      GaveUp w (Conn.rollback none w).state := by
  have hall : Conn.rollback none w=
      (attempt (rollbackCommand w.conn.curXaId w.conn.isXaPrepared false)
        (fun _ => giveUp false) >>= fun _ => clearTrx) w := by
    change Conn.rollbackAll false w=_
    unfold Conn.rollbackAll
    rw [bind_apply,get_apply,Outcome.andThen_done,branch_apply,if_pos ht]
  rw [hall] at hw ⊢
  rw [bind_apply,attempt_apply] at hw ⊢
  have hconn : w.conn.protocol.isSome=true := by
    unfold World.hasTrx at ht
    exact (Bool.and_eq_true_iff.mp ht).1
  have hcmd : ∀ {R : World → World → Prop},Respects R (fun _ => True) (fun _ => True) →
      R w (rollbackCommand w.conn.curXaId w.conn.isXaPrepared false w).state := by
    intro R hr
    unfold rollbackCommand
    rw [if_neg Bool.false_ne_true,if_neg hid]
    split
    · exact hr.command trivial w
    · exact hr.twoCommands trivial trivial true w
  cases hx : rollbackCommand w.conn.curXaId w.conn.isXaPrepared false w with
  | done a v =>
    left
    have hacc := rollbackCommand_accepted hid hx
    exact hacc.grows ⟨[],by simp [clearTrx,Outcome.state],fun _ _ _ => trivial⟩
  | waiting v =>
    rw [hx] at hw
    cases hw
  | thrown e v =>
    right
    have hf := (hcmd Follows.respects).connected hconn
    have hg := hcmd respects_givenUp
    rw [hx] at hf hg
    have hg' : v.givenUp=w.givenUp := hg
    obtain ⟨p,hp⟩ := Option.isSome_iff_exists.mp hf
    have hp' : v.conn.protocol=some p := hp
    have hgive : giveUp false v=.thrown serverDisconnected (v.doEnd false none) := by
      simp [giveUp,doWhen,endConn]
    have hend : (v.doEnd false none).givenUp=w.givenUp++[⟨p,v.conn.preparedXaId,false⟩] := by
      unfold World.doEnd
      rw [hp',← hg']
    have hnone : (v.doEnd false none).conn.protocol=none := by
      unfold World.doEnd MyConn.reset
      rw [hp']
      rfl
    rw [Outcome.orElse_thrown,hgive]
    exact ⟨hnone,p,_,hend⟩

/-- The rollback of a session, when it ends. -/
theorem rollbackAll_ends {s : Session} (hw : waits (rollbackAll s)=false) :
    Each EndsBranch s (rollbackAll s).state := by
  unfold rollbackAll at hw ⊢
  rw [bind_apply,modify_apply,Outcome.andThen_done] at hw ⊢
  unfold Each
  rw [doAll_state]
  refine settleAll_settled (fun i t ht => ?_) ?_
  · have hwait : waits (Conn.rollback none t.world)=false := by
      unfold onWorld at ht
      rw [onPart_apply] at ht
      cases hx : Conn.rollback none t.world with
      | done a v => rfl
      | thrown e v => rfl
      | waiting v =>
        rw [hx] at ht
        cases ht
    rw [onWorld_state]
    exact ⟨(NothingCommitted.rollbackAll false t.world).undecided,
      fun hid htrx => rollback_ends hid htrx hwait⟩
  · by_contra hn
    unfold doAll at hw
    dsimp only at hw
    rw [if_pos (Bool.not_eq_false _ ▸ hn)] at hw
    cases hw

/-- How an operation with its rollback rejects. -/
theorem rollbackOnError_eq_thrown {back x : SessionOp Unit} {s t : Session} {e : Error}
    (h : rollbackOnError back x s=.thrown e t) :
    ∃ u,x s=.thrown e u ∧ waits (back u)=false ∧ t=(back u).state := by
  unfold rollbackOnError at h
  rw [attempt_apply] at h
  cases hx : x s with
  | done a u =>
    rw [hx] at h
    cases h
  | waiting u =>
    rw [hx] at h
    cases h
  | thrown e' u =>
    rw [hx,Outcome.orElse_thrown,bind_apply,attempt_apply] at h
    cases hb : back u with
    | done a v =>
      rw [hb] at h
      cases h
      exact ⟨u,rfl,by rw [hb]; rfl,by rw [hb]; rfl⟩
    | thrown e'' v =>
      rw [hb] at h
      cases h
      exact ⟨u,rfl,by rw [hb]; rfl,by rw [hb]; rfl⟩
    | waiting v =>
      rw [hb] at h
      cases h

/-- A connection is rolled back after its transaction was still to be ended. -/
theorem aborted_of {w w' w'' : World} (hu : Undecided w w') (ho : HasBranch w → StillOpen w w')
    (h : EndsBranch w' w'') : Aborted w w'' := by
  refine ⟨SendsOnly.trans w w' w'' hu h.1,fun hb => ?_⟩
  have hstill := ho hb
  have hid : w'.conn.curXaId≠"" := by
    rw [hstill.curXaId]
    exact hb.1
  rcases h.2 hid hstill.hasTrx with hacc | ⟨hnone,p,xaId,hgiven⟩
  · rw [hstill.curXaId] at hacc
    exact Or.inl ((SendsOnly.grows hu).accepted hacc)
  · rw [hstill.givenUp] at hgiven
    exact Or.inr ⟨hnone,p,xaId,hgiven⟩

/-- Two relations that hold for each connection. -/
theorem forall₂_both {R S : World → World → Prop} {as bs : List World} (hr : List.Forall₂ R as bs)
    (hs : List.Forall₂ S as bs) : List.Forall₂ (fun a b => R a b ∧ S a b) as bs := by
  induction hr with
  | nil => exact .nil
  | cons hab _ ih =>
    cases hs with
    | cons hs hss => exact .cons ⟨hab,hs⟩ (ih hss)

/-- An operation with an error rejected. -/
theorem thrown_of_errorOf {σ α : Type} {x : Outcome Error σ α} {e : Error} (h : errorOf x=some e) :
    x=.thrown e x.state := by
  cases x with
  | done a s => cases h
  | thrown e' s =>
    cases h
    rfl
  | waiting s => cases h

/-- A connection with an active distributed transaction. -/
def branch (connectionId : ℕ) (answers : List Answer) : World :=
  {conn := {curXaId := "x",protocol := some {connectionId := connectionId,inTrans := true
                                             session := ⟨[],some ⟨.xa "x" .active,[],[]⟩⟩}}
   answers := answers}

/-- One of two connections is lost when it is to prepare. -/
def halfLost : Session :=
  {conns := [branch 1 (List.replicate 4 (.ok false false)),branch 2 [.ok false false,.lost]]}

end SpiritMysql.TrxSession
