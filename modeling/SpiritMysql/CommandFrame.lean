import SpiritMysql.Commands

/-!
# Relations that every command keeps

A relation between the states before and after that the elementary steps of
some commands keep is kept by everything that is made of these commands: retried
queries, batches of queries and prepared statements.
-/

namespace SpiritMysql.Conn

open AsyncAction Errors Protocol

/-- A source that was read does not change any more. -/
theorem rest_rest (source : Source) : source.rest.rest=source.rest := by
  cases source <;> rfl

/-- The elementary steps of the commands of a kind keep a relation. The results of
the commands of another kind can be left open. -/
structure Respects (R : World → World → Prop) (P Q : Command → Prop) : Prop where
  /-- Nothing is done. -/
  refl : ∀ w,R w w
  /-- One thing is done after another. -/
  trans : ∀ s t u,R s t → R t u → R s u
  /-- A schema can be selected before any command. -/
  initDb : ∀ schema,P (.initDb schema)
  /-- A command is written. -/
  send : ∀ c,P c → Always R (Conn.send c)
  /-- An answer is read. -/
  receive : ∀ c,P c → Always R (Conn.receive c)
  /-- The pending schema is taken. -/
  schema : ∀ w p,w.conn.protocol=some p → R w (w.setProtocol {p with pendingChangeSchema := ""})
  /-- The state of the connection changes, and which results are open. -/
  update : ∀ w p q,w.conn.protocol=some p → q={p with state := q.state,curCommand := q.curCommand} →
    (q.curCommand=p.curCommand ∨ ∀ c,q.curCommand=some c → Q c) → q.state≠.IDLE_IN_POOL →
    R w (w.setProtocol q)

namespace Respects

variable {R : World → World → Prop} {P Q : Command → Prop}

/-- A value is returned. -/
theorem pure {α : Type} (h : Respects R P Q) (a : α) : Always R (Pure.pure a : Op α) :=
  Always.pure h.refl a

/-- One operation after another. -/
theorem bind {α β : Type} (h : Respects R P Q) {x : Op α} {f : α → Op β} (hx : Always R x)
    (hf : ∀ a,Always R (f a)) : Always R (x >>= f) :=
  Always.bind h.trans hx hf

/-- A handler runs after an error. -/
theorem attempt {α : Type} (h : Respects R P Q) {x : Op α} {f : Error → Op α} (hx : Always R x)
    (hf : ∀ e,Always R (f e)) : Always R (AsyncAction.attempt x f) :=
  Always.attempt h.trans hx hf

/-- An error is thrown. -/
theorem fail {α : Type} (h : Respects R P Q) (e : Error) : Always R (AsyncAction.fail e : Op α) :=
  Always.fail h.refl e

/-- Nothing more happens. -/
theorem wait {α : Type} (h : Respects R P Q) : Always R (AsyncAction.wait : Op α) := Always.wait h.refl

/-- The state is read. -/
theorem get (h : Respects R P Q) : Always R (AsyncAction.get : Op World) := Always.get h.refl

/-- The state of the connection changes. -/
theorem setState (h : Respects R P Q) {state : ProtocolState} (hs : state≠.IDLE_IN_POOL) :
    Always R (Conn.setState state) := by
  intro w
  simp only [Conn.setState,modify_apply,Outcome.state]
  cases hp : w.conn.protocol with
  | none => exact h.refl w
  | some p => exact h.update w p _ hp rfl (Or.inl rfl) hs

/-- The state after a successful query. -/
theorem setStateAfter (h : Respects R P Q) {command : Option Command}
    {void : Bool} (hc : void=true ∨ ∀ c,command=some c → Q c) (answer : Answer) :
    Always R (Conn.setStateAfter command answer void) := by
  intro w
  simp only [Conn.setStateAfter,modify_apply,Outcome.state]
  cases hp : w.conn.protocol with
  | none => exact h.refl w
  | some p =>
    dsimp only
    split_ifs with hv
    · exact h.update w p _ hp rfl (Or.inl rfl) (by simp)
    · exact h.update w p _ hp rfl (Or.inr (hc.resolve_left hv)) (by simp)
    · exact h.update w p _ hp rfl (Or.inr (hc.resolve_left hv)) (by simp)
    · exact h.update w p _ hp rfl (Or.inl rfl) (by simp)

/-- The connection is taken for a query. -/
theorem setQueryingState (h : Respects R P Q) : Always R Conn.setQueryingState := by
  intro w
  unfold Conn.setQueryingState
  cases hp : w.conn.protocol with
  | none => exact h.refl w
  | some p =>
    dsimp only
    cases hs : p.state <;>
      first | exact h.refl w | exact h.update w p _ hp rfl (Or.inl rfl) (by simp)

/-- The pending schema is taken. -/
theorem maybeInitDb (h : Respects R P Q) : Always R Conn.maybeInitDb := by
  intro w
  unfold Conn.maybeInitDb
  cases hp : w.conn.protocol with
  | none => exact h.refl w
  | some p =>
    dsimp only
    split_ifs
    · exact h.refl w
    · exact h.schema w p hp
    · exact h.schema w p hp

/-- The schema is selected. -/
theorem sendInitDb (h : Respects R P Q) (initDb : Option String) : Always R (Conn.sendInitDb initDb) := by
  cases initDb with
  | none => exact h.pure ()
  | some schema => exact h.send _ (h.initDb schema)

/-- The answer about the schema is read. -/
theorem readInitDb (h : Respects R P Q) (initDb : Option String) : Always R (Conn.readInitDb initDb) := by
  cases initDb with
  | none => exact h.pure none
  | some schema => exact h.bind (h.receive _ (h.initDb schema)) (fun a => h.pure a.error)

/-- An error is thrown again. -/
theorem rethrowErrorIfFatal {α : Type} (h : Respects R P Q) (e : Error) (isFromPool : Bool) :
    Always R (Conn.rethrowErrorIfFatal e isFromPool : Op (Option α)) := by
  unfold Conn.rethrowErrorIfFatal
  refine Always.ite (h.bind (h.setState (by simp)) (fun _ => h.fail e)) ?_
  exact h.bind (h.setState (by simp)) (fun _ => Always.ite (h.pure none) (h.fail e))

/-- An error is thrown again. -/
theorem rethrowError {α : Type} (h : Respects R P Q) (e : Error) :
    Always R (Conn.rethrowError e : Op α) :=
  h.bind (h.setState (by split <;> simp)) (fun _ => h.fail e)

/-- The results that remain are read. -/
theorem discardLoop (h : Respects R P Q) {c : Command} (hc : P c) (n : ℕ) :
    Always R (Conn.discardLoop c n) := by
  induction n with
  | zero => exact h.wait
  | succ n ih =>
    refine h.bind h.get (fun w => Always.ite ?_ (h.pure none))
    refine h.bind (h.receive c hc) (fun a => ?_)
    cases a.error with
    | none => exact ih
    | some e => exact h.pure (some e)

/-- The results that remain are read. -/
theorem doDiscard (h : Respects R P Q) {c : Command} (hc : P c) : Always R (Conn.doDiscard c) :=
  fun w => h.discardLoop hc _ w

/-- The result of a query is read. -/
theorem readResults (h : Respects R P Q) {c : Command} (hc : P c) (void : Bool) :
    Always R (Conn.readResults c void) := by
  refine h.bind (h.receive c hc) (fun a => ?_)
  cases a.error with
  | some e => exact h.pure _
  | none => exact Always.ite (h.bind (h.doDiscard hc) (fun _ => h.pure _)) (h.pure _)

/-- The attempt of a query is concluded. -/
theorem conclude (h : Respects R P Q) {command : Option Command} {void : Bool}
    (hc : void=true ∨ ∀ c,command=some c → Q c) (attempt : Attempt) (isFromPool : Bool) :
    Always R (Conn.conclude command attempt void isFromPool) := by
  unfold Conn.conclude
  cases attempt.1 with
  | none => exact h.bind (h.setStateAfter hc _) (fun _ => h.pure _)
  | some e => exact h.rethrowErrorIfFatal e isFromPool

/-- What a source is, or becomes when it is read, is of the kind. -/
def Sends (P : Command → Prop) (source : Source) : Prop :=
  (∀ sql,source.sql=some sql → P (.query sql)) ∧ ∀ sql,source.rest.sql=some sql → P (.query sql)

/-- A source that is read again is of the kind too. -/
theorem Sends.rest {source : Source} (hs : Sends P source) : Sends P source.rest := by
  refine ⟨hs.2,?_⟩
  rw [rest_rest]
  exact hs.2

/-- The command that a source is sent as can be left open. -/
theorem Sends.command {source : Source} (hs : Sends P source) {void : Bool}
    (hv : void=true ∨ ∀ c,P c → Q c) : void=true ∨ ∀ c,source.command=some c → Q c := by
  refine hv.imp_right (fun hv c hc => ?_)
  obtain ⟨sql,hq,rfl⟩ := Option.map_eq_some_iff.mp hc
  exact hv _ (hs.1 sql hq)

/-- SQL of the library is of the kind, when it is as a command. -/
theorem sends_text {sql : Sql} (hs : P (.query sql)) : Sends P (.text sql) := by
  refine ⟨?_,?_⟩ <;>
    · intro sql' he
      cases he
      exact hs

/-- A query is sent and its results are read. -/
theorem exchange (h : Respects R P Q) {source : Source} (hs : Sends P source) (void : Bool) :
    Always R (Conn.exchange source void) := by
  refine h.bind h.maybeInitDb (fun initDb => ?_)
  cases hq : source.sql with
  | none => exact h.pure _
  | some sql =>
    refine h.bind (h.sendInitDb initDb) (fun _ => h.bind (h.send _ (hs.1 sql hq)) (fun _ => ?_))
    exact h.bind (h.readInitDb initDb) (fun _ =>
      h.bind (h.readResults (hs.1 sql hq) void) (fun _ => h.pure _))

/-- A query is sent until it need not be sent again. -/
theorem queryLoop (h : Respects R P Q) {void : Bool} (hv : void=true ∨ ∀ c,P c → Q c)
    (isFromPool retryLockWaitTimeout : Bool) (n : ℕ) {source : Source} (hs : Sends P source) :
    Always R (Conn.queryLoop void isFromPool retryLockWaitTimeout n source) := by
  induction n generalizing source with
  | zero => exact h.bind (h.exchange hs void) (fun _ => h.conclude (hs.command hv) _ _)
  | succ n ih =>
    exact h.bind (h.exchange hs void) (fun _ => Always.ite (ih hs.rest) (h.conclude (hs.command hv) _ _))

/-- `sendComQuery()`. -/
theorem sendComQuery (h : Respects R P Q) {source : Source} (hs : Sends P source) {void : Bool}
    (hv : void=true ∨ ∀ c,P c → Q c) (letReturnUndefined : Bool) (options : RetryOptions) :
    Always R (Conn.sendComQuery source void letReturnUndefined options) :=
  h.bind h.setQueryingState (fun _ => h.queryLoop hv _ _ _ hs)

/-- A command of the library. -/
theorem command (h : Respects R P Q) {sql : Sql} (hs : P (.query sql)) : Always R (Conn.command sql) :=
  h.bind h.get (fun _ => h.bind (h.sendComQuery (sends_text hs) (Or.inl rfl) _ _) (fun _ => h.pure ()))

/-- `sendComStmtPrepare()`. -/
theorem sendComStmtPrepare (h : Respects R P Q) {source : Source}
    (hs : ∀ sql,source.sql=some sql → P (.stmtPrepare sql)) (letReturnUndefined : Bool) :
    Always R (Conn.sendComStmtPrepare source letReturnUndefined) := by
  refine h.bind h.setQueryingState (fun _ => h.bind h.maybeInitDb (fun initDb => ?_))
  cases hq : source.sql with
  | none => exact h.rethrowErrorIfFatal _ _
  | some sql =>
    refine h.bind (h.sendInitDb initDb) (fun _ => h.bind (h.send _ (hs sql hq)) (fun _ => ?_))
    refine h.bind (h.readInitDb initDb) (fun early => h.bind (h.receive _ (hs sql hq)) (fun a => ?_))
    cases a.error.or early with
    | none => exact h.bind (h.setState (by simp)) (fun _ => h.bind h.get (fun _ => h.pure _))
    | some e => exact h.rethrowErrorIfFatal e _

/-- The resultsets are discarded, when the ones that are open are of the kind. -/
theorem discard (h : Respects R P Q) {w : World}
    (hc : ∀ p c,w.conn.protocol=some p → p.curCommand=some c → P c) : R w (Conn.discard w).state := by
  unfold Conn.discard
  rw [bind_apply,get_apply,Outcome.andThen_done]
  cases hp : w.conn.protocol with
  | none => exact h.refl w
  | some p =>
    dsimp only
    cases hq : p.curCommand with
    | none => exact h.refl w
    | some c =>
      refine Always.ite (h.bind (h.doDiscard (hc p c hp hq)) (fun error => ?_)) (h.pure ()) w
      cases error with
      | none => exact h.setState (by simp)
      | some e => exact h.rethrowError e

/-- The statement before two queries is sent. -/
theorem sendPreStmt (h : Respects R P Q) {preStmt : Option PreStmt}
    (hp : ∀ pre,preStmt=some pre → P (.stmtExecute pre.stmtId pre.values)) :
    Always R (Conn.sendPreStmt preStmt) := by
  cases preStmt with
  | none => exact h.pure ()
  | some pre => exact h.send _ (hp pre rfl)

/-- The answer to the statement before is read. -/
theorem readPreStmt (h : Respects R P Q) {preStmt : Option PreStmt}
    (hp : ∀ pre,preStmt=some pre → P (.stmtExecute pre.stmtId pre.values)) :
    Always R (Conn.readPreStmt preStmt) := by
  cases preStmt with
  | none => exact h.pure none
  | some pre => exact h.bind (h.receive _ (hp pre rfl)) (fun a => h.pure a.error)

/-- The query before is sent. -/
theorem sendPrequery (h : Respects R P Q) {prequery : Option Sql}
    (hp : ∀ sql,prequery=some sql → P (.query sql)) : Always R (Conn.sendPrequery prequery) := by
  cases prequery with
  | none => exact h.pure ()
  | some sql => exact h.send _ (hp sql rfl)

/-- The answer to the query before is read. -/
theorem readPrequery (h : Respects R P Q) {prequery : Option Sql} (ignorePrequeryError : Bool)
    (hp : ∀ sql,prequery=some sql → P (.query sql)) :
    Always R (Conn.readPrequery ignorePrequeryError prequery) := by
  cases prequery with
  | none => exact h.pure none
  | some sql => exact h.bind (h.receive _ (hp sql rfl)) (fun a => h.pure _)

/-- The result of the last query is read. -/
theorem readLast (h : Respects R P Q) {c : Command} (hc : P c) (earlier : Option Error) (void : Bool) :
    Always R (Conn.readLast c earlier void) := by
  refine h.bind (h.receive c hc) (fun a => ?_)
  cases a.error.or earlier with
  | some e => exact h.pure _
  | none => exact Always.ite (h.bind (h.doDiscard hc) (fun _ => h.pure _)) (h.pure _)

/-- A batch of queries is sent, and the answers are read. -/
theorem exchangeThree (h : Respects R P Q) {preStmt : Option PreStmt} {prequery : Option Sql}
    {source : Source} (hpre : ∀ pre,preStmt=some pre → P (.stmtExecute pre.stmtId pre.values))
    (hpreq : ∀ sql,prequery=some sql → P (.query sql)) (hs : Sends P source)
    (ignorePrequeryError void : Bool) :
    Always R (Conn.exchangeThree preStmt prequery ignorePrequeryError source void) := by
  refine h.bind h.maybeInitDb (fun initDb => ?_)
  cases hq : source.sql with
  | none => exact h.pure _
  | some sql =>
    refine h.bind (h.sendInitDb initDb) (fun _ => h.bind (h.sendPreStmt hpre) (fun _ =>
      h.bind (h.sendPrequery hpreq) (fun _ => h.bind (h.send _ (hs.1 sql hq)) (fun _ =>
        h.bind (h.readInitDb initDb) (fun early => h.bind (h.readPreStmt hpre) (fun preError => ?_))))))
    cases preError with
    | some e => exact h.pure _
    | none =>
      exact h.bind (h.readPrequery _ hpreq) (fun preqError => h.readLast (hs.1 sql hq) _ _)

/-- A batch is sent until it need not be sent again. -/
theorem threeLoop (h : Respects R P Q) {void : Bool} (hv : void=true ∨ ∀ c,P c → Q c)
    (ignorePrequeryError isFromPool retryLockWaitTimeout : Bool) (n : ℕ) {preStmt : Option PreStmt} {prequery : Option Sql} {source : Source}
    (hpre : ∀ pre,preStmt=some pre → P (.stmtExecute pre.stmtId pre.values))
    (hpreq : ∀ sql,prequery=some sql → P (.query sql)) (hs : Sends P source) :
    Always R (Conn.threeLoop ignorePrequeryError void isFromPool retryLockWaitTimeout n preStmt
      prequery source) := by
  induction n generalizing preStmt prequery source with
  | zero =>
    exact h.bind (h.exchangeThree hpre hpreq hs _ _) (fun _ => h.conclude (hs.command hv) _ _)
  | succ n ih =>
    refine h.bind (h.exchangeThree hpre hpreq hs _ _) (fun _ => Always.ite ?_ (h.conclude (hs.command hv) _ _))
    exact ih (fun _ hn => absurd hn (Option.some_ne_none _).symm)
      (fun _ hn => absurd hn (Option.some_ne_none _).symm) hs.rest

/-- `sendThreeQueries()`. -/
theorem sendThreeQueries (h : Respects R P Q) {preStmt : Option PreStmt} {prequery : Option Sql}
    {source : Source} (hpre : ∀ pre,preStmt=some pre → P (.stmtExecute pre.stmtId pre.values))
    (hpreq : ∀ sql,prequery=some sql → P (.query sql)) (hs : Sends P source)
    {void : Bool} (hv : void=true ∨ ∀ c,P c → Q c) (ignorePrequeryError letReturnUndefined : Bool)
    (options : RetryOptions) :
    Always R (Conn.sendThreeQueries preStmt prequery ignorePrequeryError source void
      letReturnUndefined options) :=
  h.bind h.setQueryingState (fun _ => h.threeLoop hv _ _ _ _ hpre hpreq hs)

/-- Two commands of the library. -/
theorem twoCommands (h : Respects R P Q) {prequery sql : Sql} (hp : P (.query prequery))
    (hs : P (.query sql)) (ignorePrequeryError : Bool) :
    Always R (Conn.twoCommands prequery ignorePrequeryError sql) := by
  refine h.bind h.get (fun _ => h.bind (h.sendThreeQueries ?_ ?_ (sends_text hs) (Or.inl rfl) _ _ _)
    (fun _ => h.pure ()))
  · intro pre he
    cases he
  · intro q he
    cases he
    exact hp

end Respects

section Exchanges

/-- Writing a command does not throw. -/
theorem send_never (c : Command) : NeverThrows (send c) := by
  intro w e w' h
  unfold send at h
  split at h <;> cases h

/-- Reading an answer does not throw. -/
theorem receive_never (c : Command) : NeverThrows (receive c) := by
  intro w e w' h
  unfold receive at h
  repeat' split at h
  all_goals cases h

/-- Taking the pending schema does not throw. -/
theorem maybeInitDb_never : NeverThrows maybeInitDb := by
  intro w e w' h
  unfold maybeInitDb at h
  cases hp : w.conn.protocol with
  | none =>
    rw [hp] at h
    cases h
  | some p =>
    rw [hp] at h
    dsimp only at h
    split_ifs at h

/-- Writing `COM_INIT_DB` does not throw. -/
theorem sendInitDb_never (initDb : Option String) : NeverThrows (sendInitDb initDb) := by
  cases initDb with
  | none => exact NeverThrows.pure ()
  | some schema => exact send_never _

/-- The error of `COM_INIT_DB` is not thrown at once. -/
theorem readInitDb_never (initDb : Option String) : NeverThrows (readInitDb initDb) := by
  cases initDb with
  | none => exact NeverThrows.pure none
  | some schema => exact NeverThrows.bind (receive_never _) (fun a => NeverThrows.pure a.error)

/-- The error of a later result is not thrown at once. -/
theorem doDiscard_never (c : Command) : NeverThrows (doDiscard c) := by
  have hl : ∀ n,NeverThrows (discardLoop c n) := by
    intro n
    induction n with
    | zero =>
      intro w e w' h
      cases h
    | succ n ih =>
      refine NeverThrows.bind NeverThrows.get (fun w => NeverThrows.ite ?_ (NeverThrows.pure none))
      refine NeverThrows.bind (receive_never c) (fun a => ?_)
      cases a.error with
      | none => exact ih
      | some e => exact NeverThrows.pure (some e)
  exact fun w => hl _ w

/-- The error of a query is not thrown at once. -/
theorem exchange_never (source : Source) (void : Bool) : NeverThrows (exchange source void) := by
  refine NeverThrows.bind maybeInitDb_never (fun initDb => ?_)
  cases source.sql with
  | none => exact NeverThrows.pure _
  | some sql =>
    refine NeverThrows.bind (sendInitDb_never initDb) (fun _ => NeverThrows.bind (send_never _) (fun _ =>
      NeverThrows.bind (readInitDb_never initDb) (fun early => NeverThrows.bind ?_ (fun _ =>
        NeverThrows.pure _))))
    refine NeverThrows.bind (receive_never _) (fun a => ?_)
    cases a.error with
    | some e => exact NeverThrows.pure _
    | none =>
      exact NeverThrows.ite (NeverThrows.bind (doDiscard_never _) (fun _ => NeverThrows.pure _))
        (NeverThrows.pure _)

/-- The error of a batch is not thrown at once. -/
theorem exchangeThree_never (preStmt : Option PreStmt) (prequery : Option Sql)
    (ignorePrequeryError : Bool) (source : Source) (void : Bool) :
    NeverThrows (exchangeThree preStmt prequery ignorePrequeryError source void) := by
  have hpre : NeverThrows (sendPreStmt preStmt) ∧ NeverThrows (readPreStmt preStmt) := by
    cases preStmt with
    | none => exact ⟨NeverThrows.pure (),NeverThrows.pure none⟩
    | some pre =>
      exact ⟨send_never _,NeverThrows.bind (receive_never _) (fun a => NeverThrows.pure a.error)⟩
  have hpreq : NeverThrows (sendPrequery prequery) ∧
      NeverThrows (readPrequery ignorePrequeryError prequery) := by
    cases prequery with
    | none => exact ⟨NeverThrows.pure (),NeverThrows.pure none⟩
    | some sql =>
      exact ⟨send_never _,NeverThrows.bind (receive_never _) (fun a => NeverThrows.pure _)⟩
  refine NeverThrows.bind maybeInitDb_never (fun initDb => ?_)
  cases source.sql with
  | none => exact NeverThrows.pure _
  | some sql =>
    refine NeverThrows.bind (sendInitDb_never initDb) (fun _ => NeverThrows.bind hpre.1 (fun _ =>
      NeverThrows.bind hpreq.1 (fun _ => NeverThrows.bind (send_never _) (fun _ =>
        NeverThrows.bind (readInitDb_never initDb) (fun early => NeverThrows.bind hpre.2 (fun e => ?_))))))
    cases e with
    | some e => exact NeverThrows.pure _
    | none =>
      refine NeverThrows.bind hpreq.2 (fun preqError => NeverThrows.bind (receive_never _) (fun a => ?_))
      cases a.error.or (preqError.or early) with
      | some e => exact NeverThrows.pure _
      | none =>
        exact NeverThrows.ite (NeverThrows.bind (doDiscard_never _) (fun _ => NeverThrows.pure _))
          (NeverThrows.pure _)

end Exchanges

section FirstUse

/-- The connection was just taken from the pool. -/
def World.IsFromPool (w : World) : Prop := ∃ p,w.conn.protocol=some p ∧ p.state=.IDLE_IN_POOL

variable {w w' : World}

/-- Only a connection of the pool is reported as one. -/
theorem setQueryingState_true (h : setQueryingState w=.done true w') : w.IsFromPool := by
  unfold setQueryingState at h
  cases hp : w.conn.protocol with
  | none =>
    rw [hp] at h
    cases h
  | some p =>
    rw [hp] at h
    dsimp only at h
    cases hs : p.state <;> rw [hs] at h <;> cases h
    exact ⟨p,hp,hs⟩

/-- What taking a connection for a query does. -/
theorem setQueryingState_done {isFromPool : Bool} (h : setQueryingState w=.done isFromPool w') :
    ∃ p,w.conn.protocol=some p ∧ w'=w.setProtocol {p with state := .QUERYING} := by
  unfold setQueryingState at h
  cases hp : w.conn.protocol with
  | none =>
    rw [hp] at h
    cases h
  | some p =>
    rw [hp] at h
    dsimp only at h
    cases hs : p.state <;> rw [hs] at h <;> cases h <;> exact ⟨p,rfl,rfl⟩

/-- An idle connection is taken for a query. -/
theorem setQueryingState_idle {p : MyProtocol} (hp : w.conn.protocol=some p) (hs : p.state=.IDLE) :
    setQueryingState w=.done false (w.setProtocol {p with state := .QUERYING}) := by
  unfold setQueryingState
  rw [hp]
  dsimp only
  rw [hs]

/-- A fatal error on a connection that is in use is thrown. -/
theorem rethrowErrorIfFatal_throws {α : Type} {e : Error} {r : Option α} :
    rethrowErrorIfFatal e false w≠.done r w' := by
  intro h
  unfold rethrowErrorIfFatal at h
  rw [branch_apply] at h
  split at h <;> obtain ⟨_,_,_,hf⟩ := bind_eq_done.mp h
  · cases hf
  · rw [branch_apply,if_neg Bool.false_ne_true] at hf
    cases hf

/-- On a connection that is in use an attempt is concluded with a result. -/
theorem conclude_some {command : Option Command} {attempt : Attempt} {void : Bool} {r : Option Unit}
    (h : conclude command attempt void false w=.done r w') : r=some () := by
  unfold conclude at h
  cases ha : attempt.1 with
  | none =>
    rw [ha] at h
    obtain ⟨_,_,_,hr⟩ := bind_eq_done.mp h
    cases hr
    rfl
  | some e =>
    rw [ha] at h
    exact absurd h rethrowErrorIfFatal_throws

/-- On a connection that is in use a query ends with a result. -/
theorem queryLoop_some {void retryLockWaitTimeout : Bool} {n : ℕ} {source : Source} {r : Option Unit}
    (h : queryLoop void false retryLockWaitTimeout n source w=.done r w') : r=some () := by
  induction n generalizing source w with
  | zero =>
    obtain ⟨_,_,_,hc⟩ := bind_eq_done.mp h
    exact conclude_some hc
  | succ n ih =>
    obtain ⟨_,_,_,hc⟩ := bind_eq_done.mp h
    rw [branch_apply] at hc
    split at hc
    · exact ih hc
    · exact conclude_some hc

/-- On a connection that is in use a batch ends with a result. -/
theorem threeLoop_some {ignorePrequeryError void retryLockWaitTimeout : Bool} {n : ℕ}
    {preStmt : Option PreStmt} {prequery : Option Sql} {source : Source} {r : Option Unit}
    (h : threeLoop ignorePrequeryError void false retryLockWaitTimeout n preStmt prequery source w=
      .done r w') : r=some () := by
  induction n generalizing preStmt prequery source w with
  | zero =>
    obtain ⟨_,_,_,hc⟩ := bind_eq_done.mp h
    exact conclude_some hc
  | succ n ih =>
    obtain ⟨_,_,_,hc⟩ := bind_eq_done.mp h
    rw [branch_apply] at hc
    split at hc
    · exact ih hc
    · exact conclude_some hc

/-- A query is given up only on a connection that was just taken from the pool. -/
theorem sendComQuery_none {source : Source} {void letReturnUndefined : Bool} {options : RetryOptions}
    (h : sendComQuery source void letReturnUndefined options w=.done none w') : w.IsFromPool := by
  obtain ⟨isFromPool,t,hq,hl⟩ := bind_eq_done.mp h
  cases isFromPool with
  | true => exact setQueryingState_true hq
  | false => exact absurd (queryLoop_some hl) (Option.some_ne_none _).symm

/-- A batch is given up only on a connection that was just taken from the pool. -/
theorem sendThreeQueries_none {preStmt : Option PreStmt} {prequery : Option Sql} {source : Source}
    {ignorePrequeryError void letReturnUndefined : Bool} {options : RetryOptions}
    (h : sendThreeQueries preStmt prequery ignorePrequeryError source void letReturnUndefined options w=
      .done none w') : w.IsFromPool := by
  obtain ⟨isFromPool,t,hq,hl⟩ := bind_eq_done.mp h
  cases isFromPool with
  | true => exact setQueryingState_true hq
  | false => exact absurd (threeLoop_some hl) (Option.some_ne_none _).symm

/-- A statement is given up only on a connection that was just taken from the pool. -/
theorem sendComStmtPrepare_none {source : Source} {letReturnUndefined : Bool}
    (h : sendComStmtPrepare source letReturnUndefined w=.done none w') : w.IsFromPool := by
  obtain ⟨isFromPool,t,hq,hl⟩ := bind_eq_done.mp h
  cases isFromPool with
  | true => exact setQueryingState_true hq
  | false =>
    obtain ⟨initDb,u,hi,hs⟩ := bind_eq_done.mp hl
    cases hsql : source.sql with
    | none =>
      rw [hsql] at hs
      exact absurd hs rethrowErrorIfFatal_throws
    | some sql =>
      rw [hsql] at hs
      obtain ⟨_,_,_,hs⟩ := bind_eq_done.mp hs
      obtain ⟨_,_,_,hs⟩ := bind_eq_done.mp hs
      obtain ⟨early,_,_,hs⟩ := bind_eq_done.mp hs
      obtain ⟨answer,_,_,hs⟩ := bind_eq_done.mp hs
      cases he : answer.error.or early with
      | none =>
        rw [he] at hs
        obtain ⟨_,_,_,hs⟩ := bind_eq_done.mp hs
        cases hs
      | some e =>
        rw [he] at hs
        exact absurd hs rethrowErrorIfFatal_throws

end FirstUse

end SpiritMysql.Conn
