import SpiritMysql.Reconnect
import SpiritMysql.CommandFrame

/-!
# Dead connections of the pool

Idle connections of the pool can turn out to be dead when they are first used. The
loop of a query gives each of them up, and goes on with the pending commands, the XA id
of the first one, and the schema that the last one reported.
-/

namespace SpiritMysql.Conn

open AsyncAction Errors Protocol TrxStore EventSystem

/-- The log only grows, and no connection is taken. -/
def Grows (w w' : World) : Prop := w.log <+: w'.log ∧ w'.supply=w.supply

namespace Grows

/-- Nothing happens. -/
theorem refl (w : World) : Grows w w := ⟨List.prefix_refl _,rfl⟩

/-- One thing after another. -/
theorem trans (s t u : World) (h : Grows s t) (h' : Grows t u) : Grows s u :=
  ⟨h.1.trans h'.1,h'.2.trans h.2⟩

/-- The commands only add to the log. -/
theorem respects : Respects Grows (fun _ => True) (fun _ => True) where
  refl := refl
  trans := trans
  initDb _ := trivial
  send c _ w := by
    unfold Conn.send
    split
    · exact ⟨List.prefix_append _ _,rfl⟩
    · exact refl w
  receive c _ w := by
    unfold Conn.receive
    split
    · split_ifs
      · exact refl w
      · split
        · exact ⟨List.prefix_append _ _,rfl⟩
        · exact refl w
    · exact refl w
  schema w p _ := refl w
  update w p q _ _ _ _ := refl w

/-- What changes fields of the object adds nothing. -/
theorem setConn (f : World → MyConn) :
    Always Grows (modify fun w => {w with conn := f w} : Op Unit) := fun w => refl w

/-- A prepared statement is executed. -/
theorem execStmt (stmtId : ℕ) (values : List Value) (void : Bool) :
    Always Grows (Conn.execStmt stmtId values void) := by
  refine respects.bind respects.setQueryingState (fun _ => ?_)
  refine respects.bind (respects.send _ trivial) (fun _ => respects.bind (respects.receive _ trivial)
    (fun a => ?_))
  cases a.error with
  | none =>
    refine respects.bind (respects.setStateAfter (Or.inr (fun _ _ => trivial)) a) (fun _ => ?_)
    exact Always.doWhen refl (fun w => respects.discard (fun _ _ _ _ => trivial))
  | some e => exact respects.rethrowError e

/-- The statement for named parameters. -/
theorem namedStmt (n : ℕ) (letReturnUndefined : Bool) :
    Always Grows (Conn.namedStmt n letReturnUndefined) := by
  refine respects.bind respects.get (fun w => ?_)
  cases (w.conn.preparedStmtsForParams[(n-1)/8]?).join with
  | some stmtId => exact respects.pure _
  | none =>
    refine respects.bind (respects.sendComStmtPrepare (fun _ _ => trivial) _) (fun r => ?_)
    cases r with
    | none => exact respects.pure _
    | some stmtId => exact respects.bind (setConn _) (fun _ => respects.pure _)

/-- Every source can be sent. -/
theorem sends (source : Source) : Respects.Sends (fun _ => True) source := ⟨fun _ _ => trivial,fun _ _ => trivial⟩

/-- `sendComQuery()`. -/
theorem sendComQuery (source : Source) (void letReturnUndefined : Bool) (options : RetryOptions) :
    Always Grows (Conn.sendComQuery source void letReturnUndefined options) :=
  respects.sendComQuery (sends source) (Or.inr (fun _ _ => trivial)) _ _

/-- `sendComStmtPrepare()`. -/
theorem sendComStmtPrepare (source : Source) (letReturnUndefined : Bool) :
    Always Grows (Conn.sendComStmtPrepare source letReturnUndefined) :=
  respects.sendComStmtPrepare (fun _ _ => trivial) _

/-- The query after the pending commands. -/
theorem sendQuery (q : Query) (source : Source) (letReturnUndefined : Bool) :
    Always Grows (Conn.sendQuery q source letReturnUndefined) := by
  refine respects.bind respects.get (fun w => ?_)
  cases q.params with
  | none => exact respects.bind (sendComQuery _ _ _ _) (fun _ => respects.pure _)
  | prepare =>
    exact Always.ite (respects.fail _)
      (respects.bind (sendComStmtPrepare _ _) (fun _ => respects.pure _))
  | positional values =>
    refine Always.ite (respects.fail _) (respects.bind (sendComStmtPrepare _ _) (fun r => ?_))
    cases r with
    | none => exact respects.pure _
    | some stmtId => exact respects.bind (execStmt _ _ _) (fun _ => respects.pure _)
  | named params =>
    cases params with
    | nil => exact respects.bind (sendComQuery _ _ _ _) (fun _ => respects.pure _)
    | cons x xs =>
      refine Always.ite (respects.fail _) (respects.bind (namedStmt _ _) (fun r => ?_))
      cases r with
      | none => exact respects.pure _
      | some stmtId =>
        refine respects.bind (respects.sendThreeQueries (fun _ _ => trivial) (fun _ _ => trivial)
          (sends source) (Or.inr (fun _ _ => trivial)) _ _ _) (fun _ => respects.pure _)

/-- The pending commands. -/
theorem flushPending (pending : List (Option Sql)) (n : ℕ) :
    Always Grows (Conn.flushPending pending n) := by
  induction pending generalizing n with
  | nil => exact respects.pure _
  | cons x rest ih =>
    have happend : Always Grows appendConn := by
      intro w
      simp only [appendConn,modify_apply,Outcome.state]
      split
      · exact refl w
      · exact refl w
    refine respects.bind (Always.doWhen refl happend) (fun _ => respects.bind respects.get (fun w => ?_))
    refine respects.bind (sendComQuery _ _ _ _) (fun r => ?_)
    cases r with
    | none => exact respects.pure _
    | some _ => exact ih _

/-- `end()`. -/
theorem doEnd (w : World) (noResetPending : Bool) : Grows w (w.doEnd noResetPending none) := by
  unfold World.doEnd
  cases w.conn.protocol <;> exact refl w

/-- One iteration of the loop of a query. -/
theorem queryOnce (q : Query) (source : Source) (n : ℕ) : Always Grows (Conn.queryOnce q source n) := by
  refine respects.bind respects.get (fun w => respects.bind (flushPending _ _) (fun r => ?_))
  cases r with
  | none => exact respects.bind (fun w => doEnd w true) (fun _ => respects.pure _)
  | some n =>
    refine respects.bind (setConn _) (fun _ => respects.bind (sendQuery _ _ _) (fun left => ?_))
    cases left with
    | none => exact respects.pure _
    | some source => exact respects.bind (fun w => doEnd w false) (fun _ => respects.pure _)

/-- What was executed is a beginning of what is executed in the end. -/
theorem executed {w w' : World} (h : Grows w w') (a : String) : w.executed a <+: w'.executed a := by
  obtain ⟨⟨rest,hrest⟩,_⟩ := h
  have hgrow : ∀ (entries : List Entry) (t : String×List (String×Command)),
      t.2 <+: (entries.foldl track t).2 := by
    intro entries
    induction entries with
    | nil => exact fun t => List.prefix_refl _
    | cons e entries ih =>
      intro t
      refine List.IsPrefix.trans ?_ (ih (track t e))
      unfold track
      split
      · exact List.prefix_refl _
      · split_ifs <;> exact List.prefix_refl _
      · exact List.prefix_append _ _
  unfold World.executed World.tracked
  rw [←hrest,tracked_append]
  exact hgrow rest _

end Grows

/-- Entries of commands that were written, and not answered. -/
def OnlySent (entries : List Entry) : Prop := ∀ e ∈ entries,∃ id c,e=.sent id c

/-- More entries in the log. -/
def World.logged (w : World) (entries : List Entry) : World := {w with log := w.log++entries}

/-- A connection that failed when it was first used. -/
def World.failed (w : World) (p : MyProtocol) (entries : List Entry) : World :=
  (w.setProtocol {p with state := .ERROR,pendingChangeSchema := ""}).logged entries

/-- Commands without an answer are not executed. -/
theorem OnlySent.tracked {w : World} {entries : List Entry} (h : OnlySent entries) (a : String) :
    (w.logged entries).tracked a=w.tracked a := by
  have hfold : ∀ (entries : List Entry) (t : String×List (String×Command)),OnlySent entries →
      entries.foldl track t=t := by
    intro entries
    induction entries with
    | nil => exact fun t _ => rfl
    | cons e entries ih =>
      intro t h
      obtain ⟨id,c,rfl⟩ := h e List.mem_cons_self
      exact ih t (fun e he => h e (List.mem_cons_of_mem _ he))
  unfold World.tracked World.logged
  rw [tracked_append,hfold entries _ h]

section Dead

variable {w : World} {p : MyProtocol}

/-- A command is written to a connection. -/
theorem send_logged (hp : w.conn.protocol=some p) (c : Command) :
    send c w=.done () (w.logged [.sent p.connectionId c]) := by
  unfold send
  rw [hp]
  rfl

/-- From a dead connection nothing arrives. -/
theorem receive_dead (hp : w.conn.protocol=some p) (ha : p.isAlive=false) (c : Command) :
    receive c w=.done .lost w := by
  unfold receive
  rw [hp]
  dsimp only
  rw [if_pos ha]

/-- The schema is written to a dead connection. -/
theorem sendInitDb_logged (hp : w.conn.protocol=some p) (initDb : Option String) :
    ∃ entries,OnlySent entries ∧ sendInitDb initDb w=.done () (w.logged entries) := by
  cases initDb with
  | none =>
    refine ⟨[],(fun e he => by cases he),?_⟩
    unfold World.logged
    rw [List.append_nil]
    rfl
  | some schema =>
    refine ⟨_,?_,send_logged hp _⟩
    intro e he
    obtain rfl := List.mem_singleton.mp he
    exact ⟨_,_,rfl⟩

/-- The error that a dead connection gives. -/
theorem readInitDb_dead (hp : w.conn.protocol=some p) (ha : p.isAlive=false) (initDb : Option String) :
    ∃ early : Option Error,readInitDb initDb w=.done early w ∧ ∀ e,early=some e → e.isSql=false := by
  cases initDb with
  | none => exact ⟨none,rfl,fun e he => by cases he⟩
  | some schema =>
    refine ⟨Answer.lost.error,?_,fun e he => by cases he; rfl⟩
    show (receive (.initDb schema) w).andThen (fun answer => pure answer.error)=_
    rw [receive_dead hp ha]
    rfl

/-- What is written to a dead connection, with the error about the schema. -/
theorem sendBoth_dead (hp : w.conn.protocol=some p) (ha : p.isAlive=false) (initDb : Option String)
    (c : Command) : ∃ entries early,OnlySent entries ∧ (∀ e : Error,early=some e → e.isSql=false) ∧
      ∀ {α : Type} (f : Option Error → Op α),(do
        sendInitDb initDb
        send c
        let early ← readInitDb initDb
        f early : Op α) w=f early (w.logged entries) := by
  obtain ⟨entries,hsent,hs⟩ := sendInitDb_logged hp initDb
  have hw : ∀ L : List Entry,(w.logged L).conn.protocol=some p := fun _ => hp
  have hlog : World.logged (w.logged entries) [.sent p.connectionId c]=
      w.logged (entries++[.sent p.connectionId c]) := by
    unfold World.logged
    rw [List.append_assoc]
  obtain ⟨early,he,hfatal⟩ := readInitDb_dead (hw (entries++[.sent p.connectionId c])) ha initDb
  refine ⟨entries++[.sent p.connectionId c],early,?_,hfatal,fun f => ?_⟩
  · intro e he
    rcases List.mem_append.mp he with he | he
    · exact hsent e he
    · obtain rfl := List.mem_singleton.mp he
      exact ⟨_,_,rfl⟩
  · rw [bind_apply,hs,Outcome.andThen_done,bind_apply,send_logged (hw entries),Outcome.andThen_done,
      hlog,bind_apply,he,Outcome.andThen_done]

/-- A query on a dead connection. -/
theorem exchange_dead (hp : w.conn.protocol=some p) (ha : p.isAlive=false) (source : Source)
    (void : Bool) : ∃ entries e,OnlySent entries ∧ Error.isSql e=false ∧
      exchange source void w=
        .done (some e,.lost) (World.logged (w.setProtocol {p with pendingChangeSchema := ""}) entries) := by
  unfold exchange
  rw [bind_apply,maybeInitDb_done hp,Outcome.andThen_done]
  cases source.sql with
  | none =>
    refine ⟨[],endOfStream,(fun e he => by cases he),rfl,?_⟩
    unfold World.logged
    rw [List.append_nil]
    rfl
  | some sql =>
    have hw : (w.setProtocol {p with pendingChangeSchema := ""}).conn.protocol=
        some {p with pendingChangeSchema := ""} := rfl
    obtain ⟨entries,early,hsent,hfatal,hboth⟩ := sendBoth_dead hw ha p.initDb (.query sql)
    have hw' : (World.logged (w.setProtocol {p with pendingChangeSchema := ""}) entries).conn.protocol=
        some {p with pendingChangeSchema := ""} := rfl
    refine ⟨entries,early.getD serverDisconnected,hsent,?_,?_⟩
    · cases early with
      | none => rfl
      | some e => exact hfatal e rfl
    · dsimp only
      rw [hboth,readResults,bind_apply,bind_apply,receive_dead hw' ha]
      cases early <;> rfl

/-- An error of another kind on a connection of the pool is not thrown. -/
theorem rethrow_dead {α : Type} {e : Error} (he : e.isSql=false) (hp : w.conn.protocol=some p) :
    (rethrowErrorIfFatal e true : Op (Option α)) w=.done none (w.setProtocol {p with state := .ERROR}) := by
  unfold rethrowErrorIfFatal
  rw [branch_apply,if_neg (by rw [he]; exact Bool.false_ne_true),bind_apply]
  simp only [setState,modify_apply,hp,Outcome.andThen_done]
  rfl

/-- The loop of a query on a dead connection of the pool. -/
theorem queryLoop_dead (hp : w.conn.protocol=some p) (ha : p.isAlive=false) (source : Source)
    (void retryLockWaitTimeout : Bool) (n : ℕ) : ∃ entries,OnlySent entries ∧
      queryLoop void true retryLockWaitTimeout n source w=.done none (w.failed p entries) := by
  obtain ⟨entries,e,hsent,he,hx⟩ := exchange_dead hp ha source void
  have hconclude : conclude source.command (some e,.lost) void true
      (World.logged (w.setProtocol {p with pendingChangeSchema := ""}) entries)=
        .done none (w.failed p entries) :=
    rethrow_dead (p:={p with pendingChangeSchema := ""})
      (w:=World.logged (w.setProtocol {p with pendingChangeSchema := ""}) entries) he rfl
  refine ⟨entries,hsent,?_⟩
  cases n with
  | zero =>
    unfold queryLoop
    rw [bind_apply,hx,Outcome.andThen_done,hconclude]
  | succ n =>
    have hretry : isRetriable retryLockWaitTimeout (some e,.lost)=false := by
      cases e with
      | sql e => cases he
      | _ => rfl
    unfold queryLoop
    rw [bind_apply,hx,Outcome.andThen_done,branch_apply,
      if_neg (by rw [hretry]; exact Bool.false_ne_true),hconclude]

/-- A connection of the pool is taken for a query. -/
theorem setQueryingState_pool (hp : w.conn.protocol=some p) (hs : p.state=.IDLE_IN_POOL) :
    setQueryingState w=.done true (w.setProtocol {p with state := .QUERYING}) := by
  unfold setQueryingState
  rw [hp]
  dsimp only
  rw [hs]

/-- `sendComQuery()` on a dead connection of the pool. -/
theorem sendComQuery_dead (hp : w.conn.protocol=some p) (hs : p.state=.IDLE_IN_POOL)
    (ha : p.isAlive=false) (source : Source) (void : Bool) (options : RetryOptions) :
    ∃ entries,OnlySent entries ∧
      sendComQuery source void true options w=.done none (w.failed p entries) := by
  have hw : (w.setProtocol {p with state := .QUERYING}).conn.protocol=some {p with state := .QUERYING} := rfl
  obtain ⟨entries,hsent,hl⟩ := queryLoop_dead hw ha source void options.retryLockWaitTimeout
    options.retryQueryTimes
  refine ⟨entries,hsent,?_⟩
  unfold sendComQuery
  rw [bind_apply,setQueryingState_pool hp hs,Outcome.andThen_done]
  exact hl

/-- `sendComStmtPrepare()` on a dead connection of the pool. -/
theorem sendComStmtPrepare_dead (hp : w.conn.protocol=some p) (hs : p.state=.IDLE_IN_POOL)
    (ha : p.isAlive=false) (source : Source) : ∃ entries,OnlySent entries ∧
      sendComStmtPrepare source true w=.done none (w.failed p entries) := by
  have hw : (w.setProtocol {p with state := .QUERYING}).conn.protocol=some {p with state := .QUERYING} := rfl
  unfold sendComStmtPrepare
  rw [bind_apply,setQueryingState_pool hp hs,Outcome.andThen_done,bind_apply,maybeInitDb_done hw,
    Outcome.andThen_done]
  cases source.sql with
  | none =>
    refine ⟨[],(fun e he => by cases he),?_⟩
    have hr := rethrow_dead (α:=ℕ) (e:=endOfStream) (p:={p with state := .QUERYING,pendingChangeSchema := ""})
      (w:=w.setProtocol {p with state := .QUERYING,pendingChangeSchema := ""}) rfl rfl
    unfold World.failed World.logged
    rw [List.append_nil]
    exact hr
  | some sql =>
    have hw' : (w.setProtocol {p with state := .QUERYING,pendingChangeSchema := ""}).conn.protocol=
        some {p with state := .QUERYING,pendingChangeSchema := ""} := rfl
    obtain ⟨entries,early,hsent,_,hboth⟩ := sendBoth_dead hw' ha p.initDb (.stmtPrepare sql)
    have hw₂ : (World.logged (w.setProtocol {p with state := .QUERYING,pendingChangeSchema := ""})
        entries).conn.protocol=some {p with state := .QUERYING,pendingChangeSchema := ""} := rfl
    refine ⟨entries,hsent,?_⟩
    refine (hboth _).trans ?_
    rw [bind_apply,receive_dead hw₂ ha,Outcome.andThen_done]
    exact rethrow_dead (α:=ℕ) (e:=serverDisconnected)
      (p:={p with state := .QUERYING,pendingChangeSchema := ""})
      (w:=World.logged (w.setProtocol {p with state := .QUERYING,pendingChangeSchema := ""}) entries) rfl rfl

end Dead

/-- A query that is refused before anything of it is sent. -/
def Query.isRefused (q : Query) : Bool :=
  match q.params with
  | .prepare => q.multiStatements
  | .positional _ => q.multiStatements
  | .named params => decide (0xFFFF < params.length)
  | .none => false

/-- A query with named parameters. -/
def Query.isNamed (q : Query) : Bool :=
  match q.params with
  | .named params => !params.isEmpty
  | _ => false

/-- The id of the connection is appended to the XA id, when that was put off. -/
def MyConn.named (c : MyConn) (connectionId : ℕ) : MyConn :=
  if c.pendingTrxSql.head?=some none ∧ c.curXaIdAppendConn=true then
    {c with curXaId := c.curXaId++toString connectionId,curXaIdAppendConn := false}
  else c

/-- Other fields do not matter for the XA id. -/
theorem named_with (c : MyConn) (connectionId : ℕ) (protocol : Option MyProtocol) (schema : String) :
    ({c with protocol := protocol,pendingChangeSchema := schema} : MyConn).named connectionId=
      {c.named connectionId with protocol := protocol,pendingChangeSchema := schema} := by
  unfold MyConn.named
  dsimp only
  by_cases h : c.pendingTrxSql.head?=some none ∧ c.curXaIdAppendConn=true
  · rw [if_pos h,if_pos h]
  · rw [if_neg h,if_neg h]

/-- A connection object that took no connection yet. -/
structure Waiting (w : World) : Prop where
  /-- There is no connection. -/
  protocol : w.conn.protocol=none
  /-- None is being taken. -/
  connecting : w.conn.isConnecting=false
  /-- The object can be used. -/
  disposed : w.conn.isDisposed=false
  /-- No transaction is prepared. -/
  prepared : w.conn.isXaPrepared=false
  /-- No statement is prepared. -/
  stmts : w.conn.preparedStmtsForParams=[]
  /-- Without pending commands there is no distributed transaction. -/
  free : w.conn.pendingTrxSql=[] → w.conn.curXaId="" ∧ w.conn.curXaIdAppendConn=false
  /-- Only the first pending command can have no text yet. -/
  texts : none ∉ w.conn.pendingTrxSql.tail
  /-- The id of the connection is to be appended to the first pending command. -/
  appends : w.conn.curXaIdAppendConn=true → w.conn.pendingTrxSql.head?=some none
  /-- Nothing was executed. -/
  tracked : ∀ a,w.tracked a=(a,[])

/-- The object after a dead connection was given up. -/
structure Passed (w w' : World) (connectionId : ℕ) (schema : String) (rest : List Supply) : Prop where
  /-- The object wants the schema that the connection reported. -/
  conn : w'.conn={w.conn.named connectionId with savepointEnum := 0,pendingChangeSchema := schema}
  /-- The connections that can be taken now. -/
  supply : w'.supply=rest
  /-- What surrounds the object. -/
  around : w'.server=w.server ∧ w'.answers=w.answers ∧ w'.dsnSchema=w.dsnSchema ∧
    w'.retryLockWaitTimeout=w.retryLockWaitTimeout

/-- What remains of the source after a dead connection. -/
def World.sourceAfter (w : World) (q : Query) (source : Source) : Source :=
  if w.conn.pendingTrxSql=[] ∧ q.isNamed=false then source.rest else source

/-- The connection that is taken. -/
def Supply.take (dsnSchema pendingChangeSchema : String) : Supply → Option MyProtocol
  | .pooled p stolen => some (p.fromPool (wantedSchema dsnSchema pendingChangeSchema stolen))
  | .opened p leaves =>
    some (p.opened (if pendingChangeSchema="" then dsnSchema else pendingChangeSchema) leaves)
  | .failed _ => none

/-- The object after a connection was taken. -/
def World.took (w : World) (p : MyProtocol) (rest : List Supply) : World :=
  {w with supply := rest,conn := {w.conn with pendingChangeSchema := "",protocol := some p}}

/-- `connect()` takes the first connection. -/
theorem connect_took {w : World} (hw : Waiting w) {s : Supply} {rest : List Supply}
    (hs : w.supply=s::rest) {p : MyProtocol}
    (hp : s.take w.dsnSchema w.conn.pendingChangeSchema=some p) : connect w=.done () (w.took p rest) := by
  unfold connect
  rw [if_neg (by rw [hw.connecting]; exact Bool.false_ne_true),hw.protocol]
  dsimp only
  rw [if_neg (by rw [hw.disposed]; exact Bool.false_ne_true),hs]
  cases s with
  | failed e => cases hp
  | _ =>
    cases hp
    rfl

section DeadQuery

variable {w : World} {p : MyProtocol} {q : Query}

/-- A statement for named parameters is prepared, when there is none yet. -/
theorem namedStmt_fresh (hstmts : w.conn.preparedStmtsForParams=[]) (n : ℕ)
    (letReturnUndefined : Bool) :
    namedStmt n letReturnUndefined w=((do
      let stmtId ← sendComStmtPrepare (.text (.placeholders (nPlaceholders n))) letReturnUndefined
      match stmtId with
      | some stmtId =>
        modify fun w => {w with conn := w.conn.rememberStmt ((n-1)/8) stmtId}
        return some stmtId
      | none => return none) : Op (Option ℕ)) w := by
  unfold namedStmt
  rw [bind_apply,get_apply,Outcome.andThen_done,hstmts]
  rfl

/-- The query itself on a dead connection of the pool. -/
theorem sendQuery_dead (hp : w.conn.protocol=some p) (hs : p.state=.IDLE_IN_POOL)
    (ha : p.isAlive=false) (hstmts : w.conn.preparedStmtsForParams=[]) (hq : q.isRefused=false)
    (source : Source) : ∃ entries,OnlySent entries ∧
      sendQuery q source true w=
        .done (some (if q.isNamed=true then source else source.rest)) (w.failed p entries) := by
  have htext : ∃ entries,OnlySent entries ∧
      (do
        let done ← sendComQuery source q.void true (q.options w)
        return leftOver done source.rest : Op (Option Source)) w=
          .done (some source.rest) (w.failed p entries) := by
    obtain ⟨entries,hsent,hx⟩ := sendComQuery_dead hp hs ha source q.void (q.options w)
    refine ⟨entries,hsent,?_⟩
    rw [bind_apply,hx]
    rfl
  obtain ⟨entries,hsent,hx⟩ := sendComStmtPrepare_dead hp hs ha source
  obtain ⟨sql,params,void,lock,times,multiStatements⟩ := q
  unfold sendQuery
  rw [bind_apply,get_apply,Outcome.andThen_done]
  cases params with
  | none => exact htext
  | prepare =>
    have hmulti : multiStatements=false := hq
    refine ⟨entries,hsent,?_⟩
    dsimp only
    rw [branch_apply,if_neg (by rw [hmulti]; exact Bool.false_ne_true),bind_apply,hx]
    rfl
  | positional values =>
    have hmulti : multiStatements=false := hq
    refine ⟨entries,hsent,?_⟩
    dsimp only
    rw [branch_apply,if_neg (by rw [hmulti]; exact Bool.false_ne_true),bind_apply,hx]
    rfl
  | named params =>
    cases params with
    | nil => exact htext
    | cons x xs =>
      have hlength : decide (0xFFFF < (x::xs).length)=false := hq
      obtain ⟨entries,hsent,hx⟩ := sendComStmtPrepare_dead hp hs ha
        (.text (.placeholders (nPlaceholders (x::xs).length)))
      refine ⟨entries,hsent,?_⟩
      have hnamed : namedStmt (x::xs).length true w=.done none (w.failed p entries) := by
        rw [namedStmt_fresh hstmts,bind_apply,hx]
        rfl
      dsimp only
      rw [branch_apply,if_neg (of_decide_eq_false hlength),bind_apply,hnamed]
      rfl

/-- The id of the connection is appended before the first pending command. -/
theorem appendConn_named (hp : w.conn.protocol=some p) (x : Option Sql) (rest : List (Option Sql))
    (hpending : w.conn.pendingTrxSql=x::rest) :
    doWhen (x=none) appendConn w=.done () {w with conn := w.conn.named p.connectionId} := by
  unfold doWhen MyConn.named
  rw [branch_apply,hpending]
  cases x with
  | some sql =>
    rw [if_neg (Option.some_ne_none sql),if_neg (fun h => by cases h.1)]
    rfl
  | none =>
    rw [if_pos rfl]
    simp only [appendConn,modify_apply,hp,Option.map_some,Option.getD_some]
    by_cases h : w.conn.curXaIdAppendConn=true
    · rw [if_pos h,if_pos ⟨rfl,h⟩,hpending]
    · rw [if_neg h,if_neg (fun hh => h hh.2)]

/-- The pending commands on a dead connection of the pool. -/
theorem flushPending_dead (hp : w.conn.protocol=some p) (hs : p.state=.IDLE_IN_POOL)
    (ha : p.isAlive=false) (x : Option Sql) (rest : List (Option Sql))
    (hpending : w.conn.pendingTrxSql=x::rest) {n : ℕ} (hn : 0 < n) :
    ∃ entries,OnlySent entries ∧ flushPending (x::rest) n w=
      .done none (World.failed {w with conn := w.conn.named p.connectionId} p entries) := by
  have happend := appendConn_named hp x rest hpending
  have hw : (w.conn.named p.connectionId).protocol=some p := by
    unfold MyConn.named
    split
    · exact hp
    · exact hp
  unfold flushPending
  rw [bind_apply,happend,Outcome.andThen_done,bind_apply,get_apply,Outcome.andThen_done]
  obtain ⟨entries,hsent,hx⟩ := sendComQuery_dead
    (w:={w with conn := w.conn.named p.connectionId}) hw hs ha
    (.text (x.getD (.xaStart (w.conn.named p.connectionId).curXaId))) true
    (World.retryOptions {w with conn := w.conn.named p.connectionId})
  refine ⟨entries,hsent,?_⟩
  rw [bind_apply,decide_eq_true hn,hx]
  rfl

/-- The object after a dead connection of the pool was given up. -/
theorem passed (hw : Waiting w) {rest : List Supply} {entries : List Entry}
    (hsent : OnlySent entries) {f : MyProtocol} (hid : f.schema=p.schema) (noResetPending : Bool)
    (hreset : noResetPending=false → w.conn.pendingTrxSql=[]) {u : World}
    (hconn : u.conn={(w.conn.named p.connectionId) with
      protocol := some f,pendingChangeSchema := ""}) (hsupply : u.supply=rest)
    (haround : u.server=w.server ∧ u.answers=w.answers ∧ u.dsnSchema=w.dsnSchema ∧
      u.retryLockWaitTimeout=w.retryLockWaitTimeout) (hlog : u.log=w.log++entries) :
    Passed w (u.doEnd noResetPending none) p.connectionId p.schema rest ∧
      Waiting (u.doEnd noResetPending none) := by
  have hfields : (w.conn.named p.connectionId).protocol=none ∧
      (w.conn.named p.connectionId).isConnecting=false ∧ (w.conn.named p.connectionId).isXaPrepared=false ∧
      (w.conn.named p.connectionId).preparedStmtsForParams=[] ∧
      (w.conn.named p.connectionId).isDisposed=false ∧
      (w.conn.named p.connectionId).pendingTrxSql=w.conn.pendingTrxSql := by
    unfold MyConn.named
    split <;> exact ⟨hw.protocol,hw.connecting,hw.prepared,hw.stmts,hw.disposed,rfl⟩
  have hfree : w.conn.pendingTrxSql=[] → (w.conn.named p.connectionId).curXaId="" ∧
      (w.conn.named p.connectionId).curXaIdAppendConn=false := by
    intro hp
    unfold MyConn.named
    rw [if_neg (by rw [hp]; exact fun h => by cases h.1)]
    exact hw.free hp
  have hprotocol : u.conn.protocol=some f := by
    rw [hconn]
  have htexts := hw.texts
  have happends : (w.conn.named p.connectionId).curXaIdAppendConn=false := by
    unfold MyConn.named
    split
    · rfl
    · rename_i hn
      exact Bool.eq_false_iff.mpr (fun ha => hn ⟨hw.appends ha,ha⟩)
  generalize hc : w.conn.named p.connectionId=c at hconn hfields hfree happends
  have hend : (u.doEnd noResetPending none).conn={c with
      savepointEnum := 0,pendingChangeSchema := p.schema} := by
    obtain ⟨protocol,connecting,points,xaId,append,prepared,pendingSchema,pending,stmts,disposed⟩ := c
    dsimp only at hfields
    obtain ⟨rfl,rfl,rfl,rfl,rfl,hpending⟩ := hfields
    unfold World.doEnd
    rw [hprotocol]
    dsimp only
    rw [hconn,hid]
    cases noResetPending with
    | true => rfl
    | false =>
      have hnone := hreset rfl
      obtain ⟨hx,ha⟩ := hfree hnone
      dsimp only at hx ha
      subst hx ha
      rw [hpending,hnone]
      rfl
  have hkeep : (u.doEnd noResetPending none).supply=u.supply ∧
      (u.doEnd noResetPending none).server=u.server ∧ (u.doEnd noResetPending none).answers=u.answers ∧
      (u.doEnd noResetPending none).dsnSchema=u.dsnSchema ∧
      (u.doEnd noResetPending none).retryLockWaitTimeout=u.retryLockWaitTimeout ∧
      (u.doEnd noResetPending none).log=u.log := by
    unfold World.doEnd
    rw [hprotocol]
    exact ⟨rfl,rfl,rfl,rfl,rfl,rfl⟩
  obtain ⟨hs,hserver,hanswers,hdsn,hlock,hl⟩ := hkeep
  obtain ⟨hprot,hconnecting,hprepared,hstmts,hdisposed,hpending⟩ := hfields
  refine ⟨⟨by rw [hc]; exact hend,hs.trans hsupply,hserver.trans haround.1,hanswers.trans haround.2.1,
    hdsn.trans haround.2.2.1,hlock.trans haround.2.2.2⟩,?_⟩
  refine ⟨?_,?_,?_,?_,?_,?_,?_,?_,?_⟩
  · rw [hend]
    exact hprot
  · rw [hend]
    exact hconnecting
  · rw [hend]
    exact hdisposed
  · rw [hend]
    exact hprepared
  · rw [hend]
    exact hstmts
  · rw [hend]
    exact fun h => hfree (hpending.symm.trans h)
  · rw [hend]
    dsimp only
    rw [hpending]
    exact htexts
  · rw [hend]
    exact fun ha => absurd (happends.symm.trans ha) Bool.false_ne_true
  · intro a
    have ht := hsent.tracked (w:=w) a
    unfold World.tracked World.logged at ht
    have hw' := hw.tracked a
    unfold World.tracked at hw' ⊢
    rw [hl,hlog,ht,hw']

/-- One iteration of the loop on a dead connection of the pool. -/
theorem queryOnce_dead (hw : Waiting w) {stolen : Bool} {rest : List Supply}
    (hsupply : w.supply=.pooled p stolen::rest) (ha : p.isAlive=false)
    (hq : w.conn.pendingTrxSql≠[] ∨ q.isRefused=false) {n : ℕ} (hn : 0 < n) (source : Source) :
    ∃ w',(do
        connect
        queryOnce q source n : Op (Option (Source×ℕ))) w=
          .done (some (w.sourceAfter q source,n-1)) w' ∧
      Passed w w' p.connectionId p.schema rest ∧ Waiting w' := by
  let fp := p.fromPool (wantedSchema w.dsnSchema w.conn.pendingChangeSchema stolen)
  have hconnect : connect w=.done () (w.took fp rest) := connect_took hw hsupply rfl
  have hp : (w.took fp rest).conn.protocol=some fp := rfl
  have hnamed : (w.took fp rest).conn.named fp.connectionId=
      {w.conn.named p.connectionId with protocol := some fp,pendingChangeSchema := ""} :=
    named_with w.conn fp.connectionId (some fp) ""
  rw [bind_apply,hconnect,Outcome.andThen_done]
  unfold queryOnce
  rw [bind_apply,get_apply,Outcome.andThen_done]
  have hpending : (w.took fp rest).conn.pendingTrxSql=w.conn.pendingTrxSql := rfl
  rw [hpending]
  cases hps : w.conn.pendingTrxSql with
  | cons x pending =>
    obtain ⟨entries,hsent,hx⟩ := flushPending_dead hp rfl ha x pending (hpending.trans hps) hn
    have hafter := passed (p:=p) (f:={fp with state := .ERROR,pendingChangeSchema := ""}) hw hsent rfl true
      (fun h => by cases h)
      (u:=World.failed {w.took fp rest with conn := (w.took fp rest).conn.named fp.connectionId} fp entries)
      (by rw [hnamed]; rfl) rfl ⟨rfl,rfl,rfl,rfl⟩ rfl
    refine ⟨_,?_,hafter⟩
    rw [bind_apply,hx]
    unfold World.sourceAfter
    rw [if_neg (by rw [hps]; exact fun h => by cases h.1)]
    rfl
  | nil =>
    have hq' : q.isRefused=false := hq.resolve_left (fun h => h hps)
    have hnone : w.conn.named p.connectionId=w.conn := by
      unfold MyConn.named
      rw [if_neg (by rw [hps]; exact fun h => by cases h.1)]
    have hcleared : ({(w.took fp rest).conn with pendingTrxSql := []} : MyConn)=(w.took fp rest).conn := by
      show ({(w.took fp rest).conn with pendingTrxSql := []} : MyConn)=
        {(w.took fp rest).conn with pendingTrxSql := w.conn.pendingTrxSql}
      rw [hps]
    obtain ⟨entries,hsent,hx⟩ := sendQuery_dead hp rfl ha hw.stmts hq' source
    have hafter := passed (p:=p) (f:={fp with state := .ERROR,pendingChangeSchema := ""}) hw hsent rfl false
      (fun _ => hps)
      (u:=World.failed (w.took fp rest) fp entries) (by rw [hnone]; rfl) rfl ⟨rfl,rfl,rfl,rfl⟩ rfl
    refine ⟨_,?_,hafter⟩
    have hflush : flushPending [] n (w.took fp rest)=.done (some n) (w.took fp rest) := rfl
    have hclear : ({w.took fp rest with conn := {(w.took fp rest).conn with pendingTrxSql := []}} : World)=
        w.took fp rest := by
      rw [hcleared]
    rw [bind_apply,hflush,Outcome.andThen_done]
    dsimp only
    rw [bind_apply,modify_apply,Outcome.andThen_done,hclear,bind_apply,decide_eq_true hn,hx]
    unfold World.sourceAfter
    rw [hps]
    cases hnamed : q.isNamed with
    | true => rfl
    | false => rfl

/-- The id of a connection is appended once only. -/
theorem named_named (c : MyConn) (i j n : ℕ) (schema : String) :
    ({c.named i with savepointEnum := n,pendingChangeSchema := schema} : MyConn).named j=
      {c.named i with savepointEnum := n,pendingChangeSchema := schema} := by
  have happend : ¬((c.named i).pendingTrxSql.head?=some none ∧ (c.named i).curXaIdAppendConn=true) := by
    unfold MyConn.named
    split
    · exact fun h => by cases h.2
    · assumption
  have hj : ∀ d : MyConn,¬(d.pendingTrxSql.head?=some none ∧ d.curXaIdAppendConn=true) → d.named j=d := by
    intro d hd
    unfold MyConn.named
    rw [if_neg hd]
  exact hj _ happend

/-- The id of the connection does not wait any more. -/
theorem Passed.appended {w' : World} {i : ℕ} {schema : String} {rest : List Supply}
    (h : Passed w w' i schema rest) (hw : Waiting w) : w'.conn.curXaIdAppendConn=false := by
  rw [h.conn]
  show (w.conn.named i).curXaIdAppendConn=false
  unfold MyConn.named
  split
  · rfl
  · rename_i hn
    exact Bool.eq_false_iff.mpr (fun ha => hn ⟨hw.appends ha,ha⟩)

/-- One dead connection after another. -/
theorem Passed.trans {w' w'' : World} {i j : ℕ} {schema schema' : String} {rest rest' : List Supply}
    (h : Passed w w' i schema rest) (h' : Passed w' w'' j schema' rest') :
    Passed w w'' i schema' rest' := by
  obtain ⟨hserver,hanswers,hdsn,hlock⟩ := h'.around
  refine ⟨?_,h'.supply,hserver.trans h.around.1,hanswers.trans h.around.2.1,
    hdsn.trans h.around.2.2.1,hlock.trans h.around.2.2.2⟩
  rw [h'.conn,h.conn,named_named]

/-- The pending commands are kept. -/
theorem Passed.pending {w' : World} {i : ℕ} {schema : String} {rest : List Supply}
    (h : Passed w w' i schema rest) : w'.conn.pendingTrxSql=w.conn.pendingTrxSql := by
  rw [h.conn]
  show (w.conn.named i).pendingTrxSql=_
  unfold MyConn.named
  split <;> rfl

/-- One iteration of the loop that finds a dead connection. -/
theorem queryIterations_one (hw : Waiting w) {stolen : Bool} {rest : List Supply}
    (hsupply : w.supply=.pooled p stolen::rest) (ha : p.isAlive=false)
    (hq : w.conn.pendingTrxSql≠[] ∨ q.isRefused=false) {n : ℕ} (hn : 0 < n) (m : ℕ) (source : Source) :
    ∃ w',queryIterations q (m+1) source n w=queryIterations q m (w.sourceAfter q source) (n-1) w' ∧
      Passed w w' p.connectionId p.schema rest ∧ Waiting w' := by
  obtain ⟨w',hx,hafter⟩ := queryOnce_dead hw hsupply ha hq hn source
  obtain ⟨_,u,hconnect,honce⟩ := bind_eq_done.mp hx
  refine ⟨w',?_,hafter⟩
  conv_lhs => unfold queryIterations
  rw [bind_apply,hconnect,Outcome.andThen_done,bind_apply,honce,Outcome.andThen_done]

/-- The loop passes all dead connections. -/
theorem queryIterations_dead (d : MyProtocol×Bool) (dead : List (MyProtocol×Bool)) {w : World}
    (hw : Waiting w) {rest : List Supply}
    (hsupply : w.supply=(d::dead).map (fun d => .pooled d.1 d.2)++rest)
    (ha : ∀ e ∈ d::dead,e.1.isAlive=false) (hq : w.conn.pendingTrxSql≠[] ∨ q.isRefused=false) {n : ℕ}
    (hn : (d::dead).length ≤ n) (m : ℕ) (source : Source) :
    ∃ w' n',queryIterations q ((d::dead).length+m) source n w=
        queryIterations q m (w.sourceAfter q source) n' w' ∧
      Passed w w' d.1.connectionId ((d::dead).getLast (List.cons_ne_nil d dead)).1.schema rest ∧
      Waiting w' := by
  induction dead generalizing d w n source with
  | nil =>
    obtain ⟨w',hx,hp,hw'⟩ := queryIterations_one hw hsupply (ha d List.mem_cons_self) hq
      (Nat.lt_of_lt_of_le Nat.zero_lt_one hn) m source
    refine ⟨w',n-1,?_,hp,hw'⟩
    rw [List.length_singleton,Nat.add_comm]
    exact hx
  | cons e dead ih =>
    have hn₁ : (e::dead).length+1 ≤ n := hn
    have hpos : 0 < n := by omega
    have hrest : (e::dead).length ≤ n-1 := by omega
    obtain ⟨w₁,hx,hp,hw₁⟩ := queryIterations_one hw hsupply (ha d List.mem_cons_self) hq hpos
      ((e::dead).length+m) source
    obtain ⟨w',n',hx',hp',hw'⟩ := ih e hw₁ hp.supply (fun f hf => ha f (List.mem_cons_of_mem _ hf))
      (hp.pending ▸ hq) hrest (w.sourceAfter q source)
    refine ⟨w',n',?_,?_,hw'⟩
    · have hlen : (d::e::dead).length+m=(e::dead).length+m+1 := by
        simp only [List.length_cons]
        omega
      have hsource : w₁.sourceAfter q (w.sourceAfter q source)=w.sourceAfter q source := by
        unfold World.sourceAfter
        rw [hp.pending]
        split
        · exact rest_rest source
        · rfl
      rw [hlen,hx,hx',hsource]
    · rw [List.getLast_cons (List.cons_ne_nil e dead)]
      exact hp.trans hp'

end DeadQuery

section LastConnection

variable {w : World} {p : MyProtocol} {q : Query}

/-- The object has no connection after an iteration that is repeated. -/
theorem queryOnce_again {source : Source} {n : ℕ} {r : Source×ℕ} {w' : World}
    (h : queryOnce q source n w=.done (some r) w') : w'.conn.protocol=none := by
  have hend : ∀ (u : World) (b : Bool),(u.doEnd b none).conn.protocol=none := by
    intro u b
    unfold World.doEnd MyConn.reset
    cases u.conn.protocol <;> cases b <;> rfl
  unfold queryOnce at h
  obtain ⟨_,_,_,h⟩ := bind_eq_done.mp h
  obtain ⟨flushed,_,_,h⟩ := bind_eq_done.mp h
  cases flushed with
  | none =>
    obtain ⟨_,_,hx,h⟩ := bind_eq_done.mp h
    cases h
    cases hx
    exact hend _ _
  | some n =>
    obtain ⟨_,_,_,h⟩ := bind_eq_done.mp h
    obtain ⟨left,_,_,h⟩ := bind_eq_done.mp h
    cases left with
    | none => cases h
    | some source =>
      obtain ⟨_,_,hx,h⟩ := bind_eq_done.mp h
      cases h
      cases hx
      exact hend _ _

/-- Without connections to take nothing is executed. -/
theorem queryIterations_none (hp : w.conn.protocol=none) (hs : w.supply=[]) (m : ℕ) (source : Source)
    (n : ℕ) (a : String) : (queryIterations q m source n w).state.executed a=w.executed a := by
  cases m with
  | zero => rfl
  | succ m =>
    have hconnect : ∀ u,connect w≠.done () u := by
      intro u hu
      unfold connect at hu
      rw [hp,hs] at hu
      dsimp only at hu
      split_ifs at hu
    have hlog : (connect w).state.log=w.log := by
      unfold connect
      rw [hp,hs]
      dsimp only
      split_ifs <;> rfl
    unfold queryIterations
    rw [bind_apply]
    unfold World.executed World.tracked
    cases hc : connect w with
    | done u w' => exact absurd hc (hconnect w')
    | thrown e w' =>
      rw [hc] at hlog
      exact congrArg (fun l => (List.foldl track (a,[]) l).2) hlog
    | waiting w' =>
      rw [hc] at hlog
      exact congrArg (fun l => (List.foldl track (a,[]) l).2) hlog

/-- On the last connection that can be taken only one iteration executes something. -/
theorem queryIterations_last (hw : Waiting w) {s : Supply} (hs : w.supply=[s])
    (hp : s.take w.dsnSchema w.conn.pendingChangeSchema=some p) (m : ℕ) (source : Source) (n : ℕ)
    (a : String) : (queryIterations q (m+1) source n w).state.executed a=
      (queryOnce q source n (w.took p [])).state.executed a := by
  unfold queryIterations
  rw [bind_apply,connect_took hw hs hp,Outcome.andThen_done,bind_apply]
  have hgrows := Grows.queryOnce q source n (w.took p [])
  cases hx : queryOnce q source n (w.took p []) with
  | thrown e w' => rfl
  | waiting w' => rfl
  | done r w' =>
    rw [hx] at hgrows
    cases r with
    | none => rfl
    | some r => exact queryIterations_none (queryOnce_again hx) hgrows.2 m r.1 r.2 a

end LastConnection

end SpiritMysql.Conn
