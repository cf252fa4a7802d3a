import SpiritMysql.PreparedRun
import SpiritMysql.TrxFollows

/-!
# Commands of an ordinary transaction

What the commands of ordinary transactions and the statements of a user do to
the transaction on the server, when the connection works. The statements of the
user change data only, and starting a transaction or setting a savepoint is
accepted.
-/

namespace SpiritMysql.Conn

open AsyncAction Errors Protocol TrxStore

/-! ## The server -/

/-- SQL of a user, and the queries for named parameters. -/
def Sql.IsData : Sql → Prop
  | .placeholders _ => True
  | .names _ => True
  | .user _ => True
  | _ => False

/-- The SQL of ordinary transactions. -/
def Sql.IsTrx : Sql → Prop
  | .startTransaction _ => True
  | .savepoint _ _ => True
  | .rollbackTo _ _ => True
  | .commit _ => True
  | .rollback _ => True
  | _ => False

/-- Commands that execute such SQL of a user only. -/
def Command.IsData : Command → Prop
  | .query sql => sql.IsData
  | .stmtPrepare sql => sql.IsData
  | .resetConnection => False
  | _ => True

/-- A server on which a user does not write transaction commands. -/
structure Server.Regular (b : Server) : Prop where
  /-- A successful statement of the user changes data only. -/
  exec : ∀ text n,∃ f,∀ s,b.userExec text n s=s.write f
  /-- So does one that is refused. -/
  fail : ∀ text n,∃ f,∀ s,b.userFail text n s=s.write f
  /-- To start a transaction or to set a savepoint is accepted, when it is possible. -/
  accepts : ∀ s sql,sql.IsPending → s.exec sql≠none → b.judge s sql=some none
  /-- What is not possible is refused. -/
  refuses : ∀ s sql,sql.isUser=false → s.exec sql=none → ∃ e,b.judge s sql=some (some e)

/-- No distributed transaction is open. -/
def Session.Plain (s : Session) : Prop := ∀ x ph,s.kind≠some (.xa x ph)

section Sessions

variable {s t : Session}

/-- Without a distributed transaction the status says whether one is open. -/
theorem inTrans_plain (h : s.Plain) (detachOnPrepare : Bool) :
    s.inTrans detachOnPrepare=s.trx.isSome := by
  have hk : s.kind=s.trx.map Trx.kind := rfl
  unfold Session.inTrans
  cases ht : s.trx with
  | none =>
    rw [ht] at hk
    rw [hk]
    rfl
  | some t =>
    rw [ht] at hk
    rw [hk]
    cases hp : t.kind with
    | plain readonly => simp [hp]
    | xa x ph =>
      rw [Option.map_some,hp] at hk
      exact absurd hk (h x ph)

/-- The kind of a transaction does not change with its data. -/
theorem kind_write (s : Session) (f : List String → List String) :
    Session.kind (s.write f)=s.kind := by
  unfold Session.kind Store.write
  cases s.trx <;> rfl

/-- A change of data opens no distributed transaction. -/
theorem Session.Plain.write (h : s.Plain) (f : List String → List String) :
    Session.Plain (s.write f) := by
  intro x ph
  rw [kind_write]
  exact h x ph

/-- The commands of ordinary transactions open no distributed one. -/
theorem Session.Plain.exec (h : s.Plain) {sql : Sql} (hs : sql.IsTrx) (he : s.exec sql=some t) :
    t.Plain := by
  intro x ph hk
  have hh : sql.Harmless := by
    cases sql <;> first | exact trivial | exact hs.elim
  obtain ⟨ph',hp,_⟩ := exec_harmless hh he hk
  exact h x ph' hp

/-- A transaction starts. -/
theorem exec_startTransaction (h : s.Plain) (readonly : Bool) :
    s.exec (.startTransaction readonly)=some (s.start (.plain readonly)) := by
  simp only [Session.exec]
  split
  · rename_i hk
    exact absurd hk (h _ _)
  · rfl

/-- A savepoint is set. -/
theorem exec_savepoint (h : s.Plain) (ofSession : Bool) (pointId : ℕ) :
    s.exec (.savepoint ofSession pointId)=some (s.setPoint (ofSession,pointId)) := by
  simp only [Session.exec]
  split
  · rename_i hk
    exact absurd hk (h _ _)
  · rename_i hk
    exact absurd hk (h _ _)
  · rfl

/-- A savepoint is returned to. -/
theorem exec_rollbackTo (h : s.Plain) (ofSession : Bool) (pointId : ℕ) :
    s.exec (.rollbackTo ofSession pointId)=s.rollbackTo (ofSession,pointId) := by
  simp only [Session.exec]
  split
  · rename_i hk
    exact absurd hk (h _ _)
  · rename_i hk
    exact absurd hk (h _ _)
  · rfl

/-- A commit. -/
theorem exec_commit (h : s.Plain) (ht : s.trx.isSome=true) (andChain : Bool) :
    s.exec (.commit andChain)=some (s.finish andChain s.commit) := by
  obtain ⟨t,ht⟩ := Option.isSome_iff_exists.mp ht
  have hk : s.kind=some t.kind := by
    rw [Session.kind,ht]
    rfl
  simp only [Session.exec,Store.finish,hk,ht]
  cases hp : t.kind with
  | plain readonly => rfl
  | xa x ph =>
    rw [hp] at hk
    exact absurd hk (h x ph)

/-- A rollback. -/
theorem exec_rollback (h : s.Plain) (ht : s.trx.isSome=true) (andChain : Bool) :
    s.exec (.rollback andChain)=some (s.finish andChain s.rollback) := by
  obtain ⟨t,ht⟩ := Option.isSome_iff_exists.mp ht
  have hk : s.kind=some t.kind := by
    rw [Session.kind,ht]
    rfl
  simp only [Session.exec,Store.finish,hk,ht]
  cases hp : t.kind with
  | plain readonly => rfl
  | xa x ph =>
    rw [hp] at hk
    exact absurd hk (h x ph)

end Sessions

namespace Server.Regular

variable {b : Server} {sql : Sql}

/-- SQL of a user that succeeds. -/
theorem exec_data (hb : b.Regular) (hs : sql.IsData) (n : ℕ) :
    ∃ f,∀ s,b.exec sql n s=s.write f := by
  cases sql with
  | user text => exact hb.exec text n
  | placeholders k => exact ⟨id,fun s => (write_id s).symm⟩
  | names keys => exact ⟨id,fun s => (write_id s).symm⟩
  | _ => exact hs.elim

/-- SQL of a user that is refused. -/
theorem fail_data (hb : b.Regular) (hs : sql.IsData) (n : ℕ) :
    ∃ f,∀ s,b.fail sql n s=s.write f := by
  cases sql with
  | user text => exact hb.fail text n
  | _ => exact ⟨id,fun s => (write_id s).symm⟩

end Server.Regular

/-! ## The connection -/

/-- A connection that works, on which no transaction command of the user was sent. -/
structure MyProtocol.Fits (p : MyProtocol) : Prop where
  /-- It works. -/
  works : p.Works
  /-- What was prepared changes data only. -/
  stmts : ∀ sql ∈ p.stmts,sql.IsData
  /-- So does the command whose results are open. -/
  opened : ∀ c,p.curCommand=some c → Command.IsData c
  /-- No distributed transaction is open. -/
  plain : p.session.Plain
  /-- The status is known. -/
  status : p.inTrans=p.session.trx.isSome

/-- What the pool gives: connections that work, to a server with the given data. -/
def Supply.Fits (data : List String) (dsnSchema : String) : Supply → Prop
  | .pooled p stolen => p.isAlive=true ∧ p.session.committed=data ∧ (stolen=true → dsnSchema="")
  | .opened p _ => p.session.committed=data
  | .failed _ => True

/-- A connection object that is used for ordinary transactions, with no schema to
select. -/
structure Ready (data : List String) (w : World) : Prop where
  /-- The server. -/
  server : w.server.Regular
  /-- No answer gets lost. -/
  answers : Answer.lost ∉ w.answers
  /-- The connection, if there is one. -/
  protocol : ∀ p,w.conn.protocol=some p → p.Fits
  /-- The connections to come. -/
  supply : ∀ s ∈ w.supply,s.Fits data w.dsnSchema
  /-- No schema is to be selected. -/
  schema : w.conn.pendingChangeSchema=""
  /-- There is no distributed transaction. -/
  curXaId : w.conn.curXaId=""
  /-- None is prepared. -/
  isXaPrepared : w.conn.isXaPrepared=false

/-- The transaction on the server. Without a connection there is none yet. -/
def World.session (data : List String) (w : World) : Session :=
  match w.conn.protocol with
  | some p => p.session
  | none => ⟨data,none⟩

/-- How the object moves: the commands that are pending afterwards, and the
transaction on the server. -/
structure Moved (data : List String) (w w' : World) (pending : List (Option Sql)) (s : Session) :
    Prop where
  /-- It is still ready. -/
  ready : Ready data w'
  /-- The pending commands. -/
  pending : w'.conn.pendingTrxSql=pending
  /-- No savepoint is counted. -/
  savepointEnum : w'.conn.savepointEnum=w.conn.savepointEnum
  /-- No connection is given up. -/
  givenUp : w'.givenUp=w.givenUp
  /-- The connection is kept. -/
  connected : w.conn.protocol.isSome=true → w'.conn.protocol.isSome=true
  /-- The transaction. -/
  session : w'.session data=s

/-- Statements of the user are executed, and maybe some data are changed. -/
def Writes (data : List String) (w w' : World) : Prop :=
  ∃ f,Moved data w w' w.conn.pendingTrxSql ((w.session data).write f)

section Moves

variable {data : List String} {w w' w'' : World} {p q : MyProtocol}
  {pending pending' : List (Option Sql)} {s s' : Session}

/-- The transaction is the one of the connection. -/
theorem session_eq (hp : w.conn.protocol=some p) : w.session data=p.session := by
  rw [World.session,hp]

/-- Nothing moves. -/
theorem Moved.refl (h : Ready data w) :
    Moved data w w w.conn.pendingTrxSql (w.session data) := ⟨h,rfl,rfl,rfl,id,rfl⟩

/-- One move after another. -/
theorem Moved.trans (h : Moved data w w' pending s) (h' : Moved data w' w'' pending' s') :
    Moved data w w'' pending' s' :=
  ⟨h'.ready,h'.pending,h'.savepointEnum.trans h.savepointEnum,h'.givenUp.trans h.givenUp,
    h'.connected∘h.connected,h'.session⟩

/-- Nothing is written. -/
theorem Writes.refl (h : Ready data w) : Writes data w w :=
  ⟨id,by
    rw [write_id]
    exact Moved.refl h⟩

/-- One thing is written after another. -/
theorem Writes.trans (h : Writes data w w') (h' : Writes data w' w'') : Writes data w w'' := by
  obtain ⟨f,h⟩ := h
  obtain ⟨g,h'⟩ := h'
  rw [h.pending,h.session,write_write] at h'
  exact ⟨g∘f,h.trans h'⟩

/-- Nothing but the connection, the log and the answers changes. -/
theorem Ready.change (h : Ready data w) (hp : w.conn.protocol=some p) (hq : q.Fits)
    (log : List Entry) {answers : List Answer} (ha : Answer.lost ∉ answers) :
    Moved data w (World.setProtocol {w with log := log,answers := answers} q) w.conn.pendingTrxSql
      q.session := by
  refine ⟨⟨h.server,ha,?_,h.supply,h.schema,h.curXaId,h.isXaPrepared⟩,rfl,rfl,rfl,
    fun _ => rfl,rfl⟩
  intro p' hp'
  cases hp'
  exact hq

end Moves

/-! ## Statements of the user -/

section Data

variable {data : List String} {w w' : World} {p : MyProtocol} {b : Server}

/-- What a command of the user executes changes data only. -/
theorem executed_data (h : p.Fits) {c : Command} (hc : Command.IsData c) {sql : Sql}
    (he : p.executed c=some sql) : sql.IsData := by
  cases c with
  | query s =>
    cases he
    exact hc
  | stmtExecute stmtId values => exact h.stmts sql (List.mem_of_getElem? he)
  | _ => cases he

/-- An answer to a command of the user changes data only. -/
theorem session_after (h : p.Fits) (hb : b.Regular) {c : Command} (hc : Command.IsData c)
    (a : Answer) : ∃ f,(p.after b c a).session=p.session.write f := by
  cases a with
  | lost => exact ⟨id,(write_id _).symm⟩
  | refused e =>
    have hs : (p.after b c (.refused e)).session=
        ((p.executed c).map (fun sql => b.fail sql p.nResults p.session)).getD p.session := rfl
    rw [hs]
    cases he : p.executed c with
    | none => exact ⟨id,(write_id _).symm⟩
    | some sql =>
      obtain ⟨f,hf⟩ := hb.fail_data (executed_data h hc he) p.nResults
      exact ⟨f,hf p.session⟩
  | ok hasRows more =>
    have hs : (p.after b c (.ok hasRows more)).session=
        ((p.executed c).map (fun sql => b.exec sql p.nResults p.session)).getD p.session := by
      cases c <;> first | rfl | exact hc.elim
    rw [hs]
    cases he : p.executed c with
    | none => exact ⟨id,(write_id _).symm⟩
    | some sql =>
      obtain ⟨f,hf⟩ := hb.exec_data (executed_data h hc he) p.nResults
      exact ⟨f,hf p.session⟩

/-- The status after an answer. -/
theorem status_after (h : p.Fits) {c : Command} (hc : c≠.resetConnection) {a : Answer}
    (hplain : (p.after b c a).session.Plain)
    (hopen : a.error≠none → (p.after b c a).session.trx.isSome=p.session.trx.isSome) :
    (p.after b c a).inTrans=(p.after b c a).session.trx.isSome := by
  cases a with
  | lost => exact h.status
  | refused e => exact h.status.trans (hopen (by simp [Answer.error])).symm
  | ok hasRows more =>
    rw [←inTrans_plain hplain b.detachOnPrepare]
    cases c <;> first | rfl | exact absurd rfl hc

/-- The connection still fits after an answer. -/
theorem fits_after (h : p.Fits) {c : Command} {a : Answer} (ha : a≠.lost)
    (hc : c≠.resetConnection) (hstmts : ∀ sql,c=.stmtPrepare sql → sql.IsData)
    (hplain : (p.after b c a).session.Plain)
    (hopen : a.error≠none → (p.after b c a).session.trx.isSome=p.session.trx.isSome) :
    (p.after b c a).Fits := by
  refine ⟨⟨?_,?_⟩,?_,?_,hplain,status_after h hc hplain hopen⟩
  · cases a with
    | lost => exact absurd rfl ha
    | refused e => exact h.works.alive
    | ok hasRows more => cases c <;> exact h.works.alive
  · rw [after_schema]
    exact h.works.schema
  · intro sql hm
    rcases Tracked.after_stmts hm with hm | hm
    · exact h.stmts sql hm
    · exact hstmts sql hm
  · intro c' hc'
    rw [Tracked.after_state.2] at hc'
    exact h.opened c' hc'

/-- An answer that is read was not lost. -/
theorem reply_ne_lost (h : Ready data w) {c : Command} {a : Answer} {answers : List Answer}
    (hr : w.reply p c=some (a,answers)) : a≠.lost ∧ Answer.lost ∉ answers := by
  unfold World.reply at hr
  cases hv : w.verdict p c with
  | some v =>
    rw [hv] at hr
    cases hr
    refine ⟨?_,h.answers⟩
    rintro rfl
    simp only [World.verdict] at hv
    split at hv
    · split at hv <;> cases hv
    · cases hv
  | none =>
    rw [hv] at hr
    have hl := h.answers
    cases ha : w.answers with
    | nil =>
      rw [ha] at hr
      cases hr
    | cons x rest =>
      rw [ha] at hr hl
      dsimp only at hr
      cases hr
      rw [List.mem_cons,not_or] at hl
      refine ⟨?_,hl.2⟩
      split
      · exact fun he => hl.1 he.symm
      · intro he
        cases x <;> first | exact hl.1 rfl | cases he

/-- Commands of the user change data only. -/
theorem writes (data : List String) : Respects (fun w w' => Ready data w → Writes data w w')
    Command.IsData Command.IsData where
  refl _ := Writes.refl
  trans _ _ _ h h' hr := (h hr).trans (h' (h hr).choose_spec.ready)
  initDb _ := trivial
  send c _ w h := by
    unfold send
    cases hp : w.conn.protocol with
    | none => exact Writes.refl h
    | some p =>
      have hm := h.change hp (h.protocol p hp) (w.log++[.sent p.connectionId c]) h.answers
      have he : World.setProtocol {w with
          log := w.log++[.sent p.connectionId c],answers := w.answers} p=
          w.note (.sent p.connectionId c) := by
        simp only [World.setProtocol,World.note,←hp]
      rw [he] at hm
      refine ⟨id,?_⟩
      rw [write_id,session_eq hp]
      exact hm
  receive c hc w h := by
    rcases receive_cases c w with hr | hr | ⟨p,a,answers,hp,_,hrep,hr⟩ <;> rw [hr]
    · exact Writes.refl h
    · exact Writes.refl h
    · have hfit := h.protocol p hp
      obtain ⟨hlost,hans⟩ := reply_ne_lost h hrep
      obtain ⟨f,hf⟩ := session_after (b:=w.server) hfit h.server hc a
      have hplain : (p.after w.server c a).session.Plain := by
        rw [hf]
        exact hfit.plain.write f
      have hafter : (p.after w.server c a).Fits := by
        refine fits_after hfit hlost ?_ ?_ hplain (fun _ => ?_)
        · rintro rfl
          exact hc
        · rintro sql rfl
          exact hc
        · rw [hf,isSome_write]
      refine ⟨f,?_⟩
      rw [session_eq hp,←hf]
      exact h.change hp hafter _ hans
  schema w p hp h := by
    have hfit := h.protocol p hp
    refine ⟨id,?_⟩
    rw [write_id,session_eq hp]
    exact h.change (q:={p with pendingChangeSchema := ""}) hp
      ⟨⟨hfit.works.alive,rfl⟩,hfit.stmts,hfit.opened,hfit.plain,hfit.status⟩ w.log h.answers
  update w p q hp hq hc _ h := by
    have hfit := h.protocol p hp
    refine ⟨id,?_⟩
    have hs : q.session=p.session := by rw [hq]
    rw [write_id,session_eq hp,←hs]
    refine h.change hp ⟨⟨?_,?_⟩,?_,?_,?_,?_⟩ w.log h.answers
    · rw [hq]
      exact hfit.works.alive
    · rw [hq]
      exact hfit.works.schema
    · rw [hq]
      exact hfit.stmts
    · intro c hqc
      rcases hc with hc | hc
      · rw [hc] at hqc
        exact hfit.opened c hqc
      · exact hc c hqc
    · rw [hs]
      exact hfit.plain
    · rw [hq]
      exact hfit.status

end Data

/-! ## Commands of the library -/

/-- How a command of an ordinary transaction ends: it was executed, or it changed
nothing. -/
def Ends (data : List String) (w : World) (sql : Sql) : Outcome Error World (Option Unit) → Prop
  | .done r w' => r=some () ∧ ∃ s,(w.session data).exec sql=some s ∧
      Moved data w w' w.conn.pendingTrxSql s ∧ ∀ p,w'.conn.protocol=some p → p.state=.IDLE
  | .thrown _ w' => Moved data w w' w.conn.pendingTrxSql (w.session data)
  | .waiting _ => True

section Library

variable {data : List String} {w w' : World} {p : MyProtocol} {b : Server} {sql : Sql}

/-- SQL of the library is not the one of a user. -/
theorem isUser_trx (hs : sql.IsTrx) : sql.isUser=false := by
  cases sql <;> first | rfl | exact hs.elim

/-- What an answer to SQL of the library does. -/
theorem session_after_trx (hs : sql.IsTrx) {a : Answer} :
    (a.error=none → (p.after b (.query sql) a).session=(p.session.exec sql).getD p.session) ∧
      (a.error≠none → (p.after b (.query sql) a).session=p.session) := by
  constructor
  · intro he
    cases a with
    | lost => cases he
    | refused e => cases he
    | ok hasRows more =>
      cases sql <;> first | rfl | exact hs.elim
  · exact after_error (isUser_trx hs)

/-- The connection still fits after an answer to SQL of the library. -/
theorem fits_after_trx (h : p.Fits) (hs : sql.IsTrx) {a : Answer} (ha : a≠.lost) :
    (p.after b (.query sql) a).Fits := by
  obtain ⟨hdone,hsame⟩ := session_after_trx (p:=p) (b:=b) hs (a:=a)
  refine fits_after h ha (by simp) (fun sql' he => by cases he) ?_ (fun he => by rw [hsame he])
  by_cases he : a.error=none
  · rw [hdone he]
    cases hx : p.session.exec sql with
    | none => exact h.plain
    | some t => exact h.plain.exec hs hx
  · rw [hsame he]
    exact h.plain

/-- What the server decides is the answer. -/
theorem reply_judged {a : Answer} {answers : List Answer} {e : Option SqlError}
    (hj : w.server.judge p.session sql=some e) (hr : w.reply p (.query sql)=some (a,answers)) :
    a.error=e.map Error.sql := by
  unfold World.reply at hr
  cases e <;> simp only [World.verdict,hj] at hr <;> cases hr <;> rfl

/-- An attempt of a command of the library takes one answer. -/
theorem exchange_trx (h : Ready data w) (hp : w.conn.protocol=some p) (hs : sql.IsTrx) :
    (∃ w',exchange (.text sql) true w=.waiting w' ∧ w.server.judge p.session sql≠some none) ∨
      ∃ a log answers,exchange (.text sql) true w=.done (a.error,a)
          (World.setProtocol {w with log := log,answers := answers}
            (p.after w.server (.query sql) a)) ∧
        a≠.lost ∧ Answer.lost ∉ answers ∧
        ∀ e,w.server.judge p.session sql=some e → a.error=e.map Error.sql := by
  have hfit := h.protocol p hp
  have hschema : w.NoSchema := by
    intro q hq
    rw [hp] at hq
    cases hq
    exact hfit.works.schema
  have hx : exchange (.text sql) true w=
      (readResults (.query sql) true (w.note (.sent p.connectionId (.query sql)))).andThen
        (fun attempt => (pure (attempt.1,attempt.2) : Op Attempt)) := by
    unfold exchange
    rw [bind_apply,maybeInitDb_none hschema,Outcome.andThen_done]
    simp only [Source.sql,sendInitDb,readInitDb,send,bind_apply,pure_apply,hp,Outcome.andThen_done,
      Option.none_or]
  rw [hx]
  unfold readResults
  rw [bind_apply]
  rcases receive_cases (.query sql) (w.note (.sent p.connectionId (.query sql))) with
    hr | hr | ⟨q,a,answers,hq,_,hrep,hr⟩
  · rw [hr]
    refine Or.inl ⟨_,rfl,fun hj => ?_⟩
    unfold receive at hr
    simp only [World.note,hp,hfit.works.alive,Bool.true_eq_false,if_false,World.reply,World.verdict,
      hj] at hr
    cases hr
  · -- only a dead connection has no answer
    exfalso
    unfold receive at hr
    simp only [World.note,hp,hfit.works.alive,Bool.true_eq_false,if_false] at hr
    cases hrep : World.reply {w with log := w.log++[.sent p.connectionId (.query sql)]} p
        (.query sql) with
    | none =>
      rw [hrep] at hr
      cases hr
    | some r =>
      rw [hrep] at hr
      have hn : Ready data {w with log := w.log++[.sent p.connectionId (.query sql)]} :=
        ⟨h.server,h.answers,h.protocol,h.supply,h.schema,h.curXaId,h.isXaPrepared⟩
      have hl := (reply_ne_lost hn hrep).1
      injection hr with ha
      exact hl ha
  · have hq' : q=p := by
      have hpq : some p=some q := hp.symm.trans hq
      exact (Option.some_inj.mp hpq).symm
    subst hq'
    have hn : Ready data (w.note (.sent q.connectionId (.query sql))) :=
      ⟨h.server,h.answers,h.protocol,h.supply,h.schema,h.curXaId,h.isXaPrepared⟩
    obtain ⟨hlost,hans⟩ := reply_ne_lost hn hrep
    refine Or.inr ⟨a,(w.note (.sent q.connectionId (.query sql))).log++
      [.answered q.connectionId (.query sql) a],answers,?_,hlost,hans,
      fun e hj => reply_judged hj hrep⟩
    rw [hr,Outcome.andThen_done]
    cases he : a.error with
    | some e => rfl
    | none =>
      have hmore := after_more (p:=q) (b:=w.server) (c:=.query sql)
        (reply_plain (isUser_trx hs) hrep) he
      dsimp only
      rw [branch_apply,if_pos rfl,bind_apply,doDiscard_none]
      · rfl
      · exact hmore

/-- How the last attempt of a command of the library is concluded. -/
theorem conclude_trx (h : Ready data w) (hp : w.conn.protocol=some p) (hs : sql.IsTrx) {a : Answer}
    (hlost : a≠.lost) (log : List Entry) {answers : List Answer} (hans : Answer.lost ∉ answers)
    (hexec : a.error=none → ∃ s,p.session.exec sql=some s) (isFromPool : Bool)
    (command : Option Command) :
    Ends data w sql (conclude command (a.error,a) true isFromPool
      (World.setProtocol {w with log := log,answers := answers}
        (p.after w.server (.query sql) a))) ∧
    (a.error=none → ∃ w',conclude command (a.error,a) true isFromPool
      (World.setProtocol {w with log := log,answers := answers} (p.after w.server (.query sql) a))=
        .done (some ()) w') := by
  have hfit := h.protocol p hp
  have hafter := fits_after_trx (b:=w.server) hfit hs hlost
  obtain ⟨hdone,hsame⟩ := session_after_trx (p:=p) (b:=w.server) hs (a:=a)
  have hidle : MyProtocol.Fits {p.after w.server (.query sql) a with state := .IDLE} :=
    ⟨⟨hafter.works.alive,hafter.works.schema⟩,hafter.stmts,hafter.opened,hafter.plain,hafter.status⟩
  have hm := h.change hp hidle log hans
  cases he : a.error with
  | none =>
    have hc : conclude command (none,a) true isFromPool
        (World.setProtocol {w with log := log,answers := answers}
          (p.after w.server (.query sql) a))=
        .done (some ()) (World.setProtocol {w with log := log,answers := answers}
          {p.after w.server (.query sql) a with state := .IDLE}) := rfl
    rw [hc]
    refine ⟨⟨rfl,?_⟩,fun _ => ⟨_,rfl⟩⟩
    obtain ⟨s,hx⟩ := hexec he
    have hsess : (p.after w.server (.query sql) a).session=s := by
      rw [hdone he,hx]
      rfl
    refine ⟨s,by rw [session_eq hp,hx],?_,fun q hq => ?_⟩
    · rw [←hsess]
      exact hm
    · cases hq
      rfl
  | some e =>
    refine ⟨?_,fun hn => by cases hn⟩
    obtain ⟨e',rfl⟩ : ∃ e',a=.refused e' := by
      cases a with
      | ok hasRows more => cases he
      | lost => exact absurd rfl hlost
      | refused e' => exact ⟨e',rfl⟩
    cases he
    have hsess : (p.after w.server (.query sql) (.refused e')).session=w.session data := by
      rw [hsame (by simp [Answer.error]),session_eq hp]
    have hm' : Moved data w (World.setProtocol {w with log := log,answers := answers}
        {p.after w.server (.query sql) (.refused e') with state := .IDLE}) w.conn.pendingTrxSql
        (w.session data) := by
      rw [←hsess]
      exact hm
    exact hm'

/-- A command that is possible is executed. -/
theorem exec_of_accepted (h : Ready data w) (hs : sql.IsTrx) {a : Answer} {s : Session}
    (hj : ∀ e,w.server.judge s sql=some e → a.error=e.map Error.sql)
    (he : a.error=none) : ∃ t,s.exec sql=some t := by
  cases hx : s.exec sql with
  | some t => exact ⟨t,rfl⟩
  | none =>
    obtain ⟨e,hr⟩ := h.server.refuses s sql (isUser_trx hs) hx
    have hn := hj _ hr
    rw [he] at hn
    cases hn

/-- What ends after nothing changed ends as from the start. -/
theorem Ends.trans {r : Outcome Error World (Option Unit)} (h : Ends data w' sql r)
    (hm : Moved data w w' w.conn.pendingTrxSql (w.session data)) : Ends data w sql r := by
  cases r with
  | waiting _ => exact trivial
  | thrown e u =>
    have h' : Moved data w' u w'.conn.pendingTrxSql (w'.session data) := h
    rw [hm.pending,hm.session] at h'
    exact hm.trans h'
  | done r u =>
    obtain ⟨hr,s,hx,hmove,hidle⟩ := h
    rw [hm.session] at hx
    rw [hm.pending] at hmove
    exact ⟨hr,s,hx,hm.trans hmove,hidle⟩

/-- The attempts of a command of the library. -/
theorem queryLoop_trx (h : Ready data w) (hp : w.conn.protocol=some p) (hs : sql.IsTrx)
    (isFromPool retryLockWaitTimeout : Bool) (n : ℕ) :
    Ends data w sql (queryLoop true isFromPool retryLockWaitTimeout n (.text sql) w) ∧
    (w.server.judge p.session sql=some none → ∃ w',
      queryLoop true isFromPool retryLockWaitTimeout n (.text sql) w=.done (some ()) w') := by
  induction n generalizing w p with
  | zero =>
    rw [queryLoop,bind_apply]
    rcases exchange_trx h hp hs with ⟨w',hx,hn⟩ | ⟨a,log,answers,hx,hlost,hans,hj⟩
    · rw [hx]
      exact ⟨trivial,fun hjn => absurd hjn hn⟩
    · rw [hx,Outcome.andThen_done]
      obtain ⟨hends,hdone⟩ := conclude_trx h hp hs hlost log hans
        (exec_of_accepted h hs hj) isFromPool (Source.text sql).command
      exact ⟨hends,fun hjn => hdone (hj _ hjn)⟩
  | succ n ih =>
    rw [queryLoop,bind_apply]
    rcases exchange_trx h hp hs with ⟨w',hx,hn⟩ | ⟨a,log,answers,hx,hlost,hans,hj⟩
    · rw [hx]
      exact ⟨trivial,fun hjn => absurd hjn hn⟩
    · rw [hx,Outcome.andThen_done]
      have hbranch : ∀ u,(if isRetriable retryLockWaitTimeout (a.error,a)=true then
            queryLoop true isFromPool retryLockWaitTimeout n (Source.text sql).rest
          else conclude (Source.text sql).command (a.error,a) true isFromPool : Op (Option Unit)) u=
          if isRetriable retryLockWaitTimeout (a.error,a)=true then
            queryLoop true isFromPool retryLockWaitTimeout n (.text sql) u
          else conclude (Source.text sql).command (a.error,a) true isFromPool u := fun u =>
        branch_apply _ _ _ u
      rw [hbranch]
      split
      · rename_i hretry
        -- a refused command changed nothing, and is sent again
        have herr : a.error≠none := by
          intro hn
          rw [isRetriable,hn] at hretry
          cases hretry
        have hm := h.change hp (fits_after_trx (b:=w.server) (h.protocol p hp) hs hlost) log hans
        have hw : w.session data=p.session := session_eq hp
        rw [(session_after_trx hs).2 herr,←hw] at hm
        refine ⟨(ih hm.ready rfl).1.trans hm,fun hjn => absurd (hj _ hjn) herr⟩
      · obtain ⟨hends,hdone⟩ := conclude_trx h hp hs hlost log hans
          (exec_of_accepted h hs hj) isFromPool (Source.text sql).command
        exact ⟨hends,fun hjn => hdone (hj _ hjn)⟩

/-- A command of the library. -/
theorem sendComQuery_trx (h : Ready data w) (hp : w.conn.protocol=some p) (hs : sql.IsTrx)
    (letReturnUndefined : Bool) (options : RetryOptions) :
    Ends data w sql (sendComQuery (.text sql) true letReturnUndefined options w) ∧
    (p.state=.IDLE → w.server.judge p.session sql=some none → ∃ w',
      sendComQuery (.text sql) true letReturnUndefined options w=.done (some ()) w') := by
  have hfit := h.protocol p hp
  have hquery : MyProtocol.Fits {p with state := .QUERYING} :=
    ⟨⟨hfit.works.alive,hfit.works.schema⟩,hfit.stmts,hfit.opened,hfit.plain,hfit.status⟩
  have hm : Moved data w (w.setProtocol {p with state := .QUERYING}) w.conn.pendingTrxSql
      (w.session data) := by
    rw [session_eq hp]
    exact h.change hp hquery w.log h.answers
  have hl := fun isFromPool => queryLoop_trx hm.ready rfl hs isFromPool
    options.retryLockWaitTimeout options.retryQueryTimes
  unfold sendComQuery
  rw [bind_apply]
  constructor
  · cases hq : setQueryingState w with
    | waiting w' => exact trivial
    | thrown e w' =>
      have hw : w'=w := by
        unfold setQueryingState at hq
        rw [hp] at hq
        dsimp only at hq
        cases hst : p.state <;> rw [hst] at hq <;> cases hq <;> rfl
      rw [hw]
      exact Moved.refl h
    | done isFromPool w' =>
      obtain ⟨q,hpq,hw⟩ := setQueryingState_done hq
      have hqp : p=q := Option.some_inj.mp (hp.symm.trans hpq)
      rw [hw,←hqp]
      exact (hl _).1.trans hm
  · intro hst hj
    rw [setQueryingState_idle hp hst]
    exact (hl _).2 hj

/-- A command of the library, whose error is thrown. -/
theorem command_trx (h : Ready data w) (hp : w.conn.protocol=some p) (hs : sql.IsTrx) :
    (∀ w',command sql w=.done () w' → ∃ s,(w.session data).exec sql=some s ∧
      Moved data w w' w.conn.pendingTrxSql s) ∧
    ∀ e w',command sql w=.thrown e w' → Moved data w w' w.conn.pendingTrxSql (w.session data) := by
  have hc : command sql w=(sendComQuery (.text sql) true false w.retryOptions w).andThen
      (fun _ => (pure () : Op Unit)) := rfl
  have hends := (sendComQuery_trx h hp hs false w.retryOptions).1
  rw [hc]
  cases hr : sendComQuery (.text sql) true false w.retryOptions w with
  | waiting u => exact ⟨fun w' hw => (by cases hw),fun e w' hw => (by cases hw)⟩
  | thrown e u =>
    rw [hr] at hends
    refine ⟨fun w' hw => (by cases hw),fun e' w' hw => ?_⟩
    cases hw
    exact hends
  | done r u =>
    rw [hr] at hends
    obtain ⟨_,s,hx,hm,_⟩ := hends
    refine ⟨fun w' hw => ?_,fun e w' hw => (by cases hw)⟩
    cases hw
    exact ⟨s,hx,hm⟩

end Library

/-! ## The pending commands -/

/-- Commands one after another. -/
def Session.execAll (sqls : List Sql) (s : Session) : Option Session :=
  sqls.foldlM Session.exec s

section Pending

variable {data : List String} {w w' : World} {p : MyProtocol} {sqls : List Sql} {s : Session}

/-- What follows one pending command. -/
def morePending (rest : List (Option Sql)) (n : ℕ) : Option Unit → Op (Option ℕ)
  | some () => flushPending rest (n-1)
  | none => return none

/-- The first one of the pending commands is sent. -/
theorem flush_cons (sql : Sql) (rest : List (Option Sql)) (n : ℕ) (w : World) :
    flushPending (some sql::rest) n w=
      (sendComQuery (.text sql) true (decide (0 < n)) w.retryOptions w).andThen
        (morePending rest n) := by
  have hx : doWhen ((some sql : Option Sql)=none) appendConn w=.done () w := by
    rw [doWhen,if_neg (by simp)]
    rfl
  unfold flushPending
  rw [bind_apply,hx,Outcome.andThen_done,bind_apply,get_apply,Outcome.andThen_done,bind_apply]
  refine congrArg (Outcome.andThen _) (funext fun done => ?_)
  cases done <;> rfl

/-- The pending commands on an idle connection are executed. -/
theorem flush_idle (h : Ready data w) (hp : w.conn.protocol=some p) (hidle : p.state=.IDLE)
    (hs : ∀ sql ∈ sqls,sql.IsTrx ∧ sql.IsPending) (hx : (w.session data).execAll sqls=some s)
    (n : ℕ) : ∃ m w',flushPending (sqls.map some) n w=.done (some m) w' ∧
      Moved data w w' w.conn.pendingTrxSql s := by
  induction sqls generalizing w p n with
  | nil =>
    cases hx
    exact ⟨n,w,rfl,Moved.refl h⟩
  | cons sql sqls ih =>
    obtain ⟨htrx,hpend⟩ := hs sql List.mem_cons_self
    rw [Session.execAll,List.foldlM_cons] at hx
    obtain ⟨t,ht,hx⟩ := Option.bind_eq_some_iff.mp hx
    obtain ⟨hends,hdone⟩ := sendComQuery_trx h hp htrx (decide (0 < n)) w.retryOptions
    rw [session_eq hp] at ht
    obtain ⟨w₁,hr⟩ := hdone hidle (h.server.accepts _ _ hpend (by rw [ht]; simp))
    rw [hr] at hends
    obtain ⟨_,t',ht',hm,hidle₁⟩ := hends
    rw [session_eq hp,ht] at ht'
    cases ht'
    obtain ⟨p₁,hp₁⟩ := Option.isSome_iff_exists.mp (hm.connected (by rw [hp]; rfl))
    rw [←hm.session] at hx
    obtain ⟨m,w₂,hf,hm₂⟩ := ih hm.ready hp₁ (hidle₁ p₁ hp₁)
      (fun sql' hsql => hs sql' (List.mem_cons_of_mem _ hsql)) hx (n-1)
    rw [hm.pending] at hm₂
    refine ⟨m,w₂,?_,hm.trans hm₂⟩
    rw [List.map_cons,flush_cons,hr]
    exact hf

/-- The pending commands are all executed, or nothing is. -/
theorem flush_all (h : Ready data w) (hp : w.conn.protocol=some p)
    (hs : ∀ sql ∈ sqls,sql.IsTrx ∧ sql.IsPending) (hx : (w.session data).execAll sqls=some s)
    (n : ℕ) :
    (∀ r w',flushPending (sqls.map some) n w=.done r w' → (∃ m,r=some m) ∧
      Moved data w w' w.conn.pendingTrxSql s) ∧
    ∀ e w',flushPending (sqls.map some) n w=.thrown e w' →
      Moved data w w' w.conn.pendingTrxSql (w.session data) := by
  cases sqls with
  | nil =>
    cases hx
    refine ⟨fun r w' hr => ?_,fun e w' hr => (by cases hr)⟩
    cases hr
    exact ⟨⟨n,rfl⟩,Moved.refl h⟩
  | cons sql sqls =>
    obtain ⟨htrx,_⟩ := hs sql List.mem_cons_self
    rw [Session.execAll,List.foldlM_cons] at hx
    obtain ⟨t,ht,hx⟩ := Option.bind_eq_some_iff.mp hx
    have hends := (sendComQuery_trx h hp htrx (decide (0 < n)) w.retryOptions).1
    rw [List.map_cons,flush_cons]
    cases hr : sendComQuery (.text sql) true (decide (0 < n)) w.retryOptions w with
    | waiting u => exact ⟨fun r w' hw => (by cases hw),fun e w' hw => (by cases hw)⟩
    | thrown e u =>
      rw [hr] at hends
      refine ⟨fun r w' hw => (by cases hw),fun e' w' hw => ?_⟩
      cases hw
      exact hends
    | done r u =>
      rw [hr] at hends
      obtain ⟨rfl,t',ht',hm,hidle⟩ := hends
      rw [ht] at ht'
      cases ht'
      obtain ⟨p₁,hp₁⟩ := Option.isSome_iff_exists.mp (hm.connected (by rw [hp]; rfl))
      rw [←hm.session] at hx
      obtain ⟨m,w₂,hf,hm₂⟩ := flush_idle hm.ready hp₁ (hidle p₁ hp₁)
        (fun sql' hsql => hs sql' (List.mem_cons_of_mem _ hsql)) hx (n-1)
      rw [hm.pending] at hm₂
      rw [Outcome.andThen_done,morePending,hf]
      refine ⟨fun r w' hw => ?_,fun e w' hw => (by cases hw)⟩
      cases hw
      exact ⟨⟨m,rfl⟩,hm.trans hm₂⟩

end Pending

end SpiritMysql.Conn
