import SpiritMysql.CommandFrame
import SpiritMysql.ConnRun

/-!
# Prepared transactions

A connection object knows which distributed transaction is prepared on its
connection, so long as each transaction is ended with care. Then a connection is
given up with a prepared transaction only by a forced disconnect, which puts the
transaction on the list of the pool.
-/

namespace SpiritMysql.Conn

open AsyncAction Errors Protocol TrxStore EventSystem

/-- The transaction that is open on the connection. -/
def World.kind (w : World) : Option Kind := w.conn.protocol.bind (fun p => p.session.kind)

/-- No transaction is prepared on the connection. -/
def World.NotPrepared (w : World) : Prop := ∀ x,w.kind≠some (.xa x .prepared)

/-- No statement of a user starts, ends or prepares a distributed transaction, and
the answers are not decided beforehand. -/
structure Server.Calm (b : Server) : Prop where
  /-- A successful statement. -/
  exec : ∀ text n s x ph,(b.userExec text n s).kind=some (.xa x ph) → s.kind=some (.xa x ph)
  /-- A refused statement. -/
  fail : ∀ text n s x ph,(b.userFail text n s).kind=some (.xa x ph) → s.kind=some (.xa x ph)
  /-- All answers are taken from the list. -/
  judge : ∀ s sql,b.judge s sql=none

/-- SQL after which no other distributed transaction is open or prepared. -/
def Sql.Harmless : Sql → Prop
  | .xaStart _ => False
  | .xaPrepare _ => False
  | _ => True

/-- Commands with such SQL. -/
def Command.Harmless : Command → Prop
  | .query sql => sql.Harmless
  | .stmtPrepare sql => sql.Harmless
  | _ => True

/-- SQL that waits for the next query. -/
def Sql.IsPending : Sql → Prop
  | .xaStart _ => True
  | .startTransaction _ => True
  | .savepoint _ _ => True
  | _ => False

section Kinds

variable (s : Session)

@[simp] theorem kind_start (k : Kind) : Session.kind (s.start k)=some k := rfl

@[simp] theorem kind_commit : Session.kind s.commit=none := rfl

@[simp] theorem kind_rollback : Session.kind s.rollback=none := rfl

@[simp] theorem kind_setPoint (name : Bool×ℕ) : Session.kind (s.setPoint name)=s.kind := by
  unfold Session.kind Store.setPoint
  cases s.trx <;> rfl

@[simp] theorem kind_setKind (k : Kind) : (s.setKind k).kind=s.kind.map (fun _ => k) := by
  unfold Session.kind Session.setKind
  cases s.trx <;> rfl

variable {s}

/-- Returning to a savepoint leaves the transaction as it is. -/
theorem kind_rollbackTo {t : Session} {name : Bool×ℕ} (h : s.rollbackTo name=some t) :
    Session.kind t=s.kind := by
  unfold Store.rollbackTo at h
  unfold Session.kind
  cases ht : s.trx with
  | none =>
    rw [ht] at h
    cases h
  | some r =>
    rw [ht] at h
    dsimp only at h
    split at h
    · cases h
      rfl
    · cases h

/-- A distributed transaction that is open after harmless SQL was open before,
and prepared if it is. -/
theorem exec_harmless {sql : Sql} {t : Session} {x : String} {ph : Phase} (hs : sql.Harmless)
    (h : s.exec sql=some t) (hk : Session.kind t=some (.xa x ph)) :
    ∃ ph',s.kind=some (.xa x ph') ∧ (ph=.prepared → ph'=.prepared) := by
  cases sql with
  | startTransaction readonly =>
    simp only [Session.exec] at h
    split at h <;> cases h
    simp at hk
  | savepoint ofSession pointId =>
    simp only [Session.exec] at h
    split at h <;> cases h
    rw [kind_setPoint] at hk
    exact ⟨ph,hk,id⟩
  | rollbackTo ofSession pointId =>
    simp only [Session.exec] at h
    split at h
    · cases h
    · cases h
    · rw [kind_rollbackTo h] at hk
      exact ⟨ph,hk,id⟩
  | commit andChain =>
    simp only [Session.exec] at h
    split at h <;> cases h <;> split at hk <;> simp_all
  | rollback andChain =>
    simp only [Session.exec] at h
    split at h <;> cases h <;> split at hk <;> simp_all
  | xaStart y => exact hs.elim
  | xaEnd y =>
    simp only [Session.exec] at h
    split at h <;> cases h
    rename_i hy
    rw [kind_setKind,hy] at hk
    cases hk
    exact ⟨.active,hy,fun hp => by cases hp⟩
  | xaPrepare y => exact hs.elim
  | xaCommit y =>
    simp only [Session.exec] at h
    split at h <;> cases h
    simp at hk
  | xaRollback y =>
    simp only [Session.exec] at h
    split at h <;> cases h
    simp at hk
  | placeholders n =>
    cases h
    exact ⟨ph,hk,id⟩
  | names keys =>
    cases h
    exact ⟨ph,hk,id⟩
  | user text =>
    cases h
    exact ⟨ph,hk,id⟩

/-- A successful harmless command. -/
theorem Server.Calm.exec_kind {b : Server} (hb : b.Calm) {sql : Sql} (hs : sql.Harmless) {n : ℕ}
    {x : String} {ph : Phase} (hk : Session.kind (b.exec sql n s)=some (.xa x ph)) :
    ∃ ph',s.kind=some (.xa x ph') ∧ (ph=.prepared → ph'=.prepared) := by
  have hl : ∀ sql : Sql,sql.Harmless → Session.kind ((s.exec sql).getD s)=some (.xa x ph) →
      ∃ ph',s.kind=some (.xa x ph') ∧ (ph=.prepared → ph'=.prepared) := by
    intro sql hs hk
    cases he : s.exec sql with
    | none =>
      rw [he] at hk
      exact ⟨ph,hk,id⟩
    | some t =>
      rw [he] at hk
      exact exec_harmless hs he hk
  cases sql with
  | user text => exact ⟨ph,hb.exec text n s x ph hk,id⟩
  | _ => exact hl _ hs hk

/-- A refused command. -/
theorem Server.Calm.fail_kind {b : Server} (hb : b.Calm) {sql : Sql} {n : ℕ} {x : String} {ph : Phase}
    (hk : Session.kind (b.fail sql n s)=some (.xa x ph)) : s.kind=some (.xa x ph) := by
  cases sql with
  | user text => exact hb.fail text n s x ph hk
  | _ => exact hk

end Kinds

section Sources

variable {w w' : World} {q : Query} {source s : Source}

/-- What remains of a source is the source or its rest. -/
theorem leftOver_some {α : Type} {done : Option α} (h : leftOver done source=some s) : s=source := by
  cases done with
  | none =>
    cases h
    rfl
  | some a => cases h

/-- What remains after a query that was not done. -/
theorem sendQuery_source {letReturnUndefined : Bool}
    (h : sendQuery q source letReturnUndefined w=.done (some s) w') : s=source ∨ s=source.rest := by
  have hpure : ∀ {α : Type} {x : Op (Option α)},
      (do let done ← x; return leftOver done source.rest : Op (Option Source)) w=.done (some s) w' →
      s=source.rest := by
    intro α x hx
    obtain ⟨done,t,_,hd⟩ := bind_eq_done.mp hx
    rw [pure_apply,Outcome.done.injEq] at hd
    exact leftOver_some hd.1
  unfold sendQuery at h
  rw [bind_apply,get_apply,Outcome.andThen_done] at h
  cases hp : q.params with
  | none =>
    rw [hp] at h
    exact Or.inr (hpure h)
  | prepare =>
    rw [hp] at h
    dsimp only at h
    rw [branch_apply] at h
    split at h
    · cases h
    · exact Or.inr (hpure h)
  | positional values =>
    rw [hp] at h
    dsimp only at h
    rw [branch_apply] at h
    split at h
    · cases h
    · obtain ⟨r,t,_,hd⟩ := bind_eq_done.mp h
      cases r with
      | some stmtId =>
        obtain ⟨_,_,_,hd⟩ := bind_eq_done.mp hd
        cases hd
      | none =>
        cases hd
        exact Or.inr rfl
  | named params =>
    rw [hp] at h
    cases params with
    | nil => exact Or.inr (hpure h)
    | cons param params =>
      dsimp only at h
      rw [branch_apply] at h
      split at h
      · cases h
      · obtain ⟨r,t,_,hd⟩ := bind_eq_done.mp h
        cases r with
        | some stmtId =>
          obtain ⟨done,_,_,hd⟩ := bind_eq_done.mp hd
          rw [pure_apply,Outcome.done.injEq] at hd
          exact Or.inr (leftOver_some hd.1)
        | none =>
          cases hd
          exact Or.inl rfl

/-- What remains after an iteration of a query. -/
theorem queryOnce_source {n m : ℕ} (h : queryOnce q source n w=.done (some (s,m)) w') :
    s=source ∨ s=source.rest := by
  unfold queryOnce at h
  rw [bind_apply,get_apply,Outcome.andThen_done] at h
  obtain ⟨r,t,_,h⟩ := bind_eq_done.mp h
  cases r with
  | none =>
    dsimp only at h
    rw [bind_apply,modify_apply,Outcome.andThen_done,pure_apply] at h
    cases h
    exact Or.inl rfl
  | some n' =>
    dsimp only at h
    rw [bind_apply,modify_apply,Outcome.andThen_done] at h
    obtain ⟨r,u,hs,h⟩ := bind_eq_done.mp h
    cases r with
    | none => cases h
    | some s' =>
      dsimp only at h
      rw [bind_apply,endConn,modify_apply,Outcome.andThen_done,pure_apply] at h
      cases h
      exact sendQuery_source hs

end Sources

/-- What is known of a connection object that ended its transactions with care. -/
structure Tracked (w : World) : Prop where
  /-- The server. -/
  calm : w.server.Calm
  /-- What was prepared is harmless. -/
  stmts : ∀ p,w.conn.protocol=some p → ∀ sql ∈ p.stmts,sql.Harmless
  /-- The results that are open are of a harmless command. -/
  opened : ∀ p c,w.conn.protocol=some p → p.curCommand=some c → c.Harmless
  /-- A connection from the pool has no prepared transaction. -/
  pooled : w.IsFromPool → w.NotPrepared
  /-- The pending commands start transactions and set savepoints. -/
  pending : ∀ sql,some sql ∈ w.conn.pendingTrxSql → sql.IsPending
  /-- The id of a pending transaction is complete. -/
  pendingId : ∀ y,some (.xaStart y) ∈ w.conn.pendingTrxSql → w.conn.curXaIdAppendConn=false
  /-- The id of an open transaction is complete. -/
  openId : ∀ x ph,w.kind=some (.xa x ph) → w.conn.curXaIdAppendConn=false
  /-- The transaction that is prepared is the one that the object knows. -/
  prepared : ∀ x,w.kind=some (.xa x .prepared) →
    w.conn.isXaPrepared=true ∧ w.conn.curXaId=x ∧ x≠""
  /-- A connection was given up with a prepared transaction only when it was forced,
  and then the transaction is on the list. -/
  given : ∀ g ∈ w.givenUp,∀ x,g.protocol.session.kind=some (.xa x .prepared) →
    g.forced=true ∧ ∃ t ∈ w.takeCare,t.rollbackPreparedXaId=x

namespace Tracked

variable {w : World}

/-- Nothing changes but the connection, the log and the answers that remain. -/
theorem change (h : Tracked w) {p q : MyProtocol} (hp : w.conn.protocol=some p) (log : List Entry)
    (answers : List Answer) (hstmts : ∀ sql ∈ q.stmts,sql.Harmless)
    (hopen : ∀ c,q.curCommand=some c → c.Harmless) (hpool : q.state=.IDLE_IN_POOL → p.state=.IDLE_IN_POOL)
    (hid : ∀ x ph,q.session.kind=some (.xa x ph) → w.conn.curXaIdAppendConn=false)
    (hprep : ∀ x,q.session.kind=some (.xa x .prepared) → p.session.kind=some (.xa x .prepared)) :
    Tracked (World.setProtocol {w with log := log,answers := answers} q) := by
  have hk : w.kind=p.session.kind := by
    simp only [World.kind,hp,Option.bind_some]
  refine ⟨h.calm,?_,?_,?_,h.pending,h.pendingId,?_,?_,h.given⟩
  · intro p' hp'
    cases hp'
    exact hstmts
  · intro p' c hp'
    cases hp'
    exact hopen c
  · rintro ⟨p',hp',hs⟩ x hx
    cases hp'
    exact h.pooled ⟨p,hp,hpool hs⟩ x (hk.trans (hprep x hx))
  · exact fun x ph hx => hid x ph hx
  · exact fun x hx => h.prepared x (hk.trans (hprep x hx))

/-- What a command executes is harmless, when the command is. -/
theorem executed (h : Tracked w) {p : MyProtocol} (hp : w.conn.protocol=some p) {c : Command}
    (hc : c.Harmless) {sql : Sql} (hs : p.executed c=some sql) : sql.Harmless := by
  cases c with
  | query s =>
    cases hs
    exact hc
  | stmtExecute stmtId values => exact h.stmts p hp sql (List.mem_of_getElem? hs)
  | _ => cases hs

/-- An answer changes the transaction as the SQL does. -/
theorem after_kind {b : Server} (hb : b.Calm) {p : MyProtocol} {c : Command} {a : Answer}
    (hc : ∀ sql,p.executed c=some sql → sql.Harmless) {x : String} {ph : Phase}
    (hk : (p.after b c a).session.kind=some (.xa x ph)) :
    ∃ ph',p.session.kind=some (.xa x ph') ∧ (ph=.prepared → ph'=.prepared) := by
  cases a with
  | lost => exact ⟨ph,hk,id⟩
  | refused e =>
    simp only [MyProtocol.after] at hk
    cases he : p.executed c with
    | none =>
      rw [he] at hk
      exact ⟨ph,hk,id⟩
    | some sql =>
      rw [he] at hk
      exact ⟨ph,hb.fail_kind hk,id⟩
  | ok hasRows more =>
    cases he : p.executed c with
    | some sql =>
      have hs : (p.after b c (.ok hasRows more)).session=b.exec sql p.nResults p.session := by
        cases c <;> simp only [MyProtocol.after,he] <;> first | rfl | cases he
      rw [hs] at hk
      exact hb.exec_kind (hc sql he) hk
    | none =>
      by_cases hr : c=.resetConnection
      · subst hr
        have hs : (p.after b .resetConnection (.ok hasRows more)).session=p.session.reset := rfl
        rw [hs] at hk
        unfold Session.reset at hk
        split at hk
        · exact ⟨ph,hk,id⟩
        · simp at hk
      · have hs : (p.after b c (.ok hasRows more)).session=p.session := by
          cases c <;> simp only [MyProtocol.after,he] <;> first | rfl | exact absurd rfl hr
        rw [hs] at hk
        exact ⟨ph,hk,id⟩

/-- An answer leaves the state of the object as it is. -/
theorem after_state {b : Server} {p : MyProtocol} {c : Command} {a : Answer} :
    (p.after b c a).state=p.state ∧ (p.after b c a).curCommand=p.curCommand := by
  cases a with
  | ok hasRows more => cases c <;> exact ⟨rfl,rfl⟩
  | _ => exact ⟨rfl,rfl⟩

/-- What is prepared after a command was prepared before or is its own. -/
theorem after_stmts {b : Server} {p : MyProtocol} {c : Command} {a : Answer} {sql : Sql}
    (h : sql ∈ (p.after b c a).stmts) : sql ∈ p.stmts ∨ c=.stmtPrepare sql := by
  cases a with
  | ok hasRows more =>
    cases c with
    | stmtPrepare s =>
      rcases List.mem_append.mp h with h | h
      · exact Or.inl h
      · rw [List.mem_singleton.mp h]
        exact Or.inr rfl
    | _ => exact Or.inl h
  | _ => exact Or.inl h

/-- Harmless commands, and with `starts` also the start of a distributed transaction. -/
def Allowed (starts : Bool) (c : Command) : Prop := c.Harmless ∨ starts=true ∧ ∃ y,c=.query (.xaStart y)

/-- What is known is kept, no transaction gets prepared, and the fields of the
object are not changed. -/
structure Steady (w w' : World) : Prop where
  /-- What is known is kept. -/
  tracked : Tracked w'
  /-- No transaction gets prepared. -/
  notPrepared : w.NotPrepared → w'.NotPrepared
  /-- The fields of the object. -/
  fields : w'.conn={w.conn with protocol := w'.conn.protocol}

/-- One thing after another. -/
theorem Steady.trans {w w' w'' : World} (h : Steady w w') (h' : Steady w' w'') : Steady w w'' :=
  ⟨h'.tracked,h'.notPrepared ∘ h.notPrepared,by rw [h'.fields,h.fields]⟩

/-- The part of an id that is put off. -/
theorem Steady.append {w' : World} (h : Steady w w') :
    w'.conn.curXaIdAppendConn=w.conn.curXaIdAppendConn := by
  rw [h.fields]

/-- Nothing happened. -/
theorem Steady.refl (h : Tracked w) : Steady w w := ⟨h,id,rfl⟩

/-- The transaction that is open was open before, or starts now. -/
theorem after_allowed (h : Tracked w) {starts : Bool} {p : MyProtocol} (hp : w.conn.protocol=some p)
    {c : Command} (hc : Allowed starts c) {a : Answer} {x : String} {ph : Phase}
    (hk : (p.after w.server c a).session.kind=some (.xa x ph)) :
    (p.session.kind=some (.xa x ph) ∨ ph≠.prepared) ∧
      ((∃ ph',p.session.kind=some (.xa x ph')) ∨ starts=true) := by
  rcases hc with hc | ⟨hs,y,rfl⟩
  · obtain ⟨ph',hph,hpp⟩ := after_kind h.calm (fun sql => h.executed hp hc) hk
    refine ⟨?_,Or.inl ⟨ph',hph⟩⟩
    by_cases he : ph=.prepared
    · rw [hpp he] at hph
      rw [he]
      exact Or.inl hph
    · exact Or.inr he
  · refine ⟨?_,Or.inr hs⟩
    cases a with
    | lost => exact Or.inl hk
    | refused e => exact Or.inl hk
    | ok hasRows more =>
      have hse : (p.after w.server (.query (.xaStart y)) (.ok hasRows more)).session=
          (p.session.exec (.xaStart y)).getD p.session := rfl
      rw [hse] at hk
      simp only [Session.exec] at hk
      split at hk
      · rw [Option.getD_some,kind_start] at hk
        cases hk
        exact Or.inr (by simp)
      · exact Or.inl hk

/-- The commands leave everything known as it is. -/
theorem respects (starts : Bool) : Respects (fun w w' => Tracked w →
    (starts=true → w.conn.curXaIdAppendConn=false) → Steady w w') (Allowed starts) Command.Harmless where
  refl w h _ := Steady.refl h
  trans s t u h h' hs ha := by
    have ht := h hs ha
    refine ht.trans (h' ht.tracked (fun hst => ?_))
    rw [ht.fields]
    exact ha hst
  initDb _ := Or.inl trivial
  send c _ w h _ := by
    unfold send
    cases hp : w.conn.protocol with
    | none => exact Steady.refl h
    | some p =>
      have hc := h.change hp (w.log++[.sent p.connectionId c]) w.answers (h.stmts p hp)
        (fun c => h.opened p c hp) id (fun x ph hx => h.openId x ph (by
          simpa only [World.kind,hp,Option.bind_some] using hx)) (fun x => id)
      have he : World.setProtocol {w with log := w.log++[.sent p.connectionId c],answers := w.answers} p=
          w.note (.sent p.connectionId c) := by
        simp only [World.setProtocol,World.note,←hp]
      rw [he] at hc
      exact ⟨hc,id,rfl⟩
  receive c hc w h ha := by
    unfold receive
    cases hp : w.conn.protocol with
    | none => exact Steady.refl h
    | some p =>
      have hk : w.kind=p.session.kind := by
        simp only [World.kind,hp,Option.bind_some]
      dsimp only
      split
      · exact Steady.refl h
      · cases hr : w.reply p c with
        | none => exact Steady.refl h
        | some r =>
          have hprep : ∀ x,(p.after w.server c r.1).session.kind=some (.xa x .prepared) →
              p.session.kind=some (.xa x .prepared) := by
            intro x hx
            exact (h.after_allowed hp hc hx).1.resolve_right (fun hn => hn rfl)
          refine ⟨h.change hp _ _ ?_ ?_ ?_ ?_ hprep,?_,rfl⟩
          · intro sql hm
            rcases after_stmts hm with hm | rfl
            · exact h.stmts p hp sql hm
            · rcases hc with hc | ⟨_,y,hy⟩
              · exact hc
              · cases hy
          · intro c' hc'
            rw [after_state.2] at hc'
            exact h.opened p c' hp hc'
          · rw [after_state.1]
            exact id
          · intro x ph hx
            rcases (h.after_allowed hp hc hx).2 with ⟨ph',hph⟩ | hs
            · exact h.openId x ph' (hk.trans hph)
            · exact ha hs
          · intro hn x hx
            exact hn x (hk.trans (hprep x hx))
  schema w p hp h _ := by
    have hk : w.kind=p.session.kind := by
      simp only [World.kind,hp,Option.bind_some]
    refine ⟨h.change hp w.log w.answers (h.stmts p hp) (fun c => h.opened p c hp) id
      (fun x ph hx => h.openId x ph (hk.trans hx)) (fun x => id),?_,rfl⟩
    exact fun hn x hx => hn x (hk.trans hx)
  update w p q hp hq hc hs h _ := by
    have hk : w.kind=p.session.kind := by
      simp only [World.kind,hp,Option.bind_some]
    have hsess : q.session=p.session := by
      rw [hq]
    refine ⟨h.change hp w.log w.answers ?_ ?_ (fun he => absurd he hs) ?_ ?_,?_,rfl⟩
    · rw [hq]
      exact h.stmts p hp
    · intro c hqc
      rcases hc with hc | hc
      · rw [hc] at hqc
        exact h.opened p c hp hqc
      · exact hc c hqc
    · intro x ph hx
      rw [hsess] at hx
      exact h.openId x ph (hk.trans hx)
    · intro x hx
      rw [hsess] at hx
      exact hx
    · intro hn x hx
      have hx' : q.session.kind=some (.xa x .prepared) := hx
      rw [hsess] at hx'
      exact hn x (hk.trans hx')

/-- Harmless commands leave everything known as it is. -/
theorem harmless : Respects (fun w w' => Tracked w → Steady w w') Command.Harmless Command.Harmless where
  refl _ := Steady.refl
  trans _ _ _ h h' ht := (h ht).trans (h' (h ht).tracked)
  initDb _ := trivial
  send c hc w h := (respects false).send c (Or.inl hc) w h (fun hf => absurd hf Bool.false_ne_true)
  receive c hc w h := (respects false).receive c (Or.inl hc) w h (fun hf => absurd hf Bool.false_ne_true)
  schema w p hp h := (respects false).schema w p hp h (fun hf => absurd hf Bool.false_ne_true)
  update w p q hp hq hc hs h :=
    (respects false).update w p q hp hq hc hs h (fun hf => absurd hf Bool.false_ne_true)

/-- Resetting the fields adds no pending command. -/
theorem reset_pending {c : MyConn} {noResetPending : Bool} {pending : Option Sql}
    (hm : pending ∈ (c.reset noResetPending).pendingTrxSql) : pending ∈ c.pendingTrxSql := by
  unfold MyConn.reset at hm
  split at hm
  · exact hm
  · cases hm

/-- Resetting the fields does not put off a part of an id. -/
theorem reset_append {c : MyConn} (noResetPending : Bool) (ha : c.curXaIdAppendConn=false) :
    (c.reset noResetPending).curXaIdAppendConn=false := by
  unfold MyConn.reset
  split
  · exact ha
  · rfl

/-- Resetting the fields lets the connection go. -/
theorem reset_protocol (c : MyConn) (noResetPending : Bool) : (c.reset noResetPending).protocol=none := by
  unfold MyConn.reset
  split <;> rfl

/-- The object has no connection any more. -/
theorem released (h : Tracked w) {w' : World} (hserver : w'.server=w.server)
    (hnone : w'.conn.protocol=none)
    (hpend : ∀ pending ∈ w'.conn.pendingTrxSql,pending ∈ w.conn.pendingTrxSql)
    (hid : w.conn.curXaIdAppendConn=false → w'.conn.curXaIdAppendConn=false)
    (hgiven : ∀ g ∈ w'.givenUp,∀ x,g.protocol.session.kind=some (.xa x .prepared) →
      g.forced=true ∧ ∃ t ∈ w'.takeCare,t.rollbackPreparedXaId=x) : Tracked w' := by
  have hk : w'.kind=none := by
    simp only [World.kind,hnone,Option.bind_none]
  refine ⟨hserver ▸ h.calm,?_,?_,?_,?_,?_,?_,?_,hgiven⟩
  · intro p hp
    rw [hnone] at hp
    cases hp
  · intro p c hp
    rw [hnone] at hp
    cases hp
  · rintro ⟨p,hp,_⟩
    rw [hnone] at hp
    cases hp
  · exact fun sql hm => h.pending sql (hpend _ hm)
  · exact fun y hm => hid (h.pendingId y (hpend _ hm))
  · intro x ph hx
    rw [hk] at hx
    cases hx
  · intro x hx
    rw [hk] at hx
    cases hx

/-- A connection without a prepared transaction is given up. -/
theorem doEnd (h : Tracked w) (hn : w.NotPrepared) (noResetPending : Bool) :
    Tracked (w.doEnd noResetPending none) := by
  cases hp : w.conn.protocol with
  | none =>
    simp only [World.doEnd,hp]
    exact h.released rfl (reset_protocol _ _) (fun _ => reset_pending) (reset_append _) h.given
  | some p =>
    simp only [World.doEnd,hp]
    refine h.released rfl (reset_protocol _ _) (fun _ => reset_pending) (reset_append _) ?_
    intro g hg x hx
    rcases List.mem_append.mp hg with hg | hg
    · exact h.given g hg x hx
    · rw [List.mem_singleton.mp hg] at hx
      refine absurd ?_ (hn x)
      simp only [World.kind,hp,Option.bind_some]
      exact hx

/-- A prepared transaction is put on the list. -/
theorem mem_takeCareOf (p : MyProtocol) {x : String} (hx : x≠"") (killCurQuery : Bool) :
    ∃ t ∈ takeCareOf p x killCurQuery,t.rollbackPreparedXaId=x := by
  unfold takeCareOf
  rw [if_pos (Or.inl hx)]
  exact ⟨_,List.mem_singleton.mpr rfl,rfl⟩

/-- A connection is given up at once, and its prepared transaction is put on the list. -/
theorem doEnd_force (h : Tracked w) {force : Force}
    (hf : w.NotPrepared ∨ force.noRollbackCurXa=false) : Tracked (w.doEnd false (some force)) := by
  cases hp : w.conn.protocol with
  | none =>
    simp only [World.doEnd,hp]
    exact h.released rfl (reset_protocol _ _) (fun _ => reset_pending) (reset_append _) h.given
  | some p =>
    simp only [World.doEnd,hp]
    refine h.released rfl (reset_protocol _ _) (fun _ => reset_pending) (reset_append _) ?_
    intro g hg x hx
    rcases List.mem_append.mp hg with hg | hg
    · obtain ⟨hforced,t,ht,htx⟩ := h.given g hg x hx
      exact ⟨hforced,t,List.mem_append_left _ ht,htx⟩
    · rw [List.mem_singleton.mp hg] at hx ⊢
      have hk : w.kind=some (.xa x .prepared) := by
        simp only [World.kind,hp,Option.bind_some]
        have hs : p.forceImmediateDisconnect.session=p.session := by
          unfold MyProtocol.forceImmediateDisconnect
          split <;> rfl
        rw [←hs]
        exact hx
      obtain ⟨hx1,hx2,hx3⟩ := h.prepared x hk
      have hno := hf.resolve_left (fun hn => hn x hk)
      have hid : w.conn.preparedXaId=x := by
        simp only [MyConn.preparedXaId,hx1,if_true,hx2]
      rw [hno,if_neg Bool.false_ne_true,hid]
      obtain ⟨t,ht,htx⟩ := mem_takeCareOf p hx3 (!force.noKillCurQuery)
      refine ⟨?_,t,List.mem_append_right _ ht,htx⟩
      rfl

/-- A connection is taken from the pool. -/
theorem connect (h : Tracked w) : Tracked (Conn.connect w).state := by
  have hnew : ∀ {w' : World} {p : MyProtocol},w'.server=w.server → w'.givenUp=w.givenUp →
      w'.takeCare=w.takeCare → w'.conn={w.conn with pendingChangeSchema := w'.conn.pendingChangeSchema} →
      p.session.kind=none → p.stmts=[] → p.curCommand=none → Tracked (w'.setProtocol p) := by
    intro w' p hserver hgiven htake hconn hk hstmts hcur
    have hk' : (w'.setProtocol p).kind=none := hk
    have hfields : (w'.setProtocol p).conn={w.conn with
        pendingChangeSchema := w'.conn.pendingChangeSchema,protocol := some p} := by
      simp only [World.setProtocol]
      rw [hconn]
    refine ⟨hserver ▸ h.calm,?_,?_,?_,?_,?_,?_,?_,?_⟩
    · intro q hq sql hm
      cases hq
      rw [hstmts] at hm
      cases hm
    · intro q c hq hc
      cases hq
      rw [hcur] at hc
      cases hc
    · intro _ x hx
      rw [hk'] at hx
      cases hx
    · rw [hfields]
      exact h.pending
    · rw [hfields]
      exact h.pendingId
    · intro x ph hx
      rw [hk'] at hx
      cases hx
    · intro x hx
      rw [hk'] at hx
      cases hx
    · intro g hg
      rw [show (w'.setProtocol p).takeCare=w.takeCare from htake]
      exact h.given g (hgiven ▸ hg)
  unfold Conn.connect
  split
  · exact h
  · cases hp : w.conn.protocol with
    | some p => exact h
    | none =>
      dsimp only
      split
      · exact h
      · have hgone : ∀ supply,Tracked {w with
            conn := {w.conn with pendingChangeSchema := ""},supply := supply} := fun supply =>
          h.released rfl hp (fun _ hm => hm) id h.given
        cases hs : w.supply with
        | nil =>
          have h' := hgone w.supply
          rw [hs] at h'
          exact h'
        | cons s supply =>
          cases s with
          | pooled p stolen => exact hnew rfl rfl rfl rfl rfl rfl rfl
          | opened p leaves => exact hnew rfl rfl rfl rfl rfl rfl rfl
          | failed e => exact hgone supply

/-- Fields that do not matter here are changed. -/
theorem setFields (h : Tracked w) (c : MyConn) (hp : c.protocol=w.conn.protocol)
    (hpend : ∀ pending ∈ c.pendingTrxSql,pending ∈ w.conn.pendingTrxSql)
    (hid : c.curXaId=w.conn.curXaId) (happend : c.curXaIdAppendConn=w.conn.curXaIdAppendConn)
    (hprep : c.isXaPrepared=w.conn.isXaPrepared) : Tracked {w with conn := c} := by
  have hk : World.kind {w with conn := c}=w.kind := by
    simp only [World.kind,hp]
  refine ⟨h.calm,?_,?_,?_,?_,?_,?_,?_,h.given⟩
  · intro p hp'
    exact h.stmts p (hp ▸ hp')
  · intro p q hp'
    exact h.opened p q (hp ▸ hp')
  · rintro ⟨p,hp',hs⟩ x hx
    rw [hk] at hx
    exact h.pooled ⟨p,hp ▸ hp',hs⟩ x hx
  · exact fun sql hm => h.pending sql (hpend _ hm)
  · exact fun y hm => happend.trans (h.pendingId y (hpend _ hm))
  · intro x ph hx
    rw [hk] at hx
    exact happend.trans (h.openId x ph hx)
  · intro x hx
    rw [hk] at hx
    exact ⟨hprep.trans (h.prepared x hx).1,hid.trans (h.prepared x hx).2.1,(h.prepared x hx).2.2⟩

/-- The id of the connection is appended, when the transaction is not open yet. -/
theorem appendConn (h : Tracked w) : Tracked (Conn.appendConn w).state ∧
    (Conn.appendConn w).state.conn.curXaIdAppendConn=false ∧
    (w.conn.curXaIdAppendConn=false → (Conn.appendConn w).state=w) := by
  simp only [Conn.appendConn,modify_apply,Outcome.state]
  split
  · rename_i ha
    refine ⟨⟨h.calm,h.stmts,h.opened,h.pooled,h.pending,fun _ _ => rfl,fun _ _ _ => rfl,?_,h.given⟩,rfl,?_⟩
    · intro x hx
      rw [h.openId x _ hx] at ha
      cases ha
    · intro hf
      rw [hf] at ha
      cases ha
  · rename_i ha
    exact ⟨h,Bool.not_eq_true _ ▸ ha,fun _ => rfl⟩

/-- A pending command is sent. -/
theorem sendPending (h : Tracked w) {sql : Sql} (hs : sql.IsPending)
    (hid : ∀ y,sql=.xaStart y → w.conn.curXaIdAppendConn=false) (letReturnUndefined : Bool)
    (options : RetryOptions) :
    Steady w (sendComQuery (.text sql) true letReturnUndefined options w).state := by
  by_cases hx : ∃ y,sql=.xaStart y
  · obtain ⟨y,rfl⟩ := hx
    exact (respects true).sendComQuery (Respects.sends_text (Or.inr ⟨rfl,y,rfl⟩)) (Or.inl rfl) _ _ w h
      (fun _ => hid y rfl)
  · have hh : (Command.query sql).Harmless := by
      cases sql <;> first | exact trivial | exact hs.elim | exact absurd ⟨_,rfl⟩ hx
    exact harmless.sendComQuery (Respects.sends_text hh) (Or.inl rfl) _ _ w h

/-- What is known of the end of an operation that may give up the connection:
then no transaction is prepared on it. -/
def Kept {α : Type} (r : Outcome Error World (Option α)) : Prop :=
  Tracked r.state ∧ ∀ w',r=.done none w' → w'.NotPrepared

/-- The pending commands are sent. -/
theorem flushPending (h : Tracked w) {rest : List (Option Sql)}
    (hr : ∀ sql,some sql ∈ rest → sql.IsPending)
    (hid : ∀ y,some (.xaStart y) ∈ rest → w.conn.curXaIdAppendConn=false) (n : ℕ) :
    Kept (Conn.flushPending rest n w) := by
  induction rest generalizing w n with
  | nil => exact ⟨h,fun _ hw => by cases hw⟩
  | cons pending rest ih =>
    -- the id is complete before the transaction starts
    obtain ⟨w₁,hx,ht,hid₁⟩ : ∃ w₁,doWhen (pending=none) Conn.appendConn w=.done () w₁ ∧
        Tracked w₁ ∧ (w.conn.curXaIdAppendConn=false ∨ pending=none → w₁.conn.curXaIdAppendConn=false) := by
      by_cases hp : pending=none
      · obtain ⟨ht,hf,_⟩ := h.appendConn
        exact ⟨_,by rw [doWhen,if_pos hp]; rfl,ht,fun _ => hf⟩
      · exact ⟨w,by rw [doWhen,if_neg hp]; rfl,h,fun ho => ho.resolve_right hp⟩
    have hsql : (pending.getD (.xaStart w₁.conn.curXaId)).IsPending := by
      cases pending with
      | none => exact trivial
      | some sql => exact hr sql List.mem_cons_self
    have hstart : ∀ y,pending.getD (.xaStart w₁.conn.curXaId)=.xaStart y →
        w₁.conn.curXaIdAppendConn=false := by
      intro y hy
      cases pending with
      | none => exact hid₁ (Or.inr rfl)
      | some sql =>
        cases hy
        exact hid₁ (Or.inl (hid y List.mem_cons_self))
    have hsteady := ht.sendPending hsql hstart (decide (0 < n)) w₁.retryOptions
    unfold Conn.flushPending
    rw [bind_apply,hx,Outcome.andThen_done,bind_apply,get_apply,Outcome.andThen_done,bind_apply]
    cases hq : sendComQuery (.text (pending.getD (.xaStart w₁.conn.curXaId))) true (decide (0 < n))
        w₁.retryOptions w₁ with
    | thrown e w₂ =>
      rw [hq] at hsteady
      exact ⟨hsteady.tracked,fun _ hw => by cases hw⟩
    | waiting w₂ =>
      rw [hq] at hsteady
      exact ⟨hsteady.tracked,fun _ hw => by cases hw⟩
    | done r w₂ =>
      rw [hq] at hsteady
      cases r with
      | none =>
        refine ⟨hsteady.tracked,fun w' hw => ?_⟩
        cases hw
        exact hsteady.notPrepared (ht.pooled (sendComQuery_none hq))
      | some u =>
        refine ih hsteady.tracked (fun sql hm => hr sql (List.mem_cons_of_mem _ hm)) (fun y hm => ?_) _
        have hf : w₂.conn.curXaIdAppendConn=w₁.conn.curXaIdAppendConn := hsteady.append
        exact hf.trans (hid₁ (Or.inl (hid y (List.mem_cons_of_mem _ hm))))

/-- What is known of the end of a query: no transaction is prepared, when the
connection is given up. -/
def KeptLeft (r : Outcome Error World (Option Source)) : Prop :=
  Tracked r.state ∧ ∀ s w',r=.done (some s) w' → w'.NotPrepared

/-- A query that is not done on a connection of the pool leaves its source. -/
theorem keptLeft_bind {α : Type} (h : Tracked w) {x : Op (Option α)} (hx : Steady w (x w).state)
    (hn : ∀ w',x w=.done none w' → w.IsFromPool) {f : Option α → Op (Option Source)}
    (hsome : ∀ a w',x w=.done (some a) w' → Tracked w' → KeptLeft (f (some a) w'))
    {s : Source} (hnone : f none=pure (some s)) : KeptLeft ((x >>= f) w) := by
  rw [bind_apply]
  cases hr : x w with
  | thrown e w' =>
    rw [hr] at hx
    exact ⟨hx.tracked,fun _ _ hw => by cases hw⟩
  | waiting w' =>
    rw [hr] at hx
    exact ⟨hx.tracked,fun _ _ hw => by cases hw⟩
  | done r w' =>
    rw [hr] at hx
    cases r with
    | some a => exact hsome a w' hr hx.tracked
    | none =>
      rw [Outcome.andThen_done,hnone]
      refine ⟨hx.tracked,fun _ w'' hw => ?_⟩
      cases hw
      exact hx.notPrepared (h.pooled (hn w' hr))

/-- An operation that is known to be harmless is followed by the end of the query. -/
theorem keptLeft_end {x : Op Unit} (hx : Tracked (x w).state) :
    KeptLeft ((do x; return none : Op (Option Source)) w) := by
  rw [bind_apply]
  cases hr : x w with
  | done r w' =>
    rw [hr] at hx
    exact ⟨hx,fun _ _ hw => by cases hw⟩
  | thrown e w' =>
    rw [hr] at hx
    exact ⟨hx,fun _ _ hw => by cases hw⟩
  | waiting w' =>
    rw [hr] at hx
    exact ⟨hx,fun _ _ hw => by cases hw⟩

/-- The end of a query that was done. -/
theorem keptLeft_pure (h : Tracked w) : KeptLeft ((pure none : Op (Option Source)) w) :=
  ⟨h,fun _ _ hw => by cases hw⟩

/-- An error is thrown. -/
theorem keptLeft_fail (h : Tracked w) (e : Error) : KeptLeft ((fail e : Op (Option Source)) w) :=
  ⟨h,fun _ _ hw => by cases hw⟩

/-- What leaves the fields alone keeps what is known. -/
theorem kept {α : Type} {x : Op α} (hx : Always (fun w w' => Tracked w → Steady w w') x) :
    Always (fun w w' => Tracked w → Tracked w') x := fun w h => (hx w h).tracked

/-- One operation after another keeps what is known. -/
theorem kept_bind {α β : Type} {x : Op α} {f : α → Op β}
    (hx : Always (fun w w' => Tracked w → Tracked w') x)
    (hf : ∀ a,Always (fun w w' => Tracked w → Tracked w') (f a)) :
    Always (fun w w' => Tracked w → Tracked w') (x >>= f) :=
  Always.bind (R:=fun w w' => Tracked w → Tracked w') (fun _ _ _ h h' ht => h' (h ht)) hx hf

/-- A prepared statement is executed. -/
theorem execStmt (h : Tracked w) (stmtId : ℕ) (values : List Value) (void : Bool) :
    Tracked (Conn.execStmt stmtId values void w).state := by
  have hx : Always (fun w w' => Tracked w → Tracked w') (Conn.execStmt stmtId values void) := by
    refine kept_bind (kept harmless.setQueryingState) (fun _ => ?_)
    refine kept_bind (kept (harmless.send _ trivial)) (fun _ => ?_)
    refine kept_bind (kept (harmless.receive _ trivial)) (fun a => ?_)
    cases a.error with
    | some e => exact kept (harmless.rethrowError e)
    | none =>
      refine kept_bind (kept (harmless.setStateAfter (Or.inr ?_) a)) (fun _ => ?_)
      · intro c hc
        cases hc
        exact trivial
      · refine Always.doWhen (R:=fun w w' => Tracked w → Tracked w') (fun _ => id) (fun w h => ?_)
        exact (harmless.discard (fun p c hp hc => h.opened p c hp hc) h).tracked
  exact hx w h

/-- The statement for named parameters is found or prepared. -/
theorem namedStmt (h : Tracked w) (n : ℕ) (letReturnUndefined : Bool) :
    Kept (Conn.namedStmt n letReturnUndefined w) := by
  unfold Conn.namedStmt
  rw [bind_apply,get_apply,Outcome.andThen_done]
  cases (w.conn.preparedStmtsForParams[(n-1)/8]?).join with
  | some stmtId => exact ⟨h,fun _ hw => by cases hw⟩
  | none =>
    have hx : Steady w (sendComStmtPrepare (.text (.placeholders (nPlaceholders n)))
        letReturnUndefined w).state :=
      harmless.sendComStmtPrepare (fun sql hq => by cases hq; exact trivial) letReturnUndefined w h
    dsimp only
    rw [bind_apply]
    cases hr : sendComStmtPrepare (.text (.placeholders (nPlaceholders n))) letReturnUndefined w with
    | thrown e w' =>
      rw [hr] at hx
      exact ⟨hx.tracked,fun _ hw => by cases hw⟩
    | waiting w' =>
      rw [hr] at hx
      exact ⟨hx.tracked,fun _ hw => by cases hw⟩
    | done r w' =>
      rw [hr] at hx
      cases r with
      | some stmtId =>
        refine ⟨?_,fun _ hw => by cases hw⟩
        exact Tracked.setFields hx.tracked _ rfl (fun _ => id) rfl rfl rfl
      | none =>
        refine ⟨hx.tracked,fun w'' hw => ?_⟩
        cases hw
        exact hx.notPrepared (h.pooled (sendComStmtPrepare_none hr))

/-- A query is sent. -/
theorem sendQuery (h : Tracked w) (q : Query) {source : Source}
    (hs : ∀ sql,source.sql=some sql ∨ source.rest.sql=some sql → sql.Harmless)
    (letReturnUndefined : Bool) : KeptLeft (Conn.sendQuery q source letReturnUndefined w) := by
  have hsends : Respects.Sends Command.Harmless source :=
    ⟨fun sql hq => hs sql (Or.inl hq),fun sql hq => hs sql (Or.inr hq)⟩
  have hquery : ∀ options,KeptLeft ((do
      let done ← sendComQuery source q.void letReturnUndefined options
      return leftOver done source.rest : Op (Option Source)) w) := fun options =>
    h.keptLeft_bind (harmless.sendComQuery hsends (Or.inr (fun _ => id)) _ _ w h)
      (fun _ => sendComQuery_none) (fun _ _ _ => keptLeft_pure) rfl
  have hprep : Steady w (sendComStmtPrepare source letReturnUndefined w).state :=
    harmless.sendComStmtPrepare (fun sql hq => hs sql (Or.inl hq)) letReturnUndefined w h
  unfold Conn.sendQuery
  rw [bind_apply,get_apply,Outcome.andThen_done]
  cases q.params with
  | none => exact hquery _
  | prepare =>
    dsimp only
    rw [branch_apply]
    split
    · exact keptLeft_fail h _
    · exact h.keptLeft_bind hprep (fun _ => sendComStmtPrepare_none) (fun _ _ _ => keptLeft_pure) rfl
  | positional values =>
    dsimp only
    rw [branch_apply]
    split
    · exact keptLeft_fail h _
    · exact h.keptLeft_bind hprep (fun _ => sendComStmtPrepare_none)
        (fun _ _ _ ht => keptLeft_end (ht.execStmt _ _ _)) rfl
  | named params =>
    cases params with
    | nil => exact hquery _
    | cons param params =>
      dsimp only
      rw [branch_apply]
      split
      · exact keptLeft_fail h _
      · obtain ⟨hx,hn⟩ := h.namedStmt (param::params).length letReturnUndefined
        rw [bind_apply]
        cases hr : Conn.namedStmt (param::params).length letReturnUndefined w with
        | thrown e w' =>
          rw [hr] at hx
          exact ⟨hx,fun _ _ hw => by cases hw⟩
        | waiting w' =>
          rw [hr] at hx
          exact ⟨hx,fun _ _ hw => by cases hw⟩
        | done r w' =>
          rw [hr] at hx
          cases r with
          | none =>
            refine ⟨hx,fun _ w'' hw => ?_⟩
            cases hw
            exact hn w' hr
          | some stmtId =>
            refine Tracked.keptLeft_bind hx ?_ (fun _ => sendThreeQueries_none)
              (fun _ _ _ => keptLeft_pure) rfl
            refine harmless.sendThreeQueries (fun pre hp => ?_) (fun sql hp => ?_) hsends
              (Or.inr (fun _ => id)) _ _ _ w' hx
            · exact trivial
            · cases hp
              exact trivial

/-- One iteration of a query. -/
theorem queryOnce (h : Tracked w) (q : Query) {source : Source}
    (hs : ∀ sql,source.sql=some sql ∨ source.rest.sql=some sql → sql.Harmless) (n : ℕ) :
    Tracked (Conn.queryOnce q source n w).state := by
  unfold Conn.queryOnce
  rw [bind_apply,get_apply,Outcome.andThen_done,bind_apply]
  obtain ⟨hx,hn⟩ := h.flushPending h.pending h.pendingId n
  cases hr : Conn.flushPending w.conn.pendingTrxSql n w with
  | thrown e w₁ =>
    rw [hr] at hx
    exact hx
  | waiting w₁ =>
    rw [hr] at hx
    exact hx
  | done r w₁ =>
    rw [hr] at hx
    cases r with
    | none => exact Tracked.doEnd hx (hn w₁ hr) true
    | some n' =>
      have ht : Tracked {w₁ with conn := {w₁.conn with pendingTrxSql := []}} :=
        Tracked.setFields hx _ rfl (fun _ hm => by cases hm) rfl rfl rfl
      obtain ⟨hx₂,hn₂⟩ := ht.sendQuery q hs (decide (0 < n'))
      dsimp only [Outcome.andThen_done]
      rw [bind_apply,modify_apply,Outcome.andThen_done,bind_apply]
      cases hr₂ : Conn.sendQuery q source (decide (0 < n'))
          {w₁ with conn := {w₁.conn with pendingTrxSql := []}} with
      | thrown e w₂ =>
        rw [hr₂] at hx₂
        exact hx₂
      | waiting w₂ =>
        rw [hr₂] at hx₂
        exact hx₂
      | done r₂ w₂ =>
        rw [hr₂] at hx₂
        cases r₂ with
        | none => exact hx₂
        | some s => exact Tracked.doEnd hx₂ (hn₂ s w₂ hr₂) false

/-- A source with harmless SQL. -/
def HarmlessSource (source : Source) : Prop :=
  ∀ sql,source.sql=some sql ∨ source.rest.sql=some sql → sql.Harmless

/-- The iterations of a query. -/
theorem queryIterations (q : Query) (n : ℕ) {source : Source} (hs : HarmlessSource source)
    (h : Tracked w) (nRetriesRemaining : ℕ) :
    Tracked (Conn.queryIterations q n source nRetriesRemaining w).state := by
  induction n generalizing source w nRetriesRemaining with
  | zero => exact h
  | succ n ih =>
    unfold Conn.queryIterations
    rw [bind_apply]
    have hc := h.connect
    cases hr : Conn.connect w with
    | thrown e w₁ =>
      rw [hr] at hc
      exact hc
    | waiting w₁ =>
      rw [hr] at hc
      exact hc
    | done u w₁ =>
      rw [hr] at hc
      have hq := Tracked.queryOnce hc q hs nRetriesRemaining
      dsimp only [Outcome.andThen_done,Outcome.state] at hq ⊢
      rw [bind_apply]
      cases hr₂ : Conn.queryOnce q source nRetriesRemaining w₁ with
      | thrown e w₂ =>
        rw [hr₂] at hq
        exact hq
      | waiting w₂ =>
        rw [hr₂] at hq
        exact hq
      | done r w₂ =>
        rw [hr₂] at hq
        cases r with
        | none => exact hq
        | some next =>
          refine ih ?_ hq _
          rcases queryOnce_source hr₂ with he | he
          · rw [he]
            exact hs
          · rw [he]
            intro sql hsql
            rw [rest_rest,or_self] at hsql
            exact hs sql (Or.inr hsql)

/-- A query. -/
theorem doQuery (h : Tracked w) {q : Query} (hs : HarmlessSource q.sql) :
    Tracked (Conn.doQuery q w).state := queryIterations q _ hs h _

/-- What a user wrote is harmless. -/
theorem harmlessSource {q : Query} (hq : q.OfUser) : HarmlessSource q.sql := by
  intro sql hsql
  rcases hsql with hsql | hsql
  · have hu := hq sql hsql
    cases sql <;> first | exact trivial | cases hu
  · cases hs : q.sql with
    | text sql' =>
      rw [hs] at hsql
      have hu := hq sql (by rw [hs]; exact hsql)
      cases sql <;> first | exact trivial | cases hu
    | seeker sql' =>
      rw [hs] at hsql
      cases hsql
      exact trivial
    | stream sql' =>
      rw [hs] at hsql
      cases hsql
    | consumed =>
      rw [hs] at hsql
      cases hsql

/-- The fields of the transaction are cleared. -/
theorem clearTrx (h : Tracked w) (hn : w.NotPrepared) : Tracked (Conn.clearTrx w).state := by
  refine ⟨h.calm,h.stmts,h.opened,h.pooled,?_,?_,fun _ _ _ => rfl,?_,h.given⟩
  · intro sql hm
    cases hm
  · intro y hm
    cases hm
  · intro x hx
    exact absurd hx (hn x)

/-- The fields of a transaction are set. -/
theorem setTrx (h : Tracked w) (hn : w.NotPrepared) (options : TrxOptions) :
    Tracked {w with conn := w.conn.setTrx options} := by
  have hcore : ∀ {c : MyConn},c.protocol=w.conn.protocol →
      (∀ sql,some sql ∈ c.pendingTrxSql → sql.IsPending) →
      (c.curXaIdAppendConn=true → c.protocol=none ∧ ∀ y,some (.xaStart y) ∉ c.pendingTrxSql) →
      Tracked {w with conn := c} := by
    intro c hp hpend happend
    have hk : World.kind {w with conn := c}=w.kind := by
      simp only [World.kind,hp]
    refine ⟨h.calm,?_,?_,?_,hpend,?_,?_,?_,h.given⟩
    · intro p hp'
      exact h.stmts p (hp ▸ hp')
    · intro p q hp'
      exact h.opened p q (hp ▸ hp')
    · rintro _ x hx
      exact hn x (hk ▸ hx)
    · intro y hm
      cases ha : c.curXaIdAppendConn with
      | false => rfl
      | true => exact absurd hm ((happend ha).2 y)
    · intro x ph hx
      cases ha : c.curXaIdAppendConn with
      | false => rfl
      | true =>
        simp only [World.kind,(happend ha).1] at hx
        cases hx
    · intro x hx
      exact absurd (hk ▸ hx) (hn x)
  unfold MyConn.setTrx
  split_ifs with h₁ h₂
  · refine hcore rfl ?_ (fun ha => by cases ha)
    intro sql hm
    cases List.mem_singleton.mp hm
    exact trivial
  · cases hp : w.conn.protocol with
    | none =>
      refine hcore hp.symm ?_ (fun _ => ⟨rfl,fun y hm => by cases List.mem_singleton.mp hm⟩)
      intro sql hm
      cases List.mem_singleton.mp hm
    | some p =>
      refine hcore hp.symm ?_ (fun ha => by cases ha)
      intro sql hm
      cases List.mem_singleton.mp hm
      exact trivial
  · refine hcore rfl ?_ (fun ha => by cases ha)
    intro sql hm
    cases List.mem_singleton.mp hm
    exact trivial

/-- A savepoint waits for the next query. -/
theorem addPoint (h : Tracked w) (n : ℕ) (ofSession : Bool) (pointId : ℕ) :
    Tracked {w with conn := {w.conn with
      savepointEnum := n
      pendingTrxSql := w.conn.pendingTrxSql++[some (.savepoint ofSession pointId)]}} := by
  refine ⟨h.calm,h.stmts,h.opened,h.pooled,?_,?_,h.openId,h.prepared,h.given⟩
  · intro sql hm
    rcases List.mem_append.mp hm with hm | hm
    · exact h.pending sql hm
    · cases List.mem_singleton.mp hm
      exact trivial
  · intro y hm
    rcases List.mem_append.mp hm with hm | hm
    · exact h.pendingId y hm
    · cases List.mem_singleton.mp hm

/-- What is before a savepoint was pending. -/
theorem beforeSavepoint_subset {ofSession : Bool} {pointId : ℕ} {list before : List (Option Sql)}
    (hb : beforeSavepoint ofSession pointId list=some before) : ∀ x ∈ before,x ∈ list := by
  induction list with
  | nil => cases hb
  | cons pending rest ih =>
    cases pending with
    | none => cases hb
    | some sql =>
      cases sql with
      | savepoint s n =>
        simp only [beforeSavepoint] at hb
        split_ifs at hb
        · cases hb
          exact fun x hx => List.mem_cons_of_mem _ hx
        · exact fun x hx => List.mem_cons_of_mem _ (ih hb x hx)
      | _ => cases hb

/-- `rollback()` to a savepoint. -/
theorem rollbackTo (h : Tracked w) (toPointId : ℕ) : Tracked (Conn.rollbackTo toPointId w).state := by
  unfold Conn.rollbackTo
  rw [bind_apply,get_apply,Outcome.andThen_done]
  dsimp only
  generalize (if decide (savepointEnumSessionFrom ≤ toPointId)=true then _ else _)=pointId
  cases hb : beforeSavepoint (decide (savepointEnumSessionFrom ≤ toPointId)) pointId
      w.conn.pendingTrxSql.reverse with
  | some before =>
    refine Tracked.setFields h _ rfl (fun pending hm => ?_) rfl rfl rfl
    exact List.mem_reverse.mp (beforeSavepoint_subset hb _ (List.mem_reverse.mp hm))
  | none =>
    dsimp only
    rw [branch_apply]
    split
    · refine h.doQuery ?_
      rintro sql (hsql | hsql) <;>
        · cases hsql
          exact trivial
    · exact h

/-- `use()`. -/
theorem use (h : Tracked w) (schema : String) : Tracked (Conn.use schema w).state := by
  simp only [Conn.use,modify_apply,Outcome.state]
  cases hp : w.conn.protocol with
  | none => exact Tracked.setFields h _ hp.symm (fun _ => id) rfl rfl rfl
  | some p =>
    have hk : w.kind=p.session.kind := by
      simp only [World.kind,hp,Option.bind_some]
    exact h.change hp w.log w.answers (h.stmts p hp) (fun c => h.opened p c hp) id
      (fun x ph hx => h.openId x ph (hk.trans hx)) (fun x => id)

end Tracked

end SpiritMysql.Conn