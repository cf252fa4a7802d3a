import SpiritMysql.CommandFrame
import SpiritMysql.ConnRun
import SpiritMysql.XaTask

/-!
# Owners of distributed transactions

An XA id that `startTrx()` completes with a connection id names the connection that
the transaction is started on, so long as no connection of the pool turns out to be
dead at that moment.
-/

namespace SpiritMysql.Conn

/-- The distributed transaction that a statement of the library is about. -/
def Sql.xaId : Sql → Option String
  | .xaStart xaId => some xaId
  | .xaEnd xaId => some xaId
  | .xaPrepare xaId => some xaId
  | .xaCommit xaId => some xaId
  | .xaRollback xaId => some xaId
  | _ => none

/-- The distributed transaction that a command of the library is about. -/
def Command.xaId : Command → Option String
  | .query sql => sql.xaId
  | .stmtPrepare sql => sql.xaId
  | _ => none

/-- The connection of an entry of the log. -/
def Entry.connectionId : Entry → ℕ
  | .sent connectionId _ => connectionId
  | .answered connectionId _ _ => connectionId

/-- The command of an entry of the log. -/
def Entry.command : Entry → Command
  | .sent _ command => command
  | .answered _ command _ => command

/-- What a user wrote is about no transaction of the library. -/
theorem Sql.xaId_user {sql : Sql} (h : sql.isUser=true) : sql.xaId=none := by
  cases sql <;> first | rfl | cases h

end SpiritMysql.Conn

namespace SpiritMysql.Conn.XaOwner

open AsyncAction Errors Protocol EventSystem XaTask

section Lively

/-- The connection works, and is not lost in what follows. -/
structure Lively (w : World) : Prop where
  /-- The transport works. -/
  alive : ∀ p,w.conn.protocol=some p → p.isAlive=true
  /-- Every answer arrives. -/
  answers : .lost ∉ w.answers

/-- An error of the server. -/
def IsSql (error : Option Error) : Prop := ∀ e,error=some e → e.isSql=true

/-- Of two errors of the server one is thrown. -/
theorem IsSql.or {a b : Option Error} (ha : IsSql a) (hb : IsSql b) : IsSql (a.or b) := by
  cases a with
  | none => exact hb
  | some e => exact ha

/-- An answer that arrived. -/
theorem isSql_error {a : Answer} (ha : a≠.lost) : IsSql a.error := by
  intro e he
  cases a with
  | ok hasRows more => cases he
  | refused e' =>
    cases he
    rfl
  | lost => exact absurd rfl ha

/-- Writing a command. -/
theorem Lively.send (c : Command) : Ensures Lively (Conn.send c) (fun _ => True) := by
  intro w h
  unfold Conn.send
  split
  · exact ⟨⟨h.alive,h.answers⟩,fun _ _ _ => trivial⟩
  · exact ⟨h,fun _ _ _ => trivial⟩

/-- The answer to a command is not that the connection is lost. -/
theorem Lively.reply {w : World} (h : Lively w) {p : MyProtocol} {c : Command} {r : Answer×List Answer}
    (hr : w.reply p c=some r) : r.1≠.lost ∧ .lost ∉ r.2 := by
  unfold World.reply at hr
  cases hv : w.verdict p c with
  | some a =>
    rw [hv] at hr
    cases hr
    refine ⟨?_,h.answers⟩
    unfold World.verdict at hv
    cases c with
    | query sql =>
      dsimp only at hv
      split at hv <;> cases hv <;> simp
    | _ => cases hv
  | none =>
    rw [hv] at hr
    cases ha : w.answers with
    | nil =>
      rw [ha] at hr
      cases hr
    | cons a answers =>
      rw [ha] at hr
      cases hr
      have hl := h.answers
      rw [ha,List.mem_cons,not_or] at hl
      refine ⟨?_,hl.2⟩
      dsimp only
      split_ifs
      · exact fun he => hl.1 he.symm
      · cases a with
        | lost => exact absurd rfl hl.1
        | _ => simp [Answer.plain]

/-- Reading an answer. -/
theorem Lively.receive (c : Command) : Ensures Lively (Conn.receive c) (fun a => IsSql a.error) := by
  intro w h
  unfold Conn.receive
  cases hp : w.conn.protocol with
  | none => exact ⟨h,fun _ _ he => by cases he⟩
  | some p =>
    dsimp only
    rw [if_neg (by rw [h.alive p hp]; simp)]
    cases hr : w.reply p c with
    | none => exact ⟨h,fun _ _ he => by cases he⟩
    | some r =>
      obtain ⟨ha,hl⟩ := h.reply hr
      refine ⟨⟨fun q hq => ?_,hl⟩,fun b t he => ?_⟩
      · cases hq
        have hafter : ∀ a,a≠.lost → (p.after w.server c a).isAlive=p.isAlive := by
          intro a ha
          cases a with
          | lost => exact absurd rfl ha
          | refused e => rfl
          | ok hasRows more => cases c <;> rfl
        rw [hafter r.1 ha]
        exact h.alive p hp
      · cases he
        exact isSql_error ha

/-- The connection is taken for a query. -/
theorem Lively.setQueryingState : Ensures Lively Conn.setQueryingState (fun _ => True) := by
  intro w h
  refine ⟨?_,fun _ _ _ => trivial⟩
  unfold Conn.setQueryingState
  cases hp : w.conn.protocol with
  | none => exact h
  | some p =>
    have hset : ∀ state,Lively (w.setProtocol {p with state := state}) := fun state =>
      ⟨fun q hq => by cases hq; exact h.alive p hp,h.answers⟩
    dsimp only
    cases p.state <;> first | exact h | exact hset .QUERYING

/-- The pending schema is taken. -/
theorem Lively.maybeInitDb : Ensures Lively Conn.maybeInitDb (fun _ => True) := by
  intro w h
  refine ⟨?_,fun _ _ _ => trivial⟩
  unfold Conn.maybeInitDb
  cases hp : w.conn.protocol with
  | none => exact h
  | some p =>
    have hset : Lively (w.setProtocol {p with pendingChangeSchema := ""}) :=
      ⟨fun q hq => by cases hq; exact h.alive p hp,h.answers⟩
    dsimp only
    split_ifs
    · exact h
    · exact hset
    · exact hset

/-- The results that remain are read. -/
theorem Lively.doDiscard (c : Command) : Ensures Lively (Conn.doDiscard c) IsSql := by
  have hl : ∀ n,Ensures Lively (Conn.discardLoop c n) IsSql := by
    intro n
    induction n with
    | zero => exact Ensures.wait
    | succ n ih =>
      refine Ensures.bind Ensures.get (fun w _ => Ensures.ite ?_ (Ensures.pure (fun _ he => by cases he)))
      refine Ensures.bind (Lively.receive c) (fun a ha => ?_)
      cases he : a.error with
      | none => exact ih
      | some e => exact Ensures.pure (he ▸ ha)
  exact fun w => hl _ w

/-- A query of the library is sent. -/
theorem Lively.exchange (sql : Sql) (void : Bool) :
    Ensures Lively (Conn.exchange (.text sql) void) (fun attempt => IsSql attempt.1) := by
  refine Ensures.bind Lively.maybeInitDb (fun initDb _ => ?_)
  have hsend : Ensures Lively (Conn.sendInitDb initDb) (fun _ => True) := by
    cases initDb with
    | none => exact Ensures.pure trivial
    | some schema => exact Lively.send _
  have hread : Ensures Lively (Conn.readInitDb initDb) IsSql := by
    cases initDb with
    | none => exact Ensures.pure (fun _ he => by cases he)
    | some schema => exact Ensures.bind (Lively.receive _) (fun a ha => Ensures.pure ha)
  refine Ensures.bind hsend (fun _ _ => Ensures.bind (Lively.send _) (fun _ _ => ?_))
  refine Ensures.bind hread (fun early hearly => Ensures.bind (Q:=fun attempt : Attempt => IsSql attempt.1) ?_
    (fun attempt ha => Ensures.pure (hearly.or ha)))
  refine Ensures.bind (Lively.receive _) (fun a ha => ?_)
  cases he : a.error with
  | some e => exact Ensures.pure (he ▸ ha)
  | none =>
    exact Ensures.ite (Ensures.bind (Lively.doDiscard _) (fun error herr => Ensures.pure herr))
      (Ensures.pure (fun _ he => by cases he))

/-- An attempt without a fatal error is concluded with a result. -/
theorem conclude_isSql {w w' : World} {command : Option Command} {attempt : Attempt}
    {void isFromPool : Bool} (ha : IsSql attempt.1) :
    conclude command attempt void isFromPool w≠.done none w' := by
  intro h
  unfold conclude at h
  cases he : attempt.1 with
  | none =>
    rw [he] at h
    obtain ⟨_,_,_,h⟩ := bind_eq_done.mp h
    cases h
  | some e =>
    rw [he] at h
    dsimp only at h
    unfold rethrowErrorIfFatal at h
    rw [branch_apply,if_pos (ha e he)] at h
    obtain ⟨_,_,_,h⟩ := bind_eq_done.mp h
    cases h

/-- A connection that works is not given up. -/
theorem Lively.queryLoop {w w' : World} (hw : Lively w) {sql : Sql} {void isFromPool retry : Bool} {n : ℕ} :
    Conn.queryLoop void isFromPool retry n (.text sql) w≠.done none w' := by
  induction n generalizing w with
  | zero =>
    intro h
    obtain ⟨attempt,t,hx,h⟩ := bind_eq_done.mp h
    exact conclude_isSql ((Lively.exchange sql void w hw).2 attempt t hx) h
  | succ n ih =>
    intro h
    obtain ⟨attempt,t,hx,h⟩ := bind_eq_done.mp h
    obtain ⟨ht,ha⟩ := Lively.exchange sql void w hw
    rw [hx] at ht
    rw [branch_apply] at h
    split at h
    · exact ih ht h
    · exact conclude_isSql (ha attempt t hx) h

/-- A connection that works is not given up. -/
theorem Lively.sendComQuery {w w' : World} (hw : Lively w) {sql : Sql} {void letReturnUndefined : Bool}
    {options : RetryOptions} :
    Conn.sendComQuery (.text sql) void letReturnUndefined options w≠.done none w' := by
  intro h
  obtain ⟨isFromPool,t,hx,h⟩ := bind_eq_done.mp h
  have ht := (Lively.setQueryingState w hw).1
  rw [hx] at ht
  exact Lively.queryLoop ht h

end Lively

/-- The ids that are used since a moment: in commands, and in what remains to be done
about connections that were given up. -/
def UsedSince (w₀ w : World) (xaId : String) : Prop :=
  (∃ e ∈ w.log.drop w₀.log.length,e.command.xaId=some xaId) ∨
    xaId≠"" ∧ ((∃ g ∈ w.givenUp.drop w₀.givenUp.length,g.rollbackPreparedXaId=xaId) ∨
      ∃ t ∈ w.takeCare.drop w₀.takeCare.length,t.rollbackPreparedXaId=xaId)

/-- What is known of a transaction since its `startTrx()` with an `xaId1`. -/
structure Auto (xaId1 : String) (w₀ w : World) : Prop where
  /-- The log only grows. -/
  log : w₀.log.length ≤ w.log.length
  /-- The connections that were given up stay known. -/
  givenUp : w₀.givenUp.length ≤ w.givenUp.length
  /-- The list of the pool only grows. -/
  takeCare : w₀.takeCare.length ≤ w.takeCare.length
  /-- A complete id names the connection of the object. -/
  owned : w.conn.curXaIdAppendConn=false → w.conn.curXaId="" ∨
    ∃ p,w.conn.protocol=some p ∧ w.conn.curXaId=xaId1++toString p.connectionId
  /-- An id that waits for its connection is what was given. -/
  waits : w.conn.curXaIdAppendConn=true → w.conn.curXaId=xaId1
  /-- The id that is used is the one of the object, so long as the transaction lasts. -/
  used : ∀ z,UsedSince w₀ w z → w.conn.curXaIdAppendConn=false ∧ (w.conn.curXaId="" ∨ w.conn.curXaId=z)
  /-- Only one id is used. -/
  one : ∀ z z',UsedSince w₀ w z → UsedSince w₀ w z' → z=z'
  /-- It names the connection that the command is sent to. -/
  named : ∀ e ∈ w.log.drop w₀.log.length,∀ z,e.command.xaId=some z → z=xaId1++toString e.connectionId

/-- What is known of a connection object whose ids can wait for their connection. -/
structure Held (w : World) : Prop where
  /-- Without a connection no transaction is prepared. -/
  unprepared : w.conn.protocol=none → w.conn.isXaPrepared=false
  /-- The results that are open are of a command that is about no transaction. -/
  opened : ∀ p c,w.conn.protocol=some p → p.curCommand=some c → c.xaId=none
  /-- The id of a pending transaction is the one of the object. -/
  pending : ∀ sql z,some sql ∈ w.conn.pendingTrxSql → sql.xaId=some z →
    w.conn.curXaIdAppendConn=false ∧ w.conn.curXaId=z ∧ z≠""
  /-- A transaction that waits for its id has one. -/
  unnamed : none ∈ w.conn.pendingTrxSql → w.conn.curXaId≠""
  /-- While the id waits for its connection, the transaction is the first thing that
  will be sent, and nothing was sent on the connection. -/
  waits : w.conn.curXaIdAppendConn=true → w.conn.isXaPrepared=false ∧
    (∃ rest,w.conn.pendingTrxSql=none::rest) ∧
    ∀ p,w.conn.protocol=some p → p.inTrans=false ∧ p.curCommand=none

/-- What is known, also of the last transaction with an `xaId1`. -/
structure Inv (started : Option (String×World)) (w : World) : Prop where
  /-- The object. -/
  held : Held w
  /-- The transaction. -/
  auto : ∀ xaId1 w₀,started=some (xaId1,w₀) → Auto xaId1 w₀ w

/-- An id with the number of a connection is not empty. -/
theorem named_ne_empty (xaId1 : String) (n : ℕ) : xaId1++toString n≠"" := by
  intro h
  have hl := congrArg String.length h
  rw [String.length_append,Nat.toString_eq_repr] at hl
  have hpos := Nat.length_repr_pos (n:=n)
  simp only [String.length_empty] at hl
  omega

/-- What was used after more happened. -/
theorem UsedSince.cases {w₀ w w' : World} {z : String} {es : List Entry} {gs : List GivenUp}
    {ts : List TakeCare} (hl : w₀.log.length ≤ w.log.length)
    (hg : w₀.givenUp.length ≤ w.givenUp.length) (ht : w₀.takeCare.length ≤ w.takeCare.length)
    (hlog : w'.log=w.log++es) (hgiven : w'.givenUp=w.givenUp++gs) (htake : w'.takeCare=w.takeCare++ts)
    (h : UsedSince w₀ w' z) : UsedSince w₀ w z ∨ (∃ e ∈ es,e.command.xaId=some z) ∨
      z≠"" ∧ ((∃ g ∈ gs,g.rollbackPreparedXaId=z) ∨ ∃ t ∈ ts,t.rollbackPreparedXaId=z) := by
  unfold UsedSince at h
  rw [hlog,hgiven,htake,List.drop_append_of_le_length hl,List.drop_append_of_le_length hg,
    List.drop_append_of_le_length ht] at h
  rcases h with ⟨e,he,hz⟩ | ⟨hne,⟨g,hm,hz⟩ | ⟨t,hm,hz⟩⟩
  · rcases List.mem_append.mp he with he | he
    · exact Or.inl (Or.inl ⟨e,he,hz⟩)
    · exact Or.inr (Or.inl ⟨e,he,hz⟩)
  · rcases List.mem_append.mp hm with hm | hm
    · exact Or.inl (Or.inr ⟨hne,Or.inl ⟨g,hm,hz⟩⟩)
    · exact Or.inr (Or.inr ⟨hne,Or.inl ⟨g,hm,hz⟩⟩)
  · rcases List.mem_append.mp hm with hm | hm
    · exact Or.inl (Or.inr ⟨hne,Or.inr ⟨t,hm,hz⟩⟩)
    · exact Or.inr (Or.inr ⟨hne,Or.inr ⟨t,hm,hz⟩⟩)

/-- More happens for a transaction: with its own id, and then it goes on or ends. -/
theorem Auto.more {xaId1 : String} {w₀ w w' : World} (h : Auto xaId1 w₀ w) {es : List Entry}
    {gs : List GivenUp} {ts : List TakeCare} (hlog : w'.log=w.log++es)
    (hgiven : w'.givenUp=w.givenUp++gs) (htake : w'.takeCare=w.takeCare++ts)
    (hes : ∀ e ∈ es,∀ z,e.command.xaId=some z →
      w.conn.curXaIdAppendConn=false ∧ w.conn.curXaId=z ∧ z=xaId1++toString e.connectionId)
    (hgs : ∀ g ∈ gs,g.rollbackPreparedXaId≠"" →
      w.conn.curXaIdAppendConn=false ∧ w.conn.curXaId=g.rollbackPreparedXaId)
    (hts : ∀ t ∈ ts,t.rollbackPreparedXaId≠"" →
      w.conn.curXaIdAppendConn=false ∧ w.conn.curXaId=t.rollbackPreparedXaId)
    (hcur : w'.conn.curXaIdAppendConn=false ∧ w'.conn.curXaId="" ∨
      w'.conn.curXaIdAppendConn=w.conn.curXaIdAppendConn ∧ w'.conn.curXaId=w.conn.curXaId)
    (hown : w'.conn.curXaIdAppendConn=false → w'.conn.curXaId="" ∨
      ∃ p,w'.conn.protocol=some p ∧ w'.conn.curXaId=xaId1++toString p.connectionId) :
    Auto xaId1 w₀ w' := by
  -- a new use is one of the id that the object has
  have hnew : ∀ z,UsedSince w₀ w' z → UsedSince w₀ w z ∨
      z≠"" ∧ w.conn.curXaIdAppendConn=false ∧ w.conn.curXaId=z := by
    intro z hz
    rcases UsedSince.cases h.log h.givenUp h.takeCare hlog hgiven htake hz with
      hz | ⟨e,he,hz⟩ | ⟨hne,⟨g,hg,hz⟩ | ⟨t,ht,hz⟩⟩
    · exact Or.inl hz
    · obtain ⟨ha,hc,hn⟩ := hes e he z hz
      exact Or.inr ⟨hn ▸ named_ne_empty _ _,ha,hc⟩
    · obtain ⟨ha,hc⟩ := hgs g hg (hz ▸ hne)
      exact Or.inr ⟨hne,ha,hc.trans hz⟩
    · obtain ⟨ha,hc⟩ := hts t ht (hz ▸ hne)
      exact Or.inr ⟨hne,ha,hc.trans hz⟩
  have hold : ∀ z,UsedSince w₀ w' z →
      w.conn.curXaIdAppendConn=false ∧ (w.conn.curXaId="" ∨ w.conn.curXaId=z) := by
    intro z hz
    rcases hnew z hz with hz | ⟨_,ha,hc⟩
    · exact h.used z hz
    · exact ⟨ha,Or.inr hc⟩
  refine ⟨?_,?_,?_,hown,?_,?_,?_,?_⟩
  · rw [hlog,List.length_append]
    exact Nat.le_add_right_of_le h.log
  · rw [hgiven,List.length_append]
    exact Nat.le_add_right_of_le h.givenUp
  · rw [htake,List.length_append]
    exact Nat.le_add_right_of_le h.takeCare
  · intro ha
    rcases hcur with ⟨hf,_⟩ | ⟨hf,hc⟩
    · rw [hf] at ha
      cases ha
    · rw [hc]
      exact h.waits (hf ▸ ha)
  · intro z hz
    obtain ⟨ha,hc⟩ := hold z hz
    rcases hcur with ⟨hf,he⟩ | ⟨hf,he⟩
    · exact ⟨hf,Or.inl he⟩
    · rw [hf,he]
      exact ⟨ha,hc⟩
  · intro z z' hz hz'
    rcases hnew z hz with hu | ⟨hne,_,hc⟩
    · rcases hnew z' hz' with hu' | ⟨hne',_,hc'⟩
      · exact h.one z z' hu hu'
      · rcases (h.used z hu).2 with he | he
        · exact absurd (hc'.symm.trans he) hne'
        · exact he.symm.trans hc'
    · rcases (hold z' hz').2 with he | he
      · exact absurd (hc.symm.trans he) hne
      · exact hc.symm.trans he
  · intro e he z hz
    rw [hlog,List.drop_append_of_le_length h.log] at he
    rcases List.mem_append.mp he with he | he
    · exact h.named e he z hz
    · exact (hes e he z hz).2.2

/-- Commands about no transaction, and the ones about a transaction. -/
def Allowed (xaId : Option String) (c : Command) : Prop := ∀ z,c.xaId=some z → xaId=some z

/-- What is known is kept, on the same connection, and the fields of the object are
not changed. -/
structure Steady (started : Option (String×World)) (w w' : World) : Prop where
  /-- What is known is kept. -/
  inv : Inv started w'
  /-- The fields of the object. -/
  fields : w'.conn={w.conn with protocol := w'.conn.protocol}
  /-- The connection. -/
  same : w'.conn.protocol.map MyProtocol.connectionId=w.conn.protocol.map MyProtocol.connectionId

namespace Steady

variable {started : Option (String×World)} {w w' w'' : World}

/-- Nothing happened. -/
theorem refl (h : Inv started w) : Steady started w w := ⟨h,rfl,rfl⟩

/-- One thing after another. -/
theorem trans (h : Steady started w w') (h' : Steady started w' w'') : Steady started w w'' :=
  ⟨h'.inv,by rw [h'.fields,h.fields],h'.same.trans h.same⟩

/-- The part of an id that is put off. -/
theorem append (h : Steady started w w') : w'.conn.curXaIdAppendConn=w.conn.curXaIdAppendConn := by
  rw [h.fields]

/-- The id. -/
theorem curXaId (h : Steady started w w') : w'.conn.curXaId=w.conn.curXaId := by
  rw [h.fields]

end Steady

namespace Inv

variable {started : Option (String×World)} {w : World}

/-- Nothing changes but the connection, the log and the answers that remain. -/
theorem change (h : Inv started w) (ha : w.conn.curXaIdAppendConn=false) {p q : MyProtocol}
    (hp : w.conn.protocol=some p) (es : List Entry) (answers : List Answer)
    (hid : q.connectionId=p.connectionId)
    (hes : ∀ e ∈ es,e.connectionId=p.connectionId ∧
      ∀ z,e.command.xaId=some z → w.conn.curXaId=z ∧ z≠"")
    (hopen : ∀ c,q.curCommand=some c → c.xaId=none) :
    Steady started w (World.setProtocol {w with log := w.log++es,answers := answers} q) := by
  refine ⟨⟨⟨?_,?_,h.held.pending,h.held.unnamed,?_⟩,?_⟩,rfl,?_⟩
  · intro hn
    cases hn
  · intro p' c hp'
    cases hp'
    exact hopen c
  · intro hw
    have hw' : w.conn.curXaIdAppendConn=true := hw
    rw [ha] at hw'
    cases hw'
  · intro xaId1 w₀ hs
    have hauto := h.auto xaId1 w₀ hs
    refine hauto.more rfl (List.append_nil _).symm (List.append_nil _).symm
      ?_ (fun g hg => by cases hg) (fun t ht => by cases ht) (Or.inr ⟨rfl,rfl⟩) ?_
    · intro e he z hz
      obtain ⟨hc,hne⟩ := (hes e he).2 z hz
      refine ⟨ha,hc,?_⟩
      rcases hauto.owned ha with hempty | ⟨p',hp',hx⟩
      · exact absurd (hc.symm.trans hempty) hne
      · rw [hp] at hp'
        cases hp'
        rw [(hes e he).1,←hx]
        exact hc.symm
    · intro _
      refine (hauto.owned ha).imp id (fun ⟨p',hp',hx⟩ => ⟨q,rfl,?_⟩)
      rw [hp] at hp'
      cases hp'
      rw [hid]
      exact hx
  · rw [hp]
    exact congrArg some hid

/-- Commands with the id of the object keep what is known, when the id is complete. -/
theorem respects (xaId : Option String) : Respects (fun w w' => Inv started w →
    w.conn.curXaIdAppendConn=false → (∀ z,xaId=some z → w.conn.curXaId=z ∧ z≠"") → Steady started w w')
    (Allowed xaId) (fun c => c.xaId=none) where
  refl w h _ _ := Steady.refl h
  trans s t u h h' hi ha hx := by
    have ht := h hi ha hx
    refine ht.trans (h' ht.inv (ht.append.trans ha) (fun z hz => ?_))
    rw [ht.curXaId]
    exact hx z hz
  initDb _ := by
    intro z hz
    cases hz
  send c hc w h ha hx := by
    unfold send
    cases hp : w.conn.protocol with
    | none => exact Steady.refl h
    | some p =>
      have hchange := h.change ha hp [.sent p.connectionId c] w.answers rfl (fun e he => by
        cases List.mem_singleton.mp he
        exact ⟨rfl,fun z hz => hx z (hc z hz)⟩) (fun c => h.held.opened p c hp)
      have he : World.setProtocol {w with log := w.log++[.sent p.connectionId c],answers := w.answers} p=
          w.note (.sent p.connectionId c) := by
        simp only [World.setProtocol,World.note,←hp]
      rw [he] at hchange
      exact hchange
  receive c hc w h ha hx := by
    unfold receive
    cases hp : w.conn.protocol with
    | none => exact Steady.refl h
    | some p =>
      dsimp only
      split
      · exact Steady.refl h
      · cases hr : w.reply p c with
        | none => exact Steady.refl h
        | some r =>
          have hafter : (p.after w.server c r.1).connectionId=p.connectionId ∧
              (p.after w.server c r.1).curCommand=p.curCommand := by
            cases r.1 with
            | ok hasRows more => cases c <;> exact ⟨rfl,rfl⟩
            | _ => exact ⟨rfl,rfl⟩
          refine h.change ha hp [.answered p.connectionId c r.1] r.2 hafter.1 (fun e he => ?_)
            (fun c' hc' => h.held.opened p c' hp (hafter.2 ▸ hc'))
          cases List.mem_singleton.mp he
          exact ⟨rfl,fun z hz => hx z (hc z hz)⟩
  schema w p hp h ha hx := by
    have hchange := h.change ha hp (q:={p with pendingChangeSchema := ""}) [] w.answers rfl
      (fun e he => by cases he) (fun c => h.held.opened p c hp)
    rw [List.append_nil] at hchange
    exact hchange
  update w p q hp hq hc hs h ha hx := by
    have hid : q.connectionId=p.connectionId := by
      rw [hq]
    have hchange := h.change ha hp (q:=q) [] w.answers hid (fun e he => by cases he) (fun c hqc => by
      rcases hc with hc | hc
      · exact h.held.opened p c hp (hc ▸ hqc)
      · exact hc c hqc)
    rw [List.append_nil] at hchange
    exact hchange

/-- Commands about no transaction. -/
theorem plain : Respects (fun w w' => Inv started w → w.conn.curXaIdAppendConn=false →
    Steady started w w') (Allowed none) (fun c => c.xaId=none) where
  refl w h _ := Steady.refl h
  trans s t u h h' hi ha := (h hi ha).trans (h' (h hi ha).inv ((h hi ha).append.trans ha))
  initDb schema := (@respects started none).initDb schema
  send c hc w h ha := (respects none).send c hc w h ha (fun z hz => by cases hz)
  receive c hc w h ha := (respects none).receive c hc w h ha (fun z hz => by cases hz)
  schema w p hp h ha := (respects none).schema w p hp h ha (fun z hz => by cases hz)
  update w p q hp hq hc hs h ha := (respects none).update w p q hp hq hc hs h ha (fun z hz => by cases hz)

end Inv

end SpiritMysql.Conn.XaOwner
