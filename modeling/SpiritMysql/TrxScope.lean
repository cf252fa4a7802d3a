import SpiritMysql.CommitHandler

/-!
# What disposing of a transaction does

A `Trx` object knows only its connection or session, and disposing of it is
`rollback()`. Nothing is done exactly when nothing of a transaction is open or
pending there. Otherwise all that is open or pending is rolled back.
-/

namespace SpiritMysql.TrxSession

open AsyncAction Errors Conn TrxStore

/-- Nothing of a transaction is open or pending on a connection. -/
structure Clear (w : World) : Prop where
  /-- No transaction is open or prepared. -/
  hasTrx : w.hasTrx=false
  /-- No command is pending. -/
  pending : w.conn.pendingTrxSql=[]
  /-- There is no XA id. -/
  curXaId : w.conn.curXaId=""

/-- Nothing is open or pending, and nothing is taken for prepared. -/
structure Cleared (w : World) : Prop extends Clear w where
  /-- `#isXaPrepared`. -/
  isXaPrepared : w.conn.isXaPrepared=false

/-- Nothing was sent, and the pending commands and the XA id are as before. -/
structure Same (w w' : World) : Prop where
  /-- What was sent and read. -/
  log : w'.log=w.log
  /-- The pending commands. -/
  pending : w'.conn.pendingTrxSql=w.conn.pendingTrxSql
  /-- The XA id. -/
  curXaId : w'.conn.curXaId=w.conn.curXaId

/-- Disposing of a transaction of the connection does nothing. -/
def Untouched (w : World) : Prop := ∃ w',Conn.rollback none w=.done () w' ∧ Same w w'

/-- The server refuses what is not possible in its state. -/
def Refuses (b : Server) : Prop := ∀ s sql,Conn.Session.exec s sql=none → ∃ e,b.judge s sql=some (some e)

/-- SQL that ends the transaction. -/
def EndsTrx : Sql → Prop
  | .commit false | .rollback false | .xaCommit _ | .xaRollback _ => True
  | _ => False

/-- SQL that leaves what is committed alone. -/
def Undoes : Sql → Prop
  | .rollback _ | .xaEnd _ | .xaRollback _ => True
  | _ => False

/-- The SQL that rolls back the transaction of a connection. -/
def rollbackSql (w : World) : Sql :=
  if w.conn.curXaId="" then .rollback false else .xaRollback w.conn.curXaId

/-- The commands of a rollback. A schema can be selected before. -/
def IsRollback (w : World) : Command → Prop
  | .initDb _ => True
  | .query sql => sql=rollbackSql w ∨ w.conn.curXaId≠"" ∧ sql=.xaEnd w.conn.curXaId
  | _ => False

/-- Disposing of a transaction of the connection rolls back what is open or pending there,
and nothing else. -/
structure RollsBack (w : World) : Prop where
  /-- Only this rollback is sent. -/
  commands : ∃ added,(Conn.rollback none w).state.log=w.log++added ∧
    ∀ id c,Entry.sent id c ∈ added → IsRollback w c
  /-- A transaction that is open is rolled back on the server: it is over, and what was
  committed is as before. -/
  rolledBack : w.hasTrx=true → ∀ w',Conn.rollback none w=.done () w' →
    SentSince (rollbackSql w) w w' ∧ ∃ p q,w.conn.protocol=some p ∧ w'.conn.protocol=some q ∧
      q.session=⟨p.session.committed,none⟩
  /-- What is only pending is dropped. -/
  dropped : w.hasTrx=false → Conn.rollback none w=.done () {w with conn := w.conn.clearTrx}
  /-- Nothing is left, also when the rollback fails: then the connection is given up. -/
  ended : (∀ w',Conn.rollback none w=.done () w' → Cleared w') ∧
    ∀ e w',Conn.rollback none w=.thrown e w' → Cleared w' ∧ w'.conn.protocol=none

/-! ## The server -/

/-- After the end of a transaction none is open. -/
theorem exec_ends {sql : Sql} (h : EndsTrx sql) {s t : Conn.Session} (ht : s.exec sql=some t) :
    t.trx=none := by
  have hn : s.kind=none → s.trx=none := fun hk => Option.map_eq_none_iff.mp hk
  cases sql <;> try cases h
  case commit andChain =>
    cases andChain with
    | true => cases h
    | false =>
      simp only [Conn.Session.exec] at ht
      split at ht
      · cases ht
      · cases ht; rfl
      · rename_i hk; cases ht; exact hn hk
  case rollback andChain =>
    cases andChain with
    | true => cases h
    | false =>
      simp only [Conn.Session.exec] at ht
      split at ht
      · cases ht
      · cases ht; rfl
      · rename_i hk; cases ht; exact hn hk
  case xaCommit id =>
    simp only [Conn.Session.exec] at ht
    split at ht
    · cases ht; rfl
    · cases ht
  case xaRollback id =>
    simp only [Conn.Session.exec] at ht
    split at ht
    · cases ht; rfl
    · cases ht

/-- A rollback leaves what is committed alone. -/
theorem exec_undoes {sql : Sql} (h : Undoes sql) {s t : Conn.Session} (ht : s.exec sql=some t) :
    t.committed=s.committed := by
  cases sql <;> try cases h
  case rollback andChain =>
    simp only [Conn.Session.exec] at ht
    split at ht
    · cases ht
    · cases andChain <;> cases ht <;> rfl
    · rename_i hk
      have hv : s.visible=s.committed := by
        unfold Store.visible
        rw [Option.map_eq_none_iff.mp hk]
        rfl
      cases andChain with
      | false => cases ht; rfl
      | true =>
        cases ht
        exact hv
  case xaEnd id =>
    simp only [Conn.Session.exec] at ht
    split at ht
    · cases ht; rfl
    · cases ht
  case xaRollback id =>
    simp only [Conn.Session.exec] at ht
    split at ht
    · cases ht; rfl
    · cases ht

/-- The data that are committed on the server, as far as there is a connection. -/
def committedOf (w : World) : Option (List String) :=
  w.conn.protocol.map fun p => p.session.committed

/-- The server is the same, and so is what is committed on it. -/
structure KeepsData (w w' : World) : Prop where
  /-- The server. -/
  server : w'.server=w.server
  /-- What is committed. -/
  data : committedOf w'=committedOf w

/-- The commands that leave the data alone. -/
def KeepsCommitted : Command → Prop
  | .initDb _ => True
  | .query sql => Undoes sql
  | _ => False

/-- An answer to such a command. -/
theorem after_committed {b : Server} {p : MyProtocol} {c : Command} (hc : KeepsCommitted c)
    (a : Answer) : (p.after b c a).session.committed=p.session.committed := by
  cases c with
  | initDb schema => cases a <;> rfl
  | query sql =>
    have hu : Undoes sql := hc
    have he : ∀ n,(b.exec sql n p.session).committed=p.session.committed := by
      intro n
      have hexec : b.exec sql n p.session=(p.session.exec sql).getD p.session := by
        cases sql <;> first | rfl | cases hu
      rw [hexec]
      cases hs : p.session.exec sql with
      | none => rfl
      | some t => exact exec_undoes hu hs
    cases a with
    | ok hasRows more => exact he p.nResults
    | lost => rfl
    | refused e => cases sql <;> first | rfl | cases hu
  | stmtPrepare sql => cases hc
  | stmtExecute id values => cases hc
  | resetConnection => cases hc
  | quit => cases hc

/-- Commands that leave the data alone. -/
theorem respects_data : Respects KeepsData KeepsCommitted (fun _ => True) where
  refl := fun _ => ⟨rfl,rfl⟩
  trans := fun _ _ _ h h' => ⟨h'.server.trans h.server,h'.data.trans h.data⟩
  initDb := fun _ => trivial
  send := by
    intro c _ w
    unfold Conn.send
    split <;> exact ⟨rfl,rfl⟩
  receive := by
    intro c hc w
    rcases receive_cases c w with h | h | ⟨p,a,answers,hp,_,_,h⟩ <;> rw [h]
    · exact ⟨rfl,rfl⟩
    · exact ⟨rfl,rfl⟩
    · refine ⟨rfl,?_⟩
      unfold committedOf
      rw [hp]
      exact congrArg some (after_committed hc a)
  schema := fun w p hp => ⟨rfl,by simp [committedOf,World.setProtocol,hp]⟩
  update := fun w p q hp hq _ _ => ⟨rfl,by rw [hq]; simp [committedOf,World.setProtocol,hp]⟩

/-- The server does not change. -/
theorem respects_server : Respects (fun w w' => w'.server=w.server) (fun _ => True) (fun _ => True) where
  refl := fun _ => rfl
  trans := fun _ _ _ h h' => h'.trans h
  initDb := fun _ => trivial
  send := by
    intro c _ w
    unfold Conn.send
    split <;> rfl
  receive := by
    intro c _ w
    rcases receive_cases c w with h | h | ⟨p,a,answers,_,_,_,h⟩ <;> rw [h] <;> rfl
  schema := fun _ _ _ => rfl
  update := fun _ _ _ _ _ _ _ => rfl

/-- After SQL that ends the transaction succeeded, none is open. -/
theorem succeeded_ends {R : World → World → Prop} {sql : Sql} {w w' : World}
    (h : Succeeded R sql w w') (hserver : ∀ v,R w v → v.server=w.server) (hb : Refuses w.server)
    (he : EndsTrx sql) : w'.inTrans=false ∧ ∃ q,w'.conn.protocol=some q ∧ q.session.trx=none := by
  obtain ⟨w₀,p,hasRows,answers,q,hR,_,hrep,hq,hsession,htrans⟩ := h.last
  have hserver₀ := hserver w₀ hR
  have hexec : ∃ t,p.session.exec sql=some t := by
    cases hx : p.session.exec sql with
    | some t => exact ⟨t,rfl⟩
    | none =>
      obtain ⟨e,hj⟩ := hb p.session sql hx
      unfold World.reply World.verdict at hrep
      rw [hserver₀] at hrep
      simp only [hj] at hrep
      cases hrep
  obtain ⟨t,ht⟩ := hexec
  have hnone : q.session.trx=none := by
    have hdef : w₀.server.exec sql p.nResults p.session=t := by
      have hg : w₀.server.exec sql p.nResults p.session=(p.session.exec sql).getD p.session := by
        cases sql <;> first | rfl | cases he
      rw [hg,ht]
      rfl
    rw [hsession,hdef]
    exact exec_ends he ht
  refine ⟨?_,q,hq,hnone⟩
  unfold World.inTrans
  rw [hq]
  simp [htrans,Conn.Session.inTrans,Conn.Session.kind,hnone]

/-! ## A connection -/

section Conn

variable {w w' : World}

/-- A rollback without a number. -/
theorem rollback_none : Conn.rollback none=Conn.rollbackAll false := rfl

/-- Nothing to roll back on the server. -/
theorem rollbackAll_idle (h : w.hasTrx=false) (toStart : Bool) :
    Conn.rollbackAll toStart w=.done () {w with conn := w.conn.clearTrx} := by
  unfold Conn.rollbackAll
  rw [bind_apply,get_apply,Outcome.andThen_done,branch_apply,h,if_neg Bool.false_ne_true]
  rfl

/-- Nothing to roll back on the server. -/
theorem rollback_idle (h : w.hasTrx=false) :
    Conn.rollback none w=.done () {w with conn := w.conn.clearTrx} := rollbackAll_idle h false

/-- A rollback that fails gives the connection up. -/
theorem giveUp_apply (w : World) : giveUp false w=.thrown serverDisconnected (w.doEnd false none) := by
  unfold giveUp
  simp only [bind_apply,get_apply,Outcome.andThen_done,endConn,modify_apply,doWhen,Bool.false_eq_true,
    if_false,pure_apply,fail_apply]

/-- A connection that was given up has nothing left. -/
theorem doEnd_cleared (w : World) (force : Option Force) :
    Cleared (w.doEnd false force) ∧ (w.doEnd false force).conn.protocol=none := by
  have hclear : ∀ v : World,v.conn.protocol=none → v.conn.pendingTrxSql=[] → v.conn.curXaId="" →
      v.conn.isXaPrepared=false → Cleared v ∧ v.conn.protocol=none := by
    intro v hp hpend hid hprep
    refine ⟨⟨⟨?_,hpend,hid⟩,hprep⟩,hp⟩
    unfold World.hasTrx
    rw [hp]
    rfl
  unfold World.doEnd
  cases w.conn.protocol with
  | none => exact hclear _ rfl rfl rfl rfl
  | some p =>
    cases force with
    | none => exact hclear _ rfl rfl rfl rfl
    | some f => exact hclear _ rfl rfl rfl rfl

/-- What a rollback of an open transaction does. -/
theorem rollback_cases (h : w.hasTrx=true) :
    (∃ w₁,rollbackCommand w.conn.curXaId w.conn.isXaPrepared false w=.done () w₁ ∧
      Conn.rollback none w=.done () {w₁ with conn := w₁.conn.clearTrx}) ∨
    (∃ e w₁,rollbackCommand w.conn.curXaId w.conn.isXaPrepared false w=.thrown e w₁ ∧
      Conn.rollback none w=.thrown serverDisconnected (w₁.doEnd false none)) ∨
    ∃ w₁,rollbackCommand w.conn.curXaId w.conn.isXaPrepared false w=.waiting w₁ ∧
      Conn.rollback none w=.waiting w₁ := by
  have he : Conn.rollback none w=
      ((attempt (rollbackCommand w.conn.curXaId w.conn.isXaPrepared false) fun _ => giveUp false) >>=
        fun _ => clearTrx) w := by
    rw [rollback_none]
    unfold Conn.rollbackAll
    rw [bind_apply,get_apply,Outcome.andThen_done,branch_apply,h,if_pos rfl]
  rw [he,bind_apply,attempt_apply]
  cases rollbackCommand w.conn.curXaId w.conn.isXaPrepared false w with
  | done a w₁ => exact Or.inl ⟨w₁,rfl,rfl⟩
  | thrown e w₁ =>
    refine Or.inr (Or.inl ⟨e,w₁,rfl,?_⟩)
    rw [Outcome.orElse_thrown,giveUp_apply]
    rfl
  | waiting w₁ => exact Or.inr (Or.inr ⟨w₁,rfl,rfl⟩)

/-- The rollback that resolves was sent. -/
theorem rollbackCommand_sent
    (h : rollbackCommand w.conn.curXaId w.conn.isXaPrepared false w=.done () w') :
    SentSince (rollbackSql w) w w' := by
  unfold rollbackCommand at h
  unfold rollbackSql
  rw [if_neg Bool.false_ne_true] at h
  split at h
  · rename_i hid
    rw [if_pos hid]
    exact command_sent h
  · rename_i hid
    rw [if_neg hid]
    split at h
    · exact command_sent h
    · exact twoCommands_sent h

/-- Disposing of a transaction does nothing exactly when nothing is open or pending. -/
theorem untouched_iff (w : World) : Untouched w↔Clear w := by
  constructor
  · rintro ⟨w',hw,hsame⟩
    cases ht : w.hasTrx with
    | false =>
      rw [rollback_idle ht] at hw
      cases hw
      exact ⟨ht,hsame.pending.symm,hsame.curXaId.symm⟩
    | true =>
      rcases rollback_cases ht with ⟨w₁,hc,he⟩ | ⟨e,w₁,_,he⟩ | ⟨w₁,_,he⟩ <;> rw [he] at hw <;> cases hw
      obtain ⟨added,id,hlog,hm⟩ := rollbackCommand_sent hc
      have hnil : added=[] := List.append_right_eq_self.mp (hlog.symm.trans hsame.log)
      rw [hnil] at hm
      cases hm
  · intro h
    exact ⟨_,rollback_idle h.hasTrx,rfl,h.pending.symm,h.curXaId.symm⟩

/-- The commands of a rollback. -/
theorem rollback_sends (w : World) : SendsOnly (IsRollback w) w (Conn.rollback none w).state := by
  have hr := SendsOnly.respects (P := IsRollback w) (fun _ => trivial)
  have hcommand : SendsOnly (IsRollback w) w
      (rollbackCommand w.conn.curXaId w.conn.isXaPrepared false w).state := by
    unfold rollbackCommand
    rw [if_neg Bool.false_ne_true]
    split
    · rename_i hid
      exact hr.command (Or.inl (by rw [rollbackSql,if_pos hid])) w
    · rename_i hid
      have hx : IsRollback w (.query (.xaRollback w.conn.curXaId)) :=
        Or.inl (by rw [rollbackSql,if_neg hid])
      split
      · exact hr.command hx w
      · exact hr.twoCommands (Or.inr ⟨hid,rfl⟩) hx true w
  cases ht : w.hasTrx with
  | false =>
    rw [rollback_idle ht]
    exact SendsOnly.of_log rfl
  | true =>
    rcases rollback_cases ht with ⟨w₁,hc,he⟩ | ⟨e,w₁,hc,he⟩ | ⟨w₁,hc,he⟩ <;>
      rw [hc] at hcommand <;> rw [he]
    · exact SendsOnly.trans _ _ _ hcommand (SendsOnly.of_log rfl)
    · exact SendsOnly.trans _ _ _ hcommand (SendsOnly.of_log (NothingCommitted.doEnd w₁ false none))
    · exact hcommand

/-- A rollback that resolves leaves no transaction on the server, and the data that were
committed. -/
theorem rollbackCommand_ends (hb : Refuses w.server)
    (h : rollbackCommand w.conn.curXaId w.conn.isXaPrepared false w=.done () w') :
    w'.inTrans=false ∧ ∃ p q,w.conn.protocol=some p ∧ w'.conn.protocol=some q ∧
      q.session=⟨p.session.committed,none⟩ := by
  have hkeep : Always KeepsData (rollbackCommand w.conn.curXaId w.conn.isXaPrepared false) := by
    unfold rollbackCommand
    rw [if_neg Bool.false_ne_true]
    exact Always.ite (respects_data.command trivial) (Always.ite (respects_data.command trivial)
      (@Respects.twoCommands _ _ _ respects_data (.xaEnd _) (.xaRollback _) trivial trivial true))
  have hdata := (done_of_always hkeep h).data
  have hend : w'.inTrans=false ∧ ∃ q,w'.conn.protocol=some q ∧ q.session.trx=none := by
    unfold rollbackCommand at h
    rw [if_neg Bool.false_ne_true] at h
    split at h
    · exact succeeded_ends (command_ok respects_server trivial rfl h) (fun _ => id) hb trivial
    · split at h
      · exact succeeded_ends (command_ok respects_server trivial rfl h) (fun _ => id) hb trivial
      · exact succeeded_ends (twoCommands_ok respects_server trivial trivial rfl h) (fun _ => id) hb
          trivial
  obtain ⟨htrans,q,hq,hnone⟩ := hend
  unfold committedOf at hdata
  rw [hq,Option.map_some] at hdata
  obtain ⟨p,hp,hc⟩ := Option.map_eq_some_iff.mp hdata.symm
  refine ⟨htrans,p,q,hp,hq,?_⟩
  rw [hc,← hnone]

/-- Without a transaction the server has none. -/
theorem inTrans_of_clear (h : w.hasTrx=false) : w.inTrans=false := by
  cases ht : w.inTrans with
  | false => rfl
  | true =>
    rw [hasTrx_of_inTrans ht] at h
    cases h

/-- Without a transaction on the server nothing is left after the fields are cleared. -/
theorem cleared_of_inTrans (h : w.inTrans=false) : Cleared {w with conn := w.conn.clearTrx} := by
  refine ⟨⟨?_,rfl,rfl⟩,rfl⟩
  unfold World.hasTrx
  have hi : World.inTrans {w with conn := w.conn.clearTrx}=false := h
  rw [hi]
  exact Bool.and_false _

/-- Disposing of a transaction rolls back what is open or pending. -/
theorem rollsBack (hb : Refuses w.server) : RollsBack w := by
  refine ⟨rollback_sends w,fun ht w' hw => ?_,fun ht => rollback_idle ht,fun w' hw => ?_,fun e w' hw => ?_⟩
  · rcases rollback_cases ht with ⟨w₁,hc,he⟩ | ⟨e,w₁,_,he⟩ | ⟨w₁,_,he⟩ <;> rw [he] at hw <;> cases hw
    obtain ⟨added,id,hlog,hm⟩ := rollbackCommand_sent hc
    exact ⟨⟨added,id,hlog,hm⟩,(rollbackCommand_ends hb hc).2⟩
  · cases ht : w.hasTrx with
    | false =>
      rw [rollback_idle ht] at hw
      cases hw
      exact cleared_of_inTrans (inTrans_of_clear ht)
    | true =>
      rcases rollback_cases ht with ⟨w₁,hc,he⟩ | ⟨e,w₁,_,he⟩ | ⟨w₁,_,he⟩ <;> rw [he] at hw <;> cases hw
      exact cleared_of_inTrans (rollbackCommand_ends hb hc).1
  · cases ht : w.hasTrx with
    | false =>
      rw [rollback_idle ht] at hw
      cases hw
    | true =>
      rcases rollback_cases ht with ⟨w₁,_,he⟩ | ⟨e,w₁,_,he⟩ | ⟨w₁,_,he⟩ <;> rw [he] at hw <;> cases hw
      exact doEnd_cleared w₁ none

end Conn

end SpiritMysql.TrxSession
