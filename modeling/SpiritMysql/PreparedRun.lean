import SpiritMysql.PreparedTrx

/-!
# Ending prepared transactions with care

A run of a connection object in which a prepared transaction is ended before the
connection is given up never abandons one. `end()` itself does not roll it back.
-/

namespace SpiritMysql.Conn

open AsyncAction Errors Protocol TrxStore EventSystem

/-- No schema waits to be selected. -/
def World.NoSchema (w : World) : Prop := ∀ p,w.conn.protocol=some p → p.pendingChangeSchema=""

section Answers

variable {w w' : World} {p : MyProtocol}

/-- Without a pending schema nothing is selected. -/
theorem maybeInitDb_none (hw : w.NoSchema) : maybeInitDb w=.done none w := by
  unfold maybeInitDb
  cases hp : w.conn.protocol with
  | none => rfl
  | some p =>
    dsimp only
    rw [if_pos (hw p hp)]

/-- What reading an answer can come to. -/
theorem receive_cases (c : Command) (w : World) :
    (receive c w=.waiting w) ∨ (receive c w=.done .lost w) ∨
      ∃ p a answers,w.conn.protocol=some p ∧ p.isAlive=true ∧ w.reply p c=some (a,answers) ∧
        receive c w=.done a (World.setProtocol {w.note (.answered p.connectionId c a) with
          answers := answers} (p.after w.server c a)) := by
  unfold receive
  cases hp : w.conn.protocol with
  | none => exact Or.inl rfl
  | some p =>
    dsimp only
    split
    · exact Or.inr (Or.inl rfl)
    · rename_i ha
      cases hr : w.reply p c with
      | none => exact Or.inl rfl
      | some r => exact Or.inr (Or.inr ⟨p,r.1,r.2,rfl,by simpa using ha,hr,rfl⟩)

/-- An answer with an error leaves the transaction as it is, after SQL of the library. -/
theorem after_error {b : Server} {sql : Sql} (hs : sql.isUser=false) {a : Answer} (ha : a.error≠none) :
    (p.after b (.query sql) a).session=p.session := by
  cases a with
  | ok hasRows more => exact absurd rfl ha
  | lost => rfl
  | refused e =>
    cases sql <;> first | rfl | cases hs

/-- The answer to SQL of the library is a single one. -/
theorem reply_plain {sql : Sql} (hs : sql.isUser=false) {a : Answer} {answers : List Answer}
    (h : w.reply p (.query sql)=some (a,answers)) : a.more=false := by
  have hv : ∀ {a},w.verdict p (.query sql)=some a → a.more=false := by
    intro a ha
    simp only [World.verdict] at ha
    split at ha <;> cases ha <;> rfl
  unfold World.reply at h
  cases hq : w.verdict p (.query sql) with
  | some v =>
    rw [hq] at h
    cases h
    exact hv hq
  | none =>
    rw [hq] at h
    cases ha : w.answers with
    | nil =>
      rw [ha] at h
      cases h
    | cons b rest =>
      rw [ha] at h
      simp only [MyProtocol.executed,Option.any_some,hs,Bool.false_eq_true,if_false] at h
      cases h
      cases b <;> rfl

/-- Without further results nothing is discarded. -/
theorem doDiscard_none {c : Command} (h : (w.conn.protocol.map MyProtocol.moreResults).getD false=false) :
    doDiscard c w=.done none w := by
  unfold doDiscard discardLoop
  rw [bind_apply,get_apply,Outcome.andThen_done,branch_apply,if_neg (by rw [h]; simp)]
  rfl

/-- A successful single answer has no further results. -/
theorem after_more {b : Server} {c : Command} {a : Answer} (h : a.more=false) (ha : a.error=none) :
    (p.after b c a).moreResults=false := by
  cases a with
  | ok hasRows more =>
    cases h
    cases c <;> rfl
  | lost => cases ha
  | refused e => cases ha

end Answers

namespace Tracked

variable {w : World}

/-- The transaction of the object gets prepared. -/
theorem markPrepared (h : Tracked w) {p q : MyProtocol} (hp : w.conn.protocol=some p) (log : List Entry)
    (answers : List Answer) (hstmts : q.stmts=p.stmts) (hcur : q.curCommand=p.curCommand)
    (hpool : q.state≠.IDLE_IN_POOL)
    (happend : ∀ x ph,q.session.kind=some (.xa x ph) → w.conn.curXaIdAppendConn=false)
    (hkind : ∀ x,q.session.kind=some (.xa x .prepared) → w.conn.curXaId=x ∧ x≠"") :
    Tracked {w with
      log := log,answers := answers,conn := {w.conn with protocol := some q,isXaPrepared := true}} := by
  refine ⟨h.calm,?_,?_,?_,h.pending,h.pendingId,fun x ph hx => happend x ph hx,?_,h.given⟩
  · intro p' hp' sql hm
    cases hp'
    exact h.stmts p hp sql (hstmts ▸ hm)
  · intro p' c hp' hc
    cases hp'
    exact h.opened p c hp (hcur ▸ hc)
  · rintro ⟨p',hp',hs⟩
    cases hp'
    exact absurd hs hpool
  · intro x hx
    exact ⟨rfl,hkind x hx⟩

end Tracked

/-- The connection is in the middle of a query, and the schema was selected. -/
def World.Querying (w : World) : Prop :=
  ∀ p,w.conn.protocol=some p → p.state=.QUERYING ∧ p.pendingChangeSchema=""

/-- The object is told that its transaction is prepared. -/
def World.mark (w : World) : World := {w with conn := {w.conn with isXaPrepared := true}}

/-- What is known before `XA PREPARE` of an id is sent. -/
structure Preparing (y : String) (w : World) : Prop where
  /-- What is always known. -/
  tracked : Tracked w
  /-- No transaction is prepared. -/
  notPrepared : w.NotPrepared
  /-- The query began. -/
  querying : w.Querying
  /-- The id is the one of the object. -/
  curId : w.conn.curXaId=y
  /-- There is an id. -/
  ne : y≠""

namespace Preparing

variable {y : String} {w : World}

/-- A command is written. -/
theorem send (h : Preparing y w) (c : Command) : ∃ w',Conn.send c w=.done () w' ∧ Preparing y w' ∧
    w'.kind=w.kind := by
  have hs := Tracked.harmless.send .quit trivial w h.tracked
  unfold Conn.send at hs ⊢
  cases hp : w.conn.protocol with
  | none =>
    refine ⟨w,rfl,h,rfl⟩
  | some p =>
    refine ⟨_,rfl,⟨?_,h.notPrepared,h.querying,h.curId,h.ne⟩,rfl⟩
    have ht := h.tracked
    exact ⟨ht.calm,ht.stmts,ht.opened,ht.pooled,ht.pending,ht.pendingId,ht.openId,ht.prepared,ht.given⟩

/-- The answer to `XA END` is read: when it is an error, the transaction is as
before. -/
theorem receive_end (h : Preparing y w) {a : Answer} {w' : World}
    (hr : receive (.query (.xaEnd y)) w=.done a w') :
    Preparing y w' ∧ (a.error≠none → w'.kind=w.kind) := by
  have hs := Tracked.harmless.receive (.query (.xaEnd y)) trivial w h.tracked
  rw [hr] at hs
  rcases receive_cases (.query (.xaEnd y)) w with hc | hc | ⟨p,b,answers,hp,_,_,hc⟩
  · rw [hc] at hr
    cases hr
  · rw [hc] at hr
    cases hr
    exact ⟨h,fun _ => rfl⟩
  · rw [hc] at hr
    cases hr
    have hq := h.querying p hp
    refine ⟨⟨hs.tracked,hs.notPrepared h.notPrepared,?_,h.curId,h.ne⟩,?_⟩
    · intro q hq'
      cases hq'
      rw [Tracked.after_state.1,after_schema]
      exact hq
    · intro ha
      have hk : w.kind=p.session.kind := by
        simp only [World.kind,hp,Option.bind_some]
      rw [hk]
      exact congrArg Session.kind (after_error (p:=p) (b:=w.server) rfl ha)

/-- What `XA PREPARE` does to the transaction. -/
theorem prepare_session {b : Server} {p : MyProtocol} {a : Answer} :
    (p.after b (.query (.xaPrepare y)) a).session=p.session ∨
      a.error=none ∧ p.session.kind=some (.xa y .idle) ∧
        (p.after b (.query (.xaPrepare y)) a).session.kind=some (.xa y .prepared) := by
  cases a with
  | lost => exact Or.inl rfl
  | refused e => exact Or.inl rfl
  | ok hasRows more =>
    have hs : (p.after b (.query (.xaPrepare y)) (.ok hasRows more)).session=
        (p.session.exec (.xaPrepare y)).getD p.session := rfl
    by_cases hk : p.session.kind=some (.xa y .idle)
    · refine Or.inr ⟨rfl,hk,?_⟩
      rw [hs]
      simp only [Session.exec,hk,if_true,Option.getD_some]
      rw [kind_setKind,hk]
      rfl
    · refine Or.inl ?_
      rw [hs]
      simp only [Session.exec]
      rw [if_neg hk]
      rfl

/-- What `XA PREPARE` leaves alone. -/
theorem prepare_fields {b : Server} {p : MyProtocol} {a : Answer} :
    (p.after b (.query (.xaPrepare y)) a).stmts=p.stmts ∧
      (p.after b (.query (.xaPrepare y)) a).curCommand=p.curCommand ∧
      (p.after b (.query (.xaPrepare y)) a).state=p.state := by
  cases a <;> exact ⟨rfl,rfl,rfl⟩

/-- The answer to `XA PREPARE` is read: only after a success the transaction can be
prepared, and then it is the one of the object. -/
theorem receive_prepare (h : Preparing y w) {a : Answer} {w' : World}
    (hr : receive (.query (.xaPrepare y)) w=.done a w') :
    (a.error≠none ∨ w.kind≠some (.xa y .idle) → Preparing y w') ∧
      (a.error=none → Tracked w'.mark ∧
        (w'.conn.protocol.map MyProtocol.moreResults).getD false=false) := by
  rcases receive_cases (.query (.xaPrepare y)) w with hc | hc | ⟨p,b,answers,hp,_,hrep,hc⟩
  · rw [hc] at hr
    cases hr
  · rw [hc] at hr
    cases hr
    exact ⟨fun _ => h,fun ha => by cases ha⟩
  · rw [hc] at hr
    cases hr
    have hk : w.kind=p.session.kind := by
      simp only [World.kind,hp,Option.bind_some]
    obtain ⟨hstmts,hcur,hstate⟩ := prepare_fields (y:=y) (b:=w.server) (p:=p) (a:=a)
    have hq := h.querying p hp
    constructor
    · intro ho
      have hsess : (p.after w.server (.query (.xaPrepare y)) a).session=p.session := by
        rcases prepare_session (y:=y) (b:=w.server) (p:=p) (a:=a) with hs | ⟨ha,hi,_⟩
        · exact hs
        · exact absurd (hk.trans hi) (ho.resolve_left (fun hn => hn ha))
      refine ⟨h.tracked.change hp _ _ ?_ ?_ ?_ ?_ ?_,?_,?_,h.curId,h.ne⟩
      · rw [hstmts]
        exact h.tracked.stmts p hp
      · rw [hcur]
        exact fun c => h.tracked.opened p c hp
      · rw [hstate]
        exact id
      · intro x ph hx
        rw [hsess,←hk] at hx
        exact h.tracked.openId x ph hx
      · rw [hsess]
        exact fun x => id
      · intro x hx
        have hx' : (p.after w.server (.query (.xaPrepare y)) a).session.kind=some (.xa x .prepared) := hx
        rw [hsess,←hk] at hx'
        exact h.notPrepared x hx'
      · intro q hq'
        cases hq'
        rw [hstate,after_schema]
        exact hq
    · intro ha
      refine ⟨h.tracked.markPrepared hp _ _ hstmts hcur ?_ ?_ ?_,after_more (reply_plain rfl hrep) ha⟩
      · rw [hstate,hq.1]
        simp
      · intro x ph hx
        rcases prepare_session (y:=y) (b:=w.server) (p:=p) (a:=a) with hs | ⟨_,hi,_⟩
        · rw [hs,←hk] at hx
          exact h.tracked.openId x ph hx
        · exact h.tracked.openId y .idle (hk.trans hi)
      · intro x hx
        rcases prepare_session (y:=y) (b:=w.server) (p:=p) (a:=a) with hs | ⟨_,_,hi⟩
        · rw [hs,←hk] at hx
          exact absurd hx (h.notPrepared x)
        · rw [hi] at hx
          cases hx
          exact ⟨h.curId,h.ne⟩

/-- The end of an attempt, after the answer to `XA END` was read. -/
theorem finish (h : Preparing y w) {preqError : Option Error}
    (hq : preqError≠none → w.kind≠some (.xa y .idle)) {last : Attempt} {w' : World}
    (hr : readLast (.query (.xaPrepare y)) preqError true w=.done last w') :
    (last.1=none → Tracked w'.mark) ∧ (last.1≠none → Preparing y w') := by
  obtain ⟨a,w₁,ha,hr⟩ := bind_eq_done.mp hr
  obtain ⟨hprep,hmark⟩ := h.receive_prepare ha
  cases he : a.error.or preqError with
  | some e =>
    rw [he] at hr
    cases hr
    refine ⟨(fun hn => by cases hn),fun _ => hprep ?_⟩
    cases hae : a.error with
    | some e' => exact Or.inl (fun hn => by cases hn)
    | none =>
      rw [hae,Option.none_or] at he
      exact Or.inr (hq (by rw [he]; simp))
  | none =>
    have hae : a.error=none := by
      cases hae : a.error with
      | none => rfl
      | some e =>
        rw [hae] at he
        cases he
    rw [he] at hr
    obtain ⟨htr,hmore⟩ := hmark hae
    dsimp only at hr
    rw [branch_apply,if_pos rfl,bind_apply,doDiscard_none hmore,Outcome.andThen_done] at hr
    cases hr
    exact ⟨fun _ => htr,fun hn => absurd rfl hn⟩

/-- An attempt of `XA END` and `XA PREPARE`: without an error the object can be told,
and with one no transaction is prepared. -/
theorem exchange (h : Preparing y w) {prequery : Option Sql}
    (hq : prequery=none ∨ prequery=some (.xaEnd y) ∧ w.kind≠some (.xa y .idle)) {last : Attempt}
    {w' : World}
    (hr : exchangeThree none prequery false (.text (.xaPrepare y)) true w=.done last w') :
    (last.1=none → Tracked w'.mark) ∧ (last.1≠none → Preparing y w') := by
  have hschema : w.NoSchema := fun p hp => (h.querying p hp).2
  unfold exchangeThree at hr
  rw [bind_apply,maybeInitDb_none hschema,Outcome.andThen_done] at hr
  simp only [Source.sql,sendInitDb,sendPreStmt,readInitDb,readPreStmt,bind_apply,pure_apply,
    Outcome.andThen_done] at hr
  rcases hq with rfl | ⟨rfl,hidle⟩
  · obtain ⟨w₁,hs,h₁,hk⟩ := h.send (.query (.xaPrepare y))
    simp only [sendPrequery,readPrequery,bind_apply,pure_apply,Outcome.andThen_done,hs,
      Option.or_none] at hr
    exact h₁.finish (fun hn => absurd rfl hn) hr
  · obtain ⟨w₁,hs₁,h₁,hk₁⟩ := h.send (.query (.xaEnd y))
    obtain ⟨w₂,hs₂,h₂,hk₂⟩ := h₁.send (.query (.xaPrepare y))
    simp only [sendPrequery,bind_apply,pure_apply,hs₁,hs₂,Outcome.andThen_done,Option.or_none] at hr
    obtain ⟨preqError,w₃,ha,hr⟩ := Outcome.andThen_eq_done.mp hr
    obtain ⟨a,w₄,ha,hp⟩ := bind_eq_done.mp ha
    cases hp
    obtain ⟨h₃,hk₃⟩ := h₂.receive_end ha
    refine h₃.finish (fun hn => ?_) hr
    have hae : a.error≠none := by
      intro hae
      rw [hae] at hn
      exact hn rfl
    rw [hk₃ hae,hk₂,hk₁]
    exact hidle

/-- After a success the state of the connection changes only. -/
theorem mark_setState {w : World} (h : Tracked w.mark) (source : Option Command) (a : Answer) :
    ∀ r w',(do setStateAfter source a true; return some () : Op (Option Unit)) w=.done r w' →
      Tracked w'.mark := by
  intro r w' hr
  obtain ⟨_,w₁,hs,hp⟩ := bind_eq_done.mp hr
  cases hp
  simp only [setStateAfter,modify_apply,if_true] at hs
  cases hp : w.conn.protocol with
  | none =>
    rw [hp] at hs
    cases hs
    exact h
  | some p =>
    rw [hp] at hs
    cases hs
    exact (Tracked.harmless.update w.mark p {p with state := .IDLE} hp rfl (Or.inl rfl) (by simp) h).tracked

/-- How an attempt is concluded. -/
theorem conclude {w : World} {last : Attempt} (hdone : last.1=none → Tracked w.mark)
    (hfail : last.1≠none → Preparing y w) (command : Option Command) :
    (∀ r w',Conn.conclude command last true false w=.done r w' → Tracked w'.mark) ∧
      ∀ e w',Conn.conclude command last true false w=.thrown e w' → Tracked w' := by
  unfold Conn.conclude
  cases hl : last.1 with
  | none =>
    refine ⟨mark_setState (hdone hl) _ _,?_⟩
    intro e w' hr
    rcases bind_eq_thrown.mp hr with hr | ⟨_,_,_,hr⟩ <;> cases hr
  | some e =>
    have ht := Tracked.harmless.rethrowErrorIfFatal (α:=Unit) e false w
      (hfail (by rw [hl]; simp)).tracked
    constructor
    · intro r w' hr
      exact absurd hr rethrowErrorIfFatal_throws
    · intro e' w' hr
      dsimp only at hr
      rw [hr] at ht
      exact ht.tracked

/-- The attempts of `XA END` and `XA PREPARE`. -/
theorem loop (n : ℕ) (retryLockWaitTimeout : Bool) (h : Preparing y w) {prequery : Option Sql}
    (hq : prequery=none ∨ prequery=some (.xaEnd y) ∧ w.kind≠some (.xa y .idle)) :
    (∀ r w',threeLoop false true false retryLockWaitTimeout n none prequery
        (.text (.xaPrepare y)) w=.done r w' → Tracked w'.mark) ∧
      ∀ e w',threeLoop false true false retryLockWaitTimeout n none prequery
        (.text (.xaPrepare y)) w=.thrown e w' → Tracked w' := by
  induction n generalizing w prequery with
  | zero =>
    constructor
    · intro r w' hr
      obtain ⟨last,w₁,hx,hc⟩ := bind_eq_done.mp hr
      obtain ⟨hd,hf⟩ := h.exchange hq hx
      exact (conclude hd hf _).1 r w' hc
    · intro e w' hr
      rcases bind_eq_thrown.mp hr with hx | ⟨last,w₁,hx,hc⟩
      · exact absurd hx (exchangeThree_never _ _ _ _ _ _ _ _)
      · obtain ⟨hd,hf⟩ := h.exchange hq hx
        exact (conclude hd hf _).2 e w' hc
  | succ n ih =>
    have hnext : ∀ {last w₁},last.1≠none → Preparing y w₁ → isRetriable retryLockWaitTimeout last=true →
        (∀ r w',threeLoop false true false retryLockWaitTimeout n none none
          (.text (.xaPrepare y)) w₁=.done r w' → Tracked w'.mark) ∧
        ∀ e w',threeLoop false true false retryLockWaitTimeout n none none
          (.text (.xaPrepare y)) w₁=.thrown e w' → Tracked w' := fun _ hp _ => ih hp (Or.inl rfl)
    have hsome : ∀ {last},isRetriable retryLockWaitTimeout last=true → last.1≠none := by
      intro last hi hn
      rw [isRetriable,hn] at hi
      cases hi
    constructor
    · intro r w' hr
      obtain ⟨last,w₁,hx,hc⟩ := bind_eq_done.mp hr
      obtain ⟨hd,hf⟩ := h.exchange hq hx
      rw [branch_apply] at hc
      split at hc
      · rename_i hi
        exact (hnext (hsome hi) (hf (hsome hi)) hi).1 r w' hc
      · exact (conclude hd hf _).1 r w' hc
    · intro e w' hr
      rcases bind_eq_thrown.mp hr with hx | ⟨last,w₁,hx,hc⟩
      · exact absurd hx (exchangeThree_never _ _ _ _ _ _ _ _)
      · obtain ⟨hd,hf⟩ := h.exchange hq hx
        rw [branch_apply] at hc
        split at hc
        · rename_i hi
          exact (hnext (hsome hi) (hf (hsome hi)) hi).2 e w' hc
        · exact (conclude hd hf _).2 e w' hc

end Preparing

/-- How a command that is sent again after some errors ends: the last answer, and
the answers that remain. -/
def lastAnswer (retryLockWaitTimeout : Bool) : ℕ → List Answer → Option (Answer×List Answer)
  | _,[] => none
  | 0,a::answers => some (a,answers)
  | retryQueryTimes+1,a::answers =>
    if a.error.any (canRetryQuery retryLockWaitTimeout)=true then
      lastAnswer retryLockWaitTimeout retryQueryTimes answers
    else some (a,answers)

/-- The connection works and no schema is to be selected on it. -/
structure MyProtocol.Works (p : MyProtocol) : Prop where
  /-- The transport works. -/
  alive : p.isAlive=true
  /-- No schema is pending. -/
  schema : p.pendingChangeSchema=""

section Command

variable {w : World} {p : MyProtocol} {sql : Sql}

/-- A plain answer has the same error. -/
theorem plain_error (a : Answer) : a.plain.error=a.error := by
  cases a <;> rfl

/-- An attempt of a command of the library takes one answer. -/
theorem exchange_answer (hp : w.conn.protocol=some p) (hworks : p.Works)
    (hjudge : ∀ s sql,w.server.judge s sql=none) (hs : sql.isUser=false) {a : Answer}
    {rest : List Answer} (ha : w.answers=a::rest) :
    ∃ w₁,exchange (.text sql) true w=.done (a.error,a.plain) w₁ ∧
      w₁.conn.protocol=some (p.after w.server (.query sql) a.plain) ∧ w₁.answers=rest ∧
      w₁.server=w.server ∧ w₁.retryLockWaitTimeout=w.retryLockWaitTimeout := by
  have hschema : w.NoSchema := by
    intro q hq
    rw [hp] at hq
    cases hq
    exact hworks.schema
  have hrep : (w.note (.sent p.connectionId (.query sql))).reply p (.query sql)=some (a.plain,rest) := by
    have hv : (w.note (.sent p.connectionId (.query sql))).verdict p (.query sql)=none := by
      simp only [World.verdict,World.note,hjudge]
    simp only [World.reply,hv]
    simp only [World.note,ha,MyProtocol.executed,Option.any_some,hs,Bool.false_eq_true,if_false]
  have hrec : receive (.query sql) (w.note (.sent p.connectionId (.query sql)))=
      .done a.plain (World.setProtocol
        {(w.note (.sent p.connectionId (.query sql))).note
          (.answered p.connectionId (.query sql) a.plain) with answers := rest}
        (p.after w.server (.query sql) a.plain)) := by
    unfold receive
    simp only [World.note,hp,hworks.alive,Bool.true_eq_false,if_false]
    simp only [World.note] at hrep
    rw [hrep]
  refine ⟨World.setProtocol {(w.note (.sent p.connectionId (.query sql))).note
    (.answered p.connectionId (.query sql) a.plain) with answers := rest}
    (p.after w.server (.query sql) a.plain),?_,rfl,rfl,rfl,rfl⟩
  unfold exchange
  rw [bind_apply,maybeInitDb_none hschema,Outcome.andThen_done]
  simp only [Source.sql,sendInitDb,readInitDb,readResults,send,bind_apply,pure_apply,hp,
    Outcome.andThen_done,hrec,plain_error,Option.none_or]
  cases he : a.error with
  | some e => rfl
  | none =>
    have hm : a.plain.more=false := by
      cases a <;> rfl
    have hmore := after_more (p:=p) (b:=w.server) (c:=.query sql) hm ((plain_error a).trans he)
    simp only [branch_apply,if_true,bind_apply]
    rw [doDiscard_none]
    · rfl
    · exact hmore

/-- How the last attempt of a command of the library is concluded. -/
theorem conclude_answer (hs : sql.isUser=false) {a : Answer} {w₁ : World}
    (hp : w₁.conn.protocol=some (p.after w.server (.query sql) a.plain)) (hworks : p.Works)
    (command : Option Command) :
    (a.error=none → ∃ w₂ p₂,conclude command (a.error,a.plain) true false w₁=.done (some ()) w₂ ∧
      w₂.conn.protocol=some p₂ ∧ p₂.session=w.server.exec sql p.nResults p.session) ∧
    ∀ e,a=.refused e → ∃ w₂ p₂,conclude command (a.error,a.plain) true false w₁=.thrown (.sql e) w₂ ∧
      w₂.conn.protocol=some p₂ ∧ p₂.session=p.session ∧ p₂.Works ∧ p₂.state=.IDLE ∧
      p₂.retryQueryTimes=p.retryQueryTimes ∧ w₂.answers=w₁.answers ∧ w₂.server=w₁.server ∧
      w₂.retryLockWaitTimeout=w₁.retryLockWaitTimeout := by
  constructor
  · intro he
    have hsess : (p.after w.server (.query sql) a.plain).session=w.server.exec sql p.nResults p.session := by
      cases a with
      | ok hasRows more => rfl
      | lost => cases he
      | refused e => cases he
    refine ⟨w₁.setProtocol {p.after w.server (.query sql) a.plain with state := .IDLE},_,?_,rfl,?_⟩
    · unfold conclude
      rw [he]
      dsimp only
      rw [bind_apply]
      simp only [setStateAfter,modify_apply,hp,if_true,Outcome.andThen_done,pure_apply]
    · exact hsess
  · rintro e rfl
    have hq : p.after w.server (.query sql) (Answer.refused e).plain=
        {p with moreResults := false,nResults := 0} := by
      cases sql <;> first | rfl | cases hs
    rw [hq] at hp
    refine ⟨w₁.setProtocol {p with moreResults := false,nResults := 0,state := .IDLE},_,?_,rfl,?_⟩
    · unfold conclude rethrowErrorIfFatal
      have hsql : (Error.sql e).isSql=true := rfl
      dsimp only [Answer.error]
      rw [branch_apply,if_pos hsql,bind_apply]
      simp only [setState,modify_apply,hp,Outcome.andThen_done,fail_apply]
    · exact ⟨rfl,⟨hworks.alive,hworks.schema⟩,rfl,rfl,rfl,rfl,rfl⟩

/-- The end of a command of the library, in terms of its last answer. -/
theorem queryLoop_answer (hs : sql.isUser=false) {retryLockWaitTimeout : Bool} {a : Answer}
    {rest : List Answer} (n : ℕ) (hp : w.conn.protocol=some p) (hworks : p.Works)
    (hjudge : ∀ s sql,w.server.judge s sql=none)
    (ha : lastAnswer retryLockWaitTimeout n w.answers=some (a,rest)) :
    (a.error=none → ∃ w₁ p₁,queryLoop true false retryLockWaitTimeout n (.text sql) w=.done (some ()) w₁ ∧
      w₁.conn.protocol=some p₁ ∧ p₁.session=w.server.exec sql p.nResults p.session) ∧
    ∀ e,a=.refused e → ∃ w₁ p₁,
      queryLoop true false retryLockWaitTimeout n (.text sql) w=.thrown (.sql e) w₁ ∧
      w₁.conn.protocol=some p₁ ∧ p₁.session=p.session ∧ p₁.Works ∧ p₁.state=.IDLE ∧
      p₁.retryQueryTimes=p.retryQueryTimes ∧ w₁.answers=rest ∧ w₁.server=w.server ∧
      w₁.retryLockWaitTimeout=w.retryLockWaitTimeout := by
  induction n generalizing w p with
  | zero =>
    cases hw : w.answers with
    | nil =>
      rw [hw] at ha
      cases ha
    | cons b answers =>
      rw [hw] at ha
      cases ha
      obtain ⟨w₁,hx,hp₁,hans,hserver,hopt⟩ := exchange_answer hp hworks hjudge hs hw
      have hloop : queryLoop true false retryLockWaitTimeout 0 (.text sql) w=
          conclude (Source.text sql).command (a.error,a.plain) true false w₁ := by
        rw [queryLoop,bind_apply,hx,Outcome.andThen_done]
      have hc := conclude_answer hs hp₁ hworks (Source.text sql).command
      rw [hans,hserver,hopt] at hc
      rw [hloop]
      exact hc
  | succ n ih =>
    cases hw : w.answers with
    | nil =>
      rw [hw] at ha
      cases ha
    | cons b answers =>
      obtain ⟨w₁,hx,hp₁,hans,hserver,hopt⟩ := exchange_answer hp hworks hjudge hs hw
      have hloop : queryLoop true false retryLockWaitTimeout (n+1) (.text sql) w=
          (if b.error.any (canRetryQuery retryLockWaitTimeout)=true then
            queryLoop true false retryLockWaitTimeout n (.text sql)
          else conclude (Source.text sql).command (b.error,b.plain) true false) w₁ := by
        rw [queryLoop,bind_apply,hx,Outcome.andThen_done]
        rfl
      rw [hw,lastAnswer] at ha
      split at ha
      · rename_i hretry
        -- a refused command of the library leaves the connection as it was
        obtain ⟨e,rfl⟩ : ∃ e,b=.refused e := by
          cases b with
          | ok _ _ => cases hretry
          | lost => cases hretry
          | refused e => exact ⟨e,rfl⟩
        have hq : p.after w.server (.query sql) (Answer.refused e).plain=
            {p with moreResults := false,nResults := 0} := by
          cases sql <;> first | rfl | cases hs
        rw [hq] at hp₁
        rw [branch_apply,if_pos hretry] at hloop
        have hi := ih (p:={p with moreResults := false,nResults := 0}) hp₁ ⟨hworks.alive,hworks.schema⟩
          (hserver ▸ hjudge) (hans ▸ ha)
        rw [hserver,hopt] at hi
        rw [hloop]
        refine ⟨fun he => ?_,hi.2⟩
        obtain ⟨w₂,p₂,h₁,h₂,h₃⟩ := hi.1 he
        refine ⟨w₂,p₂,h₁,h₂,h₃.trans ?_⟩
        cases sql <;> first | rfl | cases hs
      · rename_i hretry
        cases ha
        rw [branch_apply,if_neg hretry] at hloop
        have hc := conclude_answer hs hp₁ hworks (Source.text sql).command
        rw [hans,hserver,hopt] at hc
        rw [hloop]
        exact hc

/-- A command of the library on a connection that works, in terms of its last answer. -/
theorem command_answer (hs : sql.isUser=false) {a : Answer} {rest : List Answer}
    (hp : w.conn.protocol=some p) (hworks : p.Works) (hidle : p.state=.IDLE)
    (hjudge : ∀ s sql,w.server.judge s sql=none)
    (ha : lastAnswer w.retryLockWaitTimeout p.retryQueryTimes w.answers=some (a,rest)) :
    (a.error=none → ∃ w₁ p₁,command sql w=.done () w₁ ∧ w₁.conn.protocol=some p₁ ∧
      p₁.session=w.server.exec sql p.nResults p.session) ∧
    ∀ e,a=.refused e → ∃ w₁ p₁,command sql w=.thrown (.sql e) w₁ ∧ w₁.conn.protocol=some p₁ ∧
      p₁.session=p.session ∧ p₁.Works ∧ p₁.state=.IDLE ∧ p₁.retryQueryTimes=p.retryQueryTimes ∧
      w₁.answers=rest ∧ w₁.server=w.server ∧ w₁.retryLockWaitTimeout=w.retryLockWaitTimeout := by
  have hopt : w.retryOptions=⟨w.retryLockWaitTimeout,p.retryQueryTimes⟩ := by
    simp only [World.retryOptions,hp,Option.map_some,Option.getD_some]
  have hcmd : command sql w=(queryLoop true false w.retryLockWaitTimeout p.retryQueryTimes (.text sql)
      (w.setProtocol {p with state := .QUERYING})).andThen (fun _ => (pure () : Op Unit)) := by
    unfold command sendComQuery
    simp only [bind_apply,get_apply,Outcome.andThen_done,hopt,setQueryingState_idle hp hidle,
      Bool.false_and]
  have hl := queryLoop_answer (p:={p with state := .QUERYING}) hs
    (w:=w.setProtocol {p with state := .QUERYING}) p.retryQueryTimes rfl
    ⟨hworks.alive,hworks.schema⟩ hjudge ha
  constructor
  · intro he
    obtain ⟨w₁,p₁,h₁,h₂,h₃⟩ := hl.1 he
    refine ⟨w₁,p₁,?_,h₂,h₃⟩
    rw [hcmd,h₁]
    rfl
  · intro e he
    obtain ⟨w₁,p₁,h₁,h₂⟩ := hl.2 e he
    refine ⟨w₁,p₁,?_,h₂⟩
    rw [hcmd,h₁]
    rfl

end Command

/-- What is known, without a prepared transaction. -/
def Free (w : World) : Prop := Tracked w ∧ w.NotPrepared

/-- An operation keeps what is known, when no transaction is prepared. -/
def KeepsFree {α : Type} (x : Op α) : Prop := Always (fun w w' => Free w → Free w') x

namespace KeepsFree

variable {α β : Type}

/-- One operation after another. -/
theorem bind {x : Op α} {f : α → Op β} (hx : KeepsFree x) (hf : ∀ a,KeepsFree (f a)) :
    KeepsFree (x >>= f) :=
  Always.bind (R:=fun w w' => Free w → Free w') (fun _ _ _ h h' ht => h' (h ht)) hx hf

/-- A handler runs after an error. -/
theorem attempt {x : Op α} {f : Error → Op α} (hx : KeepsFree x) (hf : ∀ e,KeepsFree (f e)) :
    KeepsFree (AsyncAction.attempt x f) :=
  Always.attempt (R:=fun w w' => Free w → Free w') (fun _ _ _ h h' ht => h' (h ht)) hx hf

/-- A value is returned. -/
theorem pure (a : α) : KeepsFree (Pure.pure a : Op α) := fun _ => id

/-- An error is thrown. -/
theorem fail (e : Error) : KeepsFree (AsyncAction.fail e : Op α) := fun _ => id

/-- The state is read. -/
theorem get : KeepsFree (AsyncAction.get : Op World) := fun _ => id

/-- One of two operations. -/
theorem ite {c : Prop} [Decidable c] {x y : Op α} (hx : KeepsFree x) (hy : KeepsFree y) :
    KeepsFree (if c then x else y) := Always.ite hx hy

/-- An operation that may not run. -/
theorem doWhen {c : Prop} [Decidable c] {x : Op Unit} (hx : KeepsFree x) :
    KeepsFree (AsyncAction.doWhen c x) :=
  Always.doWhen (R:=fun w w' => Free w → Free w') (fun _ => id) hx

/-- Harmless commands. -/
theorem steady {x : Op α} (hx : Always (fun w w' => Tracked w → Tracked.Steady w w') x) : KeepsFree x :=
  fun w h => ⟨(hx w h.1).tracked,(hx w h.1).notPrepared h.2⟩

/-- The connection is given up. -/
theorem endConn : KeepsFree Conn.endConn := by
  intro w h
  refine ⟨h.1.doEnd h.2 false,fun x hx => ?_⟩
  have hk : World.kind (w.doEnd false none)=none := by
    simp only [World.doEnd]
    cases w.conn.protocol <;> rfl
  have hx' : World.kind (w.doEnd false none)=some (.xa x .prepared) := hx
  rw [hk] at hx'
  cases hx'

/-- The fields of the transaction are cleared. -/
theorem clearTrx : KeepsFree Conn.clearTrx := fun _ h => ⟨h.1.clearTrx h.2,h.2⟩

/-- An error is thrown, when there is one. -/
theorem throwSome (error : Option Error) : KeepsFree (Conn.throwSome error) := by
  cases error with
  | none => exact pure ()
  | some e => exact fail e

/-- The handler is called. -/
theorem callOnBeforeCommit : KeepsFree Conn.callOnBeforeCommit := by
  intro w h
  unfold Conn.callOnBeforeCommit
  split <;> exact h

/-- The commit, and the rollback when it fails. -/
theorem commitOrRollback {sql back : Sql} (hs : sql.Harmless) (hb : back.Harmless) :
    KeepsFree (Conn.commitOrRollback sql back) := by
  refine attempt (bind (steady (Tracked.harmless.command hs)) (fun _ => pure none)) (fun e => ?_)
  refine attempt (bind (steady (Tracked.harmless.command hb)) (fun _ => pure _)) (fun _ => ?_)
  exact bind endConn (fun _ => fail _)

/-- `commit()`. -/
theorem commit (andChain : Bool) : KeepsFree (Conn.commit andChain) := by
  refine bind get (fun w => ite (ite (ite (fail _) ?_) ?_) clearTrx)
  · exact bind (commitOrRollback trivial trivial) (fun _ => bind clearTrx (fun _ => throwSome _))
  · exact bind callOnBeforeCommit (fun _ => bind (commitOrRollback trivial trivial)
      (fun _ => bind clearTrx (fun _ => throwSome _)))

/-- `startTrx()`. -/
theorem startTrx (options : TrxOptions) : KeepsFree (Conn.startTrx options) := by
  refine bind get (fun w => ite (fail _) (bind (doWhen (commit false)) (fun _ => ite (fail _) ?_)))
  intro w h
  refine ⟨h.1.setTrx h.2 options,fun x hx => h.2 x ?_⟩
  have hp : (w.conn.setTrx options).protocol=w.conn.protocol := by
    unfold MyConn.setTrx
    split_ifs
    · rfl
    · cases w.conn.protocol <;> rfl
    · rfl
  have hk : World.kind {w with conn := w.conn.setTrx options}=w.kind := by
    simp only [World.kind,hp]
  exact hk ▸ hx

/-- `rollback()` without a savepoint. -/
theorem rollbackAll (toStart : Bool) : KeepsFree (Conn.rollbackAll toStart) := by
  refine bind get (fun w => ite (bind (attempt ?_ (fun _ => ?_)) (fun _ => clearTrx)) clearTrx)
  · unfold rollbackCommand
    have hc : ∀ sql : Sql,sql.Harmless → KeepsFree (command sql) := fun _ hs =>
      steady (Tracked.harmless.command hs)
    have ht : ∀ sql sql' : Sql,sql.Harmless → sql'.Harmless → KeepsFree (twoCommands sql true sql') :=
      fun _ _ hs hs' => steady (Tracked.harmless.twoCommands hs hs' true)
    exact ite (hc (.rollback true) trivial) (ite (hc (.rollback false) trivial)
      (ite (hc (.xaRollback w.conn.curXaId) trivial)
        (ht (.xaEnd w.conn.curXaId) (.xaRollback w.conn.curXaId) trivial trivial)))
  · exact bind get (fun _ => bind endConn (fun _ => bind (doWhen (startTrx _)) (fun _ => fail _)))

end KeepsFree

/-- The server accepts the next command of the library, if not at once then when it
is sent again. -/
def World.Accepts (w : World) : Prop :=
  ∃ p,w.conn.protocol=some p ∧ p.Works ∧ p.state=.IDLE ∧
    ∃ a rest,lastAnswer w.retryLockWaitTimeout p.retryQueryTimes w.answers=some (a,rest) ∧ a.error=none

/-- The server refuses the next command of the library, and accepts the one after. -/
def World.AcceptsSecond (w : World) : Prop :=
  ∃ p,w.conn.protocol=some p ∧ p.Works ∧ p.state=.IDLE ∧
    ∃ e rest,lastAnswer w.retryLockWaitTimeout p.retryQueryTimes w.answers=some (.refused e,rest) ∧
      ∃ a rest',lastAnswer w.retryLockWaitTimeout p.retryQueryTimes rest=some (a,rest') ∧ a.error=none

/-- A call that ends or keeps a prepared transaction, and prepares one in one go. -/
def Careful (w : World) : Call → Prop
  | .prepareCommit => w.conn.isXaPrepared=false → (∀ x,w.kind≠some (.xa x .idle)) ∧ w.NoSchema
  | .endConn => w.NotPrepared
  | .dispose => w.NotPrepared
  | .forceImmediateDisconnect force => w.NotPrepared ∨ force.noRollbackCurXa=false
  | .rollback (some 0) => w.NotPrepared
  | .rollback none => w.NotPrepared ∨ w.Accepts
  | .commit _ => w.NotPrepared ∨ w.Accepts ∨ w.AcceptsSecond
  | .startTrx _ => w.NotPrepared ∨ w.inTrans=true
  | _ => True

namespace Tracked

variable {w : World}

/-- A prepared transaction is what the object and the server agree on. -/
theorem of_prepared (h : Tracked w) (hn : ¬w.NotPrepared) : ∃ x,w.kind=some (.xa x .prepared) ∧
    w.conn.isXaPrepared=true ∧ w.conn.curXaId=x ∧ x≠"" := by
  simp only [World.NotPrepared,not_forall,not_not] at hn
  obtain ⟨x,hx⟩ := hn
  exact ⟨x,hx,h.prepared x hx⟩

/-- With a prepared transaction there is something to commit. -/
theorem hasTrx (h : Tracked w) (hn : ¬w.NotPrepared) : w.hasTrx=true := by
  obtain ⟨x,hx,hprep,_⟩ := h.of_prepared hn
  have hp : w.conn.protocol.isSome=true := by
    cases hp : w.conn.protocol with
    | some p => rfl
    | none =>
      simp only [World.kind,hp] at hx
      cases hx
  simp only [World.hasTrx,hp,hprep,Bool.or_true,Bool.and_true]

/-- A command that ends the prepared transaction is accepted. -/
theorem command_accepted (h : Tracked w) {x : String} (hk : w.kind=some (.xa x .prepared))
    {sql : Sql} (hs : sql=.xaCommit x ∨ sql=.xaRollback x) (ha : w.Accepts) :
    ∃ w₁,command sql w=.done () w₁ ∧ Free w₁ := by
  obtain ⟨p,hp,hworks,hidle,a,rest,hans,he⟩ := ha
  have hkp : p.session.kind=some (.xa x .prepared) := by
    simpa only [World.kind,hp,Option.bind_some] using hk
  have huser : sql.isUser=false := by
    rcases hs with rfl | rfl <;> rfl
  have hharm : (Command.query sql).Harmless := by
    rcases hs with rfl | rfl <;> exact trivial
  obtain ⟨w₁,p₁,h₁,hp₁,hsess⟩ := (command_answer huser hp hworks hidle h.calm.judge hans).1 he
  refine ⟨w₁,h₁,?_,?_⟩
  · have hst := harmless.command hharm w h
    rw [h₁] at hst
    exact hst.tracked
  · intro y hy
    have hnone : p₁.session.kind=none := by
      rw [hsess]
      rcases hs with rfl | rfl
      · simp only [Server.exec,Session.exec,hkp,if_true,Option.getD_some,kind_commit]
      · simp only [Server.exec,Session.exec,hkp,or_true,if_true,Option.getD_some,kind_rollback]
    simp only [World.kind,hp₁,Option.bind_some,hnone] at hy
    cases hy

/-- A command that ends the prepared transaction is refused: everything is as before. -/
theorem command_refused (h : Tracked w) {x : String} (hk : w.kind=some (.xa x .prepared))
    (ha : w.AcceptsSecond) : ∃ e w₁,command (.xaCommit x) w=.thrown e w₁ ∧ Tracked w₁ ∧
      w₁.kind=some (.xa x .prepared) ∧ w₁.Accepts := by
  obtain ⟨p,hp,hworks,hidle,e,rest,hans,hsecond⟩ := ha
  have hkp : p.session.kind=some (.xa x .prepared) := by
    simpa only [World.kind,hp,Option.bind_some] using hk
  obtain ⟨w₁,p₁,h₁,hp₁,hsess,hworks₁,hidle₁,htimes,hrest,_,hlock⟩ :=
    (command_answer (show (Sql.xaCommit x).isUser=false from rfl) hp hworks hidle h.calm.judge hans).2 e rfl
  refine ⟨_,w₁,h₁,?_,?_,p₁,hp₁,hworks₁,hidle₁,?_⟩
  · have hharm : (Command.query (.xaCommit x)).Harmless := trivial
    have hst := harmless.command hharm w h
    rw [h₁] at hst
    exact hst.tracked
  · simp only [World.kind,hp₁,Option.bind_some]
    rw [hsess,hkp]
  · rw [hlock,htimes,hrest]
    exact hsecond

/-- `rollback()` of a prepared transaction. -/
theorem rollback_prepared (h : Tracked w) (hn : ¬w.NotPrepared) (ha : w.Accepts) :
    Tracked (Conn.rollbackAll false w).state := by
  obtain ⟨x,hk,hprep,hid,hx⟩ := h.of_prepared hn
  obtain ⟨w₁,h₁,ht,hfree⟩ := h.command_accepted hk (Or.inr rfl) ha
  have hcmd : rollbackCommand w.conn.curXaId w.conn.isXaPrepared false=command (.xaRollback x) := by
    rw [hid,hprep,rollbackCommand,if_neg Bool.false_ne_true,if_neg hx,if_pos rfl]
  unfold Conn.rollbackAll
  rw [bind_apply,get_apply,Outcome.andThen_done,branch_apply,if_pos (h.hasTrx hn),bind_apply,
    attempt_apply,hcmd,h₁,Outcome.orElse_done,Outcome.andThen_done]
  exact ht.clearTrx hfree

/-- `commit()` of a prepared transaction. -/
theorem commit_prepared (h : Tracked w) (hn : ¬w.NotPrepared) (ha : w.Accepts ∨ w.AcceptsSecond)
    (andChain : Bool) : Tracked (Conn.commit andChain w).state := by
  obtain ⟨x,hk,hprep,hid,hx⟩ := h.of_prepared hn
  have hboth : ∃ error w₁,commitOrRollback (.xaCommit x) (.xaRollback x) w=.done error w₁ ∧ Free w₁ := by
    unfold commitOrRollback
    rcases ha with ha | ha
    · obtain ⟨w₁,h₁,hf⟩ := h.command_accepted hk (Or.inl rfl) ha
      refine ⟨none,w₁,?_,hf⟩
      rw [attempt_apply,bind_apply,h₁]
      rfl
    · obtain ⟨e,w₁,h₁,ht₁,hk₁,ha₁⟩ := h.command_refused hk ha
      obtain ⟨w₂,h₂,hf⟩ := ht₁.command_accepted hk₁ (Or.inr rfl) ha₁
      refine ⟨some e,w₂,?_,hf⟩
      rw [attempt_apply,bind_apply,h₁,Outcome.andThen_thrown,Outcome.orElse_thrown,attempt_apply,
        bind_apply,h₂]
      rfl
  obtain ⟨error,w₁,h₁,hf⟩ := hboth
  unfold Conn.commit
  rw [bind_apply,get_apply,Outcome.andThen_done,branch_apply,if_pos (h.hasTrx hn),branch_apply,
    if_pos (by rw [hid]; exact hx),branch_apply,if_neg (by rw [hprep]; simp),hid,bind_apply,h₁,
    Outcome.andThen_done]
  exact (KeepsFree.bind KeepsFree.clearTrx (fun _ => KeepsFree.throwSome _) w₁ hf).1

/-- `startTrx()` while a transaction is prepared. -/
theorem startTrx_prepared (h : Tracked w) (hn : ¬w.NotPrepared) (ht : w.inTrans=true)
    (options : TrxOptions) : (Conn.startTrx options w).state=w := by
  obtain ⟨x,hk,hprep,hid,hx⟩ := h.of_prepared hn
  unfold Conn.startTrx
  rw [bind_apply,get_apply,Outcome.andThen_done,branch_apply,if_pos ⟨ht,by rw [hid]; exact hx⟩]
  rfl

/-- `XA END` and `XA PREPARE` in one go. -/
theorem twoCommands (h : Tracked w) (hn : w.NotPrepared) (hid : w.conn.curXaId≠"")
    (hidle : ∀ x,w.kind≠some (.xa x .idle)) (hschema : w.NoSchema) :
    (∀ u w',Conn.twoCommands (.xaEnd w.conn.curXaId) false (.xaPrepare w.conn.curXaId) w=.done u w' →
      Tracked w'.mark) ∧
    ∀ e w',Conn.twoCommands (.xaEnd w.conn.curXaId) false (.xaPrepare w.conn.curXaId) w=.thrown e w' →
      Tracked w' := by
  have hst := harmless.setQueryingState w h
  unfold Conn.twoCommands sendThreeQueries
  simp only [bind_apply,get_apply,Outcome.andThen_done]
  cases hq : setQueryingState w with
  | thrown e w₁ =>
    rw [hq] at hst
    constructor
    · intro u w' hr
      cases hr
    · intro e' w' hr
      cases hr
      exact hst.tracked
  | waiting w₁ =>
    constructor
    · intro u w' hr
      cases hr
    · intro e w' hr
      cases hr
  | done isFromPool w₁ =>
    rw [hq] at hst
    obtain ⟨p,hp,hw₁⟩ := setQueryingState_done hq
    subst hw₁
    have hprep : Preparing w.conn.curXaId (w.setProtocol {p with state := .QUERYING}) := by
      refine ⟨hst.tracked,hst.notPrepared hn,?_,rfl,hid⟩
      intro q hq'
      cases hq'
      exact ⟨rfl,hschema p hp⟩
    have hk : World.kind (w.setProtocol {p with state := .QUERYING})=w.kind := by
      simp only [World.kind,hp,Option.bind_some]
      rfl
    have hloop := hprep.loop w.retryOptions.retryQueryTimes w.retryOptions.retryLockWaitTimeout
      (Or.inr ⟨rfl,by rw [hk]; exact hidle _⟩)
    simp only [Outcome.andThen_done,Bool.and_false]
    constructor
    · intro u w' hr
      obtain ⟨r,w₂,h₂,hr⟩ := Outcome.andThen_eq_done.mp hr
      cases hr
      exact hloop.1 r _ h₂
    · intro e w' hr
      rcases Outcome.andThen_eq_thrown.mp hr with hr | ⟨_,_,_,hr⟩
      · exact hloop.2 e w' hr
      · cases hr

/-- `prepareCommit()`. -/
theorem prepareCommit (h : Tracked w)
    (hc : w.conn.isXaPrepared=false → (∀ x,w.kind≠some (.xa x .idle)) ∧ w.NoSchema) {w' : World}
    (hr : settled (Conn.prepareCommit w)=some w') : Tracked w' := by
  unfold Conn.prepareCommit at hr
  rw [bind_apply,get_apply,Outcome.andThen_done,branch_apply] at hr
  split at hr
  · rename_i hcond
    obtain ⟨htrans,hid,hprep⟩ := hcond
    obtain ⟨hidle,hschema⟩ := hc hprep
    have hn : w.NotPrepared := by
      intro x hx
      rw [(h.prepared x hx).1] at hprep
      cases hprep
    rw [bind_apply] at hr
    have hbefore : Conn.callOnBeforeCommit w=.done () w ∨
        Conn.callOnBeforeCommit w=.thrown (.error "onBeforeCommit") w := by
      unfold callOnBeforeCommit
      split
      · exact Or.inr rfl
      · exact Or.inl rfl
    rcases hbefore with hb | hb
    · rw [hb,Outcome.andThen_done] at hr
      have htwo := h.twoCommands hn hid hidle hschema
      rw [bind_apply] at hr
      cases ht : Conn.twoCommands (.xaEnd w.conn.curXaId) false (.xaPrepare w.conn.curXaId) w with
      | done u w₁ =>
        rw [ht] at hr
        cases hr
        exact htwo.1 u w₁ ht
      | thrown e w₁ =>
        rw [ht] at hr
        cases hr
        exact htwo.2 e _ ht
      | waiting w₁ =>
        rw [ht] at hr
        cases hr
    · rw [hb,Outcome.andThen_thrown] at hr
      cases hr
      exact h
  · cases hr
    exact h

/-- The results are discarded. -/
theorem discard (h : Tracked w) : Tracked (Conn.discard w).state :=
  (harmless.discard (fun p c hp hc => h.opened p c hp hc) h).tracked

/-- A call that is made with care keeps what is known. -/
theorem step (h : Tracked w) {c : Call} (hc : Careful w c) {w' : World} (hs : w.step c=some w') :
    Tracked w' := by
  have hstate := step_state hs
  cases c with
  | connect => exact hstate ▸ h.connect
  | use schema => exact hstate ▸ h.use schema
  | query q => exact hstate ▸ h.doQuery (harmlessSource q.2)
  | discard => exact hstate ▸ h.discard
  | startTrx options =>
    rw [←hstate]
    by_cases hn : w.NotPrepared
    · exact (KeepsFree.startTrx options w ⟨h,hn⟩).1
    · have hw : (Conn.startTrx options w).state=w := h.startTrx_prepared hn (hc.resolve_left hn) options
      exact (hw.symm ▸ h : Tracked (Conn.startTrx options w).state)
  | savepoint => exact hstate ▸ h.addPoint (w.conn.savepointEnum+1) false (w.conn.savepointEnum+1)
  | sessionSavepoint pointId => exact hstate ▸ h.addPoint w.conn.savepointEnum true pointId
  | prepareCommit => exact h.prepareCommit hc hs
  | rollback toPointId =>
    rw [←hstate]
    cases toPointId with
    | none =>
      by_cases hn : w.NotPrepared
      · exact (KeepsFree.rollbackAll false w ⟨h,hn⟩).1
      · exact h.rollback_prepared hn (hc.resolve_left hn)
    | some n =>
      cases n with
      | zero => exact (KeepsFree.rollbackAll true w ⟨h,hc⟩).1
      | succ n => exact h.rollbackTo (n+1)
  | commit andChain =>
    rw [←hstate]
    by_cases hn : w.NotPrepared
    · exact (KeepsFree.commit andChain w ⟨h,hn⟩).1
    · exact h.commit_prepared hn (hc.resolve_left hn) andChain
  | endConn => exact hstate ▸ h.doEnd hc false
  | dispose =>
    rw [←hstate]
    have hd : Tracked {w with conn := {w.conn with isDisposed := true}} :=
      Tracked.setFields h _ rfl (fun _ => id) rfl rfl rfl
    exact hd.doEnd hc false
  | forceImmediateDisconnect force => exact hstate ▸ h.doEnd_force hc

end Tracked

/-- What becomes of a connection that was given up with a prepared transaction: it
is rolled back on that connection, or put on the list of the pool; and it is not
there any more on a connection that goes back to the idle list. -/
def GivenUp.IsHandled (g : GivenUp) (w : World) (x : String) : Prop :=
  ((g.forced=false ∧ ∀ recycle answers,Entry.sent g.protocol.connectionId (.query (.xaRollback x)) ∈
      (endProtocol g.rollbackPreparedXaId recycle (g.world w answers)).state.log) ∨
    ∃ t ∈ w.takeCare,t.rollbackPreparedXaId=x) ∧
  (g.forced=false → ∀ recycle answers p w',
    endProtocol g.rollbackPreparedXaId recycle (g.world w answers)=.done (some p) w' →
    p.session.kind≠some (.xa x .prepared))

/-- No prepared transaction was abandoned. -/
def World.NotAbandoned (w : World) : Prop :=
  ∀ g ∈ w.givenUp,∀ x,g.protocol.session.kind=some (.xa x .prepared) → g.IsHandled w x

/-- A connection object before its first call. -/
def World.IsNew (w : World) : Prop := w.conn={} ∧ w.givenUp=[]

/-- Nothing is known of a new object. -/
theorem Tracked.of_new {w : World} (hw : w.IsNew) (hcalm : w.server.Calm) : Tracked w := by
  obtain ⟨hconn,hgiven⟩ := hw
  have hk : w.kind=none := by
    simp only [World.kind,hconn,Option.bind_none]
  refine ⟨hcalm,?_,?_,?_,?_,?_,?_,?_,?_⟩
  · intro p hp
    rw [hconn] at hp
    cases hp
  · intro p c hp
    rw [hconn] at hp
    cases hp
  · intro _ x hx
    rw [hk] at hx
    cases hx
  · intro sql hm
    rw [hconn] at hm
    cases hm
  · intro y hm
    rw [hconn] at hm
    cases hm
  · intro x ph hx
    rw [hk] at hx
    cases hx
  · intro x hx
    rw [hk] at hx
    cases hx
  · intro g hg
    rw [hgiven] at hg
    cases hg

/-- A new object with one connection in the pool; the server accepts everything. -/
def healthy : World :=
  {supply := [.pooled {connectionId := 1} false],answers := List.replicate 8 (.ok false false)}

/-- The calls that begin a distributed transaction and use it. -/
def begins : List Call :=
  [.startTrx {xaId := "x"},.query ⟨{sql := .text (.user "INSERT"),void := true},by decide⟩]

/-- Such a server rolls back nothing by itself. -/
theorem healthy_calm : healthy.server.Calm := by
  refine ⟨?_,fun text n s x ph hk => hk,fun s sql => rfl⟩
  intro text n s x ph hk
  cases ht : s.trx with
  | none =>
    simp only [healthy,Store.write,ht,Session.kind] at hk
    cases hk
  | some t =>
    simp only [healthy,Store.write,ht,Session.kind] at hk
    simp only [Session.kind,ht]
    exact hk

end SpiritMysql.Conn
