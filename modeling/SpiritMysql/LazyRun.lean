import SpiritMysql.LazyQuery
import SpiritMysql.SessionPointsRun

/-!
# Lazy transaction commands mean the same as immediate ones

`startTrx()` and `savepoint()` only remember their commands, and a return to a
savepoint that is still remembered sends nothing. What the calls come to is what
they would if each of them took effect at once.
-/

namespace SpiritMysql.Conn

open AsyncAction Errors Protocol TrxStore

/-! ## The immediate object -/

/-- The name on the server of the savepoint that `rollback()` is called with. -/
def pointName (toPointId : ℕ) : Bool×ℕ :=
  (decide (savepointEnumSessionFrom ≤ toPointId),
    if decide (savepointEnumSessionFrom ≤ toPointId)=true then toPointId-savepointEnumSessionFrom
    else toPointId)

/-- An object whose calls take effect on the server at once. -/
structure Immediate where
  /-- The transaction on the server. -/
  session : Session
  /-- The number of the last savepoint. -/
  savepointEnum : ℕ

/-- What a call does, when it returns (`true`) or throws (`false`). -/
inductive Immediate.Step : Immediate → Call → Bool → Immediate → Prop where
  /-- The transaction that was open is committed, and one starts. -/
  | startTrx (a : Immediate) (options : TrxOptions) :
    Step a (.startTrx options) true ⟨a.session.start (.plain options.readonly),0⟩
  /-- A savepoint is set. -/
  | savepoint (a : Immediate) :
    Step a .savepoint true ⟨a.session.setPoint (false,a.savepointEnum+1),a.savepointEnum+1⟩
  /-- A savepoint of the session is set. -/
  | sessionSavepoint (a : Immediate) (pointId : ℕ) :
    Step a (.sessionSavepoint pointId) true {a with session := a.session.setPoint (true,pointId)}
  /-- In a transaction a live savepoint is returned to, which stays. -/
  | rollbackTo (a : Immediate) (toPointId : ℕ) (s : Session) :
    a.session.back (pointName (toPointId+1))=some s →
      Step a (.rollback (some (toPointId+1))) true {a with session := s}
  /-- The transaction is rolled back. -/
  | rollback (a : Immediate) :
    Step a (.rollback none) true {a with session := a.session.finish false a.session.rollback}
  /-- The transaction is rolled back to its start, and stays open. -/
  | restart (a : Immediate) :
    Step a (.rollback (some 0)) true {a with session := a.session.finish true a.session.rollback}
  /-- The transaction is committed. -/
  | commit (a : Immediate) (andChain : Bool) :
    Step a (.commit andChain) true {a with session := a.session.finish andChain a.session.commit}
  /-- Statements change data. -/
  | query (a : Immediate) (q : {q : Query // q.OfUser}) (returns : Bool)
      (f : List String → List String) :
    Step a (.query q) returns {a with session := a.session.write f}
  /-- The statements that remain change data. -/
  | discard (a : Immediate) (returns : Bool) (f : List String → List String) :
    Step a .discard returns {a with session := a.session.write f}
  /-- A connection is taken. -/
  | connect (a : Immediate) (returns : Bool) : Step a .connect returns a
  /-- A call that throws does nothing. -/
  | refused (a : Immediate) (c : Call) : Step a c false a
  /-- A commit that throws rolls back. -/
  | undone (a : Immediate) (andChain : Bool) :
    Step a (.commit andChain) false {a with session := a.session.finish andChain a.session.rollback}
  /-- So does a start, when the commit before it fails. -/
  | undoneStart (a : Immediate) (options : TrxOptions) :
    Step a (.startTrx options) false {a with session := a.session.finish false a.session.rollback}

/-- Calls one after another. -/
inductive Immediate.Run : Immediate → List (Call×Bool) → Immediate → Prop where
  /-- None. -/
  | nil (a : Immediate) : Run a [] a
  /-- One more. -/
  | cons {a a' a'' : Immediate} {c : Call} {returns : Bool} {calls : List (Call×Bool)} :
    Step a c returns a' → Run a' calls a'' → Run a ((c,returns)::calls) a''

/-! ## The lazy object -/

/-- A call, and whether it returned or threw. -/
def World.call (w : World) (c : Call) : Option (Bool×World) :=
  match c.op w with
  | .done _ w' => some (true,w')
  | .thrown _ w' => some (false,w')
  | .waiting _ => none

/-- The transaction on the server, once the pending commands are executed. -/
def World.meant (data : List String) (w : World) : Session :=
  ((w.session data).execAll (w.conn.pendingTrxSql.filterMap id)).getD (w.session data)

/-- A chained command comes after the start of the transaction was sent. -/
def World.CanChain (w : World) : Prop :=
  w.inTrans=true ∨ ∀ readonly,some (.startTransaction readonly) ∉ w.conn.pendingTrxSql

/-- Calls for ordinary transactions. The session counts its savepoints, results
are discarded before the next command of a transaction is given, and a chained
command comes after the start was sent. -/
def Call.Careful (data : List String) (w : World) : Call → Prop
  | .startTrx options => options.xaId="" ∧ options.xaId1=""
  | .sessionSavepoint pointId => (true,pointId) ∉ (w.meant data).names
  | .rollback (some 0) => w.CanChain
  | .commit true => w.CanChain
  | .discard => w.conn.pendingTrxSql=[]
  | .use _ => False
  | .prepareCommit => False
  | .endConn => False
  | .dispose => False
  | .forceImmediateDisconnect _ => False
  | _ => True

instance (w : World) : Decidable w.CanChain := inferInstanceAs (Decidable (_ ∨ _))

instance (data : List String) (w : World) (c : Call) : Decidable (c.Careful data w) :=
  match c with
  | .connect => isTrue trivial
  | .use _ => isFalse id
  | .query _ => isTrue trivial
  | .discard => inferInstanceAs (Decidable (_=_))
  | .startTrx _ => inferInstanceAs (Decidable (_ ∧ _))
  | .savepoint => isTrue trivial
  | .sessionSavepoint _ => inferInstanceAs (Decidable (_ ∉ _))
  | .prepareCommit => isFalse id
  | .rollback none => isTrue trivial
  | .rollback (some 0) => inferInstanceAs (Decidable w.CanChain)
  | .rollback (some (_+1)) => isTrue trivial
  | .commit true => inferInstanceAs (Decidable w.CanChain)
  | .commit false => isTrue trivial
  | .endConn => isFalse id
  | .dispose => isFalse id
  | .forceImmediateDisconnect _ => isFalse id

/-- Calls one after another, so long as they are careful and no connection is given
up: which of them returned, and the object afterwards. -/
def lazyRun (data : List String) : World → List Call → Option (List (Call×Bool)×World)
  | w,[] => some ([],w)
  | w,c::calls =>
    match w.call c with
    | some r =>
      if c.Careful data w ∧ r.2.givenUp=w.givenUp then
        (lazyRun data r.2 calls).map (fun rest => ((c,r.1)::rest.1,rest.2))
      else none
    | none => none

/-! ## The pending commands -/

/-- The pending commands: the start of a transaction, when one waits, and savepoints. -/
def sqlsOf (start : Option Bool) (names : List (Bool×ℕ)) : List Sql :=
  start.toList.map .startTransaction++names.map (fun name => .savepoint name.1 name.2)

/-- The transaction after the start that waits. -/
def Session.begun (start : Option Bool) (s : Session) : Session :=
  match start with
  | some readonly => s.start (.plain readonly)
  | none => s

section Pending

variable {s t : Session} {start : Option Bool} {names : List (Bool×ℕ)}

/-- The pending commands are commands of ordinary transactions. -/
theorem sqlsOf_pending : ∀ sql ∈ sqlsOf start names,sql.IsTrx ∧ sql.IsPending := by
  intro sql hm
  rcases List.mem_append.mp hm with hm | hm
  · obtain ⟨readonly,_,rfl⟩ := List.mem_map.mp hm
    exact ⟨trivial,trivial⟩
  · obtain ⟨name,_,rfl⟩ := List.mem_map.mp hm
    exact ⟨trivial,trivial⟩

/-- A transaction that starts is an ordinary one. -/
theorem Session.Plain.begun (h : s.Plain) (start : Option Bool) : (s.begun start).Plain := by
  cases start with
  | none => exact h
  | some readonly =>
    intro x ph hk
    cases hk

/-- What the savepoints that wait do. -/
theorem execAll_names (h : s.Plain) (names : List (Bool×ℕ)) :
    s.execAll (names.map (fun name => .savepoint name.1 name.2))=some (s.setPoints names) := by
  induction names generalizing s with
  | nil => rfl
  | cons name names ih =>
    have he := exec_savepoint h name.1 name.2
    rw [List.map_cons,Session.execAll,List.foldlM_cons,he]
    exact ih (h.exec (show (Sql.savepoint name.1 name.2).IsTrx from trivial) he)

/-- What the pending commands do. -/
theorem execAll_sqlsOf (h : s.Plain) :
    s.execAll (sqlsOf start names)=some ((s.begun start).setPoints names) := by
  cases start with
  | none => exact execAll_names h names
  | some readonly =>
    have he := exec_startTransaction h readonly
    rw [sqlsOf,Option.toList_some,List.map_singleton,List.singleton_append,Session.execAll,
      List.foldlM_cons,he]
    exact execAll_names (h.begun (some readonly)) names

/-- A savepoint among the pending commands is one of those that wait. -/
theorem sqlsOf_split {before after : List Sql} {name : Bool×ℕ}
    (h : sqlsOf start names=before++.savepoint name.1 name.2::after) :
    ∃ earlier later,names=earlier++name::later ∧ before=sqlsOf start earlier := by
  have hnames : ∀ {before},names.map (fun name => Sql.savepoint name.1 name.2)=
      before++.savepoint name.1 name.2::after →
      ∃ earlier later,names=earlier++name::later ∧
        before=earlier.map (fun name => Sql.savepoint name.1 name.2) := by
    intro before hb
    obtain ⟨earlier,rest,rfl,rfl,hrest⟩ := List.map_eq_append_iff.mp hb
    obtain ⟨name',later,rfl,hn,_⟩ := List.map_eq_cons_iff.mp hrest
    obtain ⟨h₁,h₂⟩ := Sql.savepoint.inj hn
    exact ⟨earlier,later,by rw [Prod.ext h₁ h₂],rfl⟩
  cases start with
  | none => exact hnames h
  | some readonly =>
    rw [sqlsOf,Option.toList_some,List.map_singleton,List.singleton_append] at h
    cases before with
    | nil => cases h
    | cons sql before =>
      obtain ⟨rfl,hrest⟩ := List.cons.inj h
      obtain ⟨earlier,later,hn,hb⟩ := hnames hrest
      exact ⟨earlier,later,hn,by rw [hb]; rfl⟩

end Pending

/-! ## The two objects -/

/-- The lazy object means what the immediate one has done. -/
structure Agrees (data : List String) (w : World) (a : Immediate) : Prop where
  /-- The object is used for ordinary transactions. -/
  ready : Ready data w
  /-- The savepoints are counted alike. -/
  savepointEnum : w.conn.savepointEnum=a.savepointEnum
  /-- The savepoints have different names. -/
  distinct : a.session.Distinct
  /-- The savepoints were counted. -/
  counted : ∀ pointId,(false,pointId) ∈ a.session.names → pointId ≤ a.savepointEnum
  /-- A start waits only when no transaction is open, and the server lags behind
  by the commands that wait. -/
  lags : ∃ start names,w.conn.pendingTrxSql=(sqlsOf start names).map some ∧
    (start.isSome=true → (w.session data).trx=none) ∧
    Lags ((w.session data).begun start) names a.session

section Objects

variable {data : List String} {w w' : World} {a : Immediate}

/-- The transaction on the server is an ordinary one. -/
theorem Ready.plain (h : Ready data w) : (w.session data).Plain := by
  unfold World.session
  cases hp : w.conn.protocol with
  | none =>
    intro x ph hk
    cases hk
  | some p => exact (h.protocol p hp).plain

/-- The object knows whether a transaction is open on the server. -/
theorem Ready.inTrans (h : Ready data w) : w.inTrans=(w.session data).trx.isSome := by
  unfold World.session World.inTrans
  cases hp : w.conn.protocol with
  | none => rfl
  | some p => exact (h.protocol p hp).status

/-- There is something to commit when a transaction is open on the server. -/
theorem Ready.hasTrx (h : Ready data w) : w.hasTrx=(w.session data).trx.isSome := by
  rw [←h.inTrans,World.hasTrx,h.isXaPrepared,Bool.or_false,World.inTrans]
  cases w.conn.protocol <;> rfl

/-- A transaction is open on a connection. -/
theorem connected_of_open (ht : (w.session data).trx.isSome=true) :
    ∃ p,w.conn.protocol=some p := by
  unfold World.session at ht
  cases hp : w.conn.protocol with
  | none =>
    rw [hp] at ht
    cases ht
  | some p => exact ⟨p,rfl⟩

/-- The transaction that is meant, in terms of the commands that wait. -/
theorem meant_eq (h : Ready data w) {start : Option Bool} {names : List (Bool×ℕ)}
    (hp : w.conn.pendingTrxSql=(sqlsOf start names).map some) :
    w.meant data=((w.session data).begun start).setPoints names := by
  have hf : w.conn.pendingTrxSql.filterMap id=sqlsOf start names := by
    rw [hp,List.filterMap_map]
    exact List.filterMap_some
  rw [World.meant,hf,execAll_sqlsOf h.plain,Option.getD_some]

namespace Agrees

/-- What is meant follows what was done. -/
theorem follows (h : Agrees data w a) : (w.meant data).Follows a.session := by
  obtain ⟨start,names,hp,_,hl⟩ := h.lags
  rw [meant_eq h.ready hp]
  exact hl.now

/-- Nothing waits. -/
theorem settled (hr : Ready data w) (hc : w.conn.savepointEnum=a.savepointEnum)
    (hpend : w.conn.pendingTrxSql=[]) (hf : (w.session data).Follows a.session)
    (hd : a.session.Distinct)
    (hcount : ∀ pointId,(false,pointId) ∈ a.session.names → pointId ≤ a.savepointEnum) :
    Agrees data w a :=
  ⟨hr,hc,hd,hcount,none,[],hpend,fun hn => (by cases hn),Lags.nil hf⟩

/-- A move that leaves the transaction alone. -/
theorem moved (h : Agrees data w a)
    (hm : Moved data w w' w.conn.pendingTrxSql (w.session data)) : Agrees data w' a := by
  obtain ⟨start,names,hp,hs,hl⟩ := h.lags
  refine ⟨hm.ready,hm.savepointEnum.trans h.savepointEnum,h.distinct,h.counted,start,names,
    hm.pending.trans hp,?_,?_⟩ <;> rw [hm.session]
  · exact hs
  · exact hl

/-- The pending commands were executed, and the data changed. -/
theorem wrote (h : Agrees data w a) {s : Session} (hs : s.Follows a.session)
    (f : List String → List String) (hm : Moved data w w' [] (s.write f)) :
    Agrees data w' {a with session := a.session.write f} := by
  have hn : (a.session.write f).names=a.session.names := by
    cases ht : a.session.trx <;> simp [Store.names,Store.write,ht]
  refine settled hm.ready (hm.savepointEnum.trans h.savepointEnum) hm.pending ?_ ?_ ?_
  · rw [hm.session]
    exact hs.write f
  · change (a.session.write f).names.Nodup
    rw [hn]
    exact h.distinct
  · change ∀ pointId,(false,pointId) ∈ (a.session.write f).names → pointId ≤ a.savepointEnum
    rw [hn]
    exact h.counted

/-- The transaction ended, and no savepoint is left. -/
theorem ended (h : Agrees data w a) {s t : Session} (hm : Moved data w w' [] s)
    (hf : s.Follows t) (hn : t.names=[]) : Agrees data w' {a with session := t} := by
  refine settled hm.ready (hm.savepointEnum.trans h.savepointEnum) hm.pending ?_ ?_ ?_
  · rw [hm.session]
    exact hf
  · change t.names.Nodup
    rw [hn]
    exact List.nodup_nil
  · intro pointId hp
    change (false,pointId) ∈ t.names at hp
    rw [hn] at hp
    cases hp

end Agrees

end Objects

/-! ## The calls -/

section Calls

variable {data : List String} {w w' : World} {a : Immediate} {pending : List (Option Sql)}
  {s : Session}

/-- The fields of the transaction are cleared. -/
theorem Moved.clear (h : Moved data w w' pending s) :
    Moved data w {w' with conn := w'.conn.clearTrx} [] s :=
  ⟨⟨h.ready.server,h.ready.answers,h.ready.protocol,h.ready.supply,h.ready.schema,rfl,rfl⟩,rfl,
    h.savepointEnum,h.givenUp,h.connected,h.session⟩

/-- A connection is given up. -/
theorem doEnd_givenUp {p : MyProtocol} (hp : w.conn.protocol=some p) (noResetPending : Bool) :
    (w.doEnd noResetPending none).givenUp.length=w.givenUp.length+1 := by
  simp only [World.doEnd,hp,List.length_append,List.length_cons,List.length_nil]

/-- The commit of `commit()`, and the rollback when it fails. -/
theorem commitOrRollback_moved (h : Ready data w) (ht : (w.session data).trx.isSome=true)
    (andChain : Bool) :
    (∀ error w',commitOrRollback (.commit andChain) (.rollback andChain) w=.done error w' →
      (error=none ∧ Moved data w w' w.conn.pendingTrxSql
        ((w.session data).finish andChain (w.session data).commit)) ∨
      ((∃ e,error=some e) ∧ Moved data w w' w.conn.pendingTrxSql
        ((w.session data).finish andChain (w.session data).rollback))) ∧
    ∀ e w',commitOrRollback (.commit andChain) (.rollback andChain) w=.thrown e w' →
      w'.givenUp≠w.givenUp := by
  obtain ⟨p,hp⟩ := connected_of_open ht
  obtain ⟨hdone,hthrown⟩ := command_trx h hp (show (Sql.commit andChain).IsTrx from trivial)
  have hx : commitOrRollback (.commit andChain) (.rollback andChain) w=
      ((command (.commit andChain) w).andThen (fun _ => (pure none : Op (Option Error)))).orElse
        (fun error => attempt (do
            command (.rollback andChain)
            return some error)
          (fun _ => do
            endConn
            fail serverDisconnected)) := rfl
  rw [hx]
  cases hr : command (.commit andChain) w with
  | waiting u => exact ⟨fun e w' hw => (by cases hw),fun e w' hw => (by cases hw)⟩
  | done r u =>
    obtain ⟨t,he,hm⟩ := hdone u hr
    rw [exec_commit h.plain ht,Option.some_inj] at he
    refine ⟨fun error w' hw => ?_,fun e w' hw => (by cases hw)⟩
    cases hw
    rw [he]
    exact Or.inl ⟨rfl,hm⟩
  | thrown e u =>
    have hm := hthrown e u hr
    obtain ⟨q,hq⟩ := Option.isSome_iff_exists.mp (hm.connected (by rw [hp]; rfl))
    obtain ⟨hback,hfail⟩ := command_trx hm.ready hq
      (show (Sql.rollback andChain).IsTrx from trivial)
    rw [hm.session,hm.pending] at hback hfail
    rw [Outcome.andThen_thrown,Outcome.orElse_thrown,attempt_apply,bind_apply]
    cases hr₂ : command (.rollback andChain) u with
    | waiting v => exact ⟨fun e w' hw => (by cases hw),fun e w' hw => (by cases hw)⟩
    | done r v =>
      obtain ⟨t,he,hm₂⟩ := hback v hr₂
      rw [exec_rollback h.plain ht,Option.some_inj] at he
      refine ⟨fun error w' hw => ?_,fun e w' hw => (by cases hw)⟩
      cases hw
      rw [he]
      exact Or.inr ⟨⟨e,rfl⟩,hm.trans hm₂⟩
    | thrown e₂ v =>
      have hm₂ := hm.trans (hfail e₂ v hr₂)
      obtain ⟨q',hq'⟩ := Option.isSome_iff_exists.mp (hm₂.connected (by rw [hp]; rfl))
      refine ⟨fun error w' hw => (by cases hw),fun e' w' hw hg => ?_⟩
      cases hw
      have hlen := doEnd_givenUp hq' false
      rw [hg,hm₂.givenUp] at hlen
      exact absurd hlen (Nat.ne_of_lt (Nat.lt_succ_self _))

/-- `commit()`, unless the connection is given up. -/
theorem commit_moved (h : Ready data w) (andChain : Bool) :
    (∀ w',commit andChain w=.done () w' → Moved data w w' []
      ((w.session data).finish andChain (w.session data).commit)) ∧
    ∀ e w',commit andChain w=.thrown e w' → w'.givenUp=w.givenUp →
      Moved data w w' w.conn.pendingTrxSql (w.session data) ∨
      Moved data w w' [] ((w.session data).finish andChain (w.session data).rollback) := by
  unfold commit
  rw [bind_apply,get_apply,Outcome.andThen_done,branch_apply]
  split
  · rename_i ht
    rw [h.hasTrx] at ht
    obtain ⟨hdone,hthrown⟩ := commitOrRollback_moved h ht andChain
    rw [branch_apply,if_neg (fun hn => hn h.curXaId),bind_apply]
    have hcall : callOnBeforeCommit w=.thrown (.error "onBeforeCommit") w ∨
        callOnBeforeCommit w=.done () w := by
      unfold callOnBeforeCommit
      split
      · exact Or.inl rfl
      · exact Or.inr rfl
    rcases hcall with hc | hc
    · rw [hc]
      refine ⟨fun w' hw => (by cases hw),fun e w' hw _ => ?_⟩
      cases hw
      exact Or.inl (Moved.refl h)
    · rw [hc,Outcome.andThen_done,bind_apply]
      cases hr : commitOrRollback (.commit andChain) (.rollback andChain) w with
      | waiting u => exact ⟨fun w' hw => (by cases hw),fun e w' hw => (by cases hw)⟩
      | thrown e u =>
        refine ⟨fun w' hw => (by cases hw),fun e' w' hw hg => ?_⟩
        cases hw
        exact absurd hg (hthrown e u hr)
      | done error u =>
        rw [Outcome.andThen_done,bind_apply,clearTrx,modify_apply,Outcome.andThen_done]
        rcases hdone error u hr with ⟨rfl,hm⟩ | ⟨⟨e,rfl⟩,hm⟩
        · refine ⟨fun w' hw => ?_,fun e w' hw => (by cases hw)⟩
          cases hw
          exact hm.clear
        · refine ⟨fun w' hw => (by cases hw),fun e' w' hw _ => ?_⟩
          cases hw
          exact Or.inr hm.clear
  · rename_i ht
    rw [h.hasTrx] at ht
    have hs : (w.session data).finish andChain (w.session data).commit=w.session data := by
      rw [Store.finish,Option.not_isSome_iff_eq_none.mp ht]
    refine ⟨fun w' hw => ?_,fun e w' hw => (by cases hw)⟩
    cases hw
    rw [hs]
    exact (Moved.refl h).clear

/-- `rollback()` of everything, unless the connection is given up. -/
theorem rollbackAll_moved (h : Ready data w) (toStart : Bool) :
    (∀ w',rollbackAll toStart w=.done () w' → Moved data w w' []
      ((w.session data).finish toStart (w.session data).rollback)) ∧
    ∀ e w',rollbackAll toStart w=.thrown e w' → w'.givenUp≠w.givenUp := by
  unfold rollbackAll
  rw [bind_apply,get_apply,Outcome.andThen_done,branch_apply]
  split
  · rename_i ht
    rw [h.hasTrx] at ht
    obtain ⟨p,hp⟩ := connected_of_open ht
    have hc : rollbackCommand w.conn.curXaId w.conn.isXaPrepared toStart=
        command (.rollback toStart) := by
      rw [h.curXaId]
      cases toStart <;> rfl
    obtain ⟨hdone,hthrown⟩ := command_trx h hp (show (Sql.rollback toStart).IsTrx from trivial)
    rw [bind_apply,attempt_apply,hc]
    cases hr : command (.rollback toStart) w with
    | waiting u => exact ⟨fun w' hw => (by cases hw),fun e w' hw => (by cases hw)⟩
    | done r u =>
      obtain ⟨t,he,hm⟩ := hdone u hr
      rw [exec_rollback h.plain ht,Option.some_inj] at he
      refine ⟨fun w' hw => ?_,fun e w' hw => (by cases hw)⟩
      cases hw
      rw [he]
      exact hm.clear
    | thrown e u =>
      have hm := hthrown e u hr
      obtain ⟨q,hq⟩ := Option.isSome_iff_exists.mp (hm.connected (by rw [hp]; rfl))
      have hgive : ∃ e' v,giveUp toStart u=.thrown e' v ∧
          v.givenUp=(u.doEnd false none).givenUp := by
        unfold giveUp
        rw [bind_apply,get_apply,Outcome.andThen_done,bind_apply,endConn,modify_apply,
          Outcome.andThen_done,bind_apply]
        have hnone : (u.doEnd false none).conn.protocol=none := by
          simp only [World.doEnd,hq]
          rfl
        cases toStart with
        | false => exact ⟨_,_,rfl,rfl⟩
        | true =>
          have hstart : ∀ readonly v,v.conn.protocol=none →
              startTrx {readonly := readonly} v=
                .done () {v with conn := v.conn.setTrx {readonly := readonly}} := by
            intro readonly v hv
            have hin : v.inTrans=false := by rw [World.inTrans,hv]; rfl
            unfold startTrx
            rw [bind_apply,get_apply,Outcome.andThen_done,branch_apply,
              if_neg (fun hn => by rw [hin] at hn; cases hn.1),bind_apply,doWhen,
              if_neg (by rw [hin]; simp)]
            rfl
          rw [doWhen,if_pos rfl,hstart _ _ hnone]
          exact ⟨_,_,rfl,rfl⟩
      obtain ⟨e',v,hg,hv⟩ := hgive
      rw [Outcome.orElse_thrown,hg]
      refine ⟨fun w' hw => (by cases hw),fun e'' w' hw hsame => ?_⟩
      cases hw
      have hlen := doEnd_givenUp hq false
      rw [←hv,hsame,hm.givenUp] at hlen
      exact absurd hlen (Nat.ne_of_lt (Nat.lt_succ_self _))
  · rename_i ht
    rw [h.hasTrx] at ht
    have hs : (w.session data).finish toStart (w.session data).rollback=w.session data := by
      rw [Store.finish,Option.not_isSome_iff_eq_none.mp ht]
    refine ⟨fun w' hw => ?_,fun e w' hw => (by cases hw)⟩
    cases hw
    rw [hs]
    exact (Moved.refl h).clear

/-- Both transactions end alike. -/
theorem Agrees.finish (h : Agrees data w a) (andChain : Bool) (hc : andChain=true → w.CanChain) :
    ((w.session data).finish andChain (w.session data).commit).Follows
        (a.session.finish andChain a.session.commit) ∧
      ((w.session data).finish andChain (w.session data).rollback).Follows
        (a.session.finish andChain a.session.rollback) := by
  obtain ⟨start,names,hp,hs,hl⟩ := h.lags
  have hcommit := hl.now.finish andChain hl.now.commit
  have hrollback := hl.now.finish andChain hl.now.rollback
  rw [finish_setPoints,(setPoints_ended _ names).1] at hcommit
  rw [finish_setPoints,(setPoints_ended _ names).2.1] at hrollback
  cases start with
  | none => exact ⟨hcommit,hrollback⟩
  | some readonly =>
    -- the start waits, so nothing is open, and the transaction need not be chained
    have hnone := hs rfl
    have hand : andChain=false := by
      cases hand : andChain with
      | false => rfl
      | true =>
        rcases hc hand with hin | hno
        · rw [h.ready.inTrans,hnone] at hin
          cases hin
        · refine absurd ?_ (hno readonly)
          rw [hp]
          exact List.mem_cons_self
    subst hand
    obtain ⟨hx,hy⟩ := start_ended hnone (Kind.plain readonly)
    have hopen : ∀ ended : Session,
        Store.finish false ((w.session data).begun (some readonly)) ended=ended := fun _ => rfl
    have hclosed : ∀ ended : Session,(w.session data).finish false ended=w.session data := by
      intro ended
      rw [Store.finish,hnone]
    rw [hopen,Session.begun,hx] at hcommit
    rw [hopen,Session.begun,hy] at hrollback
    rw [hclosed,hclosed]
    exact ⟨hcommit,hrollback⟩

/-- `commit()` means the same. -/
theorem Agrees.commit (h : Agrees data w a) {andChain : Bool} (hc : andChain=true → w.CanChain)
    {returns : Bool} (hcall : w.call (.commit andChain)=some (returns,w'))
    (hkept : w'.givenUp=w.givenUp) :
    ∃ a',Immediate.Step a (.commit andChain) returns a' ∧ Agrees data w' a' := by
  obtain ⟨hdone,hthrown⟩ := commit_moved h.ready andChain
  obtain ⟨hcommit,hrollback⟩ := h.finish andChain hc
  have hop : (Call.commit andChain).op=Conn.commit andChain := rfl
  unfold World.call at hcall
  rw [hop] at hcall
  cases hr : Conn.commit andChain w with
  | waiting u =>
    rw [hr] at hcall
    cases hcall
  | done r u =>
    rw [hr] at hcall
    cases hcall
    exact ⟨_,.commit a andChain,h.ended (hdone w' hr) hcommit (names_finish _ _ rfl)⟩
  | thrown e u =>
    rw [hr] at hcall
    cases hcall
    rcases hthrown e w' hr hkept with hm | hm
    · exact ⟨a,.refused a _,h.moved hm⟩
    · exact ⟨_,.undone a andChain,h.ended hm hrollback (names_finish _ _ rfl)⟩

/-- `rollback()` of everything means the same. -/
theorem Agrees.rollbackAll (h : Agrees data w a) (toStart : Bool) (hc : toStart=true → w.CanChain) :
    (∀ u,Conn.rollbackAll toStart w=.done () u → Agrees data u
      {a with session := a.session.finish toStart a.session.rollback}) ∧
    ∀ e u,Conn.rollbackAll toStart w=.thrown e u → u.givenUp≠w.givenUp := by
  obtain ⟨hdone,hthrown⟩ := rollbackAll_moved h.ready toStart
  exact ⟨fun u hr => h.ended (hdone u hr) (h.finish toStart hc).2 (names_finish _ _ rfl),hthrown⟩

/-- `startTrx()` means the same. -/
theorem Agrees.startTrx (h : Agrees data w a) {options : TrxOptions} (hx : options.xaId="")
    (hx1 : options.xaId1="") {returns : Bool}
    (hcall : w.call (.startTrx options)=some (returns,w')) (hkept : w'.givenUp=w.givenUp) :
    ∃ a',Immediate.Step a (.startTrx options) returns a' ∧ Agrees data w' a' := by
  have hf := h.finish false (fun hn => by cases hn)
  -- what starts, once the transaction that was open is committed
  have hstart : ∀ {u : World} {pending : List (Option Sql)},
      Moved data w u pending ((w.session data).finish false (w.session data).commit) →
      Agrees data {u with conn := u.conn.setTrx options}
        ⟨a.session.start (.plain options.readonly),0⟩ := by
    intro u pending hm
    have hset : u.conn.setTrx options={u.conn with
        curXaId := "",curXaIdAppendConn := false,savepointEnum := 0
        pendingTrxSql := [some (.startTransaction options.readonly)]} := by
      unfold MyConn.setTrx
      rw [if_neg (fun hn => hn hx),if_neg (fun hn => hn hx1)]
    have hnone : ((w.session data).finish false (w.session data).commit).trx=none := by
      unfold Store.finish
      cases ht : (w.session data).trx with
      | none => exact ht
      | some t => rfl
    rw [hset]
    refine ⟨⟨hm.ready.server,hm.ready.answers,hm.ready.protocol,hm.ready.supply,hm.ready.schema,rfl,
      hm.ready.isXaPrepared⟩,rfl,List.nodup_nil,fun _ hn => (by cases hn),some options.readonly,
      [],rfl,      fun _ => ?_,Lags.nil ?_⟩
    · exact (congrArg Store.trx hm.session).trans hnone
    · have hs := hf.1.start (Kind.plain options.readonly)
      rw [finish_start a.session] at hs
      change ((u.session data).start (Kind.plain options.readonly)).Follows _
      rw [hm.session]
      exact hs
  have hop : (Call.startTrx options).op=Conn.startTrx options := rfl
  unfold World.call at hcall
  rw [hop] at hcall
  have hvalid : isInvalidXaId (if options.xaId="" then options.xaId1 else options.xaId)=false := by
    rw [if_pos hx,hx1]
    rfl
  unfold Conn.startTrx at hcall
  rw [bind_apply,get_apply,Outcome.andThen_done,branch_apply,
    if_neg (fun hn => hn.2 h.ready.curXaId),bind_apply] at hcall
  by_cases hin : w.inTrans=true
  · obtain ⟨hdone,hthrown⟩ := commit_moved h.ready false
    rw [doWhen,if_pos hin] at hcall
    cases hr : Conn.commit false w with
    | waiting u =>
      rw [hr] at hcall
      cases hcall
    | done r u =>
      rw [hr,Outcome.andThen_done,branch_apply,if_neg (by rw [hvalid]; simp)] at hcall
      cases hcall
      exact ⟨_,.startTrx a options,hstart (hdone u hr)⟩
    | thrown e u =>
      rw [hr] at hcall
      cases hcall
      rcases hthrown e w' hr hkept with hm | hm
      · exact ⟨a,.refused a _,h.moved hm⟩
      · exact ⟨_,.undoneStart a options,h.ended hm hf.2 (names_finish _ _ rfl)⟩
  · rw [doWhen,if_neg hin] at hcall
    rw [pure_apply,Outcome.andThen_done,branch_apply,if_neg (by rw [hvalid]; simp)] at hcall
    cases hcall
    have hclosed : (w.session data).finish false (w.session data).commit=w.session data := by
      rw [h.ready.inTrans] at hin
      rw [Store.finish,Option.not_isSome_iff_eq_none.mp hin]
    have hm := Moved.refl h.ready
    rw [←hclosed] at hm
    exact ⟨_,.startTrx a options,hstart hm⟩

/-- A savepoint that waits means one that is set. -/
theorem Agrees.addPoint (h : Agrees data w a) (name : Bool×ℕ) {n : ℕ}
    (hfresh : name ∉ (w.meant data).names) (hn : a.savepointEnum ≤ n)
    (hname : name.1=false → name.2 ≤ n) :
    Agrees data {w with conn := {w.conn with
        savepointEnum := n
        pendingTrxSql := w.conn.pendingTrxSql++[some (.savepoint name.1 name.2)]}}
      ⟨a.session.setPoint name,n⟩ := by
  obtain ⟨start,names,hp,hs,hl⟩ := h.lags
  rw [meant_eq h.ready hp] at hfresh
  refine ⟨⟨h.ready.server,h.ready.answers,h.ready.protocol,h.ready.supply,h.ready.schema,
    h.ready.curXaId,h.ready.isXaPrepared⟩,rfl,h.distinct.setPoint name,?_,start,names++[name],?_,hs,
    hl.setPoint hfresh⟩
  · intro pointId hm
    cases ht : a.session.trx with
    | none =>
      rw [setPoint_closed ht] at hm
      exact (h.counted pointId hm).trans hn
    | some t =>
      rw [names_setPoint (by rw [ht]; rfl)] at hm
      rcases List.mem_cons.mp hm with he | hm
      · rw [←he] at hname
        exact hname rfl
      · exact (h.counted pointId (List.mem_filter.mp hm).1).trans hn
  · change w.conn.pendingTrxSql++[some (.savepoint name.1 name.2)]=_
    rw [hp]
    simp [sqlsOf]

/-- A query means the same. -/
theorem Agrees.query (h : Agrees data w a) (q : {q : Query // q.OfUser}) {returns : Bool}
    (hcall : w.call (.query q)=some (returns,w')) (hkept : w'.givenUp=w.givenUp) :
    ∃ a',Immediate.Step a (.query q) returns a' ∧ Agrees data w' a' := by
  obtain ⟨start,names,hp,_,hl⟩ := h.lags
  obtain ⟨hdone,hthrown⟩ := doQuery_done (D:=Session.Wrote) (T:=Session.Wrote) (q:=q.1) h.ready hp
    sqlsOf_pending (execAll_sqlsOf h.ready.plain)
    (fun w₁ flag hr _ _ => sent_user hr (sends_user q.2) flag)
  have hop : (Call.query q).op=doQuery q.1 := rfl
  unfold World.call at hcall
  rw [hop] at hcall
  cases hr : doQuery q.1 w with
  | waiting u =>
    rw [hr] at hcall
    cases hcall
  | done r u =>
    rw [hr] at hcall
    cases hcall
    obtain ⟨t,⟨f,rfl⟩,hm⟩ := hdone w' hr hkept
    exact ⟨_,.query a q true f,h.wrote hl.now f hm⟩
  | thrown e u =>
    rw [hr] at hcall
    cases hcall
    rcases hthrown e w' hr hkept with hm | ⟨t,⟨f,rfl⟩,hm⟩
    · exact ⟨a,.refused a _,h.moved hm⟩
    · exact ⟨_,.query a q false f,h.wrote hl.now f hm⟩

/-- `discard()` means the same. -/
theorem Agrees.discard (h : Agrees data w a) (hpend : w.conn.pendingTrxSql=[]) {returns : Bool}
    (hcall : w.call .discard=some (returns,w')) :
    ∃ a',Immediate.Step a .discard returns a' ∧ Agrees data w' a' := by
  obtain ⟨f,hm⟩ := (writesQuery data).discard w h.ready
  have hstate : (Conn.discard w).state=w' := by
    have hop : (Call.discard).op=Conn.discard := rfl
    unfold World.call at hcall
    rw [hop] at hcall
    cases hr : Conn.discard w <;> rw [hr] at hcall <;> cases hcall <;> rfl
  have hs := h.follows
  have hmeant : w.meant data=w.session data := by
    rw [World.meant,hpend]
    rfl
  rw [hmeant] at hs
  rw [hstate,hpend] at hm
  exact ⟨_,.discard a returns f,h.wrote hs f hm⟩

/-- `connect()` means nothing. -/
theorem Agrees.connect (h : Agrees data w a) {returns : Bool}
    (hcall : w.call .connect=some (returns,w')) : Agrees data w' a := by
  obtain ⟨hdone,hthrown⟩ := connect_moved h.ready
  have hop : (Call.connect).op=Conn.connect := rfl
  unfold World.call at hcall
  rw [hop] at hcall
  cases hr : Conn.connect w with
  | waiting u =>
    rw [hr] at hcall
    cases hcall
  | done r u =>
    rw [hr] at hcall
    cases hcall
    exact h.moved (hdone r w' hr).1
  | thrown e u =>
    rw [hr] at hcall
    cases hcall
    exact h.moved (hthrown e w' hr)

/-- A return to a savepoint that waits drops it, and means a return on the server. -/
theorem Agrees.dropPoints (h : Agrees data w a) {name : Bool×ℕ} {before : List (Option Sql)}
    (hb : beforeSavepoint name.1 name.2 w.conn.pendingTrxSql.reverse=some before) :
    ∃ s,a.session.back name=some s ∧
      Agrees data {w with conn := {w.conn with pendingTrxSql := before.reverse}}
        {a with session := s} := by
  obtain ⟨start,names,hp,hs,hl⟩ := h.lags
  obtain ⟨later,hlist,_⟩ := SessionPoints.beforeSavepoint_eq hb
  have hpend : (sqlsOf start names).map some=
      before.reverse++some (Sql.savepoint name.1 name.2)::later.reverse := by
    have hr := congrArg List.reverse hlist
    rw [List.reverse_reverse,List.reverse_append,List.reverse_cons,List.append_assoc,
      List.singleton_append,hp] at hr
    exact hr
  obtain ⟨sqls,rest,hsqls,hbefore,hrest⟩ := List.map_eq_append_iff.mp hpend
  obtain ⟨sql,after,rfl,hsql,_⟩ := List.map_eq_cons_iff.mp hrest
  cases hsql
  obtain ⟨earlier,between,rfl,rfl⟩ := sqlsOf_split hsqls
  obtain ⟨s,hback,hl'⟩ := hl.dropBack h.distinct
  refine ⟨s,hback,⟨h.ready.server,h.ready.answers,h.ready.protocol,h.ready.supply,h.ready.schema,
    h.ready.curXaId,h.ready.isXaPrepared⟩,h.savepointEnum,h.distinct.back hback,?_,start,earlier,
    hbefore.symm,hs,hl'⟩
  exact fun pointId hm => h.counted pointId ((names_back hback).subset hm)

/-- The query that returns to a savepoint on the server. -/
def rollbackQuery (name : Bool×ℕ) : Query :=
  {sql := .text (.rollbackTo name.1 name.2),void := true}

/-- A savepoint that waits is dropped. -/
theorem rollbackTo_waiting {toPointId : ℕ} {before : List (Option Sql)}
    (hb : beforeSavepoint (pointName toPointId).1 (pointName toPointId).2
      w.conn.pendingTrxSql.reverse=some before) :
    Conn.rollbackTo toPointId w=
      .done () {w with conn := {w.conn with pendingTrxSql := before.reverse}} := by
  unfold pointName at hb
  dsimp only at hb
  unfold Conn.rollbackTo
  rw [bind_apply,get_apply,Outcome.andThen_done]
  dsimp only
  rw [hb]
  rfl

/-- Another savepoint is returned to on the server, when a transaction is open there. -/
theorem rollbackTo_sent {toPointId : ℕ}
    (hb : beforeSavepoint (pointName toPointId).1 (pointName toPointId).2
      w.conn.pendingTrxSql.reverse=none) :
    Conn.rollbackTo toPointId w=
      if w.inTrans=true then doQuery (rollbackQuery (pointName toPointId)) w
      else .thrown (.error "No such SAVEPOINT") w := by
  unfold pointName at hb
  dsimp only at hb
  unfold Conn.rollbackTo
  rw [bind_apply,get_apply,Outcome.andThen_done]
  dsimp only
  rw [hb]
  exact branch_apply _ _ _ w

/-- Savepoints leave an ordinary transaction an ordinary one. -/
theorem plain_setPoints {s : Session} (h : s.Plain) (names : List (Bool×ℕ)) :
    Session.Plain (s.setPoints names) := by
  intro x ph hk
  exact h x ph ((setPoints_ended s names).2.2.symm.trans hk)

/-- `rollback()` to a savepoint means the same. -/
theorem Agrees.rollbackTo (h : Agrees data w a) (toPointId : ℕ) {returns : Bool}
    (hcall : w.call (.rollback (some (toPointId+1)))=some (returns,w'))
    (hkept : w'.givenUp=w.givenUp) :
    ∃ a',Immediate.Step a (.rollback (some (toPointId+1))) returns a' ∧ Agrees data w' a' := by
  obtain ⟨start,names,hp,_,hl⟩ := h.lags
  have hop : (Call.rollback (some (toPointId+1))).op=Conn.rollbackTo (toPointId+1) := rfl
  unfold World.call at hcall
  rw [hop] at hcall
  cases hb : beforeSavepoint (pointName (toPointId+1)).1 (pointName (toPointId+1)).2
      w.conn.pendingTrxSql.reverse with
  | some before =>
    obtain ⟨s,hback,hagree⟩ := h.dropPoints hb
    rw [rollbackTo_waiting hb] at hcall
    cases hcall
    exact ⟨_,.rollbackTo a toPointId s hback,hagree⟩
  | none =>
    rw [rollbackTo_sent hb] at hcall
    split_ifs at hcall with hin
    · obtain ⟨hdone,hthrown⟩ := doQuery_done (q:=rollbackQuery (pointName (toPointId+1)))
        (D:=fun s t => s.exec
          (.rollbackTo (pointName (toPointId+1)).1 (pointName (toPointId+1)).2)=some t)
        (T:=fun s t => t=s) h.ready hp sqlsOf_pending (execAll_sqlsOf h.ready.plain)
        (fun w₁ flag hr hc _ => by
          obtain ⟨p,hp₁⟩ := Option.isSome_iff_exists.mp hc
          exact sent_trx hr hp₁ (show (Sql.rollbackTo _ _).IsTrx from trivial) flag)
      cases hr : doQuery (rollbackQuery (pointName (toPointId+1))) w with
      | waiting u =>
        rw [hr] at hcall
        cases hcall
      | done r u =>
        rw [hr] at hcall
        cases hcall
        obtain ⟨t,ht,hm⟩ := hdone w' hr hkept
        rw [exec_rollbackTo (plain_setPoints (h.ready.plain.begun start) names)] at ht
        obtain ⟨s,hs,hf⟩ := hl.now.rollbackTo h.distinct ht
        have hback : a.session.back (pointName (toPointId+1))=some s := by
          cases hopen : a.session.trx with
          | none =>
            rw [Store.rollbackTo,hopen] at hs
            cases hs
          | some u =>
            rw [Store.back,hopen]
            exact hs
        refine ⟨_,.rollbackTo a toPointId s hback,settled hm.ready
          (hm.savepointEnum.trans h.savepointEnum) hm.pending ?_ (h.distinct.back hback) ?_⟩
        · rw [hm.session]
          exact hf
        · exact fun pointId hn => h.counted pointId ((names_back hback).subset hn)
      | thrown e u =>
        rw [hr] at hcall
        cases hcall
        rcases hthrown e w' hr hkept with hm | ⟨t,rfl,hm⟩
        · exact ⟨a,.refused a _,h.moved hm⟩
        · refine ⟨a,.refused a _,settled hm.ready (hm.savepointEnum.trans h.savepointEnum)
            hm.pending ?_ h.distinct h.counted⟩
          rw [hm.session]
          exact hl.now
    · cases hcall
      exact ⟨a,.refused a _,h⟩

/-- A call of the lazy object means one of the immediate object. -/
theorem Agrees.step (h : Agrees data w a) {c : Call} (hc : c.Careful data w) {returns : Bool}
    (hcall : w.call c=some (returns,w')) (hkept : w'.givenUp=w.givenUp) :
    ∃ a',Immediate.Step a c returns a' ∧ Agrees data w' a' := by
  cases c with
  | connect => exact ⟨a,.connect a returns,h.connect hcall⟩
  | use schema => exact hc.elim
  | query q => exact h.query q hcall hkept
  | discard => exact h.discard hc hcall
  | startTrx options => exact h.startTrx hc.1 hc.2 hcall hkept
  | savepoint =>
    cases hcall
    refine ⟨_,.savepoint a,?_⟩
    have hadd := h.addPoint (false,a.savepointEnum+1) (n:=a.savepointEnum+1)
      (fun hm => absurd (h.counted _ (h.follows.names.subset hm)) (by omega)) (Nat.le_succ _)
      (fun _ => le_refl _)
    rw [←h.savepointEnum] at hadd ⊢
    exact hadd
  | sessionSavepoint pointId =>
    cases hcall
    have hadd := h.addPoint (true,pointId) (n:=w.conn.savepointEnum) hc
      (le_of_eq h.savepointEnum.symm) (fun hn => by cases hn)
    refine ⟨⟨a.session.setPoint (true,pointId),w.conn.savepointEnum⟩,?_,hadd⟩
    rw [h.savepointEnum]
    exact .sessionSavepoint a pointId
  | prepareCommit => exact hc.elim
  | rollback toPointId =>
    cases toPointId with
    | none =>
      obtain ⟨hdone,hthrown⟩ := h.rollbackAll false (fun hn => by cases hn)
      have hop : (Call.rollback none).op=Conn.rollbackAll false := rfl
      unfold World.call at hcall
      rw [hop] at hcall
      cases hr : Conn.rollbackAll false w <;> rw [hr] at hcall <;> cases hcall
      · exact ⟨_,.rollback a,hdone w' hr⟩
      · exact absurd hkept (hthrown _ w' hr)
    | some n =>
      cases n with
      | zero =>
        obtain ⟨hdone,hthrown⟩ := h.rollbackAll true (fun _ => hc)
        have hop : (Call.rollback (some 0)).op=Conn.rollbackAll true := rfl
        unfold World.call at hcall
        rw [hop] at hcall
        cases hr : Conn.rollbackAll true w <;> rw [hr] at hcall <;> cases hcall
        · exact ⟨_,.restart a,hdone w' hr⟩
        · exact absurd hkept (hthrown _ w' hr)
      | succ n => exact h.rollbackTo n hcall hkept
  | commit andChain =>
    refine h.commit (fun hand => ?_) hcall hkept
    subst hand
    exact hc
  | endConn => exact hc.elim
  | dispose => exact hc.elim
  | forceImmediateDisconnect force => exact hc.elim

end Calls

/-! ## Runs -/

/-- What `#doQuery()` does before it sends the query. -/
def takeAndFlush (nRetriesRemaining : ℕ) : Op (Option ℕ) := do
  connect
  let w ← get
  flushPending w.conn.pendingTrxSql nRetriesRemaining

section Runs

variable {data : List String} {w w' : World} {a : Immediate}

/-- A query finds the transaction that is meant. -/
theorem Agrees.flushed (h : Agrees data w a) {n : ℕ} {r : Option ℕ}
    (hr : takeAndFlush n w=.done r w') : w'.session data=w.meant data := by
  obtain ⟨u,w₁,hc,hr⟩ := bind_eq_done.mp hr
  obtain ⟨hm,hconn⟩ := (connect_moved h.ready).1 u w₁ hc
  obtain ⟨p,hp⟩ := Option.isSome_iff_exists.mp hconn
  obtain ⟨start,names,hpend,_,_⟩ := h.lags
  have hx : (w.session data).execAll (sqlsOf start names)=some _ := execAll_sqlsOf h.ready.plain
  rw [←hm.session] at hx
  rw [bind_apply,get_apply,Outcome.andThen_done,hm.pending,hpend] at hr
  have hf := ((flush_all hm.ready hp sqlsOf_pending hx n).1 r w' hr).2
  rw [hf.session,meant_eq h.ready hpend,hm.session]

/-- A run of the lazy object means a run of the immediate object. -/
theorem Agrees.run (h : Agrees data w a) {calls : List Call} {outcomes : List (Call×Bool)}
    (hr : lazyRun data w calls=some (outcomes,w')) :
    ∃ a',Immediate.Run a outcomes a' ∧ Agrees data w' a' := by
  induction calls generalizing w a outcomes with
  | nil =>
    cases hr
    exact ⟨a,.nil a,h⟩
  | cons c calls ih =>
    rw [lazyRun] at hr
    cases hcall : w.call c with
    | none =>
      rw [hcall] at hr
      cases hr
    | some r =>
      rw [hcall] at hr
      dsimp only at hr
      split_ifs at hr with hc
      obtain ⟨rest,hrest,he⟩ := Option.map_eq_some_iff.mp hr
      cases he
      obtain ⟨a₁,hstep,h₁⟩ := h.step hc.1 hcall hc.2
      obtain ⟨a',hrun,h'⟩ := ih h₁ hrest
      exact ⟨a',.cons hstep hrun,h'⟩

end Runs

/-- A server that accepts what is possible, and refuses the rest. -/
def orderly : Server where
  judge s sql :=
    if sql.isUser=true then none
    else if s.exec sql=none then some (some ⟨[],1305,[],.NONE⟩) else some none

/-- An object without a connection; the next one is new, and two statements will succeed. -/
def unconnected : World where
  server := orderly
  supply := [.opened {connectionId := 1,session := ⟨[],none⟩} id]
  answers := [.ok false false,.ok false false]

/-- A text of a user. -/
theorem ofUser_text (text : String) : Query.OfUser {sql := .text (.user text),void := true} := by
  intro sql h
  cases h
  rfl

/-- The statement of a user. -/
def statement (text : String) : Call :=
  .query ⟨{sql := .text (.user text),void := true},ofUser_text text⟩

/-- A transaction with two savepoints: the second one is returned to before it is sent. -/
def twoPoints : List Call :=
  [.startTrx {},.savepoint,statement "a",.savepoint,.rollback (some 2),.rollback (some 1),
    statement "b",.rollback (some 2)]

end SpiritMysql.Conn
