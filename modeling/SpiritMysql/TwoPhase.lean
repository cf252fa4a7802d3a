import SpiritMysql.CommitHandler
import SpiritMysql.TrxScopeRun

/-!
# The decision of a commit

The XA transactions of the connections of a session are committed in two phases.
No connection is told to commit before the server of every one of them has
accepted to prepare, and when one of them does not, all are rolled back or given
up. It holds for every answer of the servers and for lost connections.
-/

namespace SpiritMysql.Conn

open AsyncAction Errors Protocol

/-- SQL was answered with success between two states. -/
def AcceptedSince (sql : Sql) (w w' : World) : Prop :=
  ∃ added id hasRows more,w'.log=w.log++added ∧
    Entry.answered id (.query sql) (.ok hasRows more) ∈ added

/-- The log of a connection object is only added to. -/
def LogGrows : World → World → Prop := SendsOnly fun _ => True

variable {w w' w'' : World} {sql : Sql}

/-- What follows a command is in the log after it. -/
theorem Follows.grows (h : Follows w w') : LogGrows w w' := by
  obtain ⟨added,hlog⟩ := h.log
  exact ⟨added,hlog,fun _ _ _ => trivial⟩

/-- What was sent only adds to the log. -/
theorem SendsOnly.grows {P : Command → Prop} (h : SendsOnly P w w') : LogGrows w w' := by
  obtain ⟨added,hlog,_⟩ := h
  exact ⟨added,hlog,fun _ _ _ => trivial⟩

/-- An answer of before stays in the log. -/
theorem AcceptedSince.grows (h : AcceptedSince sql w w') (h' : LogGrows w' w'') :
    AcceptedSince sql w w'' := by
  obtain ⟨a,id,hasRows,more,ha,hm⟩ := h
  obtain ⟨b,hb,_⟩ := h'
  exact ⟨a++b,id,hasRows,more,by rw [hb,ha,List.append_assoc],List.mem_append_left b hm⟩

/-- A later answer is one since the earlier state. -/
theorem LogGrows.accepted (h : LogGrows w w') (h' : AcceptedSince sql w' w'') :
    AcceptedSince sql w w'' := by
  obtain ⟨a,ha,_⟩ := h
  obtain ⟨b,id,hasRows,more,hb,hm⟩ := h'
  exact ⟨a++b,id,hasRows,more,by rw [hb,ha,List.append_assoc],List.mem_append_right a hm⟩

section Accepted

/-- A success is in the log. -/
theorem receive_accepted {a : Answer} (h : receive (.query sql) w=.done a w') (ha : a.error=none) :
    AcceptedSince sql w w' := by
  rcases receive_cases (.query sql) w with hc | hc | ⟨p,b,answers,hp,_,_,hc⟩
  · rw [hc] at h
    cases h
  · rw [hc] at h
    cases h
    cases ha
  · rw [hc] at h
    cases h
    cases a with
    | lost => cases ha
    | refused e => cases ha
    | ok hasRows more => exact ⟨_,p.connectionId,hasRows,more,rfl,List.mem_singleton_self _⟩

/-- The last result of a batch is a success, and none failed before. -/
theorem readLast_accepted {earlier : Option Error} {void : Bool} {last : Attempt}
    (h : readLast (.query sql) earlier void w=.done last w') (hl : last.1=none) :
    AcceptedSince sql w w' := by
  obtain ⟨a,w₁,hr,h⟩ := bind_eq_done.mp h
  cases he : a.error.or earlier with
  | some e =>
    rw [he] at h
    cases h
    cases hl
  | none =>
    rw [he] at h
    have hafter : Follows w₁ w' := done_of_always (Always.ite (Follows.respects.bind
      (Follows.respects.doDiscard trivial) (fun _ => Follows.respects.pure _))
      (Follows.respects.pure _)) h
    exact (receive_accepted hr (Option.or_eq_none_iff.mp he).1).grows hafter.grows

/-- A query without an error was accepted. -/
theorem exchange_accepted {void : Bool} {last : Attempt}
    (h : exchange (.text sql) void w=.done last w') (hl : last.1=none) :
    AcceptedSince sql w w' := by
  have hr := Follows.respects
  obtain ⟨initDb,w₁,h₁,h⟩ := bind_eq_done.mp h
  obtain ⟨_,w₂,h₂,h⟩ := bind_eq_done.mp h
  obtain ⟨_,w₃,h₃,h⟩ := bind_eq_done.mp h
  obtain ⟨early,w₄,h₄,h⟩ := bind_eq_done.mp h
  obtain ⟨attempt,w₅,h₅,h⟩ := bind_eq_done.mp h
  cases h
  have hbefore : Follows w w₄ := Follows.trans _ _ _ (Follows.trans _ _ _
    (done_of_always hr.maybeInitDb h₁) (done_of_always (hr.sendInitDb initDb) h₂))
    (Follows.trans _ _ _ (done_of_always (hr.send _ trivial) h₃)
      (done_of_always (hr.readInitDb initDb) h₄))
  rw [readResults_eq] at h₅
  exact hbefore.grows.accepted (readLast_accepted h₅ (Option.or_eq_none_iff.mp hl).2)

/-- A batch without an error was accepted. -/
theorem exchangeThree_accepted {prequery : Option Sql} {ignorePrequeryError void : Bool}
    {last : Attempt}
    (h : exchangeThree none prequery ignorePrequeryError (.text sql) void w=.done last w')
    (hl : last.1=none) : AcceptedSince sql w w' := by
  have hr := Follows.respects
  obtain ⟨initDb,w₁,h₁,h⟩ := bind_eq_done.mp h
  obtain ⟨_,w₂,h₂,h⟩ := bind_eq_done.mp h
  obtain ⟨_,w₃,h₃,h⟩ := bind_eq_done.mp h
  cases h₃
  obtain ⟨_,w₄,h₄,h⟩ := bind_eq_done.mp h
  obtain ⟨_,w₅,h₅,h⟩ := bind_eq_done.mp h
  obtain ⟨early,w₆,h₆,h⟩ := bind_eq_done.mp h
  obtain ⟨preError,w₇,h₇,h⟩ := bind_eq_done.mp h
  cases h₇
  obtain ⟨preqError,w₈,h₈,h⟩ := bind_eq_done.mp h
  have hsent : Follows w w₅ := Follows.trans _ _ _ (Follows.trans _ _ _
    (done_of_always hr.maybeInitDb h₁) (done_of_always (hr.sendInitDb initDb) h₂))
    (Follows.trans _ _ _ (done_of_always (hr.sendPrequery (fun _ _ => trivial)) h₄)
      (done_of_always (hr.send _ trivial) h₅))
  have hread : Follows w₅ w₈ := Follows.trans _ _ _ (done_of_always (hr.readInitDb initDb) h₆)
    (done_of_always (hr.readPrequery _ (fun _ _ => trivial)) h₈)
  exact hsent.grows.accepted (hread.grows.accepted (readLast_accepted h hl))

/-- A query of the library that succeeds was accepted, at the last attempt. -/
theorem queryLoop_accepted {retryLockWaitTimeout : Bool} {n : ℕ} {r : Option Unit}
    (h : queryLoop true false retryLockWaitTimeout n (.text sql) w=.done r w') :
    AcceptedSince sql w w' := by
  have hr := Follows.respects
  induction n generalizing w with
  | zero =>
    obtain ⟨last,w₁,h₁,h⟩ := bind_eq_done.mp h
    have hafter : Follows w₁ w' := done_of_always (hr.conclude (Or.inl rfl) last false) h
    exact (exchange_accepted h₁ (conclude_ok h).1).grows hafter.grows
  | succ n ih =>
    obtain ⟨last,w₁,h₁,h⟩ := bind_eq_done.mp h
    rw [branch_apply] at h
    split at h
    · have hfirst : Follows w w₁ :=
        done_of_always (hr.exchange (Respects.sends_text trivial) true) h₁
      exact hfirst.grows.accepted (ih h)
    · have hafter : Follows w₁ w' := done_of_always (hr.conclude (Or.inl rfl) last false) h
      exact (exchange_accepted h₁ (conclude_ok h).1).grows hafter.grows

/-- A batch of the library that succeeds was accepted, at the last attempt. -/
theorem threeLoop_accepted {ignorePrequeryError retryLockWaitTimeout : Bool} {n : ℕ}
    {prequery : Option Sql} {r : Option Unit}
    (h : threeLoop ignorePrequeryError true false retryLockWaitTimeout n none prequery
      (.text sql) w=.done r w') : AcceptedSince sql w w' := by
  have hr := Follows.respects
  induction n generalizing w prequery with
  | zero =>
    obtain ⟨last,w₁,h₁,h⟩ := bind_eq_done.mp h
    have hafter : Follows w₁ w' := done_of_always (hr.conclude (Or.inl rfl) last false) h
    exact (exchangeThree_accepted h₁ (conclude_ok h).1).grows hafter.grows
  | succ n ih =>
    obtain ⟨last,w₁,h₁,h⟩ := bind_eq_done.mp h
    rw [branch_apply] at h
    split at h
    · have hfirst : Follows w w₁ := done_of_always (hr.exchangeThree (fun _ hn => absurd hn
        (Option.some_ne_none _).symm) (fun _ _ => trivial) (Respects.sends_text trivial) _ true) h₁
      exact hfirst.grows.accepted (ih h)
    · have hafter : Follows w₁ w' := done_of_always (hr.conclude (Or.inl rfl) last false) h
      exact (exchangeThree_accepted h₁ (conclude_ok h).1).grows hafter.grows

/-- A command of the library that resolves was accepted. -/
theorem command_accepted (h : command sql w=.done () w') : AcceptedSince sql w w' := by
  obtain ⟨_,_,hg,h⟩ := bind_eq_done.mp h
  cases hg
  obtain ⟨_,w₁,h,hpure⟩ := bind_eq_done.mp h
  cases hpure
  obtain ⟨isFromPool,w₂,hq,h⟩ := bind_eq_done.mp h
  rw [Bool.and_false] at h
  exact (done_of_always Follows.respects.setQueryingState hq).grows.accepted (queryLoop_accepted h)

/-- The second of two commands of the library that resolve was accepted. -/
theorem twoCommands_accepted {prequery : Sql} {ignorePrequeryError : Bool}
    (h : twoCommands prequery ignorePrequeryError sql w=.done () w') : AcceptedSince sql w w' := by
  obtain ⟨_,_,hg,h⟩ := bind_eq_done.mp h
  cases hg
  obtain ⟨_,w₁,h,hpure⟩ := bind_eq_done.mp h
  cases hpure
  obtain ⟨isFromPool,w₂,hq,h⟩ := bind_eq_done.mp h
  rw [Bool.and_false] at h
  exact (done_of_always Follows.respects.setQueryingState hq).grows.accepted (threeLoop_accepted h)

end Accepted

end SpiritMysql.Conn

namespace SpiritMysql.TrxSession

open AsyncAction Errors Conn

/-! ## What is said about one connection -/

/-- `XA COMMIT`. -/
def isXaCommit : Command → Bool
  | .query (.xaCommit _) => true
  | _ => false

/-- No `XA COMMIT` is sent on the way to a later state of a connection. -/
def Undecided : World → World → Prop := SendsOnly fun c => isXaCommit c=false

/-- What the first phase of a commit does to a connection that votes for it. -/
structure Voted (w w' : World) : Prop where
  /-- Nothing is decided yet. -/
  undecided : Undecided w w'
  /-- The same transaction. -/
  curXaId : w'.conn.curXaId=w.conn.curXaId
  /-- A transaction that was prepared before. -/
  kept : w.conn.isXaPrepared=true → w'=w
  /-- A transaction that was not prepared. -/
  prepared : IsUnprepared w → AcceptedSince (.xaPrepare w.conn.curXaId) w w' ∧
    w'.conn.isXaPrepared=true ∧ w'.hasTrx=true

/-- What the second phase sends: `XA COMMIT` only for the transaction of the connection, and
only when it was prepared. -/
def Decides (w w' : World) : Prop :=
  SendsOnly (fun c => ∀ xaId,c=.query (.xaCommit xaId) →
    xaId=w.conn.curXaId ∧ w.conn.isXaPrepared=true) w w'

/-- The connection takes part in a distributed transaction. -/
def TakesPart (w : World) : Prop := w.conn.curXaId≠"" ∧ w.hasTrx=true

/-- What the second phase does to a connection when it succeeds. -/
structure Committed (w w' : World) : Prop where
  /-- What is sent. -/
  decides : Decides w w'
  /-- The server accepted the commit. -/
  accepted : TakesPart w → AcceptedSince (.xaCommit w.conn.curXaId) w w'
  /-- There is no transaction any more. -/
  cleared : w'.conn.curXaId=""

/-! ## Operations on all connections -/

section Settle

variable {op : ℕ → HookedOp Unit} {R S T : World → World → Prop}

/-- Two relations that follow each other, for each connection. -/
theorem forall₂_trans (h : ∀ a b c,R a b → S b c → T a c) {as bs cs : List World}
    (hr : List.Forall₂ R as bs) (hs : List.Forall₂ S bs cs) : List.Forall₂ T as cs := by
  induction hr generalizing cs with
  | nil =>
    cases hs
    exact .nil
  | cons hab _ ih =>
    cases hs with
    | cons hbc hs => exact .cons (h _ _ _ hab hbc) (ih hs)

/-- What an operation that ends does with each connection. -/
theorem settleAll_settled {handler : Option Handler}
    (hr : ∀ i s,waits (op i s)=false → R s.world (op i s).state.world) {i : ℕ} {conns : List World}
    {calls : List HandlerCall} (h : (settleAll op handler i conns calls).isWaiting=false) :
    List.Forall₂ R conns (settleAll op handler i conns calls).conns := by
  induction conns generalizing i calls with
  | nil => exact .nil
  | cons w conns ih =>
    obtain ⟨hw,hrest⟩ := Bool.or_eq_false_iff.mp h
    exact .cons (hr i ⟨w,handler,calls⟩ hw) (ih hrest)

/-- How an operation on all connections fails. -/
theorem doAll_eq_thrown {s t : Session} {e : Error} (h : doAll op s=.thrown e t) :
    (s.settle op).isWaiting=false ∧ t=s.after (s.settle op) := by
  unfold doAll at h
  dsimp only at h
  split at h
  · cases h
  · rename_i hw
    split at h
    · cases h
      exact ⟨Bool.eq_false_iff.mpr hw,rfl⟩
    · cases h

/-- What an operation on all connections does with each of them. -/
theorem doAll_conns (hr : ∀ i s,R s.world (op i s).state.world) (s : Session) :
    List.Forall₂ R s.conns (doAll op s).state.conns := by
  rw [doAll_state]
  exact settleAll_conns op s.onBeforeCommit hr 0 s.conns s.calls

end Settle

/-- An operation on the connection alone, as seen from its state. -/
theorem onWorld_state {α : Type} (x : Op α) (s : Hooked) :
    (onWorld x s).state.world=(x s.world).state := by
  unfold onWorld
  rw [onPart_apply]
  cases x s.world <;> rfl

/-- The call of the handler leaves the connection alone. -/
theorem callHandler_conn (self : ℕ) (s : Hooked) : (callHandler self s).state.world=s.world := by
  unfold callHandler
  split
  · rfl
  · dsimp only
    split <;> rfl

/-! ## The first phase -/

/-- The part of `prepareCommit()` after the handler. -/
def prepareSql (xaId : String) : Op Unit := do
  twoCommands (.xaEnd xaId) false (.xaPrepare xaId)
  modify fun w => {w with conn := {w.conn with isXaPrepared := true}}

/-- The first phase on a connection with an unprepared transaction. -/
theorem prepareXa_unprepared {s : Hooked} (h : IsUnprepared s.world) (i : ℕ) :
    prepareXa i s=(callHandler i >>= fun _ => onWorld (prepareSql s.world.conn.curXaId)) s := by
  have hid : s.world.conn.curXaId≠"" := h.2.1
  have hu : s.world.inTrans=true ∧ s.world.conn.curXaId≠"" ∧ s.world.conn.isXaPrepared=false := h
  unfold prepareXa prepareCommit
  simp only [bind_apply,get_apply,Outcome.andThen_done,doWhen,branch_apply,if_pos hid,if_pos hu]
  rfl

/-- Preparing decides nothing. -/
theorem prepareSql_undecided (xaId : String) : Always Undecided (prepareSql xaId) := by
  have hr : Respects Undecided (fun c => isXaCommit c=false) (fun _ => True) :=
    SendsOnly.respects fun _ => rfl
  exact hr.bind (hr.twoCommands rfl rfl false) (fun _ w => SendsOnly.of_log rfl)

/-- Nothing is decided in the first phase. -/
theorem prepareXa_undecided (i : ℕ) (s : Hooked) :
    Undecided s.world (prepareXa i s).state.world := by
  by_cases h : IsUnprepared s.world
  · rw [prepareXa_unprepared h]
    have hc := callHandler_conn i s
    rw [bind_apply]
    cases hx : callHandler i s with
    | done a t =>
      rw [hx] at hc
      have hw : t.world=s.world := hc
      rw [Outcome.andThen_done,onWorld_state,hw]
      exact prepareSql_undecided s.world.conn.curXaId s.world
    | thrown e t =>
      rw [hx] at hc
      exact SendsOnly.of_log (congrArg World.log hc)
    | waiting t =>
      rw [hx] at hc
      exact SendsOnly.of_log (congrArg World.log hc)
  · have hidle := prepare_idle h i s.onBeforeCommit s.calls
    rw [show prepareXa i s=.done () s from hidle]
    exact SendsOnly.refl s.world

/-- What is known after the commands of the first phase. -/
theorem prepareSql_done {xaId : String} {w w' : World} (hopen : w.conn.protocol.isSome=true)
    (h : prepareSql xaId w=.done () w') : AcceptedSince (.xaPrepare xaId) w w' ∧
      w'.conn.curXaId=w.conn.curXaId ∧ w'.conn.isXaPrepared=true ∧ w'.hasTrx=true := by
  obtain ⟨_,w₁,htwo,hm⟩ := bind_eq_done.mp h
  cases hm
  have hid : w₁.conn.curXaId=w.conn.curXaId :=
    done_of_always (respects_curXaId.twoCommands trivial trivial false) htwo
  have hconn : w₁.conn.protocol.isSome=true :=
    (done_of_always (Follows.respects.twoCommands trivial trivial false) htwo).connected hopen
  refine ⟨?_,hid,rfl,by simp [World.hasTrx,hconn]⟩
  exact (twoCommands_accepted htwo).grows ⟨[],by simp,fun _ _ _ => trivial⟩

/-- A connection on which the first phase succeeds votes for the commit. -/
theorem prepareXa_voted {i : ℕ} {s t : Hooked} (h : prepareXa i s=.done () t) :
    Voted s.world t.world := by
  have hun : Undecided s.world t.world := by
    have hu := prepareXa_undecided i s
    rwa [h] at hu
  by_cases hu : IsUnprepared s.world
  · rw [prepareXa_unprepared hu] at h
    obtain ⟨_,s₁,hc,h⟩ := bind_eq_done.mp h
    have hw : s₁.world=s.world := by
      have hc' := callHandler_conn i s
      rwa [hc] at hc'
    have hx := onWorld_done h
    rw [hw] at hx
    have hopen : s.world.conn.protocol.isSome=true := by
      have ht := hasTrx_of_inTrans hu.1
      unfold World.hasTrx at ht
      exact (Bool.and_eq_true_iff.mp ht).1
    obtain ⟨hacc,hid,hprep,htrx⟩ := prepareSql_done hopen hx
    refine ⟨hun,hid,fun hpr => ?_,fun _ => ⟨hacc,hprep,htrx⟩⟩
    exact absurd hpr (by rw [hu.2.2]; exact Bool.false_ne_true)
  · have hidle := prepare_idle hu i s.onBeforeCommit s.calls
    have he : Outcome.done () t=(Outcome.done () s : Outcome Error Hooked Unit) :=
      h.symm.trans hidle
    cases he
    exact ⟨hun,rfl,fun _ => rfl,fun h => absurd h hu⟩

/-! ## The second phase -/

/-- What is sent for a commit, and for the rollback when it fails. -/
theorem commitOrRollback_sends {P : Command → Prop} (hinit : ∀ schema,P (.initDb schema))
    {sql back : Sql} (hs : P (.query sql)) (hb : P (.query back)) :
    Always (SendsOnly P) (commitOrRollback sql back) := by
  have hr : Respects (SendsOnly P) P (fun _ => True) := SendsOnly.respects hinit
  refine hr.attempt (hr.bind (hr.command hs) (fun _ => hr.pure none)) (fun e => ?_)
  refine hr.attempt (hr.bind (hr.command hb) (fun _ => hr.pure (some e))) (fun e' w => ?_)
  exact SendsOnly.of_log (NothingCommitted.doEnd w false none)

/-- What is sent for the commit of a distributed transaction. -/
theorem commitXa_sends {P : Command → Prop} (hinit : ∀ schema,P (.initDb schema)) {xaId : String}
    (hc : P (.query (.xaCommit xaId))) (hb : P (.query (.xaRollback xaId))) (andChain : Bool) :
    Always (SendsOnly P) (commitXa xaId andChain) := by
  refine Always.bind SendsOnly.trans (commitOrRollback_sends hinit hc hb) (fun error => ?_)
  refine Always.bind SendsOnly.trans (fun w => SendsOnly.of_log rfl) (fun _ => ?_)
  cases error.or (if andChain=true then some (sqlError "Cannot chain XA") else none) with
  | none => exact Always.pure SendsOnly.refl ()
  | some e => exact Always.fail SendsOnly.refl e

/-- What is sent for the commit of a regular transaction. -/
theorem commitPlain_sends {P : Command → Prop} (hinit : ∀ schema,P (.initDb schema))
    {andChain : Bool} (hc : P (.query (.commit andChain))) (hb : P (.query (.rollback andChain))) :
    Always (SendsOnly P) (commitPlain andChain) := by
  refine Always.bind SendsOnly.trans (commitOrRollback_sends hinit hc hb) (fun error => ?_)
  refine Always.bind SendsOnly.trans (fun w => SendsOnly.of_log rfl) (fun _ => ?_)
  cases error with
  | none => exact Always.pure SendsOnly.refl ()
  | some e => exact Always.fail SendsOnly.refl e

/-- The commit of a regular transaction decides nothing about a distributed one. -/
theorem plain_undecided (i : ℕ) (s : Hooked) :
    Undecided s.world ((callHandler i >>= fun _ => onWorld (commitPlain false)) s).state.world := by
  have hc := callHandler_conn i s
  rw [bind_apply]
  cases hx : callHandler i s with
  | done a t =>
    rw [hx] at hc
    have hw : t.world=s.world := hc
    rw [Outcome.andThen_done,onWorld_state,hw]
    exact commitPlain_sends (P := fun c => isXaCommit c=false) (fun _ => rfl) rfl rfl s.world
  | thrown e t =>
    rw [hx] at hc
    exact SendsOnly.of_log (congrArg World.log hc)
  | waiting t =>
    rw [hx] at hc
    exact SendsOnly.of_log (congrArg World.log hc)

/-- Fewer kinds of commands are sent. -/
theorem sendsOnly_mono {P Q : Command → Prop} (h : ∀ c,P c → Q c) {w w' : World}
    (hs : SendsOnly P w w') : SendsOnly Q w w' := by
  obtain ⟨added,hlog,hp⟩ := hs
  exact ⟨added,hlog,fun id c hm => h c (hp id c hm)⟩

/-- What is no `XA COMMIT` is allowed. -/
theorem allowed_of_undecided (w : World) {c : Command} (h : isXaCommit c=false) (xaId : String)
    (hc : c=.query (.xaCommit xaId)) : xaId=w.conn.curXaId ∧ w.conn.isXaPrepared=true := by
  rw [hc] at h
  exact absurd h Bool.false_ne_true.symm

/-- A way without a decision. -/
theorem Undecided.decides {w w' : World} (h : Undecided w w') : Decides w w' :=
  sendsOnly_mono (fun _ hc xaId => allowed_of_undecided w hc xaId) h

/-- What the second phase sends on a connection. -/
theorem commit_decides (i : ℕ) (s : Hooked) : Decides s.world (commit i false s).state.world := by
  unfold commit
  simp only [bind_apply,get_apply,Outcome.andThen_done,branch_apply]
  split
  · split
    · split
      · exact SendsOnly.refl s.world
      · rename_i hp
        rw [onWorld_state]
        have hprep : s.world.conn.isXaPrepared=true := Bool.not_eq_false _ ▸ hp
        refine commitXa_sends (fun _ _ h => by cases h) (fun xaId h => ?_) (fun _ h => by cases h)
          false s.world
        cases h
        exact ⟨rfl,hprep⟩
    · exact (plain_undecided i s).decides
  · exact SendsOnly.of_log rfl

/-- A commit of a distributed transaction that resolves was accepted. -/
theorem commitXa_accepted {xaId : String} {w w' : World} (h : commitXa xaId false w=.done () w') :
    AcceptedSince (.xaCommit xaId) w w' ∧ w'.conn.curXaId="" := by
  obtain ⟨error,w₁,ho,h⟩ := bind_eq_done.mp h
  obtain ⟨_,w₂,hclear,h⟩ := bind_eq_done.mp h
  cases hclear
  cases error with
  | some e => cases h
  | none =>
    cases h
    unfold commitOrRollback at ho
    rw [attempt_apply] at ho
    rcases Outcome.orElse_eq_done.mp ho with ho | ⟨e,v,_,ho⟩
    · obtain ⟨_,w₂,hc,ho⟩ := bind_eq_done.mp ho
      cases ho
      exact ⟨(command_accepted hc).grows ⟨[],by simp,fun _ _ _ => trivial⟩,rfl⟩
    · rw [attempt_apply] at ho
      rcases Outcome.orElse_eq_done.mp ho with ho | ⟨e',v',_,ho⟩
      · obtain ⟨_,_,_,ho⟩ := bind_eq_done.mp ho
        cases ho
      · obtain ⟨_,_,_,ho⟩ := bind_eq_done.mp ho
        cases ho

/-- A commit of a regular transaction leaves no transaction. -/
theorem commitPlain_cleared {w w' : World} (h : commitPlain false w=.done () w') :
    w'.conn.curXaId="" := by
  obtain ⟨error,w₁,_,h⟩ := bind_eq_done.mp h
  obtain ⟨_,w₂,hclear,h⟩ := bind_eq_done.mp h
  cases hclear
  cases error with
  | some e => cases h
  | none =>
    cases h
    rfl

/-- A connection on which the second phase succeeds. -/
theorem commit_committed {i : ℕ} {s t : Hooked} (h : commit i false s=.done () t) :
    Committed s.world t.world := by
  have hd : Decides s.world t.world := by
    have hd := commit_decides i s
    rwa [h] at hd
  unfold commit at h
  simp only [bind_apply,get_apply,Outcome.andThen_done,branch_apply] at h
  split at h
  · split at h
    · split at h
      · cases h
      · obtain ⟨hacc,hcl⟩ := commitXa_accepted (onWorld_done h)
        exact ⟨hd,fun _ => hacc,hcl⟩
    · rename_i hid
      obtain ⟨_,s₁,_,h⟩ := Outcome.andThen_eq_done.mp h
      exact ⟨hd,fun hp => absurd hp.1 hid,commitPlain_cleared (onWorld_done h)⟩
  · rename_i ht
    have hw := onWorld_done h
    refine ⟨hd,fun hp => absurd hp.2 ht,?_⟩
    cases hu : clearTrx s.world with
    | done a w =>
      have hcl : w.conn.curXaId="" := by
        cases hu
        rfl
      rw [hu] at hw
      cases hw
      exact hcl
    | thrown e w => cases hu
    | waiting w => cases hu

/-- Where nothing is committed nothing is decided. -/
theorem NothingCommitted.undecided {w w' : World} (h : NothingCommitted w w') : Undecided w w' := by
  refine sendsOnly_mono (fun c hc => ?_) h
  cases c with
  | query sql => cases sql <;> first | rfl | cases hc
  | _ => rfl

/-! ## The next transaction -/

/-- A connection without a distributed transaction decides nothing, and gets none. -/
def StaysPlain (w w' : World) : Prop :=
  w.conn.curXaId="" → Undecided w w' ∧ w'.conn.curXaId=""

namespace StaysPlain

theorem refl (w : World) : StaysPlain w w := fun h => ⟨SendsOnly.refl w,h⟩

theorem trans (w w' w'' : World) (h : StaysPlain w w') (h' : StaysPlain w' w'') :
    StaysPlain w w'' := by
  intro hw
  obtain ⟨hu,hw'⟩ := h hw
  obtain ⟨hu',hw''⟩ := h' hw'
  exact ⟨SendsOnly.trans w w' w'' hu hu',hw''⟩

/-- The commands keep both. -/
theorem of_always {α : Type} {x : Op α} (hu : Always Undecided x)
    (hk : Always (fun w w' => w'.conn.curXaId=w.conn.curXaId) x) : Always StaysPlain x :=
  fun w hw => ⟨hu w,(hk w).trans hw⟩

/-- One command of the library. -/
theorem command {sql : Sql} (h : isXaCommit (.query sql)=false) :
    Always StaysPlain (Conn.command sql) :=
  of_always (Respects.command (SendsOnly.respects (P := fun c => isXaCommit c=false)
    fun _ => rfl) h) (respects_curXaId.command trivial)

/-- Giving the connection up. -/
theorem endConn : Always StaysPlain Conn.endConn := by
  intro w hw
  refine ⟨SendsOnly.of_log (NothingCommitted.doEnd w false none),?_⟩
  have hreset : (w.conn.reset false).curXaId="" := by simp [MyConn.reset]
  simp only [Conn.endConn,modify_apply,Outcome.state,World.doEnd]
  split <;> exact hreset

/-- The fields of the transaction are cleared. -/
theorem clearTrx : Always StaysPlain Conn.clearTrx := fun _ _ => ⟨SendsOnly.of_log rfl,rfl⟩

/-- Reading the state. -/
theorem get : Always StaysPlain (AsyncAction.get : Op World) := Always.get refl

/-- The commit of a regular transaction. -/
theorem commitPlain : Always StaysPlain (TrxSession.commitPlain false) := by
  refine Always.bind trans ?_ (fun error => Always.bind trans clearTrx (fun _ => ?_))
  · refine Always.attempt trans (Always.bind trans (command rfl) (fun _ => Always.pure refl none))
      (fun e => ?_)
    have hback : Always StaysPlain (do
        Conn.command (.rollback false)
        return some e) := Always.bind trans (command rfl) (fun _ => Always.pure refl (some e))
    exact Always.attempt trans hback
      (fun _ => Always.bind trans endConn (fun _ => Always.fail refl serverDisconnected))
  · cases error with
    | none => exact Always.pure refl ()
    | some e => exact Always.fail refl e

/-- `commit()` of a connection. -/
theorem commit (i : ℕ) (s : Hooked) : StaysPlain s.world (commit i false s).state.world := by
  intro hid
  unfold TrxSession.commit
  simp only [bind_apply,get_apply,Outcome.andThen_done,branch_apply,hid,ne_eq,not_true_eq_false,
    if_false]
  split
  · have hc := callHandler_conn i s
    cases hx : callHandler i s with
    | done a t =>
      rw [hx] at hc
      have hw : t.world=s.world := hc
      rw [Outcome.andThen_done,onWorld_state,hw]
      exact commitPlain s.world hid
    | thrown e t =>
      rw [hx] at hc
      exact ⟨SendsOnly.of_log (congrArg World.log hc),(congrArg (·.conn.curXaId) hc).trans hid⟩
    | waiting t =>
      rw [hx] at hc
      exact ⟨SendsOnly.of_log (congrArg World.log hc),(congrArg (·.conn.curXaId) hc).trans hid⟩
  · rw [onWorld_state]
    exact clearTrx s.world hid

/-- The first phase does nothing. -/
theorem prepareXa (i : ℕ) (s : Hooked) : StaysPlain s.world (prepareXa i s).state.world := by
  intro hid
  have hn : ¬IsUnprepared s.world := fun h => h.2.1 hid
  have hidle : TrxSession.prepareXa i s=.done () s := prepare_idle hn i s.onBeforeCommit s.calls
  rw [hidle]
  exact ⟨SendsOnly.refl s.world,hid⟩

/-- `rollback()` of a connection. -/
theorem rollback : Always StaysPlain (Conn.rollback none) := by
  intro w hid
  have hu : Undecided w (Conn.rollback none w).state :=
    (NothingCommitted.rollbackAll false w).undecided
  refine ⟨hu,?_⟩
  change (Conn.rollbackAll false w).state.conn.curXaId=""
  unfold Conn.rollbackAll
  rw [bind_apply,get_apply,Outcome.andThen_done,branch_apply]
  split
  · have hcmd : rollbackCommand w.conn.curXaId w.conn.isXaPrepared false=
        Conn.command (.rollback false) := by
      unfold rollbackCommand
      rw [if_neg Bool.false_ne_true,if_pos hid]
    rw [hcmd]
    have hg : Always StaysPlain (giveUp false) := by
      refine Always.bind trans get (fun _ => Always.bind trans endConn (fun _ => ?_))
      exact Always.bind trans (Always.pure refl ()) (fun _ => Always.fail refl serverDisconnected)
    exact (Always.bind trans (Always.attempt trans (command rfl) (fun _ => hg))
      (fun _ => clearTrx) w hid).2
  · rfl

end StaysPlain

/-! ## The session -/

/-- What happens to each connection of a session. -/
def Each (R : World → World → Prop) (s t : Session) : Prop := List.Forall₂ R s.conns t.conns

section Each

variable {R : World → World → Prop}

/-- Nothing happens to the connections. -/
theorem Each.refl (hr : ∀ w,R w w) (s : Session) : Each R s s :=
  List.forall₂_same.mpr fun w _ => hr w

/-- One thing happens after another. -/
theorem Each.trans (ht : ∀ w w' w'',R w w' → R w' w'' → R w w'') (s t u : Session)
    (h : Each R s t) (h' : Each R t u) : Each R s u := forall₂_trans ht h h'

/-- An operation on all connections. -/
theorem each_doAll {op : ℕ → HookedOp Unit} (h : ∀ i s,R s.world (op i s).state.world) :
    Always (Each R) (doAll op) := doAll_conns h

/-- The handler of the session leaves the connections alone. -/
theorem callSessionHandler_conns (s : Session) : (callSessionHandler s).state.conns=s.conns := by
  unfold callSessionHandler
  split
  · rfl
  · dsimp only
    split <;> rfl

/-- The handler of the session. -/
theorem each_callSessionHandler (hr : ∀ w,R w w) : Always (Each R) callSessionHandler := by
  intro s
  unfold Each
  rw [callSessionHandler_conns]
  exact Each.refl hr s

/-- An operation with its rollback. -/
theorem each_rollbackOnError (hr : ∀ w,R w w) (ht : ∀ w w' w'',R w w' → R w' w'' → R w w'')
    {back x : SessionOp Unit} (hb : Always (Each R) back) (hx : Always (Each R) x) :
    Always (Each R) (rollbackOnError back x) := by
  have hs := Each.trans ht
  refine Always.attempt hs hx (fun e => Always.bind hs ?_ (fun _ => Always.fail (Each.refl hr) e))
  exact Always.attempt hs hb (fun _ => Always.pure (Each.refl hr) ())

end Each

/-- The rollback of all connections, where none has a distributed transaction. -/
theorem rollbackAll_plain : Always (Each StaysPlain) rollbackAll := by
  have hr := Each.refl StaysPlain.refl
  refine Always.bind (Each.trans StaysPlain.trans) (fun s => hr s) (fun _ => ?_)
  refine each_doAll (fun _ s => ?_)
  rw [onWorld_state]
  exact StaysPlain.rollback s.world

/-- The commit of all connections, where none has a distributed transaction. -/
theorem commitAll_plain : Always (Each StaysPlain) commitAll := by
  have ht := Each.trans StaysPlain.trans
  have hr := Each.refl StaysPlain.refl
  refine Always.bind ht (fun s => hr s) (fun _ => Always.bind ht (Always.get hr) (fun s => ?_))
  refine Always.doWhen hr (Always.bind ht ?_ (fun _ => Always.bind ht ?_ (fun _ => ?_)))
  · exact each_rollbackOnError StaysPlain.refl StaysPlain.trans rollbackAll_plain
      (each_callSessionHandler StaysPlain.refl)
  · exact each_rollbackOnError StaysPlain.refl StaysPlain.trans rollbackAll_plain
      (each_doAll StaysPlain.prepareXa)
  · exact each_doAll StaysPlain.commit

/-- `startTrx()` of a connection without a distributed transaction. -/
theorem startTrx_undecided (i : ℕ) (options : TrxOptions) (s : Hooked)
    (hid : s.world.conn.curXaId="") : Undecided s.world (startTrx i options s).state.world := by
  unfold startTrx
  simp only [bind_apply,get_apply,Outcome.andThen_done,branch_apply,hid,ne_eq,not_true_eq_false,
    and_false,if_false]
  have hc : Undecided s.world (doWhen (s.world.inTrans=true) (commit i false) s).state.world := by
    unfold doWhen
    rw [branch_apply]
    split
    · exact (StaysPlain.commit i s hid).1
    · exact SendsOnly.refl s.world
  cases hx : doWhen (s.world.inTrans=true) (commit i false) s with
  | done a t =>
    rw [hx] at hc
    rw [Outcome.andThen_done,branch_apply]
    by_cases hv : isInvalidXaId (if options.xaId="" then options.xaId1 else options.xaId)=true
    · rw [if_pos hv]
      exact hc
    · rw [if_neg hv,onWorld_state]
      exact SendsOnly.trans _ _ _ hc (SendsOnly.of_log rfl)
  | thrown e t =>
    rw [hx] at hc
    exact hc
  | waiting t =>
    rw [hx] at hc
    exact hc

/-- A relation that holds under a condition on the first state, where all meet it. -/
theorem forall₂_of_all {P : World → Prop} {R : World → World → Prop} {as bs : List World}
    (hp : ∀ w ∈ as,P w) (h : List.Forall₂ (fun w w' => P w → R w w') as bs) :
    List.Forall₂ R as bs := by
  induction h with
  | nil => exact .nil
  | cons hab _ ih =>
    exact .cons (hab (hp _ List.mem_cons_self)) (ih fun w hw => hp w (List.mem_cons_of_mem _ hw))

/-- `startTrx()` of a session, where no connection has a distributed transaction. -/
theorem startTrxAll_undecided (options : SessionTrxOptions) {t : Session}
    (hp : ∀ w ∈ t.conns,w.conn.curXaId="") : Each Undecided t (startTrxAll options t).state := by
  refine forall₂_of_all hp ?_
  unfold startTrxAll
  rw [bind_apply,get_apply,Outcome.andThen_done,bind_apply]
  have hc : Each StaysPlain t (doWhen (t.conns≠[]) commitAll t).state :=
    Always.doWhen (Each.refl StaysPlain.refl) commitAll_plain t
  cases hx : doWhen (t.conns≠[]) commitAll t with
  | done a u =>
    rw [hx] at hc
    rw [Outcome.andThen_done,modify_apply]
    have hstart : ∀ o,List.Forall₂ (fun w w' => w.conn.curXaId="" → Undecided w w') u.conns
        (u.settle fun i => startTrx i o).conns := fun o =>
      @settleAll_conns _ u.onBeforeCommit (fun w w' => w.conn.curXaId="" → Undecided w w')
        (fun i s => startTrx_undecided i o s) 0 u.conns u.calls
    refine forall₂_trans (fun a b c hab hbc ha => ?_) hc (hstart _)
    obtain ⟨hu,hb⟩ := hab ha
    exact SendsOnly.trans a b c hu (hbc hb)
  | thrown e u =>
    rw [hx] at hc
    exact hc.imp fun a b hab ha => (hab ha).1
  | waiting u =>
    rw [hx] at hc
    exact hc.imp fun a b hab ha => (hab ha).1

/-- The start of the next transaction, where no connection has a distributed one. -/
theorem nextTrx_undecided (s : Session) (andChain : Bool) {t : Session}
    (hp : ∀ w ∈ t.conns,w.conn.curXaId="") : Each Undecided t (nextTrx s andChain t).state := by
  unfold nextTrx doWhen
  rw [branch_apply]
  split
  · exact startTrxAll_undecided _ hp
  · exact Each.refl SendsOnly.refl t

/-! ## The two phases -/

/-- One decision is taken for all connections: nobody is told to commit, or everybody votes for
it first. -/
def DecidesTogether (conns conns' : List World) : Prop :=
  List.Forall₂ Undecided conns conns' ∨
    ∃ mid,List.Forall₂ Voted conns mid ∧ List.Forall₂ Decides mid conns'

/-- Every connection votes for the commit, and then commits. -/
def CommitsTogether (conns conns' : List World) : Prop :=
  ∃ mid,List.Forall₂ Voted conns mid ∧ List.Forall₂ Committed mid conns'

/-- An operation on all connections leaves the options alone. -/
theorem doAll_trxOptions (op : ℕ → HookedOp Unit) (s : Session) :
    (doAll op s).state.trxOptions=s.trxOptions := by
  rw [doAll_state]
  rfl

/-- The handler of the session leaves the options alone. -/
theorem callSessionHandler_trxOptions (s : Session) :
    (callSessionHandler s).state.trxOptions=s.trxOptions := by
  unfold callSessionHandler
  split
  · rfl
  · dsimp only
    split <;> rfl

section Phases

variable {s t : Session} {andChain : Bool}

/-- The rollback after an error decides nothing. -/
theorem rollbackOnError_undecided {x : SessionOp Unit} (hs : s.trxOptions=none)
    (ho : (x s).state.trxOptions=s.trxOptions) (hx : Each Undecided s (x s).state) :
    Each Undecided s (rollbackOnError (backOf andChain) x s).state := by
  cases h : x s with
  | done a t =>
    rw [h] at hx
    rw [rollbackOnError_done (backOf andChain) h]
    exact hx
  | thrown e t =>
    rw [h] at hx ho
    rw [(rollbackOnError_thrown (backOf andChain) h).1]
    have hback : Each Undecided t (backOf andChain t).state :=
      (back_state (ho.trans hs) andChain).2.imp fun _ _ hn => hn.undecided
    exact Each.trans SendsOnly.trans s t _ hx hback
  | waiting t =>
    rw [h] at hx
    simp only [rollbackOnError,attempt_apply,h,Outcome.orElse_waiting]
    exact hx

/-- An operation with its rollback resolves when the operation does. -/
theorem rollbackOnError_eq_done {back x : SessionOp Unit}
    (h : rollbackOnError back x s=.done () t) : x s=.done () t := by
  cases hx : x s with
  | done a u =>
    rw [rollbackOnError_done back hx] at h
    exact h
  | thrown e u => exact absurd h ((rollbackOnError_thrown back hx).2 t)
  | waiting u =>
    simp only [rollbackOnError,attempt_apply,hx,Outcome.orElse_waiting] at h
    cases h

/-- What comes after the handler of the session. -/
theorem prepareAndCommit_together (hs : s.trxOptions=none) :
    DecidesTogether s.conns (prepareAndCommit (backOf andChain) s).state.conns ∧
      ∀ t,prepareAndCommit (backOf andChain) s=.done () t → CommitsTogether s.conns t.conns := by
  unfold prepareAndCommit
  have hun := @rollbackOnError_undecided s andChain _ hs (doAll_trxOptions prepareXa s)
    (doAll_conns prepareXa_undecided s)
  rw [bind_apply]
  cases hx : rollbackOnError (backOf andChain) (doAll prepareXa) s with
  | thrown e u =>
    rw [hx] at hun
    exact ⟨Or.inl hun,fun t h => by cases h⟩
  | waiting u =>
    rw [hx] at hun
    exact ⟨Or.inl hun,fun t h => by cases h⟩
  | done a u =>
    have hvoted : Each Voted s u :=
      (doAll_done (fun i s t h => prepareXa_voted h) (rollbackOnError_eq_done hx)).2
    rw [Outcome.andThen_done]
    refine ⟨Or.inr ⟨u.conns,hvoted,doAll_conns commit_decides u⟩,fun t h => ⟨u.conns,hvoted,?_⟩⟩
    exact (doAll_done (fun i s t h => commit_committed h) h).2

/-- The two phases, with the handler of the session before them. -/
theorem commitConns_together (hs : s.trxOptions=none) :
    DecidesTogether s.conns (commitConns (backOf andChain) s).state.conns ∧
      ∀ t,commitConns (backOf andChain) s=.done () t → CommitsTogether s.conns t.conns := by
  unfold commitConns
  have hun := @rollbackOnError_undecided s andChain _ hs (callSessionHandler_trxOptions s)
    (each_callSessionHandler SendsOnly.refl s)
  rw [bind_apply]
  cases hx : rollbackOnError (backOf andChain) callSessionHandler s with
  | thrown e u =>
    rw [hx] at hun
    exact ⟨Or.inl hun,fun t h => by cases h⟩
  | waiting u =>
    rw [hx] at hun
    exact ⟨Or.inl hun,fun t h => by cases h⟩
  | done a u =>
    have hc := callSessionHandler_conns s
    have ho := callSessionHandler_trxOptions s
    rw [rollbackOnError_eq_done hx] at hc ho
    have hconns : u.conns=s.conns := hc
    rw [Outcome.andThen_done,← hconns]
    exact prepareAndCommit_together (ho.trans hs)

/-- A commit of a session with connections. -/
theorem commitSession_eq (h : s.conns≠[]) : commitSession andChain s=
    (commitConns (backOf andChain) >>= fun _ => nextTrx s andChain) s.begun := by
  simp [commitSession,doWhen,h,Session.begun,backOf,nextTrx]

/-- After a commit no connection has a distributed transaction. -/
theorem committed_cleared {conns conns' : List World} (h : List.Forall₂ Committed conns conns') :
    ∀ w ∈ conns',w.conn.curXaId="" := by
  induction h with
  | nil =>
    intro w hw
    cases hw
  | cons hab _ ih =>
    intro w hw
    rcases List.mem_cons.mp hw with rfl | hw
    · exact hab.cleared
    · exact ih w hw

end Phases

end SpiritMysql.TrxSession
