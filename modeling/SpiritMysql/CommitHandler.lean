import SpiritMysql.CommandEnd
import SpiritMysql.TrxSession

/-!
# The handler of a commit

How often `onBeforeCommit` is called when a session or a connection commits. The
session calls it once with all connections, and then each connection with an
unprepared transaction calls it once more.
-/

namespace SpiritMysql.TrxSession

open AsyncAction Errors Conn

/-- The connection calls the handler when it commits: it has a transaction that is not
prepared. -/
def CallsHandler (w : World) : Prop :=
  w.hasTrx=true ∧ (w.conn.curXaId="" ∨ w.conn.isXaPrepared=false)

instance (w : World) : Decidable (CallsHandler w) := inferInstanceAs (Decidable (_ ∧ _))

/-- A transaction that is prepared is committed, when there is one. -/
def Acknowledged (w : World) : Prop :=
  w.hasTrx=true → ∃ w',command (.xaCommit w.conn.curXaId) w=.done () w'

/-- A command that commits, or prepares to. -/
def commits : Command → Bool
  | .query (.commit _) | .query (.xaPrepare _) | .query (.xaCommit _) => true
  | _ => false

/-- Nothing is committed on the way to a later state of a connection. -/
def NothingCommitted : World → World → Prop := SendsOnly fun c => commits c=false

/-- The handler is called once with all connections of the session, before anything is
sent, and when it rejects nothing is committed. -/
structure CalledOnce (s : Session) (handler : Handler) (andChain : Bool) : Prop where
  /-- The call. -/
  once : (commitSession andChain s).state.calls=
    s.calls++[⟨List.range s.conns.length,s.conns.map World.log⟩]
  /-- The handler rejects. -/
  rejected : handler s.calls.length=false →
    List.Forall₂ NothingCommitted s.conns (commitSession andChain s).state.conns

/-- There is a connection, and the handler rejects, or no connection has a transaction that
is not prepared. With `andChain` one of the prepared transactions is not committed. -/
def CallsOnce (s : Session) (handler : Handler) (andChain : Bool) : Prop :=
  s.conns≠[] ∧ (handler s.calls.length=false ∨
    (∀ w ∈ s.conns,¬CallsHandler w) ∧ (andChain=true → ∃ w ∈ s.conns,¬Acknowledged w))

/-! ## Calls are never forgotten -/

/-- There are not fewer calls than before. -/
def More (s t : Hooked) : Prop := s.calls.length ≤ t.calls.length

/-- There are not fewer calls than before. -/
def MoreCalls (s t : Session) : Prop := s.calls.length ≤ t.calls.length

theorem More.refl (s : Hooked) : More s s := Nat.le_refl _

theorem More.trans (s t u : Hooked) (h : More s t) (h' : More t u) : More s u := Nat.le_trans h h'

theorem MoreCalls.refl (s : Session) : MoreCalls s s := Nat.le_refl _

theorem MoreCalls.trans (s t u : Session) (h : MoreCalls s t) (h' : MoreCalls t u) : MoreCalls s u :=
  Nat.le_trans h h'

/-- An operation on the connection calls nothing. -/
theorem onWorld_more {α : Type} (x : Op α) : Always More (onWorld x) :=
  fun s => Nat.le_of_eq (congrArg List.length (onWorld_calls x s).symm)

/-- The handler is called. -/
theorem callHandler_calls {s : Hooked} {handler : Handler} (hs : s.onBeforeCommit=some handler)
    (self : ℕ) : (callHandler self s).state.calls=s.calls++[⟨[self],[s.world.log]⟩] := by
  simp only [callHandler,hs]
  split <;> rfl

/-- The handler is called. -/
theorem callHandler_more (self : ℕ) : Always More (callHandler self) := by
  intro s
  cases hs : s.onBeforeCommit with
  | none =>
    simp only [callHandler,hs]
    exact More.refl s
  | some handler =>
    have hc := congrArg List.length (callHandler_calls hs self)
    rw [List.length_append] at hc
    exact Nat.le.intro hc.symm

/-- The calls while an XA transaction is prepared. -/
theorem prepareCommit_more (self : ℕ) : Always More (prepareCommit self) := by
  refine Always.bind More.trans (Always.get More.refl) (fun s => ?_)
  refine Always.ite ?_ (Always.pure More.refl ())
  exact Always.bind More.trans (callHandler_more self) (fun _ => onWorld_more _)

/-- The calls while a transaction is committed. -/
theorem commit_more (self : ℕ) (andChain : Bool) : Always More (commit self andChain) := by
  refine Always.bind More.trans (Always.get More.refl) (fun s => ?_)
  refine Always.ite (Always.ite (Always.ite (Always.fail More.refl _) (onWorld_more _)) ?_)
    (onWorld_more _)
  exact Always.bind More.trans (callHandler_more self) (fun _ => onWorld_more _)

/-- The calls while a transaction is started. -/
theorem startTrx_more (self : ℕ) (options : TrxOptions) : Always More (startTrx self options) := by
  refine Always.bind More.trans (Always.get More.refl) (fun s => ?_)
  refine Always.ite (Always.fail More.refl _) ?_
  refine Always.bind More.trans (Always.doWhen More.refl (commit_more self false)) (fun _ => ?_)
  exact Always.ite (Always.fail More.refl _) (onWorld_more _)

section Settle

variable {op : ℕ → HookedOp Unit} {handler : Option Handler}

/-- The calls of an operation on some connections. -/
theorem settleAll_more (hop : ∀ i,Always More (op i)) (i : ℕ) (conns : List World)
    (calls : List HandlerCall) :
    calls.length ≤ (settleAll op handler i conns calls).calls.length := by
  induction conns generalizing i calls with
  | nil => exact Nat.le_refl _
  | cons w conns ih => exact Nat.le_trans (hop i ⟨w,handler,calls⟩) (ih (i+1) _)

/-- An operation on some connections, for one of which it calls the handler. -/
theorem settleAll_lt (hop : ∀ i,Always More (op i)) {w : World}
    (hw : ∀ i calls,calls.length < (op i ⟨w,handler,calls⟩).state.calls.length) (i : ℕ)
    {conns : List World} (hm : w ∈ conns) (calls : List HandlerCall) :
    calls.length < (settleAll op handler i conns calls).calls.length := by
  induction conns generalizing i calls with
  | nil => cases hm
  | cons v conns ih =>
    rcases List.mem_cons.mp hm with rfl | hm
    · exact Nat.lt_of_lt_of_le (hw i calls) (settleAll_more hop (i+1) conns _)
    · exact Nat.lt_of_le_of_lt (hop i ⟨v,handler,calls⟩) (ih (i+1) hm _)

/-- An operation on connections for which it calls nothing. -/
theorem settleAll_calls {conns : List World}
    (hc : ∀ w ∈ conns,∀ i calls,(op i ⟨w,handler,calls⟩).state.calls=calls) (i : ℕ)
    (calls : List HandlerCall) : (settleAll op handler i conns calls).calls=calls := by
  induction conns generalizing i calls with
  | nil => rfl
  | cons w conns ih =>
    have hw := hc w List.mem_cons_self i calls
    have h := ih (fun v hv => hc v (List.mem_cons_of_mem _ hv)) (i+1) calls
    simpa only [settleAll,hw] using h

/-- An operation that does nothing on the connections. -/
theorem settleAll_idle {conns : List World}
    (hc : ∀ w ∈ conns,∀ i calls,op i ⟨w,handler,calls⟩=.done () ⟨w,handler,calls⟩) (i : ℕ)
    (calls : List HandlerCall) :
    settleAll op handler i conns calls={conns := conns,calls := calls} := by
  induction conns generalizing i calls with
  | nil => rfl
  | cons w conns ih =>
    have hw := hc w List.mem_cons_self i calls
    have h := ih (fun v hv => hc v (List.mem_cons_of_mem _ hv)) (i+1) calls
    simp only [settleAll,hw,Outcome.state,h]
    rfl

/-- A promise that is not fulfilled is noticed. -/
theorem settleAll_fails (op : ℕ → HookedOp Unit) (handler : Option Handler) {conns : List World} {w : World} (hm : w ∈ conns)
    (hw : ∀ i calls,¬∃ s,op i ⟨w,handler,calls⟩=.done () s) (i : ℕ) (calls : List HandlerCall) :
    (settleAll op handler i conns calls).isWaiting=true ∨
      (settleAll op handler i conns calls).error≠none := by
  induction conns generalizing i calls with
  | nil => cases hm
  | cons v conns ih =>
    simp only [settleAll]
    rcases List.mem_cons.mp hm with rfl | hm
    · cases hx : op i ⟨w,handler,calls⟩ with
      | done a s => exact absurd ⟨s,hx⟩ (hw i calls)
      | thrown e s => exact Or.inr (by simp [errorOf])
      | waiting s => exact Or.inl (by simp [waits])
    · rcases ih hm (i+1) (op i ⟨v,handler,calls⟩).state.calls with h | h
      · exact Or.inl (by simp [h])
      · refine Or.inr (fun hn => h ?_)
        exact (Option.or_eq_none_iff.mp hn).2

/-- When all promises are fulfilled, there is no error. -/
theorem settleAll_fulfilled {conns : List World}
    (hc : ∀ w ∈ conns,∀ i calls,∃ s,op i ⟨w,handler,calls⟩=.done () s) (i : ℕ)
    (calls : List HandlerCall) :
    (settleAll op handler i conns calls).isWaiting=false ∧
      (settleAll op handler i conns calls).error=none := by
  induction conns generalizing i calls with
  | nil => exact ⟨rfl,rfl⟩
  | cons w conns ih =>
    obtain ⟨s,hw⟩ := hc w List.mem_cons_self i calls
    have h := ih (fun v hv => hc v (List.mem_cons_of_mem _ hv)) (i+1) s.calls
    simp only [settleAll,hw,Outcome.state]
    simp [errorOf,waits,h.1,h.2]

/-- What an operation does with each connection. -/
theorem settleAll_conns (op : ℕ → HookedOp Unit) (handler : Option Handler)
    {R : World → World → Prop}
    (hr : ∀ i s,R s.world (op i s).state.world) (i : ℕ) (conns : List World)
    (calls : List HandlerCall) :
    List.Forall₂ R conns (settleAll op handler i conns calls).conns := by
  induction conns generalizing i calls with
  | nil => exact .nil
  | cons w conns ih => exact .cons (hr i ⟨w,handler,calls⟩) (ih (i+1) _)

end Settle

/-- The state after an operation on all connections. -/
theorem doAll_state (op : ℕ → HookedOp Unit) (s : Session) :
    (doAll op s).state=s.after (s.settle op) := by
  unfold doAll
  dsimp only
  split
  · rfl
  · split <;> rfl

/-- An operation that succeeds on all connections. -/
theorem doAll_fulfilled {op : ℕ → HookedOp Unit} {s : Session}
    (hc : ∀ w ∈ s.conns,∀ i calls,∃ t,op i ⟨w,s.onBeforeCommit,calls⟩=.done () t) :
    doAll op s=.done () (s.after (s.settle op)) := by
  obtain ⟨hw,he⟩ := settleAll_fulfilled hc 0 s.calls
  unfold doAll Session.settle
  dsimp only
  rw [hw,he]
  rfl

/-- The calls of an operation on all connections. -/
theorem doAll_more {op : ℕ → HookedOp Unit} (hop : ∀ i,Always More (op i)) :
    Always MoreCalls (doAll op) := by
  intro s
  rw [doAll_state]
  exact settleAll_more hop 0 s.conns s.calls

/-- An update that leaves the calls alone. -/
theorem modify_more {f : Session → Session} (hf : ∀ s,s.calls.length ≤ (f s).calls.length) :
    Always MoreCalls (modify f : SessionOp Unit) := hf

/-- The call of the handler by the session. -/
theorem callSessionHandler_more : Always MoreCalls callSessionHandler := by
  intro s
  unfold callSessionHandler
  split
  · exact MoreCalls.refl s
  · have hlen : ∀ call,s.calls.length ≤ (s.calls++[call]).length := fun call => by simp
    dsimp only
    split <;> exact hlen _

/-- One operation after another. -/
theorem bind_more {α β : Type} {x : SessionOp α} {f : α → SessionOp β} (hx : Always MoreCalls x)
    (hf : ∀ a,Always MoreCalls (f a)) : Always MoreCalls (x >>= f) :=
  Always.bind MoreCalls.trans hx hf

/-- The calls while an error is handled by a rollback. -/
theorem rollbackOnError_more {back x : SessionOp Unit} (hb : Always MoreCalls back)
    (hx : Always MoreCalls x) : Always MoreCalls (rollbackOnError back x) := by
  refine Always.attempt MoreCalls.trans hx (fun e => bind_more ?_ (fun _ => Always.fail MoreCalls.refl e))
  exact Always.attempt MoreCalls.trans hb (fun _ => Always.pure MoreCalls.refl ())

/-- A rollback after an error calls nothing back. -/
theorem rollbackOnError_le {back : SessionOp Unit} (hb : Always MoreCalls back) (x : SessionOp Unit)
    (s : Session) : MoreCalls (x s).state (rollbackOnError back x s).state := by
  unfold rollbackOnError
  rw [attempt_apply]
  cases hx : x s with
  | done a t => exact MoreCalls.refl t
  | waiting t => exact MoreCalls.refl t
  | thrown e t =>
    exact bind_more (Always.attempt MoreCalls.trans hb (fun _ => Always.pure MoreCalls.refl ()))
      (fun _ => Always.fail MoreCalls.refl e) t

/-- The calls of a rollback without a number. -/
theorem rollbackAll_more : Always MoreCalls rollbackAll :=
  bind_more (modify_more fun _ => Nat.le_refl _) (fun _ => doAll_more fun _ => onWorld_more _)

/-- What step 2 of a commit does on a connection. -/
theorem prepare_more (i : ℕ) : Always More (prepareXa i) :=
  Always.bind More.trans (Always.get More.refl)
    (fun _ => Always.doWhen More.refl (prepareCommit_more i))

/-- The calls of the steps after the handler. -/
theorem prepareAndCommit_more {back : SessionOp Unit} (hb : Always MoreCalls back) :
    Always MoreCalls (prepareAndCommit back) := by
  refine bind_more (rollbackOnError_more hb (doAll_more prepare_more)) (fun _ => ?_)
  exact doAll_more fun i => commit_more i false

/-- The calls of the first steps of a commit. -/
theorem commitConns_more {back : SessionOp Unit} (hb : Always MoreCalls back) :
    Always MoreCalls (commitConns back) := by
  exact bind_more (rollbackOnError_more hb callSessionHandler_more)
    (fun _ => prepareAndCommit_more hb)

/-- The calls of a commit. -/
theorem commitAll_more : Always MoreCalls commitAll := by
  refine bind_more (modify_more fun _ => Nat.le_refl _) (fun _ => ?_)
  refine bind_more (Always.get MoreCalls.refl) (fun s => ?_)
  exact Always.doWhen MoreCalls.refl (commitConns_more rollbackAll_more)

/-- The calls while transactions are started. -/
theorem startTrxAll_more (options : SessionTrxOptions) : Always MoreCalls (startTrxAll options) := by
  refine bind_more (Always.get MoreCalls.refl) (fun s => ?_)
  refine bind_more (Always.doWhen MoreCalls.refl commitAll_more) (fun _ => modify_more fun s => ?_)
  exact settleAll_more (fun i => startTrx_more i _) 0 s.conns s.calls

/-- The calls of a rollback to the start. -/
theorem rollbackToStart_more : Always MoreCalls rollbackToStart := by
  refine bind_more (Always.get MoreCalls.refl) (fun s => Always.ite ?_ ?_)
  · refine bind_more (modify_more fun _ => Nat.le_refl _) (fun _ => ?_)
    refine bind_more (Always.attempt MoreCalls.trans (doAll_more fun _ => onWorld_more _)
      (fun e => bind_more ?_ (fun _ => Always.fail MoreCalls.refl e))) (fun _ => startTrxAll_more _)
    exact Always.attempt MoreCalls.trans (startTrxAll_more _) (fun _ => Always.pure MoreCalls.refl ())
  · exact bind_more (modify_more fun _ => Nat.le_refl _)
      (fun _ => doAll_more fun _ => onWorld_more _)

/-- The calls of the rollback after an error. -/
theorem back_more (andChain : Bool) :
    Always MoreCalls (rollback (if andChain=true then some 0 else none)) := by
  split
  · exact rollbackToStart_more
  · exact rollbackAll_more

/-! ## Nothing is committed -/

namespace NothingCommitted

/-- The commands that do not commit. -/
theorem respects : Respects NothingCommitted (fun c => commits c=false) (fun _ => True) :=
  SendsOnly.respects fun _ => rfl

/-- Giving the connection up sends nothing. -/
theorem doEnd (w : World) (noResetPending : Bool) (force : Option Force) :
    (w.doEnd noResetPending force).log=w.log := by
  unfold World.doEnd
  split
  · rfl
  · split <;> rfl

/-- A connection that was given up has no transaction. -/
theorem doEnd_inTrans (w : World) (noResetPending : Bool) (force : Option Force) :
    (w.doEnd noResetPending force).inTrans=false := by
  have hr : (w.conn.reset noResetPending).protocol=none := by
    unfold MyConn.reset
    split <;> rfl
  unfold World.doEnd World.inTrans
  split
  · rw [hr]
    rfl
  · split <;> (dsimp only; rw [hr]; rfl)

/-- Starting a transaction, where none is open, sends nothing. -/
theorem startTrx {w : World} (h : w.inTrans=false) (options : TrxOptions) :
    (Conn.startTrx options w).state.log=w.log := by
  unfold Conn.startTrx
  simp only [bind_apply,get_apply,Outcome.andThen_done,branch_apply,h,Bool.false_eq_true,false_and,
    if_false,doWhen,pure_apply]
  cases isInvalidXaId (if options.xaId="" then options.xaId1 else options.xaId) <;> rfl

/-- A rollback. -/
theorem rollbackAll (toStart : Bool) : Always NothingCommitted (Conn.rollbackAll toStart) := by
  refine respects.bind respects.get (fun w => Always.ite ?_ (fun v => SendsOnly.of_log rfl))
  refine respects.bind (respects.attempt ?_ (fun e v => ?_)) (fun _ v => SendsOnly.of_log rfl)
  · unfold rollbackCommand
    refine Always.ite (respects.command rfl) (Always.ite (respects.command rfl) ?_)
    exact Always.ite (respects.command rfl) (respects.twoCommands rfl rfl true)
  · unfold giveUp
    simp only [bind_apply,get_apply,Outcome.andThen_done,endConn,modify_apply]
    have hend := doEnd v false none
    cases toStart with
    | false => exact SendsOnly.of_log hend
    | true =>
      have hs := startTrx (doEnd_inTrans v false none)
        {readonly := (v.conn.protocol.map MyProtocol.inTransReadonly).getD false}
      simp only [doWhen,if_true]
      cases hx : Conn.startTrx _ (v.doEnd false none) with
      | done a u => rw [hx] at hs; exact SendsOnly.of_log (hs.trans hend)
      | thrown e u => rw [hx] at hs; exact SendsOnly.of_log (hs.trans hend)
      | waiting u => rw [hx] at hs; exact SendsOnly.of_log (hs.trans hend)

end NothingCommitted

/-! ## The connections of a commit -/

/-- A transaction on the server is one to commit. -/
theorem hasTrx_of_inTrans {w : World} (h : w.inTrans=true) : w.hasTrx=true := by
  unfold World.inTrans at h
  unfold World.hasTrx World.inTrans
  cases hp : w.conn.protocol with
  | none =>
    rw [hp] at h
    cases h
  | some p =>
    rw [hp] at h
    have ht : p.inTrans=true := h
    simp [ht]

/-- A transaction that is not prepared is open on the server. -/
theorem inTrans_of_hasTrx {w : World} (h : w.hasTrx=true) (hp : w.conn.isXaPrepared=false) :
    w.inTrans=true := by
  unfold World.hasTrx at h
  rw [hp,Bool.or_false,Bool.and_eq_true] at h
  exact h.2

/-- The XA transaction of the connection is not prepared. -/
def IsUnprepared (w : World) : Prop :=
  w.inTrans=true ∧ w.conn.curXaId≠"" ∧ w.conn.isXaPrepared=false

/-- Step 2 of a commit does nothing on a connection without an unprepared XA transaction. -/
theorem prepare_idle {w : World} (h : ¬IsUnprepared w) (i : ℕ) (handler : Option Handler)
    (calls : List HandlerCall) :
    prepareXa i ⟨w,handler,calls⟩=.done () ⟨w,handler,calls⟩ := by
  have hp : prepareCommit i ⟨w,handler,calls⟩=.done () ⟨w,handler,calls⟩ := by
    unfold prepareCommit
    simp only [bind_apply,get_apply,Outcome.andThen_done,branch_apply]
    exact if_neg h
  unfold prepareXa
  simp only [bind_apply,get_apply,Outcome.andThen_done,doWhen,branch_apply,hp,pure_apply]
  exact ite_self _

/-- A rest of an operation after the handler. -/
theorem callHandler_lt {s : Hooked} {handler : Handler} (hs : s.onBeforeCommit=some handler)
    (self : ℕ) (x : Op Unit) :
    s.calls.length < ((callHandler self >>= fun _ => onWorld x) s).state.calls.length := by
  refine @state_bind Error Hooked Unit Unit (fun t => s.calls.length < t.calls.length) _ _ s ?_
    (fun a t _ ht => ?_)
  · rw [callHandler_calls hs,List.length_append]
    exact Nat.lt_succ_self _
  · rw [onWorld_calls]
    exact ht

/-- Step 2 of a commit calls the handler for an unprepared XA transaction. -/
theorem prepare_lt {w : World} (h : IsUnprepared w) (i : ℕ) (handler : Handler)
    (calls : List HandlerCall) :
    calls.length < (prepareXa i ⟨w,some handler,calls⟩).state.calls.length := by
  have hid : w.conn.curXaId≠"" := h.2.1
  have hu : w.inTrans=true ∧ w.conn.curXaId≠"" ∧ w.conn.isXaPrepared=false := h
  unfold prepareXa prepareCommit
  simp only [bind_apply,get_apply,Outcome.andThen_done,doWhen,branch_apply,if_pos hid,if_pos hu]
  exact @callHandler_lt ⟨w,some handler,calls⟩ handler rfl i _

/-- Step 3 of a commit calls the handler for a regular transaction. -/
theorem commit_lt {w : World} (h : w.hasTrx=true) (hid : w.conn.curXaId="") (i : ℕ)
    (handler : Handler) (calls : List HandlerCall) :
    calls.length < (commit i false ⟨w,some handler,calls⟩).state.calls.length := by
  unfold commit
  simp only [bind_apply,get_apply,Outcome.andThen_done,branch_apply,if_pos h,hid,ne_eq,
    not_true_eq_false,if_false]
  exact @callHandler_lt ⟨w,some handler,calls⟩ handler rfl i _

/-- Step 3 of a commit on a connection that does not call the handler. -/
theorem commit_quiet {w : World} (h : ¬CallsHandler w) (i : ℕ) (handler : Option Handler)
    (calls : List HandlerCall) :
    commit i false ⟨w,handler,calls⟩=
      onWorld (if w.hasTrx=true then commitXa w.conn.curXaId false else clearTrx)
        ⟨w,handler,calls⟩ := by
  unfold commit
  simp only [bind_apply,get_apply,Outcome.andThen_done,branch_apply]
  by_cases ht : w.hasTrx=true
  · have hid : w.conn.curXaId≠"" := fun hid => h ⟨ht,Or.inl hid⟩
    have hp : ¬w.conn.isXaPrepared=false := fun hp => h ⟨ht,Or.inr hp⟩
    rw [if_pos ht,if_pos hid,if_neg hp,if_pos ht]
  · rw [if_neg ht,if_neg ht]

/-- The commit of a prepared transaction succeeds when the command does. -/
theorem commitXa_done (xaId : String) (w : World) :
    (∃ w',commitXa xaId false w=.done () w')↔∃ w',command (.xaCommit xaId) w=.done () w' := by
  simp only [commitXa,commitOrRollback,bind_apply,attempt_apply]
  cases hc : command (.xaCommit xaId) w with
  | done a w' => simp [clearTrx,throwSome]
  | waiting w' => simp
  | thrown e w' =>
    simp only [Outcome.andThen_thrown,Outcome.orElse_thrown,bind_apply,attempt_apply]
    cases command (.xaRollback xaId) w' with
    | done a v => simp [clearTrx,throwSome]
    | thrown e' v => simp [endConn]
    | waiting v => simp

/-- Step 3 of a commit succeeds on a connection when its prepared transaction is committed. -/
theorem commit_done {w : World} (h : ¬CallsHandler w) (i : ℕ) (handler : Option Handler)
    (calls : List HandlerCall) :
    (∃ s,commit i false ⟨w,handler,calls⟩=.done () s)↔Acknowledged w := by
  have hdone : ∀ x : Op Unit,(∃ s,onWorld x ⟨w,handler,calls⟩=.done () s)↔∃ w',x w=.done () w' := by
    intro x
    unfold onWorld
    rw [onPart_apply]
    cases x w <;> simp
  rw [commit_quiet h,hdone,branch_apply]
  unfold Acknowledged
  by_cases ht : w.hasTrx=true
  · rw [if_pos ht,commitXa_done]
    exact ⟨fun h _ => h,fun h => h ht⟩
  · rw [if_neg ht]
    exact ⟨fun _ h => absurd h ht,fun _ => ⟨_,rfl⟩⟩

/-! ## The commit of a session -/

/-- The session when the handler is called. -/
def Session.begun (s : Session) : Session := {s with trxOptions := none,savepointEnum := 0}

/-- The session after the handler was called. -/
def Session.called (s : Session) : Session :=
  {s.begun with calls := s.calls++[⟨List.range s.conns.length,s.conns.map World.log⟩]}

/-- A rollback after an error: the session is left as the rollback leaves it, and the commit
fails. -/
theorem rollbackOnError_thrown (back : SessionOp Unit) {x : SessionOp Unit} {s t : Session} {e : Error}
    (hx : x s=.thrown e t) : (rollbackOnError back x s).state=(back t).state ∧
      ∀ u,rollbackOnError back x s≠.done () u := by
  simp only [rollbackOnError,attempt_apply,hx,Outcome.orElse_thrown,bind_apply]
  cases back t <;> simp [Outcome.state]

/-- Without an error there is no rollback. -/
theorem rollbackOnError_done (back : SessionOp Unit) {x : SessionOp Unit} {s t : Session} (hx : x s=.done () t) :
    rollbackOnError back x s=.done () t := by
  simp only [rollbackOnError,attempt_apply,hx,Outcome.orElse_done]

/-- The rollback of a commit calls nothing and commits nothing. -/
theorem back_state {s : Session} (hs : s.trxOptions=none) (andChain : Bool) :
    (rollback (if andChain=true then some 0 else none) s).state.calls=s.calls ∧
      List.Forall₂ NothingCommitted s.conns
        (rollback (if andChain=true then some 0 else none) s).state.conns := by
  have hall : ∀ (toPointId : Option ℕ) (s : Session),Always NothingCommitted (Conn.rollback toPointId) →
      (doAll (fun _ => onWorld (Conn.rollback toPointId)) s).state.calls=s.calls ∧
        List.Forall₂ NothingCommitted s.conns
          (doAll (fun _ => onWorld (Conn.rollback toPointId)) s).state.conns := by
    intro toPointId s hr
    rw [doAll_state]
    refine ⟨settleAll_calls (fun w _ i calls => onWorld_calls _ _) 0 s.calls,?_⟩
    refine settleAll_conns _ _ (fun i t => ?_) 0 s.conns s.calls
    have hw := congrArg Outcome.state (onWorld_world (Conn.rollback toPointId) t)
    have hst : ((onWorld (Conn.rollback toPointId) t).mapState Hooked.world).state=
        (onWorld (Conn.rollback toPointId) t).state.world := by
      cases onWorld (Conn.rollback toPointId) t <;> rfl
    rw [← hst,hw]
    exact hr t.world
  cases andChain with
  | false => exact hall none s.begun (NothingCommitted.rollbackAll false)
  | true =>
    have h := hall (some 0) {s with savepointEnum := 0} (NothingCommitted.rollbackAll true)
    simpa only [if_true,rollback,rollbackToStart,bind_apply,get_apply,Outcome.andThen_done,hs,
      Option.map_none,Option.getD_none,branch_apply,ne_eq,not_true_eq_false,if_false,modify_apply] using h

/-- The rollback after an error of a commit. -/
def backOf (andChain : Bool) : SessionOp Unit := rollback (if andChain=true then some 0 else none)

/-- The start of the next transaction, after a commit. -/
def nextTrx (s : Session) (andChain : Bool) : SessionOp Unit :=
  doWhen (andChain=true) (startTrxAll ⟨(s.trxOptions.map TrxOptions.readonly).getD false,
    decide ((s.trxOptions.map TrxOptions.xaId1).getD ""≠"")⟩)

section Commit

variable {s : Session} {handler : Handler} {andChain : Bool}

/-- A commit without connections. -/
theorem commitSession_nil (h : s.conns=[]) : commitSession andChain s=.done () s.begun := by
  simp [commitSession,doWhen,h,Session.begun]

/-- The handler resolves, and the commit goes on. -/
theorem commitSession_resolved (h : s.conns≠[]) (hs : s.onBeforeCommit=some handler)
    (hh : handler s.calls.length=true) :
    commitSession andChain s=
      ((prepareAndCommit (backOf andChain) >>= fun _ => nextTrx s andChain) s.called) := by
  have hc : callSessionHandler s.begun=.done () s.called := by
    simp [callSessionHandler,Session.begun,Session.called,hs,hh]
  have hd := rollbackOnError_done (backOf andChain) hc
  have hb : commitConns (backOf andChain) s.begun=prepareAndCommit (backOf andChain) s.called := by
    unfold commitConns
    rw [bind_apply,hd]
    rfl
  simp only [commitSession,bind_apply,get_apply,modify_apply,Outcome.andThen_done,doWhen,
    branch_apply,if_pos h]
  exact congrArg (fun x => x.andThen fun _ => nextTrx s andChain) hb

/-- The handler rejects, and the transactions are rolled back. -/
theorem commitSession_rejected (andChain : Bool) (h : s.conns≠[]) (hs : s.onBeforeCommit=some handler)
    (hh : handler s.calls.length=false) :
    (commitSession andChain s).state=(backOf andChain s.called).state := by
  have hc : callSessionHandler s.begun=.thrown handlerError s.called := by
    simp [callSessionHandler,Session.begun,Session.called,hs,hh]
  obtain ⟨hst,hn⟩ := rollbackOnError_thrown (backOf andChain) hc
  have he : commitSession andChain s=
      (rollbackOnError (backOf andChain) callSessionHandler s.begun).andThen fun _ =>
        prepareAndCommit (backOf andChain) >>= fun _ => nextTrx s andChain := by
    simp only [commitSession,bind_apply,get_apply,modify_apply,Outcome.andThen_done,doWhen,
      branch_apply,if_pos h]
    unfold commitConns
    rw [bind_apply]
    show (Outcome.andThen (rollbackOnError (backOf andChain) callSessionHandler s.begun) _).andThen _=_
    cases rollbackOnError (backOf andChain) callSessionHandler s.begun <;> rfl
  rw [he]
  cases hx : rollbackOnError (backOf andChain) callSessionHandler s.begun with
  | done a t => exact absurd hx (hn t)
  | thrown e t => rw [hx] at hst; exact hst
  | waiting t => rw [hx] at hst; exact hst

/-- The calls of the start of the next transaction. -/
theorem nextTrx_more (s : Session) (andChain : Bool) : Always MoreCalls (nextTrx s andChain) :=
  Always.doWhen MoreCalls.refl (startTrxAll_more _)

/-- There are more calls after a longer run. -/
theorem bind_lt {α β : Type} {n : ℕ} {x : SessionOp α} {f : α → SessionOp β} {s : Session}
    (hx : n < (x s).state.calls.length) (hf : ∀ a,Always MoreCalls (f a)) :
    n < ((x >>= f) s).state.calls.length :=
  @state_bind Error Session α β (fun t => n < t.calls.length) x f s hx
    (fun a t _ ht => Nat.lt_of_lt_of_le ht (hf a t))

/-- Step 2 does nothing, when no XA transaction is to be prepared. -/
theorem prepare_done (hidle : ∀ w ∈ s.conns,¬IsUnprepared w) :
    rollbackOnError (backOf andChain) (doAll prepareXa) s=.done () s := by
  refine rollbackOnError_done _ ?_
  unfold doAll Session.settle
  rw [settleAll_idle (fun w hw i calls => prepare_idle (hidle w hw) i s.onBeforeCommit calls) 0 s.calls]
  rfl

/-- A connection with a transaction that is not prepared calls the handler again. -/
theorem prepareAndCommit_lt (andChain : Bool) (hs : s.onBeforeCommit=some handler) {w : World} (hw : w ∈ s.conns)
    (hc : CallsHandler w) : s.calls.length < (prepareAndCommit (backOf andChain) s).state.calls.length := by
  by_cases hu : ∃ v ∈ s.conns,IsUnprepared v
  · obtain ⟨v,hv,hu⟩ := hu
    refine bind_lt (Nat.lt_of_lt_of_le ?_ (rollbackOnError_le (back_more andChain) _ s))
      (fun _ => doAll_more fun i => commit_more i false)
    rw [doAll_state]
    unfold Session.settle
    rw [hs]
    exact settleAll_lt prepare_more (fun i calls => prepare_lt hu i handler calls) 0 hv s.calls
  · have hidle : ∀ v ∈ s.conns,¬IsUnprepared v := fun v hv h => hu ⟨v,hv,h⟩
    have hid : w.conn.curXaId="" := by
      rcases hc.2 with hid | hp
      · exact hid
      · by_contra hid
        exact hidle w hw ⟨inTrans_of_hasTrx hc.1 hp,hid,hp⟩
    unfold prepareAndCommit
    rw [bind_apply,prepare_done hidle,Outcome.andThen_done,doAll_state]
    unfold Session.settle
    rw [hs]
    exact settleAll_lt (fun i => commit_more i false)
      (fun i calls => commit_lt hc.1 hid i handler calls) 0 hw s.calls

/-- Without such a connection only step 3 does something. -/
theorem prepareAndCommit_quiet (andChain : Bool) (hq : ∀ w ∈ s.conns,¬CallsHandler w) :
    prepareAndCommit (backOf andChain) s=doAll (fun i => commit i false) s ∧
      (prepareAndCommit (backOf andChain) s).state.calls=s.calls := by
  have hidle : ∀ w ∈ s.conns,¬IsUnprepared w :=
    fun w hw h => hq w hw ⟨hasTrx_of_inTrans h.1,Or.inr h.2.2⟩
  have he : prepareAndCommit (backOf andChain) s=doAll (fun i => commit i false) s := by
    unfold prepareAndCommit
    rw [bind_apply,prepare_done hidle,Outcome.andThen_done]
  refine ⟨he,?_⟩
  rw [he,doAll_state]
  refine settleAll_calls (fun w hw i calls => ?_) 0 s.calls
  rw [commit_quiet (hq w hw)]
  exact onWorld_calls _ _

/-- The commit of a session that starts the next transaction calls the handler again. -/
theorem nextTrx_lt (hs : s.onBeforeCommit=some handler) (hn : s.conns≠[]) (u : Session) :
    s.calls.length < (nextTrx u true s).state.calls.length := by
  have hcall : s.calls.length < (callSessionHandler s.begun).state.calls.length := by
    unfold callSessionHandler
    simp only [Session.begun,hs]
    split <;> simp [Outcome.state]
  have hcommit : s.calls.length < (commitAll s).state.calls.length := by
    simp only [commitAll,bind_apply,get_apply,modify_apply,Outcome.andThen_done,doWhen,branch_apply,
      if_pos hn]
    refine bind_lt ?_ (fun _ => prepareAndCommit_more rollbackAll_more)
    exact Nat.lt_of_lt_of_le hcall (rollbackOnError_le rollbackAll_more _ s.begun)
  unfold nextTrx startTrxAll
  simp only [doWhen,if_true,bind_apply,get_apply,Outcome.andThen_done,branch_apply,if_pos hn]
  refine @bind_lt _ _ _ commitAll _ s hcommit (fun _ => modify_more fun s => ?_)
  exact settleAll_more (fun i => startTrx_more i _) 0 s.conns s.calls

/-- A commit that does not call the handler once more. -/
theorem calledOnce (hs : s.onBeforeCommit=some handler) (h : CallsOnce s handler andChain) :
    CalledOnce s handler andChain := by
  obtain ⟨hn,h⟩ := h
  cases hh : handler s.calls.length with
  | false =>
    have hst := commitSession_rejected andChain hn hs hh
    obtain ⟨hcalls,hconns⟩ := back_state (s := s.called) rfl andChain
    exact ⟨by rw [hst]; exact hcalls,fun _ => by rw [hst]; exact hconns⟩
  | true =>
    obtain ⟨hq,hchain⟩ := h.resolve_left (by rw [hh]; exact Bool.false_ne_true.symm)
    refine ⟨?_,fun hf => absurd (hh.symm.trans hf) Bool.false_ne_true.symm⟩
    obtain ⟨hdo,hcalls⟩ := prepareAndCommit_quiet (s := s.called) andChain hq
    rw [commitSession_resolved hn hs hh,bind_apply]
    cases hx : prepareAndCommit (backOf andChain) s.called with
    | thrown e t => rw [hx] at hcalls; exact hcalls
    | waiting t => rw [hx] at hcalls; exact hcalls
    | done a t =>
      rw [hx] at hcalls
      cases andChain with
      | false => exact hcalls
      | true =>
        obtain ⟨w,hw,hack⟩ := hchain rfl
        have hfails := settleAll_fails (fun i => commit i false) s.called.onBeforeCommit
          hw (fun i calls h => hack ((commit_done (hq w hw) i _ calls).mp h)) 0 s.called.calls
        rw [hdo] at hx
        unfold doAll at hx
        dsimp only at hx
        split at hx
        · cases hx
        · rename_i hwait
          split at hx
          · cases hx
          · rename_i herr
            exact absurd hfails (not_or.mpr ⟨hwait,not_not.mpr herr⟩)

/-- A commit that calls the handler once with all connections. -/
theorem callsOnce (hs : s.onBeforeCommit=some handler) (h : CalledOnce s handler andChain) :
    CallsOnce s handler andChain := by
  have hlen := congrArg List.length h.once
  rw [List.length_append,List.length_singleton] at hlen
  have hn : s.conns≠[] := by
    intro hn
    rw [commitSession_nil hn] at hlen
    exact absurd hlen (Nat.ne_of_lt (Nat.lt_succ_self _))
  refine ⟨hn,?_⟩
  cases hh : handler s.calls.length with
  | false => exact Or.inl rfl
  | true =>
    refine Or.inr ?_
    have hcalled : s.called.calls.length=s.calls.length+1 := List.length_append
    rw [commitSession_resolved hn hs hh] at hlen
    have hq : ∀ w ∈ s.conns,¬CallsHandler w := by
      intro w hw hc
      have hlt := prepareAndCommit_lt (s := s.called) andChain hs hw hc
      have hmore := bind_lt hlt (fun _ => nextTrx_more s andChain)
      omega
    refine ⟨hq,fun hchain => ?_⟩
    by_contra hack
    have hall : ∀ w ∈ s.conns,Acknowledged w := by
      intro w hw
      by_contra hw'
      exact hack ⟨w,hw,hw'⟩
    obtain ⟨hdo,hcalls⟩ := prepareAndCommit_quiet (s := s.called) andChain hq
    have hdone : doAll (fun i => commit i false) s.called=
        .done () (s.called.after (s.called.settle fun i => commit i false)) :=
      doAll_fulfilled fun w hw i calls => (commit_done (hq w hw) i _ calls).mpr (hall w hw)
    have hne : (s.called.after (s.called.settle fun i => commit i false)).conns≠[] := by
      intro he
      have hr := settleAll_conns (fun i => commit i false) s.called.onBeforeCommit
        (R := fun _ _ => True) (fun _ _ => trivial) 0 s.called.conns s.called.calls
      exact hn (List.length_eq_zero_iff.mp (hr.length_eq.trans (congrArg List.length he)))
    subst hchain
    have hlt := nextTrx_lt (s := s.called.after (s.called.settle fun i => commit i false)) hs hne s
    rw [hdo,hdone] at hcalls
    rw [bind_apply,hdo,hdone,Outcome.andThen_done] at hlen
    have hcount := congrArg List.length hcalls
    simp only [Outcome.state] at hcount
    omega

end Commit

/-! ## A connection outside a session -/

section Lone

variable {s : Hooked} {handler : Handler}

/-- The connection after the handler was called. -/
def Hooked.called (s : Hooked) (self : ℕ) : Hooked :=
  {s with calls := s.calls++[⟨[self],[s.world.log]⟩]}

/-- The handler resolves or rejects. -/
theorem callHandler_apply (hs : s.onBeforeCommit=some handler) (self : ℕ) :
    callHandler self s=if handler s.calls.length=true then .done () (s.called self)
      else .thrown handlerError (s.called self) := by
  simp only [callHandler,hs,Hooked.called]

/-- What follows the handler leaves the calls alone. -/
theorem callHandler_once (hs : s.onBeforeCommit=some handler) (self : ℕ) (x : Op Unit) :
    ((callHandler self >>= fun _ => onWorld x) s).state.calls=(s.called self).calls := by
  rw [bind_apply,callHandler_apply hs]
  split
  · exact onWorld_calls x _
  · rfl

/-- When the handler rejects, nothing follows. -/
theorem callHandler_rejected (hs : s.onBeforeCommit=some handler) (hh : handler s.calls.length=false)
    (self : ℕ) (x : HookedOp Unit) :
    (callHandler self >>= fun _ => x) s=.thrown handlerError (s.called self) := by
  rw [bind_apply,callHandler_apply hs,hh]
  rfl

/-- The commands leave the XA id alone. -/
theorem respects_curXaId :
    Respects (fun w w' => w'.conn.curXaId=w.conn.curXaId) (fun _ => True) (fun _ => True) where
  refl := fun _ => rfl
  trans := fun _ _ _ h h' => h'.trans h
  initDb := fun _ => trivial
  send := by
    intro c _ w
    unfold Conn.send
    split <;> rfl
  receive := by
    intro c _ w
    unfold Conn.receive
    split
    · split
      · rfl
      · split <;> rfl
    · rfl
  schema := fun _ _ _ => rfl
  update := fun _ _ _ _ _ _ _ => rfl

/-- The commit of a prepared transaction calls nothing. -/
theorem commit_prepared (hid : s.world.conn.curXaId≠"") (hp : s.world.conn.isXaPrepared=true)
    (self : ℕ) (andChain : Bool) : (commit self andChain s).state.calls=s.calls := by
  have hn : ¬s.world.conn.isXaPrepared=false := by rw [hp]; exact Bool.false_ne_true.symm
  unfold commit
  simp only [bind_apply,get_apply,Outcome.andThen_done,branch_apply]
  split
  · exact onWorld_calls _ s
  · exact onWorld_calls _ s

/-- The preparation, and the commit of what was prepared. -/
theorem prepare_commit_once (hs : s.onBeforeCommit=some handler) (hu : IsUnprepared s.world)
    (self : ℕ) (andChain : Bool) :
    ((prepareCommit self >>= fun _ => commit self andChain) s).state.calls=(s.called self).calls := by
  have hu' : s.world.inTrans=true ∧ s.world.conn.curXaId≠"" ∧ s.world.conn.isXaPrepared=false := hu
  refine @state_bind Error Hooked Unit Unit (fun t => t.calls=(s.called self).calls) _ _ s ?_ ?_
  · unfold prepareCommit
    simp only [bind_apply,get_apply,Outcome.andThen_done,branch_apply,if_pos hu']
    exact callHandler_once hs self _
  · intro a t ht hcalls
    have hmarked : t.world.conn.curXaId≠"" ∧ t.world.conn.isXaPrepared=true := by
      unfold prepareCommit at ht
      simp only [bind_apply,get_apply,Outcome.andThen_done,branch_apply,if_pos hu',
        callHandler_apply hs] at ht
      split at ht
      · have hkept := @Respects.twoCommands _ _ _ respects_curXaId (.xaEnd s.world.conn.curXaId)
          (.xaPrepare s.world.conn.curXaId) trivial trivial false s.world
        simp only [Outcome.andThen_done,onWorld,onPart_apply,bind_apply,Hooked.called] at ht
        cases hx : twoCommands (.xaEnd s.world.conn.curXaId) false
            (.xaPrepare s.world.conn.curXaId) s.world with
        | done b u =>
          rw [hx] at ht hkept
          cases ht
          exact ⟨fun h => hu.2.1 (hkept.symm.trans h),rfl⟩
        | thrown e u =>
          rw [hx] at ht
          cases ht
        | waiting u =>
          rw [hx] at ht
          cases ht
      · cases ht
    rw [commit_prepared hmarked.1 hmarked.2]
    exact hcalls

end Lone

/-- The handler is called once for a transaction of a connection outside a session, before
anything is sent, and when it rejects nothing is sent. -/
structure LoneOnce (s : Hooked) (handler : Handler) (self : ℕ) (andChain : Bool) : Prop where
  /-- `prepareCommit()` and then `commit()`. -/
  both : ((prepareCommit self >>= fun _ => commit self andChain) s).state.calls=
    s.calls++[⟨[self],[s.world.log]⟩]
  /-- The handler rejects. -/
  bothRejected : handler s.calls.length=false →
    (prepareCommit self >>= fun _ => commit self andChain) s=.thrown handlerError (s.called self)
  /-- `commit()` alone. An XA transaction must be prepared first. -/
  alone : if s.world.conn.curXaId="" then
      (commit self andChain s).state.calls=s.calls++[⟨[self],[s.world.log]⟩]
    else commit self andChain s=.thrown (sqlError "Please, prepare commit first") s
  /-- The handler rejects. -/
  aloneRejected : s.world.conn.curXaId="" → handler s.calls.length=false →
    commit self andChain s=.thrown handlerError (s.called self)

/-- The commit of a regular transaction, from its handler on. -/
theorem commit_regular {s : Hooked} (ht : s.world.hasTrx=true) (hid : s.world.conn.curXaId="")
    (self : ℕ) (andChain : Bool) :
    commit self andChain s=(callHandler self >>= fun _ => onWorld (commitPlain andChain)) s := by
  unfold commit
  simp only [bind_apply,get_apply,Outcome.andThen_done,branch_apply,if_pos ht,hid,ne_eq,
    not_true_eq_false,if_false]

/-- A transaction of a connection outside a session. -/
theorem loneOnce {s : Hooked} {handler : Handler} (hs : s.onBeforeCommit=some handler)
    (ht : s.world.hasTrx=true) (hp : s.world.conn.isXaPrepared=false) (self : ℕ) (andChain : Bool) :
    LoneOnce s handler self andChain := by
  by_cases hid : s.world.conn.curXaId=""
  · have hidle : prepareCommit self s=.done () s := by
      unfold prepareCommit
      simp only [bind_apply,get_apply,Outcome.andThen_done,branch_apply,hid,ne_eq,not_true_eq_false,
        false_and,and_false,if_false,pure_apply]
    have heq : (prepareCommit self >>= fun _ => commit self andChain) s=commit self andChain s := by
      rw [bind_apply,hidle,Outcome.andThen_done]
    have hreg := commit_regular ht hid self andChain
    have honce : (commit self andChain s).state.calls=s.calls++[⟨[self],[s.world.log]⟩] := by
      rw [hreg]
      exact callHandler_once hs self _
    have hrej : handler s.calls.length=false →
        commit self andChain s=.thrown handlerError (s.called self) := by
      intro hh
      rw [hreg]
      exact callHandler_rejected hs hh self _
    refine ⟨by rw [heq]; exact honce,fun hh => heq.trans (hrej hh),?_,fun _ => hrej⟩
    rw [if_pos hid]
    exact honce
  · have hu : IsUnprepared s.world := ⟨inTrans_of_hasTrx ht hp,hid,hp⟩
    have hu' : s.world.inTrans=true ∧ s.world.conn.curXaId≠"" ∧ s.world.conn.isXaPrepared=false := hu
    refine ⟨prepare_commit_once hs hu self andChain,fun hh => ?_,?_,fun h => absurd h hid⟩
    · have hrej : prepareCommit self s=.thrown handlerError (s.called self) := by
        unfold prepareCommit
        simp only [bind_apply,get_apply,Outcome.andThen_done,branch_apply,if_pos hu']
        exact callHandler_rejected hs hh self _
      rw [bind_apply,hrej]
      rfl
    · rw [if_neg hid]
      unfold commit
      simp only [bind_apply,get_apply,Outcome.andThen_done,branch_apply,if_pos ht,hid,ne_eq,
        not_false_eq_true,if_true,if_pos hp,fail_apply]

/-- The commit of a session calls the handler once, with all connections and before anything
is sent, and commits nothing when it rejects, exactly when there is a connection, and the
handler rejects or no connection has a transaction that is not prepared. With `andChain` also a
prepared transaction must remain uncommitted. For a transaction outside a session it is called
once. -/
theorem onBeforeCommit_once_iff {s : Session} {handler : Handler}
    (hs : s.onBeforeCommit=some handler) (andChain : Bool) {x : Hooked} {h : Handler}
    (hx : x.onBeforeCommit=some h) (ht : x.world.hasTrx=true)
    (hp : x.world.conn.isXaPrepared=false) (self : ℕ) (chain : Bool) :
    (CalledOnce s handler andChain↔CallsOnce s handler andChain) ∧ LoneOnce x h self chain ∧
      ∀ (t : Hooked),t.world.conn.curXaId≠"" → t.world.conn.isXaPrepared=true →
        (commit self chain t).state.calls=t.calls :=
  ⟨⟨callsOnce hs,calledOnce hs⟩,loneOnce hx ht hp self chain,
    fun _ hid hprep => commit_prepared hid hprep self chain⟩

/-- A connection with a regular transaction, whose server answers. -/
def busy : World :=
  {conn := {protocol := some {connectionId := 7,inTrans := true}},answers := [.ok false false]}

/-- A session with a connection that has nothing started, and a connection outside it. -/
theorem onBeforeCommit_once_idle :
    CalledOnce {conns := [{}],onBeforeCommit := some fun _ => true} (fun _ => true) false ∧
    LoneOnce {world := busy,onBeforeCommit := some fun _ => true} (fun _ => true) 0 false := by
  have h := onBeforeCommit_once_iff (s := {conns := [{}],onBeforeCommit := some fun _ => true}) rfl
    false (x := {world := busy,onBeforeCommit := some fun _ => true}) rfl (by decide) rfl 0 false
  refine ⟨h.1.mpr ⟨List.cons_ne_nil _ _,Or.inr ⟨?_,fun hc => absurd hc Bool.false_ne_true⟩⟩,h.2.1⟩
  intro w hw
  rw [List.mem_singleton.mp hw]
  decide

/-- The handler is called by the session, and once more by its connection. -/
theorem called_twice : ¬∀ (s : Session) (handler : Handler) (andChain : Bool),
    s.onBeforeCommit=some handler → CalledOnce s handler andChain := by
  intro h
  have h1 := (h {conns := [busy],onBeforeCommit := some fun _ => true} _ false rfl).once
  exact absurd h1 (by decide +kernel)

end SpiritMysql.TrxSession
