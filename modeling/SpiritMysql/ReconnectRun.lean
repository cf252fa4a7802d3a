import SpiritMysql.DeadConns

/-!
# Reconnecting past dead connections

After dead connections the query is sent on another one. The same commands are
executed there as on the first one, if that had worked, exactly when the schema that the
last dead connection reported leads to the schema that was wanted, and when the SQL could be
read again.
-/

namespace SpiritMysql.Conn

open AsyncAction Errors Protocol TrxStore EventSystem

section Couple

variable {a b : String}

/-- What is done after the query does not concern what was executed. -/
theorem trailing_leftOver {P : World → World → Prop} {x y : Op (Option Source)} (n n' : ℕ)
    (h : Trailing (Same a b) P x y) : Trailing (Same a b) P
      (do
        let left ← x
        match left with
        | none => return none
        | some source =>
          endConn
          return some (source,n-1) : Op (Option (Source×ℕ)))
      (do
        let left ← y
        match left with
        | none => return none
        | some source =>
          endConn
          return some (source,n'-1) : Op (Option (Source×ℕ))) := by
  have hend : ∀ (u : World) (c : String),(u.doEnd false none).executed c=u.executed c := by
    intro u c
    unfold World.doEnd
    cases u.conn.protocol <;> rfl
  refine h.then (fun left s t hs => ?_) (fun left s t hs => ?_)
  · cases left with
    | none => exact hs
    | some source => exact (hend s a).trans hs
  · cases left with
    | none => exact hs
    | some source => exact hs.trans (hend t b).symm

/-- One iteration on two connections that are alike. -/
theorem Before.queryOnce (q : Query) {source : Source} {sql : Sql} (hs : source.sql=some sql)
    (n n' : ℕ) {w v : World} (h : Before a b w v) (hstmts : w.conn.preparedStmtsForParams=[])
    (happend : w.conn.curXaIdAppendConn=false) (htexts : none ∉ w.conn.pendingTrxSql.tail) :
    Same a b (Conn.queryOnce q source n w).state (Conn.queryOnce q source n' v).state := by
  obtain ⟨p,r,db,commands,answers,halike⟩ := h
  have h : Before a b w v := ⟨p,r,db,commands,answers,halike⟩
  have hpending : w.conn.pendingTrxSql=v.conn.pendingTrxSql :=
    congrArg (fun f => f.1.pendingTrxSql) halike.frame
  have happend' : v.conn.curXaIdAppendConn=false :=
    (congrArg (fun f => f.1.curXaIdAppendConn) halike.frame).symm.trans happend
  have hxa : w.conn.curXaId=v.conn.curXaId := congrArg (fun f => f.1.curXaId) halike.frame
  unfold Conn.queryOnce
  rw [bind_apply,bind_apply,get_apply,get_apply,Outcome.andThen_done,Outcome.andThen_done,←hpending]
  have hend : ∀ (P Q : World → World → Prop) (k k' : ℕ),(∀ w v,P w v → Q w.cleared v.cleared) →
      (∀ w v,Q w v → Before a b w v) →
      (∀ m,Coupled (Same a b) Q (fun r r' => r=r' ∧ r≠none) (Level a b)
        (Conn.namedStmt m (decide (0 < k))) (Conn.namedStmt m (decide (0 < k')))) →
      Trailing (Same a b) P
        (do
          modify fun w => {w with conn := {w.conn with pendingTrxSql := []}}
          let left ← Conn.sendQuery q source (decide (0 < k))
          match left with
          | none => return none
          | some source =>
            endConn
            return some (source,k-1) : Op (Option (Source×ℕ)))
        (do
          modify fun w => {w with conn := {w.conn with pendingTrxSql := []}}
          let left ← Conn.sendQuery q source (decide (0 < k'))
          match left with
          | none => return none
          | some source =>
            endConn
            return some (source,k'-1) : Op (Option (Source×ℕ))) := by
    intro P Q k k' hclear hbefore hnamed
    refine Trailing.bind (Coupled.modify hclear) (fun _ _ _ => ?_)
    exact trailing_leftOver k k' (Before.sendQuery q hs _ _ hbefore hnamed)
  cases hps : w.conn.pendingTrxSql with
  | nil =>
    have hflush : ∀ (u : World) (k : ℕ),Conn.flushPending [] k u=.done (some k) u := fun _ _ => rfl
    rw [bind_apply,bind_apply,hflush,hflush,Outcome.andThen_done,Outcome.andThen_done]
    refine hend (fun w v => Before a b w v ∧ w.conn.preparedStmtsForParams=[])
      (fun w v => Before a b w v ∧ w.conn.preparedStmtsForParams=[]) n n' ?_ (fun _ _ h => h.1)
      (fun m => Before.namedStmt m _ _) w v ⟨h,hstmts⟩
    rintro w v ⟨⟨p,r,db,commands,answers,h⟩,hn⟩
    exact ⟨⟨p,r,db,commands,answers,h.cleared⟩,hn⟩
  | cons x rest =>
    have hnamed : ∀ (u : World) (t : MyProtocol),u.conn.protocol=some t → u.conn.pendingTrxSql=x::rest →
        u.conn.curXaIdAppendConn=false → doWhen (x=none) appendConn u=.done () u := by
      intro u t ht hpu hu
      have hx := appendConn_named ht x rest hpu
      unfold MyConn.named at hx
      rw [if_neg (by rw [hu]; exact fun h => by cases h.2)] at hx
      exact hx
    have hrest : none ∉ rest := by
      rw [hps] at htexts
      exact htexts
    have hfirst : Paired (fun r r' => r≠none ∧ r'≠none) (Level a b) (Same a b)
        (Conn.flushPending (x::rest) n w) (Conn.flushPending (x::rest) n' v) := by
      unfold Conn.flushPending
      rw [bind_apply,bind_apply,hnamed w p halike.left.protocol hps happend,
        hnamed v r halike.right.protocol (hpending.symm.trans hps) happend',Outcome.andThen_done,
        Outcome.andThen_done,bind_apply,bind_apply,get_apply,get_apply,Outcome.andThen_done,
        Outcome.andThen_done,hxa,h.retryOptions]
      refine (Before.sendComQuery _ true _ _ _ w v h).andThen (fun y y' hy => ?_)
      obtain ⟨rfl,rfl⟩ := hy
      exact Level.flushPending hrest _ _
    refine hfirst.andThen_state (fun y y' hy => ?_)
    obtain ⟨k,rfl⟩ := Option.ne_none_iff_exists'.mp hy.1
    obtain ⟨k',rfl⟩ := Option.ne_none_iff_exists'.mp hy.2
    refine hend (Level a b) (Level a b) k k' ?_ (fun _ _ h => h.before) (fun m => Level.namedStmt m _ _)
    rintro w v ⟨p,r,db,commands,answers,h,hp,hr⟩
    exact ⟨p,r,db,commands,answers,h.cleared,hp,hr⟩

end Couple

section First

variable {a db : String} {initDb : Option String} {w : World} {p : MyProtocol} {answers : List Answer}

/-- The first thing that is executed. -/
def First (a : String) (e : String×Command) (w : World) : Prop := [e] <+: w.executed a

/-- What is executed first stays so. -/
theorem First.grows {e : String×Command} {w w' : World} (h : First a e w) (hg : Grows w w') :
    First a e w' := List.IsPrefix.trans h (hg.executed a)

/-- What is executed first in an operation stays so in the ones after it. -/
theorem First.bind {α β : Type} {e : String×Command} {x : Op α} {f : α → Op β}
    (h : First a e (x w).state) (hf : ∀ r,Always Grows (f r)) : First a e ((x >>= f) w).state := by
  rw [bind_apply]
  cases hx : x w with
  | done r u =>
    rw [hx] at h
    exact h.grows (hf r u)
  | thrown err u => rwa [hx] at h
  | waiting u => rwa [hx] at h

/-- Only one thing can be executed first. -/
theorem First.eq {e f : String×Command} {b : String} {w v : World} (h : First a e w) (h' : First b f v)
    (hs : Same a b w v) : e=f := by
  obtain ⟨l,hl⟩ := h
  obtain ⟨l',hl'⟩ := h'
  have heq : [e]++l=[f]++l' := hl.trans (hs.trans hl'.symm)
  exact (List.cons.inj heq).1

/-- A command that is read as the first one was executed. -/
theorem Answering.first (h : Answering a none w p db [] answers) (hne : answers≠[])
    (hworks : Answer.lost ∉ answers) {c : Command} (hc : ∀ schema,c≠.initDb schema) :
    First a (db,c) (receive c w).state := by
  have hanswers : w.answers=answers := h.answers
  have hreply : ∃ r,w.reply p c=some r := by
    unfold World.reply
    cases w.verdict p c with
    | some x => exact ⟨_,rfl⟩
    | none =>
      rw [hanswers]
      cases answers with
      | nil => exact absurd rfl hne
      | cons x rest => exact ⟨_,rfl⟩
  obtain ⟨⟨x,rest⟩,hr⟩ := hreply
  obtain ⟨w',hw,hl,_⟩ := h.read hc hr (reply_works (hanswers ▸ hworks) hr).1
  rw [hw]
  have hexecuted : w'.executed a=[(db,c)] := hl.commands
  show [(db,c)] <+: w'.executed a
  exact hexecuted.symm ▸ List.prefix_refl _

/-- After the schema is selected a command is the first thing that is executed. -/
theorem Answering.firstSent (h : Answering a p.initDb w p db [] answers)
    (hworks : Answer.lost ∉ answers) {c : Command} {α : Type} {y : Option Error → Op α}
    (hy : ∀ u r,Answering a none u r db [] answers → First a (db,c) (y none u).state) :
    First a (db,c) ((do
      let initDb ← maybeInitDb
      sendInitDb initDb
      Conn.send c
      let early ← readInitDb initDb
      y early : Op α) w).state := by
  have h₀ : Alike a a p.initDb p.initDb w w p p db [] answers := ⟨h,h,rfl,hworks⟩
  obtain ⟨w₁,_,hw₁,_,h₁⟩ := h₀.take
  obtain ⟨w₂,_,hw₂,_,h₂⟩ := h₁.sendInitDb
  obtain ⟨w₃,_,hw₃,_,h₃⟩ := h₂.send c
  obtain ⟨w₄,_,_,_,hw₄,_,h₄,_⟩ := h₃.select rfl rfl
  rw [bind_apply,hw₁,Outcome.andThen_done,bind_apply,hw₂,Outcome.andThen_done,bind_apply,hw₃,
    Outcome.andThen_done,bind_apply,hw₄,Outcome.andThen_done]
  exact hy w₄ _ h₄.left

/-- A query that is sent first. -/
theorem Answering.exchange (h : Answering a p.initDb w p db [] answers) (hne : answers≠[])
    (hworks : Answer.lost ∉ answers) {source : Source} {sql : Sql} (hs : source.sql=some sql)
    (void : Bool) : First a (db,.query sql) (Conn.exchange source void w).state := by
  have hx := h.firstSent hworks (c:=.query sql) (y:=fun early => do
    let attempt ← Conn.readResults (.query sql) void
    return (early.or attempt.1,attempt.2)) (fun u r hu => ?_)
  · unfold Conn.exchange
    rw [hs]
    exact hx
  · refine First.bind (First.bind (hu.first hne hworks (fun _ hn => by cases hn)) (fun x => ?_))
      (fun _ => Grows.respects.pure _)
    cases x.error with
    | some e => exact Grows.respects.pure _
    | none =>
      exact Always.ite (Grows.respects.bind (Grows.respects.doDiscard trivial)
        (fun _ => Grows.respects.pure _)) (Grows.respects.pure _)

/-- A connection that is idle is taken for a query. -/
theorem Answering.taken (h : Answering a p.initDb w p db [] answers)
    (hidle : p.state=.IDLE ∨ p.state=.IDLE_IN_POOL) : ∃ isFromPool u r,
      setQueryingState w=.done isFromPool u ∧ Answering a r.initDb u r db [] answers := by
  have hq : Answering a p.initDb (w.setProtocol {p with state := .QUERYING}) {p with state := .QUERYING} db
      [] answers := h.update .QUERYING h.opened
  rcases hidle with hi | hi
  · exact ⟨false,_,{p with state := .QUERYING},setQueryingState_idle h.protocol hi,hq⟩
  · exact ⟨true,_,{p with state := .QUERYING},setQueryingState_pool h.protocol hi,hq⟩

/-- A query that is sent first. -/
theorem Answering.sendComQuery (h : Answering a p.initDb w p db [] answers) (hne : answers≠[])
    (hworks : Answer.lost ∉ answers) (hidle : p.state=.IDLE ∨ p.state=.IDLE_IN_POOL) {source : Source}
    {sql : Sql} (hs : source.sql=some sql) (void letReturnUndefined : Bool) (options : RetryOptions) :
    First a (db,.query sql) (Conn.sendComQuery source void letReturnUndefined options w).state := by
  obtain ⟨isFromPool,u,r,ht,hq⟩ := h.taken hidle
  have hx := hq.exchange hne hworks hs void
  unfold Conn.sendComQuery
  rw [bind_apply,ht,Outcome.andThen_done]
  have hconclude : ∀ (c : Option Command) (x : Attempt) (b : Bool),Always Grows (Conn.conclude c x void b) :=
    fun c x b => Grows.respects.conclude (Or.inr (fun _ _ => trivial)) x b
  cases options.retryQueryTimes with
  | zero => exact First.bind hx (fun x => hconclude _ x _)
  | succ n =>
    refine First.bind hx (fun x => Always.ite ?_ (hconclude _ x _))
    exact Grows.respects.queryLoop (Or.inr (fun _ _ => trivial)) _ _ n (Grows.sends _)

/-- A statement that is prepared first. -/
theorem Answering.sendComStmtPrepare (h : Answering a p.initDb w p db [] answers) (hne : answers≠[])
    (hworks : Answer.lost ∉ answers) (hidle : p.state=.IDLE ∨ p.state=.IDLE_IN_POOL) {source : Source}
    {sql : Sql} (hs : source.sql=some sql) (letReturnUndefined : Bool) :
    First a (db,.stmtPrepare sql) (Conn.sendComStmtPrepare source letReturnUndefined w).state := by
  obtain ⟨isFromPool,u,r,ht,hq⟩ := h.taken hidle
  unfold Conn.sendComStmtPrepare
  rw [bind_apply,ht,Outcome.andThen_done,hs]
  refine hq.firstSent hworks (c:=.stmtPrepare sql) (fun v t hu => ?_)
  refine First.bind (hu.first hne hworks (fun _ hn => by cases hn)) (fun x => ?_)
  cases x.error.or none with
  | none =>
    exact Grows.respects.bind (Grows.respects.setState (by simp)) (fun _ =>
      Grows.respects.bind Grows.respects.get (fun _ => Grows.respects.pure _))
  | some e => exact Grows.respects.rethrowErrorIfFatal e _

/-- The command that a query begins with. -/
def Query.firstCommand (q : Query) (source : Source) : Option Command :=
  match q.params with
  | .none => source.command
  | .prepare => source.sql.map .stmtPrepare
  | .positional _ => source.sql.map .stmtPrepare
  | .named [] => source.command
  | .named params => some (.stmtPrepare (.placeholders (nPlaceholders params.length)))

/-- The query itself, when nothing is sent before it. -/
theorem Answering.sendQuery (h : Answering a p.initDb w p db [] answers) (hne : answers≠[])
    (hworks : Answer.lost ∉ answers) (hidle : p.state=.IDLE ∨ p.state=.IDLE_IN_POOL)
    (hstmts : w.conn.preparedStmtsForParams=[]) {q : Query} (hq : q.isRefused=false) {source : Source}
    {c : Command} (hc : q.firstCommand source=some c) (letReturnUndefined : Bool) :
    First a (db,c) (Conn.sendQuery q source letReturnUndefined w).state := by
  obtain ⟨source₀,params,void,lock,times,multiStatements⟩ := q
  have htext : ∀ options,source.command=some c → First a (db,c)
      ((do
        let done ← Conn.sendComQuery source void letReturnUndefined options
        return leftOver done source.rest : Op (Option Source)) w).state := by
    intro options hc
    obtain ⟨sql,hs,rfl⟩ := Option.map_eq_some_iff.mp hc
    exact First.bind (h.sendComQuery hne hworks hidle hs _ _ _) (fun _ => Grows.respects.pure _)
  unfold Conn.sendQuery
  rw [bind_apply,get_apply,Outcome.andThen_done]
  cases params with
  | none => exact htext _ hc
  | prepare =>
    obtain ⟨sql,hs,rfl⟩ := Option.map_eq_some_iff.mp hc
    have hmulti : multiStatements=false := hq
    dsimp only
    rw [branch_apply,if_neg (by rw [hmulti]; exact Bool.false_ne_true)]
    exact First.bind (h.sendComStmtPrepare hne hworks hidle hs _) (fun _ => Grows.respects.pure _)
  | positional values =>
    obtain ⟨sql,hs,rfl⟩ := Option.map_eq_some_iff.mp hc
    have hmulti : multiStatements=false := hq
    dsimp only
    rw [branch_apply,if_neg (by rw [hmulti]; exact Bool.false_ne_true)]
    refine First.bind (h.sendComStmtPrepare hne hworks hidle hs _) (fun r => ?_)
    cases r with
    | none => exact Grows.respects.pure _
    | some stmtId => exact Grows.respects.bind (Grows.execStmt _ _ _) (fun _ => Grows.respects.pure _)
  | named params =>
    cases params with
    | nil => exact htext _ hc
    | cons x xs =>
      obtain rfl := Option.some_inj.mp hc
      have hlength : decide (0xFFFF < (x::xs).length)=false := hq
      dsimp only
      rw [branch_apply,if_neg (of_decide_eq_false hlength)]
      refine First.bind ?_ (fun r => ?_)
      · have hprepare : First a (db,.stmtPrepare (.placeholders (nPlaceholders (x::xs).length)))
            (Conn.sendComStmtPrepare (.text (.placeholders (nPlaceholders (x::xs).length)))
              letReturnUndefined w).state := h.sendComStmtPrepare hne hworks hidle rfl _
        unfold namedStmt
        rw [bind_apply,get_apply,Outcome.andThen_done,hstmts]
        refine First.bind hprepare (fun r => ?_)
        cases r with
        | none => exact Grows.respects.pure _
        | some stmtId => exact Grows.respects.bind (Grows.setConn _) (fun _ => Grows.respects.pure _)
      · cases r with
        | none => exact Grows.respects.pure _
        | some stmtId =>
          exact Grows.respects.bind (Grows.respects.sendThreeQueries (fun _ _ => trivial)
            (fun _ _ => trivial) (Grows.sends source) (Or.inr (fun _ _ => trivial)) _ _ _)
            (fun _ => Grows.respects.pure _)

/-- The pending commands, the first one of which is executed first. -/
theorem Answering.queryOnce_pending (h : Answering a p.initDb w p db [] answers) (hne : answers≠[])
    (hworks : Answer.lost ∉ answers) (hidle : p.state=.IDLE ∨ p.state=.IDLE_IN_POOL) {x : Option Sql}
    {rest : List (Option Sql)} (hps : w.conn.pendingTrxSql=x::rest) (q : Query) (source : Source)
    (n : ℕ) : First a (db,.query (x.getD (.xaStart (w.conn.named p.connectionId).curXaId)))
      (Conn.queryOnce q source n w).state := by
  have hnamed : Answering a p.initDb {w with conn := w.conn.named p.connectionId} p db [] answers := by
    have hp : (w.conn.named p.connectionId).protocol=some p := by
      unfold MyConn.named
      split <;> exact h.protocol
    exact ⟨hp,h.alive,h.schema,h.answers,h.db,h.commands,h.quiet,h.opened⟩
  unfold Conn.queryOnce
  rw [bind_apply,get_apply,Outcome.andThen_done,hps]
  refine First.bind ?_ (fun r => ?_)
  · unfold flushPending
    rw [bind_apply,appendConn_named h.protocol x rest hps,Outcome.andThen_done,bind_apply,get_apply,
      Outcome.andThen_done]
    refine First.bind (hnamed.sendComQuery hne hworks hidle rfl _ _ _) (fun r => ?_)
    cases r with
    | none => exact Grows.respects.pure _
    | some _ => exact Grows.flushPending _ _
  · cases r with
    | none => exact Grows.respects.bind (fun w => Grows.doEnd w true) (fun _ => Grows.respects.pure _)
    | some n =>
      refine Grows.respects.bind (Grows.setConn _) (fun _ => Grows.respects.bind (Grows.sendQuery _ _ _)
        (fun left => ?_))
      cases left with
      | none => exact Grows.respects.pure _
      | some source =>
        exact Grows.respects.bind (fun w => Grows.doEnd w false) (fun _ => Grows.respects.pure _)

/-- Without pending commands the query is executed first. -/
theorem Answering.queryOnce_first (h : Answering a p.initDb w p db [] answers) (hne : answers≠[])
    (hworks : Answer.lost ∉ answers) (hidle : p.state=.IDLE ∨ p.state=.IDLE_IN_POOL)
    (hstmts : w.conn.preparedStmtsForParams=[]) (hps : w.conn.pendingTrxSql=[]) {q : Query}
    (hq : q.isRefused=false) {source : Source} {c : Command} (hc : q.firstCommand source=some c) (n : ℕ) :
    First a (db,c) (Conn.queryOnce q source n w).state := by
  have hcleared : Answering a p.initDb w.cleared p db [] answers :=
    ⟨h.protocol,h.alive,h.schema,h.answers,h.db,h.commands,h.quiet,h.opened⟩
  unfold Conn.queryOnce
  rw [bind_apply,get_apply,Outcome.andThen_done,hps]
  have hflush : Conn.flushPending [] n w=.done (some n) w := rfl
  rw [bind_apply,hflush,Outcome.andThen_done]
  dsimp only
  rw [bind_apply,modify_apply,Outcome.andThen_done]
  refine First.bind (hcleared.sendQuery hne hworks hidle hstmts hq hc _) (fun left => ?_)
  cases left with
  | none => exact Grows.respects.pure _
  | some source =>
    exact Grows.respects.bind (fun w => Grows.doEnd w false) (fun _ => Grows.respects.pure _)

/-- Nothing is sent and nothing is read. -/
def Silent (w w' : World) : Prop := w'.log=w.log

/-- One thing after another. -/
theorem Silent.bind {α β : Type} {x : Op α} {f : α → Op β} (hx : Always Silent x)
    (hf : ∀ r,Always Silent (f r)) : Always Silent (x >>= f) :=
  Always.bind (fun _ _ _ h h' => h'.trans h) hx hf

/-- The connection is taken for a query. -/
theorem Silent.setQueryingState : Always Silent Conn.setQueryingState := by
  intro w
  unfold Conn.setQueryingState
  cases w.conn.protocol with
  | none => rfl
  | some p =>
    dsimp only
    cases p.state <;> exact (rfl : w.log=w.log)

/-- The pending schema is taken. -/
theorem Silent.maybeInitDb : Always Silent Conn.maybeInitDb := by
  intro w
  unfold Conn.maybeInitDb
  cases w.conn.protocol with
  | none => rfl
  | some p =>
    dsimp only
    split_ifs <;> rfl

/-- An error is thrown again. -/
theorem Silent.rethrowErrorIfFatal {α : Type} (e : Error) (isFromPool : Bool) :
    Always Silent (Conn.rethrowErrorIfFatal e isFromPool : Op (Option α)) := by
  have hset : ∀ state,Always Silent (Conn.setState state) := by
    intro state w
    simp only [Conn.setState,modify_apply,Outcome.state]
    cases w.conn.protocol <;> rfl
  unfold Conn.rethrowErrorIfFatal
  refine Always.ite (Silent.bind (hset _) (fun _ _ => rfl)) (Silent.bind (hset _) (fun _ => ?_))
  exact Always.ite (fun _ => rfl) (fun _ => rfl)

/-- A source at its end sends nothing. -/
theorem Silent.sendComQuery {source : Source} (hs : source.sql=none) (void letReturnUndefined : Bool)
    (options : RetryOptions) :
    Always Silent (Conn.sendComQuery source void letReturnUndefined options) := by
  have hexchange : ∀ w,∃ w',Silent w w' ∧ Conn.exchange source void w=.done (some endOfStream,.lost) w' := by
    intro w
    have hm := Silent.maybeInitDb w
    unfold Conn.exchange
    rw [hs,bind_apply]
    cases hx : Conn.maybeInitDb w with
    | done i w' =>
      rw [hx] at hm
      exact ⟨w',hm,rfl⟩
    | thrown e w' => exact absurd hx (maybeInitDb_never w e w')
    | waiting w' =>
      unfold Conn.maybeInitDb at hx
      cases hp : w.conn.protocol with
      | none =>
        rw [hp] at hx
        cases hx
      | some p =>
        rw [hp] at hx
        dsimp only at hx
        split_ifs at hx
  refine Silent.bind Silent.setQueryingState (fun isFromPool w => ?_)
  obtain ⟨w',hw,hx⟩ := hexchange w
  have hc := Silent.rethrowErrorIfFatal (α:=Unit) endOfStream (isFromPool && letReturnUndefined) w'
  cases options.retryQueryTimes with
  | zero =>
    unfold Conn.queryLoop
    rw [bind_apply,hx,Outcome.andThen_done]
    exact Eq.trans hc hw
  | succ n =>
    unfold Conn.queryLoop
    rw [bind_apply,hx,Outcome.andThen_done]
    exact Eq.trans hc hw

/-- A source at its end sends nothing. -/
theorem Silent.sendComStmtPrepare {source : Source} (hs : source.sql=none) (letReturnUndefined : Bool) :
    Always Silent (Conn.sendComStmtPrepare source letReturnUndefined) := by
  refine Silent.bind Silent.setQueryingState (fun _ => Silent.bind Silent.maybeInitDb (fun _ => ?_))
  rw [hs]
  exact Silent.rethrowErrorIfFatal _ _

/-- A source at its end gives no statement. -/
theorem sendComStmtPrepare_consumed {source : Source} (hs : source.sql=none) {letReturnUndefined : Bool}
    {r : Option ℕ} {w' : World} (h : sendComStmtPrepare source letReturnUndefined w=.done r w') :
    r=none := by
  obtain ⟨isFromPool,_,_,h⟩ := bind_eq_done.mp h
  obtain ⟨_,_,_,h⟩ := bind_eq_done.mp h
  rw [hs] at h
  dsimp only at h
  unfold rethrowErrorIfFatal at h
  rw [branch_apply] at h
  split at h <;> obtain ⟨_,_,_,h⟩ := bind_eq_done.mp h
  · cases h
  · rw [branch_apply] at h
    split at h <;> cases h
    rfl

/-- Nothing is sent of a query whose source is at its end. -/
theorem Silent.queryOnce {q : Query} (hnamed : q.isNamed=false) {source : Source} (hs : source.sql=none)
    (hps : w.conn.pendingTrxSql=[]) (n : ℕ) : Silent w (Conn.queryOnce q source n w).state := by
  have hquery : Always Silent (Conn.sendQuery q source (decide (0 < n))) := by
    refine Silent.bind (fun _ => rfl) (fun u => ?_)
    cases hp : q.params with
    | none => exact Silent.bind (Silent.sendComQuery hs _ _ _) (fun _ _ => rfl)
    | prepare =>
      exact Always.ite (fun _ => rfl) (Silent.bind (Silent.sendComStmtPrepare hs _) (fun _ _ => rfl))
    | positional values =>
      refine Always.ite (fun _ => rfl) (fun u => ?_)
      have hprepare := Silent.sendComStmtPrepare hs (decide (0 < n)) u
      rw [bind_apply]
      cases hx : Conn.sendComStmtPrepare source (decide (0 < n)) u with
      | thrown e u' => rwa [hx] at hprepare
      | waiting u' => rwa [hx] at hprepare
      | done r u' =>
        rw [hx] at hprepare
        obtain rfl := sendComStmtPrepare_consumed hs hx
        exact hprepare
    | named params =>
      cases params with
      | nil => exact Silent.bind (Silent.sendComQuery hs _ _ _) (fun _ _ => rfl)
      | cons x xs =>
        unfold Query.isNamed at hnamed
        rw [hp] at hnamed
        cases hnamed
  have hend : Always Silent endConn := by
    intro u
    show (u.doEnd false none).log=u.log
    unfold World.doEnd
    cases u.conn.protocol <;> rfl
  unfold Conn.queryOnce
  rw [bind_apply,get_apply,Outcome.andThen_done,hps]
  have hflush : Conn.flushPending [] n w=.done (some n) w := rfl
  rw [bind_apply,hflush,Outcome.andThen_done]
  have hclear : Always Silent (modify fun w => {w with conn := {w.conn with pendingTrxSql := []}} : Op Unit) :=
    fun u => (rfl : u.log=u.log)
  refine Silent.bind hclear (fun _ => Silent.bind hquery (fun left => ?_)) w
  cases left with
  | none => exact fun _ => rfl
  | some source => exact Silent.bind hend (fun _ _ => rfl)

end First

/-- The calls that need no connection. -/
def Call.IsLazy : Call → Prop
  | .use _ => True
  | .startTrx _ => True
  | .savepoint => True
  | .sessionSavepoint _ => True
  | _ => False

/-- The schema in which the first query is executed on a connection that was taken. -/
def MyProtocol.firstSchema (p : MyProtocol) : String := p.initDb.getD p.db

/-- The server reports the schema that it has, or none. -/
def MyProtocol.IsHonest (p : MyProtocol) : Prop := p.schema="" ∨ p.tracksSchema=true ∧ p.schema=p.db

/-- The schema that the last dead connection reported, or the one that is pending. -/
def lastSchema (dead : List (MyProtocol×Bool)) (pendingChangeSchema : String) : String :=
  (dead.getLast?.map (fun d => d.1.schema)).getD pendingChangeSchema

/-- The first connection, if it had worked. -/
def firstAlive (dead : List (MyProtocol×Bool)) (final : Supply) : Supply :=
  match dead with
  | [] => final
  | d::_ => .pooled {d.1 with isAlive := true} d.2

/-- The object with the connections it can take, and with the answers to come. -/
def World.with (w : World) (supply : List Supply) (answers : List Answer) : World :=
  {w with supply := supply,answers := answers}

section Lazy

/-- A new object. -/
theorem Waiting.of_new {w : World} (hconn : w.conn={}) (hlog : w.log=[]) : Waiting w := by
  refine ⟨?_,?_,?_,?_,?_,?_,?_,?_,?_⟩
  all_goals try rw [hconn]
  · exact fun _ => ⟨rfl,rfl⟩
  · exact fun h => by cases h
  · exact fun h => by cases h
  · intro a
    unfold World.tracked
    rw [hlog]
    rfl

/-- The pending commands are replaced. -/
theorem Waiting.setPending {w : World} (h : Waiting w) {c : MyConn} (hprotocol : c.protocol=none)
    (hconnecting : c.isConnecting=false) (hdisposed : c.isDisposed=false) (hprepared : c.isXaPrepared=false)
    (hstmts : c.preparedStmtsForParams=[]) (hne : c.pendingTrxSql≠[]) (htexts : none ∉ c.pendingTrxSql.tail)
    (happends : c.curXaIdAppendConn=true → c.pendingTrxSql.head?=some none) :
    Waiting {w with conn := c} :=
  ⟨hprotocol,hconnecting,hdisposed,hprepared,hstmts,fun hn => absurd hn hne,htexts,happends,h.tracked⟩

/-- One more pending command. -/
theorem Waiting.addPending {w : World} (h : Waiting w) (sql : Sql) (n : ℕ) :
    Waiting {w with conn := {w.conn with
      savepointEnum := n,pendingTrxSql := w.conn.pendingTrxSql++[some sql]}} := by
  refine h.setPending h.protocol h.connecting h.disposed h.prepared h.stmts (by simp) ?_ (fun ha => ?_)
  case refine_2 =>
    obtain ⟨rest,hrest⟩ := List.head?_eq_some_iff.mp (h.appends ha)
    simp only [hrest,List.cons_append,List.head?_cons]
  have htexts := h.texts
  cases hps : w.conn.pendingTrxSql with
  | nil => exact fun hm => by cases hm
  | cons x rest =>
    rw [hps] at htexts
    simp only [List.cons_append,List.tail_cons,List.mem_append,List.mem_singleton,not_or]
    exact ⟨htexts,fun hn => by cases hn⟩

/-- A call that needs no connection only notes what is wanted. -/
theorem Waiting.step {w w' : World} (h : Waiting w) {c : Call} (hc : c.IsLazy) (hs : w.step c=some w') :
    Waiting w' := by
  have hstate := step_state hs
  cases c with
  | use schema =>
    have hw : (Conn.use schema w).state={w with conn := {w.conn with pendingChangeSchema := schema}} := by
      simp only [Conn.use,modify_apply,Outcome.state,h.protocol]
    rw [←hstate]
    show Waiting (Conn.use schema w).state
    rw [hw]
    exact ⟨h.protocol,h.connecting,h.disposed,h.prepared,h.stmts,h.free,h.texts,h.appends,h.tracked⟩
  | startTrx options =>
    have htrans : w.inTrans=false := by
      simp only [World.inTrans,h.protocol,Option.map_none,Option.getD_none]
    have hset : Waiting {w with conn := w.conn.setTrx options} := by
      unfold MyConn.setTrx
      rw [h.protocol]
      split_ifs <;>
        exact h.setPending rfl h.connecting h.disposed h.prepared h.stmts (by simp) (fun hm => by cases hm)
          (by simp)
    have hx : (Conn.startTrx options w).state=w ∨
        (Conn.startTrx options w).state={w with conn := w.conn.setTrx options} := by
      unfold Conn.startTrx
      rw [bind_apply,get_apply,Outcome.andThen_done,branch_apply,if_neg (by rw [htrans]; simp)]
      unfold doWhen
      rw [if_neg (by rw [htrans]; simp),bind_apply,pure_apply,Outcome.andThen_done,branch_apply]
      by_cases hi : isInvalidXaId (if options.xaId="" then options.xaId1 else options.xaId)=true
      · rw [if_pos hi]
        exact Or.inl rfl
      · rw [if_neg hi]
        exact Or.inr rfl
    rw [←hstate]
    show Waiting (Conn.startTrx options w).state
    rcases hx with hx | hx <;> rw [hx]
    · exact h
    · exact hset
  | savepoint =>
    rw [←hstate]
    exact h.addPending _ _
  | sessionSavepoint pointId =>
    rw [←hstate]
    exact h.addPending _ w.conn.savepointEnum
  | _ => cases hc

end Lazy

section Take

variable {s t : Supply} {dsnSchema pending pending' : String} {p r : MyProtocol}

/-- A connection that was just taken has no transaction and no results. -/
theorem Supply.take_idle (h : s.take dsnSchema pending=some p) :
    (p.state=.IDLE ∨ p.state=.IDLE_IN_POOL) ∧
      (p.session.trx=none ∧ p.inTrans=false ∧ p.inTransReadonly=false ∧ p.moreResults=false ∧
        p.nResults=0) ∧ p.curCommand=none := by
  cases s with
  | pooled q stolen =>
    cases h
    exact ⟨Or.inr rfl,⟨rfl,rfl,rfl,rfl,rfl⟩,rfl⟩
  | opened q leaves =>
    cases h
    exact ⟨Or.inl rfl,⟨rfl,rfl,rfl,rfl,rfl⟩,rfl⟩
  | failed e => cases h

/-- Connections of one server that were just taken are alike. -/
theorem Supply.take_anonymous (h : s.take dsnSchema pending=some p) (h' : t.take dsnSchema pending'=some r)
    (hp : p.isAlive=true) (hr : r.isAlive=true) (hsession : p.session=r.session)
    (htimes : p.retryQueryTimes=r.retryQueryTimes) : p.anonymous=r.anonymous := by
  have hform : ∀ {s : Supply} {pending : String} {p : MyProtocol},s.take dsnSchema pending=some p →
      p.isAlive=true → p.anonymous={
        connectionId := 0,retryQueryTimes := p.retryQueryTimes,session := p.session} := by
    intro s pending p h hp
    cases s with
    | pooled q stolen =>
      cases h
      unfold MyProtocol.anonymous
      rw [hp]
      rfl
    | opened q leaves =>
      cases h
      rfl
    | failed e => cases h
  rw [hform h hp,hform h' hr,hsession,htimes]

/-- A connection that was just taken answers. -/
theorem Waiting.answering {w : World} (hw : Waiting w) (h : s.take dsnSchema pending=some p)
    (hp : p.isAlive=true) (hhonest : p.IsHonest) {answers : List Answer}
    (ha : w.answers=initAnswers p.initDb++answers) :
    Answering p.db p.initDb (w.took p []) p p.firstSchema [] answers := by
  have ht : (w.took p []).tracked p.db=(p.db,[]) := hw.tracked p.db
  obtain ⟨_,hquiet,hcur⟩ := Supply.take_idle h
  refine ⟨rfl,hp,?_,ha,?_,?_,Or.inr hquiet,?_⟩
  · rw [ht]
    exact hhonest
  · rw [ht]
    rfl
  · rw [ht]
  · rw [hcur]
    exact fun _ hn => by cases hn

/-- The id can be appended before. -/
theorem queryOnce_named {w : World} (hp : w.conn.protocol=some p) (q : Query) (source : Source) (n : ℕ) :
    queryOnce q source n w=queryOnce q source n {w with conn := w.conn.named p.connectionId} := by
  have hfields : (w.conn.named p.connectionId).protocol=some p ∧
      (w.conn.named p.connectionId).pendingTrxSql=w.conn.pendingTrxSql := by
    unfold MyConn.named
    split <;> exact ⟨hp,rfl⟩
  cases hps : w.conn.pendingTrxSql with
  | nil =>
    have hnone : w.conn.named p.connectionId=w.conn := by
      unfold MyConn.named
      rw [if_neg (by rw [hps]; exact fun h => by cases h.1)]
    rw [hnone]
  | cons x rest =>
    have happend := appendConn_named hp x rest hps
    have happend' := appendConn_named (w:={w with conn := w.conn.named p.connectionId}) hfields.1 x rest
      (hfields.2.trans hps)
    have hagain : (w.conn.named p.connectionId).named p.connectionId=w.conn.named p.connectionId :=
      named_named w.conn p.connectionId p.connectionId (w.conn.named p.connectionId).savepointEnum
        (w.conn.named p.connectionId).pendingChangeSchema
    have hflush : flushPending (x::rest) n w=
        flushPending (x::rest) n {w with conn := w.conn.named p.connectionId} := by
      unfold flushPending
      rw [bind_apply,bind_apply,happend,happend',hagain]
    unfold queryOnce
    rw [bind_apply,bind_apply,get_apply,get_apply,Outcome.andThen_done,Outcome.andThen_done,hps,
      show (World.conn {w with conn := w.conn.named p.connectionId}).pendingTrxSql=x::rest from
        hfields.2.trans hps,bind_apply,bind_apply,hflush]

/-- A query that is refused is not sent. -/
theorem queryOnce_refused {w : World} (hps : w.conn.pendingTrxSql=[]) {q : Query} (hq : q.isRefused=true)
    (source : Source) (n : ℕ) : ∃ e,queryOnce q source n w=.thrown e w.cleared := by
  have hsend : ∃ e,sendQuery q source (decide (0 < n)) w.cleared=.thrown e w.cleared := by
    obtain ⟨source₀,params,void,lock,times,multiStatements⟩ := q
    unfold sendQuery
    rw [bind_apply,get_apply,Outcome.andThen_done]
    cases params with
    | none => cases hq
    | prepare =>
      have hmulti : multiStatements=true := hq
      dsimp only
      rw [branch_apply,if_pos hmulti]
      exact ⟨_,rfl⟩
    | positional values =>
      have hmulti : multiStatements=true := hq
      dsimp only
      rw [branch_apply,if_pos hmulti]
      exact ⟨_,rfl⟩
    | named params =>
      have hlength : decide (0xFFFF < params.length)=true := hq
      cases params with
      | nil => cases hlength
      | cons x xs =>
        dsimp only
        rw [branch_apply,if_pos (of_decide_eq_true hlength)]
        exact ⟨_,rfl⟩
  obtain ⟨e,hsend⟩ := hsend
  refine ⟨e,?_⟩
  unfold queryOnce
  rw [bind_apply,get_apply,Outcome.andThen_done,hps]
  have hflush : Conn.flushPending [] n w=.done (some n) w := rfl
  rw [bind_apply,hflush,Outcome.andThen_done]
  dsimp only
  rw [bind_apply,modify_apply,Outcome.andThen_done,bind_apply]
  unfold World.cleared at hsend ⊢
  rw [hsend]
  rfl

/-- Nothing is executed of a query that is refused. -/
theorem doQuery_refused {w : World} (hw : Waiting w) (hps : w.conn.pendingTrxSql=[]) {q : Query}
    (hq : q.isRefused=true) {s : Supply} {rest : List Supply} (hs : w.supply=s::rest)
    (hp : s.take w.dsnSchema w.conn.pendingChangeSchema=some p) (a : String) :
    (doQuery q w).state.executed a=[] := by
  obtain ⟨e,he⟩ := queryOnce_refused (w:=w.took p rest) hps hq q.sql w.maxConns
  have hx : doQuery q w=.thrown e (w.took p rest).cleared := by
    unfold doQuery queryIterations
    rw [bind_apply,connect_took hw hs hp,Outcome.andThen_done,bind_apply,he,Outcome.andThen_thrown]
  rw [hx]
  exact congrArg Prod.snd (hw.tracked a)

end Take

section Claim

variable {u w : World} {calls : List Call} {dead : List (MyProtocol×Bool)} {final : Supply}
  {p r : MyProtocol} {answers : List Answer} {q : Query}

/-- The object is still waiting, whatever connections it can take. -/
theorem Waiting.with (hw : Waiting w) (supply : List Supply) (answers : List Answer) :
    Waiting (w.with supply answers) :=
  ⟨hw.protocol,hw.connecting,hw.disposed,hw.prepared,hw.stmts,hw.free,hw.texts,hw.appends,hw.tracked⟩

/-- What a query leads to after dead connections: the last connection is used for it. -/
theorem doQuery_dead (hw : Waiting w) (d : MyProtocol×Bool)
    (hdead : ∀ e ∈ d::dead,e.1.isAlive=false) (hmax : (d::dead).length ≤ w.maxConns)
    (hp : final.take w.dsnSchema (lastSchema (d::dead) w.conn.pendingChangeSchema)=some p)
    (hq : w.conn.pendingTrxSql≠[] ∨ q.isRefused=false) (all : List Answer) :
    ∃ w' n,(∀ a,(doQuery q (w.with ((d::dead).map (fun d => .pooled d.1 d.2)++[final]) all)).state.executed a=
        (queryOnce q (w.sourceAfter q q.sql) n (w'.took p [])).state.executed a) ∧
      Passed (w.with ((d::dead).map (fun d => .pooled d.1 d.2)++[final]) all) w' d.1.connectionId
        (lastSchema (d::dead) w.conn.pendingChangeSchema) [final] ∧ Waiting w' := by
  have hlast : ((d::dead).getLast (List.cons_ne_nil d dead)).1.schema=
      lastSchema (d::dead) w.conn.pendingChangeSchema := by
    unfold lastSchema
    rw [List.getLast?_eq_some_getLast (List.cons_ne_nil d dead)]
    rfl
  obtain ⟨m,hm⟩ := Nat.exists_eq_add_of_le hmax
  obtain ⟨w',n,hx,hpassed,hw'⟩ := queryIterations_dead (q:=q) d dead (hw.with _ all)
    (w:=w.with ((d::dead).map (fun d => .pooled d.1 d.2)++[final]) all) rfl hdead hq
    (n:=w.maxConns) hmax (m+1) q.sql
  rw [hlast] at hpassed
  refine ⟨w',n,fun a => ?_,hpassed,hw'⟩
  have hq' : doQuery q (w.with ((d::dead).map (fun d => .pooled d.1 d.2)++[final]) all)=
      queryIterations q (m+1) (w.sourceAfter q q.sql) n w' := by
    rw [←show (w.with ((d::dead).map (fun d => .pooled d.1 d.2)++[final]) all).sourceAfter q q.sql=
      w.sourceAfter q q.sql from rfl,←hx,←Nat.add_assoc,←hm]
    rfl
  have htake : final.take w'.dsnSchema w'.conn.pendingChangeSchema=some p := by
    rw [hpassed.conn,hpassed.around.2.2.1]
    exact hp
  rw [hq']
  exact queryIterations_last hw' hpassed.supply htake m _ n a

/-- Two connections that were just taken for the same calls are alike, when the wanted
schema is the same. -/
theorem before_took {v : World} (hw : Waiting w) {w' : World} (hw' : Waiting w') {d : MyProtocol}
    {schema pending pending' : String} {s t : Supply} {rest : List Supply}
    (hpassed : Passed v w' d.connectionId schema rest) (hv : v.conn=w.conn)
    (haround : v.server=w.server ∧ v.retryLockWaitTimeout=w.retryLockWaitTimeout)
    (hp : s.take w.dsnSchema pending=some p) (hr : t.take w.dsnSchema pending'=some r)
    (halive : p.isAlive=true ∧ r.isAlive=true) (hhonest : p.IsHonest ∧ r.IsHonest)
    (hserver : p.session=r.session ∧ p.retryQueryTimes=r.retryQueryTimes)
    (hid : r.connectionId=d.connectionId) (hworks : Answer.lost ∉ answers)
    (ha : w'.answers=initAnswers p.initDb++answers) (ha' : w.answers=initAnswers r.initDb++answers)
    (hschema : p.firstSchema=r.firstSchema) :
    Before p.db r.db (w'.took p []) {w.took r [] with conn := (w.took r []).conn.named r.connectionId} := by
  have hl := hw'.answering hp halive.1 hhonest.1 ha
  have hr' := hw.answering hr halive.2 hhonest.2 ha'
  have hconn : (w.took r []).conn.named r.connectionId=
      {w.conn.named d.connectionId with protocol := some r,pendingChangeSchema := ""} := by
    rw [←hid]
    exact named_with w.conn r.connectionId (some r) ""
  have hright : Answering r.db r.initDb
      {w.took r [] with conn := (w.took r []).conn.named r.connectionId} r r.firstSchema [] answers := by
    refine ⟨?_,hr'.alive,hr'.schema,hr'.answers,hr'.db,hr'.commands,hr'.quiet,hr'.opened⟩
    rw [hconn]
  rw [hschema] at hl
  refine ⟨p,r,r.firstSchema,[],answers,hl,hright,?_,hworks⟩
  have hanonymous := Supply.take_anonymous hp hr halive.1 halive.2 hserver.1 hserver.2
  unfold World.frame
  rw [hconn]
  unfold World.took
  dsimp only
  rw [hpassed.conn,hv,hpassed.around.1,hpassed.around.2.2.2,haround.1,haround.2,Option.map_some,
    Option.map_some,hanonymous]

/-- What is needed for the query to be the same on the last connection as on the
first one: the schema that is selected there, and a source that dead connections left
as it was. -/
def Repeats (w : World) (q : Query) (p r : MyProtocol) : Prop :=
  p.firstSchema=r.firstSchema ∧ (q.sql.rest=q.sql ∨ w.conn.pendingTrxSql≠[] ∨ q.isNamed=true)

/-- The source after dead connections, when it repeats. -/
theorem Repeats.source (h : Repeats w q p r) : w.sourceAfter q q.sql=q.sql := by
  unfold World.sourceAfter
  split
  · rename_i hc
    rcases h.2 with h | h | h
    · exact h
    · exact absurd hc.1 h
    · rw [hc.2] at h
      cases h
  · rfl

/-- Where the same is executed after dead connections, the query repeats. -/
theorem repeats_of_same {w' : World} (hw : Waiting w) (hw' : Waiting w') {s t : Supply}
    {pending pending' : String} (hpending : w'.conn.pendingTrxSql=w.conn.pendingTrxSql)
    (hp : s.take w.dsnSchema pending=some p) (hr : t.take w.dsnSchema pending'=some r)
    (halive : p.isAlive=true ∧ r.isAlive=true) (hhonest : p.IsHonest ∧ r.IsHonest)
    (hne : answers≠[]) (hworks : Answer.lost ∉ answers)
    (ha : w'.answers=initAnswers p.initDb++answers) (ha' : w.answers=initAnswers r.initDb++answers)
    (hsql : q.sql.sql≠none) (hq : w.conn.pendingTrxSql≠[] ∨ q.isRefused=false) {n m : ℕ}
    (hsame : Same p.db r.db (queryOnce q (w.sourceAfter q q.sql) n (w'.took p [])).state
      (queryOnce q q.sql m (w.took r [])).state) : Repeats w q p r := by
  have hl := hw'.answering hp halive.1 hhonest.1 ha
  have hr' := hw.answering hr halive.2 hhonest.2 ha'
  have hidle := (Supply.take_idle hp).1
  have hidle' := (Supply.take_idle hr).1
  cases hps : w.conn.pendingTrxSql with
  | cons x rest =>
    have hf := hl.queryOnce_pending hne hworks hidle (hpending.trans hps) q (w.sourceAfter q q.sql) n
    have hf' := hr'.queryOnce_pending hne hworks hidle' hps q q.sql m
    have heq := hf.eq hf' hsame
    refine ⟨congrArg Prod.fst heq,Or.inr (Or.inl ?_)⟩
    rw [hps]
    exact List.cons_ne_nil x rest
  | nil =>
    have hq' : q.isRefused=false := hq.resolve_left (fun h => h hps)
    obtain ⟨sql,hs⟩ := Option.ne_none_iff_exists'.mp hsql
    by_cases hnamed : q.isNamed=true
    · have hsource : w.sourceAfter q q.sql=q.sql := by
        unfold World.sourceAfter
        rw [if_neg (fun h => by rw [hnamed] at h; cases h.2)]
      have hc : ∃ c,q.firstCommand q.sql=some c := by
        obtain ⟨source₀,params,void,lock,times,multiStatements⟩ := q
        cases params with
        | named params =>
          cases params with
          | nil => cases hnamed
          | cons x xs => exact ⟨_,rfl⟩
        | _ => cases hnamed
      obtain ⟨c,hc⟩ := hc
      rw [hsource] at hsame
      have hf := hl.queryOnce_first hne hworks hidle hw'.stmts (hpending.trans hps) hq' hc n
      have hf' := hr'.queryOnce_first hne hworks hidle' hw.stmts hps hq' hc m
      exact ⟨congrArg Prod.fst (hf.eq hf' hsame),Or.inr (Or.inr hnamed)⟩
    · have hnot : q.isNamed=false := by simpa using hnamed
      have hsource : w.sourceAfter q q.sql=q.sql.rest := by
        unfold World.sourceAfter
        rw [if_pos ⟨hps,hnot⟩]
      have hfirst : ∃ f : Sql → Command,Function.Injective f ∧
          ∀ source : Source,q.firstCommand source=source.sql.map f := by
        obtain ⟨source₀,params,void,lock,times,multiStatements⟩ := q
        cases params with
        | named params =>
          cases params with
          | nil => exact ⟨Command.query,fun _ _ h => Command.query.inj h,fun _ => rfl⟩
          | cons x xs => cases hnot
        | none => exact ⟨Command.query,fun _ _ h => Command.query.inj h,fun _ => rfl⟩
        | prepare => exact ⟨Command.stmtPrepare,fun _ _ h => Command.stmtPrepare.inj h,fun _ => rfl⟩
        | positional values =>
          exact ⟨Command.stmtPrepare,fun _ _ h => Command.stmtPrepare.inj h,fun _ => rfl⟩
      obtain ⟨f,hinj,hf⟩ := hfirst
      have hc' : q.firstCommand q.sql=some (f sql) := by
        rw [hf,hs]
        rfl
      have hfr := hr'.queryOnce_first hne hworks hidle' hw.stmts hps hq' hc' m
      rw [hsource] at hsame
      cases hrest : q.sql.rest.sql with
      | none =>
        have hsilent := Silent.queryOnce (w:=w'.took p []) hnot hrest (hpending.trans hps) n
        have hnone : (queryOnce q q.sql.rest n (w'.took p [])).state.executed p.db=[] := by
          have ht := hw'.tracked p.db
          unfold World.tracked at ht
          unfold World.executed World.tracked
          rw [hsilent]
          exact congrArg Prod.snd ht
        obtain ⟨l,hl⟩ := hfr
        rw [←hsame,hnone] at hl
        cases hl
      | some sql' =>
        have hc : q.firstCommand q.sql.rest=some (f sql') := by
          rw [hf,hrest]
          rfl
        have hfl := hl.queryOnce_first hne hworks hidle hw'.stmts (hpending.trans hps) hq' hc n
        have heq := hfl.eq hfr hsame
        have hsqls : sql'=sql := hinj (congrArg Prod.snd heq)
        refine ⟨congrArg Prod.fst heq,Or.inl ?_⟩
        rw [hsqls] at hrest
        cases hsrc : q.sql with
        | text x => rfl
        | seeker x =>
          rw [hsrc] at hs hrest
          cases hs
          cases hrest
          rfl
        | stream x =>
          rw [hsrc] at hrest
          cases hrest
        | consumed =>
          rw [hsrc] at hs
          cases hs

end Claim

/-- A connection of the pool where the schema is "a". -/
def ofPool (connectionId : ℕ) (isAlive : Bool) : MyProtocol :=
  {connectionId := connectionId,isAlive := isAlive,schema := "a",db := "a"}

/-- A query of a user. -/
def select : Query := {sql := .text (.user "SELECT 1"),void := true}

end SpiritMysql.Conn
