import SpiritMysql.LazyCommands

/-!
# Queries after pending commands

`#doQuery()`: the pending commands are executed on the connection, and then the
query is. Unless the connection is given up, either both or nothing is done.
-/

namespace SpiritMysql.Conn

open AsyncAction Errors Protocol TrxStore

/-- The elementary steps of a whole query keep a relation. -/
structure RespectsQuery (R : World → World → Prop) (P : Command → Prop) : Prop where
  /-- The steps of the commands. -/
  steps : Respects R P P
  /-- Statements that were prepared can be executed. -/
  execute : ∀ stmtId values,P (.stmtExecute stmtId values)
  /-- Parameters can be named. -/
  names : ∀ keys,P (.query (.names keys))
  /-- The query that assigns the placeholders can be prepared. -/
  placeholders : ∀ n,P (.stmtPrepare (.placeholders n))
  /-- What can be queried can be prepared. -/
  prepare : ∀ sql,P (.query sql) → P (.stmtPrepare sql)
  /-- A statement is remembered. -/
  remember : ∀ w pos stmtId,R w {w with conn := w.conn.rememberStmt pos stmtId}
  /-- The results are discarded. -/
  discard : Always R Conn.discard

namespace RespectsQuery

variable {R : World → World → Prop} {P : Command → Prop}

/-- A prepared statement is executed. -/
theorem execStmt (h : RespectsQuery R P) (stmtId : ℕ) (values : List Value) (void : Bool) :
    Always R (Conn.execStmt stmtId values void) := by
  have hs := h.steps
  refine hs.bind hs.setQueryingState (fun _ => hs.bind (hs.send _ (h.execute _ _)) (fun _ => ?_))
  refine hs.bind (hs.receive _ (h.execute _ _)) (fun a => ?_)
  cases a.error with
  | some e => exact hs.rethrowError e
  | none =>
    refine hs.bind (hs.setStateAfter (Or.inr (fun c hc => ?_)) a)
      (fun _ => Always.doWhen hs.refl h.discard)
    cases hc
    exact h.execute _ _

/-- The statement for named parameters is found or prepared. -/
theorem namedStmt (h : RespectsQuery R P) (n : ℕ) (letReturnUndefined : Bool) :
    Always R (Conn.namedStmt n letReturnUndefined) := by
  have hs := h.steps
  refine hs.bind hs.get (fun w => ?_)
  cases (w.conn.preparedStmtsForParams[(n-1)/8]?).join with
  | some stmtId => exact hs.pure _
  | none =>
    refine hs.bind (hs.sendComStmtPrepare (fun sql hq => ?_) _) (fun r => ?_)
    · cases hq
      exact h.placeholders _
    · cases r with
      | none => exact hs.pure _
      | some stmtId => exact hs.bind (fun w => h.remember w _ _) (fun _ => hs.pure _)

/-- A query is sent. -/
theorem sendQuery (h : RespectsQuery R P) (q : Query) {source : Source}
    (hsource : Respects.Sends P source) (letReturnUndefined : Bool) :
    Always R (Conn.sendQuery q source letReturnUndefined) := by
  have hs := h.steps
  have hquery : ∀ options,Always R (do
      let done ← Conn.sendComQuery source q.void letReturnUndefined options
      return leftOver done source.rest : Op (Option Source)) := fun options =>
    hs.bind (hs.sendComQuery hsource (Or.inr (fun _ => id)) _ _) (fun _ => hs.pure _)
  have hprep := hs.sendComStmtPrepare (fun sql hq => h.prepare sql (hsource.1 sql hq))
    letReturnUndefined
  refine hs.bind hs.get (fun w => ?_)
  cases q.params with
  | none => exact hquery _
  | prepare => exact Always.ite (hs.fail _) (hs.bind hprep (fun _ => hs.pure _))
  | positional values =>
    refine Always.ite (hs.fail _) (hs.bind hprep (fun r => ?_))
    cases r with
    | some stmtId => exact hs.bind (h.execStmt _ _ _) (fun _ => hs.pure _)
    | none => exact hs.pure _
  | named params =>
    cases params with
    | nil => exact hquery _
    | cons param params =>
      refine Always.ite (hs.fail _) (hs.bind (h.namedStmt _ _) (fun r => ?_))
      cases r with
      | none => exact hs.pure _
      | some stmtId =>
        refine hs.bind (hs.sendThreeQueries (fun pre _ => h.execute _ _) (fun sql hp => ?_) hsource
          (Or.inr (fun _ => id)) _ _ _) (fun _ => hs.pure _)
        cases hp
        exact h.names _

end RespectsQuery

/-! ## Statements of the user -/

/-- Whole queries of the user change data only. -/
theorem writesQuery (data : List String) :
    RespectsQuery (fun w w' => Ready data w → Writes data w w') Command.IsData where
  steps := writes data
  execute _ _ := trivial
  names _ := trivial
  placeholders _ := trivial
  prepare _ := id
  remember w pos stmtId h := by
    refine ⟨id,?_⟩
    rw [write_id]
    exact ⟨⟨h.server,h.answers,h.protocol,h.supply,h.schema,h.curXaId,h.isXaPrepared⟩,
      rfl,rfl,rfl,id,rfl⟩
  discard w h := (writes data).discard (fun p c hp hc => (h.protocol p hp).opened c hc) h

/-- What a user wrote changes data only. -/
theorem sends_user {q : Query} (hq : q.OfUser) : Respects.Sends Command.IsData q.sql := by
  have hdata : ∀ {sql : Sql},sql.isUser=true → sql.IsData := by
    intro sql hu
    cases sql <;> first | exact trivial | cases hu
  constructor
  · exact fun sql hsql => hdata (hq sql hsql)
  · intro sql hsql
    cases hs : q.sql with
    | text sql' =>
      rw [hs] at hsql
      exact hdata (hq sql (by rw [hs]; exact hsql))
    | seeker sql' =>
      rw [hs] at hsql
      cases hsql
      exact trivial
    | stream sql' =>
      rw [hs] at hsql
      cases hsql
    | consumed =>
      rw [hs] at hsql
      cases hsql

/-! ## Connections that are given up -/

/-- No connection comes back once it is given up. -/
def GivesUp (w w' : World) : Prop := w.givenUp.length ≤ w'.givenUp.length

/-- Every query only adds to the connections that are given up. -/
theorem givesUpQuery : RespectsQuery GivesUp (fun _ => True) := by
  have hsteps : Respects GivesUp (fun _ => True) (fun _ => True) := by
    refine ⟨fun w => le_refl _,fun _ _ _ => le_trans,fun _ => trivial,?_,?_,fun _ _ _ => le_refl _,
      fun _ _ _ _ _ _ _ => le_refl _⟩
    · intro c _ w
      unfold send
      cases w.conn.protocol <;> exact le_refl _
    · intro c _ w
      rcases receive_cases c w with hr | hr | ⟨p,a,answers,_,_,_,hr⟩ <;> rw [hr] <;> exact le_refl _
  exact ⟨hsteps,fun _ _ => trivial,fun _ => trivial,fun _ => trivial,fun _ _ => trivial,
    fun _ _ _ => le_refl _,fun w => hsteps.discard (fun _ _ _ _ => trivial)⟩

section Growth

/-- Nothing is taken back when a connection is given up. -/
theorem givesUp_doEnd (w : World) (noResetPending : Bool) :
    GivesUp w (w.doEnd noResetPending none) := by
  unfold GivesUp World.doEnd
  cases w.conn.protocol with
  | none => exact le_refl _
  | some p =>
    dsimp only
    rw [List.length_append]
    exact Nat.le_add_right _ _

/-- Taking a connection gives up none. -/
theorem givesUp_connect : Always GivesUp Conn.connect := by
  intro w
  unfold Conn.connect
  split
  · exact le_refl w.givenUp.length
  · cases w.conn.protocol with
    | some p => exact le_refl w.givenUp.length
    | none =>
      dsimp only
      split
      · exact le_refl w.givenUp.length
      · cases w.supply with
        | nil => exact le_refl w.givenUp.length
        | cons s supply => cases s <;> exact le_refl w.givenUp.length

/-- The pending commands only add to the connections that are given up. -/
theorem givesUp_flushPending (pending : List (Option Sql)) (n : ℕ) :
    Always GivesUp (Conn.flushPending pending n) := by
  have hs := givesUpQuery.steps
  induction pending generalizing n with
  | nil => exact hs.pure _
  | cons sql rest ih =>
    refine hs.bind (Always.doWhen hs.refl (fun w => ?_)) (fun _ => hs.bind hs.get (fun w => ?_))
    · simp only [Conn.appendConn,modify_apply,Outcome.state]
      split <;> exact le_refl _
    · refine hs.bind (hs.sendComQuery (Respects.sends_text trivial) (Or.inl rfl) _ _) (fun r => ?_)
      cases r with
      | some u => exact ih _
      | none => exact hs.pure _

/-- The iterations of a query only add to the connections that are given up. -/
theorem givesUp_queryIterations (q : Query) (n : ℕ) (source : Source) (nRetriesRemaining : ℕ) :
    Always GivesUp (Conn.queryIterations q n source nRetriesRemaining) := by
  have hs := givesUpQuery.steps
  induction n generalizing source nRetriesRemaining with
  | zero => exact hs.wait
  | succ n ih =>
    refine hs.bind givesUp_connect (fun _ =>
      hs.bind (hs.bind hs.get (fun w => ?_)) (fun next => ?_))
    · refine hs.bind (givesUp_flushPending _ _) (fun flushed => ?_)
      cases flushed with
      | none => exact hs.bind (fun w => givesUp_doEnd w true) (fun _ => hs.pure _)
      | some m =>
        refine hs.bind (fun w => le_refl _) (fun _ =>
          hs.bind (givesUpQuery.sendQuery q ⟨fun _ _ => trivial,fun _ _ => trivial⟩ _)
            (fun left => ?_))
        cases left with
        | none => exact hs.pure _
        | some source => exact hs.bind (fun w => givesUp_doEnd w false) (fun _ => hs.pure _)
    · cases next with
      | none => exact hs.pure _
      | some next => exact ih _ _

end Growth

/-! ## Whole queries -/

/-- How sending a query ends, when it does `D` to the transaction, or `T` when it throws. -/
def Sent (data : List String) (D T : Session → Session → Prop) (w : World) :
    Outcome Error World (Option Source) → Prop
  | .done none w' => ∃ s,D (w.session data) s ∧ Moved data w w' w.conn.pendingTrxSql s
  | .done (some _) w' => ∃ s,Moved data w w' w.conn.pendingTrxSql s
  | .thrown _ w' => ∃ s,T (w.session data) s ∧ Moved data w w' w.conn.pendingTrxSql s
  | .waiting _ => True

/-- How an iteration of a query ends: the pending commands were executed before
it, or nothing was done, or the connection is given up. -/
def Done {α : Type} (data : List String) (D T : Session → Session → Prop) (w : World)
    (s : Session) : Outcome Error World (Option α) → Prop
  | .done none w' => ∃ t,D s t ∧ Moved data w w' [] t
  | .done (some _) w' => w.givenUp.length < w'.givenUp.length
  | .thrown _ w' => Moved data w w' w.conn.pendingTrxSql (w.session data) ∨
      ∃ t,T s t ∧ Moved data w w' [] t
  | .waiting _ => True

/-- Some data are changed. -/
def Session.Wrote (s t : Session) : Prop := ∃ f,t=s.write f

section Queries

variable {data : List String} {w w' : World} {p : MyProtocol} {sqls : List Sql} {s : Session}
  {D T : Session → Session → Prop} {q : Query} {source : Source}

/-- A query of the user changes data only. -/
theorem sent_user (h : Ready data w) (hs : Respects.Sends Command.IsData source)
    (letReturnUndefined : Bool) :
    Sent data Session.Wrote Session.Wrote w (sendQuery q source letReturnUndefined w) := by
  have hw := (writesQuery data).sendQuery q hs letReturnUndefined w h
  cases hr : sendQuery q source letReturnUndefined w with
  | waiting u => exact trivial
  | thrown e u =>
    rw [hr] at hw
    obtain ⟨f,hm⟩ := hw
    exact ⟨_,⟨f,rfl⟩,hm⟩
  | done r u =>
    rw [hr] at hw
    obtain ⟨f,hm⟩ := hw
    cases r with
    | none => exact ⟨_,⟨f,rfl⟩,hm⟩
    | some source => exact ⟨_,hm⟩

/-- A return to a savepoint is a query of the library. -/
theorem sent_trx (h : Ready data w) (hp : w.conn.protocol=some p) {sql : Sql} (hs : sql.IsTrx)
    (letReturnUndefined : Bool) :
    Sent data (fun s t => s.exec sql=some t) (fun s t => t=s) w
      (sendQuery {sql := .text sql,void := true} (.text sql) letReturnUndefined w) := by
  have hq : sendQuery {sql := .text sql,void := true} (.text sql) letReturnUndefined w=
      (sendComQuery (.text sql) true letReturnUndefined
        (Query.options {sql := .text sql,void := true} w) w).andThen
        (fun done => (pure (leftOver done (.text sql)) : Op (Option Source))) := rfl
  have hends := (sendComQuery_trx h hp hs letReturnUndefined
    (Query.options {sql := .text sql,void := true} w)).1
  rw [hq]
  cases hr : sendComQuery (.text sql) true letReturnUndefined
      (Query.options {sql := .text sql,void := true} w) w with
  | waiting u => exact trivial
  | thrown e u =>
    rw [hr] at hends
    exact ⟨_,rfl,hends⟩
  | done r u =>
    rw [hr] at hends
    obtain ⟨rfl,t,hx,hm,_⟩ := hends
    exact ⟨t,hx,hm⟩

/-- One iteration of a query on a connection. -/
theorem queryOnce_done (h : Ready data w) (hp : w.conn.protocol=some p)
    (hpend : w.conn.pendingTrxSql=sqls.map some) (hs : ∀ sql ∈ sqls,sql.IsTrx ∧ sql.IsPending)
    (hx : (w.session data).execAll sqls=some s)
    (hsend : ∀ w₁ flag,Ready data w₁ → w₁.conn.protocol.isSome=true → w₁.session data=s →
      Sent data D T w₁ (sendQuery q source flag w₁)) (n : ℕ) :
    Done data D T w s (queryOnce q source n w) := by
  unfold queryOnce
  rw [bind_apply,get_apply,Outcome.andThen_done,bind_apply,hpend]
  obtain ⟨hdone,hthrown⟩ := flush_all h hp hs hx n
  cases hr : flushPending (sqls.map some) n w with
  | waiting u => exact trivial
  | thrown e u => exact Or.inl (hthrown e u hr)
  | done r u =>
    obtain ⟨⟨m,rfl⟩,hm⟩ := hdone r u hr
    have hm₁ : Moved data w {u with conn := {u.conn with pendingTrxSql := []}} [] s :=
      ⟨⟨hm.ready.server,hm.ready.answers,hm.ready.protocol,hm.ready.supply,hm.ready.schema,
        hm.ready.curXaId,hm.ready.isXaPrepared⟩,rfl,hm.savepointEnum,hm.givenUp,hm.connected,
        hm.session⟩
    have hconn := hm₁.connected (by rw [hp]; rfl)
    have hsent := hsend _ (decide (0 < m)) hm₁.ready hconn hm₁.session
    dsimp only [Outcome.andThen_done]
    rw [bind_apply,modify_apply,Outcome.andThen_done,bind_apply]
    cases hq : sendQuery q source (decide (0 < m))
        {u with conn := {u.conn with pendingTrxSql := []}} with
    | waiting v => exact trivial
    | thrown e v =>
      rw [hq] at hsent
      obtain ⟨t,ht,hm₂⟩ := hsent
      rw [hm₁.session] at ht
      exact Or.inr ⟨t,ht,hm₁.trans hm₂⟩
    | done left v =>
      rw [hq] at hsent
      cases left with
      | none =>
        obtain ⟨t,ht,hm₂⟩ := hsent
        rw [hm₁.session] at ht
        exact ⟨t,ht,hm₁.trans hm₂⟩
      | some source' =>
        obtain ⟨t,hm₂⟩ := hsent
        obtain ⟨p',hp'⟩ := Option.isSome_iff_exists.mp (hm₂.connected hconn)
        have hend : (v.doEnd false none).givenUp=v.givenUp++[⟨p',v.conn.preparedXaId,false⟩] := by
          simp only [World.doEnd,hp']
        change w.givenUp.length < (v.doEnd false none).givenUp.length
        rw [hend,List.length_append,hm₂.givenUp,hm₁.givenUp]
        simp

/-- A connection is taken, and nothing else changes. -/
theorem connect_moved (h : Ready data w) :
    (∀ u w',connect w=.done u w' → Moved data w w' w.conn.pendingTrxSql (w.session data) ∧
      w'.conn.protocol.isSome=true) ∧
    ∀ e w',connect w=.thrown e w' → Moved data w w' w.conn.pendingTrxSql (w.session data) := by
  unfold connect
  split
  · refine ⟨fun u w' hw => (by cases hw),fun e w' hw => ?_⟩
    cases hw
    exact Moved.refl h
  · cases hp : w.conn.protocol with
    | some p =>
      refine ⟨fun u w' hw => ?_,fun e w' hw => (by cases hw)⟩
      cases hw
      exact ⟨Moved.refl h,by rw [hp]; rfl⟩
    | none =>
      have hnew : ∀ {supply : List Supply} {p : MyProtocol},(∀ s ∈ supply,s.Fits data w.dsnSchema) →
          p.Works → p.session=⟨data,none⟩ → p.stmts=[] → p.curCommand=none → p.inTrans=false →
          Moved data w (World.setProtocol {w with
            conn := {w.conn with pendingChangeSchema := ""},supply := supply} p)
            w.conn.pendingTrxSql (w.session data) := by
        intro supply p hsupply hworks hsess hstmts hcur hin
        refine ⟨⟨h.server,h.answers,?_,hsupply,rfl,h.curXaId,h.isXaPrepared⟩,rfl,rfl,rfl,
          fun _ => rfl,?_⟩
        · intro p' hp'
          cases hp'
          refine ⟨hworks,?_,?_,?_,?_⟩
          · rw [hstmts]
            intro sql hm
            cases hm
          · rw [hcur]
            intro c hc
            cases hc
          · rw [hsess]
            intro x ph hk
            cases hk
          · rw [hsess,hin]
            rfl
        · have hw : w.session data=⟨data,none⟩ := by rw [World.session,hp]
          rw [hw]
          exact hsess
      dsimp only
      split
      · refine ⟨fun u w' hw => (by cases hw),fun e w' hw => ?_⟩
        cases hw
        exact Moved.refl h
      · have hall := h.supply
        cases hs : w.supply with
        | nil => exact ⟨fun u w' hw => (by cases hw),fun e w' hw => (by cases hw)⟩
        | cons x supply =>
          rw [hs] at hall
          have hrest : ∀ s ∈ supply,s.Fits data w.dsnSchema := fun s hm =>
            hall s (List.mem_cons_of_mem _ hm)
          have hx := hall x List.mem_cons_self
          cases x with
          | failed e =>
            refine ⟨fun u w' hw => (by cases hw),fun e w' hw => ?_⟩
            cases hw
            refine ⟨⟨h.server,h.answers,h.protocol,hrest,rfl,h.curXaId,h.isXaPrepared⟩,rfl,rfl,rfl,
              id,rfl⟩
          | pooled p stolen =>
            obtain ⟨halive,hdata,hstolen⟩ := hx
            refine ⟨fun u w' hw => ?_,fun e w' hw => (by cases hw)⟩
            cases hw
            refine ⟨hnew hrest ⟨halive,?_⟩ ?_ rfl rfl rfl,rfl⟩
            · change wantedSchema w.dsnSchema w.conn.pendingChangeSchema stolen=""
              rw [h.schema,wantedSchema]
              split
              · rename_i hst
                exact hstolen hst.2
              · rfl
            · change (⟨p.session.committed,none⟩ : Session)=⟨data,none⟩
              rw [hdata]
          | opened p leaves =>
            refine ⟨fun u w' hw => ?_,fun e w' hw => (by cases hw)⟩
            cases hw
            refine ⟨hnew hrest ⟨rfl,rfl⟩ ?_ rfl rfl rfl,rfl⟩
            change (⟨p.session.committed,none⟩ : Session)=⟨data,none⟩
            rw [show p.session.committed=data from hx]

/-- A whole query, unless a connection is given up. -/
theorem doQuery_done (h : Ready data w) (hpend : w.conn.pendingTrxSql=sqls.map some)
    (hs : ∀ sql ∈ sqls,sql.IsTrx ∧ sql.IsPending) (hx : (w.session data).execAll sqls=some s)
    (hsend : ∀ w₁ flag,Ready data w₁ → w₁.conn.protocol.isSome=true → w₁.session data=s →
      Sent data D T w₁ (sendQuery q q.sql flag w₁)) :
    (∀ w',doQuery q w=.done () w' → w'.givenUp=w.givenUp → ∃ t,D s t ∧ Moved data w w' [] t) ∧
    ∀ e w',doQuery q w=.thrown e w' → w'.givenUp=w.givenUp →
      Moved data w w' w.conn.pendingTrxSql (w.session data) ∨ ∃ t,T s t ∧ Moved data w w' [] t := by
  obtain ⟨hcdone,hcthrown⟩ := connect_moved h
  unfold doQuery queryIterations
  rw [bind_apply]
  cases hc : connect w with
  | waiting u => exact ⟨fun w' hw => (by cases hw),fun e w' hw => (by cases hw)⟩
  | thrown e u =>
    refine ⟨fun w' hw => (by cases hw),fun e' w' hw _ => ?_⟩
    cases hw
    exact Or.inl (hcthrown e u hc)
  | done u w₁ =>
    obtain ⟨hm,hconn⟩ := hcdone u w₁ hc
    obtain ⟨p,hp⟩ := Option.isSome_iff_exists.mp hconn
    have hd : Done data D T w₁ s (queryOnce q q.sql w.maxConns w₁) :=
      queryOnce_done hm.ready hp (hm.pending.trans hpend) hs (by rw [hm.session]; exact hx) hsend _
    rw [Outcome.andThen_done,bind_apply]
    cases hq : queryOnce q q.sql w.maxConns w₁ with
    | waiting v => exact ⟨fun w' hw => (by cases hw),fun e w' hw => (by cases hw)⟩
    | thrown e v =>
      rw [hq] at hd
      refine ⟨fun w' hw => (by cases hw),fun e' w' hw _ => ?_⟩
      cases hw
      rcases hd with hd | ⟨t,ht,hm₂⟩
      · rw [hm.pending,hm.session] at hd
        exact Or.inl (hm.trans hd)
      · exact Or.inr ⟨t,ht,hm.trans hm₂⟩
    | done next v =>
      rw [hq] at hd
      cases next with
      | none =>
        obtain ⟨t,ht,hm₂⟩ := hd
        refine ⟨fun w' hw _ => ?_,fun e w' hw => (by cases hw)⟩
        cases hw
        exact ⟨t,ht,hm.trans hm₂⟩
      | some next =>
        -- a connection was given up, and it does not come back
        have hgrow := givesUp_queryIterations q w.maxConns next.1 next.2 v
        have hlt : w.givenUp.length < v.givenUp.length := by
          rw [←hm.givenUp]
          exact hd
        refine ⟨fun w' hw hg => ?_,fun e w' hw hg => ?_⟩ <;>
          · have hs' : (queryIterations q w.maxConns next.1 next.2 v).state=w' :=
              congrArg Outcome.state hw
            rw [hs',GivesUp,hg] at hgrow
            omega

end Queries

end SpiritMysql.Conn
