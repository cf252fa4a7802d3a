import SpiritMysql.SessionPoints

/-!
# Every run keeps the savepoints of a session together

The connections that take part in the transaction have the same session
savepoints, in the same order, when those that wait are counted with those on the
server.
-/

namespace SpiritMysql.SessionPoints

open EventSystem ListUpdates TrxStore

variable {δ : Type}

/-- The session savepoints among others, with their data. -/
def sessionOf (points : List ((Bool×ℕ)×δ)) : List (ℕ×δ) :=
  points.filterMap fun p => if p.1.1=true then some (p.1.2,p.2) else none

/-- The savepoints of a store, the last one first. -/
def pointsOf (store : Store Unit (Bool×ℕ) δ) : List ((Bool×ℕ)×δ) :=
  (store.trx.map Trx.points).getD []

/-- The savepoints of a connection, after the commands that wait. -/
def Member.points (m : Member δ) : List ((Bool×ℕ)×δ) := pointsOf m.flushed

/-- The session savepoints of a connection. -/
def Member.sessionPoints (m : Member δ) : List (ℕ×δ) := sessionOf m.points

/-- The numbers of the session savepoints of a connection. -/
def Member.sessionNames (m : Member δ) : List ℕ := m.sessionPoints.map Prod.fst

/-- The savepoint is found among the commands that wait, and none of the savepoints that the
rollback removes from there is there or on the server a second time. -/
def Member.Waits (m : Member δ) (pointId : ℕ) : Prop :=
  ∃ before,Conn.beforeSavepoint true pointId m.pendingTrxSql.reverse=some before ∧
    ∀ n,some (Conn.Sql.savepoint true n) ∈ m.pendingTrxSql.drop before.length →
      n ∉ (sessionOf (pointsOf (flushTo m.store before.reverse))).map Prod.fst

/-- What the code deals with: a connection joins the transaction when the savepoints are those
that the session counts; a session savepoint is returned to that waits on all connections, or
on none; a connection makes no savepoint over session savepoints that wait for the start of the
transaction; and it returns to none of its savepoints over later ones of the session. -/
def Careful (s : Session δ) : Event δ → Prop
  | .conn _ => s.trxOptions≠none → ∀ m ∈ s.conns,m.TakesPart →
      m.sessionNames=(List.range s.savepointEnum).reverse.map fun i => i+1
  | .rollback toPointId _ _ => Conn.savepointEnumSessionFrom < toPointId →
      (∀ m ∈ s.conns,m.TakesPart → m.Waits (toPointId-Conn.savepointEnumSessionFrom)) ∨
      ∀ m ∈ s.conns,m.TakesPart → Conn.beforeSavepoint true
        (toPointId-Conn.savepointEnumSessionFrom) m.pendingTrxSql.reverse=none
  | .connSavepoint i => ∀ m,s.conns[i]?=some m → m.TakesPart → m.inTrans=false → m.sessionNames=[]
  | .connRollback i pointId => ∀ m,s.conns[i]?=some m → m.TakesPart →
      ∀ r,rewind (false,pointId) m.points=some r → sessionOf r.2=m.sessionPoints
  | _ => True

/-! ## The server -/

/-- A command that waits does not change the data. -/
theorem execSql_visible (store : Store Unit (Bool×ℕ) δ) (sql : Option Conn.Sql) :
    (execSql store sql).visible=store.visible := by
  have hpoint : ∀ name : Bool×ℕ,(store.setPoint name).visible=store.visible := by
    intro name
    unfold Store.setPoint Store.visible
    cases store.trx with
    | none => rfl
    | some t => rfl
  cases sql with
  | none => rfl
  | some sql =>
    cases sql with
    | savepoint ofSession pointId => exact hpoint _
    | _ => rfl

/-- The commands that wait do not change the data. -/
theorem flushTo_visible (store : Store Unit (Bool×ℕ) δ) (pending : List (Option Conn.Sql)) :
    (flushTo store pending).visible=store.visible := by
  unfold flushTo
  induction pending generalizing store with
  | nil => rfl
  | cons sql pending ih =>
    rw [List.foldl_cons,ih,execSql_visible]

/-- Some commands, and then others. -/
theorem flushTo_append (store : Store Unit (Bool×ℕ) δ) (l l' : List (Option Conn.Sql)) :
    flushTo store (l++l')=flushTo (flushTo store l) l' := List.foldl_append

/-- A transaction stays open. -/
theorem flushTo_open {store : Store Unit (Bool×ℕ) δ} (h : store.trx.isSome=true)
    (pending : List (Option Conn.Sql)) : (flushTo store pending).trx.isSome=true := by
  unfold flushTo
  induction pending generalizing store with
  | nil => exact h
  | cons sql pending ih =>
    rw [List.foldl_cons]
    apply ih
    cases sql with
    | none => rfl
    | some sql =>
      cases sql with
      | savepoint ofSession pointId =>
        unfold execSql Store.setPoint
        dsimp only
        rw [Option.isSome_map]
        exact h
      | startTransaction readonly => rfl
      | xaStart xaId => rfl
      | _ => exact h

/-- Savepoints open no transaction. -/
theorem flushTo_points_closed {store : Store Unit (Bool×ℕ) δ} {pending : List (Option Conn.Sql)}
    (hp : ∀ sql ∈ pending,∃ ofSession pointId,sql=some (.savepoint ofSession pointId)) :
    (flushTo store pending).trx.isSome=store.trx.isSome := by
  unfold flushTo
  induction pending generalizing store with
  | nil => rfl
  | cons sql pending ih =>
    rw [List.foldl_cons,ih (fun sql' h => hp sql' (List.mem_cons_of_mem _ h))]
    obtain ⟨ofSession,pointId,rfl⟩ := hp sql List.mem_cons_self
    exact Option.isSome_map

/-- The session savepoints after one of a connection. -/
theorem sessionOf_setPoint_conn (store : Store Unit (Bool×ℕ) δ) (pointId : ℕ) :
    sessionOf (pointsOf (store.setPoint (false,pointId)))=sessionOf (pointsOf store) := by
  unfold Store.setPoint pointsOf
  cases store.trx with
  | none => rfl
  | some t =>
    change sessionOf (((false,pointId),t.data)::t.points.filter _)=sessionOf t.points
    unfold sessionOf
    rw [List.filterMap_cons_none rfl,List.filterMap_filter]
    congr 1
    funext p
    obtain ⟨⟨ofSession,n⟩,d⟩ := p
    cases ofSession with
    | false =>
      by_cases hn : n=pointId
      · simp [hn]
      · simp [hn]
    | true => rfl

/-- The session savepoints after one more. -/
theorem sessionOf_setPoint {store : Store Unit (Bool×ℕ) δ} (h : store.trx.isSome=true)
    (pointId : ℕ) : sessionOf (pointsOf (store.setPoint (true,pointId)))=
      (pointId,store.visible)::(sessionOf (pointsOf store)).filter fun p => decide (p.1≠pointId) := by
  unfold Store.setPoint pointsOf Store.visible
  cases ht : store.trx with
  | none =>
    rw [ht] at h
    cases h
  | some t =>
    change (pointId,t.data)::sessionOf (t.points.filter _)=(pointId,t.data)::(sessionOf t.points).filter _
    refine congrArg (List.cons _) ?_
    unfold sessionOf
    rw [List.filterMap_filter,List.filter_filterMap]
    congr 1
    funext p
    obtain ⟨⟨ofSession,n⟩,d⟩ := p
    cases ofSession with
    | false => rfl
    | true =>
      by_cases hn : n=pointId
      · simp [hn,Option.filter]
      · simp [hn,Option.filter]

/-! ## The commands that wait -/

/-- What the loop of `rollback()` finds. -/
theorem beforeSavepoint_eq {ofSession : Bool} {pointId : ℕ} {l before : List (Option Conn.Sql)}
    (h : Conn.beforeSavepoint ofSession pointId l=some before) :
    ∃ later,l=later++some (.savepoint ofSession pointId)::before ∧
      ∀ sql ∈ later,∃ n,sql=some (.savepoint ofSession n) ∧ n≠pointId := by
  induction l with
  | nil => cases h
  | cons sql l ih =>
    match sql,h with
    | some (.savepoint s n),h =>
      rw [Conn.beforeSavepoint] at h
      split_ifs at h with hs hn
      · cases h
        exact ⟨[],by rw [hs,hn]; rfl,fun _ hm => absurd hm List.not_mem_nil⟩
      · obtain ⟨later,hl,hlater⟩ := ih h
        refine ⟨some (.savepoint s n)::later,by rw [hl]; rfl,fun sql hm => ?_⟩
        rcases List.mem_cons.mp hm with rfl | hm
        · exact ⟨n,by rw [hs],hn⟩
        · exact hlater sql hm

/-- The loop of `rollback()` passes by the other savepoints. -/
theorem beforeSavepoint_append {ofSession : Bool} {pointId : ℕ} {later : List (Option Conn.Sql)}
    (h : ∀ sql ∈ later,∃ n,sql=some (.savepoint ofSession n) ∧ n≠pointId)
    (l : List (Option Conn.Sql)) : Conn.beforeSavepoint ofSession pointId (later++l)=
      Conn.beforeSavepoint ofSession pointId l := by
  induction later with
  | nil => rfl
  | cons sql later ih =>
    obtain ⟨n,rfl,hn⟩ := h _ List.mem_cons_self
    rw [List.cons_append,Conn.beforeSavepoint,if_pos rfl,if_neg hn]
    exact ih fun sql hm => h sql (List.mem_cons_of_mem _ hm)

/-- The loop of `rollback()` finds a savepoint after which there are only others of its kind. -/
theorem beforeSavepoint_found {ofSession : Bool} {pointId : ℕ} {later : List (Option Conn.Sql)}
    (h : ∀ sql ∈ later,∃ n,sql=some (Conn.Sql.savepoint ofSession n))
    (hm : some (Conn.Sql.savepoint ofSession pointId) ∈ later) (l : List (Option Conn.Sql)) :
    Conn.beforeSavepoint ofSession pointId (later++l)≠none := by
  induction later with
  | nil => exact absurd hm List.not_mem_nil
  | cons sql later ih =>
    obtain ⟨n,rfl⟩ := h _ List.mem_cons_self
    rw [List.cons_append,Conn.beforeSavepoint,if_pos rfl]
    by_cases hn : n=pointId
    · rw [if_pos hn]
      exact Option.some_ne_none _
    · rw [if_neg hn]
      rcases List.mem_cons.mp hm with he | hm
      · cases he
        exact absurd rfl hn
      · exact ih (fun sql hs => h sql (List.mem_cons_of_mem _ hs)) hm

/-- The session savepoints when others of the session are made over them. -/
theorem sessionOf_flushTo {store : Store Unit (Bool×ℕ) δ} (h : store.trx.isSome=true)
    {later : List (Option Conn.Sql)} {pointId : ℕ} {d : δ} {rest : List (ℕ×δ)}
    (hlater : ∀ sql ∈ later,∃ n,sql=some (.savepoint true n) ∧ n≠pointId) {above : List (ℕ×δ)}
    (hs : sessionOf (pointsOf store)=above++(pointId,d)::rest) (ha : pointId ∉ above.map Prod.fst) :
    ∃ above' rest',sessionOf (pointsOf (flushTo store later))=above'++(pointId,d)::rest' ∧
      pointId ∉ above'.map Prod.fst ∧
      ((∀ n,some (Conn.Sql.savepoint true n) ∈ later → n ∉ rest.map Prod.fst) → rest'=rest) := by
  induction later generalizing store above rest with
  | nil => exact ⟨above,rest,hs,ha,fun _ => rfl⟩
  | cons sql later ih =>
    obtain ⟨n,rfl,hn⟩ := hlater _ List.mem_cons_self
    have hopen : (execSql store (some (.savepoint true n))).trx.isSome=true :=
      flushTo_open h [some (.savepoint true n)]
    have hnext : sessionOf (pointsOf (execSql store (some (.savepoint true n))))=
        ((n,store.visible)::above.filter fun p => decide (p.1≠n))++
          (pointId,d)::rest.filter fun p => decide (p.1≠n) := by
      have hset := sessionOf_setPoint h n
      have hpos : ((pointId,d)::rest).filter (fun p => decide (p.1≠n))=
          (pointId,d)::rest.filter fun p => decide (p.1≠n) :=
        List.filter_cons_of_pos (decide_eq_true (Ne.symm hn))
      rw [hs,List.filter_append,hpos] at hset
      exact hset
    have habove : pointId ∉ ((n,store.visible)::above.filter fun p => decide (p.1≠n)).map Prod.fst := by
      rw [List.map_cons,List.mem_cons]
      rintro (he | hm)
      · exact hn he.symm
      · obtain ⟨p,hp,he⟩ := List.mem_map.mp hm
        exact ha (List.mem_map.mpr ⟨p,List.mem_of_mem_filter hp,he⟩)
    obtain ⟨above',rest',hs',ha',hrest⟩ := ih hopen
      (fun sql hm => hlater sql (List.mem_cons_of_mem _ hm)) hnext habove
    refine ⟨above',rest',hs',ha',fun hnew => ?_⟩
    have hkeep : (rest.filter fun p => decide (p.1≠n))=rest := by
      refine List.filter_eq_self.mpr fun p hp => decide_eq_true fun he => ?_
      exact hnew n List.mem_cons_self (List.mem_map.mpr ⟨p,hp,he⟩)
    rw [hkeep] at hrest
    exact hrest fun k hk => hnew k (List.mem_cons_of_mem _ hk)

/-- The commands of a connection, where a savepoint is found that waits. -/
theorem pending_eq {m : Member δ} {ofSession : Bool} {pointId : ℕ} {before : List (Option Conn.Sql)}
    (h : Conn.beforeSavepoint ofSession pointId m.pendingTrxSql.reverse=some before) :
    ∃ later,m.pendingTrxSql=before.reverse++some (.savepoint ofSession pointId)::later ∧
      ∀ sql ∈ later,∃ n,sql=some (.savepoint ofSession n) ∧ n≠pointId := by
  obtain ⟨later,hl,hlater⟩ := beforeSavepoint_eq h
  refine ⟨later.reverse,?_,fun sql hm => hlater sql (List.mem_reverse.mp hm)⟩
  rw [←List.reverse_reverse m.pendingTrxSql,hl,List.reverse_append,List.reverse_cons,
    List.append_assoc]
  rfl

/-- The transaction starts before a savepoint that waits. -/
theorem takesPart_before {m : Member δ} {ofSession : Bool} {pointId : ℕ}
    {before : List (Option Conn.Sql)}
    (h : Conn.beforeSavepoint ofSession pointId m.pendingTrxSql.reverse=some before) :
    (flushTo m.store before.reverse).trx.isSome=true ↔ m.TakesPart := by
  obtain ⟨later,hpending,hlater⟩ := pending_eq h
  have hpoints : ∀ sql ∈ some (.savepoint ofSession pointId)::later,
      ∃ ofSession pointId,sql=some (Conn.Sql.savepoint ofSession pointId) := by
    intro sql hm
    rcases List.mem_cons.mp hm with rfl | hm
    · exact ⟨ofSession,pointId,rfl⟩
    · obtain ⟨n,hn,-⟩ := hlater sql hm
      exact ⟨ofSession,n,hn⟩
  have hsame := @flushTo_points_closed _ (flushTo m.store before.reverse) _ hpoints
  unfold Member.TakesPart Member.flushed
  rw [hpending,flushTo_append,hsame]

/-- A session savepoint that waits is the last one, but for those that wait after it. -/
theorem sessionPoints_waiting {m : Member δ} (ht : m.TakesPart) {pointId : ℕ}
    {before : List (Option Conn.Sql)}
    (h : Conn.beforeSavepoint true pointId m.pendingTrxSql.reverse=some before) :
    ∃ above rest,m.sessionPoints=above++(pointId,m.store.visible)::rest ∧
      pointId ∉ above.map Prod.fst ∧
      ((∀ n,some (Conn.Sql.savepoint true n) ∈ m.pendingTrxSql.drop before.length →
        n ∉ (sessionOf (pointsOf (flushTo m.store before.reverse))).map Prod.fst) →
        rest=sessionOf (pointsOf (flushTo m.store before.reverse))) := by
  obtain ⟨later,hpending,hlater⟩ := pending_eq h
  have hopen := (takesPart_before h).mpr ht
  have hset := sessionOf_setPoint hopen pointId
  rw [flushTo_visible] at hset
  have hpoint : (execSql (flushTo m.store before.reverse)
      (some (.savepoint true pointId))).trx.isSome=true :=
    flushTo_open hopen [some (.savepoint true pointId)]
  obtain ⟨above,rest,hs,ha,hrest⟩ := @sessionOf_flushTo _ _ hpoint later pointId
    m.store.visible _ hlater [] hset List.not_mem_nil
  refine ⟨above,rest,?_,ha,fun hnew => ?_⟩
  · unfold Member.sessionPoints Member.points Member.flushed
    rw [hpending,flushTo_append]
    exact hs
  · have hdrop : m.pendingTrxSql.drop before.length=some (.savepoint true pointId)::later := by
      rw [hpending,←List.length_reverse,List.drop_left]
    rw [hdrop] at hnew
    have hkeep : ((sessionOf (pointsOf (flushTo m.store before.reverse))).filter
        fun p => decide (p.1≠pointId))=sessionOf (pointsOf (flushTo m.store before.reverse)) := by
      refine List.filter_eq_self.mpr fun p hp => decide_eq_true fun he => ?_
      exact hnew pointId List.mem_cons_self (List.mem_map.mpr ⟨p,hp,he⟩)
    rw [hkeep] at hrest
    exact hrest fun n hn => hnew n (List.mem_cons_of_mem _ hn)

/-- What a server finds of the session savepoints. -/
theorem rewind_session (points : List ((Bool×ℕ)×δ)) (pointId : ℕ) :
    match rewind (true,pointId) points with
    | some r => ∃ above rest,sessionOf points=above++sessionOf r.2 ∧ pointId ∉ above.map Prod.fst ∧
        sessionOf r.2=(pointId,r.1)::rest
    | none => pointId ∉ (sessionOf points).map Prod.fst := by
  induction points with
  | nil => exact List.not_mem_nil
  | cons p points ih =>
    obtain ⟨⟨ofSession,n⟩,d⟩ := p
    rw [rewind]
    by_cases hp : (ofSession,n)=(true,pointId)
    · rw [if_pos hp]
      cases hp
      exact ⟨[],sessionOf points,rfl,List.not_mem_nil,rfl⟩
    · rw [if_neg hp]
      cases ofSession with
      | false => exact ih
      | true =>
        have hn : pointId≠n := fun he => hp (by rw [he])
        cases hr : rewind (true,pointId) points with
        | none =>
          rw [hr] at ih
          change pointId ∉ n::(sessionOf points).map Prod.fst
          rw [List.mem_cons]
          exact fun hm => hm.elim hn ih
        | some r =>
          rw [hr] at ih
          obtain ⟨above,rest,ha,hno,hrest⟩ := ih
          refine ⟨(n,d)::above,rest,?_,?_,hrest⟩
          · change (n,d)::sessionOf points=_
            rw [ha]
            rfl
          · rw [List.map_cons,List.mem_cons]
            exact fun hm => hm.elim hn hno

/-! ## What is common to the connections -/

/-- A connection has these session savepoints. -/
structure Fits (names : List ℕ) (m : Member δ) : Prop where
  /-- The numbers. -/
  same : m.sessionNames=names
  /-- The data are those when the savepoint was made. -/
  marks : ∀ p ∈ m.sessionPoints,m.mark p.1=p.2
  /-- The client knows whether the server has a transaction. -/
  flag : m.inTrans=m.store.trx.isSome
  /-- Before the transaction starts, `rollback()` finds all session savepoints. -/
  found : m.inTrans=false → ∀ n ∈ names,Conn.beforeSavepoint true n m.pendingTrxSql.reverse≠none

/-- The connections that take part in the transaction have the same session savepoints. -/
def Inv (s : Session δ) : Prop := ∃ names,∀ m ∈ s.conns,m.TakesPart → Fits names m

/-- A session savepoint of a server, with its data. -/
theorem mem_of_rewind {points : List ((Bool×ℕ)×δ)} {pointId : ℕ} {r : δ×List ((Bool×ℕ)×δ)}
    (h : rewind (true,pointId) points=some r) : (pointId,r.1) ∈ sessionOf points := by
  have hr := rewind_session points pointId
  rw [h] at hr
  obtain ⟨above,rest,ha,-,hrest⟩ := hr
  rw [ha,hrest]
  exact List.mem_append_right _ List.mem_cons_self

/-- A session savepoint of a server is found. -/
theorem rewind_eq_none {points : List ((Bool×ℕ)×δ)} {pointId : ℕ} :
    rewind (true,pointId) points=none ↔ pointId ∉ (sessionOf points).map Prod.fst := by
  constructor
  · intro h
    have hr := rewind_session points pointId
    rw [h] at hr
    exact hr
  · intro h
    cases hr : rewind (true,pointId) points with
    | none => rfl
    | some r => exact absurd (List.mem_map.mpr ⟨_,mem_of_rewind hr,rfl⟩) h

/-- The rollback on a server with an open transaction. -/
theorem rollbackTo_eq {store : Store Unit (Bool×ℕ) δ} (h : store.trx.isSome=true) (name : Bool×ℕ) :
    match rewind name (pointsOf store) with
    | some r => ∃ store',store.rollbackTo name=some store' ∧ pointsOf store'=r.2 ∧
        store'.visible=r.1 ∧ store'.trx.isSome=true
    | none => store.rollbackTo name=none := by
  unfold Store.rollbackTo pointsOf
  cases ht : store.trx with
  | none =>
    rw [ht] at h
    cases h
  | some t =>
    simp only [Option.map_some,Option.getD_some]
    cases hr : rewind name t.points with
    | none => rfl
    | some r => exact ⟨_,rfl,rfl,rfl,rfl⟩

/-- A rollback to a session savepoint on a connection: it is accepted if there is one, and
restores the data. -/
theorem Fits.rollbackTo {names : List ℕ} {m : Member δ} (h : Fits names m) (ht : m.TakesPart)
    (pointId : ℕ) :
    (pointId ∈ names → (m.rollbackTo true pointId).2=true ∧
      (m.rollbackTo true pointId).1.store.visible=m.mark pointId) ∧
    (pointId ∉ names → (m.rollbackTo true pointId).2=false) := by
  have hsame : (sessionOf (pointsOf m.flushed)).map Prod.fst=names := h.same
  unfold Member.rollbackTo
  cases hb : Conn.beforeSavepoint true pointId m.pendingTrxSql.reverse with
  | some before =>
    obtain ⟨above,rest,hs,-,-⟩ := sessionPoints_waiting ht hb
    have hm : (pointId,m.store.visible) ∈ m.sessionPoints :=
      hs ▸ List.mem_append_right _ List.mem_cons_self
    refine ⟨fun _ => ⟨rfl,(h.marks _ hm).symm⟩,fun hno => absurd ?_ hno⟩
    exact h.same ▸ List.mem_map.mpr ⟨_,hm,rfl⟩
  | none =>
    dsimp only
    by_cases hi : m.inTrans=true
    · rw [if_pos hi]
      have hr := rollbackTo_eq ht (true,pointId)
      constructor
      · intro hin
        cases hw : rewind (true,pointId) (pointsOf m.flushed) with
        | none => exact absurd (hsame ▸ hin) (rewind_eq_none.mp hw)
        | some r =>
          rw [hw] at hr
          obtain ⟨store',hs,-,hv,-⟩ := hr
          rw [hs]
          exact ⟨rfl,hv.trans (h.marks _ (mem_of_rewind hw)).symm⟩
      · intro hno
        have hw : rewind (true,pointId) (pointsOf m.flushed)=none :=
          rewind_eq_none.mpr fun hm => hno (hsame ▸ hm)
        rw [hw] at hr
        rw [hr]
    · rw [if_neg hi]
      exact ⟨(fun hin => absurd hb (h.found (Bool.not_eq_true _ ▸ hi) _ hin)),fun _ => rfl⟩

/-- Where the connections have the same savepoints, a rollback is accepted by all of them or by
none. -/
theorem Inv.uniform {s : Session δ} (h : Inv s) : Uniform s := by
  obtain ⟨names,hfits⟩ := h
  intro pointId
  by_cases hin : pointId ∈ names
  · exact Or.inl fun m hm ht => ((hfits m hm ht).rollbackTo ht pointId).1 hin
  · exact Or.inr fun m hm ht => ((hfits m hm ht).rollbackTo ht pointId).2 hin

/-! ## Every event -/

/-- A connection without a transaction has none on the server. -/
theorem trx_none_of_not_takesPart {m : Member δ} (h : ¬m.TakesPart) : m.store.trx=none := by
  cases ht : m.store.trx with
  | none => rfl
  | some t =>
    refine absurd (flushTo_open ?_ m.pendingTrxSql) h
    rw [ht]
    rfl

/-- What the client knows, before a transaction is started. -/
theorem trx_none {m : Member δ} (hflag : m.TakesPart → m.inTrans=m.store.trx.isSome)
    (hi : ¬m.inTrans=true) : m.store.trx=none := by
  by_cases ht : m.TakesPart
  · rw [hflag ht] at hi
    exact Option.not_isSome_iff_eq_none.mp hi
  · exact trx_none_of_not_takesPart ht

/-- After `commit()` there is no transaction. -/
theorem commit_ended {m : Member δ} (hflag : m.TakesPart → m.inTrans=m.store.trx.isSome)
    (refused : Bool) : (m.commit refused).pendingTrxSql=[] ∧ (m.commit refused).store.trx=none ∧
      (m.commit refused).inTrans=false := by
  unfold Member.commit
  by_cases hi : m.inTrans=true
  · rw [if_pos hi]
    refine ⟨rfl,?_,rfl⟩
    cases refused with
    | false => rfl
    | true => rfl
  · have hnone := trx_none hflag hi
    rw [if_neg hi]
    exact ⟨rfl,hnone,Bool.not_eq_true _ ▸ hi⟩

/-- After `rollback()` there is no transaction. -/
theorem rollbackAll_ended {m : Member δ} (hflag : m.TakesPart → m.inTrans=m.store.trx.isSome)
    (lost : Bool) : ¬(m.rollbackAll lost).TakesPart := by
  unfold Member.rollbackAll
  by_cases hi : m.inTrans=true
  · rw [if_pos hi]
    cases lost with
    | false => exact Bool.false_ne_true
    | true => exact Bool.false_ne_true
  · rw [if_neg hi]
    have hnone := trx_none hflag hi
    unfold Member.TakesPart Member.flushed
    change ¬m.store.trx.isSome=true
    rw [hnone]
    exact Bool.false_ne_true

/-- The command that starts a transaction. -/
theorem execSql_startSql (store : Store Unit (Bool×ℕ) δ) (connectionId : Option ℕ)
    (options : Conn.TrxOptions) : execSql store (startSql connectionId options)=store.start () := by
  unfold startSql
  split_ifs with hx
  · cases connectionId with
    | none => rfl
    | some id => rfl
  · rfl

/-- After `startTrx()` there are no savepoints. -/
theorem fits_startTrx {m : Member δ} (ht : m.store.trx=none) (hi : m.inTrans=false)
    (options : Conn.TrxOptions) : Fits [] (m.startTrx options) := by
  have hpoints : (m.startTrx options).sessionPoints=[] := by
    unfold Member.sessionPoints Member.points Member.flushed flushTo Member.startTrx
    rw [List.foldl_cons,execSql_startSql]
    rfl
  refine ⟨?_,?_,?_,?_⟩
  · unfold Member.sessionNames
    rw [hpoints]
    rfl
  · intro p hp
    rw [hpoints] at hp
    exact absurd hp List.not_mem_nil
  · change m.inTrans=m.store.trx.isSome
    rw [ht,hi]
    rfl
  · exact fun _ n hn => absurd hn List.not_mem_nil

/-- `startTrx()` of the session. -/
theorem inv_startTrx {s : Session δ}
    (h : ∀ m ∈ s.conns,m.TakesPart → m.inTrans=m.store.trx.isSome) (options : Conn.TrxOptions)
    (refused : List ℕ) : Inv (s.startTrx options refused) := by
  have hcommit : ∀ m ∈ s.conns.mapIdx (fun i m => m.commit (refused.contains i)),
      m.pendingTrxSql=[] ∧ m.store.trx=none ∧ m.inTrans=false := by
    intro m hm
    obtain ⟨i,hi,rfl⟩ := List.mem_mapIdx.mp hm
    exact commit_ended (h _ (List.getElem_mem hi)) _
  refine ⟨[],?_⟩
  unfold Session.startTrx
  dsimp only
  split_ifs with hfail
  · intro m hm ht
    obtain ⟨hp,hs,-⟩ := hcommit m hm
    unfold Member.TakesPart Member.flushed at ht
    rw [hp] at ht
    change m.store.trx.isSome=true at ht
    rw [hs] at ht
    cases ht
  · intro m hm _
    obtain ⟨m',hm',rfl⟩ := List.mem_map.mp hm
    obtain ⟨-,hs,hi⟩ := hcommit m' hm'
    exact fits_startTrx hs hi options

/-- `rollback(0)` of a connection. -/
theorem fits_rollbackChain {m : Member δ} (hflag : m.TakesPart → m.inTrans=m.store.trx.isSome)
    (lost : Bool) (options : Conn.TrxOptions) (ht : (m.rollbackChain lost options).TakesPart) :
    Fits [] (m.rollbackChain lost options) := by
  unfold Member.rollbackChain at ht ⊢
  by_cases hi : m.inTrans=true
  · rw [if_pos hi] at ht ⊢
    split_ifs at ht ⊢ with hl
    · exact fits_startTrx rfl rfl options
    · exact ⟨rfl,(fun p hp => absurd hp List.not_mem_nil),hi,
        fun _ n hn => absurd hn List.not_mem_nil⟩
  · rw [if_neg hi] at ht
    change m.store.trx.isSome=true at ht
    rw [trx_none hflag hi] at ht
    cases ht

/-- The savepoints of a session up to a number, as a new connection makes them. -/
theorem sessionOf_range {store : Store Unit (Bool×ℕ) δ} (h : store.trx.isSome=true)
    (hnone : pointsOf store=[]) (n : ℕ) :
    sessionOf (pointsOf (flushTo store ((List.range n).map fun i => some (.savepoint true (i+1)))))=
      (List.range n).reverse.map fun i => (i+1,store.visible) := by
  induction n with
  | zero =>
    change sessionOf (pointsOf store)=[]
    rw [hnone]
    rfl
  | succ n ih =>
    rw [List.range_succ,List.map_append,flushTo_append,List.reverse_append]
    change sessionOf (pointsOf ((flushTo store _).setPoint (true,n+1)))=_
    rw [sessionOf_setPoint (flushTo_open h _),ih,flushTo_visible]
    refine congrArg (List.cons _) (List.filter_eq_self.mpr fun p hp => decide_eq_true ?_)
    obtain ⟨i,hi,rfl⟩ := List.mem_map.mp hp
    have hlt := List.mem_range.mp (List.mem_reverse.mp hi)
    exact fun he => absurd (Nat.succ.inj he) (Nat.ne_of_lt hlt)

/-- A new connection. -/
theorem inv_conn {s : Session δ} (h : Inv s) {data : δ} (hc : Careful s (.conn data)) :
    Inv (s.conn data) := by
  obtain ⟨names,hfits⟩ := h
  cases ho : s.trxOptions with
  | none =>
    refine ⟨names,fun m hm ht => ?_⟩
    rcases List.mem_append.mp hm with hm | hm
    · exact hfits m hm ht
    · rw [List.mem_singleton.mp hm] at ht
      unfold Member.TakesPart Member.flushed at ht
      rw [flushTo_points_closed] at ht
      · cases ht
      · intro sql hs
        rw [ho] at hs
        obtain ⟨i,-,rfl⟩ := List.mem_map.mp hs
        exact ⟨true,i+1,rfl⟩
  | some options =>
    refine ⟨(List.range s.savepointEnum).reverse.map fun i => i+1,fun m hm ht => ?_⟩
    rcases List.mem_append.mp hm with hm | hm
    · have hsame := hc (by rw [ho]; exact Option.some_ne_none _) m hm ht
      have hf := hfits m hm ht
      exact hsame ▸ hf.same ▸ hf
    · rw [List.mem_singleton.mp hm,ho]
      have hpoints : Member.sessionPoints (δ:=δ) {
          store := ⟨data,none⟩,mark := fun _ => data
          pendingTrxSql := ((some options).map (startSql none)).toList++
            (List.range s.savepointEnum).map fun i => some (.savepoint true (i+1))}=
          (List.range s.savepointEnum).reverse.map fun i => (i+1,data) := by
        unfold Member.sessionPoints Member.points Member.flushed
        rw [flushTo_append]
        have hstart : flushTo (⟨data,none⟩ : Store Unit (Bool×ℕ) δ)
            ((some options).map (startSql none)).toList=⟨data,some ⟨(),data,[]⟩⟩ :=
          execSql_startSql _ none options
        rw [hstart]
        exact sessionOf_range rfl rfl _
      refine ⟨?_,?_,rfl,fun _ n hn => ?_⟩
      · unfold Member.sessionNames
        rw [hpoints,List.map_map]
        rfl
      · intro p hp
        rw [hpoints] at hp
        obtain ⟨i,-,rfl⟩ := List.mem_map.mp hp
        rfl
      · obtain ⟨i,hi,rfl⟩ := List.mem_map.mp hn
        rw [List.reverse_append]
        refine beforeSavepoint_found ?_ ?_ _
        · intro sql hs
          obtain ⟨j,-,rfl⟩ := List.mem_map.mp (List.mem_reverse.mp hs)
          exact ⟨j+1,rfl⟩
        · exact List.mem_reverse.mpr (List.mem_map.mpr ⟨i,List.mem_reverse.mp hi,rfl⟩)

/-- A savepoint that a connection has in addition leaves its part in the transaction. -/
theorem takesPart_concat {m : Member δ} (ofSession : Bool) (pointId : ℕ) :
    (flushTo m.store (m.pendingTrxSql++[some (.savepoint ofSession pointId)])).trx.isSome=true ↔
      m.TakesPart := by
  rw [flushTo_append,flushTo_points_closed]
  · rfl
  · intro sql hs
    exact ⟨ofSession,pointId,List.mem_singleton.mp hs⟩

/-- `savepoint()` of the session. -/
theorem inv_savepoint {s : Session δ} (h : Inv s) : Inv s.savepoint := by
  obtain ⟨names,hfits⟩ := h
  refine ⟨(s.savepointEnum+1)::names.filter fun n => decide (n≠s.savepointEnum+1),fun m hm ht => ?_⟩
  obtain ⟨m,hmem,rfl⟩ := List.mem_map.mp hm
  have ht : m.TakesPart := (takesPart_concat true (s.savepointEnum+1)).mp ht
  have hf := hfits m hmem ht
  have hpoints : (m.sessionSavepoint (s.savepointEnum+1)).sessionPoints=
      (s.savepointEnum+1,m.store.visible)::m.sessionPoints.filter
        fun p => decide (p.1≠s.savepointEnum+1) := by
    have hset := @sessionOf_setPoint _ m.flushed ht (s.savepointEnum+1)
    unfold Member.flushed at hset
    rw [flushTo_visible] at hset
    unfold Member.sessionPoints Member.points Member.flushed Member.sessionSavepoint
    rw [flushTo_append]
    exact hset
  refine ⟨?_,?_,hf.flag,fun hi n hn => ?_⟩
  · unfold Member.sessionNames
    rw [hpoints,List.map_cons,←hf.same]
    refine congrArg (List.cons _) ?_
    unfold Member.sessionNames
    rw [List.filter_map]
    rfl
  · intro p hp
    rw [hpoints] at hp
    unfold Member.sessionSavepoint
    dsimp only
    rcases List.mem_cons.mp hp with rfl | hp
    · exact if_pos rfl
    · obtain ⟨hp,hne⟩ := List.mem_filter.mp hp
      rw [if_neg (of_decide_eq_true hne)]
      exact hf.marks p hp
  · unfold Member.sessionSavepoint
    rw [List.reverse_append]
    change Conn.beforeSavepoint true n (some (.savepoint true _)::m.pendingTrxSql.reverse)≠none
    rw [Conn.beforeSavepoint,if_pos rfl]
    split_ifs with he
    · exact Option.some_ne_none _
    · rcases List.mem_cons.mp hn with hn | hn
      · exact absurd hn.symm he
      · exact hf.found hi n (List.mem_of_mem_filter hn)

/-- A query. -/
theorem fits_query {names : List ℕ} {m : Member δ} {connectionId : ℕ} {effect : Effect δ}
    {refused : Bool} (ht : (m.query connectionId effect refused).TakesPart) :
    m.TakesPart ∧ (Fits names m → Fits names (m.query connectionId effect refused)) := by
  cases effect with
  | commit => cases ht
  | rollback => cases ht
  | write f =>
    cases hs : m.flushed.trx with
    | none =>
      unfold Member.TakesPart Member.flushed Member.query at ht
      change (m.flushed.write f).trx.isSome=true at ht
      unfold Store.write at ht
      rw [hs] at ht
      exact absurd ht Bool.false_ne_true
    | some t =>
      have hm : m.TakesPart := by
        unfold Member.TakesPart
        rw [hs]
        rfl
      have hstore : (m.query connectionId (.write f) refused).store=
          {m.flushed with trx := some {t with data := f t.data}} := by
        unfold Member.query Store.write
        dsimp only
        rw [hs]
      have hpoints : (m.query connectionId (.write f) refused).sessionPoints=m.sessionPoints := by
        unfold Member.sessionPoints Member.points
        change sessionOf (pointsOf (m.query connectionId (.write f) refused).store)=_
        rw [hstore]
        unfold pointsOf
        rw [hs]
        rfl
      refine ⟨hm,fun hf => ?_⟩
      have hflag : (m.query connectionId (.write f) refused).inTrans=true := by
        have hstatus : m.status=true := by
          unfold Member.status
          split_ifs with hp
          · rw [hf.flag]
            have hflushed : m.flushed=m.store := by
              unfold Member.flushed
              rw [hp]
              rfl
            rw [←hflushed,hs]
            rfl
          · exact hm
        have hsome : (m.query connectionId (.write f) refused).store.trx.isSome=true := by
          rw [hstore]
          rfl
        cases refused with
        | true => exact hstatus
        | false => exact hsome
      refine ⟨?_,?_,?_,?_⟩
      · unfold Member.sessionNames
        rw [hpoints]
        exact hf.same
      · rw [hpoints]
        exact hf.marks
      · rw [hflag,hstore]
        rfl
      · intro hi
        rw [hflag] at hi
        cases hi

/-- `savepoint()` of a connection. -/
theorem fits_savepoint {names : List ℕ} {m : Member δ} (ht : m.savepoint.TakesPart)
    (hc : m.TakesPart → m.inTrans=false → m.sessionNames=[]) :
    m.TakesPart ∧ (Fits names m → Fits names m.savepoint) := by
  have hm : m.TakesPart := (takesPart_concat false (m.savepointEnum+1)).mp ht
  refine ⟨hm,fun hf => ?_⟩
  have hpoints : m.savepoint.sessionPoints=m.sessionPoints := by
    unfold Member.sessionPoints Member.points Member.flushed Member.savepoint
    rw [flushTo_append]
    exact sessionOf_setPoint_conn _ _
  refine ⟨?_,?_,hf.flag,fun hi n hn => ?_⟩
  · unfold Member.sessionNames
    rw [hpoints]
    exact hf.same
  · rw [hpoints]
    exact hf.marks
  · rw [←hf.same,hc hm hi] at hn
    exact absurd hn List.not_mem_nil

/-- The session savepoints, where some of a connection are made over them. -/
theorem sessionOf_flushTo_conn {store : Store Unit (Bool×ℕ) δ} {later : List (Option Conn.Sql)}
    (hlater : ∀ sql ∈ later,∃ n,sql=some (Conn.Sql.savepoint false n)) :
    sessionOf (pointsOf (flushTo store later))=sessionOf (pointsOf store) := by
  unfold flushTo
  induction later generalizing store with
  | nil => rfl
  | cons sql later ih =>
    obtain ⟨n,rfl⟩ := hlater _ List.mem_cons_self
    rw [List.foldl_cons,ih fun sql hm => hlater sql (List.mem_cons_of_mem _ hm)]
    exact sessionOf_setPoint_conn store n

/-- A rollback to a savepoint does not bring a connection into the transaction. -/
theorem takesPart_rollbackTo {m : Member δ} {ofSession : Bool} {pointId : ℕ}
    (ht : (m.rollbackTo ofSession pointId).1.TakesPart) : m.TakesPart := by
  unfold Member.rollbackTo at ht
  cases hb : Conn.beforeSavepoint ofSession pointId m.pendingTrxSql.reverse with
  | some before =>
    rw [hb] at ht
    exact (takesPart_before hb).mp ht
  | none =>
    rw [hb] at ht
    dsimp only at ht
    split_ifs at ht with hi
    · by_contra hno
      have hnone : m.flushed.trx=none := Option.not_isSome_iff_eq_none.mp hno
      have hr : m.flushed.rollbackTo (ofSession,pointId)=none := by
        unfold Store.rollbackTo
        rw [hnone]
      rw [hr] at ht
      exact hno ht
    · exact ht

/-- A rollback that the server accepts or refuses, after what waits. -/
theorem fits_server {names names' : List ℕ} {m : Member δ} (hm : m.TakesPart) (hf : Fits names m)
    {ofSession : Bool} {pointId : ℕ}
    (hnone : rewind (ofSession,pointId) m.points=none → names'=names)
    (hsome : ∀ r,rewind (ofSession,pointId) m.points=some r →
      (sessionOf r.2).map Prod.fst=names' ∧ ∀ p ∈ sessionOf r.2,p ∈ m.sessionPoints) :
    Fits names' (match m.flushed.rollbackTo (ofSession,pointId) with
      | some store => ({m with
          pendingTrxSql := [],store := store,inTrans := store.trx.isSome} : Member δ)
      | none => {m with pendingTrxSql := [],store := m.flushed,inTrans := m.status}) := by
  have hr := rollbackTo_eq hm (ofSession,pointId)
  cases hw : rewind (ofSession,pointId) (pointsOf m.flushed) with
  | none =>
    rw [hw] at hr
    rw [hr,hnone hw]
    have hstatus : m.status=true := by
      unfold Member.status
      split_ifs with hp
      · rw [hf.flag]
        have hflushed : m.flushed=m.store := by
          unfold Member.flushed
          rw [hp]
          rfl
        rw [←hflushed]
        exact hm
      · exact hm
    exact ⟨hf.same,hf.marks,hstatus.trans hm.symm,fun hi => absurd (hstatus.symm.trans hi)
      (Ne.symm Bool.false_ne_true)⟩
  | some r =>
    rw [hw] at hr
    obtain ⟨store',hs,hp,-,hopen⟩ := hr
    rw [hs]
    obtain ⟨hsame,hsub⟩ := hsome r hw
    have hpoints : Member.sessionPoints ({m with
        pendingTrxSql := [],store := store',inTrans := store'.trx.isSome} : Member δ)=
          sessionOf r.2 := by
      unfold Member.sessionPoints Member.points
      change sessionOf (pointsOf store')=_
      rw [hp]
    refine ⟨?_,?_,rfl,fun hi => absurd (hopen.symm.trans hi) (Ne.symm Bool.false_ne_true)⟩
    · unfold Member.sessionNames
      rw [hpoints]
      exact hsame
    · rw [hpoints]
      exact fun p hpm => hf.marks p (hsub p hpm)

/-- `rollback()` of a connection, to one of its own savepoints. -/
theorem fits_connRollback {names : List ℕ} {m : Member δ} {pointId : ℕ} (hm : m.TakesPart)
    (hc : ∀ r,rewind (false,pointId) m.points=some r → sessionOf r.2=m.sessionPoints)
    (hf : Fits names m) : Fits names (m.rollbackTo false pointId).1 := by
  unfold Member.rollbackTo
  cases hb : Conn.beforeSavepoint false pointId m.pendingTrxSql.reverse with
  | some before =>
    obtain ⟨later,hpending,hlater⟩ := pending_eq hb
    have hpoints : Member.sessionPoints ({m with pendingTrxSql := before.reverse} : Member δ)=
        m.sessionPoints := by
      have hconn : ∀ sql ∈ some (.savepoint false pointId)::later,
          ∃ n,sql=some (Conn.Sql.savepoint false n) := by
        intro sql hsql
        rcases List.mem_cons.mp hsql with rfl | hsql
        · exact ⟨pointId,rfl⟩
        · obtain ⟨n,hn,-⟩ := hlater sql hsql
          exact ⟨n,hn⟩
      have hsame := @sessionOf_flushTo_conn _ (flushTo m.store before.reverse) _ hconn
      unfold Member.sessionPoints Member.points Member.flushed
      rw [hpending,flushTo_append,hsame]
    refine ⟨?_,?_,hf.flag,fun hi n hn => ?_⟩
    · unfold Member.sessionNames
      rw [hpoints]
      exact hf.same
    · rw [hpoints]
      exact hf.marks
    · -- the last command that waits is a savepoint of the connection
      refine absurd ?_ (hf.found hi n hn)
      obtain ⟨later',hl,hlater'⟩ := beforeSavepoint_eq hb
      rw [hl]
      cases later' with
      | nil =>
        rw [List.nil_append,Conn.beforeSavepoint,if_neg Bool.false_ne_true]
      | cons sql later' =>
        obtain ⟨k,rfl,-⟩ := hlater' _ List.mem_cons_self
        rw [List.cons_append,Conn.beforeSavepoint,if_neg Bool.false_ne_true]
  | none =>
    dsimp only
    by_cases hi : m.inTrans=true
    · rw [if_pos hi]
      have hserver := @fits_server _ names names m hm hf false pointId (fun _ => rfl) fun r hr => by
        rw [hc r hr]
        exact ⟨hf.same,fun p hp => hp⟩
      cases hs : m.flushed.rollbackTo (false,pointId) with
      | none =>
        rw [hs] at hserver
        exact hserver
      | some store =>
        rw [hs] at hserver
        exact hserver
    · rw [if_neg hi]
      exact hf

/-- What remains of the numbers after one is returned to that waits. -/
def namesBefore (names : List ℕ) (pointId : ℕ) : List ℕ :=
  (names.dropWhile fun n => decide (n≠pointId)).tail

/-- What remains of the numbers after one is returned to on the server. -/
def namesFrom (names : List ℕ) (pointId : ℕ) : List ℕ :=
  if pointId ∈ names then names.dropWhile fun n => decide (n≠pointId) else names

/-- The numbers from the first place of one of them. -/
theorem dropWhile_at {above rest : List ℕ} {pointId : ℕ} (h : pointId ∉ above) :
    (above++pointId::rest).dropWhile (fun n => decide (n≠pointId))=pointId::rest := by
  have hall : ∀ n ∈ above,decide (n≠pointId)=true :=
    fun n hn => decide_eq_true fun he => h (he ▸ hn)
  rw [List.dropWhile_append_of_pos hall,List.dropWhile_cons_of_neg]
  simp

/-- A session savepoint is returned to that waits. -/
theorem fits_waiting {names : List ℕ} {m : Member δ} {pointId : ℕ} (hm : m.TakesPart)
    (hw : m.Waits pointId) (hf : Fits names m) :
    Fits (namesBefore names pointId) (m.rollbackTo true pointId).1 := by
  obtain ⟨before,hb,hnew⟩ := hw
  obtain ⟨above,rest,hs,hno,hrest⟩ := sessionPoints_waiting hm hb
  have hrest := hrest hnew
  have hnames : namesBefore names pointId=rest.map Prod.fst := by
    rw [←hf.same]
    unfold namesBefore Member.sessionNames
    rw [hs,List.map_append,List.map_cons,dropWhile_at hno]
    rfl
  unfold Member.rollbackTo
  rw [hb]
  have hpoints : Member.sessionPoints ({m with pendingTrxSql := before.reverse} : Member δ)=rest :=
    hrest.symm
  refine ⟨?_,?_,hf.flag,fun hi n hn => ?_⟩
  · unfold Member.sessionNames
    rw [hpoints,hnames]
  · intro p hp
    rw [hpoints] at hp
    refine hf.marks p ?_
    rw [hs]
    exact List.mem_append_right _ (List.mem_cons_of_mem _ hp)
  · -- what is removed has other numbers, so the loop comes to what remains
    rw [List.reverse_reverse]
    obtain ⟨later,hpending,hlater⟩ := pending_eq hb
    have hdrop : m.pendingTrxSql.drop before.length=some (.savepoint true pointId)::later := by
      rw [hpending,←List.length_reverse,List.drop_left]
    rw [hdrop,←hrest] at hnew
    have hin : n ∈ names := by
      rw [←hf.same]
      unfold Member.sessionNames
      rw [hs,List.map_append,List.map_cons]
      exact List.mem_append_right _ (List.mem_cons_of_mem _ (hnames ▸ hn))
    have hfound := hf.found hi n hin
    rw [hpending,List.reverse_append,List.reverse_reverse,List.reverse_cons,List.append_assoc] at hfound
    have hother : ∀ sql ∈ later.reverse++[some (Conn.Sql.savepoint true pointId)],
        ∃ k,sql=some (Conn.Sql.savepoint true k) ∧ k≠n := by
      intro sql hsql
      have hne : ∀ k,some (Conn.Sql.savepoint true k) ∈ some (.savepoint true pointId)::later →
          k≠n := fun k hk he => hnew k hk (he ▸ hnames ▸ hn)
      rcases List.mem_append.mp hsql with hsql | hsql
      · obtain ⟨k,rfl,-⟩ := hlater sql (List.mem_reverse.mp hsql)
        exact ⟨k,rfl,hne k (List.mem_cons_of_mem _ (List.mem_reverse.mp hsql))⟩
      · rw [List.mem_singleton.mp hsql]
        exact ⟨pointId,rfl,hne pointId List.mem_cons_self⟩
    rw [←List.append_assoc,beforeSavepoint_append hother] at hfound
    exact hfound

/-- A session savepoint is returned to that does not wait. -/
theorem fits_sent {names : List ℕ} {m : Member δ} {pointId : ℕ} (hm : m.TakesPart)
    (hb : Conn.beforeSavepoint true pointId m.pendingTrxSql.reverse=none) (hf : Fits names m) :
    Fits (namesFrom names pointId) (m.rollbackTo true pointId).1 := by
  unfold Member.rollbackTo
  rw [hb]
  dsimp only
  by_cases hi : m.inTrans=true
  · rw [if_pos hi]
    have hsame : (sessionOf m.points).map Prod.fst=names := hf.same
    have hserver := @fits_server _ names (namesFrom names pointId) m hm hf true pointId
      (fun hr => if_neg (hsame ▸ rewind_eq_none.mp hr)) fun r hr => by
        have hw := rewind_session m.points pointId
        rw [hr] at hw
        obtain ⟨above,rest,hs,hno,hrest⟩ := hw
        refine ⟨?_,fun p hp => ?_⟩
        · have hin : pointId ∈ names := hsame ▸ List.mem_map.mpr ⟨_,mem_of_rewind hr,rfl⟩
          rw [namesFrom,if_pos hin,←hsame,hs,hrest,List.map_append,List.map_cons,dropWhile_at hno]
        · unfold Member.sessionPoints
          rw [hs]
          exact List.mem_append_right _ hp
    cases hs : m.flushed.rollbackTo (true,pointId) with
    | none =>
      rw [hs] at hserver
      exact hserver
    | some store =>
      rw [hs] at hserver
      exact hserver
  · rw [if_neg hi]
    have hnot : pointId ∉ names :=
      fun hin => hf.found (Bool.not_eq_true _ ▸ hi) pointId hin hb
    rw [namesFrom,if_neg hnot]
    exact hf

/-- `rollback()` of the session, with a number. -/
theorem inv_rollback {s : Session δ} (h : Inv s) {toPointId : ℕ} {lost : List ℕ} {xaId1 : String}
    (hc : Careful s (.rollback toPointId lost xaId1)) : Inv (s.rollback toPointId lost xaId1) := by
  obtain ⟨names,hfits⟩ := h
  have hchain : ∀ options,∀ m ∈ s.conns.mapIdx (fun i m => m.rollbackChain (lost.contains i) options),
      m.TakesPart → Fits [] m := by
    intro options m hm ht
    obtain ⟨i,hi,rfl⟩ := List.mem_mapIdx.mp hm
    exact fits_rollbackChain (fun hp => (hfits _ (List.getElem_mem hi) hp).flag) _ options ht
  unfold Session.rollback
  by_cases hzero : toPointId=0
  · rw [if_pos hzero]
    cases ho : s.trxOptions with
    | none => exact ⟨[],hchain {}⟩
    | some options =>
      dsimp only
      split_ifs with hx
      · refine inv_startTrx (fun m hm ht => ?_) _ _
        obtain ⟨i,hi,rfl⟩ := List.mem_mapIdx.mp hm
        exact absurd ht (rollbackAll_ended (fun hp => (hfits _ (List.getElem_mem hi) hp).flag) _)
      · exact ⟨[],hchain options⟩
  · rw [if_neg hzero]
    split_ifs with hle
    · exact ⟨names,hfits⟩
    · rcases hc (not_le.mp hle) with hwait | hsent
      · refine ⟨namesBefore names (toPointId-Conn.savepointEnumSessionFrom),fun m hm ht => ?_⟩
        obtain ⟨m,hmem,rfl⟩ := List.mem_map.mp hm
        have hp := takesPart_rollbackTo ht
        exact fits_waiting hp (hwait m hmem hp) (hfits m hmem hp)
      · refine ⟨namesFrom names (toPointId-Conn.savepointEnumSessionFrom),fun m hm ht => ?_⟩
        obtain ⟨m,hmem,rfl⟩ := List.mem_map.mp hm
        have hp := takesPart_rollbackTo ht
        exact fits_sent hp (hsent m hmem hp) (hfits m hmem hp)

/-- A change of one connection. -/
theorem inv_modify {s : Session δ} (h : Inv s) {i : ℕ} {f : Member δ → Member δ}
    (hf : ∀ names m,s.conns[i]?=some m → (f m).TakesPart →
      m.TakesPart ∧ (Fits names m → Fits names (f m))) :
    Inv {s with conns := s.conns.modify i f} := by
  obtain ⟨names,hfits⟩ := h
  refine ⟨names,fun m hm ht => ?_⟩
  obtain ⟨j,hj⟩ := List.mem_iff_getElem?.mp hm
  rcases modify_get hj with ⟨-,hj⟩ | ⟨m',rfl,hm',rfl⟩
  · exact hfits m (List.mem_of_getElem? hj) ht
  · obtain ⟨hp,hnext⟩ := hf names m' hm' ht
    exact hnext (hfits m' (List.mem_of_getElem? hm') hp)

/-- Every event keeps the savepoints together. -/
theorem inv_step {s s' : Session δ} (h : Inv s) {e : Event δ} (hc : Careful s e)
    (hs : s.step e=some s') : Inv s' := by
  cases e with
  | conn data =>
    cases hs
    exact inv_conn h hc
  | startTrx readonly xaId1 refused =>
    cases hs
    obtain ⟨names,hfits⟩ := h
    exact inv_startTrx (fun m hm ht => (hfits m hm ht).flag) _ _
  | savepoint =>
    cases hs
    exact inv_savepoint h
  | rollback toPointId lost xaId1 =>
    cases hs
    exact inv_rollback h hc
  | query i connectionId effect refused =>
    cases hs
    exact inv_modify h fun names m _ ht => fits_query ht
  | connSavepoint i =>
    cases hs
    exact inv_modify h fun names m hm ht => fits_savepoint ht fun hp hi => hc m hm hp hi
  | connRollback i pointId =>
    cases hs
    refine inv_modify h fun names m hm ht => ?_
    have hp := takesPart_rollbackTo ht
    exact ⟨hp,fits_connRollback hp (hc m hm hp)⟩

/-- In every run in which the session does only what the code deals with, a rollback to each
session savepoint is accepted by all connections that take part, with the data of each, or by
none. -/
theorem session_points_uniform {events : List (Event δ)} {s : Session δ}
    (hc : Meets Session.step Careful ({} : Session δ) events)
    (hs : run Session.step ({} : Session δ) events=some s) : Uniform s := by
  have hnew : Inv ({} : Session δ) := ⟨[],fun m hm => absurd hm List.not_mem_nil⟩
  exact (run_meets (fun _ _ _ h hce hse => inv_step h hce hse) hnew hc hs).uniform

/-- A connection joins after the savepoint was made, both make queries, and the session returns
to the savepoint. -/
def joined : List (Event ℕ) :=
  [.startTrx false "" [],.conn 10,.savepoint,.conn 20,.query 0 1 (.write fun n => n+1) false,
    .query 1 2 (.write fun n => n+2) false,.rollback (Conn.savepointEnumSessionFrom+1) [] ""]

/-- Both have the data that they had. -/
theorem session_points_joined : ∃ s,run Session.step ({} : Session ℕ) joined=some s ∧
    s.conns.map (fun m => m.store.visible)=[10,20] ∧ Uniform s := by
  have hc : Meets Session.step Careful ({} : Session ℕ) joined := by
    refine ⟨trivial,?_,trivial,?_,trivial,trivial,?_,trivial⟩
    · exact fun _ m hm => absurd hm List.not_mem_nil
    · refine fun _ => ?_
      decide +kernel
    · refine fun _ => Or.inr ?_
      decide +kernel
  have hrun : ((run Session.step ({} : Session ℕ) joined).map fun s =>
      s.conns.map fun m => m.store.visible)=some [10,20] := by decide +kernel
  obtain ⟨s,hs,hr⟩ := Option.map_eq_some_iff.mp hrun
  exact ⟨s,hs,hr,session_points_uniform hc hs⟩

/-- Before the transaction starts, one connection makes a savepoint over that of the session: it
refuses to return to that of the session, and the other one accepts. -/
theorem session_point_covered : ¬∀ (events : List (Event ℕ)) s,
    run Session.step ({} : Session ℕ) events=some s → Uniform s := by
  intro h
  have hu := h [.startTrx false "" [],.conn 10,.conn 20,.savepoint,.connSavepoint 0] _ rfl 1
  rcases hu with hall | hnone
  · exact absurd (hall _ List.mem_cons_self rfl).1 (by decide)
  · exact absurd (hnone _ (List.mem_cons_of_mem _ List.mem_cons_self) rfl) (by decide)

end SpiritMysql.SessionPoints
