import SpiritMysql.PreparedTrx
import SpiritMysql.XaOwner

/-!
# Runs with distributed transactions

What each operation of a connection object does to the id of its transaction, and
what every run does to it.
-/

namespace SpiritMysql.Conn.XaOwner

open AsyncAction Errors Protocol EventSystem XaTask

/-- The connection that a query would be sent on is in use already, or it works
until the query is done. -/
def IsReliable (w : World) : Prop :=
  match w.conn.protocol with
  | some p => p.state=.IDLE_IN_POOL → p.isAlive=true ∧ .lost ∉ w.answers
  | none =>
    match w.supply with
    | .pooled p _::_ => p.isAlive=true ∧ .lost ∉ w.answers
    | _ => True

instance (w : World) : Decidable (IsReliable w) := by
  unfold IsReliable
  split
  · infer_instance
  · split <;> infer_instance

/-- A pending transaction with an `xaId1` is not given to a connection that is dead. -/
def Spared (started : Option (String×World)) (w : World) : Prop :=
  started.isSome=true → w.conn.curXaId≠"" → IsReliable w

/-- The transaction with an `xaId1` has ended. -/
def Ended (started : Option (String×World)) (w : World) : Prop :=
  ∀ xaId1 w₀,started=some (xaId1,w₀) → w.conn.curXaId=""

/-- A transaction that has ended needs no connection. -/
theorem Ended.spared {started : Option (String×World)} {w : World} (h : Ended started w) :
    Spared started w := by
  intro hs hne
  obtain ⟨⟨xaId1,w₀⟩,hst⟩ := Option.isSome_iff_exists.mp hs
  exact absurd (h xaId1 w₀ hst) hne

/-- What is put on the list of the pool is about the transaction given. -/
theorem takeCareOf_id {p : MyProtocol} {xaId : String} {killCurQuery : Bool} {t : TakeCare}
    (h : t ∈ takeCareOf p xaId killCurQuery) : t.rollbackPreparedXaId=xaId := by
  unfold takeCareOf at h
  dsimp only at h
  split at h
  · rw [List.mem_singleton.mp h]
  · cases h

namespace Inv

variable {started : Option (String×World)} {w w' : World}

/-- Fields change, and the transaction stays as it is. -/
theorem setFields (h : Inv started w) (hlog : w'.log=w.log) (hgiven : w'.givenUp=w.givenUp)
    (htake : w'.takeCare=w.takeCare)
    (hprotocol : w'.conn.protocol=w.conn.protocol ∨ w.conn.protocol=none ∧
      ∃ p,w'.conn.protocol=some p ∧ p.inTrans=false ∧ p.curCommand=none)
    (hid : w'.conn.curXaId=w.conn.curXaId)
    (happend : w'.conn.curXaIdAppendConn=w.conn.curXaIdAppendConn)
    (hprep : w'.conn.isXaPrepared=w.conn.isXaPrepared)
    (hpend : ∀ sql z,some sql ∈ w'.conn.pendingTrxSql → sql.xaId=some z → some sql ∈ w.conn.pendingTrxSql)
    (hnone : none ∈ w'.conn.pendingTrxSql → none ∈ w.conn.pendingTrxSql)
    (hhead : w.conn.curXaIdAppendConn=true → (∃ rest,w.conn.pendingTrxSql=none::rest) →
      ∃ rest,w'.conn.pendingTrxSql=none::rest) : Inv started w' := by
  refine ⟨⟨?_,?_,?_,?_,?_⟩,?_⟩
  · intro hn
    rw [hprep]
    rcases hprotocol with hp | ⟨_,p,hp,_⟩
    · exact h.held.unprepared (hp ▸ hn)
    · rw [hp] at hn
      cases hn
  · intro p c hp hc
    rcases hprotocol with hp' | ⟨_,q,hq,_,hcur⟩
    · exact h.held.opened p c (hp' ▸ hp) hc
    · rw [hq] at hp
      cases hp
      rw [hcur] at hc
      cases hc
  · intro sql z hm hz
    rw [happend,hid]
    exact h.held.pending sql z (hpend sql z hm hz) hz
  · intro hm
    rw [hid]
    exact h.held.unnamed (hnone hm)
  · intro ha
    have ha' : w.conn.curXaIdAppendConn=true := happend ▸ ha
    obtain ⟨hx,hr,hf⟩ := h.held.waits ha'
    refine ⟨hprep.trans hx,hhead ha' hr,fun p hp => ?_⟩
    rcases hprotocol with hp' | ⟨_,q,hq,hin,hcur⟩
    · exact hf p (hp' ▸ hp)
    · rw [hq] at hp
      cases hp
      exact ⟨hin,hcur⟩
  · intro xaId1 w₀ hs
    have hauto := h.auto xaId1 w₀ hs
    refine hauto.more (hlog.trans (List.append_nil _).symm)
      (hgiven.trans (List.append_nil _).symm) (htake.trans (List.append_nil _).symm)
      (fun e he => by cases he) (fun g hg => by cases hg) (fun t ht => by cases ht)
      (Or.inr ⟨happend,hid⟩) ?_
    intro ha
    rw [hid]
    refine (hauto.owned (happend ▸ ha)).imp id (fun ⟨p,hp,hx⟩ => ?_)
    rcases hprotocol with hp' | ⟨hn,_⟩
    · exact ⟨p,hp'.trans hp,hx⟩
    · rw [hn] at hp
      cases hp

/-- A transaction that is prepared has a complete id. -/
theorem complete_of_prepared (h : Inv started w) (hp : w.conn.isXaPrepared=true) :
    w.conn.curXaIdAppendConn=false := by
  cases ha : w.conn.curXaIdAppendConn with
  | false => rfl
  | true =>
    rw [(h.held.waits ha).1] at hp
    cases hp

/-- The transaction that the object knows to be prepared has the id of the object. -/
theorem preparedXaId (h : Inv started w) (hne : w.conn.preparedXaId≠"") :
    w.conn.curXaIdAppendConn=false ∧ w.conn.curXaId=w.conn.preparedXaId := by
  unfold MyConn.preparedXaId at hne ⊢
  split_ifs at hne ⊢ with hp
  · exact ⟨h.complete_of_prepared hp,rfl⟩
  · exact absurd rfl hne

/-- The transaction ends. What remains to be done is about it. -/
theorem ended (h : Inv started w) (gs : List GivenUp) (ts : List TakeCare) (hlog : w'.log=w.log)
    (hgiven : w'.givenUp=w.givenUp++gs) (htake : w'.takeCare=w.takeCare++ts)
    (hgs : ∀ g ∈ gs,g.rollbackPreparedXaId≠"" → g.rollbackPreparedXaId=w.conn.preparedXaId)
    (hts : ∀ t ∈ ts,t.rollbackPreparedXaId≠"" → t.rollbackPreparedXaId=w.conn.preparedXaId)
    (hprotocol : w'.conn.protocol=none ∨ w'.conn.protocol=w.conn.protocol)
    (hid : w'.conn.curXaId="") (happend : w'.conn.curXaIdAppendConn=false)
    (hprep : w'.conn.isXaPrepared=false)
    (hpend : ∀ pending ∈ w'.conn.pendingTrxSql,∃ sql,pending=some sql ∧ sql.xaId=none) :
    Inv started w' := by
  refine ⟨⟨fun _ => hprep,?_,?_,?_,?_⟩,?_⟩
  · intro p c hp hc
    rcases hprotocol with hp' | hp'
    · rw [hp'] at hp
      cases hp
    · exact h.held.opened p c (hp' ▸ hp) hc
  · intro sql z hm hz
    obtain ⟨sql',he,hx⟩ := hpend _ hm
    cases he
    rw [hx] at hz
    cases hz
  · intro hm
    obtain ⟨sql',he,_⟩ := hpend _ hm
    cases he
  · intro ha
    rw [happend] at ha
    cases ha
  · intro xaId1 w₀ hs
    refine (h.auto xaId1 w₀ hs).more (hlog.trans (List.append_nil _).symm) hgiven htake
      (fun e he => by cases he) ?_ ?_ (Or.inl ⟨happend,hid⟩) (fun _ => Or.inl hid)
    · intro g hg hne
      have he := hgs g hg hne
      rw [he] at hne ⊢
      exact h.preparedXaId hne
    · intro t ht hne
      have he := hts t ht hne
      rw [he] at hne ⊢
      exact h.preparedXaId hne

/-- The connection is given up, and the transaction with it. -/
theorem doEnd (h : Inv started w) (force : Option Force) : Inv started (w.doEnd false force) ∧
    (w.doEnd false force).conn.curXaIdAppendConn=false ∧ (w.doEnd false force).conn.curXaId="" := by
  unfold World.doEnd
  cases hp : w.conn.protocol with
  | none =>
    refine ⟨?_,rfl,rfl⟩
    exact h.ended [] [] rfl (List.append_nil _).symm (List.append_nil _).symm (fun g hg => by cases hg)
      (fun t ht => by cases ht) (Or.inl rfl) rfl rfl rfl (fun _ hm => by cases hm)
  | some p =>
    cases force with
    | none =>
      refine ⟨?_,rfl,rfl⟩
      refine h.ended [_] [] rfl rfl (List.append_nil _).symm (fun g hg _ => ?_)
        (fun t ht => by cases ht) (Or.inl rfl) rfl rfl rfl (fun _ hm => by cases hm)
      cases List.mem_singleton.mp hg
      rfl
    | some f =>
      refine ⟨?_,rfl,rfl⟩
      refine h.ended [_] (takeCareOf p (if f.noRollbackCurXa=true then "" else w.conn.preparedXaId)
        (!f.noKillCurQuery)) rfl rfl rfl (fun g hg hne => ?_) (fun t ht hne => ?_)
        (Or.inl rfl) rfl rfl rfl (fun _ hm => by cases hm)
      · cases List.mem_singleton.mp hg
        dsimp only at hne ⊢
        split_ifs at hne ⊢
        · exact absurd rfl hne
        · rfl
      · have he := takeCareOf_id ht
        rw [he] at hne ⊢
        split_ifs at hne ⊢
        · exact absurd rfl hne
        · rfl

/-- The connection is given up, and the pending commands are kept for another one. -/
theorem doEnd_keep (h : Inv started w) (he : Ended started w) : Inv started (w.doEnd true none) := by
  have hcore : ∀ {w' : World} {gs : List GivenUp},w'.log=w.log → w'.givenUp=w.givenUp++gs →
      w'.takeCare=w.takeCare → (∀ g ∈ gs,g.rollbackPreparedXaId=w.conn.preparedXaId) →
      w'.conn.protocol=none → w'.conn.isXaPrepared=false → w'.conn.curXaId=w.conn.curXaId →
      w'.conn.curXaIdAppendConn=w.conn.curXaIdAppendConn →
      w'.conn.pendingTrxSql=w.conn.pendingTrxSql → Inv started w' := by
    intro w' gs hlog hgiven htake hgs hprotocol hprep hid happend hpend
    refine ⟨⟨fun _ => hprep,?_,?_,?_,?_⟩,?_⟩
    · intro p c hp
      rw [hprotocol] at hp
      cases hp
    · rw [hpend,happend,hid]
      exact h.held.pending
    · rw [hpend,hid]
      exact h.held.unnamed
    · intro ha
      refine ⟨hprep,hpend ▸ (h.held.waits (happend ▸ ha)).2.1,fun p hp => ?_⟩
      rw [hprotocol] at hp
      cases hp
    · intro xaId1 w₀ hs
      refine (h.auto xaId1 w₀ hs).more (hlog.trans (List.append_nil _).symm) hgiven
        (htake.trans (List.append_nil _).symm) (fun e he => by cases he) ?_ (fun t ht => by cases ht)
        (Or.inr ⟨happend,hid⟩) (fun _ => Or.inl (hid.trans (he xaId1 w₀ hs)))
      intro g hg hne
      rw [hgs g hg] at hne ⊢
      exact h.preparedXaId hne
  unfold World.doEnd
  cases hp : w.conn.protocol with
  | none =>
    exact hcore rfl (List.append_nil _).symm rfl (fun g hg => by cases hg) rfl rfl rfl rfl rfl
  | some p =>
    refine hcore rfl rfl rfl (fun g hg => ?_) rfl rfl rfl rfl rfl
    cases List.mem_singleton.mp hg
    rfl

/-- The fields of the transaction are cleared. -/
theorem clearTrx (h : Inv started w) : Inv started (Conn.clearTrx w).state :=
  h.ended [] [] rfl (List.append_nil _).symm (List.append_nil _).symm (fun g hg => by cases hg)
    (fun t ht => by cases ht) (Or.inr rfl) rfl rfl rfl (fun _ hm => by cases hm)

/-- A connection is taken. -/
theorem connect (h : Inv started w) : Inv started (Conn.connect w).state := by
  unfold Conn.connect
  split
  · exact h
  · cases hp : w.conn.protocol with
    | some p => exact h
    | none =>
      dsimp only
      split
      · exact h
      · have hgone : ∀ supply,Inv started {w with
            conn := {w.conn with pendingChangeSchema := ""},supply := supply} := fun supply =>
          h.setFields rfl rfl rfl (Or.inl rfl) rfl rfl rfl (fun _ _ hm _ => hm) id (fun _ => id)
        have htake : ∀ supply p,p.inTrans=false → p.curCommand=none → Inv started (World.setProtocol {w with
            conn := {w.conn with pendingChangeSchema := ""},supply := supply} p) :=
          fun supply p hin hcur => h.setFields rfl rfl rfl (Or.inr ⟨hp,p,rfl,hin,hcur⟩) rfl rfl rfl
            (fun _ _ hm _ => hm) id (fun _ => id)
        cases hs : w.supply with
        | nil =>
          have h' := hgone w.supply
          rw [hs] at h'
          exact h'
        | cons s supply =>
          cases s with
          | pooled p stolen => exact htake supply _ rfl rfl
          | opened p leaves => exact htake supply _ rfl rfl
          | failed e => exact hgone supply

/-- `use()`. -/
theorem use (h : Inv started w) (schema : String) : Inv started (Conn.use schema w).state := by
  simp only [Conn.use,modify_apply,Outcome.state]
  cases hp : w.conn.protocol with
  | none =>
    exact h.setFields rfl rfl rfl (Or.inl hp.symm) rfl rfl rfl (fun _ _ hm _ => hm) id (fun _ => id)
  | some p =>
    refine ⟨⟨(fun hn => by cases hn),?_,h.held.pending,h.held.unnamed,?_⟩,?_⟩
    · intro q c hq
      cases hq
      exact h.held.opened p c hp
    · intro ha
      obtain ⟨hx,hr,hf⟩ := h.held.waits ha
      refine ⟨hx,hr,fun q hq => ?_⟩
      cases hq
      exact hf p hp
    · intro xaId1 w₀ hs
      have hauto := h.auto xaId1 w₀ hs
      refine hauto.more (List.append_nil _).symm (List.append_nil _).symm
        (List.append_nil _).symm (fun e he => by cases he) (fun g hg => by cases hg)
        (fun t ht => by cases ht) (Or.inr ⟨rfl,rfl⟩) ?_
      intro ha
      refine (hauto.owned ha).imp id ?_
      rintro ⟨q,hq,hx⟩
      rw [hp] at hq
      cases hq
      exact ⟨_,rfl,hx⟩

/-- A savepoint waits for the next query. -/
theorem addPoint (h : Inv started w) (n : ℕ) (ofSession : Bool) (pointId : ℕ) :
    Inv started {w with conn := {w.conn with
      savepointEnum := n
      pendingTrxSql := w.conn.pendingTrxSql++[some (.savepoint ofSession pointId)]}} := by
  refine h.setFields rfl rfl rfl (Or.inl rfl) rfl rfl rfl ?_ ?_ ?_
  · intro sql z hm hz
    rcases List.mem_append.mp hm with hm | hm
    · exact hm
    · cases List.mem_singleton.mp hm
      cases hz
  · intro hm
    rcases List.mem_append.mp hm with hm | hm
    · exact hm
    · cases List.mem_singleton.mp hm
  · rintro _ ⟨rest,hr⟩
    refine ⟨rest++[some (.savepoint ofSession pointId)],?_⟩
    dsimp only
    rw [hr,List.cons_append]

/-- The id is completed. -/
theorem appendConn (h : Inv started w) {p : MyProtocol} (hp : w.conn.protocol=some p)
    (ha : w.conn.curXaIdAppendConn=true) : Inv started (Conn.appendConn w).state := by
  have hid : (w.conn.protocol.map MyProtocol.connectionId).getD 0=p.connectionId := by
    rw [hp]
    rfl
  simp only [Conn.appendConn,modify_apply,Outcome.state,if_pos ha,hid]
  refine ⟨⟨h.held.unprepared,h.held.opened,?_,fun _ => named_ne_empty _ _,?_⟩,?_⟩
  · intro sql z hm hz
    rw [(h.held.pending sql z hm hz).1] at ha
    cases ha
  · intro hf
    cases hf
  · intro xaId1 w₀ hs
    have hauto := h.auto xaId1 w₀ hs
    have hno : ∀ z,¬UsedSince w₀ w z := by
      intro z hz
      rw [(hauto.used z hz).1] at ha
      cases ha
    refine ⟨hauto.log,hauto.givenUp,hauto.takeCare,?_,?_,?_,?_,hauto.named⟩
    · intro _
      refine Or.inr ⟨p,hp,?_⟩
      dsimp only
      rw [hauto.waits ha]
    · intro hf
      cases hf
    · exact fun z hz => absurd hz (hno z)
    · exact fun z _ hz => absurd hz (hno z)

end Inv

section Flush

variable {started : Option (String×World)} {w w' : World}

/-- A command without results leaves the connection in use. -/
theorem conclude_idle {command : Option Command} {attempt : Attempt} {isFromPool : Bool}
    (h : conclude command attempt true isFromPool w=.done (some ()) w') : ¬w'.IsFromPool := by
  rintro ⟨p,hp,hs⟩
  unfold conclude at h
  cases ha : attempt.1 with
  | none =>
    rw [ha] at h
    obtain ⟨_,t,ht,h⟩ := bind_eq_done.mp h
    cases h
    simp only [setStateAfter,modify_apply,Outcome.done.injEq,true_and] at ht
    subst ht
    cases hw : w.conn.protocol with
    | none =>
      rw [hw] at hp
      dsimp only at hp
      rw [hw] at hp
      cases hp
    | some q =>
      rw [hw] at hp
      cases hp
      cases hs
  | some e =>
    rw [ha] at h
    dsimp only at h
    unfold rethrowErrorIfFatal at h
    rw [branch_apply] at h
    split at h
    · obtain ⟨_,_,_,h⟩ := bind_eq_done.mp h
      cases h
    · obtain ⟨_,_,_,h⟩ := bind_eq_done.mp h
      rw [branch_apply] at h
      split at h <;> cases h

/-- A command of the library that is done leaves the connection in use. -/
theorem sendComQuery_idle {source : Source} {letReturnUndefined : Bool} {options : RetryOptions}
    (h : sendComQuery source true letReturnUndefined options w=.done (some ()) w') : ¬w'.IsFromPool := by
  obtain ⟨isFromPool,t,_,h⟩ := bind_eq_done.mp h
  have hl : ∀ (n : ℕ) (source : Source) (t : World) {fromPool retry : Bool},
      queryLoop true fromPool retry n source t=.done (some ()) w' → ¬w'.IsFromPool := by
    intro n
    induction n with
    | zero =>
      intro source t _ _ h
      obtain ⟨_,_,_,h⟩ := bind_eq_done.mp h
      exact conclude_idle h
    | succ n ih =>
      intro source t _ _ h
      obtain ⟨_,_,_,h⟩ := bind_eq_done.mp h
      rw [branch_apply] at h
      split at h
      · exact ih _ _ h
      · exact conclude_idle h
  exact hl _ _ _ h

/-- A reliable connection that was just taken from the pool works. -/
theorem lively (h : IsReliable w) (hp : w.IsFromPool) : Lively w := by
  obtain ⟨p,hp,hs⟩ := hp
  unfold IsReliable at h
  rw [hp] at h
  refine ⟨fun q hq => ?_,(h hs).2⟩
  rw [hp] at hq
  cases hq
  exact (h hs).1

/-- A connection that is in use is reliable. -/
theorem isReliable_of_used {p : MyProtocol} (hp : w.conn.protocol=some p) (h : ¬w.IsFromPool) :
    IsReliable w := by
  unfold IsReliable
  rw [hp]
  exact fun hs => absurd ⟨p,hp,hs⟩ h

/-- What is known after the pending commands are sent. -/
structure Flushed (started : Option (String×World)) (r : Outcome Error World (Option ℕ)) : Prop where
  /-- What is known is kept. -/
  inv : Inv started r.state
  /-- The id is complete. -/
  complete : r.state.conn.curXaIdAppendConn=false
  /-- Only a connection that need not be spared is given up. -/
  ended : ∀ w',r=.done none w' → Ended started w'

/-- The pending commands are sent, when the id is complete. -/
theorem flushComplete (h : Inv started w) (ha : w.conn.curXaIdAppendConn=false) {p : MyProtocol}
    (hp : w.conn.protocol=some p) (hspared : Spared started w) {rest : List (Option Sql)}
    (hrest : ∀ pending ∈ rest,pending ∈ w.conn.pendingTrxSql) (n : ℕ) :
    Flushed started (flushPending rest n w) := by
  induction rest generalizing w n p with
  | nil => exact ⟨h,ha,fun _ he => by cases he⟩
  | cons pending rest ih =>
    have happend : doWhen (pending=none) appendConn w=.done () w := by
      unfold doWhen
      split
      · simp only [appendConn,modify_apply,ha,Bool.false_eq_true,if_false]
      · rfl
    have hsql : ∀ z,(pending.getD (.xaStart w.conn.curXaId)).xaId=some z →
        w.conn.curXaId=z ∧ z≠"" := by
      intro z hz
      have hm := hrest pending List.mem_cons_self
      cases pending with
      | none =>
        cases hz
        exact ⟨rfl,h.held.unnamed hm⟩
      | some sql => exact (h.held.pending sql z hm hz).2
    have hsteady := (@Inv.respects started (pending.getD (.xaStart w.conn.curXaId)).xaId).sendComQuery
      (Respects.sends_text (fun z hz => hz)) (Or.inl rfl) (decide (0 < n)) w.retryOptions w h ha hsql
    unfold flushPending
    rw [bind_apply,happend,Outcome.andThen_done,bind_apply,get_apply,Outcome.andThen_done,bind_apply]
    cases hq : sendComQuery (.text (pending.getD (.xaStart w.conn.curXaId))) true (decide (0 < n))
        w.retryOptions w with
    | thrown e w₁ =>
      rw [hq] at hsteady
      exact ⟨hsteady.inv,hsteady.append.trans ha,fun _ he => by cases he⟩
    | waiting w₁ =>
      rw [hq] at hsteady
      exact ⟨hsteady.inv,hsteady.append.trans ha,fun _ he => by cases he⟩
    | done r w₁ =>
      rw [hq] at hsteady
      dsimp only [Outcome.state] at hsteady
      cases r with
      | none =>
        refine ⟨hsteady.inv,hsteady.append.trans ha,fun w' he xaId1 w₀ hs => ?_⟩
        cases he
        by_contra hne
        have hrel := hspared (hs ▸ rfl) (hsteady.curXaId ▸ hne)
        exact (lively hrel (sendComQuery_none hq)).sendComQuery hq
      | some u =>
        obtain ⟨q,hq',_⟩ := Option.map_eq_some_iff.mp (hsteady.same.trans (by rw [hp]; rfl))
        refine ih hsteady.inv (hsteady.append.trans ha) hq' (fun _ _ => ?_) (fun o ho => ?_) _
        · exact isReliable_of_used hq' (sendComQuery_idle hq)
        · rw [hsteady.fields]
          exact hrest o (List.mem_cons_of_mem _ ho)

/-- The pending commands are sent. -/
theorem flush (h : Inv started w) {p : MyProtocol} (hp : w.conn.protocol=some p)
    (hspared : Spared started w) (n : ℕ) :
    Flushed started (flushPending w.conn.pendingTrxSql n w) := by
  cases ha : w.conn.curXaIdAppendConn with
  | false => exact flushComplete h ha hp hspared (fun _ => id) n
  | true =>
    -- then the first command is the one whose id is completed
    obtain ⟨_,⟨rest,hr⟩,_⟩ := h.held.waits ha
    have hv := h.appendConn hp ha
    have hne : w.conn.curXaId≠"" := h.held.unnamed (by rw [hr]; exact List.mem_cons_self)
    obtain ⟨v,hx⟩ : ∃ v,appendConn w=.done () v := ⟨_,rfl⟩
    have hconn : v.conn={w.conn with curXaId := v.conn.curXaId,curXaIdAppendConn := false} ∧
        v.answers=w.answers ∧ v.supply=w.supply := by
      simp only [appendConn,modify_apply,if_pos ha] at hx
      cases hx
      exact ⟨rfl,rfl,rfl⟩
    rw [hx] at hv
    change Inv started v at hv
    have hfirst : flushPending (none::rest) n w=flushPending (none::rest) n v := by
      have hva : v.conn.curXaIdAppendConn=false := by
        rw [hconn.1]
      have hvx : appendConn v=.done () v := by
        simp only [appendConn,modify_apply,hva,Bool.false_eq_true,if_false]
      have hw : doWhen ((none : Option Sql)=none) appendConn w=.done () v := by
        rw [doWhen,if_pos rfl,hx]
      have hv : doWhen ((none : Option Sql)=none) appendConn v=.done () v := by
        rw [doWhen,if_pos rfl,hvx]
      unfold flushPending
      rw [bind_apply,hw,bind_apply,hv]
    rw [hr,hfirst]
    have hvp : v.conn.protocol=some p := by
      rw [hconn.1]
      exact hp
    refine flushComplete hv (by rw [hconn.1]) hvp (fun hs _ => ?_) (fun o ho => ?_) n
    · have hrel := hspared hs hne
      unfold IsReliable at hrel ⊢
      rw [hvp,hconn.2.1]
      rw [hp] at hrel
      exact hrel
    · rw [hconn.1]
      exact hr ▸ ho

end Flush

/-- What is known is kept, and an id that is complete stays so. -/
def Goes (started : Option (String×World)) (w w' : World) : Prop :=
  Inv started w → w.conn.curXaIdAppendConn=false → Inv started w' ∧ w'.conn.curXaIdAppendConn=false

namespace Goes

variable {started : Option (String×World)}

/-- Nothing happens. -/
theorem refl (w : World) : Goes started w w := fun h ha => ⟨h,ha⟩

/-- One operation after another. -/
theorem bind {α β : Type} {x : Op α} {f : α → Op β} (hx : Always (Goes started) x)
    (hf : ∀ a,Always (Goes started) (f a)) : Always (Goes started) (x >>= f) :=
  Always.bind (R:=Goes started) (fun _ _ _ h h' hi ha => h' (h hi ha).1 (h hi ha).2) hx hf

/-- What leaves the fields alone. -/
theorem steady {α : Type} {x : Op α} (hx : Always (fun w w' => Inv started w →
    w.conn.curXaIdAppendConn=false → Steady started w w') x) : Always (Goes started) x :=
  fun w h ha => ⟨(hx w h ha).inv,(hx w h ha).append.trans ha⟩

/-- A value is returned. -/
theorem pure {α : Type} (a : α) : Always (Goes started) (Pure.pure a : Op α) := Always.pure refl a

/-- An error is thrown. -/
theorem fail {α : Type} (e : Error) : Always (Goes started) (AsyncAction.fail e : Op α) :=
  Always.fail refl e

/-- The state is read. -/
theorem get : Always (Goes started) (AsyncAction.get : Op World) := Always.get refl

/-- A command about no transaction. -/
theorem allowed_none {c : Command} : Allowed none c↔c.xaId=none := by
  refine ⟨fun h => ?_,fun h z hz => by rw [h] at hz; cases hz⟩
  cases hc : c.xaId with
  | none => rfl
  | some z => cases h z hc

/-- `discard()`. -/
theorem discard : Always (Goes started) Conn.discard := by
  intro w h ha
  have hs := Inv.plain.discard (fun p c hp hc => allowed_none.mpr (h.held.opened p c hp hc)) h ha
  exact ⟨hs.inv,hs.append.trans ha⟩

/-- A prepared statement is executed. -/
theorem execStmt (stmtId : ℕ) (values : List Value) (void : Bool) :
    Always (Goes started) (Conn.execStmt stmtId values void) := by
  have hc : Allowed none (.stmtExecute stmtId values) := allowed_none.mpr rfl
  refine bind (steady Inv.plain.setQueryingState) (fun _ => ?_)
  refine bind (steady (Inv.plain.send _ hc)) (fun _ => bind (steady (Inv.plain.receive _ hc)) (fun a => ?_))
  cases a.error with
  | some e => exact steady (Inv.plain.rethrowError e)
  | none =>
    refine bind (steady (Inv.plain.setStateAfter (Or.inr ?_) a)) (fun _ => Always.doWhen refl discard)
    intro c hc
    cases hc
    rfl

/-- The statement for named parameters is found or prepared. -/
theorem namedStmt (n : ℕ) (letReturnUndefined : Bool) :
    Always (Goes started) (Conn.namedStmt n letReturnUndefined) := by
  refine bind get (fun w => ?_)
  cases (w.conn.preparedStmtsForParams[(n-1)/8]?).join with
  | some stmtId => exact pure _
  | none =>
    refine bind (steady (Inv.plain.sendComStmtPrepare (fun sql hq => ?_) _)) (fun r => ?_)
    · cases hq
      exact allowed_none.mpr rfl
    · cases r with
      | none => exact pure _
      | some stmtId =>
        refine bind (fun w h ha => ⟨?_,ha⟩) (fun _ => pure _)
        exact h.setFields rfl rfl rfl (Or.inl rfl) rfl rfl rfl (fun _ _ hm _ => hm) id (fun _ => id)

/-- A source with SQL about no transaction. -/
def Quiet (source : Source) : Prop :=
  ∀ sql,source.sql=some sql ∨ source.rest.sql=some sql → sql.xaId=none

/-- A query is sent. -/
theorem sendQuery (q : Query) {source : Source} (hs : Quiet source) (letReturnUndefined : Bool) :
    Always (Goes started) (Conn.sendQuery q source letReturnUndefined) := by
  have hsends : Respects.Sends (Allowed none) source :=
    ⟨fun sql hq => allowed_none.mpr (hs sql (Or.inl hq)),fun sql hq => allowed_none.mpr (hs sql (Or.inr hq))⟩
  have hopen : ∀ c,Allowed none c → c.xaId=none := fun c => allowed_none.mp
  have hquery : ∀ options,Always (Goes started) (do
      let done ← sendComQuery source q.void letReturnUndefined options
      return leftOver done source.rest : Op (Option Source)) := fun options =>
    bind (steady (Inv.plain.sendComQuery hsends (Or.inr hopen) _ _)) (fun _ => pure _)
  have hprep : Always (Goes started) (sendComStmtPrepare source letReturnUndefined) :=
    steady (Inv.plain.sendComStmtPrepare (fun sql hq => allowed_none.mpr (hs sql (Or.inl hq))) _)
  refine bind get (fun w => ?_)
  cases q.params with
  | none => exact hquery _
  | prepare => exact Always.ite (fail _) (bind hprep (fun _ => pure _))
  | positional values =>
    refine Always.ite (fail _) (bind hprep (fun r => ?_))
    cases r with
    | none => exact pure _
    | some stmtId => exact bind (execStmt _ _ _) (fun _ => pure _)
  | named params =>
    cases params with
    | nil => exact hquery _
    | cons param params =>
      refine Always.ite (fail _) (bind (namedStmt _ _) (fun r => ?_))
      cases r with
      | none => exact pure _
      | some stmtId =>
        refine bind (steady (Inv.plain.sendThreeQueries (fun pre hp => ?_) (fun sql hp => ?_) hsends
          (Or.inr hopen) _ _ _)) (fun _ => pure _)
        · exact allowed_none.mpr rfl
        · cases hp
          exact allowed_none.mpr rfl

end Goes

namespace Inv

variable {started : Option (String×World)} {w w' : World}

/-- A connection is taken, and it is spared. -/
theorem connect_spared (hs : Spared started w) (hc : Conn.connect w=.done () w') :
    Spared started w' ∧ ∃ p,w'.conn.protocol=some p := by
  unfold Conn.connect at hc
  split at hc
  · cases hc
  · cases hp : w.conn.protocol with
    | some p =>
      rw [hp] at hc
      cases hc
      exact ⟨hs,p,hp⟩
    | none =>
      rw [hp] at hc
      dsimp only at hc
      split at hc
      · cases hc
      · cases hsupply : w.supply with
        | nil =>
          rw [hsupply] at hc
          cases hc
        | cons s supply =>
          rw [hsupply] at hc
          cases s with
          | pooled p stolen =>
            cases hc
            refine ⟨fun hst hne _ => ?_,_,rfl⟩
            have hrel := hs hst hne
            unfold IsReliable at hrel
            rw [hp,hsupply] at hrel
            exact hrel
          | opened p leaves =>
            cases hc
            exact ⟨(fun _ _ hf => by cases hf),_,rfl⟩
          | failed e => cases hc

/-- One iteration of a query. -/
theorem queryOnce (h : Inv started w) {p : MyProtocol} (hp : w.conn.protocol=some p)
    (hspared : Spared started w) (q : Query) {source : Source} (hs : Goes.Quiet source) (n : ℕ) :
    Inv started (Conn.queryOnce q source n w).state ∧
      ∀ r w',Conn.queryOnce q source n w=.done (some r) w' → Ended started w' := by
  have hflush := flush h hp hspared n
  unfold Conn.queryOnce
  rw [bind_apply,get_apply,Outcome.andThen_done,bind_apply]
  cases hr : flushPending w.conn.pendingTrxSql n w with
  | thrown e w₁ =>
    rw [hr] at hflush
    exact ⟨hflush.inv,fun _ _ he => by cases he⟩
  | waiting w₁ =>
    rw [hr] at hflush
    exact ⟨hflush.inv,fun _ _ he => by cases he⟩
  | done r w₁ =>
    rw [hr] at hflush
    obtain ⟨hi,ha,hend⟩ := hflush
    change Inv started w₁ at hi
    change w₁.conn.curXaIdAppendConn=false at ha
    cases r with
    | none =>
      have hended := hend w₁ rfl
      refine ⟨hi.doEnd_keep hended,fun r w' he xaId1 w₀ hst => ?_⟩
      cases he
      have hid : (w₁.doEnd true none).conn.curXaId=w₁.conn.curXaId := by
        unfold World.doEnd
        cases w₁.conn.protocol <;> rfl
      exact hid.trans (hended xaId1 w₀ hst)
    | some n' =>
      have hcleared : Inv started {w₁ with conn := {w₁.conn with pendingTrxSql := []}} :=
        hi.setFields rfl rfl rfl (Or.inl rfl) rfl rfl rfl (fun _ _ hm _ => by cases hm)
          (fun hm => by cases hm) (fun hf => by rw [ha] at hf; cases hf)
      obtain ⟨hq,_⟩ := Goes.sendQuery q hs (decide (0 < n')) _ hcleared ha
      dsimp only [Outcome.andThen_done]
      rw [bind_apply,modify_apply,Outcome.andThen_done,bind_apply]
      cases hr₂ : Conn.sendQuery q source (decide (0 < n'))
          {w₁ with conn := {w₁.conn with pendingTrxSql := []}} with
      | thrown e w₂ =>
        rw [hr₂] at hq
        exact ⟨hq,fun _ _ he => by cases he⟩
      | waiting w₂ =>
        rw [hr₂] at hq
        exact ⟨hq,fun _ _ he => by cases he⟩
      | done r₂ w₂ =>
        rw [hr₂] at hq
        cases r₂ with
        | none => exact ⟨hq,fun _ _ he => by cases he⟩
        | some s =>
          refine ⟨(Inv.doEnd hq none).1,fun r w' he xaId1 w₀ hst => ?_⟩
          cases he
          exact (Inv.doEnd hq none).2.2

/-- The iterations of a query. -/
theorem queryIterations (q : Query) (n : ℕ) {source : Source} (hs : Goes.Quiet source)
    (h : Inv started w) (hspared : Spared started w) (nRetriesRemaining : ℕ) :
    Inv started (Conn.queryIterations q n source nRetriesRemaining w).state := by
  induction n generalizing source w nRetriesRemaining with
  | zero => exact h
  | succ n ih =>
    refine state_bind (I:=Inv started) h.connect (fun _ w₁ hc h₁ => ?_)
    obtain ⟨hspared₁,p,hp⟩ := connect_spared hspared hc
    obtain ⟨h₂,hend⟩ := h₁.queryOnce hp hspared₁ q hs nRetriesRemaining
    refine state_bind (I:=Inv started) h₂ (fun r w₂ hr h₃ => ?_)
    cases r with
    | none => exact h₃
    | some next =>
      refine ih ?_ h₃ (hend next w₂ hr).spared _
      rcases queryOnce_source hr with he | he
      · rw [he]
        exact hs
      · rw [he]
        intro sql hsql
        rw [rest_rest,or_self] at hsql
        exact hs sql (Or.inr hsql)

/-- A query. -/
theorem doQuery (h : Inv started w) (hspared : Spared started w) {q : Query} (hs : Goes.Quiet q.sql) :
    Inv started (Conn.doQuery q w).state := queryIterations q _ hs h hspared _

/-- What a user wrote is about no transaction of the library. -/
theorem quietSource {q : Query} (hq : q.OfUser) : Goes.Quiet q.sql := by
  intro sql hsql
  rcases hsql with hsql | hsql
  · exact Sql.xaId_user (hq sql hsql)
  · cases hs : q.sql with
    | text sql' =>
      rw [hs] at hsql
      exact Sql.xaId_user (hq sql (by rw [hs]; exact hsql))
    | seeker sql' =>
      rw [hs] at hsql
      cases hsql
      rfl
    | stream sql' =>
      rw [hs] at hsql
      cases hsql
    | consumed =>
      rw [hs] at hsql
      cases hsql

/-- The search for a savepoint does not go behind a transaction that waits for its id. -/
theorem beforeSavepoint_last (ofSession : Bool) (pointId : ℕ) (l : List (Option Sql)) :
    beforeSavepoint ofSession pointId (l++[none])=
      (beforeSavepoint ofSession pointId l).map (fun before => before++[none]) := by
  induction l with
  | nil => rfl
  | cons pending rest ih =>
    cases pending with
    | none => rfl
    | some sql =>
      cases sql with
      | savepoint s n =>
        simp only [List.cons_append,beforeSavepoint]
        split_ifs
        · rfl
        · exact ih
        · rfl
      | _ => rfl

/-- `rollback()` to a savepoint. -/
theorem rollbackTo (h : Inv started w) (hspared : Spared started w) (toPointId : ℕ) :
    Inv started (Conn.rollbackTo toPointId w).state := by
  unfold Conn.rollbackTo
  rw [bind_apply,get_apply,Outcome.andThen_done]
  dsimp only
  generalize (if decide (savepointEnumSessionFrom ≤ toPointId)=true then _ else _)=pointId
  cases hb : beforeSavepoint (decide (savepointEnumSessionFrom ≤ toPointId)) pointId
      w.conn.pendingTrxSql.reverse with
  | some before =>
    have hsub : ∀ pending ∈ before.reverse,pending ∈ w.conn.pendingTrxSql := fun pending hm =>
      List.mem_reverse.mp (Tracked.beforeSavepoint_subset hb _ (List.mem_reverse.mp hm))
    refine h.setFields rfl rfl rfl (Or.inl rfl) rfl rfl rfl (fun sql _ hm _ => hsub _ hm)
      (fun hm => hsub _ hm) ?_
    rintro _ ⟨rest,hr⟩
    rw [hr,List.reverse_cons,beforeSavepoint_last] at hb
    obtain ⟨before',_,rfl⟩ := Option.map_eq_some_iff.mp hb
    exact ⟨before'.reverse,by dsimp only; rw [List.reverse_append]; rfl⟩
  | none =>
    dsimp only
    rw [branch_apply]
    split
    · refine h.doQuery hspared ?_
      rintro sql (hsql | hsql) <;>
        · cases hsql
          rfl
    · exact h

/-- With a transaction on the server the id is complete, and there is a connection. -/
theorem hasTrx (h : Inv started w) (hx : w.hasTrx=true) :
    w.conn.curXaIdAppendConn=false ∧ ∃ p,w.conn.protocol=some p := by
  unfold World.hasTrx at hx
  cases hp : w.conn.protocol with
  | none =>
    rw [hp] at hx
    cases hx
  | some p =>
    refine ⟨?_,p,rfl⟩
    cases ha : w.conn.curXaIdAppendConn with
    | false => rfl
    | true =>
      obtain ⟨hn,_,hf⟩ := h.held.waits ha
      rw [hn,World.inTrans,hp] at hx
      simp only [Option.map_some,Option.getD_some,(hf p hp).1] at hx
      cases hx

/-- With a transaction on the server. -/
theorem inTrans (h : Inv started w) (hx : w.inTrans=true) :
    w.conn.curXaIdAppendConn=false ∧ ∃ p,w.conn.protocol=some p := by
  refine h.hasTrx ?_
  unfold World.hasTrx
  cases hp : w.conn.protocol with
  | none =>
    rw [World.inTrans,hp] at hx
    cases hx
  | some p =>
    rw [hx]
    rfl

/-- A command about the transaction of the object, or about none. -/
def About (w : World) (sql : Sql) : Prop := ∀ z,sql.xaId=some z → w.conn.curXaId=z ∧ z≠""

/-- A command is sent. -/
theorem command (h : Inv started w) (ha : w.conn.curXaIdAppendConn=false) {sql : Sql}
    (hs : About w sql) : Steady started w (Conn.command sql w).state :=
  (respects sql.xaId).command (fun _ hz => hz) w h ha hs

/-- The connection is given up. -/
theorem endConn (h : Inv started w) : Inv started (Conn.endConn w).state := (h.doEnd none).1

/-- The handler `onBeforeCommit` changes nothing. -/
theorem callOnBeforeCommit_state (w : World) : (Conn.callOnBeforeCommit w).state=w := by
  unfold Conn.callOnBeforeCommit
  split <;> rfl

/-- What follows the handler `onBeforeCommit`, which changes nothing. -/
theorem afterCall {α : Type} (h : Inv started w) {f : Unit → Op α}
    (hf : ∀ u,Inv started (f u w).state) : Inv started ((Conn.callOnBeforeCommit >>= f) w).state := by
  have hcall := callOnBeforeCommit_state w
  rw [bind_apply]
  cases hr : Conn.callOnBeforeCommit w with
  | done u v =>
    rw [hr] at hcall
    cases hcall
    exact hf u
  | thrown e v =>
    rw [hr] at hcall
    cases hcall
    exact h
  | waiting v =>
    rw [hr] at hcall
    cases hcall
    exact h

/-- Two commands about the transaction of the object are sent. -/
theorem twoCommands (h : Inv started w) (ha : w.conn.curXaIdAppendConn=false)
    (hid : w.conn.curXaId≠"") {prequery sql : Sql} (hp : prequery.xaId=some w.conn.curXaId)
    (hs : sql.xaId=some w.conn.curXaId) (ignorePrequeryError : Bool) :
    Steady started w (Conn.twoCommands prequery ignorePrequeryError sql w).state := by
  refine (@respects started (some w.conn.curXaId)).twoCommands (fun z hz => hp.symm.trans hz)
    (fun z hz => hs.symm.trans hz) _ w h ha (fun z hz => ?_)
  cases hz
  exact ⟨rfl,hid⟩

/-- An operation runs where nothing but the log and the connection changed. -/
theorem afterSteady {α β : Type} {x : Op α} {f : α → Op β} (hx : Steady started w (x w).state)
    (hf : ∀ a v,Steady started w v → Inv started (f a v).state) : Inv started ((x >>= f) w).state := by
  rw [bind_apply]
  cases hr : x w with
  | done a v =>
    rw [hr] at hx
    exact hf a v hx
  | thrown e v =>
    rw [hr] at hx
    exact hx.inv
  | waiting v =>
    rw [hr] at hx
    exact hx.inv

/-- A handler runs where nothing but the log and the connection changed. -/
theorem attempt {α : Type} {x : Op α} {f : Error → Op α} (hx : Steady started w (x w).state)
    (hf : ∀ e v,Steady started w v → Inv started (f e v).state) :
    Inv started (AsyncAction.attempt x f w).state := by
  rw [attempt_apply]
  cases hr : x w with
  | done a v =>
    rw [hr] at hx
    exact hx.inv
  | thrown e v =>
    rw [hr] at hx
    exact hf e v hx
  | waiting v =>
    rw [hr] at hx
    exact hx.inv

/-- The commit, and the rollback when it fails. -/
theorem commitOrRollback (h : Inv started w) (ha : w.conn.curXaIdAppendConn=false) {sql back : Sql}
    (hs : About w sql) (hb : About w back) :
    Inv started (Conn.commitOrRollback sql back w).state := by
  refine attempt ?_ (fun e v hv => attempt ?_ (fun e' u hu => ?_))
  · exact state_bind (I:=Steady started w) (h.command ha hs) (fun _ _ _ hv => hv)
  · have hb' : About v back := by
      intro z hz
      rw [hv.curXaId]
      exact hb z hz
    exact state_bind (I:=Steady started v) (hv.inv.command (hv.append.trans ha) hb') (fun _ _ _ hu => hu)
  · exact state_bind (I:=Inv started) hu.inv.endConn (fun _ _ _ hi => hi)

/-- An error is thrown, when there is one. -/
theorem throwSome_state (error : Option Error) (w : World) : (Conn.throwSome error w).state=w := by
  cases error <;> rfl

/-- `commit()`. -/
theorem commit (h : Inv started w) (andChain : Bool) : Inv started (Conn.commit andChain w).state := by
  have hfinish : ∀ {x : Op (Option Error)} {v : World} (f : Option Error → Option Error),
      Inv started (x v).state → Inv started ((do
        let error ← x
        Conn.clearTrx
        Conn.throwSome (f error) : Op Unit) v).state := by
    intro x v f hx
    refine state_bind (I:=Inv started) hx (fun error u _ hu => ?_)
    refine state_bind (I:=Inv started) hu.clearTrx (fun _ u' _ hu' => ?_)
    rw [throwSome_state]
    exact hu'
  unfold Conn.commit
  rw [bind_apply,get_apply,Outcome.andThen_done,branch_apply]
  by_cases hx : w.hasTrx=true
  · obtain ⟨ha,p,hp⟩ := h.hasTrx hx
    rw [if_pos hx,branch_apply]
    by_cases hid : w.conn.curXaId≠""
    · rw [if_pos hid,branch_apply]
      by_cases hprep : w.conn.isXaPrepared=false
      · rw [if_pos hprep]
        exact h
      · rw [if_neg hprep]
        refine hfinish _ (h.commitOrRollback ha (fun z hz => ?_) (fun z hz => ?_))
        · cases hz
          exact ⟨rfl,hid⟩
        · cases hz
          exact ⟨rfl,hid⟩
    · rw [if_neg hid]
      refine h.afterCall (fun u => ?_)
      refine hfinish id (h.commitOrRollback ha (fun z hz => by cases hz) (fun z hz => by cases hz))
  · rw [if_neg hx]
    exact h.clearTrx

/-- The commands of `rollback()`. -/
theorem rollbackCommand (h : Inv started w) (ha : w.conn.curXaIdAppendConn=false) (isXaPrepared toStart : Bool) :
    Steady started w (Conn.rollbackCommand w.conn.curXaId isXaPrepared toStart w).state := by
  have hplain : ∀ andChain,Steady started w (Conn.command (.rollback andChain) w).state :=
    fun andChain => h.command ha (fun z hz => by cases hz)
  unfold Conn.rollbackCommand
  by_cases hstart : toStart=true
  · rw [if_pos hstart]
    exact hplain true
  · rw [if_neg hstart]
    by_cases hid : w.conn.curXaId=""
    · rw [if_pos hid]
      exact hplain false
    · rw [if_neg hid]
      by_cases hprep : isXaPrepared=true
      · rw [if_pos hprep]
        refine h.command ha (fun z hz => ?_)
        cases hz
        exact ⟨rfl,hid⟩
      · rw [if_neg hprep]
        exact h.twoCommands ha hid rfl rfl true

/-- `prepareCommit()`. -/
theorem prepareCommit (h : Inv started w) : Inv started (Conn.prepareCommit w).state := by
  unfold Conn.prepareCommit
  rw [bind_apply,get_apply,Outcome.andThen_done,branch_apply]
  by_cases hx : w.inTrans=true ∧ w.conn.curXaId≠"" ∧ w.conn.isXaPrepared=false
  · obtain ⟨ha,p,hp⟩ := h.inTrans hx.1
    rw [if_pos hx]
    refine h.afterCall (fun u => ?_)
    refine afterSteady (h.twoCommands ha hx.2.1 rfl rfl false) (fun _ v hv => ?_)
    have hva := hv.append.trans ha
    refine ⟨⟨fun hn => ?_,hv.inv.held.opened,hv.inv.held.pending,hv.inv.held.unnamed,fun hf => ?_⟩,
      fun xaId1 w₀ hst => ?_⟩
    · have hsame := hv.same
      rw [show v.conn.protocol=none from hn,hp] at hsame
      cases hsame
    · rw [show v.conn.curXaIdAppendConn=true from hf] at hva
      cases hva
    · obtain ⟨hl,hg,ht,hown,hwait,hused,hone,hnamed⟩ := hv.inv.auto xaId1 w₀ hst
      exact ⟨hl,hg,ht,hown,hwait,hused,hone,hnamed⟩
  · rw [if_neg hx]
    exact h

/-- The fields of a transaction are set. -/
theorem held_setTrx (h : Inv started w) (options : TrxOptions) :
    Held {w with conn := w.conn.setTrx options} := by
  have hcore : ∀ {c : MyConn} {sql : Sql},c.protocol=w.conn.protocol →
      c.isXaPrepared=w.conn.isXaPrepared → c.pendingTrxSql=[some sql] → c.curXaIdAppendConn=false →
      (∀ z,sql.xaId=some z → c.curXaId=z ∧ z≠"") → Held {w with conn := c} := by
    intro c sql hp hprep hpend ha hsql
    refine ⟨fun hn => ?_,fun p q hp' => h.held.opened p q (hp ▸ hp'),fun sql' z hm hz => ?_,fun hm => ?_,
      fun hf => ?_⟩
    · exact hprep.trans (h.held.unprepared (hp ▸ hn))
    · rw [hpend] at hm
      cases List.mem_singleton.mp hm
      exact ⟨ha,hsql z hz⟩
    · rw [hpend] at hm
      cases List.mem_singleton.mp hm
    · rw [show c.curXaIdAppendConn=true from hf] at ha
      cases ha
  unfold MyConn.setTrx
  split_ifs with h₁ h₂
  · refine hcore rfl rfl rfl rfl (fun z hz => ?_)
    cases hz
    exact ⟨rfl,h₁⟩
  · cases hp : w.conn.protocol with
    | none =>
      refine ⟨fun _ => h.held.unprepared hp,(fun p c hp' => by cases hp'),fun sql z hm _ => ?_,
        fun _ => h₂,fun _ => ⟨h.held.unprepared hp,⟨[],rfl⟩,(fun p hp' => by cases hp')⟩⟩
      cases List.mem_singleton.mp hm
    | some p =>
      refine hcore hp.symm rfl rfl rfl (fun z hz => ?_)
      cases hz
      exact ⟨rfl,named_ne_empty _ _⟩
  · exact hcore rfl rfl rfl rfl (fun z hz => by cases hz)

/-- An ordinary transaction ends the one before. -/
theorem setTrx_plain (h : Inv started w) (readonly : Bool) :
    Inv started {w with conn := w.conn.setTrx {readonly := readonly}} := by
  refine ⟨h.held_setTrx _,fun xaId1 w₀ hs => ?_⟩
  exact (h.auto xaId1 w₀ hs).more (List.append_nil _).symm
    (List.append_nil _).symm (List.append_nil _).symm (fun e he => by cases he)
    (fun g hg => by cases hg) (fun t ht => by cases ht) (Or.inl ⟨rfl,rfl⟩) (fun _ => Or.inl rfl)

/-- `startTrx()` before it sets the fields. -/
theorem startTrx_end {x : Op Unit} {options : TrxOptions} (hx : Inv started (x w).state)
    (hset : ∀ v,Inv started v → Inv started {v with conn := v.conn.setTrx options}) :
    Inv started ((do
      x
      if isInvalidXaId (if options.xaId="" then options.xaId1 else options.xaId)=true then
        AsyncAction.fail (.error "Invalid XA ID")
      else modify fun w => {w with conn := w.conn.setTrx options} : Op Unit) w).state := by
  refine state_bind (I:=Inv started) hx (fun _ v _ hv => ?_)
  rw [branch_apply]
  by_cases hinvalid : isInvalidXaId (if options.xaId="" then options.xaId1 else options.xaId)=true
  · rw [if_pos hinvalid]
    exact hv
  · rw [if_neg hinvalid]
    exact hset v hv

/-- What is done before the fields are set. -/
theorem commitWhen (h : Inv started w) (c : Prop) [Decidable c] :
    Inv started (doWhen c (Conn.commit false) w).state := by
  unfold doWhen
  split
  · exact h.commit false
  · exact h

/-- `startTrx()` of an ordinary transaction. -/
theorem startTrx_plain (h : Inv started w) (readonly : Bool) :
    Inv started (Conn.startTrx {readonly := readonly} w).state := by
  unfold Conn.startTrx
  rw [bind_apply,get_apply,Outcome.andThen_done,branch_apply]
  split
  · exact h
  · exact startTrx_end (h.commitWhen _) (fun v hv => hv.setTrx_plain readonly)

/-- `rollback()` without a savepoint. -/
theorem rollbackAll (h : Inv started w) (toStart : Bool) :
    Inv started (Conn.rollbackAll toStart w).state := by
  unfold Conn.rollbackAll
  rw [bind_apply,get_apply,Outcome.andThen_done,branch_apply]
  by_cases hx : w.hasTrx=true
  · obtain ⟨ha,_⟩ := h.hasTrx hx
    rw [if_pos hx]
    refine state_bind (I:=Inv started) (attempt (h.rollbackCommand ha _ _) (fun e v hv => ?_))
      (fun _ v _ hv => hv.clearTrx)
    unfold giveUp
    rw [bind_apply,get_apply,Outcome.andThen_done]
    refine state_bind (I:=Inv started) hv.inv.endConn (fun _ u _ hu => ?_)
    refine state_bind (I:=Inv started) ?_ (fun _ _ _ hi => hi)
    unfold doWhen
    split
    · exact hu.startTrx_plain _
    · exact hu
  · rw [if_neg hx]
    exact h.clearTrx

end Inv

section Commit

/-- No XA command is sent, and no connection is given up. -/
def Unused (w w' : World) : Prop :=
  (∃ es,w'.log=w.log++es ∧ ∀ e ∈ es,e.command.xaId=none) ∧ w'.givenUp=w.givenUp ∧ w'.takeCare=w.takeCare

/-- Nothing happens. -/
theorem Unused.refl (w : World) : Unused w w := ⟨⟨[],(List.append_nil _).symm,fun _ he => by cases he⟩,rfl,rfl⟩

/-- One thing after another. -/
theorem Unused.trans (s t u : World) (h : Unused s t) (h' : Unused t u) : Unused s u := by
  obtain ⟨⟨es,hl,he⟩,hg,ht⟩ := h
  obtain ⟨⟨fs,hl',hf⟩,hg',ht'⟩ := h'
  refine ⟨⟨es++fs,by rw [hl',hl,List.append_assoc],fun e hm => ?_⟩,hg'.trans hg,ht'.trans ht⟩
  rcases List.mem_append.mp hm with hm | hm
  · exact he e hm
  · exact hf e hm

/-- Commands about no transaction. -/
theorem Unused.respects : Respects Unused (fun c => c.xaId=none) (fun _ => True) where
  refl := refl
  trans := trans
  initDb _ := rfl
  send c hc w := by
    unfold Conn.send
    split
    · refine ⟨⟨[_],rfl,fun e he => ?_⟩,rfl,rfl⟩
      cases List.mem_singleton.mp he
      exact hc
    · exact refl w
  receive c hc w := by
    unfold Conn.receive
    split
    · split_ifs
      · exact refl w
      · split
        · refine ⟨⟨[_],rfl,fun e he => ?_⟩,rfl,rfl⟩
          cases List.mem_singleton.mp he
          exact hc
        · exact refl w
    · exact refl w
  schema w p _ := refl w
  update w p q _ _ _ _ := refl w

/-- A commit that succeeds, when there is no distributed transaction. -/
theorem Unused.commit {w w' : World} (hid : w.conn.curXaId="")
    (h : Conn.commit false w=.done () w') : Unused w w' := by
  have hclear : ∀ {v u : World},Conn.clearTrx v=.done () u → Unused v u := by
    intro v u hv
    cases hv
    exact refl v
  unfold Conn.commit at h
  rw [bind_apply,get_apply,Outcome.andThen_done,branch_apply] at h
  split at h
  · rw [branch_apply,if_neg (not_not.mpr hid)] at h
    obtain ⟨_,v,hv,hrest⟩ := bind_eq_done.mp h
    have hcall : v=w := by
      have hstate := Inv.callOnBeforeCommit_state w
      rw [hv] at hstate
      exact hstate
    subst hcall
    obtain ⟨error,t,ht,hrest⟩ := bind_eq_done.mp hrest
    obtain ⟨_,u,hu,hrest⟩ := bind_eq_done.mp hrest
    have hend : w'=u := by
      have hs := Inv.throwSome_state error u
      rw [hrest] at hs
      exact hs
    rw [hend]
    refine trans _ _ _ ?_ (hclear hu)
    have hcommand : ∀ (sql : Sql) (r : Option Error),sql.xaId=none →
        Always Unused (do Conn.command sql; return r : Op (Option Error)) :=
      fun sql r hsql => respects.bind (respects.command hsql) (fun _ => respects.pure r)
    rcases Outcome.orElse_eq_done.mp ht with ht | ⟨e,s,hs,ht⟩
    · have hc := hcommand (.commit false) none rfl v
      rw [ht] at hc
      exact hc
    · have hc := hcommand (.commit false) none rfl v
      rw [hs] at hc
      rcases Outcome.orElse_eq_done.mp ht with ht | ⟨e',s',hs',ht⟩
      · have hb := hcommand (.rollback false) (some e) rfl s
        rw [ht] at hb
        exact trans _ _ _ hc hb
      · obtain ⟨_,_,_,ht⟩ := bind_eq_done.mp ht
        cases ht
  · exact hclear h

/-- `startTrx()` sets the fields after what it does about the transaction before. -/
theorem startTrx_done {started : Option (String×World)} {options : TrxOptions} {w w' : World}
    (h : Inv started w) (hd : startTrx options w=.done () w') :
    ∃ v,Inv started v ∧ Unused w v ∧ w'={v with conn := v.conn.setTrx options} := by
  unfold startTrx at hd
  rw [bind_apply,get_apply,Outcome.andThen_done,branch_apply] at hd
  split at hd
  · cases hd
  · rename_i hactive
    obtain ⟨_,v,hv,hd⟩ := bind_eq_done.mp hd
    rw [branch_apply] at hd
    by_cases hinvalid : isInvalidXaId (if options.xaId="" then options.xaId1 else options.xaId)=true
    · rw [if_pos hinvalid] at hd
      cases hd
    · rw [if_neg hinvalid] at hd
      cases hd
      have hi := h.commitWhen (w.inTrans=true)
      rw [hv] at hi
      refine ⟨v,hi,?_,rfl⟩
      unfold doWhen at hv
      split at hv
      · rename_i htrx
        refine Unused.commit ?_ hv
        by_contra hne
        exact hactive ⟨htrx,hne⟩
      · cases hv
        exact Unused.refl w

/-- `startTrx()` that fails does not set the fields. -/
theorem startTrx_thrown {started : Option (String×World)} {options : TrxOptions} {w w' : World}
    {e : Error} (h : Inv started w) (hd : startTrx options w=.thrown e w') : Inv started w' := by
  unfold startTrx at hd
  rw [bind_apply,get_apply,Outcome.andThen_done,branch_apply] at hd
  split at hd
  · cases hd
    exact h
  · have hi := h.commitWhen (w.inTrans=true)
    rcases bind_eq_thrown.mp hd with hv | ⟨_,v,hv,hd⟩
    · rw [hv] at hi
      exact hi
    · rw [hv] at hi
      rw [branch_apply] at hd
      by_cases hinvalid : isInvalidXaId (if options.xaId="" then options.xaId1 else options.xaId)=true
      · rw [if_pos hinvalid] at hd
        cases hd
        exact hi
      · rw [if_neg hinvalid] at hd
        cases hd

/-- A transaction with an `xaId1` is started. -/
theorem auto_setTrx {options : TrxOptions} (hx : options.xaId="") (hx1 : options.xaId1≠"")
    {w v : World} (hu : Unused w v) : Auto options.xaId1 w {v with conn := v.conn.setTrx options} := by
  obtain ⟨⟨es,hl,he⟩,hg,ht⟩ := hu
  have hno : ∀ z,¬UsedSince w {v with conn := v.conn.setTrx options} z := by
    intro z hz
    rcases UsedSince.cases (Nat.le_refl _) (Nat.le_refl _) (Nat.le_refl _) hl
      (hg.trans (List.append_nil _).symm) (ht.trans (List.append_nil _).symm) hz with
      hz | ⟨e,hm,hz⟩ | ⟨_,⟨g,hm,_⟩ | ⟨t,hm,_⟩⟩
    · unfold UsedSince at hz
      simp only [List.drop_length,List.not_mem_nil,false_and,exists_false,or_self,and_false] at hz
    · rw [he e hm] at hz
      cases hz
    · cases hm
    · cases hm
  refine ⟨?_,(congrArg List.length hg).ge,(congrArg List.length ht).ge,?_,?_,fun z hz => absurd hz (hno z),
    fun z _ hz => absurd hz (hno z),fun e hm z hz => absurd (Or.inl ⟨e,hm,hz⟩) (hno z)⟩
  · rw [show World.log {v with conn := v.conn.setTrx options}=w.log++es from hl,List.length_append]
    exact Nat.le_add_right _ _
  · simp only [MyConn.setTrx,hx,ne_eq,not_true_eq_false,if_false,hx1,not_false_eq_true,if_true]
    cases hp : v.conn.protocol with
    | none =>
      intro ha
      cases ha
    | some p => exact fun _ => Or.inr ⟨p,rfl,rfl⟩
  · simp only [MyConn.setTrx,hx,ne_eq,not_true_eq_false,if_false,hx1,not_false_eq_true,if_true]
    cases v.conn.protocol with
    | none => exact fun _ => rfl
    | some p =>
      intro ha
      cases ha

end Commit

/-- A connection object, and the last transaction with an `xaId1`: what was given, and
the world when `startTrx()` was called. -/
structure State where
  /-- The object with what surrounds it. -/
  world : World
  /-- The transaction. -/
  started : Option (String×World) := none

/-- The transaction that a call starts when it succeeds. -/
def startedBy (s : State) : Call → Option (String×World)
  | .startTrx options =>
    if options.xaId="" ∧ options.xaId1≠"" then some (options.xaId1,s.world) else none
  | _ => s.started

/-- One call. -/
def State.step (s : State) (c : Call) : Option State :=
  match c.op s.world with
  | .done _ w => some ⟨w,startedBy s c⟩
  | .thrown _ w => some ⟨w,s.started⟩
  | .waiting _ => none

/-- The part of an id that is given is no id by itself, and a transaction that waits
is not given to a connection of the pool that is dead. -/
def Careful (s : State) : Call → Prop
  | .startTrx options => options.xaId="" → decode options.xaId1=none
  | .query _ => Spared s.started s.world
  | .rollback (some (_+1)) => Spared s.started s.world
  | _ => True

/-- The ids of the transaction name the connection on which it was started. -/
structure Owns (xaId1 : String) (w₀ w : World) : Prop where
  /-- Every id that is used names the connection that executed `XA START`. -/
  owner : ∀ n y hasRows more,
    .answered n (.query (.xaStart y)) (.ok hasRows more) ∈ w.log.drop w₀.log.length →
    ∀ z,UsedSince w₀ w z → z=xaId1++toString n
  /-- The id in a command names the connection that it is sent to. -/
  named : ∀ e ∈ w.log.drop w₀.log.length,∀ z,e.command.xaId=some z → z=xaId1++toString e.connectionId
  /-- The task of the pool does not roll the transaction back while its connection is alive. -/
  alive : ∀ n y hasRows more,
    .answered n (.query (.xaStart y)) (.ok hasRows more) ∈ w.log.drop w₀.log.length →
    ∀ recovered processlist,n ∈ processlist → y ∉ xaTask recovered processlist

/-- What is known in every state. -/
structure Known (s : State) : Prop where
  /-- The object and its transaction. -/
  inv : Inv s.started s.world
  /-- What was given is no id by itself. -/
  given : ∀ xaId1 w₀,s.started=some (xaId1,w₀) → decode xaId1=none

/-- One call that starts no transaction. -/
theorem Known.call {s : State} (h : Known s) {c : Call} (hc : Careful s c)
    (hstart : ∀ options,c≠.startTrx options) : Inv s.started (c.op s.world).state := by
  have hi := h.inv
  cases c with
  | connect => exact hi.connect
  | use schema => exact hi.use schema
  | query q => exact hi.doQuery hc (Inv.quietSource q.2)
  | discard =>
    cases ha : s.world.conn.curXaIdAppendConn with
    | false => exact (Goes.discard s.world hi ha).1
    | true =>
      -- nothing was sent on the connection yet
      have hnone : (Conn.discard s.world).state=s.world := by
        unfold Conn.discard
        rw [bind_apply,get_apply,Outcome.andThen_done]
        cases hp : s.world.conn.protocol with
        | none => rfl
        | some p =>
          dsimp only
          rw [((hi.held.waits ha).2.2 p hp).2]
          rfl
      change Inv s.started (Conn.discard s.world).state
      rw [hnone]
      exact hi
  | startTrx options => exact absurd rfl (hstart options)
  | savepoint => exact hi.addPoint _ _ _
  | sessionSavepoint pointId => exact hi.addPoint _ _ _
  | prepareCommit => exact hi.prepareCommit
  | rollback toPointId =>
    cases toPointId with
    | none => exact hi.rollbackAll false
    | some n =>
      cases n with
      | zero => exact hi.rollbackAll true
      | succ n => exact hi.rollbackTo hc _
  | commit andChain => exact hi.commit andChain
  | endConn => exact hi.endConn
  | dispose =>
    refine (Inv.doEnd (w:={s.world with conn := {s.world.conn with isDisposed := true}}) ?_ none).1
    exact hi.setFields rfl rfl rfl (Or.inl rfl) rfl rfl rfl (fun _ _ hm _ => hm) id (fun _ => id)
  | forceImmediateDisconnect force => exact (hi.doEnd (some force)).1

/-- One call. -/
theorem Known.step {s s' : State} (h : Known s) {c : Call} (hc : Careful s c)
    (hs : s.step c=some s') : Known s' := by
  unfold State.step at hs
  by_cases hstart : ∃ options,c=.startTrx options
  · obtain ⟨options,rfl⟩ := hstart
    have hop : (Call.startTrx options).op=Conn.startTrx options := rfl
    rw [hop] at hs
    cases hr : Conn.startTrx options s.world with
    | waiting w =>
      rw [hr] at hs
      cases hs
    | thrown e w =>
      rw [hr] at hs
      cases hs
      exact ⟨startTrx_thrown h.inv hr,h.given⟩
    | done u w =>
      rw [hr] at hs
      cases hs
      obtain ⟨v,hv,hu,rfl⟩ := startTrx_done h.inv hr
      refine ⟨⟨hv.held_setTrx options,fun xaId1 w₀ hst => ?_⟩,fun xaId1 w₀ hst => ?_⟩
      · simp only [startedBy] at hst
        split_ifs at hst with hx
        cases hst
        exact auto_setTrx hx.1 hx.2 hu
      · simp only [startedBy] at hst
        split_ifs at hst with hx
        cases hst
        exact hc hx.1
  · have hi := h.call hc (fun options he => hstart ⟨options,he⟩)
    have hsame : startedBy s c=s.started := by
      cases c with
      | startTrx options => exact absurd ⟨options,rfl⟩ hstart
      | _ => rfl
    cases hr : c.op s.world with
    | waiting w =>
      rw [hr] at hs
      cases hs
    | thrown e w =>
      rw [hr] at hs hi
      cases hs
      exact ⟨hi,h.given⟩
    | done u w =>
      rw [hr,hsame] at hs
      rw [hr] at hi
      cases hs
      exact ⟨hi,h.given⟩

/-- What is known says whose the ids are. -/
theorem Known.owns {s : State} (h : Known s) {xaId1 : String} {w₀ : World}
    (hs : s.started=some (xaId1,w₀)) : Owns xaId1 w₀ s.world := by
  have hauto := h.inv.auto xaId1 w₀ hs
  have hstart : ∀ n y hasRows more,.answered n (.query (.xaStart y)) (.ok hasRows more) ∈
      s.world.log.drop w₀.log.length → y=xaId1++toString n := fun n y hasRows more hm =>
    hauto.named _ hm y rfl
  refine ⟨fun n y hasRows more hm z hz => ?_,hauto.named,fun n y hasRows more hm recovered processlist hn hx => ?_⟩
  · rw [hauto.one z y hz (Or.inl ⟨_,hm,rfl⟩)]
    exact hstart n y hasRows more hm
  · obtain ⟨x,hd,hgone⟩ := xaTask_gone hx
    rw [hstart n y hasRows more hm] at hd
    rw [decode_append (h.given xaId1 w₀ hs) hd] at hgone
    exact hgone hn

/-- A new object knows no transaction. -/
theorem known_new {w : World} (hw : w.conn={}) : Known {world := w} := by
  refine ⟨⟨?_,fun xaId1 w₀ hs => by cases hs⟩,fun xaId1 w₀ hs => by cases hs⟩
  refine ⟨fun _ => ?_,fun p c hp => ?_,fun sql z hm => ?_,fun hm => ?_,fun ha => ?_⟩
  · rw [hw]
  · rw [hw] at hp
    cases hp
  · rw [hw] at hm
    cases hm
  · rw [hw] at hm
    cases hm
  · rw [hw] at ha
    cases ha

/-- A new object, and what the pool has. The server accepts everything. -/
def withPool (pool : List MyProtocol) : World :=
  {supply := pool.map (fun p => .pooled p false),answers := List.replicate 8 (.ok false false)}

/-- The first part of an id, as `XaIdGen` makes it. -/
def generated : String := "tf5k3.0@7-"

/-- An insertion is a query of a user. -/
theorem insertion_ofUser : Query.OfUser {sql := .text (.user "INSERT"),void := true} := by decide

/-- A distributed transaction is started and used. -/
def starting : List Call := [.startTrx {xaId1 := generated},.query ⟨_,insertion_ofUser⟩]

end SpiritMysql.Conn.XaOwner
