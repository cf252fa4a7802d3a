import Mathlib.Data.Multiset.Bind
import SpiritMysql.Statements

/-!
# Every run closes its statements once

An id that the server returned is in one place: with a resultsets object, in
the cache, with a query that is to put it in the cache, in the list of what is
to be closed, or among the closed ones. Every event moves it from one place to
another, or leaves it where it is.
-/

namespace SpiritMysql.Statements

open EventSystem ListUpdates Protocol

/-- An answer after which there is more to read. -/
def Answer.leavesMore : Answer → Bool
  | .ok true _ | .columns => true
  | _ => false

/-- The answers that the code can deal with, in the state where they come. -/
def CarefulAnswer (s : State) (t : Task) (batch : Batch) (a : Answer) : Prop :=
  match t.stage,t.job with
  | .sent,.prepare _ => batch.option=true → ∀ stmtId nPlaceholders,a≠.prepared stmtId nPlaceholders
  | .sent,.query void _ => batch.option=true → void=true ∨ a.leavesMore=false
  | .sent,.named _ _ =>
    batch.preStmt=false ∧ ((batch.option || batch.prequery)=true → a.leavesMore=false)
  | .results,_ => ∀ h x more head,s.current=some (h,x) → x.isPreparedStmt=true → a≠.ok more head
  | _,_ => True

/-- Nothing happens that the code does not deal with: no earlier command of a batch is refused
where the last one leaves something behind, no OK packet ends the results of a prepared
statement, no statement is disposed of that is about to be executed, and no two
queries with named parameters prepare a statement for one position. -/
def Careful (s : State) : Event → Prop
  | .dispose h => ∀ stmtId,s.task≠some ⟨.exec h stmtId false,.closing⟩
  | .resume i => ∀ c stmtId,s.later[i]?=some c → c.stored=false →
      s.preparedStmtsForParams[c.pos]?=some stmtId → stmtId < 0
  | .answer batch a => ∀ t,s.task=some t → CarefulAnswer s t batch a
  | _ => True

/-! ## The log -/

/-- A place in a list that was extended at its end. -/
theorem split_append {α : Type} {l es before after : List α} {a : α} (ha : a ∉ es)
    (h : l++es=before++a::after) : ∃ rest,l=before++a::rest ∧ after=rest++es := by
  rcases List.append_eq_append_iff.mp h with ⟨m,-,hm⟩ | ⟨m,hl,hm⟩
  · exact absurd (hm ▸ List.mem_append_right m List.mem_cons_self) ha
  · cases m with
    | nil => exact absurd (by rw [←List.nil_append es,←hm]; exact List.mem_cons_self) ha
    | cons b rest =>
      rw [List.cons_append] at hm
      obtain ⟨rfl,rfl⟩ := List.cons.inj hm
      exact ⟨rest,hl,rfl⟩

/-- What is not a flush does not matter. -/
theorem Delivered.append {log es : List Entry} (h : Delivered log) (hes : Entry.flushed ∉ es) :
    Delivered (log++es) := by
  intro before after he
  obtain ⟨rest,hl,-⟩ := split_append hes he
  exact h before rest hl

/-- A flush comes when what was queued is closed. -/
theorem Delivered.flush {log : List Entry} (h : Delivered log)
    (hall : ∀ stmtId,Entry.queued stmtId ∈ log → Entry.close stmtId ∈ log) :
    Delivered (log++[Entry.flushed]) := by
  intro before after he
  rcases List.eq_nil_or_concat after with rfl | ⟨rest,e,rfl⟩
  · obtain ⟨rfl,-⟩ := List.append_inj' he rfl
    exact hall
  · rw [List.concat_eq_append,←List.cons_append,←List.append_assoc] at he
    obtain ⟨hl,-⟩ := List.append_inj' he rfl
    exact h before rest hl

/-- What is executed was not closed. -/
theorem ClosedLast.append {log es : List Entry} (h : ClosedLast log)
    (hlog : ∀ stmtId,Entry.execute stmtId ∈ es → Entry.close stmtId ∉ log)
    (hes : ∀ stmtId,Entry.execute stmtId ∈ es → Entry.close stmtId ∉ es) :
    ClosedLast (log++es) := by
  intro before after stmtId he hx
  by_cases hm : Entry.execute stmtId ∈ es
  · have hc : Entry.close stmtId ∈ log++es := he ▸ List.mem_append_right _ List.mem_cons_self
    rcases List.mem_append.mp hc with hc | hc
    · exact hlog stmtId hm hc
    · exact hes stmtId hm hc
  · rcases List.append_eq_append_iff.mp he with ⟨m,-,hm'⟩ | ⟨m,hl,hm'⟩
    · exact hm (hm' ▸ List.mem_append_right m (List.mem_cons_of_mem _ hx))
    · cases m with
      | nil => exact hm (by rw [←List.nil_append es,←hm']; exact List.mem_cons_of_mem _ hx)
      | cons b rest =>
        rw [List.cons_append] at hm'
        obtain ⟨rfl,rfl⟩ := List.cons.inj hm'
        rcases List.mem_append.mp hx with hx | hx
        · exact h before rest stmtId hl hx
        · exact hm hx

/-- An id is among the closed ones when it is in the log. -/
theorem mem_closedIds {log : List Entry} {stmtId : ℤ} :
    stmtId ∈ closedIds log ↔ Entry.close stmtId ∈ log := by
  rw [closedIds,List.mem_filterMap]
  constructor
  · rintro ⟨e,he,hm⟩
    cases e with
    | close id =>
      cases hm
      exact he
    | _ => cases hm
  · exact fun h => ⟨_,h,rfl⟩

/-- An id is among the queued ones when it is in the log. -/
theorem mem_queuedIds {log : List Entry} {stmtId : ℤ} :
    stmtId ∈ queuedIds log ↔ Entry.queued stmtId ∈ log := by
  rw [queuedIds,List.mem_filterMap]
  constructor
  · rintro ⟨e,he,hm⟩
    cases e with
    | queued id =>
      cases hm
      exact he
    | _ => cases hm
  · exact fun h => ⟨_,h,rfl⟩

/-- An id is among the returned ones when it is in the log. -/
theorem mem_returnedIds {log : List Entry} {stmtId : ℤ} :
    stmtId ∈ returnedIds log ↔ Entry.returned stmtId ∈ log := by
  rw [returnedIds,List.mem_filterMap]
  constructor
  · rintro ⟨e,he,hm⟩
    cases e with
    | returned id =>
      cases hm
      exact he
    | _ => cases hm
  · exact fun h => ⟨_,h,rfl⟩

/-! ## What is owned -/

/-- A number that is an id. -/
theorem ids_of_nonneg {stmtId : ℤ} (h : 0 ≤ stmtId) : ids stmtId={stmtId} := if_pos h

/-- A number that is none. -/
theorem ids_of_neg {stmtId : ℤ} (h : stmtId < 0) : ids stmtId=0 := if_neg (not_le.mpr h)

/-- What the resultsets objects hold. -/
def handleIds (handles : List Handle) : Multiset ℤ := (handles.map fun x => ids x.stmtId).sum

/-- What the waiting queries hold. -/
def laterIds (later : List Continuation) : Multiset ℤ :=
  (later.map fun c => if c.stored=true then 0 else ids c.stmtId).sum

/-- The three places. -/
theorem owned_eq (s : State) : s.owned=handleIds s.handles+(s.preparedStmtsForParams.map ids).sum+
    laterIds s.later := rfl

/-- One more object. -/
theorem handleIds_concat (handles : List Handle) (x : Handle) :
    handleIds (handles++[x])=handleIds handles+ids x.stmtId := by
  rw [handleIds,List.map_append,List.sum_append,List.map_singleton,List.sum_singleton]
  rfl

/-- An object that keeps its id. -/
theorem handleIds_modify (handles : List Handle) (h : ℕ) {f : Handle → Handle}
    (hf : ∀ x,(f x).stmtId=x.stmtId) : handleIds (handles.modify h f)=handleIds handles := by
  rw [handleIds,handleIds]
  congr 1
  apply List.ext_getElem?
  intro i
  rw [List.getElem?_map,List.getElem?_map,List.getElem?_modify]
  cases handles[i]? with
  | none => rfl
  | some x =>
    by_cases hi : h=i
    · simp only [hi,if_true,Option.map_eq_map,Option.map_some,hf]
    · simp only [hi,if_false,Option.map_eq_map,Option.map_some]

/-- An object in the place of another one. -/
theorem handleIds_set {handles : List Handle} {h : ℕ} {x : Handle} (hx : handles[h]?=some x)
    (y : Handle) : handleIds (handles.set h y)+ids x.stmtId=handleIds handles+ids y.stmtId :=
  total_set (fun x : Handle => ids x.stmtId) hx y

/-- One more waiting query. -/
theorem laterIds_concat (later : List Continuation) (c : Continuation) :
    laterIds (later++[c])=laterIds later+if c.stored=true then 0 else ids c.stmtId := by
  rw [laterIds,List.map_append,List.sum_append,List.map_singleton,List.sum_singleton]
  rfl

/-- An object holds what it has. -/
theorem mem_owned_handle {s : State} {h : ℕ} {x : Handle} (hx : s.handles[h]?=some x)
    (hid : 0 ≤ x.stmtId) : x.stmtId ∈ s.owned := by
  have hm : x.stmtId ∈ handleIds s.handles := by
    rw [handleIds,←Multiset.sum_coe]
    refine Multiset.mem_join.mpr ⟨ids x.stmtId,?_,?_⟩
    · exact Multiset.mem_coe.mpr (List.mem_map.mpr ⟨x,List.mem_of_getElem? hx,rfl⟩)
    · rw [ids_of_nonneg hid]
      exact Multiset.mem_singleton_self _
  rw [owned_eq]
  exact Multiset.mem_add.mpr (Or.inl (Multiset.mem_add.mpr (Or.inl hm)))

/-- The cache holds what is in it. -/
theorem mem_owned_cache {s : State} {stmtId : ℤ} (hm : stmtId ∈ s.preparedStmtsForParams)
    (hid : 0 ≤ stmtId) : stmtId ∈ s.owned := by
  have hs : stmtId ∈ (s.preparedStmtsForParams.map ids).sum := by
    rw [←Multiset.sum_coe]
    refine Multiset.mem_join.mpr ⟨ids stmtId,?_,?_⟩
    · exact Multiset.mem_coe.mpr (List.mem_map.mpr ⟨stmtId,hm,rfl⟩)
    · rw [ids_of_nonneg hid]
      exact Multiset.mem_singleton_self _
  rw [owned_eq]
  exact Multiset.mem_add.mpr (Or.inl (Multiset.mem_add.mpr (Or.inr hs)))

/-! ## The invariant -/

/-- A resultsets object that can be disposed of. -/
structure Handle.Good (x : Handle) : Prop where
  /-- The number is an id or `-1`. -/
  whole : -1 ≤ x.stmtId
  /-- An object with an id has the connection. -/
  protocol : 0 ≤ x.stmtId → x.protocol=true
  /-- An object that the caller does not have yet has an id. -/
  use : x.use≠.caller → 0 ≤ x.stmtId

/-- The object of a query with positional parameters is there, while it is executed. -/
def State.Executing (s : State) (job : Job) : Prop :=
  ∀ i stmtId,job=.exec i stmtId true → ∃ x : Handle,s.handles[i]?=some x ∧ x.use=.executing

/-- The id to execute has an owner until no other `COM_STMT_CLOSE` comes before, and an object
that was read without an id has none. -/
def State.Fits (s : State) (t : Task) : Prop :=
  match t.stage with
  | .closing =>
    match t.job with
    | .exec i stmtId positional => 0 ≤ stmtId ∧ ∃ x,s.handles[i]?=some x ∧ x.stmtId=stmtId ∧
        x.use=if positional=true then .executing else .caller
    | .named stmtId _ => 0 ≤ stmtId ∧ stmtId ∈ s.preparedStmtsForParams
    | _ => True
  | .ready => ∀ stmtId,Entry.execute stmtId ∈ t.job.commands → Entry.close stmtId ∉ s.log
  | .sent => True
  | .rows | .results => t.job.captured < 0 → ∀ i x,s.curResultsets=some i → s.handles[i]?=some x →
      x.stmtId < 0

/-- What holds of the operation in progress. -/
def State.Good (s : State) (t : Task) : Prop := s.Executing t.job ∧ s.Fits t

/-- The invariant of a run. -/
structure Inv (s : State) : Prop where
  /-- Every id is in one place, except what was dropped when the connection failed. -/
  balance : ∃ dropped : Multiset ℤ,(returnedIds s.log : Multiset ℤ)=
    s.owned+((s.pendingCloseStmts : Multiset ℤ)+closedIds s.log)+dropped ∧
      (s.state≠.ERROR → dropped=0)
  /-- No id was returned twice. -/
  once : (returnedIds s.log).Nodup
  /-- What was queued is closed or to be closed. -/
  queued : (queuedIds s.log : Multiset ℤ)=(s.pendingCloseStmts : Multiset ℤ)+closedIds s.log
  /-- What was queued is closed before the next command. -/
  delivered : Delivered s.log
  /-- What is closed is not executed afterwards. -/
  last : ClosedLast s.log
  /-- The objects. -/
  handles : ∀ (i : ℕ) (x : Handle),s.handles[i]?=some x → x.Good
  /-- The waiting queries have an id, and those that wait to be sent have it from the cache. -/
  later : ∀ c ∈ s.later,0 ≤ c.stmtId ∧ (c.stored=true → c.stmtId ∈ s.preparedStmtsForParams)
  /-- The cache. -/
  cache : ∀ stmtId ∈ s.preparedStmtsForParams,-1 ≤ stmtId
  /-- The operation in progress. -/
  task : ∀ t,s.task=some t → s.Good t
  /-- An operation in progress is seen in the state. -/
  busy : ∀ t,s.task=some t → s.state=.QUERYING
  /-- The connection was not ended. -/
  alive : s.state≠.TERMINATED
  /-- All answers were read. -/
  unread : s.unread=false

/-- A new connection. -/
theorem inv_new : Inv {} := by
  refine ⟨⟨0,rfl,fun _ => rfl⟩,List.nodup_nil,rfl,?_,?_,?_,?_,?_,?_,?_,?_,rfl⟩
  · intro before after h
    exact absurd h (by simp)
  · intro before after stmtId h
    exact absurd h (by simp)
  · exact fun h x hx => by cases hx
  · exact fun c hc => absurd hc List.not_mem_nil
  · exact fun c hc => absurd hc List.not_mem_nil
  · exact fun t ht => by cases ht
  · exact fun t ht => by cases ht
  · exact fun h => by cases h

section

variable {s : State}

/-- What has an owner is not to be closed, and not closed. -/
theorem Inv.owned_not_closed (h : Inv s) {stmtId : ℤ} (ho : stmtId ∈ s.owned) :
    Entry.close stmtId ∉ s.log := by
  obtain ⟨dropped,hb,-⟩ := h.balance
  have hn : (s.owned+((s.pendingCloseStmts : Multiset ℤ)+closedIds s.log)+dropped).Nodup := by
    rw [←hb]
    exact Multiset.coe_nodup.mpr h.once
  have hd := (Multiset.nodup_add.mp (Multiset.nodup_add.mp hn).1).2.2
  intro hc
  refine (Multiset.disjoint_left.mp hd) ho (Multiset.mem_add.mpr (Or.inr ?_))
  exact Multiset.mem_coe.mpr (mem_closedIds.mpr hc)

/-- Another operation, or another stage of it. -/
theorem Inv.setTask (h : Inv s) (hne : s.state≠.ERROR) {state : ProtocolState}
    (hstate : state=.QUERYING) {t : Task} (ht : s.Good t) :
    Inv {s with state := state,task := some t} := by
  subst hstate
  obtain ⟨dropped,hb,hd⟩ := h.balance
  exact {h with
    balance := ⟨dropped,hb,fun _ => hd hne⟩
    task := fun t' ht' => by cases ht'; exact ht
    busy := fun t' _ => rfl
    alive := fun hs => by cases hs}

/-- The operation in progress is over. -/
theorem Inv.done (h : Inv s) {state : ProtocolState} (hstate : state≠.TERMINATED)
    (hne : state=.ERROR ∨ s.state≠.ERROR) : Inv (s.done state) := by
  obtain ⟨dropped,hb,hd⟩ := h.balance
  exact {h with
    balance := ⟨dropped,hb,fun hs => hd (hne.resolve_left hs)⟩
    task := fun t' ht' => by cases ht'
    busy := fun t' ht' => by cases ht'
    alive := hstate}

/-- An object is changed that keeps its id, between the operations. -/
theorem Inv.modify (h : Inv s) (ht : s.task=none) (i : ℕ) {f : Handle → Handle}
    (hid : ∀ x,(f x).stmtId=x.stmtId)
    (hf : ∀ x,s.handles[i]?=some x → x.Good → (f x).Good) (curResultsets : Option ℕ) :
    Inv {s with handles := s.handles.modify i f,curResultsets := curResultsets} := by
  obtain ⟨dropped,hb,hd⟩ := h.balance
  refine {h with
    balance := ⟨dropped,?_,hd⟩
    handles := ?_
    task := fun t' ht' => absurd (ht.symm.trans ht') (Option.some_ne_none _).symm}
  · rw [hb,owned_eq,owned_eq]
    change _=handleIds (s.handles.modify i f)+_+_+_+_
    rw [handleIds_modify _ _ hid]
  · intro j x hx
    rcases modify_get hx with ⟨-,hx⟩ | ⟨y,rfl,hy,rfl⟩
    · exact h.handles j x hx
    · exact hf y hy (h.handles i y hy)

/-- A new object without an id. -/
theorem Inv.newHandle (h : Inv s) (ht : s.task=none) {x : Handle} (hx : x.stmtId=-1)
    (hu : x.use=.caller) (curResultsets : Option ℕ) :
    Inv {s with handles := s.handles++[x],curResultsets := curResultsets} := by
  obtain ⟨dropped,hb,hd⟩ := h.balance
  refine {h with
    balance := ⟨dropped,?_,hd⟩
    handles := ?_
    task := fun t' ht' => absurd (ht.symm.trans ht') (Option.some_ne_none _).symm}
  · rw [hb,owned_eq,owned_eq]
    change _=handleIds (s.handles++[x])+_+_+_+_
    rw [handleIds_concat,ids_of_neg (by rw [hx]; decide),add_zero]
  · intro j y hy
    rcases getElem_concat hy with hy | ⟨-,rfl⟩
    · exact h.handles j y hy
    · refine ⟨by rw [hx],fun h0 => ?_,fun hn => absurd hu hn⟩
      rw [hx] at h0
      exact absurd h0 (by decide)

/-- A statement is disposed of, when it is not about to be executed. -/
theorem Inv.disposePreparedStmt (h : Inv s) {i : ℕ} {x : Handle} (hx : s.handles[i]?=some x)
    (hid : 0 ≤ x.stmtId) (huse : x.use≠.executing) (hno : ∀ stmtId positional,
      s.task≠some ⟨.exec i stmtId positional,.closing⟩) : Inv (s.disposePreparedStmt i x) := by
  obtain ⟨dropped,hb,hd⟩ := h.balance
  have hsum : handleIds (s.handles.set i
      {x with stmtId := -1,protocol := x.hasMoreInternal,use := .caller})+{x.stmtId}=
        handleIds s.handles := by
    have hs := handleIds_set hx {x with stmtId := -1,protocol := x.hasMoreInternal,use := .caller}
    rw [ids_of_nonneg hid] at hs
    exact hs.trans (add_zero _)
  have hh : ∀ (j : ℕ) (y : Handle),(s.handles.set i
      {x with stmtId := -1,protocol := x.hasMoreInternal,use := .caller})[j]?=some y → y.Good := by
    intro j y hy
    rcases getElem_set hy with ⟨-,rfl⟩ | ⟨-,hy⟩
    · exact ⟨le_refl _,(fun h0 => absurd h0 (not_le.mpr neg_one_lt_zero)),fun hn => absurd rfl hn⟩
    · exact h.handles j y hy
  have ht : ∀ (log : List Entry),(∀ stmtId,Entry.close stmtId ∈ log → Entry.close stmtId ∈ s.log) →
      ∀ t,s.task=some t → State.Good {s with
        handles := s.handles.set i
          {x with stmtId := -1,protocol := x.hasMoreInternal,use := .caller}
        log := log} t := by
    intro log hlog t ht
    obtain ⟨hexec,hg⟩ := h.task t ht
    obtain ⟨job,stage⟩ := t
    refine ⟨?_,?_⟩
    · intro j stmtId he
      obtain ⟨y,hy,hu⟩ := hexec j stmtId he
      have hij : i≠j := by
        rintro rfl
        rw [hx] at hy
        cases hy
        exact huse hu
      exact ⟨y,(List.getElem?_set_ne hij).trans hy,hu⟩
    cases stage with
    | closing =>
      cases job with
      | exec j stmtId positional =>
        obtain ⟨h0,y,hy,hrest⟩ := hg
        refine ⟨h0,y,?_,hrest⟩
        have hij : i≠j := fun hij => hno stmtId positional (hij ▸ ht)
        exact (List.getElem?_set_ne hij).trans hy
      | named stmtId void => exact hg
      | _ => trivial
    | ready => exact fun stmtId hm hc => hg stmtId hm (hlog stmtId hc)
    | sent => trivial
    | rows | results =>
      intro hcap j y hj hy
      rcases getElem_set hy with ⟨-,rfl⟩ | ⟨-,hy⟩
      · exact neg_one_lt_zero
      · exact hg hcap j y hj hy
  unfold State.disposePreparedStmt
  rw [if_pos ((h.handles i x hx).protocol hid)]
  by_cases hs : s.state≠.ERROR ∧ s.state≠.TERMINATED
  · rw [if_pos hs]
    have hret : returnedIds (s.log++[.queued x.stmtId])=returnedIds s.log := by
      rw [returnedIds,List.filterMap_append]
      exact List.append_nil _
    have hclosed : closedIds (s.log++[.queued x.stmtId])=closedIds s.log := by
      rw [closedIds,List.filterMap_append]
      exact List.append_nil _
    have hqueued : queuedIds (s.log++[.queued x.stmtId])=queuedIds s.log++[x.stmtId] := by
      rw [queuedIds,List.filterMap_append]
      rfl
    refine {h with
      balance := ⟨dropped,?_,hd⟩
      once := ?_
      queued := ?_
      delivered := h.delivered.append ?_
      last := h.last.append ?_ ?_
      handles := hh
      task := ht _ ?_}
    · change (returnedIds (s.log++[.queued x.stmtId]) : Multiset ℤ)=handleIds (s.handles.set i _)+
        (s.preparedStmtsForParams.map ids).sum+laterIds s.later+(((s.pendingCloseStmts++[x.stmtId] : List ℤ) : Multiset ℤ)+
          closedIds (s.log++[.queued x.stmtId]))+dropped
      rw [hret,hclosed,hb,owned_eq,←hsum,←Multiset.coe_add,Multiset.coe_singleton]
      ac_rfl
    · exact hret ▸ h.once
    · change (queuedIds (s.log++[.queued x.stmtId]) : Multiset ℤ)=
        ((s.pendingCloseStmts++[x.stmtId] : List ℤ) : Multiset ℤ)+
          closedIds (s.log++[.queued x.stmtId])
      rw [hqueued,hclosed,←Multiset.coe_add,←Multiset.coe_add,h.queued]
      ac_rfl
    · simp
    · simp
    · simp
    · intro stmtId hc
      simpa using hc
  · rw [if_neg hs]
    have herr : s.state=.ERROR := by
      by_contra hne
      exact hs ⟨hne,h.alive⟩
    refine {h with
      balance := ⟨dropped+{x.stmtId},?_,fun hn => absurd herr hn⟩
      handles := hh
      task := ht s.log (fun _ hc => hc)}
    change (returnedIds s.log : Multiset ℤ)=handleIds (s.handles.set i _)+
      (s.preparedStmtsForParams.map ids).sum+laterIds s.later+((s.pendingCloseStmts : Multiset ℤ)+
        closedIds s.log)+(dropped+{x.stmtId})
    rw [hb,owned_eq,←hsum]
    ac_rfl

/-- A statement id is returned, and taken by an object or a waiting query. -/
theorem Inv.returned (h : Inv s) (ht : s.task=none) {stmtId : ℕ}
    (hnew : Entry.returned (stmtId : ℤ) ∉ s.log) {handles : List Handle} {later : List Continuation}
    (howned : handleIds handles+laterIds later=handleIds s.handles+laterIds s.later+{(stmtId : ℤ)})
    (hh : ∀ (i : ℕ) (x : Handle),handles[i]?=some x → x.Good)
    (hl : ∀ c ∈ later,0 ≤ c.stmtId ∧ (c.stored=true → c.stmtId ∈ s.preparedStmtsForParams)) :
    Inv {s with log := s.log++[.returned stmtId],handles := handles,later := later} := by
  obtain ⟨dropped,hb,hd⟩ := h.balance
  have hret : returnedIds (s.log++[.returned stmtId])=returnedIds s.log++[(stmtId : ℤ)] := by
    rw [returnedIds,List.filterMap_append]
    rfl
  have hclosed : closedIds (s.log++[.returned stmtId])=closedIds s.log := by
    rw [closedIds,List.filterMap_append]
    exact List.append_nil _
  have hqueued : queuedIds (s.log++[.returned stmtId])=queuedIds s.log := by
    rw [queuedIds,List.filterMap_append]
    exact List.append_nil _
  refine {h with
    balance := ⟨dropped,?_,hd⟩
    once := ?_
    queued := ?_
    delivered := h.delivered.append ?_
    last := h.last.append ?_ ?_
    handles := hh
    later := hl
    task := fun t ht' => absurd (ht.symm.trans ht') (Option.some_ne_none _).symm}
  · change (returnedIds (s.log++[.returned stmtId]) : Multiset ℤ)=handleIds handles+
      (s.preparedStmtsForParams.map ids).sum+laterIds later+((s.pendingCloseStmts : Multiset ℤ)+
        closedIds (s.log++[.returned stmtId]))+dropped
    have hsplit : handleIds handles+(s.preparedStmtsForParams.map ids).sum+laterIds later=
        s.owned+{(stmtId : ℤ)} := by
      rw [add_right_comm,howned,owned_eq]
      ac_rfl
    rw [hret,hclosed,hsplit,←Multiset.coe_add,hb,Multiset.coe_singleton]
    ac_rfl
  · change (returnedIds (s.log++[.returned stmtId])).Nodup
    rw [hret]
    refine List.Nodup.append h.once (List.nodup_singleton _) ?_
    exact List.disjoint_singleton.mpr (fun hm => hnew (mem_returnedIds.mp hm))
  · change (queuedIds (s.log++[.returned stmtId]) : Multiset ℤ)=
      (s.pendingCloseStmts : Multiset ℤ)+closedIds (s.log++[.returned stmtId])
    rw [hqueued,hclosed,h.queued]
  · simp
  · simp
  · simp

/-- Another log and other lists of what is to be closed, with the same ids in them. -/
theorem Inv.closing (h : Inv s) {pending : List ℤ} {es : List Entry}
    (hret : returnedIds es=[]) (hqueued : queuedIds es=[])
    (hclosed : (pending : Multiset ℤ)+closedIds es=s.pendingCloseStmts)
    (hdelivered : Delivered (s.log++es)) (hlast : ClosedLast (s.log++es)) {task : Option Task}
    (htask : ∀ t,task=some t → State.Good {s with log := s.log++es} t)
    (hbusy : ∀ t,task=some t → s.state=.QUERYING) :
    Inv {s with pendingCloseStmts := pending,log := s.log++es,task := task} := by
  obtain ⟨dropped,hb,hd⟩ := h.balance
  have hret' : returnedIds (s.log++es)=returnedIds s.log := by
    rw [returnedIds,List.filterMap_append]
    exact (congrArg _ hret).trans (List.append_nil _)
  have hqueued' : queuedIds (s.log++es)=queuedIds s.log := by
    rw [queuedIds,List.filterMap_append]
    exact (congrArg _ hqueued).trans (List.append_nil _)
  have hclosed' : (pending : Multiset ℤ)+closedIds (s.log++es)=
      (s.pendingCloseStmts : Multiset ℤ)+closedIds s.log := by
    have hc : closedIds (s.log++es)=closedIds s.log++closedIds es := List.filterMap_append
    rw [hc,←hclosed,←Multiset.coe_add]
    ac_rfl
  refine {h with
    balance := ⟨dropped,?_,hd⟩
    once := ?_
    queued := ?_
    delivered := hdelivered
    last := hlast
    task := htask
    busy := hbusy}
  · change (returnedIds (s.log++es) : Multiset ℤ)=s.owned+
      ((pending : Multiset ℤ)+closedIds (s.log++es))+dropped
    rw [hret',hclosed',hb]
  · exact hret' ▸ h.once
  · change (queuedIds (s.log++es) : Multiset ℤ)=(pending : Multiset ℤ)+closedIds (s.log++es)
    rw [hqueued',hclosed',h.queued]

/-- `#doPending()` sends commands. -/
theorem Inv.doPending (h : Inv s) {job : Job} (ht : s.task=some ⟨job,.closing⟩) (n : ℕ) :
    Inv {s with
      pendingCloseStmts := s.pendingCloseStmts.take (s.pendingCloseStmts.length-n)
      log := s.log++
        (s.pendingCloseStmts.drop (s.pendingCloseStmts.length-n)).reverse.map .close} := by
  have hno : ∀ (l : List ℤ) e,e ∈ l.map Entry.close → ∃ stmtId,e=.close stmtId := by
    intro l e he
    obtain ⟨stmtId,-,rfl⟩ := List.mem_map.mp he
    exact ⟨stmtId,rfl⟩
  have hclosed : ∀ l : List ℤ,closedIds (l.map .close)=l := by
    intro l
    rw [closedIds,List.filterMap_map]
    exact List.filterMap_some
  refine h.closing ?_ ?_ ?_ (h.delivered.append ?_) (h.last.append ?_ ?_) (fun t ht' => ?_)
    (fun t ht' => h.busy t ht')
  · rw [returnedIds,List.filterMap_map]
    exact List.filterMap_none _
  · rw [queuedIds,List.filterMap_map]
    exact List.filterMap_none _
  · rw [hclosed,Multiset.coe_reverse,Multiset.coe_add,List.take_append_drop]
  · intro hf
    obtain ⟨stmtId,he⟩ := hno _ _ hf
    cases he
  · intro stmtId hx
    obtain ⟨stmtId',he⟩ := hno _ _ hx
    cases he
  · intro stmtId hx
    obtain ⟨stmtId',he⟩ := hno _ _ hx
    cases he
  · rw [ht] at ht'
    cases ht'
    obtain ⟨hexec,hg⟩ := h.task _ ht
    refine ⟨hexec,?_⟩
    cases job with
    | exec i stmtId positional => exact hg
    | named stmtId void => exact hg
    | _ => trivial

/-- `#doPending()` has nothing to send. -/
theorem Inv.flush (h : Inv s) {job : Job} (ht : s.task=some ⟨job,.closing⟩)
    (hp : s.pendingCloseStmts=[]) :
    Inv {s with task := some ⟨job,.ready⟩,log := s.log++[.flushed]} := by
  have hall : ∀ stmtId,Entry.queued stmtId ∈ s.log → Entry.close stmtId ∈ s.log := by
    intro stmtId hq
    have hm : stmtId ∈ (queuedIds s.log : Multiset ℤ) := Multiset.mem_coe.mpr (mem_queuedIds.mpr hq)
    rw [h.queued,hp] at hm
    rcases Multiset.mem_add.mp hm with hm | hm
    · exact absurd hm List.not_mem_nil
    · exact mem_closedIds.mp (Multiset.mem_coe.mp hm)
  have howned : ∀ stmtId,Entry.execute stmtId ∈ job.commands → stmtId ∈ s.owned := by
    intro stmtId hx
    have hg := (h.task _ ht).2
    cases job with
    | exec i stmtId' positional =>
      obtain ⟨h0,x,hx',rfl,-⟩ := hg
      rw [Job.commands,List.mem_singleton] at hx
      cases hx
      exact mem_owned_handle hx' h0
    | named stmtId' void =>
      obtain ⟨h0,hm⟩ := hg
      have he : stmtId=stmtId' := by simpa [Job.commands] using hx
      exact mem_owned_cache (he ▸ hm) (he ▸ h0)
    | query void error => simp [Job.commands] at hx
    | prepare purpose => simp [Job.commands] at hx
    | fetch stmtId' => simp [Job.commands] at hx
    | nextResultset stmtId' => simp [Job.commands] at hx
  refine h.closing rfl rfl (add_zero _) (h.delivered.flush hall) (h.last.append ?_ ?_) ?_
    (fun t _ => h.busy _ ht)
  · simp
  · simp
  · intro t ht'
    cases ht'
    refine ⟨(h.task _ ht).1,fun stmtId hx hc => ?_⟩
    rcases List.mem_append.mp hc with hc | hc
    · exact h.owned_not_closed (howned stmtId hx) hc
    · simp at hc

/-- The command is sent. -/
theorem Inv.send (h : Inv s) {job : Job} (ht : s.task=some ⟨job,.ready⟩) :
    Inv {s with task := some ⟨job,.sent⟩,log := s.log++job.commands} := by
  obtain ⟨hexec,hg⟩ := h.task _ ht
  have hno : (∀ stmtId,Entry.close stmtId ∉ job.commands) ∧ Entry.flushed ∉ job.commands ∧
      returnedIds job.commands=[] ∧ queuedIds job.commands=[] ∧ closedIds job.commands=[] := by
    cases job <;> simp [Job.commands,returnedIds,queuedIds,closedIds]
  obtain ⟨hclose,hflush,hret,hqueued,hclosed⟩ := hno
  refine h.closing hret hqueued ?_ (h.delivered.append hflush) (h.last.append hg ?_) ?_
    (fun t _ => h.busy _ ht)
  · rw [hclosed]
    exact add_zero _
  · exact fun stmtId _ => hclose stmtId
  · intro t ht'
    cases ht'
    exact ⟨hexec,trivial⟩

/-! ## The answers -/

/-- The connection is not lost while an operation is in progress. -/
theorem Inv.not_error (h : Inv s) {t : Task} (ht : s.task=some t) : s.state≠.ERROR := by
  rw [h.busy t ht]
  exact fun hs => by cases hs

/-- An operation ends after an answer. -/
theorem Inv.answered (h : Inv s) {t : Task} (ht : s.task=some t) {state : ProtocolState}
    (hstate : state≠.TERMINATED) : Inv (s.done state) :=
  h.done hstate (Or.inr (h.not_error ht))

/-- The answer to `COM_STMT_PREPARE`. -/
theorem Inv.prepared (h : Inv s) {t : Task} (ht : s.task=some t) {purpose : Purpose} {batch : Batch}
    {a : Answer} (hc : batch.option=true → ∀ stmtId nPlaceholders,a≠.prepared stmtId nPlaceholders)
    {s' : State} (hs : s.prepared purpose batch a=some s') : Inv s' := by
  have hdone : Inv (s.done .IDLE) := h.answered ht (fun hs => by cases hs)
  cases a with
  | prepared stmtId nPlaceholders =>
    unfold State.prepared at hs
    dsimp only at hs
    by_cases hnew : Entry.returned (stmtId : ℤ) ∈ s.log
    · rw [if_pos hnew] at hs
      cases hs
    have hoption : ¬batch.option=true := fun ho => hc ho stmtId nPlaceholders rfl
    rw [if_neg hnew,if_neg hoption] at hs
    have hobject : ∀ (use : Use),Inv {s.done .IDLE with
        log := s.log++[.returned stmtId]
        handles := s.handles++[{
          isPreparedStmt := true,stmtId := stmtId,protocol := true,nPlaceholders := nPlaceholders,
          use := use}]} := by
      intro use
      refine hdone.returned rfl hnew ?_ ?_ h.later
      · rw [handleIds_concat,ids_of_nonneg (Int.natCast_nonneg stmtId),add_right_comm]
        rfl
      · intro i x hx
        rcases getElem_concat hx with hx | ⟨-,rfl⟩
        · exact h.handles i x hx
        · exact ⟨le_trans (by decide) (Int.natCast_nonneg stmtId),fun _ => rfl,
            fun _ => Int.natCast_nonneg stmtId⟩
    cases purpose with
    | caller =>
      cases hs
      exact hobject .caller
    | positional nParams =>
      cases hs
      exact hobject (.positional nParams)
    | named pos void =>
      cases hs
      refine hdone.returned rfl hnew ?_ h.handles ?_
      · rw [laterIds_concat,if_neg Bool.false_ne_true,ids_of_nonneg (Int.natCast_nonneg stmtId),add_assoc]
        rfl
      · intro c hm
        rcases List.mem_append.mp hm with hm | hm
        · exact h.later c hm
        · rw [List.mem_singleton.mp hm]
          exact ⟨Int.natCast_nonneg stmtId,fun he => by cases he⟩
  | refused =>
    cases hs
    exact hdone
  | _ => cases hs

/-- An object with more to read can be disposed of. -/
theorem Handle.Good.hasMore {x : Handle} (h : x.Good) :
    Handle.Good {x with protocol := true,hasMoreInternal := true} :=
  ⟨h.whole,fun _ => rfl,h.use⟩

/-- The execution of a query with positional parameters ends. -/
theorem Inv.leave (h : Inv s) {i : ℕ} {stmtId : ℤ} {stage : Stage}
    (ht : s.task=some ⟨.exec i stmtId true,stage⟩) {state : ProtocolState}
    (hdone : Inv (s.done state)) : Inv (State.done {s with
      handles := s.handles.modify i fun x => {x with use := .leaving}} state) := by
  obtain ⟨y,hy,hu⟩ := (h.task _ ht).1 i stmtId rfl
  refine @Inv.modify _ hdone rfl i (fun x => {x with use := .leaving}) (fun x => rfl)
    (fun x hx hg => ⟨hg.whole,hg.protocol,fun _ => ?_⟩) _
  rw [show s.handles[i]?=some x from hx] at hy
  cases hy
  exact hg.use (by rw [hu]; exact fun he => by cases he)

/-- The answer to `COM_STMT_EXECUTE`. -/
theorem Inv.executed (h : Inv s) {i : ℕ} {stmtId : ℤ} {positional : Bool} {stage : Stage}
    (ht : s.task=some ⟨.exec i stmtId positional,stage⟩) {a : Answer} {s' : State}
    (hs : s.executed i positional a=some s') : Inv s' := by
  have hleave : ∀ state : ProtocolState,state≠.TERMINATED → Inv ((if positional=true then
      {s with handles := s.handles.modify i fun x => {x with use := .leaving}} else s).done
        state) := by
    intro state hstate
    by_cases hp : positional=true
    · rw [if_pos hp]
      exact h.leave (hp ▸ ht) (h.answered ht hstate)
    · rw [if_neg hp]
      exact h.answered ht hstate
  have hmore : ∀ state : ProtocolState,state≠.TERMINATED → Inv (((if positional=true then
      {s with handles := s.handles.modify i fun x => {x with use := .leaving}} else s).hasMore i).done
        state) := by
    intro state hstate
    exact @Inv.modify _ (hleave state hstate) (by split_ifs <;> rfl) i
      (fun x => {x with protocol := true,hasMoreInternal := true}) (fun x => rfl)
      (fun x _ hg => hg.hasMore) (some i)
  cases a with
  | ok more head =>
    cases more with
    | false =>
      cases hs
      exact hleave .IDLE (fun hs => by cases hs)
    | true =>
      cases hs
      exact hmore .HAS_MORE_RESULTSETS (fun hs => by cases hs)
  | columns =>
    cases hs
    exact hmore .HAS_MORE_ROWS (fun hs => by cases hs)
  | refused =>
    cases hs
    exact hleave .IDLE (fun hs => by cases hs)
  | _ => cases hs

/-- A query fails, and perhaps is retried. -/
theorem Inv.failed (hdone : Inv (s.done .IDLE)) (hq : s.state=.QUERYING) (void retry : Bool) :
    Inv (s.failed void retry) := by
  unfold State.failed
  by_cases hr : retry=true
  · rw [if_pos hr]
    exact hdone.setTask (fun hs => by cases hs) hq ⟨(fun i stmtId he => by cases he),trivial⟩
  · rw [if_neg hr]
    exact hdone

/-- A query ends. -/
theorem Inv.ended (hdone : Inv (s.done .IDLE)) (hq : s.state=.QUERYING) (void : Bool)
    (error : Option Bool) : Inv (s.ended void error) := by
  cases error with
  | none => exact hdone
  | some retry => exact hdone.failed hq void retry

/-- The answers to a query, when it leaves nothing behind that is not read. -/
theorem Inv.queried (h : Inv s) {t : Task} (ht : s.task=some t) {void alone retry : Bool}
    {error : Option Bool} {a : Answer}
    (hc : error≠none → (void=false ∨ alone=false) → a.leavesMore=false) {s' : State}
    (hs : s.queried void error alone retry a=some s') : Inv s' := by
  have hq := h.busy t ht
  have hdone : Inv (s.done .IDLE) := h.answered ht (fun hs => by cases hs)
  have hmore : ∀ (state : ProtocolState) (stage : Stage),state≠.TERMINATED →
      stage=.rows ∨ stage=.results → a.leavesMore=true →
      Inv (if error≠none ∧ (void=false ∨ alone=false) then {s.done .IDLE with unread := true}
        else if void=true then {s with
          handles := s.handles++[{protocol := true,hasMoreInternal := true}]
          curResultsets := some s.handles.length
          task := some ⟨.query void error,stage⟩}
        else State.done {s with
          handles := s.handles++[{protocol := true,hasMoreInternal := true}]
          curResultsets := some s.handles.length} state) := by
    intro state stage hstate hstage hl
    have hno : ¬(error≠none ∧ (void=false ∨ alone=false)) := by
      rintro ⟨he,hv⟩
      rw [hc he hv] at hl
      cases hl
    rw [if_neg hno]
    by_cases hv : void=true
    · rw [if_pos hv]
      refine (hdone.newHandle rfl rfl rfl (some s.handles.length)).setTask (fun hs => by cases hs) hq
        ⟨(fun i stmtId he => by cases he),?_⟩
      have hlast : ∀ i (x : Handle),some s.handles.length=some i →
          (s.handles++[{protocol := true,hasMoreInternal := true}])[i]?=some x → x.stmtId < 0 := by
        intro i x hi hx
        cases hi
        rw [List.getElem?_concat_length] at hx
        cases hx
        exact neg_one_lt_zero
      rcases hstage with rfl | rfl
      · exact fun _ => hlast
      · exact fun _ => hlast
    · rw [if_neg hv]
      exact (h.answered ht hstate).newHandle rfl rfl rfl (some s.handles.length)
  cases a with
  | ok more head =>
    cases more with
    | false =>
      cases hs
      have hnew : Inv (State.done {s with handles := s.handles++[({} : Handle)]} .IDLE) :=
        hdone.newHandle rfl rfl rfl s.curResultsets
      exact hnew.ended hq void error
    | true =>
      cases hs
      exact hmore _ _ (fun hs => by cases hs) (Or.inr rfl) rfl
  | columns =>
    cases hs
    exact hmore _ _ (fun hs => by cases hs) (Or.inl rfl) rfl
  | refused =>
    cases hs
    exact hdone.failed hq void retry
  | _ => cases hs

/-- The current resultsets object. -/
theorem current_eq_some {i : ℕ} {x : Handle} :
    s.current=some (i,x) ↔ s.curResultsets=some i ∧ s.handles[i]?=some x := by
  unfold State.current
  cases hr : s.curResultsets with
  | none => simp
  | some j =>
    rw [Option.bind_some]
    constructor
    · intro h
      obtain ⟨y,hy,he⟩ := Option.map_eq_some_iff.mp h
      cases he
      exact ⟨rfl,hy⟩
    · rintro ⟨hj,hx⟩
      cases hj
      rw [hx]
      rfl

/-- The current object is read to the end, and has no id when none was taken from it. -/
theorem Inv.readToEnd {state : ProtocolState} (hdone : Inv (s.done state)) {stmtId : ℤ}
    (hid : stmtId < 0 → ∀ i x,s.curResultsets=some i → s.handles[i]?=some x → x.stmtId < 0) :
    Inv ((s.readToEnd stmtId).done state) := by
  unfold State.readToEnd
  cases hr : s.curResultsets with
  | none => exact hdone
  | some i =>
    refine @Inv.modify _ hdone rfl i (fun x => {x with
      protocol := x.protocol && decide (0 ≤ stmtId),hasMoreInternal := false}) (fun x => rfl) ?_ none
    intro x hx hg
    refine ⟨hg.whole,fun h0 => ?_,hg.use⟩
    have hnot : 0 ≤ stmtId := by
      by_contra hneg
      exact absurd h0 (not_le.mpr (hid (not_le.mp hneg) i x hr hx))
    change (x.protocol && decide (0 ≤ stmtId))=true
    rw [hg.protocol h0,decide_eq_true hnot]
    rfl

/-- Reading to the end leaves the state of the connection. -/
theorem readToEnd_state (stmtId : ℤ) : (s.readToEnd stmtId).state=s.state := by
  unfold State.readToEnd
  cases s.curResultsets with
  | none => rfl
  | some i => rfl

/-- What an operation that reads rows or a response knows of the current object. -/
theorem Inv.reading (h : Inv s) {job : Job} {stage : Stage} (ht : s.task=some ⟨job,stage⟩)
    (hstage : stage=.rows ∨ stage=.results) : job.captured < 0 → ∀ i x,s.curResultsets=some i →
      s.handles[i]?=some x → x.stmtId < 0 := by
  rcases hstage with rfl | rfl
  · exact (h.task _ ht).2
  · exact (h.task _ ht).2

/-- Reading is over. -/
theorem Inv.readingEnds (h : Inv s) {job : Job} {stage : Stage} (ht : s.task=some ⟨job,stage⟩)
    (hstage : stage=.rows ∨ stage=.results) : Inv (s.readingEnds job) := by
  have hr := h.reading ht hstage
  have hdone : Inv (s.done .IDLE) := h.answered ht (fun hs => by cases hs)
  cases job with
  | query void error =>
    exact Inv.ended (hdone.readToEnd hr) ((readToEnd_state _).trans (h.busy _ ht)) void error
  | _ => exact hdone.readToEnd hr

/-- An error packet ends reading. -/
theorem Inv.readingFails (h : Inv s) {job : Job} {stage : Stage} (ht : s.task=some ⟨job,stage⟩)
    (retry : Bool) : Inv (s.readingFails retry job) := by
  have hdone : Inv (s.done .IDLE) := h.answered ht (fun hs => by cases hs)
  cases job with
  | query void error => exact hdone.failed (h.busy _ ht) void _
  | _ => exact hdone

/-- Rows are read. -/
theorem Inv.readRows (h : Inv s) {job : Job} (ht : s.task=some ⟨job,.rows⟩) {retry : Bool}
    {a : Answer} {s' : State} (hs : s.readRows job retry a=some s') : Inv s' := by
  have hr := h.reading ht (Or.inl rfl)
  have hq := h.busy _ ht
  cases a with
  | row =>
    cases job with
    | fetch stmtId =>
      cases hs
      exact h.answered ht (fun hs => by cases hs)
    | _ =>
      cases hs
      exact h
  | rowsEnd more =>
    cases more with
    | false =>
      cases hs
      exact h.readingEnds ht (Or.inl rfl)
    | true =>
      cases job with
      | fetch stmtId =>
        cases hs
        exact h.answered ht (fun hs => by cases hs)
      | nextResultset stmtId =>
        unfold State.readRows at hs
        dsimp only at hs
        rw [if_pos rfl] at hs
        cases hcur : s.current with
        | none =>
          rw [hcur] at hs
          cases hs
        | some p =>
          obtain ⟨i,x⟩ := p
          rw [hcur] at hs
          cases hs
          obtain ⟨hi,hx⟩ := current_eq_some.mp hcur
          refine h.setTask (h.not_error ht) hq ⟨(fun j id he => by cases he),fun hneg j y hj hy => ?_⟩
          rw [hi] at hj
          cases hj
          rw [hx] at hy
          cases hy
          exact hneg
      | _ =>
        cases hs
        exact h.setTask (h.not_error ht) hq ⟨(h.task _ ht).1,hr⟩
  | refused =>
    cases hs
    exact h.readingFails ht retry
  | _ => cases hs

/-- The next response is read, when no OK packet ends the results of a prepared
statement. -/
theorem Inv.readResults (h : Inv s) {job : Job} (ht : s.task=some ⟨job,.results⟩) {retry : Bool}
    {a : Answer} (hc : ∀ i x more head,s.current=some (i,x) → x.isPreparedStmt=true → a≠.ok more head)
    {s' : State} (hs : s.readResults job retry a=some s') : Inv s' := by
  have hr := h.reading ht (Or.inr rfl)
  cases a with
  | ok more head =>
    unfold State.readResults at hs
    dsimp only at hs
    cases hcur : s.current with
    | none =>
      rw [hcur] at hs
      cases hs
    | some p =>
      obtain ⟨i,x⟩ := p
      rw [hcur] at hs
      dsimp only at hs
      rw [if_neg (fun hp => hc i x more head hcur hp rfl)] at hs
      cases more with
      | false =>
        cases hs
        exact h.readingEnds ht (Or.inr rfl)
      | true =>
        cases job with
        | query void error =>
          cases hs
          exact h
        | _ =>
          cases hs
          exact h.answered ht (fun hs => by cases hs)
  | columns =>
    cases job with
    | query void error =>
      cases hs
      exact h.setTask (h.not_error ht) (h.busy _ ht) ⟨(h.task _ ht).1,hr⟩
    | _ =>
      cases hs
      exact h.answered ht (fun hs => by cases hs)
  | refused =>
    cases hs
    exact h.readingFails ht retry
  | _ => cases hs

/-- An answer to the operation in progress. -/
theorem Inv.answer (h : Inv s) {t : Task} (ht : s.task=some t) {batch : Batch} {a : Answer}
    (hc : CarefulAnswer s t batch a) {s' : State} (hs : s.answer t batch a=some s') : Inv s' := by
  obtain ⟨job,stage⟩ := t
  cases stage with
  | closing => cases hs
  | ready => cases hs
  | rows => exact h.readRows ht hs
  | results => exact h.readResults ht hc hs
  | sent =>
    cases job with
    | prepare purpose => exact h.prepared ht hc hs
    | exec i stmtId positional => exact h.executed ht hs
    | query void error =>
      refine h.queried ht (fun he hv => ?_) hs
      by_cases ho : batch.option=true
      · refine (hc ho).resolve_left (fun hvoid => ?_)
        rcases hv with hv | hv
        · rw [hv] at hvoid
          cases hvoid
        · cases hv
      · exact absurd (if_neg ho) he
    | named stmtId void =>
      obtain ⟨hpre,hmore⟩ := hc
      unfold State.answer at hs
      dsimp only at hs
      rw [if_neg (by rw [hpre]; exact Bool.false_ne_true)] at hs
      refine h.queried ht (fun he _ => hmore ?_) hs
      by_contra hno
      exact he (if_neg hno)
    | fetch stmtId => cases hs
    | nextResultset stmtId => cases hs

/-! ## The operations of the caller -/

/-- An operation begins when no other one is in progress. -/
theorem begin_eq {job : Job} {s' : State} (hs : s.begin job=some s') : s.state≠.ERROR ∧
    s'={s with state := .QUERYING,task := some ⟨job,.closing⟩} := by
  unfold State.begin at hs
  cases hst : s.state with
  | IDLE | IDLE_IN_POOL =>
    rw [hst] at hs
    cases hs
    exact ⟨(fun he => by cases he),rfl⟩
  | _ =>
    rw [hst] at hs
    cases hs

/-- An operation begins, or throws. -/
theorem Inv.call (h : Inv s) {job : Job} (hg : s.Good ⟨job,.closing⟩) : Inv (s.call job) := by
  unfold State.call
  cases hs : s.begin job with
  | none => exact h
  | some s' =>
    obtain ⟨hne,rfl⟩ := begin_eq hs
    exact h.setTask hne rfl hg

/-- What `exec()` checks. -/
theorem exec_eq {i : ℕ} {x : Handle} {nParams : ℕ} {positional : Bool} {s' : State}
    (hs : s.exec i x nParams positional=some s') :
    0 ≤ x.stmtId ∧ s.begin (.exec i x.stmtId positional)=some s' := by
  unfold State.exec at hs
  split_ifs at hs with hn hp hid
  exact ⟨not_lt.mp hid,hs⟩

/-- An object that the caller does not have is used in another way. -/
theorem Inv.setUse (h : Inv s) {i : ℕ} {x : Handle} (hx : s.handles[i]?=some x)
    (hcaller : x.use≠.caller) (hexecuting : x.use≠.executing) (use : Use) :
    Inv {s with handles := s.handles.modify i fun x => {x with use := use}} := by
  obtain ⟨dropped,hb,hd⟩ := h.balance
  have hother : ∀ {j : ℕ} {y : Handle},s.handles[j]?=some y →
      y.use=.executing ∨ y.use=.caller →
      (s.handles.modify i fun x => {x with use := use})[j]?=some y := by
    intro j y hy hu
    have hij : i≠j := by
      rintro rfl
      rw [hx] at hy
      cases hy
      exact hu.elim hexecuting hcaller
    rw [List.getElem?_modify,hy]
    simp only [hij,if_false,Option.map_eq_map,Option.map_some]
  refine {h with
    balance := ⟨dropped,?_,hd⟩
    handles := ?_
    task := fun t ht => ?_}
  · have hids : handleIds (s.handles.modify i fun x => {x with use := use})=handleIds s.handles :=
      handleIds_modify _ _ (fun x => rfl)
    rw [hb,owned_eq,owned_eq,hids]
  · intro j y hy
    rcases modify_get hy with ⟨-,hy⟩ | ⟨z,rfl,hz,rfl⟩
    · exact h.handles j y hy
    · rw [hx] at hz
      cases hz
      have hg := h.handles i x hx
      exact ⟨hg.whole,hg.protocol,fun _ => hg.use hcaller⟩
  · obtain ⟨hexec,hfits⟩ := h.task t ht
    obtain ⟨job,stage⟩ := t
    refine ⟨fun j stmtId he => ?_,?_⟩
    · obtain ⟨y,hy,hu⟩ := hexec j stmtId he
      exact ⟨y,hother hy (Or.inl hu),hu⟩
    · cases stage with
      | closing =>
        cases job with
        | exec j stmtId positional =>
          obtain ⟨h0,y,hy,he,hu⟩ := hfits
          refine ⟨h0,y,hother hy ?_,he,hu⟩
          rw [hu]
          cases positional with
          | false => exact Or.inr rfl
          | true => exact Or.inl rfl
        | named stmtId void => exact hfits
        | _ => trivial
      | ready => exact hfits
      | sent => trivial
      | rows | results =>
        intro hcap j y hj hy
        rcases modify_get hy with ⟨-,hy⟩ | ⟨z,rfl,hz,rfl⟩
        · exact hfits hcap j y hj hy
        · exact hfits hcap _ z hj hz

/-- `exec()` of the caller. -/
theorem Inv.exec (h : Inv s) {i : ℕ} {x : Handle} (hx : s.handles[i]?=some x)
    (hu : x.use=.caller) (nParams : ℕ) : Inv ((s.exec i x nParams false).getD s) := by
  cases hs : s.exec i x nParams false with
  | none => exact h
  | some s' =>
    obtain ⟨h0,hb⟩ := exec_eq hs
    obtain ⟨hne,rfl⟩ := begin_eq hb
    exact h.setTask hne rfl ⟨(fun j id he => by cases he),h0,x,hx,rfl,hu⟩

/-- A query with positional parameters goes on. -/
theorem Inv.goOn (h : Inv s) {i : ℕ} {s' : State} (hs : s.step (.goOn i)=some s') : Inv s' := by
  unfold State.step at hs
  dsimp only at hs
  cases hx : s.handles[i]? with
  | none =>
    rw [hx] at hs
    cases hs
  | some x =>
    rw [hx] at hs
    dsimp only at hs
    cases hu : x.use with
    | caller =>
      rw [hu] at hs
      cases hs
    | executing =>
      rw [hu] at hs
      cases hs
    | leaving =>
      rw [hu] at hs
      cases hs
      refine h.disposePreparedStmt hx ((h.handles i x hx).use (by rw [hu]; exact fun he => by cases he))
        (by rw [hu]; exact fun he => by cases he) ?_
      intro stmtId positional ht
      obtain ⟨-,y,hy,-,hyu⟩ := (h.task _ ht).2
      rw [hx] at hy
      cases hy
      rw [hu] at hyu
      cases positional with
      | false => cases hyu
      | true => cases hyu
    | positional nParams =>
      have huse := fun use => h.setUse hx (by rw [hu]; exact fun he => by cases he)
        (by rw [hu]; exact fun he => by cases he) use
      rw [hu] at hs
      dsimp only at hs
      cases he : s.exec i x nParams true with
      | none =>
        rw [he] at hs
        cases hs
        exact huse .leaving
      | some s₁ =>
        rw [he] at hs
        cases hs
        obtain ⟨h0,hb⟩ := exec_eq he
        obtain ⟨hne,rfl⟩ := begin_eq hb
        have hnew : (s.handles.modify i fun x => {x with use := .executing})[i]?=
            some {x with use := .executing} := by
          rw [List.getElem?_modify,hx]
          simp only [if_true,Option.map_eq_map,Option.map_some]
        refine (huse .executing).setTask hne rfl ⟨fun j id hj => ?_,h0,_,hnew,rfl,rfl⟩
        cases hj
        exact ⟨_,hnew,rfl⟩

/-! ## Named parameters -/

/-- The cache with one more id, where none was. -/
theorem storeStmt_sum {cache : List ℤ} {pos : ℕ} {stmtId : ℤ}
    (hhole : ∀ stmtId',cache[pos]?=some stmtId' → stmtId' < 0) :
    ((storeStmt cache pos stmtId).map ids).sum=(cache.map ids).sum+ids stmtId := by
  have hpad : ((cache++List.replicate (pos-cache.length) (-1)).map ids).sum=(cache.map ids).sum := by
    rw [List.map_append,List.sum_append,List.map_replicate,ids_of_neg neg_one_lt_zero,
      List.sum_replicate,nsmul_zero,add_zero]
  unfold storeStmt
  dsimp only
  split_ifs with hlt
  · have hat : ∃ old,(cache++List.replicate (pos-cache.length) (-1))[pos]?=some old ∧ old < 0 := by
      refine ⟨_,List.getElem?_eq_getElem hlt,?_⟩
      by_cases hl : pos < cache.length
      · rw [List.getElem_append_left hl]
        exact hhole _ (List.getElem?_eq_getElem hl)
      · rw [List.getElem_append_right (not_lt.mp hl),List.getElem_replicate]
        exact neg_one_lt_zero
    obtain ⟨old,hold,hneg⟩ := hat
    have hs := total_set ids hold stmtId
    rw [ids_of_neg hneg,add_zero,hpad] at hs
    exact hs
  · rw [List.map_append,List.sum_append,hpad,List.map_singleton,List.sum_singleton]

/-- What the cache has after one more id was put in it. -/
theorem mem_storeStmt {cache : List ℤ} {pos : ℕ} {stmtId id : ℤ}
    (h : id ∈ storeStmt cache pos stmtId) : id ∈ cache ∨ id=-1 ∨ id=stmtId := by
  have hpad : ∀ {m},m ∈ cache++List.replicate (pos-cache.length) (-1) → m ∈ cache ∨ m=-1 := by
    intro m hm
    rcases List.mem_append.mp hm with hm | hm
    · exact Or.inl hm
    · exact Or.inr (List.eq_of_mem_replicate hm)
  unfold storeStmt at h
  dsimp only at h
  split_ifs at h with hlt
  · rcases List.mem_or_eq_of_mem_set h with hm | rfl
    · exact (hpad hm).imp_right Or.inl
    · exact Or.inr (Or.inr rfl)
  · rcases List.mem_append.mp h with hm | hm
    · exact (hpad hm).imp_right Or.inl
    · exact Or.inr (Or.inr (List.mem_singleton.mp hm))

/-- The cache has the new id, and the ids that it had. -/
theorem storeStmt_keeps {cache : List ℤ} {pos : ℕ} {stmtId : ℤ}
    (hhole : ∀ stmtId',cache[pos]?=some stmtId' → stmtId' < 0) {id : ℤ} (h0 : 0 ≤ id)
    (hm : id ∈ cache ∨ id=stmtId) : id ∈ storeStmt cache pos stmtId := by
  have hsum : ((storeStmt cache pos stmtId).map ids).sum=(cache.map ids).sum+ids stmtId :=
    storeStmt_sum hhole
  have hin : id ∈ ((storeStmt cache pos stmtId).map ids).sum := by
    rw [hsum,Multiset.mem_add]
    rcases hm with hm | rfl
    · left
      rw [←Multiset.sum_coe]
      refine Multiset.mem_join.mpr ⟨ids id,Multiset.mem_coe.mpr (List.mem_map.mpr ⟨id,hm,rfl⟩),?_⟩
      rw [ids_of_nonneg h0]
      exact Multiset.mem_singleton_self _
    · right
      rw [ids_of_nonneg h0]
      exact Multiset.mem_singleton_self _
  rw [←Multiset.sum_coe] at hin
  obtain ⟨m,hm,him⟩ := Multiset.mem_join.mp hin
  obtain ⟨id',hid',rfl⟩ := List.mem_map.mp (Multiset.mem_coe.mp hm)
  unfold ids at him
  split_ifs at him
  · rw [Multiset.mem_singleton.mp him]
    exact hid'
  · exact absurd him (Multiset.notMem_zero id)

/-- A query with named parameters waits, with an id that is in the cache. -/
theorem Inv.wait (h : Inv s) {c : Continuation} (h0 : 0 ≤ c.stmtId) (hstored : c.stored=true)
    (hm : c.stmtId ∈ s.preparedStmtsForParams) : Inv {s with later := s.later++[c]} := by
  obtain ⟨dropped,hb,hd⟩ := h.balance
  refine {h with
    balance := ⟨dropped,?_,hd⟩
    later := ?_}
  · have hids : laterIds (s.later++[c])=laterIds s.later := by
      rw [laterIds_concat,if_pos hstored,add_zero]
    rw [hb,owned_eq,owned_eq,hids]
  · intro d hd'
    rcases List.mem_append.mp hd' with hd' | hd'
    · exact h.later d hd'
    · rw [List.mem_singleton.mp hd']
      exact ⟨h0,fun _ => hm⟩

/-- A query with named parameters goes on. -/
theorem Inv.resume (h : Inv s) {i : ℕ} (hc : Careful s (.resume i)) {s' : State}
    (hs : s.step (.resume i)=some s') : Inv s' := by
  unfold State.step at hs
  dsimp only at hs
  cases hl : s.later[i]? with
  | none =>
    rw [hl] at hs
    cases hs
  | some c =>
    rw [hl] at hs
    dsimp only at hs
    obtain ⟨dropped,hb,hd⟩ := h.balance
    obtain ⟨h0,hcached⟩ := h.later c (List.mem_of_getElem? hl)
    by_cases hstored : c.stored=true
    · rw [if_pos hstored] at hs
      cases hs
      have hless : Inv {s with later := s.later.eraseIdx i} := by
        refine {h with
          balance := ⟨dropped,?_,hd⟩
          later := fun d hd' => h.later d (List.mem_of_mem_eraseIdx hd')}
        have hids : laterIds (s.later.eraseIdx i)=laterIds s.later := by
          obtain ⟨hi,hat⟩ := List.getElem?_eq_some_iff.mp hl
          have hp := ((List.getElem_cons_eraseIdx_perm hi).map
            fun c : Continuation => if c.stored=true then 0 else ids c.stmtId).sum_eq
          rw [List.map_cons,List.sum_cons,hat,if_pos hstored,zero_add] at hp
          exact hp
        rw [hb,owned_eq,owned_eq,hids]
      exact hless.call ⟨(fun j id he => by cases he),h0,hcached hstored⟩
    · rw [if_neg hstored] at hs
      cases hs
      have hhole : ∀ stmtId',s.preparedStmtsForParams[c.pos]?=some stmtId' → stmtId' < 0 :=
        fun stmtId' hat => hc c stmtId' hl (Bool.not_eq_true _ ▸ hstored) hat
      have hset : laterIds (s.later.set i {c with stored := true})+ids c.stmtId=laterIds s.later := by
        have ht := total_set (fun c : Continuation => if c.stored=true then 0 else ids c.stmtId) hl
          {c with stored := true}
        rw [if_neg hstored,if_pos rfl,add_zero] at ht
        exact ht
      refine {h with
        balance := ⟨dropped,?_,hd⟩
        later := ?_
        cache := ?_
        task := ?_}
      · rw [hb,owned_eq,owned_eq]
        change _=handleIds s.handles+
          ((storeStmt s.preparedStmtsForParams c.pos c.stmtId).map ids).sum+
            laterIds (s.later.set i {c with stored := true})+((s.pendingCloseStmts : Multiset ℤ)+
              closedIds s.log)+dropped
        rw [storeStmt_sum hhole,←hset]
        ac_rfl
      · intro d hd'
        rcases List.mem_or_eq_of_mem_set hd' with hd' | rfl
        · obtain ⟨hd0,hdc⟩ := h.later d hd'
          exact ⟨hd0,fun hds => storeStmt_keeps hhole hd0 (Or.inl (hdc hds))⟩
        · exact ⟨h0,fun _ => storeStmt_keeps hhole h0 (Or.inr rfl)⟩
      · intro id hm
        rcases mem_storeStmt hm with hm | rfl | rfl
        · exact h.cache id hm
        · exact le_refl _
        · exact le_trans (by decide) h0
      · intro t ht
        obtain ⟨hexec,hfits⟩ := h.task t ht
        refine ⟨hexec,?_⟩
        obtain ⟨job,stage⟩ := t
        cases stage with
        | closing =>
          cases job with
          | named id void =>
            obtain ⟨hid,hin⟩ := hfits
            exact ⟨hid,storeStmt_keeps hhole hid (Or.inl hin)⟩
          | exec j id positional => exact hfits
          | _ => trivial
        | ready => exact hfits
        | sent => trivial
        | rows | results => exact hfits

/-! ## Every run -/

/-- Every event keeps the invariant. -/
theorem Inv.step (h : Inv s) {e : Event} (hc : Careful s e) {s' : State} (hs : s.step e=some s') :
    Inv s' := by
  have hplain : ∀ {job : Job},(∀ i id,job≠.exec i id true) → s.Fits ⟨job,.closing⟩ →
      Inv (s.call job) := fun hno hf => h.call ⟨fun i id he => absurd he (hno i id),hf⟩
  have hread : ∀ {job : Job} {x : Handle} {i : ℕ} {stage : Stage},s.current=some (i,x) →
      job.captured=x.stmtId → (∀ j id,job≠.exec j id true) → s.state≠.ERROR →
      stage=.rows ∨ stage=.results → Inv {s with state := .QUERYING,task := some ⟨job,stage⟩} := by
    intro job x i stage hcur hcap hno hne hstage
    obtain ⟨hi,hx⟩ := current_eq_some.mp hcur
    refine h.setTask hne rfl ⟨fun j id he => absurd he (hno j id),?_⟩
    have hfits : job.captured < 0 → ∀ j (y : Handle),s.curResultsets=some j → s.handles[j]?=some y →
        y.stmtId < 0 := by
      intro hneg j y hj hy
      rw [hi] at hj
      cases hj
      rw [hx] at hy
      cases hy
      exact hcap ▸ hneg
    rcases hstage with rfl | rfl
    · exact hfits
    · exact hfits
  cases e with
  | query void =>
    unfold State.step at hs
    dsimp only at hs
    rw [if_neg (by rw [h.unread]; exact Bool.false_ne_true)] at hs
    cases hs
    exact hplain (fun i id he => by cases he) trivial
  | prepare =>
    unfold State.step at hs
    dsimp only at hs
    rw [if_neg (by rw [h.unread]; exact Bool.false_ne_true)] at hs
    cases hs
    exact hplain (fun i id he => by cases he) trivial
  | positional nParams =>
    unfold State.step at hs
    dsimp only at hs
    rw [if_neg (by rw [h.unread]; exact Bool.false_ne_true)] at hs
    cases hs
    exact hplain (fun i id he => by cases he) trivial
  | named nParams void =>
    unfold State.step at hs
    dsimp only at hs
    rw [if_neg (by rw [h.unread]; exact Bool.false_ne_true)] at hs
    split_ifs at hs with hzero hmany
    · cases hs
      exact hplain (fun i id he => by cases he) trivial
    · cases hs
      exact h
    · cases hat : s.preparedStmtsForParams[(nParams-1)/8]? with
      | none =>
        rw [hat] at hs
        cases hs
        exact hplain (fun i id he => by cases he) trivial
      | some stmtId =>
        rw [hat] at hs
        dsimp only at hs
        by_cases hid : stmtId≠-1
        · rw [if_pos hid] at hs
          cases hs
          have hm := List.mem_of_getElem? hat
          have h0 : 0 ≤ stmtId := by
            have hwhole := h.cache stmtId hm
            omega
          exact h.wait h0 rfl hm
        · rw [if_neg hid] at hs
          cases hs
          exact hplain (fun i id he => by cases he) trivial
  | exec i nParams =>
    unfold State.step at hs
    dsimp only at hs
    cases hx : s.handles[i]? with
    | none =>
      rw [hx] at hs
      cases hs
    | some x =>
      rw [hx] at hs
      dsimp only at hs
      split_ifs at hs with hno
      cases hs
      exact h.exec hx (not_not.mp (not_or.mp hno).2) nParams
  | fetch =>
    unfold State.step at hs
    dsimp only at hs
    rw [if_neg (by rw [h.unread]; exact Bool.false_ne_true)] at hs
    split at hs
    · rename_i hst hcur
      cases hs
      refine hread hcur rfl (fun j id he => by cases he) ?_ (Or.inl rfl)
      rw [hst]
      exact fun he => by cases he
    · cases hs
      exact h
  | nextResultset =>
    unfold State.step at hs
    dsimp only at hs
    rw [if_neg (by rw [h.unread]; exact Bool.false_ne_true)] at hs
    split at hs
    · rename_i hst hcur
      cases hs
      refine hread hcur rfl (fun j id he => by cases he) ?_ (Or.inl rfl)
      rw [hst]
      exact fun he => by cases he
    · rename_i hst hcur
      cases hs
      refine hread hcur rfl (fun j id he => by cases he) ?_ (Or.inr rfl)
      rw [hst]
      exact fun he => by cases he
    · cases hs
      exact h
  | dispose i =>
    unfold State.step at hs
    dsimp only at hs
    cases hx : s.handles[i]? with
    | none =>
      rw [hx] at hs
      cases hs
    | some x =>
      rw [hx] at hs
      dsimp only at hs
      split_ifs at hs with hu hid
      · cases hs
        exact h
      · cases hs
        have hu' : x.use=.caller := not_not.mp hu
        have h0 : 0 ≤ x.stmtId := by
          have hwhole := (h.handles i x hx).whole
          omega
        refine h.disposePreparedStmt hx h0 (by rw [hu']; exact fun he => by cases he) ?_
        intro stmtId positional ht
        cases positional with
        | false => exact hc stmtId ht
        | true =>
          obtain ⟨y,hy,hyu⟩ := (h.task _ ht).1 i stmtId rfl
          rw [hx] at hy
          cases hy
          rw [hu'] at hyu
          cases hyu
  | goOn i => exact h.goOn hs
  | resume i => exact h.resume hc hs
  | doPending n =>
    unfold State.step at hs
    dsimp only at hs
    split at hs
    · rename_i job ht
      cases hs
      exact h.doPending ht n
    · cases hs
  | flush =>
    unfold State.step at hs
    dsimp only at hs
    split at hs
    · rename_i job ht
      split_ifs at hs with hp
      cases hs
      exact h.flush ht hp
    · cases hs
  | send =>
    unfold State.step at hs
    dsimp only at hs
    split at hs
    · rename_i job ht
      cases hs
      exact h.send ht
    · cases hs
  | answer batch a =>
    unfold State.step at hs
    dsimp only at hs
    cases ht : s.task with
    | none =>
      rw [ht] at hs
      cases hs
    | some t =>
      rw [ht] at hs
      exact h.answer ht (hc t ht) hs
  | lost =>
    unfold State.step at hs
    dsimp only at hs
    split at hs
    · rename_i job stage ht
      have hdone : Inv (s.done .ERROR) := h.done (fun hs => by cases hs) (Or.inl rfl)
      cases hs
      split
      · exact h.leave ht hdone
      · exact hdone
    · cases hs

end

/-- Where the invariant holds, every statement is closed once. -/
theorem Inv.closedOnce {s : State} (h : Inv s) : ClosedOnce s := by
  obtain ⟨dropped,hb,hd⟩ := h.balance
  have hnodup : (s.owned+((s.pendingCloseStmts : Multiset ℤ)+closedIds s.log)+dropped).Nodup := by
    rw [←hb]
    exact Multiset.coe_nodup.mpr h.once
  have hplaces := (Multiset.nodup_add.mp (Multiset.nodup_add.mp hnodup).1).2.1
  refine ⟨fun hne stmtId hm => ?_,?_,?_,fun stmtId hm => ?_,h.delivered,h.last⟩
  · have hcount := Multiset.count_eq_one_of_mem (Multiset.coe_nodup.mpr h.once)
      (Multiset.mem_coe.mpr hm)
    rw [hb,hd hne,add_zero,Multiset.count_add,Multiset.count_add,Multiset.coe_count,
      Multiset.coe_count,←add_assoc] at hcount
    exact hcount
  · rw [←Multiset.coe_nodup,h.queued]
    exact hplaces
  · exact Multiset.coe_nodup.mp (Multiset.nodup_add.mp hplaces).2.1
  · refine Multiset.mem_coe.mp ?_
    rw [hb]
    refine Multiset.mem_add.mpr (Or.inl (Multiset.mem_add.mpr (Or.inr (Multiset.mem_add.mpr
      (Or.inr (Multiset.mem_coe.mpr hm))))))

/-- A statement is executed, a row of it is read, it is disposed of while there are rows to read,
and closed before the next query, which has a positional parameter. -/
def partlyRead : List Event :=
  [.prepare,.flush,.send,.answer {} (.prepared 7 1),.exec 0 1,.flush,.send,.answer {} .columns,
    .fetch,.answer {} .row,.dispose 0,.nextResultset,.answer {} (.rowsEnd false),
    .positional 1,.doPending 3,.flush,.send,.answer {} (.prepared 8 1),.goOn 1,.flush,.send,
    .answer {} .refused,.goOn 1]

end SpiritMysql.Statements
