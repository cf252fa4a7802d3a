import SpiritMysql.EventSystem
import SpiritMysql.ListUpdates
import SpiritMysql.PoolRun

/-!
# Who waits for a slot of the pool

A call of `getProtocol()` that finds no slot leaves a callback with the object of its
name and waits for it, or for a timer. The callbacks are called when a connection of
that name is gone, and the counter over all names is below the limit of this one.
-/

namespace SpiritMysql.PoolWaiters

open DsnName EventSystem ListUpdates Pool PoolRun

/-- `HaveSlotsCallback`. -/
structure HaveSlotsCallback where
  /-- The promise that `y()` resolves. -/
  promise : ℕ
  /-- When the wait times out. -/
  till : WithTop ℚ

/-- A pool, and who waits. -/
structure State where
  /-- The pool. -/
  pool : Pool.State := {}
  /-- `haveSlotsCallbacks` of each object. -/
  haveSlotsCallbacks : ℕ → List HaveSlotsCallback := fun _ => []
  /-- The promise that a call of `getProtocol()` waits for in `#waitHaveSlots()`. -/
  waiting : ℕ → Option ℕ := fun _ => none
  /-- How many promises were made. -/
  promises : ℕ := 0

/-- What can happen. -/
inductive Event where
  /-- An event of the pool, but for those below. -/
  | pool (e : Pool.Event)
  /-- A call of `getProtocol()` checks for a slot. -/
  | next (i : ℕ) (now : WithTop ℚ)
  /-- The timer of a call that waits. -/
  | timer (i : ℕ)
  /-- `#closeConn()` ends, which was called for this object and a connection of this name. -/
  | closed (conns : ℕ) (dsn : Dsn)

/-- `reconnectInterval` of `getProtocol()`. -/
def reconnectInterval (dsn : Dsn) : WithTop ℚ := orDefault dsn.reconnectInterval 500

/-- Some callbacks of an object are called, and the others stay. The calls that wait
for them go on. -/
def State.signal (s : State) (conns : ℕ) (called : HaveSlotsCallback → Bool) : State :=
  {s with
    haveSlotsCallbacks := Function.update s.haveSlotsCallbacks conns
      ((s.haveSlotsCallbacks conns).filter (fun c => !called c))
    waiting := fun i =>
      if ((s.haveSlotsCallbacks conns).filter called).any (fun c => s.waiting i==some c.promise) then none
      else s.waiting i}

/-- `#closeHaveSlotsTimedOut()`. -/
def State.closeHaveSlotsTimedOut (s : State) (conns : ℕ) (now : WithTop ℚ) : State :=
  s.signal conns (fun c => decide (c.till ≤ now))

/-- `#decNBusyAll()`, when the counter was decremented. -/
def State.decNBusyAll (s : State) (conns : ℕ) (dsn : Dsn) : State :=
  if (((s.pool.nBusyAll : ℤ) : ℚ) : WithTop ℚ) < maxConns dsn then s.signal conns (fun _ => true) else s

/-- The slots of an object that are taken. -/
def slots (o : Protocols) : WithTop ℚ := (((o.busy.length+o.nConnecting : ℕ) : ℚ) : WithTop ℚ)

/-- What a connection is of that an event returns, or that it failed to open: the object,
and the name. -/
def State.freed (s : State) : Event → Option (ℕ×Dsn)
  | .pool (.returnProtocol id _ _) =>
    (s.pool.busyProtocol id).bind fun p => (s.pool.findBusy p).map fun place => (place.1,p.dsn)
  | .pool (.forceDisconnect id) =>
    (s.pool.busyProtocol id).bind fun p => (s.pool.findBusy p).map fun place => (place.1,p.dsn)
  | .pool (.connectFailed i) => (s.pool.requests[i]?).map fun r => (r.conns,r.dsn)
  | _ => none

/-- A call checks for a slot: it goes on, gives up, or waits. -/
def State.check (maxConnsWaitQueue : ℕ) (s : State) (i : ℕ) (r : Request) (conns : Protocols)
    (now : WithTop ℚ) : State :=
  if maxConns r.dsn ≤ slots conns ∧ ¬r.till ≤ now then
    let s := s.closeHaveSlotsTimedOut r.conns now
    if maxConnsWaitQueue ≤ (s.haveSlotsCallbacks r.conns).length then
      {s with pool := s.pool.next i r now true conns}
    else
      {s with
        pool := s.pool.next i r now false conns
        haveSlotsCallbacks := Function.update s.haveSlotsCallbacks r.conns
          (s.haveSlotsCallbacks r.conns++[⟨s.promises,min r.till (now+reconnectInterval r.dsn)⟩])
        waiting := Function.update s.waiting i (some s.promises)
        promises := s.promises+1}
  else {s with pool := s.pool.next i r now false conns}

/-- The state after an event, when it can happen. -/
def State.step (maxConnsWaitQueue : ℕ) (s : State) : Event → Option State
  | .pool e =>
    match e with
    | .next _ _ _ => none
    | .closed => none
    | .commonTask now closeAll quiet =>
      (s.pool.step (.commonTask now closeAll quiet)).map fun pool =>
        s.pool.protocolsPerSchema.foldl (fun t e => t.closeHaveSlotsTimedOut e.2 now) {s with pool}
    | e =>
      (s.pool.step e).map fun pool =>
        match s.freed (.pool e) with
        | some (conns,dsn) => State.decNBusyAll {s with pool} conns dsn
        | none => {s with pool}
  | .next i now =>
    match s.pool.requests[i]? with
    | some r =>
      match s.pool.objects[r.conns]? with
      | some conns =>
        if r.status=.waiting ∧ s.waiting i=none then some (s.check maxConnsWaitQueue i r conns now) else none
      | none => none
    | none => none
  | .timer i => if (s.waiting i).isSome=true then some {s with waiting := Function.update s.waiting i none} else none
  | .closed conns dsn =>
    (s.pool.step .closed).map fun pool => State.decNBusyAll {s with pool} conns dsn

/-- A slot of the object is free for this name. -/
def State.Free (s : State) (conns : ℕ) (dsn : Dsn) : Prop :=
  ∃ o,s.pool.objects[conns]?=some o ∧ slots o < maxConns dsn

/-- A call waits for a slot of the object. -/
def State.Waits (s : State) (conns : ℕ) : Prop :=
  ∃ i r,s.pool.requests[i]?=some r ∧ r.conns=conns ∧ s.waiting i≠none

/-- A call that waits looks for a slot, and its callback is with the object. -/
def Inv (s : State) : Prop :=
  ∀ i n,s.waiting i=some n → ∃ r,s.pool.requests[i]?=some r ∧ r.status=.waiting ∧
    n ∈ (s.haveSlotsCallbacks r.conns).map HaveSlotsCallback.promise

/-- Taking a connection changes the call that takes it. -/
theorem take_requests (s : Pool.State) (i : ℕ) (r : Request) (now : WithTop ℚ) (p : PooledProtocol) :
    ∃ r',(s.take i r now p).requests=s.requests.set i r' := by
  unfold Pool.State.take
  split_ifs
  · exact ⟨_,rfl⟩
  · exact ⟨_,rfl⟩

/-- A call that goes on changes itself. -/
theorem next_requests (s : Pool.State) (i : ℕ) (r : Request) (now : WithTop ℚ) (refused : Bool)
    (conns : Protocols) {j : ℕ} (hj : j≠i) :
    (s.next i r now refused conns).requests[j]?=s.requests[j]? := by
  have hset : ∀ r',(s.requests.set i r')[j]?=s.requests[j]? := fun r' => List.getElem?_set_ne (Ne.symm hj)
  unfold Pool.State.next
  split_ifs
  · exact hset _
  · rfl
  · unfold Pool.State.connect
    split
    · next protocol _ =>
      obtain ⟨r',hr⟩ := take_requests (s.modify r.conns fun o => {o with idle := o.idle.dropLast}) i r now
        protocol
      rw [hr]
      exact hset r'
    · split
      · next protocol s' hsteal =>
        split_ifs at hsteal with hschema
        obtain ⟨ref,-,-,-,-,-,-,rfl⟩ := steal_inv hsteal
        obtain ⟨r',hr⟩ := take_requests (s.modify ref fun o => {o with idle := o.idle.dropLast}) i
          (if r.pendingChangeSchema="" then {r with pendingChangeSchema := r.dsn.schema} else r) now protocol
        rw [hr]
        exact hset r'
      · exact hset _

/-- Returning a connection changes no call. -/
theorem return_requests (s : Pool.State) (p : PooledProtocol) (reuse : Option PooledProtocol) :
    (s.doReturnProtocol p reuse).requests=s.requests := by
  unfold Pool.State.doReturnProtocol
  split
  · rfl
  · rfl

/-- The common task changes no call. -/
theorem task_requests (now : WithTop ℚ) (closeAll quiet : BitVec 32 → Bool) (es : List (BitVec 32×ℕ))
    (s : Pool.State) : (es.foldl (Pool.State.taskEntry now closeAll quiet) s).requests=s.requests := by
  induction es generalizing s with
  | nil => rfl
  | cons e es ih =>
    rw [List.foldl_cons,ih]
    unfold Pool.State.taskEntry
    split
    · dsimp only
      split_ifs
      · rfl
      · rfl
    · rfl

/-- A call that looks for a slot is changed by its own steps only. -/
theorem pool_requests {s s' : Pool.State} {e : Pool.Event} (h : s.step e=some s')
    (he : ∀ i now refused,e≠.next i now refused) {j : ℕ} {r : Request} (hr : s.requests[j]?=some r)
    (hw : r.status=.waiting) : s'.requests[j]?=some r := by
  have hother : ∀ (i : ℕ) (q r' : Request),s.requests[i]?=some q → q.status=.connecting →
      (s.requests.set i r')[j]?=some r := by
    intro i q r' hq hc
    have hne : i≠j := by
      rintro rfl
      rw [hr] at hq
      cases hq
      rw [hw] at hc
      cases hc
    rw [List.getElem?_set_ne hne]
    exact hr
  cases e with
  | getProtocol dsn pendingChangeSchema now =>
    cases h
    have hlt : j < s.requests.length := (List.getElem?_eq_some_iff.mp hr).1
    unfold Pool.State.getProtocol
    dsimp only
    split
    · rw [List.getElem?_append_left hlt]
      exact hr
    · rw [List.getElem?_append_left hlt]
      exact hr
  | next i now refused => exact absurd rfl (he i now refused)
  | connected i now tracksSchema db always =>
    simp only [Pool.State.step] at h
    split at h
    · next q hq =>
      split_ifs at h with hc
      cases h
      exact hother i q _ hq hc
    · cases h
  | connectFailed i =>
    simp only [Pool.State.step] at h
    split at h
    · next q hq =>
      split_ifs at h with hc
      cases h
      exact hother i q _ hq hc
    · cases h
  | use id schema =>
    cases h
    exact hr
  | work id db always =>
    cases h
    exact hr
  | returnProtocol id now alive =>
    obtain ⟨p,-,rfl⟩ := Option.map_eq_some_iff.mp h
    unfold Pool.State.returnProtocol
    split
    · split_ifs
      · rw [return_requests]
        exact hr
      · rw [return_requests]
        exact hr
    · rw [return_requests]
      exact hr
  | forceDisconnect id =>
    obtain ⟨p,-,rfl⟩ := Option.map_eq_some_iff.mp h
    rw [return_requests]
    exact hr
  | commonTask now closeAll quiet =>
    cases h
    rw [task_requests]
    exact hr
  | closed =>
    cases h
    exact hr

/-- Calling callbacks keeps the invariant. -/
theorem Inv.signal {s : State} (h : Inv s) (conns : ℕ) (called : HaveSlotsCallback → Bool) :
    Inv (s.signal conns called) := by
  intro i n hi
  simp only [State.signal] at hi
  split_ifs at hi with hany
  obtain ⟨r,hr,hw,hm⟩ := h i n hi
  refine ⟨r,hr,hw,?_⟩
  obtain ⟨c,hc,rfl⟩ := List.mem_map.mp hm
  refine List.mem_map.mpr ⟨c,?_,rfl⟩
  simp only [State.signal]
  by_cases hconns : r.conns=conns
  · rw [hconns,Function.update_self]
    rw [hconns] at hc
    refine List.mem_filter.mpr ⟨hc,?_⟩
    cases hcall : called c with
    | false => rfl
    | true =>
      refine absurd ?_ hany
      refine List.any_eq_true.mpr ⟨c,List.mem_filter.mpr ⟨hc,hcall⟩,?_⟩
      rw [hi]
      exact beq_self_eq_true _
  · rw [Function.update_of_ne hconns]
    exact hc

/-- Decrementing the counter keeps the invariant. -/
theorem Inv.decNBusyAll {s : State} (h : Inv s) (conns : ℕ) (dsn : Dsn) : Inv (s.decNBusyAll conns dsn) := by
  unfold State.decNBusyAll
  split_ifs
  · exact h.signal conns _
  · exact h

/-- Calling what timed out keeps the invariant. -/
theorem Inv.timedOut {s : State} (h : Inv s) (now : WithTop ℚ) (es : List (BitVec 32×ℕ)) :
    Inv (es.foldl (fun t e => t.closeHaveSlotsTimedOut e.2 now) s) := by
  induction es generalizing s with
  | nil => exact h
  | cons e es ih => exact ih (h.signal e.2 _)

/-- A step of the pool keeps the invariant. -/
theorem Inv.pool {s : State} (h : Inv s) {e : Pool.Event} {pool : Pool.State}
    (hs : s.pool.step e=some pool) (he : ∀ i now refused,e≠.next i now refused) : Inv {s with pool} := by
  intro i n hi
  obtain ⟨r,hr,hw,hm⟩ := h i n hi
  exact ⟨r,pool_requests hs he hr hw,hw,hm⟩

/-- A call that goes on and does not wait keeps the invariant. -/
theorem Inv.next {s : State} (h : Inv s) {i : ℕ} (hi : s.waiting i=none) (r : Request) (now : WithTop ℚ)
    (refused : Bool) (conns : Protocols) : Inv {s with pool := s.pool.next i r now refused conns} := by
  intro j n hj
  obtain ⟨q,hq,hw,hm⟩ := h j n hj
  have hne : j≠i := by
    rintro rfl
    rw [hi] at hj
    cases hj
  refine ⟨q,?_,hw,hm⟩
  show (s.pool.next i r now refused conns).requests[j]?=some q
  rw [next_requests s.pool i r now refused conns hne]
  exact hq

/-- A call that checks for a slot keeps the invariant. -/
theorem Inv.check {s : State} (h : Inv s) (maxConnsWaitQueue : ℕ) {i : ℕ} {r : Request}
    (hr : s.pool.requests[i]?=some r) (hw : r.status=.waiting) (hi : s.waiting i=none) (conns : Protocols)
    (now : WithTop ℚ) : Inv (s.check maxConnsWaitQueue i r conns now) := by
  unfold State.check
  split_ifs with hfull
  · have hsig := h.signal r.conns (fun c => decide (c.till ≤ now))
    have hnone : (s.closeHaveSlotsTimedOut r.conns now).waiting i=none := by
      simp only [State.closeHaveSlotsTimedOut,State.signal,hi,ite_self]
    dsimp only
    split_ifs
    · exact hsig.next hnone r now true conns
    · have hpool : s.pool.next i r now false conns=s.pool := by
        have hle : maxConns r.dsn ≤ (((conns.busy.length+conns.nConnecting : ℕ) : ℚ) : WithTop ℚ) :=
          hfull.1
        unfold Pool.State.next
        rw [if_pos hle,if_neg (fun hn => hn.elim hfull.2 Bool.false_ne_true)]
      intro j n hj
      by_cases hij : j=i
      · subst hij
        simp only [Function.update_self,Option.some.injEq] at hj
        refine ⟨r,?_,hw,?_⟩
        · show (s.pool.next j r now false conns).requests[j]?=some r
          rw [hpool]
          exact hr
        · simp only [Function.update_self,List.map_append,List.map_singleton,List.mem_append,
            List.mem_singleton]
          exact Or.inr hj.symm
      · simp only [Function.update_of_ne hij] at hj
        obtain ⟨q,hq,hqw,hm⟩ := hsig j n hj
        refine ⟨q,?_,hqw,?_⟩
        · show (s.pool.next i r now false conns).requests[j]?=some q
          rw [hpool]
          exact hq
        · by_cases hconns : q.conns=r.conns
          · rw [hconns] at hm ⊢
            simp only [Function.update_self,List.map_append,List.mem_append]
            exact Or.inl hm
          · simp only [Function.update_of_ne hconns]
            exact hm
  · exact h.next hi r now false conns

/-- An event of the pool that is not the common task: its counter is decremented when a
slot got free. -/
theorem step_pool {queue : ℕ} {s s' : State} {e : Pool.Event} (h : s.step queue (.pool e)=some s')
    (ht : ∀ now closeAll quiet,e≠.commonTask now closeAll quiet) :
    (∀ i now refused,e≠.next i now refused) ∧ ∃ pool,s.pool.step e=some pool ∧
      s'=match s.freed (.pool e) with
        | some (conns,dsn) => State.decNBusyAll {s with pool} conns dsn
        | none => {s with pool} := by
  cases e with
  | next i now refused => cases h
  | closed => cases h
  | commonTask now closeAll quiet => exact absurd rfl (ht now closeAll quiet)
  | _ =>
    unfold State.step at h
    dsimp only at h
    obtain ⟨pool,hp,hs'⟩ := Option.map_eq_some_iff.mp h
    exact ⟨fun i now refused he => (by cases he),pool,hp,hs'.symm⟩

/-- Every step keeps the invariant. -/
theorem Inv.step {queue : ℕ} {s s' : State} {e : Event} (h : Inv s) (hs : s.step queue e=some s') :
    Inv s' := by
  cases e with
  | pool e =>
    by_cases htask : ∃ now closeAll quiet,e=.commonTask now closeAll quiet
    · obtain ⟨now,closeAll,quiet,rfl⟩ := htask
      unfold State.step at hs
      dsimp only at hs
      obtain ⟨pool,hp,rfl⟩ := Option.map_eq_some_iff.mp hs
      exact (h.pool hp (fun _ _ _ he => by cases he)).timedOut now _
    · obtain ⟨hnext,pool,hp,rfl⟩ :=
        step_pool hs (fun now closeAll quiet he => htask ⟨now,closeAll,quiet,he⟩)
      have hi := h.pool hp hnext
      split
      · exact hi.decNBusyAll _ _
      · exact hi
  | next i now =>
    simp only [State.step] at hs
    split at hs
    · next r hr =>
      split at hs
      · next conns _ =>
        split_ifs at hs with hc
        cases hs
        exact h.check queue hr hc.1 hc.2 conns now
      · cases hs
    · cases hs
  | timer i =>
    simp only [State.step] at hs
    split_ifs at hs
    cases hs
    intro j n hj
    by_cases hij : j=i
    · subst hij
      simp only [Function.update_self] at hj
      cases hj
    · simp only [Function.update_of_ne hij] at hj
      exact h j n hj
  | closed conns dsn =>
    unfold State.step at hs
    dsimp only at hs
    obtain ⟨pool,hp,rfl⟩ := Option.map_eq_some_iff.mp hs
    exact (h.pool hp (fun _ _ _ he => by cases he)).decNBusyAll conns dsn

/-- A new pool. -/
theorem inv_new : Inv {} := fun _ _ hi => by cases hi

/-- A slot got free: the counter is decremented, and calls stay as they are. -/
theorem freed_step {s : State} {e : Event} {conns : ℕ} {dsn : Dsn} (hf : s.freed e=some (conns,dsn)) :
    ∃ pe,e=.pool pe ∧ (∀ now closeAll quiet,pe≠.commonTask now closeAll quiet) ∧
      ∀ pool,s.pool.step pe=some pool → pool.nBusyAll=s.pool.nBusyAll-1 := by
  have hreturn : ∀ (st : Pool.State) (p : PooledProtocol) (reuse : Option PooledProtocol),
      (st.findBusy p).map (fun place => (place.1,p.dsn))=some (conns,dsn) →
        (st.doReturnProtocol p reuse).nBusyAll=st.nBusyAll-1 := by
    intro st p reuse hplace
    obtain ⟨place,hp,-⟩ := Option.map_eq_some_iff.mp hplace
    unfold Pool.State.doReturnProtocol
    rw [hp]
  cases e with
  | next i now => cases hf
  | timer i => cases hf
  | closed conns dsn => cases hf
  | pool pe =>
    refine ⟨pe,rfl,?_⟩
    cases pe with
    | returnProtocol id now alive =>
      refine ⟨fun _ _ _ he => (by cases he),fun pool hs => ?_⟩
      obtain ⟨p,hp,hplace⟩ := Option.bind_eq_some_iff.mp hf
      obtain ⟨q,hq,rfl⟩ := Option.map_eq_some_iff.mp hs
      rw [hp] at hq
      cases hq
      unfold Pool.State.returnProtocol
      split
      · split_ifs
        · exact hreturn {s.pool with nextId := s.pool.nextId+1} p _ hplace
        · exact hreturn s.pool p none hplace
      · exact hreturn s.pool p none hplace
    | forceDisconnect id =>
      refine ⟨fun _ _ _ he => (by cases he),fun pool hs => ?_⟩
      obtain ⟨p,hp,hplace⟩ := Option.bind_eq_some_iff.mp hf
      obtain ⟨q,hq,rfl⟩ := Option.map_eq_some_iff.mp hs
      rw [hp] at hq
      cases hq
      exact hreturn s.pool p none hplace
    | connectFailed i =>
      refine ⟨fun _ _ _ he => (by cases he),fun pool hs => ?_⟩
      simp only [Pool.State.step] at hs
      split at hs
      · next r hr =>
        split_ifs at hs
        cases hs
        rfl
      · cases hs
    | _ => cases hf

/-- The calls that waited with an object, after a slot of it got free. -/
theorem waits_freed {queue : ℕ} {s s' : State} {e : Event} {conns : ℕ} {dsn : Dsn} (h : Inv s)
    (hs : s.step queue e=some s') (hf : s.freed e=some (conns,dsn)) :
    ¬s'.Waits conns ↔ ¬s.Waits conns ∨
      ((((s.pool.nBusyAll-1 : ℤ) : ℚ) : WithTop ℚ) < maxConns dsn) := by
  obtain ⟨pe,rfl,htask,hcount⟩ := freed_step hf
  obtain ⟨hnext,pool,hp,hs'⟩ := step_pool hs htask
  rw [hf] at hs'
  dsimp only at hs'
  have hi : Inv {s with pool} := h.pool hp hnext
  have hbusy := hcount pool hp
  -- no call changes that waits
  have hwaits : State.Waits {s with pool} conns ↔ s.Waits conns := by
    constructor
    · rintro ⟨i,r,hr,hconns,hw⟩
      obtain ⟨n,hn⟩ := Option.ne_none_iff_exists'.mp hw
      obtain ⟨q,hq,hqw,-⟩ := h i n hn
      have hsame := pool_requests hp hnext hq hqw
      rw [hsame] at hr
      cases hr
      exact ⟨i,r,hq,hconns,hw⟩
    · rintro ⟨i,r,hr,hconns,hw⟩
      obtain ⟨n,hn⟩ := Option.ne_none_iff_exists'.mp hw
      obtain ⟨q,hq,hqw,-⟩ := h i n hn
      rw [hr] at hq
      cases hq
      exact ⟨i,r,pool_requests hp hnext hr hqw,hconns,hw⟩
  subst hs'
  unfold State.decNBusyAll
  dsimp only
  rw [hbusy]
  split_ifs with hlt
  · refine iff_of_true ?_ (Or.inr hlt)
    rintro ⟨i,r,hr,hconns,hw⟩
    have hno : (State.signal {s with pool} conns (fun _ => true)).waiting i=none := by
      cases hn : s.waiting i with
      | none => simp only [State.signal,hn,ite_self]
      | some n =>
        obtain ⟨q,hq,-,hm⟩ := hi i n hn
        have hrq : q=r := by
          have hsame := hr
          change pool.requests[i]?=some r at hsame
          rw [hsame] at hq
          exact (Option.some.inj hq).symm
        rw [hrq,hconns] at hm
        obtain ⟨c,hc,hpromise⟩ := List.mem_map.mp hm
        have hany : ((s.haveSlotsCallbacks conns).filter (fun _ => true)).any
            (fun c => s.waiting i==some c.promise)=true := by
          refine List.any_eq_true.mpr ⟨c,List.mem_filter.mpr ⟨hc,rfl⟩,?_⟩
          rw [hn,hpromise]
          exact beq_self_eq_true _
        simp only [State.signal,hany,if_true]
    exact hw hno
  · rw [hwaits]
    exact ⟨Or.inl,fun hor => hor.resolve_right hlt⟩

/-- A call that gives up found no free slot. -/
theorem failed_full {queue : ℕ} {s s' : State} {i : ℕ} {now : WithTop ℚ} {r : Request}
    (hs : s.step queue (.next i now)=some s') (hr : s.pool.requests[i]?=some r)
    (hend : (s'.pool.requests[i]?).map Request.status=some .finished)
    (hnone : s'.pool.granted.length=s.pool.granted.length) : ¬s.Free r.conns r.dsn := by
  rintro ⟨o,ho,hfree⟩
  have hlt : i < s.pool.requests.length := (List.getElem?_eq_some_iff.mp hr).1
  have htake : ∀ (st : Pool.State) (q : Request) (p : PooledProtocol),st.requests=s.pool.requests →
      st.granted=s.pool.granted → q.status=.waiting →
        ((st.take i q now p).requests[i]?).map Request.status=some .finished →
          (st.take i q now p).granted.length≠s.pool.granted.length := by
    intro st q p hreq hgr hq hfin
    unfold Pool.State.take at hfin ⊢
    split_ifs at hfin ⊢
    · have hself : (st.setRequest i q).requests[i]?=some q :=
        List.getElem?_set_self (by rw [hreq]; exact hlt)
      change ((st.setRequest i q).requests[i]?).map Request.status=some .finished at hfin
      rw [hself,Option.map_some,hq] at hfin
      cases hfin
    · show (st.granted++[_]).length≠_
      rw [hgr,List.length_append,List.length_singleton]
      exact Nat.succ_ne_self _
  simp only [State.step,hr,ho] at hs
  split_ifs at hs with hc
  cases hs
  have hnotfull : ¬maxConns r.dsn ≤ slots o := not_le.mpr hfree
  rw [State.check,if_neg (fun hn => hnotfull hn.1)] at hend hnone
  unfold Pool.State.next at hend hnone
  have hnotfull' : ¬maxConns r.dsn ≤ (((o.busy.length+o.nConnecting : ℕ) : ℚ) : WithTop ℚ) := hnotfull
  simp only [if_neg hnotfull'] at hend hnone
  unfold Pool.State.connect at hend hnone
  split at hend
  · next p hp =>
    simp only [hp] at hnone
    exact htake (s.pool.modify r.conns fun o => {o with idle := o.idle.dropLast}) r p rfl rfl hc.1 hend
      hnone
  · next hidle =>
    simp only [hidle] at hnone
    split at hend
    · next p st hsteal =>
      rw [hsteal] at hnone
      split_ifs at hsteal
      obtain ⟨ref,-,-,-,-,-,-,rfl⟩ := steal_inv hsteal
      refine htake (s.pool.modify ref fun o => {o with idle := o.idle.dropLast})
        (if r.pendingChangeSchema="" then {r with pendingChangeSchema := r.dsn.schema} else r) p rfl rfl ?_
        hend hnone
      split_ifs
      · exact hc.1
      · exact hc.1
    · have hself : ((s.pool.requests.set i {r with status := .connecting})[i]?).map Request.status=
          some .connecting := by
        rw [List.getElem?_set_self hlt]
        rfl
      change ((s.pool.requests.set i {r with status := .connecting})[i]?).map Request.status=
        some .finished at hend
      rw [hself] at hend
      cases hend

/-- In every run, when a connection is returned or fails to open and its slot is free,
nobody waits with that object any more exactly when nobody did before, or when the
connections over all names are below the limit of this one; and a call gives up only
when no slot was free as it checked. -/
theorem waiters_woken_iff (queue : ℕ) (events : List Event) (s : State)
    (h : run (State.step queue) {} events=some s) :
    (∀ (e : Event) (s' : State) (conns : ℕ) (dsn : Dsn),s.step queue e=some s' →
      s.freed e=some (conns,dsn) → s'.Free conns dsn →
        (¬s'.Waits conns ↔ ¬s.Waits conns ∨
          ((((s.pool.nBusyAll-1 : ℤ) : ℚ) : WithTop ℚ) < maxConns dsn))) ∧
      ∀ (i : ℕ) (now : WithTop ℚ) (s' : State) (r : Request),s.step queue (.next i now)=some s' →
        s.pool.requests[i]?=some r → (s'.pool.requests[i]?).map Request.status=some .finished →
          s'.pool.granted.length=s.pool.granted.length → ¬s.Free r.conns r.dsn := by
  have hi : Inv s :=
    @run_invariant _ _ (State.step queue) (fun _ => True) Inv (fun _ _ _ hi _ hs => hi.step hs) events {} s
      inv_new (fun _ _ => trivial) h
  exact ⟨fun e s' conns dsn hs hf _ => waits_freed hi hs hf,
    fun i now s' r hs hr hend hnone => failed_full hs hr hend hnone⟩

/-- A name with room for one connection. -/
def singleDsn : Dsn := {plainDsn "secret" "" with maxConns := some (.ofNat 1)}

/-- A call waits for the only connection of its name, after some events. -/
def waitRun (others : List Event) : List Event :=
  [.pool (.getProtocol singleDsn "" 0),.next 0 0,.pool (.connected 0 0 true "" false)]++others++
    [.pool (.getProtocol singleDsn "" 1)]

/-- The call that waits for the only connection is woken when it is returned. -/
theorem waiters_woken_single : ∃ s s',run (State.step 50) {} (waitRun []++[.next 1 1])=some s ∧
    s.step 50 (.pool (.returnProtocol 0 2 none))=some s' ∧ ¬s'.Waits 0 := by
  have hrun : ((run (State.step 50) {} (waitRun []++[.next 1 1])).bind fun s =>
      (s.step 50 (.pool (.returnProtocol 0 2 none))).bind fun s' =>
        (s.freed (.pool (.returnProtocol 0 2 none))).map fun f =>
          (decide (f.1=0),decide ((((s.pool.nBusyAll-1 : ℤ) : ℚ) : WithTop ℚ) < maxConns f.2),
            (s'.pool.objects[0]?).map fun o => decide (slots o < maxConns f.2)))=
      some (true,true,some true) := by decide +kernel
  obtain ⟨s,hs,hrun⟩ := Option.bind_eq_some_iff.mp hrun
  obtain ⟨s',hs',hrun⟩ := Option.bind_eq_some_iff.mp hrun
  obtain ⟨⟨conns,dsn⟩,hf,hrun⟩ := Option.map_eq_some_iff.mp hrun
  simp only [Prod.mk.injEq,decide_eq_true_eq] at hrun
  obtain ⟨rfl,hlt,hfree⟩ := hrun
  obtain ⟨o,ho,hslots⟩ := Option.map_eq_some_iff.mp hfree
  exact ⟨s,s',hs,hs',((waiters_woken_iff 50 _ s hs).1 _ s' 0 dsn hs' hf
    ⟨o,ho,of_decide_eq_true hslots⟩).mpr (Or.inr hlt)⟩

/-- While a connection of another name is busy, the call is not woken. -/
theorem waiter_not_woken :
    ¬(∀ (queue : ℕ) (events : List Event) (s s' : State) (e : Event) (conns : ℕ) (dsn : Dsn),
      run (State.step queue) {} events=some s → s.step queue e=some s' →
        s.freed e=some (conns,dsn) → s'.Free conns dsn → ¬s'.Waits conns) := by
  intro h
  have hrun : ((run (State.step 50) {} (waitRun [.pool (.getProtocol (plainDsn "secret" "") "" 0),
      .next 1 0,.pool (.connected 1 0 true "" false)]++[.next 2 1])).bind fun s =>
        (s.step 50 (.pool (.returnProtocol 0 2 none))).bind fun s' =>
          (s.freed (.pool (.returnProtocol 0 2 none))).map fun f =>
            (decide (f.1=0),(s'.pool.objects[0]?).map (fun o => decide (slots o < maxConns f.2)),
              (s'.pool.requests[2]?).map Request.conns,(s'.waiting 2).isSome))=
      some (true,some true,some 0,true) := by decide +kernel
  obtain ⟨s,hs,hrun⟩ := Option.bind_eq_some_iff.mp hrun
  obtain ⟨s',hs',hrun⟩ := Option.bind_eq_some_iff.mp hrun
  obtain ⟨⟨conns,dsn⟩,hf,hrun⟩ := Option.map_eq_some_iff.mp hrun
  simp only [Prod.mk.injEq,decide_eq_true_eq] at hrun
  obtain ⟨rfl,hfree,hconns,hwait⟩ := hrun
  obtain ⟨o,ho,hslots⟩ := Option.map_eq_some_iff.mp hfree
  obtain ⟨r,hr,hr0⟩ := Option.map_eq_some_iff.mp hconns
  exact h 50 _ s s' _ 0 dsn hs hs' hf ⟨o,ho,of_decide_eq_true hslots⟩
    ⟨2,r,hr,hr0,Option.isSome_iff_ne_none.mp hwait⟩

end SpiritMysql.PoolWaiters
