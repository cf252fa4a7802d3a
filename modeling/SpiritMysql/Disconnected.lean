import Mathlib.Algebra.Order.Group.Multiset
import Mathlib.Tactic.Abel
import SpiritMysql.EventSystem
import SpiritMysql.ListUpdates
import SpiritMysql.PoolRun

/-!
# What is to be done after a forced disconnect

A connection that is disconnected by force can leave a query to kill and a
prepared transaction to roll back. The pool keeps them in a list. New
connections to the same server take them from it, and so does the common task,
which opens connections for them. What the common task took is put back when a
connection fails, and forgotten when it succeeds.
-/

namespace SpiritMysql.Disconnected

open DsnName EventSystem ListUpdates Pool PoolRun

/-- The two things that can be left to do. -/
inductive Work where
  /-- `KILL`. -/
  | kill
  /-- `XA ROLLBACK`. -/
  | rollback
deriving DecidableEq, Repr

/-- `TakeCareOfDisconneced`. -/
structure Info where
  /-- `dsn`. -/
  dsn : Dsn
  /-- `rollbackPreparedXaId`. -/
  rollbackPreparedXaId : String
  /-- `killConnectionId`. -/
  killConnectionId : ℕ
  /-- Which forced disconnect it came from. -/
  id : ℕ
deriving DecidableEq

/-- What is left to do of an entry, once more after each step. -/
def Info.without (info : Info) : Work → Info
  | .kill => {info with killConnectionId := 0}
  | .rollback => {info with rollbackPreparedXaId := ""}

/-- A run of `#clearDisconnected()` on a new connection. -/
structure Clear where
  /-- The server, without the schema. -/
  hashNoSchema : BitVec 32
  /-- The entry that was taken, and the command that was sent for it. -/
  current : Option (Info×Work)
  /-- `failed`. -/
  failed : List Info
deriving DecidableEq

/-- How a request for a connection stands that the common task made. -/
inductive TaskStatus where
  | waiting | resolved | rejected
deriving DecidableEq

/-- The list of the pool, and who works on it. -/
structure State where
  /-- `#takeCareOfDisconneced`. -/
  takeCare : List Info := []
  /-- The requests that the common task made, each with its entry. -/
  tasks : List (Info×TaskStatus) := []
  /-- The runs of `#clearDisconnected()`. -/
  clears : List Clear := []
  /-- How many forced disconnects there were. -/
  nextId : ℕ := 0
  /-- What there was to do. -/
  pushed : Multiset (ℕ×Work) := 0
  /-- What the server accepted, or answered that there is nothing to do. -/
  accepted : Multiset (ℕ×Work) := 0

/-- The loop of `#clearDisconnected()` up to the next command. An entry is
taken by putting the last one in its place. -/
def clearLoop (hashNoSchema : BitVec 32) :
    ℕ → List Info → List Info → List Info×Option (Info×Work)×List Info
  | 0,takeCare,failed => (takeCare++failed,none,[])
  | fuel+1,takeCare,failed =>
    match takeCare.findIdx? (fun v => v.dsn.hashNoSchema=hashNoSchema) with
    | none => (takeCare++failed,none,[])
    | some i =>
      match takeCare[i]? with
      | none => (takeCare++failed,none,[])
      | some info =>
        if info.killConnectionId≠0 then (swapRemove takeCare i,some (info,.kill),failed)
        else if info.rollbackPreparedXaId≠"" then
          (swapRemove takeCare i,some (info,.rollback),failed)
        else clearLoop hashNoSchema fuel (swapRemove takeCare i) failed

/-- The loop of `#clearDisconnected()`: every iteration takes an entry. -/
def State.clearNext (s : State) (hashNoSchema : BitVec 32) (failed : List Info) : State×Clear :=
  let r := clearLoop hashNoSchema (s.takeCare.length+1) s.takeCare failed
  ({s with takeCare := r.1},⟨hashNoSchema,r.2.1,r.2.2⟩)

/-- The end of an iteration: what is left to do goes to `failed`. -/
def State.clearEntry (s : State) (c : Clear) (info : Info) : State×Clear :=
  if info.killConnectionId≠0 ∨ info.rollbackPreparedXaId≠"" then
    s.clearNext c.hashNoSchema (c.failed++[info])
  else s.clearNext c.hashNoSchema c.failed

/-- The command that was sent is answered: it was accepted, or there was
nothing to do, or it failed in another way. -/
def State.clearAnswer (s : State) (c : Clear) (info : Info) (work : Work) (done : Bool) :
    State×Clear :=
  let info' := if done=true then info.without work else info
  let s' := {s with accepted := if done=true then s.accepted+{(info.id,work)} else s.accepted}
  if work=.kill ∧ info.rollbackPreparedXaId≠"" then
    (s',{c with current := some (info',.rollback)})
  else s'.clearEntry c info'

/-- What can happen. -/
inductive Event where
  /-- `returnProtocolAndForceImmediateDisconnect()` leaves something to do. -/
  | disconnect (dsn : Dsn) (rollbackPreparedXaId : String) (killConnectionId : ℕ)
  /-- The common task runs, and finds the names of some entries saturated. -/
  | commonTask (saturated : Info → Bool)
  /-- A request of the common task is fulfilled. -/
  | taskConnected (i : ℕ)
  /-- A request of the common task is rejected. -/
  | taskFailed (i : ℕ)
  /-- A connection is opened, for whomever. -/
  | connected (dsn : Dsn)
  /-- A command of `#clearDisconnected()` is answered. -/
  | answered (j : ℕ) (done : Bool)

/-- What there is to do of an entry. -/
def Info.works (info : Info) : Multiset (ℕ×Work) :=
  (if info.killConnectionId≠0 then {(info.id,.kill)} else 0)+
    if info.rollbackPreparedXaId≠"" then {(info.id,.rollback)} else 0

/-- The state after an event, when it can happen. -/
def State.step (s : State) : Event → Option State
  | .disconnect dsn rollbackPreparedXaId killConnectionId =>
    if rollbackPreparedXaId≠"" ∨ killConnectionId≠0 then
      let info : Info := ⟨dsn,rollbackPreparedXaId,killConnectionId,s.nextId⟩
      some {s with
        takeCare := s.takeCare++[info],nextId := s.nextId+1,pushed := s.pushed+info.works}
    else none
  | .commonTask saturated =>
    some {s with
      takeCare := s.takeCare.filter saturated
      tasks := s.tasks++(s.takeCare.filter fun info => !saturated info).map fun info =>
        (info,.waiting)}
  | .taskConnected i =>
    match s.tasks[i]? with
    | some (info,.waiting) => some {s with tasks := s.tasks.set i (info,.resolved)}
    | _ => none
  | .taskFailed i =>
    match s.tasks[i]? with
    | some (info,.waiting) =>
      some {s with tasks := s.tasks.set i (info,.rejected),takeCare := s.takeCare++[info]}
    | _ => none
  | .connected dsn =>
    let r := s.clearNext dsn.hashNoSchema []
    some {r.1 with clears := r.1.clears++[r.2]}
  | .answered j done =>
    match s.clears[j]? with
    | some c =>
      match c.current with
      | some (info,work) =>
        let r := s.clearAnswer c info work done
        some {r.1 with clears := r.1.clears.set j r.2}
      | none => none
    | none => none

/-- What there is to do of some entries. -/
def worksOf (infos : List Info) : Multiset (ℕ×Work) := (infos.map Info.works).sum

/-- What a run of `#clearDisconnected()` holds. -/
def Clear.works (c : Clear) : Multiset (ℕ×Work) :=
  worksOf ((c.current.map Prod.fst).toList++c.failed)

/-- What the requests of a status hold. -/
def taskWorks (status : TaskStatus) (t : Info×TaskStatus) : Multiset (ℕ×Work) :=
  if t.2=status then t.1.works else 0

/-- Nothing is lost: what there was to do was accepted, is in the list, or is held
by one request of the common task or by one run of `#clearDisconnected()`. -/
structure Kept (s : State) : Prop where
  /-- Everything is in one place. -/
  held : s.pushed=s.accepted+worksOf s.takeCare+(s.tasks.map (taskWorks .waiting)).sum+
    (s.clears.map Clear.works).sum
  /-- Everything is there once. -/
  once : s.pushed.Nodup

/-! ## What is held -/

/-- There is something to do of an entry. -/
def Info.IsOpen (info : Info) : Prop := info.killConnectionId≠0 ∨ info.rollbackPreparedXaId≠""

/-- This is to be done of an entry. -/
def Info.Has (info : Info) : Work → Prop
  | .kill => info.killConnectionId≠0
  | .rollback => info.rollbackPreparedXaId≠""

/-- An entry of which something is to be done holds something. -/
theorem works_ne_zero {info : Info} (h : info.IsOpen) : info.works≠0 := by
  have hmem : ∃ w,w ∈ info.works := by
    unfold Info.works
    rcases h with hk | hr
    · rw [if_pos hk]
      exact ⟨_,Multiset.mem_add.mpr (Or.inl (Multiset.mem_singleton_self _))⟩
    · rw [if_pos hr]
      exact ⟨_,Multiset.mem_add.mpr (Or.inr (Multiset.mem_singleton_self _))⟩
  obtain ⟨w,hw⟩ := hmem
  intro hz
  rw [hz] at hw
  exact absurd hw (Multiset.notMem_zero w)

/-- An entry of which nothing is to be done holds nothing. -/
theorem works_eq_zero {info : Info} (h : ¬info.IsOpen) : info.works=0 := by
  obtain ⟨hk,hr⟩ := not_or.mp h
  rw [Info.works,if_neg hk,if_neg hr,add_zero]

/-- What is done is taken out of an entry. -/
theorem works_without {info : Info} {work : Work} (h : info.Has work) :
    {(info.id,work)}+(info.without work).works=info.works := by
  cases work with
  | kill =>
    have hk : info.killConnectionId≠0 := h
    have hz : ¬(info.without .kill).killConnectionId≠0 := not_not_intro rfl
    rw [Info.works,Info.works,if_pos hk,if_neg hz,zero_add]
    rfl
  | rollback =>
    have hr : info.rollbackPreparedXaId≠"" := h
    have hz : ¬(info.without .rollback).rollbackPreparedXaId≠"" := not_not_intro rfl
    rw [Info.works,Info.works,if_pos hr,if_neg hz,add_zero,add_comm]
    rfl

/-- What two lists of entries hold. -/
theorem worksOf_append (l m : List Info) : worksOf (l++m)=worksOf l+worksOf m := by
  rw [worksOf,worksOf,worksOf,List.map_append,List.sum_append]

/-- What one entry holds. -/
theorem worksOf_singleton (info : Info) : worksOf [info]=info.works := by
  rw [worksOf,List.map_singleton,List.sum_singleton]

/-- What a list of entries holds, after one was taken out. -/
theorem worksOf_swapRemove {l : List Info} {i : ℕ} {info : Info} (h : l[i]?=some info) :
    info.works+worksOf (swapRemove l i)=worksOf l := by
  have hp := ((swapRemove_perm h).map Info.works).sum_eq
  rwa [List.map_cons,List.sum_cons] at hp

/-- What a list of entries holds that is split in two. -/
theorem worksOf_filter (p : Info → Bool) (l : List Info) :
    worksOf (l.filter p)+worksOf (l.filter fun info => !p info)=worksOf l := by
  rw [←worksOf_append]
  exact ((List.filter_append_perm p l).map Info.works).sum_eq

/-- The entries of a run of `#clearDisconnected()` have something to do. -/
structure Clear.Good (c : Clear) : Prop where
  /-- The command that was sent is to be done. -/
  current : ∀ info work,c.current=some (info,work) → info.Has work
  /-- The failed entries. -/
  failed : ∀ info ∈ c.failed,info.IsOpen

/-- The loop of `#clearDisconnected()` holds what it takes. -/
theorem clearLoop_works (hash : BitVec 32) (fuel : ℕ) (takeCare failed : List Info)
    (ht : ∀ info ∈ takeCare,info.IsOpen) (hf : ∀ info ∈ failed,info.IsOpen) :
    worksOf (clearLoop hash fuel takeCare failed).1+
        Clear.works ⟨hash,(clearLoop hash fuel takeCare failed).2.1,
          (clearLoop hash fuel takeCare failed).2.2⟩=worksOf takeCare+worksOf failed ∧
      (∀ info ∈ (clearLoop hash fuel takeCare failed).1,info.IsOpen) ∧
      Clear.Good ⟨hash,(clearLoop hash fuel takeCare failed).2.1,
        (clearLoop hash fuel takeCare failed).2.2⟩ := by
  have hput : worksOf (takeCare++failed)+Clear.works ⟨hash,none,[]⟩=
      worksOf takeCare+worksOf failed := by
    rw [worksOf_append]
    exact add_zero _
  have hopen : ∀ info ∈ takeCare++failed,info.IsOpen := by
    intro info hm
    rcases List.mem_append.mp hm with hm | hm
    · exact ht info hm
    · exact hf info hm
  have hgood : Clear.Good ⟨hash,none,[]⟩ :=
    ⟨(fun info work hc => by cases hc),fun info hm => absurd hm List.not_mem_nil⟩
  induction fuel generalizing takeCare with
  | zero => exact ⟨hput,hopen,hgood⟩
  | succ fuel ih =>
    rw [clearLoop]
    cases hi : takeCare.findIdx? (fun v => v.dsn.hashNoSchema=hash) with
    | none => exact ⟨hput,hopen,hgood⟩
    | some i =>
      dsimp only
      cases hg : takeCare[i]? with
      | none => exact ⟨hput,hopen,hgood⟩
      | some info =>
        dsimp only
        have hw := worksOf_swapRemove hg
        have hrest : ∀ info' ∈ swapRemove takeCare i,info'.IsOpen :=
          fun info' hm => ht info' (mem_swapRemove hm)
        have htaken : ∀ work,info.Has work →
            worksOf (swapRemove takeCare i)+Clear.works ⟨hash,some (info,work),failed⟩=
              worksOf takeCare+worksOf failed ∧
            (∀ info' ∈ swapRemove takeCare i,info'.IsOpen) ∧
            Clear.Good ⟨hash,some (info,work),failed⟩ := by
          intro work hhas
          refine ⟨?_,hrest,?_,hf⟩
          · change worksOf (swapRemove takeCare i)+worksOf ([info]++failed)=_
            rw [worksOf_append,worksOf_singleton,←hw,←add_assoc,add_comm info.works]
          · intro info' work' hc
            cases hc
            exact hhas
        by_cases hk : info.killConnectionId≠0
        · rw [if_pos hk]
          exact htaken .kill hk
        · rw [if_neg hk]
          by_cases hr : info.rollbackPreparedXaId≠""
          · rw [if_pos hr]
            exact htaken .rollback hr
          · exact absurd (ht info (List.mem_of_getElem? hg)) (not_or.mpr ⟨hk,hr⟩)

/-! ## Every step -/

/-- What was held by the requests of the common task that were fulfilled. -/
def lost (s : State) : Multiset (ℕ×Work) := (s.tasks.map (taskWorks .resolved)).sum

/-- The invariant of a run. -/
structure Inv (s : State) : Prop where
  /-- What there was to do was accepted, is held or is lost. -/
  total : s.pushed=s.accepted+worksOf s.takeCare+(s.tasks.map (taskWorks .waiting)).sum+
    (s.clears.map Clear.works).sum+lost s
  /-- Everything is there once. -/
  once : s.pushed.Nodup
  /-- It came from the forced disconnects so far. -/
  given : ∀ w ∈ s.pushed,w.1 < s.nextId
  /-- The entries of the list. -/
  takeCare : ∀ info ∈ s.takeCare,info.IsOpen
  /-- The entries of the requests. -/
  tasks : ∀ t ∈ s.tasks,t.1.IsOpen
  /-- The runs of `#clearDisconnected()`. -/
  clears : ∀ c ∈ s.clears,c.Good

/-- A pool at its beginning. -/
theorem inv_new : Inv {} := by
  refine ⟨rfl,Multiset.nodup_zero,?_,?_,?_,?_⟩
  · exact fun w hw => absurd hw (Multiset.notMem_zero w)
  · exact fun info hm => absurd hm List.not_mem_nil
  · exact fun t hm => absurd hm List.not_mem_nil
  · exact fun c hm => absurd hm List.not_mem_nil

/-- A forced disconnect adds an entry. -/
theorem Inv.disconnect {s : State} (h : Inv s) {info : Info} (hopen : info.IsOpen)
    (hid : info.id=s.nextId) : Inv {s with
      takeCare := s.takeCare++[info],nextId := s.nextId+1,pushed := s.pushed+info.works} := by
  have hworks : ∀ w ∈ info.works,w.1=s.nextId := by
    intro w hw
    unfold Info.works at hw
    rcases Multiset.mem_add.mp hw with hw | hw
    · split_ifs at hw
      · rw [Multiset.mem_singleton.mp hw,hid]
      · exact absurd hw (Multiset.notMem_zero w)
    · split_ifs at hw
      · rw [Multiset.mem_singleton.mp hw,hid]
      · exact absurd hw (Multiset.notMem_zero w)
  have hnodup : info.works.Nodup := by
    unfold Info.works
    split_ifs
    · refine Multiset.nodup_add.mpr ⟨Multiset.nodup_singleton _,Multiset.nodup_singleton _,?_⟩
      rw [Multiset.disjoint_singleton,Multiset.mem_singleton]
      exact fun he => by cases he
    · rw [add_zero]
      exact Multiset.nodup_singleton _
    · rw [zero_add]
      exact Multiset.nodup_singleton _
    · exact Multiset.nodup_zero
  refine ⟨?_,?_,?_,?_,h.tasks,h.clears⟩
  · change s.pushed+info.works=s.accepted+worksOf (s.takeCare++[info])+_+_+lost s
    rw [worksOf_append,worksOf_singleton,h.total]
    ac_rfl
  · refine Multiset.nodup_add.mpr ⟨h.once,hnodup,?_⟩
    rw [Multiset.disjoint_left]
    intro w hw hi
    have hlt := h.given w hw
    rw [hworks w hi] at hlt
    exact Nat.lt_irrefl _ hlt
  · intro w hw
    rcases Multiset.mem_add.mp hw with hw | hw
    · exact Nat.lt_succ_of_lt (h.given w hw)
    · rw [hworks w hw]
      exact Nat.lt_succ_self _
  · intro info' hm
    rcases List.mem_append.mp hm with hm | hm
    · exact h.takeCare info' hm
    · rw [List.mem_singleton.mp hm]
      exact hopen

/-- The requests that the common task makes hold what it takes. -/
theorem sum_new_tasks (status : TaskStatus) (l : List Info) :
    ((l.map fun info => (info,TaskStatus.waiting)).map (taskWorks status)).sum=
      if status=.waiting then worksOf l else 0 := by
  rw [List.map_map]
  split_ifs with hs
  · subst hs
    rfl
  · refine List.sum_eq_zero ?_
    intro w hw
    obtain ⟨info,-,rfl⟩ := List.mem_map.mp hw
    exact if_neg (fun he => hs he.symm)

/-- The common task takes entries from the list. -/
theorem Inv.commonTask {s : State} (h : Inv s) (saturated : Info → Bool) : Inv {s with
    takeCare := s.takeCare.filter saturated
    tasks := s.tasks++(s.takeCare.filter fun info => !saturated info).map fun info =>
      (info,.waiting)} := by
  refine ⟨?_,h.once,h.given,?_,?_,h.clears⟩
  · change s.pushed=s.accepted+worksOf (s.takeCare.filter saturated)+
      ((s.tasks++(s.takeCare.filter fun info => !saturated info).map fun info =>
        (info,TaskStatus.waiting)).map (taskWorks .waiting)).sum+
      (s.clears.map Clear.works).sum+
      ((s.tasks++(s.takeCare.filter fun info => !saturated info).map fun info =>
        (info,TaskStatus.waiting)).map (taskWorks .resolved)).sum
    rw [List.map_append,List.sum_append,List.map_append,List.sum_append,sum_new_tasks,sum_new_tasks,
      if_pos rfl,if_neg (fun hn => by cases hn),add_zero,h.total,←worksOf_filter saturated s.takeCare]
    unfold lost
    ac_rfl
  · exact fun info hm => h.takeCare info (List.mem_of_mem_filter hm)
  · intro t hm
    rcases List.mem_append.mp hm with hm | hm
    · exact h.tasks t hm
    · obtain ⟨info,hi,rfl⟩ := List.mem_map.mp hm
      exact h.takeCare info (List.mem_of_mem_filter hi)

/-- A request of the common task ends. It puts its entry back, or loses it. -/
theorem Inv.task {s : State} (h : Inv s) {i : ℕ} {info : Info}
    (hi : s.tasks[i]?=some (info,.waiting)) {status : TaskStatus} {back : List Info}
    (hback : worksOf back+taskWorks .resolved (info,status)=info.works)
    (hstatus : status≠.waiting) (hopen : ∀ b ∈ back,b=info) : Inv {s with
      tasks := s.tasks.set i (info,status),takeCare := s.takeCare++back} := by
  have hw := total_set (taskWorks .waiting) hi (info,status)
  have hr := total_set (taskWorks .resolved) hi (info,status)
  rw [show taskWorks .waiting (info,status)=0 from if_neg hstatus,add_zero,
    show taskWorks .waiting (info,.waiting)=info.works from if_pos rfl] at hw
  rw [show taskWorks .resolved (info,.waiting)=0 from if_neg (fun hn => by cases hn),
    add_zero] at hr
  refine ⟨?_,h.once,h.given,?_,?_,h.clears⟩
  · change s.pushed=s.accepted+worksOf (s.takeCare++back)+
      ((s.tasks.set i (info,status)).map (taskWorks .waiting)).sum+(s.clears.map Clear.works).sum+
      ((s.tasks.set i (info,status)).map (taskWorks .resolved)).sum
    rw [hr,worksOf_append,h.total,←hw,←hback]
    unfold lost
    abel
  · intro b hm
    rcases List.mem_append.mp hm with hm | hm
    · exact h.takeCare b hm
    · rw [hopen b hm]
      exact h.tasks _ (List.mem_of_getElem? hi)
  · intro t hm
    rcases List.mem_or_eq_of_mem_set hm with hm | rfl
    · exact h.tasks t hm
    · exact h.tasks (info,.waiting) (List.mem_of_getElem? hi)

/-- The next command of `#clearDisconnected()`, or its end. -/
theorem clearNext_works {s : State} (h : Inv s) (hash : BitVec 32) {failed : List Info}
    (hf : ∀ info ∈ failed,info.IsOpen) :
    worksOf (s.clearNext hash failed).1.takeCare+(s.clearNext hash failed).2.works=
        worksOf s.takeCare+worksOf failed ∧
      (∀ info ∈ (s.clearNext hash failed).1.takeCare,info.IsOpen) ∧
      (s.clearNext hash failed).2.Good :=
  clearLoop_works hash (s.takeCare.length+1) s.takeCare failed h.takeCare hf

/-- A connection is opened. -/
theorem Inv.connected {s : State} (h : Inv s) (hash : BitVec 32) : Inv {(s.clearNext hash []).1 with
    clears := (s.clearNext hash []).1.clears++[(s.clearNext hash []).2]} := by
  obtain ⟨hw,ho,hg⟩ := clearNext_works h hash (fun info hm => absurd hm List.not_mem_nil)
  refine ⟨?_,h.once,h.given,ho,h.tasks,?_⟩
  · change s.pushed=s.accepted+worksOf (s.clearNext hash []).1.takeCare+
      (s.tasks.map (taskWorks .waiting)).sum+
      ((s.clears++[(s.clearNext hash []).2]).map Clear.works).sum+lost s
    rw [show worksOf ([] : List Info)=0 from rfl,add_zero] at hw
    rw [List.map_append,List.sum_append,List.map_singleton,List.sum_singleton,h.total,←hw]
    abel
  · intro c hm
    rcases List.mem_append.mp hm with hm | hm
    · exact h.clears c hm
    · rw [List.mem_singleton.mp hm]
      exact hg

/-- The run of `#clearDisconnected()` at a place goes on. -/
theorem Inv.setClear {s : State} (h : Inv s) {j : ℕ} {c c' : Clear} (hc : s.clears[j]?=some c)
    {takeCare : List Info} {done : Multiset (ℕ×Work)}
    (hw : done+worksOf takeCare+c'.works=worksOf s.takeCare+c.works)
    (ho : ∀ info ∈ takeCare,info.IsOpen) (hg : c'.Good) : Inv {s with
      takeCare := takeCare,accepted := s.accepted+done,clears := s.clears.set j c'} := by
  have hset := total_set Clear.works hc c'
  refine ⟨?_,h.once,h.given,ho,h.tasks,?_⟩
  · change s.pushed=s.accepted+done+worksOf takeCare+(s.tasks.map (taskWorks .waiting)).sum+
      ((s.clears.set j c').map Clear.works).sum+lost s
    refine add_right_cancel (b:=c.works) ?_
    calc s.pushed+c.works
        =s.accepted+(worksOf s.takeCare+c.works)+(s.tasks.map (taskWorks .waiting)).sum+
          (s.clears.map Clear.works).sum+lost s := by
          rw [h.total]
          abel
      _ =s.accepted+done+worksOf takeCare+(s.tasks.map (taskWorks .waiting)).sum+
          ((s.clears.map Clear.works).sum+c'.works)+lost s := by
          rw [←hw]
          abel
      _ =s.accepted+done+worksOf takeCare+(s.tasks.map (taskWorks .waiting)).sum+
          ((s.clears.set j c').map Clear.works).sum+lost s+c.works := by
          rw [←hset]
          abel
  · intro d hm
    rcases List.mem_or_eq_of_mem_set hm with hm | rfl
    · exact h.clears d hm
    · exact hg

/-- A command of `#clearDisconnected()` is answered. -/
theorem Inv.answered {s : State} (h : Inv s) {j : ℕ} {c : Clear} (hc : s.clears[j]?=some c)
    {info : Info} {work : Work} (hcur : c.current=some (info,work)) (done : Bool) :
    Inv {(s.clearAnswer c info work done).1 with
      clears := (s.clearAnswer c info work done).1.clears.set j
        (s.clearAnswer c info work done).2} := by
  have hgood := h.clears c (List.mem_of_getElem? hc)
  have hhas := hgood.current info work hcur
  have hcw : c.works=info.works+worksOf c.failed := by
    rw [Clear.works,hcur,worksOf_append]
    exact congrArg (·+_) (worksOf_singleton info)
  unfold State.clearAnswer
  dsimp only
  -- what was done, and what is left of the entry
  obtain ⟨d,hd,info',hinfo,hsum,hrest⟩ : ∃ d,
      (if done=true then s.accepted+{(info.id,work)} else s.accepted)=s.accepted+d ∧
      ∃ info',(if done=true then info.without work else info)=info' ∧
        d+info'.works=info.works ∧
        (work=.kill → info'.rollbackPreparedXaId=info.rollbackPreparedXaId) := by
    cases done with
    | true =>
      refine ⟨{(info.id,work)},rfl,_,rfl,works_without hhas,?_⟩
      intro hk
      rw [hk]
      rfl
    | false => exact ⟨0,(add_zero _).symm,_,rfl,zero_add _,fun _ => rfl⟩
  rw [hd,hinfo]
  by_cases hk : work=.kill ∧ info.rollbackPreparedXaId≠""
  · rw [if_pos hk]
    refine h.setClear hc ?_ h.takeCare ⟨?_,hgood.failed⟩
    · have hw' : Clear.works {c with current := some (info',.rollback)}=
          info'.works+worksOf c.failed := by
        rw [Clear.works,worksOf_append]
        exact congrArg (·+_) (worksOf_singleton info')
      rw [hw',hcw,←hsum]
      abel
    · intro info'' work' hcur'
      cases hcur'
      change info'.rollbackPreparedXaId≠""
      rw [hrest hk.1]
      exact hk.2
  · rw [if_neg hk]
    -- the entry is done with, or it goes to the failed ones
    have hnext : ∀ failed : List Info,(∀ f ∈ failed,f.IsOpen) →
        worksOf failed=info'.works+worksOf c.failed → Inv {s with
          takeCare := (s.clearNext c.hashNoSchema failed).1.takeCare,accepted := s.accepted+d
          clears := s.clears.set j (s.clearNext c.hashNoSchema failed).2} := by
      intro failed hf hfw
      obtain ⟨hw,ho,hg⟩ := clearNext_works h c.hashNoSchema hf
      refine h.setClear hc ?_ ho hg
      rw [add_assoc,hw,hcw,hfw,←hsum]
      abel
    unfold State.clearEntry
    by_cases ho : info'.killConnectionId≠0 ∨ info'.rollbackPreparedXaId≠""
    · rw [if_pos ho]
      refine hnext (c.failed++[info']) ?_ ?_
      · intro f hm
        rcases List.mem_append.mp hm with hm | hm
        · exact hgood.failed f hm
        · rw [List.mem_singleton.mp hm]
          exact ho
      · rw [worksOf_append,worksOf_singleton,add_comm]
    · rw [if_neg ho]
      refine hnext c.failed hgood.failed ?_
      rw [works_eq_zero ho,zero_add]

/-- Every step keeps the invariant. -/
theorem Inv.step {s s' : State} {e : Event} (h : Inv s) (hs : s.step e=some s') : Inv s' := by
  cases e with
  | disconnect dsn rollbackPreparedXaId killConnectionId =>
    unfold State.step at hs
    dsimp only at hs
    split_ifs at hs with hopen
    cases hs
    exact @Inv.disconnect s h ⟨dsn,rollbackPreparedXaId,killConnectionId,s.nextId⟩ hopen.symm rfl
  | commonTask saturated =>
    cases hs
    exact h.commonTask saturated
  | taskConnected i =>
    unfold State.step at hs
    dsimp only at hs
    split at hs
    · next info hi =>
      cases hs
      have ht := @Inv.task s h i info hi .resolved [] (zero_add _) (fun hn => by cases hn)
        (fun b hm => absurd hm List.not_mem_nil)
      rwa [List.append_nil] at ht
    · cases hs
  | taskFailed i =>
    unfold State.step at hs
    dsimp only at hs
    split at hs
    · next info hi =>
      cases hs
      refine @Inv.task s h i info hi .rejected [info] ?_ (fun hn => by cases hn)
        (fun b hm => List.mem_singleton.mp hm)
      rw [worksOf_singleton]
      exact add_zero _
    · cases hs
  | connected dsn =>
    cases hs
    exact h.connected dsn.hashNoSchema
  | answered j done =>
    unfold State.step at hs
    dsimp only at hs
    split at hs
    · next c hc =>
      split at hs
      · next info work hcur =>
        cases hs
        exact h.answered hc hcur done
      · cases hs
    · cases hs

/-- No request of the common task was fulfilled. -/
def NoneResolved (s : State) : Prop := ∀ t ∈ s.tasks,t.2≠.resolved

/-- Nothing is lost exactly when no request of the common task was fulfilled. -/
theorem Inv.kept_iff {s : State} (h : Inv s) : Kept s↔NoneResolved s := by
  constructor
  · intro hk t ht hres
    have hzero : lost s=0 := by
      have htotal := h.total
      rw [hk.held] at htotal
      exact (add_eq_left.mp htotal.symm)
    obtain ⟨i,hi⟩ := List.mem_iff_getElem?.mp ht
    have hset := total_set (taskWorks .resolved) hi (t.1,.waiting)
    rw [show taskWorks .resolved t=t.1.works from if_pos hres] at hset
    have hnone : (s.tasks.map (taskWorks .resolved)).sum=0 := hzero
    rw [hnone,zero_add,show taskWorks .resolved (t.1,.waiting)=0 from
      if_neg (fun hn => by cases hn)] at hset
    have hle : t.1.works ≤ 0 := by
      rw [←hset]
      exact Multiset.le_add_left _ _
    exact works_ne_zero (h.tasks t ht) (Multiset.le_zero.mp hle)
  · intro hn
    have hzero : lost s=0 := by
      refine List.sum_eq_zero ?_
      intro w hw
      obtain ⟨t,ht,rfl⟩ := List.mem_map.mp hw
      exact if_neg (hn t ht)
    have htotal := h.total
    rw [hzero,add_zero] at htotal
    exact ⟨htotal,h.once⟩

/-- A step fulfills a request of the common task, or it does not. -/
theorem noneResolved_step {s s' : State} {e : Event} (hs : s.step e=some s') :
    NoneResolved s'↔NoneResolved s ∧ ∀ i,e≠.taskConnected i := by
  have hsame : s'.tasks=s.tasks → (∀ i,e≠.taskConnected i) →
      (NoneResolved s'↔NoneResolved s ∧ ∀ i,e≠.taskConnected i) := by
    intro ht he
    unfold NoneResolved
    rw [ht]
    exact ⟨fun hn => ⟨hn,he⟩,fun hn => hn.1⟩
  cases e with
  | disconnect dsn rollbackPreparedXaId killConnectionId =>
    unfold State.step at hs
    dsimp only at hs
    split_ifs at hs
    cases hs
    exact hsame rfl (fun i hn => by cases hn)
  | commonTask saturated =>
    cases hs
    constructor
    · intro hn
      exact ⟨fun t ht => hn t (List.mem_append_left _ ht),fun i he => by cases he⟩
    · rintro ⟨hn,-⟩ t ht
      rcases List.mem_append.mp ht with ht | ht
      · exact hn t ht
      · obtain ⟨info,-,rfl⟩ := List.mem_map.mp ht
        exact fun he => by cases he
  | taskConnected i =>
    unfold State.step at hs
    dsimp only at hs
    split at hs
    · next info hi =>
      cases hs
      constructor
      · intro hn
        have hlt := (List.getElem?_eq_some_iff.mp hi).1
        exact absurd rfl (hn (info,.resolved) (List.mem_set hlt _))
      · rintro ⟨-,hne⟩
        exact absurd rfl (hne i)
    · cases hs
  | taskFailed i =>
    unfold State.step at hs
    dsimp only at hs
    split at hs
    · next info hi =>
      cases hs
      constructor
      · intro hn
        refine ⟨?_,fun k he => by cases he⟩
        intro t ht
        obtain ⟨k,hk⟩ := List.mem_iff_getElem?.mp ht
        by_cases hik : i=k
        · subst hik
          rw [hi] at hk
          cases hk
          exact fun he => by cases he
        · refine hn t (List.mem_iff_getElem?.mpr ⟨k,?_⟩)
          change (s.tasks.set i (info,.rejected))[k]?=some t
          rw [List.getElem?_set_ne hik,hk]
      · rintro ⟨hn,-⟩ t ht
        rcases List.mem_or_eq_of_mem_set ht with ht | rfl
        · exact hn t ht
        · exact fun he => by cases he
    · cases hs
  | connected dsn =>
    cases hs
    exact hsame rfl (fun i hn => by cases hn)
  | answered j done =>
    unfold State.step at hs
    dsimp only at hs
    split at hs
    · next c hc =>
      split at hs
      · next info work hcur =>
        cases hs
        refine hsame ?_ (fun i hn => by cases hn)
        unfold State.clearAnswer State.clearEntry State.clearNext
        dsimp only
        split_ifs <;> rfl
      · cases hs
    · cases hs

/-- The requests that a run fulfills. -/
theorem noneResolved_run {events : List Event} {s t : State} (h : run State.step s events=some t) :
    NoneResolved t↔NoneResolved s ∧ ∀ i,.taskConnected i ∉ events := by
  induction events generalizing s with
  | nil =>
    cases h
    exact ⟨fun hn => ⟨hn,fun i => List.not_mem_nil⟩,fun hn => hn.1⟩
  | cons e events ih =>
    obtain ⟨s',hs,ht⟩ := run_cons_inv h
    rw [ih ht,noneResolved_step hs]
    constructor
    · rintro ⟨⟨hn,he⟩,hes⟩
      refine ⟨hn,?_⟩
      intro i hm
      rcases List.mem_cons.mp hm with hm | hm
      · exact he i hm.symm
      · exact hes i hm
    · rintro ⟨hn,hes⟩
      exact ⟨⟨hn,fun i he => hes i (he ▸ List.mem_cons_self)⟩,
        fun i hm => hes i (List.mem_cons_of_mem _ hm)⟩

/-- Nothing that is to be done after a forced disconnect is lost exactly in the
runs in which no request that the common task makes for it is fulfilled. -/
theorem run_kept {events : List Event} {s : State} (h : run State.step {} events=some s) :
    Kept s↔∀ i,.taskConnected i ∉ events := by
  have hinv : Inv s := run_invariant (C:=fun _ => True) (fun _ _ _ hi _ hs => Inv.step hi hs)
    inv_new (fun _ _ => trivial) h
  rw [hinv.kept_iff,noneResolved_run h]
  exact ⟨fun hn => hn.2,fun hn => ⟨fun t ht => absurd ht List.not_mem_nil,hn⟩⟩

/-- A query is to be killed and a transaction to be rolled back. The request of
the common task fails, and a new connection takes the entry. -/
def clearedRun : List Event :=
  [.disconnect (plainDsn "secret" "") "xa1" 7,.commonTask (fun _ => false),.taskFailed 0,
    .connected (plainDsn "secret" "a"),.answered 0 true,.answered 0 false]

/-- The query is killed, and the rest is in the list again. -/
theorem run_kept_cleared : ∃ s,run State.step {} clearedRun=some s ∧
    s.takeCare.map (fun info => (info.killConnectionId,info.rollbackPreparedXaId))=[(0,"xa1")] ∧
    Kept s := by
  have hrun : ((run State.step {} clearedRun).map fun s =>
      s.takeCare.map fun info => (info.killConnectionId,info.rollbackPreparedXaId))=
        some [(0,"xa1")] := by decide +kernel
  obtain ⟨s,hs,ht⟩ := Option.map_eq_some_iff.mp hrun
  refine ⟨s,hs,ht,(run_kept hs).mpr ?_⟩
  intro i hm
  simp only [clearedRun,List.mem_cons,List.not_mem_nil,or_false,reduceCtorEq] at hm

/-- The request of the common task is fulfilled, and its entry is forgotten. -/
theorem fulfilled_not_kept : ¬∀ events s,run State.step {} events=some s → Kept s := by
  intro h
  have hkept := (h [.disconnect (plainDsn "secret" "") "xa1" 7,.commonTask (fun _ => false),
    .taskConnected 0] _ rfl).held
  have hcard := congrArg Multiset.card hkept
  exact absurd hcard (by decide)

end SpiritMysql.Disconnected
