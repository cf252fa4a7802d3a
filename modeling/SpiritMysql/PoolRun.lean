import Mathlib.Data.List.Infix
import Mathlib.Data.List.Perm.Basic
import SpiritMysql.EventSystem
import SpiritMysql.Pool

/-!
# Which connections the pool hands out

A connection of the pool is filed under the hash of its name. When the names
that are asked for have different hashes, a reused connection was opened with
the options asked for, and the schema asked for is selected on it.
-/

namespace SpiritMysql.PoolRun

open DsnName EventSystem Pool

/-- No two of the names have one key, and names with a schema share the key
without the schema only with names that differ from them in the schema. -/
def NoClash (R : Dsn → Prop) : Prop :=
  ∀ a b,R a → R b →
    (a.hash=b.hash → a=b) ∧
      (b.schema≠"" → a.hashNoSchema=b.hashNoSchema → a.SameButSchema b)

/-- What holds of a connection in the lists of a key. -/
structure Sound (R : Dsn → Prop) (key : BitVec 32) (p : PooledProtocol) : Prop where
  /-- Its name was asked for. -/
  asked : R p.dsn
  /-- Its name has the key. -/
  hash : p.dsn.hash=key
  /-- It was opened with the options of its name. -/
  opened : p.openedFor.SameButSchema p.dsn
  /-- The schema that it knows is the one on the server. -/
  known : p.schema="" ∨ p.schema=p.db
  /-- It knows no schema where none is reported. -/
  untracked : p.tracksSchema=false → p.schema=""

/-- An idle connection has the schema of its name selected. -/
def Parked (p : PooledProtocol) : Prop := p.dsn.schema≠"" → p.selected=p.dsn.schema

/-- What holds of the lists of a key. -/
structure Kept (R : Dsn → Prop) (o : Protocols) : Prop where
  /-- Every idle connection is sound and parked. -/
  idle : ∀ p ∈ o.idle,Sound R o.key p ∧ Parked p
  /-- Every busy connection is sound. -/
  busy : ∀ p ∈ o.busy,Sound R o.key p

/-- The schema that the first query is to run in. -/
def target (g : Grant) : String := if g.asked="" then g.dsn.schema else g.asked

/-- A connection that was handed out fits what was asked for. It was opened with
the same options. When it comes from the pool, its first query runs in the
pending schema, or in the one of the name: that schema is selected now, or was
selected after the commands of the last holder. -/
structure Matches (g : Grant) : Prop where
  /-- The connection was opened for a name of the same options. -/
  opened : g.protocol.openedFor.SameButSchema g.dsn
  /-- The schema is selected before the first query. -/
  schema : g.reused=true → target g≠"" →
    g.protocol.maybeInitDb.db=target g ∨
      (g.asked="" ∧ g.protocol.maybeInitDb.selected=target g)

/-- What holds of a call of `getProtocol()`. -/
structure Called (R : Dsn → Prop) (keys : List (BitVec 32)) (r : Request) : Prop where
  /-- The name is one that was asked for. -/
  asked : R r.dsn
  /-- The lists that the call looks at are the ones of the name's key. -/
  conns : keys[r.conns]?=some r.dsn.hash
  /-- The pending schema can have become the one of the name. -/
  pending : r.pendingChangeSchema=r.asked ∨ (r.asked="" ∧ r.pendingChangeSchema=r.dsn.schema)

/-- The keys of the `Protocols` objects. -/
def keys (s : State) : List (BitVec 32) := s.objects.map Protocols.key

/-- What holds of the pool. -/
structure Inv (R : Dsn → Prop) (s : State) : Prop where
  /-- Every connection is sound. -/
  objects : ∀ o ∈ s.objects,Kept R o
  /-- The map leads to the lists of the key. -/
  map : ∀ e ∈ s.protocolsPerSchema,(keys s)[e.2]?=some e.1
  /-- Every call looks at the lists of its key. -/
  requests : ∀ r ∈ s.requests,Called R (keys s) r
  /-- Every connection that was handed out fits. -/
  granted : ∀ g ∈ s.granted,Matches g

/-- A pool that nothing was asked of. -/
theorem inv_empty (R : Dsn → Prop) : Inv R {} := by
  constructor <;> exact fun _ h => absurd h List.not_mem_nil

/-- The invariant depends on the lists and the calls only. -/
theorem Inv.congr {R : Dsn → Prop} {s t : State} (h : Inv R s) (ho : t.objects=s.objects)
    (hm : t.protocolsPerSchema=s.protocolsPerSchema) (hr : t.requests=s.requests)
    (hg : t.granted=s.granted) : Inv R t := by
  have hk : keys t=keys s := by rw [keys,keys,ho]
  refine ⟨?_,?_,?_,?_⟩
  · rw [ho]
    exact h.objects
  · rw [hm,hk]
    exact h.map
  · rw [hr,hk]
    exact h.requests
  · rw [hg]
    exact h.granted

/-- Updating an object leaves its key. -/
theorem keys_modify (s : State) (ref : ℕ) {f : Protocols → Protocols} (hf : ∀ o,(f o).key=o.key) :
    keys (s.modify ref f)=keys s := by
  apply List.ext_getElem?
  intro i
  simp only [keys,State.modify,List.getElem?_map,List.getElem?_modify]
  cases s.objects[i]? with
  | none => rfl
  | some o =>
    by_cases hi : ref=i
    · simp only [hi,if_true,Option.map_eq_map,Option.map_some,hf]
    · simp only [hi,if_false,Option.map_eq_map,Option.map_some]

/-- A member of an updated list was there, or is the updated one. -/
theorem mem_modify {α : Type} {l : List α} {i : ℕ} {f : α → α} {b : α} (h : b ∈ l.modify i f) :
    b ∈ l ∨ ∃ a,l[i]?=some a ∧ b=f a := by
  obtain ⟨j,hj⟩ := List.mem_iff_getElem?.mp h
  rw [List.getElem?_modify] at hj
  cases ha : l[j]? with
  | none =>
    rw [ha] at hj
    exact absurd hj (by simp)
  | some a =>
    rw [ha] at hj
    by_cases hi : i=j
    · subst hi
      simp only [if_true,Option.map_eq_map,Option.map_some,Option.some.injEq] at hj
      exact Or.inr ⟨a,ha,hj.symm⟩
    · simp only [hi,if_false,Option.map_eq_map,Option.map_some,Option.some.injEq] at hj
      exact Or.inl (hj ▸ List.mem_of_getElem? ha)

/-- Updating an object of the pool keeps the invariant, when the new lists are
sound. -/
theorem Inv.modify {R : Dsn → Prop} {s : State} (h : Inv R s) {ref : ℕ}
    {f : Protocols → Protocols} (hkey : ∀ o,(f o).key=o.key)
    (hf : ∀ o,s.objects[ref]?=some o → Kept R (f o)) : Inv R (s.modify ref f) := by
  refine ⟨?_,?_,?_,h.granted⟩
  · intro o ho
    rcases mem_modify ho with hm | ⟨a,ha,rfl⟩
    · exact h.objects o hm
    · exact hf a ha
  · rw [keys_modify s ref hkey]
    exact h.map
  · rw [keys_modify s ref hkey]
    exact h.requests

/-- The status of a call changes. -/
theorem Inv.setRequest {R : Dsn → Prop} {s : State} (h : Inv R s) {i : ℕ} {r : Request}
    (hr : Called R (keys s) r) : Inv R (s.setRequest i r) := by
  refine ⟨h.objects,h.map,?_,h.granted⟩
  intro r' hr'
  rcases List.mem_or_eq_of_mem_set hr' with hm | rfl
  · exact h.requests r' hm
  · exact hr

/-- Changing the default schema on the server leaves a connection sound. -/
theorem Sound.changeDb {R : Dsn → Prop} {key : BitVec 32} {p : PooledProtocol}
    (h : Sound R key p) (db : String) (always : Bool) : Sound R key (p.changeDb db always) := by
  refine ⟨h.asked,h.hash,h.opened,?_,?_⟩
  · simp only [PooledProtocol.changeDb]
    by_cases hc : p.tracksSchema=true ∧ (always=true ∨ db≠p.db)
    · rw [if_pos hc]
      exact Or.inr rfl
    · rw [if_neg hc]
      rcases h.known with hk | hk
      · exact Or.inl hk
      · cases ht : p.tracksSchema with
        | false => exact Or.inl (h.untracked ht)
        | true =>
          have hdb : db=p.db := by
            by_contra hne
            exact hc ⟨ht,Or.inr hne⟩
          exact Or.inr (hk.trans hdb.symm)
  · intro ht
    simp only [PooledProtocol.changeDb] at ht ⊢
    rw [if_neg (by rw [ht]; exact fun hc => absurd hc.1 Bool.false_ne_true)]
    exact h.untracked ht

/-- Selecting a schema leaves a connection sound. -/
theorem Sound.select {R : Dsn → Prop} {key : BitVec 32} {p : PooledProtocol}
    (h : Sound R key p) (schema : String) : Sound R key (p.select schema) := by
  have hc := h.changeDb schema true
  exact ⟨hc.asked,hc.hash,hc.opened,hc.known,hc.untracked⟩

/-- The holder's commands leave a connection sound. -/
theorem Sound.work {R : Dsn → Prop} {key : BitVec 32} {p : PooledProtocol}
    (h : Sound R key p) (db : String) (always : Bool) : Sound R key (p.work db always) := by
  have hc := h.changeDb db always
  exact ⟨hc.asked,hc.hash,hc.opened,hc.known,hc.untracked⟩

/-- A connection just opened is sound. -/
theorem sound_inst {R : Dsn → Prop} {dsn : Dsn} (hR : R dsn) (id : ℕ) (pendingChangeSchema : String)
    (tracksSchema : Bool) (db : String) (always : Bool) :
    Sound R dsn.hash (inst id dsn pendingChangeSchema tracksSchema db always) := by
  unfold inst
  refine Sound.changeDb ?_ db always
  refine ⟨hR,rfl,Dsn.SameButSchema.refl dsn,?_,?_⟩
  · dsimp only
    by_cases ht : tracksSchema=true
    · rw [if_pos ht]
      exact Or.inr rfl
    · rw [if_neg ht]
      exact Or.inl rfl
  · intro ht
    dsimp only at ht ⊢
    rw [if_neg (by rw [ht]; exact Bool.false_ne_true)]

/-- A recycled connection is sound and has the schema of its name selected. -/
theorem recycle_sound {R : Dsn → Prop} {key : BitVec 32} {p : PooledProtocol}
    (h : Sound R key p) (id : ℕ) (db : String) (always : Bool) :
    Sound R key (p.recycle id db always) ∧ Parked (p.recycle id db always) := by
  have hreset : Sound R key {p with
      id := id,schema := "",pendingChangeSchema := "",useNTimes := p.useNTimes.map (fun n => n-1)} :=
    ⟨h.asked,h.hash,h.opened,Or.inl rfl,fun _ => rfl⟩
  simp only [PooledProtocol.recycle]
  by_cases he : p.dsn.schema=""
  · rw [if_pos he]
    exact ⟨hreset.changeDb db always,fun hne => absurd he hne⟩
  · rw [if_neg he]
    exact ⟨(hreset.select p.dsn.schema).changeDb db always,fun _ => rfl⟩

/-- The pending schema is selected before the first query. -/
theorem maybeInitDb_db {R : Dsn → Prop} {key : BitVec 32} {p : PooledProtocol} (h : Sound R key p)
    {schema : String} (hne : schema≠"") : (p.use schema).maybeInitDb.db=schema := by
  unfold PooledProtocol.maybeInitDb
  rw [if_neg (show (p.use schema).pendingChangeSchema≠"" from hne)]
  by_cases hc : p.schema="" ∨ p.schema≠schema
  · rw [if_pos (show (p.use schema).schema="" ∨
      (p.use schema).schema≠(p.use schema).pendingChangeSchema from hc)]
    rfl
  · rw [if_neg (show ¬((p.use schema).schema="" ∨
      (p.use schema).schema≠(p.use schema).pendingChangeSchema) from hc)]
    change p.db=schema
    rcases h.known with hk | hk
    · exact absurd (Or.inl hk) hc
    · by_contra hd
      exact hc (Or.inr fun hs => hd (hk.symm.trans hs))

/-- Without a pending schema nothing is selected. -/
theorem maybeInitDb_none (p : PooledProtocol) : (p.use "").maybeInitDb=p.use "" := by
  simp only [PooledProtocol.maybeInitDb,PooledProtocol.use,if_true]

/-- A connection is handed out: the invariant holds, when the connection is
sound and fits. -/
theorem Inv.grant {R : Dsn → Prop} {s : State} (h : Inv R s) {i : ℕ} {r : Request}
    (hr : Called R (keys s) r) {now : WithTop ℚ} {reused : Bool} {p : PooledProtocol}
    (hp : Sound R r.dsn.hash p)
    (hm : ∀ useTill useNTimes,
      Matches ⟨r.dsn,r.asked,reused,{p with useTill := useTill,useNTimes := useNTimes}⟩) :
    Inv R (s.grant i r now reused p) := by
  have hmod : Inv R (s.modify r.conns fun o => {o with busy := o.busy++[{p with
      useTill := min p.useTill (now+keepAliveTimeout r.dsn)
      useNTimes := min p.useNTimes (keepAliveMax r.dsn)}]}) := by
    refine h.modify (fun _ => rfl) ?_
    intro o ho
    have hko : o.key=r.dsn.hash := by
      have hk := hr.conns
      rw [keys,List.getElem?_map,ho] at hk
      exact Option.some.inj hk
    have hkept := h.objects o (List.mem_of_getElem? ho)
    refine ⟨hkept.idle,?_⟩
    intro q hq
    rcases List.mem_append.mp hq with hb | hb
    · exact hkept.busy q hb
    · rw [List.mem_singleton.mp hb]
      dsimp only
      rw [hko]
      exact ⟨hp.asked,hp.hash,hp.opened,hp.known,hp.untracked⟩
  have hset : Inv R (State.setRequest (s.modify r.conns fun o => {o with busy := o.busy++[{p with
      useTill := min p.useTill (now+keepAliveTimeout r.dsn)
      useNTimes := min p.useNTimes (keepAliveMax r.dsn)}]}) i {r with status := .finished}) := by
    refine hmod.setRequest ?_
    rw [keys_modify s r.conns]
    · exact ⟨hr.asked,hr.conns,hr.pending⟩
    · intro o
      rfl
  refine ⟨hset.objects,hset.map,hset.requests,?_⟩
  intro g hg
  rcases List.mem_append.mp hg with hb | hb
  · exact hset.granted g hb
  · rw [List.mem_singleton.mp hb]
    exact hm _ _

/-- A connection that was taken from an idle list is closed or handed out. -/
theorem Inv.take {R : Dsn → Prop} {s : State} (h : Inv R s) {i : ℕ} {r : Request}
    (hr : Called R (keys s) r) {now : WithTop ℚ} {p : PooledProtocol}
    (hp : Sound R r.dsn.hash p) (hpending : r.pendingChangeSchema="" → Parked p)
    (hdsn : p.dsn=r.dsn) : Inv R (s.take i r now p) := by
  unfold State.take
  by_cases htill : p.useTill ≤ now
  · rw [if_pos htill]
    exact (h.setRequest (i:=i) hr).congr rfl rfl rfl rfl
  · rw [if_neg htill]
    have hs : Inv R {s with nIdleAll := s.nIdleAll-1} := h.congr rfl rfl rfl rfl
    have huse : Sound R r.dsn.hash (p.use r.pendingChangeSchema) :=
      ⟨hp.asked,hp.hash,hp.opened,hp.known,hp.untracked⟩
    refine hs.grant hr huse ?_
    intro useTill useNTimes
    have hq : Sound R r.dsn.hash {p with useTill := useTill,useNTimes := useNTimes} :=
      ⟨hp.asked,hp.hash,hp.opened,hp.known,hp.untracked⟩
    refine ⟨hdsn ▸ hp.opened,?_⟩
    intro _ htarget
    dsimp only [target] at htarget ⊢
    change (PooledProtocol.maybeInitDb (PooledProtocol.use {p with useTill := useTill,useNTimes := useNTimes}
        r.pendingChangeSchema)).db=_ ∨ _ ∧ (PooledProtocol.maybeInitDb (PooledProtocol.use {p with useTill := useTill,useNTimes := useNTimes}
        r.pendingChangeSchema)).selected=_
    by_cases ha : r.asked=""
    · rw [if_pos ha] at htarget ⊢
      by_cases he : r.pendingChangeSchema=""
      · right
        rw [he,maybeInitDb_none]
        refine ⟨ha,?_⟩
        have hparked := hpending he
        unfold Parked at hparked
        rw [hdsn] at hparked
        exact hparked htarget
      · left
        rcases hr.pending with hpend | ⟨-,hpend⟩
        · exact absurd (hpend.trans ha) he
        · rw [hpend]
          exact maybeInitDb_db hq htarget
    · rw [if_neg ha] at htarget ⊢
      left
      rcases hr.pending with hpend | ⟨hnone,-⟩
      · rw [hpend]
        exact maybeInitDb_db hq htarget
      · exact absurd hnone ha

/-- What stealing takes out of the idle lists. -/
theorem steal_inv {s s' : State} {dsn : Dsn} {p : PooledProtocol} (h : s.steal dsn=some (p,s')) :
    ∃ ref o q,s.objects[ref]?=some o ∧ o.idle.getLast?=some q ∧
      q.dsn.hashNoSchema=dsn.hashNoSchema ∧ p={q with dsn := dsn} ∧
      s'=s.modify ref fun o => {o with idle := o.idle.dropLast} := by
  obtain ⟨e,-,he⟩ := List.exists_of_findSome?_eq_some h
  cases ho : s.objects[e.2]? with
  | none =>
    rw [ho] at he
    exact absurd he (by simp)
  | some o =>
    cases hl : o.idle.getLast? with
    | none =>
      simp only [ho,hl] at he
      exact absurd he (by simp)
    | some q =>
      simp only [ho,hl] at he
      by_cases hh : q.dsn.hashNoSchema=dsn.hashNoSchema
      · rw [if_pos hh] at he
        obtain ⟨hp,hs'⟩ := Prod.mk.inj (Option.some.inj he)
        exact ⟨e.2,o,q,ho,hl,hh,hp.symm,hs'.symm⟩
      · rw [if_neg hh] at he
        exact absurd he (by simp)

/-- Taking the last idle connection out of its list keeps the invariant. -/
theorem Inv.dropIdle {R : Dsn → Prop} {s : State} (h : Inv R s) (ref : ℕ) :
    Inv R (s.modify ref fun o => {o with idle := o.idle.dropLast}) := by
  refine h.modify (fun _ => rfl) ?_
  intro o ho
  have hkept := h.objects o (List.mem_of_getElem? ho)
  exact ⟨fun q hq => hkept.idle q (List.mem_of_mem_dropLast hq),hkept.busy⟩

/-- The number of connections being opened changes. -/
theorem Inv.count {R : Dsn → Prop} {s : State} (h : Inv R s) (ref : ℕ) (n : ℕ → ℕ) :
    Inv R (s.modify ref fun o => {o with nConnecting := n o.nConnecting}) := by
  refine h.modify (fun _ => rfl) ?_
  intro o ho
  have hk := h.objects o (List.mem_of_getElem? ho)
  exact ⟨hk.idle,hk.busy⟩

/-- A call changes its status, and the number of connections being opened
changes with it. -/
theorem Inv.connecting {R : Dsn → Prop} {s : State} (h : Inv R s) {i : ℕ} {r : Request}
    (hr : Called R (keys s) r) (n : ℕ → ℕ) (status : RequestStatus) :
    Inv R ((s.modify r.conns fun o => {o with nConnecting := n o.nConnecting}).setRequest i
      {r with status := status}) := by
  refine (h.count r.conns n).setRequest ?_
  rw [keys_modify s r.conns]
  · exact ⟨hr.asked,hr.conns,hr.pending⟩
  · intro o
    rfl

/-- One iteration of the connecting loop keeps the invariant. -/
theorem Inv.connect {R : Dsn → Prop} (hR : NoClash R) {s : State} (h : Inv R s) {i : ℕ}
    {r : Request} (hr : Called R (keys s) r) {now : WithTop ℚ} {conns : Protocols}
    (hconns : s.objects[r.conns]?=some conns) : Inv R (s.connect i r now conns) := by
  have hkept := h.objects conns (List.mem_of_getElem? hconns)
  have hkey : conns.key=r.dsn.hash := by
    have hk := hr.conns
    rw [keys,List.getElem?_map,hconns] at hk
    exact Option.some.inj hk
  unfold State.connect
  cases hl : conns.idle.getLast? with
  | some p =>
    obtain ⟨hsound,hparked⟩ := hkept.idle p (List.mem_of_getLast? hl)
    rw [hkey] at hsound
    have hdsn : p.dsn=r.dsn := (hR p.dsn r.dsn hsound.asked hr.asked).1 hsound.hash
    refine (h.dropIdle r.conns).take ?_ hsound (fun _ => hparked) hdsn
    rw [keys_modify s r.conns]
    · exact hr
    · intro o
      rfl
  | none =>
    dsimp only
    by_cases hschema : r.dsn.schema=""
    · rw [if_pos hschema]
      exact (h.connecting (i:=i) hr (·+1) .connecting).congr rfl rfl rfl rfl
    · rw [if_neg hschema]
      cases hs : s.steal r.dsn with
      | none =>
        exact (h.connecting (i:=i) hr (·+1) .connecting).congr rfl rfl rfl rfl
      | some found =>
        obtain ⟨p,s'⟩ := found
        obtain ⟨ref,o,q,ho,hq,hh,rfl,rfl⟩ := steal_inv hs
        dsimp only
        obtain ⟨hsound,-⟩ := (h.objects o (List.mem_of_getElem? ho)).idle q
          (List.mem_of_getLast? hq)
        have hsame : q.dsn.SameButSchema r.dsn :=
          (hR q.dsn r.dsn hsound.asked hr.asked).2 hschema hh
        have hp : Sound R r.dsn.hash {q with dsn := r.dsn} :=
          ⟨hr.asked,rfl,hsound.opened.trans hsame,hsound.known,hsound.untracked⟩
        have hcalled : Called R (keys (s.modify ref fun o => {o with idle := o.idle.dropLast})) r := by
          rw [keys_modify s ref]
          · exact hr
          · intro o
            rfl
        by_cases hpend : r.pendingChangeSchema=""
        · rw [if_pos hpend]
          refine (h.dropIdle ref).take ?_ hp (fun he => absurd he hschema) rfl
          refine ⟨hcalled.asked,hcalled.conns,Or.inr ⟨?_,rfl⟩⟩
          rcases hr.pending with ha | ⟨ha,-⟩
          · exact ha.symm.trans hpend
          · exact ha
        · rw [if_neg hpend]
          exact (h.dropIdle ref).take hcalled hp (fun he => absurd he hpend) rfl

/-- Taking one element out of a list keeps the others. -/
theorem swapRemove_perm {α : Type} {l : List α} {i : ℕ} {a : α} (h : l[i]?=some a) :
    (a::swapRemove l i).Perm l := by
  obtain ⟨hi,ha⟩ := List.getElem?_eq_some_iff.mp h
  unfold swapRemove
  cases hl : l.getLast? with
  | none =>
    rw [List.getLast?_eq_none_iff.mp hl] at hi
    exact absurd hi (Nat.not_lt_zero i)
  | some last =>
    have hlast : (l.set i last).getLast?=some last := by
      rw [List.getLast?_eq_getElem?] at hl ⊢
      rw [List.length_set,List.getElem?_set]
      split_ifs with hj
      · rfl
      · exact hl
    have hset : ((l.set i last).dropLast++[last]).Perm (last::l.eraseIdx i) := by
      rw [List.dropLast_append_getLast? last hlast]
      exact List.set_perm_cons_eraseIdx hi last
    have hrest : (l.set i last).dropLast.Perm (l.eraseIdx i) :=
      ((List.perm_append_singleton _ _).symm.trans hset).cons_inv
    exact (hrest.cons a).trans (ha ▸ List.getElem_cons_eraseIdx_perm hi)

/-- What is left of a list after a removal was in it. -/
theorem mem_swapRemove {α : Type} {l : List α} {i : ℕ} {a : α} (h : a ∈ swapRemove l i) : a ∈ l := by
  unfold swapRemove at h
  cases hl : l.getLast? with
  | none =>
    rw [hl] at h
    exact h
  | some b =>
    rw [hl] at h
    rcases List.mem_or_eq_of_mem_set (List.mem_of_mem_dropLast h) with hm | rfl
    · exact hm
    · exact List.mem_of_getLast? hl

/-- What the common task leaves idle was idle. -/
theorem mem_closeIdle {close : PooledProtocol → Bool} {n : ℕ} {idle : List PooledProtocol}
    {p : PooledProtocol} (h : p ∈ closeIdle close n idle) : p ∈ idle := by
  induction n generalizing idle with
  | zero => exact h
  | succ n ih =>
    have hm := ih h
    cases hi : idle[n]? with
    | none =>
      rw [hi] at hm
      exact hm
    | some q =>
      rw [hi] at hm
      dsimp only at hm
      by_cases hc : close q=true
      · rw [if_pos hc] at hm
        exact mem_swapRemove hm
      · rw [if_neg hc] at hm
        exact hm

/-- The place found in a busy list is one of the object looked at. -/
theorem busyPlace_inv {s : State} {ref : ℕ} {is : PooledProtocol → Bool} {place : ℕ×ℕ}
    (h : s.busyPlace ref is=some place) :
    place.1=ref ∧ ∃ o q,s.objects[ref]?=some o ∧ q ∈ o.busy ∧ is q=true := by
  unfold State.busyPlace at h
  cases ho : s.objects[ref]? with
  | none =>
    rw [ho] at h
    exact absurd h (by simp)
  | some o =>
    rw [ho] at h
    obtain ⟨i,hi,rfl⟩ := Option.map_eq_some_iff.mp h
    obtain ⟨hlt,his,-⟩ := List.findIdx?_eq_some_iff_getElem.mp hi
    exact ⟨rfl,o,o.busy[i],rfl,List.getElem_mem hlt,his⟩

/-- The map leads from a key to the lists of the key. -/
theorem lookup_inv {R : Dsn → Prop} {s : State} (h : Inv R s) {hash : BitVec 32} {ref : ℕ}
    (hl : s.lookup hash=some ref) : (keys s)[ref]?=some hash := by
  obtain ⟨e,he,rfl⟩ := Option.map_eq_some_iff.mp hl
  have hk := h.map e (List.mem_of_find?_eq_some he)
  have hhash := List.find?_some he
  rw [decide_eq_true_eq] at hhash
  rw [hk,hhash]

/-- The busy list where a connection is found is one of the key of its name. -/
theorem findBusy_inv {R : Dsn → Prop} {s : State} (h : Inv R s) {p : PooledProtocol} {ref i : ℕ}
    (hf : s.findBusy p=some (ref,i)) : (keys s)[ref]?=some p.dsn.hash := by
  unfold State.findBusy at hf
  cases hd : (s.lookup p.dsn.hash).bind fun ref => s.busyPlace ref fun q => q.id=p.id with
  | some place =>
    rw [hd] at hf
    cases hf
    obtain ⟨ref',hl,hp⟩ := Option.bind_eq_some_iff.mp hd
    obtain ⟨rfl,-⟩ := busyPlace_inv hp
    exact lookup_inv h hl
  | none =>
    -- the key's own list does not have it: some list with a connection of that name
    rw [hd] at hf
    obtain ⟨e,-,hp⟩ := List.exists_of_findSome?_eq_some hf
    obtain ⟨rfl,o,q,ho,hq,his⟩ := busyPlace_inv hp
    rw [decide_eq_true_eq] at his
    have hsound := (h.objects o (List.mem_of_getElem? ho)).busy q hq
    rw [keys,List.getElem?_map,ho,←his,hsound.hash]
    rfl

/-- Returning a connection keeps the invariant, when what is put back is
recycled from it. -/
theorem Inv.doReturnProtocol {R : Dsn → Prop} {s : State} (h : Inv R s) (p : PooledProtocol)
    {reuse : Option PooledProtocol}
    (hreuse : ∀ q ∈ reuse,Sound R p.dsn.hash q ∧ Parked q) : Inv R (s.doReturnProtocol p reuse) := by
  unfold State.doReturnProtocol
  cases hf : s.findBusy p with
  | none => exact h
  | some place =>
    obtain ⟨ref,i⟩ := place
    have hkey := findBusy_inv h hf
    refine Inv.congr (s:=s.modify ref fun o =>
      {o with busy := swapRemove o.busy i,idle := o.idle++reuse.toList}) ?_ rfl rfl rfl rfl
    refine h.modify (fun _ => rfl) ?_
    intro o ho
    have hkept := h.objects o (List.mem_of_getElem? ho)
    rw [keys,List.getElem?_map,ho] at hkey
    have hko : o.key=p.dsn.hash := Option.some.inj hkey
    refine ⟨?_,fun q hq => hkept.busy q (mem_swapRemove hq)⟩
    intro q hq
    rcases List.mem_append.mp hq with hb | hb
    · exact hkept.idle q hb
    · dsimp only
      rw [hko]
      exact hreuse q (Option.mem_toList.mp hb)

/-- A busy connection is sound. -/
theorem busyProtocol_sound {R : Dsn → Prop} {s : State} (h : Inv R s) {id : ℕ} {p : PooledProtocol}
    (hp : s.busyProtocol id=some p) : Sound R p.dsn.hash p := by
  obtain ⟨o,ho,hq⟩ := List.exists_of_findSome?_eq_some hp
  have hs := (h.objects o ho).busy p (List.mem_of_find?_eq_some hq)
  exact ⟨hs.asked,rfl,hs.opened,hs.known,hs.untracked⟩

/-- `returnProtocol()` keeps the invariant. -/
theorem Inv.returnProtocol {R : Dsn → Prop} {s : State} (h : Inv R s) {p : PooledProtocol}
    (hp : Sound R p.dsn.hash p) (now : WithTop ℚ) (alive : Option (String×Bool)) :
    Inv R (s.returnProtocol p now alive) := by
  have hnone : Inv R (s.doReturnProtocol p none) :=
    h.doReturnProtocol p (fun _ hq => absurd hq (Option.not_mem_none _))
  unfold State.returnProtocol
  cases alive with
  | none => exact hnone
  | some left =>
    obtain ⟨db,always⟩ := left
    dsimp only
    by_cases hc : 1 < p.useNTimes ∧ now < p.useTill
    · rw [if_pos hc]
      have hs : Inv R {s with nextId := s.nextId+1} := h.congr rfl rfl rfl rfl
      refine hs.doReturnProtocol p ?_
      intro q hq
      rw [←Option.some.inj hq]
      exact recycle_sound hp s.nextId db always
    · rw [if_neg hc]
      exact hnone

/-- The common task keeps the invariant at every entry of the map. -/
theorem Inv.taskEntry {R : Dsn → Prop} {s : State} (h : Inv R s) (now : WithTop ℚ)
    (closeAll quiet : BitVec 32 → Bool) (e : BitVec 32×ℕ) :
    Inv R (State.taskEntry now closeAll quiet s e) := by
  unfold State.taskEntry
  cases ho : s.objects[e.2]? with
  | none => exact h
  | some conns =>
    dsimp only
    have hmod : Inv R (s.modify e.2 fun o => {o with
        idle := closeIdle (fun p => closeAll e.1 || decide (p.useTill ≤ now)) conns.idle.length
          conns.idle}) := by
      refine h.modify (fun _ => rfl) ?_
      intro o ho'
      have hkept := h.objects o (List.mem_of_getElem? ho')
      rw [ho] at ho'
      cases ho'
      exact ⟨fun q hq => hkept.idle q (mem_closeIdle hq),hkept.busy⟩
    split_ifs with hc
    · refine ⟨hmod.objects,?_,hmod.requests,hmod.granted⟩
      intro e' he'
      exact hmod.map e' (List.mem_of_mem_filter he')
    · exact hmod.congr rfl rfl rfl rfl

/-- What a holder does to its connection keeps the invariant. -/
theorem Inv.updateBusy {R : Dsn → Prop} {s : State} (h : Inv R s) (id : ℕ)
    {f : PooledProtocol → PooledProtocol}
    (hf : ∀ key p,Sound R key p → Sound R key (f p)) : Inv R (s.updateBusy id f) := by
  have hk : keys (s.updateBusy id f)=keys s := by
    simp only [keys,State.updateBusy,List.map_map]
    rfl
  refine ⟨?_,?_,?_,h.granted⟩
  · intro o ho
    obtain ⟨o',ho',rfl⟩ := List.mem_map.mp ho
    have hkept := h.objects o' ho'
    refine ⟨hkept.idle,?_⟩
    intro q hq
    obtain ⟨q',hq',rfl⟩ := List.mem_map.mp hq
    have hs := hkept.busy q' hq'
    by_cases hid : q'.id=id
    · rw [if_pos hid]
      exact hf _ _ hs
    · rw [if_neg hid]
      exact hs
  · rw [hk]
    exact h.map
  · rw [hk]
    exact h.requests

/-- A call begins. -/
theorem Inv.getProtocol {R : Dsn → Prop} {s : State} (h : Inv R s) {dsn : Dsn} (hR : R dsn)
    (pendingChangeSchema : String) (now : WithTop ℚ) :
    Inv R (s.getProtocol dsn pendingChangeSchema now) := by
  unfold State.getProtocol
  cases hl : s.lookup dsn.hash with
  | some conns =>
    refine ⟨h.objects,h.map,?_,h.granted⟩
    intro r hr
    rcases List.mem_append.mp hr with hb | hb
    · exact h.requests r hb
    · rw [List.mem_singleton.mp hb]
      exact ⟨hR,lookup_inv h hl,Or.inl rfl⟩
  | none =>
    have hold : ∀ (i : ℕ) key,(keys s)[i]?=some key → (keys s++[dsn.hash])[i]?=some key := by
      intro i key hk
      rw [List.getElem?_append_left (List.getElem?_eq_some_iff.mp hk).1]
      exact hk
    have hlen : (keys s).length=s.objects.length := List.length_map _
    have hnew : (keys s++[dsn.hash])[s.objects.length]?=some dsn.hash := by
      rw [←hlen]
      exact List.getElem?_concat_length
    have hkeys : keys {s with objects := s.objects++[{key := dsn.hash}]}=keys s++[dsn.hash] := by
      simp only [keys,List.map_append,List.map_cons,List.map_nil]
    refine ⟨?_,?_,?_,h.granted⟩
    · intro o ho
      rcases List.mem_append.mp ho with hb | hb
      · exact h.objects o hb
      · rw [List.mem_singleton.mp hb]
        constructor <;> exact fun _ hq => absurd hq List.not_mem_nil
    · intro e he
      refine Eq.trans (congrArg (·[e.2]?) hkeys) ?_
      rcases List.mem_append.mp he with hb | hb
      · exact hold _ _ (h.map e hb)
      · rw [List.mem_singleton.mp hb]
        exact hnew
    · intro r hr
      rcases List.mem_append.mp hr with hb | hb
      · have hc := h.requests r hb
        exact ⟨hc.asked,(congrArg (·[r.conns]?) hkeys).trans (hold _ _ hc.conns),hc.pending⟩
      · rw [List.mem_singleton.mp hb]
        exact ⟨hR,(congrArg (·[s.objects.length]?) hkeys).trans hnew,Or.inl rfl⟩

/-- The name that an event asks for is one of `R`. -/
def Asks (R : Dsn → Prop) : Event → Prop
  | .getProtocol dsn _ _ => R dsn
  | _ => True

/-- Every event keeps the invariant. -/
theorem Inv.step {R : Dsn → Prop} (hR : NoClash R) {s s' : State} {e : Event} (h : Inv R s)
    (he : Asks R e) (hs : s.step e=some s') : Inv R s' := by
  cases e with
  | getProtocol dsn pendingChangeSchema now =>
    cases hs
    exact h.getProtocol he pendingChangeSchema now
  | next i now refused =>
    unfold State.step at hs
    cases hr : s.requests[i]? with
    | none => simp [hr] at hs
    | some r =>
      have hcalled := h.requests r (List.mem_of_getElem? hr)
      cases ho : s.objects[r.conns]? with
      | none => simp [hr,ho] at hs
      | some conns =>
        simp only [hr,ho] at hs
        split_ifs at hs with hst
        cases hs
        unfold State.next
        split_ifs
        · exact h.setRequest ⟨hcalled.asked,hcalled.conns,hcalled.pending⟩
        · exact h
        · exact h.connect hR hcalled ho
  | connected i now tracksSchema db always =>
    unfold State.step at hs
    cases hr : s.requests[i]? with
    | none => simp [hr] at hs
    | some r =>
      have hcalled := h.requests r (List.mem_of_getElem? hr)
      simp only [hr] at hs
      split_ifs at hs with hst
      cases hs
      have hmod : Inv R {(s.modify r.conns fun o => {o with nConnecting := o.nConnecting-1}) with
          nBusyAll := s.nBusyAll-1,nextId := s.nextId+1} :=
        (h.count r.conns (·-1)).congr rfl rfl rfl rfl
      refine hmod.grant ?_ (sound_inst hcalled.asked _ _ _ _ _) ?_
      · have hk := keys_modify s r.conns (f:=fun o => {o with nConnecting := o.nConnecting-1})
          (fun _ => rfl)
        refine ⟨hcalled.asked,?_,hcalled.pending⟩
        exact (congrArg (·[r.conns]?) hk).trans hcalled.conns
      · intro _ _
        exact ⟨Dsn.SameButSchema.refl _,fun hre => absurd hre Bool.false_ne_true⟩
  | connectFailed i =>
    unfold State.step at hs
    cases hr : s.requests[i]? with
    | none => simp [hr] at hs
    | some r =>
      have hcalled := h.requests r (List.mem_of_getElem? hr)
      simp only [hr] at hs
      split_ifs at hs with hst
      cases hs
      exact (h.connecting (i:=i) hcalled (·-1) .finished).congr rfl rfl rfl rfl
  | use id schema =>
    cases hs
    exact h.updateBusy id (fun _ _ hp => ⟨hp.asked,hp.hash,hp.opened,hp.known,hp.untracked⟩)
  | work id db always =>
    cases hs
    exact h.updateBusy id (fun _ _ hp => hp.work db always)
  | returnProtocol id now alive =>
    obtain ⟨p,hp,rfl⟩ := Option.map_eq_some_iff.mp hs
    exact h.returnProtocol (busyProtocol_sound h hp) now alive
  | forceDisconnect id =>
    obtain ⟨p,hp,rfl⟩ := Option.map_eq_some_iff.mp hs
    exact h.doReturnProtocol p (fun _ hq => absurd hq (Option.not_mem_none _))
  | commonTask now closeAll quiet =>
    cases hs
    generalize s.protocolsPerSchema=es
    induction es generalizing s with
    | nil => exact h
    | cons e es ih => exact ih (h.taskEntry now closeAll quiet e)
  | closed =>
    cases hs
    exact h.congr rfl rfl rfl rfl

/-- Every connection that a run of the pool hands out fits what was asked for. -/
theorem run_matches {R : Dsn → Prop} (hR : NoClash R) {events : List Event} {s : State}
    (he : ∀ e ∈ events,Asks R e) (h : run State.step {} events=some s) :
    ∀ g ∈ s.granted,Matches g :=
  (run_invariant (fun _ _ _ hi hc hs => Inv.step hR hi hc hs) (inv_empty R) he h).granted

/-- `MySession.conn()`: the name of the connection that it returns, and the
names of the connections of the session. -/
def conn (connsArr : List Dsn) (dsn : Dsn) (fresh : Bool) : Dsn×List Dsn :=
  match if fresh=true then none else connsArr.find? fun c => c.name=dsn.name with
  | some c => (c,connsArr)
  | none => (dsn,connsArr++[dsn])

/-- The calls of `conn()` of a session, each with the name of what it returns. -/
def conns : List Dsn → List (Dsn×Bool) → List (Dsn×Dsn)
  | _,[] => []
  | connsArr,(dsn,fresh)::calls =>
    (dsn,(conn connsArr dsn fresh).1)::conns (conn connsArr dsn fresh).2 calls

/-- A session returns connections of the name asked for. -/
theorem conns_match {R : Dsn → Prop} (hR : NoClash R) {calls : List (Dsn×Bool)}
    (hc : ∀ c ∈ calls,R c.1) {connsArr : List Dsn} (h : ∀ c ∈ connsArr,R c) :
    ∀ r ∈ conns connsArr calls,r.2=r.1 := by
  induction calls generalizing connsArr with
  | nil => exact fun _ hr => absurd hr List.not_mem_nil
  | cons call calls ih =>
    obtain ⟨dsn,fresh⟩ := call
    have hdsn : R dsn := hc (dsn,fresh) List.mem_cons_self
    have hstep : (conn connsArr dsn fresh).1=dsn ∧ ∀ c ∈ (conn connsArr dsn fresh).2,R c := by
      unfold conn
      cases hf : if fresh=true then none else connsArr.find? fun c => c.name=dsn.name with
      | none =>
        refine ⟨rfl,?_⟩
        intro c hm
        rcases List.mem_append.mp hm with hb | hb
        · exact h c hb
        · rw [List.mem_singleton.mp hb]
          exact hdsn
      | some c =>
        refine ⟨?_,h⟩
        split_ifs at hf
        have hname := List.find?_some hf
        rw [decide_eq_true_eq] at hname
        exact (hR c dsn (h c (List.mem_of_find?_eq_some hf)) hdsn).1 (Dsn.hash_of_name hname)
    intro r hr
    rcases List.mem_cons.mp hr with rfl | hm
    · exact hstep.1
    · exact ih (fun c hm' => hc c (List.mem_cons_of_mem _ hm')) hstep.2 r hm

/-- A name with default parameters. -/
def plainDsn (password schema : String) : Dsn where
  hostname := "localhost"
  port := .ofNat 3306
  username := "root"
  password := password
  schema := schema
  pipe := ""
  connectionTimeout := none
  reconnectInterval := none
  keepAliveTimeout := none
  keepAliveMax := none
  maxConns := none
  maxColumnLen := none
  foundRows := false
  ignoreSpace := false
  multiStatements := false
  retryLockWaitTimeout := false
  retryQueryTimes := none
  jsonAsString := false
  datesAsString := false
  correctDates := false
  storeResultsetIfBigger := none
  allowPublicKeyRetrieval := false
  serverPublicKey := ""
  allowCleartextPasswords := false
  compress := .off
  tls := false
  tlsCaCert := ""
  tlsHostname := ""
  initSql := ""

/-- Open a connection for one name, put it back, and ask for another name. -/
def reuseRun (first second : Dsn) : List Event :=
  [.getProtocol first "" 0,.next 0 0 false,.connected 0 0 true first.schema false,
    .returnProtocol 0 1 (some (first.schema,false)),.getProtocol second "" (2 : ℚ),
    .next 1 (2 : ℚ) false]

end SpiritMysql.PoolRun
