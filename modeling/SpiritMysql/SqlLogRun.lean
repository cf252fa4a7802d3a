import SpiritMysql.SqlLogBuffers
import Mathlib.Data.List.ModifyLast

/-!
# Runs of the writer of the SQL log

What is passed for a connection reaches the sink in order, also when a buffer is appended to
while the sink reads it.
-/

namespace SpiritMysql.SqlLogWriter

open AsyncAction TypedArrays ReallocAppend InsertionMaps EventSystem

variable {Dsn : Type} [DecidableEq Dsn]

/-- The buffer of a connection, in the map of all of them. -/
def bufOf (p : List (Dsn × List (ℕ×View))) (d : Dsn) (i : ℕ) : Option View :=
  (InsertionMaps.get d p).bind (InsertionMaps.get i)

/-- The map with another buffer of a connection. -/
def put (p : List (Dsn × List (ℕ×View))) (d : Dsn) (i : ℕ) (v : View) :
    List (Dsn × List (ℕ×View)) :=
  InsertionMaps.set d (InsertionMaps.set i v ((InsertionMaps.get d p).getD [])) p

/-- The map without the buffer of a connection. -/
def remove (p : List (Dsn × List (ℕ×View))) (d : Dsn) (i : ℕ) : List (Dsn × List (ℕ×View)) :=
  if delete i ((InsertionMaps.get d p).getD [])=[] then delete d p
  else InsertionMaps.set d (delete i ((InsertionMaps.get d p).getD [])) p

/-- A connection has one buffer after it was set, and the others have what they had. -/
theorem bufOf_put (p : List (Dsn × List (ℕ×View))) (d d' : Dsn) (i i' : ℕ) (v : View) :
    bufOf (put p d i v) d' i'=if d'=d ∧ i'=i then some v else bufOf p d' i' := by
  unfold bufOf put
  rw [get_set]
  by_cases hd : d'=d
  · rw [if_pos hd,Option.bind_some,get_set]
    by_cases hi : i'=i
    · rw [if_pos hi,if_pos ⟨hd,hi⟩]
    · rw [if_neg hi,if_neg (fun h => hi h.2),hd]
      cases InsertionMaps.get d p with
      | none => rfl
      | some byConn => rfl
  · rw [if_neg hd,if_neg (fun h => hd h.1)]

/-- A connection has no buffer after it was deleted, and the others have what they had. -/
theorem bufOf_remove (p : List (Dsn × List (ℕ×View))) (d d' : Dsn) (i i' : ℕ) :
    bufOf (remove p d i) d' i'=if d'=d ∧ i'=i then none else bufOf p d' i' := by
  have hget : (InsertionMaps.get i' (delete i ((InsertionMaps.get d p).getD [])))=
      if i'=i then none else bufOf p d i' := by
    rw [get_delete]
    unfold bufOf
    cases InsertionMaps.get d p with
    | none => rfl
    | some byConn => rfl
  unfold remove
  by_cases hd : d'=d
  · rw [hd]
    by_cases he : delete i ((InsertionMaps.get d p).getD [])=[]
    · rw [if_pos he,bufOf,get_delete,if_pos rfl,Option.bind_none]
      rw [he] at hget
      by_cases hi : i'=i
      · rw [if_pos ⟨rfl,hi⟩]
      · rw [if_neg hi] at hget
        rw [if_neg (fun h => hi h.2)]
        exact hget
    · rw [if_neg he,bufOf,get_set,if_pos rfl,Option.bind_some,hget]
      by_cases hi : i'=i
      · rw [if_pos hi,if_pos ⟨rfl,hi⟩]
      · rw [if_neg hi,if_neg (fun h => hi h.2)]
  · have hpair : ¬(d'=d ∧ i'=i) := fun h => hd h.1
    by_cases he : delete i ((InsertionMaps.get d p).getD [])=[]
    · rw [if_pos he,bufOf,get_delete,if_neg hd,if_neg hpair]
      rfl
    · rw [if_neg he,bufOf,get_set,if_neg hd,if_neg hpair]
      rfl

/-- The buffers of the connections are valid and apart from each other. -/
structure Layout (m : Memory) (p : List (Dsn × List (ℕ×View))) : Prop where
  valid : ∀ d i v,bufOf p d i=some v → v.Valid m
  apart : ∀ d i v d' i' v',bufOf p d i=some v → bufOf p d' i'=some v' →
    v.buffer=v'.buffer → d=d' ∧ i=i'
  byConns : ∀ e ∈ p,e.2≠[]

/-- The bytes that wait for a connection. -/
def bytesOf (m : Memory) (p : List (Dsn × List (ℕ×View))) (d : Dsn) (i : ℕ) : List UInt8 :=
  ((bufOf p d i).map (View.bytes m)).getD []

section Layouts

variable {m m' : Memory} {p : List (Dsn × List (ℕ×View))} {d : Dsn} {i : ℕ} {v v' : View}

/-- The maps of connections have connections after a buffer was set. -/
theorem byConns_put (h : ∀ e ∈ p,e.2≠[]) (d : Dsn) (i : ℕ) (v : View) :
    ∀ e ∈ put p d i v,e.2≠[] := by
  intro e he
  rcases mem_set he with rfl | he
  · exact set_ne_nil _ _ _
  · exact h e he

/-- The maps of connections have connections after a buffer was deleted. -/
theorem byConns_remove (h : ∀ e ∈ p,e.2≠[]) (d : Dsn) (i : ℕ) : ∀ e ∈ remove p d i,e.2≠[] := by
  intro e he
  unfold remove at he
  split at he
  · exact h e (mem_delete he)
  · rename_i hne
    rcases mem_set he with rfl | he
    · exact hne
    · exact h e he

/-- The buffer of a connection is replaced. -/
theorem Layout.replace (h : Layout m p) (hb : bufOf p d i=some v) (hr : Replaces m v m' v') :
    Layout m' (put p d i v') := by
  have hother : ∀ d' i' u,bufOf p d' i'=some u → ¬(d'=d ∧ i'=i) →
      u.Valid m' ∧ u.buffer≠v'.buffer := by
    intro d' i' u hu hne
    have hv := h.valid d' i' u hu
    have hbuf : u.buffer≠v.buffer := fun he => hne (h.apart d' i' u d i v hu hb he)
    refine ⟨⟨Nat.lt_of_lt_of_le hv.1 hr.grows,?_⟩,?_⟩
    · rw [hr.others _ hv.1 hbuf]
      exact hv.2
    · rcases hr.buffer with he | hge
      · rw [he]
        exact hbuf
      · exact Nat.ne_of_lt (Nat.lt_of_lt_of_le hv.1 hge)
  refine ⟨fun d' i' u hu => ?_,fun d₁ i₁ u₁ d₂ i₂ u₂ h₁ h₂ he => ?_,
    byConns_put h.byConns d i v'⟩
  · rw [bufOf_put] at hu
    split at hu
    · cases hu
      exact hr.valid
    · rename_i hne
      exact (hother d' i' u hu hne).1
  · rw [bufOf_put] at h₁ h₂
    split at h₁
    · rename_i hp₁
      cases h₁
      split at h₂
      · rename_i hp₂
        exact ⟨hp₁.1.trans hp₂.1.symm,hp₁.2.trans hp₂.2.symm⟩
      · rename_i hne
        exact absurd he.symm (hother d₂ i₂ u₂ h₂ hne).2
    · rename_i hne
      split at h₂
      · cases h₂
        exact absurd he (hother d₁ i₁ u₁ h₁ hne).2
      · exact h.apart d₁ i₁ u₁ d₂ i₂ u₂ h₁ h₂ he

/-- The bytes that wait for the other connections are the same. -/
theorem Layout.bytes_other (h : Layout m p) (hb : bufOf p d i=some v) (hr : Replaces m v m' v')
    {d' : Dsn} {i' : ℕ} (hne : ¬(d'=d ∧ i'=i)) :
    bytesOf m' (put p d i v') d' i'=bytesOf m p d' i' := by
  unfold bytesOf
  rw [bufOf_put,if_neg hne]
  cases hu : bufOf p d' i' with
  | none => rfl
  | some u =>
    have hbuf : u.buffer≠v.buffer := fun he => hne (h.apart d' i' u d i v hu hb he)
    exact View.bytes_congr (hr.others _ (h.valid d' i' u hu).1 hbuf)

/-- The bytes that wait for a connection are those of its buffer. -/
theorem bytesOf_put (m : Memory) (p : List (Dsn × List (ℕ×View))) (d : Dsn) (i : ℕ) (v : View) :
    bytesOf m (put p d i v) d i=v.bytes m := by
  unfold bytesOf
  rw [bufOf_put,if_pos ⟨rfl,rfl⟩]
  rfl

/-- A new buffer of a connection that has none. -/
theorem Layout.fresh (h : Layout m p) (buffer : List UInt8) (d : Dsn) (i : ℕ) :
    Layout (m++[buffer]) (put p d i ⟨m.length,0,0⟩) := by
  have hlt : m.length < (m++[buffer]).length := by
    rw [List.length_append]
    exact Nat.lt_add_one _
  refine ⟨fun d' i' u hu => ?_,fun d₁ i₁ u₁ d₂ i₂ u₂ h₁ h₂ he => ?_,
    byConns_put h.byConns d i _⟩
  · rw [bufOf_put] at hu
    split at hu
    · cases hu
      exact ⟨hlt,Nat.zero_le _⟩
    · exact valid_append (h.valid d' i' u hu) buffer
  · rw [bufOf_put] at h₁ h₂
    split at h₁
    · rename_i hp₁
      cases h₁
      split at h₂
      · rename_i hp₂
        exact ⟨hp₁.1.trans hp₂.1.symm,hp₁.2.trans hp₂.2.symm⟩
      · exact absurd he.symm (Nat.ne_of_lt (h.valid d₂ i₂ u₂ h₂).1)
    · split at h₂
      · cases h₂
        exact absurd he (Nat.ne_of_lt (h.valid d₁ i₁ u₁ h₁).1)
      · exact h.apart d₁ i₁ u₁ d₂ i₂ u₂ h₁ h₂ he

/-- The buffer of a connection is deleted. -/
theorem Layout.remove (h : Layout m p) (d : Dsn) (i : ℕ) :
    Layout m (SqlLogWriter.remove p d i) := by
  have hold : ∀ d' i' u,bufOf (SqlLogWriter.remove p d i) d' i'=some u → bufOf p d' i'=some u := by
    intro d' i' u hu
    rw [bufOf_remove] at hu
    split at hu
    · cases hu
    · exact hu
  exact ⟨fun d' i' u hu => h.valid d' i' u (hold d' i' u hu),
    fun d₁ i₁ u₁ d₂ i₂ u₂ h₁ h₂ he =>
      h.apart d₁ i₁ u₁ d₂ i₂ u₂ (hold _ _ _ h₁) (hold _ _ _ h₂) he,
    byConns_remove h.byConns d i⟩

end Layouts

/-- What was passed for a connection. -/
def passed (calls : List (Call Dsn)) (d : Dsn) (i : ℕ) : List UInt8 :=
  calls.flatMap (fun c => if c.dsn=d ∧ c.connectionId=i then c.data else [])

/-- The bytes of a chunk after the banner. -/
def Chunk.data (c : Chunk Dsn) : List UInt8 := c.bytes.drop (c.banner.getD []).length

/-- What the sink got for a connection, without the banners. -/
def written (chunks : List (Chunk Dsn)) (d : Dsn) (i : ℕ) : List UInt8 :=
  chunks.flatMap (fun c => if c.dsn=d ∧ c.connectionId=i then c.data else [])

/-- A banner is asked for exactly for the chunks that another connection follows with. -/
inductive Bannered (banners : Banners Dsn) : List (Chunk Dsn) → ℕ → Option (ℕ×Dsn) → Prop where
  | nil : Bannered banners [] 0 none
  | next {cs : List (Chunk Dsn)} {n : ℕ} {last : Option (ℕ×Dsn)} {c : Chunk Dsn}
    (h : Bannered banners cs n last) (hlast : last≠some (c.connectionId,c.dsn))
    (hbanner : c.banner=banners n c.dsn c.connectionId) :
    Bannered banners (cs++[c]) (n+1) (some (c.connectionId,c.dsn))
  | same {cs : List (Chunk Dsn)} {n : ℕ} {c : Chunk Dsn}
    (h : Bannered banners cs n (some (c.connectionId,c.dsn))) (hbanner : c.banner=none) :
    Bannered banners (cs++[c]) n (some (c.connectionId,c.dsn))

/-- What always holds of a logger whose sink did not fail. -/
structure Base (banners : Banners Dsn) (s : State Dsn) : Prop where
  layout : Layout s.memory s.pending
  nonempty : ∀ d i v,bufOf s.pending d i=some v → 0 < v.length
  promises : ∀ k < s.nPromises,k ∈ s.resolved ∨ k ∈ s.continueAfterFlush
  healthy : s.isBroken=false
  banners : Bannered banners s.chunks s.nBanners s.writerState
  begins : ∀ c ∈ s.chunks,∃ data≠[],c.bytes <+: c.banner.getD []++data

/-- All that was given to the sink is written. -/
structure Rest (banners : Banners Dsn) (s : State Dsn) : Prop extends Base banners s where
  accounts : ∀ d i,passed s.calls d i=written s.chunks d i++bytesOf s.memory s.pending d i

/-- The first connection of a map. -/
def First (p : List (Dsn × List (ℕ×View))) (d : Dsn) (i : ℕ) : Prop :=
  ∃ buf conns rest,p=(d,(i,buf)::conns)::rest

/-- All buffers start at the beginning. -/
def Fronts (p : List (Dsn × List (ℕ×View))) : Prop :=
  ∀ d i v,bufOf p d i=some v → v.byteOffset=0

/-- The sink reads what it was given, and this stays as it is. -/
structure InFlight (banners : Banners Dsn) (s : State Dsn) (w : Writing Dsn) : Prop extends
    Base banners s where
  fronts : Fronts s.pending
  first : First s.pending w.dsn w.connectionId
  valid : w.buf.Valid s.memory
  front : w.buf.byteOffset=0
  taken : w.taken ≤ w.buf.length
  starts : ∀ v,bufOf s.pending w.dsn w.connectionId=some v →
    w.buf.bytes s.memory <+: v.bytes s.memory
  apart : ∀ d i v,bufOf s.pending d i=some v → v.buffer=w.buf.buffer →
    d=w.dsn ∧ i=w.connectionId
  chunk : ∃ cs c,s.chunks=cs++[c] ∧ c.dsn=w.dsn ∧ c.connectionId=w.connectionId ∧
    c.bytes=(w.buf.bytes s.memory).take w.taken ∧
    (∃ data≠[],w.buf.bytes s.memory=c.banner.getD []++data) ∧
    ∀ d i,passed s.calls d i=written cs d i++(bytesOf s.memory s.pending d i).drop
      (if d=w.dsn ∧ i=w.connectionId then (c.banner.getD []).length else 0)

/-- Between two steps, the task waits for the sink, or there is none and nothing to be
written. -/
def Inv (banners : Banners Dsn) (s : State Dsn) : Prop :=
  match s.ongoing with
  | .none => Rest banners s ∧ s.pending=[] ∧ s.continueAfterFlush=[]
  | .writing w => InFlight banners s w
  | .spins => False

section Steps

variable {banners : Banners Dsn} {s : State Dsn} {d : Dsn} {i : ℕ}

/-- The first connection has a buffer. -/
theorem First.bufOf {p : List (Dsn × List (ℕ×View))} (h : First p d i) :
    ∃ v,bufOf p d i=some v := by
  obtain ⟨buf,conns,rest,rfl⟩ := h
  refine ⟨buf,?_⟩
  unfold SqlLogWriter.bufOf
  rw [get_head,Option.bind_some,get_head]

/-- The first connection stays the first when a buffer is set. -/
theorem First.put {p : List (Dsn × List (ℕ×View))} (h : First p d i) (d' : Dsn) (i' : ℕ)
    (v : View) : First (put p d' i' v) d i := by
  obtain ⟨buf,conns,rest,rfl⟩ := h
  unfold SqlLogWriter.put
  by_cases hd : d=d'
  · subst hd
    rw [get_head,Option.getD_some,set_head]
    by_cases hi : i=i'
    · subst hi
      rw [set_head]
      exact ⟨_,_,_,rfl⟩
    · rw [set_other hi]
      exact ⟨_,_,_,rfl⟩
  · rw [set_other hd]
    exact ⟨_,_,_,rfl⟩

/-- What was written with one chunk more. -/
theorem written_append (cs : List (Chunk Dsn)) (c : Chunk Dsn) (d : Dsn) (i : ℕ) :
    written (cs++[c]) d i=
      written cs d i++if c.dsn=d ∧ c.connectionId=i then c.data else [] := by
  unfold written
  rw [List.flatMap_append,List.flatMap_singleton]

/-- The bytes of a buffer that has some are not none. -/
theorem bytes_ne_nil {m : Memory} {v : View} (hv : v.Valid m) (h : 0 < v.length) :
    v.bytes m≠[] := by
  intro he
  have hl := hv.length_bytes
  rw [he] at hl
  exact Nat.ne_of_gt h hl.symm

/-- The buffer of the first connection is given to the sink. -/
theorem Rest.sendBuf (h : Rest banners s) (hfirst : First s.pending d i)
    (hfronts : ∀ d' i' v,bufOf s.pending d' i'=some v → ¬(d'=d ∧ i'=i) → v.byteOffset=0) :
    Inv banners (s.sendBuf banners d i) := by
  obtain ⟨v,hv⟩ := hfirst.bufOf
  have hbuf : s.buf? d i=some v := hv
  have hvalid := h.layout.valid d i v hv
  have hne := bytes_ne_nil hvalid (h.nonempty d i v hv)
  unfold State.sendBuf
  rw [hbuf]
  dsimp only
  generalize hn : decide (s.writerState≠some (i,d))=isNext
  generalize hb : (if isNext=true then banners s.nBanners d i else none)=banner
  obtain ⟨res,m',hrun,hr,hfront,hbytes⟩ := prepare_spec hvalid banner
  rw [hrun]
  dsimp only
  have hlength : 0 < res.length := by
    have hl := hr.valid.length_bytes
    have hl' := h.nonempty d i v hv
    rw [hbytes,List.length_append,hvalid.length_bytes] at hl
    omega
  have hlayout := h.layout.replace hv hr
  show InFlight banners _ ⟨d,i,res,0⟩
  refine {
    layout := hlayout
    nonempty := fun d' i' u hu => ?_
    promises := h.promises
    healthy := h.healthy
    banners := ?_
    begins := fun c hc => ?_
    fronts := fun d' i' u hu => ?_
    first := hfirst.put d i res
    valid := hr.valid
    front := hfront
    taken := Nat.zero_le _
    starts := fun u hu => ?_
    apart := fun d' i' u hu he => ?_
    chunk := ?_ }
  · change bufOf (put s.pending d i res) d' i'=some u at hu
    rw [bufOf_put] at hu
    split at hu
    · cases hu
      exact hlength
    · exact h.nonempty d' i' u hu
  · cases isNext with
    | true =>
      have hlast : s.writerState≠some (i,d) := of_decide_eq_true hn
      exact @Bannered.next _ banners s.chunks s.nBanners s.writerState ⟨d,i,banner,[]⟩ h.banners
        hlast hb.symm
    | false =>
      have hlast : s.writerState=some (i,d) := by simpa using hn
      have hs := h.banners
      rw [hlast] at hs
      exact @Bannered.same _ banners s.chunks s.nBanners ⟨d,i,banner,[]⟩ hs hb.symm
  · rcases List.mem_append.mp hc with hc | hc
    · exact h.begins c hc
    · rw [List.mem_singleton.mp hc]
      exact ⟨v.bytes s.memory,hne,List.nil_prefix⟩
  · change bufOf (put s.pending d i res) d' i'=some u at hu
    rw [bufOf_put] at hu
    split at hu
    · cases hu
      exact hfront
    · rename_i hne
      exact hfronts d' i' u hu hne
  · change bufOf (put s.pending d i res) d i=some u at hu
    rw [bufOf_put,if_pos ⟨rfl,rfl⟩] at hu
    cases hu
    exact List.prefix_rfl
  · have hself : bufOf (put s.pending d i res) d i=some res := by
      rw [bufOf_put,if_pos ⟨rfl,rfl⟩]
    exact hlayout.apart d' i' u d i res hu hself he
  · refine ⟨s.chunks,⟨d,i,banner,[]⟩,rfl,rfl,rfl,rfl,⟨v.bytes s.memory,hne,hbytes⟩,
      fun d' i' => ?_⟩
    refine (h.accounts d' i').trans ?_
    by_cases hp : d'=d ∧ i'=i
    · obtain ⟨rfl,rfl⟩ := hp
      have hold : bytesOf s.memory s.pending d' i'=v.bytes s.memory := by
        unfold bytesOf
        rw [hv]
        rfl
      have hnew : bytesOf m' (put s.pending d' i' res) d' i'=banner.getD []++v.bytes s.memory := by
        rw [bytesOf_put,hbytes]
      rw [hold,if_pos ⟨rfl,rfl⟩]
      show _=_++(bytesOf m' (put s.pending d' i' res) d' i').drop (banner.getD []).length
      rw [hnew,List.drop_left]
    · rw [if_neg hp,List.drop_zero]
      exact congrArg _ (h.layout.bytes_other hv hr hp).symm

/-- The callbacks resolve promises. -/
theorem Rest.callback (h : Rest banners s) : Rest banners s.callback where
  layout := h.layout
  nonempty := h.nonempty
  promises k hk := .inl (List.mem_append.mpr (h.promises k hk))
  healthy := h.healthy
  banners := h.banners
  begins := h.begins
  accounts := h.accounts

/-- The loop goes on with the first connection of the first map, or ends. -/
theorem Rest.doTask (h : Rest banners s) (hfronts : Fronts s.pending)  :
    Inv banners (s.doTask banners) := by
  obtain ⟨t,ht⟩ : ∃ t,t=if s.continueAfterFlush≠[] ∧ s.getMemory < MAX_BUFFER_SIZE ∨
    s.isBroken=true then s.callback else s := ⟨_,rfl⟩
  have hrest : Rest banners t := by
    rw [ht]
    split
    · exact h.callback
    · exact h
  have hpending : t.pending=s.pending := by
    rw [ht]
    split
    · rfl
    · rfl
  have hflushed : s.pending=[] → t.continueAfterFlush=[] := by
    intro hp
    have hmemory : s.getMemory=0 := by
      unfold State.getMemory
      rw [hp]
      rfl
    by_cases hc : s.continueAfterFlush=[]
    · rw [ht]
      split
      · rfl
      · exact hc
    · rw [ht,if_pos (.inl ⟨hc,by rw [hmemory]; decide⟩)]
      rfl
  unfold State.doTask
  rw [←ht]
  dsimp only
  rw [if_neg (by rw [hrest.healthy]; decide)]
  split
  · rename_i hp
    have hnil : s.pending=[] := by rw [←hpending,hp]
    show Rest banners {t with ongoing := .none} ∧ t.pending=[] ∧ t.continueAfterFlush=[]
    exact ⟨⟨⟨hrest.layout,hrest.nonempty,hrest.promises,hrest.healthy,hrest.banners,
      hrest.begins⟩,hrest.accounts⟩,hp,hflushed hnil⟩
  · rename_i d byConn rest hp
    have hne : byConn≠[] :=
      hrest.layout.byConns (d,byConn) (by rw [hp]; exact List.mem_cons_self)
    cases byConn with
    | nil => exact absurd rfl hne
    | cons c conns =>
      obtain ⟨i,v⟩ := c
      refine hrest.sendBuf ⟨v,conns,rest,hp⟩ (fun d' i' u hu _ => ?_)
      rw [hpending] at hu
      exact hfronts d' i' u hu

/-- The task goes on with the next connection of the map that was first. -/
theorem Rest.nextConn (h : Rest banners s) (hfronts : Fronts s.pending)
    (hfirst : ∀ byConn,InsertionMaps.get d s.pending=some byConn →
      ∃ rest,s.pending=(d,byConn)::rest) : Inv banners (s.nextConn banners d) := by
  unfold State.nextConn
  cases hg : InsertionMaps.get d s.pending with
  | none => exact h.doTask hfronts
  | some byConn =>
    obtain ⟨rest,hp⟩ := hfirst byConn hg
    have hne : byConn≠[] := h.layout.byConns (d,byConn) (by rw [hp]; exact List.mem_cons_self)
    dsimp only
    cases byConn with
    | nil => exact absurd rfl hne
    | cons c conns =>
      obtain ⟨i,v⟩ := c
      exact h.sendBuf ⟨v,conns,rest,hp⟩ (fun d' i' u hu _ => hfronts d' i' u hu)

/-- The map that was first still is after one of its buffers was deleted, or is deleted. -/
theorem First.remove {p : List (Dsn × List (ℕ×View))} (h : First p d i)
    {byConn : List (ℕ×View)} (hg : InsertionMaps.get d (remove p d i)=some byConn) :
    ∃ rest,SqlLogWriter.remove p d i=(d,byConn)::rest := by
  obtain ⟨buf,conns,rest,rfl⟩ := h
  unfold SqlLogWriter.remove at hg ⊢
  split at hg
  · rw [get_delete,if_pos rfl] at hg
    cases hg
  · rename_i hne
    rw [if_neg hne]
    rw [set_head,get_head] at hg
    cases hg
    rw [set_head]
    exact ⟨rest,rfl⟩

/-- The state without the buffer of a connection. -/
theorem deleteBuf_eq (s : State Dsn) (d : Dsn) (i : ℕ) :
    s.deleteBuf d i={s with pending := remove s.pending d i} := by
  unfold State.deleteBuf remove
  dsimp only
  split
  · rfl
  · rfl

/-- What still waits when the sink read all that it was given. -/
theorem InFlight.rest {w : Writing Dsn} (h : InFlight banners s w) (hall : w.taken=w.buf.length)
    {v : View} (hv : bufOf s.pending w.dsn w.connectionId=some v) :
    ∃ rest,v.bytes s.memory=w.buf.bytes s.memory++rest ∧
      ∀ d i,passed s.calls d i=written s.chunks d i++
        (if d=w.dsn ∧ i=w.connectionId then rest else bytesOf s.memory s.pending d i) := by
  obtain ⟨rest,hrest⟩ := h.starts v hv
  obtain ⟨cs,c,hcs,hd,hi,hbytes,⟨data,-,hdata⟩,haccounts⟩ := h.chunk
  have hwhole : c.bytes=c.banner.getD []++data := by
    rw [hbytes,hall,←h.valid.length_bytes,List.take_length,hdata]
  have hcdata : c.data=data := by rw [Chunk.data,hwhole,List.drop_left]
  refine ⟨rest,hrest.symm,fun d i => ?_⟩
  rw [haccounts d i,hcs,written_append,hd,hi,List.append_assoc]
  by_cases hp : d=w.dsn ∧ i=w.connectionId
  · obtain ⟨rfl,rfl⟩ := hp
    have hold : bytesOf s.memory s.pending w.dsn w.connectionId=v.bytes s.memory := by
      unfold bytesOf
      rw [hv]
      rfl
    simp only [and_self,if_true]
    rw [hold,←hrest,hdata,List.append_assoc,List.drop_left,hcdata]
  · have hp' : ¬(w.dsn=d ∧ w.connectionId=i) := fun he => hp ⟨he.1.symm,he.2.symm⟩
    rw [if_neg hp,if_neg hp,if_neg hp',List.drop_zero,List.nil_append]

/-- The task goes on after the sink wrote a buffer. -/
theorem InFlight.afterWrite {w : Writing Dsn} (h : InFlight banners s w)
    (hall : w.taken=w.buf.length) : Inv banners (s.afterWrite banners w) := by
  obtain ⟨v,hv⟩ := h.first.bufOf
  have hbuf : s.buf? w.dsn w.connectionId=some v := hv
  obtain ⟨rest,hrest,haccounts⟩ := h.rest hall hv
  have hvalid := h.layout.valid _ _ _ hv
  have hfront := h.fronts _ _ _ hv
  have hlength : v.length=w.buf.length+rest.length := by
    have hl := congrArg List.length hrest
    rw [List.length_append,hvalid.length_bytes,h.valid.length_bytes] at hl
    exact hl
  unfold State.afterWrite
  rw [hbuf]
  dsimp only
  by_cases he : w.buf.length=v.length
  · have hnil : rest=[] := List.eq_nil_of_length_eq_zero (by omega)
    rw [if_pos he,deleteBuf_eq]
    have hold : ∀ d i u,bufOf (remove s.pending w.dsn w.connectionId) d i=some u →
        bufOf s.pending d i=some u := by
      intro d i u hu
      rw [bufOf_remove] at hu
      split at hu
      · cases hu
      · exact hu
    have hr : Rest banners {s with pending := remove s.pending w.dsn w.connectionId} := {
      layout := h.layout.remove _ _
      nonempty := fun d i u hu => h.nonempty d i u (hold d i u hu)
      promises := h.promises
      healthy := h.healthy
      banners := h.banners
      begins := h.begins
      accounts := fun d i => by
        refine (haccounts d i).trans (congrArg _ ?_)
        unfold bytesOf
        rw [bufOf_remove]
        by_cases hp : d=w.dsn ∧ i=w.connectionId
        · rw [if_pos hp,if_pos hp,hnil]
          rfl
        · rw [if_neg hp,if_neg hp] }
    exact hr.nextConn (fun d i u hu => h.fronts d i u (hold d i u hu))
      (fun byConn hg => h.first.remove hg)
  · rw [if_neg he]
    have hsub : v.subarray w.buf.length v.length=
        ⟨v.buffer,w.buf.length,v.length-w.buf.length⟩ := by
      simp only [View.subarray,hfront,Nat.zero_add,Nat.min_self,
        Nat.min_eq_left (by omega : w.buf.length ≤ v.length)]
    have hvalid' : View.Valid s.memory ⟨v.buffer,w.buf.length,v.length-w.buf.length⟩ := by
      have hb := hvalid.2
      rw [hfront] at hb
      refine ⟨hvalid.1,?_⟩
      show w.buf.length+(v.length-w.buf.length) ≤ (content s.memory v.buffer).length
      omega
    have hbytes : View.bytes s.memory ⟨v.buffer,w.buf.length,v.length-w.buf.length⟩=rest := by
      have hd : (v.bytes s.memory).drop w.buf.length=rest := by
        rw [hrest,←h.valid.length_bytes,List.drop_left]
      rw [←hd,View.bytes,View.bytes,TypedArrays.read,TypedArrays.read,hfront,List.drop_zero,
        List.drop_take]
    have hreplaces : Replaces s.memory v s.memory
        ⟨v.buffer,w.buf.length,v.length-w.buf.length⟩ :=
      ⟨hvalid',.inl rfl,fun _ _ _ => rfl,Nat.le_refl _⟩
    rw [hsub]
    have hr : Rest banners (s.setBuf w.dsn w.connectionId
        ⟨v.buffer,w.buf.length,v.length-w.buf.length⟩) := {
      layout := h.layout.replace hv hreplaces
      nonempty := fun d i u hu => by
        change bufOf (put s.pending w.dsn w.connectionId _) d i=some u at hu
        rw [bufOf_put] at hu
        split at hu
        · cases hu
          show 0 < v.length-w.buf.length
          omega
        · exact h.nonempty d i u hu
      promises := h.promises
      healthy := h.healthy
      banners := h.banners
      begins := h.begins
      accounts := fun d i => by
        refine (haccounts d i).trans (congrArg _ ?_)
        by_cases hp : d=w.dsn ∧ i=w.connectionId
        · obtain ⟨rfl,rfl⟩ := hp
          rw [if_pos ⟨rfl,rfl⟩]
          exact hbytes.symm.trans (bytesOf_put _ _ _ _ _).symm
        · rw [if_neg hp]
          exact (h.layout.bytes_other hv hreplaces hp).symm }
    refine hr.sendBuf (h.first.put _ _ _) (fun d i u hu hne => ?_)
    change bufOf (put s.pending w.dsn w.connectionId _) d i=some u at hu
    rw [bufOf_put,if_neg hne] at hu
    exact h.fronts d i u hu

/-- Data were appended to the bytes that wait for a connection. -/
structure Extended (m : Memory) (p : List (Dsn × List (ℕ×View))) (m' : Memory)
    (p' : List (Dsn × List (ℕ×View))) (d : Dsn) (i : ℕ) (data : List UInt8) : Prop where
  layout : Layout m' p'
  fronts : Fronts p'
  others : ∀ d' i',¬(d'=d ∧ i'=i) → bufOf p' d' i'=bufOf p d' i'
  first : ∀ d' i',First p d' i' → First p' d' i'
  bytes : ∀ d' i',bytesOf m' p' d' i'=
    bytesOf m p d' i'++if d'=d ∧ i'=i then data else []
  /-- Arrays that end where the buffer ended or before have the same bytes. -/
  kept : ∀ u : View,u.Valid m →
    (∀ v,bufOf p d i=some v → u.buffer=v.buffer → u.byteOffset+u.length ≤ v.length) →
    u.Valid m' ∧ u.bytes m'=u.bytes m
  /-- A buffer that was there is not taken for another connection. -/
  apart : ∀ u : View,u.Valid m → ∀ d' i' v',bufOf p' d' i'=some v' → v'.buffer=u.buffer →
    ∃ v,bufOf p d' i'=some v ∧ v.buffer=u.buffer

/-- Data are appended to the buffer of a connection. -/
theorem Layout.extend {m : Memory} {p : List (Dsn × List (ℕ×View))} (h : Layout m p)
    (hfronts : Fronts p) {v : View} (hv : bufOf p d i=some v) {data : List UInt8}
    (hdata : HasCapacity m v data) :
    ∃ res m',(do
        let data ← ofBytes data
        reallocAppend v data true : Op View) m=.done res m' ∧
      res.length=v.length+data.length ∧ Extended m p m' (put p d i res) d i data := by
  obtain ⟨res,m',hrun,hr,hfront,hbytes,hlength,hkept⟩ :=
    append_data (h.valid d i v hv) (hfronts d i v hv) hdata
  refine ⟨res,m',hrun,hlength,{
    layout := h.replace hv hr
    fronts := fun d' i' u hu => ?_
    others := fun d' i' hne => by rw [bufOf_put,if_neg hne]
    first := fun d' i' hf => hf.put d i res
    bytes := fun d' i' => ?_
    kept := fun u hu he => ?_
    apart := fun u hu d' i' v' hv' he => ?_}⟩
  · rw [bufOf_put] at hu
    split at hu
    · cases hu
      exact hfront
    · exact hfronts d' i' u hu
  · by_cases hp : d'=d ∧ i'=i
    · obtain ⟨rfl,rfl⟩ := hp
      rw [bytesOf_put,hbytes,if_pos ⟨rfl,rfl⟩]
      unfold bytesOf
      rw [hv]
      rfl
    · rw [h.bytes_other hv hr hp,if_neg hp,List.append_nil]
  · exact hkept u hu (he v hv)
  · rw [bufOf_put] at hv'
    split at hv'
    · rename_i hp
      obtain ⟨rfl,rfl⟩ := hp
      cases hv'
      rcases hr.buffer with hb | hb
      · exact ⟨v,hv,hb.symm.trans he⟩
      · have hlt := hu.1
        omega
    · exact ⟨v',hv',he⟩

end Steps

end SpiritMysql.SqlLogWriter
