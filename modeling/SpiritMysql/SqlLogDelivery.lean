import SpiritMysql.SqlLogRun

/-!
# What the SQL log delivers

A call of `write()` adds to what waits for its connection, and the sink reads what it was
given. In a run where each buffer can take the data that are appended to it, the sink gets
for each connection what was passed for it.
-/

namespace SpiritMysql.SqlLogWriter

open AsyncAction TypedArrays ReallocAppend InsertionMaps EventSystem

variable {Dsn : Type} [DecidableEq Dsn]

section Appending

variable {m : Memory} {p : List (Dsn × List (ℕ×View))} {d : Dsn} {i : ℕ}

/-- Data are appended to the new buffer of a connection that had none. -/
theorem Layout.extendNew (h : Layout m p) (hfronts : Fronts p) (hv : bufOf p d i=none)
    (data : List UInt8) :
    ∃ res m',(do
        let data ← ofBytes data
        reallocAppend ⟨m.length,0,0⟩ data true : Op View) (m++[List.replicate (8*1024) 0])=
          .done res m' ∧
      res.length=data.length ∧
      Extended m p m' (put (put p d i ⟨m.length,0,0⟩) d i res) d i data := by
  have hfresh := h.fresh (List.replicate (8*1024) 0) d i
  have hfronts' : Fronts (put p d i ⟨m.length,0,0⟩) := by
    intro d' i' u hu
    rw [bufOf_put] at hu
    split at hu
    · cases hu
      rfl
    · exact hfronts d' i' u hu
  have hself : bufOf (put p d i ⟨m.length,0,0⟩) d i=some ⟨m.length,0,0⟩ := by
    rw [bufOf_put,if_pos ⟨rfl,rfl⟩]
  have hcap : HasCapacity (m++[List.replicate (8*1024) 0]) ⟨m.length,0,0⟩ data := by
    refine .inr (.inr ?_)
    show 0%2^32 < 2^31
    decide
  obtain ⟨res,m',hrun,hlength,hx⟩ := hfresh.extend hfronts' hself hcap
  refine ⟨res,m',hrun,by rw [hlength]; exact Nat.zero_add _,{
    layout := hx.layout
    fronts := hx.fronts
    others := fun d' i' hne => ?_
    first := fun d' i' hf => hx.first d' i' (hf.put d i _)
    bytes := fun d' i' => ?_
    kept := fun u hu _ => ?_
    apart := fun u hu d' i' v' hv' he => ?_}⟩
  · rw [hx.others d' i' hne,bufOf_put,if_neg hne]
  · rw [hx.bytes d' i']
    refine congrArg (·++_) ?_
    unfold bytesOf
    rw [bufOf_put]
    by_cases hp : d'=d ∧ i'=i
    · rw [if_pos hp,hp.1,hp.2,hv]
      rfl
    · rw [if_neg hp]
      cases hu : bufOf p d' i' with
      | none => rfl
      | some u => exact View.bytes_congr (content_append (h.valid d' i' u hu).1 _)
  · have hu' := valid_append hu (List.replicate (8*1024) 0)
    have hkept := hx.kept u hu' (fun v hv he => by
      rw [hself] at hv
      cases hv
      exact absurd he (Nat.ne_of_lt hu.1))
    exact ⟨hkept.1,hkept.2.trans (View.bytes_congr (content_append hu.1 _))⟩
  · obtain ⟨v,hv,he⟩ := hx.apart u (valid_append hu _) d' i' v' hv' he
    rw [bufOf_put] at hv
    split at hv
    · cases hv
      exact absurd he (Nat.ne_of_gt hu.1)
    · exact ⟨v,hv,he⟩

/-- Data are appended to what waits for a connection. -/
theorem obtain_extended {s : State Dsn} (h : Layout s.memory s.pending)
    (hfronts : Fronts s.pending) {data : List UInt8}
    (hdata : ∀ v,bufOf s.pending d i=some v → HasCapacity s.memory v data) :
    ∃ res m',(do
        let data ← ofBytes data
        reallocAppend (s.obtain d i).1 data true : Op View) (s.obtain d i).2.memory=
          .done res m' ∧
      data.length ≤ res.length ∧
      Extended s.memory s.pending m' (put (s.obtain d i).2.pending d i res) d i data := by
  cases hv : s.buf? d i with
  | some v =>
    have ho : s.obtain d i=(v,s) := by
      unfold State.obtain
      rw [hv]
    obtain ⟨res,m',hrun,hlength,hx⟩ := h.extend hfronts hv (hdata v hv)
    rw [ho]
    exact ⟨res,m',hrun,by rw [hlength]; exact Nat.le_add_left _ _,hx⟩
  | none =>
    have ho : s.obtain d i=(⟨s.memory.length,0,0⟩,State.setBuf
        {s with memory := s.memory++[List.replicate (8*1024) 0]} d i ⟨s.memory.length,0,0⟩) := by
      unfold State.obtain
      rw [hv]
    obtain ⟨res,m',hrun,hlength,hx⟩ := h.extendNew hfronts hv data
    rw [ho]
    exact ⟨res,m',hrun,Nat.le_of_eq hlength.symm,hx⟩

/-- All but the memory and the buffers is the same when a buffer is obtained. -/
theorem obtain_eq (s : State Dsn) (d : Dsn) (i : ℕ) :
    ∃ m p,(s.obtain d i).2={s with memory := m, pending := p} := by
  unfold State.obtain
  cases s.buf? d i with
  | some v => exact ⟨s.memory,s.pending,rfl⟩
  | none => exact ⟨_,_,rfl⟩

end Appending

section Delivery

variable {banners : Banners Dsn} {s : State Dsn} {d : Dsn} {i : ℕ}

/-- What was passed with one call more. -/
theorem passed_append (calls : List (Call Dsn)) (c : Call Dsn) (d : Dsn) (i : ℕ) :
    passed (calls++[c]) d i=
      passed calls d i++if c.dsn=d ∧ c.connectionId=i then c.data else [] := by
  unfold passed
  rw [List.flatMap_append,List.flatMap_singleton]

/-- What always holds does not depend on the calls, on the task and on whether the logger is
shut down. -/
theorem Base.other (h : Base banners s) (calls : List (Call Dsn)) (ongoing : Task Dsn)
    (disposed : Bool) :
    Base banners {s with calls := calls, ongoing := ongoing, isDisposed := disposed} :=
  ⟨h.layout,h.nonempty,h.promises,h.healthy,h.banners,h.begins⟩

/-- A promise is returned. -/
theorem Inv.promise (h : Inv banners s) {n : ℕ} {resolved waiting : List ℕ}
    (hall : ∀ k < n,k ∈ resolved ∨ k ∈ waiting) (hnone : s.pending=[] → waiting=[]) :
    Inv banners {s with
      nPromises := n, resolved := resolved, continueAfterFlush := waiting} := by
  unfold Inv at h ⊢
  dsimp only
  split at h
  · rename_i ho
    rw [ho]
    obtain ⟨hrest,hp,-⟩ := h
    exact ⟨⟨⟨hrest.layout,hrest.nonempty,hall,hrest.healthy,hrest.banners,hrest.begins⟩,
      hrest.accounts⟩,hp,hnone hp⟩
  · rename_i w ho
    rw [ho]
    exact ⟨⟨h.layout,h.nonempty,hall,h.healthy,h.banners,h.begins⟩,h.fronts,h.first,h.valid,
      h.front,h.taken,h.starts,h.apart,h.chunk⟩
  · exact absurd h not_false

/-- What always holds, between two steps. -/
theorem Inv.base (h : Inv banners s) : Base banners s := by
  unfold Inv at h
  split at h
  · exact h.1.toBase
  · exact h.toBase
  · exact absurd h not_false

/-- All buffers start at the beginning, between two steps. -/
theorem Inv.fronts (h : Inv banners s) : Fronts s.pending := by
  unfold Inv at h
  split at h
  · intro d i v hv
    rw [h.2.1] at hv
    cases hv
  · exact h.fronts
  · exact absurd h not_false

/-- No promise waits when there is nothing to be written. -/
theorem Inv.waiting (h : Inv banners s) (hp : s.pending=[]) : s.continueAfterFlush=[] := by
  unfold Inv at h
  split at h
  · exact h.2.2
  · obtain ⟨buf,conns,rest,hf⟩ := h.first
    rw [hp] at hf
    cases hf
  · exact absurd h not_false

/-- A promise that is resolved is returned. -/
theorem Inv.resolve (h : Inv banners s) : Inv banners s.resolve := by
  refine h.promise (fun k hk => ?_) h.waiting
  rcases Nat.lt_succ_iff_lt_or_eq.mp hk with hlt | rfl
  · rcases h.base.promises k hlt with hr | hw
    · exact .inl (List.mem_append_left _ hr)
    · exact .inr hw
  · exact .inl (List.mem_append_right _ List.mem_cons_self)

/-- The promise that `write()` returns. -/
theorem Inv.answer (h : Inv banners s) : Inv banners s.answer := by
  unfold State.answer
  by_cases hm : s.getMemory < MAX_BUFFER_SIZE
  · rw [if_pos hm]
    exact h.resolve
  rw [if_neg hm]
  refine h.promise (fun k hk => ?_) (fun hp => ?_)
  · rcases Nat.lt_succ_iff_lt_or_eq.mp hk with hlt | rfl
    · rcases h.base.promises k hlt with hr | hw
      · exact .inl hr
      · exact .inr (List.mem_append_left _ hw)
    · exact .inr (List.mem_append_right _ List.mem_cons_self)
  · have hzero : s.getMemory=0 := by
      unfold State.getMemory
      rw [hp]
      rfl
    rw [hzero] at hm
    exact absurd (by decide) hm

/-- A call that passes no bytes. -/
theorem Inv.call (h : Inv banners s) (d : Dsn) (i : ℕ) :
    Inv banners {s with calls := s.calls++[⟨d,i,[]⟩]} := by
  have hpassed : ∀ d' i',passed (s.calls++[⟨d,i,[]⟩]) d' i'=passed s.calls d' i' := by
    intro d' i'
    rw [passed_append]
    split
    · exact List.append_nil _
    · exact List.append_nil _
  unfold Inv at h ⊢
  dsimp only
  split at h
  · rename_i ho
    rw [ho]
    obtain ⟨hrest,hp,hw⟩ := h
    exact ⟨⟨hrest.toBase.other _ _ _,
      fun d' i' => (hpassed d' i').trans (hrest.accounts d' i')⟩,hp,hw⟩
  · rename_i w ho
    rw [ho]
    obtain ⟨cs,c,hcs,hd,hi,hbytes,hdata,haccounts⟩ := h.chunk
    exact ⟨h.toBase.other _ _ _,h.fronts,h.first,h.valid,h.front,h.taken,h.starts,h.apart,
      cs,c,hcs,hd,hi,hbytes,hdata,fun d' i' => (hpassed d' i').trans (haccounts d' i')⟩
  · exact absurd h not_false

/-- The logger is shut down. -/
theorem Inv.dispose (h : Inv banners s) : Inv banners {s with isDisposed := true} := by
  unfold Inv at h ⊢
  dsimp only
  split at h
  · rename_i ho
    rw [ho]
    exact ⟨⟨h.1.toBase.other _ _ _,h.1.accounts⟩,h.2⟩
  · rename_i w ho
    rw [ho]
    exact ⟨h.toBase.other _ _ _,h.fronts,h.first,h.valid,h.front,h.taken,h.starts,h.apart,
      h.chunk⟩
  · exact absurd h not_false

section Extending

variable {m : Memory} {p : List (Dsn × List (ℕ×View))} {data : List UInt8}

/-- What always holds after data were appended. -/
theorem Base.extend (h : Base banners s) (hx : Extended s.memory s.pending m p d i data)
    (hpos : ∀ v,bufOf p d i=some v → 0 < v.length) :
    Base banners {s with memory := m, pending := p, calls := s.calls++[⟨d,i,data⟩]} where
  layout := hx.layout
  nonempty d' i' u hu := by
    by_cases hp : d'=d ∧ i'=i
    · obtain ⟨rfl,rfl⟩ := hp
      exact hpos u hu
    · exact h.nonempty d' i' u ((hx.others d' i' hp).symm.trans hu)
  promises := h.promises
  healthy := h.healthy
  banners := h.banners
  begins := h.begins

/-- What was passed after data were appended. -/
theorem passed_extend (calls : List (Call Dsn)) (d d' : Dsn) (i i' : ℕ) (data : List UInt8) :
    passed (calls++[⟨d,i,data⟩]) d' i'=
      passed calls d' i'++if d'=d ∧ i'=i then data else [] := by
  rw [passed_append]
  refine congrArg _ (if_congr ?_ rfl rfl)
  exact and_congr eq_comm eq_comm

/-- Data are appended while nothing is given to the sink. -/
theorem Rest.extend (h : Rest banners s) (hx : Extended s.memory s.pending m p d i data)
    (hpos : ∀ v,bufOf p d i=some v → 0 < v.length) :
    Rest banners {s with memory := m, pending := p, calls := s.calls++[⟨d,i,data⟩]} where
  toBase := h.toBase.extend hx hpos
  accounts d' i' := by
    refine (passed_extend _ _ _ _ _ _).trans ?_
    rw [h.accounts d' i',List.append_assoc,hx.bytes d' i']

/-- Data are appended while the sink reads a buffer. -/
theorem InFlight.extend {w : Writing Dsn} (h : InFlight banners s w)
    (hx : Extended s.memory s.pending m p d i data)
    (hpos : ∀ v,bufOf p d i=some v → 0 < v.length) :
    InFlight banners {s with memory := m, pending := p, calls := s.calls++[⟨d,i,data⟩]} w := by
  obtain ⟨v,hv⟩ := h.first.bufOf
  have hold : bytesOf s.memory s.pending w.dsn w.connectionId=v.bytes s.memory := by
    unfold bytesOf
    rw [hv]
    rfl
  have hstarts := h.starts v hv
  have hvalid := h.layout.valid _ _ _ hv
  have hlength : w.buf.length ≤ v.length := by
    have hle := hstarts.length_le
    rw [h.valid.length_bytes,hvalid.length_bytes] at hle
    exact hle
  obtain ⟨hvalid',hbytes⟩ := hx.kept w.buf h.valid (fun u hu he => by
    obtain ⟨rfl,rfl⟩ := h.apart d i u hu he.symm
    cases hv.symm.trans hu
    rw [h.front,Nat.zero_add]
    exact hlength)
  refine {
    toBase := h.toBase.extend hx hpos
    fronts := hx.fronts
    first := hx.first _ _ h.first
    valid := hvalid'
    front := h.front
    taken := h.taken
    starts := fun u hu => ?_
    apart := fun d' i' u hu he => ?_
    chunk := ?_ }
  · have hnew : bytesOf m p w.dsn w.connectionId=u.bytes m := by
      unfold bytesOf
      change bufOf p w.dsn w.connectionId=some u at hu
      rw [hu]
      rfl
    show w.buf.bytes m <+: u.bytes m
    rw [hbytes,←hnew,hx.bytes,hold]
    exact hstarts.trans (List.prefix_append _ _)
  · obtain ⟨u',hu',he'⟩ := hx.apart w.buf h.valid d' i' u hu he
    exact h.apart d' i' u' hu' he'
  · obtain ⟨cs,c,hcs,hd,hi,htaken,⟨rest,hne,hrest⟩,haccounts⟩ := h.chunk
    refine ⟨cs,c,hcs,hd,hi,?_,⟨rest,hne,?_⟩,fun d' i' => ?_⟩
    · show c.bytes=(w.buf.bytes m).take w.taken
      rw [hbytes]
      exact htaken
    · show w.buf.bytes m=_
      rw [hbytes]
      exact hrest
    · have hle : (if d'=w.dsn ∧ i'=w.connectionId then (c.banner.getD []).length else 0) ≤
          (bytesOf s.memory s.pending d' i').length := by
        split
        · rename_i hp
          obtain ⟨rfl,rfl⟩ := hp
          rw [hold]
          refine Nat.le_trans ?_ hstarts.length_le
          rw [hrest,List.length_append]
          exact Nat.le_add_right _ _
        · exact Nat.zero_le _
      refine (passed_extend _ _ _ _ _ _).trans ?_
      show _=written cs d' i'++(bytesOf m p d' i').drop _
      rw [haccounts d' i',hx.bytes d' i',List.drop_append_of_le_length hle,List.append_assoc]

end Extending

/-- The task is begun. -/
theorem Rest.ensureTask (h : Rest banners s) (hfronts : Fronts s.pending)
    (ho : s.ongoing=.none) : Inv banners (s.ensureTask banners) := by
  unfold State.ensureTask
  rw [ho]
  exact h.doTask hfronts

/-- The task goes on. -/
theorem InFlight.ensureTask {w : Writing Dsn} (h : InFlight banners s w)
    (ho : s.ongoing=.writing w) : Inv banners (s.ensureTask banners) := by
  unfold State.ensureTask Inv
  rw [ho]
  dsimp only
  rw [ho]
  exact h

/-- `write()`, when the buffer of the connection can take the data. -/
theorem Inv.write (h : Inv banners s) {data : List UInt8}
    (hdata : ∀ v,bufOf s.pending d i=some v → HasCapacity s.memory v data) :
    Inv banners (s.write banners d i data) := by
  unfold State.write
  by_cases hdisposed : s.isDisposed=true
  · rw [if_pos hdisposed]
    exact h
  rw [if_neg hdisposed,if_neg (by rw [h.base.healthy]; decide)]
  by_cases hnil : data=[]
  · rw [if_pos hnil,hnil]
    exact (h.call d i).resolve
  rw [if_neg hnil]
  obtain ⟨res,m,hrun,hlength,hx⟩ := obtain_extended h.base.layout h.fronts hdata
  obtain ⟨m',p',hobtain⟩ := obtain_eq s d i
  generalize hp : put (s.obtain d i).2.pending d i res=p at hx
  have hset : State.setBuf {(s.obtain d i).2 with
      memory := m, calls := (s.obtain d i).2.calls++[⟨d,i,data⟩]} d i res=
        {s with memory := m, pending := p, calls := s.calls++[⟨d,i,data⟩]} := by
    rw [←hp,hobtain]
    rfl
  have hpos : ∀ v,bufOf p d i=some v → 0 < v.length := by
    intro v hv
    rw [←hp,bufOf_put,if_pos ⟨rfl,rfl⟩] at hv
    cases hv
    exact Nat.lt_of_lt_of_le (List.length_pos_of_ne_nil hnil) hlength
  dsimp only
  rw [hrun]
  dsimp only
  rw [hset]
  refine Inv.answer ?_
  unfold Inv at h
  split at h
  · rename_i ho
    exact (h.1.extend hx hpos).ensureTask hx.fronts ho
  · rename_i w ho
    exact (h.extend hx hpos).ensureTask ho
  · exact absurd h not_false

/-- The last chunk has other bytes. -/
theorem Bannered.last {cs : List (Chunk Dsn)} {c : Chunk Dsn} {n : ℕ} {last : Option (ℕ×Dsn)}
    (h : Bannered banners (cs++[c]) n last) (bytes : List UInt8) :
    Bannered banners (cs++[{c with bytes := bytes}]) n last := by
  generalize hl : cs++[c]=l at h
  cases h with
  | nil => exact absurd hl (List.append_ne_nil_of_right_ne_nil _ (List.cons_ne_nil _ _))
  | next h hlast hbanner =>
    obtain ⟨rfl,hc⟩ := List.append_inj' hl rfl
    cases hc
    exact @Bannered.next _ banners cs _ _ {c with bytes := bytes} h hlast hbanner
  | same h hbanner =>
    obtain ⟨rfl,hc⟩ := List.append_inj' hl rfl
    cases hc
    exact @Bannered.same _ banners cs _ {c with bytes := bytes} h hbanner

/-- More bytes of an array that starts at the beginning of its buffer. -/
theorem take_more {m : Memory} {buf : View} (hfront : buf.byteOffset=0) {n count : ℕ}
    (h : n+count ≤ buf.length) :
    (buf.bytes m).take n++read (buf.byteOffset+n) count (content m buf.buffer)=
      (buf.bytes m).take (n+count) := by
  have hread : read (buf.byteOffset+n) count (content m buf.buffer)=
      ((buf.bytes m).drop n).take count := by
    rw [View.bytes,hfront,Nat.zero_add,TypedArrays.read,TypedArrays.read,List.drop_zero,
      List.drop_take,List.take_take,Nat.min_eq_left (by omega)]
  rw [hread,List.take_add]

/-- The sink reads bytes of the buffer that it was given. -/
theorem InFlight.take {w : Writing Dsn} (h : InFlight banners s w) {count : ℕ}
    (hcount : w.taken+count ≤ w.buf.length) : Inv banners (s.take w count) := by
  obtain ⟨cs,c,hcs,hd,hi,hbytes,hdata,haccounts⟩ := h.chunk
  have hmore : c.bytes++read (w.buf.byteOffset+w.taken) count (content s.memory w.buf.buffer)=
      (w.buf.bytes s.memory).take (w.taken+count) := by
    rw [hbytes]
    exact take_more h.front hcount
  have hchunks : (s.take w count).chunks=
      cs++[{c with bytes := (w.buf.bytes s.memory).take (w.taken+count)}] := by
    show s.chunks.modifyLast _=_
    rw [hcs,List.modifyLast_concat,hmore]
  have hbanners := h.banners
  rw [hcs] at hbanners
  show InFlight banners (s.take w count) {w with taken := w.taken+count}
  refine {
    layout := h.layout
    nonempty := h.nonempty
    promises := h.promises
    healthy := h.healthy
    banners := ?_
    begins := fun c' hc' => ?_
    fronts := h.fronts
    first := h.first
    valid := h.valid
    front := h.front
    taken := hcount
    starts := h.starts
    apart := h.apart
    chunk := ⟨cs,_,hchunks,hd,hi,rfl,hdata,haccounts⟩ }
  · rw [hchunks]
    exact hbanners.last _
  · rw [hchunks] at hc'
    rcases List.mem_append.mp hc' with hc' | hc'
    · exact h.begins c' (by rw [hcs]; exact List.mem_append_left _ hc')
    · rw [List.mem_singleton.mp hc']
      obtain ⟨data,hne,hdata⟩ := hdata
      refine ⟨data,hne,?_⟩
      show (w.buf.bytes s.memory).take (w.taken+count) <+: c.banner.getD []++data
      rw [←hdata]
      exact List.take_prefix _ _

/-- If a step goes as it should: the sink does not fail, and the buffer of a connection can
take the data that are appended to it. -/
def CanTake (s : State Dsn) : Event Dsn → Prop
  | .write dsn connectionId data =>
    ∀ buf ∈ s.buf? dsn connectionId,HasCapacity s.memory buf data
  | .fails => False
  | _ => True

instance (s : State Dsn) : (e : Event Dsn) → Decidable (CanTake s e)
  | .write dsn connectionId data =>
    inferInstanceAs (Decidable (∀ buf ∈ s.buf? dsn connectionId,HasCapacity s.memory buf data))
  | .take _ => isTrue trivial
  | .written => isTrue trivial
  | .fails => isFalse not_false
  | .dispose => isTrue trivial

/-- What each event preserves. -/
theorem Inv.step {s' : State Dsn} {e : Event Dsn} (h : Inv banners s) (he : CanTake s e)
    (hs : s.step banners e=some s') : Inv banners s' := by
  cases e with
  | write dsn connectionId data =>
    cases hs
    exact h.write he
  | take count =>
    dsimp only [State.step] at hs
    unfold Inv at h
    split at hs
    · rename_i w ho
      rw [ho] at h
      split at hs
      · rename_i hcount
        cases hs
        exact InFlight.take h hcount
      · cases hs
    · cases hs
  | written =>
    dsimp only [State.step] at hs
    unfold Inv at h
    split at hs
    · rename_i w ho
      rw [ho] at h
      split at hs
      · rename_i hall
        cases hs
        exact InFlight.afterWrite h hall
      · cases hs
    · cases hs
  | fails => exact absurd he not_false
  | dispose =>
    cases hs
    exact h.dispose

/-- Nothing happened. -/
theorem Inv.begins (banners : Banners Dsn) : Inv banners ({} : State Dsn) := by
  have hnone : ∀ d i v,bufOf ([] : List (Dsn × List (ℕ×View))) d i≠some v := by
    intro d i v hv
    cases hv
  refine ⟨⟨⟨⟨fun d i v hv => absurd hv (hnone d i v),fun d i v _ _ _ hv => absurd hv (hnone d i v),
    fun e he => absurd he List.not_mem_nil⟩,fun d i v hv => absurd hv (hnone d i v),
    fun k hk => absurd hk (Nat.not_lt_zero k),rfl,.nil,
    fun c hc => absurd hc List.not_mem_nil⟩,fun d i => rfl⟩,rfl,rfl⟩

/-- A beginning of a list, and the list itself, without their first elements. -/
theorem drop_prefix {bytes whole : List UInt8} (h : bytes <+: whole) (n : ℕ) :
    bytes.drop n <+: whole.drop n := by
  obtain ⟨rest,rfl⟩ := h
  rw [List.drop_append]
  exact List.prefix_append _ _

/-- What the sink got is what was passed. -/
structure Faithful (banners : Banners Dsn) (s : State Dsn) : Prop where
  /-- For each connection the sink got a beginning of what was passed, in the same order. -/
  order : ∀ d i,written s.chunks d i <+: passed s.calls d i
  /-- When the task ended, the sink got all that was passed. -/
  complete : s.ongoing=.none → ∀ d i,written s.chunks d i=passed s.calls d i
  /-- Where another connection follows, there is the banner that was given for it. -/
  bannered : Bannered banners s.chunks s.nBanners s.writerState
  /-- The banner is in front of the bytes of a connection. -/
  begins : ∀ c ∈ s.chunks,∃ data≠[],c.bytes <+: c.banner.getD []++data
  /-- When the task ended, all promises are resolved. -/
  resolved : s.ongoing=.none → ∀ k < s.nPromises,k ∈ s.resolved

/-- Between two steps, the sink got what was passed. -/
theorem Inv.faithful (h : Inv banners s) : Faithful banners s := by
  refine ⟨fun d i => ?_,fun ho d i => ?_,h.base.banners,h.base.begins,fun ho k hk => ?_⟩
  · unfold Inv at h
    split at h
    · rw [h.1.accounts d i]
      exact List.prefix_append _ _
    · rename_i w ho
      obtain ⟨cs,c,hcs,hd,hi,hbytes,-,haccounts⟩ := h.chunk
      obtain ⟨v,hv⟩ := h.first.bufOf
      rw [haccounts d i,hcs,written_append,hd,hi]
      refine (List.prefix_append_right_inj _).mpr ?_
      by_cases hp : w.dsn=d ∧ w.connectionId=i
      · obtain ⟨rfl,rfl⟩ := hp
        have hold : bytesOf s.memory s.pending w.dsn w.connectionId=v.bytes s.memory := by
          unfold bytesOf
          rw [hv]
          rfl
        rw [if_pos ⟨rfl,rfl⟩,if_pos ⟨rfl,rfl⟩,hold,Chunk.data,hbytes]
        exact drop_prefix ((List.take_prefix _ _).trans (h.starts v hv)) _
      · rw [if_neg hp]
        exact List.nil_prefix
    · exact absurd h not_false
  · unfold Inv at h
    rw [ho] at h
    obtain ⟨hrest,hp,-⟩ := h
    have hnil : bytesOf s.memory s.pending d i=[] := by
      rw [hp]
      rfl
    rw [hrest.accounts d i,hnil,List.append_nil]
  · unfold Inv at h
    rw [ho] at h
    obtain ⟨hrest,-,hw⟩ := h
    rcases hrest.promises k hk with hr | hr
    · exact hr
    · rw [hw] at hr
      cases hr

/-- Data that the buffer of the connection cannot take are lost. -/
theorem write_thrown {buf : View} {data : List UInt8} (hdisposed : s.isDisposed=false)
    (hbroken : s.isBroken=false) (hbuf : s.buf? d i=some buf) (hvalid : buf.Valid s.memory)
    (hdata : ¬HasCapacity s.memory buf data) :
    ∃ m,s.write banners d i data={s with memory := m, calls := s.calls++[⟨d,i,data⟩]} := by
  have hnil : data≠[] := by
    intro he
    refine hdata (.inr (.inl ?_))
    rw [he]
    exact Nat.zero_le _
  have hobtain : s.obtain d i=(buf,s) := by
    unfold State.obtain
    rw [hbuf]
  obtain ⟨m,hrun,-⟩ := append_thrown hvalid hdata
  refine ⟨m,?_⟩
  unfold State.write
  rw [if_neg (by rw [hdisposed]; decide),if_neg (by rw [hbroken]; decide),if_neg hnil,hobtain]
  dsimp only
  rw [hrun]

end Delivery

/-- In every run where the sink does not fail and each buffer can take the data that are
appended to it, the sink got what was passed. -/
theorem run_faithful (banners : Banners Dsn) {es : List (Event Dsn)} {s : State Dsn}
    (hc : Meets (State.step banners) CanTake {} es) (h : run (State.step banners) {} es=some s) :
    Faithful banners s :=
  Inv.faithful (run_meets (fun _ _ _ hi he hs => Inv.step hi he hs) (Inv.begins banners) hc h)

/-- A banner for each connection. -/
def idBanner : Banners ℕ := fun _ dsn connectionId => some [35,dsn.toUInt8,connectionId.toUInt8]

/-- Two connections of a data source are logged, the first one twice while the sink reads. -/
def twoConnections : List (Event ℕ) :=
  [.write 0 1 [65],.take 2,.write 0 1 [66],.write 0 2 [67],.take 2,.written,.take 1,.written,
    .take 4,.written]

/-- Two connections of a data source are logged. -/
theorem run_faithful_twoConnections : ∃ s,
    run (State.step idBanner) {} twoConnections=some s ∧ Faithful idBanner s := by
  obtain ⟨s,hs⟩ := Option.isSome_iff_exists.mp
    (show (run (State.step idBanner) {} twoConnections).isSome=true by decide +kernel)
  exact ⟨s,hs,run_faithful idBanner (by decide +kernel) hs⟩

section Lost

/-- `nextConnBanner()` of the base class. -/
def noBanner : Banners ℕ := fun _ _ _ => none

/-- The new buffer of a connection is enlarged to the size of the data. -/
theorem append_first {data : List UInt8} (h : 8*1024 < data.length) :
    ∃ m buf,(do
        let data ← ofBytes data
        reallocAppend ⟨0,0,0⟩ data true : Op View) [List.replicate (8*1024) 0]=.done buf m ∧
      buf.Valid m ∧ buf.byteOffset=0 ∧ buf.length=data.length ∧
      (content m buf.buffer).length=data.length := by
  have hroom : ¬HasRoom ([List.replicate (8*1024) 0]++[data]) ⟨0,0,0⟩ ⟨1,0,data.length⟩ := by
    intro hr
    change 0+data.length ≤ (List.replicate (8*1024) (0 : UInt8)).length at hr
    rw [List.length_replicate] at hr
    omega
  have hsize : capacity true 0 data.length=data.length := by
    have hhalf : half 0=0 := by decide
    unfold capacity
    rw [hhalf]
    simp
  have hb : View.Valid ([List.replicate (8*1024) 0]++[data]) ⟨0,0,0⟩ :=
    ⟨Nat.zero_lt_two,Nat.zero_le _⟩
  have hd : View.Valid ([List.replicate (8*1024) 0]++[data]) ⟨1,0,data.length⟩ :=
    valid_last [List.replicate (8*1024) 0] data
  have hrun := @enlarge_done _ ⟨0,0,0⟩ ⟨1,0,data.length⟩ true hb hd hroom data.length hsize
    (Nat.le_of_eq (Nat.zero_add _))
  have hnew : ([List.replicate (8*1024) 0]++[data]).length <
      (moved ([List.replicate (8*1024) 0]++[data]) ⟨0,0,0⟩ data.length).length := by
    rw [moved,length_write]
    simp only [List.length_append,List.length_singleton]
    exact Nat.lt_add_one _
  have hnone := hb.length_bytes
  have hall := hd.length_bytes
  dsimp only at hnone hall
  have hmoved : (overwrite 0 (View.bytes ([List.replicate (8*1024) 0]++[data]) ⟨0,0,0⟩)
      (List.replicate data.length 0)).length=data.length := by
    rw [overwrite_length (by rw [hnone]; exact Nat.zero_le _),List.length_replicate]
  have hlength : (content (write ([List.replicate (8*1024) 0]++[data]).length 0
      (View.bytes ([List.replicate (8*1024) 0]++[data]) ⟨1,0,data.length⟩)
      (moved ([List.replicate (8*1024) 0]++[data]) ⟨0,0,0⟩ data.length))
        ([List.replicate (8*1024) 0]++[data]).length).length=data.length := by
    rw [content_write hnew,content_moved,
      overwrite_length (by rw [hmoved,hall]; exact Nat.le_of_eq (Nat.zero_add _)),hmoved]
  refine ⟨_,_,hrun,⟨?_,?_⟩,rfl,Nat.zero_add _,hlength⟩
  · rw [length_write]
    exact hnew
  · rw [hlength]
    show 0+(0+data.length) ≤ data.length
    omega

/-- Many bytes are written first. -/
theorem first_write {data : List UInt8} (h : MAX_BUFFER_SIZE ≤ data.length) :
    ∃ m buf,View.Valid m buf ∧ buf.byteOffset=0 ∧ buf.length=data.length ∧
      (content m buf.buffer).length=data.length ∧
      State.write noBanner {} 0 1 data={
        memory := m
        pending := [(0,[(1,buf)])]
        ongoing := .writing ⟨0,1,buf,0⟩
        continueAfterFlush := [0]
        writerState := some (1,0)
        nBanners := 1
        nPromises := 1
        calls := [⟨0,1,data⟩]
        chunks := [⟨0,1,none,[]⟩] } := by
  have hbig : 1024*1024 ≤ data.length := h
  obtain ⟨m,buf,hrun,hvalid,hfront,hlength,hsize⟩ :=
    append_first (show 8*1024 < data.length by omega)
  refine ⟨m,buf,hvalid,hfront,hlength,hsize,?_⟩
  have hnil : data≠[] := by
    intro he
    rw [he] at hbig
    exact absurd hbig (by decide)
  have hobtain : State.obtain ({} : State ℕ) 0 1=(⟨0,0,0⟩,
      {memory := [List.replicate (8*1024) 0], pending := [(0,[(1,⟨0,0,0⟩)])]}) := rfl
  have hprepare : prepare buf none m=.done buf m := by
    rw [prepare,branch_apply,if_neg (not_not.mpr hfront)]
    rfl
  have hmemory : ¬((content m buf.buffer).length+0 < MAX_BUFFER_SIZE) := by
    rw [hsize]
    exact Nat.not_lt.mpr h
  unfold State.write
  rw [if_neg Bool.false_ne_true,if_neg Bool.false_ne_true,if_neg hnil,hobtain]
  dsimp only
  rw [hrun]
  have hsend : State.ensureTask noBanner
      {memory := m, pending := [(0,[(1,buf)])], calls := [⟨0,1,data⟩]}={
        memory := m
        pending := [(0,[(1,buf)])]
        ongoing := .writing ⟨0,1,buf,0⟩
        writerState := some (1,0)
        nBanners := 1
        calls := [⟨0,1,data⟩]
        chunks := [⟨0,1,none,[]⟩] } := by
    show State.sendBuf noBanner
      {memory := m, pending := [(0,[(1,buf)])], calls := [⟨0,1,data⟩]} 0 1=_
    have hbuf : State.buf?
      {memory := m, pending := [(0,[(1,buf)])], calls := [⟨0,1,data⟩]} 0 1=some buf := rfl
    unfold State.sendBuf
    rw [hbuf]
    have hbanner : (if decide ((none : Option (ℕ×ℕ))≠some (1,0))=true then noBanner 0 0 1
      else none)=none := rfl
    dsimp only
    rw [hbanner,hprepare]
    rfl
  show State.answer (State.ensureTask noBanner
    {memory := m, pending := [(0,[(1,buf)])], calls := [⟨0,1,data⟩]})=_
  rw [hsend]
  exact if_neg hmemory

/-- Many bytes are written while the sink reads many. -/
def manyBytes (data more : List UInt8) : List (Event ℕ) :=
  [.write 0 1 data,.write 0 1 more,.take data.length,.written]

/-- The sink gets no more than the bytes that were written first. -/
theorem many_lost {data more : List UInt8} (h : data.length=2^31) (hmore : 2^31 < more.length) :
    ∃ s,run (State.step noBanner) {} (manyBytes data more)=some s ∧ s.ongoing=.none ∧
      s.calls=[⟨0,1,data⟩,⟨0,1,more⟩] ∧ (written s.chunks 0 1).length ≤ 2^31 := by
  obtain ⟨m,buf,hvalid,hfront,hlength,hsize,hfirst⟩ := @first_write data (by
    rw [h]
    decide)
  have hcap : ¬HasCapacity m buf more := by
    unfold HasCapacity
    rw [hsize,hlength,h]
    omega
  obtain ⟨t,ht⟩ : ∃ t,State.write noBanner {} 0 1 data=t := ⟨_,rfl⟩
  rw [ht] at hfirst
  obtain ⟨m',hsecond⟩ := @write_thrown _ _ noBanner t 0 1 buf more (by rw [hfirst])
    (by rw [hfirst]) (by rw [hfirst]; rfl) (by rw [hfirst]; exact hvalid)
    (by rw [hfirst]; exact hcap)
  obtain ⟨u,hu⟩ : ∃ u : State ℕ,u={t with memory := m', calls := t.calls++[⟨0,1,more⟩]} :=
    ⟨_,rfl⟩
  rw [←hu] at hsecond
  have hongoing : u.ongoing=.writing ⟨0,1,buf,0⟩ := by rw [hu,hfirst]
  have htake : State.step noBanner u (.take data.length)=
      some (u.take ⟨0,1,buf,0⟩ data.length) := by
    dsimp only [State.step]
    rw [hongoing]
    exact if_pos (by rw [hlength]; exact Nat.le_of_eq (Nat.zero_add _))
  have hwritten : State.step noBanner (u.take ⟨0,1,buf,0⟩ data.length) .written=
      some (State.afterWrite noBanner (u.take ⟨0,1,buf,0⟩ data.length)
        ⟨0,1,buf,0+data.length⟩) :=
    if_pos (by rw [hlength]; exact Nat.zero_add _)
  have hafter : State.afterWrite noBanner (u.take ⟨0,1,buf,0⟩ data.length)
      ⟨0,1,buf,0+data.length⟩=
        (State.deleteBuf (u.take ⟨0,1,buf,0⟩ data.length) 0 1).nextConn noBanner 0 := by
    have hbuf : (u.take ⟨0,1,buf,0⟩ data.length).buf? 0 1=some buf := by
      rw [hu,hfirst]
      rfl
    unfold State.afterWrite
    rw [hbuf]
    exact if_pos rfl
  have hrun : run (State.step noBanner) {} (manyBytes data more)=
      some ((State.deleteBuf (u.take ⟨0,1,buf,0⟩ data.length) 0 1).nextConn noBanner 0) := by
    unfold manyBytes
    rw [run_cons (show State.step noBanner {} (.write 0 1 data)=some t from congrArg some ht),
      run_cons (show State.step noBanner t (.write 0 1 more)=some u from congrArg some hsecond),
      run_cons htake,run_cons hwritten,hafter]
    rfl
  have hchunks : ((State.deleteBuf (u.take ⟨0,1,buf,0⟩ data.length) 0 1).nextConn
      noBanner 0).chunks=
        [⟨0,1,none,[]++read (buf.byteOffset+0) data.length (content m' buf.buffer)⟩] := by
    rw [hu,hfirst]
    rfl
  refine ⟨_,hrun,?_,?_,?_⟩
  · rw [hu,hfirst]
    rfl
  · rw [hu,hfirst]
    rfl
  · rw [hchunks,←h]
    show (([]++read (buf.byteOffset+0) data.length (content m' buf.buffer)).drop 0++[]).length ≤ _
    rw [List.append_nil,List.drop_zero,List.nil_append]
    exact List.length_take_le _ _

/-- The sink does not get all that was passed when many bytes are appended to many. -/
theorem many_not_faithful : ¬∀ (banners : Banners ℕ) (es : List (Event ℕ)) (s : State ℕ),
    Event.fails ∉ es → run (State.step banners) {} es=some s → Faithful banners s := by
  intro hall
  obtain ⟨data,h⟩ : ∃ data : List UInt8,data.length=2^31 :=
    ⟨List.replicate (2^31) 65,List.length_replicate⟩
  obtain ⟨more,hmore⟩ : ∃ more : List UInt8,more.length=2^31+1 :=
    ⟨List.replicate (2^31+1) 66,List.length_replicate⟩
  obtain ⟨s,hrun,ho,hcalls,hwritten⟩ := many_lost h (by omega : 2^31 < more.length)
  have hfails : Event.fails ∉ manyBytes data more := by
    simp [manyBytes]
  have hc := (hall noBanner _ s hfails hrun).complete ho 0 1
  have hpassed : passed s.calls 0 1=data++more := by
    rw [hcalls]
    show data++(more++[])=_
    rw [List.append_nil]
  rw [hc,hpassed,List.length_append] at hwritten
  omega

end Lost

end SpiritMysql.SqlLogWriter
