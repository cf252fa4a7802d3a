import SpiritMysql.LeftoverPacket

/-!
# Discarding agrees with fetching to the end

Both paths consume the same packets, end at the same terminator and leave the
same fields, as long as no row leaves an empty packet and no packet of a row
looks like OK, EOF or ERR.
-/

namespace SpiritMysql.DiscardRun

open AsyncAction ByteCodec ChunkCursor ColumnValues Errors FetchRun LeftoverPacket PacketReads
  PacketStream Protocol ProtocolOrder ReadOrder ReadScript Reader Replies Results RowDiscard
  RowFetch RowReader RowStream

/-- Repeated calls of `fetch()` only add to the records. -/
theorem grows_fetchTimes (cfg : Config) (o : FetchOptions) (n : ℕ) :
    Grows (fetchTimes (o.fetch cfg) n) := by
  induction n with
  | zero => exact grows_pure _
  | succ n ih =>
    refine grows_get.bind (fun s => Grows.bind ?_ (fun row => ih.bind (fun _ => grows_pure _)))
    exact grows_fetch cfg o.rowType o.maxColumnLen o.jsonAsString o.datesAsString o.isForSerialize

/-- Reading a packet begins with its header. -/
theorem readPacket_header (cfg : Config) {mode : ReadPacketMode}
    (hmode : mode≠.PREPARED_STMT_OK_CONTINUATION) {s u : Protocol.State} {type : ℕ}
    (h : readPacket cfg mode s=.done type u) :
    s.reader.headers++[s.reader.rest.length] <+: u.reader.headers := by
  unfold readPacket at h
  rw [if_neg hmode] at h
  obtain ⟨a,v,hheader,hrest⟩ := bind_eq_done.mp h
  obtain ⟨r,hr,rfl⟩ := read_eq_done hheader
  obtain ⟨x,r₁,h₁,h₂⟩ := bind_eq_done.mp hr
  obtain ⟨rfl,-⟩ := recvAtLeast_inv h₁
  injection h₂ with _ h₃
  subst h₃
  have hgrow : Grows (read readUint8 >>= fun type => readPacketBody cfg mode type) :=
    (grows_readWord 1).bind (fun type => grows_readPacketBody cfg mode type)
  have hg := hgrow (putReader s.reader.nextPacket s)
  rw [hrest] at hg
  exact hg.reader.headers

/-- A call of `fetch()` that completes has read a header first. -/
theorem fetch_header (cfg : Config) (o : FetchOptions) {s t : Protocol.State} {rs : Resultsets}
    (hs : Reading s rs) {result : Option Row} (hf : o.fetch cfg s=.done result t) :
    s.reader.headers++[s.reader.rest.length] <+: t.reader.headers := by
  rw [fetch_reading cfg o hs] at hf
  rcases Outcome.orElse_eq_done.mp hf with hf|⟨e,u,-,hf⟩
  · obtain ⟨type,u,hread,hrow⟩ := bind_eq_done.mp hf
    have hh := readPacket_header cfg (by decide) hread
    have hg := grows_fetchOfType cfg rs o.rowType o.maxColumnLen o.jsonAsString o.datesAsString
      o.isForSerialize type u
    rw [hrow] at hg
    exact hh.trans hg.reader.headers
  · exact absurd hf (rethrowError_ne_done e _ u t)

/-- Discarding that completes has read a header first. -/
theorem discardRows_header (cfg : Config) (isPreparedStmt : Bool) {fuel : ℕ} {s v : Protocol.State}
    {a : Unit} (h : discardRows cfg isPreparedStmt fuel s=.done a v) :
    s.reader.headers++[s.reader.rest.length] <+: v.reader.headers := by
  cases fuel with
  | zero => cases h
  | succ fuel =>
    rw [discardRows_succ] at h
    obtain ⟨type,u,hread,hafter⟩ := Outcome.andThen_eq_done.mp h
    have hh := readPacket_header cfg (discardMode_ne isPreparedStmt) hread
    have hgrow : Grows (read gotoEndOfPacket >>= fun _ =>
        if type=(if isPreparedStmt=true then 0xFE else 0) then pure ()
        else discardRows cfg isPreparedStmt fuel) :=
      grows_gotoEndOfPacket.bind (fun _ => Always.ite (grows_pure _) (grows_discardRows cfg _ _))
    have hg := hgrow u
    rw [hafter] at hg
    exact hh.trans hg.reader.headers

/-- Where the paths end: the records of packets and the fields that an OK or
EOF packet sets. -/
structure SameEnd (accepted : List ℕ) (u v : Protocol.State) (state : ProtocolState) : Prop where
  /-- The same bytes are left. -/
  rest : u.reader.rest=v.reader.rest
  /-- The same packets were entered. -/
  headers : u.reader.headers=v.reader.headers
  /-- Fetching took these packets for OK, EOF or ERR. -/
  fetched : u.accepted=accepted
  /-- Discarding took the same ones. -/
  discarded : v.accepted=accepted
  /-- The status flags are the same. -/
  statusFlags : u.statusFlags=v.statusFlags
  /-- The affected rows are the same. -/
  affectedRows : u.affectedRows=v.affectedRows
  /-- The last inserted ids are the same. -/
  lastInsertId : u.lastInsertId=v.lastInsertId
  /-- The numbers of warnings are the same. -/
  warnings : u.warnings=v.warnings
  /-- The next states are the same. -/
  state : u.state=state

/-- Fetching a resultset of `n` rows to its end and discarding it end the same
way, and of all the packets only the one at a position is taken for OK, EOF or
ERR. -/
def DiscardAgrees (cfg : Config) (o : FetchOptions) (rs : Resultsets) (n position : ℕ)
    (s : Protocol.State) : Prop :=
  ∃ records u last v,fetchTimes (o.fetch cfg) (n+1) s=.done records u ∧
    records.getLast?.map Prod.snd=some none ∧
    doDiscard cfg rs s.state true {s with state := .QUERYING}=.done last v ∧
    SameEnd (s.accepted++[position]) u v last.2

/-- The first position of the packets of rows and of their terminator. -/
theorem rowsLog_head (c : Capabilities) (id : UInt8) (t : Terminator) (later : List UInt8)
    (rows : List SentRow) :
    ∃ log,rowsLog c id t later rows++[(stream c [] id t later).length]=
      (stream c rows id t later).length::log := by
  cases rows with
  | nil => exact ⟨[],rfl⟩
  | cons row rows =>
    refine ⟨headerLog (stream c rows id t later) row.others++rowsLog c id t later rows++
      [(stream c [] id t later).length],?_⟩
    rw [stream_cons]
    rfl

/-- No row is left with an empty packet when fetching ends with the headers of
all the packets recorded, and nothing but the terminator accepted. -/
theorem aligned_of_headers (cfg : Config) (o : FetchOptions) (ho : o.rowType.isLastColumn=false)
    {s u : Protocol.State} {rs : Resultsets} (hs : Reading s rs) {rows : List SentRow}
    (hrows : ∀ row ∈ rows,row.Of rs) {id : UInt8} {t : Terminator} {later : List UInt8}
    (hrest : s.reader.rest=stream cfg.capabilities rows id t later) {recs : List FetchRecord}
    (hfetch : fetchTimes (o.fetch cfg) (rows.length+1) s=.done recs u)
    (hlast : recs.getLast?.map Prod.snd=some none)
    (hlog : s.reader.headers++(rowsLog cfg.capabilities id t later rows++
      [(stream cfg.capabilities [] id t later).length]) <+: u.reader.headers)
    (hacc : u.accepted=s.accepted++[(stream cfg.capabilities [] id t later).length]) :
    ∀ row ∈ rows,row.Aligned := by
  induction rows generalizing s recs with
  | nil => exact fun row hrow => absurd hrow List.not_mem_nil
  | cons row rows ih =>
    have hof := hrows row List.mem_cons_self
    have hrest' := hrest
    rw [stream_cons] at hrest'
    obtain ⟨r,nexts,hf,hr,hone,hn⟩ := fetch_row_spec cfg o ho hs hof
      (begins_of_rest _ hrest' row.regular)
    obtain ⟨result,rest,v,rfl,hf',hu⟩ := fetchTimes_head hfetch
    rw [hf] at hf'
    injection hf' with hresult hv
    subst hresult hv
    obtain ⟨result₂,rest₂,v₂,rfl,hf₂,hu₂⟩ := fetchTimes_head hu
    rw [List.getLast?_cons_cons] at hlast
    have hreading : Reading (putReader r {s with state := .HAS_MORE_ROWS}) rs := ⟨rfl,hs.current⟩
    have hrlog : r.headers++headerLog (stream cfg.capabilities rows id t later) nexts=
      s.reader.headers++headerLog (stream cfg.capabilities rows id t later) row.packets := hr.headers
    have hlog' : (r.headers++headerLog (stream cfg.capabilities rows id t later) nexts)++
        (rowsLog cfg.capabilities id t later rows++
          [(stream cfg.capabilities [] id t later).length]) <+: u.reader.headers := by
      rw [hrlog,List.append_assoc,←List.append_assoc (headerLog _ _)]
      exact hlog
    rcases hone with rfl|⟨id',rfl⟩
    · have hi := ih hreading (fun q hq => hrows q (List.mem_cons_of_mem _ hq)) hr.rest hu hlast
        (by rw [headerLog,List.append_nil] at hlog'; exact hlog') hacc
      intro q hq
      rcases List.mem_cons.mp hq with rfl|hq
      · exact hn.mp rfl
      · exact hi q hq
    · -- the next call begins at the empty packet, and never sees the header after it
      exfalso
      obtain ⟨q,qs,X,-,hhead⟩ := stream_head cfg.capabilities rows id t later
      have hcols : rs.isPreparedStmt=false → rs.columns≠[] := by
        intro hprep
        have hvalid := row.valid
        have hc := hof.columns
        rw [←hof.isPreparedStmt] at hprep
        cases hrow : row.row with
        | text cells =>
          rw [hrow] at hvalid hc
          rw [←hc]
          exact fun h => hvalid.1 (List.map_eq_nil_iff.mp h)
        | binary cells =>
          rw [hrow] at hprep
          cases hprep
      have hrest₂ : r.rest=frames [(id',[])]++stream cfg.capabilities rows id t later := hr.rest
      have hb : Begins (putReader r {s with state := .HAS_MORE_ROWS}) [(id',[])]
          (stream cfg.capabilities rows id t later) _ := begins_of_rest _ hrest₂ hr.regular
      have hgrow := grows_fetchTimes cfg o rows.length v₂
      rw [hu₂] at hgrow
      have hposition : r.rest.length=(stream cfg.capabilities rows id t later).length+4 := by
        rw [hrest₂,List.length_append,Nat.add_comm]
        rfl
      have hle : (stream cfg.capabilities [] id t later).length ≤
          (stream cfg.capabilities rows id t later).length := by
        simp only [stream,List.flatMap_nil,List.nil_append,List.length_append]
        omega
      rcases fetch_leftover cfg o ho hreading hcols hb hhead hf₂ with haccept|⟨hres,hread,hhdr,hlt⟩
      · have hpre : s.accepted++[r.rest.length] <+:
            s.accepted++[(stream cfg.capabilities [] id t later).length] := by
          rw [←hacc]
          exact haccept.trans hgrow.accepted
        have heq := hpre.eq_of_length (by simp)
        have hsame := List.append_cancel_left heq
        injection hsame with hsame _
        omega
      · cases rows with
        | nil =>
          cases hu₂
          rw [List.getLast?_singleton,Option.map_some] at hlast
          injection hlast with hnone
          exact hres hnone
        | cons row₂ rows =>
          obtain ⟨result₃,rest₃,v₃,-,hf₃,hu₃⟩ := fetchTimes_head hu₂
          have hh := fetch_header cfg o hread hf₃
          have hgrow₃ := grows_fetchTimes cfg o rows.length v₃
          rw [hu₃] at hgrow₃
          have h₁ : (r.headers++[r.rest.length])++[v₂.reader.rest.length] <+: u.reader.headers := by
            rw [hhdr] at hh
            exact hh.trans hgrow₃.reader.headers
          obtain ⟨log,hhead'⟩ := rowsLog_head cfg.capabilities id t later (row₂::rows)
          rw [hhead'] at hlog'
          have h₂ : (r.headers++[r.rest.length])++
              [(stream cfg.capabilities (row₂::rows) id t later).length] <+: u.reader.headers := by
            refine List.IsPrefix.trans ⟨log,?_⟩ hlog'
            rw [hrest₂,List.append_assoc]
            rfl
          have heq : (r.headers++[r.rest.length])++[v₂.reader.rest.length]=
              (r.headers++[r.rest.length])++
                [(stream cfg.capabilities (row₂::rows) id t later).length] :=
            (List.prefix_of_prefix_length_le h₁ h₂ (by simp)).eq_of_length (by simp)
          have hsame := List.append_cancel_left heq
          injection hsame with hsame _
          omega

/-- Aligned rows are fetched up to the terminator. -/
theorem fetchTimes_rows (cfg : Config) (o : FetchOptions) (ho : o.rowType.isLastColumn=false)
    {s : Protocol.State} {rs : Resultsets} (hs : Reading s rs) {rows : List SentRow}
    (hrows : ∀ row ∈ rows,row.Of rs) (hal : ∀ row ∈ rows,row.Aligned) {id : UInt8} {t : Terminator}
    {later : List UInt8} (hrest : s.reader.rest=stream cfg.capabilities rows id t later) :
    ∃ (r : Reader.State) (pre : List FetchRecord),
      r.rest=stream cfg.capabilities [] id t later ∧
      r.headers=s.reader.headers++rowsLog cfg.capabilities id t later rows ∧
      ∀ k,fetchTimes (o.fetch cfg) (k+rows.length) s=
        (fetchTimes (o.fetch cfg) k (putReader r s)).andThen (fun recs => pure (pre++recs)) := by
  induction rows generalizing s with
  | nil =>
    refine ⟨s.reader,[],hrest,(List.append_nil _).symm,fun k => ?_⟩
    change fetchTimes (o.fetch cfg) k s=(fetchTimes (o.fetch cfg) k s).andThen _
    cases fetchTimes (o.fetch cfg) k s <;> rfl
  | cons row rows ih =>
    rw [stream_cons] at hrest
    obtain ⟨r,nexts,hf,hr,-,hn⟩ := fetch_row_spec cfg o ho hs (hrows row List.mem_cons_self)
      (begins_of_rest _ hrest row.regular)
    obtain rfl := hn.mpr (hal row List.mem_cons_self)
    have hstate : {s with state := .HAS_MORE_ROWS}=s := by
      rw [←hs.state]
    rw [hstate] at hf
    obtain ⟨r₂,pre,hrest₂,hlog₂,hrun⟩ := ih (s:=putReader r s) ⟨hs.state,hs.current⟩
      (fun q hq => hrows q (List.mem_cons_of_mem _ hq))
      (fun q hq => hal q (List.mem_cons_of_mem _ hq)) hr.rest
    refine ⟨r₂,(s.reader.rest,some (o.row cfg s row.row))::pre,hrest₂,?_,fun k => ?_⟩
    · have hlog : r.headers++[]=s.reader.headers++headerLog _ row.packets := hr.headers
      rw [List.append_nil] at hlog
      change r₂.headers=r.headers++_ at hlog₂
      rw [hlog₂,hlog,List.append_assoc]
      rfl
    · rw [List.length_cons,←Nat.add_assoc,fetchTimes]
      simp only [bind_apply,get_apply,Outcome.andThen_done,hf,hrun]
      change (((fetchTimes (o.fetch cfg) k (putReader r₂ s)).andThen _).andThen _)=_
      cases fetchTimes (o.fetch cfg) k (putReader r₂ s) <;> rfl

/-- The bytes of the rows outnumber their packets. -/
theorem rowPackets_length (c : Capabilities) (rows : List SentRow) (id : UInt8) (t : Terminator)
    (later : List UInt8) : (rowPackets rows).length+1 ≤ (stream c rows id t later).length := by
  induction rows with
  | nil =>
    simp only [rowPackets,stream,Terminator.packets,frames,List.flatMap_nil,List.flatMap_cons,
      List.nil_append,List.append_nil,List.length_append,frame_length,List.length_nil]
    omega
  | cons row rows ih =>
    have hframes : ∀ ps : List Packet,ps.length ≤ (frames ps).length := by
      intro ps
      induction ps with
      | nil => exact Nat.zero_le _
      | cons p ps ih =>
        simp only [frames,List.flatMap_cons,List.length_append,frame_length,List.length_cons] at ih ⊢
        omega
    have hp := hframes row.packets
    rw [stream_cons,rowPackets,List.flatMap_cons,List.length_append,List.length_append]
    change row.packets.length+(rowPackets rows).length+1 ≤ _
    omega

/-- What a terminator sets does not depend on the reader. -/
theorem set_putReader (c : Capabilities) (t : Terminator) (r : Reader.State) (s : Protocol.State) :
    t.set c (putReader r s)=putReader r (t.set c s) := by
  cases t with
  | eof warnings statusFlags =>
    simp only [Terminator.set,setEof]
    split <;> rfl
  | ok p => rfl

/-- What follows the rows only forgets the resultset. -/
theorem afterDiscard_done {rs : Resultsets} {v' v : Protocol.State}
    {last : Resultsets×ProtocolState} (h : afterDiscard rs v'=.done last v) :
    ∃ current,v={v' with curResultsets := current} ∧ last.2=stateAfterOk v'.statusFlags := by
  simp only [afterDiscard,bind_apply,get_apply,Outcome.andThen_done,branch_apply,finishResultsets,
    modify_apply,pure_apply] at h
  split at h
  · next hi =>
    injection h with h₁ h₂
    exact ⟨none,h₂.symm,by rw [←h₁,hi]⟩
  · injection h with h₁ h₂
    exact ⟨some rs,h₂.symm,by rw [←h₁]⟩

/-- What follows the rows always completes. -/
theorem afterDiscard_total (rs : Resultsets) (v' : Protocol.State) :
    ∃ last v,afterDiscard rs v'=.done last v := by
  simp only [afterDiscard,bind_apply,get_apply,Outcome.andThen_done,branch_apply,finishResultsets,
    modify_apply,pure_apply]
  split <;> exact ⟨_,_,rfl⟩

/-- The state after the rows is the one that the status flags ask for. -/
theorem afterRows_state (s : Protocol.State) :
    ∃ current,afterRows s={s with curResultsets := current, state := stateAfterOk s.statusFlags} := by
  unfold afterRows stateAfterOk
  split
  · exact ⟨s.curResultsets,rfl⟩
  · exact ⟨none,rfl⟩

/-- There is a turn of the loop for every packet. -/
theorem discardAllRows_fuel (cfg : Config) (isPreparedStmt : Bool) {s : Protocol.State}
    {rows : List SentRow} {id : UInt8} {t : Terminator} {later : List UInt8}
    (hrest : s.reader.rest=stream cfg.capabilities rows id t later) :
    ∃ fuel,discardAllRows cfg isPreparedStmt {s with state := .QUERYING}=
      discardRows cfg isPreparedStmt (fuel+1+(rowPackets rows).length) {s with state := .QUERYING} := by
  have hlength := rowPackets_length cfg.capabilities rows id t later
  refine ⟨s.reader.rest.length-(rowPackets rows).length,?_⟩
  have hfuel : s.reader.rest.length+1=
      s.reader.rest.length-(rowPackets rows).length+1+(rowPackets rows).length := by
    rw [hrest]
    omega
  rw [←hfuel]
  rfl

/-- When the paths agree, every packet of the rows is told apart. -/
theorem DiscardAgrees.allPassed {cfg : Config} {o : FetchOptions} {s : Protocol.State}
    {rs : Resultsets} (hs : Reading s rs) {rows : List SentRow} {id : UInt8} {t : Terminator}
    {later : List UInt8} (hrest : s.reader.rest=stream cfg.capabilities rows id t later)
    (h : DiscardAgrees cfg o rs rows.length (stream cfg.capabilities [] id t later).length s) :
    AllPassed cfg.capabilities rs.isPreparedStmt rows id t := by
  obtain ⟨fuel,hall⟩ := discardAllRows_fuel cfg rs.isPreparedStmt hrest
  obtain ⟨recs,u,last,v,-,-,hdiscard,hend⟩ := h
  rw [hs.state,doDiscard_rows] at hdiscard
  obtain ⟨a,v',hdone,hafter⟩ := Outcome.andThen_eq_done.mp hdiscard
  obtain ⟨current,rfl,-⟩ := afterDiscard_done hafter
  by_contra hno
  obtain ⟨n,hn,hacc⟩ := discardRows_rows_misread cfg rs.isPreparedStmt
    (s:={s with state := .QUERYING}) hrest hno
  have hpre := hacc (fuel+1)
  rw [←hall,hdone] at hpre
  have hv : v'.accepted=s.accepted++[(stream cfg.capabilities [] id t later).length] :=
    hend.discarded
  change s.accepted++[n] <+: v'.accepted at hpre
  rw [hv] at hpre
  have hsame := List.append_cancel_left (hpre.eq_of_length (by simp))
  injection hsame with hsame _
  omega

/-- Discarding a resultset agrees with fetching it to the end exactly when no
row leaves an empty packet, no packet of a row looks like OK, EOF or ERR, and
the terminator is short. -/
theorem discardAgrees_iff (cfg : Config) (hsane : Sane cfg.capabilities) (o : FetchOptions)
    (ho : o.rowType.isLastColumn=false) {s : Protocol.State} {rs : Resultsets} (hs : Reading s rs)
    {rows : List SentRow} (hrows : ∀ row ∈ rows,row.Of rs) {id : UInt8} {t : Terminator}
    (ht : t.Valid cfg.capabilities) {later : List UInt8}
    (hrest : s.reader.rest=stream cfg.capabilities rows id t later) :
    DiscardAgrees cfg o rs rows.length (stream cfg.capabilities [] id t later).length s↔
      (∀ row ∈ rows,row.Aligned) ∧ AllPassed cfg.capabilities rs.isPreparedStmt rows id t ∧
        (t.payload cfg.capabilities).length < 9 := by
  obtain ⟨fuel,hall⟩ := discardAllRows_fuel cfg rs.isPreparedStmt hrest
  constructor
  · intro h
    have hpass := h.allPassed hs hrest
    obtain ⟨recs,u,last,v,hfetch,hlast,hdiscard,hend⟩ := h
    rw [hs.state,doDiscard_rows] at hdiscard
    obtain ⟨a,v',hdone,hafter⟩ := Outcome.andThen_eq_done.mp hdiscard
    obtain ⟨current,rfl,-⟩ := afterDiscard_done hafter
    rw [hall] at hdone
    obtain ⟨r,hrun,hrest₁,hlog₁⟩ := discardRows_rows cfg rs.isPreparedStmt
      (s:={s with state := .QUERYING}) hrest hpass
    rw [hrun] at hdone
    have hheader := discardRows_header cfg rs.isPreparedStmt hdone
    have hlog : s.reader.headers++(rowsLog cfg.capabilities id t later rows++
        [(stream cfg.capabilities [] id t later).length]) <+: u.reader.headers := by
      rw [hend.headers,←List.append_assoc,←hrest₁]
      change s.reader.headers++_++[r.rest.length] <+: v'.reader.headers
      change r.headers=s.reader.headers++_ at hlog₁
      rw [←hlog₁]
      exact hheader
    have hal := aligned_of_headers cfg o ho hs hrows hrest hfetch hlast hlog hend.fetched
    refine ⟨hal,hpass,?_⟩
    by_contra hl
    obtain ⟨r',pre,hrest',-,hrun'⟩ := fetchTimes_rows cfg o ho hs hrows hal hrest
    rw [Nat.add_comm,hrun'] at hfetch
    obtain ⟨recs₁,u₁,hfetch₁,hpure⟩ := Outcome.andThen_eq_done.mp hfetch
    injection hpure with hrecs _
    subst hrecs
    obtain ⟨result,rest,w,rfl,hf,hnil⟩ := fetchTimes_head hfetch₁
    cases hnil
    rw [List.getLast?_concat,Option.map_some] at hlast
    injection hlast with hnone
    change result=none at hnone
    subst hnone
    have hb := begins_of_rest (s:=putReader r' s)
      (Terminator.packets cfg.capabilities id t) hrest' (Terminator.length_lt ht)
    exact fetch_long_terminator cfg o (s:=putReader r' s) ⟨hs.state,hs.current⟩ hl hb _ hf
  · rintro ⟨hal,hpass,hl⟩
    obtain ⟨r,pre,hrest₁,hlog₁,hrun⟩ := fetchTimes_rows cfg o ho hs hrows hal hrest
    obtain ⟨r₁,info,hfetch,hrep⟩ := fetch_terminator_spec cfg hsane o (s:=putReader r s)
      ⟨hs.state,hs.current⟩ ht hl (begins_of_rest _ hrest₁ (Terminator.length_lt ht))
    obtain ⟨r₂,hskip,hrest₂,hlog₂⟩ := discardRows_rows cfg rs.isPreparedStmt
      (s:={s with state := .QUERYING}) hrest hpass
    obtain ⟨r₃,info',hdone,hrest₃,hlog₃⟩ := discardRows_terminator cfg hsane rs.isPreparedStmt
      (s:=putReader r₂ {s with state := .QUERYING}) ht hl hrest₂ fuel
    have hbase : ∀ r' : Reader.State,t.set cfg.capabilities (acceptAt
        (stream cfg.capabilities [] id t later).length (putReader r' {s with state := .QUERYING}))=
        putReader r' (t.set cfg.capabilities (acceptAt
          (stream cfg.capabilities [] id t later).length {s with state := .QUERYING})) :=
      fun r' => set_putReader cfg.capabilities t r' (acceptAt _ {s with state := .QUERYING})
    have haccepted : (t.set cfg.capabilities (acceptAt (stream cfg.capabilities [] id t later).length
        {s with state := .QUERYING})).accepted=
          s.accepted++[(stream cfg.capabilities [] id t later).length] := by
      cases t with
      | eof warnings statusFlags =>
        simp only [Terminator.set,setEof]
        split <;> rfl
      | ok p => rfl
    change o.fetch cfg (putReader r s)=.done none (afterRows (putReader r₁ {t.set cfg.capabilities
      (acceptAt r.rest.length (putReader r {s with state := .QUERYING})) with statusInfo := info}))
      at hfetch
    change discardRows cfg rs.isPreparedStmt (fuel+1) (putReader r₂ {s with state := .QUERYING})=
      .done () (putReader r₃ {t.set cfg.capabilities (acceptAt r₂.rest.length
        (putReader r₂ {s with state := .QUERYING})) with statusInfo := info'}) at hdone
    rw [hrest₁,hbase] at hfetch
    rw [hrest₂,hbase] at hdone
    generalize hgen : t.set cfg.capabilities (acceptAt (stream cfg.capabilities [] id t later).length
      {s with state := .QUERYING})=base at hfetch hdone haccepted
    obtain ⟨current',hrows'⟩ := afterRows_state (putReader r₁ {base with statusInfo := info})
    change afterRows (putReader r₁ {putReader r base with statusInfo := info})=_ at hrows'
    rw [hrows'] at hfetch
    obtain ⟨last,v,hafter⟩ :=
      afterDiscard_total rs (putReader r₃ {putReader r₂ base with statusInfo := info'})
    have hfetched := hrun 1
    rw [Nat.add_comm,fetchTimes_succ (n:=0) hfetch (pure_apply ([] : List FetchRecord) _),Outcome.andThen_done,
      pure_apply] at hfetched
    have hdiscarded : doDiscard cfg rs s.state true {s with state := .QUERYING}=.done last v := by
      rw [hs.state,doDiscard_rows,hall,hskip]
      exact Outcome.andThen_eq_done.mpr ⟨(),_,hdone,hafter⟩
    obtain ⟨current,rfl,hstate⟩ := afterDiscard_done hafter
    refine ⟨_,_,_,_,hfetched,by rw [List.getLast?_concat]; rfl,hdiscarded,?_⟩
    refine ⟨hrep.rest.trans hrest₃.symm,?_,haccepted,haccepted,rfl,rfl,rfl,rfl,hstate.symm⟩
    have hlog := hrep.headers
    rw [headerLog,List.append_nil] at hlog
    change r₁.headers=r₃.headers
    change r₃.headers=r₂.headers++[r₂.rest.length] at hlog₃
    change r₂.headers=s.reader.headers++_ at hlog₂
    rw [hlog₃,hlog₂,hlog,hrest₂]
    change r.headers++_=_
    rw [hlog₁]
    rfl

/-- A short row is discarded as it is fetched. -/
theorem discardAgrees_shortRow :
    DiscardAgrees deprecateEofConfig arrayOptions blobResultset 1
      (stream deprecateEofConfig.capabilities [] 3 plainTerminator []).length
      (beforeRows [shortRow]) := by
  have hof : ∀ row ∈ [shortRow],row.Of blobResultset := by
    intro row hrow
    rw [List.mem_singleton.mp hrow]
    exact ⟨rfl,rfl⟩
  refine (discardAgrees_iff deprecateEofConfig (fun _ => .inl rfl) arrayOptions rfl
    (⟨rfl,rfl⟩ : Reading (beforeRows [shortRow]) blobResultset) hof plainTerminator_valid rfl).mpr
    ⟨?_,?_,by decide⟩
  · intro row hrow
    rw [List.mem_singleton.mp hrow]
    exact .inl (by decide)
  · exact List.isChain_cons_cons.mpr ⟨by decide,List.isChain_singleton _⟩

/-- A row with an empty blob. -/
def emptyBlobRow : SentRow where
  row := .text [(blobColumn,some [])]
  packet := (2,[0])
  others := []
  valid := by
    refine ⟨by decide,?_⟩
    intro p hp v hv
    rw [List.mem_singleton.mp hp] at hv
    cases hv
    decide
  regular := regular_singleton.mpr (by decide)
  carried := rfl

/-- Discarding takes a row that begins with an empty blob for an OK packet. -/
theorem discard_emptyBlobRow :
    ¬DiscardAgrees deprecateEofConfig arrayOptions blobResultset 1
      (stream deprecateEofConfig.capabilities [] 3 plainTerminator []).length
      (beforeRows [emptyBlobRow]) := by
  intro h
  have hpass : AllPassed deprecateEofConfig.capabilities false [emptyBlobRow] 3 plainTerminator :=
    DiscardAgrees.allPassed (⟨rfl,rfl⟩ : Reading (beforeRows [emptyBlobRow]) blobResultset) rfl h
  have hfirst := (List.isChain_cons_cons.mp hpass).1
  exact absurd hfirst (by decide)

end SpiritMysql.DiscardRun
