import SpiritMysql.RowFetch

/-!
# Runs of `fetch()`

Repeated calls return every row in order and then nothing, as long as each
call begins at a row. A row whose payload is a multiple of the packet size is
followed by an empty packet, and mostly nobody reads it.
-/

namespace SpiritMysql.FetchRun

open AsyncAction ByteCodec ChunkCursor ColumnValues Errors PacketReads PacketStream Protocol
  ReadScript Reader Replies Results RowFetch RowReader RowStream

/-- What one call of `fetch()` saw and returned: the bytes unread before it,
and its result. -/
abbrev FetchRecord := List UInt8×Option Row

/-- Several calls of `fetch()` one after another. -/
def fetchTimes (fetch : Proto (Option Row)) : ℕ → Proto (List FetchRecord)
  | 0 => pure []
  | n+1 => do
    let s ← get
    let row ← fetch
    let records ← fetchTimes fetch n
    return (s.reader.rest,row)::records

/-- The bytes of rows, of the packet that ends them and of what follows. -/
def stream (c : Capabilities) (rows : List SentRow) (id : UInt8) (t : Terminator)
    (later : List UInt8) : List UInt8 :=
  rows.flatMap (fun row => frames row.packets)++(frames (Terminator.packets c id t)++later)

/-- What the calls of `fetch()` should see and return: each begins at a row or
at the terminator. -/
def records (c : Capabilities) (row : WireRow → Row) (id : UInt8) (t : Terminator)
    (later : List UInt8) : List SentRow → List FetchRecord
  | [] => [(stream c [] id t later,none)]
  | r::rows => (stream c (r::rows) id t later,some (row r.row))::records c row id t later rows

/-- A packet begins at the head of a stream. -/
theorem begins_of_rest {s : Protocol.State} (ps : List Packet) {later : List UInt8}
    (h : s.reader.rest=frames ps++later) (hreg : Regular maxPayload ps) :
    Begins s ps later (s.reader.headers++headerLog later ps) := ⟨h,hreg,rfl⟩

/-- The stream of a resultset begins with its first row. -/
theorem stream_cons (c : Capabilities) (row : SentRow) (rows : List SentRow) (id : UInt8)
    (t : Terminator) (later : List UInt8) :
    stream c (row::rows) id t later=frames row.packets++stream c rows id t later := by
  simp only [stream,List.flatMap_cons,List.append_assoc]

/-- The first record is that of the stream. -/
theorem records_head (c : Capabilities) (f : WireRow → Row) (id : UInt8) (t : Terminator)
    (later : List UInt8) (rows : List SentRow) :
    ∃ result rest,records c f id t later rows=(stream c rows id t later,result)::rest := by
  cases rows with
  | nil => exact ⟨_,_,rfl⟩
  | cons row rows => exact ⟨_,_,rfl⟩

/-- The first record is that of the state before the calls. -/
theorem fetchTimes_head {fetch : Proto (Option Row)} {n : ℕ} {s u : Protocol.State}
    {rs : List FetchRecord} (h : fetchTimes fetch (n+1) s=.done rs u) :
    ∃ result rest v,rs=(s.reader.rest,result)::rest ∧ fetch s=.done result v ∧
      fetchTimes fetch n v=.done rest u := by
  obtain ⟨result,v,hf,h⟩ := Outcome.andThen_eq_done.mp h
  obtain ⟨rest,w,hr,h⟩ := Outcome.andThen_eq_done.mp h
  cases h
  exact ⟨result,rest,v,rfl,hf,hr⟩

/-- A call and the calls after it. -/
theorem fetchTimes_succ {fetch : Proto (Option Row)} {n : ℕ} {s v u : Protocol.State}
    {result : Option Row} {rest : List FetchRecord} (hf : fetch s=.done result v)
    (hr : fetchTimes fetch n v=.done rest u) :
    fetchTimes fetch (n+1) s=.done ((s.reader.rest,result)::rest) u := by
  simp only [fetchTimes,bind_apply,get_apply,Outcome.andThen_done,hf,hr,pure_apply]

/-- The calls see and return what they should when the first row is aligned and
the calls after it do. -/
theorem fetchTimes_row (cfg : Config) (o : FetchOptions) (ho : o.rowType.isLastColumn=false)
    {s : Protocol.State} {rs : Resultsets} (hs : Reading s rs) {row : SentRow} (hrow : row.Of rs)
    {rows : List SentRow} {id : UInt8} {t : Terminator} {later : List UInt8}
    (hrest : s.reader.rest=stream cfg.capabilities (row::rows) id t later) :
    ∃ s',Reading s' rs ∧ o.row cfg s'=o.row cfg s ∧
      (row.Aligned → s'.reader.rest=stream cfg.capabilities rows id t later) ∧
      ((∃ u,fetchTimes (o.fetch cfg) (rows.length+2) s=
          .done (records cfg.capabilities (o.row cfg s) id t later (row::rows)) u)↔
        row.Aligned ∧ ∃ u,fetchTimes (o.fetch cfg) (rows.length+1) s'=
          .done (records cfg.capabilities (o.row cfg s) id t later rows) u) := by
  have hrest' := hrest
  rw [stream_cons] at hrest'
  obtain ⟨r,nexts,hf,hr,-,hn⟩ := fetch_row_spec cfg o ho hs hrow (begins_of_rest _ hrest' row.regular)
  have hnext : r.rest=frames nexts++stream cfg.capabilities rows id t later := hr.rest
  refine ⟨putReader r {s with state := .HAS_MORE_ROWS},⟨rfl,hs.current⟩,rfl,?_,?_,?_⟩
  · intro hal
    change r.rest=_
    rw [hnext,hn.mpr hal]
    rfl
  · rintro ⟨u,hu⟩
    obtain ⟨result,rest,v,heq,hf',hu'⟩ := fetchTimes_head hu
    rw [hf] at hf'
    injection hf' with h₁ h₂
    subst h₁ h₂
    injection heq with h₃ h₄
    subst h₄
    refine ⟨hn.mp ?_,u,hu'⟩
    -- the next call begins at the next row only when nothing is left of this one
    obtain ⟨result',rest',hrec⟩ := records_head cfg.capabilities (o.row cfg s) id t later rows
    obtain ⟨result'',rest'',v',heq',-,-⟩ := fetchTimes_head hu'
    rw [hrec] at heq'
    injection heq' with h₅ h₆
    injection h₅ with h₇ h₈
    have hlen := congrArg List.length (h₇.trans hnext)
    rw [List.length_append] at hlen
    cases nexts with
    | nil => rfl
    | cons p ps =>
      simp only [frames,List.flatMap_cons,List.length_append,frame_length] at hlen
      omega
  · rintro ⟨-,u,hu⟩
    refine ⟨u,?_⟩
    rw [records,←hrest]
    exact fetchTimes_succ hf hu

/-- Repeated calls of `fetch()` return the rows in order and then nothing, and
each call begins at a row or at the terminator, exactly when every row is
aligned and the terminator is short. -/
theorem fetchTimes_eq_records_iff (cfg : Config) (hsane : Sane cfg.capabilities) (o : FetchOptions)
    (ho : o.rowType.isLastColumn=false) {s : Protocol.State} {rs : Resultsets} (hs : Reading s rs)
    {rows : List SentRow} (hrows : ∀ row ∈ rows,row.Of rs) {id : UInt8} {t : Terminator}
    (ht : t.Valid cfg.capabilities) {later : List UInt8}
    (hrest : s.reader.rest=stream cfg.capabilities rows id t later) :
    (∃ u,fetchTimes (o.fetch cfg) (rows.length+1) s=
        .done (records cfg.capabilities (o.row cfg s) id t later rows) u)↔
      (∀ row ∈ rows,row.Aligned) ∧ (t.payload cfg.capabilities).length < 9 := by
  induction rows generalizing s with
  | nil =>
    have hbegin := begins_of_rest (Terminator.packets cfg.capabilities id t) hrest
      (Terminator.length_lt ht)
    constructor
    · rintro ⟨u,hu⟩
      obtain ⟨result,rest,v,heq,hf,-⟩ := fetchTimes_head hu
      refine ⟨fun row hrow => absurd hrow List.not_mem_nil,?_⟩
      by_contra hl
      injection heq with h₁ h₂
      injection h₁ with h₃ h₄
      subst h₄
      exact fetch_long_terminator cfg o hs hl hbegin v hf
    · rintro ⟨-,hl⟩
      obtain ⟨r,info,hf,-⟩ := fetch_terminator_spec cfg hsane o hs ht hl hbegin
      have hu := fetchTimes_succ (n:=0) hf (pure_apply ([] : List FetchRecord) _)
      rw [hrest] at hu
      exact ⟨_,hu⟩
  | cons row rows ih =>
    obtain ⟨s',hs',hopt,hal,hiff⟩ :=
      fetchTimes_row cfg o ho hs (hrows row List.mem_cons_self) hrest
    have hrows' : ∀ q ∈ rows,q.Of rs := fun q hq => hrows q (List.mem_cons_of_mem _ hq)
    rw [List.length_cons,hiff,List.forall_mem_cons,and_assoc]
    refine and_congr_right ?_
    intro ha
    rw [←hopt]
    exact ih hs' hrows' (hal ha)

/-- A connection with `CLIENT_DEPRECATE_EOF`. -/
def deprecateEofConfig : Config := {capabilities := {deprecateEof := true}}

/-- A blob column. -/
def blobColumn : Column := {name := [97], typeId := .OTHER 252}

/-- The usual end of the rows of a query. -/
def plainTerminator : Terminator :=
  .ok {affectedRows := 0, lastInsertId := 0, statusFlags := 2, warnings := 0}

/-- The text resultset of a query that selects one blob. -/
def blobResultset : Resultsets := {hasProtocol := true, hasMoreInternal := true, columns := [blobColumn]}

/-- The rows and their end are about to be read. -/
def beforeRows (rows : List SentRow) : Protocol.State :=
  { reader := {rest := stream deprecateEofConfig.capabilities rows 3 plainTerminator []}
    state := .HAS_MORE_ROWS
    curResultsets := some blobResultset }

/-- Fetch arrays. -/
def arrayOptions : FetchOptions := {rowType := .ARRAY, maxColumnLen := 2^24}

theorem plainTerminator_valid : plainTerminator.Valid deprecateEofConfig.capabilities := by
  refine ⟨rfl,by decide,by decide,?_,?_,by decide⟩
  · intro t ht
    cases ht
  · intro ch hch
    cases hch

/-- A row with a blob of one byte. -/
def shortRow : SentRow where
  row := .text [(blobColumn,some [120])]
  packet := (2,[1,120])
  others := []
  valid := by
    refine ⟨by decide,?_⟩
    intro p hp v hv
    rw [List.mem_singleton.mp hp] at hv
    cases hv
    decide
  regular := regular_singleton.mpr (by decide)
  carried := rfl

/-- A short row is fetched. -/
theorem fetchTimes_shortRow :
    ∃ u,fetchTimes (arrayOptions.fetch deprecateEofConfig) 2 (beforeRows [shortRow])=
      .done (records deprecateEofConfig.capabilities
        (arrayOptions.row deprecateEofConfig (beforeRows [shortRow])) 3 plainTerminator []
        [shortRow]) u := by
  have hof : ∀ row ∈ [shortRow],row.Of blobResultset := by
    intro row hrow
    rw [List.mem_singleton.mp hrow]
    exact ⟨rfl,rfl⟩
  refine (fetchTimes_eq_records_iff deprecateEofConfig (fun _ => .inl rfl) arrayOptions rfl
    (⟨rfl,rfl⟩ : Reading _ blobResultset) hof plainTerminator_valid rfl).mpr ⟨?_,by decide⟩
  intro row hrow
  rw [List.mem_singleton.mp hrow]
  exact .inl (by decide)

/-- A blob that makes the payload of its row fill a packet. -/
@[irreducible] def fullBlob : List UInt8 := List.replicate 16777211 120

/-- The payload of the row with that blob. -/
def fullPayload : List UInt8 := textPayload [(blobColumn,some fullBlob)]

theorem fullBlob_length : fullBlob.length=16777211 := by
  unfold fullBlob
  exact List.length_replicate

theorem fullPayload_length : fullPayload.length=maxPayload := by
  simp only [fullPayload,textPayload,List.flatMap_cons,List.flatMap_nil,List.append_nil,textCell,
    List.length_append,fullBlob_length]
  decide

/-- The row with that blob, and the empty packet after it. -/
def fullRow : SentRow where
  row := .text [(blobColumn,some fullBlob)]
  packet := (2,fullPayload)
  others := [(3,[])]
  valid := by
    refine ⟨List.cons_ne_nil _ _,?_⟩
    intro p hp v hv
    rw [List.mem_singleton.mp hp] at hv
    cases hv
    rw [fullBlob_length]
    decide
  regular := regular_pair.mpr ⟨fullPayload_length,by decide⟩
  carried := by
    simp only [List.flatMap_cons,List.flatMap_nil,List.append_nil,WireRow.payload,fullPayload]

/-- The empty packet after a full row is not read with the row. -/
theorem fullRow_not_aligned : ¬fullRow.Aligned := by
  have hl : (textPayload [(blobColumn,some fullBlob)]).length=maxPayload := fullPayload_length
  rintro (h|⟨pre,p,post,h,hn⟩)
  · exact h (by change maxPayload ∣ (textPayload _).length; rw [hl])
  · cases pre with
    | nil =>
      rw [List.nil_append] at h
      rw [←h,hl] at hn
      exact absurd hn (by decide)
    | cons q pre => simp at h

/-- After a row that fills a packet, `fetch()` begins at the empty packet that
the row left, and not at the terminator. -/
theorem fetchTimes_fullRow :
    ¬∃ u,fetchTimes (arrayOptions.fetch deprecateEofConfig) 2 (beforeRows [fullRow])=
      .done (records deprecateEofConfig.capabilities
        (arrayOptions.row deprecateEofConfig (beforeRows [fullRow])) 3 plainTerminator []
        [fullRow]) u := by
  intro h
  obtain ⟨s',-,-,-,hiff⟩ := fetchTimes_row deprecateEofConfig arrayOptions rfl
    (⟨rfl,rfl⟩ : Reading (beforeRows [fullRow]) blobResultset)
    (⟨rfl,rfl⟩ : fullRow.Of blobResultset)
    (rfl : _=stream deprecateEofConfig.capabilities [fullRow] 3 plainTerminator [])
  exact fullRow_not_aligned (hiff.mp h).1

end SpiritMysql.FetchRun
