import SpiritMysql.PacketReads
import SpiritMysql.Results

/-!
# Fetching rows

A resultset on the wire is a row after row, each in its own packets, and a
terminator. `fetch()` returns every row. What it leaves unread of the packets
of a row decides where the next call begins.
-/

namespace SpiritMysql.RowFetch

open AsyncAction ByteCodec ChunkCursor ColumnValues Errors PacketReads PacketStream Protocol
  ReadScript Reader Replies Results RowReader RowStream

/-- A row of one of the two kinds of resultsets. -/
inductive WireRow where
  /-- A row of a text resultset. -/
  | text (row : TextRow)
  /-- A row of a binary resultset. -/
  | binary (row : BinaryRow)

/-- Only prepared statements have binary rows. -/
def WireRow.isPreparedStmt : WireRow → Bool
  | .text _ => false
  | .binary _ => true

/-- The columns of a row. -/
def WireRow.columns : WireRow → List Column
  | .text row => row.map Prod.fst
  | .binary row => row.map Prod.fst

/-- The payload of a row. -/
def WireRow.payload : WireRow → List UInt8
  | .text row => textPayload row
  | .binary row => 0::binaryPayload row

/-- The steps that read the columns of a row. -/
def WireRow.moves : WireRow → List Move
  | .text row => textRowMoves row
  | .binary row => binaryRowMoves row

/-- The values of a row. -/
def WireRow.values (o : RowOptions) : WireRow → List (Column×ColumnValue)
  | .text row => textValues o row
  | .binary row => binaryValues o row

/-- The rows that a server sends. -/
def WireRow.Valid : WireRow → Prop
  | .text row => row≠[] ∧ ∀ p ∈ row,∀ v ∈ p.2,v.length < longBlob
  | .binary row => nullBitsLen row.length+4 ≤ bufferLen ∧ ∀ p ∈ row,∀ cell ∈ p.2,Fits p.1.typeId cell

/-- A row with the packets that carry it. -/
structure SentRow where
  /-- The row. -/
  row : WireRow
  /-- Its first packet. -/
  packet : Packet
  /-- The packets that continue the first one. -/
  others : List Packet
  /-- A server can send the row. -/
  valid : row.Valid
  /-- The payload is cut where packets are full. -/
  regular : Regular maxPayload (packet::others)
  /-- The packets carry the payload of the row. -/
  carried : (packet::others).flatMap Prod.snd=row.payload

/-- The packets of a row. -/
def SentRow.packets (r : SentRow) : List Packet := r.packet::r.others

/-- A text cell has a first byte, which is not the mark of an ERR packet, and
begins with `0xFE` only when it is longer than a packet. -/
theorem textCell_head (cell : TextCell) :
    ∃ b bs,textCell cell=b::bs ∧ b≠0xFF ∧ (b=0xFE → maxPayload ≤ bs.length) := by
  cases cell with
  | none => exact ⟨_,_,rfl,by decide,fun h => absurd h (by decide)⟩
  | some v =>
    obtain ⟨b,bs,hb,hl,hff,-⟩ := lenenc_head v.length
    refine ⟨b,bs++v,by rw [textCell,hb,List.cons_append],hff,?_⟩
    intro hfe
    rw [List.length_append]
    by_contra hlt
    have hv : v.length < 2^24 := by
      have hm : maxPayload=2^24-1 := rfl
      omega
    have h9 : (lenenc v.length).length=9 := by rw [←hl,hfe]; rfl
    unfold lenenc at h9
    split_ifs at h9 <;> simp at h9

/-- The payload of a row has a first byte of the same kind. -/
theorem WireRow.payload_head {row : WireRow} (h : row.Valid) :
    ∃ b bs,row.payload=b::bs ∧ b≠0xFF ∧ (b=0xFE → maxPayload ≤ bs.length) ∧
      (row.isPreparedStmt=true → b=0) := by
  cases row with
  | text row =>
    obtain ⟨hne,-⟩ := h
    cases row with
    | nil => exact absurd rfl hne
    | cons p ps =>
      obtain ⟨b,bs,hb,hff,hfe⟩ := textCell_head p.2
      refine ⟨b,bs++textPayload ps,?_,hff,?_,fun hp => absurd hp Bool.false_ne_true⟩
      · simp only [WireRow.payload,textPayload,List.flatMap_cons,hb,List.cons_append]
      · intro h
        rw [List.length_append]
        exact (hfe h).trans (Nat.le_add_right _ _)
  | binary row =>
    exact ⟨0,_,rfl,by decide,fun h => absurd h (by decide),fun _ => rfl⟩

/-- The first packet of a row has its first byte. -/
theorem SentRow.head (r : SentRow) :
    ∃ b body,r.packet.2=b::body ∧ r.row.payload=b::(body++r.others.flatMap Prod.snd) ∧ b≠0xFF ∧
      (b=0xFE → 9 ≤ r.packet.2.length) ∧ (r.row.isPreparedStmt=true → b=0) := by
  obtain ⟨b,bs,hb,hff,hfe,hz⟩ := WireRow.payload_head r.valid
  have hc : r.packet.2++r.others.flatMap Prod.snd=b::bs := by
    rw [←hb,←r.carried,List.flatMap_cons]
  have hlong : r.others≠[] → r.packet.2.length=maxPayload := by
    intro hne
    have hreg := r.regular
    cases ho : r.others with
    | nil => exact absurd ho hne
    | cons q qs =>
      rw [ho] at hreg
      exact hreg.1
  cases hp : r.packet.2 with
  | nil =>
    by_cases ho : r.others=[]
    · rw [hp,ho] at hc
      cases hc
    · have hl := hlong ho
      rw [hp] at hl
      exact absurd hl (by decide)
  | cons x body =>
    rw [hp,List.cons_append] at hc
    obtain ⟨hx,hbs⟩ := List.cons.inj hc
    subst hx
    refine ⟨x,body,rfl,by rw [hb,hbs],hff,?_,hz⟩
    intro h
    rw [←hp]
    by_cases ho : r.others=[]
    · have hreg := r.regular
      rw [ho] at hreg hbs
      have hl : r.packet.2.length < maxPayload := hreg
      rw [List.flatMap_nil,List.append_nil] at hbs
      have hlen := hfe h
      rw [hp,List.length_cons,hbs] at hl
      omega
    · rw [hlong ho]
      decide

/-- Putting a byte back moves the cursor back. -/
theorem unput_spec {r : Reader.State} {b : UInt8} {body later : List UInt8} {ps : List Packet}
    {log : List ℕ} (h : Represents r ⟨body,ps⟩ later log) :
    ∃ r',unput b r=.done () r' ∧ Represents r' ⟨b::body,ps⟩ later log := by
  have hleft : (r.payloadLength : ℤ)-r.packetOffset=body.length := h.left
  refine ⟨_,rfl,?_,?_,h.full,h.short,h.regular,h.headers⟩
  · change b::r.rest=b::body++_
    rw [h.rest,List.cons_append]
  · change (r.payloadLength : ℤ)-(r.packetOffset-1)=_
    rw [List.length_cons]
    push_cast
    omega

/-- The columns of a row are read as its values. -/
theorem readRow_spec {o : RowOptions} (ho : o.rowType.isLastColumn=false) (row : SentRow)
    {rs : Resultsets} (hcols : row.row.columns=rs.columns)
    (hprep : row.row.isPreparedStmt=rs.isPreparedStmt) {b : UInt8} {body : List UInt8}
    (hb : row.packet.2=b::body) (s : Protocol.State) {r : Reader.State} {later : List UInt8}
    {log : List ℕ} (hr : Represents r ⟨body,row.others⟩ later log) :
    ∃ r' c,readRow o rs (notRead b.toNat) (putReader r s)=
        .done (Row.ofValues o.rowType (row.row.values o),0) (putReader r' s) ∧
      Represents r' ⟨[],c⟩ later log ∧ (c=[] ∨ ∃ id,c=[(id,[])]) ∧
      (c≠[]↔maxPayload ∣ row.row.payload.length ∧ joins row.row.moves=false) := by
  have hM : 0 < maxPayload := by decide
  obtain ⟨b',body',hp,hpay,-,-,hz⟩ := row.head
  obtain ⟨rfl,rfl⟩ := List.cons.inj (hb.symm.trans hp)
  have hempty := nexts_endsEmpty_iff hM row.regular
  rw [row.carried] at hempty
  have hpos : 0 < row.row.payload.length := by
    rw [hpay,List.length_cons]
    omega
  have hiff : ∀ nexts : List Packet,
      (nexts≠[]↔row.others≠[] ∧ EndsEmpty row.others ∧ joins row.row.moves=false) →
      (nexts≠[]↔maxPayload ∣ row.row.payload.length ∧ joins row.row.moves=false) := by
    intro nexts h
    rw [h,←and_assoc,hempty,and_assoc]
    constructor
    · exact fun h => ⟨h.1,h.2.2⟩
    · exact fun h => ⟨h.1,hpos,h.2⟩
  have hvalid := row.valid
  cases hrow : row.row with
  | text cells =>
    rw [hrow] at hvalid hcols hprep hpay hiff
    obtain ⟨r₁,h₁,hr₁⟩ := unput_spec (b:=b) hr
    obtain ⟨r₂,nexts,h₂,hr₂,hone,hn⟩ := (reads_rowText ho cells hvalid.2).whole hr₁
      (by rw [Cursor.flatten,List.cons_append]; exact hpay.symm)
    refine ⟨r₂,nexts,?_,hr₂,hone,hiff nexts hn⟩
    have hmod : UInt8.ofNat (notRead b.toNat)=b := by
      rw [notRead,←UInt8.toNat_inj,UInt8.toNat_ofNat']
      have hlt := b.toNat_lt
      omega
    have hc : rs.columns=cells.map Prod.fst := hcols.symm
    have hf : rs.isPreparedStmt=false := hprep.symm
    unfold readRow
    rw [hf,hmod,hc,if_neg Bool.false_ne_true,bind_apply,read_apply]
    change (((unput b r).mapState _).andThen _)=_
    rw [h₁]
    change ((deserializeRowText o (cells.map Prod.fst) r₁).mapState _)=_
    rw [h₂]
    rfl
  | binary cells =>
    rw [hrow] at hvalid hcols hprep hpay hiff hz
    have hb0 : b=0 := hz rfl
    subst hb0
    have hflat : (Cursor.mk body row.others).flatten=binaryPayload cells :=
      (List.cons.inj hpay).2.symm
    obtain ⟨r₂,nexts,h₂,hr₂,hone,hn⟩ := (reads_rowBinary ho cells hvalid.1 hvalid.2).whole hr hflat
    refine ⟨r₂,nexts,?_,hr₂,hone,hiff nexts hn⟩
    have hc : rs.columns=cells.map Prod.fst := hcols.symm
    have ht : rs.isPreparedStmt=true := hprep.symm
    unfold readRow
    rw [ht,hc,if_pos rfl,read_apply]
    change ((deserializeRowBinary o (cells.map Prod.fst) r).mapState _)=_
    rw [h₂]
    rfl

/-- The bytes of the columns of a binary row. -/
def binaryCells (row : BinaryRow) : List UInt8 := row.flatMap (fun p => nullableCell p.2)

/-- A length is read within the last eight bytes of a row: of its column and
the ones after it, fewer than nine bytes are left. -/
def WireRow.EndsNear : WireRow → Prop
  | .text row => ∃ pre p post,row=pre++p::post ∧ (textPayload (p::post)).length < 9
  | .binary row => ∃ pre column v post,row=pre++(column,some (.blob v))::post ∧
      (binaryCells ((column,some (.blob v))::post)).length < 9

/-- The steps of a text column pass its bytes. -/
theorem total_textMoves (cell : TextCell) : total (textMoves cell)=(textCell cell).length := by
  cases cell with
  | none => rfl
  | some v => simp [textMoves,blobMoves,textCell,Move.size]

/-- The steps of a text row pass its payload. -/
theorem total_textRowMoves (row : TextRow) : total (textRowMoves row)=(textPayload row).length := by
  induction row with
  | nil => rfl
  | cons p ps ih =>
    simp only [textRowMoves,textPayload] at ih
    simp only [textRowMoves,textPayload,List.flatMap_cons,total_append,List.length_append,ih,
      total_textMoves]

/-- Reading a text row looks ahead past its end when a length is near it. -/
theorem joins_textRowMoves (row : TextRow) :
    joins (textRowMoves row)=true↔(WireRow.text row).EndsNear := by
  induction row with
  | nil =>
    simp only [textRowMoves,List.flatMap_nil,joins,Bool.false_eq_true,WireRow.EndsNear,false_iff]
    rintro ⟨pre,p,post,h,-⟩
    cases pre <;> cases h
  | cons p ps ih =>
    have hstep : joins (textRowMoves (p::ps))=true↔
        (textPayload (p::ps)).length < 9 ∨ joins (textRowMoves ps)=true := by
      have htot := total_textRowMoves ps
      have hmoves : textRowMoves (p::ps)=textMoves p.2++textRowMoves ps := List.flatMap_cons
      have hpay : textPayload (p::ps)=textCell p.2++textPayload ps := List.flatMap_cons
      rw [hmoves,hpay,List.length_append,←htot]
      cases p.2 with
      | none =>
        have hlen : (textCell none).length=1 := rfl
        simp only [textMoves,List.cons_append,List.nil_append,joins,Bool.or_eq_true,
          decide_eq_true_eq,hlen]
      | some v =>
        simp only [textMoves,blobMoves,textCell,List.cons_append,List.nil_append,joins,total_cons,
          Move.size,Bool.or_eq_true,decide_eq_true_eq,List.length_append,Nat.add_assoc]
    rw [hstep,ih]
    constructor
    · rintro (h|⟨pre,q,post,h,hl⟩)
      · exact ⟨[],p,ps,rfl,h⟩
      · exact ⟨p::pre,q,post,by rw [h,List.cons_append],hl⟩
    · rintro ⟨pre,q,post,h,hl⟩
      cases pre with
      | nil =>
        obtain ⟨rfl,rfl⟩ := List.cons.inj h
        exact .inl hl
      | cons p' pre =>
        obtain ⟨-,rfl⟩ := List.cons.inj h
        exact .inr ⟨pre,q,post,rfl,hl⟩

/-- Words are passed one by one. -/
theorem total_wordMoves (ws : List (ℕ×ℕ)) : total (wordMoves ws)=(wordsBytes ws).length := by
  induction ws with
  | nil => rfl
  | cons w ws ih =>
    simp only [wordMoves,wordsBytes] at ih
    simp only [wordMoves,wordsBytes,List.map_cons,List.flatMap_cons,total_cons,Move.size,ih,
      List.length_append,leBytes_length]

/-- The steps of a binary column pass its bytes. -/
theorem total_binaryMoves (cell : BinaryCell) :
    total (binaryMoves cell)=(binaryCell cell).length := by
  cases cell with
  | fixed raw => simp [binaryMoves,binaryCell,Move.size]
  | date d => exact total_wordMoves _
  | time t => exact total_wordMoves _
  | blob v => simp [binaryMoves,binaryCell,blobMoves,Move.size]

/-- The steps of binary columns pass their bytes. -/
theorem total_binaryCells (row : BinaryRow) :
    total (row.flatMap (fun p => nullableMoves p.2))=(binaryCells row).length := by
  induction row with
  | nil => rfl
  | cons p ps ih =>
    have hp : total (nullableMoves p.2)=(nullableCell p.2).length := by
      cases p.2 with
      | none => rfl
      | some cell => exact total_binaryMoves cell
    rw [binaryCells] at ih
    rw [binaryCells,List.flatMap_cons,List.flatMap_cons,total_append,List.length_append,ih,hp]

/-- Words never look ahead of themselves. -/
theorem joins_wordMoves (ws : List (ℕ×ℕ)) (ms : List Move) :
    joins (wordMoves ws++ms)=joins ms := by
  induction ws with
  | nil => rfl
  | cons w ws ih =>
    rw [wordMoves] at ih
    rw [wordMoves,List.map_cons,List.cons_append,joins,ih]
    have h : ¬(w.1+total (ws.map (fun w => Move.number w.1 w.1)++ms) < w.1) := by omega
    rw [decide_eq_false h,Bool.false_or]

/-- Reading a binary row looks ahead past its end when a length is near it. -/
theorem joins_binaryRowMoves (row : BinaryRow) :
    joins (binaryRowMoves row)=true↔(WireRow.binary row).EndsNear := by
  simp only [binaryRowMoves,joins]
  induction row with
  | nil =>
    simp only [List.flatMap_nil,joins,Bool.false_eq_true,WireRow.EndsNear,false_iff]
    rintro ⟨pre,column,v,post,h,-⟩
    cases pre <;> cases h
  | cons p ps ih =>
    obtain ⟨column,cell⟩ := p
    have htail : (WireRow.binary ((column,cell)::ps)).EndsNear↔
        (∃ v,cell=some (.blob v) ∧ (binaryCells ((column,cell)::ps)).length < 9) ∨
          (WireRow.binary ps).EndsNear := by
      constructor
      · rintro ⟨pre,column',v,post,h,hl⟩
        cases pre with
        | nil =>
          obtain ⟨h₁,rfl⟩ := List.cons.inj h
          injection h₁ with h₂ h₃
          subst h₂ h₃
          exact .inl ⟨v,rfl,hl⟩
        | cons p' pre =>
          obtain ⟨-,rfl⟩ := List.cons.inj h
          exact .inr ⟨pre,column',v,post,rfl,hl⟩
      · rintro (⟨v,rfl,hl⟩|⟨pre,column',v,post,h,hl⟩)
        · exact ⟨[],column,v,ps,rfl,hl⟩
        · exact ⟨_::pre,column',v,post,by rw [h,List.cons_append],hl⟩
    rw [htail,←ih,List.flatMap_cons]
    dsimp only
    have htot := total_binaryCells ps
    have quiet : ∀ ms,(∀ ns,joins (ms++ns)=joins ns) → (∀ v,cell≠some (.blob v)) →
        (joins (ms++ps.flatMap (fun p => nullableMoves p.2))=true↔
          (∃ v,cell=some (.blob v) ∧ (binaryCells ((column,cell)::ps)).length < 9) ∨
            joins (ps.flatMap (fun p => nullableMoves p.2))=true) := by
      intro ms hms hcell
      rw [hms]
      constructor
      · exact .inr
      · rintro (⟨v,hv,-⟩|h)
        · exact absurd hv (hcell v)
        · exact h
    cases cell with
    | none => exact quiet [] (fun _ => rfl) (fun v h => by cases h)
    | some cell =>
      cases cell with
      | fixed raw =>
        refine quiet _ (fun ns => ?_) (fun v h => by cases h)
        have h : ¬(raw.length+total ns < raw.length) := by omega
        simp only [nullableMoves,binaryMoves,List.cons_append,List.nil_append,joins,
          decide_eq_false h,Bool.false_or]
      | date d => exact quiet _ (joins_wordMoves _) (fun v h => by cases h)
      | time t => exact quiet _ (joins_wordMoves _) (fun v h => by cases h)
      | blob v =>
        have hcells : binaryCells ((column,some (.blob v))::ps)=
            (lenenc v.length++v)++binaryCells ps := List.flatMap_cons
        rw [hcells,List.length_append,List.length_append,←htot]
        generalize ps.flatMap (fun p => nullableMoves p.2)=ns
        simp only [nullableMoves,binaryMoves,blobMoves,List.cons_append,List.nil_append,joins,
          total_cons,Move.size,Bool.or_eq_true,decide_eq_true_eq,Option.some.injEq,
          BinaryCell.blob.injEq,exists_eq_left',Nat.add_assoc]

/-- Reading a row looks ahead past its end when a length is near it. -/
theorem WireRow.joins_moves (row : WireRow) : joins row.moves=true↔row.EndsNear := by
  cases row with
  | text row => exact joins_textRowMoves row
  | binary row => exact joins_binaryRowMoves row

/-- No empty packet is left behind a row: the row has none, or a length near
its end is read with the packet joined. -/
def SentRow.Aligned (row : SentRow) : Prop :=
  ¬(maxPayload ∣ row.row.payload.length) ∨ row.row.EndsNear

/-- What `fetch()` passes to the deserializers. -/
structure FetchOptions where
  /-- What a row is made of. -/
  rowType : RowType
  /-- Longer columns are read as `null`. -/
  maxColumnLen : ℕ
  /-- Columns of JSON stay strings. -/
  jsonAsString : Bool := false
  /-- Dates stay strings. -/
  datesAsString : Bool := false
  /-- Strings stay bytes. -/
  isForSerialize : Bool := false
deriving DecidableEq, Repr

/-- `fetch()` with its options. -/
def FetchOptions.fetch (o : FetchOptions) (cfg : Config) : Proto (Option Row) :=
  Results.fetch cfg o.rowType o.maxColumnLen o.jsonAsString o.datesAsString o.isForSerialize

/-- The options of the deserializers. -/
def FetchOptions.rowOptions (o : FetchOptions) (cfg : Config) (s : Protocol.State) : RowOptions :=
  Results.rowOptions cfg s o.rowType o.maxColumnLen o.jsonAsString o.datesAsString o.isForSerialize

/-- The row that `fetch()` returns. -/
def FetchOptions.row (o : FetchOptions) (cfg : Config) (s : Protocol.State) (row : WireRow) : Row :=
  Row.ofValues o.rowType (row.values (o.rowOptions cfg s))

/-- A resultset is open and its rows are of a kind. -/
structure Reading (s : Protocol.State) (rs : Resultsets) : Prop where
  /-- There are rows to read. -/
  state : s.state=.HAS_MORE_ROWS
  /-- They are those of the resultset. -/
  current : s.curResultsets=some rs

/-- The row belongs to a resultset. -/
structure SentRow.Of (row : SentRow) (rs : Resultsets) : Prop where
  /-- It has the columns. -/
  columns : row.row.columns=rs.columns
  /-- It is of the kind. -/
  isPreparedStmt : row.row.isPreparedStmt=rs.isPreparedStmt

/-- A state with rows to read lets `fetch()` read one. -/
theorem fetch_reading (cfg : Config) (o : FetchOptions) {s : Protocol.State} {rs : Resultsets}
    (h : Reading s rs) :
    o.fetch cfg s=(fetchRow cfg rs o.rowType o.maxColumnLen o.jsonAsString o.datesAsString
      o.isForSerialize {s with state := .QUERYING}).orElse rethrowError := by
  simp only [FetchOptions.fetch,Results.fetch,bind_apply,get_apply,Outcome.andThen_done,h.state,
    h.current,setState,modify_apply,attempt_apply]

/-- `fetch()` returns a row and leaves nothing of it but an empty packet. -/
theorem fetch_row_spec (cfg : Config) (o : FetchOptions) (ho : o.rowType.isLastColumn=false)
    {s : Protocol.State} {rs : Resultsets} (hs : Reading s rs) {row : SentRow} (hrow : row.Of rs)
    {later : List UInt8} {log : List ℕ} (h : Begins s row.packets later log) :
    ∃ r nexts,o.fetch cfg s=.done (some (o.row cfg s row.row))
        (putReader r {s with state := .HAS_MORE_ROWS}) ∧
      Represents r ⟨[],nexts⟩ later log ∧ (nexts=[] ∨ ∃ id,nexts=[(id,[])]) ∧
      (nexts=[]↔row.Aligned) := by
  obtain ⟨b,body,hb,-,hff,hfe,-⟩ := row.head
  have hq : Begins {s with state := .QUERYING} (row.packet::row.others) later log :=
    ⟨h.rest,h.regular,h.headers⟩
  obtain ⟨r₁,h₁,hr₁⟩ := readPacket_row cfg hq hb hfe hff
  have ho' : (o.rowOptions cfg s).rowType.isLastColumn=false := ho
  obtain ⟨r₂,nexts,h₂,hr₂,hone,hn⟩ := readRow_spec ho' row hrow.columns hrow.isPreparedStmt hb
    {s with state := .QUERYING} hr₁
  refine ⟨r₂,nexts,?_,hr₂,hone,?_⟩
  · rw [fetch_reading cfg o hs]
    have hne : ¬(notRead b.toNat=0xFE) := by
      unfold notRead
      omega
    have hopt : rowOptions cfg (putReader r₁ {s with state := .QUERYING}) o.rowType o.maxColumnLen
        o.jsonAsString o.datesAsString o.isForSerialize=o.rowOptions cfg s := rfl
    simp only [fetchRow,fetchOfType,bind_apply,h₁,Outcome.andThen_done,get_apply,if_neg hne,hopt,h₂,
      ho,Bool.false_eq_true,if_false,setState,modify_apply,pure_apply,Outcome.orElse_done]
    rfl
  · unfold SentRow.Aligned
    rw [←not_iff_not,not_or,not_not,←WireRow.joins_moves,Bool.not_eq_true]
    exact hn

/-- The state after the terminator of the rows. -/
def afterRows (s : Protocol.State) : Protocol.State :=
  if moreResultsExist s.statusFlags=true then {s with state := .HAS_MORE_RESULTSETS}
  else {s with curResultsets := none, state := .IDLE}

/-- The packet that carries a terminator. -/
def Terminator.packets (c : Capabilities) (id : UInt8) (t : Terminator) : List Packet :=
  [(id,t.payload c)]

/-- `fetch()` ends at a short terminator. -/
theorem fetch_terminator_spec (cfg : Config) (hsane : Sane cfg.capabilities) (o : FetchOptions)
    {s : Protocol.State} {rs : Resultsets} (hs : Reading s rs) {id : UInt8} {t : Terminator}
    (ht : t.Valid cfg.capabilities) (hl : (t.payload cfg.capabilities).length < 9)
    {later : List UInt8} {log : List ℕ}
    (h : Begins s (Terminator.packets cfg.capabilities id t) later log) :
    ∃ r info,o.fetch cfg s=.done none (afterRows (putReader r {t.set cfg.capabilities
        (acceptAt s.reader.rest.length {s with state := .QUERYING}) with statusInfo := info})) ∧
      Represents r ⟨[],[]⟩ later log := by
  have hq : Begins {s with state := .QUERYING} [(id,t.payload cfg.capabilities)] later log :=
    ⟨h.rest,h.regular,h.headers⟩
  have hread := readPacket_terminator cfg hsane
    (by decide : ReadPacketMode.ROWS_OR_PREPARED_STMT≠.PREPARED_STMT_OK_CONTINUATION) ht hl hq
  obtain ⟨info,heff⟩ := Terminator.effect_of_short cfg hsane hl
    (acceptAt s.reader.rest.length {s with state := .QUERYING})
  change Leaves (packetType .ROWS_OR_PREPARED_STMT 0xFE) _ _ _ _
    (t.effect cfg (acceptAt s.reader.rest.length {s with state := .QUERYING})) at hread
  rw [heff] at hread
  obtain ⟨r,hr,hr'⟩ := hread
  refine ⟨r,info,?_,hr'⟩
  rw [fetch_reading cfg o hs]
  have htype : packetType .ROWS_OR_PREPARED_STMT 0xFE=0xFE := rfl
  rw [htype] at hr
  simp only [fetchRow,fetchOfType,bind_apply,hr,Outcome.andThen_done,get_apply,if_true,branch_apply,setState,
    modify_apply,finishResultsets,pure_apply]
  unfold afterRows
  split <;> rfl

/-- Only an error of the server is thrown again as it is, and no error is a
result. -/
theorem rethrowError_ne_done {α : Type} (e : Error) (a : α) (s t : Protocol.State) :
    rethrowError e s≠.done a t := by
  intro h
  simp only [rethrowError,branch_apply,bind_apply,setState,modify_apply,Outcome.andThen_done,
    fail_apply] at h
  split at h <;> cases h

/-- `fetch()` takes a long terminator for a row. -/
theorem fetch_long_terminator (cfg : Config) (o : FetchOptions)
    {s : Protocol.State} {rs : Resultsets} (hs : Reading s rs) {id : UInt8} {t : Terminator}
    (hl : ¬((t.payload cfg.capabilities).length < 9)) {later : List UInt8} {log : List ℕ}
    (h : Begins s (Terminator.packets cfg.capabilities id t) later log) (u : Protocol.State) :
    o.fetch cfg s≠.done none u := by
  intro hdone
  have hq : Begins {s with state := .QUERYING} [(id,t.payload cfg.capabilities)] later log :=
    ⟨h.rest,h.regular,h.headers⟩
  have hbody : ∃ body,t.payload cfg.capabilities=0xFE::body := by
    cases t <;> exact ⟨_,rfl⟩
  obtain ⟨body,hbody⟩ := hbody
  obtain ⟨r,hread,-⟩ := readPacket_row cfg hq hbody (fun _ => not_lt.mp hl) (by decide)
  rw [fetch_reading cfg o hs] at hdone
  have hne : ¬(notRead (0xFE : UInt8).toNat=0xFE) := by decide
  simp only [fetchRow,fetchOfType,bind_apply,hread,Outcome.andThen_done,get_apply,if_neg hne] at hdone
  generalize readRow _ _ _ _=x at hdone
  cases x with
  | done row v =>
    simp only [Outcome.andThen_done,branch_apply,bind_apply,setState,modify_apply,pure_apply] at hdone
    split at hdone <;> cases hdone
  | thrown e v => exact rethrowError_ne_done e none v u hdone
  | waiting v => cases hdone

end SpiritMysql.RowFetch
