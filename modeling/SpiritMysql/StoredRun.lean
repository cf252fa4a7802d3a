import SpiritMysql.StoredValues

/-!
# Stored resultsets

`store()` keeps the rows of resultsets in memory until they are too many, then it moves
them to a file, where the following rows go too. The rows that are delivered later do not
tell where they were kept.
-/

namespace SpiritMysql.StoredRun

open AsyncAction ByteCodec ColumnValues Errors FileReads FileRows PacketSends RowCells RowLayout
open RowReader RowStream RowWriter StoredValues
open Reader (Read bufferLen maxPayload)
open Writer (Write)

/-! ## The code -/

/-- A row that `fetch()` delivered. -/
structure Fetched where
  /-- The values. -/
  values : List ColumnValue
  /-- `totalBytesInPacket` after the row. -/
  totalBytesInPacket : ℕ
deriving DecidableEq, Repr

/-- A resultset that is stored. -/
structure Resultset where
  /-- The columns. -/
  columns : List Column
  /-- The rows. -/
  rows : List Fetched
  /-- Each row has a value for each column. -/
  lengths : ∀ row ∈ rows,row.values.length=columns.length

/-- What is stored. -/
structure Store where
  /-- `resultsetsInfo`: how many rows, and their columns. -/
  info : List (ℕ×List Column) := []
  /-- The rows in memory. -/
  storedRows : List (List ColumnValue) := []
  /-- The serializer of the file, when there is one. -/
  serializer : Option Writer.State := none

/-- A serializer with its buffer. -/
def newSerializer : Writer.State := {buffer := List.replicate bufferLen 0}

/-- An operation of the serializer. -/
def onSerializer {α : Type} (x : Write α) : Act Error Store α :=
  onPart (fun st => st.serializer.getD newSerializer)
    (fun w st => {st with serializer := some w}) x

/-- Count a row of the last resultset. -/
def countRow : List (ℕ×List Column) → List (ℕ×List Column)
  | [] => []
  | [(nRows,columns)] => [(nRows+1,columns)]
  | r::rest => r::countRow rest

/-- The rows of all resultsets with their columns. -/
def rowsByInfo : List (ℕ×List Column) → List (List ColumnValue) → List ValueRow
  | [],_ => []
  | (nRows,columns)::info,rows =>
    (rows.take nRows).map (columns.zip ·)++rowsByInfo info (rows.drop nRows)

/-- Serialize rows one after another. -/
def serializeRows (o : RowOptions) (f : FloatWidths) : List ValueRow → Write Unit
  | [] => pure ()
  | row::rows => do
    serializeRowBinary o f row
    serializeRows o f rows

/-- Move the rows that are in memory to a file. -/
def spill (o : RowOptions) (f : FloatWidths) : Act Error Store Unit := do
  let st ← get
  onSerializer (do
    serializeBegin
    serializeRows o f (rowsByInfo st.info st.storedRows))
  modify fun st => {st with storedRows := []}

/-- One row of the loop of `store()`. -/
def storeRow (o : RowOptions) (f : FloatWidths) (storeResultsetIfBigger : ℕ) (columns : List Column)
    (row : Fetched) : Act Error Store Unit := do
  modify fun st => {st with info := countRow st.info}
  let st ← get
  if st.serializer.isSome=true then
    onSerializer (serializeRowBinary o f (columns.zip row.values))
  else do
    modify fun st => {st with storedRows := st.storedRows++[row.values]}
    doWhen (storeResultsetIfBigger < row.totalBytesInPacket) (spill o f)

/-- The rows of one resultset. -/
def storeRows (o : RowOptions) (f : FloatWidths) (storeResultsetIfBigger : ℕ)
    (columns : List Column) : List Fetched → Act Error Store Unit
  | [] => pure ()
  | row::rows => do
    storeRow o f storeResultsetIfBigger columns row
    storeRows o f storeResultsetIfBigger columns rows

/-- The resultsets one after another. -/
def storeResultsets (o : RowOptions) (f : FloatWidths) (storeResultsetIfBigger : ℕ) :
    List Resultset → Act Error Store Unit
  | [] => pure ()
  | r::rs => do
    modify fun st => {st with info := st.info++[(0,r.columns)]}
    storeRows o f storeResultsetIfBigger r.columns r.rows
    storeResultsets o f storeResultsetIfBigger rs

/-- `store()` of the resultsets that `fetch()` and `nextResultset()` deliver. -/
def store (o : RowOptions) (f : FloatWidths) (storeResultsetIfBigger : ℕ)
    (resultsets : List Resultset) : Act Error Store Unit :=
  if o.rowType≠.OBJECT ∧ o.rowType≠.ARRAY ∧ o.rowType≠.MAP then
    fail (.error <| "Invalid use of buffered() method. "++
      "This row type must be an object, an array or a map.")
  else storeResultsets o f storeResultsetIfBigger resultsets

/-- A row in memory as it is delivered. -/
def memoryRow (o : RowOptions) (columns : List Column) (values : List ColumnValue) : Row :=
  Row.ofValues o.rowType
    ((columns.zip values).map (fun p => (p.1,memoryValue o.jsonAsString p.1 p.2)))

/-- The iterators of all resultsets that are in memory. -/
def memoryRows (o : RowOptions) : List (ℕ×List Column) → List (List ColumnValue) → List (List Row)
  | [],_ => []
  | (nRows,columns)::info,rows =>
    (rows.take nRows).map (memoryRow o columns)::memoryRows o info (rows.drop nRows)

/-- The iterators of all resultsets that are in a file. -/
def fileRows (size : ℕ) (o : RowOptions) : List (ℕ×List Column) → Read (List (List Row))
  | [] => pure []
  | (nRows,columns)::info => do
    let rows ← readRows size o (List.replicate nRows columns)
    let rest ← fileRows size o info
    return rows::rest

/-- The iterators of all resultsets, one after another. The file is read from its
beginning. -/
def Store.deliver (o : RowOptions) (st : Store) : Outcome Error Reader.State (List (List Row)) :=
  match st.serializer with
  | none => .done (memoryRows o st.info st.storedRows) {rest := []}
  | some w =>
    match serializeEnd w with
    | .done _ w => fileRows w.buffer.length (fileOptions o) st.info {rest := w.out,closed := true}
    | .thrown e _ => .thrown e {rest := []}
    | .waiting _ => .waiting {rest := []}

/-! ## The file -/

section File

variable {o : RowOptions} {f : FloatWidths}

/-- The layout of rows in an empty file. -/
def layoutOf (o : RowOptions) (f : FloatWidths) (rows : List ValueRow) : Option Layout :=
  Layout.rows (rows.map (fun row => row.map (pieceOf o f))) ⟨bufferLen,0⟩

/-- The values of a row are stored without a loss. -/
def Kept (o : RowOptions) (row : ValueRow) : Prop := ∀ p ∈ row,Storable o p.1 p.2

/-- The rows are in the file and in the open packet of its serializer. -/
def InFile (o : RowOptions) (f : FloatWidths) (rows : List ValueRow) (w : Writer.State) : Prop :=
  ∃ l pre,At w l pre ∧ Filed (rows.map (formsOf o f)) w.out pre ∧ layoutOf o f rows=some l

/-- The layout of the rows at the beginning. -/
theorem layoutOf_front {a b : List ValueRow} {l : Layout} (h : layoutOf o f (a++b)=some l) :
    ∃ m,layoutOf o f a=some m ∧
      Layout.rows (b.map (fun row => row.map (pieceOf o f))) m=some l := by
  unfold layoutOf at h
  rw [List.map_append,rows_append] at h
  exact Option.bind_eq_some_iff.mp h

/-- A new file has no rows. -/
theorem inFile_begin : ∃ w,serializeBegin newSerializer=.done () w ∧ InFile o f [] w := by
  have hsize : newSerializer.buffer.length=bufferLen := List.length_replicate
  obtain ⟨w,hw,ho,hout,hlen⟩ := @openPacket_spec newSerializer rfl (by rw [hsize]; decide)
  refine ⟨w,hw,⟨bufferLen,0⟩,[],⟨ho,hlen.trans hsize,rfl,by decide,by decide⟩,?_,rfl⟩
  rw [hout]
  exact filed_nil

/-- A row is added to the file. -/
theorem inFile_row {rows : List ValueRow} {row : ValueRow} {w : Writer.State} {l : Layout}
    (hv : o.rowType≠.VOID) (hk : Kept o row) (h : InFile o f rows w)
    (hl : layoutOf o f (rows++[row])=some l) :
    ∃ t,serializeRowBinary o f row w=.done () t ∧ InFile o f (rows++[row]) t := by
  obtain ⟨m,pre,ha,hf,hm⟩ := h
  obtain ⟨m',hm',hrow⟩ := layoutOf_front hl
  cases hm.symm.trans hm'
  rw [List.map_singleton] at hrow
  obtain ⟨l',hl',hnil⟩ := Option.bind_eq_some_iff.mp hrow
  cases hnil
  have hfit : ∀ p ∈ row,p.2≠.null → Fits p.1.typeId (cellOf o f p.1 p.2) := fun p hp =>
    (storable_read f hv (hk p hp)).1
  obtain ⟨t,pre',ht,ha',hw⟩ := at_row row ha hfit hl'
  refine ⟨t,ht,l,pre',ha',?_,hl⟩
  rw [List.map_append,List.map_singleton]
  exact hf.put hw

/-- Rows are added to the file. -/
theorem inFile_rows {rows : List ValueRow} (more : List ValueRow) {w : Writer.State} {l : Layout}
    (hv : o.rowType≠.VOID) (hk : ∀ row ∈ more,Kept o row) (h : InFile o f rows w)
    (hl : layoutOf o f (rows++more)=some l) :
    ∃ t,serializeRows o f more w=.done () t ∧ InFile o f (rows++more) t := by
  induction more generalizing rows w with
  | nil => exact ⟨w,rfl,by rwa [List.append_nil]⟩
  | cons row more ih =>
    rw [List.append_cons] at hl
    obtain ⟨m,hm,-⟩ := layoutOf_front hl
    obtain ⟨t,ht,hi⟩ := inFile_row hv (hk row List.mem_cons_self) h hm
    obtain ⟨u,hu,hi'⟩ := ih (fun r hr => hk r (List.mem_cons_of_mem _ hr)) hi hl
    refine ⟨u,?_,by rwa [List.append_cons]⟩
    rw [serializeRows,bind_apply,ht,Outcome.andThen_done,hu]

/-- Every row has a null mask. -/
theorem payloadOf_nil {rows : List BinaryRow} (h : payloadOf rows=[]) : rows=[] := by
  cases rows with
  | nil => rfl
  | cons row rows =>
    have hpos := nullBitsLen_pos row.length
    have hle := nullBitsLen_le row
    have hz := congrArg List.length h
    unfold payloadOf at hz
    rw [List.flatMap_cons,List.length_append,List.length_nil] at hz
    omega

/-- After `serializeEnd()` all rows are in the file. -/
theorem inFile_end {rows : List ValueRow} {w : Writer.State} (h : InFile o f rows w) :
    ∃ t l,serializeEnd w=.done () t ∧ layoutOf o f rows=some l ∧ t.buffer.length=l.size ∧
      Filed (rows.map (formsOf o f)) t.out [] := by
  obtain ⟨l,pre,ha,hf,hl⟩ := h
  have hlast := ha.last
  have hfilled := ha.filled
  unfold serializeEnd
  rw [bind_apply,get_apply,Outcome.andThen_done,branch_apply]
  by_cases h4 : 4 < w.bufferEnd
  · rw [if_pos h4]
    obtain ⟨t,ht,-,hout,hlen⟩ := at_send ha
    refine ⟨t,l,ht,hl,hlen.trans ha.size,?_⟩
    rw [hout]
    refine hf.send _ ?_
    have hroom := ha.opened.room
    have hsize := ha.size
    have hsmall := ha.small
    rw [Nat.mod_eq_of_lt (by omega)]
    omega
  · rw [if_neg h4]
    have hpre : pre=[] := List.length_eq_zero_iff.mp (by omega)
    rw [hpre] at hf
    exact ⟨_,l,rfl,hl,ha.size,hf⟩

/-- A row of the file as it is delivered. -/
theorem rowsOf_forms {row : ValueRow} (hv : o.rowType≠.VOID) (hk : Kept o row) :
    Row.ofValues o.rowType (binaryValues (fileOptions o) (formsOf o f row))=
      Row.ofValues o.rowType (row.map (fun p => (p.1,memoryValue o.jsonAsString p.1 p.2))) := by
  congr 1
  unfold binaryValues formsOf
  rw [List.map_map]
  refine List.map_congr_left (fun p hp => ?_)
  exact congrArg _ (storable_read f hv (hk p hp)).2

/-- All rows of the file are read back. -/
theorem inFile_read {rows : List ValueRow} {w : Writer.State} (hv : o.rowType≠.VOID)
    (hr : o.rowType.isLastColumn=false) (hk : ∀ row ∈ rows,Kept o row) (h : InFile o f rows w) :
    ∃ t u,serializeEnd w=.done () t ∧
      readRows t.buffer.length (fileOptions o) (rows.map (fun row => row.map Prod.fst))
        {rest := t.out,closed := true}=.done (rows.map (fun row => Row.ofValues o.rowType
          (row.map (fun p => (p.1,memoryValue o.jsonAsString p.1 p.2))))) u ∧ u.rest=[] := by
  obtain ⟨t,l,ht,hl,hlen,groups,pending,hrows,hout,hpre,hm⟩ := inFile_end h
  rw [payloadOf_nil hpre.symm,List.append_nil] at hrows
  obtain ⟨-,hnulls⟩ := rows_size (show 0 < (⟨bufferLen,0⟩ : Layout).size by decide) hl
  have hsmall : l.size ≤ maxPayload+1 := by
    obtain ⟨l',pre,ha,-,hl'⟩ := h
    cases hl.symm.trans hl'
    exact ha.small
  have hread : ∀ g ∈ groups,∀ row ∈ g.2,Readable t.buffer.length row := by
    intro g hg row hrow
    have hmem : row ∈ rows.map (formsOf o f) := by
      rw [hrows]
      exact List.mem_flatMap.mpr ⟨g,hg,hrow⟩
    obtain ⟨values,hvalues,rfl⟩ := List.mem_map.mp hmem
    refine ⟨?_,?_⟩
    · have h := hnulls _ (List.mem_map.mpr ⟨values,hvalues,rfl⟩)
      rw [hlen,formsOf,List.length_map]
      rwa [List.length_map] at h
    · intro p hp cell hcell
      obtain ⟨q,hq,rfl⟩ := List.mem_map.mp hp
      dsimp only at hcell
      split at hcell
      · cases hcell
      · next hne =>
        cases hcell
        exact (storable_read f hv (hk values hvalues q hq)).1 hne
  have hbetween : Between {rest := t.out,closed := true}
      (groups.flatMap (fun g => PacketFraming.emission g.1 (payloadOf g.2))) := ⟨hout,rfl⟩
  obtain ⟨u,hu,hb⟩ := @readRows_groups _ (fileOptions o) _ hr (by rw [hlen]; exact hsmall) groups
    hread hm hbetween
  rw [←hrows] at hu
  refine ⟨t,u,ht,?_,hb.rest⟩
  have hcolumns : columnsOf (rows.map (formsOf o f))=rows.map (fun row => row.map Prod.fst) := by
    unfold columnsOf formsOf
    rw [List.map_map]
    refine List.map_congr_left (fun row _ => ?_)
    simp only [Function.comp_apply,List.map_map]
    rfl
  have hvalues : rowsOf (fileOptions o) (rows.map (formsOf o f))=rows.map (fun row =>
      Row.ofValues o.rowType
        (row.map (fun p => (p.1,memoryValue o.jsonAsString p.1 p.2)))) := by
    unfold rowsOf
    rw [List.map_map]
    exact List.map_congr_left (fun row hrow => @rowsOf_forms o f row hv (hk row hrow))
  rw [←hcolumns,hu,hvalues]

end File

/-! ## The run -/

/-- Resultsets: their columns, and the values of their rows. -/
abbrev Tables := List (List Column×List (List ColumnValue))

/-- The rows with their columns. -/
def valueRows (tables : Tables) : List ValueRow := tables.flatMap (fun r => r.2.map (r.1.zip ·))

/-- The `resultsetsInfo` of resultsets. -/
def infoOf (tables : Tables) : List (ℕ×List Column) := tables.map (fun r => (r.2.length,r.1))

/-- The rows of all resultsets. -/
def valuesOf (tables : Tables) : List (List ColumnValue) := tables.flatMap Prod.snd

/-- The columns and the values of a resultset. -/
def Resultset.table (r : Resultset) : List Column×List (List ColumnValue) :=
  (r.columns,r.rows.map Fetched.values)

/-- What is stored are these resultsets: their rows are in memory or in the file. -/
structure Holds (o : RowOptions) (f : FloatWidths) (tables : Tables) (st : Store) : Prop where
  /-- The sizes and the columns. -/
  info : st.info=infoOf tables
  /-- The rows. -/
  rows : (st.serializer=none ∧ st.storedRows=valuesOf tables) ∨
    ∃ w,st.serializer=some w ∧ InFile o f (valueRows tables) w

/-- The rows of a resultset one after another. -/
theorem valueRows_last (tables : Tables) (columns : List Column) (a b : List (List ColumnValue)) :
    valueRows (tables++[(columns,a++b)])=
      valueRows (tables++[(columns,a)])++b.map (columns.zip ·) := by
  unfold valueRows
  simp only [List.flatMap_append,List.flatMap_singleton,List.map_append,List.append_assoc]

theorem valueRows_append (a b : Tables) : valueRows (a++b)=valueRows a++valueRows b :=
  List.flatMap_append

/-- Counting a row. -/
theorem countRow_infoOf (tables : Tables) (columns : List Column) (rows : List (List ColumnValue))
    (values : List ColumnValue) : countRow (infoOf (tables++[(columns,rows)]))=
      infoOf (tables++[(columns,rows++[values])]) := by
  induction tables with
  | nil =>
    unfold infoOf
    rw [List.nil_append,List.nil_append,List.map_singleton,List.map_singleton,List.length_append]
    rfl
  | cons r rest ih =>
    have hne : infoOf (rest++[(columns,rows)])≠[] := by
      unfold infoOf
      rw [List.map_append]
      exact List.append_ne_nil_of_right_ne_nil _ (List.cons_ne_nil _ _)
    have hstep : ∀ p (ps : List (ℕ×List Column)),ps≠[] → countRow (p::ps)=p::countRow ps := by
      intro p ps hps
      cases ps with
      | nil => exact absurd rfl hps
      | cons q qs => rfl
    exact (hstep _ _ hne).trans (congrArg _ ih)

/-- The stored rows find their columns. -/
theorem rowsByInfo_tables (tables : Tables) :
    rowsByInfo (infoOf tables) (valuesOf tables)=valueRows tables := by
  induction tables with
  | nil => rfl
  | cons r rest ih =>
    show (List.take r.2.length (r.2++valuesOf rest)).map (r.1.zip ·)++
      rowsByInfo (infoOf rest) (List.drop r.2.length (r.2++valuesOf rest))=_
    rw [List.take_left,List.drop_left,ih]
    rfl

/-- The resultsets that are delivered from memory. -/
theorem memoryRows_tables (o : RowOptions) (tables : Tables) :
    memoryRows o (infoOf tables) (valuesOf tables)=
      tables.map (fun r => r.2.map (memoryRow o r.1)) := by
  induction tables with
  | nil => rfl
  | cons r rest ih =>
    show (List.take r.2.length (r.2++valuesOf rest)).map (memoryRow o r.1)::
      memoryRows o (infoOf rest) (List.drop r.2.length (r.2++valuesOf rest))=_
    rw [List.take_left,List.drop_left,ih]
    rfl

/-- The rows of a file are those of one resultset after another. -/
theorem fileRows_split {size : ℕ} {o : RowOptions} (info : List (ℕ×List Column))
    (nested : List (List Row)) (hlen : nested.map List.length=info.map Prod.fst)
    {s u : Reader.State}
    (h : readRows size o (info.flatMap (fun r => List.replicate r.1 r.2)) s=
      .done nested.flatten u) : fileRows size o info s=.done nested u := by
  induction info generalizing nested s with
  | nil =>
    rw [List.map_nil] at hlen
    rw [List.map_eq_nil_iff.mp hlen] at h ⊢
    cases h
    rfl
  | cons r info ih =>
    cases nested with
    | nil => cases hlen
    | cons rows nested =>
      rw [List.map_cons,List.map_cons,List.cons.injEq] at hlen
      rw [List.flatMap_cons] at h
      obtain ⟨xs,ys,t,hx,hy,hxy,hl⟩ := readRows_split h
      rw [List.length_replicate] at hl
      rw [List.flatten_cons] at hxy
      obtain ⟨rfl,rfl⟩ := List.append_inj hxy (hlen.1.trans hl.symm)
      have hrest := ih nested hlen.2 hy
      rw [fileRows,bind_apply,hx,Outcome.andThen_done,bind_apply,hrest]
      rfl

section Run

variable {o : RowOptions} {f : FloatWidths} {big : ℕ} {st : Store}

/-- All rows of resultsets are stored without a loss. -/
def AllKept (o : RowOptions) (tables : Tables) : Prop := ∀ row ∈ valueRows tables,Kept o row

/-- The rows in memory are moved to a file. -/
theorem spill_holds {tables : Tables} {l : Layout} (hv : o.rowType≠.VOID) (hk : AllKept o tables)
    (hl : layoutOf o f (valueRows tables)=some l) (hinfo : st.info=infoOf tables)
    (hnone : st.serializer=none) (hrows : st.storedRows=valuesOf tables) :
    ∃ st',spill o f st=.done () st' ∧ Holds o f tables st' := by
  obtain ⟨w,hw,hi⟩ := @inFile_begin o f
  obtain ⟨t,ht,hi'⟩ := @inFile_rows o f [] (valueRows tables) w l hv hk hi
    (by rwa [List.nil_append])
  rw [List.nil_append] at hi'
  refine ⟨{st with serializer := some t,storedRows := []},?_,hinfo,.inr ⟨t,rfl,hi'⟩⟩
  unfold spill onSerializer
  rw [bind_apply,get_apply,Outcome.andThen_done,bind_apply,onPart_apply,hnone,hinfo,hrows,
    rowsByInfo_tables,Option.getD_none,bind_apply,hw,Outcome.andThen_done,ht]
  rfl

/-- A row is stored. -/
theorem storeRow_holds {tables : Tables} {columns : List Column} {rows : List (List ColumnValue)}
    {row : Fetched} {l : Layout} (hv : o.rowType≠.VOID)
    (hk : AllKept o (tables++[(columns,rows++[row.values])]))
    (hl : layoutOf o f (valueRows (tables++[(columns,rows++[row.values])]))=some l)
    (h : Holds o f (tables++[(columns,rows)]) st) :
    ∃ st',storeRow o f big columns row st=.done () st' ∧
      Holds o f (tables++[(columns,rows++[row.values])]) st' := by
  have hinfo := congrArg countRow h.info
  rw [countRow_infoOf _ _ _ row.values] at hinfo
  have hlast := valueRows_last tables columns rows [row.values]
  rw [List.map_singleton] at hlast
  unfold storeRow
  rw [bind_apply,modify_apply,Outcome.andThen_done,bind_apply,get_apply,Outcome.andThen_done,
    branch_apply]
  rcases h.rows with ⟨hnone,hrows⟩|⟨w,hsome,hi⟩
  · have hvalues : st.storedRows++[row.values]=
        valuesOf (tables++[(columns,rows++[row.values])]) := by
      rw [hrows]
      unfold valuesOf
      simp only [List.flatMap_append,List.flatMap_singleton,List.append_assoc]
    rw [if_neg (by rw [hnone]; exact Bool.false_ne_true),bind_apply,modify_apply,
      Outcome.andThen_done]
    unfold doWhen
    by_cases hbig : big < row.totalBytesInPacket
    · rw [if_pos hbig]
      exact spill_holds hv hk hl hinfo hnone hvalues
    · rw [if_neg hbig]
      exact ⟨_,rfl,hinfo,.inl ⟨hnone,hvalues⟩⟩
  · have hkept : Kept o (columns.zip row.values) := hk _ (by
      rw [hlast]
      exact List.mem_append_right _ (List.mem_singleton.mpr rfl))
    rw [hlast] at hl
    obtain ⟨t,ht,hi'⟩ := inFile_row hv hkept hi hl
    rw [←hlast] at hi'
    refine ⟨{st with info := countRow st.info,serializer := some t},?_,hinfo,.inr ⟨t,rfl,hi'⟩⟩
    rw [if_pos (by rw [hsome]; rfl)]
    unfold onSerializer
    rw [onPart_apply,hsome,Option.getD_some,ht,Outcome.mapState_done]

/-- The rows of a resultset are stored. -/
theorem storeRows_holds {tables : Tables} {columns : List Column} (more : List Fetched)
    {rows : List (List ColumnValue)} {l : Layout} (hv : o.rowType≠.VOID)
    (hk : AllKept o (tables++[(columns,rows++more.map Fetched.values)]))
    (hl : layoutOf o f (valueRows (tables++[(columns,rows++more.map Fetched.values)]))=some l)
    (h : Holds o f (tables++[(columns,rows)]) st) :
    ∃ st',storeRows o f big columns more st=.done () st' ∧
      Holds o f (tables++[(columns,rows++more.map Fetched.values)]) st' := by
  induction more generalizing rows st with
  | nil =>
    rw [List.map_nil,List.append_nil]
    exact ⟨st,rfl,h⟩
  | cons row more ih =>
    rw [List.map_cons,List.append_cons rows] at hk hl ⊢
    have hk₁ : AllKept o (tables++[(columns,rows++[row.values])]) := fun r hr => hk r (by
      rw [valueRows_last]
      exact List.mem_append_left _ hr)
    rw [valueRows_last] at hl
    obtain ⟨m,hm,-⟩ := layoutOf_front hl
    obtain ⟨t,ht,hi⟩ := @storeRow_holds o f big st tables columns rows row m hv hk₁ hm h
    rw [←valueRows_last] at hl
    obtain ⟨u,hu,hi'⟩ := ih hk hl hi
    exact ⟨u,by rw [storeRows,bind_apply,ht,Outcome.andThen_done,hu],hi'⟩

/-- Resultsets are stored. -/
theorem storeResultsets_holds (resultsets : List Resultset) {tables : Tables} {l : Layout}
    (hv : o.rowType≠.VOID) (hk : AllKept o (tables++resultsets.map Resultset.table))
    (hl : layoutOf o f (valueRows (tables++resultsets.map Resultset.table))=some l)
    (h : Holds o f tables st) : ∃ st',storeResultsets o f big resultsets st=.done () st' ∧
      Holds o f (tables++resultsets.map Resultset.table) st' := by
  induction resultsets generalizing tables st with
  | nil =>
    rw [List.map_nil,List.append_nil]
    exact ⟨st,rfl,h⟩
  | cons r rs ih =>
    rw [List.map_cons,List.append_cons tables] at hk hl ⊢
    have hnew : Holds o f (tables++[(r.columns,[])])
        {st with info := st.info++[(0,r.columns)]} := by
      refine ⟨?_,?_⟩
      · show st.info++[(0,r.columns)]=_
        rw [h.info]
        unfold infoOf
        rw [List.map_append]
        rfl
      · have hvalues : valuesOf (tables++[(r.columns,[])])=valuesOf tables := by
          unfold valuesOf
          rw [List.flatMap_append,List.flatMap_singleton,List.append_nil]
        have hrows : valueRows (tables++[(r.columns,[])])=valueRows tables := by
          rw [valueRows_append]
          exact List.append_nil _
        rw [hvalues,hrows]
        exact h.rows
    have hk₁ : AllKept o (tables++[r.table]) := fun row hrow => hk row (by
      rw [valueRows_append]
      exact List.mem_append_left _ hrow)
    rw [valueRows_append] at hl
    obtain ⟨m,hm,-⟩ := layoutOf_front hl
    obtain ⟨t,ht,hi⟩ := @storeRows_holds o f big _ tables r.columns r.rows [] m hv hk₁ hm hnew
    rw [←valueRows_append] at hl
    obtain ⟨u,hu,hi'⟩ := ih hk hl hi
    refine ⟨u,?_,hi'⟩
    rw [storeResultsets,bind_apply,modify_apply,Outcome.andThen_done,bind_apply,ht,
      Outcome.andThen_done,hu]

/-- What is stored is delivered. -/
theorem holds_deliver {tables : Tables} (hv : o.rowType≠.VOID)
    (hr : o.rowType.isLastColumn=false) (hk : AllKept o tables)
    (hlen : ∀ r ∈ tables,∀ values ∈ r.2,values.length=r.1.length) (h : Holds o f tables st) :
    ∃ u,st.deliver o=.done (tables.map (fun r => r.2.map (memoryRow o r.1))) u := by
  unfold Store.deliver
  rcases h.rows with ⟨hnone,hrows⟩|⟨w,hsome,hi⟩
  · rw [hnone,h.info,hrows]
    dsimp only
    rw [memoryRows_tables]
    exact ⟨_,rfl⟩
  · obtain ⟨t,u,ht,hread,-⟩ := inFile_read hv hr hk hi
    rw [hsome,h.info]
    dsimp only
    rw [ht]
    dsimp only
    refine ⟨u,fileRows_split _ _ ?_ ?_⟩
    · unfold infoOf
      simp only [List.map_map]
      refine List.map_congr_left (fun r _ => ?_)
      simp only [Function.comp_apply,List.length_map]
    · have hcolumns : (infoOf tables).flatMap (fun r => List.replicate r.1 r.2)=
          (valueRows tables).map (fun row => row.map Prod.fst) := by
        unfold infoOf valueRows
        rw [List.flatMap_map,List.map_flatMap]
        refine List.flatMap_congr (fun r hr => ?_)
        rw [List.map_map,←List.map_const']
        exact List.map_congr_left (fun values hvalues =>
          (List.map_fst_zip (hlen r hr values hvalues).ge).symm)
      have hrowsOf : (tables.map (fun r => r.2.map (memoryRow o r.1))).flatten=
          (valueRows tables).map (fun row => Row.ofValues o.rowType
            (row.map (fun p => (p.1,memoryValue o.jsonAsString p.1 p.2)))) := by
        unfold valueRows
        rw [List.map_flatMap,←List.flatMap_def]
        exact List.flatMap_congr (fun r _ => by rw [List.map_map]; rfl)
      rw [hcolumns,hread,hrowsOf]

end Run

/-! ## Storing and delivering -/

/-- The rows have a place in a file, wherever they are cut into packets. -/
def Placed (o : RowOptions) (f : FloatWidths) (resultsets : List Resultset) : Prop :=
  (layoutOf o f (valueRows (resultsets.map Resultset.table))).isSome=true

instance (o : RowOptions) (f : FloatWidths) (resultsets : List Resultset) :
    Decidable (Placed o f resultsets) := inferInstanceAs (Decidable (_=true))

/-- Rows of at most 4092 bytes have a place. -/
theorem placed_of_small {o : RowOptions} {f : FloatWidths} {resultsets : List Resultset}
    (h : ∀ r ∈ resultsets,∀ row ∈ r.rows,nullBitsLen (r.columns.zip row.values).length+
      bytesOf ((r.columns.zip row.values).map (pieceOf o f)) ≤ 4092) : Placed o f resultsets := by
  obtain ⟨l,hl⟩ := @rows_fit ((valueRows (resultsets.map Resultset.table)).map
    (fun row => row.map (pieceOf o f))) ⟨bufferLen,0⟩ (by decide) (by
      intro row hrow
      obtain ⟨values,hvalues,rfl⟩ := List.mem_map.mp hrow
      obtain ⟨table,htable,hin⟩ := List.mem_flatMap.mp hvalues
      obtain ⟨r,hr,rfl⟩ := List.mem_map.mp htable
      obtain ⟨vs,hvs,rfl⟩ := List.mem_map.mp hin
      obtain ⟨fetched,hfetched,rfl⟩ := List.mem_map.mp hvs
      have hsmall := h r hr fetched hfetched
      have hb : bufferLen=8192 := rfl
      rw [List.length_map,hb]
      show 2*(nullBitsLen (r.columns.zip fetched.values).length+
        bytesOf ((r.columns.zip fetched.values).map (pieceOf o f)))+8 ≤ 8192
      omega)
  unfold Placed layoutOf
  rw [hl]
  rfl

/-- Options that keep rows as objects. -/
def plainOptions : RowOptions :=
  {rowType := .OBJECT,maxColumnLen := 1000,convColumnValue := fun _ v => .bytes v}

/-- Floating-point numbers are stored in their own width only. -/
def sameWidths : FloatWidths := ⟨id,id⟩

/-- A column of integers. -/
def idColumn : Column := {name := [1],typeId := .LONG}

/-- A column of strings. -/
def textColumn : Column := {name := [2],typeId := .OTHER 253,charsetId := 33}

/-- A column of times. -/
def timeColumn : Column := {name := [3],typeId := .TIME}

/-- Two rows of two columns. -/
def twoRows : List Fetched := [⟨[.number 7,.bytes [65,66]],12⟩,⟨[.number (-1),.null],20⟩]

/-- One row of one column. -/
def oneRow : List Fetched := [⟨[.seconds (-3601000000)],31⟩]

theorem twoRows_lengths : ∀ row ∈ twoRows,row.values.length=[idColumn,textColumn].length := by
  decide

theorem oneRow_lengths : ∀ row ∈ oneRow,row.values.length=[timeColumn].length := by decide

/-- Two resultsets. The second row is the first that is too much for the memory. -/
def twoResultsets : List Resultset :=
  [⟨[idColumn,textColumn],twoRows,twoRows_lengths⟩,⟨[timeColumn],oneRow,oneRow_lengths⟩]

end SpiritMysql.StoredRun
