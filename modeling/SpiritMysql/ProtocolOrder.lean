import SpiritMysql.ReadOrder
import SpiritMysql.Results

/-!
# What the protocol never undoes

Whatever the server sends, an operation of the protocol only adds to the
records of packet headers and of packets taken for OK, EOF or ERR.
-/

namespace SpiritMysql.ProtocolOrder

open AsyncAction ColumnValues Errors Protocol ReadOrder Reader Results RowReader

variable {α β : Type}

/-- The records grew, and without a new header the reader stayed in its
packet. -/
structure Follows (s t : Protocol.State) : Prop where
  /-- The reader went on. -/
  reader : Extends s.reader t.reader
  /-- Packets are only added. -/
  accepted : s.accepted <+: t.accepted

/-- The relation holds of a state and itself. -/
theorem Follows.refl (s : Protocol.State) : Follows s s := ⟨Extends.refl _,List.prefix_refl _⟩

/-- The relation passes through an intermediate state. -/
theorem Follows.trans (s t u : Protocol.State) (h : Follows s t) (k : Follows t u) : Follows s u :=
  ⟨Extends.trans _ _ _ h.reader k.reader,h.accepted.trans k.accepted⟩

/-- The state after an operation comes from the state before it. -/
abbrev Grows (x : Proto α) : Prop := Always Follows x

/-- Reading goes on. -/
theorem grows_read {x : Read α} (h : Keeps x) : Grows (read x) := by
  intro s
  have hk := h s.reader
  rw [read_apply]
  cases hx : x s.reader with
  | done a r =>
    rw [hx] at hk
    exact ⟨hk,List.prefix_refl _⟩
  | thrown e r =>
    rw [hx] at hk
    exact ⟨hk,List.prefix_refl _⟩
  | waiting r =>
    rw [hx] at hk
    exact ⟨hk,List.prefix_refl _⟩

/-- Setting other fields loses nothing. -/
theorem grows_modify {u : Protocol.State → Protocol.State} (hr : ∀ s,(u s).reader=s.reader)
    (ha : ∀ s,s.accepted <+: (u s).accepted) : Grows (modify u) := by
  intro s
  refine ⟨?_,ha s⟩
  have h : (u s).reader=s.reader := hr s
  simp only [modify_apply,Outcome.state,h]
  exact Extends.refl _

theorem grows_pure (a : α) : Grows (pure a : Proto α) := Always.pure Follows.refl a

theorem grows_fail (e : Error) : Grows (fail e : Proto α) := Always.fail Follows.refl e

theorem grows_wait : Grows (wait : Proto α) := Always.wait Follows.refl

theorem grows_get : Grows (get : Proto Protocol.State) := Always.get Follows.refl

theorem Grows.bind {x : Proto α} {f : α → Proto β} (hx : Grows x) (hf : ∀ a,Grows (f a)) :
    Grows (x >>= f) := Always.bind Follows.trans hx hf

/-- Setting fields that are no records. -/
theorem grows_set {u : Protocol.State → Protocol.State} (hr : ∀ s,(u s).reader=s.reader)
    (ha : ∀ s,(u s).accepted=s.accepted) : Grows (modify u) :=
  grows_modify hr (fun s => by simp only [ha,List.prefix_refl])

/-- A packet that is taken for OK, EOF or ERR is recorded. -/
theorem grows_accept : Grows (modify Protocol.State.accept) :=
  grows_modify (fun _ => rfl) (fun _ => List.prefix_append _ _)

theorem grows_readSessionChange (cfg : Config) : Grows (readSessionChange cfg) := by
  unfold readSessionChange setCharacterSetClient setCharacterSetResults setTimeZone
  refine (grows_read (keeps_readFixed 1 |>.bind fun _ => keeps_pure _)).bind ?_
  intro changeType
  refine Always.ite ?_ (Always.ite ?_ ?_)
  · refine (grows_read keeps_readLenencInt).bind (fun _ => ?_)
    refine (grows_read keeps_readShortLenencBytes).bind (fun name => ?_)
    refine (grows_read keeps_readShortLenencBytes).bind (fun value => ?_)
    refine Always.ite (Always.ite (grows_pure _) (grows_fail _)) ?_
    refine Always.ite (Always.ite (grows_set (by intro _; rfl) (by intro _; rfl))
      (Always.ite (grows_set (by intro _; rfl) (by intro _; rfl)) (grows_fail _))) ?_
    exact Always.ite (grows_set (by intro _; rfl) (by intro _; rfl)) (grows_pure _)
  · refine (grows_read keeps_readLenencInt).bind (fun _ => ?_)
    refine (grows_read keeps_readShortLenencBytes).bind (fun schema => ?_)
    exact grows_set (by intro _; rfl) (by intro _; rfl)
  · exact (grows_read keeps_readShortLenencBytes).bind (fun _ => grows_pure _)

theorem grows_readSessionChanges (cfg : Config) (bound : ℤ) (fuel : ℕ) :
    Grows (readSessionChanges cfg bound fuel) := by
  induction fuel with
  | zero => exact grows_wait
  | succ fuel ih =>
    refine grows_get.bind (fun s => Always.ite ?_ (grows_pure _))
    exact (grows_readSessionChange cfg).bind (fun _ => ih)

theorem grows_gotoEndOfPacket : Grows (read gotoEndOfPacket) := grows_read keeps_gotoEndOfPacket

theorem grows_readWord (k : ℕ) : Grows (read (do return ByteCodec.leNat (←readFixed k))) :=
  grows_read ((keeps_readFixed k).bind (fun _ => keeps_pure _))

theorem grows_readChanges (cfg : Config) : Grows (readChanges cfg) := by
  refine grows_get.bind (fun s => Always.ite ?_ grows_gotoEndOfPacket)
  refine (grows_read keeps_readLenencInt).bind (fun _ => grows_get.bind (fun s => ?_))
  exact (grows_readSessionChanges cfg _ _).bind (fun _ => grows_gotoEndOfPacket)

theorem grows_readOkInfo (cfg : Config) : Grows (readOkInfo cfg) := by
  refine grows_get.bind (fun s => Always.ite (grows_pure _) (Always.ite ?_ ?_))
  · refine (grows_read keeps_readShortLenencBytes).bind (fun info => ?_)
    exact (grows_set (by intro _; rfl) (by intro _; rfl)).bind (fun _ => grows_readChanges cfg)
  · refine (grows_read keeps_readShortEofBytes).bind (fun info => ?_)
    exact grows_set (by intro _; rfl) (by intro _; rfl)

theorem grows_readOk (cfg : Config) : Grows (readOk cfg) := by
  refine Grows.bind ?_ (fun _ => grows_readOkInfo cfg)
  refine (grows_read keeps_readLenencInt).bind (fun _ => ?_)
  refine (grows_set (by intro _; rfl) (by intro _; rfl)).bind (fun _ => ?_)
  refine (grows_read keeps_readLenencInt).bind (fun _ => ?_)
  refine (grows_set (by intro _; rfl) (by intro _; rfl)).bind (fun _ => ?_)
  refine Always.ite ?_ (Always.ite ?_ (grows_pure _))
  · refine (grows_readWord 2).bind (fun _ => ?_)
    refine (grows_set (by intro _; rfl) (by intro _; rfl)).bind (fun _ => ?_)
    exact (grows_readWord 2).bind (fun _ => grows_set (by intro _; rfl) (by intro _; rfl))
  · exact (grows_readWord 2).bind (fun _ => grows_set (by intro _; rfl) (by intro _; rfl))

theorem grows_readEof (cfg : Config) : Grows (readEof cfg) := by
  refine Always.ite ?_ grows_gotoEndOfPacket
  refine (grows_readWord 2).bind (fun _ => ?_)
  refine (grows_set (by intro _; rfl) (by intro _; rfl)).bind (fun _ => ?_)
  refine (grows_readWord 2).bind (fun _ => ?_)
  exact (grows_set (by intro _; rfl) (by intro _; rfl)).bind (fun _ => grows_gotoEndOfPacket)

theorem grows_readErr (cfg : Config) : Grows (readErr cfg : Proto α) := by
  refine (grows_readWord 2).bind (fun _ => ?_)
  refine Grows.bind (Always.ite (grows_read (keeps_readShortBytes _)) (grows_pure _)) (fun _ => ?_)
  refine (grows_read keeps_readShortEofBytes).bind (fun _ => ?_)
  exact grows_get.bind (fun s => grows_fail _)

theorem grows_readPacketBody (cfg : Config) (mode : ReadPacketMode) (type : ℕ) :
    Grows (readPacketBody cfg mode type) := by
  refine grows_get.bind (fun s => Always.ite (grows_pure _) (Always.ite ?_ (Always.ite ?_ ?_)))
  · exact grows_accept.bind (fun _ => (grows_readEof cfg).bind (fun _ => grows_pure _))
  · refine Always.ite (grows_pure _) ?_
    exact grows_accept.bind (fun _ => (grows_readOk cfg).bind (fun _ => grows_pure _))
  · exact Always.ite (grows_accept.bind (fun _ => grows_readErr cfg)) (grows_pure _)

/-- `#readPacket()` only adds to the records. -/
theorem grows_readPacket (cfg : Config) (mode : ReadPacketMode) : Grows (readPacket cfg mode) := by
  refine Always.ite (grows_readPacketBody cfg mode 0) ?_
  refine (grows_read keeps_readPacketHeader).bind (fun _ => ?_)
  exact (grows_readWord 1).bind (fun type => grows_readPacketBody cfg mode type)

theorem keeps_word (k : ℕ) : Keeps (do return ByteCodec.leNat (←readFixed k)) :=
  (keeps_readFixed k).bind (fun _ => keeps_pure _)

theorem keeps_readLengthColumn (o : RowOptions) (isLast : Bool) (len : ℤ) {conv : Read ColumnValue}
    (h : Keeps conv) : Keeps (readLengthColumn o isLast len conv) := by
  unfold readLengthColumn
  refine Always.ite (keeps_pure _) (Always.ite ?_ ?_)
  · exact (keeps_readVoid len).bind (fun _ => keeps_pure _)
  · exact h.bind (fun _ => keeps_pure _)

theorem keeps_readColumnBytes (len : ℤ) : Keeps (readColumnBytes len) :=
  Always.ite (keeps_readShortBytes len) (keeps_readBytesToBuffer _)

/-- The columns of a text row keep the records. -/
theorem keeps_readTextColumns (o : RowOptions) (columns : List Column) (row : Row) :
    Keeps (readTextColumns o columns row) := by
  induction columns generalizing row with
  | nil => exact keeps_pure _
  | cons column columns ih =>
    refine Keeps.bind ?_ (fun value => (ih _).bind (fun _ => keeps_pure _))
    refine keeps_readLenencInt.bind (fun len => Always.ite (keeps_fail _) (Always.ite (keeps_pure _) ?_))
    exact keeps_readLengthColumn o _ len ((keeps_readColumnBytes len).bind (fun _ => keeps_pure _))

theorem keeps_readWhen (c : Bool) {x : Read ℕ} (h : Keeps x) : Keeps (readWhen c x) :=
  Always.ite h (keeps_pure _)

theorem keeps_readDate (o : RowOptions) (typeId : MysqlType) : Keeps (readDate o typeId) := by
  refine (keeps_word 1).bind (fun len => Always.ite ?_ (keeps_pure _))
  refine (keeps_word 2).bind (fun _ => (keeps_word 1).bind (fun _ => (keeps_word 1).bind (fun _ => ?_)))
  refine (keeps_readWhen _ (keeps_word 1)).bind (fun _ => (keeps_readWhen _ (keeps_word 1)).bind
    (fun _ => (keeps_readWhen _ (keeps_word 1)).bind (fun _ => ?_)))
  exact (keeps_readWhen _ (keeps_word 4)).bind (fun _ => keeps_pure _)

theorem keeps_readTime : Keeps readTime := by
  refine (keeps_word 1).bind (fun len => Always.ite ?_ (keeps_pure _))
  refine (keeps_word 1).bind (fun _ => (keeps_word 4).bind (fun _ => (keeps_word 1).bind (fun _ => ?_)))
  refine (keeps_word 1).bind (fun _ => (keeps_word 1).bind (fun _ => ?_))
  exact (keeps_readWhen _ (keeps_word 4)).bind (fun _ => keeps_pure _)

theorem keeps_readBit : Keeps readBit :=
  keeps_readLenencInt.bind (fun _ => Always.ite (keeps_fail _)
    ((keeps_readShortBytes _).bind (fun _ => keeps_pure _)))

theorem keeps_readBlob (o : RowOptions) (isLast : Bool) (column : Column) :
    Keeps (readBlob o isLast column) := by
  refine keeps_readLenencInt.bind (fun len => Always.ite (keeps_fail _) ?_)
  refine keeps_readLengthColumn o isLast len (Always.ite (keeps_fail _) (Always.ite ?_ ?_))
  · exact (keeps_readBytesToBuffer _).bind (fun _ => keeps_pure _)
  · exact (keeps_readColumnBytes len).bind (fun _ => keeps_pure _)

theorem keeps_readBinaryColumn (o : RowOptions) (isLast : Bool) (column : Column) :
    Keeps (readBinaryColumn o isLast column) := by
  have integer : ∀ (k : ℕ) (g : ℤ → ColumnValue×ℤ),
      Keeps (do return g (←readInteger k column.isUnsigned)) := fun k g =>
    ((keeps_readFixed k).bind (fun _ => keeps_pure _)).bind (fun _ => keeps_pure _)
  unfold readBinaryColumn
  split
  · exact integer 1 _
  · exact integer 2 _
  · exact integer 2 _
  · exact integer 4 _
  · exact integer 4 _
  · exact integer 8 _
  · exact (keeps_readFixed 4).bind (fun _ => keeps_pure _)
  · exact (keeps_readFixed 8).bind (fun _ => keeps_pure _)
  · exact (keeps_readDate o _).bind (fun _ => keeps_pure _)
  · exact (keeps_readDate o _).bind (fun _ => keeps_pure _)
  · exact (keeps_readDate o _).bind (fun _ => keeps_pure _)
  · exact keeps_readTime.bind (fun _ => keeps_pure _)
  · exact keeps_readBit.bind (fun _ => keeps_pure _)
  · exact keeps_readBlob o isLast column

/-- The columns of a binary row keep the records. -/
theorem keeps_readBinaryColumns (o : RowOptions) (nullBits : List UInt8) (i : ℕ)
    (columns : List Column) (row : Row) : Keeps (readBinaryColumns o nullBits i columns row) := by
  induction columns generalizing i row with
  | nil => exact keeps_pure _
  | cons column columns ih =>
    refine Keeps.bind ?_ (fun value => (ih _ _).bind (fun _ => keeps_pure _))
    exact Always.ite (keeps_pure _) (keeps_readBinaryColumn o _ column)

theorem grows_readRow (o : RowOptions) (r : Resultsets) (type : ℕ) : Grows (readRow o r type) := by
  refine Always.ite (grows_read ?_) ((grows_read (keeps_unput _)).bind (fun _ => grows_read ?_))
  · exact (keeps_readShortBytes _).bind (fun _ => keeps_readBinaryColumns o _ 0 _ _)
  · exact keeps_readTextColumns o _ _

theorem grows_setState (state : ProtocolState) : Grows (setState state) :=
  grows_set (by intro _; rfl) (by intro _; rfl)

theorem grows_rethrowError (e : Error) : Grows (rethrowError e : Proto α) := by
  refine Always.ite ((grows_setState _).bind (fun _ => grows_fail _)) ?_
  refine (grows_set (by intro _; rfl) (by intro _; rfl)).bind (fun _ => ?_)
  exact (grows_setState _).bind (fun _ => grows_fail _)

theorem grows_fetchOfType (cfg : Config) (r : Resultsets) (rowType : RowType) (maxColumnLen : ℕ)
    (jsonAsString datesAsString isForSerialize : Bool) (type : ℕ) :
    Grows (fetchOfType cfg r rowType maxColumnLen jsonAsString datesAsString isForSerialize type) := by
  refine grows_get.bind (fun s => Always.ite ?_ ?_)
  · refine Always.ite ((grows_setState _).bind (fun _ => grows_pure _)) ?_
    refine (grows_set (by intro _; rfl) (by intro _; rfl)).bind (fun _ => ?_)
    exact (grows_setState _).bind (fun _ => grows_pure _)
  · refine (grows_readRow _ r type).bind (fun row => Always.ite ?_ ?_)
    · exact (grows_set (by intro _; rfl) (by intro _; rfl)).bind (fun _ => grows_pure _)
    · exact (grows_setState _).bind (fun _ => grows_pure _)

theorem grows_fetchRow (cfg : Config) (r : Resultsets) (rowType : RowType) (maxColumnLen : ℕ)
    (jsonAsString datesAsString isForSerialize : Bool) :
    Grows (fetchRow cfg r rowType maxColumnLen jsonAsString datesAsString isForSerialize) :=
  (grows_readPacket cfg _).bind (fun type => grows_fetchOfType cfg r rowType maxColumnLen
    jsonAsString datesAsString isForSerialize type)

/-- Fetching from open resultsets only adds to the records. -/
theorem grows_fetchOpen (cfg : Config) (rowType : RowType) (maxColumnLen : ℕ)
    (jsonAsString datesAsString isForSerialize : Bool) (curResultsets : Option Resultsets) :
    Grows (match curResultsets with
      | none => do
        setState .QUERYING
        rethrowError (.error "TypeError: undefined")
      | some r => do
        setState .QUERYING
        attempt (fetchRow cfg r rowType maxColumnLen jsonAsString datesAsString isForSerialize)
          rethrowError : Proto (Option Row)) := by
  cases curResultsets with
  | none => exact (grows_setState _).bind (fun _ => grows_rethrowError _)
  | some r =>
    refine (grows_setState _).bind (fun _ => ?_)
    exact Always.attempt Follows.trans (grows_fetchRow cfg r rowType maxColumnLen jsonAsString
      datesAsString isForSerialize) (fun e => grows_rethrowError e)

/-- `fetch()` only adds to the records. -/
theorem grows_fetch (cfg : Config) (rowType : RowType) (maxColumnLen : ℕ)
    (jsonAsString datesAsString isForSerialize : Bool) :
    Grows (fetch cfg rowType maxColumnLen jsonAsString datesAsString isForSerialize) := by
  refine grows_get.bind (fun s => ?_)
  have open_ := grows_fetchOpen cfg rowType maxColumnLen jsonAsString datesAsString isForSerialize
    s.curResultsets
  cases s.state with
  | IDLE => exact grows_pure _
  | IDLE_IN_POOL => exact grows_pure _
  | HAS_MORE_RESULTSETS => exact grows_pure _
  | QUERYING => exact grows_fail _
  | TERMINATED => exact grows_fail _
  | HAS_MORE_ROWS => exact open_
  | ERROR => exact open_

theorem grows_discardRows (cfg : Config) (isPreparedStmt : Bool) (fuel : ℕ) :
    Grows (discardRows cfg isPreparedStmt fuel) := by
  induction fuel with
  | zero => exact grows_wait
  | succ fuel ih =>
    refine (grows_readPacket cfg _).bind (fun type => grows_gotoEndOfPacket.bind (fun _ => ?_))
    exact Always.ite (grows_pure _) ih

/-- Discarding rows only adds to the records. -/
theorem grows_discardAllRows (cfg : Config) (isPreparedStmt : Bool) :
    Grows (discardAllRows cfg isPreparedStmt) := fun s => grows_discardRows cfg isPreparedStmt _ s

end SpiritMysql.ProtocolOrder
