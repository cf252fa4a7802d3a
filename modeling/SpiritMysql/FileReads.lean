import SpiritMysql.RowLayout

/-!
# Reading rows from a file

The serializer reads its file through the buffer that it wrote through, which can have
become longer. Only the operations on short strings look at its size: the others ask for
less than the first buffer has. A packet of a file has several rows, and the header of the
next packet is read with the null mask of a row.
-/

namespace SpiritMysql.FileReads

open AsyncAction ByteCodec ChunkCursor ColumnValues Errors PacketFraming PacketStream ReadScript
open Reader RowLayout RowReader RowStream

/-! ## A buffer of any size -/

/-- `#recvAtLeast()` in a buffer of a size. -/
def recvRoom (size nBytes : ℕ) : Read Unit := fun s =>
  if min nBytes size ≤ s.rest.length then
    if nBytes ≤ size then .done () s
    else .thrown (.error "TypeError: empty view") s
  else if s.closed=true then .thrown (.serverDisconnected "Lost connection to server") s
  else .waiting s

/-- `readShortBytes() ?? await readShortBytesAsync()` in a buffer of a size. -/
def readShortBytesOf (size : ℕ) (len : ℤ) : Read (List UInt8) := do
  if (size : ℤ)-4 < len then
    fail (.error "String is too long for this operation. Longer than 8188 bytes")
  else
    let s ← get
    if len < 0 then
      moveBack len.natAbs
      return []
    else if len ≤ s.lenInCurPacket then
      recvRoom size len.toNat
      take len.toNat
    else if s.lenInCurPacket < 0 then
      recvRoom size (s.lenInCurPacket+4).toNat
      fail (.error "RangeError: offset is out of bounds")
    else
      let head := s.lenInCurPacket.toNat
      recvRoom size (head+4)
      let a ← take head
      readPacketHeader
      let n := len.toNat-head
      recvRoom size n
      let b ← take n
      return a++b

/-- The bytes of a column: short ones are a part of the buffer. -/
def readColumnBytesOf (size : ℕ) (len : ℤ) : Read (List UInt8) :=
  if len ≤ size-4 then readShortBytesOf size len else readBytesToBuffer len.toNat

/-- A string or blob column. -/
def readBlobOf (size : ℕ) (o : RowOptions) (isLast : Bool) (column : Column) :
    Read (ColumnValue×ℤ) := do
  let len ← readLenencInt
  if maxSafeInteger < len then fail (.error "Field is too long")
  else readLengthColumn o isLast len do
    if len < 0 then fail (.error "RangeError: Invalid typed array length")
    else if wantBytes o column=true then return .bytes (←readBytesToBuffer len.toNat)
    else return stringValue o column (←readColumnBytesOf size len)

/-- One column of a row that is not null. -/
def readBinaryColumnOf (size : ℕ) (o : RowOptions) (isLast : Bool) (column : Column) :
    Read (ColumnValue×ℤ) :=
  if isBlob column.typeId=true then readBlobOf size o isLast column
  else readBinaryColumn o isLast column

/-- The columns of a row from one on. -/
def readBinaryColumnsOf (size : ℕ) (o : RowOptions) (nullBits : List UInt8) :
    ℕ → List Column → Row → Read (Row×ℤ)
  | _,[],row => pure (row,0)
  | i,column::columns,row => do
    let value ← readNullable (isNullBit nullBits i)
      (readBinaryColumnOf size o columns.isEmpty column)
    let row ← readBinaryColumnsOf size o nullBits (i+1) columns (row.put column.name value.1)
    return (row.1,if columns.isEmpty=true then value.2 else row.2)

/-- `deserializeRowBinary()` through a buffer of a size. -/
def deserializeRowBinaryOf (size : ℕ) (o : RowOptions) (columns : List Column) :
    Read (Row×ℤ) := do
  let nullBits ← readShortBytesOf size (nullBitsLen columns.length)
  readBinaryColumnsOf size o nullBits 0 columns (Row.start o.rowType)

/-- A column is read through the first buffer as from the server. -/
theorem readBinaryColumnOf_bufferLen (o : RowOptions) (isLast : Bool) (column : Column) :
    readBinaryColumnOf bufferLen o isLast column=readBinaryColumn o isLast column := by
  unfold readBinaryColumnOf
  split
  · next h =>
    unfold readBinaryColumn
    cases hc : column.typeId <;> rw [hc] at h <;> cases h <;> rfl
  · rfl

/-- A row is read through the first buffer as from the server. -/
theorem deserializeRowBinaryOf_bufferLen (o : RowOptions) (columns : List Column) :
    deserializeRowBinaryOf bufferLen o columns=deserializeRowBinary o columns := by
  have hcolumns : ∀ nullBits i cs row,readBinaryColumnsOf bufferLen o nullBits i cs row=
      readBinaryColumns o nullBits i cs row := by
    intro nullBits i cs
    induction cs generalizing i with
    | nil => exact fun _ => rfl
    | cons c cs ih =>
      intro row
      rw [readBinaryColumnsOf,readBinaryColumns,readBinaryColumnOf_bufferLen]
      simp only [ih]
  unfold deserializeRowBinaryOf deserializeRowBinary
  simp only [hcolumns]
  rfl

/-! ## What is read -/

section Reads

variable {size : ℕ} {s : State} {c : Cursor UInt8 UInt8} {later : List UInt8} {log : List ℕ}

/-- Enough received bytes let the read return at once. -/
theorem recvRoom_done {n : ℕ} (h : n ≤ s.rest.length) (hb : n ≤ size) :
    recvRoom size n s=.done () s := by
  unfold recvRoom
  rw [if_pos (by omega),if_pos hb]

/-- A short byte string moves the cursor over it. -/
theorem readShortBytesOf_spec {n : ℕ} (h : Represents s c later log) (hn : n ≤ c.flatten.length)
    (hb : n+4 ≤ size) (hs : size ≤ maxPayload+1) :
    ∃ s',readShortBytesOf size n s=.done (c.flatten.take n) s' ∧
      Represents s' (c.skip n) later log := by
  obtain ⟨cur,nexts⟩ := c
  have hleft : s.lenInCurPacket=cur.length := h.left
  have hneg : ¬((n : ℤ) < 0) := by omega
  have hbig : ¬((size : ℤ)-4 < n) := by omega
  by_cases hc : n ≤ cur.length
  · have hcz : (n : ℤ) ≤ s.lenInCurPacket := by omega
    have hrecv := recvRoom_done (hc.trans h.received) (show n ≤ size by omega)
    obtain ⟨s',ht,hr⟩ := take_spec h hc
    refine ⟨s',?_,by simpa only [Cursor.skip,Cursor.drop,advance_of_le hc] using hr⟩
    simp only [readShortBytesOf,branch_apply,if_neg hbig,if_neg hneg,bind_apply,get_apply,
      Outcome.andThen_done,if_pos hcz,Int.toNat_natCast,hrecv,ht]
    rw [take_cur (c:=⟨cur,nexts⟩) hc]
  have hlt : cur.length < n := by omega
  have hcz : ¬((n : ℤ) ≤ s.lenInCurPacket) := by omega
  have hnn : ¬(s.lenInCurPacket < 0) := by omega
  have hhead : s.lenInCurPacket.toNat=cur.length := by omega
  cases nexts with
  | nil =>
    simp only [Cursor.flatten,List.flatMap_nil,List.append_nil] at hn
    omega
  | cons p ps =>
    obtain ⟨s₁,h₁,r₁⟩ := take_spec h le_rfl
    have hd : (Cursor.mk cur (p::ps)).drop cur.length=⟨[],p::ps⟩ := by
      simp only [Cursor.drop,List.drop_length]
    rw [hd] at r₁
    obtain ⟨s₂,h₂,-,-,r₂⟩ := readPacketHeader_spec r₁.rest r₁.regular r₁.headers
    -- one packet is enough: it is the last one or a full one
    have hn' : n-cur.length ≤ p.2.length := by
      cases ps with
      | nil =>
        simp only [Cursor.flatten,List.flatMap_cons,List.flatMap_nil,List.append_nil,
          List.length_append] at hn
        omega
      | cons q qs =>
        have hm : p.2.length=maxPayload := h.regular.1
        omega
    obtain ⟨s₃,h₃,r₃⟩ := take_spec r₂ hn'
    have hlen : cur.length+4 ≤ s.rest.length := by
      rw [h.rest]
      simp only [frames,List.flatMap_cons,List.length_append,frame_length]
      omega
    have hrecv := recvRoom_done hlen (show cur.length+4 ≤ size by omega)
    have hrecv' := recvRoom_done (hn'.trans r₂.received) (show n-cur.length ≤ size by omega)
    refine ⟨s₃,?_,?_⟩
    · simp only [readShortBytesOf,branch_apply,if_neg hbig,if_neg hneg,bind_apply,get_apply,
        Outcome.andThen_done,if_neg hcz,if_neg hnn,hhead,hrecv,h₁,h₂,Int.toNat_natCast,hrecv',h₃,
        pure_apply,List.take_length]
      congr 1
      simp only [Cursor.flatten,List.flatMap_cons]
      rw [List.take_append,List.take_of_length_le hlt.le,List.take_append_of_le_length hn']
    · simpa only [Cursor.skip,Cursor.drop,advance_of_lt hlt,advance_of_le hn'] using r₃

/-- A short byte string is passed in one step. -/
theorem reads_shortBytesOf {bytes : List UInt8} (hb : bytes.length+4 ≤ size)
    (hs : size ≤ maxPayload+1) :
    Reads (readShortBytesOf size bytes.length) [.bytes bytes.length] bytes bytes := by
  refine reads_of_skip ?_
  intro s c later log X hr hc
  obtain ⟨s',h,hr'⟩ := readShortBytesOf_spec hr (by rw [hc,List.length_append]; omega) hb hs
  refine ⟨s',?_,hr'⟩
  rw [h,hc,List.take_left]

/-- A byte string of any length is read, through the buffer or past it. -/
theorem reads_stringOf (v : List UInt8) (hs : size ≤ maxPayload+1) :
    Reads (readColumnBytesOf size v.length) [.bytes v.length] v v := by
  unfold readColumnBytesOf
  split
  · next h => exact reads_shortBytesOf (by omega) hs
  · exact reads_toBuffer v

variable {o : RowOptions}

/-- A string or blob column is read back. -/
theorem reads_blobOf (isLast : Bool) (column : Column) {v : List UInt8}
    (ho : o.rowType.isLastColumn=false) (hv : v.length < longBlob) (hsize : size ≤ maxPayload+1) :
    Reads (readBlobOf size o isLast column) (blobMoves v) (lenenc v.length++v)
      (blobValue o column v,0) := by
  have hv' : v.length < 2^32 := hv
  have hlen := reads_lenenc (n:=v.length) (by omega)
  have hs : ¬(maxSafeInteger < (v.length : ℤ)) := by
    unfold maxSafeInteger
    omega
  have hn : ¬((v.length : ℤ) < 0) := by omega
  refine hlen.bind ?_
  rw [if_neg hs]
  refine reads_lengthColumn isLast ho ?_
  rw [if_neg hn]
  by_cases hw : wantBytes o column=true
  · rw [if_pos hw,if_pos hw]
    exact (reads_toBuffer v).map ColumnValue.bytes
  · rw [if_neg hw,if_neg hw]
    exact (reads_stringOf v hsize).map (stringValue o column)

/-- A column of a row is read back. -/
theorem reads_binaryColumnOf (isLast : Bool) (column : Column) {cell : BinaryCell}
    (ho : o.rowType.isLastColumn=false) (hc : Fits column.typeId cell)
    (hsize : size ≤ maxPayload+1) :
    Reads (readBinaryColumnOf size o isLast column) (binaryMoves cell) (binaryCell cell)
      (binaryValue o column cell,0) := by
  unfold readBinaryColumnOf
  by_cases hb : isBlob column.typeId=true
  · rw [if_pos hb]
    obtain ⟨v,rfl,hv,hbit⟩ : ∃ v,cell=.blob v ∧ v.length < longBlob ∧ column.typeId≠.BIT := by
      generalize column.typeId=t at hb hc
      cases hc with
      | blob ht h =>
        refine ⟨_,rfl,h,?_⟩
        intro hbit
        rw [hbit] at hb
        cases hb
      | _ => cases hb
    have hval : binaryValue o column (.blob v)=blobValue o column v := by
      unfold binaryValue
      dsimp only
      rw [if_neg hbit]
    rw [hval]
    exact reads_blobOf isLast column ho hv hsize
  · rw [if_neg hb]
    exact reads_binaryColumn isLast column ho hc

/-- The columns of a row are read back in order. -/
theorem reads_binaryColumnsOf (ho : o.rowType.isLastColumn=false) (hsize : size ≤ maxPayload+1)
    (nullBits : List UInt8) (i : ℕ) (row : BinaryRow)
    (hrow : ∀ p ∈ row,∀ cell ∈ p.2,Fits p.1.typeId cell)
    (hbits : ∀ j (hj : j < row.length),isNullBit nullBits (i+j)=(row[j]).2.isNone) (start : Row) :
    Reads (readBinaryColumnsOf size o nullBits i (row.map Prod.fst) start)
      (row.flatMap (fun p => nullableMoves p.2)) (row.flatMap (fun p => nullableCell p.2))
      (start.putAll (binaryValues o row),0) := by
  induction row generalizing i start with
  | nil => exact reads_pure _
  | cons p ps ih =>
    have hb := hbits 0 (Nat.succ_pos _)
    rw [Nat.add_zero,List.getElem_cons_zero] at hb
    have hp : Reads (readNullable (isNullBit nullBits i)
        (readBinaryColumnOf size o (ps.map Prod.fst).isEmpty p.1)) (nullableMoves p.2)
        (nullableCell p.2) (nullableValue o p.1 p.2,0) := by
      rw [hb]
      cases hc : p.2 with
      | none => exact reads_pure _
      | some cell => exact reads_binaryColumnOf _ p.1 ho (hrow p List.mem_cons_self cell hc) hsize
    have hps := ih (i+1) (fun q hq => hrow q (List.mem_cons_of_mem _ hq))
      (fun j hj => by
        have h := hbits (j+1) (Nat.succ_lt_succ hj)
        rw [List.getElem_cons_succ] at h
        rw [←h,Nat.add_right_comm,Nat.add_assoc])
      (start.put p.1.name (nullableValue o p.1 p.2))
    have h := hps.map (fun r => (r.1,if (ps.map Prod.fst).isEmpty=true then (0 : ℤ) else r.2))
    rw [ite_self] at h
    exact hp.bind h

/-- `deserializeRowBinary()` reads back every row through a buffer of any size. -/
theorem reads_rowBinaryOf (ho : o.rowType.isLastColumn=false) (row : BinaryRow)
    (hn : nullBitsLen row.length+4 ≤ size) (hsize : size ≤ maxPayload+1)
    (hrow : ∀ p ∈ row,∀ cell ∈ p.2,Fits p.1.typeId cell) :
    Reads (deserializeRowBinaryOf size o (row.map Prod.fst)) (binaryRowMoves row)
      (binaryPayload row) (Row.ofValues o.rowType (binaryValues o row),0) := by
  have hl : (nullBitmap row).length=nullBitsLen row.length := leBytes_length _ _
  have hbits := @reads_shortBytesOf size (nullBitmap row) (by rwa [hl]) hsize
  rw [hl] at hbits
  have hcols := reads_binaryColumnsOf ho hsize (nullBitmap row) 0 row hrow
    (fun j hj => by rw [Nat.zero_add,isNullBit_nullBitmap hj]) (Row.start o.rowType)
  unfold deserializeRowBinaryOf
  rw [List.length_map]
  exact hbits.bind hcols

end Reads

end SpiritMysql.FileReads
