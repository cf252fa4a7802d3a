import Mathlib.Data.List.GetD
import SpiritMysql.ReadScript
import SpiritMysql.RowReader

/-!
# Rows on the wire

How a server writes the rows of a text and of a binary resultset, and that
the two deserializers read back the values of every row, wherever its bytes
are cut into packets.
-/

namespace SpiritMysql.RowStream

open AsyncAction ByteCodec ChunkCursor ColumnValues Errors PacketStream ReadScript Reader RowReader

/-- The bytes of a column in a text row. Nothing stands for `NULL`. -/
abbrev TextCell := Option (List UInt8)

/-- A column of a text row: the null mark, or the length and the bytes. -/
def textCell : TextCell → List UInt8
  | none => nullMark
  | some v => lenenc v.length++v

/-- The steps that read a length-encoded byte string. -/
def blobMoves (v : List UInt8) : List Move :=
  [.number 9 (lenenc v.length).length,.bytes v.length]

/-- The steps that read a column of a text row. -/
def textMoves : TextCell → List Move
  | none => [.number 9 1]
  | some v => blobMoves v

/-- No column type holds more bytes than a long blob. -/
def longBlob : ℕ := 2^32

/-- The value of a text column: over-long ones are read as `null`. -/
def textValue (o : RowOptions) (column : Column) : TextCell → ColumnValue
  | none => .null
  | some v => if o.maxColumnLen < v.length ∨ o.rowType=.VOID then .null else o.convColumnValue column v

/-- A column that a length precedes is skipped or converted. -/
theorem reads_lengthColumn {o : RowOptions} (isLast : Bool) {v : List UInt8} {conv : Read ColumnValue}
    {value : ColumnValue} (ho : o.rowType.isLastColumn=false)
    (hconv : Reads conv [.bytes v.length] v value) :
    Reads (readLengthColumn o isLast v.length conv) [.bytes v.length] v
      (if o.maxColumnLen < v.length ∨ o.rowType=.VOID then .null else value,0) := by
  unfold readLengthColumn
  rw [ho,Bool.false_and,if_neg Bool.false_ne_true]
  by_cases h : o.maxColumnLen < v.length ∨ o.rowType=.VOID
  · have hz : (o.maxColumnLen : ℤ) < v.length ∨ o.rowType=.VOID := h.imp_left Int.ofNat_lt.mpr
    rw [if_pos hz,if_pos h]
    have hr := (reads_void v).bind (f:=fun _ => pure (ColumnValue.null,(0 : ℤ))) (reads_pure _)
    rwa [List.append_nil,List.append_nil] at hr
  · have hz : ¬((o.maxColumnLen : ℤ) < v.length ∨ o.rowType=.VOID) := by
      intro hn
      exact h (hn.imp_left Int.ofNat_lt.mp)
    rw [if_neg hz,if_neg h]
    exact hconv.map (fun a => (a,(0 : ℤ)))

/-- A byte string of any length is read, through the buffer or past it. -/
theorem reads_string (v : List UInt8) :
    Reads (readColumnBytes v.length) [.bytes v.length] v v := by
  unfold readColumnBytes
  split
  · next h => exact reads_shortBytes v (by omega)
  · exact reads_toBuffer v

/-- A text column is read back, wherever it is cut. -/
theorem reads_textColumn {o : RowOptions} (isLast : Bool) (column : Column) {cell : TextCell}
    (ho : o.rowType.isLastColumn=false) (hc : ∀ v ∈ cell,v.length < longBlob) :
    Reads (readTextColumn o isLast column) (textMoves cell) (textCell cell)
      (textValue o column cell,0) := by
  cases cell with
  | none =>
    have h : Reads (readTextColumn o isLast column) ([.number 9 1]++[]) (nullMark++[])
        (ColumnValue.null,0) := reads_null.bind (reads_pure _)
    rwa [List.append_nil,List.append_nil] at h
  | some v =>
    have hv : v.length < 2^32 := hc v rfl
    have hlen := reads_lenenc (n:=v.length) (by omega)
    have hcol := reads_lengthColumn isLast ho ((reads_string v).map (o.convColumnValue column))
    refine hlen.bind ?_
    have hs : ¬(maxSafeInteger < (v.length : ℤ)) := by
      unfold maxSafeInteger
      omega
    have hn : ¬((v.length : ℤ)= -1) := by omega
    rw [if_neg hs,if_neg hn]
    exact hcol

/-- The columns of a text row with what the server sends in each. -/
abbrev TextRow := List (Column×TextCell)

/-- The payload of a text row. -/
def textPayload (row : TextRow) : List UInt8 := row.flatMap (fun p => textCell p.2)

/-- The steps that read a text row. -/
def textRowMoves (row : TextRow) : List Move := row.flatMap (fun p => textMoves p.2)

/-- The values of a text row. -/
def textValues (o : RowOptions) (row : TextRow) : List (Column×ColumnValue) :=
  row.map (fun p => (p.1,textValue o p.1 p.2))

/-- The columns of a text row are read back in order. -/
theorem reads_textColumns {o : RowOptions} (ho : o.rowType.isLastColumn=false) (row : TextRow)
    (hrow : ∀ p ∈ row,∀ v ∈ p.2,v.length < longBlob) (start : Row) :
    Reads (readTextColumns o (row.map Prod.fst) start) (textRowMoves row) (textPayload row)
      (start.putAll (textValues o row),0) := by
  induction row generalizing start with
  | nil => exact reads_pure _
  | cons p ps ih =>
    have hp := reads_textColumn (ps.map Prod.fst).isEmpty p.1 ho (hrow p List.mem_cons_self)
    have hps := ih (fun q hq => hrow q (List.mem_cons_of_mem _ hq))
      (start.put p.1.name (textValue o p.1 p.2))
    have h := hps.map (fun r => (r.1,if (ps.map Prod.fst).isEmpty=true then (0 : ℤ) else r.2))
    rw [ite_self] at h
    exact hp.bind h

/-- `deserializeRowText()` reads back every text row. -/
theorem reads_rowText {o : RowOptions} (ho : o.rowType.isLastColumn=false) (row : TextRow)
    (hrow : ∀ p ∈ row,∀ v ∈ p.2,v.length < longBlob) :
    Reads (deserializeRowText o (row.map Prod.fst)) (textRowMoves row) (textPayload row)
      (Row.ofValues o.rowType (textValues o row),0) :=
  reads_textColumns ho row hrow _

/-- The fields of a date on the wire. Zeros at the end are left out. -/
inductive DateCell where
  /-- Nothing but zeros. -/
  | zero
  /-- Year, month and day. -/
  | day (year : UInt16) (month day : UInt8)
  /-- Also hour, minute and second. -/
  | second (year : UInt16) (month day hour minute second : UInt8)
  /-- Also microseconds. -/
  | micro (year : UInt16) (month day hour minute second : UInt8) (micro : UInt32)
deriving DecidableEq, Repr

/-- The fields of a time on the wire. -/
inductive TimeCell where
  /-- Nothing but zeros. -/
  | zero
  /-- Sign, days, hours, minutes and seconds. -/
  | second (isNegative : UInt8) (days : UInt32) (hours minutes seconds : UInt8)
  /-- Also microseconds. -/
  | micro (isNegative : UInt8) (days : UInt32) (hours minutes seconds : UInt8) (micro : UInt32)
deriving DecidableEq, Repr

/-- What the server sends in a column of a binary row that is not null. -/
inductive BinaryCell where
  /-- A number, as its bytes. -/
  | fixed (raw : List UInt8)
  /-- A date. -/
  | date (d : DateCell)
  /-- A time. -/
  | time (t : TimeCell)
  /-- Bytes that a length precedes. -/
  | blob (v : List UInt8)
deriving DecidableEq, Repr

/-- The words of a date, each with its width, after the length byte. -/
def DateCell.words : DateCell → List (ℕ×ℕ)
  | .zero => []
  | .day y m d => [(2,y.toNat),(1,m.toNat),(1,d.toNat)]
  | .second y m d h i s =>
    [(2,y.toNat),(1,m.toNat),(1,d.toNat),(1,h.toNat),(1,i.toNat),(1,s.toNat)]
  | .micro y m d h i s u =>
    [(2,y.toNat),(1,m.toNat),(1,d.toNat),(1,h.toNat),(1,i.toNat),(1,s.toNat),(4,u.toNat)]

/-- The words of a time, each with its width, after the length byte. -/
def TimeCell.words : TimeCell → List (ℕ×ℕ)
  | .zero => []
  | .second n d h i s => [(1,n.toNat),(4,d.toNat),(1,h.toNat),(1,i.toNat),(1,s.toNat)]
  | .micro n d h i s u => [(1,n.toNat),(4,d.toNat),(1,h.toNat),(1,i.toNat),(1,s.toNat),(4,u.toNat)]

/-- The widths of words added up. -/
def wordsLength (ws : List (ℕ×ℕ)) : ℕ := (ws.map Prod.fst).sum

/-- Words one after another. -/
def wordsBytes (ws : List (ℕ×ℕ)) : List UInt8 := ws.flatMap (fun w => leBytes w.1 w.2)

/-- The words of a date or time with the byte that tells their length. -/
def withLength (ws : List (ℕ×ℕ)) : List (ℕ×ℕ) := (1,wordsLength ws)::ws

/-- The bytes of a column. -/
def binaryCell : BinaryCell → List UInt8
  | .fixed raw => raw
  | .date d => wordsBytes (withLength d.words)
  | .time t => wordsBytes (withLength t.words)
  | .blob v => lenenc v.length++v

/-- The steps that read words. -/
def wordMoves (ws : List (ℕ×ℕ)) : List Move := ws.map (fun w => .number w.1 w.1)

/-- The steps that read a column of a binary row. -/
def binaryMoves : BinaryCell → List Move
  | .fixed raw => [.number raw.length raw.length]
  | .date d => wordMoves (withLength d.words)
  | .time t => wordMoves (withLength t.words)
  | .blob v => blobMoves v

/-- The types that are sent as byte strings. -/
def isBlob : MysqlType → Bool
  | .DECIMAL => true
  | .NULL => true
  | .JSON => true
  | .NEWDECIMAL => true
  | .OTHER _ => true
  | _ => false

/-- The forms a column can have by its type. -/
inductive Fits : MysqlType → BinaryCell → Prop where
  | tiny {raw : List UInt8} (h : raw.length=1) : Fits .TINY (.fixed raw)
  | short {raw : List UInt8} (h : raw.length=2) : Fits .SHORT (.fixed raw)
  | year {raw : List UInt8} (h : raw.length=2) : Fits .YEAR (.fixed raw)
  | int24 {raw : List UInt8} (h : raw.length=4) : Fits .INT24 (.fixed raw)
  | long {raw : List UInt8} (h : raw.length=4) : Fits .LONG (.fixed raw)
  | longlong {raw : List UInt8} (h : raw.length=8) : Fits .LONGLONG (.fixed raw)
  | float {raw : List UInt8} (h : raw.length=4) : Fits .FLOAT (.fixed raw)
  | double {raw : List UInt8} (h : raw.length=8) : Fits .DOUBLE (.fixed raw)
  | date (d : DateCell) : Fits .DATE (.date d)
  | datetime (d : DateCell) : Fits .DATETIME (.date d)
  | timestamp (d : DateCell) : Fits .TIMESTAMP (.date d)
  | time (t : TimeCell) : Fits .TIME (.time t)
  | bit {v : List UInt8} (h : v.length ≤ 8) : Fits .BIT (.blob v)
  | blob {t : MysqlType} {v : List UInt8} (ht : isBlob t=true) (h : v.length < longBlob) :
    Fits t (.blob v)

/-- An integer by its bytes and signedness. -/
def integerValue (isUnsigned : Bool) (raw : List UInt8) : ℤ :=
  if isUnsigned=true then (leNat raw : ℤ) else leInt raw.length raw

/-- The value of a date under the options. -/
def dateCellValue (o : RowOptions) (typeId : MysqlType) : DateCell → ColumnValue
  | .zero => dateZero o typeId
  | .day y m d => dateValue o typeId 4 y.toNat m.toNat d.toNat 0 0 0 0
  | .second y m d h i s =>
    dateValue o typeId 7 y.toNat m.toNat d.toNat h.toNat i.toNat s.toNat 0
  | .micro y m d h i s u =>
    dateValue o typeId 11 y.toNat m.toNat d.toNat h.toNat i.toNat s.toNat u.toNat

/-- The value of a time. -/
def timeCellValue : TimeCell → ColumnValue
  | .zero => .seconds 0
  | .second n d h i s => timeValue n.toNat d.toNat h.toNat i.toNat s.toNat 0
  | .micro n d h i s u => timeValue n.toNat d.toNat h.toNat i.toNat s.toNat u.toNat

/-- The value of a byte string: over-long ones are read as `null`. -/
def blobValue (o : RowOptions) (column : Column) (v : List UInt8) : ColumnValue :=
  if o.maxColumnLen < v.length ∨ o.rowType=.VOID then .null
  else if wantBytes o column=true then .bytes v
  else stringValue o column v

/-- The value of a column that is not null. -/
def binaryValue (o : RowOptions) (column : Column) : BinaryCell → ColumnValue
  | .fixed raw => match column.typeId with
    | .FLOAT => .float raw
    | .DOUBLE => .float raw
    | .LONGLONG => numberOrBigint (integerValue column.isUnsigned raw)
    | _ => .number (integerValue column.isUnsigned raw)
  | .date d => dateCellValue o column.typeId d
  | .time t => timeCellValue t
  | .blob v => if column.typeId=.BIT then .bool (v.any (·≠0)) else blobValue o column v

/-- An integer column is read back. -/
theorem reads_integer {k : ℕ} (isUnsigned : Bool) {raw : List UInt8} (hk : raw.length=k) (h0 : 0 < k)
    (hb : k ≤ bufferLen) :
    Reads (readInteger k isUnsigned) [.number k k] raw (integerValue isUnsigned raw) := by
  unfold integerValue
  rw [hk]
  exact (reads_fixed raw hk h0 hb).map _

/-- A word is read back. -/
theorem reads_word {k n : ℕ} (hn : n < 256^k) (h0 : 0 < k) (hb : k ≤ bufferLen) :
    Reads (do return leNat (←readFixed k)) [.number k k] (leBytes k n) n := by
  have h := (reads_fixed (leBytes k n) (leBytes_length k n) h0 hb).map leNat
  rwa [leNat_leBytes_of_lt hn] at h

/-- A byte is read back. -/
theorem reads_uint8 {n : ℕ} (hn : n < 256) : Reads readUint8 [.number 1 1] (leBytes 1 n) n :=
  reads_word (by omega) (by decide) (by decide)

/-- A word of two bytes is read back. -/
theorem reads_uint16 {n : ℕ} (hn : n < 65536) : Reads readUint16 [.number 2 2] (leBytes 2 n) n :=
  reads_word (by omega) (by decide) (by decide)

/-- A word of four bytes is read back. -/
theorem reads_uint32 {n : ℕ} (hn : n < 2^32) : Reads readUint32 [.number 4 4] (leBytes 4 n) n :=
  reads_word (by omega) (by decide) (by decide)

/-- A date column is read back. -/
theorem reads_date (o : RowOptions) (typeId : MysqlType) (d : DateCell) :
    Reads (readDate o typeId) (binaryMoves (.date d)) (binaryCell (.date d))
      (dateCellValue o typeId d) := by
  cases d with
  | zero =>
    exact (reads_uint8 (n:=0) (by decide)).bind (reads_pure _)
  | day y m d =>
    refine (reads_uint8 (n:=4) (by decide)).bind ?_
    refine (reads_uint16 y.toNat_lt).bind ?_
    refine (reads_uint8 m.toNat_lt).bind ?_
    refine (reads_uint8 d.toNat_lt).bind ?_
    exact (reads_pure 0).bind ((reads_pure 0).bind ((reads_pure 0).bind ((reads_pure 0).bind
      (reads_pure _))))
  | second y m d h i s =>
    refine (reads_uint8 (n:=7) (by decide)).bind ?_
    refine (reads_uint16 y.toNat_lt).bind ?_
    refine (reads_uint8 m.toNat_lt).bind ?_
    refine (reads_uint8 d.toNat_lt).bind ?_
    refine (reads_uint8 h.toNat_lt).bind ?_
    refine (reads_uint8 i.toNat_lt).bind ?_
    refine (reads_uint8 s.toNat_lt).bind ?_
    exact (reads_pure 0).bind (reads_pure _)
  | micro y m d h i s u =>
    refine (reads_uint8 (n:=11) (by decide)).bind ?_
    refine (reads_uint16 y.toNat_lt).bind ?_
    refine (reads_uint8 m.toNat_lt).bind ?_
    refine (reads_uint8 d.toNat_lt).bind ?_
    refine (reads_uint8 h.toNat_lt).bind ?_
    refine (reads_uint8 i.toNat_lt).bind ?_
    refine (reads_uint8 s.toNat_lt).bind ?_
    exact (reads_uint32 u.toNat_lt).bind (reads_pure _)

/-- A time column is read back. -/
theorem reads_time (t : TimeCell) :
    Reads readTime (binaryMoves (.time t)) (binaryCell (.time t)) (timeCellValue t) := by
  cases t with
  | zero =>
    exact (reads_uint8 (n:=0) (by decide)).bind (reads_pure _)
  | second n d h i s =>
    refine (reads_uint8 (n:=8) (by decide)).bind ?_
    refine (reads_uint8 n.toNat_lt).bind ?_
    refine (reads_uint32 d.toNat_lt).bind ?_
    refine (reads_uint8 h.toNat_lt).bind ?_
    refine (reads_uint8 i.toNat_lt).bind ?_
    refine (reads_uint8 s.toNat_lt).bind ?_
    exact (reads_pure 0).bind (reads_pure _)
  | micro n d h i s u =>
    refine (reads_uint8 (n:=12) (by decide)).bind ?_
    refine (reads_uint8 n.toNat_lt).bind ?_
    refine (reads_uint32 d.toNat_lt).bind ?_
    refine (reads_uint8 h.toNat_lt).bind ?_
    refine (reads_uint8 i.toNat_lt).bind ?_
    refine (reads_uint8 s.toNat_lt).bind ?_
    exact (reads_uint32 u.toNat_lt).bind (reads_pure _)

/-- A column of bits is read back. -/
theorem reads_bit {v : List UInt8} (hv : v.length ≤ 8) :
    Reads readBit (blobMoves v) (lenenc v.length++v) (.bool (v.any (·≠0))) := by
  have hlen := reads_lenenc (n:=v.length) (by omega)
  have hs : ¬(maxSafeInteger < (v.length : ℤ)) := by
    unfold maxSafeInteger
    omega
  refine hlen.bind ?_
  rw [if_neg hs]
  exact (reads_shortBytes v (by unfold bufferLen; omega)).map (fun bytes => ColumnValue.bool (bytes.any (·≠0)))

/-- A string or blob column is read back. -/
theorem reads_blob {o : RowOptions} (isLast : Bool) (column : Column) {v : List UInt8}
    (ho : o.rowType.isLastColumn=false) (hv : v.length < longBlob) :
    Reads (readBlob o isLast column) (blobMoves v) (lenenc v.length++v)
      (blobValue o column v,0) := by
  have hv' : v.length < 2^32 := hv
  have hlen := reads_lenenc (n:=v.length) (by omega)
  have hs : ¬(maxSafeInteger < (v.length : ℤ)) := by
    unfold maxSafeInteger
    omega
  have hn : ¬((v.length : ℤ) < 0) := by omega
  refine hlen.bind ?_
  rw [if_neg hs]
  refine reads_lengthColumn isLast ho ?_
  rw [if_neg hn]
  by_cases hw : wantBytes o column=true
  · rw [if_pos hw,if_pos hw]
    exact (reads_toBuffer v).map ColumnValue.bytes
  · rw [if_neg hw,if_neg hw]
    exact (reads_string v).map (stringValue o column)

/-- A column of a binary row is read back, wherever it is cut. -/
theorem reads_binaryColumn {o : RowOptions} (isLast : Bool) (column : Column) {cell : BinaryCell}
    (ho : o.rowType.isLastColumn=false) (hc : Fits column.typeId cell) :
    Reads (readBinaryColumn o isLast column) (binaryMoves cell) (binaryCell cell)
      (binaryValue o column cell,0) := by
  have integer : ∀ {k : ℕ} {raw : List UInt8},raw.length=k → 0 < k → k ≤ bufferLen →
      ∀ g : ℤ → ColumnValue,
      Reads (do return (g (←readInteger k column.isUnsigned),(0 : ℤ))) (binaryMoves (.fixed raw)) raw
        (g (integerValue column.isUnsigned raw),0) := by
    intro k raw hk h0 hb g
    have h := (reads_integer column.isUnsigned hk h0 hb).map (fun n => (g n,(0 : ℤ)))
    rw [←hk] at h ⊢
    exact h
  have float : ∀ {k : ℕ} {raw : List UInt8},raw.length=k → 0 < k → k ≤ bufferLen →
      Reads (do return (ColumnValue.float (←readFixed k),(0 : ℤ))) (binaryMoves (.fixed raw)) raw
        (.float raw,0) := by
    intro k raw hk h0 hb
    have h := (reads_fixed raw hk h0 hb).map (fun raw => (ColumnValue.float raw,(0 : ℤ)))
    rw [←hk] at h ⊢
    exact h
  unfold readBinaryColumn binaryValue
  cases ht : column.typeId <;> rw [ht] at hc <;> cases hc
  case TINY.tiny raw h => exact integer h (by decide) (by decide) .number
  case SHORT.short raw h => exact integer h (by decide) (by decide) .number
  case YEAR.year raw h => exact integer h (by decide) (by decide) .number
  case INT24.int24 raw h => exact integer h (by decide) (by decide) .number
  case LONG.long raw h => exact integer h (by decide) (by decide) .number
  case LONGLONG.longlong raw h => exact integer h (by decide) (by decide) numberOrBigint
  case FLOAT.float raw h => exact float h (by decide) (by decide)
  case DOUBLE.double raw h => exact float h (by decide) (by decide)
  case DATE.date d => exact (reads_date o .DATE d).map (fun v => (v,(0 : ℤ)))
  case DATETIME.datetime d => exact (reads_date o .DATETIME d).map (fun v => (v,(0 : ℤ)))
  case TIMESTAMP.timestamp d => exact (reads_date o .TIMESTAMP d).map (fun v => (v,(0 : ℤ)))
  case TIME.time t => exact (reads_time t).map (fun v => (v,(0 : ℤ)))
  case BIT.bit v h => exact (reads_bit h).map (fun b => (b,(0 : ℤ)))
  all_goals
    next h hb =>
      first
        | exact absurd hb Bool.false_ne_true
        | exact reads_blob isLast column ho h

/-- The columns of a binary row with what the server sends in each. -/
abbrev BinaryRow := List (Column×Option BinaryCell)

/-- The null bitmap of a binary row: two bits come before the first column. -/
def nullBitmap (row : BinaryRow) : List UInt8 :=
  leBytes (nullBitsLen row.length) (ofBits (false::false::row.map (fun p => p.2.isNone)))

/-- The bytes of a column, if it has some. -/
def nullableCell : Option BinaryCell → List UInt8
  | none => []
  | some cell => binaryCell cell

/-- The steps that read a column, if it has bytes. -/
def nullableMoves : Option BinaryCell → List Move
  | none => []
  | some cell => binaryMoves cell

/-- The payload of a binary row after its first byte. -/
def binaryPayload (row : BinaryRow) : List UInt8 :=
  nullBitmap row++row.flatMap (fun p => nullableCell p.2)

/-- The steps that read a binary row after its first byte. -/
def binaryRowMoves (row : BinaryRow) : List Move :=
  .bytes (nullBitsLen row.length)::row.flatMap (fun p => nullableMoves p.2)

/-- The value of a column. -/
def nullableValue (o : RowOptions) (column : Column) : Option BinaryCell → ColumnValue
  | none => .null
  | some cell => binaryValue o column cell

/-- The values of a binary row. -/
def binaryValues (o : RowOptions) (row : BinaryRow) : List (Column×ColumnValue) :=
  row.map (fun p => (p.1,nullableValue o p.1 p.2))

/-- The bitmap has the bit of every null column. -/
theorem isNullBit_nullBitmap {row : BinaryRow} {i : ℕ} (hi : i < row.length) :
    isNullBit (nullBitmap row) i=(row[i]).2.isNone := by
  have hk : i+2 < 8*nullBitsLen row.length := by
    unfold nullBitsLen
    omega
  unfold isNullBit nullBitmap
  rw [testBit_leBytes _ hk,testBit_ofBits,List.getD_cons_succ,List.getD_cons_succ,
    List.getD_eq_getElem _ _ (by rwa [List.length_map]),List.getElem_map]

/-- The columns of a binary row are read back in order. -/
theorem reads_binaryColumns {o : RowOptions} (ho : o.rowType.isLastColumn=false)
    (nullBits : List UInt8) (i : ℕ) (row : BinaryRow)
    (hrow : ∀ p ∈ row,∀ cell ∈ p.2,Fits p.1.typeId cell)
    (hbits : ∀ j (hj : j < row.length),isNullBit nullBits (i+j)=(row[j]).2.isNone) (start : Row) :
    Reads (readBinaryColumns o nullBits i (row.map Prod.fst) start)
      (row.flatMap (fun p => nullableMoves p.2)) (row.flatMap (fun p => nullableCell p.2))
      (start.putAll (binaryValues o row),0) := by
  induction row generalizing i start with
  | nil => exact reads_pure _
  | cons p ps ih =>
    have hb := hbits 0 (Nat.succ_pos _)
    rw [Nat.add_zero,List.getElem_cons_zero] at hb
    have hp : Reads (readNullable (isNullBit nullBits i)
        (readBinaryColumn o (ps.map Prod.fst).isEmpty p.1)) (nullableMoves p.2) (nullableCell p.2)
        (nullableValue o p.1 p.2,0) := by
      rw [hb]
      cases hc : p.2 with
      | none => exact reads_pure _
      | some cell => exact reads_binaryColumn _ p.1 ho (hrow p List.mem_cons_self cell hc)
    have hps := ih (i+1) (fun q hq => hrow q (List.mem_cons_of_mem _ hq))
      (fun j hj => by
        have h := hbits (j+1) (Nat.succ_lt_succ hj)
        rw [List.getElem_cons_succ] at h
        rw [←h,Nat.add_right_comm,Nat.add_assoc])
      (start.put p.1.name (nullableValue o p.1 p.2))
    have h := hps.map (fun r => (r.1,if (ps.map Prod.fst).isEmpty=true then (0 : ℤ) else r.2))
    rw [ite_self] at h
    exact hp.bind h

/-- `deserializeRowBinary()` reads back every binary row. -/
theorem reads_rowBinary {o : RowOptions} (ho : o.rowType.isLastColumn=false) (row : BinaryRow)
    (hn : nullBitsLen row.length+4 ≤ bufferLen)
    (hrow : ∀ p ∈ row,∀ cell ∈ p.2,Fits p.1.typeId cell) :
    Reads (deserializeRowBinary o (row.map Prod.fst)) (binaryRowMoves row) (binaryPayload row)
      (Row.ofValues o.rowType (binaryValues o row),0) := by
  have hl : (nullBitmap row).length=nullBitsLen row.length := leBytes_length _ _
  have hbits := reads_shortBytes (nullBitmap row) (by rwa [hl])
  rw [hl] at hbits
  have hcols := reads_binaryColumns ho (nullBitmap row) 0 row hrow
    (fun j hj => by rw [Nat.zero_add,isNullBit_nullBitmap hj]) (Row.start o.rowType)
  unfold deserializeRowBinary
  rw [List.length_map]
  exact hbits.bind hcols

end SpiritMysql.RowStream
