import SpiritMysql.CivilDate
import SpiritMysql.ColumnValues
import SpiritMysql.DecimalText
import SpiritMysql.Reader

/-!
# Reading rows

`deserializeRowText()` and `deserializeRowBinary()`. How the bytes of a text
column become a value is a parameter: it does not touch the stream.
-/

namespace SpiritMysql.RowReader

open AsyncAction ByteCodec CivilDate ColumnValues DecimalText Errors Reader

/-- `Number.MAX_SAFE_INTEGER`. -/
def maxSafeInteger : ℤ := 2^53-1

/-- The arguments of the two deserializers, and the zone of the process. -/
structure RowOptions where
  /-- What a row is made of. -/
  rowType : RowType
  /-- Longer columns are read as `null`. -/
  maxColumnLen : ℕ
  /-- Columns of JSON stay strings. -/
  jsonAsString : Bool := false
  /-- Dates stay strings. -/
  datesAsString : Bool := false
  /-- Strings stay bytes. -/
  isForSerialize : Bool := false
  /-- `getTimezoneMsecOffsetFromSystem()`. -/
  timezoneOffset : ℤ := 0
  /-- How far the local time of the process is ahead of UTC. -/
  systemZone : ℤ := 0
  /-- `convColumnValue()` with its options. -/
  convColumnValue : Column → List UInt8 → ColumnValue

/-- Read a column that a length precedes: leave it to a reader, skip it, or
convert its bytes. -/
def readLengthColumn (o : RowOptions) (isLast : Bool) (len : ℤ)
    (conv : Read ColumnValue) : Read (ColumnValue×ℤ) := do
  if o.rowType.isLastColumn && isLast then return (.null,len)
  else if (o.maxColumnLen : ℤ) < len ∨ o.rowType=.VOID then
    readVoid len
    return (.null,0)
  else return (←conv,0)

/-- The bytes of a column: short ones are a part of the buffer. -/
def readColumnBytes (len : ℤ) : Read (List UInt8) :=
  if len ≤ bufferLen-4 then readShortBytes len else readBytesToBuffer len.toNat

/-- One column of a text row. -/
def readTextColumn (o : RowOptions) (isLast : Bool) (column : Column) :
    Read (ColumnValue×ℤ) := do
  let len ← readLenencInt
  if maxSafeInteger < len then fail (.error "Field is too long")
  else if len= -1 then return (.null,0)
  else readLengthColumn o isLast len do return o.convColumnValue column (←readColumnBytes len)

/-- The columns of a text row from one on. -/
def readTextColumns (o : RowOptions) : List Column → Row → Read (Row×ℤ)
  | [],row => pure (row,0)
  | column::columns,row => do
    let value ← readTextColumn o columns.isEmpty column
    let row ← readTextColumns o columns (row.put column.name value.1)
    return (row.1,if columns.isEmpty=true then value.2 else row.2)

/-- `deserializeRowText()`: the row and the length of the last column. -/
def deserializeRowText (o : RowOptions) (columns : List Column) : Read (Row×ℤ) :=
  readTextColumns o columns (Row.start o.rowType)

/-- An integer of a binary row, by its width and signedness. -/
def readInteger (k : ℕ) (isUnsigned : Bool) : Read ℤ := do
  let raw ← readFixed k
  return if isUnsigned=true then (leNat raw : ℤ) else leInt k raw

/-- Integers outside of the safe range stay big. -/
def numberOrBigint (n : ℤ) : ColumnValue :=
  if -maxSafeInteger ≤ n ∧ n ≤ maxSafeInteger then .number n else .bigint n

/-- The string of a date and time. -/
def dateString (year month day : ℕ) (time : Option (ℕ×ℕ×ℕ)) (micro : Option ℕ) : List UInt8 :=
  padded 4 year++[45]++padded 2 month++[45]++padded 2 day++
    match time with
    | none => []
    | some (hour,minute,second) =>
      [32]++padded 2 hour++[58]++padded 2 minute++[58]++padded 2 second++
        match micro with
        | none => []
        | some m => [46]++padded 6 m

/-- The year that the `Date` constructor takes: two digits mean the twentieth
century. -/
def dateYear (year : ℕ) : ℤ := if year < 100 then 1900+year else year

/-- Fields that only longer forms of a value have are zero in the others. -/
def readWhen (c : Bool) (x : Read ℕ) : Read ℕ := if c=true then x else pure 0

/-- The value of a date column with its fields. The length says which of them
were sent. -/
def dateValue (o : RowOptions) (typeId : MysqlType) (len year month day hour minute second micro : ℕ) :
    ColumnValue :=
  if o.datesAsString=true then
    .str (dateString year month day
      (if 7 ≤ len ∨ typeId=.DATETIME ∨ typeId=.TIMESTAMP then some (hour,minute,second) else none)
      (if 11 ≤ len then some micro else none))
  else .date (makeInstant o.systemZone (dateYear year) (month-1) day hour minute second
    (micro/1000 : ℕ)-o.timezoneOffset)

/-- The value of a date column of zeros. -/
def dateZero (o : RowOptions) (typeId : MysqlType) : ColumnValue :=
  if o.datesAsString=true then
    .str (dateString 0 0 0 (if typeId=.DATE then none else some (0,0,0)) none)
  else .date 0

/-- A date column of a binary row. -/
def readDate (o : RowOptions) (typeId : MysqlType) : Read ColumnValue := do
  let len ← readUint8
  if 4 ≤ len then
    let year ← readUint16
    let month ← readUint8
    let day ← readUint8
    let hour ← readWhen (7 ≤ len) readUint8
    let minute ← readWhen (7 ≤ len) readUint8
    let second ← readWhen (7 ≤ len) readUint8
    let micro ← readWhen (11 ≤ len) readUint32
    return dateValue o typeId len year month day hour minute second micro
  else return dateZero o typeId

/-- The value of a time column, in microseconds. -/
def timeValue (isNegative days hours minutes seconds micro : ℕ) : ColumnValue :=
  let total : ℤ := ((((hours+days*24)*60+minutes)*60+seconds)*1000000+micro : ℕ)
  .seconds (if isNegative≠0 then -total else total)

/-- A time column of a binary row. -/
def readTime : Read ColumnValue := do
  let len ← readUint8
  if 8 ≤ len then
    let isNegative ← readUint8
    let days ← readUint32
    let hours ← readUint8
    let minutes ← readUint8
    let seconds ← readUint8
    let micro ← readWhen (12 ≤ len) readUint32
    return timeValue isNegative days hours minutes seconds micro
  else return .seconds 0

/-- A column of bits in a binary row. -/
def readBit : Read ColumnValue := do
  let len ← readLenencInt
  if maxSafeInteger < len then fail (.error "Field is too long")
  else
    let bytes ← readShortBytes len
    return .bool (bytes.any (·≠0))

/-- The value of a string column of a binary row. -/
def stringValue (o : RowOptions) (column : Column) (v : List UInt8) : ColumnValue :=
  if column.typeId=.JSON ∧ o.jsonAsString=false then .json v else .str v

/-- The columns of a binary row whose values stay byte arrays. -/
def wantBytes (o : RowOptions) (column : Column) : Bool :=
  decide (column.charsetId=charsetBinary ∧ column.typeId≠.JSON ∧ column.typeId≠.NEWDECIMAL ∧
    column.typeId≠.DECIMAL) || o.isForSerialize

/-- A string or blob column of a binary row. -/
def readBlob (o : RowOptions) (isLast : Bool) (column : Column) : Read (ColumnValue×ℤ) := do
  let len ← readLenencInt
  if maxSafeInteger < len then fail (.error "Field is too long")
  else readLengthColumn o isLast len do
    if len < 0 then fail (.error "RangeError: Invalid typed array length")
    else if wantBytes o column=true then return .bytes (←readBytesToBuffer len.toNat)
    else return stringValue o column (←readColumnBytes len)

/-- One column of a binary row that is not null. -/
def readBinaryColumn (o : RowOptions) (isLast : Bool) (column : Column) :
    Read (ColumnValue×ℤ) := do
  match column.typeId with
  | .TINY => return (.number (←readInteger 1 column.isUnsigned),0)
  | .SHORT => return (.number (←readInteger 2 column.isUnsigned),0)
  | .YEAR => return (.number (←readInteger 2 column.isUnsigned),0)
  | .INT24 => return (.number (←readInteger 4 column.isUnsigned),0)
  | .LONG => return (.number (←readInteger 4 column.isUnsigned),0)
  | .LONGLONG => return (numberOrBigint (←readInteger 8 column.isUnsigned),0)
  | .FLOAT => return (.float (←readFixed 4),0)
  | .DOUBLE => return (.float (←readFixed 8),0)
  | .DATE => return (←readDate o .DATE,0)
  | .DATETIME => return (←readDate o .DATETIME,0)
  | .TIMESTAMP => return (←readDate o .TIMESTAMP,0)
  | .TIME => return (←readTime,0)
  | .BIT => return (←readBit,0)
  | _ => readBlob o isLast column

/-- The bit of a column in the null bitmap: two bits come before the first. -/
def isNullBit (nullBits : List UInt8) (i : ℕ) : Bool :=
  (nullBits.getD ((i+2)/8) 0).toNat.testBit ((i+2)%8)

/-- A column that the null bitmap marks is not in the stream. -/
def readNullable (isNull : Bool) (x : Read (ColumnValue×ℤ)) : Read (ColumnValue×ℤ) :=
  if isNull=true then pure (.null,0) else x

/-- The columns of a binary row from one on. -/
def readBinaryColumns (o : RowOptions) (nullBits : List UInt8) :
    ℕ → List Column → Row → Read (Row×ℤ)
  | _,[],row => pure (row,0)
  | i,column::columns,row => do
    let value ← readNullable (isNullBit nullBits i) (readBinaryColumn o columns.isEmpty column)
    let row ← readBinaryColumns o nullBits (i+1) columns (row.put column.name value.1)
    return (row.1,if columns.isEmpty=true then value.2 else row.2)

/-- The length of the null bitmap of a binary row. -/
def nullBitsLen (nColumns : ℕ) : ℕ := (nColumns+2+7)/8

/-- `deserializeRowBinary()`: the row and the length of the last column. -/
def deserializeRowBinary (o : RowOptions) (columns : List Column) : Read (Row×ℤ) := do
  let nullBits ← readShortBytes (nullBitsLen columns.length)
  readBinaryColumns o nullBits 0 columns (Row.start o.rowType)

end SpiritMysql.RowReader
