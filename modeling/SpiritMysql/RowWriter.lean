import SpiritMysql.CivilFields
import SpiritMysql.CompressedWriter
import SpiritMysql.FieldWriter
import SpiritMysql.Rounding
import SpiritMysql.SqlValues

/-!
# Writing rows

`serializeRowBinary()`, which stores rows in a file in the format of the binary
protocol. Every column that is not null is written as one of the forms that the reader of
binary rows knows. The values of a column are of the kind that its type has.
-/

namespace SpiritMysql.RowWriter

open AsyncAction ByteCodec CivilDate ColumnValues DecimalText Errors FieldWriter PacketSends
open ReadScript Rounding RowReader RowStream SqlValues Writer

/-- The IEEE bytes of a number in the other width. -/
structure FloatWidths where
  /-- Of a single, for the bytes of a double. -/
  single : List UInt8 → List UInt8
  /-- Of a double, for the bytes of a single. -/
  double : List UInt8 → List UInt8

/-! ## The buffer -/

/-- `ensureRoom()`: a longer buffer begins with the same bytes. -/
def ensureRoom (room : ℕ) : Write Unit := modify fun s =>
  let wantLen := s.bufferEnd+room
  if s.buffer.length < wantLen then
    let len := CompressedWriter.growLoop wantLen wantLen (s.buffer.length*2)
    {s with buffer := s.buffer++List.replicate (len-s.buffer.length) 0}
  else s

/-- The loop over the null mask of a row. -/
def nullLoop : ℕ → ℕ → List Bool → Write Unit
  | nullMask,nullBit,[] => doWhen (nullBit≠1) (assign nullMask)
  | nullMask,nullBit,isNull::rest =>
    let nullMask := if isNull=true then nullMask ||| nullBit else nullMask
    if nullBit=0x80 then do
      assign nullMask
      nullLoop 0 1 rest
    else nullLoop nullMask (nullBit <<< 1) rest

/-! ## Numbers -/

/-- A value as a number, in the columns of integers and bits. -/
def asInteger : ColumnValue → ℤ
  | .number n => n
  | .bigint n => n
  | .bool b => if b=true then 1 else 0
  | _ => 0

/-- `writeFloat()`. -/
def writeFloat (f : FloatWidths) : ColumnValue → Write Unit
  | .float raw => writeShortBytes (if raw.length=4 then raw else f.single raw)
  | _ => setWord 4 0

/-- `writeDouble()`. -/
def writeDouble (f : FloatWidths) : ColumnValue → Write Unit
  | .float raw => writeShortBytes (if raw.length=8 then raw else f.double raw)
  | _ => setWord 8 0

/-! ## Dates and times -/

/-- A white space. -/
def isSpace (c : UInt8) : Bool := decide (c=32 ∨ 9 ≤ c ∧ c ≤ 13)

/-- A decimal digit. -/
def isDigit (c : UInt8) : Bool := decide (48 ≤ c ∧ c ≤ 57)

/-- The digits at the beginning of a text, as a number. Nothing stands for `NaN`. -/
def leadingNumber (text : List UInt8) : Option ℤ :=
  let digits := text.takeWhile isDigit
  if digits=[] then none else some (readDigits 0 digits)

/-- `parseInt()` of a decimal number. -/
def parseInt (text : List UInt8) : Option ℤ :=
  match text.dropWhile isSpace with
  | 45::rest => (leadingNumber rest).map (fun n => -n)
  | 43::rest => leadingNumber rest
  | rest => leadingNumber rest

/-- `slice()`. -/
def slice (first last : ℕ) (str : List UInt8) : List UInt8 := (str.take last).drop first

/-- The fields of a date. Nothing stands for `NaN`. -/
structure DateFields where
  /-- The year. -/
  year : Option ℤ := some 0
  /-- The month. -/
  month : Option ℤ := some 0
  /-- The day. -/
  day : Option ℤ := some 0
  /-- The hour. -/
  hour : Option ℤ := some 0
  /-- The minute. -/
  minute : Option ℤ := some 0
  /-- The second. -/
  second : Option ℤ := some 0
  /-- The microseconds. -/
  micro : Option ℤ := some 0
deriving DecidableEq, Repr

/-- The fields of a `Date`, moved to the zone of the session. -/
def instantFields (o : RowOptions) (ms : ℤ) : DateFields :=
  let date := ms+o.timezoneOffset
  if date≠0 then
    let f := localFields o.systemZone date
    { year := some f.year, month := some (f.month+1), day := some f.day
      hour := some f.hour, minute := some f.minute, second := some f.second
      micro := some (f.ms*1000) }
  else {}

/-- The fields of a date that is a string. -/
def stringFields (str : List UInt8) : DateFields :=
  let zero : Option ℤ := some 0
  { year := parseInt (slice 0 4 str)
    month := parseInt (slice 5 7 str)
    day := parseInt (slice 8 10 str)
    hour := if 11 < str.length then parseInt (slice 11 13 str) else zero
    minute := if 11 < str.length then parseInt (slice 14 16 str) else zero
    second := if 11 < str.length then parseInt (slice 17 19 str) else zero
    micro := if 20 < str.length then parseInt (str.drop 20) else zero }

/-- The fields of the value of a date column. -/
def dateFields (o : RowOptions) (value : ColumnValue) : DateFields :=
  if o.datesAsString=false then
    match value with
    | .date ms => instantFields o ms
    | _ => instantFields o 0
  else
    match value with
    | .str text => stringFields text
    | _ => stringFields []

/-- The test that a sum is not zero. `NaN` is not. -/
def sumNonzero (fields : List (Option ℤ)) : Bool :=
  fields.any (·.isNone) || decide ((fields.map (·.getD 0)).sum≠0)

/-- The number of bytes after the length byte of a date. -/
def DateFields.len (f : DateFields) : ℕ :=
  if sumNonzero [f.micro]=true then 11
  else if sumNonzero [f.hour,f.minute,f.second]=true then 7
  else if sumNonzero [f.year,f.month,f.day]=true then 4
  else 0

/-- The low bytes of a field. -/
def lowBytes (k : ℕ) (field : Option ℤ) : ℕ := wrap k (field.getD 0)

/-- A date column. -/
def serializeDate (f : DateFields) : Write Unit := do
  writeUint8 f.len
  doWhen (4 ≤ f.len) (do
    writeUint16 (lowBytes 2 f.year)
    writeUint8 (lowBytes 1 f.month)
    writeUint8 (lowBytes 1 f.day)
    doWhen (7 ≤ f.len) (do
      writeUint8 (lowBytes 1 f.hour)
      writeUint8 (lowBytes 1 f.minute)
      writeUint8 (lowBytes 1 f.second)
      doWhen (11 ≤ f.len) (writeUint32 (lowBytes 4 f.micro))))

/-- The double that stands for a number of seconds, as the reader computes it from the
seconds and the microseconds. -/
def secondsNumber (micros : ℤ) : ℚ :=
  let n := micros.natAbs
  let q := toDouble ((n/1000000 : ℕ)+toDouble ((n%1000000 : ℕ)/1000000))
  if micros < 0 then -q else q

/-- A value as a number, in the columns of times. -/
def asSeconds : ColumnValue → ℚ
  | .seconds micros => secondsNumber micros
  | _ => 0

/-- The fraction of a second, in microseconds. -/
def microOf (num : ℚ) : ℕ := (trunc (toDouble (|num| * 1000000))%1000000).toNat

/-- The whole seconds. -/
def wholeOf (num : ℚ) : ℕ := (trunc |num|).toNat

/-- A time column. -/
def serializeTime (num : ℚ) : Write Unit :=
  if num=0 then writeUint8 0 else do
    writeUint8 (if microOf num≠0 then 12 else 8)
    writeUint8 (if num < 0 then 1 else 0)
    writeUint32 (wholeOf num/60/60/24)
    writeUint8 (wholeOf num/60/60%24)
    writeUint8 (wholeOf num/60%60)
    writeUint8 (wholeOf num%60)
    doWhen (microOf num≠0) (writeUint32 (microOf num))

/-! ## Byte strings -/

/-- The bytes of a string or a byte array. -/
def blobBytes : ColumnValue → List UInt8
  | .bytes v => v
  | .str v => v
  | _ => []

/-- A string or blob column. Only the last column of a row can end a packet. -/
def serializeBlob (isLast : Bool) (v : List UInt8) : Write Unit := do
  writeLenencInt v.length
  let s ← get
  if s.bufferEnd+v.length ≤ s.buffer.length then writeShortBytes v
  else if isLast=false then do
    ensureRoom v.length
    writeShortBytes v
  else do
    let _ ← sendWithData (.bytes v) false
    startWritingNewPacket false

/-! ## Rows -/

/-- One column of a row that is not null. -/
def serializeValue (o : RowOptions) (f : FloatWidths) (isLast : Bool) (column : Column)
    (value : ColumnValue) : Write Unit :=
  let n := asInteger value
  match column.typeId with
  | .TINY => if column.isUnsigned=true then writeUint8 (wrap 1 n) else writeInt8 n
  | .SHORT => if column.isUnsigned=true then writeUint16 (wrap 2 n) else writeInt16 n
  | .YEAR => if column.isUnsigned=true then writeUint16 (wrap 2 n) else writeInt16 n
  | .INT24 => if column.isUnsigned=true then writeUint32 (wrap 4 n) else writeInt32 n
  | .LONG => if column.isUnsigned=true then writeUint32 (wrap 4 n) else writeInt32 n
  | .LONGLONG => if column.isUnsigned=true then writeUint64 n else writeInt64 n
  | .FLOAT => writeFloat f value
  | .DOUBLE => writeDouble f value
  | .DATE => serializeDate (dateFields o value)
  | .DATETIME => serializeDate (dateFields o value)
  | .TIMESTAMP => serializeDate (dateFields o value)
  | .TIME => serializeTime (asSeconds value)
  | .BIT => writeUint16 (if n≠0 then 0x0101 else 0x0001)
  | _ => serializeBlob isLast (blobBytes value)

/-- A row with the column of each value. -/
abbrev ValueRow := List (Column×ColumnValue)

/-- The columns of a row from one on. -/
def serializeColumns (o : RowOptions) (f : FloatWidths) : ValueRow → Write Unit
  | [] => pure ()
  | (column,value)::rest => do
    doWhen (value≠.null) (serializeValue o f rest.isEmpty column value)
    serializeColumns o f rest

/-- Send the packet when half of the buffer is full. -/
def maybeFlush : Write Unit := do
  let s ← get
  doWhen (s.buffer.length ≤ 2*(s.bufferEnd-4)) (do
    send
    startWritingNewPacket false)

/-- `serializeRowBinary()`. -/
def serializeRowBinary (o : RowOptions) (f : FloatWidths) (row : ValueRow) : Write Unit := do
  nullLoop 0 4 (row.map (fun p => decide (p.2=.null)))
  serializeColumns o f row
  maybeFlush

/-- `serializeBegin()`. -/
def serializeBegin : Write Unit := startWritingNewPacket false

/-- `serializeEnd()`. -/
def serializeEnd : Write Unit := do
  let s ← get
  if 4 < s.bufferEnd then send else setBounds 0 0

end SpiritMysql.RowWriter
