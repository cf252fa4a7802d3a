import SpiritMysql.Rounding
import SpiritMysql.RowReader

/-!
# Values of the text protocol

`convColumnValue()`: how the bytes of a text column become a value of the
column's type.
-/

namespace SpiritMysql.ConvColumnValue

open CivilDate ColumnValues DecimalText Rounding RowReader

/-- `'-'`. -/
def cMinus : UInt8 := 45
/-- `'0'`. -/
def cZero : UInt8 := 48
/-- `' '`. -/
def cSpace : UInt8 := 32
/-- `':'`. -/
def cColon : UInt8 := 58
/-- `'.'`. -/
def cDot : UInt8 := 46
/-- `'e'`. -/
def cE : UInt8 := 101
/-- `'E'`. -/
def cECap : UInt8 := 69

/-- `NONSAFE_INTEGER_MIN_LEN`: shorter integers are safe. -/
def nonsafeIntegerMinLen : ℕ := 15

/-- What the language leaves to its engine. -/
structure Engine where
  /-- `10 ** n`, an approximation of the power. -/
  pow10 : ℤ → ℚ
  /-- The powers of a fraction's digits are a few units off at most. -/
  pow10_near : ∀ n : ℕ,n ≤ 6 → |pow10 (-n)-1/10^n| ≤ 1/10^n/2^51
  /-- The IEEE bytes of a number. -/
  doubleBytes : ℚ → List UInt8

/-- An index as `subarray()` and `indexOf()` take it: negative ones count from
the end. -/
def clampIndex (value : List UInt8) (i : ℤ) : ℕ :=
  if i < 0 then (value.length+i).toNat else min i.toNat value.length

/-- `subarray()` with an end. -/
def subarray (value : List UInt8) (start stop : ℤ) : List UInt8 :=
  (value.take (clampIndex value stop)).drop (clampIndex value start)

/-- `subarray()` without an end. -/
def subarrayFrom (value : List UInt8) (start : ℤ) : List UInt8 :=
  value.drop (clampIndex value start)

/-- `indexOf()` from an index on. -/
def indexOf (value : List UInt8) (c : UInt8) (start : ℤ) : ℤ :=
  if c ∈ subarrayFrom value start then
    (clampIndex value start+(subarrayFrom value start).idxOf c : ℕ)
  else -1

/-- The test of the first byte. -/
def isNegative (value : List UInt8) : Bool := decide (value.head?=some cMinus)

/-- The bytes after the sign. -/
def unsigned (value : List UInt8) : List UInt8 :=
  if isNegative value=true then value.tail else value

/-- The sign of a result. -/
def withSign {α : Type} [Neg α] (value : List UInt8) (result : α) : α :=
  if isNegative value=true then -result else result

/-- `dataToInt()`. -/
def dataToInt (value : List UInt8) : ℤ := withSign value (readDigits 0 (unsigned value))

/-- The loop of `dataToNumber()`: the digits read so far and the exponent. -/
def numberLoop : List UInt8 → ℚ → ℤ → ℤ → ℚ×ℤ
  | [],result,decimalExponent,_ => (result,decimalExponent)
  | c::value,result,decimalExponent,decimalExponentInc =>
    if c=cDot then numberLoop value result decimalExponent (-1)
    else if c=cE ∨ c=cECap then (result,decimalExponent+dataToInt value)
    else numberLoop value (toDouble (toDouble (result*10)+digitValue c))
      (decimalExponent+decimalExponentInc) decimalExponentInc

/-- `dataToNumber()`. -/
def dataToNumber (js : Engine) (value : List UInt8) : ℚ :=
  let r := numberLoop (unsigned value) 0 0 0
  withSign value (if r.2≠0 then toDouble (r.1*js.pow10 r.2) else r.1)

/-- The digit at an index. -/
def digitAt (value : List UInt8) (i : ℕ) : ℤ := digitValue (value.getD i 0)

/-- The fraction of `dataToTime()`, read from the last digit. -/
def timeFraction (digits : List UInt8) : ℚ :=
  (digits.reverse.dropWhile (· =cZero)).foldl (fun frac c => (frac+digitValue c)/10) 0

/-- The rest of `dataToTime()` from the first colon on. -/
def timeFromColon (value : List UInt8) (i : ℕ) (hours : ℤ) : ℚ :=
  let minutes := digitAt value (i+1)*10+digitAt value (i+2)+hours*60
  let seconds := digitAt value (i+4)*10+digitAt value (i+5)+minutes*60
  if value.getD (i+6) 0=cDot then seconds+timeFraction (value.drop (i+7)) else seconds

/-- `dataToTime()`: two or three digits of hours, after a sign. -/
def dataToTime (value : List UInt8) : ℚ :=
  let i := if isNegative value=true then 1 else 0
  let hours := digitAt value i*10+digitAt value (i+1)
  withSign value (if value.getD (i+2) 0≠cColon then
      timeFromColon value (i+3) (hours*10+digitAt value (i+2))
    else timeFromColon value (i+2) hours)

/-- The seconds and the fraction of `dataToDate()`. -/
def secondFrom (js : Engine) (value : List UInt8) (pos : ℤ) : ℤ×ℚ :=
  let pos2 := indexOf value cDot pos
  if pos2= -1 then (dataToInt (subarrayFrom value pos),0)
  else (dataToInt (subarray value pos pos2),dataToNumber js (subarrayFrom value pos2))

/-- The time of `dataToDate()`. -/
def timeFrom (js : Engine) (value : List UInt8) (pos : ℤ) : ℤ×ℤ×ℤ×ℚ :=
  let pos2 := indexOf value cColon pos
  let hour := dataToInt (subarray value pos pos2)
  let pos := pos2+1
  let pos2 := indexOf value cColon pos
  if pos2= -1 then (hour,dataToInt (subarrayFrom value pos),0,0)
  else (hour,dataToInt (subarray value pos pos2),secondFrom js value (pos2+1))

/-- The day and the time of `dataToDate()`. -/
def dayFrom (js : Engine) (value : List UInt8) (pos : ℤ) : ℤ×ℤ×ℤ×ℤ×ℚ :=
  let pos2 := indexOf value cSpace pos
  if pos2= -1 then (dataToInt (subarrayFrom value pos),0,0,0,0)
  else (dataToInt (subarray value pos pos2),timeFrom js value (pos2+1))

/-- The year that the `Date` constructor takes: two digits mean the twentieth
century. -/
def fullYear (year : ℤ) : ℤ := if 0 ≤ year ∧ year ≤ 99 then 1900+year else year

/-- `dataToDate()`: the milliseconds of the `Date`. -/
def dataToDate (js : Engine) (o : RowOptions) (value : List UInt8) : ℤ :=
  let pos := indexOf value cMinus 1
  let year := dataToInt (subarray value 0 pos)
  let pos := pos+1
  let pos2 := indexOf value cMinus pos
  let month := dataToInt (subarray value pos pos2)
  let (day,hour,minute,second,frac) := dayFrom js value (pos2+1)
  makeInstant o.systemZone (fullYear year) (month-1) day hour minute second
    (trunc (toDouble (frac*1000)))-o.timezoneOffset

/-- A value of a column of 64-bit integers. -/
def longlongValue (value : List UInt8) : ColumnValue :=
  if nonsafeIntegerMinLen < value.length ∧
      (dataToInt value < -maxSafeInteger ∨ maxSafeInteger < dataToInt value) then
    .bigint (dataToInt value)
  else .number (dataToInt value)

/-- `convColumnValue()`. -/
def convColumnValue (js : Engine) (o : RowOptions) (column : Column) (value : List UInt8) :
    ColumnValue :=
  match column.typeId with
  | .NULL => .null
  | .BIT => .bool (value.any (·≠0))
  | .DOUBLE => .float (js.doubleBytes (dataToNumber js value))
  | .FLOAT => .float (js.doubleBytes (dataToNumber js value))
  | .LONGLONG => longlongValue value
  | .TINY => .number (dataToInt value)
  | .SHORT => .number (dataToInt value)
  | .LONG => .number (dataToInt value)
  | .INT24 => .number (dataToInt value)
  | .YEAR => .number (dataToInt value)
  | .JSON =>
    if o.isForSerialize=true then .bytes value
    else if o.jsonAsString=true then .str value
    else .json value
  | .DATE => if o.datesAsString=true then .str value else .date (dataToDate js o value)
  | .DATETIME => if o.datesAsString=true then .str value else .date (dataToDate js o value)
  | .TIMESTAMP => if o.datesAsString=true then .str value else .date (dataToDate js o value)
  | .TIME => .seconds ⌊dataToTime value*1000000⌋
  | t =>
    if column.charsetId=charsetBinary ∧ t≠.NEWDECIMAL ∧ t≠.DECIMAL ∨ o.isForSerialize=true then
      .bytes value
    else .str value

/-- The options with the function that converts text columns. -/
def withConv (js : Engine) (o : RowOptions) : RowOptions :=
  {o with convColumnValue := convColumnValue js o}

theorem clampIndex_natCast {value : List UInt8} {i : ℕ} (h : i ≤ value.length) :
    clampIndex value i=i := by
  unfold clampIndex
  rw [if_neg (by omega),Int.toNat_natCast,Nat.min_eq_left h]

/-- The bytes from an index on. -/
theorem subarrayFrom_append (pre rest : List UInt8) :
    subarrayFrom (pre++rest) pre.length=rest := by
  unfold subarrayFrom
  rw [clampIndex_natCast (by rw [List.length_append]; omega),List.drop_left]

/-- The bytes between two indexes. -/
theorem subarray_append (pre part rest : List UInt8) :
    subarray (pre++part++rest) pre.length (pre.length+part.length : ℕ)=part := by
  unfold subarray
  rw [clampIndex_natCast (by simp only [List.length_append]; omega),
    clampIndex_natCast (by simp only [List.length_append]; omega),←List.length_append,
    List.take_left,List.drop_left]

/-- A byte that is found after others. -/
theorem indexOf_append {c : UInt8} (pre : List UInt8) {part : List UInt8} (rest : List UInt8)
    (h : c∉part) :
    indexOf (pre++(part++c::rest)) c pre.length=(pre.length+part.length : ℕ) := by
  unfold indexOf
  rw [subarrayFrom_append,if_pos (List.mem_append_right _ List.mem_cons_self),
    clampIndex_natCast (by rw [List.length_append]; omega),List.idxOf_append_of_notMem h,
    List.idxOf_cons_self,Nat.add_zero]

/-- A byte that is not found. -/
theorem indexOf_none {c : UInt8} (pre : List UInt8) {part : List UInt8} (h : c∉part) :
    indexOf (pre++part) c pre.length= -1 := by
  unfold indexOf
  rw [subarrayFrom_append,if_neg h]

/-- A field that a separator ends: where the separator is, and the field. -/
theorem field_append {c : UInt8} (pre : List UInt8) {part : List UInt8} (rest : List UInt8)
    (h : c∉part) :
    indexOf (pre++(part++c::rest)) c pre.length=(pre.length+part.length : ℕ) ∧
    subarray (pre++(part++c::rest)) pre.length (pre.length+part.length : ℕ)=part ∧
    (pre++(part++c::rest)=(pre++part++[c])++rest) ∧
    (((pre.length+part.length : ℕ) : ℤ)+1=((pre++part++[c]).length : ℤ)) := by
  refine ⟨indexOf_append pre rest h,?_,by simp only [List.append_assoc,List.singleton_append],?_⟩
  · rw [←List.append_assoc]
    exact subarray_append pre part (c::rest)
  · rw [List.length_append,List.length_append,List.length_singleton]
    push_cast
    rfl

/-- Digits have no sign. -/
theorem dataToInt_digits {text : List UInt8} (h : ∀ c ∈ text,IsDigit c) :
    dataToInt text=readDigits 0 text := by
  have hn : isNegative text=false := by
    unfold isNegative
    refine decide_eq_false (fun hs => ?_)
    exact not_mem_of_digits h (Or.inl (by decide)) (List.mem_of_head? hs)
  unfold dataToInt withSign unsigned
  rw [hn]
  rfl

/-- An unsigned integer in decimal notation is read back. -/
theorem dataToInt_padded (w n : ℕ) : dataToInt (padded w n)=n := by
  rw [dataToInt_digits (padded_digits w n),readDigits_padded]

/-- A negative integer is read back. -/
theorem dataToInt_negative (n : ℕ) : dataToInt (cMinus::decimal n)= -n := by
  change -readDigits 0 (decimal n)= -n
  rw [readDigits_decimal]

end SpiritMysql.ConvColumnValue
