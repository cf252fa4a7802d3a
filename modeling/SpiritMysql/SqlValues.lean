import SpiritMysql.RowStream
import SpiritMysql.TextValues

/-!
# SQL values in both protocols

The values of columns, how a server writes them in the text and in the binary
protocol, and when the two deserializers make the same value of both.
-/

namespace SpiritMysql.SqlValues

open ByteCodec CivilDate ColumnValues ConvColumnValue DecimalText ReadScript RowReader RowStream
open TextValues Rounding

/-- A date. Zeros stand for the parts that are not known. -/
structure SqlDate where
  /-- The year. -/
  year : ℕ
  /-- The month. -/
  month : ℕ
  /-- The day. -/
  day : ℕ
  /-- Years have four digits. -/
  year_lt : year < 10000
  /-- The last month. -/
  month_le : month ≤ 12
  /-- The last day. -/
  day_le : day ≤ 31

/-- A time of the day. -/
structure SqlClock where
  /-- The hour. -/
  hour : ℕ
  /-- The minute. -/
  minute : ℕ
  /-- The second. -/
  second : ℕ
  /-- The last hour. -/
  hour_lt : hour < 24
  /-- The last minute. -/
  minute_lt : minute < 60
  /-- The last second. -/
  second_lt : second < 60

/-- A fraction of a second with a number of decimals. -/
structure SqlFraction where
  /-- How many decimals the column has. -/
  decimals : ℕ
  /-- The microseconds. -/
  micro : ℕ
  /-- Microseconds are the finest. -/
  decimals_le : decimals ≤ 6
  /-- Less than a second. -/
  micro_lt : micro < 10^6
  /-- Other decimals are zero. -/
  dvd : 10^(6-decimals) ∣ micro

/-- A time interval. -/
structure SqlTime where
  /-- Whether there is a minus. -/
  negative : Bool
  /-- The hours. -/
  hours : ℕ
  /-- The minutes. -/
  minutes : ℕ
  /-- The seconds. -/
  seconds : ℕ
  /-- The fraction. -/
  fraction : SqlFraction
  /-- The last hour. -/
  hours_le : hours ≤ 838
  /-- The last minute. -/
  minutes_lt : minutes < 60
  /-- The last second. -/
  seconds_lt : seconds < 60
  /-- There is no negative zero. -/
  signed : negative=true → hours≠0 ∨ minutes≠0 ∨ seconds≠0 ∨ fraction.micro≠0

/-- A value of a column. -/
inductive SqlValue where
  /-- `NULL`. -/
  | null
  /-- An integer, with the width to which zeros fill its text. -/
  | int (n : ℤ) (zeros : ℕ)
  /-- The bytes of `BIT(n)`. -/
  | bits (v : List UInt8)
  /-- A date. -/
  | date (d : SqlDate)
  /-- A date and time. -/
  | datetime (d : SqlDate) (c : SqlClock) (f : SqlFraction)
  /-- A time. -/
  | time (t : SqlTime)
  /-- The bytes of a string, a blob, a decimal number or JSON. -/
  | bytes (v : List UInt8)

/-- The number of bytes of an integer in the binary protocol. -/
def integerBytes : MysqlType → ℕ
  | .TINY => 1
  | .SHORT => 2
  | .YEAR => 2
  | .INT24 => 4
  | .LONG => 4
  | .LONGLONG => 8
  | _ => 0

/-- The number of bytes that the values of a type need. -/
def storedBytes : MysqlType → ℕ
  | .INT24 => 3
  | t => integerBytes t

/-- The integers of a width and signedness. -/
def InRange (isUnsigned : Bool) (k : ℕ) (n : ℤ) : Prop :=
  if isUnsigned=true then 0 ≤ n ∧ n < 256^k else -(256^k : ℤ) ≤ 2*n ∧ 2*n < 256^k

/-- The values of a column. -/
inductive Of : Column → SqlValue → Prop where
  | null (c : Column) : Of c .null
  | int {c : Column} {n : ℤ} {zeros : ℕ} (ht : 0 < integerBytes c.typeId)
    (hn : InRange c.isUnsigned (storedBytes c.typeId) n) (hz : zeros ≤ 255) : Of c (.int n zeros)
  | bits {c : Column} {v : List UInt8} (ht : c.typeId=.BIT) (hv : v.length ≤ 8) : Of c (.bits v)
  | date {c : Column} (d : SqlDate) (ht : c.typeId=.DATE) : Of c (.date d)
  | datetime {c : Column} (d : SqlDate) (k : SqlClock) (f : SqlFraction)
    (ht : c.typeId=.DATETIME ∨ c.typeId=.TIMESTAMP) : Of c (.datetime d k f)
  | time {c : Column} (t : SqlTime) (ht : c.typeId=.TIME) : Of c (.time t)
  | bytes {c : Column} {v : List UInt8} (ht : isBlob c.typeId=true) (hnull : c.typeId≠.NULL)
    (hv : v.length < longBlob) : Of c (.bytes v)

/-- The decimals of a fraction, in text. -/
def SqlFraction.text (f : SqlFraction) : List UInt8 :=
  if f.decimals=0 then [] else cDot::padded f.decimals (f.micro/10^(6-f.decimals))

/-- A text of hours, minutes and seconds. -/
def clockText (hours minutes seconds : ℕ) (f : SqlFraction) : List UInt8 :=
  padded 2 hours++cColon::(padded 2 minutes++cColon::(padded 2 seconds++f.text))

/-- The text form of a value that is not null. -/
def textBytes : SqlValue → List UInt8
  | .null => []
  | .int n zeros => if n < 0 then cMinus::decimal n.natAbs else padded zeros n.toNat
  | .bits v => v
  | .date d => padded 4 d.year++cMinus::(padded 2 d.month++cMinus::padded 2 d.day)
  | .datetime d c f =>
    padded 4 d.year++cMinus::(padded 2 d.month++cMinus::(padded 2 d.day++
      cSpace::clockText c.hour c.minute c.second f))
  | .time t =>
    (if t.negative=true then [cMinus] else [])++clockText t.hours t.minutes t.seconds t.fraction
  | .bytes v => v

/-- A column of a text row. -/
def textForm : SqlValue → TextCell
  | .null => none
  | v => some (textBytes v)

/-- A date of zeros only. -/
def SqlDate.IsZero (d : SqlDate) : Prop := d.year=0 ∧ d.month=0 ∧ d.day=0

instance (d : SqlDate) : Decidable d.IsZero := inferInstanceAs (Decidable (_ ∧ _))

/-- Midnight, up to the fraction. -/
def SqlClock.IsZero (c : SqlClock) : Prop := c.hour=0 ∧ c.minute=0 ∧ c.second=0

instance (c : SqlClock) : Decidable c.IsZero := inferInstanceAs (Decidable (_ ∧ _))

/-- A date in the binary protocol: zeros are left out. -/
def dateCell (d : SqlDate) : DateCell :=
  if d.IsZero then .zero else .day (.ofNat d.year) (.ofNat d.month) (.ofNat d.day)

/-- A date and time in the binary protocol: zeros at the end are left out. -/
def datetimeCell (d : SqlDate) (c : SqlClock) (f : SqlFraction) : DateCell :=
  if f.micro≠0 then
    .micro (.ofNat d.year) (.ofNat d.month) (.ofNat d.day) (.ofNat c.hour) (.ofNat c.minute)
      (.ofNat c.second) (.ofNat f.micro)
  else if ¬c.IsZero then
    .second (.ofNat d.year) (.ofNat d.month) (.ofNat d.day) (.ofNat c.hour) (.ofNat c.minute)
      (.ofNat c.second)
  else dateCell d

/-- A time in the binary protocol: zeros at the end are left out. -/
def timeCell (t : SqlTime) : TimeCell :=
  if t.fraction.micro≠0 then
    .micro (if t.negative=true then 1 else 0) (.ofNat (t.hours/24)) (.ofNat (t.hours%24))
      (.ofNat t.minutes) (.ofNat t.seconds) (.ofNat t.fraction.micro)
  else if t.hours≠0 ∨ t.minutes≠0 ∨ t.seconds≠0 then
    .second (if t.negative=true then 1 else 0) (.ofNat (t.hours/24)) (.ofNat (t.hours%24))
      (.ofNat t.minutes) (.ofNat t.seconds)
  else .zero

/-- A column of a binary row. -/
def binaryForm (typeId : MysqlType) : SqlValue → Option BinaryCell
  | .null => none
  | .int n _ => some (.fixed (leBytes (integerBytes typeId) (wrap (integerBytes typeId) n)))
  | .bits v => some (.blob v)
  | .date d => some (.date (dateCell d))
  | .datetime d c f => some (.date (datetimeCell d c f))
  | .time t => some (.time (timeCell t))
  | .bytes v => some (.blob v)

/-- The two zones together move the zero date of the text protocol, which becomes
the last day of November 1899, to the start of the epoch. -/
def Epoch (o : RowOptions) : Prop := o.systemZone+o.timezoneOffset= -2211753600000

/-- No whole millisecond is lost: the product of the digits, the power of ten and
a thousand, each rounded to a double, is not below it. -/
def SqlFraction.Kept (js : Engine) (f : SqlFraction) : Prop :=
  f.decimals≠0 → 1000 ∣ f.micro →
    ((f.micro/1000 : ℕ) : ℚ) ≤ fractionMillis js f.decimals (f.micro/10^(6-f.decimals))

/-- When a date is the same in both protocols. -/
def SameDate (js : Engine) (o : RowOptions) : SqlValue → Prop
  | .date d => o.datesAsString=true ∨ (d.IsZero → Epoch o)
  | .datetime d c f =>
    if o.datesAsString=true then f.decimals=0 ∨ f.decimals=6 ∧ f.micro≠0
    else (d.IsZero → c.IsZero → f.micro=0 → Epoch o) ∧ f.Kept js
  | _ => True

/-- When a value is the same in both protocols. The limit of lengths is for
every type in the text protocol, and only for byte strings in the binary one. -/
def Agrees (js : Engine) (o : RowOptions) : SqlValue → Prop
  | .null => True
  | .bytes _ => True
  | v => (textBytes v).length ≤ o.maxColumnLen ∧ SameDate js o v

/-- A text column against a value that is not null. -/
theorem textValue_eq_iff {js : Engine} {o : RowOptions} {c : Column} {text : List UInt8}
    {b : ColumnValue} (hv : o.rowType≠.VOID) (hb : b≠.null) :
    textValue (withConv js o) c (some text)=b↔
      text.length ≤ o.maxColumnLen ∧ convColumnValue js o c text=b := by
  unfold textValue withConv
  dsimp only
  by_cases h : text.length ≤ o.maxColumnLen
  · rw [if_neg (fun hn => hn.elim (fun hn => absurd h (Nat.not_le.mpr hn)) hv)]
    exact ⟨fun he => ⟨h,he⟩,fun he => he.2⟩
  · rw [if_pos (Or.inl (Nat.not_le.mp h))]
    exact ⟨fun he => absurd he.symm hb,fun he => absurd he.1 h⟩

/-- An integer is read back from its bytes. -/
theorem integerValue_leBytes {isUnsigned : Bool} {k : ℕ} {n : ℤ} (h : InRange isUnsigned k n) :
    integerValue isUnsigned (leBytes k (wrap k n))=n := by
  unfold integerValue
  unfold InRange at h
  rw [leBytes_length]
  split
  · next hu =>
    rw [if_pos hu] at h
    have hn : n=(n.toNat : ℤ) := (Int.toNat_of_nonneg h.1).symm
    have hl : n.toNat < 256^k := by
      have h2 := h.2
      rw [hn] at h2
      exact_mod_cast h2
    rw [hn,wrap_of_lt hl,leNat_leBytes_of_lt hl]
  · next hu =>
    rw [if_neg hu] at h
    exact leInt_leBytes h.1 h.2

/-- A wider range has the integers of a narrower one. -/
theorem InRange.mono {isUnsigned : Bool} {k l : ℕ} {n : ℤ} (h : InRange isUnsigned k n) (hk : k ≤ l) :
    InRange isUnsigned l n := by
  have hp : (256 : ℤ)^k ≤ 256^l := pow_le_pow_right₀ (by norm_num) hk
  unfold InRange at h ⊢
  split
  · next hu =>
    rw [if_pos hu] at h
    exact ⟨h.1,h.2.trans_le hp⟩
  · next hu =>
    rw [if_neg hu] at h
    exact ⟨by linarith [h.1],h.2.trans_le hp⟩

/-- The text of an integer is read back. -/
theorem dataToInt_text (n : ℤ) (zeros : ℕ) : dataToInt (textBytes (.int n zeros))=n := by
  change dataToInt (if n < 0 then cMinus::decimal n.natAbs else padded zeros n.toNat)=n
  split
  · rw [dataToInt_negative]
    omega
  · rw [dataToInt_padded]
    omega

/-- Short texts are of safe integers. -/
theorem safe_of_short {n : ℤ} {zeros : ℕ}
    (h : (textBytes (.int n zeros)).length ≤ nonsafeIntegerMinLen) :
    -maxSafeInteger ≤ n ∧ n ≤ maxSafeInteger := by
  have hp : ∀ m : ℕ,(decimal m).length ≤ 15 → m < 10^15 := fun m hm =>
    (lt_pow_decimal m).trans_le (Nat.pow_le_pow_right (by decide) hm)
  unfold nonsafeIntegerMinLen at h
  unfold maxSafeInteger
  change (if n < 0 then cMinus::decimal n.natAbs else padded zeros n.toNat).length ≤ 15 at h
  split at h
  · have hn := hp n.natAbs (by rw [List.length_cons] at h; omega)
    omega
  · rw [padded_length_eq] at h
    have hn := hp n.toNat (by omega)
    omega

/-- 64-bit integers become big in both protocols alike. -/
theorem longlongValue_text (n : ℤ) (zeros : ℕ) :
    longlongValue (textBytes (.int n zeros))=numberOrBigint n := by
  unfold longlongValue numberOrBigint
  rw [dataToInt_text]
  by_cases hs : -maxSafeInteger ≤ n ∧ n ≤ maxSafeInteger
  · rw [if_pos hs,if_neg (by omega)]
  · rw [if_neg hs,if_pos]
    refine ⟨?_,by omega⟩
    by_contra hl
    exact hs (safe_of_short (Nat.not_lt.mp hl))

/-- Integers are the same in both protocols. -/
theorem convColumnValue_int {js : Engine} {o : RowOptions} {c : Column} {n : ℤ} {zeros : ℕ}
    (ht : 0 < integerBytes c.typeId) (hn : InRange c.isUnsigned (integerBytes c.typeId) n) :
    convColumnValue js o c (textBytes (.int n zeros))=
      binaryValue (withConv js o) c
        (.fixed (leBytes (integerBytes c.typeId) (wrap (integerBytes c.typeId) n))) := by
  have hi := integerValue_leBytes hn
  have hd := dataToInt_text n zeros
  unfold convColumnValue binaryValue
  cases hc : c.typeId <;> rw [hc] at ht hi
  case LONGLONG => exact (longlongValue_text n zeros).trans (congrArg numberOrBigint hi.symm)
  case TINY => exact congrArg ColumnValue.number (hd.trans hi.symm)
  case SHORT => exact congrArg ColumnValue.number (hd.trans hi.symm)
  case YEAR => exact congrArg ColumnValue.number (hd.trans hi.symm)
  case INT24 => exact congrArg ColumnValue.number (hd.trans hi.symm)
  case LONG => exact congrArg ColumnValue.number (hd.trans hi.symm)
  all_goals exact absurd ht (Nat.lt_irrefl 0)

/-- A column without decimals has no microseconds. -/
theorem SqlFraction.micro_zero {f : SqlFraction} (h : f.decimals=0) : f.micro=0 := by
  have hd := f.dvd
  rw [h] at hd
  exact Nat.eq_zero_of_dvd_of_lt hd f.micro_lt

/-- The digits of a fraction fit its decimals. -/
theorem SqlFraction.digits_lt (f : SqlFraction) : f.micro/10^(6-f.decimals) < 10^f.decimals := by
  rw [Nat.div_lt_iff_lt_mul (by positivity),←pow_add,Nat.add_sub_cancel' f.decimals_le]
  exact f.micro_lt

/-- The milliseconds that the text protocol has. -/
def SqlFraction.textMillis (js : Engine) (f : SqlFraction) : ℤ :=
  if f.decimals=0 then 0 else trunc (fractionMillis js f.decimals (f.micro/10^(6-f.decimals)))

/-- They are those of the binary protocol if no whole millisecond is lost. -/
theorem textMillis_iff (js : Engine) (f : SqlFraction) :
    f.textMillis js=(f.micro/1000 : ℕ)↔f.Kept js := by
  unfold SqlFraction.textMillis SqlFraction.Kept
  by_cases h : f.decimals=0
  · rw [if_pos h,f.micro_zero h]
    exact ⟨fun _ hn => absurd h hn,fun _ => rfl⟩
  · rw [if_neg h,trunc_fractionMillis js f.decimals_le f.dvd f.micro_lt]
    exact ⟨fun hk _ => hk,fun hk => hk h⟩

/-- A second that is whole has no milliseconds. -/
theorem textMillis_zero {js : Engine} {f : SqlFraction} (h : f.micro=0) : f.textMillis js=0 := by
  have hk : f.Kept js := by
    intro _ _
    rw [h]
    exact fractionMillis_nonneg js f.decimals_le _
  have hm := (textMillis_iff js f).mpr hk
  rwa [h] at hm

/-- Seconds and fraction of a text. -/
theorem secondFrom_text (js : Engine) (f : SqlFraction) (s : ℕ) (pre : List UInt8) :
    secondFrom js (pre++(padded 2 s++f.text)) pre.length=
      ((s : ℤ),if f.decimals=0 then 0 else fractionDouble js f.decimals (f.micro/10^(6-f.decimals))) := by
  unfold SqlFraction.text
  by_cases h : f.decimals=0
  · rw [if_pos h,if_pos h,List.append_nil,secondFrom_whole]
  · rw [if_neg h,if_neg h,secondFrom_fraction,
      dataToNumber_fraction js (Nat.pos_of_ne_zero h) f.decimals_le f.digits_lt]

/-- A date of the text protocol. -/
theorem dataToDate_date (js : Engine) (o : RowOptions) (d : SqlDate) :
    dataToDate js o (textBytes (.date d))=
      makeInstant o.systemZone (dateYear d.year) (d.month-1) d.day 0 0 0 0-o.timezoneOffset := by
  have hz : trunc (toDouble (0*1000))=0 := by
    rw [zero_mul,toDouble_zero]
    exact (if_pos le_rfl).trans Int.floor_zero
  have h := dataToDate_spec (fun pre => dayFrom_day js pre d.day) o d.year_lt d.month
  rw [hz] at h
  exact h

/-- A date and time of the text protocol. -/
theorem dataToDate_datetime (js : Engine) (o : RowOptions) (d : SqlDate) (c : SqlClock)
    (f : SqlFraction) :
    dataToDate js o (textBytes (.datetime d c f))=
      makeInstant o.systemZone (dateYear d.year) (d.month-1) d.day c.hour c.minute c.second
        (f.textMillis js)-o.timezoneOffset := by
  have h := dataToDate_spec (fun pre => dayFrom_time (fun pre =>
    timeFrom_spec (secondFrom_text js f c.second) pre c.hour c.minute) pre d.day) o d.year_lt d.month
  refine h.trans ?_
  have hm : trunc (toDouble ((if f.decimals=0 then 0
      else fractionDouble js f.decimals (f.micro/10^(6-f.decimals)))*1000))=f.textMillis js := by
    unfold SqlFraction.textMillis
    split
    · rw [zero_mul,toDouble_zero]
      exact (if_pos le_rfl).trans Int.floor_zero
    · rfl
  rw [hm]

/-- The fields of a date fit their words. -/
theorem SqlDate.words (d : SqlDate) : (UInt16.ofNat d.year).toNat=d.year ∧
    (UInt8.ofNat d.month).toNat=d.month ∧ (UInt8.ofNat d.day).toNat=d.day := by
  have hy := d.year_lt
  have hm := d.month_le
  have hd := d.day_le
  rw [UInt16.toNat_ofNat',UInt8.toNat_ofNat',UInt8.toNat_ofNat']
  omega

/-- The fields of a time of the day fit their words. -/
theorem SqlClock.words (c : SqlClock) : (UInt8.ofNat c.hour).toNat=c.hour ∧
    (UInt8.ofNat c.minute).toNat=c.minute ∧ (UInt8.ofNat c.second).toNat=c.second := by
  have hh := c.hour_lt
  have hm := c.minute_lt
  have hs := c.second_lt
  rw [UInt8.toNat_ofNat',UInt8.toNat_ofNat',UInt8.toNat_ofNat']
  omega

/-- The microseconds fit their word. -/
theorem SqlFraction.word (f : SqlFraction) : (UInt32.ofNat f.micro).toNat=f.micro := by
  have hm := f.micro_lt
  rw [UInt32.toNat_ofNat']
  omega

/-- The instant of a date of the binary protocol, unless all is zero. -/
theorem dateCellValue_instant {o : RowOptions} (typeId : MysqlType) (ho : o.datesAsString=false)
    (d : SqlDate) (c : SqlClock) (f : SqlFraction) :
    dateCellValue o typeId (datetimeCell d c f)=.date
      (if d.IsZero ∧ c.IsZero ∧ f.micro=0 then 0
      else makeInstant o.systemZone (dateYear d.year) (d.month-1) d.day c.hour c.minute c.second
        (f.micro/1000 : ℕ)-o.timezoneOffset) := by
  have hs : ¬(o.datesAsString=true) := by rw [ho]; exact Bool.false_ne_true
  obtain ⟨hy,hm,hd⟩ := d.words
  obtain ⟨hh,hi,hse⟩ := c.words
  unfold datetimeCell
  by_cases hf : f.micro=0
  · rw [if_neg (not_not.mpr hf)]
    by_cases hc : c.IsZero
    · rw [if_neg (not_not.mpr hc)]
      unfold dateCell
      by_cases hz : d.IsZero
      · rw [if_pos hz,if_pos ⟨hz,hc,hf⟩]
        exact if_neg hs
      · rw [if_neg hz,if_neg (fun h => hz h.1)]
        unfold dateCellValue dateValue
        dsimp only
        rw [if_neg hs,hy,hm,hd,hc.1,hc.2.1,hc.2.2,hf]
    · rw [if_pos hc,if_neg (fun h => hc h.2.1)]
      unfold dateCellValue dateValue
      dsimp only
      rw [if_neg hs,hy,hm,hd,hh,hi,hse,hf]
  · rw [if_pos hf,if_neg (fun h => hf h.2.2)]
    unfold dateCellValue dateValue
    dsimp only
    rw [if_neg hs,hy,hm,hd,hh,hi,hse,f.word]

/-- The string of a date of the binary protocol: there are six decimals or none. -/
theorem dateCellValue_string {o : RowOptions} {typeId : MysqlType} (ho : o.datesAsString=true)
    (ht : typeId=.DATETIME ∨ typeId=.TIMESTAMP) (d : SqlDate) (c : SqlClock) (f : SqlFraction) :
    dateCellValue o typeId (datetimeCell d c f)=.str
      (dateString d.year d.month d.day (some (c.hour,c.minute,c.second))
        (if f.micro≠0 then some f.micro else none)) := by
  obtain ⟨hy,hm,hd⟩ := d.words
  obtain ⟨hh,hi,hse⟩ := c.words
  have htime : ∀ len,7 ≤ len ∨ typeId=.DATETIME ∨ typeId=.TIMESTAMP := fun _ => Or.inr ht
  unfold datetimeCell
  by_cases hf : f.micro=0
  · rw [if_neg (not_not.mpr hf),if_neg (not_not.mpr hf)]
    by_cases hc : c.IsZero
    · rw [if_neg (not_not.mpr hc)]
      unfold dateCell
      by_cases hz : d.IsZero
      · have hdate : typeId≠.DATE := by
          intro h
          rw [h] at ht
          cases ht with
          | inl ht => cases ht
          | inr ht => cases ht
        rw [if_pos hz,hz.1,hz.2.1,hz.2.2,hc.1,hc.2.1,hc.2.2]
        unfold dateCellValue dateZero
        dsimp only
        rw [if_pos ho,if_neg hdate]
      · rw [if_neg hz]
        unfold dateCellValue dateValue
        dsimp only
        rw [if_pos ho,if_pos (htime 4),hy,hm,hd,hc.1,hc.2.1,hc.2.2]
        rfl
    · rw [if_pos hc]
      unfold dateCellValue dateValue
      dsimp only
      rw [if_pos ho,if_pos (htime 7),hy,hm,hd,hh,hi,hse]
      rfl
  · rw [if_pos hf,if_pos hf]
    unfold dateCellValue dateValue
    dsimp only
    rw [if_pos ho,if_pos (htime 11),hy,hm,hd,hh,hi,hse,f.word]
    rfl

/-- The day before which the text protocol puts a zero date. -/
theorem zero_instant (o : RowOptions) :
    makeInstant o.systemZone (dateYear 0) ((0 : ℕ)-1) (0 : ℕ) 0 0 0 0-o.timezoneOffset=0↔Epoch o := by
  have h : makeInstant o.systemZone (dateYear 0) ((0 : ℕ)-1) (0 : ℕ) 0 0 0 0=
      -2211753600000-o.systemZone := rfl
  rw [h]
  unfold Epoch
  omega

/-- A zero date is the start of the epoch in the binary protocol. -/
theorem agrees_date_iff {js : Engine} {o : RowOptions} {d : SqlDate} {c : Column}
    (ht : c.typeId=.DATE) :
    convColumnValue js o c (textBytes (.date d))=
        binaryValue (withConv js o) c (.date (dateCell d))↔SameDate js o (.date d) := by
  obtain ⟨hy,hm,hd⟩ := d.words
  unfold convColumnValue binaryValue SameDate
  rw [ht]
  dsimp only
  by_cases ho : o.datesAsString=true
  · refine iff_of_true ?_ (Or.inl ho)
    rw [if_pos ho]
    unfold dateCell
    by_cases hz : d.IsZero
    · rw [if_pos hz]
      refine Eq.trans ?_ (if_pos ho).symm
      have htext : textBytes (.date d)=
          padded 4 d.year++cMinus::(padded 2 d.month++cMinus::padded 2 d.day) := rfl
      rw [if_pos rfl,htext,hz.1,hz.2.1,hz.2.2]
      rfl
    · rw [if_neg hz]
      refine Eq.trans ?_ (if_pos ho).symm
      rw [hy,hm,hd]
      simp only [textBytes,dateString,cMinus,List.append_assoc,List.cons_append,
        List.nil_append,List.append_nil,reduceCtorEq,or_false,Nat.reduceLeDiff,if_false]
  · have hs : ¬((withConv js o).datesAsString=true) := ho
    rw [if_neg ho,dataToDate_date]
    unfold dateCell
    by_cases hz : d.IsZero
    · rw [if_pos hz]
      have hb : dateCellValue (withConv js o) .DATE .zero=.date 0 := if_neg hs
      rw [hb,ColumnValue.date.injEq,hz.1,hz.2.1,hz.2.2,zero_instant]
      exact ⟨fun h => Or.inr (fun _ => h),fun h => h.elim (fun h => absurd h ho) (fun h => h hz)⟩
    · rw [if_neg hz]
      refine iff_of_true ?_ (Or.inr (fun h => absurd h hz))
      refine Eq.trans ?_ (if_neg hs).symm
      rw [hy,hm,hd]
      rfl

/-- Instants of one minute are the same if the milliseconds are. -/
theorem instant_inj {zone year month day hour minute second a b offset : ℤ} :
    makeInstant zone year month day hour minute second a-offset=
      makeInstant zone year month day hour minute second b-offset↔a=b := by
  unfold makeInstant makeTime
  omega

/-- The text of the decimals is the one of the binary protocol if there are none,
or six that are not all zero. -/
theorem fraction_text_iff (f : SqlFraction) :
    f.text=(if f.micro≠0 then cDot::padded 6 f.micro else [])↔
      f.decimals=0 ∨ f.decimals=6 ∧ f.micro≠0 := by
  unfold SqlFraction.text
  by_cases hn : f.decimals=0
  · rw [if_pos hn,f.micro_zero hn]
    exact iff_of_true rfl (Or.inl hn)
  · rw [if_neg hn]
    by_cases hm : f.micro=0
    · rw [if_neg (not_not.mpr hm)]
      exact iff_of_false (List.cons_ne_nil _ _) (fun h => h.elim hn (fun h => h.2 hm))
    · rw [if_pos hm]
      refine ⟨fun h => Or.inr ⟨?_,hm⟩,fun h => ?_⟩
      · have hl := congrArg List.length (List.cons.inj h).2
        have h₁ := padded_length f.digits_lt (Nat.pos_of_ne_zero hn)
        have h₂ := padded_length f.micro_lt (by decide)
        exact h₁.symm.trans (hl.trans h₂)
      · rw [(h.resolve_left hn).1,Nat.sub_self,pow_zero,Nat.div_one]

/-- A date string with a time, part by part. -/
theorem dateString_eq (year month day hour minute second micro : ℕ) :
    dateString year month day (some (hour,minute,second)) (if micro≠0 then some micro else none)=
      padded 4 year++cMinus::(padded 2 month++cMinus::(padded 2 day++cSpace::(padded 2 hour++
        cColon::(padded 2 minute++cColon::(padded 2 second++
          if micro≠0 then cDot::padded 6 micro else []))))) := by
  by_cases h : micro≠0
  · rw [if_pos h,if_pos h]
    simp only [dateString,cMinus,cSpace,cColon,cDot,List.append_assoc,List.cons_append,
      List.nil_append]
  · rw [if_neg h,if_neg h]
    simp only [dateString,cMinus,cSpace,cColon,List.append_assoc,List.cons_append,
      List.nil_append]

/-- A date and time is the same in both protocols. -/
theorem agrees_datetime_iff {js : Engine} {o : RowOptions} {d : SqlDate} {k : SqlClock}
    {f : SqlFraction} {c : Column} (ht : c.typeId=.DATETIME ∨ c.typeId=.TIMESTAMP) :
    convColumnValue js o c (textBytes (.datetime d k f))=
        binaryValue (withConv js o) c (.date (datetimeCell d k f))↔SameDate js o (.datetime d k f) := by
  have hconv : convColumnValue js o c (textBytes (.datetime d k f))=
      if o.datesAsString=true then .str (textBytes (.datetime d k f))
      else .date (dataToDate js o (textBytes (.datetime d k f))) := by
    unfold convColumnValue
    cases ht with
    | inl ht => rw [ht]
    | inr ht => rw [ht]
  rw [hconv]
  unfold binaryValue SameDate
  dsimp only
  by_cases ho : o.datesAsString=true
  · have hs : (withConv js o).datesAsString=true := ho
    rw [if_pos ho,if_pos ho,dateCellValue_string hs ht,ColumnValue.str.injEq,←fraction_text_iff,
      dateString_eq]
    simp only [textBytes,clockText,List.append_cancel_left_eq,List.cons.injEq,true_and]
  · have hs : (withConv js o).datesAsString=false := Bool.eq_false_iff.mpr ho
    rw [if_neg ho,if_neg ho,dateCellValue_instant _ hs,dataToDate_datetime,ColumnValue.date.injEq]
    by_cases hz : d.IsZero ∧ k.IsZero ∧ f.micro=0
    · obtain ⟨hd,hk,hf⟩ := hz
      have hkept : f.Kept js := by
        rw [←textMillis_iff,textMillis_zero hf,hf]
        rfl
      rw [if_pos ⟨hd,hk,hf⟩,textMillis_zero hf,hd.1,hd.2.1,hd.2.2,hk.1,hk.2.1,hk.2.2]
      refine (zero_instant o).trans ?_
      exact ⟨fun h => ⟨fun _ _ _ => h,hkept⟩,fun h => h.1 hd hk hf⟩
    · rw [if_neg hz]
      refine instant_inj.trans ?_
      rw [textMillis_iff]
      exact ⟨fun h => ⟨fun hd hk hf => absurd ⟨hd,hk,hf⟩ hz,h⟩,fun h => h.2⟩

/-- The fraction of a time, exactly. -/
theorem fractionOf_text (f : SqlFraction) : fractionOf f.text=(f.micro : ℚ)/1000000 := by
  unfold SqlFraction.text
  by_cases h : f.decimals=0
  · rw [if_pos h,f.micro_zero h]
    unfold fractionOf
    rw [if_neg (by decide)]
    norm_num
  · have hf := fraction_eq f.decimals_le f.dvd
    have hp := readDigits_padded f.decimals (f.micro/10^(6-f.decimals))
    rw [if_neg h]
    unfold fractionOf
    rw [if_pos (List.getD_cons_zero ..),List.drop_one,List.tail_cons,timeFraction_digits,hp,
      padded_length f.digits_lt (Nat.pos_of_ne_zero h),Int.cast_natCast]
    linarith

/-- A time in the binary protocol has the hours of the text form. -/
theorem timeCellValue_eq (t : SqlTime) :
    timeCellValue (timeCell t)=.seconds (if t.negative=true then
        -(((t.hours*3600+t.minutes*60+t.seconds)*1000000+t.fraction.micro : ℕ) : ℤ)
      else ((t.hours*3600+t.minutes*60+t.seconds)*1000000+t.fraction.micro : ℕ)) := by
  have hh := t.hours_le
  have hm := t.minutes_lt
  have hs := t.seconds_lt
  have hd : (UInt32.ofNat (t.hours/24)).toNat=t.hours/24 := by rw [UInt32.toNat_ofNat']; omega
  have hr : (UInt8.ofNat (t.hours%24)).toNat=t.hours%24 := by rw [UInt8.toNat_ofNat']; omega
  have hi : (UInt8.ofNat t.minutes).toNat=t.minutes := by rw [UInt8.toNat_ofNat']; omega
  have hse : (UInt8.ofNat t.seconds).toNat=t.seconds := by rw [UInt8.toNat_ofNat']; omega
  have hsum : ∀ micro,(((t.hours%24+t.hours/24*24)*60+t.minutes)*60+t.seconds)*1000000+micro=
      (t.hours*3600+t.minutes*60+t.seconds)*1000000+micro := by
    intro micro
    omega
  have hsign : (if t.negative=true then (1 : UInt8) else 0).toNat≠0↔t.negative=true := by
    cases t.negative <;> decide
  unfold timeCell
  by_cases hf : t.fraction.micro=0
  · rw [if_neg (not_not.mpr hf),hf]
    by_cases hc : t.hours≠0 ∨ t.minutes≠0 ∨ t.seconds≠0
    · rw [if_pos hc]
      unfold timeCellValue timeValue
      dsimp only
      rw [hd,hr,hi,hse,hsum,if_congr hsign rfl rfl]
    · have hn : ¬(t.negative=true) := by
        intro h
        have hsg := t.signed h
        omega
      have hz : t.hours=0 ∧ t.minutes=0 ∧ t.seconds=0 := by omega
      rw [if_neg hc,if_neg hn,hz.1,hz.2.1,hz.2.2]
      rfl
  · rw [if_pos hf]
    unfold timeCellValue timeValue
    dsimp only
    rw [hd,hr,hi,hse,t.fraction.word,hsum,if_congr hsign rfl rfl]

/-- A time is the same in both protocols. -/
theorem dataToTime_text (t : SqlTime) :
    .seconds ⌊dataToTime (textBytes (.time t))*1000000⌋=timeCellValue (timeCell t) := by
  have h := dataToTime_spec t.negative (h:=t.hours) (m:=t.minutes) (s:=t.seconds)
    (by have := t.hours_le; omega) (by have := t.minutes_lt; omega) (by have := t.seconds_lt; omega)
    t.fraction.text
  rw [fractionOf_text] at h
  have htext : dataToTime (textBytes (.time t))=_ := h
  rw [timeCellValue_eq,htext,ColumnValue.seconds.injEq]
  have hmul : (((t.hours*3600+t.minutes*60+t.seconds : ℕ) : ℚ)+(t.fraction.micro : ℚ)/1000000)*1000000=
      (((t.hours*3600+t.minutes*60+t.seconds)*1000000+t.fraction.micro : ℕ) : ℤ) := by
    push_cast
    ring
  split
  · rw [neg_mul,hmul,←Int.cast_neg,Int.floor_intCast]
  · rw [hmul,Int.floor_intCast]

/-- Byte strings are the same in both protocols. -/
theorem agrees_bytes {js : Engine} {o : RowOptions} {c : Column} {v : List UInt8} (ht : isBlob c.typeId=true) (hnull : c.typeId≠.NULL) :
    textValue (withConv js o) c (some v)=blobValue (withConv js o) c v := by
  unfold textValue blobValue
  dsimp only
  by_cases hl : (withConv js o).maxColumnLen < v.length ∨ (withConv js o).rowType=.VOID
  · rw [if_pos hl,if_pos hl]
  rw [if_neg hl,if_neg hl]
  change convColumnValue js o c v=_
  clear hl
  have hser : (withConv js o).isForSerialize=o.isForSerialize := rfl
  have hstring : (withConv js o).jsonAsString=o.jsonAsString := rfl
  unfold convColumnValue wantBytes stringValue
  rw [hser,hstring]
  cases hc : c.typeId <;> rw [hc] at ht hnull
  case JSON => cases o.isForSerialize <;> cases o.jsonAsString <;> simp
  case DECIMAL => cases o.isForSerialize <;> simp
  case NEWDECIMAL => cases o.isForSerialize <;> simp
  case OTHER id => cases o.isForSerialize <;> simp
  case NULL => exact absurd rfl hnull
  all_goals exact absurd ht Bool.false_ne_true

/-- A value that is not null is not null in the binary protocol, if it is not a
byte string. -/
theorem binaryValue_ne_null {o : RowOptions} {c : Column} {v : SqlValue} {cell : BinaryCell}
    (h : Of c v) (hb : ∀ b,v≠.bytes b) (hcell : binaryForm c.typeId v=some cell) :
    binaryValue o c cell≠.null := by
  cases h with
  | null => cases hcell
  | int ht hn hz =>
    cases hcell
    unfold binaryValue
    cases hc : c.typeId <;> rw [hc] at ht
    case LONGLONG =>
      change numberOrBigint _≠_
      unfold numberOrBigint
      split <;> exact (fun h => by cases h)
    all_goals exact (fun h => by cases h)
  | bits ht hv =>
    cases hcell
    unfold binaryValue
    dsimp only
    rw [if_pos ht]
    exact (fun h => by cases h)
  | date d ht =>
    cases hcell
    change dateCellValue o c.typeId (dateCell d)≠_
    unfold dateCell
    split
    · unfold dateCellValue dateZero
      dsimp only
      split <;> exact (fun h => by cases h)
    · unfold dateCellValue dateValue
      dsimp only
      split <;> exact (fun h => by cases h)
  | datetime d k f ht =>
    cases hcell
    change dateCellValue o c.typeId (datetimeCell d k f)≠_
    cases datetimeCell d k f with
    | zero =>
      unfold dateCellValue dateZero
      dsimp only
      split <;> exact (fun h => by cases h)
    | day | second | micro =>
      unfold dateCellValue dateValue
      dsimp only
      split <;> exact (fun h => by cases h)
  | time t ht =>
    cases hcell
    change timeCellValue (timeCell t)≠_
    rw [timeCellValue_eq]
    exact (fun h => by cases h)
  | bytes => exact absurd rfl (hb _)

/-- A value is the same in both protocols exactly when it agrees. -/
theorem agrees_iff {js : Engine} {o : RowOptions} {c : Column} {v : SqlValue}
    (hv : o.rowType≠.VOID) (h : Of c v) :
    textValue (withConv js o) c (textForm v)=
        nullableValue (withConv js o) c (binaryForm c.typeId v)↔Agrees js o v := by
  cases h with
  | null => exact iff_of_true rfl trivial
  | @int n zeros ht hn hz =>
    have hn' : InRange c.isUnsigned (integerBytes c.typeId) n := by
      refine hn.mono ?_
      unfold storedBytes
      split
      · next hc => rw [hc]; exact Nat.le_succ 3
      · exact le_rfl
    have hb := @binaryValue_ne_null (withConv js o) _ _ _ (.int ht hn hz) (fun _ h => by cases h) rfl
    refine (textValue_eq_iff hv hb).trans ?_
    exact ⟨fun h => ⟨h.1,trivial⟩,fun h => ⟨h.1,convColumnValue_int ht hn'⟩⟩
  | bits ht hl =>
    have hb := @binaryValue_ne_null (withConv js o) _ _ _ (.bits ht hl) (fun _ h => by cases h) rfl
    refine (textValue_eq_iff hv hb).trans ?_
    refine ⟨fun h => ⟨h.1,trivial⟩,fun h => ⟨h.1,?_⟩⟩
    unfold convColumnValue binaryValue
    rw [ht]
    rfl
  | date d ht =>
    have hb := @binaryValue_ne_null (withConv js o) _ _ _ (.date d ht) (fun _ h => by cases h) rfl
    exact (textValue_eq_iff hv hb).trans (and_congr_right (fun _ => agrees_date_iff ht))
  | datetime d k f ht =>
    have hb := @binaryValue_ne_null (withConv js o) _ _ _ (.datetime d k f ht)
      (fun _ h => by cases h) rfl
    exact (textValue_eq_iff hv hb).trans (and_congr_right (fun _ => agrees_datetime_iff ht))
  | time t ht =>
    have hb := @binaryValue_ne_null (withConv js o) _ _ _ (.time t ht) (fun _ h => by cases h) rfl
    refine (textValue_eq_iff hv hb).trans ?_
    refine ⟨fun h => ⟨h.1,trivial⟩,fun h => ⟨h.1,?_⟩⟩
    unfold convColumnValue binaryValue
    rw [ht]
    exact dataToTime_text t
  | bytes ht hnull hl =>
    have hbit : c.typeId≠.BIT := by
      intro hbit
      rw [hbit] at ht
      exact absurd ht Bool.false_ne_true
    exact iff_of_true ((agrees_bytes ht hnull).trans (if_neg hbit).symm) trivial

end SpiritMysql.SqlValues
