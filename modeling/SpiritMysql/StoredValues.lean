import Mathlib.Data.List.TakeWhile
import SpiritMysql.FileRows

/-!
# Values that are stored

Rows that are kept in memory are converted when they are delivered, and rows that are kept
in a file are read back from it. The values for which both give the same are those that
`fetch()` delivers, but for dates without a place in the format, times whose microseconds
the floating-point arithmetic loses, and texts of dates in another form.
-/

namespace SpiritMysql.StoredValues

open ByteCodec CivilDate ColumnValues DecimalText FileReads FileRows Reader ReadScript Rounding
open RowCells RowReader RowStream RowWriter SqlValues

/-- The types of strings and blobs that the iterator of stored resultsets names. -/
def stringIds : List UInt8 := [15,247,248,249,250,251,252,253,254,255]

/-- A value in memory as it is delivered. -/
def memoryValue (jsonAsString : Bool) (column : Column) : ColumnValue → ColumnValue
  | .bytes v =>
    match column.typeId with
    | .OTHER id =>
      if id ∈ stringIds ∧ column.charsetId≠charsetBinary then .str v else .bytes v
    | .DECIMAL => .str v
    | .NEWDECIMAL => .str v
    | .JSON => if jsonAsString=true then .str v else .json v
    | _ => .bytes v
  | value => value

/-- The arguments with which the file is read. -/
def fileOptions (o : RowOptions) : RowOptions :=
  {o with maxColumnLen := maxSafeInteger.toNat,isForSerialize := false}

/-- The types of dates. -/
def isDate : MysqlType → Bool
  | .DATE => true
  | .DATETIME => true
  | .TIMESTAMP => true
  | _ => false

/-- A time is stored without a loss: its double has as many seconds, and a million times
its double has as many microseconds. -/
def TimeKept (micros : ℤ) : Prop :=
  microOf (secondsNumber micros)=micros.natAbs%1000000 ∧
    wholeOf (secondsNumber micros)=micros.natAbs/1000000 ∧ micros.natAbs/1000000 < 2^32*86400

/-- The values that are stored without a loss. -/
inductive Storable (o : RowOptions) (column : Column) : ColumnValue → Prop where
  /-- `NULL`. -/
  | null : Storable o column .null
  /-- An integer of the width of the type. -/
  | integer {n : ℤ} (ht : 0 < integerBytes column.typeId) (hl : column.typeId≠.LONGLONG)
    (hn : InRange column.isUnsigned (integerBytes column.typeId) n) : Storable o column (.number n)
  /-- A safe integer of 64 bits. -/
  | safe {n : ℤ} (ht : column.typeId=.LONGLONG) (hn : InRange column.isUnsigned 8 n)
    (hs : -maxSafeInteger ≤ n ∧ n ≤ maxSafeInteger) : Storable o column (.number n)
  /-- Another integer of 64 bits. -/
  | big {n : ℤ} (ht : column.typeId=.LONGLONG) (hn : InRange column.isUnsigned 8 n)
    (hs : ¬(-maxSafeInteger ≤ n ∧ n ≤ maxSafeInteger)) : Storable o column (.bigint n)
  /-- A single. -/
  | single {raw : List UInt8} (ht : column.typeId=.FLOAT) (hl : raw.length=4) :
    Storable o column (.float raw)
  /-- A double. -/
  | double {raw : List UInt8} (ht : column.typeId=.DOUBLE) (hl : raw.length=8) :
    Storable o column (.float raw)
  /-- A column of bits. -/
  | bit (ht : column.typeId=.BIT) (b : Bool) : Storable o column (.bool b)
  /-- A date whose local year has a place in the format. In the zone of the session it is
  not the start of the epoch, which stands for the date of zeros. -/
  | date {ms : ℤ} (ht : isDate column.typeId=true) (hd : o.datesAsString=false)
    (hz : ms+o.timezoneOffset=0 → o.timezoneOffset=0)
    (hy : 100 ≤ (localFields o.systemZone (ms+o.timezoneOffset)).year ∧
      (localFields o.systemZone (ms+o.timezoneOffset)).year < 65536) : Storable o column (.date ms)
  /-- The text of a date. -/
  | dateText {y m d : ℕ} (ht : column.typeId=.DATE) (hd : o.datesAsString=true) (hy : y < 10000)
    (hm : m < 100) (hd' : d < 100) : Storable o column (.str (dateString y m d none none))
  /-- The text of a date and time, with all digits of a fraction or without it. -/
  | datetimeText {y m d h i s : ℕ} {micro : Option ℕ}
    (ht : column.typeId=.DATETIME ∨ column.typeId=.TIMESTAMP) (hd : o.datesAsString=true)
    (hy : y < 10000) (hm : m < 100) (hd' : d < 100) (hh : h < 100) (hi : i < 100) (hs : s < 100)
    (hu : ∀ u ∈ micro,0 < u ∧ u < 1000000) :
    Storable o column (.str (dateString y m d (some (h,i,s)) micro))
  /-- A time. -/
  | time {micros : ℤ} (ht : column.typeId=.TIME) (hk : TimeKept micros) :
    Storable o column (.seconds micros)
  /-- The bytes of a string, a blob, a decimal number or JSON. -/
  | bytes {v : List UInt8} (ht : isBlob column.typeId=true) (hn : column.typeId≠.NULL)
    (hv : v.length < longBlob)
    (hid : ∀ id,column.typeId=.OTHER id → id ∈ stringIds ∨ column.charsetId=charsetBinary) :
    Storable o column (.bytes v)

/-! ## Dates -/

/-- The fields of a date that are natural numbers. -/
def natFields (y m d h i s u : ℕ) : DateFields :=
  ⟨some y,some m,some d,some h,some i,some s,some u⟩

/-- Three numbers are not all zero. -/
theorem sumNonzero_three (a b c : ℕ) :
    sumNonzero [some (a : ℤ),some (b : ℤ),some (c : ℤ)]=decide (a+(b+c)≠0) := by
  have hs : (([some (a : ℤ),some (b : ℤ),some (c : ℤ)].map (·.getD 0)).sum≠0)↔a+(b+c)≠0 := by
    simp only [List.map_cons,List.map_nil,Option.getD_some,List.sum_cons,List.sum_nil]
    omega
  unfold sumNonzero
  rw [decide_eq_decide.mpr hs]
  rfl

/-- A number is not zero. -/
theorem sumNonzero_one (a : ℕ) : sumNonzero [some (a : ℤ)]=decide (a≠0) := by
  have hs : (([some (a : ℤ)].map (·.getD 0)).sum≠0)↔a≠0 := by
    simp only [List.map_cons,List.map_nil,Option.getD_some,List.sum_cons,List.sum_nil]
    omega
  unfold sumNonzero
  rw [decide_eq_decide.mpr hs]
  rfl

/-- The low bytes of a number that has no more. -/
theorem lowBytes_some {k n : ℕ} (h : n < 256^k) : lowBytes k (some (n : ℤ))=n := by
  unfold lowBytes
  rw [Option.getD_some]
  exact wrap_of_lt h

/-- What is read back of a date: the fields that are there. -/
def dateRead (o : RowOptions) (typeId : MysqlType) (y m d h i s u : ℕ) : ColumnValue :=
  if u≠0 then dateValue o typeId 11 y m d h i s u
  else if h+(i+s)≠0 then dateValue o typeId 7 y m d h i s 0
  else if y+(m+d)≠0 then dateValue o typeId 4 y m d 0 0 0 0
  else dateZero o typeId

/-- The form of a date is read back. -/
theorem dateCellValue_natFields (o : RowOptions) (typeId : MysqlType) {y m d h i s u : ℕ}
    (hy : y < 65536) (hm : m < 256) (hd : d < 256) (hh : h < 256) (hi : i < 256) (hs : s < 256)
    (hu : u < 2^32) : dateCellValue o typeId (dateCellOf (natFields y m d h i s u))=
      dateRead o typeId y m d h i s u := by
  have byte : ∀ {n : ℕ},n < 256 → (UInt8.ofNat (lowBytes 1 (some (n : ℤ)))).toNat=n := by
    intro n hn
    rw [lowBytes_some (by omega),UInt8.toNat_ofNat']
    omega
  have word : (UInt16.ofNat (lowBytes 2 (some (y : ℤ)))).toNat=y := by
    rw [lowBytes_some (by omega),UInt16.toNat_ofNat']
    omega
  have long : (UInt32.ofNat (lowBytes 4 (some (u : ℤ)))).toNat=u := by
    rw [lowBytes_some (by omega),UInt32.toNat_ofNat']
    omega
  have hlen : (natFields y m d h i s u).len=if u≠0 then 11 else if h+(i+s)≠0 then 7
      else if y+(m+d)≠0 then 4 else 0 := by
    unfold DateFields.len natFields
    simp only [sumNonzero_one,sumNonzero_three,decide_eq_true_eq]
  unfold dateCellOf dateRead
  rw [hlen]
  by_cases h11 : u≠0
  · rw [if_pos h11,if_pos h11,if_pos rfl]
    unfold dateCellValue natFields
    dsimp only
    rw [word,byte hm,byte hd,byte hh,byte hi,byte hs,long]
  rw [if_neg h11,if_neg h11]
  by_cases h7 : h+(i+s)≠0
  · rw [if_pos h7,if_pos h7,if_neg (by decide),if_pos rfl]
    unfold dateCellValue natFields
    dsimp only
    rw [word,byte hm,byte hd,byte hh,byte hi,byte hs]
  rw [if_neg h7,if_neg h7]
  by_cases h4 : y+(m+d)≠0
  · rw [if_pos h4,if_pos h4,if_neg (by decide),if_neg (by decide),if_pos rfl]
    unfold dateCellValue natFields
    dsimp only
    rw [word,byte hm,byte hd]
  · rw [if_neg h4,if_neg h4,if_neg (by decide),if_neg (by decide),if_neg (by decide)]
    rfl

/-- A `Date` is read back. -/
theorem dateRead_instant {o : RowOptions} (typeId : MysqlType) {ms : ℤ}
    (hd : o.datesAsString=false) (hz : ms+o.timezoneOffset=0 → o.timezoneOffset=0)
    (hy : 100 ≤ (localFields o.systemZone (ms+o.timezoneOffset)).year ∧
      (localFields o.systemZone (ms+o.timezoneOffset)).year < 65536) :
    dateCellValue o typeId (dateCellOf (instantFields o ms))=.date ms := by
  unfold instantFields
  dsimp only
  by_cases h0 : ms+o.timezoneOffset=0
  · rw [if_neg (fun hn => hn h0)]
    have hms : ms=0 := by
      have h := hz h0
      omega
    have hzero : dateCellOf ({} : DateFields)=.zero := rfl
    rw [hzero,hms]
    unfold dateCellValue dateZero
    dsimp only
    rw [if_neg (by rw [hd]; exact Bool.false_ne_true)]
  rw [if_pos h0]
  obtain ⟨hm,hd₁,hd₂,-⟩ := localFields_day o.systemZone (ms+o.timezoneOffset)
  obtain ⟨hh,hi,hs,hu,-⟩ := localFields_time o.systemZone (ms+o.timezoneOffset)
  have hmade := makeInstant_localFields o.systemZone (ms+o.timezoneOffset)
  generalize localFields o.systemZone (ms+o.timezoneOffset)=f at *
  obtain ⟨y,hy'⟩ := Int.eq_ofNat_of_zero_le (show 0 ≤ f.year by omega)
  have hfields : (⟨some f.year,some ((f.month : ℤ)+1),some f.day,some f.hour,some f.minute,
      some f.second,some ((f.ms : ℤ)*1000)⟩ : DateFields)=
      natFields y (f.month+1) f.day f.hour f.minute f.second (f.ms*1000) := by
    unfold natFields
    rw [hy']
    push_cast
    rfl
  rw [hfields,dateCellValue_natFields o typeId (by omega) (by omega) (by omega) (by omega)
    (by omega) (by omega) (by omega)]
  have value : ∀ len h i s u,h=f.hour → i=f.minute → s=f.second → u=f.ms*1000 →
      dateValue o typeId len y (f.month+1) f.day h i s u=.date ms := by
    rintro len _ _ _ _ rfl rfl rfl rfl
    unfold dateValue dateYear
    rw [if_neg (by rw [hd]; exact Bool.false_ne_true),if_neg (by omega),Nat.mul_div_cancel _
      (by decide)]
    have hmonth : ((f.month+1 : ℕ) : ℤ)-1=f.month := by omega
    rw [hmonth,←hy',hmade]
    congr 1
    omega
  unfold dateRead
  by_cases h11 : f.ms*1000≠0
  · rw [if_pos h11]
    exact value _ _ _ _ _ rfl rfl rfl rfl
  rw [if_neg h11]
  by_cases h7 : f.hour+(f.minute+f.second)≠0
  · rw [if_pos h7]
    exact value _ _ _ _ _ rfl rfl rfl (by omega)
  · rw [if_neg h7,if_pos (by omega)]
    exact value _ _ _ _ _ (by omega) (by omega) (by omega) (by omega)

/-! ## Texts of dates -/

/-- Bytes between others. -/
theorem slice_between {a b c : List UInt8} {i j : ℕ} (ha : a.length=i) (hj : j=i+b.length) :
    slice i j (a++(b++c))=b := by
  unfold slice
  rw [←List.append_assoc,List.take_left' (by rw [List.length_append]; omega),List.drop_left' ha]

/-- Digits are read as a number. -/
theorem parseInt_digits {text : List UInt8} (h : ∀ c ∈ text,IsDigit c) (hne : text≠[]) :
    parseInt text=some (readDigits 0 text) := by
  cases text with
  | nil => exact absurd rfl hne
  | cons c cs =>
    have hr := (h c List.mem_cons_self).range
    have hspace : isSpace c=false := by
      unfold isSpace
      rw [decide_eq_false_iff_not]
      rintro (rfl|⟨-,h13⟩)
      · exact absurd hr.1 (by decide)
      · have h' := UInt8.le_iff_toNat_le.mp h13
        have hv : (13 : UInt8).toNat=13 := rfl
        omega
    have hdigits : ∀ b ∈ c::cs,isDigit b=true := by
      intro b hb
      have hrange := (h b hb).range
      unfold isDigit
      rw [decide_eq_true_eq,UInt8.le_iff_toNat_le,UInt8.le_iff_toNat_le]
      exact hrange
    have hlead : leadingNumber (c::cs)=some (readDigits 0 (c::cs)) := by
      unfold leadingNumber
      rw [List.takeWhile_eq_self_iff.mpr hdigits]
      exact if_neg (List.cons_ne_nil _ _)
    have h45 : c≠45 := fun hc => absurd hr.1 (by rw [hc]; decide)
    have h43 : c≠43 := fun hc => absurd hr.1 (by rw [hc]; decide)
    unfold parseInt
    rw [List.dropWhile_cons_of_neg (by rw [hspace]; exact Bool.false_ne_true)]
    split
    · next heq => exact absurd (List.cons.inj heq).1 h45
    · next heq => exact absurd (List.cons.inj heq).1 h43
    · exact hlead

/-- A padded number is read back. -/
theorem parseInt_padded {w n : ℕ} (hw : 0 < w) : parseInt (padded w n)=some (n : ℤ) := by
  rw [parseInt_digits (padded_digits w n),readDigits_padded]
  intro h
  have hl := congrArg List.length h
  rw [padded_length_eq,List.length_nil] at hl
  omega

variable {y m d : ℕ}

/-- The fraction of a second in a text. -/
def fractionText : Option ℕ → List UInt8
  | none => []
  | some u => [46]++padded 6 u

/-- The text of a date and time in its parts. -/
theorem dateString_parts (y m d h i s : ℕ) (micro : Option ℕ) :
    dateString y m d (some (h,i,s)) micro=
      (padded 4 y++([45]++(padded 2 m++([45]++padded 2 d))))++([32]++(padded 2 h++([58]++
        (padded 2 i++([58]++(padded 2 s++fractionText micro)))))) := by
  unfold dateString fractionText
  cases micro <;> simp only [List.append_assoc]

/-- The date of a text. -/
theorem stringFields_day (tail : List UInt8) (hy : y < 10000) (hm : m < 100) (hd : d < 100) :
    parseInt (slice 0 4 (padded 4 y++([45]++(padded 2 m++([45]++(padded 2 d++tail))))))=
        some (y : ℤ) ∧
      parseInt (slice 5 7 (padded 4 y++([45]++(padded 2 m++([45]++(padded 2 d++tail))))))=
        some (m : ℤ) ∧
      parseInt (slice 8 10 (padded 4 y++([45]++(padded 2 m++([45]++(padded 2 d++tail))))))=
        some (d : ℤ) := by
  have hly := padded_length (w := 4) hy (by decide)
  have hlm := padded_length (w := 2) hm (by decide)
  have hld := padded_length (w := 2) hd (by decide)
  refine ⟨?_,?_,?_⟩
  · have h := @slice_between [] (padded 4 y) ([45]++(padded 2 m++([45]++(padded 2 d++tail)))) 0 4
      rfl (by omega)
    rw [List.nil_append] at h
    rw [h,parseInt_padded (by decide)]
  · rw [←List.append_assoc,slice_between (by rw [List.length_append,hly]; rfl) (by omega),
      parseInt_padded (by decide)]
  · rw [←List.append_assoc,←List.append_assoc,←List.append_assoc,
      slice_between (by simp only [List.length_append,hly,hlm]; rfl) (by omega),
      parseInt_padded (by decide)]

/-- The text of a date is read back. -/
theorem dateRead_text {o : RowOptions} (hd : o.datesAsString=true) (hy : y < 10000) (hm : m < 100)
    (hd' : d < 100) :
    dateCellValue o .DATE (dateCellOf (stringFields (dateString y m d none none)))=
      .str (dateString y m d none none) := by
  have htext : dateString y m d none none=
      padded 4 y++([45]++(padded 2 m++([45]++(padded 2 d++[])))) := by
    unfold dateString
    simp only [List.append_assoc]
  have hlen : (dateString y m d none none).length=10 := by
    rw [htext]
    simp only [List.length_append,padded_length (w := 4) hy (by decide),
      padded_length (w := 2) hm (by decide),padded_length (w := 2) hd' (by decide)]
    rfl
  have hfields : stringFields (dateString y m d none none)=natFields y m d 0 0 0 0 := by
    obtain ⟨h₁,h₂,h₃⟩ := stringFields_day [] hy hm hd'
    unfold stringFields natFields
    rw [hlen,htext,h₁,h₂,h₃]
    rfl
  rw [hfields,dateCellValue_natFields o .DATE (by omega) (by omega) (by omega) (by decide)
    (by decide) (by decide) (by decide)]
  unfold dateRead
  rw [if_neg (by decide),if_neg (by decide)]
  by_cases h4 : y+(m+d)≠0
  · rw [if_pos h4]
    unfold dateValue
    rw [if_pos hd,if_neg (by decide),if_neg (by decide)]
  · obtain ⟨rfl,rfl,rfl⟩ : y=0 ∧ m=0 ∧ d=0 := by omega
    rw [if_neg h4]
    unfold dateZero
    rw [if_pos hd,if_pos rfl]

/-- The date and time of a text. -/
theorem stringFields_datetime {h i s : ℕ} {micro : Option ℕ} (hy : y < 10000) (hm : m < 100)
    (hd' : d < 100) (hh : h < 100) (hi : i < 100) (hs : s < 100)
    (hu : ∀ u ∈ micro,0 < u ∧ u < 1000000) :
    stringFields (dateString y m d (some (h,i,s)) micro)=natFields y m d h i s (micro.getD 0) := by
  have hly := padded_length (w := 4) hy (by decide)
  have hlm := padded_length (w := 2) hm (by decide)
  have hld := padded_length (w := 2) hd' (by decide)
  have hlh := padded_length (w := 2) hh (by decide)
  have hli := padded_length (w := 2) hi (by decide)
  have hls := padded_length (w := 2) hs (by decide)
  have htext := dateString_parts y m d h i s micro
  obtain ⟨h₁,h₂,h₃⟩ := stringFields_day ([32]++(padded 2 h++([58]++
    (padded 2 i++([58]++(padded 2 s++fractionText micro)))))) hy hm hd'
  have hday : (padded 4 y++([45]++(padded 2 m++([45]++padded 2 d)))).length=10 := by
    simp only [List.length_append,hly,hlm,hld]
    rfl
  have hassoc : ∀ tail,padded 4 y++([45]++(padded 2 m++([45]++(padded 2 d++tail))))=
      (padded 4 y++([45]++(padded 2 m++([45]++padded 2 d))))++tail := by
    intro tail
    simp only [List.append_assoc]
  rw [hassoc,←htext] at h₁ h₂ h₃
  generalize padded 4 y++([45]++(padded 2 m++([45]++padded 2 d)))=day at hday htext
  have h₄ : parseInt (slice 11 13 (dateString y m d (some (h,i,s)) micro))=some (h : ℤ) := by
    rw [htext,←List.append_assoc,slice_between (by rw [List.length_append,hday]; rfl)
      (by omega),parseInt_padded (by decide)]
  have h₅ : parseInt (slice 14 16 (dateString y m d (some (h,i,s)) micro))=some (i : ℤ) := by
    rw [htext,←List.append_assoc,←List.append_assoc,←List.append_assoc,
      slice_between (by simp only [List.length_append,hday,hlh]; rfl) (by omega),
      parseInt_padded (by decide)]
  have h₆ : parseInt (slice 17 19 (dateString y m d (some (h,i,s)) micro))=some (s : ℤ) := by
    rw [htext,←List.append_assoc,←List.append_assoc,←List.append_assoc,←List.append_assoc,
      ←List.append_assoc,slice_between
        (by simp only [List.length_append,hday,hlh,hli]; rfl) (by omega),
      parseInt_padded (by decide)]
  have hlen : (dateString y m d (some (h,i,s)) micro).length=
      19+(fractionText micro).length := by
    rw [htext]
    simp only [List.length_append,List.length_singleton,hday,hlh,hli,hls]
    omega
  have h₇ : (if 20 < (dateString y m d (some (h,i,s)) micro).length then
      parseInt ((dateString y m d (some (h,i,s)) micro).drop 20) else some 0)=
        some ((micro.getD 0 : ℕ) : ℤ) := by
    rw [hlen]
    cases micro with
    | none => rfl
    | some u =>
      have hlu := padded_length (w := 6) (hu u rfl).2 (by decide)
      have hl : (fractionText (some u)).length=7 := by
        rw [fractionText,List.length_append,hlu]
        rfl
      rw [hl,if_pos (by decide),htext]
      have hdrop : (day++([32]++(padded 2 h++([58]++(padded 2 i++([58]++(padded 2 s++
          fractionText (some u)))))))).drop 20=padded 6 u := by
        have hparts : day++([32]++(padded 2 h++([58]++(padded 2 i++([58]++(padded 2 s++
            fractionText (some u)))))))=(day++([32]++(padded 2 h++([58]++(padded 2 i++([58]++
              (padded 2 s++[46])))))))++padded 6 u := by
          simp only [fractionText,List.append_assoc]
        rw [hparts]
        refine List.drop_left' ?_
        simp only [List.length_append,hday,hlh,hli,hls]
        rfl
      rw [hdrop,parseInt_padded (by decide)]
      rfl
  unfold stringFields natFields
  dsimp only
  rw [h₁,h₂,h₃,h₄,h₅,h₆,h₇,if_pos (by omega),if_pos (by omega),if_pos (by omega)]

/-- The text of a date and time is read back. -/
theorem datetimeRead_text {o : RowOptions} {typeId : MysqlType}
    (ht : typeId=.DATETIME ∨ typeId=.TIMESTAMP) (hd : o.datesAsString=true) {h i s : ℕ}
    {micro : Option ℕ} (hy : y < 10000) (hm : m < 100) (hd' : d < 100) (hh : h < 100) (hi : i < 100)
    (hs : s < 100) (hu : ∀ u ∈ micro,0 < u ∧ u < 1000000) :
    dateCellValue o typeId (dateCellOf (stringFields (dateString y m d (some (h,i,s)) micro)))=
      .str (dateString y m d (some (h,i,s)) micro) := by
  have htime : typeId≠.DATE := by
    rintro rfl
    rcases ht with ht|ht <;> cases ht
  have hmicro : micro.getD 0 < 2^32 := by
    cases micro with
    | none => exact Nat.pow_pos (by decide)
    | some u =>
      have h := (hu u rfl).2
      show u < 2^32
      omega
  rw [stringFields_datetime hy hm hd' hh hi hs hu,dateCellValue_natFields o typeId (by omega)
    (by omega) (by omega) (by omega) (by omega) (by omega) hmicro]
  have value : ∀ len h' i' s' u',h'=h → i'=i → s'=s →
      (if 11 ≤ len then some u' else none)=micro →
      dateValue o typeId len y m d h' i' s' u'=.str (dateString y m d (some (h,i,s)) micro) := by
    rintro len _ _ _ u' rfl rfl rfl hm'
    unfold dateValue
    rw [if_pos hd,if_pos (Or.inr ht),hm']
  unfold dateRead
  cases micro with
  | some u =>
    have h := (hu u rfl).1
    rw [if_pos (show (some u).getD 0≠0 by show u≠0; omega)]
    exact value 11 _ _ _ _ rfl rfl rfl rfl
  | none =>
    rw [if_neg (by decide)]
    by_cases h7 : h+(i+s)≠0
    · rw [if_pos h7]
      exact value 7 _ _ _ _ rfl rfl rfl rfl
    rw [if_neg h7]
    by_cases h4 : y+(m+d)≠0
    · rw [if_pos h4]
      exact value 4 _ _ _ _ (by omega) (by omega) (by omega) rfl
    · rw [if_neg h4]
      obtain ⟨rfl,rfl,rfl⟩ : y=0 ∧ m=0 ∧ d=0 := by omega
      obtain ⟨rfl,rfl,rfl⟩ : h=0 ∧ i=0 ∧ s=0 := by omega
      unfold dateZero
      rw [if_pos hd,if_neg htime]

/-! ## Times -/

/-- Whole seconds are stored without a loss. -/
theorem timeKept_whole {micros : ℤ} (hw : micros.natAbs%1000000=0) (hb : micros.natAbs < 2^53) :
    TimeKept micros := by
  obtain ⟨n,hn⟩ : ∃ n,micros.natAbs=n*1000000 := ⟨micros.natAbs/1000000,by omega⟩
  have hdouble : toDouble ((micros.natAbs/1000000 : ℕ)+
      toDouble ((micros.natAbs%1000000 : ℕ)/1000000))=(n : ℚ) := by
    have hdiv : micros.natAbs/1000000=n := by omega
    rw [hw,hdiv,Nat.cast_zero,zero_div,toDouble_zero,add_zero,toDouble_natCast (by omega)]
  have habs : |secondsNumber micros|=(n : ℚ) := by
    unfold secondsNumber
    dsimp only
    rw [hdouble]
    split
    · rw [abs_neg,Nat.abs_cast]
    · exact Nat.abs_cast n
  have htrunc : ∀ k : ℕ,trunc (k : ℚ)=k := by
    intro k
    unfold trunc
    rw [if_pos (Nat.cast_nonneg k),Int.floor_natCast]
  have hmillion : (n : ℚ)*1000000=((n*1000000 : ℕ) : ℚ) := by push_cast; rfl
  unfold TimeKept microOf wholeOf
  rw [habs,hmillion,toDouble_natCast (by omega),htrunc,htrunc]
  omega

/-- The sign of a number of seconds. -/
theorem secondsNumber_neg_iff {micros : ℤ} (h : secondsNumber micros≠0) :
    secondsNumber micros < 0↔micros < 0 := by
  have hq : 0 ≤ toDouble ((micros.natAbs/1000000 : ℕ)+
      toDouble ((micros.natAbs%1000000 : ℕ)/1000000)) := by
    refine toDouble_nonneg (add_nonneg (Nat.cast_nonneg _) (toDouble_nonneg ?_))
    exact div_nonneg (Nat.cast_nonneg _) (by norm_num)
  unfold secondsNumber at h ⊢
  dsimp only at h ⊢
  split
  · next hn =>
    rw [if_pos hn,neg_ne_zero] at h
    exact ⟨fun _ => hn,fun _ => neg_lt_zero.mpr (lt_of_le_of_ne hq h.symm)⟩
  · next hn => exact ⟨fun hlt => absurd hq (not_le.mpr hlt),fun hlt => absurd hlt hn⟩

/-- The form of a time is read back. -/
theorem timeRead {micros : ℤ} (h : TimeKept micros) :
    timeCellValue (timeCellOf (secondsNumber micros))=.seconds micros := by
  obtain ⟨hmicro,hwhole,hlt⟩ := h
  by_cases hz : secondsNumber micros=0
  · have hm0 : microOf 0=0 := by decide +kernel
    have hw0 : wholeOf 0=0 := by decide +kernel
    rw [hz,hm0] at hmicro
    rw [hz,hw0] at hwhole
    have hmicros : micros=0 := by omega
    rw [hz,hmicros]
    rfl
  have hsign := secondsNumber_neg_iff hz
  have byte : ∀ {n : ℕ},n < 256 → (UInt8.ofNat n).toNat=n := by
    intro n hn
    rw [UInt8.toNat_ofNat']
    omega
  have long : ∀ {n : ℕ},n < 2^32 → (UInt32.ofNat n).toNat=n := by
    intro n hn
    rw [UInt32.toNat_ofNat']
    omega
  have hneg : (if secondsNumber micros < 0 then 1 else 0) < 256 := by split <;> decide
  have value : ∀ u,u=microOf (secondsNumber micros) →
      timeValue (if secondsNumber micros < 0 then 1 else 0)
        (wholeOf (secondsNumber micros)/60/60/24) (wholeOf (secondsNumber micros)/60/60%24)
        (wholeOf (secondsNumber micros)/60%60) (wholeOf (secondsNumber micros)%60) u=
          .seconds micros := by
    rintro u rfl
    rw [hmicro,hwhole]
    unfold timeValue
    dsimp only
    congr 1
    by_cases hm : micros < 0
    · rw [if_pos (hsign.mpr hm),if_pos (by decide)]
      omega
    · rw [if_neg (fun hn => hm (hsign.mp hn)),if_neg (by decide)]
      omega
  unfold timeCellOf
  rw [if_neg hz]
  by_cases hu : microOf (secondsNumber micros)≠0
  · rw [if_pos hu]
    unfold timeCellValue
    dsimp only
    rw [byte hneg,long (by omega),byte (by omega),byte (by omega),byte (by omega),
      long (by rw [hmicro]; omega)]
    exact value _ rfl
  · rw [if_neg hu]
    unfold timeCellValue
    dsimp only
    rw [byte hneg,long (by omega),byte (by omega),byte (by omega),byte (by omega)]
    exact value 0 (by omega)

/-! ## All values -/

/-- The form in which a value is stored, if it has one. -/
def storedForm (o : RowOptions) (f : FloatWidths) (p : Column×ColumnValue) : Option BinaryCell :=
  if p.2=.null then none else some (cellOf o f p.1 p.2)

/-- A value that is not null has a form. -/
theorem storedForm_some (o : RowOptions) (f : FloatWidths) (column : Column) {value : ColumnValue}
    (h : value≠.null) : storedForm o f (column,value)=some (cellOf o f column value) := if_neg h

/-- The form of a date, whichever of the types it has. -/
theorem cellOf_date (o : RowOptions) (f : FloatWidths) {column : Column} (value : ColumnValue)
    (ht : isDate column.typeId=true) :
    cellOf o f column value=.date (dateCellOf (dateFields o value)) := by
  unfold cellOf
  cases hc : column.typeId <;> rw [hc] at ht <;> cases ht <;> rfl

/-- Dates fit their types. -/
theorem fits_date {typeId : MysqlType} (ht : isDate typeId=true) (d : DateCell) :
    Fits typeId (.date d) := by
  cases typeId <;> cases ht
  · exact .timestamp d
  · exact .date d
  · exact .datetime d

/-- Byte strings are read as they are delivered from memory. -/
theorem blobValue_memory {o : RowOptions} {column : Column} {v : List UInt8}
    (hv : o.rowType≠.VOID) (ht : isBlob column.typeId=true) (hn : column.typeId≠.NULL)
    (hl : v.length < longBlob)
    (hid : ∀ id,column.typeId=.OTHER id → id ∈ stringIds ∨ column.charsetId=charsetBinary) :
    blobValue (fileOptions o) column v=memoryValue o.jsonAsString column (.bytes v) := by
  have hlen : ¬((fileOptions o).maxColumnLen < v.length ∨ (fileOptions o).rowType=.VOID) := by
    rintro (h|h)
    · have hmax : (fileOptions o).maxColumnLen=2^53-1 := rfl
      unfold longBlob at hl
      omega
    · exact hv h
  have hser : (fileOptions o).isForSerialize=false := rfl
  have hjson : (fileOptions o).jsonAsString=o.jsonAsString := rfl
  unfold blobValue memoryValue wantBytes stringValue
  rw [if_neg hlen,hser,Bool.or_false,hjson]
  cases hc : column.typeId <;> rw [hc] at ht hn hid
  case DECIMAL => simp
  case NULL => exact absurd rfl hn
  case NEWDECIMAL => simp
  case JSON => cases o.jsonAsString <;> simp
  case OTHER id =>
    by_cases hb : column.charsetId=charsetBinary
    · simp [hb]
    · have hmem := (hid id rfl).resolve_right hb
      simp [hb,hmem]
  all_goals cases ht

/-- What is stored without a loss is read from the file as it is delivered from memory. -/
theorem storable_read {o : RowOptions} (f : FloatWidths) {column : Column} {value : ColumnValue}
    (hv : o.rowType≠.VOID) (h : Storable o column value) :
    (value≠.null → Fits column.typeId (cellOf o f column value)) ∧
      nullableValue (fileOptions o) column (storedForm o f (column,value))=
        memoryValue o.jsonAsString column value := by
  have form : ∀ {cell},value≠.null → cellOf o f column value=cell → Fits column.typeId cell →
      binaryValue (fileOptions o) column cell=memoryValue o.jsonAsString column value →
      (value≠.null → Fits column.typeId (cellOf o f column value)) ∧
        nullableValue (fileOptions o) column (storedForm o f (column,value))=
          memoryValue o.jsonAsString column value := by
    rintro cell hne rfl hfit hval
    exact ⟨fun _ => hfit,by rw [storedForm_some o f column hne]; exact hval⟩
  cases h with
  | null => exact ⟨fun hn => absurd rfl hn,rfl⟩
  | integer ht hl hn =>
    have hread := integerValue_leBytes hn
    refine form nofun rfl ?_ ?_
    · unfold cellOf
      cases hc : column.typeId <;> rw [hc] at ht hl
      case TINY => exact .tiny (leBytes_length _ _)
      case SHORT => exact .short (leBytes_length _ _)
      case YEAR => exact .year (leBytes_length _ _)
      case INT24 => exact .int24 (leBytes_length _ _)
      case LONG => exact .long (leBytes_length _ _)
      case LONGLONG => exact absurd rfl hl
      all_goals exact absurd ht (Nat.lt_irrefl 0)
    · unfold cellOf binaryValue
      cases hc : column.typeId <;> rw [hc] at ht hl hread
      case TINY => exact congrArg ColumnValue.number hread
      case SHORT => exact congrArg ColumnValue.number hread
      case YEAR => exact congrArg ColumnValue.number hread
      case INT24 => exact congrArg ColumnValue.number hread
      case LONG => exact congrArg ColumnValue.number hread
      case LONGLONG => exact absurd rfl hl
      all_goals exact absurd ht (Nat.lt_irrefl 0)
  | safe ht hn hs =>
    next n =>
    have hcell : cellOf o f column (.number n)=.fixed (leBytes 8 (wrap 8 n)) := by
      unfold cellOf
      rw [ht]
      rfl
    refine form nofun hcell (by rw [ht]; exact .longlong (leBytes_length _ _)) ?_
    unfold binaryValue
    dsimp only
    rw [ht]
    dsimp only
    rw [integerValue_leBytes hn]
    exact if_pos hs
  | big ht hn hs =>
    next n =>
    have hcell : cellOf o f column (.bigint n)=.fixed (leBytes 8 (wrap 8 n)) := by
      unfold cellOf
      rw [ht]
      rfl
    refine form nofun hcell (by rw [ht]; exact .longlong (leBytes_length _ _)) ?_
    unfold binaryValue
    dsimp only
    rw [ht]
    dsimp only
    rw [integerValue_leBytes hn]
    exact if_neg hs
  | single ht hl =>
    next raw =>
    have hcell : cellOf o f column (.float raw)=.fixed raw := by
      unfold cellOf floatBytes
      rw [ht]
      dsimp only
      rw [if_pos hl]
    refine form nofun hcell (by rw [ht]; exact .float hl) ?_
    unfold binaryValue
    dsimp only
    rw [ht]
    rfl
  | double ht hl =>
    next raw =>
    have hcell : cellOf o f column (.float raw)=.fixed raw := by
      unfold cellOf floatBytes
      rw [ht]
      dsimp only
      rw [if_pos hl]
    refine form nofun hcell (by rw [ht]; exact .double hl) ?_
    unfold binaryValue
    dsimp only
    rw [ht]
    rfl
  | bit ht b =>
    have hcell : cellOf o f column (.bool b)=.blob [if asInteger (.bool b)≠0 then 1 else 0] := by
      unfold cellOf
      rw [ht]
    refine form nofun hcell (by rw [ht]; exact .bit (show 1 ≤ 8 by decide)) ?_
    unfold binaryValue
    dsimp only
    rw [if_pos ht]
    cases b <;> rfl
  | date ht hd hz hy =>
    next ms =>
    have hcell : cellOf o f column (.date ms)=.date (dateCellOf (instantFields o ms)) := by
      rw [cellOf_date o f _ ht]
      unfold dateFields
      rw [if_pos hd]
    exact form nofun hcell (fits_date ht _)
      (@dateRead_instant (fileOptions o) column.typeId ms hd hz hy)
  | dateText ht hd hy hm hd' =>
    next y m d =>
    have hcell : cellOf o f column (.str (dateString y m d none none))=
        .date (dateCellOf (stringFields (dateString y m d none none))) := by
      rw [cellOf_date o f _ (by rw [ht]; rfl)]
      unfold dateFields
      rw [if_neg (by rw [hd]; decide)]
    refine form nofun hcell (fits_date (by rw [ht]; rfl) _) ?_
    show dateCellValue (fileOptions o) column.typeId _=_
    rw [ht]
    exact @dateRead_text y m d (fileOptions o) hd hy hm hd'
  | datetimeText ht hd hy hm hd' hh hi hs hu =>
    next y m d h i s micro =>
    have hdate : isDate column.typeId=true := by rcases ht with ht|ht <;> rw [ht] <;> rfl
    have hcell : cellOf o f column (.str (dateString y m d (some (h,i,s)) micro))=
        .date (dateCellOf (stringFields (dateString y m d (some (h,i,s)) micro))) := by
      rw [cellOf_date o f _ hdate]
      unfold dateFields
      rw [if_neg (by rw [hd]; decide)]
    exact form nofun hcell (fits_date hdate _)
      (@datetimeRead_text y m d (fileOptions o) column.typeId ht hd h i s micro hy hm hd' hh hi
        hs hu)
  | time ht hk =>
    next micros =>
    have hcell : cellOf o f column (.seconds micros)=.time (timeCellOf (secondsNumber micros)) := by
      unfold cellOf
      rw [ht]
      rfl
    exact form nofun hcell (by rw [ht]; exact .time _) (timeRead hk)
  | bytes ht hn hl hid =>
    next v =>
    refine form nofun (cellOf_blob o f _ ht) (.blob ht hl) ?_
    have hbit : column.typeId≠.BIT := by
      intro h
      rw [h] at ht
      cases ht
    unfold binaryValue
    dsimp only
    rw [if_neg hbit]
    exact blobValue_memory hv ht hn hl hid

end SpiritMysql.StoredValues
