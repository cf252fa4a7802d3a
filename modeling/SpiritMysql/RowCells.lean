import SpiritMysql.RowWriter

/-!
# The forms of stored values

Which form of the binary protocol the serializer gives to a value, and that each of its
operations appends exactly the bytes of that form.
-/

namespace SpiritMysql.RowCells

open AsyncAction ByteCodec CivilDate ColumnValues FieldWriter PacketSends ReadScript RowReader
open RowStream RowWriter SqlValues Writer

/-! ## Conditional writes -/

/-- An operation under a condition that holds. -/
theorem appends_doWhen_pos {c : Prop} [Decidable c] {x : Write Unit} {bytes : List UInt8} {need : ℕ}
    (hc : c) (hx : Appends x bytes need) : Appends (doWhen c x) bytes need := by
  unfold doWhen
  rwa [if_pos hc]

/-- An operation under a condition that does not hold. -/
theorem appends_doWhen_neg {c : Prop} [Decidable c] {x : Write Unit} (hc : ¬c) :
    Appends (doWhen c x) [] 0 := by
  unfold doWhen
  rw [if_neg hc]
  exact appends_pure

/-- An operation that needs room for its bytes only. -/
def Writes (x : Write Unit) (bytes : List UInt8) : Prop := Appends x bytes bytes.length

theorem Writes.andThen {x y : Write Unit} {a b : List UInt8} (hx : Writes x a) (hy : Writes y b) :
    Writes (do x; y) (a++b) := by
  unfold Writes
  rw [List.length_append]
  exact Appends.andThen hx hy (Nat.le_add_right _ _) le_rfl

/-- Writing to a part of the buffer that has the bytes. -/
theorem Writes.congr {x : Write Unit} {a b : List UInt8} (hx : Writes x a) (h : a=b) :
    Writes x b := h ▸ hx

theorem writes_nothing : Writes (pure ()) [] := appends_pure

/-- A word of a number. -/
theorem writes_setWord (k value : ℕ) : Writes (setWord k value) (leBytes k value) := by
  unfold Writes
  rw [leBytes_length]
  exact appends_setWord k value

/-- One byte. -/
theorem writes_uint8 (value : ℕ) : Writes (writeUint8 value) (leBytes 1 value) :=
  appends_assign value

theorem writes_uint16 (value : ℕ) : Writes (writeUint16 value) (leBytes 2 value) :=
  writes_setWord 2 value

theorem writes_uint32 (value : ℕ) : Writes (writeUint32 value) (leBytes 4 value) :=
  writes_setWord 4 value

/-- A byte string. -/
theorem writes_bytes (bytes : List UInt8) : Writes (writeShortBytes bytes) bytes :=
  appends_bytes bytes

/-- An integer in the signedness of its column. -/
theorem writes_integer {c : Bool} {k : ℕ} {x y : Write Unit} {n : ℤ}
    (hx : Writes x (leBytes k (wrap k n))) (hy : Writes y (leBytes k (wrap k n))) :
    Writes (if c=true then x else y) (leBytes k (wrap k n)) := by
  split
  · exact hx
  · exact hy

/-! ## Dates and times -/

/-- The form of a date. -/
def dateCellOf (f : DateFields) : DateCell :=
  if f.len=11 then
    .micro (.ofNat (lowBytes 2 f.year)) (.ofNat (lowBytes 1 f.month)) (.ofNat (lowBytes 1 f.day))
      (.ofNat (lowBytes 1 f.hour)) (.ofNat (lowBytes 1 f.minute)) (.ofNat (lowBytes 1 f.second))
      (.ofNat (lowBytes 4 f.micro))
  else if f.len=7 then
    .second (.ofNat (lowBytes 2 f.year)) (.ofNat (lowBytes 1 f.month)) (.ofNat (lowBytes 1 f.day))
      (.ofNat (lowBytes 1 f.hour)) (.ofNat (lowBytes 1 f.minute)) (.ofNat (lowBytes 1 f.second))
  else if f.len=4 then
    .day (.ofNat (lowBytes 2 f.year)) (.ofNat (lowBytes 1 f.month)) (.ofNat (lowBytes 1 f.day))
  else .zero

/-- The form of a time. -/
def timeCellOf (num : ℚ) : TimeCell :=
  if num=0 then .zero
  else if microOf num≠0 then
    .micro (.ofNat (if num < 0 then 1 else 0)) (.ofNat (wholeOf num/60/60/24))
      (.ofNat (wholeOf num/60/60%24)) (.ofNat (wholeOf num/60%60)) (.ofNat (wholeOf num%60))
      (.ofNat (microOf num))
  else
    .second (.ofNat (if num < 0 then 1 else 0)) (.ofNat (wholeOf num/60/60/24))
      (.ofNat (wholeOf num/60/60%24)) (.ofNat (wholeOf num/60%60)) (.ofNat (wholeOf num%60))

/-- The bytes of a number that was cut to a byte. -/
theorem leBytes_uint8 (n : ℕ) : leBytes 1 (UInt8.ofNat n).toNat=leBytes 1 n := by
  rw [UInt8.toNat_ofNat']
  exact leBytes_mod 1 n

/-- The bytes of a number that was cut to two bytes. -/
theorem leBytes_uint16 (n : ℕ) : leBytes 2 (UInt16.ofNat n).toNat=leBytes 2 n := by
  rw [UInt16.toNat_ofNat']
  exact leBytes_mod 2 n

/-- The bytes of a number that was cut to four bytes. -/
theorem leBytes_uint32 (n : ℕ) : leBytes 4 (UInt32.ofNat n).toNat=leBytes 4 n := by
  rw [UInt32.toNat_ofNat']
  exact leBytes_mod 4 n

/-- A date has one of four lengths. -/
theorem dateLen_cases (f : DateFields) : f.len=11 ∨ f.len=7 ∨ f.len=4 ∨ f.len=0 := by
  unfold DateFields.len
  split_ifs <;> simp

/-- A date is written in its form. -/
theorem writes_date (f : DateFields) :
    Writes (serializeDate f) (binaryCell (.date (dateCellOf f))) := by
  have day : ∀ {tail : List UInt8} {y : Write Unit},Writes y tail → Writes (do
      writeUint16 (lowBytes 2 f.year)
      writeUint8 (lowBytes 1 f.month)
      writeUint8 (lowBytes 1 f.day)
      y) (leBytes 2 (lowBytes 2 f.year)++(leBytes 1 (lowBytes 1 f.month)++
        (leBytes 1 (lowBytes 1 f.day)++tail))) := fun hy =>
    (writes_uint16 _).andThen ((writes_uint8 _).andThen ((writes_uint8 _).andThen hy))
  have clock : ∀ {tail : List UInt8} {y : Write Unit},Writes y tail → Writes (do
      writeUint8 (lowBytes 1 f.hour)
      writeUint8 (lowBytes 1 f.minute)
      writeUint8 (lowBytes 1 f.second)
      y) (leBytes 1 (lowBytes 1 f.hour)++(leBytes 1 (lowBytes 1 f.minute)++
        (leBytes 1 (lowBytes 1 f.second)++tail))) := fun hy =>
    (writes_uint8 _).andThen ((writes_uint8 _).andThen ((writes_uint8 _).andThen hy))
  unfold serializeDate dateCellOf
  rcases dateLen_cases f with h|h|h|h <;> rw [h]
  · refine ((writes_uint8 11).andThen (appends_doWhen_pos (by decide) (day
      (appends_doWhen_pos (by decide) (clock (appends_doWhen_pos (by decide)
        (writes_uint32 _))))))).congr ?_
    simp only [if_true,binaryCell,DateCell.words,withLength,wordsBytes,wordsLength,
      List.flatMap_cons,List.flatMap_nil,leBytes_uint8,leBytes_uint16,leBytes_uint32,
      List.append_nil]
    rfl
  · refine ((writes_uint8 7).andThen (appends_doWhen_pos (by decide) (day
      (appends_doWhen_pos (by decide) (clock (appends_doWhen_neg (by decide))))))).congr ?_
    rw [if_neg (by decide),if_pos rfl]
    simp only [binaryCell,DateCell.words,withLength,wordsBytes,wordsLength,
      List.flatMap_cons,List.flatMap_nil,leBytes_uint8,leBytes_uint16,List.append_nil]
    rfl
  · refine ((writes_uint8 4).andThen (appends_doWhen_pos (by decide) (day
      (appends_doWhen_neg (by decide))))).congr ?_
    rw [if_neg (by decide),if_neg (by decide),if_pos rfl]
    simp only [binaryCell,DateCell.words,withLength,wordsBytes,wordsLength,
      List.flatMap_cons,List.flatMap_nil,leBytes_uint8,leBytes_uint16,List.append_nil]
    rfl
  · exact ((writes_uint8 0).andThen (appends_doWhen_neg (by decide))).congr rfl

/-- A time is written in its form. -/
theorem writes_time (num : ℚ) :
    Writes (serializeTime num) (binaryCell (.time (timeCellOf num))) := by
  have clock : ∀ {tail : List UInt8} {y : Write Unit},Writes y tail → Writes (do
      writeUint8 (if num < 0 then 1 else 0)
      writeUint32 (wholeOf num/60/60/24)
      writeUint8 (wholeOf num/60/60%24)
      writeUint8 (wholeOf num/60%60)
      writeUint8 (wholeOf num%60)
      y) (leBytes 1 (if num < 0 then 1 else 0)++(leBytes 4 (wholeOf num/60/60/24)++
        (leBytes 1 (wholeOf num/60/60%24)++(leBytes 1 (wholeOf num/60%60)++
          (leBytes 1 (wholeOf num%60)++tail))))) := fun hy =>
    (writes_uint8 _).andThen ((writes_uint32 _).andThen ((writes_uint8 _).andThen
      ((writes_uint8 _).andThen ((writes_uint8 _).andThen hy))))
  unfold serializeTime timeCellOf
  by_cases hz : num=0
  · rw [if_pos hz,if_pos hz]
    exact (writes_uint8 0).congr rfl
  rw [if_neg hz,if_neg hz]
  by_cases hm : microOf num≠0
  · rw [if_pos hm,if_pos hm]
    refine ((writes_uint8 12).andThen (clock (appends_doWhen_pos hm (writes_uint32 _)))).congr ?_
    simp only [binaryCell,TimeCell.words,withLength,wordsBytes,wordsLength,
      List.flatMap_cons,List.flatMap_nil,leBytes_uint8,leBytes_uint32,List.append_nil]
    rfl
  · rw [if_neg hm,if_neg hm]
    refine ((writes_uint8 8).andThen (clock (appends_doWhen_neg hm))).congr ?_
    simp only [binaryCell,TimeCell.words,withLength,wordsBytes,wordsLength,
      List.flatMap_cons,List.flatMap_nil,leBytes_uint8,leBytes_uint32,List.append_nil]
    rfl

/-! ## Values -/

/-- The bytes of a floating-point number in a width. -/
def floatBytes (k : ℕ) (other : List UInt8 → List UInt8) : ColumnValue → List UInt8
  | .float raw => if raw.length=k then raw else other raw
  | _ => leBytes k 0

/-- The form of a value that is not null. -/
def cellOf (o : RowOptions) (f : FloatWidths) (column : Column) (value : ColumnValue) :
    BinaryCell :=
  match column.typeId with
  | .FLOAT => .fixed (floatBytes 4 f.single value)
  | .DOUBLE => .fixed (floatBytes 8 f.double value)
  | .DATE => .date (dateCellOf (dateFields o value))
  | .DATETIME => .date (dateCellOf (dateFields o value))
  | .TIMESTAMP => .date (dateCellOf (dateFields o value))
  | .TIME => .time (timeCellOf (asSeconds value))
  | .BIT => .blob [if asInteger value≠0 then 1 else 0]
  | t =>
    if 0 < integerBytes t then
      .fixed (leBytes (integerBytes t) (wrap (integerBytes t) (asInteger value)))
    else .blob (blobBytes value)

/-- A value of a type that is not sent as a byte string is written in its form. -/
theorem writes_value (o : RowOptions) (f : FloatWidths) (isLast : Bool) {column : Column}
    (value : ColumnValue) (ht : isBlob column.typeId=false) :
    Writes (serializeValue o f isLast column value) (binaryCell (cellOf o f column value)) := by
  unfold serializeValue cellOf
  cases hc : column.typeId <;> rw [hc] at ht
  case TINY =>
    exact writes_integer (writes_uint8 _) (writes_setWord 1 _)
  case SHORT => exact writes_integer (writes_uint16 _) (writes_setWord 2 _)
  case YEAR => exact writes_integer (writes_uint16 _) (writes_setWord 2 _)
  case INT24 => exact writes_integer (writes_uint32 _) (writes_setWord 4 _)
  case LONG => exact writes_integer (writes_uint32 _) (writes_setWord 4 _)
  case LONGLONG => exact writes_integer (writes_setWord 8 _) (writes_setWord 8 _)
  case FLOAT =>
    cases value with
    | float raw => exact writes_bytes _
    | _ => exact writes_setWord 4 0
  case DOUBLE =>
    cases value with
    | float raw => exact writes_bytes _
    | _ => exact writes_setWord 8 0
  case DATE => exact writes_date _
  case DATETIME => exact writes_date _
  case TIMESTAMP => exact writes_date _
  case TIME => exact writes_time _
  case BIT =>
    refine (writes_uint16 _).congr ?_
    dsimp only
    split <;> rfl
  all_goals cases ht

/-- The form of a value of the other types. -/
theorem cellOf_blob (o : RowOptions) (f : FloatWidths) {column : Column} (value : ColumnValue)
    (ht : isBlob column.typeId=true) : cellOf o f column value=.blob (blobBytes value) := by
  unfold cellOf
  cases hc : column.typeId <;> rw [hc] at ht <;> cases ht <;> rfl

/-- Values of the other types are written as byte strings. -/
theorem serializeValue_blob (o : RowOptions) (f : FloatWidths) (isLast : Bool) {column : Column}
    (value : ColumnValue) (ht : isBlob column.typeId=true) :
    serializeValue o f isLast column value=serializeBlob isLast (blobBytes value) := by
  unfold serializeValue
  cases hc : column.typeId <;> rw [hc] at ht <;> cases ht <;> rfl

/-! ## The null mask -/

/-- The mask with the next bit. -/
theorem mask_put {mask k : ℕ} (isNull : Bool) (h : mask < 2^k) :
    (if isNull=true then mask ||| 2^k else mask)=mask+2^k*isNull.toNat := by
  cases isNull with
  | false => rw [if_neg Bool.false_ne_true,Bool.toNat_false,Nat.mul_zero,Nat.add_zero]
  | true =>
    have ho := Nat.two_pow_add_eq_or_of_lt h 1
    rw [Nat.mul_one] at ho
    rw [if_pos rfl,Nat.or_comm,←ho,Bool.toNat_true,Nat.mul_one,Nat.add_comm]

/-- The loop writes the bits that it has and those that follow. -/
theorem writes_nullLoop (nulls : List Bool) {mask k : ℕ} (hk : k < 8) (hm : mask < 2^k) :
    Writes (nullLoop mask (2^k) nulls)
      (leBytes ((k+nulls.length+7)/8) (mask+2^k*ofBits nulls)) := by
  induction nulls generalizing mask k with
  | nil =>
    unfold nullLoop
    by_cases hz : k=0
    · subst hz
      exact appends_doWhen_neg (by decide)
    · have h1 : (2 : ℕ)^k≠1 := by
        intro h
        exact hz (Nat.pow_eq_one.mp h |>.resolve_left (by decide))
      have hl : (k+([] : List Bool).length+7)/8=1 := by
        rw [List.length_nil]
        omega
      rw [hl,ofBits,Nat.mul_zero,Nat.add_zero]
      exact appends_doWhen_pos h1 (writes_uint8 mask)
  | cons isNull nulls ih =>
    have hput := mask_put isNull hm
    have hb : isNull.toNat ≤ 1 := Bool.toNat_le isNull
    have hbits : ofBits (isNull::nulls)=2*ofBits nulls+isNull.toNat := Nat.bit_val _ _
    have hlt : mask+2^k*isNull.toNat < 2^(k+1) := by
      have hle : 2^k*isNull.toNat ≤ 2^k*1 := Nat.mul_le_mul_left _ hb
      rw [pow_succ]
      omega
    rw [nullLoop,hput]
    by_cases h7 : k=7
    · subst h7
      rw [if_pos (show (2 : ℕ)^7=0x80 from rfl)]
      have hi := ih (show 0 < 8 by decide) (show 0 < 2^0 by decide)
      refine ((writes_uint8 (mask+2^7*isNull.toNat)).andThen hi).congr ?_
      have hl : (7+(isNull::nulls).length+7)/8=(0+nulls.length+7)/8+1 := by
        rw [List.length_cons]
        omega
      have hd : (mask+2^7*ofBits (isNull::nulls))/256=0+2^0*ofBits nulls := by omega
      have ho : UInt8.ofNat (mask+2^7*ofBits (isNull::nulls))=
          UInt8.ofNat (mask+2^7*isNull.toNat) := by
        apply UInt8.toNat_inj.mp
        rw [UInt8.toNat_ofNat',UInt8.toNat_ofNat']
        omega
      rw [hl,leBytes_succ ((0+nulls.length+7)/8),hd,ho]
      rfl
    · have h8 : (2 : ℕ)^k≠0x80 := by
        intro h
        exact h7 (Nat.pow_right_injective (le_refl 2) h)
      rw [if_neg h8,Nat.shiftLeft_eq,pow_one,←pow_succ]
      refine (ih (show k+1 < 8 by omega) hlt).congr ?_
      have hl : (k+(isNull::nulls).length+7)/8=(k+1+nulls.length+7)/8 := by
        rw [List.length_cons]
        omega
      have hv : mask+2^k*isNull.toNat+2^(k+1)*ofBits nulls=
          mask+2^k*ofBits (isNull::nulls) := by
        rw [hbits]
        ring
      rw [hl,hv]

/-- The null mask of a row is written. -/
theorem writes_nullMask (nulls : List Bool) :
    Writes (nullLoop 0 4 nulls)
      (leBytes (nullBitsLen nulls.length) (ofBits (false::false::nulls))) := by
  refine (writes_nullLoop nulls (show 2 < 8 by decide) (show 0 < 2^2 by decide)).congr ?_
  have hl : (2+nulls.length+7)/8=nullBitsLen nulls.length := by
    unfold nullBitsLen
    omega
  have hv : 0+2^2*ofBits nulls=ofBits (false::false::nulls) := by
    simp only [ofBits,Nat.bit_val,Bool.toNat_false]
    ring
  rw [hl,hv]

end SpiritMysql.RowCells
