import SpiritMysql.SqlValues

/-!
# One row in both protocols

Rows of SQL values as the text and as the binary protocol send them, and when
`deserializeRowText()` and `deserializeRowBinary()` deliver the same row.
-/

namespace SpiritMysql.SqlRows

open ByteCodec ColumnValues ConvColumnValue DecimalText ReadScript Reader RowReader RowStream
open Rounding SqlValues TextValues

/-- The columns of a row with their values. -/
abbrev SqlRow := List (Column×SqlValue)

/-- The row in the text protocol. -/
def textRow (row : SqlRow) : TextRow := row.map (fun p => (p.1,textForm p.2))

/-- The row in the binary protocol. -/
def binaryRow (row : SqlRow) : BinaryRow := row.map (fun p => (p.1,binaryForm p.1.typeId p.2))

/-- What `deserializeRowText()` makes of the row. -/
def textResult (js : Engine) (o : RowOptions) (row : SqlRow) : Row :=
  Row.ofValues o.rowType (textValues (withConv js o) (textRow row))

/-- What `deserializeRowBinary()` makes of the row. -/
def binaryResult (js : Engine) (o : RowOptions) (row : SqlRow) : Row :=
  Row.ofValues o.rowType (binaryValues (withConv js o) (binaryRow row))

/-- Tables have no more columns. -/
def maxColumns : ℕ := 4096

/-- A text of hours, minutes and seconds is short. -/
theorem clockText_length {a b d : ℕ} (f : SqlFraction) (ha : a < 1000) (hb : b < 100) (hd : d < 100) :
    (clockText a b d f).length ≤ 16 := by
  have hla : (padded 2 a).length ≤ 3 := by
    have h := decimal_length_le (w:=3) (show a < 10^3 by omega) (by decide)
    rw [padded_length_eq]
    omega
  have hlb := padded_length (w:=2) (show b < 10^2 by omega) (by decide)
  have hld := padded_length (w:=2) (show d < 10^2 by omega) (by decide)
  have hf : f.text.length ≤ 7 := by
    unfold SqlFraction.text
    split
    · exact Nat.zero_le 7
    · next hn =>
      have hdec := f.decimals_le
      have hl := padded_length f.digits_lt (Nat.pos_of_ne_zero hn)
      rw [List.length_cons]
      omega
  unfold clockText
  simp only [List.length_append,List.length_cons]
  omega

/-- The text of an integer is short. -/
theorem int_length {n : ℤ} {zeros : ℕ} (hn : n.natAbs < 10^20) (hz : zeros ≤ 255) :
    (textBytes (.int n zeros)).length ≤ 255 := by
  change (if n < 0 then cMinus::decimal n.natAbs else padded zeros n.toNat).length ≤ 255
  split
  · have h := decimal_length_le hn (by decide)
    rw [List.length_cons]
    omega
  · have h := decimal_length_le (show n.toNat < 10^20 by omega) (by decide)
    rw [padded_length_eq]
    omega

/-- Integers have at most eight bytes. -/
theorem natAbs_lt {isUnsigned : Bool} {t : MysqlType} {n : ℤ}
    (h : InRange isUnsigned (storedBytes t) n) : n.natAbs < 10^20 := by
  have hk : storedBytes t ≤ 8 := by
    cases t with
    | OTHER id => exact Nat.zero_le 8
    | _ => decide
  have h8 := h.mono hk
  unfold InRange at h8
  split at h8 <;> omega

/-- The text of a value fits a long blob. -/
theorem textForm_length {c : Column} {v : SqlValue} (h : Of c v) :
    ∀ text ∈ textForm v,text.length < longBlob := by
  intro text ht
  have hdate : ∀ d : SqlDate,(padded 4 d.year).length=4 ∧ (padded 2 d.month).length=2 ∧
      (padded 2 d.day).length=2 := by
    intro d
    have hy := d.year_lt
    have hm := d.month_le
    have hd := d.day_le
    exact ⟨padded_length (by omega) (by decide),padded_length (by omega) (by decide),
      padded_length (by omega) (by decide)⟩
  unfold longBlob
  cases h with
  | null => cases ht
  | int hi hn hz =>
    cases ht
    exact (int_length (natAbs_lt hn) hz).trans_lt (by decide)
  | bits hi hv =>
    cases ht
    exact hv.trans_lt (by decide)
  | date d hi =>
    obtain ⟨hy,hm,hd⟩ := hdate d
    cases ht
    change (padded 4 d.year++cMinus::(padded 2 d.month++cMinus::padded 2 d.day)).length < _
    simp only [List.length_append,List.length_cons]
    omega
  | datetime d k f hi =>
    obtain ⟨hy,hm,hd⟩ := hdate d
    have hh := k.hour_lt
    have hmi := k.minute_lt
    have hs := k.second_lt
    have hc := clockText_length f (show k.hour < 1000 by omega) (show k.minute < 100 by omega)
      (show k.second < 100 by omega)
    cases ht
    change (padded 4 d.year++cMinus::(padded 2 d.month++cMinus::(padded 2 d.day++
      cSpace::clockText k.hour k.minute k.second f))).length < _
    simp only [List.length_append,List.length_cons]
    omega
  | time t hi =>
    have hh := t.hours_le
    have hm := t.minutes_lt
    have hs := t.seconds_lt
    have hc := clockText_length t.fraction (show t.hours < 1000 by omega)
      (show t.minutes < 100 by omega) (show t.seconds < 100 by omega)
    have hn : (if t.negative=true then [cMinus] else []).length ≤ 1 := by split <;> simp
    cases ht
    change ((if t.negative=true then [cMinus] else [])++
      clockText t.hours t.minutes t.seconds t.fraction).length < _
    rw [List.length_append]
    omega
  | bytes hi hnull hv =>
    cases ht
    exact hv

/-- A value in the binary protocol has the form of its column. -/
theorem binaryForm_fits {c : Column} {v : SqlValue} (h : Of c v) :
    ∀ cell ∈ binaryForm c.typeId v,Fits c.typeId cell := by
  intro cell hcell
  cases h with
  | null => cases hcell
  | int ht hn hz =>
    cases hcell
    cases hc : c.typeId <;> rw [hc] at ht
    case TINY => exact .tiny (leBytes_length _ _)
    case SHORT => exact .short (leBytes_length _ _)
    case YEAR => exact .year (leBytes_length _ _)
    case INT24 => exact .int24 (leBytes_length _ _)
    case LONG => exact .long (leBytes_length _ _)
    case LONGLONG => exact .longlong (leBytes_length _ _)
    all_goals exact absurd ht (Nat.lt_irrefl 0)
  | bits ht hv =>
    cases hcell
    rw [ht]
    exact .bit hv
  | date d ht =>
    cases hcell
    rw [ht]
    exact .date _
  | datetime d k f ht =>
    cases hcell
    cases ht with
    | inl ht => rw [ht]; exact .datetime _
    | inr ht => rw [ht]; exact .timestamp _
  | time t ht =>
    cases hcell
    rw [ht]
    exact .time _
  | bytes ht hnull hv =>
    cases hcell
    exact .blob ht hv

/-- The values of a row are the same exactly when each agrees. -/
theorem values_eq_iff {js : Engine} {o : RowOptions} {row : SqlRow} (hv : o.rowType≠.VOID)
    (hrow : ∀ p ∈ row,Of p.1 p.2) :
    textValues (withConv js o) (textRow row)=binaryValues (withConv js o) (binaryRow row)↔
      ∀ p ∈ row,Agrees js o p.2 := by
  unfold textValues binaryValues textRow binaryRow
  rw [List.map_map,List.map_map,List.map_inj_left]
  constructor
  · intro h p hp
    exact (agrees_iff hv (hrow p hp)).mp (congrArg Prod.snd (h p hp))
  · intro h p hp
    exact Prod.ext rfl ((agrees_iff hv (hrow p hp)).mpr (h p hp))

/-- A row that shows all its values: an array, or a row of one column. -/
theorem values_of_row {t : RowType} {a b : List (Column×ColumnValue)} (hv : t≠.VOID)
    (hc : a.map Prod.fst=b.map Prod.fst) (h : t=.ARRAY ∨ a.length=1)
    (he : Row.ofValues t a=Row.ofValues t b) : a=b := by
  have hsnd : a.map Prod.snd=b.map Prod.snd := by
    cases h with
    | inl ht =>
      rw [ht,ofValues_array,ofValues_array] at he
      exact Row.array.inj he
    | inr ha =>
      have hb : b.length=1 := by
        have hl := congrArg List.length hc
        rw [List.length_map,List.length_map] at hl
        omega
      obtain ⟨p,rfl⟩ := List.length_eq_one_iff.mp ha
      obtain ⟨q,rfl⟩ := List.length_eq_one_iff.mp hb
      have hpq : p.2=q.2 := by
        cases t with
        | OBJECT => exact (Prod.ext_iff.mp (List.cons.inj (Row.object.inj he)).1).2
        | LAST_COLUMN_READER => exact (Prod.ext_iff.mp (List.cons.inj (Row.object.inj he)).1).2
        | LAST_COLUMN_READABLE => exact (Prod.ext_iff.mp (List.cons.inj (Row.object.inj he)).1).2
        | MAP => exact (Prod.ext_iff.mp (List.cons.inj (Row.map.inj he)).1).2
        | ARRAY => exact (List.cons.inj (Row.array.inj he)).1
        | FIRST_COLUMN => exact Option.some.inj (Row.first.inj he)
        | VOID => exact absurd rfl hv
      exact congrArg (fun v => [v]) hpq
  rw [←List.zip_unzip a,←List.zip_unzip b,List.unzip_eq_map,List.unzip_eq_map,hc,hsnd]

/-- `deserializeRowText()` reads a row of the text protocol. -/
theorem reads_textRow (js : Engine) {o : RowOptions} {row : SqlRow}
    (hl : o.rowType.isLastColumn=false) (hrow : ∀ p ∈ row,Of p.1 p.2) :
    Reads (deserializeRowText (withConv js o) (row.map Prod.fst)) (textRowMoves (textRow row))
      (textPayload (textRow row)) (textResult js o row,0) := by
  have h := @reads_rowText (withConv js o) hl (textRow row) (by
    intro p hp
    obtain ⟨q,hq,rfl⟩ := List.mem_map.mp hp
    exact textForm_length (hrow q hq))
  have hc : (textRow row).map Prod.fst=row.map Prod.fst := List.map_map
  rwa [hc] at h

/-- `deserializeRowBinary()` reads a row of the binary protocol. -/
theorem reads_binaryRow (js : Engine) {o : RowOptions} {row : SqlRow}
    (hl : o.rowType.isLastColumn=false) (hrow : ∀ p ∈ row,Of p.1 p.2)
    (hn : row.length ≤ maxColumns) :
    Reads (deserializeRowBinary (withConv js o) (row.map Prod.fst)) (binaryRowMoves (binaryRow row))
      (binaryPayload (binaryRow row)) (binaryResult js o row,0) := by
  have hbits : nullBitsLen (binaryRow row).length+4 ≤ bufferLen := by
    have hlen : (binaryRow row).length=row.length := List.length_map _
    unfold maxColumns at hn
    unfold nullBitsLen bufferLen
    omega
  have h := @reads_rowBinary (withConv js o) hl (binaryRow row) hbits (by
    intro p hp
    obtain ⟨q,hq,rfl⟩ := List.mem_map.mp hp
    exact binaryForm_fits (hrow q hq))
  have hc : (binaryRow row).map Prod.fst=row.map Prod.fst := List.map_map
  rwa [hc] at h

/-- Rows of the text and of the binary protocol: both deserializers read all
bytes of any row, and the rows are the same if every value agrees. Where the
row shows all values they are the same only then. -/
theorem text_binary_rows (js : Engine) (o : RowOptions) (hl : o.rowType.isLastColumn=false)
    (hv : o.rowType≠.VOID) (row : SqlRow) (hrow : ∀ p ∈ row,Of p.1 p.2)
    (hn : row.length ≤ maxColumns) :
    Reads (deserializeRowText (withConv js o) (row.map Prod.fst)) (textRowMoves (textRow row))
      (textPayload (textRow row)) (textResult js o row,0) ∧
    Reads (deserializeRowBinary (withConv js o) (row.map Prod.fst)) (binaryRowMoves (binaryRow row))
      (binaryPayload (binaryRow row)) (binaryResult js o row,0) ∧
    ((∀ p ∈ row,Agrees js o p.2) → textResult js o row=binaryResult js o row) ∧
    (o.rowType=.ARRAY ∨ row.length=1 →
      (textResult js o row=binaryResult js o row↔∀ p ∈ row,Agrees js o p.2)) := by
  have hiff := @values_eq_iff js o row hv hrow
  have hsame : (∀ p ∈ row,Agrees js o p.2) → textResult js o row=binaryResult js o row :=
    fun h => congrArg (Row.ofValues o.rowType) (hiff.mpr h)
  refine ⟨reads_textRow js hl hrow,reads_binaryRow js hl hrow hn,hsame,fun h => ⟨fun he => ?_,hsame⟩⟩
  · refine hiff.mp (values_of_row hv ?_ ?_ he)
    · unfold textValues binaryValues textRow binaryRow
      rw [List.map_map,List.map_map,List.map_map,List.map_map]
      rfl
    · refine h.imp_right (fun h => ?_)
      unfold textValues textRow
      rw [List.length_map,List.length_map,h]

/-- The powers of ten of a widespread engine: two of them are not the nearest
doubles. -/
def enginePow10 (n : ℤ) : ℚ :=
  toDouble (10^n)-if n= -4 then 1/2^66 else if n= -5 then 1/2^69 else 0

/-- A widespread engine. -/
def typicalEngine : Engine where
  pow10 := enginePow10
  pow10_near := by decide +kernel
  doubleBytes := fun q => leBytes 8 (doubleBits q)

/-- A leap day. -/
def leapDay : SqlDate := ⟨2024,2,29,by decide,by decide,by decide⟩

/-- A zero date. -/
def zeroDate : SqlDate := ⟨0,0,0,by decide,by decide,by decide⟩

/-- A time of the day. -/
def evening : SqlClock := ⟨20,15,0,by decide,by decide,by decide⟩

/-- A fraction of six decimals. -/
def sixDecimals : SqlFraction := ⟨6,123456,by decide,by decide,by decide⟩

/-- Rows as arrays, for columns of a limited length. -/
def arrays : RowOptions where
  rowType := .ARRAY
  maxColumnLen := 100
  convColumnValue := fun _ _ => .null

/-- A row of an integer, a date and time and a time. -/
def sampleRow : SqlRow :=
  [({name := [97],typeId := .LONG},.int (-5) 0),
    ({name := [98],typeId := .DATETIME},.datetime leapDay evening sixDecimals)]

theorem text_binary_rows_sample :
    textResult typicalEngine arrays sampleRow=binaryResult typicalEngine arrays sampleRow := by
  have h := text_binary_rows typicalEngine arrays rfl (by decide) sampleRow (by
    intro p hp
    rw [sampleRow,List.mem_cons,List.mem_singleton] at hp
    rcases hp with rfl|rfl
    · exact .int (by decide) (by unfold InRange; decide) (by decide)
    · exact .datetime _ _ _ (Or.inl rfl)) (by decide)
  refine h.2.2.1 ?_
  intro p hp
  rw [sampleRow,List.mem_cons,List.mem_singleton] at hp
  rcases hp with rfl|rfl
  · exact ⟨by decide +kernel,trivial⟩
  · refine ⟨by decide +kernel,?_⟩
    unfold SameDate
    dsimp only
    rw [if_neg (by decide)]
    refine ⟨fun h => ?_,fun _ h => ?_⟩
    · exact absurd h.1 (by decide)
    · exact absurd h (by decide)

/-- A zero date is another instant in the text protocol than in the binary one. -/
theorem zero_date_differs : ¬∀ (js : Engine) (o : RowOptions) (row : SqlRow) (t b : Row),
    o.rowType.isLastColumn=false → (∀ p ∈ row,Of p.1 p.2) → row.length ≤ maxColumns →
      Reads (deserializeRowText (withConv js o) (row.map Prod.fst)) (textRowMoves (textRow row))
        (textPayload (textRow row)) (t,0) →
      Reads (deserializeRowBinary (withConv js o) (row.map Prod.fst)) (binaryRowMoves (binaryRow row))
        (binaryPayload (binaryRow row)) (b,0) → t=b := by
  intro h
  have hrow : ∀ p ∈ [(({name := [97],typeId := .DATE} : Column),SqlValue.date zeroDate)],
      Of p.1 p.2 := by
    intro p hp
    rw [List.mem_singleton.mp hp]
    exact .date _ rfl
  have he := h typicalEngine arrays _ _ _ rfl hrow (by decide) (reads_textRow _ rfl hrow)
    (reads_binaryRow _ rfl hrow (by decide))
  exact absurd he (by decide +kernel)

end SpiritMysql.SqlRows
