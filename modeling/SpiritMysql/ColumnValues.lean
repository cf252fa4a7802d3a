import Mathlib.Data.Int.Notation
import Mathlib.Tactic.Common

/-!
# Columns and the values of rows

What a column definition says, what values rows have, and how the values of
one row are put together in each of the row types.
-/

namespace SpiritMysql.ColumnValues

/-- `MysqlType`, as far as the readers and writers of rows tell types apart. -/
inductive MysqlType where
  | DECIMAL | TINY | SHORT | LONG | FLOAT | DOUBLE | NULL | TIMESTAMP | LONGLONG | INT24 | DATE
  | TIME | DATETIME | YEAR | BIT | JSON | NEWDECIMAL
  /-- The string and blob types, and numbers without a meaning here. -/
  | OTHER (id : UInt8)
deriving DecidableEq, Repr

/-- The type that a column definition packet names by a number. -/
def MysqlType.ofId (id : UInt8) : MysqlType :=
  if id=0 then .DECIMAL else if id=1 then .TINY else if id=2 then .SHORT else if id=3 then .LONG
  else if id=4 then .FLOAT else if id=5 then .DOUBLE else if id=6 then .NULL
  else if id=7 then .TIMESTAMP else if id=8 then .LONGLONG else if id=9 then .INT24
  else if id=10 then .DATE else if id=11 then .TIME else if id=12 then .DATETIME
  else if id=13 then .YEAR else if id=16 then .BIT else if id=245 then .JSON
  else if id=246 then .NEWDECIMAL else .OTHER id

/-- `Charset.BINARY`. -/
def charsetBinary : ℕ := 63

/-- `Column`. Texts are kept as their bytes. -/
structure Column where
  /-- The catalog. -/
  catalog : List UInt8 := []
  /-- The schema. -/
  schema : List UInt8 := []
  /-- The table, or its alias. -/
  table : List UInt8 := []
  /-- The table without alias. -/
  orgTable : List UInt8 := []
  /-- The name that keys the value in objects and maps. -/
  name : List UInt8
  /-- The column without alias. -/
  orgName : List UInt8 := []
  /-- The character set number. -/
  charsetId : ℕ := 0
  /-- The display length. -/
  length : ℕ := 0
  /-- The type of the values. -/
  typeId : MysqlType
  /-- The bits of `ColumnFlags`. -/
  flags : ℕ := 0
  /-- The number of decimals. -/
  decimals : ℕ := 0
deriving DecidableEq, Repr

/-- The test `flags & ColumnFlags.UNSIGNED`. -/
def Column.isUnsigned (c : Column) : Bool := c.flags.testBit 5

/-- `ColumnValue`, the value of one column in one row. -/
inductive ColumnValue where
  /-- `null`. -/
  | null
  /-- A boolean, from a column of bits. -/
  | bool (b : Bool)
  /-- A number that is an integer. -/
  | number (n : ℤ)
  /-- A big integer, for values outside of the safe range. -/
  | bigint (n : ℤ)
  /-- A floating-point number, as its IEEE bytes. -/
  | float (raw : List UInt8)
  /-- A number of seconds, exact to the microsecond. -/
  | seconds (micros : ℤ)
  /-- A `Date`, as its milliseconds. -/
  | date (ms : ℤ)
  /-- A string, as its bytes. -/
  | str (text : List UInt8)
  /-- A byte array. -/
  | bytes (data : List UInt8)
  /-- What `JSON.parse()` makes of a text. -/
  | json (text : List UInt8)
deriving DecidableEq, Repr

/-- `RowType`. -/
inductive RowType where
  | OBJECT | LAST_COLUMN_READER | LAST_COLUMN_READABLE | MAP | ARRAY | FIRST_COLUMN | VOID
deriving DecidableEq, Repr

/-- The row types that leave the last column to a reader. -/
def RowType.isLastColumn : RowType → Bool
  | .LAST_COLUMN_READER => true
  | .LAST_COLUMN_READABLE => true
  | _ => false

/-- One row as the caller gets it. -/
inductive Row where
  /-- A plain object, with its keys in insertion order. -/
  | object (fields : List (List UInt8×ColumnValue))
  /-- A `Map`, with its keys in insertion order. -/
  | map (fields : List (List UInt8×ColumnValue))
  /-- An array. -/
  | array (values : List ColumnValue)
  /-- The value of the first column. -/
  | first (value : Option ColumnValue)
  /-- Nothing is kept. -/
  | void
deriving DecidableEq, Repr

/-- Set a key: a key that is there already keeps its place. -/
def setKey (key : List UInt8) (value : ColumnValue) :
    List (List UInt8×ColumnValue) → List (List UInt8×ColumnValue)
  | [] => [(key,value)]
  | p::ps => if p.1=key then (key,value)::ps else p::setKey key value ps

/-- The row before its first column. -/
def Row.start : RowType → Row
  | .OBJECT => .object []
  | .LAST_COLUMN_READER => .object []
  | .LAST_COLUMN_READABLE => .object []
  | .MAP => .map []
  | .ARRAY => .array []
  | .FIRST_COLUMN => .first none
  | .VOID => .void

/-- Add the value of the next column. -/
def Row.put (name : List UInt8) (value : ColumnValue) : Row → Row
  | .object fields => .object (setKey name value fields)
  | .map fields => .map (setKey name value fields)
  | .array values => .array (values++[value])
  | .first none => .first (some value)
  | .first (some v) => .first (some v)
  | .void => .void

/-- The row of given values. -/
def Row.putAll (row : Row) : List (Column×ColumnValue) → Row
  | [] => row
  | p::ps => (row.put p.1.name p.2).putAll ps

/-- The row that a row type makes of the values of all columns. -/
def Row.ofValues (rowType : RowType) (values : List (Column×ColumnValue)) : Row :=
  (Row.start rowType).putAll values

/-- An array row has the values of the columns in order. -/
theorem ofValues_array (values : List (Column×ColumnValue)) :
    Row.ofValues .ARRAY values=.array (values.map Prod.snd) := by
  have h : ∀ (acc : List ColumnValue) (ps : List (Column×ColumnValue)),
      (Row.array acc).putAll ps=.array (acc++ps.map Prod.snd) := by
    intro acc ps
    induction ps generalizing acc with
    | nil => simp only [Row.putAll,List.map_nil,List.append_nil]
    | cons p ps ih =>
      rw [Row.putAll,Row.put,ih,List.map_cons,List.append_assoc,List.singleton_append]
  exact h [] values

/-- A first-column row has the value of the first column. -/
theorem ofValues_first (p : Column×ColumnValue) (ps : List (Column×ColumnValue)) :
    Row.ofValues .FIRST_COLUMN (p::ps)=.first (some p.2) := by
  have h : ∀ (v : ColumnValue) (qs : List (Column×ColumnValue)),
      (Row.first (some v)).putAll qs=.first (some v) := by
    intro v qs
    induction qs with
    | nil => rfl
    | cons q qs ih => rw [Row.putAll,Row.put,ih]
  exact h p.2 ps

end SpiritMysql.ColumnValues
