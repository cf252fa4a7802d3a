import Mathlib.Logic.Function.Basic
import SpiritMysql.ByteCursor
import SpiritMysql.Conn
import SpiritMysql.Utf16Text

/-!
# The queries for named parameters

Named parameters are passed in three steps. A prepared `SET` puts the values
into temporary session variables, a second `SET` moves each of them to the
variable of its name, and then the query is sent. The texts of both are written
byte by byte, the second one to an array whose size is guessed.
-/

namespace SpiritMysql.NamedParams

open ByteCursor Conn Errors Utf16Text

/-- The name of a parameter. -/
abbrev Name := List UInt16

/-- A name as it stands between backticks. -/
def escaped (name : Name) : Name := name.flatMap fun c => if c=96 then [96,96] else [c]

/-- The digits of the first temporary variable, the last one first: `ylfk`. -/
def firstDigits : List UInt8 := [107,102,108,121]

/-- The digits of the next temporary variable. -/
def incDigits : List UInt8 → List UInt8
  | [] => []
  | d::ds =>
    if d+1=58 then 97::ds
    else if d+1=123 then 48::incDigits ds
    else (d+1)::ds

/-- The name of a temporary variable: `_NN_NN`. -/
def tempName (n : List UInt8) : List UInt8 :=
  [95,n.getD 3 0,n.getD 2 0,95,n.getD 1 0,n.getD 0 0]

/-- `,@_NN_NN=?`. -/
def placeholderText (n : List UInt8) : List UInt8 := [44,64]++tempName n++[61,63]

/-- What stands before a name. -/
def beforeName : List UInt8 := [44,64,96]

/-- What stands after a name. -/
def afterName (n : List UInt8) : List UInt8 :=
  [96,61,64]++tempName n++[44,64]++tempName n++[61,78,85,76,76]

/-- Encode a name into the array. While there is too little room, the array is
copied to a larger one. -/
def encodeParam : ℕ → Name → Cursor → Cursor
  | 0,_,query1 => query1
  | fuel+1,param,query1 =>
    let done := encodeInto param (query1.bytes.length-query1.pos)
    if done.1=param.length then query1.write done.2
    else encodeParam fuel param ((query1.overwrite done.2).enlarge (query1.bytes.length+25))

/-- Write one parameter to the second query. -/
def putParam (n : List UInt8) (name : Name) (query1 : Cursor) : Cursor :=
  let query1 := query1.puts beforeName
  let param := escaped name
  (encodeParam ((encode param).length+query1.pos+1) param query1).puts (afterName n)

/-- The variables of the loop. -/
structure State where
  /-- The first query, when it is to be prepared. -/
  query0 : Option Cursor
  /-- The second query. -/
  query1 : Cursor
  /-- `n`. -/
  n : List UInt8

/-- The loop over the placeholders. -/
def generate : ℕ → List Name → State → State
  | 0,_,s => s
  | remaining+1,names,s =>
    let s := {s with query0 := s.query0.map fun c => c.puts (placeholderText s.n)}
    match names with
    | name::names =>
      generate remaining names {s with query1 := putParam s.n name s.query1,n := incDigits s.n}
    | [] =>
      if s.query0.isNone then s
      else generate remaining [] {s with n := incDigits s.n}

/-- The guess: no multibyte chars. -/
def guessLen (names : List Name) : ℕ := 3+(names.map fun name => 12+name.length+13).sum

/-- `SET ` is written over the beginning. -/
def finish (c : Cursor) : List UInt8 := (Cursor.puts {c with pos := 0} [83,69,84,32]).bytes

/-- The queries and the values for the first one. -/
structure Queries (V : Type) where
  /-- The number of placeholders. -/
  nPlaceholders : ℕ
  /-- The first query. None: it was prepared before. -/
  query0 : Option (List UInt8)
  /-- The second query. -/
  query1 : List UInt8
  /-- The values. -/
  values : List (Option V)

/-- What `#getNamedParamsQueries()` comes to. -/
inductive Result (V : Type) where
  /-- There are no parameters. -/
  | noParams
  /-- An error is thrown. -/
  | failed (error : Error)
  /-- The queries. -/
  | queries (q : Queries V)

variable {V : Type}

/-- `#getNamedParamsQueries()`, up to the point where the first query is prepared. -/
def getNamedParamsQueries (cached : Bool) (params : List (Name×Option V)) : Result V :=
  let paramKeys := params.map Prod.fst
  if params.length=0 then .noParams
  else if 0xFFFF < params.length then
    .failed (sqlError "Too many query parameters. The maximum of 65535 is supported")
  else
    let nPlaceholders := nPlaceholders params.length
    let query0 := if cached=true then none else some (.new (3+10*nPlaceholders) 3)
    let s := generate nPlaceholders paramKeys ⟨query0,.new (guessLen paramKeys) 3,firstDigits⟩
    .queries {
      nPlaceholders := nPlaceholders,query0 := s.query0.map finish,query1 := finish s.query1,
      values := params.map Prod.snd++List.replicate (nPlaceholders-params.length) none}

end SpiritMysql.NamedParams
