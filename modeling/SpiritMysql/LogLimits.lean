import SpiritMysql.ColoredSql
import SpiritMysql.LineEnds

/-!
# Limits of logged text

Queries and parameters come to the log in chunks. `countExceeding()` counts their bytes
and lines from chunk to chunk, and `start()` prints an ellipsis for what was cut. The
colors, quotes and escapes of the text are left out.
-/

namespace SpiritMysql.LogLimits

open ColoredSql LineEnds

/-- The limits of `SqlLogToWritable`. -/
structure Limits where
  /-- `queryMaxBytes`. -/
  queryMaxBytes : ℕ := 10000
  /-- `paramMaxBytes`. -/
  paramMaxBytes : ℕ := 3000
  /-- `maxLines`. -/
  maxLines : ℕ := 100

/-- The variables of `query()`. -/
structure State where
  /-- `curNParam`. -/
  curNParam : ℤ := -1
  /-- `curDataLen`. -/
  curDataLen : ℤ := 0
  /-- `curNFullLines`. -/
  curNFullLines : ℕ := 0
  /-- `limit`. -/
  limit : ℕ
deriving DecidableEq, Repr

/-- What is printed. -/
inductive Out where
  /-- `BIND param_N=`. -/
  | bind (nParam : ℕ)
  /-- Text of a query or of a parameter. -/
  | text (data : List UInt8)
  /-- A parameter that is a number. -/
  | number
  /-- The ellipsis with the number of bytes. -/
  | ellipsis (dataLen : ℤ)
deriving DecidableEq, Repr

/-- Space, tab, carriage return and line feed. -/
def isSpace (c : UInt8) : Bool := c == 32 || c == 9 || c == 13 || c == 10

/-- The loop that counts lines, with the count and where it returns from the function. -/
def countLines (maxLines : ℕ) : List UInt8 → ℕ → ℕ → ℕ × Option ℕ
  | [],lines,_ => (lines,none)
  | c::rest,lines,i =>
    if c = 13 ∨ c = 10 then
      if maxLines ≤ lines+1 then (lines+1,some i)
      else
        match rest with
        | [] => (lines+1,none)
        | d::tail =>
          if c = 13 ∧ d = 10 then countLines maxLines tail (lines+1) (i+2)
          else countLines maxLines (d::tail) (lines+1) (i+1)
    else countLines maxLines rest lines (i+1)

/-- The second half of `countExceeding()`, after white space is cut. -/
def countChunk (maxLines : ℕ) (st : State) (data : List UInt8) : State × List UInt8 :=
  let curDataLen := st.curDataLen+(data.length : ℤ)
  let (curNFullLines,cut) :=
    if st.curNFullLines < maxLines then countLines maxLines data st.curNFullLines 0
    else (st.curNFullLines,none)
  let exceedingNegative := (st.limit : ℤ)-curDataLen
  ({st with curDataLen := curDataLen, curNFullLines := curNFullLines},
    match cut with
    | some i => data.take i
    | none =>
      if exceedingNegative < 0 then data.take ((data.length : ℤ)+exceedingNegative).toNat
      else data)

/-- `countExceeding()`. -/
def countExceeding (maxLines : ℕ) (st : State) (data : List UInt8) : State × List UInt8 :=
  countChunk maxLines st (if st.curDataLen = 0 then data.dropWhile isSpace else data)

section Calls

-- The limits of the logger.
variable (s : Limits)

/-- The variables at the beginning of each query. -/
def State.fresh : State where
  limit := s.queryMaxBytes

/-- `appendToQuery()`. -/
def appendToQuery (st : State) (data : List UInt8) : State × List Out :=
  let (st,data) := countExceeding s.maxLines {st with limit := s.queryMaxBytes} data
  (st,[.text data])

/-- `appendToParam()` with a number. -/
def appendNumber (st : State) (nParam : ℕ) : State × List Out :=
  ({st with curDataLen := -1},[.bind nParam,.number])

/-- `appendToParam()` with bytes. -/
def appendToParam (nParam : ℕ) (st : State) (data : List UInt8) : State × List Out :=
  if (nParam : ℤ) ≠ st.curNParam then
    let (st,data) := countExceeding s.maxLines ⟨nParam,0,0,s.paramMaxBytes⟩ data
    (st,[.bind nParam,.text data])
  else
    let (st,data) := countExceeding s.maxLines st data
    (st,[.text data])

/-- `start()`, which `nextQuery()` is too. -/
def start (st : State) : State × List Out :=
  (State.fresh s,
    if (st.limit : ℤ) < st.curDataLen ∨ s.maxLines ≤ st.curNFullLines then
      [.ellipsis st.curDataLen]
    else [])

/-- Calls with one chunk after another. -/
def appendAll (append : State → List UInt8 → State × List Out) :
    State → List (List UInt8) → State × List Out
  | st,[] => (st,[])
  | st,chunk::chunks =>
    let (st,out) := append st chunk
    let (st,rest) := appendAll append st chunks
    (st,out++rest)

/-- A parameter as it is logged. Bytes come in one chunk or more. -/
inductive Param where
  /-- A number or a bigint. -/
  | number
  /-- Bytes. -/
  | bytes (chunk : List UInt8) (chunks : List (List UInt8))
deriving DecidableEq, Repr

/-- The calls for a parameter. -/
def logParam (st : State) (nParam : ℕ) : Param → State × List Out
  | .number => appendNumber st nParam
  | .bytes chunk chunks => appendAll (appendToParam s nParam) st (chunk::chunks)

/-- The calls for all parameters, with what is printed for each. -/
def logParams : State → ℕ → List Param → State × List (List Out)
  | st,_,[] => (st,[])
  | st,nParam,param::params =>
    let (st,out) := logParam s st nParam param
    let (st,rest) := logParams st (nParam+1) params
    (st,out::rest)

/-- What is printed at the end comes after the last part. -/
def closeLast (out : List Out) : List (List Out) → List (List Out)
  | [] => []
  | [part] => [part++out]
  | part::parts => part::closeLast out parts

/-- A statement as it is logged. -/
inductive Statement where
  /-- A query in chunks. -/
  | query (chunks : List (List UInt8))
  /-- Parameters of a prepared statement. -/
  | execute (params : List Param)

/-- The calls for a statement, with what is printed for the query or for each parameter. -/
def logStatement (st : State) : Statement → State × List (List Out)
  | .query chunks =>
    let (st,out) := appendAll (appendToQuery s) st chunks
    let (st,last) := start s st
    (st,[out++last])
  | .execute params =>
    let (st,parts) := logParams s st 0 params
    let (st,last) := start s st
    (st,closeLast last parts)

/-- The variables after statements. -/
def stateAfter : List Statement → State
  | [] => State.fresh s
  | statement::earlier => (logStatement s (stateAfter earlier) statement).1

end Calls

/-- The text in what is printed. -/
def texts (out : List Out) : List UInt8 :=
  out.flatMap fun
    | .text data => data
    | _ => []

/-- The numbers of bytes in the ellipses that are printed. -/
def ellipses (out : List Out) : List ℤ :=
  out.filterMap fun
    | .ellipsis dataLen => some dataLen
    | _ => none

/-- The text without white space at the beginning. -/
def trimmed (chunks : List (List UInt8)) : List UInt8 := chunks.flatten.dropWhile isSpace

/-- The text is cut where the first of the limits is met, and the ellipsis is there if
something was cut off. -/
structure Right (limit maxLines : ℕ) (text : List UInt8) (out : List Out) : Prop where
  /-- It is the beginning of the text. -/
  beginning : texts out <+: text
  /-- It has no more bytes. -/
  bytes : (texts out).length ≤ limit
  /-- It has no more lines. -/
  lines : count false (texts out) < maxLines
  /-- It is as long as possible. -/
  longest : ∀ l,l <+: text → l.length ≤ limit → count false l < maxLines →
    l.length ≤ (texts out).length
  /-- The ellipsis has the length of the text. -/
  ellipsis : ellipses out=if texts out=text then [] else [(text.length : ℤ)]

/-- What is printed for a parameter is right, if it has bytes. -/
def RightParam (s : Limits) : Param → List Out → Prop
  | .number,_ => True
  | .bytes chunk chunks,out => Right s.paramMaxBytes s.maxLines (trimmed (chunk::chunks)) out

/-- What is printed for a statement is right. -/
def RightStatement (s : Limits) : Statement → List (List Out) → Prop
  | .query chunks,parts =>
    ∃ out,parts=[out]∧Right s.queryMaxBytes s.maxLines (trimmed chunks) out
  | .execute params,parts => List.Forall₂ (RightParam s) params parts

section Conditions

/-- The chunks without white space at the beginning. -/
def trimChunks : List (List UInt8) → List (List UInt8)
  | [] => []
  | chunk::chunks =>
    let chunk := chunk.dropWhile isSpace
    chunk::if chunk = [] then trimChunks chunks else chunks

/-- Where line ends reach the limit, if each chunk is counted for itself: the beginning of
the chunk, the position in the text, and the end of the chunk. -/
def lineHit (maxLines : ℕ) : ℕ → ℕ → List (List UInt8) → Option (ℕ × ℕ × ℕ)
  | _,_,[] => none
  | lines,i,chunk::chunks =>
    if lines+count false chunk < maxLines then
      lineHit maxLines (lines+count false chunk) (i+chunk.length) chunks
    else some (i,i+position false chunk (maxLines-lines),i+chunk.length)

/-- The chunks are cut in a way that does not matter. Either no line end reaches the limit,
or it is the first byte of a chunk beyond the byte limit, or what is logged later happens
to be what comes next. -/
def CutHarmless (limit maxLines : ℕ) (chunks : List (List UInt8)) : Prop :=
  0 < maxLines∧
  ∀ i p e,lineHit maxLines 0 0 chunks=some (i,p,e) →
    limit ≤ i∧p=i∨
    i < limit∧p ≤ min limit (position false chunks.flatten maxLines)∧
      subarray chunks.flatten e limit=
        subarray chunks.flatten p (min limit (position false chunks.flatten maxLines))

/-- No limit is met. -/
def NothingCut (limit maxLines : ℕ) (chunks : List (List UInt8)) : Prop :=
  0 < maxLines∧lineHit maxLines 0 0 chunks=none∧chunks.flatten.length ≤ limit

/-- Limits can be met in the last parameter only. -/
def ParamsHarmless (s : Limits) : List Param → Prop
  | [] => True
  | .number::params => ParamsHarmless s params
  | [.bytes chunk chunks] => CutHarmless s.paramMaxBytes s.maxLines (trimChunks (chunk::chunks))
  | .bytes chunk chunks::params =>
    NothingCut s.paramMaxBytes s.maxLines (trimChunks (chunk::chunks))∧ParamsHarmless s params

/-- When a statement is logged as it should be. -/
def Harmless (s : Limits) : Statement → Prop
  | .query chunks => CutHarmless s.queryMaxBytes s.maxLines (trimChunks chunks)
  | .execute params => ParamsHarmless s params

end Conditions

end SpiritMysql.LogLimits
