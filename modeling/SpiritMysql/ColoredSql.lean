import Mathlib.Data.List.TakeWhile
import Mathlib.Order.Nat

/-!
# Decorated SQL in the log

Queries are logged with color sequences between their tokens, and values of parameters
are logged as quoted strings with escapes. The color sequences are symbols here, so they
cannot be taken for bytes of the query.
-/

namespace SpiritMysql.ColoredSql

/-- `const enum Type`. -/
inductive TokenType where
  /-- `DEFAULT`. -/
  | default
  /-- `KEYWORD`. -/
  | keyword
  /-- `STRING`. -/
  | string
  /-- `QUOTED_IDENT`. -/
  | quotedIdent
  /-- `COMMENT`. -/
  | comment
deriving DecidableEq, Repr

/-- What is written to the log. -/
inductive Symbol where
  /-- A byte of text. -/
  | byte (c : UInt8)
  /-- A color sequence of `COLORS`. It is `RESET_COLOR` for `default`. -/
  | color (type : TokenType)
deriving DecidableEq, Repr

/-- The byte, if it is not a color sequence. -/
def Symbol.byte? : Symbol → Option UInt8
  | .byte c => some c
  | .color _ => none

/-- The output with the color sequences removed. -/
def plain (out : List Symbol) : List UInt8 := out.filterMap Symbol.byte?

/-- `data.subarray(i, j)`. -/
def subarray (data : List UInt8) (i j : ℕ) : List UInt8 := (data.take j).drop i

/-- `C_APOS`. -/
def apos : UInt8 := 39

/-- `C_QUOT`. -/
def quot : UInt8 := 34

/-- `C_BACKTICK`. -/
def backtick : UInt8 := 96

/-- `C_BACKSLASH`. -/
def backslash : UInt8 := 92

/-- Letters of the latin alphabet, underscore, dollar sign and all beyond ASCII. -/
def isLetter (c : UInt8) : Bool :=
  65 ≤ c && c ≤ 90 || 97 ≤ c && c ≤ 122 || c == 95 || c == 36 || 128 ≤ c

/-- From `C_ZERO` to `C_NINE`. -/
def isDigit (c : UInt8) : Bool := 48 ≤ c && c ≤ 57

/-- Where the word ends, of which the letters up to `i` were seen. -/
def wordEnd : List UInt8 → ℕ → ℕ
  | [],i => i
  | c::rest,i => if isLetter c || isDigit c then wordEnd rest (i+1) else i

/-- Where the quoted text ends. A backslash at the end of the data steps beyond it. -/
def quotedEnd (backslashEscapes : Bool) (qt : UInt8) : List UInt8 → ℕ → ℕ
  | [],i => i
  | c::rest,i =>
    if c = backslash ∧ backslashEscapes ∧ qt ≠ backtick then
      match rest with
      | [] => i+2
      | _::rest => quotedEnd backslashEscapes qt rest (i+2)
    else if c = qt then i+1
    else quotedEnd backslashEscapes qt rest (i+1)

/-- Where the comment of one line ends. The line end is not part of it. -/
def lineEnd : List UInt8 → ℕ → ℕ
  | [],i => i
  | c::rest,i => if c = 13 ∨ c = 10 then i else lineEnd rest (i+1)

/-- Where the comment in slashes and asterisks ends. -/
def blockEnd : List UInt8 → ℕ → ℕ
  | [],i => i
  | c::rest,i => if c = 42 ∧ rest.head? = some 47 then i+2 else blockEnd rest (i+1)

section Tokens

-- `keywords.contains()`, `noBackslashEscapes` and the query.
variable (keywords : List UInt8 → Bool) (noBackslashEscapes : Bool) (data : List UInt8)

/-- `nextToken()` with the token that starts at `i`, and the new `i`. -/
def nextToken (i : ℕ) : TokenType × ℕ :=
  match data[i]? with
  | none => (.default,i+1)
  | some c =>
    if isLetter c && (i == 0 || !data[i-1]?.any isDigit) then
      let j := wordEnd (data.drop (i+1)) (i+1)
      (if keywords (subarray data i j) then .keyword else .default,j)
    else if c = apos ∨ c = quot ∨ c = backtick then
      (if c = backtick then .quotedIdent else .string,
        quotedEnd (!noBackslashEscapes) c (data.drop (i+1)) (i+1))
    else if c = 35 ∨ c = 45 ∧ data[i+1]? = some 45 ∧
        (data[i+2]? = some 32 ∨ data[i+2]? = some 9) then
      (.comment,lineEnd (data.drop (i+1)) (i+1))
    else if c = 47 ∧ data[i+1]? = some 42 then
      (.comment,blockEnd (data.drop (i+2)) (i+2))
    else (.default,i+1)

/-- The inner loop, with `newFrom`, `type` and `i` at its end. There is no result if it
takes more rounds than allowed. -/
def sameTokens (prevType : TokenType) : ℕ → TokenType → ℕ → Option (ℕ × TokenType × ℕ)
  | 0,_,_ => none
  | rounds+1,type,i =>
    if i < data.length then
      let (next,j) := nextToken keywords noBackslashEscapes data i
      if next = prevType then sameTokens prevType rounds next j else some (i,next,j)
    else some (i,type,i)

/-- The outer loop, with what it writes. The color of `esc` is that of the type. There is
no result if a loop takes more rounds than allowed, or if the assertion fails. -/
def writeTokens : ℕ → ℕ → TokenType → ℕ → TokenType → Option (List Symbol)
  | 0,_,_,_,_ => none
  | rounds+1,start,type,i,esc =>
    match sameTokens keywords noBackslashEscapes data type (data.length+1) type i with
    | none => none
    | some (newFrom,next,j) =>
      let text := if start < newFrom then (subarray data start newFrom).map .byte else []
      if next = type then
        if data.length ≤ j then
          some (text++if esc ≠ .default then [.color .default] else [])
        else none
      else
        (writeTokens rounds newFrom next j next).map (text++.color next::·)

/-- `#writeColoredSql()` with what it writes. -/
def writeColoredSql : Option (List Symbol) :=
  writeTokens keywords noBackslashEscapes data (data.length+1) 0 .default 0 .default

end Tokens

/-- `toString(16)` of a digit. -/
def hexDigit (c : UInt8) : UInt8 := if c < 10 then 48+c else 87+c

/-- What is written for this byte, if it needs escaping. -/
def escapeOf (c : UInt8) : Option (List UInt8) :=
  if c = apos then some [backslash,apos]
  else if c = backslash then some [backslash,backslash]
  else if c < 16 then some [backslash,120,48,hexDigit c]
  else if c < 32 then some [backslash,120,hexDigit (c/16),hexDigit (c%16)]
  else none

/-- The loop over bytes that need escaping, with what is written and the other bytes. -/
def escapeRun : List UInt8 → List UInt8 × List UInt8
  | [] => ([],[])
  | c::rest =>
    match escapeOf c with
    | none => ([],c::rest)
    | some esc => (esc++(escapeRun rest).1,(escapeRun rest).2)

/-- If the loop over other bytes goes on. -/
def isPlain (c : UInt8) : Bool := !(c < 32 || c == apos || c == backslash)

/-- The quotation mark with the color before it. -/
def openQuote (withColor : Bool) : List Symbol :=
  if withColor then [.color .string,.byte apos] else [.byte apos]

/-- The quotation mark with the color after it. -/
def closeQuote (withColor : Bool) : List Symbol :=
  if withColor then [.byte apos,.color .default] else [.byte apos]

/-- The loop of `#writeSqlString()` over the bytes from `i` on. There is no result if it
takes more rounds than allowed. -/
def writeRuns (withColor : Bool) : ℕ → List Symbol → List UInt8 → Option (List Symbol)
  | 0,_,_ => none
  | rounds+1,esc,data =>
    let (escaped,rest) := escapeRun data
    let esc := esc++escaped.map .byte++if rest = [] then closeQuote withColor else []
    if esc ≠ [] ∧ rest = [] then some esc
    else
      let text := (rest.takeWhile isPlain).map .byte
      (writeRuns withColor rounds [] (rest.dropWhile isPlain)).map (esc++text++·)

/-- `#writeSqlString()` with what it writes. -/
def writeSqlString (withColor : Bool) (data : List UInt8) : Option (List Symbol) :=
  writeRuns withColor (data.length+1) (openQuote withColor) data

/-- The value of a hexadecimal digit. -/
def hexValue (c : UInt8) : Option UInt8 :=
  if 48 ≤ c ∧ c ≤ 57 then some (c-48)
  else if 97 ≤ c ∧ c ≤ 102 then some (c-87)
  else none

/-- The text with its escapes undone. There is none if an escape is not one of those. -/
def unescape : List UInt8 → Option (List UInt8)
  | [] => some []
  | c::rest =>
    if c = backslash then
      match rest with
      | [] => none
      | d::rest =>
        if d = apos ∨ d = backslash then (unescape rest).map (d::·)
        else if d = 120 then
          match rest with
          | x::y::rest =>
            match hexValue x,hexValue y with
            | some hi,some lo => (unescape rest).map ((16*hi+lo)::·)
            | _,_ => none
          | _ => none
        else none
    else (unescape rest).map (c::·)

theorem plain_append (l m : List Symbol) : plain (l++m)=plain l++plain m :=
  List.filterMap_append

theorem plain_bytes (l : List UInt8) : plain (l.map .byte)=l := by
  induction l with
  | nil => rfl
  | cons c l ih =>
    have hc : plain (.byte c::l.map .byte)=c::plain (l.map .byte) := rfl
    rw [List.map_cons,hc,ih]

theorem plain_color (type : TokenType) (l : List Symbol) :
    plain (.color type::l)=plain l := rfl

/-- A part and what comes after it. -/
theorem subarray_append (data : List UInt8) {i j : ℕ} (h : i ≤ j) :
    subarray data i j++data.drop j=data.drop i := by
  have hd := congrArg (List.drop i) (List.take_append_drop j data)
  rw [List.drop_append,List.length_take,List.drop_drop] at hd
  by_cases hj : j ≤ data.length
  · rw [Nat.min_eq_left hj] at hd
    have he : j+(i-j)=j := by omega
    rwa [he] at hd
  · have hn : data.drop j=[] := List.drop_eq_nil_of_le (by omega)
    have ht : data.take j=data := List.take_of_length_le (by omega)
    rw [subarray,hn,ht,List.append_nil]

/-- A part that ends beyond the data has all that is left. -/
theorem subarray_end (data : List UInt8) (i : ℕ) {j : ℕ} (h : data.length ≤ j) :
    subarray data i j=data.drop i := by
  rw [subarray,List.take_of_length_le h]

section TokenLengths

theorem wordEnd_le (l : List UInt8) (i : ℕ) : i ≤ wordEnd l i := by
  induction l generalizing i with
  | nil => exact Nat.le_refl i
  | cons c rest ih =>
    simp only [wordEnd]
    split
    · have h := ih (i+1)
      omega
    · exact Nat.le_refl i

theorem quotedEnd_le (backslashEscapes : Bool) (qt : UInt8) (l : List UInt8) (i : ℕ) :
    i ≤ quotedEnd backslashEscapes qt l i := by
  fun_induction quotedEnd backslashEscapes qt l i <;> omega

theorem lineEnd_le (l : List UInt8) (i : ℕ) : i ≤ lineEnd l i := by
  fun_induction lineEnd l i <;> omega

theorem blockEnd_le (l : List UInt8) (i : ℕ) : i ≤ blockEnd l i := by
  fun_induction blockEnd l i <;> omega

end TokenLengths

section Tokens

variable (keywords : List UInt8 → Bool) (noBackslashEscapes : Bool) (data : List UInt8)

/-- Every token takes a byte. -/
theorem nextToken_advances (i : ℕ) :
    i < (nextToken keywords noBackslashEscapes data i).2 := by
  unfold nextToken
  split
  · exact Nat.lt_succ_self i
  · rename_i c _
    split_ifs
    · exact wordEnd_le (data.drop (i+1)) (i+1)
    · exact quotedEnd_le (!noBackslashEscapes) c (data.drop (i+1)) (i+1)
    · exact quotedEnd_le (!noBackslashEscapes) c (data.drop (i+1)) (i+1)
    · exact lineEnd_le (data.drop (i+1)) (i+1)
    · have h := blockEnd_le (data.drop (i+2)) (i+2)
      dsimp only
      omega
    · exact Nat.lt_succ_self i

/-- How the inner loop ends. It is at a token of another type, or at the end of the
data. -/
theorem sameTokens_ends (rounds i : ℕ) (prevType : TokenType)
    (hr : data.length-i < rounds) :
    ∃ newFrom next j,
      sameTokens keywords noBackslashEscapes data prevType rounds prevType i=
        some (newFrom,next,j)∧i ≤ newFrom∧
      (next=prevType∧data.length ≤ newFrom∧j=newFrom∨
        next≠prevType∧newFrom < data.length∧newFrom < j) := by
  induction rounds generalizing i with
  | zero => omega
  | succ rounds ih =>
    by_cases hi : i < data.length
    · obtain ⟨next,j,ht⟩ : ∃ next j, nextToken keywords noBackslashEscapes data i=(next,j) :=
        ⟨_,_,rfl⟩
      have hj : i < j := by
        have h := nextToken_advances keywords noBackslashEscapes data i
        rwa [ht] at h
      by_cases hn : next=prevType
      · subst hn
        obtain ⟨newFrom,last,k,hrun,hle,hend⟩ := ih j (by omega)
        refine ⟨newFrom,last,k,?_,by omega,hend⟩
        simp only [sameTokens,if_pos hi,ht,if_true]
        exact hrun
      · refine ⟨i,next,j,?_,Nat.le_refl i,Or.inr ⟨hn,hi,hj⟩⟩
        simp only [sameTokens,if_pos hi,ht,if_neg hn]
    · refine ⟨i,prevType,i,?_,Nat.le_refl i,Or.inl ⟨rfl,by omega,rfl⟩⟩
      simp only [sameTokens,if_neg hi]

/-- From any position between tokens, the loop ends and writes the bytes from `start`
on. -/
theorem writeTokens_plain (rounds start i : ℕ) (type esc : TokenType)
    (hr : data.length-i < rounds) (hs : start ≤ i) :
    ∃ out, writeTokens keywords noBackslashEscapes data rounds start type i esc=some out∧
      plain out=data.drop start := by
  induction rounds generalizing start i type esc with
  | zero => omega
  | succ rounds ih =>
    obtain ⟨newFrom,next,j,hrun,hle,hend⟩ :=
      sameTokens_ends keywords noBackslashEscapes data (data.length+1) i type (by omega)
    have htext : plain (if start < newFrom then (subarray data start newFrom).map .byte
        else [])=subarray data start newFrom := by
      by_cases hn : start < newFrom
      · rw [if_pos hn,plain_bytes]
      · have he : newFrom ≤ start := by omega
        rw [if_neg hn,subarray,List.drop_eq_nil_of_le (by rw [List.length_take]; omega)]
        rfl
    rcases hend with ⟨hn,hj,rfl⟩ | ⟨hn,hlt,hj⟩
    · refine ⟨_,by simp only [writeTokens,hrun,if_pos hn,if_pos hj]; rfl,?_⟩
      rw [plain_append,htext,subarray_end data start hj]
      by_cases he : esc=.default
      · rw [if_neg (not_not_intro he)]
        exact List.append_nil (data.drop start)
      · rw [if_pos he]
        exact List.append_nil (data.drop start)
    · obtain ⟨out,hout,hplain⟩ :=
        ih newFrom j next next (by omega) (Nat.le_of_lt hj)
      refine ⟨_,by simp only [writeTokens,hrun,if_neg hn,hout,Option.map_some]; rfl,?_⟩
      rw [plain_append,htext,plain_color,hplain,subarray_append data (by omega)]

/-- The loop ends, and the text in its output is the query. -/
theorem writeColoredSql_plain :
    ∃ out, writeColoredSql keywords noBackslashEscapes data=some out∧plain out=data :=
  writeTokens_plain keywords noBackslashEscapes data (data.length+1) 0 0 .default .default
    (by omega) (Nat.le_refl 0)

end Tokens

theorem hexValue_hexDigit {c : UInt8} (h : c < 16) : hexValue (hexDigit c)=some c := by
  unfold hexValue hexDigit
  by_cases hc : c < 10
  · have hd : (48 : UInt8) ≤ 48+c∧48+c ≤ 57 := by grind
    have hv : 48+c-48=c := by grind
    rw [if_pos hc,if_pos hd,hv]
  · have hd : ¬((48 : UInt8) ≤ 87+c∧87+c ≤ 57) := by grind
    have hl : (97 : UInt8) ≤ 87+c∧87+c ≤ 102 := by grind
    have hv : 87+c-87=c := by grind
    rw [if_neg hc,if_neg hd,if_pos hl,hv]

/-- A number in two digits is read back. -/
theorem unescape_hex {x y hi lo : UInt8} (hx : hexValue x=some hi) (hy : hexValue y=some lo)
    (l : List UInt8) :
    unescape (backslash::120::x::y::l)=(unescape l).map ((16*hi+lo)::·) := by
  have hn : ¬((120 : UInt8)=apos∨(120 : UInt8)=backslash) := by decide
  rw [unescape.eq_def]
  dsimp only
  rw [if_pos rfl,if_neg hn,if_pos rfl,hx,hy]

/-- A quotation mark or a backslash is read back. -/
theorem unescape_mark {c : UInt8} (h : c=apos∨c=backslash) (l : List UInt8) :
    unescape (backslash::c::l)=(unescape l).map (c::·) := by
  rw [unescape.eq_def]
  dsimp only
  rw [if_pos rfl,if_pos h]

/-- A byte that is not escaped stays. -/
theorem unescape_other {c : UInt8} (h : c≠backslash) (l : List UInt8) :
    unescape (c::l)=(unescape l).map (c::·) := by
  rw [unescape.eq_def]
  dsimp only
  rw [if_neg h]

/-- An escape is undone. -/
theorem unescape_escapeOf {c : UInt8} {esc : List UInt8} (h : escapeOf c=some esc)
    (l : List UInt8) : unescape (esc++l)=(unescape l).map (c::·) := by
  unfold escapeOf at h
  split_ifs at h with ha hb hs hl
  · cases h
    rw [← ha]
    exact unescape_mark (Or.inl ha) l
  · cases h
    have hm := unescape_mark (Or.inr hb) l
    rw [hb] at hm ⊢
    exact hm
  · cases h
    have hz : hexValue 48=some 0 := by decide
    have hx := unescape_hex hz (hexValue_hexDigit hs) l
    have he : 16*0+c=c := by grind
    rw [he] at hx
    exact hx
  · cases h
    have hq : c/16 < 16 := by grind
    have hr : c%16 < 16 := by grind
    have hx := unescape_hex (hexValue_hexDigit hq) (hexValue_hexDigit hr) l
    have he : 16*(c/16)+c%16=c := by grind
    rw [he] at hx
    exact hx

/-- The bytes over which the loop goes on are those that need no escape. -/
theorem isPlain_iff (c : UInt8) : isPlain c=true↔escapeOf c=none := by
  unfold isPlain escapeOf
  constructor
  · intro h
    grind
  · intro h
    grind

/-- What the escapes stand for, and what comes next. -/
theorem escapeRun_unescape (data l : List UInt8) :
    ∃ seen, data=seen++(escapeRun data).2∧
      unescape ((escapeRun data).1++l)=(unescape l).map (seen++·)∧
      ∀ c ∈ (escapeRun data).2.head?, isPlain c=true := by
  induction data with
  | nil =>
    refine ⟨[],rfl,?_,fun c hc => by cases hc⟩
    simp only [List.nil_append,Option.map_id']
    rfl
  | cons c rest ih =>
    obtain ⟨seen,hd,hu,hh⟩ := ih
    cases he : escapeOf c with
    | none =>
      have hr : escapeRun (c::rest)=([],c::rest) := by simp only [escapeRun,he]
      rw [hr]
      refine ⟨[],rfl,?_,?_⟩
      · simp only [List.nil_append,Option.map_id']
      · intro d hd
        cases hd
        exact (isPlain_iff c).mpr he
    | some esc =>
      have hr : escapeRun (c::rest)=(esc++(escapeRun rest).1,(escapeRun rest).2) := by
        simp only [escapeRun,he]
      rw [hr]
      refine ⟨c::seen,congrArg (c::·) hd,?_,hh⟩
      rw [List.append_assoc,unescape_escapeOf he,hu,Option.map_map]
      rfl

/-- Bytes that need no escape stay. -/
theorem unescape_run (run l : List UInt8) (h : ∀ c ∈ run, isPlain c=true) :
    unescape (run++l)=(unescape l).map (run++·) := by
  induction run with
  | nil => simp only [List.nil_append,Option.map_id']
  | cons c run ih =>
    have hc : c≠backslash := by
      intro he
      have hp := h c List.mem_cons_self
      rw [he] at hp
      exact absurd hp (by decide)
    have hrun := ih (fun d hd => h d (List.mem_cons_of_mem c hd))
    rw [List.cons_append,unescape_other hc,hrun,Option.map_map]
    rfl

/-- From any position, the loop ends, and what it writes after `esc` decodes to the bytes
that were left. -/
theorem writeRuns_unescape (withColor : Bool) (rounds : ℕ) (esc : List Symbol)
    (data : List UInt8) (h : data.length < rounds) :
    ∃ body, writeRuns withColor rounds esc data=
        some (esc++body.map .byte++closeQuote withColor)∧
      unescape body=some data := by
  induction rounds generalizing esc data with
  | zero => omega
  | succ rounds ih =>
    cases hr : (escapeRun data).2 with
    | nil =>
      obtain ⟨seen,hd,hu,-⟩ := escapeRun_unescape data []
      rw [hr,List.append_nil] at hd
      refine ⟨(escapeRun data).1,?_,?_⟩
      · have hn : esc++(escapeRun data).1.map .byte++closeQuote withColor≠[] := by
          cases withColor <;> simp [closeQuote]
        simp only [writeRuns,hr,if_true,and_true,if_pos hn]
      · rw [List.append_nil] at hu
        rw [hu,← hd]
        exact congrArg some (List.append_nil data)
    | cons c rest =>
      have hp : isPlain c=true := by
        obtain ⟨-,-,-,hh⟩ := escapeRun_unescape data []
        rw [hr] at hh
        exact hh c rfl
      have hsplit : (c::rest).takeWhile isPlain++(c::rest).dropWhile isPlain=c::rest :=
        List.takeWhile_append_dropWhile
      have hlen : ((c::rest).dropWhile isPlain).length < data.length := by
        obtain ⟨seen,hd,-,-⟩ := escapeRun_unescape data []
        have hl := congrArg List.length hd
        rw [hr,List.length_append,List.length_cons] at hl
        have hdrop := (List.dropWhile_suffix (l:=rest) isPlain).length_le
        rw [List.dropWhile_cons_of_pos hp]
        omega
      obtain ⟨body,hb,hu⟩ := ih [] ((c::rest).dropWhile isPlain) (by omega)
      refine ⟨(escapeRun data).1++((c::rest).takeWhile isPlain++body),?_,?_⟩
      · have hn : c::rest≠[] := List.cons_ne_nil c rest
        simp only [writeRuns,hr,hn,and_false,if_false,hb,Option.map_some]
        simp only [List.map_append,List.append_assoc,List.nil_append]
      · obtain ⟨seen,hd,hs,-⟩ :=
          escapeRun_unescape data ((c::rest).takeWhile isPlain++body)
        have hrun := unescape_run ((c::rest).takeWhile isPlain) body
          (fun d hd => List.mem_takeWhile_imp hd)
        rw [hs,hrun,hu,Option.map_some,Option.map_some,hsplit,← hr,← hd]

/-- Both loops end. Without the color sequences, a query is as it was. Without color
sequences, quotation marks and escapes, a string is as it was. -/
theorem logged_text_kept (keywords : List UInt8 → Bool) (noBackslashEscapes withColor : Bool)
    (data : List UInt8) :
    (∃ out, writeColoredSql keywords noBackslashEscapes data=some out∧plain out=data)∧
      ∃ body, writeSqlString withColor data=
          some (openQuote withColor++body.map .byte++closeQuote withColor)∧
        unescape body=some data :=
  ⟨writeColoredSql_plain keywords noBackslashEscapes data,
    writeRuns_unescape withColor (data.length+1) (openQuote withColor) data (by omega)⟩

end SpiritMysql.ColoredSql
