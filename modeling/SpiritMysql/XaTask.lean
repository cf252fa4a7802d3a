import Mathlib.Data.List.TakeWhile
import SpiritMysql.PoolRun

/-!
# Dangling distributed transactions

`XaIdGen.decode()` and the task of the pool that rolls back the prepared
transactions whose connections are gone. The connection of a transaction is found
in its id.
-/

namespace SpiritMysql.XaTask

open Pool PoolRun

/-- What `XaIdGen.decode()` returns. -/
structure XaId where
  /-- When the id was made, in seconds. -/
  time : ℕ
  /-- The process that made it. -/
  pid : ℕ
  /-- The connection that owns the transaction. -/
  connectionId : ℕ
deriving DecidableEq, Repr

/-- The class `[0-9a-z]`. -/
def isBase36 (c : Char) : Bool := c.isDigit || c.isLower

/-- The value of a character of that class. -/
def digit36 (c : Char) : ℕ := if c.isDigit=true then c.toNat-48 else c.toNat-87

/-- `parseInt()` of characters of that class. -/
def parse36 (digits : List Char) : ℕ := digits.foldl (fun n c => 36*n+digit36 c) 0

/-- A field of `RE_XA_ID`: at least so many characters of the class, and a
separator. What follows them is returned too. -/
def field (separator : Char) (atLeast : ℕ) (text : List Char) : Option (List Char×List Char) :=
  match text.dropWhile isBase36 with
  | c::rest =>
    if c=separator ∧ atLeast ≤ (text.takeWhile isBase36).length then
      some (text.takeWhile isBase36,rest)
    else none
  | [] => none

/-- `XaIdGen.decode()`. Without a connection id there is no number to return. -/
def decode (xaId : String) : Option XaId := do
  let (time36,rest) ← field '.' 5 xaId.toList
  let (_,rest) ← field '@' 1 rest
  let (pid36,rest) ← field '-' 1 rest
  if rest.all Char.isDigit=true ∧ rest≠[] then
    some ⟨parse36 time36,parse36 pid36,Nat.ofDigitChars 10 rest 0⟩
  else none

/-- The loop over `xas`, from the last one, for a connection that is alive. -/
def dropAlive (id : ℕ) : ℕ → List (String×ℕ) → List (String×ℕ)
  | 0,xas => xas
  | i+1,xas =>
    match xas[i]? with
    | some xa => dropAlive id i (if xa.2=id then swapRemove xas i else xas)
    | none => dropAlive id i xas

/-- `#xaTask()`: what it rolls back, when the server has these prepared transactions
and these connections. -/
def xaTask (recovered : List String) (processlist : List ℕ) : List String :=
  let xas := recovered.filterMap (fun xaId => (decode xaId).map (fun x => (xaId,x.connectionId)))
  let alive := processlist.filter (fun id => (xas.map Prod.snd).contains id)
  (alive.foldl (fun xas id => dropAlive id xas.length xas) xas).map Prod.fst

/-- What is after the place of a removed element was there, or was the last one. -/
theorem getElem_swapRemove {α : Type} {l : List α} {i j : ℕ} {a : α} (hi : i < l.length)
    (hj : i ≤ j) (h : (swapRemove l i)[j]?=some a) : ∃ k,i < k ∧ l[k]?=some a := by
  unfold swapRemove at h
  cases hl : l.getLast? with
  | none =>
    rw [List.getLast?_eq_none_iff.mp hl] at hi
    exact absurd hi (Nat.not_lt_zero i)
  | some last =>
    rw [hl] at h
    dsimp only at h
    have hlt : j < l.length-1 := by
      obtain ⟨hlt,_⟩ := List.getElem?_eq_some_iff.mp h
      simpa only [List.length_dropLast,List.length_set] using hlt
    rw [List.getElem?_dropLast,List.length_set,if_pos hlt,List.getElem?_set] at h
    split_ifs at h with he
    · cases h
      rw [List.getLast?_eq_getElem?] at hl
      exact ⟨l.length-1,by omega,hl⟩
    · exact ⟨j,Nat.lt_of_le_of_ne hj he,h⟩

/-- The loop leaves no transaction of the connection, when there is none after the
place where it is. -/
theorem dropAlive_gone {id n : ℕ} {xas : List (String×ℕ)}
    (h : ∀ j xa,n ≤ j → xas[j]?=some xa → xa.2≠id) : ∀ xa ∈ dropAlive id n xas,xa.2≠id := by
  induction n generalizing xas with
  | zero =>
    intro xa hm
    obtain ⟨j,hj⟩ := List.mem_iff_getElem?.mp hm
    exact h j xa (Nat.zero_le j) hj
  | succ n ih =>
    unfold dropAlive
    cases hn : xas[n]? with
    | none =>
      refine ih (fun j xa hj hx => ?_)
      rcases Nat.eq_or_lt_of_le hj with rfl | hj
      · rw [hn] at hx
        cases hx
      · exact h j xa hj hx
    | some first =>
      dsimp only
      split_ifs with hid
      · refine ih (fun j xa hj hx => ?_)
        obtain ⟨hlt,_⟩ := List.getElem?_eq_some_iff.mp hn
        obtain ⟨k,hk,hx⟩ := getElem_swapRemove hlt hj hx
        exact h k xa hk hx
      · refine ih (fun j xa hj hx => ?_)
        rcases Nat.eq_or_lt_of_le hj with rfl | hj
        · rw [hn] at hx
          cases hx
          exact hid
        · exact h j xa hj hx

/-- The loop adds no transaction. -/
theorem mem_dropAlive {id n : ℕ} {xas : List (String×ℕ)} {xa : String×ℕ}
    (h : xa ∈ dropAlive id n xas) : xa ∈ xas := by
  induction n generalizing xas with
  | zero => exact h
  | succ n ih =>
    unfold dropAlive at h
    cases hn : xas[n]? with
    | none =>
      rw [hn] at h
      exact ih h
    | some first =>
      rw [hn] at h
      have hm := ih h
      split_ifs at hm
      · exact mem_swapRemove hm
      · exact hm

/-- After the loops for all connections that are alive. -/
theorem mem_foldl_dropAlive {alive : List ℕ} {xas : List (String×ℕ)} {xa : String×ℕ}
    (h : xa ∈ alive.foldl (fun xas id => dropAlive id xas.length xas) xas) :
    xa ∈ xas ∧ xa.2 ∉ alive := by
  induction alive generalizing xas with
  | nil => exact ⟨h,List.not_mem_nil⟩
  | cons id alive ih =>
    obtain ⟨hm,hn⟩ := ih h
    refine ⟨mem_dropAlive hm,fun hx => ?_⟩
    have hgone : ∀ xa ∈ dropAlive id xas.length xas,xa.2≠id := by
      refine dropAlive_gone (fun j xa hj hx => ?_)
      rw [List.getElem?_eq_none hj] at hx
      cases hx
    rcases List.mem_cons.mp hx with hx | hx
    · exact hgone xa hm hx
    · exact hn hx

/-- The task rolls back only transactions whose ids name connections that are gone. -/
theorem xaTask_gone {recovered : List String} {processlist : List ℕ} {xaId : String}
    (h : xaId ∈ xaTask recovered processlist) :
    ∃ x,decode xaId=some x ∧ x.connectionId ∉ processlist := by
  obtain ⟨xa,hm,rfl⟩ := List.mem_map.mp h
  obtain ⟨hm,hn⟩ := mem_foldl_dropAlive hm
  obtain ⟨xaId,_,hx⟩ := List.mem_filterMap.mp hm
  obtain ⟨x,hd,hx⟩ := Option.map_eq_some_iff.mp hx
  subst hx
  refine ⟨x,hd,fun hp => hn (List.mem_filter.mpr ⟨hp,?_⟩)⟩
  exact List.contains_iff_mem.mpr (List.mem_map.mpr ⟨(xaId,x.connectionId),hm,rfl⟩)

/-- Digits after a text do not change its fields. -/
theorem field_append {separator : Char} {atLeast : ℕ} (text : List Char) {digits : List Char}
    (hd : ∀ c ∈ digits,c.isDigit=true) : field separator atLeast (text++digits)=
      (field separator atLeast text).map (fun f => (f.1,f.2++digits)) := by
  have hbase : ∀ c ∈ digits,isBase36 c=true := by
    intro c hc
    rw [isBase36,hd c hc,Bool.true_or]
  cases hr : text.dropWhile isBase36 with
  | nil =>
    have hall := @List.dropWhile_append _ isBase36 text digits
    rw [hr,List.isEmpty_nil,if_pos rfl,List.dropWhile_eq_nil_iff.mpr hbase] at hall
    simp only [field,hall,hr,Option.map_none]
  | cons c rest =>
    have hdrop := @List.dropWhile_append _ isBase36 text digits
    rw [hr,List.isEmpty_cons,if_neg Bool.false_ne_true,List.cons_append] at hdrop
    have htake := @List.takeWhile_append _ isBase36 text digits
    rw [if_neg ?_] at htake
    · simp only [field,hdrop,htake,hr]
      split_ifs
      · rfl
      · rfl
    · intro hlen
      have hl := congrArg List.length (List.takeWhile_append_dropWhile (p:=isBase36) (l:=text))
      rw [List.length_append,hlen,hr,List.length_cons] at hl
      omega

/-- An id that is made of a text without a connection id and of a connection id
names that connection, when it is one of the generator. -/
theorem decode_append {text : String} (h : decode text=none) {connectionId : ℕ} {x : XaId}
    (hx : decode (text++toString connectionId)=some x) : x.connectionId=connectionId := by
  have hdigits : ∀ c ∈ Nat.toDigits 10 connectionId,c.isDigit=true :=
    fun c hc => Nat.isDigit_of_mem_toDigits (by decide) (by decide) hc
  have hlist : (text++toString connectionId).toList=text.toList++Nat.toDigits 10 connectionId := by
    rw [String.toList_append,Nat.toString_eq_repr,Nat.toList_repr]
  unfold decode at h hx
  rw [hlist,field_append _ hdigits] at hx
  cases h₁ : field '.' 5 text.toList with
  | none =>
    rw [h₁] at hx
    cases hx
  | some f₁ =>
    rw [h₁] at h hx
    simp only [Option.map_some,Option.bind_eq_bind,Option.bind_some] at h hx
    rw [field_append _ hdigits] at hx
    cases h₂ : field '@' 1 f₁.2 with
    | none =>
      rw [h₂] at hx
      cases hx
    | some f₂ =>
      rw [h₂] at h hx
      simp only [Option.map_some,Option.bind_some] at h hx
      rw [field_append _ hdigits] at hx
      cases h₃ : field '-' 1 f₂.2 with
      | none =>
        rw [h₃] at hx
        cases hx
      | some f₃ =>
        rw [h₃] at h hx
        simp only [Option.map_some,Option.bind_some] at h hx
        split_ifs at h hx with hno hyes
        -- what follows the separator ends with digits, so it has none of its own
        rw [List.all_append,Bool.and_eq_true] at hyes
        have hnil : f₃.2=[] := by
          by_contra hne
          exact hno ⟨hyes.1.1,hne⟩
        rw [hnil,List.nil_append,Nat.ofDigitChars_ten_toDigits] at hx
        cases hx
        rfl

end SpiritMysql.XaTask
