import Mathlib.Order.Nat
import Mathlib.Tactic.Common

/-!
# Line ends in bytes

A line ends at a carriage return, or at a line feed that does not come right after one.
Ends are counted from a state that says if the byte before was a carriage return, so that
text can be cut anywhere.
-/

namespace SpiritMysql.LineEnds

/-- If a line end starts with this byte. -/
def isEnd (afterCR : Bool) (c : UInt8) : Bool := c == 13 || c == 10 && !afterCR

/-- How many line ends start in the text. -/
def count : Bool → List UInt8 → ℕ
  | _,[] => 0
  | afterCR,c::rest => count (c == 13) rest+(isEnd afterCR c).toNat

/-- Where line end number `k` starts, or the length of the text if there are less. Numbers
start with one. -/
def position : Bool → List UInt8 → ℕ → ℕ
  | _,[],_ => 0
  | afterCR,c::rest,k =>
    if isEnd afterCR c = true then
      if k ≤ 1 then 0 else position (c == 13) rest (k-1)+1
    else position (c == 13) rest k+1

/-- If the text ends with a carriage return. -/
def endsWithCR : Bool → List UInt8 → Bool
  | afterCR,[] => afterCR
  | _,c::rest => endsWithCR (c == 13) rest

section Heads

variable {b : Bool} {c : UInt8}

theorem count_end (h : isEnd b c=true) (rest : List UInt8) :
    count b (c::rest)=count (c == 13) rest+1 := by
  rw [count,h,Bool.toNat_true]

theorem count_other (h : ¬isEnd b c=true) (rest : List UInt8) :
    count b (c::rest)=count (c == 13) rest := by
  rw [count,Bool.eq_false_iff.mpr h,Bool.toNat_false,Nat.add_zero]

theorem position_end (h : isEnd b c=true) (rest : List UInt8) (k : ℕ) :
    position b (c::rest) k=if k ≤ 1 then 0 else position (c == 13) rest (k-1)+1 := by
  rw [position,if_pos h]

theorem position_other (h : ¬isEnd b c=true) (rest : List UInt8) (k : ℕ) :
    position b (c::rest) k=position (c == 13) rest k+1 := by
  rw [position,if_neg h]

end Heads

/-- A carriage return before the text can take one line end only. -/
theorem count_after_le (b : Bool) (l : List UInt8) : count b l ≤ count false l := by
  cases l with
  | nil => exact Nat.le_refl 0
  | cons c rest =>
    simp only [count,isEnd]
    cases b <;> cases c == 13 <;> cases c == 10 <;> simp

theorem count_append (b : Bool) (l m : List UInt8) :
    count b (l++m)=count b l+count (endsWithCR b l) m := by
  induction l generalizing b with
  | nil => simp only [List.nil_append,count,endsWithCR,Nat.zero_add]
  | cons c rest ih =>
    simp only [List.cons_append,count,endsWithCR,ih]
    omega

theorem position_le (b : Bool) (l : List UInt8) (k : ℕ) : position b l k ≤ l.length := by
  induction l generalizing b k with
  | nil => exact Nat.le_refl 0
  | cons c rest ih =>
    have h := ih (c == 13) k
    have hp := ih (c == 13) (k-1)
    simp only [position,List.length_cons]
    split_ifs <;> omega

/-- The part of the text up to a position has less line ends exactly if it does not go
beyond the line end. -/
theorem count_take_lt (b : Bool) {l : List UInt8} {i k : ℕ} (hk : 0 < k)
    (hi : i ≤ l.length) : count b (l.take i) < k↔i ≤ position b l k := by
  induction l generalizing b i k with
  | nil =>
    have h0 : i=0 := by
      rw [List.length_nil] at hi
      omega
    rw [h0,List.take_nil]
    exact iff_of_true hk (Nat.zero_le _)
  | cons c rest ih =>
    cases i with
    | zero =>
      rw [List.take_zero]
      exact iff_of_true hk (Nat.zero_le _)
    | succ i =>
      rw [List.length_cons] at hi
      rw [List.take_succ_cons]
      by_cases he : isEnd b c=true
      · rw [count_end he,position_end he]
        by_cases h1 : k ≤ 1
        · rw [if_pos h1]
          omega
        · have h := ih (c == 13) (i:=i) (k:=k-1) (by omega) (by omega)
          rw [if_neg h1]
          omega
      · have h := ih (c == 13) (i:=i) (k:=k) hk (by omega)
        rw [count_other he,position_other he]
        omega

/-- A text with less line ends has none with this number. -/
theorem position_eq_length {b : Bool} {l : List UInt8} {k : ℕ} (h : count b l < k) :
    position b l k=l.length := by
  have ht := (count_take_lt b (k:=k) (by omega) (Nat.le_refl l.length)).mp
    (by rwa [List.take_length])
  have hp := position_le b l k
  omega

/-- A text with as many line ends has one with this number. -/
theorem position_lt_length {b : Bool} {l : List UInt8} {k : ℕ} (hk : 0 < k)
    (h : k ≤ count b l) : position b l k < l.length := by
  have ht := count_take_lt b (l:=l) hk (Nat.le_refl l.length)
  rw [List.take_length] at ht
  omega

/-- The line end is found later if more are asked for, or if there are fewer. -/
theorem position_mono (b : Bool) (l : List UInt8) {j k : ℕ} (hj : 0 < j) (h : j ≤ k) :
    position false l j ≤ position b l k := by
  have hle := position_le false l j
  have hlt := (count_take_lt false hj hle).mpr (Nat.le_refl (position false l j))
  have hafter := count_after_le b (l.take (position false l j))
  exact (count_take_lt b (by omega) hle).mp (by omega)

/-- The line end is in the second text. -/
theorem position_append {b : Bool} {l : List UInt8} {k : ℕ} (m : List UInt8)
    (h : count b l < k) :
    position b (l++m) k=l.length+position (endsWithCR b l) m (k-count b l) := by
  induction l generalizing b k with
  | nil =>
    simp only [List.nil_append,count,endsWithCR,List.length_nil,Nat.sub_zero,Nat.zero_add]
  | cons c rest ih =>
    rw [List.cons_append,endsWithCR,List.length_cons]
    by_cases he : isEnd b c=true
    · rw [count_end he] at h ⊢
      have hk : ¬k ≤ 1 := by omega
      have hs : k-1-count (c == 13) rest=k-(count (c == 13) rest+1) := by omega
      rw [position_end he,if_neg hk,ih (by omega),hs]
      omega
    · rw [count_other he] at h ⊢
      rw [position_other he,ih h]
      omega

/-- The line end is in the first text. -/
theorem position_append_left {b : Bool} {l : List UInt8} {k : ℕ} (m : List UInt8)
    (hk : 0 < k) (h : k ≤ count b l) : position b (l++m) k=position b l k := by
  induction l generalizing b k with
  | nil =>
    rw [count] at h
    omega
  | cons c rest ih =>
    rw [List.cons_append]
    by_cases he : isEnd b c=true
    · rw [count_end he] at h
      rw [position_end he,position_end he]
      by_cases h1 : k ≤ 1
      · rw [if_pos h1,if_pos h1]
      · rw [if_neg h1,if_neg h1,ih (by omega) (by omega)]
    · rw [count_other he] at h
      rw [position_other he,position_other he,ih hk h]

end SpiritMysql.LineEnds
