import Mathlib.Data.List.Basic
import Mathlib.Tactic.Common
import Mathlib.Data.Nat.Notation

/-!
# Writing to a byte array of a guessed size

A byte array is written at an index that moves on, and a write beyond the end is
silently ignored. What was to be written is there exactly when no write was
beyond the end. What was once missed stays missed, also when the array is
copied to a larger one.
-/

namespace SpiritMysql.ByteCursor

/-- An array, and the index of the next write. -/
structure Cursor where
  /-- The array. -/
  bytes : List UInt8
  /-- The index. -/
  pos : ℕ
deriving DecidableEq, Repr

/-- A new array. -/
def Cursor.new (length pos : ℕ) : Cursor := ⟨List.replicate length 0,pos⟩

/-- Write one byte. -/
def Cursor.put (c : Cursor) (b : UInt8) : Cursor := ⟨c.bytes.set c.pos b,c.pos+1⟩

/-- Write some bytes, one by one. -/
def Cursor.puts (c : Cursor) (bs : List UInt8) : Cursor := bs.foldl Cursor.put c

/-- Replace bytes at the index, without moving it. -/
def Cursor.overwrite (c : Cursor) (bs : List UInt8) : Cursor :=
  {c with bytes := c.bytes.take c.pos++bs++c.bytes.drop (c.pos+bs.length)}

/-- Replace bytes at the index, and move it. -/
def Cursor.write (c : Cursor) (bs : List UInt8) : Cursor :=
  {c.overwrite bs with pos := c.pos+bs.length}

/-- Copy the array to a larger one. -/
def Cursor.enlarge (c : Cursor) (more : ℕ) : Cursor :=
  {c with bytes := c.bytes++List.replicate more 0}

/-- The bytes so far are as expected. -/
structure Holds (c : Cursor) (expected : List UInt8) : Prop where
  /-- The index. -/
  pos : c.pos=expected.length
  /-- The array has them. -/
  le : expected.length ≤ c.bytes.length
  /-- They are right. -/
  eq : c.bytes.take expected.length=expected

/-- A byte from a position on is missed: it is not as expected. -/
structure Misses (start : ℕ) (c : Cursor) (expected : List UInt8) : Prop where
  /-- The index. -/
  pos : c.pos=expected.length
  /-- The byte. -/
  ne : ∃ p,start ≤ p ∧ p < expected.length ∧ c.bytes.getD p 0≠expected.getD p 0

/-- Bytes differ in their number, or from a position on. -/
def Differs (start : ℕ) (as bs : List UInt8) : Prop :=
  as.length≠bs.length ∨ ∃ p,start ≤ p ∧ as.getD p 0≠bs.getD p 0

variable {start : ℕ} {c : Cursor} {expected : List UInt8}

/-- Writing moves the index, and does not change the size. -/
theorem puts_size (c : Cursor) (bs : List UInt8) :
    (c.puts bs).pos=c.pos+bs.length ∧ (c.puts bs).bytes.length=c.bytes.length := by
  induction bs generalizing c with
  | nil => exact ⟨rfl,rfl⟩
  | cons b bs ih =>
    obtain ⟨hp,hl⟩ := ih (c.put b)
    have hset : (c.put b).bytes.length=c.bytes.length := List.length_set
    have hpos : (c.put b).pos=c.pos+1 := rfl
    have he : c.puts (b::bs)=(c.put b).puts bs := rfl
    rw [he,hp,hl,hset,hpos,List.length_cons]
    exact ⟨by omega,rfl⟩

/-- What is before the index is not changed. -/
theorem puts_before (c : Cursor) (bs : List UInt8) {p : ℕ} (h : p < c.pos) :
    (c.puts bs).bytes.getD p 0=c.bytes.getD p 0 := by
  induction bs generalizing c with
  | nil => rfl
  | cons b bs ih =>
    have he : c.puts (b::bs)=(c.put b).puts bs := rfl
    rw [he,ih (c.put b) (Nat.lt_succ_of_lt h)]
    have hne : c.pos≠p := Nat.ne_of_gt h
    simp only [Cursor.put,List.getD_eq_getElem?_getD,List.getElem?_set_ne hne]

/-- What is after the bytes is not changed. -/
theorem puts_after (c : Cursor) (bs : List UInt8) {p : ℕ} (h : c.pos+bs.length ≤ p) :
    (c.puts bs).bytes.getD p 0=c.bytes.getD p 0 := by
  induction bs generalizing c with
  | nil => rfl
  | cons b bs ih =>
    rw [List.length_cons] at h
    have he : c.puts (b::bs)=(c.put b).puts bs := rfl
    have hpos : (c.put b).pos=c.pos+1 := rfl
    rw [he,ih (c.put b) (by omega)]
    have hne : c.pos≠p := by omega
    simp only [Cursor.put,List.getD_eq_getElem?_getD,List.getElem?_set_ne hne]

/-- Bytes that fit. -/
theorem puts_eq (c : Cursor) (bs : List UInt8) (h : c.pos+bs.length ≤ c.bytes.length) :
    c.puts bs=c.write bs := by
  induction bs generalizing c with
  | nil =>
    have hn : c.bytes.take c.pos++[]++c.bytes.drop (c.pos+0)=c.bytes := by
      rw [List.append_nil,Nat.add_zero,List.take_append_drop]
    simp only [Cursor.write,Cursor.overwrite,List.length_nil,hn]
    rfl
  | cons b bs ih =>
    rw [List.length_cons] at h
    have he : c.puts (b::bs)=(c.put b).puts bs := rfl
    have hlen : (c.put b).bytes.length=c.bytes.length := List.length_set
    have hpos : (c.put b).pos=c.pos+1 := rfl
    rw [he,ih (c.put b) (by omega)]
    have hset : (c.put b).bytes=c.bytes.take c.pos++b::c.bytes.drop (c.pos+1) :=
      List.set_eq_take_append_cons_drop.trans (if_pos (by omega))
    have htake : (c.put b).bytes.take (c.pos+1)=c.bytes.take c.pos++[b] := by
      rw [hset,List.take_append,List.take_of_length_le (by rw [List.length_take]; omega),
        List.length_take,Nat.min_eq_left (by omega),Nat.add_sub_cancel_left]
      rfl
    have hdrop : (c.put b).bytes.drop (c.pos+1+bs.length)=c.bytes.drop (c.pos+1+bs.length) := by
      rw [hset,List.drop_append,List.drop_eq_nil_of_le (by rw [List.length_take]; omega),
        List.nil_append,List.length_take,Nat.min_eq_left (by omega),
        show c.pos+1+bs.length-c.pos=bs.length+1 by omega,List.drop_succ_cons,List.drop_drop]
    simp only [Cursor.write,Cursor.overwrite,hpos,htake,hdrop,List.length_cons,Cursor.mk.injEq]
    refine ⟨?_,by omega⟩
    rw [show c.pos+(bs.length+1)=c.pos+1+bs.length by omega]
    simp only [List.append_assoc,List.cons_append,List.nil_append]

/-- Bytes that fit are as expected. -/
theorem Holds.write (h : Holds c expected) {bs : List UInt8}
    (hfit : c.pos+bs.length ≤ c.bytes.length) : Holds (c.write bs) (expected++bs) := by
  have hp := h.pos
  have htake : (c.bytes.take c.pos).length=c.pos := by rw [List.length_take]; omega
  have hlen : (c.write bs).bytes.length=c.bytes.length := by
    simp only [Cursor.write,Cursor.overwrite,List.length_append,List.length_drop,htake]
    omega
  refine ⟨?_,?_,?_⟩
  · simp only [Cursor.write,List.length_append]
    omega
  · rw [hlen,List.length_append]
    omega
  · have heq := h.eq
    rw [← hp] at heq
    simp only [Cursor.write,Cursor.overwrite]
    rw [List.take_left' (by rw [List.length_append,htake,List.length_append,hp]),heq]

/-- The array is as large after bytes that fit. -/
theorem write_length {bs : List UInt8} (hfit : c.pos+bs.length ≤ c.bytes.length) :
    (c.write bs).bytes.length=c.bytes.length := by
  have htake : (c.bytes.take c.pos).length=c.pos := by rw [List.length_take]; omega
  simp only [Cursor.write,Cursor.overwrite,List.length_append,List.length_drop,htake]
  omega

/-- Bytes that do not fit are missed. -/
theorem Holds.puts_short (h : Holds c expected) {bs : List UInt8}
    (hstart : start ≤ c.bytes.length) (hshort : c.bytes.length < c.pos+bs.length)
    (hz : ∀ b ∈ bs,b≠0) :
    Misses start (c.puts bs) (expected++bs) := by
  obtain ⟨hp,hl⟩ := puts_size c bs
  have hle := h.le
  have hpos := h.pos
  refine ⟨by rw [hp,hpos,List.length_append],c.bytes.length,hstart,by rw [List.length_append]; omega,?_⟩
  have hout : (c.puts bs).bytes.getD c.bytes.length 0=0 := by
    rw [List.getD_eq_getElem?_getD,List.getElem?_eq_none (by omega)]
    rfl
  have hi : c.bytes.length-expected.length < bs.length := by omega
  have hin : (expected++bs).getD c.bytes.length 0=bs[c.bytes.length-expected.length] := by
    rw [List.getD_eq_getElem?_getD,List.getElem?_append_right (by omega),List.getElem?_eq_getElem hi]
    rfl
  rw [hout,hin]
  exact fun hn => hz _ (List.getElem_mem hi) hn.symm

/-- What is before the end of what was expected stays so. -/
theorem getD_append_left {as bs : List UInt8} {p : ℕ} (h : p < as.length) :
    (as++bs).getD p 0=as.getD p 0 := by
  rw [List.getD_eq_getElem?_getD,List.getD_eq_getElem?_getD,List.getElem?_append_left h]

/-- What was missed stays missed, while more is written. -/
theorem Misses.puts (h : Misses start c expected) (bs : List UInt8) : Misses start (c.puts bs) (expected++bs) := by
  obtain ⟨p,hs,hp,hne⟩ := h.ne
  refine ⟨by rw [(puts_size c bs).1,h.pos,List.length_append],p,hs,by rw [List.length_append]; omega,?_⟩
  rw [puts_before c bs (h.pos ▸ hp),getD_append_left hp]
  exact hne

/-- Replacing bytes at the index leaves what is before it alone. -/
theorem overwrite_before (c : Cursor) (bs : List UInt8) (hfit : bs.length ≤ c.bytes.length-c.pos)
    {p : ℕ} (h : p < c.pos) : (c.overwrite bs).bytes.getD p 0=c.bytes.getD p 0 := by
  simp only [Cursor.overwrite,List.append_assoc]
  by_cases hl : c.pos ≤ c.bytes.length
  · have htake : (c.bytes.take c.pos).length=c.pos := by rw [List.length_take]; omega
    rw [getD_append_left (by omega),List.getD_eq_getElem?_getD,List.getElem?_take_of_lt h,
      List.getD_eq_getElem?_getD]
  · have hnil : bs=[] := List.length_eq_zero_iff.mp (by omega)
    rw [hnil,List.nil_append,List.length_nil,Nat.add_zero,List.take_append_drop]

/-- What was missed stays missed. -/
theorem Misses.overwrite (h : Misses start c expected) {bs : List UInt8}
    (hfit : bs.length ≤ c.bytes.length-c.pos) : Misses start (c.overwrite bs) expected := by
  obtain ⟨p,hs,hp,hne⟩ := h.ne
  refine ⟨h.pos,p,hs,hp,?_⟩
  rw [overwrite_before c bs hfit (h.pos ▸ hp)]
  exact hne

/-- What was missed stays missed. -/
theorem Misses.write (h : Misses start c expected) {bs : List UInt8}
    (hfit : bs.length ≤ c.bytes.length-c.pos) : Misses start (c.write bs) (expected++bs) := by
  obtain ⟨p,hs,hp,hne⟩ := (h.overwrite hfit).ne
  have hpos : (c.write bs).pos=c.pos+bs.length := rfl
  refine ⟨by rw [hpos,h.pos,List.length_append],p,hs,by rw [List.length_append]; omega,?_⟩
  rw [getD_append_left hp]
  exact hne

/-- A larger array reads as the smaller one did. -/
theorem enlarge_getD (c : Cursor) (more p : ℕ) : (c.enlarge more).bytes.getD p 0=c.bytes.getD p 0 := by
  simp only [Cursor.enlarge,List.getD_eq_getElem?_getD]
  by_cases h : p < c.bytes.length
  · rw [List.getElem?_append_left h]
  · have hnone : c.bytes[p]?=none := List.getElem?_eq_none (by omega)
    rw [List.getElem?_append_right (by omega),hnone,List.getElem?_replicate]
    split <;> rfl

/-- What was missed stays missed. -/
theorem Misses.enlarge (h : Misses start c expected) (more : ℕ) : Misses start (c.enlarge more) expected := by
  obtain ⟨p,hs,hp,hne⟩ := h.ne
  exact ⟨h.pos,p,hs,hp,by rw [enlarge_getD]; exact hne⟩

/-- What holds does so in a larger array, also after bytes at the index were replaced. -/
theorem Holds.enlarge (h : Holds c expected) (bs : List UInt8) (more : ℕ) :
    Holds ((c.overwrite bs).enlarge more) expected := by
  have hpos := h.pos
  have hle := h.le
  have htake : (c.bytes.take c.pos).length=c.pos := by rw [List.length_take]; omega
  refine ⟨h.pos,?_,?_⟩
  · simp only [Cursor.enlarge,Cursor.overwrite,List.length_append,htake]
    omega
  · have heq := h.eq
    rw [← hpos] at heq ⊢
    simp only [Cursor.enlarge,Cursor.overwrite,List.append_assoc]
    rw [List.take_left' htake]
    exact heq

/-- The size of a larger array, also after bytes at the index were replaced. -/
theorem enlarge_length {bs : List UInt8} (hpos : c.pos ≤ c.bytes.length)
    (hfit : bs.length ≤ c.bytes.length-c.pos) (more : ℕ) :
    ((c.overwrite bs).enlarge more).bytes.length=c.bytes.length+more := by
  have htake : (c.bytes.take c.pos).length=c.pos := by rw [List.length_take]; omega
  simp only [Cursor.enlarge,Cursor.overwrite,List.length_append,htake,List.length_drop,
    List.length_replicate]
  omega

/-- The whole array is as expected, when it has the right size. -/
theorem Holds.complete (h : Holds c expected) (hl : c.bytes.length=expected.length) :
    c.bytes=expected := by
  have heq := h.eq
  rwa [List.take_of_length_le (by omega)] at heq

/-- What was missed makes a difference. -/
theorem Misses.differs (h : Misses start c expected) : Differs start c.bytes expected := by
  obtain ⟨p,hs,hp,hne⟩ := h.ne
  exact Or.inr ⟨p,hs,hne⟩

end SpiritMysql.ByteCursor
