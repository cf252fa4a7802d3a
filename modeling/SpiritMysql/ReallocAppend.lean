import SpiritMysql.TypedArrays
import Mathlib.Algebra.Group.Nat.Defs
import Mathlib.Data.Int.Notation

/-!
# Appending to a byte array

`reallocAppend()` appends in place when the buffer has room after the array, shifts the array
to the beginning of the buffer when there is room then, and else allocates a larger buffer.
The data can be a part of the same buffer.
-/

namespace SpiritMysql.ReallocAppend

open AsyncAction TypedArrays

/-- `length >> 1`, which is of 32 bits. -/
def half (length : ℕ) : ℤ := ((BitVec.ofNat 32 length).sshiftRight 1).toInt

/-- The size of the larger buffer. -/
def capacity (withCapacity : Bool) (length dataLen : ℕ) : ℕ :=
  if withCapacity=false then length+dataLen
  else (max ((length : ℤ)+dataLen+half length) ((length : ℤ)*2)).toNat

/-- The data, or a copy of it when shifting the array would overwrite it. -/
def snapshot (arr data : View) : Op View :=
  if data.buffer=arr.buffer ∧ data.byteOffset < arr.length then copyOf data else pure data

/-- `reallocAppend()`. -/
def reallocAppend (arr data : View) (withCapacity : Bool) : Op View := do
  let m ← get
  let dataLen := data.length
  let space : ℤ := (content m arr.buffer).length-arr.length-arr.byteOffset
  if dataLen ≤ space then do
    let res ← view arr.buffer arr.byteOffset (arr.length+dataLen)
    res.set data arr.length
    pure res
  else if dataLen ≤ space+arr.byteOffset then do
    let res ← whole arr.buffer
    let data ← snapshot arr data
    res.copyWithin 0 arr.byteOffset (arr.byteOffset+arr.length)
    res.set data arr.length
    pure (res.subarray 0 (arr.length+dataLen))
  else do
    let res ← alloc (capacity withCapacity arr.length dataLen)
    res.set arr 0
    res.set data arr.length
    pure (res.subarray 0 (arr.length+dataLen))

/-- There is room after the array. -/
def HasSpace (m : Memory) (arr data : View) : Prop :=
  arr.byteOffset+arr.length+data.length ≤ (content m arr.buffer).length

/-- There is room when the array is shifted to the beginning. -/
def HasRoom (m : Memory) (arr data : View) : Prop :=
  arr.length+data.length ≤ (content m arr.buffer).length

/-- `reallocAppend()` returns the bytes of the array and of the data as they were, and what
is before the array is left as it is when it appends in place. -/
def Concatenates (m : Memory) (arr data : View) (withCapacity : Bool) : Prop :=
  ∃ res m',reallocAppend arr data withCapacity m=.done res m' ∧ res.Valid m' ∧
    res.bytes m'=arr.bytes m++data.bytes m ∧
    (HasSpace m arr data → res.buffer=arr.buffer ∧ res.byteOffset=arr.byteOffset ∧
      (content m' arr.buffer).take arr.byteOffset=(content m arr.buffer).take arr.byteOffset)

/-- When the array can be enlarged: half of its length is not taken for a negative number,
or is not needed. -/
def Enlarges (m : Memory) (arr data : View) (withCapacity : Bool) : Prop :=
  HasRoom m arr data ∨ withCapacity=false ∨ data.length ≤ arr.length ∨
    arr.length%2^32 < 2^31

/-- Half of a length is negative from `2^31` bytes on. -/
theorem half_negative (length : ℕ) : half length < 0↔2^31 ≤ length%2^32 := by
  rw [half,BitVec.toInt_sshiftRight,Int.shiftRight_eq_div_pow,BitVec.toInt_eq_toNat_bmod,
    BitVec.toNat_ofNat]
  simp only [Int.bmod]
  split <;> omega

/-- The larger buffer is large enough. -/
theorem capacity_iff (withCapacity : Bool) (length dataLen : ℕ) :
    length+dataLen ≤ capacity withCapacity length dataLen↔
      withCapacity=false ∨ dataLen ≤ length ∨ length%2^32 < 2^31 := by
  have hh := half_negative length
  unfold capacity
  split
  · rename_i h
    simp [h]
  · rename_i h
    have ht : withCapacity=true := by simpa using h
    rw [ht]
    simp only [Bool.true_eq_false,false_or]
    omega

/-- The larger buffer has room for the array. -/
theorem length_le_capacity (withCapacity : Bool) (length dataLen : ℕ) :
    length ≤ capacity withCapacity length dataLen := by
  unfold capacity
  split <;> omega

section Calls

variable {m : Memory} {arr data : View} {withCapacity : Bool}

/-- Appending in place writes after the array. -/
theorem append_run (h : HasSpace m arr data) :
    reallocAppend arr data withCapacity m=
      .done ⟨arr.buffer,arr.byteOffset,arr.length+data.length⟩
        (write arr.buffer (arr.byteOffset+arr.length) (data.bytes m) m) := by
  have hspace : (data.length : ℤ) ≤
      (content m arr.buffer).length-arr.length-arr.byteOffset := by
    unfold HasSpace at h
    omega
  have hview : view arr.buffer arr.byteOffset (arr.length+data.length) m=
      .done ⟨arr.buffer,arr.byteOffset,arr.length+data.length⟩ m :=
    if_pos (by unfold HasSpace at h; omega)
  have hset := @View.set_spec m ⟨arr.buffer,arr.byteOffset,arr.length+data.length⟩ data
    arr.length (Nat.le_refl _)
  simp only [reallocAppend,bind_apply,get_apply,Outcome.andThen_done,branch_apply,
    if_pos hspace,hview,hset,pure_apply]

/-- Appending in place. -/
theorem append_spec (ha : arr.Valid m) (hd : data.Valid m) (h : HasSpace m arr data) :
    Concatenates m arr data withCapacity := by
  have hdl := hd.length_bytes
  have hb : arr.byteOffset+arr.length+(data.bytes m).length ≤ (content m arr.buffer).length := by
    rw [hdl]
    exact h
  refine ⟨_,_,append_run h,?_,?_,?_⟩
  · refine ⟨(length_write _ _ _).symm ▸ ha.1,?_⟩
    rw [content_write ha.1,overwrite_length hb]
    unfold HasSpace at h
    show arr.byteOffset+(arr.length+data.length) ≤ _
    omega
  · have hr := read_overwrite hb
    rw [hdl] at hr
    rw [View.bytes,content_write ha.1]
    exact hr
  · intro _
    refine ⟨rfl,rfl,?_⟩
    rw [content_write ha.1,overwrite,
      List.take_append_of_le_length (by rw [List.length_take]; omega),
      List.take_take,Nat.min_eq_left (Nat.le_add_right _ _)]

/-- The data is kept when the array is shifted. -/
theorem snapshot_spec (ha : arr.Valid m) (hd : data.Valid m) :
    ∃ kept m₁,snapshot arr data m=.done kept m₁ ∧ kept.length=data.length ∧
      arr.buffer < m₁.length ∧ content m₁ arr.buffer=content m arr.buffer ∧
      kept.bytes (write arr.buffer 0 (arr.bytes m) m₁)=data.bytes m := by
  have hal := ha.length_bytes
  by_cases hc : data.buffer=arr.buffer ∧ data.byteOffset < arr.length
  · refine ⟨⟨m.length,0,data.length⟩,m++[data.bytes m],?_,rfl,?_,content_append ha.1 _,?_⟩
    · rw [snapshot,if_pos hc]
      rfl
    · rw [List.length_append]
      exact Nat.lt_add_right _ ha.1
    · rw [View.bytes,content_write_other (Nat.ne_of_lt ha.1),content_last,TypedArrays.read,
        List.drop_zero]
      exact List.take_of_length_le (Nat.le_of_eq hd.length_bytes)
  · refine ⟨data,m,?_,rfl,ha.1,rfl,?_⟩
    · rw [snapshot,if_neg hc]
      rfl
    · by_cases hb : data.buffer=arr.buffer
      · have ho : arr.length ≤ data.byteOffset := Nat.not_lt.mp (fun hlt => hc ⟨hb,hlt⟩)
        have hv := ha.2
        have hr := @read_after (content m arr.buffer) (arr.bytes m) 0 data.byteOffset data.length
          (by omega) (by omega)
        change TypedArrays.read data.byteOffset data.length
          (content (write arr.buffer 0 (arr.bytes m) m) data.buffer)=
            TypedArrays.read data.byteOffset data.length (content m data.buffer)
        rw [hb,content_write ha.1]
        exact hr
      · exact View.bytes_congr (content_write_other (fun he => hb he.symm) 0 _)

/-- Shifting to the beginning of the buffer. -/
theorem shift_spec (ha : arr.Valid m) (hd : data.Valid m) (hs : ¬HasSpace m arr data)
    (h : HasRoom m arr data) : Concatenates m arr data withCapacity := by
  obtain ⟨kept,m₁,hk,hkl,hm₁,hc₁,hkb⟩ := snapshot_spec ha hd
  have hal := ha.length_bytes
  have hdl := hd.length_bytes
  have hv := ha.2
  unfold HasSpace at hs
  unfold HasRoom at h
  have hn : ¬(data.length : ℤ) ≤ (content m arr.buffer).length-arr.length-arr.byteOffset := by
    omega
  have hr : (data.length : ℤ) ≤
      (content m arr.buffer).length-arr.length-arr.byteOffset+arr.byteOffset := by omega
  obtain ⟨size,hsize⟩ : ∃ n,(content m arr.buffer).length=n := ⟨_,rfl⟩
  have hmove := @copyWithin_whole m₁ arr.buffer size 0 arr.byteOffset arr.length
    (by rw [hc₁,hsize]) (by omega) (by omega)
  rw [hsize] at hn hr
  rw [hc₁] at hmove
  change _=Outcome.done () (write arr.buffer 0 (arr.bytes m) m₁) at hmove
  have hm₂ : arr.buffer < (write arr.buffer 0 (arr.bytes m) m₁).length := by
    rw [length_write]
    exact hm₁
  have hc₂ : content (write arr.buffer 0 (arr.bytes m) m₁) arr.buffer=
      overwrite 0 (arr.bytes m) (content m arr.buffer) := by
    rw [content_write hm₁,hc₁]
  have hl₂ : (overwrite 0 (arr.bytes m) (content m arr.buffer)).length=size := by
    rw [overwrite_length (by omega),hsize]
  have hset := @View.set_spec (write arr.buffer 0 (arr.bytes m) m₁) ⟨arr.buffer,0,size⟩ kept
    arr.length (by show _ ≤ size; omega)
  rw [hkb] at hset
  refine ⟨⟨arr.buffer,0,arr.length+data.length⟩,write arr.buffer (0+arr.length) (data.bytes m)
    (write arr.buffer 0 (arr.bytes m) m₁),?_,?_,?_,?_⟩
  · have hsub := @subarray_whole arr.buffer size (arr.length+data.length) (by omega)
    simp only [reallocAppend,bind_apply,get_apply,Outcome.andThen_done,branch_apply,if_neg hn,
      if_pos hr,whole,hsize,hk,hmove,hset,pure_apply,hsub]
  · refine ⟨(length_write _ _ _).symm ▸ hm₂,?_⟩
    rw [content_write hm₂,hc₂,overwrite_length (by omega),hl₂]
    show 0+(arr.length+data.length) ≤ size
    omega
  · have hread := @read_overwrite (overwrite 0 (arr.bytes m) (content m arr.buffer))
      (data.bytes m) 0 arr.length (by omega)
    have hfirst : read 0 arr.length (overwrite 0 (arr.bytes m) (content m arr.buffer))=
        arr.bytes m := by
      have hx := @read_overwritten (content m arr.buffer) (arr.bytes m) 0 (by omega)
      rwa [hal] at hx
    rw [hfirst,hdl] at hread
    rw [View.bytes,content_write hm₂,hc₂]
    exact hread
  · intro hx
    exact absurd hx hs

/-- The memory after the array was copied to the beginning of a new buffer. -/
def moved (m : Memory) (arr : View) (size : ℕ) : Memory :=
  write m.length 0 (arr.bytes m) (m++[List.replicate size 0])

/-- The new buffer. -/
theorem content_moved (m : Memory) (arr : View) (size : ℕ) :
    content (moved m arr size) m.length=overwrite 0 (arr.bytes m) (List.replicate size 0) := by
  have hl : m.length < (m++[List.replicate size 0]).length := by
    rw [List.length_append]
    exact Nat.lt_add_one _
  rw [moved,content_write hl,content_last]

/-- The buffers that were there before. -/
theorem content_moved_other {b : ℕ} (h : b < m.length) (size : ℕ) :
    content (moved m arr size) b=content m b := by
  rw [moved,content_write_other (Nat.ne_of_gt h),content_append h]

/-- Enlarging the buffer goes as far as to the copy of the data. -/
theorem enlarge_run (ha : arr.Valid m) (h : ¬HasRoom m arr data) {size : ℕ}
    (hsize : capacity withCapacity arr.length data.length=size) :
    reallocAppend arr data withCapacity m=
      ((⟨m.length,0,size⟩ : View).set data arr.length (moved m arr size)).andThen
        (fun _ => pure ((⟨m.length,0,size⟩ : View).subarray 0 (arr.length+data.length))) := by
  have hv := ha.2
  have hcap := length_le_capacity withCapacity arr.length data.length
  unfold HasRoom at h
  have hn : ¬(data.length : ℤ) ≤ (content m arr.buffer).length-arr.length-arr.byteOffset := by
    omega
  have hr : ¬(data.length : ℤ) ≤
      (content m arr.buffer).length-arr.length-arr.byteOffset+arr.byteOffset := by omega
  have hset : (⟨m.length,0,size⟩ : View).set arr 0 (m++[List.replicate size 0])=
      .done () (moved m arr size) := by
    have hb : arr.bytes (m++[List.replicate size 0])=arr.bytes m :=
      View.bytes_congr (content_append ha.1 _)
    have hs := @View.set_spec (m++[List.replicate size 0]) ⟨m.length,0,size⟩ arr 0
      (by show 0+arr.length ≤ size; omega)
    rw [hb] at hs
    exact hs
  simp only [reallocAppend,bind_apply,get_apply,Outcome.andThen_done,branch_apply,if_neg hn,
    if_neg hr,hsize,alloc,hset]

/-- Enlarging the buffer writes to the new one, when that is large enough. -/
theorem enlarge_done (ha : arr.Valid m) (hd : data.Valid m) (h : ¬HasRoom m arr data) {size : ℕ}
    (hsize : capacity withCapacity arr.length data.length=size)
    (hc : arr.length+data.length ≤ size) :
    reallocAppend arr data withCapacity m=.done ⟨m.length,0,arr.length+data.length⟩
      (write m.length arr.length (data.bytes m) (moved m arr size)) := by
  have hset := @View.set_spec (moved m arr size) ⟨m.length,0,size⟩ data arr.length hc
  rw [View.bytes_congr (content_moved_other hd.1 size)] at hset
  change _=Outcome.done () (write m.length (0+arr.length) _ _) at hset
  rw [Nat.zero_add] at hset
  rw [enlarge_run ha h hsize,hset,subarray_whole hc]
  rfl

/-- Enlarging the buffer, when the new one is large enough. -/
theorem enlarge_spec (ha : arr.Valid m) (hd : data.Valid m) (h : ¬HasRoom m arr data)
    (hc : arr.length+data.length ≤ capacity withCapacity arr.length data.length) :
    Concatenates m arr data withCapacity := by
  obtain ⟨size,hsize⟩ : ∃ n,capacity withCapacity arr.length data.length=n := ⟨_,rfl⟩
  have hal := ha.length_bytes
  have hdl := hd.length_bytes
  rw [hsize] at hc
  have hl : (content (moved m arr size) m.length).length=size := by
    rw [content_moved,overwrite_length (by rw [List.length_replicate]; omega),
      List.length_replicate]
  have hm : m.length < (moved m arr size).length := by
    rw [moved,length_write,List.length_append]
    exact Nat.lt_add_one _
  refine ⟨_,_,enlarge_done ha hd h hsize hc,?_,?_,?_⟩
  · refine ⟨(length_write _ _ _).symm ▸ hm,?_⟩
    rw [content_write hm,overwrite_length (by omega),hl]
    show 0+(arr.length+data.length) ≤ size
    omega
  · have hread := @read_overwrite (content (moved m arr size) m.length) (data.bytes m) 0 arr.length
      (by omega)
    have hfirst : TypedArrays.read 0 arr.length (content (moved m arr size) m.length)=
        arr.bytes m := by
      have hx := @read_overwritten (List.replicate size 0) (arr.bytes m) 0
        (by rw [List.length_replicate]; omega)
      rw [hal] at hx
      rw [content_moved]
      exact hx
    rw [hfirst,hdl,Nat.zero_add] at hread
    rw [View.bytes,content_write hm]
    exact hread
  · intro hx
    unfold HasSpace at hx
    unfold HasRoom at h
    omega

/-- Enlarging the buffer is an error when the new one is not large enough. -/
theorem enlarge_thrown (ha : arr.Valid m) (h : ¬HasRoom m arr data)
    (hc : ¬arr.length+data.length ≤ capacity withCapacity arr.length data.length) :
    reallocAppend arr data withCapacity m=.thrown .outOfBounds
      (moved m arr (capacity withCapacity arr.length data.length)) := by
  rw [enlarge_run ha h rfl,View.set_thrown hc]
  rfl

/-- When enlarging fails, nothing is returned. -/
theorem not_concatenates (ha : arr.Valid m) (h : ¬Enlarges m arr data withCapacity) :
    ¬Concatenates m arr data withCapacity := by
  unfold Enlarges at h
  rw [not_or,←capacity_iff] at h
  rintro ⟨res,m',hr,-⟩
  rw [enlarge_thrown ha h.1 h.2] at hr
  cases hr

/-- Exactly when `reallocAppend()` concatenates: unless a larger buffer is taken for an array
of `2^31` bytes or more and for longer data, and with capacity. -/
theorem reallocAppend_concatenates_iff (ha : arr.Valid m) (hd : data.Valid m) :
    Concatenates m arr data withCapacity↔Enlarges m arr data withCapacity := by
  constructor
  · intro hc
    by_contra hn
    exact not_concatenates ha hn hc
  · intro h
    by_cases hs : HasSpace m arr data
    · exact append_spec ha hd hs
    · by_cases hr : HasRoom m arr data
      · exact shift_spec ha hd hs hr
      · refine enlarge_spec ha hd hr ((capacity_iff _ _ _).mpr ?_)
        exact h.resolve_left hr

end Calls

/-- Three bytes of a buffer, and five that begin the same buffer. -/
theorem reallocAppend_concatenates_shifted :
    Concatenates [List.replicate 15 7++[1,2,3,0,0]] ⟨0,15,3⟩ ⟨0,0,5⟩ false :=
  (@reallocAppend_concatenates_iff [List.replicate 15 7++[1,2,3,0,0]] ⟨0,15,3⟩ ⟨0,0,5⟩ false
    (by decide) (by decide)).mpr (.inl (show 3+5 ≤ 20 by decide))

/-- `2^31` bytes are not enlarged for one byte more than that. -/
theorem reallocAppend_overflows : ¬∀ (m : Memory) (arr data : View) (withCapacity : Bool),
    arr.Valid m → data.Valid m → Concatenates m arr data withCapacity := by
  intro h
  have h0 : (content [List.replicate (2^31) 0,List.replicate (2^31+1) 0] 0).length=2^31 :=
    List.length_replicate
  have h1 : (content [List.replicate (2^31) 0,List.replicate (2^31+1) 0] 1).length=2^31+1 :=
    List.length_replicate
  have ha : View.Valid [List.replicate (2^31) 0,List.replicate (2^31+1) 0] ⟨0,0,2^31⟩ :=
    ⟨Nat.zero_lt_two,by rw [h0]; exact Nat.le_of_eq (Nat.zero_add _)⟩
  have hd : View.Valid [List.replicate (2^31) 0,List.replicate (2^31+1) 0] ⟨1,0,2^31+1⟩ :=
    ⟨Nat.one_lt_two,by rw [h1]; exact Nat.le_of_eq (Nat.zero_add _)⟩
  refine @not_concatenates _ _ _ true ha ?_ (h _ _ _ true ha hd)
  unfold Enlarges HasRoom
  rw [h0]
  decide

end SpiritMysql.ReallocAppend
