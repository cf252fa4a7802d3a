import SpiritMysql.AsyncAction
import Mathlib.Data.List.Basic

/-!
# Byte arrays that share memory

Array buffers, and views of parts of them. Several views may be of one buffer and overlap,
so a write through one can be seen through others.
-/

namespace SpiritMysql.TypedArrays

open AsyncAction

/-- The array buffers, in the order in which they were allocated. -/
abbrev Memory := List (List UInt8)

/-- The bytes of a buffer. -/
def content (m : Memory) (buffer : ℕ) : List UInt8 := m.getD buffer []

/-- A `Uint8Array`: a part of a buffer. -/
structure View where
  /-- Which buffer it is of. -/
  buffer : ℕ
  /-- Where it begins. -/
  byteOffset : ℕ
  /-- How many bytes it has. -/
  length : ℕ
deriving DecidableEq, Repr

/-- The view is of a buffer that exists, and is inside it. -/
def View.Valid (m : Memory) (v : View) : Prop :=
  v.buffer < m.length ∧ v.byteOffset+v.length ≤ (content m v.buffer).length

instance (m : Memory) (v : View) : Decidable (v.Valid m) := inferInstanceAs (Decidable (_ ∧ _))

/-- Bytes at a place of a buffer. -/
def read (first count : ℕ) (buffer : List UInt8) : List UInt8 := (buffer.drop first).take count

/-- The bytes of a view. -/
def View.bytes (m : Memory) (v : View) : List UInt8 :=
  read v.byteOffset v.length (content m v.buffer)

/-- A buffer with other bytes at a place. -/
def overwrite (first : ℕ) (bytes buffer : List UInt8) : List UInt8 :=
  buffer.take first++(bytes++buffer.drop (first+bytes.length))

/-- The memory with other bytes in a buffer. -/
def write (buffer first : ℕ) (bytes : List UInt8) (m : Memory) : Memory :=
  m.set buffer (overwrite first bytes (content m buffer))

/-- What the operations throw. -/
inductive RangeError where
  /-- An offset is out of bounds. -/
  | outOfBounds
deriving DecidableEq, Repr

/-- An operation on the memory. -/
abbrev Op (α : Type) := Act RangeError Memory α

/-- `new Uint8Array(length)`. -/
def alloc (length : ℕ) : Op View :=
  fun m => .done ⟨m.length,0,length⟩ (m++[List.replicate length 0])

/-- `Uint8Array.of(...bytes)`: an array with a buffer of its own. -/
def ofBytes (bytes : List UInt8) : Op View :=
  fun m => .done ⟨m.length,0,bytes.length⟩ (m++[bytes])

/-- `new Uint8Array(source)`: a copy. -/
def copyOf (source : View) : Op View :=
  fun m => .done ⟨m.length,0,source.length⟩ (m++[source.bytes m])

/-- `new Uint8Array(buffer)`: a view of all of it. -/
def whole (buffer : ℕ) : Op View := fun m => .done ⟨buffer,0,(content m buffer).length⟩ m

/-- `new Uint8Array(buffer, byteOffset, length)`. -/
def view (buffer byteOffset length : ℕ) : Op View := fun m =>
  if byteOffset+length ≤ (content m buffer).length then .done ⟨buffer,byteOffset,length⟩ m
  else .thrown .outOfBounds m

/-- `target.set(source, offset)`. The bytes of the source are those before the call, also
where it overlaps the target. -/
def View.set (target source : View) (offset : ℕ) : Op Unit := fun m =>
  if offset+source.length ≤ target.length then
    .done () (write target.buffer (target.byteOffset+offset) (source.bytes m) m)
  else .thrown .outOfBounds m

/-- `copyWithin(target, first, last)`. The ranges may overlap. -/
def View.copyWithin (v : View) (target first last : ℕ) : Op Unit := fun m =>
  let count := min (min last v.length-first) (v.length-target)
  .done () (write v.buffer (v.byteOffset+target) (read first count (v.bytes m)) m)

/-- `subarray(first, last)`. -/
def View.subarray (v : View) (first last : ℕ) : View :=
  {v with
    byteOffset := v.byteOffset+min first v.length
    length := min last v.length-min first v.length}

section Buffers

variable {buffer bytes : List UInt8} {first : ℕ}

/-- A write inside a buffer keeps its size. -/
theorem overwrite_length (h : first+bytes.length ≤ buffer.length) :
    (overwrite first bytes buffer).length=buffer.length := by
  simp only [overwrite,List.length_append,List.length_take,List.length_drop]
  omega

/-- What is before a write. -/
theorem overwrite_take (h : first+bytes.length ≤ buffer.length) :
    (overwrite first bytes buffer).take first=buffer.take first :=
  List.take_left' (by rw [List.length_take]; omega)

/-- A read of what comes before a write and of what was written. -/
theorem read_overwrite {n k : ℕ} (h : n+k+bytes.length ≤ buffer.length) :
    read n (k+bytes.length) (overwrite (n+k) bytes buffer)=read n k buffer++bytes := by
  have ht : (buffer.take (n+k)).drop n=read n k buffer := by
    rw [read,List.drop_take,Nat.add_sub_cancel_left]
  have hl : (read n k buffer).length=k := by
    rw [read,List.length_take,List.length_drop]
    omega
  have hd : (overwrite (n+k) bytes buffer).drop n=
      (read n k buffer++bytes)++buffer.drop (n+k+bytes.length) := by
    rw [overwrite,List.drop_append_of_le_length (by rw [List.length_take]; omega),ht,
      List.append_assoc]
  rw [read,hd]
  exact List.take_left' (by rw [List.length_append,hl])

/-- A read of what was written. -/
theorem read_overwritten (h : first+bytes.length ≤ buffer.length) :
    read first bytes.length (overwrite first bytes buffer)=bytes := by
  have hr := @read_overwrite buffer bytes first 0 (by omega)
  rw [Nat.zero_add,Nat.add_zero] at hr
  rw [hr,read,List.take_zero,List.nil_append]

/-- A read after what was written. -/
theorem read_after {n k : ℕ} (h : first+bytes.length ≤ buffer.length)
    (hn : first+bytes.length ≤ n) : read n k (overwrite first bytes buffer)=read n k buffer := by
  obtain ⟨d,rfl⟩ := Nat.exists_eq_add_of_le hn
  have hd : (overwrite first bytes buffer).drop (first+bytes.length)=
      buffer.drop (first+bytes.length) := by
    rw [overwrite,←List.append_assoc]
    exact List.drop_left' (by rw [List.length_append,List.length_take]; omega)
  rw [read,read,←List.drop_drop,hd,List.drop_drop]

end Buffers

section Memories

variable {m : Memory} {v : View}

/-- The bytes of a view are as many as it has. -/
theorem View.Valid.length_bytes (h : v.Valid m) : (v.bytes m).length=v.length := by
  have hl := h.2
  rw [View.bytes,read,List.length_take,List.length_drop]
  omega

/-- The buffer that is written. -/
theorem content_write {b : ℕ} (h : b < m.length) (first : ℕ) (bytes : List UInt8) :
    content (write b first bytes m) b=overwrite first bytes (content m b) := by
  rw [write,content,List.getD_eq_getElem?_getD,List.getElem?_set_self h]
  rfl

/-- The other buffers are left as they are. -/
theorem content_write_other {b c : ℕ} (h : b≠c) (first : ℕ) (bytes : List UInt8) :
    content (write b first bytes m) c=content m c := by
  simp only [write,content,List.getD_eq_getElem?_getD]
  rw [List.getElem?_set_ne h]

/-- A write allocates nothing. -/
theorem length_write (b first : ℕ) (bytes : List UInt8) :
    (write b first bytes m).length=m.length := List.length_set

/-- The buffers that were there before another one was allocated. -/
theorem content_append {b : ℕ} (h : b < m.length) (buffer : List UInt8) :
    content (m++[buffer]) b=content m b := by
  rw [content,content,List.getD_eq_getElem?_getD,List.getElem?_append_left h,
    List.getD_eq_getElem?_getD]

/-- The buffer that was allocated. -/
theorem content_last (m : Memory) (buffer : List UInt8) :
    content (m++[buffer]) m.length=buffer := by
  rw [content,List.getD_eq_getElem?_getD,List.getElem?_concat_length]
  rfl

/-- A view of a buffer that is left as it is. -/
theorem View.bytes_congr {m' : Memory} (h : content m' v.buffer=content m v.buffer) :
    v.bytes m'=v.bytes m := by
  rw [View.bytes,View.bytes,h]

/-- A copy that fits its target. -/
theorem View.set_spec {target source : View} {offset : ℕ}
    (h : offset+source.length ≤ target.length) :
    target.set source offset m=
      .done () (write target.buffer (target.byteOffset+offset) (source.bytes m) m) := if_pos h

/-- A copy that does not fit its target is an error. -/
theorem View.set_thrown {target source : View} {offset : ℕ}
    (h : ¬offset+source.length ≤ target.length) :
    target.set source offset m=.thrown .outOfBounds m := if_neg h

/-- Moving bytes inside a buffer. -/
theorem copyWithin_whole {b size target first count : ℕ} (hs : (content m b).length=size)
    (h : first+count ≤ size) (ht : target+count ≤ size) :
    (⟨b,0,size⟩ : View).copyWithin target first (first+count) m=
      .done () (write b target (read first count (content m b)) m) := by
  have hall : (⟨b,0,size⟩ : View).bytes m=content m b := by
    rw [View.bytes,read,List.drop_zero]
    exact List.take_of_length_le (Nat.le_of_eq hs)
  have hcount : min (min (first+count) size-first) (size-target)=count := by omega
  simp only [View.copyWithin,hall,hcount,Nat.zero_add]

/-- The beginning of a buffer. -/
theorem subarray_whole {b size count : ℕ} (h : count ≤ size) :
    (⟨b,0,size⟩ : View).subarray 0 count=⟨b,0,count⟩ := by
  simp only [View.subarray,Nat.zero_min,Nat.min_eq_left h,Nat.sub_zero,Nat.add_zero]

end Memories

end SpiritMysql.TypedArrays
