import SpiritMysql.SqlLogWriter

/-!
# The buffers of the SQL log

What each operation on the buffer of a connection does with the memory: it leaves the other
buffers as they are, and appending leaves the bytes that are there as they are too.
-/

namespace SpiritMysql.SqlLogWriter

open AsyncAction TypedArrays ReallocAppend InsertionMaps

/-- The array is another one now, of the same buffer or of a new one, and the other buffers
are left as they are. -/
structure Replaces (m : Memory) (buf : View) (m' : Memory) (buf' : View) : Prop where
  valid : buf'.Valid m'
  buffer : buf'.buffer=buf.buffer ∨ m.length ≤ buf'.buffer
  others : ∀ b,b < m.length → b≠buf.buffer → content m' b=content m b
  grows : m.length ≤ m'.length

section Buffers

variable {m : Memory} {buf : View}

/-- An array of other bytes is valid. -/
theorem valid_append (h : buf.Valid m) (bytes : List UInt8) : buf.Valid (m++[bytes]) := by
  refine ⟨?_,?_⟩
  · rw [List.length_append]
    exact Nat.lt_add_right _ h.1
  · rw [content_append h.1]
    exact h.2

/-- The array of the bytes. -/
theorem valid_last (m : Memory) (bytes : List UInt8) :
    View.Valid (m++[bytes]) ⟨m.length,0,bytes.length⟩ := by
  refine ⟨?_,?_⟩
  · rw [List.length_append]
    exact Nat.lt_add_one _
  · rw [content_last]
    exact Nat.le_of_eq (Nat.zero_add _)

/-- The bytes of the array of the bytes. -/
theorem bytes_last (m : Memory) (bytes : List UInt8) :
    View.bytes (m++[bytes]) ⟨m.length,0,bytes.length⟩=bytes := by
  rw [View.bytes,content_last,TypedArrays.read,List.drop_zero]
  exact List.take_length

/-- What an array has when it was moved behind a place of its buffer, and other bytes were
written before that place. -/
theorem read_moved {buffer bytes moved : List UInt8}
    (h : bytes.length+moved.length ≤ buffer.length) :
    read 0 (bytes.length+moved.length) (overwrite 0 bytes (overwrite bytes.length moved buffer))=
      bytes++moved := by
  have hl : (overwrite bytes.length moved buffer).length=buffer.length := overwrite_length h
  have hd : (overwrite 0 bytes (overwrite bytes.length moved buffer)).drop 0=
      bytes++(moved++buffer.drop (bytes.length+moved.length)) := by
    rw [List.drop_zero,overwrite,List.take_zero,List.nil_append,Nat.zero_add,overwrite,
      List.drop_left' (by rw [List.length_take]; omega)]
  rw [TypedArrays.read,hd,←List.append_assoc]
  exact List.take_left' (List.length_append)

/-- What is in front of an array when there is room for a banner. -/
theorem prepend_inside (h : buf.Valid m) (banner : List UInt8)
    (hroom : buf.length+banner.length ≤ (content m buf.buffer).length) :
    prepend buf banner m=.done ⟨buf.buffer,0,buf.length+banner.length⟩
      (write buf.buffer 0 banner (write buf.buffer banner.length (buf.bytes m) (m++[banner]))) := by
  have hc : content (m++[banner]) buf.buffer=content m buf.buffer := content_append h.1 _
  obtain ⟨size,hsize⟩ : ∃ n,(content m buf.buffer).length=n := ⟨_,rfl⟩
  have hv := h.2
  rw [hsize] at hv hroom
  have hmove := @copyWithin_whole (m++[banner]) buf.buffer size banner.length buf.byteOffset
    buf.length (by rw [hc,hsize]) hv (by omega)
  have hread : TypedArrays.read buf.byteOffset buf.length (content (m++[banner]) buf.buffer)=
      buf.bytes m := by rw [hc,View.bytes]
  rw [hread] at hmove
  have hne : buf.buffer≠m.length := Nat.ne_of_lt h.1
  have hbanner : View.bytes (write buf.buffer banner.length (buf.bytes m) (m++[banner]))
      ⟨m.length,0,banner.length⟩=banner := by
    rw [View.bytes_congr (content_write_other hne _ _)]
    exact bytes_last m banner
  have hset := @View.set_spec (write buf.buffer banner.length (buf.bytes m) (m++[banner]))
    ⟨buf.buffer,0,size⟩ ⟨m.length,0,banner.length⟩ 0 (by show 0+banner.length ≤ size; omega)
  rw [hbanner] at hset
  have hsub := @subarray_whole buf.buffer size (buf.length+banner.length) hroom
  have hlen : (content (m++[banner]) buf.buffer).length=size := by rw [hc,hsize]
  simp only [prepend,ofBytes,bind_apply,get_apply,Outcome.andThen_done,branch_apply,whole,hlen,
    if_pos hroom,hmove,hset,pure_apply,hsub]

/-- What is in front of an array when there is no room for a banner. -/
theorem prepend_outside (h : buf.Valid m) (banner : List UInt8)
    (hroom : ¬buf.length+banner.length ≤ (content m buf.buffer).length) :
    prepend buf banner m=.done ⟨m.length+1,0,buf.length+banner.length⟩
      (write (m.length+1) banner.length (buf.bytes m) (write (m.length+1) 0 banner
        (m++[banner]++[List.replicate (buf.length+banner.length) 0]))) := by
  have hc : content (m++[banner]) buf.buffer=content m buf.buffer := content_append h.1 _
  have hl : (m++[banner]).length=m.length+1 := List.length_append
  have hn : ¬buf.length+banner.length ≤ (content (m++[banner]) buf.buffer).length := by
    rw [hc]
    exact hroom
  have hlt := h.1
  have hbanner : View.bytes (m++[banner]++[List.replicate (buf.length+banner.length) 0])
      ⟨m.length,0,banner.length⟩=banner := by
    rw [View.bytes_congr (content_append (by rw [hl]; exact Nat.lt_add_one _) _)]
    exact bytes_last m banner
  have hfirst := @View.set_spec (m++[banner]++[List.replicate (buf.length+banner.length) 0])
    ⟨m.length+1,0,buf.length+banner.length⟩ ⟨m.length,0,banner.length⟩ 0
    (by show 0+banner.length ≤ buf.length+banner.length; omega)
  rw [hbanner] at hfirst
  have hbuf : buf.bytes (write (m.length+1) 0 banner
      (m++[banner]++[List.replicate (buf.length+banner.length) 0]))=buf.bytes m := by
    refine View.bytes_congr ?_
    rw [content_write_other (by omega),content_append (by rw [hl]; omega),hc]
  have hsecond := @View.set_spec (write (m.length+1) 0 banner
      (m++[banner]++[List.replicate (buf.length+banner.length) 0]))
    ⟨m.length+1,0,buf.length+banner.length⟩ buf banner.length
    (by show banner.length+buf.length ≤ buf.length+banner.length; omega)
  rw [hbuf] at hsecond
  change _=Outcome.done () (write (m.length+1) (0+banner.length) _ _) at hsecond
  rw [Nat.zero_add] at hsecond
  simp only [prepend,ofBytes,bind_apply,get_apply,Outcome.andThen_done,branch_apply,if_neg hn,
    alloc,hl,hfirst,hsecond,pure_apply]

/-- A banner is put in front of the bytes of a buffer. -/
theorem prepend_spec (h : buf.Valid m) (banner : List UInt8) :
    ∃ res m',prepend buf banner m=.done res m' ∧ Replaces m buf m' res ∧
      res.byteOffset=0 ∧ res.bytes m'=banner++buf.bytes m := by
  have hlen := h.length_bytes
  have hlt := h.1
  by_cases hroom : buf.length+banner.length ≤ (content m buf.buffer).length
  · have hb : buf.buffer < (m++[banner]).length := by
      rw [List.length_append]
      exact Nat.lt_add_right _ hlt
    have hc : content (m++[banner]) buf.buffer=content m buf.buffer := content_append hlt _
    have hcontent : content (write buf.buffer 0 banner
        (write buf.buffer banner.length (buf.bytes m) (m++[banner]))) buf.buffer=
        overwrite 0 banner (overwrite banner.length (buf.bytes m) (content m buf.buffer)) := by
      rw [content_write (by rw [length_write]; exact hb),content_write hb,hc]
    refine ⟨_,_,prepend_inside h banner hroom,⟨⟨?_,?_⟩,.inl rfl,fun b hlt hb => ?_,?_⟩,rfl,?_⟩
    · rw [length_write,length_write]
      exact hb
    · rw [hcontent,overwrite_length (by rw [overwrite_length (by omega)]; omega),
        overwrite_length (by omega)]
      show 0+(buf.length+banner.length) ≤ _
      omega
    · rw [content_write_other hb.symm,content_write_other hb.symm,content_append hlt]
    · rw [length_write,length_write,List.length_append]
      exact Nat.le_add_right _ _
    · have hr := @read_moved (content m buf.buffer) banner (buf.bytes m) (by omega)
      rw [View.bytes,hcontent]
      show read 0 (buf.length+banner.length) _=_
      rw [Nat.add_comm,←hlen]
      exact hr
  · have hl : (m++[banner]).length=m.length+1 := List.length_append
    have hnew : m.length+1 <
        (m++[banner]++[List.replicate (buf.length+banner.length) 0]).length := by
      rw [List.length_append,hl]
      exact Nat.lt_add_one _
    have hlast : content (m++[banner]++[List.replicate (buf.length+banner.length) 0])
        (m.length+1)=List.replicate (buf.length+banner.length) 0 := by
      rw [←hl]
      exact content_last _ _
    have hcontent : content (write (m.length+1) banner.length (buf.bytes m)
        (write (m.length+1) 0 banner
          (m++[banner]++[List.replicate (buf.length+banner.length) 0]))) (m.length+1)=
        overwrite banner.length (buf.bytes m)
          (overwrite 0 banner (List.replicate (buf.length+banner.length) 0)) := by
      rw [content_write (by rw [length_write]; exact hnew),content_write hnew,hlast]
    have hfirst : (overwrite 0 banner (List.replicate (buf.length+banner.length) 0)).length=
        buf.length+banner.length := by
      rw [overwrite_length (by rw [List.length_replicate]; omega),List.length_replicate]
    refine ⟨_,_,prepend_outside h banner hroom,⟨⟨?_,?_⟩,.inr (Nat.le_add_right _ _),
      fun b hlt hb => ?_,?_⟩,rfl,?_⟩
    · rw [length_write,length_write]
      exact hnew
    · rw [hcontent,overwrite_length (by omega),hfirst]
      exact Nat.le_of_eq (Nat.zero_add _)
    · rw [content_write_other (by omega),content_write_other (by omega),
        content_append (by omega),content_append hlt]
    · rw [length_write,length_write,List.length_append,hl]
      omega
    · have hw := @read_overwritten (List.replicate (buf.length+banner.length) 0) banner 0
        (by rw [List.length_replicate]; omega)
      have hr := @read_overwrite (overwrite 0 banner
        (List.replicate (buf.length+banner.length) 0)) (buf.bytes m) 0 banner.length (by omega)
      rw [hw,Nat.zero_add,hlen,Nat.add_comm banner.length] at hr
      rw [View.bytes,hcontent]
      exact hr

/-- A buffer is moved to its beginning. -/
theorem moveToFront_spec (h : buf.Valid m) :
    ∃ res m',moveToFront buf m=.done res m' ∧ Replaces m buf m' res ∧
      res.byteOffset=0 ∧ res.bytes m'=buf.bytes m := by
  obtain ⟨size,hsize⟩ : ∃ n,(content m buf.buffer).length=n := ⟨_,rfl⟩
  have hv := h.2
  have hlen := h.length_bytes
  rw [hsize] at hv
  have hmove := @copyWithin_whole m buf.buffer size 0 buf.byteOffset buf.length hsize hv (by omega)
  change _=Outcome.done () (write buf.buffer 0 (buf.bytes m) m) at hmove
  have hsub := @subarray_whole buf.buffer size buf.length (by omega)
  refine ⟨⟨buf.buffer,0,buf.length⟩,write buf.buffer 0 (buf.bytes m) m,?_,
    ⟨⟨?_,?_⟩,.inl rfl,fun b _ hb => content_write_other hb.symm _ _,?_⟩,rfl,?_⟩
  · simp only [moveToFront,whole,bind_apply,Outcome.andThen_done,hsize,hmove,pure_apply,hsub]
  · rw [length_write]
    exact h.1
  · rw [content_write h.1,overwrite_length (by omega)]
    show 0+buf.length ≤ _
    omega
  · exact Nat.le_of_eq (length_write _ _ _).symm
  · have hr := @read_overwritten (content m buf.buffer) (buf.bytes m) 0 (by omega)
    rw [View.bytes,content_write h.1]
    show read 0 buf.length _=_
    rw [hlen] at hr
    exact hr

/-- The buffer that is given to the sink has the banner and the bytes. -/
theorem prepare_spec (h : buf.Valid m) (banner : Option (List UInt8)) :
    ∃ res m',prepare buf banner m=.done res m' ∧ Replaces m buf m' res ∧
      res.byteOffset=0 ∧ res.bytes m'=banner.getD []++buf.bytes m := by
  cases banner with
  | some banner => exact prepend_spec h banner
  | none =>
    by_cases h0 : buf.byteOffset=0
    · refine ⟨buf,m,?_,⟨h,.inl rfl,fun _ _ _ => rfl,Nat.le_refl _⟩,h0,rfl⟩
      rw [prepare,branch_apply,if_neg (not_not.mpr h0)]
      rfl
    · rw [prepare,if_pos h0]
      exact moveToFront_spec h

/-- The bytes before a place that is written. -/
theorem read_before {buffer bytes : List UInt8} {first n k : ℕ}
    (h : first+bytes.length ≤ buffer.length) (hn : n+k ≤ first) :
    read n k (overwrite first bytes buffer)=read n k buffer := by
  have ht : ∀ l : List UInt8,read n k l=((l.take first).drop n).take k := by
    intro l
    rw [TypedArrays.read,List.drop_take,List.take_take,Nat.min_eq_left (by omega)]
  rw [ht,ht,overwrite_take h]

/-- If the buffer of a connection can take the data: it has room for them, or a larger one
will have it. -/
def HasCapacity (m : Memory) (buf : View) (data : List UInt8) : Prop :=
  buf.length+data.length ≤ (content m buf.buffer).length ∨ data.length ≤ buf.length ∨
    buf.length%2^32 < 2^31

instance (m : Memory) (buf : View) (data : List UInt8) : Decidable (HasCapacity m buf data) :=
  inferInstanceAs (Decidable (_ ∨ _ ∨ _))

/-- Data are appended, and arrays that end where the buffer ended or before have the same
bytes as before. -/
theorem append_data (h : buf.Valid m) (hf : buf.byteOffset=0) {data : List UInt8}
    (hdata : HasCapacity m buf data) :
    ∃ res m',(do
        let data ← ofBytes data
        reallocAppend buf data true : Op View) m=.done res m' ∧ Replaces m buf m' res ∧
      res.byteOffset=0 ∧ res.bytes m'=buf.bytes m++data ∧ res.length=buf.length+data.length ∧
      ∀ u : View,u.Valid m → (u.buffer=buf.buffer → u.byteOffset+u.length ≤ buf.length) →
        u.Valid m' ∧ u.bytes m'=u.bytes m := by
  have hb : buf.Valid (m++[data]) := valid_append h data
  have hd := valid_last m data
  have hdb := bytes_last m data
  have hc : content (m++[data]) buf.buffer=content m buf.buffer := content_append h.1 _
  have hlen := h.length_bytes
  have hbytes : buf.bytes (m++[data])=buf.bytes m := View.bytes_congr hc
  have hlt := h.1
  have hgrow : m.length < (m++[data]).length := by
    rw [List.length_append]
    exact Nat.lt_add_one _
  by_cases hs : HasSpace (m++[data]) buf ⟨m.length,0,data.length⟩
  · have hsize := hs
    unfold HasSpace at hsize
    rw [hc,hf,Nat.zero_add] at hsize
    change buf.length+data.length ≤ _ at hsize
    have hrun := @append_run _ buf ⟨m.length,0,data.length⟩ true hs
    rw [hdb,hf,Nat.zero_add] at hrun
    have hcontent : content (write buf.buffer buf.length data (m++[data])) buf.buffer=
        overwrite buf.length data (content m buf.buffer) := by
      rw [content_write hb.1,hc]
    refine ⟨_,_,hrun,⟨⟨?_,?_⟩,.inl rfl,fun b hlt hb => ?_,?_⟩,rfl,?_,rfl,fun u hu he => ?_⟩
    · rw [length_write]
      exact hb.1
    · rw [hcontent,overwrite_length (by omega)]
      show 0+(buf.length+data.length) ≤ _
      omega
    · rw [content_write_other hb.symm,content_append hlt]
    · rw [length_write]
      omega
    · have hr := @read_overwrite (content m buf.buffer) data 0 buf.length (by omega)
      rw [Nat.zero_add] at hr
      rw [View.bytes,hcontent,View.bytes,hf]
      exact hr
    · have hl : u.buffer < (write buf.buffer buf.length data (m++[data])).length := by
        have hlt := hu.1
        rw [length_write]
        omega
      by_cases hbuf : u.buffer=buf.buffer
      · have hend := he hbuf
        have hin := hu.2
        rw [hbuf] at hin
        refine ⟨⟨hl,?_⟩,?_⟩
        · rw [hbuf,hcontent,overwrite_length (by omega)]
          exact hin
        · rw [View.bytes,View.bytes,hbuf,hcontent]
          exact read_before (by omega) hend
      · have hsame : content (write buf.buffer buf.length data (m++[data])) u.buffer=
            content m u.buffer := by
          rw [content_write_other (fun e => hbuf e.symm),content_append hu.1]
        exact ⟨⟨hl,by rw [hsame]; exact hu.2⟩,View.bytes_congr hsame⟩
  · have hroom : ¬HasRoom (m++[data]) buf ⟨m.length,0,data.length⟩ := by
      intro hr
      refine hs ?_
      unfold HasRoom at hr
      unfold HasSpace
      rw [hf,Nat.zero_add]
      exact hr
    have hcap : buf.length+data.length ≤ capacity true buf.length data.length := by
      refine (capacity_iff _ _ _).mpr (.inr ?_)
      refine hdata.resolve_left (fun hle => hroom ?_)
      unfold HasRoom
      rw [hc]
      exact hle
    obtain ⟨size,hsize⟩ : ∃ n,capacity true buf.length data.length=n := ⟨_,rfl⟩
    rw [hsize] at hcap
    have hrun := @enlarge_done _ buf ⟨m.length,0,data.length⟩ true hb hd hroom size hsize hcap
    rw [hdb] at hrun
    have hlast : (content (moved (m++[data]) buf size) (m++[data]).length)=
        overwrite 0 (buf.bytes m) (List.replicate size 0) := by rw [content_moved,hbytes]
    have hlength : (overwrite 0 (buf.bytes m) (List.replicate size 0)).length=size := by
      rw [overwrite_length (by rw [List.length_replicate]; omega),List.length_replicate]
    have hnew : (m++[data]).length < (moved (m++[data]) buf size).length := by
      rw [moved,length_write,@List.length_append _ (m++[data])]
      exact Nat.lt_add_one _
    have hother : ∀ b,b < m.length →
        content (write (m++[data]).length buf.length data (moved (m++[data]) buf size)) b=
          content m b := by
      intro b hlt
      rw [content_write_other (by omega),content_moved_other (by omega),content_append hlt]
    refine ⟨_,_,hrun,⟨⟨?_,?_⟩,.inr (Nat.le_of_lt hgrow),fun b hlt _ => hother b hlt,?_⟩,rfl,?_,
      rfl,fun u hu _ => ⟨⟨?_,?_⟩,View.bytes_congr (hother _ hu.1)⟩⟩
    · rw [length_write]
      exact hnew
    · rw [content_write hnew,hlast,overwrite_length (by omega),hlength]
      show 0+(buf.length+data.length) ≤ _
      omega
    · rw [length_write]
      omega
    · have hw := @read_overwritten (List.replicate size 0) (buf.bytes m) 0
        (by rw [List.length_replicate]; omega)
      have hr := @read_overwrite (overwrite 0 (buf.bytes m) (List.replicate size 0)) data 0
        buf.length (by omega)
      rw [hlen] at hw
      rw [hw,Nat.zero_add] at hr
      rw [View.bytes,content_write hnew,hlast]
      exact hr
    · have hu1 := hu.1
      rw [length_write]
      omega
    · rw [hother _ hu.1]
      exact hu.2

/-- Data that the buffer cannot take leave the bytes of all buffers as they are. -/
theorem append_thrown (h : buf.Valid m) {data : List UInt8} (hdata : ¬HasCapacity m buf data) :
    ∃ m',(do
        let data ← ofBytes data
        reallocAppend buf data true : Op View) m=.thrown .outOfBounds m' ∧
      m.length ≤ m'.length ∧ ∀ b,b < m.length → content m' b=content m b := by
  have hb : buf.Valid (m++[data]) := valid_append h data
  have hc : content (m++[data]) buf.buffer=content m buf.buffer := content_append h.1 _
  have hgrow : m.length < (m++[data]).length := by
    rw [List.length_append]
    exact Nat.lt_add_one _
  unfold HasCapacity at hdata
  rw [not_or] at hdata
  have hroom : ¬HasRoom (m++[data]) buf ⟨m.length,0,data.length⟩ := by
    unfold HasRoom
    rw [hc]
    exact hdata.1
  have hcap : ¬buf.length+data.length ≤ capacity true buf.length data.length := by
    intro hle
    rcases (capacity_iff _ _ _).mp hle with he | he
    · cases he
    · exact hdata.2 he
  have hrun := @enlarge_thrown _ buf ⟨m.length,0,data.length⟩ true hb hroom hcap
  refine ⟨_,hrun,?_,fun b hlt => ?_⟩
  · rw [moved,length_write,@List.length_append _ (m++[data])]
    omega
  · rw [content_moved_other (by omega),content_append hlt]

end Buffers

end SpiritMysql.SqlLogWriter
