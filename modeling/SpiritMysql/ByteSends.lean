import SpiritMysql.PacketSends

/-!
# Sending a byte array

`sendWithData()` of a byte array hands over the packets of the prefix
followed by the array, or leaves the last of them open. The exception is an
array that does not fit the buffer after the queue and fits it alone: when it
can wait, it is put to the buffer in a way that nothing finds later.
-/

namespace SpiritMysql.ByteSends

open AsyncAction ByteCodec Errors PacketFraming PacketSends Writer
open PacketStream (frame frame_length)
open Reader (maxPayload bufferLen)

/-- A part from the beginning. -/
theorem subarray_front {n : ℕ} {bytes : List UInt8} (h : n ≤ bytes.length) :
    subarray 0 n bytes=bytes.take n := by
  have hp : position bytes.length (n : ℤ)=n := by
    rw [position,if_neg (by omega),Int.toNat_natCast]
    exact Nat.min_eq_left h
  have hz : position bytes.length 0=0 := by
    rw [position,if_neg (by omega)]
    exact Nat.zero_min _
  rw [subarray,hp,hz,List.drop_zero]

/-- A part to the end. -/
theorem subarray_back {n : ℕ} {bytes : List UInt8} (h : n ≤ bytes.length) :
    subarray n bytes.length bytes=bytes.drop n := by
  have hp : position bytes.length (n : ℤ)=n := by
    rw [position,if_neg (by omega),Int.toNat_natCast]
    exact Nat.min_eq_left h
  have hl : position bytes.length (bytes.length : ℤ)=bytes.length := by
    rw [position,if_neg (by omega),Int.toNat_natCast]
    exact Nat.min_self _
  rw [subarray,hp,hl,List.take_length]

/-- One full packet. -/
theorem bytesLoop_step {s : State} {q pre data : List UInt8} (fuel : ℕ) (h : Opened s q pre)
    (hb : 4 ≤ s.buffer.length) (hp : pre.length ≤ maxPayload)
    (hm : maxPayload ≤ pre.length+data.length) :
    ∃ t,bytesLoop (fuel+1) (pre.length+data.length) data s=
        bytesLoop fuel (data.drop (maxPayload-pre.length)).length
          (data.drop (maxPayload-pre.length)) t ∧
      Opened t [] [] ∧
      Sent s (q++frame (.ofNat s.sequenceId,pre++data.take (maxPayload-pre.length))) 1 t := by
  obtain ⟨u,hu,ho,hs⟩ := sendCurrent_spec h maxPayload
  have hd : maxPayload-pre.length ≤ data.length := by omega
  have hl : (pre++data.take (maxPayload-pre.length)).length=maxPayload := by
    rw [List.length_append,List.length_take]
    omega
  have hf : (header maxPayload s.sequenceId++pre)++data.take (maxPayload-pre.length)=
      frame (.ofNat s.sequenceId,pre++data.take (maxPayload-pre.length)) := by
    rw [←header_frame s.sequenceId hl.le,hl,List.append_assoc]
  refine ⟨{u with out := u.out++data.take (maxPayload-pre.length), bufferStart := 0,
                  bufferEnd := 4},?_,?_,?_⟩
  · rw [bytesLoop,if_pos hm]
    simp only [bind_apply,hu,Outcome.andThen_done,get_apply,ho.chunk hp,
      subarray_front hd,subarray_back hd,sendData,setBounds,modify_apply]
  · have hz := opened_empty (s := {u with out := u.out++data.take (maxPayload-pre.length)})
      (by rw [hs.size]; exact hb)
    exact hz
  · refine ⟨?_,hs.number,hs.size,hs.compression⟩
    show u.out++data.take (maxPayload-pre.length)=_
    rw [hs.out,List.append_assoc,List.append_assoc,hf]

/-- The loop hands over all full packets. -/
theorem bytesLoop_spec {s : State} {q pre data : List UInt8} {fuel : ℕ} (h : Opened s q pre)
    (hb : 4 ≤ s.buffer.length) (hp : pre.length ≤ maxPayload)
    (hm : maxPayload ≤ pre.length+data.length) (hf : pre.length+data.length < fuel) :
    ∃ t E rest,bytesLoop fuel (pre.length+data.length) data s=.done (rest.length,rest) t ∧
      rest.length < maxPayload ∧ Opened t [] [] ∧
      Sent s E ((pre.length+data.length)/maxPayload) t ∧
      E++emission t.sequenceId rest=q++emission s.sequenceId (pre++data) := by
  induction fuel generalizing s q pre data with
  | zero => omega
  | succ fuel ih =>
    obtain ⟨t,ht,ho,hs⟩ := bytesLoop_step fuel h hb hp hm
    have hM := maxPayload_pos
    have hl : (pre++data.take (maxPayload-pre.length)).length=maxPayload := by
      rw [List.length_append,List.length_take]
      omega
    have he : emission s.sequenceId (pre++data)=
        frame (.ofNat s.sequenceId,pre++data.take (maxPayload-pre.length))++
          emission (s.sequenceId+1) (data.drop (maxPayload-pre.length)) := by
      rw [←emission_full hl,List.append_assoc,List.take_append_drop]
    have hr : (data.drop (maxPayload-pre.length)).length=
        pre.length+data.length-maxPayload := by
      rw [List.length_drop]
      omega
    have hc : (pre.length+data.length)/maxPayload=
        1+(data.drop (maxPayload-pre.length)).length/maxPayload := by
      rw [hr,Nat.div_eq_sub_div hM hm,Nat.add_comm]
    rw [ht]
    by_cases hn : (data.drop (maxPayload-pre.length)).length < maxPayload
    · obtain ⟨fuel,rfl⟩ : ∃ k,fuel=k+1 := ⟨fuel-1,by omega⟩
      refine ⟨t,q++frame (.ofNat s.sequenceId,pre++data.take (maxPayload-pre.length)),_,?_,hn,
        ho,?_,?_⟩
      · rw [bytesLoop,if_neg (by omega)]
        rfl
      · rw [hc,Nat.div_eq_of_lt hn,Nat.add_zero]
        exact hs
      · rw [he,hs.number,List.append_assoc]
    · obtain ⟨u,E,rest,hu,hrest,hou,hsu,heu⟩ := @ih t [] [] (data.drop (maxPayload-pre.length)) ho
        (by rw [hs.size]; exact hb) (Nat.zero_le _)
        (by simp only [List.length_nil]; omega) (by simp only [List.length_nil]; omega)
      simp only [List.length_nil,Nat.zero_add,List.nil_append] at hu hsu heu
      refine ⟨u,q++frame (.ofNat s.sequenceId,pre++data.take (maxPayload-pre.length))++E,rest,hu,
        hrest,hou,?_,?_⟩
      · rw [hc]
        exact hs.trans hsu
      · rw [List.append_assoc,heu,he,hs.number,List.append_assoc]

/-- The last packet is too long for the buffer after the queue, and short
enough to wait there alone. -/
def Strays (canWait : Bool) (s : State) (data : List UInt8) : Prop :=
  canWait=true ∧ s.compression=false ∧ s.buffer.length < s.bufferEnd+data.length ∧
    data.length+maxCanWaitPacketPreludeBytes ≤ s.buffer.length

instance (canWait : Bool) (s : State) (data : List UInt8) : Decidable (Strays canWait s data) :=
  inferInstanceAs (Decidable (_ ∧ _ ∧ _ ∧ _))

/-- The last packet of a byte array is sent or waits, unless it strays. -/
theorem lastBytes_spec {s : State} {q pre data : List UInt8} (canWait : Bool) (h : Opened s q pre)
    (hm : pre.length+data.length < maxPayload) (hs : ¬Strays canWait s data) :
    ∃ w t,lastBytes canWait (pre.length+data.length) data s=.done w t ∧
      (w=true → canWait=true) ∧
      Ended s (q++emission s.sequenceId (pre++data)) 1 w t := by
  have hl : (pre++data).length=pre.length+data.length := List.length_append
  have he : emission s.sequenceId (pre++data)=frame (.ofNat s.sequenceId,pre++data) :=
    emission_short (by omega)
  have hp : s.bufferStart+4+(pre.length+data.length)=s.bufferEnd+data.length := by
    rw [h.start,h.last]
    omega
  by_cases hf : s.bufferEnd+data.length ≤ s.buffer.length
  · obtain ⟨t,ht,ho,hst⟩ := h.extend hf
    have hb : lastBytes canWait (pre.length+data.length) data s=
        (if (canWait && t.hasRoom)=true then pure true else
          (do sendCurrent (pre.length+data.length); finish) : Write Bool) t := by
      have hx := ht
      rw [bind_apply,set_spec hf] at hx
      simp only [lastBytes,bind_apply,get_apply,Outcome.andThen_done,branch_apply,hp,if_pos hf,
        set_spec hf]
      rw [Outcome.andThen_done] at hx
      simp only [hx,bind_apply,get_apply,Outcome.andThen_done,branch_apply]
    by_cases hw : (canWait && t.hasRoom)=true
    · refine ⟨true,t,?_,fun _ => (Bool.and_eq_true_iff.mp hw).1,?_⟩
      · rw [hb,if_pos hw]
        rfl
      · rw [he]
        have hx := hst.waits ho (by omega) (Bool.and_eq_true_iff.mp hw).2
        rwa [hst.number] at hx
    · obtain ⟨u,hu,-,hsu⟩ := sendCurrent_spec ho (pre.length+data.length)
      refine ⟨false,{u with bufferStart := 0, bufferEnd := 0},?_,(fun hx => by cases hx),?_⟩
      · rw [hb,if_neg hw]
        simp only [bind_apply,hu,Outcome.andThen_done]
        rfl
      · have hx := hst.trans hsu
        rw [hst.number,Nat.add_zero,←hl,header_frame _ (by omega),←he,List.nil_append] at hx
        exact Sent.ended ⟨hx.out,hx.number,hx.size,hx.compression⟩ rfl
  · obtain ⟨u,hu,-,hsu⟩ := sendCurrent_spec h (pre.length+data.length)
    have hc : ¬(canWait && !s.compression &&
        decide (data.length+maxCanWaitPacketPreludeBytes ≤ s.buffer.length))=true := by
      intro hc
      simp only [Bool.and_eq_true,Bool.not_eq_true',decide_eq_true_eq] at hc
      exact hs ⟨hc.1.1,hc.1.2,by omega,hc.2⟩
    refine ⟨false,{u with out := u.out++data, bufferStart := 0, bufferEnd := 0},?_,
      (fun hx => by cases hx),?_⟩
    · simp only [lastBytes,bind_apply,get_apply,Outcome.andThen_done,branch_apply,hp,if_neg hf,
        hu,if_neg hc]
      rfl
    · refine Sent.ended ⟨?_,hsu.number,hsu.size,hsu.compression⟩ rfl
      show u.out++data=_
      rw [hsu.out,he,←header_frame _ (by omega),hl]
      simp only [List.append_assoc]

/-- A packet that strays is not handed over, and nothing is queued. -/
theorem lastBytes_strays {s : State} {q pre data : List UInt8} {canWait : Bool}
    (h : Opened s q pre) (hs : Strays canWait s data) :
    ∃ t,lastBytes canWait (pre.length+data.length) data s=.done true t ∧ Stable t ∧
      Sent s (q++(header (pre.length+data.length) s.sequenceId++pre)) 1 t := by
  obtain ⟨hw,hc,hf,hd⟩ := hs
  have hp : s.bufferStart+4+(pre.length+data.length)=s.bufferEnd+data.length := by
    rw [h.start,h.last]
    omega
  obtain ⟨u,hu,-,hsu⟩ := sendCurrent_spec h (pre.length+data.length)
  have hz : 0+data.length ≤ u.buffer.length := by
    rw [hsu.size]
    omega
  refine ⟨{u with buffer := splice 0 data u.buffer, bufferStart := data.length,
                  bufferEnd := data.length},?_,rfl,
    ⟨hsu.out,hsu.number,(splice_length hz).trans hsu.size,hsu.compression⟩⟩
  simp only [lastBytes,bind_apply,get_apply,Outcome.andThen_done,branch_apply,hp,
    if_neg (Nat.not_le.mpr hf),hu,hw,hc,hd,Bool.not_false,Bool.and_self,decide_true,if_true,
    set_spec hz]
  rfl

/-- `sendWithData()` of a byte array whose only packet strays. -/
theorem sendBytes_strays {s : State} {q pre data : List UInt8} {canWait : Bool}
    (h : Opened s q pre) (hm : pre.length+data.length < maxPayload) (hs : Strays canWait s data) :
    ∃ t,sendBytes canWait data s=.done true t ∧ Stable t ∧
      Sent s (q++(header (pre.length+data.length) s.sequenceId++pre)) 1 t := by
  obtain ⟨t,ht,hst,hsent⟩ := lastBytes_strays h hs
  refine ⟨t,?_,hst,hsent⟩
  simp only [sendBytes,bind_apply,get_apply,Outcome.andThen_done,h.filled,bytesLoop,
    if_neg (Nat.not_le.mpr hm),pure_apply]
  exact ht

/-- `sendWithData()` of a byte array, when its last packet does not stray. -/
theorem sendBytes_spec {s : State} {q pre : List UInt8} (canWait : Bool) (data : List UInt8)
    (h : Opened s q pre) (hb : 4 ≤ s.buffer.length) (hp : pre.length ≤ maxPayload)
    (hs : pre.length+data.length < maxPayload → ¬Strays canWait s data) :
    ∃ w t,sendBytes canWait data s=.done w t ∧ (w=true → canWait=true) ∧
      Ended s (q++emission s.sequenceId (pre++data)) ((pre++data).length/maxPayload+1) w t := by
  have hl : (pre++data).length=pre.length+data.length := List.length_append
  by_cases hm : pre.length+data.length < maxPayload
  · obtain ⟨w,t,ht,hw,he⟩ := lastBytes_spec canWait h hm (hs hm)
    refine ⟨w,t,?_,hw,?_⟩
    · simp only [sendBytes,bind_apply,get_apply,Outcome.andThen_done,h.filled,bytesLoop,
        if_neg (Nat.not_le.mpr hm),pure_apply]
      exact ht
    · rw [hl,Nat.div_eq_of_lt hm]
      exact he
  · obtain ⟨u,E,rest,hu,hrest,ho,hsu,heu⟩ := bytesLoop_spec h hb hp (Nat.not_lt.mp hm)
      (Nat.lt_succ_self _)
    have hz : ([] : List UInt8).length+rest.length=rest.length := Nat.zero_add _
    have hn : ¬Strays canWait u rest := by
      rintro ⟨-,-,hx,hy⟩
      have hbe : u.bufferEnd=4 := ho.last
      unfold maxCanWaitPacketPreludeBytes at hy
      omega
    obtain ⟨w,t,ht,hw,he⟩ := @lastBytes_spec u [] [] rest canWait ho (by omega) hn
    rw [hz] at ht
    refine ⟨w,t,?_,hw,?_⟩
    · simp only [sendBytes,bind_apply,get_apply,Outcome.andThen_done,h.filled,hu]
      exact ht
    · have hx := hsu.andEnded he
      rw [List.nil_append,List.nil_append,heu,←hl] at hx
      exact hx

end SpiritMysql.ByteSends
