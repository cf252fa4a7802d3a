import SpiritMysql.PacketSends

/-!
# Sending a stream

`sendWithData()` of a reader or a stream pipes its chunks to the connection.
All packets get the size that is left, so after full packets only there is
no empty packet.
-/

namespace SpiritMysql.StreamSends

open AsyncAction ByteCodec Errors PacketFraming PacketSends Writer
open PacketStream (frame frame_length)
open Reader (maxPayload bufferLen)

/-- Reading from a stream gives some of the wanted bytes. -/
theorem readStream_spec {s : State} {c : ℕ} {chunk : List UInt8} {chunks : List (List UInt8)}
    (hc : 0 < c) (hr : s.bufferEnd < s.buffer.length) (hn : ∀ x ∈ chunk::chunks,x≠[]) :
    ∃ value rest t,readStream s.bufferEnd (s.bufferEnd+c) (chunk::chunks) s=.done (value,rest) t ∧
      0 < value.length ∧ value.length ≤ c ∧
      value++rest.flatten=(chunk::chunks).flatten ∧ (∀ x ∈ rest,x≠[]) ∧
      t={s with buffer := t.buffer} ∧ t.buffer.length=s.buffer.length ∧
      t.buffer.take (s.bufferEnd+value.length)=s.buffer.take s.bufferEnd++value := by
  have hfirst : position s.buffer.length (s.bufferEnd : ℤ)=s.bufferEnd := by
    rw [position,if_neg (by omega)]
    omega
  have hlast : position s.buffer.length ((s.bufferEnd : ℤ)+c)=
      min (s.bufferEnd+c) s.buffer.length := by
    rw [position,if_neg (by omega)]
    omega
  have hview : (subarray s.bufferEnd (s.bufferEnd+c) s.buffer).length=
      min (s.bufferEnd+c) s.buffer.length-s.bufferEnd := by
    rw [subarray,hfirst,hlast,List.length_drop,List.length_take]
    omega
  obtain ⟨n,hv⟩ : ∃ n,n=(subarray s.bufferEnd (s.bufferEnd+c) s.buffer).length := ⟨_,rfl⟩
  have hne : subarray s.bufferEnd (s.bufferEnd+c) s.buffer≠[] := by
    refine List.length_pos_iff.mp ?_
    omega
  have hchunk : chunk≠[] := hn chunk List.mem_cons_self
  have hcl := List.length_pos_iff.mpr hchunk
  have hvl : (chunk.take n).length=min n chunk.length := List.length_take
  have hz : s.bufferEnd+(chunk.take n).length ≤ s.buffer.length := by omega
  refine ⟨chunk.take n,if chunk.drop n=[] then chunks else chunk.drop n::chunks,
    {s with buffer := splice s.bufferEnd (chunk.take n) s.buffer},?_,by omega,by omega,?_,?_,rfl,
    splice_length hz,?_⟩
  · simp only [readStream,bind_apply,get_apply,Outcome.andThen_done,branch_apply,if_neg hne,
      hfirst,←hv,set_spec hz,pure_apply]
  · rw [List.flatten_cons]
    split
    · rename_i hd
      rw [List.take_of_length_le (List.drop_eq_nil_iff.mp hd)]
    · rw [List.flatten_cons,←List.append_assoc,List.take_append_drop]
  · intro x hx
    split at hx
    · exact hn x (List.mem_cons_of_mem _ hx)
    · rcases List.mem_cons.mp hx with rfl | hx
      · assumption
      · exact hn x (List.mem_cons_of_mem _ hx)
  · show (splice s.bufferEnd (chunk.take n) s.buffer).take _=_
    rw [splice,←List.append_assoc]
    refine List.take_left' ?_
    rw [List.length_append,List.length_take]
    omega

/-- The first bytes of a payload, up to a full packet. -/
theorem take_min_length {n : ℕ} (l : List UInt8) : l.take (min l.length n)=l.take n := by
  by_cases h : l.length ≤ n
  · rw [Nat.min_eq_left h,List.take_length,List.take_of_length_le h]
  · rw [Nat.min_eq_right (by omega)]

/-- The bytes of a payload after a full packet. -/
theorem drop_min_length {n : ℕ} (l : List UInt8) : l.drop (min l.length n)=l.drop n := by
  by_cases h : l.length ≤ n
  · rw [Nat.min_eq_left h,List.drop_length,List.drop_eq_nil_of_le h]
  · rw [Nat.min_eq_right (by omega)]

/-- A stream is piped to the connection. What is in the buffer goes before
its first bytes. -/
theorem pipe_spec {s : State} {fuel c r : ℕ} {chunks : List (List UInt8)} (hs : s.bufferStart=0)
    (hr : s.bufferEnd < s.buffer.length) (hb : 4 < s.buffer.length) (hc : 0 < c)
    (hn : ∀ x ∈ chunks,x≠[]) (hl : chunks.flatten.length=c+r) (hf : c+r < fuel) :
    ∃ t n,pipe fuel c r chunks s=.done () t ∧
      Sent s (s.buffer.take s.bufferEnd++(chunks.flatten.take c++
        pieces s.sequenceId (chunks.flatten.drop c))) n t := by
  induction fuel generalizing s c r chunks with
  | zero => omega
  | succ fuel ih =>
    match chunks with
    | [] =>
      rw [List.flatten_nil,List.length_nil] at hl
      omega
    | chunk::chunks =>
      obtain ⟨value,rest,u,hu,hv0,hvc,hj,hrn,hue,hul,hut⟩ := readStream_spec hc hr hn
      have hbl : value.length+rest.flatten.length=c+r := by
        rw [←hl,←hj,List.length_append]
      obtain ⟨v,hv⟩ : ∃ v : State,v={u with out := s.out++(s.buffer.take s.bufferEnd++value)} :=
        ⟨_,rfl⟩
      have hsend : sendValue s.bufferEnd value u=.done () v := by
        have huo : u.out=s.out := by rw [hue]
        unfold sendValue
        by_cases hp : 0 < s.bufferEnd
        · rw [if_pos hp,hv,←huo,←hut]
          rfl
        · have hz : s.bufferEnd=0 := by omega
          rw [if_neg hp,hv,hz,List.take_zero,List.nil_append,←huo]
          rfl
      have hvq : v.sequenceId=s.sequenceId := by rw [hv,hue]
      have hvb : v.buffer.length=s.buffer.length := by rw [hv]; exact hul
      have hvs : Sent s (s.buffer.take s.bufferEnd++value) 0 v := by
        refine ⟨by rw [hv],hvq,hvb,?_⟩
        rw [hv,hue]
      have hcast : (c : ℤ)-(value.length : ℤ)=((c-value.length : ℕ) : ℤ) := by omega
      have hrun : pipe (fuel+1) c r (chunk::chunks) s=
          (if (0 : ℤ) < ((c-value.length : ℕ) : ℤ) then
            (do setBounds 0 0; pipe fuel ((c-value.length : ℕ) : ℤ) r rest)
          else if r=0 then pure ()
          else (do
            setBounds 0 4
            setHeader (min r maxPayload)
            pipe fuel (min r maxPayload : ℕ) (r-min r maxPayload) rest) : Write Unit) v := by
        simp only [pipe,bind_apply,get_apply,Outcome.andThen_done,hu,hsend,hcast]
      rw [hrun]
      by_cases hm : 0 < c-value.length
      · obtain ⟨t,n,ht,hst⟩ := @ih {v with bufferStart := 0, bufferEnd := 0} (c-value.length) r rest
          rfl (by show 0 < v.buffer.length; omega) (by show 4 < v.buffer.length; omega) hm hrn
          (by omega) (by omega)
        refine ⟨t,0+n,?_,?_⟩
        · rw [if_pos (by omega)]
          exact ht
        · have hx := hvs.trans (t := v) ⟨hst.out,hst.number,hst.size,hst.compression⟩
          rw [←hj,List.take_append,List.take_of_length_le hvc,List.drop_append,
            List.drop_eq_nil_of_le hvc,List.nil_append]
          rw [List.take_zero,List.nil_append,hvq] at hx
          simpa only [List.append_assoc] using hx
      · have hcv : value.length=c := by omega
        have htake : (chunk::chunks).flatten.take c=value := by
          rw [←hj]
          exact List.take_left' hcv
        have hdrop : (chunk::chunks).flatten.drop c=rest.flatten := by
          rw [←hj]
          exact List.drop_left' hcv
        rw [if_neg (by omega),htake,hdrop]
        by_cases hr0 : r=0
        · have hz : rest.flatten=[] := List.length_eq_zero_iff.mp (by omega)
          rw [if_pos hr0,hz,pieces_nil,List.append_nil]
          exact ⟨v,0,rfl,hvs⟩
        · rw [if_neg hr0]
          have ho : Opened {v with bufferStart := 0, bufferEnd := 4} [] [] :=
            opened_empty (by omega)
          obtain ⟨w,hw,how,hsw,htw⟩ := setHeader_spec ho (min r maxPayload)
          have hrl : rest.flatten.length=r := by omega
          have hM := maxPayload_pos
          have hwe : w.bufferEnd=4 := how.last
          obtain ⟨t,n,ht,hst⟩ := @ih w (min r maxPayload) (r-min r maxPayload) rest how.start
            (by rw [hwe,hsw.size]; show 4 < v.buffer.length; omega)
            (by rw [hsw.size]; show 4 < v.buffer.length; omega) (by omega) hrn (by omega) (by omega)
          refine ⟨t,0+(1+n),?_,?_⟩
          · simp only [bind_apply,setBounds,modify_apply,Outcome.andThen_done,hw]
            exact ht
          · have hne : rest.flatten≠[] := by
              intro hx
              rw [hx,List.length_nil] at hrl
              omega
            have hp : (rest.flatten.take maxPayload).length=min r maxPayload := by
              rw [List.length_take,hrl,Nat.min_comm]
            have hfr : header (min r maxPayload) v.sequenceId++rest.flatten.take maxPayload=
                frame (.ofNat v.sequenceId,rest.flatten.take maxPayload) := by
              rw [←hp]
              exact header_frame _ (by rw [hp]; exact Nat.min_le_right _ _)
            have hwn : w.sequenceId=v.sequenceId+1 := hsw.number
            have hx := hsw.trans hst
            rw [htw,←hrl,take_min_length,drop_min_length,hrl,hwn,List.nil_append,
              List.nil_append,List.append_nil,←List.append_assoc] at hx
            have hy := hvs.trans (t := v) ⟨hx.out,hx.number,hx.size,hx.compression⟩
            rw [pieces_cons hne,←hvq,←hfr]
            simpa only [List.append_assoc] using hy

/-- `sendWithData()` of a stream that is not empty, after a prefix that
leaves room in its packet. -/
theorem sendStream_spec {s : State} {q pre : List UInt8} {size : ℕ} {chunks : List (List UInt8)}
    (canWait : Bool) (h : Opened s q pre) (hb : 4 < s.buffer.length)
    (hp : pre.length < maxPayload) (hn : ∀ x ∈ chunks,x≠[]) (hl : chunks.flatten.length=size)
    (hz : 0 < size) :
    ∃ t n,sendStream canWait size chunks s=.done false t ∧ Stable t ∧
      Sent s (q++pieces s.sequenceId (pre++chunks.flatten)) n t := by
  obtain ⟨u,hu,ho,hs,ht⟩ := setHeader_spec h (min (pre.length+size) maxPayload)
  obtain ⟨c,hcd⟩ : ∃ c,c=min (pre.length+size) maxPayload-pre.length := ⟨_,rfl⟩
  have hc : 0 < c := by omega
  have hcast : ((min (pre.length+size) maxPayload : ℕ) : ℤ)-(pre.length : ℤ)=(c : ℤ) := by omega
  have hul : u.bufferEnd=s.bufferEnd := ho.last.trans h.last.symm
  have hall : pre++chunks.flatten≠[] := by
    intro hx
    have hy := congrArg List.length hx
    rw [List.length_append,List.length_nil] at hy
    omega
  have htake : (pre++chunks.flatten).take maxPayload=pre++chunks.flatten.take c := by
    rw [List.take_append,List.take_of_length_le hp.le]
    congr 1
    rw [←take_min_length,hcd]
    congr 1
    omega
  have hdrop : (pre++chunks.flatten).drop maxPayload=chunks.flatten.drop c := by
    rw [List.drop_append,List.drop_eq_nil_of_le hp.le,List.nil_append,←drop_min_length,hcd]
    congr 1
    omega
  have hfl : (pre++chunks.flatten.take c).length=min (pre.length+size) maxPayload := by
    rw [List.length_append,List.length_take]
    omega
  have hpieces : (q++(header (min (pre.length+size) maxPayload) s.sequenceId++pre))++
      (chunks.flatten.take c++pieces (s.sequenceId+1) (chunks.flatten.drop c))=
      q++pieces s.sequenceId (pre++chunks.flatten) := by
    rw [pieces_cons hall,htake,hdrop,←header_frame s.sequenceId
      (by rw [hfl]; exact Nat.min_le_right _ _),hfl]
    simp only [List.append_assoc]
  -- the state in which the pipe begins: the queue is flushed or it is in the first half
  obtain ⟨w,H,hw,hws,hwe,hH⟩ : ∃ (w : State) (H : List UInt8),
      (doWhen (u.buffer.length < 2*u.bufferEnd) (do
        sendPackets u.bufferEnd
        setBounds 0 0) : Write Unit) {u with bufferStart := 0, bufferEnd := u.bufferEnd}=.done () w ∧
      w.bufferStart=0 ∧ w.bufferEnd < w.buffer.length ∧
      H++w.buffer.take w.bufferEnd=q++(header (min (pre.length+size) maxPayload) s.sequenceId++pre) ∧
      Sent s H 1 w := by
    by_cases hf : u.buffer.length < 2*u.bufferEnd
    · refine ⟨{u with bufferStart := 0, bufferEnd := 0, out := u.out++u.buffer.take u.bufferEnd},
        u.buffer.take u.bufferEnd,?_,rfl,?_,?_,?_⟩
      · rw [doWhen,if_pos hf]
        rfl
      · show 0 < u.buffer.length
        rw [hs.size]
        omega
      · show u.buffer.take u.bufferEnd++u.buffer.take 0=_
        rw [List.take_zero,List.append_nil,ht]
      · have hx := hs.out
        rw [List.append_nil] at hx
        refine ⟨?_,hs.number,hs.size,hs.compression⟩
        show u.out++u.buffer.take u.bufferEnd=_
        rw [hx]
    · refine ⟨{u with bufferStart := 0, bufferEnd := u.bufferEnd},[],?_,rfl,?_,ht,
        hs.out,hs.number,hs.size,hs.compression⟩
      · rw [doWhen,if_neg hf]
        rfl
      · show u.bufferEnd < u.buffer.length
        have hx := hs.size
        omega
  obtain ⟨hHe,hHs⟩ := hH
  obtain ⟨t,n,htr,hst⟩ := @pipe_spec w (size+chunks.length+1) c
    (pre.length+size-min (pre.length+size) maxPayload) chunks hws hwe
    (by rw [hHs.size]; exact hb) hc hn (by omega) (by omega)
  refine ⟨{t with bufferStart := 0, bufferEnd := 0},1+n,?_,rfl,?_⟩
  · rw [hul] at hw
    simp only [sendStream,bind_apply,get_apply,Outcome.andThen_done,
      if_neg (Nat.pos_iff_ne_zero.mp hz),h.filled,hu,setBounds,modify_apply]
    have hub : s.buffer.length=u.buffer.length := hs.size.symm
    rw [hub]
    have hw' := hw
    simp only [setBounds] at hw'
    rw [hw',Outcome.andThen_done,hcast,bind_apply,htr]
    rfl
  · have hx := hHs.trans hst
    rw [←List.append_assoc,hHe,hHs.number,hpieces] at hx
    exact ⟨hx.out,hx.number,hx.size,hx.compression⟩

/-- After a prefix that fills its packet, the read gets an empty view. -/
theorem sendStream_full {s : State} {q pre : List UInt8} {size : ℕ} {chunks : List (List UInt8)}
    (canWait : Bool) (h : Opened s q pre) (hp : pre.length=maxPayload) (hz : 0 < size) :
    ∃ e t,sendStream canWait size chunks s=.thrown e t := by
  obtain ⟨u,hu,-,hs,-⟩ := setHeader_spec h (min (pre.length+size) maxPayload)
  have hcast : ((min (pre.length+size) maxPayload : ℕ) : ℤ)-(pre.length : ℤ)=0 := by omega
  have hpipe : ∀ (w : State) (fuel r : ℕ),pipe (fuel+1) 0 r chunks w=
      .thrown (.error "TypeError: empty view") w := by
    intro w fuel r
    have hv : subarray w.bufferEnd (w.bufferEnd+0) w.buffer=[] := by
      rw [add_zero,subarray,List.drop_eq_nil_iff]
      exact List.length_take_le _ _
    simp only [pipe,bind_apply,get_apply,Outcome.andThen_done,readStream,branch_apply,if_pos hv,
      fail_apply,Outcome.andThen_thrown]
  have hflush : ∃ w,(doWhen (s.buffer.length < 2*s.bufferEnd) (do
      sendPackets s.bufferEnd
      modify fun s => {s with bufferStart := 0, bufferEnd := 0}) : Write Unit)
        {u with bufferStart := 0, bufferEnd := s.bufferEnd}=.done () w := by
    unfold doWhen
    split
    · exact ⟨_,rfl⟩
    · exact ⟨_,rfl⟩
  obtain ⟨w,hw⟩ := hflush
  refine ⟨.error "TypeError: empty view",w,?_⟩
  simp only [sendStream,bind_apply,get_apply,Outcome.andThen_done,
    if_neg (Nat.pos_iff_ne_zero.mp hz),h.filled,hu,setBounds,modify_apply]
  rw [hw,Outcome.andThen_done,hcast,bind_apply,hpipe]
  rfl

end SpiritMysql.StreamSends
