import SpiritMysql.ReceiveRefinement

/-!
# Reading operations follow the stream

Where an operation on the stream completes, the operation on the receive buffer
completes with the same value: whether the fast variant finds the bytes in the window or
the asynchronous one has to receive, move the window, or join two packets.
-/

namespace SpiritMysql.ReceiveBuffer

open AsyncAction ByteCodec Errors Reader
open PacketStream (recvAtLeast_done)

/-- Where an operation on the stream completes, so does the one on the buffer. -/
def Follows {α : Type} (x : Recv α) (y : Read α) : Prop :=
  ∀ b s a s',Shows b s → y s=.done a s' → ∃ b',x b=.done a b' ∧ Shows b' s'

/-- One operation after another. -/
theorem Follows.bind {α β : Type} {x : Recv α} {y : Read α} {f : α → Recv β} {g : α → Read β}
    (hx : Follows x y) (hf : ∀ a,Follows (f a) (g a)) : Follows (x >>= f) (y >>= g) := by
  intro b s v s' h hdone
  obtain ⟨a,s₁,h₁,h₂⟩ := bind_eq_done.mp hdone
  obtain ⟨b₁,hb₁,hs₁⟩ := hx b s a s₁ h h₁
  obtain ⟨b₂,hb₂,hs₂⟩ := hf a b₁ s₁ v s' hs₁ h₂
  refine ⟨b₂,?_,hs₂⟩
  rw [bind_apply,hb₁,Outcome.andThen_done,hb₂]

/-- Returning a value. -/
theorem Follows.pure {α : Type} (a : α) : Follows (pure a : Recv α) (pure a : Read α) := by
  intro b s v s' h hdone
  rw [pure_apply] at hdone
  cases hdone
  exact ⟨b,rfl,h⟩

/-! ## The packet boundary -/

section Boundary

variable {b : State} {s : Reader.State}

/-- The bytes that were asked for had arrived. -/
theorem recvAtLeast_inv {n : ℕ} {s s' : Reader.State} (h : Reader.recvAtLeast n s=.done () s') :
    s'=s ∧ n ≤ s.rest.length ∧ n ≤ bufferLen := by
  unfold Reader.recvAtLeast at h
  by_cases hr : min n bufferLen ≤ s.rest.length
  · rw [if_pos hr] at h
    by_cases hn : n ≤ bufferLen
    · rw [if_pos hn] at h
      cases h
      exact ⟨rfl,by omega,hn⟩
    · rw [if_neg hn] at h
      cases h
  · rw [if_neg hr] at h
    split at h
    · cases h
    · cases h

/-- The loop at a packet boundary fills the window. -/
theorem Shows.fillCompact (h : Shows b s) {want fuel : ℕ} (hw : want ≤ bufferLen)
    (hr : want ≤ s.rest.length) (hfuel : want-b.haveBytes < fuel) :
    ∃ b',fillCompact want fuel b=.done () b' ∧ Shows b' s ∧ want ≤ b'.haveBytes := by
  induction fuel generalizing b with
  | zero => omega
  | succ fuel ih =>
    unfold ReceiveBuffer.fillCompact
    rw [bind_apply,get_apply,Outcome.andThen_done,branch_apply]
    by_cases hlt : b.haveBytes < want
    · have hc := h.compact
      have hend : b.compact.bufferEnd=b.haveBytes := rfl
      have hstart : b.compact.bufferStart=0 := rfl
      have hhave : b.compact.haveBytes=b.haveBytes := rfl
      have hsize := hc.size
      obtain ⟨b₁,h₁,hs₁,hstart₁,hend₁⟩ := hc.receive (by omega) (hc.more (by omega))
      have hhave₁ : b₁.haveBytes=b₁.bufferEnd-b₁.bufferStart := rfl
      obtain ⟨b₂,h₂,hs₂,hhave₂⟩ := ih hs₁ (by omega)
      refine ⟨b₂,?_,hs₂,hhave₂⟩
      rw [if_pos hlt,bind_apply,modify_apply,Outcome.andThen_done,bind_apply,h₁,
        Outcome.andThen_done,h₂]
    · exact ⟨b,by rw [if_neg hlt]; rfl,h,by omega⟩

/-- The window behind an overwritten part. -/
theorem splice_window {at_ n : ℕ} {bytes buffer : List UInt8} (h : at_+bytes.length ≤ n)
    (hn : n ≤ buffer.length) : ((splice at_ bytes buffer).take n).drop at_=
      bytes++(buffer.take n).drop (at_+bytes.length) := by
  have hl : (buffer.take at_).length=at_ := by
    rw [List.length_take]
    omega
  have hd : (splice at_ bytes buffer).drop at_=bytes++buffer.drop (at_+bytes.length) := by
    unfold splice
    rw [List.drop_append_of_le_length (by omega),List.drop_eq_nil_of_le (by omega),List.nil_append]
  have hbytes : bytes.take (n-at_)=bytes := List.take_of_length_le (by omega)
  rw [List.drop_take,hd,List.take_append,hbytes,List.drop_take,Nat.sub_add_eq]

/-- Two packets are joined. -/
theorem Shows.joinPacket (h : Shows b s) {tail : ℕ} (ht : tail+4 ≤ b.haveBytes) :
    Shows (b.joinPacket tail) (s.joinPacket tail) := by
  have ho := h.order
  have hl := h.le
  have hb : b.haveBytes=b.bufferEnd-b.bufferStart := rfl
  have hbytes := h.bytesAt (show tail ≤ b.haveBytes by omega)
  have hheader := h.bytesAt_add ht
  have hrest := h.have_le
  have hlen : (b.bytesAt b.bufferStart tail).length=tail := by
    rw [hbytes,List.length_take]
    omega
  have hfit : b.bufferStart+4+(b.bytesAt b.bufferStart tail).length ≤ b.buffer.length := by omega
  have hsplice := splice_length hfit
  refine ⟨?_,?_,hsplice.trans h.size,h.pieces,?_,?_,rfl,?_,?_⟩
  · change b.bufferStart+4 ≤ b.bufferEnd
    omega
  · exact hl.trans hsplice.ge
  · have hwin : (b.joinPacket tail).window=s.rest.take tail++b.window.drop (tail+4) := by
      have hw := splice_window (n := b.bufferEnd)
        (show b.bufferStart+4+(b.bytesAt b.bufferStart tail).length ≤ b.bufferEnd by omega) hl
      refine hw.trans ?_
      unfold State.window
      rw [hlen,hbytes,List.drop_drop,Nat.add_assoc,Nat.add_comm 4 tail]
    have hw := h.window_length
    have hdrop : s.rest.drop (tail+4)=b.window.drop (tail+4)++b.incoming.flatten := by
      rw [h.rest,State.stream,List.drop_append_of_le_length (by omega)]
    change s.rest.take tail++s.rest.drop (tail+4)=(b.joinPacket tail).window++b.incoming.flatten
    rw [hwin,hdrop,List.append_assoc]
  · change leNat _=leNat _
    rw [hheader]
  · change leInt 1 _+1=leInt 1 _+1
    rw [hheader]
  · change s.totalBytesInPacket+leNat _=b.totalBytesInPacket+leNat _
    rw [hheader,h.totalBytesInPacket]

/-- The next packet is joined, when few bytes are left. -/
theorem follows_reserve {k : ℕ} (hk : k ≤ 9) : Follows (reserve k) (Reader.reserve k) := by
  intro b s a s' h hdone
  unfold Reader.reserve at hdone
  unfold reserve
  rw [bind_apply,get_apply,Outcome.andThen_done,doWhen,← h.packetOffset,branch_apply]
  by_cases hoff : (maxPayload : ℤ)-k < s.packetOffset
  · rw [if_pos hoff] at hdone ⊢
    unfold Reader.correctNearPacketBoundary at hdone
    unfold correctNearPacketBoundary
    rw [bind_apply,get_apply,Outcome.andThen_done,doWhen,← h.payloadLength,branch_apply]
    by_cases hfull : s.payloadLength=maxPayload
    · rw [if_pos hfull] at hdone ⊢
      have htail : b.lenInCurPacket.toNat=((s.payloadLength : ℤ)-s.packetOffset).toNat := by
        rw [← h.lenInCurPacket]
        rfl
      rw [htail]
      generalize htv : ((s.payloadLength : ℤ)-s.packetOffset).toNat=tail at hdone ⊢
      have hsmall : tail+4 ≤ bufferLen := by
        have h9 : 13 ≤ bufferLen := by decide
        omega
      by_cases hr : tail+4 ≤ s.rest.length
      · rw [if_pos hr] at hdone
        cases hdone
        obtain ⟨b₁,h₁,hs₁,hhave⟩ := @Shows.fillCompact b s h (tail+4) (tail+5) hsmall hr
          (by omega)
        refine ⟨b₁.joinPacket tail,?_,hs₁.joinPacket hhave⟩
        rw [bind_apply,h₁,Outcome.andThen_done,modify_apply]
      · rw [if_neg hr] at hdone
        split at hdone
        · cases hdone
        · cases hdone
    · rw [if_neg hfull] at hdone ⊢
      cases hdone
      exact ⟨b,rfl,h⟩
  · rw [if_neg hoff] at hdone ⊢
    cases hdone
    exact ⟨b,rfl,h⟩

end Boundary

/-! ## Numbers -/

section Numbers

variable {b : State} {s s' : Reader.State}

/-- Bytes are received and consumed. -/
theorem Shows.recvTake (h : Shows b s) {n : ℕ} {a : List UInt8}
    (hdone : (do Reader.recvAtLeast n; Reader.take n) s=.done a s') :
    ∃ b',(do ReceiveBuffer.recvAtLeast n; ReceiveBuffer.consume n) b=.done a b' ∧ Shows b' s' := by
  obtain ⟨u,s₁,h₁,h₂⟩ := bind_eq_done.mp hdone
  obtain ⟨rfl,hr,hn⟩ := recvAtLeast_inv h₁
  obtain ⟨b₁,hb₁,hs₁,hhave⟩ := h.recvAtLeast hn hr
  obtain ⟨hc,hs₂⟩ := hs₁.consume hhave
  unfold Reader.take at h₂
  cases h₂
  refine ⟨b₁.advance n,?_,hs₂⟩
  rw [bind_apply,hb₁,Outcome.andThen_done,hc]

/-- When enough bytes of the packet are left, nothing is joined. -/
theorem reserve_of_le {k : ℕ} (h : s.packetOffset ≤ (maxPayload : ℤ)-k) :
    Reader.reserve k s=.done () s := by
  unfold Reader.reserve
  rw [if_neg (by omega)]

/-- A number of some bytes. -/
theorem follows_readFixed {k : ℕ} (hk : k ≤ 9) : Follows (readFixed k) (Reader.readFixed k) := by
  intro b s a s' h hdone
  unfold readFixed
  by_cases hfast : k ≤ b.haveBytes ∧ b.packetOffset ≤ (maxPayload : ℤ)-k
  · obtain ⟨hhave,hoff⟩ := hfast
    rw [← h.packetOffset] at hoff
    have hroom : k ≤ bufferLen := hk.trans (by decide)
    have hrecv := recvAtLeast_done (hhave.trans h.have_le) hroom
    rw [Reader.readFixed,bind_apply,reserve_of_le hoff,Outcome.andThen_done,bind_apply,hrecv,
      Outcome.andThen_done,Reader.take] at hdone
    cases hdone
    have hf : fixedFast k b=some (s.rest.take k,b.advance k) := by
      rw [h.packetOffset] at hoff
      rw [fixedFast,if_pos ⟨hhave,hoff⟩,h.bytesAt hhave]
    exact ⟨b.advance k,orAsync_some hf _,h.advance hhave⟩
  · have hf : fixedFast k b=none := by rw [fixedFast,if_neg hfast]
    rw [orAsync_none hf]
    unfold Reader.readFixed at hdone
    obtain ⟨u,s₁,h₁,h₂⟩ := bind_eq_done.mp hdone
    obtain ⟨b₁,hb₁,hs₁⟩ := follows_reserve hk b s u s₁ h h₁
    obtain ⟨b₂,hb₂,hs₂⟩ := hs₁.recvTake h₂
    refine ⟨b₂,?_,hs₂⟩
    rw [fixedAsync,bind_apply,hb₁,Outcome.andThen_done,hb₂]

/-- The byte at the beginning of the window. -/
theorem Shows.desc (h : Shows b s) (hn : 0 < b.haveBytes) : b.desc=s.rest.headD 0 := by
  have hb := h.bytesAt (n := 1) hn
  unfold State.bytesAt at hb
  unfold State.desc
  cases hx : b.buffer.drop b.bufferStart with
  | nil =>
    have hl := h.have_le
    have hz := congrArg List.length hb
    rw [hx,List.take_nil,List.length_nil,List.length_take] at hz
    omega
  | cons x xs =>
    cases hy : s.rest with
    | nil =>
      rw [hx,hy] at hb
      cases hb
    | cons y ys =>
      rw [hx,hy,List.take_succ_cons,List.take_succ_cons] at hb
      rw [List.headD_cons,List.headD_cons]
      exact (List.cons.inj hb).1

/-- The length of a length-encoded integer. -/
theorem lenencSize_bounds (desc : UInt8) : 1 ≤ lenencSize desc ∧ lenencSize desc ≤ 9 := by
  unfold lenencSize
  split_ifs <;> omega

/-- What a length-encoded integer is when it was read. -/
theorem readLenencInt_inv {v : ℤ} (hdone : Reader.readLenencInt s=.done v s') :
    ∃ s₁,Reader.reserve 9 s=.done () s₁ ∧ lenencSize (s₁.rest.headD 0) ≤ s₁.rest.length ∧
      v=lenencValue (s₁.rest.take (lenencSize (s₁.rest.headD 0))) ∧
      s'=s₁.advance (lenencSize (s₁.rest.headD 0)) := by
  unfold Reader.readLenencInt at hdone
  obtain ⟨u₁,s₁,h₁,hd₁⟩ := bind_eq_done.mp hdone
  obtain ⟨u₂,s₂,h₂,hd₂⟩ := bind_eq_done.mp hd₁
  obtain ⟨rfl,-,-⟩ := recvAtLeast_inv h₂
  rw [bind_apply,get_apply,Outcome.andThen_done] at hd₂
  obtain ⟨u₃,s₃,h₃,hd₃⟩ := bind_eq_done.mp hd₂
  obtain ⟨rfl,hr,-⟩ := recvAtLeast_inv h₃
  rw [bind_apply,Reader.take,Outcome.andThen_done,pure_apply] at hd₃
  cases hd₃
  exact ⟨s₃,h₁,hr,rfl,rfl⟩

/-- The fast variant finds a length-encoded integer in the window. -/
theorem Shows.lenencFast (h : Shows b s) {v : ℤ} {b' : State} (hf : lenencFast b=some (v,b')) :
    Reader.reserve 9 s=.done () s ∧ lenencSize (s.rest.headD 0) ≤ b.haveBytes ∧
      v=lenencValue (s.rest.take (lenencSize (s.rest.headD 0))) ∧
      b'=b.advance (lenencSize (s.rest.headD 0)) := by
  unfold ReceiveBuffer.lenencFast at hf
  by_cases hc : 0 < b.haveBytes ∧ b.packetOffset ≤ (maxPayload : ℤ)-9
  · obtain ⟨hpos,hoff⟩ := hc
    rw [if_pos ⟨hpos,hoff⟩,h.desc hpos] at hf
    rw [← h.packetOffset] at hoff
    by_cases hs : b.haveBytes < lenencSize (s.rest.headD 0)
    · rw [if_pos hs] at hf
      cases hf
    · rw [if_neg hs,h.bytesAt (by omega)] at hf
      cases hf
      exact ⟨reserve_of_le hoff,by omega,rfl,rfl⟩
  · rw [if_neg hc] at hf
    cases hf

/-- A length-encoded integer. -/
theorem follows_readLenencInt : Follows readLenencInt Reader.readLenencInt := by
  intro b s v s' h hdone
  obtain ⟨s₁,h₁,hr,rfl,rfl⟩ := readLenencInt_inv hdone
  have hbounds := lenencSize_bounds (s₁.rest.headD 0)
  unfold readLenencInt
  cases hf : lenencFast b with
  | some r =>
    obtain ⟨v,b'⟩ := r
    obtain ⟨hres,hsize,rfl,rfl⟩ := h.lenencFast hf
    rw [hres] at h₁
    cases h₁
    exact ⟨_,orAsync_some hf _,h.advance hsize⟩
  | none =>
    rw [orAsync_none hf]
    obtain ⟨b₁,hb₁,hs₁⟩ := follows_reserve (le_refl 9) b s () s₁ h h₁
    -- the first byte may have to be received
    have hfirst : ∃ b₂,doWhen (b₁.haveBytes=0) (recvAtLeast 1) b₁=.done () b₂ ∧ Shows b₂ s₁ ∧
        0 < b₂.haveBytes := by
      unfold doWhen
      rw [branch_apply]
      by_cases hz : b₁.haveBytes=0
      · rw [if_pos hz]
        obtain ⟨b₂,hb₂,hs₂,hhave₂⟩ := hs₁.recvAtLeast (show 1 ≤ bufferLen by decide)
          (hbounds.1.trans hr)
        exact ⟨b₂,hb₂,hs₂,hhave₂⟩
      · exact ⟨b₁,by rw [if_neg hz]; rfl,hs₁,by omega⟩
    obtain ⟨b₂,hb₂,hs₂,hpos⟩ := hfirst
    have hdesc := hs₂.desc hpos
    -- and then the others
    have hall : ∃ b₃,doWhen (1 < lenencSize b₂.desc) (recvAtLeast (lenencSize b₂.desc)) b₂=
        .done () b₃ ∧ Shows b₃ s₁ ∧ lenencSize b₂.desc ≤ b₃.haveBytes := by
      rw [hdesc]
      unfold doWhen
      rw [branch_apply]
      by_cases hone : 1 < lenencSize (s₁.rest.headD 0)
      · rw [if_pos hone]
        exact hs₂.recvAtLeast (hbounds.2.trans (by decide)) hr
      · exact ⟨b₂,by rw [if_neg hone]; rfl,hs₂,by omega⟩
    obtain ⟨b₃,hb₃,hs₃,hhave⟩ := hall
    obtain ⟨hc,hs₄⟩ := hs₃.consume hhave
    rw [hdesc] at hs₄
    refine ⟨b₃.advance (lenencSize (s₁.rest.headD 0)),?_,hs₄⟩
    rw [lenencAsync,bind_apply,hb₁,Outcome.andThen_done,bind_apply,get_apply,Outcome.andThen_done,
      bind_apply,hb₂,Outcome.andThen_done,bind_apply,get_apply,Outcome.andThen_done,bind_apply,hb₃,
      Outcome.andThen_done,bind_apply,hc,Outcome.andThen_done,pure_apply,hdesc]

end Numbers

/-! ## Byte strings -/

section Strings

variable {b : State} {s s' : Reader.State}

/-- What a byte string over a packet boundary is. -/
def across (head n : ℕ) (s : Reader.State) : List UInt8×Reader.State :=
  (s.rest.take head++(s.rest.drop (head+4)).take (n-head),
    (s.advance head).nextPacket.advance (n-head))

/-- The packet that follows the one that ends after some bytes. -/
theorem nextPacket_rest (head : ℕ) (s : Reader.State) :
    (s.advance head).nextPacket.rest=s.rest.drop (head+4) := by
  change (s.rest.drop head).drop 4=s.rest.drop (head+4)
  rw [List.drop_drop]

/-- What a short byte string is when it was read. -/
theorem readShortBytes_inv {n : ℕ} {a : List UInt8} (hdone : Reader.readShortBytes n s=.done a s') :
    n+4 ≤ bufferLen ∧
      (((n : ℤ) ≤ s.lenInCurPacket ∧ n ≤ s.rest.length ∧ a=s.rest.take n ∧ s'=s.advance n) ∨
        ∃ head : ℕ,s.lenInCurPacket=head ∧ head < n ∧ n+4 ≤ s.rest.length ∧
          (a,s')=across head n s) := by
  have hneg : ¬((n : ℤ) < 0) := by omega
  have h4 : 4 ≤ bufferLen := by decide
  unfold Reader.readShortBytes at hdone
  by_cases hbig : (bufferLen : ℤ)-4 < n
  · rw [branch_apply,if_pos hbig] at hdone
    cases hdone
  rw [branch_apply,if_neg hbig,bind_apply,get_apply,Outcome.andThen_done,branch_apply,if_neg hneg,
    branch_apply] at hdone
  refine ⟨by omega,?_⟩
  by_cases hin : (n : ℤ) ≤ s.lenInCurPacket
  · rw [if_pos hin,Int.toNat_natCast] at hdone
    obtain ⟨u₁,s₁,h₁,hd₁⟩ := bind_eq_done.mp hdone
    obtain ⟨rfl,hr,-⟩ := recvAtLeast_inv h₁
    rw [Reader.take] at hd₁
    cases hd₁
    exact .inl ⟨hin,hr,rfl,rfl⟩
  · rw [if_neg hin,branch_apply] at hdone
    by_cases hminus : s.lenInCurPacket < 0
    · rw [if_pos hminus] at hdone
      obtain ⟨u₁,s₁,h₁,hd₁⟩ := bind_eq_done.mp hdone
      cases hd₁
    · rw [if_neg hminus] at hdone
      obtain ⟨u₁,s₁,h₁,hd₁⟩ := bind_eq_done.mp hdone
      obtain ⟨rfl,hr₁,-⟩ := recvAtLeast_inv h₁
      generalize hhead : s₁.lenInCurPacket.toNat=head at *
      rw [bind_apply,Reader.take,Outcome.andThen_done] at hd₁
      obtain ⟨u₂,s₂,h₂,hd₂⟩ := bind_eq_done.mp hd₁
      unfold Reader.readPacketHeader at h₂
      obtain ⟨u₃,s₃,h₃,hd₃⟩ := bind_eq_done.mp h₂
      obtain ⟨rfl,-,-⟩ := recvAtLeast_inv h₃
      rw [modify_apply] at hd₃
      cases hd₃
      rw [Int.toNat_natCast] at hd₂
      obtain ⟨u₄,s₄,h₄,hd₄⟩ := bind_eq_done.mp hd₂
      obtain ⟨rfl,hr₄,-⟩ := recvAtLeast_inv h₄
      rw [bind_apply,Reader.take,Outcome.andThen_done,pure_apply] at hd₄
      cases hd₄
      rw [nextPacket_rest,List.length_drop] at hr₄
      refine .inr ⟨head,by omega,by omega,by omega,?_⟩
      rw [across,nextPacket_rest]

/-- The payload up to a packet boundary is consumed with the header that follows. -/
theorem Shows.enterNext (h : Shows b s) {head : ℕ} (hn : head+4 ≤ b.haveBytes) :
    Shows {b with bufferStart := b.bufferStart+head}.nextPacket (s.advance head).nextPacket := by
  have hb : (b.advance head).haveBytes=b.bufferEnd-(b.bufferStart+head) := rfl
  have hb' : b.haveBytes=b.bufferEnd-b.bufferStart := rfl
  exact (h.advance (show head ≤ b.haveBytes by omega)).nextPacket (by omega)

/-- A byte string over a packet boundary, when all of it is in the window. -/
theorem Shows.acrossBoundary (h : Shows b s) {head n : ℕ} (hlt : head < n)
    (hn : n+4 ≤ b.haveBytes) : (b.acrossBoundary head n).1=(across head n s).1 ∧
      Shows (b.acrossBoundary head n).2 (across head n s).2 := by
  have hb : b.haveBytes=b.bufferEnd-b.bufferStart := rfl
  have hnext := h.enterNext (show head+4 ≤ b.haveBytes by omega)
  have hhave : {b with bufferStart := b.bufferStart+head}.nextPacket.haveBytes=
      b.bufferEnd-(b.bufferStart+head+4) := rfl
  have hsecond := hnext.bytesAt (show n-head ≤ _ by omega)
  rw [nextPacket_rest] at hsecond
  refine ⟨?_,hnext.advance (by omega)⟩
  change b.bytesAt b.bufferStart head++_=_
  rw [h.bytesAt (show head ≤ b.haveBytes by omega),hsecond]
  rfl

/-- A short byte string. -/
theorem follows_readShortBytes (n : ℕ) :
    Follows (readShortBytes n) (Reader.readShortBytes n) := by
  intro b s a s' h hdone
  obtain ⟨hlen,hcases⟩ := readShortBytes_inv hdone
  unfold readShortBytes
  rw [branch_apply,if_neg (by omega)]
  have hleft := h.lenInCurPacket
  rcases hcases with ⟨hin,hr,rfl,rfl⟩ | ⟨head,hhead,hlt,hr,hacross⟩
  · rw [hleft] at hin
    by_cases hhave : n ≤ b.haveBytes
    · have hf : shortBytesFast n b=some (s.rest.take n,b.advance n) := by
        rw [shortBytesFast,if_pos hhave,if_pos hin,h.bytesAt hhave]
      exact ⟨b.advance n,orAsync_some hf _,h.advance hhave⟩
    · have hf : shortBytesFast n b=none := by rw [shortBytesFast,if_neg hhave]
      obtain ⟨b₁,hb₁,hs₁,hhave₁⟩ := h.recvAtLeast (show n ≤ bufferLen by omega) hr
      obtain ⟨hc,hs₂⟩ := hs₁.consume hhave₁
      refine ⟨b₁.advance n,?_,hs₂⟩
      rw [orAsync_none hf,shortBytesAsync,bind_apply,get_apply,Outcome.andThen_done,branch_apply,
        if_pos hin,bind_apply,hb₁,Outcome.andThen_done,hc]
  · have hout : ¬((n : ℤ) ≤ b.lenInCurPacket) := by omega
    have htoNat : b.lenInCurPacket.toNat=head := by omega
    obtain ⟨rfl,rfl⟩ := Prod.mk.inj hacross
    by_cases hhave : n+4 ≤ b.haveBytes
    · obtain ⟨hbytes,hs⟩ := h.acrossBoundary hlt hhave
      have hf : shortBytesFast n b=some (b.acrossBoundary head n) := by
        rw [shortBytesFast,if_pos (by omega),if_neg hout,if_pos hhave,htoNat]
      refine ⟨(b.acrossBoundary head n).2,orAsync_some ?_ _,hs⟩
      rw [hf]
      exact congrArg some (Prod.ext hbytes rfl)
    · have hf : shortBytesFast n b=none := by
        unfold shortBytesFast
        rw [if_neg hout,if_neg hhave,ite_self]
      obtain ⟨b₁,hb₁,hs₁,hhave₁⟩ := h.recvAtLeast (show head+4 ≤ bufferLen by omega) (by omega)
      have hnext := hs₁.enterNext hhave₁
      have hmore : n-head ≤ (s.advance head).nextPacket.rest.length := by
        rw [nextPacket_rest,List.length_drop]
        omega
      obtain ⟨b₂,hb₂,hs₂,hhave₂⟩ := hnext.recvAtLeast (show n-head ≤ bufferLen by omega) hmore
      obtain ⟨hc,hs₃⟩ := hs₂.consume hhave₂
      rw [nextPacket_rest] at hc
      refine ⟨b₂.advance (n-head),?_,hs₃⟩
      rw [orAsync_none hf,shortBytesAsync,bind_apply,get_apply,Outcome.andThen_done,branch_apply,
        if_neg hout,bind_apply,htoNat,hb₁,Outcome.andThen_done,bind_apply,passHead,
        Outcome.andThen_done,bind_apply,modify_apply,Outcome.andThen_done,bind_apply,hb₂,
        Outcome.andThen_done,bind_apply,hc,Outcome.andThen_done,pure_apply,
        hs₁.bytesAt (show head ≤ b₁.haveBytes by omega)]

/-- Only the null mark has a negative value. -/
theorem lenencValue_cases (desc : UInt8) (bs : List UInt8) :
    (desc=0xFB ∧ lenencValue (desc::bs)= -1) ∨ (desc≠0xFB ∧ 0 ≤ lenencValue (desc::bs)) := by
  unfold lenencValue
  dsimp only
  by_cases hnull : desc=0xFB
  · rw [hnull,if_neg (by decide),if_pos rfl]
    exact .inl ⟨rfl,rfl⟩
  · rw [if_neg hnull]
    refine .inr ⟨hnull,?_⟩
    split <;> omega

/-- Passing bytes in two steps of the stream. -/
theorem advance_advance (m n : ℕ) (s : Reader.State) : (s.advance m).advance n=s.advance (m+n) := by
  have hbefore : ((s.rest.drop m).take n).reverse++((s.rest.take m).reverse++s.before)=
      (s.rest.take (m+n)).reverse++s.before := by
    rw [List.take_add,List.reverse_append,List.append_assoc]
  unfold Reader.State.advance Reader.State.consume
  dsimp only
  rw [hbefore,List.drop_drop,Nat.cast_add,add_assoc]

/-- Two parts of a byte string over a packet boundary. -/
theorem across_advance (m head n : ℕ) (s : Reader.State) :
    ((across (m+head) (m+n) s).1.drop m=(across head n (s.advance m)).1 ∨ s.rest.length < m+head) ∧
      (across (m+head) (m+n) s).2=(across head n (s.advance m)).2 := by
  have hsub : m+n-(m+head)=n-head := by omega
  constructor
  · by_cases hr : s.rest.length < m+head
    · exact .inr hr
    · refine .inl ?_
      have hrest : (s.advance m).rest=s.rest.drop m := rfl
      unfold across
      dsimp only
      rw [hrest,List.drop_drop,hsub,List.drop_append_of_le_length (by rw [List.length_take]; omega),
        List.drop_take,Nat.add_sub_cancel_left,Nat.add_assoc]
  · unfold across
    dsimp only
    rw [advance_advance,hsub]

/-- What a byte string with its length before it is when it was read. -/
theorem readShortLenencBytes_inv {a : List UInt8}
    (hdone : Reader.readShortLenencBytes s=.done a s') :
    ∃ v s₁,Reader.readLenencInt s=.done v s₁ ∧
      ((v= -1 ∧ a=[] ∧ s'=s₁) ∨ ∃ n : ℕ,v=n ∧ Reader.readShortBytes n s₁=.done a s') := by
  unfold Reader.readShortLenencBytes at hdone
  obtain ⟨v,s₁,h₁,hd⟩ := bind_eq_done.mp hdone
  refine ⟨v,s₁,h₁,?_⟩
  have hv : v= -1 ∨ 0 ≤ v := by
    obtain ⟨s₂,-,-,rfl,-⟩ := readLenencInt_inv h₁
    cases hl : s₂.rest.take (lenencSize (s₂.rest.headD 0)) with
    | nil => exact .inr (le_refl 0)
    | cons desc bs =>
      rcases lenencValue_cases desc bs with ⟨-,h⟩ | ⟨-,h⟩
      · exact .inl h
      · exact .inr h
  rw [branch_apply] at hd
  rcases hv with rfl | hv
  · rw [if_pos (le_refl _)] at hd
    cases hd
    exact .inl ⟨rfl,rfl,rfl⟩
  · rw [if_neg (by omega)] at hd
    obtain ⟨n,rfl⟩ := Int.eq_ofNat_of_zero_le hv
    exact .inr ⟨n,rfl,hd⟩

/-- The fast variant finds a byte string with its length before it in the window. -/
theorem Shows.lenencBytesFast (h : Shows b s) {a : List UInt8} {r : List UInt8×State}
    (hdone : Reader.readShortLenencBytes s=.done a s') (hf : lenencBytesFast b=some r) :
    r.1=a ∧ Shows r.2 s' := by
  unfold ReceiveBuffer.lenencBytesFast at hf
  by_cases hc : 0 < b.haveBytes ∧ b.packetOffset ≤ (maxPayload : ℤ)-9
  case neg =>
    rw [if_neg hc] at hf
    cases hf
  obtain ⟨hpos,hoff⟩ := hc
  have hdesc := h.desc hpos
  have hleft := h.lenInCurPacket
  rw [if_pos ⟨hpos,hoff⟩,hdesc] at hf
  rw [← h.packetOffset] at hoff
  obtain ⟨v,s₁,h₁,hv⟩ := readShortLenencBytes_inv hdone
  obtain ⟨s₂,h₂,hsize,hvalue,rfl⟩ := readLenencInt_inv h₁
  rw [reserve_of_le hoff] at h₂
  cases h₂
  have hbounds := lenencSize_bounds (s.rest.headD 0)
  generalize hm : lenencSize (s.rest.headD 0)=m at *
  by_cases hfew : b.haveBytes < m
  · rw [if_pos hfew] at hf
    cases hf
  rw [if_neg hfew,h.bytesAt (by omega),← hvalue] at hf
  have hhead : ∃ bs,s.rest.take m=s.rest.headD 0::bs := by
    cases hr : s.rest with
    | nil =>
      rw [hr,List.length_nil] at hsize
      omega
    | cons x xs =>
      obtain ⟨k,rfl⟩ : ∃ k,m=k+1 := ⟨m-1,by omega⟩
      exact ⟨xs.take k,List.take_succ_cons⟩
  obtain ⟨bs,hbs⟩ := hhead
  have hcases := lenencValue_cases (s.rest.headD 0) bs
  rw [← hbs,← hvalue] at hcases
  rcases hv with ⟨hneg,rfl,rfl⟩ | ⟨n,rfl,hshort⟩
  · have hnull : s.rest.headD 0=0xFB := by
      rcases hcases with ⟨hn,-⟩ | ⟨-,hn⟩
      · exact hn
      · omega
    rw [if_pos hnull] at hf
    cases hf
    have hone : m=1 := by rw [← hm,hnull]; rfl
    exact ⟨rfl,by rw [hone]; exact h.advance hpos⟩
  · have hnull : ¬(s.rest.headD 0=0xFB) := by
      rcases hcases with ⟨-,hn⟩ | ⟨hn,-⟩
      · omega
      · exact hn
    obtain ⟨hlen,hshort⟩ := readShortBytes_inv hshort
    have hbig : ¬(s.rest.headD 0=0xFE ∧ (bufferLen : ℤ) < n) := by
      rintro ⟨-,hb⟩
      omega
    rw [if_neg hnull,if_neg hbig] at hf
    dsimp only at hf
    rw [Int.toNat_natCast] at hf
    by_cases hall : n+m ≤ b.haveBytes
    case neg =>
      rw [if_neg hall] at hf
      cases hf
    rw [if_pos hall] at hf
    have hadv : (s.advance m).lenInCurPacket=s.lenInCurPacket-m := by
      change (s.payloadLength : ℤ)-(s.packetOffset+m)=s.payloadLength-s.packetOffset-m
      omega
    rw [hadv] at hshort
    rcases hshort with ⟨hin,hr,rfl,rfl⟩ | ⟨head,hhead,hlt,hr,hacross⟩
    · rw [if_pos (by omega)] at hf
      cases hf
      dsimp only
      rw [h.bytesAt hall,advance_advance,Nat.add_comm n m,List.drop_take,Nat.add_sub_cancel_left]
      exact ⟨rfl,h.advance (by omega)⟩
    · rw [if_neg (by omega)] at hf
      by_cases hmore : n+m+4 ≤ b.haveBytes
      case neg =>
        rw [if_neg hmore] at hf
        cases hf
      have htoNat : b.lenInCurPacket.toNat=m+head := by omega
      rw [if_pos hmore,htoNat,Nat.add_comm n m] at hf
      cases hf
      obtain ⟨hbytes,hs⟩ := h.acrossBoundary (show m+head < m+n by omega) (by omega)
      obtain ⟨htwo,hstate⟩ := across_advance m head n s
      rw [hstate,← hacross] at hs
      refine ⟨?_,hs⟩
      have hle := h.have_le
      rcases htwo with htwo | htwo
      · rw [hbytes,htwo,← hacross]
      · omega

/-- A byte string with its length before it. -/
theorem follows_readShortLenencBytes :
    Follows readShortLenencBytes Reader.readShortLenencBytes := by
  intro b s a s' h hdone
  unfold readShortLenencBytes
  cases hf : lenencBytesFast b with
  | some r =>
    obtain ⟨rfl,hs⟩ := h.lenencBytesFast hdone hf
    exact ⟨r.2,orAsync_some hf _,hs⟩
  | none =>
    rw [orAsync_none hf]
    obtain ⟨v,s₁,h₁,hv⟩ := readShortLenencBytes_inv hdone
    obtain ⟨b₁,hb₁,hs₁⟩ := follows_readLenencInt b s v s₁ h h₁
    have hbuffer : 4 ≤ bufferLen := by decide
    rw [lenencBytesAsync,bind_apply,hb₁,Outcome.andThen_done,branch_apply]
    rcases hv with ⟨rfl,rfl,rfl⟩ | ⟨n,rfl,hshort⟩
    · exact ⟨b₁,by rw [if_neg (by omega),branch_apply,if_pos (le_refl _)]; rfl,hs₁⟩
    · obtain ⟨hlen,-⟩ := readShortBytes_inv hshort
      obtain ⟨b₂,hb₂,hs₂⟩ := follows_readShortBytes n b₁ s₁ a s' hs₁ hshort
      refine ⟨b₂,?_,hs₂⟩
      rw [if_neg (by omega),branch_apply,if_neg (by omega),Int.toNat_natCast,hb₂]

end Strings

/-! ## Copying to a destination -/

section Copying

variable {b : State} {s s' : Reader.State}

/-- Nothing is read directly when nothing is left of the packet or of the destination. -/
theorem directLoop_none {fuel len : ℕ} {left : ℤ} (h : min left.toNat len=0) (b : State) :
    directLoop (fuel+1) left len b=.done [] b := by
  unfold directLoop
  rw [branch_apply,if_neg (by omega),pure_apply]

/-- One piece is read directly. -/
theorem Shows.directPiece (h : Shows b s) (hwin : b.haveBytes=0) {size : ℕ} (hs : size≠0)
    (hsize : size ≤ s.rest.length) : ∃ value b',readFromConn size b=.done (some value) b' ∧
      value≠[] ∧ value.length ≤ size ∧ value=s.rest.take value.length ∧
      Shows {b' with packetOffset := b'.packetOffset+value.length,bufferStart := 0,bufferEnd := 0}
        (s.advance value.length) := by
  obtain ⟨piece,rest,hin⟩ := List.exists_cons_of_ne_nil (h.more (by omega))
  have hpiece : piece≠[] := h.pieces piece (by rw [hin]; exact List.mem_cons_self)
  have hlen : 0 < piece.length := List.length_pos_iff.mpr hpiece
  have hvlen : (piece.take size).length=min size piece.length := List.length_take
  have hwindow : b.window=[] := by
    have hw := h.window_length
    exact List.length_eq_zero_iff.mp (by omega)
  have hrest : s.rest=piece++rest.flatten := by
    rw [h.rest,State.stream,hwindow,hin,List.nil_append,List.flatten_cons]
  have hdrop : piece.drop (min size piece.length)=piece.drop size := by
    rcases Nat.le_total size piece.length with hle | hle
    · rw [Nat.min_eq_left hle]
    · rw [Nat.min_eq_right hle,List.drop_length,List.drop_eq_nil_of_le hle]
  refine ⟨piece.take size,_,readFromConn_piece hs hin,?_,by omega,?_,?_⟩
  · intro hnil
    rw [hnil,List.length_nil] at hvlen
    omega
  · rw [hvlen,hrest,List.take_append_of_le_length (by omega)]
    rcases Nat.le_total size piece.length with hle | hle
    · rw [Nat.min_eq_left hle]
    · rw [Nat.min_eq_right hle,List.take_length,List.take_of_length_le hle]
  · refine ⟨le_refl 0,Nat.zero_le _,h.size,?_,?_,h.payloadLength,?_,h.sequenceId,
      h.totalBytesInPacket⟩
    · intro p hp
      dsimp only at hp
      split at hp
      · exact h.pieces p (by rw [hin]; exact List.mem_cons_of_mem _ hp)
      · rename_i hne
        rcases List.mem_cons.mp hp with rfl | hp
        · exact hne
        · exact h.pieces p (by rw [hin]; exact List.mem_cons_of_mem _ hp)
    · have hflat : (if piece.drop size=[] then rest else piece.drop size::rest).flatten=
          piece.drop size++rest.flatten := by
        split
        · rename_i he
          rw [he,List.nil_append]
        · rw [List.flatten_cons]
      change s.rest.drop (piece.take size).length=(b.buffer.take 0).drop 0++_
      rw [hflat,List.take_zero,List.drop_nil,List.nil_append,hvlen,hrest,
        List.drop_append_of_le_length (by omega),hdrop]
    · exact congrArg (fun z => z+((piece.take size).length : ℤ)) h.packetOffset

/-- What the window lacks is read directly. -/
theorem Shows.directLoop (h : Shows b s) (hwin : b.haveBytes=0) {fuel len : ℕ} {left : ℤ}
    (hr : min left.toNat len ≤ s.rest.length) (hfuel : len < fuel) :
    ∃ b',directLoop fuel left len b=.done (s.rest.take (min left.toNat len)) b' ∧
      Shows b' (s.advance (min left.toNat len)) := by
  induction fuel generalizing b s len left with
  | zero => omega
  | succ fuel ih =>
    by_cases hz : min left.toNat len=0
    · have hs : Shows b (s.advance 0) := by
        have ha := h.advance (Nat.zero_le b.haveBytes)
        exact ⟨h.order,h.le,h.size,h.pieces,h.rest,h.payloadLength,
          (Int.add_zero _).trans h.packetOffset,h.sequenceId,h.totalBytesInPacket⟩
      rw [directLoop_none hz,hz,List.take_zero]
      exact ⟨b,rfl,hs⟩
    · obtain ⟨value,b₁,hread,hne,hvlen,hvalue,hs₁⟩ := h.directPiece hwin hz hr
      have hpos : 0 < value.length := List.length_pos_iff.mpr hne
      have hrest : (s.advance value.length).rest=s.rest.drop value.length := rfl
      have hmin : min (left-value.length).toNat (len-value.length)=
          min left.toNat len-value.length := by omega
      have hmore : min (left-value.length).toNat (len-value.length) ≤
          (s.advance value.length).rest.length := by
        rw [hrest,List.length_drop]
        omega
      obtain ⟨b₂,hb₂,hs₂⟩ := ih hs₁ rfl hmore (by omega)
      rw [hmin,advance_advance,Nat.add_sub_cancel' hvlen] at hs₂
      refine ⟨b₂,?_,hs₂⟩
      unfold ReceiveBuffer.directLoop
      rw [branch_apply,if_pos (by omega),bind_apply,hread,Outcome.andThen_done]
      dsimp only
      rw [branch_apply,if_neg hne,bind_apply,modify_apply,Outcome.andThen_done,bind_apply,hb₂,
        Outcome.andThen_done,pure_apply,hmin,hrest]
      have htake : s.rest.take (min left.toNat len)=
          value++(s.rest.drop value.length).take (min left.toNat len-value.length) := by
        have hadd := List.take_add (l := s.rest) (i := value.length)
          (j := min left.toNat len-value.length)
        rw [Nat.add_sub_cancel' hvlen,← hvalue] at hadd
        exact hadd
      rw [htake]

/-- The step between two packets of the destination's loop. -/
def enterNonempty : Read Unit := fun s =>
  if s.lenInCurPacket=0 then Reader.readPacketHeader s else .done () s

/-- The loop does not complete when the bytes of the packet do not arrive. -/
theorem passLoop_starved {fuel len : ℕ} {a : List UInt8} (hrest : s.rest=[]) (hlen : len≠0)
    (hleft : 0 < s.lenInCurPacket) : passLoop enterNonempty fuel len s≠.done a s' := by
  intro hdone
  cases fuel with
  | zero => cases hdone
  | succ fuel =>
    unfold passLoop at hdone
    rw [branch_apply,if_neg hlen,bind_apply,enterNonempty,if_neg (by omega),Outcome.andThen_done,
      bind_apply,get_apply,Outcome.andThen_done] at hdone
    obtain ⟨u,s₁,h₁,-⟩ := bind_eq_done.mp hdone
    obtain ⟨-,hr,-⟩ := recvAtLeast_inv h₁
    rw [hrest,List.length_nil] at hr
    omega

/-- A turn of the loop on the stream passes what the packet has. -/
theorem passLoop_inv {fuel len : ℕ} {a : List UInt8} (hlen : len≠0)
    (hdone : passLoop enterNonempty (fuel+1) len s=.done a s') :
    ∃ s₁ rest,enterNonempty s=.done () s₁ ∧ min s₁.lenInCurPacket.toNat len ≤ s₁.rest.length ∧
      passLoop enterNonempty fuel (len-min s₁.lenInCurPacket.toNat len)
        (s₁.advance (min s₁.lenInCurPacket.toNat len))=.done rest s' ∧
      a=s₁.rest.take (min s₁.lenInCurPacket.toNat len)++rest := by
  unfold passLoop at hdone
  rw [branch_apply,if_neg hlen] at hdone
  obtain ⟨u₁,s₁,h₁,hd₁⟩ := bind_eq_done.mp hdone
  rw [bind_apply,get_apply,Outcome.andThen_done] at hd₁
  obtain ⟨u₂,s₂,h₂,hd₂⟩ := bind_eq_done.mp hd₁
  obtain ⟨rfl,-,-⟩ := recvAtLeast_inv h₂
  rw [bind_apply,Reader.take,Outcome.andThen_done] at hd₂
  obtain ⟨rest,s₃,h₃,hd₃⟩ := bind_eq_done.mp hd₂
  rw [pure_apply] at hd₃
  cases hd₃
  -- otherwise the next turn would wait for the bytes that are missing
  have hall : min s₂.lenInCurPacket.toNat len ≤ s₂.rest.length := by
    by_contra hlt
    have hmin : min (min s₂.lenInCurPacket.toNat len) s₂.rest.length=s₂.rest.length := by omega
    rw [hmin] at h₃
    have hleft : (s₂.advance s₂.rest.length).lenInCurPacket=s₂.lenInCurPacket-s₂.rest.length := by
      change (s₂.payloadLength : ℤ)-(s₂.packetOffset+s₂.rest.length)=
        s₂.payloadLength-s₂.packetOffset-s₂.rest.length
      omega
    have hnone : (s₂.advance s₂.rest.length).rest=[] := List.drop_length
    exact passLoop_starved hnone (by omega) (by omega) h₃
  rw [Nat.min_eq_left hall] at h₃
  exact ⟨s₂,rest,h₁,hall,h₃,by rw [Nat.min_eq_left hall]⟩

/-- The next packet is entered before bytes are copied. -/
theorem Shows.enterNonempty (h : Shows b s) (hdone : enterNonempty s=.done () s') :
    ∃ b',doWhen (b.lenInCurPacket=0) ReceiveBuffer.header b=.done () b' ∧ Shows b' s' := by
  unfold ReceiveBuffer.enterNonempty at hdone
  unfold doWhen
  rw [branch_apply,← h.lenInCurPacket]
  by_cases hz : s.lenInCurPacket=0
  · rw [if_pos hz] at hdone ⊢
    unfold Reader.readPacketHeader at hdone
    obtain ⟨u,s₁,h₁,hd⟩ := bind_eq_done.mp hdone
    obtain ⟨rfl,hr,-⟩ := recvAtLeast_inv h₁
    rw [modify_apply] at hd
    cases hd
    exact h.header hr
  · rw [if_neg hz] at hdone ⊢
    cases hdone
    exact ⟨b,rfl,h⟩

/-- The loop copies what the loop on the stream passes. -/
theorem Shows.copyLoop (h : Shows b s) {fuel len : ℕ} {a : List UInt8}
    (hdone : passLoop ReceiveBuffer.enterNonempty fuel len s=.done a s') :
    ∃ b',copyLoop fuel len b=.done a b' ∧ Shows b' s' := by
  induction fuel generalizing b s len a with
  | zero => cases hdone
  | succ fuel ih =>
    unfold ReceiveBuffer.copyLoop
    rw [branch_apply]
    by_cases hlen : len=0
    · unfold passLoop at hdone
      rw [branch_apply,if_pos hlen] at hdone
      cases hdone
      exact ⟨b,by rw [if_pos hlen]; rfl,h⟩
    · obtain ⟨s₁,rest,h₁,hall,hd,rfl⟩ := passLoop_inv hlen hdone
      obtain ⟨b₁,hb₁,hs₁⟩ := h.enterNonempty h₁
      have hleft := hs₁.lenInCurPacket
      generalize hn : min s₁.lenInCurPacket.toNat len=n at *
      have hcopied : b₁.copied len=min b₁.haveBytes n := by
        unfold State.copied
        omega
      generalize hm : b₁.copied len=m at *
      obtain ⟨hc,hs₂⟩ := hs₁.consume (show m ≤ b₁.haveBytes by omega)
      -- the window gave `m` of the `n` bytes of this turn
      have hdirect : ∃ b₂,
          ReceiveBuffer.directLoop (len-m+1) (b₁.lenInCurPacket-m) (len-m) (b₁.advance m)=
          Outcome.done ((s₁.rest.drop m).take (n-m)) b₂ ∧ Shows b₂ (s₁.advance n) := by
        have hmin : min (b₁.lenInCurPacket-m).toNat (len-m)=n-m := by omega
        by_cases hz : n=m
        · rw [directLoop_none (by omega),hz,Nat.sub_self,List.take_zero]
          exact ⟨b₁.advance m,rfl,hs₂⟩
        · have hhave : (b₁.advance m).haveBytes=b₁.bufferEnd-(b₁.bufferStart+m) := rfl
          have hhave₁ : b₁.haveBytes=b₁.bufferEnd-b₁.bufferStart := rfl
          have hrest : (s₁.advance m).rest=s₁.rest.drop m := rfl
          have hmore : min (b₁.lenInCurPacket-m).toNat (len-m) ≤ (s₁.advance m).rest.length := by
            rw [hrest,List.length_drop]
            omega
          obtain ⟨b₂,hb₂,hs₃⟩ := hs₂.directLoop (by omega) hmore (Nat.lt_succ_self (len-m))
          rw [hmin,advance_advance,Nat.add_sub_cancel' (show m ≤ n by omega)] at hs₃
          rw [hmin,hrest] at hb₂
          exact ⟨b₂,hb₂,hs₃⟩
      obtain ⟨b₂,hb₂,hs₃⟩ := hdirect
      have hclen : ((s₁.rest.drop m).take (n-m)).length=n-m := by
        rw [List.length_take,List.length_drop]
        omega
      obtain ⟨b₃,hb₃,hs₄⟩ := ih hs₃ hd
      refine ⟨b₃,?_,hs₄⟩
      have hsub : len-m-(n-m)=len-n := by omega
      have htake : s₁.rest.take n=s₁.rest.take m++(s₁.rest.drop m).take (n-m) := by
        have hadd := List.take_add (l := s₁.rest) (i := m) (j := n-m)
        rwa [Nat.add_sub_cancel' (show m ≤ n by omega)] at hadd
      rw [if_neg hlen,bind_apply,get_apply,Outcome.andThen_done,bind_apply,hb₁,
        Outcome.andThen_done,bind_apply,get_apply,Outcome.andThen_done]
      rw [hm,bind_apply,hc,Outcome.andThen_done,bind_apply,hb₂,Outcome.andThen_done,bind_apply,
        hclen,hsub,hb₃,Outcome.andThen_done,pure_apply,htake]

/-- Bytes for a destination. -/
theorem follows_readBytesToBuffer (n : ℕ) :
    Follows (readBytesToBuffer n) (Reader.readBytesToBuffer n) := by
  intro b s a s' h hdone
  unfold readBytesToBuffer
  rw [← h.rest]
  exact h.copyLoop hdone

end Copying

end SpiritMysql.ReceiveBuffer
