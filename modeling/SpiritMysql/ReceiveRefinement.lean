import SpiritMysql.ReceiveBuffer

/-!
# The receive buffer follows the stream

Whatever the pieces in which the bytes arrive, and wherever the window stands in the
buffer, an operation on the receive buffer returns what the operation of the same name
returns on the stream of all bytes, and the window then shows what follows.
-/

namespace SpiritMysql.ReceiveBuffer

open AsyncAction ByteCodec Errors Reader

/-- The receive buffer shows a stream. -/
structure Shows (b : State) (s : Reader.State) : Prop where
  /-- The window. -/
  order : b.bufferStart ≤ b.bufferEnd
  /-- It is in the buffer. -/
  le : b.bufferEnd ≤ b.buffer.length
  /-- The size of the buffer. -/
  size : b.buffer.length=bufferLen
  /-- Nothing arrives in empty pieces. -/
  pieces : ∀ p ∈ b.incoming,p≠[]
  /-- The unread bytes. -/
  rest : s.rest=b.stream
  /-- The payload of the current packet. -/
  payloadLength : s.payloadLength=b.payloadLength
  /-- How much of it was read. -/
  packetOffset : s.packetOffset=b.packetOffset
  /-- The next packet number. -/
  sequenceId : s.sequenceId=b.sequenceId
  /-- The count of payload bytes. -/
  totalBytesInPacket : s.totalBytesInPacket=b.totalBytesInPacket

section Window

variable {b : State} {s : Reader.State}

/-- The window, from its beginning on. -/
theorem window_eq (b : State) : b.window=(b.buffer.drop b.bufferStart).take b.haveBytes := by
  unfold State.window State.haveBytes
  rw [List.drop_take]

/-- The size of the window. -/
theorem Shows.window_length (h : Shows b s) : b.window.length=b.haveBytes := by
  have ho := h.order
  have hl := h.le
  rw [window_eq,List.length_take,List.length_drop]
  unfold State.haveBytes
  omega

/-- The bytes at the beginning of the window. -/
theorem bytesAt_window {n : ℕ} (hn : n ≤ b.haveBytes) :
    b.bytesAt b.bufferStart n=b.window.take n := by
  rw [window_eq,List.take_take,Nat.min_eq_left hn]
  rfl

/-- The window is the beginning of the stream. -/
theorem Shows.bytesAt (h : Shows b s) {n : ℕ} (hn : n ≤ b.haveBytes) :
    b.bytesAt b.bufferStart n=s.rest.take n := by
  have hw := h.window_length
  rw [bytesAt_window hn,h.rest,State.stream,List.take_append_of_le_length (by omega)]

/-- The bytes after some bytes of the window. -/
theorem Shows.bytesAt_add (h : Shows b s) {k n : ℕ} (hn : k+n ≤ b.haveBytes) :
    b.bytesAt (b.bufferStart+k) n=(s.rest.drop k).take n := by
  have hb := h.bytesAt hn
  have hd := congrArg (List.drop k) hb
  unfold State.bytesAt at hd ⊢
  rw [List.drop_take,List.drop_drop,Nat.add_sub_cancel_left] at hd
  rw [hd,List.drop_take,Nat.add_sub_cancel_left]

/-- Not more than the stream is in the window. -/
theorem Shows.have_le (h : Shows b s) : b.haveBytes ≤ s.rest.length := by
  have hw := h.window_length
  rw [h.rest,State.stream,List.length_append]
  omega

/-- What is left of the current packet. -/
theorem Shows.lenInCurPacket (h : Shows b s) : s.lenInCurPacket=b.lenInCurPacket := by
  unfold Reader.State.lenInCurPacket State.lenInCurPacket
  rw [h.payloadLength,h.packetOffset]

/-- The window after some bytes. -/
theorem window_drop (b : State) (n : ℕ) :
    {b with bufferStart := b.bufferStart+n}.window=b.window.drop n := by
  unfold State.window
  rw [List.drop_drop]

/-- The beginning of the window moves on. -/
theorem Shows.drop (h : Shows b s) {n : ℕ} (hn : n ≤ b.haveBytes) :
    {b with bufferStart := b.bufferStart+n}.stream=s.rest.drop n := by
  have hw := h.window_length
  rw [h.rest,State.stream,window_drop,State.stream,List.drop_append_of_le_length (by omega)]

/-- Passing bytes of the payload. -/
theorem Shows.advance (h : Shows b s) {n : ℕ} (hn : n ≤ b.haveBytes) :
    Shows (b.advance n) (s.advance n) where
  order := by
    have ho := h.order
    have hb : b.haveBytes=b.bufferEnd-b.bufferStart := rfl
    change b.bufferStart+n ≤ b.bufferEnd
    omega
  le := h.le
  size := h.size
  pieces := h.pieces
  rest := (h.drop hn).symm
  payloadLength := h.payloadLength
  packetOffset := congrArg (fun z => z+(n : ℤ)) h.packetOffset
  sequenceId := h.sequenceId
  totalBytesInPacket := h.totalBytesInPacket

/-- Consuming bytes of the window. -/
theorem Shows.consume (h : Shows b s) {n : ℕ} (hn : n ≤ b.haveBytes) :
    consume n b=.done (s.rest.take n) (b.advance n) ∧ Shows (b.advance n) (s.advance n) := by
  refine ⟨?_,h.advance hn⟩
  unfold ReceiveBuffer.consume
  rw [h.bytesAt hn]

/-- A packet header is consumed. -/
theorem Shows.nextPacket (h : Shows b s) (hn : 4 ≤ b.haveBytes) :
    Shows b.nextPacket s.nextPacket where
  order := by
    have ho := h.order
    have hb : b.haveBytes=b.bufferEnd-b.bufferStart := rfl
    change b.bufferStart+4 ≤ b.bufferEnd
    omega
  le := h.le
  size := h.size
  pieces := h.pieces
  rest := (h.drop hn).symm
  payloadLength := by
    change leNat _=leNat _
    rw [h.bytesAt hn]
  packetOffset := rfl
  sequenceId := by
    change leInt 1 _+1=leInt 1 _+1
    rw [h.bytesAt hn]
  totalBytesInPacket := by
    change s.totalBytesInPacket+leNat _=b.totalBytesInPacket+leNat _
    rw [h.bytesAt hn,h.totalBytesInPacket]

end Window

/-! ## Receiving -/

section Receiving

variable {b : State} {s : Reader.State}

@[simp] theorem splice_length {at_ : ℕ} {bytes buffer : List UInt8}
    (h : at_+bytes.length ≤ buffer.length) : (splice at_ bytes buffer).length=buffer.length := by
  unfold splice
  rw [List.length_append,List.length_append,List.length_take,List.length_drop]
  omega

/-- What was written is read back after what was there before. -/
theorem splice_take {at_ : ℕ} {bytes buffer : List UInt8} (h : at_ ≤ buffer.length) :
    (splice at_ bytes buffer).take (at_+bytes.length)=buffer.take at_++bytes := by
  have hl : (buffer.take at_).length=at_ := by rw [List.length_take]; omega
  unfold splice
  rw [← List.append_assoc,List.take_append_of_le_length (by rw [List.length_append,hl]),
    List.take_of_length_le (by rw [List.length_append,hl])]

/-- One read adds to the window. -/
theorem Shows.receive (h : Shows b s) (hroom : b.bufferEnd < b.buffer.length)
    (hmore : b.incoming≠[]) : ∃ b',receive b=.done () b' ∧ Shows b' s ∧
      b'.bufferStart=b.bufferStart ∧ b.bufferEnd < b'.bufferEnd := by
  obtain ⟨piece,rest,hin⟩ := List.exists_cons_of_ne_nil hmore
  have hpiece : piece≠[] := h.pieces piece (by rw [hin]; exact List.mem_cons_self)
  have hsize : b.buffer.length-b.bufferEnd≠0 := by omega
  have hlen : 0 < piece.length := List.length_pos_iff.mpr hpiece
  have hvalue : piece.take (b.buffer.length-b.bufferEnd)≠[] := by
    intro he
    have hz := congrArg List.length he
    rw [List.length_take,List.length_nil] at hz
    omega
  have hfit : b.bufferEnd+(piece.take (b.buffer.length-b.bufferEnd)).length ≤ b.buffer.length := by
    rw [List.length_take]
    omega
  have hpos : 0 < (piece.take (b.buffer.length-b.bufferEnd)).length :=
    List.length_pos_iff.mpr hvalue
  have hread := readFromConn_piece hsize hin
  refine ⟨{b with
    incoming := if piece.drop (b.buffer.length-b.bufferEnd)=[] then rest
      else piece.drop (b.buffer.length-b.bufferEnd)::rest
    buffer := splice b.bufferEnd (piece.take (b.buffer.length-b.bufferEnd)) b.buffer
    bufferEnd := b.bufferEnd+(piece.take (b.buffer.length-b.bufferEnd)).length},?_,?_,rfl,?_⟩
  · unfold ReceiveBuffer.receive
    rw [bind_apply,get_apply,Outcome.andThen_done,bind_apply,hread,Outcome.andThen_done]
    dsimp only
    rw [branch_apply,if_neg hvalue,modify_apply]
  · have ho := h.order
    refine ⟨Nat.le_add_right_of_le ho,?_,?_,?_,?_,h.payloadLength,h.packetOffset,h.sequenceId,
      h.totalBytesInPacket⟩
    · dsimp only
      rw [splice_length hfit]
      exact hfit
    · dsimp only
      rw [splice_length hfit]
      exact h.size
    · intro p hp
      dsimp only at hp
      split at hp
      · exact h.pieces p (by rw [hin]; exact List.mem_cons_of_mem _ hp)
      · rename_i hne
        rcases List.mem_cons.mp hp with rfl | hp
        · exact hne
        · exact h.pieces p (by rw [hin]; exact List.mem_cons_of_mem _ hp)
    · have hflat : (if piece.drop (b.buffer.length-b.bufferEnd)=[] then rest
          else piece.drop (b.buffer.length-b.bufferEnd)::rest).flatten=
            piece.drop (b.buffer.length-b.bufferEnd)++rest.flatten := by
        split
        · rename_i he
          rw [he,List.nil_append]
        · rw [List.flatten_cons]
      rw [h.rest]
      unfold State.stream State.window
      dsimp only
      have hdrop : (b.buffer.take b.bufferEnd++piece.take (b.buffer.length-b.bufferEnd)).drop
          b.bufferStart=(b.buffer.take b.bufferEnd).drop b.bufferStart++
            piece.take (b.buffer.length-b.bufferEnd) :=
        List.drop_append_of_le_length (by rw [List.length_take]; omega)
      rw [hflat,splice_take h.le,hdrop,hin,List.flatten_cons,List.append_assoc,
        ← List.append_assoc (piece.take _),List.take_append_drop]
  · exact Nat.lt_add_of_pos_right hpos

/-- When the window has fewer bytes than the stream, more will arrive. -/
theorem Shows.more (h : Shows b s) (hn : b.haveBytes < s.rest.length) : b.incoming≠[] := by
  intro hin
  have hw := h.window_length
  rw [h.rest,State.stream,hin,List.flatten_nil,List.append_nil] at hn
  omega

/-- The loop fills the window, when the stream has enough bytes. -/
theorem Shows.fillTo (h : Shows b s) {target fuel : ℕ} (ht : target ≤ bufferLen)
    (hn : target-b.bufferStart ≤ s.rest.length) (hfuel : target-b.bufferEnd < fuel) :
    ∃ b',fillTo target fuel b=.done () b' ∧ Shows b' s ∧ b'.bufferStart=b.bufferStart ∧
      target ≤ b'.bufferEnd := by
  induction fuel generalizing b with
  | zero => omega
  | succ fuel ih =>
    unfold ReceiveBuffer.fillTo
    rw [bind_apply,get_apply,Outcome.andThen_done,branch_apply]
    by_cases hlt : b.bufferEnd < target
    · have ho := h.order
      have hb : b.haveBytes=b.bufferEnd-b.bufferStart := rfl
      have hsize := h.size
      obtain ⟨b₁,h₁,hs₁,hstart,hend⟩ := h.receive (by omega) (h.more (by omega))
      obtain ⟨b₂,h₂,hs₂,hstart₂,hend₂⟩ := ih hs₁ (by omega) (by omega)
      refine ⟨b₂,?_,hs₂,hstart₂.trans hstart,hend₂⟩
      rw [if_pos hlt,bind_apply,h₁,Outcome.andThen_done,h₂]
    · exact ⟨b,by rw [if_neg hlt]; rfl,h,rfl,by omega⟩

/-- Moving the window changes nothing of the stream. -/
theorem Shows.compact (h : Shows b s) : Shows b.compact s := by
  have hw := h.window_length
  have ho := h.order
  have hl := h.le
  have hb : b.haveBytes=b.bufferEnd-b.bufferStart := rfl
  have hfit : 0+b.window.length ≤ b.buffer.length := by omega
  have hlen : (splice 0 b.window b.buffer).length=b.buffer.length := splice_length hfit
  refine ⟨Nat.zero_le _,?_,?_,h.pieces,?_,h.payloadLength,h.packetOffset,h.sequenceId,
    h.totalBytesInPacket⟩
  · change b.bufferEnd-b.bufferStart ≤ (splice 0 b.window b.buffer).length
    omega
  · exact hlen.trans h.size
  · rw [h.rest]
    have hwin : b.compact.window=b.window := by
      have ht : (splice 0 b.window b.buffer).take b.window.length=b.window := by
        have hs := @splice_take 0 b.window b.buffer (Nat.zero_le _)
        rwa [Nat.zero_add,List.take_zero,List.nil_append] at hs
      change ((splice 0 b.window b.buffer).take (b.bufferEnd-b.bufferStart)).drop 0=b.window
      rw [List.drop_zero,← hb,← hw,ht]
    unfold State.stream
    rw [hwin]
    rfl

/-- Room is made without changing the stream. -/
theorem Shows.makeRoom (h : Shows b s) {n : ℕ} (hn : n ≤ bufferLen) :
    Shows (b.makeRoom n) s ∧ (b.makeRoom n).bufferStart+n ≤ bufferLen := by
  unfold State.makeRoom
  by_cases he : b.bufferStart=b.bufferEnd
  · rw [if_pos he]
    refine ⟨⟨Nat.le_refl 0,Nat.zero_le _,h.size,h.pieces,?_,h.payloadLength,h.packetOffset,
      h.sequenceId,h.totalBytesInPacket⟩,by simpa using hn⟩
    rw [h.rest]
    unfold State.stream State.window
    dsimp only
    rw [he,List.take_zero,List.drop_nil,List.drop_eq_nil_of_le (by rw [List.length_take]; omega)]
  · rw [if_neg he]
    by_cases hr : b.buffer.length < b.bufferStart+n
    · rw [if_pos hr]
      exact ⟨h.compact,by simpa [State.compact] using hn⟩
    · rw [if_neg hr]
      have hsize := h.size
      exact ⟨h,by omega⟩

/-- Enough bytes are received, when the stream has them. -/
theorem Shows.recvAtLeast (h : Shows b s) {n : ℕ} (hn : n ≤ bufferLen) (hr : n ≤ s.rest.length) :
    ∃ b',recvAtLeast n b=.done () b' ∧ Shows b' s ∧ n ≤ b'.haveBytes := by
  obtain ⟨h₁,hroom⟩ := h.makeRoom hn
  have ho := h₁.order
  have hfuel : (b.makeRoom n).bufferStart+n-(b.makeRoom n).bufferEnd < n+1 := by omega
  obtain ⟨b',hb',hs',hstart,hend⟩ := h₁.fillTo hroom (by omega) hfuel
  refine ⟨b',?_,hs',?_⟩
  · unfold ReceiveBuffer.recvAtLeast
    rw [bind_apply,modify_apply,Outcome.andThen_done,bind_apply,get_apply,Outcome.andThen_done,hb']
  · unfold State.haveBytes
    omega

/-- A packet header is read. -/
theorem Shows.header (h : Shows b s) (hr : 4 ≤ s.rest.length) :
    ∃ b',header b=.done () b' ∧ Shows b' s.nextPacket := by
  by_cases hh : 4 ≤ b.haveBytes
  · refine ⟨b.nextPacket,orAsync_some ?_ _,h.nextPacket hh⟩
    rw [readPacketHeader,if_pos hh]
    rfl
  · obtain ⟨b₁,h₁,hs₁,hhave⟩ := h.recvAtLeast (show 4 ≤ bufferLen by decide) hr
    refine ⟨b₁.nextPacket,?_,hs₁.nextPacket hhave⟩
    have hnone : (readPacketHeader b).map (fun b' => ((),b'))=none := by
      rw [readPacketHeader,if_neg hh]
      rfl
    unfold ReceiveBuffer.header
    rw [orAsync_none hnone,readPacketHeaderAsync,bind_apply,h₁,Outcome.andThen_done,modify_apply]

end Receiving

end SpiritMysql.ReceiveBuffer
