import SpiritMysql.PacketFraming
import SpiritMysql.Writer

/-!
# What the writer hands over

A packet is open after some packets that are queued, and its payload so far
is a prefix. Sending operations hand over the queue and the packets of the
prefix followed by the data, or leave the last of these packets open.
-/

namespace SpiritMysql.PacketSends

open AsyncAction ByteCodec Errors PacketFraming Utf16Text Writer
open PacketStream (frame frame_length)
open Reader (maxPayload bufferLen)

/-- A packet is open after the queued packets, with a prefix in it. -/
structure Opened (s : State) (queued pre : List UInt8) : Prop where
  /-- The packet begins after the queue. -/
  start : s.bufferStart=queued.length
  /-- The prefix is after the place of the header. -/
  last : s.bufferEnd=queued.length+4+pre.length
  /-- The buffer. -/
  content : ∃ hole junk,hole.length=4 ∧ s.buffer=queued++(hole++(pre++junk))

/-- Nothing is queued. -/
def Stable (s : State) : Prop := s.bufferEnd=s.bufferStart

/-- Bytes were handed over and headers were set between two states. -/
structure Sent (s : State) (bytes : List UInt8) (headers : ℕ) (t : State) : Prop where
  /-- The bytes handed over. -/
  out : t.out=s.out++bytes
  /-- The packet numbers that were used. -/
  number : t.sequenceId=s.sequenceId+headers
  /-- The buffer keeps its size. -/
  size : t.buffer.length=s.buffer.length
  /-- The protocol stays the same. -/
  compression : t.compression=s.compression

theorem Sent.refl (s : State) : Sent s [] 0 s := ⟨(List.append_nil _).symm,rfl,rfl,rfl⟩

/-- What was handed over in two steps. -/
theorem Sent.trans {s t u : State} {a b : List UInt8} {m n : ℕ} (h : Sent s a m t)
    (g : Sent t b n u) : Sent s (a++b) (m+n) u where
  out := by rw [g.out,h.out,List.append_assoc]
  number := by rw [g.number,h.number,Nat.add_assoc]
  size := g.size.trans h.size
  compression := g.compression.trans h.compression

/-- The prefix is inside the buffer. -/
theorem Opened.room {s : State} {q pre : List UInt8} (h : Opened s q pre) :
    s.bufferEnd ≤ s.buffer.length := by
  obtain ⟨hole,junk,hh,hb⟩ := h.content
  rw [hb,h.last]
  simp only [List.length_append]
  omega

/-- The size of the prefix, as the code computes it. -/
theorem Opened.filled {s : State} {q pre : List UInt8} (h : Opened s q pre) :
    s.bufferEnd-s.bufferStart-4=pre.length := by
  have hs := h.start
  have hl := h.last
  omega

/-- The size of the first chunk. -/
theorem Opened.chunk {s : State} {q pre : List UInt8} (h : Opened s q pre)
    (hp : pre.length ≤ maxPayload) :
    (maxPayload : ℤ)-(s.bufferEnd-s.bufferStart-4)=((maxPayload-pre.length : ℕ) : ℤ) := by
  have hs := h.start
  have hl := h.last
  omega

/-- The header of a packet whose size fits three bytes. -/
theorem header_eq {n : ℕ} (seq : ℕ) (h : n ≤ maxPayload) :
    header n seq=leBytes 3 n++[.ofNat seq] := by
  have hn : n < 2^24 := by
    unfold maxPayload at h
    omega
  have ho : n ||| seq <<< 24=2^24*seq+n := by
    rw [Nat.or_comm,←Nat.shiftLeft_add_eq_or_of_lt hn,Nat.shiftLeft_eq,Nat.mul_comm]
  have hb : ∀ m,leBytes 4 m=leBytes 3 m++[.ofNat (m/256/256/256)] := fun m => rfl
  have hc : leBytes 3 (2^24*seq+n)=leBytes 3 n := by
    rw [←leBytes_mod 3 (2^24*seq+n),←leBytes_mod 3 n]
    congr 1
    omega
  have hd : (2^24*seq+n)/256/256/256=seq := by omega
  rw [header,ho,hb,hc,hd]

@[simp] theorem header_length (n seq : ℕ) : (header n seq).length=4 := leBytes_length 4 _

/-- A header and a payload are a frame. -/
theorem header_frame {p : List UInt8} (seq : ℕ) (h : p.length ≤ maxPayload) :
    header p.length seq++p=frame (.ofNat seq,p) := by
  rw [header_eq seq h,frame,List.append_assoc]
  rfl

/-- Overwriting bytes between others. -/
theorem splice_between {a b c d : List UInt8} (h : b.length=c.length) :
    splice a.length b (a++(c++d))=a++(b++d) := by
  rw [splice,List.take_left,List.drop_append,List.drop_eq_nil_of_le (Nat.le_add_right _ _),
    List.nil_append,Nat.add_sub_cancel_left,h,List.drop_left]

/-- Overwriting keeps the size. -/
theorem splice_length {n : ℕ} {bytes buffer : List UInt8} (h : n+bytes.length ≤ buffer.length) :
    (splice n bytes buffer).length=buffer.length := by
  simp only [splice,List.length_append,List.length_take,List.length_drop]
  omega

/-- `buffer.set()` in the range. -/
theorem set_spec {n : ℕ} {bytes : List UInt8} {s : State} (h : n+bytes.length ≤ s.buffer.length) :
    set n bytes s=.done () {s with buffer := splice n bytes s.buffer} := if_pos h

/-- Setting the header of an open packet. -/
theorem setHeader_spec {s : State} {q pre : List UInt8} (h : Opened s q pre) (n : ℕ) :
    ∃ t,setHeader n s=.done () t ∧ Opened t q pre ∧ Sent s [] 1 t ∧
      t.buffer.take t.bufferEnd=q++(header n s.sequenceId++pre) := by
  obtain ⟨hole,junk,hh,hb⟩ := h.content
  have hs : splice s.bufferStart (header n s.sequenceId) s.buffer=
      q++(header n s.sequenceId++(pre++junk)) := by
    rw [h.start,hb]
    exact splice_between (by rw [header_length,hh])
  have hr : s.bufferStart+(header n s.sequenceId).length ≤ s.buffer.length := by
    have h1 := h.room
    rw [h.last] at h1
    rw [header_length,h.start]
    omega
  refine ⟨{s with sequenceId := s.sequenceId+1,
                  buffer := q++(header n s.sequenceId++(pre++junk))},?_,
    ⟨h.start,h.last,_,junk,header_length _ _,rfl⟩,⟨(List.append_nil _).symm,rfl,?_,rfl⟩,?_⟩
  · rw [←hs]
    exact set_spec (s := {s with sequenceId := s.sequenceId+1}) hr
  · show (q++(header n s.sequenceId++(pre++junk))).length=s.buffer.length
    rw [←hs]
    exact splice_length hr
  · show (q++(header n s.sequenceId++(pre++junk))).take s.bufferEnd=_
    have ha : q++(header n s.sequenceId++(pre++junk))=
        (q++(header n s.sequenceId++pre))++junk := by
      simp only [List.append_assoc]
    rw [ha]
    refine List.take_left' ?_
    rw [h.last]
    simp only [List.length_append,header_length]
    omega

/-- Sending the open packet with a header of any size. -/
theorem sendCurrent_spec {s : State} {q pre : List UInt8} (h : Opened s q pre) (n : ℕ) :
    ∃ t,sendCurrent n s=.done () t ∧ Opened t q pre ∧
      Sent s (q++(header n s.sequenceId++pre)) 1 t := by
  obtain ⟨u,hu,ho,hs,ht⟩ := setHeader_spec h n
  refine ⟨{u with out := u.out++u.buffer.take u.bufferEnd},?_,⟨ho.start,ho.last,ho.content⟩,
    ⟨?_,hs.number,hs.size,hs.compression⟩⟩
  · simp only [sendCurrent,bind_apply,hu,Outcome.andThen_done,get_apply]
    rfl
  · show u.out++u.buffer.take u.bufferEnd=_
    rw [ht,hs.out,List.append_nil]

/-- `send()` of an open packet. -/
theorem send_spec {s : State} {q pre : List UInt8} (h : Opened s q pre) :
    ∃ t,send s=.done () t ∧ Stable t ∧
      Sent s (q++(header pre.length s.sequenceId++pre)) 1 t := by
  obtain ⟨u,hu,ho,hs,ht⟩ := setHeader_spec h pre.length
  have hl : u.bufferEnd=s.bufferEnd := ho.last.trans h.last.symm
  refine ⟨{u with bufferStart := 0, bufferEnd := 0,
                  out := u.out++u.buffer.take u.bufferEnd},?_,rfl,
    ⟨?_,hs.number,hs.size,hs.compression⟩⟩
  · simp only [send,bind_apply,get_apply,Outcome.andThen_done,h.filled,hu,setBounds,
      modify_apply,sendPackets,hl]
  · show u.out++u.buffer.take u.bufferEnd=_
    rw [ht,hs.out,List.append_nil]

/-- A packet opened at the beginning of the buffer. -/
theorem opened_empty {s : State} (h : 4 ≤ s.buffer.length) :
    Opened {s with bufferStart := 0, bufferEnd := 4} [] [] where
  start := rfl
  last := rfl
  content := ⟨s.buffer.take 4,s.buffer.drop 4,by rw [List.length_take]; omega,
    (List.take_append_drop 4 _).symm⟩

/-- Bytes written to the open packet extend its prefix. -/
theorem Opened.extend {s : State} {q pre bytes : List UInt8} (h : Opened s q pre)
    (hr : s.bufferEnd+bytes.length ≤ s.buffer.length) :
    ∃ t,(do set s.bufferEnd bytes; skip bytes.length : Write Unit) s=.done () t ∧
      Opened t q (pre++bytes) ∧ Sent s [] 0 t := by
  obtain ⟨hole,junk,hh,hb⟩ := h.content
  have hj : bytes.length ≤ junk.length := by
    rw [hb,h.last] at hr
    simp only [List.length_append] at hr
    omega
  have ha : s.buffer=(q++(hole++pre))++(junk.take bytes.length++junk.drop bytes.length) := by
    rw [hb,List.take_append_drop]
    simp only [List.append_assoc]
  have hl : s.bufferEnd=(q++(hole++pre)).length := by
    rw [h.last]
    simp only [List.length_append]
    omega
  have hs : splice s.bufferEnd bytes s.buffer=
      q++(hole++((pre++bytes)++junk.drop bytes.length)) := by
    rw [hl,ha,splice_between (by rw [List.length_take]; omega)]
    simp only [List.append_assoc]
  refine ⟨{s with buffer := splice s.bufferEnd bytes s.buffer,
                  bufferEnd := s.bufferEnd+bytes.length},?_,
    ⟨h.start,?_,hole,junk.drop bytes.length,hh,hs⟩,
    ⟨(List.append_nil _).symm,rfl,splice_length hr,rfl⟩⟩
  · rw [bind_apply,set_spec hr]
    rfl
  · show s.bufferEnd+bytes.length=_
    rw [h.last,List.length_append]
    omega

/-- `writeShortBytes()` of bytes that fit. -/
theorem writeShortBytes_spec {s : State} {q pre bytes : List UInt8} (h : Opened s q pre)
    (hr : s.bufferEnd+bytes.length ≤ s.buffer.length) :
    ∃ t,writeShortBytes bytes s=.done () t ∧ Opened t q (pre++bytes) ∧ Sent s [] 0 t :=
  h.extend hr

/-- `writeShortString()` of a string that fits. -/
theorem writeShortString_spec {s : State} {q pre : List UInt8} {text : List UInt16}
    (h : Opened s q pre) (hr : s.bufferEnd+(encode text).length ≤ s.buffer.length) :
    ∃ t,writeShortString text s=.done () t ∧ Opened t q (pre++encode text) ∧ Sent s [] 0 t := by
  have he : encodeInto text (s.buffer.length-s.bufferEnd)=(text.length,encode text) :=
    encodeInto_all (by omega)
  simp only [writeShortString,bind_apply,get_apply,Outcome.andThen_done,he]
  exact h.extend hr

/-! ## How a sending operation ends -/

/-- The bytes in the queue, with the header that the open packet will get. -/
def pending (s : State) : List UInt8 :=
  if s.bufferEnd=s.bufferStart then []
  else s.buffer.take s.bufferStart++(header (s.bufferEnd-s.bufferStart-4) s.sequenceId++
    (s.buffer.take s.bufferEnd).drop (s.bufferStart+4))

/-- The number of packets in the queue that have no header yet. -/
def openCount (s : State) : ℕ := if s.bufferEnd=s.bufferStart then 0 else 1

/-- Nothing is pending in a stable state. -/
theorem Stable.pending {s : State} (h : Stable s) : pending s=[] := if_pos h

theorem Stable.openCount {s : State} (h : Stable s) : openCount s=0 := if_pos h

/-- A state with an open packet is not stable. -/
theorem Opened.not_stable {s : State} {q pre : List UInt8} (h : Opened s q pre) :
    s.bufferEnd≠s.bufferStart := by
  have hs := h.start
  have hl := h.last
  omega

theorem Opened.openCount {s : State} {q pre : List UInt8} (h : Opened s q pre) :
    openCount s=1 := if_neg h.not_stable

/-- What is pending when a packet is open. -/
theorem Opened.pending {s : State} {q pre : List UInt8} (h : Opened s q pre) :
    pending s=q++(header pre.length s.sequenceId++pre) := by
  obtain ⟨hole,junk,hh,hb⟩ := h.content
  have ha : s.buffer=(q++hole)++(pre++junk) := by rw [hb,List.append_assoc]
  have hc : s.buffer=((q++hole)++pre)++junk := by rw [ha]; simp only [List.append_assoc]
  have hq : s.buffer.take s.bufferStart=q := by rw [hb,h.start,List.take_left]
  have hp : (s.buffer.take s.bufferEnd).drop (s.bufferStart+4)=pre := by
    have ht : s.buffer.take s.bufferEnd=(q++hole)++pre := by
      rw [hc]
      refine List.take_left' ?_
      rw [h.last]
      simp only [List.length_append,hh]
    rw [ht]
    refine List.drop_left' ?_
    rw [h.start,List.length_append,hh]
  rw [PacketSends.pending,if_neg h.not_stable,h.filled,hq,hp]

/-- A sending operation left either nothing or one open packet that is not a
full one, with room for one more prelude. All bytes were handed over or are
pending. -/
structure Ended (s : State) (bytes : List UInt8) (headers : ℕ) (waits : Bool) (t : State) :
    Prop where
  /-- The bytes handed over and those that are pending. -/
  out : t.out++pending t=s.out++bytes
  /-- The packet numbers that were used or will be. -/
  number : t.sequenceId+openCount t=s.sequenceId+headers
  /-- The buffer keeps its size. -/
  size : t.buffer.length=s.buffer.length
  /-- The protocol stays the same. -/
  compression : t.compression=s.compression
  /-- When nothing waits, nothing is queued. -/
  stable : waits=false → Stable t
  /-- When the packet waits, it is open. -/
  waiting : waits=true → t.hasRoom=true ∧ ∃ q pre,Opened t q pre ∧ pre.length < maxPayload

/-- An operation that sent all. -/
theorem Sent.ended {s t : State} {bytes : List UInt8} {n : ℕ} (h : Sent s bytes n t)
    (hs : Stable t) : Ended s bytes n false t where
  out := by rw [hs.pending,List.append_nil,h.out]
  number := by rw [hs.openCount,h.number,Nat.add_zero]
  size := h.size
  compression := h.compression
  stable _ := hs
  waiting h := by cases h

/-- An operation that left its last packet open. -/
theorem Sent.waits {s t : State} {bytes q pre : List UInt8} {n : ℕ} (h : Sent s bytes n t)
    (ho : Opened t q pre) (hp : pre.length < maxPayload) (hr : t.hasRoom=true) :
    Ended s (bytes++(q++frame (.ofNat t.sequenceId,pre))) (n+1) true t where
  out := by rw [ho.pending,header_frame _ hp.le,h.out,List.append_assoc]
  number := by rw [ho.openCount,h.number,Nat.add_assoc]
  size := h.size
  compression := h.compression
  stable h := by cases h
  waiting _ := ⟨hr,q,pre,ho,hp⟩

/-- Continue after what was handed over. -/
theorem Sent.andEnded {s t u : State} {a b : List UInt8} {m n : ℕ} {w : Bool}
    (h : Sent s a m t) (g : Ended t b n w u) : Ended s (a++b) (m+n) w u where
  out := by rw [g.out,h.out,List.append_assoc]
  number := by rw [g.number,h.number,Nat.add_assoc]
  size := g.size.trans h.size
  compression := g.compression.trans h.compression
  stable := g.stable
  waiting := g.waiting

end SpiritMysql.PacketSends
