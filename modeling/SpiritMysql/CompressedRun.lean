import Mathlib.Data.List.Forall2
import SpiritMysql.CompressedWriter

/-!
# Runs with and without compression

The same operations of two connections, one of which compresses: they queue
and hand over the same packets, and the peer of the compressed connection
reads the bytes that the other one writes.
-/

namespace SpiritMysql.CompressedRun

open ByteCodec CompressedPackets CompressedReader CompressedWriter

/-- A connection at the time when the algorithm is chosen. -/
def initial (compression : Option Compression) (bufferLength sequenceId compressedSeqId : ℕ) :
    State :=
  {bufferLength, compression, sequenceId, compressedSeqId}

/-! ## Command starts in the buffer -/

/-- Only the marks matter. -/
theorem startsFrom_congr {α β : Type} {i : ℕ} {a : List (α×Bool)} {b : List (β×Bool)}
    (h : a.map Prod.snd=b.map Prod.snd) : startsFrom i a=startsFrom i b := by
  induction a generalizing i b with
  | nil =>
    cases b with
    | nil => rfl
    | cons q b => cases h
  | cons p a ih =>
    cases b with
    | nil => cases h
    | cons q b =>
      obtain ⟨hm,ht⟩ := List.cons.inj h
      rw [startsFrom,startsFrom,hm,ih ht]

theorem startsFrom_append {α : Type} (i : ℕ) (a b : List (α×Bool)) :
    startsFrom i (a++b)=startsFrom i a++startsFrom (i+a.length) b := by
  induction a generalizing i with
  | nil => rfl
  | cons p a ih =>
    have hi : i+1+a.length=i+(p::a).length := by
      rw [List.length_cons]
      omega
    rw [List.cons_append,startsFrom,startsFrom,ih,hi]
    split
    · rfl
    · rfl

/-- Bytes without marks. -/
theorem startsFrom_unmarked {α : Type} (i : ℕ) {a : List (α×Bool)} (h : ∀ p ∈ a,p.2=false) :
    startsFrom i a=[] := by
  induction a generalizing i with
  | nil => rfl
  | cons p a ih =>
    have hp := h p List.mem_cons_self
    rw [startsFrom,if_neg (by rw [hp]; decide),ih _ (fun q hq => h q (List.mem_cons_of_mem p hq))]

/-- The indices are not below the first one and below the end. -/
theorem startsFrom_bounds {α : Type} {i : ℕ} {a : List (α×Bool)} {n : ℕ}
    (h : n ∈ startsFrom i a) : i ≤ n ∧ n < i+a.length := by
  induction a generalizing i with
  | nil => exact absurd h List.not_mem_nil
  | cons p a ih =>
    rw [startsFrom] at h
    rw [List.length_cons]
    split at h
    · cases List.mem_cons.mp h with
      | inl h => omega
      | inr h =>
        have hn := ih h
        omega
    · have hn := ih h
      omega

/-- A discarded packet takes its command start with it. -/
theorem startsFrom_take {α : Type} {buffer : List (α×Bool)} {n : ℕ} (hn : n < buffer.length)
    (ht : ∀ p ∈ buffer.drop (n+1),p.2=false) :
    startsFrom 0 (buffer.take n)=
      if (startsFrom 0 buffer).getLast?=some n then (startsFrom 0 buffer).dropLast
      else startsFrom 0 buffer := by
  have hlen : (buffer.take n).length=n := List.length_take_of_le hn.le
  obtain ⟨p,hp⟩ : ∃ p,buffer.drop n=p::buffer.drop (n+1) :=
    ⟨buffer[n],List.drop_eq_getElem_cons hn⟩
  have hsplit : startsFrom 0 buffer=startsFrom 0 (buffer.take n)++startsFrom n (buffer.drop n) := by
    have h := startsFrom_append 0 (buffer.take n) (buffer.drop n)
    rwa [List.take_append_drop,hlen,Nat.zero_add] at h
  have hrest : startsFrom n (buffer.drop n)=if p.2=true then [n] else [] := by
    rw [hp,startsFrom,startsFrom_unmarked _ ht]
  rw [hsplit,hrest]
  by_cases hm : p.2=true
  · rw [if_pos hm,List.getLast?_concat,if_pos rfl,List.dropLast_concat]
  · rw [if_neg hm,List.append_nil,if_neg]
    intro hl
    have hb := startsFrom_bounds (List.mem_of_getLast? hl)
    omega

/-- Bytes without marks are appended. -/
theorem startsFrom_append_unmarked {α : Type} {buffer more : List (α×Bool)}
    (h : ∀ p ∈ more,p.2=false) : startsFrom 0 (buffer++more)=startsFrom 0 buffer := by
  rw [startsFrom_append,startsFrom_unmarked _ h,List.append_nil]

/-- The header that is not set yet has its mark at the first byte. -/
theorem startsFrom_unsetHeader (buffer : List Slot) (command : Bool) :
    startsFrom 0 (buffer++unsetHeader command)=
      if command=true then startsFrom 0 buffer++[buffer.length] else startsFrom 0 buffer := by
  rw [startsFrom_append,Nat.zero_add]
  cases command with
  | false => exact List.append_nil _
  | true => rfl

/-- The marks of overwritten slots stay. -/
theorem overwrite_marks {bytes : List UInt8} {slots : List Slot} (h : slots.length ≤ bytes.length) :
    (overwrite bytes slots).map Prod.snd=slots.map Prod.snd := by
  induction slots generalizing bytes with
  | nil =>
    unfold overwrite
    rw [List.zipWith_nil_right]
  | cons p slots ih =>
    cases bytes with
    | nil => exact absurd h (Nat.not_succ_le_zero _)
    | cons b bytes =>
      have hs := ih (Nat.le_of_succ_le_succ h)
      exact congrArg (p.2::·) hs

/-- The marks of known bytes. -/
theorem known_marks {slots : List Slot} {cells : List Cell} (h : known slots=some cells) :
    cells.map Prod.snd=slots.map Prod.snd := by
  induction slots generalizing cells with
  | nil =>
    cases h
    rfl
  | cons p slots ih =>
    obtain ⟨b,command⟩ := p
    cases b with
    | none => cases h
    | some b =>
      obtain ⟨more,hk,rfl⟩ := Option.map_eq_some_iff.mp h
      exact congrArg (command::·) (ih hk)

/-- The buffer does not shrink. -/
theorem growLoop_ge (wantLen fuel len : ℕ) : len ≤ growLoop wantLen fuel len := by
  induction fuel generalizing len with
  | zero => exact le_rfl
  | succ fuel ih =>
    unfold growLoop
    split
    · have h := ih (len*2)
      omega
    · exact le_rfl

/-! ## Two connections -/

/-- The compressed packets of an event. -/
inductive EventCuts : Event → List Item → Prop
  | sent {cells : List Cell} {items : List Item} (hc : cellsOf items=cells) (hs : AllSent items)
      (hl : Short items) : EventCuts (.sent cells) items
  | received (seqId : ℕ) : EventCuts (.received seqId) [.received seqId]

/-- The bytes of an ordinary connection and of a compressed one, with the packets
in which they travel. -/
structure Wires (z : Codec) (c : Compression) (first : ℕ) (p s : State)
    (groups : List (List Item)) : Prop where
  /-- Each event has its packets. -/
  events : List.Forall₂ EventCuts p.log groups
  /-- They are numbered. -/
  numbered : Numbered first groups.flatten
  /-- The next number. -/
  next : s.compressedSeqId=nextAfter first groups.flatten
  /-- The compressed bytes. -/
  packets : s.wire=wireOf z c groups.flatten
  /-- The ordinary bytes. -/
  plain : p.wire=bytesOf (cellsOf groups.flatten)

/-- A connection that compresses follows one that does not. -/
structure Follows (z : Codec) (c : Compression) (first : ℕ) (p s : State) : Prop where
  /-- One does not compress. -/
  ordinary : p.compression=none
  /-- The other one does. -/
  compressed : s.compression=some c
  /-- The buffers hold the same. -/
  buffer : s.buffer=p.buffer
  /-- The current packets begin at one place. -/
  bufferStart : s.bufferStart=p.bufferStart
  /-- The buffers are of one size. -/
  bufferLength : s.bufferLength=p.bufferLength
  /-- Packets are numbered alike. -/
  sequenceId : s.sequenceId=p.sequenceId
  /-- They have the same history. -/
  log : s.log=p.log
  /-- Command starts are where commands begin. -/
  starts : s.commandStarts=startsFrom 0 p.buffer
  /-- No command begins inside the current packet. -/
  current : ∀ slot ∈ p.buffer.drop (p.bufferStart+1),slot.2=false
  /-- The bytes fit the buffer. -/
  fits : p.buffer.length ≤ p.bufferLength
  /-- The buffer is an array. -/
  array : p.bufferLength < maxArray
  /-- What was sent. -/
  wires : ∃ groups,Wires z c first p s groups

/-- They begin alike. -/
theorem follows_initial (z : Codec) (c : Compression) {bufferLength : ℕ} (sequenceId first : ℕ)
    (h : bufferLength < maxArray) :
    Follows z c first (initial none bufferLength sequenceId first)
      (initial (some c) bufferLength sequenceId first) where
  ordinary := rfl
  compressed := rfl
  buffer := rfl
  bufferStart := rfl
  bufferLength := rfl
  sequenceId := rfl
  log := rfl
  starts := rfl
  current := fun _ hs => absurd hs List.not_mem_nil
  fits := Nat.zero_le _
  array := h
  wires := ⟨[],⟨List.Forall₂.nil,trivial,rfl,rfl,rfl⟩⟩

variable {z : Codec} {c : Compression} {first : ℕ} {p s p' : State}

/-- The header of the current packet is set. -/
theorem follows_setHeader {payloadLength : ℕ} (h : Follows z c first p s)
    (hp : setHeader payloadLength p=some p') :
    ∃ s',setHeader payloadLength s=some s' ∧ Follows z c first p' s' := by
  unfold setHeader at hp
  split at hp
  · next hl =>
    cases hp
    have hlen : ((p.buffer.drop p.bufferStart).take 4).length=4 := by
      rw [List.length_take,List.length_drop]
      omega
    have hmarks : ((overwrite (Writer.header payloadLength p.sequenceId)
        ((p.buffer.drop p.bufferStart).take 4))).map Prod.snd=
        ((p.buffer.drop p.bufferStart).take 4).map Prod.snd := by
      refine overwrite_marks ?_
      rw [hlen]
      exact (leBytes_length 4 _).ge
    have hnew : (p.buffer.take p.bufferStart++
        (overwrite (Writer.header payloadLength p.sequenceId) ((p.buffer.drop p.bufferStart).take 4)++
          p.buffer.drop (p.bufferStart+4))).map Prod.snd=p.buffer.map Prod.snd := by
      have hsplit : p.buffer.take p.bufferStart++
          ((p.buffer.drop p.bufferStart).take 4++p.buffer.drop (p.bufferStart+4))=p.buffer := by
        rw [←List.drop_drop,List.take_append_drop,List.take_append_drop]
      conv => rhs; rw [←hsplit]
      rw [List.map_append,List.map_append,hmarks,List.map_append,List.map_append]
    refine ⟨_,by
      unfold setHeader
      rw [h.buffer,h.bufferStart,if_pos hl],?_⟩
    exact {h with
      buffer := by
        dsimp only
        rw [h.sequenceId]
      bufferStart := rfl
      sequenceId := congrArg (·+1) h.sequenceId
      starts := h.starts.trans (startsFrom_congr hnew.symm)
      current := by
        intro slot hs
        have hm := List.mem_map_of_mem (f := Prod.snd) hs
        dsimp only at hm
        rw [List.map_drop,hnew,←List.map_drop] at hm
        obtain ⟨slot',hs',he⟩ := List.mem_map.mp hm
        rw [←he]
        exact h.current slot' hs'
      fits := by
        have hl' := congrArg List.length hnew
        rw [List.length_map,List.length_map] at hl'
        exact hl'.trans_le h.fits
      wires := by
        obtain ⟨groups,hw⟩ := h.wires
        exact ⟨groups,{hw with}⟩}
  · cases hp

/-- A packet begins at the end of the buffer. -/
theorem follows_pushHeader {command : Bool} (h : Follows z c first p s)
    (hp : pushHeader command p=some p') :
    ∃ s',pushHeader command s=some s' ∧ Follows z c first p' s' := by
  unfold pushHeader at hp
  split at hp
  · next hl =>
    cases hp
    refine ⟨_,by
      unfold pushHeader
      rw [h.buffer,h.bufferLength,if_pos hl],?_⟩
    exact {h with
      buffer := rfl
      bufferStart := rfl
      bufferLength := rfl
      sequenceId := by
        dsimp only
        rw [h.sequenceId]
      starts := by
        have hs : s.compression≠none := by
          rw [h.compressed]
          exact Option.some_ne_none c
        dsimp only
        rw [startsFrom_unsetHeader,h.starts]
        by_cases hc : command=true
        · rw [if_pos ⟨hc,hs⟩,if_pos hc]
        · rw [if_neg (fun hn => hc hn.1),if_neg hc]
      current := by
        intro slot hs
        dsimp only at hs
        rw [List.drop_append,List.drop_of_length_le (Nat.le_succ _),List.nil_append,
          Nat.add_sub_cancel_left] at hs
        have hall : ∀ slot ∈ (unsetHeader command).drop 1,slot.2=false := by
          unfold unsetHeader
          simp only [List.drop_one,List.tail_cons,List.mem_cons,List.not_mem_nil,or_false,
            forall_eq_or_imp,forall_eq,and_self]
        exact hall slot hs
      fits := by
        dsimp only
        rw [List.length_append]
        exact hl
      wires := by
        obtain ⟨groups,hw⟩ := h.wires
        exact ⟨groups,{hw with}⟩}
  · cases hp

/-- The buffers are emptied. -/
theorem Follows.restart (h : Follows z c first p s) (n : ℕ) :
    Follows z c first {p with buffer := [], bufferStart := n, commandStarts := []}
      {s with buffer := [], bufferStart := n, commandStarts := []} :=
  {h with
    buffer := rfl
    bufferStart := rfl
    starts := rfl
    current := fun slot hs => by
      rw [List.drop_nil] at hs
      exact absurd hs List.not_mem_nil
    fits := Nat.zero_le _
    wires := by
      obtain ⟨groups,hw⟩ := h.wires
      exact ⟨groups,{hw with}⟩}

/-- A packet is begun. -/
theorem follows_startWritingNewPacket {reset : Bool} (h : Follows z c first p s)
    (hp : startWritingNewPacket reset p=some p') :
    ∃ s',startWritingNewPacket reset s=some s' ∧ Follows z c first p' s' := by
  unfold startWritingNewPacket at hp
  split at hp
  · next he =>
    have hs := follows_pushHeader (h.restart p.bufferStart) hp
    unfold startWritingNewPacket
    rw [h.buffer,h.bufferStart,if_pos he]
    rw [←h.bufferStart] at hs
    exact hs
  · next he =>
    cases hset : setHeader (p.buffer.length-p.bufferStart-4) p with
    | none =>
      rw [hset] at hp
      cases hp
    | some p₁ =>
      rw [hset] at hp
      obtain ⟨s₁,hs₁,h₁⟩ := follows_setHeader h hset
      obtain ⟨s',hs',h'⟩ := follows_pushHeader h₁ hp
      refine ⟨s',?_,h'⟩
      unfold startWritingNewPacket
      rw [h.buffer,h.bufferStart,if_neg he,hs₁]
      exact hs'

/-- A packet is discarded. -/
theorem follows_discardPacket (h : Follows z c first p s) (hp : discardPacket p=some p') :
    ∃ s',discardPacket s=some s' ∧ Follows z c first p' s' := by
  unfold discardPacket at hp
  split at hp
  · next hl =>
    cases hp
    refine ⟨_,by
      unfold discardPacket
      rw [h.buffer,h.bufferStart,if_pos hl],?_⟩
    exact {h with
      buffer := rfl
      bufferStart := rfl
      starts := by
        dsimp only
        rw [startsFrom_take (by omega) h.current,h.starts]
      current := by
        intro slot hs
        dsimp only at hs
        rw [List.drop_of_length_le ((List.length_take_le _ _).trans (Nat.le_succ _))] at hs
        exact absurd hs List.not_mem_nil
      fits := by
        dsimp only
        rw [List.length_take]
        exact (Nat.min_le_right _ _).trans h.fits
      wires := by
        obtain ⟨groups,hw⟩ := h.wires
        exact ⟨groups,{hw with}⟩}
  · cases hp

/-- Bytes are written. -/
theorem follows_write {bytes : List UInt8} (h : Follows z c first p s)
    (hp : write bytes p=some p') : ∃ s',write bytes s=some s' ∧ Follows z c first p' s' := by
  unfold write at hp
  split at hp
  · next hl =>
    cases hp
    have hplain : ∀ slot ∈ bytes.map (fun b => ((some b,false) : Slot)),slot.2=false := by
      intro slot hs
      obtain ⟨b,-,rfl⟩ := List.mem_map.mp hs
      rfl
    refine ⟨_,by
      unfold write
      rw [h.buffer,h.bufferLength,if_pos hl],?_⟩
    exact {h with
      buffer := rfl
      bufferLength := rfl
      starts := h.starts.trans (startsFrom_append_unmarked hplain).symm
      current := by
        intro slot hs
        dsimp only at hs
        rw [List.drop_append] at hs
        cases List.mem_append.mp hs with
        | inl hs => exact h.current slot hs
        | inr hs => exact hplain slot (List.mem_of_mem_drop hs)
      fits := by
        dsimp only
        rw [List.length_append,List.length_map]
        exact hl
      wires := by
        obtain ⟨groups,hw⟩ := h.wires
        exact ⟨groups,{hw with}⟩}
  · cases hp

/-- The first header of the rest of a command is left out. -/
theorem follows_reserveHeader (h : Follows z c first p s) (hp : reserveHeader p=some p') :
    ∃ s',reserveHeader s=some s' ∧ Follows z c first p' s' := by
  unfold reserveHeader at hp
  split at hp
  · next hl =>
    cases hp
    have hplain : ∀ slot ∈ unsetHeader false,slot.2=false := by
      unfold unsetHeader
      simp only [List.mem_cons,List.not_mem_nil,or_false,forall_eq_or_imp,forall_eq,and_self]
    refine ⟨_,by
      unfold reserveHeader
      rw [h.buffer,h.bufferLength,if_pos hl],?_⟩
    exact {h with
      buffer := rfl
      bufferLength := rfl
      starts := by
        have hs := h.starts
        rw [hl.1] at hs
        exact hs
      current := fun slot hs => hplain slot (List.mem_of_mem_drop hs)
      fits := hl.2
      wires := by
        obtain ⟨groups,hw⟩ := h.wires
        exact ⟨groups,{hw with}⟩}
  · cases hp

/-- The buffer grows. -/
theorem follows_ensureRoom {room : ℕ} (h : Follows z c first p s)
    (hp : ensureRoom room p=some p') : ∃ s',ensureRoom room s=some s' ∧ Follows z c first p' s' := by
  unfold ensureRoom at hp ⊢
  rw [h.buffer,h.bufferLength]
  dsimp only at hp ⊢
  split at hp
  · next hw =>
    split at hp
    · next hl =>
      cases hp
      rw [if_pos hw,if_pos hl]
      refine ⟨_,rfl,?_⟩
      exact {h with
        buffer := rfl
        bufferLength := rfl
        fits := by
          have hg := growLoop_ge (p.buffer.length+room) (p.buffer.length+room) (p.bufferLength*2)
          have hf := h.fits
          dsimp only
          omega
        array := hl
        wires := by
          obtain ⟨groups,hw⟩ := h.wires
          exact ⟨groups,{hw with}⟩}
    · cases hp
  · next hw =>
    cases hp
    rw [if_neg hw]
    exact ⟨s,rfl,h⟩

/-- Items after other ones. -/
theorem Wires.append {p s p' s' : State} {groups : List (List Item)} {event : Event}
    {items : List Item} (h : Wires z c first p s groups) (hlog : p'.log=p.log++[event])
    (hcut : EventCuts event items) (hn : Numbered s.compressedSeqId items)
    (hnext : s'.compressedSeqId=nextAfter s.compressedSeqId items)
    (hwire : s'.wire=s.wire++wireOf z c items) (hplain : p'.wire=p.wire++bytesOf (cellsOf items)) :
    Wires z c first p' s' (groups++[items]) := by
  have hf : (groups++[items]).flatten=groups.flatten++items := by
    rw [List.flatten_append,List.flatten_singleton]
  have hnum := h.next
  constructor
  · rw [hlog]
    exact List.rel_append h.events (List.Forall₂.cons hcut List.Forall₂.nil)
  · rw [hf]
    exact numbered_append h.numbered (by rw [←hnum]; exact hn)
  · rw [hf,nextAfter_append,←hnum,hnext]
  · rw [hf,wireOf_append,←h.packets,hwire]
  · rw [hf,cellsOf_append,hplain,h.plain]
    exact List.map_append.symm

/-- Bytes are handed over. -/
theorem follows_handOver {writeAt : ℕ} {cells : List Cell} (h : Follows z c first p s)
    (hl : cells.length < 2^31) (hp : handOver z writeAt cells [] p=some p') :
    ∃ s',handOver z writeAt cells (startsFrom 0 cells) s=some s' ∧ Follows z c first p' s' := by
  obtain ⟨items,hto,hcut⟩ :=
    toCompressedPackets_spec z c s.bufferLength writeAt s.compressedSeqId hl
  obtain ⟨groups,hw⟩ := h.wires
  unfold handOver at hp ⊢
  rw [h.ordinary] at hp
  rw [h.compressed]
  dsimp only at hp ⊢
  rw [hto]
  cases hp
  refine ⟨_,rfl,?_⟩
  exact {h with
    ordinary := rfl
    compressed := rfl
    log := congrArg (·++[Event.sent cells]) h.log
    wires := ⟨groups++[items],@Wires.append z c first p s _ _ _ _ _ hw rfl
      (EventCuts.sent hcut.cells hcut.sent hcut.short) hcut.numbered rfl rfl (by rw [hcut.cells])⟩}

/-- The packets of the buffer are handed over. -/
theorem follows_sendPackets (h : Follows z c first p s) (hp : sendPackets z p=some p') :
    ∃ s',sendPackets z s=some s' ∧ Follows z c first p' s' := by
  have hfit := h.fits
  have harr := h.array
  unfold maxArray at harr
  unfold sendPackets at hp
  cases hk : known p.buffer with
  | none =>
    rw [hk] at hp
    cases hp
  | some cells =>
    rw [hk] at hp
    dsimp only at hp
    obtain ⟨p₁,hp₁,rfl⟩ := Option.map_eq_some_iff.mp hp
    have hm := known_marks hk
    have hlen := congrArg List.length hm
    rw [List.length_map,List.length_map] at hlen
    have hany : handOver z cells.length cells [] p=some p₁ := by
      unfold handOver at hp₁ ⊢
      rw [h.ordinary] at hp₁ ⊢
      exact hp₁
    obtain ⟨s₁,hs₁,h₁⟩ := follows_handOver h (by omega) hany
    have hst : s.commandStarts=startsFrom 0 cells := h.starts.trans (startsFrom_congr hm.symm)
    refine ⟨_,?_,h₁.restart 0⟩
    unfold sendPackets
    rw [h.buffer,hk]
    dsimp only
    rw [hst,hs₁]
    rfl

/-- The packets are completed and handed over. -/
theorem follows_send (h : Follows z c first p s) (hp : send z p=some p') :
    ∃ s',send z s=some s' ∧ Follows z c first p' s' := by
  unfold send at hp ⊢
  rw [h.buffer,h.bufferStart]
  cases hset : setHeader (p.buffer.length-p.bufferStart-4) p with
  | none =>
    rw [hset] at hp
    cases hp
  | some p₁ =>
    rw [hset] at hp
    obtain ⟨s₁,hs₁,h₁⟩ := follows_setHeader h hset
    rw [hs₁]
    exact follows_sendPackets h₁ hp

/-- A continuation is handed over. -/
theorem follows_sendData {data : List UInt8} {inBuffer : Bool} (h : Follows z c first p s)
    (hp : sendData z data inBuffer p=some p') :
    ∃ s',sendData z data inBuffer s=some s' ∧ Follows z c first p' s' := by
  unfold sendData at hp
  split at hp
  · next hc =>
    have hplain : startsFrom 0 (data.map (fun b => ((b,false) : Cell)))=[] := by
      refine startsFrom_unmarked 0 ?_
      intro cell hm
      obtain ⟨b,-,rfl⟩ := List.mem_map.mp hm
      rfl
    obtain ⟨s',hs',h'⟩ := follows_handOver h (by rw [List.length_map]; exact hc.2) hp
    rw [hplain] at hs'
    refine ⟨s',?_,h'⟩
    unfold sendData
    rw [h.buffer,if_pos hc]
    exact hs'
  · cases hp

/-- A compressed packet is received. -/
theorem follows_receive (seqId : ℕ) (h : Follows z c first p s) :
    Follows z c first (receive seqId p) (receive seqId s) := by
  obtain ⟨groups,hw⟩ := h.wires
  have hs : s.compression≠none := by
    rw [h.compressed]
    exact Option.some_ne_none c
  unfold receive
  exact {h with
    log := congrArg (·++[Event.received seqId]) h.log
    wires := ⟨groups++[[.received seqId]],@Wires.append z c first p s _ _ _ _ _ hw rfl
      (EventCuts.received seqId) (show Numbered s.compressedSeqId [.received seqId] from trivial) (if_neg hs) (List.append_nil _).symm
      (List.append_nil _).symm⟩}

/-- One operation. -/
theorem follows_step {op : Op} (h : Follows z c first p s) (hp : step z p op=some p') :
    ∃ s',step z s op=some s' ∧ Follows z c first p' s' := by
  cases op with
  | startWritingNewPacket reset => exact follows_startWritingNewPacket h hp
  | discardPacket => exact follows_discardPacket h hp
  | write bytes => exact follows_write h hp
  | setHeader payloadLength => exact follows_setHeader h hp
  | send => exact follows_send h hp
  | sendPackets => exact follows_sendPackets h hp
  | reserveHeader => exact follows_reserveHeader h hp
  | sendData data inBuffer => exact follows_sendData h hp
  | ensureRoom room => exact follows_ensureRoom h hp
  | receive seqId =>
    cases hp
    exact ⟨_,rfl,follows_receive seqId h⟩

/-- Operations one after another. -/
theorem follows_run {ops : List Op} (h : Follows z c first p s) (hp : run z ops p=some p') :
    ∃ s',run z ops s=some s' ∧ Follows z c first p' s' := by
  induction ops generalizing p s with
  | nil =>
    cases hp
    exact ⟨s,rfl,h⟩
  | cons op ops ih =>
    rw [run] at hp
    cases hop : step z p op with
    | none =>
      rw [hop] at hp
      cases hp
    | some p₁ =>
      rw [hop] at hp
      obtain ⟨s₁,hs₁,h₁⟩ := follows_step h hop
      obtain ⟨s',hs',h'⟩ := ih h₁ hp
      refine ⟨s',?_,h'⟩
      rw [run,hs₁]
      exact hs'

/-! ## The peer -/

/-- The packets among the items. -/
def sentItems : List Item → List Item
  | [] => []
  | .received _::items => sentItems items
  | .part seqId cells::items => .part seqId cells::sentItems items

/-- The packets are on the wire, and hold all bytes. -/
theorem sentItems_wire (z : Codec) (c : Compression) (items : List Item) :
    wireOf z c (sentItems items)=wireOf z c items ∧ cellsOf (sentItems items)=cellsOf items := by
  induction items with
  | nil => exact ⟨rfl,rfl⟩
  | cons i items ih =>
    cases i with
    | received n => exact ih
    | part n cells =>
      constructor
      · rw [sentItems,wireOf,wireOf,ih.1]
      · rw [sentItems,cellsOf,cellsOf,ih.2]

/-- Numbered packets that are not too long can be sent. -/
theorem sendable_sentItems {next : ℕ} {items : List Item} (hn : Numbered next items)
    (hs : Short items) : Sendable (sentItems items) := by
  induction items generalizing next with
  | nil => exact trivial
  | cons i items ih =>
    have hrest : Short items := fun n cells h => hs n cells (List.mem_cons_of_mem i h)
    cases i with
    | received n => exact ih hn hrest
    | part n cells => exact ⟨hn.1,hs n cells List.mem_cons_self,ih hn.2.2.2 hrest⟩

/-- The packets of all events are not too long. -/
theorem short_flatten {events : List Event} {groups : List (List Item)}
    (h : List.Forall₂ EventCuts events groups) : Short groups.flatten := by
  induction h with
  | nil => exact fun _ _ hm => absurd hm List.not_mem_nil
  | cons he h ih =>
    intro n cells hm
    rw [List.flatten_cons] at hm
    cases List.mem_append.mp hm with
    | inr hm => exact ih n cells hm
    | inl hm =>
      cases he with
      | sent hc hs hl => exact hl n cells hm
      | received m => cases List.mem_singleton.mp hm

/-- What a peer of the compressed connection will read. -/
theorem awaits_peer {groups : List (List Item)} (h : Wires z c first p s groups)
    {chunks : List (List UInt8)} (hc : ∀ chunk ∈ chunks,chunk≠[]) (hw : chunks.flatten=s.wire) :
    ∃ last,Awaits z {compression := c, transport := chunks} p.wire last := by
  obtain ⟨hwire,hcells⟩ := sentItems_wire z c groups.flatten
  refine ⟨_,sentItems groups.flatten,[],sendable_sentItems h.numbered (short_flatten h.events),
    ⟨hc,Or.inr ⟨rfl,rfl,?_⟩⟩,?_,rfl⟩
  · rw [hwire,←h.packets]
    exact hw
  · rw [hcells,h.plain]
    rfl

/-- A compressor that knows repetitions of one byte only. -/
def repeatCompress (data : List UInt8) : List UInt8 :=
  if data=List.replicate data.length (data.headD 0) ∧ 8 ≤ data.length ∧ data.length < 256^4 then
    1::data.headD 0::leBytes 4 data.length
  else 0::data

/-- Its decompressor. -/
def repeatDecompress : List UInt8 → Option (List UInt8)
  | 1::b::len => some (List.replicate (leNat len) b)
  | 0::data => some data
  | _ => none

/-- A codec. -/
def repeatCodec : Codec where
  compress := fun _ => repeatCompress
  decompress := fun _ => repeatDecompress
  decompress_compress := by
    intro _ data
    unfold repeatCompress
    split
    · next h =>
      have hlen := leNat_leBytes_of_lt h.2.2
      change some (List.replicate (leNat (leBytes 4 data.length)) (data.headD 0))=some data
      rw [hlen]
      exact congrArg some h.1.symm
    · rfl
  compress_length := by
    intro c data hl
    have hs : (repeatCompress data).length ≤ data.length+1 := by
      unfold repeatCompress
      split
      · rw [List.length_cons,List.length_cons,leBytes_length]
        omega
      · exact le_rfl
    cases c with
    | ZLIB =>
      unfold compressBound deflateBound
      dsimp only
      rw [shiftRight_eq hl,shiftRight_eq hl,shiftRight_eq hl]
      omega
    | ZSTD =>
      unfold compressBound zstdCompressBound
      dsimp only
      rw [shiftRight_eq hl]
      split
      · rw [shiftRight_eq (by omega)]
        omega
      · omega

/-- A long command, a response, and a batch of two short commands. -/
def sampleOps : List Op :=
  [.startWritingNewPacket true,.write (List.replicate 60 7),.send,.receive 3,
    .startWritingNewPacket true,.write [14],.startWritingNewPacket true,.write [31],.send]

end SpiritMysql.CompressedRun
