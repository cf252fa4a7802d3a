import SpiritMysql.Deferral

/-!
# Discarded packets

`discardPacket()` after a packet was started behind others that are queued,
as `#sendComStmtExecute()` does it at the end of a stream, and what is sent
of the queue after that.
-/

namespace SpiritMysql.DiscardedPackets

open AsyncAction ByteCodec Deferral Errors PacketSends Writer

/-- `discardPacket()`. -/
def discardPacket : Write Unit := do
  let s ← get
  setBounds s.bufferStart s.bufferStart

/-- Start a packet, and write bytes to it. -/
def startAndWrite (resetSequenceId : Bool) (bytes : List UInt8) : Write Unit := do
  startWritingNewPacket resetSequenceId
  writeShortBytes bytes

/-- Start a packet, write bytes to it, and discard it. -/
def startAndDiscard (resetSequenceId : Bool) (bytes : List UInt8) : Write Unit := do
  startAndWrite resetSequenceId bytes
  discardPacket

/-- The loop of `#sendComStmtExecute()` over what a stream or a reader delivers for
a parameter. The result tells whether there was something. -/
def sendReader (prelude : List UInt8) : ℕ → Bool → List (List UInt8) → Write Bool
  | 0,_,_ => wait
  | fuel+1,isNotEmpty,chunks => do
    startAndWrite true prelude
    match chunks with
    | [] => do
      discardPacket
      pure isNotEmpty
    | chunk::chunks => do
      let s ← get
      let room := s.buffer.length-s.bufferEnd
      writeShortBytes (chunk.take room)
      send
      sendReader prelude fuel true
        (if chunk.length ≤ room then chunks else chunk.drop room::chunks)

/-- A packet to write: whether a command begins with it, and the payload. -/
abbrev Packet := Bool×List UInt8

/-- Queue packets. -/
def writeBatch : List Packet → Write Unit
  | [] => pure ()
  | p::ps => do
    startAndWrite p.1 p.2
    writeBatch ps

/-- Queue packets, and send all. -/
def sendBatch (ps : List Packet) : Write Unit := do
  writeBatch ps
  send

/-- The bytes of packets, from a packet number on. -/
def framed : ℕ → List Packet → List UInt8
  | _,[] => []
  | seq,p::ps =>
    header p.2.length (if p.1=true then 0 else seq)++(p.2++framed ((if p.1=true then 0 else seq)+1) ps)

/-- What is queued in the buffer: nothing, packets of which the last one has no
header yet, or the tail of long data that waits for the next packet. -/
inductive Queue (s : State) : List UInt8 → Prop
  | nothing (h : Stable s) : Queue s []
  | packets {q pre : List UInt8} (h : Opened s q pre) :
      Queue s (q++(header pre.length s.sequenceId++pre))
  | tail (h : Stable s) (hl : s.bufferStart ≤ s.buffer.length) :
      Queue s (s.buffer.take s.bufferStart)

/-- Queued bytes are still sent, once and in front of the packets that are sent
next, whatever they are. -/
def SendsFirst (out queue : List UInt8) (t : State) : Prop :=
  ∀ ps u,ps≠[] → sendBatch ps t=.done () u → u.out=out++(queue++framed t.sequenceId ps)

/-- A packet can be open, or not. -/
def Regular (s : State) : Prop := Stable s ∨ ∃ q pre,Opened s q pre

/-- What the state is known to be when something is queued. -/
theorem Queue.regular {s : State} {q : List UInt8} (h : Queue s q) : Regular s := by
  cases h with
  | nothing h => exact Or.inl h
  | packets h => exact Or.inr ⟨_,_,h⟩
  | tail h hl => exact Or.inl h

/-- Where a new packet begins, and that everything before it was given a header. -/
theorem openPacket_bounds {s : State} (h : Regular s) :
    ∃ t,openPacket s=.done () t ∧ t.bufferStart=queueEnd s ∧ t.bufferEnd=queueEnd s+4 ∧
      t.buffer.length=s.buffer.length ∧ t.out=s.out ∧ t.sequenceId=nextNumber s ∧
      t.buffer.take (queueEnd s)=pending s := by
  rcases h with hs|⟨q,pre,ho⟩
  · have he : s.bufferEnd=s.bufferStart := hs
    refine ⟨{s with bufferStart := 0, bufferEnd := 4},?_,?_,?_,rfl,rfl,?_,?_⟩
    · simp only [openPacket,bind_apply,get_apply,Outcome.andThen_done,branch_apply,if_pos he]
      rfl
    · rw [queueEnd,if_pos he]
    · rw [queueEnd,if_pos he]
    · rw [nextNumber,hs.openCount]
      rfl
    · rw [queueEnd,if_pos he,hs.pending]
      rfl
  · obtain ⟨u,hu,hou,hsu,htu⟩ := setHeader_spec ho pre.length
    have hue : u.bufferEnd=s.bufferEnd := hou.last.trans ho.last.symm
    have hq : queueEnd s=s.bufferEnd := if_neg ho.not_stable
    refine ⟨{u with bufferStart := s.bufferEnd, bufferEnd := s.bufferEnd+4},?_,hq.symm,?_,hsu.size,
      ?_,?_,?_⟩
    · simp only [openPacket,bind_apply,get_apply,Outcome.andThen_done,branch_apply,
        if_neg ho.not_stable,ho.filled,hu]
      rfl
    · rw [hq]
    · exact hsu.out.trans (List.append_nil _)
    · rw [nextNumber,ho.openCount]
      exact hsu.number
    · rw [hq,ho.pending,←hue]
      exact htu

/-- A packet is started behind what is pending. -/
theorem start_bounds {s : State} (reset : Bool) (h : Regular s) :
    ∃ t,startWritingNewPacket reset s=.done () t ∧ t.bufferStart=queueEnd s ∧
      t.bufferEnd=queueEnd s+4 ∧ t.buffer.length=s.buffer.length ∧ t.out=s.out ∧
      t.sequenceId=(if reset=true then 0 else nextNumber s) ∧
      t.buffer.take (queueEnd s)=pending s := by
  obtain ⟨u,hu,hs,he,hl,ho,hn,hp⟩ := openPacket_bounds h
  unfold startWritingNewPacket
  rw [bind_apply,hu,Outcome.andThen_done]
  by_cases hr : reset=true
  · refine ⟨{u with sequenceId := 0},?_,hs,he,hl,ho,(if_pos hr).symm,hp⟩
    simp only [doWhen,if_pos hr]
    rfl
  · refine ⟨u,?_,hs,he,hl,ho,?_,hp⟩
    · simp only [doWhen,if_neg hr]
      rfl
    · rw [if_neg hr,hn]

/-- The bytes that are pending end where the next packet begins. -/
theorem pending_length {s : State} (h : Regular s) : (pending s).length=queueEnd s := by
  rcases h with hs|⟨q,pre,ho⟩
  · rw [hs.pending,queueEnd,if_pos (show s.bufferEnd=s.bufferStart from hs)]
    rfl
  · rw [ho.pending,queueEnd,if_neg ho.not_stable,ho.last]
    simp only [List.length_append,header_length]
    omega

/-- A started packet with its bytes, when they fit. -/
theorem startAndWrite_spec {s : State} (reset : Bool) {bytes : List UInt8} (h : Regular s)
    (hr : queueEnd s+4+bytes.length ≤ s.buffer.length) :
    ∃ t,startAndWrite reset bytes s=.done () t ∧ Opened t (pending s) bytes ∧ t.out=s.out ∧
      t.sequenceId=(if reset=true then 0 else nextNumber s) ∧ t.buffer.length=s.buffer.length := by
  obtain ⟨u,hu,hs,he,hl,ho,hn,hp⟩ := start_bounds reset h
  have hlen := pending_length h
  have hopen : Opened u (pending s) [] := by
    refine ⟨hs.trans hlen.symm,?_,(u.buffer.drop (queueEnd s)).take 4,
      (u.buffer.drop (queueEnd s)).drop 4,?_,?_⟩
    · rw [he,hlen]
      rfl
    · rw [List.length_take,List.length_drop,hl]
      omega
    · rw [List.nil_append,List.take_append_drop,←hp,List.take_append_drop]
  obtain ⟨t,ht,hopen',hsent⟩ := writeShortBytes_spec hopen (show u.bufferEnd+bytes.length ≤ _ by
    rw [he,hl]
    exact hr)
  refine ⟨t,?_,hopen',?_,hsent.number.trans hn,hsent.size.trans hl⟩
  · unfold startAndWrite
    rw [bind_apply,hu]
    exact ht
  · rw [hsent.out,List.append_nil,ho]

/-- A packet that was started and written did fit. -/
theorem startAndWrite_fits {s t : State} {reset : Bool} {bytes : List UInt8} (h : Regular s)
    (ht : startAndWrite reset bytes s=.done () t) : queueEnd s+4+bytes.length ≤ s.buffer.length := by
  obtain ⟨u,hu,-,he,hl,-⟩ := start_bounds reset h
  unfold startAndWrite at ht
  rw [bind_apply,hu,Outcome.andThen_done] at ht
  by_contra hn
  have hset : set u.bufferEnd bytes u=.thrown (.error "RangeError: offset is out of bounds") u :=
    if_neg (by
      rw [he,hl]
      exact hn)
  unfold writeShortBytes at ht
  rw [bind_apply,get_apply,Outcome.andThen_done,bind_apply,hset] at ht
  cases ht

/-- Packets are queued behind what is pending. -/
theorem writeBatch_spec {s u : State} {ps : List Packet} (h : Regular s)
    (hu : writeBatch ps s=.done () u) :
    Regular u ∧ u.out=s.out ∧ pending u=pending s++framed (nextNumber s) ps ∧
      (ps≠[] → ∃ q pre,Opened u q pre) := by
  induction ps generalizing s with
  | nil =>
    cases hu
    exact ⟨h,rfl,(List.append_nil _).symm,fun hn => absurd rfl hn⟩
  | cons p ps ih =>
    rw [writeBatch,bind_apply] at hu
    obtain ⟨⟨⟩,t,ht,hrest⟩ := Outcome.andThen_eq_done.mp hu
    obtain ⟨t',ht',ho,hout,hseq,-⟩ := startAndWrite_spec p.1 h (startAndWrite_fits h ht)
    obtain rfl : t'=t := by
      rw [ht'] at ht
      cases ht
      rfl
    obtain ⟨hreg,hout',hpend,hopen⟩ := ih (Or.inr ⟨_,_,ho⟩) hrest
    have hnext : nextNumber t'=(if p.1=true then 0 else nextNumber s)+1 := by
      rw [nextNumber,ho.openCount,hseq]
    refine ⟨hreg,hout'.trans hout,?_,fun _ => ?_⟩
    · rw [hpend,ho.pending,hnext,hseq,framed]
      simp only [List.append_assoc]
    · by_cases hps : ps=[]
      · subst hps
        cases hrest
        exact ⟨_,_,ho⟩
      · exact hopen hps

/-- A batch is sent behind what is pending. -/
theorem sendBatch_spec {s u : State} {ps : List Packet} (h : Regular s) (hps : ps≠[])
    (hu : sendBatch ps s=.done () u) : u.out=s.out++(pending s++framed (nextNumber s) ps) := by
  unfold sendBatch at hu
  rw [bind_apply] at hu
  obtain ⟨⟨⟩,t,ht,hsend⟩ := Outcome.andThen_eq_done.mp hu
  obtain ⟨-,hout,hpend,hopen⟩ := writeBatch_spec h ht
  obtain ⟨q,pre,ho⟩ := hopen hps
  obtain ⟨v,hv,-,hsent⟩ := send_spec ho
  rw [hv] at hsend
  cases hsend
  rw [hsent.out,hout,←ho.pending,hpend]

/-- A discarded packet leaves nothing in the buffer that is known to be queued. -/
theorem startAndDiscard_spec {s : State} (reset : Bool) {bytes : List UInt8} (h : Regular s)
    (hr : queueEnd s+4+bytes.length ≤ s.buffer.length) :
    ∃ t,startAndDiscard reset bytes s=.done () t ∧ Stable t ∧ t.out=s.out ∧
      t.buffer.length=s.buffer.length := by
  obtain ⟨u,hu,-,hout,-,hl⟩ := startAndWrite_spec reset h hr
  refine ⟨{u with bufferEnd := u.bufferStart},?_,rfl,hout,hl⟩
  unfold startAndDiscard
  rw [bind_apply,hu]
  rfl

/-- In a stable state, nothing but no bytes is sent first. -/
theorem sendsFirst_iff {out queue : List UInt8} {t : State} (ht : Stable t) (hout : t.out=out)
    (hl : 4 ≤ t.buffer.length) : SendsFirst out queue t ↔ queue=[] := by
  have hnext : nextNumber t=t.sequenceId := by rw [nextNumber,ht.openCount,Nat.add_zero]
  have hbatch : ∀ ps u,ps≠[] → sendBatch ps t=.done () u → u.out=out++framed t.sequenceId ps := by
    intro ps u hps hu
    rw [sendBatch_spec (Or.inl ht) hps hu,hout,ht.pending,hnext,List.nil_append]
  constructor
  · intro h
    have hq : queueEnd t=0 := if_pos ht
    obtain ⟨v,hv,ho,-⟩ := @startAndWrite_spec t true [] (Or.inl ht) (by rw [hq]; exact hl)
    obtain ⟨u,hu,-⟩ := send_spec ho
    have hsend : sendBatch [(true,[])] t=.done () u := by
      unfold sendBatch writeBatch
      rw [bind_apply,bind_apply,hv]
      exact hu
    have hne : [((true,[]) : Packet)]≠[] := List.cons_ne_nil _ _
    have hboth := (hbatch _ u hne hsend).symm.trans (h _ u hne hsend)
    have hlen := congrArg List.length (List.append_cancel_left hboth)
    rw [List.length_append] at hlen
    exact List.length_eq_zero_iff.mp (by omega)
  · intro h ps u hps hu
    rw [hbatch ps u hps hu,h,List.nil_append]

/-- An empty stream starts a packet and discards it. -/
theorem sendReader_nil (prelude : List UInt8) (fuel : ℕ) (isNotEmpty : Bool) (s : State) :
    sendReader prelude (fuel+1) isNotEmpty [] s=
      (startAndDiscard true prelude s).andThen (fun _ => pure isNotEmpty) := by
  unfold sendReader startAndDiscard
  rw [bind_apply,bind_apply]
  cases startAndWrite true prelude s with
  | done a t => rfl
  | thrown e t => rfl
  | waiting t => rfl

/-- Queued bytes are sent after a packet was started and discarded behind them only
if there are none. An empty stream does that. -/
theorem discardPacket_keeps_iff {s : State} {queue : List UInt8} (h : Queue s queue)
    (reset : Bool) {bytes : List UInt8} (hr : queueEnd s+4+bytes.length ≤ s.buffer.length) :
    ∃ t,startAndDiscard reset bytes s=.done () t ∧
      (reset=true → ∀ fuel,sendReader bytes (fuel+1) false [] s=.done false t) ∧
      (SendsFirst s.out queue t ↔ queue=[]) := by
  obtain ⟨t,ht,hs,hout,hl⟩ := startAndDiscard_spec reset h.regular hr
  refine ⟨t,ht,?_,sendsFirst_iff hs hout (by omega)⟩
  intro hreset fuel
  subst hreset
  rw [sendReader_nil,ht]
  rfl

/-- The command for the long data of a parameter. -/
def waitingPayload : List UInt8 := [24,1,0,0,0,0,0]++List.replicate 300 97

/-- The long data waits in the buffer. -/
def waitingData : State where
  buffer := List.replicate 4 0++(waitingPayload++List.replicate 7881 0)
  bufferStart := 0
  bufferEnd := 311

/-- Its packet is open. -/
theorem waitingData_opened : Opened waitingData [] waitingPayload where
  start := rfl
  last := by
    unfold waitingData waitingPayload
    rw [List.length_append,List.length_replicate]
    rfl
  content := ⟨List.replicate 4 0,List.replicate 7881 0,List.length_replicate,rfl⟩

/-- The bytes that wait. -/
def waitingBytes : List UInt8 :=
  []++(header waitingPayload.length waitingData.sequenceId++waitingPayload)

/-- They are queued. -/
theorem waitingData_queue : Queue waitingData waitingBytes := Queue.packets waitingData_opened

/-- The buffer has room for one more prelude. -/
theorem waitingData_room :
    queueEnd waitingData+4+[24,1,0,0,0,1,(0 : UInt8)].length ≤ waitingData.buffer.length := by
  unfold queueEnd waitingData waitingPayload
  simp only [List.length_append,List.length_replicate,List.length_cons,List.length_nil]
  decide

/-- The sample: the data of one parameter waits, and another parameter is an empty
stream. -/
theorem discardPacket_keeps_waiting :
    ∃ t,startAndDiscard true [24,1,0,0,0,1,0] waitingData=.done () t ∧
      (true=true → ∀ fuel,sendReader [24,1,0,0,0,1,0] (fuel+1) false [] waitingData=.done false t) ∧
      (SendsFirst waitingData.out waitingBytes t ↔ waitingBytes=[]) :=
  discardPacket_keeps_iff waitingData_queue true waitingData_room

/-- A discarded packet takes the queue with it. -/
theorem queue_discarded : ¬∀ (s : State) (queue : List UInt8) (reset : Bool) (bytes : List UInt8),
    Queue s queue → queueEnd s+4+bytes.length ≤ s.buffer.length →
    ∃ t,startAndDiscard reset bytes s=.done () t ∧ SendsFirst s.out queue t := by
  intro h
  obtain ⟨t,ht,hfirst⟩ := h waitingData waitingBytes true [24,1,0,0,0,1,0] waitingData_queue
    waitingData_room
  have hroom := waitingData_room
  obtain ⟨u,hu,hs,hout,hl⟩ := startAndDiscard_spec true waitingData_queue.regular hroom
  rw [hu] at ht
  cases ht
  have hnil := (sendsFirst_iff hs hout (by omega)).mp hfirst
  have hlen := congrArg List.length hnil
  unfold waitingBytes at hlen
  simp only [List.length_append,header_length,List.length_nil] at hlen
  omega

end SpiritMysql.DiscardedPackets
