import SpiritMysql.ByteSends
import SpiritMysql.StringSends

/-!
# Deferred packets

A sequence of packets is written twice: once each packet waits in the
buffer when it can and may, and once each is sent immediately. The two hand
over the same bytes when no packet strays.
-/

namespace SpiritMysql.Deferral

open AsyncAction ByteCodec ByteSends Errors PacketFraming PacketSends StringSends Utf16Text Writer
open PacketStream (frame frame_length)
open Reader (maxPayload bufferLen)

/-- A packet to write: a short prelude, and a string or a byte array. -/
structure Outgoing where
  /-- The packet begins a command. -/
  resetSequenceId : Bool
  /-- The bytes before the data. -/
  prelude : List UInt8
  /-- A string, or a byte array. -/
  data : List UInt16 ⊕ List UInt8
  /-- The packet may wait in the buffer. -/
  canWait : Bool
  /-- The prelude and a packet header are as short as the writer expects. -/
  short : 4+prelude.length ≤ maxCanWaitPacketPreludeBytes

/-- The data as a source. -/
def Outgoing.source (p : Outgoing) : SqlSource :=
  match p.data with
  | .inl text => .string text
  | .inr bytes => .bytes bytes

/-- The data as bytes. -/
def Outgoing.bytes (p : Outgoing) : List UInt8 :=
  match p.data with
  | .inl text => encode text
  | .inr bytes => bytes

/-- Write one packet. -/
def writePacket (p : Outgoing) (canWait : Bool) : Write Bool := do
  startWritingNewPacket p.resetSequenceId
  writeShortBytes p.prelude
  sendWithData p.source canWait

/-- Write packets one after another. A packet waits only when deferring is
on and it may wait. -/
def writeAll (defer : Bool) : List Outgoing → Write Unit
  | [] => pure ()
  | p::ps => do
    let _ ← writePacket p (defer && p.canWait)
    writeAll defer ps

/-- Where the queue ends. -/
def queueEnd (s : State) : ℕ := if s.bufferEnd=s.bufferStart then 0 else s.bufferEnd

/-- A byte array that may wait does not fit the buffer after the queue, and
fits it alone. -/
def Loses (p : Outgoing) (s : State) : Prop :=
  match p.data with
  | .inl _ => False
  | .inr bytes =>
    p.canWait=true ∧ s.compression=false ∧
      s.buffer.length < queueEnd s+4+p.prelude.length+bytes.length ∧
      bytes.length+maxCanWaitPacketPreludeBytes ≤ s.buffer.length

/-- No packet of a sequence is lost. -/
def Kept : List Outgoing → State → Prop
  | [],_ => True
  | p::ps,s => ¬Loses p s ∧ ∀ w t,writePacket p p.canWait s=.done w t → Kept ps t

/-- A packet can be started: nothing is queued, or what is queued leaves
room for a prelude. -/
structure Ready (s : State) : Prop where
  /-- The buffer has its usual size. -/
  size : s.buffer.length=bufferLen
  /-- The queue. -/
  queue : Stable s ∨ (s.hasRoom=true ∧ ∃ q pre,Opened s q pre ∧ pre.length < maxPayload)

/-- The bytes handed over and those that are pending. -/
def total (s : State) : List UInt8 := s.out++pending s

/-- The number of the next packet. -/
def nextNumber (s : State) : ℕ := s.sequenceId+openCount s

/-- The number of the first packet of a payload. -/
def firstNumber (p : Outgoing) (s : State) : ℕ :=
  if p.resetSequenceId=true then 0 else nextNumber s

/-- The queue of an open packet ends where the buffer is filled. -/
theorem pending_length {s : State} (h : Ready s) : (pending s).length=queueEnd s := by
  rcases h.queue with hs | ⟨-,q,pre,ho,-⟩
  · rw [hs.pending,queueEnd,if_pos (show s.bufferEnd=s.bufferStart from hs)]
    rfl
  · rw [ho.pending,queueEnd,if_neg ho.not_stable,ho.last]
    simp only [List.length_append,header_length]
    omega

/-- A packet opened after the queue. -/
theorem openPacket_spec {s : State} (h : Ready s) :
    ∃ t,openPacket s=.done () t ∧ Opened t (pending s) [] ∧ t.out=s.out ∧
      t.sequenceId=nextNumber s ∧ t.buffer.length=s.buffer.length ∧
      t.compression=s.compression ∧ t.bufferEnd+8 ≤ t.buffer.length := by
  have hl := h.size
  rcases h.queue with hs | ⟨hr,q,pre,ho,hp⟩
  · refine ⟨{s with bufferStart := 0, bufferEnd := 4},?_,?_,rfl,?_,rfl,rfl,?_⟩
    · simp only [openPacket,bind_apply,get_apply,Outcome.andThen_done,branch_apply,
        if_pos (show s.bufferEnd=s.bufferStart from hs)]
      rfl
    · rw [hs.pending]
      refine opened_empty ?_
      rw [hl]
      decide
    · rw [nextNumber,hs.openCount]
      rfl
    · show 4+8 ≤ s.buffer.length
      rw [hl]
      decide
  · obtain ⟨u,hu,hou,hsu,htu⟩ := setHeader_spec ho pre.length
    have hroom : s.bufferEnd+maxCanWaitPacketPreludeBytes ≤ s.buffer.length :=
      of_decide_eq_true hr
    unfold maxCanWaitPacketPreludeBytes at hroom
    have hue : u.bufferEnd=s.bufferEnd := hou.last.trans ho.last.symm
    have hul : u.buffer.length=s.buffer.length := hsu.size
    have hpe : u.buffer.take s.bufferEnd=pending s := by
      rw [ho.pending,←htu,hue]
    refine ⟨{u with bufferStart := s.bufferEnd, bufferEnd := s.bufferEnd+4},?_,⟨?_,?_,
      (u.buffer.drop s.bufferEnd).take 4,(u.buffer.drop s.bufferEnd).drop 4,?_,?_⟩,?_,?_,hul,
      hsu.compression,?_⟩
    · simp only [openPacket,bind_apply,get_apply,Outcome.andThen_done,branch_apply,
        if_neg ho.not_stable,ho.filled,hu]
      rfl
    · show s.bufferEnd=_
      rw [pending_length h,queueEnd,if_neg ho.not_stable]
    · show s.bufferEnd+4=_
      rw [pending_length h,queueEnd,if_neg ho.not_stable]
      rfl
    · rw [List.length_take,List.length_drop]
      omega
    · show u.buffer=_
      rw [←hpe,List.nil_append,List.take_append_drop,List.take_append_drop]
    · have hx := hsu.out
      rwa [List.append_nil] at hx
    · show u.sequenceId=_
      rw [hsu.number,nextNumber,ho.openCount]
    · show s.bufferEnd+4+8 ≤ u.buffer.length
      omega

/-- A packet opened after the queue, with its prelude. -/
theorem started_spec {s : State} (p : Outgoing) (h : Ready s) :
    ∃ t,(∀ canWait,writePacket p canWait s=sendWithData p.source canWait t) ∧
      Opened t (pending s) p.prelude ∧ t.out=s.out ∧ t.sequenceId=firstNumber p s ∧
      t.buffer.length=bufferLen ∧ t.compression=s.compression := by
  obtain ⟨u,hu,hou,huo,hun,hul,huc,hur⟩ := openPacket_spec h
  obtain ⟨v,hv⟩ : ∃ v : State,v={u with sequenceId := firstNumber p s} := ⟨_,rfl⟩
  have hstart : startWritingNewPacket p.resetSequenceId s=.done () v := by
    simp only [startWritingNewPacket,bind_apply,hu,Outcome.andThen_done,doWhen]
    by_cases hr : p.resetSequenceId=true
    · rw [if_pos hr,hv,firstNumber,if_pos hr]
      rfl
    · rw [if_neg hr,hv,firstNumber,if_neg hr,←hun]
      rfl
  have hov : Opened v (pending s) [] := by
    rw [hv]
    exact ⟨hou.start,hou.last,hou.content⟩
  have hp := p.short
  unfold maxCanWaitPacketPreludeBytes at hp
  obtain ⟨t,ht,hot,hst⟩ := @writeShortBytes_spec v (pending s) [] p.prelude hov
    (show v.bufferEnd+p.prelude.length ≤ v.buffer.length by
      rw [hv]
      show u.bufferEnd+_ ≤ u.buffer.length
      omega)
  refine ⟨t,?_,hot,?_,?_,?_,?_⟩
  · intro canWait
    simp only [writePacket,bind_apply,hstart,Outcome.andThen_done,ht]
  · rw [hst.out,List.append_nil,hv]
    exact huo
  · rw [hst.number,hv]
    rfl
  · rw [hst.size,hv]
    exact hul.trans h.size
  · rw [hst.compression,hv]
    exact huc

/-- The data of a packet is sent or waits, unless the packet is lost. -/
theorem writePacket_spec {s : State} (p : Outgoing) (canWait : Bool) (h : Ready s)
    (hw : canWait=true → p.canWait=true ∧ ¬Loses p s) :
    ∃ w t,writePacket p canWait s=.done w t ∧ Ready t ∧ (canWait=false → Stable t) ∧
      total t=total s++emission (firstNumber p s) (p.prelude++p.bytes) ∧
      nextNumber t=firstNumber p s+((p.prelude++p.bytes).length/maxPayload+1) ∧
      t.compression=s.compression := by
  obtain ⟨u,hu,ho,huo,hun,hul,huc⟩ := started_spec p h
  have hp := p.short
  unfold maxCanWaitPacketPreludeBytes at hp
  have hpm : p.prelude.length ≤ maxPayload := by
    unfold maxPayload
    omega
  have hb : 4 ≤ u.buffer.length := by
    rw [hul]
    decide
  have hend : ∃ w t,sendWithData p.source canWait u=.done w t ∧ (w=true → canWait=true) ∧
      Ended u (pending s++emission u.sequenceId (p.prelude++p.bytes))
        ((p.prelude++p.bytes).length/maxPayload+1) w t := by
    obtain ⟨reset,prelude,data,may,hshort⟩ := p
    cases data with
    | inl text =>
      refine sendString_spec canWait text ho hb hpm (fun hf => ?_)
      have hx := (fitsString_iff u text).mp hf
      have hy := ho.last
      unfold maxPayload
      rw [hul] at hx
      unfold bufferLen at hx
      dsimp only at hy ⊢
      omega
    | inr bytes =>
      refine sendBytes_spec canWait bytes ho hb hpm (fun _ hs => ?_)
      obtain ⟨h1,h2,h3,h4⟩ := hs
      obtain ⟨hmay,hnot⟩ := hw h1
      refine hnot ⟨hmay,huc.symm.trans h2,?_,?_⟩
      · rw [h.size,←hul,←pending_length h]
        have hy := ho.last
        dsimp only at hy ⊢
        omega
      · rw [h.size,←hul]
        exact h4
  obtain ⟨w,t,ht,hwc,he⟩ := hend
  refine ⟨w,t,(hu canWait).trans ht,⟨he.size.trans hul,?_⟩,?_,?_,?_,he.compression.trans huc⟩
  · cases w with
    | false => exact .inl (he.stable rfl)
    | true => exact .inr (he.waiting rfl)
  · rintro rfl
    cases w with
    | false => exact he.stable rfl
    | true => exact absurd (hwc rfl) (fun hx => by cases hx)
  · rw [total,total,he.out,huo,hun,List.append_assoc]
  · rw [nextNumber,he.number,hun]

/-- A packet that is lost is not handed over, and nothing is pending. -/
theorem writePacket_loses {s : State} {p : Outgoing} (h : Ready s) (hl : Loses p s) :
    ∃ w t,writePacket p p.canWait s=.done w t ∧ Ready t ∧
      (total t).length < (total s).length+
        (emission (firstNumber p s) (p.prelude++p.bytes)).length ∧
      t.compression=s.compression := by
  obtain ⟨u,hu,ho,huo,-,hul,huc⟩ := started_spec p h
  obtain ⟨reset,prelude,data,may,hshort⟩ := p
  cases data with
  | inl text => exact hl.elim
  | inr bytes =>
    obtain ⟨rfl,h2,h3,h4⟩ := hl
    have hy := ho.last
    have hsize := h.size
    have hpl := pending_length h
    dsimp only at hy h3 hshort
    unfold bufferLen at hsize hul
    unfold maxCanWaitPacketPreludeBytes at h4 hshort
    have hm : prelude.length+bytes.length < maxPayload := by
      unfold maxPayload
      omega
    have hs : Strays true u bytes := by
      refine ⟨rfl,huc.trans h2,?_,?_⟩
      · omega
      · unfold maxCanWaitPacketPreludeBytes
        omega
    obtain ⟨t,ht,hst,hsent⟩ := sendBytes_strays ho hm hs
    refine ⟨true,t,(hu true).trans ht,⟨hsent.size.trans hul,.inl hst⟩,?_,
      hsent.compression.trans huc⟩
    have hroom := ho.room
    rw [total,total,hst.pending,List.append_nil,hsent.out,huo,emission_length]
    simp only [List.length_append,header_length,Outgoing.bytes]
    rw [Nat.div_eq_of_lt hm]
    omega

/-- Writing one packet and then others. -/
theorem writeAll_cons {defer : Bool} {p : Outgoing} {ps : List Outgoing} {s t : State} {w : Bool}
    (h : writePacket p (defer && p.canWait) s=.done w t) :
    writeAll defer (p::ps) s=writeAll defer ps t := by
  simp only [writeAll,bind_apply,h,Outcome.andThen_done]

/-- Writing the last packet. -/
theorem writeAll_single {defer : Bool} {p : Outgoing} {s t : State} {w : Bool}
    (h : writePacket p (defer && p.canWait) s=.done w t) : writeAll defer [p] s=.done () t := by
  rw [writeAll_cons h]
  rfl

/-- The deferring writer is behind the other one: what it handed over or
keeps is the same. -/
structure Follows (d i : State) : Prop where
  /-- The deferring writer can start a packet. -/
  ready : Ready d
  /-- The other one keeps nothing. -/
  stable : Stable i
  /-- Its buffer has the usual size. -/
  size : i.buffer.length=bufferLen
  /-- The bytes. -/
  same : total d=total i
  /-- The packet numbers. -/
  number : nextNumber d=nextNumber i

/-- One packet that is not lost keeps the two writers together. -/
theorem Follows.step {d i : State} (h : Follows d i) (p : Outgoing) (hk : ¬Loses p d) :
    ∃ w t w' u,writePacket p (true && p.canWait) d=.done w t ∧
      writePacket p (false && p.canWait) i=.done w' u ∧
      Follows t u ∧ (p.canWait=false → Stable t) := by
  rw [Bool.true_and,Bool.false_and]
  obtain ⟨w,t,ht,hr,hst,hto,hn,-⟩ := writePacket_spec p p.canWait h.ready (fun hw => ⟨hw,hk⟩)
  obtain ⟨w',u,hu,hur,hsu,huo,hun,-⟩ := writePacket_spec p false ⟨h.size,.inl h.stable⟩
    (fun hx => by cases hx)
  have hf : firstNumber p d=firstNumber p i := by rw [firstNumber,firstNumber,h.number]
  refine ⟨w,t,w',u,ht,hu,⟨hr,hsu rfl,hur.size,?_,?_⟩,hst⟩
  · rw [hto,huo,h.same,hf]
  · rw [hn,hun,hf]

/-- When no packet is lost, both writers hand over the same bytes. -/
theorem writeAll_kept {d i : State} {ps : List Outgoing} {last : Outgoing} (h : Follows d i)
    (hl : last.canWait=false) (hk : Kept (ps++[last]) d) :
    ∃ t u,writeAll true (ps++[last]) d=.done () t ∧ writeAll false (ps++[last]) i=.done () u ∧
      t.out=u.out := by
  induction ps generalizing d i with
  | nil =>
    obtain ⟨w,t,w',u,ht,hu,hf,hst⟩ := h.step last hk.1
    refine ⟨t,u,writeAll_single ht,writeAll_single hu,?_⟩
    have hs := hf.same
    rwa [total,total,(hst hl).pending,hf.stable.pending,List.append_nil,List.append_nil] at hs
  | cons p ps ih =>
    obtain ⟨w,t,w',u,ht,hu,hf,-⟩ := h.step p hk.1
    obtain ⟨x,y,hx,hy,ho⟩ := ih hf (hk.2 w t (by rw [←ht,Bool.true_and]))
    exact ⟨x,y,(writeAll_cons ht).trans hx,(writeAll_cons hu).trans hy,ho⟩

/-- The deferring writer handed over and keeps no more bytes than the other
one. -/
structure Behind (d i : State) : Prop where
  /-- The deferring writer can start a packet. -/
  ready : Ready d
  /-- The other one keeps nothing. -/
  stable : Stable i
  /-- Its buffer has the usual size. -/
  size : i.buffer.length=bufferLen
  /-- The number of bytes. -/
  count : (total d).length ≤ (total i).length

/-- One packet keeps the order of the two writers. It is a strict one after
a packet that is lost. -/
theorem Behind.step {d i : State} (h : Behind d i) (p : Outgoing) :
    ∃ w t w' u,writePacket p (true && p.canWait) d=.done w t ∧
      writePacket p (false && p.canWait) i=.done w' u ∧
      Behind t u ∧ (p.canWait=false → Stable t) ∧
      ((total d).length < (total i).length ∨ Loses p d → (total t).length < (total u).length) := by
  rw [Bool.true_and,Bool.false_and]
  obtain ⟨w',u,hu,hur,hsu,huo,-,-⟩ := writePacket_spec p false ⟨h.size,.inl h.stable⟩
    (fun hx => by cases hx)
  have hc := h.count
  have hul : (total u).length=(total i).length+
      (emission (firstNumber p i) (p.prelude++p.bytes)).length := by
    rw [huo,List.length_append]
  rw [emission_length] at hul
  by_cases hk : Loses p d
  · obtain ⟨w,t,ht,hr,hto,-⟩ := writePacket_loses h.ready hk
    rw [emission_length] at hto
    have hlt : (total t).length < (total u).length := by omega
    refine ⟨w,t,w',u,ht,hu,⟨hr,hsu rfl,hur.size,hlt.le⟩,?_,fun _ => hlt⟩
    intro hw
    obtain ⟨reset,prelude,data,may,hshort⟩ := p
    cases data with
    | inl text => exact hk.elim
    | inr bytes => exact absurd (hw.symm.trans hk.1) (fun hx => by cases hx)
  · obtain ⟨w,t,ht,hr,hst,hto,-,-⟩ := writePacket_spec p p.canWait h.ready (fun hw => ⟨hw,hk⟩)
    have htl : (total t).length=(total d).length+
        (emission (firstNumber p d) (p.prelude++p.bytes)).length := by
      rw [hto,List.length_append]
    rw [emission_length] at htl
    refine ⟨w,t,w',u,ht,hu,⟨hr,hsu rfl,hur.size,by omega⟩,hst,?_⟩
    rintro (hlt | hx)
    · omega
    · exact absurd hx hk

/-- When a packet is lost, the deferring writer hands over fewer bytes. -/
theorem writeAll_lost {d i : State} {ps : List Outgoing} {last : Outgoing} (h : Behind d i)
    (hl : last.canWait=false)
    (hk : (total d).length < (total i).length ∨ ¬Kept (ps++[last]) d) :
    ∃ t u,writeAll true (ps++[last]) d=.done () t ∧ writeAll false (ps++[last]) i=.done () u ∧
      t.out.length < u.out.length := by
  induction ps generalizing d i with
  | nil =>
    obtain ⟨w,t,w',u,ht,hu,hb,hst,hlt⟩ := h.step last
    refine ⟨t,u,writeAll_single ht,writeAll_single hu,?_⟩
    have hx : (total t).length < (total u).length := by
      refine hlt (hk.imp id fun hn => ?_)
      by_contra hc
      exact hn ⟨hc,fun _ _ _ => trivial⟩
    rwa [total,total,(hst hl).pending,hb.stable.pending,List.append_nil,List.append_nil] at hx
  | cons p ps ih =>
    obtain ⟨w,t,w',u,ht,hu,hb,-,hlt⟩ := h.step p
    have hn : (total t).length < (total u).length ∨ ¬Kept (ps++[last]) t := by
      rcases hk with hk | hk
      · exact .inl (hlt (.inl hk))
      · by_cases hc : Loses p d
        · exact .inl (hlt (.inr hc))
        · refine .inr fun hx => hk ⟨hc,fun w'' t'' h'' => ?_⟩
          rw [Bool.true_and] at ht
          rw [ht] at h''
          cases h''
          exact hx
    obtain ⟨x,y,hx,hy,ho⟩ := ih hb hn
    exact ⟨x,y,(writeAll_cons ht).trans hx,(writeAll_cons hu).trans hy,ho⟩

/-- Deferring packets is transparent exactly when no packet is lost. -/
theorem deferral_iff {s : State} {ps : List Outgoing} {last : Outgoing} (hs : Stable s)
    (hb : s.buffer.length=bufferLen) (hl : last.canWait=false) :
    (∃ t u,writeAll true (ps++[last]) s=.done () t ∧ writeAll false (ps++[last]) s=.done () u ∧
      t.out=u.out)↔Kept (ps++[last]) s := by
  constructor
  · rintro ⟨t,u,ht,hu,ho⟩
    by_contra hk
    obtain ⟨t',u',ht',hu',hlt⟩ :=
      @writeAll_lost s s ps last ⟨⟨hb,.inl hs⟩,hs,hb,le_refl _⟩ hl (.inr hk)
    rw [ht] at ht'
    rw [hu] at hu'
    cases ht'
    cases hu'
    rw [ho] at hlt
    exact absurd hlt (Nat.lt_irrefl _)
  · intro hk
    exact writeAll_kept ⟨⟨hb,.inl hs⟩,hs,hb,rfl,rfl⟩ hl hk

/-- A writer that has sent nothing. -/
def fresh : State := {buffer := List.replicate bufferLen 0}

/-- A long parameter of a prepared statement, as a byte array. -/
def longData (index size : ℕ) (canWait : Bool) : Outgoing where
  resetSequenceId := true
  prelude := 0x18::(leBytes 4 1++leBytes 2 index)
  data := .inr (List.replicate size 65)
  canWait := canWait
  short := by
    rw [List.length_cons,List.length_append,leBytes_length,leBytes_length]
    decide

/-- Two short parameters are sent the same way when the first one waits. -/
theorem deferral_two : ∃ t u,writeAll true ([longData 0 300 true]++[longData 1 300 false]) fresh=
      .done () t ∧
    writeAll false ([longData 0 300 true]++[longData 1 300 false]) fresh=.done () u ∧
      t.out=u.out := by
  have hsize : fresh.buffer.length=bufferLen := List.length_replicate
  refine (deferral_iff (s := fresh) rfl hsize rfl).mpr ⟨?_,fun w t _ => ⟨?_,fun _ _ _ => trivial⟩⟩
  · rintro ⟨-,-,h,-⟩
    rw [hsize,List.length_replicate] at h
    exact absurd h (by decide)
  · rintro ⟨h,-⟩
    cases h

/-- The second of two parameters does not fit the buffer after the first one
and fits it alone. It may wait, and it is lost. -/
theorem long_data_lost : ¬∀ (s : State) (ps : List Outgoing) (last : Outgoing),Stable s →
    s.buffer.length=bufferLen → last.canWait=false →
      ∃ t u,writeAll true (ps++[last]) s=.done () t ∧ writeAll false (ps++[last]) s=.done () u ∧
        t.out=u.out := by
  intro h
  have hsize : fresh.buffer.length=bufferLen := List.length_replicate
  obtain ⟨t,u,ht,hu,ho⟩ := h fresh [longData 0 300 true,longData 1 8000 true] (longData 2 300 false)
    rfl hsize rfl
  have hready : Ready fresh := ⟨hsize,.inl rfl⟩
  have hq : ∀ w v,writePacket (longData 0 300 true) true fresh=.done w v →
      queueEnd v=311 ∧ v.buffer.length=bufferLen ∧ v.compression=false := by
    intro w v hv
    have hx : queueEnd (writePacket (longData 0 300 true) true fresh).state=311 ∧
        (writePacket (longData 0 300 true) true fresh).state.buffer.length=bufferLen ∧
        (writePacket (longData 0 300 true) true fresh).state.compression=false := by
      decide +kernel
    rwa [hv] at hx
  have hk : ¬Kept ([longData 0 300 true,longData 1 8000 true]++[longData 2 300 false]) fresh := by
    rintro ⟨hf,hn⟩
    obtain ⟨w,v,hv,-⟩ := writePacket_spec (longData 0 300 true) true ⟨hsize,.inl rfl⟩
      (fun _ => ⟨rfl,hf⟩)
    obtain ⟨he,hb,hc⟩ := hq w v hv
    refine (hn w v hv).1 ⟨rfl,hc,?_,?_⟩
    · rw [he,hb,List.length_replicate]
      decide
    · rw [hb,List.length_replicate]
      decide
  obtain ⟨t',u',ht',hu',hlt⟩ := @writeAll_lost fresh fresh
    [longData 0 300 true,longData 1 8000 true] (longData 2 300 false)
    ⟨⟨hsize,.inl rfl⟩,rfl,hsize,le_refl _⟩ rfl (.inr hk)
  rw [ht] at ht'
  rw [hu] at hu'
  cases ht'
  cases hu'
  rw [ho] at hlt
  exact absurd hlt (Nat.lt_irrefl _)

end SpiritMysql.Deferral
