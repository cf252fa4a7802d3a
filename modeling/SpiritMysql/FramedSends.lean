import SpiritMysql.ByteSends
import SpiritMysql.StreamSends
import SpiritMysql.StringSends

/-!
# Which payloads are framed

`sendWithData()` cuts a prefix followed by the data of any source into
packets, with these exceptions: a stream gets no empty packet after its last
full one, a payload that is sent from the buffer at once is not cut, and a
byte array that strays is lost.
-/

namespace SpiritMysql.FramedSends

open AsyncAction ByteCodec ByteSends Errors PacketFraming PacketSends StreamSends StringSends
open Utf16Text Writer
open PacketStream (frame frame_length)
open Reader (maxPayload bufferLen)

/-- The data that a source stands for. -/
def payload : SqlSource → List UInt8
  | .string text => encode text
  | .bytes data => data
  | .toSqlBytes text _ => text
  | .stream _ chunks => chunks.flatten

/-- A stream delivers as much as it declared, in chunks that are not empty.
A converted object is put to the buffer only when there is room for it. -/
def Delivers : SqlSource → Prop
  | .toSqlBytes text inRoom => ∀ room,inRoom room=true → text.length ≤ room
  | .stream size chunks => chunks.flatten.length=size ∧ ∀ x ∈ chunks,x≠[]
  | _ => True

/-- The payload is sent from the buffer at once, as one packet. -/
def AtOnce (s : State) : SqlSource → Prop
  | .string text => s.fitsString text=true
  | .bytes _ => False
  | .toSqlBytes _ inRoom => inRoom (s.buffer.length-s.bufferEnd)=true
  | .stream size _ => size=0

/-- The last packet of the data strays. -/
def DataStrays (canWait : Bool) (s : State) : SqlSource → Prop
  | .bytes data => Strays canWait s data
  | .toSqlBytes text _ => Strays canWait s text
  | _ => False

/-- A stream that ends with a full packet. -/
def EndsFull (prefixLength : ℕ) : SqlSource → Prop
  | .stream size _ => 0 < size ∧ (prefixLength=maxPayload ∨ maxPayload ∣ prefixLength+size)
  | _ => False

/-- When the data is framed correctly. -/
structure Splits (canWait : Bool) (s : State) (prefixLength : ℕ) (data : SqlSource) : Prop where
  /-- The prefix is not longer than a packet. -/
  fits : prefixLength ≤ maxPayload
  /-- What is sent at once is shorter than a full packet. -/
  short : AtOnce s data → prefixLength+(payload data).length < maxPayload
  /-- A stream does not end with a full packet. -/
  ends : ¬EndsFull prefixLength data
  /-- The last packet is not lost. -/
  stays : ¬AtOnce s data → prefixLength+(payload data).length < maxPayload →
    ¬DataStrays canWait s data

/-- `sendWithData()` completes, and the bytes that it handed over or left
pending are the queue and the packets of the prefix followed by the data. -/
def FramesAll (canWait : Bool) (s : State) (queued pre : List UInt8) (data : SqlSource) : Prop :=
  ∃ w t bytes,sendWithData data canWait s=.done w t ∧
    t.out++pending t=s.out++(queued++bytes) ∧ Framed s.sequenceId (pre++payload data) bytes

/-- An operation that ended well framed its payload. -/
theorem Ended.framesAll {canWait w : Bool} {s t : State} {q pre : List UInt8} {data : SqlSource}
    {n : ℕ} (h : sendWithData data canWait s=.done w t)
    (he : Ended s (q++emission s.sequenceId (pre++payload data)) n w t) :
    FramesAll canWait s q pre data :=
  ⟨w,t,_,h,he.out,framed_iff.mpr rfl⟩

/-- Two ways to count the bytes that were handed over or are pending decide
whether a payload is framed. -/
theorem framesAll_length {canWait w : Bool} {s t : State} {q pre bytes : List UInt8}
    {data : SqlSource} (h : sendWithData data canWait s=.done w t)
    (ho : t.out++pending t=s.out++(q++bytes)) (hf : FramesAll canWait s q pre data) :
    bytes.length=(pre++payload data).length+4*((pre++payload data).length/maxPayload+1) := by
  obtain ⟨w',t',bytes',hr,ho',hb⟩ := hf
  rw [h] at hr
  cases hr
  rw [ho] at ho'
  have hx := List.append_cancel_left (List.append_cancel_left ho')
  rw [hx,framed_iff.mp hb,emission_length]

/-- A payload that is sent at once is one packet with the header of its
size. -/
theorem atOnce_spec {canWait : Bool} {s : State} {q pre : List UInt8} {data : SqlSource}
    (h : Opened s q pre) (hd : Delivers data) (ha : AtOnce s data) :
    ∃ w t,sendWithData data canWait s=.done w t ∧ t.out++pending t=s.out++
      (q++(header (pre++payload data).length s.sequenceId++(pre++payload data))) := by
  have hsend : ∀ {u : State} {p : List UInt8},Opened u q p → Sent s [] 0 u →
      ∃ t,send u=.done () t ∧
        t.out++pending t=s.out++(q++(header p.length s.sequenceId++p)) := by
    intro u p hou hsu
    obtain ⟨t,ht,hst,hs⟩ := send_spec hou
    refine ⟨t,ht,?_⟩
    have hx := hsu.trans hs
    rw [hst.pending,List.append_nil,hx.out,hsu.number,Nat.add_zero,List.nil_append]
  have hwait : ∀ {u : State} {p : List UInt8},Opened u q p → Sent s [] 0 u →
      u.out++pending u=s.out++(q++(header p.length s.sequenceId++p)) := by
    intro u p hou hsu
    rw [hou.pending,hsu.out,List.append_nil,hsu.number,Nat.add_zero]
  cases data with
  | string text =>
    obtain ⟨u,hu,hou,hsu⟩ := writeShortString_spec h ((fitsString_iff s text).mp ha)
    have hrun : sendString canWait text s=
        (if (canWait && u.hasRoom)=true then pure true else (do send; pure false) : Write Bool) u := by
      simp only [sendString,bind_apply,get_apply,Outcome.andThen_done,branch_apply,
        if_pos (show s.fitsString text=true from ha),hu]
    by_cases hw : (canWait && u.hasRoom)=true
    · refine ⟨true,u,?_,hwait hou hsu⟩
      show sendString canWait text s=_
      rw [hrun,if_pos hw]
      rfl
    · obtain ⟨t,ht,ho⟩ := hsend hou hsu
      refine ⟨false,t,?_,ho⟩
      show sendString canWait text s=_
      rw [hrun,if_neg hw,bind_apply,ht]
      rfl
  | bytes data => exact ha.elim
  | toSqlBytes text inRoom =>
    have hr := h.room
    have hl := hd _ ha
    obtain ⟨u,hu,hou,hsu⟩ := @Opened.extend s q pre text h (by omega)
    obtain ⟨t,ht,ho⟩ := hsend hou hsu
    refine ⟨false,t,?_,ho⟩
    have hset : s.bufferEnd+text.length ≤ s.buffer.length := by omega
    rw [bind_apply,set_spec hset,Outcome.andThen_done] at hu
    simp only [sendWithData,bind_apply,get_apply,Outcome.andThen_done,branch_apply,
      if_pos (show inRoom (s.buffer.length-s.bufferEnd)=true from ha),set_spec hset,hu,ht,pure_apply]
  | stream size chunks =>
    have hz : size=0 := ha
    have hp : pre++payload (.stream size chunks)=pre := by
      have hx : chunks.flatten=[] := List.length_eq_zero_iff.mp (hd.1.trans hz)
      show pre++chunks.flatten=pre
      rw [hx,List.append_nil]
    rw [hp]
    by_cases hw : (canWait && s.hasRoom)=true
    · refine ⟨true,s,?_,hwait h (Sent.refl s)⟩
      simp only [sendWithData,sendStream,bind_apply,get_apply,Outcome.andThen_done,branch_apply,
        if_pos hz,if_pos hw,pure_apply]
    · obtain ⟨t,ht,ho⟩ := hsend h (Sent.refl s)
      refine ⟨false,t,?_,ho⟩
      simp only [sendWithData,sendStream,bind_apply,get_apply,Outcome.andThen_done,branch_apply,
        if_pos hz,if_neg hw,ht,pure_apply]

/-- A payload that is sent at once is framed when it is shorter than a full
packet. -/
theorem atOnce_framed_iff {canWait : Bool} {s : State} {q pre : List UInt8} {data : SqlSource}
    (h : Opened s q pre) (hd : Delivers data) (ha : AtOnce s data) :
    FramesAll canWait s q pre data↔pre.length+(payload data).length < maxPayload := by
  obtain ⟨w,t,ht,ho⟩ := @atOnce_spec canWait s q pre data h hd ha
  rw [←List.length_append]
  constructor
  · intro hf
    by_contra hn
    have hl := framesAll_length ht ho hf
    rw [List.length_append,header_length] at hl
    have hq : 0 < (pre++payload data).length/maxPayload :=
      Nat.div_pos (Nat.not_lt.mp hn) maxPayload_pos
    omega
  · intro hl
    refine ⟨w,t,_,ht,ho,framed_iff.mpr ?_⟩
    rw [header_frame _ hl.le,emission_short hl]

/-- A byte array is framed when its last packet does not stray. -/
theorem bytes_framed_iff {canWait : Bool} {s : State} {q pre bytes : List UInt8} {data : SqlSource}
    (h : Opened s q pre) (hb : 4 ≤ s.buffer.length) (hp : pre.length ≤ maxPayload)
    (hd : payload data=bytes) (hr : sendWithData data canWait s=sendBytes canWait bytes s) :
    FramesAll canWait s q pre data↔
      (pre.length+bytes.length < maxPayload → ¬Strays canWait s bytes) := by
  subst hd
  constructor
  · intro hf hm hs
    obtain ⟨t,ht,hst,hsent⟩ := sendBytes_strays h hm hs
    have hl := framesAll_length (hr.trans ht)
      (by rw [hst.pending,List.append_nil]; exact hsent.out) hf
    have hroom := h.room
    have hlong := hs.2.2.1
    rw [List.length_append,header_length,List.length_append,Nat.div_eq_of_lt hm] at hl
    omega
  · intro hs
    obtain ⟨w,t,ht,-,he⟩ := sendBytes_spec canWait (payload data) h hb hp hs
    exact Ended.framesAll (hr.trans ht) he

/-- A stream that is not empty is framed when it does not end with a full
packet. -/
theorem stream_framed_iff {canWait : Bool} {s : State} {q pre : List UInt8} {size : ℕ}
    {chunks : List (List UInt8)} (h : Opened s q pre) (hb : 4 < s.buffer.length)
    (hp : pre.length ≤ maxPayload) (hd : Delivers (.stream size chunks)) (hz : 0 < size) :
    FramesAll canWait s q pre (.stream size chunks)↔¬EndsFull pre.length (.stream size chunks) := by
  obtain ⟨hl,hn⟩ := hd
  by_cases hfull : pre.length=maxPayload
  · obtain ⟨e,t,ht⟩ := @sendStream_full s q pre size chunks canWait h hfull hz
    constructor
    · rintro ⟨w,t',bytes,hr,-,-⟩
      have hx : sendStream canWait size chunks s=.done w t' := hr
      rw [ht] at hx
      cases hx
    · intro he
      exact absurd ⟨hz,.inl hfull⟩ he
  · obtain ⟨t,n,ht,hst,hs⟩ := sendStream_spec canWait h hb (by omega) hn hl hz
    have hout : t.out++pending t=s.out++(q++pieces s.sequenceId (pre++chunks.flatten)) := by
      rw [hst.pending,List.append_nil,hs.out]
    have hlen : (pre++chunks.flatten).length=pre.length+size := by
      rw [List.length_append,hl]
    have he := emission_pieces s.sequenceId (pre++chunks.flatten)
    rw [hlen] at he
    constructor
    · rintro hf ⟨-,hx⟩
      have hdvd : maxPayload ∣ pre.length+size := hx.resolve_left hfull
      have hy := @framesAll_length canWait false s t q pre _ (.stream size chunks) ht hout hf
      rw [if_pos hdvd] at he
      have hw := congrArg List.length he
      have hpay : payload (.stream size chunks)=chunks.flatten := rfl
      rw [hpay] at hy
      rw [emission_length,←hy,List.length_append,frame_length] at hw
      omega
    · intro hf
      have hdvd : ¬maxPayload ∣ pre.length+size := fun hx => hf ⟨hz,.inr hx⟩
      rw [if_neg hdvd,List.append_nil] at he
      refine ⟨false,t,_,ht,hout,framed_iff.mpr he.symm⟩

/-- `sendWithData()` frames a payload on the condition `Splits`. The
condition is enough for every prefix, and it is needed for each prefix that
a packet can hold. -/
theorem sendWithData_framed_iff {s : State} {q pre : List UInt8} (canWait : Bool) (data : SqlSource)
    (h : Opened s q pre) (hb : bufferLen ≤ s.buffer.length) (hd : Delivers data) :
    (Splits canWait s pre.length data → FramesAll canWait s q pre data) ∧
      (pre.length ≤ maxPayload → FramesAll canWait s q pre data →
        Splits canWait s pre.length data) := by
  have hb4 : 4 < s.buffer.length := by
    unfold bufferLen at hb
    omega
  suffices hiff : pre.length ≤ maxPayload →
      (FramesAll canWait s q pre data↔Splits canWait s pre.length data) from
    ⟨fun hs => (hiff hs.fits).mpr hs,fun hp => (hiff hp).mp⟩
  intro hp
  by_cases ha : AtOnce s data
  · rw [atOnce_framed_iff h hd ha]
    constructor
    · intro hl
      refine ⟨hp,fun _ => hl,?_,fun hx => absurd ha hx⟩
      intro he
      cases data with
      | stream size chunks => exact absurd ha (Nat.pos_iff_ne_zero.mp he.1)
      | string text => exact he
      | bytes data => exact he
      | toSqlBytes text inRoom => exact he
    · intro hs
      exact hs.short ha
  · cases data with
    | string text =>
      obtain ⟨w,t,ht,-,he⟩ := sendString_spec canWait text h hb4.le hp (fun hx => absurd hx ha)
      exact ⟨fun _ => ⟨hp,fun hx => absurd hx ha,id,fun _ _ => id⟩,
        fun _ => @Ended.framesAll canWait w s t q pre (.string text) _ ht he⟩
    | bytes data =>
      rw [@bytes_framed_iff canWait s q pre data (.bytes data) h hb4.le hp rfl rfl]
      exact ⟨fun hs => ⟨hp,fun hx => absurd hx ha,id,fun _ => hs⟩,fun hs => hs.stays ha⟩
    | toSqlBytes text inRoom =>
      have hrun : sendWithData (.toSqlBytes text inRoom) canWait s=sendBytes canWait text s := by
        simp only [sendWithData,bind_apply,get_apply,Outcome.andThen_done,branch_apply,
          if_neg (show ¬inRoom (s.buffer.length-s.bufferEnd)=true from ha)]
      rw [bytes_framed_iff h hb4.le hp rfl hrun]
      exact ⟨fun hs => ⟨hp,fun hx => absurd hx ha,id,fun _ => hs⟩,fun hs => hs.stays ha⟩
    | stream size chunks =>
      rw [stream_framed_iff h hb4 hp hd (Nat.pos_of_ne_zero ha)]
      exact ⟨fun hs => ⟨hp,fun hx => absurd hx ha,hs,fun _ _ => id⟩,fun hs => hs.ends⟩

/-- A writer with an empty buffer, after `COM_QUERY` was written. -/
def queryOpened : State := {
  buffer := List.replicate 4 0++([3]++List.replicate (bufferLen-5) 0), bufferEnd := 5}

/-- The packet of a query is open. -/
theorem queryOpened_opened : Opened queryOpened [] [3] :=
  ⟨rfl,rfl,List.replicate 4 0,List.replicate (bufferLen-5) 0,rfl,rfl⟩

/-- The buffer has its usual size. -/
theorem queryOpened_size : bufferLen ≤ queryOpened.buffer.length := by
  show bufferLen ≤ (List.replicate 4 (0 : UInt8)++([3]++List.replicate (bufferLen-5) 0)).length
  simp only [List.length_append,List.length_replicate,List.length_cons,List.length_nil]
  decide

/-- A query of two bytes is framed, and the condition holds for it. -/
theorem sendWithData_framed_two :
    FramesAll false queryOpened [] [3] (.bytes [65,66]) ∧
      Splits false queryOpened 1 (.bytes [65,66]) := by
  have hs : Splits false queryOpened 1 (.bytes [65,66]) :=
    ⟨by decide,fun h => h.elim,id,fun _ _ h => by cases h.1⟩
  have hx := sendWithData_framed_iff false (.bytes [65,66]) queryOpened_opened queryOpened_size
    trivial
  have hf := hx.1 hs
  exact ⟨hf,hx.2 (by decide) hf⟩

/-- The stream of a query that fills exactly one packet is not framed. -/
theorem stream_full_not_framed : ¬∀ (s : State) (q pre : List UInt8) (data : SqlSource),
    Opened s q pre → s.buffer.length=bufferLen → Delivers data →
      FramesAll false s q pre data := by
  intro h
  have hlen : queryOpened.buffer.length=bufferLen := by
    show (List.replicate 4 (0 : UInt8)++([3]++List.replicate (bufferLen-5) 0)).length=bufferLen
    simp only [List.length_append,List.length_replicate,List.length_cons,List.length_nil]
    decide
  have hd : Delivers (.stream (maxPayload-1) [List.replicate (maxPayload-1) 65]) := by
    refine ⟨?_,?_⟩
    · rw [List.flatten_cons,List.flatten_nil,List.append_nil,List.length_replicate]
    · intro x hx hz
      rw [List.mem_singleton.mp hx] at hz
      have hy := congrArg List.length hz
      rw [List.length_replicate] at hy
      exact absurd hy (by decide)
  have hf := h _ _ _ _ queryOpened_opened hlen hd
  refine (stream_framed_iff queryOpened_opened ?_ ?_ hd ?_).mp hf ⟨?_,.inr ?_⟩
  · rw [hlen]
    decide
  · decide
  · decide
  · decide
  · exact ⟨1,by decide⟩

end SpiritMysql.FramedSends
