import SpiritMysql.PacketSends

/-!
# Sending a string

`sendWithData()` of a string hands over the packets of the prefix followed
by the UTF-8 bytes of the string, or leaves the last of them open. A packet
boundary may be inside a character.
-/

namespace SpiritMysql.StringSends

open AsyncAction ByteCodec Errors PacketFraming PacketSends Utf16Text Writer
open PacketStream (frame frame_length)
open Reader (maxPayload bufferLen)

/-- The number of bytes of a unit alone. -/
theorem scalar_bytes_count (c : UInt16) : (scalarBytes (scalar c)).length=
    1+((if 0x7F < c.toNat then 1 else 0)+if 0x7FF < c.toNat then 1 else 0) := by
  have hc := c.toNat_lt
  by_cases hs : (isHigh c || isLow c)=true
  · have hr : 0xD800 ≤ c.toNat := by
      simp only [isHigh,isLow,Bool.or_eq_true,Bool.and_eq_true,decide_eq_true_eq] at hs
      omega
    rw [scalar,if_pos hs,if_pos (by omega),if_pos (by omega)]
    rfl
  · rw [scalar,if_neg hs]
    unfold scalarBytes
    split
    · rw [if_neg (by omega),if_neg (by omega)]
      rfl
    · split
      · rw [if_pos (by omega),if_neg (by omega)]
        rfl
      · rw [if_pos (by omega),if_pos (by omega)]
        rfl

/-- A surrogate pair takes four bytes. -/
theorem pair_bytes_count (a b : UInt16) : (scalarBytes (pair a b)).length=4 := by
  have hp : 0x10000 ≤ pair a b := by
    unfold pair
    omega
  unfold scalarBytes
  rw [if_neg (by omega),if_neg (by omega),if_neg (by omega)]
  rfl

/-- `utf8StringLength()` is the number of UTF-8 bytes. -/
theorem utf8StringLength_eq (text : List UInt16) :
    utf8StringLength text=(encode text).length := by
  induction text using chars.induct with
  | case1 => rfl
  | case2 a =>
    show 1+((if 0x7F < a.toNat then 1 else 0)+if 0x7FF < a.toNat then 1 else 0)=
      (scalarBytes (scalar a)++[]).length
    rw [List.append_nil,scalar_bytes_count]
  | case3 a b text hp ih =>
    have hx := Bool.and_eq_true_iff.mp hp
    have hh : 0x7FF < a.toNat := by
      have hy := hx.1
      simp only [isHigh,Bool.and_eq_true,decide_eq_true_eq] at hy
      omega
    have he : encode (a::b::text)=scalarBytes (pair a b)++encode text := by
      rw [encode,chars,if_pos hp,List.flatMap_cons,encode]
    have hu : utf8Extra (a::b::text)=2+utf8Extra text := by
      rw [utf8Extra,if_pos ⟨hh,hx.1,hx.2⟩]
    rw [he,List.length_append,pair_bytes_count,←ih,utf8StringLength,utf8StringLength,hu]
    simp only [List.length_cons]
    omega
  | case4 a b text hp ih =>
    have he : encode (a::b::text)=scalarBytes (scalar a)++encode (b::text) := by
      rw [encode,chars,if_neg hp,List.flatMap_cons,encode]
    have hu : utf8Extra (a::b::text)=(if 0x7F < a.toNat then 1 else 0)+
        (if 0x7FF < a.toNat then 1 else 0)+utf8Extra (b::text) := by
      rw [utf8Extra,if_neg (fun hx => hp (Bool.and_eq_true_iff.mpr hx.2))]
    rw [he,List.length_append,scalar_bytes_count,←ih,utf8StringLength,utf8StringLength,hu]
    simp only [List.length_cons]
    omega

/-- Does the string fit the buffer? Four bytes for each unit are enough. -/
theorem fitsString_iff (s : State) (text : List UInt16) :
    s.fitsString text=true↔s.bufferEnd+(encode text).length ≤ s.buffer.length := by
  have hl := encode_length_le text
  rw [State.fitsString,Bool.or_eq_true,decide_eq_true_eq,decide_eq_true_eq,utf8StringLength_eq]
  omega

/-- The bytes of a long string that are not sent yet. -/
def textBytes (t : LongText) : List UInt8 := t.carry++encode t.data

/-- One part of a long string. A character is cut only at the end of the
packet. -/
theorem nextPart_spec {s : State} {chunk : ℕ} {t : LongText} (hc : 0 < chunk)
    (hl : textBytes t≠[]) (hb : 4 ≤ s.buffer.length) :
    ∃ part rest u,nextPart chunk t s=.done (part,rest) u ∧ 0 < part.length ∧
      part.length ≤ max chunk t.carry.length ∧ part++textBytes rest=textBytes t ∧
      rest.dataLength=t.dataLength ∧ rest.carry.length ≤ 3 ∧
      (rest.carry≠[] → part.length=chunk) ∧ Sent s [] 0 u := by
  obtain ⟨data,dataLength,carry⟩ := t
  by_cases hn : carry=[]
  · subst hn
    have ht : textBytes ⟨data,dataLength,[]⟩=encode data := List.nil_append _
    rw [ht] at hl ⊢
    obtain ⟨hj,hr⟩ := encodeInto_spec data (min chunk s.buffer.length)
    match hw : encodeInto data (min chunk s.buffer.length) with
    | (read,b::bs) =>
      rw [hw] at hj hr
      have hz : 0+(b::bs).length ≤ s.buffer.length := by
        have := Nat.min_le_right chunk s.buffer.length
        dsimp only at hr
        omega
      refine ⟨b::bs,⟨data.drop read,dataLength,[]⟩,{s with buffer := splice 0 (b::bs) s.buffer},?_,
        Nat.succ_pos _,hr.trans ((Nat.min_le_left _ _).trans (Nat.le_max_left _ _)),hj,rfl,
        Nat.zero_le _,
        fun hx => absurd rfl hx,⟨(List.append_nil _).symm,rfl,splice_length hz,rfl⟩⟩
      simp only [nextPart,bind_apply,get_apply,Outcome.andThen_done,if_true,
        Int.toNat_natCast,hw,set_spec hz,pure_apply]
    | (read,[]) =>
      match hd : chars data with
      | [] =>
        have hx := chars_eq_nil.mp hd
        subst hx
        exact absurd encode_nil hl
      | c::cs =>
        have hm : c ∈ chars data := hd ▸ List.mem_cons_self
        obtain ⟨-,-,h4,-⟩ := chars_length hm
        have hlt : min chunk s.buffer.length < c.2.length := by
          refine (encodeInto_empty hd).mp ?_
          rw [hw]
        have hmin : min chunk s.buffer.length=chunk := by omega
        obtain ⟨hf,hfe⟩ := firstChar_spec hd
        rw [hf] at hfe
        have hne : data≠[] := by
          rintro rfl
          cases hd
        refine ⟨c.2.take chunk,⟨data.drop c.1.length,dataLength,c.2.drop chunk⟩,s,?_,?_,?_,?_,rfl,
          ?_,?_,Sent.refl s⟩
        · simp only [nextPart,bind_apply,get_apply,Outcome.andThen_done,if_true,
            Int.toNat_natCast,hw,if_neg hne,pure_apply,hf,hfe]
        · rw [List.length_take]
          omega
        · exact (List.length_take_le _ _).trans (Nat.le_max_left _ _)
        · rw [textBytes,←List.append_assoc,List.take_append_drop]
          exact (encode_cons hd).symm
        · rw [List.length_drop]
          omega
        · intro _
          rw [List.length_take]
          omega
  · refine ⟨carry,⟨data,dataLength,[]⟩,s,?_,List.length_pos_iff.mpr hn,Nat.le_max_right _ _,rfl,
      rfl,Nat.zero_le _,
      fun hx => absurd rfl hx,Sent.refl s⟩
    simp only [nextPart,bind_apply,get_apply,Outcome.andThen_done,if_neg hn,pure_apply]

/-- Completing a packet hands over the bytes it needs. -/
theorem chunkLoop_spec {s : State} {fuel chunk : ℕ} {t : LongText} (hf : chunk < fuel)
    (h3 : t.carry.length ≤ 3) (hl : chunk ≤ (textBytes t).length)
    (hk : t.carry=[] ∨ t.carry.length ≤ chunk ∨ chunk=0) (hb : 4 ≤ s.buffer.length) :
    ∃ rest u,chunkLoop fuel chunk t s=.done rest u ∧ textBytes rest=(textBytes t).drop chunk ∧
      rest.dataLength=t.dataLength ∧ rest.carry.length ≤ 3 ∧
      Sent s ((textBytes t).take chunk) 0 u := by
  induction fuel generalizing s chunk t with
  | zero => omega
  | succ fuel ih =>
    by_cases hc : chunk=0
    · subst hc
      refine ⟨t,s,?_,(List.drop_zero).symm,rfl,h3,Sent.refl s⟩
      rw [chunkLoop,if_neg (by omega)]
      rfl
    · have hk' : t.carry.length ≤ chunk := by
        rcases hk with hk | hk | hk
        · rw [hk]
          exact Nat.zero_le _
        · exact hk
        · exact absurd hk hc
      have hne : textBytes t≠[] := List.ne_nil_of_length_pos (by omega)
      obtain ⟨part,rest,u,hu,hp,hmax,hj,hd,hr3,hcut,hs⟩ :=
        @nextPart_spec s chunk t (by omega) hne hb
      have hle : part.length ≤ chunk := hmax.trans (Nat.max_le.mpr ⟨le_rfl,hk'⟩)
      have hbl : part.length+(textBytes rest).length=(textBytes t).length := by
        rw [←hj,List.length_append]
      have hcast : (chunk : ℤ)-(part.length : ℤ)=((chunk-part.length : ℕ) : ℤ) := by omega
      have hcarry : rest.carry=[] ∨ rest.carry.length ≤ chunk-part.length ∨
          chunk-part.length=0 := by
        by_cases hn : rest.carry=[]
        · exact .inl hn
        · have hx := hcut hn
          exact .inr (.inr (by omega))
      obtain ⟨rest',u',hu',hb',hd',hc',hs'⟩ := @ih {u with out := u.out++part}
        (chunk-part.length) rest (by omega) hr3 (by omega) hcarry
        (by show 4 ≤ u.buffer.length; rw [hs.size]; exact hb)
      refine ⟨rest',u',?_,?_,hd'.trans hd,hc',?_,?_,?_,?_⟩
      · rw [chunkLoop,if_pos (by omega)]
        simp only [bind_apply,hu,Outcome.andThen_done,sendData,modify_apply,hcast]
        exact hu'
      · rw [hb',←hj,List.drop_append,List.drop_eq_nil_of_le hle,List.nil_append]
      · have ho : u.out=s.out := hs.out.trans (List.append_nil _)
        rw [hs'.out,←hj,List.take_append,List.take_of_length_le hle,ho,List.append_assoc]
      · exact hs'.number.trans hs.number
      · exact hs'.size.trans hs.size
      · exact hs'.compression.trans hs.compression

/-- The loop hands over all full packets. -/
theorem textLoop_spec {s : State} {q pre : List UInt8} {fuel : ℕ} {t : LongText}
    (h : Opened s q pre) (hb : 4 ≤ s.buffer.length) (hp : pre.length ≤ maxPayload)
    (hd : t.dataLength=(textBytes t).length) (h3 : t.carry.length ≤ 3)
    (hk : t.carry=[] ∨ pre=[]) (hm : maxPayload ≤ pre.length+(textBytes t).length)
    (hf : pre.length+(textBytes t).length < fuel) :
    ∃ u E rest,textLoop fuel (pre.length+(textBytes t).length : ℕ) t s=
        .done (((textBytes rest).length : ℤ),rest) u ∧
      (textBytes rest).length < maxPayload ∧ rest.dataLength=(textBytes rest).length ∧
      Opened u [] [] ∧
      Sent s E ((pre.length+(textBytes t).length)/maxPayload) u ∧
      E++emission u.sequenceId (textBytes rest)=q++emission s.sequenceId (pre++textBytes t) := by
  induction fuel generalizing s q pre t with
  | zero => omega
  | succ fuel ih =>
    have hM : 3 < maxPayload := by decide
    obtain ⟨v,hv,ho,hs⟩ := sendCurrent_spec h maxPayload
    have hchunk := ho.chunk hp
    have hkc : t.carry=[] ∨ t.carry.length ≤ maxPayload-pre.length ∨ maxPayload-pre.length=0 := by
      rcases hk with hk | hk
      · exact .inl hk
      · subst hk
        simp only [List.length_nil]
        omega
    obtain ⟨rest,w,hw,hrb,hrd,hr3,hsw⟩ := @chunkLoop_spec v (maxPayload-pre.length+1)
      (maxPayload-pre.length) {t with dataLength := t.dataLength-(maxPayload-pre.length : ℕ)}
      (Nat.lt_succ_self _) h3 (by show _ ≤ (textBytes t).length; omega) hkc
      (by rw [hs.size]; exact hb)
    have hrb : textBytes rest=(textBytes t).drop (maxPayload-pre.length) := hrb
    have hsw : Sent v ((textBytes t).take (maxPayload-pre.length)) 0 w := hsw
    have hrl : (textBytes rest).length=pre.length+(textBytes t).length-maxPayload := by
      rw [hrb,List.length_drop]
      omega
    have hrd : rest.dataLength=(textBytes rest).length := by
      rw [hrd,hrl]
      show t.dataLength-_=_
      rw [hd]
      omega
    have hl : (pre++(textBytes t).take (maxPayload-pre.length)).length=maxPayload := by
      rw [List.length_append,List.length_take]
      omega
    have he : emission s.sequenceId (pre++textBytes t)=
        frame (.ofNat s.sequenceId,pre++(textBytes t).take (maxPayload-pre.length))++
          emission (s.sequenceId+1) (textBytes rest) := by
      rw [hrb,←emission_full hl,List.append_assoc,List.take_append_drop]
    have hframe : (header maxPayload s.sequenceId++pre)++
        (textBytes t).take (maxPayload-pre.length)=
        frame (.ofNat s.sequenceId,pre++(textBytes t).take (maxPayload-pre.length)) := by
      rw [←header_frame s.sequenceId hl.le,hl,List.append_assoc]
    have hsent : Sent s (q++frame (.ofNat s.sequenceId,
        pre++(textBytes t).take (maxPayload-pre.length))) 1 {w with bufferStart := 0, bufferEnd := 4} := by
      have hx := hs.trans hsw
      rw [List.append_assoc,hframe] at hx
      exact ⟨hx.out,hx.number,hx.size,hx.compression⟩
    have hopen : Opened {w with bufferStart := 0, bufferEnd := 4} [] [] :=
      opened_empty (by rw [hsw.size,hs.size]; exact hb)
    have hc : (pre.length+(textBytes t).length)/maxPayload=
        1+(textBytes rest).length/maxPayload := by
      rw [hrl,Nat.div_eq_sub_div (by omega) hm,Nat.add_comm]
    have hrun : textLoop (fuel+1) (pre.length+(textBytes t).length : ℕ) t s=
        textLoop fuel ((textBytes rest).length : ℕ) rest {w with bufferStart := 0, bufferEnd := 4} := by
      rw [textLoop,if_pos (by omega)]
      simp only [bind_apply,hv,Outcome.andThen_done,get_apply,hchunk,Int.toNat_natCast,hw,
        setBounds,modify_apply,hrd]
    rw [hrun]
    by_cases hn : (textBytes rest).length < maxPayload
    · obtain ⟨fuel,rfl⟩ : ∃ k,fuel=k+1 := ⟨fuel-1,by omega⟩
      refine ⟨_,q++frame (.ofNat s.sequenceId,pre++(textBytes t).take (maxPayload-pre.length)),rest,?_,hn,
        hrd,hopen,?_,?_⟩
      rotate_left
      · rw [hc,Nat.div_eq_of_lt hn,Nat.add_zero]
        exact hsent
      · rw [he,hsent.number,List.append_assoc]
      · rw [textLoop,if_neg (by omega)]
        rfl
    · have hz : ([] : List UInt8).length+(textBytes rest).length=(textBytes rest).length :=
        Nat.zero_add _
      obtain ⟨u,E,last,hu,hlast,hld,hou,hsu,heu⟩ := @ih _ [] [] rest hopen
        (by rw [hsent.size]; exact hb) (Nat.zero_le _) hrd hr3 (.inr rfl) (by omega) (by omega)
      rw [hz] at hu hsu
      refine ⟨u,q++frame (.ofNat s.sequenceId,pre++(textBytes t).take (maxPayload-pre.length))++E,last,hu,
        hlast,hld,hou,?_,?_⟩
      · rw [hc]
        exact hsent.trans hsu
      · rw [List.append_assoc,heu,he,hsent.number,List.append_assoc]
        rfl

/-- What is left of a long string is handed over part by part. -/
theorem restLoop_spec {s : State} {fuel : ℕ} {data : List UInt16} {n : ℤ}
    (hn : n=(encode data).length) (hf : (encode data).length < fuel) (hb : 4 ≤ s.buffer.length) :
    ∃ u,restLoop fuel {data, dataLength := n} s=.done () u ∧ Sent s (encode data) 0 u := by
  induction fuel generalizing s data n with
  | zero => omega
  | succ fuel ih =>
    subst hn
    match hd : chars data with
    | [] =>
      have hx := chars_eq_nil.mp hd
      subst hx
      exact ⟨s,rfl,Sent.refl s⟩
    | c::cs =>
      have hm : c ∈ chars data := hd ▸ List.mem_cons_self
      obtain ⟨-,h1,h4,-⟩ := chars_length hm
      have hcl : c.2.length ≤ (encode data).length := by
        rw [encode_cons hd,List.length_append]
        omega
      obtain ⟨hj,hr⟩ := encodeInto_spec data (min (encode data).length s.buffer.length)
      have hne : 0 < (encodeInto data (min (encode data).length s.buffer.length)).2.length := by
        refine List.length_pos_iff.mpr fun hx => ?_
        have hy := (encodeInto_empty hd).mp hx
        omega
      match hw : encodeInto data (min (encode data).length s.buffer.length) with
      | (read,written) =>
        rw [hw] at hj hr hne
        have hz : 0+written.length ≤ s.buffer.length := by
          have hmin := Nat.min_le_right (encode data).length s.buffer.length
          dsimp only at hr
          omega
        have hl : written.length+(encode (data.drop read)).length=(encode data).length := by
          rw [←hj,List.length_append]
        obtain ⟨u,hu,hs⟩ := @ih
          {s with buffer := splice 0 written s.buffer, out := s.out++written} (data.drop read)
          ((encode data).length-written.length) (by omega) (by dsimp only at hne; omega)
          (by show 4 ≤ (splice 0 written s.buffer).length; rw [splice_length hz]; exact hb)
        refine ⟨u,?_,?_,hs.number,hs.size.trans (splice_length hz),hs.compression⟩
        · rw [restLoop,if_pos (by show (0 : ℤ) < ((encode data).length : ℤ); omega)]
          simp only [bind_apply,get_apply,Outcome.andThen_done,Int.toNat_natCast,hw,set_spec hz,
            sendData,modify_apply]
          exact hu
        · rw [hs.out,←hj]
          exact List.append_assoc _ _ _

/-- The last packet of a long string is sent or waits. -/
theorem lastText_spec {s : State} {q pre : List UInt8} {t : LongText} (canWait : Bool)
    (h : Opened s q pre) (hb : 4 ≤ s.buffer.length) (hd : t.dataLength=(textBytes t).length)
    (hm : pre.length+(textBytes t).length < maxPayload) :
    ∃ w u,lastText canWait (pre.length+(textBytes t).length : ℕ) t s=.done w u ∧
      (w=true → canWait=true) ∧
      Ended s (q++emission s.sequenceId (pre++textBytes t)) 1 w u := by
  have hl : (pre++textBytes t).length=pre.length+(textBytes t).length := List.length_append
  have he : emission s.sequenceId (pre++textBytes t)=frame (.ofNat s.sequenceId,pre++textBytes t) :=
    emission_short (by omega)
  have hb' : (textBytes t).length=t.carry.length+(encode t.data).length := List.length_append
  have hp : s.bufferStart+4+(pre.length+(textBytes t).length)=s.bufferEnd+(textBytes t).length := by
    rw [h.start,h.last]
    omega
  by_cases hf : s.bufferEnd+(textBytes t).length ≤ s.buffer.length
  · have hfit : (s.bufferStart : ℤ)+4+((pre.length+(textBytes t).length : ℕ) : ℤ) ≤
        s.buffer.length := by omega
    obtain ⟨x,hx,hox,hsx⟩ := @writeShortBytes_spec s q pre t.carry h (by omega)
    have hxl : x.bufferEnd=s.bufferEnd+t.carry.length := by
      rw [hox.last,h.last,List.length_append]
      omega
    obtain ⟨y,hy,hoy,hsy⟩ := @writeShortString_spec x q _ t.data hox
      (by rw [hxl,hsx.size]; omega)
    have hpre : (pre++t.carry)++encode t.data=pre++textBytes t := List.append_assoc _ _ _
    rw [hpre] at hoy
    have hst := hsx.trans hsy
    have hrun : lastText canWait (pre.length+(textBytes t).length : ℕ) t s=
        (if (canWait && y.hasRoom)=true then pure true else
          (do sendCurrent (pre.length+(textBytes t).length); finish) : Write Bool) y := by
      simp only [lastText,bind_apply,get_apply,Outcome.andThen_done,branch_apply,if_pos hfit,hx,
        hy,Int.toNat_natCast]
    by_cases hw : (canWait && y.hasRoom)=true
    · refine ⟨true,y,?_,fun _ => (Bool.and_eq_true_iff.mp hw).1,?_⟩
      · rw [hrun,if_pos hw]
        rfl
      · rw [he]
        have hz := hst.waits hoy (by omega) (Bool.and_eq_true_iff.mp hw).2
        rwa [hst.number] at hz
    · obtain ⟨u,hu,-,hsu⟩ := sendCurrent_spec hoy (pre.length+(textBytes t).length)
      refine ⟨false,{u with bufferStart := 0, bufferEnd := 0},?_,(fun hz => by cases hz),?_⟩
      · rw [hrun,if_neg hw]
        simp only [bind_apply,hu,Outcome.andThen_done]
        rfl
      · have hz := hst.trans hsu
        rw [hst.number,Nat.add_zero,←hl,header_frame _ (by omega),←he] at hz
        exact Sent.ended ⟨hz.out,hz.number,hz.size,hz.compression⟩ rfl
  · have hfit : ¬(s.bufferStart : ℤ)+4+((pre.length+(textBytes t).length : ℕ) : ℤ) ≤
        s.buffer.length := by omega
    obtain ⟨x,hx,-,hsx⟩ := sendCurrent_spec h (pre.length+(textBytes t).length)
    have hrest : t.dataLength-t.carry.length=(encode t.data).length := by
      rw [hd,hb']
      omega
    obtain ⟨u,hu,hsu⟩ := @restLoop_spec {x with out := x.out++t.carry}
      ((encode t.data).length+1) t.data (encode t.data).length rfl (Nat.lt_succ_self _)
      (by show 4 ≤ x.buffer.length; rw [hsx.size]; exact hb)
    refine ⟨false,{u with bufferStart := 0, bufferEnd := 0},?_,(fun hz => by cases hz),?_⟩
    · simp only [lastText,bind_apply,get_apply,Outcome.andThen_done,branch_apply,if_neg hfit,hx,
        Int.toNat_natCast,sendData,modify_apply,hrest,hu]
      rfl
    · refine Sent.ended ⟨?_,hsu.number.trans hsx.number,hsu.size.trans hsx.size,
        hsu.compression.trans hsx.compression⟩ rfl
      show u.out=_
      rw [hsu.out]
      show (x.out++t.carry)++encode t.data=_
      rw [hsx.out,he,←header_frame _ (by omega),hl,textBytes]
      simp only [List.append_assoc]

/-- `sendWithData()` of a string that does not fit the buffer. -/
theorem sendLongString_spec {s : State} {q pre : List UInt8} (canWait : Bool) (data : List UInt16)
    (h : Opened s q pre) (hb : 4 ≤ s.buffer.length) (hp : pre.length ≤ maxPayload) :
    ∃ w t,sendLongString canWait data s=.done w t ∧ (w=true → canWait=true) ∧
      Ended s (q++emission s.sequenceId (pre++encode data))
        ((pre++encode data).length/maxPayload+1) w t := by
  have hl : (pre++encode data).length=pre.length+(encode data).length := List.length_append
  have ht : textBytes {data, dataLength := (encode data).length}=encode data := List.nil_append _
  by_cases hm : pre.length+(encode data).length < maxPayload
  · obtain ⟨w,t,hw,hc,he⟩ := @lastText_spec s q pre {data, dataLength := (encode data).length}
      canWait h hb (by rw [ht]) (by rw [ht]; exact hm)
    rw [ht] at hw he
    refine ⟨w,t,?_,hc,?_⟩
    · simp only [sendLongString,bind_apply,get_apply,Outcome.andThen_done,h.filled,
        utf8StringLength_eq,textLoop]
      rw [if_neg (by omega)]
      exact hw
    · rw [hl,Nat.div_eq_of_lt hm]
      exact he
  · obtain ⟨u,E,rest,hu,hrest,hrd,ho,hsu,heu⟩ := @textLoop_spec s q pre
      (pre.length+(encode data).length+1) {data, dataLength := (encode data).length} h hb hp
      (by rw [ht]) (Nat.zero_le _) (.inl rfl) (by rw [ht]; exact Nat.not_lt.mp hm)
      (by rw [ht]; exact Nat.lt_succ_self _)
    rw [ht] at hu hsu heu
    have hz : ([] : List UInt8).length+(textBytes rest).length=(textBytes rest).length :=
      Nat.zero_add _
    obtain ⟨w,t,hw,hc,he⟩ := @lastText_spec u [] [] rest canWait ho
      (by rw [hsu.size]; exact hb) hrd (by rw [hz]; exact hrest)
    rw [hz] at hw
    refine ⟨w,t,?_,hc,?_⟩
    · simp only [sendLongString,bind_apply,get_apply,Outcome.andThen_done,h.filled,
        utf8StringLength_eq,hu]
      exact hw
    · have hx := hsu.andEnded he
      rw [List.nil_append,List.nil_append,heu,←hl] at hx
      exact hx

/-- `sendWithData()` of a string. A string that fits the buffer is sent as
one packet. -/
theorem sendString_spec {s : State} {q pre : List UInt8} (canWait : Bool) (data : List UInt16)
    (h : Opened s q pre) (hb : 4 ≤ s.buffer.length) (hp : pre.length ≤ maxPayload)
    (hs : s.fitsString data=true → pre.length+(encode data).length < maxPayload) :
    ∃ w t,sendString canWait data s=.done w t ∧ (w=true → canWait=true) ∧
      Ended s (q++emission s.sequenceId (pre++encode data))
        ((pre++encode data).length/maxPayload+1) w t := by
  have hl : (pre++encode data).length=pre.length+(encode data).length := List.length_append
  by_cases hf : s.fitsString data=true
  · have hm := hs hf
    have he : emission s.sequenceId (pre++encode data)=
        frame (.ofNat s.sequenceId,pre++encode data) := emission_short (by omega)
    obtain ⟨y,hy,hoy,hsy⟩ := writeShortString_spec h ((fitsString_iff s data).mp hf)
    rw [hl,Nat.div_eq_of_lt hm]
    by_cases hw : (canWait && y.hasRoom)=true
    · refine ⟨true,y,?_,fun _ => (Bool.and_eq_true_iff.mp hw).1,?_⟩
      · simp only [sendString,bind_apply,get_apply,Outcome.andThen_done,branch_apply,if_pos hf,hy,
          if_pos hw,pure_apply]
      · rw [he]
        have hz := hsy.waits hoy (by omega) (Bool.and_eq_true_iff.mp hw).2
        rwa [hsy.number] at hz
    · obtain ⟨u,hu,hst,hsu⟩ := send_spec hoy
      refine ⟨false,u,?_,(fun hz => by cases hz),?_⟩
      · simp only [sendString,bind_apply,get_apply,Outcome.andThen_done,branch_apply,if_pos hf,hy,
          if_neg hw,hu,pure_apply]
      · have hz := hsy.trans hsu
        rw [hsy.number,Nat.add_zero,header_frame _ (by omega),←he] at hz
        exact hz.ended hst
  · obtain ⟨w,t,hw,hc,he⟩ := sendLongString_spec canWait data h hb hp
    refine ⟨w,t,?_,hc,he⟩
    simp only [sendString,bind_apply,get_apply,Outcome.andThen_done,branch_apply,if_neg hf]
    exact hw

end SpiritMysql.StringSends
