import SpiritMysql.ChunkCursor
import SpiritMysql.Reader

/-!
# The reader follows a cursor over the packets of one payload

A payload travels as packets. Every packet but the last carries `0xFFFFFF`
bytes, so a payload whose length is a multiple of that number ends with an
empty packet. Reading operations of the reader move a chunk cursor: numbers
look ahead and join the next packet, byte strings enter it when it is needed.
-/

namespace SpiritMysql.PacketStream

open AsyncAction ByteCodec ChunkCursor Errors Reader

/-- A packet number and a payload. -/
abbrev Packet := UInt8×List UInt8

/-- The bytes of a packet: its length, its number and its payload. -/
def frame (p : Packet) : List UInt8 := leBytes 3 p.2.length++p.1::p.2

/-- The bytes of several packets. -/
def frames (ps : List Packet) : List UInt8 := ps.flatMap frame

/-- How many bytes are unread at each of the packet headers that follow. -/
def headerLog (later : List UInt8) : List Packet → List ℕ
  | [] => []
  | p::ps => (frames (p::ps)++later).length::headerLog later ps

/-- The reader stands at a cursor over the packets of one payload, other
bytes come later, and when the last packet is entered the record of headers
will be `log`. -/
structure Represents (s : State) (c : Cursor UInt8 UInt8) (later : List UInt8) (log : List ℕ) :
    Prop where
  /-- The unread bytes. -/
  rest : s.rest=c.cur++(frames c.nexts++later)
  /-- The reader knows what is left of the current packet. -/
  left : s.lenInCurPacket=c.cur.length
  /-- A packet with a successor is a full one. -/
  full : c.nexts≠[] → s.payloadLength=maxPayload
  /-- The last packet is not a full one. -/
  short : c.nexts=[] → s.payloadLength < maxPayload
  /-- The packets that follow are cut the same way. -/
  regular : Regular maxPayload c.nexts
  /-- The headers recorded so far and those that follow. -/
  headers : s.headers++headerLog later c.nexts=log

@[simp] theorem frame_length (p : Packet) : (frame p).length=p.2.length+4 := by
  simp only [frame,List.length_append,leBytes_length,List.length_cons]
  omega

/-- The packet header of a frame. -/
theorem frame_take (p : Packet) (X : List UInt8) :
    (frame p++X).take 4=leBytes 3 p.2.length++[p.1] := by
  simp [frame,leBytes]

/-- What follows the packet header of a frame. -/
theorem frame_drop (p : Packet) (X : List UInt8) : (frame p++X).drop 4=p.2++X := by
  simp [frame,leBytes]

/-- The payload length is read back from a packet header. -/
theorem header_length {p : Packet} (h : p.2.length ≤ maxPayload) :
    leNat ((leBytes 3 p.2.length++[p.1]).take 3)=p.2.length := by
  rw [List.take_left' (leBytes_length 3 _)]
  refine leNat_leBytes_of_lt ?_
  have hm : maxPayload < 256^3 := by decide
  omega

/-- Every packet of a payload fits the length field. -/
theorem regular_head {p : Packet} {ps : List Packet} (h : Regular maxPayload (p::ps)) :
    p.2.length ≤ maxPayload := by
  cases ps with
  | nil => exact h.le
  | cons q ps => exact h.1.le

/-- Enough received bytes let `recvAtLeast` return at once. -/
theorem recvAtLeast_done {n : ℕ} {s : State} (h : n ≤ s.rest.length) (hb : n ≤ bufferLen) :
    recvAtLeast n s=.done () s := by
  unfold recvAtLeast
  rw [if_pos (by omega),if_pos hb]

/-- Reading the header of the first packet of a payload enters it. -/
theorem readPacketHeader_spec {s : State} {p : Packet} {ps : List Packet} {later : List UInt8}
    {log : List ℕ} (hrest : s.rest=frames (p::ps)++later) (hreg : Regular maxPayload (p::ps))
    (hlog : s.headers++headerLog later (p::ps)=log) :
    ∃ s', readPacketHeader s=.done () s' ∧ s'.payloadLength=p.2.length ∧ s'.packetOffset=0 ∧
      Represents s' ⟨p.2,ps⟩ later log := by
  have hle := regular_head hreg
  have hr : s.rest=frame p++(frames ps++later) := by
    rw [hrest]
    simp only [frames,List.flatMap_cons,List.append_assoc]
  have hlen : 4 ≤ s.rest.length := by
    rw [hr,List.length_append,frame_length]
    omega
  have ht : s.rest.take 4=leBytes 3 p.2.length++[p.1] := by rw [hr,frame_take]
  have hd : s.rest.drop 4=p.2++(frames ps++later) := by rw [hr,frame_drop]
  have hp : s.nextPacket.payloadLength=p.2.length := by
    have hh := header_length hle
    rwa [←ht] at hh
  refine ⟨s.nextPacket,?_,hp,rfl,hd,?_,?_,?_,hreg.tail,?_⟩
  · rw [readPacketHeader,bind_apply,recvAtLeast_done hlen (by decide)]
    rfl
  · have ho : s.nextPacket.packetOffset=0 := rfl
    rw [State.lenInCurPacket,hp,ho,sub_zero]
  · intro hn
    rw [hp]
    cases ps with
    | nil => exact absurd rfl hn
    | cons q ps => exact hreg.1
  · intro hn
    have hn' : ps=[] := hn
    subst hn'
    rw [hp]
    exact regular_singleton.mp hreg
  · have hh : s.nextPacket.headers=s.headers++[s.rest.length] := rfl
    rw [hh,←hlog,hrest]
    simp only [headerLog,List.append_assoc,List.singleton_append]

/-- Joining the next packet pulls the next chunk. -/
theorem correctNearPacketBoundary_spec {s : State} {c : Cursor UInt8 UInt8} {later : List UInt8}
    {log : List ℕ} (h : Represents s c later log) :
    ∃ s', correctNearPacketBoundary s=.done () s' ∧ Represents s' c.pull later log := by
  obtain ⟨cur,nexts⟩ := c
  cases nexts with
  | nil =>
    have hs := h.short rfl
    refine ⟨s,?_,h⟩
    unfold correctNearPacketBoundary
    rw [if_neg (by omega)]
  | cons p ps =>
    have hf : s.payloadLength=maxPayload := h.full (List.cons_ne_nil _ _)
    have hle := regular_head h.regular
    have hleft : (s.payloadLength : ℤ)-s.packetOffset=cur.length := h.left
    have hr : s.rest=cur++(frame p++(frames ps++later)) := by
      rw [h.rest]
      simp only [frames,List.flatMap_cons,List.append_assoc]
    have hlen : cur.length+4 ≤ s.rest.length := by
      rw [hr,List.length_append,List.length_append,frame_length]
      omega
    have hd : s.rest.drop cur.length=frame p++(frames ps++later) := by
      rw [hr,List.drop_left]
    have ht : (s.rest.drop cur.length).take 4=leBytes 3 p.2.length++[p.1] := by
      rw [hd,frame_take]
    have hdd : s.rest.drop (cur.length+4)=p.2++(frames ps++later) := by
      rw [←List.drop_drop,hd,frame_drop]
    have htake : s.rest.take cur.length=cur := by rw [hr,List.take_left]
    have hp : (s.joinPacket cur.length).payloadLength=p.2.length := by
      have hh := header_length hle
      rwa [←ht] at hh
    refine ⟨s.joinPacket cur.length,?_,?_,?_,?_,?_,h.regular.tail,?_⟩
    · unfold correctNearPacketBoundary
      rw [if_pos hf,hleft,Int.toNat_natCast]
      exact if_pos hlen
    · have hh : (s.joinPacket cur.length).rest=s.rest.take cur.length++s.rest.drop (cur.length+4) := rfl
      rw [hh,htake,hdd]
      simp only [Cursor.pull,List.append_assoc]
    · have ho : (s.joinPacket cur.length).packetOffset= -(cur.length : ℤ) := rfl
      rw [State.lenInCurPacket,hp,ho]
      simp only [Cursor.pull,List.length_append]
      push_cast
      omega
    · intro hn
      rw [hp]
      cases ps with
      | nil => exact absurd rfl hn
      | cons q ps => exact h.regular.1
    · intro hn
      have hn' : ps=[] := hn
      subst hn'
      rw [hp]
      exact regular_singleton.mp h.regular
    · have hl := h.headers
      have hcount : s.rest.length-cur.length=(frames (p::ps)++later).length := by
        have hrest := h.rest
        dsimp only at hrest
        rw [hrest,List.length_append]
        omega
      have hh : (s.joinPacket cur.length).headers=s.headers++[s.rest.length-cur.length] := rfl
      rw [hh,←hl,hcount]
      simp only [Cursor.pull,headerLog,List.append_assoc,List.singleton_append]

/-- The look-ahead of a number reserves its bytes in the current chunk. -/
theorem reserve_spec {s : State} {c : Cursor UInt8 UInt8} {later : List UInt8} {log : List ℕ}
    (k : ℕ) (h : Represents s c later log) :
    ∃ s', reserve k s=.done () s' ∧ Represents s' (c.reserve k) later log := by
  have hleft : (s.payloadLength : ℤ)-s.packetOffset=c.cur.length := h.left
  by_cases hn : c.nexts=[]
  · have hp : c.pull=c := by
      unfold Cursor.pull
      rw [hn]
    have hc : c.reserve k=c := by
      unfold Cursor.reserve
      rw [hp,ite_self]
    rw [hc]
    unfold reserve
    split
    · have hb := correctNearPacketBoundary_spec h
      rwa [hp] at hb
    · exact ⟨s,rfl,h⟩
  · have hf := h.full hn
    unfold reserve Cursor.reserve
    by_cases hk : c.cur.length < k
    · rw [if_pos (by omega),if_pos hk]
      exact correctNearPacketBoundary_spec h
    · rw [if_neg (by omega),if_neg hk]
      exact ⟨s,rfl,h⟩

/-- Consuming bytes of the current packet. -/
theorem take_spec {s : State} {c : Cursor UInt8 UInt8} {later : List UInt8} {log : List ℕ} {n : ℕ}
    (h : Represents s c later log) (hn : n ≤ c.cur.length) :
    ∃ s', take n s=.done (c.cur.take n) s' ∧ Represents s' (c.drop n) later log := by
  have ht : s.rest.take n=c.cur.take n := by
    rw [h.rest,List.take_append_of_le_length hn]
  have hd : s.rest.drop n=c.cur.drop n++(frames c.nexts++later) := by
    rw [h.rest,List.drop_append_of_le_length hn]
  have hleft : (s.payloadLength : ℤ)-s.packetOffset=c.cur.length := h.left
  refine ⟨s.advance n,by rw [take,ht],hd,?_,h.full,h.short,h.regular,h.headers⟩
  have ho : (s.advance n).lenInCurPacket=s.payloadLength-(s.packetOffset+n) := rfl
  rw [ho,Cursor.drop,List.length_drop]
  omega

/-- The bytes of the current packet were received. -/
theorem Represents.received {s : State} {c : Cursor UInt8 UInt8} {later : List UInt8} {log : List ℕ}
    (h : Represents s c later log) : c.cur.length ≤ s.rest.length := by
  rw [h.rest,List.length_append]
  omega

/-- A fixed-width number moves the cursor over its bytes. -/
theorem readFixed_spec {s : State} {c : Cursor UInt8 UInt8} {later : List UInt8} {log : List ℕ}
    {k : ℕ} (h : Represents s c later log) (hk : k ≤ bufferLen) (hl : k ≤ c.flatten.length) :
    ∃ s', readFixed k s=.done (c.flatten.take k) s' ∧
      Represents s' ((c.reserve k).drop k) later log := by
  have hm : bufferLen ≤ maxPayload := by decide
  obtain ⟨s₁,h₁,r₁⟩ := reserve_spec k h
  have hc : k ≤ (c.reserve k).cur.length := le_reserve h.regular (hk.trans hm) le_rfl hl
  have hrecv := recvAtLeast_done (hc.trans r₁.received) hk
  obtain ⟨s₂,h₂,r₂⟩ := take_spec r₁ hc
  refine ⟨s₂,?_,r₂⟩
  rw [readFixed,bind_apply,h₁,Outcome.andThen_done,bind_apply,hrecv,Outcome.andThen_done,h₂,
    take_cur hc,flatten_reserve]

/-- A length-encoded integer moves the cursor over its bytes. -/
theorem readLenencInt_spec {s : State} {c : Cursor UInt8 UInt8} {later : List UInt8} {log : List ℕ}
    {b : UInt8} {bs : List UInt8} (h : Represents s c later log) (hc : c.flatten=b::bs)
    (hl : lenencSize b ≤ c.flatten.length) :
    ∃ s', readLenencInt s=.done (lenencValue (c.flatten.take (lenencSize b))) s' ∧
      Represents s' ((c.reserve 9).drop (lenencSize b)) later log := by
  have hsize : 1 ≤ lenencSize b ∧ lenencSize b ≤ 9 := by
    unfold lenencSize
    split_ifs <;> omega
  obtain ⟨s₁,h₁,r₁⟩ := reserve_spec 9 h
  have hn : lenencSize b ≤ (c.reserve 9).cur.length :=
    le_reserve h.regular (by decide) hsize.2 hl
  have hhead : s₁.rest.headD 0=b := by
    have hf := flatten_reserve 9 c
    rw [hc] at hf
    rw [r₁.rest]
    cases hcur : (c.reserve 9).cur with
    | nil =>
      rw [hcur,List.length_nil] at hn
      omega
    | cons x xs =>
      rw [Cursor.flatten,hcur] at hf
      exact (List.cons.inj hf).1
  have hrecv := recvAtLeast_done (hn.trans r₁.received) (hsize.2.trans (by decide))
  have hrecv1 := recvAtLeast_done (hsize.1.trans (hn.trans r₁.received)) (by decide)
  obtain ⟨s₂,h₂,r₂⟩ := take_spec r₁ hn
  refine ⟨s₂,?_,r₂⟩
  simp only [readLenencInt,bind_apply,h₁,Outcome.andThen_done,hrecv1,get_apply,hhead,hrecv,h₂,
    pure_apply,take_cur hn,flatten_reserve]

/-- How an operation makes sure that the current packet has bytes. -/
def Enters (enter : Read Unit) : Prop :=
  ∀ s c later log, Represents s c later log → c.flatten≠[] →
    ∃ s', enter s=.done () s' ∧
      Represents s' (if c.cur=[] then c.pull else c) later log

/-- The loop of `readBytesToBuffer()` enters the next packet by its header. -/
theorem enters_header :
    Enters (fun s => if s.lenInCurPacket=0 then readPacketHeader s else .done () s) := by
  intro s c later log h hf
  obtain ⟨cur,nexts⟩ := c
  have hleft := h.left
  cases cur with
  | nil =>
    cases nexts with
    | nil => exact absurd rfl hf
    | cons p ps =>
      obtain ⟨s',hs,-,-,hr⟩ := readPacketHeader_spec h.rest h.regular h.headers
      refine ⟨s',?_,by simpa only [if_pos,Cursor.pull,List.nil_append] using hr⟩
      dsimp only
      rw [if_pos (by simpa using hleft),hs]
  | cons b bs =>
    refine ⟨s,?_,by simpa using h⟩
    have hne : s.lenInCurPacket≠0 := by
      rw [hleft]
      simp only [List.length_cons]
      omega
    dsimp only
    rw [if_neg hne]

/-- The loop of `readVoidAsync()` enters the next packet by joining it. -/
theorem enters_reserve : Enters (reserve 1) := by
  intro s c later log h hf
  obtain ⟨s',hs,hr⟩ := reserve_spec 1 h
  refine ⟨s',hs,?_⟩
  have hc : (if c.cur=[] then c.pull else c)=c.reserve 1 := by
    unfold Cursor.reserve
    simp only [Nat.lt_one_iff,List.length_eq_zero_iff]
  rwa [hc]

/-- One turn of the loop passes what the current packet has. -/
theorem passLoop_step {enter : Read Unit} {s s₁ : State} {later : List UInt8} {log : List ℕ}
    {cur : List UInt8} {nexts : List Packet} (fuel n : ℕ) (hs : enter s=.done () s₁)
    (h : Represents s₁ ⟨cur,nexts⟩ later log) (hn : n≠0) (hcur : cur≠[]) :
    ∃ s₂, passLoop enter (fuel+1) n s=(passLoop enter fuel (n-min cur.length n) s₂).andThen
        (fun b => pure (cur.take n++b)) ∧
      Represents s₂ ⟨cur.drop n,nexts⟩ later log := by
  have hpos : 0 < cur.length := List.length_pos_iff.mpr hcur
  have hleft : s₁.lenInCurPacket.toNat=cur.length := by rw [h.left,Int.toNat_natCast]
  have hrec : cur.length ≤ s₁.rest.length := h.received
  have hm : min (min cur.length n) s₁.rest.length=min cur.length n := by omega
  have hr1 : recvAtLeast (min (min cur.length n) 1) s₁=.done () s₁ :=
    recvAtLeast_done (by omega) ((Nat.min_le_right _ _).trans (by decide))
  obtain ⟨s₂,h₂,r₂⟩ := take_spec (n:=min cur.length n) h (Nat.min_le_left _ _)
  have ht : cur.take (min cur.length n)=cur.take n := by
    rcases Nat.le_total cur.length n with hle|hle
    · rw [Nat.min_eq_left hle,List.take_of_length_le le_rfl,List.take_of_length_le hle]
    · rw [Nat.min_eq_right hle]
  have hd : cur.drop (min cur.length n)=cur.drop n := by
    rcases Nat.le_total cur.length n with hle|hle
    · rw [Nat.min_eq_left hle,List.drop_eq_nil_of_le le_rfl,List.drop_eq_nil_of_le hle]
    · rw [Nat.min_eq_right hle]
  refine ⟨s₂,?_,by simpa only [Cursor.drop,hd] using r₂⟩
  simp only [passLoop,if_neg hn,bind_apply,hs,Outcome.andThen_done,get_apply,hleft,hr1,hm,h₂,ht]

/-- Passing bytes moves the cursor over them, and returns them. Every turn
finishes a packet, so the fuel has to cover the packets. -/
theorem passLoop_spec {enter : Read Unit} (he : Enters enter) {s : State} {later : List UInt8}
    {log : List ℕ} (fuel n : ℕ) (cur : List UInt8) (nexts : List Packet)
    (h : Represents s ⟨cur,nexts⟩ later log) (hn : n ≤ (Cursor.mk cur nexts).flatten.length)
    (hf : 0 < fuel) (hfuel : 0 < n → nexts.length+(if cur=[] then 0 else 1)+1 ≤ fuel) :
    ∃ s', passLoop enter fuel n s=.done ((Cursor.mk cur nexts).flatten.take n) s' ∧
      Represents s' (advance n cur nexts) later log := by
  induction fuel generalizing s n cur nexts with
  | zero => omega
  | succ fuel ih =>
    by_cases h0 : n=0
    · subst h0
      exact ⟨s,by simp only [passLoop,if_pos,pure_apply,List.take_zero],by rwa [advance_zero]⟩
    · have hpos := Nat.pos_of_ne_zero h0
      have hfu := hfuel hpos
      have turn : ∀ s₁ cur' nexts', enter s=.done () s₁ → Represents s₁ ⟨cur',nexts'⟩ later log →
          cur'≠[] → nexts'.length+1 ≤ fuel → n ≤ (Cursor.mk cur' nexts').flatten.length →
          ∃ s', passLoop enter (fuel+1) n s=.done ((Cursor.mk cur' nexts').flatten.take n) s' ∧
            Represents s' (advance n cur' nexts') later log := by
        intro s₁ cur' nexts' h₁ r₁ hcur hlen hle
        obtain ⟨s₂,h₂,r₂⟩ := passLoop_step fuel n h₁ r₁ h0 hcur
        by_cases hc : n ≤ cur'.length
        · have hz : n-min cur'.length n=0 := by omega
          obtain ⟨s₃,h₃,r₃⟩ := ih 0 _ _ r₂ (Nat.zero_le _) (by omega) (by omega)
          refine ⟨s₃,?_,by simpa only [advance_zero,advance_of_le hc] using r₃⟩
          rw [h₂,hz,h₃,Outcome.andThen_done,pure_apply,List.take_zero,List.append_nil,
            ←take_cur (c:=⟨cur',nexts'⟩) hc]
        · have hlt : cur'.length < n := by omega
          have hmin : min cur'.length n=cur'.length := by omega
          have hd : cur'.drop n=[] := List.drop_eq_nil_of_le hlt.le
          rw [hd] at r₂
          cases nexts' with
          | nil =>
            simp only [Cursor.flatten,List.flatMap_nil,List.append_nil] at hle
            omega
          | cons p ps =>
            have hle' : n-cur'.length ≤ (Cursor.mk [] (p::ps)).flatten.length := by
              simp only [Cursor.flatten,List.length_append,List.length_nil] at hle ⊢
              omega
            obtain ⟨s₃,h₃,r₃⟩ := ih (n-cur'.length) _ _ r₂ hle' (by omega)
              (by simp only [if_pos]; omega)
            have hz : ([] : List UInt8).length < n-cur'.length := by
              rw [List.length_nil]
              omega
            refine ⟨s₃,?_,?_⟩
            · rw [h₂,hmin,h₃,Outcome.andThen_done,pure_apply,List.take_of_length_le hlt.le]
              simp only [Cursor.flatten,List.nil_append,List.take_append]
              rw [List.take_of_length_le hlt.le]
            · rw [advance_of_lt hz,List.length_nil,Nat.sub_zero] at r₃
              rwa [advance_of_lt hlt]
      have hne : (Cursor.mk cur nexts).flatten≠[] := by
        intro hnil
        rw [hnil,List.length_nil] at hn
        omega
      obtain ⟨s₁,h₁,r₁⟩ := he s _ later log h hne
      cases cur with
      | cons b bs =>
        rw [if_neg (List.cons_ne_nil _ _)] at r₁ hfu
        exact turn s₁ _ _ h₁ r₁ (List.cons_ne_nil _ _) (by omega) hn
      | nil =>
        rw [if_pos rfl] at r₁ hfu
        cases nexts with
        | nil => exact absurd rfl hne
        | cons p ps =>
          have hp : p.2≠[] := by
            intro hnil
            cases ps with
            | nil => exact hne (by simp only [Cursor.flatten,List.flatMap_cons,hnil]; rfl)
            | cons q qs =>
              have hm : p.2.length=maxPayload := h.regular.1
              rw [hnil] at hm
              exact absurd hm (by decide)
          have hz : ([] : List UInt8).length < n := hpos
          have hflat : (Cursor.mk [] (p::ps)).flatten=(Cursor.mk p.2 ps).flatten := by
            simp only [Cursor.flatten,List.flatMap_cons,List.nil_append]
          rw [hflat] at hn ⊢
          rw [advance_of_lt hz,List.length_nil,Nat.sub_zero]
          simp only [Cursor.pull,List.nil_append] at r₁
          simp only [List.length_cons] at hfu
          exact turn s₁ _ _ h₁ r₁ hp (by omega) hn

/-- The bytes that are left outnumber the packets that are left. -/
theorem Represents.fuel {s : State} {c : Cursor UInt8 UInt8} {later : List UInt8} {log : List ℕ}
    (h : Represents s c later log) :
    c.nexts.length+(if c.cur=[] then 0 else 1)+1 ≤ s.rest.length+1 := by
  have hframes : ∀ ps : List Packet, ps.length ≤ (frames ps).length := by
    intro ps
    induction ps with
    | nil => exact Nat.zero_le _
    | cons p ps ih =>
      simp only [frames,List.flatMap_cons,List.length_append,frame_length,List.length_cons] at ih ⊢
      omega
  have hps := hframes c.nexts
  rw [h.rest,List.length_append,List.length_append]
  split
  · omega
  · next hc =>
    have hl := List.length_pos_iff.mpr hc
    omega

/-- Copying bytes to a buffer moves the cursor over them. -/
theorem readBytesToBuffer_spec {s : State} {c : Cursor UInt8 UInt8} {later : List UInt8}
    {log : List ℕ} {n : ℕ} (h : Represents s c later log) (hn : n ≤ c.flatten.length) :
    ∃ s', readBytesToBuffer n s=.done (c.flatten.take n) s' ∧ Represents s' (c.skip n) later log :=
  passLoop_spec enters_header _ n c.cur c.nexts h hn (Nat.succ_pos _)
    (fun _ => h.fuel)

/-- Skipping bytes moves the cursor over them. -/
theorem readVoid_spec {s : State} {c : Cursor UInt8 UInt8} {later : List UInt8}
    {log : List ℕ} {n : ℕ} (h : Represents s c later log) (hn : n ≤ c.flatten.length) (hpos : 0 < n) :
    ∃ s', readVoid n s=.done () s' ∧ Represents s' (c.skip n) later log := by
  obtain ⟨s',hs,hr⟩ := passLoop_spec enters_reserve (s.rest.length+1) n c.cur c.nexts h hn
    (Nat.succ_pos _) (fun _ => h.fuel)
  refine ⟨s',?_,hr⟩
  have hz : ¬((n : ℤ) ≤ 0) := by omega
  simp only [readVoid,bind_apply,get_apply,Outcome.andThen_done,if_neg hz,Int.toNat_natCast,hs]
  rfl

/-- Reading a short byte string moves the cursor over it. -/
theorem readShortBytes_spec {s : State} {c : Cursor UInt8 UInt8} {later : List UInt8}
    {log : List ℕ} {n : ℕ} (h : Represents s c later log) (hn : n ≤ c.flatten.length)
    (hb : n+4 ≤ bufferLen) :
    ∃ s', readShortBytes n s=.done (c.flatten.take n) s' ∧ Represents s' (c.skip n) later log := by
  obtain ⟨cur,nexts⟩ := c
  have hleft : s.lenInCurPacket=cur.length := h.left
  have hneg : ¬((n : ℤ) < 0) := by omega
  have hbig : ¬((bufferLen : ℤ)-4 < n) := by omega
  by_cases hc : n ≤ cur.length
  · have hcz : (n : ℤ) ≤ s.lenInCurPacket := by omega
    have hrecv := recvAtLeast_done (hc.trans h.received) (show n ≤ bufferLen by omega)
    obtain ⟨s',hs,hr⟩ := take_spec h hc
    refine ⟨s',?_,by simpa only [Cursor.skip,Cursor.drop,advance_of_le hc] using hr⟩
    simp only [readShortBytes,branch_apply,if_neg hbig,if_neg hneg,bind_apply,get_apply,
      Outcome.andThen_done,if_pos hcz,Int.toNat_natCast,hrecv,hs]
    rw [take_cur (c:=⟨cur,nexts⟩) hc]
  · have hlt : cur.length < n := by omega
    have hcz : ¬((n : ℤ) ≤ s.lenInCurPacket) := by omega
    have hnn : ¬(s.lenInCurPacket < 0) := by omega
    have hhead : s.lenInCurPacket.toNat=cur.length := by omega
    cases nexts with
    | nil =>
      simp only [Cursor.flatten,List.flatMap_nil,List.append_nil] at hn
      omega
    | cons p ps =>
      obtain ⟨s₁,h₁,r₁⟩ := take_spec h le_rfl
      have hd : (Cursor.mk cur (p::ps)).drop cur.length=⟨[],p::ps⟩ := by
        simp only [Cursor.drop,List.drop_length]
      rw [hd] at r₁
      obtain ⟨s₂,h₂,-,-,r₂⟩ := readPacketHeader_spec r₁.rest r₁.regular r₁.headers
      have hn' : n-cur.length ≤ p.2.length := by
        cases ps with
        | nil =>
          simp only [Cursor.flatten,List.flatMap_cons,List.flatMap_nil,List.append_nil,
            List.length_append] at hn
          omega
        | cons q qs =>
          have hm : p.2.length=maxPayload := h.regular.1
          have hM : bufferLen ≤ maxPayload := by decide
          omega
      obtain ⟨s₃,h₃,r₃⟩ := take_spec r₂ hn'
      have hlen : cur.length+4 ≤ s.rest.length := by
        rw [h.rest]
        simp only [frames,List.flatMap_cons,List.length_append,frame_length]
        omega
      have hrecv := recvAtLeast_done hlen (show cur.length+4 ≤ bufferLen by omega)
      have hrecv' := recvAtLeast_done (hn'.trans r₂.received)
        (show n-cur.length ≤ bufferLen by omega)
      refine ⟨s₃,?_,?_⟩
      · simp only [readShortBytes,branch_apply,if_neg hbig,if_neg hneg,bind_apply,get_apply,
          Outcome.andThen_done,if_neg hcz,if_neg hnn,hhead,hrecv,h₁,h₂,Int.toNat_natCast,hrecv',h₃,
          pure_apply,List.take_length]
        congr 1
        simp only [Cursor.flatten,List.flatMap_cons]
        rw [List.take_append,List.take_of_length_le hlt.le,List.take_append_of_le_length hn']
      · simpa only [Cursor.skip,Cursor.drop,advance_of_lt hlt,advance_of_le hn'] using r₃

/-- Going to the end of the packet leaves nothing of it, and enters no other. -/
theorem gotoEndOfPacket_spec {s : State} {c : Cursor UInt8 UInt8} {later : List UInt8} {log : List ℕ}
    (h : Represents s c later log) :
    ∃ s', gotoEndOfPacket s=.done () s' ∧ Represents s' ⟨[],c.nexts⟩ later log := by
  have hleft : s.lenInCurPacket=c.cur.length := h.left
  unfold gotoEndOfPacket
  rw [hleft]
  by_cases h0 : c.cur=[]
  · refine ⟨s,?_,by rwa [←h0]⟩
    rw [h0,List.length_nil,Nat.cast_zero,readVoid_zero]
  · have hn : c.cur.length ≤ c.flatten.length := by
      rw [Cursor.flatten,List.length_append]
      omega
    obtain ⟨s',hs,hr⟩ := readVoid_spec h hn (List.length_pos_iff.mpr h0)
    refine ⟨s',hs,?_⟩
    simpa only [Cursor.skip,advance_of_le le_rfl,List.drop_length] using hr

/-- The test for the end of the packet. -/
theorem Represents.isAtEndOfPacket {s : State} {c : Cursor UInt8 UInt8} {later : List UInt8}
    {log : List ℕ} (h : Represents s c later log) : s.isAtEndOfPacket=decide (c.cur=[]) := by
  have hleft : (s.payloadLength : ℤ)-s.packetOffset=c.cur.length := h.left
  unfold State.isAtEndOfPacket
  by_cases h0 : c.cur=[]
  · rw [h0] at hleft
    rw [decide_eq_true h0,decide_eq_true]
    simp only [List.length_nil] at hleft
    omega
  · have hl := List.length_pos_iff.mpr h0
    rw [decide_eq_false h0,decide_eq_false]
    omega

/-- A text to the end of the packet, without one zero byte at its end. -/
def eofText (bytes : List UInt8) : List UInt8 :=
  if bytes.getLast?=some 0 then bytes.dropLast else bytes

/-- Reading to the end of the packet. -/
theorem readShortEofBytes_spec {s : State} {c : Cursor UInt8 UInt8} {later : List UInt8}
    {log : List ℕ} (h : Represents s c later log) (hb : c.cur.length ≤ bufferLen) :
    ∃ s', readShortEofBytes s=.done (eofText c.cur) s' ∧ Represents s' ⟨[],c.nexts⟩ later log := by
  have hleft : s.lenInCurPacket=c.cur.length := h.left
  have hneg : ¬(s.lenInCurPacket < 0) := by omega
  have hnat : s.lenInCurPacket.toNat=c.cur.length := by omega
  obtain ⟨s',hs,hr⟩ := take_spec h le_rfl
  refine ⟨s',?_,by simpa only [Cursor.drop,List.drop_length] using hr⟩
  simp only [readShortEofBytes,bind_apply,get_apply,Outcome.andThen_done,branch_apply,if_neg hneg,hnat,
    recvAtLeast_done h.received hb,hs,List.take_length,pure_apply,eofText]

end SpiritMysql.PacketStream
