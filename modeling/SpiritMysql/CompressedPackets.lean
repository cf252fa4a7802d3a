import SpiritMysql.ByteCodec

/-!
# Compressed packets

`#toCompressedPackets()`: how bytes that may hold several commands are cut
into compressed packets and numbered, and that the memory for the result is
always enough.
-/

namespace SpiritMysql.CompressedPackets

open ByteCodec

/-- `Compression`, when there is one. -/
inductive Compression where
  | ZLIB | ZSTD
deriving DecidableEq, Repr

/-- `COMPRESSED_HEADER_LEN`. -/
def compressedHeaderLen : ℕ := 7

/-- `MAX_COMPRESSED_PAYLOAD_LEN`. -/
def maxCompressedPayloadLen : ℕ := 0xFFFFFF

/-- `MIN_COMPRESS_LEN`. -/
def minCompressLen : ℕ := 50

/-- The operator `>>` of the language: on signed words of 32 bits. -/
def shiftRight (n k : ℕ) : ℤ :=
  (if n%2^32 < 2^31 then ((n%2^32 : ℕ) : ℤ) else ((n%2^32 : ℕ) : ℤ)-2^32)/2^k

/-- `deflateBound()`. -/
def deflateBound (len : ℕ) : ℤ :=
  len+shiftRight len 12+shiftRight len 14+shiftRight len 25+13

/-- `zstdCompressBound()`. -/
def zstdCompressBound (len : ℕ) : ℤ :=
  len+shiftRight len 8+(if len < 2^17 then shiftRight (2^17-len) 11 else 0)

/-- The bound of an algorithm. -/
def compressBound : Compression → ℕ → ℤ
  | .ZLIB,len => deflateBound len
  | .ZSTD,len => zstdCompressBound len

/-- The constant term of the bound that is counted for each packet. -/
def partBound : Compression → ℕ
  | .ZLIB => 13
  | .ZSTD => 64

/-- The two libraries of compression. -/
structure Codec where
  /-- What the compressor makes of bytes. -/
  compress : Compression → List UInt8 → List UInt8
  /-- What the decompressor makes of bytes, if it can. -/
  decompress : Compression → List UInt8 → Option (List UInt8)
  /-- Compressed bytes are restored. -/
  decompress_compress : ∀ c data,decompress c (compress c data)=some data
  /-- The documented bounds hold. -/
  compress_length : ∀ c data,data.length < 2^31 →
    ((compress c data).length : ℤ) ≤ compressBound c data.length

/-- `deflateInto()` and `zstdCompressInto()`: they need a spare byte. -/
def compressInto (z : Codec) (c : Compression) (room : ℕ) (part : List UInt8) :
    Option (List UInt8) :=
  if compressBound c part.length+1 ≤ room then some (z.compress c part) else none

/-- The payload of a packet and its uncompressed length, which is zero when
the payload travels verbatim. -/
def payloadOf (z : Codec) (c : Compression) (part : List UInt8) : List UInt8×ℕ :=
  if minCompressLen ≤ part.length ∧ (z.compress c part).length < part.length then
    (z.compress c part,part.length)
  else (part,0)

/-- The header of a compressed packet. -/
def compressedHeader (dataLen seqId uncompressedLen : ℕ) : List UInt8 :=
  leBytes 3 dataLen++[UInt8.ofNat seqId]++leBytes 3 uncompressedLen

/-- A compressed packet. -/
def compressedPacket (z : Codec) (c : Compression) (seqId : ℕ) (part : List UInt8) : List UInt8 :=
  compressedHeader (payloadOf z c part).1.length seqId (payloadOf z c part).2++(payloadOf z c part).1

/-- Put a packet to the memory. It is tried to compress long parts there, and
the part itself overwrites a result that is not shorter. -/
def putPacket (z : Codec) (c : Compression) (room seqId : ℕ) (part : List UInt8) :
    Option (List UInt8) :=
  if minCompressLen ≤ part.length ∧ compressInto z c (room-compressedHeaderLen) part=none then none
  else if room < (compressedPacket z c seqId part).length then none
  else some (compressedPacket z c seqId part)

/-- The bytes of one command, cut at the longest payload. -/
def partLoop (z : Codec) (c : Compression) (room : ℕ) :
    ℕ → List UInt8 → List UInt8 → ℕ → Option (List UInt8×ℕ)
  | 0,_,out,seqId => some (out,seqId)
  | fuel+1,data,out,seqId =>
    if data=[] then some (out,seqId)
    else
      match putPacket z c (room-out.length) seqId (data.take maxCompressedPayloadLen) with
      | none => none
      | some packet =>
        partLoop z c room fuel (data.drop maxCompressedPayloadLen) (out++packet) ((seqId+1)%256)

/-- The bytes between two command starts. The number does not change when there
are none. -/
def putCommand (z : Codec) (c : Compression) (room : ℕ) (data out : List UInt8)
    (compressedSeqId nextSeqId : ℕ) : Option (List UInt8×ℕ) :=
  if data=[] then some (out,compressedSeqId) else partLoop z c room data.length data out nextSeqId

/-- The loop over the command starts: each following part begins a command. -/
def commandLoop (z : Codec) (c : Compression) (room : ℕ) (data : List UInt8) :
    List ℕ → ℕ → List UInt8 → ℕ → ℕ → Option (List UInt8×ℕ)
  | [],first,out,compressedSeqId,nextSeqId =>
    putCommand z c room (data.drop first) out compressedSeqId nextSeqId
  | start::starts,first,out,compressedSeqId,nextSeqId =>
    match putCommand z c room ((data.take start).drop first) out compressedSeqId nextSeqId with
    | none => none
    | some r => commandLoop z c room data starts start r.1 r.2 0

/-- The size of the memory in the worst case. -/
def worstLen (c : Compression) (len nStarts : ℕ) : ℤ :=
  compressBound c len+
    ((nStarts+1+len/maxCompressedPayloadLen)*(compressedHeaderLen+partBound c+1) : ℕ)

/-- The memory for the packets: the rest of the buffer if it is enough. -/
def roomFor (c : Compression) (bufferLength writeAt len nStarts : ℕ) : ℕ :=
  if (bufferLength : ℤ)-writeAt < worstLen c len nStarts then (worstLen c len nStarts).toNat
  else bufferLength-writeAt

/-- `#toCompressedPackets()`: the chunk and the next number. -/
def toCompressedPackets (z : Codec) (c : Compression) (bufferLength writeAt : ℕ)
    (data : List UInt8) (commandStarts : List ℕ) (compressedSeqId : ℕ) :
    Option (List UInt8×ℕ) :=
  commandLoop z c (roomFor c bufferLength writeAt data.length commandStarts.length) data
    commandStarts 0 [] compressedSeqId compressedSeqId

/-! ## The memory -/

/-- The shift of a number that is not too large is a division. -/
theorem shiftRight_eq {n : ℕ} (h : n < 2^31) (k : ℕ) : shiftRight n k=(n/2^k : ℕ) := by
  have hn : n%2^32=n := Nat.mod_eq_of_lt (by omega)
  unfold shiftRight
  rw [hn,if_pos h]
  push_cast
  rfl

/-- The terms of the bounds that grow with the length. -/
def varBound : Compression → ℕ → ℕ
  | .ZLIB,len => len+len/2^12+len/2^14+len/2^25
  | .ZSTD,len => len+len/2^8

/-- The bound of a short array. -/
theorem compressBound_le (c : Compression) {len : ℕ} (h : len < 2^31) :
    compressBound c len ≤ (varBound c len+partBound c : ℕ) := by
  cases c with
  | ZLIB =>
    unfold compressBound deflateBound varBound partBound
    dsimp only
    rw [shiftRight_eq h,shiftRight_eq h,shiftRight_eq h]
    push_cast
    omega
  | ZSTD =>
    unfold compressBound zstdCompressBound varBound partBound
    dsimp only
    rw [shiftRight_eq h]
    split
    · rw [shiftRight_eq (by omega)]
      push_cast
      omega
    · push_cast
      omega

/-- The bound is not below its growing terms. -/
theorem varBound_le (c : Compression) {len : ℕ} (h : len < 2^31) :
    (varBound c len : ℤ) ≤ compressBound c len := by
  cases c with
  | ZLIB =>
    unfold compressBound deflateBound varBound
    dsimp only
    rw [shiftRight_eq h,shiftRight_eq h,shiftRight_eq h]
    push_cast
    omega
  | ZSTD =>
    unfold compressBound zstdCompressBound varBound
    dsimp only
    rw [shiftRight_eq h]
    split
    · rw [shiftRight_eq (by omega)]
      push_cast
      omega
    · push_cast
      omega

/-- The growing terms of a part and of the rest are not above those of both. -/
theorem varBound_add (c : Compression) (a b : ℕ) :
    a+varBound c b ≤ varBound c (a+b) ∧ varBound c a ≤ varBound c (a+b) := by
  cases c with
  | ZLIB =>
    unfold varBound
    dsimp only
    omega
  | ZSTD =>
    unfold varBound
    dsimp only
    omega

/-- The memory that some bytes need in the worst case, when they hold a number
of commands. -/
def needed (c : Compression) (len nCommands : ℕ) : ℕ :=
  varBound c len+(nCommands+len/maxCompressedPayloadLen)*(compressedHeaderLen+partBound c+1)

/-- The memory is enough at the start. -/
theorem needed_le_room (c : Compression) (bufferLength writeAt nStarts : ℕ) {len : ℕ}
    (h : len < 2^31) : needed c len (nStarts+1) ≤ roomFor c bufferLength writeAt len nStarts := by
  have hv := varBound_le c h
  unfold needed roomFor worstLen
  split
  · omega
  · omega

/-- A part takes its share of the memory. What is left is enough for the rest,
with fewer commands or fewer full payloads. -/
theorem needed_part (c : Compression) {m r s t : ℕ}
    (h : t+r/maxCompressedPayloadLen+1 ≤ s+(m+r)/maxCompressedPayloadLen) :
    compressedHeaderLen+m+needed c r t ≤ needed c (m+r) s ∧
    varBound c m+(compressedHeaderLen+partBound c+1) ≤ needed c (m+r) s := by
  have hv := varBound_add c m r
  have hk := Nat.mul_le_mul_right (compressedHeaderLen+partBound c+1) h
  rw [Nat.add_mul,Nat.one_mul] at hk
  unfold needed
  omega

/-- The packet of a part is not longer than the part and a header. -/
theorem compressedPacket_length (z : Codec) (c : Compression) (seqId : ℕ) (part : List UInt8) :
    (compressedPacket z c seqId part).length ≤ compressedHeaderLen+part.length := by
  unfold compressedPacket compressedHeader compressedHeaderLen
  simp only [List.length_append,leBytes_length,List.length_singleton]
  unfold payloadOf
  split
  · dsimp only
    omega
  · dsimp only
    omega

/-- There is memory for the packet of a part. -/
theorem putPacket_eq {z : Codec} {c : Compression} {room seqId : ℕ} {part : List UInt8}
    (hl : part.length < 2^31)
    (h : varBound c part.length+(compressedHeaderLen+partBound c+1) ≤ room) :
    putPacket z c room seqId part=some (compressedPacket z c seqId part) := by
  have hb := compressBound_le c hl
  have hp := compressedPacket_length z c seqId part
  have hself : part.length ≤ varBound c part.length := by
    have hv := (varBound_add c part.length 0).1
    rw [Nat.add_zero] at hv
    omega
  have hroom : compressBound c part.length+1 ≤ (room-compressedHeaderLen : ℕ) := by
    unfold compressedHeaderLen at h ⊢
    omega
  unfold putPacket compressInto
  rw [if_pos hroom,if_neg (fun hn => by cases hn.2),if_neg (by omega)]

/-! ## Commands in the bytes -/

/-- A byte, and whether a command begins with it. -/
abbrev Cell := UInt8×Bool

/-- The bytes of cells. -/
def bytesOf (cells : List Cell) : List UInt8 := cells.map Prod.fst

/-- Does a command begin with the first byte? -/
def begins (cells : List Cell) : Bool := cells.head?.any Prod.snd

/-- Where commands begin, counted from an index. -/
def startsFrom {α : Type} : ℕ → List (α×Bool) → List ℕ
  | _,[] => []
  | i,p::cells => if p.2=true then i::startsFrom (i+1) cells else startsFrom (i+1) cells

/-- What happened on the connection. -/
inductive Item where
  /-- A compressed packet with its number was sent. -/
  | part (seqId : ℕ) (cells : List Cell)
  /-- A compressed packet with a number was received. -/
  | received (seqId : ℕ)

/-- The number of a packet: it is zero if a command begins with it. -/
def seqOf (next : ℕ) (cells : List Cell) : ℕ := if begins cells=true then 0 else next

/-- The numbering of the compressed protocol. A command begins only with the
first byte of a packet, which is numbered zero then. Other packets continue
from the last one that was sent or received. -/
def Numbered : ℕ → List Item → Prop
  | _,[] => True
  | _,.received n::items => Numbered ((n+1)%256) items
  | next,.part seqId cells::items =>
    cells≠[] ∧ seqId=seqOf next cells ∧ (∀ p ∈ cells.tail,p.2=false) ∧ Numbered ((seqId+1)%256) items

/-- The next number. -/
def nextAfter : ℕ → List Item → ℕ
  | next,[] => next
  | _,.received n::items => nextAfter ((n+1)%256) items
  | _,.part seqId _::items => nextAfter ((seqId+1)%256) items

/-- The bytes on the wire. -/
def wireOf (z : Codec) (c : Compression) : List Item → List UInt8
  | [] => []
  | .received _::items => wireOf z c items
  | .part seqId cells::items => compressedPacket z c seqId (bytesOf cells)++wireOf z c items

/-- The bytes that travel in the packets. -/
def cellsOf : List Item → List Cell
  | [] => []
  | .received _::items => cellsOf items
  | .part _ cells::items => cells++cellsOf items

/-- Nothing is received. -/
def AllSent (items : List Item) : Prop := ∀ n,.received n∉items

/-- Payloads are not longer than their length field allows. -/
def Short (items : List Item) : Prop :=
  ∀ seqId cells,.part seqId cells ∈ items → cells.length ≤ maxCompressedPayloadLen

/-- The packets of some bytes that were sent after a number. -/
structure Cuts (next : ℕ) (cells : List Cell) (items : List Item) : Prop where
  /-- They hold these bytes. -/
  cells : cellsOf items=cells
  /-- They are sent. -/
  sent : AllSent items
  /-- Their payloads are not too long. -/
  short : Short items
  /-- Their numbers follow. -/
  numbered : Numbered next items

theorem wireOf_append (z : Codec) (c : Compression) (a b : List Item) :
    wireOf z c (a++b)=wireOf z c a++wireOf z c b := by
  induction a with
  | nil => rfl
  | cons i a ih =>
    cases i with
    | part n cells =>
      rw [List.cons_append,wireOf,wireOf,ih,List.append_assoc]
    | received n => exact ih

theorem cellsOf_append (a b : List Item) : cellsOf (a++b)=cellsOf a++cellsOf b := by
  induction a with
  | nil => rfl
  | cons i a ih =>
    cases i with
    | part n cells =>
      rw [List.cons_append,cellsOf,cellsOf,ih,List.append_assoc]
    | received n => exact ih

theorem nextAfter_append (next : ℕ) (a b : List Item) :
    nextAfter next (a++b)=nextAfter (nextAfter next a) b := by
  induction a generalizing next with
  | nil => rfl
  | cons i a ih =>
    cases i with
    | part n cells => exact ih _
    | received n => exact ih _

theorem numbered_append {next : ℕ} {a b : List Item} (ha : Numbered next a)
    (hb : Numbered (nextAfter next a) b) : Numbered next (a++b) := by
  induction a generalizing next with
  | nil => exact hb
  | cons i a ih =>
    cases i with
    | part n cells => exact ⟨ha.1,ha.2.1,ha.2.2.1,ih ha.2.2.2 hb⟩
    | received n => exact ih ha hb

/-- No bytes need no packet. -/
theorem Cuts.nil (next : ℕ) : Cuts next [] [] :=
  ⟨rfl,fun _ => List.not_mem_nil,fun _ _ h => absurd h List.not_mem_nil,trivial⟩

/-- The packets of bytes that follow each other. -/
theorem Cuts.append {next : ℕ} {a b : List Cell} {as bs : List Item} (ha : Cuts next a as)
    (hb : Cuts (nextAfter next as) b bs) : Cuts next (a++b) (as++bs) where
  cells := by rw [cellsOf_append,ha.cells,hb.cells]
  sent := by
    intro n h
    exact (List.mem_append.mp h).elim (ha.sent n) (hb.sent n)
  short := by
    intro n cells h
    exact (List.mem_append.mp h).elim (ha.short n cells) (hb.short n cells)
  numbered := numbered_append ha.numbered hb.numbered

/-- One packet. -/
theorem Cuts.part (next : ℕ) {cells : List Cell} (h : cells≠[])
    (hl : cells.length ≤ maxCompressedPayloadLen) (ht : ∀ p ∈ cells.tail,p.2=false) :
    Cuts next cells [.part (seqOf next cells) cells] where
  cells := List.append_nil cells
  sent := fun n hn => by cases List.mem_singleton.mp hn
  short := by
    intro n cs hc
    cases List.mem_singleton.mp hc
    exact hl
  numbered := ⟨h,rfl,ht,trivial⟩

/-- Bytes after the first one do not begin a command. -/
theorem seqOf_unmarked (next : ℕ) {cells : List Cell} (h : ∀ p ∈ cells,p.2=false) :
    seqOf next cells=next := by
  cases cells with
  | nil => rfl
  | cons p cells =>
    have hp := h p List.mem_cons_self
    unfold seqOf begins
    rw [List.head?_cons,Option.any_some,hp]
    rfl

/-- No bytes are left. -/
theorem partLoop_nil (z : Codec) (c : Compression) (room fuel : ℕ) (out : List UInt8) (seqId : ℕ) :
    partLoop z c room fuel [] out seqId=some (out,seqId) := by
  cases fuel with
  | zero => rfl
  | succ fuel => exact if_pos rfl

/-- The loop over the payloads of one command. -/
theorem partLoop_spec {z : Codec} {c : Compression} {room rest segs : ℕ} (fuel : ℕ)
    {cells : List Cell} {out : List UInt8} (next : ℕ) (hne : cells≠[]) (hf : cells.length ≤ fuel)
    (ht : ∀ p ∈ cells.tail,p.2=false) (hl : cells.length < 2^31)
    (hr : out.length+needed c (cells.length+rest) (segs+1) ≤ room) :
    ∃ items,partLoop z c room fuel (bytesOf cells) out (seqOf next cells)=
        some (out++wireOf z c items,nextAfter next items) ∧ Cuts next cells items ∧
      (out++wireOf z c items).length+needed c rest segs ≤ room := by
  induction fuel generalizing cells out next with
  | zero => exact absurd (List.length_eq_zero_iff.mp (Nat.le_zero.mp hf)) hne
  | succ fuel ih =>
    have hbytes : bytesOf cells≠[] := fun h => hne (List.map_eq_nil_iff.mp h)
    have hpos := List.length_pos_iff.mpr hne
    set part := cells.take maxCompressedPayloadLen with hpart
    set more := cells.drop maxCompressedPayloadLen with hmore
    have hcells : part++more=cells := List.take_append_drop _ _
    have hlen : part.length+more.length=cells.length := by
      rw [←List.length_append,hcells]
    have hhead : part≠[] ∧ begins part=begins cells ∧ ∀ p ∈ part.tail++more,p.2=false := by
      cases hc : cells with
      | nil => exact absurd hc hne
      | cons p cs =>
        have hp : part=p::cs.take (maxCompressedPayloadLen-1) := by rw [hpart,hc]; rfl
        have hm : more=cs.drop (maxCompressedPayloadLen-1) := by rw [hmore,hc]; rfl
        refine ⟨by rw [hp]; exact List.cons_ne_nil _ _,by rw [hp]; rfl,?_⟩
        rw [hp,hm,List.tail_cons,List.take_append_drop]
        rw [hc] at ht
        exact ht
    obtain ⟨hp0,hbegins,htail⟩ := hhead
    have hle : part.length ≤ maxCompressedPayloadLen := List.length_take_le _ _
    have hseq : seqOf next part=seqOf next cells := by unfold seqOf; rw [hbegins]
    have hcut := Cuts.part next hp0 hle (fun p hp => htail p (List.mem_append_left _ hp))
    rw [hseq] at hcut
    have hmarks : ∀ p ∈ more,p.2=false := fun p hp => htail p (List.mem_append_right _ hp)
    have hpacket := compressedPacket_length z c (seqOf next cells) (bytesOf part)
    have hbl : (bytesOf part).length=part.length := List.length_map _
    rw [hbl] at hpacket
    have htake : (bytesOf cells).take maxCompressedPayloadLen=bytesOf part := List.map_take.symm
    have hdrop : (bytesOf cells).drop maxCompressedPayloadLen=bytesOf more := List.map_drop.symm
    rw [←hlen,Nat.add_assoc] at hr
    unfold partLoop
    rw [if_neg hbytes,htake,hdrop]
    by_cases hm : more=[]
    · obtain ⟨hn,hput⟩ := @needed_part c part.length rest (segs+1) segs (by
        rw [Nat.add_right_comm]
        exact Nat.add_le_add_left (Nat.div_le_div_right (Nat.le_add_left _ _)) _)
      rw [hm,List.length_nil,Nat.zero_add] at hr
      rw [putPacket_eq (by rw [hbl]; omega) (by rw [hbl]; omega)]
      dsimp only
      refine ⟨[.part (seqOf next cells) part],?_,?_,?_⟩
      · rw [hm,show bytesOf []=[] from rfl,partLoop_nil,wireOf,wireOf,List.append_nil]
        rfl
      · rw [hm,List.append_nil] at hcells
        exact Eq.subst (motive := fun cs => Cuts next cs [.part (seqOf next cells) part]) hcells hcut
      · rw [wireOf,wireOf,List.append_nil,List.length_append]
        omega
    · have hfull : part.length=maxCompressedPayloadLen := by
        refine List.length_take_of_le ?_
        by_contra hn
        exact hm (List.drop_of_length_le (by omega))
      obtain ⟨hn,hput⟩ := @needed_part c part.length (more.length+rest) (segs+1) (segs+1) (by
        rw [hfull,Nat.add_div_left _ (by decide)]
        omega)
      rw [putPacket_eq (by rw [hbl]; omega) (by rw [hbl]; omega)]
      dsimp only
      obtain ⟨items,hloop,hcuts,hroom⟩ := @ih more (out++compressedPacket z c (seqOf next cells) (bytesOf part))
        ((seqOf next cells+1)%256) hm (by rw [hfull] at hlen; unfold maxCompressedPayloadLen at hlen; omega)
        (fun p hp => hmarks p (List.mem_of_mem_tail hp)) (by omega) (by
          rw [List.length_append]
          omega)
      rw [seqOf_unmarked _ hmarks] at hloop
      refine ⟨.part (seqOf next cells) part::items,?_,?_,?_⟩
      · rw [hloop,wireOf,List.append_assoc]
        rfl
      · have h := @Cuts.append _ _ more _ items hcut hcuts
        rwa [hcells] at h
      · rw [wireOf,←List.append_assoc]
        exact hroom

/-- More commands need more memory. -/
theorem needed_mono (c : Compression) (len : ℕ) {s t : ℕ} (h : s ≤ t) :
    needed c len s ≤ needed c len t :=
  Nat.add_le_add_left (Nat.mul_le_mul_right _ (Nat.add_le_add_right h _)) _

/-- The bytes between two command starts. -/
theorem putCommand_spec {z : Codec} {c : Compression} {room rest segs : ℕ} {cells : List Cell}
    {out : List UInt8} (cur : ℕ) (ht : ∀ p ∈ cells.tail,p.2=false) (hl : cells.length < 2^31)
    (hr : out.length+needed c (cells.length+rest) (segs+1) ≤ room) :
    ∃ items,putCommand z c room (bytesOf cells) out cur (seqOf cur cells)=
        some (out++wireOf z c items,nextAfter cur items) ∧ Cuts cur cells items ∧
      (out++wireOf z c items).length+needed c rest segs ≤ room := by
  unfold putCommand
  by_cases hc : cells=[]
  · subst hc
    refine ⟨[],?_,Cuts.nil cur,?_⟩
    · rw [wireOf,List.append_nil]
      exact if_pos rfl
    · have hm := needed_mono c rest (Nat.le_succ segs)
      rw [List.length_nil,Nat.zero_add] at hr
      rw [wireOf,List.append_nil]
      exact (Nat.add_le_add_left hm _).trans hr
  · have hb : bytesOf cells≠[] := fun h => hc (List.map_eq_nil_iff.mp h)
    have hlen : (bytesOf cells).length=cells.length := List.length_map _
    rw [if_neg hb,hlen]
    exact partLoop_spec cells.length cur hc le_rfl ht hl hr

/-- The first command start, and what is before and after it. -/
theorem startsFrom_cons {i t : ℕ} {ts : List ℕ} {cells : List Cell}
    (h : startsFrom i cells=t::ts) :
    ∃ a p b,cells=a++p::b ∧ (∀ q ∈ a,q.2=false) ∧ p.2=true ∧ t=i+a.length ∧
      startsFrom (t+1) b=ts := by
  induction cells generalizing i with
  | nil => cases h
  | cons p cells ih =>
    rw [startsFrom] at h
    by_cases hp : p.2=true
    · rw [if_pos hp] at h
      obtain ⟨rfl,rfl⟩ := List.cons.inj h
      exact ⟨[],p,cells,rfl,fun _ hq => absurd hq List.not_mem_nil,hp,rfl,rfl⟩
    · rw [if_neg hp] at h
      obtain ⟨a,q,b,rfl,ha,hq,ht,hb⟩ := ih h
      refine ⟨p::a,q,b,rfl,?_,hq,?_,hb⟩
      · intro r hr
        cases List.mem_cons.mp hr with
        | inl hr => rw [hr]; exact Bool.eq_false_iff.mpr hp
        | inr hr => exact ha r hr
      · rw [ht,List.length_cons]
        omega

/-- No command begins there. -/
theorem startsFrom_nil {i : ℕ} {cells : List Cell} (h : startsFrom i cells=[]) :
    ∀ p ∈ cells,p.2=false := by
  induction cells generalizing i with
  | nil => exact fun _ hp => absurd hp List.not_mem_nil
  | cons p cells ih =>
    rw [startsFrom] at h
    by_cases hp : p.2=true
    · rw [if_pos hp] at h
      cases h
    · rw [if_neg hp] at h
      intro q hq
      cases List.mem_cons.mp hq with
      | inl hq => rw [hq]; exact Bool.eq_false_iff.mpr hp
      | inr hq => exact ih h q hq

/-- The loop over the command starts that follow an index. -/
theorem commandLoop_spec {z : Codec} {c : Compression} {room : ℕ} (starts : List ℕ)
    (pre : List Cell) {cells : List Cell} {out : List UInt8} (cur : ℕ)
    (hs : startsFrom (pre.length+1) cells.tail=starts) (hl : cells.length < 2^31)
    (hr : out.length+needed c cells.length (starts.length+1) ≤ room) :
    ∃ items,commandLoop z c room (bytesOf (pre++cells)) starts pre.length out cur (seqOf cur cells)=
        some (out++wireOf z c items,nextAfter cur items) ∧ Cuts cur cells items := by
  induction starts generalizing pre cells out cur with
  | nil =>
    have hdrop : (bytesOf (pre++cells)).drop pre.length=bytesOf cells := by
      unfold bytesOf
      rw [←List.map_drop,List.drop_left]
    obtain ⟨items,hput,hcuts,-⟩ := @putCommand_spec z c room 0 0 cells out cur (startsFrom_nil hs) hl hr
    refine ⟨items,?_,hcuts⟩
    unfold commandLoop
    rw [hdrop,hput]
  | cons t ts ih =>
    obtain ⟨a,p,b,htail,ha,hp,ht,hb⟩ := startsFrom_cons hs
    have hcells : ∃ q,cells=(q::a)++(p::b) := by
      cases cells with
      | nil => exact absurd htail.symm (List.append_ne_nil_of_right_ne_nil a (List.cons_ne_nil p b))
      | cons q cells => exact ⟨q,congrArg (q::·) htail⟩
    obtain ⟨q,rfl⟩ := hcells
    have hlen : t=(pre++q::a).length := by
      rw [ht,List.length_append,List.length_cons]
      omega
    have htake : ((bytesOf (pre++((q::a)++(p::b)))).take t).drop pre.length=bytesOf (q::a) := by
      unfold bytesOf
      rw [←List.map_take,←List.map_drop,hlen,←List.append_assoc,List.take_left,List.drop_left]
    rw [List.length_append] at hl hr
    obtain ⟨is,hput,hcuts,hroom⟩ :=
      @putCommand_spec z c room (p::b).length (ts.length+1) (q::a) out cur ha (by omega) hr
    have hseq : seqOf cur ((q::a)++(p::b))=seqOf cur (q::a) := rfl
    have hnext : seqOf (nextAfter cur is) (p::b)=0 := by
      unfold seqOf begins
      rw [List.head?_cons,Option.any_some,hp]
      rfl
    obtain ⟨js,hloop,hcuts'⟩ := @ih (pre++q::a) (p::b) (out++wireOf z c is) (nextAfter cur is)
      (by rw [←hlen]; exact hb) (by omega) hroom
    rw [hnext,←hlen,List.append_assoc] at hloop
    refine ⟨is++js,?_,hcuts.append hcuts'⟩
    unfold commandLoop
    rw [htake,hseq,hput]
    dsimp only
    rw [hloop,wireOf_append,nextAfter_append,List.append_assoc]

/-- `#toCompressedPackets()` with the offsets of all commands: it never runs out
of memory, and cuts the bytes into numbered packets. -/
theorem toCompressedPackets_spec (z : Codec) (c : Compression) (bufferLength writeAt cur : ℕ)
    {cells : List Cell} (hl : cells.length < 2^31) :
    ∃ items,toCompressedPackets z c bufferLength writeAt (bytesOf cells) (startsFrom 0 cells) cur=
        some (wireOf z c items,nextAfter cur items) ∧ Cuts cur cells items := by
  have hlen : (bytesOf cells).length=cells.length := List.length_map _
  have hroom := needed_le_room c bufferLength writeAt (startsFrom 0 cells).length hl
  unfold toCompressedPackets
  rw [hlen]
  set room := roomFor c bufferLength writeAt cells.length (startsFrom 0 cells).length
  by_cases hb : begins cells=true
  · cases cells with
    | nil => cases hb
    | cons p cells =>
      have hp : p.2=true := hb
      have hs : startsFrom 0 (p::cells)=0::startsFrom 1 cells := by rw [startsFrom,if_pos hp]
      have hseq : seqOf cur (p::cells)=0 := by unfold seqOf; rw [if_pos hb]
      rw [hs,List.length_cons] at hroom
      have hm := needed_mono c (p::cells).length (Nat.le_succ ((startsFrom 1 cells).length+1))
      obtain ⟨items,hloop,hcuts⟩ := @commandLoop_spec z c room (startsFrom 1 cells) [] (p::cells) []
        cur rfl hl (by rw [List.length_nil,Nat.zero_add]; exact hm.trans hroom)
      rw [hseq] at hloop
      refine ⟨items,?_,hcuts⟩
      rw [hs]
      exact hloop
  · have hs : startsFrom 1 cells.tail=startsFrom 0 cells := by
      cases cells with
      | nil => rfl
      | cons p cells =>
        have hp : ¬(p.2=true) := hb
        rw [startsFrom,if_neg hp]
        rfl
    have hseq : seqOf cur cells=cur := if_neg hb
    obtain ⟨items,hloop,hcuts⟩ := @commandLoop_spec z c room (startsFrom 0 cells) [] cells []
      cur hs hl (by rw [List.length_nil,Nat.zero_add]; exact hroom)
    rw [hseq] at hloop
    exact ⟨items,hloop,hcuts⟩

end SpiritMysql.CompressedPackets
