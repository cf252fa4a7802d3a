import SpiritMysql.AsyncAction
import SpiritMysql.CompressedPackets
import SpiritMysql.Errors

/-!
# Reading compressed packets

`readFromConn()` in the compressed protocol, over a transport that delivers
its bytes in chunks of any sizes, and that every read gives the next bytes
of the ordinary stream.
-/

namespace SpiritMysql.CompressedReader

open AsyncAction ByteCodec CompressedPackets Errors

/-- The state of a reader of the compressed protocol. -/
structure Peer where
  /-- The algorithm. -/
  compression : Compression
  /-- The chunks that the transport will deliver before it ends. -/
  transport : List (List UInt8)
  /-- `#inflated`. -/
  inflated : Option (List UInt8) := none
  /-- `#verbatimRemaining`. -/
  verbatimRemaining : ℕ := 0
  /-- `compressedSeqId`. -/
  compressedSeqId : ℕ := 0

/-- An operation of the reader. -/
abbrev Frames (α : Type) := Act Error Peer α

/-- `read()` of the transport with a view of some bytes: it gives no more than
one chunk, and nothing at the end. -/
def transportRead (n : ℕ) : Frames (Option (List UInt8)) := fun s =>
  match s.transport with
  | [] => .done none s
  | chunk::chunks =>
    .done (some (chunk.take n))
      {s with transport := if chunk.length ≤ n then chunks else chunk.drop n::chunks}

/-- The loop of `#recvFrameExact()`: each read delivers a byte at least. -/
def recvLoop (len : ℕ) (canEof : Bool) : ℕ → List UInt8 → Frames (Option (List UInt8))
  | 0,got => pure (some got)
  | fuel+1,got =>
    if len ≤ got.length then pure (some got)
    else do
      match ←transportRead (len-got.length) with
      | none =>
        if canEof=true ∧ got=[] then pure none
        else fail (.serverDisconnected "Lost connection to server")
      | some value =>
        if value=[] then fail (.serverDisconnected "Reader returned 0 bytes without EOF")
        else recvLoop len canEof fuel (got++value)

/-- `#recvFrameExact()`. -/
def recvFrameExact (len : ℕ) (canEof : Bool) : Frames (Option (List UInt8)) :=
  recvLoop len canEof len []

/-- Deliver what was inflated. -/
def deliverInflated (data : List UInt8) (viewLen : ℕ) : Frames (List UInt8×Bool) := do
  modify fun s => {s with inflated := if viewLen < data.length then some (data.drop viewLen) else none}
  return (data.take viewLen,false)

/-- Pass bytes through that travel verbatim. -/
def deliverVerbatim (viewLen : ℕ) : Frames (List UInt8×Bool) := do
  let s ← get
  match ←transportRead (min s.verbatimRemaining viewLen) with
  | none =>
    fail (.serverDisconnected "Lost connection to server in the middle of a compressed packet")
  | some value =>
    modify fun s => {s with verbatimRemaining := s.verbatimRemaining-value.length}
    return (value,false)

/-- Read and decompress a payload. -/
def inflate (z : Codec) (payloadLen uncompressedLen : ℕ) : Frames Unit := do
  let s ← get
  match ←recvFrameExact payloadLen false with
  | none => fail (.serverDisconnected "Lost connection to server")
  | some compressed =>
    match z.decompress s.compression compressed with
    | none => fail (.error "Error: invalid compressed data")
    | some data =>
      if data.length≠uncompressedLen then
        fail (.serverDisconnected
          s!"Corrupted compressed packet: expected {uncompressedLen} bytes, got {data.length}")
      else modify fun s => {s with inflated := some data}

/-- The number that follows the one of a packet. -/
def adopt (seqId : ℕ) : ℕ := (seqId+1)%256

/-- Read the next header and, unless the payload travels verbatim, the payload.
The result is whether there was a header. -/
def readHeader (z : Codec) : Frames Bool := do
  match ←recvFrameExact compressedHeaderLen true with
  | none => return false
  | some header =>
    modify fun s => {s with compressedSeqId := adopt (header.getD 3 0).toNat}
    let payloadLen := leNat (header.take 3)
    let uncompressedLen := leNat (header.drop 4)
    if uncompressedLen=0 then modify fun s => {s with verbatimRemaining := payloadLen}
    else inflate z payloadLen uncompressedLen
    return true

/-- The loop of `readFromConn()`: payloads without bytes are passed over. -/
def readLoop (z : Codec) (viewLen : ℕ) : ℕ → Frames (List UInt8×Bool)
  | 0 => wait
  | fuel+1 => do
    let s ← get
    match s.inflated with
    | some data => deliverInflated data viewLen
    | none =>
      if 0 < s.verbatimRemaining then deliverVerbatim viewLen
      else if (←readHeader z)=true then readLoop z viewLen fuel
      else return ([],true)

/-- `readFromConn()`: some bytes, and whether the stream ended. -/
def readFromConn (z : Codec) (viewLen : ℕ) : Frames (List UInt8×Bool) := do
  let s ← get
  readLoop z viewLen (s.transport.flatten.length+2)

/-- Packets that have a payload, of a length that fits its field. -/
def Sendable : List Item → Prop
  | [] => True
  | .received _::_ => False
  | .part _ cells::items =>
    cells≠[] ∧ cells.length ≤ maxCompressedPayloadLen ∧ Sendable items

/-- What is between the reader and the packets that it did not begin to read:
inflated bytes, or bytes that travel verbatim. -/
structure Between (s : Peer) (bytes wire : List UInt8) : Prop where
  /-- The transport delivers no empty chunks. -/
  chunks : ∀ chunk ∈ s.transport,chunk≠[]
  /-- The three states of delivery. -/
  holds : (∃ d,s.inflated=some d ∧ d≠[] ∧ s.verbatimRemaining=0 ∧ bytes=d ∧
      s.transport.flatten=wire) ∨
    s.inflated=none ∧ s.verbatimRemaining=bytes.length ∧ s.transport.flatten=bytes++wire

/-- The reader has some bytes of the ordinary stream to deliver, and will then
have adopted a number. -/
def Awaits (z : Codec) (s : Peer) (bytes : List UInt8) (last : ℕ) : Prop :=
  ∃ items between,Sendable items ∧ Between s between (wireOf z s.compression items) ∧
    bytes=between++bytesOf (cellsOf items) ∧ nextAfter s.compressedSeqId items=last

/-- A read of the transport gives the next bytes. -/
theorem transportRead_spec {s : Peer} {n : ℕ} (hc : ∀ chunk ∈ s.transport,chunk≠[])
    (hn : 0 < n) (hne : s.transport.flatten≠[]) :
    ∃ value chunks,transportRead n s=.done (some value) {s with transport := chunks} ∧
      value≠[] ∧ value.length ≤ n ∧ s.transport.flatten=value++chunks.flatten ∧
      ∀ chunk ∈ chunks,chunk≠[] := by
  cases ht : s.transport with
  | nil => exact absurd (by rw [ht]; rfl) hne
  | cons chunk chunks =>
    rw [ht] at hc
    have hchunk := hc chunk List.mem_cons_self
    have hrest := fun c h => hc c (List.mem_cons_of_mem _ h)
    have hlen := List.length_pos_iff.mpr hchunk
    refine ⟨chunk.take n,_,by unfold transportRead; rw [ht],?_,List.length_take_le _ _,?_,?_⟩
    · refine List.length_pos_iff.mp ?_
      rw [List.length_take]
      omega
    · split
      · next h => rw [List.take_of_length_le h,List.flatten_cons]
      · rw [List.flatten_cons,List.flatten_cons,←List.append_assoc,List.take_append_drop]
    · intro c h
      split at h
      · exact hrest c h
      · next hl =>
        cases List.mem_cons.mp h with
        | inl h =>
          rw [h]
          refine List.length_pos_iff.mp ?_
          rw [List.length_drop]
          omega
        | inr h => exact hrest c h

/-- An exact read gives that many bytes. -/
theorem recvLoop_spec {len : ℕ} (canEof : Bool) (fuel : ℕ) {s : Peer} {got : List UInt8}
    (hc : ∀ chunk ∈ s.transport,chunk≠[]) (hf : len ≤ got.length+fuel)
    (hg : got.length ≤ len) (hl : len ≤ got.length+s.transport.flatten.length) :
    ∃ value chunks,recvLoop len canEof fuel got s=.done (some (got++value)) {s with transport := chunks} ∧
      (got++value).length=len ∧ s.transport.flatten=value++chunks.flatten ∧
      ∀ chunk ∈ chunks,chunk≠[] := by
  induction fuel generalizing s got with
  | zero =>
    refine ⟨[],s.transport,by rw [List.append_nil]; rfl,?_,rfl,hc⟩
    rw [List.append_nil]
    omega
  | succ fuel ih =>
    unfold recvLoop
    by_cases h : len ≤ got.length
    · rw [if_pos h]
      refine ⟨[],s.transport,by rw [List.append_nil]; rfl,?_,rfl,hc⟩
      rw [List.append_nil]
      omega
    · have hne : s.transport.flatten≠[] := by
        refine List.length_pos_iff.mp ?_
        omega
      obtain ⟨value,chunks,hread,hv,hvl,hflat,hchunks⟩ :=
        @transportRead_spec s (len-got.length) hc (by omega) hne
      have hvpos := List.length_pos_iff.mpr hv
      have hlen : s.transport.flatten.length=value.length+chunks.flatten.length := by
        rw [hflat,List.length_append]
      obtain ⟨value',chunks',hloop,hlen',hflat',hchunks'⟩ :=
        @ih {s with transport := chunks} (got++value) hchunks
          (by rw [List.length_append]; omega) (by rw [List.length_append]; omega)
          (by rw [List.length_append]; dsimp only; omega)
      rw [if_neg h]
      refine ⟨value++value',chunks',?_,by rw [←List.append_assoc]; exact hlen',?_,hchunks'⟩
      · rw [bind_apply,hread,Outcome.andThen_done]
        dsimp only
        rw [if_neg hv,hloop,List.append_assoc]
      · rw [hflat,List.append_assoc]
        exact congrArg (value++·) hflat'

/-- An exact read of what stands first. -/
theorem recvFrameExact_spec (canEof : Bool) {s : Peer} {bytes wire : List UInt8}
    (hc : ∀ chunk ∈ s.transport,chunk≠[]) (hw : s.transport.flatten=bytes++wire) :
    ∃ chunks,recvFrameExact bytes.length canEof s=.done (some bytes) {s with transport := chunks} ∧
      chunks.flatten=wire ∧ ∀ chunk ∈ chunks,chunk≠[] := by
  obtain ⟨value,chunks,hloop,hlen,hflat,hchunks⟩ :=
    @recvLoop_spec bytes.length canEof bytes.length s [] hc (Nat.le_add_left _ _) (Nat.zero_le _)
      (by rw [hw,List.length_append]; omega)
  rw [List.nil_append] at hloop hlen
  obtain ⟨hv,hrest⟩ := List.append_inj (hw.symm.trans hflat) hlen.symm
  refine ⟨chunks,?_,hrest.symm,hchunks⟩
  unfold recvFrameExact
  rw [hloop,hv]

/-- The fields of a header. -/
theorem compressedHeader_fields {dataLen seqId uncompressedLen : ℕ} (hd : dataLen < 2^24)
    (hu : uncompressedLen < 2^24) :
    (compressedHeader dataLen seqId uncompressedLen).length=compressedHeaderLen ∧
    leNat ((compressedHeader dataLen seqId uncompressedLen).take 3)=dataLen ∧
    adopt ((compressedHeader dataLen seqId uncompressedLen).getD 3 0).toNat=(seqId+1)%256 ∧
    leNat ((compressedHeader dataLen seqId uncompressedLen).drop 4)=uncompressedLen := by
  have hl : (leBytes 3 dataLen).length=3 := leBytes_length 3 dataLen
  refine ⟨?_,?_,?_,?_⟩
  · unfold compressedHeader
    simp only [List.length_append,leBytes_length,List.length_singleton]
    rfl
  · unfold compressedHeader
    rw [List.append_assoc,List.take_left' hl,leNat_leBytes_of_lt (by omega)]
  · have hg : (compressedHeader dataLen seqId uncompressedLen).getD 3 0=UInt8.ofNat seqId := rfl
    unfold adopt
    rw [hg,UInt8.toNat_ofNat']
    omega
  · have hdrop : (compressedHeader dataLen seqId uncompressedLen).drop 4=leBytes 3 uncompressedLen :=
      rfl
    rw [hdrop,leNat_leBytes_of_lt (by omega)]

/-- A payload is not longer than its part. -/
theorem payloadOf_length (z : Codec) (c : Compression) (part : List UInt8) :
    (payloadOf z c part).1.length ≤ part.length ∧ (payloadOf z c part).2 ≤ part.length := by
  unfold payloadOf
  split
  · next h => exact ⟨h.2.le,le_rfl⟩
  · exact ⟨le_rfl,Nat.zero_le _⟩

/-- A header is read, and what it announces is between the reader and the
packets after it. -/
theorem readHeader_spec {z : Codec} {s : Peer} {seqId : ℕ} {part wire : List UInt8}
    (hc : ∀ chunk ∈ s.transport,chunk≠[]) (hi : s.inflated=none) (hv : s.verbatimRemaining=0)
    (hne : part≠[]) (hl : part.length ≤ maxCompressedPayloadLen)
    (hw : s.transport.flatten=compressedPacket z s.compression seqId part++wire) :
    ∃ s',readHeader z s=.done true s' ∧ Between s' part wire ∧ s'.compression=s.compression ∧
      s'.compressedSeqId=(seqId+1)%256 := by
  have hpl := payloadOf_length z s.compression part
  have hpos := List.length_pos_iff.mpr hne
  unfold maxCompressedPayloadLen at hl
  obtain ⟨hlen,hdata,hseq,hunc⟩ := @compressedHeader_fields
    (payloadOf z s.compression part).1.length seqId (payloadOf z s.compression part).2
    (by omega) (by omega)
  unfold compressedPacket at hw
  rw [List.append_assoc] at hw
  obtain ⟨chunks,hread,hflat,hchunks⟩ := recvFrameExact_spec true hc hw
  rw [hlen] at hread
  unfold readHeader
  rw [bind_apply,hread,Outcome.andThen_done]
  dsimp only
  rw [bind_apply,modify_apply,Outcome.andThen_done,hseq,hdata,hunc]
  by_cases hcomp : minCompressLen ≤ part.length ∧ (z.compress s.compression part).length < part.length
  · have hp : payloadOf z s.compression part=(z.compress s.compression part,part.length) :=
      if_pos hcomp
    rw [hp] at hflat ⊢
    obtain ⟨chunks',hread',hflat',hchunks'⟩ := @recvFrameExact_spec false
      {s with transport := chunks, compressedSeqId := (seqId+1)%256} _ _ hchunks hflat
    refine ⟨{s with
      transport := chunks', compressedSeqId := (seqId+1)%256, inflated := some part},?_,⟨hchunks',Or.inl ⟨part,rfl,hne,hv,rfl,hflat'⟩⟩,rfl,rfl⟩
    dsimp only
    rw [if_neg (by omega)]
    unfold inflate
    rw [bind_apply,bind_apply,get_apply,Outcome.andThen_done,bind_apply,hread',Outcome.andThen_done]
    dsimp only
    rw [z.decompress_compress]
    dsimp only
    rw [if_neg (not_not.mpr rfl)]
    rfl
  · have hp : payloadOf z s.compression part=(part,0) := if_neg hcomp
    rw [hp] at hflat ⊢
    refine ⟨{s with
      transport := chunks, compressedSeqId := (seqId+1)%256, verbatimRemaining := part.length},?_,⟨hchunks,Or.inr ⟨hi,rfl,hflat⟩⟩,rfl,rfl⟩
    dsimp only
    rw [if_pos rfl]
    rfl

/-- Bytes that are between the reader and the next packet are delivered. -/
theorem deliver_spec {z : Codec} {s : Peer} {viewLen : ℕ} {between wire : List UInt8} (fuel : ℕ)
    (hb : Between s between wire) (hn : 0 < viewLen) (hne : between≠[]) :
    ∃ out more s',readLoop z viewLen (fuel+1) s=.done (out,false) s' ∧ out≠[] ∧
      between=out++more ∧ Between s' more wire ∧ s'.compression=s.compression ∧
      s'.compressedSeqId=s.compressedSeqId := by
  have hpos := List.length_pos_iff.mpr hne
  unfold readLoop
  rw [bind_apply,get_apply,Outcome.andThen_done]
  rcases hb.holds with ⟨d,hi,hd,hv,rfl,hw⟩|⟨hi,hv,hw⟩
  · rw [hi]
    dsimp only
    have hout : between.take viewLen≠[] := by
      refine List.length_pos_iff.mp ?_
      rw [List.length_take]
      omega
    refine ⟨between.take viewLen,between.drop viewLen,_,rfl,hout,(List.take_append_drop _ _).symm,?_,
      rfl,rfl⟩
    refine ⟨hb.chunks,?_⟩
    by_cases h : viewLen < between.length
    · refine Or.inl ⟨between.drop viewLen,if_pos h,?_,hv,rfl,hw⟩
      refine List.length_pos_iff.mp ?_
      rw [List.length_drop]
      omega
    · refine Or.inr ⟨if_neg h,?_,?_⟩
      · rw [List.drop_of_length_le (by omega)]
        exact hv
      · rw [List.drop_of_length_le (by omega)]
        exact hw
  · rw [hi]
    dsimp only
    rw [if_pos (by omega)]
    obtain ⟨value,chunks,hread,hvne,hvl,hflat,hchunks⟩ :=
      @transportRead_spec s (min s.verbatimRemaining viewLen) hb.chunks (by omega)
        (by rw [hw]; exact List.append_ne_nil_of_left_ne_nil hne wire)
    have hle : value.length ≤ between.length := by omega
    obtain ⟨more,hmore⟩ : ∃ more,between=value++more := by
      have ht := congrArg (List.take value.length) (hw.symm.trans hflat)
      rw [List.take_left,List.take_append_of_le_length hle] at ht
      have hs := (List.take_append_drop value.length between).symm
      rw [ht] at hs
      exact ⟨between.drop value.length,hs⟩
    refine ⟨value,more,{s with
      transport := chunks, verbatimRemaining := s.verbatimRemaining-value.length},?_,hvne,hmore,
      ⟨hchunks,Or.inr ⟨hi,?_,?_⟩⟩,rfl,rfl⟩
    · unfold deliverVerbatim
      rw [bind_apply,get_apply,Outcome.andThen_done,bind_apply,hread,Outcome.andThen_done]
      rfl
    · rw [hv,hmore,List.length_append,Nat.add_sub_cancel_left]
    · rw [hw,hmore,List.append_assoc] at hflat
      exact (List.append_cancel_left hflat).symm

/-- A read of a reader with nothing between it and the next packet. -/
theorem Between.empty {s : Peer} {wire : List UInt8} (h : Between s [] wire) :
    s.inflated=none ∧ s.verbatimRemaining=0 ∧ s.transport.flatten=wire := by
  rcases h.holds with ⟨d,-,hd,-,rfl,-⟩|⟨hi,hv,hw⟩
  · exact absurd rfl hd
  · exact ⟨hi,hv,hw⟩

/-- A read gives bytes as long as there are some, and then the end. -/
theorem readFromConn_spec {z : Codec} {s : Peer} {viewLen last : ℕ} {bytes : List UInt8}
    (h : Awaits z s bytes last) (hn : 0 < viewLen) :
    (bytes=[] ∧ ∃ s',readFromConn z viewLen s=.done ([],true) s' ∧ Awaits z s' [] last ∧
      s'.compressedSeqId=last) ∨
    ∃ out more s',readFromConn z viewLen s=.done (out,false) s' ∧ out≠[] ∧ bytes=out++more ∧
      Awaits z s' more last := by
  obtain ⟨items,between,hs,hb,rfl,hlast⟩ := h
  unfold readFromConn
  rw [bind_apply,get_apply,Outcome.andThen_done]
  by_cases hne : between=[]
  · subst hne
    obtain ⟨hi,hv,hw⟩ := hb.empty
    cases items with
    | nil =>
      have ht : s.transport=[] := by
        cases ht : s.transport with
        | nil => rfl
        | cons chunk chunks =>
          rw [ht,List.flatten_cons] at hw
          exact absurd (List.append_eq_nil_iff.mp hw).1
            (hb.chunks chunk (by rw [ht]; exact List.mem_cons_self))
      refine Or.inl ⟨rfl,s,?_,⟨[],[],trivial,hb,rfl,hlast⟩,hlast⟩
      have hread : readHeader z s=.done false s := by
        have ht' : transportRead (compressedHeaderLen-0) s=.done none s := by
          unfold transportRead
          rw [ht]
        unfold readHeader recvFrameExact
        rw [bind_apply]
        have hrec : recvLoop compressedHeaderLen true compressedHeaderLen [] s=.done none s := by
          change ((transportRead (compressedHeaderLen-0)) s).andThen _=_
          rw [ht']
          rfl
        rw [hrec]
        rfl
      unfold readLoop
      rw [bind_apply,get_apply,Outcome.andThen_done,hi]
      dsimp only
      rw [if_neg (by omega),bind_apply,hread,Outcome.andThen_done]
      rfl
    | cons i items =>
      cases i with
      | received n => exact absurd hs False.elim
      | part n cells =>
        obtain ⟨hc,hl,hs⟩ := hs
        have hbytes : bytesOf cells≠[] := fun h => hc (List.map_eq_nil_iff.mp h)
        have hlen : (bytesOf cells).length=cells.length := List.length_map _
        obtain ⟨s₁,hread,hb₁,hcomp,hseq⟩ :=
          readHeader_spec hb.chunks hi hv hbytes (hlen.trans_le hl) hw
        obtain ⟨out,more,s₂,hloop,hout,hsplit,hb₂,hcomp₂,hseq₂⟩ :=
          @deliver_spec z s₁ viewLen _ _ s.transport.flatten.length hb₁ hn hbytes
        refine Or.inr ⟨out,more++bytesOf (cellsOf items),s₂,?_,hout,?_,items,more,hs,?_,rfl,?_⟩
        · unfold readLoop
          rw [bind_apply,get_apply,Outcome.andThen_done,hi]
          dsimp only
          rw [if_neg (by omega),bind_apply,hread,Outcome.andThen_done,if_pos rfl]
          exact hloop
        · rw [List.nil_append,←List.append_assoc,←hsplit]
          exact List.map_append
        · rw [hcomp₂,hcomp]
          exact hb₂
        · rw [hseq₂,hseq]
          exact hlast
  · obtain ⟨out,more,s',hloop,hout,hsplit,hb',hcomp,hseq⟩ :=
      @deliver_spec z s viewLen _ _ (s.transport.flatten.length+1) hb hn hne
    refine Or.inr ⟨out,more++bytesOf (cellsOf items),s',hloop,hout,?_,items,more,hs,?_,rfl,?_⟩
    · rw [hsplit,List.append_assoc]
    · rw [hcomp]
      exact hb'
    · rw [hseq]
      exact hlast

/-- Read with views of given sizes until the stream ends. -/
def readAll (z : Codec) : List ℕ → Frames (List UInt8×Bool)
  | [] => pure ([],false)
  | viewLen::views => do
    let r ← readFromConn z viewLen
    if r.2=true then return ([],true)
    else
      let rest ← readAll z views
      return (r.1++rest.1,rest.2)

/-- Reads give the bytes in order, each at least one, and then the end with the
last number adopted. -/
theorem readAll_spec {z : Codec} {s : Peer} {last : ℕ} {bytes : List UInt8} {views : List ℕ}
    (h : Awaits z s bytes last) (hn : ∀ n ∈ views,0 < n) :
    ∃ out more ended s',readAll z views s=.done (out,ended) s' ∧ bytes=out++more ∧
      (ended=true → more=[] ∧ s'.compressedSeqId=last) ∧
      (bytes.length < views.length → ended=true) := by
  induction views generalizing s bytes with
  | nil => exact ⟨[],bytes,false,s,rfl,rfl,(fun h => by cases h),(fun h => by cases h)⟩
  | cons n views ih =>
    have hrest := fun m hm => hn m (List.mem_cons_of_mem _ hm)
    unfold readAll
    rw [bind_apply]
    cases readFromConn_spec h (hn n List.mem_cons_self) with
    | inl hend =>
      obtain ⟨hb,s₁,hread,-,hseq⟩ := hend
      rw [hread]
      exact ⟨[],[],true,s₁,rfl,hb,fun _ => ⟨rfl,hseq⟩,fun _ => rfl⟩
    | inr hmore =>
      obtain ⟨out,more,s₁,hread,hout,hb,h₁⟩ := hmore
      have hpos := List.length_pos_iff.mpr hout
      obtain ⟨out',more',ended,s₂,hall,hb',hend,hlen⟩ := ih h₁ hrest
      rw [hread]
      refine ⟨out++out',more',ended,s₂,?_,?_,hend,?_⟩
      · change ((readAll z views) s₁).andThen _=_
        rw [hall]
        rfl
      · rw [hb,hb',List.append_assoc]
      · intro hl
        rw [hb,List.length_append,List.length_cons] at hl
        exact hlen (by omega)

end SpiritMysql.CompressedReader
