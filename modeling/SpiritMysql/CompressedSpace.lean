import SpiritMysql.CompressedPackets

/-!
# The memory that compressed packets are written to

`#toCompressedPackets()` again, with the array that it writes to, the position
of each access, and a compressor of which only the sizes of its results are
known.
-/

namespace SpiritMysql.CompressedSpace

open CompressedPackets

/-- The arrays of the function. -/
inductive Memory where
  /-- `this.buffer`. -/
  | buffer
  /-- An array of the caller. -/
  | external
  /-- An array that is allocated for the output. -/
  | temporary
deriving DecidableEq, Repr

/-- Where the input is. -/
inductive Placement where
  /-- In `this.buffer`, from an offset. -/
  | inBuffer (byteOffset : ℕ)
  /-- In another array, from an offset. -/
  | external (byteOffset : ℕ)
deriving DecidableEq, Repr

/-- The place of a byte of the input. -/
def Placement.address : Placement → ℕ → Memory×ℕ
  | .inBuffer byteOffset,i => (.buffer,byteOffset+i)
  | .external byteOffset,i => (.external,byteOffset+i)

/-- The array `out`. -/
structure Out where
  /-- Which array it is. -/
  memory : Memory
  /-- Its length. -/
  length : ℕ
  /-- Where the chunk begins. -/
  writeAt : ℕ
deriving DecidableEq, Repr

/-- The first position after an input in `this.buffer`. -/
def writePosition (len : ℕ) : Placement → ℕ
  | .inBuffer byteOffset => byteOffset+len
  | .external _ => 0

/-- The choice of the array: `this.buffer` if there is space for the worst case. -/
def chooseOut (c : Compression) (bufferLength len nStarts : ℕ) (placement : Placement) : Out :=
  if (bufferLength : ℤ)-writePosition len placement < worstLen c len nStarts then
    ⟨.temporary,(worstLen c len nStarts).toNat,0⟩
  else ⟨.buffer,bufferLength,writePosition len placement⟩

/-- A part of the input and its compressed packet. -/
structure Piece where
  /-- Where the part begins in the input. -/
  pos : ℕ
  /-- The length of the part. -/
  len : ℕ
  /-- Where the header of the packet begins in `out`. -/
  outPos : ℕ
  /-- The result of the compressor, if it was called. -/
  compressedLen : Option ℕ
  /-- The length of the payload. -/
  dataLen : ℕ
  /-- The length of the part, or zero if it was copied. -/
  uncompressedLen : ℕ
deriving DecidableEq, Repr

/-- The position of the payload. -/
def Piece.dataPos (piece : Piece) : ℕ := piece.outPos+compressedHeaderLen

/-- The packet of one part. The compressor gives a size for each part. -/
def putPiece (size : ℕ → ℕ → ℕ) (pos len outPos : ℕ) : Piece :=
  if minCompressLen ≤ len then
    if size pos len < len then ⟨pos,len,outPos,some (size pos len),size pos len,len⟩
    else ⟨pos,len,outPos,some (size pos len),len,0⟩
  else ⟨pos,len,outPos,none,len,0⟩

/-- The parts of one command, up to an offset. The number is where the next
packet begins. -/
def pieceLoop (size : ℕ → ℕ → ℕ) (stop : ℕ) : ℕ → ℕ → ℕ → List Piece×ℕ
  | 0,_,outPos => ([],outPos)
  | fuel+1,pos,outPos =>
    if pos < stop then
      let piece := putPiece size pos (min (pos+maxCompressedPayloadLen) stop-pos) outPos
      let more := pieceLoop size stop fuel (pos+maxCompressedPayloadLen) (piece.dataPos+piece.dataLen)
      (piece::more.1,more.2)
    else ([],outPos)

/-- The loop over the command starts, and the rest after the last one. -/
def startLoop (size : ℕ → ℕ → ℕ) (len : ℕ) : List ℕ → ℕ → ℕ → List Piece
  | [],start,outPos => (pieceLoop size len (len-start) start outPos).1
  | stop::starts,start,outPos =>
    if start < stop then
      (pieceLoop size stop (stop-start) start outPos).1++
        startLoop size len starts stop (pieceLoop size stop (stop-start) start outPos).2
    else startLoop size len starts start outPos

/-- All packets that `#toCompressedPackets()` writes to an array. -/
def pieces (size : ℕ → ℕ → ℕ) (len : ℕ) (commandStarts : List ℕ) (out : Out) : List Piece :=
  startLoop size len commandStarts 0 out.writeAt

/-- The accesses of a packet stay in the array. -/
structure Fits (c : Compression) (out : Out) (piece : Piece) : Prop where
  /-- A call of the compressor has its bound and one byte more. -/
  attempt : piece.compressedLen≠none →
    (piece.dataPos : ℤ)+compressBound c piece.len+1 ≤ out.length
  /-- The result of the compressor is in the array. -/
  result : ∀ n,piece.compressedLen=some n → piece.dataPos+n ≤ out.length
  /-- There is space for a copy of the part. -/
  copy : piece.dataPos+piece.len ≤ out.length
  /-- The payload is in the array. -/
  payload : piece.dataPos+piece.dataLen ≤ out.length
  /-- It is written after the beginning of the chunk. -/
  above : out.writeAt ≤ piece.outPos
  /-- The length of the payload fits its field. -/
  dataLen : piece.dataLen < 2^24
  /-- The length of the part fits its field. -/
  uncompressedLen : piece.uncompressedLen < 2^24

/-- The parts of an input follow each other, from one offset to another. -/
def Tiles : ℕ → ℕ → List Piece → Prop
  | start,stop,[] => start=stop
  | start,stop,piece::pieces => piece.pos=start ∧ 0 < piece.len ∧ Tiles (start+piece.len) stop pieces

theorem Tiles.append {start mid stop : ℕ} {as bs : List Piece} (ha : Tiles start mid as)
    (hb : Tiles mid stop bs) : Tiles start stop (as++bs) := by
  induction as generalizing start with
  | nil =>
    cases ha
    exact hb
  | cons a as ih => exact ⟨ha.1,ha.2.1,ih ha.2.2⟩

/-- The compressor keeps its bound for the parts that it can be given. -/
def Bounded (c : Compression) (size : ℕ → ℕ → ℕ) : Prop :=
  ∀ pos len,len ≤ maxCompressedPayloadLen → (size pos len : ℤ) ≤ compressBound c len

/-- What is known of the packet of a part, whatever size the compressor returns. -/
theorem putPiece_spec (size : ℕ → ℕ → ℕ) (pos len outPos : ℕ) :
    (putPiece size pos len outPos).pos=pos ∧ (putPiece size pos len outPos).len=len ∧
    (putPiece size pos len outPos).outPos=outPos ∧
    (putPiece size pos len outPos).dataLen ≤ len ∧
    (putPiece size pos len outPos).uncompressedLen ≤ len ∧
    ∀ n,(putPiece size pos len outPos).compressedLen=some n → n=size pos len := by
  have hsome : ∀ n,some (size pos len)=some n → n=size pos len := fun n h => (Option.some.inj h).symm
  unfold putPiece
  split
  · split
    · next h => exact ⟨rfl,rfl,rfl,h.le,le_rfl,hsome⟩
    · exact ⟨rfl,rfl,rfl,le_rfl,Nat.zero_le _,hsome⟩
  · exact ⟨rfl,rfl,rfl,le_rfl,Nat.zero_le _,fun n h => by cases h⟩

/-- The share of a part is enough for its packet. -/
theorem putPiece_fits {c : Compression} {out : Out} {size : ℕ → ℕ → ℕ} (hsize : Bounded c size)
    (pos : ℕ) {len outPos : ℕ} (hl : len ≤ maxCompressedPayloadLen) (hw : out.writeAt ≤ outPos)
    (hr : outPos+varBound c len+(compressedHeaderLen+partBound c+1) ≤ out.length) :
    Fits c out (putPiece size pos len outPos) := by
  obtain ⟨-,hlen,hout,hdata,hunc,hcomp⟩ := putPiece_spec size pos len outPos
  have hbound := hsize pos len hl
  unfold maxCompressedPayloadLen at hl
  have hb := compressBound_le c (show len < 2^31 by omega)
  have hself := (varBound_add c len 0).1
  rw [Nat.add_zero] at hself
  have hpos : (putPiece size pos len outPos).dataPos=outPos+compressedHeaderLen := by
    unfold Piece.dataPos
    rw [hout]
  constructor
  · intro _
    rw [hpos,hlen]
    omega
  · intro n hn
    rw [hpos,hcomp n hn]
    omega
  · rw [hpos,hlen]
    omega
  · rw [hpos]
    omega
  · rw [hout]
    exact hw
  · omega
  · omega

/-- The parts of one command: they fit, they follow each other, and what is left
of the memory is enough for the rest. -/
theorem pieceLoop_spec {c : Compression} {out : Out} {size : ℕ → ℕ → ℕ} (hsize : Bounded c size)
    {stop rest segs : ℕ} (fuel : ℕ) {pos outPos : ℕ} (hp : pos < stop) (hf : stop ≤ pos+fuel)
    (hw : out.writeAt ≤ outPos)
    (hr : outPos+needed c (stop-pos+rest) (segs+1) ≤ out.length) :
    (∀ piece ∈ (pieceLoop size stop fuel pos outPos).1,Fits c out piece) ∧
    Tiles pos stop (pieceLoop size stop fuel pos outPos).1 ∧
    out.writeAt ≤ (pieceLoop size stop fuel pos outPos).2 ∧
    (pieceLoop size stop fuel pos outPos).2+needed c rest segs ≤ out.length := by
  induction fuel generalizing pos outPos with
  | zero => omega
  | succ fuel ih =>
    obtain ⟨most,hmost⟩ : ∃ n,n=maxCompressedPayloadLen := ⟨_,rfl⟩
    have hm : 0 < most := by
      rw [hmost]
      decide
    have hshare : ∀ m r s t,t+r/most+1 ≤ s+(m+r)/most →
        compressedHeaderLen+m+needed c r t ≤ needed c (m+r) s ∧
        varBound c m+(compressedHeaderLen+partBound c+1) ≤ needed c (m+r) s := by
      intro m r s t h
      rw [hmost] at h
      exact needed_part c h
    have hfit : ∀ len,len ≤ most →
        outPos+varBound c len+(compressedHeaderLen+partBound c+1) ≤ out.length →
        Fits c out (putPiece size pos len outPos) := by
      intro len h hr
      rw [hmost] at h
      exact putPiece_fits hsize pos h hw hr
    unfold pieceLoop
    rw [if_pos hp]
    dsimp only
    rw [←hmost]
    clear hmost
    obtain ⟨len,hlen⟩ : ∃ n,n=min (pos+most) stop-pos := ⟨_,rfl⟩
    rw [←hlen]
    obtain ⟨hpos,hplen,hpout,hdata,-,-⟩ := putPiece_spec size pos len outPos
    have hnext : (putPiece size pos len outPos).dataPos+(putPiece size pos len outPos).dataLen ≤
        outPos+(compressedHeaderLen+len) := by
      unfold Piece.dataPos
      omega
    have hge : outPos ≤
        (putPiece size pos len outPos).dataPos+(putPiece size pos len outPos).dataLen := by
      unfold Piece.dataPos
      omega
    have hmax : len ≤ most := by omega
    by_cases hlast : stop ≤ pos+most
    · -- the last part of the command takes its constant share
      have hpart : len=stop-pos := by omega
      obtain ⟨hn,hput⟩ := hshare len rest (segs+1) segs (by
        rw [Nat.add_right_comm]
        exact Nat.add_le_add_left (Nat.div_le_div_right (Nat.le_add_left _ _)) _)
      have hend : pieceLoop size stop fuel (pos+most)
          ((putPiece size pos len outPos).dataPos+(putPiece size pos len outPos).dataLen)=
          ([],(putPiece size pos len outPos).dataPos+(putPiece size pos len outPos).dataLen) := by
        cases fuel with
        | zero => rw [pieceLoop]
        | succ fuel => rw [pieceLoop,if_neg (by omega)]
      rw [←hpart] at hr
      rw [hend]
      refine ⟨?_,⟨hpos,by omega,?_⟩,by dsimp only; omega,by dsimp only; omega⟩
      · intro piece h
        rw [List.mem_singleton.mp h]
        exact hfit len hmax (by omega)
      · rw [hplen,Tiles]
        omega
    · -- a full part takes the share of one of the full payloads
      have hpart : len=most := by omega
      have hsum : stop-pos+rest=len+(stop-(pos+most)+rest) := by omega
      obtain ⟨hn,hput⟩ := hshare len (stop-(pos+most)+rest) (segs+1) (segs+1) (by
        rw [hpart,Nat.add_div_left _ hm]
        omega)
      rw [hsum] at hr
      obtain ⟨hfits,htiles,hwrite,hroom⟩ := @ih (pos+most)
        ((putPiece size pos len outPos).dataPos+(putPiece size pos len outPos).dataLen)
        (by omega) (by omega) (by omega) (by omega)
      refine ⟨?_,⟨hpos,by omega,?_⟩,hwrite,hroom⟩
      · intro piece h
        cases List.mem_cons.mp h with
        | inl h =>
          rw [h]
          exact hfit len hmax (by omega)
        | inr h => exact hfits piece h
      · have hstart : pos+(putPiece size pos len outPos).len=pos+most := by
          rw [hplen,hpart]
        rw [hstart]
        exact htiles

/-- The loop over the command starts: all packets fit, and the parts are the input. -/
theorem startLoop_spec {c : Compression} {out : Out} {size : ℕ → ℕ → ℕ} (hsize : Bounded c size)
    {len : ℕ} (starts : List ℕ) {start outPos : ℕ} (hs : start ≤ len)
    (hle : ∀ stop ∈ starts,stop ≤ len) (hw : out.writeAt ≤ outPos)
    (hr : outPos+needed c (len-start) (starts.length+1) ≤ out.length) :
    (∀ piece ∈ startLoop size len starts start outPos,Fits c out piece) ∧
    Tiles start len (startLoop size len starts start outPos) := by
  induction starts generalizing start outPos with
  | nil =>
    unfold startLoop
    by_cases h : start < len
    · obtain ⟨hfits,htiles,-,-⟩ := @pieceLoop_spec c out size hsize len 0 0 (len-start) start outPos h
        (by omega) hw hr
      exact ⟨hfits,htiles⟩
    · rw [Nat.sub_eq_zero_of_le (by omega)]
      refine ⟨fun _ hm => absurd hm List.not_mem_nil,?_⟩
      change start=len
      omega
  | cons stop starts ih =>
    have hstop := hle stop List.mem_cons_self
    have hrest := fun s h => hle s (List.mem_cons_of_mem stop h)
    rw [List.length_cons] at hr
    unfold startLoop
    by_cases h : start < stop
    · have hsum : len-start=stop-start+(len-stop) := by omega
      rw [hsum] at hr
      rw [if_pos h]
      obtain ⟨hfits,htiles,hwrite,hroom⟩ := @pieceLoop_spec c out size hsize stop (len-stop)
        (starts.length+1) (stop-start) start outPos h (by omega) hw hr
      obtain ⟨hfits',htiles'⟩ := ih hstop hrest hwrite hroom
      refine ⟨?_,htiles.append htiles'⟩
      intro piece hm
      exact (List.mem_append.mp hm).elim (hfits piece) (hfits' piece)
    · rw [if_neg h]
      have hm := needed_mono c (len-start) (show starts.length+1 ≤ starts.length+1+1 by omega)
      exact ih hs hrest hw (by omega)

/-- The array that is chosen is large enough, and does not hold the input from the
beginning of the chunk on. -/
theorem chooseOut_spec (c : Compression) {bufferLength len nStarts : ℕ} (placement : Placement)
    (hl : len < 2^31) :
    (chooseOut c bufferLength len nStarts placement).writeAt+needed c len (nStarts+1) ≤
      (chooseOut c bufferLength len nStarts placement).length ∧
    ∀ i j,i < len → (chooseOut c bufferLength len nStarts placement).writeAt ≤ j →
      placement.address i≠((chooseOut c bufferLength len nStarts placement).memory,j) := by
  have hneed := needed_le_room c bufferLength (writePosition len placement) nStarts hl
  unfold roomFor at hneed
  unfold chooseOut
  split
  · next h =>
    rw [if_pos h] at hneed
    refine ⟨by dsimp only; omega,?_⟩
    intro i j _ _ he
    cases placement with
    | inBuffer byteOffset => cases he
    | external byteOffset => cases he
  · next h =>
    have hv := varBound_le c hl
    rw [if_neg h] at hneed
    unfold worstLen at h
    refine ⟨by dsimp only; omega,?_⟩
    intro i j hi hj he
    cases placement with
    | inBuffer byteOffset =>
      have hb := congrArg Prod.snd he
      change byteOffset+i=j at hb
      change byteOffset+len ≤ j at hj
      omega
    | external byteOffset => cases he

/-! ## The chunk -/

/-- The sizes of what a compressor makes of the parts of an input. -/
def codecSize (z : Codec) (c : Compression) (input : List UInt8) (pos len : ℕ) : ℕ :=
  (z.compress c ((input.drop pos).take len)).length

/-- The bytes of packets. -/
def totalLen (pieces : List Piece) : ℕ :=
  (pieces.map (fun piece => compressedHeaderLen+piece.dataLen)).sum

/-- A packet that was put is as long as its piece says. -/
theorem putPacket_piece {z : Codec} {c : Compression} {room seqId pos len outPos : ℕ}
    {input part packet : List UInt8} (hp : part=(input.drop pos).take len)
    (hl : part.length=len) (h : putPacket z c room seqId part=some packet) :
    packet.length=compressedHeaderLen+(putPiece (codecSize z c input) pos len outPos).dataLen := by
  have hpacket : packet=compressedPacket z c seqId part := by
    unfold putPacket at h
    split at h
    · cases h
    · split at h
      · cases h
      · exact (Option.some.inj h).symm
  have hsize : codecSize z c input pos len=(z.compress c part).length := by
    unfold codecSize
    rw [←hp]
  have hlen : (compressedPacket z c seqId part).length=
      compressedHeaderLen+(payloadOf z c part).1.length := by
    unfold compressedPacket compressedHeader compressedHeaderLen
    simp only [List.length_append,ByteCodec.leBytes_length,List.length_singleton]
  rw [hpacket,hlen]
  unfold payloadOf putPiece
  rw [hsize,hl]
  by_cases h1 : minCompressLen ≤ len
  · by_cases h2 : (z.compress c part).length < len
    · rw [if_pos ⟨h1,h2⟩,if_pos h1,if_pos h2]
    · rw [if_neg (fun hn => h2 hn.2),if_pos h1,if_neg h2,hl]
  · rw [if_neg (fun hn => h1 hn.1),if_neg h1,hl]

/-- The packets of one command are as long as its pieces say. -/
theorem partLoop_pieces {z : Codec} {c : Compression} {room stop : ℕ} {input : List UInt8}
    (hs : stop ≤ input.length) (fuel : ℕ) {pos outPos seqId : ℕ} {out : List UInt8}
    {r : List UInt8×ℕ}
    (h : partLoop z c room fuel ((input.take stop).drop pos) out seqId=some r) :
    r.1.length=out.length+totalLen (pieceLoop (codecSize z c input) stop fuel pos outPos).1 := by
  induction fuel generalizing pos outPos out seqId with
  | zero =>
    cases h
    rfl
  | succ fuel ih =>
    have hlen : ((input.take stop).drop pos).length=stop-pos := by
      rw [List.length_drop,List.length_take_of_le hs]
    unfold partLoop at h
    unfold pieceLoop
    by_cases hp : pos < stop
    · have hne : ((input.take stop).drop pos)≠[] := by
        refine List.length_pos_iff.mp ?_
        omega
      rw [if_neg hne,List.drop_drop] at h
      rw [if_pos hp]
      dsimp only
      obtain ⟨most,hmost⟩ : ∃ n,n=maxCompressedPayloadLen := ⟨_,rfl⟩
      rw [←hmost] at h ⊢
      clear hmost
      have hmin : min (pos+most) stop-pos=min most (stop-pos) := by omega
      have hpart : ((input.take stop).drop pos).take most=
          (input.drop pos).take (min (pos+most) stop-pos) := by
        rw [List.drop_take,List.take_take,hmin]
      have hplen : (((input.take stop).drop pos).take most).length=min (pos+most) stop-pos := by
        rw [List.length_take,hlen,hmin]
      cases hput : putPacket z c (room-out.length) seqId (((input.take stop).drop pos).take most) with
      | none =>
        rw [hput] at h
        cases h
      | some packet =>
        rw [hput] at h
        have hpacket := @putPacket_piece z c _ seqId pos _ outPos input _ packet hpart hplen hput
        rw [ih h,List.length_append,hpacket,Nat.add_assoc]
        rfl
    · have he : ((input.take stop).drop pos)=[] := by
        refine List.length_eq_zero_iff.mp ?_
        omega
      rw [if_pos he] at h
      rw [if_neg hp]
      cases h
      rfl

/-- The bytes between two command starts. -/
theorem putCommand_pieces {z : Codec} {c : Compression} {room start stop : ℕ} {input : List UInt8}
    (hs : stop ≤ input.length) {outPos cur next : ℕ} {out : List UInt8} {r : List UInt8×ℕ}
    (h : putCommand z c room ((input.take stop).drop start) out cur next=some r) :
    r.1.length=out.length+
      totalLen (pieceLoop (codecSize z c input) stop (stop-start) start outPos).1 := by
  have hlen : ((input.take stop).drop start).length=stop-start := by
    rw [List.length_drop,List.length_take_of_le hs]
  unfold putCommand at h
  split at h
  · next he =>
    rw [he,List.length_nil] at hlen
    rw [←hlen]
    cases h
    rfl
  · rw [hlen] at h
    exact partLoop_pieces hs (stop-start) h

/-- All packets are as long as the pieces say. -/
theorem commandLoop_pieces {z : Codec} {c : Compression} {room : ℕ} {input : List UInt8}
    (starts : List ℕ) {start outPos cur next : ℕ} {out : List UInt8} {r : List UInt8×ℕ}
    (hasc : (start::starts).Pairwise (· ≤ ·)) (hle : ∀ stop ∈ starts,stop ≤ input.length)
    (h : commandLoop z c room input starts start out cur next=some r) :
    r.1.length=out.length+
      totalLen (startLoop (codecSize z c input) input.length starts start outPos) := by
  induction starts generalizing start outPos out cur next with
  | nil =>
    unfold commandLoop at h
    have htake : input.drop start=(input.take input.length).drop start := by
      rw [List.take_length]
    rw [htake] at h
    exact putCommand_pieces le_rfl h
  | cons stop starts ih =>
    obtain ⟨hfirst,htail⟩ := List.pairwise_cons.mp hasc
    have hstop := hle stop List.mem_cons_self
    have hrest := fun s hs => hle s (List.mem_cons_of_mem stop hs)
    have hmin := hfirst stop List.mem_cons_self
    unfold commandLoop at h
    unfold startLoop
    cases hput : putCommand z c room ((input.take stop).drop start) out cur next with
    | none =>
      rw [hput] at h
      cases h
    | some r₁ =>
      rw [hput] at h
      have h₁ := @putCommand_pieces z c room start stop input hstop outPos cur next out r₁ hput
      by_cases hlt : start < stop
      · rw [if_pos hlt,ih htail hrest h,h₁]
        unfold totalLen
        rw [List.map_append,List.sum_append,Nat.add_assoc]
      · have he : start=stop := by omega
        have hnil : (pieceLoop (codecSize z c input) stop (stop-start) start outPos).1=[] := by
          rw [he,Nat.sub_self]
          rfl
        rw [hnil] at h₁
        rw [if_neg hlt,he,ih htail hrest h,h₁]
        rfl

/-- The chunk of `#toCompressedPackets()` is made of the packets that the pieces
describe. -/
theorem toCompressedPackets_pieces {z : Codec} {c : Compression} {bufferLength cur : ℕ}
    {input : List UInt8} {commandStarts : List ℕ} {r : List UInt8×ℕ} (placement : Placement)
    (hasc : commandStarts.Pairwise (· ≤ ·)) (hle : ∀ start ∈ commandStarts,start ≤ input.length)
    (h : toCompressedPackets z c bufferLength (writePosition input.length placement) input
      commandStarts cur=some r) :
    r.1.length=totalLen (pieces (codecSize z c input) input.length commandStarts
      (chooseOut c bufferLength input.length commandStarts.length placement)) := by
  have hall : (0::commandStarts).Pairwise (· ≤ ·) :=
    List.pairwise_cons.mpr ⟨fun _ _ => Nat.zero_le _,hasc⟩
  have hlen := @commandLoop_pieces z c _ input commandStarts 0
    (chooseOut c bufferLength input.length commandStarts.length placement).writeAt cur cur [] r
    hall hle h
  rw [List.length_nil,Nat.zero_add] at hlen
  exact hlen

/-! ## The space -/

/-- Compressed output never overruns its space: every access of every packet
stays in the array, which from the beginning of the chunk on holds no byte of
the input, and the lengths fit their fields. The packets hold the whole input. -/
theorem output_fits (c : Compression) (bufferLength : ℕ) {len : ℕ} {commandStarts : List ℕ}
    (placement : Placement) {size : ℕ → ℕ → ℕ} (hl : len < 2^31)
    (hle : ∀ start ∈ commandStarts,start ≤ len) (hsize : Bounded c size) :
    let out := chooseOut c bufferLength len commandStarts.length placement
    (∀ piece ∈ pieces size len commandStarts out,Fits c out piece) ∧
    (∀ i j,i < len → out.writeAt ≤ j → placement.address i≠(out.memory,j)) ∧
    Tiles 0 len (pieces size len commandStarts out) := by
  intro out
  obtain ⟨hroom,hdisjoint⟩ := @chooseOut_spec c bufferLength len commandStarts.length placement hl
  obtain ⟨hfits,htiles⟩ := @startLoop_spec c out size hsize len commandStarts 0 out.writeAt
    (Nat.zero_le len) hle le_rfl hroom
  exact ⟨hfits,hdisjoint,htiles⟩

/-- The largest sizes that the bound allows. -/
def largestSize (c : Compression) (_ len : ℕ) : ℕ := (compressBound c len).toNat

/-- They keep the bound. -/
theorem largestSize_bounded (c : Compression) : Bounded c (largestSize c) := by
  intro pos len hl
  unfold maxCompressedPayloadLen at hl
  have hv := varBound_le c (show len < 2^31 by omega)
  unfold largestSize
  omega

/-- The sample: two short commands and a long one in a small buffer, with a
compressor that always needs all of its bound. -/
theorem output_fits_sample :
    let out := chooseOut .ZSTD 250 90 3 (.inBuffer 4)
    (∀ piece ∈ pieces (largestSize .ZSTD) 90 [0,10,20] out,Fits .ZSTD out piece) ∧
    (∀ i j,i < 90 → out.writeAt ≤ j → (Placement.inBuffer 4).address i≠(out.memory,j)) ∧
    Tiles 0 90 (pieces (largestSize .ZSTD) 90 [0,10,20] out) :=
  @output_fits .ZSTD 250 90 [0,10,20] (.inBuffer 4) (largestSize .ZSTD) (by decide) (by decide)
    (largestSize_bounded .ZSTD)

end SpiritMysql.CompressedSpace
