import SpiritMysql.ByteSends
import SpiritMysql.RowCells

/-!
# Where the rows of a file go

Rows share packets: a packet ends when half of the buffer is full, or with a last column
that does not fit the buffer. The layout computes from the sizes alone where each value
goes, how long the buffer becomes and which packets there are. It does not go on where a
value has no room, where the buffer becomes longer than a packet, and where the payload
of a long packet is a multiple of the largest one. The serializer follows it.
-/

namespace SpiritMysql.RowLayout

open AsyncAction ByteCodec ByteSends ColumnValues FieldWriter PacketFraming PacketSends
open ReadScript RowCells RowReader RowStream RowWriter Writer
open CompressedWriter (growLoop)
open Reader (maxPayload)

/-! ## Sizes -/

/-- What a column takes. -/
inductive Piece where
  /-- So many bytes, without a look at the room. -/
  | small (n : ℕ)
  /-- A byte string of a length, after its length. -/
  | blob (n : ℕ)
deriving DecidableEq, Repr

/-- The size of the buffer and of the payload in it. -/
structure Layout where
  /-- The size of the buffer. -/
  size : ℕ
  /-- The size of the payload. -/
  filled : ℕ
deriving DecidableEq, Repr

/-- Bytes that have to fit. -/
def Layout.putSmall (n : ℕ) (l : Layout) : Option Layout :=
  if 4+l.filled+n ≤ l.size then some {l with filled := l.filled+n} else none

/-- A byte string whose length was written. -/
def Layout.putBytes (isLast : Bool) (n : ℕ) (l : Layout) : Option Layout :=
  if 4+l.filled+n ≤ l.size then some {l with filled := l.filled+n}
  else if isLast=true then
    if (l.filled+n)%maxPayload≠0 then some {l with filled := 0} else none
  else
    let size := growLoop (4+l.filled+n) (4+l.filled+n) (l.size*2)
    if size ≤ maxPayload+1 then some ⟨size,l.filled+n⟩ else none

/-- A column. -/
def Layout.put (isLast : Bool) (l : Layout) : Piece → Option Layout
  | .small n => l.putSmall n
  | .blob n => (l.putSmall (lenenc n).length).bind (fun l => l.putBytes isLast n)

/-- The columns of a row from one on. -/
def Layout.putAll : List Piece → Layout → Option Layout
  | [],l => some l
  | p::ps,l => (l.put ps.isEmpty p).bind (Layout.putAll ps)

/-- The packet ends when half of the buffer is full. -/
def Layout.flush (l : Layout) : Layout := if l.size ≤ 2*l.filled then {l with filled := 0} else l

/-- A row. -/
def Layout.row (ps : List Piece) (l : Layout) : Option Layout :=
  (l.putSmall (nullBitsLen ps.length)).bind (fun l => (l.putAll ps).map Layout.flush)

/-- Several rows. -/
def Layout.rows : List (List Piece) → Layout → Option Layout
  | [],l => some l
  | ps::rows,l => (l.row ps).bind (Layout.rows rows)

/-- What a value takes. -/
def pieceOf (o : RowOptions) (f : FloatWidths) (p : Column×ColumnValue) : Piece :=
  if p.2=.null then .small 0
  else if isBlob p.1.typeId=true then .blob (blobBytes p.2).length
  else .small (binaryCell (cellOf o f p.1 p.2)).length

/-- The forms of the values of a row. -/
def formsOf (o : RowOptions) (f : FloatWidths) (row : ValueRow) : BinaryRow :=
  row.map (fun p => (p.1,if p.2=.null then none else some (cellOf o f p.1 p.2)))

/-! ## The buffer of the serializer -/

/-- The serializer is where the layout is, and its open packet has a payload. -/
structure At (s : State) (l : Layout) (pre : List UInt8) : Prop where
  /-- The only packet in the buffer is open. -/
  opened : Opened s [] pre
  /-- The size of the buffer. -/
  size : s.buffer.length=l.size
  /-- The size of the payload. -/
  filled : pre.length=l.filled
  /-- A packet that fits the buffer fits its header. -/
  small : l.size ≤ maxPayload+1
  /-- There is a buffer. -/
  large : 8 ≤ l.size

/-- What became of some payload: it is in the open packet, or it was handed over. -/
inductive Wrote (s t : State) (payload : List UInt8) : List UInt8 → Prop where
  /-- The packet is open. -/
  | kept (h : t.out=s.out) : Wrote s t payload payload
  /-- The packet was handed over, and another one is open. -/
  | sent (seq : ℕ) (h : t.out=s.out++emission seq payload) (hm : payload.length%maxPayload≠0) :
    Wrote s t payload []

/-- Where the next byte is written. -/
theorem At.last {s : State} {l : Layout} {pre : List UInt8} (h : At s l pre) :
    s.bufferEnd=4+l.filled := by
  have hl := h.opened.last
  rw [hl,h.filled]
  rfl

/-- Nothing happened before the first step. -/
theorem Wrote.after {s t u : State} {payload pre : List UInt8} (hs : t.out=s.out)
    (h : Wrote t u payload pre) : Wrote s u payload pre := by
  cases h with
  | kept h => exact .kept (h.trans hs)
  | sent seq h hm => exact .sent seq (by rw [h,hs]) hm

/-- Nothing was handed over when all is in the open packet. -/
theorem Wrote.unsent {s t : State} {payload pre : List UInt8} (h : Wrote s t payload pre)
    (hp : pre=payload) : t.out=s.out := by
  cases h with
  | kept h => exact h
  | sent seq h hm =>
    rw [←hp,List.length_nil,Nat.zero_mod] at hm
    exact absurd rfl hm

/-- Writing bytes that have to fit. -/
theorem at_small {s : State} {l l' : Layout} {pre bytes : List UInt8} {x : Write Unit}
    (h : At s l pre) (hx : Writes x bytes) (hl : l.putSmall bytes.length=some l') :
    ∃ t,x s=.done () t ∧ At t l' (pre++bytes) ∧ t.out=s.out := by
  unfold Layout.putSmall at hl
  split at hl
  · next hroom =>
    cases hl
    obtain ⟨t,ht,ho,hs⟩ := hx s [] pre h.opened (by rw [h.last,h.size]; exact hroom)
    refine ⟨t,ht,⟨ho,hs.size.trans h.size,?_,h.small,h.large⟩,?_⟩
    · rw [List.length_append,h.filled]
    · rw [hs.out,List.append_nil]
  · cases hl

/-- The loop of `ensureRoom()` finds a size that is large enough. -/
theorem growLoop_enough {wantLen : ℕ} (fuel : ℕ) {len : ℕ} (h : wantLen ≤ len*2^fuel) :
    wantLen ≤ growLoop wantLen fuel len := by
  induction fuel generalizing len with
  | zero => rwa [pow_zero,Nat.mul_one] at h
  | succ fuel ih =>
    rw [growLoop]
    split
    · refine ih ?_
      rw [Nat.mul_assoc,←pow_succ']
      exact h
    · next hn => omega

/-- Doubling any buffer finds a size that is large enough. -/
theorem growLoop_double (wantLen : ℕ) {len : ℕ} (h : 0 < len) :
    wantLen ≤ growLoop wantLen wantLen (len*2) := by
  refine growLoop_enough _ ?_
  have h2 : wantLen < 2^wantLen := Nat.lt_two_pow_self
  have hle := Nat.mul_le_mul_right (2^wantLen) (show 1 ≤ len*2 by omega)
  omega

/-- The bytes of an open packet stay when the buffer gets longer. -/
theorem opened_append {s : State} {q pre : List UInt8} (h : Opened s q pre) (zeros : List UInt8) :
    Opened {s with buffer := s.buffer++zeros} q pre := by
  obtain ⟨hole,junk,hh,hb⟩ := h.content
  refine ⟨h.start,h.last,hole,junk++zeros,hh,?_⟩
  show s.buffer++zeros=_
  rw [hb]
  simp only [List.append_assoc]

/-- `ensureRoom()` when there is no room. -/
theorem ensureRoom_spec {s : State} {q pre : List UInt8} {n : ℕ} (h : Opened s q pre)
    (hs : 0 < s.buffer.length) (hn : s.buffer.length < s.bufferEnd+n) :
    ∃ t,ensureRoom n s=.done () t ∧ Opened t q pre ∧ t.out=s.out ∧
      t.buffer.length=growLoop (s.bufferEnd+n) (s.bufferEnd+n) (s.buffer.length*2) ∧
      t.bufferEnd+n ≤ t.buffer.length := by
  have hgrow := growLoop_double (s.bufferEnd+n) hs
  have hlen : (s.buffer++List.replicate (growLoop (s.bufferEnd+n) (s.bufferEnd+n)
      (s.buffer.length*2)-s.buffer.length) (0 : UInt8)).length=
      growLoop (s.bufferEnd+n) (s.bufferEnd+n) (s.buffer.length*2) := by
    rw [List.length_append,List.length_replicate]
    omega
  refine ⟨_,?_,opened_append h _,rfl,hlen,?_⟩
  · unfold ensureRoom
    rw [modify_apply]
    dsimp only
    rw [if_pos hn]
  · show s.bufferEnd+n ≤ _
    rw [hlen]
    exact hgrow

/-- A new packet after everything was handed over. -/
theorem openPacket_spec {s : State} (h : Stable s) (hs : 4 ≤ s.buffer.length) :
    ∃ t,startWritingNewPacket false s=.done () t ∧ Opened t [] [] ∧ t.out=s.out ∧
      t.buffer.length=s.buffer.length := by
  refine ⟨{s with bufferStart := 0,bufferEnd := 4},?_,opened_empty hs,rfl,rfl⟩
  unfold startWritingNewPacket openPacket
  rw [bind_apply,bind_apply,get_apply,Outcome.andThen_done,branch_apply,
    if_pos (show s.bufferEnd=s.bufferStart from h)]
  rfl

/-- A byte string after its length. -/
theorem at_bytes {s : State} {l l' : Layout} {pre v : List UInt8} (isLast : Bool) (h : At s l pre)
    (hl : l.putBytes isLast v.length=some l') :
    ∃ t pre',(if s.bufferEnd+v.length ≤ s.buffer.length then writeShortBytes v
      else if isLast=false then do
        ensureRoom v.length
        writeShortBytes v
      else do
        let _ ← sendWithData (.bytes v) false
        startWritingNewPacket false : Write Unit) s=.done () t ∧ At t l' pre' ∧
      Wrote s t (pre++v) pre' ∧ (isLast=false → pre'=pre++v) := by
  have hlast := h.last
  have hsize := h.size
  unfold Layout.putBytes at hl
  by_cases hroom : s.bufferEnd+v.length ≤ s.buffer.length
  · rw [if_pos (by omega)] at hl
    rw [if_pos hroom]
    have hput : l.putSmall v.length=some l' := by
      unfold Layout.putSmall
      rw [if_pos (by omega)]
      exact hl
    obtain ⟨t,ht,ha,ho⟩ := at_small h (writes_bytes v) hput
    exact ⟨t,_,ht,ha,.kept ho,fun _ => rfl⟩
  rw [if_neg (by omega)] at hl
  rw [if_neg hroom]
  cases isLast with
  | false =>
    rw [if_neg Bool.false_ne_true] at hl
    rw [if_pos rfl]
    dsimp only at hl
    split at hl
    · next hmax =>
      cases hl
      obtain ⟨t,ht,ho,hout,hlen,hfit⟩ := ensureRoom_spec h.opened
        (by rw [hsize]; have hlarge := h.large; omega) (Nat.not_le.mp hroom)
      obtain ⟨u,hu,ho',hs'⟩ := writeShortBytes_spec ho hfit
      have hgrow : t.buffer.length=growLoop (4+l.filled+v.length) (4+l.filled+v.length)
          (l.size*2) := by rw [hlen,hlast,hsize]
      have hbig : s.bufferEnd+v.length ≤ t.buffer.length := by
        have hend : t.bufferEnd=s.bufferEnd := ho.last.trans h.opened.last.symm
        omega
      have hlarge := h.large
      refine ⟨u,pre++v,?_,⟨ho',?_,?_,hmax,?_⟩,.kept ?_,fun _ => rfl⟩
      · rw [bind_apply,ht,Outcome.andThen_done,hu]
      · rw [hs'.size,hgrow]
      · rw [List.length_append,h.filled]
      · show 8 ≤ growLoop _ _ _
        omega
      · rw [hs'.out,List.append_nil,hout]
    · cases hl
  | true =>
    rw [if_pos rfl] at hl
    rw [if_neg (by decide)]
    split at hl
    · next hm =>
      cases hl
      have hlarge := h.large
      have hsmall := h.small
      have hfit := h.opened.room
      obtain ⟨w,t,ht,hw,he⟩ := sendBytes_spec false v h.opened (by omega)
        (by rw [h.filled]; omega) (fun _ hs => absurd hs.1 Bool.false_ne_true)
      have hf : w=false := by
        cases w with
        | false => rfl
        | true => exact absurd (hw rfl) Bool.false_ne_true
      have hst := he.stable hf
      obtain ⟨u,hu,ho,hout,hlen⟩ := openPacket_spec hst (by rw [he.size]; omega)
      refine ⟨u,[],?_,⟨ho,?_,rfl,hsmall,hlarge⟩,.sent s.sequenceId ?_ ?_,fun hc => by cases hc⟩
      · rw [bind_apply]
        show (sendBytes false v s).andThen _=_
        rw [ht,Outcome.andThen_done,hu]
      · rw [hlen,he.size,hsize]
      · have hx := he.out
        rw [hst.pending,List.append_nil,List.nil_append] at hx
        rw [hout,hx]
      · rw [List.length_append,h.filled]
        exact hm
    · cases hl

/-- A byte string with its length before it. -/
theorem at_blob {s : State} {l l' : Layout} {pre v : List UInt8} (isLast : Bool) (h : At s l pre)
    (hv : v.length < 2^64) (hl : l.put isLast (.blob v.length)=some l') :
    ∃ t pre',serializeBlob isLast v s=.done () t ∧ At t l' pre' ∧
      Wrote s t (pre++(lenenc v.length++v)) pre' ∧
      (isLast=false → pre'=pre++(lenenc v.length++v)) := by
  obtain ⟨m,hm,hl'⟩ := Option.bind_eq_some_iff.mp hl
  obtain ⟨t,ht,ha,hout⟩ := at_small h (appends_lenencInt hv) hm
  obtain ⟨u,pre',hu,ha',hw,hp⟩ := at_bytes isLast ha hl'
  rw [List.append_assoc] at hw hp
  refine ⟨u,pre',?_,ha',hw.after hout,hp⟩
  unfold serializeBlob
  rw [bind_apply,ht,Outcome.andThen_done,bind_apply,get_apply,Outcome.andThen_done,hu]

variable {o : RowOptions} {f : FloatWidths}

/-- A byte string of a value that has to fit its type. -/
theorem blobBytes_lt {column : Column} {value : ColumnValue}
    (hfit : Fits column.typeId (cellOf o f column value)) (ht : isBlob column.typeId=true) :
    (blobBytes value).length < longBlob := by
  rw [cellOf_blob o f value ht] at hfit
  generalize column.typeId=t at hfit
  cases hfit with
  | bit h =>
    unfold longBlob
    omega
  | blob ht h => exact h

/-- A column. -/
theorem at_column {s : State} {l l' : Layout} {pre : List UInt8} (isLast : Bool) (h : At s l pre)
    (p : Column×ColumnValue) (hfit : p.2≠.null → Fits p.1.typeId (cellOf o f p.1 p.2))
    (hl : l.put isLast (pieceOf o f p)=some l') :
    ∃ t pre',doWhen (p.2≠.null) (serializeValue o f isLast p.1 p.2) s=.done () t ∧ At t l' pre' ∧
      Wrote s t (pre++nullableCell (if p.2=.null then none else some (cellOf o f p.1 p.2))) pre' ∧
      (isLast=false →
        pre'=pre++nullableCell (if p.2=.null then none else some (cellOf o f p.1 p.2))) := by
  unfold pieceOf at hl
  by_cases hz : p.2=.null
  · rw [if_pos hz] at hl
    obtain ⟨t,ht,ha,hout⟩ := at_small h writes_nothing hl
    refine ⟨t,_,?_,ha,?_,fun _ => ?_⟩
    · unfold doWhen
      rwa [if_neg (fun hn => hn hz)]
    · rw [if_pos hz]
      exact .kept hout
    · rw [if_pos hz]
      rfl
  rw [if_neg hz] at hl ⊢
  have hd : doWhen (p.2≠.null) (serializeValue o f isLast p.1 p.2) s=
      serializeValue o f isLast p.1 p.2 s := by
    unfold doWhen
    rw [if_pos hz]
  rw [hd]
  by_cases ht : isBlob p.1.typeId=true
  · rw [if_pos ht] at hl
    have hv := blobBytes_lt (hfit hz) ht
    rw [serializeValue_blob o f isLast p.2 ht,cellOf_blob o f p.2 ht]
    exact at_blob isLast h (by unfold longBlob at hv; omega) hl
  · rw [if_neg ht] at hl
    obtain ⟨t,hs,ha,hout⟩ := at_small h
      (writes_value o f isLast p.2 (Bool.eq_false_iff.mpr ht)) hl
    exact ⟨t,_,hs,ha,.kept hout,fun _ => rfl⟩

/-- The columns of a row from one on. -/
theorem at_columns {s : State} {l l' : Layout} {pre : List UInt8} (row : ValueRow) (h : At s l pre)
    (hfit : ∀ p ∈ row,p.2≠.null → Fits p.1.typeId (cellOf o f p.1 p.2))
    (hl : l.putAll (row.map (pieceOf o f))=some l') :
    ∃ t pre',serializeColumns o f row s=.done () t ∧ At t l' pre' ∧
      Wrote s t (pre++(formsOf o f row).flatMap (fun p => nullableCell p.2)) pre' := by
  induction row generalizing s l pre with
  | nil =>
    cases hl
    refine ⟨s,pre,rfl,h,?_⟩
    rw [formsOf,List.map_nil,List.flatMap_nil,List.append_nil]
    exact .kept rfl
  | cons p ps ih =>
    obtain ⟨m,hm,hl'⟩ := Option.bind_eq_some_iff.mp hl
    rw [List.isEmpty_map] at hm
    obtain ⟨t,pre₁,ht,ha,hw,hp⟩ := at_column ps.isEmpty h p (hfit p List.mem_cons_self) hm
    have hforms : (formsOf o f (p::ps)).flatMap (fun p => nullableCell p.2)=
        nullableCell (if p.2=.null then none else some (cellOf o f p.1 p.2))++
          (formsOf o f ps).flatMap (fun p => nullableCell p.2) := rfl
    rw [hforms,←List.append_assoc]
    have hstep : serializeColumns o f (p::ps) s=serializeColumns o f ps t := by
      rw [serializeColumns,bind_apply,ht,Outcome.andThen_done]
    rw [hstep]
    by_cases he : ps=[]
    · subst he
      cases hl'
      refine ⟨t,pre₁,rfl,ha,?_⟩
      rw [formsOf,List.map_nil,List.flatMap_nil,List.append_nil]
      exact hw
    · have hpre := hp (by rwa [List.isEmpty_eq_false_iff])
      subst hpre
      have hout := hw.unsent rfl
      obtain ⟨u,pre',hu,ha',hw'⟩ := ih ha (fun q hq => hfit q (List.mem_cons_of_mem _ hq)) hl'
      exact ⟨u,pre',hu,ha',hw'.after hout⟩

/-- Handing over the open packet. -/
theorem at_send {s : State} {l : Layout} {pre : List UInt8} (h : At s l pre) :
    ∃ t,send s=.done () t ∧ Stable t ∧ t.out=s.out++emission s.sequenceId pre ∧
      t.buffer.length=s.buffer.length := by
  obtain ⟨t,ht,hst,hs⟩ := send_spec h.opened
  have hfit := h.opened.room
  have hlast := h.last
  have hsize := h.size
  have hsmall := h.small
  have hfilled := h.filled
  have hp : pre.length < maxPayload := by omega
  refine ⟨t,ht,hst,?_,hs.size⟩
  rw [hs.out,List.nil_append,header_frame _ hp.le,emission_short hp]

/-- The end of a row. -/
theorem at_flush {s : State} {l : Layout} {pre : List UInt8} (h : At s l pre) :
    ∃ t pre',maybeFlush s=.done () t ∧ At t l.flush pre' ∧ Wrote s t pre pre' := by
  have hlast := h.last
  have hsize := h.size
  have hfilled := h.filled
  unfold maybeFlush Layout.flush
  rw [bind_apply,get_apply,Outcome.andThen_done,doWhen]
  by_cases hf : l.size ≤ 2*l.filled
  · rw [if_pos hf,if_pos (by omega)]
    have hlarge := h.large
    have hsmall := h.small
    have hfit := h.opened.room
    obtain ⟨t,ht,hst,hout,hlen⟩ := at_send h
    obtain ⟨u,hu,ho,hout',hlen'⟩ := openPacket_spec hst (by omega)
    refine ⟨u,[],?_,⟨ho,by rw [hlen',hlen,hsize],rfl,hsmall,hlarge⟩,
      .sent s.sequenceId (by rw [hout',hout]) ?_⟩
    · rw [bind_apply,ht,Outcome.andThen_done,hu]
    · rw [Nat.mod_eq_of_lt (by omega)]
      omega
  · rw [if_neg hf,if_neg (by omega)]
    exact ⟨s,pre,rfl,h,.kept rfl⟩

/-- A row. -/
theorem at_row {s : State} {l l' : Layout} {pre : List UInt8} (row : ValueRow) (h : At s l pre)
    (hfit : ∀ p ∈ row,p.2≠.null → Fits p.1.typeId (cellOf o f p.1 p.2))
    (hl : l.row (row.map (pieceOf o f))=some l') :
    ∃ t pre',serializeRowBinary o f row s=.done () t ∧ At t l' pre' ∧
      Wrote s t (pre++binaryPayload (formsOf o f row)) pre' := by
  obtain ⟨m,hm,hl⟩ := Option.bind_eq_some_iff.mp hl
  obtain ⟨m',hm',rfl⟩ := Option.map_eq_some_iff.mp hl
  have hnulls : leBytes (nullBitsLen (row.map (fun p => decide (p.2=.null))).length)
      (ofBits (false::false::row.map (fun p => decide (p.2=.null))))=
        nullBitmap (formsOf o f row) := by
    have hisNone : (formsOf o f row).map (fun p => p.2.isNone)=
        row.map (fun p => decide (p.2=.null)) := by
      rw [formsOf,List.map_map]
      refine List.map_congr_left (fun p _ => ?_)
      show (if p.2=.null then none else some (cellOf o f p.1 p.2)).isNone=decide (p.2=.null)
      by_cases hz : p.2=.null
      · rw [if_pos hz,decide_eq_true hz]
        rfl
      · rw [if_neg hz,decide_eq_false hz]
        rfl
    rw [nullBitmap,hisNone,formsOf,List.length_map,List.length_map]
  have hmask := (writes_nullMask (row.map (fun p => decide (p.2=.null)))).congr hnulls
  have hlen : (nullBitmap (formsOf o f row)).length=
      nullBitsLen (row.map (pieceOf o f)).length := by
    rw [nullBitmap,leBytes_length,formsOf,List.length_map,List.length_map]
  obtain ⟨t,ht,ha,hout⟩ := at_small h hmask (by rw [hlen]; exact hm)
  obtain ⟨u,pre₁,hu,ha',hw⟩ := at_columns row ha hfit hm'
  rw [List.append_assoc] at hw
  obtain ⟨v,pre₂,hv,ha'',hw'⟩ := at_flush ha'
  refine ⟨v,pre₂,?_,ha'',?_⟩
  · unfold serializeRowBinary
    rw [bind_apply,ht,Outcome.andThen_done,bind_apply,hu,Outcome.andThen_done,hv]
  · cases hw with
    | kept hk => exact hw'.after (hk.trans hout)
    | sent seq hs hmod =>
      have hopen : Wrote u v [] pre₂ → pre₂=[] ∧ v.out=u.out := by
        intro hx
        cases hx with
        | kept hx => exact ⟨rfl,hx⟩
        | sent seq hx hmod => exact absurd rfl hmod
      obtain ⟨rfl,hv'⟩ := hopen hw'
      exact .sent seq (by rw [hv',hs,hout]; rfl) hmod

/-! ## The file -/

/-- The payload of rows in one packet. -/
def payloadOf (rows : List BinaryRow) : List UInt8 := rows.flatMap binaryPayload

/-- The file and the open packet have the rows: each packet has some of them, and no
payload of a packet is a multiple of the largest one. -/
def Filed (rows : List BinaryRow) (out pre : List UInt8) : Prop :=
  ∃ (groups : List (ℕ×List BinaryRow)) (pending : List BinaryRow),
    rows=groups.flatMap Prod.snd++pending ∧
    out=groups.flatMap (fun g => emission g.1 (payloadOf g.2)) ∧ pre=payloadOf pending ∧
    ∀ g ∈ groups,(payloadOf g.2).length%maxPayload≠0

/-- At first there are no rows. -/
theorem filed_nil : Filed [] [] [] := ⟨[],[],rfl,rfl,rfl,fun _ h => absurd h List.not_mem_nil⟩

/-- Handing over the rows of the open packet. -/
theorem Filed.send {rows : List BinaryRow} {out pre : List UInt8} (h : Filed rows out pre)
    (seq : ℕ) (hm : pre.length%maxPayload≠0) : Filed rows (out++emission seq pre) [] := by
  obtain ⟨groups,pending,hr,ho,hp,hg⟩ := h
  subst hp
  refine ⟨groups++[(seq,pending)],[],?_,?_,rfl,?_⟩
  · rw [hr,List.flatMap_append,List.flatMap_singleton,List.append_nil]
  · rw [ho,List.flatMap_append,List.flatMap_singleton]
  · intro g hmem
    rcases List.mem_append.mp hmem with hmem|hmem
    · exact hg g hmem
    · rw [List.mem_singleton.mp hmem]
      exact hm

/-- One more row. -/
theorem Filed.put {rows : List BinaryRow} {s t : State} {pre pre' : List UInt8} {row : BinaryRow}
    (h : Filed rows s.out pre) (hw : Wrote s t (pre++binaryPayload row) pre') :
    Filed (rows++[row]) t.out pre' := by
  have hput : Filed (rows++[row]) s.out (pre++binaryPayload row) := by
    obtain ⟨groups,pending,hr,ho,hp,hg⟩ := h
    refine ⟨groups,pending++[row],?_,ho,?_,hg⟩
    · rw [hr,List.append_assoc]
    · rw [hp,payloadOf,payloadOf,List.flatMap_append,List.flatMap_singleton]
  cases hw with
  | kept hk => rwa [hk]
  | sent seq hs hm =>
    rw [hs]
    exact hput.send seq hm

/-! ## Sizes of the buffer -/

theorem putSmall_size {n : ℕ} {l l' : Layout} (h : l.putSmall n=some l') :
    l'.size=l.size ∧ n+4 ≤ l.size := by
  unfold Layout.putSmall at h
  split at h
  · cases h
    exact ⟨rfl,by omega⟩
  · cases h

/-- The buffer does not get shorter with a column. -/
theorem put_size {isLast : Bool} {piece : Piece} {l l' : Layout} (hs : 0 < l.size)
    (h : l.put isLast piece=some l') : l.size ≤ l'.size := by
  cases piece with
  | small n => exact (putSmall_size h).1.ge
  | blob n =>
    obtain ⟨m,hm,h⟩ := Option.bind_eq_some_iff.mp h
    rw [←(putSmall_size hm).1] at hs ⊢
    unfold Layout.putBytes at h
    split_ifs at h with h₁ h₂ h₃
    · cases h
      exact le_rfl
    · cases h
      exact le_rfl
    · dsimp only at h
      split at h
      · cases h
        have henough := growLoop_double (4+m.filled+n) hs
        show m.size ≤ growLoop _ _ _
        omega
      · cases h

/-- The buffer does not get shorter with columns. -/
theorem putAll_size {pieces : List Piece} {l l' : Layout} (hs : 0 < l.size)
    (h : l.putAll pieces=some l') : l.size ≤ l'.size := by
  induction pieces generalizing l with
  | nil =>
    cases h
    exact le_rfl
  | cons p ps ih =>
    obtain ⟨m,hm,h⟩ := Option.bind_eq_some_iff.mp h
    have hput := put_size hs hm
    exact hput.trans (ih (hs.trans_le hput) h)

/-- The null mask of a row fits the buffer, and the buffer does not get shorter. -/
theorem row_size {pieces : List Piece} {l l' : Layout} (hs : 0 < l.size)
    (h : l.row pieces=some l') : nullBitsLen pieces.length+4 ≤ l'.size ∧ l.size ≤ l'.size := by
  obtain ⟨m,hm,h⟩ := Option.bind_eq_some_iff.mp h
  obtain ⟨m',hm',rfl⟩ := Option.map_eq_some_iff.mp h
  obtain ⟨hsize,hnulls⟩ := putSmall_size hm
  rw [←hsize] at hs hnulls ⊢
  have hall := putAll_size hs hm'
  have hflush : m'.flush.size=m'.size := by
    unfold Layout.flush
    split <;> rfl
  omega

/-- Several rows. -/
theorem rows_size {rows : List (List Piece)} {l l' : Layout} (hs : 0 < l.size)
    (h : Layout.rows rows l=some l') :
    l.size ≤ l'.size ∧ ∀ row ∈ rows,nullBitsLen row.length+4 ≤ l'.size := by
  induction rows generalizing l with
  | nil =>
    cases h
    exact ⟨le_rfl,fun _ h => absurd h List.not_mem_nil⟩
  | cons row rows ih =>
    obtain ⟨m,hm,h⟩ := Option.bind_eq_some_iff.mp h
    obtain ⟨hnulls,hsize⟩ := row_size hs hm
    obtain ⟨hsize',hrest⟩ := ih (hs.trans_le hsize) h
    refine ⟨hsize.trans hsize',?_⟩
    intro r hr
    rcases List.mem_cons.mp hr with rfl|hr
    · exact hnulls.trans hsize'
    · exact hrest r hr

/-- Rows after other rows. -/
theorem rows_append (a b : List (List Piece)) (l : Layout) :
    Layout.rows (a++b) l=(Layout.rows a l).bind (Layout.rows b) := by
  induction a generalizing l with
  | nil => rfl
  | cons row rows ih =>
    rw [List.cons_append,Layout.rows,Layout.rows,Option.bind_assoc]
    exact congrArg _ (funext ih)

/-! ## Rows that always fit -/

/-- The bytes that a column takes. -/
def Piece.bytes : Piece → ℕ
  | .small n => n
  | .blob n => (lenenc n).length+n

/-- The bytes of columns. -/
def bytesOf (pieces : List Piece) : ℕ := (pieces.map Piece.bytes).sum

/-- A column that fits. -/
theorem put_fits (isLast : Bool) {piece : Piece} {l : Layout}
    (h : 4+l.filled+piece.bytes ≤ l.size) :
    l.put isLast piece=some {l with filled := l.filled+piece.bytes} := by
  cases piece with
  | small n => exact if_pos h
  | blob n =>
    have h' : 4+l.filled+((lenenc n).length+n) ≤ l.size := h
    have hsmall : l.putSmall (lenenc n).length=
        some {l with filled := l.filled+(lenenc n).length} := if_pos (by omega)
    have hbytes : Layout.putBytes isLast n {l with filled := l.filled+(lenenc n).length}=
        some {l with filled := l.filled+(lenenc n).length+n} := if_pos (by dsimp only; omega)
    unfold Layout.put
    dsimp only
    rw [hsmall,Option.bind_some,hbytes,Nat.add_assoc]
    rfl

/-- Columns that fit. -/
theorem putAll_fits (pieces : List Piece) {l : Layout} (h : 4+l.filled+bytesOf pieces ≤ l.size) :
    l.putAll pieces=some {l with filled := l.filled+bytesOf pieces} := by
  induction pieces generalizing l with
  | nil => rfl
  | cons p ps ih =>
    have hsum : bytesOf (p::ps)=p.bytes+bytesOf ps := List.sum_cons
    rw [hsum] at h ⊢
    have hput := put_fits ps.isEmpty (show 4+l.filled+p.bytes ≤ l.size by omega)
    have hrest := @ih {l with filled := l.filled+p.bytes} (by dsimp only; omega)
    rw [Layout.putAll,hput,Option.bind_some,hrest,Nat.add_assoc]

/-- Rows that take less than half of the buffer always fit: the buffer stays as it is. -/
theorem rows_fit (rows : List (List Piece)) {l : Layout} (hl : 2*l.filled < l.size)
    (h : ∀ row ∈ rows,2*(nullBitsLen row.length+bytesOf row)+8 ≤ l.size) :
    ∃ l',Layout.rows rows l=some l' := by
  induction rows generalizing l with
  | nil => exact ⟨l,rfl⟩
  | cons row rows ih =>
    have hrow := h row List.mem_cons_self
    have hnulls : l.putSmall (nullBitsLen row.length)=
        some {l with filled := l.filled+nullBitsLen row.length} := if_pos (by omega)
    have hall := @putAll_fits row {l with filled := l.filled+nullBitsLen row.length}
      (by dsimp only; omega)
    obtain ⟨m,hm,hsize,hfilled⟩ : ∃ m,l.row row=some m ∧ m.size=l.size ∧ 2*m.filled < m.size := by
      unfold Layout.row
      rw [hnulls,Option.bind_some,hall,Option.map_some]
      refine ⟨_,rfl,?_,?_⟩
      · unfold Layout.flush
        split <;> rfl
      · unfold Layout.flush
        split
        · show 2*0 < l.size
          omega
        · next hn => exact Nat.not_le.mp hn
    obtain ⟨l',hl'⟩ := ih hfilled (fun r hr => by
      rw [hsize]
      exact h r (List.mem_cons_of_mem _ hr))
    exact ⟨l',by rw [Layout.rows,hm,Option.bind_some,hl']⟩

end SpiritMysql.RowLayout
