import SpiritMysql.ReceiveReads

/-!
# Programs that read a payload

A program reads numbers and byte strings, and what it reads next may depend on what it
has read. What it returns is what it returns on the bytes of the payload alone:
however the payload was cut into packets, however the packets arrive in pieces,
and wherever a piece or a packet ends within a value.
-/

namespace SpiritMysql.ReceiveBuffer

open AsyncAction ByteCodec ChunkCursor Errors PacketStream Reader

/-- One reading operation. -/
inductive ReadOp where
  /-- `readUint8()` and the like: a number of some bytes. -/
  | fixed (k : ℕ)
  /-- `readLenencInt()`. -/
  | lenencInt
  /-- `readShortBytes()`. -/
  | shortBytes (n : ℕ)
  /-- `readShortLenencBytes()`. -/
  | shortLenencBytes
  /-- `readBytesToBuffer()`. -/
  | bytesToBuffer (n : ℕ)
deriving DecidableEq, Repr

/-- What an operation returns. -/
inductive Value where
  /-- Bytes. -/
  | bytes (value : List UInt8)
  /-- A length, or `-1` for the null mark. -/
  | int (value : ℤ)
deriving DecidableEq, Repr

/-- The operation on the receive buffer. -/
def ReadOp.recv : ReadOp → Recv Value
  | .fixed k => do return .bytes (←readFixed k)
  | .lenencInt => do return .int (←readLenencInt)
  | .shortBytes n => do return .bytes (←readShortBytes n)
  | .shortLenencBytes => do return .bytes (←readShortLenencBytes)
  | .bytesToBuffer n => do return .bytes (←readBytesToBuffer n)

/-- The operation on the stream. -/
def ReadOp.read : ReadOp → Read Value
  | .fixed k => do return .bytes (←Reader.readFixed k)
  | .lenencInt => do return .int (←Reader.readLenencInt)
  | .shortBytes n => do return .bytes (←Reader.readShortBytes n)
  | .shortLenencBytes => do return .bytes (←Reader.readShortLenencBytes)
  | .bytesToBuffer n => do return .bytes (←Reader.readBytesToBuffer n)

/-- Some bytes, and those that follow. -/
def splitBytes (n : ℕ) (bs : List UInt8) : Option (List UInt8×List UInt8) :=
  if n ≤ bs.length then some (bs.take n,bs.drop n) else none

/-- A length-encoded integer, and the bytes that follow. -/
def splitLenenc (bs : List UInt8) : Option (ℤ×List UInt8) :=
  match bs with
  | [] => none
  | b::bs => (splitBytes (lenencSize b) (b::bs)).map fun r => (lenencValue r.1,r.2)

/-- What an operation means for the bytes of a payload. A number has at most eight bytes,
and a short string leaves room for a packet header in the buffer. -/
def ReadOp.parse (bs : List UInt8) : ReadOp → Option (Value×List UInt8)
  | .fixed k => if k ≤ 8 then (splitBytes k bs).map fun r => (.bytes r.1,r.2) else none
  | .lenencInt => (splitLenenc bs).map fun r => (.int r.1,r.2)
  | .shortBytes n =>
    if n+4 ≤ bufferLen then (splitBytes n bs).map fun r => (.bytes r.1,r.2) else none
  | .shortLenencBytes =>
    match splitLenenc bs with
    | none => none
    | some (len,rest) =>
      if len ≤ -1 then some (.bytes [],rest)
      else if len.toNat+4 ≤ bufferLen then
        (splitBytes len.toNat rest).map fun r => (.bytes r.1,r.2)
      else none
  | .bytesToBuffer n => (splitBytes n bs).map fun r => (.bytes r.1,r.2)

/-- A program that reads. -/
inductive Script (α : Type) where
  /-- Nothing more is read. -/
  | done (result : α)
  /-- What follows depends on what is read. -/
  | read (op : ReadOp) (next : Value → Script α)

variable {α : Type}

/-- Run a program on the receive buffer. -/
def Script.run : Script α → Recv α
  | .done a => pure a
  | .read op next => op.recv >>= fun v => (next v).run

/-- What a program means for the bytes of a payload: its result, and what it leaves. -/
def Script.parse (bs : List UInt8) : Script α → Option (α×List UInt8)
  | .done a => some (a,bs)
  | .read op next =>
    match op.parse bs with
    | none => none
    | some (v,rest) => (next v).parse rest

/-- An operation follows the one on the stream. -/
theorem follows_op {op : ReadOp} {bs X : List UInt8} {v : Value} (h : op.parse bs=some (v,X)) :
    Follows op.recv op.read := by
  cases op with
  | fixed k =>
    rw [ReadOp.parse] at h
    split at h
    · rename_i hk
      exact (follows_readFixed (by omega)).bind fun a => .pure _
    · cases h
  | lenencInt => exact follows_readLenencInt.bind fun a => .pure _
  | shortBytes n => exact (follows_readShortBytes n).bind fun a => .pure _
  | shortLenencBytes => exact follows_readShortLenencBytes.bind fun a => .pure _
  | bytesToBuffer n => exact (follows_readBytesToBuffer n).bind fun a => .pure _

/-- Some bytes were split off. -/
theorem splitBytes_eq {n : ℕ} {bs : List UInt8} {β : Type} {f : List UInt8×List UInt8 → β} {r : β}
    (h : (splitBytes n bs).map f=some r) : n ≤ bs.length ∧ r=f (bs.take n,bs.drop n) := by
  unfold splitBytes at h
  split at h
  · rename_i hn
    cases h
    exact ⟨hn,rfl⟩
  · cases h

section Meaning

variable {s : Reader.State} {c : Cursor UInt8 UInt8} {later : List UInt8} {log : List ℕ}

/-- A length-encoded integer is read from the packets. -/
theorem readLenencInt_split (hr : Represents s c later log) {v : ℤ} {X : List UInt8}
    (h : splitLenenc c.flatten=some (v,X)) : ∃ s' c',Reader.readLenencInt s=.done v s' ∧
      Represents s' c' later log ∧ c'.flatten=X := by
  cases hc : c.flatten with
  | nil =>
    rw [hc] at h
    cases h
  | cons b bs =>
    rw [hc,splitLenenc] at h
    obtain ⟨hlen,hv⟩ := splitBytes_eq h
    cases hv
    have hbounds := lenencSize_bounds b
    rw [← hc] at hlen
    obtain ⟨s',hs,hr'⟩ := readLenencInt_spec hr hc hlen
    have hle := le_reserve hr.regular (show 9 ≤ maxPayload by decide) hbounds.2 hlen
    exact ⟨s',_,by rw [hs,hc],hr',by rw [flatten_drop hle,flatten_reserve,hc]⟩

/-- An operation on the packets means what it means for the payload. -/
theorem read_parse (hr : Represents s c later log) {op : ReadOp} {v : Value} {X : List UInt8}
    (h : op.parse c.flatten=some (v,X)) : ∃ s' c',op.read s=.done v s' ∧
      Represents s' c' later log ∧ c'.flatten=X := by
  cases op with
  | fixed k =>
    rw [ReadOp.parse] at h
    split at h
    · rename_i hk
      obtain ⟨hlen,hv⟩ := splitBytes_eq h
      cases hv
      obtain ⟨s',hs,hr'⟩ := readFixed_spec hr (hk.trans (by decide)) hlen
      have hle := le_reserve hr.regular (show k ≤ maxPayload from hk.trans (by decide)) le_rfl hlen
      refine ⟨s',_,?_,hr',by rw [flatten_drop hle,flatten_reserve]⟩
      rw [ReadOp.read,bind_apply,hs,Outcome.andThen_done,pure_apply]
    · cases h
  | lenencInt =>
    rw [ReadOp.parse] at h
    obtain ⟨⟨len,rest⟩,hsplit,hv⟩ := Option.map_eq_some_iff.mp h
    cases hv
    obtain ⟨s',c',hs,hr',hX⟩ := readLenencInt_split hr hsplit
    exact ⟨s',c',by rw [ReadOp.read,bind_apply,hs,Outcome.andThen_done,pure_apply],hr',hX⟩
  | shortBytes n =>
    rw [ReadOp.parse] at h
    split at h
    · rename_i hn
      obtain ⟨hlen,hv⟩ := splitBytes_eq h
      cases hv
      obtain ⟨s',hs,hr'⟩ := readShortBytes_spec hr hlen hn
      refine ⟨s',_,?_,hr',flatten_skip n c⟩
      rw [ReadOp.read,bind_apply,hs,Outcome.andThen_done,pure_apply]
    · cases h
  | shortLenencBytes =>
    rw [ReadOp.parse] at h
    cases hsplit : splitLenenc c.flatten with
    | none =>
      rw [hsplit] at h
      cases h
    | some r =>
      obtain ⟨len,rest⟩ := r
      rw [hsplit] at h
      dsimp only at h
      obtain ⟨s₁,c₁,hs₁,hr₁,rfl⟩ := readLenencInt_split hr hsplit
      rw [ReadOp.read,bind_apply,Reader.readShortLenencBytes,bind_apply,hs₁,Outcome.andThen_done,
        branch_apply]
      by_cases hnull : len ≤ -1
      · rw [if_pos hnull] at h ⊢
        cases h
        exact ⟨s₁,c₁,rfl,hr₁,rfl⟩
      · rw [if_neg hnull] at h ⊢
        obtain ⟨n,rfl⟩ := Int.eq_ofNat_of_zero_le (show 0 ≤ len by omega)
        rw [Int.toNat_natCast] at h
        split at h
        · rename_i hn
          obtain ⟨hlen,hv⟩ := splitBytes_eq h
          cases hv
          obtain ⟨s₂,hs₂,hr₂⟩ := readShortBytes_spec hr₁ hlen hn
          exact ⟨s₂,_,by rw [hs₂,Outcome.andThen_done,pure_apply],hr₂,flatten_skip n c₁⟩
        · cases h
  | bytesToBuffer n =>
    rw [ReadOp.parse] at h
    obtain ⟨hlen,hv⟩ := splitBytes_eq h
    cases hv
    obtain ⟨s',hs,hr'⟩ := readBytesToBuffer_spec hr hlen
    refine ⟨s',_,?_,hr',flatten_skip n c⟩
    rw [ReadOp.read,bind_apply,hs,Outcome.andThen_done,pure_apply]

end Meaning

/-- A program on the receive buffer means what it means for the payload. -/
theorem run_parse (p : Script α) {b : State} {s : Reader.State} {c : Cursor UInt8 UInt8}
    {later : List UInt8} {log : List ℕ} {a : α} {X : List UInt8} (h : Shows b s)
    (hr : Represents s c later log) (hp : p.parse c.flatten=some (a,X)) :
    ∃ b' s' c',p.run b=.done a b' ∧ Shows b' s' ∧ Represents s' c' later log ∧ c'.flatten=X := by
  induction p generalizing b s c with
  | done a' =>
    cases hp
    exact ⟨b,s,c,rfl,h,hr,rfl⟩
  | read op next ih =>
    unfold Script.parse at hp
    cases hop : op.parse c.flatten with
    | none =>
      rw [hop] at hp
      cases hp
    | some r =>
      obtain ⟨v,rest⟩ := r
      rw [hop] at hp
      dsimp only at hp
      obtain ⟨s₁,c₁,hs₁,hr₁,rfl⟩ := read_parse hr hop
      obtain ⟨b₁,hb₁,h₁⟩ := follows_op hop b s v s₁ h hs₁
      obtain ⟨b₂,s₂,c₂,hb₂,h₂,hr₂,hX⟩ := ih v h₁ hr₁ hp
      exact ⟨b₂,s₂,c₂,by rw [Script.run,bind_apply,hb₁,Outcome.andThen_done,hb₂],h₂,hr₂,hX⟩

/-- A new reader shows the pieces that will arrive. -/
theorem shows_new {pieces : List (List UInt8)} (h : ∀ p ∈ pieces,p≠[]) :
    Shows (State.new pieces) {rest := pieces.flatten} := by
  refine ⟨le_refl 0,Nat.zero_le _,List.length_replicate,h,?_,rfl,rfl,rfl,rfl⟩
  unfold State.stream State.window State.new
  dsimp only
  rw [List.take_zero,List.drop_nil,List.nil_append]

/-- The first header of a payload is read, however it arrives. -/
theorem header_new {pieces : List (List UInt8)} {packet : Packet} {packets : List Packet}
    {later : List UInt8} (hpieces : ∀ piece ∈ pieces,piece≠[])
    (hstream : pieces.flatten=frames (packet::packets)++later)
    (hregular : Regular maxPayload (packet::packets)) :
    ∃ b s log,header (State.new pieces)=.done () b ∧ Shows b s ∧
      Represents s ⟨packet.2,packets⟩ later log := by
  have h := shows_new hpieces
  obtain ⟨s₁,hs₁,-,-,hr₁⟩ :=
    readPacketHeader_spec (s := {rest := pieces.flatten}) hstream hregular rfl
  have hheader : ∃ b₁,header (State.new pieces)=.done () b₁ ∧ Shows b₁ s₁ := by
    unfold Reader.readPacketHeader at hs₁
    obtain ⟨u,s₂,h₂,hd⟩ := bind_eq_done.mp hs₁
    obtain ⟨rfl,hlen,-⟩ := recvAtLeast_inv h₂
    rw [modify_apply] at hd
    cases hd
    exact h.header hlen
  obtain ⟨b₁,hb₁,h₁⟩ := hheader
  exact ⟨b₁,s₁,_,hb₁,h₁,hr₁⟩

/-- Where the receive buffer stands after a program. -/
theorem stands_at {b : State} {s : Reader.State} {c : Cursor UInt8 UInt8} {later : List UInt8}
    {log : List ℕ} (h : Shows b s) (hr : Represents s c later log) :
    b.stream=c.cur++(frames c.nexts++later) ∧ b.lenInCurPacket=(c.cur.length : ℤ) := by
  rw [← h.rest,hr.rest,← h.lenInCurPacket,hr.left]
  exact ⟨rfl,rfl⟩

/-- However a payload was cut into packets and the packets into pieces, a program returns
what it returns on the bytes of the payload, and leaves what follows them. -/
theorem script_reads_payload (p : Script α) {pieces : List (List UInt8)} {packet : Packet}
    {packets : List Packet} {later X : List UInt8} {a : α} (hpieces : ∀ piece ∈ pieces,piece≠[])
    (hstream : pieces.flatten=frames (packet::packets)++later)
    (hregular : Regular maxPayload (packet::packets))
    (hparse : p.parse ((packet::packets).flatMap Prod.snd)=some (a,X)) :
    ∃ b' cur nexts,(do header; p.run) (State.new pieces)=.done a b' ∧
      b'.stream=cur++(frames nexts++later) ∧ cur++nexts.flatMap Prod.snd=X ∧
      b'.lenInCurPacket=(cur.length : ℤ) := by
  obtain ⟨b₁,s₁,log,hb₁,h₁,hr₁⟩ := header_new hpieces hstream hregular
  obtain ⟨b',s',c',hb',h',hr',hX⟩ := run_parse p h₁ hr₁ hparse
  obtain ⟨hstream',hleft⟩ := stands_at h' hr'
  refine ⟨b',c'.cur,c'.nexts,?_,hstream',hX,hleft⟩
  rw [bind_apply,hb₁,Outcome.andThen_done,hb']

/-- A string of three bytes and a number, that arrive byte after byte. -/
theorem script_reads_payload_byteAfterByte : ∃ b' cur nexts,
    (do header; (Script.read .shortLenencBytes fun v => .read (.fixed 2) fun w =>
      .done [v,w]).run) (State.new [[6],[0],[0],[1],[3],[97],[98],[99],[5],[1]])=
        .done [.bytes [97,98,99],.bytes [5,1]] b' ∧
      b'.stream=cur++(frames nexts++[]) ∧ cur++nexts.flatMap Prod.snd=[] ∧
      b'.lenInCurPacket=(cur.length : ℤ) :=
  @script_reads_payload (List Value) _ _ (1,[3,97,98,99,5,1]) [] [] [] _ (by decide) (by decide)
    (regular_singleton.mpr (by decide)) (by decide)

end SpiritMysql.ReceiveBuffer
