import SpiritMysql.RowDiscard

/-!
# Fetching at a leftover empty packet

When the empty packet after a row was not read with the row, the next call of
`fetch()` enters it, takes the first byte of the next header for the type of a
row, and goes on reading that header as columns. It never gets back to where
the next packet begins.
-/

namespace SpiritMysql.LeftoverPacket

open AsyncAction ByteCodec ChunkCursor ColumnValues Errors FetchRun PacketReads PacketStream Protocol
  ProtocolOrder ReadOrder ReadScript Reader Replies Results RowDiscard RowFetch RowReader RowStream

/-- The reader is past the end of an empty packet. -/
structure Astray (r : Reader.State) : Prop where
  /-- The packet is empty. -/
  payloadLength : r.payloadLength=0
  /-- The reader is not before its beginning. -/
  packetOffset : 0 ≤ r.packetOffset

/-- Bytes were read past the end of an empty packet, without a header. -/
structure Strays (n : ℕ) (r t : Reader.State) : Prop where
  /-- The reader is still there. -/
  astray : Astray t
  /-- It has passed some bytes. -/
  passed : (n : ℤ) ≤ t.packetOffset
  /-- No header was read. -/
  headers : t.headers=r.headers
  /-- Bytes were consumed. -/
  consumed : t.rest.length+n ≤ r.rest.length

/-- There is no next packet to join to an empty one. -/
theorem Astray.reserve {r : Reader.State} (h : Astray r) (k : ℕ) : reserve k r=.done () r := by
  have hne : ¬(r.payloadLength=maxPayload) := by
    rw [h.payloadLength]
    decide
  unfold Reader.reserve correctNearPacketBoundary
  rw [if_neg hne,ite_self]

/-- Bytes were received when waiting for them is over. -/
theorem recvAtLeast_inv {n : ℕ} {r t : Reader.State} {u : Unit} (h : recvAtLeast n r=.done u t) :
    t=r ∧ min n bufferLen ≤ r.rest.length := by
  unfold recvAtLeast at h
  split_ifs at h with h₁ h₂ h₃
  · injection h with _ ht
    exact ⟨ht.symm,h₁⟩

/-- The value of a length is at least that of the null mark. -/
theorem neg_one_le_lenencValue (bs : List UInt8) : -1 ≤ lenencValue bs := by
  cases bs with
  | nil => decide
  | cons b bs =>
    unfold lenencValue
    dsimp only
    split_ifs <;> omega

/-- A length is read from whatever bytes follow. -/
theorem Astray.readLenencInt {r t : Reader.State} (h : Astray r) {len : ℤ}
    (hx : readLenencInt r=.done len t) : Strays 1 r t ∧ -1 ≤ len := by
  obtain ⟨_,r₁,h₁,hx₁⟩ := bind_eq_done.mp hx
  rw [h.reserve] at h₁
  cases h₁
  obtain ⟨_,r₂,h₂,hx₂⟩ := bind_eq_done.mp hx₁
  obtain ⟨rfl,-⟩ := recvAtLeast_inv h₂
  obtain ⟨s,r₃,h₃,hx₃⟩ := bind_eq_done.mp hx₂
  cases h₃
  obtain ⟨_,r₄,h₄,hx₄⟩ := bind_eq_done.mp hx₃
  obtain ⟨rfl,hsize⟩ := recvAtLeast_inv h₄
  have hn : 1 ≤ lenencSize (r₄.rest.headD 0) ∧ lenencSize (r₄.rest.headD 0) ≤ 9 := by
    unfold lenencSize
    split_ifs <;> omega
  have hb : (9 : ℕ) ≤ bufferLen := by decide
  injection hx₄ with hlen ht
  subst ht
  have hoff := h.packetOffset
  refine ⟨⟨⟨h.payloadLength,?_⟩,?_,rfl,?_⟩,?_⟩
  · change 0 ≤ r₄.packetOffset+(lenencSize (r₄.rest.headD 0) : ℤ)
    omega
  · change ((1 : ℕ) : ℤ) ≤ r₄.packetOffset+(lenencSize (r₄.rest.headD 0) : ℤ)
    omega
  · change (r₄.rest.drop _).length+1 ≤ r₄.rest.length
    rw [List.length_drop]
    omega
  · rw [←hlen]
    exact neg_one_le_lenencValue _

/-- Nothing of an empty packet can be passed. -/
theorem passLoop_astray {enter : Read Unit} (he : ∀ r,Astray r → 0 < r.packetOffset → enter r=.done () r)
    {r : Reader.State} (h : Astray r) (hoff : 0 < r.packetOffset) (fuel n : ℕ) (hn : 0 < n)
    (bs : List UInt8) (t : Reader.State) : passLoop enter fuel n r≠.done bs t := by
  induction fuel generalizing bs t with
  | zero =>
    intro hx
    cases hx
  | succ fuel ih =>
    intro hx
    rw [passLoop,if_neg (by omega)] at hx
    obtain ⟨_,r₁,h₁,hx₁⟩ := bind_eq_done.mp hx
    rw [he r h hoff] at h₁
    cases h₁
    obtain ⟨s,r₂,h₂,hx₂⟩ := bind_eq_done.mp hx₁
    cases h₂
    have hleft : r.lenInCurPacket.toNat=0 := by
      have hpay := h.payloadLength
      unfold Reader.State.lenInCurPacket
      omega
    rw [hleft,Nat.zero_min] at hx₂
    obtain ⟨_,r₃,h₃,hx₃⟩ := bind_eq_done.mp hx₂
    obtain ⟨rfl,-⟩ := recvAtLeast_inv h₃
    rw [Nat.zero_min] at hx₃
    have htake : take 0 r₃=.done [] r₃ := by
      have h0 : r₃.advance 0=r₃ := by
        simp [State.advance,State.consume]
      rw [take,h0,List.take_zero]
    obtain ⟨_,r₄,h₄,hx₄⟩ := bind_eq_done.mp hx₃
    rw [htake] at h₄
    cases h₄
    obtain ⟨b,r₅,h₅,hx₅⟩ := bind_eq_done.mp hx₄
    exact ih b r₅ h₅

/-- Bytes past the end of an empty packet cannot be read as a short string. -/
theorem readShortBytes_astray {r : Reader.State} (h : Astray r) (hoff : 0 < r.packetOffset) {len : ℤ}
    (hlen : 0 ≤ len) (bs : List UInt8) (t : Reader.State) : readShortBytes len r≠.done bs t := by
  intro hx
  have hpay := h.payloadLength
  have hleft : r.lenInCurPacket < 0 := by
    unfold Reader.State.lenInCurPacket
    omega
  have hneg : ¬(len < 0) := by omega
  have hle : ¬(len ≤ r.lenInCurPacket) := by omega
  simp only [readShortBytes,branch_apply,bind_apply,get_apply,Outcome.andThen_done,if_neg hneg,
    if_neg hle,if_pos hleft] at hx
  split_ifs at hx
  · cases hx
  · obtain ⟨_,r₁,-,hx₁⟩ := Outcome.andThen_eq_done.mp hx
    cases hx₁

/-- Nothing can be skipped past the end of an empty packet, but nothing at all. -/
theorem readVoid_astray {r t : Reader.State} (h : Astray r) (hoff : 0 < r.packetOffset) {len : ℤ}
    (hlen : 0 ≤ len) (hx : readVoid len r=.done () t) : t=r := by
  by_cases h0 : len=0
  · rw [h0,readVoid_zero] at hx
    injection hx with _ ht
    exact ht.symm
  · have hpos : ¬(len ≤ 0) := by omega
    simp only [readVoid,bind_apply,get_apply,Outcome.andThen_done,if_neg hpos] at hx
    obtain ⟨bs,r₁,hloop,-⟩ := Outcome.andThen_eq_done.mp hx
    exact absurd hloop (passLoop_astray (fun r h _ => h.reserve 1) h hoff _ _ (by omega) bs r₁)

/-- The bytes of a column cannot be read past the end of an empty packet. -/
theorem readColumnBytes_astray {r : Reader.State} (h : Astray r) (hoff : 0 < r.packetOffset) {len : ℤ}
    (hlen : 0 ≤ len) (bs : List UInt8) (t : Reader.State) : readColumnBytes len r≠.done bs t := by
  unfold readColumnBytes
  split
  · exact readShortBytes_astray h hoff hlen bs t
  · next hbig =>
    have hpos : 0 < len.toNat := by
      have hb : (bufferLen : ℤ)=8192 := rfl
      omega
    refine passLoop_astray (fun r h hoff => if_neg ?_) h hoff _ _ hpos bs t
    have hpay := h.payloadLength
    unfold Reader.State.lenInCurPacket
    omega

/-- A column of a text row reads at least the byte of its length. -/
theorem readTextColumn_astray {o : RowOptions} (ho : o.rowType.isLastColumn=false) (isLast : Bool)
    (column : Column) {r t : Reader.State} {value : ColumnValue×ℤ} (h : Astray r)
    (hx : readTextColumn o isLast column r=.done value t) : Strays 1 r t := by
  obtain ⟨len,r₁,h₁,hx₁⟩ := bind_eq_done.mp hx
  obtain ⟨hs,hlen⟩ := h.readLenencInt h₁
  have hoff : 0 < r₁.packetOffset := by
    have hp := hs.passed
    omega
  have hstay : ∀ t,t=r₁ → Strays 1 r t := by
    rintro t rfl
    exact hs
  rw [branch_apply] at hx₁
  split_ifs at hx₁ with hbig hnull
  · cases hx₁
  · injection hx₁ with _ ht
    exact hstay t ht.symm
  · have hpos : 0 ≤ len := by omega
    unfold readLengthColumn at hx₁
    rw [ho,Bool.false_and,if_neg Bool.false_ne_true,branch_apply] at hx₁
    split_ifs at hx₁ with hlong
    · obtain ⟨u,r₂,h₂,hx₂⟩ := bind_eq_done.mp hx₁
      injection hx₂ with _ ht
      exact hstay t (ht.symm.trans (readVoid_astray hs.astray hoff hpos h₂))
    · obtain ⟨v,r₂,h₂,hx₂⟩ := bind_eq_done.mp hx₁
      obtain ⟨bs,r₃,h₃,-⟩ := bind_eq_done.mp h₂
      exact absurd h₃ (readColumnBytes_astray hs.astray hoff hpos bs r₃)

/-- The columns of a text row read at least a byte each. -/
theorem readTextColumns_astray {o : RowOptions} (ho : o.rowType.isLastColumn=false)
    (columns : List Column) (row : Row) {r t : Reader.State} {value : Row×ℤ} (h : Astray r)
    (hx : readTextColumns o columns row r=.done value t) :
    t.headers=r.headers ∧ t.rest.length+columns.length ≤ r.rest.length := by
  induction columns generalizing row r value with
  | nil =>
    injection hx with _ ht
    subst ht
    exact ⟨rfl,by rw [List.length_nil]; omega⟩
  | cons column columns ih =>
    obtain ⟨v,r₁,h₁,hx₁⟩ := bind_eq_done.mp hx
    have hs := readTextColumn_astray ho _ column h h₁
    obtain ⟨w,r₂,h₂,hx₂⟩ := bind_eq_done.mp hx₁
    injection hx₂ with _ ht
    subst ht
    obtain ⟨hlog,hrest⟩ := ih _ hs.astray h₂
    have hc := hs.consumed
    refine ⟨by rw [hlog,hs.headers],?_⟩
    rw [List.length_cons]
    omega

/-- Reading a part of a row completes when the reader does. -/
theorem read_eq_done {α : Type} {x : Read α} {s t : Protocol.State} {a : α}
    (h : read x s=.done a t) : ∃ r,x s.reader=.done a r ∧ t=putReader r s :=
  Outcome.mapState_eq_done.mp h

/-- A row is never read to its end at a leftover empty packet: either its
columns are read from the bytes that follow, or reading fails. -/
theorem readRow_leftover {o : RowOptions} (ho : o.rowType.isLastColumn=false) {rs : Resultsets}
    (hcols : rs.isPreparedStmt=false → rs.columns≠[]) {b : UInt8} {Y : List UInt8} {r : Reader.State} (hrest : r.rest=b::Y)
    (hlen : r.payloadLength=0) (hoff : r.packetOffset=0) {s t : Protocol.State} {row : Row×ℤ}
    (h : readRow o rs (notRead b.toNat) (putReader (r.advance 1) s)=.done row t) :
    ∃ r',t=putReader r' s ∧ r'.headers=r.headers ∧ r'.rest.length < r.rest.length := by
  unfold readRow at h
  split at h
  · next hprep =>
    obtain ⟨r',h₁,-⟩ := read_eq_done h
    obtain ⟨bits,r₂,h₂,-⟩ := bind_eq_done.mp h₁
    have hastray : Astray (r.advance 1) := by
      refine ⟨hlen,?_⟩
      change 0 ≤ r.packetOffset+1
      rw [hoff]
      decide
    have hpos : 0 < (r.advance 1).packetOffset := by
      change 0 < r.packetOffset+1
      rw [hoff]
      decide
    exact absurd h₂ (readShortBytes_astray hastray hpos (Int.natCast_nonneg _) bits r₂)
  · next hprep =>
    obtain ⟨u,s₁,h₁,hx₁⟩ := bind_eq_done.mp h
    obtain ⟨r₁,hunput,rfl⟩ := read_eq_done h₁
    obtain ⟨r₂,h₂,rfl⟩ := read_eq_done hx₁
    have hmod : UInt8.ofNat (notRead b.toNat)=b := by
      rw [notRead,←UInt8.toNat_inj,UInt8.toNat_ofNat']
      have hlt := b.toNat_lt
      omega
    rw [hmod] at hunput
    injection hunput with _ hr₁
    have hrest₁ : r₁.rest=r.rest := by
      rw [←hr₁,hrest]
      change b::r.rest.drop 1=b::Y
      rw [hrest]
      rfl
    have hastray : Astray r₁ := by
      rw [←hr₁]
      refine ⟨hlen,?_⟩
      change 0 ≤ r.packetOffset+1-1
      rw [hoff]
      decide
    obtain ⟨hlog,hconsumed⟩ := readTextColumns_astray ho rs.columns _ hastray h₂
    have hpos := List.length_pos_iff.mpr (hcols (Bool.not_eq_true _ ▸ hprep))
    refine ⟨r₂,rfl,?_,?_⟩
    · rw [hlog,←hr₁]
      rfl
    · rw [←hrest₁]
      omega

/-- At a leftover empty packet, `fetch()` takes the packet for OK, EOF or ERR,
or it returns a row and has passed the place where the next packet begins. -/
theorem fetch_leftover (cfg : Config) (o : FetchOptions) (ho : o.rowType.isLastColumn=false)
    {s : Protocol.State} {rs : Resultsets} (hs : Reading s rs) (hcols : rs.isPreparedStmt=false → rs.columns≠[]) {id : UInt8}
    {q : Packet} {X later : List UInt8} {log : List ℕ} (h : Begins s [(id,[])] later log)
    (hq : later=frame q++X) {result : Option Row} {t : Protocol.State}
    (hf : o.fetch cfg s=.done result t) :
    s.accepted++[s.reader.rest.length] <+: t.accepted ∨
      (result≠none ∧ Reading t rs ∧ t.reader.headers=s.reader.headers++[s.reader.rest.length] ∧
        t.reader.rest.length < later.length) := by
  have hb : Begins {s with state := .QUERYING} [(id,[])] later log := ⟨h.rest,h.regular,h.headers⟩
  rw [fetch_reading cfg o hs] at hf
  rcases Outcome.orElse_eq_done.mp hf with hf|⟨e,u,-,hf⟩
  · obtain ⟨type,u,hread,hrow⟩ := bind_eq_done.mp hf
    by_cases hp : Passed true (id,[]) q
    · right
      obtain ⟨Y,hY⟩ := frame_head q X
      rw [hY] at hq
      obtain ⟨r,hpacket,hrest,hlen,hoff,hlog⟩ :=
        readPacket_empty cfg
          (by decide : ReadPacketMode.ROWS_OR_PREPARED_STMT≠.PREPARED_STMT_OK_CONTINUATION) hb hq
      have hbody : readPacketBody cfg .ROWS_OR_PREPARED_STMT (UInt8.ofNat q.2.length).toNat
          (putReader (r.advance 1) {s with state := .QUERYING})=
            .done (notRead (UInt8.ofNat q.2.length).toNat)
              (putReader (r.advance 1) {s with state := .QUERYING}) := by
        refine readPacketBody_notRead (fun _ => rfl) ?_ ?_
        · intro hfe
          have h9 : 9 ≤ ([] : List UInt8).length := hp.2.1 (UInt8.toNat_inj.mp hfe)
          exact absurd h9 (by decide)
        · intro hff
          exact hp.2.2 (UInt8.toNat_inj.mp hff)
      rw [hpacket,hbody] at hread
      injection hread with htype hu
      subst htype hu
      have hne : ¬(notRead (UInt8.ofNat q.2.length).toNat=0xFE) := by
        unfold notRead
        omega
      simp only [fetchOfType,bind_apply,get_apply,Outcome.andThen_done,if_neg hne] at hrow
      obtain ⟨row,v,hv,hrow⟩ := Outcome.andThen_eq_done.mp hrow
      obtain ⟨r',rfl,hlog',hrest'⟩ := readRow_leftover (o:=_) ho hcols (hrest.trans hq) hlen hoff hv
      simp only [ho,Bool.false_eq_true,if_false,bind_apply,setState,modify_apply,
        Outcome.andThen_done,pure_apply] at hrow
      injection hrow with hresult ht
      subst hresult ht
      refine ⟨fun hn => (by cases hn),⟨rfl,hs.current⟩,?_,?_⟩
      · change r'.headers=_
        rw [hlog',hlog]
      · change r'.rest.length < _
        rw [←hrest]
        exact hrest'
    · left
      have hacc := readPacket_misread cfg true hb hq hp
      change s.accepted++[s.reader.rest.length] <+:
        (readPacket cfg .ROWS_OR_PREPARED_STMT {s with state := .QUERYING}).state.accepted at hacc
      rw [hread] at hacc
      have hgrow := (grows_fetchOfType cfg rs o.rowType o.maxColumnLen o.jsonAsString
        o.datesAsString o.isForSerialize type u).accepted
      rw [hrow] at hgrow
      exact hacc.trans hgrow
  · exact absurd hf (rethrowError_ne_done e _ u t)

end SpiritMysql.LeftoverPacket
