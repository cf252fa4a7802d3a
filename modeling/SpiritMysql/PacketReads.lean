import SpiritMysql.Replies

/-!
# Reading whole packets

What `#readPacket()` does with each packet that a server sends: it takes the
packet for OK, EOF or ERR and reads it to its end, or it leaves the packet to
the caller after the first byte.
-/

namespace SpiritMysql.PacketReads

open AsyncAction ByteCodec ChunkCursor Errors PacketStream Protocol ReadOrder ReadScript Reader
  Replies RowStream

/-- A packet begins where the next header stands. -/
structure Begins (s : Protocol.State) (ps : List Packet) (later : List UInt8) (log : List ℕ) :
    Prop where
  /-- The unread bytes. -/
  rest : s.reader.rest=frames ps++later
  /-- The packets are those of one payload. -/
  regular : Regular maxPayload ps
  /-- The headers recorded so far and those that follow. -/
  headers : s.reader.headers++headerLog later ps=log

/-- The state in which a packet is entered, with the reader that entered it. -/
theorem readPacket_open (cfg : Config) {mode : ReadPacketMode}
    (hmode : mode≠.PREPARED_STMT_OK_CONTINUATION) {s : Protocol.State} {p : Packet}
    {ps : List Packet} {later : List UInt8} {log : List ℕ} {b : UInt8} {body : List UInt8}
    (h : Begins s (p::ps) later log) (hp : p.2=b::body) :
    ∃ r,readPacket cfg mode s=readPacketBody cfg mode b.toNat (putReader r s) ∧
      Represents r ⟨body,ps⟩ later log ∧ r.payloadLength=p.2.length ∧
      r.headers=s.reader.headers++[s.reader.rest.length] := by
  obtain ⟨r₁,h₁,hlen,hoff,hr₁⟩ := readPacketHeader_spec h.rest h.regular h.headers
  rw [hp] at hr₁
  obtain ⟨r₂,h₂,hr₂⟩ := (reads_uint8 b.toNat_lt).spec r₁ _ later log (body++ps.flatMap Prod.snd) hr₁
    (by simp [Cursor.flatten,leBytes])
  have hcur : (Cursor.mk (b::body) ps).run [.number 1 1]=⟨body,ps⟩ := by
    have hge : ¬((b::body).length < 1) := by
      rw [List.length_cons]
      omega
    simp only [run_cons,run_nil,Cursor.step,Cursor.reserve,if_neg hge,Cursor.drop,List.drop_succ_cons,
      List.drop_zero]
  rw [hcur] at hr₂
  have hheaders : r₂.headers=r₁.headers := by
    have h₁' := hr₁.headers
    have h₂' := hr₂.headers
    rw [←h₁'] at h₂'
    exact List.append_cancel_right h₂'
  have hkeeps := ((keeps_readFixed 1).bind fun bs => keeps_pure (leNat bs)) r₁
  have hk : Extends r₁ r₂ := by
    change Extends r₁ (readUint8 r₁).state at hkeeps
    rw [h₂] at hkeeps
    exact hkeeps
  refine ⟨r₂,?_,hr₂,by rw [hk.payload hheaders,hlen],?_⟩
  · unfold readPacket
    rw [if_neg hmode]
    simp only [bind_apply,read_apply,h₁,Outcome.mapState_done,Outcome.andThen_done,h₂]
    rfl
  · have hl := hr₂.headers
    rw [←h.headers,headerLog,←List.singleton_append,←List.append_assoc] at hl
    rw [h.rest]
    exact List.append_cancel_right hl

/-- A short packet that begins with `0xFE` is an EOF packet. -/
theorem readPacketBody_eof (cfg : Config) (mode : ReadPacketMode) {s : Protocol.State}
    (hlen : s.reader.payloadLength < 9) (hd : cfg.capabilities.deprecateEof=false) :
    readPacketBody cfg mode 0xFE s=
      (readEof cfg s.accept).andThen (fun _ => pure (packetType mode 0xFE)) := by
  have hnot : ¬(9 ≤ s.reader.payloadLength) := by omega
  simp only [readPacketBody,bind_apply,get_apply,Outcome.andThen_done,branch_apply,hnot,and_false,
    if_false,hd,and_self,if_true,modify_apply]

/-- With `CLIENT_DEPRECATE_EOF`, a short packet that begins with `0xFE` is an OK
packet. -/
theorem readPacketBody_okEof (cfg : Config) (mode : ReadPacketMode) {s : Protocol.State}
    (hlen : s.reader.payloadLength < 9) (hd : cfg.capabilities.deprecateEof=true) :
    readPacketBody cfg mode 0xFE s=
      (readOk cfg s.accept).andThen (fun _ => pure (packetType mode 0xFE)) := by
  have hnot : ¬(9 ≤ s.reader.payloadLength) := by omega
  have hz : ¬((0xFE : ℕ)=0) := by decide
  simp only [readPacketBody,bind_apply,get_apply,Outcome.andThen_done,branch_apply,hnot,and_false,
    if_false,hd,Bool.true_eq_false,true_or,if_true,hz,modify_apply]

/-- A packet that begins with zero is an OK packet, where no row is expected. -/
theorem readPacketBody_ok (cfg : Config) (mode : ReadPacketMode) (s : Protocol.State)
    (hmode : mode≠.ROWS_OR_PREPARED_STMT) :
    readPacketBody cfg mode 0 s=
      (readOk cfg s.accept).andThen (fun _ => pure (packetType mode 0)) := by
  have hz : ¬((0 : ℕ)=0xFE) := by decide
  simp only [readPacketBody,bind_apply,get_apply,Outcome.andThen_done,hz,false_and,
    if_false,or_true,if_true,hmode,modify_apply]

/-- A packet that begins with `0xFF` is an ERR packet. -/
theorem readPacketBody_err (cfg : Config) (mode : ReadPacketMode) (s : Protocol.State) :
    readPacketBody cfg mode 0xFF s=readErr cfg s.accept := by
  have hfe : ¬((0xFF : ℕ)=0xFE) := by decide
  have hz : ¬((0xFF : ℕ)=0) := by decide
  simp only [readPacketBody,bind_apply,get_apply,Outcome.andThen_done,hfe,hz,false_and,
    or_self,if_false,if_true,modify_apply]

/-- Any other packet is left to the caller. -/
theorem readPacketBody_notRead {cfg : Config} {mode : ReadPacketMode} {s : Protocol.State} {type : ℕ}
    (hz : type=0 → mode=.ROWS_OR_PREPARED_STMT) (hfe : type=0xFE → 9 ≤ s.reader.payloadLength)
    (hff : type≠0xFF) : readPacketBody cfg mode type s=.done (notRead type) s := by
  have hd : ¬(type=0xFE ∧ ¬(9 ≤ s.reader.payloadLength)) := fun h => h.2 (hfe h.1)
  simp only [readPacketBody,bind_apply,get_apply,Outcome.andThen_done,branch_apply,pure_apply]
  split_ifs with h₁ h₂ h₃ h₄
  · rfl
  · exact absurd ⟨h₂.1,fun h => h₁ ⟨h₂.1,h⟩⟩ hd
  · rfl
  · rcases h₃ with h|h
    · exact absurd ⟨h,fun h' => h₁ ⟨h,h'⟩⟩ hd
    · exact absurd ⟨hz h,h⟩ h₄
  · rfl

/-- The packet that ends the rows of a resultset. -/
inductive Terminator where
  /-- An EOF packet, without `CLIENT_DEPRECATE_EOF`. -/
  | eof (warnings statusFlags : UInt16)
  /-- An OK packet in the place of EOF, with `CLIENT_DEPRECATE_EOF`. -/
  | ok (p : OkPacket)
deriving DecidableEq, Repr

/-- The payload of a terminator. -/
def Terminator.payload (c : Capabilities) : Terminator → List UInt8
  | .eof warnings statusFlags => 0xFE::eofBytes c warnings statusFlags
  | .ok p => 0xFE::p.body c

/-- The terminators that a server sends. -/
def Terminator.Valid (c : Capabilities) : Terminator → Prop
  | .eof _ _ => c.deprecateEof=false
  | .ok p => c.deprecateEof=true ∧ p.Valid c

/-- A packet was taken for OK, EOF or ERR at a position. -/
def acceptAt (n : ℕ) (s : Protocol.State) : Protocol.State := {s with accepted := s.accepted++[n]}

/-- What a terminator does. -/
def Terminator.effect (cfg : Config) : Terminator → Proto Unit
  | .eof warnings statusFlags => modify (setEof cfg.capabilities warnings statusFlags)
  | .ok p => p.effect cfg

/-- A terminator is not split. -/
theorem Terminator.length_lt {c : Capabilities} {t : Terminator} (h : t.Valid c) :
    (t.payload c).length < maxPayload := by
  cases t with
  | eof warnings statusFlags =>
    simp only [Terminator.payload,eofBytes,List.length_cons]
    split
    · rw [List.length_append,leBytes_length,leBytes_length]
      decide
    · decide
  | ok p =>
    have hl := h.2.length
    simpa only [Terminator.payload,List.length_cons] using hl

/-- The effect of a terminator does not touch the reader. -/
theorem Terminator.effect_frame (cfg : Config) (t : Terminator) (s : Protocol.State)
    (r : Reader.State) : t.effect cfg (putReader r s)=(t.effect cfg s).mapState (putReader r) := by
  cases t with
  | eof warnings statusFlags =>
    simp only [Terminator.effect,modify_apply,setEof]
    split <;> rfl
  | ok p => exact p.effect_frame cfg s r

/-- A packet that was just entered is accepted at its header. -/
theorem accept_putReader {s : Protocol.State} {r : Reader.State}
    (h : r.headers=s.reader.headers++[s.reader.rest.length]) :
    (putReader r s).accept=putReader r (acceptAt s.reader.rest.length s) := by
  have hl : r.headers.getLastD 0=s.reader.rest.length := by
    rw [h,List.getLastD_concat]
  change {putReader r s with accepted := s.accepted++[r.headers.getLastD 0]}=_
  rw [hl]
  rfl

/-- A short terminator is taken for OK or EOF and read to its end. -/
theorem readPacket_terminator (cfg : Config) (hsane : Sane cfg.capabilities) {mode : ReadPacketMode}
    (hmode : mode≠.PREPARED_STMT_OK_CONTINUATION) {s : Protocol.State} {id : UInt8} {t : Terminator}
    {later : List UInt8} {log : List ℕ} (ht : t.Valid cfg.capabilities)
    (hl : (t.payload cfg.capabilities).length < 9)
    (h : Begins s [(id,t.payload cfg.capabilities)] later log) :
    Leaves (packetType mode 0xFE) [] later log (readPacket cfg mode s)
      (t.effect cfg (acceptAt s.reader.rest.length s)) := by
  cases t with
  | eof warnings statusFlags =>
    obtain ⟨r,hs,hr,hlen,hlog⟩ := readPacket_open cfg hmode h rfl
    have hshort : (putReader r s).reader.payloadLength < 9 := by rwa [←hlen] at hl
    have he : Leaves () [] later log (readEof cfg (putReader r (acceptAt s.reader.rest.length s)))
        ((Terminator.eof warnings statusFlags).effect cfg
          (putReader r (acceptAt s.reader.rest.length s))) :=
      readEof_spec cfg warnings statusFlags hr
    rw [Terminator.effect_frame] at he
    have hb := readPacketBody_eof cfg mode hshort ht
    rw [accept_putReader hlog] at hb
    rw [hs]
    change Leaves _ _ _ _ (readPacketBody cfg mode 0xFE (putReader r s)) _
    rw [hb]
    exact he.of_mapState.returns _
  | ok p =>
    obtain ⟨r,hs,hr,hlen,hlog⟩ := readPacket_open cfg hmode h rfl
    have hshort : (putReader r s).reader.payloadLength < 9 := by rwa [←hlen] at hl
    have he := readOk_spec cfg hsane ht.2 (s:=putReader r (acceptAt s.reader.rest.length s)) hr
    rw [OkPacket.effect_frame] at he
    have hb := readPacketBody_okEof cfg mode hshort ht.1
    rw [accept_putReader hlog] at hb
    rw [hs]
    change Leaves _ _ _ _ (readPacketBody cfg mode 0xFE (putReader r s)) _
    rw [hb]
    exact he.of_mapState.returns _

/-- What a terminator sets, besides the information text. -/
def Terminator.set (c : Capabilities) : Terminator → Protocol.State → Protocol.State
  | .eof warnings statusFlags => setEof c warnings statusFlags
  | .ok p => p.setNumbers c

/-- A session state change has at least two bytes. -/
theorem SessionChange.two_le (ch : SessionChange) : 2 ≤ ch.bytes.length := by
  have h : ∀ n,1 ≤ (lenenc n).length := fun n => (lenenc_length n).1
  cases ch with
  | sysVar name value =>
    have := h (lenencText name++lenencText value).length
    simp only [SessionChange.bytes,List.length_append,leBytes_length] at this ⊢
    omega
  | schema name =>
    have := h (lenencText name).length
    simp only [SessionChange.bytes,List.length_append,leBytes_length] at this ⊢
    omega
  | other type data =>
    have := h data.length
    simp only [SessionChange.bytes,lenencText,List.length_append,leBytes_length] at this ⊢
    omega

/-- A short OK packet reports no change of the session state. -/
theorem OkPacket.changes_of_short {c : Capabilities} (hsane : Sane c) {p : OkPacket}
    {t : List UInt8} (hinfo : p.info=some t) (htrack : c.sessionTrack=true)
    (hbit : p.statusFlags.toNat.testBit 14=true) (hl : (p.body c).length+1 < 9) : p.changes=[] := by
  have h₁ := (lenenc_length p.affectedRows).1
  have h₂ := (lenenc_length p.lastInsertId).1
  have h₃ := (lenenc_length t.length).1
  have h₄ := (lenenc_length p.changesBytes.length).1
  have hstatus : 2 ≤ (p.statusBytes c).length := by
    unfold OkPacket.statusBytes
    rcases hsane htrack with h|h
    · rw [if_pos h,List.length_append,leBytes_length]
      omega
    · split_ifs
      · rw [List.length_append,leBytes_length]
        omega
      · rw [leBytes_length]
  simp only [OkPacket.body,OkPacket.infoBytes,hinfo,htrack,hbit,if_true,lenencText,
    List.length_append] at hl
  cases hc : p.changes with
  | nil => rfl
  | cons ch chs =>
    have hch := SessionChange.two_le ch
    have hb : ch.bytes.length ≤ p.changesBytes.length := by
      rw [OkPacket.changesBytes,hc,List.flatMap_cons,List.length_append]
      omega
    omega

/-- A short terminator never makes the client throw. -/
theorem Terminator.effect_of_short (cfg : Config) (hsane : Sane cfg.capabilities) {t : Terminator}
    (hl : (t.payload cfg.capabilities).length < 9) (s : Protocol.State) :
    ∃ info,t.effect cfg s=.done () {t.set cfg.capabilities s with statusInfo := info} := by
  cases t with
  | eof warnings statusFlags => exact ⟨_,rfl⟩
  | ok p =>
    simp only [Terminator.payload,List.length_cons] at hl
    simp only [Terminator.effect,OkPacket.effect,bind_apply,modify_apply,Outcome.andThen_done,
      OkPacket.infoEffect,Terminator.set]
    cases hinfo : p.info with
    | none => exact ⟨_,rfl⟩
    | some t =>
      dsimp only
      by_cases htrack : cfg.capabilities.sessionTrack=true
      · rw [if_pos htrack]
        by_cases hbit : p.statusFlags.toNat.testBit 14=true
        · rw [OkPacket.changes_of_short hsane hinfo htrack hbit hl,if_pos hbit]
          exact ⟨_,rfl⟩
        · rw [if_neg hbit]
          exact ⟨_,rfl⟩
      · rw [if_neg htrack]
        split
        · exact ⟨_,rfl⟩
        · exact ⟨_,rfl⟩

/-- An OK packet that answers a command is read to its end. -/
theorem readPacket_ok (cfg : Config) (hsane : Sane cfg.capabilities) {mode : ReadPacketMode}
    (hmode : mode=.REGULAR) {s : Protocol.State} {id : UInt8} {p : OkPacket}
    {later : List UInt8} {log : List ℕ} (hp : p.Valid cfg.capabilities)
    (h : Begins s [(id,0::p.body cfg.capabilities)] later log) :
    Leaves 0 [] later log (readPacket cfg mode s)
      (p.effect cfg (acceptAt s.reader.rest.length s)) := by
  subst hmode
  obtain ⟨r,hs,hr,-,hlog⟩ := readPacket_open cfg
    (by decide : ReadPacketMode.REGULAR≠.PREPARED_STMT_OK_CONTINUATION) h rfl
  have he := readOk_spec cfg hsane hp (s:=putReader r (acceptAt s.reader.rest.length s)) hr
  rw [OkPacket.effect_frame] at he
  have hb := readPacketBody_ok cfg .REGULAR (putReader r s) (by decide)
  rw [accept_putReader hlog] at hb
  rw [hs]
  change Leaves _ _ _ _ (readPacketBody cfg .REGULAR 0 (putReader r s)) _
  rw [hb]
  exact he.of_mapState.returns _

/-- The fields of an ERR packet. -/
structure ErrPacket where
  /-- The number of the error. -/
  errorCode : UInt16
  /-- The mark `#` and five characters. -/
  sqlState : List UInt8
  /-- The text of the error. -/
  message : List UInt8
deriving DecidableEq, Repr

/-- The payload of an ERR packet. -/
def ErrPacket.payload (c : Capabilities) (e : ErrPacket) : List UInt8 :=
  0xFF::(leBytes 2 e.errorCode.toNat++((if c.protocol41=true then e.sqlState else [])++e.message))

/-- The ERR packets that a server sends. -/
structure ErrPacket.Valid (e : ErrPacket) : Prop where
  /-- The state has its mark and five characters. -/
  sqlState : e.sqlState.length=6
  /-- The text fits the receive buffer. -/
  message : e.message.length ≤ bufferLen

/-- The error that an ERR packet becomes, under the status flags of before. -/
def ErrPacket.error (c : Capabilities) (statusFlags : ℕ) (e : ErrPacket) : SqlError :=
  SqlError.make (eofText e.message) e.errorCode.toNat (if c.protocol41=true then e.sqlState else [])
    (statusFlags.testBit 1) (statusFlags.testBit 0)

/-- An ERR packet is not split. -/
theorem ErrPacket.length_lt {c : Capabilities} {e : ErrPacket} (h : e.Valid) :
    (e.payload c).length < maxPayload := by
  have h₁ := h.sqlState
  have h₂ : e.message.length ≤ 8*1024 := h.message
  have h₃ : maxPayload=16777215 := rfl
  simp only [ErrPacket.payload,List.length_cons,List.length_append,leBytes_length]
  split
  · omega
  · rw [List.length_nil]
    omega

/-- The SQL state of an ERR packet is read back. -/
theorem consumes_readSqlState (cfg : Config) {e : ErrPacket} (h : e.Valid) :
    Consumes (readSqlState cfg) (if cfg.capabilities.protocol41=true then [.bytes 6] else [])
      (if cfg.capabilities.protocol41=true then e.sqlState else [])
      (if cfg.capabilities.protocol41=true then e.sqlState else []) (pure ()) := by
  unfold readSqlState
  split
  · have hr := reads_shortBytes e.sqlState (by rw [h.sqlState]; decide)
    rw [h.sqlState] at hr
    exact consumes_read hr
  · exact ⟨rfl,fun _ hm => absurd hm List.not_mem_nil,fun _ _ => rfl,
      fun s c later log X hr _ => ⟨s.reader,rfl,hr⟩⟩

/-- An ERR packet is read to its end and thrown. -/
theorem readPacket_err (cfg : Config) {mode : ReadPacketMode}
    (hmode : mode≠.PREPARED_STMT_OK_CONTINUATION) {s : Protocol.State} {id : UInt8} {e : ErrPacket}
    {later : List UInt8} {log : List ℕ} (he : e.Valid)
    (h : Begins s [(id,e.payload cfg.capabilities)] later log) :
    ∃ r,readPacket cfg mode s=.thrown (.sql (e.error cfg.capabilities s.statusFlags))
        (putReader r (acceptAt s.reader.rest.length s)) ∧ Represents r ⟨[],[]⟩ later log := by
  obtain ⟨r,hs,hr,-,hlog⟩ := readPacket_open cfg hmode h rfl
  have hb := readPacketBody_err cfg mode (putReader r s)
  rw [accept_putReader hlog] at hb
  have hn := (consumes_read (reads_uint16 e.errorCode.toNat_lt)).last
    (s:=putReader r (acceptAt s.reader.rest.length s)) hr
  obtain ⟨r₁,h₁,hr₁⟩ := hn
  obtain ⟨r₂,h₂,hr₂⟩ := (consumes_readSqlState cfg he).last
    (s:=putReader r₁ (acceptAt s.reader.rest.length s)) hr₁
  obtain ⟨r₃,h₃,hr₃⟩ := readShortEofBytes_spec hr₂ he.message
  refine ⟨r₃,?_,hr₃⟩
  rw [hs]
  change readPacketBody cfg mode 0xFF (putReader r s)=_
  rw [hb,readErr,bind_apply,h₁,Outcome.andThen_done,bind_apply]
  change ((readSqlState cfg (putReader r₁ (acceptAt s.reader.rest.length s))).andThen _)=_
  rw [h₂,Outcome.andThen_done,bind_apply,read_apply]
  change (((readShortEofBytes r₂).mapState _).andThen _)=_
  rw [h₃]
  rfl

/-- A packet of rows is left to the caller after its first byte. -/
theorem readPacket_row (cfg : Config) {s : Protocol.State} {p : Packet} {ps : List Packet}
    {later : List UInt8} {log : List ℕ} {b : UInt8} {body : List UInt8}
    (h : Begins s (p::ps) later log) (hp : p.2=b::body) (hfe : b=0xFE → 9 ≤ p.2.length)
    (hff : b≠0xFF) :
    ∃ r,readPacket cfg .ROWS_OR_PREPARED_STMT s=.done (notRead b.toNat) (putReader r s) ∧
      Represents r ⟨body,ps⟩ later log := by
  obtain ⟨r,hs,hr,hlen,-⟩ := readPacket_open cfg
    (by decide : ReadPacketMode.ROWS_OR_PREPARED_STMT≠.PREPARED_STMT_OK_CONTINUATION) h hp
  refine ⟨r,?_,hr⟩
  rw [hs]
  refine readPacketBody_notRead (fun _ => rfl) ?_ ?_
  · intro hb
    have hb' : b=0xFE := UInt8.toNat_inj.mp hb
    change 9 ≤ r.payloadLength
    rw [hlen]
    exact hfe hb'
  · intro hb
    exact hff (UInt8.toNat_inj.mp hb)

end SpiritMysql.PacketReads
