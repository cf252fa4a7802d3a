import SpiritMysql.Protocol
import SpiritMysql.ProtocolOrder
import SpiritMysql.RowStream

/-!
# OK, EOF and ERR packets on the wire

The packets by which a server ends a result, and what reading each of them
does to the fields of the protocol.
-/

namespace SpiritMysql.Replies

open AsyncAction ByteCodec ChunkCursor Errors PacketStream Protocol ProtocolOrder ReadOrder ReadScript
  Reader RowStream

variable {α β : Type}

/-- Replace the reader of a protocol state. -/
def putReader (r : Reader.State) (s : Protocol.State) : Protocol.State := {s with reader := r}

/-- A protocol operation reads these bytes, returns a value and, on the other
fields, does the same as `effect`, which touches no reader. -/
structure Consumes (x : Proto α) (ms : List Move) (bytes : List UInt8) (a : α)
    (effect : Proto Unit) : Prop where
  /-- The steps pass the bytes. -/
  total : total ms=bytes.length
  /-- The steps stay within one packet. -/
  sound : ∀ m ∈ ms,m.Sound maxPayload
  /-- The effect neither sees the reader nor changes it. -/
  frame : ∀ s r,effect (putReader r s)=(effect s).mapState (putReader r)
  /-- Wherever the bytes stand, the operation moves the cursor and has the
  effect, or throws the error of the effect. -/
  spec : ∀ (s : Protocol.State) c later log X,Represents s.reader c later log → c.flatten=bytes++X →
    match effect s with
    | .done _ t => ∃ r,x s=.done a (putReader r t) ∧ Represents r (c.run ms) later log
    | .thrown e _ => ∃ t,x s=.thrown e t
    | .waiting _ => False

/-- A reading operation has no effect on the other fields. -/
theorem consumes_read {x : Read α} {ms : List Move} {bs : List UInt8} {a : α}
    (h : Reads x ms bs a) : Consumes (read x) ms bs a (pure ()) where
  total := h.total
  sound := h.sound
  frame := fun _ _ => rfl
  spec := by
    intro s c later log X hr hc
    obtain ⟨r,hs,hr'⟩ := h.spec s.reader c later log X hr hc
    refine ⟨r,?_,hr'⟩
    rw [read_apply,hs,Outcome.mapState_done]
    rfl

/-- An operation that reads nothing is its own effect. -/
theorem consumes_effect {effect : Proto Unit}
    (hf : ∀ s r,effect (putReader r s)=(effect s).mapState (putReader r))
    (hw : ∀ s t,effect s≠.waiting t) : Consumes effect [] [] () effect where
  total := rfl
  sound := fun _ h => absurd h List.not_mem_nil
  frame := hf
  spec := by
    intro s c later log X hr hc
    have hreader := hf s s.reader
    have hs : putReader s.reader s=s := rfl
    rw [hs] at hreader
    cases he : effect s with
    | done a t =>
      rw [he] at hreader
      exact ⟨s.reader,hreader,hr⟩
    | thrown e t => exact ⟨t,rfl⟩
    | waiting t => exact hw s t he

/-- Sequenced operations read pieces that follow each other, and their effects
follow each other. -/
theorem Consumes.bind {x : Proto α} {f : α → Proto β} {ms ns : List Move} {bs cs : List UInt8}
    {a : α} {b : β} {g h : Proto Unit} (hx : Consumes x ms bs a g)
    (hf : Consumes (f a) ns cs b h) :
    Consumes (x >>= f) (ms++ns) (bs++cs) b (g >>= fun _ => h) where
  total := by rw [total_append,hx.total,hf.total,List.length_append]
  sound := by
    intro m hm
    rcases List.mem_append.mp hm with hm|hm
    · exact hx.sound m hm
    · exact hf.sound m hm
  frame := by
    intro s r
    rw [bind_apply,bind_apply,hx.frame]
    cases g s with
    | done u t => exact hf.frame t r
    | thrown e t => rfl
    | waiting t => rfl
  spec := by
    intro s c later log X hr hc
    rw [List.append_assoc] at hc
    have h₁ := hx.spec s c later log _ hr hc
    rw [bind_apply]
    cases hg : g s with
    | done u t =>
      rw [hg] at h₁
      obtain ⟨r,hs,hr'⟩ := h₁
      have hl : ChunkCursor.total ms ≤ c.flatten.length := by
        rw [hc,hx.total,List.length_append]
        omega
      have hrest : (c.run ms).flatten=cs++X := by
        rw [flatten_run hr.regular hx.sound hl,hc,hx.total,List.drop_left]
      have h₂ := hf.spec (putReader r t) (c.run ms) later log X hr' hrest
      rw [hf.frame] at h₂
      rw [Outcome.andThen_done,bind_apply,hs,Outcome.andThen_done]
      cases hh : h t with
      | done v w =>
        rw [hh] at h₂
        rw [run_append]
        exact h₂
      | thrown e w =>
        rw [hh] at h₂
        exact h₂
      | waiting w =>
        rw [hh] at h₂
        exact h₂
    | thrown e t =>
      rw [hg] at h₁
      obtain ⟨t',hs⟩ := h₁
      exact ⟨t',by rw [bind_apply,hs,Outcome.andThen_thrown]⟩
    | waiting t =>
      rw [hg] at h₁
      exact h₁

/-- An operation ended as an effect does: it returned a value, set the fields
that the effect sets and left the rest of the packet, or it threw the error of
the effect. -/
def Leaves (a : α) (X later : List UInt8) (log : List ℕ) (o : Outcome Error Protocol.State α)
    (e : Outcome Error Protocol.State Unit) : Prop :=
  match e with
  | .done _ t => ∃ r,o=.done a (putReader r t) ∧ Represents r ⟨X,[]⟩ later log
  | .thrown err _ => ∃ t,o=.thrown err t
  | .waiting _ => False

/-- The reader that the effect started with does not matter. -/
theorem Leaves.of_mapState {a : α} {X later : List UInt8} {log : List ℕ}
    {o : Outcome Error Protocol.State α} {e : Outcome Error Protocol.State Unit} {r : Reader.State}
    (h : Leaves a X later log o (e.mapState (putReader r))) : Leaves a X later log o e := by
  cases e with
  | done u t => exact h
  | thrown err t => exact h
  | waiting t => exact h

/-- What follows goes on from what was left. -/
theorem Leaves.andThen {a : α} {b : β} {X Y later : List UInt8} {log : List ℕ}
    {o : Outcome Error Protocol.State α} {e : Outcome Error Protocol.State Unit} {f : α → Proto β}
    {g : Unit → Proto Unit} (h : Leaves a X later log o e)
    (hf : ∀ r t,o=.done a (putReader r t) → e=.done () t → Represents r ⟨X,[]⟩ later log →
      Leaves b Y later log (f a (putReader r t)) (g () t)) :
    Leaves b Y later log (o.andThen f) (e.andThen g) := by
  cases e with
  | done u t =>
    obtain ⟨r,ho,hr⟩ := h
    rw [ho]
    exact hf r t ho rfl hr
  | thrown err t =>
    obtain ⟨t',ho⟩ := h
    rw [ho]
    exact ⟨t',rfl⟩
  | waiting t => exact absurd h id

/-- Returning another value leaves the same. -/
theorem Leaves.returns {a : α} {X later : List UInt8} {log : List ℕ}
    {o : Outcome Error Protocol.State α} {e : Outcome Error Protocol.State Unit}
    (h : Leaves a X later log o e) (b : β) :
    Leaves b X later log (o.andThen fun _ => pure b) e := by
  cases e with
  | done u t =>
    obtain ⟨r,ho,hr⟩ := h
    exact ⟨r,by rw [ho]; rfl,hr⟩
  | thrown err t =>
    obtain ⟨t',ho⟩ := h
    exact ⟨t',by rw [ho]; rfl⟩
  | waiting t => exact absurd h id

/-- Within the last packet, the operation leaves what follows its bytes. -/
theorem Consumes.last {x : Proto α} {ms : List Move} {bs X : List UInt8} {a : α} {g : Proto Unit}
    (h : Consumes x ms bs a g) {s : Protocol.State} {later : List UInt8} {log : List ℕ}
    (hr : Represents s.reader ⟨bs++X,[]⟩ later log) : Leaves a X later log (x s) (g s) := by
  have hs := h.spec s _ later log X hr
    (by simp only [Cursor.flatten,List.flatMap_nil,List.append_nil])
  rwa [run_last h.sound h.total] at hs

/-- A text with its length before it. -/
def lenencText (t : List UInt8) : List UInt8 := lenenc t.length++t

/-- Texts that fit the receive buffer. -/
def IsShort (t : List UInt8) : Prop := t.length+4 ≤ bufferLen

/-- A short text with its length is read back. -/
theorem reads_lenencText {t : List UInt8} (h : IsShort t) :
    Reads readShortLenencBytes (blobMoves t) (lenencText t) t := by
  have hb : t.length+4 ≤ 8*1024 := h
  refine (reads_lenenc (n:=t.length) (by omega)).bind ?_
  have hneg : ¬((t.length : ℤ) ≤ -1) := by omega
  rw [if_neg hneg]
  exact reads_shortBytes t h

/-- A change of the session state that an OK packet reports. -/
inductive SessionChange where
  /-- A system variable has a new value. -/
  | sysVar (name value : List UInt8)
  /-- The default schema changed. -/
  | schema (name : List UInt8)
  /-- A kind of change that the client skips. -/
  | other (type : UInt8) (data : List UInt8)
deriving DecidableEq, Repr

/-- The bytes of a session state change. -/
def SessionChange.bytes : SessionChange → List UInt8
  | .sysVar name value =>
    leBytes 1 0++(lenenc (lenencText name++lenencText value).length++(lenencText name++lenencText value))
  | .schema name => leBytes 1 1++(lenenc (lenencText name).length++lenencText name)
  | .other type data => leBytes 1 type.toNat++lenencText data

/-- The changes a client can read. -/
def SessionChange.Valid : SessionChange → Prop
  | .sysVar name value => IsShort name ∧ IsShort value
  | .schema name => IsShort name
  | .other type data => type≠0 ∧ type≠1 ∧ IsShort data

/-- What a session state change does. -/
def SessionChange.effect (cfg : Config) : SessionChange → Proto Unit
  | .sysVar name value =>
    if name=text "character_set_client" then setCharacterSetClient value
    else if name=text "character_set_results" then setCharacterSetResults value
    else if name=text "time_zone" then setTimeZone cfg value
    else pure ()
  | .schema name => modify fun s => {s with schema := name}
  | .other _ _ => pure ()

/-- The steps that read a session state change. -/
def SessionChange.moves : SessionChange → List Move
  | .sysVar name value => [.number 1 1]++
      ([.number 9 (lenenc (lenencText name++lenencText value).length).length]++
        (blobMoves name++blobMoves value))
  | .schema name => [.number 1 1]++
      ([.number 9 (lenenc (lenencText name).length).length]++blobMoves name)
  | .other _ data => [.number 1 1]++blobMoves data

/-- The effect of a change does not touch the reader. -/
theorem SessionChange.effect_frame (cfg : Config) (ch : SessionChange) (s : Protocol.State)
    (r : Reader.State) :
    ch.effect cfg (putReader r s)=(ch.effect cfg s).mapState (putReader r) := by
  cases ch with
  | sysVar name value =>
    simp only [SessionChange.effect,setCharacterSetClient,setCharacterSetResults,setTimeZone]
    split_ifs <;> rfl
  | schema name => rfl
  | other type data => rfl

/-- A change takes effect, or it is a value that the client cannot use. -/
theorem SessionChange.effect_cases (cfg : Config) (ch : SessionChange) (s : Protocol.State) :
    (∃ t,ch.effect cfg s=.done () t ∧ t.statusFlags=s.statusFlags ∧ t.reader=s.reader) ∨
      ∃ m,ch.effect cfg s=.thrown (.error m) s := by
  cases ch with
  | sysVar name value =>
    simp only [SessionChange.effect,setCharacterSetClient,setCharacterSetResults,setTimeZone]
    split_ifs <;> first
      | exact .inl ⟨_,rfl,rfl,rfl⟩
      | exact .inr ⟨_,rfl⟩
  | schema name => exact .inl ⟨_,rfl,rfl,rfl⟩
  | other type data => exact .inl ⟨_,rfl,rfl,rfl⟩

/-- Reading a value and going on with it has the effect of what follows. -/
theorem Consumes.readBind {x : Read α} {f : α → Proto β} {ms ns : List Move} {bs cs : List UInt8}
    {a : α} {b : β} {h : Proto Unit} (hx : Reads x ms bs a) (hf : Consumes (f a) ns cs b h) :
    Consumes (read x >>= f) (ms++ns) (bs++cs) b h :=
  (consumes_read hx).bind hf

/-- An effect at the end reads nothing more. -/
theorem Consumes.readLast {x : Read α} {f : α → Proto Unit} {ms : List Move} {bs : List UInt8}
    {a : α} {h : Proto Unit} (hx : Reads x ms bs a) (hf : Consumes (f a) [] [] () h) :
    Consumes (read x >>= f) ms bs () h := by
  have hb := Consumes.readBind hx hf
  rwa [List.append_nil,List.append_nil] at hb

/-- Setting fields other than the reader never waits. -/
theorem consumes_modify {u : Protocol.State → Protocol.State}
    (hu : ∀ s r,u (putReader r s)=putReader r (u s)) :
    Consumes (modify u) [] [] () (modify u) := by
  refine consumes_effect ?_ ?_
  · intro s r
    rw [modify_apply,modify_apply,hu,Outcome.mapState_done]
  · intro s t he
    cases he

/-- A short text with its length is not long. -/
theorem lenencText_length {t : List UInt8} (h : IsShort t) : (lenencText t).length < 2^14 := by
  have h9 := (lenenc_length t.length).2
  have hb : t.length+4 ≤ 8*1024 := h
  rw [lenencText,List.length_append]
  omega

/-- A session state change is read back. -/
theorem consumes_sessionChange (cfg : Config) {ch : SessionChange} (h : ch.Valid) :
    Consumes (readSessionChange cfg) ch.moves ch.bytes () (ch.effect cfg) := by
  have hw : ∀ s t,ch.effect cfg s≠.waiting t := by
    intro s t he
    rcases ch.effect_cases cfg s with ⟨t',ht,-⟩|⟨m,hm⟩
    · rw [ht] at he
      cases he
    · rw [hm] at he
      cases he
  have heff := consumes_effect (ch.effect_frame cfg) hw
  cases ch with
  | sysVar name value =>
    have hn := lenencText_length h.1
    have hv := lenencText_length h.2
    have hl : (lenencText name++lenencText value).length < 2^64 := by
      rw [List.length_append]
      omega
    refine Consumes.readBind (reads_uint8 (n:=0) (by decide)) ?_
    refine Consumes.readBind (reads_lenenc hl) ?_
    refine Consumes.readBind (reads_lenencText h.1) ?_
    exact Consumes.readLast (reads_lenencText h.2) heff
  | schema name =>
    have hn := lenencText_length h
    have hl : (lenencText name).length < 2^64 := by omega
    refine Consumes.readBind (reads_uint8 (n:=1) (by decide)) ?_
    refine Consumes.readBind (reads_lenenc hl) ?_
    exact Consumes.readLast (reads_lenencText h) heff
  | other type data =>
    have h0 : type.toNat≠0 := fun he => h.1 (UInt8.toNat_inj.mp he)
    have h1 : type.toNat≠1 := fun he => h.2.1 (UInt8.toNat_inj.mp he)
    have hdata := Consumes.readLast (f:=fun _ => pure ()) (reads_lenencText h.2.2) heff
    refine Consumes.readBind (reads_uint8 type.toNat_lt) ?_
    rw [if_neg h0,if_neg h1]
    exact hdata

/-- What follows the numbers of an OK packet must be readable without them:
the session is tracked only when the packet has status flags. -/
def Sane (c : Capabilities) : Prop :=
  c.sessionTrack=true → c.protocol41=true ∨ c.transactions=true

/-- The fields of an OK packet. -/
structure OkPacket where
  /-- The affected rows. -/
  affectedRows : ℕ
  /-- The last inserted id. -/
  lastInsertId : ℕ
  /-- The status flags. -/
  statusFlags : UInt16
  /-- The number of warnings. -/
  warnings : UInt16
  /-- The information text, when it is sent. -/
  info : Option (List UInt8) := none
  /-- The changes of the session state. -/
  changes : List SessionChange := []
deriving DecidableEq, Repr

/-- The bytes of the session state changes. -/
def OkPacket.changesBytes (p : OkPacket) : List UInt8 := p.changes.flatMap SessionChange.bytes

/-- The status flags and the warnings on the wire. -/
def OkPacket.statusBytes (c : Capabilities) (p : OkPacket) : List UInt8 :=
  if c.protocol41=true then leBytes 2 p.statusFlags.toNat++leBytes 2 p.warnings.toNat
  else if c.transactions=true then leBytes 2 p.statusFlags.toNat
  else []

/-- What follows the numbers on the wire. -/
def OkPacket.infoBytes (c : Capabilities) (p : OkPacket) : List UInt8 :=
  match p.info with
  | none => []
  | some t =>
    if c.sessionTrack=true then lenencText t++
      if p.statusFlags.toNat.testBit 14=true then lenencText p.changesBytes else []
    else t

/-- The bytes of an OK packet after its first byte. -/
def OkPacket.body (c : Capabilities) (p : OkPacket) : List UInt8 :=
  (lenenc p.affectedRows++(lenenc p.lastInsertId++p.statusBytes c))++p.infoBytes c

/-- The OK packets that servers send. -/
structure OkPacket.Valid (c : Capabilities) (p : OkPacket) : Prop where
  /-- The affected rows fit a word. -/
  affectedRows : p.affectedRows < 2^64
  /-- The last inserted id fits a word. -/
  lastInsertId : p.lastInsertId < 2^64
  /-- The text is short. -/
  info : ∀ t ∈ p.info,IsShort t
  /-- The changes are readable. -/
  changes : ∀ ch ∈ p.changes,ch.Valid
  /-- The whole packet is not split. -/
  length : (p.body c).length+1 < maxPayload

/-- The effects of several session state changes. -/
def changesEffect (cfg : Config) : List SessionChange → Proto Unit
  | [] => pure ()
  | ch::chs => do
    ch.effect cfg
    changesEffect cfg chs

/-- What the numbers of an OK packet do. -/
def OkPacket.setNumbers (c : Capabilities) (p : OkPacket) (s : Protocol.State) : Protocol.State :=
  {s with
    affectedRows := p.affectedRows
    lastInsertId := p.lastInsertId
    statusFlags :=
      if c.protocol41=true ∨ c.transactions=true then p.statusFlags.toNat else s.statusFlags
    warnings := if c.protocol41=true then p.warnings.toNat else s.warnings}

/-- What the rest of an OK packet does. -/
def OkPacket.infoEffect (cfg : Config) (p : OkPacket) : Proto Unit :=
  match p.info with
  | none => pure ()
  | some t =>
    if cfg.capabilities.sessionTrack=true then do
      modify fun s => {s with statusInfo := t}
      if p.statusFlags.toNat.testBit 14=true then changesEffect cfg p.changes else pure ()
    else if t=[] then pure ()
    else modify fun s => {s with statusInfo := eofText t}

/-- What an OK packet does. -/
def OkPacket.effect (cfg : Config) (p : OkPacket) : Proto Unit := do
  modify (p.setNumbers cfg.capabilities)
  p.infoEffect cfg

/-- The effects of changes do not touch the reader. -/
theorem changesEffect_frame (cfg : Config) (chs : List SessionChange) (s : Protocol.State)
    (r : Reader.State) :
    changesEffect cfg chs (putReader r s)=(changesEffect cfg chs s).mapState (putReader r) := by
  induction chs generalizing s with
  | nil => rfl
  | cons ch chs ih =>
    rw [changesEffect,bind_apply,bind_apply,SessionChange.effect_frame]
    cases ch.effect cfg s with
    | done a t => exact ih t
    | thrown e t => rfl
    | waiting t => rfl

/-- Every session state change has a byte. -/
theorem changes_length (chs : List SessionChange) :
    chs.length ≤ (chs.flatMap SessionChange.bytes).length := by
  induction chs with
  | nil => exact Nat.zero_le _
  | cons ch chs ih =>
    have hch : 0 < ch.bytes.length := by
      cases ch <;> simp [SessionChange.bytes,leBytes]
    rw [List.flatMap_cons,List.length_append,List.length_cons]
    omega

/-- Session state changes at the end of a packet are read to its end. -/
theorem readSessionChanges_spec (cfg : Config) {chs : List SessionChange}
    (hv : ∀ ch ∈ chs,ch.Valid) {s : Protocol.State} {later : List UInt8} {log : List ℕ} {bound : ℤ}
    {fuel : ℕ} (hr : Represents s.reader ⟨chs.flatMap SessionChange.bytes,[]⟩ later log)
    (hb : bound=s.reader.payloadLength) (hfuel : chs.length < fuel) :
    Leaves () [] later log (readSessionChanges cfg bound fuel s) (changesEffect cfg chs s) := by
  induction chs generalizing s fuel with
  | nil =>
    obtain ⟨fuel,rfl⟩ := Nat.exists_eq_succ_of_ne_zero (by omega : fuel≠0)
    have hleft : (s.reader.payloadLength : ℤ)-s.reader.packetOffset=0 := hr.left
    have hnot : ¬(s.reader.packetOffset < bound) := by omega
    refine ⟨s.reader,?_,hr⟩
    simp only [readSessionChanges,bind_apply,get_apply,Outcome.andThen_done,branch_apply,if_neg hnot,
      pure_apply]
    rfl
  | cons ch chs ih =>
    obtain ⟨fuel,rfl⟩ := Nat.exists_eq_succ_of_ne_zero (by omega : fuel≠0)
    have hlength := changes_length [ch]
    have hleft : (s.reader.payloadLength : ℤ)-s.reader.packetOffset=
        ((ch::chs).flatMap SessionChange.bytes).length := hr.left
    rw [List.flatMap_cons,List.length_append] at hleft
    simp only [List.flatMap_cons,List.flatMap_nil,List.append_nil,List.length_singleton] at hlength
    have hlt : s.reader.packetOffset < bound := by omega
    rw [List.flatMap_cons] at hr
    have hg := (grows_readSessionChange cfg s).reader
    have hs := (consumes_sessionChange cfg (hv ch List.mem_cons_self)).last hr
    simp only [readSessionChanges,changesEffect,bind_apply,get_apply,Outcome.andThen_done,
      branch_apply,if_pos hlt]
    refine hs.andThen ?_
    intro r t hx he hr'
    rw [hx] at hg
    have hheaders : r.headers=s.reader.headers := by
      have h₁ := hr.headers
      have h₂ := hr'.headers
      rw [headerLog,List.append_nil] at h₁ h₂
      rw [h₁,h₂]
    have hpay : r.payloadLength=s.reader.payloadLength := hg.payload hheaders
    have hi := ih (s:=putReader r t) (fun c hc => hv c (List.mem_cons_of_mem _ hc)) hr'
      (by rw [hb,←hpay]; rfl) (Nat.lt_of_succ_lt_succ hfuel)
    rw [changesEffect_frame] at hi
    exact hi.of_mapState

/-- Going to the end of the packet has no effect on the other fields. -/
theorem leaves_gotoEndOfPacket {s : Protocol.State} {X later : List UInt8} {log : List ℕ}
    (hr : Represents s.reader ⟨X,[]⟩ later log) :
    Leaves () [] later log (read gotoEndOfPacket s) (.done () s) := by
  obtain ⟨r,hs,hr'⟩ := gotoEndOfPacket_spec hr
  refine ⟨r,?_,hr'⟩
  rw [read_apply,hs]
  rfl

/-- The session state changes of an OK packet are read to the end of the
packet. -/
theorem readChanges_spec (cfg : Config) {p : OkPacket} (hv : p.Valid cfg.capabilities)
    {s : Protocol.State} {later : List UInt8} {log : List ℕ}
    (hl : p.statusFlags.toNat.testBit 14=true → p.changesBytes.length < 2^64)
    (hr : Represents s.reader
      ⟨if p.statusFlags.toNat.testBit 14=true then lenencText p.changesBytes else [],[]⟩ later log)
    (hst : s.statusFlags=p.statusFlags.toNat) :
    Leaves () [] later log (readChanges cfg s)
      ((if p.statusFlags.toNat.testBit 14=true then changesEffect cfg p.changes else pure ()) s) := by
  simp only [readChanges,bind_apply,get_apply,Outcome.andThen_done,branch_apply,hst]
  by_cases hbit : p.statusFlags.toNat.testBit 14=true
  · rw [if_pos hbit] at hr ⊢
    rw [if_pos hbit]
    obtain ⟨r,hs,hr'⟩ := (consumes_read (reads_lenenc (hl hbit))).last hr
    have hleft : (r.payloadLength : ℤ)-r.packetOffset=p.changesBytes.length := hr'.left
    have hfuel : p.changes.length < r.rest.length+1 := by
      have h₁ := changes_length p.changes
      have h₂ : p.changesBytes.length ≤ r.rest.length := hr'.received
      unfold OkPacket.changesBytes at h₂
      omega
    have hc := readSessionChanges_spec cfg hv.changes (s:=putReader r s) hr'
      (show r.packetOffset+p.changesBytes.length=r.payloadLength by omega) hfuel
    rw [changesEffect_frame] at hc
    rw [hs]
    simp only [Outcome.andThen_done,bind_apply,get_apply]
    have hend := hc.of_mapState.andThen (f:=fun _ => read gotoEndOfPacket) (g:=pure)
      (fun r' t _ _ hr'' => leaves_gotoEndOfPacket (s:=putReader r' t) hr'')
    have hpure : ∀ o : Outcome Error Protocol.State Unit,o.andThen pure=o := by
      intro o
      cases o <;> rfl
    rw [hpure] at hend
    exact hend
  · rw [if_neg hbit] at hr ⊢
    rw [if_neg hbit]
    exact leaves_gotoEndOfPacket hr

/-- The rest of an OK packet is read to the end of the packet. -/
theorem readOkInfo_spec (cfg : Config) {p : OkPacket} (hv : p.Valid cfg.capabilities)
    {s : Protocol.State} {later : List UInt8} {log : List ℕ}
    (hr : Represents s.reader ⟨p.infoBytes cfg.capabilities,[]⟩ later log)
    (hst : cfg.capabilities.sessionTrack=true → s.statusFlags=p.statusFlags.toNat) :
    Leaves () [] later log (readOkInfo cfg s) (p.infoEffect cfg s) := by
  have hend := hr.isAtEndOfPacket
  have hx : readOkInfo cfg s=if p.infoBytes cfg.capabilities=[] then .done () s
      else if cfg.capabilities.sessionTrack=true then readTrackedInfo cfg s else readPlainInfo s := by
    simp only [readOkInfo,bind_apply,get_apply,Outcome.andThen_done,branch_apply,hend,
      decide_eq_true_eq,pure_apply]
  rw [hx]
  unfold OkPacket.infoBytes at hr ⊢
  unfold OkPacket.infoEffect
  have hlen := hv.length
  unfold OkPacket.body OkPacket.infoBytes at hlen
  cases hinfo : p.info with
  | none =>
    rw [hinfo] at hr
    exact ⟨s.reader,rfl,hr⟩
  | some t =>
    rw [hinfo] at hr hlen
    have ht : IsShort t := hv.info t hinfo
    dsimp only at hr hlen ⊢
    by_cases hst' : cfg.capabilities.sessionTrack=true
    · rw [if_pos hst'] at hr hlen
      simp only [if_pos hst']
      have hne : ∀ X : List UInt8,lenencText t++X≠[] := by
        intro X he
        have h0 := (lenenc_length t.length).1
        have hl := congrArg List.length he
        rw [lenencText,List.length_append,List.length_append,List.length_nil] at hl
        omega
      rw [if_neg (hne _)]
      have hchanges : p.statusFlags.toNat.testBit 14=true → p.changesBytes.length < 2^64 := by
        intro hbit
        rw [if_pos hbit] at hlen
        have hm : maxPayload < 2^64 := by decide
        simp only [lenencText,List.length_append] at hlen
        omega
      obtain ⟨r,hs,hr'⟩ := (consumes_read (reads_lenencText ht)).last hr
      have hx : readTrackedInfo cfg s=readChanges cfg (putReader r {s with statusInfo := t}) := by
        simp only [readTrackedInfo,bind_apply,hs,Outcome.andThen_done,modify_apply]
        rfl
      have hc := readChanges_spec cfg hv (s:=putReader r {s with statusInfo := t}) hchanges hr'
        (hst hst')
      have hframe : (if p.statusFlags.toNat.testBit 14=true then changesEffect cfg p.changes
            else pure ()) (putReader r {s with statusInfo := t})=
          ((if p.statusFlags.toNat.testBit 14=true then changesEffect cfg p.changes
            else pure ()) {s with statusInfo := t}).mapState (putReader r) := by
        split
        · exact changesEffect_frame cfg p.changes _ r
        · rfl
      rw [hframe] at hc
      rw [hx]
      exact hc.of_mapState
    · rw [if_neg hst'] at hr
      simp only [if_neg hst']
      by_cases hne : t=[]
      · subst hne
        exact ⟨s.reader,by rw [if_pos rfl]; rfl,hr⟩
      · rw [if_neg hne,if_neg hne]
        have hb : t.length ≤ bufferLen := by
          have h : t.length+4 ≤ bufferLen := ht
          omega
        obtain ⟨r,hs,hr'⟩ := readShortEofBytes_spec hr hb
        refine ⟨r,?_,hr'⟩
        simp only [readPlainInfo,bind_apply,read_apply,hs,Outcome.mapState_done,
          Outcome.andThen_done,modify_apply]
        rfl

/-- The same effect written in another way. -/
theorem Consumes.congr {x : Proto α} {ms : List Move} {bs : List UInt8} {a : α} {g h : Proto Unit}
    (hx : Consumes x ms bs a g) (he : ∀ s,g s=h s) : Consumes x ms bs a h := by
  have hg : g=h := funext he
  rwa [←hg]

/-- Setting fields before reading has both effects. -/
theorem Consumes.modifyBind {u : Protocol.State → Protocol.State} {x : Proto α} {ms : List Move}
    {bs : List UInt8} {a : α} {h : Proto Unit} (hu : ∀ s r,u (putReader r s)=putReader r (u s))
    (hx : Consumes x ms bs a h) :
    Consumes (modify u >>= fun _ => x) ms bs a (modify u >>= fun _ => h) :=
  (consumes_modify hu).bind hx

/-- Reading a number at the end of what is read, and setting a field to it. -/
theorem Consumes.readSet {x : Read β} {ms : List Move} {bs : List UInt8} {b : β}
    {u : β → Protocol.State → Protocol.State} (hx : Reads x ms bs b)
    (hu : ∀ s r,u b (putReader r s)=putReader r (u b s)) :
    Consumes (read x >>= fun v => modify (u v)) ms bs () (modify (u b)) :=
  Consumes.readLast hx (consumes_modify hu)

/-- Reading a number, setting a field to it, and going on. -/
theorem Consumes.readSetBind {x : Read β} {ms ns : List Move} {bs cs : List UInt8} {b : β} {a : α}
    {u : β → Protocol.State → Protocol.State} {y : Proto α} {h : Proto Unit} (hx : Reads x ms bs b)
    (hu : ∀ s r,u b (putReader r s)=putReader r (u b s)) (hy : Consumes y ns cs a h) :
    Consumes (read x >>= fun v => modify (u v) >>= fun _ => y) (ms++ns) (bs++cs) a
      (modify (u b) >>= fun _ => h) :=
  Consumes.readBind hx (Consumes.modifyBind hu hy)

/-- The steps that read the status flags and the warnings. -/
def statusMoves (c : Capabilities) : List Move :=
  if c.protocol41=true then [.number 2 2]++[.number 2 2]
  else if c.transactions=true then [.number 2 2] else []

/-- What the status flags and the warnings of an OK packet do. -/
def OkPacket.setStatus (c : Capabilities) (p : OkPacket) (s : Protocol.State) : Protocol.State :=
  {s with
    statusFlags :=
      if c.protocol41=true ∨ c.transactions=true then p.statusFlags.toNat else s.statusFlags
    warnings := if c.protocol41=true then p.warnings.toNat else s.warnings}

/-- The status flags and the warnings of an OK packet are read back. -/
theorem consumes_readOkStatus (cfg : Config) (p : OkPacket) :
    Consumes (readOkStatus cfg) (statusMoves cfg.capabilities) (p.statusBytes cfg.capabilities) ()
      (modify (p.setStatus cfg.capabilities)) := by
  have hflags := reads_uint16 (n:=p.statusFlags.toNat) p.statusFlags.toNat_lt
  have hwarnings := reads_uint16 (n:=p.warnings.toNat) p.warnings.toNat_lt
  unfold readOkStatus statusMoves OkPacket.statusBytes
  by_cases h41 : cfg.capabilities.protocol41=true
  · simp only [h41,if_true]
    refine (Consumes.readSetBind hflags (by intro _ _; rfl)
      (Consumes.readSet hwarnings (by intro _ _; rfl))).congr ?_
    intro s
    simp only [bind_apply,modify_apply,Outcome.andThen_done,OkPacket.setStatus,h41,true_or,if_true]
  · by_cases htr : cfg.capabilities.transactions=true
    · simp only [if_neg h41,htr,if_true]
      refine (Consumes.readSet hflags (by intro _ _; rfl)).congr ?_
      intro s
      simp only [modify_apply,OkPacket.setStatus,htr,or_true,if_true,if_neg h41]
    · simp only [if_neg h41,if_neg htr]
      refine (consumes_modify (u:=id) (by intro _ _; rfl)).congr ?_
      intro s
      simp only [modify_apply,OkPacket.setStatus,or_self,h41,htr]
      rfl

/-- The steps that read the numbers of an OK packet. -/
def OkPacket.numberMoves (c : Capabilities) (p : OkPacket) : List Move :=
  [.number 9 (lenenc p.affectedRows).length]++
    ([.number 9 (lenenc p.lastInsertId).length]++statusMoves c)

/-- The numbers of an OK packet are read back. -/
theorem consumes_readOkNumbers (cfg : Config) {p : OkPacket} (hv : p.Valid cfg.capabilities) :
    Consumes (readOkNumbers cfg) (p.numberMoves cfg.capabilities)
      (lenenc p.affectedRows++(lenenc p.lastInsertId++p.statusBytes cfg.capabilities)) ()
      (modify (p.setNumbers cfg.capabilities)) := by
  refine (Consumes.readSetBind (reads_lenenc hv.affectedRows) (by intro _ _; rfl)
    (Consumes.readSetBind (reads_lenenc hv.lastInsertId) (by intro _ _; rfl)
      (consumes_readOkStatus cfg p))).congr ?_
  intro s
  rfl

/-- The effect of the information text does not touch the reader. -/
theorem OkPacket.infoEffect_frame (cfg : Config) (p : OkPacket) (s : Protocol.State)
    (r : Reader.State) :
    p.infoEffect cfg (putReader r s)=(p.infoEffect cfg s).mapState (putReader r) := by
  unfold OkPacket.infoEffect
  cases p.info with
  | none => rfl
  | some text =>
    dsimp only
    split_ifs
    · exact changesEffect_frame cfg p.changes {s with statusInfo := text} r
    · rfl
    · rfl
    · rfl

/-- The effect of an OK packet does not touch the reader. -/
theorem OkPacket.effect_frame (cfg : Config) (p : OkPacket) (s : Protocol.State)
    (r : Reader.State) : p.effect cfg (putReader r s)=(p.effect cfg s).mapState (putReader r) :=
  p.infoEffect_frame cfg (p.setNumbers cfg.capabilities s) r

/-- An OK packet is read back to its end. -/
theorem readOk_spec (cfg : Config) (hsane : Sane cfg.capabilities) {p : OkPacket}
    (hv : p.Valid cfg.capabilities) {s : Protocol.State} {later : List UInt8} {log : List ℕ}
    (hr : Represents s.reader ⟨p.body cfg.capabilities,[]⟩ later log) :
    Leaves () [] later log (readOk cfg s) (p.effect cfg s) := by
  have hn := (consumes_readOkNumbers cfg hv).last hr
  refine Leaves.andThen (f:=fun _ => readOkInfo cfg) (g:=fun _ => p.infoEffect cfg) hn ?_
  intro r t hx he hr'
  have hst : cfg.capabilities.sessionTrack=true → t.statusFlags=p.statusFlags.toNat := by
    intro htrack
    rw [modify_apply] at he
    injection he with _ ht
    subst ht
    exact if_pos (hsane htrack)
  have hi := readOkInfo_spec cfg hv (s:=putReader r t) hr' hst
  rw [OkPacket.infoEffect_frame] at hi
  exact hi.of_mapState

/-- The bytes of an EOF packet after its first byte. -/
def eofBytes (c : Capabilities) (warnings statusFlags : UInt16) : List UInt8 :=
  if c.protocol41=true then leBytes 2 warnings.toNat++leBytes 2 statusFlags.toNat else []

/-- What an EOF packet does. -/
def setEof (c : Capabilities) (warnings statusFlags : UInt16) (s : Protocol.State) :
    Protocol.State :=
  if c.protocol41=true then {s with warnings := warnings.toNat, statusFlags := statusFlags.toNat}
  else s

/-- An EOF packet is read back to its end. -/
theorem readEof_spec (cfg : Config) (warnings statusFlags : UInt16) {s : Protocol.State}
    {later : List UInt8} {log : List ℕ}
    (hr : Represents s.reader ⟨eofBytes cfg.capabilities warnings statusFlags,[]⟩ later log) :
    ∃ r,readEof cfg s=.done () (putReader r (setEof cfg.capabilities warnings statusFlags s)) ∧
      Represents r ⟨[],[]⟩ later log := by
  unfold eofBytes at hr
  unfold readEof setEof
  by_cases h41 : cfg.capabilities.protocol41=true
  · rw [if_pos h41] at hr ⊢
    simp only [if_pos h41]
    obtain ⟨r₁,h₁,hr₁⟩ := (consumes_read (reads_uint16 warnings.toNat_lt)).last hr
    rw [←List.append_nil (leBytes 2 statusFlags.toNat)] at hr₁
    have h₂ := (consumes_read (reads_uint16 statusFlags.toNat_lt)).last
      (s:=putReader r₁ {s with warnings := warnings.toNat}) hr₁
    obtain ⟨r₂,h₂,hr₂⟩ := h₂
    obtain ⟨r₃,h₃,hr₃⟩ := leaves_gotoEndOfPacket (s:=putReader r₂
      {s with warnings := warnings.toNat, statusFlags := statusFlags.toNat}) hr₂
    refine ⟨r₃,?_,hr₃⟩
    simp only [bind_apply,h₁,Outcome.andThen_done,modify_apply]
    change (Protocol.read readUint16 (putReader r₁ {s with warnings := warnings.toNat})).andThen _=_
    rw [h₂]
    exact h₃
  · rw [if_neg h41] at hr ⊢
    simp only [if_neg h41]
    exact leaves_gotoEndOfPacket hr

end SpiritMysql.Replies
