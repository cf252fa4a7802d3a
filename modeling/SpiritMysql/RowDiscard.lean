import Mathlib.Data.List.Chain
import SpiritMysql.FetchRun
import SpiritMysql.ProtocolOrder

/-!
# Discarding rows

`#doDiscard()` passes packet after packet and looks at the first byte of each.
It does not know which packets begin rows, so a packet that continues a row,
or an empty packet at the end of one, can be taken for OK, EOF or ERR.
-/

namespace SpiritMysql.RowDiscard

open AsyncAction ByteCodec ChunkCursor ColumnValues Errors FetchRun PacketReads PacketStream Protocol
  ProtocolOrder ReadOrder ReadScript Reader Replies Results RowFetch RowReader RowStream

/-- The mode in which packets of rows are discarded. -/
def discardMode (isPreparedStmt : Bool) : ReadPacketMode :=
  if isPreparedStmt=true then .ROWS_OR_PREPARED_STMT else .REGULAR

/-- What is taken for the type of a packet that another one follows: its first
byte, or when it is empty, the first byte of the next header. -/
def seenType (p q : Packet) : UInt8 := p.2.headD (UInt8.ofNat q.2.length)

/-- A packet that another one follows is not taken for OK, EOF or ERR. -/
def Passed (isPreparedStmt : Bool) (p q : Packet) : Prop :=
  (seenType p q=0 → isPreparedStmt=true) ∧ (seenType p q=0xFE → 9 ≤ p.2.length) ∧ seenType p q≠0xFF

instance (isPreparedStmt : Bool) (p q : Packet) : Decidable (Passed isPreparedStmt p q) := by
  unfold Passed
  exact inferInstance

/-- A frame begins with the low byte of its length. -/
theorem frame_head (q : Packet) (X : List UInt8) :
    ∃ Y,frame q++X=UInt8.ofNat q.2.length::Y := ⟨_,rfl⟩

/-- Entering an empty packet reads the first byte of what follows it. -/
theorem readPacket_empty (cfg : Config) {mode : ReadPacketMode}
    (hmode : mode≠.PREPARED_STMT_OK_CONTINUATION) {s : Protocol.State} {id b : UInt8}
    {Y later : List UInt8} {log : List ℕ} (h : Begins s [(id,[])] later log) (hl : later=b::Y) :
    ∃ r : Reader.State,readPacket cfg mode s=readPacketBody cfg mode b.toNat (putReader (r.advance 1) s) ∧
      r.rest=later ∧ r.payloadLength=0 ∧ r.packetOffset=0 ∧
      r.headers=s.reader.headers++[s.reader.rest.length] := by
  obtain ⟨r,hr,hlen,hoff,hrep⟩ := readPacketHeader_spec h.rest h.regular h.headers
  have hrest : r.rest=later := hrep.rest
  have hlog : r.headers++[]=s.reader.headers++[s.reader.rest.length] := by
    have hl := hrep.headers
    rw [←h.headers] at hl
    rw [h.rest]
    exact hl
  have hlen' : r.payloadLength=0 := hlen
  refine ⟨r,?_,hrest,hlen',hoff,by rwa [List.append_nil] at hlog⟩
  have hreserve : reserve 1 r=.done () r := by
    unfold reserve
    rw [hoff,if_neg (by decide)]
  have hrecv : recvAtLeast 1 r=.done () r := recvAtLeast_done (by rw [hrest,hl]; simp) (by decide)
  have htake : r.rest.take 1=[b] := by rw [hrest,hl]; rfl
  have hbyte : readUint8 r=.done b.toNat (r.advance 1) := by
    have hn : leNat [b]=b.toNat := by simp [leNat]
    simp only [readUint8,readFixed,bind_apply,hreserve,Outcome.andThen_done,hrecv,take,htake,hn,
      pure_apply]
  unfold readPacket
  rw [if_neg hmode]
  simp only [bind_apply,read_apply,hr,Outcome.mapState_done,Outcome.andThen_done,hbyte]
  rfl

/-- Putting back the byte that did not belong to an empty packet. -/
theorem gotoEndOfPacket_empty {r : Reader.State} {b : UInt8} {Y : List UInt8} (hr : r.rest=b::Y)
    (hlen : r.payloadLength=0) (hoff : r.packetOffset=0) :
    ∃ r',gotoEndOfPacket (r.advance 1)=.done () r' ∧ r'.rest=r.rest ∧ r'.headers=r.headers := by
  have hleft : (r.advance 1).lenInCurPacket= -1 := by
    change (r.payloadLength : ℤ)-(r.packetOffset+1)= -1
    rw [hlen,hoff]
    rfl
  have hback : gotoEndOfPacket (r.advance 1)=moveBack 1 (r.advance 1) := by
    unfold gotoEndOfPacket
    rw [hleft]
    rfl
  refine ⟨_,hback.trans rfl,?_,rfl⟩
  simp [State.advance,State.consume,hr]

/-- Entering a packet that another one follows: what is seen as its type, and
where its end leads. -/
theorem readPacket_enter (cfg : Config) {mode : ReadPacketMode}
    (hmode : mode≠.PREPARED_STMT_OK_CONTINUATION) {s : Protocol.State} {p q : Packet}
    {ps : List Packet} {later X : List UInt8} {log : List ℕ} (h : Begins s (p::ps) later log)
    (hq : frames ps++later=frame q++X) :
    ∃ r r',readPacket cfg mode s=readPacketBody cfg mode (seenType p q).toNat (putReader r s) ∧
      r.payloadLength=p.2.length ∧ r.headers=s.reader.headers++[s.reader.rest.length] ∧
      gotoEndOfPacket r=.done () r' ∧ r'.rest=frames ps++later ∧ r'.headers=r.headers := by
  obtain ⟨id,payload⟩ := p
  cases payload with
  | cons b body =>
    obtain ⟨r,hs,hr,hlen,hlog⟩ := readPacket_open cfg hmode h rfl
    obtain ⟨r',hr',hrep⟩ := gotoEndOfPacket_spec hr
    refine ⟨r,r',hs,hlen,hlog,hr',hrep.rest,?_⟩
    have h₁ := hr.headers
    rw [←hrep.headers] at h₁
    exact (List.append_cancel_right h₁).symm
  | nil =>
    have hps : ps=[] := by
      cases ps with
      | nil => rfl
      | cons q qs =>
        have hl : ([] : List UInt8).length=maxPayload := h.regular.1
        exact absurd hl (by decide)
    subst hps
    obtain ⟨Y,hY⟩ := frame_head q X
    have hlater : later=UInt8.ofNat q.2.length::Y := by
      rw [←hY,←hq]
      rfl
    obtain ⟨r,hs,hrest,hlen,hoff,hlog⟩ := readPacket_empty cfg hmode h hlater
    obtain ⟨r',hr',hrest',hlog'⟩ := gotoEndOfPacket_empty (hrest.trans hlater) hlen hoff
    exact ⟨r.advance 1,r',hs,hlen,hlog,hr',by rw [hrest',hrest]; rfl,hlog'⟩

/-- One turn of the loop that discards packets. -/
theorem discardRows_succ (cfg : Config) (isPreparedStmt : Bool) (fuel : ℕ) (s : Protocol.State) :
    discardRows cfg isPreparedStmt (fuel+1) s=
      (readPacket cfg (discardMode isPreparedStmt) s).andThen (fun type =>
        read gotoEndOfPacket >>= fun _ =>
          if type=(if isPreparedStmt=true then 0xFE else 0) then pure ()
          else discardRows cfg isPreparedStmt fuel) := rfl

/-- The modes of discarding read packets from their headers. -/
theorem discardMode_ne (isPreparedStmt : Bool) :
    discardMode isPreparedStmt≠.PREPARED_STMT_OK_CONTINUATION := by
  cases isPreparedStmt <;> decide

/-- A packet that is not taken for OK, EOF or ERR is passed whole. -/
theorem discardRows_pass (cfg : Config) (isPreparedStmt : Bool) {s : Protocol.State}
    {p q : Packet} {ps : List Packet} {later X : List UInt8} {log : List ℕ}
    (h : Begins s (p::ps) later log) (hq : frames ps++later=frame q++X)
    (hp : Passed isPreparedStmt p q) :
    ∃ r : Reader.State,(∀ fuel,discardRows cfg isPreparedStmt (fuel+1) s=
        discardRows cfg isPreparedStmt fuel (putReader r s)) ∧
      r.rest=frames ps++later ∧ r.headers=s.reader.headers++[s.reader.rest.length] := by
  obtain ⟨r,r',hs,hlen,hlog,hend,hrest,hlog'⟩ :=
    readPacket_enter cfg (discardMode_ne isPreparedStmt) h hq
  refine ⟨r',fun fuel => ?_,hrest,by rw [hlog',hlog]⟩
  have hbody : readPacketBody cfg (discardMode isPreparedStmt) (seenType p q).toNat (putReader r s)=
      .done (notRead (seenType p q).toNat) (putReader r s) := by
    refine readPacketBody_notRead ?_ ?_ ?_
    · intro hz
      have hprep := hp.1 (UInt8.toNat_inj.mp hz)
      rw [hprep]
      rfl
    · intro hfe
      change 9 ≤ r.payloadLength
      rw [hlen]
      exact hp.2.1 (UInt8.toNat_inj.mp hfe)
    · intro hff
      exact hp.2.2 (UInt8.toNat_inj.mp hff)
  have hne : ¬(notRead (seenType p q).toNat=(if isPreparedStmt=true then 0xFE else 0)) := by
    unfold notRead
    split <;> omega
  rw [discardRows_succ,hs,hbody,Outcome.andThen_done,bind_apply,read_apply]
  change (((gotoEndOfPacket r).mapState _).andThen _)=_
  rw [hend,Outcome.mapState_done,Outcome.andThen_done,if_neg hne]
  rfl

/-- A packet that is taken for OK, EOF or ERR is recorded so. -/
theorem readPacket_misread (cfg : Config) (isPreparedStmt : Bool) {s : Protocol.State} {p q : Packet}
    {ps : List Packet} {later X : List UInt8} {log : List ℕ} (h : Begins s (p::ps) later log)
    (hq : frames ps++later=frame q++X) (hp : ¬Passed isPreparedStmt p q) :
    s.accepted++[s.reader.rest.length] <+:
      (readPacket cfg (discardMode isPreparedStmt) s).state.accepted := by
  obtain ⟨r,r',hs,hlen,hlog,-,-,-⟩ :=
    readPacket_enter cfg (discardMode_ne isPreparedStmt) h hq
  rw [hs]
  have haccept : ∀ x : Proto ℕ,Grows x → s.accepted++[s.reader.rest.length] <+:
      (x (putReader r s).accept).state.accepted := by
    intro x hx
    rw [accept_putReader hlog]
    exact (hx (putReader r (acceptAt s.reader.rest.length s))).accepted
  unfold Passed at hp
  by_cases hff : seenType p q=0xFF
  · rw [hff]
    change _ <+: (readPacketBody cfg (discardMode isPreparedStmt) 0xFF (putReader r s)).state.accepted
    rw [readPacketBody_err]
    exact haccept _ (grows_readErr cfg)
  · by_cases hz : seenType p q=0
    · have hmode : discardMode isPreparedStmt≠.ROWS_OR_PREPARED_STMT := by
        cases isPreparedStmt with
        | false => decide
        | true =>
          refine absurd ⟨fun _ => rfl,?_,hff⟩ hp
          intro hfe
          rw [hz] at hfe
          exact absurd hfe (by decide)
      rw [hz]
      change _ <+: (readPacketBody cfg (discardMode isPreparedStmt) 0 (putReader r s)).state.accepted
      rw [readPacketBody_ok _ _ _ hmode]
      exact haccept _ ((grows_readOk cfg).bind (fun _ => grows_pure _))
    · have hfe : seenType p q=0xFE ∧ ¬(9 ≤ p.2.length) := by
        by_contra hno
        refine hp ⟨fun h => absurd h hz,?_,hff⟩
        intro hfe
        by_contra h9
        exact hno ⟨hfe,h9⟩
      have hshort : (putReader r s).reader.payloadLength < 9 := by
        change r.payloadLength < 9
        rw [hlen]
        exact not_le.mp hfe.2
      rw [hfe.1]
      change _ <+: (readPacketBody cfg (discardMode isPreparedStmt) 0xFE (putReader r s)).state.accepted
      cases hd : cfg.capabilities.deprecateEof with
      | true =>
        rw [readPacketBody_okEof _ _ hshort hd]
        exact haccept _ ((grows_readOk cfg).bind (fun _ => grows_pure _))
      | false =>
        rw [readPacketBody_eof _ _ hshort hd]
        exact haccept _ ((grows_readEof cfg).bind (fun _ => grows_pure _))

/-- The first packet of a list or the one that follows it stands at the head of
the bytes. -/
theorem frames_head (ps : List Packet) (q : Packet) (X : List UInt8) :
    ∃ q' qs X',ps++[q]=q'::qs ∧ frames ps++(frame q++X)=frame q'++X' := by
  cases ps with
  | nil => exact ⟨q,[],X,rfl,rfl⟩
  | cons p ps =>
    refine ⟨p,ps++[q],frames ps++(frame q++X),rfl,?_⟩
    simp only [frames,List.flatMap_cons,List.append_assoc]

/-- The packets of a payload are passed one after another. -/
theorem discardRows_packets (cfg : Config) (isPreparedStmt : Bool) {s : Protocol.State}
    {ps : List Packet} {q : Packet} {later X : List UInt8} (hrest : s.reader.rest=frames ps++later)
    (hreg : Regular maxPayload ps) (hq : later=frame q++X)
    (hchain : List.IsChain (Passed isPreparedStmt) (ps++[q])) :
    ∃ r : Reader.State,(∀ fuel,discardRows cfg isPreparedStmt (fuel+ps.length) s=
        discardRows cfg isPreparedStmt fuel (putReader r s)) ∧
      r.rest=later ∧ r.headers=s.reader.headers++headerLog later ps := by
  induction ps generalizing s with
  | nil => exact ⟨s.reader,fun _ => rfl,hrest,(List.append_nil _).symm⟩
  | cons p ps ih =>
    obtain ⟨q',qs,X',hlist,hhead⟩ := frames_head ps q X
    rw [←hq] at hhead
    rw [List.cons_append,hlist] at hchain
    obtain ⟨hpass,hchain⟩ := List.isChain_cons_cons.mp hchain
    rw [←hlist] at hchain
    have hb := begins_of_rest _ hrest hreg
    obtain ⟨r₁,h₁,hrest₁,hlog₁⟩ := discardRows_pass cfg isPreparedStmt hb hhead hpass
    obtain ⟨r₂,h₂,hrest₂,hlog₂⟩ := ih (s:=putReader r₁ s) hrest₁ hreg.tail hchain
    refine ⟨r₂,fun fuel => ?_,hrest₂,?_⟩
    · rw [List.length_cons,←Nat.add_assoc,h₁,h₂]
      rfl
    · have hlog : r₂.headers=r₁.headers++headerLog later ps := hlog₂
      rw [hlog,hlog₁,List.append_assoc,List.singleton_append,hrest]
      rfl

/-- Somewhere among the packets of a payload, one is taken for OK, EOF or ERR. -/
theorem discardRows_misread (cfg : Config) (isPreparedStmt : Bool) {s : Protocol.State}
    {ps : List Packet} {q : Packet} {later X : List UInt8} (hrest : s.reader.rest=frames ps++later)
    (hreg : Regular maxPayload ps) (hq : later=frame q++X)
    (hchain : ¬List.IsChain (Passed isPreparedStmt) (ps++[q])) :
    ∃ n,later.length < n ∧ ∀ fuel,s.accepted++[n] <+:
      (discardRows cfg isPreparedStmt (fuel+ps.length) s).state.accepted := by
  induction ps generalizing s with
  | nil => exact absurd (List.isChain_singleton q) hchain
  | cons p ps ih =>
    obtain ⟨q',qs,X',hlist,hhead⟩ := frames_head ps q X
    rw [←hq] at hhead
    rw [List.cons_append,hlist,List.isChain_cons_cons,←hlist] at hchain
    have hb := begins_of_rest _ hrest hreg
    by_cases hpass : Passed isPreparedStmt p q'
    · obtain ⟨r₁,h₁,hrest₁,hlog₁⟩ := discardRows_pass cfg isPreparedStmt hb hhead hpass
      obtain ⟨n,hn,hacc⟩ := ih (s:=putReader r₁ s) hrest₁ hreg.tail (fun h => hchain ⟨hpass,h⟩)
      refine ⟨n,hn,fun fuel => ?_⟩
      rw [List.length_cons,←Nat.add_assoc,h₁]
      exact hacc fuel
    · refine ⟨s.reader.rest.length,?_,fun fuel => ?_⟩
      · rw [hrest,frames,List.flatMap_cons,List.length_append,List.length_append,frame_length]
        omega
      · have hacc := readPacket_misread cfg isPreparedStmt hb hhead hpass
        rw [List.length_cons,←Nat.add_assoc,discardRows_succ]
        cases hx : readPacket cfg (discardMode isPreparedStmt) s with
        | done type t =>
          rw [hx] at hacc
          have hgrow : Grows (read gotoEndOfPacket >>= fun _ =>
              if type=(if isPreparedStmt=true then 0xFE else 0) then pure ()
              else discardRows cfg isPreparedStmt (fuel+ps.length)) :=
            grows_gotoEndOfPacket.bind (fun _ => Always.ite (grows_pure _)
              (grows_discardRows cfg isPreparedStmt _))
          exact hacc.trans (hgrow t).accepted
        | thrown e t =>
          rw [hx] at hacc
          exact hacc
        | waiting t =>
          rw [hx] at hacc
          exact hacc

/-- All the packets of the rows. -/
def rowPackets (rows : List SentRow) : List Packet := rows.flatMap SentRow.packets

/-- The unread bytes at the headers of all the packets of the rows. -/
def rowsLog (c : Capabilities) (id : UInt8) (t : Terminator) (later : List UInt8) :
    List SentRow → List ℕ
  | [] => []
  | row::rows => headerLog (stream c rows id t later) row.packets++rowsLog c id t later rows

/-- The stream of rows begins with a packet, which is the first one of the rows
and the terminator. -/
theorem stream_head (c : Capabilities) (rows : List SentRow) (id : UInt8) (t : Terminator)
    (later : List UInt8) : ∃ q qs X,rowPackets rows++Terminator.packets c id t=q::qs ∧
      stream c rows id t later=frame q++X := by
  cases rows with
  | nil =>
    refine ⟨_,_,later,rfl,?_⟩
    simp only [stream,Terminator.packets,frames,List.flatMap_nil,List.flatMap_cons,List.nil_append,
      List.append_nil]
  | cons row rows =>
    refine ⟨row.packet,row.others++(rowPackets rows++Terminator.packets c id t),
      frames row.others++stream c rows id t later,?_,?_⟩
    · simp only [rowPackets,List.flatMap_cons,SentRow.packets,List.cons_append,List.append_assoc]
    · rw [stream_cons]
      simp only [SentRow.packets,frames,List.flatMap_cons,List.append_assoc]

/-- Every packet of the rows is told apart from OK, EOF and ERR. -/
def AllPassed (c : Capabilities) (isPreparedStmt : Bool) (rows : List SentRow) (id : UInt8)
    (t : Terminator) : Prop :=
  List.IsChain (Passed isPreparedStmt) (rowPackets rows++Terminator.packets c id t)

/-- The packets of the first row and those of the others. -/
theorem allPassed_cons {c : Capabilities} {isPreparedStmt : Bool} {row : SentRow}
    {rows : List SentRow} {id : UInt8} {t : Terminator} {q : Packet} {qs : List Packet}
    (hq : rowPackets rows++Terminator.packets c id t=q::qs) :
    AllPassed c isPreparedStmt (row::rows) id t↔
      List.IsChain (Passed isPreparedStmt) (row.packets++[q]) ∧
        AllPassed c isPreparedStmt rows id t := by
  unfold AllPassed
  have h : rowPackets (row::rows)++Terminator.packets c id t=row.packets++q::qs := by
    rw [←hq,←List.append_assoc]
    rfl
  rw [h,hq,List.isChain_split]

/-- All the rows are passed when every packet is told apart. -/
theorem discardRows_rows (cfg : Config) (isPreparedStmt : Bool) {s : Protocol.State}
    {rows : List SentRow} {id : UInt8} {t : Terminator} {later : List UInt8}
    (hrest : s.reader.rest=stream cfg.capabilities rows id t later)
    (hpass : AllPassed cfg.capabilities isPreparedStmt rows id t) :
    ∃ r : Reader.State,(∀ fuel,discardRows cfg isPreparedStmt (fuel+(rowPackets rows).length) s=
        discardRows cfg isPreparedStmt fuel (putReader r s)) ∧
      r.rest=stream cfg.capabilities [] id t later ∧
      r.headers=s.reader.headers++rowsLog cfg.capabilities id t later rows := by
  induction rows generalizing s with
  | nil => exact ⟨s.reader,fun _ => rfl,hrest,(List.append_nil _).symm⟩
  | cons row rows ih =>
    obtain ⟨q,qs,X,hlist,hhead⟩ := stream_head cfg.capabilities rows id t later
    obtain ⟨hrow,hrows⟩ := (allPassed_cons hlist).mp hpass
    rw [stream_cons] at hrest
    obtain ⟨r₁,h₁,hrest₁,hlog₁⟩ :=
      discardRows_packets cfg isPreparedStmt hrest row.regular hhead hrow
    obtain ⟨r₂,h₂,hrest₂,hlog₂⟩ := ih (s:=putReader r₁ s) hrest₁ hrows
    refine ⟨r₂,fun fuel => ?_,hrest₂,?_⟩
    · have hlen : (rowPackets (row::rows)).length=(rowPackets rows).length+row.packets.length := by
        rw [rowPackets,List.flatMap_cons,List.length_append,Nat.add_comm]
        rfl
      rw [hlen,←Nat.add_assoc,h₁,h₂]
      rfl
    · have hlog : r₂.headers=r₁.headers++rowsLog cfg.capabilities id t later rows := hlog₂
      rw [hlog,hlog₁,List.append_assoc]
      rfl

/-- Some packet of the rows is taken for OK, EOF or ERR when not every one is
told apart. -/
theorem discardRows_rows_misread (cfg : Config) (isPreparedStmt : Bool) {s : Protocol.State}
    {rows : List SentRow} {id : UInt8} {t : Terminator} {later : List UInt8}
    (hrest : s.reader.rest=stream cfg.capabilities rows id t later)
    (hpass : ¬AllPassed cfg.capabilities isPreparedStmt rows id t) :
    ∃ n,(stream cfg.capabilities [] id t later).length < n ∧ ∀ fuel,s.accepted++[n] <+:
      (discardRows cfg isPreparedStmt (fuel+(rowPackets rows).length) s).state.accepted := by
  induction rows generalizing s with
  | nil => exact absurd (List.isChain_singleton _) hpass
  | cons row rows ih =>
    obtain ⟨q,qs,X,hlist,hhead⟩ := stream_head cfg.capabilities rows id t later
    rw [allPassed_cons hlist] at hpass
    rw [stream_cons] at hrest
    have hlen : (rowPackets (row::rows)).length=(rowPackets rows).length+row.packets.length := by
      rw [rowPackets,List.flatMap_cons,List.length_append,Nat.add_comm]
      rfl
    rw [hlen]
    by_cases hrow : List.IsChain (Passed isPreparedStmt) (row.packets++[q])
    · obtain ⟨r₁,h₁,hrest₁,hlog₁⟩ :=
        discardRows_packets cfg isPreparedStmt hrest row.regular hhead hrow
      obtain ⟨n,hn,hacc⟩ := ih (s:=putReader r₁ s) hrest₁ (fun h => hpass ⟨hrow,h⟩)
      refine ⟨n,hn,fun fuel => ?_⟩
      rw [←Nat.add_assoc,h₁]
      exact hacc fuel
    · obtain ⟨n,hn,hacc⟩ := discardRows_misread cfg isPreparedStmt hrest row.regular hhead hrow
      refine ⟨n,lt_of_le_of_lt ?_ hn,fun fuel => ?_⟩
      · simp only [stream,List.flatMap_nil,List.nil_append,List.length_append]
        omega
      · rw [←Nat.add_assoc]
        exact hacc _

/-- Discarding ends at a short terminator. -/
theorem discardRows_terminator (cfg : Config) (hsane : Sane cfg.capabilities)
    (isPreparedStmt : Bool) {s : Protocol.State} {id : UInt8} {t : Terminator} {later : List UInt8}
    (ht : t.Valid cfg.capabilities) (hl : (t.payload cfg.capabilities).length < 9)
    (hrest : s.reader.rest=stream cfg.capabilities [] id t later) (fuel : ℕ) :
    ∃ (r : Reader.State) (info : List UInt8),discardRows cfg isPreparedStmt (fuel+1) s=
        .done () (putReader r {t.set cfg.capabilities (acceptAt s.reader.rest.length s) with
          statusInfo := info}) ∧
      r.rest=later ∧ r.headers=s.reader.headers++[s.reader.rest.length] := by
  have hb := begins_of_rest (Terminator.packets cfg.capabilities id t) hrest
    (Terminator.length_lt ht)
  have hread := readPacket_terminator cfg hsane (discardMode_ne isPreparedStmt) ht hl hb
  obtain ⟨info,heff⟩ := Terminator.effect_of_short cfg hsane hl
    (acceptAt s.reader.rest.length s)
  rw [heff] at hread
  obtain ⟨r,hr,hrep⟩ := hread
  obtain ⟨r',hgoto,hrep'⟩ := gotoEndOfPacket_spec hrep
  refine ⟨r',info,?_,hrep'.rest,?_⟩
  · have htype : packetType (discardMode isPreparedStmt) 0xFE=
        (if isPreparedStmt=true then 0xFE else 0) := by
      cases isPreparedStmt <;> rfl
    rw [discardRows_succ,hr,Outcome.andThen_done,bind_apply,read_apply,htype]
    change (((gotoEndOfPacket r).mapState _).andThen _)=_
    rw [hgoto,Outcome.mapState_done,Outcome.andThen_done,if_pos rfl]
    rfl
  · have h := hrep'.headers
    rw [headerLog,List.append_nil] at h
    rw [h,hrest]
    rfl

/-- What `#doDiscard()` does after the rows of a resultset. -/
def afterDiscard (rs : Resultsets) : Proto (Resultsets×ProtocolState) := do
  let s ← get
  if stateAfterOk s.statusFlags=.IDLE then
    finishResultsets
    return (finished rs,.IDLE)
  else
    modify fun s => {s with curResultsets := some rs}
    return (rs,stateAfterOk s.statusFlags)

/-- `#doDiscard()` of rows only is the discarding of rows and what follows it. -/
theorem doDiscard_rows (cfg : Config) (rs : Resultsets) (s : Protocol.State) :
    doDiscard cfg rs .HAS_MORE_ROWS true s=
      (discardAllRows cfg rs.isPreparedStmt s).andThen (fun _ => afterDiscard rs) := by
  simp only [doDiscard,discardLoop,bind_apply,get_apply,Outcome.andThen_done,if_true]
  cases discardAllRows cfg rs.isPreparedStmt s with
  | done a v =>
    have hne : ¬(true=false ∧ stateAfterOk v.statusFlags=.HAS_MORE_RESULTSETS) :=
      fun h => absurd h.1 (by decide)
    simp only [Outcome.andThen_done,get_apply,if_neg hne,pure_apply,afterDiscard,bind_apply,
      branch_apply]
    split_ifs with hi
    · rw [hi]
    · rfl
  | thrown e v => rfl
  | waiting v => rfl

end SpiritMysql.RowDiscard
