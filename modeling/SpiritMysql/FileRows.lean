import SpiritMysql.FileReads

/-!
# The rows of a file

Rows are read one after another, whatever packets they are in. Between two packets the
reader is at the end of the first one, and the next row enters the second one.
-/

namespace SpiritMysql.FileRows

open AsyncAction ByteCodec ChunkCursor ColumnValues Errors FileReads PacketFraming PacketStream
open ReadScript Reader RowLayout RowReader RowStream

/-- Read so many rows as there are lists of columns. -/
def readRows (size : ℕ) (o : RowOptions) : List (List Column) → Read (List Row)
  | [] => pure []
  | columns::rest => do
    let row ← deserializeRowBinaryOf size o columns
    let rows ← readRows size o rest
    return row.1::rows

/-- The columns of rows. -/
def columnsOf (rows : List BinaryRow) : List (List Column) :=
  rows.map (fun row => row.map Prod.fst)

/-- What reading rows makes of them. -/
def rowsOf (o : RowOptions) (rows : List BinaryRow) : List Row :=
  rows.map (fun row => Row.ofValues o.rowType (binaryValues o row))

/-- The reader is at the end of a packet, and the file goes on with some bytes. -/
structure Between (s : State) (file : List UInt8) : Prop where
  /-- The bytes that follow. -/
  rest : s.rest=file
  /-- Nothing is left of the packet. -/
  left : s.lenInCurPacket=0

/-- A row that can be read. -/
structure Readable (size : ℕ) (row : BinaryRow) : Prop where
  /-- The null mask fits the buffer. -/
  nulls : nullBitsLen row.length+4 ≤ size
  /-- The forms are those of the types. -/
  fits : ∀ p ∈ row,∀ cell ∈ p.2,Fits p.1.typeId cell

variable {size : ℕ} {o : RowOptions} {s : State}

/-- Taking no bytes changes nothing. -/
theorem take_zero (s : State) : take 0 s=.done [] s := by
  unfold take
  simp only [List.take_zero,State.advance,State.consume,List.reverse_nil,List.nil_append,
    List.drop_zero,Nat.cast_zero,add_zero]

/-- Between two packets, reading a short byte string reads a packet header first. -/
theorem readShortBytesOf_enters {n : ℕ} {p : Packet} {ps : List Packet} {later : List UInt8}
    (h : Between s (frames (p::ps)++later)) (hreg : Regular maxPayload (p::ps)) (h0 : 0 < n)
    (hb : n+4 ≤ size) (hn : n ≤ p.2.length) :
    ∃ t log,Represents t ⟨p.2,ps⟩ later log ∧
      readShortBytesOf size n s=readShortBytesOf size n t := by
  obtain ⟨t,ht,-,-,hr⟩ := readPacketHeader_spec h.rest hreg rfl
  have hleft : t.lenInCurPacket=p.2.length := hr.left
  have hneg : ¬((n : ℤ) < 0) := by omega
  have hbig : ¬((size : ℤ)-4 < n) := by omega
  have hnone : ¬((n : ℤ) ≤ s.lenInCurPacket) := by
    rw [h.left]
    omega
  have hnn : ¬(s.lenInCurPacket < 0) := by
    rw [h.left]
    omega
  have hhead : s.lenInCurPacket.toNat=0 := by rw [h.left]; rfl
  have hin : (n : ℤ) ≤ t.lenInCurPacket := by omega
  have hrecv : recvRoom size (0+4) s=.done () s := by
    refine recvRoom_done ?_ (by omega)
    rw [h.rest]
    simp only [frames,List.flatMap_cons,List.length_append,frame_length]
    omega
  have hrecv' : recvRoom size n t=.done () t :=
    recvRoom_done (hn.trans hr.received) (by omega)
  refine ⟨t,_,hr,?_⟩
  simp only [readShortBytesOf,branch_apply,if_neg hbig,if_neg hneg,bind_apply,get_apply,
    Outcome.andThen_done,if_neg hnone,if_neg hnn,hhead,hrecv,take_zero,ht,Int.toNat_natCast,
    Nat.sub_zero,hrecv',if_pos hin,List.nil_append]
  rfl

/-- The null mask has at least one byte. -/
theorem nullBitsLen_pos (n : ℕ) : 0 < nullBitsLen n := by
  unfold nullBitsLen
  omega

/-- A row begins with its null mask. -/
theorem nullBitsLen_le (row : BinaryRow) : nullBitsLen row.length ≤ (binaryPayload row).length := by
  unfold binaryPayload nullBitmap
  rw [List.length_append,leBytes_length]
  omega

/-- The steps that read rows. -/
def rowsMoves (rows : List BinaryRow) : List Move := rows.flatMap binaryRowMoves

/-- Rows in one packet are read back. -/
theorem reads_rows (ho : o.rowType.isLastColumn=false) (hsize : size ≤ maxPayload+1)
    (rows : List BinaryRow) (hrows : ∀ row ∈ rows,Readable size row) :
    Reads (readRows size o (columnsOf rows)) (rowsMoves rows) (payloadOf rows) (rowsOf o rows) := by
  induction rows with
  | nil => exact reads_pure _
  | cons row rows ih =>
    have h := hrows row List.mem_cons_self
    have hrow := reads_rowBinaryOf ho row h.nulls hsize h.fits
    have hrest := ih (fun r hr => hrows r (List.mem_cons_of_mem _ hr))
    exact hrow.bind (hrest.map (fun rows =>
      Row.ofValues o.rowType (binaryValues o row)::rows))

/-- The rows of one packet are read from its beginning, and the reader ends after it. -/
theorem readRows_group (ho : o.rowType.isLastColumn=false) (hsize : size ≤ maxPayload+1)
    {seq : ℕ} {rows : List BinaryRow} {later : List UInt8}
    (hrows : ∀ row ∈ rows,Readable size row)
    (hm : (payloadOf rows).length%maxPayload≠0)
    (h : Between s (emission seq (payloadOf rows)++later)) :
    ∃ t,readRows size o (columnsOf rows) s=.done (rowsOf o rows) t ∧ Between t later := by
  obtain ⟨ps,hne,hframes,-,hreg,hjoin⟩ := framed_emission seq (payloadOf rows)
  cases ps with
  | nil => exact absurd rfl hne
  | cons p ps =>
    cases rows with
    | nil => exact absurd (Nat.zero_mod _) hm
    | cons row rows =>
      have hrow := hrows row List.mem_cons_self
      have hnulls := hrow.nulls
      -- the null mask is in the first packet
      have hfirst : nullBitsLen row.length ≤ p.2.length := by
        have hle := nullBitsLen_le row
        cases ps with
        | nil =>
          have hp : p.2=payloadOf (row::rows) := by
            rw [←hjoin]
            exact (List.append_nil _).symm
          rw [hp]
          unfold payloadOf
          rw [List.flatMap_cons,List.length_append]
          omega
        | cons q qs =>
          have hp : p.2.length=maxPayload := hreg.1
          omega
      rw [hframes] at h
      obtain ⟨t,log,hr,heq⟩ := readShortBytesOf_enters h hreg (nullBitsLen_pos _) hnulls hfirst
      have hread : readRows size o (columnsOf (row::rows)) s=
          readRows size o (columnsOf (row::rows)) t := by
        rw [columnsOf,List.map_cons,readRows]
        unfold deserializeRowBinaryOf
        simp only [bind_apply,List.length_map]
        rw [heq]
      have hflat : (Cursor.mk p.2 ps).flatten=payloadOf (row::rows) := hjoin
      obtain ⟨u,nexts,hu,hr',-,hiff⟩ := (reads_rows ho hsize (row::rows) hrows).whole hr hflat
      have hnexts : nexts=[] := by
        by_contra hne
        obtain ⟨h₁,h₂,-⟩ := hiff.mp hne
        have hdvd := (nexts_endsEmpty_iff (by decide) hreg).mp ⟨h₁,h₂⟩
        rw [hjoin] at hdvd
        exact hm (Nat.mod_eq_zero_of_dvd hdvd.1)
      subst hnexts
      exact ⟨u,by rw [hread,hu],hr'.rest,hr'.left⟩

/-- Rows after other rows. -/
theorem readRows_append {a b : List (List Column)} {xs ys : List Row} {t u : State}
    (hx : readRows size o a s=.done xs t) (hy : readRows size o b t=.done ys u) :
    readRows size o (a++b) s=.done (xs++ys) u := by
  induction a generalizing s xs with
  | nil =>
    cases hx
    exact hy
  | cons c cs ih =>
    rw [readRows,bind_apply] at hx
    obtain ⟨row,s₁,h₁,hx⟩ := Outcome.andThen_eq_done.mp hx
    rw [bind_apply] at hx
    obtain ⟨rows,s₂,h₂,hx⟩ := Outcome.andThen_eq_done.mp hx
    cases hx
    rw [List.cons_append,readRows,bind_apply,h₁,Outcome.andThen_done,bind_apply,ih h₂]
    rfl

/-- The rows of all packets are read. -/
theorem readRows_groups (ho : o.rowType.isLastColumn=false) (hsize : size ≤ maxPayload+1)
    (groups : List (ℕ×List BinaryRow)) (hrows : ∀ g ∈ groups,∀ row ∈ g.2,Readable size row)
    (hm : ∀ g ∈ groups,(payloadOf g.2).length%maxPayload≠0)
    (h : Between s (groups.flatMap (fun g => emission g.1 (payloadOf g.2)))) :
    ∃ t,readRows size o (columnsOf (groups.flatMap Prod.snd)) s=
        .done (rowsOf o (groups.flatMap Prod.snd)) t ∧ Between t [] := by
  induction groups generalizing s with
  | nil => exact ⟨s,rfl,h⟩
  | cons g gs ih =>
    rw [List.flatMap_cons] at h
    obtain ⟨t,ht,hb⟩ := readRows_group ho hsize (hrows g List.mem_cons_self)
      (hm g List.mem_cons_self) h
    obtain ⟨u,hu,hb'⟩ := ih (fun g hg => hrows g (List.mem_cons_of_mem _ hg))
      (fun g hg => hm g (List.mem_cons_of_mem _ hg)) hb
    refine ⟨u,?_,hb'⟩
    have happ := readRows_append ht hu
    unfold columnsOf rowsOf at happ ⊢
    rw [List.flatMap_cons,List.map_append,List.map_append]
    exact happ

/-- Reading some rows and then others is reading all. -/
theorem readRows_split {a b : List (List Column)} {rows : List Row} {u : State}
    (h : readRows size o (a++b) s=.done rows u) : ∃ xs ys t,readRows size o a s=.done xs t ∧
      readRows size o b t=.done ys u ∧ rows=xs++ys ∧ xs.length=a.length := by
  induction a generalizing s rows with
  | nil => exact ⟨[],rows,s,rfl,h,rfl,rfl⟩
  | cons c cs ih =>
    rw [List.cons_append,readRows,bind_apply] at h
    obtain ⟨row,s₁,h₁,h⟩ := Outcome.andThen_eq_done.mp h
    rw [bind_apply] at h
    obtain ⟨rows',s₂,h₂,h⟩ := Outcome.andThen_eq_done.mp h
    cases h
    obtain ⟨xs,ys,t,hx,hy,rfl,hl⟩ := ih h₂
    refine ⟨row.1::xs,ys,t,?_,hy,rfl,by rw [List.length_cons,List.length_cons,hl]⟩
    rw [readRows,bind_apply,h₁,Outcome.andThen_done,bind_apply,hx]
    rfl

end SpiritMysql.FileRows
