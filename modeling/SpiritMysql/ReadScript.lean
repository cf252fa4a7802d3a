import SpiritMysql.PacketStream

/-!
# Operations that read a piece of a payload

An operation reads a piece of a payload when, wherever the piece stands
among the packets, it returns one value and moves the cursor over exactly
these bytes. Such operations compose, so what a sequence of them reads is the
concatenation of the pieces.
-/

namespace SpiritMysql.ReadScript

open AsyncAction ByteCodec ChunkCursor Errors PacketStream Reader

variable {α β : Type}

/-- The operation reads these bytes with these steps and returns a value. -/
structure Reads (x : Read α) (ms : List Move) (bytes : List UInt8) (a : α) : Prop where
  /-- The steps pass the bytes. -/
  total : total ms=bytes.length
  /-- The steps stay within one packet. -/
  sound : ∀ m ∈ ms,m.Sound maxPayload
  /-- Wherever the bytes stand, the operation returns and moves the cursor. -/
  spec : ∀ s c later log X,Represents s c later log → c.flatten=bytes++X →
    ∃ s',x s=.done a s' ∧ Represents s' (c.run ms) later log

/-- What follows the bytes that were read. -/
theorem Reads.rest {x : Read α} {ms : List Move} {bytes X : List UInt8} {a : α}
    (h : Reads x ms bytes a) {s : State} {c : Cursor UInt8 UInt8} {later : List UInt8} {log : List ℕ}
    (hr : Represents s c later log) (hc : c.flatten=bytes++X) : (c.run ms).flatten=X := by
  have hl : ChunkCursor.total ms ≤ c.flatten.length := by
    rw [hc,h.total,List.length_append]
    omega
  rw [flatten_run hr.regular h.sound hl,hc,h.total,List.drop_left]

/-- Reading the whole payload leaves at most an empty packet, when there is one
and no step looked ahead past the end. -/
theorem Reads.whole {x : Read α} {ms : List Move} {bytes : List UInt8} {a : α}
    (h : Reads x ms bytes a) {s : State} {c : Cursor UInt8 UInt8} {later : List UInt8} {log : List ℕ}
    (hr : Represents s c later log) (hc : c.flatten=bytes) :
    ∃ s' nexts,x s=.done a s' ∧ Represents s' ⟨[],nexts⟩ later log ∧
      (nexts=[] ∨ ∃ id,nexts=[(id,[])]) ∧
      (nexts≠[]↔c.nexts≠[] ∧ EndsEmpty c.nexts ∧ joins ms=false) := by
  have hc' : c.flatten=bytes++[] := by rw [hc,List.append_nil]
  obtain ⟨s',hs,hr'⟩ := h.spec s c later log [] hr hc'
  have hflat := h.rest hr hc'
  have hcur : (c.run ms).cur=[] := (List.append_eq_nil_iff.mp hflat).1
  refine ⟨s',(c.run ms).nexts,hs,?_,?_,?_⟩
  · rw [←hcur]
    exact hr'
  · exact eq_nil_or_empty (by decide) hr'.regular (List.append_eq_nil_iff.mp hflat).2
  · exact run_nexts (by decide) hr.regular h.sound (by rw [hc,h.total])

/-- Returning a value reads nothing. -/
theorem reads_pure (a : α) : Reads (pure a : Read α) [] [] a where
  total := rfl
  sound := fun _ h => absurd h List.not_mem_nil
  spec := fun s _ _ _ _ h _ => ⟨s,rfl,h⟩

/-- Sequenced operations read pieces that follow each other. -/
theorem Reads.bind {x : Read α} {f : α → Read β} {ms ns : List Move} {bs cs : List UInt8} {a : α}
    {b : β} (hx : Reads x ms bs a) (hf : Reads (f a) ns cs b) :
    Reads (x >>= f) (ms++ns) (bs++cs) b where
  total := by rw [total_append,hx.total,hf.total,List.length_append]
  sound := by
    intro m hm
    rcases List.mem_append.mp hm with h|h
    · exact hx.sound m h
    · exact hf.sound m h
  spec := by
    intro s c later log X hr hc
    rw [List.append_assoc] at hc
    obtain ⟨s₁,h₁,r₁⟩ := hx.spec s c later log _ hr hc
    obtain ⟨s₂,h₂,r₂⟩ := hf.spec s₁ _ later log X r₁ (hx.rest hr hc)
    refine ⟨s₂,?_,by rwa [run_append]⟩
    rw [bind_apply,h₁,Outcome.andThen_done,h₂]

/-- Computing with the value that was read. -/
theorem Reads.map {x : Read α} {ms : List Move} {bs : List UInt8} {a : α} (g : α → β)
    (hx : Reads x ms bs a) : Reads (do return g (←x)) ms bs (g a) := by
  have h := hx.bind (f:=fun v => pure (g v)) (reads_pure (g a))
  rwa [List.append_nil,List.append_nil] at h

/-- A fixed-width number is one step that looks ahead for its bytes. -/
theorem reads_fixed {k : ℕ} (raw : List UInt8) (hk : raw.length=k) (h0 : 0 < k) (hb : k ≤ bufferLen) :
    Reads (readFixed k) [.number k k] raw raw where
  total := by rw [total_cons,total_nil,Move.size,hk,Nat.add_zero]
  sound := by
    intro m hm
    rw [List.mem_singleton.mp hm]
    exact ⟨h0,le_rfl,hb.trans (by decide)⟩
  spec := by
    intro s c later log X hr hc
    obtain ⟨s',hs,hr'⟩ := readFixed_spec hr hb (by rw [hc,List.length_append]; omega)
    refine ⟨s',?_,hr'⟩
    rw [hs,hc,←hk,List.take_left]

/-- A length-encoded integer, in the shortest form. -/
def lenenc (n : ℕ) : List UInt8 :=
  if n < 251 then [UInt8.ofNat n]
  else if n < 2^16 then 0xFC::leBytes 2 n
  else if n < 2^24 then 0xFD::leBytes 3 n
  else 0xFE::leBytes 8 n

/-- The null mark in the place of a length-encoded integer. -/
def nullMark : List UInt8 := [0xFB]

/-- The first byte of a length-encoded integer tells its length and its
value. -/
theorem lenenc_head (n : ℕ) : ∃ b bs,lenenc n=b::bs ∧ lenencSize b=(lenenc n).length ∧
    b≠0xFF ∧ b≠0xFB := by
  unfold lenenc
  split_ifs with h₁ h₂ h₃
  · have hv : (UInt8.ofNat n).toNat=n := by rw [UInt8.toNat_ofNat']; omega
    have hne : ∀ b : UInt8,251 ≤ b.toNat → UInt8.ofNat n≠b := by
      intro b hb he
      rw [he] at hv
      omega
    refine ⟨_,_,rfl,?_,hne _ (by decide),hne _ (by decide)⟩
    unfold lenencSize
    rw [if_neg (hne _ (by decide)),if_neg (hne _ (by decide)),if_neg (hne _ (by decide))]
    rfl
  · exact ⟨_,_,rfl,by rw [List.length_cons,leBytes_length]; rfl,by decide,by decide⟩
  · exact ⟨_,_,rfl,by rw [List.length_cons,leBytes_length]; rfl,by decide,by decide⟩
  · exact ⟨_,_,rfl,by rw [List.length_cons,leBytes_length]; rfl,by decide,by decide⟩

/-- A length-encoded integer has at most nine bytes, and at least one. -/
theorem lenenc_length (n : ℕ) : 0 < (lenenc n).length ∧ (lenenc n).length ≤ 9 := by
  unfold lenenc
  split_ifs <;> simp

/-- The value of a length-encoded integer is read back. -/
theorem lenencValue_lenenc {n : ℕ} (h : n < 2^64) : lenencValue (lenenc n)=n := by
  unfold lenenc lenencValue
  split_ifs with h₁ h₂ h₃
  · have hv : (UInt8.ofNat n).toNat=n := by rw [UInt8.toNat_ofNat']; omega
    have hne : ∀ b : UInt8,251 ≤ b.toNat → UInt8.ofNat n≠b := by
      intro b hb he
      rw [he] at hv
      omega
    dsimp only
    rw [if_neg,if_neg (hne _ (by decide)),hv]
    rintro (h|h|h)
    · exact hne _ (by decide) h
    · exact hne _ (by decide) h
    · exact hne _ (by decide) h
  · dsimp only
    rw [if_pos (by decide),leNat_leBytes_of_lt (by omega)]
  · dsimp only
    rw [if_pos (by decide),leNat_leBytes_of_lt (by omega)]
  · dsimp only
    rw [if_pos (by decide),leNat_leBytes_of_lt (by omega)]

/-- The bytes of a number that the first byte delimits. -/
theorem reads_lenencBytes (b : UInt8) (bs : List UInt8) (hl : lenencSize b=(b::bs).length) :
    Reads readLenencInt [.number 9 (b::bs).length] (b::bs) (lenencValue (b::bs)) where
  total := by rw [total_cons,total_nil,Move.size,Nat.add_zero]
  sound := by
    intro m hm
    have h9 : lenencSize b ≤ 9 := by
      unfold lenencSize
      split_ifs <;> omega
    rw [List.mem_singleton.mp hm]
    exact ⟨by simp,by omega,by decide⟩
  spec := by
    intro s c later log X hr hc
    have hc' : c.flatten=b::(bs++X) := hc
    obtain ⟨s',hs,hr'⟩ := readLenencInt_spec hr hc'
      (by rw [hc',hl]; simp only [List.length_cons,List.length_append]; omega)
    rw [hl] at hs hr'
    refine ⟨s',?_,hr'⟩
    rw [hs,hc,List.take_left]

/-- A length-encoded integer is one step that looks ahead for nine bytes. -/
theorem reads_lenenc {n : ℕ} (h : n < 2^64) :
    Reads readLenencInt [.number 9 (lenenc n).length] (lenenc n) (n : ℤ) := by
  obtain ⟨b,bs,hb,hl,-,-⟩ := lenenc_head n
  have hr := reads_lenencBytes b bs (by rw [hl,hb])
  rwa [←hb,lenencValue_lenenc h] at hr

/-- The null mark is read as `-1`. -/
theorem reads_null : Reads readLenencInt [.number 9 1] nullMark (-1) :=
  reads_lenencBytes 0xFB [] rfl

/-- An operation that passes a number of bytes, with what it returns. -/
theorem reads_of_skip {x : Read α} {bytes : List UInt8} {a : α}
    (h : ∀ s c later log X,Represents s c later log → c.flatten=bytes++X →
      ∃ s',x s=.done a s' ∧ Represents s' (c.skip bytes.length) later log) :
    Reads x [.bytes bytes.length] bytes a where
  total := by rw [total_cons,total_nil,Move.size,Nat.add_zero]
  sound := by
    intro m hm
    rw [List.mem_singleton.mp hm]
    trivial
  spec := h

/-- A short byte string is passed in one step. -/
theorem reads_shortBytes (bytes : List UInt8) (hb : bytes.length+4 ≤ bufferLen) :
    Reads (readShortBytes bytes.length) [.bytes bytes.length] bytes bytes := by
  refine reads_of_skip ?_
  intro s c later log X hr hc
  obtain ⟨s',hs,hr'⟩ := readShortBytes_spec hr (by rw [hc,List.length_append]; omega) hb
  refine ⟨s',?_,hr'⟩
  rw [hs,hc,List.take_left]

/-- A byte string of any length is passed in one step. -/
theorem reads_toBuffer (bytes : List UInt8) :
    Reads (readBytesToBuffer bytes.length) [.bytes bytes.length] bytes bytes := by
  refine reads_of_skip ?_
  intro s c later log X hr hc
  obtain ⟨s',hs,hr'⟩ := readBytesToBuffer_spec (n:=bytes.length) hr
    (by rw [hc,List.length_append]; omega)
  refine ⟨s',?_,hr'⟩
  rw [hs,hc,List.take_left]

/-- Bytes are skipped in one step. -/
theorem reads_void (bytes : List UInt8) :
    Reads (readVoid bytes.length) [.bytes bytes.length] bytes () := by
  refine reads_of_skip ?_
  intro s c later log X hr hc
  by_cases h0 : 0 < bytes.length
  · exact readVoid_spec hr (by rw [hc,List.length_append]; omega) h0
  · have hz : bytes.length=0 := by omega
    refine ⟨s,?_,by simpa only [Cursor.skip,hz,advance_zero] using hr⟩
    rw [hz,Nat.cast_zero,readVoid_zero]

end SpiritMysql.ReadScript
