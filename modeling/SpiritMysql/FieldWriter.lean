import SpiritMysql.PacketSends
import SpiritMysql.ReadScript

/-!
# Writing the fields of a packet

The operations that append one value to the open packet. They write to the buffer
without looking whether there is room, so that each of them has a number of bytes that
it needs. The writer of a string guesses how many bytes the length will take, encodes the
string behind that many bytes, and moves it when the guess was wrong.
-/

namespace SpiritMysql.FieldWriter

open AsyncAction ByteCodec Errors PacketSends ReadScript Utf16Text Writer

/-- Assign an element at the place of the next byte. Out of the range nothing happens. -/
def assign (value : ℕ) : Write Unit := modify fun s =>
  {s with buffer := s.buffer.set s.bufferEnd (.ofNat value),bufferEnd := s.bufferEnd+1}

/-- `setUint16()` and the like, at the place of the next byte. -/
def setWord (k value : ℕ) : Write Unit := do
  let s ← get
  Writer.set s.bufferEnd (leBytes k value)
  skip k

/-- `writeUint8()`. -/
def writeUint8 (value : ℕ) : Write Unit := assign value
/-- `writeInt8()`. -/
def writeInt8 (value : ℤ) : Write Unit := setWord 1 (wrap 1 value)
/-- `writeUint16()`. -/
def writeUint16 (value : ℕ) : Write Unit := setWord 2 value
/-- `writeInt16()`. -/
def writeInt16 (value : ℤ) : Write Unit := setWord 2 (wrap 2 value)
/-- `writeUint32()`. -/
def writeUint32 (value : ℕ) : Write Unit := setWord 4 value
/-- `writeInt32()`. -/
def writeInt32 (value : ℤ) : Write Unit := setWord 4 (wrap 4 value)
/-- `writeUint64()`. -/
def writeUint64 (value : ℤ) : Write Unit := setWord 8 (wrap 8 value)
/-- `writeInt64()`. -/
def writeInt64 (value : ℤ) : Write Unit := setWord 8 (wrap 8 value)

/-- `writeLenencInt()`. -/
def writeLenencInt (value : ℤ) : Write Unit :=
  if value < 0 then fail (.error "Must be nonnegative number")
  else if value < 0xFB then assign value.toNat
  else if value ≤ 0xFFFF then do
    assign 0xFC
    setWord 2 value.toNat
  else if value ≤ 0xFFFFFF then do
    assign 0xFD
    setWord 2 (value.toNat%0x10000)
    assign (value.toNat/0x10000)
  else do
    assign 0xFE
    setWord 8 value.toNat

/-- `writeShortLenencBytes()`. -/
def writeShortLenencBytes (bytes : List UInt8) : Write Unit := do
  writeLenencInt bytes.length
  writeShortBytes bytes

/-- What `encodeInto()` leaves in a buffer. -/
def place (at_ : ℕ) (bytes : List UInt8) : Write Unit := modify fun s =>
  {s with buffer := splice at_ bytes s.buffer}

/-- A buffer after `copyWithin()`. -/
def moved (target first last : ℕ) (buffer : List UInt8) : List UInt8 :=
  splice target (((buffer.take last).drop first).take (buffer.length-target)) buffer

/-- `copyWithin()` in the buffer. -/
def copyWithin (target first last : ℕ) : Write Unit := modify fun s =>
  {s with buffer := moved target first last s.buffer}

/-- `writeShortLenencString()`. -/
def writeShortLenencString (value : List UInt16) : Write Unit := do
  let s ← get
  if value.length < 0x80 then do
    let written := (encodeInto value (s.buffer.length-(s.bufferEnd+1))).2
    place (s.bufferEnd+1) written
    if written.length < 0xFB then assign written.length
    else do
      assign 0xFC
      copyWithin (s.bufferEnd+3) (s.bufferEnd+1) (s.bufferEnd+1+written.length)
      setWord 2 written.length
    skip written.length
  else if value.length < 0x4000 then do
    let written := (encodeInto value (s.buffer.length-(s.bufferEnd+3))).2
    place (s.bufferEnd+3) written
    if written.length < 0xFB then do
      assign written.length
      copyWithin (s.bufferEnd+1) (s.bufferEnd+3) (s.bufferEnd+3+written.length)
    else do
      assign 0xFC
      setWord 2 written.length
    skip written.length
  else do
    let data := encode value
    writeLenencInt data.length
    writeShortBytes data

theorem assign_apply (value : ℕ) (s : State) : assign value s=.done () {s with
    buffer := s.buffer.set s.bufferEnd (.ofNat value),bufferEnd := s.bufferEnd+1} := rfl

theorem place_apply (at_ : ℕ) (bytes : List UInt8) (s : State) :
    place at_ bytes s=.done () {s with buffer := splice at_ bytes s.buffer} := rfl

theorem copyWithin_apply (target first last : ℕ) (s : State) :
    copyWithin target first last s=.done () {s with
      buffer := moved target first last s.buffer} := rfl

theorem skip_apply (n : ℕ) (s : State) :
    skip n s=.done () {s with bufferEnd := s.bufferEnd+n} := rfl

/-- A word that fits. -/
theorem setWord_apply {k : ℕ} (value : ℕ) {s : State} (h : s.bufferEnd+k ≤ s.buffer.length) :
    setWord k value s=.done () {s with
      buffer := splice s.bufferEnd (leBytes k value) s.buffer,bufferEnd := s.bufferEnd+k} := by
  have hlen := leBytes_length k value
  rw [setWord,bind_apply,get_apply,Outcome.andThen_done,bind_apply,set_spec (by omega),
    Outcome.andThen_done,skip_apply]

/-! ## What is left in the packet -/

/-- An operation appends some bytes, when the buffer has room for so many. -/
def Appends (x : Write Unit) (bytes : List UInt8) (need : ℕ) : Prop :=
  ∀ s q pre,Opened s q pre → s.bufferEnd+need ≤ s.buffer.length →
    ∃ t,x s=.done () t ∧ Opened t q (pre++bytes) ∧ Sent s [] 0 t

/-- Appending moves the place of the next byte. -/
theorem opened_end {s t : State} {q pre bytes : List UInt8} (h : Opened s q pre)
    (ht : Opened t q (pre++bytes)) : t.bufferEnd=s.bufferEnd+bytes.length := by
  rw [h.last,ht.last,List.length_append]
  omega

/-- Nothing is appended. -/
theorem appends_pure : Appends (pure ()) [] 0 := by
  intro s q pre h hroom
  exact ⟨s,rfl,by rwa [List.append_nil],.refl s⟩

/-- One value after another. -/
theorem Appends.andThen {x y : Write Unit} {a b : List UInt8} {m n k : ℕ} (hx : Appends x a m)
    (hy : Appends y b n) (hm : m ≤ k) (hn : a.length+n ≤ k) :
    Appends (do x; y) (a++b) k := by
  intro s q pre h hroom
  obtain ⟨t,ht,ho,hs⟩ := hx s q pre h (by omega)
  have hend := opened_end h ho
  have hsize := hs.size
  obtain ⟨u,hu,ho',hs'⟩ := hy t q _ ho (by omega)
  refine ⟨u,?_,?_,hs.trans hs'⟩
  · rw [bind_apply,ht,Outcome.andThen_done,hu]
  · rwa [List.append_assoc] at ho'

/-- More room does not hurt. -/
theorem Appends.mono {x : Write Unit} {a : List UInt8} {m k : ℕ} (hx : Appends x a m)
    (hm : m ≤ k) : Appends x a k := by
  intro s q pre h hroom
  exact hx s q pre h (by omega)

/-- One byte. -/
theorem appends_assign (value : ℕ) : Appends (assign value) [.ofNat value] 1 := by
  intro s q pre h hroom
  obtain ⟨t,ht,ho,hs⟩ := @Opened.extend s q pre [.ofNat value] h hroom
  rw [bind_apply,set_spec hroom,Outcome.andThen_done] at ht
  have hset : s.buffer.set s.bufferEnd (.ofNat value)=
      splice s.bufferEnd [.ofNat value] s.buffer := by
    rw [List.set_eq_take_append_cons_drop,if_pos (by omega)]
    rfl
  refine ⟨t,?_,ho,hs⟩
  unfold assign
  rw [modify_apply,hset]
  exact ht

/-- A word. -/
theorem appends_setWord (k value : ℕ) : Appends (setWord k value) (leBytes k value) k := by
  intro s q pre h hroom
  have hlen := leBytes_length k value
  obtain ⟨t,ht,ho,hs⟩ := @Opened.extend s q pre (leBytes k value) h (by omega)
  rw [hlen] at ht
  exact ⟨t,ht,ho,hs⟩

/-- A byte string. -/
theorem appends_bytes (bytes : List UInt8) :
    Appends (writeShortBytes bytes) bytes bytes.length := by
  intro s q pre h hroom
  exact writeShortBytes_spec h hroom

/-- A word of three bytes, in two parts. -/
theorem leBytes_three {n : ℕ} (h : n < 2^24) :
    leBytes 2 (n%0x10000)++[.ofNat (n/0x10000)]=leBytes 3 n := by
  have hmod := leBytes_mod 2 n
  have hp : (256 : ℕ)^2=0x10000 := rfl
  rw [hp] at hmod
  rw [hmod]
  have hd : n/256/256=n/0x10000 := by rw [Nat.div_div_eq_div_mul]
  unfold leBytes leBytes leBytes leBytes
  rw [hd]
  rfl

/-- A length-encoded integer. -/
theorem appends_lenencInt {n : ℕ} (h : n < 2^64) :
    Appends (writeLenencInt n) (lenenc n) (lenenc n).length := by
  unfold writeLenencInt lenenc
  rw [if_neg (by omega),Int.toNat_natCast]
  by_cases h₁ : n < 251
  · rw [if_pos (by omega),if_pos h₁]
    exact appends_assign n
  by_cases h₂ : n < 2^16
  · rw [if_neg (by omega),if_pos (by omega),if_neg h₁,if_pos h₂]
    exact (appends_assign 0xFC).andThen (appends_setWord 2 n) (by simp) (by simp)
  by_cases h₃ : n < 2^24
  · rw [if_neg (by omega),if_neg (by omega),if_pos (by omega),if_neg h₁,if_neg h₂,if_pos h₃,
      ← leBytes_three h₃]
    have hword := (appends_setWord 2 (n%0x10000)).andThen (k := 3) (appends_assign (n/0x10000))
      (by omega) (by simp)
    exact (appends_assign 0xFD).andThen hword (by simp) (by simp)
  · rw [if_neg (by omega),if_neg (by omega),if_neg (by omega),if_neg h₁,if_neg h₂,if_neg h₃]
    exact (appends_assign 0xFE).andThen (appends_setWord 8 n) (by simp) (by simp)

/-- A byte string with its length before it. -/
theorem appends_lenencBytes {bytes : List UInt8} (h : bytes.length < 2^64) :
    Appends (writeShortLenencBytes bytes) (lenenc bytes.length++bytes)
      (lenenc bytes.length++bytes).length := by
  rw [List.length_append]
  exact (appends_lenencInt h).andThen (appends_bytes bytes) (by omega) (by omega)

/-! ## Strings -/

section Strings

variable {s t : State} {q pre : List UInt8}

/-- Bytes after the open packet extend its prefix, whatever follows them. -/
theorem opened_grow (h : Opened s q pre) {bytes junk : List UInt8}
    (hstart : t.bufferStart=s.bufferStart) (hlast : t.bufferEnd=s.bufferEnd+bytes.length)
    (hbuffer : t.buffer=s.buffer.take s.bufferEnd++(bytes++junk)) : Opened t q (pre++bytes) := by
  obtain ⟨hole,rest,hh,hb⟩ := h.content
  have hl : s.bufferEnd=(q++(hole++pre)).length := by
    rw [h.last]
    simp only [List.length_append]
    omega
  have htake : s.buffer.take s.bufferEnd=q++(hole++pre) := by
    have ha : s.buffer=(q++(hole++pre))++rest := by
      rw [hb]
      simp only [List.append_assoc]
    rw [hl,ha,List.take_left]
  refine ⟨hstart.trans h.start,?_,hole,junk,hh,?_⟩
  · rw [hlast,h.last,List.length_append]
    omega
  · rw [hbuffer,htake]
    simp only [List.append_assoc]

/-- A buffer with room for some bytes after an index. -/
theorem buffer_cut {buffer : List UInt8} {e k : ℕ} (h : e+k ≤ buffer.length) :
    ∃ mid rest,mid.length=k ∧ buffer=buffer.take e++(mid++rest) := by
  refine ⟨(buffer.drop e).take k,(buffer.drop e).drop k,?_,?_⟩
  · rw [List.length_take,List.length_drop]
    omega
  · rw [List.take_append_drop,List.take_append_drop]

/-- Overwriting bytes after others whose number is known. -/
theorem splice_at {n : ℕ} {a b c d : List UInt8} (ha : a.length=n) (hc : b.length=c.length) :
    splice n b (a++(c++d))=a++(b++d) := by
  rw [← ha]
  exact splice_between hc

/-- Assigning an element. -/
theorem set_at {n : ℕ} {a d : List UInt8} {x v : UInt8} (ha : a.length=n) :
    (a++x::d).set n v=a++v::d := by
  rw [← ha,List.set_append_right _ _ (Nat.le_refl _),Nat.sub_self,List.set_cons_zero]

/-- Bytes are copied to a place where there is room for them. -/
theorem moved_at {first target : ℕ} {p w r : List UInt8} (hp : p.length=first)
    (hroom : target+w.length ≤ (p++(w++r)).length) :
    moved target first (first+w.length) (p++(w++r))=splice target w (p++(w++r)) := by
  have htake : (p++(w++r)).take (first+w.length)=p++w := by
    rw [← hp,← List.append_assoc,← List.length_append,List.take_left]
  unfold moved
  rw [htake,← hp,List.drop_left,List.take_of_length_le (by omega)]

/-- The room that a string needs while it is written. -/
def stringNeed (value : List UInt16) : ℕ :=
  let n := (encode value).length
  if value.length < 0x80 then if n < 0xFB then n+1 else n+3
  else if value.length < 0x4000 then n+3
  else (lenenc n).length+n

/-- A length of one byte. -/
theorem lenenc_one {n : ℕ} (h : n < 0xFB) : lenenc n=[.ofNat n] := if_pos h

/-- A length of three bytes. -/
theorem lenenc_two {n : ℕ} (h : ¬n < 0xFB) (h₂ : n < 2^16) : lenenc n=0xFC::leBytes 2 n := by
  unfold lenenc
  rw [if_neg h,if_pos h₂]

/-- The open packet after its buffer was overwritten from the next byte on. -/
theorem opened_rewrite (h : Opened s q pre) {bytes junk : List UInt8}
    (hlen : (s.buffer.take s.bufferEnd++(bytes++junk)).length=s.buffer.length) :
    Opened {s with
      buffer := s.buffer.take s.bufferEnd++(bytes++junk)
      bufferEnd := s.bufferEnd+bytes.length} q (pre++bytes) ∧
    Sent s [] 0 {s with
      buffer := s.buffer.take s.bufferEnd++(bytes++junk)
      bufferEnd := s.bufferEnd+bytes.length} :=
  ⟨opened_grow h rfl rfl rfl,(List.append_nil _).symm,rfl,hlen,rfl⟩

/-- The string is encoded behind a place for its length. -/
theorem string_placed {w : List UInt8} {k : ℕ}
    (hroom : s.bufferEnd+(k+w.length) ≤ s.buffer.length) :
    ∃ mid rest,mid.length=k ∧ splice (s.bufferEnd+k) w s.buffer=
      s.buffer.take s.bufferEnd++(mid++(w++rest)) ∧
        s.buffer.length=s.bufferEnd+k+w.length+rest.length := by
  obtain ⟨both,rest,hboth,hb⟩ := buffer_cut hroom
  have htake : (s.buffer.take s.bufferEnd).length=s.bufferEnd := by
    rw [List.length_take]
    omega
  have hcut : s.buffer=(s.buffer.take s.bufferEnd++both.take k)++(both.drop k++rest) := by
    rw [List.append_assoc,← List.append_assoc (both.take k),List.take_append_drop]
    exact hb
  have hone : (s.buffer.take s.bufferEnd++both.take k).length=s.bufferEnd+k := by
    rw [List.length_append,htake,List.length_take]
    omega
  refine ⟨both.take k,rest,by rw [List.length_take]; omega,?_,?_⟩
  · have hs := splice_at (d := rest) hone
      (show w.length=(both.drop k).length by rw [List.length_drop]; omega)
    rw [← hcut,List.append_assoc] at hs
    exact hs
  · have hl := congrArg List.length hb
    rw [List.length_append,List.length_append,htake] at hl
    omega

/-- A short string that takes a length of one byte, as guessed. -/
theorem string_guessOne {value : List UInt16} (h : Opened s q pre) (hlen : value.length < 0x80)
    (hn : (encode value).length < 0xFB)
    (hroom : s.bufferEnd+(1+(encode value).length) ≤ s.buffer.length) :
    ∃ t,writeShortLenencString value s=.done () t ∧
      Opened t q (pre++(lenenc (encode value).length++encode value)) ∧ Sent s [] 0 t := by
  have henc := @encodeInto_all value (s.buffer.length-(s.bufferEnd+1)) (by omega)
  have htake : (s.buffer.take s.bufferEnd).length=s.bufferEnd := by
    rw [List.length_take]
    omega
  obtain ⟨mid,rest,hmid,hplace,hsize⟩ := string_placed hroom
  obtain ⟨x,rfl⟩ := List.length_eq_one_iff.mp hmid
  have hassign : (s.buffer.take s.bufferEnd++([x]++(encode value++rest))).set s.bufferEnd
      (.ofNat (encode value).length)=
        s.buffer.take s.bufferEnd++((lenenc (encode value).length++encode value)++rest) := by
    rw [List.singleton_append,set_at htake,lenenc_one hn]
    rfl
  have hfinal := @opened_rewrite s q pre h (lenenc (encode value).length++encode value) rest (by
    simp only [List.length_append,htake,lenenc_one hn,List.length_singleton]
    omega)
  have hend : s.bufferEnd+1+(encode value).length=
      s.bufferEnd+(lenenc (encode value).length++encode value).length := by
    rw [List.length_append,lenenc_one hn,List.length_singleton]
    omega
  refine ⟨_,?_,hfinal⟩
  unfold writeShortLenencString
  rw [bind_apply,get_apply,Outcome.andThen_done,branch_apply,if_pos hlen,henc]
  dsimp only
  rw [bind_apply,place_apply,Outcome.andThen_done,hplace,branch_apply,if_pos hn,bind_apply,
    assign_apply,Outcome.andThen_done,skip_apply]
  dsimp only
  rw [hassign,hend]

/-- A short string that takes a length of three bytes, and is moved. -/
theorem string_moveUp {value : List UInt16} (h : Opened s q pre) (hlen : value.length < 0x80)
    (hn : ¬(encode value).length < 0xFB)
    (hroom : s.bufferEnd+(3+(encode value).length) ≤ s.buffer.length) :
    ∃ t,writeShortLenencString value s=.done () t ∧
      Opened t q (pre++(lenenc (encode value).length++encode value)) ∧ Sent s [] 0 t := by
  have henc := @encodeInto_all value (s.buffer.length-(s.bufferEnd+1)) (by omega)
  have hmax := encode_length_le value
  have hlenenc := lenenc_two hn (by omega)
  have hword := leBytes_length 2 (encode value).length
  have htake : (s.buffer.take s.bufferEnd).length=s.bufferEnd := by
    rw [List.length_take]
    omega
  obtain ⟨mid,rest,hmid,hplace,hsize⟩ :=
    @string_placed s (encode value) 1 (by omega)
  obtain ⟨x,rfl⟩ := List.length_eq_one_iff.mp hmid
  generalize hA : s.buffer.take s.bufferEnd=A at *
  generalize hw : encode value=w at *
  -- the first two bytes of the string stay where the length will be
  have hparts : w++rest=w.take 2++((w.drop 2++rest.take 2)++rest.drop 2) := by
    rw [List.append_assoc,List.take_append_drop,← List.append_assoc,List.take_append_drop]
  have hassign : (A++([x]++(w++rest))).set s.bufferEnd (.ofNat 0xFC)=(A++[0xFC])++(w++rest) := by
    rw [List.singleton_append,set_at htake,List.append_assoc]
    rfl
  have hone : (A++[(0xFC : UInt8)]).length=s.bufferEnd+1 := by
    rw [List.length_append,htake,List.length_singleton]
  have htwo : (w.take 2).length=2 := by
    rw [List.length_take]
    omega
  have hmoved : moved (s.bufferEnd+3) (s.bufferEnd+1) (s.bufferEnd+1+w.length)
      ((A++[0xFC])++(w++rest))=(A++[0xFC])++(w.take 2++(w++rest.drop 2)) := by
    rw [moved_at hone (by
      simp only [List.length_append,htake,List.length_singleton]
      omega)]
    have hs := splice_at (n := s.bufferEnd+3) (a := (A++[0xFC])++w.take 2) (b := w)
      (c := w.drop 2++rest.take 2) (d := rest.drop 2)
      (by rw [List.length_append,hone,htwo])
      (by rw [List.length_append,List.length_drop,List.length_take]; omega)
    rw [List.append_assoc,List.append_assoc _ _ (w++rest.drop 2),← hparts] at hs
    exact hs
  have hset : splice (s.bufferEnd+1) (leBytes 2 w.length)
      ((A++[0xFC])++(w.take 2++(w++rest.drop 2)))=
      A++((lenenc w.length++w)++rest.drop 2) := by
    rw [splice_at hone (by rw [hword,htwo]),hlenenc]
    simp only [List.append_assoc,List.cons_append,List.nil_append]
  have hfinal := @opened_rewrite s q pre h (lenenc w.length++w) (rest.drop 2) (by
    rw [hA]
    simp only [List.length_append,htake,hlenenc,List.length_cons,hword,List.length_drop]
    omega)
  rw [hA] at hfinal
  have hend : s.bufferEnd+1+2+w.length=s.bufferEnd+(lenenc w.length++w).length := by
    rw [List.length_append,hlenenc,List.length_cons,hword]
    omega
  refine ⟨_,?_,hfinal⟩
  unfold writeShortLenencString
  rw [bind_apply,get_apply,Outcome.andThen_done,branch_apply,if_pos hlen,henc]
  dsimp only
  rw [bind_apply,place_apply,Outcome.andThen_done,hplace,branch_apply,if_neg hn,bind_apply,
    assign_apply,Outcome.andThen_done]
  dsimp only
  rw [hassign,bind_apply,copyWithin_apply,Outcome.andThen_done]
  dsimp only
  rw [hmoved,bind_apply,setWord_apply _ (by
    simp only [List.length_append,htake,List.length_singleton,htwo]
    omega),Outcome.andThen_done,skip_apply]
  dsimp only
  rw [hset,hend]

/-- A string that takes a length of three bytes, as guessed. -/
theorem string_guessTwo {value : List UInt16} (h : Opened s q pre) (hlen : ¬value.length < 0x80)
    (hshort : value.length < 0x4000) (hn : ¬(encode value).length < 0xFB)
    (hroom : s.bufferEnd+(3+(encode value).length) ≤ s.buffer.length) :
    ∃ t,writeShortLenencString value s=.done () t ∧
      Opened t q (pre++(lenenc (encode value).length++encode value)) ∧ Sent s [] 0 t := by
  have henc := @encodeInto_all value (s.buffer.length-(s.bufferEnd+3)) (by omega)
  have hmax := encode_length_le value
  have hlenenc := lenenc_two hn (by omega)
  have hword := leBytes_length 2 (encode value).length
  have htake : (s.buffer.take s.bufferEnd).length=s.bufferEnd := by
    rw [List.length_take]
    omega
  obtain ⟨mid,rest,hmid,hplace,hsize⟩ := string_placed hroom
  obtain ⟨x,y,rfl⟩ := List.exists_cons_of_length_eq_add_one hmid
  generalize hA : s.buffer.take s.bufferEnd=A at *
  generalize hw : encode value=w at *
  have hy : y.length=2 := by
    rw [List.length_cons] at hmid
    omega
  have hassign : (A++(x::y++(w++rest))).set s.bufferEnd (.ofNat 0xFC)=
      (A++[0xFC])++(y++(w++rest)) := by
    rw [List.cons_append,set_at htake,List.append_assoc]
    rfl
  have hone : (A++[(0xFC : UInt8)]).length=s.bufferEnd+1 := by
    rw [List.length_append,htake,List.length_singleton]
  have hset : splice (s.bufferEnd+1) (leBytes 2 w.length) ((A++[0xFC])++(y++(w++rest)))=
      A++((lenenc w.length++w)++rest) := by
    rw [splice_at hone (by rw [hword,hy]),hlenenc]
    simp only [List.append_assoc,List.cons_append,List.nil_append]
  have hfinal := @opened_rewrite s q pre h (lenenc w.length++w) rest (by
    rw [hA]
    simp only [List.length_append,htake,hlenenc,List.length_cons,hword]
    omega)
  rw [hA] at hfinal
  have hend : s.bufferEnd+1+2+w.length=s.bufferEnd+(lenenc w.length++w).length := by
    rw [List.length_append,hlenenc,List.length_cons,hword]
    omega
  refine ⟨_,?_,hfinal⟩
  unfold writeShortLenencString
  rw [bind_apply,get_apply,Outcome.andThen_done,branch_apply,if_neg hlen,branch_apply,if_pos hshort,
    henc]
  dsimp only
  rw [bind_apply,place_apply,Outcome.andThen_done,hplace,branch_apply,if_neg hn,bind_apply,
    assign_apply,Outcome.andThen_done]
  dsimp only
  rw [hassign,bind_apply,setWord_apply _ (by
    simp only [List.length_append,htake,List.length_singleton,hy]
    omega),Outcome.andThen_done,skip_apply]
  dsimp only
  rw [hset,hend]

/-- A string that takes a length of one byte only, and is moved. -/
theorem string_moveDown {value : List UInt16} (h : Opened s q pre) (hlen : ¬value.length < 0x80)
    (hshort : value.length < 0x4000) (hn : (encode value).length < 0xFB)
    (hroom : s.bufferEnd+(3+(encode value).length) ≤ s.buffer.length) :
    ∃ t,writeShortLenencString value s=.done () t ∧
      Opened t q (pre++(lenenc (encode value).length++encode value)) ∧ Sent s [] 0 t := by
  have henc := @encodeInto_all value (s.buffer.length-(s.bufferEnd+3)) (by omega)
  have hlenenc := lenenc_one hn
  have htake : (s.buffer.take s.bufferEnd).length=s.bufferEnd := by
    rw [List.length_take]
    omega
  obtain ⟨mid,rest,hmid,hplace,hsize⟩ := string_placed hroom
  obtain ⟨x,y,rfl⟩ := List.exists_cons_of_length_eq_add_one hmid
  generalize hA : s.buffer.take s.bufferEnd=A at *
  generalize hw : encode value=w at *
  have hy : y.length=2 := by
    rw [List.length_cons] at hmid
    omega
  have hassign : (A++(x::y++(w++rest))).set s.bufferEnd (.ofNat w.length)=
      ((A++[.ofNat w.length])++y)++(w++rest) := by
    rw [List.cons_append,set_at htake]
    simp only [List.append_assoc,List.cons_append,List.nil_append]
  have hone : (A++[(.ofNat w.length : UInt8)]).length=s.bufferEnd+1 := by
    rw [List.length_append,htake,List.length_singleton]
  have hthree : ((A++[(.ofNat w.length : UInt8)])++y).length=s.bufferEnd+3 := by
    rw [List.length_append,hone,hy]
  -- the string overwrites the place of two bytes, and two bytes of it are left behind
  have hmoved : moved (s.bufferEnd+1) (s.bufferEnd+3) (s.bufferEnd+3+w.length)
      (((A++[.ofNat w.length])++y)++(w++rest))=
        A++((lenenc w.length++w)++((y++w).drop w.length++rest)) := by
    rw [moved_at hthree (by
      rw [List.length_append,hthree,List.length_append]
      omega)]
    have hparts : ((A++[(.ofNat w.length : UInt8)])++y)++(w++rest)=
        (A++[.ofNat w.length])++((y++w).take w.length++((y++w).drop w.length++rest)) := by
      rw [← List.append_assoc ((y++w).take _),List.take_append_drop]
      simp only [List.append_assoc]
    rw [hparts,splice_at hone (by
      rw [List.length_take,List.length_append]
      omega),hlenenc]
    simp only [List.append_assoc,List.cons_append,List.nil_append]
  have hfinal := @opened_rewrite s q pre h (lenenc w.length++w) ((y++w).drop w.length++rest) (by
    rw [hA]
    simp only [List.length_append,htake,hlenenc,List.length_singleton,List.length_drop,hy]
    omega)
  rw [hA] at hfinal
  have hend : s.bufferEnd+1+w.length=s.bufferEnd+(lenenc w.length++w).length := by
    rw [List.length_append,hlenenc,List.length_singleton]
    omega
  refine ⟨_,?_,hfinal⟩
  unfold writeShortLenencString
  rw [bind_apply,get_apply,Outcome.andThen_done,branch_apply,if_neg hlen,branch_apply,if_pos hshort,
    henc]
  dsimp only
  rw [bind_apply,place_apply,Outcome.andThen_done,hplace,branch_apply,if_pos hn,bind_apply,
    assign_apply,Outcome.andThen_done]
  dsimp only
  rw [hassign,bind_apply,copyWithin_apply,Outcome.andThen_done,skip_apply]
  dsimp only
  rw [hmoved,hend]

end Strings

/-- A string with its length before it. -/
theorem appends_lenencString {value : List UInt16} (h : (encode value).length < 2^64) :
    Appends (writeShortLenencString value) (lenenc (encode value).length++encode value)
      (stringNeed value) := by
  intro s q pre hs hroom
  unfold stringNeed at hroom
  dsimp only at hroom
  by_cases hlen : value.length < 0x80
  · rw [if_pos hlen] at hroom
    by_cases hn : (encode value).length < 0xFB
    · rw [if_pos hn] at hroom
      exact string_guessOne hs hlen hn (by omega)
    · rw [if_neg hn] at hroom
      exact string_moveUp hs hlen hn (by omega)
  · rw [if_neg hlen] at hroom
    by_cases hshort : value.length < 0x4000
    · rw [if_pos hshort] at hroom
      by_cases hn : (encode value).length < 0xFB
      · exact string_moveDown hs hlen hshort hn (by omega)
      · exact string_guessTwo hs hlen hshort hn (by omega)
    · rw [if_neg hshort] at hroom
      have hbytes := (appends_lenencInt h).andThen (appends_bytes (encode value))
        (Nat.le_add_right _ _) (le_refl _)
      obtain ⟨t,ht,ho,hsent⟩ := hbytes s q pre hs hroom
      refine ⟨t,?_,ho,hsent⟩
      unfold writeShortLenencString
      rw [bind_apply,get_apply,Outcome.andThen_done,branch_apply,if_neg hlen,branch_apply,
        if_neg hshort]
      exact ht

end SpiritMysql.FieldWriter
