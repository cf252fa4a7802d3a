import SpiritMysql.FieldWriter
import SpiritMysql.ReceiveRun

/-!
# Length-encoded values, written and read

Values that are written one after another take their shortest forms. The reader
returns them and consumes exactly these forms, wherever they stand in a payload.
-/

namespace SpiritMysql.LenencRun

open AsyncAction ByteCodec FieldWriter PacketSends PacketStream ReadScript ReceiveBuffer Utf16Text
  Writer
open ChunkCursor (Regular)
open Reader (maxPayload bufferLen lenencSize lenencValue)

/-- A value with a length-encoded form. -/
inductive Item where
  /-- For `writeLenencInt()` and `readLenencInt()`. -/
  | int (n : ℕ)
  /-- For `writeShortLenencBytes()` and `readShortLenencBytes()`. -/
  | bytes (value : List UInt8)
  /-- For `writeShortLenencString()` and the bytes of `readShortLenencString()`. -/
  | string (value : List UInt16)

/-- Write a value. -/
def Item.write : Item → Write Unit
  | .int n => writeLenencInt n
  | .bytes value => writeShortLenencBytes value
  | .string value => writeShortLenencString value

/-- The bytes of a value without its length. -/
def Item.data : Item → List UInt8
  | .int _ => []
  | .bytes value => value
  | .string value => encode value

/-- The number of a value, which is its length when it has bytes. -/
def Item.number : Item → ℕ
  | .int n => n
  | .bytes value => value.length
  | .string value => (encode value).length

/-- The form of a value. -/
def Item.form (i : Item) : List UInt8 := lenenc i.number++i.data

/-- The room that writing a value needs. -/
def Item.need : Item → ℕ
  | .string value => stringNeed value
  | i => i.form.length

/-- The operation that reads a value. -/
def Item.op : Item → ReadOp
  | .int _ => .lenencInt
  | _ => .shortLenencBytes

/-- What the operation returns. -/
def Item.value : Item → Value
  | .int n => .int n
  | i => .bytes i.data

/-- A number of 64 bits, or bytes that the receive buffer has room for. -/
def Item.Readable : Item → Prop
  | .int n => n < 2^64
  | i => i.data.length+4 ≤ bufferLen

/-- There is room for the values, one after another. -/
def Fits (size : ℕ) : List Item → ℕ → Prop
  | [],_ => True
  | i::is,first => first+i.need ≤ size ∧ Fits size is (first+i.form.length)

/-- Write values. -/
def writeAll : List Item → Write Unit
  | [] => pure ()
  | i::is => do
    i.write
    writeAll is

/-- Read the values after some bytes. -/
def readAll (before : ℕ) (items : List Item) : Script (List Value) :=
  .read (.bytesToBuffer before) fun _ => go items []
where
  /-- Read the values that remain. -/
  go : List Item → List Value → Script (List Value)
    | [],values => .done values
    | i::is,values => .read i.op fun v => go is (values++[v])

/-! ## Writing -/

/-- A value is appended in its form. -/
theorem item_appends {i : Item} (h : i.Readable) : Appends i.write i.form i.need := by
  have hbuffer : bufferLen < 2^64 := by decide
  cases i with
  | int n =>
    have hx := appends_lenencInt (n := n) h
    rw [← List.append_nil (lenenc n)] at hx
    exact hx
  | bytes value =>
    have hlen : value.length+4 ≤ bufferLen := h
    exact appends_lenencBytes (by omega)
  | string value =>
    have hlen : (encode value).length+4 ≤ bufferLen := h
    exact appends_lenencString (by omega)

/-- Values are appended one after another. -/
theorem writeAll_spec {items : List Item} (hread : ∀ i ∈ items,i.Readable) {s : Writer.State}
    {q pre : List UInt8} (h : Opened s q pre) (hfits : Fits s.buffer.length items s.bufferEnd) :
    ∃ t,writeAll items s=.done () t ∧ Opened t q (pre++items.flatMap Item.form) ∧
      Sent s [] 0 t := by
  induction items generalizing s pre with
  | nil => exact ⟨s,rfl,by rwa [List.flatMap_nil,List.append_nil],.refl s⟩
  | cons i items ih =>
    obtain ⟨hroom,hrest⟩ := hfits
    obtain ⟨t,ht,ho,hs⟩ := item_appends (hread i List.mem_cons_self) s q pre h hroom
    rw [← opened_end h ho,← hs.size] at hrest
    obtain ⟨u,hu,ho',hs'⟩ := ih (fun j hj => hread j (List.mem_cons_of_mem _ hj)) ho hrest
    refine ⟨u,?_,?_,hs.trans hs'⟩
    · rw [writeAll,bind_apply,ht,Outcome.andThen_done,hu]
    · rwa [List.flatMap_cons,← List.append_assoc]

/-! ## Reading -/

/-- A length-encoded integer is split off. -/
theorem splitLenenc_form {n : ℕ} (h : n < 2^64) (X : List UInt8) :
    splitLenenc (lenenc n++X)=some ((n : ℤ),X) := by
  obtain ⟨b,bs,hb,hsize,-,-⟩ := lenenc_head n
  have hvalue := lenencValue_lenenc h
  have htake : (b::(bs++X)).take (lenencSize b)=lenenc n := by
    rw [hsize,hb,← List.cons_append,List.take_left]
  have hdrop : (b::(bs++X)).drop (lenencSize b)=X := by
    rw [hsize,hb,← List.cons_append,List.drop_left]
  have hlen : lenencSize b ≤ (b::(bs++X)).length := by
    rw [hsize,hb,List.length_cons,List.length_cons,List.length_append]
    omega
  rw [hb,List.cons_append,splitLenenc,splitBytes,if_pos hlen,htake,hdrop,Option.map_some,hvalue]

/-- A value is read from its form. -/
theorem item_parse {i : Item} (h : i.Readable) (X : List UInt8) :
    i.op.parse (i.form++X)=some (i.value,X) := by
  have hbuffer : bufferLen < 2^64 := by decide
  have hbytes : ∀ data : List UInt8,data.length+4 ≤ bufferLen →
      ReadOp.shortLenencBytes.parse ((lenenc data.length++data)++X)=some (.bytes data,X) := by
    intro data hlen
    rw [ReadOp.parse,List.append_assoc,splitLenenc_form (by omega)]
    dsimp only
    rw [if_neg (by omega),Int.toNat_natCast,if_pos hlen,splitBytes,
      if_pos (by rw [List.length_append]; omega),List.take_left,List.drop_left]
    rfl
  cases i with
  | int n =>
    have hform : (Item.int n).form=lenenc n := List.append_nil _
    rw [hform]
    change (splitLenenc (lenenc n++X)).map _=_
    rw [splitLenenc_form h]
    rfl
  | bytes value => exact hbytes value h
  | string value => exact hbytes (encode value) h

/-- Values are read from their forms. -/
theorem parse_go {items : List Item} (hread : ∀ i ∈ items,i.Readable) (values : List Value)
    (X : List UInt8) : (readAll.go items values).parse (items.flatMap Item.form++X)=
      some (values++items.map Item.value,X) := by
  induction items generalizing values with
  | nil =>
    rw [List.map_nil,List.append_nil]
    rfl
  | cons i items ih =>
    rw [readAll.go,Script.parse,List.flatMap_cons,List.append_assoc,
      item_parse (hread i List.mem_cons_self)]
    dsimp only
    rw [ih (fun j hj => hread j (List.mem_cons_of_mem _ hj)),List.map_cons,List.append_assoc]
    rfl

/-- Values are read after other bytes. -/
theorem parse_readAll {items : List Item} (hread : ∀ i ∈ items,i.Readable) (before X : List UInt8) :
    (readAll before.length items).parse (before++(items.flatMap Item.form++X))=
      some (items.map Item.value,X) := by
  have hgo := parse_go hread [] X
  have hlen : before.length ≤ (before++(items.flatMap Item.form++X)).length := by
    rw [List.length_append]
    omega
  rw [readAll,Script.parse,ReadOp.parse,splitBytes,if_pos hlen,List.take_left,List.drop_left,
    Option.map_some]
  exact hgo

/-! ## The shortest form -/

/-- No form of a number is shorter, if its first byte is not the mark of an error. -/
theorem lenenc_shortest {n : ℕ} {bs : List UInt8} (h : splitLenenc bs=some ((n : ℤ),[]))
    (herr : bs.head?≠some 0xFF) : (lenenc n).length ≤ bs.length := by
  cases bs with
  | nil => cases h
  | cons b bs =>
    rw [splitLenenc] at h
    obtain ⟨hlen,hv⟩ := splitBytes_eq h
    obtain ⟨hvalue,hdrop⟩ := Prod.mk.inj hv
    have hsize : (b::bs).length=lenencSize b := by
      have hd := List.drop_eq_nil_iff.mp hdrop.symm
      omega
    dsimp only at hvalue
    rw [← hsize,List.take_length] at hvalue
    have hff : b≠0xFF := fun he => herr (by rw [he]; rfl)
    have hword : ∀ k,bs.length=k → lenencValue (b::bs)=leNat bs → n < 256^k := by
      intro k hk hl
      have hlt := leNat_lt bs
      rw [hk] at hlt
      omega
    rw [hsize]
    unfold lenencSize at hsize ⊢
    rw [List.length_cons] at hsize
    by_cases hfe : b=0xFE
    · rw [if_pos hfe]
      exact (lenenc_length n).2
    rw [if_neg hfe] at hsize ⊢
    by_cases hfd : b=0xFD
    · rw [if_pos hfd] at hsize ⊢
      have hn := hword 3 (by omega) (by rw [hfd]; rfl)
      unfold lenenc
      split_ifs with h₁ h₂ h₃
      · exact Nat.le_of_ble_eq_true rfl
      · simp
      · simp
      · omega
    rw [if_neg hfd] at hsize ⊢
    by_cases hfc : b=0xFC
    · rw [if_pos hfc] at hsize ⊢
      have hn := hword 2 (by omega) (by rw [hfc]; rfl)
      unfold lenenc
      split_ifs with h₁ h₂ h₃
      · exact Nat.le_of_ble_eq_true rfl
      · simp
      · omega
      · omega
    rw [if_neg hfc] at hsize ⊢
    have hnil : bs=[] := List.length_eq_zero_iff.mp (by omega)
    rw [hnil,lenencValue,if_neg (by
      rintro (he | he | he)
      · exact hfe he
      · exact hfd he
      · exact hfc he)] at hvalue
    by_cases hfb : b=0xFB
    · rw [if_pos hfb] at hvalue
      omega
    rw [if_neg hfb] at hvalue
    have hb : n < 251 := by
      have hlt := b.toNat_lt
      have hne : ∀ m : ℕ,m < 256 → b≠.ofNat m → b.toNat≠m := by
        intro m hm hne he
        exact hne (by rw [← he,UInt8.ofNat_toNat])
      have h1 := hne 255 (by omega) hff
      have h2 := hne 254 (by omega) hfe
      have h3 := hne 253 (by omega) hfd
      have h4 := hne 252 (by omega) hfc
      have h5 := hne 251 (by omega) hfb
      omega
    rw [lenenc,if_pos hb]
    rfl

/-- Values that are written one after another are appended to the packet in their
shortest forms. Wherever these stand in a payload, and however it travels, the reader
returns the values and stands behind them. -/
theorem lenenc_items_round_trip {items : List Item} (hread : ∀ i ∈ items,i.Readable)
    {s : Writer.State} {q pre : List UInt8} (h : Opened s q pre)
    (hfits : Fits s.buffer.length items s.bufferEnd) :
    (∃ t,writeAll items s=.done () t ∧ Opened t q (pre++items.flatMap Item.form)) ∧
    (∀ i ∈ items,∀ bs,splitLenenc bs=some ((i.number : ℤ),[]) → bs.head?≠some 0xFF →
      i.form.length ≤ bs.length+i.data.length) ∧
    ∀ before X later pieces packet packets,(∀ piece ∈ pieces,piece≠[]) →
      pieces.flatten=frames (packet::packets)++later → Regular maxPayload (packet::packets) →
      (packet::packets).flatMap Prod.snd=before++(items.flatMap Item.form++X) →
      ∃ b' cur nexts,
        (do header; (readAll before.length items).run) (ReceiveBuffer.State.new pieces)=
          .done (items.map Item.value) b' ∧
        b'.stream=cur++(frames nexts++later) ∧ cur++nexts.flatMap Prod.snd=X := by
  refine ⟨?_,?_,?_⟩
  · obtain ⟨t,ht,ho,-⟩ := writeAll_spec hread h hfits
    exact ⟨t,ht,ho⟩
  · intro i _ bs hbs herr
    rw [Item.form,List.length_append]
    have hshort := lenenc_shortest hbs herr
    omega
  · intro before X later pieces packet packets hpieces hstream hregular hpayload
    have hparse := parse_readAll hread before X
    rw [← hpayload] at hparse
    obtain ⟨b₁,s₁,log,hb₁,h₁,hr₁⟩ := header_new hpieces hstream hregular
    obtain ⟨b',s',c',hb',h',hr',hX⟩ := run_parse _ h₁ hr₁ hparse
    obtain ⟨hstream',-⟩ := stands_at h' hr'
    refine ⟨b',c'.cur,c'.nexts,?_,hstream',hX⟩
    rw [bind_apply,hb₁,Outcome.andThen_done,hb']

/-- A number, a string and a byte string. -/
theorem lenenc_items_round_trip_three : ∃ t,writeAll [.int 300,.string [0x20AC,65],.bytes [1,2]]
    {buffer := List.replicate 32 0,bufferEnd := 4}=.done () t ∧
      Opened t [] ([]++[Item.int 300,.string [0x20AC,65],.bytes [1,2]].flatMap Item.form) := by
  have hread : ∀ i ∈ [Item.int 300,.string [0x20AC,65],.bytes [1,2]],i.Readable := by
    intro i hi
    simp only [List.mem_cons,List.not_mem_nil,or_false] at hi
    rcases hi with rfl | rfl | rfl
    · exact (by decide : 300 < 2^64)
    · exact (by decide : (encode [0x20AC,65]).length+4 ≤ bufferLen)
    · exact (by decide : 2+4 ≤ bufferLen)
  have hfits : Fits 32 [.int 300,.string [0x20AC,65],.bytes [1,2]] 4 :=
    ⟨by decide,by decide,by decide,trivial⟩
  exact (lenenc_items_round_trip hread
    (opened_empty (s := {buffer := List.replicate 32 0}) (by decide)) hfits).1

end SpiritMysql.LenencRun
