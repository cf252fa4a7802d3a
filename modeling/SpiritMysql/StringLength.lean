import SpiritMysql.StringSends

/-!
# The length of a string in advance

`utf8StringLength()` gives the number of bytes that the encoder writes, whatever surrogates
the string has, and whatever the sizes of the destinations are that it is encoded into.
-/

namespace SpiritMysql.StringLength

open AsyncAction PacketFraming PacketSends StringSends Writer
open Reader (maxPayload)
open Utf16Text hiding Char

/-- The characters of a string of 16-bit units. A surrogate that is not in a pair is read
as `U+FFFD`. -/
def scalarValues : List UInt16 → List Char
  | [] => []
  | [a] => [Char.ofNat (scalar a)]
  | a::b::text =>
    if isHigh a && isLow b then Char.ofNat (pair a b)::scalarValues text
    else Char.ofNat (scalar a)::scalarValues (b::text)

/-- Encode a string into destinations one after another. The result is what was written to
each, and the units that are left. -/
def encodePieces : List ℕ → List UInt16 → List (List UInt8)×List UInt16
  | [],text => ([],text)
  | room::rooms,text =>
    let step := encodeInto text room
    let rest := encodePieces rooms (text.drop step.1)
    (step.2::rest.1,rest.2)

/-- Send a long string as `sendWithData()` does, in parts for destinations one after
another, until nothing is left. -/
def sendParts : List ℕ → LongText → Write (List (List UInt8)×LongText)
  | [],t => pure ([],t)
  | room::rooms,t =>
    if t.data=[] ∧ t.carry=[] then pure ([],t)
    else do
      let (part,rest) ← nextPart room t
      let (parts,last) ← sendParts rooms rest
      pure (part::parts,last)

/-- How many bytes several parts have. -/
def written (parts : List (List UInt8)) : ℕ := (parts.map List.length).sum

/-- The number of bytes of the parts one after another. -/
theorem written_eq (parts : List (List UInt8)) : written parts=parts.flatten.length :=
  List.length_flatten.symm

/-- A unit alone is a character, or stands for one. -/
theorem scalar_valid (c : UInt16) : (scalar c).isValidChar := by
  have hc := c.toNat_lt
  unfold scalar
  split
  · exact .inr ⟨by decide,by decide⟩
  · rename_i hs
    simp only [isHigh,isLow,Bool.or_eq_true,Bool.and_eq_true,decide_eq_true_eq] at hs
    by_cases h : c.toNat < 0xD800
    · exact .inl h
    · exact .inr ⟨by omega,by omega⟩

/-- A surrogate pair is a character. -/
theorem pair_valid {a b : UInt16} (h : (isHigh a && isLow b)=true) : (pair a b).isValidChar := by
  simp only [isHigh,isLow,Bool.and_eq_true,decide_eq_true_eq] at h
  refine .inr ⟨?_,?_⟩
  · unfold pair
    omega
  · unfold pair
    omega

/-- The bytes of a character are its UTF-8 bytes. -/
theorem scalarBytes_eq {n : ℕ} (h : n.isValidChar) :
    scalarBytes n=String.utf8EncodeChar (Char.ofNat n) := by
  have hv : (Char.ofNat n).val.toNat=n := by
    rw [Char.ofNat,dif_pos h]
    rfl
  have hn : n < 0x110000 := by
    rcases h with h | h
    · omega
    · exact h.2
  unfold scalarBytes String.utf8EncodeChar
  dsimp only
  rw [hv]
  by_cases h1 : n < 0x80
  · rw [if_pos h1,if_pos (show n ≤ 127 by omega)]
  rw [if_neg h1,if_neg (show ¬n ≤ 127 by omega)]
  by_cases h2 : n < 0x800
  · rw [if_pos h2,if_pos (show n ≤ 2047 by omega),show n/64%32+192=192+n/64 by omega,
      show n%64+128=128+n%64 by omega]
  rw [if_neg h2,if_neg (show ¬n ≤ 2047 by omega)]
  by_cases h3 : n < 0x10000
  · rw [if_pos h3,if_pos (show n ≤ 65535 by omega),show n/4096%16+224=224+n/4096 by omega,
      show n/64%64+128=128+n/64%64 by omega,show n%64+128=128+n%64 by omega]
  · rw [if_neg h3,if_neg (show ¬n ≤ 65535 by omega),show n/262144%8+240=240+n/262144 by omega,
      show n/4096%64+128=128+n/4096%64 by omega,show n/64%64+128=128+n/64%64 by omega,
      show n%64+128=128+n%64 by omega]

/-- The bytes of a string are the UTF-8 bytes of its characters. -/
theorem encode_eq (text : List UInt16) :
    encode text=(scalarValues text).flatMap String.utf8EncodeChar := by
  induction text using chars.induct with
  | case1 => rfl
  | case2 a =>
    change scalarBytes (scalar a)++[]=String.utf8EncodeChar (Char.ofNat (scalar a))++[]
    rw [scalarBytes_eq (scalar_valid a)]
  | case3 a b text hp ih =>
    have he : encode (a::b::text)=scalarBytes (pair a b)++encode text := by
      rw [encode,chars,if_pos hp,List.flatMap_cons,encode]
    rw [he,ih,scalarBytes_eq (pair_valid hp),scalarValues,if_pos hp,List.flatMap_cons]
  | case4 a b text hp ih =>
    have he : encode (a::b::text)=scalarBytes (scalar a)++encode (b::text) := by
      rw [encode,chars,if_neg hp,List.flatMap_cons,encode]
    rw [he,ih,scalarBytes_eq (scalar_valid a),scalarValues,if_neg hp,List.flatMap_cons]

/-- The number of bytes of a string. -/
theorem encode_length (text : List UInt16) :
    (encode text).length=(String.ofList (scalarValues text)).utf8ByteSize := by
  have h : (String.ofList (scalarValues text)).toByteArray=
      ((scalarValues text).flatMap String.utf8EncodeChar).toByteArray := rfl
  rw [←String.size_toByteArray,h,List.size_toByteArray,encode_eq]

/-- Pieces of any sizes have the bytes of the units that they took. -/
theorem encodePieces_spec (rooms : List ℕ) (text : List UInt16) :
    (encodePieces rooms text).1.flatten++encode (encodePieces rooms text).2=encode text := by
  induction rooms generalizing text with
  | nil => rfl
  | cons room rooms ih =>
    have hs := (encodeInto_spec text room).1
    have hi := ih (text.drop (encodeInto text room).1)
    rw [encodePieces,List.flatten_cons,List.append_assoc,hi,hs]

/-- Nothing is left when there are no units and no tail of a character. -/
theorem textBytes_nil {t : LongText} : textBytes t=[]↔t.data=[] ∧ t.carry=[] := by
  rw [textBytes,List.append_eq_nil_iff,encode_eq_nil]
  exact And.comm

/-- Parts for destinations of any sizes have the bytes of the string, and each destination
takes at least one of them. -/
theorem sendParts_spec {s : State} {rooms : List ℕ} {t : LongText}
    (hr : ∀ room ∈ rooms,0 < room) (hb : 4 ≤ s.buffer.length) :
    ∃ parts rest u,sendParts rooms t s=.done (parts,rest) u ∧
      parts.flatten++textBytes rest=textBytes t ∧
      (textBytes rest=[] ∨ rooms.length ≤ parts.flatten.length) := by
  induction rooms generalizing s t with
  | nil => exact ⟨[],t,s,rfl,rfl,.inr (Nat.zero_le _)⟩
  | cons room rooms ih =>
    by_cases hn : t.data=[] ∧ t.carry=[]
    · refine ⟨[],t,s,?_,rfl,.inl (textBytes_nil.mpr hn)⟩
      rw [sendParts,if_pos hn]
      rfl
    · have hne : textBytes t≠[] := fun he => hn (textBytes_nil.mp he)
      obtain ⟨part,rest,u,hu,hp,-,hj,-,-,-,hs⟩ :=
        nextPart_spec (hr room List.mem_cons_self) hne hb
      have hbu : 4 ≤ u.buffer.length := by
        rw [hs.size]
        exact hb
      obtain ⟨parts,last,v,hv,hl,hc⟩ :=
        @ih u rest (fun x hx => hr x (List.mem_cons_of_mem _ hx)) hbu
      refine ⟨part::parts,last,v,?_,?_,?_⟩
      · rw [sendParts,if_neg hn]
        simp only [bind_apply,hu,hv,Outcome.andThen_done,pure_apply]
      · rw [List.flatten_cons,List.append_assoc,hl,hj]
      · rcases hc with hc | hc
        · exact .inl hc
        · refine .inr ?_
          rw [List.length_cons,List.flatten_cons,List.length_append]
          omega

/-- Pieces that `encodeInto()` writes to destinations of any sizes. The length of the string
is the number of bytes that were written and the length of what is left. -/
def PiecesExact (text : List UInt16) : Prop :=
  ∀ rooms,written (encodePieces rooms text).1+utf8StringLength (encodePieces rooms text).2=
    utf8StringLength text

/-- Parts for destinations of any sizes, where a character that does not fit is split by
hand. With enough destinations nothing is left. -/
def PartsExact (text : List UInt16) : Prop :=
  ∀ (s : State) (rooms : List ℕ),4 ≤ s.buffer.length → (∀ room ∈ rooms,0 < room) →
    ∃ parts rest u,
      sendParts rooms {data := text, dataLength := utf8StringLength text} s=
        .done (parts,rest) u ∧
      written parts+(utf8StringLength rest.data+rest.carry.length)=utf8StringLength text ∧
      (utf8StringLength text ≤ rooms.length → rest.data=[] ∧ rest.carry=[])

/-- `sendWithData()` of a string that does not fit the buffer completes. It sends the
packets of the prefix and the bytes of the string, and these are as many as was counted. -/
def SendExact (text : List UInt16) : Prop :=
  ∀ (s : State) (queued pre : List UInt8) (canWait : Bool),
    Opened s queued pre → 4 ≤ s.buffer.length → pre.length ≤ maxPayload →
    ∃ w t bytes,sendLongString canWait text s=.done w t ∧
      bytes.length=utf8StringLength text ∧
      t.out++pending t=s.out++(queued++emission s.sequenceId (pre++bytes))

/-- `utf8StringLength()` is exact for every sequence of units. -/
theorem utf8StringLength_exact (text : List UInt16) :
    utf8StringLength text=(String.ofList (scalarValues text)).utf8ByteSize ∧
      PiecesExact text ∧ PartsExact text ∧ SendExact text := by
  refine ⟨(utf8StringLength_eq text).trans (encode_length text),?_,?_,?_⟩
  · intro rooms
    have h := congrArg List.length (encodePieces_spec rooms text)
    rw [written_eq,utf8StringLength_eq,utf8StringLength_eq,←h,List.length_append]
  · intro s rooms hb hr
    have ht : textBytes {data := text, dataLength := utf8StringLength text}=encode text :=
      List.nil_append _
    obtain ⟨parts,rest,u,hu,hj,hc⟩ :=
      sendParts_spec (t := {data := text, dataLength := utf8StringLength text}) hr hb
    rw [ht] at hj
    have hl := congrArg List.length hj
    rw [List.length_append] at hl
    refine ⟨parts,rest,u,hu,?_,?_⟩
    · rw [written_eq,utf8StringLength_eq,utf8StringLength_eq,←hl,textBytes,List.length_append]
      omega
    · intro hle
      rw [utf8StringLength_eq] at hle
      refine textBytes_nil.mp (List.length_eq_zero_iff.mp ?_)
      rcases hc with hc | hc
      · rw [hc]
        rfl
      · omega
  · intro s queued pre canWait ho hb hp
    obtain ⟨w,t,hw,-,he⟩ := sendLongString_spec canWait text ho hb hp
    exact ⟨w,t,encode text,hw,(utf8StringLength_eq text).symm,he.out⟩

/-- Two high surrogates and a pair: the first one is alone. -/
example : utf8StringLength [0xD83D,0xD83D,0xDE01]=7 ∧
    encode [0xD83D,0xD83D,0xDE01]=[0xEF,0xBF,0xBD,0xF0,0x9F,0x98,0x81] := by decide

end SpiritMysql.StringLength
