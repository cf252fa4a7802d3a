import Mathlib.Data.List.Basic
import Mathlib.Tactic.Common

/-!
# Percent escapes

Text whose characters are partly written as `%XX` escapes of their UTF-8 bytes. Which
characters are escaped is a parameter. Reading gives the bytes back, and from them the text.
-/

namespace SpiritMysql.PercentCoding

/-- A hexadecimal digit. -/
def hexDigit (n : ℕ) : Char := "0123456789ABCDEF".toList.getD n '0'

/-- The value of a hexadecimal digit of either case. -/
def hexValue (c : Char) : Option ℕ :=
  if '0' ≤ c ∧ c ≤ '9' then some (c.toNat-48)
  else if 'A' ≤ c ∧ c ≤ 'F' then some (c.toNat-55)
  else if 'a' ≤ c ∧ c ≤ 'f' then some (c.toNat-87)
  else none

/-- The byte of an escape, if the three characters are one. -/
def escape (c a b : Char) : Option UInt8 :=
  if c = '%' then
    match hexValue a,hexValue b with
    | some x,some y => some (UInt8.ofNat (16*x+y))
    | _,_ => none
  else none

/-- A byte as an escape. -/
def escapeByte (b : UInt8) : List Char := [ '%',hexDigit (b.toNat/16),hexDigit (b.toNat%16)]

/-- A character, escaped if it is in the set. -/
def encodeChar (set : Char → Bool) (c : Char) : List Char :=
  if set c=true then (String.utf8EncodeChar c).flatMap escapeByte else [c]

/-- Text with the characters of the set escaped. -/
def encode (set : Char → Bool) (text : List Char) : List Char := text.flatMap (encodeChar set)

/-- The bytes of text. What is not an escape stands for its own UTF-8 bytes. -/
def bytes : List Char → List UInt8
  | c::a::b::rest =>
    match escape c a b with
    | some byte => byte::bytes rest
    | none => String.utf8EncodeChar c++bytes (a::b::rest)
  | text => text.flatMap String.utf8EncodeChar

/-- If every percent sign starts an escape. -/
def wellFormed : List Char → Bool
  | c::a::b::rest =>
    if (escape c a b).isSome=true then wellFormed rest else c != '%' && wellFormed (a::b::rest)
  | text => text.all (· != '%')

/-- The text of UTF-8 bytes. -/
def utf8 (bs : List UInt8) : Option (List Char) := bs.toByteArray.utf8Decode?.map Array.toList

/-- The text that is escaped, unless an escape is malformed. -/
def decode (text : List Char) : Option (List Char) :=
  if wellFormed text=true then utf8 (bytes text) else none

/-- The digits are read back. -/
theorem hexValue_hexDigit {n : ℕ} (h : n < 16) : hexValue (hexDigit n)=some n := by
  have hall : ∀ k : Fin 16, hexValue (hexDigit k)=some k.val := by decide
  exact hall ⟨n,h⟩

/-- An escaped byte is read back. -/
theorem escape_escapeByte (b : UInt8) :
    escape '%' (hexDigit (b.toNat/16)) (hexDigit (b.toNat%16))=some b := by
  have hb : b.toNat < 256 := b.toNat_lt
  have hd : 16*(b.toNat/16)+b.toNat%16=b.toNat := Nat.div_add_mod b.toNat 16
  simp only [escape,if_true,hexValue_hexDigit (show b.toNat/16 < 16 by omega),
    hexValue_hexDigit (show b.toNat%16 < 16 by omega)]
  rw [hd]
  exact congrArg some UInt8.ofNat_toNat

/-- Only a percent sign starts an escape. -/
theorem escape_other {c : Char} (h : c ≠ '%') (a b : Char) : escape c a b=none := if_neg h

/-- The bytes after an escaped byte. -/
theorem bytes_escapeByte (b : UInt8) (rest : List Char) :
    bytes (escapeByte b++rest)=b::bytes rest := by
  change bytes ('%'::hexDigit (b.toNat/16)::hexDigit (b.toNat%16)::rest)=_
  rw [bytes,escape_escapeByte]

/-- An escaped byte is well formed. -/
theorem wellFormed_escapeByte (b : UInt8) (rest : List Char) :
    wellFormed (escapeByte b++rest)=wellFormed rest := by
  change wellFormed ('%'::hexDigit (b.toNat/16)::hexDigit (b.toNat%16)::rest)=_
  rw [wellFormed,escape_escapeByte]
  rfl

/-- The bytes after a character that starts no escape. -/
theorem bytes_char {c : Char} (h : c ≠ '%') (rest : List Char) :
    bytes (c::rest)=String.utf8EncodeChar c++bytes rest := by
  match rest with
  | [] => rfl
  | [_] => simp [bytes]
  | a::b::rest => rw [bytes,escape_other h]

/-- Other characters are well formed. -/
theorem wellFormed_char {c : Char} (h : c ≠ '%') (rest : List Char) :
    wellFormed (c::rest)=wellFormed rest := by
  have hc : (c != '%')=true := bne_iff_ne.mpr h
  match rest with
  | [] => simp [wellFormed,hc]
  | [_] => simp [wellFormed,hc]
  | a::b::rest =>
    rw [wellFormed,escape_other h,hc]
    rfl

/-- The bytes after several escaped ones. -/
theorem bytes_escaped (bs : List UInt8) (rest : List Char) :
    bytes (bs.flatMap escapeByte++rest)=bs++bytes rest := by
  induction bs with
  | nil => rfl
  | cons b bs ih =>
    rw [List.flatMap_cons,List.append_assoc,bytes_escapeByte,ih]
    rfl

/-- Escaped bytes are well formed. -/
theorem wellFormed_escaped (bs : List UInt8) (rest : List Char) :
    wellFormed (bs.flatMap escapeByte++rest)=wellFormed rest := by
  induction bs with
  | nil => rfl
  | cons b bs ih => rw [List.flatMap_cons,List.append_assoc,wellFormed_escapeByte,ih]

section Encoding

variable {set : Char → Bool}

/-- A character in the set. -/
theorem encodeChar_mem {c : Char} (h : set c=true) :
    encodeChar set c=(String.utf8EncodeChar c).flatMap escapeByte := if_pos h

/-- A character outside the set. -/
theorem encodeChar_not_mem {c : Char} (h : set c=false) : encodeChar set c=[c] :=
  if_neg (by rw [h]; decide)

/-- The bytes after one character of encoded text. -/
theorem bytes_encodeChar {c : Char} (h : c = '%' → set c=true) (rest : List Char) :
    bytes (encodeChar set c++rest)=String.utf8EncodeChar c++bytes rest := by
  by_cases hs : set c=true
  · rw [encodeChar_mem hs,bytes_escaped]
  · rw [encodeChar_not_mem (Bool.eq_false_iff.mpr hs)]
    exact bytes_char (fun he => hs (h he)) rest

/-- One character of encoded text is well formed. -/
theorem wellFormed_encodeChar {c : Char} (h : c = '%' → set c=true) (rest : List Char) :
    wellFormed (encodeChar set c++rest)=wellFormed rest := by
  by_cases hs : set c=true
  · rw [encodeChar_mem hs,wellFormed_escaped]
  · rw [encodeChar_not_mem (Bool.eq_false_iff.mpr hs)]
    exact wellFormed_char (fun he => hs (h he)) rest

variable {text : List Char}

/-- Encoded text has the bytes of the text. -/
theorem bytes_encode (h : '%' ∈ text → set '%'=true) :
    bytes (encode set text)=text.flatMap String.utf8EncodeChar := by
  induction text with
  | nil => rfl
  | cons c text ih =>
    have hc : c = '%' → set c=true := by
      intro he
      subst he
      exact h List.mem_cons_self
    have ht := ih (fun hm => h (List.mem_cons_of_mem _ hm))
    calc bytes (encode set (c::text))
        =bytes (encodeChar set c++encode set text) := by rw [encode,List.flatMap_cons]; rfl
      _=String.utf8EncodeChar c++bytes (encode set text) := bytes_encodeChar hc _
      _=(c::text).flatMap String.utf8EncodeChar := by rw [ht,List.flatMap_cons]

/-- Encoded text is well formed. -/
theorem wellFormed_encode (h : '%' ∈ text → set '%'=true) :
    wellFormed (encode set text)=true := by
  induction text with
  | nil => rfl
  | cons c text ih =>
    have hc : c = '%' → set c=true := by
      intro he
      subst he
      exact h List.mem_cons_self
    rw [encode,List.flatMap_cons,wellFormed_encodeChar hc]
    exact ih (fun hm => h (List.mem_cons_of_mem _ hm))

end Encoding

/-- UTF-8 is read back. -/
theorem utf8_encoded (text : List Char) :
    utf8 (text.flatMap String.utf8EncodeChar)=some text := by
  have h : (text.flatMap String.utf8EncodeChar).toByteArray=text.utf8Encode := rfl
  rw [utf8,h,List.utf8Decode?_utf8Encode]
  rfl

/-- Encoded text is read back. -/
theorem decode_encode {set : Char → Bool} {text : List Char} (h : '%' ∈ text → set '%'=true) :
    decode (encode set text)=some text := by
  rw [decode,if_pos (wellFormed_encode h),bytes_encode h,utf8_encoded]

/-- UTF-8 starts with the first character. -/
theorem utf8_char (c : Char) (bs : List UInt8) :
    utf8 (String.utf8EncodeChar c++bs)=(utf8 bs).map (c :: ·) := by
  have h : (String.utf8EncodeChar c++bs).toByteArray=[c].utf8Encode++bs.toByteArray := by
    rw [List.toByteArray_append,List.utf8Encode_singleton]
  rw [utf8,utf8,h,ByteArray.utf8Decode?_utf8Encode_singleton_append]
  cases bs.toByteArray.utf8Decode? with
  | none => rfl
  | some text => simp

/-- Decoding starts with the first character, if nothing is escaped there. -/
theorem decode_cons {c : Char} (h : c ≠ '%') (rest : List Char) :
    decode (c::rest)=(decode rest).map (c :: ·) := by
  rw [decode,decode,wellFormed_char h,bytes_char h,utf8_char]
  split
  · rfl
  · rfl

/-- Encoding of two texts one after another. -/
theorem encode_append (set : Char → Bool) (a b : List Char) :
    encode set (a++b)=encode set a++encode set b := List.flatMap_append

/-- Encoding starts with the first character. -/
theorem encode_cons (set : Char → Bool) (c : Char) (text : List Char) :
    encode set (c::text)=encodeChar set c++encode set text := List.flatMap_cons

/-- Text that has no character of the set is left as it is. -/
theorem encode_eq_self {set : Char → Bool} {text : List Char} (h : ∀ c ∈ text,set c=false) :
    encode set text=text := by
  induction text with
  | nil => rfl
  | cons c text ih =>
    rw [encode_cons,encodeChar_not_mem (h c List.mem_cons_self),
      ih (fun x hx => h x (List.mem_cons_of_mem _ hx))]
    rfl

/-- Encoding leaves something of every character. -/
theorem encode_ne_nil {set : Char → Bool} {text : List Char} (h : text≠[]) :
    encode set text≠[] := by
  obtain ⟨c,rest,rfl⟩ := List.exists_cons_of_ne_nil h
  rw [encode_cons]
  by_cases hs : set c=true
  · obtain ⟨b,bs,hb⟩ := List.exists_cons_of_ne_nil (String.utf8EncodeChar_ne_nil (c := c))
    rw [encodeChar_mem hs,hb,List.flatMap_cons]
    exact List.cons_ne_nil _ _
  · rw [encodeChar_not_mem (Bool.eq_false_iff.mpr hs)]
    exact List.cons_ne_nil _ _

/-- The characters that escapes are made of. -/
def isEscapeChar (c : Char) : Bool := c == '%' || "0123456789ABCDEF".toList.contains c

/-- What holds of the escape character and the digits holds of every character of escapes. -/
theorem of_isEscapeChar {p : Char → Bool} {c : Char} (h : isEscapeChar c=true)
    (hall : ('%'::"0123456789ABCDEF".toList).all p=true) : p c=true := by
  refine List.all_eq_true.mp hall c ?_
  simp only [isEscapeChar,Bool.or_eq_true,beq_iff_eq,List.contains_iff_mem] at h
  exact List.mem_cons.mpr h

/-- The digits are among them. -/
theorem isEscapeChar_hexDigit {n : ℕ} (h : n < 16) : isEscapeChar (hexDigit n)=true := by
  have hall : ∀ k : Fin 16, isEscapeChar (hexDigit k)=true := by decide
  exact hall ⟨n,h⟩

/-- An escaped byte is made of them. -/
theorem isEscapeChar_of_escapeByte {b : UInt8} {c : Char} (h : c ∈ escapeByte b) :
    isEscapeChar c=true := by
  have hb : b.toNat < 256 := b.toNat_lt
  simp only [escapeByte,List.mem_cons,List.not_mem_nil,or_false] at h
  rcases h with rfl | rfl | rfl
  · decide
  · exact isEscapeChar_hexDigit (by omega)
  · exact isEscapeChar_hexDigit (by omega)

/-- A character of encoded text belongs to an escape or is one that is not escaped. -/
theorem mem_encode {set : Char → Bool} {text : List Char} {c : Char} (h : c ∈ encode set text) :
    isEscapeChar c=true ∨ c ∈ text ∧ set c=false := by
  obtain ⟨x,hx,hc⟩ := List.mem_flatMap.mp h
  by_cases hs : set x=true
  · rw [encodeChar_mem hs] at hc
    obtain ⟨b,-,hb⟩ := List.mem_flatMap.mp hc
    exact .inl (isEscapeChar_of_escapeByte hb)
  · have hf := Bool.eq_false_iff.mpr hs
    rw [encodeChar_not_mem hf,List.mem_singleton] at hc
    subst hc
    exact .inr ⟨hx,hf⟩

/-- Two encodings one after another are one, if the second leaves escapes alone. -/
theorem encode_encode {first second : Char → Bool}
    (h : ∀ c,isEscapeChar c=true → second c=false) (text : List Char) :
    encode second (encode first text)=encode (fun c => first c || second c) text := by
  induction text with
  | nil => rfl
  | cons c text ih =>
    rw [encode_cons,encode_append,ih,encode_cons]
    congr 1
    by_cases hs : first c=true
    · rw [encodeChar_mem hs,encodeChar_mem (show (first c || second c)=true by rw [hs]; rfl)]
      refine encode_eq_self (fun x hx => h x ?_)
      obtain ⟨b,-,hb⟩ := List.mem_flatMap.mp hx
      exact isEscapeChar_of_escapeByte hb
    · have hf := Bool.eq_false_iff.mpr hs
      rw [encodeChar_not_mem hf,encode_cons]
      simp only [encodeChar,hf,Bool.false_or]
      exact List.append_nil _

end SpiritMysql.PercentCoding
