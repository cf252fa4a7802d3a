import Mathlib.Tactic.Common
import Mathlib.Data.Nat.Notation

/-!
# Texts of 16-bit units and their UTF-8 bytes

A text is a list of 16-bit units. Two surrogates in the right order make
one character, and a surrogate that is alone is encoded as `U+FFFD`. An
encoder that is given too little room writes the characters that fit and
never a part of one.
-/

namespace SpiritMysql.Utf16Text

/-- A unit that can begin a surrogate pair. -/
def isHigh (c : UInt16) : Bool := decide (0xD800 ≤ c.toNat) && decide (c.toNat ≤ 0xDBFF)

/-- A unit that can end a surrogate pair. -/
def isLow (c : UInt16) : Bool := decide (0xDC00 ≤ c.toNat) && decide (c.toNat ≤ 0xDFFF)

/-- The scalar value of a unit that is not in a pair. -/
def scalar (c : UInt16) : ℕ := if isHigh c || isLow c then 0xFFFD else c.toNat

/-- The scalar value of a surrogate pair. -/
def pair (a b : UInt16) : ℕ := 0x10000+(a.toNat-0xD800)*0x400+(b.toNat-0xDC00)

/-- The UTF-8 bytes of a scalar value. -/
def scalarBytes (n : ℕ) : List UInt8 :=
  if n < 0x80 then [.ofNat n]
  else if n < 0x800 then [.ofNat (0xC0+n/0x40),.ofNat (0x80+n%0x40)]
  else if n < 0x10000 then
    [.ofNat (0xE0+n/0x1000),.ofNat (0x80+n/0x40%0x40),.ofNat (0x80+n%0x40)]
  else
    [.ofNat (0xF0+n/0x40000),.ofNat (0x80+n/0x1000%0x40),.ofNat (0x80+n/0x40%0x40),
      .ofNat (0x80+n%0x40)]

/-- A character: its units and its bytes. -/
abbrev Char := List UInt16×List UInt8

/-- Cut a text into characters. -/
def chars : List UInt16 → List Char
  | [] => []
  | [a] => [([a],scalarBytes (scalar a))]
  | a::b::text =>
    if isHigh a && isLow b then ([a,b],scalarBytes (pair a b))::chars text
    else ([a],scalarBytes (scalar a))::chars (b::text)

/-- The bytes of a text. -/
def encode (text : List UInt16) : List UInt8 := (chars text).flatMap Prod.snd

/-- The units and the bytes of the leading characters that fit the room. -/
def fill : ℕ → List Char → ℕ×List UInt8
  | _,[] => (0,[])
  | room,c::cs =>
    if c.2.length ≤ room then
      let rest := fill (room-c.2.length) cs
      (c.1.length+rest.1,c.2++rest.2)
    else (0,[])

/-- Encode what fits the room. The result is the number of units that were
read and the bytes that were written. -/
def encodeInto (text : List UInt16) (room : ℕ) : ℕ×List UInt8 := fill room (chars text)

/-- The units of the first character. -/
def firstChar (text : List UInt16) : List UInt16 := ((chars text).head?.map Prod.fst).getD []

@[simp] theorem encode_nil : encode []=[] := rfl

/-- A character has at least one byte and at most four. -/
theorem scalarBytes_length (n : ℕ) : 0 < (scalarBytes n).length ∧ (scalarBytes n).length ≤ 4 := by
  unfold scalarBytes
  split
  · simp
  · split
    · simp
    · split <;> simp

/-- The scalar value of a unit alone is in the basic plane. -/
theorem scalar_lt (c : UInt16) : scalar c < 0x10000 := by
  have h := c.toNat_lt
  unfold scalar
  split
  · decide
  · omega

/-- A unit alone takes at most three bytes. -/
theorem scalar_bytes_length (c : UInt16) : (scalarBytes (scalar c)).length ≤ 3 := by
  have h := scalar_lt c
  unfold scalarBytes
  split
  · simp
  · split
    · simp
    · simp

/-- The first character is cut off and the rest is cut as a text. -/
theorem chars_cons {text : List UInt16} {c : Char} {cs : List Char} (h : chars text=c::cs) :
    ∃ rest,text=c.1++rest ∧ chars rest=cs ∧ chars c.1=[c] := by
  match text with
  | [] => cases h
  | [a] =>
    cases h
    exact ⟨[],rfl,rfl,rfl⟩
  | a::b::rest =>
    rw [chars] at h
    split at h
    · rename_i hp
      cases h
      refine ⟨rest,rfl,rfl,?_⟩
      show chars [a,b]=_
      rw [chars,if_pos hp]
      rfl
    · cases h
      exact ⟨b::rest,rfl,rfl,rfl⟩

/-- A text with no characters is empty. -/
theorem chars_eq_nil {text : List UInt16} : chars text=[]↔text=[] := by
  constructor
  · intro h
    match text with
    | [] => rfl
    | [a] => cases h
    | a::b::rest =>
      rw [chars] at h
      split at h <;> cases h
  · rintro rfl
    rfl

/-- Every character of a text has one or two units and at most three bytes
for each unit. -/
theorem chars_length {text : List UInt16} {c : Char} (h : c ∈ chars text) :
    0 < c.1.length ∧ 0 < c.2.length ∧ c.2.length ≤ 4 ∧ c.2.length ≤ 3*c.1.length := by
  induction text using chars.induct with
  | case1 => cases h
  | case2 a =>
    rw [chars,List.mem_singleton] at h
    subst h
    have h3 := scalar_bytes_length a
    have h1 := scalarBytes_length (scalar a)
    simp only [List.length_singleton]
    omega
  | case3 a b text hp ih =>
    rw [chars,if_pos hp] at h
    rcases List.mem_cons.mp h with rfl | h
    · have h1 := scalarBytes_length (pair a b)
      simp only [List.length_cons,List.length_nil]
      omega
    · exact ih h
  | case4 a b text hp ih =>
    rw [chars,if_neg hp] at h
    rcases List.mem_cons.mp h with rfl | h
    · have h3 := scalar_bytes_length a
      have h1 := scalarBytes_length (scalar a)
      simp only [List.length_singleton]
      omega
    · exact ih h

/-- The bytes of the first character come first. -/
theorem encode_cons {text : List UInt16} {c : Char} {cs : List Char} (h : chars text=c::cs) :
    encode text=c.2++encode (text.drop c.1.length) := by
  obtain ⟨rest,ht,hr,-⟩ := chars_cons h
  rw [encode,h,List.flatMap_cons,encode]
  congr 2
  rw [ht,List.drop_left,hr]

/-- Filling a room writes the bytes of the units that it read. -/
theorem fill_spec {text : List UInt16} (room : ℕ) {cs : List Char} (h : chars text=cs) :
    (fill room cs).2++encode (text.drop (fill room cs).1)=encode text ∧
      (fill room cs).2.length ≤ room := by
  induction cs generalizing text room with
  | nil => exact ⟨rfl,Nat.zero_le room⟩
  | cons c cs ih =>
    rw [fill]
    split
    · rename_i hc
      obtain ⟨rest,ht,hr,-⟩ := chars_cons h
      obtain ⟨hb,hl⟩ := ih (room-c.2.length) hr
      have hd : text.drop (c.1.length+(fill (room-c.2.length) cs).1)=
          rest.drop (fill (room-c.2.length) cs).1 := by
        rw [ht,List.drop_append,List.drop_eq_nil_of_le (Nat.le_add_right _ _),List.nil_append,
          Nat.add_sub_cancel_left]
      constructor
      · rw [hd,List.append_assoc,hb,encode_cons h,ht,List.drop_left]
      · rw [List.length_append]
        omega
    · exact ⟨rfl,Nat.zero_le room⟩

/-- Encoding into a room writes the bytes of what it read, and no more than
the room. -/
theorem encodeInto_spec (text : List UInt16) (room : ℕ) :
    (encodeInto text room).2++encode (text.drop (encodeInto text room).1)=encode text ∧
      (encodeInto text room).2.length ≤ room :=
  fill_spec room rfl

/-- Filling a room that is large enough reads all characters. -/
theorem fill_all {text : List UInt16} {room : ℕ} {cs : List Char} (h : chars text=cs)
    (hr : (encode text).length ≤ room) : fill room cs=(text.length,encode text) := by
  induction cs generalizing text room with
  | nil =>
    rw [chars_eq_nil.mp h]
    rfl
  | cons c cs ih =>
    obtain ⟨rest,ht,hc,-⟩ := chars_cons h
    have he : encode text=c.2++encode rest := by rw [encode_cons h,ht,List.drop_left]
    have hl : (encode text).length=c.2.length+(encode rest).length := by
      rw [he,List.length_append]
    have hi := @ih rest (room-c.2.length) hc (by omega)
    rw [fill,if_pos (by omega)]
    simp only [hi]
    rw [he,ht,List.length_append]

/-- A room for the whole text takes the whole text. -/
theorem encodeInto_all {text : List UInt16} {room : ℕ} (h : (encode text).length ≤ room) :
    encodeInto text room=(text.length,encode text) :=
  fill_all rfl h

/-- Nothing is written only when the first character does not fit. -/
theorem encodeInto_empty {text : List UInt16} {room : ℕ} {c : Char} {cs : List Char}
    (h : chars text=c::cs) : (encodeInto text room).2=[]↔room < c.2.length := by
  have hc := (chars_length (h ▸ List.mem_cons_self : c ∈ chars text)).2.1
  rw [encodeInto,h,fill]
  constructor
  · intro he
    by_contra hlt
    rw [if_pos (by omega)] at he
    have hz := congrArg List.length he
    simp only [List.length_append,List.length_nil] at hz
    omega
  · intro hlt
    rw [if_neg (by omega)]

/-- A text is encoded completely when its bytes are none. -/
theorem encode_eq_nil {text : List UInt16} : encode text=[]↔text=[] := by
  constructor
  · intro h
    match hc : chars text with
    | [] => exact chars_eq_nil.mp hc
    | c::cs =>
      have h1 := (chars_length (hc ▸ List.mem_cons_self : c ∈ chars text)).2.1
      rw [encode_cons hc] at h
      have hz := congrArg List.length h
      simp only [List.length_append,List.length_nil] at hz
      omega
  · rintro rfl
    rfl

/-- The first character of a text, encoded alone. -/
theorem firstChar_spec {text : List UInt16} {c : Char} {cs : List Char} (h : chars text=c::cs) :
    firstChar text=c.1 ∧ encode (firstChar text)=c.2 := by
  obtain ⟨rest,-,-,hs⟩ := chars_cons h
  have hf : firstChar text=c.1 := by
    rw [firstChar,h]
    rfl
  refine ⟨hf,?_⟩
  rw [hf,encode,hs]
  exact List.append_nil _

/-- A text takes at most three bytes for each unit. -/
theorem encode_length_le (text : List UInt16) : (encode text).length ≤ 3*text.length := by
  suffices h : ∀ cs text,chars text=cs → (encode text).length ≤ 3*text.length from h _ text rfl
  intro cs
  induction cs with
  | nil =>
    intro text h
    rw [chars_eq_nil.mp h]
    exact Nat.zero_le _
  | cons c cs ih =>
    intro text h
    obtain ⟨rest,ht,hr,-⟩ := chars_cons h
    have hc := (chars_length (h ▸ List.mem_cons_self : c ∈ chars text)).2.2.2
    have hi := ih rest hr
    have he : encode text=c.2++encode rest := by rw [encode_cons h,ht,List.drop_left]
    rw [he,ht,List.length_append,List.length_append]
    omega

end SpiritMysql.Utf16Text
