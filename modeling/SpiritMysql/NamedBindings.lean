import SpiritMysql.NamedParams

/-!
# What the queries for named parameters bind

The second query is right exactly when no byte of it was written beyond the end
of the array and the array ends with it. This depends on the sizes of the names
only. The temporary variables are counted with the digits and small letters.
-/

namespace SpiritMysql.NamedParams

open ByteCursor Conn Errors Utf16Text

/-- A digit below 36. -/
def digit (k : ℕ) : UInt8 := if k < 10 then .ofNat (48+k) else .ofNat (87+k)

/-- The last digits of a number, the last one first. -/
def numeral : ℕ → ℕ → List UInt8
  | 0,_ => []
  | length+1,m => digit (m%36)::numeral length (m/36)

/-- The number of the first temporary variable. -/
def firstNumber : ℕ := 36^4-0x10000

/-- The name of a temporary variable. -/
def varName (i : ℕ) : List UInt8 := tempName (numeral 4 (firstNumber+i))

/-- The size of the array when so many bytes have room in it. -/
def grow (length need : ℕ) : ℕ :=
  if need ≤ length then length else grow (2*length+25) need
termination_by need-length

/-- The parameters with names of these sizes fit an array, after what is in it. -/
def Fits : ℕ → ℕ → List ℕ → Prop
  | length,used,[] => length=used
  | length,used,size::sizes =>
    used+3 ≤ length ∧ used+25+size ≤ grow length (used+3+size) ∧
      Fits (grow length (used+3+size)) (used+25+size) sizes

/-- The text of one parameter. -/
def paramText (n : List UInt8) (name : Name) : List UInt8 :=
  beforeName++encode (escaped name)++afterName n

/-- The texts of the parameters, from the number of a variable on. -/
def paramTexts : ℕ → List Name → List UInt8
  | _,[] => []
  | m,name::names => paramText (numeral 4 m) name++paramTexts (m+1) names

/-- The texts of the placeholders, from the number of a variable on. -/
def placeholderTexts : ℕ → ℕ → List UInt8
  | 0,_ => []
  | k+1,m => placeholderText (numeral 4 m)++placeholderTexts k (m+1)

/-- Write all parameters. -/
def putParams : ℕ → List Name → Cursor → Cursor
  | _,[],query1 => query1
  | m,name::names,query1 => putParams (m+1) names (putParam (numeral 4 m) name query1)

/-- A digit is not zero. -/
theorem digit_ne_zero {k : ℕ} (h : k < 36) : digit k≠0 := by
  interval_cases k <;> decide

/-- Digits are different. -/
theorem digit_inj {j k : ℕ} (hj : j < 36) (hk : k < 36) (h : digit j=digit k) : j=k := by
  have hall : ∀ a : Fin 36,∀ b : Fin 36,digit a=digit b → a=b := by decide
  exact congrArg Fin.val (hall ⟨j,hj⟩ ⟨k,hk⟩ h)

/-- The digit that is next. -/
theorem digit_inc {k : ℕ} (h : k < 36) :
    (k=35 ∧ digit k+1=123) ∨
      (k < 35 ∧ digit k+1=58 ∧ digit (k+1)=97) ∨
      (k < 35 ∧ digit k+1≠58 ∧ digit k+1≠123 ∧ digit (k+1)=digit k+1) := by
  interval_cases k <;> decide

/-- The counter counts. -/
theorem incDigits_numeral (length m : ℕ) : incDigits (numeral length m)=numeral length (m+1) := by
  induction length generalizing m with
  | zero => rfl
  | succ length ih =>
    have hlt : m%36 < 36 := Nat.mod_lt m (by decide)
    simp only [numeral,incDigits]
    rcases digit_inc hlt with ⟨hk,hz⟩ | ⟨hk,hn,ha⟩ | ⟨hk,hn,hz,hs⟩
    · have hm : (m+1)%36=0 := by omega
      have hd : (m+1)/36=m/36+1 := by omega
      rw [hz,if_neg (by decide),if_pos rfl,hm,hd,ih]
      rfl
    · have hm : (m+1)%36=m%36+1 := by omega
      have hd : (m+1)/36=m/36 := by omega
      rw [hn,if_pos rfl,hm,hd,ha]
    · have hm : (m+1)%36=m%36+1 := by omega
      have hd : (m+1)/36=m/36 := by omega
      rw [if_neg hn,if_neg hz,hm,hd,hs]

/-- A numeral stands for one number. -/
theorem numeral_inj {length i j : ℕ} (hi : i < 36^length) (hj : j < 36^length)
    (h : numeral length i=numeral length j) : i=j := by
  induction length generalizing i j with
  | zero => rw [Nat.lt_one_iff.mp hi,Nat.lt_one_iff.mp hj]
  | succ length ih =>
    rw [pow_succ] at hi hj
    simp only [numeral,List.cons.injEq] at h
    have hd := digit_inj (Nat.mod_lt i (by decide)) (Nat.mod_lt j (by decide)) h.1
    have ht := ih (Nat.div_lt_of_lt_mul (by omega)) (Nat.div_lt_of_lt_mul (by omega)) h.2
    omega

/-- The digits of a numeral are not zero. -/
theorem numeral_ne_zero (length m : ℕ) : ∀ b ∈ numeral length m,b≠0 := by
  induction length generalizing m with
  | zero => intro b hb; cases hb
  | succ length ih =>
    intro b hb
    rcases List.mem_cons.mp hb with rfl | hb
    · exact digit_ne_zero (Nat.mod_lt m (by decide))
    · exact ih _ b hb

/-- Four digits. -/
theorem numeral_four (m : ℕ) : numeral 4 m=
    [digit (m%36),digit (m/36%36),digit (m/36/36%36),digit (m/36/36/36%36)] := rfl

/-- The counter starts at the first number. -/
theorem firstDigits_eq : firstDigits=numeral 4 firstNumber := by decide

/-- The name of a variable. -/
theorem tempName_four (a b c d : UInt8) : tempName [a,b,c,d]=[95,d,c,95,b,a] := rfl

/-- The temporary variables are different. -/
theorem varName_inj {i j : ℕ} (hi : i < 0x10000) (hj : j < 0x10000) (h : varName i=varName j) : i=j := by
  have hn : numeral 4 (firstNumber+i)=numeral 4 (firstNumber+j) := by
    simp only [varName,numeral_four,tempName_four,List.cons.injEq,true_and,and_true] at h ⊢
    obtain ⟨h4,h3,h2,h1⟩ := h
    exact ⟨h1,h2,h3,h4⟩
  have hf : firstNumber=36^4-0x10000 := rfl
  have he := numeral_inj (by omega) (by omega) hn
  omega

/-- The name of a variable has six bytes, none of them zero. -/
theorem tempName_bytes (m : ℕ) : (tempName (numeral 4 m)).length=6 ∧ ∀ b ∈ tempName (numeral 4 m),b≠0 := by
  refine ⟨rfl,?_⟩
  have hn := numeral_ne_zero 4 m
  rw [numeral_four] at hn ⊢
  rw [tempName_four]
  intro b hb
  simp only [List.mem_cons,List.not_mem_nil,or_false,forall_eq_or_imp,forall_eq] at hb hn
  rcases hb with rfl | rfl | rfl | rfl | rfl | rfl
  · decide
  · exact hn.2.2.2
  · exact hn.2.2.1
  · decide
  · exact hn.2.1
  · exact hn.1

/-- What stands before a name has no zero byte. -/
theorem beforeName_bytes : ∀ b ∈ beforeName,b≠0 := by
  intro b hb
  simp only [beforeName,List.mem_cons,List.not_mem_nil,or_false] at hb
  rcases hb with rfl | rfl | rfl <;> decide

/-- What stands after a name has 22 bytes, none of them zero. -/
theorem afterName_bytes (m : ℕ) : (afterName (numeral 4 m)).length=22 ∧ ∀ b ∈ afterName (numeral 4 m),b≠0 := by
  refine ⟨rfl,?_⟩
  intro b hb
  simp only [afterName,List.mem_append,List.mem_cons,List.not_mem_nil,or_false] at hb
  have ht := (tempName_bytes m).2 b
  rcases hb with (((h | h) | h) | h) | h
  · rcases h with rfl | rfl | rfl <;> decide
  · exact ht h
  · rcases h with rfl | rfl <;> decide
  · exact ht h
  · rcases h with rfl | rfl | rfl | rfl | rfl <;> decide

/-- All units are read exactly when all bytes have room. -/
theorem encodeInto_read (text : List UInt16) (room : ℕ) :
    (encodeInto text room).1=text.length↔(encode text).length ≤ room := by
  constructor
  · intro h
    obtain ⟨hb,hl⟩ := encodeInto_spec text room
    rw [h,List.drop_length,encode_nil,List.append_nil] at hb
    rwa [hb] at hl
  · intro h
    rw [encodeInto_all h]

/-- The array is large enough. -/
theorem grow_of_le {length need : ℕ} (h : need ≤ length) : grow length need=length := by
  rw [grow,if_pos h]

/-- The array becomes larger. -/
theorem grow_of_lt {length need : ℕ} (h : length < need) : grow length need=grow (2*length+25) need := by
  conv => lhs; rw [grow,if_neg (Nat.not_le.mpr h)]

/-- The array does not become smaller. -/
theorem le_grow (length need : ℕ) : length ≤ grow length need := by
  fun_induction grow length need with
  | case1 length h => exact Nat.le_refl length
  | case2 length h ih => omega

variable {start : ℕ} {c : Cursor} {expected : List UInt8}

/-- A name is encoded completely, and the array grows as needed. -/
theorem encodeParam_holds {fuel : ℕ} {param : Name} (h : Holds c expected) (hz : 0 < fuel)
    (hf : expected.length+(encode param).length < fuel+c.bytes.length) :
    Holds (encodeParam fuel param c) (expected++encode param) ∧
      (encodeParam fuel param c).bytes.length=
        grow c.bytes.length (expected.length+(encode param).length) := by
  induction fuel generalizing c with
  | zero => exact absurd hz (Nat.lt_irrefl 0)
  | succ fuel ih =>
    have hpos := h.pos
    have hle := h.le
    rw [encodeParam]
    by_cases hr : (encode param).length ≤ c.bytes.length-c.pos
    · rw [if_pos ((encodeInto_read param _).mpr hr),encodeInto_all hr]
      have hfit : c.pos+(encode param).length ≤ c.bytes.length := by omega
      refine ⟨h.write hfit,?_⟩
      rw [write_length hfit,grow_of_le (by omega)]
    · rw [if_neg (mt (encodeInto_read param _).mp hr)]
      have hs := (encodeInto_spec param (c.bytes.length-c.pos)).2
      have hl := enlarge_length (by omega : c.pos ≤ c.bytes.length) hs (c.bytes.length+25)
      have he := h.enlarge (encodeInto param (c.bytes.length-c.pos)).2 (c.bytes.length+25)
      obtain ⟨hh,hg⟩ := ih he (by omega) (by omega)
      refine ⟨hh,hg.trans ?_⟩
      rw [hl,grow_of_lt (by omega : c.bytes.length < _)]
      congr 1
      omega

/-- What was missed stays missed, while a name is encoded. -/
theorem encodeParam_misses {fuel : ℕ} {param : Name} (h : Misses start c expected) (hz : 0 < fuel)
    (hf : expected.length+(encode param).length < fuel+c.bytes.length) :
    Misses start (encodeParam fuel param c) (expected++encode param) := by
  induction fuel generalizing c with
  | zero => exact absurd hz (Nat.lt_irrefl 0)
  | succ fuel ih =>
    have hpos := h.pos
    rw [encodeParam]
    have hs := (encodeInto_spec param (c.bytes.length-c.pos)).2
    by_cases hr : (encode param).length ≤ c.bytes.length-c.pos
    · rw [if_pos ((encodeInto_read param _).mpr hr),encodeInto_all hr]
      exact h.write hr
    · rw [if_neg (mt (encodeInto_read param _).mp hr)]
      have hl : c.bytes.length+(c.bytes.length+25) ≤ ((c.overwrite (encodeInto param
          (c.bytes.length-c.pos)).2).enlarge (c.bytes.length+25)).bytes.length := by
        simp only [Cursor.enlarge,Cursor.overwrite,List.length_append,List.length_take,
          List.length_drop,List.length_replicate]
        omega
      exact ih ((h.overwrite hs).enlarge _) (by omega) (by omega)

/-- The text of a parameter after what is expected. -/
theorem append_paramText (expected n : List UInt8) (name : Name) :
    expected++paramText n name=((expected++beforeName)++encode (escaped name))++afterName n := by
  simp only [paramText,List.append_assoc]

/-- The size of the text of a parameter. -/
theorem paramText_length (m : ℕ) (name : Name) :
    (paramText (numeral 4 m) name).length=25+(encode (escaped name)).length := by
  have ha := (afterName_bytes m).1
  have hb : beforeName.length=3 := rfl
  simp only [paramText,List.length_append,ha,hb]
  omega

/-- Writing what stands before a name does not change the size. -/
theorem before_puts (c : Cursor) : (c.puts beforeName).pos=c.pos+3 ∧
    (c.puts beforeName).bytes.length=c.bytes.length := puts_size c beforeName

/-- What stands before a name has room, and then the name is encoded. -/
theorem encodeName_holds (name : Name) (h : Holds c expected) (hbefore : expected.length+3 ≤ c.bytes.length) :
    Holds (encodeParam ((encode (escaped name)).length+(c.puts beforeName).pos+1) (escaped name)
        (c.puts beforeName)) (expected++beforeName++encode (escaped name)) ∧
      (encodeParam ((encode (escaped name)).length+(c.puts beforeName).pos+1) (escaped name)
        (c.puts beforeName)).bytes.length=
          grow c.bytes.length (expected.length+3+(encode (escaped name)).length) := by
  have hpos := h.pos
  obtain ⟨hp,hl⟩ := before_puts c
  have hfit : c.pos+beforeName.length ≤ c.bytes.length := by
    rw [hpos]
    exact hbefore
  have hb : Holds (c.puts beforeName) (expected++beforeName) := by
    rw [puts_eq c beforeName hfit]
    exact h.write hfit
  have hel : (expected++beforeName).length=expected.length+3 := List.length_append
  rw [← hl,← hel]
  exact encodeParam_holds hb (Nat.succ_pos _) (by omega)

/-- A parameter that fits is written. -/
theorem putParam_fits (m : ℕ) {name : Name} (h : Holds c expected)
    (hbefore : expected.length+3 ≤ c.bytes.length)
    (hafter : expected.length+25+(encode (escaped name)).length ≤
      grow c.bytes.length (expected.length+3+(encode (escaped name)).length)) :
    Holds (putParam (numeral 4 m) name c) (expected++paramText (numeral 4 m) name) ∧
      (putParam (numeral 4 m) name c).bytes.length=
        grow c.bytes.length (expected.length+3+(encode (escaped name)).length) := by
  obtain ⟨hh,hg⟩ := encodeName_holds name h hbefore
  have hel : (expected++beforeName++encode (escaped name)).length=
      expected.length+3+(encode (escaped name)).length := by
    rw [List.length_append,List.length_append]
    rfl
  have hp := hh.pos
  have hfit : (encodeParam ((encode (escaped name)).length+(c.puts beforeName).pos+1) (escaped name)
      (c.puts beforeName)).pos+(afterName (numeral 4 m)).length ≤
      (encodeParam ((encode (escaped name)).length+(c.puts beforeName).pos+1) (escaped name)
        (c.puts beforeName)).bytes.length := by
    rw [hg,hp,hel,(afterName_bytes m).1]
    omega
  simp only [putParam]
  rw [append_paramText,puts_eq _ _ hfit]
  exact ⟨hh.write hfit,(write_length hfit).trans hg⟩

/-- What was missed stays missed, while a parameter is written. -/
theorem putParam_misses {m : ℕ} {name : Name} (h : Misses start c expected) :
    Misses start (putParam (numeral 4 m) name c) (expected++paramText (numeral 4 m) name) := by
  have hb := h.puts beforeName
  have hpos := hb.pos
  rw [append_paramText]
  exact (encodeParam_misses hb (Nat.succ_pos _) (by omega)).puts (afterName (numeral 4 m))

/-- A parameter that does not fit is not completely there. -/
theorem putParam_short {m : ℕ} {name : Name} (h : Holds c expected) (hstart : start ≤ c.bytes.length)
    (hno : ¬(expected.length+3 ≤ c.bytes.length ∧
      expected.length+25+(encode (escaped name)).length ≤
        grow c.bytes.length (expected.length+3+(encode (escaped name)).length))) :
    Misses start (putParam (numeral 4 m) name c) (expected++paramText (numeral 4 m) name) := by
  have hpos := h.pos
  rw [append_paramText]
  by_cases hbefore : expected.length+3 ≤ c.bytes.length
  · -- the fixed text after the name is cut off
    obtain ⟨hh,hg⟩ := encodeName_holds name h hbefore
    have hel : (expected++beforeName++encode (escaped name)).length=
        expected.length+3+(encode (escaped name)).length := by
      rw [List.length_append,List.length_append]
      rfl
    have hp := hh.pos
    have hgrow := le_grow c.bytes.length (expected.length+3+(encode (escaped name)).length)
    have hshort := fun hafter => hno ⟨hbefore,hafter⟩
    exact hh.puts_short (by omega) (by rw [hg,hp,hel,(afterName_bytes m).1]; omega) (afterName_bytes m).2
  · -- what stands before the name is cut off
    have hb : Misses start (c.puts beforeName) (expected++beforeName) := by
      refine h.puts_short hstart ?_ beforeName_bytes
      show _ < c.pos+3
      omega
    have hpb := hb.pos
    exact (encodeParam_misses hb (Nat.succ_pos _) (by omega)).puts (afterName (numeral 4 m))

/-- What was missed stays missed, while the parameters are written. -/
theorem putParams_misses {m : ℕ} {names : List Name} (h : Misses start c expected) :
    Misses start (putParams m names c) (expected++paramTexts m names) := by
  induction names generalizing m c expected with
  | nil =>
    rw [paramTexts,List.append_nil]
    exact h
  | cons name names ih =>
    rw [paramTexts,← List.append_assoc]
    exact ih (putParam_misses h)

/-- The sizes of the encoded names. -/
def sizes (names : List Name) : List ℕ := names.map fun name => (encode (escaped name)).length

/-- Parameters that fit are written, and others are not. -/
theorem putParams_spec (start m : ℕ) (names : List Name) (h : Holds c expected) (hstart : start ≤ c.bytes.length) :
    (Fits c.bytes.length expected.length (sizes names) →
        (putParams m names c).bytes=expected++paramTexts m names) ∧
      (¬Fits c.bytes.length expected.length (sizes names) →
        Differs start (putParams m names c).bytes (expected++paramTexts m names)) := by
  induction names generalizing m c expected with
  | nil =>
    rw [paramTexts,List.append_nil]
    exact ⟨h.complete,Or.inl⟩
  | cons name names ih =>
    rw [paramTexts,← List.append_assoc]
    have hle := le_grow c.bytes.length (expected.length+3+(encode (escaped name)).length)
    have hs : sizes (name::names)=(encode (escaped name)).length::sizes names := rfl
    simp only [hs,Fits]
    by_cases hfit : expected.length+3 ≤ c.bytes.length ∧
        expected.length+25+(encode (escaped name)).length ≤
          grow c.bytes.length (expected.length+3+(encode (escaped name)).length)
    · obtain ⟨hh,hl⟩ := putParam_fits m h hfit.1 hfit.2
      have hr := ih (m+1) hh (by omega)
      have hu : (expected++paramText (numeral 4 m) name).length=
          expected.length+25+(encode (escaped name)).length := by
        rw [List.length_append,paramText_length]
        omega
      rw [hl,hu] at hr
      exact ⟨fun hf => hr.1 hf.2.2,fun hn => hr.2 fun hf => hn ⟨hfit.1,hfit.2,hf⟩⟩
    · constructor
      · intro hf
        exact (hfit ⟨hf.1,hf.2.1⟩).elim
      · intro _
        have hm : Misses start (putParam (numeral 4 m) name c) (expected++paramText (numeral 4 m) name) :=
          putParam_short h hstart hfit
        have hms : Misses start (putParams (m+1) names (putParam (numeral 4 m) name c))
            (expected++paramText (numeral 4 m) name++paramTexts (m+1) names) := putParams_misses hm
        exact hms.differs

/-- Parameters fit an array that has just their size. -/
theorem fits_sum (used : ℕ) (us : List ℕ) : Fits (used+(us.map fun u => 25+u).sum) used us := by
  induction us generalizing used with
  | nil => rfl
  | cons u us ih =>
    obtain ⟨length,hl⟩ : ∃ length,length=used+((u::us).map fun u => 25+u).sum := ⟨_,rfl⟩
    have hs : length=used+25+u+(us.map fun u => 25+u).sum := by
      rw [hl,List.map_cons,List.sum_cons]
      omega
    rw [← hl,Fits,grow_of_le (by omega)]
    refine ⟨by omega,by omega,?_⟩
    rw [hs]
    exact ih (used+25+u)

/-- An ASCII character is no surrogate. -/
theorem scalar_ascii {c : UInt16} (h : c.toNat < 0x80) : scalar c=c.toNat := by
  have hh : isHigh c=false := by
    rw [isHigh,decide_eq_false (by omega),Bool.false_and]
  have hl : isLow c=false := by
    rw [isLow,decide_eq_false (by omega),Bool.false_and]
  rw [scalar,hh,hl]
  rfl

/-- A text of ASCII characters takes a byte for each unit. -/
theorem encode_ascii {text : List UInt16} (h : ∀ c ∈ text,c.toNat < 0x80) :
    (encode text).length=text.length := by
  induction text using chars.induct with
  | case1 => rfl
  | case2 a =>
    have ha := h a List.mem_cons_self
    have hs := scalar_ascii ha
    simp only [encode,chars,List.flatMap_cons,List.flatMap_nil,List.append_nil,hs,scalarBytes,if_pos ha]
    rfl
  | case3 a b text hp ih =>
    have ha := h a List.mem_cons_self
    simp only [isHigh,isLow,Bool.and_eq_true,decide_eq_true_eq] at hp
    omega
  | case4 a b text hp ih =>
    have ha := h a List.mem_cons_self
    have hs := scalar_ascii ha
    have hi := ih (fun c hc => h c (List.mem_cons_of_mem a hc))
    simp only [encode] at hi
    simp only [encode,chars,if_neg hp,List.flatMap_cons,hs,scalarBytes,if_pos ha,List.length_append,hi,
      List.length_cons,List.length_nil]
    omega

/-- Names of ASCII characters without backticks fit the guess. -/
theorem plain_fits {names : List Name} (h : ∀ name ∈ names,∀ c ∈ name,c.toNat < 0x80 ∧ c≠96) :
    Fits (guessLen names) 3 (sizes names) := by
  have hs : sizes names=names.map List.length := by
    apply List.map_congr_left
    intro name hn
    have he : escaped name=name := by
      have hc : ∀ c ∈ name,(if c=96 then [96,96] else [c])=[c] := fun c hc => if_neg (h name hn c hc).2
      rw [escaped,List.flatMap_congr hc]
      exact List.flatMap_singleton' name
    rw [he]
    exact encode_ascii fun c hc => (h name hn c hc).1
  have hg : guessLen names=3+((sizes names).map fun u => 25+u).sum := by
    rw [guessLen,hs,List.map_map]
    congr 2
    apply List.map_congr_left
    intro name _
    simp only [Function.comp_apply]
    omega
  rw [hg]
  exact fits_sum 3 (sizes names)

/-- The loop writes all parameters to the second query. -/
theorem generate_query1 {k m : ℕ} {names : List Name} {query0 : Option Cursor} (hk : names.length ≤ k) :
    (generate k names ⟨query0,c,numeral 4 m⟩).query1=putParams m names c := by
  induction k generalizing m names c query0 with
  | zero =>
    rw [List.eq_nil_of_length_eq_zero (Nat.le_zero.mp hk)]
    rfl
  | succ k ih =>
    cases names with
    | nil =>
      cases query0 with
      | none => rfl
      | some c0 =>
        simp only [generate,Option.map_some,Option.isNone_some,Bool.false_eq_true,if_false,incDigits_numeral]
        exact ih (Nat.zero_le k)
    | cons name names =>
      simp only [generate,incDigits_numeral]
      exact ih (Nat.le_of_succ_le_succ hk)

/-- The loop writes all placeholders to the first query. -/
theorem generate_query0 {k m : ℕ} {names : List Name} {query0 : Option Cursor} :
    (generate k names ⟨query0,c,numeral 4 m⟩).query0=
      query0.map fun c0 => c0.puts (placeholderTexts k m) := by
  induction k generalizing m names c query0 with
  | zero => cases query0 <;> rfl
  | succ k ih =>
    cases names with
    | nil =>
      cases query0 with
      | none => rfl
      | some c0 =>
        simp only [generate,Option.map_some,Option.isNone_some,Bool.false_eq_true,if_false,incDigits_numeral,ih,
          placeholderTexts,Cursor.puts,List.foldl_append]
    | cons name names =>
      simp only [generate,incDigits_numeral,ih]
      cases query0 with
      | none => rfl
      | some c0 =>
        simp only [Option.map_some,placeholderTexts,Cursor.puts,List.foldl_append]

end SpiritMysql.NamedParams
