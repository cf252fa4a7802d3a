import SpiritMysql.DsnParse

/-!
# The parameters of a name

The parameters that are printed are read back by their names.
-/

namespace SpiritMysql.DsnQuery

open DsnName DsnParse PercentCoding UrlRules

/-- How a parameter is written: not at all, as a name, or with a value. -/
abbrev Written := Option (Option (List Char))

/-- A number. -/
def writtenNumber (value : Option JsNumber) : Written := value.map (fun n => some n.text.toList)

/-- A flag. -/
def writtenFlag (value : Bool) : Written := if value=true then some none else none

/-- A text. -/
def writtenText (value : String) : Written :=
  if value="" then none else some (some (encodeURIComponent value).toList)

/-- The compression. -/
def writtenCompress : DsnCompress → Written
  | .off => none
  | .best => some none
  | .zlib => some (some "zlib".toList)
  | .zstd => some (some "zstd".toList)
  | .zstdLevel level => some (some ("zstd:".toList++Nat.toDigits 10 level))

/-- The parameters by their names, in the order in which they are printed. -/
def fields (d : Dsn) : List (String×Written) := [
  ("connectionTimeout",writtenNumber d.connectionTimeout),
  ("reconnectInterval",writtenNumber d.reconnectInterval),
  ("keepAliveTimeout",writtenNumber d.keepAliveTimeout),
  ("keepAliveMax",writtenNumber d.keepAliveMax),
  ("maxConns",writtenNumber d.maxConns),
  ("maxColumnLen",writtenNumber d.maxColumnLen),
  ("foundRows",writtenFlag d.foundRows),
  ("ignoreSpace",writtenFlag d.ignoreSpace),
  ("multiStatements",writtenFlag d.multiStatements),
  ("retryLockWaitTimeout",writtenFlag d.retryLockWaitTimeout),
  ("retryQueryTimes",writtenNumber d.retryQueryTimes),
  ("jsonAsString",writtenFlag d.jsonAsString),
  ("datesAsString",writtenFlag d.datesAsString),
  ("correctDates",writtenFlag d.correctDates),
  ("storeResultsetIfBigger",writtenNumber d.storeResultsetIfBigger),
  ("allowPublicKeyRetrieval",writtenFlag d.allowPublicKeyRetrieval),
  ("serverPublicKey",writtenText d.serverPublicKey),
  ("allowCleartextPasswords",writtenFlag d.allowCleartextPasswords),
  ("compress",writtenCompress d.compress),
  ("tls",writtenFlag d.tls),
  ("tlsCaCert",writtenText d.tlsCaCert),
  ("tlsHostname",writtenText d.tlsHostname)]

/-- A parameter as it is printed. -/
def fieldText (field : String×Written) : List Char :=
  match field.2 with
  | none => []
  | some value => '&'::Item.text (field.1.toList,value)

/-- The parameters that are printed. -/
def items (fs : List (String×Written)) : List Item :=
  fs.filterMap (fun f => f.2.map (fun value => (f.1.toList,value)))

/-- A number is printed by its name and text. -/
theorem numberParam_toList (name : String) (value : Option JsNumber) :
    (numberParam name value).toList=fieldText (name,writtenNumber value) := by
  cases value with
  | none => rfl
  | some n =>
    simp [numberParam,fieldText,writtenNumber,Item.text,markedText]

/-- A flag is printed by its name. -/
theorem flagParam_toList (name : String) (value : Bool) :
    (flagParam name value).toList=fieldText (name,writtenFlag value) := by
  cases value with
  | false => rfl
  | true =>
    simp [flagParam,fieldText,writtenFlag,Item.text,markedText]

/-- A text is printed by its name and what encodes it. -/
theorem textParam_toList (name value : String) :
    (textParam name value).toList=fieldText (name,writtenText value) := by
  by_cases h : value=""
  · rw [textParam,writtenText,if_pos h,if_pos h]
    rfl
  · rw [textParam,writtenText,if_neg h,if_neg h]
    simp [fieldText,Item.text,markedText]

/-- The compression is printed by its name. -/
theorem compressParam_toList (value : DsnCompress) :
    value.param.toList=fieldText ("compress",writtenCompress value) := by
  cases value with
  | off => rfl
  | best => rfl
  | zlib => rfl
  | zstd => rfl
  | zstdLevel level =>
    simp [DsnCompress.param,fieldText,writtenCompress,Item.text,markedText,Nat.toString_eq_repr,
      Nat.toList_repr]

/-- What is printed of the parameters one after another. -/
theorem flatMap_fieldText (fs : List (String×Written)) :
    fs.flatMap fieldText=(items fs).flatMap (fun i => '&'::i.text) := by
  induction fs with
  | nil => rfl
  | cons f fs ih =>
    obtain ⟨name,value⟩ := f
    rw [List.flatMap_cons,ih]
    cases value with
    | none => rfl
    | some value => rfl

/-- The parameters are printed one after another. -/
theorem params_toList (d : Dsn) :
    d.params.toList=(items (fields d)).flatMap (fun i => '&'::i.text) := by
  rw [←flatMap_fieldText]
  unfold Dsn.params fields
  simp only [String.toList_append,numberParam_toList,flagParam_toList,textParam_toList,
    compressParam_toList]
  simp only [List.flatMap_cons,List.flatMap_nil,List.append_nil,List.append_assoc]

/-- The names of the parameters. -/
def names : List String := ["connectionTimeout","reconnectInterval","keepAliveTimeout",
  "keepAliveMax","maxConns","maxColumnLen","foundRows","ignoreSpace","multiStatements",
  "retryLockWaitTimeout","retryQueryTimes","jsonAsString","datesAsString","correctDates",
  "storeResultsetIfBigger","allowPublicKeyRetrieval","serverPublicKey",
  "allowCleartextPasswords","compress","tls","tlsCaCert","tlsHostname"]

/-- Every parameter has its name. -/
theorem fields_names (d : Dsn) : (fields d).map Prod.fst=names := rfl

/-- The names are different words. -/
theorem names_words :
    names.Nodup ∧ ∀ n ∈ names,n.toList≠[] ∧ ∀ c ∈ n.toList,c.isAlpha=true := by
  have hall : names.all (fun n => n.toList != [] && n.toList.all Char.isAlpha)=true := by
    decide +kernel
  refine ⟨by decide +kernel,fun n hn => ?_⟩
  have hw := List.all_eq_true.mp hall n hn
  rw [Bool.and_eq_true,bne_iff_ne,List.all_eq_true] at hw
  exact hw

/-- A character of a value that is printed. -/
def isValueChar (c : Char) : Bool := isUnreserved c || c == '%' || c == ':'

/-- A parameter that is printed with a value of such characters. -/
def FieldOk (f : String×Written) : Prop :=
  ∀ w,f.2=some (some w) → ∀ c ∈ w,isValueChar c=true

/-- Letters are kept by a query. -/
theorem readForm_name {name : List Char} (h : ∀ c ∈ name,c.isAlpha=true)
    (repair : List UInt8 → List Char) : readForm repair (encode querySet name)=name := by
  refine readForm_plain (fun hm => ?_) (fun hm => ?_) repair
  · exact absurd (h _ hm) (by decide)
  · exact absurd (h _ hm) (by decide)

/-- The items have the names of the parameters. -/
theorem mem_items {fs : List (String×Written)} {i : Item} (h : i ∈ items fs) :
    ∃ f ∈ fs,i.1=f.1.toList ∧ f.2=some i.2 := by
  obtain ⟨f,hf,hi⟩ := List.mem_filterMap.mp h
  obtain ⟨v,hv,rfl⟩ := Option.map_eq_some_iff.mp hi
  exact ⟨f,hf,rfl,hv⟩

/-- What a query is read as, parameter by parameter. -/
def readFields (repair : List UInt8 → List Char) (fs : List (String×Written)) : SearchParams :=
  fs.filterMap (fun f => f.2.map (fun v =>
    (f.1.toList,readForm repair (encode querySet (v.getD [])))))

/-- A query of parameters is read back. -/
theorem formEntries_fields {fs : List (String×Written)} (repair : List UInt8 → List Char)
    (hnames : ∀ n ∈ fs.map Prod.fst,n.toList≠[] ∧ ∀ c ∈ n.toList,c.isAlpha=true)
    (hfs : ∀ f ∈ fs,FieldOk f) :
    formEntries repair (encode querySet (queryText (items fs)))=readFields repair fs := by
  have hmem : ∀ i ∈ items fs,i.1≠[] ∧ (∀ c ∈ i.1,c.isAlpha=true) ∧
      ∀ w,i.2=some w → ∀ c ∈ w,isValueChar c=true := by
    intro i hi
    obtain ⟨f,hf,h1,h2⟩ := mem_items hi
    obtain ⟨hn,ha⟩ := hnames f.1 (List.mem_map_of_mem hf)
    rw [h1]
    refine ⟨hn,ha,fun w hw => hfs f hf w ?_⟩
    rw [h2,hw]
  have hname : ∀ i ∈ items fs,i.1≠[] ∧ '=' ∉ i.1 := by
    intro i hi
    obtain ⟨hn,ha,-⟩ := hmem i hi
    exact ⟨hn,fun hm => absurd (ha _ hm) (by decide)⟩
  have htext : ∀ i ∈ items fs,'&' ∉ i.text := by
    intro i hi hm
    obtain ⟨-,ha,hv⟩ := hmem i hi
    rw [Item.text,List.mem_append] at hm
    rcases hm with hm | hm
    · exact absurd (ha _ hm) (by decide)
    · cases hw : i.2 with
      | none =>
        rw [hw] at hm
        exact List.not_mem_nil hm
      | some w =>
        rw [hw] at hm
        rcases List.mem_cons.mp hm with hm | hm
        · exact absurd hm (by decide)
        · exact absurd (hv w hw _ hm) (by decide)
  rw [formEntries_query repair hname htext,items,List.map_filterMap,readFields]
  refine List.filterMap_congr (fun f hf => ?_)
  obtain ⟨-,ha⟩ := hnames f.1 (List.mem_map_of_mem hf)
  cases hv : f.2 with
  | none => rfl
  | some v =>
    change some (readForm repair (encode querySet f.1.toList),_)=some (f.1.toList,_)
    rw [readForm_name ha]

/-- A name that no parameter has is not found. -/
theorem get_none {fs : List (String×Written)} {name : String} (repair : List UInt8 → List Char)
    (h : name ∉ fs.map Prod.fst) : get (readFields repair fs) name=none := by
  induction fs with
  | nil => rfl
  | cons f fs ih =>
    obtain ⟨n,value⟩ := f
    rw [List.map_cons,List.mem_cons,not_or] at h
    have hi := ih h.2
    cases value with
    | none => exact hi
    | some v =>
      have hb : (name.toList == n.toList)=false :=
        beq_eq_false_iff_ne.mpr (fun he => h.1 (String.toList_injective he))
      change List.lookup name.toList ((n.toList,_)::readFields repair fs)=none
      rw [List.lookup_cons,hb]
      exact hi

/-- A parameter is found by its name. -/
theorem get_field {fs : List (String×Written)} {name : String} {value : Written}
    (repair : List UInt8 → List Char) (hnodup : (fs.map Prod.fst).Nodup)
    (h : (name,value) ∈ fs) : get (readFields repair fs) name=
      value.map (fun v => readForm repair (encode querySet (v.getD []))) := by
  induction fs with
  | nil => exact absurd h List.not_mem_nil
  | cons f fs ih =>
    obtain ⟨n,w⟩ := f
    rw [List.map_cons,List.nodup_cons] at hnodup
    rcases List.mem_cons.mp h with he | hm
    · obtain ⟨rfl,rfl⟩ := Prod.mk.inj he
      cases value with
      | none =>
        have hn : get (readFields repair fs) name=none := get_none repair hnodup.1
        exact hn
      | some v =>
        change List.lookup name.toList ((name.toList,_)::readFields repair fs)=_
        rw [List.lookup_cons,beq_self_eq_true]
        rfl
    · have hne : name≠n := by
        rintro rfl
        have hx : (name,value).1 ∈ fs.map Prod.fst := List.mem_map_of_mem hm
        exact hnodup.1 hx
      have hi := ih hnodup.2 hm
      cases w with
      | none => exact hi
      | some v =>
        have hb : (name.toList == n.toList)=false :=
          beq_eq_false_iff_ne.mpr (fun he => hne (String.toList_injective he))
        change List.lookup name.toList ((n.toList,_)::readFields repair fs)=_
        rw [List.lookup_cons,hb]
        exact hi

/-- The bytes of a byte array, from some place on. -/
theorem toList_loop (bs : ByteArray) (i : ℕ) (r : List UInt8) :
    ByteArray.toList.loop bs i r=r.reverse++bs.data.toList.drop i := by
  induction i,r using ByteArray.toList.loop.induct bs with
  | case1 i r h ih =>
    have hi : i < bs.data.toList.length := h
    have hg : bs.get! i=bs.data.toList[i] := by
      rw [Array.getElem_toList]
      exact getElem!_pos bs.data i h
    rw [ByteArray.toList.loop,if_pos h,ih,List.reverse_cons,List.append_assoc,hg,
      List.drop_eq_getElem_cons hi]
    rfl
  | case2 i r h =>
    rw [ByteArray.toList.loop,if_neg h,List.drop_eq_nil_of_le (Nat.not_lt.mp h),List.append_nil]

/-- The UTF-8 bytes of a character. -/
theorem toUTF8_singleton (c : Char) :
    (String.singleton c).toUTF8.toList=String.utf8EncodeChar c := by
  have hb : (String.singleton c).toUTF8=(String.utf8EncodeChar c).toByteArray := by
    rw [String.toUTF8_eq_toByteArray]
    exact List.utf8Encode_singleton
  rw [hb,ByteArray.toList,toList_loop,List.toList_data_toByteArray]
  rfl

/-- The characters that `encodeURIComponent()` escapes. -/
def componentSet (c : Char) : Bool := !isUnreserved c

/-- `encodeURIComponent()` of a character. -/
theorem encodeChar_component (c : Char) :
    DsnName.encodeChar c=PercentCoding.encodeChar componentSet c := by
  unfold DsnName.encodeChar PercentCoding.encodeChar componentSet
  rw [toUTF8_singleton]
  cases h : isUnreserved c with
  | true => rfl
  | false => rfl

/-- `encodeURIComponent()` escapes the characters of its set. -/
theorem encodeURIComponent_toList (text : String) :
    (encodeURIComponent text).toList=encode componentSet text.toList := by
  rw [encodeURIComponent,String.toList_ofList,encode]
  exact List.flatMap_congr (fun c _ => encodeChar_component c)

/-- A number that is printed so that it is read back: without a plus sign, and in range. -/
def NumberOk (R : Runtime) (low : ℕ) (value : Option JsNumber) : Prop :=
  ∀ n,value=some n →
    R.number n.text.toList=.number n ∧ whole low ≤ n.value ∧ '+' ∉ n.text.toList

/-- A level of the compression in range. -/
def LevelOk (value : DsnCompress) : Prop := ∀ k,value=.zstdLevel k → 1 ≤ k ∧ k ≤ 22

section Reading

variable {R : Runtime}

/-- A number has no percent sign. -/
theorem number_percent (hR : R.Lawful) {n : JsNumber}
    (h : R.number n.text.toList=.number n) : '%' ∉ n.text.toList :=
  fun hm => absurd (hR.number_chars _ n h _ hm) (by decide)

/-- The value of a number. -/
theorem fieldOk_number (hR : R.Lawful) {low : ℕ} {value : Option JsNumber} (name : String)
    (h : NumberOk R low value) : FieldOk (name,writtenNumber value) := by
  intro w hw c hc
  obtain ⟨n,hn,he⟩ := Option.map_eq_some_iff.mp hw
  obtain ⟨hr,-,hp⟩ := h n hn
  rw [←Option.some.inj he] at hc
  have hnc := hR.number_chars _ n hr c hc
  simp only [isNumberChar,Bool.or_eq_true,List.contains_iff_mem] at hnc
  rcases hnc with ha | hl
  · simp only [isValueChar,isUnreserved,ha,Bool.true_or]
  · have hl' : c ∈ [ '+','-','.'] := hl
    simp only [List.mem_cons,List.not_mem_nil,or_false] at hl'
    rcases hl' with rfl | rfl | rfl
    · exact absurd hc hp
    · rfl
    · rfl

/-- Encoded text has values' characters. -/
theorem valueChar_component {text : List Char} {c : Char} (h : c ∈ encode componentSet text) :
    isValueChar c=true := by
  rcases mem_encode h with he | ⟨-,hs⟩
  · exact of_isEscapeChar he (by decide)
  · have hu : isUnreserved c=true := by simpa [componentSet] using hs
    simp only [isValueChar,hu,Bool.true_or]

/-- The value of a text. -/
theorem fieldOk_text (name value : String) : FieldOk (name,writtenText value) := by
  intro w hw c hc
  by_cases h : value=""
  · rw [writtenText,if_pos h] at hw
    cases hw
  · rw [writtenText,if_neg h,Option.some.injEq,Option.some.injEq] at hw
    rw [←hw,encodeURIComponent_toList] at hc
    exact valueChar_component hc

/-- A flag has no value. -/
theorem fieldOk_flag (name : String) (value : Bool) : FieldOk (name,writtenFlag value) := by
  intro w hw
  cases value with
  | false => cases hw
  | true => cases hw

/-- A digit is a character of values. -/
theorem valueChar_digit {c : Char} (h : c.isDigit=true) : isValueChar c=true := by
  have ha : c.isAlphanum=true := by rw [Char.isAlphanum,h,Bool.or_true]
  simp only [isValueChar,isUnreserved,ha,Bool.true_or]

/-- The value of the compression. -/
theorem fieldOk_compress (name : String) (value : DsnCompress) :
    FieldOk (name,writtenCompress value) := by
  intro w hw c hc
  have hwords : ∀ x ∈ "zlib".toList++("zstd".toList++"zstd:".toList),isValueChar x=true :=
    List.all_eq_true.mp (by decide)
  cases value with
  | off => cases hw
  | best => cases hw
  | zlib =>
    cases hw
    exact hwords c (List.mem_append_left _ hc)
  | zstd =>
    cases hw
    exact hwords c (List.mem_append_right _ (List.mem_append_left _ hc))
  | zstdLevel level =>
    cases hw
    rcases List.mem_append.mp hc with hc | hc
    · exact hwords c (List.mem_append_right _ (List.mem_append_right _ hc))
    · exact valueChar_digit (Nat.isDigit_of_mem_toDigits (by decide) (by decide) hc)

/-- A number is read back as its text. -/
theorem get_number (hR : R.Lawful) {low : ℕ} {fs : List (String×Written)} {name : String}
    {value : Option JsNumber} (hnodup : (fs.map Prod.fst).Nodup)
    (h : (name,writtenNumber value) ∈ fs) (hok : NumberOk R low value) :
    get (readFields R.repair fs) name=value.map (fun n => n.text.toList) := by
  rw [get_field R.repair hnodup h]
  cases value with
  | none => rfl
  | some n =>
    obtain ⟨hr,-,hp⟩ := hok n rfl
    exact congrArg some (readForm_plain (number_percent hR hr) hp R.repair)

/-- A flag is read back. -/
theorem get_flag {fs : List (String×Written)} {name : String} {value : Bool}
    (hnodup : (fs.map Prod.fst).Nodup) (h : (name,writtenFlag value) ∈ fs) :
    (get (readFields R.repair fs) name).isSome=value := by
  rw [get_field R.repair hnodup h]
  cases value with
  | false => rfl
  | true => rfl

/-- A text is read back. -/
theorem get_text {fs : List (String×Written)} {name value : String}
    (hnodup : (fs.map Prod.fst).Nodup) (h : (name,writtenText value) ∈ fs) :
    get (readFields R.repair fs) name=if value="" then none else some value.toList := by
  rw [get_field R.repair hnodup h]
  by_cases hv : value=""
  · rw [writtenText,if_pos hv,if_pos hv]
    rfl
  · have hread : readForm R.repair (encode querySet (encode componentSet value.toList))=
        value.toList := readForm_encoded (fun _ => by decide) (fun _ => by decide) R.repair
    rw [writtenText,if_neg hv,if_neg hv,Option.map_some,Option.getD_some,
      encodeURIComponent_toList]
    exact congrArg some hread

/-- Whole numbers are different values. -/
theorem whole_inj {j k : ℕ} : whole j=whole k↔j=k := by
  rw [whole,whole,WithTop.coe_inj,Nat.cast_inj]

/-- A level is found among the levels. -/
theorem level_ofNat {k : ℕ} (h1 : 1 ≤ k) (h22 : k ≤ 22) :
    (JsValue.number (JsNumber.ofNat k)).level=some k := by
  have hfind : ∀ j : Fin 23,1 ≤ j.val → (List.range' 1 22).find? (fun i => j.val=i)=some j.val := by
    decide
  have hv : ∀ i,decide ((JsNumber.ofNat k).value=whole i)=decide (k=i) :=
    fun i => decide_eq_decide.mpr whole_inj
  rw [JsValue.level]
  simp only [hv]
  exact hfind ⟨k,by omega⟩ h1

/-- A printed level is parsed. -/
theorem parseCompress_level (hR : R.Lawful) {k : ℕ} (h1 : 1 ≤ k) (h22 : k ≤ 22) :
    parseCompress R (.text ("zstd:".toList++Nat.toDigits 10 k))=.ok (.zstdLevel k) := by
  have hlib : "zstd:".toList++Nat.toDigits 10 k≠"zlib".toList := by
    intro he
    have h := congrArg List.tail he
    exact absurd (List.cons.inj h).1 (by decide)
  have hstd : "zstd:".toList++Nat.toDigits 10 k≠"zstd".toList := by
    intro he
    have h := congrArg List.length he
    rw [List.length_append] at h
    have h5 : "zstd:".toList.length=5 := rfl
    have h4 : "zstd".toList.length=4 := rfl
    omega
  have hd : ("zstd:".toList++Nat.toDigits 10 k).drop 5=Nat.toDigits 10 k := rfl
  rw [parseCompress,if_neg (by simp),if_neg hlib,if_neg hstd,if_pos (List.prefix_append _ _),hd,
    hR.number_whole k (by omega),level_ofNat h1 h22]

/-- The compression is read back. -/
theorem readCompress_fields (hR : R.Lawful) {fs : List (String×Written)} {value : DsnCompress}
    (hnodup : (fs.map Prod.fst).Nodup) (h : ("compress",writtenCompress value) ∈ fs)
    (hok : LevelOk value) : readCompress R (readFields R.repair fs)=.ok value := by
  have hplain : ∀ text : List Char,'%' ∉ text → '+' ∉ text →
      readForm R.repair (encode querySet text)=text :=
    fun text hp hplus => readForm_plain hp hplus R.repair
  rw [readCompress,get_field R.repair hnodup h]
  cases value with
  | off => rfl
  | best =>
    simp only [writtenCompress,Option.map_some,Option.getD_none]
    rw [hplain [] List.not_mem_nil List.not_mem_nil]
    rfl
  | zlib =>
    simp only [writtenCompress,Option.map_some,Option.getD_some]
    rw [hplain _ (by decide) (by decide)]
    rfl
  | zstd =>
    simp only [writtenCompress,Option.map_some,Option.getD_some]
    rw [hplain _ (by decide) (by decide)]
    rfl
  | zstdLevel k =>
    obtain ⟨h1,h22⟩ := hok k rfl
    have hdigit : ∀ c ∈ Nat.toDigits 10 k,c.isDigit=true :=
      fun c hc => Nat.isDigit_of_mem_toDigits (by decide) (by decide) hc
    simp only [writtenCompress,Option.map_some,Option.getD_some]
    rw [hplain]
    · exact parseCompress_level hR h1 h22
    · intro hm
      rcases List.mem_append.mp hm with hm | hm
      · exact absurd hm (by decide)
      · exact absurd (hdigit _ hm) (by decide)
    · intro hm
      rcases List.mem_append.mp hm with hm | hm
      · exact absurd hm (by decide)
      · exact absurd (hdigit _ hm) (by decide)

end Reading

end SpiritMysql.DsnQuery
