import SpiritMysql.DsnQuery

/-!
# Names that are parsed back

A name whose fields are printable is split into the parts it was made of, and the parts are
read as the same fields.
-/

namespace SpiritMysql.DsnRoundTrip

open DsnName DsnParse DsnQuery PercentCoding UrlRules

/-- A character of a user name that is read back. -/
def isUserChar (c : Char) : Bool :=
  !endsAuthority c && c != ':' && c != '%' && !isTabOrNewline c

/-- A character of a path that is read back. -/
def isPathChar (c : Char) : Bool :=
  c != '?' && c != '#' && c != '\\' && c != '%' && !isTabOrNewline c

/-- The end of the name is visible: it is not that of a schema that ends with a blank. -/
def EndsVisibly (d : Dsn) : Prop :=
  (∀ c ∈ d.schema.toList.getLast?,isBlank c=false) ∨ d.params≠"" ∨ d.initSql≠""

/-- Fields that are read back from the name. -/
structure Printable (R : Runtime) (d : Dsn) : Prop where
  /-- The host is kept by the parser of hosts. -/
  host : R.host (printedHost d.hostname.toList)=some (printedHost d.hostname.toList)
  /-- The port is in range, and not the default port of the protocol that is parsed. -/
  port : ∃ k,1 ≤ k ∧ k ≤ 65535 ∧ k≠80 ∧ d.port=JsNumber.ofNat k
  /-- The user has no delimiters. -/
  username : ∀ c ∈ d.username.toList,isUserChar c=true
  /-- The pipe begins with a slash. -/
  pipe : d.pipe.toList=[] ∨ ∃ rest,d.pipe.toList= '/'::rest
  /-- The pipe has no delimiters. -/
  pipe_chars : ∀ c ∈ d.pipe.toList,isPathChar c=true
  /-- The pipe has no dot segments. -/
  pipe_dots : NoDots (d.pipe.toList.drop 1)
  /-- The schema has no delimiters. -/
  schema_chars : ∀ c ∈ d.schema.toList,isPathChar c=true ∧ c ≠ '/'
  /-- The schema is not a dot segment. -/
  schema_dots : NoDots d.schema.toList
  /-- The end is visible. -/
  ends : EndsVisibly d
  connectionTimeout : NumberOk R 0 d.connectionTimeout
  reconnectInterval : NumberOk R 0 d.reconnectInterval
  keepAliveTimeout : NumberOk R 0 d.keepAliveTimeout
  keepAliveMax : NumberOk R 0 d.keepAliveMax
  /-- The number is whole. -/
  keepAliveMax_round : ∀ n,d.keepAliveMax=some n → R.round n=n
  maxConns : NumberOk R 1 d.maxConns
  maxColumnLen : NumberOk R 1 d.maxColumnLen
  retryQueryTimes : NumberOk R 0 d.retryQueryTimes
  storeResultsetIfBigger : NumberOk R 0 d.storeResultsetIfBigger
  /-- The key is normalized. -/
  serverPublicKey : normalizeKey d.serverPublicKey.toList=d.serverPublicKey.toList
  /-- The level is in range. -/
  compress : LevelOk d.compress
  /-- A certificate and a host name are for TLS only. -/
  tls : d.tls=false → d.tlsCaCert="" ∧ d.tlsHostname=""
  /-- The statements are trimmed. -/
  initSql : trim d.initSql.toList=d.initSql.toList

/-- The credentials as they are printed. -/
def credentials (d : Dsn) : Option (List Char×Option (List Char)) :=
  if d.username="" then none
  else some (d.username.toList,if d.password="" then none else some "hidden".toList)

/-- The query as it is printed. -/
@[irreducible] def query (d : Dsn) : Option (List Char) :=
  if d.params="" then none else some (queryText (items (fields d)))

/-- The fragment as it is printed. -/
@[irreducible] def fragment (d : Dsn) : Option (List Char) :=
  if d.initSql="" then none else some (encode componentSet d.initSql.toList)

/-- The address that is printed, for a port that is a whole number. -/
def address (d : Dsn) (port : ℕ) : Address where
  credentials := credentials d
  host := printedHost d.hostname.toList
  port := if port=3306 then none else some port
  path := (d.pipe.toList++ '/'::d.schema.toList).drop 1
  query := query d
  fragment := fragment d

section Printing

variable {d : Dsn}

/-- The user part is the credentials with an at sign. -/
theorem userPart_toList (port : ℕ) : d.userPart.toList=
    if (address d port).credentials.isSome=true then (address d port).credentialsText++['@']
    else [] := by
  unfold Dsn.userPart Address.credentialsText Address.username
  change _=if (credentials d).isSome=true then _ else _
  by_cases hu : d.username=""
  · rw [if_pos hu,credentials,if_pos hu]
    rfl
  · by_cases hp : d.password=""
    · rw [if_neg hu,if_pos hp]
      simp [address,credentials,hu,hp,markedText]
    · rw [if_neg hu,if_neg hp]
      simp [address,credentials,hu,hp,markedText]

/-- The host as it is printed. -/
theorem host_toList :
    (if d.hostname.toList.contains ':'=true then "["++d.hostname++"]" else d.hostname).toList=
      printedHost d.hostname.toList := by
  unfold printedHost
  by_cases h : ':' ∈ d.hostname.toList
  · rw [if_pos h,if_pos (List.contains_iff_mem.mpr h)]
    simp
  · rw [if_neg h,if_neg (fun hc => h (List.contains_iff_mem.mp hc))]

/-- The port as it is printed. -/
theorem port_toList {port : ℕ} (h : d.port=JsNumber.ofNat port) :
    (if d.port.value=((3306 : ℚ) : WithTop ℚ) then "" else ":"++d.port.text).toList=
      portText (address d port).port := by
  have hv : d.port.value=((3306 : ℚ) : WithTop ℚ)↔port=3306 := by
    rw [h]
    exact @whole_inj port 3306
  by_cases hp : port=3306
  · rw [if_pos (hv.mpr hp)]
    simp [address,hp,portText]
  · have ht : d.port.text.toList=Nat.toDigits 10 port := by
      rw [h,JsNumber.ofNat,Nat.toString_eq_repr,Nat.toList_repr]
    rw [if_neg (fun he => hp (hv.mp he)),String.toList_append,ht]
    simp [address,hp,portText]

/-- The path begins with a slash. -/
theorem path_cons (hpipe : d.pipe.toList=[] ∨ ∃ rest,d.pipe.toList= '/'::rest) :
    '/'::(d.pipe.toList++ '/'::d.schema.toList).drop 1=d.pipe.toList++ '/'::d.schema.toList := by
  rcases hpipe with h | ⟨rest,h⟩
  · rw [h]
    rfl
  · rw [h]
    rfl

/-- The query as it is printed. -/
theorem query_toList :
    (if d.params="" then "" else "?"++String.ofList (d.params.toList.drop 1)).toList=
      markedText '?' (query d) := by
  by_cases hp : d.params=""
  · rw [query,if_pos hp,if_pos hp]
    exact String.toList_empty
  · rw [query,if_neg hp,if_neg hp,String.toList_append,String.toList_ofList,
      String.toList_ofList,params_toList,markedText,queryText]
    exact List.singleton_append

/-- The fragment as it is printed. -/
theorem fragment_toList :
    (if d.initSql="" then "" else "#"++encodeURIComponent d.initSql).toList=
      markedText '#' (fragment d) := by
  by_cases hi : d.initSql=""
  · rw [fragment,if_pos hi,if_pos hi]
    exact String.toList_empty
  · have hm : "#".toList=[ '#'] := rfl
    rw [fragment,if_neg hi,if_neg hi,String.toList_append,encodeURIComponent_toList,hm,
      markedText,List.singleton_append]

/-- The user, the host and the port. -/
theorem authority_eq (port : ℕ) : (address d port).authority=
    d.userPart.toList++(printedHost d.hostname.toList++portText (address d port).port) := by
  rw [Address.authority,←userPart_toList]
  rfl

/-- The path, the query and the fragment. -/
theorem rest_eq (port : ℕ) (hpipe : d.pipe.toList=[] ∨ ∃ rest,d.pipe.toList= '/'::rest) :
    (address d port).rest=(d.pipe.toList++ '/'::d.schema.toList)++
      (markedText '?' (query d)++markedText '#' (fragment d)) := by
  have hp : '/'::(address d port).path=d.pipe.toList++ '/'::d.schema.toList := path_cons hpipe
  have hq : (address d port).query=query d := by simp only [address]
  have hf : (address d port).fragment=fragment d := by simp only [address]
  rw [Address.rest,hp,hq,hf,List.append_assoc]

/-- The name is the protocol and the address. -/
theorem name_toList {port : ℕ} (hport : d.port=JsNumber.ofNat port)
    (hpipe : d.pipe.toList=[] ∨ ∃ rest,d.pipe.toList= '/'::rest) :
    d.name.toList="mysql".toList++ ':'::(address d port).text := by
  have hstart : "mysql://".toList="mysql".toList++ ':':: '/'::[ '/'] := rfl
  have hslash : "/".toList=[ '/'] := rfl
  rw [Address.text,authority_eq,rest_eq port hpipe,Dsn.name,Dsn.name0,Dsn.name1]
  simp only [String.toList_append]
  rw [host_toList,port_toList hport,query_toList,fragment_toList,hstart,hslash]
  simp only [List.append_assoc,List.cons_append,List.nil_append]

end Printing

/-- Tabs and line breaks are blank. -/
theorem not_tab_of_visible {c : Char} (h : isBlank c=false) : isTabOrNewline c=false := by
  have hc : ¬c.toNat ≤ 32 := of_decide_eq_false h
  simp only [isTabOrNewline,Bool.or_eq_false_iff,beq_eq_false_iff_ne]
  refine ⟨⟨?_,?_⟩,?_⟩
  · rintro rfl
    exact hc (by decide)
  · rintro rfl
    exact hc (by decide)
  · rintro rfl
    exact hc (by decide)

/-- The characters of values are visible. -/
theorem valueChar_visible {c : Char} (h : isValueChar c=true) : isBlank c=false := by
  have hall : ∀ n : Fin 33,isValueChar (Char.ofNat n)=false := by decide +kernel
  refine decide_eq_false (fun hle => ?_)
  have hc := hall ⟨c.toNat,Nat.lt_succ_of_le hle⟩
  rw [Char.ofNat_toNat,h] at hc
  exact absurd hc (by decide)

/-- A character of the parameters as they are printed. -/
def isParamChar (c : Char) : Bool := isValueChar c || c == '&' || c == '='

/-- The characters of parameters are visible, and not a number sign. -/
theorem paramChar_visible {c : Char} (h : isParamChar c=true) :
    isBlank c=false ∧ c ≠ '#' := by
  constructor
  · simp only [isParamChar,Bool.or_eq_true,beq_iff_eq] at h
    rcases h with (h | rfl) | rfl
    · exact valueChar_visible h
    · decide
    · decide
  · rintro rfl
    exact absurd h (by decide)

/-- A letter is a character of values. -/
theorem valueChar_alpha {c : Char} (h : c.isAlpha=true) : isValueChar c=true := by
  have ha : c.isAlphanum=true := by rw [Char.isAlphanum,h,Bool.true_or]
  simp only [isValueChar,isUnreserved,ha,Bool.true_or]

/-- The parameters have these characters only. -/
theorem item_chars {fs : List (String×Written)}
    (hnames : ∀ n ∈ fs.map Prod.fst,n.toList≠[] ∧ ∀ c ∈ n.toList,c.isAlpha=true)
    (hfs : ∀ f ∈ fs,FieldOk f) {i : Item} (hi : i ∈ items fs) {c : Char} (hc : c ∈ i.text) :
    isParamChar c=true := by
  obtain ⟨f,hf,h1,h2⟩ := mem_items hi
  obtain ⟨-,ha⟩ := hnames f.1 (List.mem_map_of_mem hf)
  rw [Item.text,List.mem_append,h1] at hc
  rcases hc with hc | hc
  · simp only [isParamChar,valueChar_alpha (ha c hc),Bool.true_or]
  · cases hw : i.2 with
    | none =>
      rw [hw] at hc
      exact absurd hc List.not_mem_nil
    | some w =>
      rw [hw] at hc
      rcases List.mem_cons.mp hc with rfl | hc
      · decide
      · have hv := hfs f hf w (by rw [h2,hw]) c hc
        simp only [isParamChar,hv,Bool.true_or]

/-- The query has these characters only. -/
theorem query_chars {fs : List (String×Written)}
    (hnames : ∀ n ∈ fs.map Prod.fst,n.toList≠[] ∧ ∀ c ∈ n.toList,c.isAlpha=true)
    (hfs : ∀ f ∈ fs,FieldOk f) {c : Char} (hc : c ∈ queryText (items fs)) :
    isParamChar c=true := by
  obtain ⟨i,hi,hm⟩ := List.mem_flatMap.mp (List.mem_of_mem_drop hc)
  rcases List.mem_cons.mp hm with rfl | hm
  · decide
  · exact item_chars hnames hfs hi hm

section Parsing

variable {R : Runtime} {d : Dsn}

/-- All parameters are printed with the characters of values. -/
theorem Printable.fields (hR : R.Lawful) (h : Printable R d) :
    ∀ f ∈ fields d,FieldOk f := by
  intro f hf
  simp only [DsnQuery.fields,List.mem_cons,List.not_mem_nil,or_false] at hf
  rcases hf with rfl | rfl | rfl | rfl | rfl | rfl | rfl | rfl | rfl | rfl | rfl | rfl | rfl | rfl |
    rfl | rfl | rfl | rfl | rfl | rfl | rfl | rfl
  · exact fieldOk_number hR _ h.connectionTimeout
  · exact fieldOk_number hR _ h.reconnectInterval
  · exact fieldOk_number hR _ h.keepAliveTimeout
  · exact fieldOk_number hR _ h.keepAliveMax
  · exact fieldOk_number hR _ h.maxConns
  · exact fieldOk_number hR _ h.maxColumnLen
  · exact fieldOk_flag _ _
  · exact fieldOk_flag _ _
  · exact fieldOk_flag _ _
  · exact fieldOk_flag _ _
  · exact fieldOk_number hR _ h.retryQueryTimes
  · exact fieldOk_flag _ _
  · exact fieldOk_flag _ _
  · exact fieldOk_flag _ _
  · exact fieldOk_number hR _ h.storeResultsetIfBigger
  · exact fieldOk_flag _ _
  · exact fieldOk_text _ _
  · exact fieldOk_flag _ _
  · exact fieldOk_compress _ _
  · exact fieldOk_flag _ _
  · exact fieldOk_text _ _
  · exact fieldOk_text _ _

/-- The names of the parameters of an object are words. -/
theorem fields_words (d : Dsn) :
    ∀ n ∈ (DsnQuery.fields d).map Prod.fst,n.toList≠[] ∧ ∀ c ∈ n.toList,c.isAlpha=true := by
  rw [fields_names]
  exact names_words.2

/-- The characters of the user part. -/
theorem Printable.user_chars (h : Printable R d) {c : Char} (hc : c ∈ d.userPart.toList) :
    endsAuthority c=false ∧ isTabOrNewline c=false := by
  have hu : ∀ c ∈ d.username.toList,endsAuthority c=false ∧ isTabOrNewline c=false := by
    intro c hc
    have hk := h.username c hc
    simp only [isUserChar,Bool.and_eq_true,Bool.not_eq_true'] at hk
    exact ⟨hk.1.1.1,hk.2⟩
  have hfixed : ":hidden@".toList.all (fun x => !endsAuthority x && !isTabOrNewline x)=true := by
    decide
  unfold Dsn.userPart at hc
  split at hc
  · rw [String.toList_empty] at hc
    exact absurd hc List.not_mem_nil
  · split at hc
    · rw [String.toList_append,List.mem_append] at hc
      rcases hc with hc | hc
      · exact hu c hc
      · have hc' : c ∈ [ '@'] := hc
        rw [List.mem_singleton.mp hc']
        decide
    · rw [String.toList_append,List.mem_append] at hc
      rcases hc with hc | hc
      · exact hu c hc
      · have hx := List.all_eq_true.mp hfixed c hc
        simpa using hx

/-- The characters of the host. -/
theorem Printable.host_chars (hR : R.Lawful) (h : Printable R d) {c : Char}
    (hc : c ∈ printedHost d.hostname.toList) :
    endsAuthority c=false ∧ isTabOrNewline c=false ∧ c ≠ '@' := by
  have hk := (hR.host_chars _ _ h.host).2 c hc
  simp only [isHostChar,Bool.and_eq_true,Bool.not_eq_true',bne_iff_ne] at hk
  exact ⟨hk.1.1,hk.2,hk.1.2⟩

/-- The characters of the port. -/
theorem portText_chars {port : Option ℕ} {c : Char} (hc : c ∈ portText port) :
    endsAuthority c=false ∧ isTabOrNewline c=false := by
  cases port with
  | none => exact absurd hc List.not_mem_nil
  | some port =>
    rcases List.mem_cons.mp hc with rfl | hc
    · decide
    · have hd := Nat.isDigit_of_mem_toDigits (by decide) (by decide) hc
      have hv := valueChar_digit hd
      refine ⟨?_,not_tab_of_visible (valueChar_visible hv)⟩
      rw [Bool.eq_false_iff]
      intro he
      simp only [endsAuthority,isSlash,Bool.or_eq_true,beq_iff_eq] at he
      rcases he with ((rfl | rfl) | rfl) | rfl
      · exact absurd hd (by decide)
      · exact absurd hd (by decide)
      · exact absurd hd (by decide)
      · exact absurd hd (by decide)

/-- The characters of the user, the host and the port. -/
theorem Printable.authority_chars (hR : R.Lawful) (h : Printable R d) (port : ℕ) {c : Char}
    (hc : c ∈ (address d port).authority) : endsAuthority c=false ∧ isTabOrNewline c=false := by
  rw [authority_eq,List.mem_append,List.mem_append] at hc
  rcases hc with hc | hc | hc
  · exact h.user_chars hc
  · have hk := h.host_chars hR hc
    exact ⟨hk.1,hk.2.1⟩
  · exact portText_chars hc

/-- The characters of the path. -/
theorem Printable.path_chars (h : Printable R d) {c : Char}
    (hc : c ∈ d.pipe.toList++ '/'::d.schema.toList) : isPathChar c=true := by
  rcases List.mem_append.mp hc with hc | hc
  · exact h.pipe_chars c hc
  · rcases List.mem_cons.mp hc with rfl | hc
    · decide
    · exact (h.schema_chars c hc).1

/-- The characters of the query. -/
theorem Printable.query_chars (hR : R.Lawful) (h : Printable R d) {q : List Char} {c : Char}
    (hq : query d=some q) (hc : c ∈ q) : isBlank c=false ∧ c ≠ '#' := by
  unfold query at hq
  split at hq
  · cases hq
  · rw [Option.some.injEq] at hq
    rw [←hq] at hc
    exact paramChar_visible
      (DsnRoundTrip.query_chars (fields_words d) (h.fields hR) hc)

/-- The characters of the fragment. -/
theorem fragment_chars {f : List Char} {c : Char} (hf : fragment d=some f) (hc : c ∈ f) :
    isBlank c=false := by
  unfold fragment at hf
  split at hf
  · cases hf
  · rw [Option.some.injEq] at hf
    rw [←hf] at hc
    exact valueChar_visible (valueChar_component hc)

/-- There are no tabs and line breaks after the port. -/
theorem Printable.rest_chars (hR : R.Lawful) (h : Printable R d) (port : ℕ) {c : Char}
    (hc : c ∈ (address d port).rest) : isTabOrNewline c=false := by
  rw [rest_eq port h.pipe] at hc
  rcases List.mem_append.mp hc with hc | hc
  · have hk := h.path_chars hc
    simp only [isPathChar,Bool.and_eq_true,Bool.not_eq_true'] at hk
    exact hk.2
  · rcases List.mem_append.mp hc with hc | hc
    · cases hq : query d with
      | none =>
        rw [hq] at hc
        exact absurd hc List.not_mem_nil
      | some q =>
        rw [hq] at hc
        rcases List.mem_cons.mp hc with rfl | hc
        · decide
        · exact not_tab_of_visible (h.query_chars hR hq hc).1
    · cases hf : fragment d with
      | none =>
        rw [hf] at hc
        exact absurd hc List.not_mem_nil
      | some f =>
        rw [hf] at hc
        rcases List.mem_cons.mp hc with rfl | hc
        · decide
        · exact not_tab_of_visible (fragment_chars hf hc)

/-- The last character of text is that of its last part. -/
theorem visible_last {a b : List Char} {mark : Char} (hm : isBlank mark=false)
    (hb : ∀ c ∈ b.getLast?,isBlank c=false) : ∀ c ∈ (a++mark::b).getLast?,isBlank c=false := by
  intro c hc
  rw [List.getLast?_append_of_ne_nil a (List.cons_ne_nil mark b)] at hc
  cases b with
  | nil =>
    rw [List.getLast?_singleton,Option.mem_def,Option.some.injEq] at hc
    rw [←hc]
    exact hm
  | cons x b =>
    rw [List.getLast?_cons_cons] at hc
    exact hb c hc

/-- The last character is visible. -/
theorem Printable.last_char (hR : R.Lawful) (h : Printable R d) (port : ℕ) :
    ∀ c ∈ (address d port).text.getLast?,isBlank c=false := by
  rw [Address.text,rest_eq port h.pipe]
  cases hf : fragment d with
  | some f =>
    have he : '/':: '/'::((address d port).authority++((d.pipe.toList++ '/'::d.schema.toList)++
        (markedText '?' (query d)++markedText '#' (some f))))=
        ('/':: '/'::((address d port).authority++((d.pipe.toList++ '/'::d.schema.toList)++
        markedText '?' (query d))))++ '#'::f := by
      simp only [markedText,List.append_assoc,List.cons_append]
    rw [he]
    exact visible_last (by decide) (fun c hc => fragment_chars hf (List.mem_of_getLast? hc))
  | none =>
    cases hq : query d with
    | some q =>
      have he : '/':: '/'::((address d port).authority++((d.pipe.toList++ '/'::d.schema.toList)++
          (markedText '?' (some q)++markedText '#' none)))=
          ('/':: '/'::((address d port).authority++(d.pipe.toList++ '/'::d.schema.toList)))++
            '?'::q := by
        simp only [markedText,List.append_assoc,List.cons_append,List.append_nil]
      rw [he]
      exact visible_last (by decide) (fun c hc => (h.query_chars hR hq (List.mem_of_getLast? hc)).1)
    | none =>
      have he : '/':: '/'::((address d port).authority++((d.pipe.toList++ '/'::d.schema.toList)++
          (markedText '?' none++markedText '#' none)))=
          ('/':: '/'::((address d port).authority++d.pipe.toList))++ '/'::d.schema.toList := by
        simp only [markedText,List.append_assoc,List.cons_append,List.append_nil]
      rw [he]
      refine visible_last (by decide) ?_
      rcases h.ends with hs | hp | hi
      · exact hs
      · rw [query,if_neg hp] at hq
        cases hq
      · rw [fragment,if_neg hi] at hf
        cases hf

/-- Two paths one after another have no dot segments when both have none. -/
theorem noDots_append {a b : List Char} : NoDots (a++ '/'::b)↔NoDots a ∧ NoDots b := by
  have hs : (a++ '/'::b).splitOnP isSlash=a.splitOnP isSlash++b.splitOnP isSlash :=
    List.splitOnP_append_cons a b (by decide)
  unfold NoDots
  rw [hs]
  constructor
  · intro h
    exact ⟨fun s hm => h s (List.mem_append_left _ hm),
      fun s hm => h s (List.mem_append_right _ hm)⟩
  · rintro ⟨ha,hb⟩ s hm
    rcases List.mem_append.mp hm with hm | hm
    · exact ha s hm
    · exact hb s hm

/-- The path has no dot segments. -/
theorem Printable.dots (h : Printable R d) :
    NoDots ((d.pipe.toList++ '/'::d.schema.toList).drop 1) := by
  rcases h.pipe with hp | ⟨rest,hp⟩
  · rw [hp]
    exact h.schema_dots
  · have hd := h.pipe_dots
    rw [hp] at hd ⊢
    exact noDots_append.mpr ⟨hd,h.schema_dots⟩

/-- The name is a plainly written address. -/
theorem Printable.plain (hR : R.Lawful) (h : Printable R d) {port : ℕ} (hle : port ≤ 65535) :
    (address d port).Plain where
  username := by
    intro hm
    unfold Address.username address credentials at hm
    dsimp only at hm
    split at hm
    · exact List.not_mem_nil hm
    · exact absurd (h.username _ hm) (by decide)
  authority c hc := (h.authority_chars hR port hc).1
  host_ne := (hR.host_chars _ _ h.host).1
  host := by
    change HostText (printedHost d.hostname.toList)
    rcases hR.host_colon _ _ h.host with hc | ⟨inner,he,-,hc⟩
    · exact .plain hc
    · rw [he]
      exact .bracketed hc
  host_at hm := (h.host_chars hR hm).2.2 rfl
  port p hp := by
    unfold address at hp
    dsimp only at hp
    split at hp
    · cases hp
    · cases hp
      exact hle
  path c hc := by
    have hk := h.path_chars (List.mem_of_mem_drop hc)
    simp only [isPathChar,Bool.and_eq_true,bne_iff_ne] at hk
    exact ⟨hk.1.1.1.1,hk.1.1.1.2,hk.1.1.2,hk.1.2⟩
  dots := h.dots
  query q hq hm := (h.query_chars hR hq hm).2 rfl
  tabs c hc := by
    rw [Address.text,List.mem_cons,List.mem_cons,List.mem_append] at hc
    rcases hc with rfl | rfl | hc | hc
    · decide
    · decide
    · exact (h.authority_chars hR port hc).2
    · exact h.rest_chars hR port hc
  last := h.last_char hR port

/-- The URL of a name. -/
theorem Printable.parseUrl (hR : R.Lawful) (h : Printable R d) {port : ℕ}
    (hport : d.port=JsNumber.ofNat port) (hle : port ≤ 65535) :
    parseUrl R d.name=.ok {
      username := encode userinfoSet (address d port).username
      password := encode userinfoSet (address d port).password
      hostname := printedHost d.hostname.toList
      port := (address d port).port.filter (· ≠ 80)
      pathname := '/'::encode pathSet (address d port).path
      query := encode querySet ((query d).getD [])
      fragment := encode fragmentSet ((fragment d).getD []) } := by
  have hname := name_toList hport h.pipe
  have hne : d.name≠"" := by
    intro he
    rw [he,String.toList_empty] at hname
    cases hname
  have hcut : cutFirst ':' d.name.toList=("mysql".toList,some (address d port).text) := by
    rw [hname]
    exact cutFirst_append (by decide) _
  have hlower : "mysql".toList.map Char.toLower="mysql".toList := by decide
  have hparse := @Address.Plain.parse _ (h.plain hR hle) R.host 80 _ h.host
  have hq : (address d port).query=query d := by simp only [address]
  have hf : (address d port).fragment=fragment d := by simp only [address]
  rw [hq,hf] at hparse
  unfold DsnParse.parseUrl
  rw [if_neg hne,hcut]
  dsimp only
  rw [if_pos hlower,hparse]

/-- A host is read back without its brackets. -/
theorem Printable.unbracket (hR : R.Lawful) (h : Printable R d) :
    unbracket (printedHost d.hostname.toList)=d.hostname.toList := by
  have hc := hR.host_colon _ _ h.host
  unfold printedHost at hc ⊢
  by_cases hm : ':' ∈ d.hostname.toList
  · rw [if_pos hm]
    have hl : ('['::(d.hostname.toList++[']'])).getLast? =some ']' := by
      rw [←List.cons_append,List.getLast?_append_of_ne_nil _ (List.cons_ne_nil _ _),
        List.getLast?_singleton]
    rw [DsnParse.unbracket,if_pos ⟨rfl,hl⟩,List.drop_one,List.tail_cons,List.dropLast_concat]
  · rw [if_neg hm] at hc ⊢
    refine if_neg (fun hb => ?_)
    have hhead := List.mem_of_head? hb.1
    rcases hc with hp | ⟨inner,he,hi,-⟩
    · exact (hp _ hhead).2.1 rfl
    · refine hm ?_
      rw [he]
      exact List.mem_cons_of_mem _ (List.mem_append_left _ hi)

/-- A port is read back. -/
theorem urlPort_eq (hR : R.Lawful) {port : ℕ} (hport : d.port=JsNumber.ofNat port)
    (h1 : 1 ≤ port) (hle : port ≤ 65535) (h80 : port≠80) :
    urlPort R ((address d port).port.filter (· ≠ 80))=d.port := by
  unfold address
  dsimp only
  by_cases hp : port=3306
  · rw [if_pos hp,hport,hp]
    rfl
  · have hv : ¬(JsNumber.ofNat port).value=whole 0 := by
      intro he
      have hz := (@whole_inj port 0).mp he
      omega
    rw [if_neg hp,Option.filter_some,if_pos (by simpa using h80),urlPort,hR.number_whole port hle,
      hport]
    exact if_neg hv

/-- The path is read back. -/
theorem Printable.cutPath (h : Printable R d) :
    cutPath (d.pipe.toList++ '/'::d.schema.toList)=(d.pipe.toList,d.schema.toList) := by
  rw [DsnParse.cutPath,cutLast_append _ (fun hm => (h.schema_chars _ hm).2 rfl)]
  rfl

/-- The path is decoded. -/
theorem Printable.decode_path (h : Printable R d) (port : ℕ) :
    decode ('/'::encode pathSet (address d port).path)=
      some (d.pipe.toList++ '/'::d.schema.toList) := by
  have hp : '/'::(address d port).path=d.pipe.toList++ '/'::d.schema.toList := path_cons h.pipe
  have he : '/'::encode pathSet (address d port).path=
      encode pathSet (d.pipe.toList++ '/'::d.schema.toList) := by
    rw [←hp,encode_cons,encodeChar_not_mem (by decide)]
    rfl
  rw [he]
  exact decode_encode (fun hm => absurd (h.path_chars hm) (by decide))

/-- The fragment is decoded. -/
theorem decode_fragment : decode (encode fragmentSet ((fragment d).getD []))=
    some d.initSql.toList := by
  by_cases hi : d.initSql=""
  · rw [fragment,if_pos hi,hi]
    exact decode_encode (fun hm => absurd hm List.not_mem_nil)
  · have hset : ∀ c,isEscapeChar c=true → fragmentSet c=false := by
      intro c hc
      have hkept : (!fragmentSet c)=true :=
        @of_isEscapeChar (fun c => !fragmentSet c) c hc (by decide)
      simpa using hkept
    rw [fragment,if_neg hi,Option.getD_some,encode_encode hset]
    exact decode_encode (fun _ => by decide)

/-- The user is decoded. -/
theorem Printable.decode_username (h : Printable R d) (port : ℕ) :
    decode (encode userinfoSet (address d port).username)=some d.username.toList := by
  have hu : (address d port).username=d.username.toList := by
    unfold Address.username address credentials
    dsimp only
    split
    · rename_i hu
      rw [hu]
      rfl
    · rfl
  rw [hu]
  exact decode_encode (fun hm => absurd (h.username _ hm) (by decide))

/-- What is read instead of the password. -/
def hidden (d : Dsn) : String :=
  if d.username="" then "" else if d.password="" then "" else "hidden"

/-- The password is decoded. -/
theorem decode_password (port : ℕ) :
    decode (encode userinfoSet (address d port).password)=some (hidden d).toList := by
  have hp : (address d port).password=(hidden d).toList := by
    unfold Address.password address credentials hidden
    dsimp only
    split
    · rfl
    · split
      · rfl
      · rfl
  rw [hp]
  refine decode_encode (fun hm => ?_)
  unfold hidden at hm
  split at hm
  · exact absurd hm List.not_mem_nil
  · split at hm
    · exact absurd hm List.not_mem_nil
    · exact absurd hm (by decide)

/-- The parameters are read from the query. -/
theorem Printable.params (hR : R.Lawful) (h : Printable R d) :
    formEntries R.repair (encode querySet ((query d).getD []))=
      readFields R.repair (DsnQuery.fields d) := by
  have hq : (query d).getD []=queryText (items (DsnQuery.fields d)) := by
    by_cases hp : d.params=""
    · have hl := params_toList d
      rw [hp,String.toList_empty] at hl
      rw [query,if_pos hp,queryText,←hl]
      rfl
    · rw [query,if_neg hp]
      rfl
  rw [hq]
  exact formEntries_fields R.repair (fields_words d) (h.fields hR)

/-- A number at least as large as a bound is left as it is. -/
theorem atLeast_number {n : JsNumber} {low : ℕ} (h : whole low ≤ n.value) :
    (JsValue.number n).atLeast low=some n := by
  rw [JsValue.atLeast,if_neg (not_lt.mpr h)]

/-- A number that can be any text is read back. -/
theorem givenNumber_back {low : ℕ} {value : Option JsNumber} (h : NumberOk R low value) :
    givenNumber R low (value.map (fun n => n.text.toList))=value := by
  cases value with
  | none => rfl
  | some n =>
    obtain ⟨hr,hl,-⟩ := h n rfl
    rw [givenNumber,Option.map_some,Option.bind_some,hr,atLeast_number hl]

/-- Something is printed of a number. -/
theorem number_toList_ne (hR : R.Lawful) {n : JsNumber}
    (h : R.number n.text.toList=.number n) : n.text.toList≠[] :=
  fun he => hR.number_ne _ n h (String.toList_eq_nil_iff.mp he)

/-- A number that is not an empty text is read back. -/
theorem truthyNumber_back (hR : R.Lawful) {low : ℕ} {value : Option JsNumber}
    (h : NumberOk R low value) :
    truthyNumber R low (value.map (fun n => n.text.toList))=value := by
  cases value with
  | none => rfl
  | some n =>
    obtain ⟨hr,hl,-⟩ := h n rfl
    rw [truthyNumber,Option.map_some,Option.bind_some,if_neg (number_toList_ne hR hr),hr,
      atLeast_number hl]

/-- A number that is rounded is read back, if it is whole. -/
theorem roundedNumber_back (hR : R.Lawful) {value : Option JsNumber} (h : NumberOk R 0 value)
    (hw : ∀ n,value=some n → R.round n=n) :
    (value.map (fun n => n.text.toList)).bind (fun text =>
      if text=[] then none else (R.roundValue (R.number text)).atLeast 0)=value := by
  cases value with
  | none => rfl
  | some n =>
    obtain ⟨hr,hl,-⟩ := h n rfl
    rw [Option.map_some,Option.bind_some,if_neg (number_toList_ne hR hr),hr,Runtime.roundValue,
      hw n rfl,atLeast_number hl]

/-- A number for which zero stands for none is read back. -/
theorem orZero_back (hR : R.Lawful) {value : Option JsNumber} (h : NumberOk R 0 value) :
    (value.map (fun n => n.text.toList)).bind (fun text =>
      (R.number text).orZero.atLeast 0)=value := by
  cases value with
  | none => rfl
  | some n =>
    obtain ⟨hr,hl,-⟩ := h n rfl
    have hz : (JsValue.number n).orZero=.number n := by
      by_cases he : n.value=whole 0
      · rw [JsValue.orZero,if_pos he,←hR.number_zero _ n hr he]
      · rw [JsValue.orZero,if_neg he]
    rw [Option.map_some,Option.bind_some,hr,hz,atLeast_number hl]

/-- A text is read back. -/
theorem text_back {value : String} :
    String.ofList ((if value="" then none else some value.toList).getD [])=value := by
  split
  · rename_i h
    rw [h]
    rfl
  · exact String.ofList_toList

/-- A text that is given is not empty. -/
theorem text_given {value : String} :
    ((if value="" then none else some value.toList).getD [] != [])=(value != "") := by
  split
  · rename_i h
    rw [h]
    rfl
  · rename_i h
    have hl : value.toList≠[] := fun he => h (String.toList_eq_nil_iff.mp he)
    rw [bne_iff_ne.mpr h,Option.getD_some,bne_iff_ne.mpr hl]

/-- A normalized key has no whitespace. -/
theorem normalizeKey_space {key : List Char} (h : normalizeKey key=key) : ' ' ∉ key := by
  intro hm
  rw [←h,normalizeKey,List.mem_filter] at hm
  exact absurd hm.2 (by decide)

/-- The key is read back. -/
theorem parseKey_back {value : String} (h : normalizeKey value.toList=value.toList) :
    String.ofList (parseKey (if value="" then none else some value.toList))=value := by
  split
  · rename_i hv
    rw [hv]
    rfl
  · rename_i hv
    have hl : value.toList≠[] := fun he => hv (String.toList_eq_nil_iff.mp he)
    have hmap : value.toList.map (fun c => if c = ' ' then '+' else c)=value.toList := by
      refine (List.map_congr_left (fun c hc => if_neg ?_)).trans (List.map_id' _)
      rintro rfl
      exact normalizeKey_space h hc
    rw [parseKey,if_neg hl,hmap,h]
    exact String.ofList_toList

/-- A parameter by its place. -/
theorem field_mem (d : Dsn) (i : ℕ) {f : String×Written}
    (h : (DsnQuery.fields d)[i]? =some f) : f ∈ DsnQuery.fields d := List.mem_of_getElem? h

/-- A URL with the parts of a name is read as the fields. -/
theorem Printable.fromUrl (hR : R.Lawful) (h : Printable R d) {port : ℕ}
    (hport : d.port=JsNumber.ofNat port) (h1 : 1 ≤ port) (hle : port ≤ 65535) (h80 : port≠80) :
    fromUrl R {
      username := encode userinfoSet (address d port).username
      password := encode userinfoSet (address d port).password
      hostname := printedHost d.hostname.toList
      port := (address d port).port.filter (· ≠ 80)
      pathname := '/'::encode pathSet (address d port).path
      query := encode querySet ((query d).getD [])
      fragment := encode fragmentSet ((fragment d).getD []) }=
      .ok {d with password := hidden d} := by
  have hnd : ((DsnQuery.fields d).map Prod.fst).Nodup := by
    rw [fields_names]
    exact names_words.1
  have hwant : wantUrlDecodeUsername=true ∧ wantUrlDecodePassword=true ∧
      wantUrlDecodePathname=true := by decide +kernel
  have htls : (d.tls || d.tlsCaCert != "" || d.tlsHostname != "")=d.tls := by
    cases ht : d.tls with
    | true => rfl
    | false =>
      obtain ⟨hc,hn⟩ := h.tls ht
      rw [hc,hn]
      rfl
  have n0 := get_number hR hnd (field_mem d 0 rfl) h.connectionTimeout
  have n1 := get_number hR hnd (field_mem d 1 rfl) h.reconnectInterval
  have n2 := get_number hR hnd (field_mem d 2 rfl) h.keepAliveTimeout
  have n3 := get_number hR hnd (field_mem d 3 rfl) h.keepAliveMax
  have n4 := get_number hR hnd (field_mem d 4 rfl) h.maxConns
  have n5 := get_number hR hnd (field_mem d 5 rfl) h.maxColumnLen
  have n10 := get_number hR hnd (field_mem d 10 rfl) h.retryQueryTimes
  have n14 := get_number hR hnd (field_mem d 14 rfl) h.storeResultsetIfBigger
  have f6 := @get_flag R _ _ _ hnd (field_mem d 6 rfl)
  have f7 := @get_flag R _ _ _ hnd (field_mem d 7 rfl)
  have f8 := @get_flag R _ _ _ hnd (field_mem d 8 rfl)
  have f9 := @get_flag R _ _ _ hnd (field_mem d 9 rfl)
  have f11 := @get_flag R _ _ _ hnd (field_mem d 11 rfl)
  have f12 := @get_flag R _ _ _ hnd (field_mem d 12 rfl)
  have f13 := @get_flag R _ _ _ hnd (field_mem d 13 rfl)
  have f15 := @get_flag R _ _ _ hnd (field_mem d 15 rfl)
  have f17 := @get_flag R _ _ _ hnd (field_mem d 17 rfl)
  have f19 := @get_flag R _ _ _ hnd (field_mem d 19 rfl)
  have t16 := @get_text R _ _ _ hnd (field_mem d 16 rfl)
  have t20 := @get_text R _ _ _ hnd (field_mem d 20 rfl)
  have t21 := @get_text R _ _ _ hnd (field_mem d 21 rfl)
  have c18 := readCompress_fields hR hnd (field_mem d 18 rfl) h.compress
  unfold DsnParse.fromUrl
  simp only [decodeIf,decodeURIComponent,hwant,h.decode_username,decode_password,h.decode_path,
    decode_fragment,h.params hR,if_true]
  rw [c18]
  change Except.ok _=Except.ok _
  rw [Except.ok.injEq]
  unfold urlFields
  simp only [h.params hR,h.unbracket hR,String.ofList_toList,urlPort_eq hR hport h1 hle h80,
    h.cutPath,
    n0,n1,n2,n3,n4,n5,n10,n14,f6,f7,f8,f9,f11,f12,f13,f15,f17,f19,t16,t20,t21,
    givenNumber_back h.connectionTimeout,truthyNumber_back hR h.reconnectInterval,
    truthyNumber_back hR h.keepAliveTimeout,
    roundedNumber_back hR h.keepAliveMax h.keepAliveMax_round,
    truthyNumber_back hR h.maxConns,truthyNumber_back hR h.maxColumnLen,
    givenNumber_back h.retryQueryTimes,orZero_back hR h.storeResultsetIfBigger,
    text_back,text_given,parseKey_back h.serverPublicKey,htls,h.initSql]

/-- The name is parsed to the fields. -/
theorem Printable.parse (hR : R.Lawful) (h : Printable R d) :
    DsnParse.parse R d.name=.ok {d with password := hidden d} := by
  obtain ⟨port,h1,hle,h80,hport⟩ := h.port
  rw [DsnParse.parse,h.parseUrl hR hport hle]
  exact h.fromUrl hR hport h1 hle h80

/-- The password that is read is printed as the one it was. -/
theorem hidden_userPart (d : Dsn) : Dsn.userPart {d with password := hidden d}=d.userPart := by
  by_cases hu : d.username=""
  · simp only [Dsn.userPart,if_pos hu]
  · by_cases hp : d.password=""
    · have hh : hidden d="" := by rw [hidden,if_neg hu,if_pos hp]
      simp only [Dsn.userPart,if_neg hu,if_pos hp,if_pos hh]
    · have hh : hidden d≠"" := by
        rw [hidden,if_neg hu,if_neg hp]
        decide
      simp only [Dsn.userPart,if_neg hu,if_neg hp,if_neg hh]

/-- Fields that are read back are printed again as they were. -/
theorem hidden_name (d : Dsn) : Dsn.name {d with password := hidden d}=d.name := by
  have h0 : Dsn.name0 {d with password := hidden d}=d.name0 := by
    simp only [Dsn.name0]
    rw [hidden_userPart]
  simp only [Dsn.name]
  rw [h0]
  rfl

/-- Printable fields survive printing and parsing. -/
theorem Printable.roundTrips (hR : R.Lawful) (h : Printable R d) : RoundTrips R d :=
  ⟨_,h.parse hR,rfl,hidden_name d⟩

end Parsing

end SpiritMysql.DsnRoundTrip
