import SpiritMysql.DsnRoundTrip

/-!
# Fields that are read from a string

Which strings give an object whose fields are read back from its name.
-/

namespace SpiritMysql.DsnReading

open DsnName DsnParse DsnQuery DsnRoundTrip PercentCoding UrlRules

/-- A number is printed without a plus sign. -/
def PlainNumber (value : Option JsNumber) : Prop := ∀ n,value=some n → '+' ∉ n.text.toList

/-- The last character is visible, if there is one. -/
def VisibleEnd (text : List Char) : Prop := ∀ c ∈ text.getLast?,isBlank c=false

/-- A normalized key does not end with a zero. -/
def KeyOk (key : List Char) : Prop := key.getLast? ≠ some '\x00'

/-- Which parameters of a URL will be printed. -/
def shown (R : Runtime) (params : SearchParams) : List Bool := [
  (givenNumber R 0 (get params "connectionTimeout")).isSome,
  (truthyNumber R 0 (get params "reconnectInterval")).isSome,
  (truthyNumber R 0 (get params "keepAliveTimeout")).isSome,
  ((get params "keepAliveMax").bind (fun text =>
    if text=[] then none else (R.roundValue (R.number text)).atLeast 0)).isSome,
  (truthyNumber R 1 (get params "maxConns")).isSome,
  (truthyNumber R 1 (get params "maxColumnLen")).isSome,
  (get params "foundRows").isSome,
  (get params "ignoreSpace").isSome,
  (get params "multiStatements").isSome,
  (get params "retryLockWaitTimeout").isSome,
  (givenNumber R 0 (get params "retryQueryTimes")).isSome,
  (get params "jsonAsString").isSome,
  (get params "datesAsString").isSome,
  (get params "correctDates").isSome,
  ((get params "storeResultsetIfBigger").bind (fun text =>
    (R.number text).orZero.atLeast 0)).isSome,
  (get params "allowPublicKeyRetrieval").isSome,
  parseKey (get params "serverPublicKey") != [],
  (get params "allowCleartextPasswords").isSome,
  (get params "compress").isSome,
  (get params "tls").isSome || (get params "tlsCaCert").getD [] != [] ||
    (get params "tlsHostname").getD [] != [],
  (get params "tlsCaCert").getD [] != [],
  (get params "tlsHostname").getD [] != []]

/-- The numbers among the parameters of a URL. -/
structure NumbersOk (R : Runtime) (params : SearchParams) : Prop where
  connectionTimeout : PlainNumber (givenNumber R 0 (get params "connectionTimeout"))
  reconnectInterval : PlainNumber (truthyNumber R 0 (get params "reconnectInterval"))
  keepAliveTimeout : PlainNumber (truthyNumber R 0 (get params "keepAliveTimeout"))
  keepAliveMax : PlainNumber ((get params "keepAliveMax").bind (fun text =>
    if text=[] then none else (R.roundValue (R.number text)).atLeast 0))
  maxConns : PlainNumber (truthyNumber R 1 (get params "maxConns"))
  maxColumnLen : PlainNumber (truthyNumber R 1 (get params "maxColumnLen"))
  retryQueryTimes : PlainNumber (givenNumber R 0 (get params "retryQueryTimes"))
  storeResultsetIfBigger : PlainNumber ((get params "storeResultsetIfBigger").bind (fun text =>
    (R.number text).orZero.atLeast 0))

/-- A URL with parts whose decoded text can be printed. -/
structure UrlOk (R : Runtime) (url : Parts) : Prop where
  /-- The user has no delimiters. -/
  username : ∀ text,decode url.username=some text → ∀ c ∈ text,isUserChar c=true
  /-- The path has no delimiters. -/
  path : ∀ text,decode url.pathname=some text → ∀ c ∈ text,isPathChar c=true
  /-- The path has no dot segments. -/
  dots : ∀ text,decode url.pathname=some text → NoDots (text.drop 1)
  numbers : NumbersOk R (formEntries R.repair url.query)
  /-- The key does not end with a zero. -/
  key : KeyOk (parseKey (get (formEntries R.repair url.query) "serverPublicKey"))
  /-- The end is visible. -/
  ends : (∀ text,decode url.pathname=some text → VisibleEnd text) ∨
    true ∈ shown R (formEntries R.repair url.query) ∨
    ∀ text,decode url.fragment=some text → trim text≠[]

/-- What a URL that is read is decoded to. -/
theorem fromUrl_ok {R : Runtime} {url : Parts} {d : Dsn} (h : fromUrl R url=.ok d) :
    ∃ username password path compress initSql,
      decode url.username=some username ∧ decode url.pathname=some path ∧
      readCompress R (formEntries R.repair url.query)=.ok compress ∧
      decode url.fragment=some initSql ∧
      d=urlFields R url username password path initSql compress := by
  have hwant : wantUrlDecodeUsername=true ∧ wantUrlDecodePassword=true ∧
      wantUrlDecodePathname=true := by decide +kernel
  unfold fromUrl decodeIf decodeURIComponent at h
  simp only [hwant,if_true] at h
  cases hu : decode url.username with
  | none =>
    rw [hu] at h
    cases h
  | some username =>
    cases hw : decode url.password with
    | none =>
      rw [hu,hw] at h
      cases h
    | some password =>
      cases hp : decode url.pathname with
      | none =>
        rw [hu,hw,hp] at h
        cases h
      | some path =>
        cases hc : readCompress R (formEntries R.repair url.query) with
        | error e =>
          rw [hu,hw,hp,hc] at h
          cases h
        | ok compress =>
          cases hi : decode url.fragment with
          | none =>
            rw [hu,hw,hp,hc,hi] at h
            cases h
          | some initSql =>
            rw [hu,hw,hp,hc,hi] at h
            exact ⟨username,password,path,compress,initSql,rfl,rfl,rfl,rfl,
              (Except.ok.inj h).symm⟩

section Values

variable {R : Runtime}

/-- A number that is raised to a bound is read from what it is printed as. -/
theorem numberOk_atLeast (hR : R.Lawful) {value : JsValue} {low : ℕ} (hlow : low ≤ 65535)
    (hv : ∀ n,value=.number n → R.number n.text.toList=.number n)
    (hplain : PlainNumber (value.atLeast low)) : NumberOk R low (value.atLeast low) := by
  have hbound : R.number (JsNumber.ofNat low).text.toList=.number (JsNumber.ofNat low) := by
    rw [JsNumber.ofNat,Nat.toString_eq_repr,Nat.toList_repr]
    exact hR.number_whole low hlow
  intro n hn
  have hp := hplain n hn
  cases value with
  | nan => cases hn
  | minusInfinity =>
    cases hn
    exact ⟨hbound,le_refl _,hp⟩
  | number m =>
    rw [JsValue.atLeast,Option.some.injEq] at hn
    split at hn
    · cases hn
      exact ⟨hbound,le_refl _,hp⟩
    · rename_i hge
      cases hn
      exact ⟨hv n rfl,not_lt.mp hge,hp⟩

/-- No number is printed in any way. -/
theorem numberOk_none (R : Runtime) (low : ℕ) : NumberOk R low none := by
  intro n hn
  cases hn

/-- A given number is read from what it is printed as. -/
theorem numberOk_given (hR : R.Lawful) {low : ℕ} (hlow : low ≤ 65535) {text : Option (List Char)}
    (hplain : PlainNumber (givenNumber R low text)) : NumberOk R low (givenNumber R low text) := by
  cases text with
  | none => exact numberOk_none R low
  | some text => exact numberOk_atLeast hR hlow (hR.number_again text) hplain

/-- A number of a text that is not empty is read from what it is printed as. -/
theorem numberOk_truthy (hR : R.Lawful) {low : ℕ} (hlow : low ≤ 65535)
    {text : Option (List Char)} (hplain : PlainNumber (truthyNumber R low text)) :
    NumberOk R low (truthyNumber R low text) := by
  cases text with
  | none => exact numberOk_none R low
  | some text =>
    rw [truthyNumber,Option.bind_some] at hplain ⊢
    by_cases ht : text=[]
    · rw [if_pos ht]
      exact numberOk_none R low
    · rw [if_neg ht] at hplain ⊢
      exact numberOk_atLeast hR hlow (hR.number_again text) hplain

/-- A rounded number is read from what it is printed as, and whole. -/
theorem numberOk_rounded (hR : R.Lawful) {text : Option (List Char)}
    (hplain : PlainNumber (text.bind (fun text =>
      if text=[] then none else (R.roundValue (R.number text)).atLeast 0))) :
    NumberOk R 0 (text.bind (fun text =>
      if text=[] then none else (R.roundValue (R.number text)).atLeast 0)) ∧
    ∀ n,text.bind (fun text =>
      if text=[] then none else (R.roundValue (R.number text)).atLeast 0)=some n →
      R.round n=n := by
  cases text with
  | none => exact ⟨numberOk_none R 0,fun n hn => by cases hn⟩
  | some text =>
    rw [Option.bind_some] at hplain ⊢
    by_cases ht : text=[]
    · rw [if_pos ht]
      exact ⟨numberOk_none R 0,fun n hn => by cases hn⟩
    · rw [if_neg ht] at hplain ⊢
      cases hv : R.number text with
      | nan =>
        rw [hv] at hplain
        exact ⟨numberOk_atLeast hR (by decide) (fun n hn => by cases hn) hplain,
          fun n hn => by cases hn⟩
      | minusInfinity =>
        rw [hv] at hplain
        refine ⟨numberOk_atLeast hR (by decide) (fun n hn => by cases hn) hplain,fun n hn => ?_⟩
        cases hn
        exact hR.round_zero
      | number m =>
        rw [hv] at hplain
        have hm : ∀ n,R.roundValue (.number m)=.number n →
            R.number n.text.toList=.number n ∧ R.round n=n := by
          intro n hn
          cases hn
          exact ⟨hR.round_number text m hv,hR.round_again m⟩
        refine ⟨numberOk_atLeast hR (by decide) (fun n hn => (hm n hn).1) hplain,fun n hn => ?_⟩
        rw [Runtime.roundValue,JsValue.atLeast,Option.some.injEq] at hn
        split at hn
        · cases hn
          exact hR.round_zero
        · cases hn
          exact hR.round_again m

/-- A number for which zero stands for none is read from what it is printed as. -/
theorem numberOk_orZero (hR : R.Lawful) {text : Option (List Char)}
    (hplain : PlainNumber (text.bind (fun text => (R.number text).orZero.atLeast 0))) :
    NumberOk R 0 (text.bind (fun text => (R.number text).orZero.atLeast 0)) := by
  cases text with
  | none => exact numberOk_none R 0
  | some text =>
    have hzero : R.number (JsNumber.ofNat 0).text.toList=.number (JsNumber.ofNat 0) :=
      hR.number_whole 0 (by decide)
    refine numberOk_atLeast hR (by decide) (fun n hn => ?_) hplain
    cases hv : R.number text with
    | nan =>
      rw [hv] at hn
      cases hn
      exact hzero
    | minusInfinity =>
      rw [hv] at hn
      cases hn
    | number m =>
      rw [hv,JsValue.orZero] at hn
      split at hn
      · cases hn
        exact hzero
      · cases hn
        exact hR.number_again text n hv

/-- A host is printed as it was parsed. -/
theorem printedHost_unbracket (hR : R.Lawful) {text host : List Char}
    (h : R.host text=some host) : printedHost (unbracket host)=host := by
  rcases hR.host_colon text host h with hp | ⟨inner,rfl,hi,-⟩
  · have hu : unbracket host=host := by
      refine if_neg (fun hb => ?_)
      exact (hp _ (List.mem_of_head? hb.1)).2.1 rfl
    rw [hu,printedHost,if_neg (fun hm => (hp _ hm).1 rfl)]
  · have hl : ('['::(inner++[']'])).getLast? =some ']' := by
      rw [←List.cons_append,List.getLast?_append_of_ne_nil _ (List.cons_ne_nil _ _),
        List.getLast?_singleton]
    have hu : unbracket ('['::(inner++[']']))=inner := by
      rw [unbracket,if_pos ⟨rfl,hl⟩,List.drop_one,List.tail_cons,List.dropLast_concat]
    rw [hu,printedHost,if_pos hi]

/-- A trimmed text is not trimmed again. -/
theorem trim_trim (text : List Char) : trim (trim text)=trim text := by
  have hd : (trim text).dropWhile isSpace=trim text := by
    obtain ⟨rest,hr⟩ := List.rdropWhile_prefix isSpace (text.dropWhile isSpace)
    change trim text++rest=_ at hr
    cases ht : trim text with
    | nil => rfl
    | cons c cs =>
      have hhead := List.head?_dropWhile_not isSpace text
      rw [←hr,ht] at hhead
      have hc : isSpace c=false := hhead
      rw [List.dropWhile_cons_of_neg (by rw [hc]; decide)]
  unfold trim at hd ⊢
  rw [hd,List.rdropWhile_idempotent]

/-- A level that is parsed is in range. -/
theorem levelOk_parseCompress {value : CompressValue} {compress : DsnCompress}
    (h : parseCompress R value=.ok compress) : LevelOk compress := by
  intro k hk
  subst hk
  cases value with
  | flag value =>
    rw [parseCompress,Except.ok.injEq] at h
    split at h
    · cases h
    · cases h
  | text value =>
    rw [parseCompress] at h
    split at h
    · cases h
    · split at h
      · cases h
      · split at h
        · cases h
        · split at h
          · split at h
            · rename_i level hl
              cases h
              unfold JsValue.level at hl
              split at hl
              · have hm := List.mem_of_find?_eq_some hl
                rw [List.mem_range'_1] at hm
                omega
              · cases hl
            · cases h
          · cases h

/-- A key that is normalized is normalized to itself, if it does not end with a zero. -/
theorem normalizeKey_again {key : List Char} (h : KeyOk (normalizeKey key)) :
    normalizeKey (normalizeKey key)=normalizeKey key := by
  have hspace : ∀ c ∈ normalizeKey key,isSpace c=false := by
    intro c hc
    rw [normalizeKey,List.mem_filter] at hc
    simpa using hc.2
  generalize normalizeKey key=k at h hspace
  have hn : '\n' ∉ k := fun hm => absurd (hspace _ hm) (by decide)
  have hend : k.rdropWhile isKeyEnd=k := by
    rw [List.rdropWhile_eq_self_iff]
    intro hl hlast
    have hm := List.getLast_mem hl
    simp only [isKeyEnd,Bool.or_eq_true,beq_iff_eq] at hlast
    rcases hlast with (he | he) | he
    · refine h ?_
      rw [List.getLast?_eq_getLast_of_ne_nil hl,he]
    · rw [he] at hm
      exact absurd (hspace _ hm) (by decide)
    · rw [he] at hm
      exact hn hm
  have hindex : indexOf '\n' 10 k=none := by
    rw [indexOf,Option.map_eq_none_iff,List.findIdx?_eq_none_iff]
    intro c hc
    rw [beq_eq_false_iff_ne]
    rintro rfl
    exact hn (List.mem_of_mem_drop hc)
  have hextract : publicKeyExtractBase64 k=k := by
    unfold publicKeyExtractBase64
    rw [hend,hindex]
    dsimp only
    rw [List.take_length]
    exact ite_self k
  rw [normalizeKey,hextract,List.filter_eq_self]
  intro c hc
  rw [hspace c hc]
  rfl

/-- What is promised of the parts of a URL. -/
theorem parse_ok {host : List Char → Option (List Char)} {default : ℕ} {text : List Char}
    {url : Parts} (h : UrlRules.parse host default text=some url) :
    (∃ hostText,host hostText=some url.hostname) ∧
    (∃ portText,readPort default portText=some url.port) ∧
    ∃ path,url.pathname=pathname path := by
  unfold UrlRules.parse at h
  dsimp only at h
  split at h
  · cases h
  · obtain ⟨hostname,hh,h⟩ := Option.bind_eq_some_iff.mp h
    obtain ⟨port,hp,h⟩ := Option.bind_eq_some_iff.mp h
    cases h
    exact ⟨⟨_,hh⟩,⟨_,hp⟩,⟨_,rfl⟩⟩

/-- A port of a URL is in range, and not the default one. -/
theorem readPort_range {default port : ℕ} {text : List Char}
    (h : readPort default text=some (some port)) : port ≤ 65535 ∧ port≠default := by
  unfold readPort at h
  split at h
  · cases h
  · split at h
    · rename_i hle
      rw [Option.some.injEq] at h
      split at h
      · cases h
      · rename_i hne
        cases h
        exact ⟨hle.2,hne⟩
    · cases h

/-- The port that is read from a URL is printed as one. -/
theorem urlPort_range (hR : R.Lawful) {port : Option ℕ}
    (h : ∀ p,port=some p → p ≤ 65535 ∧ p≠80) :
    ∃ k,1 ≤ k ∧ k ≤ 65535 ∧ k≠80 ∧ urlPort R port=JsNumber.ofNat k := by
  cases port with
  | none => exact ⟨3306,by decide,by decide,by decide,rfl⟩
  | some p =>
    obtain ⟨hle,h80⟩ := h p rfl
    rw [urlPort,hR.number_whole p hle]
    by_cases hz : (JsNumber.ofNat p).value=whole 0
    · exact ⟨3306,by decide,by decide,by decide,if_pos hz⟩
    · have hp : p≠0 := fun he => hz (by rw [he]; rfl)
      exact ⟨p,by omega,hle,h80,if_neg hz⟩

/-- The pipe and the schema of a path. -/
theorem cutPath_eq {path : List Char} (h : ∃ rest,path= '/'::rest) :
    path=(cutPath path).1++ '/'::(cutPath path).2 ∧ '/' ∉ (cutPath path).2 := by
  unfold cutPath
  cases hc : cutLast '/' path with
  | none =>
    obtain ⟨rest,rfl⟩ := h
    exact absurd List.mem_cons_self (not_mem_of_cutLast hc)
  | some cut => exact cutLast_eq hc

/-- The compression is printed exactly if it was given. -/
theorem writtenCompress_isSome {params : SearchParams} {compress : DsnCompress}
    (h : readCompress R params=.ok compress) :
    (writtenCompress compress).isSome=(get params "compress").isSome := by
  unfold readCompress at h
  cases hg : get params "compress" with
  | none =>
    rw [hg] at h
    cases h
    rfl
  | some text =>
    rw [hg] at h
    dsimp only at h
    cases compress with
    | off =>
      rw [parseCompress] at h
      split at h
      · cases h
      · split at h
        · cases h
        · split at h
          · cases h
          · split at h
            · split at h
              · cases h
              · cases h
            · cases h
    | best => rfl
    | zlib => rfl
    | zstd => rfl
    | zstdLevel level => rfl

/-- A text is printed exactly if it is not empty. -/
theorem writtenText_isSome (text : List Char) :
    (writtenText (String.ofList text)).isSome=(text != []) := by
  cases text with
  | nil => rfl
  | cons c rest =>
    have hne : String.ofList (c::rest)≠"" := by
      intro he
      have hl := congrArg String.toList he
      rw [String.toList_ofList] at hl
      cases hl
    rw [writtenText,if_neg hne]
    rfl

/-- A flag is printed exactly if it is set. -/
theorem writtenFlag_isSome (value : Bool) : (writtenFlag value).isSome=value := by
  cases value with
  | false => rfl
  | true => rfl

/-- Exactly these parameters of a URL are printed. -/
theorem shown_fields {url : Parts} {username password path initSql : List Char}
    {compress : DsnCompress}
    (hc : readCompress R (formEntries R.repair url.query)=.ok compress) :
    (fields (urlFields R url username password path initSql compress)).map
      (fun f => f.2.isSome)=shown R (formEntries R.repair url.query) := by
  unfold fields urlFields shown
  simp only [List.map_cons,List.map_nil,writtenNumber,Option.isSome_map,writtenFlag_isSome,
    writtenText_isSome,writtenCompress_isSome hc]

/-- Something is printed if a parameter is written. -/
theorem params_ne {d : Dsn} (h : true ∈ (fields d).map (fun f => f.2.isSome)) : d.params≠"" := by
  obtain ⟨f,hf,hs⟩ := List.mem_map.mp h
  obtain ⟨value,hv⟩ := Option.isSome_iff_exists.mp hs
  have hi : (f.1.toList,value) ∈ items (fields d) :=
    List.mem_filterMap.mpr ⟨f,hf,by rw [hv]; rfl⟩
  intro he
  have hl := params_toList d
  rw [he,String.toList_empty] at hl
  have hn := List.flatMap_eq_nil_iff.mp hl.symm _ hi
  cases hn

/-- The schema ends as the path does. -/
theorem visible_schema {path pipe schema : List Char} (he : path=pipe++ '/'::schema)
    (h : VisibleEnd path) : VisibleEnd schema := by
  cases schema with
  | nil =>
    intro c hc
    cases hc
  | cons c rest =>
    rw [VisibleEnd,he,List.getLast?_append_of_ne_nil _ (List.cons_ne_nil _ _),
      List.getLast?_cons_cons] at h
    exact h

/-- The key of a URL is normalized. -/
theorem parseKey_again {text : Option (List Char)} (h : KeyOk (parseKey text)) :
    normalizeKey (parseKey text)=parseKey text := by
  cases text with
  | none => decide
  | some text =>
    by_cases ht : text=[]
    · rw [parseKey,if_pos ht]
      decide
    · rw [parseKey,if_neg ht] at h ⊢
      exact normalizeKey_again h

/-- The pipe that is read from a path begins with a slash. -/
theorem cutPath_pipe {path : List Char} (h : ∃ rest,path= '/'::rest) :
    (cutPath path).1=[] ∨ ∃ rest,(cutPath path).1= '/'::rest := by
  have hcut := (cutPath_eq h).1
  obtain ⟨rest,hr⟩ := h
  cases hf : (cutPath path).1 with
  | nil => exact .inl rfl
  | cons c cs =>
    rw [hf,hr,List.cons_append] at hcut
    exact .inr ⟨cs,by rw [←(List.cons.inj hcut).1]⟩

/-- The pipe and the schema of a path without dot segments have none. -/
theorem cutPath_dots {path : List Char} (h : ∃ rest,path= '/'::rest)
    (hdots : NoDots (path.drop 1)) :
    NoDots ((cutPath path).1.drop 1) ∧ NoDots (cutPath path).2 := by
  rw [(cutPath_eq h).1] at hdots
  rcases cutPath_pipe h with he | ⟨cs,he⟩
  · rw [he] at hdots ⊢
    exact ⟨by decide,hdots⟩
  · rw [he] at hdots ⊢
    exact noDots_append.mp hdots

/-- The end of the name is visible if that of the URL was. -/
theorem ends_urlFields {url : Parts} {username password path initSql : List Char}
    {compress : DsnCompress} (h : UrlOk R url) (hslash : ∃ rest,path= '/'::rest)
    (hp : decode url.pathname=some path)
    (hc : readCompress R (formEntries R.repair url.query)=.ok compress)
    (hi : decode url.fragment=some initSql) :
    EndsVisibly (urlFields R url username password path initSql compress) := by
  rcases h.ends with hv | hs | ht
  · left
    change ∀ c ∈ (String.ofList (cutPath path).2).toList.getLast?,isBlank c=false
    rw [String.toList_ofList]
    exact visible_schema (cutPath_eq hslash).1 (hv path hp)
  · right
    left
    refine params_ne ?_
    rw [shown_fields hc]
    exact hs
  · right
    right
    intro he
    have hl : (String.ofList (trim initSql)).toList=[] := congrArg String.toList he
    rw [String.toList_ofList] at hl
    exact ht initSql hi hl

/-- The fields that are read from a URL are printable. -/
theorem printable_urlFields (hR : R.Lawful) {url : Parts}
    {username password path initSql : List Char} {compress : DsnCompress} (h : UrlOk R url)
    (hhost : ∃ hostText,R.host hostText=some url.hostname)
    (hport : ∀ p,url.port=some p → p ≤ 65535 ∧ p≠80) (hslash : ∃ rest,path= '/'::rest)
    (hu : decode url.username=some username) (hp : decode url.pathname=some path)
    (hc : readCompress R (formEntries R.repair url.query)=.ok compress)
    (hi : decode url.fragment=some initSql) :
    Printable R (urlFields R url username password path initSql compress) := by
  obtain ⟨hcut,hlast⟩ := cutPath_eq hslash
  have hchars : ∀ c ∈ (cutPath path).1++ '/'::(cutPath path).2,isPathChar c=true := by
    rw [←hcut]
    exact h.path path hp
  have hdots := cutPath_dots hslash (h.dots path hp)
  have hrounded := numberOk_rounded hR h.numbers.keepAliveMax
  exact {
    host := by
      obtain ⟨hostText,hh⟩ := hhost
      change R.host (printedHost (String.ofList (unbracket url.hostname)).toList)=
        some (printedHost (String.ofList (unbracket url.hostname)).toList)
      rw [String.toList_ofList,printedHost_unbracket hR hh]
      exact hR.host_again _ _ hh
    port := urlPort_range hR hport
    username := by
      change ∀ c ∈ (String.ofList username).toList,isUserChar c=true
      rw [String.toList_ofList]
      exact h.username username hu
    pipe := by
      change (String.ofList (cutPath path).1).toList=[] ∨
        ∃ rest,(String.ofList (cutPath path).1).toList= '/'::rest
      rw [String.toList_ofList]
      exact cutPath_pipe hslash
    pipe_chars := by
      change ∀ c ∈ (String.ofList (cutPath path).1).toList,isPathChar c=true
      rw [String.toList_ofList]
      exact fun c hm => hchars c (List.mem_append_left _ hm)
    pipe_dots := by
      change NoDots ((String.ofList (cutPath path).1).toList.drop 1)
      rw [String.toList_ofList]
      exact hdots.1
    schema_chars := by
      change ∀ c ∈ (String.ofList (cutPath path).2).toList,isPathChar c=true ∧ c ≠ '/'
      rw [String.toList_ofList]
      intro c hm
      refine ⟨hchars c (List.mem_append_right _ (List.mem_cons_of_mem _ hm)),?_⟩
      rintro rfl
      exact hlast hm
    schema_dots := by
      change NoDots (String.ofList (cutPath path).2).toList
      rw [String.toList_ofList]
      exact hdots.2
    ends := ends_urlFields h hslash hp hc hi
    connectionTimeout := numberOk_given hR (by decide) h.numbers.connectionTimeout
    reconnectInterval := numberOk_truthy hR (by decide) h.numbers.reconnectInterval
    keepAliveTimeout := numberOk_truthy hR (by decide) h.numbers.keepAliveTimeout
    keepAliveMax := hrounded.1
    keepAliveMax_round := hrounded.2
    maxConns := numberOk_truthy hR (by decide) h.numbers.maxConns
    maxColumnLen := numberOk_truthy hR (by decide) h.numbers.maxColumnLen
    retryQueryTimes := numberOk_given hR (by decide) h.numbers.retryQueryTimes
    storeResultsetIfBigger := numberOk_orZero hR h.numbers.storeResultsetIfBigger
    serverPublicKey := by
      change normalizeKey (String.ofList _).toList=(String.ofList _).toList
      rw [String.toList_ofList]
      exact parseKey_again h.key
    compress := by
      change LevelOk compress
      unfold readCompress at hc
      split at hc
      · cases hc
        intro k hk
        cases hk
      · exact levelOk_parseCompress hc
    tls := by
      intro ht
      change ((get _ "tls").isSome || (get _ "tlsCaCert").getD [] != [] ||
        (get _ "tlsHostname").getD [] != [])=false at ht
      rw [Bool.or_eq_false_iff,Bool.or_eq_false_iff,bne_eq_false_iff_eq,bne_eq_false_iff_eq] at ht
      exact ⟨congrArg String.ofList ht.1.2,congrArg String.ofList ht.2⟩
    initSql := by
      change trim (String.ofList (trim initSql)).toList=(String.ofList (trim initSql)).toList
      rw [String.toList_ofList]
      exact trim_trim initSql }

/-- A string whose parts can be printed. -/
def TextOk (R : Runtime) (text : String) : Prop := ∀ url,parseUrl R text=.ok url → UrlOk R url

/-- A URL is read by the rules for URLs. -/
theorem parseUrl_ok {text : String} {url : Parts} (h : parseUrl R text=.ok url) :
    ∃ rest,UrlRules.parse R.host 80 rest=some url := by
  unfold parseUrl at h
  split at h
  · cases h
  · split at h
    · rename_i rest _
      split at h
      · split at h
        · rename_i hp
          cases h
          exact ⟨rest,hp⟩
        · cases h
      · cases h
    · cases h

/-- What is decoded of a path begins with a slash. -/
theorem decode_pathname {text path : List Char} (h : decode (pathname text)=some path) :
    ∃ rest,path= '/'::rest := by
  obtain ⟨rest,hr⟩ := pathname_cons text
  rw [hr,decode_cons (by decide)] at h
  obtain ⟨decoded,-,rfl⟩ := Option.map_eq_some_iff.mp h
  exact ⟨decoded,rfl⟩

/-- An object that is made of a string is printable, if the parts of the string are. -/
theorem printable_parse (hR : R.Lawful) {text : String} {d : Dsn} (h : TextOk R text)
    (hd : DsnParse.parse R text=.ok d) : Printable R d := by
  rw [DsnParse.parse] at hd
  cases hu : parseUrl R text with
  | error e =>
    rw [hu] at hd
    cases hd
  | ok url =>
    rw [hu] at hd
    obtain ⟨username,password,path,compress,initSql,hn,hp,hc,hi,rfl⟩ := fromUrl_ok hd
    obtain ⟨rest,hparse⟩ := parseUrl_ok hu
    obtain ⟨hhost,⟨portText,hport⟩,pathText,hpath⟩ := parse_ok hparse
    have hrange : ∀ p,url.port=some p → p ≤ 65535 ∧ p≠80 := by
      intro p hp
      rw [hp] at hport
      exact readPort_range hport
    have hslash : ∃ rest,path= '/'::rest := by
      rw [hpath] at hp
      exact decode_pathname hp
    exact printable_urlFields hR (h url hu) hhost hrange hslash hn hp hc hi

end Values

end SpiritMysql.DsnReading
