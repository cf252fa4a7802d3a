import SpiritMysql.DsnReading

/-!
# Objects that survive printing and parsing

Which settings leave fields that are read back from the name, and what holds of every
object of a run.
-/

namespace SpiritMysql.DsnRuns

open DsnName DsnParse DsnQuery DsnRoundTrip DsnReading PercentCoding UrlRules

/-- Values that can be printed. -/
def SettingOk {R : Runtime} (d : Dsn) : Setter R → Prop
  | .hostname value => R.host (printedHost (unbracket value.toList))=
      some (printedHost (unbracket value.toList))
  | .port value => ∃ k,1 ≤ k ∧ k ≤ 65535 ∧ k≠80 ∧ value.value.orDefaultPort=JsNumber.ofNat k
  | .username value => ∀ c ∈ value.toList,isUserChar c=true
  | .schema value => (∀ c ∈ value.toList,isPathChar c=true ∧ c ≠ '/') ∧ NoDots value.toList
  | .pipe value => (∀ c ∈ value.toList,isPathChar c=true) ∧
      NoDots ((withSlash value.toList).drop 1)
  | .connectionTimeout value => PlainNumber (value.value.atLeast 0)
  | .reconnectInterval value => PlainNumber (value.value.atLeast 0)
  | .keepAliveTimeout value => PlainNumber (value.value.atLeast 0)
  | .keepAliveMax value => PlainNumber (value.value.atLeast 0) ∧
      ∀ n,value.value.atLeast 0=some n → R.round n=n
  | .maxConns value => PlainNumber (value.value.atLeast 1)
  | .maxColumnLen value => PlainNumber (value.value.atLeast 1)
  | .retryQueryTimes value => PlainNumber value.value.nonNegative
  | .storeResultsetIfBigger value => PlainNumber value.value.nonNegative
  | .serverPublicKey value => KeyOk (normalizeKey value.toList)
  | .tls value => value=false → d.tlsCaCert="" ∧ d.tlsHostname=""
  | .initSql value => trim value.toList=value.toList
  | _ => True

/-- What is done with an object. -/
inductive Action (R : Runtime) where
  /-- A property is set. -/
  | set (setter : Setter R)
  /-- `new Dsn()` of the object: all fields are the same. -/
  | copy

/-- The object after an action. -/
def act {R : Runtime} (d : Dsn) : Action R → Dsn
  | .set setter => after d setter
  | .copy => d

/-- The value can be printed, and the end of the name stays visible. -/
def ActionOk {R : Runtime} (d : Dsn) : Action R → Prop
  | .set setter => SettingOk d setter ∧ EndsVisibly (after d setter)
  | .copy => True

/-- All actions of a run are such. -/
def RunOk {R : Runtime} (d : Dsn) : List (Action R) → Prop
  | [] => True
  | action::rest => ActionOk d action ∧ RunOk (act d action) rest

/-- The objects of a run. -/
def objects {R : Runtime} (d : Dsn) (actions : List (Action R)) : List Dsn :=
  actions.scanl act d

section Settings

variable {R : Runtime}

/-- A number that is not negative is read from what it is printed as. -/
theorem numberOk_nonNegative {value : R.Value} (hplain : PlainNumber value.value.nonNegative) :
    NumberOk R 0 value.value.nonNegative := by
  intro n hn
  have hp := hplain n hn
  unfold JsValue.nonNegative at hn
  split at hn
  · rename_i m hm
    split at hn
    · rename_i hle
      cases hn
      exact ⟨value.printed n hm,hle,hp⟩
    · cases hn
  · cases hn

/-- A pipe begins with a slash. -/
theorem withSlash_cons (value : List Char) :
    withSlash value=[] ∨ ∃ rest,withSlash value= '/'::rest := by
  unfold withSlash
  split
  · exact .inr ⟨value,rfl⟩
  · rename_i h
    cases value with
    | nil => exact .inl rfl
    | cons c rest =>
      right
      have hc : c = '/' := by simpa using h
      exact ⟨rest,by rw [hc]⟩

/-- A pipe has the characters of the value, and a slash. -/
theorem withSlash_chars {value : List Char} (h : ∀ c ∈ value,isPathChar c=true) :
    ∀ c ∈ withSlash value,isPathChar c=true := by
  intro c hc
  unfold withSlash at hc
  split at hc
  · rcases List.mem_cons.mp hc with rfl | hc
    · decide
    · exact h c hc
  · exact h c hc

/-- A setting leaves the fields printable. -/
theorem printable_after (hR : R.Lawful) {d : Dsn} (h : Printable R d) {setter : Setter R}
    (hok : SettingOk d setter) (hends : EndsVisibly (after d setter)) :
    Printable R (after d setter) := by
  cases setter with
  | hostname value =>
    have hhost : R.host (printedHost (String.ofList (unbracket value.toList)).toList)=
        some (printedHost (String.ofList (unbracket value.toList)).toList) := by
      rw [String.toList_ofList]
      exact hok
    exact {h with host := hhost, ends := hends}
  | port value => exact {h with port := hok, ends := hends}
  | username value => exact {h with username := hok, ends := hends}
  | password value => exact {h with ends := hends}
  | schema value => exact {h with schema_chars := hok.1, schema_dots := hok.2, ends := hends}
  | pipe value =>
    have he : (after d (.pipe value : Setter R)).pipe.toList=withSlash value.toList :=
      String.toList_ofList
    exact {h with
      pipe := by
        rw [he]
        exact withSlash_cons value.toList
      pipe_chars := by
        rw [he]
        exact withSlash_chars hok.1
      pipe_dots := by
        rw [he]
        exact hok.2
      ends := hends}
  | connectionTimeout value =>
    exact {h with
      connectionTimeout := numberOk_atLeast hR (by decide) value.printed hok, ends := hends}
  | reconnectInterval value =>
    exact {h with
      reconnectInterval := numberOk_atLeast hR (by decide) value.printed hok, ends := hends}
  | keepAliveTimeout value =>
    exact {h with
      keepAliveTimeout := numberOk_atLeast hR (by decide) value.printed hok, ends := hends}
  | keepAliveMax value =>
    exact {h with
      keepAliveMax := numberOk_atLeast hR (by decide) value.printed hok.1
      keepAliveMax_round := hok.2
      ends := hends}
  | maxConns value =>
    exact {h with maxConns := numberOk_atLeast hR (by decide) value.printed hok, ends := hends}
  | maxColumnLen value =>
    exact {h with
      maxColumnLen := numberOk_atLeast hR (by decide) value.printed hok, ends := hends}
  | foundRows value => exact {h with ends := hends}
  | ignoreSpace value => exact {h with ends := hends}
  | multiStatements value => exact {h with ends := hends}
  | retryLockWaitTimeout value => exact {h with ends := hends}
  | retryQueryTimes value =>
    exact {h with retryQueryTimes := numberOk_nonNegative hok, ends := hends}
  | jsonAsString value => exact {h with ends := hends}
  | datesAsString value => exact {h with ends := hends}
  | correctDates value => exact {h with ends := hends}
  | storeResultsetIfBigger value =>
    exact {h with storeResultsetIfBigger := numberOk_nonNegative hok, ends := hends}
  | allowPublicKeyRetrieval value => exact {h with ends := hends}
  | serverPublicKey value =>
    have he : (after d (.serverPublicKey value : Setter R)).serverPublicKey.toList=
        normalizeKey value.toList := String.toList_ofList
    exact {h with
      serverPublicKey := by
        rw [he]
        exact normalizeKey_again hok
      ends := hends}
  | allowCleartextPasswords value => exact {h with ends := hends}
  | compress value =>
    have hafter : after d (.compress value : Setter R)=
        ((parseCompress R value).toOption.map (fun value => {d with compress := value})).getD
          d := by
      unfold after
      rw [assign]
      cases parseCompress R value with
      | error e => rfl
      | ok compress => rfl
    rw [hafter] at hends ⊢
    cases hc : parseCompress R value with
    | error e => exact h
    | ok compress =>
      rw [hc] at hends
      exact {h with compress := levelOk_parseCompress hc, ends := hends}
  | tls value => exact {h with tls := hok, ends := hends}
  | tlsCaCert value =>
    have htls : (d.tls || value != "")=false → value="" ∧ d.tlsHostname="" := by
      intro ht
      rw [Bool.or_eq_false_iff,bne_eq_false_iff_eq] at ht
      exact ⟨ht.2,(h.tls ht.1).2⟩
    exact {h with tls := htls, ends := hends}
  | tlsHostname value =>
    have htls : (d.tls || value != "")=false → d.tlsCaCert="" ∧ value="" := by
      intro ht
      rw [Bool.or_eq_false_iff,bne_eq_false_iff_eq] at ht
      exact ⟨(h.tls ht.1).1,ht.2⟩
    exact {h with tls := htls, ends := hends}
  | initSql value => exact {h with initSql := hok, ends := hends}

/-- An action leaves the fields printable. -/
theorem printable_act (hR : R.Lawful) {d : Dsn} (h : Printable R d) {action : Action R}
    (hok : ActionOk d action) : Printable R (act d action) := by
  cases action with
  | set setter => exact printable_after hR h hok.1 hok.2
  | copy => exact h

/-- All objects of a run are printable. -/
theorem printable_run (hR : R.Lawful) {d : Dsn} (h : Printable R d) {actions : List (Action R)}
    (hok : RunOk d actions) : ∀ d' ∈ objects d actions,Printable R d' := by
  induction actions generalizing d with
  | nil =>
    intro d' hd
    rw [objects,List.scanl_nil,List.mem_singleton] at hd
    rw [hd]
    exact h
  | cons action rest ih =>
    intro d' hd
    rw [objects,List.scanl_cons,List.mem_cons] at hd
    rcases hd with hd | hd
    · rw [hd]
      exact h
    · exact ih (printable_act hR h hok.1) hok.2 d' hd

end Settings

/-- A runtime that takes hosts of small letters and decimal digits of numbers. -/
def lettersRuntime : Runtime where
  host text := if text≠[] ∧ text.all Char.isLower=true then some text else none
  repair _ := [ '\ufffd']
  number text :=
    if text.all Char.isDigit=true ∧ Nat.ofDigitChars 10 text 0 ≤ 2^53 then
      .number (JsNumber.ofNat (Nat.ofDigitChars 10 text 0))
    else .nan
  round n := n

/-- It keeps the promises of runtimes. -/
theorem lettersRuntime_lawful : lettersRuntime.Lawful := by
  have hhost : ∀ text host,lettersRuntime.host text=some host →
      text=host ∧ host≠[] ∧ ∀ c ∈ host,c.isLower=true := by
    intro text host h
    change (if text≠[] ∧ text.all Char.isLower=true then some text else none)=some host at h
    split at h
    · rename_i hc
      cases h
      exact ⟨rfl,hc.1,List.all_eq_true.mp hc.2⟩
    · cases h
  have hwhole : ∀ k ≤ 2^53,lettersRuntime.number (Nat.toDigits 10 k)=
      .number (JsNumber.ofNat k) := by
    intro k hk
    have hd : (Nat.toDigits 10 k).all Char.isDigit=true := List.all_eq_true.mpr
      (fun c hc => Nat.isDigit_of_mem_toDigits (by decide) (by decide) hc)
    have hv : Nat.ofDigitChars 10 (Nat.toDigits 10 k) 0=k :=
      Nat.ofDigitChars_toDigits (by decide) (by decide)
    change (if _ then _ else _)=_
    rw [hv]
    exact if_pos ⟨hd,hk⟩
  have hnumber : ∀ text n,lettersRuntime.number text=.number n →
      ∃ k ≤ 2^53,n=JsNumber.ofNat k := by
    intro text n h
    change (if text.all Char.isDigit=true ∧ Nat.ofDigitChars 10 text 0 ≤ 2^53 then
      JsValue.number (JsNumber.ofNat (Nat.ofDigitChars 10 text 0)) else .nan)=.number n at h
    split at h
    · rename_i hc
      cases h
      exact ⟨_,hc.2,rfl⟩
    · cases h
  have htext : ∀ k,(JsNumber.ofNat k).text.toList=Nat.toDigits 10 k := by
    intro k
    rw [JsNumber.ofNat,Nat.toString_eq_repr,Nat.toList_repr]
  have hagain : ∀ text n,lettersRuntime.number text=.number n →
      lettersRuntime.number n.text.toList=.number n := by
    intro text n h
    obtain ⟨k,hk,rfl⟩ := hnumber text n h
    rw [htext]
    exact hwhole k hk
  exact {
    host_again := by
      intro text host h
      obtain ⟨rfl,-⟩ := hhost text host h
      exact h
    host_chars := by
      intro text host h
      obtain ⟨-,hne,hl⟩ := hhost text host h
      refine ⟨hne,fun c hc => ?_⟩
      have hother : ∀ x : Char,x.isLower=false → (c == x)=false := by
        intro x hx
        rw [beq_eq_false_iff_ne]
        rintro rfl
        rw [hl c hc] at hx
        cases hx
      simp [isHostChar,endsAuthority,isSlash,isTabOrNewline,bne,hother '/' (by decide),
        hother '\\' (by decide),hother '?' (by decide),hother '#' (by decide),
        hother '@' (by decide),hother '\t' (by decide),hother '\n' (by decide),
        hother '\r' (by decide)]
    host_colon := by
      intro text host h
      obtain ⟨-,-,hl⟩ := hhost text host h
      left
      intro c hc
      have hlower := hl c hc
      refine ⟨?_,?_,?_⟩
      · rintro rfl
        exact absurd hlower (by decide)
      · rintro rfl
        exact absurd hlower (by decide)
      · rintro rfl
        exact absurd hlower (by decide)
    number_again := hagain
    number_chars := by
      intro text n h c hc
      obtain ⟨k,-,rfl⟩ := hnumber text n h
      rw [htext] at hc
      have hd : c.isDigit=true := Nat.isDigit_of_mem_toDigits (by decide) (by decide) hc
      rw [isNumberChar,Char.isAlphanum,hd,Bool.or_true,Bool.true_or]
    number_ne := by
      intro text n h he
      obtain ⟨k,-,rfl⟩ := hnumber text n h
      have hl := htext k
      rw [he] at hl
      exact Nat.toDigits_ne_nil hl.symm
    number_whole := fun k hk => hwhole k (by omega)
    number_zero := by
      intro text n h hz
      obtain ⟨k,-,rfl⟩ := hnumber text n h
      rw [(@whole_inj k 0).mp hz]
    round_number := hagain
    round_again := fun _ => rfl
    round_zero := rfl }

/-- Every object of a run whose string and settings can be printed survives printing and
parsing. -/
theorem run_roundTrips {R : Runtime} (hR : R.Lawful) {text : String} {d : Dsn}
    {actions : List (Action R)} (htext : TextOk R text) (hparse : DsnParse.parse R text=.ok d)
    (hrun : RunOk d actions) : ∀ d' ∈ objects d actions,RoundTrips R d' :=
  fun d' hd => (printable_run hR (printable_parse hR htext hparse) hrun d' hd).roundTrips hR

/-- Runs of a string and settings that can be printed survive. -/
theorem run_roundTrips_settings : ∃ d,
    DsnParse.parse lettersRuntime "mysql://root@localhost/app?maxConns=10"=.ok d ∧
    ∀ d' ∈ objects d
        [.set (.username "admin" : Setter lettersRuntime),.copy,.set (.foundRows true)],
      RoundTrips lettersRuntime d' := by
  have hu : parseUrl lettersRuntime "mysql://root@localhost/app?maxConns=10"=.ok {
      username := "root".toList
      password := []
      hostname := "localhost".toList
      port := none
      pathname := "/app".toList
      query := "maxConns=10".toList
      fragment := [] } := by decide +kernel
  have hform : formEntries lettersRuntime.repair "maxConns=10".toList=
      [("maxConns".toList,"10".toList)] := by decide +kernel
  have htext : TextOk lettersRuntime "mysql://root@localhost/app?maxConns=10" := by
    intro url h
    rw [hu] at h
    cases h
    have hname : decode "root".toList=some "root".toList := by decide +kernel
    have hpath : decode "/app".toList=some "/app".toList := by decide +kernel
    exact {
      username := by
        intro text h
        rw [hname] at h
        cases h
        exact List.all_eq_true.mp (by decide)
      path := by
        intro text h
        rw [hpath] at h
        cases h
        exact List.all_eq_true.mp (by decide)
      dots := by
        intro text h
        rw [hpath] at h
        cases h
        decide +kernel
      numbers := by
        rw [hform]
        have hplain : ∀ k ≤ 10,'+' ∉ (JsNumber.ofNat k).text.toList := by decide +kernel
        exact {
          connectionTimeout := fun n hn => by cases hn
          reconnectInterval := fun n hn => by cases hn
          keepAliveTimeout := fun n hn => by cases hn
          keepAliveMax := fun n hn => by cases hn
          maxConns := by
            have hten : truthyNumber lettersRuntime 1
                (get [("maxConns".toList,"10".toList)] "maxConns")=some (JsNumber.ofNat 10) := by
              decide +kernel
            intro n hn
            rw [hten] at hn
            cases hn
            exact hplain 10 (by decide)
          maxColumnLen := fun n hn => by cases hn
          retryQueryTimes := fun n hn => by cases hn
          storeResultsetIfBigger := fun n hn => by cases hn }
      key := by
        rw [hform]
        exact fun h => by cases h
      ends := by
        left
        intro text h
        rw [hpath] at h
        cases h
        intro c hc
        cases hc
        decide }
  have hschema : (DsnParse.parse lettersRuntime
      "mysql://root@localhost/app?maxConns=10").toOption.map Dsn.schema=some "app" := by
    decide +kernel
  cases hp : DsnParse.parse lettersRuntime "mysql://root@localhost/app?maxConns=10" with
  | error e =>
    rw [hp] at hschema
    cases hschema
  | ok d =>
    rw [hp] at hschema
    have hd : d.schema="app" := Option.some.inj hschema
    have hends : ∀ d' : Dsn,d'.schema="app" → EndsVisibly d' := by
      intro d' hd'
      left
      rw [hd']
      intro c hc
      cases hc
      decide
    have hadmin : ∀ c ∈ "admin".toList,isUserChar c=true := List.all_eq_true.mp (by decide)
    have hrun : RunOk d [.set (.username "admin" : Setter lettersRuntime),.copy,
        .set (.foundRows true)] :=
      ⟨⟨hadmin,hends _ hd⟩,trivial,⟨trivial,hends _ hd⟩,trivial⟩
    exact ⟨d,rfl,run_roundTrips lettersRuntime_lawful htext hp hrun⟩

/-- A user name with an escaped colon is not read back from the name. -/
theorem colon_user_lost : lettersRuntime.Lawful ∧
    ∃ d,DsnParse.parse lettersRuntime "mysql://a%3Ab@localhost/"=.ok d ∧
      ¬RoundTrips lettersRuntime d := by
  refine ⟨lettersRuntime_lawful,?_⟩
  have hfirst : ((DsnParse.parse lettersRuntime "mysql://a%3Ab@localhost/").toOption.map
      (fun d => (d.username,(DsnParse.parse lettersRuntime d.name).toOption.map Dsn.username)))=
      some ("a:b",some "a") := by decide +kernel
  cases hp : DsnParse.parse lettersRuntime "mysql://a%3Ab@localhost/" with
  | error e =>
    rw [hp] at hfirst
    cases hfirst
  | ok d =>
    rw [hp] at hfirst
    obtain ⟨hu,hagain⟩ := Prod.mk.inj (Option.some.inj hfirst)
    refine ⟨d,rfl,?_⟩
    rintro ⟨d',hd,hsame,-⟩
    rw [hd] at hagain
    have hd' : d'.username="a" := Option.some.inj hagain
    have he := congrArg Dsn.username hsame
    change d'.username=d.username at he
    rw [hu,hd'] at he
    exact absurd he (by decide)

end SpiritMysql.DsnRuns
