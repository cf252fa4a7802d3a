import SpiritMysql.NamedBindings

/-!
# The session variables of named parameters

The queries are texts of assignments to session variables. The server compares
the names of variables in its own way, and it may read all right sides of a
`SET` at once or one by one. Each parameter has its value in the end when the
names are different for the server, and no name is that of a temporary variable
that is cleared after it.
-/

namespace SpiritMysql.NamedParams

open ByteCursor Conn Errors Utf16Text

/-- A variable that is assigned to. -/
inductive Target where
  /-- The variable of a parameter. -/
  | param (name : Name)
  /-- A temporary variable. -/
  | temp (i : ℕ)

/-- What is assigned. -/
inductive Source where
  /-- A value of the prepared statement. -/
  | placeholder (i : ℕ)
  /-- A temporary variable. -/
  | temp (i : ℕ)
  /-- `NULL`. -/
  | null

/-- An assignment. -/
structure Assignment where
  /-- The left side. -/
  target : Target
  /-- The right side. -/
  source : Source

/-- The text of a variable that is assigned to. -/
def Target.text : Target → List UInt8
  | .param name => [64,96]++encode (escaped name)++[96]
  | .temp i => 64::varName i

/-- The text of what is assigned. -/
def Source.text : Source → List UInt8
  | .placeholder _ => [63]
  | .temp i => 64::varName i
  | .null => [78,85,76,76]

/-- The text of an assignment. -/
def Assignment.text (a : Assignment) : List UInt8 := a.target.text++[61]++a.source.text

/-- The text of a `SET`. -/
def setText (as : List Assignment) : List UInt8 :=
  [83,69,84,32]++[44].intercalate (as.map Assignment.text)

/-- Temporary variables are assigned the values. -/
def placeholders : ℕ → ℕ → List Assignment
  | 0,_ => []
  | k+1,i => ⟨.temp i,.placeholder i⟩::placeholders k (i+1)

/-- The parameters are assigned the temporary variables, that are cleared. -/
def bindings : ℕ → List Name → List Assignment
  | _,[] => []
  | i,name::names => ⟨.param name,.temp i⟩::⟨.temp i,.null⟩::bindings (i+1) names

variable {V K : Type} [DecidableEq K] (canon : List UInt8 → K)

/-- How the server knows a variable. -/
def Target.key : Target → K
  | .param name => canon (encode name)
  | .temp i => canon (varName i)

/-- The value of a right side, with the values of the prepared statement. -/
def Source.value (args : List (Option V)) (env : K → Option V) : Source → Option V
  | .placeholder i => args[i]?.join
  | .temp i => env (canon (varName i))
  | .null => none

/-- The server assigns. It reads the right sides at once, before it assigns, or
one by one. -/
def assign (args : List (Option V)) (atOnce : Bool) (before : K → Option V) :
    List Assignment → (K → Option V) → K → Option V
  | [],env => env
  | a::as,env =>
    assign args atOnce before as (Function.update env (a.target.key canon)
      (a.source.value canon args (if atOnce=true then before else env)))

/-- The server runs a `SET`. -/
def runSet (args : List (Option V)) (atOnce : Bool) (as : List Assignment) (env : K → Option V) :
    K → Option V := assign canon args atOnce env as env

/-- The queries bind the parameters. -/
structure Binds (cached : Bool) (params : List (Name×Option V)) (q : Queries V) : Prop where
  /-- The second query is complete, and nothing is appended. -/
  query1 : q.query1=setText (bindings 0 (params.map Prod.fst))
  /-- The first query assigns the placeholders. -/
  query0 : q.query0=if cached=true then none else some (setText (placeholders q.nPlaceholders 0))
  /-- The temporary variables are different. -/
  distinct : ∀ i j,i < q.nPlaceholders → j < q.nPlaceholders → varName i=varName j → i=j
  /-- There is a placeholder for each parameter. -/
  enough : params.length ≤ q.nPlaceholders
  /-- The server accepts so many. -/
  most : q.nPlaceholders ≤ 65535
  /-- There is a value for each placeholder. -/
  size : q.values.length=q.nPlaceholders
  /-- The values of the parameters. -/
  values : ∀ i,i < params.length → q.values[i]?=(params.map Prod.snd)[i]?
  /-- Each variable has its value, whatever was there. -/
  held : ∀ atOnce (env : K → Option V) (i : ℕ) (param : Name×Option V),params[i]?=some param →
    runSet canon [] atOnce (bindings 0 (params.map Prod.fst))
      (runSet canon q.values atOnce (placeholders q.nPlaceholders 0) env)
      (canon (encode param.1))=param.2

/-- The names can be bound. -/
structure Bindable (names : List Name) : Prop where
  /-- So many placeholders are accepted. -/
  few : names.length ≤ 65528
  /-- No byte is written beyond the end of the array, and the array ends with the text. -/
  fits : Fits (guessLen names) 3 (sizes names)
  /-- The names are different for the server. -/
  apart : ∀ (i j : ℕ) (a b : Name),names[i]?=some a → names[j]?=some b → canon (encode a)=canon (encode b) → i=j
  /-- No name is that of a temporary variable that is cleared after it. -/
  own : ∀ (i j : ℕ) (a : Name),names[i]?=some a → i ≤ j → j < names.length → canon (encode a)≠canon (varName j)

variable {canon} {args : List (Option V)} {atOnce : Bool} {before : K → Option V}

/-- Other variables are not changed. -/
theorem assign_other {as : List Assignment} {env : K → Option V} {key : K}
    (h : ∀ a ∈ as,a.target.key canon≠key) : assign canon args atOnce before as env key=env key := by
  induction as generalizing env with
  | nil => rfl
  | cons a as ih =>
    rw [assign,ih (fun b hb => h b (List.mem_cons_of_mem a hb))]
    exact Function.update_of_ne (h a List.mem_cons_self).symm _ _

/-- The temporary variables that the first query assigns. -/
theorem mem_placeholders {k i : ℕ} {a : Assignment} (h : a ∈ placeholders k i) :
    ∃ j,i ≤ j ∧ j < i+k ∧ a.target=.temp j := by
  induction k generalizing i with
  | zero => cases h
  | succ k ih =>
    rcases List.mem_cons.mp h with rfl | h
    · exact ⟨i,Nat.le_refl i,by omega,rfl⟩
    · obtain ⟨j,h1,h2,h3⟩ := ih h
      exact ⟨j,by omega,by omega,h3⟩

/-- The variables that the second query assigns. -/
theorem mem_bindings {i : ℕ} {names : List Name} {a : Assignment} (h : a ∈ bindings i names) :
    (∃ (l : ℕ) (name : Name),names[l]?=some name ∧ a.target=.param name) ∨
      ∃ j,i ≤ j ∧ j < i+names.length ∧ a.target=.temp j := by
  induction names generalizing i with
  | nil => cases h
  | cons name names ih =>
    rw [List.length_cons]
    rcases List.mem_cons.mp h with rfl | h
    · exact Or.inl ⟨0,name,rfl,rfl⟩
    · rcases List.mem_cons.mp h with rfl | h
      · exact Or.inr ⟨i,Nat.le_refl i,by omega,rfl⟩
      · rcases ih h with ⟨l,n,hl,ht⟩ | ⟨j,h1,h2,h3⟩
        · exact Or.inl ⟨l+1,n,hl,ht⟩
        · exact Or.inr ⟨j,by omega,by omega,h3⟩

/-- The server keeps the temporary variables apart. -/
def Separate (canon : List UInt8 → K) : Prop :=
  ∀ i j,i < 0x10000 → j < 0x10000 → canon (varName i)=canon (varName j) → i=j

/-- The first query puts the values into the temporary variables. -/
theorem placeholders_set (hs : Separate canon) {k i : ℕ} (hk : i+k ≤ 0x10000) {env : K → Option V}
    {j : ℕ} (hi : i ≤ j) (hj : j < i+k) :
    assign canon args atOnce before (placeholders k i) env (canon (varName j))=args[j]?.join := by
  induction k generalizing i env with
  | zero => omega
  | succ k ih =>
    rw [placeholders,assign]
    by_cases he : j=i
    · subst he
      rw [assign_other]
      · exact Function.update_self _ _ _
      · intro a ha hkey
        obtain ⟨l,h1,h2,h3⟩ := mem_placeholders ha
        rw [h3] at hkey
        have hl := hs l j (by omega) (by omega) hkey
        omega
    · exact ih (by omega) (by omega) (by omega)

/-- What the second query comes to. -/
theorem bindings_held (hs : Separate canon) {k : ℕ} {names : List Name} {env : K → Option V}
    (value : ℕ → Option V) (hk : k+names.length ≤ 0x10000)
    (hv : ∀ j,k ≤ j → j < k+names.length →
      (if atOnce=true then before else env) (canon (varName j))=value j)
    (hapart : ∀ (i j : ℕ) (a b : Name),names[i]?=some a → names[j]?=some b →
      canon (encode a)=canon (encode b) → i=j)
    (hown : ∀ (i j : ℕ) (a : Name),names[i]?=some a → k+i ≤ j → j < k+names.length →
      canon (encode a)≠canon (varName j)) {i : ℕ} {a : Name} (hi : names[i]?=some a) :
    assign canon args atOnce before (bindings k names) env (canon (encode a))=value (k+i) := by
  induction names generalizing k env i with
  | nil => cases hi
  | cons name names ih =>
    rw [List.length_cons] at hk hv hown
    have hname : canon (encode name)≠canon (varName k) := hown 0 k name rfl (by omega) (by omega)
    rw [bindings,assign,assign]
    cases i with
    | zero =>
      cases hi
      rw [assign_other]
      · simp only [Target.key]
        rw [Function.update_of_ne hname,Function.update_self]
        exact hv k (Nat.le_refl k) (by omega)
      · intro b hb
        rcases mem_bindings hb with ⟨l,n,hl,ht⟩ | ⟨j,h1,h2,ht⟩
        · rw [ht]
          intro hkey
          have hl0 := hapart (l+1) 0 n a hl rfl hkey
          omega
        · rw [ht]
          exact (hown 0 j a rfl (by omega) (by omega)).symm
    | succ i =>
      rw [show k+(i+1)=k+1+i by omega]
      apply ih
      · omega
      · intro j h1 h2
        have hj := hv j (by omega) (by omega)
        cases atOnce with
        | true => exact hj
        | false =>
          have hjn : canon (varName j)≠canon (encode name) :=
            (hown 0 j name rfl (by omega) (by omega)).symm
          have hjk : canon (varName j)≠canon (varName k) := by
            intro hkey
            have hjk := hs j k (by omega) (by omega) hkey
            omega
          simp only [Bool.false_eq_true,if_false,Target.key] at hj ⊢
          rw [Function.update_of_ne hjk,Function.update_of_ne hjn]
          exact hj
      · intro i j a b ha hb hkey
        have hs := hapart (i+1) (j+1) a b ha hb hkey
        omega
      · intro i j a ha h1 h2
        exact hown (i+1) j a ha (by omega) (by omega)
      · exact hi

/-- A temporary variable is cleared, and stays so when no later parameter has its name. -/
theorem bindings_cleared (hs : Separate canon) {k : ℕ} {names : List Name} {env : K → Option V}
    (hk : k+names.length ≤ 0x10000) {t : ℕ} (ht : t < names.length)
    (hlater : ∀ (i : ℕ) (a : Name),t < i → names[i]?=some a → canon (encode a)≠canon (varName (k+t))) :
    assign canon args atOnce before (bindings k names) env (canon (varName (k+t)))=none := by
  induction names generalizing k env t with
  | nil => exact absurd ht (Nat.not_lt_zero t)
  | cons name names ih =>
    rw [List.length_cons] at hk ht
    rw [bindings,assign,assign]
    cases t with
    | zero =>
      rw [assign_other]
      · exact Function.update_self _ _ _
      · intro b hb hkey
        rcases mem_bindings hb with ⟨l,n,hl,ht⟩ | ⟨j,h1,h2,ht⟩
        · rw [ht] at hkey
          exact hlater (l+1) n (Nat.succ_pos l) hl hkey
        · rw [ht] at hkey
          have hj := hs j k (by omega) (by omega) hkey
          omega
    | succ t =>
      rw [show k+(t+1)=k+1+t by omega] at hlater ⊢
      apply ih
      · omega
      · omega
      · intro i a h1 h2
        exact hlater (i+1) a (by omega) h2

/-- The texts of the parameters are those of the assignments. -/
theorem paramTexts_eq (i : ℕ) (names : List Name) :
    paramTexts (firstNumber+i) names=(bindings i names).flatMap fun a => 44::a.text := by
  induction names generalizing i with
  | nil => rfl
  | cons name names ih =>
    rw [paramTexts,bindings,List.flatMap_cons,List.flatMap_cons,Nat.add_assoc,ih]
    simp only [paramText,beforeName,afterName,Assignment.text,Target.text,Source.text,varName,
      List.append_assoc,List.cons_append,List.nil_append]

/-- The texts of the placeholders are those of the assignments. -/
theorem placeholderTexts_eq (k i : ℕ) :
    placeholderTexts k (firstNumber+i)=(placeholders k i).flatMap fun a => 44::a.text := by
  induction k generalizing i with
  | zero => rfl
  | succ k ih =>
    rw [placeholderTexts,placeholders,List.flatMap_cons,Nat.add_assoc,ih]
    simp only [placeholderText,Assignment.text,Target.text,Source.text,varName,
      List.append_assoc,List.cons_append,List.nil_append]

/-- The text of a `SET`, one assignment after another. -/
theorem setText_cons (a : Assignment) (as : List Assignment) :
    setText (a::as)=[83,69,84,32]++(a.text++as.flatMap fun a => 44::a.text) := by
  rw [setText]
  congr 1
  induction as generalizing a with
  | nil => simp only [List.map_cons,List.map_nil,List.intercalate_singleton,List.flatMap_nil,List.append_nil]
  | cons b as ih =>
    rw [List.map_cons,List.map_cons,List.intercalate_cons_cons,← List.map_cons,ih,List.flatMap_cons,
      List.append_assoc]
    rfl

/-- The beginning is written over. -/
theorem finish_eq {c : Cursor} {a : Assignment} {as : List Assignment}
    (h : c.bytes=[0,0,0]++(a::as).flatMap fun a => 44::a.text) : finish c=setText (a::as) := by
  rw [setText_cons,finish,h]
  rfl

/-- A difference after the beginning remains. -/
theorem finish_ne {c : Cursor} {a : Assignment} {as : List Assignment}
    (h : Differs 4 c.bytes ([0,0,0]++(a::as).flatMap fun a => 44::a.text)) : finish c≠setText (a::as) := by
  intro he
  rw [setText_cons] at he
  obtain ⟨-,hl⟩ := puts_size {c with pos := 0} [83,69,84,32]
  rcases h with hn | ⟨p,hp,hn⟩
  · apply hn
    have hlen := congrArg List.length he
    rw [finish,hl] at hlen
    rw [hlen]
    simp only [List.length_append,List.flatMap_cons,List.length_cons,List.length_nil]
    omega
  · apply hn
    have hget := congrArg (fun bs => bs.getD p 0) he
    simp only [finish] at hget
    rw [puts_after {c with pos := 0} [83,69,84,32] (by simpa using hp)] at hget
    rw [hget]
    obtain ⟨q,rfl⟩ := Nat.exists_eq_add_of_le' hp
    rfl

/-- A new array of some size. -/
theorem new_holds {length : ℕ} (h : 3 ≤ length) : Holds (.new length 3) [0,0,0] := by
  refine ⟨rfl,?_,?_⟩
  · show 3 ≤ (List.replicate length 0).length
    rw [List.length_replicate]
    exact h
  · simp only [Cursor.new,List.length_cons,List.length_nil,List.take_replicate,Nat.zero_add,
      Nat.min_eq_left h]
    rfl

/-- The second query is right exactly when the parameters fit. -/
theorem query1_spec {names : List Name} (h : 0 < names.length) :
    (Fits (guessLen names) 3 (sizes names) →
        finish (putParams firstNumber names (.new (guessLen names) 3))=setText (bindings 0 names)) ∧
      (¬Fits (guessLen names) 3 (sizes names) →
        finish (putParams firstNumber names (.new (guessLen names) 3))≠setText (bindings 0 names)) := by
  cases names with
  | nil => exact absurd h (Nat.lt_irrefl 0)
  | cons name names =>
    obtain ⟨length,hg⟩ : ∃ length,length=guessLen (name::names) := ⟨_,rfl⟩
    have h4 : 4 ≤ length := by
      rw [hg]
      simp only [guessLen,List.map_cons,List.sum_cons]
      omega
    rw [← hg]
    have hl : (Cursor.new length 3).bytes.length=length := List.length_replicate
    have hs := putParams_spec 4 firstNumber (name::names) (new_holds (Nat.le_of_succ_le h4))
      (by rw [hl]; exact h4)
    rw [hl] at hs
    have ht := paramTexts_eq 0 (name::names)
    rw [Nat.add_zero] at ht
    rw [ht] at hs
    exact ⟨fun hf => finish_eq (hs.1 hf),fun hn => finish_ne (hs.2 hn)⟩

/-- Each placeholder takes ten bytes. -/
theorem placeholderTexts_length (k m : ℕ) : (placeholderTexts k m).length=10*k := by
  induction k generalizing m with
  | zero => rfl
  | succ k ih =>
    have hl : (placeholderText (numeral 4 m)).length=10 := rfl
    rw [placeholderTexts,List.length_append,hl,ih]
    omega

/-- The first query is right. -/
theorem query0_eq {n : ℕ} (h : 0 < n) :
    finish ((Cursor.new (3+10*n) 3).puts (placeholderTexts n firstNumber))=setText (placeholders n 0) := by
  cases n with
  | zero => exact absurd h (Nat.lt_irrefl 0)
  | succ n =>
    obtain ⟨length,hg⟩ : ∃ length,length=3+10*(n+1) := ⟨_,rfl⟩
    rw [← hg]
    have hl : (Cursor.new length 3).bytes.length=length := List.length_replicate
    have hp : (Cursor.new length 3).pos=3 := rfl
    have hn := placeholderTexts_length (n+1) firstNumber
    have hfit : (Cursor.new length 3).pos+(placeholderTexts (n+1) firstNumber).length ≤
        (Cursor.new length 3).bytes.length := by omega
    have hh := (new_holds (by omega : 3 ≤ length)).write hfit
    have hc := hh.complete (by
      rw [write_length hfit,hl,List.length_append,hn,hg]
      rfl)
    rw [puts_eq _ _ hfit]
    have ht : placeholderTexts (n+1) firstNumber=(placeholders (n+1) 0).flatMap fun a => 44::a.text :=
      placeholderTexts_eq (n+1) 0
    rw [ht] at hc ⊢
    exact finish_eq hc

/-- The queries and the values. -/
theorem queries_eq (cached : Bool) {params : List (Name×Option V)} (h : 0 < params.length)
    (hmax : params.length ≤ 0xFFFF) :
    getNamedParamsQueries cached params=.queries {
      nPlaceholders := nPlaceholders params.length,
      query0 := if cached=true then none else some (setText (placeholders (nPlaceholders params.length) 0)),
      query1 := finish (putParams firstNumber (params.map Prod.fst)
        (.new (guessLen (params.map Prod.fst)) 3)),
      values := params.map Prod.snd++
        List.replicate (nPlaceholders params.length-params.length) none} := by
  have hn : (params.map Prod.fst).length ≤ nPlaceholders params.length := by
    rw [List.length_map,nPlaceholders]
    omega
  have hpos : 0 < nPlaceholders params.length := by
    rw [nPlaceholders]
    omega
  simp only [getNamedParamsQueries]
  rw [if_neg (by omega),if_neg (by omega),firstDigits_eq,generate_query1 hn,generate_query0]
  cases cached with
  | true => rfl
  | false =>
    simp only [Bool.false_eq_true,if_false,Option.map_some]
    rw [query0_eq hpos]

/-- After both queries a parameter has the value of its placeholder. -/
theorem Bindable.held (hs : Separate canon) {names : List Name} (hb : Bindable canon names) {n : ℕ}
    (hl : names.length ≤ n) (hn : n ≤ 0x10000) (args : List (Option V)) (atOnce : Bool)
    (env : K → Option V) {i : ℕ} {a : Name}
    (hi : names[i]?=some a) :
    runSet canon [] atOnce (bindings 0 names) (runSet canon args atOnce (placeholders n 0) env)
      (canon (encode a))=args[i]?.join := by
  obtain ⟨mid,hm⟩ : ∃ mid,mid=runSet canon args atOnce (placeholders n 0) env := ⟨_,rfl⟩
  rw [← hm]
  have hmid : ∀ j,j < n → mid (canon (varName j))=args[j]?.join := by
    intro j hj
    rw [hm]
    exact placeholders_set hs (by omega) (Nat.zero_le j) (by omega)
  have hheld : assign canon [] atOnce mid (bindings 0 names) mid (canon (encode a))=args[0+i]?.join := by
    refine bindings_held hs (fun j => args[j]?.join) (by omega) ?_ hb.apart ?_ hi
    · intro j h1 h2
      rw [ite_self]
      exact hmid j (by omega)
    · intro l j b hl h1 h2
      exact hb.own l j b hl (by omega) (by omega)
  rw [Nat.zero_add] at hheld
  exact hheld

/-- A value that is passed for a parameter. -/
theorem passed_value {params : List (Name×Option V)} {i : ℕ} {param : Name×Option V}
    (h : params[i]?=some param) :
    (params.map Prod.fst)[i]?=some param.1 ∧ (params.map Prod.snd)[i]?=some param.2 := by
  rw [List.getElem?_map,List.getElem?_map,h]
  exact ⟨rfl,rfl⟩

/-- Names that can be bound are bound, with any values. -/
theorem Bindable.binds (hs : Separate canon) (cached : Bool) {params : List (Name×Option V)}
    (h : 0 < params.length) (hb : Bindable canon (params.map Prod.fst)) :
    ∃ q,getNamedParamsQueries cached params=.queries q ∧ Binds canon cached params q := by
  have hfew := hb.few
  rw [List.length_map] at hfew
  have hl : (params.map Prod.fst).length=params.length := List.length_map _
  have hmost : nPlaceholders params.length ≤ 65535 := by
    rw [nPlaceholders]
    omega
  have henough : params.length ≤ nPlaceholders params.length := by
    rw [nPlaceholders]
    omega
  have hvalues : ∀ i,i < params.length → (params.map Prod.snd++
      List.replicate (nPlaceholders params.length-params.length) none)[i]?=(params.map Prod.snd)[i]? := by
    intro i hi
    rw [List.getElem?_append_left (by rwa [List.length_map])]
  refine ⟨_,queries_eq cached h (by omega),(query1_spec (by omega)).1 hb.fits,rfl,?_,henough,hmost,?_,
    hvalues,?_⟩
  · intro i j hi hj
    simp only at hi hj
    exact varName_inj (by omega) (by omega)
  · rw [List.length_append,List.length_map,List.length_replicate]
    exact Nat.add_sub_of_le henough
  · intro atOnce env i param hi
    obtain ⟨hname,hvalue⟩ := passed_value hi
    have hlt : i < params.length := (List.getElem?_eq_some_iff.mp hi).1
    have hheld := hb.held hs (by omega) (by omega : nPlaceholders params.length ≤ 0x10000)
      (params.map Prod.snd++List.replicate (nPlaceholders params.length-params.length) none) atOnce env hname
    rw [hvalues i hlt,hvalue] at hheld
    exact hheld

/-- A value for each name. -/
theorem zip_params (names : List Name) (value : ℕ → Option V) :
    ∃ params : List (Name×Option V),params.map Prod.fst=names ∧
      ∀ (i : ℕ) (a : Name),names[i]?=some a → params[i]?=some (a,value i) := by
  refine ⟨names.zipIdx.map fun p => (p.1,value p.2),?_,?_⟩
  · rw [List.map_map]
    exact List.zipIdx_map_fst 0 names
  · intro i a h
    rw [List.getElem?_map,List.getElem?_zipIdx,h]
    simp only [Option.map_some,Nat.zero_add]

/-- The queries bind the parameters of these names, with whatever values, exactly
when the names can be bound. -/
theorem params_bound_iff [Inhabited V] (hs : Separate canon) (cached : Bool) {names : List Name}
    (h : 0 < names.length) (hmax : names.length ≤ 65535) :
    (∀ params : List (Name×Option V),params.map Prod.fst=names →
        ∃ q,getNamedParamsQueries cached params=.queries q ∧ Binds canon cached params q)↔
      Bindable canon names := by
  constructor
  · intro hall
    have hbinds : ∀ value : ℕ → Option V,∃ params q,params.map Prod.fst=names ∧
        (∀ (i : ℕ) (a : Name),names[i]?=some a → params[i]?=some (a,value i)) ∧
        q.nPlaceholders=nPlaceholders names.length ∧
        q.query1=finish (putParams firstNumber names (.new (guessLen names) 3)) ∧
        Binds canon cached params q := by
      intro value
      obtain ⟨params,hp,hv⟩ := zip_params names value
      obtain ⟨q,hq,hb⟩ := hall params hp
      have hl : params.length=names.length := by rw [← hp,List.length_map]
      rw [queries_eq cached (by omega) (by omega)] at hq
      cases hq
      exact ⟨params,_,hp,hv,by rw [hl],by rw [hp],hb⟩
    have hapart : ∀ (i j : ℕ) (a b : Name),names[i]?=some a → names[j]?=some b →
        canon (encode a)=canon (encode b) → i=j := by
      intro i j a b ha hb hkey
      by_contra hne
      -- different values for the two
      obtain ⟨params,q,hp,hv,-,-,hbound⟩ := hbinds fun l => if l=i then some default else none
      have h1 := hbound.held true (fun _ => none) i _ (hv i a ha)
      have h2 := hbound.held true (fun _ => none) j _ (hv j b hb)
      rw [if_pos rfl] at h1
      rw [if_neg (Ne.symm hne)] at h2
      rw [hkey,h2] at h1
      cases h1
    obtain ⟨params,q,hp,hv,hn,hq1,hbound⟩ := hbinds fun _ => some default
    have hmost := hbound.most
    rw [hn,nPlaceholders] at hmost
    refine ⟨by omega,?_,hapart,?_⟩
    · by_contra hno
      apply (query1_spec h).2 hno
      have h1 := hbound.query1
      rwa [hq1,hp] at h1
    · intro i j a ha hij hj hkey
      -- the variable is cleared after it was assigned
      have h1 := hbound.held true (fun _ => none) i _ (hv i a ha)
      simp only [hp] at h1
      have hclear : runSet canon [] true (bindings 0 names)
          (runSet canon q.values true (placeholders q.nPlaceholders 0) (fun _ => none))
          (canon (varName (0+j)))=none := by
        refine bindings_cleared hs (by omega) hj ?_
        intro l b hl hb hkey'
        rw [Nat.zero_add,← hkey] at hkey'
        have hli := hapart l i b a hb ha hkey'
        omega
      rw [Nat.zero_add,← hkey,h1] at hclear
      cases hclear
  · intro hb params hp
    have hl : params.length=names.length := by rw [← hp,List.length_map]
    rw [← hp] at hb
    exact hb.binds hs cached (by omega)

/-- A temporary variable is known by its name. -/
theorem separate_id : Separate id := fun _ _ hi hj h => varName_inj hi hj h

/-- A parameter with a small letter is bound. -/
theorem letter_bound : ∃ q,getNamedParamsQueries false [([97],some 1)]=.queries q ∧
    Binds id false [([97],some 1)] q := by
  have hbindable : Bindable (id : List UInt8 → List UInt8) [[97]] := by
    refine ⟨by decide,?_,?_,?_⟩
    · refine plain_fits (fun name hn c hc => ?_)
      rw [List.mem_singleton.mp hn] at hc
      rw [List.mem_singleton.mp hc]
      decide
    · intro i j a b ha hb _
      have hi := (List.getElem?_eq_some_iff.mp ha).1
      have hj := (List.getElem?_eq_some_iff.mp hb).1
      rw [List.length_singleton] at hi hj
      omega
    · intro i j a ha _ hj
      have hi := (List.getElem?_eq_some_iff.mp ha).1
      rw [List.length_singleton] at hi hj
      rw [Nat.lt_one_iff.mp hi] at ha
      rw [Nat.lt_one_iff.mp hj]
      cases ha
      decide
  exact (params_bound_iff separate_id false (by decide) (by decide)).mpr hbindable
    [([97],some 1)] rfl

/-- The last letter of the query for a parameter `é` is missing. -/
theorem last_letter_missing : ∃ q,getNamedParamsQueries false [([233],some 1)]=.queries q ∧
    q.query1=(setText (bindings 0 [[233]])).dropLast ∧ ¬Binds id false [([233],some 1)] q := by
  refine ⟨_,rfl,by decide,?_⟩
  intro h
  have h1 := h.query1
  revert h1
  decide

end SpiritMysql.NamedParams
