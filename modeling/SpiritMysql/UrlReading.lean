import SpiritMysql.UrlRules

/-!
# Addresses that are read back

An address whose parts are written so that nothing in them is taken for something else is
split into the same parts, and so are the items of its query.
-/

namespace SpiritMysql.UrlRules

open PercentCoding

section Cuts

variable {sep : Char} {before after : List Char}

/-- Text without the separator is not cut. -/
theorem cutFirst_none (h : sep ∉ before) : cutFirst sep before=(before,none) := by
  induction before with
  | nil => rfl
  | cons c before ih =>
    have hc : c≠sep := fun he => h (he ▸ List.mem_cons_self)
    rw [cutFirst,if_neg hc,ih (fun hm => h (List.mem_cons_of_mem _ hm))]

/-- The first separator cuts the text. -/
theorem cutFirst_append (h : sep ∉ before) (after : List Char) :
    cutFirst sep (before++sep::after)=(before,some after) := by
  induction before with
  | nil => exact if_pos rfl
  | cons c before ih =>
    have hc : c≠sep := fun he => h (he ▸ List.mem_cons_self)
    rw [List.cons_append,cutFirst,if_neg hc,ih (fun hm => h (List.mem_cons_of_mem _ hm))]

/-- Text without the separator has no last one. -/
theorem cutLast_none (h : sep ∉ after) : cutLast sep after=none := by
  induction after with
  | nil => rfl
  | cons c after ih =>
    have hc : c≠sep := fun he => h (he ▸ List.mem_cons_self)
    rw [cutLast,ih (fun hm => h (List.mem_cons_of_mem _ hm))]
    exact if_neg hc

/-- The last separator cuts the text. -/
theorem cutLast_append (before : List Char) (h : sep ∉ after) :
    cutLast sep (before++sep::after)=some (before,after) := by
  induction before with
  | nil =>
    rw [List.nil_append,cutLast,cutLast_none h]
    exact if_pos rfl
  | cons c before ih => rw [List.cons_append,cutLast,ih]

end Cuts

/-- A text that is not cut has no separator. -/
theorem not_mem_of_cutLast {sep : Char} {text : List Char} (h : cutLast sep text=none) :
    sep ∉ text := by
  induction text with
  | nil => exact List.not_mem_nil
  | cons c rest ih =>
    rw [cutLast] at h
    cases hr : cutLast sep rest with
    | some cut =>
      rw [hr] at h
      cases h
    | none =>
      rw [hr] at h
      dsimp only at h
      split at h
      · cases h
      · rename_i hc
        intro hm
        rcases List.mem_cons.mp hm with he | hm
        · exact hc he.symm
        · exact ih hr hm

/-- The text before the last separator, and a text without any after it. -/
theorem cutLast_eq {sep : Char} {text : List Char} {before after : List Char}
    (h : cutLast sep text=some (before,after)) : text=before++sep::after ∧ sep ∉ after := by
  induction text generalizing before with
  | nil => cases h
  | cons c rest ih =>
    rw [cutLast] at h
    cases hr : cutLast sep rest with
    | some cut =>
      obtain ⟨b,a⟩ := cut
      rw [hr] at h
      obtain ⟨rfl,rfl⟩ := Prod.mk.inj (Option.some.inj h)
      obtain ⟨he,hm⟩ := ih hr
      exact ⟨congrArg (c :: ·) he,hm⟩
    | none =>
      rw [hr] at h
      dsimp only at h
      split at h
      · rename_i hc
        obtain ⟨rfl,rfl⟩ := Prod.mk.inj (Option.some.inj h)
        rw [hc]
        exact ⟨rfl,not_mem_of_cutLast hr⟩
      · cases h

/-- A host as it stands in an address: plain text, or text in brackets. -/
inductive HostText : List Char → Prop where
  /-- A name or a number. -/
  | plain {text : List Char} (chars : ∀ c ∈ text,c ≠ ':' ∧ c ≠ '[' ∧ c ≠ ']') :
    HostText text
  /-- Text in brackets. -/
  | bracketed {text : List Char} (chars : ∀ c ∈ text,c ≠ '[' ∧ c ≠ ']') :
    HostText ('['::(text++[']']))

/-- Plain text before the colon is the host. -/
theorem cutPort_plain {text : List Char} (h : ∀ c ∈ text,c ≠ ':' ∧ c ≠ '[' ∧ c ≠ ']')
    (rest : List Char) :
    cutPort false (text++rest)=(text++(cutPort false rest).1,(cutPort false rest).2) := by
  induction text with
  | nil => rfl
  | cons c text ih =>
    obtain ⟨h1,h2,h3⟩ := h c List.mem_cons_self
    have hi := ih (fun x hx => h x (List.mem_cons_of_mem _ hx))
    have hb : (c == '[')=false := beq_eq_false_iff_ne.mpr h2
    rw [List.cons_append,cutPort,if_neg (by simp [h1]),hb,Bool.false_or,Bool.false_and,hi]
    rfl

/-- Text in brackets before the colon is a part of the host. -/
theorem cutPort_inside {text : List Char} (h : ∀ c ∈ text,c ≠ '[' ∧ c ≠ ']')
    (rest : List Char) :
    cutPort true (text++ ']'::rest)=
      (text++ ']'::(cutPort false rest).1,(cutPort false rest).2) := by
  induction text with
  | nil =>
    rw [List.nil_append,cutPort,if_neg (by simp)]
    rfl
  | cons c text ih =>
    obtain ⟨h1,h2⟩ := h c List.mem_cons_self
    have hi := ih (fun x hx => h x (List.mem_cons_of_mem _ hx))
    have hb : (c == '[' || true && c != ']')=true := by simp [h2]
    rw [List.cons_append,cutPort,if_neg (by simp),hb,hi]
    rfl

/-- What follows a host is cut off as it is without the host. -/
theorem cutPort_host {text : List Char} (h : HostText text) (rest : List Char) :
    cutPort false (text++rest)=(text++(cutPort false rest).1,(cutPort false rest).2) := by
  cases h with
  | plain chars => exact cutPort_plain chars rest
  | @bracketed text chars =>
    have hi := cutPort_inside chars rest
    have he : '['::(text++[']'])++rest = '['::(text++ ']'::rest) := by simp
    rw [he,cutPort,if_neg (by simp)]
    change ('['::(cutPort true (text++ ']'::rest)).1,(cutPort true (text++ ']'::rest)).2)=_
    rw [hi]
    simp

/-- A port after a colon, or nothing. -/
def portText : Option ℕ → List Char
  | none => []
  | some port => ':'::Nat.toDigits 10 port

/-- Nothing is read as the default port. -/
theorem readPort_nil (default : ℕ) : readPort default []=some none := rfl

/-- A printed port is read back. -/
theorem readPort_toDigits {default port : ℕ} (h : port ≤ 65535) :
    readPort default (Nat.toDigits 10 port)=
      some (if port=default then none else some port) := by
  have hn : Nat.toDigits 10 port≠[] := Nat.toDigits_ne_nil
  have hd : (Nat.toDigits 10 port).all Char.isDigit=true :=
    List.all_eq_true.mpr (fun c hc => Nat.isDigit_of_mem_toDigits (by decide) (by decide) hc)
  have hv : Nat.ofDigitChars 10 (Nat.toDigits 10 port) 0=port := Nat.ofDigitChars_ten_toDigits
  rw [readPort,if_neg hn,hv,if_pos ⟨hd,h⟩]

/-- A host and a port are cut apart. -/
theorem cutPort_portText {text : List Char} (h : HostText text) (port : Option ℕ) :
    cutPort false (text++portText port)=(text,port.map (Nat.toDigits 10)) := by
  rw [cutPort_host h]
  cases port with
  | none => simp [portText,cutPort]
  | some port => simp [portText,cutPort]

/-- Encoding keeps the slashes that segments are cut at. -/
theorem join_segments {text : List Char} (h : '\\' ∉ text) :
    (text.splitOnP isSlash).flatMap (fun segment => '/'::encode pathSet segment)=
      '/'::encode pathSet text := by
  induction text with
  | nil => rfl
  | cons c text ih =>
    have hi := ih (fun hm => h (List.mem_cons_of_mem _ hm))
    rw [List.splitOnP_cons_eq_if_modifyHead]
    by_cases hc : isSlash c=true
    · have hs : c = '/' := by
        simp only [isSlash,Bool.or_eq_true,beq_iff_eq] at hc
        exact hc.resolve_right (fun he => h (he ▸ List.mem_cons_self))
      subst hs
      rw [if_pos hc,List.flatMap_cons,hi,encode_cons,encodeChar_not_mem (by decide)]
      rfl
    · obtain ⟨first,others,hf⟩ :=
        List.exists_cons_of_ne_nil (List.splitOnP_ne_nil isSlash text)
      rw [hf,List.flatMap_cons,List.cons_append,List.cons.injEq] at hi
      rw [if_neg hc,hf,List.modifyHead_cons,List.flatMap_cons,encode_cons,encode_cons,
        ←hi.2,List.cons_append,List.append_assoc]

/-- If no segment of a path stands for a directory itself or the one above. -/
def NoDots (path : List Char) : Prop :=
  ∀ segment ∈ path.splitOnP isSlash,segment≠['.'] ∧ segment≠[ '.','.']

instance (path : List Char) : Decidable (NoDots path) := by
  unfold NoDots
  infer_instance

/-- Every spelling of a dot segment is read as one. -/
theorem decode_dots :
    (∀ s ∈ singleDots,decode s=some ['.']) ∧ ∀ s ∈ doubleDots,decode s=some [ '.','.'] := by
  decide +kernel

/-- An encoded segment is not taken for a dot segment. -/
theorem encoded_not_dots {segment : List Char} (hp : '%' ∉ segment)
    (h : segment≠['.'] ∧ segment≠[ '.','.']) :
    encode pathSet segment ∉ doubleDots ∧ encode pathSet segment ∉ singleDots := by
  have hd : decode (encode pathSet segment)=some segment :=
    decode_encode (fun hm => absurd hm hp)
  constructor
  · intro hm
    have hs := decode_dots.2 _ hm
    rw [hd,Option.some.injEq] at hs
    exact h.2 hs
  · intro hm
    have hs := decode_dots.1 _ hm
    rw [hd,Option.some.injEq] at hs
    exact h.1 hs

/-- Segments that are not dot segments are all kept. -/
theorem addSegments_kept {segments : List (List Char)}
    (h : ∀ s ∈ segments,s ∉ doubleDots ∧ s ∉ singleDots) (path : List (List Char)) :
    addSegments path segments=path++segments := by
  induction segments generalizing path with
  | nil => exact (List.append_nil path).symm
  | cons s segments ih =>
    have hadd : ∀ last,addSegment path s last=path++[s] := by
      intro last
      have hs := h s List.mem_cons_self
      rw [addSegment,if_neg hs.1,if_neg hs.2]
    cases segments with
    | nil => exact hadd true
    | cons next rest =>
      rw [addSegments,hadd,ih (fun x hx => h x (List.mem_cons_of_mem _ hx))]
      exact List.append_assoc path [s] (next::rest)

/-- Segments are made of the characters of the text. -/
theorem mem_of_mem_splitOnP {p : Char → Bool} {text segment : List Char} {c : Char}
    (hs : segment ∈ text.splitOnP p) (hc : c ∈ segment) : c ∈ text := by
  induction text generalizing segment with
  | nil =>
    rw [List.splitOnP_nil,List.mem_singleton] at hs
    rwa [hs] at hc
  | cons x text ih =>
    rw [List.splitOnP_cons_eq_if_modifyHead] at hs
    obtain ⟨first,others,hf⟩ := List.exists_cons_of_ne_nil (List.splitOnP_ne_nil p text)
    by_cases hx : p x=true
    · rw [if_pos hx,List.mem_cons] at hs
      rcases hs with rfl | hs
      · exact absurd hc List.not_mem_nil
      · exact List.mem_cons_of_mem _ (ih hs hc)
    · rw [if_neg hx,hf,List.modifyHead_cons,List.mem_cons] at hs
      rcases hs with rfl | hs
      · rcases List.mem_cons.mp hc with rfl | hc
        · exact List.mem_cons_self
        · exact List.mem_cons_of_mem _ (ih (hf ▸ List.mem_cons_self) hc)
      · exact List.mem_cons_of_mem _ (ih (hf ▸ List.mem_cons_of_mem _ hs) hc)

/-- A path without dot segments is kept. -/
theorem pathname_plain {text : List Char} (hb : '\\' ∉ text) (hp : '%' ∉ text)
    (hd : NoDots text) : pathname ('/'::text) = '/'::encode pathSet text := by
  have hkept : ∀ s ∈ (text.splitOnP isSlash).map (encode pathSet),
      s ∉ doubleDots ∧ s ∉ singleDots := by
    intro s hs
    obtain ⟨segment,hm,rfl⟩ := List.mem_map.mp hs
    exact encoded_not_dots (fun hc => hp (mem_of_mem_splitOnP hm hc)) (hd segment hm)
  rw [pathname,show afterSlash ('/'::text)=text from rfl,addSegments_kept hkept,List.nil_append,
    List.flatMap_map]
  exact join_segments hb

/-- A path has a segment. -/
theorem addSegments_ne_nil (path : List (List Char)) {segments : List (List Char)}
    (h : segments≠[]) : addSegments path segments≠[] := by
  have hlast : ∀ path segment,addSegment path segment true≠[] := by
    intro path segment
    unfold addSegment
    split
    · simp
    · split
      · simp
      · simp
  induction path,segments using addSegments.induct with
  | case1 path => exact absurd rfl h
  | case2 path segment => exact hlast path segment
  | case3 path segment next rest ih => exact ih (List.cons_ne_nil _ _)

/-- A path begins with a slash. -/
theorem pathname_cons (text : List Char) : ∃ rest,pathname text= '/'::rest := by
  have hne : ((afterSlash text).splitOnP isSlash).map (encode pathSet)≠[] := by
    rw [Ne,List.map_eq_nil_iff]
    exact List.splitOnP_ne_nil _ _
  obtain ⟨segment,rest,h⟩ := List.exists_cons_of_ne_nil (addSegments_ne_nil [] hne)
  rw [pathname,h,List.flatMap_cons]
  exact ⟨_,rfl⟩

/-- Text is cut where the first character comes that is searched for. -/
theorem takeWhile_dropWhile_append {p : Char → Bool} {a b : List Char} (ha : ∀ c ∈ a,p c=true)
    (hb : ∀ c ∈ b.head?,p c=false) : (a++b).takeWhile p=a ∧ (a++b).dropWhile p=b := by
  have hb' : b.takeWhile p=[] ∧ b.dropWhile p=b := by
    cases b with
    | nil => exact ⟨rfl,rfl⟩
    | cons c b =>
      have hc := hb c rfl
      constructor
      · rw [List.takeWhile_cons,if_neg (by rw [hc]; decide)]
      · rw [List.dropWhile_cons,if_neg (by rw [hc]; decide)]
  constructor
  · rw [List.takeWhile_append_of_pos ha,hb'.1,List.append_nil]
  · rw [List.dropWhile_append_of_pos ha,hb'.2]

/-- Nothing is ignored in text without tabs and line breaks that ends visibly. -/
theorem clean_plain {text : List Char} (ht : ∀ c ∈ text,isTabOrNewline c=false)
    (hl : ∀ c ∈ text.getLast?,isBlank c=false) : clean text=text := by
  have hr : text.rdropWhile isBlank=text := by
    refine List.rdropWhile_eq_self_iff.mpr (fun hn => ?_)
    rw [hl _ (List.getLast?_eq_getLast_of_ne_nil hn)]
    decide
  rw [clean,hr]
  exact List.filter_eq_self.mpr (fun c hc => by rw [ht c hc]; rfl)

/-- An address as it is written after the scheme and two slashes. -/
structure Address where
  /-- The name of the user, and the password. -/
  credentials : Option (List Char × Option (List Char))
  /-- The host. -/
  host : List Char
  /-- The port. -/
  port : Option ℕ
  /-- The path after the slash it starts with. -/
  path : List Char
  /-- What comes after the question mark. -/
  query : Option (List Char)
  /-- What comes after the number sign. -/
  fragment : Option (List Char)

/-- The name of the user as it is written. -/
def Address.username (a : Address) : List Char := (a.credentials.map Prod.fst).getD []

/-- The password as it is written. -/
def Address.password (a : Address) : List Char :=
  ((a.credentials.bind Prod.snd)).getD []

/-- A separator and the text after it, or nothing. -/
def markedText (mark : Char) : Option (List Char) → List Char
  | none => []
  | some text => mark::text

/-- The credentials before the last at sign. -/
def Address.credentialsText (a : Address) : List Char :=
  a.username++markedText ':' (a.credentials.bind Prod.snd)

/-- The credentials, the host and the port. -/
def Address.authority (a : Address) : List Char :=
  (if a.credentials.isSome=true then a.credentialsText++['@'] else [])++(a.host++portText a.port)

/-- The rest of the address. -/
def Address.rest (a : Address) : List Char :=
  ('/'::a.path++markedText '?' a.query)++markedText '#' a.fragment

/-- The address as it is written after the scheme. -/
def Address.text (a : Address) : List Char := '/':: '/'::(a.authority++a.rest)

/-- An address whose parts are written so that they are found again. -/
structure Address.Plain (a : Address) : Prop where
  /-- The name of the user has no colon. -/
  username : ':' ∉ a.username
  /-- Nothing before the path ends the authority. -/
  authority : ∀ c ∈ a.authority,endsAuthority c=false
  /-- There is a host. -/
  host_ne : a.host≠[]
  /-- The colons of the host are in brackets. -/
  host : HostText a.host
  /-- The host has no at sign. -/
  host_at : '@' ∉ a.host
  /-- The port is in range. -/
  port : ∀ port ∈ a.port,port ≤ 65535
  /-- The path has no character that ends it, and none that is read differently. -/
  path : ∀ c ∈ a.path,c ≠ '?' ∧ c ≠ '#' ∧ c ≠ '\\' ∧ c ≠ '%'
  /-- The path has no dot segments. -/
  dots : NoDots a.path
  /-- The query has no number sign. -/
  query : ∀ query ∈ a.query,'#' ∉ query
  /-- There are no tabs and line breaks. -/
  tabs : ∀ c ∈ a.text,isTabOrNewline c=false
  /-- The last character is visible. -/
  last : ∀ c ∈ a.text.getLast?,isBlank c=false

namespace Address

variable {a : Address}

/-- The text after a mark. -/
theorem cutFirst_marked {mark : Char} {before : List Char} (h : mark ∉ before)
    (text : Option (List Char)) : cutFirst mark (before++markedText mark text)=(before,text) := by
  cases text with
  | none =>
    rw [markedText,List.append_nil]
    exact cutFirst_none h
  | some text => exact cutFirst_append h text

/-- The credentials are found in front of the last at sign. -/
theorem Plain.credentials (h : a.Plain) :
    ((cutLast '@' a.authority).map Prod.fst).getD []=a.credentialsText ∧
      ((cutLast '@' a.authority).map Prod.snd).getD a.authority=a.host++portText a.port := by
  have hat : '@' ∉ a.host++portText a.port := by
    intro hm
    rcases List.mem_append.mp hm with hm | hm
    · exact h.host_at hm
    · cases hp : a.port with
      | none =>
        rw [hp] at hm
        exact List.not_mem_nil hm
      | some port =>
        rw [hp] at hm
        rcases List.mem_cons.mp hm with hm | hm
        · exact absurd hm (by decide)
        · have hd := Nat.isDigit_of_mem_toDigits (by decide) (by decide) hm
          exact absurd hd (by decide)
  rw [Address.authority]
  by_cases hc : a.credentials.isSome=true
  · rw [if_pos hc,List.append_assoc,List.singleton_append,cutLast_append _ hat]
    exact ⟨rfl,rfl⟩
  · have hn : a.credentials=none := Option.not_isSome_iff_eq_none.mp hc
    rw [if_neg hc,List.nil_append,cutLast_none hat]
    refine ⟨?_,rfl⟩
    rw [credentialsText,Address.username,hn]
    rfl

/-- The user and the password are found in the credentials. -/
theorem Plain.user (h : a.Plain) :
    cutFirst ':' a.credentialsText=(a.username,a.credentials.bind Prod.snd) :=
  cutFirst_marked h.username _

/-- The query and the fragment are found in the rest. -/
theorem Plain.fragment (h : a.Plain) :
    cutFirst '#' a.rest=('/'::a.path++markedText '?' a.query,a.fragment) := by
  refine cutFirst_marked (fun hm => ?_) _
  rw [List.cons_append,List.mem_cons,List.mem_append] at hm
  rcases hm with hm | hm | hm
  · exact absurd hm (by decide)
  · exact (h.path _ hm).2.1 rfl
  · cases hq : a.query with
    | none =>
      rw [hq] at hm
      exact List.not_mem_nil hm
    | some query =>
      rw [hq] at hm
      rcases List.mem_cons.mp hm with hm | hm
      · exact absurd hm (by decide)
      · exact h.query query (by rw [hq]; exact rfl) hm

/-- The path and the query are found before the fragment. -/
theorem Plain.path_query (h : a.Plain) :
    cutFirst '?' ('/'::a.path++markedText '?' a.query)=('/'::a.path,a.query) := by
  refine cutFirst_marked (fun hm => ?_) _
  rcases List.mem_cons.mp hm with hm | hm
  · exact absurd hm (by decide)
  · exact (h.path _ hm).1 rfl

/-- The authority is found after the slashes. -/
theorem Plain.authority_rest (h : a.Plain) :
    a.authority≠[] ∧ (clean a.text).dropWhile isSlash=a.authority++a.rest ∧
      (a.authority++a.rest).takeWhile (fun c => !endsAuthority c)=a.authority ∧
      (a.authority++a.rest).dropWhile (fun c => !endsAuthority c)=a.rest := by
  have hne : a.authority≠[] := by
    intro he
    rw [Address.authority,List.append_eq_nil_iff,List.append_eq_nil_iff] at he
    exact h.host_ne he.2.1
  have hcut := takeWhile_dropWhile_append (p := fun c => !endsAuthority c)
    (a := a.authority) (b := a.rest) (fun c hc => by rw [h.authority c hc]; rfl)
    (by
      intro c hc
      rw [rest,List.cons_append,List.cons_append,List.head?_cons,Option.mem_def,
        Option.some.injEq] at hc
      subst hc
      decide)
  have hslash : ∀ c ∈ (a.authority++a.rest).head?,isSlash c=false := by
    obtain ⟨c,others,hc⟩ := List.exists_cons_of_ne_nil hne
    intro x hx
    rw [hc,List.cons_append,List.head?_cons,Option.mem_def,Option.some.injEq] at hx
    subst hx
    have he := h.authority c (hc ▸ List.mem_cons_self)
    simp only [endsAuthority,Bool.or_eq_false_iff] at he
    exact he.1.1
  refine ⟨hne,?_,hcut.1,hcut.2⟩
  rw [clean_plain h.tabs h.last,text]
  exact (takeWhile_dropWhile_append (p := isSlash) (a := [ '/','/'])
    (by simp [isSlash]) hslash).2

/-- A plainly written address is split into its parts. -/
theorem Plain.parse (h : a.Plain) {host : List Char → Option (List Char)} {default : ℕ}
    {hostname : List Char} (hh : host a.host=some hostname) :
    UrlRules.parse host default a.text=some {
      username := encode userinfoSet a.username
      password := encode userinfoSet a.password
      hostname := hostname
      port := a.port.filter (· ≠ default)
      pathname := '/'::encode pathSet a.path
      query := encode querySet (a.query.getD [])
      fragment := encode fragmentSet (a.fragment.getD []) } := by
  obtain ⟨hne,hdrop,hauth,hrest⟩ := h.authority_rest
  obtain ⟨hcred,hport⟩ := h.credentials
  have hb : '\\' ∉ a.path := fun hm => (h.path _ hm).2.2.1 rfl
  have hp : '%' ∉ a.path := fun hm => (h.path _ hm).2.2.2 rfl
  have hread : readPort default ((a.port.map (Nat.toDigits 10)).getD [])=
      some (a.port.filter (· ≠ default)) := by
    cases hq : a.port with
    | none => exact readPort_nil default
    | some port =>
      have hle := h.port port (by rw [hq]; exact rfl)
      rw [Option.map_some,Option.getD_some,readPort_toDigits hle]
      by_cases he : port=default
      · rw [if_pos he,Option.filter_some,if_neg (by simp [he])]
      · rw [if_neg he,Option.filter_some,if_pos (by simp [he])]
  unfold UrlRules.parse
  simp only [hdrop,hauth,hrest,hcred,hport,h.user,h.fragment,h.path_query,
    cutPort_portText h.host,if_neg h.host_ne,hh,hread,pathname_plain hb hp h.dots]
  rfl

end Address

/-- An item of a query: a name, and a value as it is written. -/
abbrev Item := List Char × Option (List Char)

/-- An item as it is written. -/
def Item.text (item : Item) : List Char := item.1++markedText '=' item.2

/-- A query as it is written. -/
def queryText (items : List Item) : List Char := (items.flatMap (fun i => '&'::i.text)).drop 1

/-- A query of at least one item. -/
theorem queryText_cons (i : Item) (items : List Item) :
    queryText (i::items)=i.text++items.flatMap (fun i => '&'::i.text) := rfl

/-- Escapes are not escaped again in a query. -/
theorem querySet_escape {c : Char} (h : isEscapeChar c=true) : querySet c=false := by
  have hkept : (!querySet c)=true := @of_isEscapeChar (fun c => !querySet c) c h (by decide)
  simpa using hkept

/-- A separator comes into a query only with the text. -/
theorem mem_of_mem_encode {c : Char} {text : List Char} (hc : isEscapeChar c=false)
    (h : c ∈ encode querySet text) : c ∈ text := by
  rcases mem_encode h with he | ht
  · rw [hc] at he
    exact absurd he (by decide)
  · exact ht.1

/-- A marked text is encoded after its mark. -/
theorem encode_marked {mark : Char} (hm : querySet mark=false) (text : Option (List Char)) :
    encode querySet (markedText mark text)=markedText mark (text.map (encode querySet)) := by
  cases text with
  | none => rfl
  | some text =>
    rw [markedText,encode_cons,encodeChar_not_mem hm]
    rfl

/-- The items of a query are found again. -/
theorem split_query {items : List Item} (hne : items≠[]) (h : ∀ i ∈ items,'&' ∉ i.text) :
    (encode querySet (queryText items)).splitOnP (· == '&')=
      items.map (fun i => encode querySet i.text) := by
  induction items with
  | nil => exact absurd rfl hne
  | cons i items ih =>
    have hi : ∀ c ∈ encode querySet i.text,(c == '&')=false := by
      intro c hc
      refine beq_eq_false_iff_ne.mpr (fun he => ?_)
      subst he
      exact h i List.mem_cons_self (mem_of_mem_encode (by decide) hc)
    cases items with
    | nil =>
      rw [queryText_cons,List.flatMap_nil,List.append_nil]
      exact List.splitOnP_eq_singleton hi
    | cons j items =>
      have hq : queryText (i::j::items)=i.text++ '&'::queryText (j::items) := by
        rw [queryText_cons,queryText_cons,List.flatMap_cons]
        rfl
      rw [hq,encode_append,encode_cons,encodeChar_not_mem (by decide)]
      have hs := List.splitOnP_append_cons_of_forall_mem hi '&' (by decide)
        (encode querySet (queryText (j::items)))
      rw [List.singleton_append,hs,ih (by simp) (fun x hx => h x (List.mem_cons_of_mem _ hx))]
      rfl

/-- Text whose percent and plus signs are escaped is read back from a query. -/
theorem readForm_encoded {first : Char → Bool} {text : List Char}
    (hpercent : '%' ∈ text → first '%'=true) (hplus : '+' ∈ text → first '+'=true)
    (repair : List UInt8 → List Char) :
    readForm repair (encode querySet (encode first text))=text := by
  have hw : encode querySet (encode first text)=encode (fun c => first c || querySet c) text :=
    encode_encode (fun c hc => querySet_escape hc) text
  have hno : ∀ c ∈ encode (fun c => first c || querySet c) text,
      (if c = '+' then ' ' else c)=c := by
    intro c hc
    refine if_neg (fun he => ?_)
    subst he
    rcases mem_encode hc with he | ht
    · exact absurd he (by decide)
    · rw [hplus ht.1] at ht
      exact absurd ht.2 (by decide)
  have hb : bytes (encode (fun c => first c || querySet c) text)=
      text.flatMap String.utf8EncodeChar :=
    bytes_encode (fun hm => by rw [hpercent hm]; rfl)
  rw [hw,readForm,List.map_congr_left hno,List.map_id',hb,utf8_encoded]
  rfl

/-- Text without percent and plus signs is read back from a query. -/
theorem readForm_plain {text : List Char} (hpercent : '%' ∉ text) (hplus : '+' ∉ text)
    (repair : List UInt8 → List Char) : readForm repair (encode querySet text)=text := by
  have h : readForm repair (encode querySet (encode (fun _ => false) text))=text :=
    readForm_encoded (fun hm => absurd hm hpercent) (fun hm => absurd hm hplus) repair
  rwa [encode_eq_self (fun _ _ => rfl)] at h

/-- The names and values of a query are read back. -/
theorem formEntries_query {items : List Item} (repair : List UInt8 → List Char)
    (hname : ∀ i ∈ items,i.1≠[] ∧ '=' ∉ i.1) (h : ∀ i ∈ items,'&' ∉ i.text) :
    formEntries repair (encode querySet (queryText items))=items.map (fun i =>
      (readForm repair (encode querySet i.1),
        readForm repair (encode querySet (i.2.getD [])))) := by
  by_cases hne : items=[]
  · subst hne
    rfl
  have hcut : ∀ i ∈ items,cutFirst '=' (encode querySet i.text)=
      (encode querySet i.1,i.2.map (encode querySet)) := by
    intro i hi
    rw [Item.text,encode_append,encode_marked (by decide)]
    exact Address.cutFirst_marked (fun hm => (hname i hi).2 (mem_of_mem_encode (by decide) hm)) _
  have hkeep : ∀ t ∈ items.map (fun i => encode querySet i.text),decide (t≠[])=true := by
    intro t ht
    obtain ⟨i,hi,rfl⟩ := List.mem_map.mp ht
    refine decide_eq_true (fun he => ?_)
    have hc := hcut i hi
    rw [he,cutFirst,Prod.mk.injEq] at hc
    exact encode_ne_nil (hname i hi).1 hc.1.symm
  rw [formEntries,split_query hne h,List.filter_eq_self.mpr hkeep,List.map_map]
  refine List.map_congr_left (fun i hi => ?_)
  change (readForm repair (cutFirst '=' (encode querySet i.text)).1,_)=_
  rw [hcut i hi]
  cases hv : i.2 with
  | none => simp [hcut i hi,hv,encode]
  | some v => simp [hcut i hi,hv]

end SpiritMysql.UrlRules
