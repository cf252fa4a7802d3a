import SpiritMysql.DsnName
import SpiritMysql.UrlReading

/-!
# Parsing data source names

The constructor of `Dsn` that takes a string, and the property setters. What the language's
runtime does with hosts, malformed UTF-8 and numbers is a parameter.
-/

namespace SpiritMysql.DsnParse

open DsnName PercentCoding UrlRules

/-- The value of a JavaScript number. -/
inductive JsValue where
  /-- `NaN`. -/
  | nan
  /-- `-Infinity`. -/
  | minusInfinity
  /-- Any other number. -/
  | number (n : JsNumber)
deriving DecidableEq

/-- What the runtime of the language does. -/
structure Runtime where
  /-- The parser of hosts in `URL`. -/
  host : List Char → Option (List Char)
  /-- What malformed UTF-8 of a query is read as. -/
  repair : List UInt8 → List Char
  /-- `Number()` of a string. -/
  number : List Char → JsValue
  /-- `Math.round()`. -/
  round : JsNumber → JsNumber

/-- The characters that numbers are printed with. -/
def isNumberChar (c : Char) : Bool := c.isAlphanum || "+-.".toList.contains c

/-- A host as it is printed, and how it is written in brackets when it has colons. -/
def printedHost (hostname : List Char) : List Char :=
  if ':' ∈ hostname then '['::(hostname++[']']) else hostname

/-- A character of a host. -/
def isHostChar (c : Char) : Bool := !endsAuthority c && c != '@' && !isTabOrNewline c

/-- What the runtime promises. -/
structure Runtime.Lawful (R : Runtime) : Prop where
  /-- A parsed host is parsed to itself. -/
  host_again : ∀ text host,R.host text=some host → R.host host=some host
  /-- A parsed host is not empty and has no characters that end it. -/
  host_chars : ∀ text host,R.host text=some host →
    host≠[] ∧ ∀ c ∈ host,isHostChar c=true
  /-- A parsed host is in brackets when it has colons, and only then. -/
  host_colon : ∀ text host,R.host text=some host →
    (∀ c ∈ host,c ≠ ':' ∧ c ≠ '[' ∧ c ≠ ']') ∨
      ∃ inner,host= '['::(inner++[']']) ∧ ':' ∈ inner ∧ ∀ c ∈ inner,c ≠ '[' ∧ c ≠ ']'
  /-- A number is read from what it is printed as. -/
  number_again : ∀ text n,R.number text=.number n → R.number n.text.toList=.number n
  /-- A number is printed with the characters of numbers. -/
  number_chars : ∀ text n,R.number text=.number n → ∀ c ∈ n.text.toList,isNumberChar c=true
  /-- Something is printed of a number. -/
  number_ne : ∀ text n,R.number text=.number n → n.text≠""
  /-- Whole numbers are read from their decimal digits. -/
  number_whole : ∀ k ≤ 65535,R.number (Nat.toDigits 10 k)=.number (JsNumber.ofNat k)
  /-- There is one zero. -/
  number_zero : ∀ text n,R.number text=.number n → n.value=((0 : ℚ) : WithTop ℚ) →
    n=JsNumber.ofNat 0
  /-- A rounded number is a number. -/
  round_number : ∀ text n,R.number text=.number n →
    R.number (R.round n).text.toList=.number (R.round n)
  /-- A rounded number is whole. -/
  round_again : ∀ n,R.round (R.round n)=R.round n
  /-- Zero is whole. -/
  round_zero : R.round (JsNumber.ofNat 0)=JsNumber.ofNat 0

/-- A number as a setter gets it: with the text it is printed as. -/
structure Runtime.Value (R : Runtime) where
  /-- The number. -/
  value : JsValue
  /-- It is read from its text. -/
  printed : ∀ n,value=.number n → R.number n.text.toList=.number n

/-- A whole number as a value of numbers. -/
def whole (k : ℕ) : WithTop ℚ := ((k : ℚ) : WithTop ℚ)

/-- `Math.max(low, value)`. -/
def JsValue.atLeast (low : ℕ) : JsValue → Option JsNumber
  | .nan => none
  | .minusInfinity => some (JsNumber.ofNat low)
  | .number n => some (if n.value < whole low then JsNumber.ofNat low else n)

/-- `value>=0 ? value : NaN`. -/
def JsValue.nonNegative : JsValue → Option JsNumber
  | .number n => if whole 0 ≤ n.value then some n else none
  | _ => none

/-- `value || 0`. -/
def JsValue.orZero : JsValue → JsValue
  | .nan => .number (JsNumber.ofNat 0)
  | .minusInfinity => .minusInfinity
  | .number n => if n.value=whole 0 then .number (JsNumber.ofNat 0) else .number n

/-- `!value || !isFinite(value) ? 3306 : value`. -/
def JsValue.orDefaultPort : JsValue → JsNumber
  | .number n => if n.value=whole 0 ∨ n.value=⊤ then JsNumber.ofNat 3306 else n
  | _ => JsNumber.ofNat 3306

/-- `Math.round()`. -/
def Runtime.roundValue (R : Runtime) : JsValue → JsValue
  | .number n => .number (R.round n)
  | value => value

/-- Whitespace and line terminators. -/
def isSpace (c : Char) : Bool :=
  "\t\n\x0b\x0c\r \u00a0\u1680\u2028\u2029\u202f\u205f\u3000\ufeff".toList.contains c ||
    decide (0x2000 ≤ c.toNat) && decide (c.toNat ≤ 0x200a)

/-- `trim()`. -/
def trim (text : List Char) : List Char := (text.dropWhile isSpace).rdropWhile isSpace

/-- What is trimmed from the end of a key. -/
def isKeyEnd (c : Char) : Bool := c == '\x00' || c == '\r' || c == '\n'

/-- `indexOf(c, first)`. -/
def indexOf (c : Char) (first : ℕ) (text : List Char) : Option ℕ :=
  ((text.drop first).findIdx? (· == c)).map (· + first)

/-- `lastIndexOf(c, last-1)`. -/
def lastIndexOf (c : Char) (last : ℕ) (text : List Char) : Option ℕ :=
  ((text.take last).reverse.findIdx? (· == c)).map (fun i => (text.take last).length-1-i)

/-- `publicKeyExtractBase64()`. -/
def publicKeyExtractBase64 (publicKey : List Char) : List Char :=
  let last := (publicKey.rdropWhile isKeyEnd).length
  if "-----BEGIN".toList <+: publicKey then
    match indexOf '\n' 10 publicKey,lastIndexOf '\n' last publicKey with
    | some first,some position =>
      let position2 := if publicKey[position-1]? = some '\r' then position-1 else position
      (publicKey.take position2).drop (first+1)
    | _,_ => publicKey.take last
  else publicKey.take last

/-- The key as it is kept: without armor and whitespace. -/
def normalizeKey (publicKey : List Char) : List Char :=
  (publicKeyExtractBase64 publicKey).filter (fun c => !isSpace c)

/-- What the constructor and the setters throw. -/
inductive DsnError where
  /-- An empty string. -/
  | noString
  /-- Another protocol. -/
  | protocol (dsn : String)
  /-- `URL` did not take the string. -/
  | invalidUrl
  /-- `decodeURIComponent()` did not take a part. -/
  | malformedUri
  /-- The compression is not known. -/
  | compress (value : String)
deriving DecidableEq

/-- The text of an error that the source makes. -/
def DsnError.message : DsnError → Option String
  | .noString => some "No DSN string provided"
  | .protocol dsn => some ("Protocol not supported: "++dsn)
  | .invalidUrl => none
  | .malformedUri => none
  | .compress value => some ("Invalid \"compress\" value: "++value++
      ". Can be \"zlib\", \"zstd\" or \"zstd:N\", where N is the zstd compression level (1 - 22)")

/-- A value for `compress`. -/
inductive CompressValue where
  /-- A boolean. -/
  | flag (value : Bool)
  /-- A string. -/
  | text (value : List Char)

/-- The level, if the number is a whole one from 1 to 22. -/
def JsValue.level : JsValue → Option ℕ
  | .number n => (List.range' 1 22).find? (fun k => n.value=whole k)
  | _ => none

/-- `parseCompress()`. -/
def parseCompress (R : Runtime) : CompressValue → Except DsnError DsnCompress
  | .flag value => .ok (if value=true then .best else .off)
  | .text value =>
    if value=[] then .ok .best
    else if value="zlib".toList then .ok .zlib
    else if value="zstd".toList then .ok .zstd
    else if "zstd:".toList <+: value then
      match (R.number (value.drop 5)).level with
      | some level => .ok (.zstdLevel level)
      | none => .error (.compress (String.ofList value))
    else .error (.compress (String.ofList value))

/-- `wantUrlDecodeUsername`: if `URL` keeps a name percent-encoded. -/
def wantUrlDecodeUsername : Bool := (encode userinfoSet [ 'ф']).head? == some '%'

/-- `wantUrlDecodePassword`. -/
def wantUrlDecodePassword : Bool := (encode userinfoSet [ 'ф']).head? == some '%'

/-- `wantUrlDecodePathname`. -/
def wantUrlDecodePathname : Bool := ((pathname [ '/','ф']).drop 1).head? == some '%'

/-- `decodeURIComponent()`. -/
def decodeURIComponent (text : List Char) : Except DsnError (List Char) :=
  match decode text with
  | some text => .ok text
  | none => .error .malformedUri

/-- `decodeURIComponent()` if the runtime does not decode. -/
def decodeIf (want : Bool) (text : List Char) : Except DsnError (List Char) :=
  if want=true then decodeURIComponent text else .ok text

/-- A host without brackets. -/
def unbracket (hostname : List Char) : List Char :=
  if hostname.head? = some '[' ∧ hostname.getLast? = some ']' then (hostname.drop 1).dropLast
  else hostname

/-- The port of a URL. -/
def urlPort (R : Runtime) : Option ℕ → JsNumber
  | none => JsNumber.ofNat 3306
  | some port =>
    match R.number (Nat.toDigits 10 port) with
    | .number n => if n.value=whole 0 then JsNumber.ofNat 3306 else n
    | _ => JsNumber.ofNat 3306

/-- The path, and the name after the last slash. -/
def cutPath (path : List Char) : List Char × List Char :=
  (cutLast '/' path).getD (path.dropLast,path)

/-- The parameters of a URL. -/
abbrev SearchParams := List (List Char × List Char)

/-- `searchParams.get()`. -/
def get (params : SearchParams) (name : String) : Option (List Char) := params.lookup name.toList

/-- A parameter that is given: `text!=null ? Math.max(low, Number(text)) : NaN`. -/
def givenNumber (R : Runtime) (low : ℕ) (text : Option (List Char)) : Option JsNumber :=
  text.bind (fun text => (R.number text).atLeast low)

/-- A parameter that is not empty: `text ? Math.max(low, Number(text)) : NaN`. -/
def truthyNumber (R : Runtime) (low : ℕ) (text : Option (List Char)) : Option JsNumber :=
  text.bind (fun text => if text=[] then none else (R.number text).atLeast low)

/-- `new URL()` of a string with another protocol. -/
def parseUrl (R : Runtime) (dsn : String) : Except DsnError Parts :=
  if dsn="" then .error .noString
  else
    match cutFirst ':' dsn.toList with
    | (scheme,some rest) =>
      if scheme.map Char.toLower="mysql".toList then
        match UrlRules.parse R.host 80 rest with
        | some url => .ok url
        | none => .error .invalidUrl
      else .error (.protocol dsn)
    | (_,none) => .error (.protocol dsn)

/-- `serverPublicKey` of the parameters. A space is an unescaped plus sign. -/
def parseKey (text : Option (List Char)) : List Char :=
  match text with
  | none => []
  | some text =>
    if text=[] then [] else normalizeKey (text.map (fun c => if c = ' ' then '+' else c))

/-- `compress` of the parameters. -/
def readCompress (R : Runtime) (params : SearchParams) : Except DsnError DsnCompress :=
  match get params "compress" with
  | none => .ok .off
  | some text => parseCompress R (.text text)

/-- The fields from the parameters and the decoded parts of a URL. -/
def urlFields (R : Runtime) (url : Parts) (username password path initSql : List Char)
    (compress : DsnCompress) : Dsn :=
  let params := formEntries R.repair url.query
  let tlsCaCert := (get params "tlsCaCert").getD []
  let tlsHostname := (get params "tlsHostname").getD []
  { hostname := String.ofList (unbracket url.hostname)
    port := urlPort R url.port
    username := String.ofList username
    password := String.ofList password
    pipe := String.ofList (cutPath path).1
    schema := String.ofList (cutPath path).2
    connectionTimeout := givenNumber R 0 (get params "connectionTimeout")
    reconnectInterval := truthyNumber R 0 (get params "reconnectInterval")
    keepAliveTimeout := truthyNumber R 0 (get params "keepAliveTimeout")
    keepAliveMax := (get params "keepAliveMax").bind (fun text =>
      if text=[] then none else (R.roundValue (R.number text)).atLeast 0)
    maxConns := truthyNumber R 1 (get params "maxConns")
    maxColumnLen := truthyNumber R 1 (get params "maxColumnLen")
    foundRows := (get params "foundRows").isSome
    ignoreSpace := (get params "ignoreSpace").isSome
    multiStatements := (get params "multiStatements").isSome
    retryLockWaitTimeout := (get params "retryLockWaitTimeout").isSome
    retryQueryTimes := givenNumber R 0 (get params "retryQueryTimes")
    jsonAsString := (get params "jsonAsString").isSome
    datesAsString := (get params "datesAsString").isSome
    correctDates := (get params "correctDates").isSome
    storeResultsetIfBigger := (get params "storeResultsetIfBigger").bind (fun text =>
      (R.number text).orZero.atLeast 0)
    allowPublicKeyRetrieval := (get params "allowPublicKeyRetrieval").isSome
    serverPublicKey := String.ofList (parseKey (get params "serverPublicKey"))
    allowCleartextPasswords := (get params "allowCleartextPasswords").isSome
    compress := compress
    tls := (get params "tls").isSome || tlsCaCert != [] || tlsHostname != []
    tlsCaCert := String.ofList tlsCaCert
    tlsHostname := String.ofList tlsHostname
    initSql := String.ofList (trim initSql) }

/-- The fields from a URL. -/
def fromUrl (R : Runtime) (url : Parts) : Except DsnError Dsn := do
  let username ← decodeIf wantUrlDecodeUsername url.username
  let password ← decodeIf wantUrlDecodePassword url.password
  let path ← decodeIf wantUrlDecodePathname url.pathname
  let compress ← readCompress R (formEntries R.repair url.query)
  let initSql ← decodeURIComponent url.fragment
  pure (urlFields R url username password path initSql compress)

/-- `new Dsn()` of a string. -/
def parse (R : Runtime) (dsn : String) : Except DsnError Dsn :=
  match parseUrl R dsn with
  | .error e => .error e
  | .ok url => fromUrl R url

/-- A property that is set. -/
inductive Setter (R : Runtime) where
  | hostname (value : String)
  | port (value : R.Value)
  | username (value : String)
  | password (value : String)
  | schema (value : String)
  | pipe (value : String)
  | connectionTimeout (value : R.Value)
  | reconnectInterval (value : R.Value)
  | keepAliveTimeout (value : R.Value)
  | keepAliveMax (value : R.Value)
  | maxConns (value : R.Value)
  | maxColumnLen (value : R.Value)
  | foundRows (value : Bool)
  | ignoreSpace (value : Bool)
  | multiStatements (value : Bool)
  | retryLockWaitTimeout (value : Bool)
  | retryQueryTimes (value : R.Value)
  | jsonAsString (value : Bool)
  | datesAsString (value : Bool)
  | correctDates (value : Bool)
  | storeResultsetIfBigger (value : R.Value)
  | allowPublicKeyRetrieval (value : Bool)
  | serverPublicKey (value : String)
  | allowCleartextPasswords (value : Bool)
  | compress (value : CompressValue)
  | tls (value : Bool)
  | tlsCaCert (value : String)
  | tlsHostname (value : String)
  | initSql (value : String)

/-- A pipe with a slash in front. -/
def withSlash (value : List Char) : List Char :=
  if value≠[] ∧ value.head? ≠ some '/' then '/'::value else value

/-- Set a property. -/
def assign {R : Runtime} (d : Dsn) : Setter R → Except DsnError Dsn
  | .hostname value => .ok {d with hostname := String.ofList (unbracket value.toList)}
  | .port value => .ok {d with port := value.value.orDefaultPort}
  | .username value => .ok {d with username := value}
  | .password value => .ok {d with password := value}
  | .schema value => .ok {d with schema := value}
  | .pipe value => .ok {d with pipe := String.ofList (withSlash value.toList)}
  | .connectionTimeout value => .ok {d with connectionTimeout := value.value.atLeast 0}
  | .reconnectInterval value => .ok {d with reconnectInterval := value.value.atLeast 0}
  | .keepAliveTimeout value => .ok {d with keepAliveTimeout := value.value.atLeast 0}
  | .keepAliveMax value => .ok {d with keepAliveMax := value.value.atLeast 0}
  | .maxConns value => .ok {d with maxConns := value.value.atLeast 1}
  | .maxColumnLen value => .ok {d with maxColumnLen := value.value.atLeast 1}
  | .foundRows value => .ok {d with foundRows := value}
  | .ignoreSpace value => .ok {d with ignoreSpace := value}
  | .multiStatements value => .ok {d with multiStatements := value}
  | .retryLockWaitTimeout value => .ok {d with retryLockWaitTimeout := value}
  | .retryQueryTimes value => .ok {d with retryQueryTimes := value.value.nonNegative}
  | .jsonAsString value => .ok {d with jsonAsString := value}
  | .datesAsString value => .ok {d with datesAsString := value}
  | .correctDates value => .ok {d with correctDates := value}
  | .storeResultsetIfBigger value =>
    .ok {d with storeResultsetIfBigger := value.value.nonNegative}
  | .allowPublicKeyRetrieval value => .ok {d with allowPublicKeyRetrieval := value}
  | .serverPublicKey value =>
    .ok {d with serverPublicKey := String.ofList (normalizeKey value.toList)}
  | .allowCleartextPasswords value => .ok {d with allowCleartextPasswords := value}
  | .compress value => (parseCompress R value).map (fun value => {d with compress := value})
  | .tls value => .ok {d with tls := value}
  | .tlsCaCert value => .ok {d with tlsCaCert := value, tls := d.tls || value != ""}
  | .tlsHostname value => .ok {d with tlsHostname := value, tls := d.tls || value != ""}
  | .initSql value => .ok {d with initSql := value}

/-- The object after a property was set. A setter that throws leaves it as it was. -/
def after {R : Runtime} (d : Dsn) (setter : Setter R) : Dsn :=
  match assign d setter with
  | .ok d => d
  | .error _ => d

/-- A name is parsed to the same fields, apart from the password, and printed again as it is. -/
def RoundTrips (R : Runtime) (d : Dsn) : Prop :=
  ∃ d',parse R d.name=.ok d' ∧ {d' with password := d.password}=d ∧ d'.name=d.name

end SpiritMysql.DsnParse
