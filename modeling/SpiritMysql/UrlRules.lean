import SpiritMysql.PercentCoding
import Mathlib.Data.List.DropRight

/-!
# Rules for web addresses

How the text after a scheme that needs a host, like `http:`, is split into parts, and what
is kept percent-encoded in each. The parser of hosts is a parameter.
-/

namespace SpiritMysql.UrlRules

open PercentCoding

/-- The parts of an address, percent-encoded. A port that is the default of the scheme is
left out. -/
structure Parts where
  /-- Before the first colon of the credentials. -/
  username : List Char
  /-- After that colon. -/
  password : List Char
  /-- As the parser of hosts gives it. -/
  hostname : List Char
  /-- The port, if it is not the default one. -/
  port : Option ℕ
  /-- Starts with a slash. -/
  pathname : List Char
  /-- After the question mark. -/
  query : List Char
  /-- After the number sign. -/
  fragment : List Char
deriving DecidableEq

/-- Control characters, and everything that is not ASCII. -/
def controlSet (c : Char) : Bool := c.toNat < 32 || 126 < c.toNat

/-- What is escaped in a fragment. -/
def fragmentSet (c : Char) : Bool := controlSet c || " \"<>`".toList.contains c

/-- What is escaped in a query. -/
def querySet (c : Char) : Bool := controlSet c || " \"#<>'".toList.contains c

/-- What is escaped in a path. -/
def pathSet (c : Char) : Bool := controlSet c || " \"#<>?^`\x7b\x7d".toList.contains c

/-- What is escaped in credentials. -/
def userinfoSet (c : Char) : Bool := pathSet c || "/:;=@[\\]|".toList.contains c

/-- What is cut off at both ends of an address. -/
def isBlank (c : Char) : Bool := c.toNat ≤ 32

/-- What is removed everywhere. -/
def isTabOrNewline (c : Char) : Bool := c == '\t' || c == '\n' || c == '\r'

/-- Slashes of both kinds. -/
def isSlash (c : Char) : Bool := c == '/' || c == '\\'

/-- What ends the part with credentials, host and port. -/
def endsAuthority (c : Char) : Bool := isSlash c || c == '?' || c == '#'

/-- The address without what is ignored. -/
def clean (text : List Char) : List Char :=
  (text.rdropWhile isBlank).filter (fun c => !isTabOrNewline c)

/-- The text before and after the first separator. -/
def cutFirst (sep : Char) : List Char → List Char × Option (List Char)
  | [] => ([],none)
  | c::rest =>
    if c=sep then ([],some rest) else (c::(cutFirst sep rest).1,(cutFirst sep rest).2)

/-- The text before and after the last separator. -/
def cutLast (sep : Char) : List Char → Option (List Char × List Char)
  | [] => none
  | c::rest =>
    match cutLast sep rest with
    | some (before,after) => some (c::before,after)
    | none => if c=sep then some ([],rest) else none

/-- The host, and the text after the first colon that is not in brackets. -/
def cutPort : Bool → List Char → List Char × Option (List Char)
  | _,[] => ([],none)
  | inside,c::rest =>
    if c = ':' ∧ inside=false then ([],some rest)
    else
      let cut := cutPort (c == '[' || inside && c != ']') rest
      (c::cut.1,cut.2)

/-- The port, if the text is one. -/
def readPort (default : ℕ) (text : List Char) : Option (Option ℕ) :=
  if text=[] then some none
  else if text.all Char.isDigit=true ∧ Nat.ofDigitChars 10 text 0 ≤ 65535 then
    let port := Nat.ofDigitChars 10 text 0
    some (if port=default then none else some port)
  else none

/-- The spellings of the segment that stands for the same directory. -/
def singleDots : List (List Char) := [".","%2e","%2E"].map String.toList

/-- The spellings of the segment that stands for the directory above. -/
def doubleDots : List (List Char) :=
  ["..",".%2e",".%2E","%2e.","%2E.","%2e%2e","%2e%2E","%2E%2e","%2E%2E"].map String.toList

/-- The path after one more segment. -/
def addSegment (path : List (List Char)) (segment : List Char) (last : Bool) : List (List Char) :=
  if segment ∈ doubleDots then path.dropLast++(if last=true then [[]] else [])
  else if segment ∈ singleDots then path++(if last=true then [[]] else [])
  else path++[segment]

/-- The path after several segments. -/
def addSegments : List (List Char) → List (List Char) → List (List Char)
  | path,[] => path
  | path,[segment] => addSegment path segment true
  | path,segment::next::rest => addSegments (addSegment path segment false) (next::rest)

/-- The text after the slash that a path starts with. -/
def afterSlash : List Char → List Char
  | [] => []
  | c::rest => if isSlash c=true then rest else c::rest

/-- The path as it is kept. -/
def pathname (text : List Char) : List Char :=
  (addSegments [] (((afterSlash text).splitOnP isSlash).map (encode pathSet))).flatMap
    (fun segment => '/'::segment)

/-- The parts of the text after the scheme. -/
def parse (host : List Char → Option (List Char)) (default : ℕ) (text : List Char) :
    Option Parts := do
  let text := (clean text).dropWhile isSlash
  let authority := text.takeWhile (fun c => !endsAuthority c)
  let rest := text.dropWhile (fun c => !endsAuthority c)
  let credentials := ((cutLast '@' authority).map Prod.fst).getD []
  let hostPort := ((cutLast '@' authority).map Prod.snd).getD authority
  let hostText := (cutPort false hostPort).1
  if hostText=[] then none
  else
    let hostname ← host hostText
    let port ← readPort default ((cutPort false hostPort).2.getD [])
    let beforeFragment := cutFirst '#' rest
    let beforeQuery := cutFirst '?' beforeFragment.1
    some {
      username := encode userinfoSet (cutFirst ':' credentials).1
      password := encode userinfoSet ((cutFirst ':' credentials).2.getD [])
      hostname := hostname
      port := port
      pathname := pathname beforeQuery.1
      query := encode querySet (beforeQuery.2.getD [])
      fragment := encode fragmentSet (beforeFragment.2.getD []) }

/-- The text of bytes of a form, where `repair` is what malformed UTF-8 is read as. -/
def readForm (repair : List UInt8 → List Char) (text : List Char) : List Char :=
  let bs := bytes (text.map (fun c => if c = '+' then ' ' else c))
  (utf8 bs).getD (repair bs)

/-- The names and values of a query. -/
def formEntries (repair : List UInt8 → List Char) (query : List Char) :
    List (List Char × List Char) :=
  ((query.splitOnP (· == '&')).filter (· ≠ [])).map (fun item =>
    (readForm repair (cutFirst '=' item).1,readForm repair ((cutFirst '=' item).2.getD [])))

end SpiritMysql.UrlRules
