import Mathlib.Algebra.Order.Ring.Rat
import Mathlib.Algebra.Order.Monoid.Unbundled.WithTop
import Mathlib.Tactic.Common

/-!
# Data source names

The fields of `Dsn`, the name `#updateNameAndHash()` prints, and the hashes of
the name that the pool uses as keys.
-/

namespace SpiritMysql.DsnName

/-- A JavaScript number other than `NaN`. -/
structure JsNumber where
  /-- The value that comparisons use; the top element is `Infinity`. -/
  value : WithTop ℚ
  /-- The text the number is printed as. -/
  text : String
deriving DecidableEq

/-- A whole number. -/
def JsNumber.ofNat (n : ℕ) : JsNumber := ⟨((n : ℚ) : WithTop ℚ),toString n⟩

/-- `DsnCompress`. -/
inductive DsnCompress where
  /-- `false`. -/
  | off
  /-- `true`. -/
  | best
  /-- `"zlib"`. -/
  | zlib
  /-- `"zstd"`. -/
  | zstd
  /-- `"zstd:N"`. -/
  | zstdLevel (level : ℕ)
deriving DecidableEq

/-- The value as `compress=` prints it. -/
def DsnCompress.param : DsnCompress → String
  | .off => ""
  | .best => "&compress"
  | .zlib => "&compress=zlib"
  | .zstd => "&compress=zstd"
  | .zstdLevel level => "&compress=zstd:"++toString level

/-- The fields of `Dsn`. A number that is not given, which the source has as
`NaN`, is `none`. -/
structure Dsn where
  hostname : String
  port : JsNumber
  username : String
  password : String
  schema : String
  pipe : String
  connectionTimeout : Option JsNumber
  reconnectInterval : Option JsNumber
  keepAliveTimeout : Option JsNumber
  keepAliveMax : Option JsNumber
  maxConns : Option JsNumber
  maxColumnLen : Option JsNumber
  foundRows : Bool
  ignoreSpace : Bool
  multiStatements : Bool
  retryLockWaitTimeout : Bool
  retryQueryTimes : Option JsNumber
  jsonAsString : Bool
  datesAsString : Bool
  correctDates : Bool
  storeResultsetIfBigger : Option JsNumber
  allowPublicKeyRetrieval : Bool
  serverPublicKey : String
  allowCleartextPasswords : Bool
  compress : DsnCompress
  tls : Bool
  tlsCaCert : String
  tlsHostname : String
  initSql : String
deriving DecidableEq

/-- One step of the reflected CRC-32 register. -/
def crcBit (crc : BitVec 32) : BitVec 32 :=
  if crc.getLsbD 0=true then (crc >>> 1) ^^^ 0xEDB88320#32 else crc >>> 1

/-- The register after one byte. -/
def crcByte (crc : BitVec 32) (byte : UInt8) : BitVec 32 :=
  crcBit (crcBit (crcBit (crcBit (crcBit (crcBit (crcBit (crcBit
    (crc ^^^ byte.toBitVec.setWidth 32))))))))

/-- `crc32()`: the standard CRC-32 of the UTF-8 bytes of a string. -/
def crc32 (text : String) : BitVec 32 :=
  ~~~(text.toUTF8.toList.foldl crcByte 0xFFFFFFFF#32)

example : crc32 "123456789"=0xCBF43926#32 := by decide +kernel

/-- A hexadecimal digit as `encodeURIComponent()` writes it. -/
def hexDigit (n : ℕ) : Char := "0123456789ABCDEF".toList.getD n '0'

/-- The characters that `encodeURIComponent()` keeps. -/
def isUnreserved (c : Char) : Bool := c.isAlphanum || "-_.!~*'()".toList.contains c

/-- `encodeURIComponent()` of one character. -/
def encodeChar (c : Char) : List Char :=
  if isUnreserved c=true then [c]
  else (String.singleton c).toUTF8.toList.flatMap
    (fun b => ['%',hexDigit (b.toNat/16),hexDigit (b.toNat%16)])

/-- `encodeURIComponent()`. -/
def encodeURIComponent (text : String) : String := String.ofList (text.toList.flatMap encodeChar)

/-- A number parameter, when it is given. -/
def numberParam (name : String) : Option JsNumber → String
  | some n => "&"++name++"="++n.text
  | none => ""

/-- A flag parameter, when it is set. -/
def flagParam (name : String) (value : Bool) : String := if value=true then "&"++name else ""

/-- A text parameter, when it is not empty. -/
def textParam (name value : String) : String :=
  if value="" then "" else "&"++name++"="++encodeURIComponent value

/-- The parameters as `#updateNameAndHash()` concatenates them. -/
def Dsn.params (d : Dsn) : String :=
  numberParam "connectionTimeout" d.connectionTimeout++
  numberParam "reconnectInterval" d.reconnectInterval++
  numberParam "keepAliveTimeout" d.keepAliveTimeout++
  numberParam "keepAliveMax" d.keepAliveMax++
  numberParam "maxConns" d.maxConns++
  numberParam "maxColumnLen" d.maxColumnLen++
  flagParam "foundRows" d.foundRows++
  flagParam "ignoreSpace" d.ignoreSpace++
  flagParam "multiStatements" d.multiStatements++
  flagParam "retryLockWaitTimeout" d.retryLockWaitTimeout++
  numberParam "retryQueryTimes" d.retryQueryTimes++
  flagParam "jsonAsString" d.jsonAsString++
  flagParam "datesAsString" d.datesAsString++
  flagParam "correctDates" d.correctDates++
  numberParam "storeResultsetIfBigger" d.storeResultsetIfBigger++
  flagParam "allowPublicKeyRetrieval" d.allowPublicKeyRetrieval++
  textParam "serverPublicKey" d.serverPublicKey++
  flagParam "allowCleartextPasswords" d.allowCleartextPasswords++
  d.compress.param++
  flagParam "tls" d.tls++
  textParam "tlsCaCert" d.tlsCaCert++
  textParam "tlsHostname" d.tlsHostname

/-- The user part of the name. A password is printed as a fixed word. -/
def Dsn.userPart (d : Dsn) : String :=
  if d.username="" then "" else if d.password="" then d.username++"@" else d.username++":hidden@"

/-- The name before the schema. -/
def Dsn.name0 (d : Dsn) : String :=
  "mysql://"++d.userPart++
  (if d.hostname.toList.contains ':'=true then "["++d.hostname++"]" else d.hostname)++
  (if d.port.value=((3306 : ℚ) : WithTop ℚ) then "" else ":"++d.port.text)++
  d.pipe++"/"

/-- The name after the schema. -/
def Dsn.name1 (d : Dsn) : String :=
  (if d.params="" then "" else "?"++String.ofList (d.params.toList.drop 1))++
  (if d.initSql="" then "" else "#"++encodeURIComponent d.initSql)

/-- `Dsn.name`. -/
def Dsn.name (d : Dsn) : String := d.name0++d.schema++d.name1

/-- `Dsn.hash`. -/
@[irreducible] def Dsn.hash (d : Dsn) : BitVec 32 := crc32 d.name

/-- `Dsn.hashNoSchema`. -/
@[irreducible] def Dsn.hashNoSchema (d : Dsn) : BitVec 32 := crc32 (d.name0++d.name1)

/-- Names that are printed alike have one hash. -/
theorem Dsn.hash_of_name {a b : Dsn} (h : a.name=b.name) : a.hash=b.hash := by
  unfold Dsn.hash
  rw [h]

/-- The two names differ in the schema at most. -/
def Dsn.SameButSchema (a b : Dsn) : Prop := {a with schema := b.schema}=b

/-- Everything but the schema is the same in a name and itself. -/
theorem Dsn.SameButSchema.refl (a : Dsn) : a.SameButSchema a := rfl

/-- Differing in the schema only is transitive. -/
theorem Dsn.SameButSchema.trans {a b c : Dsn} (hab : a.SameButSchema b) (hbc : b.SameButSchema c) :
    a.SameButSchema c := by
  unfold Dsn.SameButSchema at hab hbc ⊢
  rw [←hbc,←hab]

/-- The printed name has no more of the password than whether there is one. -/
theorem Dsn.name_password (d : Dsn) {password : String} (h : d.password≠"")
    (hp : password≠"") : Dsn.name {d with password := password}=d.name := by
  have hu : Dsn.userPart {d with password := password}=d.userPart := by
    simp only [Dsn.userPart,if_neg h,if_neg hp]
  have h0 : Dsn.name0 {d with password := password}=d.name0 := by
    simp only [Dsn.name0]
    rw [hu]
  simp only [Dsn.name]
  rw [h0]
  rfl

end SpiritMysql.DsnName
