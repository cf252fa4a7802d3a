import SpiritMysql.DsnName
import SpiritMysql.Protocol
import SpiritMysql.ReadScript
import SpiritMysql.SecretTerms
import SpiritMysql.Utf16Text

/-!
# The authentication

What `MyProtocol.inst()` does between the handshake packet and the first command:
the plugins, their tokens, and the packets that drive them. Hashes, signatures
and encryption are calls that are not looked into.
-/

namespace SpiritMysql.Auth

open AsyncAction Errors Protocol Reader ReadScript SecretTerms

/-- A key for the encryption: pinned in the DSN, or received from the server. -/
inductive Key where
  /-- `dsn.serverPublicKey`. -/
  | pinned (key : String)
  /-- What `publicKeyExtractBase64()` finds in the data of a packet. -/
  | received (data : List UInt8)
deriving DecidableEq, Repr

/-- The functions of the crypto libraries. -/
inductive Call where
  /-- SHA-1. -/
  | sha1
  /-- SHA-256. -/
  | sha256
  /-- PBKDF2 with SHA-512. -/
  | deriveBits (salt : List UInt8) (iterations : ℕ)
  /-- Ed25519: a seed signs a message. -/
  | ed25519Sign (message : List UInt8)
  /-- RSA-OAEP. -/
  | encrypt (key : Key)
deriving DecidableEq, Repr

/-- How a token is put into a packet. -/
inductive Field where
  /-- The length, length-encoded. -/
  | lenencLength
  /-- The length in one byte. -/
  | byteLength
  /-- The bytes up to a zero byte, that is appended when there is none. -/
  | shortNulBytes
deriving DecidableEq, Repr

/-- How bytes are computed from the password. -/
abbrev Token := Term Call Field

/-- What a field of a packet has. -/
def Field.bytes : Field → List UInt8 → List UInt8
  | .lenencLength,bs => lenenc bs.length
  | .byteLength,bs => [.ofNat bs.length]
  | .shortNulBytes,bs => bs.takeWhile (fun b => b≠0)++[0]

/-- The plugins. -/
inductive PluginName where
  | mysql_native_password | caching_sha2_password | sha256_password | mysql_clear_password
  | client_ed25519 | parsec
deriving DecidableEq, Repr

/-- The name of a plugin. -/
def PluginName.text : PluginName → String
  | .mysql_native_password => "mysql_native_password"
  | .caching_sha2_password => "caching_sha2_password"
  | .sha256_password => "sha256_password"
  | .mysql_clear_password => "mysql_clear_password"
  | .client_ed25519 => "client_ed25519"
  | .parsec => "parsec"

/-- `#state` of a plugin. -/
inductive Progress where
  | Initial | Encrypt | Done
deriving DecidableEq, Repr

/-- `AuthPlugin`. -/
structure AuthPlugin where
  /-- `name`. -/
  name : PluginName
  /-- `scramble`. -/
  scramble : List UInt8
  /-- `#state`. -/
  state : Progress := .Initial
deriving DecidableEq, Repr

/-- What one authentication has to do with. -/
structure Login where
  /-- The DSN. -/
  dsn : DsnName.Dsn
  /-- The password. -/
  password : List UInt16
  /-- What does not change while a connection lives. -/
  cfg : Config
  /-- `CLIENT_PLUGIN_AUTH_LENENC_CLIENT_DATA`. -/
  lenencClientData : Bool
  /-- `CLIENT_SECURE_CONNECTION`. -/
  secureConnection : Bool
  /-- `CLIENT_CONNECT_WITH_DB`. -/
  connectWithDb : Bool
  /-- The fields of the handshake response before the token. -/
  before : List UInt8
  /-- The fields after the token. -/
  after : List UInt8
  /-- What `crypto.getRandomValues()` gives. -/
  clientScramble : List UInt8
  /-- The text of a name that was read. -/
  decode : List UInt8 → String
  /-- What the view of the data of a packet shows after the next packet was read. -/
  viewLater : List UInt8 → List UInt8
  /-- What computing a token throws. -/
  problem : Token → Option Error

/-- A part of a packet that was sent. -/
structure Written where
  /-- The plugin in use. -/
  plugin : PluginName
  /-- How its bytes were computed. -/
  token : Token
deriving DecidableEq, Repr

/-- A packet whose type was read. -/
structure Seen where
  /-- The packet answers the response to an authentication switch, or comes after such. -/
  second : Bool
  /-- The plugin asked for the packet. -/
  more : Bool
  /-- The plugin, as it was. -/
  plugin : AuthPlugin
  /-- The data that the plugin had from the packet before. -/
  data : List UInt8
  /-- The type: the first byte. -/
  type : ℕ
  /-- The protocol after the type. -/
  proto : Protocol.State
deriving DecidableEq

/-- The state of an authentication. -/
structure State where
  /-- The protocol object. -/
  proto : Protocol.State
  /-- What was sent. -/
  written : List Written := []
  /-- A record for statements only: what was computed. -/
  computed : List Token := []
  /-- A record for statements only: the packets. -/
  seen : List Seen := []

/-- An operation of the authentication. -/
abbrev Auth (α : Type) := Act Error State α

variable (o : Login)

/-- Run an operation of the protocol. -/
def onProtocol {α : Type} (x : Proto α) : Auth α :=
  onPart State.proto (fun p s => {s with proto := p}) x

/-- Compute a token. -/
def compute (t : Token) : Auth Token := do
  modify fun s => {s with computed := s.computed++[t]}
  match o.problem t with
  | some e => fail e
  | none => return t

/-- Send a part of a packet. -/
def write (plugin : AuthPlugin) (t : Token) : Auth Unit :=
  modify fun s => {s with written := s.written++[⟨plugin.name,t⟩]}

/-- The transport cannot be eavesdropped. -/
def Login.isConnectionTrusted : Bool := decide (o.dsn.pipe≠"") || o.dsn.tls

/-- `encodeAppendZeroByte(password)`. -/
def zeroTerminated : Token := .append .secret (.bytes [0])

/-- `encryptPassword()`. -/
def encryptPassword (scramble : List UInt8) (key : Key) : Token :=
  .call (.encrypt key) (.xor zeroTerminated (.bytes scramble))

/-- `throwNoPublicKey()`. -/
def throwNoPublicKey {α : Type} (problem : String) : Auth α := fail (.error problem)

/-- `#assertCanGetPublicKey()`. -/
def assertCanGetPublicKey : Auth Unit :=
  if o.isConnectionTrusted=false ∧ o.dsn.serverPublicKey="" ∧ o.dsn.allowPublicKeyRetrieval=false then
    throwNoPublicKey "The server requested 'caching_sha2_password' authentication, that requires the server RSA public key when the password is not cached on the server side (like on the first connection after the server restart)"
  else pure ()

/-- The token of `mysql_native_password`. -/
def nativeToken (scramble : List UInt8) : Token :=
  let pwd1 := .call .sha1 .secret
  let pwd2 := .call .sha1 pwd1
  .xor (.call .sha1 (.append (.bytes scramble) pwd2)) pwd1

/-- The token of `caching_sha2_password`. -/
def cachingToken (scramble : List UInt8) : Token :=
  let stage1 := .call .sha256 .secret
  let stage2 := .call .sha256 stage1
  let stage3 := .call .sha256 (.append stage2 (.bytes scramble))
  .xor stage1 stage3

/-- The response of `parsec` to the extended salt. -/
def parsecToken (scramble salt : List UInt8) (iterations : ℕ) : Token :=
  let seed := .call (.deriveBits salt iterations) .secret
  let start := scramble.take 32
  let message := start++List.replicate (32-start.length) 0++o.clientScramble
  .append (.bytes o.clientScramble) (.call (.ed25519Sign message) seed)

/-- `quickAuth()`: the token, and the plugin as it is then. -/
def quickAuth (p : AuthPlugin) : Auth (Token×AuthPlugin) :=
  match p.name with
  | .mysql_native_password =>
    if o.password=[] then return (.bytes [],p)
    else return (←compute o (nativeToken p.scramble),p)
  | .caching_sha2_password =>
    if o.password=[] then return (.bytes [],p)
    else do
      assertCanGetPublicKey o
      return (←compute o (cachingToken p.scramble),p)
  | .sha256_password =>
    if o.password=[] then return (.bytes [],{p with state := .Done})
    else if o.isConnectionTrusted=true then return (zeroTerminated,{p with state := .Done})
    else if o.dsn.serverPublicKey≠"" then
      return (←compute o (encryptPassword p.scramble (.pinned o.dsn.serverPublicKey)),
        {p with state := .Done})
    else if o.dsn.allowPublicKeyRetrieval=false then
      throwNoPublicKey "The server requested 'sha256_password' authentication, that requires the server RSA public key"
    else return (.bytes [1],{p with state := .Encrypt})
  | .mysql_clear_password =>
    if o.isConnectionTrusted=false ∧ o.dsn.allowCleartextPasswords=false then
      fail (.error "The server requested 'mysql_clear_password' authentication, that sends the password in clear text, but the connection is not secure (TCP without TLS)")
    else return (zeroTerminated,p)
  | .client_ed25519 =>
    return (←compute o (.call (.ed25519Sign (p.scramble.take 32)) .secret),p)
  | .parsec => return (.bytes [],p)

/-- `authSendBytesPacket()` of a token that is computed, and then the plugin is done. -/
def sendToken (p : AuthPlugin) (t : Token) : Auth (Bool×AuthPlugin) := do
  write p (←compute o t)
  return (false,{p with state := .Done})

/-- `progress()` of `caching_sha2_password`. -/
def cachingProgress (p : AuthPlugin) (packetData : List UInt8) : Auth (Bool×AuthPlugin) :=
  match p.state with
  | .Initial =>
    if packetData.head?=some 3 then return (false,{p with state := .Done})
    else if packetData.head?=some 4 then
      if o.isConnectionTrusted=true then do
        write p zeroTerminated
        return (false,{p with state := .Done})
      else if o.dsn.serverPublicKey≠"" then
        sendToken o p (encryptPassword p.scramble (.pinned o.dsn.serverPublicKey))
      else do
        assertCanGetPublicKey o
        write p (.bytes [2])
        return (false,{p with state := .Encrypt})
    else fail (.error "Couldn't authenticate with this method")
  | .Encrypt => sendToken o p (encryptPassword p.scramble (.received packetData))
  | .Done => return (true,p)

/-- `progress()` of `sha256_password`. -/
def sha256Progress (p : AuthPlugin) (packetData : List UInt8) : Auth (Bool×AuthPlugin) :=
  match p.state with
  | .Initial => fail (.error "Couldn't authenticate with this method")
  | .Encrypt => sendToken o p (encryptPassword p.scramble (.received packetData))
  | .Done => return (true,p)

/-- `progress()` of `parsec`. -/
def parsecProgress (p : AuthPlugin) (packetData : List UInt8) : Auth (Bool×AuthPlugin) :=
  match p.state with
  | .Initial =>
    if packetData.length < 3 ∨ packetData.head?≠some 0x50 then
      fail (.error "Server sent invalid extended salt during 'parsec' authentication")
    else
      let iterFactor := (packetData.getD 1 0).toNat
      if 20 < iterFactor then
        fail (.error "Server requested too many PBKDF2 iterations during 'parsec' authentication")
      else sendToken o p (parsecToken o p.scramble (packetData.drop 2) (1024*2^iterFactor))
  | .Encrypt => fail (.error "Couldn't authenticate with this method")
  | .Done => return (true,p)

/-- `progress()`: whether the plugin needs no more packets, and the plugin as it is then. -/
def progress (p : AuthPlugin) (packetData : List UInt8) : Auth (Bool×AuthPlugin) :=
  match p.name with
  | .caching_sha2_password => cachingProgress o p packetData
  | .sha256_password => sha256Progress o p packetData
  | .parsec => parsecProgress o p packetData
  | .mysql_native_password => fail (.error "Not implemented")
  | .mysql_clear_password => fail (.error "Not implemented")
  | .client_ed25519 => fail (.error "Not implemented")

/-- `AuthPlugin.inst()`. -/
def inst (name : String) (scramble : List UInt8) : Auth AuthPlugin :=
  if name="mysql_native_password" then return ⟨.mysql_native_password,scramble,.Initial⟩
  else if name="caching_sha2_password" then return ⟨.caching_sha2_password,scramble,.Initial⟩
  else if name="sha256_password" then return ⟨.sha256_password,scramble,.Initial⟩
  else if name="mysql_clear_password" then return ⟨.mysql_clear_password,scramble,.Initial⟩
  else if name="client_ed25519" then return ⟨.client_ed25519,scramble,.Initial⟩
  else if name="parsec" then return ⟨.parsec,scramble,.Initial⟩
  else fail (.error ("Authentication plugin is not supported: "++name))

/-- The token in the handshake response. -/
def tokenFields (auth : Token) : List Token :=
  if o.cfg.capabilities.protocol41=true then
    if o.lenencClientData=true then [.apply .lenencLength auth,auth]
    else if o.secureConnection=true then [.apply .byteLength auth,auth]
    else [.apply .shortNulBytes auth]
  else if o.connectWithDb=true then [.apply .shortNulBytes auth]
  else [auth]

/-- Send some parts of a packet. -/
def writeAll (p : AuthPlugin) : List Token → Auth Unit
  | [] => pure ()
  | t::ts => do
    write p t
    writeAll p ts

/-- `#writeHandshakeResponse()`. -/
def writeHandshakeResponse (p : AuthPlugin) : Auth AuthPlugin := do
  let (auth,p) ← quickAuth o p
  writeAll p (.bytes o.before::tokenFields o auth++[.bytes o.after])
  return p

/-- `#writeAuthSwitchResponse()`. -/
def writeAuthSwitchResponse (p : AuthPlugin) : Auth AuthPlugin := do
  let (auth,p) ← quickAuth o p
  writeAll p [auth]
  return p

/-- `readShortNulBytes() ?? await readShortNulBytesAsync()`, also under the decoder. -/
def readShortNulBytes : Read (List UInt8) := fun s =>
  let value := s.rest.takeWhile (fun b => b≠0)
  if value.length < s.rest.length ∧ value.length < bufferLen then .done value (s.advance (value.length+1))
  else if bufferLen ≤ s.rest.length then
    .thrown (.error "String is too long for this operation. Longer than 8 kib") s
  else if s.closed=true then .thrown (.serverDisconnected "Lost connection to server") s
  else .waiting s

/-- The header and the type of a packet. -/
def readType (second more : Bool) (p : AuthPlugin) (data : List UInt8) : Auth ℕ := do
  let type ← onProtocol (read (do readPacketHeader; readUint8))
  modify fun s => {s with seen := s.seen++[⟨second,more,p,data,type,s.proto⟩]}
  return type

/-- `#readPacket()`. -/
def readPacket (second : Bool) (p : AuthPlugin) (data : List UInt8) : Auth ℕ := do
  let type ← readType second true p data
  onProtocol (readPacketBody o.cfg .REGULAR type)

/-- The loop that passes packets to the plugin. -/
def pluginLoop (second : Bool) : ℕ → AuthPlugin → List UInt8 → Auth Unit
  | 0,_,_ => wait
  | fuel+1,p,data => do
    let (ended,p) ← progress o p data
    if ended=true then return ()
    else do
      let type ← readPacket o second p data
      if type=0 then pluginLoop second fuel p (o.viewLater data)
      else do
        let data ← onProtocol (read readShortEofBytes)
        pluginLoop second fuel p data

/-- `#readAuthResponse()`. What is returned is the plugin to switch to. -/
def readAuthResponse (second : Bool) (p : AuthPlugin) : Auth (Option AuthPlugin) := do
  let type ← readType second false p []
  if type=0xFE then do
    let name ← onProtocol (read readShortNulBytes)
    let data ← onProtocol (read readShortEofBytes)
    return some (←inst (o.decode name) data)
  else if type=0 then do
    onProtocol (read gotoEndOfPacket)
    return none
  else if type=0xFF then onProtocol (readErr o.cfg)
  else if type=2 then
    fail (.error "This server uses multi-factor authentication, that is not supported by this client")
  else do
    let data ← onProtocol (read readShortEofBytes)
    pluginLoop o second 3 p data
    return none

/-- The part of `MyProtocol.inst()` from the handshake response to the end of the
authentication. -/
def authenticate (p : AuthPlugin) : Auth Unit := do
  let p ← writeHandshakeResponse o p
  let other ← readAuthResponse o false p
  match other with
  | none => return ()
  | some p => do
    let p ← writeAuthSwitchResponse o p
    let _ ← readAuthResponse o true p
    return ()

/-- The authentication with the plugin of the handshake packet. -/
def login (name : String) (scramble : List UInt8) : Auth Unit := do
  authenticate o (←inst name scramble)

end SpiritMysql.Auth
