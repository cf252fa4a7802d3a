import SpiritMysql.Auth

/-!
# The password on an untrusted transport

Whatever packets the server sends, the password itself is sent only by the plugin
that is there for this, when the DSN allows it, and a key that the server sent is
used only when the DSN allows it and pins no key. A plugin waits for a key only
in these cases, which is kept by every step.
-/

namespace SpiritMysql.Auth

open AsyncAction Errors Protocol Reader SecretTerms

variable {o : Login}

/-- A key from the server may be used. -/
def Login.MayReceive (o : Login) : Prop :=
  o.dsn.allowPublicKeyRetrieval=true ∧ o.dsn.serverPublicKey=""

/-- A plugin may send bytes that were computed so. -/
def MaySend (o : Login) (name : PluginName) (t : Token) : Prop :=
  o.isConnectionTrusted=false → t.direct=true →
    o.dsn.allowCleartextPasswords=true ∧ name=.mysql_clear_password

/-- Bytes may be computed so. -/
def MayCompute (o : Login) (t : Token) : Prop :=
  ∀ data,.encrypt (.received data) ∈ t.functions → o.MayReceive

/-- What was sent and computed so far was allowed. -/
structure Kept (o : Login) (s : State) : Prop where
  /-- What was sent. -/
  written : ∀ w ∈ s.written,MaySend o w.plugin w.token
  /-- What was computed. -/
  computed : ∀ t ∈ s.computed,MayCompute o t

/-- A plugin waits for a key only when it may be received. -/
def Waits (o : Login) (p : AuthPlugin) : Prop := p.state=.Encrypt → o.MayReceive

/-- What is guarded may be sent. -/
theorem maySend_guarded {name : PluginName} {t : Token} (h : t.direct=false) : MaySend o name t := by
  intro _ hd
  rw [h] at hd
  cases hd

/-- Operations of the protocol send nothing. -/
theorem ensures_onProtocol {α : Type} (x : Proto α) : Ensures (Kept o) (onProtocol x) fun _ => True := by
  intro s hs
  refine ⟨?_,fun _ _ _ => trivial⟩
  rw [onProtocol,onPart_apply]
  cases x s.proto with
  | done a t => exact ⟨hs.written,hs.computed⟩
  | thrown e t => exact ⟨hs.written,hs.computed⟩
  | waiting t => exact ⟨hs.written,hs.computed⟩

/-- A token is computed. -/
theorem ensures_compute {t : Token} (h : MayCompute o t) : Ensures (Kept o) (compute o t) fun u => u=t := by
  refine Ensures.bind (Q:=fun _ => True) (Ensures.modify ?_ trivial) ?_
  · intro s hs
    refine ⟨hs.written,?_⟩
    intro u hu
    rcases List.mem_append.mp hu with hu | hu
    · exact hs.computed u hu
    · rw [List.mem_singleton.mp hu]
      exact h
  · intro _ _
    cases o.problem t with
    | some e => exact Ensures.fail
    | none => exact Ensures.pure rfl

/-- A part of a packet is sent. -/
theorem ensures_write {p : AuthPlugin} {t : Token} (h : MaySend o p.name t) :
    Ensures (Kept o) (write p t) fun _ => True := by
  refine Ensures.modify ?_ trivial
  intro s hs
  refine ⟨?_,hs.computed⟩
  intro w hw
  rcases List.mem_append.mp hw with hw | hw
  · exact hs.written w hw
  · rw [List.mem_singleton.mp hw]
    exact h

/-- A token that calls no function with a received key. -/
theorem mayCompute_pinned {t : Token} (h : ∀ data,.encrypt (.received data) ∉ t.functions) :
    MayCompute o t := by
  intro data hd
  exact absurd hd (h data)

/-- The password, encrypted with a received key. -/
theorem mayCompute_received {scramble data : List UInt8} (h : o.MayReceive) :
    MayCompute o (encryptPassword scramble (.received data)) := fun _ _ => h

/-- What a plugin may use after it made its token. -/
def QuickResult (o : Login) (r : Token×AuthPlugin) : Prop :=
  MaySend o r.2.name r.1 ∧ Waits o r.2

/-- A plugin that is done waits for nothing. -/
theorem waits_done (p : AuthPlugin) : Waits o {p with state := .Done} := by
  intro h
  cases h

/-- A computed token is passed on. -/
theorem ensures_computed {t : Token} {p : AuthPlugin} (hc : MayCompute o t) (hd : t.direct=false)
    (hw : Waits o p) :
    Ensures (Kept o) (do return (←compute o t,p)) (QuickResult o) := by
  refine Ensures.bind (ensures_compute hc) ?_
  rintro u rfl
  exact Ensures.pure ⟨maySend_guarded hd,hw⟩

/-- Without the check, a plugin would ask for a key that it may not use. -/
theorem assertCanGetPublicKey_spec (s : State) :
    (∃ e,assertCanGetPublicKey o s=.thrown e s) ∨
      (assertCanGetPublicKey o s=.done () s ∧
        (o.isConnectionTrusted=false → o.dsn.serverPublicKey="" → o.MayReceive)) := by
  simp only [assertCanGetPublicKey,branch_apply]
  split
  · exact Or.inl ⟨_,rfl⟩
  · rename_i h
    refine Or.inr ⟨rfl,?_⟩
    intro ht hk
    refine ⟨?_,hk⟩
    cases ha : o.dsn.allowPublicKeyRetrieval with
    | true => rfl
    | false => exact absurd ⟨ht,hk,ha⟩ h

/-- The check of a plugin. -/
theorem ensures_assert : Ensures (Kept o) (assertCanGetPublicKey o)
    fun _ => o.isConnectionTrusted=false → o.dsn.serverPublicKey="" → o.MayReceive := by
  intro s hs
  rcases assertCanGetPublicKey_spec s with ⟨e,he⟩ | ⟨he,hm⟩
  · rw [he]
    exact ⟨hs,fun _ _ h => by cases h⟩
  · rw [he]
    exact ⟨hs,fun _ _ _ => hm⟩

/-- Tokens may be sent. -/
theorem ensures_quickAuth {p : AuthPlugin} (hp : Waits o p) :
    Ensures (Kept o) (quickAuth o p) (QuickResult o) := by
  have hempty : ∀ q : AuthPlugin,Waits o q → QuickResult o (.bytes [],q) :=
    fun q hq => ⟨maySend_guarded rfl,hq⟩
  simp only [quickAuth]
  cases hn : p.name with
  | mysql_native_password =>
    refine Ensures.ite (Ensures.pure (hempty p hp)) (ensures_computed ?_ rfl hp)
    exact mayCompute_pinned (by simp [nativeToken,Term.functions])
  | caching_sha2_password =>
    refine Ensures.ite (Ensures.pure (hempty p hp)) (Ensures.bind ensures_assert ?_)
    intro _ _
    refine ensures_computed ?_ rfl hp
    exact mayCompute_pinned (by simp [cachingToken,Term.functions])
  | sha256_password =>
    refine Ensures.ite (Ensures.pure (hempty _ (waits_done p))) ?_
    by_cases ht : o.isConnectionTrusted=true
    · rw [if_pos ht]
      refine Ensures.pure ⟨?_,waits_done p⟩
      intro hf
      rw [ht] at hf
      cases hf
    · rw [if_neg ht]
      by_cases hk : o.dsn.serverPublicKey≠""
      · rw [if_pos hk]
        refine ensures_computed ?_ rfl (waits_done p)
        exact mayCompute_pinned (by simp [encryptPassword,zeroTerminated,Term.functions])
      · rw [if_neg hk]
        by_cases ha : o.dsn.allowPublicKeyRetrieval=false
        · rw [if_pos ha]
          exact Ensures.fail
        · rw [if_neg ha]
          refine Ensures.pure ⟨maySend_guarded rfl,?_⟩
          intro _
          exact ⟨Bool.eq_true_of_not_eq_false ha,not_not.mp hk⟩
  | mysql_clear_password =>
    by_cases hc : o.isConnectionTrusted=false ∧ o.dsn.allowCleartextPasswords=false
    · rw [if_pos hc]
      exact Ensures.fail
    · rw [if_neg hc]
      refine Ensures.pure ⟨?_,hp⟩
      intro ht _
      refine ⟨?_,hn⟩
      cases ha : o.dsn.allowCleartextPasswords with
      | true => rfl
      | false => exact absurd ⟨ht,ha⟩ hc
  | client_ed25519 =>
    refine ensures_computed ?_ rfl hp
    exact mayCompute_pinned (by simp [Term.functions])
  | parsec => exact Ensures.pure (hempty p hp)

/-- A token is computed and sent. -/
theorem ensures_sendToken {p : AuthPlugin} {t : Token} (hc : MayCompute o t) (hd : t.direct=false) :
    Ensures (Kept o) (sendToken o p t) fun r => Waits o r.2 := by
  refine Ensures.bind (ensures_compute hc) ?_
  rintro u rfl
  refine Ensures.bind (ensures_write (maySend_guarded hd)) ?_
  intro _ _
  exact Ensures.pure (waits_done p)

/-- The password, encrypted, is guarded. -/
theorem direct_encryptPassword (scramble : List UInt8) (key : Key) :
    (encryptPassword scramble key).direct=false := rfl

/-- The password, encrypted with the pinned key. -/
theorem mayCompute_encryptPinned (scramble : List UInt8) (key : String) :
    MayCompute o (encryptPassword scramble (.pinned key)) :=
  mayCompute_pinned (by simp [encryptPassword,zeroTerminated,Term.functions])

/-- `caching_sha2_password` keeps to what is allowed. -/
theorem ensures_cachingProgress {p : AuthPlugin} {data : List UInt8} (hp : Waits o p) :
    Ensures (Kept o) (cachingProgress o p data) fun r => Waits o r.2 := by
  simp only [cachingProgress]
  cases hs : p.state with
  | Initial =>
    simp only
    refine Ensures.ite (Ensures.pure (waits_done p)) ?_
    refine Ensures.ite ?_ Ensures.fail
    by_cases ht : o.isConnectionTrusted=true
    · rw [if_pos ht]
      refine Ensures.bind (ensures_write ?_) fun _ _ => Ensures.pure (waits_done p)
      intro hf
      rw [ht] at hf
      cases hf
    · rw [if_neg ht]
      by_cases hk : o.dsn.serverPublicKey≠""
      · rw [if_pos hk]
        exact ensures_sendToken (mayCompute_encryptPinned _ _) (direct_encryptPassword _ _)
      · rw [if_neg hk]
        refine Ensures.bind ensures_assert ?_
        intro _ hm
        refine Ensures.bind (ensures_write (maySend_guarded rfl)) ?_
        intro _ _
        refine Ensures.pure ?_
        intro _
        exact hm (Bool.eq_false_of_not_eq_true ht) (not_not.mp hk)
  | Encrypt => exact ensures_sendToken (mayCompute_received (hp hs)) (direct_encryptPassword _ _)
  | Done => exact Ensures.pure hp

/-- `sha256_password` keeps to what is allowed. -/
theorem ensures_sha256Progress {p : AuthPlugin} {data : List UInt8} (hp : Waits o p) :
    Ensures (Kept o) (sha256Progress o p data) fun r => Waits o r.2 := by
  simp only [sha256Progress]
  cases hs : p.state with
  | Initial => exact Ensures.fail
  | Encrypt => exact ensures_sendToken (mayCompute_received (hp hs)) (direct_encryptPassword _ _)
  | Done => exact Ensures.pure hp

/-- `parsec` keeps to what is allowed. -/
theorem ensures_parsecProgress {p : AuthPlugin} {data : List UInt8} (hp : Waits o p) :
    Ensures (Kept o) (parsecProgress o p data) fun r => Waits o r.2 := by
  simp only [parsecProgress]
  cases hs : p.state with
  | Initial =>
    simp only
    refine Ensures.ite Ensures.fail (Ensures.ite Ensures.fail (ensures_sendToken ?_ rfl))
    exact mayCompute_pinned (by simp [parsecToken,Term.functions])
  | Encrypt => exact Ensures.fail
  | Done => exact Ensures.pure hp

/-- Every plugin keeps to what is allowed. -/
theorem ensures_progress {p : AuthPlugin} {data : List UInt8} (hp : Waits o p) :
    Ensures (Kept o) (progress o p data) fun r => Waits o r.2 := by
  unfold progress
  cases p.name with
  | caching_sha2_password => exact ensures_cachingProgress hp
  | sha256_password => exact ensures_sha256Progress hp
  | parsec => exact ensures_parsecProgress hp
  | mysql_native_password => exact Ensures.fail
  | mysql_clear_password => exact Ensures.fail
  | client_ed25519 => exact Ensures.fail

/-- Reading the type of a packet sends nothing. -/
theorem ensures_readType {second more : Bool} {p : AuthPlugin} {data : List UInt8} :
    Ensures (Kept o) (readType second more p data) fun _ => True := by
  refine Ensures.bind (ensures_onProtocol _) ?_
  intro type _
  refine Ensures.bind (Q:=fun _ => True) (Ensures.modify ?_ trivial) fun _ _ => Ensures.pure trivial
  intro s hs
  exact ⟨hs.written,hs.computed⟩

/-- The loop keeps to what is allowed. -/
theorem ensures_pluginLoop {second : Bool} {fuel : ℕ} {p : AuthPlugin} {data : List UInt8}
    (hp : Waits o p) : Ensures (Kept o) (pluginLoop o second fuel p data) fun _ => True := by
  induction fuel generalizing p data with
  | zero => exact Ensures.wait
  | succ fuel ih =>
    rw [pluginLoop]
    refine Ensures.bind (ensures_progress hp) ?_
    rintro ⟨ended,q⟩ hq
    refine Ensures.ite (Ensures.pure trivial) ?_
    refine Ensures.bind (Q:=fun _ => True)
      (Ensures.bind ensures_readType fun _ _ => ensures_onProtocol _) ?_
    intro type _
    refine Ensures.ite (ih hq) ?_
    refine Ensures.bind (ensures_onProtocol _) ?_
    intro next _
    exact ih hq

/-- A new plugin waits for nothing. -/
theorem ensures_inst {name : String} {scramble : List UInt8} :
    Ensures (Kept o) (inst name scramble) (Waits o) := by
  have hnew : ∀ n : PluginName,Waits o ⟨n,scramble,.Initial⟩ := by
    intro n h
    cases h
  unfold inst
  refine Ensures.ite (Ensures.pure (hnew _)) ?_
  refine Ensures.ite (Ensures.pure (hnew _)) ?_
  refine Ensures.ite (Ensures.pure (hnew _)) ?_
  refine Ensures.ite (Ensures.pure (hnew _)) ?_
  refine Ensures.ite (Ensures.pure (hnew _)) ?_
  exact Ensures.ite (Ensures.pure (hnew _)) Ensures.fail

/-- An ERR packet is thrown. -/
theorem readErr_ne_done {α : Type} (cfg : Config) (s : Protocol.State) (a : α) (t : Protocol.State) :
    readErr cfg s≠.done a t := by
  intro h
  unfold readErr at h
  obtain ⟨errorCode,s₁,-,h⟩ := bind_eq_done.mp h
  obtain ⟨sqlState,s₂,-,h⟩ := bind_eq_done.mp h
  obtain ⟨errorMessage,s₃,-,h⟩ := bind_eq_done.mp h
  obtain ⟨s₄,s₅,-,h⟩ := bind_eq_done.mp h
  cases h

/-- A plugin to switch to waits for nothing. -/
theorem ensures_readAuthResponse {second : Bool} {p : AuthPlugin} (hp : Waits o p) :
    Ensures (Kept o) (readAuthResponse o second p) fun r => ∀ q,r=some q → Waits o q := by
  have hnone : ∀ q,(none : Option AuthPlugin)=some q → Waits o q := by
    intro q h
    cases h
  refine Ensures.bind ensures_readType ?_
  intro type _
  refine Ensures.ite ?_ (Ensures.ite ?_ (Ensures.ite ?_ (Ensures.ite Ensures.fail ?_)))
  · refine Ensures.bind (ensures_onProtocol _) ?_
    intro name _
    refine Ensures.bind (ensures_onProtocol _) ?_
    intro data _
    refine Ensures.bind ensures_inst ?_
    intro q hq
    refine Ensures.pure ?_
    rintro _ ⟨⟩
    exact hq
  · exact Ensures.bind (ensures_onProtocol _) fun _ _ => Ensures.pure hnone
  · intro s hs
    refine ⟨(ensures_onProtocol _ s hs).1,?_⟩
    intro a t h
    rw [onProtocol,onPart_apply] at h
    obtain ⟨u,hu,-⟩ := Outcome.mapState_eq_done.mp h
    exact absurd hu (readErr_ne_done _ _ _ _)
  · refine Ensures.bind (ensures_onProtocol _) ?_
    intro data _
    exact Ensures.bind (ensures_pluginLoop hp) fun _ _ => Ensures.pure hnone

/-- Parts of a packet are sent. -/
theorem ensures_writeAll {p : AuthPlugin} {ts : List Token} (h : ∀ t ∈ ts,MaySend o p.name t) :
    Ensures (Kept o) (writeAll p ts) fun _ => True := by
  induction ts with
  | nil => exact Ensures.pure trivial
  | cons t ts ih =>
    refine Ensures.bind (ensures_write (h t List.mem_cons_self)) ?_
    intro _ _
    exact ih fun u hu => h u (List.mem_cons_of_mem t hu)

/-- The fields with a token may be sent when the token may. -/
theorem maySend_fields {name : PluginName} {auth : Token} (h : MaySend o name auth) :
    ∀ t ∈ tokenFields o auth,MaySend o name t := by
  have happly : ∀ g,MaySend o name (.apply g auth) := fun g => h
  intro t ht
  unfold tokenFields at ht
  split_ifs at ht
  all_goals
    simp only [List.mem_cons,List.not_mem_nil,or_false] at ht
  · rcases ht with rfl | rfl
    · exact happly _
    · exact h
  · rcases ht with rfl | rfl
    · exact happly _
    · exact h
  · rw [ht]
    exact happly _
  · rw [ht]
    exact happly _
  · rw [ht]
    exact h

/-- The handshake response keeps to what is allowed. -/
theorem ensures_writeHandshakeResponse {p : AuthPlugin} (hp : Waits o p) :
    Ensures (Kept o) (writeHandshakeResponse o p) (Waits o) := by
  refine Ensures.bind (ensures_quickAuth hp) ?_
  rintro ⟨auth,q⟩ ⟨hsend,hwaits⟩
  refine Ensures.bind (ensures_writeAll ?_) fun _ _ => Ensures.pure hwaits
  intro t ht
  rcases List.mem_append.mp ht with ht | ht
  · rcases List.mem_cons.mp ht with rfl | ht
    · exact maySend_guarded rfl
    · exact maySend_fields hsend t ht
  · rw [List.mem_singleton.mp ht]
    exact maySend_guarded rfl

/-- The response to a switch keeps to what is allowed. -/
theorem ensures_writeAuthSwitchResponse {p : AuthPlugin} (hp : Waits o p) :
    Ensures (Kept o) (writeAuthSwitchResponse o p) (Waits o) := by
  refine Ensures.bind (ensures_quickAuth hp) ?_
  rintro ⟨auth,q⟩ ⟨hsend,hwaits⟩
  refine Ensures.bind (ensures_writeAll ?_) fun _ _ => Ensures.pure hwaits
  intro t ht
  rw [List.mem_singleton.mp ht]
  exact hsend

/-- The authentication keeps to what is allowed. -/
theorem ensures_login {name : String} {scramble : List UInt8} :
    Ensures (Kept o) (login o name scramble) fun _ => True := by
  refine Ensures.bind ensures_inst ?_
  intro p hp
  refine Ensures.bind (ensures_writeHandshakeResponse hp) ?_
  intro q hq
  refine Ensures.bind (ensures_readAuthResponse hq) ?_
  intro other hother
  cases other with
  | none => exact Ensures.pure trivial
  | some r =>
    refine Ensures.bind (ensures_writeAuthSwitchResponse (hother r rfl)) ?_
    intro u hu
    exact Ensures.bind (ensures_readAuthResponse hu) fun _ _ => Ensures.pure trivial

/-- Whatever the server sends, with whatever plugin and scramble in its handshake packet: on an
untrusted transport what is sent depends on the password only by what the calls return, unless
the DSN allows cleartext passwords and `mysql_clear_password` sends it; and nothing is encrypted
with a key from the server unless the DSN allows to retrieve it and pins no key. -/
theorem password_not_exposed (o : Login) (name : String) (scramble : List UInt8)
    (proto : Protocol.State) :
    (o.dsn.pipe="" → o.dsn.tls=false → ∀ w ∈ (login o name scramble {proto := proto}).state.written,
        w.token.Guarded ∨
          (o.dsn.allowCleartextPasswords=true ∧ w.plugin=.mysql_clear_password)) ∧
      ∀ t ∈ (login o name scramble {proto := proto}).state.computed,∀ data,
        .encrypt (.received data) ∈ t.functions →
          o.dsn.allowPublicKeyRetrieval=true ∧ o.dsn.serverPublicKey="" := by
  have hstart : Kept o {proto := proto} := by
    constructor
    · intro w hw
      cases hw
    · intro t ht
      cases ht
  have hkept : Kept o (login o name scramble {proto := proto}).state := (ensures_login _ hstart).1
  refine ⟨?_,hkept.computed⟩
  intro hpipe htls w hw
  have htrust : o.isConnectionTrusted=false := by
    rw [Login.isConnectionTrusted,hpipe,htls]
    rfl
  cases hd : w.token.direct with
  | false => exact Or.inl (guarded_of_direct hd)
  | true => exact Or.inr (hkept.written w hw htrust hd)

/-- A DSN with nothing but a host. -/
def bareDsn : DsnName.Dsn where
  hostname := "localhost"
  port := .ofNat 3306
  username := ""
  password := ""
  schema := ""
  pipe := ""
  connectionTimeout := none
  reconnectInterval := none
  keepAliveTimeout := none
  keepAliveMax := none
  maxConns := none
  maxColumnLen := none
  foundRows := false
  ignoreSpace := false
  multiStatements := false
  retryLockWaitTimeout := false
  retryQueryTimes := none
  jsonAsString := false
  datesAsString := false
  correctDates := false
  storeResultsetIfBigger := none
  allowPublicKeyRetrieval := false
  serverPublicKey := ""
  allowCleartextPasswords := false
  compress := .off
  tls := false
  tlsCaCert := ""
  tlsHostname := ""
  initSql := ""

/-- A login with a password of one letter. -/
def bareLogin : Login where
  dsn := bareDsn
  password := [112]
  cfg := {capabilities := {deprecateEof := true}}
  lenencClientData := true
  secureConnection := true
  connectWithDb := false
  before := []
  after := []
  clientScramble := List.replicate 32 7
  decode := fun bs => String.ofList (bs.map fun b => Char.ofNat b.toNat)
  viewLater := id
  problem := fun _ => none

/-- The server asks for a hash and gets one. -/
theorem hash_not_exposed : (login bareLogin "mysql_native_password" [1,2,3] {proto := {reader := {
      rest := []}}}).state.written.map (fun w => w.token)=
      [.bytes [],.apply .lenencLength (nativeToken [1,2,3]),nativeToken [1,2,3],.bytes []] ∧
    ∀ w ∈ (login bareLogin "mysql_native_password" [1,2,3] {proto := {reader := {
      rest := []}}}).state.written,w.token.Guarded ∨
        (bareLogin.dsn.allowCleartextPasswords=true ∧ w.plugin=.mysql_clear_password) :=
  ⟨by decide +kernel,(password_not_exposed bareLogin "mysql_native_password" [1,2,3] {reader := {
    rest := []}}).1 rfl rfl⟩

end SpiritMysql.Auth
