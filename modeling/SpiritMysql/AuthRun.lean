import SpiritMysql.AuthSecrecy
import SpiritMysql.Replies

/-!
# What ends the authentication

The plugins end the authentication by their own state, whatever packet was read,
and a second switch is not looked at. When the server keeps to packets that
answer what was asked, the connection is accepted exactly after an OK packet.
-/

namespace SpiritMysql.Auth

open AsyncAction Errors PacketStream Protocol Reader Replies SecretTerms

/-- The rest of a packet is that of a well-formed OK packet. -/
def WellFormedOk (c : Capabilities) (s : Protocol.State) : Prop :=
  Sane c ∧ ∃ (p : OkPacket) (later : List UInt8) (log : List ℕ),
    p.Valid c ∧ Represents s.reader ⟨p.body c,[]⟩ later log

/-- The last packet was a well-formed OK packet, and it was read to its end. -/
def LastOk (o : Login) (s : State) : Prop :=
  ∃ e,s.seen.getLast?=some e ∧ e.type=0 ∧ WellFormedOk o.cfg.capabilities e.proto ∧
    s.proto.reader.isAtEndOfPacket=true

/-- A packet that answers what was asked. -/
structure Fine (o : Login) (e : Seen) : Prop where
  /-- An OK packet is well-formed. -/
  ok : e.type=0 → WellFormedOk o.cfg.capabilities e.proto
  /-- The session changes that an OK packet for the plugin tells are supported. -/
  changes : e.type=0 → e.more=true → ∀ (p : OkPacket) (later : List UInt8) (log : List ℕ),
    p.Valid o.cfg.capabilities → Represents e.proto.reader ⟨p.body o.cfg.capabilities,[]⟩ later log →
      ∃ t,p.effect o.cfg e.proto.accept=.done () t
  /-- The response to a switch is not answered by another one. -/
  switch : e.second=true → e.more=false → e.type≠0xFE
  /-- A plugin that is done is not sent more. -/
  ended : e.plugin.state=.Done → e.type=0 ∨ e.type=0xFF ∨ (e.more=false ∧ (e.type=0xFE ∨ e.type=2))
  /-- A plugin that waits for data is not sent OK. -/
  asked : e.type=0 → e.more=true → e.plugin.state=.Done

/-- The last packet was no OK packet. -/
def Open (s : State) : Prop := ∀ e,s.seen.getLast?=some e → e.type≠0

/-- The packets so far remain. -/
def Grows (s t : State) : Prop := s.seen <+: t.seen

variable {o : Login}

/-- No OK packet was last. -/
theorem Open.not_lastOk {s : State} (h : Open s) : ¬LastOk o s := by
  rintro ⟨e,he,ht,-⟩
  exact h e he ht

/-- The packets remain when nothing is done. -/
theorem grows_refl (s : State) : Grows s s := List.prefix_refl _

/-- The packets remain through a sequence. -/
theorem grows_trans (s t u : State) (h : Grows s t) (h' : Grows t u) : Grows s u := h.trans h'

/-- The packets are the same. -/
def SameSeen (s t : State) : Prop := t.seen=s.seen

/-- An operation that reads no type of a packet. -/
def Quiet {α : Type} (x : Auth α) : Prop := Always SameSeen x

/-- A quiet operation keeps the packets. -/
theorem Quiet.always {α : Type} {x : Auth α} (h : Quiet x) : Always Grows x := by
  intro s
  have hs : (x s).state.seen=s.seen := h s
  rw [Grows,hs]

/-- Quiet operations, one after another. -/
theorem Quiet.bind {α β : Type} {x : Auth α} {f : α → Auth β} (hx : Quiet x) (hf : ∀ a,Quiet (f a)) :
    Quiet (x >>= f) := by
  show Always SameSeen (x >>= f)
  refine Always.bind ?_ hx hf
  intro s t u h h'
  exact Eq.trans h' h

/-- Both branches are quiet. -/
theorem Quiet.ite {α : Type} {c : Prop} [Decidable c] {x y : Auth α} (hx : Quiet x) (hy : Quiet y) :
    Quiet (if c then x else y) := by
  show Always SameSeen (if c then x else y)
  exact Always.ite hx hy

/-- A resolved value is quiet. -/
theorem quiet_pure {α : Type} (a : α) : Quiet (pure a) := fun _ => rfl

/-- A rejection is quiet. -/
theorem quiet_fail {α : Type} (e : Error) : Quiet (fail e : Auth α) := fun _ => rfl

/-- Operations of the protocol are quiet. -/
theorem quiet_onProtocol {α : Type} (x : Proto α) : Quiet (onProtocol x) := by
  intro s
  rw [SameSeen,onProtocol,onPart_apply]
  cases x s.proto <;> rfl

/-- Computing is quiet. -/
theorem quiet_compute (t : Token) : Quiet (compute o t) := by
  refine Quiet.bind (fun _ => rfl) ?_
  intro _
  cases o.problem t with
  | some e => exact quiet_fail e
  | none => exact quiet_pure t

/-- Sending is quiet. -/
theorem quiet_write (p : AuthPlugin) (t : Token) : Quiet (write p t) := fun _ => rfl

/-- Computing and sending is quiet. -/
theorem quiet_sendToken (p : AuthPlugin) (t : Token) : Quiet (sendToken o p t) := by
  refine Quiet.bind (quiet_compute t) ?_
  intro u
  exact Quiet.bind (quiet_write p u) fun _ => quiet_pure _

/-- The check is quiet. -/
theorem quiet_assert : Quiet (assertCanGetPublicKey o) := Quiet.ite (quiet_fail _) (quiet_pure _)

/-- Making a token is quiet. -/
theorem quiet_quickAuth (p : AuthPlugin) : Quiet (quickAuth o p) := by
  have hcomputed : ∀ (t : Token) (q : AuthPlugin),Quiet (do return (←compute o t,q)) :=
    fun t q => Quiet.bind (quiet_compute t) fun _ => quiet_pure _
  unfold quickAuth
  cases p.name with
  | mysql_native_password => exact Quiet.ite (quiet_pure _) (hcomputed _ _)
  | caching_sha2_password =>
    exact Quiet.ite (quiet_pure _) (Quiet.bind quiet_assert fun _ => hcomputed _ _)
  | sha256_password =>
    refine Quiet.ite (quiet_pure _) (Quiet.ite (quiet_pure _) (Quiet.ite (hcomputed _ _) ?_))
    exact Quiet.ite (quiet_fail _) (quiet_pure _)
  | mysql_clear_password => exact Quiet.ite (quiet_fail _) (quiet_pure _)
  | client_ed25519 => exact hcomputed _ _
  | parsec => exact quiet_pure _

/-- A step of a plugin is quiet. -/
theorem quiet_progress (p : AuthPlugin) (data : List UInt8) : Quiet (progress o p data) := by
  unfold progress
  cases p.name with
  | caching_sha2_password =>
    show Quiet (cachingProgress o p data)
    unfold cachingProgress
    cases p.state with
    | Initial =>
      refine Quiet.ite (quiet_pure _) (Quiet.ite (Quiet.ite ?_ (Quiet.ite (quiet_sendToken _ _) ?_))
        (quiet_fail _))
      · exact Quiet.bind (quiet_write _ _) fun _ => quiet_pure _
      · refine Quiet.bind quiet_assert fun _ => ?_
        exact Quiet.bind (quiet_write _ _) fun _ => quiet_pure _
    | Encrypt => exact quiet_sendToken _ _
    | Done => exact quiet_pure _
  | sha256_password =>
    show Quiet (sha256Progress o p data)
    unfold sha256Progress
    cases p.state with
    | Initial => exact quiet_fail _
    | Encrypt => exact quiet_sendToken _ _
    | Done => exact quiet_pure _
  | parsec =>
    show Quiet (parsecProgress o p data)
    unfold parsecProgress
    cases p.state with
    | Initial => exact Quiet.ite (quiet_fail _) (Quiet.ite (quiet_fail _) (quiet_sendToken _ _))
    | Encrypt => exact quiet_fail _
    | Done => exact quiet_pure _
  | mysql_native_password => exact quiet_fail _
  | mysql_clear_password => exact quiet_fail _
  | client_ed25519 => exact quiet_fail _

/-- A new plugin is made quietly. -/
theorem quiet_inst (name : String) (scramble : List UInt8) : Quiet (inst name scramble) := by
  unfold inst
  refine Quiet.ite (quiet_pure _) (Quiet.ite (quiet_pure _) (Quiet.ite (quiet_pure _) ?_))
  exact Quiet.ite (quiet_pure _) (Quiet.ite (quiet_pure _) (Quiet.ite (quiet_pure _) (quiet_fail _)))

/-- Sending parts of a packet is quiet. -/
theorem quiet_writeAll (p : AuthPlugin) (ts : List Token) : Quiet (writeAll p ts) := by
  induction ts with
  | nil => exact quiet_pure ()
  | cons t ts ih => exact Quiet.bind (quiet_write p t) fun _ => ih

/-- A plugin that has a state has a method `progress()`. -/
def Sound (p : AuthPlugin) : Prop :=
  p.state≠.Initial → p.name=.caching_sha2_password ∨ p.name=.sha256_password ∨ p.name=.parsec

/-- How many packets a plugin may ask for. -/
def rank : Progress → ℕ
  | .Initial => 2
  | .Encrypt => 1
  | .Done => 0

/-- What one step of a plugin comes to: it is done as it was, or it goes on. -/
def StepResult (p : AuthPlugin) (s : State) (x : Outcome Error State (Bool×AuthPlugin)) : Prop :=
  match x with
  | .done (ended,q) t =>
    if ended=true then p.state=.Done ∧ t=s
    else p.state≠.Done ∧ rank q.state < rank p.state ∧ Sound q ∧ t.seen=s.seen
  | .thrown _ t => p.state≠.Done ∧ t.seen=s.seen
  | .waiting _ => False

/-- A token is computed and sent in one step. -/
theorem step_sendToken {p : AuthPlugin} {t : Token} (s : State) (hp : p.state≠.Done)
    (hn : p.name=.caching_sha2_password ∨ p.name=.sha256_password ∨ p.name=.parsec) :
    StepResult p s (sendToken o p t s) := by
  have hrank : rank .Done < rank p.state := by
    cases hs : p.state with
    | Initial => decide
    | Encrypt => decide
    | Done => exact absurd hs hp
  simp only [sendToken,compute,bind_apply,modify_apply,Outcome.andThen_done]
  cases o.problem t with
  | some e => exact ⟨hp,rfl⟩
  | none => exact ⟨hp,hrank,fun _ => hn,rfl⟩

/-- One step of `caching_sha2_password`. -/
theorem step_caching {p : AuthPlugin} {data : List UInt8} (s : State)
    (hn : p.name=.caching_sha2_password) : StepResult p s (cachingProgress o p data s) := by
  have hsound : ∀ st,Sound {p with state := st} := fun st _ => Or.inl hn
  unfold cachingProgress
  cases hs : p.state with
  | Initial =>
    have hp : p.state≠.Done := by rw [hs]; decide
    have hr : ∀ st,st≠.Initial → rank st < rank p.state := by
      intro st hst
      rw [hs]
      cases st with
      | Initial => exact absurd rfl hst
      | Encrypt => decide
      | Done => decide
    simp only [branch_apply]
    split_ifs with h3 h4 ht hk
    · exact ⟨hp,hr .Done (by decide),hsound .Done,rfl⟩
    · exact ⟨hp,hr .Done (by decide),hsound .Done,rfl⟩
    · exact step_sendToken s hp (Or.inl hn)
    · rw [bind_apply]
      rcases assertCanGetPublicKey_spec (o:=o) s with ⟨e,he⟩ | ⟨he,-⟩
      · rw [he]
        exact ⟨hp,rfl⟩
      · rw [he]
        exact ⟨hp,hr .Encrypt (by decide),hsound .Encrypt,rfl⟩
    · exact ⟨hp,rfl⟩
  | Encrypt => exact step_sendToken s (by rw [hs]; decide) (Or.inl hn)
  | Done => exact ⟨hs,rfl⟩

/-- One step of `sha256_password`. -/
theorem step_sha256 {p : AuthPlugin} {data : List UInt8} (s : State)
    (hn : p.name=.sha256_password) : StepResult p s (sha256Progress o p data s) := by
  unfold sha256Progress
  cases hs : p.state with
  | Initial => exact ⟨by rw [hs]; decide,rfl⟩
  | Encrypt => exact step_sendToken s (by rw [hs]; decide) (Or.inr (Or.inl hn))
  | Done => exact ⟨hs,rfl⟩

/-- One step of `parsec`. -/
theorem step_parsec {p : AuthPlugin} {data : List UInt8} (s : State)
    (hn : p.name=.parsec) : StepResult p s (parsecProgress o p data s) := by
  unfold parsecProgress
  cases hs : p.state with
  | Initial =>
    have hp : p.state≠.Done := by rw [hs]; decide
    simp only [branch_apply]
    split_ifs with h1 h2
    · exact ⟨hp,rfl⟩
    · exact ⟨hp,rfl⟩
    · exact step_sendToken s hp (Or.inr (Or.inr hn))
  | Encrypt => exact ⟨by rw [hs]; decide,rfl⟩
  | Done => exact ⟨hs,rfl⟩

/-- One step of a plugin. -/
theorem step_progress {p : AuthPlugin} {data : List UInt8} (s : State) (hp : Sound p) :
    StepResult p s (progress o p data s) := by
  have hnone : (p.name≠.caching_sha2_password ∧ p.name≠.sha256_password ∧ p.name≠.parsec) →
      p.state≠.Done := by
    rintro ⟨h1,h2,h3⟩ hd
    rcases hp (by rw [hd]; decide) with h | h | h
    · exact h1 h
    · exact h2 h
    · exact h3 h
  unfold progress
  cases hn : p.name with
  | caching_sha2_password => exact step_caching s hn
  | sha256_password => exact step_sha256 s hn
  | parsec => exact step_parsec s hn
  | mysql_native_password => exact ⟨hnone (by rw [hn]; decide),rfl⟩
  | mysql_clear_password => exact ⟨hnone (by rw [hn]; decide),rfl⟩
  | client_ed25519 => exact ⟨hnone (by rw [hn]; decide),rfl⟩

/-- The packets remain while the type of one more is read. -/
theorem grows_readType (second more : Bool) (p : AuthPlugin) (data : List UInt8) :
    Always Grows (readType second more p data) := by
  refine Always.bind grows_trans (quiet_onProtocol _).always ?_
  intro type s
  exact List.prefix_append _ _

/-- The packets remain in the loop. -/
theorem grows_pluginLoop (second : Bool) (fuel : ℕ) (p : AuthPlugin) (data : List UInt8) :
    Always Grows (pluginLoop o second fuel p data) := by
  induction fuel generalizing p data with
  | zero => exact Always.wait grows_refl
  | succ fuel ih =>
    rw [pluginLoop]
    refine Always.bind grows_trans (quiet_progress p data).always ?_
    rintro ⟨ended,q⟩
    refine Always.ite (Always.pure grows_refl ()) (Always.bind grows_trans ?_ ?_)
    · exact Always.bind grows_trans (grows_readType _ _ _ _) fun _ => (quiet_onProtocol _).always
    · intro type
      refine Always.ite (ih _ _) (Always.bind grows_trans (quiet_onProtocol _).always ?_)
      intro next
      exact ih _ _

/-- The packet whose type was read is the last one. -/
theorem readType_spec (second more : Bool) (p : AuthPlugin) (data : List UInt8) (s : State) :
    match readType second more p data s with
    | .done type t => t.seen=s.seen++[⟨second,more,p,data,type,t.proto⟩]
    | .thrown _ t => t.seen=s.seen
    | .waiting t => t.seen=s.seen := by
  have hq := quiet_onProtocol (read (do readPacketHeader; readUint8)) s
  rw [readType,bind_apply]
  cases hx : onProtocol (read (do readPacketHeader; readUint8)) s with
  | done type t =>
    rw [hx] at hq
    have hs : t.seen=s.seen := hq
    simp only [Outcome.andThen_done,bind_apply,modify_apply,pure_apply,hs]
  | thrown e t =>
    rw [hx] at hq
    exact hq
  | waiting t =>
    rw [hx] at hq
    exact hq

/-- An OK packet for the plugin is read to its end. -/
theorem okBody_spec {s : State} {e : Seen} (hproto : s.proto=e.proto) (htype : e.type=0)
    (hmore : e.more=true) (hfine : Fine o e) :
    ∃ t,onProtocol (readPacketBody o.cfg .REGULAR 0) s=.done 0 t ∧ t.seen=s.seen ∧
      t.proto.reader.isAtEndOfPacket=true := by
  obtain ⟨hsane,p,later,log,hv,hr⟩ := hfine.ok htype
  obtain ⟨u,hu⟩ := hfine.changes htype hmore p later log hv hr
  have hr' : Represents e.proto.accept.reader ⟨p.body o.cfg.capabilities,[]⟩ later log := hr
  have hleaves := readOk_spec o.cfg hsane hv hr'
  rw [hu] at hleaves
  obtain ⟨r,hx,hend⟩ := hleaves
  have hbody : readPacketBody o.cfg .REGULAR 0 e.proto=.done 0 (putReader r u) := by
    show (readOk o.cfg e.proto.accept).andThen (fun _ => pure 0)=_
    rw [hx]
    rfl
  refine ⟨{s with proto := putReader r u},?_,rfl,?_⟩
  · rw [onProtocol,onPart_apply,hproto,hbody]
    rfl
  · exact hend.isAtEndOfPacket

/-- What was read of an ERR packet is no value. -/
theorem errBody_ne_done {cfg : Config} (s : Protocol.State) (a : ℕ) (t : Protocol.State) :
    readPacketBody cfg .REGULAR 0xFF s≠.done a t := by
  intro h
  exact readErr_ne_done cfg s.accept a t h

/-- An authentication ends with success exactly when OK was last. -/
def Verdict {α : Type} (o : Login) (x : Outcome Error State α) : Prop :=
  match x with
  | .done _ t => LastOk o t
  | .thrown _ t => ¬LastOk o t
  | .waiting t => ¬LastOk o t

/-- Only the packets matter. -/
theorem Open.of_seen {s t : State} (h : Open s) (ht : t.seen=s.seen) : Open t := by
  intro e he
  rw [ht] at he
  exact h e he

/-- The last packet is another one than OK. -/
theorem open_append {s t : State} {e : Seen} (ht : t.seen=s.seen++[e]) (he : e.type≠0) : Open t := by
  intro x hx
  rw [ht,List.getLast?_concat] at hx
  cases hx
  exact he

/-- A quiet operation that fails or waits leaves the last packet. -/
theorem verdict_quiet {α β : Type} {x : Auth α} {f : α → Auth β} {s : State} (hq : Quiet x)
    (ho : Open s) (hf : ∀ a t,x s=.done a t → t.seen=s.seen → Verdict o (f a t)) :
    Verdict o ((x >>= f) s) := by
  have hs := hq s
  rw [bind_apply]
  cases hx : x s with
  | done a t =>
    rw [hx] at hs
    exact hf a t hx hs
  | thrown e t =>
    rw [hx] at hs
    exact (ho.of_seen hs).not_lastOk
  | waiting t =>
    rw [hx] at hs
    exact (ho.of_seen hs).not_lastOk

/-- What the final state of a sequence has seen, the first operation of it did not undo. -/
theorem seen_of_earlier {α : Type} {x : Auth α} {s : State} {e : Seen} (hx : Always Grows x)
    (he : e ∈ s.seen) : e ∈ (x s).state.seen := (hx s).subset he

/-- What the loop does after it read the type of a packet. -/
def afterType (o : Login) (second : Bool) (fuel : ℕ) (p : AuthPlugin) (data : List UInt8) (type : ℕ) :
    Auth Unit := do
  let type ← onProtocol (readPacketBody o.cfg .REGULAR type)
  if type=0 then pluginLoop o second fuel p (o.viewLater data)
  else do
    let next ← onProtocol (read readShortEofBytes)
    pluginLoop o second fuel p next

/-- The packets remain after the type of one was read. -/
theorem grows_afterType (second : Bool) (fuel : ℕ) (p : AuthPlugin) (data : List UInt8) (type : ℕ) :
    Always Grows (afterType o second fuel p data type) := by
  refine Always.bind grows_trans (quiet_onProtocol _).always ?_
  intro result
  refine Always.ite (grows_pluginLoop _ _ _ _) (Always.bind grows_trans (quiet_onProtocol _).always ?_)
  intro next
  exact grows_pluginLoop _ _ _ _

/-- The loop goes on after it read the type of a packet. -/
theorem afterType_spec {second : Bool} {fuel : ℕ} {p : AuthPlugin} {data : List UInt8} {type : ℕ}
    {t u : State} (hseen : u.seen=t.seen++[⟨second,true,p,data,type,u.proto⟩])
    (hnext : ∀ (next : List UInt8) (v : State),(p.state=.Done → LastOk o v) →
      (p.state≠.Done → Open v) → (∀ e ∈ (pluginLoop o second fuel p next v).state.seen,Fine o e) →
      Verdict o (pluginLoop o second fuel p next v))
    (hfine : ∀ e ∈ (afterType o second fuel p data type u).state.seen,Fine o e) :
    Verdict o (afterType o second fuel p data type u) := by
  have hmem : (⟨second,true,p,data,type,u.proto⟩ : Seen) ∈ u.seen := by
    rw [hseen]
    exact List.mem_append_right _ (List.mem_singleton.mpr rfl)
  have hf : Fine o ⟨second,true,p,data,type,u.proto⟩ :=
    hfine _ (seen_of_earlier (grows_afterType second fuel p data type) hmem)
  by_cases h0 : type=0
  · -- the plugin is done, and OK ends the loop
    subst h0
    have hstate : p.state=.Done := hf.asked rfl rfl
    obtain ⟨v,hv,hvs,hend⟩ := okBody_spec rfl rfl rfl hf
    have hlast : LastOk o v := by
      refine ⟨⟨second,true,p,data,0,u.proto⟩,?_,rfl,hf.ok rfl,hend⟩
      rw [hvs,hseen,List.getLast?_concat]
    have heq : afterType o second fuel p data 0 u=pluginLoop o second fuel p (o.viewLater data) v := by
      rw [afterType,bind_apply,hv]
      rfl
    rw [heq] at hfine ⊢
    exact hnext _ v (fun _ => hlast) (fun hne => absurd hstate hne) hfine
  · have hopen : Open u := open_append hseen h0
    rw [afterType] at hfine ⊢
    refine verdict_quiet (quiet_onProtocol _) hopen ?_
    intro result v hv hvs
    rw [bind_apply,hv,Outcome.andThen_done] at hfine
    by_cases hff : type=0xFF
    · -- an ERR packet is thrown
      subst hff
      rw [onProtocol,onPart_apply] at hv
      obtain ⟨w,hw,-⟩ := Outcome.mapState_eq_done.mp hv
      exact absurd hw (errBody_ne_done _ _ _)
    · have hstate : p.state≠.Done := by
        intro hd
        rcases hf.ended hd with h | h | h
        · exact h0 h
        · exact hff h
        · exact Bool.noConfusion h.1
      have hov : Open v := hopen.of_seen hvs
      by_cases hr : result=0
      · rw [if_pos hr] at hfine ⊢
        exact hnext _ v (fun hd => absurd hd hstate) (fun _ => hov) hfine
      · rw [if_neg hr] at hfine ⊢
        refine verdict_quiet (quiet_onProtocol _) hov ?_
        intro next w hw hws
        rw [bind_apply,hw,Outcome.andThen_done] at hfine
        exact hnext _ w (fun hd => absurd hd hstate) (fun _ => hov.of_seen hws) hfine

/-- The loop ends with success exactly when OK was last. -/
theorem loop_spec {second : Bool} {fuel : ℕ} {p : AuthPlugin} {data : List UInt8} {s : State}
    (hfuel : rank p.state < fuel) (hp : Sound p) (hdone : p.state=.Done → LastOk o s)
    (hopen : p.state≠.Done → Open s)
    (hfine : ∀ e ∈ (pluginLoop o second fuel p data s).state.seen,Fine o e) :
    Verdict o (pluginLoop o second fuel p data s) := by
  induction fuel generalizing p data s with
  | zero => exact absurd hfuel (Nat.not_lt_zero _)
  | succ fuel ih =>
    have hstep : StepResult p s (progress o p data s) := step_progress s hp
    rw [pluginLoop,bind_apply] at hfine ⊢
    cases hx : progress o p data s with
    | waiting t =>
      rw [hx] at hstep
      exact hstep.elim
    | thrown e t =>
      rw [hx] at hstep
      exact ((hopen hstep.1).of_seen hstep.2).not_lastOk
    | done r t =>
      obtain ⟨ended,q⟩ := r
      rw [hx] at hstep hfine
      simp only [Outcome.andThen_done] at hfine ⊢
      cases ended with
      | true =>
        obtain ⟨hs,rfl⟩ := hstep
        exact hdone hs
      | false =>
        obtain ⟨hnot,hrank,hq,hseen⟩ := hstep
        have ho : Open t := (hopen hnot).of_seen hseen
        simp only [Bool.false_eq_true,if_false] at hfine ⊢
        have hnext : ∀ (next : List UInt8) (v : State),(q.state=.Done → LastOk o v) →
            (q.state≠.Done → Open v) → (∀ e ∈ (pluginLoop o second fuel q next v).state.seen,Fine o e) →
            Verdict o (pluginLoop o second fuel q next v) :=
          fun next v h1 h2 h3 => ih (by omega) hq h1 h2 h3
        have htype := readType_spec second true q data t
        have hassoc : (readPacket o second q data >>= fun type =>
            if type=0 then pluginLoop o second fuel q (o.viewLater data)
            else onProtocol (read readShortEofBytes) >>= fun next => pluginLoop o second fuel q next) t=
            (readType second true q data t).andThen fun type => afterType o second fuel q data type := by
          simp only [readPacket,bind_apply]
          cases readType second true q data t <;> rfl
        change ∀ e ∈ ((readPacket o second q data >>= fun type =>
            if type=0 then pluginLoop o second fuel q (o.viewLater data)
            else onProtocol (read readShortEofBytes) >>= fun next => pluginLoop o second fuel q next)
              t).state.seen,Fine o e at hfine
        change Verdict o ((readPacket o second q data >>= fun type =>
            if type=0 then pluginLoop o second fuel q (o.viewLater data)
            else onProtocol (read readShortEofBytes) >>= fun next => pluginLoop o second fuel q next) t)
        rw [hassoc] at hfine ⊢
        cases hr : readType second true q data t with
        | waiting u =>
          rw [hr] at htype
          exact (ho.of_seen htype).not_lastOk
        | thrown e u =>
          rw [hr] at htype
          exact (ho.of_seen htype).not_lastOk
        | done type u =>
          rw [hr] at htype hfine
          exact afterType_spec htype hnext hfine

/-- What `#readAuthResponse()` does after it read the type of the packet. -/
def afterDirect (o : Login) (second : Bool) (p : AuthPlugin) (type : ℕ) : Auth (Option AuthPlugin) :=
  if type=0xFE then do
    let name ← onProtocol (read readShortNulBytes)
    let data ← onProtocol (read readShortEofBytes)
    return some (←inst (o.decode name) data)
  else if type=0 then do
    onProtocol (read gotoEndOfPacket)
    return none
  else if type=0xFF then onProtocol (readErr o.cfg)
  else if type=2 then
    fail (.error "This server uses multi-factor authentication, that is not supported by this client")
  else do
    let data ← onProtocol (read readShortEofBytes)
    pluginLoop o second 3 p data
    return none

/-- The packets remain after the type of the packet was read. -/
theorem grows_afterDirect (second : Bool) (p : AuthPlugin) (type : ℕ) :
    Always Grows (afterDirect o second p type) := by
  refine Always.ite ?_ (Always.ite ?_ (Always.ite (quiet_onProtocol _).always
    (Always.ite (quiet_fail _).always ?_)))
  · refine Always.bind grows_trans (quiet_onProtocol _).always fun name => ?_
    refine Always.bind grows_trans (quiet_onProtocol _).always fun data => ?_
    exact (Quiet.bind (quiet_inst _ _) fun _ => quiet_pure _).always
  · exact (Quiet.bind (quiet_onProtocol _) fun _ => quiet_pure _).always
  · refine Always.bind grows_trans (quiet_onProtocol _).always fun data => ?_
    exact Always.bind grows_trans (grows_pluginLoop _ _ _ _) fun _ => (quiet_pure _).always

/-- What the response to the authentication comes to. -/
def ResponseVerdict (o : Login) (second : Bool) (x : Outcome Error State (Option AuthPlugin)) : Prop :=
  match x with
  | .done none t => LastOk o t
  | .done (some q) t => second=false ∧ Open t ∧ Sound q
  | .thrown _ t => ¬LastOk o t
  | .waiting t => ¬LastOk o t

/-- A quiet operation that fails or waits leaves the last packet, and there is no response. -/
theorem responseVerdict_quiet {α : Type} {second : Bool} {x : Auth α}
    {f : α → Auth (Option AuthPlugin)} {s : State} (hq : Quiet x) (ho : Open s)
    (hf : ∀ a t,x s=.done a t → t.seen=s.seen → ResponseVerdict o second (f a t)) :
    ResponseVerdict o second ((x >>= f) s) := by
  have hs := hq s
  rw [bind_apply]
  cases hx : x s with
  | done a t =>
    rw [hx] at hs
    exact hf a t hx hs
  | thrown e t =>
    rw [hx] at hs
    exact (ho.of_seen hs).not_lastOk
  | waiting t =>
    rw [hx] at hs
    exact (ho.of_seen hs).not_lastOk

/-- A new plugin has no state. -/
theorem inst_sound {name : String} {scramble : List UInt8} {s t : State} {q : AuthPlugin}
    (h : inst name scramble s=.done q t) : Sound q := by
  have hnew : ∀ n : PluginName,Sound ⟨n,scramble,.Initial⟩ := fun n hne => absurd rfl hne
  simp only [inst,branch_apply] at h
  split_ifs at h
  all_goals cases h
  all_goals exact hnew _

/-- An OK packet that is read directly is passed to its end. -/
theorem gotoEnd_spec {s : State} {e : Seen} (hproto : s.proto=e.proto) (htype : e.type=0)
    (hfine : Fine o e) :
    ∃ t,onProtocol (read gotoEndOfPacket) s=.done () t ∧ t.seen=s.seen ∧
      t.proto.reader.isAtEndOfPacket=true := by
  obtain ⟨-,p,later,log,-,hr⟩ := hfine.ok htype
  obtain ⟨r,hx,hend⟩ := gotoEndOfPacket_spec hr
  refine ⟨{s with proto := {s.proto with reader := r}},?_,rfl,?_⟩
  · rw [onProtocol,onPart_apply,hproto,read_apply,hx]
    rfl
  · exact hend.isAtEndOfPacket

/-- No plugin may ask for three packets. -/
theorem rank_lt (st : Progress) : rank st < 3 := by
  cases st <;> decide

/-- A packet that is read directly, by its type. -/
theorem direct_spec {second : Bool} {p : AuthPlugin} {type : ℕ} {s u : State} (hp : Sound p)
    (hseen : u.seen=s.seen++[⟨second,false,p,[],type,u.proto⟩])
    (hf : Fine o ⟨second,false,p,[],type,u.proto⟩)
    (hfine : ∀ e ∈ (afterDirect o second p type u).state.seen,Fine o e) :
    ResponseVerdict o second (afterDirect o second p type u) := by
  unfold afterDirect at hfine ⊢
  by_cases hswitch : type=0xFE
  · -- a switch, which is no answer to a switch
    have hopen : Open u := open_append hseen (fun h => absurd (hswitch.symm.trans h) (by decide))
    have hfirst : second=false := by
      cases second with
      | false => rfl
      | true => exact absurd hswitch (hf.switch rfl rfl)
    rw [if_pos hswitch]
    refine responseVerdict_quiet (quiet_onProtocol _) hopen fun name v _ hv => ?_
    refine responseVerdict_quiet (quiet_onProtocol _) (hopen.of_seen hv) fun data w _ hw => ?_
    refine responseVerdict_quiet (quiet_inst _ _) ((hopen.of_seen hv).of_seen hw) fun q x hx hxs => ?_
    exact ⟨hfirst,((hopen.of_seen hv).of_seen hw).of_seen hxs,inst_sound hx⟩
  · rw [if_neg hswitch] at hfine ⊢
    by_cases h0 : type=0
    · subst h0
      obtain ⟨v,hv,hvs,hend⟩ := gotoEnd_spec rfl rfl hf
      rw [if_pos rfl,bind_apply,hv]
      refine ⟨⟨second,false,p,[],0,u.proto⟩,?_,rfl,hf.ok rfl,hend⟩
      rw [hvs,hseen,List.getLast?_concat]
    · have hopen : Open u := open_append hseen h0
      rw [if_neg h0] at hfine ⊢
      by_cases hff : type=0xFF
      · -- an ERR packet is thrown
        rw [if_pos hff]
        have hq := quiet_onProtocol (readErr o.cfg : Proto (Option AuthPlugin)) u
        cases hx : onProtocol (readErr o.cfg : Proto (Option AuthPlugin)) u with
        | done a t =>
          rw [onProtocol,onPart_apply] at hx
          obtain ⟨w,hw,-⟩ := Outcome.mapState_eq_done.mp hx
          exact absurd hw (readErr_ne_done _ _ _ _)
        | thrown e t =>
          rw [hx] at hq
          exact (hopen.of_seen hq).not_lastOk
        | waiting t =>
          rw [hx] at hq
          exact (hopen.of_seen hq).not_lastOk
      · rw [if_neg hff] at hfine ⊢
        by_cases h2 : type=2
        · rw [if_pos h2]
          exact hopen.not_lastOk
        · -- data for a plugin that is not done
          rw [if_neg h2] at hfine ⊢
          have hstate : p.state≠.Done := by
            intro hd
            rcases hf.ended hd with h | h | ⟨-,h | h⟩
            · exact h0 h
            · exact hff h
            · exact hswitch h
            · exact h2 h
          refine responseVerdict_quiet (quiet_onProtocol _) hopen fun data v hv hvs => ?_
          rw [bind_apply,hv,Outcome.andThen_done] at hfine
          have hloop : ∀ e ∈ (pluginLoop o second 3 p data v).state.seen,Fine o e := by
            intro e he
            apply hfine
            rw [bind_apply]
            cases hx : pluginLoop o second 3 p data v with
            | done a t =>
              rw [hx] at he
              exact he
            | thrown err t =>
              rw [hx] at he
              exact he
            | waiting t =>
              rw [hx] at he
              exact he
          have hverdict := loop_spec (rank_lt p.state) hp (fun hd => absurd hd hstate)
            (fun _ => hopen.of_seen hvs) hloop
          rw [bind_apply]
          cases hx : pluginLoop o second 3 p data v with
          | done a t =>
            rw [hx] at hverdict
            exact hverdict
          | thrown err t =>
            rw [hx] at hverdict
            exact hverdict
          | waiting t =>
            rw [hx] at hverdict
            exact hverdict

/-- The type of a packet that is read directly decides, when all packets are fine. -/
theorem response_spec {second : Bool} {p : AuthPlugin} {s : State} (hp : Sound p) (ho : Open s)
    (hfine : ∀ e ∈ (readAuthResponse o second p s).state.seen,Fine o e) :
    ResponseVerdict o second (readAuthResponse o second p s) := by
  have htype := readType_spec second false p [] s
  have hbind : readAuthResponse o second p s=
      (readType second false p [] s).andThen fun type => afterDirect o second p type := rfl
  rw [hbind] at hfine ⊢
  cases hr : readType second false p [] s with
  | waiting u =>
    rw [hr] at htype
    exact (ho.of_seen htype).not_lastOk
  | thrown e u =>
    rw [hr] at htype
    exact (ho.of_seen htype).not_lastOk
  | done type u =>
    rw [hr,Outcome.andThen_done] at hfine
    rw [hr] at htype
    rw [Outcome.andThen_done]
    have hmem : (⟨second,false,p,[],type,u.proto⟩ : Seen) ∈ u.seen := by
      have hs : u.seen=s.seen++[⟨second,false,p,[],type,u.proto⟩] := htype
      rw [hs]
      exact List.mem_append_right _ (List.mem_singleton.mpr rfl)
    have hf : Fine o ⟨second,false,p,[],type,u.proto⟩ :=
      hfine _ (seen_of_earlier (grows_afterDirect second p type) hmem)
    exact direct_spec hp htype hf hfine

/-- A plugin is as sound after it made its token. -/
theorem sound_quickAuth {p : AuthPlugin} (hp : Sound p) :
    Ensures (fun _ => True) (quickAuth o p) fun r => Sound r.2 := by
  have hcomputed : ∀ (t : Token) (q : AuthPlugin),Sound q →
      Ensures (fun _ => True) (do return (←compute o t,q) : Auth (Token×AuthPlugin)) fun r => Sound r.2 := by
    intro t q hq
    refine Ensures.bind (Q:=fun _ => True) (fun _ _ => ⟨trivial,fun _ _ _ => trivial⟩) ?_
    intro _ _
    exact Ensures.pure hq
  have hassert : Ensures (fun _ => True) (assertCanGetPublicKey o) fun _ => True :=
    fun _ _ => ⟨trivial,fun _ _ _ => trivial⟩
  unfold quickAuth
  cases hn : p.name with
  | mysql_native_password => exact Ensures.ite (Ensures.pure hp) (hcomputed _ _ hp)
  | caching_sha2_password =>
    exact Ensures.ite (Ensures.pure hp) (Ensures.bind hassert fun _ _ => hcomputed _ _ hp)
  | sha256_password =>
    have hsound : ∀ st,Sound ⟨.sha256_password,p.scramble,st⟩ := fun st _ => Or.inr (Or.inl rfl)
    refine Ensures.ite (Ensures.pure (hsound .Done)) (Ensures.ite (Ensures.pure (hsound .Done)) ?_)
    refine Ensures.ite (hcomputed _ _ (hsound .Done)) (Ensures.ite Ensures.fail ?_)
    exact Ensures.pure (hsound .Encrypt)
  | mysql_clear_password => exact Ensures.ite Ensures.fail (Ensures.pure hp)
  | client_ed25519 => exact hcomputed _ _ hp
  | parsec => exact Ensures.pure hp

/-- The plugin after the handshake response is as sound. -/
theorem sound_writeHandshakeResponse {p q : AuthPlugin} {s t : State} (hp : Sound p)
    (h : writeHandshakeResponse o p s=.done q t) : Sound q := by
  obtain ⟨⟨auth,r⟩,u,hx,h⟩ := bind_eq_done.mp h
  obtain ⟨v,w,-,h⟩ := bind_eq_done.mp h
  have hr := (sound_quickAuth hp s trivial).2 _ _ hx
  cases h
  exact hr

/-- The plugin after the response to a switch is as sound. -/
theorem sound_writeAuthSwitchResponse {p q : AuthPlugin} {s t : State} (hp : Sound p)
    (h : writeAuthSwitchResponse o p s=.done q t) : Sound q := by
  obtain ⟨⟨auth,r⟩,u,hx,h⟩ := bind_eq_done.mp h
  obtain ⟨v,w,-,h⟩ := bind_eq_done.mp h
  have hr := (sound_quickAuth hp s trivial).2 _ _ hx
  cases h
  exact hr

/-- The handshake response is quiet. -/
theorem quiet_writeHandshakeResponse (p : AuthPlugin) : Quiet (writeHandshakeResponse o p) := by
  refine Quiet.bind (quiet_quickAuth p) ?_
  rintro ⟨auth,q⟩
  exact Quiet.bind (quiet_writeAll _ _) fun _ => quiet_pure _

/-- The response to a switch is quiet. -/
theorem quiet_writeAuthSwitchResponse (p : AuthPlugin) : Quiet (writeAuthSwitchResponse o p) := by
  refine Quiet.bind (quiet_quickAuth p) ?_
  rintro ⟨auth,q⟩
  exact Quiet.bind (quiet_writeAll _ _) fun _ => quiet_pure _

/-- The packets remain while the response is read. -/
theorem grows_readAuthResponse (second : Bool) (p : AuthPlugin) :
    Always Grows (readAuthResponse o second p) :=
  Always.bind grows_trans (grows_readType _ _ _ _) fun type => grows_afterDirect second p type

/-- The packets remain after a switch. -/
theorem grows_second (p : AuthPlugin) : Always Grows (writeAuthSwitchResponse o p >>= fun q =>
    readAuthResponse o true q >>= fun _ => (pure () : Auth Unit)) := by
  refine Always.bind grows_trans (quiet_writeAuthSwitchResponse p).always fun q => ?_
  exact Always.bind grows_trans (grows_readAuthResponse true q) fun _ => (quiet_pure _).always

/-- What is read after a switch decides. -/
theorem second_spec {p : AuthPlugin} {s : State} (hp : Sound p) (ho : Open s)
    (hfine : ∀ e ∈ ((writeAuthSwitchResponse o p >>= fun q =>
      readAuthResponse o true q >>= fun _ => (pure () : Auth Unit)) s).state.seen,Fine o e) :
    Verdict o ((writeAuthSwitchResponse o p >>= fun q =>
      readAuthResponse o true q >>= fun _ => (pure () : Auth Unit)) s) := by
  refine verdict_quiet (quiet_writeAuthSwitchResponse p) ho fun q t hx ht => ?_
  rw [bind_apply,hx,Outcome.andThen_done] at hfine
  have hq := sound_writeAuthSwitchResponse hp hx
  have hstate : ((readAuthResponse o true q >>= fun _ => (pure () : Auth Unit)) t).state=
      (readAuthResponse o true q t).state := by
    rw [bind_apply]
    cases readAuthResponse o true q t <;> rfl
  rw [hstate] at hfine
  have hverdict := response_spec hq (ho.of_seen ht) hfine
  rw [bind_apply]
  cases hr : readAuthResponse o true q t with
  | done r u =>
    rw [hr] at hverdict
    cases r with
    | none => exact hverdict
    | some r => exact Bool.noConfusion hverdict.1
  | thrown e u =>
    rw [hr] at hverdict
    exact hverdict
  | waiting u =>
    rw [hr] at hverdict
    exact hverdict

/-- The authentication ends with success exactly when OK was last. -/
theorem authenticate_spec {p : AuthPlugin} {s : State} (hp : Sound p) (ho : Open s)
    (hfine : ∀ e ∈ (authenticate o p s).state.seen,Fine o e) : Verdict o (authenticate o p s) := by
  unfold authenticate at hfine ⊢
  refine verdict_quiet (quiet_writeHandshakeResponse p) ho fun q t hx ht => ?_
  rw [bind_apply,hx,Outcome.andThen_done,bind_apply] at hfine
  have hq := sound_writeHandshakeResponse hp hx
  have hresponse : ∀ e ∈ (readAuthResponse o false q t).state.seen,Fine o e := by
    intro e he
    apply hfine
    cases hr : readAuthResponse o false q t with
    | done r u =>
      rw [hr] at he
      rw [Outcome.andThen_done]
      cases r with
      | none => exact he
      | some r => exact seen_of_earlier (grows_second r) he
    | thrown err u =>
      rw [hr] at he
      exact he
    | waiting u =>
      rw [hr] at he
      exact he
  have hverdict := response_spec hq (ho.of_seen ht) hresponse
  rw [bind_apply]
  cases hr : readAuthResponse o false q t with
  | done r u =>
    rw [hr] at hverdict hfine
    rw [Outcome.andThen_done] at hfine ⊢
    cases r with
    | none => exact hverdict
    | some r => exact second_spec hverdict.2.2 hverdict.2.1 hfine
  | thrown e u =>
    rw [hr] at hverdict
    exact hverdict
  | waiting u =>
    rw [hr] at hverdict
    exact hverdict

/-- No turn of the loop beyond the third is made. -/
theorem loop_ends (second : Bool) (p : AuthPlugin) (hp : Sound p) (data : List UInt8) (fuel : ℕ)
    (hfuel : rank p.state < fuel) (more : ℕ) :
    pluginLoop o second (fuel+more) p data=pluginLoop o second fuel p data := by
  induction fuel generalizing p data with
  | zero => exact absurd hfuel (Nat.not_lt_zero _)
  | succ fuel ih =>
    rw [Nat.add_right_comm]
    funext s
    have hstep : StepResult p s (progress o p data s) := step_progress s hp
    rw [pluginLoop,pluginLoop,bind_apply,bind_apply]
    cases hx : progress o p data s with
    | waiting t => rfl
    | thrown e t => rfl
    | done r t =>
      obtain ⟨ended,q⟩ := r
      rw [hx] at hstep
      cases ended with
      | true => rfl
      | false =>
        obtain ⟨-,hrank,hq,-⟩ := hstep
        have hnext : ∀ next,pluginLoop o second (fuel+more) q next=pluginLoop o second fuel q next :=
          fun next => ih q hq next (by omega)
        simp only [Outcome.andThen_done,Bool.false_eq_true,if_false,hnext]

/-- When the server sends what it was asked for, the authentication succeeds exactly when the last
packet was a well-formed OK packet and it was read to its end. No plugin asks for more than two
packets. -/
theorem accepted_iff_ok (o : Login) (name : String) (scramble : List UInt8) (proto : Protocol.State)
    (hfine : ∀ e ∈ (login o name scramble {proto := proto}).state.seen,Fine o e) :
    ((∃ t,login o name scramble {proto := proto}=.done () t)↔
        LastOk o (login o name scramble {proto := proto}).state) ∧
      ∀ second p data more,Sound p →
        pluginLoop o second (3+more) p data=pluginLoop o second 3 p data := by
  refine ⟨?_,fun second p data more hp => loop_ends second p hp data 3 (rank_lt p.state) more⟩
  have hstart : Open {proto := proto} := by
    intro e he
    cases he
  have hverdict : Verdict o (login o name scramble {proto := proto}) := by
    unfold login at hfine ⊢
    refine verdict_quiet (quiet_inst name scramble) hstart fun p t hx ht => ?_
    rw [bind_apply,hx,Outcome.andThen_done] at hfine
    exact authenticate_spec (inst_sound hx) (hstart.of_seen ht) hfine
  cases hr : login o name scramble {proto := proto} with
  | done u t =>
    rw [hr] at hverdict
    exact ⟨fun _ => hverdict,fun _ => ⟨t,rfl⟩⟩
  | thrown e t =>
    rw [hr] at hverdict
    exact ⟨(fun ⟨_,h⟩ => by cases h),fun h => absurd h hverdict⟩
  | waiting t =>
    rw [hr] at hverdict
    exact ⟨(fun ⟨_,h⟩ => by cases h),fun h => absurd h hverdict⟩

/-- The protocol after the type of an OK packet. -/
def okTypeRead : Protocol.State :=
  {reader := {
    before := [0,2,0,0,7],rest := [0,0,2,0,0,0],payloadLength := 7,packetOffset := 1,sequenceId := 3,
    totalBytesInPacket := 7,headers := [11]}}

/-- The rest of this packet is that of a well-formed OK packet. -/
theorem okTypeRead_wellFormed : WellFormedOk bareLogin.cfg.capabilities okTypeRead := by
  refine ⟨fun _ => Or.inl rfl,⟨0,0,2,0,none,[]⟩,[],[11],?_,?_⟩
  · refine ⟨by decide,by decide,?_,?_,by decide⟩
    · intro t ht
      cases ht
    · intro ch hch
      cases hch
  · refine ⟨by decide,by decide,?_,?_,?_,rfl⟩
    · intro h
      exact absurd rfl h
    · intro _
      decide
    · exact trivial

/-- A server that answers with OK. -/
theorem ok_accepted : (∃ t,login bareLogin "mysql_native_password" [1,2,3] {proto := {reader := {
      rest := [7,0,0,2,0,0,0,2,0,0,0]}}}=.done () t)↔
    LastOk bareLogin (login bareLogin "mysql_native_password" [1,2,3] {proto := {reader := {
      rest := [7,0,0,2,0,0,0,2,0,0,0]}}}).state := by
  refine (accepted_iff_ok bareLogin "mysql_native_password" [1,2,3] _ ?_).1
  have hseen : (login bareLogin "mysql_native_password" [1,2,3] {proto := {reader := {
      rest := [7,0,0,2,0,0,0,2,0,0,0]}}}).state.seen=
      [⟨false,false,⟨.mysql_native_password,[1,2,3],.Initial⟩,[],0,okTypeRead⟩] := by decide +kernel
  rw [hseen]
  intro e he
  rw [List.mem_singleton] at he
  subst he
  refine ⟨fun _ => okTypeRead_wellFormed,?_,?_,?_,?_⟩
  · intro _ h
    cases h
  · intro h
    cases h
  · intro h
    cases h
  · intro _ h
    cases h

/-- A packet that asks to switch to a plugin. -/
def switchPacket (sequenceId : UInt8) : List UInt8 :=
  [26,0,0,sequenceId,254]++text "mysql_native_password"++[0,1,2,3]

/-- An operation succeeded. -/
def succeeded {α : Type} : Outcome Error State α → Bool
  | .done _ _ => true
  | .thrown _ _ => false
  | .waiting _ => false

/-- The connection is accepted after a second switch, without OK. -/
theorem second_switch_accepted : ¬((∃ t,login bareLogin "mysql_native_password" [1,2,3] {proto := {
      reader := {rest := switchPacket 2++switchPacket 4}}}=.done () t)↔
    LastOk bareLogin (login bareLogin "mysql_native_password" [1,2,3] {proto := {
      reader := {rest := switchPacket 2++switchPacket 4}}}).state) := by
  intro h
  have hdone : ∃ t,login bareLogin "mysql_native_password" [1,2,3] {proto := {
      reader := {rest := switchPacket 2++switchPacket 4}}}=.done () t := by
    have hs : succeeded (login bareLogin "mysql_native_password" [1,2,3] {proto := {
      reader := {rest := switchPacket 2++switchPacket 4}}})=true := by decide +kernel
    revert hs
    cases login bareLogin "mysql_native_password" [1,2,3] {proto := {
      reader := {rest := switchPacket 2++switchPacket 4}}} with
    | done u t => exact fun _ => ⟨t,rfl⟩
    | thrown e t => exact fun hs => by cases hs
    | waiting t => exact fun hs => by cases hs
  obtain ⟨e,he,ht,-⟩ := h.mp hdone
  have htype : (login bareLogin "mysql_native_password" [1,2,3] {proto := {
      reader := {rest := switchPacket 2++switchPacket 4}}}).state.seen.getLast?.map Seen.type=
      some 0xFE := by decide +kernel
  rw [he,Option.map_some,ht] at htype
  cases htype

end SpiritMysql.Auth
