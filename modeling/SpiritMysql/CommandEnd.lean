import SpiritMysql.PreparedRun

/-!
# Commands that succeeded

A command of the library that resolves was sent, and the last answer to it was a
success. What is known about the server before that answer gives what is known
after the command.
-/

namespace SpiritMysql.Conn

open AsyncAction Errors Protocol TrxStore

/-- The log is only added to, and a connection stays. -/
structure Follows (w w' : World) : Prop where
  /-- The log. -/
  log : ∃ added,w'.log=w.log++added
  /-- The connection. -/
  connected : w.conn.protocol.isSome=true → w'.conn.protocol.isSome=true

/-- The SQL is sent between two states. -/
def SentSince (sql : Sql) (w w' : World) : Prop :=
  ∃ added id,w'.log=w.log++added ∧ Entry.sent id (.query sql) ∈ added

namespace Follows

theorem refl (w : World) : Follows w w := ⟨⟨[],by simp⟩,id⟩

theorem trans (w w' w'' : World) (h : Follows w w') (h' : Follows w' w'') : Follows w w'' := by
  obtain ⟨a,ha⟩ := h.log
  obtain ⟨b,hb⟩ := h'.log
  exact ⟨⟨a++b,by rw [hb,ha,List.append_assoc]⟩,fun hc => h'.connected (h.connected hc)⟩

/-- Every command does. -/
theorem respects : Respects Follows (fun _ => True) (fun _ => True) where
  refl := refl
  trans := trans
  initDb := fun _ => trivial
  send := by
    intro c _ w
    unfold Conn.send
    split
    · exact ⟨⟨_,rfl⟩,id⟩
    · exact refl w
  receive := by
    intro c _ w
    rcases receive_cases c w with h | h | ⟨p,a,answers,_,_,_,h⟩ <;> rw [h]
    · exact refl w
    · exact refl w
    · exact ⟨⟨_,rfl⟩,fun _ => rfl⟩
  schema := fun _ _ _ => ⟨⟨[],by simp [World.setProtocol]⟩,fun _ => rfl⟩
  update := fun _ _ _ _ _ _ _ => ⟨⟨[],by simp [World.setProtocol]⟩,fun _ => rfl⟩

/-- What is sent later is sent since the earlier state. -/
theorem sent {sql : Sql} {w w' w'' : World} (h : Follows w w') (h' : SentSince sql w' w'') :
    SentSince sql w w'' := by
  obtain ⟨a,ha⟩ := h.log
  obtain ⟨b,id,hb,hm⟩ := h'
  exact ⟨a++b,id,by rw [hb,ha,List.append_assoc],List.mem_append_right a hm⟩

end Follows

/-- Only commands of a kind are sent between two states. -/
def SendsOnly (P : Command → Prop) (w w' : World) : Prop :=
  ∃ added,w'.log=w.log++added ∧ ∀ id c,Entry.sent id c ∈ added → P c

namespace SendsOnly

variable {P : Command → Prop}

theorem refl (w : World) : SendsOnly P w w := ⟨[],by simp,by simp⟩

/-- The log stays as it is. -/
theorem of_log {w w' : World} (h : w'.log=w.log) : SendsOnly P w w' := ⟨[],by simp [h],by simp⟩

theorem trans (w w' w'' : World) (h : SendsOnly P w w') (h' : SendsOnly P w' w'') :
    SendsOnly P w w'' := by
  obtain ⟨a,ha,hc⟩ := h
  obtain ⟨b,hb,hd⟩ := h'
  refine ⟨a++b,by rw [hb,ha,List.append_assoc],fun id c hm => ?_⟩
  exact (List.mem_append.mp hm).elim (hc id c) (hd id c)

/-- One more entry in the log. -/
theorem note {w w' : World} {e : Entry} (h : w'.log=w.log++[e]) (he : ∀ id c,e=.sent id c → P c) :
    SendsOnly P w w' := by
  refine ⟨[e],h,fun id c hm => ?_⟩
  exact he id c (List.mem_singleton.mp hm).symm

/-- The commands of the kind. -/
theorem respects (hinit : ∀ schema,P (.initDb schema)) :
    Respects (SendsOnly P) P (fun _ => True) where
  refl := refl
  trans := trans
  initDb := hinit
  send := by
    intro c hc w
    unfold Conn.send
    split
    · refine note rfl (fun id c' he => ?_)
      cases he
      exact hc
    · exact refl w
  receive := by
    intro c hc w
    rcases receive_cases c w with h | h | ⟨p,a,answers,_,_,_,h⟩ <;> rw [h]
    · exact refl w
    · exact refl w
    · exact note rfl (fun id c' he => by cases he)
  schema := fun w p hp => of_log rfl
  update := fun w p q hp hq hc hs => of_log rfl

end SendsOnly

/-- What was sent stays sent. -/
theorem SentSince.follows {sql : Sql} {w w' w'' : World} (h : SentSince sql w w')
    (h' : Follows w' w'') : SentSince sql w w'' := by
  obtain ⟨a,id,ha,hm⟩ := h
  obtain ⟨b,hb⟩ := h'.log
  exact ⟨a++b,id,by rw [hb,ha,List.append_assoc],List.mem_append_left b hm⟩

/-- A relation that an operation keeps holds when it resolves. -/
theorem done_of_always {α : Type} {R : World → World → Prop} {x : Op α} (hx : Always R x) {w w' : World}
    {a : α} (h : x w=.done a w') : R w w' := by
  have hw := hx w
  rw [h] at hw
  exact hw

section Sent

variable {w w' : World} {sql : Sql}

/-- A command is written to a connection. -/
theorem send_sent (hp : w.conn.protocol.isSome=true) (h : send (.query sql) w=.done () w') :
    SentSince sql w w' := by
  unfold send at h
  cases hq : w.conn.protocol with
  | none =>
    rw [hq] at hp
    cases hp
  | some p =>
    rw [hq] at h
    cases h
    exact ⟨_,_,rfl,List.mem_singleton_self _⟩

/-- A query that is answered was sent. -/
theorem exchange_sent (hp : w.conn.protocol.isSome=true) {void : Bool} {last : Attempt}
    (h : exchange (.text sql) void w=.done last w') : SentSince sql w w' := by
  have hr := Follows.respects
  obtain ⟨initDb,w₁,h₁,h⟩ := bind_eq_done.mp h
  obtain ⟨_,w₂,h₂,h⟩ := bind_eq_done.mp h
  obtain ⟨_,w₃,h₃,h⟩ := bind_eq_done.mp h
  have hbefore := Follows.trans _ _ _ (done_of_always hr.maybeInitDb h₁)
    (done_of_always (hr.sendInitDb initDb) h₂)
  have hafter : Follows w₃ w' := done_of_always (hr.bind (hr.readInitDb initDb)
    (fun _ => hr.bind (hr.readResults trivial void) (fun _ => hr.pure _))) h
  exact (hbefore.sent (send_sent (hbefore.connected hp) h₃)).follows hafter

/-- A batch that is answered was sent. -/
theorem exchangeThree_sent (hp : w.conn.protocol.isSome=true) {preStmt : Option PreStmt}
    {prequery : Option Sql} {ignorePrequeryError void : Bool} {last : Attempt}
    (h : exchangeThree preStmt prequery ignorePrequeryError (.text sql) void w=.done last w') :
    SentSince sql w w' := by
  have hr := Follows.respects
  obtain ⟨initDb,w₁,h₁,h⟩ := bind_eq_done.mp h
  obtain ⟨_,w₂,h₂,h⟩ := bind_eq_done.mp h
  obtain ⟨_,w₃,h₃,h⟩ := bind_eq_done.mp h
  obtain ⟨_,w₄,h₄,h⟩ := bind_eq_done.mp h
  obtain ⟨_,w₅,h₅,h⟩ := bind_eq_done.mp h
  have hbefore := Follows.trans _ _ _ (Follows.trans _ _ _ (done_of_always hr.maybeInitDb h₁)
    (done_of_always (hr.sendInitDb initDb) h₂)) (Follows.trans _ _ _
      (done_of_always (hr.sendPreStmt (fun _ _ => trivial)) h₃)
      (done_of_always (hr.sendPrequery (fun _ _ => trivial)) h₄))
  have hafter : Follows w₅ w' := by
    refine done_of_always (hr.bind (hr.readInitDb initDb) (fun early => hr.bind
      (hr.readPreStmt (fun _ _ => trivial)) (fun preError => ?_))) h
    cases preError with
    | some e => exact hr.pure _
    | none => exact hr.bind (hr.readPrequery _ (fun _ _ => trivial)) (fun _ => hr.readLast trivial _ _)
  exact (hbefore.sent (send_sent (hbefore.connected hp) h₅)).follows hafter

/-- A query of the library that ends was sent. -/
theorem queryLoop_sent (hp : w.conn.protocol.isSome=true) {isFromPool retryLockWaitTimeout : Bool}
    {n : ℕ} {r : Option Unit}
    (h : queryLoop true isFromPool retryLockWaitTimeout n (.text sql) w=.done r w') :
    SentSince sql w w' := by
  have hr := Follows.respects
  have hc : ∀ last,Always Follows (conclude (Source.text sql).command last true isFromPool) :=
    fun last => hr.conclude (Or.inl rfl) last isFromPool
  cases n with
  | zero =>
    obtain ⟨last,w₁,hx,h⟩ := bind_eq_done.mp h
    exact (exchange_sent hp hx).follows (done_of_always (hc last) h)
  | succ n =>
    obtain ⟨last,w₁,hx,h⟩ := bind_eq_done.mp h
    exact (exchange_sent hp hx).follows (done_of_always
      (Always.ite (hr.queryLoop (Or.inl rfl) _ _ _ (Respects.sends_text trivial)) (hc last)) h)

/-- A batch of the library that ends was sent. -/
theorem threeLoop_sent (hp : w.conn.protocol.isSome=true)
    {ignorePrequeryError isFromPool retryLockWaitTimeout : Bool} {n : ℕ} {prequery : Option Sql}
    {r : Option Unit} (h : threeLoop ignorePrequeryError true isFromPool retryLockWaitTimeout n none
      prequery (.text sql) w=.done r w') : SentSince sql w w' := by
  have hr := Follows.respects
  have hc : ∀ last,Always Follows (conclude (Source.text sql).command last true isFromPool) :=
    fun last => hr.conclude (Or.inl rfl) last isFromPool
  cases n with
  | zero =>
    obtain ⟨last,w₁,hx,h⟩ := bind_eq_done.mp h
    exact (exchangeThree_sent hp hx).follows (done_of_always (hc last) h)
  | succ n =>
    obtain ⟨last,w₁,hx,h⟩ := bind_eq_done.mp h
    exact (exchangeThree_sent hp hx).follows (done_of_always (Always.ite
      (hr.threeLoop (Or.inl rfl) _ _ _ _ (fun _ _ => trivial) (fun _ _ => trivial)
        (Respects.sends_text trivial)) (hc last)) h)

/-- A command of the library that resolves was sent. -/
theorem command_sent (h : command sql w=.done () w') : SentSince sql w w' := by
  obtain ⟨_,_,hg,h⟩ := bind_eq_done.mp h
  cases hg
  obtain ⟨_,w₁,h,hpure⟩ := bind_eq_done.mp h
  cases hpure
  obtain ⟨isFromPool,w₂,hq,h⟩ := bind_eq_done.mp h
  have hfirst := done_of_always Follows.respects.setQueryingState hq
  obtain ⟨p,hp,rfl⟩ := setQueryingState_done hq
  exact hfirst.sent (queryLoop_sent rfl h)

/-- The second of two commands of the library that resolve was sent. -/
theorem twoCommands_sent {prequery : Sql} {ignorePrequeryError : Bool}
    (h : twoCommands prequery ignorePrequeryError sql w=.done () w') : SentSince sql w w' := by
  obtain ⟨_,_,hg,h⟩ := bind_eq_done.mp h
  cases hg
  obtain ⟨_,w₁,h,hpure⟩ := bind_eq_done.mp h
  cases hpure
  obtain ⟨isFromPool,w₂,hq,h⟩ := bind_eq_done.mp h
  have hfirst := done_of_always Follows.respects.setQueryingState hq
  obtain ⟨p,hp,rfl⟩ := setQueryingState_done hq
  exact hfirst.sent (threeLoop_sent rfl h)

end Sent

/-! ## The last answer -/

/-- After a state the SQL succeeded with the last answer, and the state of the server is
the one after it. -/
structure Succeeded (R : World → World → Prop) (sql : Sql) (w w' : World) : Prop where
  /-- The state before the answer, and what the server then does. -/
  last : ∃ w₀ p hasRows answers q,R w w₀ ∧ w₀.conn.protocol=some p ∧
    w₀.reply p (.query sql)=some (.ok hasRows false,answers) ∧ w'.conn.protocol=some q ∧
    q.session=w₀.server.exec sql p.nResults p.session ∧
    q.inTrans=q.session.inTrans w₀.server.detachOnPrepare

section Last

variable {R : World → World → Prop} {P Q : Command → Prop} {w w' : World} {sql : Sql}

/-- A success is read. -/
theorem receive_ok (hs : sql.isUser=false) {a : Answer} (h : receive (.query sql) w=.done a w')
    (ha : a.error=none) : ∃ p hasRows answers,w.conn.protocol=some p ∧ a=.ok hasRows false ∧
      w.reply p (.query sql)=some (.ok hasRows false,answers) ∧
      w'.conn.protocol=some (p.after w.server (.query sql) (.ok hasRows false)) := by
  rcases receive_cases (.query sql) w with hc | hc | ⟨p,b,answers,hp,_,hrep,hc⟩
  · rw [hc] at h
    cases h
  · rw [hc] at h
    cases h
    cases ha
  · rw [hc] at h
    cases h
    cases a with
    | lost => cases ha
    | refused e => cases ha
    | ok hasRows more =>
      have hm : more=false := reply_plain hs hrep
      subst hm
      exact ⟨p,hasRows,answers,hp,rfl,hrep,rfl⟩

/-- The result of a command of the library is a success. -/
theorem readLast_ok (hs : sql.isUser=false) {earlier : Option Error} {last : Attempt}
    (h : readLast (.query sql) earlier true w=.done last w') (hl : last.1=none) :
    earlier=none ∧ ∃ p hasRows answers,w.conn.protocol=some p ∧
      w.reply p (.query sql)=some (.ok hasRows false,answers) ∧
      w'.conn.protocol=some (p.after w.server (.query sql) (.ok hasRows false)) := by
  obtain ⟨a,w₁,hr,h⟩ := bind_eq_done.mp h
  cases he : a.error.or earlier with
  | some e =>
    rw [he] at h
    cases h
    cases hl
  | none =>
    rw [he] at h
    obtain ⟨hae,hee⟩ := Option.or_eq_none_iff.mp he
    obtain ⟨p,hasRows,answers,hp,rfl,hrep,hp'⟩ := receive_ok hs hr hae
    have hd : doDiscard (.query sql) w₁=.done none w₁ := by
      apply doDiscard_none
      rw [hp']
      exact after_more rfl rfl
    dsimp only at h
    rw [branch_apply,if_pos rfl,bind_apply,hd,Outcome.andThen_done] at h
    cases h
    exact ⟨hee,p,hasRows,answers,hp,hrep,hp'⟩

/-- Reading a result is reading the last one of a batch, without an earlier error. -/
theorem readResults_eq (c : Command) (void : Bool) : readResults c void=readLast c none void := by
  unfold readResults readLast
  funext w
  simp only [bind_apply,Option.or_none]

/-- The end of a command, in terms of the last attempt. -/
theorem conclude_ok {command : Option Command} {attempt : Attempt} {r : Option Unit}
    (h : conclude command attempt true false w=.done r w') : attempt.1=none ∧
      w'.conn.protocol=w.conn.protocol.map fun p => {p with state := .IDLE} := by
  unfold conclude at h
  cases ha : attempt.1 with
  | some e =>
    rw [ha] at h
    exact absurd h rethrowErrorIfFatal_throws
  | none =>
    rw [ha] at h
    obtain ⟨_,w₁,hs,h⟩ := bind_eq_done.mp h
    cases h
    refine ⟨rfl,?_⟩
    unfold setStateAfter at hs
    rw [modify_apply] at hs
    cases hs
    cases hp : w.conn.protocol with
    | none => simp [hp]
    | some p => simp [World.setProtocol]

/-- After the last answer only the state of the connection changes. -/
theorem succeeded_of_ok {w₀ w₁ : World} (hR : R w w₀) {p : MyProtocol} {hasRows : Bool}
    {answers : List Answer} (hp : w₀.conn.protocol=some p)
    (hrep : w₀.reply p (.query sql)=some (.ok hasRows false,answers))
    (hp₁ : w₁.conn.protocol=some (p.after w₀.server (.query sql) (.ok hasRows false)))
    (hw : w'.conn.protocol=w₁.conn.protocol.map fun p => {p with state := .IDLE}) :
    Succeeded R sql w w' := by
  refine ⟨w₀,p,hasRows,answers,_,hR,hp,hrep,by rw [hw,hp₁]; rfl,rfl,rfl⟩

/-- A query of the library that succeeds. -/
theorem exchange_ok (h : Respects R P Q) (hP : P (.query sql)) (hs : sql.isUser=false)
    {last : Attempt} (hx : exchange (.text sql) true w=.done last w') (hl : last.1=none) :
    ∃ w₀ p hasRows answers,R w w₀ ∧ w₀.conn.protocol=some p ∧
      w₀.reply p (.query sql)=some (.ok hasRows false,answers) ∧
      w'.conn.protocol=some (p.after w₀.server (.query sql) (.ok hasRows false)) := by
  obtain ⟨initDb,w₁,h₁,hx⟩ := bind_eq_done.mp hx
  obtain ⟨_,w₂,h₂,hx⟩ := bind_eq_done.mp hx
  obtain ⟨_,w₃,h₃,hx⟩ := bind_eq_done.mp hx
  obtain ⟨early,w₄,h₄,hx⟩ := bind_eq_done.mp hx
  obtain ⟨attempt,w₅,h₅,hx⟩ := bind_eq_done.mp hx
  cases hx
  have hbefore : R w w₄ := h.trans _ _ _ (h.trans _ _ _ (done_of_always h.maybeInitDb h₁)
    (done_of_always (h.sendInitDb initDb) h₂)) (h.trans _ _ _ (done_of_always (h.send _ hP) h₃)
      (done_of_always (h.readInitDb initDb) h₄))
  rw [readResults_eq] at h₅
  obtain ⟨_,p,hasRows,answers,hp,hrep,hp'⟩ := readLast_ok hs h₅ (Option.or_eq_none_iff.mp hl).2
  exact ⟨w₄,p,hasRows,answers,hbefore,hp,hrep,hp'⟩

/-- A batch of the library that succeeds. -/
theorem exchangeThree_ok (h : Respects R P Q) (hP : P (.query sql)) (hs : sql.isUser=false)
    {prequery : Option Sql} (hpre : ∀ sql,prequery=some sql → P (.query sql))
    {ignorePrequeryError : Bool} {last : Attempt}
    (hx : exchangeThree none prequery ignorePrequeryError (.text sql) true w=.done last w')
    (hl : last.1=none) : ∃ w₀ p hasRows answers,R w w₀ ∧ w₀.conn.protocol=some p ∧
      w₀.reply p (.query sql)=some (.ok hasRows false,answers) ∧
      w'.conn.protocol=some (p.after w₀.server (.query sql) (.ok hasRows false)) := by
  obtain ⟨initDb,w₁,h₁,hx⟩ := bind_eq_done.mp hx
  obtain ⟨_,w₂,h₂,hx⟩ := bind_eq_done.mp hx
  obtain ⟨_,w₃,h₃,hx⟩ := bind_eq_done.mp hx
  cases h₃
  obtain ⟨_,w₄,h₄,hx⟩ := bind_eq_done.mp hx
  obtain ⟨_,w₅,h₅,hx⟩ := bind_eq_done.mp hx
  obtain ⟨early,w₆,h₆,hx⟩ := bind_eq_done.mp hx
  obtain ⟨preError,w₇,h₇,hx⟩ := bind_eq_done.mp hx
  cases h₇
  obtain ⟨preqError,w₈,h₈,hx⟩ := bind_eq_done.mp hx
  have hsent : R w w₅ := h.trans _ _ _ (h.trans _ _ _ (done_of_always h.maybeInitDb h₁)
    (done_of_always (h.sendInitDb initDb) h₂)) (h.trans _ _ _
      (done_of_always (h.sendPrequery hpre) h₄) (done_of_always (h.send _ hP) h₅))
  have hbefore : R w w₈ := h.trans _ _ _ hsent (h.trans _ _ _
    (done_of_always (h.readInitDb initDb) h₆) (done_of_always (h.readPrequery _ hpre) h₈))
  obtain ⟨_,p,hasRows,answers,hp,hrep,hp'⟩ := readLast_ok hs hx hl
  exact ⟨w₈,p,hasRows,answers,hbefore,hp,hrep,hp'⟩

/-- A query of the library that is sent until it succeeds. -/
theorem queryLoop_ok (h : Respects R P Q) (hP : P (.query sql)) (hs : sql.isUser=false)
    {retryLockWaitTimeout : Bool} {n : ℕ} {r : Option Unit}
    (hx : queryLoop true false retryLockWaitTimeout n (.text sql) w=.done r w') :
    Succeeded R sql w w' := by
  induction n generalizing w with
  | zero =>
    obtain ⟨last,w₁,h₁,hx⟩ := bind_eq_done.mp hx
    obtain ⟨hl,hw⟩ := conclude_ok hx
    obtain ⟨w₀,p,hasRows,answers,hR,hp,hrep,hp'⟩ := exchange_ok h hP hs h₁ hl
    exact succeeded_of_ok hR hp hrep hp' hw
  | succ n ih =>
    obtain ⟨last,w₁,h₁,hx⟩ := bind_eq_done.mp hx
    rw [branch_apply] at hx
    split at hx
    · obtain ⟨w₀,p,hasRows,answers,q,hR,hrest⟩ := (ih hx).last
      have hfirst : R w w₁ := done_of_always (h.exchange (Respects.sends_text hP) true) h₁
      exact ⟨w₀,p,hasRows,answers,q,h.trans _ _ _ hfirst hR,hrest⟩
    · obtain ⟨hl,hw⟩ := conclude_ok hx
      obtain ⟨w₀,p,hasRows,answers,hR,hp,hrep,hp'⟩ := exchange_ok h hP hs h₁ hl
      exact succeeded_of_ok hR hp hrep hp' hw

/-- A batch of the library that is sent until it succeeds. -/
theorem threeLoop_ok (h : Respects R P Q) (hP : P (.query sql)) (hs : sql.isUser=false)
    {prequery : Option Sql} (hpre : ∀ sql,prequery=some sql → P (.query sql))
    {ignorePrequeryError retryLockWaitTimeout : Bool} {n : ℕ} {r : Option Unit}
    (hx : threeLoop ignorePrequeryError true false retryLockWaitTimeout n none prequery (.text sql) w=
      .done r w') : Succeeded R sql w w' := by
  induction n generalizing w prequery with
  | zero =>
    obtain ⟨last,w₁,h₁,hx⟩ := bind_eq_done.mp hx
    obtain ⟨hl,hw⟩ := conclude_ok hx
    obtain ⟨w₀,p,hasRows,answers,hR,hp,hrep,hp'⟩ := exchangeThree_ok h hP hs hpre h₁ hl
    exact succeeded_of_ok hR hp hrep hp' hw
  | succ n ih =>
    obtain ⟨last,w₁,h₁,hx⟩ := bind_eq_done.mp hx
    rw [branch_apply] at hx
    split at hx
    · obtain ⟨w₀,p,hasRows,answers,q,hR,hrest⟩ :=
        (ih (fun _ hn => absurd hn (Option.some_ne_none _).symm) hx).last
      have hfirst : R w w₁ := done_of_always (h.exchangeThree (fun _ hn => absurd hn
        (Option.some_ne_none _).symm) hpre (Respects.sends_text hP) _ true) h₁
      exact ⟨w₀,p,hasRows,answers,q,h.trans _ _ _ hfirst hR,hrest⟩
    · obtain ⟨hl,hw⟩ := conclude_ok hx
      obtain ⟨w₀,p,hasRows,answers,hR,hp,hrep,hp'⟩ := exchangeThree_ok h hP hs hpre h₁ hl
      exact succeeded_of_ok hR hp hrep hp' hw

/-- A command of the library that resolves. -/
theorem command_ok (h : Respects R P Q) (hP : P (.query sql)) (hs : sql.isUser=false)
    (hx : command sql w=.done () w') : Succeeded R sql w w' := by
  obtain ⟨_,_,hg,hx⟩ := bind_eq_done.mp hx
  cases hg
  obtain ⟨_,w₁,hx,hpure⟩ := bind_eq_done.mp hx
  cases hpure
  obtain ⟨isFromPool,w₂,hq,hx⟩ := bind_eq_done.mp hx
  rw [Bool.and_false] at hx
  obtain ⟨w₀,p,hasRows,answers,q,hR,hrest⟩ := (queryLoop_ok h hP hs hx).last
  exact ⟨w₀,p,hasRows,answers,q,h.trans _ _ _ (done_of_always h.setQueryingState hq) hR,hrest⟩

/-- Two commands of the library that resolve. -/
theorem twoCommands_ok (h : Respects R P Q) {prequery : Sql} (hpre : P (.query prequery))
    (hP : P (.query sql)) (hs : sql.isUser=false) {ignorePrequeryError : Bool}
    (hx : twoCommands prequery ignorePrequeryError sql w=.done () w') : Succeeded R sql w w' := by
  obtain ⟨_,_,hg,hx⟩ := bind_eq_done.mp hx
  cases hg
  obtain ⟨_,w₁,hx,hpure⟩ := bind_eq_done.mp hx
  cases hpure
  obtain ⟨isFromPool,w₂,hq,hx⟩ := bind_eq_done.mp hx
  rw [Bool.and_false] at hx
  have hone : ∀ sql,some prequery=some sql → P (.query sql) := fun _ he => Option.some_inj.mp he ▸ hpre
  obtain ⟨w₀,p,hasRows,answers,q,hR,hrest⟩ := (threeLoop_ok h hP hs hone hx).last
  exact ⟨w₀,p,hasRows,answers,q,h.trans _ _ _ (done_of_always h.setQueryingState hq) hR,hrest⟩

end Last

end SpiritMysql.Conn
