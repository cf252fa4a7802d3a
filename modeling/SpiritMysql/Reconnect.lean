import SpiritMysql.Coupling
import SpiritMysql.ConnRun

/-!
# What is executed on a connection

The commands that the server executed, each with the schema it was executed in. Two
connections on which the same is about to be executed stay alike, whatever schema each
of them had before.
-/

namespace SpiritMysql.Conn

open AsyncAction Errors Protocol TrxStore

/-- The default schema and the commands executed so far, after one more entry of the log. -/
def track (t : String×List (String×Command)) : Entry → String×List (String×Command)
  | .sent _ _ => t
  | .answered _ (.initDb schema) a => if a.error=none then (schema,t.2) else t
  | .answered _ c _ => (t.1,t.2++[(t.1,c)])

/-- The default schema and the commands executed, from a schema in the beginning. -/
def World.tracked (w : World) (db : String) : String×List (String×Command) := w.log.foldl track (db,[])

/-- The commands that the server executed, each with the schema it was executed in,
without the ones that select a schema. -/
def World.executed (w : World) (db : String) : List (String×Command) := (w.tracked db).2

/-- The schema that `#maybeInitDb()` selects. -/
def MyProtocol.initDb (p : MyProtocol) : Option String :=
  if p.pendingChangeSchema≠"" ∧ (p.schema="" ∨ p.schema≠p.pendingChangeSchema) then
    some p.pendingChangeSchema
  else none

/-- A connection without what tells it from other connections of the pool. -/
def MyProtocol.anonymous (p : MyProtocol) : MyProtocol :=
  {p with
    connectionId := 0,state := if p.state=.IDLE_IN_POOL then .IDLE else p.state
    schema := "",pendingChangeSchema := "",tracksSchema := true,db := ""}

/-- What the next commands of a connection object depend on. -/
def World.frame (w : World) : MyConn×Server×Bool :=
  ({w.conn with protocol := w.conn.protocol.map MyProtocol.anonymous,savepointEnum := 0},w.server,
    w.retryLockWaitTimeout)

/-- The answer to `COM_INIT_DB`, when it is sent. -/
def initAnswers : Option String → List Answer
  | some _ => [.ok false false]
  | none => []

/-- A command that does not select a schema. -/
def NoInitDb (c : Option Command) : Prop := ∀ schema,c≠some (.initDb schema)

/-- A connection that works, on which a schema may still have to be selected: the
schema in which the next command will be executed, the commands executed so far, and
the answers to come. -/
structure Answering (a : String) (initDb : Option String) (w : World) (p : MyProtocol) (db : String)
    (commands : List (String×Command)) (answers : List Answer) : Prop where
  /-- The connection is taken. -/
  protocol : w.conn.protocol=some p
  /-- It works. -/
  alive : p.isAlive=true
  /-- What the server reported is true. -/
  schema : p.schema="" ∨ p.tracksSchema=true ∧ p.schema=(w.tracked a).1
  /-- The answers to come. -/
  answers : w.answers=initAnswers initDb++answers
  /-- The schema of the next command. -/
  db : initDb.getD (w.tracked a).1=db
  /-- The commands so far. -/
  commands : (w.tracked a).2=commands
  /-- A schema is selected before anything else only. -/
  quiet : initDb=none ∨ p.session.trx=none ∧ p.inTrans=false ∧ p.inTransReadonly=false ∧
    p.moreResults=false ∧ p.nResults=0
  /-- The results that are open are those of a query. -/
  opened : NoInitDb p.curCommand

section OneSide

variable {a db : String} {initDb : Option String} {w : World} {p : MyProtocol}
  {commands : List (String×Command)} {answers : List Answer}

/-- The frame of a connection that was changed. -/
theorem frame_setProtocol : (w.setProtocol p).frame=
    ({w.frame.1 with protocol := some p.anonymous},w.frame.2) := rfl

/-- Answers concern only what is alike. -/
theorem anonymous_after (b : Server) (c : Command) (x : Answer) :
    (p.after b c x).anonymous=(p.anonymous.after b c x).anonymous := by
  obtain ⟨id,state,reported,pending,inTrans,inTransReadonly,more,cur,times,tracks,isAlive,db,session,stmts,
    nResults⟩ := p
  cases x <;> cases c <;> cases state <;> rfl

/-- Entries after the others. -/
theorem tracked_append (log entries : List Entry) (t : String×List (String×Command)) :
    (log++entries).foldl track t=entries.foldl track (log.foldl track t) := List.foldl_append

/-- Selecting a schema on a connection that was not used yet changes only the schema. -/
theorem anonymous_initDb {b : Server} {schema : String} (htrx : p.session.trx=none)
    (hin : p.inTrans=false) (hreadonly : p.inTransReadonly=false) (hmore : p.moreResults=false)
    (hn : p.nResults=0) : (p.after b (.initDb schema) (.ok false false)).anonymous=p.anonymous := by
  obtain ⟨id,state,reported,pending,inTrans,inTransReadonly,more,cur,times,tracks,isAlive,db,session,stmts,
    nResults⟩ := p
  obtain ⟨committed,trx⟩ := session
  dsimp only at htrx hin hreadonly hmore hn
  subst htrx hin hreadonly hmore hn
  rfl

/-- Taking the pending schema. -/
theorem maybeInitDb_done (hp : w.conn.protocol=some p) :
    maybeInitDb w=.done p.initDb (w.setProtocol {p with pendingChangeSchema := ""}) := by
  unfold maybeInitDb MyProtocol.initDb
  rw [hp]
  dsimp only
  by_cases he : p.pendingChangeSchema=""
  · rw [if_pos he,if_neg (fun h => h.1 he)]
    have hq : ({p with pendingChangeSchema := ""} : MyProtocol)=p := by
      rw [←he]
    have hw : w.setProtocol p=w := by
      unfold World.setProtocol
      rw [←hp]
    rw [hq,hw]
  · rw [if_neg he]
    by_cases hs : p.schema="" ∨ p.schema≠p.pendingChangeSchema
    · rw [if_pos hs,if_pos ⟨he,hs⟩]
    · rw [if_neg hs,if_neg (fun h => hs h.2)]

/-- A command is written. -/
theorem Answering.send (h : Answering a initDb w p db commands answers) (c : Command) :
    ∃ w',Conn.send c w=.done () w' ∧ Answering a initDb w' p db commands answers ∧ w'.frame=w.frame := by
  refine ⟨w.note (.sent p.connectionId c),?_,?_,rfl⟩
  · unfold Conn.send
    rw [h.protocol]
  · have ht : (w.note (.sent p.connectionId c)).tracked a=w.tracked a := by
      unfold World.tracked World.note
      rw [tracked_append]
      rfl
    exact ⟨h.protocol,h.alive,ht.symm ▸ h.schema,h.answers,ht.symm ▸ h.db,ht.symm ▸ h.commands,
      h.quiet,h.opened⟩

/-- The pending schema is taken. -/
theorem Answering.take (h : Answering a p.initDb w p db commands answers) :
    ∃ w',maybeInitDb w=.done p.initDb w' ∧
      Answering a p.initDb w' {p with pendingChangeSchema := ""} db commands answers ∧
      w'.frame=w.frame := by
  refine ⟨_,maybeInitDb_done h.protocol,⟨rfl,h.alive,h.schema,h.answers,h.db,h.commands,h.quiet,h.opened⟩,?_⟩
  unfold World.frame
  rw [h.protocol]
  rfl

/-- The answer to `COM_INIT_DB` is read. -/
theorem Answering.select (h : Answering a initDb w p db commands answers)
    (hn : p.pendingChangeSchema="") : ∃ w' p',readInitDb initDb w=.done none w' ∧
      Answering a none w' p' db commands answers ∧ p'.pendingChangeSchema="" ∧ w'.frame=w.frame := by
  cases initDb with
  | none => exact ⟨w,p,rfl,h,hn,rfl⟩
  | some schema =>
    have hanswers : w.answers=.ok false false::answers := h.answers
    have hreply : w.reply p (.initDb schema)=some (.ok false false,answers) := by
      simp only [World.reply,World.verdict,hanswers,MyProtocol.executed,Option.any_none,
        Bool.false_eq_true,if_false,Answer.plain]
    have hrec : receive (.initDb schema) w=.done (.ok false false)
        (World.setProtocol {w.note (.answered p.connectionId (.initDb schema) (.ok false false)) with
          answers := answers} (p.after w.server (.initDb schema) (.ok false false))) := by
      unfold receive
      rw [h.protocol]
      dsimp only
      rw [if_neg (by rw [h.alive]; simp),hreply]
    have ht : World.tracked (World.setProtocol
        {w.note (.answered p.connectionId (.initDb schema) (.ok false false)) with answers := answers}
        (p.after w.server (.initDb schema) (.ok false false))) a=(schema,(w.tracked a).2) := by
      unfold World.tracked World.setProtocol World.note
      rw [tracked_append]
      rfl
    obtain ⟨htrx,hin,hreadonly,hmore,hn'⟩ := h.quiet.resolve_left (Option.some_ne_none schema)
    have hsame : (p.after w.server (.initDb schema) (.ok false false)).anonymous=p.anonymous :=
      anonymous_initDb htrx hin hreadonly hmore hn'
    refine ⟨World.setProtocol {w.note (.answered p.connectionId (.initDb schema) (.ok false false)) with
      answers := answers} (p.after w.server (.initDb schema) (.ok false false)),
      p.after w.server (.initDb schema) (.ok false false),?_,
      ⟨rfl,h.alive,?_,rfl,?_,?_,Or.inl rfl,h.opened⟩,hn,?_⟩
    · show (receive (.initDb schema) w).andThen (fun answer => pure answer.error)=_
      rw [hrec]
      rfl
    · rw [ht]
      have hs : (p.after w.server (.initDb schema) (.ok false false)).schema=
          if p.tracksSchema=true then schema else p.schema := rfl
      rw [hs]
      split
      · rename_i htracks
        exact Or.inr ⟨htracks,rfl⟩
      · rename_i htracks
        exact h.schema.imp_right (fun hh => absurd hh.1 htracks)
    · rw [ht]
      exact h.db
    · rw [ht]
      exact h.commands
    · unfold World.frame World.setProtocol World.note
      dsimp only
      rw [h.protocol,Option.map_some,Option.map_some,hsame]

/-- The state of the connection changes, and which results are open. -/
theorem Answering.update (h : Answering a initDb w p db commands answers) (state : ProtocolState)
    {curCommand : Option Command} (hc : NoInitDb curCommand) :
    Answering a initDb (w.setProtocol {p with state := state,curCommand := curCommand})
      {p with state := state,curCommand := curCommand} db commands answers :=
  ⟨rfl,h.alive,h.schema,h.answers,h.db,h.commands,h.quiet,hc⟩

/-- The answer to a command is read, and the command was executed. -/
theorem Answering.read (h : Answering a none w p db commands answers) {c : Command}
    (hc : ∀ schema,c≠.initDb schema) {x : Answer} {rest : List Answer}
    (hr : w.reply p c=some (x,rest)) (hx : x≠.lost) :
    ∃ w',receive c w=.done x w' ∧
      Answering a none w' (p.after w.server c x) db (commands++[(db,c)]) rest ∧
      w'.frame=({w.frame.1 with protocol := some (p.after w.server c x).anonymous},w.frame.2) := by
  have ht : World.tracked (World.setProtocol {w.note (.answered p.connectionId c x) with answers := rest}
      (p.after w.server c x)) a=((w.tracked a).1,(w.tracked a).2++[((w.tracked a).1,c)]) := by
    unfold World.tracked World.setProtocol World.note
    rw [tracked_append]
    cases c with
    | initDb schema => exact absurd rfl (hc schema)
    | _ => rfl
  refine ⟨World.setProtocol {w.note (.answered p.connectionId c x) with answers := rest}
    (p.after w.server c x),?_,⟨rfl,?_,?_,rfl,?_,?_,Or.inl rfl,?_⟩,rfl⟩
  · unfold receive
    rw [h.protocol]
    dsimp only
    rw [if_neg (by rw [h.alive]; simp),hr]
  · have ha : (p.after w.server c x).isAlive=p.isAlive := by
      cases x with
      | lost => exact absurd rfl hx
      | ok hasRows more => cases c <;> rfl
      | refused e => rfl
    rw [ha]
    exact h.alive
  · have hs : (p.after w.server c x).schema=p.schema ∧ (p.after w.server c x).tracksSchema=p.tracksSchema := by
      cases x with
      | ok hasRows more =>
        cases c with
        | initDb schema => exact absurd rfl (hc schema)
        | _ => exact ⟨rfl,rfl⟩
      | _ => exact ⟨rfl,rfl⟩
    rw [ht,hs.1,hs.2]
    exact h.schema
  · rw [ht]
    exact h.db
  · rw [ht,h.commands]
    have hdb : (w.tracked a).1=db := h.db
    rw [hdb]
  · have hcur : (p.after w.server c x).curCommand=p.curCommand := by
      cases x <;> cases c <;> rfl
    rw [hcur]
    exact h.opened

end OneSide

/-- The same commands were executed. -/
def Same (a b : String) (w v : World) : Prop := w.executed a=v.executed b

/-- Two connections that work, where the next command will be executed in the same
schema, and that are otherwise alike. -/
structure Alike (a b : String) (i j : Option String) (w v : World) (p q : MyProtocol) (db : String)
    (commands : List (String×Command)) (answers : List Answer) : Prop where
  /-- The one connection. -/
  left : Answering a i w p db commands answers
  /-- The other one. -/
  right : Answering b j v q db commands answers
  /-- What else the commands depend on. -/
  frame : w.frame=v.frame
  /-- The connection is not lost. -/
  works : Answer.lost ∉ answers

/-- Alike, before the pending schemas are selected. -/
def Before (a b : String) (w v : World) : Prop :=
  ∃ p q db commands answers,Alike a b p.initDb q.initDb w v p q db commands answers

/-- Alike, without pending schemas. -/
def Level (a b : String) (w v : World) : Prop :=
  ∃ p q db commands answers,Alike a b none none w v p q db commands answers ∧
    p.pendingChangeSchema="" ∧ q.pendingChangeSchema=""

section TwoSides

variable {a b db : String} {i j : Option String} {w v : World} {p q : MyProtocol}
  {commands : List (String×Command)} {answers : List Answer}

/-- What is alike executed the same. -/
theorem Alike.same (h : Alike a b i j w v p q db commands answers) : Same a b w v :=
  h.left.commands.trans h.right.commands.symm

/-- What is alike executed the same. -/
theorem Before.same (h : Before a b w v) : Same a b w v := by
  obtain ⟨_,_,_,_,_,h⟩ := h
  exact h.same

/-- What is alike executed the same. -/
theorem Level.same (h : Level a b w v) : Same a b w v := by
  obtain ⟨_,_,_,_,_,h,_⟩ := h
  exact h.same

/-- Without pending schemas nothing is left to select. -/
theorem Level.before (h : Level a b w v) : Before a b w v := by
  obtain ⟨p,q,db,commands,answers,h,hp,hq⟩ := h
  have hi : p.initDb=none := if_neg (fun hn => hn.1 hp)
  have hj : q.initDb=none := if_neg (fun hn => hn.1 hq)
  refine ⟨p,q,db,commands,answers,?_⟩
  rw [hi,hj]
  exact h

/-- Connections that are alike differ only by their names. -/
theorem Alike.anonymous (h : Alike a b i j w v p q db commands answers) :
    p.anonymous=q.anonymous := by
  have hc := congrArg (fun f => f.1.protocol) h.frame
  simp only [World.frame,h.left.protocol,h.right.protocol,Option.map_some] at hc
  exact Option.some_inj.mp hc

/-- The states of the connections change in the same way. -/
theorem Alike.update (h : Alike a b i j w v p q db commands answers) (state : ProtocolState)
    {c d : Option Command} (hcd : c=d) (hc : NoInitDb c) :
    Alike a b i j (w.setProtocol {p with state := state,curCommand := c})
      (v.setProtocol {q with state := state,curCommand := d}) {p with state := state,curCommand := c}
      {q with state := state,curCommand := d} db commands answers := by
  subst hcd
  refine ⟨h.left.update state hc,h.right.update state hc,?_,h.works⟩
  have hn : ({p with state := state,curCommand := c} : MyProtocol).anonymous=
      ({q with state := state,curCommand := c} : MyProtocol).anonymous := by
    have hq : {p.anonymous with state := (.IDLE : ProtocolState),curCommand := c}=
        {q.anonymous with state := (.IDLE : ProtocolState),curCommand := c} := by
      rw [h.anonymous]
    have hf : ∀ r : MyProtocol,({r with state := state,curCommand := c} : MyProtocol).anonymous=
        {({r.anonymous with state := (.IDLE : ProtocolState),curCommand := c} : MyProtocol) with
          state := if state=.IDLE_IN_POOL then .IDLE else state} := fun r => rfl
    rw [hf,hf,hq]
  rw [frame_setProtocol,frame_setProtocol,h.frame,hn]

/-- The connections are taken for a query, or an error is thrown. -/
theorem Alike.setQueryingState (h : Alike a b i j w v p q db commands answers) :
    Paired (fun _ _ => True) (fun w' v' => Alike a b i j w' v' {p with state := .QUERYING}
      {q with state := .QUERYING} db commands answers) (Same a b)
      (Conn.setQueryingState w) (Conn.setQueryingState v) := by
  have hn := congrArg MyProtocol.state h.anonymous
  have hu := h.update .QUERYING (congrArg MyProtocol.curCommand h.anonymous) h.left.opened
  unfold Conn.setQueryingState
  rw [h.left.protocol,h.right.protocol]
  dsimp only
  simp only [MyProtocol.anonymous] at hn hu
  cases hs : p.state <;> cases ht : q.state <;> rw [hs,ht] at hn <;>
    first
    | exact .done trivial hu
    | exact .thrown h.same
    | cases hn

/-- A command is written. -/
theorem Alike.send (h : Alike a b i j w v p q db commands answers) (c : Command) :
    ∃ w' v',Conn.send c w=.done () w' ∧ Conn.send c v=.done () v' ∧
      Alike a b i j w' v' p q db commands answers := by
  obtain ⟨w',hw,hl,hf⟩ := h.left.send c
  obtain ⟨v',hv,hr,hg⟩ := h.right.send c
  exact ⟨w',v',hw,hv,hl,hr,hf.trans (h.frame.trans hg.symm),h.works⟩

/-- The pending schemas are taken. -/
theorem Alike.take (h : Alike a b p.initDb q.initDb w v p q db commands answers) :
    ∃ w' v',maybeInitDb w=.done p.initDb w' ∧ maybeInitDb v=.done q.initDb v' ∧
      Alike a b p.initDb q.initDb w' v' {p with pendingChangeSchema := ""}
        {q with pendingChangeSchema := ""} db commands answers := by
  obtain ⟨w',hw,hl,hf⟩ := h.left.take
  obtain ⟨v',hv,hr,hg⟩ := h.right.take
  exact ⟨w',v',hw,hv,hl,hr,hf.trans (h.frame.trans hg.symm),h.works⟩

/-- The answers about the schemas are read. -/
theorem Alike.select (h : Alike a b i j w v p q db commands answers) (hp : p.pendingChangeSchema="")
    (hq : q.pendingChangeSchema="") : ∃ w' v' p' q',readInitDb i w=.done none w' ∧
      readInitDb j v=.done none v' ∧ Alike a b none none w' v' p' q' db commands answers ∧
      p'.pendingChangeSchema="" ∧ q'.pendingChangeSchema="" := by
  obtain ⟨w',p',hw,hl,hp',hf⟩ := h.left.select hp
  obtain ⟨v',q',hv,hr,hq',hg⟩ := h.right.select hq
  exact ⟨w',v',p',q',hw,hv,⟨hl,hr,hf.trans (h.frame.trans hg.symm),h.works⟩,hp',hq'⟩

/-- The schemas are written. -/
theorem Alike.sendInitDb (h : Alike a b i j w v p q db commands answers) :
    ∃ w' v',Conn.sendInitDb i w=.done () w' ∧ Conn.sendInitDb j v=.done () v' ∧
      Alike a b i j w' v' p q db commands answers := by
  have hl : ∃ w',Conn.sendInitDb i w=.done () w' ∧ Answering a i w' p db commands answers ∧
      w'.frame=w.frame := by
    cases i with
    | none => exact ⟨w,rfl,h.left,rfl⟩
    | some schema => exact h.left.send (.initDb schema)
  have hr : ∃ v',Conn.sendInitDb j v=.done () v' ∧ Answering b j v' q db commands answers ∧
      v'.frame=v.frame := by
    cases j with
    | none => exact ⟨v,rfl,h.right,rfl⟩
    | some schema => exact h.right.send (.initDb schema)
  obtain ⟨w',hw,hl,hf⟩ := hl
  obtain ⟨v',hv,hr,hg⟩ := hr
  exact ⟨w',v',hw,hv,hl,hr,hf.trans (h.frame.trans hg.symm),h.works⟩

/-- The next answer depends only on what is alike. -/
theorem Alike.reply (h : Alike a b none none w v p q db commands answers) (c : Command) :
    w.reply p c=v.reply q c := by
  have hw : w.answers=v.answers := h.left.answers.trans h.right.answers.symm
  have hs : w.server=v.server := congrArg (fun f => f.2.1) h.frame
  have hp : w.reply p c=w.reply p.anonymous c := rfl
  have hq : v.reply q c=v.reply q.anonymous c := rfl
  rw [hp,hq,h.anonymous]
  simp only [World.reply,World.verdict,hw,hs]

/-- The connection is not lost where none of the answers says so. -/
theorem reply_works {c : Command} {x : Answer} {rest : List Answer} (hw : Answer.lost ∉ w.answers)
    (hr : w.reply p c=some (x,rest)) : x≠.lost ∧ Answer.lost ∉ rest := by
  have hv : ∀ x,w.verdict p c=some x → x≠.lost := by
    intro x hx
    unfold World.verdict at hx
    split at hx
    · split at hx
      · cases hx
        exact fun hn => by cases hn
      · cases hx
        exact fun hn => by cases hn
      · cases hx
    · cases hx
  unfold World.reply at hr
  cases hq : w.verdict p c with
  | some x' =>
    rw [hq] at hr
    cases hr
    exact ⟨hv x hq,hw⟩
  | none =>
    rw [hq] at hr
    dsimp only at hr
    cases ha : w.answers with
    | nil =>
      rw [ha] at hr
      cases hr
    | cons y answers =>
      rw [ha] at hr hw
      cases hr
      obtain ⟨hy,hrest⟩ := not_or.mp (fun hm => hw (List.mem_cons.mpr hm))
      refine ⟨fun hn => hy ?_,hrest⟩
      split at hn
      · exact hn.symm
      · cases y with
        | lost => rfl
        | ok hasRows more => cases hn
        | refused e => cases hn

/-- An answer to the same command is read. -/
theorem Level.receive {c : Command} (hc : ∀ schema,c≠.initDb schema) :
    Coupled (Same a b) (Level a b) (fun x y => x=y ∧ x≠.lost) (Level a b) (Conn.receive c)
      (Conn.receive c) := by
  rintro w v ⟨p,q,db,commands,answers,h,hp,hq⟩
  have hwait : ∀ {u : World} {r : MyProtocol},u.conn.protocol=some r → r.isAlive=true →
      u.reply r c=none → Conn.receive c u=.waiting u := by
    intro u r hr ha hn
    unfold Conn.receive
    rw [hr]
    dsimp only
    rw [if_neg (by rw [ha]; simp),hn]
  cases hr : w.reply p c with
  | none =>
    rw [hwait h.left.protocol h.left.alive hr,
      hwait h.right.protocol h.right.alive (h.reply c ▸ hr)]
    exact .waiting h.same
  | some r =>
    obtain ⟨x,rest⟩ := r
    have hanswers : w.answers=answers := h.left.answers
    obtain ⟨hx,hrest⟩ := reply_works (hanswers ▸ h.works) hr
    obtain ⟨w',hw,hl,hf⟩ := h.left.read hc hr hx
    obtain ⟨v',hv,hr',hg⟩ := h.right.read hc (h.reply c ▸ hr) hx
    rw [hw,hv]
    refine .done ⟨rfl,hx⟩ ⟨_,_,db,_,rest,⟨hl,hr',?_,hrest⟩,?_,?_⟩
    · have hs : w.server=v.server := congrArg (fun f => f.2.1) h.frame
      rw [hf,hg,h.frame,anonymous_after,h.anonymous,←anonymous_after,hs]
    · rw [after_schema,hp]
    · rw [after_schema,hq]

/-- Errors of the server, the same on both sides. -/
def SqlErrors (x y : Option Error) : Prop := x=y ∧ ∀ e,x=some e → e.isSql=true

/-- The error of an answer that arrives is one of the server. -/
theorem error_isSql {x : Answer} (hx : x≠.lost) : ∀ e,x.error=some e → e.isSql=true := by
  intro e he
  cases x with
  | ok hasRows more => cases he
  | lost => exact absurd rfl hx
  | refused s =>
    cases he
    rfl

/-- The connection of a world that is level. -/
theorem Level.field {α : Type} (h : Level a b w v) (f : MyProtocol → α)
    (hf : ∀ r,f r=f r.anonymous) : w.conn.protocol.map f=v.conn.protocol.map f := by
  obtain ⟨p,q,db,commands,answers,h,_⟩ := h
  rw [h.left.protocol,h.right.protocol,Option.map_some,Option.map_some,hf,hf q,h.anonymous]

/-- The results that remain are read. -/
theorem Level.discardLoop {c : Command} (hc : ∀ schema,c≠.initDb schema) (n : ℕ) :
    Coupled (Same a b) (Level a b) SqlErrors (Level a b) (Conn.discardLoop c n) (Conn.discardLoop c n) := by
  induction n with
  | zero => exact Coupled.wait (fun _ _ h => h.same)
  | succ n ih =>
    refine Coupled.get (fun w v h => ?_)
    refine Coupled.ite ?_ ?_ (Coupled.pure ⟨rfl,fun e he => by cases he⟩) w v h
    · rw [h.field MyProtocol.moreResults (fun _ => rfl)]
    · refine Coupled.bind (Level.receive hc) (fun x y hxy => ?_)
      obtain ⟨rfl,hx⟩ := hxy
      cases he : x.error with
      | some e =>
        exact Coupled.pure ⟨rfl,fun e' he' => error_isSql hx e' (he.trans he')⟩
      | none => exact ih

/-- The results that remain are read. -/
theorem Level.doDiscard {c : Command} (hc : ∀ schema,c≠.initDb schema) :
    Coupled (Same a b) (Level a b) SqlErrors (Level a b) (Conn.doDiscard c) (Conn.doDiscard c) := by
  intro w v h
  have hanswers : w.answers=v.answers := by
    obtain ⟨_,_,_,_,_,h,_⟩ := h
    exact h.left.answers.trans h.right.answers.symm
  unfold Conn.doDiscard
  rw [hanswers]
  exact Level.discardLoop hc _ w v h

/-- Attempts with the same end. -/
def SqlAttempts (x y : Attempt) : Prop := x=y ∧ ∀ e,x.1=some e → e.isSql=true

/-- The results of a query are read. -/
theorem Level.readResults {c : Command} (hc : ∀ schema,c≠.initDb schema) (void : Bool) :
    Coupled (Same a b) (Level a b) SqlAttempts (Level a b) (Conn.readResults c void)
      (Conn.readResults c void) := by
  refine Coupled.bind (Level.receive hc) (fun x y hxy => ?_)
  obtain ⟨rfl,hx⟩ := hxy
  cases he : x.error with
  | some e => exact Coupled.pure ⟨rfl,fun e' he' => error_isSql hx e' (he.trans he')⟩
  | none =>
    refine Coupled.ite Iff.rfl ?_ (Coupled.pure ⟨rfl,fun e he => by cases he⟩)
    refine Coupled.bind (Level.doDiscard hc) (fun d d' hd => ?_)
    obtain ⟨rfl,hd⟩ := hd
    exact Coupled.pure ⟨rfl,hd⟩

/-- The schemas are selected, and a query is sent. -/
theorem Before.exchange {source : Source} {sql : Sql} (hs : source.sql=some sql) (void : Bool) :
    Coupled (Same a b) (Before a b) SqlAttempts (Level a b) (Conn.exchange source void)
      (Conn.exchange source void) := by
  rintro w v ⟨p,q,db,commands,answers,h⟩
  obtain ⟨w₁,v₁,hw₁,hv₁,h₁⟩ := h.take
  obtain ⟨w₂,v₂,hw₂,hv₂,h₂⟩ := h₁.sendInitDb
  obtain ⟨w₃,v₃,hw₃,hv₃,h₃⟩ := h₂.send (.query sql)
  obtain ⟨w₄,v₄,p₄,q₄,hw₄,hv₄,h₄,hp₄,hq₄⟩ := h₃.select rfl rfl
  unfold Conn.exchange
  simp only [hs,bind_apply,hw₁,hv₁,hw₂,hv₂,hw₃,hv₃,hw₄,hv₄,Outcome.andThen_done]
  refine (Level.readResults (fun _ hn => by cases hn) void w₄ v₄
    ⟨p₄,q₄,db,commands,answers,h₄,hp₄,hq₄⟩).andThen (fun x y hxy => ?_)
  obtain ⟨rfl,hx⟩ := hxy
  exact Coupled.pure ⟨rfl,hx⟩

/-- The states change in the same way. -/
theorem Level.update (h : Level a b w v) {f g : World → World} (state : ProtocolState)
    (c : MyProtocol → Option Command) (hc : ∀ r,c r=c r.anonymous)
    (hi : ∀ r,NoInitDb r.curCommand → NoInitDb (c r))
    (hf : ∀ u r,u.conn.protocol=some r → f u=u.setProtocol {r with state := state,curCommand := c r})
    (hg : ∀ u r,u.conn.protocol=some r → g u=u.setProtocol {r with state := state,curCommand := c r}) :
    Level a b (f w) (g v) := by
  obtain ⟨p,q,db,commands,answers,h,hp,hq⟩ := h
  rw [hf w p h.left.protocol,hg v q h.right.protocol]
  have hcd : c p=c q := by
    rw [hc,hc q,h.anonymous]
  exact ⟨_,_,db,commands,answers,h.update state hcd (hi p h.left.opened),hp,hq⟩

/-- A change of the state, of the connection that there is. -/
theorem setState_protocol (state : ProtocolState) (u : World) (r : MyProtocol)
    (hr : u.conn.protocol=some r) :
    (match u.conn.protocol with
      | some p => u.setProtocol {p with state := state}
      | none => u)=u.setProtocol {r with state := state,curCommand := r.curCommand} := by
  rw [hr]

/-- The state of the connection changes. -/
theorem Level.setState (state : ProtocolState) :
    Coupled (Same a b) (Level a b) (fun _ _ => True) (Level a b) (Conn.setState state)
      (Conn.setState state) := by
  refine Coupled.modify (fun w v h => ?_)
  have hset := setState_protocol state
  exact h.update state MyProtocol.curCommand (fun _ => rfl) (fun _ => id) hset hset

/-- The state that a successful query leaves. -/
def stateAfter (answer : Answer) (void : Bool) : ProtocolState :=
  if void=true then .IDLE else if answer.hasRows=true then .HAS_MORE_ROWS
  else if answer.more=true then .HAS_MORE_RESULTSETS else .IDLE

/-- The command that a successful query leaves. -/
def commandAfter (command : Option Command) (answer : Answer) (void : Bool) (r : MyProtocol) :
    Option Command :=
  if void=true then r.curCommand else if answer.hasRows=true then command
  else if answer.more=true then command else r.curCommand

/-- The state after a successful query, of the connection that there is. -/
theorem setStateAfter_protocol (command : Option Command) (answer : Answer) (void : Bool)
    (u : World) (r : MyProtocol) (hr : u.conn.protocol=some r) :
    (match u.conn.protocol with
      | some p =>
        if void=true then u.setProtocol {p with state := .IDLE}
        else if answer.hasRows=true then
          u.setProtocol {p with state := .HAS_MORE_ROWS,curCommand := command}
        else if answer.more=true then
          u.setProtocol {p with state := .HAS_MORE_RESULTSETS,curCommand := command}
        else u.setProtocol {p with state := .IDLE}
      | none => u)=u.setProtocol {r with
        state := stateAfter answer void
        curCommand := commandAfter command answer void r} := by
  rw [hr]
  dsimp only [stateAfter,commandAfter]
  split_ifs <;> rfl

/-- The state after a successful query. -/
theorem Level.setStateAfter {command : Option Command} (hc : NoInitDb command) (answer : Answer)
    (void : Bool) :
    Coupled (Same a b) (Level a b) (fun _ _ => True) (Level a b)
      (Conn.setStateAfter command answer void) (Conn.setStateAfter command answer void) := by
  refine Coupled.modify (fun w v h => ?_)
  have hset := setStateAfter_protocol command answer void
  refine h.update (stateAfter answer void) (commandAfter command answer void) (fun _ => rfl)
    (fun r hr => ?_) hset hset
  unfold commandAfter
  split_ifs
  · exact hr
  · exact hc
  · exact hc
  · exact hr

/-- An error of the server is thrown again. -/
theorem Level.rethrowErrorIfFatal {α : Type} {V : Option α → Option α → Prop} {e : Error}
    (he : e.isSql=true) (isFromPool isFromPool' : Bool) :
    Coupled (Same a b) (Level a b) V (Level a b) (Conn.rethrowErrorIfFatal e isFromPool)
      (Conn.rethrowErrorIfFatal e isFromPool') := by
  unfold Conn.rethrowErrorIfFatal
  rw [if_pos he,if_pos he]
  exact Coupled.bind (Level.setState _) (fun _ _ _ => Coupled.fail (fun _ _ h => h.same) e)

/-- An error is thrown again, or not. -/
theorem Level.rethrow_trailing {α : Type} (e : Error) (isFromPool isFromPool' : Bool) :
    Trailing (Same a b) (Level a b) (Conn.rethrowErrorIfFatal e isFromPool : Op (Option α))
      (Conn.rethrowErrorIfFatal e isFromPool' : Op (Option α)) := by
  unfold Conn.rethrowErrorIfFatal
  refine Trailing.ite Iff.rfl ?_ ?_ <;>
    refine Trailing.bind (Level.setState _) (fun _ _ _ w v h => ?_)
  · exact h.same
  · cases isFromPool <;> cases isFromPool' <;> exact h.same

/-- A source is no schema to select. -/
theorem noInitDb_command (source : Source) : NoInitDb source.command := by
  cases source <;> exact fun _ h => by cases h

/-- A query is concluded, when its error is one of the server. -/
theorem Level.conclude {command : Option Command} (hc : NoInitDb command) {x : Attempt} (hx : ∀ e,x.1=some e → e.isSql=true)
    (void isFromPool isFromPool' : Bool) :
    Coupled (Same a b) (Level a b) (fun r r' => r=some () ∧ r'=some ()) (Level a b)
      (Conn.conclude command x void isFromPool) (Conn.conclude command x void isFromPool') := by
  unfold Conn.conclude
  cases he : x.1 with
  | none => exact Coupled.bind (Level.setStateAfter hc _ _) (fun _ _ _ => Coupled.pure ⟨rfl,rfl⟩)
  | some e => exact Level.rethrowErrorIfFatal (hx e he) _ _

/-- A query is concluded. -/
theorem Level.conclude_trailing {command : Option Command} (hc : NoInitDb command) (x : Attempt)
    (void isFromPool isFromPool' : Bool) :
    Trailing (Same a b) (Level a b) (Conn.conclude command x void isFromPool)
      (Conn.conclude command x void isFromPool') := by
  unfold Conn.conclude
  cases x.1 with
  | none =>
    exact Trailing.bind (Level.setStateAfter hc _ _) (fun _ _ _ _ _ h => h.same)
  | some e => exact Level.rethrow_trailing e _ _

/-- A source at its end sends nothing. -/
theorem Level.exchange_consumed {source : Source} (hs : source.sql=none) (void : Bool) :
    Coupled (Same a b) (Level a b) (fun x y => x=(some endOfStream,.lost) ∧ y=(some endOfStream,.lost))
      (Level a b) (Conn.exchange source void) (Conn.exchange source void) := by
  rintro w v ⟨p,q,db,commands,answers,h,hp,hq⟩
  have hu : ∀ (u : World) (r : MyProtocol),u.conn.protocol=some r → r.pendingChangeSchema="" →
      Conn.exchange source void u=.done (some endOfStream,.lost) u := by
    intro u r hr hn
    have hm : maybeInitDb u=.done none u := by
      unfold maybeInitDb
      rw [hr]
      dsimp only
      rw [if_pos hn]
    unfold Conn.exchange
    rw [bind_apply,hm,Outcome.andThen_done,hs]
    rfl
  rw [hu w p h.left.protocol hp,hu v q h.right.protocol hq]
  exact .done ⟨rfl,rfl⟩ ⟨p,q,db,commands,answers,h,hp,hq⟩

/-- A query is sent until it need not be sent again, when its text can be sent again. -/
theorem Before.queryLoop (sql : Sql) (void isFromPool isFromPool' retryLockWaitTimeout : Bool) (n : ℕ) :
    Coupled (Same a b) (Before a b) (fun r r' => r=some () ∧ r'=some ()) (Level a b)
      (Conn.queryLoop void isFromPool retryLockWaitTimeout n (.text sql))
      (Conn.queryLoop void isFromPool' retryLockWaitTimeout n (.text sql)) := by
  induction n with
  | zero =>
    refine Coupled.bind (Before.exchange rfl void) (fun x y hxy => ?_)
    obtain ⟨rfl,hx⟩ := hxy
    exact Level.conclude (noInitDb_command _) hx _ _ _
  | succ n ih =>
    refine Coupled.bind (Before.exchange rfl void) (fun x y hxy => ?_)
    obtain ⟨rfl,hx⟩ := hxy
    refine Coupled.ite Iff.rfl ?_ (Level.conclude (noInitDb_command _) hx _ _ _)
    exact ih.mono (fun _ _ h => h.before) (fun _ _ h => h) (fun _ _ h => h)

/-- A query of any source is sent until it need not be sent again. -/
theorem Level.queryLoop_trailing (void isFromPool isFromPool' retryLockWaitTimeout : Bool) (n : ℕ)
    (source : Source) : Trailing (Same a b) (Level a b)
      (Conn.queryLoop void isFromPool retryLockWaitTimeout n source)
      (Conn.queryLoop void isFromPool' retryLockWaitTimeout n source) := by
  induction n generalizing source with
  | zero =>
    cases hs : source.sql with
    | none =>
      refine Trailing.bind (Level.exchange_consumed hs void) (fun x y hxy => ?_)
      obtain ⟨rfl,rfl⟩ := hxy
      exact Level.conclude_trailing (noInitDb_command _) _ _ _ _
    | some sql =>
      refine Trailing.bind ((Before.exchange hs void).mono (fun _ _ h => Level.before h)
        (fun _ _ h => h) (fun _ _ h => h)) (fun x y hxy => ?_)
      obtain ⟨rfl,_⟩ := hxy
      exact Level.conclude_trailing (noInitDb_command _) _ _ _ _
  | succ n ih =>
    cases hs : source.sql with
    | none =>
      refine Trailing.bind (Level.exchange_consumed hs void) (fun x y hxy => ?_)
      obtain ⟨rfl,rfl⟩ := hxy
      exact Trailing.ite Iff.rfl (ih _) (Level.conclude_trailing (noInitDb_command _) _ _ _ _)
    | some sql =>
      refine Trailing.bind ((Before.exchange hs void).mono (fun _ _ h => Level.before h)
        (fun _ _ h => h) (fun _ _ h => h)) (fun x y hxy => ?_)
      obtain ⟨rfl,_⟩ := hxy
      exact Trailing.ite Iff.rfl (ih _) (Level.conclude_trailing (noInitDb_command _) _ _ _ _)

/-- A query of any source is sent, and a schema is selected before it. -/
theorem Before.queryLoop_trailing (void isFromPool isFromPool' retryLockWaitTimeout : Bool) (n : ℕ)
    {source : Source} {sql : Sql} (hs : source.sql=some sql) : Trailing (Same a b) (Before a b)
      (Conn.queryLoop void isFromPool retryLockWaitTimeout n source)
      (Conn.queryLoop void isFromPool' retryLockWaitTimeout n source) := by
  cases n with
  | zero =>
    refine Trailing.bind (Before.exchange hs void) (fun x y hxy => ?_)
    obtain ⟨rfl,_⟩ := hxy
    exact Level.conclude_trailing (noInitDb_command _) _ _ _ _
  | succ n =>
    refine Trailing.bind (Before.exchange hs void) (fun x y hxy => ?_)
    obtain ⟨rfl,_⟩ := hxy
    exact Trailing.ite Iff.rfl (Level.queryLoop_trailing _ _ _ _ _ _)
      (Level.conclude_trailing (noInitDb_command _) _ _ _ _)

/-- The connections are taken for a query. -/
theorem Before.setQueryingState : Coupled (Same a b) (Before a b) (fun _ _ => True) (Before a b)
    Conn.setQueryingState Conn.setQueryingState := by
  rintro w v ⟨p,q,db,commands,answers,h⟩
  exact h.setQueryingState.mono (fun _ _ h => h) (fun w' v' h' =>
    ⟨{p with state := .QUERYING},{q with state := .QUERYING},db,commands,answers,h'⟩)

/-- The connections are taken for a query. -/
theorem Level.setQueryingState : Coupled (Same a b) (Level a b) (fun _ _ => True) (Level a b)
    Conn.setQueryingState Conn.setQueryingState := by
  rintro w v ⟨p,q,db,commands,answers,h,hp,hq⟩
  exact h.setQueryingState.mono (fun _ _ h => h) (fun w' v' h' => ⟨_,_,db,commands,answers,h',hp,hq⟩)

/-- `sendComQuery()` of text. -/
theorem Before.sendComQuery (sql : Sql) (void letReturnUndefined letReturnUndefined' : Bool)
    (options : RetryOptions) :
    Coupled (Same a b) (Before a b) (fun r r' => r=some () ∧ r'=some ()) (Level a b)
      (Conn.sendComQuery (.text sql) void letReturnUndefined options)
      (Conn.sendComQuery (.text sql) void letReturnUndefined' options) :=
  Coupled.bind Before.setQueryingState (fun _ _ _ => Before.queryLoop sql _ _ _ _ _)

/-- `sendComQuery()`. -/
theorem Before.sendComQuery_trailing {source : Source} {sql : Sql} (hs : source.sql=some sql)
    (void letReturnUndefined letReturnUndefined' : Bool) (options : RetryOptions) :
    Trailing (Same a b) (Before a b) (Conn.sendComQuery source void letReturnUndefined options)
      (Conn.sendComQuery source void letReturnUndefined' options) :=
  Trailing.bind Before.setQueryingState (fun _ _ _ => Before.queryLoop_trailing _ _ _ _ _ hs)

/-- `sendComStmtPrepare()`. -/
theorem Before.sendComStmtPrepare {source : Source} {sql : Sql} (hs : source.sql=some sql)
    (letReturnUndefined letReturnUndefined' : Bool) :
    Coupled (Same a b) (Before a b) (fun r r' => r=r' ∧ r≠none) (Level a b)
      (Conn.sendComStmtPrepare source letReturnUndefined)
      (Conn.sendComStmtPrepare source letReturnUndefined') := by
  refine Coupled.bind Before.setQueryingState (fun isFromPool isFromPool' _ => ?_)
  rintro w v ⟨p,q,db,commands,answers,h⟩
  obtain ⟨w₁,v₁,hw₁,hv₁,h₁⟩ := h.take
  obtain ⟨w₂,v₂,hw₂,hv₂,h₂⟩ := h₁.sendInitDb
  obtain ⟨w₃,v₃,hw₃,hv₃,h₃⟩ := h₂.send (.stmtPrepare sql)
  obtain ⟨w₄,v₄,p₄,q₄,hw₄,hv₄,h₄,hp₄,hq₄⟩ := h₃.select rfl rfl
  simp only [hs,bind_apply,hw₁,hv₁,hw₂,hv₂,hw₃,hv₃,hw₄,hv₄,Outcome.andThen_done]
  refine (Level.receive (fun _ hn => by cases hn) w₄ v₄
    ⟨p₄,q₄,db,commands,answers,h₄,hp₄,hq₄⟩).andThen (fun x y hxy => ?_)
  obtain ⟨rfl,hx⟩ := hxy
  cases he : x.error with
  | none =>
    refine Coupled.bind (Level.setState _) (fun _ _ _ => Coupled.get (fun w v h => ?_))
    refine .done ⟨?_,Option.some_ne_none _⟩ h
    unfold World.lastStmtId
    rw [h.field MyProtocol.stmts (fun _ => rfl)]
  | some e => exact Level.rethrowErrorIfFatal (error_isSql hx e he) _ _

/-- A command is written. -/
theorem Level.send (c : Command) : Coupled (Same a b) (Level a b) (fun _ _ => True) (Level a b)
    (Conn.send c) (Conn.send c) := by
  rintro w v ⟨p,q,db,commands,answers,h,hp,hq⟩
  obtain ⟨w',v',hw,hv,h'⟩ := h.send c
  rw [hw,hv]
  exact .done trivial ⟨p,q,db,commands,answers,h',hp,hq⟩

/-- An error is thrown again. -/
theorem Level.rethrowError {α : Type} {V : α → α → Prop} (e : Error) :
    Coupled (Same a b) (Level a b) V (Level a b) (Conn.rethrowError e) (Conn.rethrowError e) :=
  Coupled.bind (Level.setState _) (fun _ _ _ => Coupled.fail (fun _ _ h => h.same) e)

/-- The resultsets are discarded. -/
theorem Level.discard : Coupled (Same a b) (Level a b) (fun _ _ => True) (Level a b) Conn.discard
    Conn.discard := by
  refine Coupled.get (fun w v hl => ?_)
  obtain ⟨p,q,db,commands,answers,h,hp,hq⟩ := hl
  have hcur : p.anonymous.curCommand=q.anonymous.curCommand := congrArg MyProtocol.curCommand h.anonymous
  have hopen : (p.state=.HAS_MORE_ROWS ∨ p.state=.HAS_MORE_RESULTSETS) ↔
      (q.state=.HAS_MORE_ROWS ∨ q.state=.HAS_MORE_RESULTSETS) := by
    have hn := congrArg MyProtocol.state h.anonymous
    simp only [MyProtocol.anonymous] at hn
    cases hs : p.state <;> cases ht : q.state <;> rw [hs,ht] at hn <;> first | cases hn; done | decide
  have hl : Level a b w v := ⟨p,q,db,commands,answers,h,hp,hq⟩
  rw [h.left.protocol,h.right.protocol]
  dsimp only
  rw [show q.curCommand=p.curCommand from hcur.symm]
  cases hc : p.curCommand with
  | none => exact .done trivial hl
  | some c =>
    refine Coupled.ite hopen ?_ (Coupled.pure trivial) w v hl
    refine Coupled.bind (Level.doDiscard (fun schema hn => h.left.opened schema ?_))
      (fun x y hxy => ?_)
    · rw [hc,hn]
    · obtain ⟨rfl,hx⟩ := hxy
      cases x with
      | none => exact Level.setState _
      | some e => exact Level.rethrowError e

/-- A prepared statement is executed. -/
theorem Level.execStmt (stmtId : ℕ) (values : List Value) (void : Bool) :
    Coupled (Same a b) (Level a b) (fun _ _ => True) (Level a b) (Conn.execStmt stmtId values void)
      (Conn.execStmt stmtId values void) := by
  refine Coupled.bind Level.setQueryingState (fun _ _ _ => ?_)
  refine Coupled.bind (Level.send _) (fun _ _ _ => ?_)
  refine Coupled.bind (Level.receive (fun _ hn => by cases hn)) (fun x y hxy => ?_)
  obtain ⟨rfl,hx⟩ := hxy
  cases he : x.error with
  | none =>
    refine Coupled.bind (Level.setStateAfter (fun _ hn => by cases hn) x false) (fun _ _ _ => ?_)
    exact Coupled.ite Iff.rfl Level.discard (Coupled.pure trivial)
  | some e => exact Level.rethrowError e

/-- The statement before two queries is sent. -/
theorem Level.sendPreStmt (preStmt : Option PreStmt) : Coupled (Same a b) (Level a b)
    (fun _ _ => True) (Level a b) (Conn.sendPreStmt preStmt) (Conn.sendPreStmt preStmt) := by
  cases preStmt with
  | none => exact Coupled.pure trivial
  | some pre => exact Level.send _

/-- The query before is sent. -/
theorem Level.sendPrequery (prequery : Option Sql) : Coupled (Same a b) (Level a b)
    (fun _ _ => True) (Level a b) (Conn.sendPrequery prequery) (Conn.sendPrequery prequery) := by
  cases prequery with
  | none => exact Coupled.pure trivial
  | some sql => exact Level.send _

/-- The answer to the statement before is read. -/
theorem Level.readPreStmt (preStmt : Option PreStmt) : Coupled (Same a b) (Level a b) SqlErrors
    (Level a b) (Conn.readPreStmt preStmt) (Conn.readPreStmt preStmt) := by
  cases preStmt with
  | none => exact Coupled.pure ⟨rfl,fun e he => by cases he⟩
  | some pre =>
    refine Coupled.bind (Level.receive (fun _ hn => by cases hn)) (fun x y hxy => ?_)
    obtain ⟨rfl,hx⟩ := hxy
    exact Coupled.pure ⟨rfl,error_isSql hx⟩

/-- The answer to the query before is read. -/
theorem Level.readPrequery (ignorePrequeryError : Bool) (prequery : Option Sql) :
    Coupled (Same a b) (Level a b) SqlErrors (Level a b) (Conn.readPrequery ignorePrequeryError prequery)
      (Conn.readPrequery ignorePrequeryError prequery) := by
  cases prequery with
  | none => exact Coupled.pure ⟨rfl,fun e he => by cases he⟩
  | some sql =>
    refine Coupled.bind (Level.receive (fun _ hn => by cases hn)) (fun x y hxy => ?_)
    obtain ⟨rfl,hx⟩ := hxy
    refine Coupled.pure ⟨rfl,fun e he => ?_⟩
    exact error_isSql hx e (Option.eq_some_of_filter_eq_some he)

/-- The result of the last query is read. -/
theorem Level.readLast {c : Command} (hc : ∀ schema,c≠.initDb schema) {earlier : Option Error}
    (he : ∀ e,earlier=some e → e.isSql=true) (void : Bool) :
    Coupled (Same a b) (Level a b) SqlAttempts (Level a b) (Conn.readLast c earlier void)
      (Conn.readLast c earlier void) := by
  refine Coupled.bind (Level.receive hc) (fun x y hxy => ?_)
  obtain ⟨rfl,hx⟩ := hxy
  cases ho : x.error.or earlier with
  | some e =>
    refine Coupled.pure ⟨rfl,fun e' he' => ?_⟩
    rcases Option.or_eq_some_iff.mp (ho.trans he') with h | ⟨_,h⟩
    · exact error_isSql hx e' h
    · exact he e' h
  | none =>
    refine Coupled.ite Iff.rfl ?_ (Coupled.pure ⟨rfl,fun e he => by cases he⟩)
    refine Coupled.bind (Level.doDiscard hc) (fun d d' hd => ?_)
    obtain ⟨rfl,hd⟩ := hd
    exact Coupled.pure ⟨rfl,hd⟩

/-- No schema is selected where none is pending. -/
theorem Level.maybeInitDb : Coupled (Same a b) (Level a b) (fun x y => x=none ∧ y=none) (Level a b)
    Conn.maybeInitDb Conn.maybeInitDb := by
  rintro w v ⟨p,q,db,commands,answers,h,hp,hq⟩
  have hu : ∀ (u : World) (r : MyProtocol),u.conn.protocol=some r → r.pendingChangeSchema="" →
      Conn.maybeInitDb u=.done none u := by
    intro u r hr hn
    unfold Conn.maybeInitDb
    rw [hr]
    dsimp only
    rw [if_pos hn]
  rw [hu w p h.left.protocol hp,hu v q h.right.protocol hq]
  exact .done ⟨rfl,rfl⟩ ⟨p,q,db,commands,answers,h,hp,hq⟩

/-- A batch of queries is sent, and the answers are read. -/
theorem Level.exchangeThree (preStmt : Option PreStmt) (prequery : Option Sql)
    (ignorePrequeryError : Bool) (source : Source) (void : Bool) :
    Coupled (Same a b) (Level a b) (fun x y => x=y) (Level a b)
      (Conn.exchangeThree preStmt prequery ignorePrequeryError source void)
      (Conn.exchangeThree preStmt prequery ignorePrequeryError source void) := by
  refine Coupled.bind Level.maybeInitDb (fun i j hij => ?_)
  obtain ⟨rfl,rfl⟩ := hij
  cases source.sql with
  | none => exact Coupled.pure rfl
  | some sql =>
    have hnone : ∀ x : World → World → Prop,Coupled (Same a b) x (fun _ _ => True) x
        (Conn.sendInitDb none) (Conn.sendInitDb none) := fun _ => Coupled.pure trivial
    refine Coupled.bind (hnone _) (fun _ _ _ => ?_)
    refine Coupled.bind (Level.sendPreStmt preStmt) (fun _ _ _ => ?_)
    refine Coupled.bind (Level.sendPrequery prequery) (fun _ _ _ => ?_)
    refine Coupled.bind (Level.send _) (fun _ _ _ => ?_)
    have hearly : Coupled (Same a b) (Level a b) (fun x y => x=none ∧ y=none) (Level a b)
        (Conn.readInitDb none) (Conn.readInitDb none) := Coupled.pure ⟨rfl,rfl⟩
    refine Coupled.bind hearly (fun early early' he => ?_)
    obtain ⟨rfl,rfl⟩ := he
    refine Coupled.bind (Level.readPreStmt preStmt) (fun x y hxy => ?_)
    obtain ⟨rfl,hx⟩ := hxy
    cases x with
    | some e => exact Coupled.pure rfl
    | none =>
      refine Coupled.bind (Level.readPrequery _ prequery) (fun x y hxy => ?_)
      obtain ⟨rfl,hx⟩ := hxy
      refine (Level.readLast (fun _ hn => by cases hn) (fun e he => hx e ?_) void).mono
        (fun _ _ h => h) (fun _ _ h => h.1) (fun _ _ h => h)
      rwa [Option.or_none] at he

/-- A batch is sent until it need not be sent again. -/
theorem Level.threeLoop_trailing (ignorePrequeryError void isFromPool isFromPool' retryLockWaitTimeout : Bool)
    (n : ℕ) (preStmt : Option PreStmt) (prequery : Option Sql) (source : Source) :
    Trailing (Same a b) (Level a b)
      (Conn.threeLoop ignorePrequeryError void isFromPool retryLockWaitTimeout n preStmt prequery source)
      (Conn.threeLoop ignorePrequeryError void isFromPool' retryLockWaitTimeout n preStmt prequery
        source) := by
  induction n generalizing preStmt prequery source with
  | zero =>
    refine Trailing.bind (Level.exchangeThree _ _ _ _ _) (fun x y hxy => ?_)
    obtain rfl : x=y := hxy
    exact Level.conclude_trailing (noInitDb_command _) _ _ _ _
  | succ n ih =>
    refine Trailing.bind (Level.exchangeThree _ _ _ _ _) (fun x y hxy => ?_)
    obtain rfl : x=y := hxy
    exact Trailing.ite Iff.rfl (ih _ _ _) (Level.conclude_trailing (noInitDb_command _) _ _ _ _)

/-- `sendThreeQueries()`. -/
theorem Level.sendThreeQueries (preStmt : Option PreStmt) (prequery : Option Sql)
    (ignorePrequeryError : Bool) (source : Source) (void letReturnUndefined letReturnUndefined' : Bool)
    (options : RetryOptions) : Trailing (Same a b) (Level a b)
      (Conn.sendThreeQueries preStmt prequery ignorePrequeryError source void letReturnUndefined options)
      (Conn.sendThreeQueries preStmt prequery ignorePrequeryError source void letReturnUndefined'
        options) :=
  Trailing.bind Level.setQueryingState (fun _ _ _ => Level.threeLoop_trailing _ _ _ _ _ _ _ _ _)

/-- The options of a query are alike. -/
theorem Before.retryOptions (h : Before a b w v) : w.retryOptions=v.retryOptions := by
  obtain ⟨p,q,db,commands,answers,h⟩ := h
  have hlock : w.retryLockWaitTimeout=v.retryLockWaitTimeout := congrArg (fun f => f.2.2) h.frame
  have htimes : p.anonymous.retryQueryTimes=q.anonymous.retryQueryTimes :=
    congrArg MyProtocol.retryQueryTimes h.anonymous
  unfold World.retryOptions
  rw [h.left.protocol,h.right.protocol,hlock]
  exact congrArg (RetryOptions.mk v.retryLockWaitTimeout) htimes

/-- The options of a query are alike. -/
theorem Before.options (h : Before a b w v) (query : Query) : query.options w=query.options v := by
  have hlock : w.retryLockWaitTimeout=v.retryLockWaitTimeout := by
    obtain ⟨p,q,db,commands,answers,h⟩ := h
    exact congrArg (fun f => f.2.2) h.frame
  unfold Query.options
  rw [h.retryOptions,hlock]

/-- Fields of the object that do not concern the connection change in the same way. -/
theorem Alike.setConn (h : Alike a b i j w v p q db commands answers) {f : MyConn → MyConn}
    (hf : ∀ c,(f c).protocol=c.protocol)
    (hframe : ∀ c : MyConn,{f c with protocol := c.protocol.map MyProtocol.anonymous,savepointEnum := 0}=
      {f {c with protocol := c.protocol.map MyProtocol.anonymous,savepointEnum := 0} with
        savepointEnum := 0}) :
    Alike a b i j {w with conn := f w.conn} {v with conn := f v.conn} p q db commands answers := by
  have hset : ∀ (u : World),World.frame {u with conn := f u.conn}=
      ({f u.frame.1 with savepointEnum := 0},u.frame.2) := by
    intro u
    have hu := hframe u.conn
    rw [←hf u.conn] at hu
    exact congrArg (fun c : MyConn => (c,u.frame.2)) (hu.trans (by rw [hf u.conn]; rfl))
  refine ⟨?_,?_,?_,h.works⟩
  · exact ⟨(hf _).trans h.left.protocol,h.left.alive,h.left.schema,h.left.answers,h.left.db,
      h.left.commands,h.left.quiet,h.left.opened⟩
  · exact ⟨(hf _).trans h.right.protocol,h.right.alive,h.right.schema,h.right.answers,h.right.db,
      h.right.commands,h.right.quiet,h.right.opened⟩
  · rw [hset,hset,h.frame]

/-- The pending commands are forgotten. -/
def World.cleared (w : World) : World := {w with conn := {w.conn with pendingTrxSql := []}}

/-- The pending commands are forgotten. -/
theorem Alike.cleared (h : Alike a b i j w v p q db commands answers) :
    Alike a b i j w.cleared v.cleared p q db commands answers :=
  Alike.setConn (f:=fun c => {c with pendingTrxSql := []}) h (fun _ => rfl) (fun _ => rfl)

/-- The statement for named parameters is remembered. -/
theorem Level.rememberStmt (pos stmtId : ℕ) : Coupled (Same a b) (Level a b) (fun _ _ => True)
    (Level a b) (modify fun w => {w with conn := w.conn.rememberStmt pos stmtId} : Op Unit)
    (modify fun w => {w with conn := w.conn.rememberStmt pos stmtId} : Op Unit) := by
  refine Coupled.modify (fun w v h => ?_)
  obtain ⟨p,q,db,commands,answers,h,hp,hq⟩ := h
  exact ⟨p,q,db,commands,answers,Alike.setConn (f:=fun c => c.rememberStmt pos stmtId) h
    (fun _ => rfl) (fun _ => rfl),hp,hq⟩

/-- The pending commands that have a text are sent. -/
theorem Level.flushPending {pending : List (Option Sql)} (hp : none ∉ pending) (n n' : ℕ) :
    Coupled (Same a b) (Level a b) (fun r r' => r≠none ∧ r'≠none) (Level a b)
      (Conn.flushPending pending n) (Conn.flushPending pending n') := by
  induction pending generalizing n n' with
  | nil => exact Coupled.pure ⟨Option.some_ne_none _,Option.some_ne_none _⟩
  | cons x rest ih =>
    obtain ⟨hx,hrest⟩ := not_or.mp (fun hm => hp (List.mem_cons.mpr hm))
    cases x with
    | none => exact absurd rfl hx
    | some sql =>
      have hskip : Coupled (Same a b) (Level a b) (fun _ _ => True) (Level a b)
          (doWhen (some sql=none) appendConn) (doWhen (some sql=none) appendConn) := by
        unfold doWhen
        rw [if_neg (Option.some_ne_none sql)]
        exact Coupled.pure trivial
      refine Coupled.bind hskip (fun _ _ _ => ?_)
      refine Coupled.get (fun w v h => ?_)
      rw [h.before.retryOptions]
      refine Coupled.bind ((Before.sendComQuery sql true _ _ _).mono (fun _ _ h => Level.before h)
        (fun _ _ h => h) (fun _ _ h => h)) (fun r r' hr => ?_) w v h
      obtain ⟨rfl,rfl⟩ := hr
      exact ih hrest _ _

/-- The statements for named parameters that are known. -/
theorem Before.stmtsForParams (h : Before a b w v) :
    w.conn.preparedStmtsForParams=v.conn.preparedStmtsForParams := by
  obtain ⟨p,q,db,commands,answers,h⟩ := h
  exact congrArg (fun f => f.1.preparedStmtsForParams) h.frame

/-- A statement for named parameters is prepared. -/
theorem Before.prepareNamed (n : ℕ) (letReturnUndefined letReturnUndefined' : Bool) :
    Coupled (Same a b) (Before a b) (fun r r' => r=r' ∧ r≠none) (Level a b)
      (do
        let stmtId ← Conn.sendComStmtPrepare (.text (.placeholders (nPlaceholders n))) letReturnUndefined
        match stmtId with
        | some stmtId =>
          modify fun w => {w with conn := w.conn.rememberStmt ((n-1)/8) stmtId}
          return some stmtId
        | none => return none : Op (Option ℕ))
      (do
        let stmtId ← Conn.sendComStmtPrepare (.text (.placeholders (nPlaceholders n))) letReturnUndefined'
        match stmtId with
        | some stmtId =>
          modify fun w => {w with conn := w.conn.rememberStmt ((n-1)/8) stmtId}
          return some stmtId
        | none => return none : Op (Option ℕ)) := by
  refine Coupled.bind (Before.sendComStmtPrepare rfl _ _) (fun r r' hr => ?_)
  obtain ⟨rfl,hr⟩ := hr
  cases r with
  | none => exact absurd rfl hr
  | some stmtId =>
    exact Coupled.bind (Level.rememberStmt _ _) (fun _ _ _ => Coupled.pure ⟨rfl,Option.some_ne_none _⟩)

/-- The statement for named parameters, on a connection where a query was sent. -/
theorem Level.namedStmt (n : ℕ) (letReturnUndefined letReturnUndefined' : Bool) :
    Coupled (Same a b) (Level a b) (fun r r' => r=r' ∧ r≠none) (Level a b)
      (Conn.namedStmt n letReturnUndefined) (Conn.namedStmt n letReturnUndefined') := by
  refine Coupled.get (fun w v h => ?_)
  rw [h.before.stmtsForParams]
  cases (v.conn.preparedStmtsForParams[(n-1)/8]?).join with
  | some stmtId => exact .done ⟨rfl,Option.some_ne_none _⟩ h
  | none => exact Before.prepareNamed n _ _ w v h.before

/-- The statement for named parameters, on a new connection. -/
theorem Before.namedStmt (n : ℕ) (letReturnUndefined letReturnUndefined' : Bool) :
    Coupled (Same a b) (fun w v => Before a b w v ∧ w.conn.preparedStmtsForParams=[])
      (fun r r' => r=r' ∧ r≠none) (Level a b)
      (Conn.namedStmt n letReturnUndefined) (Conn.namedStmt n letReturnUndefined') := by
  refine Coupled.get (fun w v h => ?_)
  obtain ⟨h,hnone⟩ := h
  rw [←h.stmtsForParams,hnone]
  exact Before.prepareNamed n _ _ w v h

/-- What is returned does not concern what was executed. -/
theorem trailing_return {α β : Type} {P : World → World → Prop} {x y : Op α} {f g : α → β}
    (h : Trailing (Same a b) P x y) :
    Trailing (Same a b) P (x >>= fun r => pure (f r)) (y >>= fun r => pure (g r)) :=
  h.then (fun _ _ _ => id) (fun _ _ _ => id)

/-- The query after the pending commands. -/
theorem Before.sendQuery (query : Query) {source : Source} {sql : Sql} (hs : source.sql=some sql)
    (letReturnUndefined letReturnUndefined' : Bool) {P : World → World → Prop}
    (hp : ∀ w v,P w v → Before a b w v)
    (hn : ∀ n,Coupled (Same a b) P (fun r r' => r=r' ∧ r≠none) (Level a b)
      (Conn.namedStmt n letReturnUndefined) (Conn.namedStmt n letReturnUndefined')) :
    Trailing (Same a b) P (Conn.sendQuery query source letReturnUndefined)
      (Conn.sendQuery query source letReturnUndefined') := by
  have htext : Trailing (Same a b) P
      (do
        let w ← get
        let done ← Conn.sendComQuery source query.void letReturnUndefined (query.options w)
        return leftOver done source.rest)
      (do
        let w ← get
        let done ← Conn.sendComQuery source query.void letReturnUndefined' (query.options w)
        return leftOver done source.rest) := by
    intro w v h
    have hb := hp w v h
    rw [bind_apply,bind_apply,get_apply,get_apply,Outcome.andThen_done,Outcome.andThen_done,
      hb.options query]
    exact trailing_return (Before.sendComQuery_trailing hs _ _ _ _) w v hb
  have hprepare := (Before.sendComStmtPrepare (a:=a) (b:=b) hs letReturnUndefined letReturnUndefined').mono hp
    (fun _ _ h => h) (fun _ _ h => h)
  unfold Conn.sendQuery
  cases query.params with
  | none => exact htext
  | prepare =>
    refine Trailing.bind (Q:=P) (V:=fun _ _ => True) (fun w v h => .done trivial h) (fun _ _ _ => ?_)
    refine Trailing.ite Iff.rfl (fun w v h => (hp w v h).same) ?_
    exact trailing_return (hprepare.trailing (fun _ _ h => h.same))
  | positional values =>
    refine Trailing.bind (Q:=P) (V:=fun _ _ => True) (fun w v h => .done trivial h) (fun _ _ _ => ?_)
    refine Trailing.ite Iff.rfl (fun w v h => (hp w v h).same) ?_
    refine Trailing.bind hprepare (fun r r' hr => ?_)
    obtain ⟨rfl,hr⟩ := hr
    cases r with
    | none => exact absurd rfl hr
    | some stmtId =>
      exact Trailing.bind (Level.execStmt _ _ _) (fun _ _ _ w v h => h.same)
  | named params =>
    cases params with
    | nil => exact htext
    | cons x xs =>
      intro w v h
      have hb := hp w v h
      rw [bind_apply,bind_apply,get_apply,get_apply,Outcome.andThen_done,Outcome.andThen_done,
        hb.options query]
      refine Trailing.ite Iff.rfl (fun w v h => (hp w v h).same) ?_ w v h
      refine Trailing.bind (hn _) (fun r r' hr => ?_)
      obtain ⟨rfl,hr⟩ := hr
      cases r with
      | none => exact absurd rfl hr
      | some stmtId => exact trailing_return (Level.sendThreeQueries _ _ _ _ _ _ _ _)

end TwoSides

end SpiritMysql.Conn
