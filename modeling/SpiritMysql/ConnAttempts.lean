import Mathlib.Data.List.Range
import SpiritMysql.EventSystem
import SpiritMysql.ListUpdates

/-!
# Overlapping attempts to connect

`connect()` of a `MyConn` waits for the pool, and meanwhile `end()` can cancel
it and `connect()` can be called again. All attempts of one object share the
field `#isConnecting`, so a cancelled attempt that gets its connection late
takes a newer attempt for itself.
-/

namespace SpiritMysql.ConnAttempts

open EventSystem ListUpdates

/-- A `MyProtocol` object that the pool handed out. -/
structure Protocol where
  /-- The identity of the object. -/
  id : ℕ
  /-- `schema`. -/
  schema : String
deriving DecidableEq, Repr

/-- How a call of `connect()` stands. -/
inductive CallStatus where
  /-- It waits for `getProtocol()`. -/
  | waiting
  /-- It returned. -/
  | resolved
  /-- It threw `CanceledError`. -/
  | canceled
  /-- It threw another error. -/
  | rejected
deriving DecidableEq, Repr

/-- A call of `connect()`. -/
structure Call where
  /-- The local `pendingChangeSchema`, which `getProtocol()` is called with. -/
  pendingChangeSchema : String
  /-- How the call stands. -/
  status : CallStatus
  /-- `end()` or `dispose()` was called while it was waiting. -/
  ended : Bool
deriving DecidableEq, Repr

/-- The fields of `MyConn` that connecting depends on, and what was done with
the connections. -/
structure State where
  /-- `#protocol`. -/
  protocol : Option Protocol := none
  /-- `#isConnecting`. -/
  isConnecting : Bool := false
  /-- `#pendingChangeSchema`. -/
  pendingChangeSchema : String := ""
  /-- `#isDisposed`. -/
  isDisposed : Bool := false
  /-- The calls of `connect()` so far. -/
  calls : List Call := []
  /-- How many connections the pool handed out to the object. -/
  nObtained : ℕ := 0
  /-- The connections that were returned to the pool, one entry each time. -/
  returned : List ℕ := []
deriving DecidableEq, Repr

/-- A call of `connect()` that ends before its first `await`. -/
def State.callAtOnce (s : State) (status : CallStatus) : State :=
  {s with calls := s.calls++[⟨"",status,false⟩]}

/-- `connect()` up to the `await`. -/
def State.connect (s : State) : State :=
  if s.isConnecting=true then s.callAtOnce .rejected
  else if s.protocol.isSome=true then s.callAtOnce .resolved
  else if s.isDisposed=true then s.callAtOnce .rejected
  else
    {s with
      isConnecting := true,pendingChangeSchema := ""
      calls := s.calls++[⟨s.pendingChangeSchema,.waiting,false⟩]}

/-- A call of `connect()` ends. -/
def State.setCall (s : State) (i : ℕ) (c : Call) (status : CallStatus) : State :=
  {s with calls := s.calls.set i {c with status := status},isConnecting := false}

/-- `connect()` after the `await`, when `getProtocol()` returned a connection. -/
def State.obtained (s : State) (i : ℕ) (c : Call) (schema : String) : State :=
  let s' := {s with nObtained := s.nObtained+1}
  if s.isConnecting=false then
    State.setCall {s' with returned := s.returned++[s.nObtained]} i c .canceled
  else State.setCall {s' with protocol := some ⟨s.nObtained,schema⟩} i c .resolved

/-- `#doEnd()`. -/
def State.doEnd (s : State) : State :=
  match s.protocol with
  | some protocol =>
    {s with
      isConnecting := false,protocol := none,pendingChangeSchema := protocol.schema
      returned := s.returned++[protocol.id]}
  | none => {s with isConnecting := false}

/-- The calls that are waiting are ended. -/
def State.markEnded (s : State) : State :=
  {s with calls := s.calls.map fun c => {c with ended := c.ended || decide (c.status=.waiting)}}

/-- What can happen to the object. -/
inductive Event where
  /-- `connect()` is called. -/
  | connect
  /-- `end()` is called. -/
  | endCalled
  /-- `[Symbol.dispose]()` is called. -/
  | dispose
  /-- `forceImmediateDisconnect()` is called. -/
  | forceImmediateDisconnect
  /-- The request of a call of `connect()` is fulfilled. -/
  | obtained (i : ℕ) (schema : String)
  /-- The request of a call of `connect()` is rejected. -/
  | failed (i : ℕ)
deriving DecidableEq, Repr

/-- The call that is waiting at a place. -/
def State.waiting (s : State) (i : ℕ) : Option Call :=
  match s.calls[i]? with
  | some c => if c.status=.waiting then some c else none
  | none => none

/-- The state after an event, when it can happen. -/
def State.step (s : State) : Event → Option State
  | .connect => some s.connect
  | .endCalled => some s.markEnded.doEnd
  | .dispose => some {s.markEnded with isDisposed := true}.doEnd
  | .forceImmediateDisconnect => some s.doEnd
  | .obtained i schema => (s.waiting i).map fun c => s.obtained i c schema
  | .failed i => (s.waiting i).map fun c => s.setCall i c .rejected

/-- No connection is lost or revived. -/
structure Safe (s : State) : Prop where
  /-- Every connection is the current one or was returned, and only once. -/
  accounted : (s.returned++(s.protocol.map Protocol.id).toList).Perm (List.range s.nObtained)
  /-- A call that was ended did not install its connection. -/
  ended : ∀ c ∈ s.calls,c.ended=true → c.status≠.resolved
  /-- A call that was not ended was not cancelled. -/
  canceled : ∀ c ∈ s.calls,c.status=.canceled → c.ended=true

/-- What a step needs: an attempt that was ended does not complete while a newer
one is in progress, and `forceImmediateDisconnect()` is not called in an attempt. -/
def Careful (s : State) : Event → Prop
  | .obtained i _ => ∀ c,s.waiting i=some c → c.ended=true → s.isConnecting=false
  | .failed i => ∀ c,s.waiting i=some c → c.ended=true → s.isConnecting=false
  | .forceImmediateDisconnect => s.isConnecting=false
  | _ => True

/-- The calls of `connect()` and the field `#isConnecting` agree. -/
structure Agree (s : State) : Prop where
  /-- A call that was ended did not install its connection. -/
  ended : ∀ c ∈ s.calls,c.ended=true → c.status≠.resolved
  /-- A call that was not ended was not cancelled. -/
  canceled : ∀ c ∈ s.calls,c.status=.canceled → c.ended=true
  /-- The attempt that is in progress is the only one that was not ended. -/
  one : ∀ (i j : ℕ) (c d : Call),s.calls[i]?=some c → s.calls[j]?=some d → c.status=.waiting →
    d.status=.waiting → c.ended=false → d.ended=false → i=j
  /-- An attempt that was not ended is in progress. -/
  current : ∀ (i : ℕ) (c : Call),s.calls[i]?=some c → c.status=.waiting → c.ended=false →
    s.isConnecting=true

/-- The connections are accounted for, and an object that connects has none. -/
structure Accounted (s : State) : Prop where
  /-- Every connection is the current one or was returned, and only once. -/
  accounted : (s.returned++(s.protocol.map Protocol.id).toList).Perm (List.range s.nObtained)
  /-- The object that connects has no connection. -/
  apart : s.isConnecting=true → s.protocol=none

/-- The call that is waiting. -/
theorem waiting_eq {s : State} {i : ℕ} {c : Call} (h : s.waiting i=some c) :
    s.calls[i]?=some c ∧ c.status=.waiting := by
  unfold State.waiting at h
  cases hc : s.calls[i]? with
  | none =>
    rw [hc] at h
    cases h
  | some d =>
    rw [hc] at h
    dsimp only at h
    split_ifs at h with hw
    cases h
    exact ⟨rfl,hw⟩

/-! ## The calls -/

/-- Nobody is in progress who was not ended. -/
def Lone (s : State) : Prop :=
  ∀ (i : ℕ) (c : Call),s.calls[i]?=some c → c.status=.waiting → c.ended=true

/-- When the field is not set, all attempts were ended. -/
theorem Agree.lone {s : State} (h : Agree s) (hb : s.isConnecting=false) : Lone s := by
  intro i c hi hs
  cases he : c.ended with
  | true => rfl
  | false =>
    have hcur := h.current i c hi hs he
    rw [hb] at hcur
    exact absurd hcur Bool.false_ne_true

/-- A call that ended at once. -/
theorem Agree.callAtOnce {s : State} (h : Agree s) {status : CallStatus} (hw : status≠.waiting)
    (hc : status≠.canceled) : Agree (s.callAtOnce status) := by
  refine ⟨?_,?_,?_,?_⟩
  · intro c hm he
    rcases List.mem_append.mp hm with hm | hm
    · exact h.ended c hm he
    · rw [List.mem_singleton.mp hm] at he
      cases he
  · intro c hm hs
    rcases List.mem_append.mp hm with hm | hm
    · exact h.canceled c hm hs
    · rw [List.mem_singleton.mp hm] at hs
      exact absurd hs hc
  · intro i j c d hi hj hsc hsd
    rcases getElem_concat hi with hi | ⟨-,rfl⟩
    · rcases getElem_concat hj with hj | ⟨-,rfl⟩
      · exact h.one i j c d hi hj hsc hsd
      · exact absurd hsd hw
    · exact absurd hsc hw
  · intro i c hi hs he
    rcases getElem_concat hi with hi | ⟨-,rfl⟩
    · exact h.current i c hi hs he
    · exact absurd hs hw

/-- `connect()` up to the `await`. -/
theorem Agree.connect {s : State} (h : Agree s) : Agree s.connect := by
  unfold State.connect
  by_cases hb : s.isConnecting=true
  · rw [if_pos hb]
    exact h.callAtOnce (fun hn => by cases hn) (fun hn => by cases hn)
  · rw [if_neg hb]
    split_ifs with hp hd
    · exact h.callAtOnce (fun hn => by cases hn) (fun hn => by cases hn)
    · exact h.callAtOnce (fun hn => by cases hn) (fun hn => by cases hn)
    · have hlone : Lone s := h.lone (Bool.not_eq_true _ ▸ hb)
      refine ⟨?_,?_,?_,fun _ _ _ _ _ => rfl⟩
      · intro c hm he
        rcases List.mem_append.mp hm with hm | hm
        · exact h.ended c hm he
        · rw [List.mem_singleton.mp hm] at he
          cases he
      · intro c hm hs
        rcases List.mem_append.mp hm with hm | hm
        · exact h.canceled c hm hs
        · rw [List.mem_singleton.mp hm] at hs
          cases hs
      · intro i j c d hi hj hsc hsd hec hed
        rcases getElem_concat hi with hi | ⟨hi,-⟩
        · exact absurd (hec.symm.trans (hlone i c hi hsc)) Bool.false_ne_true
        · rcases getElem_concat hj with hj | ⟨hj,-⟩
          · exact absurd (hed.symm.trans (hlone j d hj hsd)) Bool.false_ne_true
          · rw [hi,hj]

/-- A call of `connect()` ends. When it was ended, no other call is in
progress that was not. -/
theorem Agree.setCall {s : State} (h : Agree s) {i : ℕ} {c : Call} {status : CallStatus}
    (hi : s.calls[i]?=some c) (hold : c.status=.waiting) (hs : status≠.waiting)
    (hres : status=.resolved → c.ended=false) (hcan : status=.canceled → c.ended=true)
    (hc : c.ended=true → s.isConnecting=false) : Agree (s.setCall i c status) := by
  refine ⟨?_,?_,?_,?_⟩
  · intro d hm he hr
    rcases List.mem_or_eq_of_mem_set hm with hm | rfl
    · exact h.ended d hm he hr
    · exact absurd ((hres hr).symm.trans he) Bool.false_ne_true
  · intro d hm hd
    rcases List.mem_or_eq_of_mem_set hm with hm | rfl
    · exact h.canceled d hm hd
    · exact hcan hd
  · intro j k d e hj hk hsd hse
    rcases getElem_set hj with ⟨-,rfl⟩ | ⟨-,hj⟩
    · exact absurd hsd hs
    · rcases getElem_set hk with ⟨-,rfl⟩ | ⟨-,hk⟩
      · exact absurd hse hs
      · exact h.one j k d e hj hk hsd hse
  · intro j d hj hd hed
    rcases getElem_set hj with ⟨-,rfl⟩ | ⟨hne,hj⟩
    · exact absurd hd hs
    · cases hec : c.ended with
      | false => exact absurd (h.one i j c d hi hj hold hd hec hed) hne
      | true =>
        have hlone := h.lone (hc hec) j d hj hd
        exact absurd (hed.symm.trans hlone) Bool.false_ne_true

/-- All calls that are waiting are ended. -/
theorem Agree.markEnded {s : State} (h : Agree s) : Agree s.markEnded ∧ Lone s.markEnded := by
  have hget : ∀ {i : ℕ} {d : Call},s.markEnded.calls[i]?=some d → ∃ c,s.calls[i]?=some c ∧
      d={c with ended := c.ended || decide (c.status=.waiting)} := by
    intro i d hd
    rw [State.markEnded,List.getElem?_map] at hd
    obtain ⟨c,hc,rfl⟩ := Option.map_eq_some_iff.mp hd
    exact ⟨c,hc,rfl⟩
  have hlone : Lone s.markEnded := by
    intro i d hd hs
    obtain ⟨c,-,rfl⟩ := hget hd
    exact Bool.or_eq_true_iff.mpr (Or.inr (decide_eq_true hs))
  refine ⟨⟨?_,?_,?_,?_⟩,hlone⟩
  · intro d hm he hr
    obtain ⟨c,hc,rfl⟩ := List.mem_map.mp hm
    rcases Bool.or_eq_true_iff.mp he with he | he
    · exact h.ended c hc he hr
    · rw [decide_eq_true_eq] at he
      exact absurd (he.symm.trans hr) (by decide)
  · intro d hm hs
    obtain ⟨c,hc,rfl⟩ := List.mem_map.mp hm
    exact Bool.or_eq_true_iff.mpr (Or.inl (h.canceled c hc hs))
  · intro i j c d hi _ hsc _ hec
    exact absurd (hec.symm.trans (hlone i c hi hsc)) Bool.false_ne_true
  · intro i c hi hs he
    exact absurd (he.symm.trans (hlone i c hi hs)) Bool.false_ne_true

/-- `#doEnd()`, when all calls that are waiting were ended. -/
theorem Agree.doEnd {s : State} (h : Agree s) (hl : Lone s) : Agree s.doEnd := by
  have hcur : ∀ (i : ℕ) (c : Call),s.calls[i]?=some c → c.status=.waiting → c.ended=false →
      False := fun i c hi hs he =>
    absurd (he.symm.trans (hl i c hi hs)) Bool.false_ne_true
  unfold State.doEnd
  split
  · exact ⟨h.ended,h.canceled,h.one,fun i c hi hs he => (hcur i c hi hs he).elim⟩
  · exact ⟨h.ended,h.canceled,h.one,fun i c hi hs he => (hcur i c hi hs he).elim⟩

/-- The connection that a call obtained is returned or installed. -/
theorem Agree.obtained {s : State} (h : Agree s) {i : ℕ} {c : Call} (hi : s.calls[i]?=some c)
    (hw : c.status=.waiting) (hc : c.ended=true → s.isConnecting=false) (schema : String) :
    Agree (s.obtained i c schema) := by
  unfold State.obtained
  dsimp only
  by_cases hb : s.isConnecting=false
  · rw [if_pos hb]
    have hs : Agree (s.setCall i c .canceled) := h.setCall hi hw (fun hn => by cases hn)
      (fun hn => by cases hn) (fun _ => h.lone hb i c hi hw) hc
    exact ⟨hs.ended,hs.canceled,hs.one,hs.current⟩
  · rw [if_neg hb]
    have hended : c.ended=false := by
      cases he : c.ended with
      | false => rfl
      | true => exact absurd (hc he) hb
    have hs : Agree (s.setCall i c .resolved) := h.setCall hi hw (fun hn => by cases hn)
      (fun _ => hended) (fun hn => by cases hn) hc
    exact ⟨hs.ended,hs.canceled,hs.one,hs.current⟩

/-! ## The connections -/

/-- `connect()` up to the `await` touches no connection. -/
theorem Accounted.connect {s : State} (h : Accounted s) : Accounted s.connect := by
  unfold State.connect
  split_ifs with hb hp hd
  · exact ⟨h.accounted,h.apart⟩
  · exact ⟨h.accounted,h.apart⟩
  · exact ⟨h.accounted,h.apart⟩
  · exact ⟨h.accounted,fun _ => Option.not_isSome_iff_eq_none.mp hp⟩

/-- `#doEnd()` returns the current connection. -/
theorem Accounted.doEnd {s : State} (h : Accounted s) : Accounted s.doEnd := by
  have ha := h.accounted
  unfold State.doEnd
  cases hp : s.protocol with
  | none =>
    rw [hp] at ha
    exact ⟨ha,fun _ => rfl⟩
  | some protocol =>
    rw [hp] at ha
    refine ⟨?_,fun _ => rfl⟩
    rw [Option.map_none,Option.toList_none,List.append_nil]
    exact ha

/-- A connection that is obtained becomes the current one or is returned. -/
theorem Accounted.obtained {s : State} (h : Accounted s) (i : ℕ) (c : Call) (schema : String) :
    Accounted (s.obtained i c schema) := by
  have ha := h.accounted.append_right [s.nObtained]
  rw [←List.range_succ] at ha
  unfold State.obtained
  dsimp only
  by_cases hb : s.isConnecting=false
  · rw [if_pos hb]
    refine ⟨?_,(fun hn => absurd hn Bool.false_ne_true)⟩
    refine List.Perm.trans ?_ ha
    change ((s.returned++[s.nObtained])++(s.protocol.map Protocol.id).toList).Perm _
    rw [List.append_assoc,List.append_assoc]
    exact List.perm_append_comm.append_left _
  · rw [if_neg hb]
    have hnone := h.apart (Bool.not_eq_false _ ▸ hb)
    rw [hnone,Option.map_none,Option.toList_none,List.append_nil] at ha
    exact ⟨ha,fun hn => absurd hn Bool.false_ne_true⟩

/-! ## Runs -/

/-- Whatever is called in whatever order, no connection is lost, returned twice
or overwritten. -/
theorem Accounted.step {s s' : State} {e : Event} (h : Accounted s) (hs : s.step e=some s') :
    Accounted s' := by
  cases e with
  | connect =>
    cases hs
    exact h.connect
  | endCalled =>
    cases hs
    have hm : Accounted s.markEnded := ⟨h.accounted,h.apart⟩
    exact hm.doEnd
  | dispose =>
    cases hs
    have hm : Accounted {s.markEnded with isDisposed := true} := ⟨h.accounted,h.apart⟩
    exact hm.doEnd
  | forceImmediateDisconnect =>
    cases hs
    exact h.doEnd
  | obtained i schema =>
    obtain ⟨c,-,rfl⟩ := Option.map_eq_some_iff.mp hs
    exact h.obtained i c schema
  | failed i =>
    obtain ⟨c,-,rfl⟩ := Option.map_eq_some_iff.mp hs
    exact ⟨h.accounted,fun hn => absurd hn Bool.false_ne_true⟩

/-- A careful step keeps the calls and the field in agreement. -/
theorem Agree.step {s s' : State} {e : Event} (h : Agree s) (hc : Careful s e)
    (hs : s.step e=some s') : Agree s' := by
  cases e with
  | connect =>
    cases hs
    exact h.connect
  | endCalled =>
    cases hs
    obtain ⟨hm,hl⟩ := h.markEnded
    exact hm.doEnd hl
  | dispose =>
    cases hs
    obtain ⟨hm,hl⟩ := h.markEnded
    have hd : Agree {s.markEnded with isDisposed := true} :=
      ⟨hm.ended,hm.canceled,hm.one,hm.current⟩
    exact hd.doEnd hl
  | forceImmediateDisconnect =>
    cases hs
    exact h.doEnd (h.lone hc)
  | obtained i schema =>
    obtain ⟨c,hw,rfl⟩ := Option.map_eq_some_iff.mp hs
    obtain ⟨hi,hst⟩ := waiting_eq hw
    exact h.obtained hi hst (hc c hw) schema
  | failed i =>
    obtain ⟨c,hw,rfl⟩ := Option.map_eq_some_iff.mp hs
    obtain ⟨hi,hst⟩ := waiting_eq hw
    exact h.setCall hi hst (fun hn => by cases hn) (fun hn => by cases hn) (fun hn => by cases hn)
      (hc c hw)

/-- A new object. -/
theorem agree_new : Agree {} ∧ Accounted {} := by
  refine ⟨⟨?_,?_,?_,?_⟩,⟨List.Perm.refl _,fun _ => rfl⟩⟩
  · exact fun c hc => absurd hc List.not_mem_nil
  · exact fun c hc => absurd hc List.not_mem_nil
  · exact fun i j c d hc => by cases hc
  · exact fun i c hc => by cases hc

/-- No connection is lost or revived in a run of careful steps. -/
theorem connects_safely {events : List Event} {s : State} (hc : Meets State.step Careful {} events)
    (h : run State.step {} events=some s) : Safe s := by
  have hboth := run_meets (I:=fun s => Agree s ∧ Accounted s)
    (fun _ _ _ hi hce hs => ⟨hi.1.step hce hs,hi.2.step hs⟩) agree_new hc h
  exact ⟨hboth.2.accounted,hboth.1.ended,hboth.1.canceled⟩

/-- An attempt is ended and completes, and the next one connects. -/
def patientRun : List Event :=
  [.connect,.endCalled,.obtained 0 "",.connect,.obtained 1 "",.dispose,.connect]

/-- The second attempt installs its connection, and the disposal returns it. -/
theorem connects_safely_patient : ∃ s,run State.step {} patientRun=some s ∧ s.returned=[0,1] ∧
    Safe s := by
  have hc : Meets State.step Careful {} patientRun := by
    refine ⟨trivial,trivial,?_,trivial,?_,trivial,trivial,trivial⟩
    · exact fun _ _ _ => rfl
    · intro c hw he
      cases hw
      cases he
  have hrun : ((run State.step {} patientRun).map State.returned)=some [0,1] := by decide
  obtain ⟨s,hs,hr⟩ := Option.map_eq_some_iff.mp hrun
  exact ⟨s,hs,hr,connects_safely hc hs⟩

/-- An attempt is ended, another one begins, and the first one completes: its
connection is installed. -/
theorem ended_installed : ¬∀ events s,run State.step {} events=some s → Safe s := by
  intro h
  have hsafe := h [.connect,.endCalled,.connect,.obtained 0 ""] _ rfl
  exact hsafe.ended ⟨"",.resolved,true⟩ (by decide) rfl rfl

end SpiritMysql.ConnAttempts
