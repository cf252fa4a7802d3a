import SpiritMysql.Interval

/-!
# One call at a time

An interval calls its callback one at a time, and for the last time before it
is disposed of, as long as nobody starts it again or disposes of it between a
`stop()` and the end of the call that was in progress then. A stopped interval
does not know that a call is in progress.
-/

namespace SpiritMysql.IntervalRun

open EventSystem Interval

/-- One call at a time, one timer at most, and nothing after the disposal. -/
structure Safe (s : State) : Prop where
  /-- One call is in progress at most. -/
  single : s.running ≤ 1
  /-- One timer is set at most. -/
  timer : s.scheduled.length ≤ 1
  /-- Nothing is in progress and nothing is scheduled after the disposal. -/
  final : s.disposed=true → s.running=0 ∧ s.scheduled=[]

/-- The interval remembers the calls that are in progress. -/
def Remembers (s : State) : Prop :=
  s.running=0 ∨ s.state=.Executing ∨ s.state=.ExecutingAndWantReexecute

/-- What a step needs: an inactive interval is not started while a call is in
progress, and it is not disposed of while a call is in progress that it does not
remember. -/
def Careful (s : State) : Event → Prop
  | .start _ => s.state=.Inactive → s.running=0
  | .dispose => Remembers s
  | _ => True

/-- The timers that are set are the one of an active interval. -/
def Timed (s : State) : Prop :=
  (s.state=.Active ∧ ∃ h,s.hTimer=some h ∧ s.scheduled=[h]) ∨
    (s.state≠.Active ∧ s.scheduled=[])

/-- The invariant of a run. -/
structure Inv (s : State) : Prop where
  /-- The timers. -/
  timed : Timed s
  /-- One call is in progress at most. -/
  single : s.running ≤ 1
  /-- No call is in progress while a timer is set. -/
  idle : s.state=.Active → s.running=0
  /-- An executing interval has a call in progress. -/
  busy : s.state=.Executing ∨ s.state=.ExecutingAndWantReexecute → s.running=1
  /-- A disposed interval is terminated and has no call in progress. -/
  final : s.disposed=true → s.state=.Terminated ∧ s.running=0

/-- The invariant says that the interval is safe. -/
theorem Inv.safe {s : State} (h : Inv s) : Safe s := by
  refine ⟨h.single,?_,?_⟩
  · rcases h.timed with ⟨-,t,-,ht⟩ | ⟨-,ht⟩
    · rw [ht]
      exact Nat.le_of_eq rfl
    · rw [ht]
      exact Nat.zero_le _
  · intro hd
    obtain ⟨hs,hr⟩ := h.final hd
    refine ⟨hr,?_⟩
    rcases h.timed with ⟨ha,-⟩ | ⟨-,ht⟩
    · rw [hs] at ha
      cases ha
    · exact ht

/-- A new interval. -/
theorem inv_new : Inv {} := by
  refine ⟨Or.inr ⟨(fun h => by cases h),rfl⟩,Nat.zero_le _,fun _ => rfl,?_,?_⟩
  · rintro (h | h)
    · cases h
    · cases h
  · intro h
    cases h

/-- Clearing the timer of an interval leaves none. -/
theorem clearTimeout_scheduled {s t : State} (h : Timed s) (ht : t.hTimer=s.hTimer)
    (hl : t.scheduled=s.scheduled) : t.clearTimeout.scheduled=[] := by
  rcases h with ⟨-,i,hi,hs⟩ | ⟨-,hs⟩
  · simp only [State.clearTimeout,hl,hs,ht,hi,ne_eq,List.filter_cons,not_true_eq_false,decide_false,
      Bool.false_eq_true,if_false,List.filter_nil]
  · simp only [State.clearTimeout,hl,hs,List.filter_nil]

/-- Setting the timer of an interval that has none. -/
theorem schedule_inv {s : State} (hl : s.scheduled=[]) (hr : s.running=0)
    (hd : s.disposed=false) : Inv s.schedule := by
  refine ⟨Or.inl ⟨rfl,s.nextHandle,rfl,?_⟩,?_,fun _ => hr,?_,?_⟩
  · simp only [State.schedule,State.setTimeout,hl,List.nil_append]
  · change s.running ≤ 1
    omega
  · rintro (h | h)
    · cases h
    · cases h
  · intro h
    exact absurd (hd.symm.trans h) Bool.false_ne_true

/-- An interval that is not terminated was not disposed of. -/
theorem Inv.alive {s : State} (h : Inv s) (hs : s.state≠.Terminated) : s.disposed=false := by
  cases hd : s.disposed with
  | false => rfl
  | true => exact absurd (h.final hd).1 hs

/-- An interval that is not active has no timers. -/
theorem Inv.untimed {s : State} (h : Inv s) (hs : s.state≠.Active) : s.scheduled=[] := by
  rcases h.timed with ⟨ha,-⟩ | ⟨-,hl⟩
  · exact absurd ha hs
  · exact hl

/-- An interval that becomes neither active nor executing. -/
theorem inv_rest {s : State} (ha : s.state≠.Active) (he : s.state≠.Executing)
    (hx : s.state≠.ExecutingAndWantReexecute) (hl : s.scheduled=[]) (hr : s.running ≤ 1)
    (hd : s.disposed=true → s.state=.Terminated ∧ s.running=0) : Inv s := by
  refine ⟨Or.inr ⟨ha,hl⟩,hr,fun h => absurd h ha,?_,hd⟩
  rintro (h | h)
  · exact absurd h he
  · exact absurd h hx

/-- An interval that has a call in progress and remembers it. -/
theorem inv_busy {s : State} (he : s.state=.Executing ∨ s.state=.ExecutingAndWantReexecute)
    (hl : s.scheduled=[]) (hr : s.running=1) (hd : s.disposed=false) : Inv s := by
  have ha : s.state≠.Active := by
    intro h
    rw [h] at he
    rcases he with he | he
    · cases he
    · cases he
  refine ⟨Or.inr ⟨ha,hl⟩,Nat.le_of_eq hr,fun h => absurd h ha,fun _ => hr,?_⟩
  intro h
  exact absurd (hd.symm.trans h) Bool.false_ne_true

/-- `start()` keeps the invariant. -/
theorem Inv.start {s : State} (h : Inv s) (hc : s.state=.Inactive → s.running=0)
    (firstIterIsImmediate : Bool) : Inv (s.start firstIterIsImmediate) := by
  unfold State.start
  by_cases hi : s.state=.Inactive
  · rw [if_pos hi]
    exact schedule_inv (h.untimed (by rw [hi]; decide)) (hc hi) (h.alive (by rw [hi]; decide))
  · rw [if_neg hi]
    split_ifs with hf he ha
    · -- a call is in progress: another one will follow it
      exact inv_busy (Or.inr rfl) (h.untimed (by rw [he]; decide)) (h.busy (Or.inl he))
        (h.alive (by rw [he]; decide))
    · exact schedule_inv (clearTimeout_scheduled h.timed rfl rfl) (h.idle ha)
        (h.alive (by rw [ha]; decide))
    · exact h
    · exact h

/-- `stop()` keeps the invariant. -/
theorem Inv.stop {s : State} (h : Inv s) : Inv s.stop := by
  unfold State.stop
  by_cases ht : s.state=.Terminated
  · rw [if_pos ht]
    exact h
  · rw [if_neg ht]
    have hd := h.alive ht
    refine inv_rest (fun hn => by cases hn) (fun hn => by cases hn) (fun hn => by cases hn)
      (clearTimeout_scheduled h.timed rfl rfl) h.single ?_
    intro hn
    exact absurd (hd.symm.trans hn) Bool.false_ne_true

/-- `[Symbol.asyncDispose]()` keeps the invariant, when the interval remembers
the call that is in progress. -/
theorem Inv.dispose {s : State} (h : Inv s) (hc : Remembers s) : Inv s.dispose := by
  unfold State.dispose
  dsimp only
  by_cases he : s.state=.Executing ∨ s.state=.ExecutingAndWantReexecute
  · rw [if_pos he]
    refine inv_rest (fun hn => by cases hn) (fun hn => by cases hn) (fun hn => by cases hn)
      (clearTimeout_scheduled h.timed rfl rfl) h.single ?_
    intro hd
    have hs := (h.final hd).1
    rw [hs] at he
    rcases he with he | he
    · cases he
    · cases he
  · rw [if_neg he]
    refine inv_rest (fun hn => by cases hn) (fun hn => by cases hn) (fun hn => by cases hn)
      (clearTimeout_scheduled h.timed rfl rfl) h.single ?_
    intro _
    refine ⟨rfl,?_⟩
    rcases hc with hr | hs
    · exact hr
    · exact absurd hs he

/-- A timer fires when no call is in progress, and makes one. -/
theorem Inv.fire {s : State} (h : Inv s) {i : ℕ} (hi : i ∈ s.scheduled) : Inv (s.fire i) := by
  rcases h.timed with ⟨ha,t,-,hl⟩ | ⟨-,hl⟩
  · unfold State.fire
    dsimp only
    rw [if_pos ha]
    rw [hl,List.mem_singleton] at hi
    refine inv_busy (Or.inl rfl) ?_ ?_ (h.alive (by rw [ha]; decide))
    · simp only [hl,hi,ne_eq,List.filter_cons,not_true_eq_false,decide_false,Bool.false_eq_true,
        if_false,List.filter_nil]
    · change s.running+1=1
      rw [h.idle ha]
  · rw [hl] at hi
    exact absurd hi List.not_mem_nil

/-- The end of a call keeps the invariant. -/
theorem Inv.finish {s : State} (h : Inv s) (hr : 0 < s.running) : Inv s.finish := by
  have hone : s.running=1 := Nat.le_antisymm h.single hr
  have ha : s.state≠.Active := fun ha => by
    rw [h.idle ha] at hr
    exact absurd hr (Nat.lt_irrefl 0)
  unfold State.finish
  by_cases hx : s.state=.ExecutingAndWantReexecute
  · rw [if_pos hx]
    exact inv_busy (Or.inl rfl) (h.untimed ha) hone (h.alive (by rw [hx]; decide))
  · rw [if_neg hx]
    have hzero : s.running-1=0 := by omega
    unfold State.endIteration
    dsimp only
    split_ifs with ht he
    · refine inv_rest ha (by rw [ht]; decide) hx (h.untimed ha) ?_ ?_
      · change s.running-1 ≤ 1
        omega
      · exact fun _ => ⟨ht,hzero⟩
    · exact schedule_inv (h.untimed ha) hzero (h.alive ht)
    · refine inv_rest ha he hx (h.untimed ha) ?_ ?_
      · change s.running-1 ≤ 1
        omega
      · intro hd
        exact absurd (h.final hd).1 ht

/-- Every careful step keeps the invariant. -/
theorem Inv.step {s s' : State} {e : Event} (h : Inv s) (hc : Careful s e)
    (hs : s.step e=some s') : Inv s' := by
  cases e with
  | start firstIterIsImmediate =>
    cases hs
    exact h.start hc firstIterIsImmediate
  | stop =>
    cases hs
    exact h.stop
  | dispose =>
    cases hs
    exact h.dispose hc
  | fire i =>
    unfold State.step at hs
    dsimp only at hs
    split_ifs at hs with hi
    cases hs
    exact h.fire hi
  | finish =>
    unfold State.step at hs
    dsimp only at hs
    split_ifs at hs with hr
    cases hs
    exact h.finish hr

/-- An interval is safe in every run of careful steps. -/
theorem run_timers_safe {events : List Event} {s : State} (hc : Meets State.step Careful {} events)
    (h : run State.step {} events=some s) : Safe s :=
  (run_meets (fun _ _ _ hi hce hs => Inv.step hi hce hs) inv_new hc h).safe

/-- A call asks for another one, which stops the interval. It is started again
and disposed of while a call is in progress. -/
def disposeRun : List Event :=
  [.start true,.fire 0,.start true,.finish,.stop,.finish,.start false,.fire 1,.dispose,.finish]

/-- The interval is disposed of in time. -/
theorem run_timers_safe_dispose :
    ∃ s,run State.step {} disposeRun=some s ∧ s.disposed=true ∧ Safe s := by
  have hc : Meets State.step Careful {} disposeRun :=
    ⟨fun _ => rfl,trivial,(fun h => by cases h),trivial,trivial,trivial,fun _ => rfl,trivial,
      Or.inr (Or.inl rfl),trivial,trivial⟩
  have hrun : ((run State.step {} disposeRun).map State.disposed)=some true := by decide
  obtain ⟨s,hs,hd⟩ := Option.map_eq_some_iff.mp hrun
  exact ⟨s,hs,hd,run_timers_safe hc hs⟩

/-- A call stops its interval and goes on, and the interval is started again
meanwhile. -/
theorem restarted_not_safe : ¬∀ events s,run State.step {} events=some s → Safe s := by
  intro h
  have hsafe := h [.start true,.fire 0,.stop,.start true,.fire 1] _ rfl
  exact absurd hsafe.single (by decide)

end SpiritMysql.IntervalRun
