import SpiritMysql.EventSystem

/-!
# Intervals

`Interval` calls a callback again and again, and waits for it to end before
it sets the next timer. The callback itself can start and stop the interval
and go on. What happens between two awaits is one step here.
-/

namespace SpiritMysql.Interval

/-- `IntervalState`. -/
inductive IntervalState where
  | Terminated | Inactive | Active | Executing | ExecutingAndWantReexecute
deriving DecidableEq, Repr

/-- The fields of `Interval`, and the timers and calls that it made. -/
structure State where
  /-- `#hTimer`. -/
  hTimer : Option ℕ := none
  /-- `#state`. -/
  state : IntervalState := .Inactive
  /-- `#onEnd` is set. -/
  onEnd : Bool := false
  /-- The timers that are set. -/
  scheduled : List ℕ := []
  /-- The handle of the next timer. -/
  nextHandle : ℕ := 0
  /-- How many calls of the callback are in progress. -/
  running : ℕ := 0
  /-- A call of `[Symbol.asyncDispose]()` resolved. -/
  disposed : Bool := false
deriving DecidableEq, Repr

/-- `setTimeout()`. -/
def State.setTimeout (s : State) : State :=
  {s with
    hTimer := some s.nextHandle
    scheduled := s.scheduled++[s.nextHandle]
    nextHandle := s.nextHandle+1}

/-- `clearTimeout()`. -/
def State.clearTimeout (s : State) : State :=
  {s with scheduled := s.scheduled.filter fun h => some h≠s.hTimer}

/-- `start()` of an inactive interval: set the timer, after any delay. -/
def State.schedule (s : State) : State := {s with state := .Active}.setTimeout

/-- `start()`. -/
def State.start (s : State) (firstIterIsImmediate : Bool) : State :=
  if s.state=.Inactive then s.schedule
  else if firstIterIsImmediate=true then
    if s.state=.Executing then {s with state := .ExecutingAndWantReexecute}
    else if s.state=.Active then {s with state := .Inactive}.clearTimeout.schedule
    else s
  else s

/-- `stop()`. -/
def State.stop (s : State) : State :=
  if s.state=.Terminated then s else {s with state := .Inactive}.clearTimeout

/-- `[Symbol.asyncDispose]()`: it waits for `#onEnd`, or is done at once. -/
def State.dispose (s : State) : State :=
  let s' := {s with state := .Terminated}.clearTimeout
  if s.state=.Executing ∨ s.state=.ExecutingAndWantReexecute then {s' with onEnd := true}
  else {s' with disposed := true}

/-- The end of the function that the timer calls. -/
def State.endIteration (s : State) : State :=
  if s.state=.Terminated then {s with disposed := s.disposed || s.onEnd}
  else if s.state=.Executing then {s with state := .Inactive}.start false
  else s

/-- The timer fires: the function that it calls begins. -/
def State.fire (s : State) (h : ℕ) : State :=
  let s' := {s with scheduled := s.scheduled.filter fun h' => h'≠h}
  if s.state=.Active then {s' with state := .Executing,running := s.running+1}
  else s'.endIteration

/-- A call of the callback ends, with an error or without one. -/
def State.finish (s : State) : State :=
  if s.state=.ExecutingAndWantReexecute then {s with state := .Executing}
  else State.endIteration {s with running := s.running-1}

/-- What can happen to an interval. -/
inductive Event where
  /-- `start()` is called. -/
  | start (firstIterIsImmediate : Bool)
  /-- `stop()` is called. -/
  | stop
  /-- `[Symbol.asyncDispose]()` is called. -/
  | dispose
  /-- A timer fires. -/
  | fire (h : ℕ)
  /-- A call of the callback ends. -/
  | finish
deriving DecidableEq, Repr

/-- The state after an event, when it can happen. -/
def State.step (s : State) : Event → Option State
  | .start firstIterIsImmediate => some (s.start firstIterIsImmediate)
  | .stop => some s.stop
  | .dispose => some s.dispose
  | .fire h => if h ∈ s.scheduled then some (s.fire h) else none
  | .finish => if 0 < s.running then some s.finish else none

end SpiritMysql.Interval
