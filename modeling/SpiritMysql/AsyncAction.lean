import Mathlib.Tactic.Common

/-!
# Asynchronous operations as state functions

An awaited operation of a single-threaded program either completes with a
value, rejects with an error, or stays pending because what it waits for
never arrives. All three keep the state reached so far, because an
exception does not undo the writes made before it.
-/

namespace SpiritMysql.AsyncAction

/-- What one awaited operation ends with. -/
inductive Outcome (ε σ α : Type) where
  /-- The promise resolved to a value. -/
  | done (value : α) (state : σ)
  /-- The promise rejected; earlier writes stay in the state. -/
  | thrown (error : ε) (state : σ)
  /-- The promise is still pending when nothing more can arrive. -/
  | waiting (state : σ)
deriving DecidableEq, Repr

variable {ε σ τ α β : Type}

/-- An asynchronous operation on a state. -/
def Act (ε σ α : Type) := σ → Outcome ε σ α

/-- Continue after a completed operation; errors and pending states pass. -/
def Outcome.andThen (x : Outcome ε σ α) (f : α → Act ε σ β) : Outcome ε σ β :=
  match x with
  | .done a s => f a s
  | .thrown e s => .thrown e s
  | .waiting s => .waiting s

/-- Continue after a rejected operation only, as a `catch` block does. -/
def Outcome.orElse (x : Outcome ε σ α) (f : ε → Act ε σ α) : Outcome ε σ α :=
  match x with
  | .done a s => .done a s
  | .thrown e s => f e s
  | .waiting s => .waiting s

/-- The state an operation left behind, whichever way it ended. -/
def Outcome.state : Outcome ε σ α → σ
  | .done _ s => s
  | .thrown _ s => s
  | .waiting s => s

/-- Map the state of an outcome, for operations on a part of a state. -/
def Outcome.mapState (f : σ → τ) : Outcome ε σ α → Outcome ε τ α
  | .done a s => .done a (f s)
  | .thrown e s => .thrown e (f s)
  | .waiting s => .waiting (f s)

@[simp] theorem Outcome.andThen_done (a : α) (s : σ) (f : α → Act ε σ β) :
    (Outcome.done a s).andThen f=f a s := rfl

@[simp] theorem Outcome.andThen_thrown (e : ε) (s : σ) (f : α → Act ε σ β) :
    (Outcome.thrown e s).andThen f=.thrown e s := rfl

@[simp] theorem Outcome.andThen_waiting (s : σ) (f : α → Act ε σ β) :
    (Outcome.waiting s).andThen f=.waiting s := rfl

@[simp] theorem Outcome.orElse_done (a : α) (s : σ) (f : ε → Act ε σ α) :
    (Outcome.done a s).orElse f=.done a s := rfl

@[simp] theorem Outcome.orElse_thrown (e : ε) (s : σ) (f : ε → Act ε σ α) :
    (Outcome.thrown e s).orElse f=f e s := rfl

@[simp] theorem Outcome.orElse_waiting (s : σ) (f : ε → Act ε σ α) :
    (Outcome.waiting s).orElse f=.waiting s := rfl

@[simp] theorem Outcome.mapState_done (f : σ → τ) (a : α) (s : σ) :
    (Outcome.done a s : Outcome ε σ α).mapState f=.done a (f s) := rfl

@[simp] theorem Outcome.mapState_thrown (f : σ → τ) (e : ε) (s : σ) :
    (Outcome.thrown e s : Outcome ε σ α).mapState f=.thrown e (f s) := rfl

@[simp] theorem Outcome.mapState_waiting (f : σ → τ) (s : σ) :
    (Outcome.waiting s : Outcome ε σ α).mapState f=.waiting (f s) := rfl

/-- A sequence completes when both of its parts do. -/
theorem Outcome.andThen_eq_done {x : Outcome ε σ α} {f : α → Act ε σ β} {b : β} {u : σ} :
    x.andThen f=.done b u↔∃ a s,x=.done a s ∧ f a s=.done b u := by
  constructor
  · intro h
    cases x with
    | done a s => exact ⟨a,s,rfl,h⟩
    | thrown e s => cases h
    | waiting s => cases h
  · rintro ⟨a,s,rfl,h⟩
    exact h

/-- A sequence rejects when one of its parts does. -/
theorem Outcome.andThen_eq_thrown {x : Outcome ε σ α} {f : α → Act ε σ β} {e : ε} {u : σ} :
    x.andThen f=.thrown e u↔x=.thrown e u ∨ ∃ a s,x=.done a s ∧ f a s=.thrown e u := by
  cases x with
  | done a s => simp
  | thrown e s => simp
  | waiting s => simp

/-- A handled operation completes when it does, or when its handler does. -/
theorem Outcome.orElse_eq_done {x : Outcome ε σ α} {f : ε → Act ε σ α} {a : α} {u : σ} :
    x.orElse f=.done a u↔x=.done a u ∨ ∃ e s,x=.thrown e s ∧ f e s=.done a u := by
  cases x with
  | done b s => simp
  | thrown e s => simp
  | waiting s => simp

/-- An operation on a part completes when the operation does. -/
theorem Outcome.mapState_eq_done {f : σ → τ} {x : Outcome ε σ α} {a : α} {t : τ} :
    x.mapState f=.done a t↔∃ s,x=.done a s ∧ t=f s := by
  cases x with
  | done b s => simp [eq_comm]
  | thrown e s => simp
  | waiting s => simp

instance : Monad (Act ε σ) where
  pure a := fun s => .done a s
  bind x f := fun s => (x s).andThen f

/-- Reject with an error. -/
def fail (e : ε) : Act ε σ α := fun s => .thrown e s

/-- Wait for something that does not arrive. -/
def wait : Act ε σ α := fun s => .waiting s

/-- Read the whole state. -/
def get : Act ε σ σ := fun s => .done s s

/-- Update the state. -/
def modify (f : σ → σ) : Act ε σ Unit := fun s => .done () (f s)

/-- A `try` block with its `catch` handler. -/
def attempt (x : Act ε σ α) (handler : ε → Act ε σ α) : Act ε σ α :=
  fun s => (x s).orElse handler

/-- Run an operation under a condition only. -/
def doWhen (c : Prop) [Decidable c] (x : Act ε σ Unit) : Act ε σ Unit := if c then x else pure ()

/-- Run an operation on one part of a larger state. -/
def onPart (part : σ → τ) (put : τ → σ → σ) (x : Act ε τ α) : Act ε σ α :=
  fun s => (x (part s)).mapState (fun t => put t s)

@[simp] theorem pure_apply (a : α) (s : σ) : (pure a : Act ε σ α) s=.done a s := rfl

@[simp] theorem bind_apply (x : Act ε σ α) (f : α → Act ε σ β) (s : σ) :
    (x >>= f) s=(x s).andThen f := rfl

@[simp] theorem fail_apply (e : ε) (s : σ) : (fail e : Act ε σ α) s=.thrown e s := rfl

@[simp] theorem wait_apply (s : σ) : (wait : Act ε σ α) s=.waiting s := rfl

@[simp] theorem get_apply (s : σ) : (get : Act ε σ σ) s=.done s s := rfl

@[simp] theorem modify_apply (f : σ → σ) (s : σ) :
    (modify f : Act ε σ Unit) s=.done () (f s) := rfl

@[simp] theorem attempt_apply (x : Act ε σ α) (handler : ε → Act ε σ α) (s : σ) :
    attempt x handler s=(x s).orElse handler := rfl

@[simp] theorem onPart_apply (part : σ → τ) (put : τ → σ → σ) (x : Act ε τ α) (s : σ) :
    (onPart part put x : Act ε σ α) s=(x (part s)).mapState (fun t => put t s) := rfl

/-- A sequence completes when both of its operations do. -/
theorem bind_eq_done {x : Act ε σ α} {f : α → Act ε σ β} {s u : σ} {b : β} :
    (x >>= f) s=.done b u↔∃ a t,x s=.done a t ∧ f a t=.done b u := Outcome.andThen_eq_done

/-- A sequence rejects when one of its operations does. -/
theorem bind_eq_thrown {x : Act ε σ α} {f : α → Act ε σ β} {s u : σ} {e : ε} :
    (x >>= f) s=.thrown e u↔x s=.thrown e u ∨ ∃ a t,x s=.done a t ∧ f a t=.thrown e u :=
  Outcome.andThen_eq_thrown

/-- A branch on a decidable condition runs the chosen operation. -/
@[simp] theorem branch_apply (c : Prop) [Decidable c] (x y : Act ε σ α) (s : σ) :
    (if c then x else y) s=if c then x s else y s := by
  split <;> rfl

/-- What holds after the first operation of a sequence, and is kept by the second one. -/
theorem state_bind {I : σ → Prop} {x : Act ε σ α} {f : α → Act ε σ β} {s : σ} (hx : I (x s).state)
    (hf : ∀ a t, x s=.done a t → I t → I (f a t).state) : I ((x >>= f) s).state := by
  rw [bind_apply]
  cases hxs : x s with
  | done a t =>
    rw [hxs] at hx
    exact hf a t hxs hx
  | thrown e t => rwa [hxs] at hx
  | waiting t => rwa [hxs] at hx

/-- What holds after an operation, and is kept by the handler of its errors. -/
theorem state_attempt {I : σ → Prop} {x : Act ε σ α} {f : ε → Act ε σ α} {s : σ} (hx : I (x s).state)
    (hf : ∀ e t, x s=.thrown e t → I t → I (f e t).state) : I (attempt x f s).state := by
  rw [attempt_apply]
  cases hxs : x s with
  | done a t => rwa [hxs] at hx
  | thrown e t =>
    rw [hxs] at hx
    exact hf e t hxs hx
  | waiting t => rwa [hxs] at hx

/-- Every run of an operation, however it ends, relates its first and last
states by `R`. -/
def Always (R : σ → σ → Prop) (x : Act ε σ α) : Prop := ∀ s, R s (x s).state

section Always

variable {R : σ → σ → Prop}

/-- A resolved value leaves the state alone. -/
theorem Always.pure (hr : ∀ s, R s s) (a : α) : Always R (Pure.pure a : Act ε σ α) := hr

/-- A rejection leaves the state alone. -/
theorem Always.fail (hr : ∀ s, R s s) (e : ε) : Always R (AsyncAction.fail e : Act ε σ α) := hr

/-- Waiting leaves the state alone. -/
theorem Always.wait (hr : ∀ s, R s s) : Always R (AsyncAction.wait : Act ε σ α) := hr

/-- Reading the state leaves it alone. -/
theorem Always.get (hr : ∀ s, R s s) : Always R (AsyncAction.get : Act ε σ σ) := hr

/-- A transitive relation passes through sequencing. -/
theorem Always.bind (ht : ∀ s t u, R s t → R t u → R s u) {x : Act ε σ α}
    {f : α → Act ε σ β} (hx : Always R x) (hf : ∀ a, Always R (f a)) : Always R (x >>= f) := by
  intro s
  have h := hx s
  rw [bind_apply]
  cases hs : x s with
  | done a s' =>
    rw [hs] at h
    exact ht _ _ _ h (hf a s')
  | thrown e s' => rwa [hs] at h
  | waiting s' => rwa [hs] at h

/-- A transitive relation passes through a handler. -/
theorem Always.attempt (ht : ∀ s t u, R s t → R t u → R s u) {x : Act ε σ α}
    {f : ε → Act ε σ α} (hx : Always R x) (hf : ∀ e, Always R (f e)) :
    Always R (AsyncAction.attempt x f) := by
  intro s
  have h := hx s
  rw [attempt_apply]
  cases hs : x s with
  | done a s' => rwa [hs] at h
  | thrown e s' =>
    rw [hs] at h
    exact ht _ _ _ h (hf e s')
  | waiting s' => rwa [hs] at h

/-- An operation that may not run keeps what it keeps. -/
theorem Always.doWhen (hr : ∀ s, R s s) {c : Prop} [Decidable c] {x : Act ε σ Unit}
    (hx : Always R x) : Always R (AsyncAction.doWhen c x) := by
  unfold AsyncAction.doWhen
  split
  · exact hx
  · exact hr

/-- Both branches keep the relation. -/
theorem Always.ite {c : Prop} [Decidable c] {x y : Act ε σ α} (hx : Always R x)
    (hy : Always R y) : Always R (if c then x else y) := by
  split
  · exact hx
  · exact hy

end Always

/-- From every state where `I` holds, an operation ends where `I` holds, and a value
that it resolves to satisfies `Q`. -/
def Ensures (I : σ → Prop) (x : Act ε σ α) (Q : α → Prop) : Prop :=
  ∀ s, I s → I (x s).state ∧ ∀ a t, x s=.done a t → Q a

section Ensures

variable {I : σ → Prop}

/-- A resolved value that satisfies the condition. -/
theorem Ensures.pure {a : α} {Q : α → Prop} (hq : Q a) : Ensures I (Pure.pure a : Act ε σ α) Q := by
  intro s hs
  refine ⟨hs,fun b t h => ?_⟩
  cases h
  exact hq

/-- A rejection resolves to nothing. -/
theorem Ensures.fail {e : ε} {Q : α → Prop} : Ensures I (AsyncAction.fail e : Act ε σ α) Q := by
  intro s hs
  exact ⟨hs,fun b t h => by cases h⟩

/-- An update that keeps what holds. -/
theorem Ensures.modify {f : σ → σ} {Q : Unit → Prop} (hi : ∀ s, I s → I (f s)) (hq : Q ()) :
    Ensures I (AsyncAction.modify f : Act ε σ Unit) Q := by
  intro s hs
  exact ⟨hi s hs,fun b t h => hq⟩

/-- Waiting resolves to nothing. -/
theorem Ensures.wait {Q : α → Prop} : Ensures I (AsyncAction.wait : Act ε σ α) Q := by
  intro s hs
  exact ⟨hs,fun b t h => by cases h⟩

/-- Reading the state resolves to one where `I` holds. -/
theorem Ensures.get : Ensures I (AsyncAction.get : Act ε σ σ) I := by
  intro s hs
  refine ⟨hs,fun b t h => ?_⟩
  cases h
  exact hs

/-- The second operation of a sequence relies on what the first one ensures. -/
theorem Ensures.bind {x : Act ε σ α} {f : α → Act ε σ β} {Q : α → Prop} {T : β → Prop}
    (hx : Ensures I x Q) (hf : ∀ a, Q a → Ensures I (f a) T) : Ensures I (x >>= f) T := by
  intro s hs
  obtain ⟨hi,hq⟩ := hx s hs
  rw [bind_apply]
  cases hxs : x s with
  | done a u =>
    rw [hxs] at hi
    exact hf a (hq a u hxs) u hi
  | thrown e u =>
    rw [hxs] at hi
    exact ⟨hi,fun b t h => by cases h⟩
  | waiting u =>
    rw [hxs] at hi
    exact ⟨hi,fun b t h => by cases h⟩

/-- Both branches ensure a condition. -/
theorem Ensures.ite {c : Prop} [Decidable c] {x y : Act ε σ α} {Q : α → Prop}
    (hx : Ensures I x Q) (hy : Ensures I y Q) : Ensures I (if c then x else y) Q := by
  split
  · exact hx
  · exact hy

end Ensures

/-- No run of an operation rejects. -/
def NeverThrows (x : Act ε σ α) : Prop := ∀ s e t, x s≠.thrown e t

/-- A resolved value is no rejection. -/
theorem NeverThrows.pure (a : α) : NeverThrows (Pure.pure a : Act ε σ α) := by
  intro s e t h
  cases h

/-- Reading the state is no rejection. -/
theorem NeverThrows.get : NeverThrows (AsyncAction.get : Act ε σ σ) := by
  intro s e t h
  cases h

/-- A sequence does not reject when its operations do not. -/
theorem NeverThrows.bind {x : Act ε σ α} {f : α → Act ε σ β} (hx : NeverThrows x)
    (hf : ∀ a, NeverThrows (f a)) : NeverThrows (x >>= f) := by
  intro s e t h
  rcases bind_eq_thrown.mp h with h | ⟨a,u,_,h⟩
  · exact hx s e t h
  · exact hf a u e t h

/-- A branch does not reject when both of its operations do not. -/
theorem NeverThrows.ite {c : Prop} [Decidable c] {x y : Act ε σ α} (hx : NeverThrows x)
    (hy : NeverThrows y) : NeverThrows (if c then x else y) := by
  split
  · exact hx
  · exact hy

end SpiritMysql.AsyncAction
