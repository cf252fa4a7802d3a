import Mathlib.Tactic.Common

/-!
# Runs of an event system

A system takes one event after another, and an event can be impossible in a
state. What every event of some kind preserves holds in the state that a run
of such events ends in.
-/

namespace SpiritMysql.EventSystem

variable {σ ε : Type}

/-- The state after a list of events, when each of them was possible. -/
def run (step : σ → ε → Option σ) : σ → List ε → Option σ
  | s,[] => some s
  | s,e::es =>
    match step s e with
    | some s' => run step s' es
    | none => none

/-- Every event of the run meets a condition in the state where it happens. -/
def Meets (step : σ → ε → Option σ) (C : σ → ε → Prop) : σ → List ε → Prop
  | _,[] => True
  | s,e::es =>
    C s e ∧
      match step s e with
      | some s' => Meets step C s' es
      | none => True

/-- If every event of a run meets a condition can be decided. -/
def Meets.decide {step : σ → ε → Option σ} {C : σ → ε → Prop} [∀ s e,Decidable (C s e)] :
    (es : List ε) → (s : σ) → Decidable (Meets step C s es)
  | [],_ => isTrue trivial
  | e::es,s =>
    @instDecidableAnd (C s e) _ _ (match step s e with
      | some s' => Meets.decide es s'
      | none => isTrue trivial)

instance {step : σ → ε → Option σ} {C : σ → ε → Prop} [∀ s e,Decidable (C s e)] (s : σ)
    (es : List ε) : Decidable (Meets step C s es) :=
  Meets.decide es s

/-- A run ends where its last events lead from the state in between. -/
theorem run_append {step : σ → ε → Option σ} (es fs : List ε) (s : σ) :
    run step s (es++fs)=(run step s es).bind (fun s' => run step s' fs) := by
  induction es generalizing s with
  | nil => rfl
  | cons e es ih =>
    simp only [List.cons_append,run]
    cases step s e with
    | none => rfl
    | some s' => exact ih s'

/-- One possible event, then the others. -/
theorem run_cons {step : σ → ε → Option σ} {s s' : σ} {e : ε} (h : step s e=some s')
    (es : List ε) : run step s (e::es)=run step s' es := by
  simp only [run,h]

/-- A run of one more event begins with a possible event. -/
theorem run_cons_inv {step : σ → ε → Option σ} {s t : σ} {e : ε} {es : List ε}
    (h : run step s (e::es)=some t) : ∃ s',step s e=some s' ∧ run step s' es=some t := by
  simp only [run] at h
  cases hs : step s e with
  | none =>
    rw [hs] at h
    exact absurd h (Option.some_ne_none t).symm
  | some s' =>
    rw [hs] at h
    exact ⟨s',rfl,h⟩

/-- The events of a run meet a condition when the first ones do, and the others from
the state that these lead to. -/
theorem meets_append {step : σ → ε → Option σ} {C : σ → ε → Prop} {es fs : List ε} {s : σ}
    (hes : Meets step C s es) (hfs : ∀ t,run step s es=some t → Meets step C t fs) :
    Meets step C s (es++fs) := by
  induction es generalizing s with
  | nil => exact hfs s rfl
  | cons e es ih =>
    obtain ⟨he,hrest⟩ := hes
    refine ⟨he,?_⟩
    cases hs : step s e with
    | none => exact trivial
    | some s' =>
      rw [hs] at hrest
      exact ih hrest (fun t ht => hfs t (by rw [run_cons hs]; exact ht))

/-- One event meets a condition, and then the others do. -/
theorem meets_cons {step : σ → ε → Option σ} {C : σ → ε → Prop} {e : ε} {es : List ε} {s : σ}
    (he : C s e) (hes : ∀ s',step s e=some s' → Meets step C s' es) : Meets step C s (e::es) := by
  refine ⟨he,?_⟩
  cases hs : step s e with
  | none => exact trivial
  | some s' => exact hes s' hs

/-- An invariant that the events of a run keep, where each meets a condition
on the state it happens in, holds at the end of the run. -/
theorem run_meets {step : σ → ε → Option σ} {C : σ → ε → Prop} {I : σ → Prop}
    (hstep : ∀ s e s',I s → C s e → step s e=some s' → I s') {es : List ε} {s t : σ}
    (hs : I s) (hc : Meets step C s es) (h : run step s es=some t) : I t := by
  induction es generalizing s with
  | nil =>
    cases h
    exact hs
  | cons e es ih =>
    obtain ⟨s',he,ht⟩ := run_cons_inv h
    obtain ⟨hce,hrest⟩ := hc
    rw [he] at hrest
    exact ih (hstep s e s' hs hce he) hrest ht

/-- An invariant that every event keeps whose own data meet a condition. -/
theorem run_invariant {step : σ → ε → Option σ} {C : ε → Prop} {I : σ → Prop}
    (hstep : ∀ s e s',I s → C e → step s e=some s' → I s') {es : List ε} {s t : σ}
    (hs : I s) (hc : ∀ e ∈ es,C e) (h : run step s es=some t) : I t := by
  refine run_meets (C:=fun _ e => C e) hstep hs ?_ h
  clear h hs
  induction es generalizing s with
  | nil => exact trivial
  | cons e es ih =>
    refine ⟨hc e List.mem_cons_self,?_⟩
    cases step s e with
    | none => exact trivial
    | some s' => exact ih (fun f hf => hc f (List.mem_cons_of_mem _ hf))

/-- An invariant that the events of a run keep gives what each event of it needs. -/
theorem meets_of_invariant {step : σ → ε → Option σ} {C D : σ → ε → Prop} {I : σ → Prop}
    (hstep : ∀ s e s',I s → C s e → step s e=some s' → I s') (hgood : ∀ s e,I s → C s e → D s e)
    {es : List ε} {s : σ} (hs : I s) (hc : Meets step C s es) : Meets step D s es := by
  induction es generalizing s with
  | nil => exact trivial
  | cons e es ih =>
    obtain ⟨he,hrest⟩ := hc
    refine meets_cons (hgood s e hs he) (fun s' hs' => ?_)
    rw [hs'] at hrest
    exact ih (hstep s e s' hs he hs') hrest

end SpiritMysql.EventSystem
