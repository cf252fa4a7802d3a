import SpiritMysql.AsyncAction

/-!
# Two operations side by side

Two runs are coupled when they end in the same way: with related values and
states, with the same error, or both pending. After an error only a weaker relation of
the states is asked for. Two runs are trailing when nothing but this is known.
-/

namespace SpiritMysql.AsyncAction

variable {ε σ τ α β γ δ : Type}

/-- Two outcomes of the same kind, with values related by `V` and states by `R`. After
an error and while pending the states are related by `S`. -/
inductive Paired (V : α → β → Prop) (R S : σ → τ → Prop) : Outcome ε σ α → Outcome ε τ β → Prop
  /-- Both completed. -/
  | done {a : α} {b : β} {s : σ} {t : τ} (hv : V a b) (hr : R s t) : Paired V R S (.done a s) (.done b t)
  /-- Both rejected. -/
  | thrown {e : ε} {s : σ} {t : τ} (hs : S s t) : Paired V R S (.thrown e s) (.thrown e t)
  /-- Both are pending. -/
  | waiting {s : σ} {t : τ} (hs : S s t) : Paired V R S (.waiting s) (.waiting t)

/-- Two operations that are paired from all states related by `P`. -/
def Coupled (S P : σ → τ → Prop) (V : α → β → Prop) (R : σ → τ → Prop) (x : Act ε σ α)
    (y : Act ε τ β) : Prop := ∀ s t,P s t → Paired V R S (x s) (y t)

/-- Two operations that leave related states from all states related by `P`. -/
def Trailing (S P : σ → τ → Prop) (x : Act ε σ α) (y : Act ε τ β) : Prop :=
  ∀ s t,P s t → S (x s).state (y t).state

section Rules

variable {S P Q R : σ → τ → Prop} {V : α → β → Prop} {W : γ → δ → Prop}

/-- Paired outcomes leave related states. -/
theorem Paired.state {x : Outcome ε σ α} {y : Outcome ε τ β} (h : Paired V R S x y)
    (hrs : ∀ s t,R s t → S s t) : S x.state y.state := by
  cases h with
  | done hv hr => exact hrs _ _ hr
  | thrown hs => exact hs
  | waiting hs => exact hs

/-- Paired outcomes are continued. -/
theorem Paired.andThen {x : Outcome ε σ α} {y : Outcome ε τ β} (h : Paired V Q S x y)
    {f : α → Act ε σ γ} {g : β → Act ε τ δ} (hf : ∀ a b,V a b → Coupled S Q W R (f a) (g b)) :
    Paired W R S (x.andThen f) (y.andThen g) := by
  cases h with
  | done hv hr => exact hf _ _ hv _ _ hr
  | thrown hs => exact .thrown hs
  | waiting hs => exact .waiting hs

/-- Less is asked for. -/
theorem Paired.mono {x : Outcome ε σ α} {y : Outcome ε τ β} (h : Paired V Q S x y)
    {V' : α → β → Prop} (hv : ∀ a b,V a b → V' a b) (hr : ∀ s t,Q s t → R s t) : Paired V' R S x y := by
  cases h with
  | done ha hq => exact .done (hv _ _ ha) (hr _ _ hq)
  | thrown hs => exact .thrown hs
  | waiting hs => exact .waiting hs

/-- Paired outcomes are continued, and only related states are asked for. -/
theorem Paired.andThen_state {x : Outcome ε σ α} {y : Outcome ε τ β} (h : Paired V Q S x y)
    {f : α → Act ε σ γ} {g : β → Act ε τ δ} (hf : ∀ a b,V a b → Trailing S Q (f a) (g b)) :
    S (x.andThen f).state (y.andThen g).state := by
  cases h with
  | done hv hr => exact hf _ _ hv _ _ hr
  | thrown hs => exact hs
  | waiting hs => exact hs

/-- An outcome is continued without an effect on the relation. -/
theorem andThen_state {x : Outcome ε σ α} {y : Outcome ε τ β} (h : S x.state y.state)
    {f : α → Act ε σ γ} {g : β → Act ε τ δ} (hf : ∀ a s t,S s t → S (f a s).state t)
    (hg : ∀ b s t,S s t → S s (g b t).state) : S (x.andThen f).state (y.andThen g).state := by
  have hx : ∀ t,S x.state t → S (x.andThen f).state t := by
    intro t hs
    cases x with
    | done a s => exact hf a s t hs
    | thrown e s => exact hs
    | waiting s => exact hs
  cases y with
  | done b t => exact hg b _ t (hx t h)
  | thrown e t => exact hx t h
  | waiting t => exact hx t h

/-- Values are returned. -/
theorem Coupled.pure {a : α} {b : β} (h : V a b) :
    Coupled S R V R (Pure.pure a : Act ε σ α) (Pure.pure b : Act ε τ β) :=
  fun _ _ hr => .done h hr

/-- One operation after another. -/
theorem Coupled.bind {x : Act ε σ α} {y : Act ε τ β} {f : α → Act ε σ γ} {g : β → Act ε τ δ}
    (hx : Coupled S P V Q x y) (hf : ∀ a b,V a b → Coupled S Q W R (f a) (g b)) :
    Coupled S P W R (x >>= f) (y >>= g) :=
  fun s t hp => (hx s t hp).andThen hf

/-- The same error. -/
theorem Coupled.fail (hps : ∀ s t,P s t → S s t) (e : ε) :
    Coupled S P V R (AsyncAction.fail e : Act ε σ α) (AsyncAction.fail e : Act ε τ β) :=
  fun s t hp => .thrown (hps s t hp)

/-- Nothing more happens. -/
theorem Coupled.wait (hps : ∀ s t,P s t → S s t) :
    Coupled S P V R (AsyncAction.wait : Act ε σ α) (AsyncAction.wait : Act ε τ β) :=
  fun s t hp => .waiting (hps s t hp)

/-- The states are updated. -/
theorem Coupled.modify {f : σ → σ} {g : τ → τ} (h : ∀ s t,P s t → R (f s) (g t)) :
    Coupled S P (fun _ _ => True) R (AsyncAction.modify f : Act ε σ Unit) (AsyncAction.modify g) :=
  fun s t hp => .done trivial (h s t hp)

/-- What follows may use the states that were read. -/
theorem Coupled.get {f : σ → Act ε σ γ} {g : τ → Act ε τ δ}
    (h : ∀ s t,P s t → Paired W R S (f s s) (g t t)) :
    Coupled S P W R (AsyncAction.get >>= f) (AsyncAction.get >>= g) := h

/-- Branches on conditions that are the same. -/
theorem Coupled.ite {c d : Prop} [Decidable c] [Decidable d] (hcd : c ↔ d) {x x' : Act ε σ α}
    {y y' : Act ε τ β} (hx : Coupled S P V R x y) (hy : Coupled S P V R x' y') :
    Coupled S P V R (if c then x else x') (if d then y else y') := by
  by_cases h : c
  · rw [if_pos h,if_pos (hcd.mp h)]
    exact hx
  · rw [if_neg h,if_neg (fun hd => h (hcd.mpr hd))]
    exact hy

/-- More is known before, and less is asked for. -/
theorem Coupled.mono {P' R' : σ → τ → Prop} {V' : α → β → Prop} {x : Act ε σ α} {y : Act ε τ β}
    (h : Coupled S P V R x y) (hp : ∀ s t,P' s t → P s t) (hv : ∀ a b,V a b → V' a b)
    (hr : ∀ s t,R s t → R' s t) : Coupled S P' V' R' x y :=
  fun s t hs => (h s t (hp s t hs)).mono hv hr

/-- Coupled operations are trailing. -/
theorem Coupled.trailing {x : Act ε σ α} {y : Act ε τ β} (h : Coupled S P V R x y)
    (hrs : ∀ s t,R s t → S s t) : Trailing S P x y :=
  fun s t hp => (h s t hp).state hrs

/-- The last operation is trailing. -/
theorem Trailing.bind {x : Act ε σ α} {y : Act ε τ β} {f : α → Act ε σ γ} {g : β → Act ε τ δ}
    (hx : Coupled S P V Q x y) (hf : ∀ a b,V a b → Trailing S Q (f a) (g b)) :
    Trailing S P (x >>= f) (y >>= g) :=
  fun s t hp => (hx s t hp).andThen_state hf

/-- What follows does not concern the relation. -/
theorem Trailing.then {x : Act ε σ α} {y : Act ε τ β} {f : α → Act ε σ γ} {g : β → Act ε τ δ}
    (hx : Trailing S P x y) (hf : ∀ a s t,S s t → S (f a s).state t)
    (hg : ∀ b s t,S s t → S s (g b t).state) : Trailing S P (x >>= f) (y >>= g) :=
  fun s t hp => andThen_state (hx s t hp) hf hg

/-- Branches on conditions that are the same. -/
theorem Trailing.ite {c d : Prop} [Decidable c] [Decidable d] (hcd : c ↔ d) {x x' : Act ε σ α}
    {y y' : Act ε τ β} (hx : Trailing S P x y) (hy : Trailing S P x' y') :
    Trailing S P (if c then x else x') (if d then y else y') := by
  by_cases h : c
  · rw [if_pos h,if_pos (hcd.mp h)]
    exact hx
  · rw [if_neg h,if_neg (fun hd => h (hcd.mpr hd))]
    exact hy

end Rules

end SpiritMysql.AsyncAction
