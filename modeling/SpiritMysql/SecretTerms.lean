import Mathlib.Tactic.Common

/-!
# Bytes that are computed from a secret

A term says how bytes are computed from public bytes and a secret, with calls of
functions that are not looked into. When the secret occurs only in what is
passed to such functions, the bytes depend on it only by what they return.
-/

namespace SpiritMysql.SecretTerms

/-- How bytes are computed, with calls of functions, and with functions that are
looked into. -/
inductive Term (ι κ : Type) where
  /-- Public bytes. -/
  | bytes (bs : List UInt8)
  /-- The secret. -/
  | secret
  /-- One after the other. -/
  | append (a b : Term ι κ)
  /-- The first one, mixed with the second one, that is repeated. -/
  | xor (a b : Term ι κ)
  /-- A function that is looked into. -/
  | apply (g : κ) (t : Term ι κ)
  /-- A call. -/
  | call (f : ι) (t : Term ι κ)
deriving DecidableEq, Repr

variable {ι κ : Type}

/-- Mix bytes with others, that are repeated. -/
def xorBytes (as bs : List UInt8) : List UInt8 :=
  as.mapIdx fun i a => a^^^bs.getD (i%bs.length) 0

/-- The bytes of a term. -/
def Term.eval (known : κ → List UInt8 → List UInt8) (calls : ι → List UInt8 → List UInt8)
    (secret : List UInt8) : Term ι κ → List UInt8
  | .bytes bs => bs
  | .secret => secret
  | .append a b => a.eval known calls secret++b.eval known calls secret
  | .xor a b => xorBytes (a.eval known calls secret) (b.eval known calls secret)
  | .apply g t => known g (t.eval known calls secret)
  | .call f t => calls f (t.eval known calls secret)

/-- The secret occurs outside the calls. -/
def Term.direct : Term ι κ → Bool
  | .bytes _ => false
  | .secret => true
  | .append a b => a.direct || b.direct
  | .xor a b => a.direct || b.direct
  | .apply _ t => t.direct
  | .call _ _ => false

/-- The calls that are not within others. -/
def Term.outer : Term ι κ → List (ι×Term ι κ)
  | .bytes _ => []
  | .secret => []
  | .append a b => a.outer++b.outer
  | .xor a b => a.outer++b.outer
  | .apply _ t => t.outer
  | .call f t => [(f,t)]

/-- The functions that are called. -/
def Term.functions : Term ι κ → List ι
  | .bytes _ => []
  | .secret => []
  | .append a b => a.functions++b.functions
  | .xor a b => a.functions++b.functions
  | .apply _ t => t.functions
  | .call f t => f::t.functions

/-- The bytes depend on the secret only by what the functions return. -/
def Term.Guarded (t : Term ι κ) : Prop :=
  ∀ (known : κ → List UInt8 → List UInt8) (calls calls' : ι → List UInt8 → List UInt8)
    (secret secret' : List UInt8),
    (∀ f u,(f,u) ∈ t.outer →
      calls f (u.eval known calls secret)=calls' f (u.eval known calls' secret')) →
      t.eval known calls secret=t.eval known calls' secret'

/-- A term is guarded when the secret occurs in calls only. -/
theorem guarded_of_direct {t : Term ι κ} (h : t.direct=false) : t.Guarded := by
  intro known calls calls' secret secret'
  induction t with
  | bytes bs => intro _; rfl
  | secret => cases h
  | append a b iha ihb =>
    intro hc
    rw [Term.direct,Bool.or_eq_false_iff] at h
    have ha := iha h.1 fun f u hu => hc f u (List.mem_append_left _ hu)
    have hb := ihb h.2 fun f u hu => hc f u (List.mem_append_right _ hu)
    rw [Term.eval,Term.eval,ha,hb]
  | xor a b iha ihb =>
    intro hc
    rw [Term.direct,Bool.or_eq_false_iff] at h
    have ha := iha h.1 fun f u hu => hc f u (List.mem_append_left _ hu)
    have hb := ihb h.2 fun f u hu => hc f u (List.mem_append_right _ hu)
    rw [Term.eval,Term.eval,ha,hb]
  | apply g t ih =>
    intro hc
    rw [Term.eval,Term.eval,ih h hc]
  | call f t ih =>
    intro hc
    exact hc f t (List.mem_singleton.mpr rfl)

end SpiritMysql.SecretTerms
