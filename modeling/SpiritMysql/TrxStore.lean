import Mathlib.Data.List.Basic

/-!
# Transactions with savepoints

A store holds committed data and at most one open transaction, with a kind, the
data that it sees and its savepoints. Each savepoint remembers the data at the
moment when it was set.
-/

namespace SpiritMysql.TrxStore

variable {κ ν δ : Type}

/-- An open transaction. -/
structure Trx (κ ν δ : Type) where
  /-- What kind of transaction it is. -/
  kind : κ
  /-- The data that it sees. -/
  data : δ
  /-- The savepoints, the last one first. -/
  points : List (ν×δ) := []
deriving DecidableEq, Repr

/-- The data, and the transaction that is open. -/
structure Store (κ ν δ : Type) where
  /-- What was committed. -/
  committed : δ
  /-- The transaction. -/
  trx : Option (Trx κ ν δ) := none
deriving DecidableEq, Repr

/-- The data that are seen from inside. -/
def Store.visible (s : Store κ ν δ) : δ := (s.trx.map Trx.data).getD s.committed

/-- The names of the live savepoints. -/
def Store.names (s : Store κ ν δ) : List ν := (s.trx.map (fun t => t.points.map Prod.fst)).getD []

/-- Make the data of the transaction permanent. -/
def Store.commit (s : Store κ ν δ) : Store κ ν δ := ⟨s.visible,none⟩

/-- Forget the transaction. -/
def Store.rollback (s : Store κ ν δ) : Store κ ν δ := ⟨s.committed,none⟩

/-- Start a transaction; the one that was open is committed. -/
def Store.start (kind : κ) (s : Store κ ν δ) : Store κ ν δ :=
  ⟨s.visible,some ⟨kind,s.visible,[]⟩⟩

/-- Change the data, in the transaction or without it. -/
def Store.write (f : δ → δ) (s : Store κ ν δ) : Store κ ν δ :=
  match s.trx with
  | some t => {s with trx := some {t with data := f t.data}}
  | none => {s with committed := f s.committed}

/-- Set a savepoint. Without a transaction nothing remains of it. -/
def Store.setPoint [DecidableEq ν] (name : ν) (s : Store κ ν δ) : Store κ ν δ :=
  {s with trx := s.trx.map (fun t =>
    {t with points := (name,t.data)::t.points.filter (fun p => decide (p.1≠name))})}

/-- The savepoints that remain when one is returned to: it and the ones before. -/
def rewind [DecidableEq ν] (name : ν) : List (ν×δ) → Option (δ×List (ν×δ))
  | [] => none
  | p::points => if p.1=name then some (p.2,p::points) else rewind name points

/-- Return to a savepoint, which stays. -/
def Store.rollbackTo [DecidableEq ν] (name : ν) (s : Store κ ν δ) : Option (Store κ ν δ) :=
  match s.trx with
  | some t =>
    match rewind name t.points with
    | some r => some {s with trx := some {t with data := r.1,points := r.2}}
    | none => none
  | none => none

end SpiritMysql.TrxStore
