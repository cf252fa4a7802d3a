import Mathlib.Tactic.Common

/-!
# Maps in the order of insertion

A map whose first key is the one that was inserted first. A value that is set for a key
that is there already stays at its place.
-/

namespace SpiritMysql.InsertionMaps

variable {κ α : Type} [DecidableEq κ]

/-- `get()`. -/
def get (key : κ) : List (κ×α) → Option α
  | [] => none
  | (k,a)::rest => if k=key then some a else get key rest

/-- `set()`. -/
def set (key : κ) (value : α) : List (κ×α) → List (κ×α)
  | [] => [(key,value)]
  | (k,a)::rest => if k=key then (key,value)::rest else (k,a)::set key value rest

/-- `delete()`. -/
def delete (key : κ) : List (κ×α) → List (κ×α)
  | [] => []
  | (k,a)::rest => if k=key then delete key rest else (k,a)::delete key rest

/-- A value is found where it was set, and the others where they were. -/
theorem get_set (key other : κ) (value : α) (m : List (κ×α)) :
    get other (set key value m)=if other=key then some value else get other m := by
  induction m with
  | nil =>
    simp only [set,get]
    by_cases h : key=other
    · rw [if_pos h,if_pos h.symm]
    · rw [if_neg h,if_neg (fun he => h he.symm)]
  | cons e rest ih =>
    obtain ⟨k,a⟩ := e
    rw [set]
    by_cases hk : k=key
    · rw [if_pos hk,get,get,hk]
      by_cases h : key=other
      · rw [if_pos h,if_pos h.symm]
      · rw [if_neg h,if_neg (fun he => h he.symm),if_neg h]
    · rw [if_neg hk,get,get,ih]
      by_cases h : k=other
      · rw [if_pos h,if_pos h,if_neg (fun he => hk (h.trans he))]
      · rw [if_neg h,if_neg h]

/-- Nothing is found where it was deleted, and the others where they were. -/
theorem get_delete (key other : κ) (m : List (κ×α)) :
    get other (delete key m)=if other=key then none else get other m := by
  induction m with
  | nil =>
    simp only [delete,get]
    exact (ite_self none).symm
  | cons e rest ih =>
    obtain ⟨k,a⟩ := e
    rw [delete]
    by_cases hk : k=key
    · rw [if_pos hk,ih,get,hk]
      by_cases h : other=key
      · rw [if_pos h,if_pos h]
      · rw [if_neg h,if_neg h,if_neg (fun he => h he.symm)]
    · rw [if_neg hk,get,get,ih]
      by_cases h : k=other
      · rw [if_pos h,if_pos h,if_neg (fun he => hk (h.trans he))]
      · rw [if_neg h,if_neg h]

/-- What is in a map after a value was set. -/
theorem mem_set {key : κ} {value : α} {m : List (κ×α)} {e : κ×α} (h : e ∈ set key value m) :
    e=(key,value) ∨ e ∈ m := by
  induction m with
  | nil => exact .inl (List.mem_singleton.mp h)
  | cons e' rest ih =>
    obtain ⟨k,a⟩ := e'
    rw [set] at h
    by_cases hk : k=key
    · rw [if_pos hk,List.mem_cons] at h
      exact h.imp id (List.mem_cons_of_mem _)
    · rw [if_neg hk,List.mem_cons] at h
      rcases h with h | h
      · exact .inr (h ▸ List.mem_cons_self)
      · exact (ih h).imp id (List.mem_cons_of_mem _)

/-- What is in a map after a key was deleted. -/
theorem mem_delete {key : κ} {m : List (κ×α)} {e : κ×α} (h : e ∈ delete key m) : e ∈ m := by
  induction m with
  | nil => cases h
  | cons e' rest ih =>
    obtain ⟨k,a⟩ := e'
    rw [delete] at h
    by_cases hk : k=key
    · rw [if_pos hk] at h
      exact List.mem_cons_of_mem _ (ih h)
    · rw [if_neg hk,List.mem_cons] at h
      rcases h with h | h
      · exact h ▸ List.mem_cons_self
      · exact List.mem_cons_of_mem _ (ih h)

/-- A map is not empty after a value was set. -/
theorem set_ne_nil (key : κ) (value : α) (m : List (κ×α)) : set key value m≠[] := by
  cases m with
  | nil => exact List.cons_ne_nil _ _
  | cons e rest =>
    obtain ⟨k,a⟩ := e
    rw [set]
    split
    · exact List.cons_ne_nil _ _
    · exact List.cons_ne_nil _ _

/-- A value that is set for the first key is the first. -/
theorem set_head (key : κ) (value a : α) (rest : List (κ×α)) :
    set key value ((key,a)::rest)=(key,value)::rest := if_pos rfl

/-- The first key is found first. -/
theorem get_head (key : κ) (a : α) (rest : List (κ×α)) : get key ((key,a)::rest)=some a :=
  if_pos rfl

/-- The first key stays the first when another value is set. -/
theorem set_other {key k : κ} (h : k≠key) (value a : α) (rest : List (κ×α)) :
    set key value ((k,a)::rest)=(k,a)::set key value rest := if_neg h

end SpiritMysql.InsertionMaps
