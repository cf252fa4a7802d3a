import Mathlib.Algebra.BigOperators.Group.List.Basic
import Mathlib.Algebra.GroupWithZero.Nat
import Mathlib.Data.List.Perm.Basic

/-!
# Lists with one element changed

The elements of a list after one of them was changed, replaced or added, and
what becomes of a total over the list.
-/

namespace SpiritMysql.ListUpdates

/-- The element of a changed list. -/
theorem modify_get {α : Type} {l : List α} {i j : ℕ} {f : α → α} {b : α}
    (h : (l.modify i f)[j]?=some b) :
    (i≠j ∧ l[j]?=some b) ∨ ∃ a,i=j ∧ l[j]?=some a ∧ b=f a := by
  rw [List.getElem?_modify] at h
  by_cases hi : i=j
  · right
    cases ha : l[j]? with
    | none =>
      rw [ha] at h
      exact absurd h (by simp)
    | some a =>
      rw [ha,hi] at h
      simp only [if_true,Option.map_eq_map,Option.map_some,Option.some.injEq] at h
      exact ⟨a,hi,rfl,h.symm⟩
  · left
    refine ⟨hi,?_⟩
    cases ha : l[j]? with
    | none =>
      rw [ha] at h
      exact absurd h (by simp)
    | some a =>
      rw [ha] at h
      simp only [hi,if_false,Option.map_eq_map,Option.map_some] at h
      exact h

/-- The elements of a list with one of them replaced. -/
theorem getElem_set {α : Type} {l : List α} {i j : ℕ} {a b : α}
    (h : (l.set i a)[j]?=some b) : (i=j ∧ b=a) ∨ (i≠j ∧ l[j]?=some b) := by
  rw [List.getElem?_set] at h
  split_ifs at h with hi hl
  · exact Or.inl ⟨hi,(Option.some.inj h).symm⟩
  · exact Or.inr ⟨hi,h⟩

/-- The elements of a list with one more at its end. -/
theorem getElem_concat {α : Type} {l : List α} {j : ℕ} {a b : α}
    (h : (l++[a])[j]?=some b) : l[j]?=some b ∨ (j=l.length ∧ b=a) := by
  rcases Nat.lt_trichotomy j l.length with hlt | rfl | hgt
  · rw [List.getElem?_append_left hlt] at h
    exact Or.inl h
  · rw [List.getElem?_concat_length] at h
    exact Or.inr ⟨rfl,(Option.some.inj h).symm⟩
  · rw [List.getElem?_eq_none (by rw [List.length_append]; exact hgt)] at h
    cases h

/-- Changing one element changes a total by what is added and what is taken
away. -/
theorem total_modify {α M : Type} [AddCommMonoid M] (g : α → M) {l : List α} {i : ℕ} {a : α}
    (h : l[i]?=some a) (f : α → α) :
    ((l.modify i f).map g).sum+g a=(l.map g).sum+g (f a) := by
  induction l generalizing i with
  | nil => cases h
  | cons b l ih =>
    cases i with
    | zero =>
      cases h
      simp only [List.modify_zero_cons,List.map_cons,List.sum_cons]
      ac_rfl
    | succ i =>
      have hi := ih (i:=i) h
      simp only [List.modify_succ_cons,List.map_cons,List.sum_cons,add_assoc,hi]

/-- Replacing one element changes a total the same way. -/
theorem total_set {α M : Type} [AddCommMonoid M] (g : α → M) {l : List α} {i : ℕ} {a : α}
    (h : l[i]?=some a) (b : α) : ((l.set i b).map g).sum+g a=(l.map g).sum+g b := by
  have hs : l.set i b=l.modify i fun _ => b := by
    apply List.ext_getElem?
    intro j
    rw [List.getElem?_set',List.getElem?_modify]
    by_cases hj : i=j
    · subst hj
      simp only [if_true,h,Option.map_eq_map,Option.map_some,Function.const_apply]
    · rw [if_neg hj]
      cases l[j]? with
      | none => rfl
      | some c => simp only [hj,if_false,Option.map_eq_map,Option.map_some]
  rw [hs]
  exact total_modify g h _

/-- An element with a default, after one was replaced. -/
theorem getD_set {α : Type} {l : List α} {i : ℕ} (h : i < l.length) (a d : α) (j : ℕ) :
    (l.set i a).getD j d=if j=i then a else l.getD j d := by
  rw [List.getD_eq_getElem?_getD,List.getD_eq_getElem?_getD,List.getElem?_set]
  by_cases hj : j=i
  · rw [if_pos hj.symm,if_pos hj,if_pos (by omega),Option.getD_some]
  · rw [if_neg (Ne.symm hj),if_neg hj]

/-- An element is a part of a total. -/
theorem le_total {α : Type} (g : α → ℕ) {l : List α} {i : ℕ} {a : α} (h : l[i]?=some a) :
    g a ≤ (l.map g).sum := by
  induction l generalizing i with
  | nil => cases h
  | cons b l ih =>
    rw [List.map_cons,List.sum_cons]
    cases i with
    | zero =>
      cases h
      exact Nat.le_add_right _ _
    | succ i =>
      have hrest : g a ≤ (l.map g).sum := @ih i h
      omega

/-- Two elements are parts of a total. -/
theorem two_le_total {α : Type} (g : α → ℕ) {l : List α} {i j : ℕ} {a b : α} (hi : l[i]?=some a)
    (hj : l[j]?=some b) (hne : i≠j) : g a+g b ≤ (l.map g).sum := by
  induction l generalizing i j with
  | nil => cases hi
  | cons c l ih =>
    rw [List.map_cons,List.sum_cons]
    cases i with
    | zero =>
      cases j with
      | zero => exact absurd rfl hne
      | succ j =>
        cases hi
        have hrest : g b ≤ (l.map g).sum := @le_total α g l j b hj
        omega
    | succ i =>
      cases j with
      | zero =>
        cases hj
        have hrest : g a ≤ (l.map g).sum := @le_total α g l i a hi
        omega
      | succ j =>
        have hrest := @ih i j hi hj (fun he => hne (congrArg Nat.succ he))
        omega

end SpiritMysql.ListUpdates
