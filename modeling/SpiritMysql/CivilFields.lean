import Mathlib.Tactic.Ring
import SpiritMysql.CivilDate

/-!
# The fields of an instant

Year, month, day and time of an instant in a zone of a constant offset. They are
within their bounds, and the instant is made of them again.
-/

namespace SpiritMysql.CivilDate

/-- The year that a day is in. -/
def yearFromDay (d : ℤ) : ℤ :=
  let y := 1970+d*400/146097
  if d < dayFromYear y then y-1 else if dayFromYear (y+1) ≤ d then y+1 else y

/-- The last month up to one that does not begin after a day of the year. -/
def monthUpTo (isLeap : Bool) (n : ℤ) : ℕ → ℕ
  | 0 => 0
  | m+1 => if daysBeforeMonth isLeap (m+1) ≤ n then m+1 else monthUpTo isLeap n m

/-- The fields of a local date and time. -/
structure LocalFields where
  /-- `getFullYear()`. -/
  year : ℤ
  /-- `getMonth()`: months are counted from zero. -/
  month : ℕ
  /-- `getDate()`. -/
  day : ℕ
  /-- `getHours()`. -/
  hour : ℕ
  /-- `getMinutes()`. -/
  minute : ℕ
  /-- `getSeconds()`. -/
  second : ℕ
  /-- `getMilliseconds()`. -/
  ms : ℕ
deriving DecidableEq, Repr

/-- The fields of an instant in a zone that is `zone` milliseconds ahead of UTC. -/
def localFields (zone t : ℤ) : LocalFields :=
  let d := (t+zone)/dayMs
  let time := (t+zone)%dayMs
  let year := yearFromDay d
  let n := d-dayFromYear year
  let month := monthUpTo (leap year) n 11
  { year
    month
    day := (n-daysBeforeMonth (leap year) month+1).toNat
    hour := (time/3600000).toNat
    minute := (time/60000%60).toNat
    second := (time/1000%60).toNat
    ms := (time%1000).toNat }

/-- Common years have 365 days and leap years have one more. -/
theorem dayFromYear_succ (y : ℤ) :
    dayFromYear (y+1)=dayFromYear y+365+if leap y=true then 1 else 0 := by
  unfold dayFromYear leap
  simp only [decide_eq_true_eq]
  split <;> omega

/-- A day is in its year. -/
theorem yearFromDay_bounds (d : ℤ) :
    dayFromYear (yearFromDay d) ≤ d ∧ d < dayFromYear (yearFromDay d+1) := by
  unfold yearFromDay
  dsimp only
  split
  · next h =>
    refine ⟨?_,by rwa [sub_add_cancel]⟩
    unfold dayFromYear at h ⊢
    omega
  · next h =>
    split
    · next h' =>
      refine ⟨h',?_⟩
      unfold dayFromYear at h' ⊢
      omega
    · next h' => exact ⟨by omega,by omega⟩

/-- The first month begins with the year. -/
theorem daysBeforeMonth_zero (isLeap : Bool) : daysBeforeMonth isLeap 0=0 := by
  cases isLeap <;> rfl

/-- After the last month the year ends. -/
theorem daysBeforeMonth_twelve (isLeap : Bool) :
    daysBeforeMonth isLeap 12=365+if isLeap=true then 1 else 0 := by
  cases isLeap <;> rfl

/-- A month has at most 31 days. -/
theorem daysBeforeMonth_succ (isLeap : Bool) {m : ℕ} (h : m < 12) :
    daysBeforeMonth isLeap (m+1) ≤ daysBeforeMonth isLeap m+31 := by
  revert isLeap m
  decide

/-- A day is not before its month, and it is before the next one. -/
theorem monthUpTo_bounds (isLeap : Bool) {n : ℤ} (hn : 0 ≤ n) (k : ℕ) :
    monthUpTo isLeap n k ≤ k ∧ daysBeforeMonth isLeap (monthUpTo isLeap n k) ≤ n ∧
      (n < daysBeforeMonth isLeap (k+1) → n < daysBeforeMonth isLeap (monthUpTo isLeap n k+1)) := by
  induction k with
  | zero =>
    rw [monthUpTo,daysBeforeMonth_zero]
    exact ⟨Nat.le_refl _,hn,fun h => h⟩
  | succ k ih =>
    rw [monthUpTo]
    split
    · next h => exact ⟨Nat.le_refl _,h,fun h => h⟩
    · next h => exact ⟨ih.1.trans (Nat.le_succ _),ih.2.1,fun _ => ih.2.2 (by omega)⟩

variable (zone t : ℤ)

/-- The month and the day of an instant. -/
theorem localFields_day :
    (localFields zone t).month < 12 ∧ 1 ≤ (localFields zone t).day ∧
      (localFields zone t).day ≤ 31 ∧
      makeDay (localFields zone t).year (localFields zone t).month (localFields zone t).day=
        (t+zone)/dayMs := by
  obtain ⟨hl,hu⟩ := yearFromDay_bounds ((t+zone)/dayMs)
  have hy : (localFields zone t).year=yearFromDay ((t+zone)/dayMs) := rfl
  have hm : (localFields zone t).month=monthUpTo (leap (localFields zone t).year)
    ((t+zone)/dayMs-dayFromYear (localFields zone t).year) 11 := rfl
  have hd : (localFields zone t).day=((t+zone)/dayMs-dayFromYear (localFields zone t).year-
    daysBeforeMonth (leap (localFields zone t).year) (localFields zone t).month+1).toNat := rfl
  rw [←hy] at hl hu
  generalize (localFields zone t).year=y at hl hu hm hd ⊢
  generalize (t+zone)/dayMs=d at hl hu hm hd ⊢
  rw [dayFromYear_succ] at hu
  obtain ⟨h₁,h₂,h₃⟩ := monthUpTo_bounds (leap y) (show 0 ≤ d-dayFromYear y by omega) 11
  rw [←hm] at h₁ h₂ h₃
  have h₄ := h₃ (by rw [daysBeforeMonth_twelve]; omega)
  have h₅ := daysBeforeMonth_succ (leap y) (show (localFields zone t).month < 12 by omega)
  refine ⟨by omega,by omega,by omega,?_⟩
  have hdiv : ((localFields zone t).month : ℤ)/12=0 := by omega
  have hmod : ((localFields zone t).month : ℤ)%12=(localFields zone t).month := by omega
  unfold makeDay
  dsimp only
  rw [hdiv,hmod,add_zero,Int.toNat_natCast,hd]
  omega

/-- The time of an instant. -/
theorem localFields_time :
    (localFields zone t).hour < 24 ∧ (localFields zone t).minute < 60 ∧
      (localFields zone t).second < 60 ∧ (localFields zone t).ms < 1000 ∧
      makeTime (localFields zone t).hour (localFields zone t).minute (localFields zone t).second
        (localFields zone t).ms=(t+zone)%dayMs := by
  unfold localFields makeTime dayMs
  dsimp only
  omega

/-- An instant is made of its fields. -/
theorem makeInstant_localFields :
    makeInstant zone (localFields zone t).year (localFields zone t).month (localFields zone t).day
      (localFields zone t).hour (localFields zone t).minute (localFields zone t).second
      (localFields zone t).ms=t := by
  obtain ⟨-,-,-,hday⟩ := localFields_day zone t
  obtain ⟨-,-,-,-,htime⟩ := localFields_time zone t
  unfold makeInstant
  rw [hday,htime]
  unfold dayMs
  omega

end SpiritMysql.CivilDate
