import Mathlib.Algebra.Order.Group.Int
import Mathlib.Algebra.Order.Group.Abs
import SpiritMysql.CivilDate

/-!
# The offset of a time zone from the system

`getTimezoneMsecOffsetFromSystem()` compares the day of month, the hour and the
minute of an instant in two zones. Months have 28 days or more, so one day
forth or back is recognised from the day of month alone. Two days are not.
-/

namespace SpiritMysql.TimezoneOffset

open CivilDate

/-- The parts of a local time that are read. -/
structure Parts where
  /-- The day of month. -/
  day : ℕ
  /-- The hour. -/
  hour : ℕ
  /-- The minute. -/
  minute : ℕ
deriving DecidableEq, Repr

/-- `getTimezoneMsecOffsetFromSystem()` of the parts in the zone of the system and
in the reference zone. -/
def getTimezoneMsecOffsetFromSystem (sysDate refParts : Parts) : ℤ :=
  let ref : ℤ := refParts.minute+refParts.hour*60
  let sys : ℤ := sysDate.minute+sysDate.hour*60
  if refParts.day < sysDate.day then
    if refParts.day=1 ∧ 20 < sysDate.day then ((ref+24*60)-sys)*60000
    else (ref-(sys+24*60))*60000
  else if sysDate.day < refParts.day then
    if sysDate.day=1 ∧ 20 < refParts.day then (ref-(sys+24*60))*60000
    else ((ref+24*60)-sys)*60000
  else (ref-sys)*60000

/-- The number of the first day of a month, the months counted from the year zero. -/
def monthStart (n : ℤ) : ℤ := makeDay 0 n 1

/-- A day is so many days after the beginning of its month. -/
def IsDayOfMonth (day : ℤ) (d : ℕ) : Prop :=
  ∃ n,monthStart n ≤ day ∧ day < monthStart (n+1) ∧ (d : ℤ)=day-monthStart n+1

/-- The local minute of an instant, in milliseconds, in a zone that is some minutes ahead of UTC. -/
def localMinute (instant offset : ℤ) : ℤ := instant/60000+offset

/-- The local day of an instant. -/
def localDay (instant offset : ℤ) : ℤ := localMinute instant offset/1440

/-- The parts of an instant in a zone. -/
structure PartsOf (instant offset : ℤ) (p : Parts) : Prop where
  /-- The day of month. -/
  day : IsDayOfMonth (localDay instant offset) p.day
  /-- The hour. -/
  hour : (p.hour : ℤ)=localMinute instant offset%1440/60
  /-- The minute. -/
  minute : (p.minute : ℤ)=localMinute instant offset%60

/-- A year has one day more than 365 exactly when it is a leap year. -/
theorem dayFromYear_succ (y : ℤ) :
    dayFromYear (y+1)-dayFromYear y=if leap y=true then 366 else 365 := by
  simp only [dayFromYear,leap,decide_eq_true_eq]
  split_ifs with h
  · omega
  · omega

/-- The first day of a month of a year. -/
theorem monthStart_eq (y : ℤ) {m : ℕ} (hm : m < 12) :
    monthStart (12*y+m)=dayFromYear y+daysBeforeMonth (leap y) m := by
  have hy : 0+(12*y+m)/12=y := by omega
  have hmod : ((12*y+m)%12).toNat=m := by omega
  simp only [monthStart,makeDay]
  rw [hy,hmod]
  omega

/-- The months but the last one have 28 to 31 days. -/
theorem daysBeforeMonth_succ : ∀ isLeap : Bool,∀ m < 11,
    28 ≤ daysBeforeMonth isLeap (m+1)-daysBeforeMonth isLeap m ∧
      daysBeforeMonth isLeap (m+1)-daysBeforeMonth isLeap m ≤ 31 := by decide

/-- A month has 28 to 31 days. -/
theorem monthStart_succ (n : ℤ) :
    28 ≤ monthStart (n+1)-monthStart n ∧ monthStart (n+1)-monthStart n ≤ 31 := by
  obtain ⟨y,m,hm,rfl⟩ : ∃ (y : ℤ) (m : ℕ),m < 12 ∧ n=12*y+m :=
    ⟨n/12,(n%12).toNat,by omega,by omega⟩
  rw [monthStart_eq y hm]
  by_cases hlast : m=11
  · have hnext : 12*y+(m : ℤ)+1=12*(y+1)+(0 : ℕ) := by omega
    have hyear := dayFromYear_succ y
    have h0 : ∀ isLeap,daysBeforeMonth isLeap 0=0 := by decide
    rw [hnext,monthStart_eq (y+1) (by decide),hlast,h0]
    cases hl : leap y with
    | true =>
      have h11 : daysBeforeMonth true 11=335 := by decide
      rw [hl,if_pos rfl] at hyear
      omega
    | false =>
      have h11 : daysBeforeMonth false 11=334 := by decide
      rw [hl,if_neg Bool.false_ne_true] at hyear
      omega
  · have hnext : 12*y+(m : ℤ)+1=12*y+((m+1 : ℕ) : ℤ) := by omega
    have hdays := daysBeforeMonth_succ (leap y) m (by omega)
    rw [hnext,monthStart_eq y (by omega)]
    omega

/-- Later months begin later. -/
theorem monthStart_mono {a b : ℤ} (h : a ≤ b) : monthStart a ≤ monthStart b := by
  induction b,h using Int.le_induction with
  | base => exact Int.le_refl _
  | succ b hb ih =>
    have hs := monthStart_succ b
    omega

/-- A day is in one month. -/
theorem month_unique {day m n : ℤ} (hm : monthStart m ≤ day) (hm' : day < monthStart (m+1))
    (hn : monthStart n ≤ day) (hn' : day < monthStart (n+1)) : m=n := by
  by_contra hne
  rcases Int.lt_or_gt_of_ne hne with h | h
  · have hmono := monthStart_mono (Int.add_one_le_of_lt h)
    omega
  · have hmono := monthStart_mono (Int.add_one_le_of_lt h)
    omega

/-- The day of month of the next day. -/
theorem nextDay {day : ℤ} {a b : ℕ} (ha : IsDayOfMonth day a) (hb : IsDayOfMonth (day+1) b) :
    b=a+1 ∨ (b=1 ∧ 28 ≤ a) := by
  obtain ⟨m,hm,hm',ham⟩ := ha
  obtain ⟨n,hn,hn',hbn⟩ := hb
  by_cases hlast : day+1 < monthStart (m+1)
  · have he := month_unique hn hn' (by omega) hlast
    subst he
    omega
  · have hs := monthStart_succ m
    have hs' := monthStart_succ (m+1)
    have he := month_unique hn hn' (by omega : monthStart (m+1) ≤ day+1) (by omega)
    subst he
    omega

/-- Every day has a day of month. -/
theorem exists_dayOfMonth (day : ℤ) : ∃ d,IsDayOfMonth day d := by
  suffices h : ∃ n,monthStart n ≤ day ∧ day < monthStart (n+1) by
    obtain ⟨n,hn,hn'⟩ := h
    exact ⟨(day-monthStart n+1).toNat,n,hn,hn',by omega⟩
  induction day using Int.induction_on with
  | zero => exact ⟨12*1970,by decide,by decide⟩
  | succ day ih =>
    obtain ⟨n,hn,hn'⟩ := ih
    have hs := monthStart_succ (n+1)
    by_cases h : (day : ℤ)+1 < monthStart (n+1)
    · exact ⟨n,by omega,h⟩
    · exact ⟨n+1,by omega,by omega⟩
  | pred day ih =>
    obtain ⟨n,hn,hn'⟩ := ih
    have hs := monthStart_succ (n-1)
    rw [Int.sub_add_cancel] at hs
    by_cases h : monthStart n ≤ -(day : ℤ)-1
    · exact ⟨n,h,by omega⟩
    · exact ⟨n-1,by omega,by rw [Int.sub_add_cancel]; omega⟩

/-- A day of month is at least 1. -/
theorem dayOfMonth_pos {day : ℤ} {d : ℕ} (h : IsDayOfMonth day d) : 1 ≤ d := by
  obtain ⟨n,hn,-,hd⟩ := h
  omega

/-- A day has one day of month. -/
theorem dayOfMonth_unique {day : ℤ} {a b : ℕ} (ha : IsDayOfMonth day a) (hb : IsDayOfMonth day b) :
    a=b := by
  obtain ⟨m,hm,hm',ham⟩ := ha
  obtain ⟨n,hn,hn',hbn⟩ := hb
  have he := month_unique hm hm' hn hn'
  subst he
  omega

/-- How many days the reference zone is taken to be ahead. -/
def dayStep (sysDay refDay : ℕ) : ℤ :=
  if refDay < sysDay then if refDay=1 ∧ 20 < sysDay then 1 else -1
  else if sysDay < refDay then if sysDay=1 ∧ 20 < refDay then -1 else 1
  else 0

/-- The result by the days it takes the reference zone to be ahead. -/
theorem offset_eq (sysDate refParts : Parts) : getTimezoneMsecOffsetFromSystem sysDate refParts=
    (((refParts.minute : ℤ)+refParts.hour*60)-(sysDate.minute+sysDate.hour*60)+
      1440*dayStep sysDate.day refParts.day)*60000 := by
  simp only [getTimezoneMsecOffsetFromSystem,dayStep]
  split_ifs <;> omega

/-- One day at most is recognised. -/
theorem dayStep_bound (sysDay refDay : ℕ) : -1 ≤ dayStep sysDay refDay ∧ dayStep sysDay refDay ≤ 1 := by
  unfold dayStep
  split_ifs <;> omega

/-- One day at most is recognised rightly. -/
theorem dayStep_near {s r : ℤ} {sysDay refDay : ℕ} (hs : IsDayOfMonth s sysDay)
    (hr : IsDayOfMonth r refDay) (h : |r-s| ≤ 1) : dayStep sysDay refDay=r-s := by
  rw [abs_le] at h
  have hs1 := dayOfMonth_pos hs
  have hr1 := dayOfMonth_pos hr
  rcases (by omega : r=s ∨ r=s+1 ∨ s=r+1) with he | he | he
  · subst he
    have hd := dayOfMonth_unique hs hr
    unfold dayStep
    split_ifs <;> omega
  · subst he
    have hd := nextDay hs hr
    unfold dayStep
    split_ifs <;> omega
  · subst he
    have hd := nextDay hr hs
    unfold dayStep
    split_ifs <;> omega

/-- The offset is right exactly when the local dates are the same or follow one another. -/
theorem offset_right_iff {instant sysOffset refOffset : ℤ} {sysDate refParts : Parts}
    (hsys : PartsOf instant sysOffset sysDate) (href : PartsOf instant refOffset refParts) :
    getTimezoneMsecOffsetFromSystem sysDate refParts=60000*(refOffset-sysOffset)↔
      |localDay instant refOffset-localDay instant sysOffset| ≤ 1 := by
  obtain ⟨hsd,hsh,hsm⟩ := hsys
  obtain ⟨hrd,hrh,hrm⟩ := href
  obtain ⟨sysDay,sysHour,sysMinute⟩ := sysDate
  obtain ⟨refDay,refHour,refMinute⟩ := refParts
  obtain ⟨s,hls⟩ : ∃ s,s=localDay instant sysOffset := ⟨_,rfl⟩
  obtain ⟨r,hlr⟩ : ∃ r,r=localDay instant refOffset := ⟨_,rfl⟩
  dsimp only at hsd hsh hsm hrd hrh hrm
  rw [← hls] at hsd ⊢
  rw [← hlr] at hrd ⊢
  -- minutes of the local times
  have hmin : ((refMinute : ℤ)+refHour*60)-(sysMinute+sysHour*60)=
      (refOffset-sysOffset)-1440*(r-s) := by
    simp only [localDay,localMinute] at hls hlr hsh hsm hrh hrm
    omega
  rw [offset_eq]
  dsimp only
  rw [hmin]
  constructor
  · intro h
    rw [abs_le]
    have hstep : dayStep sysDay refDay=r-s := by omega
    have hbound := dayStep_bound sysDay refDay
    omega
  · intro h
    rw [dayStep_near hsd hrd h]
    omega

/-- Half past ten in the evening in UTC, on the last of February 2023, and the same in a zone of
one hour: the first of March is on its way. -/
theorem offset_right_february : getTimezoneMsecOffsetFromSystem ⟨28,22,30⟩ ⟨1,0,30⟩=60000*(120-0)↔
    |localDay 1677623400000 120-localDay 1677623400000 0| ≤ 1 := by
  refine offset_right_iff ⟨?_,by decide,by decide⟩ ⟨?_,by decide,by decide⟩
  · exact ⟨12*2023+1,by decide,by decide,by decide⟩
  · exact ⟨12*2023+2,by decide,by decide,by decide⟩

/-- Half past ten in the morning in UTC is the day before in one zone and the day after in another. -/
theorem offset_wrong_two_days : PartsOf 1679999400000 (-720) ⟨27,22,30⟩ ∧
    PartsOf 1679999400000 840 ⟨29,0,30⟩ ∧
    getTimezoneMsecOffsetFromSystem ⟨27,22,30⟩ ⟨29,0,30⟩≠60000*(840-(-720)) := by
  refine ⟨⟨?_,by decide,by decide⟩,⟨?_,by decide,by decide⟩,by decide⟩
  · exact ⟨12*2023+2,by decide,by decide,by decide⟩
  · exact ⟨12*2023+2,by decide,by decide,by decide⟩

end SpiritMysql.TimezoneOffset
