import Mathlib.Data.Nat.Digits.Lemmas
import SpiritMysql.XaTask

/-!
# Ids of distributed transactions

`XaIdGen` makes an id from the time in seconds, from a number within the second
and from the process, all printed with the digits and the small letters. It
remembers the last second only.
-/

namespace SpiritMysql.XaIds

open XaTask

/-- The fields of `XaIdGen`. -/
structure XaIdGen where
  /-- `#lastTime`. -/
  lastTime : ℕ := 0
  /-- `#lastEnum`. -/
  lastEnum : ℕ := 0
  /-- `#pid`. -/
  pid : ℕ
deriving DecidableEq, Repr

/-- A digit of base 36. -/
def digitChar (d : ℕ) : Char := if d < 10 then Char.ofNat (48+d) else Char.ofNat (87+d)

/-- `toString(36)` of a whole number. -/
def toString36 (n : ℕ) : List Char := if n=0 then ['0'] else (Nat.digits 36 n).reverse.map digitChar

/-- The text of an id. -/
def idText (time enum pid : ℕ) : List Char :=
  toString36 time++ '.'::(toString36 enum++ '@'::(toString36 pid++[ '-']))

/-- The generator after the clock was read. -/
def XaIdGen.step (g : XaIdGen) (curTime : ℕ) : XaIdGen :=
  if curTime=g.lastTime then {g with lastEnum := g.lastEnum+1}
  else {g with lastTime := curTime,lastEnum := 0}

/-- `next()`: the id, and the generator after it. -/
def XaIdGen.next (g : XaIdGen) (curTime : ℕ) : String×XaIdGen :=
  let curEnum := if curTime=g.lastTime then g.lastEnum+1 else 0
  (String.ofList (idText curTime curEnum g.pid),g.step curTime)

/-- The ids of successive calls, with what the clock shows at each. -/
def XaIdGen.ids : XaIdGen → List ℕ → List String
  | _,[] => []
  | g,curTime::times => (g.next curTime).1::(g.next curTime).2.ids times

/-- Once the clock shows another second, it does not come back to the one before. -/
def NoReturn : List ℕ → Prop
  | a::b::times => (a≠b → a ∉ times) ∧ NoReturn (b::times)
  | _ => True

/-- A digit is of the class, and has its value. -/
theorem digitChar_spec : ∀ d < 36,isBase36 (digitChar d)=true ∧ digit36 (digitChar d)=d := by decide

/-- The separators are not of the class. -/
theorem separators : isBase36 '.'=false ∧ isBase36 '@'=false ∧ isBase36 '-'=false := by decide

/-- The digits of a number are of the class. -/
theorem toString36_base36 (n : ℕ) : ∀ c ∈ toString36 n,isBase36 c=true := by
  intro c hc
  unfold toString36 at hc
  split_ifs at hc
  · rw [List.mem_singleton.mp hc]
    decide
  · obtain ⟨d,hd,rfl⟩ := List.mem_map.mp hc
    exact (digitChar_spec d (Nat.digits_lt_base (by decide) (List.mem_reverse.mp hd))).1

/-- Parsing digits, the last one first. -/
theorem parse36_digits {ds : List ℕ} (h : ∀ d ∈ ds,d < 36) :
    parse36 (ds.reverse.map digitChar)=Nat.ofDigits 36 ds := by
  induction ds with
  | nil => rfl
  | cons d ds ih =>
    have hd := (digitChar_spec d (h d List.mem_cons_self)).2
    have hi := ih fun e he => h e (List.mem_cons_of_mem d he)
    unfold parse36 at hi ⊢
    rw [List.reverse_cons,List.map_append,List.foldl_append,hi,Nat.ofDigits_cons]
    simp only [List.map_cons,List.map_nil,List.foldl_cons,List.foldl_nil,hd]
    omega

/-- A number that was printed is parsed. -/
theorem parse36_toString36 (n : ℕ) : parse36 (toString36 n)=n := by
  unfold toString36
  split_ifs with h
  · rw [h]
    decide
  · rw [parse36_digits (fun d hd => Nat.digits_lt_base (by decide) hd),Nat.ofDigits_digits]

/-- A number is printed with a digit at least. -/
theorem toString36_pos (n : ℕ) : 1 ≤ (toString36 n).length := by
  unfold toString36
  split_ifs with h
  · decide
  · rw [List.length_map,List.length_reverse]
    exact List.length_pos_iff.mpr (Nat.digits_ne_nil_iff_ne_zero.mpr h)

/-- A number of five digits. -/
theorem toString36_length {n : ℕ} (h : 36^4 ≤ n) : 5 ≤ (toString36 n).length := by
  unfold toString36
  rw [if_neg (by omega),List.length_map,List.length_reverse]
  exact (Nat.lt_digits_length_iff (by decide) n).mpr h

/-- A field of an id. -/
theorem field_digits {separator : Char} {atLeast : ℕ} {digits : List Char}
    (hs : isBase36 separator=false) (hd : ∀ c ∈ digits,isBase36 c=true) (hl : atLeast ≤ digits.length)
    (rest : List Char) :
    field separator atLeast (digits++separator::rest)=some (digits,rest) := by
  have hdrop : (digits++separator::rest).dropWhile isBase36=separator::rest := by
    rw [List.dropWhile_append,List.dropWhile_eq_nil_iff.mpr hd,List.isEmpty_nil,if_pos rfl,
      List.dropWhile_cons,if_neg (by rw [hs]; decide)]
  have htake : (digits++separator::rest).takeWhile isBase36=digits := by
    have hself : digits.takeWhile isBase36=digits := List.takeWhile_eq_self_iff.mpr hd
    rw [List.takeWhile_append,if_pos (by rw [hself]),List.takeWhile_cons,if_neg (by rw [hs]; decide),
      List.append_nil]
  simp only [field,hdrop,htake,true_and,if_pos hl]

/-- An id with a connection id is decoded to what it was made of. -/
theorem decode_idText {time : ℕ} (h : 36^4 ≤ time) (enum pid connectionId : ℕ) :
    decode (String.ofList (idText time enum pid)++toString connectionId)=
      some ⟨time,pid,connectionId⟩ := by
  have hdigits : ∀ c ∈ Nat.toDigits 10 connectionId,c.isDigit=true :=
    fun c hc => Nat.isDigit_of_mem_toDigits (by decide) (by decide) hc
  have hlist : (String.ofList (idText time enum pid)++toString connectionId).toList=
      toString36 time++ '.'::(toString36 enum++ '@'::(toString36 pid++ '-'::Nat.toDigits 10 connectionId)) := by
    rw [String.toList_append,String.toList_ofList,Nat.toString_eq_repr,Nat.toList_repr,idText]
    simp only [List.append_assoc,List.cons_append,List.nil_append]
  have htime := field_digits separators.1 (toString36_base36 time) (toString36_length h)
    (toString36 enum++ '@'::(toString36 pid++ '-'::Nat.toDigits 10 connectionId))
  have henum := field_digits separators.2.1 (toString36_base36 enum) (toString36_pos enum)
    (toString36 pid++ '-'::Nat.toDigits 10 connectionId)
  have hpid := field_digits separators.2.2 (toString36_base36 pid) (toString36_pos pid)
    (Nat.toDigits 10 connectionId)
  have hall : (Nat.toDigits 10 connectionId).all Char.isDigit=true := List.all_eq_true.mpr hdigits
  have hne : Nat.toDigits 10 connectionId≠[] := Nat.toDigits_ne_nil
  simp only [decode,hlist,htime,henum,hpid,Option.bind_eq_bind,Option.bind_some,hall,ne_eq,hne,
    not_false_eq_true,and_self,if_true,parse36_toString36,Nat.ofDigitChars_ten_toDigits]

/-- Ids of the same process differ when they were made from different numbers. -/
theorem idText_injective {time time' enum enum' pid : ℕ}
    (h : idText time enum pid=idText time' enum' pid) : time=time' ∧ enum=enum' := by
  unfold idText at h
  have htime := field_digits separators.1 (toString36_base36 time) (toString36_pos time)
    (toString36 enum++ '@'::(toString36 pid++[ '-']))
  rw [h,field_digits separators.1 (toString36_base36 time') (toString36_pos time')] at htime
  obtain ⟨htext,hrest⟩ := Prod.mk.inj (Option.some.inj htime)
  have henum := field_digits separators.2.1 (toString36_base36 enum) (toString36_pos enum)
    (toString36 pid++[ '-'])
  rw [← hrest,field_digits separators.2.1 (toString36_base36 enum') (toString36_pos enum')] at henum
  have htext' := (Prod.mk.inj (Option.some.inj henum)).1
  constructor
  · rw [← parse36_toString36 time,← htext,parse36_toString36]
  · rw [← parse36_toString36 enum,← htext',parse36_toString36]

/-- The numbers of an id: the time, and the one within the second. -/
def XaIdGen.pairs : XaIdGen → List ℕ → List (ℕ×ℕ)
  | _,[] => []
  | g,curTime::times => (curTime,(g.step curTime).lastEnum)::(g.step curTime).pairs times

/-- The last second that is remembered. -/
theorem step_lastTime (g : XaIdGen) (curTime : ℕ) : (g.step curTime).lastTime=curTime := by
  unfold XaIdGen.step
  split_ifs with h
  · exact h.symm
  · rfl

/-- The process stays. -/
theorem step_pid (g : XaIdGen) (curTime : ℕ) : (g.step curTime).pid=g.pid := by
  unfold XaIdGen.step
  split_ifs
  · rfl
  · rfl

/-- In the second that is remembered, numbers follow each other. -/
theorem step_same {g : XaIdGen} {curTime : ℕ} (h : curTime=g.lastTime) :
    (g.step curTime).lastEnum=g.lastEnum+1 := by
  rw [XaIdGen.step,if_pos h]

/-- In another second, numbers start again. -/
theorem step_other {g : XaIdGen} {curTime : ℕ} (h : curTime≠g.lastTime) :
    (g.step curTime).lastEnum=0 := by
  rw [XaIdGen.step,if_neg h]

/-- Ids are the texts of their numbers. -/
theorem ids_eq (g : XaIdGen) (times : List ℕ) :
    g.ids times=(g.pairs times).map (fun p => String.ofList (idText p.1 p.2 g.pid)) := by
  induction times generalizing g with
  | nil => rfl
  | cons curTime times ih =>
    have hnumber : (if curTime=g.lastTime then g.lastEnum+1 else 0)=(g.step curTime).lastEnum := by
      split_ifs with h
      · rw [step_same h]
      · rw [step_other h]
    simp only [XaIdGen.ids,XaIdGen.next,XaIdGen.pairs,List.map_cons,hnumber,ih,step_pid]

/-- Ids differ as their numbers do. -/
theorem ids_nodup (g : XaIdGen) (times : List ℕ) :
    (g.ids times).Nodup ↔ (g.pairs times).Nodup := by
  rw [ids_eq]
  refine List.nodup_map_iff (fun p q h => ?_)
  obtain ⟨htime,henum⟩ := idText_injective (String.ofList_injective h)
  exact Prod.ext htime henum

/-- The time of an id is what the clock showed. -/
theorem pairs_time {g : XaIdGen} {times : List ℕ} {p : ℕ×ℕ} (h : p ∈ g.pairs times) :
    p.1 ∈ times := by
  induction times generalizing g with
  | nil => cases h
  | cons curTime times ih =>
    rcases List.mem_cons.mp h with h | h
    · rw [h]
      exact List.mem_cons_self
    · exact List.mem_cons_of_mem curTime (ih h)

/-- The time of the id at a place. -/
theorem pairs_getElem {g : XaIdGen} {times : List ℕ} {i : ℕ} {p : ℕ×ℕ}
    (h : (g.pairs times)[i]?=some p) : times[i]?=some p.1 := by
  induction times generalizing g i with
  | nil => cases h
  | cons curTime times ih =>
    cases i with
    | zero =>
      cases h
      rfl
    | succ i => exact ih h

/-- Later ids of the second that is remembered have greater numbers. -/
theorem pairs_greater {g : XaIdGen} {times : List ℕ} (hr : NoReturn (g.lastTime::times)) {p : ℕ×ℕ}
    (hp : p ∈ g.pairs times) (ht : p.1=g.lastTime) : g.lastEnum < p.2 := by
  induction times generalizing g with
  | nil => cases hp
  | cons curTime times ih =>
    by_cases hsame : curTime=g.lastTime
    · rcases List.mem_cons.mp hp with hp | hp
      · rw [hp,step_same hsame]
        exact Nat.lt_succ_self g.lastEnum
      · have hnext : NoReturn ((g.step curTime).lastTime::times) := by
          rw [step_lastTime]
          exact hr.2
        have hlt := ih hnext hp (by rw [step_lastTime,ht,hsame])
        rw [step_same hsame] at hlt
        omega
    · rcases List.mem_cons.mp hp with hp | hp
      · rw [hp] at ht
        exact absurd ht hsame
      · have hm := pairs_time hp
        rw [ht] at hm
        exact absurd hm (hr.1 (Ne.symm hsame))

/-- While the clock does not return, no numbers repeat. -/
theorem pairs_nodup {g : XaIdGen} {times : List ℕ} (hr : NoReturn (g.lastTime::times)) :
    (g.pairs times).Nodup := by
  induction times generalizing g with
  | nil => exact List.nodup_nil
  | cons curTime times ih =>
    have hnext : NoReturn ((g.step curTime).lastTime::times) := by
      rw [step_lastTime]
      exact hr.2
    refine List.nodup_cons.mpr ⟨fun hm => ?_,ih hnext⟩
    have hlt := pairs_greater hnext hm (step_lastTime g curTime).symm
    exact absurd hlt (Nat.lt_irrefl _)

/-- When the clock shows a second that is not remembered, its first number is given. -/
theorem pairs_return {g : XaIdGen} {times : List ℕ} {time : ℕ} (h : time ∈ times)
    (hne : g.lastTime≠time) : (time,0) ∈ g.pairs times := by
  induction times generalizing g with
  | nil => cases h
  | cons curTime times ih =>
    by_cases hsame : curTime=time
    · have hfirst : (g.step curTime).lastEnum=0 := step_other (by rw [hsame]; exact Ne.symm hne)
      unfold XaIdGen.pairs
      rw [hfirst,hsame]
      exact List.mem_cons_self
    · have hrest : time ∈ times := by
        rcases List.mem_cons.mp h with h | h
        · exact absurd h.symm hsame
        · exact h
      exact List.mem_cons_of_mem _ (ih hrest (by rw [step_lastTime]; exact hsame))

/-- When no numbers repeat, and the first one of the second that is remembered was
given, the clock does not return. -/
theorem noReturn_of_nodup {g : XaIdGen} {times : List ℕ} {before : List (ℕ×ℕ)}
    (hfirst : (g.lastTime,0) ∈ before) (h : (before++g.pairs times).Nodup) :
    NoReturn (g.lastTime::times) := by
  induction times generalizing g before with
  | nil => trivial
  | cons curTime times ih =>
    constructor
    · intro hne hm
      have hagain : (g.lastTime,0) ∈ g.pairs (curTime::times) :=
        List.mem_cons_of_mem _ (pairs_return hm (by rw [step_lastTime]; exact Ne.symm hne))
      exact (List.nodup_append.mp h).2.2 _ hfirst _ hagain rfl
    · have hgiven : ((g.step curTime).lastTime,0) ∈ before++[(curTime,(g.step curTime).lastEnum)] := by
        rw [step_lastTime]
        by_cases hsame : curTime=g.lastTime
        · rw [hsame]
          exact List.mem_append_left _ hfirst
        · rw [step_other hsame]
          exact List.mem_append_right before (List.mem_singleton.mpr rfl)
      have hrest := ih hgiven (by simpa only [XaIdGen.pairs,List.append_assoc,List.singleton_append] using h)
      rw [step_lastTime] at hrest
      exact hrest

/-- A new generator. -/
theorem pairs_nodup_iff {pid : ℕ} {times : List ℕ} (h : 0 ∉ times) :
    (XaIdGen.pairs {pid := pid} times).Nodup ↔ NoReturn times := by
  cases times with
  | nil => exact iff_of_true List.nodup_nil trivial
  | cons time times =>
    have hne : time≠0 := fun hz => h (List.mem_cons.mpr (Or.inl hz.symm))
    have hrest : 0 ∉ times := fun hz => h (List.mem_cons_of_mem time hz)
    constructor
    · intro hn
      have hfirst : XaIdGen.step {pid := pid} time={lastTime := time,lastEnum := 0,pid := pid} := by
        rw [XaIdGen.step,if_neg hne]
      have hgiven : ((XaIdGen.step {pid := pid} time).lastTime,0) ∈ [(time,0)] := by
        rw [hfirst]
        exact List.mem_singleton.mpr rfl
      have hlater := noReturn_of_nodup hgiven (by
        simpa only [XaIdGen.pairs,hfirst,List.singleton_append] using hn)
      rw [step_lastTime] at hlater
      exact hlater
    · intro hr
      exact pairs_nodup ⟨fun _ => hrest,hr⟩

end SpiritMysql.XaIds
