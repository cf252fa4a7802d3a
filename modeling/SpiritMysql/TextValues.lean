import Mathlib.Data.List.GetD
import SpiritMysql.ConvColumnValue

/-!
# Dates, times and fractions read from text

What `dataToDate()`, `dataToTime()` and `dataToNumber()` make of the texts that
the server sends.
-/

namespace SpiritMysql.TextValues

open CivilDate ColumnValues ConvColumnValue DecimalText Rounding RowReader

/-- The double that the digits of a fraction become. -/
def fractionDouble (js : Engine) (n k : ℕ) : ℚ := toDouble (k*js.pow10 (-n))

/-- The double that the digits of a fraction become, as milliseconds. -/
def fractionMillis (js : Engine) (n k : ℕ) : ℚ := toDouble (fractionDouble js n k*1000)

/-- Digits after the point: each is a step of the exponent. -/
theorem numberLoop_digits {text : List UInt8} (ht : ∀ c ∈ text,IsDigit c) {r : ℕ} (e : ℤ)
    (hr : (r+1)*10^text.length ≤ 2^53) :
    ∃ k : ℕ,readDigits r text=k ∧ numberLoop text r e (-1)=((k : ℚ),e-text.length) := by
  induction text generalizing r e with
  | nil =>
    refine ⟨r,rfl,?_⟩
    rw [List.length_nil,Nat.cast_zero,sub_zero]
    rfl
  | cons c text ih =>
    obtain ⟨d,hd,rfl⟩ := ht c List.mem_cons_self
    rw [List.length_cons,pow_succ'] at hr
    have hp : 0 < 10^text.length := by positivity
    have hle : (r*10+d+1)*10^text.length ≤ 2^53 := by
      have h := Nat.mul_le_mul_right (10^text.length) (show r*10+d+1 ≤ (r+1)*10 by omega)
      rw [Nat.mul_assoc] at h
      exact h.trans hr
    have hlt : r*10+d < 2^53 := by
      have h := Nat.le_mul_of_pos_right (r*10+d+1) hp
      omega
    obtain ⟨k,hk,hloop⟩ := @ih (fun b hb => ht b (List.mem_cons_of_mem _ hb)) (r*10+d) (e-1) hle
    refine ⟨k,?_,?_⟩
    · change readDigits (r*10+digitValue (digitChar d)) text=k
      rw [digitValue_digitChar hd,←hk]
      push_cast
      rfl
    · have hrange := (IsDigit.range ⟨d,hd,rfl⟩ : 48 ≤ (digitChar d).toNat ∧ (digitChar d).toNat ≤ 57)
      have hdot : digitChar d≠cDot := by
        intro h
        rw [h] at hrange
        exact absurd hrange.1 (by decide)
      have hexp : ¬(digitChar d=cE ∨ digitChar d=cECap) := by
        intro h
        cases h with
        | inl h => rw [h] at hrange; exact absurd hrange.2 (by decide)
        | inr h => rw [h] at hrange; exact absurd hrange.2 (by decide)
      have hten : toDouble ((r : ℚ)*10)=((r*10 : ℕ) : ℚ) := by
        rw [←toDouble_natCast (show r*10 < 2^53 by omega)]
        push_cast
        rfl
      have hsum : toDouble (toDouble ((r : ℚ)*10)+digitValue (digitChar d))=((r*10+d : ℕ) : ℚ) := by
        rw [←toDouble_natCast hlt,hten,digitValue_digitChar hd]
        push_cast
        rfl
      unfold numberLoop
      rw [if_neg hdot,if_neg hexp,hsum,show e+ -1=e-1 from rfl,hloop,List.length_cons]
      push_cast
      rw [sub_sub,add_comm]

/-- A fraction is its digits times a power of ten, rounded. -/
theorem dataToNumber_fraction (js : Engine) {n k : ℕ} (h0 : 0 < n) (hn : n ≤ 6) (hk : k < 10^n) :
    dataToNumber js (cDot::padded n k)=fractionDouble js n k := by
  have hl := padded_length hk h0
  have hp : 10^n ≤ 10^6 := Nat.pow_le_pow_right (by decide) hn
  obtain ⟨k',hk',hloop⟩ := @numberLoop_digits _ (padded_digits n k) 0 0 (by
    rw [hl]
    omega)
  have hkk : k'=k := by
    have h := readDigits_padded n k
    rw [Nat.cast_zero] at hk'
    rw [hk'] at h
    exact_mod_cast h
  rw [hkk,hl,Nat.cast_zero,zero_sub] at hloop
  have hstart : numberLoop (cDot::padded n k) 0 0 0=((k : ℚ),-(n : ℤ)) := by
    rw [←hloop,numberLoop,if_pos rfl]
  have hneg : isNegative (cDot::padded n k)=false := rfl
  unfold dataToNumber withSign unsigned
  rw [hneg]
  dsimp only
  rw [if_neg Bool.false_ne_true,if_neg Bool.false_ne_true,hstart]
  dsimp only
  rw [if_pos (by omega)]
  rfl

/-- Three roundings change a fraction by less than a microsecond. -/
theorem fractionMillis_near (js : Engine) {n k : ℕ} (hn : n ≤ 6) (hk : k < 10^n) :
    |fractionMillis js n k-(k : ℚ)/10^n*1000| < 1/1000 := by
  have hpos : (0 : ℚ) < 10^n := by positivity
  have hx : (0 : ℚ) ≤ 1/10^n := by positivity
  have hlt : (k : ℚ)/10^n < 1 := by
    rw [div_lt_one hpos]
    exact_mod_cast hk
  have hx0 : (0 : ℚ) ≤ (k : ℚ)/10^n := by positivity
  have h₁ : |js.pow10 (-n)-1/10^n| ≤ 1/10^n*(1/2^51) := by
    have h := js.pow10_near n hn
    rwa [div_eq_mul_one_div _ ((2 : ℚ)^51)] at h
  have h₂ := toDouble_mul_error (k : ℚ) (Nat.cast_nonneg k) hx h₁
  rw [mul_comm (js.pow10 (-n)),one_div_mul_eq_div] at h₂
  have h₃ := toDouble_mul_error 1000 (by norm_num) hx0 h₂
  refine lt_of_le_of_lt h₃ ?_
  calc (k : ℚ)/10^n*1000*(1/2^51+(1+1/2^51)/2^53+(1+(1/2^51+(1+1/2^51)/2^53))/2^53)
      ≤ 1*1000*(1/2^51+(1+1/2^51)/2^53+(1+(1/2^51+(1+1/2^51)/2^53))/2^53) := by gcongr
    _ < 1/1000 := by norm_num

/-- Fractions are not negative. -/
theorem fractionMillis_nonneg (js : Engine) {n : ℕ} (hn : n ≤ 6) (k : ℕ) :
    0 ≤ fractionMillis js n k := by
  have hp : 0 ≤ js.pow10 (-n) := by
    have h := (abs_le.mp (js.pow10_near n hn)).1
    have hx : (0 : ℚ) ≤ 1/10^n := by positivity
    have hd : (1 : ℚ)/10^n/2^51 ≤ 1/10^n := div_le_self hx (by norm_num)
    linarith
  have hk : (0 : ℚ) ≤ k*js.pow10 (-n) := mul_nonneg (Nat.cast_nonneg k) hp
  exact toDouble_nonneg (mul_nonneg (toDouble_nonneg hk) (by norm_num))

/-- The fraction of a number of microseconds with some decimals. -/
theorem fraction_eq {n micro : ℕ} (hn : n ≤ 6) (hd : 10^(6-n) ∣ micro) :
    ((micro/10^(6-n) : ℕ) : ℚ)/10^n*1000=(micro : ℚ)/1000 := by
  obtain ⟨k,rfl⟩ := hd
  have hp : 0 < 10^(6-n) := by positivity
  have hs : (10 : ℚ)^(6-n)*10^n=1000*1000 := by
    rw [←pow_add,Nat.sub_add_cancel hn]
    norm_num
  have hn0 : (10 : ℚ)^n≠0 := by positivity
  rw [Nat.mul_div_cancel_left _ hp]
  push_cast
  field_simp
  calc (k : ℚ)*1000^2=k*(1000*1000) := by ring
    _ = k*(10^(6-n)*10^n) := by rw [hs]
    _ = k*10^n*10^(6-n) := by ring

/-- The whole milliseconds that the double has: one is missing if the double of a
whole number of milliseconds is below it. -/
theorem trunc_fractionMillis (js : Engine) {n micro : ℕ} (hn : n ≤ 6) (hd : 10^(6-n) ∣ micro)
    (hm : micro < 10^6) :
    trunc (fractionMillis js n (micro/10^(6-n)))=(micro/1000 : ℕ)↔
      (1000 ∣ micro → ((micro/1000 : ℕ) : ℚ) ≤ fractionMillis js n (micro/10^(6-n))) := by
  have hk : micro/10^(6-n) < 10^n := by
    rw [Nat.div_lt_iff_lt_mul (by positivity),←pow_add,Nat.add_sub_cancel' hn]
    exact hm
  have hnear := fractionMillis_near js hn hk
  rw [fraction_eq hn hd,abs_lt] at hnear
  have hsplit : (micro : ℚ)/1000=(micro/1000 : ℕ)+((micro%1000 : ℕ) : ℚ)/1000 := by
    have h := Nat.div_add_mod micro 1000
    have hc : (micro : ℚ)=1000*(micro/1000 : ℕ)+(micro%1000 : ℕ) := by exact_mod_cast h.symm
    nth_rewrite 1 [hc]
    ring
  have hr : ((micro%1000 : ℕ) : ℚ) ≤ 999 := by
    have h := Nat.mod_lt micro (show 1000 > 0 by decide)
    exact_mod_cast Nat.le_of_lt_succ h
  rw [hsplit] at hnear
  set q : ℕ := micro/1000 with hq
  have hiff : trunc (fractionMillis js n (micro/10^(6-n)))=(q : ℤ)↔
      (q : ℚ) ≤ fractionMillis js n (micro/10^(6-n)) := by
    have hup : fractionMillis js n (micro/10^(6-n)) < q+1 := by linarith
    unfold trunc
    rw [if_pos (fractionMillis_nonneg js hn _),Int.floor_eq_iff]
    push_cast
    exact ⟨fun h => h.1,fun h => ⟨h,hup⟩⟩
  rw [hiff]
  refine ⟨fun h _ => h,fun h => ?_⟩
  by_cases hdvd : 1000 ∣ micro
  · exact h hdvd
  · have h1 : (1 : ℚ) ≤ ((micro%1000 : ℕ) : ℚ) := by
      have : 0 < micro%1000 := Nat.pos_of_ne_zero (fun hz => hdvd (Nat.dvd_of_mod_eq_zero hz))
      exact_mod_cast this
    linarith

/-- A separator is not a digit. -/
theorem not_mem_padded {c : UInt8} (w n : ℕ) (hc : c.toNat < 48 ∨ 57 < c.toNat) : c∉padded w n :=
  not_mem_of_digits (padded_digits w n) hc

/-- Seconds without a fraction. -/
theorem secondFrom_whole (js : Engine) (pre : List UInt8) (s : ℕ) :
    secondFrom js (pre++padded 2 s) pre.length=((s : ℤ),0) := by
  unfold secondFrom
  rw [indexOf_none pre (not_mem_padded 2 s (by decide)),subarrayFrom_append,dataToInt_padded]
  rfl

/-- Seconds with a fraction. -/
theorem secondFrom_fraction (js : Engine) (pre : List UInt8) (s : ℕ) (frac : List UInt8) :
    secondFrom js (pre++(padded 2 s++cDot::frac)) pre.length=
      ((s : ℤ),dataToNumber js (cDot::frac)) := by
  obtain ⟨hi,hs,-,-⟩ := field_append pre frac (not_mem_padded 2 s (show cDot.toNat < 48 ∨ _ by decide))
  have hf : subarrayFrom (pre++(padded 2 s++cDot::frac)) (pre.length+(padded 2 s).length : ℕ)=
      cDot::frac := by
    rw [←List.append_assoc,←List.length_append]
    exact subarrayFrom_append _ _
  unfold secondFrom
  rw [hi]
  dsimp only
  rw [if_neg (by omega),hs,hf,dataToInt_padded]

/-- Hours and minutes, and what follows the second colon. -/
theorem timeFrom_spec {js : Engine} {rest : List UInt8} {r : ℤ×ℚ}
    (hr : ∀ pre : List UInt8,secondFrom js (pre++rest) pre.length=r) (pre : List UInt8) (h m : ℕ) :
    timeFrom js (pre++(padded 2 h++cColon::(padded 2 m++cColon::rest))) pre.length=
      ((h : ℤ),(m : ℤ),r) := by
  have hc : ∀ n,cColon∉padded 2 n := fun n => not_mem_padded 2 n (by decide)
  obtain ⟨hi,hs,he,hl⟩ := field_append pre (padded 2 m++cColon::rest) (hc h)
  obtain ⟨hi',hs',he',hl'⟩ := field_append (pre++padded 2 h++[cColon]) rest (hc m)
  unfold timeFrom
  rw [hi]
  dsimp only
  rw [hs,hl,he,hi',if_neg (by omega),hs',hl',he',hr,dataToInt_padded,dataToInt_padded]

/-- A day without a time. -/
theorem dayFrom_day (js : Engine) (pre : List UInt8) (d : ℕ) :
    dayFrom js (pre++padded 2 d) pre.length=((d : ℤ),0,0,0,0) := by
  unfold dayFrom
  rw [indexOf_none pre (not_mem_padded 2 d (by decide)),subarrayFrom_append,dataToInt_padded]
  rfl

/-- A day and a time. -/
theorem dayFrom_time {js : Engine} {rest : List UInt8} {r : ℤ×ℤ×ℤ×ℚ}
    (hr : ∀ pre : List UInt8,timeFrom js (pre++rest) pre.length=r) (pre : List UInt8) (d : ℕ) :
    dayFrom js (pre++(padded 2 d++cSpace::rest)) pre.length=((d : ℤ),r) := by
  obtain ⟨hi,hs,he,hl⟩ := field_append pre rest (not_mem_padded 2 d (show cSpace.toNat < 48 ∨ _ by decide))
  unfold dayFrom
  rw [hi]
  dsimp only
  rw [if_neg (by omega),hs,hl,he,hr,dataToInt_padded]

/-- The year that the two deserializers give to the `Date` constructor. -/
theorem fullYear_natCast (year : ℕ) : fullYear year=dateYear year := by
  unfold fullYear dateYear
  by_cases h : year < 100
  · rw [if_pos (by omega),if_pos h]
  · rw [if_neg (by omega),if_neg h]

/-- Year and month, and what follows the second hyphen. -/
theorem dataToDate_spec {js : Engine} {rest : List UInt8} {day hour minute second : ℤ} {frac : ℚ}
    (hr : ∀ pre : List UInt8,dayFrom js (pre++rest) pre.length=(day,hour,minute,second,frac))
    (o : RowOptions) {year : ℕ} (hy : year < 10000) (month : ℕ) :
    dataToDate js o (padded 4 year++cMinus::(padded 2 month++cMinus::rest))=
      makeInstant o.systemZone (dateYear year) (month-1) day hour minute second
        (trunc (toDouble (frac*1000)))-o.timezoneOffset := by
  have hc : ∀ w n,cMinus∉padded w n := fun w n => not_mem_padded w n (by decide)
  have hy4 : (padded 4 year).length=4 := padded_length (by omega) (by decide)
  obtain ⟨-,hs,he,hl⟩ := field_append [] (padded 2 month++cMinus::rest) (hc 4 year)
  obtain ⟨hi',hs',he',hl'⟩ := field_append ([]++padded 4 year++[cMinus]) rest (hc 2 month)
  have hi : indexOf ([]++(padded 4 year++cMinus::(padded 2 month++cMinus::rest))) cMinus 1=
      (([] : List UInt8).length+(padded 4 year).length : ℕ) := by
    cases hp : padded 4 year with
    | nil => rw [hp] at hy4; cases hy4
    | cons c cs =>
      have hcs : cMinus∉cs := fun hm => hc 4 year (by rw [hp]; exact List.mem_cons_of_mem _ hm)
      have h := indexOf_append [c] (padded 2 month++cMinus::rest) hcs
      rw [List.length_singleton,Nat.cast_one] at h
      rw [List.length_nil,Nat.zero_add,List.length_cons,Nat.add_comm]
      exact h
  rw [←List.nil_append (padded 4 year++cMinus::(padded 2 month++cMinus::rest))]
  unfold dataToDate
  rw [hi]
  dsimp only
  rw [List.length_nil,Nat.cast_zero] at hs
  rw [List.length_nil,hs]
  rw [List.length_nil] at hl
  rw [hl,he,hi',hs',hl',he',hr,dataToInt_padded,dataToInt_padded,fullYear_natCast]

/-- Zeros at the end of a fraction do not count. -/
theorem foldl_dropZeros (digits : List UInt8) :
    (digits.dropWhile (· =cZero)).foldl (fun (frac : ℚ) c => (frac+digitValue c)/10) 0=
      digits.foldl (fun (frac : ℚ) c => (frac+digitValue c)/10) 0 := by
  induction digits with
  | nil => rfl
  | cons c digits ih =>
    rw [List.dropWhile_cons]
    split
    · next hc =>
      have hz : ((0 : ℚ)+digitValue c)/10=0 := by
        rw [of_decide_eq_true hc,show digitValue cZero=0 from rfl]
        norm_num
      rw [List.foldl_cons,hz,ih]
    · rfl

/-- The fraction that digits write. -/
theorem timeFraction_digits (digits : List UInt8) :
    timeFraction digits=(readDigits 0 digits : ℚ)/10^digits.length := by
  have h : ∀ (start : ℤ) (text : List UInt8),
      (readDigits start text : ℚ)=start*10^text.length+(readDigits 0 text : ℚ) := by
    intro start text
    induction text generalizing start with
    | nil => exact (by simp [readDigits])
    | cons c text ih =>
      change (readDigits (start*10+digitValue c) text : ℚ)=
        start*10^(text.length+1)+(readDigits (0*10+digitValue c) text : ℚ)
      rw [ih (start*10+digitValue c),ih (0*10+digitValue c)]
      push_cast
      ring
  unfold timeFraction
  rw [foldl_dropZeros,List.foldl_reverse]
  induction digits with
  | nil => exact (by simp [readDigits])
  | cons c digits ih =>
    change (List.foldr (fun c (frac : ℚ) => (frac+digitValue c)/10) 0 digits+digitValue c)/10=
      (readDigits (0*10+digitValue c) digits : ℚ)/10^(digits.length+1)
    rw [ih,h (0*10+digitValue c)]
    have hp : (10 : ℚ)^digits.length≠0 := by positivity
    push_cast
    field_simp
    ring

/-- What follows the seconds of a time. -/
def fractionOf (rest : List UInt8) : ℚ :=
  if rest.getD 0 0=cDot then timeFraction (rest.drop 1) else 0

/-- The bytes after a prefix, by their index. -/
theorem getD_after (pre tail : List UInt8) (k : ℕ) :
    (pre++tail).getD (pre.length+k) 0=tail.getD k 0 := by
  rw [List.getD_append_right _ _ _ _ (by omega),Nat.add_sub_cancel_left]

/-- Minutes and seconds after the first colon. -/
theorem timeFromColon_spec (pre : List UInt8) (hours : ℤ) {m s : ℕ} (hm : m < 100) (hs : s < 100)
    (rest : List UInt8) :
    timeFromColon (pre++cColon::(padded 2 m++cColon::(padded 2 s++rest))) pre.length hours=
      (hours*3600+m*60+s : ℤ)+fractionOf rest := by
  have hget := getD_after pre
  have hdrop : ∀ (tail : List UInt8) (k : ℕ),(pre++tail).drop (pre.length+k)=tail.drop k := by
    intro tail k
    rw [←List.drop_drop,List.drop_left]
  unfold timeFromColon digitAt
  rw [hget,hget,hget,hget,hget,hdrop,padded_two hm,padded_two hs]
  change (if rest.getD 0 0=cDot then
      (((digitValue (digitChar (s/10))*10+digitValue (digitChar (s%10))+
        (digitValue (digitChar (m/10))*10+digitValue (digitChar (m%10))+hours*60)*60 : ℤ) : ℚ)+
          timeFraction (rest.drop 1))
    else ((digitValue (digitChar (s/10))*10+digitValue (digitChar (s%10))+
        (digitValue (digitChar (m/10))*10+digitValue (digitChar (m%10))+hours*60)*60 : ℤ) : ℚ))=_
  rw [digitValue_digitChar (by omega),digitValue_digitChar (by omega),
    digitValue_digitChar (by omega),digitValue_digitChar (by omega)]
  have hsum : ((s/10 : ℕ) : ℤ)*10+(s%10 : ℕ)+(((m/10 : ℕ) : ℤ)*10+(m%10 : ℕ)+hours*60)*60=
      hours*3600+m*60+s := by omega
  rw [hsum]
  unfold fractionOf
  split
  · rfl
  · rw [add_zero]

/-- The first byte of a number is not a sign. -/
theorem isNegative_digit {d : ℕ} (hd : d < 10) (rest : List UInt8) :
    isNegative (digitChar d::rest)=false := by
  have hr := digitChar_toNat hd
  unfold isNegative
  refine decide_eq_false (fun h => ?_)
  rw [Option.some.inj h] at hr
  exact absurd hr (by change 45≠48+d; omega)

/-- A digit is not a colon. -/
theorem digitChar_ne_colon {d : ℕ} (hd : d < 10) : digitChar d≠cColon := by
  intro h
  have hr := digitChar_toNat hd
  rw [h] at hr
  exact absurd hr (by change 58≠48+d; omega)

/-- Hours of two or three digits, and what follows the first colon. -/
theorem hours_spec (pre : List UInt8) {h : ℕ} (hh : h < 1000) {tail : List UInt8} {r : ℚ}
    (hr : ∀ pre : List UInt8,timeFromColon (pre++cColon::tail) pre.length h=r) :
    (if (pre++(padded 2 h++cColon::tail)).getD (pre.length+2) 0≠cColon then
        timeFromColon (pre++(padded 2 h++cColon::tail)) (pre.length+3)
          ((digitAt (pre++(padded 2 h++cColon::tail)) pre.length*10+
            digitAt (pre++(padded 2 h++cColon::tail)) (pre.length+1))*10+
            digitAt (pre++(padded 2 h++cColon::tail)) (pre.length+2))
      else timeFromColon (pre++(padded 2 h++cColon::tail)) (pre.length+2)
        (digitAt (pre++(padded 2 h++cColon::tail)) pre.length*10+
          digitAt (pre++(padded 2 h++cColon::tail)) (pre.length+1)))=r := by
  have hget := getD_after pre (padded 2 h++cColon::tail)
  have h0 := hget 0
  have hrest := hr (pre++padded 2 h)
  rw [List.append_assoc,List.length_append] at hrest
  rw [Nat.add_zero] at h0
  unfold digitAt
  rw [h0,hget,hget]
  by_cases h2 : h < 100
  · have hsum : ((h/10 : ℕ) : ℤ)*10+(h%10 : ℕ)=h := by omega
    rw [padded_two h2] at hrest ⊢
    have hc : ¬(([digitChar (h/10),digitChar (h%10)]++cColon::tail).getD 2 0≠cColon) :=
      fun hn => hn rfl
    rw [if_neg hc]
    change timeFromColon _ _ (digitValue (digitChar (h/10))*10+digitValue (digitChar (h%10)))=r
    rw [digitValue_digitChar (by omega),digitValue_digitChar (by omega),hsum]
    exact hrest
  · have hsum : (((h/10/10 : ℕ) : ℤ)*10+(h/10%10 : ℕ))*10+(h%10 : ℕ)=h := by omega
    rw [padded_three (by omega) hh] at hrest ⊢
    have hc : ([digitChar (h/10/10),digitChar (h/10%10),digitChar (h%10)]++cColon::tail).getD 2 0≠
        cColon := digitChar_ne_colon (show h%10 < 10 by omega)
    rw [if_pos hc]
    change timeFromColon _ _ ((digitValue (digitChar (h/10/10))*10+
      digitValue (digitChar (h/10%10)))*10+digitValue (digitChar (h%10)))=r
    rw [digitValue_digitChar (by omega),digitValue_digitChar (by omega),
      digitValue_digitChar (by omega),hsum]
    exact hrest

/-- A time is read back, with two or three digits of hours and any sign. -/
theorem dataToTime_spec (negative : Bool) {h m s : ℕ} (hh : h < 1000) (hm : m < 100) (hs : s < 100)
    (rest : List UInt8) :
    dataToTime ((if negative=true then [cMinus] else [])++
        (padded 2 h++cColon::(padded 2 m++cColon::(padded 2 s++rest))))=
      if negative=true then -((h*3600+m*60+s : ℕ)+fractionOf rest)
      else (h*3600+m*60+s : ℕ)+fractionOf rest := by
  have hcolon : ∀ pre : List UInt8,
      timeFromColon (pre++cColon::(padded 2 m++cColon::(padded 2 s++rest))) pre.length h=
        (h*3600+m*60+s : ℕ)+fractionOf rest := by
    intro pre
    rw [timeFromColon_spec pre h hm hs rest]
    push_cast
    rfl
  cases negative with
  | true =>
    have hspec := hours_spec [cMinus] hh hcolon
    unfold dataToTime withSign
    rw [if_pos rfl,if_pos rfl,show isNegative ([cMinus]++(padded 2 h++
      cColon::(padded 2 m++cColon::(padded 2 s++rest))))=true from rfl]
    rw [if_pos rfl]
    exact congrArg Neg.neg hspec
  | false =>
    have hspec := hours_spec [] hh hcolon
    have hneg : isNegative (padded 2 h++cColon::(padded 2 m++cColon::(padded 2 s++rest)))=false := by
      by_cases h2 : h < 100
      · rw [padded_two h2]
        exact isNegative_digit (by omega) _
      · rw [padded_three (by omega) hh]
        exact isNegative_digit (by omega) _
    rw [if_neg Bool.false_ne_true,if_neg Bool.false_ne_true,List.nil_append]
    unfold dataToTime withSign
    rw [hneg,if_neg Bool.false_ne_true]
    exact hspec

end SpiritMysql.TextValues
