import Mathlib.Data.Nat.Digits.Lemmas
import Mathlib.Tactic.Common
import Mathlib.Tactic.Ring

/-!
# Decimal numbers as text

Natural numbers written with decimal digits in ASCII, and padded with zeros
to a width, with the numbers read back from them.
-/

namespace SpiritMysql.DecimalText

/-- The ASCII code of a decimal digit. -/
def digitChar (d : ℕ) : UInt8 := UInt8.ofNat (48+d)

/-- A natural number in decimal notation, most significant digit first. -/
def decimal (n : ℕ) : List UInt8 :=
  if n=0 then [digitChar 0] else ((Nat.digits 10 n).map digitChar).reverse

/-- Decimal notation with zeros in front, up to a width. -/
def padded (width n : ℕ) : List UInt8 :=
  List.replicate (width-(decimal n).length) (digitChar 0)++decimal n

/-- The value of a digit, as the difference of codes. -/
def digitValue (c : UInt8) : ℤ := (c.toNat : ℤ)-48

/-- A decimal digit. -/
def IsDigit (c : UInt8) : Prop := ∃ d < 10,c=digitChar d

/-- The number that digits write after another number. -/
def readDigits (start : ℤ) (text : List UInt8) : ℤ :=
  text.foldl (fun result c => result*10+digitValue c) start

theorem digitChar_toNat {d : ℕ} (h : d < 10) : (digitChar d).toNat=48+d := by
  unfold digitChar
  rw [UInt8.toNat_ofNat']
  omega

/-- The value of the code of a digit. -/
theorem digitValue_digitChar {d : ℕ} (h : d < 10) : digitValue (digitChar d)=d := by
  unfold digitValue
  rw [digitChar_toNat h]
  omega

/-- The codes of the digits are `48` to `57`. -/
theorem IsDigit.range {c : UInt8} (h : IsDigit c) : 48 ≤ c.toNat ∧ c.toNat ≤ 57 := by
  obtain ⟨d,hd,rfl⟩ := h
  rw [digitChar_toNat hd]
  omega

/-- The value of a digit is at most nine. -/
theorem IsDigit.value {c : UInt8} (h : IsDigit c) : 0 ≤ digitValue c ∧ digitValue c ≤ 9 := by
  have hr := h.range
  unfold digitValue
  omega

/-- A byte that is not the code of a digit is none of them. -/
theorem not_mem_of_digits {c : UInt8} {text : List UInt8} (h : ∀ b ∈ text,IsDigit b)
    (hc : c.toNat < 48 ∨ 57 < c.toNat) : c∉text := by
  intro hm
  have hr := (h c hm).range
  omega

/-- A number of one digit. -/
theorem decimal_of_lt {n : ℕ} (h : n < 10) : decimal n=[digitChar n] := by
  unfold decimal
  split
  · next hz => rw [hz]
  · next hz => rw [Nat.digits_of_lt 10 n hz h,List.map_singleton,List.reverse_singleton]

/-- The last digit of a longer number. -/
theorem decimal_of_le {n : ℕ} (h : 10 ≤ n) : decimal n=decimal (n/10)++[digitChar (n%10)] := by
  unfold decimal
  rw [if_neg (by omega),if_neg (by omega),Nat.digits_def' (by decide) (by omega),List.map_cons,
    List.reverse_cons]

/-- Digits one after another. -/
theorem readDigits_append (start : ℤ) (a b : List UInt8) :
    readDigits start (a++b)=readDigits (readDigits start a) b := List.foldl_append

/-- Decimal notation has digits only. -/
theorem decimal_digits (n : ℕ) : ∀ c ∈ decimal n,IsDigit c := by
  induction n using Nat.strong_induction_on with
  | _ n ih =>
    intro c hc
    by_cases h : n < 10
    · rw [decimal_of_lt h,List.mem_singleton] at hc
      exact ⟨n,h,hc⟩
    · rw [decimal_of_le (by omega),List.mem_append,List.mem_singleton] at hc
      cases hc with
      | inl hc => exact ih (n/10) (by omega) c hc
      | inr hc => exact ⟨n%10,by omega,hc⟩

/-- Decimal notation is read back. -/
theorem readDigits_decimal (n : ℕ) : readDigits 0 (decimal n)=n := by
  induction n using Nat.strong_induction_on with
  | _ n ih =>
    by_cases h : n < 10
    · rw [decimal_of_lt h]
      change 0*10+digitValue (digitChar n)=n
      rw [digitValue_digitChar h]
      omega
    · rw [decimal_of_le (by omega),readDigits_append,ih (n/10) (by omega)]
      change (n/10 : ℕ)*10+digitValue (digitChar (n%10))=n
      rw [digitValue_digitChar (by omega)]
      omega

/-- A number is below the power of ten with its length. -/
theorem lt_pow_decimal (n : ℕ) : n < 10^(decimal n).length := by
  induction n using Nat.strong_induction_on with
  | _ n ih =>
    by_cases h : n < 10
    · rw [decimal_of_lt h]
      exact h
    · have hi := ih (n/10) (by omega)
      rw [decimal_of_le (by omega),List.length_append,List.length_singleton,pow_succ]
      omega

/-- The length of decimal notation. -/
theorem decimal_length_le {n w : ℕ} (h : n < 10^w) (hw : 0 < w) : (decimal n).length ≤ w := by
  induction w generalizing n with
  | zero => omega
  | succ w ih =>
    by_cases hn : n < 10
    · rw [decimal_of_lt hn,List.length_singleton]
      omega
    · have hw' : 0 < w := by
        by_contra hz
        rw [Nat.eq_zero_of_not_pos hz] at h
        omega
      rw [pow_succ] at h
      have hi := @ih (n/10) (by omega) hw'
      rw [decimal_of_le (by omega),List.length_append,List.length_singleton]
      omega

/-- Decimal notation is not empty. -/
theorem decimal_length_pos (n : ℕ) : 0 < (decimal n).length := by
  by_cases h : n < 10
  · rw [decimal_of_lt h]
    exact Nat.one_pos
  · rw [decimal_of_le (by omega),List.length_append,List.length_singleton]
    omega

/-- A number that needs no more is padded to the width. -/
theorem padded_length {w n : ℕ} (h : n < 10^w) (hw : 0 < w) : (padded w n).length=w := by
  have hl := decimal_length_le h hw
  unfold padded
  rw [List.length_append,List.length_replicate]
  omega

/-- The length of a padded number. -/
theorem padded_length_eq (w n : ℕ) : (padded w n).length=max w (decimal n).length := by
  unfold padded
  rw [List.length_append,List.length_replicate]
  omega

/-- Padded numbers have digits only. -/
theorem padded_digits (w n : ℕ) : ∀ c ∈ padded w n,IsDigit c := by
  intro c hc
  cases List.mem_append.mp hc with
  | inl h => exact ⟨0,by omega,(List.mem_replicate.mp h).2⟩
  | inr h => exact decimal_digits n c h

/-- Padded numbers are read back. -/
theorem readDigits_padded (w n : ℕ) : readDigits 0 (padded w n)=n := by
  have hz : ∀ k,readDigits 0 (List.replicate k (digitChar 0))=0 := by
    intro k
    induction k with
    | zero => rfl
    | succ k ih => exact ih
  unfold padded
  rw [readDigits_append,hz,readDigits_decimal]

/-- Two digits. -/
theorem padded_two {n : ℕ} (h : n < 100) :
    padded 2 n=[digitChar (n/10),digitChar (n%10)] := by
  unfold padded
  by_cases hn : n < 10
  · rw [decimal_of_lt hn,Nat.div_eq_of_lt hn,Nat.mod_eq_of_lt hn]
    rfl
  · rw [decimal_of_le (by omega),decimal_of_lt (by omega)]
    rfl

/-- Three digits where two were asked for. -/
theorem padded_three {n : ℕ} (hl : 100 ≤ n) (h : n < 1000) :
    padded 2 n=[digitChar (n/10/10),digitChar (n/10%10),digitChar (n%10)] := by
  unfold padded
  rw [decimal_of_le (by omega),decimal_of_le (by omega),decimal_of_lt (by omega)]
  rfl

end SpiritMysql.DecimalText
