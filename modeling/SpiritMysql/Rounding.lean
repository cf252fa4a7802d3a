import Mathlib.Algebra.Order.Field.Power
import Mathlib.Algebra.Order.Floor.Ring
import Mathlib.Data.Nat.Log
import Mathlib.Data.Rat.Floor
import Mathlib.Tactic.FieldSimp
import Mathlib.Tactic.Linarith
import Mathlib.Tactic.Positivity

/-!
# Rounding to double precision

Rational numbers rounded to 53 binary digits, half to even, with a bound of the
relative error. The range of exponents has no ends here.
-/

namespace SpiritMysql.Rounding

/-- The largest exponent of a power of two that is not above a number. -/
def exponent (q : ℚ) : ℤ :=
  let e : ℤ := (Nat.log2 q.num.natAbs : ℤ)-Nat.log2 q.den
  if (2 : ℚ)^e ≤ |q| then e else e-1

/-- The nearest integer, and the even one of two. -/
def roundEven (q : ℚ) : ℤ :=
  if q-⌊q⌋ < 1/2 ∨ q-⌊q⌋=1/2 ∧ ⌊q⌋%2=0 then ⌊q⌋ else ⌊q⌋+1

/-- The distance of neighbours among the doubles of the size of a number. -/
def ulp (q : ℚ) : ℚ := 2^(exponent q-52)

/-- The nearest double. -/
def toDouble (q : ℚ) : ℚ := if q=0 then 0 else roundEven (q/ulp q)*ulp q

/-- The number that stands for a double in memory, for the doubles that are
neither subnormal nor infinite. -/
def doubleBits (q : ℚ) : ℕ :=
  if q=0 then 0
  else (if q < 0 then 2^63 else 0)+(exponent q+1023).toNat*2^52+(⌊|q|/ulp q⌋.toNat-2^52)

/-- The part of a number before the point. -/
def trunc (q : ℚ) : ℤ := if 0 ≤ q then ⌊q⌋ else ⌈q⌉

theorem ulp_pos (q : ℚ) : 0 < ulp q := by
  unfold ulp
  positivity

/-- Half a unit is the most that rounding to an integer changes. -/
theorem roundEven_error (q : ℚ) : |(roundEven q : ℚ)-q| ≤ 1/2 := by
  have hl := Int.floor_le q
  have hu := Int.lt_floor_add_one q
  unfold roundEven
  split
  · next h =>
    have hr : q-⌊q⌋ ≤ 1/2 := h.elim le_of_lt (fun h => h.1.le)
    rw [abs_le]
    constructor <;> linarith
  · next h =>
    have hr : 1/2 ≤ q-⌊q⌋ := not_lt.mp (fun hn => h (Or.inl hn))
    push_cast
    rw [abs_le]
    constructor <;> linarith

/-- An integer is its own nearest integer. -/
theorem roundEven_intCast (n : ℤ) : roundEven n=n := by
  unfold roundEven
  rw [Int.floor_intCast,sub_self,if_pos (Or.inl (by norm_num))]

/-- A natural number lies between powers of two. -/
theorem log2_bounds {n : ℕ} (h : n≠0) :
    (2 : ℚ)^(Nat.log2 n : ℤ) ≤ n ∧ (n : ℚ) < 2^((Nat.log2 n : ℤ)+1) := by
  have hl : 2^Nat.log2 n ≤ n := Nat.log2_self_le h
  have hu : n < 2^(Nat.log2 n+1) := Nat.lt_log2_self
  constructor
  · rw [zpow_natCast]
    exact_mod_cast hl
  · have hc : ((Nat.log2 n : ℤ)+1)=((Nat.log2 n+1 : ℕ) : ℤ) := by push_cast; rfl
    rw [hc,zpow_natCast]
    exact_mod_cast hu

/-- The power of two with the exponent of a number is not above it. -/
theorem exponent_le {q : ℚ} (h : q≠0) : (2 : ℚ)^(exponent q) ≤ |q| := by
  have hnum := log2_bounds (Int.natAbs_ne_zero.mpr (Rat.num_ne_zero.mpr h))
  have hden := log2_bounds q.den_nz
  have hq : |q|=(q.num.natAbs : ℚ)/q.den := by
    rw [Nat.cast_natAbs,Int.cast_abs]
    nth_rewrite 1 [←Rat.num_div_den q]
    rw [abs_div,Nat.abs_cast]
  have hd : (0 : ℚ) < q.den := by exact_mod_cast q.den_pos
  unfold exponent
  dsimp only
  split
  · next he => exact he
  · have hs : (Nat.log2 q.num.natAbs : ℤ)-Nat.log2 q.den-1=
        Nat.log2 q.num.natAbs-((Nat.log2 q.den : ℤ)+1) := by ring
    rw [hq,hs,zpow_sub₀ (by norm_num),le_div_iff₀ hd]
    calc (2 : ℚ)^(Nat.log2 q.num.natAbs : ℤ)/2^((Nat.log2 q.den : ℤ)+1)*q.den
        ≤ (2 : ℚ)^(Nat.log2 q.num.natAbs : ℤ)/2^((Nat.log2 q.den : ℤ)+1)*
          2^((Nat.log2 q.den : ℤ)+1) := by
          have hp : (0 : ℚ) ≤ 2^(Nat.log2 q.num.natAbs : ℤ)/2^((Nat.log2 q.den : ℤ)+1) := by positivity
          exact mul_le_mul_of_nonneg_left hden.2.le hp
      _ = (2 : ℚ)^(Nat.log2 q.num.natAbs : ℤ) := div_mul_cancel₀ _ (by positivity)
      _ ≤ q.num.natAbs := hnum.1

/-- Rounding to a double changes a number by at most a part in `2^53`. -/
theorem toDouble_error (q : ℚ) : |toDouble q-q| ≤ |q|/2^53 := by
  unfold toDouble
  split
  · next h => rw [h,sub_zero,abs_zero,zero_div]
  · next h =>
    have hu := ulp_pos q
    have hr := roundEven_error (q/ulp q)
    have hs : (roundEven (q/ulp q) : ℚ)*ulp q-q=(roundEven (q/ulp q)-q/ulp q)*ulp q := by
      rw [sub_mul,div_mul_cancel₀ _ hu.ne']
    have he : ulp q=2^(exponent q)/2^52 := by
      unfold ulp
      rw [zpow_sub₀ (by norm_num)]
      norm_num
    have hq := exponent_le h
    rw [hs,abs_mul,abs_of_pos hu]
    calc |(roundEven (q/ulp q) : ℚ)-q/ulp q| * ulp q ≤ 1/2*ulp q := by gcongr
      _ = 2^(exponent q)/2^53 := by rw [he]; ring
      _ ≤ |q|/2^53 := by gcongr

/-- Rounding keeps the sign. -/
theorem toDouble_nonneg {q : ℚ} (h : 0 ≤ q) : 0 ≤ toDouble q := by
  have he := (abs_le.mp (toDouble_error q)).1
  rw [abs_of_nonneg h] at he
  have hq : q/2^53 ≤ q := div_le_self h (by norm_num)
  linarith

@[simp] theorem toDouble_zero : toDouble 0=0 := if_pos rfl

/-- Integers of 53 binary digits are doubles. -/
theorem toDouble_natCast {n : ℕ} (h : n < 2^53) : toDouble n=n := by
  by_cases hz : n=0
  · rw [hz,Nat.cast_zero,toDouble_zero]
  have hq : (n : ℚ)≠0 := Nat.cast_ne_zero.mpr hz
  have he : exponent (n : ℚ) ≤ 52 := by
    have hl : Nat.log2 n < 53 := (Nat.log2_lt hz).mpr h
    unfold exponent
    dsimp only
    rw [Rat.num_natCast,Rat.den_natCast,Int.natAbs_natCast]
    have h1 : Nat.log2 1=0 := by decide
    rw [h1]
    split <;> omega
  have hu : (n : ℚ)/ulp n=((n*2^(52-exponent (n : ℚ)).toNat : ℕ) : ℤ) := by
    have hk : (52-exponent (n : ℚ)) = ((52-exponent (n : ℚ)).toNat : ℤ) :=
      (Int.toNat_of_nonneg (by omega)).symm
    have hi : (ulp (n : ℚ))⁻¹=2^(52-exponent (n : ℚ)) := by
      unfold ulp
      rw [←zpow_neg,neg_sub]
    rw [div_eq_mul_inv,hi,hk,zpow_natCast]
    push_cast
    rfl
  unfold toDouble
  rw [if_neg hq]
  nth_rewrite 1 [hu]
  rw [roundEven_intCast,←hu,div_mul_cancel₀ _ (ulp_pos _).ne']

/-- A sum of roundings: what the factors miss, and what the product misses. -/
theorem toDouble_mul_error {x y ε : ℚ} (c : ℚ) (hc : 0 ≤ c) (hx : 0 ≤ x)
    (h : |y-x| ≤ x*ε) : |toDouble (y*c)-x*c| ≤ x*c*(ε+(1+ε)/2^53) := by
  have hy : |y| ≤ x*(1+ε) := by
    have ht := abs_add_le (y-x) x
    rw [sub_add_cancel,abs_of_nonneg hx] at ht
    linarith
  have h₁ := toDouble_error (y*c)
  have h₂ : |y*c-x*c| ≤ x*ε*c := by
    rw [←sub_mul,abs_mul,abs_of_nonneg hc]
    gcongr
  have h₃ : |y*c|/2^53 ≤ x*(1+ε)*c/2^53 := by
    rw [abs_mul,abs_of_nonneg hc]
    gcongr
  have h₄ := abs_add_le (toDouble (y*c)-y*c) (y*c-x*c)
  rw [sub_add_sub_cancel] at h₄
  calc |toDouble (y*c)-x*c| ≤ x*(1+ε)*c/2^53+x*ε*c := by linarith
    _ = x*c*(ε+(1+ε)/2^53) := by ring

end SpiritMysql.Rounding
