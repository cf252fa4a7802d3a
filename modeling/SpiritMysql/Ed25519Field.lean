import Mathlib.NumberTheory.LucasPrimality
import Mathlib.Tactic.NormNum.Prime
import SpiritMysql.Ed25519

/-!
# The field of Ed25519

The modulus is prime, by a chain of Lucas tests. Integers stand for elements of the
field, and the modular functions of `ed25519.ts` compute in it.
-/

namespace SpiritMysql.Ed25519

section Powers

/-- A remainder is the same element. -/
theorem cast_tmod (n : ℕ) (a : ℤ) : ((a.tmod n : ℤ) : ZMod n)=a := by
  have h : (a : ZMod n)=((a.tdiv n*n+a.tmod n : ℤ) : ZMod n) := by
    rw [Int.tdiv_mul_add_tmod]
  rw [h]
  push_cast
  rw [ZMod.natCast_self,mul_zero,zero_add]

/-- The loop multiplies by the power. -/
theorem modPowLoop_cast (n : ℕ) (result b e : ℤ) :
    ((modPowLoop n result b e : ℤ) : ZMod n)=result*(b : ZMod n)^e.toNat := by
  induction result, b, e using modPowLoop.induct n with
  | case1 result b e he ih =>
    simp only [dite_eq_ite] at ih
    have hsq : (((b*b).tmod n : ℤ) : ZMod n)=(b : ZMod n)^2 := by
      rw [cast_tmod]
      push_cast
      ring
    rw [modPowLoop,if_pos he,ih,hsq,← pow_mul]
    by_cases hodd : e%2=1
    · have hbits : e.toNat=2*(e/2).toNat+1 := by omega
      rw [if_pos hodd,cast_tmod,hbits,pow_succ]
      push_cast
      ring
    · have hbits : e.toNat=2*(e/2).toNat := by omega
      rw [if_neg hodd,hbits]
  | case2 result b e he =>
    have hz : e.toNat=0 := by omega
    rw [modPowLoop,if_neg he,hz,pow_zero,mul_one]

/-- `modPow()` is the power. -/
theorem modPow_cast (n : ℕ) (base exponent : ℤ) :
    ((modPow base exponent n : ℤ) : ZMod n)=(base : ZMod n)^exponent.toNat := by
  have hb : ((if base.tmod n < 0 then base.tmod n+n else base.tmod n : ℤ) : ZMod n)=base := by
    split_ifs
    · push_cast
      rw [cast_tmod,ZMod.natCast_self,add_zero]
    · exact cast_tmod n base
  unfold modPow
  rw [modPowLoop_cast,hb]
  push_cast
  ring

end Powers

section Primes

/-- `P` as a natural number. -/
def size : ℕ := 2^255-19

theorem P_eq : P=(size : ℤ) := by norm_num [P,size]

/-- A number of which something has the order of one less, with the prime factors of
that. -/
structure Lucas where
  /-- The number. -/
  p : ℕ
  /-- What has the order. -/
  a : ℕ
  /-- The prime factors of one less. -/
  factors : List ℕ

/-- The test of a number, when these numbers are known to be prime. -/
def Lucas.passes (known : List ℕ) (t : Lucas) : Bool :=
  t.factors.all (fun q => known.contains q) && t.factors.prod == t.p-1 &&
    modPow t.a (t.p-1 : ℕ) t.p == 1 &&
    t.factors.all (fun q => (modPow t.a ((t.p-1)/q : ℕ) t.p-1)%t.p != 0)

/-- Numbers are tested one after another. -/
def chainPasses : List ℕ → List Lucas → Bool
  | _,[] => true
  | known,t::chain => t.passes known && chainPasses (t.p::known) chain

/-- A number that passes is prime. -/
theorem Lucas.prime {known : List ℕ} {t : Lucas} (hk : ∀ q ∈ known,q.Prime)
    (h : t.passes known=true) : t.p.Prime := by
  simp only [Lucas.passes,Bool.and_eq_true,List.all_eq_true,List.contains_iff_mem,beq_iff_eq,
    bne_iff_ne] at h
  obtain ⟨⟨⟨hfactors,hprod⟩,hone⟩,hne⟩ := h
  have hpow : ∀ n : ℕ,((modPow t.a n t.p : ℤ) : ZMod t.p)=(t.a : ZMod t.p)^n := by
    intro n
    rw [modPow_cast]
    push_cast
    rw [Int.toNat_natCast]
  apply lucas_primality t.p t.a
  · rw [← hpow,hone,Int.cast_one]
  · intro q hqp hdvd hcon
    rw [← hprod] at hdvd
    obtain ⟨r,hr,hqr⟩ := hqp.prime.dvd_prod_iff.mp hdvd
    have he : q=r := (Nat.prime_dvd_prime_iff_eq hqp (hk r (hfactors r hr))).mp hqr
    subst he
    apply hne q hr
    have hz : ((modPow t.a ((t.p-1)/q : ℕ) t.p-1 : ℤ) : ZMod t.p)=0 := by
      rw [Int.cast_sub,hpow,hcon,Int.cast_one,sub_self]
    exact Int.emod_eq_zero_of_dvd ((ZMod.intCast_zmod_eq_zero_iff_dvd _ t.p).mp hz)

/-- All numbers of a chain are prime. -/
theorem chain_prime {known : List ℕ} {chain : List Lucas} (hk : ∀ q ∈ known,q.Prime)
    (h : chainPasses known chain=true) : ∀ t ∈ chain,t.p.Prime := by
  induction chain generalizing known with
  | nil =>
    intro t ht
    cases ht
  | cons head chain ih =>
    simp only [chainPasses,Bool.and_eq_true] at h
    have hp := head.prime hk h.1
    have hrest := ih (List.forall_mem_cons.mpr ⟨hp,hk⟩) h.2
    exact List.forall_mem_cons.mpr ⟨hp,hrest⟩

/-- Primes that are found by trial. -/
def smallPrimes : List ℕ :=
  [2,3,5,7,13,19,31,43,47,103,107,127,223,353,991,2437,3727,4153,57467,65147,75707,132049,
    430751,569003]

theorem smallPrimes_prime : ∀ q ∈ smallPrimes,q.Prime := by
  simp only [smallPrimes,List.forall_mem_cons]
  norm_num

/-- The chain that ends with the modulus. -/
def primeChain : List Lucas :=
  [⟨1923133,2,[2,2,3,43,3727]⟩,
    ⟨31757755568855353,10,[2,2,2,3,31,107,223,4153,430751]⟩,
    ⟨2773320623,5,[2,2437,569003]⟩,
    ⟨72106336199,7,[2,13,2773320623]⟩,
    ⟨8574133,2,[2,2,3,7,103,991]⟩,
    ⟨1919519569386763,2,[2,3,7,19,47,47,127,8574133]⟩,
    ⟨75445702479781427272750846543864801,7,[2,2,2,2,2,3,3,5,5,75707,72106336199,
      1919519569386763]⟩,
    ⟨74058212732561358302231226437062788676166966415465897661863160754340907,2,[2,3,353,57467,
      132049,1923133,31757755568855353,75445702479781427272750846543864801]⟩,
    ⟨size,2,[2,2,3,65147,
      74058212732561358302231226437062788676166966415465897661863160754340907]⟩]

/-- What is computed with the constants: the chain passes, `D` is not a square, `SQRT_M1`
is a root, and the base point is on the curve and has the order `L`. -/
theorem constants_checked :
    chainPasses smallPrimes primeChain=true∧
      modPow D ((P-1)/2) P=P-1∧
      (SQRT_M1*SQRT_M1)%P=(-1)%P∧
      (BASE_Y*BASE_Y-BASE_X*BASE_X)%P=(1+D*BASE_X*BASE_X*BASE_Y*BASE_Y)%P∧
      (pointMul L BASE).x=0∧
      (pointMul L BASE).y=(pointMul L BASE).z := by
  decide +kernel

theorem prime_modulus : size.Prime := by
  apply chain_prime smallPrimes_prime constants_checked.1 ⟨size,2,_⟩
  exact List.mem_of_getLast? rfl

instance : Fact size.Prime := ⟨prime_modulus⟩

end Primes

section Field

theorem P_pos : 0 < P := by norm_num [P]

/-- A remainder with the sign corrected. -/
theorem tmod_corrected {m : ℤ} (hm : 0 < m) (a : ℤ) :
    (if a.tmod m < 0 then a.tmod m+m else a.tmod m)=a%m := by
  have hn : 0 ≤ a%m := Int.emod_nonneg a hm.ne'
  have hl : a%m < m := Int.emod_lt_of_pos a hm
  rw [Int.tmod_eq_emod]
  by_cases h : 0 ≤ a∨m ∣ a
  · rw [if_pos h,if_neg (by omega)]
    omega
  · rw [if_neg h,if_pos (by omega)]
    omega

theorem mod_eq (a : ℤ) : mod a=a%P := tmod_corrected P_pos a

theorem cast_mod (a : ℤ) : ((mod a : ℤ) : ZMod size)=a := by
  rw [mod_eq,P_eq]
  exact ZMod.intCast_mod a size

theorem mod_nonneg (a : ℤ) : 0 ≤ mod a := by
  rw [mod_eq]
  exact Int.emod_nonneg a P_pos.ne'

theorem mod_lt (a : ℤ) : mod a < P := by
  rw [mod_eq]
  exact Int.emod_lt_of_pos a P_pos

/-- Reduced integers are equal if they are the same element. -/
theorem eq_of_cast {a b : ℤ} (ha : 0 ≤ a) (hap : a < P) (hb : 0 ≤ b) (hbp : b < P)
    (h : (a : ZMod size)=b) : a=b := by
  have hm := (ZMod.intCast_eq_intCast_iff' a b size).mp h
  rwa [← P_eq,Int.emod_eq_of_lt ha hap,Int.emod_eq_of_lt hb hbp] at hm

theorem modPow_P (base exponent : ℤ) :
    ((modPow base exponent P : ℤ) : ZMod size)=(base : ZMod size)^exponent.toNat := by
  rw [P_eq]
  exact modPow_cast size base exponent

end Field

end SpiritMysql.Ed25519
