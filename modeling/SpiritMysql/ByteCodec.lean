import Mathlib.Tactic.Common
import Mathlib.Tactic.Ring

/-!
# Little-endian words and lists of bytes

Fixed-width unsigned words as lists of bytes, least significant byte first,
with the value read back from them. Every width and every value is covered:
writing a value that is too large keeps its low bytes, as machine stores do.
-/

namespace SpiritMysql.ByteCodec

/-- The low `k` bytes of a natural number, least significant first. -/
def leBytes : ℕ → ℕ → List UInt8
  | 0,_ => []
  | k+1,n => UInt8.ofNat n::leBytes k (n/256)

/-- The natural number whose little-endian bytes are given. -/
def leNat : List UInt8 → ℕ
  | [] => 0
  | b::bs => b.toNat+256*leNat bs

/-- The two's complement reading of a word of `k` bytes. -/
def leInt (k : ℕ) (bs : List UInt8) : ℤ :=
  if 2*leNat bs < 256^k then leNat bs else (leNat bs : ℤ)-256^k

/-- The number whose low `k` bytes a machine store keeps for an integer. -/
def wrap (k : ℕ) (z : ℤ) : ℕ := (z%(256^k : ℕ)).toNat

@[simp] theorem leBytes_length (k n : ℕ) : (leBytes k n).length=k := by
  induction k generalizing n with
  | zero => rfl
  | succ k ih => simp only [leBytes,List.length_cons,ih]

/-- Reading back a written word gives the value reduced to its width. -/
theorem leNat_leBytes (k n : ℕ) : leNat (leBytes k n)=n%256^k := by
  induction k generalizing n with
  | zero => simp only [leBytes,leNat,pow_zero,Nat.mod_one]
  | succ k ih =>
    have hb : (UInt8.ofNat n).toNat=n%256 := UInt8.toNat_ofNat'
    simp only [leBytes,leNat,ih,hb]
    rw [pow_succ',Nat.mod_mul]

/-- A value that fits its width is read back unchanged. -/
theorem leNat_leBytes_of_lt {k n : ℕ} (h : n < 256^k) : leNat (leBytes k n)=n := by
  rw [leNat_leBytes,Nat.mod_eq_of_lt h]

/-- A word of `k` bytes is below `256^k`. -/
theorem leNat_lt (bs : List UInt8) : leNat bs < 256^bs.length := by
  induction bs with
  | nil => exact Nat.one_pos
  | cons b bs ih =>
    have hb := b.toNat_lt
    simp only [leNat,List.length_cons,pow_succ']
    omega

/-- Writing the value of a word gives the word back. -/
theorem leBytes_leNat (bs : List UInt8) : leBytes bs.length (leNat bs)=bs := by
  induction bs with
  | nil => rfl
  | cons b bs ih =>
    have hb := b.toNat_lt
    have hd : (b.toNat+256*leNat bs)/256=leNat bs := by omega
    have hm : UInt8.ofNat (b.toNat+256*leNat bs)=b := by
      apply UInt8.toNat_inj.mp
      rw [UInt8.toNat_ofNat']
      omega
    simp only [List.length_cons,leBytes,leNat,hd,hm,ih]

/-- Writing depends on the value only up to the width. -/
theorem leBytes_mod (k n : ℕ) : leBytes k (n%256^k)=leBytes k n := by
  have h := leBytes_leNat (leBytes k n)
  rwa [leBytes_length,leNat_leBytes] at h

/-- Two words of one width are equal when their values are. -/
theorem leBytes_inj {k m n : ℕ} (hm : m < 256^k) (hn : n < 256^k) (h : leBytes k m=leBytes k n) :
    m=n := by
  have hv := congrArg leNat h
  rwa [leNat_leBytes_of_lt hm,leNat_leBytes_of_lt hn] at hv

/-- Low byte of a word first: the word of a longer value splits there. -/
theorem leBytes_succ (k n : ℕ) : leBytes (k+1) n=UInt8.ofNat n::leBytes k (n/256) := rfl

/-- A signed store followed by a signed read gives the integer back. -/
theorem leInt_leBytes {k : ℕ} {z : ℤ} (hl : -(256^k : ℤ) ≤ 2*z) (hu : 2*z < 256^k) :
    leInt k (leBytes k (wrap k z))=z := by
  have hpos : (0 : ℤ) < (256^k : ℕ) := by exact_mod_cast Nat.pow_pos (by omega)
  have hcast : ((256^k : ℕ) : ℤ)=(256 : ℤ)^k := by push_cast; rfl
  have hnn := Int.emod_nonneg z hpos.ne'
  have hlt := Int.emod_lt_of_pos z hpos
  have hw : wrap k z < 256^k := by
    unfold wrap
    omega
  have hv : (wrap k z : ℤ)=z%(256^k : ℕ) := Int.toNat_of_nonneg hnn
  unfold leInt
  rw [leNat_leBytes_of_lt hw]
  by_cases hz : 0 ≤ z
  · have hm : z%(256^k : ℕ)=z := Int.emod_eq_of_lt hz (by omega)
    rw [if_pos (by omega)]
    omega
  · have hm : z%(256^k : ℕ)=z+(256^k : ℕ) := by
      rw [←Int.add_emod_right,Int.emod_eq_of_lt (by omega) (by omega)]
    rw [if_neg (by omega)]
    omega

/-- An unsigned store of a value in range is read back as it was. -/
theorem wrap_of_lt {k n : ℕ} (h : n < 256^k) : wrap k n=n := by
  unfold wrap
  rw [Int.emod_eq_of_lt (by omega) (by exact_mod_cast h),Int.toNat_natCast]

/-- The number whose bits are given, lowest first. -/
def ofBits : List Bool → ℕ
  | [] => 0
  | b::bs => Nat.bit b (ofBits bs)

/-- A bit of a number made of bits. -/
theorem testBit_ofBits (bs : List Bool) (i : ℕ) : (ofBits bs).testBit i=bs.getD i false := by
  induction bs generalizing i with
  | nil => simp only [ofBits,Nat.zero_testBit,List.getD_nil]
  | cons b bs ih =>
    cases i with
    | zero => rw [ofBits,Nat.testBit_bit_zero,List.getD_cons_zero]
    | succ i => rw [ofBits,Nat.testBit_succ,Nat.bit_div_two,List.getD_cons_succ,ih]

/-- A byte of a word. -/
theorem getD_leBytes {k j : ℕ} (n : ℕ) (h : j < k) :
    (leBytes k n).getD j 0=UInt8.ofNat (n/256^j) := by
  induction k generalizing n j with
  | zero => omega
  | succ k ih =>
    cases j with
    | zero => simp only [leBytes,List.getD_cons_zero,pow_zero,Nat.div_one]
    | succ j =>
      rw [leBytes,List.getD_cons_succ,ih _ (by omega),Nat.div_div_eq_div_mul,pow_succ']

/-- A bit of a byte of a word is a bit of the number. -/
theorem testBit_leBytes {k i : ℕ} (n : ℕ) (h : i < 8*k) :
    ((leBytes k n).getD (i/8) 0).toNat.testBit (i%8)=n.testBit i := by
  have hj : i/8 < k := by omega
  have hp : 256^(i/8)=2^(8*(i/8)) := by rw [pow_mul]; rfl
  have hb : (UInt8.ofNat (n/256^(i/8))).toNat=(n/256^(i/8))%2^8 := UInt8.toNat_ofNat'
  rw [getD_leBytes n hj,hb,Nat.testBit_mod_two_pow,hp,Nat.testBit_div_two_pow]
  have hi : i%8+8*(i/8)=i := Nat.mod_add_div i 8
  rw [hi,decide_eq_true (Nat.mod_lt i (by omega)),Bool.true_and]

example : leNat (leBytes 3 0x010203)=0x010203 := by decide

end SpiritMysql.ByteCodec
