import Mathlib.FieldTheory.Finite.Basic
import SpiritMysql.Ed25519Field
import SpiritMysql.EdwardsCurve

/-!
# The curve of Ed25519

Points of `ed25519.ts` stand for points of the curve. Addition and multiplication are
those of the group, and an encoded point is decoded to the same point.
-/

namespace SpiritMysql.Ed25519

open EdwardsCurve

section Constants

theorem two_ne : (2 : ZMod size)≠0 := by
  intro h
  have hd : size ∣ 2 := (ZMod.natCast_eq_zero_iff 2 size).mp h
  exact absurd (Nat.le_of_dvd (by omega) hd) (by norm_num [size])

/-- Integers are the same element if their difference is a multiple of `P`. -/
theorem cast_eq {a b : ℤ} (h : a%P=b%P) : (a : ZMod size)=b := by
  rw [P_eq] at h
  exact (ZMod.intCast_eq_intCast_iff' a b size).mpr h

/-- What raised to half the order of the field is minus one, is not a square. -/
theorem not_square {a : ZMod size} (h : a^((size-1)/2)=-1) (z : ZMod size) : z*z≠a := by
  intro hz
  have hhalf : 2*((size-1)/2)=size-1 := by norm_num [size]
  have hne : (-1 : ZMod size)≠1 := by
    intro hc
    apply two_ne
    linear_combination -hc
  by_cases h0 : z=0
  · rw [← hz,h0,mul_zero,zero_pow (by norm_num [size])] at h
    exact neg_ne_zero.mpr one_ne_zero h.symm
  · apply hne
    rw [← h,← hz,← pow_two,← pow_mul,hhalf]
    exact ZMod.pow_card_sub_one_eq_one h0

theorem D_half : (D : ZMod size)^((size-1)/2)=-1 := by
  have hn : ((P-1)/2).toNat=(size-1)/2 := by
    rw [P_eq]
    omega
  have hp := modPow_P D ((P-1)/2)
  rw [constants_checked.2.1,hn] at hp
  rw [← hp,P_eq,Int.cast_sub,Int.cast_one,Int.cast_natCast,ZMod.natCast_self,zero_sub]

theorem SQRT_M1_mul : (SQRT_M1 : ZMod size)*SQRT_M1=-1 := by
  have hc := cast_eq constants_checked.2.2.1
  rwa [Int.cast_mul,Int.cast_neg,Int.cast_one] at hc

/-- The curve of the library. -/
def curve : Curve (ZMod size) where
  d := D
  i := SQRT_M1
  i_mul_self := SQRT_M1_mul
  d_ne := not_square D_half
  two_ne := two_ne

/-- The base point. -/
def base : EdwardsCurve.Point curve where
  x := BASE_X
  y := BASE_Y
  on_curve := by
    have hc := cast_eq constants_checked.2.2.2.1
    push_cast at hc
    exact hc

end Constants

section Points

/-- The coordinates in the field. -/
def Point.cast (p : Point) : Extended (ZMod size) := ⟨p.x,p.y,p.z,p.t⟩

/-- The point that the coordinates stand for. -/
def Represents (p : Point) (a : EdwardsCurve.Point curve) : Prop := p.cast.Of a

theorem pointAdd_cast (p q : Point) :
    (pointAdd p q).cast=Extended.add curve.d p.cast q.cast := by
  unfold pointAdd Extended.add Point.cast curve
  simp only [cast_mod,Int.cast_mul,Int.cast_sub,Int.cast_add,Int.cast_ofNat]

/-- `pointAdd()` is the addition of points. -/
theorem pointAdd_represents {p q : Point} {a b : EdwardsCurve.Point curve}
    (hp : Represents p a) (hq : Represents q b) : Represents (pointAdd p q) (a+b) := by
  have h := Extended.Of.add hp hq
  rwa [← pointAdd_cast] at h

/-- Coordinates with the denominator one. -/
theorem affine_represents (a : EdwardsCurve.Point curve) {x y t : ℤ} (hx : (x : ZMod size)=a.x)
    (hy : (y : ZMod size)=a.y) (ht : (t : ZMod size)=a.x*a.y) :
    Represents ⟨x,y,1,t⟩ a := by
  have hz : ((1 : ℤ) : ZMod size)=1 := Int.cast_one
  constructor
  · rw [Point.cast,hz]
    exact one_ne_zero
  · rw [Point.cast,hz,hx,mul_one]
  · rw [Point.cast,hz,hy,mul_one]
  · rw [Point.cast,hz,ht,mul_one]

theorem identity_represents : Represents IDENTITY 0 :=
  affine_represents 0 Int.cast_zero Int.cast_one (by rw [Int.cast_zero,zero_x,zero_mul])

theorem base_represents : Represents BASE base :=
  affine_represents base rfl rfl (by rw [cast_mod,Int.cast_mul]; rfl)

/-- The loop adds the multiple that the bits to go stand for. -/
theorem pointMulLoop_represents {result addend : Point} {s : ℤ}
    {a b : EdwardsCurve.Point curve} (hr : Represents result a) (hd : Represents addend b) :
    Represents (pointMulLoop result addend s) (a+s.toNat•b) := by
  induction result, addend, s using pointMulLoop.induct generalizing a b with
  | case1 result addend s hs ih =>
    simp only [dite_eq_ite] at ih
    rw [pointMulLoop,if_pos hs]
    have hdouble := pointAdd_represents hd hd
    by_cases hodd : s%2=1
    · have hbits : s.toNat=2*(s/2).toNat+1 := by omega
      rw [if_pos hodd] at ih ⊢
      have h := ih (pointAdd_represents hr hd) hdouble
      rwa [← two_nsmul,← mul_nsmul',mul_comm,add_assoc,add_comm b,← succ_nsmul,← hbits] at h
    · have hbits : s.toNat=2*(s/2).toNat := by omega
      rw [if_neg hodd] at ih ⊢
      have h := ih hr hdouble
      rwa [← two_nsmul,← mul_nsmul',mul_comm,← hbits] at h
  | case2 result addend s hs =>
    have hz : s.toNat=0 := by omega
    rw [pointMulLoop,if_neg hs,hz,zero_nsmul,add_zero]
    exact hr

/-- `pointMul()` is the multiple. -/
theorem pointMul_represents (scalar : ℤ) {p : Point} {a : EdwardsCurve.Point curve}
    (hp : Represents p a) : Represents (pointMul scalar p) (scalar.toNat•a) := by
  have h := pointMulLoop_represents (s:=scalar) identity_represents hp
  rwa [zero_add] at h

/-- The order of the base point. -/
theorem order_base : L.toNat•base=0 := by
  have hr := pointMul_represents L base_represents
  obtain ⟨-,-,-,-,hx,hy⟩ := constants_checked
  have hxe := hr.x_eq
  have hye := hr.y_eq
  have hz := hr.z_ne
  dsimp only [Point.cast] at hxe hye hz
  rw [hx,Int.cast_zero] at hxe
  rw [hy] at hye
  ext
  · exact (mul_eq_zero.mp hxe.symm).resolve_right hz
  · exact mul_right_cancel₀ hz (by rw [← hye,zero_y,one_mul])

end Points

end SpiritMysql.Ed25519
