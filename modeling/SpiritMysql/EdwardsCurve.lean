import Mathlib.Algebra.Field.Basic
import Mathlib.Tactic.LinearCombination
import Mathlib.Tactic.Field
import Mathlib.Tactic.Ring

/-!
# Twisted Edwards curves

Points on `y²-x²=1+dx²y²` over a field where minus one is a square and `d` is not. The
addition has no exceptions there, so the points are a group. Extended coordinates hold a
point as fractions, with a formula for addition that needs no division.
-/

namespace SpiritMysql.EdwardsCurve

/-- A curve with complete addition. -/
structure Curve (F : Type*) [Field F] where
  /-- The coefficient. -/
  d : F
  /-- A square root of minus one. -/
  i : F
  /-- Minus one is a square. -/
  i_mul_self : i*i=-1
  /-- The coefficient is not a square. -/
  d_ne : ∀ z : F,z*z≠d
  /-- Two can be divided by. -/
  two_ne : (2 : F)≠0

variable {F : Type*} [Field F] {c : Curve F}

/-- A point on the curve. -/
@[ext] structure Point (c : Curve F) where
  /-- The first coordinate. -/
  x : F
  /-- The second coordinate. -/
  y : F
  /-- The equation of the curve. -/
  on_curve : y*y-x*x=1+c.d*x*x*y*y

/-- If the product of all coordinates is plus or minus the inverse of the coefficient, the
coefficient is a square. -/
theorem product_ne (a b : Point c) (e : F) (he : e*e=1) :
    c.d*a.x*b.x*a.y*b.y≠e := by
  intro h
  have ha := a.on_curve
  have hb := b.on_curve
  have hi := c.i_mul_self
  have hne : e≠0 := by
    intro h0
    rw [h0,mul_zero] at he
    exact zero_ne_one he
  have hxy : a.x*a.y≠0 := by
    intro h0
    apply hne
    rw [← h]
    linear_combination c.d*b.x*b.y*h0
  -- Squares of sums and differences differ by the factor `d` from a square.
  have hplus : (c.i*a.x+e*a.y)*(c.i*a.x+e*a.y)=
      c.d*(a.x*a.y*(c.i*b.x+b.y))*(a.x*a.y*(c.i*b.x+b.y)) := by
    linear_combination (a.x*a.x-c.d*a.x*a.x*a.y*a.y*b.x*b.x)*hi+(a.y*a.y-1)*he+ha-
      c.d*a.x*a.x*a.y*a.y*hb-(2*c.i*a.x*a.y+c.d*a.x*b.x*a.y*b.y+e)*h
  have hminus : (c.i*a.x-e*a.y)*(c.i*a.x-e*a.y)=
      c.d*(a.x*a.y*(c.i*b.x-b.y))*(a.x*a.y*(c.i*b.x-b.y)) := by
    linear_combination (a.x*a.x-c.d*a.x*a.x*a.y*a.y*b.x*b.x)*hi+(a.y*a.y-1)*he+ha-
      c.d*a.x*a.x*a.y*a.y*hb+(2*c.i*a.x*a.y-c.d*a.x*b.x*a.y*b.y-e)*h
  have hsquare : ∀ z w : F,w≠0 → z*z=c.d*w*w → False := by
    intro z w hw hz
    apply c.d_ne (z/w)
    field_simp
    linear_combination hz
  by_cases hp : c.i*b.x+b.y=0
  · by_cases hm : c.i*b.x-b.y=0
    · have hy : 2*b.y=0 := by linear_combination hp-hm
      have hx : 2*b.x=0 := by linear_combination -c.i*(hp+hm)+2*b.x*hi
      have hy0 : b.y=0 := (mul_eq_zero.mp hy).resolve_left c.two_ne
      have hx0 : b.x=0 := (mul_eq_zero.mp hx).resolve_left c.two_ne
      rw [hx0,hy0] at hb
      apply one_ne_zero (α := F)
      linear_combination -hb
    · exact hsquare _ _ (mul_ne_zero hxy hm) hminus
  · exact hsquare _ _ (mul_ne_zero hxy hp) hplus

/-- The first denominator of the addition. -/
theorem one_add_ne (a b : Point c) : 1+c.d*a.x*b.x*a.y*b.y≠0 := by
  intro h
  apply product_ne a b (-1) (by ring)
  linear_combination h

/-- The second denominator of the addition. -/
theorem one_sub_ne (a b : Point c) : 1-c.d*a.x*b.x*a.y*b.y≠0 := by
  intro h
  apply product_ne a b 1 (by ring)
  linear_combination -h

/-- A point in fractions. -/
theorem on_curve_of_fractions {d p m x y : F} (hp : p≠0) (hm : m≠0)
    (h : y*y*p*p-x*x*m*m=p*p*m*m+d*x*x*y*y) :
    y/m*(y/m)-x/p*(x/p)=1+d*(x/p)*(x/p)*(y/m)*(y/m) := by
  field_simp
  linear_combination h

/-- The sum of points. -/
def Point.add (a b : Point c) : Point c where
  x := (a.x*b.y+a.y*b.x)/(1+c.d*a.x*b.x*a.y*b.y)
  y := (a.y*b.y+a.x*b.x)/(1-c.d*a.x*b.x*a.y*b.y)
  on_curve := by
    have hp := one_add_ne a b
    have hm := one_sub_ne a b
    have ha := a.on_curve
    have hb := b.on_curve
    apply on_curve_of_fractions hp hm
    grind

instance : Zero (Point c) := ⟨⟨0,1,by ring⟩⟩

instance : Add (Point c) := ⟨Point.add⟩

instance : Neg (Point c) := ⟨fun a => ⟨-a.x,a.y,by linear_combination a.on_curve⟩⟩

@[simp] theorem zero_x : (0 : Point c).x=0 := rfl

@[simp] theorem zero_y : (0 : Point c).y=1 := rfl

@[simp] theorem neg_x (a : Point c) : (-a).x=-a.x := rfl

@[simp] theorem neg_y (a : Point c) : (-a).y=a.y := rfl

theorem add_x (a b : Point c) :
    (a+b).x=(a.x*b.y+a.y*b.x)/(1+c.d*a.x*b.x*a.y*b.y) := rfl

theorem add_y (a b : Point c) :
    (a+b).y=(a.y*b.y+a.x*b.x)/(1-c.d*a.x*b.x*a.y*b.y) := rfl

theorem Point.add_comm (a b : Point c) : a+b=b+a := by
  ext
  · rw [add_x,add_x]
    congr 1 <;> ring
  · rw [add_y,add_y]
    congr 1 <;> ring

theorem Point.zero_add (a : Point c) : 0+a=a := by
  ext
  · rw [add_x,zero_x,zero_y]
    field_simp
    ring
  · rw [add_y,zero_x,zero_y]
    field_simp
    ring

theorem Point.neg_add (a : Point c) : -a+a=0 := by
  ext
  · have h : -a.x*a.y+a.y*a.x=0 := by ring
    rw [add_x,neg_x,neg_y,h,zero_div,zero_x]
  · have h : a.y*a.y+-a.x*a.x=1-c.d*-a.x*a.x*a.y*a.y := by
      linear_combination a.on_curve
    have hne := one_sub_ne (-a) a
    rw [neg_x,neg_y] at hne
    rw [add_y,neg_x,neg_y,h,div_self hne,zero_y]

/-- The numerator of `(a+b).x`. -/
def numX (a b : Point c) : F := a.x*b.y+a.y*b.x

/-- The numerator of `(a+b).y`. -/
def numY (a b : Point c) : F := a.y*b.y+a.x*b.x

/-- The denominator of `(a+b).x`. -/
def denX (a b : Point c) : F := 1+c.d*a.x*b.x*a.y*b.y

/-- The denominator of `(a+b).y`. -/
def denY (a b : Point c) : F := 1-c.d*a.x*b.x*a.y*b.y

/-- The denominators of three points do not vanish. -/
theorem three_ne (a b e : Point c) :
    denX a b*denY a b+c.d*numX a b*numY a b*e.x*e.y≠0∧
      denX a b*denY a b-c.d*numX a b*numY a b*e.x*e.y≠0 := by
  have hx : denX a b≠0 := one_add_ne a b
  have hy : denY a b≠0 := one_sub_ne a b
  have hp := one_add_ne (a+b) e
  have hm := one_sub_ne (a+b) e
  have hsx : (a+b).x=numX a b/denX a b := rfl
  have hsy : (a+b).y=numY a b/denY a b := rfl
  rw [hsx,hsy] at hp hm
  constructor
  · intro h
    apply hp
    field_simp
    linear_combination h
  · intro h
    apply hm
    field_simp
    linear_combination h

/-- The first coordinate of three points. -/
theorem three_x (a b e : Point c) :
    (a+b+e).x=(numX a b*e.y*denY a b+numY a b*e.x*denX a b)/
      (denX a b*denY a b+c.d*numX a b*numY a b*e.x*e.y) := by
  have hx : denX a b≠0 := one_add_ne a b
  have hy : denY a b≠0 := one_sub_ne a b
  have hp := one_add_ne (a+b) e
  have hsx : (a+b).x=numX a b/denX a b := rfl
  have hsy : (a+b).y=numY a b/denY a b := rfl
  rw [add_x]
  rw [hsx,hsy] at hp ⊢
  rw [div_eq_div_iff hp (three_ne a b e).1]
  field_simp

/-- The second coordinate of three points. -/
theorem three_y (a b e : Point c) :
    (a+b+e).y=(numY a b*e.y*denX a b+numX a b*e.x*denY a b)/
      (denX a b*denY a b-c.d*numX a b*numY a b*e.x*e.y) := by
  have hx : denX a b≠0 := one_add_ne a b
  have hy : denY a b≠0 := one_sub_ne a b
  have hm := one_sub_ne (a+b) e
  have hsx : (a+b).x=numX a b/denX a b := rfl
  have hsy : (a+b).y=numY a b/denY a b := rfl
  rw [add_y]
  rw [hsx,hsy] at hm ⊢
  rw [div_eq_div_iff hm (three_ne a b e).2]
  field_simp

theorem Point.add_assoc (a b e : Point c) : a+b+e=a+(b+e) := by
  have ha := a.on_curve
  have hb := b.on_curve
  have he := e.on_curve
  rw [Point.add_comm a (b+e)]
  ext
  · rw [three_x,three_x,div_eq_div_iff (three_ne a b e).1 (three_ne b e a).1]
    unfold numX numY denX denY
    grind
  · rw [three_y,three_y,div_eq_div_iff (three_ne a b e).2 (three_ne b e a).2]
    unfold numX numY denX denY
    grind

/-- The points of the curve are a group. -/
instance : AddCommGroup (Point c) where
  add_assoc := Point.add_assoc
  zero_add := Point.zero_add
  add_zero a := by rw [Point.add_comm,Point.zero_add]
  nsmul := nsmulRec
  zsmul := zsmulRec
  neg_add_cancel := Point.neg_add
  add_comm := Point.add_comm

/-- What the first coordinate is divided by, when it is found from the second one. -/
theorem square_den_ne (a : Point c) : c.d*a.y*a.y+1≠0 := by
  intro h
  have hy : a.y≠0 := by
    intro h0
    rw [h0] at h
    apply one_ne_zero (α := F)
    linear_combination h
  apply c.d_ne (c.i/a.y)
  field_simp
  linear_combination c.i_mul_self-h

/-- The first coordinate is found from the second one up to the sign. -/
theorem x_of_square (a : Point c) {x : F} (h : (c.d*a.y*a.y+1)*x*x=a.y*a.y-1) :
    x=a.x∨x=-a.x := by
  have ha := a.on_curve
  have hne := square_den_ne a
  have hs : x*x=a.x*a.x := by
    apply mul_left_cancel₀ hne
    linear_combination h+ha
  exact mul_self_eq_mul_self_iff.mp hs

section Extended

/-- A point in extended coordinates. -/
structure Extended (F : Type*) where
  /-- The first coordinate times the denominator. -/
  x : F
  /-- The second coordinate times the denominator. -/
  y : F
  /-- The denominator. -/
  z : F
  /-- The product of both coordinates times the denominator. -/
  t : F

/-- The point that the coordinates stand for. -/
structure Extended.Of (p : Extended F) (a : Point c) : Prop where
  /-- The denominator does not vanish. -/
  z_ne : p.z≠0
  /-- The first coordinate. -/
  x_eq : p.x=a.x*p.z
  /-- The second coordinate. -/
  y_eq : p.y=a.y*p.z
  /-- The product. -/
  t_eq : p.t=a.x*a.y*p.z

/-- The unified addition. -/
def Extended.add (d : F) (p q : Extended F) : Extended F :=
  let a := (p.y-p.x)*(q.y-q.x)
  let b := (p.y+p.x)*(q.y+q.x)
  let k := p.t*2*d*q.t
  let m := p.z*2*q.z
  ⟨(b-a)*(m-k),(m+k)*(b+a),(m-k)*(m+k),(b-a)*(b+a)⟩

/-- The unified addition is the addition of points. -/
theorem Extended.Of.add {p q : Extended F} {a b : Point c} (hp : p.Of a) (hq : q.Of b) :
    (Extended.add c.d p q).Of (a+b) := by
  have hz : 2*p.z*q.z≠0 := mul_ne_zero (mul_ne_zero c.two_ne hp.z_ne) hq.z_ne
  have hplus := one_add_ne a b
  have hminus := one_sub_ne a b
  have hx : (a+b).x*(1+c.d*a.x*b.x*a.y*b.y)=a.x*b.y+a.y*b.x := by
    rw [add_x,div_mul_cancel₀ _ hplus]
  have hy : (a+b).y*(1-c.d*a.x*b.x*a.y*b.y)=a.y*b.y+a.x*b.x := by
    rw [add_y,div_mul_cancel₀ _ hminus]
  have he : (p.y+p.x)*(q.y+q.x)-(p.y-p.x)*(q.y-q.x)=
      2*p.z*q.z*((a+b).x*(1+c.d*a.x*b.x*a.y*b.y)) := by
    rw [hx,hp.x_eq,hp.y_eq,hq.x_eq,hq.y_eq]
    ring
  have hh : (p.y+p.x)*(q.y+q.x)+(p.y-p.x)*(q.y-q.x)=
      2*p.z*q.z*((a+b).y*(1-c.d*a.x*b.x*a.y*b.y)) := by
    rw [hy,hp.x_eq,hp.y_eq,hq.x_eq,hq.y_eq]
    ring
  have hf : p.z*2*q.z-p.t*2*c.d*q.t=2*p.z*q.z*(1-c.d*a.x*b.x*a.y*b.y) := by
    rw [hp.t_eq,hq.t_eq]
    ring
  have hg : p.z*2*q.z+p.t*2*c.d*q.t=2*p.z*q.z*(1+c.d*a.x*b.x*a.y*b.y) := by
    rw [hp.t_eq,hq.t_eq]
    ring
  constructor
  · dsimp only [Extended.add]
    rw [hf,hg]
    exact mul_ne_zero (mul_ne_zero hz hminus) (mul_ne_zero hz hplus)
  · dsimp only [Extended.add]
    rw [he,hf,hg]
    ring
  · dsimp only [Extended.add]
    rw [hh,hf,hg]
    ring
  · dsimp only [Extended.add]
    rw [he,hh,hf,hg]
    ring

end Extended

end SpiritMysql.EdwardsCurve
