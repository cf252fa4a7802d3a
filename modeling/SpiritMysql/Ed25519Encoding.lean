import SpiritMysql.Ed25519Curve

/-!
# Encoded points

The bytes of an encoded point depend on the point only, and decoding finds the point.
-/

namespace SpiritMysql.Ed25519

open EdwardsCurve

section Bytes

theorem bytesLE_length (n : ℕ) (v : ℤ) : (bytesLE n v).length=n := by
  induction n generalizing v with
  | zero => rfl
  | succ n ih => rw [bytesLE,List.length_cons,ih]

/-- The byte that is cut off. -/
theorem byte_toNat (v : ℤ) : (((UInt8.ofNat (v%256).toNat).toNat : ℕ) : ℤ)=v%256 := by
  rw [UInt8.toNat_ofNat']
  omega

theorem bytesToBigIntLE_cons (b : UInt8) (l : List UInt8) :
    bytesToBigIntLE (b::l)=bytesToBigIntLE l*256+(b.toNat : ℤ) := rfl

/-- Bytes are read back. -/
theorem bytesToBigIntLE_bytesLE (n : ℕ) (v : ℤ) :
    bytesToBigIntLE (bytesLE n v)=v%256^n := by
  induction n generalizing v with
  | zero =>
    rw [pow_zero,Int.emod_one]
    rfl
  | succ n ih =>
    rw [bytesLE,bytesToBigIntLE_cons,ih,byte_toNat]
    have hpos : (0 : ℤ) < 256^n := Int.pow_pos (by omega)
    have hq := Int.mul_ediv_add_emod (v/256) (256^n)
    have hn := Int.emod_nonneg (v/256) hpos.ne'
    have hl := Int.emod_lt_of_pos (v/256) hpos
    have hv := Int.mul_ediv_add_emod v 256
    rw [pow_succ]
    refine (((Int.ediv_emod_unique (Int.mul_pos hpos (by omega))).mpr
      ⟨?_,?_,?_⟩ : v/(256^n*256)=v/256/256^n∧_).2).symm
    · linear_combination 256*hq+hv
    · omega
    · omega

/-- The last byte of a number. -/
theorem bytesLE_succ (n : ℕ) (v : ℤ) :
    bytesLE (n+1) v=bytesLE n v++[UInt8.ofNat ((v/256^n)%256).toNat] := by
  induction n generalizing v with
  | zero => simp [bytesLE]
  | succ n ih =>
    have he : v/256/256^n=v/256^(n+1) := by
      rw [Int.ediv_ediv_of_nonneg (by omega),pow_succ,mul_comm]
    rw [bytesLE,ih,he]
    rfl

theorem bytesToBigIntLE_append (l : List UInt8) (b : UInt8) :
    bytesToBigIntLE (l++[b])=bytesToBigIntLE l+256^l.length*(b.toNat : ℤ) := by
  induction l with
  | nil => simp [bytesToBigIntLE]
  | cons c l ih =>
    rw [List.cons_append,bytesToBigIntLE_cons,bytesToBigIntLE_cons,ih,List.length_cons]
    ring

theorem modify_last (f : UInt8 → UInt8) (l : List UInt8) (b : UInt8) :
    (l++[b]).modify l.length f=l++[f b] := by
  induction l with
  | nil => rfl
  | cons c l ih =>
    rw [List.cons_append,List.length_cons,List.modify_succ_cons,ih,List.cons_append]

/-- The sign bit beside the other bits. -/
theorem sign_set {b : UInt8} (h : b.toNat < 128) :
    (b|||128).toNat=b.toNat+128∧((b|||128) >>> 7).toNat=1∧(b >>> 7).toNat=0 := by
  have ho : (b|||128).toNat=b.toNat+128 := by
    have hd := Nat.two_pow_add_eq_or_of_lt (i:=7) h 1
    rw [UInt8.toNat_or,Nat.or_comm,Nat.add_comm]
    exact hd.symm
  have hs : ∀ c : UInt8,(c >>> 7).toNat=c.toNat/128 := by
    intro c
    rw [UInt8.toNat_shiftRight,Nat.shiftRight_eq_div_pow]
    rfl
  rw [hs,hs,ho]
  omega

end Bytes

section Encoding

/-- The bytes of a point. -/
def encoding (a : EdwardsCurve.Point curve) : List UInt8 :=
  let result := bigIntToBytes32LE (a.y.val : ℤ)
  if (a.x.val : ℤ)%2=1 then result.modify 31 (·|||128) else result

/-- A reduced integer is the value of the element it stands for. -/
theorem eq_val {a : ℤ} {x : ZMod size} (ha : 0 ≤ a) (hp : a < P) (h : (a : ZMod size)=x) :
    a=(x.val : ℤ) := by
  apply eq_of_cast ha hp (Int.natCast_nonneg x.val)
  · rw [P_eq]
    exact Int.ofNat_lt.mpr (ZMod.val_lt x)
  · rw [h,Int.cast_natCast,ZMod.natCast_zmod_val]

/-- The inverse by exponentiation. -/
theorem inverse_mul {z : ℤ} (hz : (z : ZMod size)≠0) :
    (z : ZMod size)*((modPow z (P-2) P : ℤ) : ZMod size)=1 := by
  have hn : (P-2).toNat+1=size-1 := by
    have hs : 2 < size := by norm_num [size]
    rw [P_eq]
    omega
  rw [modPow_P,← pow_succ',hn]
  exact ZMod.pow_card_sub_one_eq_one hz

/-- The bytes that are made from coordinates are those of the point. -/
theorem encodePoint_eq {p : Point} {a : EdwardsCurve.Point curve} (h : Represents p a) :
    encodePoint p=encoding a := by
  have hi := inverse_mul h.z_ne
  have hx : mod (p.x*modPow p.z (P-2) P)=(a.x.val : ℤ) := by
    apply eq_val (mod_nonneg _) (mod_lt _)
    have hxe : (p.x : ZMod size)=a.x*p.z := h.x_eq
    rw [cast_mod,Int.cast_mul,hxe,mul_assoc,hi,mul_one]
  have hy : mod (p.y*modPow p.z (P-2) P)=(a.y.val : ℤ) := by
    apply eq_val (mod_nonneg _) (mod_lt _)
    have hye : (p.y : ZMod size)=a.y*p.z := h.y_eq
    rw [cast_mod,Int.cast_mul,hye,mul_assoc,hi,mul_one]
  unfold encodePoint encoding
  dsimp only
  rw [hx,hy]

/-- What is read from the bytes of a point. -/
theorem encoding_read (a : EdwardsCurve.Point curve) :
    (encoding a).length=32∧
      bytesToBigIntLE (encoding a)%2^255=(a.y.val : ℤ)∧
      ((((encoding a).getD 31 0) >>> 7).toNat : ℤ)=(a.x.val : ℤ)%2 := by
  obtain ⟨y,hy⟩ : ∃ y : ℤ,y=(a.y.val : ℤ) := ⟨_,rfl⟩
  have hy0 : 0 ≤ y := by
    rw [hy]
    exact Int.natCast_nonneg a.y.val
  have hyp : y < 2^255 := by
    have hv : (a.y.val : ℤ) < (size : ℤ) := Int.ofNat_lt.mpr (ZMod.val_lt a.y)
    have hs : (size : ℤ) < 2^255 := by norm_num [size]
    omega
  obtain ⟨m,hm⟩ : ∃ m : ℤ,m=256^31 := ⟨_,rfl⟩
  have hm0 : 0 < m := by
    rw [hm]
    exact Int.pow_pos (by omega)
  have h255 : (2 : ℤ)^255=m*128 := by
    rw [hm]
    norm_num
  have hdiv := Int.mul_ediv_add_emod y m
  have hmod := Int.emod_nonneg y hm0.ne'
  have hq0 : 0 ≤ y/m := Int.ediv_nonneg hy0 hm0.le
  have hql : y/m < 128 := by
    rw [h255] at hyp
    exact Int.ediv_lt_of_lt_mul hm0 (by linarith)
  obtain ⟨top,htop⟩ : ∃ top,top=UInt8.ofNat ((y/m)%256).toNat := ⟨_,rfl⟩
  have htopv : (top.toNat : ℤ)=y/m := by
    rw [htop,byte_toNat]
    omega
  have hbytes : bigIntToBytes32LE y=bytesLE 31 y++[top] := by
    rw [htop,hm]
    exact bytesLE_succ 31 y
  have hlen : (bytesLE 31 y).length=31 := bytesLE_length 31 y
  obtain ⟨hor,hsign,hnone⟩ := sign_set (b:=top) (by omega)
  have hread : ∀ b : UInt8,bytesToBigIntLE (bytesLE 31 y++[b])=y%m+m*(b.toNat : ℤ) := by
    intro b
    rw [bytesToBigIntLE_append,bytesToBigIntLE_bytesLE,hlen,← hm]
  have hget : ∀ b : UInt8,(bytesLE 31 y++[b]).getD 31 0=b := by
    intro b
    rw [List.getD_eq_getElem?_getD,List.getElem?_append_right (by omega),hlen]
    rfl
  have hmodify : (bytesLE 31 y++[top]).modify 31 (·|||128)=bytesLE 31 y++[top|||128] := by
    have hl := modify_last (·|||128) (bytesLE 31 y) top
    rwa [hlen] at hl
  unfold encoding
  dsimp only
  rw [← hy,hbytes,hmodify]
  by_cases hx : (a.x.val : ℤ)%2=1
  · rw [if_pos hx,List.length_append,hlen,hread,hget,hor,hsign,h255]
    refine ⟨rfl,?_,hx.symm⟩
    have he : y%m+m*((top.toNat+128 : ℕ) : ℤ)=y+m*128 := by
      push_cast
      linear_combination hdiv+m*htopv
    rw [he,Int.add_emod_right,Int.emod_eq_of_lt hy0 (by omega)]
  · rw [if_neg hx,List.length_append,hlen,hread,hget,hnone,h255]
    refine ⟨rfl,?_,by omega⟩
    have he : y%m+m*(top.toNat : ℤ)=y := by
      linear_combination hdiv+m*htopv
    rw [he,Int.emod_eq_of_lt hy0 (by omega)]

end Encoding

section Decoding

/-- The candidate is a root up to a root of minus one. -/
theorem candidate_square (a : EdwardsCurve.Point curve) {u v x : ZMod size}
    (hu : u=a.y*a.y-1) (hv : v=curve.d*(a.y*a.y)+1)
    (hx : x=u*(v*v*v)*(u*(v*v*v*(v*v*v)*v))^((size-5)/8)) :
    v*x*x=u∨v*x*x=-u := by
  have hroot : v*a.x*a.x=u := by
    rw [hu,hv]
    linear_combination -a.on_curve
  by_cases h0 : a.x=0
  · left
    have hu0 : u=0 := by rw [← hroot,h0,mul_zero]
    rw [hx,hu0]
    ring
  · have hv0 : v≠0 := by
      have hd := square_den_ne a
      rw [hv]
      rwa [mul_assoc] at hd
    -- The number under the exponent is a square, so the power squares to one.
    obtain ⟨t,ht⟩ : ∃ t,t=v*v*v*v*a.x := ⟨_,rfl⟩
    have ht0 : t≠0 := by
      rw [ht]
      exact mul_ne_zero (mul_ne_zero (mul_ne_zero (mul_ne_zero hv0 hv0) hv0) hv0) h0
    have hw : u*(v*v*v*(v*v*v)*v)=t^2 := by
      rw [← hroot,ht]
      ring
    have hexp : 2*(2*((size-5)/8)+1)+2*(2*((size-5)/8)+1)=size-1 := by norm_num [size]
    have hone : t^(2*(2*((size-5)/8)+1))*t^(2*(2*((size-5)/8)+1))=1 := by
      rw [← pow_add,hexp]
      exact ZMod.pow_card_sub_one_eq_one ht0
    have hvx : v*x*x=u*t^(2*(2*((size-5)/8)+1)) := by
      have hpow : t^(2*(2*((size-5)/8)+1))=
          u*(v*v*v*(v*v*v)*v)*((u*(v*v*v*(v*v*v)*v))^((size-5)/8)*
            (u*(v*v*v*(v*v*v)*v))^((size-5)/8)) := by
        rw [hw]
        ring
      rw [hpow,hx]
      ring
    rcases mul_self_eq_one_iff.mp hone with h | h
    · left
      rw [hvx,h,mul_one]
    · right
      rw [hvx,h,mul_neg,mul_one]

/-- A first coordinate is found, up to the sign. -/
theorem recoverX_found (a : EdwardsCurve.Point curve) :
    ∃ x,recoverX (a.y.val : ℤ)=some x∧0 ≤ x∧x < P∧
      ((x : ZMod size)=a.x∨(x : ZMod size)=-a.x) := by
  have hycast : (((a.y.val : ℤ)) : ZMod size)=a.y := by
    rw [Int.cast_natCast,ZMod.natCast_zmod_val]
  obtain ⟨u,hu⟩ : ∃ u,u=mod (mod ((a.y.val : ℤ)*(a.y.val : ℤ))-1) := ⟨_,rfl⟩
  obtain ⟨v,hv⟩ : ∃ v,v=mod (D*mod ((a.y.val : ℤ)*(a.y.val : ℤ))+1) := ⟨_,rfl⟩
  obtain ⟨x,hx⟩ : ∃ x,x=mod (u*mod (v*v*v)*modPow (mod (u*mod (mod (v*v*v)*mod (v*v*v)*v)))
    ((P-5)/8) P) := ⟨_,rfl⟩
  have huc : (u : ZMod size)=a.y*a.y-1 := by
    rw [hu,cast_mod,Int.cast_sub,cast_mod,Int.cast_mul,hycast,Int.cast_one]
  have hvc : (v : ZMod size)=curve.d*(a.y*a.y)+1 := by
    rw [hv,cast_mod,Int.cast_add,Int.cast_mul,cast_mod,Int.cast_mul,hycast,Int.cast_one]
    rfl
  have hxc : (x : ZMod size)=u*(v*v*v)*(u*(v*v*v*(v*v*v)*v))^((size-5)/8) := by
    have hn : ((P-5)/8).toNat=(size-5)/8 := by
      have hs : 5 < size := by norm_num [size]
      rw [P_eq]
      omega
    rw [hx]
    simp only [cast_mod,Int.cast_mul,modPow_P,hn]
  have hvx : ((mod (v*x*x) : ℤ) : ZMod size)=v*x*x := by
    simp only [cast_mod,Int.cast_mul]
  have hden : (v : ZMod size)=curve.d*a.y*a.y+1 := by
    rw [hvc,mul_assoc]
  have hrec : recoverX (a.y.val : ℤ)=if mod (v*x*x)=mod (-u) then some (mod (x*SQRT_M1))
      else if mod (v*x*x)≠u then none else some x := by
    rw [hx,hu,hv]
    rfl
  rw [hrec]
  have hcases := candidate_square a huc hvc hxc
  by_cases hneg : mod (v*x*x)=mod (-u)
  · rw [if_pos hneg]
    refine ⟨mod (x*SQRT_M1),rfl,mod_nonneg _,mod_lt _,?_⟩
    apply x_of_square a
    have hn : ((mod (v*x*x) : ℤ) : ZMod size)=((mod (-u) : ℤ) : ZMod size) := by rw [hneg]
    rw [hvx,cast_mod,Int.cast_neg] at hn
    rw [← hden,← huc,cast_mod,Int.cast_mul]
    linear_combination (v : ZMod size)*x*x*SQRT_M1_mul-hn
  · have hpos : (v : ZMod size)*x*x=u := by
      apply hcases.resolve_right
      intro h
      apply hneg
      apply eq_of_cast (mod_nonneg _) (mod_lt _) (mod_nonneg _) (mod_lt _)
      rw [hvx,h,cast_mod,Int.cast_neg]
    have hue : mod (v*x*x)=u := by
      apply eq_of_cast (mod_nonneg _) (mod_lt _)
      · rw [hu]
        exact mod_nonneg _
      · rw [hu]
        exact mod_lt _
      · rw [hvx,hpos]
    rw [if_neg hneg,if_neg (not_not_intro hue)]
    refine ⟨x,rfl,?_,?_,?_⟩
    · rw [hx]
      exact mod_nonneg _
    · rw [hx]
      exact mod_lt _
    · apply x_of_square a
      rw [← hden,← huc,hpos]

/-- The sign bit chooses the first coordinate. -/
theorem chosen_x (a : EdwardsCurve.Point curve) {x : ℤ} (h0 : 0 ≤ x) (hp : x < P)
    (hx : (x : ZMod size)=a.x∨(x : ZMod size)=-a.x) :
    ¬(x=0∧(a.x.val : ℤ)%2=1)∧
      (if x%2≠(a.x.val : ℤ)%2 then P-x else x)=(a.x.val : ℤ) := by
  have hodd : P%2=1 := by norm_num [P]
  rcases hx with h | h
  · have he := eq_val h0 hp h
    rw [← he]
    refine ⟨by omega,?_⟩
    rw [if_neg (not_not_intro rfl)]
  · by_cases hz : x=0
    · have hax : a.x=0 := by
        rw [hz,Int.cast_zero] at h
        exact neg_eq_zero.mp h.symm
      rw [hax,hz,ZMod.val_zero]
      decide
    · have he : P-x=(a.x.val : ℤ) := by
        apply eq_val (by omega) (by omega)
        rw [Int.cast_sub,P_eq,Int.cast_natCast,ZMod.natCast_self,h]
        ring
      rw [← he]
      refine ⟨fun hc => hz hc.1,?_⟩
      rw [if_pos (by omega)]

/-- The bytes of a point are decoded to it. -/
theorem decodePoint_encoding (a : EdwardsCurve.Point curve) :
    ∃ p,decodePoint (encoding a)=some p∧Represents p a := by
  obtain ⟨hlen,hy,hs⟩ := encoding_read a
  obtain ⟨x,hx,hx0,hxp,hxa⟩ := recoverX_found a
  obtain ⟨hnot,hchosen⟩ := chosen_x a hx0 hxp hxa
  have hyp : ¬P ≤ (a.y.val : ℤ) := by
    rw [P_eq]
    have hv := Int.ofNat_lt.mpr (ZMod.val_lt a.y)
    omega
  unfold decodePoint
  rw [if_neg (not_not_intro hlen)]
  dsimp only
  rw [hy,hs,if_neg hyp,hx]
  dsimp only
  rw [if_neg hnot,hchosen]
  refine ⟨_,rfl,affine_represents a ?_ ?_ ?_⟩
  · rw [Int.cast_natCast,ZMod.natCast_zmod_val]
  · rw [Int.cast_natCast,ZMod.natCast_zmod_val]
  · rw [cast_mod,Int.cast_mul,Int.cast_natCast,Int.cast_natCast,ZMod.natCast_zmod_val,
      ZMod.natCast_zmod_val]

end Decoding

end SpiritMysql.Ed25519
