import SpiritMysql.Ed25519Encoding

/-!
# Signatures of Ed25519

What `ed25519Sign()` makes is accepted by `ed25519Verify()`, whatever the hash function
is.
-/

namespace SpiritMysql.Ed25519

open EdwardsCurve

theorem bytesToBigIntLE_nonneg (l : List UInt8) : 0 ≤ bytesToBigIntLE l := by
  induction l with
  | nil => exact Int.le_refl 0
  | cons b l ih =>
    rw [bytesToBigIntLE_cons]
    omega

theorem L_pos : 0 < L := by norm_num [L]

theorem modL_eq (a : ℤ) : modL a=a%L := tmod_corrected L_pos a

theorem modL_nonneg (a : ℤ) : 0 ≤ modL a := by
  rw [modL_eq]
  exact Int.emod_nonneg a L_pos.ne'

theorem modL_lt (a : ℤ) : modL a < L := by
  rw [modL_eq]
  exact Int.emod_lt_of_pos a L_pos

/-- A multiple of the base point depends on the remainder only. -/
theorem modL_base {a : ℤ} (h : 0 ≤ a) : (modL a).toNat•base=a.toNat•base := by
  have ha : a.toNat=(modL a).toNat+a.toNat/L.toNat*L.toNat := by
    have hm : (modL a).toNat=a.toNat%L.toNat := by
      rw [modL_eq,Int.toNat_emod h L_pos.le]
    rw [hm,Nat.mul_comm,Nat.mod_add_div]
  rw [ha,add_nsmul,mul_nsmul',order_base,nsmul_zero,add_zero]

/-- The number of a signature fits its bytes. -/
theorem signature_number {s : ℤ} (h0 : 0 ≤ s) (hl : s < L) :
    bytesToBigIntLE (bigIntToBytes32LE s)=s := by
  have hb : L < 256^32 := by norm_num [L]
  rw [bigIntToBytes32LE,bytesToBigIntLE_bytesLE,Int.emod_eq_of_lt h0 (by omega)]

/-- Bytes are equal to themselves. -/
theorem every_self (l : List UInt8) :
    l.zipIdx.all (fun b => some b.1==l[b.2]?)=true := by
  rw [List.all_eq_true]
  intro b hb
  rw [List.mem_zipIdx_iff_getElem?.mp hb]
  exact beq_self_eq_true (some b.1)

/-- The equation that is verified. -/
theorem signature_equation {r k scalar : ℤ} (hr : 0 ≤ r) (hk : 0 ≤ k) (hs : 0 ≤ scalar) :
    (modL (r+k*scalar)).toNat•base=r.toNat•base+k.toNat•(scalar.toNat•base) := by
  have hks : 0 ≤ k*scalar := Int.mul_nonneg hk hs
  rw [modL_base (by omega),Int.toNat_add hr hks,Int.toNat_mul hk hs,add_nsmul,mul_nsmul']

theorem verify_sign (sha512 : List UInt8 → Vector UInt8 64) (seed message : List UInt8) :
    ed25519Verify sha512 (ed25519PublicKey sha512 seed) message
      (ed25519Sign sha512 seed message)=true := by
  obtain ⟨scalar,hscalar⟩ : ∃ a,a=(expandSeed sha512 seed).1 := ⟨_,rfl⟩
  have hs0 : 0 ≤ scalar := by
    rw [hscalar]
    exact bytesToBigIntLE_nonneg _
  obtain ⟨r,hr⟩ : ∃ r,r=modL (bytesToBigIntLE
    (sha512 ((expandSeed sha512 seed).2++message)).toList) := ⟨_,rfl⟩
  have hr0 : 0 ≤ r := by
    rw [hr]
    exact modL_nonneg _
  have hmul : ∀ n : ℤ,encodePoint (pointMul n BASE)=encoding (n.toNat•base) :=
    fun n => encodePoint_eq (pointMul_represents n base_represents)
  obtain ⟨k,hk⟩ : ∃ k,k=modL (bytesToBigIntLE (sha512 (encoding (r.toNat•base)++
    encoding (scalar.toNat•base)++message)).toList) := ⟨_,rfl⟩
  have hk0 : 0 ≤ k := by
    rw [hk]
    exact modL_nonneg _
  have hkey : ed25519PublicKey sha512 seed=encoding (scalar.toNat•base) := by
    rw [ed25519PublicKey,← hscalar,hmul]
  have hsign : ed25519Sign sha512 seed message=
      encoding (r.toNat•base)++bigIntToBytes32LE (modL (r+k*scalar)) := by
    unfold ed25519Sign
    dsimp only
    rw [← hscalar,← hr,hmul,hmul,← hk]
  have hlr := (encoding_read (r.toNat•base)).1
  have hla := (encoding_read (scalar.toNat•base)).1
  have hls : (bigIntToBytes32LE (modL (r+k*scalar))).length=32 := bytesLE_length 32 _
  have hlen : ¬((encoding (r.toNat•base)++bigIntToBytes32LE (modL (r+k*scalar))).length≠64∨
      (encoding (scalar.toNat•base)).length≠32) := by
    rw [List.length_append,hlr,hls,hla]
    decide
  obtain ⟨aPoint,hda,hra⟩ := decodePoint_encoding (scalar.toNat•base)
  obtain ⟨rPoint,hdr,hrr⟩ := decodePoint_encoding (r.toNat•base)
  have hright := encodePoint_eq (pointAdd_represents hrr (pointMul_represents k hra))
  rw [hkey,hsign,ed25519Verify,if_neg hlen]
  dsimp only
  rw [List.take_left' hlr,List.drop_left' hlr,signature_number (modL_nonneg _) (modL_lt _),
    if_neg (not_le_of_gt (modL_lt _)),hda,hdr]
  dsimp only
  rw [← hk,hmul,hright,signature_equation hr0 hk0 hs0]
  exact every_self _

/-- A signature that is made for a seed verifies with the public key of the seed. Points
survive encoding, and `pointMul()` is the multiple of a point. -/
theorem signatures_verify (sha512 : List UInt8 → Vector UInt8 64)
    (seed message : List UInt8) :
    ed25519Verify sha512 (ed25519PublicKey sha512 seed) message
        (ed25519Sign sha512 seed message)=true∧
      (∀ (p : Point) (a : EdwardsCurve.Point curve),Represents p a →
        ∃ q,decodePoint (encodePoint p)=some q∧Represents q a)∧
      ∀ (n : ℕ) (p : Point) (a : EdwardsCurve.Point curve),Represents p a →
        Represents (pointMul n p) (n•a) := by
  refine ⟨verify_sign sha512 seed message,?_,?_⟩
  · intro p a h
    rw [encodePoint_eq h]
    exact decodePoint_encoding a
  · intro n p a h
    have hm := pointMul_represents n h
    rwa [Int.toNat_natCast] at hm

/-- Three times the base point. -/
theorem signatures_verify_base : Represents (pointMul 3 BASE) (3•base) :=
  (signatures_verify (fun _ => Vector.replicate 64 0) [1,2] [3]).2.2 3 BASE base
    base_represents

end SpiritMysql.Ed25519
