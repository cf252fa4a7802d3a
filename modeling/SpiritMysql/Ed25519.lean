import Mathlib.Algebra.Order.Ring.Int
import Mathlib.Data.Int.Notation
import Mathlib.Tactic.Common

/-!
# Ed25519

Signing and verification of `ed25519.ts` on integers. A byte that is put into a number is
added to its shifted value, and masks are remainders.
-/

namespace SpiritMysql.Ed25519

/-- `P`, the size of the field. -/
def P : ℤ := 2^255-19

/-- `L`, the order of the base point. -/
def L : ℤ := 2^252+27742317777372353535851937790883648493

/-- `mod()`. -/
def mod (a : ℤ) : ℤ :=
  let result := a.tmod P
  if result < 0 then result+P else result

/-- `modL()`. -/
def modL (a : ℤ) : ℤ :=
  let result := a.tmod L
  if result < 0 then result+L else result

/-- The loop of `modPow()` with `e` bits to go. -/
def modPowLoop (modulus result b e : ℤ) : ℤ :=
  if 0 < e then
    modPowLoop modulus (if e%2=1 then (result*b).tmod modulus else result)
      ((b*b).tmod modulus) (e/2)
  else result
termination_by e.toNat
decreasing_by omega

/-- `modPow()`. -/
def modPow (base exponent modulus : ℤ) : ℤ :=
  let b := base.tmod modulus
  modPowLoop modulus 1 (if b < 0 then b+modulus else b) exponent

/-- `D`. -/
def D : ℤ := mod (-121665*modPow 121666 (P-2) P)

/-- `SQRT_M1`. -/
def SQRT_M1 : ℤ := modPow 2 ((P-1)/4) P

/-- `Point`, which is x=X/Z, y=Y/Z, T=XY/Z. -/
structure Point where
  /-- X. -/
  x : ℤ
  /-- Y. -/
  y : ℤ
  /-- Z. -/
  z : ℤ
  /-- T. -/
  t : ℤ
deriving DecidableEq, Repr

/-- `BASE_X`. -/
def BASE_X : ℤ := 15112221349535400772501151409588531511454012693041857206046113283949847762202

/-- `BASE_Y`. -/
def BASE_Y : ℤ := 46316835694926478169428394003475163141307993866256225615783033603165251855960

/-- `BASE`. -/
def BASE : Point := ⟨BASE_X,BASE_Y,1,mod (BASE_X*BASE_Y)⟩

/-- `IDENTITY`. -/
def IDENTITY : Point := ⟨0,1,1,0⟩

/-- `pointAdd()`. -/
def pointAdd (p q : Point) : Point :=
  let a := mod ((p.y-p.x)*(q.y-q.x))
  let b := mod ((p.y+p.x)*(q.y+q.x))
  let c := mod (p.t*2*D*q.t)
  let d := mod (p.z*2*q.z)
  let e := b-a
  let f := d-c
  let g := d+c
  let h := b+a
  ⟨mod (e*f),mod (g*h),mod (f*g),mod (e*h)⟩

/-- The loop of `pointMul()` with `s` bits to go. -/
def pointMulLoop (result addend : Point) (s : ℤ) : Point :=
  if 0 < s then
    pointMulLoop (if s%2=1 then pointAdd result addend else result)
      (pointAdd addend addend) (s/2)
  else result
termination_by s.toNat
decreasing_by omega

/-- `pointMul()`. -/
def pointMul (scalar : ℤ) (p : Point) : Point := pointMulLoop IDENTITY p scalar

/-- `bytesToBigIntLE()`. -/
def bytesToBigIntLE (data : List UInt8) : ℤ :=
  data.foldr (fun byte result => result*256+(byte.toNat : ℤ)) 0

/-- The loop of `bigIntToBytes32LE()` with so many bytes to go. -/
def bytesLE : ℕ → ℤ → List UInt8
  | 0,_ => []
  | n+1,v => UInt8.ofNat (v%256).toNat::bytesLE n (v/256)

/-- `bigIntToBytes32LE()`. -/
def bigIntToBytes32LE (value : ℤ) : List UInt8 := bytesLE 32 value

/-- `encodePoint()`. -/
def encodePoint (p : Point) : List UInt8 :=
  let zInv := modPow p.z (P-2) P
  let xAffine := mod (p.x*zInv)
  let yAffine := mod (p.y*zInv)
  let result := bigIntToBytes32LE yAffine
  if xAffine%2=1 then result.modify 31 (·|||128) else result

/-- The first coordinate that `decodePoint()` finds for the second one. Its sign is still
to be chosen. -/
def recoverX (y : ℤ) : Option ℤ :=
  let y2 := mod (y*y)
  let u := mod (y2-1)
  let v := mod (D*y2+1)
  let v3 := mod (v*v*v)
  let v7 := mod (v3*v3*v)
  let x := mod (u*v3*modPow (mod (u*v7)) ((P-5)/8) P)
  let vx2 := mod (v*x*x)
  if vx2=mod (-u) then some (mod (x*SQRT_M1))
  else if vx2≠u then none
  else some x

/-- `decodePoint()`. -/
def decodePoint (data : List UInt8) : Option Point :=
  if data.length≠32 then none
  else
    let xSign := (((data.getD 31 0) >>> 7).toNat : ℤ)
    let y := bytesToBigIntLE data%2^255
    if P ≤ y then none
    else
      match recoverX y with
      | none => none
      | some x =>
        if x=0∧xSign=1 then none
        else
          let x := if x%2≠xSign then P-x else x
          some ⟨x,y,1,mod (x*y)⟩

section Signatures

-- SHA-512.
variable (sha512 : List UInt8 → Vector UInt8 64)

/-- `expandSeed()` with the scalar and the prefix. -/
def expandSeed (seed : List UInt8) : ℤ × List UInt8 :=
  let az := (sha512 seed).toList
  let az := ((az.modify 0 (·&&&0xF8)).modify 31 (·&&&0x7F)).modify 31 (·|||0x40)
  (bytesToBigIntLE (az.take 32),az.drop 32)

/-- `ed25519PublicKey()`. -/
def ed25519PublicKey (seed : List UInt8) : List UInt8 :=
  encodePoint (pointMul (expandSeed sha512 seed).1 BASE)

/-- `ed25519Sign()`. -/
def ed25519Sign (seed message : List UInt8) : List UInt8 :=
  let scalar := (expandSeed sha512 seed).1
  let noncePrefix := (expandSeed sha512 seed).2
  let publicKey := encodePoint (pointMul scalar BASE)
  let r := modL (bytesToBigIntLE (sha512 (noncePrefix++message)).toList)
  let rPoint := encodePoint (pointMul r BASE)
  let k := modL (bytesToBigIntLE (sha512 (rPoint++publicKey++message)).toList)
  let s := modL (r+k*scalar)
  rPoint++bigIntToBytes32LE s

/-- `ed25519Verify()`. -/
def ed25519Verify (publicKey message signature : List UInt8) : Bool :=
  if signature.length≠64∨publicKey.length≠32 then false
  else
    let rBytes := signature.take 32
    let s := bytesToBigIntLE (signature.drop 32)
    if L ≤ s then false
    else
      match decodePoint publicKey,decodePoint rBytes with
      | some aPoint,some rPoint =>
        let k := modL (bytesToBigIntLE (sha512 (rBytes++publicKey++message)).toList)
        let lhs := encodePoint (pointMul s BASE)
        let rhs := encodePoint (pointAdd rPoint (pointMul k aPoint))
        (lhs.zipIdx).all (fun b => some b.1==rhs[b.2]?)
      | _,_ => false

end Signatures

end SpiritMysql.Ed25519
