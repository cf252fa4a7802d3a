import SpiritMysql.Reader

/-!
# Skipping bytes

The iterations of `readVoidAsync()` on any stream, well formed or not: they
make progress exactly when the length that is skipped does not exceed what
is left of the payload.
-/

namespace SpiritMysql.SkippedBytes

open AsyncAction ByteCodec Errors Reader

/-- Pass received bytes, and wait for them if necessary. -/
def passBytes (n : ℕ) : Read Unit := fun s =>
  if n ≤ s.rest.length then .done () (s.advance n)
  else if s.closed=true then .thrown (.serverDisconnected "Lost connection to server") s
  else .waiting s

/-- The body of the loop of `readVoidAsync()`. The result is the remaining length.
When the packet has a negative rest, the cursor moves back. -/
def voidTurn (len : ℤ) : Read ℤ := do
  reserve 1
  let s ← get
  let lenInCurPacket := min len s.lenInCurPacket
  if lenInCurPacket ≤ 0 then moveBack lenInCurPacket.natAbs
  else passBytes lenInCurPacket.toNat
  return len-lenInCurPacket

/-- A remaining length, and the reader before an iteration. -/
abbrev Iteration := ℤ×State

/-- The next iteration of `readVoidAsync()`, unless the call returned, threw or waits
for bytes. -/
def next (x : Iteration) : Option Iteration :=
  if x.1 ≤ 0 then none
  else
    match voidTurn x.1 x.2 with
    | .done len s => some (len,s)
    | .thrown _ _ => none
    | .waiting _ => none

/-- What there is after a number of iterations. -/
def after : ℕ → Iteration → Option Iteration
  | 0,x => some x
  | k+1,x => (after k x).bind next

/-- A call makes progress. -/
structure Progresses (x : Iteration) : Prop where
  /-- It ends: it returns, throws, or waits for bytes that were not received. -/
  ends : ∃ k,after k x=none
  /-- No two iterations have the same remaining length and stream position. -/
  distinct : ∀ i j a b,i < j → after i x=some a → after j x=some b →
    ¬(a.1=b.1 ∧ a.2.rest=b.2.rest)
  /-- Iterations consume input. -/
  consumes : ∀ k a,0 < k → after k x=some a → a.2.rest.length < x.2.rest.length

/-- How many bytes are left of a payload: of its current packet and, if this is a
full one, of the packets that continue it. There is no number if the
received bytes end before the payload. -/
def leftFrom : ℕ → ℕ → ℤ → List UInt8 → Option ℤ
  | 0,_,_,_ => none
  | fuel+1,payloadLength,packetOffset,rest =>
    if payloadLength=maxPayload then
      let tail := ((payloadLength : ℤ)-packetOffset).toNat
      if rest.length < tail+4 then none
      else
        (leftFrom fuel (leNat ((rest.drop tail).take 3)) 0 (rest.drop (tail+4))).map
          (fun n => (tail : ℤ)+n)
    else if (rest.length : ℤ) < payloadLength-packetOffset then none
    else some (payloadLength-packetOffset)

/-- How many bytes are left of a payload that is being read. -/
def payloadLeft (payloadLength : ℕ) (packetOffset : ℤ) (rest : List UInt8) : Option ℤ :=
  leftFrom (rest.length+1) payloadLength packetOffset rest

/-- There is nothing to skip, or no more than is left of the payload. -/
def Covered (x : Iteration) : Prop :=
  x.1 ≤ 0 ∨ ∀ n,payloadLeft x.2.payloadLength x.2.packetOffset x.2.rest=some n → x.1 ≤ n

/-- The number does not depend on the fuel. -/
theorem leftFrom_congr {f g payloadLength : ℕ} {packetOffset : ℤ} {rest : List UInt8}
    (hf : rest.length < f) (hg : rest.length < g) :
    leftFrom f payloadLength packetOffset rest=leftFrom g payloadLength packetOffset rest := by
  induction f generalizing g payloadLength packetOffset rest with
  | zero => exact absurd hf (Nat.not_lt_zero _)
  | succ f ih =>
    cases g with
    | zero => exact absurd hg (Nat.not_lt_zero _)
    | succ g =>
      unfold leftFrom
      split
      · dsimp only
        split
        · rfl
        · next hn =>
          obtain ⟨tail,ht⟩ : ∃ n,n=((payloadLength : ℤ)-packetOffset).toNat := ⟨_,rfl⟩
          rw [←ht] at hn ⊢
          have hlen : (rest.drop (tail+4)).length=rest.length-(tail+4) := List.length_drop
          have h := @ih g (leNat ((rest.drop tail).take 3)) 0 (rest.drop (tail+4)) (by omega)
            (by omega)
          rw [h]
      · rfl

/-- The rest of a packet that is not a full one. -/
theorem payloadLeft_last {payloadLength : ℕ} (h : payloadLength≠maxPayload) (packetOffset : ℤ)
    (rest : List UInt8) :
    payloadLeft payloadLength packetOffset rest=
      if (rest.length : ℤ) < payloadLength-packetOffset then none
      else some (payloadLength-packetOffset) := by
  unfold payloadLeft leftFrom
  rw [if_neg h]

/-- The rest of a full packet, and what follows it. -/
theorem payloadLeft_full {packetOffset : ℤ} {tail : ℕ} (rest : List UInt8)
    (ht : ((maxPayload : ℤ)-packetOffset).toNat=tail) :
    payloadLeft maxPayload packetOffset rest=
      if rest.length < tail+4 then none
      else (payloadLeft (leNat ((rest.drop tail).take 3)) 0 (rest.drop (tail+4))).map
        (fun n => (tail : ℤ)+n) := by
  unfold payloadLeft
  rw [leftFrom,if_pos rfl,ht]
  dsimp only
  split
  · rfl
  · next hn =>
    have hlen : (rest.drop (tail+4)).length=rest.length-(tail+4) := List.length_drop
    have h := @leftFrom_congr rest.length ((rest.drop (tail+4)).length+1)
      (leNat ((rest.drop tail).take 3)) 0 (rest.drop (tail+4)) (by omega) (by omega)
    rw [h]

/-- A payload that was not read past the end has a rest that is not negative. -/
theorem payloadLeft_nonneg {payloadLength : ℕ} {packetOffset : ℤ} {rest : List UInt8} {n : ℤ}
    (h : packetOffset ≤ payloadLength) (hn : payloadLeft payloadLength packetOffset rest=some n) :
    0 ≤ n := by
  obtain ⟨m,hm⟩ : ∃ m,rest.length=m := ⟨_,rfl⟩
  induction m using Nat.strong_induction_on generalizing payloadLength packetOffset rest n with
  | _ m ih =>
    by_cases hp : payloadLength=maxPayload
    · subst hp
      rw [payloadLeft_full rest rfl] at hn
      split at hn
      · cases hn
      · next hl =>
        obtain ⟨k,hk,rfl⟩ := Option.map_eq_some_iff.mp hn
        have hlen : ∀ n,(rest.drop n).length=rest.length-n := fun n => List.length_drop
        have hk0 := ih _ (by rw [hlen]; omega) (by omega) hk rfl
        omega
    · rw [payloadLeft_last hp] at hn
      split at hn
      · cases hn
      · cases hn
        omega

/-- The rest of a payload that is inside its current packet. -/
def Entered (s : State) : Prop :=
  s.payloadLength≠maxPayload ∨ s.packetOffset < s.payloadLength

/-- There is no need to join the next packet. -/
theorem Entered.reserve {s : State} (h : Entered s) : reserve 1 s=.done () s := by
  unfold Reader.reserve correctNearPacketBoundary
  split
  · next ho =>
    refine if_neg ?_
    intro hp
    cases h with
    | inl h => exact h hp
    | inr h =>
      rw [hp] at h
      omega
  · rfl

/-- An iteration that does not join packets, and has bytes to skip. -/
theorem Entered.next_eq {len : ℤ} {s : State} (h : Entered s) (hl : 0 < len) :
    next (len,s)=
      if s.lenInCurPacket ≤ 0 then
        some (len-s.lenInCurPacket,(moveBack s.lenInCurPacket.natAbs s).state)
      else if (min len s.lenInCurPacket).toNat ≤ s.rest.length then
        some (len-min len s.lenInCurPacket,s.advance (min len s.lenInCurPacket).toNat)
      else none := by
  unfold next voidTurn
  rw [if_neg (by omega)]
  simp only [bind_apply,h.reserve,Outcome.andThen_done,get_apply]
  by_cases hn : s.lenInCurPacket ≤ 0
  · have hmin : min len s.lenInCurPacket=s.lenInCurPacket := by omega
    rw [hmin,if_pos hn,if_pos hn]
    rfl
  · rw [if_neg (by omega),if_neg hn,bind_apply]
    unfold passBytes
    by_cases hp : (min len s.lenInCurPacket).toNat ≤ s.rest.length
    · rw [if_pos hp,if_pos hp]
      rfl
    · rw [if_neg hp,if_neg hp]
      by_cases hc : s.closed=true
      · rw [if_pos hc]
        rfl
      · rw [if_neg hc]
        rfl

/-- An iteration inside a packet, with bytes to skip that are left of the payload:
if the call goes on, it consumed some of them. -/
theorem Entered.next_covered {len : ℤ} {s : State} {y : Iteration} (h : Entered s) (hl : 0 < len)
    (hc : Covered (len,s)) (hy : next (len,s)=some y) :
    Covered y ∧ y.2.rest.length < s.rest.length := by
  have hleft : s.lenInCurPacket=s.payloadLength-s.packetOffset := rfl
  have hcov := hc.resolve_left (by omega)
  dsimp only at hcov
  rw [h.next_eq hl] at hy
  split at hy
  · next hn =>
    -- nothing is left of the packet, which is not a full one
    have hp : s.payloadLength≠maxPayload := by
      cases h with
      | inl h => exact h
      | inr h => omega
    rw [payloadLeft_last hp,if_neg (by omega)] at hcov
    have hle := hcov _ rfl
    omega
  · next hn =>
    split at hy
    · next hr =>
      cases hy
      have hrest : (s.rest.drop (min len s.lenInCurPacket).toNat).length=
          s.rest.length-(min len s.lenInCurPacket).toNat := List.length_drop
      refine ⟨?_,by
        change (s.rest.drop (min len s.lenInCurPacket).toNat).length < s.rest.length
        omega⟩
      by_cases hlast : len ≤ s.lenInCurPacket
      · exact Or.inl (by dsimp only; omega)
      · have hmin : min len s.lenInCurPacket=s.lenInCurPacket := by omega
        rw [hmin] at hr ⊢
        refine Or.inr ?_
        change ∀ n,payloadLeft s.payloadLength (s.packetOffset+s.lenInCurPacket.toNat)
          (s.rest.drop s.lenInCurPacket.toNat)=some n → len-s.lenInCurPacket ≤ n
        have hoff : s.packetOffset+s.lenInCurPacket.toNat=s.payloadLength := by omega
        rw [hoff]
        by_cases hp : s.payloadLength=maxPayload
        · have ht : ((maxPayload : ℤ)-s.packetOffset).toNat=s.lenInCurPacket.toNat := by
            rw [hleft,hp]
          have hz : ((maxPayload : ℤ)-(maxPayload : ℕ)).toNat=0 := by
            rw [sub_self]
            rfl
          rw [hp,payloadLeft_full s.rest ht] at hcov
          rw [hp,payloadLeft_full _ hz]
          rw [List.length_drop,List.drop_zero,List.drop_drop,Nat.zero_add]
          intro n hn
          split at hn
          · cases hn
          · next hlong =>
            obtain ⟨k,hk,rfl⟩ := Option.map_eq_some_iff.mp hn
            rw [if_neg (by omega),hk] at hcov
            have hle := hcov _ rfl
            dsimp only at hle ⊢
            omega
        · rw [payloadLeft_last hp,if_neg (by omega)] at hcov
          have hle := hcov _ rfl
          omega
    · cases hy

/-- An iteration inside a packet, with more to skip than is left of the payload: the
call goes on, and there is still more to skip than is left. -/
theorem Entered.next_uncovered {len : ℤ} {s : State} (h : Entered s) (hc : ¬Covered (len,s)) :
    ∃ y,next (len,s)=some y ∧ ¬Covered y := by
  have hleft : s.lenInCurPacket=s.payloadLength-s.packetOffset := rfl
  obtain ⟨hl,hex⟩ := not_or.mp hc
  dsimp only at hl hex
  obtain ⟨m,hm⟩ := not_forall.mp hex
  obtain ⟨hm,hlt⟩ := Classical.not_imp.mp hm
  rw [h.next_eq (by omega)]
  by_cases hp : s.payloadLength=maxPayload
  · have ho : s.packetOffset < s.payloadLength := by
      cases h with
      | inl h => exact absurd hp h
      | inr h => exact h
    have ht : ((maxPayload : ℤ)-s.packetOffset).toNat=s.lenInCurPacket.toNat := by
      rw [hleft,hp]
    have hz : ((maxPayload : ℤ)-(maxPayload : ℕ)).toNat=0 := by
      rw [sub_self]
      rfl
    rw [hp,payloadLeft_full s.rest ht] at hm
    split at hm
    · cases hm
    · next hlong =>
      obtain ⟨k,hk,rfl⟩ := Option.map_eq_some_iff.mp hm
      have hk0 := payloadLeft_nonneg (by omega) hk
      have hmin : min len s.lenInCurPacket=s.lenInCurPacket := by omega
      rw [if_neg (by omega),hmin,if_pos (by omega)]
      refine ⟨_,rfl,?_⟩
      intro hcov
      cases hcov with
      | inl hcov =>
        dsimp only at hcov
        omega
      | inr hcov =>
        change ∀ n,payloadLeft s.payloadLength (s.packetOffset+s.lenInCurPacket.toNat)
          (s.rest.drop s.lenInCurPacket.toNat)=some n → len-s.lenInCurPacket ≤ n at hcov
        have hoff : s.packetOffset+s.lenInCurPacket.toNat=s.payloadLength := by omega
        rw [hoff,hp,payloadLeft_full _ hz,List.length_drop,List.drop_zero,List.drop_drop,
          Nat.zero_add,if_neg (by omega),hk] at hcov
        have hle := hcov _ rfl
        dsimp only at hle
        omega
  · rw [payloadLeft_last hp] at hm
    split at hm
    · cases hm
    · next hlong =>
      cases hm
      by_cases hn : s.lenInCurPacket ≤ 0
      · rw [if_pos hn]
        refine ⟨_,rfl,?_⟩
        intro hcov
        cases hcov with
        | inl hcov =>
          dsimp only at hcov
          omega
        | inr hcov =>
          change ∀ n,payloadLeft s.payloadLength (s.packetOffset-s.lenInCurPacket.natAbs)
            ((s.before.take s.lenInCurPacket.natAbs).reverse++s.rest)=some n →
              len-s.lenInCurPacket ≤ n at hcov
          have hoff : s.packetOffset-s.lenInCurPacket.natAbs=s.payloadLength := by omega
          rw [hoff,payloadLeft_last hp,if_neg (by omega)] at hcov
          have hle := hcov _ rfl
          omega
      · have hmin : min len s.lenInCurPacket=s.lenInCurPacket := by omega
        rw [if_neg hn,hmin,if_pos (by omega)]
        refine ⟨_,rfl,?_⟩
        intro hcov
        cases hcov with
        | inl hcov =>
          dsimp only at hcov
          omega
        | inr hcov =>
          change ∀ n,payloadLeft s.payloadLength (s.packetOffset+s.lenInCurPacket.toNat)
            (s.rest.drop s.lenInCurPacket.toNat)=some n → len-s.lenInCurPacket ≤ n at hcov
          have hoff : s.packetOffset+s.lenInCurPacket.toNat=s.payloadLength := by omega
          rw [hoff,payloadLeft_last hp,if_neg (by omega)] at hcov
          have hle := hcov _ rfl
          omega

/-- When a full packet is used up, the next one is joined, or the call ends for want
of its header. -/
theorem next_used_up {len : ℤ} {s : State} (h : ¬Entered s) (hl : 0 < len) :
    (s.rest.length < 4 ∧ next (len,s)=none ∧
      payloadLeft s.payloadLength s.packetOffset s.rest=none) ∨
    ∃ t,Entered t ∧ reserve 1 s=.done () t ∧ t.rest.length+4=s.rest.length ∧
      next (len,s)=next (len,t) ∧
      ∀ n,payloadLeft s.payloadLength s.packetOffset s.rest=some n ↔
        payloadLeft t.payloadLength t.packetOffset t.rest=some n := by
  obtain ⟨hp,ho⟩ := not_or.mp h
  have hfull := not_not.mp hp
  have ht : ((maxPayload : ℤ)-s.packetOffset).toNat=0 := by omega
  have hjoin : reserve 1 s=
      if 4 ≤ s.rest.length then .done () (s.joinPacket 0)
      else if s.closed=true then .thrown (.serverDisconnected "Lost connection to server") s
      else .waiting s := by
    unfold reserve correctNearPacketBoundary
    rw [if_pos (by omega),if_pos hfull,hfull,ht]
  have hleft := payloadLeft_full s.rest ht
  rw [List.drop_zero,Nat.zero_add] at hleft
  by_cases hr : 4 ≤ s.rest.length
  · have hdrop : (s.rest.drop 4).length=s.rest.length-4 := List.length_drop
    have htake : (s.rest.take 4).take 3=s.rest.take 3 := List.take_take
    rw [if_pos hr] at hjoin
    rw [if_neg (by omega)] at hleft
    have hentered : Entered (s.joinPacket 0) := by
      by_cases hfull' : (s.joinPacket 0).payloadLength=maxPayload
      · have hoff : (s.joinPacket 0).packetOffset=0 := rfl
        refine Or.inr ?_
        rw [hfull',hoff]
        decide
      · exact Or.inl hfull'
    have hrest : (s.joinPacket 0).rest=s.rest.drop 4 := rfl
    refine Or.inr ⟨s.joinPacket 0,hentered,hjoin,by rw [hrest]; omega,?_,?_⟩
    · unfold next voidTurn
      rw [if_neg (show ¬(len,s).1 ≤ 0 by dsimp only; omega),
        if_neg (show ¬(len,s.joinPacket 0).1 ≤ 0 by dsimp only; omega)]
      simp only [bind_apply,hjoin,hentered.reserve,Outcome.andThen_done]
    · intro n
      rw [hfull,hleft,hrest]
      have hlen : (s.joinPacket 0).payloadLength=leNat (s.rest.take 3) := congrArg leNat htake
      have hoff : (s.joinPacket 0).packetOffset=0 := rfl
      rw [hlen,hoff]
      constructor
      · intro hn
        obtain ⟨k,hk,hkn⟩ := Option.map_eq_some_iff.mp hn
        rw [hk,←hkn,Nat.cast_zero,zero_add]
      · intro hn
        rw [hn]
        exact congrArg some (zero_add n)
  · rw [if_neg hr] at hjoin
    rw [if_pos (by omega)] at hleft
    refine Or.inl ⟨by omega,?_,by rw [hfull]; exact hleft⟩
    unfold next voidTurn
    rw [if_neg (show ¬(len,s).1 ≤ 0 by dsimp only; omega)]
    simp only [bind_apply,hjoin]
    by_cases hc : s.closed=true
    · rw [if_pos hc]
      rfl
    · rw [if_neg hc]
      rfl

/-- If the call goes on and there is not more to skip than is left, input was
consumed, and this stays so. -/
theorem next_covered {x y : Iteration} (hc : Covered x) (hy : next x=some y) :
    Covered y ∧ y.2.rest.length < x.2.rest.length := by
  obtain ⟨len,s⟩ := x
  have hl : 0 < len := by
    by_contra hn
    have hnone : next (len,s)=none := if_pos (by dsimp only; omega)
    rw [hnone] at hy
    cases hy
  by_cases h : Entered s
  · exact h.next_covered hl hc hy
  · rcases next_used_up h hl with ⟨-,hnone,-⟩|⟨t,ht,hres,hlen,heq,hleft⟩
    · rw [hnone] at hy
      cases hy
    · have hct : Covered (len,t) := by
        refine Or.inr ?_
        intro n hn
        exact hc.resolve_left (by dsimp only; omega) n ((hleft n).mpr hn)
      obtain ⟨hcy,hyl⟩ := ht.next_covered hl hct (heq ▸ hy)
      exact ⟨hcy,by dsimp only; omega⟩

/-- If there is more to skip than is left, the call goes on and this stays so. -/
theorem next_uncovered {x : Iteration} (hc : ¬Covered x) : ∃ y,next x=some y ∧ ¬Covered y := by
  obtain ⟨len,s⟩ := x
  by_cases h : Entered s
  · exact h.next_uncovered hc
  · obtain ⟨hl,hex⟩ := not_or.mp hc
    dsimp only at hl hex
    rcases next_used_up h (show 0 < len by omega) with ⟨-,-,hnone⟩|⟨t,ht,-,-,heq,hleft⟩
    · refine absurd ?_ hex
      intro n hn
      rw [hnone] at hn
      cases hn
    · rw [heq]
      refine ht.next_uncovered ?_
      intro hct
      cases hct with
      | inl hct => exact hl hct
      | inr hct => exact hex (fun n hn => hct n ((hleft n).mp hn))

/-- Iterations after other ones. -/
theorem after_add (i j : ℕ) (x : Iteration) : after (i+j) x=(after i x).bind (after j) := by
  induction j with
  | zero =>
    cases after i x with
    | none => rfl
    | some y => rfl
  | succ j ih =>
    have hstep : after (i+(j+1)) x=(after (i+j) x).bind next := rfl
    rw [hstep,ih]
    cases after i x with
    | none => rfl
    | some y => rfl

/-- Every iteration of a call that has not more to skip than is left shortens what
there is to receive. -/
theorem after_covered {x y : Iteration} (k : ℕ) (hc : Covered x) (hy : after k x=some y) :
    Covered y ∧ y.2.rest.length+k ≤ x.2.rest.length := by
  induction k generalizing y with
  | zero =>
    cases hy
    exact ⟨hc,le_rfl⟩
  | succ k ih =>
    obtain ⟨z,hz,hnext⟩ := Option.bind_eq_some_iff.mp hy
    obtain ⟨hcz,hlz⟩ := ih hz
    obtain ⟨hcy,hly⟩ := next_covered hcz hnext
    exact ⟨hcy,by omega⟩

/-- A call that has more to skip than is left never ends. -/
theorem after_uncovered {x : Iteration} (k : ℕ) (hc : ¬Covered x) :
    ∃ y,after k x=some y ∧ ¬Covered y := by
  induction k with
  | zero => exact ⟨x,rfl,hc⟩
  | succ k ih =>
    obtain ⟨z,hz,hcz⟩ := ih
    obtain ⟨y,hy,hcy⟩ := next_uncovered hcz
    refine ⟨y,?_,hcy⟩
    unfold after
    rw [hz]
    exact hy

/-! ## The callers -/

/-- `gotoEndOfPacketAsync()` never skips more than is left. -/
theorem gotoEndOfPacket_covered (s : State) : Covered (s.lenInCurPacket,s) := by
  have hleft : s.lenInCurPacket=s.payloadLength-s.packetOffset := rfl
  by_cases hl : s.lenInCurPacket ≤ 0
  · exact Or.inl hl
  · refine Or.inr ?_
    intro n hn
    dsimp only at hn ⊢
    by_cases hp : s.payloadLength=maxPayload
    · have ht : ((maxPayload : ℤ)-s.packetOffset).toNat=s.lenInCurPacket.toNat := by
        rw [hleft,hp]
      rw [hp,payloadLeft_full s.rest ht] at hn
      split at hn
      · cases hn
      · obtain ⟨k,hk,rfl⟩ := Option.map_eq_some_iff.mp hn
        have hk0 := payloadLeft_nonneg (by omega) hk
        omega
    · rw [payloadLeft_last hp] at hn
      split at hn
      · cases hn
      · cases hn
        exact le_rfl

/-- An iteration of the loop is one of `readVoid()`. -/
theorem passLoop_next {len : ℤ} {s t : State} {y : Iteration} (fuel : ℕ) (hl : 0 < len)
    (ht : Entered t) (hres : reserve 1 s=.done () t) (hc : Covered (len,t))
    (hy : next (len,t)=some y) :
    ∃ bytes,passLoop (reserve 1) (fuel+1) len.toNat s=
      (passLoop (reserve 1) fuel y.1.toNat y.2).andThen (fun more => pure (bytes++more)) := by
  have hleft : t.lenInCurPacket=t.payloadLength-t.packetOffset := rfl
  rw [ht.next_eq hl] at hy
  split at hy
  · next hn =>
    have hp : t.payloadLength≠maxPayload := by
      cases ht with
      | inl h => exact h
      | inr h => omega
    have hcov := hc.resolve_left (by dsimp only; omega)
    dsimp only at hcov
    rw [payloadLeft_last hp,if_neg (by omega)] at hcov
    have hle := hcov _ rfl
    omega
  · next hn =>
    split at hy
    · next hr =>
      cases hy
      have hmin : min t.lenInCurPacket.toNat len.toNat=(min len t.lenInCurPacket).toNat := by omega
      have hone : recvAtLeast (min (min len t.lenInCurPacket).toNat 1) t=.done () t :=
        (if_pos (by unfold bufferLen; omega)).trans (if_pos (by unfold bufferLen; omega))
      have hpass : min (min len t.lenInCurPacket).toNat t.rest.length=
          (min len t.lenInCurPacket).toNat := by omega
      have hsub : len.toNat-(min len t.lenInCurPacket).toNat=(len-min len t.lenInCurPacket).toNat := by
        omega
      refine ⟨t.rest.take (min len t.lenInCurPacket).toNat,?_⟩
      conv => lhs; unfold passLoop
      rw [if_neg (by omega)]
      simp only [bind_apply,hres,Outcome.andThen_done,get_apply,hmin,hone,hpass,take,hsub]
    · cases hy

/-- When the call returns, `readVoid()` does, with the same state. -/
theorem passLoop_returns {len : ℤ} {s : State} {y : Iteration} (k : ℕ) {fuel : ℕ}
    (hc : Covered (len,s)) (hk : after k (len,s)=some y) (hy : y.1 ≤ 0) (hf : k < fuel) :
    ∃ bytes,passLoop (reserve 1) fuel len.toNat s=.done bytes y.2 := by
  induction k generalizing len s fuel with
  | zero =>
    cases hk
    obtain ⟨f,rfl⟩ : ∃ f,fuel=f+1 := ⟨fuel-1,by omega⟩
    refine ⟨[],?_⟩
    unfold passLoop
    rw [if_pos (by dsimp only at hy; omega)]
    rfl
  | succ k ih =>
    obtain ⟨f,rfl⟩ : ∃ f,fuel=f+1 := ⟨fuel-1,by omega⟩
    rw [Nat.add_comm,after_add] at hk
    obtain ⟨z,hz,hzk⟩ := Option.bind_eq_some_iff.mp hk
    have hnext : next (len,s)=some z := hz
    have hl : 0 < len := by
      by_contra hn
      have hnone : next (len,s)=none := if_pos (by dsimp only; omega)
      rw [hnone] at hnext
      cases hnext
    obtain ⟨hcz,-⟩ := next_covered hc hnext
    obtain ⟨bytes,hrest⟩ := ih hcz hzk (show k < f by omega)
    have hstep : ∃ bytes,passLoop (reserve 1) (f+1) len.toNat s=
        (passLoop (reserve 1) f z.1.toNat z.2).andThen (fun more => pure (bytes++more)) := by
      by_cases h : Entered s
      · exact passLoop_next f hl h h.reserve hc hnext
      · rcases next_used_up h hl with ⟨-,hnone,-⟩|⟨t,ht,hres,-,heq,hleft⟩
        · rw [hnone] at hnext
          cases hnext
        · refine passLoop_next f hl ht hres (Or.inr ?_) (heq ▸ hnext)
          intro n hn
          exact hc.resolve_left (by dsimp only; omega) n ((hleft n).mpr hn)
    obtain ⟨first,hstep⟩ := hstep
    exact ⟨first++bytes,by rw [hstep,hrest]; rfl⟩

/-- `readVoid()` returns when this loop does. -/
theorem readVoid_returns {len : ℤ} {s : State} {y : Iteration} {k : ℕ} (hl : 0 < len)
    (hc : Covered (len,s)) (hk : after k (len,s)=some y) (hy : y.1 ≤ 0) :
    readVoid len s=.done () y.2 := by
  obtain ⟨-,hlen⟩ := after_covered k hc hk
  obtain ⟨bytes,hpass⟩ := passLoop_returns k hc hk hy (show k < s.rest.length+1 by
    dsimp only at hlen
    omega)
  unfold readVoid
  rw [bind_apply,get_apply,Outcome.andThen_done,if_neg (by omega),bind_apply,hpass]
  rfl

/-! ## Progress -/

/-- Skipping bytes makes progress if and only if there is nothing to skip, or not more
than is left of the payload. -/
theorem readVoidAsync_progresses_iff (len : ℤ) (s : State) :
    Progresses (len,s) ↔ Covered (len,s) := by
  constructor
  · intro h
    by_contra hc
    obtain ⟨k,hk⟩ := h.ends
    obtain ⟨y,hy,-⟩ := after_uncovered k hc
    rw [hk] at hy
    cases hy
  · intro hc
    constructor
    · refine ⟨s.rest.length+1,?_⟩
      cases hy : after (s.rest.length+1) (len,s) with
      | none => rfl
      | some y =>
        obtain ⟨-,hlen⟩ := after_covered _ hc hy
        dsimp only at hlen
        omega
    · intro i j a b hij ha hb he
      obtain ⟨d,rfl⟩ : ∃ d,j=i+(d+1) := ⟨j-i-1,by omega⟩
      rw [after_add,ha] at hb
      obtain ⟨hca,-⟩ := after_covered i hc ha
      obtain ⟨-,hlen⟩ := after_covered (d+1) hca hb
      rw [he.2] at hlen
      omega
    · intro k a hk ha
      obtain ⟨-,hlen⟩ := after_covered k hc ha
      omega

/-- A cell that is longer than its row: the packet has one byte, which says that five
bytes follow. They are skipped, and the call never ends. -/
theorem overlong_cell_never_skipped : ¬∀ (bytes : List UInt8) (closed : Bool) (len : ℤ) (s : State),
    (do readPacketHeader; readLenencInt : Read ℤ) {rest := bytes, closed}=.done len s →
      Progresses (len,s) := by
  intro h
  have hread : (do readPacketHeader; readLenencInt : Read ℤ)
      {rest := [1,0,0,0,5], closed := true}=
        .done 5 {before := [5,0,0,0,1], rest := [], closed := true, payloadLength := 1, packetOffset := 1, sequenceId := 1, totalBytesInPacket := 1, headers := [5]} := by
    decide +kernel
  have hp := h _ _ _ _ hread
  obtain ⟨k,hk⟩ := hp.ends
  have hc : ¬Covered (5,{before := [5,0,0,0,1], rest := [], closed := true, payloadLength := 1, packetOffset := 1, sequenceId := 1, totalBytesInPacket := 1, headers := [5]}) := by
    intro hc
    cases hc with
    | inl hc => exact absurd hc (by decide)
    | inr hc => exact absurd (hc 0 (by decide)) (by decide)
  obtain ⟨y,hy,-⟩ := after_uncovered k hc
  rw [hk] at hy
  cases hy

end SpiritMysql.SkippedBytes
