import Mathlib.Algebra.BigOperators.Intervals
import Mathlib.Algebra.Order.Field.Basic
import Mathlib.Algebra.Order.Field.Rat
import Mathlib.Tactic.Linarith
import SpiritMysql.ListUpdates

/-!
# Health of a server

`HealthStatus` counts successes and failures of each of the last sixty seconds: two
counts of 16 bits in a word of 32 bits, in a ring. The upper one is read with a shift
that is signed, so it is right below `2^15`.
-/

namespace SpiritMysql.Health

open ListUpdates

/-- `TRACK_HEALH_STATUS_FOR_PERIOD_SEC`. -/
def trackHealhStatusForPeriodSec : ℕ := 60

/-- The fields of `HealthStatus`. -/
structure HealthStatus where
  /-- `#data`. -/
  data : List ℕ := List.replicate trackHealhStatusForPeriodSec 0
  /-- `#i`: last recorded index. -/
  i : ℕ := 0
  /-- `#iSec`: when last recorded, in seconds. -/
  iSec : ℤ := 0
deriving DecidableEq, Repr

/-- What a division gives. -/
inductive Quotient where
  /-- `NaN`. -/
  | nan
  /-- `Infinity`. -/
  | infinity
  /-- A number, before it is rounded. -/
  | number (q : ℚ)
deriving DecidableEq, Repr

/-- `n / d`, when `n` is not negative. -/
def quotient (n d : ℤ) : Quotient :=
  if d=0 then if n=0 then .nan else .infinity else .number (n/d)

/-- `Math.trunc(now/1000)`. -/
def sec (now : ℕ) : ℤ := (now/1000 : ℕ)

/-- `value & 0xFFFF`. -/
def lower (value : ℕ) : ℤ := (value%0x10000 : ℕ)

/-- `value >> 16`. The operand is converted to a signed word. -/
def upper (value : ℕ) : ℤ :=
  if value < 2^31 then (value/0x10000 : ℕ) else (value/0x10000 : ℕ)-0x10000

/-- What an element of a `Uint32Array` is set to. -/
def toUint32 (value : ℤ) : ℕ := (value%2^32).toNat

/-- The loop of `log()` over the seconds that passed, when `iEnd-i` of them are left. -/
def clear : ℕ → ℕ → List ℕ → ℕ×List ℕ
  | 0,i,data => (i,data)
  | left+1,i,data =>
    let i := if i+1=trackHealhStatusForPeriodSec then 0 else i+1
    clear left i (data.set i 0)

/-- A word with one more success or failure. -/
def counted (ok : Bool) (value : ℕ) : ℕ :=
  if (if ok then lower value else upper value) < 0xFFFF then
    toUint32 (value+if ok then 1 else 0x10000)
  else if 0x8000 ≤ (if ok then upper value else lower value) then
    toUint32 (value-if ok then 0x10000 else 1)
  else value

/-- `log()` up to the word of the current second. -/
def HealthStatus.moved (h : HealthStatus) (now : ℕ) : HealthStatus :=
  let diff := sec now-h.iSec
  if trackHealhStatusForPeriodSec ≤ diff then
    {h with data := List.replicate h.data.length 0,iSec := sec now}
  else
    let (i,data) := clear diff.toNat h.i h.data
    {data,i,iSec := sec now}

/-- `log()`. -/
def HealthStatus.log (h : HealthStatus) (ok : Bool) (now : ℕ) : HealthStatus :=
  if 0 ≤ sec now-h.iSec then
    let h := h.moved now
    {h with data := h.data.set h.i (counted ok (h.data.getD h.i 0))}
  else h

/-- The loop of `getHealthStatusForPeriod()`, when `i-iEnd` seconds are left: `nOk` and
`nFail`. -/
def addUp (data : List ℕ) : ℕ → ℤ → ℤ×ℤ
  | 0,_ => (0,0)
  | left+1,i =>
    let i := if i < 0 then i+trackHealhStatusForPeriodSec else i
    let value := data.getD i.toNat 0
    let (nOk,nFail) := addUp data left (i-1)
    (lower value+nOk,upper value+nFail)

/-- `getHealthStatusForPeriod()`. -/
def HealthStatus.getHealthStatusForPeriod (h : HealthStatus) (periodSec : ℤ) (now : ℕ) : Quotient :=
  let diff := sec now-h.iSec
  let periodSec :=
    (if trackHealhStatusForPeriodSec < periodSec then (trackHealhStatusForPeriodSec : ℤ) else periodSec)-diff
  if periodSec ≤ 0 then .nan
  else
    let (nOk,nFail) := addUp h.data periodSec.toNat h.i
    quotient nOk (nOk+nFail)

/-- A call of a method. -/
inductive Call where
  /-- `log()`. -/
  | log (ok : Bool) (now : ℕ)
  /-- `getHealthStatusForPeriod()`. -/
  | getHealthStatusForPeriod (periodSec : ℤ) (now : ℕ)
deriving DecidableEq, Repr

/-- The time of a call. -/
def Call.now : Call → ℕ
  | .log _ now => now
  | .getHealthStatusForPeriod _ now => now

/-- The object after a call. -/
def HealthStatus.call (h : HealthStatus) : Call → HealthStatus
  | .log ok now => h.log ok now
  | .getHealthStatusForPeriod _ _ => h

/-- A new object after some calls. -/
def after (calls : List Call) : HealthStatus := calls.foldl HealthStatus.call {}

/-- The call logs such a result in one of these seconds. -/
def Call.logs (ok : Bool) (seconds : ℤ → Bool) : Call → Bool
  | .log ok' now => ok'==ok && seconds (sec now)
  | .getHealthStatusForPeriod _ _ => false

/-- How many results were logged in a second. -/
def count (ok : Bool) (calls : List Call) (t : ℤ) : ℕ := calls.countP (Call.logs ok (fun t' => t'==t))

/-- How many results were logged in the last seconds up to now. -/
def logged (ok : Bool) (calls : List Call) (p : ℕ) (now : ℕ) : ℕ :=
  calls.countP (Call.logs ok (fun t => decide (sec now-p < t ∧ t ≤ sec now)))

/-- The same, when a second counts up to 65535 of them. -/
def saturated (ok : Bool) (calls : List Call) (p : ℕ) (now : ℕ) : ℕ :=
  ∑ k ∈ Finset.range p,min 0xFFFF (count ok calls (sec now-k))

/-- What is expected of `getHealthStatusForPeriod()`. -/
structure Right (calls : List Call) (p now : ℕ) (result : Quotient) : Prop where
  /-- The part of successes in what was logged, when the counts fit. -/
  ratio : (∀ ok t,count ok calls t ≤ 0xFFFF) →
    result=quotient (logged true calls p now) (logged true calls p now+logged false calls p now)
  /-- The same with counts that saturate. -/
  saturates : result=
    quotient (saturated true calls p now) (saturated true calls p now+saturated false calls p now)
  /-- The result is not out of range. -/
  range : result=.nan ∨ ∃ q,result=.number q ∧ 0 ≤ q ∧ q ≤ 1

/-- How many seconds before the last recorded one an element is about. -/
def ago (i j : ℕ) : ℤ := if j ≤ i then i-j else i+trackHealhStatusForPeriodSec-j

/-- The word of a second. -/
def word (calls : List Call) (t : ℤ) : ℕ :=
  min 0xFFFF (count true calls t)+0x10000*count false calls t

/-- The ring holds the words of the last seconds, up to `iSec`. -/
structure Ring (calls : List Call) (i : ℕ) (data : List ℕ) (iSec : ℤ) : Prop where
  /-- There are sixty words. -/
  length : data.length=trackHealhStatusForPeriodSec
  /-- The index is one of them. -/
  index : i < trackHealhStatusForPeriodSec
  /-- Nothing was logged later. -/
  latest : ∀ ok t,iSec < t → count ok calls t=0
  /-- The words. -/
  words : ∀ j < trackHealhStatusForPeriodSec,data.getD j 0=word calls (iSec-ago i j)

/-- A second without results has a zero word. -/
theorem word_zero {calls : List Call} {t : ℤ} (h : ∀ ok,count ok calls t=0) : word calls t=0 := by
  rw [word,h true,h false]
  rfl

/-- The index of the next second. -/
theorem ago_next {i j n : ℕ} (hi : i < trackHealhStatusForPeriodSec)
    (hj : j < trackHealhStatusForPeriodSec)
    (hn : n=if i+1=trackHealhStatusForPeriodSec then 0 else i+1) :
    n < trackHealhStatusForPeriodSec ∧ ago n j=if j=n then 0 else ago i j+1 := by
  unfold ago
  by_cases hwrap : i+1=trackHealhStatusForPeriodSec
  · rw [if_pos hwrap] at hn
    subst hn
    split_ifs <;> omega
  · rw [if_neg hwrap] at hn
    subst hn
    split_ifs <;> omega

/-- A step of the loop: the next second has no results. -/
theorem Ring.tick {calls : List Call} {i n : ℕ} {data : List ℕ} {iSec : ℤ} (h : Ring calls i data iSec)
    (hn : n=if i+1=trackHealhStatusForPeriodSec then 0 else i+1) :
    Ring calls n (data.set n 0) (iSec+1) := by
  have hnext := (ago_next h.index h.index hn).1
  refine ⟨by rw [List.length_set,h.length],hnext,fun ok t ht => h.latest ok t (by omega),fun j hj => ?_⟩
  rw [getD_set (by rw [h.length]; exact hnext),(ago_next h.index hj hn).2]
  split_ifs with hsame
  · rw [word_zero fun ok => h.latest ok _ (by omega)]
  · rw [h.words j hj]
    congr 1
    omega

/-- The loop: no second that passed has results. -/
theorem Ring.clear {calls : List Call} (left : ℕ) {i : ℕ} {data : List ℕ} {iSec : ℤ}
    (h : Ring calls i data iSec) :
    Ring calls (clear left i data).1 (clear left i data).2 (iSec+left) := by
  induction left generalizing i data iSec with
  | zero =>
    rw [Nat.cast_zero,add_zero]
    exact h
  | succ left ih =>
    have hrest := ih (h.tick rfl)
    rw [Nat.cast_succ,add_comm (left : ℤ) 1,← add_assoc]
    exact hrest

/-- After a minute without results, all words are zero. -/
theorem Ring.fill {calls : List Call} {i : ℕ} {data : List ℕ} {iSec now : ℤ}
    (h : Ring calls i data iSec) (hd : trackHealhStatusForPeriodSec ≤ now-iSec) :
    Ring calls i (List.replicate data.length 0) now := by
  have hi := h.index
  simp only [trackHealhStatusForPeriodSec] at hd hi
  refine ⟨by rw [List.length_replicate,h.length],h.index,fun ok t ht => h.latest ok t (by omega),
    fun j hj => ?_⟩
  have hago : ago i j < 60 := by
    simp only [ago,trackHealhStatusForPeriodSec] at hj ⊢
    split_ifs <;> omega
  rw [word_zero fun ok => h.latest ok _ (by omega),List.getD_eq_getElem?_getD]
  rw [List.getElem?_replicate_of_lt (by rw [h.length]; exact hj),Option.getD_some]

/-- The ring reaches the second of a call. -/
theorem Ring.moved {calls : List Call} {h : HealthStatus} (hr : Ring calls h.i h.data h.iSec) {now : ℕ}
    (hd : 0 ≤ sec now-h.iSec) :
    Ring calls (h.moved now).i (h.moved now).data (h.moved now).iSec ∧ (h.moved now).iSec=sec now := by
  unfold HealthStatus.moved
  dsimp only
  split_ifs with hfar
  · exact ⟨hr.fill hfar,rfl⟩
  · have hc := hr.clear (sec now-h.iSec).toNat
    rw [Int.toNat_of_nonneg hd,add_sub_cancel] at hc
    exact ⟨hc,rfl⟩

/-- The parts of a word, while there are few failures. -/
theorem word_parts {calls : List Call} {t : ℤ} (hf : count false calls t ≤ 0x7FFF) :
    word calls t < 2^31 ∧ lower (word calls t)=(min 0xFFFF (count true calls t) : ℕ) ∧
      upper (word calls t)=(count false calls t : ℕ) := by
  have hlt : word calls t < 2^31 := by
    unfold word
    omega
  refine ⟨hlt,?_,?_⟩
  · unfold lower word
    congr 1
    omega
  · rw [upper,if_pos hlt]
    congr 1
    unfold word
    omega

/-- One more result in its own second. -/
theorem count_log (ok ok' : Bool) (calls : List Call) (now : ℕ) (t : ℤ) :
    count ok (calls++[.log ok' now]) t=count ok calls t+if ok'=ok ∧ sec now=t then 1 else 0 := by
  have hlast : Call.logs ok (fun t' => t'==t) (.log ok' now)=decide (ok'=ok ∧ sec now=t) := by
    rw [Bool.decide_and]
    rfl
  unfold count
  rw [List.countP_append,List.countP_singleton,hlast]
  simp only [decide_eq_true_eq]

/-- Reading logs nothing. -/
theorem count_get (ok : Bool) (calls : List Call) (periodSec : ℤ) (now : ℕ) (t : ℤ) :
    count ok (calls++[.getHealthStatusForPeriod periodSec now]) t=count ok calls t := by
  unfold count
  rw [List.countP_append,List.countP_singleton,Call.logs,if_neg Bool.false_ne_true,add_zero]

/-- The word with one more result, while there are few failures. -/
theorem counted_word {calls : List Call} {ok : Bool} {now : ℕ}
    (hf : count false (calls++[.log ok now]) (sec now) ≤ 0x7FFF) :
    counted ok (word calls (sec now))=word (calls++[.log ok now]) (sec now) := by
  have hc := count_log false ok calls now (sec now)
  have hf' : count false calls (sec now) ≤ 0x7FFF := by omega
  obtain ⟨hlt,hlower,hupper⟩ := word_parts hf'
  have hw : ∀ cs : List Call,word cs (sec now)=
      min 0xFFFF (count true cs (sec now))+0x10000*count false cs (sec now) := fun _ => rfl
  unfold counted
  rw [hlower,hupper,hw (calls++[_]),count_log,count_log]
  have hold := hw calls
  cases ok with
  | true =>
    simp only [if_true,true_and,Bool.true_eq_false,false_and,if_false,toUint32] at hc ⊢
    split_ifs <;> omega
  | false =>
    simp only [Bool.false_eq_true,if_false,true_and,false_and,if_true,toUint32] at hc ⊢
    split_ifs <;> omega

/-- The ring after a result was logged. -/
theorem Ring.log {calls : List Call} {h : HealthStatus} (hr : Ring calls h.i h.data h.iSec) {ok : Bool}
    {now : ℕ} (hd : 0 ≤ sec now-h.iSec)
    (hf : count false (calls++[.log ok now]) (sec now) ≤ 0x7FFF) :
    Ring (calls++[.log ok now]) (h.log ok now).i (h.log ok now).data (h.log ok now).iSec ∧
      (h.log ok now).iSec=sec now := by
  obtain ⟨hm,hs⟩ := hr.moved hd
  unfold HealthStatus.log
  rw [if_pos hd]
  refine ⟨⟨by rw [List.length_set,hm.length],hm.index,fun ok' t ht => ?_,fun j hj => ?_⟩,hs⟩
  · have hlater : sec now < t := by
      rw [← hs]
      exact ht
    rw [count_log,hm.latest ok' t ht,if_neg (fun he => absurd he.2 hlater.ne)]
  · have hself : ago (h.moved now).i (h.moved now).i=0 := by
      rw [ago,if_pos le_rfl,sub_self]
    have hvalue := hm.words _ hm.index
    rw [hself,hs,sub_zero] at hvalue
    rw [getD_set (by rw [hm.length]; exact hm.index)]
    split_ifs with hsame
    · rw [hvalue,hsame,hself,hs,sub_zero,counted_word hf]
    · have hother : sec now≠sec now-ago (h.moved now).i j := by
        have hi := hm.index
        simp only [ago,trackHealhStatusForPeriodSec] at hj hi ⊢
        split_ifs <;> omega
      rw [hm.words j hj,hs,word,word,count_log,count_log,if_neg (fun he => hother he.2),
        if_neg (fun he => hother he.2),add_zero,add_zero]

/-- The loop adds up the seconds from one of the last minute. -/
theorem addUp_eq {calls : List Call} {i : ℕ} {data : List ℕ} {iSec : ℤ} (h : Ring calls i data iSec)
    (hf : ∀ t,count false calls t ≤ 0x7FFF) (left : ℕ) {k : ℕ} (hk : k+left ≤ trackHealhStatusForPeriodSec)
    {j : ℤ} (hj : j=i-k ∨ j=i-k+trackHealhStatusForPeriodSec) (hlow : -1 ≤ j)
    (hhigh : j < trackHealhStatusForPeriodSec) :
    addUp data left j=
      (((∑ m ∈ Finset.range left,min 0xFFFF (count true calls (iSec-(k+m : ℕ))) : ℕ) : ℤ),
        ((∑ m ∈ Finset.range left,count false calls (iSec-(k+m : ℕ)) : ℕ) : ℤ)) := by
  induction left generalizing k j with
  | zero => rfl
  | succ left ih =>
    have hindex := h.index
    obtain ⟨n,hn⟩ : ∃ n,n=if j < 0 then j+trackHealhStatusForPeriodSec else j := ⟨_,rfl⟩
    have hplace : 0 ≤ n ∧ n < trackHealhStatusForPeriodSec ∧ ago i n.toNat=k ∧
        (n-1=i-(k+1 : ℕ) ∨ n-1=i-(k+1 : ℕ)+trackHealhStatusForPeriodSec) := by
      unfold ago
      by_cases hneg : j < 0
      · rw [if_pos hneg] at hn
        subst hn
        split_ifs <;> omega
      · rw [if_neg hneg] at hn
        subst hn
        split_ifs <;> omega
    obtain ⟨h0,hlt,hago,hnext⟩ := hplace
    have hrest := ih (by omega) hnext (by omega) (by omega)
    obtain ⟨-,hlower,hupper⟩ := word_parts (hf (iSec-k))
    have hvalue := h.words n.toNat (by omega)
    rw [hago] at hvalue
    simp only [addUp,← hn,hrest,hvalue,hlower,hupper]
    rw [Finset.sum_range_succ',Finset.sum_range_succ']
    have hshift : ∀ m : ℕ,k+1+m=k+(m+1) := fun m => by omega
    simp only [hshift,add_zero,Nat.cast_add,Prod.mk.injEq]
    constructor
    · exact add_comm _ _
    · exact add_comm _ _

/-- The object and what it was told: the ring holds the words, and nothing comes before
what was recorded last. -/
theorem after_ring {calls : List Call} {now : ℕ}
    (ht : (calls.map Call.now++[now]).Pairwise (· ≤ ·)) (hf : ∀ t,count false calls t ≤ 0x7FFF) :
    Ring calls (after calls).i (after calls).data (after calls).iSec ∧ (after calls).iSec ≤ sec now := by
  induction calls using List.reverseRecOn generalizing now with
  | nil =>
    refine ⟨⟨rfl,by decide,fun _ _ _ => rfl,fun j hj => ?_⟩,?_⟩
    · rw [word_zero fun _ => rfl]
      show (List.replicate trackHealhStatusForPeriodSec 0).getD j 0=0
      rw [List.getD_eq_getElem?_getD,List.getElem?_replicate_of_lt hj,Option.getD_some]
    · exact Int.natCast_nonneg _
  | append_singleton calls call ih =>
    rw [List.map_append,List.map_singleton] at ht
    obtain ⟨hold,-,hlast⟩ := List.pairwise_append.mp ht
    have hnow : sec call.now ≤ sec now := by
      have hle := hlast call.now (List.mem_append_right _ (List.mem_singleton.mpr rfl)) now
        (List.mem_singleton.mpr rfl)
      exact Int.ofNat_le.mpr (Nat.div_le_div_right hle)
    have hfew : ∀ t,count false calls t ≤ 0x7FFF := by
      intro t
      refine le_trans ?_ (hf t)
      unfold count
      rw [List.countP_append]
      exact Nat.le_add_right _ _
    obtain ⟨hr,hle⟩ := ih hold hfew
    have hafter : after (calls++[call])=(after calls).call call := by
      rw [after,List.foldl_append]
      rfl
    rw [hafter]
    cases call with
    | log ok now' =>
      obtain ⟨hlog,hsec⟩ := hr.log (sub_nonneg.mpr hle) (hf (sec now'))
      exact ⟨hlog,hsec.le.trans hnow⟩
    | getHealthStatusForPeriod periodSec now' =>
      refine ⟨⟨hr.length,hr.index,fun ok t ht => ?_,fun j hj => ?_⟩,hle.trans hnow⟩
      · rw [count_get]
        exact hr.latest ok t ht
      · rw [word,count_get,count_get]
        exact hr.words j hj

/-- What is in a window, by seconds. -/
theorem sum_count (ok : Bool) (calls : List Call) (p now : ℕ) :
    ∑ k ∈ Finset.range p,count ok calls (sec now-k)=logged ok calls p now := by
  induction calls with
  | nil => exact Finset.sum_eq_zero (fun _ _ => rfl)
  | cons call calls ih =>
    have hone : ∀ (q : ℕ) (t : ℤ),(∑ k ∈ Finset.range q,if t=sec now-k then 1 else 0)=
        if sec now-q < t ∧ t ≤ sec now then 1 else 0 := by
      intro q t
      induction q with
      | zero =>
        rw [Finset.sum_range_zero,if_neg (by omega)]
      | succ q ihq =>
        rw [Finset.sum_range_succ,ihq]
        split_ifs <;> omega
    unfold count logged at ih ⊢
    simp only [List.countP_cons,Finset.sum_add_distrib,ih]
    congr 1
    cases call with
    | log ok' now' =>
      simp only [Call.logs,Bool.and_eq_true,beq_iff_eq,decide_eq_true_eq]
      by_cases hok : ok'=ok
      · simp only [hok,true_and]
        exact hone p (sec now')
      · simp only [hok,false_and,if_false]
        exact Finset.sum_const_zero
    | getHealthStatusForPeriod _ _ =>
      simp only [Call.logs,Bool.false_eq_true,if_false]
      exact Finset.sum_const_zero

/-- A quotient of counts is not out of range. -/
theorem quotient_range (s f : ℕ) :
    quotient s ((s : ℤ)+f)=.nan ∨ ∃ q,quotient s ((s : ℤ)+f)=.number q ∧ 0 ≤ q ∧ q ≤ 1 := by
  unfold quotient
  by_cases hz : (s : ℤ)+f=0
  · left
    rw [if_pos hz,if_pos (by omega)]
  · right
    rw [if_neg hz]
    have hpos : (0 : ℚ) < ((s : ℤ)+f : ℤ) := by
      have hp : (0 : ℤ) < s+f := by omega
      exact_mod_cast hp
    refine ⟨_,rfl,?_,?_⟩
    · exact div_nonneg (by exact_mod_cast Nat.zero_le s) hpos.le
    · rw [div_le_one hpos]
      have hle : (s : ℤ) ≤ s+f := by omega
      exact_mod_cast hle

/-- A window after what was recorded last, and what the ring holds of it. -/
theorem saturated_later {calls : List Call} {iSec : ℤ} (h : ∀ ok t,iSec < t → count ok calls t=0)
    (ok : Bool) {d : ℕ} (now : ℕ) (hd : sec now=iSec+d) (q : ℕ) :
    saturated ok calls (d+q) now=∑ m ∈ Finset.range q,min 0xFFFF (count ok calls (iSec-(0+m : ℕ))) := by
  unfold saturated
  rw [Finset.sum_range_add]
  have hlater : ∑ k ∈ Finset.range d,min 0xFFFF (count ok calls (sec now-k))=0 := by
    refine Finset.sum_eq_zero (fun k hk => ?_)
    have hlt := Finset.mem_range.mp hk
    rw [h ok _ (by omega),Nat.min_zero]
  rw [hlater,zero_add]
  refine Finset.sum_congr rfl (fun m _ => ?_)
  have hsame : sec now-(d+m : ℕ)=iSec-(0+m : ℕ) := by
    push_cast
    omega
  rw [hsame]

/-- The result with counts that saturate. -/
theorem get_saturated {calls : List Call} {p now : ℕ}
    (ht : (calls.map Call.now++[now]).Pairwise (· ≤ ·)) (hp : p ≤ trackHealhStatusForPeriodSec)
    (hf : ∀ t,count false calls t ≤ 0x7FFF) :
    (after calls).getHealthStatusForPeriod p now=
      quotient (saturated true calls p now) (saturated true calls p now+saturated false calls p now) := by
  obtain ⟨hr,hle⟩ := after_ring ht hf
  obtain ⟨d,hd⟩ : ∃ d : ℕ,sec now=(after calls).iSec+d :=
    ⟨(sec now-(after calls).iSec).toNat,by omega⟩
  have hdiff : sec now-(after calls).iSec=d := by omega
  have hclamp : (if (trackHealhStatusForPeriodSec : ℤ) < p then (trackHealhStatusForPeriodSec : ℤ) else p)=p :=
    if_neg (by omega)
  unfold HealthStatus.getHealthStatusForPeriod
  simp only [hdiff,hclamp]
  by_cases hout : (p : ℤ)-d ≤ 0
  · have hnone : ∀ ok,saturated ok calls p now=0 := by
      intro ok
      refine Finset.sum_eq_zero (fun k hk => ?_)
      have hlt := Finset.mem_range.mp hk
      rw [hr.latest ok _ (by omega),Nat.min_zero]
    rw [if_pos hout,hnone true,hnone false]
    rfl
  · obtain ⟨q,rfl⟩ : ∃ q,p=d+q := ⟨p-d,by omega⟩
    have hq : (((d+q : ℕ) : ℤ)-d).toNat=q := by omega
    have hsum := addUp_eq hr hf q (k:=0) (by omega) (j:=(after calls).i) (by omega) (by omega)
      (by have hi := hr.index; omega)
    have hfew : ∀ t,min 0xFFFF (count false calls t)=count false calls t :=
      fun t => Nat.min_eq_right ((hf t).trans (by decide))
    rw [if_neg hout,hq,hsum,saturated_later hr.latest true now hd,saturated_later hr.latest false now hd]
    simp only [hfew]

/-- In every run the result is right, when no second has more than 32767 failures. -/
theorem health_right (calls : List Call) (p now : ℕ)
    (ht : (calls.map Call.now++[now]).Pairwise (· ≤ ·)) (hp : 1 ≤ p ∧ p ≤ trackHealhStatusForPeriodSec)
    (hf : ∀ t,count false calls t ≤ 0x7FFF) :
    Right calls p now ((after calls).getHealthStatusForPeriod p now) := by
  have hs := get_saturated ht hp.2 hf
  refine ⟨fun hall => ?_,hs,?_⟩
  · have hcount : ∀ ok,saturated ok calls p now=logged ok calls p now := by
      intro ok
      rw [← sum_count]
      exact Finset.sum_congr rfl (fun k _ => Nat.min_eq_right (hall ok _))
    rw [hs,hcount true,hcount false]
  · rw [hs]
    exact quotient_range _ _

/-- Two successes and a failure of the same second, a second later. -/
theorem health_right_later :
    Right [.log true 5000,.log false 5400,.log true 5999] 2 6000
      ((after [.log true 5000,.log false 5400,.log true 5999]).getHealthStatusForPeriod 2 6000) := by
  refine health_right _ 2 6000 (by decide) (by decide) (fun t => ?_)
  exact List.countP_le_length.trans (by decide)

/-- Failures of one second after a success. -/
theorem fails_state {m n : ℕ} (h : m+n ≤ 0x8000) :
    (List.replicate n (Call.log false 0)).foldl HealthStatus.call
      {data := (1+0x10000*m)::List.replicate 59 0}={data := (1+0x10000*(m+n))::List.replicate 59 0} := by
  induction n generalizing m with
  | zero => rfl
  | succ n ih =>
    have hcounted : counted false (1+0x10000*m)=1+0x10000*(m+1) := by
      simp only [counted,upper,toUint32,Bool.false_eq_true,if_false]
      split_ifs <;> omega
    have hone : HealthStatus.call {data := (1+0x10000*m)::List.replicate 59 0} (.log false 0)=
        {data := (1+0x10000*(m+1))::List.replicate 59 0} := by
      show HealthStatus.mk (counted false (1+0x10000*m)::List.replicate 59 0) 0 0=_
      rw [hcounted]
    have hrest := ih (m:=m+1) (by omega)
    rw [Nat.add_assoc,Nat.add_comm 1 n] at hrest
    rw [← hrest,← hone]
    rfl

/-- A success, and failures of the same second. -/
theorem after_fails {n : ℕ} (h : n ≤ 0x8000) :
    after (.log true 0::List.replicate n (.log false 0))={data := (1+0x10000*n)::List.replicate 59 0} := by
  have hrest := fails_state (m:=0) (n:=n) (by omega)
  have hfirst : HealthStatus.call {} (.log true 0)={data := (1+0x10000*0)::List.replicate 59 0} := by
    decide +kernel
  rw [Nat.zero_add] at hrest
  rw [after,List.foldl_cons,hfirst,hrest]

/-- With 32768 failures and a success in a second, the result is negative. -/
theorem health_negative :
    ¬(∀ (calls : List Call) (p now : ℕ),(calls.map Call.now++[now]).Pairwise (· ≤ ·) →
      1 ≤ p ∧ p ≤ trackHealhStatusForPeriodSec → (∀ ok t,count ok calls t ≤ 0xFFFF) →
        Right calls p now ((after calls).getHealthStatusForPeriod p now)) := by
  intro h
  obtain ⟨n,hn⟩ : ∃ n : ℕ,n=0x8000 := ⟨_,rfl⟩
  have htimes : ((Call.log true 0::List.replicate n (.log false 0)).map Call.now++[0]).Pairwise (· ≤ ·) := by
    have hall : (Call.log true 0::List.replicate n (.log false 0)).map Call.now=List.replicate (n+1) 0 := by
      rw [List.map_cons,List.map_replicate]
      rfl
    rw [hall,← List.replicate_succ']
    exact List.pairwise_replicate.mpr (Or.inr le_rfl)
  have hcounts : ∀ ok t,count ok (Call.log true 0::List.replicate n (.log false 0)) t ≤ 0xFFFF := by
    intro ok t
    refine List.countP_le_length.trans ?_
    rw [List.length_cons,List.length_replicate]
    omega
  have hvalue : HealthStatus.getHealthStatusForPeriod {data := (1+0x10000*n)::List.replicate 59 0} 1 0=
      .number (-1/32767) := by
    rw [hn]
    decide +kernel
  have hright := (h _ 1 0 htimes (by decide) hcounts).range
  rw [after_fails hn.le,Nat.cast_one,hvalue] at hright
  rcases hright with hr | ⟨q,hr,hq,-⟩
  · cases hr
  · cases hr
    exact absurd hq (by norm_num)

end SpiritMysql.Health
