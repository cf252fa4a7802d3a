import Mathlib.Data.List.Infix
import SpiritMysql.LogLimits

/-!
# When logged text is right

What is logged of chunks is found from where the line limit is met. It is the longest part
that the limits allow exactly if the chunks are cut in a harmless way.
-/

namespace SpiritMysql.LogLimits

open ColoredSql LineEnds

section Lines

/-- A byte after a carriage return counts as any other if it is no line feed. -/
theorem count_after {c d : UInt8} (h : ¬(c=13∧d=10)) (rest : List UInt8) :
    count (c == 13) (d::rest)=count false (d::rest) := by
  by_cases hc : c=13
  · have hd : d≠10 := fun hd => h ⟨hc,hd⟩
    simp only [count,isEnd,beq_eq_false_iff_ne.mpr hd,Bool.false_and]
  · rw [beq_eq_false_iff_ne.mpr hc]

theorem position_after {c d : UInt8} (h : ¬(c=13∧d=10)) (rest : List UInt8) (k : ℕ) :
    position (c == 13) (d::rest) k=position false (d::rest) k := by
  by_cases hc : c=13
  · have hd : d≠10 := fun hd => h ⟨hc,hd⟩
    simp only [position,isEnd,beq_eq_false_iff_ne.mpr hd,Bool.false_and]
  · rw [beq_eq_false_iff_ne.mpr hc]

theorem isEnd_iff (c : UInt8) : isEnd false c=true↔c=13∨c=10 := by
  simp only [isEnd,Bool.not_false,Bool.and_true,Bool.or_eq_true,beq_iff_eq]

/-- Both bytes of a pair are one line end. -/
theorem count_pair (rest : List UInt8) : count false (13::10::rest)=count false rest+1 := rfl

theorem position_pair (rest : List UInt8) {k : ℕ} (h : 1 < k) :
    position false (13::10::rest) k=position false rest (k-1)+2 := by
  have he : isEnd false 13=true := rfl
  have ho : ¬isEnd true 10=true := by decide
  have hk : ¬k ≤ 1 := by omega
  rw [position_end he,if_neg hk]
  exact congrArg (·+1) (position_other ho rest (k-1))

/-- The loop finds the line end that reaches the limit. -/
theorem countLines_eq {maxLines : ℕ} (data : List UInt8) (lines i : ℕ)
    (h : lines < maxLines) :
    countLines maxLines data lines i=
      if lines+count false data < maxLines then (lines+count false data,none)
      else (maxLines,some (i+position false data (maxLines-lines))) := by
  induction data, lines, i using countLines.induct maxLines with
  | case1 lines i =>
    rw [countLines,count,Nat.add_zero,if_pos h]
  | case2 c rest lines i hc hmax =>
    have he := (isEnd_iff c).mpr hc
    have hl : lines+1=maxLines := by omega
    rw [countLines.eq_def]
    dsimp only
    rw [if_pos hc,if_pos hmax,count_end he,position_end he,if_neg (by omega),
      if_pos (by omega),hl,Nat.add_zero]
  | case3 c lines i hc hmax =>
    have he := (isEnd_iff c).mpr hc
    rw [countLines,if_pos hc,if_neg hmax,count_end he,count,if_pos (by omega)]
  | case4 c lines i hc hmax d tail hpair ih =>
    obtain ⟨rfl,rfl⟩ := hpair
    have hl : lines+1+count false tail=lines+(count false tail+1) := by omega
    have hp : i+2+position false tail (maxLines-(lines+1))=
        i+(position false tail (maxLines-lines-1)+2) := by
      rw [Nat.sub_sub]
      omega
    rw [countLines,if_pos hc,if_neg hmax,if_pos ⟨rfl,rfl⟩,ih (by omega),count_pair,
      position_pair tail (by omega),hl,hp]
  | case5 c lines i hc hmax d tail hpair ih =>
    have he := (isEnd_iff c).mpr hc
    have hl : lines+1+count false (d::tail)=lines+(count false (d::tail)+1) := by omega
    have hp : i+1+position false (d::tail) (maxLines-(lines+1))=
        i+(position false (d::tail) (maxLines-lines-1)+1) := by
      rw [Nat.sub_sub]
      omega
    rw [countLines,if_pos hc,if_neg hmax,if_neg hpair,ih (by omega),count_end he,
      position_end he,count_after hpair,position_after hpair,
      if_neg (by omega : ¬maxLines-lines ≤ 1),hl,hp]
  | case6 c rest lines i hc ih =>
    have ho : ¬isEnd false c=true := fun he => hc ((isEnd_iff c).mp he)
    have hcr : (c == 13)=false := beq_eq_false_iff_ne.mpr (fun he => hc (Or.inl he))
    have hp : i+1+position false rest (maxLines-lines)=
        i+(position false rest (maxLines-lines)+1) := by omega
    rw [countLines.eq_def]
    dsimp only
    rw [if_neg hc,ih h,count_other ho,position_other ho,hcr,hp]

end Lines

section Parts

/-- A part of a text that goes on with these bytes. -/
theorem subarray_eq_take {T l m : List UInt8} {i j : ℕ} (hT : T.drop i=l++m)
    (hj : j ≤ i+l.length) : subarray T i j=l.take (j-i) := by
  rw [subarray,List.drop_take,hT,List.take_append_of_le_length (by omega)]

/-- Two parts that touch. -/
theorem subarray_touch (T : List UInt8) {i j k : ℕ} (hij : i ≤ j) (hjk : j ≤ k) :
    subarray T i j++subarray T j k=subarray T i k := by
  have h := subarray_append (T.take k) hij
  rwa [subarray,List.take_take,Nat.min_eq_left hjk] at h

theorem subarray_none (T : List UInt8) {i j : ℕ} (h : j ≤ i) : subarray T i j=[] := by
  apply List.drop_eq_nil_of_le
  rw [List.length_take]
  omega

/-- What comes up to the byte limit, in a part and after it. -/
theorem subarray_limited (T : List UInt8) (limit : ℕ) {i j : ℕ} (h : i ≤ j) :
    subarray T i (min limit j)++subarray T j limit=subarray T i limit := by
  by_cases hj : j ≤ limit
  · rw [Nat.min_eq_right hj]
    exact subarray_touch T h hj
  · have hn : subarray T j limit=[] := subarray_none T (by omega)
    rw [Nat.min_eq_left (by omega),hn,List.append_nil]

end Parts

section Chunks

/-- The state after the chunk, whatever is logged of it. -/
def State.counted (st : State) (curDataLen : ℤ) (curNFullLines : ℕ) : State :=
  {st with curDataLen := curDataLen, curNFullLines := curNFullLines}

/-- The byte limit, for a chunk that starts at `i`. -/
theorem byte_limit {T chunk rest : List UInt8} {i limit : ℕ} (hT : T.drop i=chunk++rest) :
    (if (limit : ℤ)-((i : ℤ)+(chunk.length : ℤ)) < 0 then
      chunk.take ((chunk.length : ℤ)+((limit : ℤ)-((i : ℤ)+(chunk.length : ℤ)))).toNat
      else chunk)=subarray T i (min limit (i+chunk.length)) := by
  rw [subarray_eq_take hT (by omega)]
  split_ifs with h
  · congr 1
    omega
  · rw [List.take_of_length_le (by omega)]

variable {maxLines : ℕ} {st : State} {T chunk rest : List UInt8} {i : ℕ}

/-- A chunk that does not reach the line limit. -/
theorem countChunk_below (hi : st.curDataLen=i) (hT : T.drop i=chunk++rest)
    (h : st.curNFullLines+count false chunk < maxLines) :
    countChunk maxLines st chunk=
      (st.counted ((i+chunk.length : ℕ) : ℤ) (st.curNFullLines+count false chunk),
        subarray T i (min st.limit (i+chunk.length))) := by
  unfold countChunk
  rw [if_pos (by omega : st.curNFullLines < maxLines),countLines_eq _ _ _ (by omega),if_pos h,
    hi]
  dsimp only
  rw [byte_limit hT]
  rfl

/-- A chunk that reaches the line limit. -/
theorem countChunk_hit (hi : st.curDataLen=i) (hT : T.drop i=chunk++rest)
    (hn : st.curNFullLines < maxLines) (h : ¬st.curNFullLines+count false chunk < maxLines) :
    countChunk maxLines st chunk=(st.counted ((i+chunk.length : ℕ) : ℤ) maxLines,
      subarray T i (i+position false chunk (maxLines-st.curNFullLines))) := by
  have hp := position_le false chunk (maxLines-st.curNFullLines)
  unfold countChunk
  rw [if_pos hn,countLines_eq _ _ _ hn,if_neg h,hi]
  dsimp only
  rw [subarray_eq_take hT (by omega),Nat.zero_add,Nat.add_sub_cancel_left]
  rfl

/-- A chunk after the line limit was reached. -/
theorem countChunk_later (hi : st.curDataLen=i) (hT : T.drop i=chunk++rest)
    (hn : maxLines ≤ st.curNFullLines) :
    countChunk maxLines st chunk=
      (st.counted ((i+chunk.length : ℕ) : ℤ) st.curNFullLines,
        subarray T i (min st.limit (i+chunk.length))) := by
  unfold countChunk
  rw [if_neg (by omega : ¬st.curNFullLines < maxLines),hi]
  dsimp only
  rw [byte_limit hT]
  rfl

/-- Chunks one after another, without the white space. -/
def countAll (maxLines : ℕ) : State → List (List UInt8) → State × List UInt8
  | st,[] => (st,[])
  | st,chunk::chunks =>
    let (st,data) := countChunk maxLines st chunk
    let (st,rest) := countAll maxLines st chunks
    (st,data++rest)

theorem State.counted_len (st : State) (a : ℤ) (n : ℕ) : (st.counted a n).curDataLen=a := rfl

/-- What comes after a chunk. -/
theorem drop_next (hT : T.drop i=chunk++rest) : T.drop (i+chunk.length)=rest := by
  rw [← List.drop_drop,hT,List.drop_left]

/-- After the line limit was reached, only the byte limit counts. -/
theorem countAll_later {chunks : List (List UInt8)} (hi : st.curDataLen=i)
    (hT : T.drop i=chunks.flatten) (hn : maxLines ≤ st.curNFullLines) :
    countAll maxLines st chunks=
      (st.counted ((i+chunks.flatten.length : ℕ) : ℤ) st.curNFullLines,
        subarray T i st.limit) := by
  induction chunks generalizing st i with
  | nil =>
    have hlen := congrArg List.length hT
    rw [List.length_drop,List.flatten_nil,List.length_nil] at hlen
    have hnone : subarray T i st.limit=[] := by
      apply List.drop_eq_nil_of_le
      rw [List.length_take]
      omega
    rw [countAll,hnone,List.flatten_nil,List.length_nil,Nat.add_zero,← hi]
    rfl
  | cons chunk chunks ih =>
    rw [List.flatten_cons] at hT
    rw [countAll,countChunk_later hi hT hn]
    dsimp only
    rw [ih (st.counted_len _ _) (drop_next hT) hn,List.flatten_cons,List.length_append]
    dsimp only [State.counted]
    rw [subarray_limited T st.limit (by omega),Nat.add_assoc]

/-- What is logged of chunks. -/
theorem countAll_none {chunks : List (List UInt8)} (hi : st.curDataLen=i)
    (hT : T.drop i=chunks.flatten) (hn : st.curNFullLines < maxLines)
    (h : lineHit maxLines st.curNFullLines i chunks=none) :
    ∃ n,n < maxLines∧countAll maxLines st chunks=
      (st.counted ((i+chunks.flatten.length : ℕ) : ℤ) n,subarray T i st.limit) := by
  induction chunks generalizing st i with
  | nil =>
    have hlen := congrArg List.length hT
    rw [List.length_drop,List.flatten_nil,List.length_nil] at hlen
    have hnone : subarray T i st.limit=[] := by
      apply List.drop_eq_nil_of_le
      rw [List.length_take]
      omega
    refine ⟨st.curNFullLines,hn,?_⟩
    rw [countAll,hnone,List.flatten_nil,List.length_nil,Nat.add_zero,← hi]
    rfl
  | cons chunk chunks ih =>
    rw [List.flatten_cons] at hT
    unfold lineHit at h
    by_cases hc : st.curNFullLines+count false chunk < maxLines
    · rw [if_pos hc] at h
      obtain ⟨n,hlt,hrun⟩ := ih
        (st.counted_len ((i+chunk.length : ℕ) : ℤ) (st.curNFullLines+count false chunk))
        (drop_next hT) hc h
      refine ⟨n,hlt,?_⟩
      rw [countAll,countChunk_below hi hT hc]
      dsimp only
      rw [hrun,List.flatten_cons,List.length_append]
      dsimp only [State.counted]
      rw [subarray_limited T st.limit (by omega),Nat.add_assoc]
    · rw [if_neg hc] at h
      cases h

theorem countAll_hit {chunks : List (List UInt8)} {a p e : ℕ} (hi : st.curDataLen=i)
    (hT : T.drop i=chunks.flatten) (hn : st.curNFullLines < maxLines)
    (h : lineHit maxLines st.curNFullLines i chunks=some (a,p,e)) :
    i ≤ a∧a ≤ p∧p < e∧e ≤ T.length∧countAll maxLines st chunks=
      (st.counted ((i+chunks.flatten.length : ℕ) : ℤ) maxLines,
        subarray T i (min st.limit a)++(subarray T a p++subarray T e st.limit)) := by
  induction chunks generalizing st i with
  | nil => cases h
  | cons chunk chunks ih =>
    rw [List.flatten_cons] at hT
    unfold lineHit at h
    by_cases hc : st.curNFullLines+count false chunk < maxLines
    · rw [if_pos hc] at h
      obtain ⟨ha,hap,hpe,he,hrun⟩ := ih
        (st.counted_len ((i+chunk.length : ℕ) : ℤ) (st.curNFullLines+count false chunk))
        (drop_next hT) hc h
      refine ⟨by omega,hap,hpe,he,?_⟩
      rw [countAll,countChunk_below hi hT hc]
      dsimp only
      rw [hrun,List.flatten_cons,List.length_append]
      dsimp only [State.counted]
      have hl := subarray_limited T (min st.limit a) (by omega : i ≤ i+chunk.length)
      have hm : min (min st.limit a) (i+chunk.length)=min st.limit (i+chunk.length) := by omega
      rw [hm] at hl
      rw [← List.append_assoc,hl,Nat.add_assoc]
    · rw [if_neg hc] at h
      cases h
      have hlen := congrArg List.length hT
      rw [List.length_drop,List.length_append] at hlen
      have hpos := position_lt_length (b:=false) (l:=chunk)
        (by omega : 0 < maxLines-st.curNFullLines) (by omega)
      refine ⟨Nat.le_refl a,by omega,by omega,by omega,?_⟩
      rw [countAll,countChunk_hit hi hT hn hc]
      dsimp only
      rw [countAll_later (st.counted_len ((a+chunk.length : ℕ) : ℤ) maxLines)
        (drop_next hT) (Nat.le_refl maxLines),List.flatten_cons,List.length_append]
      dsimp only [State.counted]
      rw [subarray_none T (Nat.min_le_right st.limit a),List.nil_append,Nat.add_assoc]

/-- Without a line end that reaches the limit in the chunks, there is none in the text. -/
theorem count_of_none {chunks : List (List UInt8)} {lines : ℕ} (b : Bool)
    (hl : lines < maxLines) (h : lineHit maxLines lines i chunks=none) :
    lines+count b chunks.flatten < maxLines := by
  induction chunks generalizing lines i b with
  | nil => exact hl
  | cons chunk chunks ih =>
    unfold lineHit at h
    by_cases hc : lines+count false chunk < maxLines
    · rw [if_pos hc] at h
      have hle := count_after_le b chunk
      have hrest := ih (endsWithCR b chunk) hc h
      rw [List.flatten_cons,count_append]
      omega
    · rw [if_neg hc] at h
      cases h

/-- The line end that reaches the limit in the chunks is not later than in the text. -/
theorem hit_le_position {chunks : List (List UInt8)} {lines a p e k : ℕ} (b : Bool)
    (hl : lines < maxLines) (hk : maxLines ≤ lines+k)
    (h : lineHit maxLines lines i chunks=some (a,p,e)) :
    p ≤ i+position b chunks.flatten k := by
  induction chunks generalizing lines i k b with
  | nil => cases h
  | cons chunk chunks ih =>
    have hle := count_after_le b chunk
    unfold lineHit at h
    rw [List.flatten_cons]
    by_cases hc : lines+count false chunk < maxLines
    · rw [if_pos hc] at h
      have hrest := ih (k:=k-count b chunk) (endsWithCR b chunk) hc (by omega) h
      rw [position_append chunks.flatten (by omega)]
      omega
    · rw [if_neg hc] at h
      cases h
      have hp := position_le false chunk (maxLines-lines)
      by_cases hb : count b chunk < k
      · rw [position_append chunks.flatten hb]
        omega
      · have hm := position_mono b chunk (by omega : 0 < maxLines-lines)
          (by omega : maxLines-lines ≤ k)
        rw [position_append_left chunks.flatten (by omega) (by omega)]
        omega

end Chunks

section Cuts

variable {limit maxLines : ℕ} {T : List UInt8}

/-- Where the text is cut. -/
def cutAt (limit maxLines : ℕ) (T : List UInt8) : ℕ := min limit (position false T maxLines)

/-- The parts that the limits allow. -/
theorem allowed_iff (limit : ℕ) (hm : 0 < maxLines) {l : List UInt8} (h : l <+: T) :
    l.length ≤ limit∧count false l < maxLines↔l.length ≤ cutAt limit maxLines T := by
  have hlen := h.length_le
  have hc := count_take_lt false (l:=T) hm hlen
  rw [← List.prefix_iff_eq_take.mp h] at hc
  unfold cutAt
  omega

/-- What is right is the part up to the cut, with the ellipsis. -/
theorem right_iff {out : List Out} (hm : 0 < maxLines) :
    Right limit maxLines T out↔texts out=T.take (cutAt limit maxLines T)∧
      ellipses out=if texts out=T then [] else [(T.length : ℤ)] := by
  have hcut : cutAt limit maxLines T ≤ T.length := by
    have hp := position_le false T maxLines
    unfold cutAt
    omega
  have htake : (T.take (cutAt limit maxLines T)).length=cutAt limit maxLines T :=
    List.length_take_of_le hcut
  have hpart := List.take_prefix (cutAt limit maxLines T) T
  have hallowed := (allowed_iff limit hm hpart).mpr (Nat.le_of_eq htake)
  constructor
  · intro h
    refine ⟨?_,h.ellipsis⟩
    have hle := (allowed_iff limit hm h.beginning).mp ⟨h.bytes,h.lines⟩
    have hge := h.longest _ hpart hallowed.1 hallowed.2
    have he : (texts out).length=cutAt limit maxLines T := by omega
    rw [← he]
    exact List.prefix_iff_eq_take.mp h.beginning
  · rintro ⟨ht,he⟩
    refine ⟨?_,?_,?_,?_,he⟩
    · rw [ht]
      exact hpart
    · rw [ht]
      exact hallowed.1
    · rw [ht]
      exact hallowed.2
    · intro l hl hb hc
      rw [ht,htake]
      exact (allowed_iff limit hm hl).mp ⟨hb,hc⟩

/-- What is logged if the line limit is reached is not the whole text. -/
theorem hit_length (limit : ℕ) {a p e : ℕ} (hap : a ≤ p) (hpe : p < e) (he : e ≤ T.length) :
    (subarray T 0 (min limit a)++(subarray T a p++subarray T e limit)).length < T.length := by
  simp only [subarray,List.length_append,List.length_drop,List.length_take]
  omega

/-- When that is the part up to the cut. -/
theorem hit_right {a p e : ℕ} (hap : a ≤ p) (hpe : p < e) (he : e ≤ T.length)
    (hp : p ≤ position false T maxLines) :
    subarray T 0 (min limit a)++(subarray T a p++subarray T e limit)=
        T.take (cutAt limit maxLines T)↔
      limit ≤ a∧p=a∨a < limit∧p ≤ cutAt limit maxLines T∧
        subarray T e limit=subarray T p (cutAt limit maxLines T) := by
  have hcut : cutAt limit maxLines T ≤ T.length := by
    have hle := position_le false T maxLines
    unfold cutAt
    omega
  by_cases ha : limit ≤ a
  · have hm : min limit a=limit := Nat.min_eq_left ha
    have hnone : subarray T e limit=[] := subarray_none T (by omega)
    rw [hm,hnone,List.append_nil]
    constructor
    · intro h
      have hl := congrArg List.length h
      simp only [subarray,List.length_append,List.length_drop,List.length_take] at hl
      unfold cutAt at hl
      exact Or.inl ⟨ha,by omega⟩
    · rintro (⟨-,rfl⟩ | ⟨hlt,-,-⟩)
      · have hc : cutAt limit maxLines T=limit := by
          unfold cutAt
          omega
        rw [subarray_none T (Nat.le_refl p),List.append_nil,hc]
        rfl
      · omega
  · have hm : min limit a=a := Nat.min_eq_right (by omega)
    rw [hm,← List.append_assoc,subarray_touch T (Nat.zero_le a) hap]
    have htake : T.take (cutAt limit maxLines T)=subarray T 0 (cutAt limit maxLines T) := rfl
    constructor
    · intro h
      have hl := congrArg List.length h
      simp only [subarray,List.length_append,List.length_drop,List.length_take] at hl
      have hpc : p ≤ cutAt limit maxLines T := by omega
      rw [htake,← subarray_touch T (Nat.zero_le p) hpc] at h
      exact Or.inr ⟨by omega,hpc,List.append_cancel_left h⟩
    · rintro (⟨hle,-⟩ | ⟨-,hpc,he⟩)
      · omega
      · rw [he,subarray_touch T (Nat.zero_le p) hpc,htake]

/-- The state before the first chunk. -/
def State.counting (nParam : ℤ) (limit : ℕ) : State := ⟨nParam,0,0,limit⟩

theorem State.counting_len (nParam : ℤ) (limit : ℕ) :
    (State.counting nParam limit).curDataLen=((0 : ℕ) : ℤ) := rfl

theorem State.counting_limit (nParam : ℤ) (limit : ℕ) :
    (State.counting nParam limit).limit=limit := rfl

/-- What is logged of chunks. -/
def logged (limit maxLines : ℕ) (nParam : ℤ) (chunks : List (List UInt8)) :
    State × List UInt8 :=
  countAll maxLines (State.counting nParam limit) chunks

/-- The number in the ellipsis after chunks. -/
def closing (maxLines : ℕ) (st : State) : List ℤ :=
  if (st.limit : ℤ) < st.curDataLen∨maxLines ≤ st.curNFullLines then [st.curDataLen] else []

/-- What is logged if no line end reaches the limit. -/
theorem logged_none {chunks : List (List UInt8)} (nParam : ℤ) (limit : ℕ)
    (hm : 0 < maxLines) (h : lineHit maxLines 0 0 chunks=none) :
    (logged limit maxLines nParam chunks).2=
        chunks.flatten.take (cutAt limit maxLines chunks.flatten)∧
      ((logged limit maxLines nParam chunks).2=chunks.flatten↔chunks.flatten.length ≤ limit)∧
      closing maxLines (logged limit maxLines nParam chunks).1=
        if chunks.flatten.length ≤ limit then [] else [(chunks.flatten.length : ℤ)] := by
  obtain ⟨n,hn,hrun⟩ := countAll_none (State.counting_len nParam limit)
    (List.drop_zero (l:=chunks.flatten)) hm h
  have hcount := count_of_none false hm h
  rw [Nat.zero_add] at hcount
  have hp := position_eq_length hcount
  have hcut : cutAt limit maxLines chunks.flatten=min limit chunks.flatten.length := by
    rw [cutAt,hp]
  have htext : (logged limit maxLines nParam chunks).2=
      chunks.flatten.take (cutAt limit maxLines chunks.flatten) := by
    rw [logged,hrun,State.counting_limit,hcut,← List.take_take,List.take_length]
    rfl
  refine ⟨htext,?_,?_⟩
  · rw [htext,hcut,List.take_eq_self_iff]
    omega
  · rw [logged,hrun]
    simp only [closing,State.counted,State.counting,Nat.zero_add]
    by_cases hl : chunks.flatten.length ≤ limit
    · rw [if_pos hl,if_neg (by omega)]
    · rw [if_neg hl,if_pos (by omega)]

/-- What is logged if a line end reaches the limit. -/
theorem logged_hit {chunks : List (List UInt8)} {a p e : ℕ} (nParam : ℤ) (limit : ℕ)
    (hm : 0 < maxLines) (h : lineHit maxLines 0 0 chunks=some (a,p,e)) :
    (logged limit maxLines nParam chunks).2≠chunks.flatten∧
      ((logged limit maxLines nParam chunks).2=
          chunks.flatten.take (cutAt limit maxLines chunks.flatten)↔
        limit ≤ a∧p=a∨a < limit∧p ≤ cutAt limit maxLines chunks.flatten∧
          subarray chunks.flatten e limit=
            subarray chunks.flatten p (cutAt limit maxLines chunks.flatten))∧
      closing maxLines (logged limit maxLines nParam chunks).1=
        [(chunks.flatten.length : ℤ)] := by
  obtain ⟨-,hap,hpe,he,hrun⟩ := countAll_hit (State.counting_len nParam limit)
    (List.drop_zero (l:=chunks.flatten)) hm h
  have hpos := hit_le_position false hm (by omega : maxLines ≤ 0+maxLines) h
  rw [Nat.zero_add] at hpos
  rw [logged,hrun,State.counting_limit]
  refine ⟨?_,hit_right hap hpe he hpos,?_⟩
  · intro hc
    have hl := hit_length limit hap hpe he
    dsimp only at hc
    rw [hc] at hl
    exact Nat.lt_irrefl _ hl
  · simp only [closing,State.counted,State.counting,Nat.le_refl,or_true,if_true,Nat.zero_add]

/-- The last text is right exactly if its chunks are harmless. -/
theorem last_right_iff (limit maxLines : ℕ) (nParam : ℤ) (chunks : List (List UInt8))
    (out : List Out) (ht : texts out=(logged limit maxLines nParam chunks).2)
    (he : ellipses out=closing maxLines (logged limit maxLines nParam chunks).1) :
    Right limit maxLines chunks.flatten out↔CutHarmless limit maxLines chunks := by
  by_cases hm : 0 < maxLines
  · rw [right_iff hm,ht,he]
    cases h : lineHit maxLines 0 0 chunks with
    | none =>
      obtain ⟨htext,hall,hclose⟩ := logged_none nParam limit hm h
      have hharmless : CutHarmless limit maxLines chunks :=
        ⟨hm,fun i p e hs => by rw [h] at hs; cases hs⟩
      refine iff_of_true ⟨htext,?_⟩ hharmless
      rw [hclose]
      by_cases hl : chunks.flatten.length ≤ limit
      · rw [if_pos hl,if_pos (hall.mpr hl)]
      · rw [if_neg hl,if_neg (fun hc => hl (hall.mp hc))]
    | some hit =>
      obtain ⟨a,p,e⟩ := hit
      obtain ⟨hne,htext,hclose⟩ := logged_hit nParam limit hm h
      rw [hclose,if_neg hne,htext]
      constructor
      · rintro ⟨hcases,-⟩
        refine ⟨hm,?_⟩
        intro i q j hs
        rw [h] at hs
        cases hs
        exact hcases
      · intro hc
        exact ⟨hc.2 a p e h,rfl⟩
  · constructor
    · intro h
      have hl := h.lines
      omega
    · intro h
      exact absurd h.1 hm

/-- A text without an ellipsis is right exactly if nothing is cut. -/
theorem other_right_iff (limit maxLines : ℕ) (nParam : ℤ) (chunks : List (List UInt8))
    (out : List Out) (ht : texts out=(logged limit maxLines nParam chunks).2)
    (he : ellipses out=[]) :
    Right limit maxLines chunks.flatten out↔NothingCut limit maxLines chunks := by
  by_cases hm : 0 < maxLines
  · rw [right_iff hm,ht,he]
    cases h : lineHit maxLines 0 0 chunks with
    | none =>
      obtain ⟨htext,hall,-⟩ := logged_none nParam limit hm h
      constructor
      · rintro ⟨-,hc⟩
        refine ⟨hm,h,?_⟩
        by_cases hl : chunks.flatten.length ≤ limit
        · exact hl
        · rw [if_neg (fun hc => hl (hall.mp hc))] at hc
          cases hc
      · intro hc
        rw [if_pos (hall.mpr hc.2.2)]
        exact ⟨htext,rfl⟩
    | some hit =>
      obtain ⟨a,p,e⟩ := hit
      obtain ⟨hne,-,-⟩ := logged_hit nParam limit hm h
      rw [if_neg hne]
      constructor
      · rintro ⟨-,hc⟩
        cases hc
      · intro hc
        have hs := hc.2.1
        rw [h] at hs
        cases hs
  · constructor
    · intro h
      have hl := h.lines
      omega
    · intro h
      exact absurd h.1 hm

end Cuts

section Calls

theorem texts_append (a b : List Out) : texts (a++b)=texts a++texts b := List.flatMap_append

theorem ellipses_append (a b : List Out) : ellipses (a++b)=ellipses a++ellipses b :=
  List.filterMap_append

/-- What is printed is the text of chunks, without an ellipsis. -/
structure Logs (printed : State × List Out) (counted : State × List UInt8) : Prop where
  /-- The variables. -/
  state : printed.1=counted.1
  /-- The text. -/
  text : texts printed.2=counted.2
  /-- No ellipsis. -/
  ellipsis : ellipses printed.2=[]

/-- The trimmed chunks are the trimmed text. -/
theorem trimChunks_flatten (chunks : List (List UInt8)) :
    (trimChunks chunks).flatten=trimmed chunks := by
  induction chunks with
  | nil => rfl
  | cons chunk chunks ih =>
    unfold trimmed at ih ⊢
    rw [List.flatten_cons,List.dropWhile_append]
    unfold trimChunks
    dsimp only
    rw [List.flatten_cons]
    by_cases h : chunk.dropWhile isSpace=[]
    · rw [if_pos h,ih,h]
      rfl
    · have he : (chunk.dropWhile isSpace).isEmpty=false := List.isEmpty_eq_false_iff.mpr h
      rw [if_neg h,he]
      rfl

variable {maxLines : ℕ}

/-- A call that only logs a chunk. -/
def appendPlain (maxLines : ℕ) (st : State) (data : List UInt8) : State × List Out :=
  let (st,data) := countExceeding maxLines st data
  (st,[.text data])

theorem countChunk_len (maxLines : ℕ) (st : State) (data : List UInt8) :
    (countChunk maxLines st data).1.curDataLen=st.curDataLen+(data.length : ℤ) := rfl

/-- A chunk before others. -/
theorem Logs.cons {append : State → List UInt8 → State × List Out} {st : State}
    {chunk : List UInt8} {chunks : List (List UInt8)} {counted : State × List UInt8}
    {rest : State × List UInt8} (happend : append st chunk=(counted.1,[.text counted.2]))
    (hrest : Logs (appendAll append counted.1 chunks) rest) :
    Logs (appendAll append st (chunk::chunks)) (rest.1,counted.2++rest.2) := by
  unfold appendAll
  rw [happend]
  dsimp only
  constructor
  · exact hrest.state
  · rw [texts_append,hrest.text]
    simp only [texts,List.flatMap_cons,List.flatMap_nil,List.append_nil]
  · rw [ellipses_append,hrest.ellipsis]
    rfl

/-- Chunks after some text was logged. -/
theorem plain_later {st : State} (chunks : List (List UInt8)) (h : 0 < st.curDataLen) :
    Logs (appendAll (appendPlain maxLines) st chunks) (countAll maxLines st chunks) := by
  induction chunks generalizing st with
  | nil => exact ⟨rfl,rfl,rfl⟩
  | cons chunk chunks ih =>
    have hplain : appendPlain maxLines st chunk=((countChunk maxLines st chunk).1,
        [.text (countChunk maxLines st chunk).2]) := by
      unfold appendPlain countExceeding
      rw [if_neg (by omega)]
    have hlen := countChunk_len maxLines st chunk
    exact Logs.cons hplain (ih (by omega))

/-- Chunks from the beginning. -/
theorem plain_trimmed {st : State} (chunks : List (List UInt8)) (h : st.curDataLen=0) :
    Logs (appendAll (appendPlain maxLines) st chunks)
      (countAll maxLines st (trimChunks chunks)) := by
  induction chunks generalizing st with
  | nil => exact ⟨rfl,rfl,rfl⟩
  | cons chunk chunks ih =>
    have hplain : appendPlain maxLines st chunk=
        ((countChunk maxLines st (chunk.dropWhile isSpace)).1,
          [.text (countChunk maxLines st (chunk.dropWhile isSpace)).2]) := by
      unfold appendPlain countExceeding
      rw [if_pos h]
    have hlen := countChunk_len maxLines st (chunk.dropWhile isSpace)
    unfold trimChunks
    dsimp only
    by_cases he : chunk.dropWhile isSpace=[]
    · rw [if_pos he]
      apply Logs.cons hplain
      apply ih
      rw [hlen,h,he]
      rfl
    · rw [if_neg he]
      apply Logs.cons hplain
      apply plain_later
      have hpos := List.length_pos_iff.mpr he
      omega

theorem appendAll_cons (append : State → List UInt8 → State × List Out) (st : State)
    (chunk : List UInt8) (chunks : List (List UInt8)) :
    appendAll append st (chunk::chunks)=((appendAll append (append st chunk).1 chunks).1,
      (append st chunk).2++(appendAll append (append st chunk).1 chunks).2) := rfl

/-- Two ways to append chunks that are the same for all states that come up. -/
theorem appendAll_congr {append append' : State → List UInt8 → State × List Out}
    {Inv : State → Prop}
    (h : ∀ st chunk,Inv st → append st chunk=append' st chunk∧Inv (append st chunk).1)
    (chunks : List (List UInt8)) {st : State} (hst : Inv st) :
    appendAll append st chunks=appendAll append' st chunks∧
      Inv (appendAll append st chunks).1 := by
  induction chunks generalizing st with
  | nil => exact ⟨rfl,hst⟩
  | cons chunk chunks ih =>
    obtain ⟨heq,hinv⟩ := h st chunk hst
    obtain ⟨hall,hlast⟩ := ih hinv
    unfold appendAll
    rw [← heq]
    dsimp only
    rw [← hall]
    exact ⟨rfl,hlast⟩

variable (s : Limits)

/-- What is logged of a query. -/
theorem query_logs (chunks : List (List UInt8)) :
    Logs (appendAll (appendToQuery s) (State.fresh s) chunks)
      (logged s.queryMaxBytes s.maxLines (-1) (trimChunks chunks)) := by
  have hsame : ∀ (st : State) (chunk : List UInt8),st.limit=s.queryMaxBytes →
      appendToQuery s st chunk=appendPlain s.maxLines st chunk∧
        (appendToQuery s st chunk).1.limit=s.queryMaxBytes := by
    intro st chunk h
    have hst : {st with limit := s.queryMaxBytes}=st := by rw [← h]
    unfold appendToQuery
    rw [hst]
    exact ⟨rfl,h⟩
  have h := appendAll_congr hsame chunks (rfl : (State.fresh s).limit=s.queryMaxBytes)
  rw [h.1]
  exact plain_trimmed chunks rfl

/-- What is logged of a parameter with bytes. -/
theorem param_logs {st : State} {nParam : ℕ} (h : st.curNParam < nParam)
    (chunk : List UInt8) (chunks : List (List UInt8)) :
    Logs (logParam s st nParam (.bytes chunk chunks))
        (logged s.paramMaxBytes s.maxLines nParam (trimChunks (chunk::chunks)))∧
      (logParam s st nParam (.bytes chunk chunks)).1.curNParam=nParam := by
  have hsame : ∀ (st : State) (chunk : List UInt8),st.curNParam=nParam →
      appendToParam s nParam st chunk=appendPlain s.maxLines st chunk∧
        (appendToParam s nParam st chunk).1.curNParam=nParam := by
    intro st chunk he
    unfold appendToParam
    rw [if_neg (not_not_intro he.symm)]
    exact ⟨rfl,he⟩
  -- The first call resets the variables, and prints which parameter it is.
  have hfirst : appendToParam s nParam st chunk=
      ((appendPlain s.maxLines (State.counting nParam s.paramMaxBytes) chunk).1,
        .bind nParam::(appendPlain s.maxLines (State.counting nParam s.paramMaxBytes) chunk).2)
      := by
    unfold appendToParam
    rw [if_pos (by omega)]
    rfl
  have hplain : Logs (appendAll (appendPlain s.maxLines)
      (State.counting nParam s.paramMaxBytes) (chunk::chunks))
      (logged s.paramMaxBytes s.maxLines nParam (trimChunks (chunk::chunks))) :=
    plain_trimmed (chunk::chunks) (State.counting_len nParam s.paramMaxBytes)
  have hnext : (appendPlain s.maxLines (State.counting nParam s.paramMaxBytes)
      chunk).1.curNParam=nParam := rfl
  obtain ⟨hall,hlast⟩ := appendAll_congr hsame chunks hnext
  have hlog : logParam s st nParam (.bytes chunk chunks)=
      appendAll (appendToParam s nParam) st (chunk::chunks) := rfl
  rw [appendAll_cons] at hplain
  rw [hlog,appendAll_cons,hfirst]
  dsimp only
  rw [hall] at hlast ⊢
  exact ⟨⟨hplain.state,hplain.text,hplain.ellipsis⟩,hlast⟩

theorem start_ellipses (st : State) : ellipses (start s st).2=closing s.maxLines st := by
  unfold start closing
  split_ifs <;> rfl

theorem start_texts (st : State) : texts (start s st).2=[] := by
  unfold start
  split_ifs <;> rfl

/-- The variables are as in the beginning after each statement. -/
theorem stateAfter_fresh (earlier : List Statement) : stateAfter s earlier=State.fresh s := by
  cases earlier with
  | nil => rfl
  | cons statement earlier =>
    cases statement with
    | query chunks => rfl
    | execute params => rfl

/-- Parameters are right exactly if limits are met in the last one only, and harmlessly. -/
theorem params_right_iff (params : List Param) {st : State} {nParam : ℕ}
    (h : st.curNParam < nParam) :
    List.Forall₂ (RightParam s) params
        (closeLast (start s (logParams s st nParam params).1).2
          (logParams s st nParam params).2)↔
      ParamsHarmless s params := by
  induction params generalizing st nParam with
  | nil => exact iff_of_true List.Forall₂.nil trivial
  | cons param params ih =>
    cases params with
    | nil =>
      have hparts : closeLast (start s (logParams s st nParam [param]).1).2
          (logParams s st nParam [param]).2=
          [(logParam s st nParam param).2++(start s (logParam s st nParam param).1).2] := rfl
      rw [hparts,List.forall₂_cons]
      cases param with
      | number => exact iff_of_true ⟨trivial,List.Forall₂.nil⟩ trivial
      | bytes chunk chunks =>
        have hlogs := (param_logs s h chunk chunks).1
        have hright := last_right_iff s.paramMaxBytes s.maxLines nParam
          (trimChunks (chunk::chunks)) ((logParam s st nParam (.bytes chunk chunks)).2++
            (start s (logParam s st nParam (.bytes chunk chunks)).1).2)
          (by rw [texts_append,start_texts,List.append_nil,hlogs.text])
          (by rw [ellipses_append,start_ellipses,hlogs.ellipsis,List.nil_append,hlogs.state])
        rw [trimChunks_flatten] at hright
        exact (and_iff_left List.Forall₂.nil).trans hright
    | cons next params =>
      have hparts : closeLast (start s (logParams s st nParam (param::next::params)).1).2
          (logParams s st nParam (param::next::params)).2=
          (logParam s st nParam param).2::closeLast
            (start s (logParams s (logParam s st nParam param).1 (nParam+1)
              (next::params)).1).2
            (logParams s (logParam s st nParam param).1 (nParam+1) (next::params)).2 := rfl
      rw [hparts,List.forall₂_cons]
      cases param with
      | number =>
        have hst : (logParam s st nParam .number).1.curNParam < ((nParam+1 : ℕ) : ℤ) := by
          have he : (logParam s st nParam .number).1.curNParam=st.curNParam := rfl
          omega
        exact (and_iff_right trivial).trans (ih hst)
      | bytes chunk chunks =>
        obtain ⟨hlogs,hn⟩ := param_logs s h chunk chunks
        have hright := other_right_iff s.paramMaxBytes s.maxLines nParam
          (trimChunks (chunk::chunks)) _ hlogs.text hlogs.ellipsis
        rw [trimChunks_flatten] at hright
        exact and_congr hright (ih (by omega))

/-- What is logged of a statement, whatever was logged before, is the longest beginning
that the limits allow, and the ellipsis tells if something was cut off, exactly if its chunks
are cut harmlessly. -/
theorem logged_right_iff (earlier : List Statement) (statement : Statement) :
    RightStatement s statement (logStatement s (stateAfter s earlier) statement).2↔
      Harmless s statement := by
  rw [stateAfter_fresh]
  cases statement with
  | query chunks =>
    have hlogs := query_logs s chunks
    have hright := last_right_iff s.queryMaxBytes s.maxLines (-1) (trimChunks chunks)
      ((appendAll (appendToQuery s) (State.fresh s) chunks).2++
        (start s (appendAll (appendToQuery s) (State.fresh s) chunks).1).2)
      (by rw [texts_append,start_texts,List.append_nil,hlogs.text])
      (by rw [ellipses_append,start_ellipses,hlogs.ellipsis,List.nil_append,hlogs.state])
    rw [trimChunks_flatten] at hright
    constructor
    · rintro ⟨out,ho,hr⟩
      rw [← List.singleton_inj.mp ho] at hr
      exact hright.mp hr
    · intro hc
      exact ⟨_,rfl,hright.mpr hc⟩
  | execute params => exact params_right_iff s params (by simp only [State.fresh]; omega)

/-- A query of two lines in two chunks, of which one line is allowed. -/
theorem line_limit_forgotten :
    ¬RightStatement ⟨10,10,1⟩ (.query [[97,10],[98,99]])
      (logStatement ⟨10,10,1⟩ (stateAfter ⟨10,10,1⟩ []) (.query [[97,10],[98,99]])).2 := by
  have hrun : (logStatement ⟨10,10,1⟩ (stateAfter ⟨10,10,1⟩ [])
      (.query [[97,10],[98,99]])).2=[[.text [97],.text [98,99],.ellipsis 4]] := by decide
  rw [hrun]
  rintro ⟨out,ho,hr⟩
  have hb := hr.beginning
  rw [← List.singleton_inj.mp ho] at hb
  exact absurd hb (by decide)

end Calls

end SpiritMysql.LogLimits
