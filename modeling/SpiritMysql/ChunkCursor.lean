import Mathlib.Algebra.GroupWithZero.Nat
import Mathlib.Tactic.Common

/-!
# A cursor over a sequence cut into chunks

A long sequence travels as labelled chunks: every chunk but the last has
exactly `M` elements and the last one has fewer, so a sequence whose length
is a multiple of `M` ends with an empty chunk. The cursor stands inside one
chunk. It moves to the next chunk either because it runs out of elements, or
because it looks ahead near the end of a chunk and joins the next one.
-/

namespace SpiritMysql.ChunkCursor

variable {ι α : Type}

/-- What is left of the current chunk, and the chunks that follow it. -/
structure Cursor (ι α : Type) where
  /-- The elements left in the current chunk. -/
  cur : List α
  /-- The chunks after the current one, with their labels. -/
  nexts : List (ι×List α)

/-- All the elements that are left. -/
def Cursor.flatten (c : Cursor ι α) : List α := c.cur++c.nexts.flatMap Prod.snd

/-- Every chunk but the last is full, and the last one is not. -/
def Regular (M : ℕ) : List (ι×List α)→Prop
  | [] => True
  | [p] => p.2.length < M
  | p::q::ps => p.2.length=M ∧ Regular M (q::ps)

/-- Join the next chunk to the current one. -/
def Cursor.pull (c : Cursor ι α) : Cursor ι α :=
  match c.nexts with
  | [] => c
  | p::ps => ⟨c.cur++p.2,ps⟩

/-- Look ahead for `k` elements, joining the next chunk when fewer are left. -/
def Cursor.reserve (k : ℕ) (c : Cursor ι α) : Cursor ι α :=
  if c.cur.length < k then c.pull else c

/-- Drop elements of the current chunk. -/
def Cursor.drop (n : ℕ) (c : Cursor ι α) : Cursor ι α := ⟨c.cur.drop n,c.nexts⟩

/-- Pass `n` elements, entering a following chunk only when it is needed. -/
def advance (n : ℕ) (cur : List α) : List (ι×List α)→Cursor ι α
  | [] => ⟨cur.drop n,[]⟩
  | p::ps => if n ≤ cur.length then ⟨cur.drop n,p::ps⟩ else advance (n-cur.length) p.2 ps

/-- Pass `n` elements of a cursor. -/
def Cursor.skip (n : ℕ) (c : Cursor ι α) : Cursor ι α := advance n c.cur c.nexts

/-- A single chunk is short. -/
theorem regular_singleton {M : ℕ} {p : ι×List α} : Regular M [p]↔p.2.length < M := Iff.rfl

/-- A full chunk and a short one. -/
theorem regular_pair {M : ℕ} {p q : ι×List α} : Regular M [p,q]↔p.2.length=M ∧ q.2.length < M :=
  Iff.rfl

/-- Passing nothing does not move a cursor. -/
@[simp] theorem advance_zero (cur : List α) (nexts : List (ι×List α)) :
    advance 0 cur nexts=⟨cur,nexts⟩ := by
  cases nexts with
  | nil => rfl
  | cons p ps => rw [advance,if_pos (Nat.zero_le _),List.drop_zero]

/-- Elements of the current chunk are passed within it. -/
theorem advance_of_le {n : ℕ} {cur : List α} (h : n ≤ cur.length) (nexts : List (ι×List α)) :
    advance n cur nexts=⟨cur.drop n,nexts⟩ := by
  cases nexts with
  | nil => rfl
  | cons p ps => rw [advance,if_pos h]

/-- Passing more than the current chunk has enters the next one. -/
theorem advance_of_lt {n : ℕ} {cur : List α} {p : ι×List α} (h : cur.length < n)
    (ps : List (ι×List α)) : advance n cur (p::ps)=advance (n-cur.length) p.2 ps := by
  rw [advance,if_neg (by omega)]

/-- The tail of a regular list of chunks is regular. -/
theorem Regular.tail {M : ℕ} {p : ι×List α} {ps : List (ι×List α)} (h : Regular M (p::ps)) :
    Regular M ps := by
  cases ps with
  | nil => trivial
  | cons q ps => exact h.2

/-- Joining a chunk loses nothing. -/
@[simp] theorem flatten_pull (c : Cursor ι α) : c.pull.flatten=c.flatten := by
  obtain ⟨cur,nexts⟩ := c
  cases nexts with
  | nil => rfl
  | cons p ps => simp only [Cursor.pull,Cursor.flatten,List.flatMap_cons,List.append_assoc]

/-- Looking ahead loses nothing. -/
@[simp] theorem flatten_reserve (k : ℕ) (c : Cursor ι α) : (c.reserve k).flatten=c.flatten := by
  unfold Cursor.reserve
  split
  · exact flatten_pull c
  · rfl

/-- Dropping from the current chunk drops from the whole sequence. -/
theorem flatten_drop {n : ℕ} {c : Cursor ι α} (h : n ≤ c.cur.length) :
    (c.drop n).flatten=c.flatten.drop n := by
  simp only [Cursor.drop,Cursor.flatten,List.drop_append_of_le_length h]

/-- Passing elements drops exactly them from the whole sequence. -/
theorem flatten_advance (n : ℕ) (cur : List α) (nexts : List (ι×List α)) :
    (advance n cur nexts).flatten=(cur++nexts.flatMap Prod.snd).drop n := by
  induction nexts generalizing n cur with
  | nil => simp only [advance,Cursor.flatten,List.flatMap_nil,List.append_nil]
  | cons p ps ih =>
    rw [advance]
    split
    · next h => simp only [Cursor.flatten,List.drop_append_of_le_length h]
    · next h =>
      rw [ih,List.flatMap_cons]
      conv_rhs => rw [List.drop_append,List.drop_eq_nil_of_le (by omega),List.nil_append]

/-- Passing elements of a cursor drops exactly them. -/
@[simp] theorem flatten_skip (n : ℕ) (c : Cursor ι α) : (c.skip n).flatten=c.flatten.drop n :=
  flatten_advance n c.cur c.nexts

/-- What a look-ahead reserves is in the current chunk, as far as the sequence
goes. -/
theorem le_reserve {M k n : ℕ} {c : Cursor ι α} (h : Regular M c.nexts) (hk : k ≤ M) (hn : n ≤ k)
    (hl : n ≤ c.flatten.length) : n ≤ (c.reserve k).cur.length := by
  obtain ⟨cur,nexts⟩ := c
  by_cases hc : cur.length < k
  · have hr : (Cursor.mk cur nexts).reserve k=(Cursor.mk cur nexts).pull := if_pos hc
    rw [hr]
    cases nexts with
    | nil => simpa only [Cursor.pull,Cursor.flatten,List.flatMap_nil,List.append_nil] using hl
    | cons p ps =>
      simp only [Cursor.pull,List.length_append]
      cases ps with
      | nil =>
        simp only [Cursor.flatten,List.flatMap_cons,List.flatMap_nil,List.append_nil,
          List.length_append] at hl
        exact hl
      | cons q ps =>
        have hp : p.2.length=M := h.1
        omega
  · have hr : (Cursor.mk cur nexts).reserve k=Cursor.mk cur nexts := if_neg hc
    rw [hr]
    dsimp only at hc ⊢
    omega

/-- The first elements of the current chunk are the first ones of the
sequence. -/
theorem take_cur {n : ℕ} {c : Cursor ι α} (h : n ≤ c.cur.length) :
    c.cur.take n=c.flatten.take n := by
  rw [Cursor.flatten,List.take_append_of_le_length h]

/-- Chunks stay regular after a look-ahead. -/
theorem regular_reserve {M : ℕ} (k : ℕ) {c : Cursor ι α} (h : Regular M c.nexts) :
    Regular M (c.reserve k).nexts := by
  obtain ⟨cur,nexts⟩ := c
  unfold Cursor.reserve
  split
  · cases nexts with
    | nil => exact h
    | cons p ps => exact h.tail
  · exact h

/-- Chunks stay regular while the cursor moves on. -/
theorem regular_advance {M : ℕ} (n : ℕ) (cur : List α) {nexts : List (ι×List α)}
    (h : Regular M nexts) : Regular M (advance n cur nexts).nexts := by
  induction nexts generalizing n cur with
  | nil => exact h
  | cons p ps ih =>
    rw [advance]
    split
    · exact h
    · exact ih _ _ h.tail

/-- One step of a reader over the chunks. -/
inductive Move where
  /-- Look ahead for `look` elements and pass `size` of them. -/
  | number (look size : ℕ)
  /-- Pass `n` elements. -/
  | bytes (n : ℕ)
deriving DecidableEq, Repr

/-- How many elements a step passes. -/
def Move.size : Move → ℕ
  | .number _ size => size
  | .bytes n => n

/-- How many elements several steps pass. -/
def total (ms : List Move) : ℕ := (ms.map Move.size).sum

/-- Where a step leads. -/
def Cursor.step (c : Cursor ι α) : Move → Cursor ι α
  | .number look size => (c.reserve look).drop size
  | .bytes n => c.skip n

/-- Where several steps lead. -/
def Cursor.run (c : Cursor ι α) (ms : List Move) : Cursor ι α := ms.foldl Cursor.step c

/-- A step that looks ahead passes some of what it looked at, and does not
look further than one chunk. -/
def Move.Sound (M : ℕ) : Move → Prop
  | .number look size => 0 < size ∧ size ≤ look ∧ look ≤ M
  | .bytes _ => True

/-- Some step looks ahead past the end of the sequence. -/
def joins : List Move → Bool
  | [] => false
  | .number look size::ms => decide (size+total ms < look) || joins ms
  | .bytes _::ms => joins ms

@[simp] theorem total_nil : total []=0 := rfl

@[simp] theorem total_cons (m : Move) (ms : List Move) : total (m::ms)=m.size+total ms := by
  simp only [total,List.map_cons,List.sum_cons]

@[simp] theorem total_append (ms ns : List Move) : total (ms++ns)=total ms+total ns := by
  simp only [total,List.map_append,List.sum_append]

@[simp] theorem run_nil (c : Cursor ι α) : c.run []=c := rfl

@[simp] theorem run_cons (c : Cursor ι α) (m : Move) (ms : List Move) :
    c.run (m::ms)=(c.step m).run ms := rfl

@[simp] theorem run_append (c : Cursor ι α) (ms ns : List Move) :
    c.run (ms++ns)=(c.run ms).run ns := List.foldl_append

/-- A step passes exactly its elements. -/
theorem flatten_step {M : ℕ} {c : Cursor ι α} {m : Move} (h : Regular M c.nexts)
    (hm : m.Sound M) (hl : m.size ≤ c.flatten.length) :
    (c.step m).flatten=c.flatten.drop m.size := by
  cases m with
  | number look size =>
    have hle := le_reserve h hm.2.2 hm.2.1 hl
    rw [Cursor.step,flatten_drop hle,flatten_reserve,Move.size]
  | bytes n => exact flatten_skip n c

/-- Chunks stay regular after a step. -/
theorem regular_step {M : ℕ} {c : Cursor ι α} (m : Move) (h : Regular M c.nexts) :
    Regular M (c.step m).nexts := by
  cases m with
  | number look size => exact regular_reserve look h
  | bytes n => exact regular_advance n c.cur h

/-- Several steps pass exactly their elements. -/
theorem flatten_run {M : ℕ} {c : Cursor ι α} {ms : List Move} (h : Regular M c.nexts)
    (hm : ∀ m ∈ ms,m.Sound M) (hl : total ms ≤ c.flatten.length) :
    (c.run ms).flatten=c.flatten.drop (total ms) := by
  induction ms generalizing c with
  | nil => rfl
  | cons m ms ih =>
    rw [total_cons] at hl
    have hs := flatten_step h (hm m List.mem_cons_self) (by omega)
    have hr := ih (regular_step m h) (fun m' h' => hm m' (List.mem_cons_of_mem _ h'))
      (by rw [hs,List.length_drop]; omega)
    rw [run_cons,hr,hs,List.drop_drop,total_cons]

/-- Chunks stay regular after several steps. -/
theorem regular_run {M : ℕ} {c : Cursor ι α} (ms : List Move) (h : Regular M c.nexts) :
    Regular M (c.run ms).nexts := by
  induction ms generalizing c with
  | nil => exact h
  | cons m ms ih => exact ih (regular_step m h)

/-- Within the last chunk, steps drop their elements. -/
theorem run_last {M : ℕ} {bs X : List α} {ms : List Move} (hm : ∀ m ∈ ms,m.Sound M)
    (hl : total ms=bs.length) :
    (Cursor.mk (bs++X) ([] : List (ι×List α))).run ms=⟨X,[]⟩ := by
  have hnexts : ∀ (ms : List Move) (c : Cursor ι α),c.nexts=[] → (c.run ms).nexts=[] := by
    intro ms
    induction ms with
    | nil => exact fun _ h => h
    | cons m ms ih =>
      intro c h
      refine ih _ ?_
      obtain ⟨cur,nexts⟩ := c
      dsimp only at h
      subst h
      cases m with
      | number look size =>
        simp only [Cursor.step,Cursor.reserve,Cursor.drop]
        split <;> rfl
      | bytes n => rfl
  have hflat : (Cursor.mk (bs++X) ([] : List (ι×List α))).flatten=bs++X := by
    simp only [Cursor.flatten,List.flatMap_nil,List.append_nil]
  have hf := flatten_run (c:=Cursor.mk (bs++X) ([] : List (ι×List α))) (M:=M) trivial hm
    (by rw [hflat,hl,List.length_append]; omega)
  have hn := hnexts ms (Cursor.mk (bs++X) []) rfl
  rw [hflat,hl,List.drop_left] at hf
  generalize (Cursor.mk (bs++X) ([] : List (ι×List α))).run ms=c at hf hn
  obtain ⟨cur,nexts⟩ := c
  dsimp only at hn
  subst hn
  simp only [Cursor.flatten,List.flatMap_nil,List.append_nil] at hf
  rw [hf]

/-- Chunks without elements are at most one empty chunk. -/
theorem eq_nil_or_empty {M : ℕ} (hM : 0 < M) {nexts : List (ι×List α)} (h : Regular M nexts)
    (he : nexts.flatMap Prod.snd=[]) : nexts=[] ∨ ∃ i,nexts=[(i,[])] := by
  cases nexts with
  | nil => exact .inl rfl
  | cons p ps =>
    rw [List.flatMap_cons] at he
    have hp : p.2=[] := (List.append_eq_nil_iff.mp he).1
    cases ps with
    | nil => exact .inr ⟨p.1,by rw [←hp]⟩
    | cons q qs =>
      have hl : p.2.length=M := h.1
      rw [hp,List.length_nil] at hl
      omega

/-- The last of the chunks is empty. -/
def EndsEmpty (nexts : List (ι×List α)) : Prop := ∃ ps p, nexts=ps++[p] ∧ p.2=[]

/-- A list of chunks ends as its tail does. -/
theorem endsEmpty_cons {p q : ι×List α} {ps : List (ι×List α)} :
    EndsEmpty (p::q::ps)↔EndsEmpty (q::ps) := by
  constructor
  · rintro ⟨xs,x,hx,he⟩
    cases xs with
    | nil => exact absurd hx (by simp)
    | cons y ys =>
      refine ⟨ys,x,?_,he⟩
      rw [List.cons_append] at hx
      exact (List.cons.inj hx).2
  · rintro ⟨xs,x,hx,he⟩
    exact ⟨p::xs,x,by rw [hx,List.cons_append],he⟩

/-- A single chunk ends empty when it is empty. -/
theorem endsEmpty_singleton {p : ι×List α} : EndsEmpty [p]↔p.2=[] := by
  constructor
  · rintro ⟨xs,x,hx,he⟩
    have hl := congrArg List.length hx
    simp only [List.length_cons,List.length_nil,List.length_append] at hl
    have hxs : xs=[] := List.length_eq_zero_iff.mp (by omega)
    rw [hxs,List.nil_append,List.cons.injEq] at hx
    rw [hx.1,he]
  · intro h
    exact ⟨[],p,rfl,h⟩

/-- The last chunk is empty exactly when the chunks hold a multiple of their
size. -/
theorem endsEmpty_iff {M : ℕ} {p : ι×List α} {ps : List (ι×List α)} (h : Regular M (p::ps)) :
    EndsEmpty (p::ps)↔M ∣ ((p::ps).flatMap Prod.snd).length := by
  induction ps generalizing p with
  | nil =>
    have hp := regular_singleton.mp h
    rw [endsEmpty_singleton,List.flatMap_cons,List.flatMap_nil,List.append_nil,
      ←List.length_eq_zero_iff]
    constructor
    · intro h0
      rw [h0]
      exact Nat.dvd_zero M
    · intro hd
      exact Nat.eq_zero_of_dvd_of_lt hd hp
  | cons q qs ih =>
    have hp : p.2.length=M := h.1
    have hs : ((p::q::qs).flatMap Prod.snd).length=M+((q::qs).flatMap Prod.snd).length := by
      rw [List.flatMap_cons,List.length_append,hp]
    rw [endsEmpty_cons,ih h.2,hs]
    exact (Nat.dvd_add_right (Nat.dvd_refl M)).symm

/-- There are chunks after the first, and the last one is empty, exactly when
the sequence is not empty and its length is a multiple of the chunk size. -/
theorem nexts_endsEmpty_iff {M : ℕ} (hM : 0 < M) {p : ι×List α} {ps : List (ι×List α)}
    (h : Regular M (p::ps)) : (ps≠[] ∧ EndsEmpty ps)↔
      M ∣ ((p::ps).flatMap Prod.snd).length ∧ 0 < ((p::ps).flatMap Prod.snd).length := by
  rw [←endsEmpty_iff h]
  cases ps with
  | nil =>
    simp only [ne_eq,not_true_eq_false,false_and,endsEmpty_singleton,List.flatMap_cons,
      List.flatMap_nil,List.append_nil,false_iff]
    rintro ⟨h₁,h₂⟩
    rw [h₁,List.length_nil] at h₂
    omega
  | cons q qs =>
    have hp : p.2.length=M := h.1
    simp only [ne_eq,List.cons_ne_nil,not_false_eq_true,true_and,endsEmpty_cons,
      List.flatMap_cons,List.length_append,hp]
    constructor
    · intro he
      exact ⟨he,by omega⟩
    · intro he
      exact he.1

/-- Passing elements never enters an empty last chunk. -/
theorem advance_nexts (n : ℕ) (cur : List α) (nexts : List (ι×List α))
    (hn : n ≤ (Cursor.mk cur nexts).flatten.length) :
    ((advance n cur nexts).nexts≠[] ∧ EndsEmpty (advance n cur nexts).nexts)↔
      (nexts≠[] ∧ EndsEmpty nexts) := by
  induction nexts generalizing n cur with
  | nil => simp only [advance]
  | cons p ps ih =>
    by_cases h : n ≤ cur.length
    · rw [advance_of_le h]
    · rw [advance_of_lt (by omega)]
      have hn' : n-cur.length ≤ (Cursor.mk p.2 ps).flatten.length := by
        simp only [Cursor.flatten,List.flatMap_cons,List.length_append] at hn ⊢
        omega
      rw [ih _ _ hn']
      cases ps with
      | nil =>
        have hp : p.2≠[] := by
          intro hnil
          simp only [Cursor.flatten,hnil,List.flatMap_nil,List.append_nil,List.length_nil] at hn'
          omega
        simp only [ne_eq,not_true_eq_false,false_and,List.cons_ne_nil,not_false_eq_true,true_and,
          endsEmpty_singleton,hp]
      | cons q qs =>
        simp only [ne_eq,List.cons_ne_nil,not_false_eq_true,true_and,endsEmpty_cons]

/-- A reader that passes the whole sequence leaves an empty last chunk behind
exactly when there is one and no step looked ahead past the end. -/
theorem run_nexts {M : ℕ} (hM : 0 < M) {c : Cursor ι α} {ms : List Move} (h : Regular M c.nexts)
    (hm : ∀ m ∈ ms,m.Sound M) (hl : c.flatten.length=total ms) :
    (c.run ms).nexts≠[]↔c.nexts≠[] ∧ EndsEmpty c.nexts ∧ joins ms=false := by
  induction ms generalizing c with
  | nil =>
    have hflat : c.flatten=[] := List.length_eq_zero_iff.mp hl
    have he : c.nexts≠[] → EndsEmpty c.nexts := by
      intro hne
      obtain ⟨cur,nexts⟩ := c
      cases nexts with
      | nil => exact absurd rfl hne
      | cons p ps =>
        have hp : p.2=[] := by
          simp only [Cursor.flatten,List.flatMap_cons] at hflat
          exact (List.append_eq_nil_iff.mp (List.append_eq_nil_iff.mp hflat).2).1
        cases ps with
        | nil => exact endsEmpty_singleton.mpr hp
        | cons q qs =>
          have hq : p.2.length=M := h.1
          rw [hp,List.length_nil] at hq
          omega
    simp only [run_nil,joins,and_true]
    exact ⟨fun hn => ⟨hn,he hn⟩,fun hn => hn.1⟩
  | cons m ms ih =>
    have hsound := hm m List.mem_cons_self
    rw [total_cons] at hl
    have hflat := flatten_step h hsound (by omega)
    have hr := ih (regular_step m h) (fun m' h' => hm m' (List.mem_cons_of_mem _ h'))
      (by rw [hflat,List.length_drop]; omega)
    rw [run_cons,hr]
    obtain ⟨cur,nexts⟩ := c
    cases m with
    | bytes n =>
      have ha := advance_nexts n cur nexts (by simp only [Move.size] at hl; omega)
      simp only [Cursor.step,Cursor.skip,joins]
      constructor
      · rintro ⟨h₁,h₂,h₃⟩
        exact ⟨(ha.mp ⟨h₁,h₂⟩).1,(ha.mp ⟨h₁,h₂⟩).2,h₃⟩
      · rintro ⟨h₁,h₂,h₃⟩
        exact ⟨(ha.mpr ⟨h₁,h₂⟩).1,(ha.mpr ⟨h₁,h₂⟩).2,h₃⟩
    | number look size =>
      simp only [Move.size] at hl
      simp only [Cursor.step,Cursor.drop,joins,Bool.or_eq_false_iff,decide_eq_false_iff_not]
      by_cases hc : cur.length < look
      · have hp : (Cursor.mk cur nexts).reserve look=(Cursor.mk cur nexts).pull := if_pos hc
        rw [hp]
        cases nexts with
        | nil => simp only [Cursor.pull,ne_eq,not_true_eq_false,false_and]
        | cons p ps =>
          simp only [Cursor.pull,ne_eq,List.cons_ne_nil,not_false_eq_true,true_and]
          cases ps with
          | nil =>
            simp only [not_true_eq_false,false_and,endsEmpty_singleton,false_iff]
            rintro ⟨he,hj,-⟩
            simp only [Cursor.flatten,List.flatMap_cons,List.flatMap_nil,List.append_nil,he] at hl
            omega
          | cons q qs =>
            have hq : p.2.length=M := h.1
            have hlook := hsound.2.2
            simp only [Cursor.flatten,List.flatMap_cons,List.length_append] at hl
            simp only [List.cons_ne_nil,not_false_eq_true,true_and,endsEmpty_cons]
            constructor
            · rintro ⟨h₁,h₂⟩
              exact ⟨h₁,by omega,h₂⟩
            · rintro ⟨h₁,-,h₂⟩
              exact ⟨h₁,h₂⟩
      · have hp : (Cursor.mk cur nexts).reserve look=Cursor.mk cur nexts := if_neg hc
        rw [hp]
        simp only [Cursor.flatten,List.length_append] at hl
        constructor
        · rintro ⟨h₁,h₂,h₃⟩
          exact ⟨h₁,h₂,by omega,h₃⟩
        · rintro ⟨h₁,h₂,-,h₃⟩
          exact ⟨h₁,h₂,h₃⟩

end SpiritMysql.ChunkCursor
