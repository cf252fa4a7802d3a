import SpiritMysql.TrxStore

/-!
# Savepoints that are set later

A store follows another one when both have the same data and the same open
transaction, and its savepoints are some of those of the other one. When nothing
is written in between, savepoints can be set late, and those that are returned to
before that need not be set at all.
-/

namespace SpiritMysql.TrxStore

variable {κ ν δ : Type}

/-- A transaction follows another one. -/
structure Trx.Follows (t u : Trx κ ν δ) : Prop where
  /-- The kind. -/
  kind : t.kind=u.kind
  /-- The data. -/
  data : t.data=u.data
  /-- The savepoints are some of the other ones, in the same order. -/
  points : t.points.Sublist u.points

/-- A store follows another one. -/
structure Store.Follows (l a : Store κ ν δ) : Prop where
  /-- What was committed. -/
  committed : l.committed=a.committed
  /-- The transaction. -/
  trx : Option.Rel Trx.Follows l.trx a.trx

/-- The names of the live savepoints are different from each other. -/
def Store.Distinct (s : Store κ ν δ) : Prop := s.names.Nodup

section Lookup

variable [DecidableEq ν] {name : ν} {points : List (ν×δ)}

/-- Return to a savepoint, when there is a transaction. -/
def Store.back (name : ν) (s : Store κ ν δ) : Option (Store κ ν δ) :=
  match s.trx with
  | none => some s
  | some _ => s.rollbackTo name

/-- Set savepoints one after another. -/
def Store.setPoints (names : List ν) (s : Store κ ν δ) : Store κ ν δ :=
  names.foldl (fun s name => s.setPoint name) s

/-- The savepoint that is returned to, and those before it. -/
theorem rewind_eq_some {r : δ×List (ν×δ)} (h : rewind name points=some r) :
    ∃ above below,points=above++(name,r.1)::below ∧ r.2=(name,r.1)::below ∧
      name ∉ above.map Prod.fst := by
  induction points with
  | nil => cases h
  | cons p points ih =>
    rw [rewind] at h
    split at h
    · rename_i hp
      cases h
      refine ⟨[],points,?_,?_,by simp⟩ <;> simp [←hp]
    · rename_i hp
      obtain ⟨above,below,h₁,h₂,h₃⟩ := ih h
      refine ⟨p::above,below,by rw [h₁]; rfl,h₂,?_⟩
      rw [List.map_cons,List.mem_cons,not_or]
      exact ⟨fun he => hp he.symm,h₃⟩

/-- Savepoints of other names are passed over. -/
theorem rewind_append {above below : List (ν×δ)} (h : name ∉ above.map Prod.fst) :
    rewind name (above++below)=rewind name below := by
  induction above with
  | nil => rfl
  | cons p above ih =>
    rw [List.map_cons,List.mem_cons,not_or] at h
    rw [List.cons_append,rewind,if_neg (fun he => h.1 he.symm)]
    exact ih h.2

/-- Fewer savepoints in the same order are rewound to fewer savepoints. -/
theorem rewind_sublist {few : List (ν×δ)} (hs : few.Sublist points)
    (hn : (points.map Prod.fst).Nodup) {r : δ×List (ν×δ)} (h : rewind name few=some r) :
    ∃ rest,rewind name points=some (r.1,rest) ∧ r.2.Sublist rest := by
  induction hs with
  | slnil => cases h
  | cons p hs ih =>
    rw [List.map_cons,List.nodup_cons] at hn
    obtain ⟨rest,hr,hrest⟩ := ih hn.2 h
    have hp : p.1≠name := by
      rintro rfl
      obtain ⟨above,below,he,_,_⟩ := rewind_eq_some h
      refine hn.1 (hs.map Prod.fst |>.subset ?_)
      rw [he]
      simp
    refine ⟨rest,?_,hrest⟩
    rw [rewind,if_neg hp]
    exact hr
  | cons_cons p hs ih =>
    rw [List.map_cons,List.nodup_cons] at hn
    rw [rewind] at h ⊢
    split at h
    · rename_i hp
      cases h
      refine ⟨_,by rw [if_pos hp],hs.cons_cons p⟩
    · rename_i hp
      rw [if_neg hp]
      exact ih hn.2 h

/-- What is returned to from a savepoint is the same after a return to a later one. -/
theorem rewind_rewind (hn : (points.map Prod.fst).Nodup) {r : δ×List (ν×δ)}
    (h : rewind name points=some r) {older : ν} (ho : older ∈ r.2.map Prod.fst) :
    rewind older r.2=rewind older points := by
  obtain ⟨above,below,h₁,h₂,_⟩ := rewind_eq_some h
  rw [←h₂] at h₁
  have hold : older ∉ above.map Prod.fst := by
    rw [h₁,List.map_append] at hn
    exact fun hm => (List.nodup_append.mp hn).2.2 older hm older ho rfl
  rw [h₁,rewind_append hold]

end Lookup

section Steps

variable {l a a' : Store κ ν δ}

/-- A store follows itself. -/
theorem Store.Follows.refl (s : Store κ ν δ) : s.Follows s := by
  refine ⟨rfl,?_⟩
  cases s.trx with
  | none => exact Option.Rel.none
  | some t => exact Option.Rel.some ⟨rfl,rfl,List.Sublist.refl _⟩

/-- Both or none have a transaction. -/
theorem Store.Follows.isSome (h : l.Follows a) : l.trx.isSome=a.trx.isSome := by
  cases l with
  | mk c t =>
    cases a with
    | mk c' u =>
      cases h.trx <;> rfl

/-- The same data are seen. -/
theorem Store.Follows.visible (h : l.Follows a) : l.visible=a.visible := by
  obtain ⟨hc,ht⟩ := h
  cases l with
  | mk c t =>
    cases a with
    | mk c' u =>
      cases ht with
      | none => exact hc
      | some ht => exact ht.data

/-- The savepoints are some of the other ones. -/
theorem Store.Follows.names (h : l.Follows a) : l.names.Sublist a.names := by
  obtain ⟨hc,ht⟩ := h
  cases l with
  | mk c t =>
    cases a with
    | mk c' u =>
      cases ht with
      | none => exact List.Sublist.refl _
      | some ht => exact ht.points.map Prod.fst

/-- A transaction starts. -/
theorem Store.Follows.start (h : l.Follows a) (kind : κ) : (l.start kind).Follows (a.start kind) :=
  ⟨h.visible,Option.Rel.some ⟨rfl,h.visible,List.Sublist.refl _⟩⟩

/-- The transaction is committed. -/
theorem Store.Follows.commit (h : l.Follows a) : l.commit.Follows a.commit :=
  ⟨h.visible,Option.Rel.none⟩

/-- The transaction is rolled back. -/
theorem Store.Follows.rollback (h : l.Follows a) : l.rollback.Follows a.rollback :=
  ⟨h.committed,Option.Rel.none⟩

/-- The data are changed. -/
theorem Store.Follows.write (h : l.Follows a) (f : δ → δ) : (l.write f).Follows (a.write f) := by
  obtain ⟨hc,ht⟩ := h
  cases l with
  | mk c t =>
    cases a with
    | mk c' u =>
      cases ht with
      | none => exact ⟨congrArg f hc,Option.Rel.none⟩
      | some ht => exact ⟨hc,Option.Rel.some ⟨ht.kind,congrArg f ht.data,ht.points⟩⟩

/-- End a transaction and, with `andChain`, start another one of its kind. -/
def Store.finish (andChain : Bool) (s ended : Store κ ν δ) : Store κ ν δ :=
  match s.trx with
  | some t => if andChain=true then ended.start t.kind else ended
  | none => s

/-- Both transactions end in the same way. -/
theorem Store.Follows.finish (h : l.Follows a) (andChain : Bool) {ended ended' : Store κ ν δ}
    (he : ended.Follows ended') : (l.finish andChain ended).Follows (a.finish andChain ended') := by
  have hf := h
  obtain ⟨hc,ht⟩ := h
  cases l with
  | mk c t =>
    cases a with
    | mk c' u =>
      cases ht with
      | none => exact hf
      | @some t u ht =>
        simp only [Store.finish]
        rw [ht.kind]
        split
        · exact he.start _
        · exact he

/-- A transaction that ends leaves no savepoints. -/
theorem names_finish (s : Store κ ν δ) (andChain : Bool) {ended : Store κ ν δ}
    (he : ended.trx=none) : (s.finish andChain ended).names=[] := by
  unfold Store.finish
  cases ht : s.trx with
  | none => rw [Store.names,ht]; rfl
  | some t =>
    dsimp only
    split
    · rfl
    · rw [Store.names,he]; rfl

/-- A transaction that only started ends as if there had been none. -/
theorem start_ended (h : l.trx=none) (kind : κ) :
    (l.start kind).commit=l ∧ (l.start kind).rollback=l := by
  cases l with
  | mk c t =>
    cases h
    exact ⟨rfl,rfl⟩

/-- To start a transaction, the one that is open is committed. -/
theorem finish_start (s : Store κ ν δ) (kind : κ) :
    (s.finish false s.commit).start kind=s.start kind := by
  cases s with
  | mk c t => cases t <;> rfl

/-- Nothing is changed. -/
theorem write_id (s : Store κ ν δ) : s.write id=s := by
  cases s with
  | mk c t => cases t <;> rfl

/-- Two changes make one. -/
theorem write_write (s : Store κ ν δ) (f g : δ → δ) : (s.write f).write g=s.write (g∘f) := by
  cases s with
  | mk c t => cases t <;> rfl

/-- A change neither starts nor ends a transaction. -/
@[simp] theorem isSome_write (s : Store κ ν δ) (f : δ → δ) :
    (s.write f).trx.isSome=s.trx.isSome := by
  cases s with
  | mk c t => cases t <;> rfl

variable [DecidableEq ν] {name other : ν}

/-- Both set a savepoint. -/
theorem Store.Follows.setPoint (h : l.Follows a) (name : ν) :
    (l.setPoint name).Follows (a.setPoint name) := by
  obtain ⟨hc,ht⟩ := h
  cases l with
  | mk c t =>
    cases a with
    | mk c' u =>
      cases ht with
      | none => exact ⟨hc,Option.Rel.none⟩
      | some ht =>
        refine ⟨hc,Option.Rel.some ⟨ht.kind,ht.data,?_⟩⟩
        dsimp only
        rw [ht.data]
        exact (ht.points.filter _).cons_cons _

/-- A savepoint is forgotten. -/
def Store.forget (name : ν) (s : Store κ ν δ) : Store κ ν δ :=
  {s with trx := s.trx.map (fun t =>
    {t with points := t.points.filter (fun p => decide (p.1≠name))})}

/-- A savepoint that the following store does not have can be forgotten. -/
theorem Store.Follows.forget (h : l.Follows a) (hn : name ∉ l.names) :
    l.Follows (a.forget name) := by
  obtain ⟨hc,ht⟩ := h
  cases l with
  | mk c t =>
    cases a with
    | mk c' u =>
      cases ht with
      | none => exact ⟨hc,Option.Rel.none⟩
      | @some t u ht =>
        refine ⟨hc,Option.Rel.some ⟨ht.kind,ht.data,?_⟩⟩
        have hf : t.points.filter (fun p => decide (p.1≠name))=t.points := by
          rw [List.filter_eq_self]
          intro p hp
          exact decide_eq_true (fun he => hn (List.mem_map.mpr ⟨p,hp,he⟩))
        rw [←hf]
        exact ht.points.filter _

/-- Only the other store sets a savepoint. -/
theorem Store.Follows.setPoint_right (h : l.Follows a) (hn : name ∉ l.names) :
    l.Follows (a.setPoint name) := by
  obtain ⟨hc,ht⟩ := h.forget hn
  cases l with
  | mk c t =>
    cases a with
    | mk c' u =>
      cases u with
      | none => exact ⟨hc,ht⟩
      | some u =>
        cases ht with
        | some ht => exact ⟨hc,Option.Rel.some ⟨ht.kind,ht.data,ht.points.cons _⟩⟩

/-- What the following store can return to, the other one can. -/
theorem Store.Follows.rollbackTo (h : l.Follows a) (hd : a.Distinct) {l' : Store κ ν δ}
    (hl : l.rollbackTo name=some l') : ∃ a',a.rollbackTo name=some a' ∧ l'.Follows a' := by
  obtain ⟨hc,ht⟩ := h
  cases l with
  | mk c t =>
    cases a with
    | mk c' u =>
      cases ht with
      | none => cases hl
      | @some t u ht =>
        simp only [Store.rollbackTo] at hl ⊢
        cases hr : rewind name t.points with
        | none =>
          rw [hr] at hl
          cases hl
        | some r =>
          rw [hr] at hl
          cases hl
          obtain ⟨rest,hr',hrest⟩ := rewind_sublist ht.points hd hr
          rw [hr']
          exact ⟨_,rfl,hc,Option.Rel.some ⟨ht.kind,rfl,hrest⟩⟩

end Steps

section Names

variable [DecidableEq ν] {s s' : Store κ ν δ} {name other : ν}

/-- The names after a savepoint was set. -/
theorem names_setPoint (h : s.trx.isSome=true) (name : ν) :
    (s.setPoint name).names=name::s.names.filter (fun n => decide (n≠name)) := by
  cases s with
  | mk c t =>
    cases t with
    | none => cases h
    | some t =>
      simp only [Store.names,Store.setPoint,Option.map_some,Option.getD_some,List.map_cons]
      rw [List.filter_map]
      rfl

/-- Without a transaction there are no savepoints. -/
theorem names_closed (h : s.trx=none) : s.names=[] := by
  rw [Store.names,h]
  rfl

/-- Without a transaction no savepoint is set. -/
theorem setPoint_closed (h : s.trx=none) (name : ν) : s.setPoint name=s := by
  cases s with
  | mk c t =>
    cases h
    rfl

/-- Savepoints neither start nor end a transaction. -/
@[simp] theorem isSome_setPoint (s : Store κ ν δ) (name : ν) :
    (s.setPoint name).trx.isSome=s.trx.isSome := by
  rw [Store.setPoint,Option.isSome_map]

/-- The same holds of several ones. -/
@[simp] theorem isSome_setPoints (s : Store κ ν δ) (names : List ν) :
    (s.setPoints names).trx.isSome=s.trx.isSome := by
  induction names generalizing s with
  | nil => rfl
  | cons name names ih => exact (ih _).trans (isSome_setPoint s name)

/-- Savepoints that are set in two parts. -/
theorem setPoints_append (s : Store κ ν δ) (names later : List ν) :
    s.setPoints (names++later)=(s.setPoints names).setPoints later := List.foldl_append

/-- Savepoints do not change what is committed, or seen. -/
theorem setPoints_ended (s : Store κ ν δ) (names : List ν) :
    (s.setPoints names).commit=s.commit ∧ (s.setPoints names).rollback=s.rollback ∧
      (s.setPoints names).trx.map Trx.kind=s.trx.map Trx.kind := by
  induction names generalizing s with
  | nil => exact ⟨rfl,rfl,rfl⟩
  | cons name names ih =>
    obtain ⟨hc,hr,hk⟩ := ih (s.setPoint name)
    refine ⟨hc.trans ?_,hr.trans rfl,hk.trans ?_⟩ <;>
      · cases s with
        | mk c t => cases t <;> rfl

/-- Without a transaction no savepoints are set. -/
theorem setPoints_closed (h : s.trx=none) (names : List ν) : s.setPoints names=s := by
  induction names with
  | nil => rfl
  | cons name names ih =>
    rw [Store.setPoints,List.foldl_cons,setPoint_closed h]
    exact ih

/-- A transaction ends in the same way with savepoints and without. -/
theorem finish_setPoints (s : Store κ ν δ) (names : List ν) (andChain : Bool)
    (ended : Store κ ν δ) : (s.setPoints names).finish andChain ended=s.finish andChain ended := by
  have hk := (setPoints_ended s names).2.2
  unfold Store.finish
  cases ht : s.trx with
  | none =>
    rw [setPoints_closed ht,ht]
  | some t =>
    rw [ht] at hk
    obtain ⟨u,hu,huk⟩ := Option.map_eq_some_iff.mp hk
    rw [hu]
    dsimp only
    rw [huk]

/-- What is live stays so, and what was set is live. -/
theorem mem_setPoints (h : s.trx.isSome=true) {names : List ν}
    (hn : name ∈ s.names ∨ name ∈ names) : name ∈ (s.setPoints names).names := by
  induction names generalizing s with
  | nil => exact hn.resolve_right (by simp)
  | cons n names ih =>
    refine ih (s:=s.setPoint n) (by rw [isSome_setPoint,h]) ?_
    rw [names_setPoint h,List.mem_cons,List.mem_filter,decide_eq_true_eq]
    rcases hn with hn | hn
    · by_cases he : name=n
      · exact Or.inl (Or.inl he)
      · exact Or.inl (Or.inr ⟨hn,he⟩)
    · rcases List.mem_cons.mp hn with he | hn
      · exact Or.inl (Or.inl he)
      · exact Or.inr hn

/-- A savepoint that is not live in the end was not live earlier. -/
theorem not_mem_setPoints {names later : List ν} (h : name ∉ (s.setPoints (names++later)).names) :
    name ∉ (s.setPoints names).names := by
  intro hm
  cases hs : (s.setPoints names).trx with
  | none =>
    rw [names_closed hs] at hm
    cases hm
  | some t =>
    rw [setPoints_append] at h
    exact h (mem_setPoints (by rw [hs]; rfl) (Or.inl hm))

/-- The names stay different when one is set. -/
theorem Store.Distinct.setPoint (h : s.Distinct) (name : ν) : (s.setPoint name).Distinct := by
  cases ht : s.trx with
  | none => rwa [setPoint_closed ht]
  | some t =>
    rw [Store.Distinct,names_setPoint (by rw [ht]; rfl),List.nodup_cons]
    exact ⟨by simp,h.filter _⟩

/-- What a return to a savepoint leaves. -/
theorem back_cases (h : s.back name=some s') :
    (s.trx=none ∧ s'=s) ∨ ∃ t r,s.trx=some t ∧ rewind name t.points=some r ∧
      s'={s with trx := some {t with data := r.1,points := r.2}} := by
  cases ht : s.trx with
  | none =>
    rw [Store.back,ht] at h
    cases h
    exact Or.inl ⟨rfl,rfl⟩
  | some t =>
    rw [Store.back,ht] at h
    simp only [Store.rollbackTo,ht] at h
    cases hr : rewind name t.points with
    | none =>
      rw [hr] at h
      cases h
    | some r =>
      rw [hr] at h
      cases h
      exact Or.inr ⟨t,r,rfl,hr,rfl⟩

/-- Only some of the savepoints remain. -/
theorem names_back (h : s.back name=some s') : s'.names.Sublist s.names := by
  rcases back_cases h with ⟨_,rfl⟩ | ⟨t,r,ht,hr,rfl⟩
  · exact List.Sublist.refl _
  · obtain ⟨above,below,h₁,h₂,_⟩ := rewind_eq_some hr
    have hs : r.2.Sublist t.points := by
      rw [h₁,h₂]
      exact List.sublist_append_right _ _
    simp only [Store.names,ht,Option.map_some,Option.getD_some]
    exact hs.map Prod.fst

/-- The names stay different when one is returned to. -/
theorem Store.Distinct.back (h : s.Distinct) (hb : s.back name=some s') : s'.Distinct :=
  List.Nodup.sublist (names_back hb) h

/-- An older savepoint is still the same after a return to a later one. -/
theorem back_back (h : s.Distinct) (hb : s.back name=some s')
    (ho : s.trx.isSome=true → other ∈ s'.names) : s'.back other=s.back other := by
  rcases back_cases hb with ⟨_,rfl⟩ | ⟨t,r,ht,hr,rfl⟩
  · rfl
  · have hn : (t.points.map Prod.fst).Nodup := by
      simpa only [Store.Distinct,Store.names,ht,Option.map_some,Option.getD_some] using h
    have hm := ho (by rw [ht]; rfl)
    simp only [Store.names,Option.map_some,Option.getD_some] at hm
    simp only [Store.back,Store.rollbackTo,ht,rewind_rewind hn hr hm]

/-- Other savepoints are returned to as before, when one more is set. -/
theorem back_setPoint (hb : s.back other=some s') (hne : s.trx.isSome=true → other≠name) :
    (s.setPoint name).back other=some (s'.forget name) := by
  rcases back_cases hb with ⟨ht,rfl⟩ | ⟨t,r,ht,hr,rfl⟩
  · have hf : s'.forget name=s' := by
      cases s'
      cases ht
      rfl
    rw [setPoint_closed ht,hb,hf]
  · have hne' := hne (by rw [ht]; rfl)
    obtain ⟨above,below,h₁,h₂,h₃⟩ := rewind_eq_some hr
    have hf : rewind other (t.points.filter (fun p => decide (p.1≠name)))=
        some (r.1,r.2.filter (fun p => decide (p.1≠name))) := by
      have hkeep : ((other,r.1)::below).filter (fun p => decide (p.1≠name))=
          (other,r.1)::below.filter (fun p => decide (p.1≠name)) :=
        List.filter_cons_of_pos (decide_eq_true hne')
      rw [h₁,h₂,List.filter_append,hkeep,rewind_append,rewind,if_pos rfl]
      intro hm
      obtain ⟨p,hp,he⟩ := List.mem_map.mp hm
      exact h₃ (List.mem_map.mpr ⟨p,(List.mem_filter.mp hp).1,he⟩)
    simp only [Store.back,Store.setPoint,Store.rollbackTo,Store.forget,ht,Option.map_some]
    rw [rewind,if_neg (fun he => hne' he.symm),hf]

end Names

/-- A store that sets savepoints late: the base of what was done, and the names
that wait. The other store has set them already. -/
structure Lags [DecidableEq ν] (base : Store κ ν δ) (waiting : List ν) (a : Store κ ν δ) :
    Prop where
  /-- With everything set, it follows. -/
  now : (base.setPoints waiting).Follows a
  /-- To return to a name that waits, it and the later ones are dropped. -/
  back : ∀ before name after,waiting=before++name::after →
    ∃ a',a.back name=some a' ∧ (base.setPoints before).Follows a'

namespace Lags

variable [DecidableEq ν] {base a : Store κ ν δ} {waiting : List ν}

/-- Nothing waits. -/
theorem nil (h : base.Follows a) : Lags base [] a := by
  refine ⟨h,fun before name after he => ?_⟩
  cases before <;> cases he

/-- Everything that waits is set. -/
theorem flush (h : Lags base waiting a) : Lags (base.setPoints waiting) [] a := nil h.now

/-- One more name waits. -/
theorem setPoint (h : Lags base waiting a) {name : ν} (hn : name ∉ (base.setPoints waiting).names) :
    Lags base (waiting++[name]) (a.setPoint name) := by
  constructor
  · rw [setPoints_append]
    exact h.now.setPoint name
  · intro before other after he
    rcases List.eq_nil_or_concat after with rfl | ⟨after,last,rfl⟩
    · obtain ⟨rfl,hname⟩ := List.append_inj' he rfl
      cases hname
      refine ⟨a.setPoint name,?_,h.now.setPoint_right hn⟩
      cases ht : a.trx with
      | none => simp only [setPoint_closed ht,Store.back,ht]
      | some t =>
        simp only [Store.back,Store.setPoint,Store.rollbackTo,ht,Option.map_some,rewind,if_true]
    · rw [List.concat_eq_append,←List.cons_append,←List.append_assoc] at he
      obtain ⟨rfl,_⟩ := List.append_inj' he rfl
      obtain ⟨a',hb,hf⟩ := h.back before other after rfl
      refine ⟨a'.forget name,back_setPoint hb ?_,hf.forget (not_mem_setPoints hn)⟩
      rintro ho rfl
      refine hn (mem_setPoints ?_ (Or.inr (by simp)))
      rw [←isSome_setPoints base (before++other::after),h.now.isSome,ho]

/-- A name that waits is returned to: it waits no more, and neither do the later ones. -/
theorem dropBack {before after : List ν} {name : ν} (h : Lags base (before++name::after) a)
    (hd : a.Distinct) : ∃ a',a.back name=some a' ∧ Lags base before a' := by
  obtain ⟨a',hb,hf⟩ := h.back before name after rfl
  refine ⟨a',hb,hf,?_⟩
  rintro earlier older between rfl
  obtain ⟨a'',hb',hf'⟩ := h.back earlier older (between++name::after) (by simp)
  refine ⟨a'',?_,hf'⟩
  rw [back_back hd hb (fun ho => hf.names.subset (mem_setPoints ?_ (Or.inr (by simp)))),hb']
  rw [←isSome_setPoints base (earlier++older::between++name::after),h.now.isSome,ho]

end Lags

end SpiritMysql.TrxStore
