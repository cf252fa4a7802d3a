import SpiritMysql.Rounding
import SpiritMysql.XaTask

/-!
# What the task for dangling transactions rolls back

The rows that `#xaTask()` reads have JavaScript values: an id of a transaction is a
string or bytes, an id of a connection is a number or a bigint. The loop that
drops the live ones leaves a permutation of the others.
-/

namespace SpiritMysql.XaTask

open PoolRun Pool Rounding

/-- The column `data` of `XA RECOVER`. -/
inductive RecoveredData where
  /-- MySQL reports a text. -/
  | text (data : String)
  /-- MariaDB reports bytes. -/
  | binary (data : List UInt8)
deriving DecidableEq, Repr

/-- The column `id` of the process list. -/
inductive RowId where
  /-- A number. -/
  | number (id : ℕ)
  /-- A bigint, never equal to a number. -/
  | bigint (id : ℕ)
deriving DecidableEq, Repr

/-- The value of a column of 64 bits: a bigint when a number cannot hold it. -/
def RowId.ofId (id : ℕ) : RowId := if id < 2^53 then .number id else .bigint id

/-- The id of a recovered transaction, with `decoder.decode()`. -/
def RecoveredData.xaId (decoder : List UInt8 → String) : RecoveredData → String
  | .text data => data
  | .binary data => decoder data

/-- The number that `parseInt()` returns for so many. -/
def asNumber (n : ℕ) : ℕ := ⌊toDouble n⌋₊

/-- The connection that `XaIdGen.decode()` returns. -/
def connectionOf (xaId : String) : Option ℕ := (decode xaId).map (fun x => asNumber x.connectionId)

/-- The loop over `xas` for a row of the process list. -/
def dropRow (xas : List (String×ℕ)) : RowId → List (String×ℕ)
  | .number id => dropAlive id xas.length xas
  | .bigint _ => xas

/-- `#xaTask()`: the ids that `XA ROLLBACK` is sent with, in this order. -/
def rollbacks (decoder : List UInt8 → String) (recovered : List RecoveredData) (rows : List RowId) :
    List String :=
  let xas := recovered.filterMap fun data =>
    (connectionOf (data.xaId decoder)).map fun connectionId => (data.xaId decoder,connectionId)
  (rows.foldl dropRow xas).map Prod.fst

/-- Nobody of the process list owns the transaction, and its id is one of the generator. -/
def Orphaned (rows : List RowId) (xaId : String) : Prop :=
  ∃ connectionId,connectionOf xaId=some connectionId ∧ .number connectionId ∉ rows

instance (rows : List RowId) (xaId : String) : Decidable (Orphaned rows xaId) :=
  match h : connectionOf xaId with
  | none => .isFalse (by rintro ⟨_,hc,_⟩; rw [h] at hc; cases hc)
  | some connectionId =>
    decidable_of_iff (.number connectionId ∉ rows)
      ⟨fun hn => ⟨connectionId,h,hn⟩,fun ⟨_,hc,hn⟩ => by rw [h] at hc; cases hc; exact hn⟩

/-- The loop leaves the transactions of other connections, each once, when there is
none of the connection after the place where it is. -/
theorem dropAlive_perm {id n : ℕ} {xas : List (String×ℕ)}
    (h : ∀ j xa,n ≤ j → xas[j]?=some xa → xa.2≠id) :
    (dropAlive id n xas).Perm (xas.filter (fun xa => decide (xa.2≠id))) := by
  induction n generalizing xas with
  | zero =>
    have hall : ∀ xa ∈ xas,decide (xa.2≠id)=true := by
      intro xa hm
      obtain ⟨j,hj⟩ := List.mem_iff_getElem?.mp hm
      exact decide_eq_true (h j xa (Nat.zero_le j) hj)
    rw [List.filter_eq_self.mpr hall]
    exact List.Perm.refl xas
  | succ n ih =>
    unfold dropAlive
    cases hn : xas[n]? with
    | none =>
      refine ih (fun j xa hj hx => ?_)
      rcases Nat.eq_or_lt_of_le hj with rfl | hj
      · rw [hn] at hx
        cases hx
      · exact h j xa hj hx
    | some first =>
      dsimp only
      by_cases hid : first.2=id
      · rw [if_pos hid]
        have hgone : ∀ j xa,n ≤ j → (swapRemove xas n)[j]?=some xa → xa.2≠id := by
          intro j xa hj hx
          obtain ⟨hlt,_⟩ := List.getElem?_eq_some_iff.mp hn
          obtain ⟨k,hk,hx⟩ := getElem_swapRemove hlt hj hx
          exact h k xa hk hx
        have hkept := (swapRemove_perm hn).filter (fun xa => decide (xa.2≠id))
        rw [List.filter_cons,if_neg (by simpa only [decide_eq_true_eq,not_not] using hid)] at hkept
        exact (ih hgone).trans hkept
      · rw [if_neg hid]
        refine ih (fun j xa hj hx => ?_)
        rcases Nat.eq_or_lt_of_le hj with rfl | hj
        · rw [hn] at hx
          cases hx
          exact hid
        · exact h j xa hj hx

/-- A row of the process list drops the transactions of its connection. -/
theorem dropRow_perm (xas : List (String×ℕ)) (row : RowId) :
    (dropRow xas row).Perm (xas.filter (fun xa => decide (.number xa.2≠row))) := by
  cases row with
  | number id =>
    have hout : ∀ j xa,xas.length ≤ j → xas[j]?=some xa → xa.2≠id := by
      intro j xa hj hx
      rw [List.getElem?_eq_none hj] at hx
      cases hx
    simpa only [dropRow,ne_eq,RowId.number.injEq] using dropAlive_perm hout
  | bigint id =>
    have hall : ∀ xa ∈ xas,decide (.number xa.2≠RowId.bigint id)=true :=
      fun xa _ => decide_eq_true (fun he => by cases he)
    rw [List.filter_eq_self.mpr hall]
    exact List.Perm.refl xas

/-- What the rows of the process list leave. -/
theorem dropRows_perm (rows : List RowId) (xas : List (String×ℕ)) :
    (rows.foldl dropRow xas).Perm (xas.filter (fun xa => decide (.number xa.2 ∉ rows))) := by
  induction rows generalizing xas with
  | nil =>
    have hall : ∀ xa ∈ xas,decide (.number xa.2 ∉ ([] : List RowId))=true :=
      fun xa _ => decide_eq_true List.not_mem_nil
    rw [List.filter_eq_self.mpr hall]
    exact List.Perm.refl xas
  | cons row rows ih =>
    have hboth : ∀ xa : String×ℕ,
        (decide (.number xa.2 ∉ rows) && decide (.number xa.2≠row))=
          decide (.number xa.2 ∉ row::rows) := by
      intro xa
      rw [← Bool.decide_and]
      refine decide_eq_decide.mpr ?_
      rw [List.mem_cons,not_or]
      exact and_comm
    have hrest := (dropRow_perm xas row).filter (fun xa => decide (.number xa.2 ∉ rows))
    rw [List.filter_filter,List.filter_congr (fun xa _ => hboth xa)] at hrest
    exact (ih (dropRow xas row)).trans hrest

/-- The entries whose connections are gone, and the ids they were made of. -/
theorem filter_entries (decoder : List UInt8 → String) (recovered : List RecoveredData)
    (rows : List RowId) :
    ((recovered.filterMap fun data =>
        (connectionOf (data.xaId decoder)).map fun connectionId => (data.xaId decoder,connectionId)).filter
          (fun xa => decide (.number xa.2 ∉ rows))).map Prod.fst=
      (recovered.map (RecoveredData.xaId decoder)).filter (fun xaId => decide (Orphaned rows xaId)) := by
  induction recovered with
  | nil => rfl
  | cons data recovered ih =>
    rw [List.map_cons,List.filter_cons]
    cases hc : connectionOf (data.xaId decoder) with
    | none =>
      have hno : ¬Orphaned rows (data.xaId decoder) := by
        rintro ⟨_,ho,_⟩
        rw [hc] at ho
        cases ho
      rw [List.filterMap_cons_none (by rw [hc]; rfl),if_neg (by simpa only [decide_eq_true_eq] using hno)]
      exact ih
    | some connectionId =>
      rw [List.filterMap_cons_some (by rw [hc]; rfl),List.filter_cons]
      by_cases hin : .number connectionId ∈ rows
      · have hno : ¬Orphaned rows (data.xaId decoder) := by
          rintro ⟨_,ho,hout⟩
          rw [hc] at ho
          cases ho
          exact hout hin
        rw [if_neg (by simpa only [decide_eq_true_eq,not_not] using hin),
          if_neg (by simpa only [decide_eq_true_eq] using hno)]
        exact ih
      · have hyes : Orphaned rows (data.xaId decoder) := ⟨connectionId,hc,hin⟩
        rw [if_pos (decide_eq_true hin),if_pos (decide_eq_true hyes),List.map_cons,ih]

/-- A number that a double holds is parsed exactly. -/
theorem asNumber_eq {n : ℕ} (h : n < 2^53) : asNumber n=n := by
  rw [asNumber,toDouble_natCast h,Nat.floor_natCast]

/-- What is parsed to a number of 32 bits was that number. -/
theorem asNumber_inj {n id : ℕ} (hid : id < 2^32) (h : asNumber n=id) : n=id := by
  by_cases hn : n < 2^53
  · rw [← h,asNumber_eq hn]
  · -- rounding loses little, so a greater number stays greater
    have herr := (abs_le.mp (toDouble_error n)).1
    have hpos : (0 : ℚ) ≤ n := Nat.cast_nonneg n
    have hge : (2^53 : ℚ) ≤ n := by exact_mod_cast not_lt.mp hn
    rw [abs_of_nonneg hpos] at herr
    have hlow : ((2^52 : ℕ) : ℚ) ≤ toDouble n := by
      push_cast
      linarith
    have hfloor : 2^52 ≤ asNumber n := Nat.le_floor hlow
    omega

/-- Ids of 32 bits are the same in the process list as what is decoded. -/
theorem orphaned_iff {processlist : List ℕ} (h : ∀ id ∈ processlist,id < 2^32) (xaId : String) :
    Orphaned (processlist.map RowId.ofId) xaId ↔
      ∃ x,decode xaId=some x ∧ x.connectionId ∉ processlist := by
  have hrow : ∀ n,.number (asNumber n) ∈ processlist.map RowId.ofId ↔ n ∈ processlist := by
    intro n
    constructor
    · intro hm
      obtain ⟨id,hid,he⟩ := List.mem_map.mp hm
      have hlt := h id hid
      rw [RowId.ofId,if_pos (by omega)] at he
      rw [asNumber_inj hlt (RowId.number.inj he).symm]
      exact hid
    · intro hm
      have hlt := h n hm
      refine List.mem_map.mpr ⟨n,hm,?_⟩
      rw [RowId.ofId,if_pos (by omega),asNumber_eq (by omega)]
  constructor
  · rintro ⟨_,hc,hn⟩
    obtain ⟨x,hd,rfl⟩ := Option.map_eq_some_iff.mp hc
    exact ⟨x,hd,fun hm => hn ((hrow x.connectionId).mpr hm)⟩
  · rintro ⟨x,hd,hn⟩
    exact ⟨asNumber x.connectionId,by rw [connectionOf,hd]; rfl,fun hm => hn ((hrow x.connectionId).mp hm)⟩

/-- The task rolls back the recovered transactions whose ids are of the generator and
name no connection of the process list, each once. Connections have ids of 32 bits,
so that numbers hold them. -/
theorem rolledBack_orphaned (decoder : List UInt8 → String) (recovered : List RecoveredData)
    (rows : List RowId) :
    (rollbacks decoder recovered rows).Perm
        ((recovered.map (RecoveredData.xaId decoder)).filter (fun xaId => decide (Orphaned rows xaId))) ∧
      ∀ processlist : List ℕ,rows=processlist.map RowId.ofId → (∀ id ∈ processlist,id < 2^32) →
        ∀ xaId,xaId ∈ rollbacks decoder recovered rows ↔
          xaId ∈ recovered.map (RecoveredData.xaId decoder) ∧
            ∃ x,decode xaId=some x ∧ x.connectionId ∉ processlist := by
  have hperm : (rollbacks decoder recovered rows).Perm
      ((recovered.map (RecoveredData.xaId decoder)).filter (fun xaId => decide (Orphaned rows xaId))) := by
    rw [← filter_entries]
    exact (dropRows_perm rows _).map Prod.fst
  refine ⟨hperm,fun processlist hr h xaId => ?_⟩
  rw [hperm.mem_iff,List.mem_filter,decide_eq_true_eq,hr,orphaned_iff h]

/-- A text and bytes, of which a connection that is alive owns the text. -/
theorem rolledBack_orphaned_mixed :
    "tf5k3.0@7-6" ∈ rollbacks (fun _ => "tf5k3.0@7-6") [.text "tf5k3.0@7-5",.binary [1]] [.number 5] :=
  ((rolledBack_orphaned (fun _ => "tf5k3.0@7-6") [.text "tf5k3.0@7-5",.binary [1]] [.number 5]).2
    [5] (by decide +kernel) (by decide) "tf5k3.0@7-6").mpr ⟨by decide,⟨49415907,7,6⟩,by decide +kernel,by decide⟩

end SpiritMysql.XaTask
