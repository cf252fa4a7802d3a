import Mathlib.Data.List.GetD
import Mathlib.Data.List.Infix
import Mathlib.Order.Nat
import SpiritMysql.EventSystem
import SpiritMysql.ListUpdates

/-!
# Buffers of connections

Buffers go from a protocol that ends to the factory, and from there to the next
connection. A read takes the memory of the buffer it is given, and `newConn()` keeps
the buffer that it started with over all attempts.
-/

namespace SpiritMysql.BufferOwners

open EventSystem ListUpdates

/-- `BUFFER_LEN`. -/
def bufferLen : ℕ := 8192

/-- `SAVE_UNUSED_BUFFERS`. -/
def saveUnusedBuffers : ℕ := 10

/-- What an attempt of `newConn()` has come to. -/
inductive Attempt where
  /-- No call of `inst()` is going on. -/
  | idle
  /-- `inst()` has made an object with this buffer, or is before that. So many reads
  took memory. -/
  | going (buffer : Option ℕ) (reads : ℕ)
  /-- `newConn()` returned or threw. -/
  | ended
deriving DecidableEq, Repr

/-- A call of `newConn()`. -/
structure Call where
  /-- `unusedBuffer`. -/
  unusedBuffer : Option ℕ
  /-- The attempt. -/
  attempt : Attempt := .idle
deriving DecidableEq, Repr

/-- The factory, and what it made. Buffers are numbered as their memory was
allocated. -/
structure State where
  /-- The lengths of all memory. It is zero after the memory was taken. -/
  arrays : List ℕ := []
  /-- `#unusedBuffers`. -/
  unusedBuffers : List ℕ := []
  /-- The calls of `newConn()`. -/
  calls : List Call := []
  /-- The buffers of the protocols. It is `STUB` after it was recycled. -/
  protocols : List (Option ℕ) := []
deriving DecidableEq, Repr

/-- What comes of a read. -/
inductive Read where
  /-- Bytes arrived. -/
  | arrived
  /-- The stream ended or failed meanwhile. -/
  | ended
  /-- The stream had failed before, and the read was rejected at once. -/
  | refused
deriving DecidableEq, Repr

/-- An event. -/
inductive Event where
  /-- `newConn()` is called. -/
  | newConn
  /-- `newConn()` calls `inst()`, which connects or throws before. -/
  | inst (c : ℕ) (connected : Bool)
  /-- The object that `inst()` made reads. -/
  | handshakeRead (c : ℕ) (o : Read)
  /-- `inst()` threw, and is tried again or not. -/
  | failed (c : ℕ) (retry : Bool)
  /-- `inst()` returned. -/
  | connected (c : ℕ)
  /-- A protocol reads to its buffer. -/
  | read (p : ℕ) (o : Read)
  /-- `ensureRoom()` of a protocol makes a longer buffer. -/
  | grow (p n : ℕ)
  /-- `closeConn()` of a protocol, which can recycle the connection. -/
  | closeConn (p : ℕ) (recycle : Bool)
deriving DecidableEq, Repr

/-- Read to a buffer: the memory afterwards, and the buffer. An empty view is not
taken. -/
def readFromConn (arrays : List ℕ) (buffer : ℕ) (o : Read) : List ℕ×ℕ :=
  if arrays.getD buffer 0=0 then (arrays,buffer)
  else
    match o with
    | .arrived => (arrays.set buffer 0++[arrays.getD buffer 0],arrays.length)
    | .ended => (arrays.set buffer 0,buffer)
    | .refused => (arrays,buffer)

/-- The constructor of `MyProtocolReader`: the memory, and `buffer`. -/
def construct (arrays : List ℕ) : Option ℕ → List ℕ×ℕ
  | some useBuffer => (arrays,useBuffer)
  | none => (arrays++[bufferLen],arrays.length)

/-- `recycleBuffer()`. -/
def recycleBuffer (arrays : List ℕ) (buffer : ℕ) : Option ℕ :=
  if arrays.getD buffer 0=bufferLen then some buffer else none

/-- What an event does. It can be impossible. -/
def State.step (s : State) : Event → Option State
  | .newConn =>
    some {s with
      unusedBuffers := s.unusedBuffers.dropLast
      calls := s.calls++[{unusedBuffer := s.unusedBuffers.getLast?}]}
  | .inst c connected =>
    match s.calls[c]? with
    | some ⟨unusedBuffer,.idle⟩ =>
      if connected=true then
        let (arrays,buffer) := construct s.arrays unusedBuffer
        some {s with arrays,calls := s.calls.set c ⟨unusedBuffer,.going (some buffer) 0⟩}
      else some {s with calls := s.calls.set c ⟨unusedBuffer,.going none 0⟩}
    | _ => none
  | .handshakeRead c o =>
    match s.calls[c]? with
    | some ⟨unusedBuffer,.going (some buffer) reads⟩ =>
      let (arrays,buffer) := readFromConn s.arrays buffer o
      let reads := if o=.refused then reads else reads+1
      some {s with arrays,calls := s.calls.set c ⟨unusedBuffer,.going (some buffer) reads⟩}
    | _ => none
  | .failed c retry =>
    match s.calls[c]? with
    | some ⟨unusedBuffer,.going _ _⟩ =>
      some {s with calls := s.calls.set c ⟨unusedBuffer,if retry=true then .idle else .ended⟩}
    | _ => none
  | .connected c =>
    match s.calls[c]? with
    | some ⟨unusedBuffer,.going (some buffer) _⟩ =>
      some {s with calls := s.calls.set c ⟨unusedBuffer,.ended⟩,protocols := s.protocols++[some buffer]}
    | _ => none
  | .read p o =>
    match s.protocols[p]? with
    | some (some buffer) =>
      let (arrays,buffer) := readFromConn s.arrays buffer o
      some {s with arrays,protocols := s.protocols.set p (some buffer)}
    | _ => none
  | .grow p n =>
    match s.protocols[p]? with
    | some (some buffer) =>
      some {s with
        arrays := s.arrays++[s.arrays.getD buffer 0*2^(n+1)]
        protocols := s.protocols.set p (some s.arrays.length)}
    | _ => none
  | .closeConn p recycle =>
    match s.protocols[p]? with
    | some (some buffer) =>
      let useBuffer := recycleBuffer s.arrays buffer
      let protocols := s.protocols.set p none
      if recycle=true then
        let (arrays,buffer) := construct s.arrays useBuffer
        some {s with arrays,protocols := protocols++[some buffer]}
      else if s.unusedBuffers.length < saveUnusedBuffers then
        some {s with unusedBuffers := s.unusedBuffers++useBuffer.toList,protocols}
      else some {s with protocols}
    | _ => none

/-- The buffers that a call of `newConn()` refers to. -/
def Call.refs (k : Call) : List ℕ :=
  match k.attempt with
  | .idle => k.unusedBuffer.toList
  | .going buffer _ => if buffer=k.unusedBuffer then buffer.toList else k.unusedBuffer.toList++buffer.toList
  | .ended => []

/-- How many hold a buffer: the factory, calls and protocols. -/
def State.holders (s : State) (r : ℕ) : ℕ :=
  s.unusedBuffers.count r+(s.calls.map (fun k => k.refs.count r)).sum+
    (s.protocols.map (fun p => p.toList.count r)).sum

/-- What `inst()` is called with is nothing, or a buffer of the right length that
nobody holds except for the call. -/
def Usable (s : State) : Event → Prop
  | .inst c _ =>
    ∀ unusedBuffer,s.calls[c]?=some ⟨some unusedBuffer,.idle⟩ →
      s.arrays.getD unusedBuffer 0=bufferLen ∧ s.holders unusedBuffer=1
  | _ => True

/-- An attempt is made again only when it had no reads, or when `newConn()` found no
unused buffer. -/
def RetriedUnread (s : State) : Event → Prop
  | .failed c true =>
    ∀ unusedBuffer buffer reads,s.calls[c]?=some ⟨unusedBuffer,.going buffer reads⟩ →
      unusedBuffer=none ∨ reads=0
  | _ => True

/-- The call had no read, so it still can be tried again. -/
def Call.untouched (k : Call) : Prop := k.attempt=.idle ∨ ∃ buffer,k.attempt=.going buffer 0

/-- Memory has one holder at most, and buffers for new connections are of the right
length. -/
structure Inv (s : State) : Prop where
  /-- What is held was allocated. -/
  known : ∀ r,0 < s.holders r → r < s.arrays.length
  /-- Memory that was not taken is held once. -/
  single : ∀ r,s.arrays.getD r 0≠0 → s.holders r ≤ 1
  /-- The buffers of the factory. -/
  unused : ∀ r ∈ s.unusedBuffers,s.arrays.getD r 0=bufferLen
  /-- The buffer of a call that had no read. -/
  calls : ∀ (c : ℕ) (k : Call) (r : ℕ),s.calls[c]?=some k → k.untouched → k.unusedBuffer=some r →
    s.arrays.getD r 0=bufferLen
  /-- The object of an attempt that had no read has the buffer of the call. -/
  start : ∀ (c r b : ℕ),s.calls[c]?=some ⟨some r,.going (some b) 0⟩ → b=r
  /-- After a read the buffer of the call is empty. -/
  taken : ∀ (c r : ℕ) (buffer : Option ℕ) (n : ℕ),s.calls[c]?=some ⟨some r,.going buffer (n+1)⟩ →
    s.arrays.getD r 0=0

/-- What becomes of memory: it stays, or is taken. -/
structure Later (arrays arrays' : List ℕ) (taken : ℕ → Prop) : Prop where
  /-- Nothing is removed. -/
  grows : arrays.length ≤ arrays'.length
  /-- What is not taken stays. -/
  same : ∀ r < arrays.length,¬taken r → arrays'.getD r 0=arrays.getD r 0
  /-- What is taken is empty. -/
  empty : ∀ r < arrays.length,taken r → arrays'.getD r 0=0

/-- Memory that is not touched. -/
theorem Later.refl (arrays : List ℕ) : Later arrays arrays (fun _ => False) :=
  ⟨Nat.le_refl _,fun _ _ _ => rfl,fun _ _ h => h.elim⟩

/-- One more allocation. -/
theorem Later.alloc (arrays : List ℕ) (n : ℕ) : Later arrays (arrays++[n]) (fun _ => False) :=
  ⟨by rw [List.length_append]; exact Nat.le_add_right _ _,fun _ hr _ => List.getD_append _ _ _ _ hr,
    fun _ _ h => h.elim⟩

/-- What was empty stays empty. -/
theorem Later.stays {arrays arrays' : List ℕ} {taken : ℕ → Prop} (h : Later arrays arrays' taken) {r : ℕ}
    (hr : r < arrays.length) (hz : arrays.getD r 0=0) : arrays'.getD r 0=0 := by
  by_cases ht : taken r
  · exact h.empty r hr ht
  · rw [h.same r hr ht,hz]

/-- A read: what it takes, and the buffer afterwards. -/
theorem read_spec {arrays : List ℕ} {b : ℕ} (hb : b < arrays.length) (o : Read) :
    Later arrays (readFromConn arrays b o).1 (fun r => r=b ∧ o≠.refused) ∧
      ((readFromConn arrays b o).2=b ∨
        o≠.refused ∧ (readFromConn arrays b o).2=arrays.length ∧
          arrays.length < (readFromConn arrays b o).1.length) := by
  unfold readFromConn
  by_cases hz : arrays.getD b 0=0
  · rw [if_pos hz]
    refine ⟨⟨Nat.le_refl _,fun _ _ _ => rfl,fun r _ ht => ?_⟩,Or.inl rfl⟩
    rw [ht.1]
    exact hz
  · rw [if_neg hz]
    have hset : ∀ r,(arrays.set b 0).getD r 0=if r=b then 0 else arrays.getD r 0 :=
      fun r => getD_set hb 0 0 r
    cases o with
    | arrived =>
      have hlen : (arrays.set b 0).length=arrays.length := List.length_set
      refine ⟨⟨?_,fun r hr ht => ?_,fun r hr ht => ?_⟩,Or.inr ⟨(fun he => by cases he),rfl,?_⟩⟩
      · simp only [List.length_append,hlen]
        exact Nat.le_add_right _ _
      · show (arrays.set b 0++[_]).getD r 0=_
        rw [List.getD_append _ _ _ _ (by rw [hlen]; exact hr),hset,
          if_neg (fun he => ht ⟨he,(fun hc => by cases hc)⟩)]
      · show (arrays.set b 0++[_]).getD r 0=0
        rw [List.getD_append _ _ _ _ (by rw [hlen]; exact hr),hset,if_pos ht.1]
      · simp only [List.length_append,hlen,List.length_singleton]
        exact Nat.lt_succ_self _
    | ended =>
      refine ⟨⟨?_,fun r hr ht => ?_,fun r hr ht => ?_⟩,Or.inl rfl⟩
      · exact Nat.le_of_eq List.length_set.symm
      · show (arrays.set b 0).getD r 0=_
        rw [hset,if_neg (fun he => ht ⟨he,(fun hc => by cases hc)⟩)]
      · show (arrays.set b 0).getD r 0=0
        rw [hset,if_pos ht.1]
    | refused =>
      exact ⟨⟨Nat.le_refl _,fun _ _ _ => rfl,fun r _ ht => absurd rfl ht.2⟩,Or.inl rfl⟩

/-- A new object has the buffer it is given, or one of its own. -/
theorem construct_spec (arrays : List ℕ) (useBuffer : Option ℕ) :
    Later arrays (construct arrays useBuffer).1 (fun _ => False) ∧
      (useBuffer=some (construct arrays useBuffer).2 ∨
        useBuffer=none ∧ (construct arrays useBuffer).2=arrays.length ∧
          arrays.length < (construct arrays useBuffer).1.length) := by
  cases useBuffer with
  | some b => exact ⟨Later.refl arrays,Or.inl rfl⟩
  | none =>
    refine ⟨Later.alloc arrays bufferLen,Or.inr ⟨rfl,rfl,?_⟩⟩
    show arrays.length < (arrays++[bufferLen]).length
    rw [List.length_append]
    exact Nat.lt_succ_self _

/-- What is held and was not taken is held once, when old memory got no new holders and
new memory one at most. -/
theorem Inv.lift {s s' : State} (h : Inv s) {taken : ℕ → Prop}
    (hold : ∀ r < s.arrays.length,s'.holders r ≤ s.holders r) (hl : Later s.arrays s'.arrays taken)
    (hnew : ∀ r,s.arrays.length ≤ r → s'.holders r ≤ 1 ∧ (0 < s'.holders r → r < s'.arrays.length)) :
    (∀ r,0 < s'.holders r → r < s'.arrays.length) ∧ ∀ r,s'.arrays.getD r 0≠0 → s'.holders r ≤ 1 := by
  have hgrows := hl.grows
  constructor
  · intro r hr
    by_cases hlt : r < s.arrays.length
    · omega
    · exact (hnew r (by omega)).2 hr
  · intro r hz
    by_cases hlt : r < s.arrays.length
    · have hsame : ¬taken r := fun ht => hz (hl.empty r hlt ht)
      rw [hl.same r hlt hsame] at hz
      exact (hold r hlt).trans (h.single r hz)
    · exact (hnew r (by omega)).1

/-- A buffer of the factory is held by no call. -/
theorem Inv.unused_call {s : State} (h : Inv s) {r c : ℕ} {k : Call} (hr : r ∈ s.unusedBuffers)
    (hk : s.calls[c]?=some k) : r ∉ k.refs := by
  intro hm
  have hs := h.single r (by rw [h.unused r hr]; decide)
  have hu := List.count_pos_iff.mpr hr
  have hc := List.count_pos_iff.mpr hm
  have hle := le_total (fun k : Call => k.refs.count r) hk
  unfold State.holders at hs
  omega

/-- A buffer of the factory is held by no protocol. -/
theorem Inv.unused_protocol {s : State} (h : Inv s) {r p : ℕ} (hr : r ∈ s.unusedBuffers) :
    s.protocols[p]?≠some (some r) := by
  intro hp
  have hs := h.single r (by rw [h.unused r hr]; decide)
  have hu := List.count_pos_iff.mpr hr
  have hle := le_total (fun p : Option ℕ => p.toList.count r) hp
  have hone : (some r).toList.count r=1 := List.count_singleton_self
  unfold State.holders at hs
  omega

/-- The buffer of a call that had no read is held by no other call. -/
theorem Inv.call_call {s : State} (h : Inv s) {r c d : ℕ} {k l : Call} (hk : s.calls[c]?=some k)
    (hl : s.calls[d]?=some l) (hne : c≠d) (hz : s.arrays.getD r 0≠0) (hr : r ∈ k.refs) : r ∉ l.refs := by
  intro hm
  have hs := h.single r hz
  have hck := List.count_pos_iff.mpr hr
  have hcl := List.count_pos_iff.mpr hm
  have hle := two_le_total (fun k : Call => k.refs.count r) hk hl hne
  unfold State.holders at hs
  omega

/-- The buffer of a call that had no read is held by no protocol. -/
theorem Inv.call_protocol {s : State} (h : Inv s) {r c p : ℕ} {k : Call} (hk : s.calls[c]?=some k)
    (hz : s.arrays.getD r 0≠0) (hr : r ∈ k.refs) : s.protocols[p]?≠some (some r) := by
  intro hp
  have hs := h.single r hz
  have hck := List.count_pos_iff.mpr hr
  have hlek := le_total (fun k : Call => k.refs.count r) hk
  have hlep := le_total (fun p : Option ℕ => p.toList.count r) hp
  have hone : (some r).toList.count r=1 := List.count_singleton_self
  unfold State.holders at hs
  omega

/-- A call that did not end holds its buffer. -/
theorem Call.mem_refs {k : Call} {r : ℕ} (hu : k.unusedBuffer=some r) (he : k.attempt≠.ended) :
    r ∈ k.refs := by
  unfold Call.refs
  cases ha : k.attempt with
  | idle => rw [hu]; exact List.mem_singleton.mpr rfl
  | going buffer reads =>
    dsimp only
    split_ifs with hb
    · rw [hb,hu]
      exact List.mem_singleton.mpr rfl
    · rw [hu]
      exact List.mem_append_left _ (List.mem_singleton.mpr rfl)
  | ended => exact absurd ha he

/-- The object of an attempt holds its buffer. -/
theorem Call.buffer_refs (unusedBuffer : Option ℕ) (buffer reads : ℕ) :
    buffer ∈ (⟨unusedBuffer,.going (some buffer) reads⟩ : Call).refs := by
  unfold Call.refs
  dsimp only
  split_ifs
  · exact List.mem_singleton.mpr rfl
  · exact List.mem_append_right _ (List.mem_singleton.mpr rfl)

/-- A call that had no read did not end. -/
theorem Call.untouched_open {k : Call} (h : k.untouched) : k.attempt≠.ended := by
  rcases h with h | ⟨_,h⟩
  · rw [h]
    exact fun he => by cases he
  · rw [h]
    exact fun he => by cases he

/-- The buffer of a call was allocated. -/
theorem Inv.call_known {s : State} (h : Inv s) {c r : ℕ} {k : Call} (hk : s.calls[c]?=some k)
    (hr : r ∈ k.refs) : r < s.arrays.length := by
  refine h.known r ?_
  have hc := List.count_pos_iff.mpr hr
  have hle := le_total (fun k : Call => k.refs.count r) hk
  unfold State.holders
  omega

/-- The buffer of a protocol was allocated. -/
theorem Inv.protocol_known {s : State} (h : Inv s) {p r : ℕ} (hp : s.protocols[p]?=some (some r)) :
    r < s.arrays.length := by
  refine h.known r ?_
  have hle := le_total (fun p : Option ℕ => p.toList.count r) hp
  have hone : (some r).toList.count r=1 := List.count_singleton_self
  unfold State.holders
  omega

/-- `newConn()` takes the last buffer of the factory. -/
theorem Inv.newConn {s : State} (h : Inv s) :
    Inv {s with
      unusedBuffers := s.unusedBuffers.dropLast
      calls := s.calls++[{unusedBuffer := s.unusedBuffers.getLast?}]} := by
  have hholders : ∀ r,State.holders {s with
      unusedBuffers := s.unusedBuffers.dropLast
      calls := s.calls++[{unusedBuffer := s.unusedBuffers.getLast?}]} r=s.holders r := by
    intro r
    have hcount : s.unusedBuffers.count r=
        s.unusedBuffers.dropLast.count r+(s.unusedBuffers.getLast?).toList.count r := by
      rw [← List.count_append]
      cases hl : s.unusedBuffers.getLast? with
      | none =>
        rw [List.getLast?_eq_none_iff.mp hl]
        rfl
      | some last =>
        rw [Option.toList_some,List.dropLast_append_getLast? last hl]
    simp only [State.holders,List.map_append,List.sum_append,List.map_singleton,List.sum_singleton,
      Call.refs]
    omega
  obtain ⟨hknown,hsingle⟩ := h.lift (fun r _ => Nat.le_of_eq (hholders r)) (Later.refl s.arrays)
    (fun r hr => by
      have hk := h.known r
      rw [hholders]
      constructor
      · omega
      · exact hk)
  refine ⟨hknown,hsingle,fun r hr => h.unused r (List.mem_of_mem_dropLast hr),?_,?_,?_⟩
  · intro c k r hk hopen hu
    rcases getElem_concat hk with hk | ⟨_,rfl⟩
    · exact h.calls c k r hk hopen hu
    · exact h.unused r (List.mem_of_getLast? hu)
  · intro c r b hk
    rcases getElem_concat hk with hk | ⟨_,hk⟩
    · exact h.start c r b hk
    · cases congrArg Call.attempt hk
  · intro c r buffer n hk
    rcases getElem_concat hk with hk | ⟨_,hk⟩
    · exact h.taken c r buffer n hk
    · cases congrArg Call.attempt hk

/-- What was not allocated is not held. -/
theorem Inv.unknown {s : State} (h : Inv s) {r : ℕ} (hr : s.arrays.length ≤ r) : s.holders r=0 := by
  by_contra hne
  have hlt := h.known r (Nat.pos_of_ne_zero hne)
  omega

/-- The buffer of a call stays, when only memory of others was taken. -/
theorem Inv.call_stays {s : State} (h : Inv s) {arrays : List ℕ} {taken : ℕ → Prop}
    (hl : Later s.arrays arrays taken) {c r : ℕ} {k : Call} (hk : s.calls[c]?=some k)
    (hopen : k.untouched) (hu : k.unusedBuffer=some r) (hn : ¬taken r) :
    arrays.getD r 0=bufferLen := by
  have hlt := h.call_known hk (Call.mem_refs hu (Call.untouched_open hopen))
  rw [hl.same r hlt hn]
  exact h.calls c k r hk hopen hu

/-- A buffer of the factory was allocated. -/
theorem Inv.unused_known {s : State} (h : Inv s) {r : ℕ} (hr : r ∈ s.unusedBuffers) :
    r < s.arrays.length := by
  by_contra hge
  have hv := h.unused r hr
  rw [List.getD_eq_default _ _ (by omega)] at hv
  cases hv

/-- A call goes on: it gives up memory, takes its own, or holds new memory. -/
theorem Inv.setCall {s : State} (h : Inv s) {c : ℕ} {k k' : Call} {arrays : List ℕ} {taken : ℕ → Prop}
    (hk : s.calls[c]?=some k) (hl : Later s.arrays arrays taken)
    (hrefs : ∀ r < s.arrays.length,k'.refs.count r ≤ k.refs.count r)
    (hfresh : ∀ r,s.arrays.length ≤ r → k'.refs.count r ≤ 1 ∧ (r ∈ k'.refs → r < arrays.length))
    (htaken : ∀ r,taken r → r ∈ k.refs)
    (hcalls : ∀ r,k'.untouched → k'.unusedBuffer=some r → arrays.getD r 0=bufferLen)
    (hstart : ∀ r b,k'=⟨some r,.going (some b) 0⟩ → b=r)
    (hempty : ∀ r buffer n,k'=⟨some r,.going buffer (n+1)⟩ → arrays.getD r 0=0) :
    Inv {s with arrays,calls := s.calls.set c k'} := by
  have hholders : ∀ r,State.holders {s with arrays,calls := s.calls.set c k'} r+k.refs.count r=
      s.holders r+k'.refs.count r := by
    intro r
    have ht := total_set (fun k : Call => k.refs.count r) hk k'
    simp only [State.holders]
    omega
  obtain ⟨hknown,hsingle⟩ := h.lift
    (fun r hr => by
      have hh := hholders r
      have hle := hrefs r hr
      show State.holders {s with arrays,calls := s.calls.set c k'} r ≤ s.holders r
      omega) hl
    (fun r hr => by
      have hh := hholders r
      rw [h.unknown hr] at hh
      obtain ⟨hle,hlt⟩ := hfresh r hr
      refine ⟨by omega,fun hpos => hlt (List.count_pos_iff.mp (by omega))⟩)
  refine ⟨hknown,hsingle,fun r hr => ?_,?_,?_,?_⟩
  · have hn : ¬taken r := fun ht => h.unused_call hr hk (htaken r ht)
    show arrays.getD r 0=bufferLen
    rw [hl.same r (h.unused_known hr) hn]
    exact h.unused r hr
  · intro d l r hd hopen hu
    rcases getElem_set hd with ⟨_,rfl⟩ | ⟨hne,hd⟩
    · exact hcalls r hopen hu
    · refine h.call_stays hl hd hopen hu (fun ht => ?_)
      have hz : s.arrays.getD r 0≠0 := by
        rw [h.calls d l r hd hopen hu]
        decide
      exact h.call_call hk hd hne hz (htaken r ht) (Call.mem_refs hu (Call.untouched_open hopen))
  · intro d r b hd
    rcases getElem_set hd with ⟨_,he⟩ | ⟨_,hd⟩
    · exact hstart r b he.symm
    · exact h.start d r b hd
  · intro d r buffer n hd
    rcases getElem_set hd with ⟨_,he⟩ | ⟨_,hd⟩
    · exact hempty r buffer n he.symm
    · have hlt := h.call_known hd (Call.mem_refs rfl (fun he => by cases he))
      exact hl.stays hlt (h.taken d r buffer n hd)

/-- Protocols go on, and the factory: they give up memory, take that of protocols, or hold
new memory. -/
theorem Inv.keepCalls {s s' : State} (h : Inv s) {taken : ℕ → Prop}
    (hold : ∀ r < s.arrays.length,s'.holders r ≤ s.holders r) (hl : Later s.arrays s'.arrays taken)
    (hnew : ∀ r,s.arrays.length ≤ r → s'.holders r ≤ 1 ∧ (0 < s'.holders r → r < s'.arrays.length))
    (hsame : s'.calls=s.calls) (htaken : ∀ r,taken r → ∃ p : ℕ,s.protocols[p]?=some (some r))
    (hunused : ∀ r ∈ s'.unusedBuffers,s'.arrays.getD r 0=bufferLen) : Inv s' := by
  obtain ⟨hknown,hsingle⟩ := h.lift hold hl hnew
  refine ⟨hknown,hsingle,hunused,?_,?_,?_⟩
  · intro c k r hk hopen hu
    rw [hsame] at hk
    refine h.call_stays hl hk hopen hu (fun ht => ?_)
    have hz : s.arrays.getD r 0≠0 := by
      rw [h.calls c k r hk hopen hu]
      decide
    obtain ⟨p,hp⟩ := htaken r ht
    exact h.call_protocol hk hz (Call.mem_refs hu (Call.untouched_open hopen)) hp
  · intro c r b hk
    rw [hsame] at hk
    exact h.start c r b hk
  · intro c r buffer n hk
    rw [hsame] at hk
    have hlt := h.call_known hk (Call.mem_refs rfl (fun he => by cases he))
    exact hl.stays hlt (h.taken c r buffer n hk)

/-- `inst()` connected: the object has the buffer of the call, or one of its own. -/
theorem Inv.inst {s : State} (h : Inv s) {c : ℕ} {unusedBuffer : Option ℕ}
    (hk : s.calls[c]?=some ⟨unusedBuffer,.idle⟩) :
    Inv {s with
      arrays := (construct s.arrays unusedBuffer).1
      calls := s.calls.set c ⟨unusedBuffer,.going (some (construct s.arrays unusedBuffer).2) 0⟩} := by
  obtain ⟨hl,hb⟩ := construct_spec s.arrays unusedBuffer
  have hempty : ∀ r buffer n,(⟨unusedBuffer,.going (some (construct s.arrays unusedBuffer).2) 0⟩ : Call)=
      ⟨some r,.going buffer (n+1)⟩ → (construct s.arrays unusedBuffer).1.getD r 0=0 :=
    fun r buffer n he => by cases congrArg Call.attempt he
  rcases hb with hb | ⟨rfl,hb,hlen⟩
  · have hrefs : (⟨unusedBuffer,.going (some (construct s.arrays unusedBuffer).2) 0⟩ : Call).refs=
        (⟨unusedBuffer,.idle⟩ : Call).refs := by
      unfold Call.refs
      dsimp only
      rw [if_pos hb.symm,← hb]
    refine h.setCall hk hl (fun r _ => by rw [hrefs]) (fun r hr => ?_) (fun r ht => ht.elim)
      (fun r _ hu => h.call_stays hl hk (Or.inl rfl) hu id) (fun r b he => ?_) hempty
    · rw [hrefs]
      have hno : r ∉ (⟨unusedBuffer,.idle⟩ : Call).refs := fun hm => by
        have hlt := h.call_known hk hm
        omega
      exact ⟨by rw [List.count_eq_zero.mpr hno]; decide,fun hm => absurd hm hno⟩
    · obtain ⟨hu,ha⟩ := Call.mk.inj he
      have hbuffer := (Attempt.going.inj ha).1
      rw [hb,hbuffer] at hu
      exact Option.some.inj hu
  · have hrefs : (⟨none,.going (some (construct s.arrays none).2) 0⟩ : Call).refs=[s.arrays.length] := rfl
    refine h.setCall hk hl (fun r hr => ?_) (fun r _ => ?_) (fun r ht => ht.elim)
      (fun r _ hu => by cases hu) (fun r b he => by cases congrArg Call.unusedBuffer he) hempty
    · rw [hrefs,List.count_eq_zero.mpr (fun hm => absurd (List.mem_singleton.mp hm) (Nat.ne_of_lt hr))]
      exact Nat.zero_le _
    · rw [hrefs]
      exact ⟨List.count_le_length.trans (Nat.le_of_eq rfl),fun hm => by rw [List.mem_singleton.mp hm]; exact hlen⟩

/-- `inst()` throws before it connects. -/
theorem Inv.instFails {s : State} (h : Inv s) {c : ℕ} {unusedBuffer : Option ℕ}
    (hk : s.calls[c]?=some ⟨unusedBuffer,.idle⟩) :
    Inv {s with calls := s.calls.set c ⟨unusedBuffer,.going none 0⟩} := by
  have hrefs : (⟨unusedBuffer,.going none 0⟩ : Call).refs=(⟨unusedBuffer,.idle⟩ : Call).refs := by
    cases unusedBuffer with
    | none => rfl
    | some b => rfl
  have hl := Later.refl s.arrays
  refine h.setCall hk hl (fun r _ => by rw [hrefs]) (fun r hr => ?_) (fun r ht => ht.elim)
    (fun r _ hu => h.call_stays hl hk (Or.inl rfl) hu id)
    (fun r b he => by cases congrArg Call.attempt he)
    (fun r buffer n he => by cases congrArg Call.attempt he)
  rw [hrefs]
  have hno : r ∉ (⟨unusedBuffer,.idle⟩ : Call).refs := fun hm => by
    have hlt := h.call_known hk hm
    omega
  exact ⟨by rw [List.count_eq_zero.mpr hno]; decide,fun hm => absurd hm hno⟩

/-- The object of an attempt reads. -/
theorem Inv.handshakeRead {s : State} (h : Inv s) {c buffer reads : ℕ} {unusedBuffer : Option ℕ} {o : Read}
    (hk : s.calls[c]?=some ⟨unusedBuffer,.going (some buffer) reads⟩) :
    Inv {s with
      arrays := (readFromConn s.arrays buffer o).1
      calls := s.calls.set c ⟨unusedBuffer,.going (some (readFromConn s.arrays buffer o).2)
        (if o=.refused then reads else reads+1)⟩} := by
  have hown := Call.buffer_refs unusedBuffer buffer reads
  obtain ⟨hl,hb⟩ := read_spec (h.call_known hk hown) o
  obtain ⟨b',hb'⟩ : ∃ b',b'=(readFromConn s.arrays buffer o).2 := ⟨_,rfl⟩
  obtain ⟨arrays,ha⟩ : ∃ arrays,arrays=(readFromConn s.arrays buffer o).1 := ⟨_,rfl⟩
  rw [← hb'] at hb
  rw [← ha] at hl hb
  rw [← hb',← ha]
  have hnone : ∀ r,s.arrays.length ≤ r →
      r ∉ (⟨unusedBuffer,.going (some buffer) reads⟩ : Call).refs := fun r hr hm => by
    have hlt := h.call_known hk hm
    omega
  have hmine : ∀ r,unusedBuffer=some r →
      r ∈ (⟨unusedBuffer,.going (some buffer) reads⟩ : Call).refs :=
    fun r hu => Call.mem_refs hu (fun he => by cases he)
  refine h.setCall hk hl (fun r hr => ?_) (fun r hr => ?_) (fun r ht => by rw [ht.1]; exact hown)
    (fun r hopen hu => ?_) (fun r b he => ?_) (fun r buf n he => ?_)
  · rcases hb with hb | ⟨-,hb,-⟩
    · rw [hb]
      exact Nat.le_refl _
    · -- the new memory is not the one of the call
      have hother : some b'≠unusedBuffer := fun he => hnone b' (by omega) (hmine b' he.symm)
      have hzero : [b'].count r=0 :=
        List.count_eq_zero.mpr (fun hm => by rw [List.mem_singleton.mp hm] at hr; omega)
      simp only [Call.refs,if_neg hother,Option.toList_some,List.count_append,hzero,add_zero]
      split_ifs with hsame
      · rw [← hsame]
        exact Nat.le_refl _
      · rw [List.count_append]
        exact Nat.le_add_right _ _
  · have hno := hnone r hr
    rcases hb with hb | ⟨-,hb,hlen⟩
    · have hzero : (⟨unusedBuffer,.going (some buffer) reads⟩ : Call).refs.count r=0 :=
        List.count_eq_zero.mpr hno
      rw [hb]
      exact ⟨hzero.trans_le (Nat.zero_le 1),fun hm => absurd hm hno⟩
    · have hother : some b'≠unusedBuffer := fun he => hnone b' (by omega) (hmine b' he.symm)
      have hnot : r ∉ unusedBuffer.toList := fun hm => hno (hmine r (Option.mem_toList.mp hm))
      simp only [Call.refs,if_neg hother,Option.toList_some,List.count_append,
        List.count_eq_zero.mpr hnot,zero_add,List.mem_append]
      refine ⟨List.count_le_length.trans (Nat.le_of_eq rfl),fun hm => ?_⟩
      rcases hm with hm | hm
      · exact absurd hm hnot
      · rw [List.mem_singleton.mp hm]
        omega
  · have hzero : o=.refused ∧ reads=0 := by
      rcases hopen with hopen | ⟨_,hopen⟩
      · cases hopen
      · have hr := (Attempt.going.inj hopen).2
        split_ifs at hr with ho
        exact ⟨ho,hr⟩
    exact h.call_stays hl hk (Or.inr ⟨_,by rw [hzero.2]⟩) hu (fun ht => ht.2 hzero.1)
  · obtain ⟨hu,hattempt⟩ := Call.mk.inj he
    obtain ⟨hbuffer,hr⟩ := Attempt.going.inj hattempt
    split_ifs at hr with ho
    rcases hb with hb | ⟨hno,-⟩
    · rw [hu,hr] at hk
      rw [← Option.some.inj hbuffer,hb]
      exact h.start c r buffer hk
    · exact absurd ho hno
  · obtain ⟨hu,hattempt⟩ := Call.mk.inj he
    have hr := (Attempt.going.inj hattempt).2
    have hlt := h.call_known hk (hmine r hu)
    rw [hu] at hk
    cases reads with
    | zero =>
      split_ifs at hr with ho
      exact hl.empty r hlt ⟨(h.start c r buffer hk).symm,ho⟩
    | succ reads => exact hl.stays hlt (h.taken c r (some buffer) reads hk)

/-- `inst()` threw. -/
theorem Inv.failed {s : State} (h : Inv s) {c : ℕ} {retry : Bool} (hc : RetriedUnread s (.failed c retry))
    {unusedBuffer buffer : Option ℕ} {reads : ℕ}
    (hk : s.calls[c]?=some ⟨unusedBuffer,.going buffer reads⟩) :
    Inv {s with calls := s.calls.set c ⟨unusedBuffer,if retry=true then .idle else .ended⟩} := by
  have hsub : ∀ r,(⟨unusedBuffer,if retry=true then .idle else .ended⟩ : Call).refs.count r ≤
      (⟨unusedBuffer,.going buffer reads⟩ : Call).refs.count r := by
    intro r
    cases retry with
    | false => exact Nat.zero_le _
    | true =>
      simp only [Call.refs,if_true]
      split_ifs with hsame
      · rw [hsame]
      · rw [List.count_append]
        exact Nat.le_add_right _ _
  have hl := Later.refl s.arrays
  refine h.setCall hk hl (fun r _ => hsub r) (fun r hr => ?_) (fun r ht => ht.elim)
    (fun r hopen hu => ?_) (fun r b he => ?_) (fun r buf n he => ?_)
  · have hno : (⟨unusedBuffer,.going buffer reads⟩ : Call).refs.count r=0 := by
      refine List.count_eq_zero.mpr (fun hm => ?_)
      have hlt := h.call_known hk hm
      omega
    have hle := hsub r
    exact ⟨by omega,fun hm => absurd (List.count_pos_iff.mpr hm) (by omega)⟩
  · cases retry with
    | false => exact absurd rfl (Call.untouched_open hopen)
    | true =>
      rcases hc unusedBuffer buffer reads hk with hu' | hr
      · rw [hu'] at hu
        cases hu
      · exact h.call_stays hl hk (Or.inr ⟨buffer,by rw [hr]⟩) hu id
  · have ha := congrArg Call.attempt he
    cases retry <;> cases ha
  · have ha := congrArg Call.attempt he
    cases retry <;> cases ha

/-- `inst()` returned, and the protocol has what the attempt held. -/
theorem Inv.connected {s : State} (h : Inv s) {c buffer reads : ℕ} {unusedBuffer : Option ℕ}
    (hk : s.calls[c]?=some ⟨unusedBuffer,.going (some buffer) reads⟩) :
    Inv {s with
      calls := s.calls.set c ⟨unusedBuffer,.ended⟩
      protocols := s.protocols++[some buffer]} := by
  have hholders : ∀ r,State.holders {s with
      calls := s.calls.set c ⟨unusedBuffer,.ended⟩
      protocols := s.protocols++[some buffer]} r ≤ s.holders r := by
    intro r
    have ht := total_set (fun k : Call => k.refs.count r) hk ⟨unusedBuffer,.ended⟩
    have hle : [buffer].count r ≤ (⟨unusedBuffer,.going (some buffer) reads⟩ : Call).refs.count r := by
      unfold Call.refs
      dsimp only
      split_ifs
      · exact Nat.le_refl _
      · rw [List.count_append]
        exact Nat.le_add_left _ _
    have hzero : (⟨unusedBuffer,.ended⟩ : Call).refs.count r=0 := rfl
    simp only [State.holders,List.map_append,List.sum_append,List.map_singleton,List.sum_singleton,
      Option.toList_some]
    omega
  obtain ⟨hknown,hsingle⟩ := h.lift (fun r _ => hholders r) (Later.refl s.arrays)
    (fun r hr => by
      have hh := hholders r
      rw [h.unknown hr] at hh
      exact ⟨by omega,fun hpos => by omega⟩)
  refine ⟨hknown,hsingle,h.unused,?_,?_,?_⟩
  · intro d l r hd hopen hu
    rcases getElem_set hd with ⟨_,rfl⟩ | ⟨_,hd⟩
    · exact absurd rfl (Call.untouched_open hopen)
    · exact h.calls d l r hd hopen hu
  · intro d r b hd
    rcases getElem_set hd with ⟨_,he⟩ | ⟨_,hd⟩
    · cases congrArg Call.attempt he
    · exact h.start d r b hd
  · intro d r buf n hd
    rcases getElem_set hd with ⟨_,he⟩ | ⟨_,hd⟩
    · cases congrArg Call.attempt he
    · exact h.taken d r buf n hd

/-- A protocol has another buffer, which is its own or new. -/
theorem Inv.setProtocol {s : State} (h : Inv s) {p b b' : ℕ} {arrays : List ℕ} {taken : ℕ → Prop}
    (hp : s.protocols[p]?=some (some b)) (hl : Later s.arrays arrays taken)
    (hb : b'=b ∨ b'=s.arrays.length ∧ s.arrays.length < arrays.length) (htaken : ∀ r,taken r → r=b) :
    Inv {s with arrays,protocols := s.protocols.set p (some b')} := by
  have hlt := h.protocol_known hp
  have hholders : ∀ r,State.holders {s with arrays,protocols := s.protocols.set p (some b')} r+[b].count r=
      s.holders r+[b'].count r := by
    intro r
    have ht := total_set (fun p : Option ℕ => p.toList.count r) hp (some b')
    simp only [Option.toList_some] at ht
    simp only [State.holders]
    omega
  have hone : ∀ b r : ℕ,[b].count r=if b=r then 1 else 0 := by
    intro b r
    rw [List.count_singleton]
    simp only [beq_iff_eq]
  refine h.keepCalls (fun r hr => ?_) hl (fun r hr => ?_) rfl (fun r ht => ⟨p,by rw [htaken r ht]; exact hp⟩)
    (fun r hr => ?_)
  · have hh := hholders r
    rw [hone,hone] at hh
    show State.holders {s with arrays,protocols := s.protocols.set p (some b')} r ≤ s.holders r
    split_ifs at hh <;> omega
  · have hh := hholders r
    rw [hone,hone,h.unknown hr] at hh
    show State.holders {s with arrays,protocols := s.protocols.set p (some b')} r ≤ 1 ∧
      (0 < State.holders {s with arrays,protocols := s.protocols.set p (some b')} r → r < arrays.length)
    split_ifs at hh <;> omega
  · have hnot : ¬taken r := fun ht => h.unused_protocol hr (by rw [htaken r ht]; exact hp)
    show arrays.getD r 0=bufferLen
    rw [hl.same r (h.unused_known hr) hnot]
    exact h.unused r hr

/-- A protocol gives up its buffer. -/
theorem holders_dropped {s : State} {p b : ℕ} (hp : s.protocols[p]?=some (some b)) (r : ℕ) :
    ((s.protocols.set p none).map (fun p : Option ℕ => p.toList.count r)).sum+[b].count r=
      (s.protocols.map (fun p : Option ℕ => p.toList.count r)).sum := by
  have ht := total_set (fun p : Option ℕ => p.toList.count r) hp none
  exact ht

/-- What is recycled is the buffer, of the right length. -/
theorem recycleBuffer_spec {arrays : List ℕ} {b r : ℕ} (h : recycleBuffer arrays b=some r) :
    r=b ∧ arrays.getD r 0=bufferLen := by
  unfold recycleBuffer at h
  split_ifs at h with hlen
  cases h
  exact ⟨rfl,hlen⟩

/-- The connection is recycled: another object has the buffer. -/
theorem Inv.recycled {s : State} (h : Inv s) {p b : ℕ} (hp : s.protocols[p]?=some (some b)) :
    Inv {s with
      arrays := (construct s.arrays (recycleBuffer s.arrays b)).1
      protocols := s.protocols.set p none++[some (construct s.arrays (recycleBuffer s.arrays b)).2]} := by
  obtain ⟨hl,hb⟩ := construct_spec s.arrays (recycleBuffer s.arrays b)
  obtain ⟨b',hb'⟩ : ∃ b',b'=(construct s.arrays (recycleBuffer s.arrays b)).2 := ⟨_,rfl⟩
  obtain ⟨arrays,ha⟩ : ∃ arrays,arrays=(construct s.arrays (recycleBuffer s.arrays b)).1 := ⟨_,rfl⟩
  rw [← hb',← ha] at hb
  rw [← ha] at hl
  rw [← hb',← ha]
  have hplace : b'=b ∨ b'=s.arrays.length ∧ s.arrays.length < arrays.length := by
    rcases hb with hb | ⟨-,hb⟩
    · exact Or.inl (recycleBuffer_spec hb).1
    · exact Or.inr hb
  have hlt := h.protocol_known hp
  have hholders : ∀ r,State.holders {s with arrays,protocols := s.protocols.set p none++[some b']} r+
      [b].count r=s.holders r+[b'].count r := by
    intro r
    have ht := holders_dropped hp r
    simp only [State.holders,List.map_append,List.sum_append,List.map_singleton,List.sum_singleton,
      Option.toList_some]
    omega
  have hone : ∀ b r : ℕ,[b].count r=if b=r then 1 else 0 := by
    intro b r
    rw [List.count_singleton]
    simp only [beq_iff_eq]
  refine h.keepCalls (fun r hr => ?_) hl (fun r hr => ?_) rfl (fun r ht => ht.elim) (fun r hr => ?_)
  · have hh := hholders r
    rw [hone,hone] at hh
    show State.holders {s with arrays,protocols := s.protocols.set p none++[some b']} r ≤ s.holders r
    split_ifs at hh <;> omega
  · have hh := hholders r
    rw [hone,hone,h.unknown hr] at hh
    show State.holders {s with arrays,protocols := s.protocols.set p none++[some b']} r ≤ 1 ∧
      (0 < State.holders {s with arrays,protocols := s.protocols.set p none++[some b']} r → r < arrays.length)
    split_ifs at hh <;> omega
  · show arrays.getD r 0=bufferLen
    rw [hl.same r (h.unused_known hr) id]
    exact h.unused r hr

/-- The connection is closed: the factory can get the buffer. -/
theorem Inv.closed {s : State} (h : Inv s) {p b : ℕ} (hp : s.protocols[p]?=some (some b))
    {saved : List ℕ} (hs : saved=[] ∨ saved=(recycleBuffer s.arrays b).toList) :
    Inv {s with unusedBuffers := s.unusedBuffers++saved,protocols := s.protocols.set p none} := by
  have hsaved : ∀ r ∈ saved,r=b ∧ s.arrays.getD r 0=bufferLen := by
    intro r hr
    rcases hs with rfl | rfl
    · cases hr
    · exact recycleBuffer_spec (Option.mem_toList.mp hr)
  have hcount : ∀ r,saved.count r ≤ [b].count r := by
    intro r
    rcases hs with rfl | rfl
    · exact Nat.zero_le _
    · unfold recycleBuffer
      split_ifs
      · exact Nat.le_refl _
      · exact Nat.zero_le _
  have hholders : ∀ r,State.holders {s with
      unusedBuffers := s.unusedBuffers++saved,protocols := s.protocols.set p none} r ≤ s.holders r := by
    intro r
    have ht := holders_dropped hp r
    have hle := hcount r
    simp only [State.holders,List.count_append]
    omega
  refine h.keepCalls (fun r _ => hholders r) (Later.refl s.arrays) (fun r hr => ?_) rfl
    (fun r ht => ht.elim) (fun r hr => ?_)
  · have hh := hholders r
    rw [h.unknown hr] at hh
    exact ⟨by omega,fun hpos => by omega⟩
  · rcases List.mem_append.mp hr with hr | hr
    · exact h.unused r hr
    · exact (hsaved r hr).2

/-- Every event keeps the invariant. -/
theorem step_inv {s s' : State} {e : Event} (h : Inv s) (hc : RetriedUnread s e) (hs : s.step e=some s') :
    Inv s' := by
  cases e with
  | newConn =>
    cases hs
    exact h.newConn
  | inst c connected =>
    simp only [State.step] at hs
    split at hs
    · next unusedBuffer hk =>
      split_ifs at hs
      · cases hs
        exact h.inst hk
      · cases hs
        exact h.instFails hk
    · cases hs
  | handshakeRead c o =>
    simp only [State.step] at hs
    split at hs
    · next unusedBuffer buffer reads hk =>
      cases hs
      exact h.handshakeRead hk
    · cases hs
  | failed c retry =>
    simp only [State.step] at hs
    split at hs
    · next unusedBuffer buffer reads hk =>
      cases hs
      exact h.failed hc hk
    · cases hs
  | connected c =>
    simp only [State.step] at hs
    split at hs
    · next unusedBuffer buffer reads hk =>
      cases hs
      exact h.connected hk
    · cases hs
  | read p o =>
    simp only [State.step] at hs
    split at hs
    · next buffer hp =>
      cases hs
      obtain ⟨hl,hb⟩ := read_spec (h.protocol_known hp) o
      exact h.setProtocol hp hl (hb.imp id (fun hb => hb.2)) (fun r ht => ht.1)
    · cases hs
  | grow p n =>
    simp only [State.step] at hs
    split at hs
    · next buffer hp =>
      cases hs
      refine h.setProtocol hp (Later.alloc s.arrays _) (Or.inr ⟨rfl,?_⟩) (fun r ht => ht.elim)
      rw [List.length_append]
      exact Nat.lt_succ_self _
    · cases hs
  | closeConn p recycle =>
    simp only [State.step] at hs
    split at hs
    · next buffer hp =>
      split_ifs at hs
      · cases hs
        exact h.recycled hp
      · cases hs
        exact h.closed hp (Or.inr rfl)
      · cases hs
        have hnone := h.closed hp (Or.inl rfl)
        rw [List.append_nil] at hnone
        exact hnone
    · cases hs

/-- A new factory. -/
theorem inv_new : Inv {} := by
  refine ⟨?_,?_,?_,?_,?_,?_⟩
  · intro r hr
    exact absurd hr (Nat.lt_irrefl 0)
  · intro r hz
    exact absurd rfl hz
  · intro r hr
    cases hr
  · intro c k r hk
    cases hk
  · intro c r b hk
    cases hk
  · intro c r buffer n hk
    cases hk

/-- What `inst()` is called with can be used. -/
theorem Inv.usable {s : State} (h : Inv s) (e : Event) : Usable s e := by
  cases e with
  | inst c connected =>
    intro r hk
    have hlen := h.calls c _ r hk (Or.inl rfl) rfl
    have hle := h.single r (by rw [hlen]; decide)
    have hone := le_total (fun k : Call => k.refs.count r) hk
    have hself : (⟨some r,.idle⟩ : Call).refs.count r=1 := List.count_singleton_self
    have hsum : (s.calls.map fun k : Call => k.refs.count r).sum ≤ s.holders r := by
      unfold State.holders
      omega
    exact ⟨hlen,by omega⟩
  | _ => trivial

/-- In every run, each attempt to connect starts with a buffer that can be used, when
those that are made again had no reads, or no recycled buffer; and an attempt that
is made again after a read gets an empty one. -/
theorem buffers_usable (es : List Event) (h : Meets State.step RetriedUnread {} es) :
    Meets State.step Usable {} es ∧
      ∀ (s : State) (c r n : ℕ) (buffer : Option ℕ) (connected : Bool),run State.step {} es=some s →
        s.calls[c]?=some ⟨some r,.going buffer (n+1)⟩ →
          ¬Meets State.step Usable s [.failed c true,.inst c connected] := by
  refine ⟨meets_of_invariant (fun _ _ _ => step_inv) (fun s e hi _ => hi.usable e) inv_new h,?_⟩
  intro s c r n buffer connected hrun hk hm
  have hi : Inv s := run_meets (fun _ _ _ => step_inv) inv_new h hrun
  have hempty := hi.taken c r buffer n hk
  have hstep : s.step (.failed c true)=some {s with calls := s.calls.set c ⟨some r,.idle⟩} := by
    simp only [State.step,hk,if_true]
  obtain ⟨-,hm⟩ := hm
  rw [hstep] at hm
  have hlt : c < s.calls.length := (List.getElem?_eq_some_iff.mp hk).1
  have hlen := (hm.1 r (List.getElem?_set_self hlt)).1
  rw [hempty] at hlen
  cases hlen

/-- A first connection whose handshake fails once. -/
theorem buffers_usable_fresh : Meets State.step Usable {}
    [.newConn,.inst 0 true,.handshakeRead 0 .ended,.failed 0 true,.inst 0 true] := by
  have hunread : Meets State.step RetriedUnread {}
      [.newConn,.inst 0 true,.handshakeRead 0 .ended,.failed 0 true,.inst 0 true] := by
    refine ⟨trivial,trivial,trivial,?_,trivial,trivial⟩
    intro unusedBuffer buffer reads hk
    cases hk
    exact Or.inl rfl
  exact (buffers_usable _ hunread).1

/-- A connection with a recycled buffer, whose handshake fails once. -/
theorem retried_buffer_empty : ¬(∀ es : List Event,Meets State.step Usable {} es) := by
  intro h
  have hrun := h [.newConn,.inst 0 true,.connected 0,.closeConn 0 false,.newConn,.inst 1 true,
    .handshakeRead 1 .ended,.failed 1 true,.inst 1 true]
  obtain ⟨-,-,-,-,-,-,-,-,hlast,-⟩ := hrun
  have hlen := (hlast 0 rfl).1
  exact absurd hlen (by decide)

end SpiritMysql.BufferOwners
