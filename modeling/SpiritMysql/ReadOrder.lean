import SpiritMysql.Reader

/-!
# What reading never undoes

Whatever the bytes are, a reading operation only adds to the record of packet
headers, and without a new header it stays in its packet.
-/

namespace SpiritMysql.ReadOrder

open AsyncAction ByteCodec Errors Reader

variable {α : Type}

/-- The record of headers grew, and while it did not, the reader stayed in
its packet. -/
structure Extends (s t : State) : Prop where
  /-- Headers are only added. -/
  headers : s.headers <+: t.headers
  /-- A packet is only left through a header. -/
  payload : t.headers=s.headers → t.payloadLength=s.payloadLength

/-- The relation holds of a state and itself. -/
theorem Extends.refl (s : State) : Extends s s := ⟨List.prefix_refl _,fun _ => rfl⟩

/-- The relation passes through an intermediate state. -/
theorem Extends.trans (s t u : State) (h : Extends s t) (k : Extends t u) : Extends s u := by
  refine ⟨h.headers.trans k.headers,?_⟩
  intro he
  have hl := congrArg List.length he
  have h₁ := h.headers.length_le
  have h₂ := k.headers.length_le
  have ht : t.headers=s.headers := (h.headers.eq_of_length (by omega)).symm
  rw [k.payload (by rw [he,ht]),h.payload ht]

/-- The state after an operation comes from the state before it. -/
abbrev Keeps (x : Read α) : Prop := Always Extends x

theorem keeps_recvAtLeast (n : ℕ) : Keeps (recvAtLeast n) := by
  intro s
  unfold recvAtLeast
  split_ifs <;> exact Extends.refl s

theorem keeps_take (n : ℕ) : Keeps (take n) := fun _ => ⟨List.prefix_refl _,fun _ => rfl⟩

theorem keeps_moveBack (n : ℕ) : Keeps (moveBack n) := fun _ => ⟨List.prefix_refl _,fun _ => rfl⟩

theorem keeps_unput (b : UInt8) : Keeps (unput b) := fun _ => ⟨List.prefix_refl _,fun _ => rfl⟩

theorem keeps_pure (a : α) : Keeps (pure a : Read α) := Always.pure Extends.refl a

theorem keeps_fail (e : Error) : Keeps (fail e : Read α) := Always.fail Extends.refl e

theorem keeps_get : Keeps (get : Read State) := Always.get Extends.refl

theorem Keeps.bind {β : Type} {x : Read α} {f : α → Read β} (hx : Keeps x)
    (hf : ∀ a,Keeps (f a)) : Keeps (x >>= f) := Always.bind Extends.trans hx hf

/-- A consumed header is recorded. -/
theorem keeps_readPacketHeader : Keeps readPacketHeader := by
  refine (keeps_recvAtLeast 4).bind ?_
  intro _ s
  refine ⟨List.prefix_append _ _,?_⟩
  intro h
  have hl : (s.headers++[s.rest.length]).length=s.headers.length := congrArg List.length h
  rw [List.length_append,List.length_singleton] at hl
  omega

/-- A header that is cut out is recorded. -/
theorem keeps_correctNearPacketBoundary : Keeps correctNearPacketBoundary := by
  intro s
  unfold correctNearPacketBoundary
  dsimp only
  split_ifs
  · refine ⟨List.prefix_append _ _,?_⟩
    intro h
    have hl := congrArg List.length h
    simp only [Outcome.state,State.joinPacket,List.length_append,List.length_singleton] at hl
    omega
  · exact Extends.refl s
  · exact Extends.refl s
  · exact Extends.refl s

theorem keeps_reserve (k : ℕ) : Keeps (reserve k) := by
  intro s
  unfold reserve
  split
  · exact keeps_correctNearPacketBoundary s
  · exact Extends.refl s

theorem keeps_readFixed (k : ℕ) : Keeps (readFixed k) :=
  (keeps_reserve k).bind (fun _ => (keeps_recvAtLeast k).bind (fun _ => keeps_take k))

theorem keeps_readLenencInt : Keeps readLenencInt :=
  (keeps_reserve 9).bind (fun _ => (keeps_recvAtLeast 1).bind (fun _ => keeps_get.bind (fun _ =>
    (keeps_recvAtLeast _).bind (fun _ => (keeps_take _).bind (fun _ => keeps_pure _)))))

theorem keeps_readShortBytes (len : ℤ) : Keeps (readShortBytes len) := by
  unfold readShortBytes
  refine Always.ite (keeps_fail _) (keeps_get.bind ?_)
  intro s
  refine Always.ite ((keeps_moveBack _).bind (fun _ => keeps_pure _)) ?_
  refine Always.ite ((keeps_recvAtLeast _).bind (fun _ => keeps_take _)) ?_
  refine Always.ite ((keeps_recvAtLeast _).bind (fun _ => keeps_fail _)) ?_
  exact (keeps_recvAtLeast _).bind (fun _ => (keeps_take _).bind (fun _ =>
    keeps_readPacketHeader.bind (fun _ => (keeps_recvAtLeast _).bind (fun _ =>
      (keeps_take _).bind (fun _ => keeps_pure _)))))

theorem keeps_readShortLenencBytes : Keeps readShortLenencBytes :=
  keeps_readLenencInt.bind (fun _ => Always.ite (keeps_pure _) (keeps_readShortBytes _))

theorem keeps_readShortEofBytes : Keeps readShortEofBytes := by
  refine keeps_get.bind ?_
  intro s
  refine Always.ite ((keeps_moveBack _).bind (fun _ => keeps_pure _)) ?_
  exact (keeps_recvAtLeast _).bind (fun _ => (keeps_take _).bind (fun _ => keeps_pure _))

theorem keeps_passLoop {enter : Read Unit} (he : Keeps enter) (fuel len : ℕ) :
    Keeps (passLoop enter fuel len) := by
  induction fuel generalizing len with
  | zero => exact Always.wait Extends.refl
  | succ fuel ih =>
    unfold passLoop
    refine Always.ite (keeps_pure _) (he.bind (fun _ => keeps_get.bind (fun s => ?_)))
    exact (keeps_recvAtLeast _).bind (fun _ => (keeps_take _).bind (fun _ =>
      (ih _).bind (fun _ => keeps_pure _)))

theorem keeps_readBytesToBuffer (len : ℕ) : Keeps (readBytesToBuffer len) := by
  intro s
  refine keeps_passLoop ?_ _ len s
  intro t
  dsimp only
  split
  · exact keeps_readPacketHeader t
  · exact Extends.refl t

theorem keeps_readVoid (len : ℤ) : Keeps (readVoid len) := by
  refine keeps_get.bind (fun s => Always.ite (keeps_moveBack _) ?_)
  exact (keeps_passLoop (keeps_reserve 1) _ _).bind (fun _ => keeps_pure _)

theorem keeps_gotoEndOfPacket : Keeps gotoEndOfPacket := fun s => keeps_readVoid _ s

end SpiritMysql.ReadOrder
