import SpiritMysql.PacketStream

/-!
# The packets of a payload

How a payload of any length is cut into packets: full ones of `0xFFFFFF`
bytes and a shorter one that ends it, which is empty when the length is a
multiple of that number. The cut is unique, so bytes that frame a payload
are computed from it.
-/

namespace SpiritMysql.PacketFraming

open ByteCodec ChunkCursor PacketStream Reader

/-- Packets with consecutive numbers. -/
def Numbered : ℕ → List Packet → Prop
  | _,[] => True
  | seq,p::ps => p.1=.ofNat seq ∧ Numbered (seq+1) ps

/-- Bytes that parse as the packets of a payload: the numbers are
consecutive, all packets but the last are full, and the payloads join to the
whole. -/
def Framed (seq : ℕ) (payload bytes : List UInt8) : Prop :=
  ∃ ps,ps≠[] ∧ bytes=frames ps ∧ Numbered seq ps ∧ Regular maxPayload ps ∧
    ps.flatMap Prod.snd=payload

/-- The full packets of a payload, and a shorter one when bytes are left. -/
def pieces (seq : ℕ) (payload : List UInt8) : List UInt8 :=
  if _h : payload=[] then []
  else frame (.ofNat seq,payload.take maxPayload)++pieces (seq+1) (payload.drop maxPayload)
termination_by payload.length
decreasing_by
  have hp := List.length_pos_iff.mpr _h
  rw [List.length_drop,maxPayload]
  omega

/-- The packets of a payload. -/
def emission (seq : ℕ) (payload : List UInt8) : List UInt8 :=
  if _h : payload.length < maxPayload then frame (.ofNat seq,payload)
  else frame (.ofNat seq,payload.take maxPayload)++emission (seq+1) (payload.drop maxPayload)
termination_by payload.length
decreasing_by
  rw [List.length_drop]
  unfold maxPayload at *
  omega

theorem maxPayload_pos : 0 < maxPayload := by decide

@[simp] theorem pieces_nil (seq : ℕ) : pieces seq []=[] := by
  rw [pieces]
  rfl

/-- The first packet of some bytes. -/
theorem pieces_cons {seq : ℕ} {payload : List UInt8} (h : payload≠[]) :
    pieces seq payload=
      frame (.ofNat seq,payload.take maxPayload)++pieces (seq+1) (payload.drop maxPayload) := by
  rw [pieces,dif_neg h]

/-- A short payload is one packet. -/
theorem emission_short {seq : ℕ} {payload : List UInt8} (h : payload.length < maxPayload) :
    emission seq payload=frame (.ofNat seq,payload) := by
  rw [emission,dif_pos h]

/-- A long payload begins with a full packet. -/
theorem emission_long {seq : ℕ} {payload : List UInt8} (h : maxPayload ≤ payload.length) :
    emission seq payload=
      frame (.ofNat seq,payload.take maxPayload)++emission (seq+1) (payload.drop maxPayload) := by
  rw [emission,dif_neg (by omega)]

/-- A full packet and the packets of what follows. -/
theorem emission_full {seq : ℕ} {p rest : List UInt8} (h : p.length=maxPayload) :
    emission seq (p++rest)=frame (.ofNat seq,p)++emission (seq+1) rest := by
  rw [emission_long (by rw [List.length_append]; omega),List.take_left' h,List.drop_left' h]

/-- An induction over the packets of a payload. -/
theorem payload_induction {P : ℕ → List UInt8 → Prop}
    (short : ∀ seq payload,payload.length < maxPayload → P seq payload)
    (long : ∀ seq payload,maxPayload ≤ payload.length →
      P (seq+1) (payload.drop maxPayload) → P seq payload)
    (seq : ℕ) (payload : List UInt8) : P seq payload := by
  induction hn : payload.length using Nat.strong_induction_on generalizing seq payload with
  | _ n ih =>
    by_cases hs : payload.length < maxPayload
    · exact short seq payload hs
    · refine long seq payload (by omega) (ih (n-maxPayload) ?_ _ _ ?_)
      · have hp := maxPayload_pos
        omega
      · rw [List.length_drop,hn]

/-- The number of bytes of the packets of a payload. -/
theorem emission_length (seq : ℕ) (payload : List UInt8) :
    (emission seq payload).length=payload.length+4*(payload.length/maxPayload+1) := by
  refine @payload_induction (fun seq payload => (emission seq payload).length=
    payload.length+4*(payload.length/maxPayload+1)) ?_ ?_ seq payload
  · intro seq payload h
    rw [emission_short h,frame_length,Nat.div_eq_of_lt h]
  · intro seq payload h ih
    have hp := maxPayload_pos
    rw [emission_long h,List.length_append,frame_length,ih,List.length_take,List.length_drop,
      Nat.min_eq_left h,Nat.div_eq_sub_div hp h]
    omega

/-- The pieces of a payload are its packets, but for the empty packet after
the last full one. -/
theorem emission_pieces (seq : ℕ) (payload : List UInt8) :
    emission seq payload=pieces seq payload++
      if maxPayload ∣ payload.length then
        frame (.ofNat (seq+payload.length/maxPayload),[]) else [] := by
  refine @payload_induction (fun seq payload => emission seq payload=pieces seq payload++
      if maxPayload ∣ payload.length then
        frame (.ofNat (seq+payload.length/maxPayload),[]) else []) ?_ ?_ seq payload
  · intro seq payload h
    rw [emission_short h]
    by_cases hp : payload=[]
    · subst hp
      rw [pieces_nil,List.length_nil,if_pos (dvd_zero _),Nat.zero_div]
      rfl
    · have hn := List.length_pos_iff.mpr hp
      rw [pieces_cons hp,List.take_of_length_le h.le,List.drop_eq_nil_of_le h.le,pieces_nil,
        if_neg (Nat.not_dvd_of_pos_of_lt hn h),List.append_nil,List.append_nil]
  · intro seq payload h ih
    have hp : payload≠[] := by
      intro hp
      have hm := maxPayload_pos
      rw [hp,List.length_nil] at h
      omega
    rw [emission_long h,ih,pieces_cons hp,List.append_assoc]
    congr 2
    rw [List.length_drop]
    have hd : maxPayload ∣ payload.length-maxPayload↔maxPayload ∣ payload.length := by
      constructor
      · intro hd
        have ha := Nat.dvd_add hd (dvd_refl maxPayload)
        rwa [Nat.sub_add_cancel h] at ha
      · intro hd
        exact Nat.dvd_sub hd (dvd_refl _)
    have he : seq+1+(payload.length-maxPayload)/maxPayload=seq+payload.length/maxPayload := by
      rw [Nat.div_eq_sub_div maxPayload_pos h]
      omega
    simp only [hd,he]

/-- The packets of a payload frame it. -/
theorem framed_emission (seq : ℕ) (payload : List UInt8) :
    Framed seq payload (emission seq payload) := by
  refine @payload_induction (fun seq payload => Framed seq payload (emission seq payload))
    ?_ ?_ seq payload
  · intro seq payload h
    refine ⟨[(.ofNat seq,payload)],List.cons_ne_nil _ _,?_,⟨rfl,trivial⟩,h,?_⟩
    · rw [emission_short h]
      exact (List.append_nil _).symm
    · exact List.append_nil _
  · rintro seq payload h ⟨ps,hn,hb,hs,hr,hj⟩
    refine ⟨(.ofNat seq,payload.take maxPayload)::ps,List.cons_ne_nil _ _,?_,⟨rfl,hs⟩,?_,?_⟩
    · rw [emission_long h,hb]
      rfl
    · cases ps with
      | nil => exact absurd rfl hn
      | cons q ps => exact ⟨by rw [List.length_take,Nat.min_eq_left h],hr⟩
    · rw [List.flatMap_cons,hj]
      exact List.take_append_drop _ _

/-- A payload is framed in one way only. -/
theorem framed_iff {seq : ℕ} {payload bytes : List UInt8} :
    Framed seq payload bytes↔bytes=emission seq payload := by
  constructor
  · rintro ⟨ps,hn,rfl,hs,hr,rfl⟩
    induction ps generalizing seq with
    | nil => exact absurd rfl hn
    | cons p ps ih =>
      obtain ⟨n,d⟩ := p
      obtain ⟨rfl,hs⟩ := hs
      cases ps with
      | nil =>
        have hd : (List.flatMap Prod.snd [((UInt8.ofNat seq,d) : Packet)])=d := List.append_nil _
        rw [hd,emission_short hr]
        exact List.append_nil _
      | cons q ps =>
        have hi := ih (List.cons_ne_nil _ _) hs hr.2
        rw [List.flatMap_cons,emission_full hr.1,←hi]
        rfl
  · rintro rfl
    exact framed_emission seq payload

end SpiritMysql.PacketFraming
