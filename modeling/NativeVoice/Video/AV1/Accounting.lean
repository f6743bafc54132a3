import NativeVoice.Video.AV1.Streams

/-!
# The sizes of the AV1 packetizer

The bytes that `packetize_internal` counts for the packets of a plan are those that are written. A
subtraction of `usize` that would underflow is a panic of the build with overflow checks, so what is
shown for every build says that none does.

* `Reaches`: the states in which the rounds of `packetize_internal` begin. They are those of
  `Packed` (`packed_of_reaches`).
* `packetize_sizes`: what follows for the plan, its packets and `packetize`.
-/

namespace NativeVoice.Video

open Lib Lib.Packing

namespace AV1Packetizer

/-- The states of the loop of `packetize_internal` before the round for the OBU at the index; the
header is off the limit already. -/
inductive Reaches (b : Build) (limits : AV1PayloadSizeLimits) (obus : List AV1Obu) :
    ℕ → Packing → Prop
  | start : Reaches b limits obus 0
      ⟨[], .new 0, limits.maxPayloadLen - limits.firstPacketReductionLen⟩
  | round {i : ℕ} {s s' : Packing} {obu : AV1Obu} (h : Reaches b limits obus i s)
    (hobu : obus[i]? = some obu)
    (hround : packObu b limits i (decide (i + 1 = obus.length)) obu s = .ok s') :
    Reaches b limits obus (i + 1) s'

/-- The current packet with room for another element, and the bytes that the length of the previous
element takes now. -/
def enterObu (b : Build) (limits : AV1PayloadSizeLimits) (obuIndex : ℕ) (s : Packing) :
    Fallible PacketError (Packing × ℕ) := do
  let (s, previousObuExtraSize) := openPacket limits obuIndex s
  let packetRemainingBytes ← b.subUsize s.packetRemainingBytes previousObuExtraSize
  return ({ s with
    packet := { s.packet with
      packetSize := s.packet.packetSize + previousObuExtraSize
      numObuElements := s.packet.numObuElements + 1 }
    packetRemainingBytes }, previousObuExtraSize)

/-- The length of an element of the current packet is written. -/
def mustWriteObuElementSize (s : Packing) : Bool :=
  s.packet.numObuElements > MAX_NUM_OBUS_TO_OMIT_SIZE

/-- The bytes that a whole OBU takes. -/
def requiredBytes (obu : AV1Obu) (s : Packing) : ℕ :=
  obu.size + if mustWriteObuElementSize s then leb128Size obu.size else 0

theorem packObu_eq (b : Build) (limits : AV1PayloadSizeLimits) (obuIndex : ℕ) (isLastObu : Bool)
    (obu : AV1Obu) (s : Packing) :
    packObu b limits obuIndex isLastObu obu s = enterObu b limits obuIndex s >>= fun entered =>
      if requiredBytes obu entered.1 ≤ availableBytes limits isLastObu entered.1 then
        b.subUsize entered.1.packetRemainingBytes (requiredBytes obu entered.1) >>= fun remaining =>
          .ok { entered.1 with
            packet := { entered.1.packet with
              lastObuSize := obu.size
              packetSize := entered.1.packet.packetSize + requiredBytes obu entered.1 }
            packetRemainingBytes := remaining }
      else fragmentObu b limits obuIndex obu.size isLastObu (mustWriteObuElementSize entered.1)
        entered.2 entered.1 := by
  rw [packObu, enterObu]
  obtain ⟨s₁, extra⟩ := openPacket limits obuIndex s
  dsimp only
  cases b.subUsize s₁.packetRemainingBytes extra with
  | error e => rfl
  | ok remaining =>
    simp only [ok_bind, pure_eq, requiredBytes, mustWriteObuElementSize, decide_eq_true_eq]

/-! ## The rounds -/

section Rounds

variable {b : Build} {obus : List AV1Obu} {m i : ℕ} {s s' : Packing} {obu : AV1Obu}

theorem drop_wire (hobu : obus[i]? = some obu) :
    (obus.map AV1Obu.wire).drop i = obu.wire :: (obus.map AV1Obu.wire).drop (i + 1) :=
  drop_eq_cons.2 ⟨by rw [List.getElem?_map, hobu]; rfl, rfl⟩

/-- **The states of the loop** are those of its invariant. -/
theorem packed_of_reaches (hm : 2 ≤ m) (h : Reaches b (zeroReductions m) obus i s) :
    Packed (obus.map AV1Obu.wire) m i s := by
  induction h with
  | start => exact ⟨by simpa [AV1Packet.new] using Carried.nil false _, .new rfl rfl rfl⟩
  | round _ hobu hround ih =>
    obtain ⟨next, hnext, hpacked⟩ := packObu_packed b ih (drop_wire hobu) hm _
    rw [hnext] at hround
    obtain rfl := Except.ok.inj hround
    exact hpacked

theorem reaches_of_packObus {limits : AV1PayloadSizeLimits} {rest : List AV1Obu}
    (h : Reaches b limits obus i s) (hi : i ≤ obus.length) (hrest : obus.drop i = rest)
    (hrounds : packObus b limits i rest s = .ok s') : Reaches b limits obus obus.length s' := by
  induction rest generalizing i s with
  | nil =>
    obtain rfl := Except.ok.inj hrounds
    obtain rfl : i = obus.length := Nat.le_antisymm hi (List.drop_eq_nil_iff.1 hrest)
    exact h
  | cons obu rest ih =>
    obtain ⟨hobu, hnext⟩ := drop_eq_cons.1 hrest
    obtain ⟨hlt, -⟩ := List.getElem?_eq_some_iff.1 hobu
    have hlast : rest.isEmpty = decide (i + 1 = obus.length) := by
      rw [← hnext, Bool.eq_iff_iff, List.isEmpty_iff, List.drop_eq_nil_iff, decide_eq_true_eq]
      omega
    rw [packObus] at hrounds
    obtain ⟨s₁, hround, hrounds⟩ := bind_eq_ok.1 hrounds
    rw [hlast] at hround
    exact ih (.round h hobu hround) hlt hnext hrounds

/-- **The first piece of an OBU is not empty**: a packet that is begun has room for one. -/
theorem firstFragmentSize_pos (hm : 2 ≤ m) (h : Packed (obus.map AV1Obu.wire) m i s)
    (hobu : obus[i]? = some obu) {s₁ : Packing} {extra : ℕ}
    (henter : enterObu b (zeroReductions m) i s = .ok (s₁, extra)) {isLastObu : Bool}
    (hexceeds : availableBytes (zeroReductions m) isLastObu s₁ < requiredBytes obu s₁) :
    ∃ n, firstFragmentSize b obu.size (mustWriteObuElementSize s₁) s₁.packetRemainingBytes = .ok n ∧
      0 < n := by
  have hwire : obu.wire ≠ [] := by simp [AV1Obu.wire]
  obtain ⟨s', extra', pre, hopen, hopened⟩ :=
    openPacket_opened h (show (zeroReductions m).maxPayloadLen = m from rfl) hm
      (drop_wire hobu) hwire
  have hmin := hopened.minRequired
  rw [enterObu, hopen] at henter
  dsimp only at henter
  rw [b.subUsize_of_le (by omega), ok_bind] at henter
  obtain ⟨rfl, rfl⟩ := Prod.mk.inj (Except.ok.inj henter)
  have hmust : mustWriteObuElementSize { s' with
      packet := { s'.packet with
        packetSize := s'.packet.packetSize + extra'
        numObuElements := s'.packet.numObuElements + 1 }
      packetRemainingBytes := s'.packetRemainingBytes - extra' } =
        !decide (pre.length + 1 ≤ 3) := by
    rw [mustWriteObuElementSize, hopened.count, ← decide_not]
    exact decide_eq_decide.2 not_le.symm
  rw [availableBytes_zeroReductions, requiredBytes, hmust, leb128Size_eq] at hexceeds
  obtain ⟨n, hn, hpos, -⟩ := hopened.firstFragmentSize_eq b obu.size_pos hmust rfl
    (by
      by_cases hcount : pre.length + 1 ≤ 3
      · simpa [hcount] using hexceeds
      · simpa [hcount] using hexceeds)
  exact ⟨n, hn, hpos⟩

end Rounds

/-! ## The packets -/

theorem exists_carries {us : List Bytes} {m : ℕ} {z y : Bool} {vs ws : List Bytes}
    {plan : List AV1Packet} (h : Carried us m z vs plan y ws) :
    ∀ p ∈ plan, ∃ whole last rest vs, Carries us p whole last rest vs := by
  induction h with
  | nil => simp
  | cons hcarries _ _ ih =>
    intro p hp
    rcases List.mem_cons.1 hp with rfl | hp
    · exact ⟨_, _, _, _, hcarries⟩
    · exact ih p hp

/-- A packet has an element, its last one is not empty, and it is written in as many bytes as were
counted for it, behind the header. -/
theorem sizes_of_carries (b : Build) {obus : List AV1Obu} {p : AV1Packet} {whole vs : List Bytes}
    {last rest : Bytes} (h : Carries (obus.map AV1Obu.wire) p whole last rest vs)
    (packetIndex : ℕ) :
    (0 < p.numObuElements ∧ 0 < p.lastObuSize) ∧
      ∃ payload, writePacketPayload b obus p packetIndex = .ok payload ∧
        payload.length = AGGREGATION_HEADER_SIZE + p.packetSize := by
  refine ⟨⟨?_, ?_⟩, _, writePacketPayload_of_carries b h packetIndex, ?_⟩
  · rw [h.count]
    exact Nat.succ_pos _
  · rw [h.lastSize]
    exact List.length_pos_iff.2 h.last_ne
  · rw [h.size, aggregate, List.length_cons, Nat.add_comm]
    rfl

/-- The loop over the pieces in the middle ends with its condition not met. -/
theorem middlePackets_ends {m : ℕ} (hm : 0 < m) (obuIndex size offset : ℕ) :
    let r := middlePackets m obuIndex size offset
    r.2 = offset + r.1.length * m ∧ ¬ r.2 + m < size := by
  dsimp only
  induction hn : size - offset using Nat.strongRecOn generalizing offset with
  | ind n ih =>
    rw [middlePackets]
    by_cases hmore : offset + m < size
    · obtain ⟨hoffset, hend⟩ := ih (size - (offset + m)) (by omega) (offset + m) rfl
      rw [if_pos ⟨hm, hmore⟩]
      refine ⟨?_, hend⟩
      dsimp only
      rw [hoffset, List.length_cons, Nat.succ_mul]
      omega
    · rw [if_neg fun h => hmore h.2]
      exact ⟨by simp, hmore⟩

/-- **The sizes are sound**, in every build and for every limit of at least three bytes. No
subtraction of `packetize_internal` underflows; its states are the ones it reaches in rounds; a
piece that goes into a packet that is begun is not empty; the loop over the pieces in the middle
ends; every packet has elements and is written in one byte more than was counted. So
`packetize_obus` returns, and `packetize` returns for every frame that is parsed. -/
theorem packetize_sizes (b : Build) {obus : List AV1Obu} (hobus : obus ≠ []) {limit : ℕ}
    (hlimit : 3 ≤ limit) :
    (∃ s, Reaches b (zeroReductions (limit - 1)) obus obus.length s ∧
      packetizeInternal b obus (zeroReductions limit) = .ok (s.packets ++ [s.packet]) ∧
      ∀ i p, (s.packets ++ [s.packet])[i]? = some p → (0 < p.numObuElements ∧ 0 < p.lastObuSize) ∧
        ∃ payload, writePacketPayload b obus p i = .ok payload ∧
          payload.length = AGGREGATION_HEADER_SIZE + p.packetSize) ∧
    (∀ i s obu s₁ extra, Reaches b (zeroReductions (limit - 1)) obus i s → obus[i]? = some obu →
      enterObu b (zeroReductions (limit - 1)) i s = .ok (s₁, extra) →
      availableBytes (zeroReductions (limit - 1)) (decide (i + 1 = obus.length)) s₁ <
        requiredBytes obu s₁ →
      ∃ n, firstFragmentSize b obu.size (mustWriteObuElementSize s₁) s₁.packetRemainingBytes =
        .ok n ∧ 0 < n) ∧
    (∀ obuIndex size offset, let r := middlePackets (limit - 1) obuIndex size offset
      r.2 = offset + r.1.length * (limit - 1) ∧ ¬ r.2 + (limit - 1) < size) ∧
    (∀ mtu, packetizeObus b mtu obus ≠ .error .panic ∧
      (4 ≤ mtu → ∃ plan, packetizeObus b mtu obus = .ok plan)) ∧
    ∀ {τ ρ : Type} (clock : TickClock τ ρ) (p : AV1Packetizer ρ) (frame : Bytes) (frameTimeMs : τ),
      4 ≤ p.mtu → parseAv1Obus b frame = .ok obus →
        ∃ packets, (packetize clock b p frame frameTimeMs).1 = .ok packets := by
  have hm : 2 ≤ limit - 1 := by omega
  refine ⟨?_, ?_, middlePackets_ends (by omega), fun mtu => ?_, ?_⟩
  · obtain ⟨plan, hplan, hcarried⟩ := packetizeInternal_carried b hobus hlimit
    rw [packetizeInternal_eq b hobus hlimit] at hplan ⊢
    obtain ⟨s, hrounds, hs⟩ := bind_eq_ok.1 hplan
    obtain rfl := Except.ok.inj hs
    refine ⟨s, reaches_of_packObus .start (Nat.zero_le _) (List.drop_zero ..) hrounds, hplan,
      fun i p hp => ?_⟩
    obtain ⟨_, _, _, _, hcarries⟩ := exists_carries hcarried p (List.mem_of_getElem? hp)
    exact sizes_of_carries b hcarries i
  · intro i s obu s₁ extra hreaches hobu henter hexceeds
    exact firstFragmentSize_pos hm (packed_of_reaches hm hreaches) hobu henter hexceeds
  · by_cases hmtu : 4 ≤ mtu
    · obtain ⟨_, plan, -, -, -, hplan⟩ := packetizeObus_eq b hobus hmtu
      exact ⟨by rw [hplan]; simp, fun _ => ⟨plan, hplan⟩⟩
    · have hlimits : payloadLimits mtu = .error (.err .payloadTooLarge) :=
        if_pos (show mtu - 1 < 3 by omega)
      exact ⟨by rw [packetizeObus, hlimits]; simp, fun h => absurd h hmtu⟩
  · intro τ ρ clock p frame frameTimeMs hmtu hparse
    obtain ⟨_, _, -, -, -, heq⟩ := packetize_eq_of_le clock b hmtu hparse hobus frameTimeMs
    exact ⟨_, by rw [heq]⟩

/-- A unit of six bytes in packets of at most three bytes. -/
theorem packetize_sizes_three_bytes :
    ∃ s : Packing, packetizeInternal .debug [⟨0x0A, none, [1, 2, 3, 4, 5]⟩] (zeroReductions 3) =
      .ok (s.packets ++ [s.packet]) := by
  obtain ⟨⟨s, -, hplan, -⟩, -⟩ := packetize_sizes .debug
    (show [(⟨0x0A, none, [1, 2, 3, 4, 5]⟩ : AV1Obu)] ≠ [] by decide) (Nat.le_refl 3)
  exact ⟨s, hplan⟩

end AV1Packetizer

end NativeVoice.Video
