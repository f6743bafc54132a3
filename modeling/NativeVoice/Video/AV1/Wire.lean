import NativeVoice.Video.AV1.Plan

/-!
# The AV1 packetizer writes the payload format

* `writePacketPayload_of_carries`: a packet that takes certain elements off the units is written as
  the payload format says.
* `Emits` relates a plan to its payloads and to what `parseAggregation` reads from them.
* `packetizer_emits_wire_format`: both distributions of `packetize_obus` emit the payload format.
-/

namespace NativeVoice.Video

open Lib Lib.Packing

namespace AV1Packetizer

/-- Whether the first unit is a sequence header. -/
def startsSequence (obus : List AV1Obu) : Bool :=
  obus.head?.any fun obu => obu.obuType = OBU_TYPE_SEQUENCE_HEADER

/-- The units that a packet touches are in range, and those that it takes whole are written. -/
theorem writeWholeElements_of_units (b : Build) {obus : List AV1Obu} {i offset : ℕ}
    {whole vs : List Bytes} {v : Bytes}
    (h : remaining (obus.map AV1Obu.wire) i offset = whole ++ v :: vs)
    (hoffset : ∃ u, (obus.map AV1Obu.wire)[i]? = some u ∧ offset < u.length) :
    writeWholeElements b obus whole.length i offset = .ok (sizedFields whole) ∧
      ∃ obu, obus[i + whole.length]? = some obu ∧
        (if whole.length = 0 then offset else 0) < obu.size ∧
        obu.wire.drop (if whole.length = 0 then offset else 0) = v := by
  obtain ⟨u, hu, hlt⟩ := hoffset
  have hobu := hu
  rw [List.getElem?_map, Option.map_eq_some_iff] at hobu
  obtain ⟨obu, hobu, rfl⟩ := hobu
  rw [remaining_of_drop (drop_eq_cons.2 ⟨hu, rfl⟩)] at h
  rw [obu.length_wire] at hlt
  induction whole generalizing i offset obu with
  | nil =>
    obtain ⟨rfl, -⟩ := List.cons.inj h
    exact ⟨rfl, obu, hobu, hlt, rfl⟩
  | cons e whole ih =>
    obtain ⟨rfl, hnext⟩ := List.cons.inj h
    obtain ⟨u', us', hcons⟩ : ∃ u' us', (obus.map AV1Obu.wire).drop (i + 1) = u' :: us' :=
      List.exists_cons_of_ne_nil (by rw [hnext]; simp)
    obtain ⟨hu', rfl⟩ := drop_eq_cons.1 hcons
    have hobu' := hu'
    rw [List.getElem?_map, Option.map_eq_some_iff] at hobu'
    obtain ⟨obu', hobu', rfl⟩ := hobu'
    obtain ⟨hwrite, last, hlast, hpos, hdrop⟩ :=
      ih obu' (by rw [List.drop_zero, ← hcons, hnext]; rfl) hobu' hu' obu'.size_pos
    refine ⟨?_, last, ?_, ?_, ?_⟩
    · rw [List.length_cons, writeWholeElements, index_eq_ok.2 hobu, ok_bind,
        b.subUsize_of_le hlt.le, ok_bind, obu.writeRtpFragment_eq (by omega), ok_bind, hwrite,
        ok_bind, writeLeb128_eq, sizedFields_cons, List.take_of_length_le (by simp)]
      simp
    · rw [List.length_cons, Nat.add_comm whole.length, ← Nat.add_assoc]
      exact hlast
    · simpa using hpos
    · simpa using hdrop

theorem aggregationHeader_of_carries (b : Build) {obus : List AV1Obu} {p : AV1Packet}
    {whole vs : List Bytes} {last rest : Bytes} {obu : AV1Obu}
    (h : Carries (obus.map AV1Obu.wire) p whole last rest vs)
    (hobu : obus[p.firstObu + whole.length]? = some obu)
    (hdrop : obu.wire.drop (if whole.length = 0 then p.firstObuOffset else 0) = last ++ rest)
    (hlt : (if whole.length = 0 then p.firstObuOffset else 0) < obu.size) (packetIndex : ℕ) :
    aggregationHeader b obus p packetIndex =
      .ok (headerByte (decide (0 < p.firstObuOffset)) (!rest.isEmpty)
        (countField (whole.length + 1)) (decide (packetIndex = 0) && startsSequence obus)) := by
  obtain ⟨first, hfirst⟩ : ∃ first, obus[0]? = some first := by
    cases obus with
    | nil => cases hobu
    | cons first obus => exact ⟨first, rfl⟩
  have hone : (whole.length + 1 = 1) = (whole.length = 0) := by simp
  have hcontinued : ((if whole.length = 0 then p.firstObuOffset else 0) + last.length < obu.size) =
      ((!rest.isEmpty) = true) := by
    have hlen := congrArg List.length hdrop
    rw [List.length_drop, obu.length_wire, List.length_append] at hlen
    rw [Bool.not_eq_true', List.isEmpty_eq_false_iff, ← List.length_pos_iff, eq_iff_iff]
    omega
  have hn : (packetIndex = 0 ∧ first.obuType = OBU_TYPE_SEQUENCE_HEADER) =
      ((decide (packetIndex = 0) && startsSequence obus) = true) := by
    rw [startsSequence, List.head?_eq_getElem?, hfirst]
    simp
  rw [aggregationHeader, h.count, b.subUsize_of_le (by omega), ok_bind, ← Nat.add_assoc,
    Nat.add_sub_cancel, index_eq_ok.2 hobu, ok_bind, index_eq_ok.2 hfirst, ok_bind, h.lastSize]
  dsimp only
  rw [if_congr hone.to_iff rfl rfl, if_congr hcontinued.to_iff rfl rfl, if_congr hn.to_iff rfl rfl]
  by_cases hcount : whole.length + 1 ≤ 3
  · simp [headerByte, countField, MAX_NUM_OBUS_TO_OMIT_SIZE, hcount]
  · simp [headerByte, countField, MAX_NUM_OBUS_TO_OMIT_SIZE, hcount]

/-- **A packet is written** as the payload format says. -/
theorem writePacketPayload_of_carries (b : Build) {obus : List AV1Obu} {p : AV1Packet}
    {whole vs : List Bytes} {last rest : Bytes}
    (h : Carries (obus.map AV1Obu.wire) p whole last rest vs) (packetIndex : ℕ) :
    writePacketPayload b obus p packetIndex =
      .ok (aggregate (decide (0 < p.firstObuOffset)) (!rest.isEmpty)
        (decide (packetIndex = 0) && startsSequence obus) whole last) := by
  obtain ⟨hwhole, obu, hobu, hlt, hdrop⟩ := writeWholeElements_of_units b h.units h.offset_lt
  have hlen := congrArg List.length hdrop
  rw [List.length_drop, obu.length_wire, List.length_append] at hlen
  have hone : (whole.length + 1 = 1) = (whole.length = 0) := by simp
  have hfragment : obu.writeRtpFragment (if whole.length = 0 then p.firstObuOffset else 0)
      last.length = .ok last := by
    rw [obu.writeRtpFragment_eq (by omega), hdrop, List.take_left]
  have hfields : sizedFields whole ++ (if whole.length + 1 > MAX_NUM_OBUS_TO_OMIT_SIZE then
      writeLeb128 last.length else []) ++ last = elementFields whole last := by
    rw [elementFields, writeLeb128_eq, List.append_assoc]
    by_cases hcount : whole.length + 1 ≤ 3
    · rw [if_pos hcount, if_neg (show ¬ whole.length + 1 > MAX_NUM_OBUS_TO_OMIT_SIZE from
        not_lt.2 hcount)]
    · rw [if_neg hcount, if_pos (show whole.length + 1 > MAX_NUM_OBUS_TO_OMIT_SIZE from
        not_le.1 hcount)]
  rw [writePacketPayload, h.count, if_neg (by omega),
    aggregationHeader_of_carries b h hobu hdrop hlt, ok_bind, Nat.add_sub_cancel, hwhole, ok_bind,
    ← Nat.add_assoc, Nat.add_sub_cancel, index_eq_ok.2 hobu, ok_bind]
  dsimp only
  rw [if_congr hone.to_iff rfl rfl, h.lastSize, hfragment, ok_bind, hfields, h.size,
    if_neg (by simp [AGGREGATION_HEADER_SIZE, Nat.add_comm])]
  rfl

/-! ## Whole plans -/

/-- The payloads of a plan, from the packet at `index` on. -/
def writtenFrom (b : Build) (obus : List AV1Obu) (index : ℕ) (plan : List AV1Packet) :
    List (Fallible PacketError Bytes) :=
  (plan.zipIdx index).map fun (packet, index) => writePacketPayload b obus packet index

/-- What a plan emits: all packets are written, the payloads are read by the payload format, joining
the elements that are continued gives the units as they are sent, the flags Z and Y are those of the
cuts, the flag N is that of a sequence header in front, and no payload is longer than `limit`. -/
structure Emits (b : Build) (obus : List AV1Obu) (limit : ℕ) (plan : List AV1Packet)
    (payloads : List Bytes) (aggregations : List Aggregation) : Prop where
  written : writtenFrom b obus 0 plan = payloads.map .ok
  read : payloads.map parseAggregation = aggregations.map some
  joined : join (aggregations.map Aggregation.group) = obus.map AV1Obu.wire
  cuts : Groups false (obus.map AV1Obu.wire) (aggregations.map Aggregation.group) false []
  sequence : ∀ i a, aggregations[i]? = some a → (a.n ↔ i = 0 ∧ startsSequence obus)
  bounded : ∀ payload ∈ payloads, payload.length ≤ limit

/-- The packets of a plan from the one at `index` on, as they are written and read. -/
theorem written_of_carried (b : Build) {obus : List AV1Obu} {m : ℕ} {z y : Bool}
    {vs ws : List Bytes} {plan : List AV1Packet}
    (h : Carried (obus.map AV1Obu.wire) m z vs plan y ws) (index : ℕ) :
    ∃ (payloads : List Bytes) (aggregations : List Aggregation),
      writtenFrom b obus index plan = payloads.map .ok ∧
      payloads.map parseAggregation = aggregations.map some ∧
      Groups z vs (aggregations.map Aggregation.group) y ws ∧
      (∀ i a, aggregations[i]? = some a → (a.n ↔ index + i = 0 ∧ startsSequence obus)) ∧
      ∀ payload ∈ payloads, payload.length ≤ m + 1 := by
  induction h generalizing index with
  | nil z vs => exact ⟨[], [], rfl, rfl, .nil z vs, by simp, by simp⟩
  | @cons p whole last rest vs ws plan y hcarries hsize hplan ih =>
    obtain ⟨payloads, aggregations, hwritten, hread, hgroups, hn, hbounded⟩ := ih (index + 1)
    let n := decide (index = 0) && startsSequence obus
    refine ⟨aggregate (decide (0 < p.firstObuOffset)) (!rest.isEmpty) n whole last :: payloads,
      ⟨decide (0 < p.firstObuOffset), !rest.isEmpty, countField (whole.length + 1), n,
        whole ++ [last]⟩ :: aggregations, ?_, ?_, ?_, ?_, ?_⟩
    · change writePacketPayload b obus p index :: writtenFrom b obus (index + 1) plan = _
      rw [writePacketPayload_of_carries b hcarries, hwritten, List.map_cons]
    · rw [List.map_cons, List.map_cons, hread, parseAggregation_aggregate]
    · rw [hcarries.units]
      exact .cons (.of_pieces whole hcarries.last_ne rest vs) hgroups
    · intro i a hi
      cases i with
      | zero =>
        obtain rfl := Option.some.inj hi
        simp [n]
      | succ i =>
        have := hn i a hi
        rwa [Nat.add_assoc, Nat.add_comm 1 i] at this
    · rintro payload hpayload
      rcases List.mem_cons.1 hpayload with rfl | hpayload
      · rw [aggregate, List.length_cons, ← hcarries.size]
        omega
      · exact hbounded payload hpayload

theorem emits_of_carried (b : Build) {obus : List AV1Obu} {limit : ℕ} {plan : List AV1Packet}
    (hlimit : 0 < limit)
    (h : Carried (obus.map AV1Obu.wire) (limit - 1) false (obus.map AV1Obu.wire) plan false []) :
    ∃ payloads aggregations, Emits b obus limit plan payloads aggregations := by
  obtain ⟨payloads, aggregations, hwritten, hread, hgroups, hn, hbounded⟩ :=
    written_of_carried b h 0
  refine ⟨payloads, aggregations, hwritten, hread, join_of_groups hgroups, hgroups, ?_, ?_⟩
  · intro i a hi
    have := hn i a hi
    rwa [Nat.zero_add] at this
  · intro payload hpayload
    have := hbounded payload hpayload
    omega

theorem packetCapacity_eq (b : Build) {limit : ℕ} (hlimit : 1 ≤ limit) {packetCount : ℕ}
    (hcount : 1 ≤ packetCount) (packetIndex : ℕ) :
    packetCapacity b (zeroReductions limit) packetCount packetIndex = .ok (limit - 1) := by
  have hheader : b.subUsize (zeroReductions limit).maxPayloadLen AGGREGATION_HEADER_SIZE =
      (.ok (limit - 1) : Fallible PacketError ℕ) := b.subUsize_of_le hlimit
  rw [packetCapacity, hheader, ok_bind]
  split
  · rfl
  · rw [b.subUsize_of_le hcount, ok_bind]
    split <;> rfl

theorem unusedPacketCapacity_returns (b : Build) {limit : ℕ} (hlimit : 1 ≤ limit) {packetCount : ℕ}
    (hcount : 1 ≤ packetCount) (packets : List AV1Packet) (packetIndex : ℕ) :
    ∃ unused, unusedPacketCapacity b (zeroReductions limit) packetCount packetIndex packets =
      .ok unused := by
  induction packets generalizing packetIndex with
  | nil => exact ⟨0, rfl⟩
  | cons packet packets ih =>
    obtain ⟨rest, hrest⟩ := ih (packetIndex + 1)
    rw [unusedPacketCapacity, packetCapacity_eq b hlimit hcount, ok_bind]
    split
    case isTrue hle => exact ⟨_, by rw [b.subUsize_of_le hle, ok_bind, hrest]; rfl⟩
    case isFalse => exact ⟨_, by rw [ok_bind, hrest]; rfl⟩

/-- The even distribution is one into packets of a smaller limit, or it is not taken. -/
theorem evenPackets_eq (b : Build) {obus : List AV1Obu} (hobus : obus ≠ []) {limit : ℕ}
    {packets : List AV1Packet} {sizeReduction : ℕ} (hless : sizeReduction < limit)
    (hmore : 1 < sizeReduction) :
    evenPackets b obus (zeroReductions limit) packets sizeReduction = .ok packets ∨
      ∃ reduced plan, 3 ≤ reduced ∧ reduced ≤ limit ∧
        packetizeInternal b obus (zeroReductions reduced) = .ok plan ∧
        evenPackets b obus (zeroReductions limit) packets sizeReduction = .ok plan := by
  have hreduction : b.subUsize sizeReduction BYTES_OVERHEAD_EVEN_DISTRIBUTION =
      (.ok (sizeReduction - 1) : Fallible PacketError ℕ) := b.subUsize_of_le hmore.le
  have hlimit : b.subUsize (zeroReductions limit).maxPayloadLen (sizeReduction - 1) =
      (.ok (limit - (sizeReduction - 1)) : Fallible PacketError ℕ) :=
    b.subUsize_of_le (show sizeReduction - 1 ≤ limit by omega)
  rw [evenPackets, hreduction, ok_bind, hlimit, ok_bind]
  dsimp only
  split
  case isFalse => exact .inl rfl
  case isTrue hreduced =>
    have hthree : 3 ≤ limit - (sizeReduction - 1) := Nat.le_trans hreduced.1 (Nat.sub_le ..)
    obtain ⟨plan, hplan, -⟩ := packetizeInternal_carried b hobus hthree
    by_cases hlen : plan.length = packets.length
    · refine .inr ⟨_, plan, hthree, Nat.sub_le .., hplan, ?_⟩
      change (packetizeInternal b obus (zeroReductions _) >>= _) = _
      rw [hplan, ok_bind, if_pos hlen, pure_eq]
    · left
      change (packetizeInternal b obus (zeroReductions _) >>= _) = _
      rw [hplan, ok_bind, if_neg hlen, pure_eq]

/-- `packetize_obus` returns a plan of `packetize_internal`, for its own limit or a smaller one. -/
theorem packetizeObus_eq (b : Build) {obus : List AV1Obu} (hobus : obus ≠ []) {mtu : ℕ}
    (hmtu : 4 ≤ mtu) :
    ∃ reduced plan, 3 ≤ reduced ∧ reduced ≤ mtu ∧
      packetizeInternal b obus (zeroReductions reduced) = .ok plan ∧
      packetizeObus b mtu obus = .ok plan := by
  obtain ⟨plan, hplan, -⟩ := packetizeInternal_carried b hobus (show 3 ≤ mtu by omega)
  have hlimits : payloadLimits mtu = .ok (zeroReductions mtu) := by
    rw [payloadLimits, if_neg (by simp only [AGGREGATION_HEADER_SIZE]; omega)]
    rfl
  have hfirst : ∃ reduced plan', 3 ≤ reduced ∧ reduced ≤ mtu ∧
      packetizeInternal b obus (zeroReductions reduced) = .ok plan' ∧
      (.ok plan : Fallible PacketError (List AV1Packet)) = .ok plan' :=
    ⟨mtu, plan, by omega, le_rfl, hplan, rfl⟩
  rw [packetizeObus, hlimits, ok_bind, hplan, ok_bind]
  split
  case isTrue => exact hfirst
  case isFalse hcount =>
    obtain ⟨unused, hunused⟩ :=
      unusedPacketCapacity_returns b (show 1 ≤ mtu by omega) (show 1 ≤ plan.length by omega) plan 0
    rw [hunused, ok_bind]
    dsimp only
    split
    case isFalse => exact hfirst
    case isTrue hreduce =>
      have hless : unused / plan.length < mtu := hreduce.2.1
      rcases @evenPackets_eq b _ hobus _ plan _ hless hreduce.2.2 with heven | heven
      · rw [heven]
        exact hfirst
      · obtain ⟨reduced, even, hthree, hle, hplan', heven⟩ := heven
        exact ⟨reduced, even, hthree, hle, hplan', heven⟩

/-- **The plan of `packetize_obus`** takes all units off, whichever distribution it chooses. -/
theorem packetizeObus_carried (b : Build) {obus : List AV1Obu} (hobus : obus ≠ []) {mtu : ℕ}
    (hmtu : 4 ≤ mtu) :
    ∃ plan, packetizeObus b mtu obus = .ok plan ∧
      Carried (obus.map AV1Obu.wire) (mtu - 1) false (obus.map AV1Obu.wire) plan false [] := by
  obtain ⟨reduced, plan, hthree, hle, hplan, heq⟩ := packetizeObus_eq b hobus hmtu
  obtain ⟨plan', hplan', hcarried⟩ := packetizeInternal_carried b hobus hthree
  obtain rfl : plan = plan' := Except.ok.inj (hplan.symm.trans hplan')
  exact ⟨plan, heq, hcarried.mono (by omega)⟩

/-- **The packetizer emits the AV1 payload format**, for the units `obus` and every limit of at
least 4 bytes: the distribution into as few packets as possible, the even one with a reduced limit,
and the one of both that `packetize_obus` chooses. -/
theorem packetizer_emits_wire_format (b : Build) {obus : List AV1Obu} (hobus : obus ≠ [])
    {limit : ℕ} (hlimit : 4 ≤ limit) :
    (∀ reduced, 3 ≤ reduced → reduced ≤ limit → ∃ plan payloads aggregations,
      packetizeInternal b obus (zeroReductions reduced) = .ok plan ∧
      Emits b obus reduced plan payloads aggregations) ∧
    ∃ plan payloads aggregations, packetizeObus b limit obus = .ok plan ∧
      Emits b obus limit plan payloads aggregations := by
  constructor
  · intro reduced hreduced _
    obtain ⟨plan, hplan, hcarried⟩ := packetizeInternal_carried b hobus hreduced
    obtain ⟨payloads, aggregations, hemits⟩ := emits_of_carried b (by omega) hcarried
    exact ⟨plan, payloads, aggregations, hplan, hemits⟩
  · obtain ⟨plan, hplan, hcarried⟩ := packetizeObus_carried b hobus hlimit
    obtain ⟨payloads, aggregations, hemits⟩ := emits_of_carried b (by omega) hcarried
    exact ⟨plan, payloads, aggregations, hplan, hemits⟩

/-- A unit of six bytes in packets of at most four bytes. -/
theorem packetizer_emits_wire_format_two_packets :
    ∃ plan payloads aggregations, packetizeObus .release 4 [⟨0x0A, none, [1, 2, 3, 4, 5]⟩] =
      .ok plan ∧ Emits .release [⟨0x0A, none, [1, 2, 3, 4, 5]⟩] 4 plan payloads aggregations :=
  (packetizer_emits_wire_format .release (by decide) (Nat.le_refl 4)).2

end AV1Packetizer

end NativeVoice.Video
