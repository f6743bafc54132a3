import NativeVoice.Video.AV1.Grammar
import NativeVoice.Video.AV1.Packetizer

/-!
# What the packets of a plan carry

A plan of `packetize_internal` describes each packet by the unit it begins in, an offset there, a
number of elements and the size of the last one.

* `Carries us p whole last rest vs`: the packet `p` takes the elements `whole` and `last` off what
  remains of the units `us` and leaves `rest` of the last one's unit and the units `vs`.
* `Carried` is a sequence of such packets, each where the one before ended.
* `Packed` is the invariant of the loop over the units, `packetizeInternal_carried` what follows for
  a plan.
* `writePacketPayload_of_carries`: such a packet is written as the payload format says.
-/

namespace NativeVoice.Video

open Lib Lib.Packing

/-- What remains of the units `us` from the offset `offset` in the one at `i` on. -/
def remaining (us : List Bytes) (i offset : ℕ) : List Bytes :=
  match us.drop i with
  | [] => []
  | u :: us => u.drop offset :: us

@[simp] theorem remaining_zero (us : List Bytes) (i : ℕ) : remaining us i 0 = us.drop i := by
  unfold remaining
  cases us.drop i <;> rfl

theorem remaining_of_drop {us vs : List Bytes} {u : Bytes} {i : ℕ} (h : us.drop i = u :: vs)
    (offset : ℕ) : remaining us i offset = u.drop offset :: vs := by
  rw [remaining, h]

theorem drop_eq_cons {α : Type*} {us vs : List α} {u : α} {i : ℕ} :
    us.drop i = u :: vs ↔ us[i]? = some u ∧ us.drop (i + 1) = vs := by
  constructor
  · intro h
    rw [← List.head?_drop, ← List.tail_drop, h]
    exact ⟨rfl, rfl⟩
  · rintro ⟨hu, rfl⟩
    obtain ⟨hi, rfl⟩ := List.getElem?_eq_some_iff.1 hu
    exact List.drop_eq_getElem_cons hi

structure Carries (us : List Bytes) (p : AV1Packet) (whole : List Bytes) (last rest : Bytes)
    (vs : List Bytes) : Prop where
  units : remaining us p.firstObu p.firstObuOffset = whole ++ (last ++ rest) :: vs
  offset_lt : ∃ u, us[p.firstObu]? = some u ∧ p.firstObuOffset < u.length
  last_ne : last ≠ []
  count : p.numObuElements = whole.length + 1
  lastSize : p.lastObuSize = last.length
  size : p.packetSize = (elementFields whole last).length

/-- Packets of at most `m` bytes that take the units `us` off `vs` and leave `ws`; the flags tell
whether a unit has begun before them and whether one has not ended behind them. -/
inductive Carried (us : List Bytes) (m : ℕ) :
    Bool → List Bytes → List AV1Packet → Bool → List Bytes → Prop
  | nil (z : Bool) (vs : List Bytes) : Carried us m z vs [] z vs
  | cons {p : AV1Packet} {whole : List Bytes} {last rest : Bytes} {vs ws : List Bytes}
    {ps : List AV1Packet} {y : Bool} (hcarries : Carries us p whole last rest vs)
    (hsize : p.packetSize ≤ m) (hps : Carried us m (!rest.isEmpty) (leave rest vs) ps y ws) :
    Carried us m (decide (0 < p.firstObuOffset)) (remaining us p.firstObu p.firstObuOffset)
      (p :: ps) y ws

section Carried

variable {us : List Bytes} {m : ℕ}

theorem Carried.append {z y y' : Bool} {vs ws xs : List Bytes} {ps qs : List AV1Packet}
    (h : Carried us m z vs ps y ws) (h' : Carried us m y ws qs y' xs) :
    Carried us m z vs (ps ++ qs) y' xs := by
  induction h with
  | nil => exact h'
  | cons hcarries hsize _ ih => exact .cons hcarries hsize (ih h')

theorem Carries.carried {p : AV1Packet} {whole vs : List Bytes} {last rest : Bytes}
    (h : Carries us p whole last rest vs) (hsize : p.packetSize ≤ m) :
    Carried us m (decide (0 < p.firstObuOffset)) (remaining us p.firstObu p.firstObuOffset) [p]
      (!rest.isEmpty) (leave rest vs) := .cons h hsize (.nil _ _)

theorem Carried.mono {m' : ℕ} (hm : m ≤ m') {z y : Bool} {vs ws : List Bytes}
    {ps : List AV1Packet} (h : Carried us m z vs ps y ws) : Carried us m' z vs ps y ws := by
  induction h with
  | nil => exact .nil _ _
  | cons hcarries hsize _ ih => exact .cons hcarries (hsize.trans hm) ih

end Carried

/-! ## Sizes -/

theorem maxFragmentSizeFrom_spec (b : Build) {r bytes : ℕ} (hbytes : 0 < bytes) (hlt : bytes < r) :
    ∃ n, maxFragmentSizeFrom b r bytes = .ok n ∧ 0 < n ∧ n + Leb128.size n ≤ r := by
  induction hn : r - bytes using Nat.strongRecOn generalizing bytes with
  | ind n ih =>
    rw [maxFragmentSizeFrom, Nat.shiftLeft_eq, Nat.one_mul]
    split
    · rename_i h
      have hsize : Leb128.size (r - bytes) ≤ bytes := by
        rw [Leb128.size_le_iff hbytes, show (128 : ℕ) = 2 ^ 7 by rfl, ← pow_mul]
        omega
      exact ⟨r - bytes, b.subUsize_of_le hlt.le, by omega, by omega⟩
    · rename_i h
      have hpow : 2 ^ 1 ≤ 2 ^ (7 * bytes) := Nat.pow_le_pow_right (by omega) (by omega)
      exact ih (r - (bytes + 1)) (by omega) (by omega) (by omega) rfl

/-- A fragment and its length fit in. -/
theorem maxFragmentSize_spec (b : Build) {r : ℕ} (h : 2 ≤ r) :
    ∃ n, maxFragmentSize b r = .ok n ∧ 0 < n ∧ n + Leb128.size n ≤ r := by
  rw [maxFragmentSize, if_neg (by omega)]
  exact maxFragmentSizeFrom_spec b (by omega) (by omega)

theorem length_elementFields (whole : List Bytes) (last : Bytes) :
    (elementFields whole last).length = (sizedFields whole).length + last.length +
      if whole.length + 1 ≤ 3 then 0 else Leb128.size last.length := by
  unfold elementFields
  split
  · simp
  · simp only [List.length_append, Leb128.length_encode]
    omega

namespace AV1Packetizer

/-- The limits that the source always uses. -/
def zeroReductions (maxPayloadLen : ℕ) : AV1PayloadSizeLimits where
  maxPayloadLen := maxPayloadLen
  firstPacketReductionLen := 0
  lastPacketReductionLen := 0
  singlePacketReductionLen := 0

/-! ## The loop over the units -/

section Pack

variable {us : List Bytes} {m : ℕ}

/-- The packet under construction before the unit at `i`: the first one before the first unit, or
behind the last piece of the unit before. -/
inductive Current (us : List Bytes) (m i : ℕ) (p : AV1Packet) (remainingBytes : ℕ) : Prop
  | new (hi : i = 0) (hp : p = .new i) (hm : remainingBytes = m)
  | filled {whole : List Bytes} {last : Bytes}
    (hcarries : Carries us p whole last [] (us.drop i)) (hm : p.packetSize + remainingBytes = m)

/-- The invariant of the loop, before the unit at `i`. -/
structure Packed (us : List Bytes) (m i : ℕ) (s : Packing) : Prop where
  done : Carried us m false us s.packets (decide (0 < s.packet.firstObuOffset))
    (remaining us s.packet.firstObu s.packet.firstObuOffset)
  current : Current us m i s.packet s.packetRemainingBytes

/-- After the beginning of a round: the units `pre` before the one at `i` are in the current packet,
whose size does not yet have the `extra` bytes of the last one's length. -/
structure Opened (us : List Bytes) (m i : ℕ) (s : Packing) (extra : ℕ) (pre : List Bytes) :
    Prop where
  done : Carried us m false us s.packets (decide (0 < s.packet.firstObuOffset))
    (remaining us s.packet.firstObu s.packet.firstObuOffset)
  units : remaining us s.packet.firstObu s.packet.firstObuOffset = pre ++ us.drop i
  offset_lt : ∃ u, us[s.packet.firstObu]? = some u ∧ s.packet.firstObuOffset < u.length
  count : s.packet.numObuElements = pre.length
  size : s.packet.packetSize + extra = (sizedFields pre).length
  room : s.packet.packetSize + s.packetRemainingBytes = m
  minRequired : extra + (if pre.length + 1 ≤ 3 then 1 else 2) ≤ s.packetRemainingBytes

/-- A new packet begins a round. -/
theorem opened_new {i : ℕ} {u : Bytes} {rest : List Bytes} {packets : List AV1Packet}
    (hi : us.drop i = u :: rest) (hu : u ≠ []) (hm : 2 ≤ m)
    (hdone : Carried us m false us packets false (us.drop i)) :
    Opened us m i ⟨packets, .new i, m⟩ 0 [] where
  done := by simpa [AV1Packet.new] using hdone
  units := by simp [AV1Packet.new]
  offset_lt := ⟨u, (drop_eq_cons.1 hi).1, List.length_pos_iff.2 hu⟩
  count := rfl
  size := rfl
  room := by simp [AV1Packet.new]
  minRequired := by simp; omega

theorem openPacket_opened {limits : AV1PayloadSizeLimits} {i : ℕ} {s : Packing} {u : Bytes}
    {rest : List Bytes} (h : Packed us m i s) (hlimit : limits.maxPayloadLen = m) (hm : 2 ≤ m)
    (hi : us.drop i = u :: rest) (hu : u ≠ []) :
    ∃ s' extra pre, openPacket limits i s = (s', extra) ∧ Opened us m i s' extra pre := by
  obtain ⟨packets, p, r⟩ := s
  cases h.current with
  | new _ hp hr =>
    obtain rfl : p = .new i := hp
    obtain rfl : r = m := hr
    refine ⟨_, _, [], ?_, opened_new hi hu hm (by simpa [AV1Packet.new] using h.done)⟩
    rw [openPacket]
    simp only [additionalBytesForPreviousObuElement, AV1Packet.new]
    rw [if_neg (by simp [MAX_NUM_OBUS_TO_OMIT_SIZE]; omega)]
    rfl
  | @filled whole last hcarries hroom =>
    have hmax : MAX_NUM_OBUS_TO_OMIT_SIZE = 3 := rfl
    have hroom : p.packetSize + r = m := hroom
    have hsize : p.packetSize = _ := hcarries.size.trans (length_elementFields whole last)
    have hpos := List.length_pos_iff.2 hcarries.last_ne
    have hextra : additionalBytesForPreviousObuElement p =
        if whole.length + 1 ≤ 3 then Leb128.size last.length else 0 := by
      rw [additionalBytesForPreviousObuElement, hcarries.count, hcarries.lastSize, leb128Size_eq]
      by_cases hcount : whole.length + 1 ≤ 3
      · rw [if_neg (by omega), if_pos hcount]
      · rw [if_pos (by omega), if_neg hcount]
    have hmin : (if p.numObuElements ≥ MAX_NUM_OBUS_TO_OMIT_SIZE then 2 else 1) =
        if (whole ++ [last]).length + 1 ≤ 3 then 1 else 2 := by
      rw [hcarries.count, List.length_append, List.length_singleton]
      by_cases hcount : whole.length + 1 < 3
      · rw [if_neg (by omega), if_pos (by omega)]
      · rw [if_pos (by omega), if_neg (by omega)]
    rw [openPacket]
    dsimp only
    rw [hmin]
    by_cases hfull : r < additionalBytesForPreviousObuElement p +
        if (whole ++ [last]).length + 1 ≤ 3 then 1 else 2
    · refine ⟨_, _, [], if_pos hfull, ?_⟩
      rw [hlimit]
      refine opened_new hi hu hm (h.done.append ?_)
      exact hcarries.carried (show p.packetSize ≤ m by omega)
    · refine ⟨_, _, whole ++ [last], if_neg hfull,
        ⟨h.done, ?_, hcarries.offset_lt, ?_, ?_, hroom, not_lt.1 hfull⟩⟩
      · rw [hcarries.units]
        simp
      · rw [hcarries.count, List.length_append, List.length_singleton]
      · rw [hextra, hsize, sizedFields_append, sizedFields_cons]
        simp only [sizedFields_nil, List.append_nil, List.length_append, Leb128.length_encode]
        split <;> omega

/-- The current packet takes the whole unit. -/
theorem Opened.packed {i : ℕ} {s : Packing} {extra : ℕ} {pre : List Bytes} {u : Bytes}
    {rest : List Bytes} (h : Opened us m i s extra pre) (hi : us.drop i = u :: rest) (hu : u ≠ [])
    {required : ℕ}
    (hrequired : required = u.length + if pre.length + 1 ≤ 3 then 0 else Leb128.size u.length)
    (hfits : required ≤ s.packetRemainingBytes - extra) :
    Packed us m (i + 1)
      { packets := s.packets
        packet := { s.packet with
          numObuElements := s.packet.numObuElements + 1
          lastObuSize := u.length
          packetSize := s.packet.packetSize + extra + required }
        packetRemainingBytes := s.packetRemainingBytes - extra - required } where
  done := h.done
  current := by
    have hroom := h.room
    have hmin := h.minRequired
    refine @Current.filled _ _ _ _ _ pre _ ⟨?_, h.offset_lt, hu, ?_, rfl, ?_⟩ ?_
    · rw [h.units, hi, (drop_eq_cons.1 hi).2, List.append_nil]
    · exact congrArg (· + 1) h.count
    · rw [length_elementFields, ← h.size, hrequired]
      exact (Nat.add_assoc ..).symm
    · dsimp only
      omega

/-- The current packet takes the first piece of the unit. -/
theorem Opened.carries {i : ℕ} {s : Packing} {extra : ℕ} {pre : List Bytes} {u : Bytes}
    {rest : List Bytes} (h : Opened us m i s extra pre) (hi : us.drop i = u :: rest) {n : ℕ}
    (hn : 0 < n) (hle : n ≤ u.length) :
    Carries us
      { s.packet with
        numObuElements := s.packet.numObuElements + 1
        packetSize := s.packet.packetSize + extra + n +
          if pre.length + 1 ≤ 3 then 0 else Leb128.size n
        lastObuSize := n }
      pre (u.take n) (u.drop n) rest := by
  have hlen : (u.take n).length = n := List.length_take_of_le hle
  refine ⟨?_, h.offset_lt, ?_, ?_, hlen.symm, ?_⟩
  · rw [h.units, hi, List.take_append_drop]
  · rw [← List.length_pos_iff, hlen]
    exact hn
  · exact congrArg (· + 1) h.count
  · rw [length_elementFields, ← h.size, hlen]

/-- A piece on its own. -/
theorem carries_piecePacket {i : ℕ} {u : Bytes} {rest : List Bytes} (hi : us.drop i = u :: rest)
    {offset n : ℕ} (hn : 0 < n) (hle : offset + n ≤ u.length) :
    Carries us (piecePacket i offset n) [] ((u.drop offset).take n) (u.drop (offset + n)) rest := by
  have hlen : ((u.drop offset).take n).length = n := by
    rw [List.length_take, List.length_drop]
    omega
  refine ⟨?_, ⟨u, (drop_eq_cons.1 hi).1, ?_⟩, ?_, rfl, hlen.symm, ?_⟩
  · rw [← List.drop_drop, List.take_append_drop]
    exact remaining_of_drop hi offset
  · change offset < u.length
    omega
  · rw [← List.length_pos_iff, hlen]
    exact hn
  · rw [length_elementFields, hlen]
    simp [piecePacket]

theorem leave_drop {u : Bytes} {n : ℕ} (hn : n < u.length) (vs : List Bytes) :
    (!(u.drop n).isEmpty) = true ∧ leave (u.drop n) vs = u.drop n :: vs := by
  have hne : (u.drop n).isEmpty = false := by
    rw [List.isEmpty_eq_false_iff, ← List.length_pos_iff, List.length_drop]
    omega
  exact ⟨by rw [hne]; rfl, by rw [leave, hne, if_neg (by simp)]⟩

/-- The packets between the first and the last piece are full, and the last piece fits in one. -/
theorem middlePackets_carried {i : ℕ} {u : Bytes} {rest : List Bytes}
    (hi : us.drop i = u :: rest) (hm : 0 < m) {offset : ℕ} (hpos : 0 < offset)
    (hlt : offset < u.length) :
    ∃ ps offset', middlePackets m i u.length offset = (ps, offset') ∧
      Carried us m true (remaining us i offset) ps true (remaining us i offset') ∧
      0 < offset' ∧ offset' < u.length ∧ u.length ≤ offset' + m := by
  induction hn : u.length - offset using Nat.strongRecOn generalizing offset with
  | ind n ih =>
    rw [middlePackets]
    by_cases hmore : offset + m < u.length
    · obtain ⟨ps, offset', heq, hcarried, h⟩ :=
        ih (u.length - (offset + m)) (by omega) (by omega) hmore rfl
      rw [if_pos ⟨hm, hmore⟩, heq]
      refine ⟨_, offset', rfl, ?_, h⟩
      obtain ⟨hflag, hleave⟩ := leave_drop hmore rest
      have hpiece := (carries_piecePacket hi hm hmore.le).carried (m := m) le_rfl
      rw [hflag, hleave, ← remaining_of_drop hi (offset + m)] at hpiece
      have hz : decide (0 < (piecePacket i offset m).firstObuOffset) = true := decide_eq_true hpos
      rw [hz] at hpiece
      exact hpiece.append hcarried
    · rw [if_neg (by omega)]
      exact ⟨[], offset, rfl, .nil _ _, hpos, hlt, by omega⟩

/-- There is room for a piece of the unit, and it is not the whole unit. -/
theorem Opened.firstFragmentSize_eq (b : Build) {i : ℕ} {s : Packing} {extra : ℕ}
    {pre : List Bytes} (h : Opened us m i s extra pre) {size : ℕ} (hsize : 0 < size)
    {mustWrite : Bool} (hmust : mustWrite = !decide (pre.length + 1 ≤ 3))
    {packetRemainingBytes : ℕ} (hremaining : packetRemainingBytes = s.packetRemainingBytes - extra)
    (hexceeds : packetRemainingBytes < size + if pre.length + 1 ≤ 3 then 0 else Leb128.size size) :
    ∃ n, firstFragmentSize b size mustWrite packetRemainingBytes = .ok n ∧ 0 < n ∧ n < size ∧
      n + (if pre.length + 1 ≤ 3 then 0 else Leb128.size n) ≤ packetRemainingBytes := by
  have hmin := h.minRequired
  rw [firstFragmentSize, hmust]
  by_cases hcount : pre.length + 1 ≤ 3
  · simp only [hcount, decide_true, Bool.not_true, Bool.false_eq_true, if_false, if_true] at *
    rw [ok_bind, b.subUsize_of_le hsize, ok_bind]
    exact ⟨_, rfl, by omega, by omega, by omega⟩
  · simp only [hcount, decide_false, Bool.not_false, if_true, if_false] at *
    obtain ⟨most, hmost, hpos, hle⟩ := maxFragmentSize_spec b (r := packetRemainingBytes) (by omega)
    have hlen : 2 ≤ size := by
      by_contra hlen
      have := Leb128.size_of_lt (n := size) (by omega)
      omega
    have := Leb128.size_mono (min_le_right (size - 1) most)
    rw [hmost, ok_bind, b.subUsize_of_le (show 1 ≤ size from hsize), ok_bind]
    exact ⟨min (size - 1) most, rfl, by omega, by omega, by omega⟩

/-- The unit is cut: its first piece goes into the current packet, the last one into a new one. -/
theorem fragmentObu_packed (b : Build) {i : ℕ} {s : Packing} {extra : ℕ} {pre : List Bytes}
    {u : Bytes} {rest : List Bytes} (h : Opened us m i s extra pre) (hi : us.drop i = u :: rest)
    (hu : 0 < u.length) (hm : 0 < m) (isLast : Bool) {mustWrite : Bool}
    (hmust : mustWrite = !decide (pre.length + 1 ≤ 3)) {packetRemainingBytes : ℕ}
    (hremaining : packetRemainingBytes = s.packetRemainingBytes - extra)
    (hexceeds : packetRemainingBytes < u.length +
      if pre.length + 1 ≤ 3 then 0 else Leb128.size u.length) :
    ∃ s', fragmentObu b (zeroReductions m) i u.length isLast mustWrite extra
      { packets := s.packets
        packet := { s.packet with
          packetSize := s.packet.packetSize + extra
          numObuElements := s.packet.numObuElements + 1 }
        packetRemainingBytes } = .ok s' ∧ Packed us m (i + 1) s' := by
  have hroom := h.room
  obtain ⟨n, hn, hnpos, hnlt, hnfits⟩ := h.firstFragmentSize_eq b hu hmust hremaining hexceeds
  obtain ⟨middle, offset, hmiddle, hcarried, hpos, hlt, hlast⟩ :=
    middlePackets_carried hi hm hnpos hnlt
  have hfirst := (h.carries hi hnpos hnlt.le).carried (m := m) (by dsimp only; omega)
  obtain ⟨hflag, hleave⟩ := leave_drop hnlt rest
  rw [hflag, hleave, ← remaining_of_drop hi n] at hfirst
  rw [fragmentObu, hn, ok_bind, withFirstFragment, if_neg (by omega), ok_bind]
  rw [show (zeroReductions m).maxPayloadLen = m from rfl, hmiddle]
  dsimp only
  rw [b.subUsize_of_le hlt.le, ok_bind, semiLastPacket, if_neg (by simp [zeroReductions]; omega),
    ok_bind]
  dsimp only
  rw [b.subUsize_of_le (by omega), ok_bind]
  have hwritten : (if mustWrite then leb128Size n else 0) =
      if pre.length + 1 ≤ 3 then 0 else Leb128.size n := by
    rw [hmust, leb128Size_eq]
    by_cases hcount : pre.length + 1 ≤ 3 <;> simp [hcount]
  have hpiece := carries_piecePacket hi (show 0 < u.length - offset by omega)
    (show offset + (u.length - offset) ≤ u.length by omega)
  rw [show offset + (u.length - offset) = u.length by omega, List.drop_length,
    ← (drop_eq_cons.1 hi).2] at hpiece
  have hz : decide (0 < (piecePacket i offset (u.length - offset)).firstObuOffset) = true :=
    decide_eq_true hpos
  refine ⟨_, rfl, ?_, .filled hpiece ?_⟩
  · dsimp only
    rw [hz, hwritten, List.append_nil]
    exact (h.done.append hfirst).append hcarried
  · change u.length - offset + (m - (u.length - offset)) = m
    omega

theorem availableBytes_zeroReductions (isLast : Bool) (s : Packing) :
    availableBytes (zeroReductions m) isLast s = s.packetRemainingBytes := by
  unfold availableBytes
  split
  · split <;> rfl
  · rfl

/-- **One round** keeps the invariant, and does not stop. -/
theorem packObu_packed (b : Build) {i : ℕ} {s : Packing} {obu : AV1Obu} {rest : List Bytes}
    (h : Packed us m i s) (hi : us.drop i = obu.wire :: rest) (hm : 2 ≤ m) (isLast : Bool) :
    ∃ s', packObu b (zeroReductions m) i isLast obu s = .ok s' ∧ Packed us m (i + 1) s' := by
  have hwire : obu.wire ≠ [] := by simp [AV1Obu.wire]
  obtain ⟨s, extra, pre, hopen, hopened⟩ :=
    openPacket_opened h (show (zeroReductions m).maxPayloadLen = m from rfl) hm hi hwire
  have hmust : decide (s.packet.numObuElements + 1 > MAX_NUM_OBUS_TO_OMIT_SIZE) =
      !decide (pre.length + 1 ≤ 3) := by
    rw [hopened.count, ← decide_not]
    exact decide_eq_decide.2 not_le.symm
  have hrequired : (obu.size + if s.packet.numObuElements + 1 > MAX_NUM_OBUS_TO_OMIT_SIZE then
      leb128Size obu.size else 0) =
        obu.wire.length + if pre.length + 1 ≤ 3 then 0 else Leb128.size obu.wire.length := by
    rw [hopened.count, obu.length_wire, leb128Size_eq]
    have hmax : MAX_NUM_OBUS_TO_OMIT_SIZE = 3 := rfl
    by_cases hcount : pre.length + 1 ≤ 3
    · rw [if_pos hcount, if_neg (by omega)]
    · rw [if_neg hcount, if_pos (by omega)]
  have hmin := hopened.minRequired
  rw [packObu, hopen]
  dsimp only
  rw [b.subUsize_of_le (by omega), ok_bind, availableBytes_zeroReductions]
  by_cases hfits : (obu.size + if s.packet.numObuElements + 1 > MAX_NUM_OBUS_TO_OMIT_SIZE then
      leb128Size obu.size else 0) ≤ s.packetRemainingBytes - extra
  · rw [if_pos hfits, b.subUsize_of_le hfits, ok_bind]
    have hpacked := hopened.packed hi hwire hrequired hfits
    rw [obu.length_wire] at hpacked
    exact ⟨_, rfl, hpacked⟩
  · rw [if_neg hfits, ← obu.length_wire]
    exact fragmentObu_packed b hopened hi (List.length_pos_iff.2 hwire) (by omega) isLast hmust rfl
      (by rw [← hrequired]; exact not_le.1 hfits)

/-- **All rounds.** -/
theorem packObus_packed (b : Build) (hm : 2 ≤ m) (obus : List AV1Obu) {i : ℕ} {s : Packing}
    (h : Packed us m i s) (hi : us.drop i = obus.map AV1Obu.wire) :
    ∃ s', packObus b (zeroReductions m) i obus s = .ok s' ∧
      Packed us m (i + obus.length) s' := by
  induction obus generalizing i s with
  | nil => exact ⟨s, rfl, h⟩
  | cons obu obus ih =>
    obtain ⟨s₁, hround, h₁⟩ := packObu_packed b h hi hm obus.isEmpty
    obtain ⟨s', hrounds, h'⟩ := ih h₁ (drop_eq_cons.1 hi).2
    refine ⟨s', by rw [packObus, hround, ok_bind, hrounds], ?_⟩
    rwa [List.length_cons, Nat.add_comm obus.length, ← Nat.add_assoc]

end Pack

theorem packetizeInternal_eq (b : Build) {obus : List AV1Obu} (hobus : obus ≠ []) {limit : ℕ}
    (hlimit : 3 ≤ limit) :
    packetizeInternal b obus (zeroReductions limit) =
      packObus b (zeroReductions (limit - 1)) 0 obus ⟨[], .new 0, limit - 1⟩ >>= fun s =>
        .ok (s.packets ++ [s.packet]) := by
  have hheader : b.subUsize (zeroReductions limit).maxPayloadLen AGGREGATION_HEADER_SIZE =
      (.ok (limit - 1) : Fallible PacketError ℕ) := b.subUsize_of_le (show 1 ≤ limit by omega)
  rw [packetizeInternal, if_neg (by simpa using hobus), if_neg (by simp [zeroReductions]; omega),
    hheader, ok_bind]
  rfl

/-- **A plan** takes all units off, in packets of at most the limit with the header. -/
theorem packetizeInternal_carried (b : Build) {obus : List AV1Obu} (hobus : obus ≠ []) {limit : ℕ}
    (hlimit : 3 ≤ limit) :
    ∃ plan, packetizeInternal b obus (zeroReductions limit) = .ok plan ∧
      Carried (obus.map AV1Obu.wire) (limit - 1) false (obus.map AV1Obu.wire) plan false [] := by
  have hstart : Packed (obus.map AV1Obu.wire) (limit - 1) 0 ⟨[], .new 0, limit - 1⟩ :=
    ⟨by simpa [AV1Packet.new] using Carried.nil false _, .new rfl rfl rfl⟩
  obtain ⟨s, hrounds, hpacked⟩ :=
    packObus_packed b (by omega) obus hstart (List.drop_zero ..)
  refine ⟨s.packets ++ [s.packet], ?_, ?_⟩
  · rw [packetizeInternal_eq b hobus hlimit, hrounds, ok_bind]
  · cases hpacked.current with
    | new hi => exact absurd (List.length_eq_zero_iff.1 (by omega)) hobus
    | filled hcarries hm =>
      have hlast := hcarries.carried (m := limit - 1) (by omega)
      rw [Nat.zero_add, List.drop_eq_nil_of_le (by simp)] at hlast
      exact hpacked.done.append hlast

end AV1Packetizer

end NativeVoice.Video
