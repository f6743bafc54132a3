import Mathlib.Data.UInt
import Mathlib.Logic.Function.Basic
import NativeVoice.Rtp.Packet

/-!
# Mixed recordings

`MixedWaveSink` of `src/discord/ext/native_voice/media.py`, for packets of the codec `pcm`, whose
payload is mixed as it is: every packet is added to the samples behind its RTP timestamp, counted
from that of the first packet that is included. What `cleanup` writes to the file is the mix.

* `mixed_offset_iff`: constants added to the RTP timestamps of the SSRCs leave the mix alone, if the
  SSRC of every packet that counts has the constant of the first one; and all constants do, if and
  only if all packets that count are of one SSRC.
* `not_offsetIndependent`: a packet on each of two SSRCs is enough.
-/

namespace NativeVoice.Media

/-! ## Samples -/

inductive AudioError
  | notWholeFrame
  | lengthMismatch
  deriving DecidableEq

/-- `i16::from_le_bytes([lo, hi])`. -/
def i16FromLe (lo hi : UInt8) : ℤ := (u16FromBe hi lo).toBitVec.toInt

/-- `i16::to_le_bytes`. -/
def i16LeBytes (x : ℤ) : Bytes := (u16BeBytes (UInt16.ofInt x)).reverse

/-- `i16::saturating_add`. -/
def saturatingAdd (x y : ℤ) : ℤ := max (-2 ^ 15) (min (2 ^ 15 - 1) (x + y))

/-- The loop of `pcm16_add` over `chunks_exact(2)`. -/
def addSamples : Bytes → Bytes → Bytes
  | l0 :: l1 :: left, r0 :: r1 :: right =>
    i16LeBytes (saturatingAdd (i16FromLe l0 l1) (i16FromLe r0 r1)) ++ addSamples left right
  | _, _ => []

/-- `pcm16_add` of `src/src/audio/pcm.rs`. -/
def pcm16Add (left right : Bytes) : Except AudioError Bytes :=
  if left.length % 2 ≠ 0 then .error .notWholeFrame
  else if right.length % 2 ≠ 0 then .error .notWholeFrame
  else if left.length ≠ right.length then .error .lengthMismatch
  else .ok (addSamples left right)

theorem length_addSamples : ∀ {left right : Bytes}, left.length % 2 = 0 →
    left.length = right.length → (addSamples left right).length = left.length
  | [], _, _, _ => by simp [addSamples]
  | [_], _, heven, _ => by simp at heven
  | l0 :: l1 :: left, right, heven, hlen => by
    obtain ⟨r0, r1, right, rfl⟩ : ∃ r0 r1 right', right = r0 :: r1 :: right' := by
      match right with
      | r0 :: r1 :: right => exact ⟨r0, r1, right, rfl⟩
      | [_] => simp at hlen
      | [] => simp at hlen
    simp only [List.length_cons] at heven hlen
    have hrest : (addSamples left right).length = left.length :=
      length_addSamples (by omega) (by omega)
    simp [addSamples, i16LeBytes, u16BeBytes, hrest]

theorem length_pcm16Add {left right mixed : Bytes} (h : pcm16Add left right = .ok mixed) :
    mixed.length = right.length := by
  unfold pcm16Add at h
  split_ifs at h with hleft hright hlen
  obtain rfl := Except.ok.inj h
  rw [length_addSamples (by simpa using hleft) (by simpa using hlen)]
  simpa using hlen

/-! ## The sink -/

def CHANNELS : ℕ := 2
def SAMPLE_WIDTH : ℕ := 2

def RTP_TIMESTAMP_HALF_RANGE : ℕ := 2 ^ 31

/-- A media packet of the codec `pcm`. -/
structure PcmPacket where
  ssrc : UInt32
  userId : Option ℕ
  timestamp : UInt32
  payload : Bytes
  deriving DecidableEq

def rtpTimestampDelta (timestamp base : UInt32) : Option ℕ :=
  let delta := (timestamp - base).toNat
  if delta ≥ RTP_TIMESTAMP_HALF_RANGE then none else some delta

structure MixedWaveSink where
  users : Option (List ℕ) := none
  baseTimestamp : Option UInt32 := none
  mix : Bytes := []
  closed : Bool := false
  deriving DecidableEq

/-- The packets that a sink for these users does not leave out. -/
def included (users : Option (List ℕ)) (packet : PcmPacket) : Bool :=
  match users, packet.userId with
  | none, _ => true
  | some _, none => false
  | some users, some userId => users.contains userId

/-- Adding samples to a mix, which is extended to their end. -/
def mixInto (mix : Bytes) (start : ℕ) (pcm : Bytes) : Except AudioError Unit × Bytes :=
  let stop := start + pcm.length
  let mix := mix ++ List.replicate (stop - mix.length) 0
  match pcm16Add ((mix.take stop).drop start) pcm with
  | .error e => (.error e, mix)
  | .ok mixed => (.ok (), mix.take start ++ mixed ++ mix.drop stop)

namespace MixedWaveSink

def timestampDelta (s : MixedWaveSink) (timestamp : UInt32) : Option ℕ × MixedWaveSink :=
  match s.baseTimestamp with
  | none => (some 0, { s with baseTimestamp := some timestamp })
  | some base => (rtpTimestampDelta timestamp base, s)

def write (s : MixedWaveSink) (packet : PcmPacket) : Except AudioError Unit × MixedWaveSink :=
  if s.closed then (.ok (), s)
  else if !included s.users packet then (.ok (), s)
  else match s.timestampDelta packet.timestamp with
  | (none, s) => (.ok (), s)
  | (some timestampDelta, s) =>
    if packet.payload.isEmpty then (.ok (), s)
    else
      let start := timestampDelta * CHANNELS * SAMPLE_WIDTH
      let (result, mix) := mixInto s.mix start packet.payload
      (result, { s with mix })

/-- Packets one after the other, also behind one that raises. -/
def run (s : MixedWaveSink) (packets : List PcmPacket) : MixedWaveSink :=
  packets.foldl (fun s packet => (s.write packet).2) s

end MixedWaveSink

/-- What is mixed of packets. -/
def output (users : Option (List ℕ)) (packets : List PcmPacket) : Bytes :=
  (MixedWaveSink.run { users } packets).mix

/-- The packet with a constant for its SSRC added to the timestamp. -/
def shift (c : UInt32 → UInt32) (packet : PcmPacket) : PcmPacket :=
  { packet with timestamp := packet.timestamp + c packet.ssrc }

/-! ## Lengths -/

theorem le_length_mixInto (mix : Bytes) (start : ℕ) (pcm : Bytes) :
    mix.length ≤ (mixInto mix start pcm).2.length ∧
      start + pcm.length ≤ (mixInto mix start pcm).2.length := by
  unfold mixInto
  dsimp only
  generalize hextended : mix ++ List.replicate (start + pcm.length - mix.length) 0 = extended
  have hlength : extended.length = max mix.length (start + pcm.length) := by
    rw [← hextended, List.length_append, List.length_replicate]
    omega
  cases hadd : pcm16Add ((extended.take (start + pcm.length)).drop start) pcm with
  | error e =>
    dsimp only
    omega
  | ok mixed =>
    have hmixed := length_pcm16Add hadd
    simp only [List.length_append, List.length_take, List.length_drop]
    omega

/-! ## The mix of a run -/

/-- A mix after a packet that is included, with the timestamp from which it is counted. -/
def mixedWith (base : UInt32) (mix : Bytes) (packet : PcmPacket) : Bytes :=
  match rtpTimestampDelta packet.timestamp base with
  | none => mix
  | some delta =>
    if packet.payload.isEmpty then mix
    else (mixInto mix (delta * CHANNELS * SAMPLE_WIDTH) packet.payload).2

/-- The mix of packets that are all included. -/
def mixedOf : List PcmPacket → Bytes
  | [] => []
  | first :: rest => (first :: rest).foldl (mixedWith first.timestamp) []

section Run

variable {users : Option (List ℕ)} {packet : PcmPacket}

theorem write_of_not_included (s : MixedWaveSink) (hout : included s.users packet = false) :
    (s.write packet).2 = s := by
  simp [MixedWaveSink.write, hout]

theorem write_based (hin : included users packet) (base : UInt32) (mix : Bytes) :
    ((⟨users, some base, mix, false⟩ : MixedWaveSink).write packet).2 =
      ⟨users, some base, mixedWith base mix packet, false⟩ := by
  simp only [MixedWaveSink.write, hin, MixedWaveSink.timestampDelta, mixedWith, Bool.not_true,
    Bool.false_eq_true, if_false]
  cases rtpTimestampDelta packet.timestamp base with
  | none => rfl
  | some delta =>
    dsimp only
    split <;> rfl

/-- The first packet that is included is the base, also when it has no samples. -/
theorem write_first (hin : included users packet) :
    (({ users } : MixedWaveSink).write packet).2 =
      ⟨users, some packet.timestamp, mixedWith packet.timestamp [] packet, false⟩ := by
  have hzero : rtpTimestampDelta packet.timestamp packet.timestamp = some 0 := by
    simp [rtpTimestampDelta, RTP_TIMESTAMP_HALF_RANGE]
  simp only [MixedWaveSink.write, hin, MixedWaveSink.timestampDelta, mixedWith, hzero,
    Bool.not_true, Bool.false_eq_true, if_false]
  split <;> rfl

theorem run_based (packets : List PcmPacket) (base : UInt32) (mix : Bytes) :
    (⟨users, some base, mix, false⟩ : MixedWaveSink).run packets =
      ⟨users, some base, (packets.filter (included users)).foldl (mixedWith base) mix, false⟩ := by
  induction packets generalizing mix with
  | nil => rfl
  | cons p packets ih =>
    have hstep : (⟨users, some base, mix, false⟩ : MixedWaveSink).run (p :: packets) =
        (((⟨users, some base, mix, false⟩ : MixedWaveSink).write p).2).run packets := rfl
    cases hin : included users p with
    | false =>
      rw [hstep, write_of_not_included _ hin, ih, List.filter_cons_of_neg (by simp [hin])]
    | true =>
      rw [hstep, write_based hin, ih, List.filter_cons_of_pos hin, List.foldl_cons]

/-- **The mix is that of the packets that are included.** -/
theorem output_eq (packets : List PcmPacket) :
    output users packets = mixedOf (packets.filter (included users)) := by
  induction packets with
  | nil => rfl
  | cons p packets ih =>
    have hstep : output users (p :: packets) =
        ((({ users } : MixedWaveSink).write p).2.run packets).mix := rfl
    cases hin : included users p with
    | false =>
      rw [hstep, write_of_not_included _ hin, List.filter_cons_of_neg (by simp [hin])]
      exact ih
    | true =>
      rw [hstep, write_first hin, run_based, List.filter_cons_of_pos hin]
      rfl

end Run

theorem le_length_mixedWith (base : UInt32) (mix : Bytes) (packet : PcmPacket) :
    mix.length ≤ (mixedWith base mix packet).length := by
  unfold mixedWith
  split
  · exact Nat.le_refl _
  · split
    · exact Nat.le_refl _
    · exact (le_length_mixInto ..).1

theorem le_length_foldl (base : UInt32) (packets : List PcmPacket) (mix : Bytes) :
    mix.length ≤ (packets.foldl (mixedWith base) mix).length := by
  induction packets generalizing mix with
  | nil => exact Nat.le_refl _
  | cons p packets ih => exact Nat.le_trans (le_length_mixedWith base mix p) (ih _)

/-! ## Shifts -/

/-- The constant for the SSRC of a packet is that of the first one, or the packet is out of range
behind the first one with and without the constants. -/
def Aligned (c : UInt32 → UInt32) (first packet : PcmPacket) : Prop :=
  c packet.ssrc = c first.ssrc ∨
    rtpTimestampDelta packet.timestamp first.timestamp = none ∧
      rtpTimestampDelta (shift c packet).timestamp (shift c first).timestamp = none

section Shift

variable {c : UInt32 → UInt32} {first packet : PcmPacket}

/-- A packet that is aligned is mixed to the same place. -/
theorem mixedWith_shift (h : packet.payload ≠ [] → Aligned c first packet) (mix : Bytes) :
    mixedWith (shift c first).timestamp mix (shift c packet) =
      mixedWith first.timestamp mix packet := by
  by_cases hpayload : packet.payload = []
  · have hnothing (base timestamp : UInt32) :
        mixedWith base mix { packet with timestamp } = mix := by
      unfold mixedWith
      split
      · rfl
      · rw [if_pos (by simp [hpayload])]
    exact (hnothing _ _).trans (hnothing _ _).symm
  · rcases h hpayload with hsame | ⟨hout, hout'⟩
    · have hdelta : (shift c packet).timestamp - (shift c first).timestamp =
          packet.timestamp - first.timestamp := by
        simp only [shift, hsame]
        exact add_sub_add_right_eq_sub _ _ _
      simp only [mixedWith, rtpTimestampDelta, hdelta]
      rfl
    · simp only [mixedWith, hout, hout']

/-- **Aligned packets have the same mix** with and without the constants. -/
theorem mixedOf_shift {packets : List PcmPacket}
    (h : ∀ first ∈ packets.head?, ∀ p ∈ packets, p.payload ≠ [] → Aligned c first p) :
    mixedOf (packets.map (shift c)) = mixedOf packets := by
  cases packets with
  | nil => rfl
  | cons first rest =>
    have hfold : ∀ (l : List PcmPacket) (mix : Bytes),
        (∀ p ∈ l, p.payload ≠ [] → Aligned c first p) →
        (l.map (shift c)).foldl (mixedWith (shift c first).timestamp) mix =
          l.foldl (mixedWith first.timestamp) mix := by
      intro l
      induction l with
      | nil => exact fun mix _ => rfl
      | cons p l ih =>
        intro mix hl
        rw [List.map_cons, List.foldl_cons, List.foldl_cons, mixedWith_shift (hl p (by simp))]
        exact ih _ fun q hq => hl q (by simp [hq])
    exact hfold (first :: rest) [] (h first rfl)

theorem filter_included_shift (users : Option (List ℕ)) (packets : List PcmPacket) :
    (packets.map (shift c)).filter (included users) =
      (packets.filter (included users)).map (shift c) := by
  rw [List.filter_map]
  rfl

/-- The constant that puts a packet at the end of the range behind the first one. -/
theorem rtpTimestampDelta_farthest (t base : UInt32) :
    rtpTimestampDelta (t + (base + (2 ^ 31 - 1) - t)) base = some (2 ^ 31 - 1) := by
  have hdelta : t + (base + (2 ^ 31 - 1) - t) - base = 2 ^ 31 - 1 := by
    rw [add_sub_cancel, add_sub_cancel_left]
  rw [rtpTimestampDelta, hdelta]
  decide

/-- **A packet of another SSRC** moves to the end of the range with its constant. -/
theorem length_mixedOf_shift {rest : List PcmPacket} (hmem : packet ∈ first :: rest)
    (hssrc : packet.ssrc ≠ first.ssrc) (hpayload : packet.payload ≠ []) :
    4 * (2 ^ 31 - 1) < (mixedOf ((first :: rest).map (shift (Function.update (fun _ => 0)
      packet.ssrc (first.timestamp + (2 ^ 31 - 1) - packet.timestamp))))).length := by
  set c := Function.update (fun _ => (0 : UInt32)) packet.ssrc
    (first.timestamp + (2 ^ 31 - 1) - packet.timestamp) with hc
  have hfirst : (shift c first).timestamp = first.timestamp := by
    simp [shift, hc, Function.update_of_ne hssrc.symm]
  have hpacket : (shift c packet).timestamp =
      packet.timestamp + (first.timestamp + (2 ^ 31 - 1) - packet.timestamp) := by
    simp [shift, hc]
  obtain ⟨before, behind, heq⟩ := List.append_of_mem hmem
  have hmix : mixedOf ((first :: rest).map (shift c)) =
      ((first :: rest).map (shift c)).foldl (mixedWith (shift c first).timestamp) [] := rfl
  rw [hmix, heq, hfirst, List.map_append, List.map_cons, List.foldl_append, List.foldl_cons]
  refine Nat.lt_of_lt_of_le ?_ (le_length_foldl _ _ _)
  have hpos := List.length_pos_iff.2 hpayload
  rw [mixedWith, hpacket, rtpTimestampDelta_farthest]
  dsimp only
  rw [if_neg (by simpa [shift] using hpayload)]
  have hlength := (le_length_mixInto ((before.map (shift c)).foldl (mixedWith first.timestamp) [])
    ((2 ^ 31 - 1) * CHANNELS * SAMPLE_WIDTH) (shift c packet).payload).2
  have hpayloadLength : (shift c packet).payload.length = packet.payload.length := rfl
  rw [hpayloadLength] at hlength
  simp only [CHANNELS, SAMPLE_WIDTH] at hlength ⊢
  omega

end Shift

/-- **Offsets of RTP timestamps.** Constants for the SSRCs leave the mix of a run alone if every
packet that is included and has samples is aligned with the first one that is included. All
constants leave it alone, for a mix below the length of the timestamp range, if and only if all of
these packets are of the SSRC of the first one. -/
theorem mixed_offset_iff (users : Option (List ℕ)) (packets : List PcmPacket) :
    let counted := packets.filter (included users)
    (∀ c, (∀ first ∈ counted.head?, ∀ p ∈ counted, p.payload ≠ [] → Aligned c first p) →
      output users (packets.map (shift c)) = output users packets) ∧
    ((output users packets).length ≤ 4 * (2 ^ 31 - 1) →
      ((∀ c, output users (packets.map (shift c)) = output users packets) ↔
        ∀ first ∈ counted.head?, ∀ p ∈ counted, p.payload ≠ [] → p.ssrc = first.ssrc)) := by
  intro counted
  have haligned : ∀ c,
      (∀ first ∈ counted.head?, ∀ p ∈ counted, p.payload ≠ [] → Aligned c first p) →
      output users (packets.map (shift c)) = output users packets := by
    intro c h
    rw [output_eq, output_eq, filter_included_shift]
    exact mixedOf_shift h
  refine ⟨haligned, fun hlength => ⟨fun hall first hfirst p hp hpayload => ?_, fun hone c => ?_⟩⟩
  · by_contra hssrc
    obtain ⟨rest, hcounted⟩ : ∃ rest, counted = first :: rest := by
      cases hcases : counted with
      | nil => rw [hcases] at hfirst; cases hfirst
      | cons q rest =>
        rw [hcases] at hfirst
        obtain rfl := Option.some.inj hfirst
        exact ⟨rest, rfl⟩
    have hmoved := length_mixedOf_shift (hcounted ▸ hp) hssrc hpayload
    rw [← hcounted, ← filter_included_shift, ← output_eq, hall] at hmoved
    exact absurd hmoved (Nat.not_lt.2 hlength)
  · exact haligned c fun first hfirst p hp hpayload =>
      .inl (congrArg c (hone first hfirst p hp hpayload))

/-- A sample pair on each of two SSRCs. -/
def twoSources : List PcmPacket :=
  [⟨1, none, 100, [1, 0, 1, 0]⟩, ⟨2, none, 100, [2, 0, 2, 0]⟩]

theorem mixed_offset_iff_twoSources :
    output none (twoSources.map (shift fun _ => 5)) = output none twoSources ∧
      ¬∀ c, output none (twoSources.map (shift c)) = output none twoSources := by
  obtain ⟨haligned, hone⟩ := mixed_offset_iff none twoSources
  have hlength : (output none twoSources).length ≤ 4 * (2 ^ 31 - 1) := by
    rw [show output none twoSources = [3, 0, 3, 0] by decide]
    exact Nat.le_of_ble_eq_true rfl
  refine ⟨haligned _ fun _ _ _ _ _ => .inl rfl, fun hall => ?_⟩
  have hsame := (hone hlength).1 hall ⟨1, none, 100, [1, 0, 1, 0]⟩ rfl ⟨2, none, 100, [2, 0, 2, 0]⟩
    (by decide) (by decide)
  exact absurd hsame (by decide)

/-- **The mix depends on the offsets.** -/
theorem not_offsetIndependent : ¬∀ (users : Option (List ℕ)) (packets : List PcmPacket)
    (c : UInt32 → UInt32), output users (packets.map (shift c)) = output users packets := by
  intro h
  have hshift := h none twoSources fun ssrc => if ssrc = 2 then 1 else 0
  exact absurd hshift (by decide)

end NativeVoice.Media
