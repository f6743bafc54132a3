import Mathlib.Data.List.GetD
import NativeVoice.Lib.Saturation
import NativeVoice.Media.MixedWaveSink

/-!
# The samples of mixed recordings

`MixedWaveSink` adds every packet to the mix at once, in 16 bits with saturation, while `pcm16_mix`
of `src/src/audio/pcm.rs` adds all chunks in 32 bits and clamps the sums. Both agree with the
clamped sums of all samples, as long as no sample turns a sum back that does not fit.

* `sampleAt_mixedOf`: a sample of the mix is the sum with saturation of what the packets have there.
* `pcm16Mix_eq`: the samples of `pcm16_mix`.
* `mixesExactly_iff`: the mix is exact in every order of the packets behind the first one, if and
  only if the samples of one sign at a position do not get beyond the range, or have no others
  there.
* `not_mixesExactly`: two loud samples and one of the other sign are enough.
-/

namespace NativeVoice.Media

open Lib

/-! ## Samples in bytes -/

/-- The sample at a position, which is silent behind the end. -/
def sampleAt (pcm : Bytes) (k : ℕ) : ℤ := i16FromLe (pcm.getD (2 * k) 0) (pcm.getD (2 * k + 1) 0)

/-- `clamp_i16`. -/
def clampI16 (value : ℤ) : ℤ := Saturation.clamp (-2 ^ 15) (2 ^ 15 - 1) value

theorem i16FromLe_bounds (lo hi : UInt8) :
    -2 ^ 15 ≤ i16FromLe lo hi ∧ i16FromLe lo hi ≤ 2 ^ 15 - 1 := by
  have hle := BitVec.le_toInt (u16FromBe hi lo).toBitVec
  have hlt := BitVec.toInt_lt (x := (u16FromBe hi lo).toBitVec)
  rw [i16FromLe]
  omega

theorem sampleAt_bounds (pcm : Bytes) (k : ℕ) :
    -2 ^ 15 ≤ sampleAt pcm k ∧ sampleAt pcm k ≤ 2 ^ 15 - 1 := i16FromLe_bounds ..

theorem i16FromLe_i16LeBytes {x : ℤ} (h : -2 ^ 15 ≤ x ∧ x ≤ 2 ^ 15 - 1) :
    ∃ lo hi, i16LeBytes x = [lo, hi] ∧ i16FromLe lo hi = x := by
  refine ⟨_, _, rfl, ?_⟩
  rw [i16FromLe, u16FromBe_u16BeBytes]
  have hnat : ((UInt16.ofInt x).toBitVec.toNat : ℤ) = x % 2 ^ 16 := by
    rw [UInt16.toNat_toBitVec, UInt16.ofInt, UInt16.toNat_ofNat']
    omega
  rw [BitVec.toInt_eq_toNat_bmod, hnat]
  simp only [Int.bmod]
  omega

theorem i16FromLe_inj {lo hi lo' hi' : UInt8} (h : i16FromLe lo hi = i16FromLe lo' hi') :
    lo = lo' ∧ hi = hi' := by
  have hbits := UInt16.toBitVec_inj.1 (BitVec.toInt_inj.1 h)
  have hbytes (hi lo : UInt8) :
      (u16FromBe hi lo >>> 8).toUInt8 = hi ∧ (u16FromBe hi lo).toUInt8 = lo := by
    constructor
    · apply UInt8.toBitVec_inj.1
      apply BitVec.eq_of_getLsbD_eq
      intro i hi'
      simp only [u16FromBe, UInt16.toBitVec_or, UInt16.toBitVec_shiftLeft, UInt8.toBitVec_toUInt16,
        UInt16.toBitVec_toUInt8, UInt16.toBitVec_shiftRight]
      simp
      grind
    · apply UInt8.toBitVec_inj.1
      apply BitVec.eq_of_getLsbD_eq
      intro i hi'
      simp only [u16FromBe, UInt16.toBitVec_or, UInt16.toBitVec_shiftLeft, UInt8.toBitVec_toUInt16,
        UInt16.toBitVec_toUInt8]
      simp
  exact ⟨by rw [← (hbytes hi lo).2, hbits, (hbytes hi' lo').2],
    by rw [← (hbytes hi lo).1, hbits, (hbytes hi' lo').1]⟩

theorem sampleAt_of_le {pcm : Bytes} {k : ℕ} (h : pcm.length ≤ 2 * k) : sampleAt pcm k = 0 := by
  rw [sampleAt, List.getD_eq_default _ _ h, List.getD_eq_default _ _ (by omega)]
  rfl

/-- Bytes are equal if they are as long and all samples are equal. -/
theorem eq_of_sampleAt {pcm pcm' : Bytes} (hlen : pcm.length = pcm'.length)
    (h : ∀ k, sampleAt pcm k = sampleAt pcm' k) : pcm = pcm' := by
  refine List.ext_getElem hlen fun j hj hj' => ?_
  obtain ⟨hlo, hhi⟩ := i16FromLe_inj (h (j / 2))
  rw [← List.getD_eq_getElem _ 0 hj, ← List.getD_eq_getElem _ 0 hj']
  rcases Nat.mod_two_eq_zero_or_one j with heven | hodd
  · rwa [show 2 * (j / 2) = j by omega] at hlo
  · rwa [show 2 * (j / 2) + 1 = j by omega] at hhi

/-- Adding nothing leaves a sample alone. -/
theorem saturatingAdd_zero (pcm : Bytes) (k : ℕ) :
    saturatingAdd (sampleAt pcm k) 0 = sampleAt pcm k := by
  have hbounds := sampleAt_bounds pcm k
  rw [saturatingAdd]
  omega

theorem saturatingAdd_bounds (x y : ℤ) :
    -2 ^ 15 ≤ saturatingAdd x y ∧ saturatingAdd x y ≤ 2 ^ 15 - 1 := by
  rw [saturatingAdd]
  omega

/-! ## One packet -/

theorem sampleAt_addSamples : ∀ {left right : Bytes}, left.length % 2 = 0 →
    left.length = right.length → ∀ k,
      sampleAt (addSamples left right) k = saturatingAdd (sampleAt left k) (sampleAt right k)
  | [], right, _, hlen, k => by
    obtain rfl : right = [] := List.eq_nil_of_length_eq_zero hlen.symm
    have hsilent : sampleAt [] k = 0 := sampleAt_of_le (Nat.zero_le _)
    change sampleAt [] k = saturatingAdd (sampleAt [] k) (sampleAt [] k)
    rw [hsilent]
    rfl
  | [_], _, heven, _, _ => by simp at heven
  | l0 :: l1 :: left, [], _, hlen, _ => by simp at hlen
  | l0 :: l1 :: left, [_], _, hlen, _ => by simp at hlen
  | l0 :: l1 :: left, r0 :: r1 :: right, heven, hlen, k => by
    obtain ⟨lo, hi, hbytes, hsample⟩ := i16FromLe_i16LeBytes
      (saturatingAdd_bounds (i16FromLe l0 l1) (i16FromLe r0 r1))
    rw [addSamples, hbytes]
    cases k with
    | zero => exact hsample
    | succ k =>
      simp only [List.length_cons] at heven hlen
      exact sampleAt_addSamples (by omega) (by omega) k

theorem getD_extended (mix : Bytes) (n j : ℕ) :
    (mix ++ List.replicate n 0).getD j 0 = mix.getD j 0 := by
  rcases Nat.lt_or_ge j mix.length with hlt | hge
  · rw [List.getD_append _ _ _ _ hlt]
  · rw [List.getD_append_right _ _ _ _ hge, List.getD_eq_default _ _ hge]
    rcases Nat.lt_or_ge (j - mix.length) n with hlt | hge'
    · rw [List.getD_replicate _ hlt]
    · rw [List.getD_eq_default _ _ (by rw [List.length_replicate]; exact hge')]

theorem getD_slice {mix : Bytes} {start stop j : ℕ} (h : start + j < stop) :
    ((mix.take stop).drop start).getD j 0 = mix.getD (start + j) 0 := by
  simp only [List.getD_eq_getElem?_getD, List.getElem?_drop, List.getElem?_take, if_pos h]

/-- A part of the mix that is replaced by as many bytes. -/
theorem getD_replaced {mix mixed : Bytes} {start stop : ℕ} (hstart : start + mixed.length = stop)
    (hstop : stop ≤ mix.length) (j : ℕ) :
    (mix.take start ++ mixed ++ mix.drop stop).getD j 0 =
      if start ≤ j ∧ j < stop then mixed.getD (j - start) 0 else mix.getD j 0 := by
  have htake : (mix.take start).length = start := by
    rw [List.length_take]
    omega
  have hfront : (mix.take start ++ mixed).length = stop := by
    rw [List.length_append, htake, hstart]
  rcases Nat.lt_or_ge j stop with hlt | hge
  · rw [List.getD_append _ _ _ _ (by rw [hfront]; exact hlt)]
    rcases Nat.lt_or_ge j start with hbefore | hwithin
    · rw [List.getD_append _ _ _ _ (by rw [htake]; exact hbefore), if_neg (by omega)]
      simp only [List.getD_eq_getElem?_getD, List.getElem?_take, if_pos hbefore]
    · rw [List.getD_append_right _ _ _ _ (by rw [htake]; exact hwithin), htake,
        if_pos ⟨hwithin, hlt⟩]
  · rw [List.getD_append_right _ _ _ _ (by rw [hfront]; exact hge), hfront, if_neg (by omega)]
    simp only [List.getD_eq_getElem?_getD, List.getElem?_drop]
    rw [show stop + (j - stop) = j by omega]

/-- **A mix with samples added**: those of whole frames are added, each with saturation, and
anything else only extends the mix. -/
theorem sampleAt_mixInto (mix pcm : Bytes) (start k : ℕ) :
    sampleAt (mixInto mix (2 * start) pcm).2 k = saturatingAdd (sampleAt mix k)
      (if pcm.length % 2 ≠ 0 ∨ k < start then 0 else sampleAt pcm (k - start)) := by
  unfold mixInto
  dsimp only
  generalize hextended : mix ++ List.replicate (2 * start + pcm.length - mix.length) 0 = extended
  have hlength : 2 * start + pcm.length ≤ extended.length := by
    rw [← hextended, List.length_append, List.length_replicate]
    omega
  have hsame (k : ℕ) : sampleAt extended k = sampleAt mix k := by
    rw [sampleAt, sampleAt, ← hextended, getD_extended, getD_extended]
  have hslice : ((extended.take (2 * start + pcm.length)).drop (2 * start)).length =
      pcm.length := by
    rw [List.length_drop, List.length_take]
    omega
  unfold pcm16Add
  rw [hslice]
  by_cases heven : pcm.length % 2 = 0
  · rw [if_neg (not_not.2 heven), if_neg (not_not.2 heven), if_neg (not_not.2 rfl)]
    dsimp only
    have hmixed : (addSamples ((extended.take (2 * start + pcm.length)).drop (2 * start))
        pcm).length = pcm.length := by
      rw [length_addSamples (by rw [hslice]; exact heven) hslice, hslice]
    have hreplaced := @getD_replaced extended _ _ _ (by rw [hmixed]) hlength
    rw [sampleAt, hreplaced, hreplaced]
    by_cases hbefore : k < start
    · rw [if_neg (by omega), if_neg (by omega), if_pos (.inr hbefore), saturatingAdd_zero, ← hsame]
      rfl
    · rw [if_neg (by omega : ¬(pcm.length % 2 ≠ 0 ∨ k < start))]
      by_cases hwithin : 2 * k < 2 * start + pcm.length
      · rw [if_pos (by omega), if_pos (by omega)]
        have hadded := sampleAt_addSamples (by rw [hslice]; exact heven) hslice (k - start)
        have hpart : sampleAt ((extended.take (2 * start + pcm.length)).drop (2 * start))
            (k - start) = sampleAt mix k := by
          rw [sampleAt, getD_slice (by omega), getD_slice (by omega), ← hsame, sampleAt,
            show 2 * start + 2 * (k - start) = 2 * k by omega,
            show 2 * start + (2 * (k - start) + 1) = 2 * k + 1 by omega]
        rw [hpart] at hadded
        rw [← hadded, sampleAt, show 2 * k - 2 * start = 2 * (k - start) by omega,
          show 2 * k + 1 - 2 * start = 2 * (k - start) + 1 by omega]
      · have hsilent : sampleAt pcm (k - start) = 0 := sampleAt_of_le (by omega)
        rw [if_neg (by omega), if_neg (by omega), hsilent, saturatingAdd_zero, ← hsame]
        rfl
  · rw [if_pos heven]
    dsimp only
    rw [hsame, if_pos (.inl heven), saturatingAdd_zero]

/-- What a packet has for a position of the mix: nothing if it is left out or is not of whole
frames. -/
def sampleOf (base : UInt32) (k : ℕ) (packet : PcmPacket) : ℤ :=
  match rtpTimestampDelta packet.timestamp base with
  | none => 0
  | some delta =>
    if packet.payload.length % 2 ≠ 0 ∨ k < delta * CHANNELS then 0
    else sampleAt packet.payload (k - delta * CHANNELS)

theorem sampleOf_bounds (base : UInt32) (k : ℕ) (packet : PcmPacket) :
    -2 ^ 15 ≤ sampleOf base k packet ∧ sampleOf base k packet ≤ 2 ^ 15 - 1 := by
  unfold sampleOf
  split
  · omega
  · split
    · omega
    · exact sampleAt_bounds ..

theorem map_sampleOf_bounds (base : UInt32) (k : ℕ) (packets : List PcmPacket) :
    ∀ x ∈ packets.map (sampleOf base k), -2 ^ 15 ≤ x ∧ x ≤ 2 ^ 15 - 1 := by
  intro x hx
  obtain ⟨p, -, rfl⟩ := List.mem_map.1 hx
  exact sampleOf_bounds ..

theorem sampleAt_mixedWith (base : UInt32) (mix : Bytes) (packet : PcmPacket) (k : ℕ) :
    sampleAt (mixedWith base mix packet) k =
      saturatingAdd (sampleAt mix k) (sampleOf base k packet) := by
  unfold mixedWith sampleOf
  cases rtpTimestampDelta packet.timestamp base with
  | none => exact (saturatingAdd_zero mix k).symm
  | some delta =>
    dsimp only
    by_cases hempty : packet.payload = []
    · rw [if_pos (by rw [hempty]; rfl), hempty]
      have hsilent : (if ([] : Bytes).length % 2 ≠ 0 ∨ k < delta * CHANNELS then 0
          else sampleAt [] (k - delta * CHANNELS)) = (0 : ℤ) := by
        rw [ite_eq_left_iff]
        exact fun _ => sampleAt_of_le (Nat.zero_le _)
      rw [hsilent, saturatingAdd_zero]
    · rw [if_neg (by simpa using hempty),
        show delta * CHANNELS * SAMPLE_WIDTH = 2 * (delta * CHANNELS) from Nat.mul_comm _ 2,
        sampleAt_mixInto]

/-- Where the samples of a packet end, in bytes. -/
def endOf (base : UInt32) (packet : PcmPacket) : ℕ :=
  match rtpTimestampDelta packet.timestamp base with
  | none => 0
  | some delta =>
    if packet.payload.isEmpty then 0
    else delta * CHANNELS * SAMPLE_WIDTH + packet.payload.length

theorem length_mixedWith (base : UInt32) (mix : Bytes) (packet : PcmPacket) :
    (mixedWith base mix packet).length = max mix.length (endOf base packet) := by
  unfold mixedWith endOf
  cases rtpTimestampDelta packet.timestamp base with
  | none => exact (Nat.max_zero _).symm
  | some delta =>
    dsimp only
    split
    · exact (Nat.max_zero _).symm
    · unfold mixInto
      dsimp only
      generalize hextended : mix ++ List.replicate
        (delta * CHANNELS * SAMPLE_WIDTH + packet.payload.length - mix.length) 0 = extended
      have hlength : extended.length =
          max mix.length (delta * CHANNELS * SAMPLE_WIDTH + packet.payload.length) := by
        rw [← hextended, List.length_append, List.length_replicate]
        omega
      cases hadd : pcm16Add ((extended.take (delta * CHANNELS * SAMPLE_WIDTH +
          packet.payload.length)).drop (delta * CHANNELS * SAMPLE_WIDTH)) packet.payload with
      | error e => exact hlength
      | ok mixed =>
        have hmixed := length_pcm16Add hadd
        simp only [List.length_append, List.length_take, List.length_drop]
        omega

/-! ## Runs -/

theorem sampleAt_foldl (base : UInt32) (packets : List PcmPacket) (mix : Bytes) (k : ℕ) :
    sampleAt (packets.foldl (mixedWith base) mix) k =
      (packets.map (sampleOf base k)).foldl saturatingAdd (sampleAt mix k) := by
  induction packets generalizing mix with
  | nil => rfl
  | cons p packets ih =>
    rw [List.foldl_cons, ih, sampleAt_mixedWith, List.map_cons, List.foldl_cons]

/-- **A sample of the mix** is the sum with saturation of what the packets have there. -/
theorem sampleAt_mixedOf (first : PcmPacket) (rest : List PcmPacket) (k : ℕ) :
    sampleAt (mixedOf (first :: rest)) k = Saturation.sum (-2 ^ 15) (2 ^ 15 - 1)
      ((first :: rest).map (sampleOf first.timestamp k)) := by
  have hsilent : sampleAt [] k = 0 := sampleAt_of_le (Nat.zero_le _)
  rw [mixedOf, sampleAt_foldl, hsilent]
  rfl

theorem length_foldl (base : UInt32) (packets : List PcmPacket) (mix : Bytes) :
    (packets.foldl (mixedWith base) mix).length =
      (packets.map (endOf base)).foldl max mix.length := by
  induction packets generalizing mix with
  | nil => rfl
  | cons p packets ih =>
    rw [List.foldl_cons, ih, length_mixedWith, List.map_cons, List.foldl_cons]

/-- The exact sum of what is placed at a position. -/
def placed : List PcmPacket → ℕ → ℤ
  | [], _ => 0
  | first :: rest, k => ((first :: rest).map (sampleOf first.timestamp k)).sum

/-- Every sample of the mix is the exact sum, clamped. -/
def Exact (packets : List PcmPacket) : Prop :=
  ∀ k, sampleAt (mixedOf packets) k = clampI16 (placed packets k)

theorem exact_nil : Exact [] := fun _ => sampleAt_of_le (Nat.zero_le _)

/-- No sample of a packet turns back the sum of those before it. -/
def NeverTurns (first : PcmPacket) (rest : List PcmPacket) : Prop :=
  ∀ k pre p post, rest = pre ++ p :: post → ¬Saturation.Turns (-2 ^ 15) (2 ^ 15 - 1)
    (sampleOf first.timestamp k first + (pre.map (sampleOf first.timestamp k)).sum)
    (sampleOf first.timestamp k p)

/-- The terms of a run at a position turn back, where the packets do. -/
theorem not_turns_map {first : PcmPacket} {rest : List PcmPacket} (h : NeverTurns first rest)
    (k : ℕ) : ∀ pre x post, (first :: rest).map (sampleOf first.timestamp k) = pre ++ x :: post →
      ¬Saturation.Turns (-2 ^ 15) (2 ^ 15 - 1) pre.sum x := by
  intro pre x post heq
  cases pre with
  | nil =>
    rw [List.sum_nil, Saturation.Turns]
    omega
  | cons y pre =>
    obtain ⟨rfl, hrest⟩ := List.cons.inj heq
    obtain ⟨pre', post', rfl, rfl, hpost⟩ := List.map_eq_append_iff.1 hrest
    obtain ⟨p, post'', rfl, rfl, -⟩ := List.map_eq_cons_iff.1 hpost
    rw [List.sum_cons]
    exact h k pre' p post'' rfl

/-- **The mix is exact all along** a run, if and only if no sample turns a sum back. -/
theorem exact_prefixes_iff (first : PcmPacket) (rest : List PcmPacket) :
    (∀ pre post, rest = pre ++ post → Exact (first :: pre)) ↔ NeverTurns first rest := by
  constructor
  · intro h k pre p post heq
    have hbefore := h pre (p :: post) heq k
    have hafter := h (pre ++ [p]) post (by rw [heq, List.append_assoc]; rfl) k
    have hmap : (first :: (pre ++ [p])).map (sampleOf first.timestamp k) =
        (first :: pre).map (sampleOf first.timestamp k) ++ [sampleOf first.timestamp k p] := by
      rw [← List.cons_append, List.map_append, List.map_singleton]
    rw [sampleAt_mixedOf] at hbefore
    rw [sampleAt_mixedOf, placed, hmap, Saturation.sum_concat, hbefore, List.sum_append,
      List.sum_singleton] at hafter
    exact (Saturation.add_clamp_eq_iff (by omega) (by omega) (sampleOf_bounds ..)).1 hafter
  · intro h pre post heq k
    have hall := (Saturation.sum_eq_clamp_iff (by omega) (by omega) (map_sampleOf_bounds _ k _)).2
      (not_turns_map h k) ((first :: pre).map (sampleOf first.timestamp k))
      (post.map (sampleOf first.timestamp k)) (by rw [heq]; simp)
    rw [sampleAt_mixedOf, hall]
    rfl

/-! ## `pcm16_mix` -/

/-- `i32::saturating_add`. -/
def i32SaturatingAdd (x y : ℤ) : ℤ := max (-2 ^ 31) (min (2 ^ 31 - 1) (x + y))

/-- The loop of `pcm16_mix` over the samples of a chunk. -/
def mixChunk : List ℤ → Bytes → List ℤ
  | mixed :: rest, lo :: hi :: chunk =>
    i32SaturatingAdd mixed (i16FromLe lo hi) :: mixChunk rest chunk
  | rest, _ => rest

/-- `pcm16_mix` of `src/src/audio/pcm.rs`. -/
def pcm16Mix : List Bytes → Except AudioError Bytes
  | [] => .ok []
  | chunks =>
    let maxLen := (chunks.map List.length).foldl max 0
    if maxLen % 2 ≠ 0 then .error .notWholeFrame
    else if chunks.any fun chunk => chunk.length % 2 ≠ 0 then .error .notWholeFrame
    else
      let mixed := chunks.foldl mixChunk (List.replicate (maxLen / 2) 0)
      .ok (mixed.flatMap fun sample => i16LeBytes (clampI16 sample))

theorem getElem?_mixChunk : ∀ {mixed : List ℤ} {chunk : Bytes}, chunk.length % 2 = 0 →
    (∀ m ∈ mixed, -2 ^ 31 ≤ m ∧ m ≤ 2 ^ 31 - 1) → ∀ k,
      (mixChunk mixed chunk)[k]? = mixed[k]?.map fun m => i32SaturatingAdd m (sampleAt chunk k)
  | [], _, _, _, k => by simp [mixChunk]
  | m :: rest, [], _, hrange, k => by
    have hsilent : sampleAt [] k = 0 := sampleAt_of_le (Nat.zero_le _)
    rw [mixChunk, hsilent]
    cases hget : (m :: rest)[k]? with
    | none => rfl
    | some x =>
      have hx := hrange x (List.mem_of_getElem? hget)
      rw [Option.map_some, i32SaturatingAdd, add_zero, min_eq_right hx.2, max_eq_right hx.1]
    · simp
  | _ :: _, [_], heven, _, _ => by simp at heven
  | m :: rest, lo :: hi :: chunk, heven, hrange, k => by
    rw [mixChunk]
    cases k with
    | zero => rfl
    | succ k =>
      simp only [List.length_cons] at heven
      exact getElem?_mixChunk (by omega) (fun m hm => hrange m (List.mem_cons_of_mem _ hm)) k

/-- The sums that `pcm16_mix` computes. -/
theorem foldl_mixChunk {chunks : List Bytes} (heven : ∀ chunk ∈ chunks, chunk.length % 2 = 0)
    (n : ℕ) : chunks.foldl mixChunk (List.replicate n 0) = (List.range n).map fun k =>
      Saturation.sum (-2 ^ 31) (2 ^ 31 - 1) (chunks.map (sampleAt · k)) := by
  induction chunks using List.reverseRecOn with
  | nil =>
    have hconst : (List.range n).map (fun _ => (0 : ℤ)) =
        List.replicate (List.range n).length 0 := List.map_const' ..
    rw [List.length_range] at hconst
    exact hconst.symm
  | append_singleton chunks chunk ih =>
    rw [List.foldl_append, ih fun c hc => heven c (List.mem_append_left _ hc)]
    refine List.ext_getElem? fun k => ?_
    rw [List.foldl_cons, List.foldl_nil, getElem?_mixChunk (heven chunk (by simp)),
      List.getElem?_map, List.getElem?_map, Option.map_map]
    · cases hk : (List.range n)[k]? with
      | none => rfl
      | some k' =>
        obtain ⟨hlt, rfl⟩ := List.getElem?_eq_some_iff.1 hk
        rw [List.getElem_range, Option.map_some, Option.map_some, List.map_append,
          List.map_singleton, Saturation.sum_concat]
        rfl
    · intro m hm
      obtain ⟨k, -, rfl⟩ := List.mem_map.1 hm
      exact Saturation.sum_bounds (by omega) (by omega) _

theorem sampleAt_flatMap (xs : List ℤ) (k : ℕ) :
    sampleAt (xs.flatMap fun x => i16LeBytes (clampI16 x)) k = clampI16 (xs.getD k 0) := by
  induction xs generalizing k with
  | nil => exact sampleAt_of_le (Nat.zero_le _)
  | cons x xs ih =>
    obtain ⟨lo, hi, hbytes, hsample⟩ := i16FromLe_i16LeBytes (x := clampI16 x)
      (by rw [clampI16, Saturation.clamp]; omega)
    rw [List.flatMap_cons, hbytes]
    cases k with
    | zero => exact hsample
    | succ k => exact ih k

theorem length_flatMap (xs : List ℤ) :
    (xs.flatMap fun x => i16LeBytes (clampI16 x)).length = 2 * xs.length := by
  induction xs with
  | nil => rfl
  | cons x xs ih =>
    rw [List.flatMap_cons, List.length_append, ih, List.length_cons, i16LeBytes, u16BeBytes,
      List.length_reverse, List.length_cons, List.length_singleton]
    omega

/-- The greatest of some lengths. -/
theorem foldl_max (lens : List ℕ) : (∀ n ∈ lens, n ≤ lens.foldl max 0) ∧
    (lens.foldl max 0 = 0 ∨ lens.foldl max 0 ∈ lens) := by
  induction lens using List.reverseRecOn with
  | nil => exact ⟨fun _ h => absurd h List.not_mem_nil, .inl rfl⟩
  | append_singleton lens n ih =>
    rw [List.foldl_append, List.foldl_cons, List.foldl_nil]
    constructor
    · intro m hm
      rcases List.mem_append.1 hm with hm | hm
      · exact Nat.le_trans (ih.1 m hm) (Nat.le_max_left _ _)
      · rw [List.mem_singleton.1 hm]
        exact Nat.le_max_right _ _
    · rcases Nat.le_total n (lens.foldl max 0) with hle | hle
      · rw [Nat.max_eq_left hle]
        exact ih.2.imp_right fun hmem => List.mem_append_left _ hmem
      · rw [Nat.max_eq_right hle]
        exact .inr (List.mem_append_right _ (List.mem_singleton_self n))

/-- **What `pcm16_mix` returns** for chunks of whole frames: the sums of their samples, clamped. -/
theorem pcm16Mix_eq {chunks : List Bytes} (heven : ∀ chunk ∈ chunks, chunk.length % 2 = 0) :
    ∃ mixed, pcm16Mix chunks = .ok mixed ∧
      mixed.length = (chunks.map List.length).foldl max 0 ∧
      ∀ k, sampleAt mixed k =
        clampI16 (Saturation.sum (-2 ^ 31) (2 ^ 31 - 1) (chunks.map (sampleAt · k))) := by
  cases chunks with
  | nil => exact ⟨[], rfl, rfl, fun k => sampleAt_of_le (Nat.zero_le _)⟩
  | cons chunk chunks =>
    obtain ⟨hle, hmem⟩ := foldl_max ((chunk :: chunks).map List.length)
    unfold pcm16Mix
    dsimp only
    generalize hmax : ((chunk :: chunks).map List.length).foldl max 0 = maxLen at hle hmem ⊢
    have hmaxEven : maxLen % 2 = 0 := by
      rcases hmem with hzero | hmem
      · rw [hzero]
      · obtain ⟨c, hc, rfl⟩ := List.mem_map.1 hmem
        exact heven c hc
    rw [if_neg (not_not.2 hmaxEven), if_neg (by simpa using heven), foldl_mixChunk heven]
    refine ⟨_, rfl, ?_, fun k => ?_⟩
    · rw [length_flatMap, List.length_map, List.length_range]
      omega
    · rw [sampleAt_flatMap]
      congr 1
      rcases Nat.lt_or_ge k (maxLen / 2) with hlt | hge
      · rw [List.getD_eq_getElem _ _ (by simpa using hlt), List.getElem_map, List.getElem_range]
      · have hsilent : (chunk :: chunks).map (sampleAt · k) =
            List.replicate (chunk :: chunks).length 0 := by
          rw [List.eq_replicate_iff]
          refine ⟨List.length_map .., fun x hx => ?_⟩
          obtain ⟨c, hc, rfl⟩ := List.mem_map.1 hx
          have hlen := hle _ (List.mem_map_of_mem hc)
          exact sampleAt_of_le (by omega)
        rw [List.getD_eq_default _ _ (by simpa using hge), hsilent]
        generalize (chunk :: chunks).length = n
        induction n with
        | zero => rfl
        | succ n ih =>
          rw [List.replicate_succ', Saturation.sum_concat, ← ih]
          rfl

/-! ## All orders -/

/-- The same packets in an order in which the first one that is included is still the first. -/
def Reordered (users : Option (List ℕ)) (packets packets' : List PcmPacket) : Prop :=
  packets.Perm packets' ∧
    (packets.filter (included users)).head? = (packets'.filter (included users)).head?

/-- Packets are mixed exactly: all along every run of them, every sample of the mix is the exact sum
of what is placed there, clamped to 16 bits; all orders of the packets behind the first one give the
same mix; and packets at one position are mixed as `pcm16_mix` mixes them. -/
structure MixesExactly (users : Option (List ℕ)) (packets : List PcmPacket) : Prop where
  exact : ∀ packets', Reordered users packets packets' → ∀ n k,
    sampleAt (output users (packets'.take n)) k =
      clampI16 (placed ((packets'.take n).filter (included users)) k)
  order : ∀ packets', Reordered users packets packets' →
    output users packets' = output users packets
  mix : ∀ timestamp, (∀ p ∈ packets.filter (included users),
      p.timestamp = timestamp ∧ p.payload.length % 2 = 0) →
    pcm16Mix ((packets.filter (included users)).map PcmPacket.payload) = .ok (output users packets)

/-- At every position the samples of one sign, behind the first packet, do not lead beyond the
range, or there are no others. -/
def LoudOneWay : List PcmPacket → Prop
  | [] => True
  | first :: rest => ∀ k, Saturation.OneWay (-2 ^ 15) (2 ^ 15 - 1)
    (sampleOf first.timestamp k) (sampleOf first.timestamp k first) rest

theorem loudOneWay_iff (first : PcmPacket) (rest : List PcmPacket) :
    LoudOneWay (first :: rest) ↔ ∀ rest', rest.Perm rest' → NeverTurns first rest' := by
  have hposition := fun k => Saturation.forall_perm_not_turns_iff (-2 ^ 15) (2 ^ 15 - 1)
    (sampleOf first.timestamp k) (sampleOf first.timestamp k first) rest
  constructor
  · exact fun h rest' hperm k => (hposition k).2 (h k) rest' hperm
  · exact fun h k => (hposition k).1 fun rest' hperm => h rest' hperm k

section Orders

variable {users : Option (List ℕ)} {packets packets' : List PcmPacket} {first : PcmPacket}
  {rest : List PcmPacket}

/-- The packets that count in another order. -/
theorem Reordered.filter (h : Reordered users packets packets')
    (hcounted : packets.filter (included users) = first :: rest) :
    ∃ rest', packets'.filter (included users) = first :: rest' ∧ rest.Perm rest' := by
  obtain ⟨hperm, hhead⟩ := h
  have hfilter := hperm.filter (included users)
  rw [hcounted] at hfilter hhead
  cases hcounted' : packets'.filter (included users) with
  | nil =>
    rw [hcounted'] at hhead
    cases hhead
  | cons first' rest' =>
    rw [hcounted'] at hfilter hhead
    obtain rfl := Option.some.inj hhead
    exact ⟨rest', rfl, hfilter.cons_inv⟩

/-- Any order of the packets that count behind the first one. -/
theorem exists_reordered (hcounted : packets.filter (included users) = first :: rest)
    {rest' : List PcmPacket} (hperm : rest.Perm rest') :
    ∃ out, (∀ p ∈ out, included users p = false) ∧
      Reordered users packets (out ++ first :: rest') := by
  have hsplit := List.filter_append_perm (included users) packets
  rw [hcounted] at hsplit
  have hin : ∀ p ∈ first :: rest', included users p = true := fun p hp => by
    have hmem : p ∈ packets.filter (included users) := by
      rw [hcounted]
      exact (hperm.cons first).mem_iff.2 hp
    exact (List.mem_filter.1 hmem).2
  have hout : ∀ p ∈ packets.filter fun p => !included users p, included users p = false :=
    fun p hp => by simpa using (List.mem_filter.1 hp).2
  refine ⟨packets.filter fun p => !included users p, hout, ?_, ?_⟩
  · exact hsplit.symm.trans (List.perm_append_comm.trans ((hperm.cons first).append_left _))
  · rw [hcounted, List.filter_append, List.filter_eq_self.2 hin,
      List.filter_eq_nil_iff.2 fun p hp => by simp [hout p hp]]
    rfl

/-- Packets that never turn a sum back give the same mix in every order. -/
theorem mixedOf_perm {rest' : List PcmPacket} (hperm : rest.Perm rest')
    (h : NeverTurns first rest) (h' : NeverTurns first rest') :
    mixedOf (first :: rest') = mixedOf (first :: rest) := by
  have hexact := (exact_prefixes_iff first rest).2 h rest [] (List.append_nil _).symm
  have hexact' := (exact_prefixes_iff first rest').2 h' rest' [] (List.append_nil _).symm
  refine eq_of_sampleAt ?_ fun k => ?_
  · rw [mixedOf, mixedOf, length_foldl, length_foldl]
    exact (((hperm.symm.cons first).map _).foldl_eq _)
  · rw [hexact k, hexact' k, placed, placed, ((hperm.cons first).map _).sum_eq]

/-- Packets at one position that never turn a sum back are mixed as chunks. -/
theorem pcm16Mix_payloads (h : NeverTurns first rest)
    (hposition : ∀ p ∈ first :: rest,
      p.timestamp = first.timestamp ∧ p.payload.length % 2 = 0) :
    pcm16Mix ((first :: rest).map PcmPacket.payload) = .ok (mixedOf (first :: rest)) := by
  have hzero : rtpTimestampDelta first.timestamp first.timestamp = some 0 := by
    simp [rtpTimestampDelta, RTP_TIMESTAMP_HALF_RANGE]
  have hsamples (k : ℕ) : (first :: rest).map (sampleOf first.timestamp k) =
      ((first :: rest).map PcmPacket.payload).map (sampleAt · k) := by
    rw [List.map_map]
    refine List.map_congr_left fun p hp => ?_
    obtain ⟨htimestamp, heven⟩ := hposition p hp
    rw [sampleOf, htimestamp, hzero]
    dsimp only
    rw [Nat.zero_mul, if_neg (by omega), Nat.sub_zero]
    rfl
  have hends : (first :: rest).map (endOf first.timestamp) =
      ((first :: rest).map PcmPacket.payload).map List.length := by
    rw [List.map_map]
    refine List.map_congr_left fun p hp => ?_
    rw [endOf, (hposition p hp).1, hzero]
    dsimp only
    rw [Nat.zero_mul, Nat.zero_mul, Nat.zero_add]
    split
    · rename_i hempty
      rw [Function.comp_apply, List.isEmpty_iff.1 hempty, List.length_nil]
    · rfl
  have heven : ∀ chunk ∈ (first :: rest).map PcmPacket.payload, chunk.length % 2 = 0 := by
    intro chunk hchunk
    obtain ⟨p, hp, rfl⟩ := List.mem_map.1 hchunk
    exact (hposition p hp).2
  obtain ⟨mixed, hmixed, hlen, hsample⟩ := pcm16Mix_eq heven
  rw [hmixed]
  congr 1
  refine eq_of_sampleAt ?_ fun k => ?_
  · rw [hlen, mixedOf, length_foldl, hends]
    rfl
  · have hexact := (exact_prefixes_iff first rest).2 h rest [] (List.append_nil _).symm k
    rw [hsample, hexact, placed, ← hsamples]
    exact Saturation.clamp_sum_of_wider (by omega) (by omega) (by omega) (by omega)
      (map_sampleOf_bounds _ k _) (not_turns_map h k)

end Orders

/-- **Packets are mixed exactly**, in every order behind the first one, all along, and as chunks
where they are at one position, if and only if the samples of one sign at a position do not lead
beyond 16 bits, or there are no others there. -/
theorem mixesExactly_iff (users : Option (List ℕ)) (packets : List PcmPacket) :
    MixesExactly users packets ↔ LoudOneWay (packets.filter (included users)) := by
  cases hcounted : packets.filter (included users) with
  | nil =>
    have hnone (packets' : List PcmPacket) (hre : Reordered users packets packets') (n : ℕ) :
        (packets'.take n).filter (included users) = [] :=
      List.filter_eq_nil_iff.2 fun p hp => List.filter_eq_nil_iff.1 hcounted p
        (hre.1.mem_iff.2 (List.mem_of_mem_take hp))
    refine iff_of_true ⟨fun packets' hre n k => ?_, fun packets' hre => ?_, fun _ _ => ?_⟩ trivial
    · rw [output_eq, hnone packets' hre]
      exact exact_nil k
    · have hnone' := hnone packets' hre packets'.length
      rw [List.take_length] at hnone'
      rw [output_eq, output_eq, hcounted, hnone']
    · rw [hcounted, output_eq, hcounted]
      rfl
  | cons first rest =>
    rw [loudOneWay_iff]
    constructor
    · intro h rest' hperm
      obtain ⟨out, hout, hre⟩ := exists_reordered hcounted hperm
      refine (exact_prefixes_iff first rest').1 fun pre post heq k => ?_
      have htake : (out ++ first :: rest').take (out ++ first :: pre).length =
          out ++ first :: pre := by
        rw [heq, ← List.cons_append, ← List.append_assoc, List.take_left]
      have hfilter : (out ++ first :: pre).filter (included users) = first :: pre := by
        have hin : ∀ p ∈ first :: pre, included users p = true := fun p hp => by
          have hmem : p ∈ packets.filter (included users) := by
            rw [hcounted, (hperm.cons first).mem_iff, heq, ← List.cons_append]
            exact List.mem_append_left _ hp
          exact (List.mem_filter.1 hmem).2
        rw [List.filter_append, List.filter_eq_self.2 hin,
          List.filter_eq_nil_iff.2 fun p hp => by simp [hout p hp], List.nil_append]
      have hexact := h.exact _ hre (out ++ first :: pre).length k
      rwa [htake, output_eq, hfilter] at hexact
    · intro h
      refine ⟨fun packets' hre n k => ?_, fun packets' hre => ?_, fun timestamp hposition => ?_⟩
      · obtain ⟨rest', hcounted', hperm⟩ := hre.filter hcounted
        obtain ⟨post, hprefix⟩ := (List.take_prefix n packets').filter (included users)
        rw [hcounted'] at hprefix
        rw [output_eq]
        generalize (packets'.take n).filter (included users) = counted at hprefix ⊢
        cases counted with
        | nil => exact exact_nil k
        | cons q pre =>
          obtain ⟨rfl, hrest⟩ := List.cons.inj hprefix
          exact (exact_prefixes_iff q rest').2 (h rest' hperm) pre post hrest.symm k
      · obtain ⟨rest', hcounted', hperm⟩ := hre.filter hcounted
        rw [output_eq, output_eq, hcounted, hcounted']
        exact mixedOf_perm hperm (h rest (.refl _)) (h rest' hperm)
      · rw [hcounted] at hposition ⊢
        rw [output_eq, hcounted]
        obtain rfl := (hposition first List.mem_cons_self).1
        exact pcm16Mix_payloads (h rest (.refl _)) hposition

/-- A loud sample, a soft one and one of the other sign, at one position. -/
def loudPackets : List PcmPacket :=
  [⟨1, none, 0, [0xFF, 0x7F]⟩, ⟨2, none, 0, [1, 0]⟩, ⟨3, none, 0, [0xFF, 0xFF]⟩]

/-- The mix is one less than the sum of all samples, which fits into 16 bits. -/
theorem not_mixesExactly : ¬∀ (users : Option (List ℕ)) (packets : List PcmPacket),
    MixesExactly users packets := by
  intro h
  have hexact := (h none loudPackets).exact loudPackets ⟨.refl _, rfl⟩ 3 0
  exact absurd hexact (by decide)

end NativeVoice.Media
