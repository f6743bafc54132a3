import NativeVoice.Send.History

/-!
# Negative acknowledgements

`_send_rtcp_nack` of `src/discord/ext/native_voice/client.py`, which asks for packets in blocks of a
sequence number and a bit for each of the 16 after it, and what
`prepare_video_rtx_for_nack_inner` makes of such a request.

* `nackSequences_nackBlocks`: the blocks denote the numbers asked for, each of them once.
* `prepareResends_eq`: of these, the packets in the cache are prepared, in the order of the blocks.
* `nack_end_to_end`: both together, for a pipeline in any state that a run reaches.
-/

namespace NativeVoice.Send

open Lib Video Transport VideoSendPipelineState

/-! ## Asking -/

def RTCP_RTP_FEEDBACK : UInt8 := 205
def RTCP_GENERIC_NACK : UInt8 := 1

/-- `list(dict.fromkeys(sequence & 0xFFFF for sequence in sequences))`. -/
def pendingSequences (sequences : List ℤ) : List UInt16 := (sequences.map UInt16.ofInt).eraseDups

/-- Whether a sequence number is one of the 16 behind `pid`. -/
def near (pid sequence : UInt16) : Bool := 1 ≤ sequence - pid ∧ sequence - pid ≤ 16

/-- The pending sequence numbers that are not in the block of `pid`. -/
def remaining (pid : UInt16) (pending : List UInt16) : List UInt16 :=
  pending.filter fun sequence => !near pid sequence

/-- The loop of `_send_rtcp_nack` that puts the pending sequence numbers into blocks. -/
def nackBlocks : List UInt16 → List (UInt16 × UInt16)
  | [] => []
  | pid :: pending =>
    let blp := (pending.filter (near pid)).foldl
      (fun blp sequence => blp ||| 1 <<< (sequence - pid - 1)) 0
    (pid, blp) :: nackBlocks (remaining pid pending)
termination_by pending => pending.length
decreasing_by
  exact Nat.lt_succ_of_le (List.length_filter_le _ _)

/-- The media SSRC and the blocks behind it. -/
def nackBody (mediaSsrc : UInt32) (blocks : List (UInt16 × UInt16)) : Bytes :=
  u32BeBytes mediaSsrc ++ blocks.flatMap fun block => u16BeBytes block.1 ++ u16BeBytes block.2

/-- What `struct.pack` raises. -/
inductive StructError
  | outOfRange
  deriving DecidableEq

/-- `struct.pack('>H', x)`. -/
def packU16 (x : ℕ) : Except StructError Bytes :=
  if x < 2 ^ 16 then .ok (u16BeBytes (UInt16.ofNat x)) else .error .outOfRange

/-- `_send_rtcp_nack` up to the encryption: the header and the body, or `none` without anything to
ask for. -/
def sendRtcpNack (senderSsrc mediaSsrc : UInt32) (sequences : List ℤ) :
    Option (Except StructError (Bytes × Bytes)) :=
  let blocks := nackBlocks (pendingSequences sequences)
  if blocks.isEmpty then none
  else some do
    let length ← packU16 (2 + blocks.length)
    return ([0x80 ||| RTCP_GENERIC_NACK, RTCP_RTP_FEEDBACK] ++ length ++ u32BeBytes senderSsrc,
      nackBody mediaSsrc blocks)

/-! ## What the blocks denote -/

theorem shift_toBitVec {i : ℕ} (hi : i < 16) :
    ((1 : UInt16) <<< UInt16.ofNat i).toBitVec = BitVec.twoPow 16 i := by
  rw [UInt16.toBitVec_shiftLeft, BitVec.twoPow_eq]
  simp [UInt16.toBitVec_ofNat, Nat.mod_eq_of_lt hi]

/-- A bit of `blp`. -/
theorem and_shift_ne_zero (blp : UInt16) {i : ℕ} (hi : i < 16) :
    (blp &&& 1 <<< UInt16.ofNat i != 0) = blp.toBitVec.getLsbD i := by
  have hand : (blp &&& 1 <<< UInt16.ofNat i).toBitVec =
      if blp.toBitVec.getLsbD i then BitVec.twoPow 16 i else 0 := by
    rw [UInt16.toBitVec_and, shift_toBitVec hi, BitVec.and_twoPow]
    rfl
  have hpow : BitVec.twoPow 16 i ≠ 0 := by
    intro h
    have := congrArg (BitVec.getLsbD · i) h
    simp [hi] at this
  rw [Bool.eq_iff_iff, bne_iff_ne, ne_eq, ← UInt16.toBitVec_inj, hand]
  split
  · rename_i h
    simpa [h] using hpow
  · rename_i h
    simp [h]

/-- The sequence numbers of a block, by the places of their bits. -/
theorem near_iff {pid sequence : UInt16} :
    near pid sequence ↔ ∃ i < 16, sequence = pid + UInt16.ofNat (i + 1) := by
  have hback : sequence = pid + UInt16.ofNat (sequence - pid).toNat := by
    rw [UInt16.ofNat_toNat, add_sub_cancel]
  simp only [near, decide_eq_true_eq, UInt16.le_iff_toNat_le]
  constructor
  · rintro ⟨hlo, hhi⟩
    have hlo' : 1 ≤ (sequence - pid).toNat := hlo
    have hhi' : (sequence - pid).toNat ≤ 16 := hhi
    exact ⟨(sequence - pid).toNat - 1, by omega, by rwa [Nat.sub_add_cancel hlo']⟩
  · rintro ⟨i, hi, rfl⟩
    rw [add_sub_cancel_left, UInt16.toNat_ofNat_of_lt' (by simp only [UInt16.size]; omega)]
    exact ⟨Nat.le_add_left 1 i, hi⟩

theorem sub_sub_one (pid : UInt16) (i : ℕ) :
    pid + UInt16.ofNat (i + 1) - pid - 1 = UInt16.ofNat i := by
  rw [add_sub_cancel_left, UInt16.ofNat_add]
  exact add_sub_cancel_right _ _

/-- The bits of `blp` after the loop. -/
theorem getLsbD_foldl (pid : UInt16) {sequences : List UInt16}
    (h : ∀ sequence ∈ sequences, near pid sequence) (blp : UInt16) {i : ℕ} (hi : i < 16) :
    (sequences.foldl (fun blp sequence => blp ||| 1 <<< (sequence - pid - 1)) blp).toBitVec.getLsbD
      i = (blp.toBitVec.getLsbD i || decide (pid + UInt16.ofNat (i + 1) ∈ sequences)) := by
  induction sequences generalizing blp with
  | nil => simp
  | cons sequence sequences ih =>
    obtain ⟨j, hj, rfl⟩ := near_iff.1 (h sequence (by simp))
    have hbit : (blp ||| 1 <<< UInt16.ofNat j).toBitVec.getLsbD i =
        (blp.toBitVec.getLsbD i || decide (i = j)) := by
      rw [UInt16.toBitVec_or, BitVec.getLsbD_or, shift_toBitVec hj, BitVec.getLsbD_twoPow]
      simp [hj, eq_comm]
    rw [List.foldl_cons, ih (fun n hn => h n (by simp [hn])), sub_sub_one, hbit]
    simp only [List.mem_cons, add_ofNat_inj pid (show i + 1 < 2 ^ 16 by omega)
      (show j + 1 < 2 ^ 16 by omega), Nat.add_right_cancel_iff, Bool.decide_or, Bool.or_assoc]

/-- The numbers that a block denotes. -/
theorem mem_nackSequences {pid blp n : UInt16} : n ∈ nackSequences pid blp ↔
    n = pid ∨ ∃ i < 16, blp.toBitVec.getLsbD i ∧ n = pid + UInt16.ofNat (i + 1) := by
  simp only [nackSequences, List.mem_cons, List.mem_map, List.mem_filter, List.mem_range]
  refine or_congr_right (exists_congr fun i => ?_)
  constructor
  · rintro ⟨⟨hi, hbit⟩, rfl⟩
    exact ⟨hi, by rwa [and_shift_ne_zero blp hi] at hbit, rfl⟩
  · rintro ⟨hi, hbit, rfl⟩
    exact ⟨⟨hi, by rwa [and_shift_ne_zero blp hi]⟩, rfl⟩

theorem nodup_nackSequences (pid blp : UInt16) : (nackSequences pid blp).Nodup := by
  rw [nackSequences, List.nodup_cons]
  constructor
  · rw [List.mem_map]
    rintro ⟨i, hi, heq⟩
    have hlt := List.mem_range.1 (List.mem_filter.1 hi).1
    have hzero : pid + UInt16.ofNat (i + 1) = pid + UInt16.ofNat 0 := by simpa using heq
    have := (add_ofNat_inj pid (show i + 1 < 2 ^ 16 by omega) (by decide)).1 hzero
    omega
  · refine List.Nodup.map_on (fun i hi j hj heq => ?_) (List.nodup_range.filter _)
    have hi := List.mem_range.1 (List.mem_filter.1 hi).1
    have hj := List.mem_range.1 (List.mem_filter.1 hj).1
    have := (add_ofNat_inj pid (show i + 1 < 2 ^ 16 by omega) (show j + 1 < 2 ^ 16 by omega)).1 heq
    omega

/-- The numbers that blocks denote, block by block. -/
def denoted (blocks : List (UInt16 × UInt16)) : List UInt16 :=
  blocks.flatMap fun block => nackSequences block.1 block.2

theorem denoted_nackBlocks_cons (pid : UInt16) (pending : List UInt16) (n : UInt16) :
    n ∈ denoted (nackBlocks (pid :: pending)) ↔
      n = pid ∨ n ∈ pending.filter (near pid) ∨
        n ∈ denoted (nackBlocks (remaining pid pending)) := by
  rw [nackBlocks, denoted, List.flatMap_cons, List.mem_append, mem_nackSequences, or_assoc]
  refine or_congr_right (or_congr_left ?_)
  have hnear : ∀ sequence ∈ pending.filter (near pid), near pid sequence := fun sequence h =>
    (List.mem_filter.1 h).2
  constructor
  · rintro ⟨i, hi, hbit, rfl⟩
    rw [getLsbD_foldl pid hnear 0 hi] at hbit
    simpa using hbit
  · intro hn
    obtain ⟨i, hi, rfl⟩ := near_iff.1 (hnear n hn)
    exact ⟨i, hi, by rw [getLsbD_foldl pid hnear 0 hi]; simpa using hn, rfl⟩

/-- **The blocks denote the pending numbers.** -/
theorem mem_denoted_nackBlocks (pending : List UInt16) (n : UInt16) :
    n ∈ denoted (nackBlocks pending) ↔ n ∈ pending := by
  induction pending using nackBlocks.induct with
  | case1 => simp [nackBlocks, denoted]
  | case2 pid pending ih =>
    rw [denoted_nackBlocks_cons, ih, remaining, List.mem_filter, List.mem_filter, List.mem_cons]
    cases near pid n <;> simp

/-- **No number is denoted twice.** -/
theorem nodup_denoted_nackBlocks {pending : List UInt16} (h : pending.Nodup) :
    (denoted (nackBlocks pending)).Nodup := by
  induction pending using nackBlocks.induct with
  | case1 => simp [nackBlocks, denoted]
  | case2 pid pending ih =>
    obtain ⟨hpid, hpending⟩ := List.nodup_cons.1 h
    have hrest := ih (hpending.filter _)
    have hsplit : denoted (nackBlocks (pid :: pending)) =
        nackSequences pid ((pending.filter (near pid)).foldl
          (fun blp sequence => blp ||| 1 <<< (sequence - pid - 1)) 0) ++
          denoted (nackBlocks (remaining pid pending)) := by
      rw [nackBlocks, denoted, List.flatMap_cons]
      rfl
    rw [hsplit, List.nodup_append]
    refine ⟨nodup_nackSequences _ _, hrest, fun a ha c hc => ?_⟩
    rintro rfl
    have hfar := (mem_denoted_nackBlocks (remaining pid pending) a).1 hc
    rw [remaining, List.mem_filter] at hfar
    rcases mem_nackSequences.1 ha with rfl | ⟨i, hi, -, rfl⟩
    · exact hpid hfar.1
    · have hnear : near pid (pid + UInt16.ofNat (i + 1)) := near_iff.2 ⟨i, hi, rfl⟩
      have hfalse := hfar.2
      rw [hnear] at hfalse
      exact absurd hfalse (by decide)

/-- **The blocks of a request** denote the numbers asked for, modulo `2 ^ 16`, and none twice. -/
theorem denoted_pendingSequences (sequences : List ℤ) :
    (denoted (nackBlocks (pendingSequences sequences))).Nodup ∧
      ∀ n, n ∈ denoted (nackBlocks (pendingSequences sequences)) ↔
        ∃ z ∈ sequences, UInt16.ofInt z = n := by
  have hnodup : (pendingSequences sequences).Nodup := nodup_eraseDups _
  refine ⟨nodup_denoted_nackBlocks hnodup, fun n => ?_⟩
  rw [mem_denoted_nackBlocks, pendingSequences, List.mem_eraseDups, List.mem_map]

/-! ## The request -/

theorem nackBodySequences_blocks (blocks : List (UInt16 × UInt16)) :
    nackBodySequences (blocks.flatMap fun block => u16BeBytes block.1 ++ u16BeBytes block.2) =
      denoted blocks := by
  induction blocks with
  | nil => rfl
  | cons block blocks ih =>
    rw [List.flatMap_cons, denoted, List.flatMap_cons]
    simp only [u16BeBytes, List.cons_append, List.nil_append, nackBodySequences,
      u16FromBe_u16BeBytes] at ih ⊢
    rw [ih]
    rfl

/-- A block for each of the numbers at most. -/
theorem length_nackBlocks_le (pending : List UInt16) :
    (nackBlocks pending).length ≤ pending.length := by
  induction pending using nackBlocks.induct with
  | case1 => simp [nackBlocks]
  | case2 pid pending ih =>
    have hlen : (remaining pid pending).length ≤ pending.length := List.length_filter_le _ _
    rw [nackBlocks, List.length_cons, List.length_cons]
    omega

/-- **The number of blocks fits the length field**, whatever is asked for: the first block takes the
16 numbers behind it along. -/
theorem length_nackBlocks {pending : List UInt16} (h : pending.Nodup) :
    (nackBlocks pending).length + 16 ≤ 2 ^ 16 := by
  cases pending with
  | nil => simp [nackBlocks]
  | cons pid pending =>
    obtain ⟨hpid, hpending⟩ := List.nodup_cons.1 h
    set window := (List.range 16).map fun i => pid + UInt16.ofNat (i + 1) with hwindow
    have hmem : ∀ n ∈ window, near pid n := by
      intro n hn
      obtain ⟨i, hi, rfl⟩ := List.mem_map.1 hn
      exact near_iff.2 ⟨i, List.mem_range.1 hi, rfl⟩
    have hwindowNodup : window.Nodup := by
      refine List.Nodup.map_on (fun i hi j hj heq => ?_) List.nodup_range
      have hi := List.mem_range.1 hi
      have hj := List.mem_range.1 hj
      have := (add_ofNat_inj pid (show i + 1 < 2 ^ 16 by omega) (by omega)).1 heq
      omega
    have hall : (pid :: remaining pid pending ++ window).Nodup := by
      rw [List.nodup_append]
      refine ⟨List.nodup_cons.2 ⟨fun hin => hpid (List.mem_filter.1 hin).1, hpending.filter _⟩,
        hwindowNodup, fun a ha c hc => ?_⟩
      rintro rfl
      rcases List.mem_cons.1 ha with rfl | ha
      · have := hmem _ hc
        simp [near] at this
      · have := (List.mem_filter.1 ha).2
        simp [hmem _ hc] at this
    have hlength := length_le_of_nodup hall
    have hblocks := length_nackBlocks_le (remaining pid pending)
    simp only [hwindow, List.length_append, List.length_cons, List.length_map,
      List.length_range] at hlength
    rw [nackBlocks, List.length_cons]
    omega

theorem sendRtcpNack_eq (senderSsrc mediaSsrc : UInt32) {sequences : List ℤ}
    (h : sequences ≠ []) : ∃ header, sendRtcpNack senderSsrc mediaSsrc sequences =
      some (.ok (header, nackBody mediaSsrc (nackBlocks (pendingSequences sequences)))) := by
  have hne : pendingSequences sequences ≠ [] := by
    obtain ⟨z, sequences, rfl⟩ := List.exists_cons_of_ne_nil h
    rw [pendingSequences, List.map_cons, List.eraseDups_cons]
    exact List.cons_ne_nil _ _
  have hblocks : (nackBlocks (pendingSequences sequences)).isEmpty = false := by
    obtain ⟨pid, pending, hp⟩ := List.exists_cons_of_ne_nil hne
    rw [hp, nackBlocks]
    rfl
  have hnodup : (pendingSequences sequences).Nodup := nodup_eraseDups _
  have hlength := length_nackBlocks hnodup
  have hpack : packU16 (2 + (nackBlocks (pendingSequences sequences)).length) =
      .ok (u16BeBytes (UInt16.ofNat (2 + (nackBlocks (pendingSequences sequences)).length))) := by
    rw [packU16, if_pos (by omega)]
  refine ⟨[0x80 ||| RTCP_GENERIC_NACK, RTCP_RTP_FEEDBACK] ++
    u16BeBytes (UInt16.ofNat (2 + (nackBlocks (pendingSequences sequences)).length)) ++
    u32BeBytes senderSsrc, ?_⟩
  rw [sendRtcpNack, hblocks, hpack]
  rfl

/-! ## Answering -/

/-- The packets in the cache of a stream, of those that are asked for. -/
def cachedPackets {ρ : Type} (stream : PipelineStream ρ) (sequences : List UInt16) :
    List (UInt16 × SentVideoPacket) :=
  sequences.filterMap fun n => (stream.rtxCache n).map fun packet => (n, packet)

section Resends

variable {ρ : Type} {s : VideoSendPipelineState ρ} {mediaSsrc : UInt32} {stream : PipelineStream ρ}
  {rtxPayloadType : UInt8}

/-- The pipeline after `count` packets of a stream were sent again. -/
def afterResends (s : VideoSendPipelineState ρ) (mediaSsrc : UInt32) (stream : PipelineStream ρ)
    (count : ℕ) : VideoSendPipelineState ρ :=
  { s.setStream mediaSsrc
      { stream with rtxSequence := stream.rtxSequence + UInt16.ofNat count } with
    transportSequence := s.transportSequence + UInt16.ofNat count }

/-- A cached packet as it is sent again, the `i`-th one from now on. -/
def resent (s : VideoSendPipelineState ρ) (stream : PipelineStream ρ) (rtxPayloadType : UInt8)
    (mediaStreamType : String) (now : ℕ → UInt32) (i : ℕ) (packet : SentVideoPacket) :
    PreparedRTPPacket :=
  preparedRtx rtxPayloadType (stream.rtxSequence + 1 + UInt16.ofNat i) stream.rtxSsrc
    (s.transportSequence + 1 + UInt16.ofNat i) stream.rid mediaStreamType (now i) packet

/-- **Packets are prepared for the cached ones**, in their order and with consecutive numbers. -/
theorem prepareResends_eq (hs : s.streams mediaSsrc = some stream)
    (hpt : stream.rtxPayloadType = some rtxPayloadType) (hssrc : stream.rtxSsrc ≠ 0)
    (mediaStreamType : String) (now : ℕ → UInt32) (r : Resend) (sequences : List UInt16) :
    ∃ r', prepareResends mediaSsrc mediaStreamType now s r sequences =
        (.ok r', afterResends s mediaSsrc stream (cachedPackets stream sequences).length) ∧
      r'.packets = r.packets ++ (cachedPackets stream sequences).mapIdx fun i entry =>
        resent s stream rtxPayloadType mediaStreamType (fun i => now (r.resent + i)) i entry.2 := by
  induction sequences generalizing s stream r with
  | nil =>
    refine ⟨r, ?_, by simp [cachedPackets]⟩
    simp [prepareResends, cachedPackets, afterResends, setStream_self hs]
  | cons n sequences ih =>
    rw [prepareResends, prepareVideoRtxPacketInner_eq hs hpt hssrc]
    cases hn : stream.rtxCache n with
    | none =>
      obtain ⟨r', hr', hpackets⟩ := ih hs hpt hssrc r
      have hcached : cachedPackets stream (n :: sequences) = cachedPackets stream sequences := by
        simp [cachedPackets, hn]
      rw [hcached]
      exact ⟨r', hr', hpackets⟩
    | some packet =>
      have hcached : cachedPackets stream (n :: sequences) =
          (n, packet) :: cachedPackets stream sequences := by
        simp [cachedPackets, hn]
      have hnext :
          ({ s.setStream mediaSsrc { stream with rtxSequence := stream.rtxSequence + 1 } with
          transportSequence := s.transportSequence + 1 } : VideoSendPipelineState ρ).streams
          mediaSsrc = some { stream with rtxSequence := stream.rtxSequence + 1 } := by
        simp [setStream]
      obtain ⟨r', hr', hpackets⟩ := ih hnext hpt hssrc (r.add {
        packet := some (preparedRtx rtxPayloadType (stream.rtxSequence + 1) stream.rtxSsrc
          (s.transportSequence + 1) stream.rid mediaStreamType (now r.resent) packet)
        rtxSsrc := stream.rtxSsrc
        rtxSequence := stream.rtxSequence + 1
        transportSequence := s.transportSequence + 1 })
      refine ⟨r', hr'.trans ?_, ?_⟩
      · rw [hcached, List.length_cons]
        simp only [afterResends, setStream, Function.update_idem, add_one_add_ofNat]
        rfl
      · rw [hpackets, hcached, List.mapIdx_cons]
        simp only [Resend.add, resent, add_one_add_ofNat, List.append_assoc, List.singleton_append,
          Nat.add_assoc, Nat.add_comm 1]
        simp
        rfl

/-- **A request is answered** with the cached packets among those that it denotes. -/
theorem prepareVideoRtxForNackInner_blocks (hs : s.streams mediaSsrc = some stream)
    (hpt : stream.rtxPayloadType = some rtxPayloadType) (hssrc : stream.rtxSsrc ≠ 0)
    (mediaStreamType : String) (now : ℕ → UInt32) (blocks : List (UInt16 × UInt16)) :
    ∃ summary, s.prepareVideoRtxForNackInner (nackBody mediaSsrc blocks) mediaStreamType now =
      (.ok {
          packets := (cachedPackets stream (denoted blocks)).mapIdx fun i entry =>
            resent s stream rtxPayloadType mediaStreamType now i entry.2
          summary },
        afterResends s mediaSsrc stream (cachedPackets stream (denoted blocks)).length) := by
  have hbody : nackBody mediaSsrc blocks =
      (mediaSsrc >>> 24).toUInt8 :: (mediaSsrc >>> 16).toUInt8 ::
      (mediaSsrc >>> 8).toUInt8 :: mediaSsrc.toUInt8 ::
      blocks.flatMap fun block => u16BeBytes block.1 ++ u16BeBytes block.2 := rfl
  rw [hbody, prepareVideoRtxForNackInner]
  cases blocks with
  | nil =>
    refine ⟨⟨0, 0, 0, 0, s.transportSequence⟩, ?_⟩
    simp [denoted, cachedPackets, afterResends, setStream_self hs]
  | cons block blocks =>
    have hlen : ¬ ((block :: blocks).flatMap fun block =>
        u16BeBytes block.1 ++ u16BeBytes block.2).length < 4 := by
      simp [u16BeBytes]
    obtain ⟨r, hr, hpackets⟩ := prepareResends_eq hs hpt hssrc mediaStreamType now {}
      (denoted (block :: blocks))
    rw [if_neg hlen]
    dsimp only
    rw [u32FromBe_u32BeBytes, hs, if_neg (by simp), nackBodySequences_blocks, hr]
    simp only [List.nil_append, Nat.zero_add] at hpackets
    refine ⟨⟨r.resent, mediaSsrc, r.rtxSsrc, r.lastRtxSequence, (afterResends s mediaSsrc stream
      (cachedPackets stream (denoted (block :: blocks))).length).transportSequence⟩, ?_⟩
    dsimp only
    rw [hpackets]

end Resends

/-- **Negative acknowledgements end to end.** The blocks that `_send_rtcp_nack` makes of any list of
sequence numbers denote exactly these, modulo `2 ^ 16`, and none twice; they fit into a packet. In
every state that a run reaches, with RTX active on the stream, the packets prepared in answer are
the cached ones among them, each once, with consecutive RTX and transport sequence numbers, and
nothing changes but the counters of these. -/
theorem nack_end_to_end {τ ρ : Type} (clock : TickClock τ ρ) (b : Build)
    (transportSequence : UInt16) (calls : List (Call τ)) {mediaSsrc : UInt32}
    {stream : PipelineStream ρ}
    (hs : (Tracked.run clock b transportSequence calls).pipeline.streams mediaSsrc = some stream)
    {rtxPayloadType : UInt8} (hpt : stream.rtxPayloadType = some rtxPayloadType)
    (hssrc : stream.rtxSsrc ≠ 0) (senderSsrc : UInt32) (sequences : List ℤ)
    (mediaStreamType : String) (now : ℕ → UInt32) :
    let s := (Tracked.run clock b transportSequence calls).pipeline
    let blocks := nackBlocks (pendingSequences sequences)
    let cached := cachedPackets stream (denoted blocks)
    ((denoted blocks).Nodup ∧ ∀ n, n ∈ denoted blocks ↔ ∃ z ∈ sequences, UInt16.ofInt z = n) ∧
    (sequences ≠ [] → ∃ header, sendRtcpNack senderSsrc mediaSsrc sequences =
      some (.ok (header, nackBody mediaSsrc blocks))) ∧
    ∃ summary, s.prepareVideoRtxForNackInner (nackBody mediaSsrc blocks) mediaStreamType now =
      (.ok {
          packets := cached.mapIdx fun i entry =>
            extendedPacket rtxPayloadType (stream.rtxSequence + 1 + UInt16.ofNat i)
              entry.2.timestamp stream.rtxSsrc entry.2.marker
              (videoExtensions (s.transportSequence + 1 + UInt16.ofNat i) stream.rid
                mediaStreamType true (now i))
              (u16BeBytes entry.1 ++ entry.2.payload)
          summary },
        { s.setStream mediaSsrc
            { stream with rtxSequence := stream.rtxSequence + UInt16.ofNat cached.length } with
          transportSequence := s.transportSequence + UInt16.ofNat cached.length }) := by
  intro s blocks cached
  refine ⟨denoted_pendingSequences sequences, sendRtcpNack_eq senderSsrc mediaSsrc, ?_⟩
  obtain ⟨summary, hanswer⟩ := prepareVideoRtxForNackInner_blocks hs hpt hssrc mediaStreamType now
    blocks
  refine ⟨summary, hanswer.trans (Prod.ext (congrArg Except.ok ?_) rfl)⟩
  -- the packets are cached under their own sequence numbers
  have hkey : ∀ entry ∈ cached, entry.2.sequence = entry.1 := by
    intro entry hentry
    obtain ⟨n, -, hn⟩ := List.mem_filterMap.1 hentry
    obtain ⟨packet, hpacket, rfl⟩ := Option.map_eq_some_iff.1 hn
    have hcache := (Tracked.recorded_run clock b transportSequence calls mediaSsrc stream hs).cache
    have hmem := (hcache.table_eq_some n packet).1 hpacket
    rw [FifoCache.rtake_map, List.mem_map] at hmem
    obtain ⟨p, -, hp⟩ := hmem
    obtain ⟨rfl, rfl⟩ := Prod.mk.inj hp
    rfl
  refine congrArg (PreparedNackResend.mk · summary)
    (List.ext_getElem (by simp [cached]) fun i hi _ => ?_)
  simp only [List.getElem_mapIdx, resent, preparedRtx]
  rw [hkey _ (List.getElem_mem _)]

/-- The packet after 65534 is asked for, and one that is not in the cache. -/
theorem nack_end_to_end_one : ∃ stream header summary packet s',
    (Tracked.run TickClock.exact .release 0 oneFrame).pipeline.streams 7 = some stream ∧
    sendRtcpNack 1 7 [-1, 65536] = some (.ok (header, nackBody 7 [(65535, 1)])) ∧
    (Tracked.run TickClock.exact .release 0 oneFrame).pipeline.prepareVideoRtxForNackInner
      (nackBody 7 [(65535, 1)]) "video" (fun _ => 0) = (.ok ⟨[packet], summary⟩, s') := by
  obtain ⟨stream, hs⟩ := Option.isSome_iff_exists.1 (show ((Tracked.run TickClock.exact .release 0
    oneFrame).pipeline.streams 7).isSome = true by decide +kernel)
  have hrtx : ((Tracked.run TickClock.exact .release 0 oneFrame).pipeline.streams 7).map
      (fun stream => (stream.rtxPayloadType, stream.rtxSsrc)) = some (some 102, 8) := by
    decide +kernel
  rw [hs, Option.map_some, Option.some.injEq, Prod.mk.injEq] at hrtx
  have hblocks : nackBlocks (pendingSequences [-1, 65536]) = [(65535, 1)] := by decide +kernel
  obtain ⟨-, hsend, summary, hanswer⟩ := nack_end_to_end TickClock.exact .release 0 oneFrame hs
    hrtx.1 (by rw [hrtx.2]; decide) 1 [-1, 65536] "video" fun _ => 0
  rw [hblocks] at hsend hanswer
  obtain ⟨header, hheader⟩ := hsend (by simp)
  have hcached : ((Tracked.run TickClock.exact .release 0 oneFrame).pipeline.streams 7).map
      (fun stream => cachedPackets stream (denoted [(65535, 1)])) =
      some [(65535, ⟨[0x90, 0x80, 0x80, 0, 1, 2, 3], true, 65535, 90000⟩)] := by decide +kernel
  rw [hs, Option.map_some, Option.some.injEq] at hcached
  rw [hcached] at hanswer
  exact ⟨stream, header, summary, _, _, hs, hheader, hanswer⟩

end NativeVoice.Send
