import Mathlib.Data.Rat.Floor
import NativeVoice.Receive.ReorderBuffer
import NativeVoice.Rtp.Packet

/-!
# RTCP receiver reports

What `src/discord/ext/native_voice/client.py` counts of the video packets of an SSRC, the report
block that it makes of it, and how it reads the report blocks of others.

* `maybeSendVideoRtcpReceiverReport` takes a packet into account, and makes a block when it is time.
* `rtcpReceiverReportBlock` is a report block, `handleRtcpReceiverReport` reads them.
* `exists_report_block`: a block is always made, and what is read from it.
-/

namespace NativeVoice.Receive

open Lib

/-- Python's `round`: to the nearest integer, and to the even one of two. -/
def pyRound (x : ℚ) : ℤ :=
  let floor := ⌊x⌋
  if x - floor < 1 / 2 ∨ x - floor = 1 / 2 ∧ floor % 2 = 0 then floor else floor + 1

/-- `struct.pack('>I', x)`, which raises unless `x` has 32 bits. -/
def structPackI (x : ℤ) : Option Bytes :=
  if 0 ≤ x ∧ x < 2 ^ 32 then some (u32BeBytes (UInt32.ofInt x)) else none

/-- `struct.unpack_from('>I', payload, offset)`. -/
def unpackFromI (payload : Bytes) (offset : ℕ) : UInt32 :=
  u32FromBe (payload.getD offset 0) (payload.getD (offset + 1) 0) (payload.getD (offset + 2) 0)
    (payload.getD (offset + 3) 0)

/-- `_RTCPReceiveReportState`. -/
structure RTCPReceiveReportState where
  baseExtendedSequence : ℤ
  maxExtendedSequence : ℤ
  packetsReceived : ℤ := 0
  expectedPrior : ℤ := 0
  receivedPrior : ℤ := 0
  jitter : ℚ := 0
  transit : Option ℤ := none
  lastReportAt : ℚ := 0

/-! ## The packets that are received -/

/-- The packet is counted, and its sequence number is unwrapped around the greatest one. -/
def countPacket (state : Option RTCPReceiveReportState) (sequence : UInt16) :
    RTCPReceiveReportState :=
  match state with
  | none =>
    { baseExtendedSequence := sequence.toNat
      maxExtendedSequence := sequence.toNat
      packetsReceived := 1 }
  | some state =>
    let extendedSequence := unwrapSequence sequence state.maxExtendedSequence
    { state with
      maxExtendedSequence :=
        if extendedSequence > state.maxExtendedSequence then extendedSequence
        else state.maxExtendedSequence
      packetsReceived := state.packetsReceived + 1 }

/-- How long a packet was under way, in units of the RTP clock and up to a constant. -/
def transitOf (timestamp : UInt32) (receivedAt : ℚ) : ℤ :=
  pyRound (receivedAt * 90000) - timestamp.toNat

def updateJitter (state : RTCPReceiveReportState) (timestamp : UInt32) (receivedAt : ℚ) :
    RTCPReceiveReportState :=
  let transit := transitOf timestamp receivedAt
  { state with
    transit := some transit
    jitter :=
      match state.transit with
      | none => state.jitter
      | some previousTransit =>
        let delta : ℤ := |transit - previousTransit|
        state.jitter + (delta - state.jitter) / 16 }

/-! ## Report blocks -/

/-- The packets that are expected, up to the greatest sequence number. -/
def RTCPReceiveReportState.expected (state : RTCPReceiveReportState) : ℤ :=
  state.maxExtendedSequence - state.baseExtendedSequence + 1

/-- The field of a block with the fraction that was lost since the last block and what was lost in
all: 8 bits and 24 bits, a two's complement. -/
def reportLoss (state : RTCPReceiveReportState) : ℤ :=
  let lost := state.expected - state.packetsReceived
  let expectedInterval := state.expected - state.expectedPrior
  let receivedInterval := state.packetsReceived - state.receivedPrior
  let lostInterval := expectedInterval - receivedInterval
  let fractionLost :=
    if expectedInterval > 0 ∧ lostInterval > 0 then
      min 255 (lostInterval * 2 ^ 8 / expectedInterval)
    else 0
  let cumulativeLost := max (-2 ^ 23) (min (2 ^ 23 - 1) lost)
  let cumulativeLost := if cumulativeLost < 0 then cumulativeLost + 2 ^ 24 else cumulativeLost
  fractionLost % 2 ^ 8 * 2 ^ 24 + cumulativeLost % 2 ^ 24

/-- The last sender report of the SSRC, known by its timestamp, and the time since its arrival. -/
def sinceSenderReport (senderReport : Option (UInt32 × ℚ)) (perfCounter : ℚ) : UInt32 × ℤ :=
  match senderReport with
  | none => (0, 0)
  | some (lsr, receivedAt) =>
    (lsr, max 0 (min 0xFFFFFFFF (pyRound ((perfCounter - receivedAt) * 65536))))

/-- `_rtcp_receiver_report_block`: the block, unless `struct.pack` raises, and the state behind
it. -/
def rtcpReceiverReportBlock (senderReport : Option (UInt32 × ℚ)) (perfCounter : ℚ) (ssrc : UInt32)
    (state : RTCPReceiveReportState) : Option Bytes × RTCPReceiveReportState :=
  let (lsr, delaySinceLastSenderReport) := sinceSenderReport senderReport perfCounter
  let fields : List ℤ := [ssrc.toNat % 2 ^ 32, reportLoss state,
    state.maxExtendedSequence % 2 ^ 32, pyRound state.jitter % 2 ^ 32, lsr.toNat % 2 ^ 32,
    delaySinceLastSenderReport]
  ((fields.mapM structPackI).map List.flatten,
    { state with expectedPrior := state.expected, receivedPrior := state.packetsReceived })

/-! ## The client -/

structure ReportClient where
  rtcpReceiverReportInterval : ℚ := 1
  rtcpReceiveReportStates : Dict UInt32 RTCPReceiveReportState := ∅
  rtcpSenderReportLsr : Dict UInt32 (UInt32 × ℚ) := ∅

namespace ReportClient

/-- `_handle_rtcp_sender_report`, as far as the blocks need it: the middle of the NTP time. -/
def handleRtcpSenderReport (c : ReportClient) (senderSsrc : UInt32) (payload : Bytes)
    (perfCounter : ℚ) : ReportClient :=
  if payload.length < 20 then c
  else
    let ntpSeconds := unpackFromI payload 0
    let ntpFraction := unpackFromI payload 4
    let lsr := (ntpSeconds &&& 0xFFFF) <<< 16 ||| ntpFraction >>> 16
    { c with rtcpSenderReportLsr := c.rtcpSenderReportLsr.set senderSsrc (lsr, perfCounter) }

/-- A block for an SSRC whose state is `state`. -/
def report (c : ReportClient) (ssrc : UInt32) (state : RTCPReceiveReportState) (perfCounter : ℚ) :
    ReportClient × Option Bytes :=
  let (block, state) :=
    rtcpReceiverReportBlock (c.rtcpSenderReportLsr.lookup ssrc) perfCounter ssrc state
  ({ c with rtcpReceiveReportStates := c.rtcpReceiveReportStates.set ssrc state }, block)

/-- The state of an SSRC with one more packet. -/
def received (c : ReportClient) (ssrc : UInt32) (sequence : UInt16) (timestamp : UInt32)
    (receivedAt : ℚ) : RTCPReceiveReportState :=
  updateJitter (countPacket (c.rtcpReceiveReportStates.lookup ssrc) sequence) timestamp receivedAt

/-- `_maybe_send_video_rtcp_receiver_report`: the client, and the result of making a block when one
is made. -/
def maybeSendVideoRtcpReceiverReport (c : ReportClient) (ssrc : UInt32) (sequence : UInt16)
    (timestamp : UInt32) (receivedAt perfCounter : ℚ) : ReportClient × Option (Option Bytes) :=
  let state := c.received ssrc sequence timestamp receivedAt
  let interval := c.rtcpReceiverReportInterval
  if interval ≤ 0 ∨ receivedAt - state.lastReportAt < interval then
    ({ c with rtcpReceiveReportStates := c.rtcpReceiveReportStates.set ssrc state }, none)
  else
    let (c, block) := c.report ssrc { state with lastReportAt := receivedAt } perfCounter
    (c, some block)

/-- A packet is counted, and a block is made or not. -/
theorem maybeSendVideoRtcpReceiverReport_spec (c : ReportClient) (ssrc : UInt32)
    (sequence : UInt16) (timestamp : UInt32) (receivedAt perfCounter : ℚ) :
    let state := c.received ssrc sequence timestamp receivedAt
    c.maybeSendVideoRtcpReceiverReport ssrc sequence timestamp receivedAt perfCounter =
      ({ c with rtcpReceiveReportStates := c.rtcpReceiveReportStates.set ssrc state }, none) ∨
    c.maybeSendVideoRtcpReceiverReport ssrc sequence timestamp receivedAt perfCounter =
      ((c.report ssrc { state with lastReportAt := receivedAt } perfCounter).1,
        some (c.report ssrc { state with lastReportAt := receivedAt } perfCounter).2) := by
  intro state
  unfold maybeSendVideoRtcpReceiverReport
  by_cases hwait : c.rtcpReceiverReportInterval ≤ 0 ∨
      receivedAt - state.lastReportAt < c.rtcpReceiverReportInterval
  · exact .inl (if_pos hwait)
  · right
    simp only [state, if_neg hwait]

end ReportClient

/-! ## The reports of others -/

structure RTCPReceiverReport where
  senderSsrc : UInt32
  sourceSsrc : UInt32
  fractionLost : ℕ
  cumulativeLost : ℤ
  extendedHighSequence : UInt32
  jitter : UInt32
  lastSenderReport : UInt32
  delaySinceLastSenderReport : UInt32
  receivedAt : ℚ

abbrev ReceiverReports := Dict (UInt32 × UInt32) RTCPReceiverReport

/-- `_prune_rtcp_receiver_reports`: reports that are older than `ttl` are deleted. -/
def pruneRtcpReceiverReports (ttl now : ℚ) (reports : ReceiverReports) : ReceiverReports :=
  let expired := (reports.items.filter fun x => x.2.receivedAt < now - ttl).map Prod.fst
  expired.foldl (fun reports key => reports.erase key) reports

/-- The report block at `offset`. -/
def reportAt (senderSsrc : UInt32) (payload : Bytes) (offset : ℕ) (now : ℚ) :
    RTCPReceiverReport :=
  let loss : ℕ := (unpackFromI payload (offset + 4)).toNat
  let cumulativeLost : ℕ := loss % 2 ^ 24
  { senderSsrc
    sourceSsrc := unpackFromI payload offset
    fractionLost := loss / 2 ^ 24 % 2 ^ 8
    cumulativeLost :=
      if cumulativeLost.testBit 23 then (cumulativeLost : ℤ) - 2 ^ 24 else cumulativeLost
    extendedHighSequence := unpackFromI payload (offset + 8)
    jitter := unpackFromI payload (offset + 12)
    lastSenderReport := unpackFromI payload (offset + 16)
    delaySinceLastSenderReport := unpackFromI payload (offset + 20)
    receivedAt := now }

/-- The loop over the blocks, from `offset` on. -/
def handleReportBlocks (senderSsrc : UInt32) (payload : Bytes) (now : ℚ) :
    ℕ → ℕ → ReceiverReports → ReceiverReports
  | 0, _, reports => reports
  | blocks + 1, offset, reports =>
    if offset + 24 > payload.length then reports
    else
      let report := reportAt senderSsrc payload offset now
      handleReportBlocks senderSsrc payload now blocks (offset + 24)
        (reports.set (senderSsrc, report.sourceSsrc) report)

/-- `_handle_rtcp_receiver_report`. -/
def handleRtcpReceiverReport (ttl : ℚ) (senderSsrc : UInt32) (reportCount : ℕ) (payload : Bytes)
    (now : ℚ) (reports : ReceiverReports) : ReceiverReports :=
  let stop := min payload.length (reportCount * 24)
  handleReportBlocks senderSsrc payload now ((stop + 23) / 24) 0
    (pruneRtcpReceiverReports ttl now reports)

/-! ## What is read from a block -/

theorem structPackI_of_lt {x : ℤ} (h0 : 0 ≤ x) (h : x < 2 ^ 32) :
    structPackI x = some (u32BeBytes (UInt32.ofInt x)) :=
  if_pos ⟨h0, h⟩

theorem toNat_ofInt (x : ℤ) : ((UInt32.ofInt x).toNat : ℤ) = x % 2 ^ 32 := by
  simp [UInt32.ofInt]
  omega

theorem ofInt_toNat (x : UInt32) : UInt32.ofInt (x.toNat % 2 ^ 32) = x := by
  apply UInt32.toNat.inj
  have hofInt := toNat_ofInt (x.toNat % 2 ^ 32)
  have hlt := x.toNat_lt
  omega

/-- The fields are read as they were packed. -/
theorem reportAt_flatten (senderSsrc : UInt32) (now : ℚ) (ssrc : UInt32) (loss : ℕ)
    (sequence jitter lsr delay : ℤ) (hloss : loss < 2 ^ 32) :
    reportAt senderSsrc (([ssrc.toNat % 2 ^ 32, loss, sequence, jitter, lsr, delay] : List ℤ).map
      fun x => u32BeBytes (UInt32.ofInt x)).flatten 0 now = {
        senderSsrc
        sourceSsrc := ssrc
        fractionLost := loss / 2 ^ 24 % 2 ^ 8
        cumulativeLost := if (loss % 2 ^ 24).testBit 23 then ((loss % 2 ^ 24 : ℕ) : ℤ) - 2 ^ 24
          else ((loss % 2 ^ 24 : ℕ) : ℤ)
        extendedHighSequence := UInt32.ofInt sequence
        jitter := UInt32.ofInt jitter
        lastSenderReport := UInt32.ofInt lsr
        delaySinceLastSenderReport := UInt32.ofInt delay
        receivedAt := now } := by
  have hn : (UInt32.ofInt loss).toNat = loss := by
    have := toNat_ofInt loss
    omega
  simp only [reportAt, unpackFromI, u32BeBytes, List.map_cons, List.map_nil, List.flatten_cons,
    List.flatten_nil, List.cons_append, List.nil_append, List.getD_cons_zero, List.getD_cons_succ,
    Nat.reduceAdd, u32FromBe_u32BeBytes, hn, ofInt_toNat]

/-- What a block reports as lost in all: a signed number of 24 bits. -/
def clampLost (lost : ℤ) : ℤ := max (-2 ^ 23) (min (2 ^ 23 - 1) lost)

/-- What a block reports as the fraction that is lost, in units of 1/256. -/
def lostFraction (expected lost : ℤ) : ℤ :=
  if 0 < expected ∧ 0 < lost then min 255 (256 * lost / expected) else 0

theorem lostFraction_nonneg (expected lost : ℤ) : 0 ≤ lostFraction expected lost := by
  unfold lostFraction
  split
  · rename_i h
    exact le_min (by decide) (Int.ediv_nonneg (by omega) h.1.le)
  · exact le_rfl

theorem lostFraction_le (expected lost : ℤ) : lostFraction expected lost ≤ 255 := by
  unfold lostFraction
  split
  · exact min_le_left _ _
  · decide

/-- The signed number is read from its two's complement. -/
theorem signed_eq {low : ℕ} {lost : ℤ} (hlow : (if lost < 0 then lost + 2 ^ 24 else lost) = low)
    (hlo : -2 ^ 23 ≤ lost) (hhi : lost < 2 ^ 23) :
    (if low.testBit 23 then (low : ℤ) - 2 ^ 24 else (low : ℤ)) = lost := by
  simp only [Nat.testBit_eq_decide_div_mod_eq, decide_eq_true_eq]
  split at hlow
  · rw [if_pos (by omega)]
    omega
  · rw [if_neg (by omega)]
    omega

/-- Both numbers are read from the field. -/
theorem reportLoss_spec (state : RTCPReceiveReportState) : ∃ n : ℕ, reportLoss state = n ∧
    n < 2 ^ 32 ∧
    (n / 2 ^ 24 % 2 ^ 8 : ℕ) = lostFraction (state.expected - state.expectedPrior)
      (state.expected - state.expectedPrior - (state.packetsReceived - state.receivedPrior)) ∧
    (if (n % 2 ^ 24).testBit 23 then ((n % 2 ^ 24 : ℕ) : ℤ) - 2 ^ 24
      else ((n % 2 ^ 24 : ℕ) : ℤ)) = clampLost (state.expected - state.packetsReceived) := by
  set lost := clampLost (state.expected - state.packetsReceived) with hlost
  have hlo : -2 ^ 23 ≤ lost := le_max_left _ _
  have hhi : lost < 2 ^ 23 := by
    rw [hlost, clampLost]
    omega
  obtain ⟨low, hlow⟩ := Int.eq_ofNat_of_zero_le
    (show 0 ≤ if lost < 0 then lost + 2 ^ 24 else lost by split <;> omega)
  obtain ⟨high, hhigh⟩ := Int.eq_ofNat_of_zero_le (lostFraction_nonneg
    (state.expected - state.expectedPrior)
    (state.expected - state.expectedPrior - (state.packetsReceived - state.receivedPrior)))
  have hlt : low < 2 ^ 24 := by
    split at hlow <;> omega
  have hle : high ≤ 255 := by
    have := lostFraction_le (state.expected - state.expectedPrior)
      (state.expected - state.expectedPrior - (state.packetsReceived - state.receivedPrior))
    omega
  have hmod : (high * 2 ^ 24 + low) % 2 ^ 24 = low := by omega
  refine ⟨high * 2 ^ 24 + low, ?_, by omega, by omega, ?_⟩
  · have hfield : reportLoss state = high % 2 ^ 8 * 2 ^ 24 + low % 2 ^ 24 := by
      rw [← hhigh, ← hlow, lostFraction, mul_comm 256]
      rfl
    omega
  · rw [hmod]
    exact signed_eq hlow hlo hhi

theorem sinceSenderReport_range (senderReport : Option (UInt32 × ℚ)) (perfCounter : ℚ) :
    0 ≤ (sinceSenderReport senderReport perfCounter).2 ∧
      (sinceSenderReport senderReport perfCounter).2 < 2 ^ 32 := by
  cases senderReport with
  | none => exact ⟨le_rfl, show (0 : ℤ) < 2 ^ 32 by decide⟩
  | some report =>
    simp only [sinceSenderReport]
    omega

theorem mapM_structPackI {fields : List ℤ} (h : ∀ x ∈ fields, 0 ≤ x ∧ x < 2 ^ 32) :
    fields.mapM structPackI = some (fields.map fun x => u32BeBytes (UInt32.ofInt x)) := by
  induction fields with
  | nil => rfl
  | cons x fields ih =>
    rw [List.forall_mem_cons] at h
    rw [List.mapM_cons, structPackI_of_lt h.1.1 h.1.2, ih h.2]
    rfl

theorem fields_range (ssrc lsr : UInt32) (sequence jitter : ℤ) {loss delay : ℤ} (hloss0 : 0 ≤ loss)
    (hloss : loss < 2 ^ 32) (hdelay0 : 0 ≤ delay) (hdelay : delay < 2 ^ 32) :
    ∀ x ∈ ([ssrc.toNat % 2 ^ 32, loss, sequence % 2 ^ 32, jitter % 2 ^ 32, lsr.toNat % 2 ^ 32,
      delay] : List ℤ), 0 ≤ x ∧ x < 2 ^ 32 := by
  have hmod : ∀ x : ℤ, 0 ≤ x % 2 ^ 32 ∧ x % 2 ^ 32 < 2 ^ 32 := fun x =>
    ⟨Int.emod_nonneg _ (by decide), Int.emod_lt_of_pos _ (by decide)⟩
  simp only [List.forall_mem_cons, List.not_mem_nil, false_imp_iff, implies_true, and_true]
  exact ⟨hmod _, ⟨hloss0, hloss⟩, hmod _, hmod _, hmod _, hdelay0, hdelay⟩

/-- **A report block** is always made, it has 24 bytes, and what is read from it is what was
counted: the greatest sequence number in 32 bits, what was lost in all, and the fraction that was
lost since the last block. -/
theorem exists_report_block (senderReport : Option (UInt32 × ℚ)) (perfCounter : ℚ) (ssrc : UInt32)
    (state : RTCPReceiveReportState) :
    ∃ block, (rtcpReceiverReportBlock senderReport perfCounter ssrc state).1 = some block ∧
      block.length = 24 ∧ ∀ senderSsrc now,
        let report := reportAt senderSsrc block 0 now
        report.sourceSsrc = ssrc ∧
        report.extendedHighSequence.toNat = state.maxExtendedSequence % 2 ^ 32 ∧
        report.cumulativeLost = clampLost (state.expected - state.packetsReceived) ∧
        report.fractionLost = lostFraction (state.expected - state.expectedPrior)
          (state.expected - state.expectedPrior -
            (state.packetsReceived - state.receivedPrior)) := by
  obtain ⟨loss, hloss, hlt, hfraction, hlost⟩ := reportLoss_spec state
  obtain ⟨hdelay0, hdelay⟩ := sinceSenderReport_range senderReport perfCounter
  unfold rtcpReceiverReportBlock
  dsimp only
  rw [hloss, mapM_structPackI (fields_range _ _ _ _ (by omega) (by omega) hdelay0 hdelay)]
  refine ⟨_, rfl, rfl, fun senderSsrc now => ?_⟩
  rw [reportAt_flatten senderSsrc now ssrc loss _ _ _ _ hlt]
  refine ⟨rfl, ?_, hlost, hfraction⟩
  rw [toNat_ofInt, Int.emod_emod]

/-- A payload of one block is read as this block. -/
theorem lookup_handleRtcpReceiverReport (ttl : ℚ) (senderSsrc : UInt32) {payload : Bytes} (now : ℚ)
    (reports : ReceiverReports) (h : payload.length = 24) :
    (handleRtcpReceiverReport ttl senderSsrc 1 payload now reports).lookup
        (senderSsrc, (reportAt senderSsrc payload 0 now).sourceSsrc) =
      some (reportAt senderSsrc payload 0 now) := by
  unfold handleRtcpReceiverReport
  simp only [h, Nat.one_mul, min_self, handleReportBlocks, Nat.zero_add, lt_irrefl, if_false,
    Nat.reduceAdd, Nat.reduceDiv]
  rw [AList.lookup_set, if_pos rfl]

end NativeVoice.Receive
