import NativeVoice.Receive.ReceiverReports

/-!
# What receiver reports say of a run

The packets of an SSRC have true sequence numbers, without a bound, of which the client sees 16
bits. A run keeps them beside the client, with what had arrived when the last block was made.

* `report_accounts`: the blocks of a run give an account of the true sequence numbers.
-/

namespace NativeVoice.Receive

open Lib

/-! ## The true sequence numbers -/

def maxSequence (arrivals : List ℤ) : ℤ := arrivals.foldl max (arrivals.headD 0)

/-- The packets that are expected, up to the greatest sequence number. -/
def expectedPackets (arrivals : List ℤ) : ℤ :=
  if arrivals = [] then 0 else maxSequence arrivals - arrivals.headD 0 + 1

/-- The first sequence number has 16 bits, and the others are not too far from the greatest one that
has arrived before them. -/
def Near (arrivals : List ℤ) : Prop :=
  ∀ pre sequence post, arrivals = pre ++ sequence :: post →
    if pre = [] then 0 ≤ sequence ∧ sequence < 2 ^ 16
    else maxSequence pre - 2 ^ 15 ≤ sequence ∧ sequence ≤ maxSequence pre + 2 ^ 15 - 1

theorem Near.of_concat {arrivals : List ℤ} {sequence : ℤ} (h : Near (arrivals ++ [sequence])) :
    Near arrivals := by
  rintro pre x post rfl
  exact h pre x (post ++ [sequence]) (by simp)

theorem Near.last {arrivals : List ℤ} {sequence : ℤ} (h : Near (arrivals ++ [sequence])) :
    if arrivals = [] then 0 ≤ sequence ∧ sequence < 2 ^ 16
    else maxSequence arrivals - 2 ^ 15 ≤ sequence ∧ sequence ≤ maxSequence arrivals + 2 ^ 15 - 1 :=
  h arrivals sequence [] rfl

theorem near_nil : Near [] := by
  intro pre x post h
  simp at h

theorem Near.concat {arrivals : List ℤ} (h : Near arrivals) (sequence : ℤ)
    (hlast : if arrivals = [] then 0 ≤ sequence ∧ sequence < 2 ^ 16
      else maxSequence arrivals - 2 ^ 15 ≤ sequence ∧
        sequence ≤ maxSequence arrivals + 2 ^ 15 - 1) :
    Near (arrivals ++ [sequence]) := by
  intro pre x post heq
  rcases List.eq_nil_or_concat post with rfl | ⟨post, y, rfl⟩
  · obtain ⟨rfl, hx⟩ := List.append_inj' heq rfl
    obtain rfl : sequence = x := List.singleton_inj.1 hx
    exact hlast
  · rw [List.concat_eq_append, ← List.cons_append, ← List.append_assoc] at heq
    exact h pre x post (List.append_inj_left' heq rfl)

theorem maxSequence_concat {arrivals : List ℤ} (h : arrivals ≠ []) (sequence : ℤ) :
    maxSequence (arrivals ++ [sequence]) = max (maxSequence arrivals) sequence := by
  obtain ⟨first, rest, rfl⟩ := List.exists_cons_of_ne_nil h
  simp [maxSequence]

/-! ## Runs -/

/-- A packet with its true sequence number, a block that is made, or a sender report. -/
inductive ReportEvent
  | packet (ssrc : UInt32) (sequence : ℤ) (timestamp : UInt32) (receivedAt perfCounter : ℚ)
  | report (ssrc : UInt32) (perfCounter : ℚ)
  | senderReport (ssrc : UInt32) (payload : Bytes) (perfCounter : ℚ)

/-- A block: the true sequence numbers that had arrived, and those that had at the last block. -/
structure ReportRecord where
  ssrc : UInt32
  block : Option Bytes
  arrivals : List ℤ
  prior : List ℤ
  deriving DecidableEq

/-- The client, and for each SSRC the true sequence numbers that have arrived, and those that had
when its last block was made. -/
structure ReportRun where
  client : ReportClient
  arrivals : UInt32 → List ℤ := fun _ => []
  prior : UInt32 → List ℤ := fun _ => []
  records : List ReportRecord := []

namespace ReportRun

/-- A block was made. -/
def record (s : ReportRun) (ssrc : UInt32) (block : Option Bytes) : ReportRun :=
  { s with
    prior := Function.update s.prior ssrc (s.arrivals ssrc)
    records := s.records ++ [{ ssrc, block, arrivals := s.arrivals ssrc, prior := s.prior ssrc }] }

def step (s : ReportRun) : ReportEvent → ReportRun
  | .packet ssrc sequence timestamp receivedAt perfCounter =>
    let (client, built) := s.client.maybeSendVideoRtcpReceiverReport ssrc (wireSequence sequence)
      timestamp receivedAt perfCounter
    let s := { s with
      client
      arrivals := Function.update s.arrivals ssrc (s.arrivals ssrc ++ [sequence]) }
    match built with
    | none => s
    | some block => s.record ssrc block
  | .report ssrc perfCounter =>
    match s.client.rtcpReceiveReportStates.lookup ssrc with
    | none => s
    | some state =>
      let (client, block) := s.client.report ssrc state perfCounter
      { s with client }.record ssrc block
  | .senderReport ssrc payload perfCounter =>
    { s with client := s.client.handleRtcpSenderReport ssrc payload perfCounter }

end ReportRun

def reportRun (interval : ℚ) (events : List ReportEvent) : ReportRun :=
  events.foldl ReportRun.step { client := { rtcpReceiverReportInterval := interval } }

/-! ## The account of an SSRC -/

/-- The state of an SSRC against its true sequence numbers and those at its last block. -/
structure Accounted (state : RTCPReceiveReportState) (arrivals prior : List ℤ) : Prop where
  ne_nil : arrivals ≠ []
  base : state.baseExtendedSequence = arrivals.headD 0
  max : state.maxExtendedSequence = maxSequence arrivals
  received : state.packetsReceived = arrivals.length
  expectedPrior : state.expectedPrior = expectedPackets prior
  receivedPrior : state.receivedPrior = prior.length

/-- What an SSRC has in the states of the client. -/
def Accounts (state : Option RTCPReceiveReportState) (arrivals prior : List ℤ) : Prop :=
  match state with
  | none => arrivals = [] ∧ prior = []
  | some state => Accounted state arrivals prior

theorem Accounted.expected_eq {state : RTCPReceiveReportState} {arrivals prior : List ℤ}
    (h : Accounted state arrivals prior) : state.expected = expectedPackets arrivals := by
  rw [RTCPReceiveReportState.expected, h.base, h.max, expectedPackets, if_neg h.ne_nil]

/-- One more packet. -/
theorem Accounts.countPacket {state : Option RTCPReceiveReportState} {arrivals prior : List ℤ}
    {sequence : ℤ} (h : Accounts state arrivals prior) (hnear : Near (arrivals ++ [sequence]))
    (timestamp : UInt32) (receivedAt : ℚ) :
    Accounted (updateJitter (countPacket state (wireSequence sequence)) timestamp receivedAt)
      (arrivals ++ [sequence]) prior := by
  have hlast := hnear.last
  cases state with
  | none =>
    obtain ⟨rfl, rfl⟩ := h
    rw [if_pos rfl] at hlast
    have hwire : ((wireSequence sequence).toNat : ℤ) = sequence := by
      rw [toNat_wireSequence]
      omega
    have hmax : maxSequence [sequence] = sequence := max_self _
    exact ⟨by simp, hwire, hwire.trans hmax.symm, rfl, rfl, rfl⟩
  | some state =>
    have h : Accounted state arrivals prior := h
    rw [if_neg h.ne_nil] at hlast
    have hunwrap := unwrapSequence_wireSequence hlast.1 hlast.2
    rw [← h.max] at hunwrap
    refine ⟨by simp, ?_, ?_, ?_, h.expectedPrior, h.receivedPrior⟩
    · obtain ⟨first, rest, rfl⟩ := List.exists_cons_of_ne_nil h.ne_nil
      exact h.base
    · rw [maxSequence_concat h.ne_nil, ← h.max]
      simp only [updateJitter, Receive.countPacket, hunwrap]
      split <;> omega
    · simp only [updateJitter, Receive.countPacket, h.received]
      simp

/-- What a block of an SSRC says, whoever reads it. -/
def Tells (ssrc : UInt32) (block : Bytes) (arrivals prior : List ℤ) : Prop :=
  ∀ (ttl : ℚ) (senderSsrc : UInt32) (now : ℚ) (reports : ReceiverReports), ∃ report,
    (handleRtcpReceiverReport ttl senderSsrc 1 block now reports).lookup (senderSsrc, ssrc) =
      some report ∧
    report.extendedHighSequence.toNat = maxSequence arrivals % 2 ^ 32 ∧
    report.cumulativeLost = clampLost (expectedPackets arrivals - arrivals.length) ∧
    report.fractionLost = lostFraction (expectedPackets arrivals - expectedPackets prior)
      (expectedPackets arrivals - expectedPackets prior - (arrivals.length - prior.length))

/-- A block that is made tells of the packets, and the next one counts from them. -/
theorem Accounted.report {state : RTCPReceiveReportState} {arrivals prior : List ℤ}
    (h : Accounted state arrivals prior) (senderReport : Option (UInt32 × ℚ)) (perfCounter : ℚ)
    (ssrc : UInt32) :
    (∃ block, (rtcpReceiverReportBlock senderReport perfCounter ssrc state).1 = some block ∧
      Tells ssrc block arrivals prior) ∧
    Accounted (rtcpReceiverReportBlock senderReport perfCounter ssrc state).2 arrivals
      arrivals := by
  obtain ⟨block, hblock, hlength, hread⟩ := exists_report_block senderReport perfCounter ssrc state
  refine ⟨⟨block, hblock, fun ttl senderSsrc now reports => ?_⟩, h.ne_nil, h.base, h.max,
    h.received, h.expected_eq, h.received⟩
  obtain ⟨hssrc, hhigh, hlost, hfraction⟩ := hread senderSsrc now
  have hlookup := lookup_handleRtcpReceiverReport ttl senderSsrc now reports hlength
  rw [hssrc] at hlookup
  refine ⟨_, hlookup, ?_, ?_, ?_⟩
  · rw [hhigh, h.max]
  · rw [hlost, h.expected_eq, h.received]
  · rw [hfraction, h.expected_eq, h.expectedPrior, h.received, h.receivedPrior]

/-! ## The account of a run -/

namespace ReportRun

/-- A run keeps account of an SSRC. -/
structure KeepsAccount (s : ReportRun) (ssrc : UInt32) : Prop where
  state : Accounts (s.client.rtcpReceiveReportStates.lookup ssrc) (s.arrivals ssrc) (s.prior ssrc)
  records : ∀ r ∈ s.records, r.ssrc = ssrc → ∃ block, r.block = some block ∧
    Tells ssrc block r.arrivals r.prior

/-- A block is made and recorded. -/
def make (s : ReportRun) (ssrc : UInt32) (state : RTCPReceiveReportState) (perfCounter : ℚ) :
    ReportRun :=
  let (client, block) := s.client.report ssrc state perfCounter
  { s with client }.record ssrc block

variable {s : ReportRun} {ssrc ssrc' : UInt32}

theorem KeepsAccount.make {state : RTCPReceiveReportState}
    (hrecords : ∀ r ∈ s.records, r.ssrc = ssrc → ∃ block, r.block = some block ∧
      Tells ssrc block r.arrivals r.prior)
    (hsame : ssrc' = ssrc → Accounted state (s.arrivals ssrc) (s.prior ssrc))
    (hother : ssrc' ≠ ssrc →
      Accounts (s.client.rtcpReceiveReportStates.lookup ssrc) (s.arrivals ssrc) (s.prior ssrc))
    (perfCounter : ℚ) : KeepsAccount (s.make ssrc' state perfCounter) ssrc := by
  rcases eq_or_ne ssrc' ssrc with rfl | hne
  · obtain ⟨hblock, hstate⟩ := (hsame rfl).report
      (s.client.rtcpSenderReportLsr.lookup ssrc') perfCounter ssrc'
    constructor
    · simp only [ReportRun.make, record, ReportClient.report, AList.lookup_set,
        Function.update_self]
      exact hstate
    · intro r hr hssrc
      rcases List.mem_append.1 hr with hr | hr
      · exact hrecords r hr hssrc
      · obtain rfl := List.mem_singleton.1 hr
        exact hblock
  · constructor
    · simp only [ReportRun.make, record, ReportClient.report, AList.lookup_set,
        if_neg hne.symm, Function.update_of_ne hne.symm]
      exact hother hne
    · intro r hr hssrc
      rcases List.mem_append.1 hr with hr | hr
      · exact hrecords r hr hssrc
      · obtain rfl := List.mem_singleton.1 hr
        exact absurd hssrc hne

/-- A packet is counted, and a block is made or not. -/
theorem step_packet (s : ReportRun) (ssrc : UInt32) (sequence : ℤ) (timestamp : UInt32)
    (receivedAt perfCounter : ℚ) :
    let state := s.client.received ssrc (wireSequence sequence) timestamp receivedAt
    let arrivals := Function.update s.arrivals ssrc (s.arrivals ssrc ++ [sequence])
    s.step (.packet ssrc sequence timestamp receivedAt perfCounter) = { s with
      client.rtcpReceiveReportStates := s.client.rtcpReceiveReportStates.set ssrc state
      arrivals } ∨
    s.step (.packet ssrc sequence timestamp receivedAt perfCounter) =
      { s with arrivals }.make ssrc { state with lastReportAt := receivedAt } perfCounter := by
  intro state arrivals
  rcases s.client.maybeSendVideoRtcpReceiverReport_spec ssrc (wireSequence sequence) timestamp
    receivedAt perfCounter with hclient | hclient
  · left
    simp only [step, hclient]
    rfl
  · right
    simp only [step, hclient, make, arrivals, state]

theorem step_report (s : ReportRun) (ssrc : UInt32) (perfCounter : ℚ) :
    s.step (.report ssrc perfCounter) =
      match s.client.rtcpReceiveReportStates.lookup ssrc with
      | none => s
      | some state => s.make ssrc state perfCounter :=
  rfl

theorem KeepsAccount.step (h : KeepsAccount s ssrc) (e : ReportEvent)
    (hnear : Near ((s.step e).arrivals ssrc)) : KeepsAccount (s.step e) ssrc := by
  cases e with
  | senderReport ssrc' payload perfCounter =>
    refine ⟨?_, h.records⟩
    have hstates : (s.client.handleRtcpSenderReport ssrc' payload
        perfCounter).rtcpReceiveReportStates = s.client.rtcpReceiveReportStates := by
      unfold ReportClient.handleRtcpSenderReport
      split <;> rfl
    simp only [ReportRun.step, hstates]
    exact h.state
  | report ssrc' perfCounter =>
    rw [step_report]
    cases hstate : s.client.rtcpReceiveReportStates.lookup ssrc' with
    | none => exact h
    | some state =>
      refine KeepsAccount.make h.records ?_ (fun _ => h.state) perfCounter
      rintro rfl
      have haccounts := h.state
      rw [hstate] at haccounts
      exact haccounts
  | packet ssrc' sequence timestamp receivedAt perfCounter =>
    have hsame : ssrc' = ssrc → Accounted
        (s.client.received ssrc' (wireSequence sequence) timestamp receivedAt)
        (s.arrivals ssrc ++ [sequence]) (s.prior ssrc) := by
      rintro rfl
      refine h.state.countPacket ?_ timestamp receivedAt
      rcases step_packet s ssrc' sequence timestamp receivedAt perfCounter with hstep | hstep
      · rw [hstep] at hnear
        simpa using hnear
      · rw [hstep] at hnear
        simpa [ReportRun.make, record] using hnear
    have hother : ssrc' ≠ ssrc →
        Function.update s.arrivals ssrc' (s.arrivals ssrc' ++ [sequence]) ssrc = s.arrivals ssrc :=
      fun hne => Function.update_of_ne hne.symm _ _
    rcases step_packet s ssrc' sequence timestamp receivedAt perfCounter with hstep | hstep
    · rw [hstep]
      refine ⟨?_, h.records⟩
      rcases eq_or_ne ssrc' ssrc with rfl | hne
      · simp only [AList.lookup_set, if_true, Function.update_self]
        exact hsame rfl
      · simp only [AList.lookup_set, if_neg hne.symm, hother hne]
        exact h.state
    · rw [hstep]
      refine KeepsAccount.make ?_ ?_ (fun hne => ?_) perfCounter
      · exact h.records
      · rintro rfl
        obtain ⟨hne, hbase, hmax, hreceived, hexpected, hprior⟩ := hsame rfl
        simp only [Function.update_self]
        exact ⟨hne, hbase, hmax, hreceived, hexpected, hprior⟩
      · simp only [hother hne]
        exact h.state

/-- What has arrived before a step is a beginning of what has behind it. -/
theorem near_of_step {e : ReportEvent} (hnear : Near ((s.step e).arrivals ssrc)) :
    Near (s.arrivals ssrc) := by
  cases e with
  | senderReport ssrc' payload perfCounter => exact hnear
  | report ssrc' perfCounter =>
    rw [step_report] at hnear
    cases hstate : s.client.rtcpReceiveReportStates.lookup ssrc' with
    | none => rwa [hstate] at hnear
    | some state => rwa [hstate] at hnear
  | packet ssrc' sequence timestamp receivedAt perfCounter =>
    have harrivals : Near (Function.update s.arrivals ssrc' (s.arrivals ssrc' ++ [sequence])
        ssrc) := by
      rcases step_packet s ssrc' sequence timestamp receivedAt perfCounter with hstep | hstep
      · rwa [hstep] at hnear
      · rwa [hstep] at hnear
    rcases eq_or_ne ssrc' ssrc with rfl | hne
    · rw [Function.update_self] at harrivals
      exact harrivals.of_concat
    · rwa [Function.update_of_ne hne.symm] at harrivals

end ReportRun

theorem keepsAccount_reportRun (interval : ℚ) (events : List ReportEvent) (ssrc : UInt32)
    (hnear : Near ((reportRun interval events).arrivals ssrc)) :
    (reportRun interval events).KeepsAccount ssrc := by
  induction events using List.reverseRecOn with
  | nil => exact ⟨⟨rfl, rfl⟩, by simp [reportRun]⟩
  | append_singleton events e ih =>
    rw [reportRun, List.foldl_append] at hnear ⊢
    exact (ih (ReportRun.near_of_step hnear)).step e hnear

/-- **What receiver reports say**: in every run in which the true sequence numbers of an SSRC are
near, its greatest one is tracked, and every block that is made of it tells of it: the greatest one
in 32 bits, what was lost of all that is expected, and the fraction of it since the last block. -/
theorem report_accounts (interval : ℚ) (events : List ReportEvent) (ssrc : UInt32)
    (hnear : Near ((reportRun interval events).arrivals ssrc)) :
    let s := reportRun interval events
    (s.arrivals ssrc ≠ [] → ∃ state,
      s.client.rtcpReceiveReportStates.lookup ssrc = some state ∧
      state.maxExtendedSequence = maxSequence (s.arrivals ssrc)) ∧
    ∀ r ∈ s.records, r.ssrc = ssrc → ∃ block, r.block = some block ∧
      Tells ssrc block r.arrivals r.prior := by
  intro s
  have haccount := keepsAccount_reportRun interval events ssrc hnear
  refine ⟨fun hne => ?_, haccount.records⟩
  have hstate := haccount.state
  cases hlookup : s.client.rtcpReceiveReportStates.lookup ssrc with
  | none =>
    rw [hlookup] at hstate
    exact absurd hstate.1 hne
  | some state =>
    rw [hlookup] at hstate
    exact ⟨state, rfl, hstate.max⟩

/-- The sequence number wraps behind the first packet, one is lost and one comes twice. -/
def wrapRun : List ReportEvent :=
  [.packet 1 65535 0 (1 / 2) 0, .packet 1 65537 3000 (3 / 5) 0, .packet 1 65537 3000 (7 / 10) 0,
    .packet 1 65538 6000 (4 / 5) 0, .packet 1 65541 9000 (3 / 2) (3 / 2)]

theorem near_wrapRun : Near ((reportRun 1 wrapRun).arrivals 1) := by
  have harrivals : (reportRun 1 wrapRun).arrivals 1 = [65535, 65537, 65537, 65538, 65541] := by
    decide +kernel
  rw [harrivals]
  exact ((((near_nil.concat 65535 (by decide)).concat 65537 (by decide)).concat 65537
    (by decide)).concat 65538 (by decide)).concat 65541 (by decide)

theorem report_accounts_wrapRun : ∃ r ∈ (reportRun 1 wrapRun).records,
    r.arrivals = [65535, 65537, 65537, 65538, 65541] ∧ ∃ block, r.block = some block ∧
      Tells 1 block r.arrivals r.prior := by
  obtain ⟨-, hrecords⟩ := report_accounts 1 wrapRun 1 near_wrapRun
  have hmem : { ssrc := 1
                block := some [0, 0, 0, 1, 73, 0, 0, 2, 0, 1, 0, 5, 0, 0, 19, 41, 0, 0, 0, 0, 0, 0,
                  0, 0]
                arrivals := [65535, 65537, 65537, 65538, 65541]
                prior := [] } ∈ (reportRun 1 wrapRun).records := by
    decide +kernel
  exact ⟨_, hmem, rfl, hrecords _ hmem rfl⟩

end NativeVoice.Receive
