import NativeVoice.Lib.Gaps
import NativeVoice.Lib.Transducer
import NativeVoice.Rtp.Packet

/-!
# Sender reports of audio

`send_audio_packet` of `src/discord/ext/native_voice/client.py`, which sends a sender report before
a packet in whose second of media time none was sent yet. The media time is that of the RTP
timestamp, which starts again at zero behind the end of its range: then every second is one in which
a report was sent already. A report that the socket does not take is dropped, and its second counts
as reported all the same.

* `ReportDue` tells from the timestamp which calls make a report, and `Scheduled` is what the state
  has to do with it.
* `reports_keep_coming_iff`: reports keep coming in a run, if and only if few packets come where the
  socket refuses reports or the timestamp has started again.
* `fewWhereMissed_iff_of_accepted`: where all reports are taken, that is so if and only if the run
  ends soon behind the report of the last second.
-/

namespace NativeVoice.Send

open Lib

def SAMPLING_RATE : ℕ := 48000
def SAMPLES_PER_FRAME : ℕ := 960

/-- What goes out: a sender report, or an audio packet. -/
inductive AudioEvent
  | senderReport (ssrc rtpTimestamp packetCount octetCount : ℕ)
  | packet (sequence timestamp : ℕ)
  deriving DecidableEq

def AudioEvent.isReport : AudioEvent → Bool
  | senderReport .. => true
  | packet .. => false

/-- A call with the data that is encoded, and whether the socket takes the report, if the call makes
one, and the packet. -/
structure AudioCall where
  encodedData : Bytes
  reportAccepted : Bool
  accepted : Bool

structure AudioSender where
  ssrc : ℕ
  sequence : ℕ := 0
  timestamp : ℕ := 0
  audioPacketCount : ℕ := 0
  audioOctetCount : ℕ := 0
  audioLastRtcpMediaTimeMs : Option ℕ := none

/-- `checked_add` of the base class. -/
def checkedAdd (attr value limit : ℕ) : ℕ := if limit < attr + value then 0 else attr + value

namespace AudioSender

/-- A report that the socket does not take is dropped, and counts as sent all the same. -/
def maybeSendAudioRtcpSenderReport (s : AudioSender) (rtpTimestamp : ℕ) (accepted : Bool) :
    List AudioEvent × AudioSender :=
  let mediaTimeMs := rtpTimestamp * 1000 / SAMPLING_RATE
  if s.audioLastRtcpMediaTimeMs.any fun last => mediaTimeMs / 1000 ≤ last / 1000 then ([], s)
  else
    (if accepted then
        [.senderReport s.ssrc rtpTimestamp s.audioPacketCount s.audioOctetCount]
      else [],
      { s with audioLastRtcpMediaTimeMs := some mediaTimeMs })

/-- A packet that the socket does not take is dropped, and the timestamp advances all the same. -/
def sendAudioPacket (s : AudioSender) (call : AudioCall) : List AudioEvent × AudioSender :=
  let s := { s with sequence := checkedAdd s.sequence 1 65535 }
  let rtpTimestamp := s.timestamp
  let (report, s) := s.maybeSendAudioRtcpSenderReport rtpTimestamp call.reportAccepted
  let (packet, s) :=
    if call.accepted then
      ([AudioEvent.packet s.sequence rtpTimestamp], { s with
        audioPacketCount := (s.audioPacketCount + 1) % 2 ^ 32
        audioOctetCount := (s.audioOctetCount + call.encodedData.length) % 2 ^ 32 })
    else ([], s)
  (report ++ packet, { s with timestamp := checkedAdd s.timestamp SAMPLES_PER_FRAME 4294967295 })

/-- What goes out in some calls. -/
def events (s : AudioSender) (calls : List AudioCall) : List AudioEvent :=
  (Transducer.outputs sendAudioPacket s calls).flatten

end AudioSender

/-- No more than 51 audio packets are sent in a row without a report. -/
def ReportsKeepComing (events : List AudioEvent) : Prop :=
  Gaps.Within 51 AudioEvent.isReport events

/-! ## One call -/

/-- The packet of a call, if the socket takes it. -/
def packetOf (s : AudioSender) (call : AudioCall) : List AudioEvent :=
  if call.accepted then [.packet (checkedAdd s.sequence 1 65535) s.timestamp] else []

namespace AudioSender

variable {s : AudioSender} {timestamp k : ℕ}

/-- The second of media time of the last report is not before that of the timestamp. -/
def Reported (s : AudioSender) : Prop :=
  ∃ last, s.audioLastRtcpMediaTimeMs = some last ∧ s.timestamp / SAMPLING_RATE ≤ last / 1000

theorem mediaTime_div (timestamp : ℕ) :
    timestamp * 1000 / SAMPLING_RATE / 1000 = timestamp / SAMPLING_RATE := by
  rw [SAMPLING_RATE]
  omega

/-- A call in a second that has its report only sends its packet. -/
theorem sendAudioPacket_of_reported (h : s.Reported) (call : AudioCall) :
    (s.sendAudioPacket call).1 = packetOf s call ∧
      (s.sendAudioPacket call).2.audioLastRtcpMediaTimeMs = s.audioLastRtcpMediaTimeMs ∧
      (s.sendAudioPacket call).2.timestamp =
        checkedAdd s.timestamp SAMPLES_PER_FRAME 4294967295 := by
  obtain ⟨last, hlast, hle⟩ := h
  have hskip : ({ s with sequence := checkedAdd s.sequence 1 65535 } :
      AudioSender).maybeSendAudioRtcpSenderReport s.timestamp call.reportAccepted =
        ([], { s with sequence := checkedAdd s.sequence 1 65535 }) := by
    rw [maybeSendAudioRtcpSenderReport]
    dsimp only
    rw [mediaTime_div, if_pos (by rw [hlast]; simpa using hle)]
  unfold sendAudioPacket packetOf
  dsimp only
  rw [hskip]
  cases call.accepted <;> exact ⟨rfl, rfl, rfl⟩

/-- Any other call makes a report before its packet, and the socket takes it or not. -/
theorem sendAudioPacket_of_not_reported (h : ¬s.Reported) (call : AudioCall) :
    ∃ report, (s.sendAudioPacket call).1 =
        (if call.reportAccepted then [report] else []) ++ packetOf s call ∧
      report.isReport = true ∧
      (s.sendAudioPacket call).2.audioLastRtcpMediaTimeMs =
        some (s.timestamp * 1000 / SAMPLING_RATE) ∧
      (s.sendAudioPacket call).2.timestamp =
        checkedAdd s.timestamp SAMPLES_PER_FRAME 4294967295 := by
  have hsend : ({ s with sequence := checkedAdd s.sequence 1 65535 } :
      AudioSender).maybeSendAudioRtcpSenderReport s.timestamp call.reportAccepted =
        (if call.reportAccepted then
            [.senderReport s.ssrc s.timestamp s.audioPacketCount s.audioOctetCount]
          else [],
          { s with
            sequence := checkedAdd s.sequence 1 65535
            audioLastRtcpMediaTimeMs := some (s.timestamp * 1000 / SAMPLING_RATE) }) := by
    rw [maybeSendAudioRtcpSenderReport]
    dsimp only
    rw [mediaTime_div, if_neg]
    intro hany
    obtain ⟨last, hlast, hle⟩ := (Option.any_eq_true ..).1 hany
    exact h ⟨last, hlast, by simpa using hle⟩
  refine ⟨.senderReport s.ssrc s.timestamp s.audioPacketCount s.audioOctetCount, ?_⟩
  unfold sendAudioPacket packetOf
  dsimp only
  rw [hsend]
  cases call.accepted <;> exact ⟨rfl, rfl, rfl, rfl⟩

/-! ## The calls that make a report -/

/-- The timestamp of call number `k` has not started again, and the call is the first one of the run
or of its second of media time. -/
def ReportDue (timestamp k : ℕ) : Prop :=
  timestamp + SAMPLES_PER_FRAME * k ≤ 4294967295 ∧
    (k = 0 ∨ (timestamp + SAMPLES_PER_FRAME * (k - 1)) / SAMPLING_RATE <
      (timestamp + SAMPLES_PER_FRAME * k) / SAMPLING_RATE)

instance (timestamp k : ℕ) : Decidable (ReportDue timestamp k) :=
  inferInstanceAs (Decidable (_ ∧ _))

/-- The second in which the range of the timestamp ends. -/
def lastSecond : ℕ := 4294967295 / SAMPLING_RATE

/-- The state in front of call number `k`: as long as the timestamp has not started again, the last
report was made in the second of the call before; behind that, in the last second. -/
structure Scheduled (timestamp k : ℕ) (s : AudioSender) : Prop where
  inRange : timestamp + SAMPLES_PER_FRAME * k ≤ 4294967295 →
    s.timestamp = timestamp + SAMPLES_PER_FRAME * k ∧
      (k = 0 → s.audioLastRtcpMediaTimeMs = none) ∧
      (0 < k → ∃ last, s.audioLastRtcpMediaTimeMs = some last ∧
        last / 1000 = (timestamp + SAMPLES_PER_FRAME * (k - 1)) / SAMPLING_RATE)
  behind : 4294967295 < timestamp + SAMPLES_PER_FRAME * k →
    s.timestamp ≤ 4294967295 ∧
      ∃ last, s.audioLastRtcpMediaTimeMs = some last ∧ lastSecond ≤ last / 1000

/-- A report is made in the calls in which it is due. -/
theorem Scheduled.reported_iff (h : Scheduled timestamp k s) :
    s.Reported ↔ ¬ReportDue timestamp k := by
  rw [ReportDue]
  rcases Nat.lt_or_ge 4294967295 (timestamp + SAMPLES_PER_FRAME * k) with hlt | hle
  · obtain ⟨htimestamp, last, hlast, hend⟩ := h.behind hlt
    refine iff_of_true ⟨last, hlast, ?_⟩ fun hdue => Nat.not_le.2 hlt hdue.1
    exact Nat.le_trans (Nat.div_le_div_right htimestamp) hend
  · obtain ⟨htimestamp, hnone, hsome⟩ := h.inRange hle
    rw [and_iff_right hle]
    rcases Nat.eq_zero_or_pos k with hzero | hpos
    · refine iff_of_false ?_ fun hdue => hdue (.inl hzero)
      rintro ⟨last, hlast, -⟩
      cases (hnone hzero).symm.trans hlast
    · obtain ⟨last, hlast, hsecond⟩ := hsome hpos
      rw [or_iff_right (Nat.ne_of_gt hpos), Nat.not_lt, ← hsecond, ← htimestamp]
      refine ⟨?_, fun hle => ⟨last, hlast, hle⟩⟩
      rintro ⟨last', hlast', hle⟩
      obtain rfl : last = last' := Option.some.inj (hlast.symm.trans hlast')
      exact hle

theorem checkedAdd_le (timestamp : ℕ) :
    checkedAdd timestamp SAMPLES_PER_FRAME 4294967295 ≤ 4294967295 := by
  unfold checkedAdd
  split <;> omega

/-- The second of the last report behind a call: that of the call, if its timestamp has not started
again. -/
theorem Scheduled.lastReport (h : Scheduled timestamp k s) (call : AudioCall) :
    ∃ last, (s.sendAudioPacket call).2.audioLastRtcpMediaTimeMs = some last ∧
      (timestamp + SAMPLES_PER_FRAME * k ≤ 4294967295 →
        last / 1000 = (timestamp + SAMPLES_PER_FRAME * k) / SAMPLING_RATE) ∧
      (4294967295 < timestamp + SAMPLES_PER_FRAME * k → lastSecond ≤ last / 1000) := by
  by_cases hreported : s.Reported
  · obtain ⟨-, hkeep, -⟩ := sendAudioPacket_of_reported hreported call
    obtain ⟨last, hlast, hle⟩ := hreported
    refine ⟨last, hkeep.trans hlast, fun hin => ?_, fun hout => ?_⟩
    · obtain ⟨htimestamp, hnone, hsome⟩ := h.inRange hin
      rcases Nat.eq_zero_or_pos k with hzero | hpos
      · cases (hnone hzero).symm.trans hlast
      · obtain ⟨last', hlast', hsecond⟩ := hsome hpos
        obtain rfl : last = last' := Option.some.inj (hlast.symm.trans hlast')
        rw [htimestamp] at hle
        refine Nat.le_antisymm ?_ hle
        rw [hsecond]
        exact Nat.div_le_div_right (Nat.add_le_add_left (Nat.mul_le_mul_left _ (k.sub_le 1)) _)
    · obtain ⟨-, last', hlast', hend⟩ := h.behind hout
      obtain rfl : last = last' := Option.some.inj (hlast.symm.trans hlast')
      exact hend
  · obtain ⟨-, -, -, hlast, -⟩ := sendAudioPacket_of_not_reported hreported call
    refine ⟨_, hlast, fun hin => ?_, fun hout => ?_⟩
    · rw [mediaTime_div, (h.inRange hin).1]
    · exact absurd (h.reported_iff.2 fun hdue => Nat.not_le.2 hout hdue.1) hreported

/-- **A call** leads to the state in front of the next one. -/
theorem Scheduled.step (h : Scheduled timestamp k s) (call : AudioCall) :
    Scheduled timestamp (k + 1) (s.sendAudioPacket call).2 := by
  obtain ⟨last, hlast, hin, hout⟩ := h.lastReport call
  have hnext : (s.sendAudioPacket call).2.timestamp =
      checkedAdd s.timestamp SAMPLES_PER_FRAME 4294967295 := by
    by_cases hreported : s.Reported
    · exact (sendAudioPacket_of_reported hreported call).2.2
    · obtain ⟨-, -, -, -, hnext⟩ := sendAudioPacket_of_not_reported hreported call
      exact hnext
  constructor
  · intro hle
    rw [Nat.mul_succ, ← Nat.add_assoc] at hle
    have hle' : timestamp + SAMPLES_PER_FRAME * k ≤ 4294967295 :=
      Nat.le_trans (Nat.le_add_right ..) hle
    refine ⟨?_, fun hzero => absurd hzero (Nat.succ_ne_zero k), fun _ => ⟨last, hlast, hin hle'⟩⟩
    rw [hnext, (h.inRange hle').1, checkedAdd, if_neg (Nat.not_lt.2 hle), Nat.mul_succ,
      Nat.add_assoc]
  · intro hlt
    refine ⟨hnext ▸ checkedAdd_le _, last, hlast, ?_⟩
    rcases Nat.lt_or_ge 4294967295 (timestamp + SAMPLES_PER_FRAME * k) with hlt' | hle
    · exact hout hlt'
    · -- the range ends in this frame
      rw [hin hle]
      simp only [lastSecond, SAMPLING_RATE, SAMPLES_PER_FRAME] at hlt ⊢
      omega

/-! ## Runs -/

theorem events_cons (s : AudioSender) (call : AudioCall) (calls : List AudioCall) :
    s.events (call :: calls) =
      (s.sendAudioPacket call).1 ++ (s.sendAudioPacket call).2.events calls := rfl

/-- The socket takes a report in this call. -/
def reportTaken (timestamp : ℕ) (call : AudioCall × ℕ) : Bool :=
  decide (ReportDue timestamp call.2) && call.1.reportAccepted

theorem isReport_packetOf (s : AudioSender) (call : AudioCall) :
    (packetOf s call).map AudioEvent.isReport = List.replicate call.accepted.toNat false := by
  unfold packetOf
  cases call.accepted <;> rfl

theorem isReport_sendAudioPacket (h : Scheduled timestamp k s) (call : AudioCall) :
    (s.sendAudioPacket call).1.map AudioEvent.isReport =
      List.replicate (reportTaken timestamp (call, k)).toNat true ++
        List.replicate call.accepted.toNat false := by
  have hreported := h.reported_iff
  by_cases hdue : ReportDue timestamp k
  · obtain ⟨report, hevents, hmark, -⟩ :=
      sendAudioPacket_of_not_reported (fun h => hreported.1 h hdue) call
    rw [hevents, List.map_append, isReport_packetOf, reportTaken, decide_eq_true hdue,
      Bool.true_and]
    cases call.reportAccepted with
    | true => exact congrArg (· :: _) hmark
    | false => rfl
  · obtain ⟨hevents, -⟩ := sendAudioPacket_of_reported (hreported.2 hdue) call
    rw [hevents, isReport_packetOf, reportTaken, decide_eq_false hdue]
    rfl

/-- **What goes out in a run**: in each call the report that is due, and the packet, if the socket
takes them. -/
theorem isReport_events (h : Scheduled timestamp k s) (calls : List AudioCall) :
    (s.events calls).map AudioEvent.isReport = (calls.zipIdx k).flatMap fun call =>
      List.replicate (reportTaken timestamp call).toNat true ++
        List.replicate call.1.accepted.toNat false := by
  induction calls generalizing k s with
  | nil => rfl
  | cons call calls ih =>
    rw [events_cons, List.map_append, isReport_sendAudioPacket h, ih (h.step call),
      List.zipIdx_cons, List.flatMap_cons]

/-- The report of this call is missed: it is due and the socket refuses it, or none is due because
the timestamp has started again. -/
def reportMissed (timestamp : ℕ) (call : AudioCall × ℕ) : Bool :=
  decide (ReportDue timestamp call.2) && !call.1.reportAccepted ||
    decide (4294967295 < timestamp + SAMPLES_PER_FRAME * call.2)

/-- Where some of the calls behind the first one miss their report, and in none of them the socket
takes one, it takes at most 51 packets. -/
def FewWhereMissed (timestamp : ℕ) (calls : List AudioCall) : Prop :=
  ∀ mid, mid <:+: calls.zipIdx → (∃ call ∈ mid.tail, reportMissed timestamp call = true) →
    (∀ call ∈ mid.tail, reportTaken timestamp call = false) → mid.countP (·.1.accepted) ≤ 51

/-- A second has 50 calls. -/
theorem exists_reportDue (h : timestamp + SAMPLES_PER_FRAME * (k + 50) ≤ 4294967295) :
    ∃ i, k < i ∧ i ≤ k + 50 ∧ ReportDue timestamp i := by
  simp only [SAMPLES_PER_FRAME] at h
  -- the first call that is not in the second of call `k`
  refine ⟨(((timestamp + 960 * k) / 48000 + 1) * 48000 - timestamp + 959) / 960, ?_, ?_, ?_⟩
  · omega
  · omega
  · simp only [ReportDue, SAMPLES_PER_FRAME, SAMPLING_RATE]
    omega

theorem eq_zipIdx_of_isInfix {calls : List AudioCall} {mid : List (AudioCall × ℕ)}
    (h : mid <:+: calls.zipIdx) :
    ∃ pre part post, calls = pre ++ part ++ post ∧ mid = part.zipIdx pre.length := by
  obtain ⟨front, back, heq⟩ := h
  obtain ⟨before, behind, rfl, hfront, rfl⟩ := List.zipIdx_eq_append_iff.1 heq.symm
  obtain ⟨pre, part, rfl, rfl, rfl⟩ := List.zipIdx_eq_append_iff.1 hfront.symm
  exact ⟨pre, part, behind, rfl, by rw [Nat.zero_add]⟩

/-- Every number behind the first one has its call. -/
theorem exists_mem_tail_zipIdx (calls : List AudioCall) {start : ℕ} (hk : start < k)
    (hk' : k < start + calls.length) :
    ∃ call ∈ calls, (call, k) ∈ (calls.zipIdx start).tail := by
  cases calls with
  | nil => exact absurd hk' (Nat.not_lt.2 hk.le)
  | cons first rest =>
    rw [List.length_cons] at hk'
    have hlt : k - (start + 1) < rest.length := by omega
    refine ⟨rest[k - (start + 1)], by simp, ?_⟩
    rw [List.zipIdx_cons, List.tail_cons]
    exact List.mk_mem_zipIdx_iff_le_and_getElem?_sub.2 ⟨hk, List.getElem?_eq_getElem hlt⟩

/-- **Where no report is missed**, no more than 50 calls come from one that is taken to the next. -/
theorem length_le_of_not_missed {calls : List AudioCall} {mid : List (AudioCall × ℕ)}
    (hmid : mid <:+: calls.zipIdx)
    (hmissed : ∀ call ∈ mid.tail, reportMissed timestamp call = false)
    (htaken : ∀ call ∈ mid.tail, reportTaken timestamp call = false) : mid.length ≤ 50 := by
  obtain ⟨pre, part, post, -, rfl⟩ := eq_zipIdx_of_isInfix hmid
  rw [List.length_zipIdx]
  by_contra hlong
  have hcall {k : ℕ} (hk : pre.length < k) (hk' : k ≤ pre.length + 50) :
      ∃ call : AudioCall, (call, k) ∈ (part.zipIdx pre.length).tail := by
    obtain ⟨call, -, hmem⟩ := exists_mem_tail_zipIdx part hk (by omega)
    exact ⟨call, hmem⟩
  have hrange : timestamp + SAMPLES_PER_FRAME * (pre.length + 50) ≤ 4294967295 := by
    obtain ⟨call, hmem⟩ := hcall (show pre.length < pre.length + 50 by omega) (Nat.le_refl _)
    have := hmissed _ hmem
    simp only [reportMissed, Bool.or_eq_false_iff, decide_eq_false_iff_not] at this
    exact Nat.not_lt.1 this.2
  obtain ⟨i, hi, hi', hdue⟩ := exists_reportDue hrange
  obtain ⟨call, hmem⟩ := hcall hi hi'
  have hfalse := hmissed _ hmem
  have hfalse' := htaken _ hmem
  rw [reportTaken, decide_eq_true hdue, Bool.true_and] at hfalse'
  rw [reportMissed, decide_eq_true hdue, Bool.true_and, hfalse'] at hfalse
  cases hfalse

/-- So it is enough to look at the calls in which reports are missed. -/
theorem FewWhereMissed.countP_le {calls : List AudioCall} {mid : List (AudioCall × ℕ)}
    (h : FewWhereMissed timestamp calls) (hmid : mid <:+: calls.zipIdx)
    (htaken : ∀ call ∈ mid.tail, reportTaken timestamp call = false) :
    mid.countP (·.1.accepted) ≤ 51 := by
  by_cases hmissed : ∃ call ∈ mid.tail, reportMissed timestamp call = true
  · exact h mid hmid hmissed htaken
  · have hnone : ∀ call ∈ mid.tail, reportMissed timestamp call = false := fun call hcall =>
      Bool.eq_false_iff.2 fun htrue => hmissed ⟨call, hcall, htrue⟩
    have hfifty := length_le_of_not_missed hmid hnone htaken
    exact List.countP_le_length.trans (hfifty.trans (by decide))

/-- **Reports keep coming** from any starting timestamp, if and only if the socket takes no more
than 51 packets in a row where it refuses the reports or the timestamp has started again. -/
theorem reports_keep_coming_iff (ssrc : ℕ) (timestamp : UInt32) (calls : List AudioCall) :
    ReportsKeepComing (events { ssrc, timestamp := timestamp.toNat } calls) ↔
      FewWhereMissed timestamp.toNat calls := by
  have hstart : Scheduled timestamp.toNat 0 { ssrc, timestamp := timestamp.toNat } := by
    have hlt := timestamp.toNat_lt
    refine ⟨fun _ => ⟨rfl, fun _ => rfl, fun h => absurd h (Nat.lt_irrefl 0)⟩, fun h => ?_⟩
    omega
  have hlength (mid : List (AudioCall × ℕ)) : (mid.flatMap fun call =>
      List.replicate call.1.accepted.toNat false).length = mid.countP (·.1.accepted) := by
    induction mid with
    | nil => rfl
    | cons call mid ih =>
      rw [List.flatMap_cons, List.length_append, List.length_replicate, ih, List.countP_cons,
        Nat.add_comm]
      cases call.1.accepted <;> rfl
  have hmarks (call : AudioCall × ℕ) :
      ∀ a ∈ List.replicate (reportTaken timestamp.toNat call).toNat true, id a = true :=
    fun _ ha => (List.mem_replicate.1 ha).2
  have hothers (call : AudioCall × ℕ) :
      ∀ a ∈ List.replicate call.1.accepted.toNat false, id a = false :=
    fun _ ha => (List.mem_replicate.1 ha).2
  have hmarks' (call : AudioCall × ℕ) :
      List.replicate (reportTaken timestamp.toNat call).toNat true = [] ↔
        reportTaken timestamp.toNat call = false := by
    cases reportTaken timestamp.toNat call <;> simp
  rw [ReportsKeepComing, ← Gaps.within_map, isReport_events hstart,
    Gaps.within_flatMap hmarks hothers]
  simp only [hlength, hmarks']
  exact ⟨fun h mid hmid _ htaken => h mid hmid htaken, fun h mid hmid htaken =>
    h.countP_le hmid htaken⟩

/-! ## A socket that takes all reports -/

/-- The calls from a timestamp on that come before the last second. -/
def callsBefore (timestamp : ℕ) : ℕ :=
  (lastSecond * SAMPLING_RATE - timestamp + (SAMPLES_PER_FRAME - 1)) / SAMPLES_PER_FRAME

/-- Behind the report of the last second there is no other. -/
theorem not_reportDue_of_lt (h : callsBefore timestamp < k) : ¬ReportDue timestamp k := by
  simp only [ReportDue, callsBefore, lastSecond, SAMPLES_PER_FRAME, SAMPLING_RATE] at h ⊢
  omega

/-- The last second has its report. -/
theorem reportDue_callsBefore (htimestamp : timestamp ≤ 4294967295) :
    ReportDue timestamp (callsBefore timestamp) := by
  simp only [ReportDue, callsBefore, lastSecond, SAMPLES_PER_FRAME, SAMPLING_RATE]
  omega

/-- A call before the last second has a timestamp in the range. -/
theorem le_of_le_callsBefore (h : k ≤ callsBefore timestamp) (htimestamp : timestamp ≤ 4294967295) :
    timestamp + SAMPLES_PER_FRAME * k ≤ 4294967295 := by
  simp only [callsBefore, lastSecond, SAMPLES_PER_FRAME, SAMPLING_RATE] at h ⊢
  omega

theorem countP_zipIdx (calls : List AudioCall) (k : ℕ) :
    (calls.zipIdx k).countP (·.1.accepted) = calls.countP AudioCall.accepted := by
  conv_rhs => rw [← List.zipIdx_map_fst k calls, List.countP_map]
  rfl

/-- **Where the socket takes every report**, no more than 51 packets come in a row without one, if
and only if the socket takes at most 51 from the first call on that is in the last second of the
range of the timestamp. -/
theorem fewWhereMissed_iff_of_accepted (htimestamp : timestamp ≤ 4294967295)
    {calls : List AudioCall} (haccepted : ∀ call ∈ calls, call.reportAccepted = true) :
    FewWhereMissed timestamp calls ↔
      (calls.drop (callsBefore timestamp)).countP AudioCall.accepted ≤ 51 := by
  constructor
  · intro h
    rcases Nat.lt_or_ge calls.length (callsBefore timestamp) with hshort | hlong
    · rw [List.drop_eq_nil_of_le hshort.le]
      exact Nat.zero_le _
    · have hsplit := congrArg List.zipIdx (List.take_append_drop (callsBefore timestamp) calls)
      rw [List.zipIdx_append, List.length_take_of_le hlong, Nat.zero_add] at hsplit
      rw [← countP_zipIdx _ (callsBefore timestamp)]
      refine h.countP_le (hsplit ▸ (List.suffix_append ..).isInfix) fun call hcall => ?_
      cases hrest : calls.drop (callsBefore timestamp) with
      | nil =>
        rw [hrest] at hcall
        cases hcall
      | cons first rest =>
        rw [hrest, List.zipIdx_cons, List.tail_cons] at hcall
        rw [reportTaken,
          decide_eq_false (not_reportDue_of_lt (List.le_snd_of_mem_zipIdx hcall)), Bool.false_and]
  · intro h mid hmid _ htaken
    obtain ⟨pre, part, post, rfl, rfl⟩ := eq_zipIdx_of_isInfix hmid
    rw [countP_zipIdx]
    -- no report is due in the calls behind the first one
    have hnone (k : ℕ) (hk : pre.length < k) (hk' : k < pre.length + part.length) :
        ¬ReportDue timestamp k := by
      obtain ⟨call, hcall, hmem⟩ := exists_mem_tail_zipIdx part hk hk'
      intro hdue
      have hfalse := htaken _ hmem
      rw [reportTaken, decide_eq_true hdue, haccepted call (by simp [hcall])] at hfalse
      cases hfalse
    rcases Nat.lt_or_ge pre.length (callsBefore timestamp) with hlt | hge
    · refine Nat.le_trans List.countP_le_length (Nat.not_lt.1 fun hlong => ?_)
      rcases Nat.lt_or_ge (callsBefore timestamp) (pre.length + part.length) with hin | hout
      · exact hnone _ hlt hin (reportDue_callsBefore htimestamp)
      · have hcalls : pre.length + 50 ≤ callsBefore timestamp := by omega
        obtain ⟨i, hi, hi', hdue⟩ := exists_reportDue (le_of_le_callsBefore hcalls htimestamp)
        exact hnone i hi (by omega) hdue
    · refine Nat.le_trans (List.Sublist.countP_le ?_) h
      rw [List.append_assoc, List.drop_append_of_le_length hge]
      exact ((List.sublist_append_left ..).trans (List.sublist_append_right ..))

/-- The 52 packets behind the report of the last second. -/
theorem not_reports_keep_coming : ¬∀ (ssrc : ℕ) (timestamp : UInt32) (calls : List AudioCall),
    ReportsKeepComing (events { ssrc, timestamp := timestamp.toNat } calls) := by
  intro h
  have hlong :=
    h 1 4294944000 (List.replicate 52 ⟨[0], true, true⟩) _ (List.drop_suffix 1 _).isInfix
    (by decide)
  exact absurd hlong (by decide)

end AudioSender

end NativeVoice.Send
