import Mathlib.Data.List.Chain
import Mathlib.Data.List.Induction
import Mathlib.Tactic.Linarith
import NativeVoice.Receive.ReceiverReports

/-!
# The jitter of a stream and its clock

`_maybe_send_video_rtcp_receiver_report` takes the time of arrival less the timestamp of a packet,
which has 32 bits, without reducing the result. So the jitter does not depend on the clock alone: a
timestamp that wraps counts as a jump back of the whole range.

* `jitter_shift_iff`: when adding a constant to all timestamps leaves the jitter as it is.
-/

namespace NativeVoice.Receive

/-- A packet as it arrives. -/
structure Arrival where
  sequence : UInt16
  timestamp : UInt32
  receivedAt : ℚ
  perfCounter : ℚ

namespace Arrival

def transit (p : Arrival) : ℤ := transitOf p.timestamp p.receivedAt

/-- The packet on a clock that is ahead by `c`. -/
def shift (c : UInt32) (p : Arrival) : Arrival := { p with timestamp := p.timestamp + c }

/-- The timestamp wraps when `c` is added to it. -/
def Wraps (c : UInt32) (p : Arrival) : Prop := 2 ^ 32 ≤ p.timestamp.toNat + c.toNat

instance (c : UInt32) (p : Arrival) : Decidable (p.Wraps c) :=
  inferInstanceAs (Decidable (_ ≤ _))

/-- Adding `c` leaves the distance of two packets as it is: both timestamps wrap or neither does, or
the distance is half of the range and the wrap turns it around. -/
def KeepsDistance (c : UInt32) (q p : Arrival) : Prop :=
  (q.Wraps c ↔ p.Wraps c) ∨
  (¬q.Wraps c ∧ p.Wraps c ∧ p.transit - q.transit = -2 ^ 31) ∨
  (q.Wraps c ∧ ¬p.Wraps c ∧ p.transit - q.transit = 2 ^ 31)

instance (c : UInt32) (q p : Arrival) : Decidable (KeepsDistance c q p) :=
  inferInstanceAs (Decidable (_ ∨ _))

theorem transit_shift (c : UInt32) (p : Arrival) : (p.shift c).transit =
    p.transit - c.toNat + if p.Wraps c then 2 ^ 32 else 0 := by
  have hp := p.timestamp.toNat_lt
  have hc := c.toNat_lt
  simp only [transit, shift, transitOf, UInt32.toNat_add]
  by_cases hwraps : p.Wraps c
  · rw [if_pos hwraps]
    unfold Wraps at hwraps
    omega
  · rw [if_neg hwraps]
    unfold Wraps at hwraps
    omega

theorem keepsDistance_iff (c : UInt32) (q p : Arrival) : KeepsDistance c q p ↔
    |(p.shift c).transit - (q.shift c).transit| = |p.transit - q.transit| := by
  rw [transit_shift, transit_shift, abs_eq_abs, KeepsDistance]
  by_cases hq : q.Wraps c <;> by_cases hp : p.Wraps c <;> simp [hq, hp] <;> omega

end Arrival

/-! ## The jitter of a run -/

/-- The client after the packets of an SSRC. -/
def receiveAll (interval : ℚ) (ssrc : UInt32) (packets : List Arrival) : ReportClient :=
  packets.foldl (fun c p => (c.maybeSendVideoRtcpReceiverReport ssrc p.sequence p.timestamp
    p.receivedAt p.perfCounter).1) { rtcpReceiverReportInterval := interval }

/-- The jitter that is estimated after the packets. -/
def jitterAfter (interval : ℚ) (ssrc : UInt32) (packets : List Arrival) : Option ℚ :=
  ((receiveAll interval ssrc packets).rtcpReceiveReportStates.lookup ssrc).map (·.jitter)

section

variable (interval : ℚ) (ssrc : UInt32)

/-- One more packet, whether or not a block is made. -/
theorem lookup_receiveAll_concat (packets : List Arrival) (p : Arrival) : ∃ state,
    (receiveAll interval ssrc (packets ++ [p])).rtcpReceiveReportStates.lookup ssrc =
      some state ∧
    state.transit = some p.transit ∧
    state.jitter =
      ((receiveAll interval ssrc packets).received ssrc p.sequence p.timestamp p.receivedAt).jitter
        := by
  rw [receiveAll, List.foldl_append, ← receiveAll, List.foldl_cons, List.foldl_nil]
  rcases (receiveAll interval ssrc packets).maybeSendVideoRtcpReceiverReport_spec ssrc p.sequence
    p.timestamp p.receivedAt p.perfCounter with hclient | hclient
  · rw [hclient]
    exact ⟨_, (AList.lookup_set _ _ _ _).trans (if_pos rfl), rfl, rfl⟩
  · rw [hclient]
    exact ⟨_, (AList.lookup_set _ _ _ _).trans (if_pos rfl), rfl, rfl⟩

theorem jitterAfter_singleton (p : Arrival) : jitterAfter interval ssrc [p] = some 0 := by
  obtain ⟨state, hlookup, -, hjitter⟩ := lookup_receiveAll_concat interval ssrc [] p
  rw [List.nil_append] at hlookup
  rw [jitterAfter, hlookup, Option.map_some, hjitter]
  rfl

theorem jitterAfter_concat (packets : List Arrival) (q p : Arrival) : ∃ jitter,
    jitterAfter interval ssrc (packets ++ [q]) = some jitter ∧
    jitterAfter interval ssrc (packets ++ [q] ++ [p]) =
      some (jitter + (|p.transit - q.transit| - jitter) / 16) := by
  obtain ⟨before, hbefore, htransit, -⟩ := lookup_receiveAll_concat interval ssrc packets q
  obtain ⟨state, hlookup, -, hjitter⟩ := lookup_receiveAll_concat interval ssrc (packets ++ [q]) p
  refine ⟨before.jitter, by rw [jitterAfter, hbefore, Option.map_some], ?_⟩
  rw [jitterAfter, hlookup, Option.map_some, hjitter, ReportClient.received, hbefore]
  simp only [updateJitter, countPacket, htransit, Arrival.transit]

end

/-! ## The clock -/

/-- Adding `c` to all timestamps leaves the jitter after every packet as it is. -/
def JitterUnchanged (interval : ℚ) (ssrc c : UInt32) (packets : List Arrival) : Prop :=
  ∀ pre, pre <+: packets → jitterAfter interval ssrc (pre.map (Arrival.shift c)) =
    jitterAfter interval ssrc pre

/-- One more packet leaves it so, if the distance to the last one stays. -/
theorem jitterAfter_shift_iff {interval : ℚ} {ssrc c : UInt32} {packets : List Arrival}
    {q p : Arrival} (h : jitterAfter interval ssrc ((packets ++ [q]).map (Arrival.shift c)) =
      jitterAfter interval ssrc (packets ++ [q])) :
    jitterAfter interval ssrc ((packets ++ [q] ++ [p]).map (Arrival.shift c)) =
      jitterAfter interval ssrc (packets ++ [q] ++ [p]) ↔ Arrival.KeepsDistance c q p := by
  obtain ⟨jitter, hjitter, hnext⟩ := jitterAfter_concat interval ssrc packets q p
  obtain ⟨jitter', hjitter', hnext'⟩ := jitterAfter_concat interval ssrc
    (packets.map (Arrival.shift c)) (q.shift c) (p.shift c)
  simp only [List.map_append, List.map_cons, List.map_nil] at h ⊢
  rw [hjitter, hjitter'] at h
  obtain rfl := Option.some.inj h
  rw [hnext, hnext', Option.some.injEq, Arrival.keepsDistance_iff]
  constructor
  · intro heq
    have hcast : ((|(p.shift c).transit - (q.shift c).transit| : ℤ) : ℚ) =
        (|p.transit - q.transit| : ℤ) := by linarith
    exact_mod_cast hcast
  · intro heq
    rw [heq]

/-- **The jitter on another clock**: adding a constant to all timestamps of a run leaves the jitter
after every packet as it is if and only if it leaves the distance of any two successive packets as
it is. -/
theorem jitter_shift_iff (interval : ℚ) (ssrc c : UInt32) (packets : List Arrival) :
    JitterUnchanged interval ssrc c packets ↔ packets.IsChain (Arrival.KeepsDistance c) := by
  induction packets using List.reverseRecOn with
  | nil =>
    refine ⟨fun _ => .nil, fun _ pre hpre => ?_⟩
    rw [List.prefix_nil.1 hpre]
    rfl
  | append_singleton packets p ih =>
    have hsplit : JitterUnchanged interval ssrc c (packets ++ [p]) ↔
        JitterUnchanged interval ssrc c packets ∧
        jitterAfter interval ssrc ((packets ++ [p]).map (Arrival.shift c)) =
          jitterAfter interval ssrc (packets ++ [p]) := by
      simp only [JitterUnchanged, List.prefix_concat_iff, or_imp, forall_and, forall_eq]
      exact and_comm
    rw [hsplit, ih, List.isChain_append]
    refine and_congr_right fun hchain => ?_
    rcases List.eq_nil_or_concat packets with rfl | ⟨packets, q, rfl⟩
    · simp [jitterAfter_singleton]
    · rw [List.concat_eq_append] at hchain ih ⊢
      rw [jitterAfter_shift_iff (ih.2 hchain _ (List.prefix_refl _))]
      simp

/-- Two packets that are 3000 units apart on the wire and in time. -/
def twoFrames : List Arrival :=
  [{ sequence := 0, timestamp := 0, receivedAt := 0, perfCounter := 0 },
    { sequence := 1, timestamp := 3000, receivedAt := 1 / 30, perfCounter := 1 / 30 }]

/-- **The jitter depends on the clock**: the two packets have none, but it is 2 ^ 28 on a clock that
wraps between them. -/
theorem not_jitterUnchanged : ¬∀ (interval : ℚ) (ssrc c : UInt32) (packets : List Arrival),
    JitterUnchanged interval ssrc c packets := by
  intro h
  have hunchanged := h 1 1 (-1) twoFrames twoFrames (List.prefix_refl _)
  exact absurd hunchanged (by decide +kernel)

end NativeVoice.Receive
