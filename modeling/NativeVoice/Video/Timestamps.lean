import Mathlib.Data.UInt
import Mathlib.Tactic.Linarith
import Mathlib.Tactic.Positivity
import NativeVoice.Video.Common

/-!
# The timestamps of a video stream

`increment_timestamp` of `src/src/video/common.rs` over many frames, in rational numbers. Every
frame advances the timestamp by whole ticks of the 90 kHz clock, and what is left is carried over to
the next one.

* `ticksOf` are the whole ticks of the durations of some frames together.
* `afterFrames_remainder`: what is carried is the difference, so that nothing is lost.
* `timestamps_do_not_drift`: the timestamp advances by the ticks of all frames together.
-/

namespace NativeVoice.Video

/-- What a duration counts: nothing if it is negative or not finite. -/
def countedMs : Option ℚ → ℚ
  | some d => max d 0
  | none => 0

theorem countedMs_nonneg (d : Option ℚ) : 0 ≤ countedMs d := by
  cases d with
  | none => exact le_rfl
  | some d => exact le_max_right d 0

/-- A frame: the payloads of its packets with their markers, and its duration. -/
structure TimedFrame where
  payloads : List (Bytes × Bool)
  frameTimeMs : Option ℚ

/-- The packets of some frames are made, each with the timestamp that is incremented behind them. -/
def afterFrames (st : PacketizerState ℚ) (frames : List TimedFrame) : PacketizerState ℚ :=
  frames.foldl (fun st frame => (st.packetsForPayloads frame.payloads).2.incrementTimestamp
    TickClock.exact frame.frameTimeMs) st

/-- 90 ticks for a millisecond. -/
def exactTicks (frames : List TimedFrame) : ℚ :=
  90 * (frames.map fun frame => countedMs frame.frameTimeMs).sum

def ticksOf (frames : List TimedFrame) : ℤ := ⌊exactTicks frames + 1 / 10 ^ 9⌋

theorem exactTicks_concat (frames : List TimedFrame) (frame : TimedFrame) :
    exactTicks (frames ++ [frame]) = exactTicks frames + countedMs frame.frameTimeMs * 90 := by
  rw [exactTicks, List.map_append, List.sum_append, List.map_singleton, List.sum_singleton,
    exactTicks]
  ring

theorem ticksOf_concat_le (frames : List TimedFrame) (frame : TimedFrame) :
    ticksOf frames ≤ ticksOf (frames ++ [frame]) := by
  have hcounted := countedMs_nonneg frame.frameTimeMs
  refine Int.floor_le_floor ?_
  rw [exactTicks_concat]
  linarith

theorem ticksOf_nil : ticksOf [] = 0 := by
  rw [ticksOf, Int.floor_eq_zero_iff]
  norm_num [exactTicks]

/-! ## One frame -/

/-- The packets of a frame leave the clock alone. -/
theorem packetsForPayloads_clock (st : PacketizerState ℚ) (payloads : List (Bytes × Bool)) :
    (st.packetsForPayloads payloads).2.timestamp = st.timestamp ∧
      (st.packetsForPayloads payloads).2.timestampRemainder = st.timestampRemainder := by
  induction payloads generalizing st with
  | nil => exact ⟨rfl, rfl⟩
  | cons payload payloads ih => exact ih (st.packetForPayload payload.1 payload.2).2

theorem afterFrames_concat (st : PacketizerState ℚ) (frames : List TimedFrame)
    (frame : TimedFrame) :
    afterFrames st (frames ++ [frame]) =
      ((afterFrames st frames).packetsForPayloads frame.payloads).2.incrementTimestamp
        TickClock.exact frame.frameTimeMs := by
  rw [afterFrames, List.foldl_append]
  rfl

/-- **The whole ticks of a frame** are those that it adds, if the remainder is what is left of the
frames before. -/
theorem exact_advance (frames : List TimedFrame) (frame : TimedFrame) :
    TickClock.exact.advance frame.frameTimeMs (exactTicks frames - ticksOf frames) =
      (UInt32.ofNat (max 0 (min (ticksOf (frames ++ [frame]) - ticksOf frames)
        (2 ^ 32 - 1))).toNat,
        exactTicks (frames ++ [frame]) - ticksOf (frames ++ [frame])) := by
  have hticks : countedMs frame.frameTimeMs * 90 + (exactTicks frames - ticksOf frames) =
      exactTicks (frames ++ [frame]) - ticksOf frames := by
    rw [exactTicks_concat]
    ring
  have hwhole : ⌊exactTicks (frames ++ [frame]) - ticksOf frames + 1 / 10 ^ 9⌋ =
      ticksOf (frames ++ [frame]) - ticksOf frames := by
    rw [sub_add_eq_add_sub, Int.floor_sub_intCast]
    rfl
  have hadvance : TickClock.exact.advance frame.frameTimeMs (exactTicks frames - ticksOf frames) =
      (UInt32.ofNat (max 0 (min ⌊countedMs frame.frameTimeMs * 90 +
          (exactTicks frames - ticksOf frames) + 1 / 10 ^ 9⌋ (2 ^ 32 - 1))).toNat,
        countedMs frame.frameTimeMs * 90 + (exactTicks frames - ticksOf frames) -
          ⌊countedMs frame.frameTimeMs * 90 + (exactTicks frames - ticksOf frames) +
            1 / 10 ^ 9⌋) := by
    cases frame.frameTimeMs <;> rfl
  rw [hadvance, hticks, hwhole, Int.cast_sub, sub_sub_sub_cancel_right]

/-! ## All frames -/

variable {st : PacketizerState ℚ}

/-- **What is carried** after some frames is what is left of their durations. -/
theorem afterFrames_remainder (hst : st.timestampRemainder = 0) (frames : List TimedFrame) :
    (afterFrames st frames).timestampRemainder = exactTicks frames - ticksOf frames := by
  induction frames using List.reverseRecOn with
  | nil =>
    rw [ticksOf_nil]
    simpa [exactTicks, afterFrames] using hst
  | append_singleton frames frame ih =>
    rw [afterFrames_concat, PacketizerState.incrementTimestamp,
      (packetsForPayloads_clock _ _).2, ih, exact_advance]

theorem remainder_bounds (hst : st.timestampRemainder = 0) (frames : List TimedFrame) :
    -(1 / 10 ^ 9) ≤ (afterFrames st frames).timestampRemainder ∧
      (afterFrames st frames).timestampRemainder < 1 - 1 / 10 ^ 9 := by
  have hle := Int.floor_le (exactTicks frames + 1 / 10 ^ 9)
  have hlt := Int.lt_floor_add_one (exactTicks frames + 1 / 10 ^ 9)
  rw [afterFrames_remainder hst, ticksOf]
  constructor <;> linarith

/-- The frames of a run each advance by less than the range of a timestamp. -/
def StepsFit (frames : List TimedFrame) : Prop :=
  ∀ n < frames.length, ticksOf (frames.take (n + 1)) - ticksOf (frames.take n) < 2 ^ 32

instance (frames : List TimedFrame) : Decidable (StepsFit frames) :=
  inferInstanceAs (Decidable (∀ n < frames.length, _))

theorem StepsFit.of_concat {frames : List TimedFrame} {frame : TimedFrame}
    (h : StepsFit (frames ++ [frame])) :
    StepsFit frames ∧ ticksOf (frames ++ [frame]) - ticksOf frames < 2 ^ 32 := by
  constructor
  · intro n hn
    have hstep := h n (by rw [List.length_append]; omega)
    rwa [List.take_append_of_le_length (by omega), List.take_append_of_le_length hn.le] at hstep
  · have hstep := h frames.length (by simp)
    rwa [List.take_left, List.take_of_length_le (by simp)] at hstep

/-- **Timestamps do not drift**: after any frames the timestamp has advanced by the whole ticks of
all their durations together, and what is carried stays within one tick. -/
theorem timestamps_do_not_drift (ssrc : UInt32) (payloadType : UInt8) (sequence : UInt16)
    (timestamp : UInt32) (frames : List TimedFrame) (hsteps : StepsFit frames) :
    let st := afterFrames (.new TickClock.exact ssrc payloadType sequence timestamp) frames
    (st.timestamp.toNat : ℤ) = (timestamp.toNat + ticksOf frames) % 2 ^ 32 ∧
      -(1 / 10 ^ 9) ≤ st.timestampRemainder ∧ st.timestampRemainder < 1 - 1 / 10 ^ 9 := by
  refine ⟨?_, remainder_bounds rfl frames⟩
  induction frames using List.reverseRecOn with
  | nil =>
    have hlt := timestamp.toNat_lt
    rw [ticksOf_nil, add_zero, Int.emod_eq_of_lt (by omega) (by exact_mod_cast hlt)]
    rfl
  | append_singleton frames frame ih =>
    obtain ⟨hfit, hlast⟩ := hsteps.of_concat
    have hle := ticksOf_concat_le frames frame
    have hrem := @afterFrames_remainder (.new TickClock.exact ssrc payloadType sequence timestamp)
      rfl frames
    rw [afterFrames_concat, PacketizerState.incrementTimestamp,
      (packetsForPayloads_clock _ _).2, hrem, exact_advance]
    dsimp only
    rw [(packetsForPayloads_clock _ _).1, UInt32.toNat_add, UInt32.toNat_ofNat']
    have ih := ih hfit
    omega

/-- Three frames, of a third of 100 ms and of no duration. -/
def thirds : List TimedFrame :=
  [⟨[([1], true)], some (100 / 3)⟩, ⟨[], some (100 / 3)⟩, ⟨[([2], true)], none⟩]

theorem timestamps_do_not_drift_thirds :
    let st := afterFrames (.new TickClock.exact 1 96 0 (2 ^ 32 - 1)) thirds
    (st.timestamp.toNat : ℤ) = (((2 ^ 32 - 1 : UInt32).toNat : ℤ) + ticksOf thirds) % 2 ^ 32 ∧
      -(1 / 10 ^ 9) ≤ st.timestampRemainder ∧ st.timestampRemainder < 1 - 1 / 10 ^ 9 :=
  timestamps_do_not_drift 1 96 0 (2 ^ 32 - 1) thirds (by decide +kernel)

end NativeVoice.Video
