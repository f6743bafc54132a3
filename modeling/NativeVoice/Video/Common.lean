import Mathlib.Algebra.Order.Floor.Ring
import Mathlib.Data.Rat.Floor
import NativeVoice.Rtp.Packet

/-!
# The state shared by the video packetizers and depacketizers

`DepacketizerState` and `PacketizerState` of `src/src/video/common.rs`.

`increment_timestamp` computes in `f64`. The packetizers only need the whole ticks it advances by
and the remainder it carries over, so they take that arithmetic as a `TickClock`;
`TickClock.exact` is the computation of the source over the rationals.
-/

namespace NativeVoice.Video

def DEFAULT_MTU : ℕ := 1200

/-! ## Depacketizers -/

structure DepacketizerState where
  timestamp : Option UInt32 := none
  lastSequence : Option UInt16 := none
  discarding : Bool := false
  frame : Bytes := []
  deriving DecidableEq

namespace DepacketizerState

def reset (_st : DepacketizerState) (timestamp : UInt32) : DepacketizerState where
  timestamp := some timestamp
  lastSequence := none
  discarding := false
  frame := []

def discardFrame (st : DepacketizerState) : DepacketizerState :=
  { st with discarding := true, frame := [] }

def beginPacket (st : DepacketizerState) (sequence : UInt16) (timestamp : UInt32) :
    DepacketizerState :=
  let st := if st.timestamp ≠ some timestamp then st.reset timestamp
    else match st.lastSequence with
      | some lastSequence => if lastSequence + 1 ≠ sequence then st.discardFrame else st
      | none => st
  { st with lastSequence := some sequence }

def isDiscarding (st : DepacketizerState) : Bool := st.discarding

def finishFrame (st : DepacketizerState) : Option Bytes × DepacketizerState :=
  (if st.frame.isEmpty then none else some st.frame,
    { timestamp := none, lastSequence := none, discarding := false, frame := [] })

/-- `Ok(if ends { self.state.finish_frame() } else { None })`. -/
def finishIf (st : DepacketizerState) (ends : Bool) :
    Fallible PacketError (Option Bytes) × DepacketizerState :=
  if ends then (.ok st.finishFrame.1, st.finishFrame.2) else (.ok none, st)

end DepacketizerState

/-! ## Packetizers -/

/-- The arithmetic of `increment_timestamp`: from the duration of a frame and the remainder carried
so far, the whole ticks of the 90 kHz clock to advance by and the remainder to carry on. -/
structure TickClock (τ ρ : Type) where
  zero : ρ
  advance : τ → ρ → UInt32 × ρ

/-- `increment_timestamp` over the rationals; `none` is a duration that is not finite. -/
def TickClock.exact : TickClock (Option ℚ) ℚ where
  zero := 0
  advance frameTimeMs timestampRemainder :=
    let durationMs := match frameTimeMs with
      | some d => max d 0
      | none => 0
    let ticks := durationMs * 90 + timestampRemainder
    let wholeTicks := ⌊ticks + 1 / 10 ^ 9⌋
    let step := max 0 (min wholeTicks (2 ^ 32 - 1))
    (UInt32.ofNat step.toNat, ticks - wholeTicks)

structure PacketizerState (ρ : Type) where
  payloadType : UInt8
  ssrc : UInt32
  mtu : ℕ
  sequence : UInt16
  timestamp : UInt32
  timestampRemainder : ρ
  deriving DecidableEq

namespace PacketizerState

variable {τ ρ : Type}

/-- `PacketizerState::new`, with the two numbers that the source draws at random. -/
def new (clock : TickClock τ ρ) (ssrc : UInt32) (payloadType : UInt8) (sequence : UInt16)
    (timestamp : UInt32) : PacketizerState ρ where
  payloadType := payloadType
  ssrc := ssrc
  mtu := DEFAULT_MTU
  sequence := sequence
  timestamp := timestamp
  timestampRemainder := clock.zero

def nextSequence (st : PacketizerState ρ) : UInt16 × PacketizerState ρ :=
  (st.sequence + 1, { st with sequence := st.sequence + 1 })

def packetForPayload (st : PacketizerState ρ) (payload : Bytes) (marker : Bool) :
    MediaPacket × PacketizerState ρ :=
  let (sequence, st) := st.nextSequence
  ({ header := newHeader st.payloadType sequence st.timestamp st.ssrc marker false
     payload := payload
     marker := marker
     sequence := sequence
     timestamp := st.timestamp
     ssrc := st.ssrc
     payloadType := st.payloadType }, st)

/-- `packet_for_payload` on one payload after the other. -/
def packetsForPayloads (st : PacketizerState ρ) :
    List (Bytes × Bool) → List MediaPacket × PacketizerState ρ
  | [] => ([], st)
  | (payload, marker) :: rest =>
    let (packet, st) := st.packetForPayload payload marker
    let (packets, st) := st.packetsForPayloads rest
    (packet :: packets, st)

def incrementTimestamp (clock : TickClock τ ρ) (st : PacketizerState ρ) (frameTimeMs : τ) :
    PacketizerState ρ :=
  let (step, remainder) := clock.advance frameTimeMs st.timestampRemainder
  { st with timestampRemainder := remainder, timestamp := st.timestamp + step }

end PacketizerState

end NativeVoice.Video
