import Mathlib.Data.List.Infix
import Mathlib.Data.Rat.Defs
import NativeVoice.Receive.Packet

/-!
# DAVE

What the receiver does about end-to-end encryption: `src/discord/ext/native_voice/dave.py`, and the
methods of `src/discord/ext/native_voice/client.py` that ask the DAVE session of the connection.

The session and the clock belong to the `Environment`. It answers as it likes, and every answer may
change those that follow.
-/

namespace NativeVoice.Receive

def DAVE_PENDING_VIDEO_MAX_FRAMES : ℕ := 128

def DAVE_PENDING_VIDEO_MAX_AGE : ℚ := 10

def DAVE_TAG_SIZE : ℕ := 8

def DAVE_SIZE_SIZE : ℕ := 1

def DAVE_MARKER : Bytes := [0xFA, 0xFA]

def DAVE_MARKER_SIZE : ℕ := DAVE_MARKER.length

def DAVE_MIN_SIZE : ℕ := DAVE_TAG_SIZE + DAVE_SIZE_SIZE + DAVE_MARKER_SIZE

/-! ## Encrypted frames -/

/-- The loop of `_read_leb128_uint64`, with `value` and `fill_bits`: the number and the bytes
behind it. -/
def readLeb128Loop (value fillBits : ℕ) : Bytes → Option (ℕ × Bytes)
  | [] => none
  | byte :: rest =>
    if fillBits < 64 - 7 then
      let value := value ||| (byte &&& 0x7F).toNat <<< fillBits
      if byte &&& 0x80 = 0 then some (value, rest) else readLeb128Loop value (fillBits + 7) rest
    else if byte ≤ 1 then some (value ||| byte.toNat <<< fillBits, rest)
    else none

/-- `_read_leb128_uint64`, of the bytes from `offset` to `end`. -/
def readLeb128Uint64 (buffer : Bytes) : Option (ℕ × Bytes) := readLeb128Loop 0 0 buffer

theorem length_readLeb128Loop {value fillBits n : ℕ} {buffer rest : Bytes}
    (h : readLeb128Loop value fillBits buffer = some (n, rest)) :
    rest.length < buffer.length := by
  induction buffer generalizing value fillBits with
  | nil => cases h
  | cons byte buffer ih =>
    simp only [readLeb128Loop] at h
    rw [List.length_cons]
    split at h
    · split at h
      · obtain ⟨-, rfl⟩ := Prod.mk.inj (Option.some.inj h)
        omega
      · exact (ih h).trans (Nat.lt_succ_self _)
    · split at h
      · obtain ⟨-, rfl⟩ := Prod.mk.inj (Option.some.inj h)
        omega
      · cases h

/-- `_valid_unencrypted_ranges`, of the bytes from `offset` to `end`. -/
def validUnencryptedRanges (frameSize previousEnd : ℕ) (buffer : Bytes) : Bool :=
  if buffer.isEmpty then true
  else match _h₁ : readLeb128Uint64 buffer with
    | none => false
    | some (rangeOffset, buffer₁) =>
      match _h₂ : readLeb128Uint64 buffer₁ with
      | none => false
      | some (rangeSize, buffer₂) =>
        let rangeEnd := rangeOffset + rangeSize
        if rangeOffset < previousEnd ∨ rangeEnd > frameSize then false
        else validUnencryptedRanges frameSize rangeEnd buffer₂
termination_by buffer.length
decreasing_by
  exact (length_readLeb128Loop _h₂).trans (length_readLeb128Loop _h₁)

def looksLikeDaveProtocolFrame (payload : Bytes) : Bool :=
  if payload.length < DAVE_MIN_SIZE then false
  else if ¬ DAVE_MARKER <:+ payload then false
  else
    let supplementalSize :=
      (payload.getD (payload.length - (DAVE_SIZE_SIZE + DAVE_MARKER_SIZE)) 0).toNat
    if supplementalSize < DAVE_MIN_SIZE ∨ supplementalSize > payload.length then false
    else
      let supplemental := payload.drop (payload.length - supplementalSize)
      let rangesEnd := supplementalSize - DAVE_SIZE_SIZE - DAVE_MARKER_SIZE
      if (supplemental.getD rangesEnd 0).toNat ≠ supplementalSize ∨
          supplemental.drop (rangesEnd + DAVE_SIZE_SIZE) ≠ DAVE_MARKER then false
      else match readLeb128Uint64 ((supplemental.take rangesEnd).drop DAVE_TAG_SIZE) with
        | none => false
        | some (_, ranges) => validUnencryptedRanges payload.length 0 ranges

/-! ## The session -/

/-- The message of an exception that `decrypt` raised. -/
abbrev DaveError := String

def isRetryableDaveDecryptError (message : DaveError) : Bool :=
  "NoValidCryptorFound".toList <:+: message.toList ∨
    "NoDecryptorForUser".toList <:+: message.toList

/-- The clock and what the connection says of its DAVE session: each answer with what becomes of the
environment. -/
structure Environment (σ : Type) where
  perfCounter : σ → ℚ × σ
  daveSession : σ → Bool × σ
  canEncrypt : σ → Bool × σ
  ready : σ → Bool × σ
  canPassthrough : ℕ → σ → Bool × σ
  decrypt : ℕ → MediaType → Bytes → σ → Except DaveError Bytes × σ

namespace Environment

variable {σ : Type} (env : Environment σ)

def canDecryptDave (userId : ℕ) (s : σ) : Bool × σ :=
  let (canEncrypt, s) := env.canEncrypt s
  if canEncrypt then (true, s)
  else
    let (daveSession, s) := env.daveSession s
    if !daveSession then (false, s)
    else
      let (ready, s) := env.ready s
      if !ready then (false, s) else env.canPassthrough userId s

def decryptVideoFrame (userId : Option ℕ) (payload : Bytes) (s : σ) :
    Except DaveError Bytes × σ :=
  let (daveSession, s) := env.daveSession s
  match userId with
  | none => (.ok payload, s)
  | some userId =>
    if !daveSession then (.ok payload, s)
    else
      let (canDecrypt, s) := env.canDecryptDave userId s
      if !canDecrypt then (.ok payload, s) else env.decrypt userId .video payload s

def canAttemptVideoDaveDecrypt (userId : Option ℕ) (s : σ) : Bool × σ :=
  let (daveSession, s) := env.daveSession s
  match userId with
  | none => (false, s)
  | some userId => if daveSession then env.canDecryptDave userId s else (false, s)

/-- What `decrypt_video_frame` can make of a frame: it is left as it is, or decrypted. -/
def Opens (frame payload : Bytes) : Prop :=
  payload = frame ∨ ∃ userId s, (env.decrypt userId .video frame s).1 = .ok payload

variable {env}

theorem opens_decryptVideoFrame {userId : Option ℕ} {frame payload : Bytes} {s : σ}
    (h : (env.decryptVideoFrame userId frame s).1 = .ok payload) : env.Opens frame payload := by
  unfold decryptVideoFrame at h
  cases userId with
  | none => exact .inl (Except.ok.inj h).symm
  | some userId =>
    dsimp only at h
    split at h
    · exact .inl (Except.ok.inj h).symm
    · split at h
      · exact .inl (Except.ok.inj h).symm
      · exact .inr ⟨_, _, h⟩

end Environment

end NativeVoice.Receive
