import NativeVoice.Rtp.Parse

/-!
# Transport encryption

`TransportCrypto` of `src/src/transport/crypto.rs`: the two AEAD modes, the counter that gives the
nonces, and the layout of a protected packet.

The ciphers themselves come from crates; `Aead` is what they compute, and `Aead.Lawful` what the
code relies on: opening undoes sealing under the same key, nonce and associated data, and a sealed
message is 16 bytes longer.
-/

namespace NativeVoice

inductive TransportEncryptionMode
  | aeadXChaCha20Poly1305RtpSize
  | aeadAes256GcmRtpSize
  deriving DecidableEq

inductive CryptoError
  | invalidKeyLength (length : ℕ)
  | encryptFailed
  | decryptFailed
  deriving DecidableEq

/-- The ciphers: sealing and opening a message, with the key, the nonce and the associated data. -/
structure Aead where
  encrypt : TransportEncryptionMode → (key nonce aad msg : Bytes) → Option Bytes
  decrypt : TransportEncryptionMode → (key nonce aad msg : Bytes) → Option Bytes

structure Aead.Lawful (aead : Aead) : Prop where
  decrypt_encrypt : ∀ mode key nonce aad msg ciphertext,
    aead.encrypt mode key nonce aad msg = some ciphertext →
      aead.decrypt mode key nonce aad ciphertext = some msg
  length_encrypt : ∀ mode key nonce aad msg ciphertext,
    aead.encrypt mode key nonce aad msg = some ciphertext → ciphertext.length = msg.length + 16

/-! ## Nonces -/

def INITIAL_LITE_NONCE : UInt32 := 0x80000000

/-- `u32::to_le_bytes`. -/
def u32LeBytes (x : UInt32) : Bytes :=
  [x.toUInt8, (x >>> 8).toUInt8, (x >>> 16).toUInt8, (x >>> 24).toUInt8]

def makeXchachaNonce (value : UInt32) : Bytes := u32LeBytes value ++ List.replicate 20 0

def makeAesNonce (value : UInt32) : Bytes := u32LeBytes value ++ List.replicate 8 0

/-- `make_nonce_from_suffix::<n>`. -/
def makeNonceFromSuffix (n : ℕ) (suffix : Bytes) : Bytes := suffix ++ List.replicate (n - 4) 0

/-- The nonce that a mode makes of a counter value. -/
def makeNonce : TransportEncryptionMode → UInt32 → Bytes
  | .aeadXChaCha20Poly1305RtpSize => makeXchachaNonce
  | .aeadAes256GcmRtpSize => makeAesNonce

def nonceLength : TransportEncryptionMode → ℕ
  | .aeadXChaCha20Poly1305RtpSize => 24
  | .aeadAes256GcmRtpSize => 12

@[simp] theorem length_u32LeBytes (x : UInt32) : (u32LeBytes x).length = 4 := rfl

@[simp] theorem length_makeNonce (mode : TransportEncryptionMode) (value : UInt32) :
    (makeNonce mode value).length = nonceLength mode := by
  cases mode <;> rfl

/-- The receiver's nonce is the sender's. -/
theorem makeNonceFromSuffix_u32LeBytes (mode : TransportEncryptionMode) (value : UInt32) :
    makeNonceFromSuffix (nonceLength mode) (u32LeBytes value) = makeNonce mode value := by
  cases mode <;> rfl

theorem u32LeBytes_injective : Function.Injective u32LeBytes := by
  intro x y h
  simp only [u32LeBytes, List.cons.injEq, and_true] at h
  obtain ⟨h0, h1, h2, h3⟩ := h
  rw [← u32FromBe_u32BeBytes x, ← u32FromBe_u32BeBytes y, h0, h1, h2, h3]

/-- **Nonces differ** between modes, and within a mode between counter values. -/
theorem makeNonce_inj {mode mode' : TransportEncryptionMode} {value value' : UInt32} :
    makeNonce mode value = makeNonce mode' value' ↔ mode = mode' ∧ value = value' := by
  refine ⟨fun h => ?_, fun ⟨h, h'⟩ => by rw [h, h']⟩
  have hlen := congrArg List.length h
  rw [length_makeNonce, length_makeNonce] at hlen
  have hmode : mode = mode' := by
    cases mode <;> cases mode' <;> first | rfl | exact absurd hlen (by decide)
  subst hmode
  refine ⟨rfl, u32LeBytes_injective ?_⟩
  cases mode <;> exact (List.append_inj h rfl).1

/-! ## Packets -/

structure TransportCrypto where
  mode : TransportEncryptionMode
  key : Bytes
  nonce : UInt32
  deriving DecidableEq

namespace TransportCrypto

def new (mode : TransportEncryptionMode) (key : Bytes) : Except CryptoError TransportCrypto :=
  if key.length ≠ 32 then .error (.invalidKeyLength key.length)
  else .ok { mode := mode, key := key, nonce := INITIAL_LITE_NONCE }

variable (aead : Aead)

def encryptRtp (c : TransportCrypto) (header payload : Bytes) :
    Except CryptoError Bytes × TransportCrypto :=
  let nonceValue := c.nonce
  (match aead.encrypt c.mode c.key (makeNonce c.mode nonceValue) header payload with
    | none => .error .encryptFailed
    | some ciphertext => .ok (header ++ ciphertext ++ u32LeBytes nonceValue),
    { c with nonce := c.nonce + 1 })

def decryptPacket (c : TransportCrypto) (header encryptedPayload nonceSuffix : Bytes) :
    Except CryptoError Bytes :=
  match aead.decrypt c.mode c.key (makeNonceFromSuffix (nonceLength c.mode) nonceSuffix) header
    encryptedPayload with
  | none => .error .decryptFailed
  | some payload => .ok payload

def decryptRtp (c : TransportCrypto) (packet : RtpPacket) : Except CryptoError Bytes :=
  c.decryptPacket aead packet.header packet.encryptedPayload packet.nonceSuffix

variable {aead}

/-- What a packet looks like that was protected. -/
theorem encryptRtp_eq_ok {c : TransportCrypto} {header payload packet : Bytes} :
    (c.encryptRtp aead header payload).1 = .ok packet ↔
      ∃ ciphertext, aead.encrypt c.mode c.key (makeNonce c.mode c.nonce) header payload =
        some ciphertext ∧ header ++ ciphertext ++ u32LeBytes c.nonce = packet := by
  unfold encryptRtp
  cases h : aead.encrypt c.mode c.key (makeNonce c.mode c.nonce) header payload <;> simp [h]

/-- **Opening undoes sealing**, for a receiver with the mode and the key of the sender. -/
theorem decryptPacket_encrypt (haead : aead.Lawful) {tx rx : TransportCrypto}
    (hmode : rx.mode = tx.mode) (hkey : rx.key = tx.key) {header payload ciphertext : Bytes}
    (h : aead.encrypt tx.mode tx.key (makeNonce tx.mode tx.nonce) header payload =
      some ciphertext) :
    rx.decryptPacket aead header ciphertext (u32LeBytes tx.nonce) = .ok payload := by
  have hopen := haead.decrypt_encrypt _ _ _ _ _ _ h
  rw [decryptPacket, hmode, hkey, makeNonceFromSuffix_u32LeBytes, hopen]

end TransportCrypto

end NativeVoice
