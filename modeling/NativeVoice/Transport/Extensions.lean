import NativeVoice.Transport.Crypto

/-!
# RTP header extensions

The header extensions of `src/src/python/transport.rs`: the elements that the senders build, and the
parsers of the receiver.

* `buildVideoExtensionPayload_eq`: the payload is the elements of `videoExtensions`, one after the
  other, and padding up to a multiple of four bytes.
* `parseOneByteExtensions_encode`: the parser finds exactly the elements, in their order.
-/

namespace NativeVoice

/-- The exceptions that the Rust functions raise in Python. -/
inductive PyErr
  | valueError (message : String)
  | osError (message : String)
  | runtimeError (message : String)
  deriving DecidableEq

def PyErr.toString : PyErr → String
  | valueError message => "ValueError: " ++ message
  | osError message => "OSError: " ++ message
  | runtimeError message => "RuntimeError: " ++ message

namespace Transport

def RTP_ONE_BYTE_EXTENSION_PROFILE : Bytes := [0xBE, 0xDE]
def RTP_EXT_TRANSMISSION_OFFSET : UInt8 := 2
def RTP_EXT_ABS_SEND_TIME : UInt8 := 3
def RTP_EXT_VIDEO_ORIENTATION : UInt8 := 4
def RTP_EXT_TRANSPORT_SEQUENCE_NUMBER : UInt8 := 5
def RTP_EXT_PLAYOUT_DELAY : UInt8 := 6
def RTP_EXT_VIDEO_CONTENT_TYPE : UInt8 := 7
def RTP_EXT_VIDEO_TIMING : UInt8 := 8
def RTP_EXT_MEDIA_STREAM_TYPE : UInt8 := 10
def RTP_EXT_RID : UInt8 := 11
def RTP_EXT_REPAIRED_RID : UInt8 := 12

/-! ## Building -/

/-- `str::bytes`. -/
def strBytes (value : String) : Bytes := value.toUTF8.data.toList

def rtpExtensionString (value fallback : String) : Bytes :=
  let encoded := ((strBytes value).filter (· < 128)).take 16
  if encoded ≠ [] then encoded else (strBytes fallback).take (min (strBytes fallback).length 16)

/-- `abs_send_time`, given the clock: the seconds in units of `2⁻¹⁸`, modulo 64 seconds. -/
def absSendTime (now : UInt32) : Bytes :=
  let value := now &&& 0xFFFFFF
  [((value >>> 16) &&& 0xFF).toUInt8, ((value >>> 8) &&& 0xFF).toUInt8, (value &&& 0xFF).toUInt8]

def pushOneByteExtension (payload : Bytes) (id : UInt8) (data : Bytes) : Except PyErr Bytes :=
  if ¬ (1 ≤ id ∧ id ≤ 14) then
    .error (.valueError s!"RTP extension ID must be in [1, 14], got {id}")
  else if data.isEmpty ∨ data.length > 16 then
    .error (.valueError s!"RTP extension data length must be in [1, 16], got {data.length}")
  else .ok (payload ++ (id <<< 4 ||| UInt8.ofNat (data.length - 1)) :: data)

def buildVideoExtensionPayload (transportSequence : UInt16) (rid mediaStreamType : String)
    (repaired : Bool) (now : UInt32) : Except PyErr Bytes := do
  let payload ← pushOneByteExtension [] RTP_EXT_TRANSMISSION_OFFSET [0, 0, 0]
  let payload ← pushOneByteExtension payload RTP_EXT_ABS_SEND_TIME (absSendTime now)
  let payload ← pushOneByteExtension payload RTP_EXT_VIDEO_ORIENTATION [0]
  let payload ← pushOneByteExtension payload RTP_EXT_TRANSPORT_SEQUENCE_NUMBER
    (u16BeBytes transportSequence)
  let payload ← pushOneByteExtension payload RTP_EXT_PLAYOUT_DELAY [0, 0, 0]
  let payload ← pushOneByteExtension payload RTP_EXT_VIDEO_CONTENT_TYPE
    [if mediaStreamType = "screen" then 1 else 0]
  let payload ← pushOneByteExtension payload RTP_EXT_VIDEO_TIMING (List.replicate 13 0)
  let payload ← pushOneByteExtension payload RTP_EXT_MEDIA_STREAM_TYPE
    (rtpExtensionString mediaStreamType "video")
  let payload ← if repaired then
      pushOneByteExtension payload RTP_EXT_REPAIRED_RID (rtpExtensionString rid "100")
    else pushOneByteExtension payload RTP_EXT_RID (rtpExtensionString rid "100")
  let padding := (4 - payload.length % 4) % 4
  return payload ++ List.replicate padding 0

def headerWithOneByteExtensions (header extensionPayload : Bytes) : Except PyErr Bytes :=
  if header.length < 12 then .error (.valueError "RTP header must be at least 12 bytes")
  else .ok ((header.take 12).modify 0 (· ||| 0x10) ++ RTP_ONE_BYTE_EXTENSION_PROFILE ++
    u16BeBytes (UInt16.ofNat (extensionPayload.length / 4)))

/-! ## Parsing -/

/-- The loop of `parse_one_byte_extensions`, over the bytes from `index` on. -/
def parseOneByteExtensions : Bytes → List (UInt8 × Bytes)
  | [] => []
  | header :: rest =>
    if header = 0 then parseOneByteExtensions rest
    else
      let extensionId := header >>> 4
      if extensionId = 15 then []
      else
        let length := (header &&& 0x0F).toNat + 1
        if length > rest.length then []
        else (extensionId, rest.take length) :: parseOneByteExtensions (rest.drop length)
termination_by payload => payload.length
decreasing_by
  · simp
  · simp only [List.length_drop, List.length_cons]
    omega

/-- The loop of `parse_two_byte_extensions`, over the bytes from `index` on. -/
def parseTwoByteExtensions : Bytes → List (UInt8 × Bytes)
  | [] => []
  | extensionId :: rest =>
    if extensionId = 0 then parseTwoByteExtensions rest
    else match rest with
      | [] => []
      | length :: data =>
        if length.toNat > data.length then []
        else (extensionId, data.take length.toNat) ::
          parseTwoByteExtensions (data.drop length.toNat)
termination_by payload => payload.length
decreasing_by
  · simp
  · simp only [List.length_drop, List.length_cons]
    omega

def parseRtpExtensions (profile : UInt16) (payload : Bytes) : List (UInt8 × Bytes) :=
  if profile = 0xBEDE then parseOneByteExtensions payload
  else if profile &&& 0xFFF0 = 0x1000 then parseTwoByteExtensions payload
  else []

/-! ## Elements -/

/-- An element of a one-byte header extension: an id that is neither padding nor reserved, and up to
16 bytes. -/
def IsElement (e : UInt8 × Bytes) : Prop := 1 ≤ e.1 ∧ e.1 ≤ 14 ∧ e.2 ≠ [] ∧ e.2.length ≤ 16

theorem IsElement.mk' (id : UInt8) {data : Bytes} (hid : 1 ≤ id ∧ id ≤ 14)
    (hdata : data ≠ [] ∧ data.length ≤ 16) : IsElement (id, data) :=
  ⟨hid.1, hid.2, hdata.1, hdata.2⟩

/-- An element with its header byte. -/
def encodeElement (e : UInt8 × Bytes) : Bytes :=
  (e.1 <<< 4 ||| UInt8.ofNat (e.2.length - 1)) :: e.2

theorem elementHeader_bits {id : UInt8} (hlo : 1 ≤ id) (hhi : id ≤ 14) {k : ℕ} (hk : k < 16) :
    (id <<< 4 ||| UInt8.ofNat k) ≠ 0 ∧ (id <<< 4 ||| UInt8.ofNat k) >>> 4 = id ∧
      ((id <<< 4 ||| UInt8.ofNat k) &&& 0x0F).toNat = k := by
  have h : ∀ i < 15, ∀ k < 16, 1 ≤ i →
      (UInt8.ofNat i <<< 4 ||| UInt8.ofNat k) ≠ 0 ∧
        (UInt8.ofNat i <<< 4 ||| UInt8.ofNat k) >>> 4 = UInt8.ofNat i ∧
        ((UInt8.ofNat i <<< 4 ||| UInt8.ofNat k) &&& 0x0F).toNat = k := by decide
  have hid := h id.toNat (Nat.lt_succ_of_le hhi) k hk hlo
  rwa [UInt8.ofNat_toNat] at hid

theorem pushOneByteExtension_of_isElement {e : UInt8 × Bytes} (h : IsElement e) (payload : Bytes) :
    pushOneByteExtension payload e.1 e.2 = .ok (payload ++ encodeElement e) := by
  obtain ⟨hlo, hhi, hne, hlen⟩ := h
  rw [pushOneByteExtension, if_neg (not_not.2 ⟨hlo, hhi⟩),
    if_neg (by simpa [hne] using Nat.not_lt.2 hlen)]
  rfl

theorem parseOneByteExtensions_padding (n : ℕ) :
    parseOneByteExtensions (List.replicate n 0) = [] := by
  induction n with
  | zero => simp [parseOneByteExtensions]
  | succ n ih => simp [List.replicate_succ, parseOneByteExtensions, ih]

theorem parseOneByteExtensions_cons {e : UInt8 × Bytes} (h : IsElement e) (rest : Bytes) :
    parseOneByteExtensions (encodeElement e ++ rest) = e :: parseOneByteExtensions rest := by
  obtain ⟨hlo, hhi, hne, hlen⟩ := h
  have hpos := List.length_pos_iff.2 hne
  obtain ⟨hz, hid, hcount⟩ := elementHeader_bits hlo hhi (k := e.2.length - 1) (by omega)
  have hreserved : e.1 ≠ 15 := by
    rintro heq
    rw [heq] at hhi
    exact absurd hhi (by decide)
  rw [encodeElement, List.cons_append, parseOneByteExtensions, if_neg hz, hid]
  dsimp only
  rw [if_neg hreserved, hcount, Nat.sub_add_cancel hpos, if_neg (by simp), List.take_left,
    List.drop_left]

/-- **The parser finds the elements**, in their order, and nothing in the padding. -/
theorem parseOneByteExtensions_encode {es : List (UInt8 × Bytes)} (h : ∀ e ∈ es, IsElement e)
    (n : ℕ) :
    parseOneByteExtensions (es.flatMap encodeElement ++ List.replicate n 0) = es := by
  induction es with
  | nil => exact parseOneByteExtensions_padding n
  | cons e es ih =>
    rw [List.flatMap_cons, List.append_assoc, parseOneByteExtensions_cons (h e (by simp)),
      ih fun e he => h e (by simp [he])]

/-! ## The elements of a video packet -/

/-- What `build_video_extension_payload` pushes. -/
def videoExtensions (transportSequence : UInt16) (rid mediaStreamType : String) (repaired : Bool)
    (now : UInt32) : List (UInt8 × Bytes) :=
  [(RTP_EXT_TRANSMISSION_OFFSET, [0, 0, 0]),
    (RTP_EXT_ABS_SEND_TIME, absSendTime now),
    (RTP_EXT_VIDEO_ORIENTATION, [0]),
    (RTP_EXT_TRANSPORT_SEQUENCE_NUMBER, u16BeBytes transportSequence),
    (RTP_EXT_PLAYOUT_DELAY, [0, 0, 0]),
    (RTP_EXT_VIDEO_CONTENT_TYPE, [if mediaStreamType = "screen" then 1 else 0]),
    (RTP_EXT_VIDEO_TIMING, List.replicate 13 0),
    (RTP_EXT_MEDIA_STREAM_TYPE, rtpExtensionString mediaStreamType "video"),
    (if repaired then RTP_EXT_REPAIRED_RID else RTP_EXT_RID, rtpExtensionString rid "100")]

theorem rtpExtensionString_bounds (value fallback : String)
    (h : strBytes fallback ≠ []) :
    rtpExtensionString value fallback ≠ [] ∧ (rtpExtensionString value fallback).length ≤ 16 := by
  unfold rtpExtensionString
  dsimp only
  split
  · rename_i hne
    exact ⟨hne, List.length_take_le _ _⟩
  · refine ⟨?_, Nat.le_trans (List.length_take_le _ _) (Nat.min_le_right _ _)⟩
    have := List.length_pos_iff.2 h
    rw [← List.length_pos_iff, List.length_take]
    omega

theorem isElement_videoExtensions (transportSequence : UInt16) (rid mediaStreamType : String)
    (repaired : Bool) (now : UInt32) :
    ∀ e ∈ videoExtensions transportSequence rid mediaStreamType repaired now, IsElement e := by
  have hmedia := rtpExtensionString_bounds mediaStreamType "video" (by decide)
  have hrid := rtpExtensionString_bounds rid "100" (by decide)
  intro e he
  simp only [videoExtensions, List.mem_cons, List.not_mem_nil, or_false] at he
  rcases he with rfl | rfl | rfl | rfl | rfl | rfl | rfl | rfl | rfl
  · exact .mk' _ (by decide) (by decide)
  · exact .mk' _ (by decide) ⟨List.cons_ne_nil _ _, Nat.le_of_ble_eq_true rfl⟩
  · exact .mk' _ (by decide) (by decide)
  · exact .mk' _ (by decide) ⟨List.cons_ne_nil _ _, Nat.le_of_ble_eq_true rfl⟩
  · exact .mk' _ (by decide) (by decide)
  · exact .mk' _ (by decide) ⟨List.cons_ne_nil _ _, Nat.le_of_ble_eq_true rfl⟩
  · exact .mk' _ (by decide) (by decide)
  · exact .mk' _ (by decide) hmedia
  · cases repaired
    · exact .mk' RTP_EXT_RID (by decide) hrid
    · exact .mk' RTP_EXT_REPAIRED_RID (by decide) hrid

/-- The payload of the elements `es`, padded to a multiple of four bytes. -/
def extensionPayload (es : List (UInt8 × Bytes)) : Bytes :=
  es.flatMap encodeElement ++ List.replicate ((4 - (es.flatMap encodeElement).length % 4) % 4) 0

theorem length_extensionPayload (es : List (UInt8 × Bytes)) :
    (extensionPayload es).length / 4 * 4 = (extensionPayload es).length := by
  rw [extensionPayload, List.length_append, List.length_replicate]
  omega

theorem length_extensionPayload_le {es : List (UInt8 × Bytes)} (h : ∀ e ∈ es, IsElement e) :
    (extensionPayload es).length ≤ 17 * es.length + 3 := by
  have hsum : (es.flatMap encodeElement).length ≤ 17 * es.length := by
    induction es with
    | nil => simp
    | cons e es ih =>
      have hes := ih fun e he => h e (by simp [he])
      have he := (h e (by simp)).2.2.2
      rw [List.flatMap_cons, List.length_append, List.length_cons, encodeElement, List.length_cons]
      omega
  rw [extensionPayload, List.length_append, List.length_replicate]
  omega

/-- **Building never fails**, and the payload holds the elements. -/
theorem buildVideoExtensionPayload_eq (transportSequence : UInt16) (rid mediaStreamType : String)
    (repaired : Bool) (now : UInt32) :
    buildVideoExtensionPayload transportSequence rid mediaStreamType repaired now =
      .ok (extensionPayload
        (videoExtensions transportSequence rid mediaStreamType repaired now)) := by
  have h := isElement_videoExtensions transportSequence rid mediaStreamType repaired now
  simp only [videoExtensions, List.forall_mem_cons, List.not_mem_nil, false_implies, implies_true,
    and_true] at h
  obtain ⟨h2, h3, h4, h5, h6, h7, h8, h10, hrid⟩ := h
  cases repaired
  all_goals
    simp only [Bool.false_eq_true, if_false, if_true] at hrid
    simp only [buildVideoExtensionPayload, pushOneByteExtension_of_isElement h2,
      pushOneByteExtension_of_isElement h3, pushOneByteExtension_of_isElement h4,
      pushOneByteExtension_of_isElement h5, pushOneByteExtension_of_isElement h6,
      pushOneByteExtension_of_isElement h7, pushOneByteExtension_of_isElement h8,
      pushOneByteExtension_of_isElement h10, pushOneByteExtension_of_isElement hrid]
    simp [bind, Except.bind, pure, Except.pure, extensionPayload, videoExtensions]

end Transport

end NativeVoice
