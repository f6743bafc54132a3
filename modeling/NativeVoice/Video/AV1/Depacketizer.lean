import NativeVoice.Video.AV1.Obu
import NativeVoice.Video.Common

/-!
# The AV1 depacketizer

`AV1Depacketizer` of `src/src/video/av1.rs`. A payload is an aggregation header and OBU elements:
each has its length in front of it, but for the last one if the header counts the elements. The
first element may continue an OBU and the last one may be continued.

The element counter is a `u8`.
-/

namespace NativeVoice.Video

structure AV1Depacketizer where
  state : DepacketizerState := {}
  obu : Bytes := []
  deriving DecidableEq

namespace AV1Depacketizer

def new : AV1Depacketizer := {}

def finishFrame (d : AV1Depacketizer) : Option Bytes × AV1Depacketizer :=
  (d.state.finishFrame.1, { state := d.state.finishFrame.2, obu := [] })

/-- `Ok(if marker { self.finish_frame() } else { None })`. -/
def finishIf (d : AV1Depacketizer) (marker : Bool) :
    Fallible PacketError (Option Bytes) × AV1Depacketizer :=
  if marker then (.ok d.finishFrame.1, d.finishFrame.2) else (.ok none, d)

def finishObu (b : Build) (d : AV1Depacketizer) (omitSize : Bool) :
    Fallible PacketError Unit × AV1Depacketizer :=
  if d.obu.isEmpty then (.ok (), d)
  else match rebuildObu b d.obu omitSize with
    | .error e => (.error e, d)
    | .ok rebuilt =>
      (.ok (), { state := { d.state with frame := d.state.frame ++ rebuilt }, obu := [] })

/-- The length of the element at `offset` and the offset of its bytes: `has_size` and what hangs on
it. -/
def elementExtent (b : Build) (payload : Bytes) (w elementIndex : UInt8) (offset : ℕ) :
    Fallible PacketError (ℕ × ℕ) :=
  if w = 0 ∨ elementIndex ≠ w then readSize b payload offset
  else .ok (payload.length - offset, offset)

/-- The element at `offset` and the offset behind it. -/
def readElement (b : Build) (payload : Bytes) (w elementIndex : UInt8) (offset : ℕ) :
    Fallible PacketError (Bytes × ℕ) := do
  let (elementLen, offset) ← elementExtent b payload w elementIndex offset
  let element ← slice payload offset (← b.addUsize offset elementLen)
  return (element, offset + elementLen)

theorem lt_of_readElement {b : Build} {payload element : Bytes} {w elementIndex : UInt8}
    {offset offset' : ℕ} (hlt : offset < payload.length)
    (h : readElement b payload w elementIndex offset = .ok (element, offset')) :
    offset < offset' := by
  obtain ⟨⟨len, offset₁⟩, hextent, h⟩ := bind_eq_ok.1 h
  obtain ⟨sum, _, h⟩ := bind_eq_ok.1 h
  obtain ⟨_, _, h⟩ := bind_eq_ok.1 h
  obtain ⟨-, rfl⟩ := Prod.mk.inj (Except.ok.inj h)
  unfold elementExtent at hextent
  split at hextent
  · have := (readSize_bounds hextent).1
    have := Lib.Leb128.size_pos len
    omega
  · obtain ⟨rfl, rfl⟩ := Prod.mk.inj (Except.ok.inj hextent)
    omega

/-- What a round of the loop over the elements comes to: a result that is returned at once, or the
element index and the offset of the next round. -/
inductive Round
  | returned (frame : Option Bytes)
  | next (elementIndex : UInt8) (offset : ℕ)
  deriving DecidableEq

/-- An element takes its place behind what there is of its OBU, which it finishes unless it is
continued in the next packet. -/
def takeElement (b : Build) (d : AV1Depacketizer) (element : Bytes)
    (continuesPrevious continuesNext omitSize marker : Bool) :
    Fallible PacketError (Option (Option Bytes)) × AV1Depacketizer :=
  if continuesPrevious && d.obu.isEmpty then
    match { d with state := d.state.discardFrame }.finishIf marker with
    | (.error e, d) => (.error e, d)
    | (.ok frame, d) => (.ok (some frame), d)
  else if !continuesPrevious && !d.obu.isEmpty then (.error (.err .invalidPayload), d)
  else
    let d := { d with obu := d.obu ++ element }
    if continuesNext then (.ok none, d)
    else match d.finishObu b omitSize with
      | (.error e, d) => (.error e, d)
      | (.ok _, d) => (.ok none, d)

/-- One round of the loop over the elements, for the one at `offset`. -/
def pushElement (b : Build) (payload : Bytes) (marker startsWithFragment endsWithFragment : Bool)
    (w : UInt8) (d : AV1Depacketizer) (elementIndex : UInt8) (offset : ℕ) :
    Fallible PacketError Round × AV1Depacketizer :=
  match b.incrU8 elementIndex with
  | .error e => (.error e, d)
  | .ok elementIndex =>
    match readElement b payload w elementIndex offset with
    | .error e => (.error e, d)
    | .ok (element, offset) =>
      let isFirstElement := elementIndex = 1
      let isLastElement := offset = payload.length
      match takeElement b d element (isFirstElement && startsWithFragment)
        (isLastElement && endsWithFragment) (marker && isLastElement) marker with
      | (.error e, d) => (.error e, d)
      | (.ok (some frame), d) => (.ok (.returned frame), d)
      | (.ok none, d) => (.ok (.next elementIndex offset), d)

theorem lt_of_pushElement {b : Build} {payload : Bytes}
    {marker startsWithFragment endsWithFragment : Bool} {w : UInt8} {d d' : AV1Depacketizer}
    {elementIndex elementIndex' : UInt8} {offset offset' : ℕ} (hlt : offset < payload.length)
    (h : pushElement b payload marker startsWithFragment endsWithFragment w d elementIndex offset =
      (.ok (.next elementIndex' offset'), d')) : offset < offset' := by
  unfold pushElement at h
  split at h
  · cases h
  · split at h
    · cases h
    · rename_i hread
      dsimp only at h
      split at h
      · cases h
      · cases h
      · obtain ⟨-, rfl⟩ := Round.next.inj (Except.ok.inj (Prod.mk.inj h).1)
        exact lt_of_readElement hlt hread

/-- What the loop over the elements comes to: the number of elements, or a result that is returned
at once. -/
inductive Elements
  | counted (elementIndex : UInt8)
  | returned (frame : Option Bytes)
  deriving DecidableEq

/-- The loop over the elements, from the one at `offset` on. -/
def pushElements (b : Build) (payload : Bytes) (marker startsWithFragment endsWithFragment : Bool)
    (w : UInt8) (d : AV1Depacketizer) (elementIndex : UInt8) (offset : ℕ) :
    Fallible PacketError Elements × AV1Depacketizer :=
  if _hlt : offset < payload.length then
    match _h : pushElement b payload marker startsWithFragment endsWithFragment w d elementIndex
      offset with
    | (.error e, d) => (.error e, d)
    | (.ok (.returned frame), d) => (.ok (.returned frame), d)
    | (.ok (.next elementIndex offset), d) =>
      pushElements b payload marker startsWithFragment endsWithFragment w d elementIndex offset
  else (.ok (.counted elementIndex), d)
termination_by payload.length - offset
decreasing_by
  have := lt_of_pushElement _hlt _h
  omega

def pushPayload (b : Build) (d : AV1Depacketizer) (payload : Bytes) (marker : Bool) :
    Fallible PacketError (Option Bytes) × AV1Depacketizer :=
  match payload with
  | [] => (.error (.err .invalidPayload), d)
  | aggregationHeader :: _ =>
    let startsWithFragment := aggregationHeader &&& 0x80 != 0
    let endsWithFragment := aggregationHeader &&& 0x40 != 0
    let w := aggregationHeader >>> 4 &&& 0x03
    if aggregationHeader &&& 0x08 != 0 && startsWithFragment then
      (.error (.err .invalidPayload), d)
    else match pushElements b payload marker startsWithFragment endsWithFragment w d 0 1 with
      | (.error e, d) => (.error e, d)
      | (.ok (.returned frame), d) => (.ok frame, d)
      | (.ok (.counted elementIndex), d) =>
        if w ≠ 0 ∧ elementIndex ≠ w then (.error (.err .invalidPayload), d)
        else if marker && endsWithFragment then (.error (.err .invalidPayload), d)
        else d.finishIf marker

def pushPacket (b : Build) (d : AV1Depacketizer) (payload : Bytes) (marker : Bool)
    (sequence : UInt16) (timestamp : UInt32) :
    Fallible PacketError (Option Bytes) × AV1Depacketizer :=
  if payload.isEmpty then (.error (.err .invalidPayload), d)
  else
    let d := { d with state := d.state.beginPacket sequence timestamp }
    if d.state.isDiscarding then d.finishIf marker
    else d.pushPayload b payload marker

end AV1Depacketizer

end NativeVoice.Video
