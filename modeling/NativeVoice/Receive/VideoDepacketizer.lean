import NativeVoice.Receive.Packet
import NativeVoice.Video.AV1.Elements
import NativeVoice.Video.H264
import NativeVoice.Video.H265
import NativeVoice.Video.VP8
import NativeVoice.Video.VP9

/-!
# The depacketizers of the receiver

The receiver has a depacketizer for every SSRC and payload type, which
`_make_video_depacketizer` of `src/discord/ext/native_voice/client.py` makes for the codec.

* `pushPacket_ok`: after a packet that it accepts, a depacketizer is as new, or still on the frame
  of the packet.
-/

namespace NativeVoice.Receive

open Video

inductive VideoDepacketizer
  | av1 (d : AV1Depacketizer)
  | h264 (d : H264Depacketizer)
  | h265 (d : H265Depacketizer)
  | vp8 (d : VP8Depacketizer)
  | vp9 (d : VP9Depacketizer)
  deriving DecidableEq

namespace VideoDepacketizer

/-- `_VIDEO_DEPACKETIZER_FACTORIES`. -/
def factories (codec : String) : Option VideoDepacketizer :=
  if codec = "AV1" then some (.av1 .new)
  else if codec = "H264" then some (.h264 H264Depacketizer.new)
  else if codec = "H265" then some (.h265 H265Depacketizer.new)
  else if codec = "VP8" then some (.vp8 VP8Depacketizer.new)
  else if codec = "VP9" then some (.vp9 VP9Depacketizer.new)
  else none

/-- A new depacketizer of the same codec. -/
def renew : VideoDepacketizer → VideoDepacketizer
  | av1 _ => .av1 .new
  | h264 _ => .h264 H264Depacketizer.new
  | h265 _ => .h265 H265Depacketizer.new
  | vp8 _ => .vp8 VP8Depacketizer.new
  | vp9 _ => .vp9 VP9Depacketizer.new

/-- The timestamp of the frame that is put together. -/
def timestamp : VideoDepacketizer → Option UInt32
  | av1 d => d.state.timestamp
  | h264 d => d.timestamp
  | h265 d => d.timestamp
  | vp8 d => d.timestamp
  | vp9 d => d.timestamp

def pushPacket (b : Build) (d : VideoDepacketizer) (payload : Bytes) (marker : Bool)
    (sequence : UInt16) (timestamp : UInt32) :
    Fallible PacketError (Option Bytes) × VideoDepacketizer :=
  match d with
  | av1 d =>
    let (frame, d) := d.pushPacket b payload marker sequence timestamp
    (frame, .av1 d)
  | h264 d =>
    let (frame, d) := H264Depacketizer.pushPacket d payload marker sequence timestamp
    (frame, .h264 d)
  | h265 d =>
    let (frame, d) := H265Depacketizer.pushPacket d payload marker sequence timestamp
    (frame, .h265 d)
  | vp8 d =>
    let (frame, d) := VP8Depacketizer.pushPacket d payload marker sequence timestamp
    (frame, .vp8 d)
  | vp9 d =>
    let (frame, d) := VP9Depacketizer.pushPacket d payload marker sequence timestamp
    (frame, .vp9 d)

theorem renew_of_factories {codec : String} {d : VideoDepacketizer}
    (h : factories codec = some d) : d.renew = d := by
  unfold factories at h
  split_ifs at h <;> cases h <;> rfl

@[simp] theorem renew_renew (d : VideoDepacketizer) : d.renew.renew = d.renew := by
  cases d <;> rfl

@[simp] theorem renew_pushPacket (b : Build) (d : VideoDepacketizer) (payload : Bytes)
    (marker : Bool) (sequence : UInt16) (timestamp : UInt32) :
    (d.pushPacket b payload marker sequence timestamp).2.renew = d.renew := by
  cases d <;> rfl

end VideoDepacketizer

/-! ## Accepted packets -/

/-- What a depacketizer comes to with a packet that it accepts: it has finished a frame and is as
new, or it is on the frame of the packet, which is not marked. -/
def Settles {δ : Type} (new : δ) (timestamp : δ → Option UInt32) (marker : Bool) (t : UInt32)
    (frame : Option Bytes) (d : δ) : Prop :=
  d = new ∨ frame = none ∧ marker = false ∧ timestamp d = some t

section DepacketizerState

variable {st st' : DepacketizerState} {frame : Option Bytes} {marker ends : Bool} {t : UInt32}

theorem settles_finishIf (st : DepacketizerState) (ht : st.timestamp = some t)
    (hends : marker = true → ends = true) (h : st.finishIf ends = (.ok frame, st')) :
    Settles {} DepacketizerState.timestamp marker t frame st' := by
  cases ends with
  | true =>
    obtain ⟨-, rfl⟩ := Prod.mk.inj h
    exact .inl rfl
  | false =>
    obtain ⟨hframe, rfl⟩ := Prod.mk.inj h
    exact .inr ⟨(Except.ok.inj hframe).symm,
      Bool.eq_false_iff.2 fun hm => by simp [hm] at hends, ht⟩

@[simp] theorem timestamp_beginPacket (st : DepacketizerState) (sequence : UInt16) (t : UInt32) :
    (st.beginPacket sequence t).timestamp = some t := by
  unfold DepacketizerState.beginPacket
  by_cases ht : st.timestamp = some t
  · cases st.lastSequence with
    | none => simp [ht]
    | some n => by_cases hn : n + 1 = sequence <;> simp [DepacketizerState.discardFrame, ht, hn]
  · simp [DepacketizerState.reset, ht]

/-- The three branches that end with `finish_frame` at the end of a frame. -/
theorem settles_fragment (ends : Bool) {opens : Bool} {data : Fallible PacketError Bytes}
    (ht : st.timestamp = some t) (hends : marker = true → ends = true)
    (h : (if st.isDiscarding then st.finishIf ends
      else if opens then st.discardFrame.finishIf ends
      else match data with
        | .error e => (.error e, st)
        | .ok data => { st with frame := st.frame ++ data }.finishIf ends) = (.ok frame, st')) :
    Settles {} DepacketizerState.timestamp marker t frame st' := by
  split_ifs at h
  · exact settles_finishIf st ht hends h
  · exact settles_finishIf st.discardFrame ht hends h
  · cases data with
    | error e => cases h
    | ok data => exact settles_finishIf { st with frame := st.frame ++ data } ht hends h

theorem settles_push (R : PayloadReader) (st : DepacketizerState) (payload : Bytes)
    (sequence : UInt16) (h : R.push st payload marker sequence t = (.ok frame, st')) :
    Settles {} DepacketizerState.timestamp marker t frame st' := by
  unfold PayloadReader.push at h
  split_ifs at h with hlen
  · cases h
  have ht := timestamp_beginPacket st sequence t
  generalize st.beginPacket sequence t = st at h ht
  unfold DepacketizerState.absorb at h
  dsimp only at h
  split_ifs at h
  · exact settles_finishIf st ht id h
  · exact settles_finishIf st.discardFrame ht id h
  · split at h
    · cases h
    · exact settles_finishIf { st with frame := st.frame ++ (R.read payload).body } ht id h

end DepacketizerState

section AV1

variable {b : Build} {d d' : AV1Depacketizer} {frame : Option Bytes} {marker : Bool} {t : UInt32}

theorem settles_finishIf_av1 (ht : d.state.timestamp = some t)
    (h : d.finishIf marker = (.ok frame, d')) :
    Settles .new (fun d => d.state.timestamp) marker t frame d' := by
  cases marker with
  | true =>
    obtain ⟨-, rfl⟩ := Prod.mk.inj h
    exact .inl rfl
  | false =>
    obtain ⟨hframe, rfl⟩ := Prod.mk.inj h
    exact .inr ⟨(Except.ok.inj hframe).symm, rfl, ht⟩

theorem timestamp_finishObu {omitSize : Bool}
    (h : d.finishObu b omitSize = (.ok (), d')) : d'.state.timestamp = d.state.timestamp := by
  unfold AV1Depacketizer.finishObu at h
  split at h
  · obtain ⟨-, rfl⟩ := Prod.mk.inj h
    rfl
  · split at h
    · cases h
    · obtain ⟨-, rfl⟩ := Prod.mk.inj h
      rfl

variable {element payload : Bytes} {continuesPrevious continuesNext omitSize z y : Bool} {w : UInt8}

/-- An element does not leave the frame, or the result is returned at once. -/
theorem settles_takeElement {r : Option (Option Bytes)} (ht : d.state.timestamp = some t)
    (h : d.takeElement b element continuesPrevious continuesNext omitSize marker = (.ok r, d')) :
    (r = none ∧ d'.state.timestamp = some t) ∨ ∃ frame, r = some frame ∧
      Settles .new (fun d => d.state.timestamp) marker t frame d' := by
  unfold AV1Depacketizer.takeElement at h
  split_ifs at h
  · split at h
    · cases h
    · rename_i frame d₁ hfinish
      obtain ⟨hr, rfl⟩ := Prod.mk.inj h
      exact .inr ⟨frame, (Except.ok.inj hr).symm,
        settles_finishIf_av1 (d := { d with state := d.state.discardFrame }) ht hfinish⟩
  · cases h
  · obtain ⟨hr, rfl⟩ := Prod.mk.inj h
    exact .inl ⟨(Except.ok.inj hr).symm, ht⟩
  · dsimp only at h
    split at h
    · cases h
    · rename_i d₁ hobu
      obtain ⟨hr, rfl⟩ := Prod.mk.inj h
      exact .inl ⟨(Except.ok.inj hr).symm, (timestamp_finishObu hobu).trans ht⟩

/-- A round does not leave the frame, or the result is returned at once. -/
theorem settles_pushElement {elementIndex : UInt8} {offset : ℕ} {r : AV1Depacketizer.Round}
    (ht : d.state.timestamp = some t)
    (h : d.pushElement b payload marker z y w elementIndex offset = (.ok r, d')) :
    ((∃ i o, r = .next i o) ∧ d'.state.timestamp = some t) ∨ ∃ frame, r = .returned frame ∧
      Settles .new (fun d => d.state.timestamp) marker t frame d' := by
  unfold AV1Depacketizer.pushElement at h
  split at h
  · cases h
  · split at h
    · cases h
    · dsimp only at h
      split at h
      · cases h
      all_goals
        rename_i htake
        obtain ⟨hr, rfl⟩ := Prod.mk.inj h
        obtain ⟨hnone, ht⟩ | ⟨frame, hsome, hsettles⟩ := settles_takeElement ht htake
      · cases hnone
      · obtain rfl := Option.some.inj hsome
        exact .inr ⟨_, (Except.ok.inj hr).symm, hsettles⟩
      · exact .inl ⟨⟨_, _, (Except.ok.inj hr).symm⟩, ht⟩
      · cases hsome

/-- The loop over the elements does not leave the frame, or the result is returned at once. -/
theorem settles_pushElements {r : AV1Depacketizer.Elements} {elementIndex : UInt8} {offset : ℕ}
    (ht : d.state.timestamp = some t)
    (h : d.pushElements b payload marker z y w elementIndex offset = (.ok r, d')) :
    ((∃ i, r = .counted i) ∧ d'.state.timestamp = some t) ∨ ∃ frame, r = .returned frame ∧
      Settles .new (fun d => d.state.timestamp) marker t frame d' := by
  induction d, elementIndex, offset using
    AV1Depacketizer.pushElements.induct b payload marker z y w with
  | case1 d elementIndex offset hlt e d₁ hpush =>
    rw [AV1Depacketizer.pushElements_of_error hlt hpush] at h
    cases h
  | case2 d elementIndex offset hlt frame d₁ hpush =>
    rw [AV1Depacketizer.pushElements_of_returned hlt hpush] at h
    obtain ⟨hr, rfl⟩ := Prod.mk.inj h
    obtain ⟨⟨_, _, hnext⟩, -⟩ | ⟨frame, hreturned, hsettles⟩ := settles_pushElement ht hpush
    · cases hnext
    · obtain rfl := AV1Depacketizer.Round.returned.inj hreturned
      exact .inr ⟨_, (Except.ok.inj hr).symm, hsettles⟩
  | case3 d elementIndex offset hlt elementIndex' offset' d₁ hpush ih =>
    rw [AV1Depacketizer.pushElements_of_next hlt hpush] at h
    obtain ⟨-, ht⟩ | ⟨_, hreturned, -⟩ := settles_pushElement ht hpush
    · exact ih ht h
    · cases hreturned
  | case4 d elementIndex offset hge =>
    rw [AV1Depacketizer.pushElements_of_end (by omega)] at h
    obtain ⟨hr, rfl⟩ := Prod.mk.inj h
    exact .inl ⟨⟨_, (Except.ok.inj hr).symm⟩, ht⟩

theorem settles_pushPayload (ht : d.state.timestamp = some t)
    (h : d.pushPayload b payload marker = (.ok frame, d')) :
    Settles .new (fun d => d.state.timestamp) marker t frame d' := by
  cases payload with
  | nil => cases h
  | cons header rest =>
    unfold AV1Depacketizer.pushPayload at h
    dsimp only at h
    split at h
    · cases h
    split at h
    · cases h
    · rename_i hpush
      obtain ⟨hframe, rfl⟩ := Prod.mk.inj h
      obtain rfl := Except.ok.inj hframe
      obtain ⟨⟨_, hcounted⟩, -⟩ | ⟨_, hreturned, hsettles⟩ := settles_pushElements ht hpush
      · cases hcounted
      · obtain rfl := AV1Depacketizer.Elements.returned.inj hreturned
        exact hsettles
    · rename_i hpush
      split at h
      · cases h
      split at h
      · cases h
      obtain ⟨-, ht⟩ | ⟨_, hreturned, -⟩ := settles_pushElements ht hpush
      · exact settles_finishIf_av1 ht h
      · cases hreturned

theorem settles_pushPacket_av1 {sequence : UInt16}
    (h : d.pushPacket b payload marker sequence t = (.ok frame, d')) :
    Settles .new (fun d => d.state.timestamp) marker t frame d' := by
  unfold AV1Depacketizer.pushPacket at h
  split at h
  · cases h
  have ht := timestamp_beginPacket d.state sequence t
  dsimp only at h
  split at h
  · exact settles_finishIf_av1 (d := { d with state := d.state.beginPacket sequence t }) ht h
  · exact settles_pushPayload (d := { d with state := d.state.beginPacket sequence t }) ht h

end AV1

namespace VideoDepacketizer

theorem settles_of_inner {δ : Type} (wrap : δ → VideoDepacketizer) (new : δ) {d : δ}
    {ts : δ → Option UInt32} {marker : Bool} {t : UInt32} {frame : Option Bytes}
    (hts : ∀ d, (wrap d).timestamp = ts d) (h : Settles new ts marker t frame d) :
    Settles (wrap new) timestamp marker t frame (wrap d) := by
  rcases h with rfl | ⟨hframe, hmarker, ht⟩
  · exact .inl rfl
  · exact .inr ⟨hframe, hmarker, (hts d).trans ht⟩

/-- **After a packet that it accepts, a depacketizer is as new or still on its frame.** -/
theorem pushPacket_ok {b : Build} {d d' : VideoDepacketizer} {payload : Bytes} {marker : Bool}
    {sequence : UInt16} {t : UInt32} {frame : Option Bytes}
    (h : d.pushPacket b payload marker sequence t = (.ok frame, d')) :
    Settles d.renew timestamp marker t frame d' := by
  cases d with
  | av1 d =>
    obtain ⟨hframe, rfl⟩ := Prod.mk.inj h
    exact settles_of_inner .av1 _ (fun _ => rfl)
      (settles_pushPacket_av1 (Prod.ext hframe rfl))
  | h264 d =>
    obtain ⟨hframe, rfl⟩ := Prod.mk.inj h
    refine settles_of_inner .h264 {} (fun _ => rfl)
      (settles_push H264Depacketizer.reader d payload sequence ?_)
    rw [← H264Depacketizer.pushPacket_eq]
    exact Prod.ext hframe rfl
  | h265 d =>
    obtain ⟨hframe, rfl⟩ := Prod.mk.inj h
    refine settles_of_inner .h265 {} (fun _ => rfl)
      (settles_push H265Depacketizer.reader d payload sequence ?_)
    rw [← H265Depacketizer.pushPacket_eq]
    exact Prod.ext hframe rfl
  | vp8 d =>
    obtain ⟨hframe, rfl⟩ := Prod.mk.inj h
    refine settles_of_inner .vp8 {} (fun _ => rfl) ?_
    cases hoff : VP8Depacketizer.payloadOffset payload with
    | error e =>
      simp only [hoff] at hframe
      cases hframe
    | ok r =>
      simp only [hoff] at hframe ⊢
      exact settles_fragment marker (timestamp_beginPacket ..) id (Prod.ext hframe rfl)
  | vp9 d =>
    obtain ⟨hframe, rfl⟩ := Prod.mk.inj h
    refine settles_of_inner .vp9 {} (fun _ => rfl) ?_
    cases hoff : VP9Depacketizer.payloadOffset payload with
    | error e =>
      simp only [hoff] at hframe
      cases hframe
    | ok r =>
      simp only [hoff] at hframe ⊢
      exact settles_fragment (marker || r.2.2) (timestamp_beginPacket ..)
        (fun hm => by rw [hm, Bool.true_or]) (Prod.ext hframe rfl)

end VideoDepacketizer

end NativeVoice.Receive
