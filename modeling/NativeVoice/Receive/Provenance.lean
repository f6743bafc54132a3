import NativeVoice.Lib.Transducer
import NativeVoice.Receive.SocketPackets

/-!
# Where the frames come from

A media packet of a video frame lists the RTP packets that it was made of. The list is kept in
Python, and the frame is put together in Rust.

* `Assembling`: a depacketizer has begun a frame with some packets, and it has not left it since.
* `Sound`: what holds of a depacketizer and the list of its key after every run. The list holds the
  packets since the depacketizer was last as new.
* `FollowsItsFrame`: a packet finds the list empty, or with the packets of the frame that the
  depacketizer is still on.
* `rtpPackets_of_run`: if every packet of a run does, every frame comes from the packets listed.
-/

namespace NativeVoice.Receive

open Video Transport Lib Transducer Batch

/-! ## The packets of a frame -/

/-- `push_packet` with the fields of an RTP packet. -/
def VideoDepacketizer.pushRtp (b : Build) (d : VideoDepacketizer) (p : RTPPacket) :
    Fallible PacketError (Option Bytes) × VideoDepacketizer :=
  d.pushPacket b p.payload p.marker p.sequence p.timestamp

/-- From `new` on, a depacketizer has taken these packets of one SSRC and timestamp to become `d`,
and after each of them it was on their frame. -/
inductive Assembling (b : Build) (ssrc timestamp : UInt32) (new : VideoDepacketizer) :
    List RTPPacket → VideoDepacketizer → Prop
  | new : Assembling b ssrc timestamp new [] new
  | push {packets : List RTPPacket} {p : RTPPacket} {d d' : VideoDepacketizer}
    (h : Assembling b ssrc timestamp new packets d) (hssrc : p.ssrc = ssrc)
    (htimestamp : p.timestamp = timestamp) (hpush : d.pushRtp b p = (.ok none, d'))
    (hd' : d'.timestamp = some timestamp) :
    Assembling b ssrc timestamp new (packets ++ [p]) d'

/-- These packets, all of one SSRC and timestamp, make a new depacketizer begin a frame, keep it on
the frame, and complete it with the last one. -/
structure Produce (b : Build) (ssrc timestamp : UInt32) (packets : List RTPPacket) (frame : Bytes) :
    Prop where
  sameStream : ∀ p ∈ packets, p.ssrc = ssrc ∧ p.timestamp = timestamp
  assembles : ∃ new init last d d', new.renew = new ∧ packets = init ++ [last] ∧
    Assembling b ssrc timestamp new init d ∧ d.pushRtp b last = (.ok (some frame), d')

/-- The RTP packets of a media packet have its SSRC and timestamp, and its payload is the frame that
they produce, if it is not decrypted from it. -/
def FromItsPackets {σ : Type} (r : Receiver σ) (m : MediaPacket) : Prop :=
  ∃ frame, Produce r.build m.ssrc m.timestamp m.rtpPackets frame ∧ r.env.Opens frame m.payload

theorem Assembling.sameStream {b : Build} {ssrc timestamp : UInt32} {new d : VideoDepacketizer}
    {packets : List RTPPacket} (h : Assembling b ssrc timestamp new packets d) :
    ∀ p ∈ packets, p.ssrc = ssrc ∧ p.timestamp = timestamp := by
  induction h with
  | new => exact fun _ hp => absurd hp List.not_mem_nil
  | push _ hssrc htimestamp _ _ ih =>
    intro q hq
    rcases List.mem_append.1 hq with hq | hq
    · exact ih q hq
    · obtain rfl := List.mem_singleton.1 hq
      exact ⟨hssrc, htimestamp⟩

theorem Assembling.produce {b : Build} {ssrc timestamp : UInt32} {new d d' : VideoDepacketizer}
    {packets : List RTPPacket} {last : RTPPacket} {frame : Bytes} (hnew : new.renew = new)
    (h : Assembling b ssrc timestamp new packets d) (hssrc : last.ssrc = ssrc)
    (htimestamp : last.timestamp = timestamp) (hpush : d.pushRtp b last = (.ok (some frame), d')) :
    Produce b ssrc timestamp (packets ++ [last]) frame where
  sameStream p hp := by
    rcases List.mem_append.1 hp with hp | hp
    · exact h.sameStream p hp
    · obtain rfl := List.mem_singleton.1 hp
      exact ⟨hssrc, htimestamp⟩
  assembles := ⟨new, packets, last, d, d', hnew, rfl, h, hpush⟩

/-! ## What is kept for a key -/

/-- A new depacketizer of the kind of `d` rejects none of these packets. -/
def Accepts (b : Build) (d : VideoDepacketizer) (packets : List RTPPacket) : Prop :=
  ∀ o ∈ outputs (VideoDepacketizer.pushRtp b) d.renew packets, ∃ frame, o = .ok frame

instance (b : Build) (d : VideoDepacketizer) (packets : List RTPPacket) :
    Decidable (Accepts b d packets) :=
  decidable_of_iff (∀ o ∈ outputs (VideoDepacketizer.pushRtp b) d.renew packets, o.isOk = true)
    (forall₂_congr fun o _ => by cases o <;> simp [Except.isOk, Except.toBool])

/-- The packets that are kept for a key lead a new depacketizer to the one of the key. If it
rejected none of them and is on a frame, they are of this frame. -/
structure Leads (b : Build) (ssrc : UInt32) (d : VideoDepacketizer) (packets : List RTPPacket) :
    Prop where
  replay : d = final (VideoDepacketizer.pushRtp b) d.renew packets
  onFrame : packets ≠ [] → Accepts b d packets → ∀ timestamp, d.timestamp = some timestamp →
    Assembling b ssrc timestamp d.renew packets d

/-- What holds of the depacketizer and the packets of a key. -/
def Sound (b : Build) (ssrc : UInt32) (d : Option VideoDepacketizer) (packets : List RTPPacket) :
    Prop :=
  match d with
  | none => packets = []
  | some d => Leads b ssrc d packets

/-- A packet finds no packets kept for its key, or the depacketizer is on a frame with its timestamp
and has rejected none of them. -/
def FollowsItsFrame {σ : Type} (r : Receiver σ) (st : ReceiveState σ) (p : ReceivedVideoPacket) :
    Prop :=
  st.frameRtpPackets p.key = [] ∨ ∃ d, st.depacketizers p.key = some d ∧
    d.timestamp = some p.decoded.timestamp ∧ Accepts r.build d (st.frameRtpPackets p.key)

instance {σ : Type} (r : Receiver σ) (st : ReceiveState σ) (p : ReceivedVideoPacket) :
    Decidable (FollowsItsFrame r st p) :=
  decidable_of_iff (st.frameRtpPackets p.key = [] ∨ ∃ d ∈ st.depacketizers p.key,
    d.timestamp = some p.decoded.timestamp ∧ Accepts r.build d (st.frameRtpPackets p.key)) Iff.rfl

/-- The RTP packet that is listed has the fields of the one that is depacketized. -/
structure ReceivedVideoPacket.Faithful (p : ReceivedVideoPacket) : Prop where
  payload : p.rtpPacket.payload = p.decoded.payload
  marker : p.rtpPacket.marker = p.decoded.marker
  sequence : p.rtpPacket.sequence = p.decoded.sequence
  timestamp : p.rtpPacket.timestamp = p.decoded.timestamp
  ssrc : p.rtpPacket.ssrc = p.ssrc

section Leads

variable {b : Build} {ssrc : UInt32} {d d' : VideoDepacketizer} {packets : List RTPPacket}
variable {p : RTPPacket} {marker : Bool} {t : UInt32} {frame : Option Bytes}

@[simp] theorem renew_pushRtp (b : Build) (d : VideoDepacketizer) (p : RTPPacket) :
    (d.pushRtp b p).2.renew = d.renew := VideoDepacketizer.renew_pushPacket ..

@[simp] theorem timestamp_renew (d : VideoDepacketizer) : d.renew.timestamp = none := by
  cases d <;> rfl

/-- A depacketizer that is as new. -/
theorem leads_nil (h : d.renew = d) : Leads b ssrc d [] where
  replay := h.symm
  onFrame hne := absurd rfl hne

theorem renew_eq_of_leads_nil (h : Leads b ssrc d []) : d.renew = d := h.replay.symm

theorem replay_push (h : Leads b ssrc d packets) {o : Fallible PacketError (Option Bytes)}
    (hpush : d.pushRtp b p = (o, d')) :
    d' = final (VideoDepacketizer.pushRtp b) d'.renew (packets ++ [p]) := by
  have hd' : d' = (d.pushRtp b p).2 := (congrArg Prod.snd hpush).symm
  have hrenew : d'.renew = d.renew := by rw [hd', renew_pushRtp]
  rw [hrenew, final_append, ← h.replay]
  exact hd'

/-- A packet that is rejected is kept. -/
theorem Leads.push_error {e : Stop PacketError} (h : Leads b ssrc d packets)
    (hpush : d.pushRtp b p = (.error e, d')) : Leads b ssrc d' (packets ++ [p]) where
  replay := replay_push h hpush
  onFrame _ haccepts := by
    have hrenew : d'.renew = d.renew := by
      rw [← renew_pushRtp b d p, hpush]
    have hlast : (d.pushRtp b p).1 ∈ outputs (VideoDepacketizer.pushRtp b) d'.renew
        (packets ++ [p]) := by
      rw [hrenew, outputs_append, ← h.replay]
      exact List.mem_append_right _ List.mem_cons_self
    obtain ⟨frame, hframe⟩ := haccepts _ hlast
    rw [hpush] at hframe
    cases hframe

/-- A packet that the depacketizer takes without completing a frame. -/
theorem Leads.push_none (h : Leads b ssrc d packets)
    (hfrom : Assembling b ssrc p.timestamp d.renew packets d) (hssrc : p.ssrc = ssrc)
    (hpush : d.pushRtp b p = (.ok none, d')) : Leads b ssrc d' (packets ++ [p]) where
  replay := replay_push h hpush
  onFrame _ _ t ht := by
    have hrenew : d'.renew = d.renew := by
      rw [← renew_pushRtp b d p, hpush]
    rcases VideoDepacketizer.pushPacket_ok hpush with rfl | ⟨-, -, htimestamp⟩
    · rw [timestamp_renew] at ht
      cases ht
    · obtain rfl := Option.some.inj (ht.symm.trans htimestamp)
      rw [hrenew]
      exact hfrom.push hssrc rfl hpush ht

/-- A packet that completes a frame, or has the marker. -/
theorem renew_of_pushRtp (hpush : d.pushRtp b p = (.ok frame, d'))
    (h : frame ≠ none ∨ p.marker = true) : d'.renew = d' := by
  rcases VideoDepacketizer.pushPacket_ok hpush with rfl | ⟨hframe, hmarker, -⟩
  · exact VideoDepacketizer.renew_renew d
  · exact absurd hframe (h.resolve_right (by simp [hmarker]))

end Leads

/-! ## The state of the receiver -/

/-- The frames in the queue come from their packets, and the lists of all keys are sound. -/
structure SoundState {σ : Type} (r : Receiver σ) (st : ReceiveState σ) : Prop where
  buffered : ∀ key buffer, st.reorderBuffers key = some buffer →
    buffer.All ReceivedVideoPacket.Faithful
  streams : ∀ key, Sound r.build key.1 (st.depacketizers key) (st.frameRtpPackets key)
  pending : ∀ f ∈ st.pendingDaveVideoFrames,
    Produce r.build f.ssrc f.decoded.timestamp f.rtpPackets f.payload

section Step

variable {σ : Type} {r : Receiver σ} {st : ReceiveState σ} {p : ReceivedVideoPacket}
variable {d d' : VideoDepacketizer}

/-- A new receiver, or one whose transport state was reset. -/
theorem soundState_new (r : Receiver σ) (environment : σ) : SoundState r { environment } where
  buffered _ _ h := by cases h
  streams _ := rfl
  pending _ hf := absurd hf List.not_mem_nil

theorem pushRtp_rtpPacket (hp : p.Faithful) (d : VideoDepacketizer) :
    d.pushRtp r.build p.rtpPacket = r.pushDecoded d p.decoded := by
  rw [VideoDepacketizer.pushRtp, hp.payload, hp.marker, hp.sequence, hp.timestamp,
    Receiver.pushDecoded]

theorem SoundState.leads (h : SoundState r st) (hd : Receiver.depacketizerFor st p = .ok d) :
    Leads r.build p.ssrc d (st.frameRtpPackets p.key) := by
  have hsound := h.streams p.key
  unfold Receiver.depacketizerFor at hd
  cases hkey : st.depacketizers p.key with
  | some d₁ =>
    simp only [hkey] at hd hsound
    obtain rfl := Except.ok.inj hd
    exact hsound
  | none =>
    simp only [hkey] at hd hsound
    rw [show st.frameRtpPackets p.key = [] from hsound]
    unfold makeVideoDepacketizer at hd
    split at hd
    · rename_i hmake
      obtain rfl := Except.ok.inj hd
      exact leads_nil (VideoDepacketizer.renew_of_factories hmake)
    · cases hd

/-- A packet that follows its frame finds the depacketizer on it, or as new. -/
theorem SoundState.assembling (h : SoundState r st)
    (hd : Receiver.depacketizerFor st p = .ok d) (hfollows : FollowsItsFrame r st p) :
    Assembling r.build p.ssrc p.decoded.timestamp d.renew (st.frameRtpPackets p.key) d := by
  have hleads := h.leads hd
  by_cases hnil : st.frameRtpPackets p.key = []
  · rw [hnil] at hleads ⊢
    rw [renew_eq_of_leads_nil hleads]
    exact .new
  · obtain ⟨d₁, hd₁, htimestamp, haccepts⟩ := hfollows.resolve_left hnil
    simp only [Receiver.depacketizerFor, hd₁] at hd
    obtain rfl := Except.ok.inj hd
    exact hleads.onFrame hnil haccepts _ htimestamp

/-- The key of a packet gets another depacketizer and another list. -/
theorem SoundState.keep (h : SoundState r st) {packets : List RTPPacket}
    (hleads : Leads r.build p.ssrc d packets) : SoundState r (Receiver.keep st p d packets) where
  buffered := h.buffered
  streams key := by
    rcases eq_or_ne key p.key with rfl | hne
    · simp only [Receiver.keep, Function.update_self]
      exact hleads
    · simp only [Receiver.keep, Function.update_of_ne hne]
      exact h.streams key
  pending := h.pending

/-- **One packet keeps the state sound**, and a frame that it completes comes from its packets. -/
theorem SoundState.decodeVideoFrame (h : SoundState r st) (hp : p.Faithful)
    (hfollows : FollowsItsFrame r st p) :
    SoundState r (r.decodeVideoFrame st p).2 ∧
      ∀ m, (r.decodeVideoFrame st p).1 = .ok (some m) → FromItsPackets r m := by
  cases hd : Receiver.depacketizerFor st p with
  | error e =>
    rw [Receiver.decodeVideoFrame_of_unsupported hd]
    exact ⟨h, fun m hm => by cases hm⟩
  | ok d =>
    have hleads := h.leads hd
    have hfrom := h.assembling hd hfollows
    rcases hpush : r.pushDecoded d p.decoded with ⟨e | _ | frame, d'⟩
    · rw [Receiver.decodeVideoFrame_of_error hd hpush]
      rw [← pushRtp_rtpPacket hp] at hpush
      exact ⟨h.keep (hleads.push_error hpush), fun m hm => by cases hm⟩
    · rw [Receiver.decodeVideoFrame_of_none hd hpush]
      rw [← pushRtp_rtpPacket hp] at hpush
      refine ⟨h.keep ?_, fun m hm => by cases hm⟩
      split
      · rename_i hmarker
        exact leads_nil (renew_of_pushRtp hpush (.inr (hp.marker.trans hmarker)))
      · rw [← hp.timestamp] at hfrom
        exact hleads.push_none hfrom hp.ssrc hpush
    · rw [Receiver.decodeVideoFrame_of_some hd hpush]
      rw [← pushRtp_rtpPacket hp] at hpush
      have hproduce : Produce r.build p.ssrc p.decoded.timestamp
          (st.frameRtpPackets p.key ++ [p.rtpPacket]) frame :=
        hfrom.produce (VideoDepacketizer.renew_renew d) hp.ssrc hp.timestamp hpush
      have hkeep : SoundState r (Receiver.keep st p d' []) :=
        h.keep (leads_nil (renew_of_pushRtp hpush (.inl (by simp))))
      obtain ⟨environment, frames, heq, hframes, hpacket⟩ :=
        Receiver.completeVideoFrame_spec (r := r) (Receiver.keep st p d' []) p frame
          (st.frameRtpPackets p.key ++ [p.rtpPacket])
      refine ⟨?_, fun m hm => ?_⟩
      · show SoundState r (r.completeVideoFrame (Receiver.keep st p d' []) p frame
          (st.frameRtpPackets p.key ++ [p.rtpPacket])).2
        rw [heq]
        refine ⟨hkeep.buffered, hkeep.streams, fun f hf => ?_⟩
        rcases hframes f hf with hf | ⟨hssrc, hdecoded, hpayload, hpackets⟩
        · exact h.pending f hf
        · rw [hssrc, hdecoded, hpayload, hpackets]
          exact hproduce
      · obtain ⟨payload, hopens, rfl⟩ := hpacket m (Except.ok.inj hm)
        exact ⟨frame, hproduce, hopens⟩

/-- Retried frames come from their packets. -/
theorem SoundState.retry (h : SoundState r st) :
    SoundState r (retryPendingDaveVideoFrames r.env st).2 ∧
      ∀ m ∈ (retryPendingDaveVideoFrames r.env st).1, FromItsPackets r m := by
  obtain ⟨environment, frames, heq, hframes, hready⟩ :=
    retryPendingDaveVideoFrames_spec r.env st
  rw [heq]
  refine ⟨⟨h.buffered, h.streams, fun f hf => h.pending f (hframes f hf)⟩, fun m hm => ?_⟩
  obtain ⟨f, hf, payload, hopens, rfl⟩ := hready m hm
  exact ⟨f.payload, h.pending f hf, hopens⟩

theorem SoundState.readyVideoPackets (h : SoundState r st) (hp : p.Faithful) (rtxEnabled : Bool) :
    (∀ q ∈ (r.readyVideoPackets rtxEnabled st p).1, q.Faithful) ∧
      SoundState r (r.readyVideoPackets rtxEnabled st p).2 := by
  unfold Receiver.readyVideoPackets
  split
  · have hbuffer : ((st.reorderBuffers p.key).getD {
        maxPackets := (max 1 r.videoReceiveReorderMaxPackets).toNat
        maxDelay := r.videoReceiveReorderMaxDelay }).All ReceivedVideoPacket.Faithful := by
      cases hkey : st.reorderBuffers p.key with
      | none => exact fun _ _ hlookup => by cases hlookup
      | some buffer => exact h.buffered _ _ hkey
    obtain ⟨hready, hkept⟩ := hbuffer.push hp p.decoded.sequence
      (r.env.perfCounter st.environment).1
    refine ⟨hready, ⟨fun key buffer hkey => ?_, h.streams, h.pending⟩⟩
    dsimp only at hkey
    rcases eq_or_ne key p.key with rfl | hne
    · rw [Function.update_self] at hkey
      obtain rfl := Option.some.inj hkey
      exact hkept
    · rw [Function.update_of_ne hne] at hkey
      exact h.buffered _ _ hkey
  · exact ⟨fun q hq => List.mem_singleton.1 hq ▸ hp, h⟩

end Step

/-! ## Runs -/

namespace Receiver

variable {σ : Type} (r : Receiver σ)

/-- The packets that reach a depacketizer with a packet, each with the state that it finds. -/
def packetArrivals (context : BatchContext) (st : ReceiveState σ)
    (packet : Bytes × DecodedRTPPacket) : List (ReceiveState σ × ReceivedVideoPacket) :=
  match receivePacket context.connection packet.2 packet.1 with
  | none => []
  | some p =>
    match p.mediaType with
    | .video =>
      let (ready, st) := r.readyVideoPackets context.connection.rtxEnabled st
        (p.video context.receivedAt)
      calls r.decodeReadyPacket st ready
    | .audio => []

/-- The packets that reach a depacketizer with a batch. -/
def arrivals (aead : Aead) (context : BatchContext) (st : ReceiveState σ) (batch : List Bytes) :
    List (ReceiveState σ × ReceivedVideoPacket) :=
  (calls (r.decodeDecodedMediaPacket context) (retryPendingDaveVideoFrames r.env st).2
    (decodeRtpPackets aead context.crypto batch)).flatMap fun c =>
      r.packetArrivals context c.1 c.2

/-- What happens to a receiver. -/
inductive Event
  | batch (context : BatchContext) (packets : List Bytes)
  | resetReceiveTransportState

/-- The media packets that an event gives to the callback. -/
def step (aead : Aead) (st : ReceiveState σ) : Event → List MediaPacket × ReceiveState σ
  | .batch context packets => r.handleSocketPackets aead context st packets
  | .resetReceiveTransportState => ([], { environment := st.environment })

/-- The packets that reach a depacketizer with an event. -/
def eventArrivals (aead : Aead) (st : ReceiveState σ) :
    Event → List (ReceiveState σ × ReceivedVideoPacket)
  | .batch context packets => r.arrivals aead context st packets
  | .resetReceiveTransportState => []

end Receiver

theorem faithful_of_receivePacket {c : Connection} {decoded : DecodedRTPPacket} {raw : Bytes}
    {p : ReceivedPacket} (h : receivePacket c decoded raw = some p) (receivedAt : ℚ) :
    (p.video receivedAt).Faithful := by
  unfold receivePacket at h
  split at h
  · obtain ⟨recovered, -, rfl⟩ := Option.map_eq_some_iff.1 h
    exact ⟨rfl, rfl, rfl, rfl, rfl⟩
  · obtain ⟨codecInfo, -, rfl⟩ := Option.map_eq_some_iff.1 h
    exact ⟨rfl, rfl, rfl, rfl, rfl⟩

/-- Media packets of video come from the packets that they list. -/
def VideoFromItsPackets {σ : Type} (r : Receiver σ) (m : MediaPacket) : Prop :=
  m.mediaType = .video → FromItsPackets r m

section Run

variable {σ : Type} {r : Receiver σ} {st : ReceiveState σ}

theorem SoundState.decodeReadyPacket {p : ReceivedVideoPacket} (h : SoundState r st)
    (hp : p.Faithful ∧ FollowsItsFrame r st p) :
    SoundState r (r.decodeReadyPacket st p).2 ∧
      ∀ results, (r.decodeReadyPacket st p).1 = .ok results →
        ∀ m ∈ results, VideoFromItsPackets r m := by
  obtain ⟨hstate, hframe⟩ := h.decodeVideoFrame hp.1 hp.2
  refine ⟨hstate, fun results hresults m hm _ => hframe m ?_⟩
  have hmap : (r.decodeVideoFrame st p).1.map Option.toList = .ok results := hresults
  cases hdecode : (r.decodeVideoFrame st p).1 with
  | error e =>
    rw [hdecode] at hmap
    cases hmap
  | ok packet =>
    rw [hdecode] at hmap
    obtain rfl := Except.ok.inj hmap
    rw [Option.mem_toList.1 hm]

theorem SoundState.decodeDecodedMediaPacket {context : BatchContext}
    {packet : Bytes × DecodedRTPPacket} (h : SoundState r st)
    (hfollows : ∀ c ∈ r.packetArrivals context st packet, FollowsItsFrame r c.1 c.2) :
    SoundState r (r.decodeDecodedMediaPacket context st packet).2 ∧
      ∀ results, (r.decodeDecodedMediaPacket context st packet).1 = .ok results →
        ∀ m ∈ results, VideoFromItsPackets r m := by
  unfold Receiver.packetArrivals at hfollows
  unfold Receiver.decodeDecodedMediaPacket
  cases hreceived : receivePacket context.connection packet.2 packet.1 with
  | none =>
    refine ⟨h, fun results hresults m hm => ?_⟩
    obtain rfl := Except.ok.inj hresults
    cases hm
  | some p =>
    simp only [hreceived] at hfollows ⊢
    cases hmedia : p.mediaType with
    | video =>
      simp only [hmedia] at hfollows ⊢
      obtain ⟨hready, hstate⟩ := h.readyVideoPackets
        (faithful_of_receivePacket hreceived context.receivedAt) context.connection.rtxEnabled
      exact collect_invariant (fun _ _ hst hc => hst.decodeReadyPacket hc) hstate fun c hc =>
        ⟨hready _ (mem_of_mem_calls hc), hfollows c hc⟩
    | audio =>
      refine ⟨⟨h.buffered, h.streams, h.pending⟩, fun results hresults m hm hvideo => ?_⟩
      obtain rfl := Except.ok.inj hresults
      obtain ⟨payload, -, rfl⟩ := Option.map_eq_some_iff.1 (Option.mem_toList.1 hm)
      cases hvideo

theorem SoundState.handleSocketPackets {aead : Aead} {context : BatchContext} {batch : List Bytes}
    (h : SoundState r st)
    (hfollows : ∀ c ∈ r.arrivals aead context st batch, FollowsItsFrame r c.1 c.2) :
    SoundState r (r.handleSocketPackets aead context st batch).2 ∧
      ∀ m ∈ (r.handleSocketPackets aead context st batch).1, VideoFromItsPackets r m := by
  obtain ⟨hretried, hpending⟩ := h.retry
  obtain ⟨hstate, hdecoded⟩ := collect_invariant (fun _ _ => SoundState.decodeDecodedMediaPacket)
    hretried fun c hc d hd => hfollows d (List.mem_flatMap.2 ⟨c, hc, hd⟩)
  refine ⟨hstate, fun m hm => ?_⟩
  have hdelivered : m ∈ ((collect (r.decodeDecodedMediaPacket context)
      (retryPendingDaveVideoFrames r.env st).2 (decodeRtpPackets aead context.crypto batch)).1.map
        ((retryPendingDaveVideoFrames r.env st).1 ++ ·)).toOption.getD [] := hm
  cases hcollect : (collect (r.decodeDecodedMediaPacket context)
      (retryPendingDaveVideoFrames r.env st).2 (decodeRtpPackets aead context.crypto batch)).1 with
  | error e =>
    rw [hcollect] at hdelivered
    cases hdelivered
  | ok results =>
    rw [hcollect] at hdelivered
    rcases List.mem_append.1 hdelivered with hm | hm
    · exact fun _ => hpending m hm
    · exact hdecoded results hcollect m hm

/-- **Every frame comes from the RTP packets that are listed with it**, in a run in which each
packet that reaches a depacketizer finds no packets kept for its key, or the depacketizer on a frame
with its timestamp and none of the kept packets rejected. -/
theorem rtpPackets_of_run (aead : Aead) (r : Receiver σ) (environment : σ)
    (events : List Receiver.Event)
    (h : ∀ pre event post, events = pre ++ event :: post →
      ∀ c ∈ r.eventArrivals aead (final (r.step aead) { environment } pre) event,
        FollowsItsFrame r c.1 c.2) :
    ∀ packets ∈ outputs (r.step aead) { environment } events, ∀ m ∈ packets,
      m.mediaType = .video →
        (∀ p ∈ m.rtpPackets, p.ssrc = m.ssrc ∧ p.timestamp = m.timestamp) ∧ FromItsPackets r m := by
  have hstep : ∀ st event, SoundState r st →
      (∀ c ∈ r.eventArrivals aead st event, FollowsItsFrame r c.1 c.2) →
      SoundState r (r.step aead st event).2 ∧
        ∀ m ∈ (r.step aead st event).1, VideoFromItsPackets r m := by
    intro st event hst hfollows
    cases event with
    | batch context packets => exact hst.handleSocketPackets hfollows
    | resetReceiveTransportState =>
      exact ⟨soundState_new r _, fun _ hm => absurd hm List.not_mem_nil⟩
  rw [forall_mem_outputs_iff]
  intro pre event post heq m hm hvideo
  have hpre : SoundState r (final (r.step aead) { environment } pre) :=
    final_of_splits (fun st event hst hfollows => (hstep st event hst hfollows).1)
      (soundState_new r environment) (forall_split_left (heq ▸ h))
  obtain ⟨frame, hproduce, hopens⟩ := (hstep _ event hpre (h pre event post heq)).2 m hm hvideo
  exact ⟨hproduce.sameStream, frame, hproduce, hopens⟩

/-- A VP8 frame of two packets. -/
def twoPackets : List Bytes :=
  [sealedPacket 101 1 7 8 [0x10, 1], sealedPacket 229 2 7 8 [0x00, 2]]

theorem rtpPackets_of_run_twoPackets : ∃ m,
    quietReceiver.handleSocketPackets tagOnly opusAndVp8 { environment := () } twoPackets =
      ([m], (quietReceiver.handleSocketPackets tagOnly opusAndVp8 { environment := () }
        twoPackets).2) ∧
    m.rtpPackets.map RTPPacket.sequence = [1, 2] ∧ FromItsPackets quietReceiver m := by
  have hdelivered : (quietReceiver.handleSocketPackets tagOnly opusAndVp8 { environment := () }
      twoPackets).1.map (fun m => (m.mediaType, m.rtpPackets.map RTPPacket.sequence)) =
        [(.video, [1, 2])] := by
    decide +kernel
  have hfollows : ∀ c ∈ quietReceiver.arrivals tagOnly opusAndVp8 { environment := () } twoPackets,
      FollowsItsFrame quietReceiver c.1 c.2 := by
    decide +kernel
  obtain ⟨m, hm, hfields⟩ := List.map_eq_singleton_iff.1 hdelivered
  have hrun := rtpPackets_of_run tagOnly quietReceiver () [.batch opusAndVp8 twoPackets]
    (fun pre event post heq c hc => by
      cases pre with
      | nil =>
        obtain ⟨rfl, -⟩ := List.cons.inj heq
        exact hfollows c hc
      | cons _ pre => simp at heq)
    _ List.mem_cons_self m (hm ▸ List.mem_cons_self) (congrArg Prod.fst hfields)
  exact ⟨m, Prod.ext hm rfl, congrArg Prod.snd hfields, hrun.2⟩

/-- A VP8 packet without the marker, and one of the next frame. -/
def lostMarker : List Bytes :=
  [sealedPacket 101 1 7 8 [0x10, 1], sealedPacket 229 3 9 8 [0x10, 2]]

/-- If the last packet of a frame is lost, the next frame lists the packets of both. -/
theorem lost_marker_keeps_rtpPackets :
    (quietReceiver.handleSocketPackets tagOnly opusAndVp8 { environment := () }
      lostMarker).1.map (fun m => (m.payload, m.timestamp, m.rtpPackets.map RTPPacket.timestamp)) =
        [([2], 9, [7, 9])] := by
  decide +kernel

end Run

end NativeVoice.Receive
