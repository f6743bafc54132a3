import NativeVoice.Lib.LossyQueue
import NativeVoice.Receive.Provenance

/-!
# The order of the frames of an SSRC

A frame that the DAVE session cannot open yet waits in a queue, and the frames in the queue are
retried in front of each batch. The frames behind it are not held back: they go to the callback as
soon as the session opens them.

* `DeliveredInOrder`: the video packets of an SSRC that are delivered come from frames that were put
  together in this order, each from another one.
* `OvertakesOnRetry` and `Overtakes`: the two ways in which a frame gets in front of one that waits.
* `videoInOrder_of_run`: in a run without them, the frames of each SSRC are delivered in order.
-/

namespace NativeVoice.Receive

open Video Transport Lib Transducer Batch LossyQueue
open scoped List

/-! ## Frames -/

/-- A frame that a depacketizer has put together, with what is known of it. -/
structure DepacketizedFrame where
  decoded : DecodedRTPPacket
  codec : String
  ssrc : UInt32
  userId : Option ℕ
  raw : Bytes
  payload : Bytes
  rtpPackets : List RTPPacket
  receivedAt : ℚ

def PendingDaveVideoFrame.frame (f : PendingDaveVideoFrame) : DepacketizedFrame where
  decoded := f.decoded
  codec := f.codec
  ssrc := f.ssrc
  userId := f.userId
  raw := f.raw
  payload := f.payload
  rtpPackets := f.rtpPackets
  receivedAt := f.receivedAt

def ReceivedVideoPacket.frame (p : ReceivedVideoPacket) (payload : Bytes)
    (rtpPackets : List RTPPacket) : DepacketizedFrame :=
  (p.pending payload rtpPackets 0).frame

/-- A media packet that is made of a frame, opened. -/
def DepacketizedFrame.Yields {σ : Type} (env : Environment σ) (frame : DepacketizedFrame)
    (m : MediaPacket) : Prop :=
  ∃ payload, env.Opens frame.payload payload ∧
    m = makeVideoMediaPacket frame.decoded frame.codec frame.ssrc frame.userId frame.raw payload
      frame.rtpPackets frame.receivedAt

/-- A video packet of an SSRC. -/
def MediaPacket.videoOf (ssrc : UInt32) (m : MediaPacket) : Bool :=
  m.mediaType = .video && m.ssrc = ssrc

/-- The video packets of an SSRC come from different frames of it, in the order of these. -/
def DeliveredInOrder {σ : Type} (env : Environment σ) (ssrc : UInt32)
    (frames : List DepacketizedFrame) (packets : List MediaPacket) : Prop :=
  ∃ taken, taken <+ frames.filter (·.ssrc = ssrc) ∧
    List.Forall₂ (DepacketizedFrame.Yields env) taken (packets.filter (MediaPacket.videoOf ssrc))

theorem videoOf_of_yields {σ : Type} {env : Environment σ} {frame : DepacketizedFrame}
    {m : MediaPacket} (h : frame.Yields env m) (ssrc : UInt32) :
    m.videoOf ssrc = decide (frame.ssrc = ssrc) := by
  obtain ⟨payload, -, rfl⟩ := h
  rfl

namespace Receiver

variable {σ : Type} (r : Receiver σ)

/-- The frame that a packet completes. -/
def depacketized (st : ReceiveState σ) (p : ReceivedVideoPacket) : Option DepacketizedFrame :=
  match depacketizerFor st p with
  | .error _ => none
  | .ok depacketizer =>
    match (r.pushDecoded depacketizer p.decoded).1 with
    | .ok (some frame) => some (p.frame frame (st.frameRtpPackets p.key ++ [p.rtpPacket]))
    | _ => none

/-- The frames that are put together with an event. -/
def eventFrames (aead : Aead) (st : ReceiveState σ) (event : Event) : List DepacketizedFrame :=
  (r.eventArrivals aead st event).filterMap fun c => r.depacketized c.1 c.2

/-- The frames that are put together in a run. -/
def depacketizedFrames (aead : Aead) (st : ReceiveState σ) (events : List Event) :
    List DepacketizedFrame :=
  (outputs (fun st event => (r.eventFrames aead st event, (r.step aead st event).2)) st
    events).flatten

/-- The packets that are given to the callback in a run. -/
def deliveredPackets (aead : Aead) (st : ReceiveState σ) (events : List Event) :
    List MediaPacket :=
  (outputs (r.step aead) st events).flatten

end Receiver

/-! ## What the session says of a frame -/

/-- What becomes of a frame in the queue. -/
inductive Retried
  | expired
  | waits
  | fails
  | opened (payload : Bytes)
  deriving DecidableEq

def Retried.isOpened : Retried → Bool
  | opened _ => true
  | _ => false

section Retry

variable {σ : Type} (env : Environment σ)

/-- A frame in the queue, and what becomes of it. -/
def retryFrame (now : ℚ) (s : σ) (frame : PendingDaveVideoFrame) :
    (PendingDaveVideoFrame × Retried) × σ :=
  if now - frame.queuedAt > DAVE_PENDING_VIDEO_MAX_AGE then ((frame, .expired), s)
  else
    let (canAttempt, s) := env.canAttemptVideoDaveDecrypt frame.userId s
    if !canAttempt then ((frame, .waits), s)
    else match env.decryptVideoFrame frame.userId frame.payload s with
      | (.error exc, s) => ((frame, if isRetryableDaveDecryptError exc then .waits else .fails), s)
      | (.ok payload, s) => ((frame, .opened payload), s)

/-- What becomes of the frames in the queue in front of a batch. -/
def retries (st : ReceiveState σ) : List (PendingDaveVideoFrame × Retried) :=
  let (now, s) := env.perfCounter st.environment
  outputs (retryFrame env now) s st.pendingDaveVideoFrames

/-- A frame in the queue is opened, and one of its SSRC in front of it waits on. -/
def OvertakesOnRetry (st : ReceiveState σ) : Prop :=
  ¬ (retries env st).Pairwise fun a b => a.2 = .waits → b.2.isOpened → a.1.ssrc ≠ b.1.ssrc

instance (st : ReceiveState σ) : Decidable (OvertakesOnRetry env st) :=
  inferInstanceAs (Decidable (¬ _))

/-- The session opens a frame as soon as it is put together. -/
def opensAtOnce (s : σ) (frame : DepacketizedFrame) : Bool :=
  let looksLikeDave := looksLikeDaveProtocolFrame frame.payload
  let (canAttempt, s) := if looksLikeDave
    then env.canAttemptVideoDaveDecrypt frame.userId s else (true, s)
  canAttempt && (env.decryptVideoFrame frame.userId frame.payload s).1.isOk

end Retry

/-- A packet completes a frame that is opened at once, and one of its SSRC waits. -/
def Overtakes {σ : Type} (r : Receiver σ) (st : ReceiveState σ) (p : ReceivedVideoPacket) : Prop :=
  ∃ frame ∈ r.depacketized st p, opensAtOnce r.env st.environment frame ∧
    ∃ f ∈ st.pendingDaveVideoFrames, f.ssrc = p.ssrc

instance {σ : Type} (r : Receiver σ) (st : ReceiveState σ) (p : ReceivedVideoPacket) :
    Decidable (Overtakes r st p) :=
  inferInstanceAs (Decidable (∃ frame ∈ r.depacketized st p, _))

/-- With an event, no frame gets in front of one that waits. -/
def KeepsOrder {σ : Type} (aead : Aead) (r : Receiver σ) (st : ReceiveState σ)
    (event : Receiver.Event) : Prop :=
  match event with
  | .batch context packets => ¬ OvertakesOnRetry r.env st ∧
    ∀ c ∈ r.arrivals aead context st packets, ¬ Overtakes r c.1 c.2
  | .resetReceiveTransportState => True

instance {σ : Type} (aead : Aead) (r : Receiver σ) (st : ReceiveState σ) (event : Receiver.Event) :
    Decidable (KeepsOrder aead r st event) :=
  match event with
  | .batch _ _ => inferInstanceAs (Decidable (_ ∧ _))
  | .resetReceiveTransportState => inferInstanceAs (Decidable True)

/-! ## The queue -/

section Queue

variable {σ : Type} {r : Receiver σ} {ssrc : UInt32}

/-- The frames of an SSRC that wait. -/
def waiting (ssrc : UInt32) (st : ReceiveState σ) : List DepacketizedFrame :=
  (st.pendingDaveVideoFrames.map PendingDaveVideoFrame.frame).filter (·.ssrc = ssrc)

/-- Between two states, these frames are put together and these packets delivered, and those of an
SSRC go through the queue in their order. -/
def Through (env : Environment σ) (ssrc : UInt32) (st : ReceiveState σ)
    (frames : List DepacketizedFrame) (packets : List MediaPacket) (st' : ReceiveState σ) : Prop :=
  Passes (DepacketizedFrame.Yields env) (waiting ssrc st) (frames.filter (·.ssrc = ssrc))
    (packets.filter (MediaPacket.videoOf ssrc)) (waiting ssrc st')

theorem composes_through (env : Environment σ) (ssrc : UInt32) : Composes (Through env ssrc) where
  refl st := Passes.refl (waiting ssrc st)
  trans h h' := by
    unfold Through at *
    rw [List.filter_append, List.filter_append]
    exact Passes.trans h h'
  lose h := Passes.lose h

/-- The queue does not change. -/
theorem through_of_pending_eq (env : Environment σ) (ssrc : UInt32) {st st' : ReceiveState σ}
    (h : st'.pendingDaveVideoFrames = st.pendingDaveVideoFrames) :
    Through env ssrc st [] [] st' := by
  unfold Through waiting
  rw [h]
  exact Passes.refl _

/-- A frame is queued. -/
theorem through_stash (st : ReceiveState σ) (p : ReceivedVideoPacket) (payload : Bytes)
    (rtpPackets : List RTPPacket) (s : σ) :
    Through r.env ssrc st [p.frame payload rtpPackets] []
      (stashDaveVideoFrame r.env { st with environment := s } p payload rtpPackets) := by
  obtain ⟨environment, frames, queuedAt, heq, hold⟩ :=
    stashDaveVideoFrame_spec r.env { st with environment := s } p payload rtpPackets
  rw [heq]
  refine Passes.wait ?_
  unfold waiting
  rw [List.map_append, List.filter_append]
  exact ((hold.map _).filter _).append (.refl _)

/-- A frame that is not opened is lost. -/
theorem through_lost (st : ReceiveState σ) (frame : DepacketizedFrame) (s : σ) :
    Through r.env ssrc st [frame] [] { st with environment := s } :=
  Passes.wait (List.sublist_append_left _ _)

/-- A frame is delivered while none of its SSRC waits. -/
theorem through_deliver {st : ReceiveState σ} {frame : DepacketizedFrame} {m : MediaPacket}
    (hyields : frame.Yields r.env m) (h : ∀ f ∈ st.pendingDaveVideoFrames, f.ssrc ≠ frame.ssrc)
    (s : σ) : Through r.env ssrc st [frame] [m] { st with environment := s } := by
  by_cases hssrc : frame.ssrc = ssrc
  · have hwaiting : waiting ssrc st = [] := by
      refine List.filter_eq_nil_iff.2 fun f hf => ?_
      obtain ⟨g, hg, rfl⟩ := List.mem_map.1 hf
      exact fun heq => h g hg ((of_decide_eq_true heq).trans hssrc.symm)
    have hm : m.videoOf ssrc = true := by rw [videoOf_of_yields hyields, hssrc, decide_eq_true rfl]
    show Passes _ (waiting ssrc st) _ _ (waiting ssrc st)
    rw [hwaiting, List.filter_cons_of_pos (by simpa using hssrc), List.filter_cons_of_pos hm]
    exact Passes.pass hyields
  · have hm : ¬ m.videoOf ssrc = true := by
      rw [videoOf_of_yields hyields]
      simpa using hssrc
    show Passes _ (waiting ssrc st) _ _ (waiting ssrc st)
    rw [List.filter_cons_of_neg (by simpa using hssrc), List.filter_cons_of_neg hm]
    exact Passes.refl _

/-- **A frame that is put together** goes through the queue, unless it is opened at once while one
of its SSRC waits. -/
theorem through_completeVideoFrame (st : ReceiveState σ) (p : ReceivedVideoPacket)
    (payload : Bytes) (rtpPackets : List RTPPacket)
    (h : opensAtOnce r.env st.environment (p.frame payload rtpPackets) →
      ∀ f ∈ st.pendingDaveVideoFrames, f.ssrc ≠ p.ssrc) :
    Through r.env ssrc st [p.frame payload rtpPackets]
      (r.completeVideoFrame st p payload rtpPackets).1.toList
      (r.completeVideoFrame st p payload rtpPackets).2 := by
  unfold opensAtOnce at h
  unfold Receiver.completeVideoFrame
  simp only [show (p.frame payload rtpPackets).payload = payload from rfl,
    show (p.frame payload rtpPackets).userId = p.userId from rfl] at h
  dsimp only
  generalize hattempt : (if looksLikeDaveProtocolFrame payload = true then _ else _ : Bool × σ) =
    attempt at h ⊢
  split
  · exact through_stash st p payload rtpPackets _
  rename_i hattempted
  cases hdecrypt : r.env.decryptVideoFrame p.userId payload attempt.2 with
  | mk result s =>
    cases result with
    | error exc =>
      dsimp only
      split
      · exact through_stash st p payload rtpPackets s
      · exact through_lost st _ s
    | ok opened =>
      refine through_deliver ⟨opened, ?_, rfl⟩ (h ?_) s
      · exact Environment.opens_decryptVideoFrame (congrArg Prod.fst hdecrypt)
      · have hcan : attempt.1 = true := by
          cases hlooks : looksLikeDaveProtocolFrame payload with
          | true => simpa [hlooks] using hattempted
          | false => rw [← hattempt, hlooks]; rfl
        rw [hcan, hdecrypt]
        rfl

/-- **One packet** that does not overtake: the frame that it completes goes through the queue. -/
theorem through_decodeReadyPacket {st : ReceiveState σ} {p : ReceivedVideoPacket}
    (h : ¬ Overtakes r st p) :
    Through r.env ssrc st (r.depacketized st p).toList
      ((r.decodeReadyPacket st p).1.toOption.getD []) (r.decodeReadyPacket st p).2 := by
  unfold Receiver.decodeReadyPacket
  cases hd : Receiver.depacketizerFor st p with
  | error e =>
    rw [Receiver.decodeVideoFrame_of_unsupported hd]
    simp only [Receiver.depacketized, hd]
    exact through_of_pending_eq r.env ssrc rfl
  | ok d =>
    rcases hpush : r.pushDecoded d p.decoded with ⟨e | _ | payload, d'⟩
    · rw [Receiver.decodeVideoFrame_of_error hd hpush]
      simp only [Receiver.depacketized, hd, hpush]
      exact through_of_pending_eq r.env ssrc rfl
    · rw [Receiver.decodeVideoFrame_of_none hd hpush]
      simp only [Receiver.depacketized, hd, hpush]
      exact through_of_pending_eq r.env ssrc rfl
    · have hframe : r.depacketized st p =
          some (p.frame payload (st.frameRtpPackets p.key ++ [p.rtpPacket])) := by
        simp only [Receiver.depacketized, hd, hpush]
      rw [Receiver.decodeVideoFrame_of_some hd hpush, hframe]
      refine through_completeVideoFrame (Receiver.keep st p d' []) p payload _ ?_
      exact fun hopens f hf heq => h ⟨_, hframe, hopens, f, hf, heq⟩

/-- The frames that are put together with a packet of a batch. -/
def Receiver.packetFrames (r : Receiver σ) (context : BatchContext) (st : ReceiveState σ)
    (packet : Bytes × DecodedRTPPacket) : List DepacketizedFrame :=
  (r.packetArrivals context st packet).flatMap fun c => (r.depacketized c.1 c.2).toList

theorem through_decodeDecodedMediaPacket {context : BatchContext} {st : ReceiveState σ}
    {packet : Bytes × DecodedRTPPacket}
    (h : ∀ c ∈ r.packetArrivals context st packet, ¬ Overtakes r c.1 c.2) :
    Through r.env ssrc st (r.packetFrames context st packet)
      ((r.decodeDecodedMediaPacket context st packet).1.toOption.getD [])
      (r.decodeDecodedMediaPacket context st packet).2 := by
  unfold Receiver.packetFrames
  unfold Receiver.packetArrivals at h ⊢
  unfold Receiver.decodeDecodedMediaPacket
  cases hreceived : receivePacket context.connection packet.2 packet.1 with
  | none => exact through_of_pending_eq r.env ssrc rfl
  | some p =>
    simp only [hreceived] at h ⊢
    cases hmedia : p.mediaType with
    | video =>
      simp only [hmedia] at h ⊢
      have hready : Through r.env ssrc st [] [] (r.readyVideoPackets
          context.connection.rtxEnabled st (p.video context.receivedAt)).2 := by
        refine through_of_pending_eq r.env ssrc ?_
        unfold Receiver.readyVideoPackets
        split <;> rfl
      exact (composes_through r.env ssrc).trans hready ((composes_through r.env ssrc).collect
        (fun _ _ => through_decodeReadyPacket) h)
    | audio =>
      simp only [hmedia] at h ⊢
      have haudio : (r.decodeAudioPacket context.receivedAt st p).1.toList.filter
          (MediaPacket.videoOf ssrc) = [] := by
        refine List.filter_eq_nil_iff.2 fun m hm hvideo => ?_
        obtain ⟨payload, -, rfl⟩ := Option.map_eq_some_iff.1 (Option.mem_toList.1 hm)
        simp [MediaPacket.videoOf] at hvideo
      have hkept : Through r.env ssrc st [] [] (r.decodeAudioPacket context.receivedAt st p).2 :=
        through_of_pending_eq r.env ssrc rfl
      unfold Through at hkept ⊢
      exact haudio.symm ▸ hkept

/-! ### Retries -/

section Retry

variable {env : Environment σ} {now : ℚ} {s : σ} {frames : List PendingDaveVideoFrame}

/-- The media packet of a frame in the queue that is opened. -/
def retriedPacket : PendingDaveVideoFrame × Retried → Option MediaPacket
  | (frame, .opened payload) =>
    some (makeVideoMediaPacket frame.decoded frame.codec frame.ssrc frame.userId frame.raw payload
      frame.rtpPackets frame.receivedAt)
  | _ => none

/-- The loop asks the session for one frame after the other. -/
theorem retryLoop_eq (now : ℚ) (s : σ) (frames : List PendingDaveVideoFrame) :
    retryLoop env now s frames =
      ((outputs (retryFrame env now) s frames).filterMap retriedPacket,
        ((outputs (retryFrame env now) s frames).filter (·.2 = .waits)).map Prod.fst,
        final (retryFrame env now) s frames) := by
  induction frames generalizing s with
  | nil => rfl
  | cons frame frames ih =>
    unfold retryLoop
    rw [outputs_cons, final_cons, List.filterMap_cons, List.filter_cons]
    by_cases hexpired : now - frame.queuedAt > DAVE_PENDING_VIDEO_MAX_AGE
    · have hframe : retryFrame env now s frame = ((frame, .expired), s) := if_pos hexpired
      rw [if_pos hexpired, ih, hframe]
      rfl
    rw [if_neg hexpired]
    rcases hattempt : env.canAttemptVideoDaveDecrypt frame.userId s with ⟨_ | _, s₁⟩
    · have hframe : retryFrame env now s frame = ((frame, .waits), s₁) := by
        simp [retryFrame, hexpired, hattempt]
      rw [hframe]
      simp [ih, retriedPacket]
    rcases hdecrypt : env.decryptVideoFrame frame.userId frame.payload s₁ with ⟨exc | payload, s₂⟩
    · have hframe : retryFrame env now s frame =
          ((frame, if isRetryableDaveDecryptError exc then .waits else .fails), s₂) := by
        simp [retryFrame, hexpired, hattempt, hdecrypt]
      rw [hframe]
      cases hretryable : isRetryableDaveDecryptError exc <;>
        simp [ih, retriedPacket, hdecrypt, hretryable]
    · have hframe : retryFrame env now s frame = ((frame, .opened payload), s₂) := by
        simp [retryFrame, hexpired, hattempt, hdecrypt]
      rw [hframe]
      simp [ih, retriedPacket, hdecrypt]

theorem retryFrame_fst (now : ℚ) (s : σ) (frame : PendingDaveVideoFrame) :
    (retryFrame env now s frame).1.1 = frame := by
  unfold retryFrame
  split
  · rfl
  dsimp only
  split
  · rfl
  split <;> rfl

theorem map_fst_outputs_retryFrame (now : ℚ) (s : σ) (frames : List PendingDaveVideoFrame) :
    (outputs (retryFrame env now) s frames).map Prod.fst = frames := by
  induction frames generalizing s with
  | nil => rfl
  | cons frame frames ih => rw [outputs_cons, List.map_cons, retryFrame_fst, ih]

theorem opens_retryFrame {frame : PendingDaveVideoFrame} {payload : Bytes}
    (h : (retryFrame env now s frame).1.2 = .opened payload) : env.Opens frame.payload payload := by
  unfold retryFrame at h
  split at h
  · cases h
  dsimp only at h
  split at h
  · cases h
  split at h
  · dsimp only at h
    split at h <;> cases h
  · rename_i hdecrypt
    obtain rfl := Retried.opened.inj h
    exact Environment.opens_decryptVideoFrame (congrArg Prod.fst hdecrypt)

/-- The frames that are opened give their media packets. -/
theorem forall₂_retriedPacket {l : List (PendingDaveVideoFrame × Retried)}
    (h : ∀ x ∈ l, ∀ payload, x.2 = .opened payload → env.Opens x.1.payload payload) :
    List.Forall₂ (DepacketizedFrame.Yields env)
      (((l.filter (·.1.ssrc = ssrc)).filter (·.2.isOpened)).map (·.1.frame))
      ((l.filterMap retriedPacket).filter (MediaPacket.videoOf ssrc)) := by
  induction l with
  | nil => exact .nil
  | cons x l ih =>
    have ih := ih fun y hy => h y (List.mem_cons_of_mem x hy)
    rcases x with ⟨frame, _ | _ | _ | payload⟩
    case opened =>
      have hyields : frame.frame.Yields env (makeVideoMediaPacket frame.decoded frame.codec
          frame.ssrc frame.userId frame.raw payload frame.rtpPackets frame.receivedAt) :=
        ⟨payload, h _ List.mem_cons_self payload rfl, rfl⟩
      have hvideo := videoOf_of_yields hyields ssrc
      have hpacket : retriedPacket (frame, .opened payload) = some (makeVideoMediaPacket
        frame.decoded frame.codec frame.ssrc frame.userId frame.raw payload frame.rtpPackets
        frame.receivedAt) := rfl
      rw [List.filterMap_cons_some hpacket]
      by_cases hssrc : frame.ssrc = ssrc
      · rw [List.filter_cons_of_pos (by simpa using hssrc), List.filter_cons_of_pos rfl,
          List.map_cons, List.filter_cons_of_pos (hvideo.trans (decide_eq_true hssrc))]
        exact .cons hyields ih
      · rw [List.filter_cons_of_neg (by simpa using hssrc),
          List.filter_cons_of_neg (by rw [hvideo]; exact fun heq => hssrc (of_decide_eq_true heq))]
        exact ih
    all_goals
      rw [List.filterMap_cons_none rfl, List.filter_cons]
      split
      · rwa [List.filter_cons_of_neg (by simp [Retried.isOpened])]
      · exact ih

theorem retryPendingDaveVideoFrames_eq (st : ReceiveState σ) :
    (retryPendingDaveVideoFrames env st).1 = (retries env st).filterMap retriedPacket ∧
    (retryPendingDaveVideoFrames env st).2.pendingDaveVideoFrames =
      ((retries env st).filter (·.2 = .waits)).map Prod.fst := by
  unfold retryPendingDaveVideoFrames retries
  split
  · rename_i hempty
    have hnil := List.isEmpty_iff.1 hempty
    refine ⟨?_, hnil.trans ?_⟩ <;> rw [hnil] <;> rfl
  · dsimp only
    rw [retryLoop_eq]
    exact ⟨rfl, rfl⟩

/-- **The retry in front of a batch**, if no frame is opened in front of which one of its SSRC waits
on: the frames go through the queue. -/
theorem through_retry {st : ReceiveState σ} (h : ¬ OvertakesOnRetry env st) :
    Through env ssrc st [] (retryPendingDaveVideoFrames env st).1
      (retryPendingDaveVideoFrames env st).2 := by
  obtain ⟨hpackets, hpending⟩ : (retryPendingDaveVideoFrames env st).1 = _ ∧ _ :=
    retryPendingDaveVideoFrames_eq st
  have hfrom : (retries env st).map Prod.fst = st.pendingDaveVideoFrames :=
    map_fst_outputs_retryFrame ..
  have hopens : ∀ x ∈ retries env st, ∀ payload, x.2 = .opened payload →
      env.Opens x.1.payload payload :=
    forall_mem_outputs_iff.2 fun pre frame _ _ payload hopened => by
      rw [retryFrame_fst]
      exact opens_retryFrame hopened
  have hpairs : ((retries env st).filter (·.1.ssrc = ssrc)).Pairwise fun a b =>
      decide (a.2 = .waits) = true → ¬ b.2.isOpened = true := by
    refine ((not_not.1 h).filter _).imp_of_mem fun ha hb hab hwaits hopened => ?_
    have hssrc := of_decide_eq_true (List.mem_filter.1 ha).2
    exact hab (of_decide_eq_true hwaits) hopened
      (hssrc.trans (of_decide_eq_true (List.mem_filter.1 hb).2).symm)
  have hsub := (filter_append_filter_sublist (fun x hx => by
    rw [of_decide_eq_true hx]
    exact Bool.false_ne_true) hpairs).map (·.1.frame)
  -- the frames of the SSRC that waited before, and those that still do
  have hbefore : waiting ssrc st =
      ((retries env st).filter (·.1.ssrc = ssrc)).map (·.1.frame) := by
    unfold waiting
    rw [← hfrom, List.map_map, List.filter_map]
    rfl
  have hafter : waiting ssrc (retryPendingDaveVideoFrames env st).2 =
      (((retries env st).filter (·.1.ssrc = ssrc)).filter (·.2 = .waits)).map (·.1.frame) := by
    unfold waiting
    rw [hpending, List.map_map, List.filter_map, List.filter_comm]
    rfl
  unfold Through
  rw [hpackets, hbefore, hafter]
  refine ⟨_, forall₂_retriedPacket hopens, ?_⟩
  rw [← List.map_append, List.filter_nil, List.append_nil]
  exact hsub

end Retry

end Queue

/-! ## Runs -/

section Run

variable {σ : Type} {aead : Aead} {r : Receiver σ} {st : ReceiveState σ} {ssrc : UInt32}

theorem eventFrames_batch (context : BatchContext) (batch : List Bytes) :
    r.eventFrames aead st (.batch context batch) =
      (calls (r.decodeDecodedMediaPacket context) (retryPendingDaveVideoFrames r.env st).2
        (decodeRtpPackets aead context.crypto batch)).flatMap fun c =>
          r.packetFrames context c.1 c.2 := by
  unfold Receiver.eventFrames Receiver.eventArrivals Receiver.arrivals Receiver.packetFrames
  rw [List.filterMap_eq_flatMap_toList, List.flatMap_assoc]

/-- A batch: the frames that wait are retried, and the packets follow. -/
theorem through_handleSocketPackets {context : BatchContext} {batch : List Bytes}
    (h : KeepsOrder aead r st (.batch context batch)) :
    Through r.env ssrc st (r.eventFrames aead st (.batch context batch))
      (r.handleSocketPackets aead context st batch).1
      (r.handleSocketPackets aead context st batch).2 := by
  have hcomposes := composes_through r.env ssrc
  obtain ⟨hretry, harrivals⟩ := h
  have hpending : Through r.env ssrc st [] (retryPendingDaveVideoFrames r.env st).1
      (retryPendingDaveVideoFrames r.env st).2 := through_retry hretry
  rw [eventFrames_batch]
  unfold Receiver.handleSocketPackets Receiver.decodeMediaPackets
  dsimp only
  have hpackets := hcomposes.collect (fun _ _ => through_decodeDecodedMediaPacket)
    fun c hc d hd => harrivals d (List.mem_flatMap.2 ⟨c, hc, hd⟩)
  cases hcollect : (collect (r.decodeDecodedMediaPacket context)
      (retryPendingDaveVideoFrames r.env st).2 (decodeRtpPackets aead context.crypto batch)).1 with
  | error e =>
    rw [hcollect] at hpackets
    exact hcomposes.trans (hcomposes.lose hpending) hpackets
  | ok results =>
    rw [hcollect] at hpackets
    exact hcomposes.trans hpending hpackets

/-- **One event** with which no frame gets in front of one that waits. -/
theorem through_step (st : ReceiveState σ) (event : Receiver.Event)
    (h : KeepsOrder aead r st event) :
    Through r.env ssrc st (r.eventFrames aead st event) (r.step aead st event).1
      (r.step aead st event).2 := by
  cases event with
  | batch context batch => exact through_handleSocketPackets h
  | resetReceiveTransportState => exact Passes.wait (List.nil_sublist _)

/-- **The frames of every SSRC are delivered in the order in which they are put together**, and none
twice, in a run in which no frame is opened in front of which one of its SSRC waits: not in the
queue when it is retried, and not as soon as it is put together. -/
theorem videoInOrder_of_run (aead : Aead) (r : Receiver σ) (environment : σ)
    (events : List Receiver.Event)
    (h : ∀ c ∈ visits (r.step aead) { environment } events, KeepsOrder aead r c.1 c.2)
    (ssrc : UInt32) :
    DeliveredInOrder r.env ssrc (r.depacketizedFrames aead { environment } events)
      (r.deliveredPackets aead { environment } events) :=
  Passes.of_nil ((composes_through r.env ssrc).outputs through_step h)

/-- A session that opens frames from the `n`-th question on. -/
def lateReceiver (n : ℕ) : Receiver ℕ where
  build := .release
  env := {
    perfCounter := fun s => (0, s)
    daveSession := fun s => (true, s)
    canEncrypt := fun s => (n ≤ s, s + 1)
    ready := fun s => (false, s)
    canPassthrough := fun _ s => (false, s)
    decrypt := fun _ _ payload s => (.ok payload, s) }
  opusSilence := [0xF8, 0xFF, 0xFE]
  videoReceiveReorderMaxPackets := 2048
  videoReceiveReorderMaxDelay := 1 / 10

/-- VP8 of a user that is known. -/
def vp8OfUser : BatchContext :=
  { opusAndVp8 with connection := { opusAndVp8.connection with ssrcUserIds := fun _ => some 5 } }

/-- A batch with a VP8 packet whose frame looks like an encrypted one. -/
def daveBatch (sequence timestamp : UInt8) : Receiver.Event :=
  .batch vp8OfUser [sealedPacket 229 sequence timestamp 8
    ([0x10, sequence] ++ List.replicate 8 0 ++ [0, 12, 0xFA, 0xFA])]

/-- The first frame waits, and the session is ready for it and the second one. -/
theorem videoInOrder_of_run_readyInTime :
    ((lateReceiver 1).deliveredPackets tagOnly { environment := 0 }
      [daveBatch 1 7, daveBatch 2 9]).map MediaPacket.timestamp = [7, 9] ∧
    DeliveredInOrder (lateReceiver 1).env 8
      ((lateReceiver 1).depacketizedFrames tagOnly { environment := 0 }
        [daveBatch 1 7, daveBatch 2 9])
      ((lateReceiver 1).deliveredPackets tagOnly { environment := 0 }
        [daveBatch 1 7, daveBatch 2 9]) :=
  ⟨by decide +kernel, videoInOrder_of_run _ _ _ _ (by decide +kernel) _⟩

theorem timestamps_of_forall₂ {env : Environment σ} {frames : List DepacketizedFrame}
    {packets : List MediaPacket} (h : List.Forall₂ (DepacketizedFrame.Yields env) frames packets) :
    packets.map MediaPacket.timestamp = frames.map fun frame => frame.decoded.timestamp := by
  induction h with
  | nil => rfl
  | cons hyields _ ih =>
    obtain ⟨payload, -, rfl⟩ := hyields
    rw [List.map_cons, List.map_cons, ih]
    rfl

/-- The session is ready between the retry of the first frame and the second frame, which is
delivered before it. -/
theorem not_deliveredInOrder :
    ¬ DeliveredInOrder (lateReceiver 2).env 8
      ((lateReceiver 2).depacketizedFrames tagOnly { environment := 0 }
        [daveBatch 1 7, daveBatch 2 9, daveBatch 3 11])
      ((lateReceiver 2).deliveredPackets tagOnly { environment := 0 }
        [daveBatch 1 7, daveBatch 2 9, daveBatch 3 11]) := by
  rintro ⟨taken, htaken, hyields⟩
  have hpackets := timestamps_of_forall₂ hyields
  have hsub := htaken.map fun frame => frame.decoded.timestamp
  rw [← hpackets] at hsub
  have hnot : ¬ ((((lateReceiver 2).deliveredPackets tagOnly { environment := 0 }
      [daveBatch 1 7, daveBatch 2 9, daveBatch 3 11]).filter (MediaPacket.videoOf 8)).map
        MediaPacket.timestamp).Sublist
      ((((lateReceiver 2).depacketizedFrames tagOnly { environment := 0 }
        [daveBatch 1 7, daveBatch 2 9, daveBatch 3 11]).filter (·.ssrc = 8)).map
        fun frame => frame.decoded.timestamp) := by
    decide +kernel
  exact hnot hsub

end Run

end NativeVoice.Receive
