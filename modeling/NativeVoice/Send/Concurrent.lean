import NativeVoice.Send.Wire

/-!
# Concurrent senders

Threads that share a `VideoSendPipeline` and a socket. A call of `send_video_frame`,
`send_video_rtx_packet` or `send_video_rtx_for_nack` runs in atomic sections: it takes `send_lock`,
prepares its packets under the state lock, sends one packet after the other, and gives `send_lock`
back. `configure_stream` and `retain_streams` need the state lock only, so they fall between any two
sections. Packets are listed as they are handed to the socket; protecting them, which happens one by
one right before that, leaves the order alone.

* `Ordered` is the invariant: only the thread with `send_lock` is within a call, and the numbers
  that were used are on the packets sent, followed by the packets that this thread still has to
  send.
* `transport_sequences_in_order`: what reaches the socket is numbered consecutively.
-/

namespace NativeVoice.Send

open Lib Video Transport

/-- A call that sends packets, with the clock readings that it uses. -/
inductive SendCall (τ : Type)
  | sendVideoFrame (mediaSsrc : UInt32) (frame : Bytes) (metadataFrame : Option Bytes)
    (frameTimeMs : τ) (mediaStreamType : String) (now : ℕ → UInt32)
  | sendVideoRtxPacket (mediaSsrc : UInt32) (sequence : UInt16) (mediaStreamType : String)
    (now : UInt32)
  | sendVideoRtxForNack (payload : Bytes) (mediaStreamType : String) (now : ℕ → UInt32)

def SendCall.toCall {τ : Type} : SendCall τ → Call τ
  | .sendVideoFrame mediaSsrc frame metadataFrame frameTimeMs mediaStreamType now =>
    .sendVideoFrame mediaSsrc frame metadataFrame frameTimeMs mediaStreamType now
  | .sendVideoRtxPacket mediaSsrc sequence mediaStreamType now =>
    .sendVideoRtxPacket mediaSsrc sequence mediaStreamType now
  | .sendVideoRtxForNack payload mediaStreamType now =>
    .sendVideoRtxForNack payload mediaStreamType now

/-! ## The section under the state lock -/

namespace VideoSendPipelineState

variable {τ ρ : Type} (clock : TickClock τ ρ) (b : Build)

/-- The packets that a call prepares for `send_prepared_packets`. -/
def prepare (s : VideoSendPipelineState ρ) :
    SendCall τ → Fallible SendError (List PreparedRTPPacket) × VideoSendPipelineState ρ
  | .sendVideoFrame mediaSsrc frame metadataFrame frameTimeMs mediaStreamType now =>
    match s.prepareVideoFrameInner clock b mediaSsrc frame metadataFrame frameTimeMs mediaStreamType
      now with
    | (.error e, s) => (.error e, s)
    | (.ok prepared, s) => (.ok prepared.packets, s)
  | .sendVideoRtxPacket mediaSsrc sequence mediaStreamType now =>
    match s.prepareVideoRtxPacketInner mediaSsrc sequence mediaStreamType now with
    | (.error e, s) => (.error (.err e), s)
    | (.ok prepared, s) => (.ok prepared.packet.toList, s)
  | .sendVideoRtxForNack payload mediaStreamType now =>
    match s.prepareVideoRtxForNackInner payload mediaStreamType now with
    | (.error e, s) => (.error (.err e), s)
    | (.ok prepared, s) => (.ok prepared.packets, s)

theorem prepare_snd (s : VideoSendPipelineState ρ) (call : SendCall τ) :
    (s.prepare clock b call).2 = s.step clock b call.toCall := by
  cases call with
  | sendVideoFrame mediaSsrc frame metadataFrame frameTimeMs mediaStreamType now =>
    simp only [prepare, SendCall.toCall, step]
    split <;> simp_all only
  | sendVideoRtxPacket mediaSsrc sequence mediaStreamType now =>
    simp only [prepare, SendCall.toCall, step]
    split <;> simp_all only
  | sendVideoRtxForNack payload mediaStreamType now =>
    simp only [prepare, SendCall.toCall, step]
    split <;> simp_all only

/-- The streams agree with some history. -/
def Consistent (s : VideoSendPipelineState ρ) : Prop :=
  ∃ history, (⟨s, history⟩ : Tracked ρ).Recorded

variable {clock b} {s : VideoSendPipelineState ρ}

variable (clock b) in
theorem Consistent.step (h : s.Consistent) (call : Call τ) :
    (s.step clock b call).Consistent := by
  obtain ⟨history, h⟩ := h
  exact ⟨_, Tracked.Recorded.step clock b h call⟩

theorem transportSequence_configureStream (s : VideoSendPipelineState ρ) (codec : String)
    (mediaSsrc : UInt32) (payloadType : UInt16) (rtxPayloadType : Option UInt16) (rtxSsrc : UInt32)
    (rid : String) (sequence : UInt16) (timestamp : UInt32) :
    (s.configureStream clock codec mediaSsrc payloadType rtxPayloadType rtxSsrc rid sequence
      timestamp).2.transportSequence = s.transportSequence := by
  unfold configureStream
  split
  · rfl
  · unfold configure
    dsimp only
    split
    · rfl
    · split <;> rfl

theorem Consistent.of_sameStreams (h : s.Consistent) {s' : VideoSendPipelineState ρ}
    (hs : SameStreams s s') : s'.Consistent := by
  obtain ⟨history, h⟩ := h
  exact ⟨history, Tracked.recorded_of_sameStreams h hs⟩

variable (clock b) in
/-- **The section under the state lock** fails and uses no number, or uses those that its packets
carry. -/
theorem Consistent.prepare (h : s.Consistent) (call : SendCall τ) :
    (∃ e, s.prepare clock b call = (.error e, s)) ∨
    ∃ packets s', s.prepare clock b call = (.ok packets, s') ∧ s'.Consistent ∧
      Numbered s.transportSequence packets s'.transportSequence := by
  have hnext := h.step clock b call.toCall
  rw [← prepare_snd] at hnext
  cases call with
  | sendVideoFrame mediaSsrc frame metadataFrame frameTimeMs mediaStreamType now =>
    obtain ⟨history, hrecorded⟩ := h
    rcases prepareVideoFrameInner_numbered clock b
      (fun stream hs => ⟨(hrecorded mediaSsrc stream hs).mtu, (hrecorded mediaSsrc stream hs).ssrc⟩)
      frame metadataFrame frameTimeMs mediaStreamType now with
      ⟨e, heq⟩ | ⟨prepared, s', heq, hnumbered, -⟩
    · exact .inl ⟨e, by rw [VideoSendPipelineState.prepare, heq]⟩
    · rw [VideoSendPipelineState.prepare, heq] at hnext ⊢
      exact .inr ⟨_, _, rfl, hnext, hnumbered⟩
  | sendVideoRtxPacket mediaSsrc sequence mediaStreamType now =>
    rcases s.prepareVideoRtxPacketInner_numbered mediaSsrc sequence mediaStreamType now with
      ⟨e, heq⟩ | ⟨prepared, s', heq, hnumbered, -⟩
    · exact .inl ⟨.err e, by rw [VideoSendPipelineState.prepare, heq]⟩
    · rw [VideoSendPipelineState.prepare, heq] at hnext ⊢
      exact .inr ⟨_, _, rfl, hnext, hnumbered⟩
  | sendVideoRtxForNack payload mediaStreamType now =>
    obtain ⟨prepared, s', heq, hnumbered, -⟩ :=
      s.prepareVideoRtxForNackInner_numbered payload mediaStreamType now
    rw [VideoSendPipelineState.prepare, heq] at hnext ⊢
    exact .inr ⟨_, _, rfl, hnext, hnumbered⟩

end VideoSendPipelineState

/-! ## Threads -/

/-- Where a thread is: outside of the pipeline, behind `lock_send` in a call, or in
`send_prepared_packets` with these packets to go. -/
inductive Phase (τ : Type)
  | idle
  | locked (call : SendCall τ)
  | sending (packets : List PreparedRTPPacket)

/-- The packets that a thread still has to send. -/
def Phase.packets {τ : Type} : Phase τ → List PreparedRTPPacket
  | .sending packets => packets
  | _ => []

structure Senders (Θ τ ρ : Type) where
  pipeline : VideoSendPipelineState ρ
  phase : Θ → Phase τ
  sendLock : Option Θ
  poisoned : Bool
  wire : List PreparedRTPPacket

/-- The atomic sections. -/
inductive Section (Θ τ : Type)
  | lockSend (t : Θ) (call : SendCall τ)
  | prepare (t : Θ)
  | transmit (t : Θ)
  | configureStream (codec : String) (mediaSsrc : UInt32) (payloadType : UInt16)
    (rtxPayloadType : Option UInt16) (rtxSsrc : UInt32) (rid : String) (sequence : UInt16)
    (timestamp : UInt32)
  | retainStreams (mediaSsrcs : List UInt32)

namespace Senders

variable {Θ τ ρ : Type} [DecidableEq Θ] (clock : TickClock τ ρ) (b : Build)

def new (transportSequence : UInt16) : Senders Θ τ ρ where
  pipeline := .new transportSequence
  phase := fun _ => .idle
  sendLock := none
  poisoned := false
  wire := []

/-- The thread leaves its call, and drops the guard of `send_lock`. -/
def leave (s : Senders Θ τ ρ) (t : Θ) : Senders Θ τ ρ :=
  { s with phase := Function.update s.phase t .idle, sendLock := none }

/-- What a section does; nothing where its thread cannot run it now. -/
def step (s : Senders Θ τ ρ) : Section Θ τ → Senders Θ τ ρ
  | .lockSend t call => match s.phase t, s.sendLock with
    -- a poisoned lock is an error for the caller
    | .idle, none => if s.poisoned then s else
        { s with phase := Function.update s.phase t (.locked call), sendLock := some t }
    | _, _ => s
  | .prepare t => match s.phase t with
    | .locked call => match s.pipeline.prepare clock b call with
      | (.ok packets, pipeline) =>
        { s with pipeline, phase := Function.update s.phase t (.sending packets) }
      | (.error (.err _), pipeline) => { s with pipeline }.leave t
      -- unwinding poisons both locks
      | (.error .panic, pipeline) => { s with pipeline, poisoned := true }.leave t
    | _ => s
  | .transmit t => match s.phase t with
    | .sending [] => s.leave t
    | .sending (packet :: packets) =>
      { s with
        phase := Function.update s.phase t (.sending packets)
        wire := s.wire ++ [packet] }
    | _ => s
  | .configureStream codec mediaSsrc payloadType rtxPayloadType rtxSsrc rid sequence timestamp =>
    if s.poisoned then s
    else { s with pipeline := (s.pipeline.configureStream clock codec mediaSsrc payloadType
      rtxPayloadType rtxSsrc rid sequence timestamp).2 }
  | .retainStreams mediaSsrcs =>
    if s.poisoned then s else { s with pipeline := s.pipeline.retainStreams mediaSsrcs }

/-- The sections in the order in which they are run. -/
def run (transportSequence : UInt16) (sections : List (Section Θ τ)) : Senders Θ τ ρ :=
  sections.foldl (step clock b) (new transportSequence)

/-- The packets that were prepared and not yet sent. -/
def held (s : Senders Θ τ ρ) : List PreparedRTPPacket :=
  match s.sendLock with
  | none => []
  | some t => (s.phase t).packets

/-! ## The invariant -/

structure Ordered (start : UInt16) (s : Senders Θ τ ρ) : Prop where
  consistent : s.pipeline.Consistent
  exclusive : ∀ t, s.phase t ≠ .idle → s.sendLock = some t
  numbered : Numbered start (s.wire ++ s.held) s.pipeline.transportSequence

variable {clock b} {start : UInt16} {s : Senders Θ τ ρ}

omit [DecidableEq Θ] in
theorem ordered_new (start : UInt16) : (new start : Senders Θ τ ρ).Ordered start where
  consistent := ⟨fun _ => {}, Tracked.recorded_new start⟩
  exclusive _ h := absurd rfl h
  numbered := .nil start

omit [DecidableEq Θ] in
/-- A section that only touches the streams. -/
theorem Ordered.setPipeline (h : s.Ordered start) {pipeline : VideoSendPipelineState ρ}
    (hconsistent : pipeline.Consistent)
    (hsame : pipeline.transportSequence = s.pipeline.transportSequence) :
    ({ s with pipeline } : Senders Θ τ ρ).Ordered start where
  consistent := hconsistent
  exclusive := h.exclusive
  numbered := hsame ▸ h.numbered

/-- The thread with `send_lock` moves on within its call. -/
theorem Ordered.move (h : s.Ordered start) {t : Θ} (ht : s.phase t ≠ .idle) (phase : Phase τ)
    {pipeline : VideoSendPipelineState ρ} (hconsistent : pipeline.Consistent)
    {wire : List PreparedRTPPacket}
    (hnumbered : Numbered start (wire ++ phase.packets) pipeline.transportSequence) :
    ({ s with pipeline, wire, phase := Function.update s.phase t phase } :
      Senders Θ τ ρ).Ordered start where
  consistent := hconsistent
  exclusive t' ht' := by
    by_cases heq : t' = t
    · exact heq ▸ h.exclusive t ht
    · exact h.exclusive t' (by simpa [Function.update_of_ne heq] using ht')
  numbered := by
    have hheld : ({ s with pipeline, wire, phase := Function.update s.phase t phase } :
        Senders Θ τ ρ).held = phase.packets := by
      simp [held, h.exclusive t ht]
    rwa [hheld]

/-- The thread with `send_lock` leaves its call without packets to send. -/
theorem Ordered.leave (h : s.Ordered start) {t : Θ} (ht : s.phase t ≠ .idle)
    (hpackets : (s.phase t).packets = []) (poisoned : Bool) :
    ({ s with poisoned }.leave t).Ordered start where
  consistent := h.consistent
  exclusive t' ht' := by
    by_cases heq : t' = t
    · exact absurd (by simp [Senders.leave, heq]) ht'
    · have hphase : s.phase t' ≠ .idle := by
        simpa [Senders.leave, Function.update_of_ne heq] using ht'
      exact absurd (Option.some.inj ((h.exclusive t' hphase).symm.trans (h.exclusive t ht))) heq
  numbered := by
    have hheld : s.held = [] := by simp [held, h.exclusive t ht, hpackets]
    have hnumbered := h.numbered
    rwa [hheld] at hnumbered

/-- **Every section keeps the order.** -/
theorem Ordered.step (h : s.Ordered start) (x : Section Θ τ) :
    (s.step clock b x).Ordered start := by
  cases x with
  | lockSend t call =>
    simp only [Senders.step]
    split
    · rename_i hphase hlock
      split
      · exact h
      · have hidle : ∀ t', s.phase t' = .idle := by
          intro t'
          by_contra hne
          exact absurd (hlock.symm.trans (h.exclusive t' hne)) (by simp)
        refine ⟨h.consistent, fun t' ht' => ?_, ?_⟩
        · by_cases heq : t' = t
          · exact congrArg some heq.symm
          · exact absurd (hidle t') (by simpa [Function.update_of_ne heq] using ht')
        · have hnumbered := h.numbered
          simp only [held, hlock] at hnumbered
          simpa [held, Phase.packets] using hnumbered
    · exact h
  | prepare t =>
    simp only [Senders.step]
    split
    · rename_i call hphase
      have ht : s.phase t ≠ .idle := by simp [hphase]
      have hheld : s.held = [] := by simp [held, h.exclusive t ht, hphase, Phase.packets]
      have hwire := h.numbered
      rw [hheld, List.append_nil] at hwire
      rcases h.consistent.prepare clock b call with
        ⟨e, heq⟩ | ⟨packets, pipeline, heq, hconsistent, hnumbered⟩
      · rw [heq]
        cases e with
        | err e => exact h.leave ht (by rw [hphase]; rfl) s.poisoned
        | panic => exact h.leave ht (by rw [hphase]; rfl) true
      · rw [heq]
        exact h.move ht (.sending packets) hconsistent (hwire.append hnumbered)
    · exact h
  | transmit t =>
    simp only [Senders.step]
    split
    · rename_i hphase
      exact h.leave (by simp [hphase]) (by rw [hphase]; rfl) s.poisoned
    · rename_i packet packets hphase
      have ht : s.phase t ≠ .idle := by simp [hphase]
      have hheld : s.held = packet :: packets := by
        simp [held, h.exclusive t ht, hphase, Phase.packets]
      have hnumbered := h.numbered
      rw [hheld, ← List.singleton_append, ← List.append_assoc] at hnumbered
      exact h.move ht (.sending packets) h.consistent hnumbered
    · exact h
  | configureStream codec mediaSsrc payloadType rtxPayloadType rtxSsrc rid sequence timestamp =>
    simp only [Senders.step]
    split
    · exact h
    · refine h.setPipeline (h.consistent.step clock b (.configureStream codec mediaSsrc payloadType
        rtxPayloadType rtxSsrc rid sequence timestamp)) ?_
      exact VideoSendPipelineState.transportSequence_configureStream ..
  | retainStreams mediaSsrcs =>
    simp only [Senders.step]
    split
    · exact h
    · exact h.setPipeline (h.consistent.step clock b (.retainStreams mediaSsrcs))
        rfl

/-- **Every run keeps the order.** -/
theorem ordered_run (start : UInt16) (sections : List (Section Θ τ)) :
    (run clock b start sections : Senders Θ τ ρ).Ordered start := by
  unfold run
  generalize hs : (new start : Senders Θ τ ρ) = s
  have h : s.Ordered start := hs ▸ ordered_new start
  clear hs
  induction sections generalizing s with
  | nil => exact h
  | cons x sections ih => exact ih _ (h.step x)

end Senders

/-- **Transport-wide sequence numbers on the wire.** However the sections of concurrent callers
interleave, the packets that reach the socket carry the numbers behind the one that the pipeline
started with, in socket order, none of them twice and none left out. While no thread is within a
call, every number used is on a packet sent. -/
theorem transport_sequences_in_order {Θ τ ρ : Type} [DecidableEq Θ] (clock : TickClock τ ρ)
    (b : Build) (start : UInt16) (sections : List (Section Θ τ)) :
    let s := Senders.run clock b start sections
    s.wire.map PreparedRTPPacket.transportSequence =
      (List.range s.wire.length).map (fun i => some (start + 1 + UInt16.ofNat i)) ∧
    (s.sendLock = none →
      s.pipeline.transportSequence = start + UInt16.ofNat s.wire.length) := by
  intro s
  have h : s.Ordered start := Senders.ordered_run start sections
  constructor
  · have hsequences := congrArg (List.take s.wire.length) h.numbered.sequences
    rw [List.map_append, List.take_left' (List.length_map ..), ← List.map_take, List.take_range,
      List.length_append, Nat.min_eq_left (Nat.le_add_right _ _)] at hsequences
    exact hsequences
  · intro hlock
    have hnumbered := h.numbered
    simp only [Senders.held, hlock, List.append_nil] at hnumbered
    exact hnumbered.next

end NativeVoice.Send
