import NativeVoice.Lib.Dict
import NativeVoice.Lib.Monitor
import NativeVoice.Media.MixedWaveSink
import NativeVoice.Receive.PendingNacks
import NativeVoice.Receive.VideoFrames

/-!
# Decoding received sound

`_OpusDecoderCache` of `src/discord/ext/native_voice/media.py`, which has an Opus decoder for every
SSRC, and what `PCMDecodeSink` makes of a packet with it. With FEC, a packet that comes right behind
a missing one is decoded twice: what it says of the missing one goes first.

The decoder itself is a parameter: what it makes of a payload may depend on all it has decoded.

* `pcmPackets` is what a packet becomes.
* `heard` is what a log says of an SSRC: what its decoder was asked, and the last packet that it
  decoded. `Remembers` is the invariant of the cache.
* `pcmPackets_run`: in a run, every packet becomes what the decoder of its SSRC answers, with a
  packet for the one before if exactly one is missing and the decoder recovers it.
-/

namespace NativeVoice.Media

open Lib
open Receive (MediaType sequenceDelta)

/-! ## Packets and decoders -/

/-- A `MediaPacket` as a sink gets it, with the fields that the packets of video do not have. -/
structure SinkPacket extends Receive.MediaPacket where
  rtcpTime : Option ℚ := none
  speakingFlags : Option ℕ := none
  audioLevel : Option ℕ := none
  audioVoiceActivity : Option Bool := none
  deriving DecidableEq

/-- An Opus decoder, with its states. -/
structure OpusDecoder (δ : Type*) where
  new : δ
  /-- The PCM of a payload, or of the one before it, unless the decoder raises. -/
  decode : δ → Bytes → (fec : Bool) → Option Bytes × δ
  packetGetNbFrames : Bytes → Option ℕ
  packetGetSamplesPerFrame : Bytes → Option ℕ

/-- `_OpusDecodeState`. -/
structure OpusDecodeState (δ : Type*) where
  decoder : δ
  sequence : Option UInt16 := none
  timestamp : Option UInt32 := none

abbrev OpusDecoderCache (δ : Type*) := Dict UInt32 (OpusDecodeState δ)

variable {δ : Type*} (o : OpusDecoder δ)

namespace OpusDecoder

/-- `_state_for`. -/
def stateFor (cache : OpusDecoderCache δ) (packet : SinkPacket) : OpusDecodeState δ :=
  (cache.lookup packet.ssrc).getD { decoder := o.new }

/-- `_packet_samples`. -/
def packetSamples (packet : SinkPacket) : Option ℕ := do
  let frames ← o.packetGetNbFrames packet.payload
  let samplesPerFrame ← o.packetGetSamplesPerFrame packet.payload
  return max 1 (frames * samplesPerFrame)

/-- The packet decoded, and the state behind it. -/
def decodeOne (state : OpusDecodeState δ) (packet : SinkPacket) :
    Option SinkPacket × OpusDecodeState δ :=
  match o.decode state.decoder packet.payload false with
  | (none, decoder) => (none, { state with decoder })
  | (some payload, decoder) =>
    (some { packet with codec := "pcm", payload := payload },
      { decoder, sequence := some packet.sequence, timestamp := some packet.timestamp })

/-- The packet that stands for the one before. -/
def recoveredPacket (packet : SinkPacket) (payload : Bytes) (samples : ℕ) : SinkPacket :=
  { packet with
    codec := "pcm"
    payload := payload
    sequence := packet.sequence - 1
    timestamp := packet.timestamp - UInt32.ofNat samples
    raw := []
    extensionPayload := []
    rtpExtended := false
    rtpExtensions := []
    rtpPackets := []
    speakingFlags := none
    audioLevel := none
    audioVoiceActivity := none }

/-- Exactly one packet is missing, of the same length as this one. -/
def followsGap (state : OpusDecodeState δ) (packet : SinkPacket) (samples : ℕ) : Bool :=
  match state.sequence, state.timestamp with
  | some sequence, some timestamp =>
    sequenceDelta packet.sequence sequence = 2 ∧
      rtpTimestampDelta packet.timestamp timestamp = some (samples * 2)
  | _, _ => false

/-- The first half of `decode_packets`, where what the decoder raises is caught. -/
def recover (state : OpusDecodeState δ) (packet : SinkPacket) (samples : ℕ) :
    List SinkPacket × OpusDecodeState δ :=
  if followsGap state packet samples then
    match o.decode state.decoder packet.payload true with
    | (none, decoder) => ([], { state with decoder })
    | (some payload, decoder) => ([recoveredPacket packet payload samples], { state with decoder })
  else ([], state)

/-- `decode` and `decode_packets` for an Opus packet: the packets, unless the decoder raises. -/
def decodePackets (cache : OpusDecoderCache δ) (packet : SinkPacket) (fec : Bool) :
    Option (List SinkPacket) × OpusDecoderCache δ :=
  let state := o.stateFor cache packet
  if !fec then
    let (decoded, state) := o.decodeOne state packet
    (decoded.map ([·]), cache.set packet.ssrc state)
  else match o.packetSamples packet with
  | none => (none, cache.set packet.ssrc state)
  | some samples =>
    let (recovered, state) := o.recover state packet samples
    let (decoded, state) := o.decodeOne state packet
    (decoded.map fun packet => recovered ++ [packet], cache.set packet.ssrc state)

/-- The packets that `PCMDecodeSink.write` passes on. -/
def pcmPackets (cache : OpusDecoderCache δ) (packet : SinkPacket) (fec : Bool) :
    Option (List SinkPacket) × OpusDecoderCache δ :=
  if packet.mediaType = .audio ∧ packet.codec = "opus" then o.decodePackets cache packet fec
  else (some [packet], cache)

end OpusDecoder

/-! ## Runs -/

/-- A packet that was written, whether FEC was on, and what it became. -/
structure DecodedPacket where
  packet : SinkPacket
  fec : Bool
  output : Option (List SinkPacket)

/-- What a sink makes of some packets, each with whether FEC is on, and the cache behind them. -/
def decodeRun (packets : List (SinkPacket × Bool)) : List DecodedPacket × OpusDecoderCache δ :=
  packets.foldl
    (fun run next =>
      let result := o.pcmPackets run.2 next.1 next.2
      (run.1 ++ [⟨next.1, next.2, result.1⟩], result.2))
    ([], ∅)

namespace SinkPacket

/-- A packet of Opus sound. -/
def isOpus (packet : SinkPacket) : Bool := packet.mediaType = .audio ∧ packet.codec = "opus"

/-- The packet, decoded. -/
def decoded (packet : SinkPacket) (payload : Bytes) : SinkPacket :=
  { packet with codec := "pcm", payload := payload }

/-- One packet of some samples is missing between two packets. -/
def OneMissing (last packet : SinkPacket) (samples : ℕ) : Prop :=
  packet.sequence = last.sequence + 2 ∧
    packet.timestamp = last.timestamp + UInt32.ofNat samples + UInt32.ofNat samples ∧
    samples < 2 ^ 30

end SinkPacket

/-- An SSRC: what has become of its decoder, and the last packet that was decoded. -/
structure Heard (δ : Type*) where
  decoder : δ
  last : Option SinkPacket := none

namespace Heard

variable (h : Heard δ)

/-- One packet of some samples is missing before a packet. -/
def MissesOne (packet : SinkPacket) (samples : ℕ) : Prop :=
  ∃ last ∈ h.last, last.OneMissing packet samples

instance (packet : SinkPacket) (samples : ℕ) : Decidable (h.MissesOne packet samples) :=
  inferInstanceAs (Decidable (∃ last ∈ h.last, _ ∧ _ ∧ _))

/-- What the decoder is asked of a packet, each time with FEC or without it: first for the packet
that is missing before, if there is one, and then for itself; nothing if its length cannot be
told. -/
def asked (packet : SinkPacket) (fec : Bool) : List Bool :=
  if !fec then [false]
  else match o.packetSamples packet with
    | none => []
    | some samples => if h.MissesOne packet samples then [true, false] else [false]

/-- The SSRC behind one of its packets. -/
def next (d : DecodedPacket) : Heard δ where
  decoder := (h.asked o d.packet d.fec).foldl
    (fun decoder fec => (o.decode decoder d.packet.payload fec).2) h.decoder
  last := if d.output.isSome then some d.packet else h.last

/-- What the cache has of an SSRC. -/
def state : OpusDecodeState δ where
  decoder := h.decoder
  sequence := h.last.map (·.sequence)
  timestamp := h.last.map (·.timestamp)

end Heard

/-- What a log says of an SSRC. -/
def heard (ssrc : UInt32) (log : List DecodedPacket) : Heard δ :=
  (log.filter fun d => d.packet.isOpus ∧ d.packet.ssrc = ssrc).foldl (Heard.next o)
    { decoder := o.new }

/-- The cache has of every SSRC what the log says. -/
def Remembers (cache : OpusDecoderCache δ) (log : List DecodedPacket) : Prop :=
  ∀ packet : SinkPacket, o.stateFor cache packet = (heard o packet.ssrc log).state

/-- **What an Opus packet becomes** on an SSRC: what the decoder answers there, or nothing if it
raises. -/
structure Becomes (h : Heard δ) (d : DecodedPacket) : Prop where
  alone : (d.fec = true → ∃ samples, o.packetSamples d.packet = some samples ∧
      ¬ h.MissesOne d.packet samples) →
    d.output = (o.decode h.decoder d.packet.payload false).1.map fun payload =>
      [d.packet.decoded payload]
  /-- What the decoder recovers of a packet that is missing goes first, in the place of it. -/
  missing : ∀ samples, d.fec = true → o.packetSamples d.packet = some samples →
    h.MissesOne d.packet samples →
    d.output = (o.decode (o.decode h.decoder d.packet.payload true).2 d.packet.payload false).1.map
      fun payload =>
        ((o.decode h.decoder d.packet.payload true).1.map
          (OpusDecoder.recoveredPacket d.packet · samples)).toList ++ [d.packet.decoded payload]
  place : ∀ samples recovered, ∀ last ∈ h.last, last.OneMissing d.packet samples →
    (OpusDecoder.recoveredPacket d.packet recovered samples).sequence = last.sequence + 1 ∧
      (OpusDecoder.recoveredPacket d.packet recovered samples).timestamp =
        last.timestamp + UInt32.ofNat samples
  unmeasured : d.fec = true → o.packetSamples d.packet = none → d.output = none

/-- Every Opus packet of a log has become what it should behind those before it. -/
def BringsBack (log : List DecodedPacket) : Prop :=
  ∀ before d later, log = before ++ d :: later → d.packet.isOpus = true →
    Becomes o (heard o d.packet.ssrc before) d

/-! ## What a packet becomes -/

theorem heard_append (ssrc : UInt32) (log : List DecodedPacket) (d : DecodedPacket) :
    heard o ssrc (log ++ [d]) =
      if d.packet.isOpus ∧ d.packet.ssrc = ssrc then (heard o ssrc log).next o d
      else heard o ssrc log := by
  unfold heard
  rw [List.filter_append, List.foldl_append]
  split
  · rename_i h
    rw [List.filter_cons_of_pos (by simpa using h)]
    rfl
  · rename_i h
    rw [List.filter_cons_of_neg (by simpa using h)]
    rfl

theorem sequenceDelta_eq_two {sequence previous : UInt16} :
    sequenceDelta sequence previous = 2 ↔ sequence = previous + 2 := by
  unfold sequenceDelta
  constructor
  · intro h
    have hdelta : sequence - previous = 2 := UInt16.toNat_inj.1 h
    rw [← hdelta]
    grind
  · rintro rfl
    have hdelta : previous + 2 - previous = 2 := by grind
    rw [hdelta]
    rfl

theorem rtpTimestampDelta_eq_double {timestamp base : UInt32} {samples : ℕ} :
    rtpTimestampDelta timestamp base = some (samples * 2) ↔
      timestamp = base + UInt32.ofNat samples + UInt32.ofNat samples ∧ samples < 2 ^ 30 := by
  unfold rtpTimestampDelta RTP_TIMESTAMP_HALF_RANGE
  have hdouble : UInt32.ofNat (samples * 2) = UInt32.ofNat samples + UInt32.ofNat samples := by
    rw [mul_two, UInt32.ofNat_add]
  constructor
  · intro h
    dsimp only at h
    split at h
    · cases h
    · rename_i hlt
      have hdelta : (timestamp - base).toNat = samples * 2 := Option.some.inj h
      refine ⟨?_, by omega⟩
      have heq : timestamp - base = UInt32.ofNat samples + UInt32.ofNat samples := by
        rw [← hdouble, ← hdelta, UInt32.ofNat_toNat]
      rw [add_assoc, ← heq]
      grind
  · rintro ⟨rfl, hlt⟩
    have hdelta : (base + UInt32.ofNat samples + UInt32.ofNat samples - base).toNat =
        samples * 2 := by
      have heq : base + UInt32.ofNat samples + UInt32.ofNat samples - base =
          UInt32.ofNat (samples * 2) := by
        rw [hdouble]
        grind
      rw [heq]
      exact UInt32.toNat_ofNat_of_lt' (show samples * 2 < 2 ^ 32 by omega)
    dsimp only
    rw [hdelta, if_neg (by omega)]

theorem followsGap_iff (h : Heard δ) (packet : SinkPacket) (samples : ℕ) :
    OpusDecoder.followsGap h.state packet samples = true ↔ h.MissesOne packet samples := by
  unfold OpusDecoder.followsGap Heard.MissesOne Heard.state SinkPacket.OneMissing
  cases h.last with
  | none => simp
  | some last =>
    simp only [Option.map_some, decide_eq_true_eq, Option.mem_some_iff, exists_eq_left']
    rw [sequenceDelta_eq_two, rtpTimestampDelta_eq_double]

/-- The packet that is recovered is right behind the last one. -/
theorem recoveredPacket_place {last packet : SinkPacket} {samples : ℕ}
    (h : last.OneMissing packet samples) (payload : Bytes) :
    (OpusDecoder.recoveredPacket packet payload samples).sequence = last.sequence + 1 ∧
      (OpusDecoder.recoveredPacket packet payload samples).timestamp =
        last.timestamp + UInt32.ofNat samples := by
  obtain ⟨hsequence, htimestamp, -⟩ := h
  refine ⟨?_, ?_⟩
  · show packet.sequence - 1 = last.sequence + 1
    rw [hsequence]
    grind
  · show packet.timestamp - UInt32.ofNat samples = last.timestamp + UInt32.ofNat samples
    rw [htimestamp]
    grind

section steps

variable {o} {cache : OpusDecoderCache δ} {log : List DecodedPacket} {packet : SinkPacket}

theorem stateFor_set (cache : OpusDecoderCache δ) (ssrc : UInt32) (state : OpusDecodeState δ)
    (packet : SinkPacket) :
    o.stateFor (cache.set ssrc state) packet =
      if packet.ssrc = ssrc then state else o.stateFor cache packet := by
  unfold OpusDecoder.stateFor
  rw [AList.lookup_set]
  split <;> rfl

theorem decodeOne_fst (state : OpusDecodeState δ) (packet : SinkPacket) :
    (o.decodeOne state packet).1 =
      (o.decode state.decoder packet.payload false).1.map packet.decoded := by
  unfold OpusDecoder.decodeOne
  split
  · rename_i heq
    rw [heq]
    rfl
  · rename_i heq
    rw [heq]
    rfl

@[simp] theorem state_decoder (h : Heard δ) : h.state.decoder = h.decoder := rfl

/-- A packet is decoded, and is the last one then, or it is not. -/
theorem decodeOne_snd (h : Heard δ) (packet : SinkPacket) :
    (o.decodeOne h.state packet).2 = Heard.state
      { decoder := (o.decode h.decoder packet.payload false).2
        last := if (o.decode h.decoder packet.payload false).1.isSome then some packet
          else h.last } := by
  unfold OpusDecoder.decodeOne Heard.state
  dsimp only
  split
  · rename_i heq
    simp [heq]
  · rename_i heq
    simp [heq]

/-- What the decoder says of a packet that is missing. -/
theorem recover_of_missesOne {h : Heard δ} {samples : ℕ} (hmisses : h.MissesOne packet samples) :
    o.recover h.state packet samples =
      (((o.decode h.decoder packet.payload true).1.map
          (OpusDecoder.recoveredPacket packet · samples)).toList,
        Heard.state { h with decoder := (o.decode h.decoder packet.payload true).2 }) := by
  unfold OpusDecoder.recover
  rw [if_pos ((followsGap_iff h packet samples).2 hmisses)]
  split
  · rename_i heq
    rw [show o.decode h.decoder packet.payload true = _ from heq]
    rfl
  · rename_i heq
    rw [show o.decode h.decoder packet.payload true = _ from heq]
    rfl

theorem recover_of_not_missesOne {h : Heard δ} {samples : ℕ}
    (hmisses : ¬ h.MissesOne packet samples) :
    o.recover h.state packet samples = ([], h.state) := by
  unfold OpusDecoder.recover
  rw [if_neg fun hgap => hmisses ((followsGap_iff h packet samples).1 hgap)]

/-- **What decoding a packet does** to its SSRC, and what becomes of the packet. -/
theorem decodePackets_spec {h : Heard δ} (hstate : o.stateFor cache packet = h.state) (fec : Bool) :
    (o.decodePackets cache packet fec).2 = cache.set packet.ssrc
        (h.next o ⟨packet, fec, (o.decodePackets cache packet fec).1⟩).state ∧
      Becomes o h ⟨packet, fec, (o.decodePackets cache packet fec).1⟩ := by
  have hplace : ∀ samples recovered, ∀ last ∈ h.last, last.OneMissing packet samples →
      (OpusDecoder.recoveredPacket packet recovered samples).sequence = last.sequence + 1 ∧
        (OpusDecoder.recoveredPacket packet recovered samples).timestamp =
          last.timestamp + UInt32.ofNat samples :=
    fun samples recovered last _ hmissing => recoveredPacket_place hmissing recovered
  unfold OpusDecoder.decodePackets
  rw [hstate]
  cases fec with
  | false =>
    refine ⟨?_, fun _ => ?_, fun _ hfec => Bool.noConfusion hfec, hplace,
      fun hfec => Bool.noConfusion hfec⟩
    · simp [decodeOne_snd, decodeOne_fst, Heard.next, Heard.asked]
    · simp [decodeOne_fst, Function.comp_def]
  | true =>
    cases hsamples : o.packetSamples packet with
    | none =>
      refine ⟨?_, fun halone => ?_, fun samples _ hsome => ?_, hplace, fun _ _ => rfl⟩
      · simp [Heard.next, Heard.asked, hsamples]
      · obtain ⟨samples, hsome, -⟩ := halone rfl
        cases hsamples.symm.trans hsome
      · cases hsamples.symm.trans hsome
    | some samples =>
      by_cases hmisses : h.MissesOne packet samples
      · refine ⟨?_, fun halone => ?_, fun samples' _ hsome _ => ?_, hplace, fun _ hnone => ?_⟩
        · simp [recover_of_missesOne hmisses, decodeOne_snd, decodeOne_fst, Heard.next, Heard.asked,
            hsamples, hmisses]
        · obtain ⟨samples', hsome, hnot⟩ := halone rfl
          obtain rfl := Option.some.inj (hsamples.symm.trans hsome)
          exact absurd hmisses hnot
        · obtain rfl := Option.some.inj (hsamples.symm.trans hsome)
          simp [recover_of_missesOne hmisses, decodeOne_fst, Function.comp_def]
        · cases hsamples.symm.trans hnone
      · refine ⟨?_, fun _ => ?_, fun samples' _ hsome hmisses' => ?_, hplace, fun _ hnone => ?_⟩
        · simp [recover_of_not_missesOne hmisses, decodeOne_snd, decodeOne_fst, Heard.next,
            Heard.asked, hsamples, hmisses]
        · simp [recover_of_not_missesOne hmisses, decodeOne_fst, Function.comp_def]
        · obtain rfl := Option.some.inj (hsamples.symm.trans hsome)
          exact absurd hmisses' hmisses
        · cases hsamples.symm.trans hnone

/-- What becomes of an Opus packet is of the same media type, and PCM. -/
theorem kind_of_mem_decodePackets {fec : Bool} {packets : List SinkPacket}
    (h : (o.decodePackets cache packet fec).1 = some packets) {q : SinkPacket} (hq : q ∈ packets) :
    q.mediaType = packet.mediaType ∧ q.codec = "pcm" := by
  have hone {state : OpusDecodeState δ} {decoded : SinkPacket}
      (hdecoded : (o.decodeOne state packet).1 = some decoded) :
      decoded.mediaType = packet.mediaType ∧ decoded.codec = "pcm" := by
    rw [decodeOne_fst] at hdecoded
    obtain ⟨payload, -, rfl⟩ := Option.map_eq_some_iff.1 hdecoded
    exact ⟨rfl, rfl⟩
  unfold OpusDecoder.decodePackets at h
  dsimp only at h
  split at h
  · obtain ⟨decoded, hdecoded, rfl⟩ := Option.map_eq_some_iff.1 h
    exact List.mem_singleton.1 hq ▸ hone hdecoded
  · split at h
    · cases h
    · obtain ⟨decoded, hdecoded, rfl⟩ := Option.map_eq_some_iff.1 h
      rcases List.mem_append.1 hq with hq | hq
      · unfold OpusDecoder.recover at hq
        split at hq
        · split at hq
          · exact absurd hq (by simp)
          · rw [List.mem_singleton.1 hq]
            exact ⟨rfl, rfl⟩
        · exact absurd hq (by simp)
      · exact List.mem_singleton.1 hq ▸ hone hdecoded

theorem pcmPackets_of_isOpus (cache : OpusDecoderCache δ) (hopus : packet.isOpus = true)
    (fec : Bool) : o.pcmPackets cache packet fec = o.decodePackets cache packet fec :=
  if_pos (by simpa [SinkPacket.isOpus] using hopus)

theorem Remembers.step (h : Remembers o cache log) (packet : SinkPacket) (fec : Bool) :
    Remembers o (o.pcmPackets cache packet fec).2
      (log ++ [⟨packet, fec, (o.pcmPackets cache packet fec).1⟩]) := by
  intro other
  rw [heard_append]
  cases hopus : packet.isOpus with
  | true =>
    rw [pcmPackets_of_isOpus cache hopus, (decodePackets_spec (h packet) fec).1, stateFor_set]
    by_cases hssrc : other.ssrc = packet.ssrc
    · rw [if_pos hssrc, if_pos ⟨rfl, hssrc.symm⟩, hssrc]
    · rw [if_neg hssrc, if_neg fun hsame => hssrc hsame.2.symm]
      exact h other
  | false =>
    have hsame : o.pcmPackets cache packet fec = (some [packet], cache) :=
      if_neg (by simpa [SinkPacket.isOpus] using hopus)
    rw [hsame, if_neg (by simp)]
    exact h other

theorem Remembers.becomes (h : Remembers o cache log) {packet : SinkPacket}
    (hopus : packet.isOpus = true) (fec : Bool) :
    Becomes o (heard o packet.ssrc log)
      ⟨packet, fec, (o.pcmPackets cache packet fec).1⟩ := by
  rw [pcmPackets_of_isOpus cache hopus]
  exact (decodePackets_spec (h packet) fec).2

end steps

/-- **In a run, an Opus packet becomes what the decoder of its SSRC answers**, and brings back the
one before it if that alone is missing. -/
theorem pcmPackets_run (packets : List (SinkPacket × Bool)) :
    BringsBack o (decodeRun o packets).1 := by
  suffices h : Remembers o (decodeRun o packets).2 (decodeRun o packets).1 ∧
      BringsBack o (decodeRun o packets).1 from h.2
  induction packets using List.reverseRecOn with
  | nil =>
    refine ⟨fun packet => rfl, fun before d later heq => ?_⟩
    exact absurd heq.symm (by simp [decodeRun])
  | append_singleton packets next ih =>
    obtain ⟨hremembers, hbecomes⟩ := ih
    have hrun : decodeRun o (packets ++ [next]) =
        ((decodeRun o packets).1 ++ [⟨next.1, next.2,
          (o.pcmPackets (decodeRun o packets).2 next.1 next.2).1⟩],
          (o.pcmPackets (decodeRun o packets).2 next.1 next.2).2) := by
      rw [decodeRun, List.foldl_append]
      rfl
    rw [hrun]
    refine ⟨hremembers.step next.1 next.2, ?_⟩
    exact Monitor.forall_events_append.2 ⟨hbecomes, fun hopus => hremembers.becomes hopus next.2⟩

end NativeVoice.Media
