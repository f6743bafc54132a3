import Mathlib.Data.UInt
import NativeVoice.Rtp.Sequence
import NativeVoice.Video.AV1.Elements
import NativeVoice.Video.H264
import NativeVoice.Video.H265

/-!
# Behind a rejected packet

A packet that the H.264, the H.265 or the AV1 depacketizer rejects does not make it give up the
frame: the packets that follow with the same timestamp and consecutive sequence numbers complete it
without what was rejected, or with a part of it.

* `NothingReturned`: no continuation by such packets returns a frame; `NothingCompleted`: none does
  up to the first packet with the marker.
* `PayloadReader.nothingCompleted_iff`: for H.264 and H.265, the frame must have been given up
  before.
* `AV1Depacketizer.nothingCompleted_iff`: for AV1, this, or what is held is only an OBU that no
  bytes can complete.
* `rejected_packet_spoils_iff`: both of these behind a packet that is rejected, which is never
  enough for the first property.
-/

namespace NativeVoice.Video

open Lib Lib.Transducer

/-! ## Continuations -/

section Continuation

variable {δ : Type} (push : δ → Bytes → Bool → UInt16 → UInt32 →
  Fallible PacketError (Option Bytes) × δ)

/-- A payload, with or without the marker, in the packet behind the one with the sequence number
`s.2`. -/
def follow (timestamp : UInt32) (s : δ × UInt16) (packet : Bytes × Bool) :
    Fallible PacketError (Option Bytes) × δ × UInt16 :=
  let (result, d) := push s.1 packet.1 packet.2 (s.2 + 1) timestamp
  (result, d, s.2 + 1)

/-- The packets behind the one with this sequence number return no frame. -/
def ReturnsNothing (d : δ) (sequence : UInt16) (timestamp : UInt32)
    (packets : List (Bytes × Bool)) : Prop :=
  ∀ o ∈ outputs (follow push timestamp) (d, sequence) packets, ∀ frame, o ≠ .ok (some frame)

/-- However the stream goes on with this timestamp, no frame is returned. -/
def NothingReturned (d : δ) (sequence : UInt16) (timestamp : UInt32) : Prop :=
  ∀ packets, ReturnsNothing push d sequence timestamp packets

/-- However the stream goes on with this timestamp up to a packet with the marker, no frame is
returned. -/
def NothingCompleted (d : δ) (sequence : UInt16) (timestamp : UInt32) : Prop :=
  ∀ packets, (∀ x ∈ packets.dropLast, x.2 = false) →
    ReturnsNothing push d sequence timestamp packets

variable {push} {d d' : δ} {sequence : UInt16} {timestamp : UInt32}

theorem returnsNothing_cons {payload : Bytes} {marker : Bool} {packets : List (Bytes × Bool)} :
    ReturnsNothing push d sequence timestamp ((payload, marker) :: packets) ↔
      (∀ frame, (push d payload marker (sequence + 1) timestamp).1 ≠ .ok (some frame)) ∧
        ReturnsNothing push (push d payload marker (sequence + 1) timestamp).2 (sequence + 1)
          timestamp packets :=
  List.forall_mem_cons

/-- A packet that completes a frame. -/
theorem not_nothingCompleted_of_push {payload : Bytes}
    (h : ∃ frame, (push d payload true (sequence + 1) timestamp).1 = .ok (some frame)) :
    ¬ NothingCompleted push d sequence timestamp := by
  obtain ⟨frame, hframe⟩ := h
  exact fun hnothing =>
    (returnsNothing_cons.1 (hnothing [(payload, true)] (by simp))).1 frame hframe

/-- A packet without the marker, in front of packets that complete a frame. -/
theorem not_nothingCompleted_of_step {payload : Bytes}
    (h : ¬ NothingCompleted push (push d payload false (sequence + 1) timestamp).2 (sequence + 1)
      timestamp) : ¬ NothingCompleted push d sequence timestamp := by
  intro hnothing
  refine h fun packets hpackets => ?_
  refine (returnsNothing_cons.1 (hnothing ((payload, false) :: packets) fun x hx => ?_)).2
  cases packets with
  | nil => simp at hx
  | cons y packets =>
    rw [List.dropLast_cons_cons] at hx
    rcases List.mem_cons.1 hx with rfl | hx
    · rfl
    · exact hpackets x hx

/-- Packets that change nothing, in front of packets that complete a frame. -/
theorem not_nothingCompleted_of_later {payload : Bytes}
    (hskip : ∀ s, (push d payload false s timestamp).2 = d) (k : ℕ)
    (h : ¬ NothingCompleted push d (sequence + UInt16.ofNat k) timestamp) :
    ¬ NothingCompleted push d sequence timestamp := by
  induction k generalizing sequence with
  | zero => simpa using h
  | succ k ih =>
    apply not_nothingCompleted_of_step
    rw [hskip]
    apply ih
    rw [add_one_add_ofNat]
    exact h

/-- **The rule for frames that are not completed**: what every packet without the marker keeps, and
what keeps every packet from returning a frame. -/
theorem nothingCompleted_of_invariant {P : δ → Prop}
    (hstep : ∀ d payload s, P d → P (push d payload false s timestamp).2)
    (hpush : ∀ d payload marker s, P d → ∀ frame,
      (push d payload marker s timestamp).1 ≠ .ok (some frame))
    (hd : P d) : NothingCompleted push d sequence timestamp := by
  intro packets
  induction packets generalizing d sequence with
  | nil => exact fun _ _ ho => absurd ho List.not_mem_nil
  | cons x packets ih =>
    intro hmarkers
    obtain ⟨payload, marker⟩ := x
    refine returnsNothing_cons.2 ⟨hpush d payload marker _ hd, ?_⟩
    cases packets with
    | nil => exact fun _ ho => absurd ho List.not_mem_nil
    | cons y packets =>
      rw [List.dropLast_cons_cons] at hmarkers
      obtain rfl : marker = false := hmarkers _ List.mem_cons_self
      exact ih (hstep d payload _ hd) fun x hx => hmarkers x (List.mem_cons_of_mem _ hx)

end Continuation

/-! ## The state of a frame -/

namespace DepacketizerState

/-- The frame with this timestamp has been given up. -/
def GivenUp (d : DepacketizerState) (timestamp : UInt32) : Prop :=
  d.timestamp = some timestamp ∧ d.discarding = true

/-- What is given up is not kept. -/
def Tidy (d : DepacketizerState) : Prop := d.discarding = true → d.frame = []

variable {d : DepacketizerState} {sequence : UInt16} {timestamp : UInt32}

theorem Tidy.beginPacket (h : d.Tidy) (sequence : UInt16) (timestamp : UInt32) :
    (d.beginPacket sequence timestamp).Tidy := by
  unfold DepacketizerState.beginPacket
  split
  · exact fun hd => by cases hd
  split
  · split
    · exact fun _ => rfl
    · exact h
  · exact h

theorem timestamp_beginPacket (d : DepacketizerState) (sequence : UInt16) (timestamp : UInt32) :
    (d.beginPacket sequence timestamp).timestamp = some timestamp := by
  unfold beginPacket
  split
  · rfl
  · rename_i h
    rw [ne_eq, not_not] at h
    split
    · split <;> exact h
    · exact h

theorem GivenUp.beginPacket (h : d.GivenUp timestamp) (sequence : UInt16) :
    (d.beginPacket sequence timestamp).GivenUp timestamp := by
  refine ⟨timestamp_beginPacket d sequence timestamp, ?_⟩
  unfold DepacketizerState.beginPacket
  rw [if_neg (by simp [h.1])]
  split
  · split
    · rfl
    · exact h.2
  · exact h.2

/-- A packet with the right sequence number goes on with the frame, or begins it. -/
theorem beginPacket_of_next (h : ∀ l ∈ d.lastSequence, l + 1 = sequence) :
    d.beginPacket sequence timestamp = { d with
      timestamp := some timestamp
      lastSequence := some sequence
      discarding := if d.timestamp = some timestamp then d.discarding else false
      frame := if d.timestamp = some timestamp then d.frame else [] } := by
  unfold beginPacket
  by_cases ht : d.timestamp = some timestamp
  · rw [if_neg (by simp [ht]), if_pos ht, if_pos ht]
    cases hl : d.lastSequence with
    | none => simp [ht]
    | some l =>
      rw [hl] at h
      dsimp only
      rw [if_neg (not_not.2 (h l rfl))]
      simp [ht]
  · rw [if_pos ht, if_neg ht, if_neg ht]
    rfl

theorem discarding_beginPacket_of_next (h : ∀ l ∈ d.lastSequence, l + 1 = sequence)
    (hnot : ¬ d.GivenUp timestamp) : (d.beginPacket sequence timestamp).discarding = false := by
  rw [beginPacket_of_next h]
  dsimp only
  split
  · rename_i ht
    exact Bool.eq_false_iff.2 fun hd => hnot ⟨ht, hd⟩
  · rfl

/-- After some packets that do not count, there is one with the right sequence number. -/
theorem exists_next (l : Option UInt16) (sequence : UInt16) :
    ∃ k : ℕ, ∀ i ∈ l, i + 1 = sequence + UInt16.ofNat k + 1 := by
  cases l with
  | none => exact ⟨0, fun i hi => by cases hi⟩
  | some l =>
    refine ⟨(l - sequence).toNat, fun i hi => ?_⟩
    obtain rfl := Option.some.inj hi
    rw [UInt16.ofNat_toNat, add_sub_cancel]

theorem Tidy.finishIf (h : d.Tidy) (ends : Bool) : (d.finishIf ends).2.Tidy := by
  cases ends with
  | true => exact fun _ => rfl
  | false => exact h

theorem finishIf_ne_error (d : DepacketizerState) (ends : Bool) (e : Stop PacketError) :
    (d.finishIf ends).1 ≠ .error e := by
  cases ends <;> simp [DepacketizerState.finishIf]

/-- A frame that has been given up is not returned. -/
theorem finishIf_of_discarding (h : d.Tidy) (hd : d.discarding = true) (ends : Bool)
    (frame : Bytes) : (d.finishIf ends).1 ≠ .ok (some frame) := by
  cases ends <;> simp [DepacketizerState.finishIf, DepacketizerState.finishFrame, h hd]

end DepacketizerState

/-! ## H.264 and H.265 -/

namespace PayloadReader

open DepacketizerState

variable {R : PayloadReader} {d : DepacketizerState} {payload : Bytes} {marker : Bool}
variable {sequence : UInt16} {timestamp : UInt32}

theorem tidy_absorb (h : d.Tidy) (r : Reading) (marker : Bool) : (d.absorb r marker).2.Tidy := by
  cases hd : d.discarding with
  | true =>
    rw [absorb_of_discarding hd]
    exact h.finishIf marker
  | false =>
    by_cases hopens : d.frame ≠ [] ∨ r.opens
    · have hkept : ({ d with frame := d.frame ++ r.body } : DepacketizerState).Tidy := by
        intro hdiscarding
        rw [hd] at hdiscarding
        cases hdiscarding
      rw [absorb_of_append hd hopens]
      split
      · exact hkept
      · exact hkept.finishIf marker
    · rw [not_or, not_not, Bool.not_eq_true] at hopens
      rw [absorb_of_headless hd hopens.2 hopens.1]
      exact Tidy.finishIf (fun _ => rfl) marker

/-- What is given up is never kept. -/
theorem tidy_push (h : d.Tidy) (payload : Bytes) (marker : Bool) (sequence : UInt16)
    (timestamp : UInt32) : (R.push d payload marker sequence timestamp).2.Tidy := by
  by_cases hlen : payload.length < R.minLength
  · rw [push_short hlen]
    exact h
  · rw [push_admitted hlen]
    exact tidy_absorb (h.beginPacket sequence timestamp) _ marker

/-- A packet is rejected: the frame has been given up behind it if and only if it had been
before. -/
theorem givenUp_push_iff {e : Stop PacketError}
    (h : (R.push d payload marker sequence timestamp).1 = .error e) :
    (R.push d payload marker sequence timestamp).2.GivenUp timestamp ↔ d.GivenUp timestamp := by
  by_cases hlen : payload.length < R.minLength
  · rw [push_short hlen]
  rw [push_admitted hlen] at h ⊢
  cases hd : (d.beginPacket sequence timestamp).discarding with
  | true =>
    rw [absorb_of_discarding hd] at h
    exact absurd h (finishIf_ne_error _ _ e)
  | false =>
    have hbefore : ¬ d.GivenUp timestamp := fun hgiven => by
      rw [(hgiven.beginPacket sequence).2] at hd
      cases hd
    refine iff_of_false ?_ hbefore
    by_cases hopens : (d.beginPacket sequence timestamp).frame ≠ [] ∨ (R.read payload).opens
    · rw [absorb_of_append hd hopens] at h ⊢
      split
      · exact fun hgiven => by
          have := hgiven.2
          rw [hd] at this
          cases this
      · rename_i hnone
        rw [hnone] at h
        exact absurd h (finishIf_ne_error _ _ e)
    · rw [not_or, not_not, Bool.not_eq_true] at hopens
      rw [absorb_of_headless hd hopens.2 hopens.1] at h
      exact absurd h (finishIf_ne_error _ _ e)

/-- A payload that is a NAL unit. -/
structure Whole (R : PayloadReader) (payload : Bytes) : Prop where
  accepted : R.Accepted payload
  opens : (R.read payload).opens = true
  body : (R.read payload).body ≠ []

/-- A NAL unit with the marker completes the frame, unless it has been given up. -/
theorem Whole.push (h : R.Whole payload)
    (hd : (d.beginPacket sequence timestamp).discarding = false) :
    ∃ frame, (R.push d payload true sequence timestamp).1 = .ok (some frame) := by
  refine ⟨(d.beginPacket sequence timestamp).frame ++ (R.read payload).body, ?_⟩
  rw [push_admitted h.accepted.1.not_gt, absorb_of_append hd (.inr h.opens), h.accepted.2]
  simp [DepacketizerState.finishIf, DepacketizerState.finishFrame, h.body]

/-- **No frame is returned before the next marker** if and only if the frame has been given up. -/
theorem nothingCompleted_iff (hmin : 0 < R.minLength) (hwhole : R.Whole payload) (hd : d.Tidy) :
    NothingCompleted R.push d sequence timestamp ↔ d.GivenUp timestamp := by
  constructor
  · intro hnothing
    by_contra hnot
    obtain ⟨k, hk⟩ := exists_next d.lastSequence sequence
    have hframe := hwhole.push (discarding_beginPacket_of_next hk hnot)
    have hskip : ∀ s, (R.push d [] false s timestamp).2 = d := fun s => by
      rw [push_short (show ([] : Bytes).length < R.minLength from hmin)]
    exact not_nothingCompleted_of_later hskip k (not_nothingCompleted_of_push hframe) hnothing
  · intro hgiven
    have hbegin : ∀ (d : DepacketizerState) s, d.GivenUp timestamp ∧ d.Tidy →
        (d.beginPacket s timestamp).GivenUp timestamp ∧ (d.beginPacket s timestamp).Tidy :=
      fun d s h => ⟨h.1.beginPacket s, h.2.beginPacket s timestamp⟩
    refine nothingCompleted_of_invariant (P := fun d => d.GivenUp timestamp ∧ d.Tidy)
      (fun d payload s h => ?_) (fun d payload marker s h frame => ?_) ⟨hgiven, hd⟩
    · by_cases hlen : payload.length < R.minLength
      · rw [push_short hlen]
        exact h
      · rw [push_admitted hlen, absorb_of_discarding (hbegin d s h).1.2]
        exact hbegin d s h
    · by_cases hlen : payload.length < R.minLength
      · rw [push_short hlen]
        simp
      · rw [push_admitted hlen, absorb_of_discarding (hbegin d s h).1.2]
        exact finishIf_of_discarding (hbegin d s h).2 (hbegin d s h).1.2 marker frame

/-- Two NAL units with the marker return a frame. -/
theorem not_nothingReturned (hwhole : R.Whole payload) :
    ¬ NothingReturned R.push d sequence timestamp := by
  intro hnothing
  obtain ⟨hfirst, hrest⟩ := returnsNothing_cons.1 (hnothing [(payload, true), (payload, true)])
  have hsecond := (returnsNothing_cons.1 hrest).1
  cases hd : (d.beginPacket (sequence + 1) timestamp).discarding with
  | false =>
    obtain ⟨frame, hframe⟩ := hwhole.push hd
    exact hfirst frame hframe
  | true =>
    have hnew : (R.push d payload true (sequence + 1) timestamp).2 = {} := by
      rw [push_admitted hwhole.accepted.1.not_gt, absorb_of_discarding hd]
      rfl
    rw [hnew] at hsecond
    obtain ⟨frame, hframe⟩ : ∃ frame,
        (R.push {} payload true (sequence + 1 + 1) timestamp).1 = .ok (some frame) :=
      hwhole.push rfl
    exact hsecond frame hframe

/-- A packet that is rejected behind a frame that has been given up is not looked at. -/
theorem push_of_givenUp {e : Stop PacketError} (hgiven : d.GivenUp timestamp)
    (h : (R.push d payload marker sequence timestamp).1 = .error e) :
    (R.push d payload marker sequence timestamp).2 = d := by
  by_cases hlen : payload.length < R.minLength
  · rw [push_short hlen]
  · rw [push_admitted hlen, absorb_of_discarding (hgiven.beginPacket sequence).2] at h
    exact absurd h (finishIf_ne_error _ _ e)

/-- **Behind a packet that is rejected.** -/
theorem rejected (hmin : 0 < R.minLength) {whole : Bytes} (hwhole : R.Whole whole) (hd : d.Tidy)
    {e : PacketError} (h : (R.push d payload marker sequence timestamp).1 = .error (.err e)) :
    ¬ NothingReturned R.push (R.push d payload marker sequence timestamp).2 sequence timestamp ∧
      (NothingCompleted R.push (R.push d payload marker sequence timestamp).2 sequence timestamp ↔
        d.GivenUp timestamp) ∧
      (d.GivenUp timestamp → (R.push d payload marker sequence timestamp).2 = d) := by
  refine ⟨not_nothingReturned hwhole, ?_, fun hgiven => push_of_givenUp hgiven h⟩
  rw [nothingCompleted_iff hmin hwhole (tidy_push hd payload marker sequence timestamp)]
  exact givenUp_push_iff h

theorem tidy_final (packets : List MediaPacket) : (final (pushMedia R.push) {} packets).Tidy := by
  have hstep : Invariant (pushMedia R.push) (fun _ => True) Tidy := fun _ p hd _ =>
    tidy_push hd p.payload p.marker p.sequence p.timestamp
  exact hstep.final (fun _ => rfl) fun _ _ => trivial

end PayloadReader

theorem H264Depacketizer.reader_whole : reader.Whole [1] where
  accepted := ⟨by decide, by decide⟩
  opens := by decide
  body := by decide

theorem H265Depacketizer.reader_whole : reader.Whole [0, 0] where
  accepted := ⟨by decide, by decide⟩
  opens := by decide
  body := by decide

/-! ## AV1 -/

namespace AV1Depacketizer

open DepacketizerState

variable {b : Build} {d d' : AV1Depacketizer} {payload e : Bytes} {marker z y : Bool} {w : UInt8}
variable {sequence : UInt16} {timestamp : UInt32}

/-- There is a beginning of an OBU, which no bytes complete. -/
def Stuck (b : Build) (obu : Bytes) : Prop :=
  obu ≠ [] ∧ ∀ rest omitSize obu', rebuildObu b (obu ++ rest) omitSize ≠ .ok obu'

/-- The frame with this timestamp has been given up, or there is nothing of it but the beginning of
an OBU, which no bytes complete. -/
def Lost (b : Build) (d : AV1Depacketizer) (timestamp : UInt32) : Prop :=
  d.state.GivenUp timestamp ∨
    (d.state.timestamp = some timestamp → d.state.frame = []) ∧ Stuck b d.obu

theorem Stuck.append {obu : Bytes} (h : Stuck b obu) (e : Bytes) : Stuck b (obu ++ e) := by
  refine ⟨List.append_ne_nil_of_left_ne_nil h.1 e, fun rest => ?_⟩
  rw [List.append_assoc]
  exact h.2 (e ++ rest)

/-- Only the OBU changes, which stays stuck. -/
def StaysStuck (b : Build) (d d' : AV1Depacketizer) : Prop :=
  ∃ obu, Stuck b obu ∧ d' = { d with obu }

theorem StaysStuck.trans {d'' : AV1Depacketizer} (h : StaysStuck b d d')
    (h' : StaysStuck b d' d'') : StaysStuck b d d'' := by
  obtain ⟨obu, -, rfl⟩ := h
  exact h'

theorem takeElement_stuck (h : Stuck b d.obu) (e : Bytes)
    (continuesPrevious continuesNext omitSize marker : Bool) :
    StaysStuck b d (takeElement b d e continuesPrevious continuesNext omitSize marker).2 ∧
      ∀ frame, (takeElement b d e continuesPrevious continuesNext omitSize marker).1 ≠
        .ok (some frame) := by
  cases continuesPrevious with
  | false =>
    rw [takeElement_misplaced _ h.1]
    exact ⟨⟨d.obu, h, rfl⟩, by simp⟩
  | true =>
    have hprev : true = !d.obu.isEmpty := by simp [h.1]
    cases continuesNext with
    | true =>
      rw [takeElement_part hprev]
      exact ⟨⟨_, h.append e, rfl⟩, by simp⟩
    | false =>
      have hne : ¬ (d.obu ++ e).isEmpty = true := by simp [h.1]
      rw [takeElement, if_neg (by simp [h.1]), if_neg (by simp)]
      dsimp only
      rw [if_neg (by simp), finishObu, if_neg hne]
      cases hrebuild : rebuildObu b (d.obu ++ e) omitSize with
      | error err => exact ⟨⟨_, h.append e, rfl⟩, by simp⟩
      | ok obu' => exact absurd hrebuild (h.2 e omitSize obu')

theorem pushElement_stuck (h : Stuck b d.obu) (payload : Bytes) (marker z y : Bool)
    (w elementIndex : UInt8) (offset : ℕ) :
    StaysStuck b d (pushElement b payload marker z y w d elementIndex offset).2 ∧
      ∀ frame, (pushElement b payload marker z y w d elementIndex offset).1 ≠
        .ok (.returned frame) := by
  unfold pushElement
  split
  · exact ⟨⟨d.obu, h, rfl⟩, by simp⟩
  split
  · exact ⟨⟨d.obu, h, rfl⟩, by simp⟩
  rename_i _ elementIndex' hincr _ element offset' hread
  dsimp only
  have hstuck := takeElement_stuck h element (decide (elementIndex' = 1) && z)
    (decide (offset' = payload.length) && y) (marker && decide (offset' = payload.length)) marker
  generalize takeElement b d element _ _ _ _ = result at hstuck
  obtain ⟨hstate, hframe⟩ := hstuck
  split
  · exact ⟨hstate, by simp⟩
  · exact absurd rfl (hframe _)
  · exact ⟨hstate, by simp⟩

theorem pushElements_stuck (payload : Bytes) (marker z y : Bool) (w : UInt8)
    (d : AV1Depacketizer) (elementIndex : UInt8) (offset : ℕ) (h : Stuck b d.obu) :
    StaysStuck b d (pushElements b payload marker z y w d elementIndex offset).2 ∧
      ∀ frame, (pushElements b payload marker z y w d elementIndex offset).1 ≠
        .ok (.returned frame) := by
  induction d, elementIndex, offset using pushElements.induct b payload marker z y w with
  | case1 d elementIndex offset hlt e d' hround =>
    have hstuck := pushElement_stuck h payload marker z y w elementIndex offset
    rw [hround] at hstuck
    rw [pushElements_of_error hlt hround]
    exact ⟨hstuck.1, by simp⟩
  | case2 d elementIndex offset hlt frame d' hround =>
    have hstuck := pushElement_stuck h payload marker z y w elementIndex offset
    rw [hround] at hstuck
    exact absurd rfl (hstuck.2 frame)
  | case3 d elementIndex offset hlt elementIndex' offset' d' hround ih =>
    have hstuck := (pushElement_stuck h payload marker z y w elementIndex offset).1
    rw [hround] at hstuck
    have hobu : Stuck b d'.obu := by
      obtain ⟨obu, hobu, hd'⟩ := hstuck
      rw [show d' = _ from hd']
      exact hobu
    rw [pushElements_of_next hlt hround]
    exact ⟨hstuck.trans (ih hobu).1, (ih hobu).2⟩
  | case4 d elementIndex offset hend =>
    rw [pushElements_of_end (by omega)]
    exact ⟨⟨d.obu, h, rfl⟩, by simp⟩

/-- A payload completes nothing where there is nothing but the beginning of an OBU that is stuck. -/
theorem pushPayload_stuck (h : Stuck b d.obu) (hframe : d.state.frame = []) (payload : Bytes)
    (marker : Bool) :
    (∀ frame, (pushPayload b d payload marker).1 ≠ .ok (some frame)) ∧
      (marker = false → StaysStuck b d (pushPayload b d payload marker).2) := by
  have hsame : StaysStuck b d d := ⟨d.obu, h, rfl⟩
  unfold pushPayload
  split
  · exact ⟨by simp, fun _ => hsame⟩
  rename_i header rest
  dsimp only
  split
  · exact ⟨by simp, fun _ => hsame⟩
  have hstuck := pushElements_stuck (header :: rest) marker (header &&& 0x80 != 0)
    (header &&& 0x40 != 0) (header >>> 4 &&& 0x03) d 0 1 h
  generalize pushElements b (header :: rest) marker _ _ _ d 0 1 = result at hstuck
  obtain ⟨hstate, hreturned⟩ := hstuck
  split
  · exact ⟨by simp, fun _ => hstate⟩
  · exact absurd rfl (hreturned _)
  split
  · exact ⟨by simp, fun _ => hstate⟩
  split
  · exact ⟨by simp, fun _ => hstate⟩
  obtain ⟨obu, hobu, hd'⟩ := hstate
  dsimp only at hd'
  subst hd'
  cases marker with
  | true =>
    refine ⟨?_, by simp⟩
    simp [finishIf, finishFrame, DepacketizerState.finishFrame, hframe]
  | false => exact ⟨by simp [finishIf], fun _ => ⟨obu, hobu, rfl⟩⟩

/-! ### Completing a frame -/

/-- Whether an OBU can be rebuilt does not depend on its size field being left out. -/
theorem rebuildObu_of_ok {obu obu' : Bytes} {omitSize : Bool}
    (h : rebuildObu b obu omitSize = .ok obu') (omitSize' : Bool) :
    ∃ r, rebuildObu b obu omitSize' = .ok r ∧ r ≠ [] := by
  cases obu with
  | nil => cases h
  | cons header rest =>
    obtain ⟨⟨extensionHeader, offset⟩, hextension, h⟩ := bind_eq_ok.1 h
    obtain ⟨payload, hpayload, -⟩ := bind_eq_ok.1 h
    refine ⟨_, bind_eq_ok.2 ⟨_, hextension, bind_eq_ok.2 ⟨_, hpayload, rfl⟩⟩, by simp⟩

/-- A payload of one element. -/
theorem pushElements_single (hlt : 1 < payload.length)
    (hread : readElement b payload w 1 1 = .ok (e, payload.length))
    (htake : takeElement b d e z y marker marker = (.ok none, d')) :
    pushElements b payload marker z y w d 0 1 = (.ok (.counted 1), d') := by
  have hround : pushElement b payload marker z y w d 0 1 =
      (.ok (.next 1 payload.length), d') := by
    rw [pushElement_of_read marker (b.incrU8_of_ne (by decide)) hread]
    simp only [zero_add, decide_true, Bool.true_and, Bool.and_true, htake]
  rw [pushElements_of_next hlt hround, pushElements_of_end le_rfl]

/-- An aggregation header alone, with the marker, ends the frame. -/
theorem pushPayload_header (b : Build) (d : AV1Depacketizer) :
    pushPayload b d [0] true = (.ok d.finishFrame.1, d.finishFrame.2) := by
  rw [pushPayload, if_neg (by decide), pushElements_of_end (by simp)]
  simp [finishIf]

/-- An element with the marker that ends its OBU completes the frame. -/
theorem pushPayload_single {header x : UInt8} {obu' : Bytes}
    (hflags : (header &&& 0x08 != 0) = false ∧ (header &&& 0x40 != 0) = false)
    (hw : header >>> 4 &&& 0x03 = 0 ∨ header >>> 4 &&& 0x03 = 1)
    (hread : readElement b [header, x] (header >>> 4 &&& 0x03) 1 1 = .ok (e, 2))
    (hprev : (header &&& 0x80 != 0) = !d.obu.isEmpty)
    (hrebuild : rebuildObu b (d.obu ++ e) true = .ok obu') (hobu' : obu' ≠ []) :
    (pushPayload b d [header, x] true).1 = .ok (some (d.state.frame ++ obu')) := by
  have helements := pushElements_single (by simp) hread (takeElement_rebuilt hprev hrebuild)
  rw [pushPayload, hflags.1, hflags.2, helements, if_neg (by simp)]
  dsimp only
  rw [if_neg (fun h => h.2 (hw.resolve_left h.1).symm), if_neg (by simp)]
  simp [finishIf, finishFrame, DepacketizerState.finishFrame, hobu']

/-- A whole OBU with the marker. -/
theorem pushPayload_whole (b : Build) (h : d.obu = []) :
    (pushPayload b d [0x10, 0] true).1 = .ok (some (d.state.frame ++ [0])) := by
  refine pushPayload_single (e := [0]) (by decide) (by decide) ?_ (by rw [h]; rfl) ?_ (by simp)
  · cases b <;> decide
  · rw [h]
    rfl

/-- The end of an OBU, which is not any bytes, with the marker. -/
theorem pushPayload_last {obu' : Bytes} (h : d.obu ≠ [])
    (hrebuild : rebuildObu b d.obu true = .ok obu') (hobu' : obu' ≠ []) :
    (pushPayload b d [0x80, 0] true).1 = .ok (some (d.state.frame ++ obu')) := by
  refine pushPayload_single (e := []) (by decide) (by decide) ?_ (by simp [h]) ?_ hobu'
  · cases b <;> decide
  · rwa [List.append_nil]

/-- A byte of an OBU that goes on. -/
theorem pushPayload_byte (b : Build) (h : d.obu ≠ []) (x : UInt8) :
    pushPayload b d [0xD0, x] false = (.ok none, { d with obu := d.obu ++ [x] }) := by
  have hlen : ([0xD0] ++ [x] : Bytes).length < 2 ^ 64 := by simp
  have hread : readElement b [0xD0, x] 1 1 1 = .ok ([x], 2) :=
    readElement_unsized b (by decide) hlen
  have htake : takeElement b d [x] true true false false =
      (.ok none, { d with obu := d.obu ++ [x] }) := takeElement_part (by simp [h])
  have helements := pushElements_single (by simp) hread htake
  have hheader : ((0xD0 : UInt8) &&& 0x80 != 0) = true ∧ ((0xD0 : UInt8) &&& 0x40 != 0) = true ∧
      (0xD0 : UInt8) >>> 4 &&& 0x03 = 1 := by decide
  rw [pushPayload, if_neg (by decide), hheader.1, hheader.2.1, hheader.2.2, helements]
  rfl

/-! ### Packets -/

/-- The depacketizer when a packet has begun. -/
def begun (d : AV1Depacketizer) (sequence : UInt16) (timestamp : UInt32) : AV1Depacketizer :=
  { d with state := d.state.beginPacket sequence timestamp }

theorem pushPacket_of_discarding (hne : payload ≠ [])
    (hd : (d.state.beginPacket sequence timestamp).discarding = true) :
    pushPacket b d payload marker sequence timestamp =
      (d.begun sequence timestamp).finishIf marker := by
  rw [pushPacket, if_neg (by simp [hne])]
  exact if_pos hd

theorem pushPacket_of_not_discarding (hne : payload ≠ [])
    (hd : (d.state.beginPacket sequence timestamp).discarding = false) :
    pushPacket b d payload marker sequence timestamp =
      pushPayload b (d.begun sequence timestamp) payload marker := by
  rw [pushPacket, if_neg (by simp [hne])]
  exact if_neg (by simp [isDiscarding, hd])

/-- Where bytes complete the OBU, they can be sent one by one. -/
theorem not_nothingCompleted_of_rest {rest obu' : Bytes} {omitSize : Bool} (hobu : d.obu ≠ [])
    (hrebuild : rebuildObu b (d.obu ++ rest) omitSize = .ok obu')
    (hnext : ∀ l ∈ d.state.lastSequence, l + 1 = sequence + 1)
    (hnot : ¬ d.state.GivenUp timestamp) :
    ¬ NothingCompleted (pushPacket b) d sequence timestamp := by
  induction rest generalizing d sequence with
  | nil =>
    rw [List.append_nil] at hrebuild
    obtain ⟨r, hr, hne⟩ := rebuildObu_of_ok hrebuild true
    have hbegin := discarding_beginPacket_of_next hnext hnot
    have hpush : ∃ frame,
        (pushPacket b d [0x80, 0] true (sequence + 1) timestamp).1 = .ok (some frame) := by
      rw [pushPacket_of_not_discarding (by simp) hbegin]
      exact ⟨_, pushPayload_last (d := d.begun (sequence + 1) timestamp) hobu hr hne⟩
    exact not_nothingCompleted_of_push hpush
  | cons x rest ih =>
    have hbegin := discarding_beginPacket_of_next hnext hnot
    have hpush : pushPacket b d [0xD0, x] false (sequence + 1) timestamp =
        (.ok none, { state := d.state.beginPacket (sequence + 1) timestamp
                     obu := d.obu ++ [x] }) := by
      rw [pushPacket_of_not_discarding (by simp) hbegin]
      exact pushPayload_byte (d := d.begun (sequence + 1) timestamp) b hobu x
    have hrest : ¬ NothingCompleted (pushPacket b)
        (pushPacket b d [0xD0, x] false (sequence + 1) timestamp).2 (sequence + 1) timestamp := by
      rw [hpush]
      refine ih (by simp) ?_ ?_ ?_
      · rw [List.append_assoc]
        exact hrebuild
      · exact fun l hl => by rw [← Option.some.inj hl]
      · exact fun hgiven => by
          have := hgiven.2
          rw [hbegin] at this
          cases this
    exact not_nothingCompleted_of_step hrest

/-- A packet finds nothing of a frame that is lost. -/
theorem Lost.beginPacket (h : Lost b d timestamp) (hd : d.state.Tidy) (sequence : UInt16) :
    (d.state.beginPacket sequence timestamp).frame = [] ∧
      ((d.state.beginPacket sequence timestamp).discarding = false → Stuck b d.obu) := by
  rcases h with hgiven | ⟨hframe, hstuck⟩
  · have hbegin := hgiven.beginPacket sequence
    refine ⟨hd.beginPacket sequence timestamp hbegin.2, fun hfalse => ?_⟩
    rw [hbegin.2] at hfalse
    cases hfalse
  · refine ⟨?_, fun _ => hstuck⟩
    unfold DepacketizerState.beginPacket
    split
    · rfl
    · rename_i ht
      rw [ne_eq, not_not] at ht
      split
      · split
        · rfl
        · exact hframe ht
      · exact hframe ht

/-- A packet without the marker leaves a frame lost, and no packet returns it. -/
theorem Lost.push (h : Lost b d timestamp) (hd : d.state.Tidy) (payload : Bytes)
    (marker : Bool) (sequence : UInt16) :
    (∀ frame, (pushPacket b d payload marker sequence timestamp).1 ≠ .ok (some frame)) ∧
      (marker = false → Lost b (pushPacket b d payload marker sequence timestamp).2 timestamp ∧
        (pushPacket b d payload marker sequence timestamp).2.state.Tidy) := by
  by_cases hne : payload = []
  · rw [hne]
    exact ⟨by simp [pushPacket], fun _ => ⟨h, hd⟩⟩
  obtain ⟨hframe, hstuck⟩ := h.beginPacket hd sequence
  have htidy := hd.beginPacket sequence timestamp
  cases hbegin : (d.state.beginPacket sequence timestamp).discarding with
  | true =>
    rw [pushPacket_of_discarding hne hbegin]
    cases marker with
    | true =>
      refine ⟨?_, by simp⟩
      simp [begun, finishIf, finishFrame, DepacketizerState.finishFrame, hframe]
    | false =>
      exact ⟨by simp [finishIf], fun _ =>
        ⟨.inl ⟨timestamp_beginPacket _ _ _, hbegin⟩, htidy⟩⟩
  | false =>
    rw [pushPacket_of_not_discarding hne hbegin]
    obtain ⟨hreturned, hstays⟩ := pushPayload_stuck (d := d.begun sequence timestamp)
      (hstuck hbegin) hframe payload marker
    refine ⟨hreturned, fun hmarker => ?_⟩
    obtain ⟨obu, hobu, hd'⟩ := hstays hmarker
    rw [hd']
    exact ⟨.inr ⟨fun _ => hframe, hobu⟩, htidy⟩

/-- **No frame is returned before the next marker** if and only if it is lost. -/
theorem nothingCompleted_iff (hd : d.state.Tidy) :
    NothingCompleted (pushPacket b) d sequence timestamp ↔ Lost b d timestamp := by
  constructor
  · intro hnothing
    by_contra hnot
    have hgiven : ¬ d.state.GivenUp timestamp := fun h => hnot (.inl h)
    obtain ⟨k, hk⟩ := exists_next d.state.lastSequence sequence
    have hbegin := discarding_beginPacket_of_next hk hgiven
    have hskip : ∀ s, (pushPacket b d [] false s timestamp).2 = d := fun _ => rfl
    refine not_nothingCompleted_of_later hskip k ?_ hnothing
    by_cases hframe : (d.state.timestamp = some timestamp → d.state.frame = [])
    · have hstuck : ¬ Stuck b d.obu := fun h => hnot (.inr ⟨hframe, h⟩)
      by_cases hobu : d.obu = []
      · have hpush : ∃ frame, (pushPacket b d [0x10, 0] true (sequence + UInt16.ofNat k + 1)
            timestamp).1 = .ok (some frame) := by
          rw [pushPacket_of_not_discarding (by simp) hbegin]
          exact ⟨_, pushPayload_whole (d := d.begun _ timestamp) b hobu⟩
        exact not_nothingCompleted_of_push hpush
      · unfold Stuck at hstuck
        push Not at hstuck
        obtain ⟨rest, omitSize, obu', hrebuild⟩ := hstuck hobu
        exact not_nothingCompleted_of_rest hobu hrebuild hk hgiven
    · push Not at hframe
      have hpush : (pushPacket b d [0] true (sequence + UInt16.ofNat k + 1) timestamp).1 =
          .ok (some d.state.frame) := by
        rw [pushPacket_of_not_discarding (by simp) hbegin, pushPayload_header, begun,
          beginPacket_of_next hk]
        simp [finishFrame, DepacketizerState.finishFrame, hframe.1, hframe.2]
      exact not_nothingCompleted_of_push ⟨_, hpush⟩
  · intro hlost
    exact nothingCompleted_of_invariant (P := fun d => Lost b d timestamp ∧ d.state.Tidy)
      (fun d payload s h => (h.1.push h.2 payload false s).2 rfl)
      (fun d payload marker s h => (h.1.push h.2 payload marker s).1) ⟨hlost, hd⟩

/-- Whatever is held, two packets with the marker return a frame. -/
theorem not_nothingReturned (b : Build) (d : AV1Depacketizer) (sequence : UInt16)
    (timestamp : UInt32) : ¬ NothingReturned (pushPacket b) d sequence timestamp := by
  intro hnothing
  have hnew : (pushPacket b d [0] true (sequence + 1) timestamp).2 = new := by
    cases hd : (d.state.beginPacket (sequence + 1) timestamp).discarding with
    | true =>
      rw [pushPacket_of_discarding (by simp) hd]
      rfl
    | false =>
      rw [pushPacket_of_not_discarding (by simp) hd, pushPayload_header]
      rfl
  have hrest := (returnsNothing_cons.1 (hnothing [([0], true), ([0x10, 0], true)])).2
  rw [hnew] at hrest
  have hsecond := (returnsNothing_cons.1 hrest).1
  rw [pushPacket_of_not_discarding (by simp) rfl] at hsecond
  exact hsecond _ (pushPayload_whole b rfl)

/-! ### What is given up is not kept -/

theorem tidy_finishIf (h : d.state.Tidy) (marker : Bool) : (d.finishIf marker).2.state.Tidy := by
  cases marker with
  | true => exact fun _ => rfl
  | false => exact h

theorem tidy_of_not_discarding (h : d.state.discarding = false) : d.state.Tidy := fun hd => by
  rw [h] at hd
  cases hd

theorem discarding_finishObu (b : Build) (d : AV1Depacketizer) (omitSize : Bool) :
    (d.finishObu b omitSize).2.state.discarding = d.state.discarding := by
  unfold finishObu
  split
  · rfl
  · split <;> rfl

theorem tidy_takeElement (h : d.state.discarding = false) (e : Bytes)
    (continuesPrevious continuesNext omitSize marker : Bool) :
    (takeElement b d e continuesPrevious continuesNext omitSize marker).2.state.Tidy ∧
      ((takeElement b d e continuesPrevious continuesNext omitSize marker).1 = .ok none →
        (takeElement b d e continuesPrevious continuesNext omitSize marker).2.state.discarding =
          false) := by
  unfold takeElement
  split
  · have htidy :=
      tidy_finishIf (d := { d with state := d.state.discardFrame }) (fun _ => rfl) marker
    split
    · rename_i hfinish
      rw [hfinish] at htidy
      exact ⟨htidy, by simp⟩
    · rename_i hfinish
      rw [hfinish] at htidy
      exact ⟨htidy, by simp⟩
  split
  · exact ⟨tidy_of_not_discarding h, fun _ => h⟩
  dsimp only
  split
  · exact ⟨tidy_of_not_discarding h, fun _ => h⟩
  have hfinish := (discarding_finishObu b { d with obu := d.obu ++ e } omitSize).trans h
  split
  · rename_i heq
    rw [heq] at hfinish
    exact ⟨tidy_of_not_discarding hfinish, by simp⟩
  · rename_i heq
    rw [heq] at hfinish
    exact ⟨tidy_of_not_discarding hfinish, fun _ => hfinish⟩

theorem tidy_pushElement (h : d.state.discarding = false) (payload : Bytes) (marker z y : Bool)
    (w elementIndex : UInt8) (offset : ℕ) :
    (pushElement b payload marker z y w d elementIndex offset).2.state.Tidy ∧
      ∀ elementIndex' offset', (pushElement b payload marker z y w d elementIndex offset).1 =
          .ok (.next elementIndex' offset') →
        (pushElement b payload marker z y w d elementIndex offset).2.state.discarding = false := by
  have hkept := tidy_of_not_discarding h
  unfold pushElement
  split
  · exact ⟨hkept, by simp⟩
  split
  · exact ⟨hkept, by simp⟩
  rename_i _ elementIndex' hincr _ element offset' hread
  dsimp only
  have htidy := tidy_takeElement (b := b) h element (decide (elementIndex' = 1) && z)
    (decide (offset' = payload.length) && y) (marker && decide (offset' = payload.length)) marker
  generalize takeElement b d element _ _ _ _ = result at htidy
  split
  · exact ⟨htidy.1, by simp⟩
  · exact ⟨htidy.1, by simp⟩
  · exact ⟨htidy.1, fun _ _ _ => htidy.2 rfl⟩

theorem tidy_pushElements (payload : Bytes) (marker z y : Bool) (w : UInt8) (d : AV1Depacketizer)
    (elementIndex : UInt8) (offset : ℕ) (h : d.state.discarding = false) :
    (pushElements b payload marker z y w d elementIndex offset).2.state.Tidy := by
  induction d, elementIndex, offset using pushElements.induct b payload marker z y w with
  | case1 d elementIndex offset hlt e d' hround =>
    have htidy := (tidy_pushElement (b := b) h payload marker z y w elementIndex offset).1
    rw [hround] at htidy
    rw [pushElements_of_error hlt hround]
    exact htidy
  | case2 d elementIndex offset hlt frame d' hround =>
    have htidy := (tidy_pushElement (b := b) h payload marker z y w elementIndex offset).1
    rw [hround] at htidy
    rw [pushElements_of_returned hlt hround]
    exact htidy
  | case3 d elementIndex offset hlt elementIndex' offset' d' hround ih =>
    have htidy := (tidy_pushElement (b := b) h payload marker z y w elementIndex offset).2
    rw [hround] at htidy
    rw [pushElements_of_next hlt hround]
    exact ih (htidy _ _ rfl)
  | case4 d elementIndex offset hend =>
    rw [pushElements_of_end (by omega)]
    exact tidy_of_not_discarding h

theorem tidy_pushPayload (h : d.state.discarding = false) (payload : Bytes) (marker : Bool) :
    (pushPayload b d payload marker).2.state.Tidy := by
  have hkept := tidy_of_not_discarding h
  unfold pushPayload
  split
  · exact hkept
  rename_i header rest
  dsimp only
  split
  · exact hkept
  have htidy := tidy_pushElements (b := b) (header :: rest) marker (header &&& 0x80 != 0)
    (header &&& 0x40 != 0) (header >>> 4 &&& 0x03) d 0 1 h
  generalize pushElements b (header :: rest) marker _ _ _ d 0 1 = result at htidy
  split
  · exact htidy
  · exact htidy
  split
  · exact htidy
  split
  · exact htidy
  · exact tidy_finishIf htidy marker

theorem tidy_pushPacket (h : d.state.Tidy) (payload : Bytes) (marker : Bool) (sequence : UInt16)
    (timestamp : UInt32) : (pushPacket b d payload marker sequence timestamp).2.state.Tidy := by
  by_cases hne : payload = []
  · rw [hne]
    exact h
  cases hbegin : (d.state.beginPacket sequence timestamp).discarding with
  | true =>
    rw [pushPacket_of_discarding hne hbegin]
    exact tidy_finishIf (h.beginPacket sequence timestamp) marker
  | false =>
    rw [pushPacket_of_not_discarding hne hbegin]
    exact tidy_pushPayload hbegin payload marker

theorem tidy_final (packets : List MediaPacket) :
    (final (pushMedia (pushPacket b)) new packets).state.Tidy := by
  have hstep : Invariant (pushMedia (pushPacket b)) (fun _ => True) fun d => d.state.Tidy :=
    fun _ p hd _ => tidy_pushPacket hd p.payload p.marker p.sequence p.timestamp
  exact hstep.final (fun _ => rfl) fun _ _ => trivial

theorem pushPacket_of_givenUp {e : Stop PacketError} (hgiven : d.state.GivenUp timestamp)
    (h : (pushPacket b d payload marker sequence timestamp).1 = .error e) :
    (pushPacket b d payload marker sequence timestamp).2 = d := by
  by_cases hne : payload = []
  · rw [hne]
    rfl
  · rw [pushPacket_of_discarding hne (hgiven.beginPacket sequence).2] at h
    cases marker <;> simp [finishIf] at h

end AV1Depacketizer

/-! ## Behind a rejected packet -/

/-- **A rejected packet does not spoil its frame.** After any packets and one that is rejected, the
H.264, the H.265 and the AV1 depacketizer can always be led to return a frame with its timestamp. Up
to the next marker, they cannot if and only if the frame had been given up before the packet, which
then leaves no trace, or, for AV1, all that is held is the beginning of an OBU that no bytes
complete. -/
theorem rejected_packet_spoils_iff (b : Build) (before : List MediaPacket) (p : MediaPacket)
    (e : PacketError) :
    (let d := final (pushMedia H264Depacketizer.pushPacket) .new before
      let r := pushMedia H264Depacketizer.pushPacket d p
      r.1 = .error (.err e) →
        ¬ NothingReturned H264Depacketizer.pushPacket r.2 p.sequence p.timestamp ∧
          (NothingCompleted H264Depacketizer.pushPacket r.2 p.sequence p.timestamp ↔
            d.GivenUp p.timestamp) ∧ (d.GivenUp p.timestamp → r.2 = d)) ∧
    (let d := final (pushMedia H265Depacketizer.pushPacket) .new before
      let r := pushMedia H265Depacketizer.pushPacket d p
      r.1 = .error (.err e) →
        ¬ NothingReturned H265Depacketizer.pushPacket r.2 p.sequence p.timestamp ∧
          (NothingCompleted H265Depacketizer.pushPacket r.2 p.sequence p.timestamp ↔
            d.GivenUp p.timestamp) ∧ (d.GivenUp p.timestamp → r.2 = d)) ∧
    (let d := final (pushMedia (AV1Depacketizer.pushPacket b)) .new before
      let r := pushMedia (AV1Depacketizer.pushPacket b) d p
      r.1 = .error (.err e) →
        ¬ NothingReturned (AV1Depacketizer.pushPacket b) r.2 p.sequence p.timestamp ∧
          (NothingCompleted (AV1Depacketizer.pushPacket b) r.2 p.sequence p.timestamp ↔
            r.2.Lost b p.timestamp) ∧ (d.state.GivenUp p.timestamp → r.2 = d)) := by
  refine ⟨fun h => ?_, fun h => ?_, fun h => ?_⟩
  · rw [H264Depacketizer.pushPacket_eq] at h ⊢
    exact PayloadReader.rejected (by decide) H264Depacketizer.reader_whole
      (PayloadReader.tidy_final before) h
  · rw [H265Depacketizer.pushPacket_eq] at h ⊢
    exact PayloadReader.rejected (by decide) H265Depacketizer.reader_whole
      (PayloadReader.tidy_final before) h
  · refine ⟨AV1Depacketizer.not_nothingReturned b _ _ _, AV1Depacketizer.nothingCompleted_iff ?_,
      fun hgiven => AV1Depacketizer.pushPacket_of_givenUp hgiven h⟩
    exact AV1Depacketizer.tidy_pushPacket (AV1Depacketizer.tidy_final before) _ _ _ _

/-- An aggregation packet whose second unit is cut off, of H.264 and of H.265, and an AV1 packet
whose second element is. -/
def cutOff : MediaPacket × MediaPacket × MediaPacket :=
  (unmarked [24, 0, 1, 0x65, 0, 5, 1], unmarked [0x60, 1, 0, 2, 0x26, 1, 0, 9, 1],
    unmarked [0, 1, 8, 5, 1])

/-- New depacketizers reject these packets, and can still complete the frames. -/
theorem rejected_packet_spoils_iff_cutOff :
    ¬ NothingCompleted H264Depacketizer.pushPacket
      (pushMedia H264Depacketizer.pushPacket .new cutOff.1).2 1 1 ∧
    ¬ NothingCompleted H265Depacketizer.pushPacket
      (pushMedia H265Depacketizer.pushPacket .new cutOff.2.1).2 1 1 ∧
    ¬ NothingReturned (AV1Depacketizer.pushPacket .release)
      (pushMedia (AV1Depacketizer.pushPacket .release) .new cutOff.2.2).2 1 1 := by
  have h264 := (rejected_packet_spoils_iff .release [] cutOff.1 .invalidPayload).1
    (by decide +kernel)
  have h265 := (rejected_packet_spoils_iff .release [] cutOff.2.1 .invalidPayload).2.1
    (by decide +kernel)
  have av1 := (rejected_packet_spoils_iff .release [] cutOff.2.2 .invalidPayload).2.2
    (by decide +kernel)
  exact ⟨fun h => absurd (h264.2.1.1 h).1 (by decide), fun h => absurd (h265.2.1.1 h).1 (by decide),
    av1.1⟩

/-- What had been read of a packet that was rejected is returned with the frame. -/
theorem rejected_packet_returned :
    ¬ NothingCompleted H264Depacketizer.pushPacket
      (pushMedia H264Depacketizer.pushPacket .new cutOff.1).2 1 1 ∧
    outputs (pushMedia H264Depacketizer.pushPacket) .new [cutOff.1,
      { unmarked [0x41, 9] with marker := true, sequence := 2 }] =
        [.error (.err .invalidPayload), .ok (some [0, 0, 0, 1, 0x65, 0, 0, 0, 1, 0x41, 9])] ∧
    outputs (pushMedia H265Depacketizer.pushPacket) .new [cutOff.2.1,
      { unmarked [2, 1, 9] with marker := true, sequence := 2 }] =
        [.error (.err .invalidPayload), .ok (some [0, 0, 0, 1, 0x26, 1, 0, 0, 0, 1, 2, 1, 9])] ∧
    outputs (pushMedia (AV1Depacketizer.pushPacket .release)) .new [cutOff.2.2,
      { unmarked [0x10, 0x30] with marker := true, sequence := 2 }] =
        [.error (.err .invalidPayload), .ok (some [0x0A, 0, 0x30])] := by
  refine ⟨fun h => (returnsNothing_cons.1 (h [([0x41, 9], true)] (by simp))).1
    [0, 0, 0, 1, 0x65, 0, 0, 0, 1, 0x41, 9] ?_, ?_⟩ <;> decide +kernel

end NativeVoice.Video
