import Mathlib.Data.Rat.Defs
import Mathlib.Data.UInt
import NativeVoice.Lib.Transducer
import NativeVoice.Rtp.Packet

/-!
# UDP pings

`UDPPing` of `src/src/transport/udp.rs`: a thread that sends a numbered request in every cycle, and
`handle_packet`, which the receive thread calls for the responses. The lock is taken once before a
request is sent, to number it, and once behind it, to record it as sent; a packet may be handled
between any two steps. Times are in nanoseconds.

* `PingRun` has the shared state, where the ping thread is, and a history: the requests that were
  answered while they were the latest, and those that were recorded as round trips and as timeouts.
  The history has times of its own, and `Matched` compares them with the `rttMs` of the state.
* `Consistent.step` is the invariant of a step.
* `pings_matched`: answers are recorded, if none is handled before its request is recorded as sent.
* `not_pings_matched`: an answer that is that fast is ignored, and its request times out.
-/

namespace NativeVoice.Transport

open Lib

/-! ## Packets -/

def NATIVE_PING_RESPONSE : UInt32 := 0x1337F00D
def NATIVE_PING_REQUEST : UInt32 := 0x1337CAFE

/-- The sequence is little-endian. -/
def nativePingRequest (sequence : UInt32) : Bytes :=
  u32BeBytes NATIVE_PING_REQUEST ++ (u32BeBytes sequence).reverse

def nativePingResponseSequence : Bytes → Option UInt32
  | m0 :: m1 :: m2 :: m3 :: s0 :: s1 :: s2 :: s3 :: _ =>
    if u32FromBe m0 m1 m2 m3 ≠ NATIVE_PING_RESPONSE then none
    else some (u32FromBe s3 s2 s1 s0)
  | _ => none

/-- A response gives the sequence of the request back. -/
theorem nativePingResponseSequence_response (sequence : UInt32) (rest : Bytes) :
    nativePingResponseSequence
      (u32BeBytes NATIVE_PING_RESPONSE ++ (nativePingRequest sequence).drop 4 ++ rest) =
        some sequence :=
  congrArg some (u32FromBe_u32BeBytes sequence)

/-! ## The shared state -/

structure PingState where
  sequence : UInt32 := 0
  sent : Option (UInt32 × ℕ) := none
  rttMs : Option ℚ := none
  timeouts : ℕ := 0
  sendErrors : ℕ := 0

namespace PingState

/-- The first section of a cycle: an old request times out, and the next one is numbered. -/
def allocate (s : PingState) (timeout now : ℕ) : PingState :=
  let s := match s.sent with
    | some (_, sentAt) =>
      if timeout ≤ now - sentAt then { s with sent := none, timeouts := s.timeouts + 1 } else s
    | none => s
  { s with sequence := s.sequence + 1 }

/-- The second section: the request is recorded as sent, or an error is counted. -/
def record (s : PingState) (sequence : UInt32) (sent : Bool) (now : ℕ) : PingState :=
  if sent then { s with sent := some (sequence, now) }
  else { s with sent := none, sendErrors := s.sendErrors + 1 }

def handlePacket (s : PingState) (packet : Bytes) (now : ℕ) : Bool × PingState :=
  match nativePingResponseSequence packet with
  | none => (false, s)
  | some sequence =>
    match s.sent with
    | none => (true, s)
    | some (sentSequence, sentAt) =>
      if sequence = sentSequence then
        (true, { s with sent := none, rttMs := some ((now - sentAt : ℕ) / 10 ^ 6) })
      else (true, s)

variable {s : PingState} {timeout now : ℕ} {packet : Bytes}

/-- The first section keeps what was sent, or counts it as a timeout. -/
theorem allocate_cases (s : PingState) (timeout now : ℕ) :
    (s.allocate timeout now).timeouts = s.timeouts ∧
        (s.allocate timeout now).sent = s.sent ∨
      s.sent.isSome ∧ (s.allocate timeout now).timeouts ≠ s.timeouts ∧
        (s.allocate timeout now).sent = none := by
  unfold allocate
  cases hsent : s.sent with
  | none => exact .inl ⟨rfl, hsent⟩
  | some sent =>
    dsimp only
    by_cases hold : timeout ≤ now - sent.2
    · rw [if_pos hold]
      exact .inr ⟨rfl, Nat.succ_ne_self _, rfl⟩
    · rw [if_neg hold]
      exact .inl ⟨rfl, hsent⟩

/-- A packet is ignored, or it is the response to what was sent. -/
theorem handlePacket_cases (s : PingState) (packet : Bytes) (now : ℕ) :
    (s.handlePacket packet now).2 = s ∧
        (∀ sequence sentAt, s.sent = some (sequence, sentAt) →
          nativePingResponseSequence packet ≠ some sequence) ∨
      ∃ sequence sentAt, s.sent = some (sequence, sentAt) ∧
        nativePingResponseSequence packet = some sequence ∧
        (s.handlePacket packet now).2 =
          { s with sent := none, rttMs := some ((now - sentAt : ℕ) / 10 ^ 6) } := by
  unfold handlePacket
  cases hresponse : nativePingResponseSequence packet with
  | none => exact .inl ⟨rfl, fun _ _ _ h => by cases h⟩
  | some sequence =>
    cases hsent : s.sent with
    | none => exact .inl ⟨rfl, fun _ _ h => by cases h⟩
    | some sent =>
      obtain ⟨sentSequence, sentAt⟩ := sent
      dsimp only
      by_cases heq : sequence = sentSequence
      · rw [if_pos heq]
        exact .inr ⟨sentSequence, sentAt, rfl, congrArg some heq, rfl⟩
      · rw [if_neg heq]
        refine .inl ⟨rfl, fun sequence' sentAt' h hsome => heq ?_⟩
        rw [Option.some.inj hsome, (Prod.mk.inj (Option.some.inj h)).1]

end PingState

/-! ## Runs -/

/-- Where the ping thread is: between two cycles, about to send a request, behind sending it, with
what the socket has returned, or at its end. -/
inductive PingPhase
  | waiting
  | send (sequence : UInt32)
  | record (sequence : UInt32) (sent : Bool)
  | stopped

/-- Requests are numbered from one in the history. `onWire` tells whether the latest one was sent,
and `sentRequest` is the one that was last recorded as sent, at the time `sentTime`. `answered` has
the requests of which a response was handled while they were the latest, and `roundTrips` those with
which `handle_packet` has cleared what was sent, latest first: each with the time from `sentTime` to
the packet. -/
structure PingRun where
  state : PingState := {}
  phase : PingPhase := .waiting
  request : ℕ := 0
  onWire : Bool := false
  sentRequest : ℕ := 0
  sentTime : ℕ := 0
  answered : List (ℕ × ℕ) := []
  roundTrips : List (ℕ × ℕ) := []
  timedOut : List ℕ := []

inductive PingAction
  | allocate (now : ℕ)
  | send (ok : Bool)
  | record (now : ℕ)
  | handlePacket (packet : Bytes) (now : ℕ)
  | stop

namespace PingRun

/-- The packet is a response to the latest request. -/
def answers (r : PingRun) (packet : Bytes) : Bool :=
  r.onWire && nativePingResponseSequence packet == some r.state.sequence

/-- The requests that are answered when a packet is handled: the first response to the latest one
counts. -/
def answeredWith (r : PingRun) (packet : Bytes) (now : ℕ) : List (ℕ × ℕ) :=
  if r.answers packet && !r.answered.any (·.1 == r.request) then
    (r.request, now - r.sentTime) :: r.answered
  else r.answered

/-- An atomic step of either thread, and what `handle_packet` returns in it. -/
def step (timeout : ℕ) (r : PingRun) : PingAction → Option Bool × PingRun
  | .allocate now =>
    match r.phase with
    | .waiting =>
      let state := r.state.allocate timeout now
      (none, { r with
        state
        phase := .send state.sequence
        request := r.request + 1
        onWire := false
        timedOut := if state.timeouts = r.state.timeouts then r.timedOut
          else r.sentRequest :: r.timedOut })
    | _ => (none, r)
  | .send ok =>
    match r.phase with
    | .send sequence => (none, { r with phase := .record sequence ok, onWire := ok })
    | _ => (none, r)
  | .record now =>
    match r.phase with
    | .record sequence sent =>
      (none, { r with
        state := r.state.record sequence sent now
        phase := .waiting
        sentRequest := if sent then r.request else r.sentRequest
        sentTime := if sent then now else r.sentTime })
    | _ => (none, r)
  | .handlePacket packet now =>
    let (handled, state) := r.state.handlePacket packet now
    (some handled, { r with
      state
      answered := r.answeredWith packet now
      roundTrips := if r.state.sent.isSome && state.sent.isNone then
          (r.sentRequest, now - r.sentTime) :: r.roundTrips
        else r.roundTrips })
  | .stop =>
    match r.phase with
    | .waiting => (none, { r with phase := .stopped })
    | _ => (none, r)

/-- A response is not handled between the sending of its request and the section behind that. -/
def timely (r : PingRun) : PingAction → Bool
  | .handlePacket packet _ =>
    match r.phase with
    | .record sequence true => nativePingResponseSequence packet != some sequence
    | _ => true
  | _ => true

/-- Every request that was answered in its cycle is recorded as a round trip, with the time that
this response took, and not as a timeout; and the `rttMs` of the state is that of the last round
trip, in milliseconds. -/
def Matched (r : PingRun) : Prop :=
  (∀ answer ∈ r.answered, answer ∈ r.roundTrips ∧ answer.1 ∉ r.timedOut) ∧
    r.state.rttMs = r.roundTrips.head?.map fun trip => (trip.2 : ℚ) / 10 ^ 6

instance (r : PingRun) : Decidable r.Matched :=
  inferInstanceAs (Decidable ((∀ answer ∈ r.answered, _) ∧ _))

/-- The request has been answered in its cycle. -/
def Answered (r : PingRun) (request : ℕ) : Prop :=
  ∃ answer ∈ r.answered, answer.1 = request

/-- What waits for the latest request between two cycles: nothing if it was answered, and else its
response. -/
def Settled (r : PingRun) : Prop :=
  r.Answered r.request ∧ r.state.sent = none ∨
    r.sentRequest = r.request ∧ ∃ sentAt, r.state.sent = some (r.state.sequence, sentAt)

/-- What the phase of the ping thread says about the latest request: between two cycles it was not
sent, was answered, or still waits for its response; within a cycle it has not been answered. -/
def PhaseConsistent (r : PingRun) : Prop :=
  match r.phase with
  | .send sequence =>
    sequence = r.state.sequence ∧ r.onWire = false ∧ ¬ r.Answered r.request
  | .record sequence sent =>
    sequence = r.state.sequence ∧ r.onWire = sent ∧ ¬ r.Answered r.request
  | _ => r.onWire = true → r.Settled

structure Consistent (r : PingRun) : Prop where
  matched : r.Matched
  answered : ∀ answer ∈ r.answered, answer.1 ≤ r.request
  timedOut : ∀ request ∈ r.timedOut, request < r.request
  sent : ∀ sequence sentAt, r.state.sent = some (sequence, sentAt) →
    sentAt = r.sentTime ∧ ¬ r.Answered r.sentRequest ∧ r.sentRequest ≤ r.request
  phase : r.PhaseConsistent

theorem new_consistent : ({} : PingRun).Consistent where
  matched := ⟨fun _ h => absurd h List.not_mem_nil, rfl⟩
  answered := fun _ h => absurd h List.not_mem_nil
  timedOut := fun _ h => absurd h List.not_mem_nil
  sent := fun _ _ h => by cases h
  phase := fun h => by cases h

variable {r : PingRun} {timeout now : ℕ} {packet : Bytes}

theorem Consistent.allocate (h : r.Consistent) :
    (r.step timeout (.allocate now)).2.Consistent := by
  rw [PingRun.step]
  cases hphase : r.phase with
  | waiting =>
    dsimp only
    have hnew : ¬ r.Answered (r.request + 1) := by
      rintro ⟨answer, hmem, heq⟩
      have := h.answered _ hmem
      omega
    have hrtt (s : PingState) : (s.allocate timeout now).rttMs = s.rttMs := by
      unfold PingState.allocate
      cases s.sent with
      | none => rfl
      | some sent => dsimp only; split <;> rfl
    rcases r.state.allocate_cases timeout now with ⟨hsame, hsent⟩ | ⟨hsome, hcounted, hnone⟩
    · rw [if_pos hsame]
      refine ⟨⟨h.matched.1, (hrtt _).trans h.matched.2⟩,
        fun c hc => Nat.le_succ_of_le (h.answered c hc),
        fun c hc => Nat.lt_succ_of_lt (h.timedOut c hc), fun sequence sentAt hsome => ?_, rfl, rfl,
        hnew⟩
      obtain ⟨htime, hunanswered, hle⟩ := h.sent sequence sentAt (hsent.symm.trans hsome)
      exact ⟨htime, hunanswered, Nat.le_succ_of_le hle⟩
    · rw [if_neg hcounted]
      obtain ⟨⟨sequence, sentAt⟩, hsent⟩ := Option.isSome_iff_exists.1 hsome
      obtain ⟨-, hunanswered, hle⟩ := h.sent sequence sentAt hsent
      refine ⟨⟨fun c hc => ⟨(h.matched.1 c hc).1, fun hout => ?_⟩, (hrtt _).trans h.matched.2⟩,
        fun c hc => Nat.le_succ_of_le (h.answered c hc), fun c hc => ?_, fun _ _ hsome' => ?_, rfl,
        rfl, hnew⟩
      · -- what times out is what was sent, which was not answered
        rcases List.mem_cons.1 hout with heq | hout
        · exact hunanswered ⟨c, hc, heq⟩
        · exact (h.matched.1 c hc).2 hout
      · rcases List.mem_cons.1 hc with rfl | hc
        · exact Nat.lt_succ_of_le hle
        · exact Nat.lt_succ_of_lt (h.timedOut c hc)
      · cases hnone.symm.trans hsome'
  | send sequence => exact h
  | record sequence sent => exact h
  | stopped => exact h

theorem Consistent.send (h : r.Consistent) (ok : Bool) :
    (r.step timeout (.send ok)).2.Consistent := by
  have hp := h.phase
  rw [PingRun.step]
  cases hphase : r.phase with
  | send sequence =>
    rw [PhaseConsistent, hphase] at hp
    exact ⟨h.matched, h.answered, h.timedOut, h.sent, hp.1, rfl, hp.2.2⟩
  | waiting => exact h
  | record sequence sent => exact h
  | stopped => exact h

theorem Consistent.record (h : r.Consistent) : (r.step timeout (.record now)).2.Consistent := by
  have hp := h.phase
  rw [PingRun.step]
  cases hphase : r.phase with
  | record sequence sent =>
    rw [PhaseConsistent, hphase] at hp
    obtain ⟨rfl, honWire, hunanswered⟩ := hp
    cases sent with
    | true =>
      refine ⟨h.matched, h.answered, h.timedOut, fun sequence sentAt hsome => ?_,
        fun _ => .inr ⟨rfl, now, rfl⟩⟩
      exact ⟨((Prod.mk.inj (Option.some.inj hsome)).2).symm, hunanswered, Nat.le_refl _⟩
    | false =>
      exact ⟨h.matched, h.answered, h.timedOut, (fun _ _ hsome => by cases hsome),
        fun hsent => absurd (honWire.symm.trans hsent) (by decide)⟩
  | waiting => exact h
  | send sequence => exact h
  | stopped => exact h

theorem Consistent.stop (h : r.Consistent) : (r.step timeout .stop).2.Consistent := by
  have hp := h.phase
  rw [PingRun.step]
  cases hphase : r.phase with
  | waiting =>
    rw [PhaseConsistent, hphase] at hp
    exact ⟨h.matched, h.answered, h.timedOut, h.sent, hp⟩
  | send sequence => exact h
  | record sequence sent => exact h
  | stopped => exact h

/-- **A timely answer** comes between two cycles, and finds its request answered already or recorded
as sent. -/
theorem Consistent.answers (h : r.Consistent) (htimely : r.timely (.handlePacket packet now))
    (hanswers : r.answers packet = true) :
    (r.phase = .waiting ∨ r.phase = .stopped) ∧ r.Settled := by
  have hp := h.phase
  obtain ⟨honWire, hresponse⟩ := Bool.and_eq_true_iff.1 hanswers
  rw [PhaseConsistent] at hp
  rw [timely] at htimely
  cases hphase : r.phase with
  | waiting =>
    rw [hphase] at hp
    exact ⟨.inl rfl, hp honWire⟩
  | send sequence =>
    rw [hphase] at hp
    rw [hp.2.1] at honWire
    cases honWire
  | record sequence sent =>
    rw [hphase] at hp htimely
    obtain ⟨rfl, rfl, -⟩ := hp
    rw [honWire] at htimely
    simp [beq_iff_eq.1 hresponse] at htimely
  | stopped =>
    rw [hphase] at hp
    exact ⟨.inr rfl, hp honWire⟩

/-- A packet adds no answer, or it is the first one to the latest request. -/
theorem answeredWith_cases (r : PingRun) (packet : Bytes) (now : ℕ) :
    r.answeredWith packet now = r.answered ∧
        (r.answers packet = true → r.Answered r.request) ∨
      r.answeredWith packet now = (r.request, now - r.sentTime) :: r.answered ∧
        r.answers packet = true ∧ ¬ r.Answered r.request := by
  have hany : r.answered.any (·.1 == r.request) = true ↔ r.Answered r.request := by
    simp [Answered]
  rw [answeredWith, ← hany]
  cases r.answers packet <;> cases r.answered.any (·.1 == r.request) <;> simp

/-- A packet leaves everything as it is, or makes what was sent a round trip. -/
theorem step_handlePacket (r : PingRun) (timeout : ℕ) (packet : Bytes) (now : ℕ) :
    (r.step timeout (.handlePacket packet now)).2 =
        { r with answered := r.answeredWith packet now } ∧
      (∀ sequence sentAt, r.state.sent = some (sequence, sentAt) →
        nativePingResponseSequence packet ≠ some sequence) ∨
    ∃ sequence sentAt, r.state.sent = some (sequence, sentAt) ∧
      nativePingResponseSequence packet = some sequence ∧
      (r.step timeout (.handlePacket packet now)).2 = { r with
        state := { r.state with sent := none, rttMs := some ((now - sentAt : ℕ) / 10 ^ 6) }
        answered := r.answeredWith packet now
        roundTrips := (r.sentRequest, now - r.sentTime) :: r.roundTrips } := by
  have hstep : (r.step timeout (.handlePacket packet now)).2 = { r with
      state := (r.state.handlePacket packet now).2
      answered := r.answeredWith packet now
      roundTrips := if r.state.sent.isSome && (r.state.handlePacket packet now).2.sent.isNone then
          (r.sentRequest, now - r.sentTime) :: r.roundTrips
        else r.roundTrips } := rfl
  rw [hstep]
  rcases r.state.handlePacket_cases packet now with
    ⟨hsame, hother⟩ | ⟨sequence, sentAt, hsent, hresponse, hmatched⟩
  · left
    refine ⟨?_, hother⟩
    rw [hsame, if_neg (by cases r.state.sent <;> simp)]
  · right
    refine ⟨sequence, sentAt, hsent, hresponse, ?_⟩
    rw [hmatched, if_pos (by simp [hsent])]

/-- A packet does not change the phase. It may answer the latest request between two cycles only. -/
theorem PhaseConsistent.of_packet {r' : PingRun} (hp : r.PhaseConsistent)
    (hphase : r'.phase = r.phase) (hsequence : r'.state.sequence = r.state.sequence)
    (hwire : r'.onWire = r.onWire)
    (hcycle : ¬ (r.phase = .waiting ∨ r.phase = .stopped) → ¬ r.Answered r.request →
      ¬ r'.Answered r'.request)
    (hsettled : r.onWire = true → r.Settled → r'.Settled) : r'.PhaseConsistent := by
  rw [PhaseConsistent] at hp ⊢
  rw [hphase, hsequence, hwire]
  cases hold : r.phase with
  | waiting =>
    rw [hold] at hp
    exact fun honWire => hsettled honWire (hp honWire)
  | send sequence =>
    rw [hold] at hp
    exact ⟨hp.1, hp.2.1, hcycle (by rw [hold]; simp) hp.2.2⟩
  | record sequence sent =>
    rw [hold] at hp
    exact ⟨hp.1, hp.2.1, hcycle (by rw [hold]; simp) hp.2.2⟩
  | stopped =>
    rw [hold] at hp
    exact fun honWire => hsettled honWire (hp honWire)

/-- **A timely packet that is ignored** keeps the invariant: what it may answer was answered
before. -/
theorem Consistent.ignored (h : r.Consistent)
    (hfound : r.answers packet = true → r.Settled)
    (hother : ∀ sequence sentAt, r.state.sent = some (sequence, sentAt) →
      nativePingResponseSequence packet ≠ some sequence) :
    { r with answered := r.answeredWith packet now }.Consistent := by
  rcases r.answeredWith_cases packet now with ⟨hsame, -⟩ | ⟨-, hanswers, hfirst⟩
  · rw [hsame]
    exact h
  · rcases hfound hanswers with ⟨hanswered, -⟩ | ⟨-, sentAt, hsent⟩
    · exact absurd hanswered hfirst
    · -- the response to what was sent would not be ignored
      exact absurd (beq_iff_eq.1 (Bool.and_eq_true_iff.1 hanswers).2) (hother _ _ hsent)

/-- **A timely packet** keeps the invariant. -/
theorem Consistent.handlePacket (h : r.Consistent)
    (htimely : r.timely (.handlePacket packet now)) :
    (r.step timeout (.handlePacket packet now)).2.Consistent := by
  have hfound := h.answers htimely
  rcases r.step_handlePacket timeout packet now with
    ⟨hstep, hother⟩ | ⟨sequence, sentAt, hsent, hresponse, hstep⟩
  · rw [hstep]
    exact h.ignored (fun hanswers => (hfound hanswers).2) hother
  · rw [hstep]
    obtain ⟨rfl, hunanswered, hle⟩ := h.sent sequence sentAt hsent
    have hnotOut : r.request ∉ r.timedOut := fun hout => Nat.lt_irrefl _ (h.timedOut _ hout)
    -- what was sent is the latest request, if the packet answers that
    have hlatest (hanswers : r.answers packet = true) : r.sentRequest = r.request := by
      rcases (hfound hanswers).2 with ⟨-, hnone⟩ | ⟨heq, -⟩
      · cases hnone.symm.trans hsent
      · exact heq
    have hmatched : ∀ answer ∈ r.answeredWith packet now,
        answer ∈ (r.sentRequest, now - r.sentTime) :: r.roundTrips ∧ answer.1 ∉ r.timedOut := by
      intro answer hmem
      rcases r.answeredWith_cases packet now with ⟨hsame, -⟩ | ⟨hfirst, hanswers, -⟩
      · rw [hsame] at hmem
        exact ⟨List.mem_cons_of_mem _ (h.matched.1 answer hmem).1, (h.matched.1 answer hmem).2⟩
      · rw [hfirst] at hmem
        rcases List.mem_cons.1 hmem with rfl | hmem
        · rw [hlatest hanswers]
          exact ⟨List.mem_cons_self, hnotOut⟩
        · exact ⟨List.mem_cons_of_mem _ (h.matched.1 answer hmem).1, (h.matched.1 answer hmem).2⟩
    have hbound : ∀ answer ∈ r.answeredWith packet now, answer.1 ≤ r.request := by
      intro answer hmem
      rcases r.answeredWith_cases packet now with ⟨hsame, -⟩ | ⟨hfirst, -, -⟩
      · exact h.answered answer (hsame ▸ hmem)
      · rw [hfirst] at hmem
        rcases List.mem_cons.1 hmem with rfl | hmem
        · exact Nat.le_refl _
        · exact h.answered answer hmem
    refine ⟨⟨hmatched, rfl⟩, hbound, h.timedOut, (fun _ _ hsome => by cases hsome), ?_⟩
    refine h.phase.of_packet rfl rfl rfl (fun hin hnot => ?_) fun honWire hold => .inl ⟨?_, rfl⟩
    · -- within a cycle nothing is an answer
      rcases r.answeredWith_cases packet now with ⟨hsame, -⟩ | ⟨-, hanswers, -⟩
      · dsimp only [Answered]
        rwa [hsame]
      · exact absurd (hfound hanswers).1 hin
    · -- what was sent has the latest number, so that this is an answer
      rcases hold with ⟨-, hnone⟩ | ⟨-, sentAt, hsent'⟩
      · cases hnone.symm.trans hsent
      · obtain rfl : sequence = r.state.sequence :=
          (Prod.mk.inj (Option.some.inj (hsent.symm.trans hsent'))).1
        have hanswers : r.answers packet = true := by
          rw [PingRun.answers, honWire, hresponse]
          simp
        rcases r.answeredWith_cases packet now with ⟨hsame, hdone⟩ | ⟨hfirst, -, -⟩
        · dsimp only [Answered]
          rw [hsame]
          exact hdone hanswers
        · exact ⟨_, hfirst ▸ List.mem_cons_self, rfl⟩

/-- **A timely step** keeps the invariant. -/
theorem Consistent.step (h : r.Consistent) {action : PingAction} (htimely : r.timely action) :
    (r.step timeout action).2.Consistent := by
  cases action with
  | allocate now => exact h.allocate
  | send ok => exact h.send ok
  | record now => exact h.record
  | handlePacket packet now => exact h.handlePacket htimely
  | stop => exact h.stop

/-- **Responses are matched** in every run in which no response is handled between the sending of
its request and the section that records it: a request that is answered before the next cycle begins
is recorded as a round trip, with the time from its sending to this response as `rttMs`, and never
counts as a timeout. -/
theorem pings_matched (timeout : ℕ) (actions : List PingAction)
    (htimely : ∀ v ∈ Transducer.visits (step timeout) {} actions, v.1.timely v.2) :
    (Transducer.final (step timeout) {} actions).Matched :=
  (Transducer.final_of_visits (fun _ _ h hC => h.step hC) new_consistent htimely).matched

/-- The response to the first request. -/
def firstResponse : Bytes := [0x13, 0x37, 0xF0, 0x0D, 1, 0, 0, 0]

/-- A cycle of five seconds whose response comes in between, and the next one. -/
def slowResponse : List PingAction :=
  [.allocate 0, .send true, .record 1, .handlePacket firstResponse 30, .allocate 5000000000]

/-- The same cycle, where the response comes before the second section. -/
def fastResponse : List PingAction :=
  [.allocate 0, .send true, .handlePacket firstResponse 1, .record 2, .allocate 5000000002]

theorem pings_matched_slow :
    (Transducer.final (step 5000000000) {} slowResponse).Matched :=
  pings_matched 5000000000 slowResponse (by decide)

/-- The request is not recorded as a round trip, and counts as a timeout. -/
theorem not_pings_matched : ¬ ∀ (timeout : ℕ) (actions : List PingAction),
    (Transducer.final (step timeout) {} actions).Matched := by
  intro h
  exact absurd (h 5000000000 fastResponse) (by decide)

end PingRun

end NativeVoice.Transport
