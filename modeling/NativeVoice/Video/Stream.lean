import Mathlib.Data.List.Range
import NativeVoice.Lib.Reassembly
import NativeVoice.Rtp.Sequence
import NativeVoice.Video.Common

/-!
# Packet streams

The two ends of a video stream, for all codecs: the packets that one packetizer makes of a list of
payloads, and the shared depacketizer state as a receiver of `Lib.Reassembly`.

* `packetsForPayloads` stamps its packets with one timestamp and consecutive sequence numbers.
* `Receives push fragment A` says that `push` treats a packet with `A` as the receiver treats the
  fragment in it; `Receives.outputs` carries this over whole runs.
-/

namespace NativeVoice.Video

open Lib Lib.Transducer Lib.Reassembly

/-! ## The packets of one frame -/

namespace PacketizerState

variable {ρ : Type}

theorem packetsForPayloads_cons (st : PacketizerState ρ) (payload : Bytes) (marker : Bool)
    (l : List (Bytes × Bool)) : (st.packetsForPayloads ((payload, marker) :: l)).1 =
      (st.packetForPayload payload marker).1 ::
        ({ st with sequence := st.sequence + 1 }.packetsForPayloads l).1 := rfl

theorem packetsForPayloads_state (st : PacketizerState ρ) (l : List (Bytes × Bool)) :
    (st.packetsForPayloads l).2 = { st with sequence := st.sequence + UInt16.ofNat l.length } := by
  induction l generalizing st with
  | nil => simp [packetsForPayloads]
  | cons x l ih =>
    have h : (st.packetsForPayloads (x :: l)).2 =
        ({ st with sequence := st.sequence + 1 }.packetsForPayloads l).2 := rfl
    rw [h, ih, List.length_cons, ← add_one_add_ofNat]

@[simp] theorem mtu_packetsForPayloads (st : PacketizerState ρ) (l : List (Bytes × Bool)) :
    (st.packetsForPayloads l).2.mtu = st.mtu := by
  rw [packetsForPayloads_state]

@[simp] theorem mtu_incrementTimestamp {τ : Type} (clock : TickClock τ ρ) (st : PacketizerState ρ)
    (frameTimeMs : τ) : (st.incrementTimestamp clock frameTimeMs).mtu = st.mtu := rfl

theorem packetsForPayloads_append (st : PacketizerState ρ)
    (a b : List (Bytes × Bool)) : st.packetsForPayloads (a ++ b) =
      ((st.packetsForPayloads a).1 ++ ((st.packetsForPayloads a).2.packetsForPayloads b).1,
        ((st.packetsForPayloads a).2.packetsForPayloads b).2) := by
  induction a generalizing st with
  | nil => rfl
  | cons x a ih =>
    obtain ⟨payload, marker⟩ := x
    simp only [List.cons_append, packetsForPayloads, ih]

theorem map_packetsForPayloads (st : PacketizerState ρ) (l : List (Bytes × Bool)) :
    (st.packetsForPayloads l).1.map (fun p => (p.payload, p.marker)) = l := by
  induction l generalizing st with
  | nil => rfl
  | cons x l ih => rw [packetsForPayloads_cons, List.map_cons, ih]; rfl

@[simp] theorem length_packetsForPayloads (st : PacketizerState ρ) (l : List (Bytes × Bool)) :
    (st.packetsForPayloads l).1.length = l.length := by
  simpa using congrArg List.length (st.map_packetsForPayloads l)

theorem timestamp_packetsForPayloads (st : PacketizerState ρ) (l : List (Bytes × Bool)) :
    ∀ p ∈ (st.packetsForPayloads l).1, p.timestamp = st.timestamp := by
  induction l generalizing st with
  | nil => simp [packetsForPayloads]
  | cons x l ih =>
    intro p hp
    rw [packetsForPayloads_cons, List.mem_cons] at hp
    rcases hp with rfl | hp
    · rfl
    · exact ih { st with sequence := st.sequence + 1 } p hp

theorem sequence_packetsForPayloads (st : PacketizerState ρ) (l : List (Bytes × Bool)) :
    (st.packetsForPayloads l).1.map MediaPacket.sequence =
      (List.range l.length).map fun i => st.sequence + 1 + UInt16.ofNat i := by
  induction l generalizing st with
  | nil => rfl
  | cons x l ih =>
    rw [packetsForPayloads_cons, List.map_cons, ih, List.length_cons, List.range_succ_eq_map,
      List.map_cons, List.map_map]
    congr 1
    · simp [packetForPayload, nextSequence]
    · refine List.map_congr_left fun i _ => ?_
      exact add_one_add_ofNat (st.sequence + 1) i

/-- The sequence numbers of one frame are consecutive. -/
theorem isChain_packetsForPayloads (st : PacketizerState ρ) (l : List (Bytes × Bool)) :
    (st.packetsForPayloads l).1.IsChain fun p q => q.sequence = p.sequence + 1 := by
  rw [← List.isChain_map MediaPacket.sequence (R := fun i j => j = i + 1),
    sequence_packetsForPayloads, List.isChain_map, List.isChain_range]
  intro i _
  rw [Nat.succ_eq_add_one, UInt16.ofNat_add]
  exact (UInt16.add_assoc _ _ _).symm

/-- A frame of at most `2 ^ 16` packets has no sequence number twice. -/
theorem nodup_packetsForPayloads (st : PacketizerState ρ) {l : List (Bytes × Bool)}
    (h : l.length ≤ 2 ^ 16) : ((st.packetsForPayloads l).1.map MediaPacket.sequence).Nodup := by
  have hconsecutive : Consecutive ((st.packetsForPayloads l).1.map MediaPacket.sequence) :=
    List.isChain_map _ |>.2 (st.isChain_packetsForPayloads l)
  exact hconsecutive.nodup (by rwa [List.length_map, length_packetsForPayloads])

end PacketizerState

/-! ## Markers -/

/-- Payloads with their markers: the last one is marked if it is the last one of its frame. -/
def markLast (last : Bool) : List Bytes → List (Bytes × Bool)
  | [] => []
  | [payload] => [(payload, last)]
  | payload :: next :: payloads => (payload, false) :: markLast last (next :: payloads)

theorem markLast_eq_mapIdx (last : Bool) (payloads : List Bytes) : markLast last payloads =
    payloads.mapIdx fun i payload => (payload, last && decide (i + 1 = payloads.length)) := by
  induction payloads with
  | nil => rfl
  | cons payload payloads ih =>
    cases payloads with
    | nil => simp [markLast]
    | cons next payloads =>
      rw [markLast, ih, List.mapIdx_cons]
      cases payloads <;> simp

@[simp] theorem map_fst_markLast (last : Bool) (payloads : List Bytes) :
    (markLast last payloads).map Prod.fst = payloads := by
  induction payloads with
  | nil => rfl
  | cons payload payloads ih =>
    cases payloads with
    | nil => rfl
    | cons next payloads => rw [markLast, List.map_cons, ih]

@[simp] theorem length_markLast (last : Bool) (payloads : List Bytes) :
    (markLast last payloads).length = payloads.length := by
  rw [← List.length_map Prod.fst, map_fst_markLast]

theorem markLast_append (last : Bool) (a : List Bytes) {b : List Bytes} (hb : b ≠ []) :
    markLast last (a ++ b) = markLast false a ++ markLast last b := by
  induction a with
  | nil => rfl
  | cons payload a ih =>
    cases a with
    | nil =>
      obtain ⟨next, b, rfl⟩ := List.exists_cons_of_ne_nil hb
      rfl
    | cons next a => exact congrArg ((payload, false) :: ·) ih

theorem markLast_concat (last : Bool) (a : List Bytes) (payload : Bytes) :
    markLast last (a ++ [payload]) = markLast false a ++ [(payload, last)] :=
  markLast_append last a (by simp)

theorem snd_markLast_false {a : List Bytes} : ∀ x ∈ markLast false a, x.2 = false := by
  induction a with
  | nil => simp [markLast]
  | cons payload a ih =>
    cases a with
    | nil => simp [markLast]
    | cons next a => simpa [markLast] using ih

/-- The answers to the packets of a frame: the frame at the packet with the marker. -/
def markerAnswers (frame : Bytes) (ps : List MediaPacket) :
    List (Fallible PacketError (Option Bytes)) :=
  ps.map fun p => .ok (if p.marker then some frame else none)

/-- Only the last packet has the marker. -/
def MarkedAtEnd (ps : List MediaPacket) : Prop :=
  ∃ init last, ps = init ++ [last] ∧ last.marker ∧ ∀ p ∈ init, p.marker = false

theorem MarkedAtEnd.countP {ps : List MediaPacket} (h : MarkedAtEnd ps) :
    ps.countP MediaPacket.marker = 1 := by
  obtain ⟨init, last, rfl, hlast, hinit⟩ := h
  have : init.countP MediaPacket.marker = 0 := by
    rw [List.countP_eq_zero]
    simpa using hinit
  simp [List.countP_append, this, hlast]

theorem MarkedAtEnd.answers {ps : List MediaPacket} (h : MarkedAtEnd ps) (frame : Bytes) :
    (answers ps.length (some frame)).map .ok = markerAnswers frame ps := by
  obtain ⟨init, last, rfl, hlast, hinit⟩ := h
  have : init.map (fun p => (.ok (if p.marker then some frame else none) :
      Fallible PacketError (Option Bytes))) = List.replicate init.length (.ok none) := by
    rw [List.eq_replicate_iff]
    refine ⟨by simp, ?_⟩
    simp only [List.forall_mem_map]
    intro p hp
    simp [hinit p hp]
  simp [Reassembly.answers, markerAnswers, this, hlast]

theorem markedAtEnd_packetsForPayloads {ρ : Type} (st : PacketizerState ρ) {payloads : List Bytes}
    (h : payloads ≠ []) : MarkedAtEnd (st.packetsForPayloads (markLast true payloads)).1 := by
  obtain ⟨init, last, rfl⟩ : ∃ init last, payloads = init ++ [last] :=
    ⟨_, _, (List.dropLast_append_getLast h).symm⟩
  rw [markLast_concat, PacketizerState.packetsForPayloads_append]
  refine ⟨_, _, rfl, rfl, fun p hp => ?_⟩
  have := List.mem_map_of_mem (f := fun p : MediaPacket => (p.payload, p.marker)) hp
  rw [PacketizerState.map_packetsForPayloads] at this
  exact snd_markLast_false _ this

/-! ## The shared state as a receiver -/

namespace DepacketizerState

/-- The state as the library's receiver sees it. -/
def view (st : DepacketizerState) : State UInt32 UInt16 UInt8 where
  stamp := st.timestamp
  last := st.lastSequence
  dropping := st.discarding
  buffer := st.frame

theorem view_beginPacket (st : DepacketizerState) (sequence : UInt16) (timestamp : UInt32) :
    (st.beginPacket sequence timestamp).view = st.view.arrive (· + 1) timestamp sequence := by
  unfold beginPacket State.arrive
  by_cases ht : st.timestamp = some timestamp
  · cases hl : st.lastSequence with
    | none => simp [view, ht, hl]
    | some n => by_cases hn : n + 1 = sequence <;> simp [view, discardFrame, ht, hl, hn]
  · simp [view, reset, ht]

theorem view_finishIf (st : DepacketizerState) (ends : Bool) :
    (st.finishIf ends).1 = .ok (st.view.finishIf ends).1 ∧
      (st.finishIf ends).2.view = (st.view.finishIf ends).2 := by
  cases ends <;> exact ⟨rfl, rfl⟩

/-- What every codec does with a fragment, once the packet's place in the stream is recorded: drop
it, give up on its frame, or append its bytes. -/
def accept (st : DepacketizerState) (opens : Bool) (body : Bytes) (closes : Bool) :
    Fallible PacketError (Option Bytes) × DepacketizerState :=
  if st.isDiscarding then st.finishIf closes
  else if !opens && st.frame.isEmpty then st.discardFrame.finishIf closes
  else { st with frame := st.frame ++ body }.finishIf closes

theorem accept_beginPacket (st : DepacketizerState) (p : Fragment UInt32 UInt16 UInt8) :
    let r := (st.beginPacket p.number p.stamp).accept p.opens p.body p.closes
    r.1 = .ok (receive (· + 1) st.view p).1 ∧ r.2.view = (receive (· + 1) st.view p).2 := by
  unfold receive
  rw [← view_beginPacket]
  generalize st.beginPacket p.number p.stamp = st'
  unfold accept
  dsimp only
  by_cases hd : st'.discarding = true
  · simpa [isDiscarding, view, hd] using st'.view_finishIf p.closes
  · by_cases ho : (!p.opens && st'.frame.isEmpty) = true
    · simpa [isDiscarding, view, discardFrame, hd, ho] using st'.discardFrame.view_finishIf p.closes
    · simpa [isDiscarding, view, hd, ho] using
        ({ st' with frame := st'.frame ++ p.body } : DepacketizerState).view_finishIf p.closes

end DepacketizerState

/-- The packets of the frames that one packetizer is given in turn. -/
def sent {π φ : Type} (packetize : π → φ → Fallible PacketError (List MediaPacket) × π) (p : π)
    (frames : List φ) : List (List MediaPacket) :=
  (outputs packetize p frames).map fun r => r.toOption.getD []

/-- A method called with the fields of a packet. -/
def pushMedia {δ β : Type} (push : δ → Bytes → Bool → UInt16 → UInt32 → β × δ) (d : δ)
    (p : MediaPacket) : β × δ := push d p.payload p.marker p.sequence p.timestamp

/-- A packet without the marker, of which only the payload matters. -/
def unmarked (payload : Bytes) : MediaPacket where
  header := []
  payload := payload
  marker := false
  sequence := 1
  timestamp := 1
  ssrc := 1
  payloadType := 2

section PushMedia

variable {δ β ρ : Type} (push : δ → Bytes → Bool → UInt16 → UInt32 → β × δ) (d : δ)
  (st : PacketizerState ρ) (payload : Bytes) (marker : Bool) (l : List (Bytes × Bool))

theorem outputs_packetsForPayloads_cons :
    outputs (pushMedia push) d (st.packetsForPayloads ((payload, marker) :: l)).1 =
      (push d payload marker (st.sequence + 1) st.timestamp).1 ::
        outputs (pushMedia push) (push d payload marker (st.sequence + 1) st.timestamp).2
          ({ st with sequence := st.sequence + 1 }.packetsForPayloads l).1 := rfl

theorem final_packetsForPayloads_cons :
    final (pushMedia push) d (st.packetsForPayloads ((payload, marker) :: l)).1 =
      final (pushMedia push) (push d payload marker (st.sequence + 1) st.timestamp).2
        ({ st with sequence := st.sequence + 1 }.packetsForPayloads l).1 := rfl

end PushMedia

/-! ## Payload formats -/

/-- What a codec's payloads carry, read from a payload alone. -/
structure PayloadFormat where
  opens : Bytes → Bool
  body : Bytes → Bytes
  ends : Bytes → Bool

namespace PayloadFormat

variable (F : PayloadFormat)

/-- The fragment that a packet carries. -/
def fragment (p : MediaPacket) : Fragment UInt32 UInt16 UInt8 where
  stamp := p.timestamp
  number := p.sequence
  opens := F.opens p.payload
  body := F.body p.payload
  closes := p.marker || F.ends p.payload

/-- `push` answers the packets whose payload satisfies `A` as the receiver answers the fragments in
them. -/
def Receives (push : DepacketizerState → Bytes → Bool → UInt16 → UInt32 →
      Fallible PacketError (Option Bytes) × DepacketizerState) (A : Bytes → Prop) : Prop :=
  ∀ d p, A p.payload →
    (pushMedia push d p).1 = .ok (receive (· + 1) d.view (F.fragment p)).1 ∧
      (pushMedia push d p).2.view = (receive (· + 1) d.view (F.fragment p)).2

/-- The packets `ps` are `frame` cut into fragments. -/
structure CutInto (A : Bytes → Prop) (frame : Bytes) (ps : List MediaPacket) : Prop where
  admitted : ∀ p ∈ ps, A p.payload
  part : ∃ t, PartOf t (ps.map F.fragment)
  complete : Complete (· + 1) (ps.map F.fragment)
  bodies : (ps.map F.fragment).flatMap Fragment.body = frame
  nodup : ps.length ≤ 2 ^ 16 → (ps.map MediaPacket.sequence).Nodup

/-- The payloads `l`, with their markers, are `frame` cut into fragments. -/
structure Cuts (A : Bytes → Prop) (frame : Bytes) (l : List (Bytes × Bool)) : Prop where
  admitted : ∀ x ∈ l, A x.1
  body : ∀ x ∈ l, F.opens x.1 → F.body x.1 ≠ []
  opens : ∃ x ∈ l.head?, F.opens x.1
  inner : ∀ x ∈ l.dropLast, (x.2 || F.ends x.1) = false
  last : ∃ x ∈ l.getLast?, x.2 || F.ends x.1
  bodies : l.flatMap (fun x => F.body x.1) = frame

variable {F} in
theorem Cuts.cutInto {ρ : Type} {A : Bytes → Prop} {frame : Bytes} {l : List (Bytes × Bool)}
    (h : F.Cuts A frame l) (st : PacketizerState ρ) :
    F.CutInto A frame (st.packetsForPayloads l).1 := by
  set ps := (st.packetsForPayloads l).1 with hps
  have hmap : ps.map (fun p => (p.payload, p.marker)) = l := st.map_packetsForPayloads l
  have hmem : ∀ p ∈ ps, (p.payload, p.marker) ∈ l := fun p hp => by
    rw [← hmap]
    exact List.mem_map_of_mem hp
  refine ⟨fun p hp => h.admitted _ (hmem p hp), ⟨st.timestamp, ?_, ?_, ?_⟩, ⟨?_, ?_, ?_⟩, ?_, ?_⟩
  · rw [List.forall_mem_map]
    exact st.timestamp_packetsForPayloads l
  · rw [List.forall_mem_map]
    exact fun p hp => h.body _ (hmem p hp)
  · rw [← List.map_dropLast]
    simp only [List.forall_mem_map]
    intro p hp
    refine h.inner (p.payload, p.marker) ?_
    rw [← hmap, ← List.map_dropLast]
    exact List.mem_map_of_mem hp
  · obtain ⟨x, hx, ho⟩ := h.opens
    rw [← hmap, List.head?_map] at hx
    obtain ⟨p, hp, rfl⟩ := Option.map_eq_some_iff.1 hx
    exact ⟨F.fragment p, by simp [hp], ho⟩
  · rw [List.isChain_map]
    exact st.isChain_packetsForPayloads l
  · obtain ⟨x, hx, hc⟩ := h.last
    rw [← hmap, List.getLast?_map] at hx
    obtain ⟨p, hp, rfl⟩ := Option.map_eq_some_iff.1 hx
    exact ⟨F.fragment p, by simp [hp], hc⟩
  · rw [← h.bodies, ← hmap, List.flatMap_map, List.flatMap_map]
    rfl
  · intro hlen
    exact st.nodup_packetsForPayloads (by simpa [hps] using hlen)

/-- The payloads of a frame that is cut into chunks, one payload a chunk. -/
theorem cuts_mapIdx {A : Bytes → Prop} {cs : List Bytes} (hcs : cs ≠ []) (hne : ∀ c ∈ cs, c ≠ [])
    {mk : ℕ → Bytes → Bytes} (hA : ∀ i c, A (mk i c))
    (hopens : ∀ i c, F.opens (mk i c) = (i = 0 : Bool)) (hbody : ∀ i c, F.body (mk i c) = c)
    (hends : ∀ i c, F.ends (mk i c) → i + 1 = cs.length) :
    F.Cuts A cs.flatten (cs.mapIdx fun i c => (mk i c, decide (i + 1 = cs.length))) where
  admitted x hx := by
    obtain ⟨i, hi, rfl⟩ := List.mem_mapIdx.1 hx
    exact hA _ _
  body x hx _ := by
    obtain ⟨i, hi, rfl⟩ := List.mem_mapIdx.1 hx
    rw [hbody]
    exact hne _ (List.getElem_mem hi)
  opens := by
    obtain ⟨c, cs, rfl⟩ := List.exists_cons_of_ne_nil hcs
    exact ⟨(mk 0 c, decide (0 + 1 = (c :: cs).length)), by rw [List.mapIdx_cons]; rfl,
      by simp [hopens]⟩
  inner x hx := by
    obtain ⟨i, hi, rfl⟩ := List.mem_iff_getElem.1 hx
    simp only [List.length_dropLast, List.length_mapIdx] at hi
    simp only [List.getElem_dropLast, List.getElem_mapIdx]
    have : ¬ i + 1 = cs.length := by omega
    simpa [this] using fun he => this (hends _ _ he)
  last := by
    refine ⟨(mk (cs.length - 1) (cs.getLast hcs), true), ?_, by simp⟩
    have := List.length_pos_iff.2 hcs
    have hlast : cs.length - 1 + 1 = cs.length := by omega
    have hget : cs[cs.length - 1]? = some (cs.getLast hcs) := by
      rw [← List.getLast?_eq_getElem?, List.getLast?_eq_some_getLast hcs]
    simp [List.getLast?_eq_getElem?, List.getElem?_mapIdx, hlast, hget]
  bodies := by
    rw [List.flatMap_def]
    congr 1
    apply List.ext_getElem
    · simp
    · simp [hbody]

/-- Only the first of them opens the frame. -/
theorem opens_tail_mapIdx {ρ : Type} (st : PacketizerState ρ) {cs : List Bytes}
    {mk : ℕ → Bytes → Bytes} (hopens : ∀ i c, F.opens (mk i c) = (i = 0 : Bool)) (last : ℕ → Bool) :
    ∀ q ∈ (st.packetsForPayloads (cs.mapIdx fun i c => (mk i c, last i))).1.tail,
      F.opens q.payload = false := by
  intro q hq
  have hmem : (q.payload, q.marker) ∈ (cs.mapIdx fun i c => (mk i c, last i)).tail := by
    rw [← st.map_packetsForPayloads (cs.mapIdx fun i c => (mk i c, last i)), ← List.map_tail]
    exact List.mem_map_of_mem hq
  cases cs with
  | nil => simp at hmem
  | cons c cs =>
    rw [List.mapIdx_cons, List.tail_cons] at hmem
    obtain ⟨i, hi, he⟩ := List.mem_mapIdx.1 hmem
    rw [← (Prod.mk.inj he).1, hopens]
    simp

theorem receives_of_accept {F : PayloadFormat}
    {push : DepacketizerState → Bytes → Bool → UInt16 → UInt32 →
      Fallible PacketError (Option Bytes) × DepacketizerState} {A : Bytes → Prop}
    (h : ∀ d payload marker sequence timestamp, A payload →
      push d payload marker sequence timestamp =
        (d.beginPacket sequence timestamp).accept (F.opens payload) (F.body payload)
          (marker || F.ends payload)) : F.Receives push A := by
  intro d p hp
  rw [pushMedia, h d p.payload p.marker p.sequence p.timestamp hp]
  exact d.accept_beginPacket (F.fragment p)

variable {F}
  {push : DepacketizerState → Bytes → Bool → UInt16 → UInt32 →
    Fallible PacketError (Option Bytes) × DepacketizerState} {A : Bytes → Prop}

/-- **A run of `push` is a run of the receiver.** -/
theorem Receives.outputs (h : F.Receives push A) (d : DepacketizerState) {ps : List MediaPacket}
    (hA : ∀ p ∈ ps, A p.payload) : Transducer.outputs (pushMedia push) d ps =
      (Transducer.outputs (receive (· + 1)) d.view (ps.map F.fragment)).map .ok := by
  rw [← outputs_comap]
  refine outputs_eq_of_simulation (A := fun p => A p.payload) (R := fun d s => d.view = s) ?_ rfl hA
  rintro d _ p rfl hp
  exact h d p hp

theorem mem_of_mem_arriving {m : List (MediaPacket × Bool)} {p : MediaPacket}
    (hp : p ∈ arriving m) : p ∈ m.map Prod.fst := (arriving_sublist m).subset hp

theorem map_arriving {β γ : Type*} (f : β → γ) (m : List (β × Bool)) :
    (arriving m).map f = arriving (m.map fun x => (f x.1, x.2)) := by
  induction m with
  | nil => rfl
  | cons x m ih => cases hx : x.2 <;> simp [arriving, hx] at ih ⊢ <;> exact ih

/-- **Frames under loss, frame by frame.** Every frame that is sent with a timestamp of its own is
answered by what the receiver makes of the packets that arrive of it. -/
theorem Receives.outputs_delivered (h : F.Receives push A)
    {marked : List (List (MediaPacket × Bool))}
    (hcut : ∀ m ∈ marked, ∃ frame, F.CutInto A frame (m.map Prod.fst))
    (hts : marked.Pairwise fun m m' => ∀ x ∈ m, ∀ y ∈ m', x.1.timestamp ≠ y.1.timestamp) :
    Transducer.outputs (pushMedia push) {} (marked.flatMap arriving) =
      (marked.flatMap fun m => answers (arriving m).length
        (received (· + 1) ((arriving m).map F.fragment))).map .ok := by
  rw [h.outputs, List.map_flatMap]
  · congr 1
    have := @Reassembly.outputs_delivered _ _ _ _ _ (· + 1)
      ({} : DepacketizerState).view (marked.map fun m => (arriving m).map F.fragment) ?_ ?_ ?_
    · simpa [List.flatMap_def, List.flatMap_map, Function.comp_def] using this
    · simp only [List.forall_mem_map]
      intro m hm
      obtain ⟨frame, hframe⟩ := hcut m hm
      obtain ⟨t, ht⟩ := hframe.part
      exact ⟨t, ht.sublist ((arriving_sublist m).map _)⟩
    · rw [List.pairwise_map]
      refine hts.imp fun {m m'} hd => ?_
      simp only [List.forall_mem_map]
      intro p hp q hq
      obtain ⟨x, hx, rfl⟩ := List.mem_map.1 (mem_of_mem_arriving hp)
      obtain ⟨y, hy, rfl⟩ := List.mem_map.1 (mem_of_mem_arriving hq)
      exact hd x hx y hy
    · simp [DepacketizerState.view]
  · intro p hp
    obtain ⟨m, hm, hp⟩ := List.mem_flatMap.1 hp
    obtain ⟨frame, hframe⟩ := hcut m hm
    exact hframe.admitted p (mem_of_mem_arriving hp)

theorem exists_of_forall₂_right {β γ : Type*} {R : β → γ → Prop} {l : List β} {l' : List γ}
    (h : List.Forall₂ R l l') : ∀ c ∈ l', ∃ b, R b c := by
  induction h with
  | nil => simp
  | cons hR _ ih => simpa using ⟨⟨_, hR⟩, ih⟩

/-- **Frames under loss, single opening.** Where only the first packet of a frame opens it, exactly
the frames all of whose packets arrive are returned, each at its last packet. -/
theorem Receives.outputs_under_loss (h : F.Receives push A) {frames : List Bytes}
    {marked : List (List (MediaPacket × Bool))}
    (hcut : List.Forall₂ (fun frame m => F.CutInto A frame (m.map Prod.fst) ∧
      ∀ x ∈ m.tail, F.opens x.1.payload = false) frames marked)
    (hlen : ∀ m ∈ marked, m.length ≤ 2 ^ 16)
    (hts : marked.Pairwise fun m m' => ∀ x ∈ m, ∀ y ∈ m', x.1.timestamp ≠ y.1.timestamp) :
    Transducer.outputs (pushMedia push) {} (marked.flatMap arriving) =
      (List.zipWith (fun frame m => answers (arriving m).length
        (if ∀ x ∈ m, x.2 = true then some frame else none)) frames marked).flatten.map .ok := by
  have hcut' : ∀ m ∈ marked, ∃ frame, F.CutInto A frame (m.map Prod.fst) := fun m hm =>
    (exists_of_forall₂_right hcut m hm).imp fun _ hf => hf.1
  rw [h.outputs_delivered hcut' hts]
  clear hts hcut'
  congr 1
  induction hcut with
  | nil => rfl
  | @cons frame m frames marked hframe _ ih =>
    obtain ⟨hframe, hopens⟩ := hframe
    rw [List.flatMap_cons, List.zipWith_cons_cons, List.flatten_cons,
      ih fun m' hm => hlen m' (by simp [hm]), map_arriving]
    have hfst : (m.map fun x => (F.fragment x.1, x.2)).map Prod.fst =
        (m.map Prod.fst).map F.fragment := by simp
    rw [received_arriving (hfst ▸ hframe.complete), hfst, hframe.bodies]
    · simp only [List.forall_mem_map]
    · simpa [Function.comp_def, fragment] using hframe.nodup (by simpa using hlen m (by simp))
    · intro x hx
      rw [← List.map_tail] at hx
      obtain ⟨y, hy, rfl⟩ := List.mem_map.1 hx
      exact hopens y hy
    · intro x hx
      rw [← List.map_dropLast] at hx
      obtain ⟨y, hy, rfl⟩ := List.mem_map.1 hx
      obtain ⟨t, ht⟩ := hframe.part
      refine ht.closes _ ?_
      rw [← List.map_dropLast, ← List.map_dropLast]
      exact List.mem_map_of_mem (List.mem_map_of_mem hy)

/-- **Frames without loss.** Every frame is answered at its last packet. -/
theorem Receives.outputs_lossless (h : F.Receives push A) {frames : List Bytes}
    {sent : List (List MediaPacket)} (hcut : List.Forall₂ (F.CutInto A) frames sent) :
    Transducer.outputs (pushMedia push) {} sent.flatten =
      (List.zipWith (fun frame ps => answers ps.length (some frame)) frames sent).flatten.map
        .ok := by
  rw [h.outputs]
  · congr 1
    have := @Reassembly.outputs_lossless _ _ _ _ _ (· + 1) ({} : DepacketizerState).view rfl
      (sent.map (List.map F.fragment)) ?_ ?_
    · rw [List.map_flatten, this]
      clear this
      induction hcut with
      | nil => rfl
      | cons hframe _ ih => simp [hframe.bodies, ih]
    · simp only [List.forall_mem_map]
      intro ps hps
      obtain ⟨frame, hframe⟩ := exists_of_forall₂_right hcut ps hps
      exact hframe.part
    · simp only [List.forall_mem_map]
      intro ps hps
      obtain ⟨frame, hframe⟩ := exists_of_forall₂_right hcut ps hps
      exact hframe.complete
  · intro p hp
    obtain ⟨ps, hps, hp⟩ := List.mem_flatten.1 hp
    obtain ⟨frame, hframe⟩ := exists_of_forall₂_right hcut ps hps
    exact hframe.admitted p hp

/-- The packets that a packetizer makes of the frames it is given, if it cuts each of them. -/
theorem forall₂_sent {π φ : Type} (packetize : π → φ → Fallible PacketError (List MediaPacket) × π)
    {P : π → Prop} {Good : φ → Prop} {Q : φ → List MediaPacket → Prop}
    (h : ∀ p f, P p → Good f → (∃ ps, (packetize p f).1 = .ok ps ∧ Q f ps) ∧ P (packetize p f).2)
    {p : π} (hp : P p) {frames : List φ} (hframes : ∀ f ∈ frames, Good f) :
    Transducer.outputs packetize p frames = (sent packetize p frames).map .ok ∧
      List.Forall₂ Q frames (sent packetize p frames) := by
  have hrun := forall₂_outputs
    (Q := fun f (r : Fallible PacketError (List MediaPacket)) => ∃ ps, r = .ok ps ∧ Q f ps)
    h hp hframes
  unfold sent
  generalize Transducer.outputs packetize p frames = rs at hrun
  induction hrun with
  | nil => exact ⟨rfl, .nil⟩
  | cons hr _ ih =>
    obtain ⟨ps, rfl, hQ⟩ := hr
    obtain ⟨ho, hf⟩ := ih fun f hf => hframes f (by simp [hf])
    exact ⟨by rw [List.map_cons, List.map_cons, ← ho]; rfl, .cons hQ hf⟩

end PayloadFormat

end NativeVoice.Video
