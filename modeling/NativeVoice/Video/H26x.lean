import NativeVoice.Video.AnnexB
import NativeVoice.Video.Stream

/-!
# What H.264 and H.265 share

Both codecs send the NAL units of an Annex B frame, large ones in fragments, and their
depacketizers put start codes in front of them again.

* A `PayloadReader` says what a depacketizer does with a payload: the bytes that it appends to the
  frame and the error that it rejects the packet with, which may come after bytes were appended.
  `PayloadReader.push` is `push_packet` in these terms.
* `packetizeNalus` is the loop of both packetizers over the NAL units of a frame.
-/

namespace NativeVoice.Video

open Lib Lib.StartCode Lib.Transducer Lib.Reassembly

/-! ## Depacketizers -/

namespace DepacketizerState

def pushNalu (d : DepacketizerState) (nalu : Bytes) : DepacketizerState :=
  { d with frame := d.frame ++ ANNEX_B_START_CODE ++ nalu }

/-- The loop over the NAL units of an aggregation packet, each behind its length. -/
def pushUnits (d : DepacketizerState) (payload : Bytes) (offset : ℕ) :
    Fallible PacketError Unit × DepacketizerState :=
  if h : offset + 2 ≤ payload.length then
    let naluLen := (u16FromBe payload[offset] payload[offset + 1]).toNat
    if naluLen = 0 ∨ offset + 2 + naluLen > payload.length then (.error (.err .invalidPayload), d)
    else
      let nalu := (payload.drop (offset + 2)).take naluLen
      pushUnits (d.pushNalu nalu) payload (offset + 2 + naluLen)
  else if offset ≠ payload.length then (.error (.err .invalidPayload), d)
  else (.ok (), d)
termination_by payload.length - offset

end DepacketizerState

/-- The NAL units that such a loop finds before it ends, and whether it ends without an error. -/
def readUnits : Bytes → List Bytes × Bool
  | hi :: lo :: rest =>
    let naluLen := (u16FromBe hi lo).toNat
    if naluLen = 0 ∨ naluLen > rest.length then ([], false)
    else
      let r := readUnits (rest.drop naluLen)
      (rest.take naluLen :: r.1, r.2)
  | rest => ([], rest.isEmpty)
termination_by l => l.length
decreasing_by
  simp only [List.length_drop, List.length_cons]
  omega

theorem DepacketizerState.pushUnits_eq (d : DepacketizerState) (payload : Bytes) (offset : ℕ)
    (h : offset ≤ payload.length) : d.pushUnits payload offset =
      (if (readUnits (payload.drop offset)).2 then .ok () else .error (.err .invalidPayload),
        { d with frame := d.frame ++ annexB (readUnits (payload.drop offset)).1 }) := by
  induction hn : payload.length - offset using Nat.strongRecOn generalizing d offset with
  | ind n ih =>
    rw [pushUnits]
    by_cases hlen : offset + 2 ≤ payload.length
    · have hdrop : payload.drop offset =
          payload[offset] :: payload[offset + 1] :: payload.drop (offset + 2) := by
        rw [List.drop_eq_getElem_cons (by omega), List.drop_eq_getElem_cons (by omega)]
      rw [dif_pos hlen, hdrop, readUnits]
      dsimp only
      by_cases hbad : (u16FromBe payload[offset] payload[offset + 1]).toNat = 0 ∨
          offset + 2 + (u16FromBe payload[offset] payload[offset + 1]).toNat > payload.length
      · have : (u16FromBe payload[offset] payload[offset + 1]).toNat = 0 ∨
            (u16FromBe payload[offset] payload[offset + 1]).toNat >
              (payload.drop (offset + 2)).length := by
          rw [List.length_drop]
          omega
        rw [if_pos hbad, if_pos this]
        simp
      · have : ¬ ((u16FromBe payload[offset] payload[offset + 1]).toNat = 0 ∨
            (u16FromBe payload[offset] payload[offset + 1]).toNat >
              (payload.drop (offset + 2)).length) := by
          rw [List.length_drop]
          omega
        rw [if_neg hbad, if_neg this, ih _ (by omega) _ _ (by omega) rfl, List.drop_drop]
        simp [pushNalu, List.append_assoc]
    · rw [dif_neg hlen]
      have hshort : (payload.drop offset).length = payload.length - offset := List.length_drop
      match hd : payload.drop offset, hshort with
      | [], hshort =>
        have : offset = payload.length := by simp at hshort; omega
        rw [readUnits]
        · simp [this]
        · simp
      | [b], hshort =>
        have : offset ≠ payload.length := by simp at hshort; omega
        rw [readUnits]
        · simp [this]
        · simp
      | _ :: _ :: _, hshort => simp at hshort; omega

theorem length_readUnits (l : Bytes) : (readUnits l).1.flatten.length ≤ l.length := by
  induction l using readUnits.induct with
  | case1 hi lo rest naluLen hbad =>
    rw [readUnits, if_pos hbad]
    simp
  | case2 hi lo rest naluLen hgood ih =>
    have hrest : (readUnits (rest.drop (u16FromBe hi lo).toNat)).1.flatten.length ≤
        (rest.drop (u16FromBe hi lo).toNat).length := ih
    rw [readUnits, if_neg hgood]
    simp only [List.flatten_cons, List.length_append, List.length_take, List.length_cons,
      List.length_drop] at hrest ⊢
    omega
  | case3 rest hrest => rw [readUnits] <;> simp_all

/-- The units of an aggregation packet have start codes for all their bytes but those of their
lengths, so that they are too few to be the packet itself. -/
theorem length_annexB_readUnits (l : Bytes) : (annexB (readUnits l).1).length ≤
    4 * codes (annexB (readUnits l).1) + l.length := by
  have hlen := length_readUnits l
  have hcodes := codes_annexB_append (readUnits l).1 []
  rw [List.append_nil] at hcodes
  rw [length_annexB]
  omega

/-- What a payload does to the frame that is put together. A payload that does not open a frame
makes the depacketizer give up on one that is still empty. -/
structure Reading where
  opens : Bool
  body : Bytes
  rejected : Option PacketError

/-- `push_packet` behind `begin_packet`. -/
def DepacketizerState.absorb (d : DepacketizerState) (r : Reading) (marker : Bool) :
    Fallible PacketError (Option Bytes) × DepacketizerState :=
  if d.isDiscarding then d.finishIf marker
  else if !r.opens && d.frame.isEmpty then d.discardFrame.finishIf marker
  else
    let d := { d with frame := d.frame ++ r.body }
    match r.rejected with
    | some e => (.error (.err e), d)
    | none => d.finishIf marker

namespace DepacketizerState

theorem absorb_of_discarding {d : DepacketizerState} (h : d.discarding = true) (r : Reading)
    (marker : Bool) : d.absorb r marker = d.finishIf marker := if_pos h

theorem absorb_of_headless {d : DepacketizerState} {r : Reading} (hd : d.discarding = false)
    (hr : r.opens = false) (hf : d.frame = []) (marker : Bool) :
    d.absorb r marker = d.discardFrame.finishIf marker := by
  simp [absorb, isDiscarding, hd, hr, hf]

theorem absorb_of_append {d : DepacketizerState} {r : Reading} (hd : d.discarding = false)
    (h : d.frame ≠ [] ∨ r.opens) (marker : Bool) : d.absorb r marker = match r.rejected with
      | some e => (.error (.err e), { d with frame := d.frame ++ r.body })
      | none => { d with frame := d.frame ++ r.body }.finishIf marker := by
  have : ¬ (!r.opens && d.frame.isEmpty) = true := by
    simp only [Bool.and_eq_true, Bool.not_eq_true', List.isEmpty_iff, not_and]
    intro hr
    simpa [hr] using h
  rw [absorb, if_neg (by simp [isDiscarding, hd]), if_neg this]

end DepacketizerState

/-- How a depacketizer reads payloads; shorter ones than `minLength` are rejected unread. -/
structure PayloadReader where
  minLength : ℕ
  read : Bytes → Reading

namespace PayloadReader

variable (R : PayloadReader)

def push (d : DepacketizerState) (payload : Bytes) (marker : Bool) (sequence : UInt16)
    (timestamp : UInt32) : Fallible PacketError (Option Bytes) × DepacketizerState :=
  if payload.length < R.minLength then (.error (.err .invalidPayload), d)
  else (d.beginPacket sequence timestamp).absorb (R.read payload) marker

variable {R} in
theorem push_short {d : DepacketizerState} {payload : Bytes} {marker : Bool} {sequence : UInt16}
    {timestamp : UInt32} (h : payload.length < R.minLength) :
    R.push d payload marker sequence timestamp = (.error (.err .invalidPayload), d) := if_pos h

variable {R} in
theorem push_admitted {d : DepacketizerState} {payload : Bytes} {marker : Bool} {sequence : UInt16}
    {timestamp : UInt32} (h : ¬ payload.length < R.minLength) :
    R.push d payload marker sequence timestamp =
      (d.beginPacket sequence timestamp).absorb (R.read payload) marker := if_neg h

def format : PayloadFormat where
  opens payload := (R.read payload).opens
  body payload := (R.read payload).body
  ends _ := false

/-- The payloads that are not rejected. -/
def Accepted (payload : Bytes) : Prop :=
  R.minLength ≤ payload.length ∧ (R.read payload).rejected = none

/-- What the payloads of a NAL unit append to the frame if all of them arrive. -/
def contribution (payloads : List Bytes) : Bytes :=
  (payloads.filter fun x => decide (R.minLength ≤ x.length)).flatMap fun x => (R.read x).body

theorem receives : R.format.Receives R.push R.Accepted := by
  refine PayloadFormat.receives_of_accept fun d payload marker sequence timestamp hp => ?_
  obtain ⟨hlen, hrej⟩ := hp
  simp [push, DepacketizerState.absorb, DepacketizerState.accept, format, hlen.not_gt, hrej]

end PayloadReader

/-- The payloads that a NAL unit is sent in make the depacketizer restore it. -/
structure Restores (R : PayloadReader) (payloads : List Bytes) (nalu : Bytes) : Prop where
  accepted : ∀ x ∈ payloads, R.Accepted x
  body : ∀ x ∈ payloads, (R.read x).opens → (R.read x).body ≠ []
  opens : ∃ x ∈ payloads.head?, (R.read x).opens
  bodies : payloads.flatMap (fun x => (R.read x).body) = ANNEX_B_START_CODE ++ nalu

theorem Restores.contribution {R : PayloadReader} {payloads : List Bytes} {nalu : Bytes}
    (h : Restores R payloads nalu) : R.contribution payloads = ANNEX_B_START_CODE ++ nalu := by
  rw [PayloadReader.contribution, List.filter_eq_self.2 fun x hx => by
    simpa using (h.accepted x hx).1]
  exact h.bodies

/-- A codec as its depacketizer's reader and the payloads that its packetizer sends NAL units in.
The `Intact` units are restored, all others show in the frame that is put together. -/
structure NalCodec where
  reader : PayloadReader
  payloads : Bytes → List Bytes
  Intact : Bytes → Prop
  restores : ∀ n, Intact n → Restores reader (payloads n) n
  spoils : ∀ n, n ≠ [] → ¬ Intact n → Spoiled n (reader.contribution (payloads n))
  payloads_ne_nil : ∀ n, n ≠ [] → payloads n ≠ []

/-! ## Packetizers -/

theorem Restores.cuts {R : PayloadReader} {payloads : Bytes → List Bytes} {nalus : List Bytes}
    (hne : nalus ≠ []) (h : ∀ n ∈ nalus, Restores R (payloads n) n) :
    R.format.Cuts R.Accepted (annexB nalus) (markLast true (nalus.flatMap payloads)) := by
  have hmem : ∀ x ∈ markLast true (nalus.flatMap payloads), ∃ n ∈ nalus, x.1 ∈ payloads n := by
    intro x hx
    have := List.mem_map_of_mem (f := Prod.fst) hx
    rw [map_fst_markLast] at this
    exact List.mem_flatMap.1 this
  obtain ⟨nalu, nalus, rfl⟩ := List.exists_cons_of_ne_nil hne
  obtain ⟨first, hfirst, hopens⟩ := (h nalu (by simp)).opens
  obtain ⟨rest, hrest⟩ : ∃ rest, (nalu :: nalus).flatMap payloads = first :: rest := by
    obtain ⟨rest, hrest⟩ := List.head?_eq_some_iff.1 hfirst
    exact ⟨rest ++ nalus.flatMap payloads, by simp [hrest]⟩
  obtain ⟨init, last, hlast⟩ : ∃ init last, (nalu :: nalus).flatMap payloads = init ++ [last] :=
    ⟨_, _, (List.dropLast_append_getLast (by simp [hrest])).symm⟩
  refine ⟨?_, ?_, ?_, ?_, ?_, ?_⟩
  · intro x hx
    obtain ⟨n, hn, hx⟩ := hmem x hx
    exact (h n hn).accepted _ hx
  · intro x hx
    obtain ⟨n, hn, hx⟩ := hmem x hx
    exact (h n hn).body _ hx
  · obtain ⟨x, l, hx, rfl⟩ : ∃ x l, markLast true ((nalu :: nalus).flatMap payloads) = x :: l ∧
        x.1 = first := by
      rw [hrest]
      cases rest <;> exact ⟨_, _, rfl, rfl⟩
    exact ⟨x, by rw [hx]; rfl, hopens⟩
  · rw [hlast, markLast_concat, List.dropLast_concat]
    intro x hx
    simpa [PayloadReader.format] using snd_markLast_false x hx
  · rw [hlast, markLast_concat]
    exact ⟨(last, true), by simp, by simp⟩
  · have hbodies : ∀ ns : List Bytes, (∀ n ∈ ns, Restores R (payloads n) n) →
        (ns.flatMap payloads).flatMap (fun x => (R.read x).body) = annexB ns := by
      intro ns hns
      induction ns with
      | nil => rfl
      | cons n ns ih =>
        rw [List.flatMap_cons, List.flatMap_append, (hns n (by simp)).bodies,
          ih fun m hm => hns m (by simp [hm]), annexB_cons]
    rw [← hbodies _ h, ← map_fst_markLast true ((nalu :: nalus).flatMap payloads), List.flatMap_map]
    simp [PayloadReader.format]

/-- The bytes that fragments of a NAL unit append, the first of them behind a header. -/
theorem flatMap_fragments {cs : List Bytes} (hcs : cs ≠ []) {mk : ℕ → Bytes → Bytes}
    {body : Bytes → Bytes} (header : Bytes)
    (h : ∀ i c, body (mk i c) = if i = 0 then header ++ c else c) :
    (cs.mapIdx mk).flatMap body = header ++ cs.flatten := by
  obtain ⟨c, cs, rfl⟩ := List.exists_cons_of_ne_nil hcs
  have htail : ∀ (l : List Bytes) (k : ℕ), (l.mapIdx fun i => mk (i + k + 1)).flatMap body =
      l.flatten := by
    intro l
    induction l with
    | nil => simp
    | cons d l ih =>
      intro k
      have := ih (k + 1)
      simp only [List.mapIdx_cons, List.flatMap_cons, List.flatten_cons, h]
      rw [← this]
      simp [Nat.add_assoc, Nat.add_comm 1]
  have hrest := htail cs 0
  simp only [Nat.add_zero] at hrest
  rw [List.mapIdx_cons, List.flatMap_cons, h, if_pos rfl, hrest, List.flatten_cons,
    List.append_assoc]

section Packetize

variable {τ ρ : Type}

/-- The loop over the NAL units of a frame, given what is done with one of them, which may be the
last one. -/
def packetizeNalus (packetizeNalu : PacketizerState ρ → Bytes → Bool →
      Fallible PacketError (List MediaPacket) × PacketizerState ρ) (st : PacketizerState ρ) :
    List Bytes → Fallible PacketError (List MediaPacket) × PacketizerState ρ
  | [] => (.ok [], st)
  | nalu :: nalus =>
    match packetizeNalu st nalu nalus.isEmpty with
    | (.error e, st) => (.error e, st)
    | (.ok packets, st) => match packetizeNalus packetizeNalu st nalus with
      | (.error e, st) => (.error e, st)
      | (.ok more, st) => (.ok (packets ++ more), st)

/-- `packetize` of both codecs, which split a frame into NAL units and advance the timestamp. -/
def packetizeFrame (clock : TickClock τ ρ) (packetizeNalu : PacketizerState ρ → Bytes → Bool →
      Fallible PacketError (List MediaPacket) × PacketizerState ρ) (st : PacketizerState ρ)
    (frame : Bytes) (frameTimeMs : τ) :
    Fallible PacketError (List MediaPacket) × PacketizerState ρ :=
  match splitAnnexB frame with
  | .error e => (.error e, st)
  | .ok nalus => match packetizeNalus packetizeNalu st nalus with
    | (.error e, st) => (.error e, st)
    | (.ok packets, st) => (.ok packets, st.incrementTimestamp clock frameTimeMs)

variable {packetizeNalu : PacketizerState ρ → Bytes → Bool →
    Fallible PacketError (List MediaPacket) × PacketizerState ρ} {payloads : Bytes → List Bytes}

/-- If every NAL unit is sent in the payloads that `payloads` gives for it, a frame is sent in the
payloads of its NAL units. -/
theorem packetizeNalus_eq
    (h : ∀ (st : PacketizerState ρ) nalu last, st.mtu = DEFAULT_MTU → nalu ≠ [] →
      payloads nalu ≠ [] ∧ packetizeNalu st nalu last =
        (.ok (st.packetsForPayloads (markLast last (payloads nalu))).1,
          (st.packetsForPayloads (markLast last (payloads nalu))).2))
    {st : PacketizerState ρ} (hmtu : st.mtu = DEFAULT_MTU) {nalus : List Bytes}
    (hne : ∀ n ∈ nalus, n ≠ []) : packetizeNalus packetizeNalu st nalus =
      (.ok (st.packetsForPayloads (markLast true (nalus.flatMap payloads))).1,
        (st.packetsForPayloads (markLast true (nalus.flatMap payloads))).2) := by
  induction nalus generalizing st with
  | nil => rfl
  | cons nalu nalus ih =>
    obtain ⟨_, hnalu⟩ := h st nalu nalus.isEmpty hmtu (hne nalu (by simp))
    rw [packetizeNalus, hnalu]
    dsimp only
    rw [ih (by simpa using hmtu) fun n hn => hne n (by simp [hn])]
    cases nalus with
    | nil => simp [PacketizerState.packetsForPayloads, markLast]
    | cons next nalus =>
      have hnext : (next :: nalus).flatMap payloads ≠ [] := by
        have := (h st next true hmtu (hne next (by simp))).1
        simp [this]
      have hsplit : (nalu :: next :: nalus).flatMap payloads =
          payloads nalu ++ (next :: nalus).flatMap payloads := List.flatMap_cons
      rw [hsplit, markLast_append true _ hnext, PacketizerState.packetsForPayloads_append]
      rfl

end Packetize

end NativeVoice.Video
