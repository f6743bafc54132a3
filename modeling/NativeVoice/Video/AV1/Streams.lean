import NativeVoice.Video.AV1.Elements
import NativeVoice.Video.AV1.Wire
import NativeVoice.Video.Stream

/-!
# AV1 frames over packets

The packets that the packetizer makes of a frame, pushed into a depacketizer one after the other.

* `packetize_eq`: the payloads of a frame are those of a plan that takes all its units off.
* `push_carried`: what a push makes of one of them.
* `outputs_of_carried`, `outputs_uncountable`: what the pushes of a whole frame return.
* `av1_round_trip_iff`: when a frame comes through.
* `av1_resynchronises_iff`: when a frame comes through as it would with a new depacketizer.
-/

namespace NativeVoice.Video

open Lib Lib.Packing Lib.Transducer Lib.Reassembly

/-! ## The packets of a frame -/

namespace AV1Packetizer

variable {τ ρ : Type} (clock : TickClock τ ρ)

theorem packetizePlan_eq (b : Build) (obus : List AV1Obu) {plan : List AV1Packet}
    {payloads : List Bytes} {index : ℕ} (st : PacketizerState ρ)
    (h : writtenFrom b obus index plan = payloads.map .ok) :
    packetizePlan b obus (index + plan.length) st index plan =
      (.ok (st.packetsForPayloads (markLast true payloads)).1,
        (st.packetsForPayloads (markLast true payloads)).2) := by
  induction plan generalizing index payloads st with
  | nil =>
    obtain rfl : payloads = [] := by simpa [writtenFrom] using h.symm
    rfl
  | cons p plan ih =>
    obtain ⟨payload, payloads, rfl⟩ : ∃ payload rest, payloads = payload :: rest := by
      cases payloads with
      | nil => simp [writtenFrom] at h
      | cons payload rest => exact ⟨payload, rest, rfl⟩
    obtain ⟨hp, hplan⟩ := List.cons.inj h
    dsimp only at hp
    rw [packetizePlan, hp]
    dsimp only
    have hrest := ih { st with sequence := st.sequence + 1 } hplan
    rw [Nat.add_assoc, Nat.add_comm 1] at hrest
    rw [List.length_cons]
    simp only [PacketizerState.packetForPayload, PacketizerState.nextSequence, hrest]
    cases payloads with
    | nil =>
      obtain rfl : plan = [] := by simpa [writtenFrom] using hplan
      simp [markLast, PacketizerState.packetsForPayloads, PacketizerState.packetForPayload,
        PacketizerState.nextSequence]
    | cons next payloads =>
      obtain ⟨q, plan, rfl⟩ : ∃ q rest, plan = q :: rest := by
        cases plan with
        | nil => simp at hplan
        | cons q rest => exact ⟨q, rest, rfl⟩
      have hmark : decide (index + 1 = index + ((q :: plan).length + 1)) = false := by simp
      rw [hmark]
      rfl

/-- The packets of a frame, with an MTU that leaves room for a header and three bytes. -/
theorem packetize_eq_of_le (b : Build) {p : AV1Packetizer ρ} (hmtu : 4 ≤ p.mtu) {frame : Bytes}
    {obus : List AV1Obu} (hparse : parseAv1Obus b frame = .ok obus) (hobus : obus ≠ [])
    (frameTimeMs : τ) :
    ∃ plan payloads, packetizeObus b p.mtu obus = .ok plan ∧
      Carried (obus.map AV1Obu.wire) (p.mtu - 1) false (obus.map AV1Obu.wire) plan false [] ∧
      writtenFrom b obus 0 plan = payloads.map .ok ∧
      packetize clock b p frame frameTimeMs =
        (.ok (p.packetsForPayloads (markLast true payloads)).1,
          (p.packetsForPayloads (markLast true payloads)).2.incrementTimestamp clock
            frameTimeMs) := by
  obtain ⟨plan, hplan, hcarried⟩ := packetizeObus_carried b hobus hmtu
  obtain ⟨payloads, -, hwritten, -⟩ := written_of_carried b hcarried 0
  refine ⟨plan, payloads, hplan, hcarried, hwritten, ?_⟩
  have hframe : frame.isEmpty = false := by
    cases frame with
    | nil => simp [parseAv1Obus] at hparse
    | cons _ _ => rfl
  have hwrite := packetizePlan_eq b obus p hwritten
  rw [Nat.zero_add] at hwrite
  rw [packetize, hframe, if_neg (by simp), hparse]
  dsimp only
  rw [if_neg (by simpa using hobus), hplan]
  dsimp only
  rw [hwrite]

/-- **The packets of a frame**: its plan takes all units off and every packet of it is written. -/
theorem packetize_eq (b : Build) {p : AV1Packetizer ρ} (hmtu : p.mtu = DEFAULT_MTU)
    {frame : Bytes} {obus : List AV1Obu} (hparse : parseAv1Obus b frame = .ok obus)
    (hobus : obus ≠ []) (frameTimeMs : τ) :
    ∃ plan payloads, packetizeObus b DEFAULT_MTU obus = .ok plan ∧
      Carried (obus.map AV1Obu.wire) (DEFAULT_MTU - 1) false (obus.map AV1Obu.wire) plan false [] ∧
      writtenFrom b obus 0 plan = payloads.map .ok ∧
      packetize clock b p frame frameTimeMs =
        (.ok (p.packetsForPayloads (markLast true payloads)).1,
          (p.packetsForPayloads (markLast true payloads)).2.incrementTimestamp clock
            frameTimeMs) := by
  have hle : 4 ≤ p.mtu := by rw [hmtu]; decide
  rw [← hmtu]
  exact packetize_eq_of_le clock b hle hparse hobus frameTimeMs

/-- What is known of a plan at its first packet. -/
theorem carried_cons {us : List Bytes} {m : ℕ} {z y : Bool} {vs ws : List Bytes} {p : AV1Packet}
    {plan : List AV1Packet} (h : Carried us m z vs (p :: plan) y ws) :
    ∃ whole last rest vs', Carries us p whole last rest vs' ∧ p.packetSize ≤ m ∧
      z = decide (0 < p.firstObuOffset) ∧ vs = remaining us p.firstObu p.firstObuOffset ∧
      Carried us m (!rest.isEmpty) (leave rest vs') plan y ws := by
  cases h with
  | cons hcarries hsize hplan => exact ⟨_, _, _, _, hcarries, hsize, rfl, rfl, hplan⟩

theorem carried_nil {us : List Bytes} {m : ℕ} {z y : Bool} {vs ws : List Bytes}
    (h : Carried us m z vs [] y ws) : z = y ∧ vs = ws := by
  cases h
  exact ⟨rfl, rfl⟩

end AV1Packetizer

/-! ## The pushes of a frame -/

namespace AV1Depacketizer

open AV1Packetizer

/-- Before the packet `n` of the frame `t`, of which the bytes `frame` are complete and a unit has
begun if `z` is set. -/
structure Expects (d : AV1Depacketizer) (t : UInt32) (n : UInt16) (frame : Bytes) (z : Bool) :
    Prop where
  begins : d.state.beginPacket n t =
    { timestamp := some t, lastSequence := some n, discarding := false, frame }
  unit : d.obu.isEmpty = !z

theorem Expects.new (t : UInt32) (n : UInt16) : Expects new t n [] false := ⟨rfl, rfl⟩

/-- Whether the depacketizer can count the elements of the packets of a plan. -/
def CountablePlan (b : Build) (plan : List AV1Packet) : Prop :=
  ∀ p ∈ plan, Countable b (decide (0 < p.firstObuOffset)) p.numObuElements

section Push

variable {b : Build} {obus : List AV1Obu} {m : ℕ} {p : AV1Packet} {whole : List Bytes}
  {last rest : Bytes} {ws : List Bytes} {os : List AV1Obu} {d : AV1Depacketizer} {t : UInt32}
  {n : UInt16} {frame : Bytes} {first marker : Bool}

theorem length_aggregate_of_carries {us : List Bytes}
    (hcarries : Carries us p whole last rest ws) (z y first : Bool) :
    (aggregate z y first whole last).length = p.packetSize + 1 := by
  rw [aggregate, List.length_cons, ← hcarries.size]

theorem pushPacket_of_expects {z : Bool} (h : d.Expects t n frame z) {payload : Bytes}
    (hpayload : payload ≠ []) : pushPacket b d payload marker n t =
      pushPayload b { state := { timestamp := some t, lastSequence := some n, discarding := false,
                                 frame }
                      obu := d.obu } payload marker := by
  rw [pushPacket, if_neg (by simpa using hpayload)]
  dsimp only
  rw [h.begins, DepacketizerState.isDiscarding, if_neg (by simp)]

variable (marker) in
/-- **A push of a countable packet**: the units that end in it become part of the frame. -/
theorem push_carried (hcarries : Carries (obus.map AV1Obu.wire) p whole last rest ws)
    (hsize : p.packetSize + 1 < 2 ^ 64)
    (hexpects : d.Expects t n frame (decide (0 < p.firstObuOffset)))
    (hunits : glue d.obu (remaining (obus.map AV1Obu.wire) p.firstObu p.firstObuOffset) =
      os.map AV1Obu.wire) (hwf : ∀ o ∈ os, o.WellFormed)
    (hcount : Countable b (decide (0 < p.firstObuOffset)) p.numObuElements)
    (hfirst : first → decide (0 < p.firstObuOffset) = false) (hmarker : marker → rest = []) :
    ∃ (done os' : List AV1Obu) (obu : Bytes), os = done ++ os' ∧
      pushPacket b d (aggregate (decide (0 < p.firstObuOffset)) (!rest.isEmpty) first whole last)
        marker n t =
        finishIf
          { state := { timestamp := some t, lastSequence := some n, discarding := false,
                       frame := frame ++ if marker then AV1Obu.rebuiltFrame done
                         else done.flatMap (AV1Obu.rebuilt · false) }
            obu } marker ∧
      obu.isEmpty = rest.isEmpty ∧
      (leave rest ws ≠ [] → glue obu (leave rest ws) = os'.map AV1Obu.wire) ∧
      (leave rest ws = [] → os' = []) := by
  rw [hcarries.units] at hunits
  obtain ⟨done, os', ⟨state, obu⟩, hos, hpush, hstate, h⟩ := pushPayload_aggregate
    (d := { state := { timestamp := some t, lastSequence := some n, discarding := false, frame }
            obu := d.obu })
    hfirst hcarries.last_ne (by rw [length_aggregate_of_carries hcarries]; exact hsize)
    (by rw [← hcarries.count]; exact hcount) hwf hexpects.unit hmarker hunits
  refine ⟨done, os', obu, hos, ?_, h⟩
  rw [pushPacket_of_expects hexpects (by simp [aggregate]), hpush]
  congr 2

variable (marker) in
/-- A push of a packet that is not countable. -/
theorem push_uncountable (hcarries : Carries (obus.map AV1Obu.wire) p whole last rest ws)
    (hsize : p.packetSize + 1 < 2 ^ 64)
    (hexpects : d.Expects t n frame (decide (0 < p.firstObuOffset)))
    (hunits : glue d.obu (remaining (obus.map AV1Obu.wire) p.firstObu p.firstObuOffset) =
      os.map AV1Obu.wire) (hwf : ∀ o ∈ os, o.WellFormed)
    (hcount : ¬ Countable b (decide (0 < p.firstObuOffset)) p.numObuElements)
    (hfirst : first → decide (0 < p.firstObuOffset) = false) :
    (pushPacket b d (aggregate (decide (0 < p.firstObuOffset)) (!rest.isEmpty) first whole last)
      marker n t).1 = .error .panic ∨
    pushPacket b d (aggregate (decide (0 < p.firstObuOffset)) (!rest.isEmpty) first whole last)
      marker n t = (.ok none, if marker then new
        else { state := { timestamp := some t, lastSequence := some n, discarding := true,
                          frame := [] }
               obu := [] }) := by
  rw [hcarries.units] at hunits
  rw [pushPacket_of_expects hexpects (by simp [aggregate])]
  exact pushPayload_uncountable hfirst
    (by rw [length_aggregate_of_carries hcarries]; exact hsize)
    (by rw [← hcarries.count]; exact hcount) hwf hexpects.unit hunits

end Push

section Run

variable {ρ : Type} {b : Build} {obus : List AV1Obu} {m : ℕ} {plan : List AV1Packet}
  {payloads : List Bytes} {os : List AV1Obu} {frame : Bytes} {z : Bool} {vs : List Bytes}

/-- The results that a frame is due: `Ok(None)` for all packets but the last one. -/
def due (count : ℕ) (frame : Bytes) : List (Fallible PacketError (Option Bytes)) :=
  (answers count (some frame)).map .ok

theorem due_one (frame : Bytes) : due 1 frame = [.ok (some frame)] := rfl

/-- The first packet of a plan and its payload. -/
theorem written_cons {p : AV1Packet} {index : ℕ} {whole : List Bytes} {last rest : Bytes}
    {ws : List Bytes} (hcarries : Carries (obus.map AV1Obu.wire) p whole last rest ws)
    (hwritten : writtenFrom b obus index (p :: plan) = payloads.map .ok) :
    ∃ payloads', payloads = aggregate (decide (0 < p.firstObuOffset)) (!rest.isEmpty)
        (decide (index = 0) && startsSequence obus) whole last :: payloads' ∧
      writtenFrom b obus (index + 1) plan = payloads'.map .ok := by
  cases payloads with
  | nil => simp [writtenFrom] at hwritten
  | cons payload payloads =>
    obtain ⟨hp, hplan⟩ := List.cons.inj hwritten
    dsimp only at hp
    rw [writePacketPayload_of_carries b hcarries] at hp
    obtain rfl := Except.ok.inj hp
    exact ⟨payloads, rfl, hplan⟩

theorem length_of_written {index : ℕ} (h : writtenFrom b obus index plan = payloads.map .ok) :
    payloads.length = plan.length := by
  have := congrArg List.length h
  simpa [writtenFrom] using this.symm

/-- After a packet without the marker, the next one is expected. -/
theorem Expects.of_last (st : PacketizerState ρ) (frame obu : Bytes) {rest : Bytes}
    (hobu : obu.isEmpty = rest.isEmpty) :
    Expects
      { state := { timestamp := some st.timestamp, lastSequence := some st.sequence,
                   discarding := false, frame }
        obu } st.timestamp (st.sequence + 1) frame (!rest.isEmpty) := by
  constructor
  · simp [DepacketizerState.beginPacket]
  · rw [Bool.not_not, hobu]

theorem glue_ne_nil {α : Type*} (e : List α) (us : List (List α)) : glue e us ≠ [] := by
  cases us <;> simp [glue]

/-- **The pushes of a frame** whose elements are counted return it at the last packet, and leave the
depacketizer as new. -/
theorem outputs_of_carried (hm : m + 1 < 2 ^ 64) {index : ℕ} (st : PacketizerState ρ)
    {d : AV1Depacketizer} (hplan : plan ≠ [])
    (hcarried : Carried (obus.map AV1Obu.wire) m z vs plan false [])
    (hwritten : writtenFrom b obus index plan = payloads.map .ok) (hindex : index = 0 → z = false)
    (hcount : CountablePlan b plan)
    (hexpects : d.Expects st.timestamp (st.sequence + 1) frame z)
    (hunits : glue d.obu vs = os.map AV1Obu.wire) (hwf : ∀ o ∈ os, o.WellFormed) :
    outputs (pushMedia (pushPacket b)) d (st.packetsForPayloads (markLast true payloads)).1 =
        due plan.length (frame ++ AV1Obu.rebuiltFrame os) ∧
      final (pushMedia (pushPacket b)) d (st.packetsForPayloads (markLast true payloads)).1 =
        new := by
  induction plan generalizing index payloads st d os frame z vs with
  | nil => exact absurd rfl hplan
  | cons p plan ih =>
    obtain ⟨whole, last, rest, ws, hcarries, hsize, rfl, rfl, hrest⟩ := carried_cons hcarried
    obtain ⟨payloads, rfl, hwritten'⟩ := written_cons hcarries hwritten
    have hfirst : (decide (index = 0) && startsSequence obus) = true →
        decide (0 < p.firstObuOffset) = false := by
      intro h
      rw [Bool.and_eq_true, decide_eq_true_eq] at h
      exact hindex h.1
    cases plan with
    | nil =>
      -- The last packet: nothing is left, so the frame is complete.
      obtain rfl : payloads = [] := List.length_eq_zero_iff.1 (length_of_written hwritten')
      obtain ⟨hcontinued, hleave⟩ := carried_nil hrest
      have hrest : rest = [] := by simpa using hcontinued
      obtain ⟨done, os', obu, rfl, hpush, -, -, hos'⟩ := push_carried _ hcarries
        (by omega) hexpects hunits hwf (hcount p (by simp)) hfirst fun _ => hrest
      obtain rfl := hos' hleave
      have hne : AV1Obu.rebuiltFrame done ≠ [] := by
        refine AV1Obu.rebuiltFrame_ne_nil fun hdone => ?_
        rw [hdone] at hunits
        exact glue_ne_nil _ _ hunits
      rw [markLast, outputs_packetsForPayloads_cons, final_packetsForPayloads_cons, hpush,
        List.append_nil]
      refine ⟨?_, rfl⟩
      simp [finishIf, finishFrame, DepacketizerState.finishFrame, hne, due_one,
        PacketizerState.packetsForPayloads]
    | cons q plan =>
      -- A packet in between.
      obtain ⟨payload, payloads, rfl⟩ : ∃ payload payloads', payloads = payload :: payloads' :=
        List.exists_cons_of_length_eq_add_one (length_of_written hwritten')
      obtain ⟨done, os', obu, rfl, hpush, hobu, hglue, hempty⟩ := push_carried false
        hcarries (by omega) hexpects hunits hwf (hcount p (by simp)) hfirst (by simp)
      have hne : leave rest ws ≠ [] := by
        obtain ⟨whole', last', rest', ws', hcarries', -, -, hvs, -⟩ := carried_cons hrest
        rw [hvs, hcarries'.units]
        simp
      have hexpects' := Expects.of_last { st with sequence := st.sequence + 1 }
        (frame ++ done.flatMap (AV1Obu.rebuilt · false)) obu hobu
      obtain ⟨hout, hfinal⟩ := ih { st with sequence := st.sequence + 1 }
        (List.cons_ne_nil q plan) hrest hwritten' (by simp)
        (fun p hp => hcount p (List.mem_cons_of_mem _ hp)) hexpects' (hglue hne)
        fun o ho => hwf o (List.mem_append_right _ ho)
      have hos' : os' ≠ [] := by
        rintro rfl
        exact glue_ne_nil _ _ (hglue hne)
      rw [markLast, outputs_packetsForPayloads_cons, final_packetsForPayloads_cons, hpush]
      refine ⟨?_, hfinal⟩
      change Except.ok none :: outputs _ _ _ = _
      rw [AV1Obu.rebuiltFrame_append done hos', ← List.append_assoc]
      exact congrArg (Except.ok none :: ·) hout

theorem payload_ne_nil_of_written {index : ℕ}
    (h : writtenFrom b obus index plan = payloads.map .ok) :
    ∀ payload ∈ payloads, payload ≠ [] := by
  intro payload hpayload
  have hmem : Except.ok payload ∈ writtenFrom b obus index plan := by
    rw [h]
    exact List.mem_map_of_mem hpayload
  obtain ⟨⟨p, i⟩, -, hp⟩ := List.mem_map.1 hmem
  dsimp only at hp
  unfold writePacketPayload at hp
  split at hp
  · cases hp
  · obtain ⟨header, -, hp⟩ := bind_eq_ok.1 hp
    obtain ⟨whole, -, hp⟩ := bind_eq_ok.1 hp
    obtain ⟨obu, -, hp⟩ := bind_eq_ok.1 hp
    obtain ⟨fragment, -, hp⟩ := bind_eq_ok.1 hp
    dsimp only at hp
    rintro rfl
    split_ifs at hp <;> cases hp

/-- A frame that was given up on is not returned. -/
theorem outputs_discarding (st : PacketizerState ρ)
    (hpayloads : ∀ payload ∈ payloads, payload ≠ []) :
    outputs (pushMedia (pushPacket b))
      { state := { timestamp := some st.timestamp, lastSequence := some st.sequence,
                   discarding := true, frame := [] }
        obu := [] } (st.packetsForPayloads (markLast true payloads)).1 =
      List.replicate payloads.length (.ok none) := by
  induction payloads generalizing st with
  | nil => rfl
  | cons payload payloads ih =>
    have hpush (marker : Bool) : pushPacket b
        { state := { timestamp := some st.timestamp, lastSequence := some st.sequence,
                     discarding := true, frame := [] }
          obu := [] } payload marker (st.sequence + 1) st.timestamp =
        (.ok none, if marker then new else
          { state := { timestamp := some st.timestamp, lastSequence := some (st.sequence + 1),
                       discarding := true, frame := [] }
            obu := [] }) := by
      have hbegin : DepacketizerState.beginPacket
          { timestamp := some st.timestamp, lastSequence := some st.sequence, discarding := true,
            frame := [] } (st.sequence + 1) st.timestamp =
          { timestamp := some st.timestamp, lastSequence := some (st.sequence + 1),
            discarding := true, frame := [] } := by
        simp [DepacketizerState.beginPacket]
      rw [pushPacket, if_neg (by simpa using hpayloads payload (by simp))]
      dsimp only
      rw [hbegin]
      cases marker <;> rfl
    cases payloads with
    | nil =>
      rw [markLast, outputs_packetsForPayloads_cons, hpush]
      rfl
    | cons next payloads =>
      rw [markLast, outputs_packetsForPayloads_cons, hpush, List.length_cons, List.replicate_succ]
      exact congrArg (Except.ok none :: ·) (ih { st with sequence := st.sequence + 1 }
        fun payload hpayload => hpayloads payload (List.mem_cons_of_mem _ hpayload))

/-- **The pushes of a frame** whose elements are not counted do not return what is due. -/
theorem outputs_uncountable (hm : m + 1 < 2 ^ 64) {index : ℕ} (st : PacketizerState ρ)
    {d : AV1Depacketizer} (hcarried : Carried (obus.map AV1Obu.wire) m z vs plan false [])
    (hwritten : writtenFrom b obus index plan = payloads.map .ok) (hindex : index = 0 → z = false)
    (hcount : ¬ CountablePlan b plan)
    (hexpects : d.Expects st.timestamp (st.sequence + 1) frame z)
    (hunits : glue d.obu vs = os.map AV1Obu.wire) (hwf : ∀ o ∈ os, o.WellFormed) (f : Bytes) :
    outputs (pushMedia (pushPacket b)) d (st.packetsForPayloads (markLast true payloads)).1 ≠
      due plan.length f := by
  induction plan generalizing index payloads st d os frame z vs with
  | nil => exact absurd (by simp [CountablePlan]) hcount
  | cons p plan ih =>
    obtain ⟨whole, last, rest, ws, hcarries, hsize, rfl, rfl, hrest⟩ := carried_cons hcarried
    obtain ⟨payloads, rfl, hwritten'⟩ := written_cons hcarries hwritten
    have hfirst : (decide (index = 0) && startsSequence obus) = true →
        decide (0 < p.firstObuOffset) = false := by
      intro h
      rw [Bool.and_eq_true, decide_eq_true_eq] at h
      exact hindex h.1
    by_cases hp : Countable b (decide (0 < p.firstObuOffset)) p.numObuElements
    · -- A later packet is the one that is not countable.
      have hplan : ¬ CountablePlan b plan := fun h => hcount fun q hq => by
        rcases List.mem_cons.1 hq with rfl | hq
        · exact hp
        · exact h q hq
      cases plan with
      | nil => exact absurd (by simp [CountablePlan]) hplan
      | cons q plan =>
        obtain ⟨payload, payloads, rfl⟩ : ∃ payload payloads', payloads = payload :: payloads' :=
          List.exists_cons_of_length_eq_add_one (length_of_written hwritten')
        obtain ⟨done, os', obu, rfl, hpush, hobu, hglue, hempty⟩ := push_carried false
          hcarries (by omega) hexpects hunits hwf hp hfirst (by simp)
        have hne : leave rest ws ≠ [] := by
          obtain ⟨whole', last', rest', ws', hcarries', -, -, hvs, -⟩ := carried_cons hrest
          rw [hvs, hcarries'.units]
          simp
        have hexpects' := Expects.of_last { st with sequence := st.sequence + 1 }
          (frame ++ done.flatMap (AV1Obu.rebuilt · false)) obu hobu
        have hout := ih { st with sequence := st.sequence + 1 } hrest hwritten'
          (by simp) hplan hexpects' (hglue hne) fun o ho => hwf o (List.mem_append_right _ ho)
        rw [markLast, outputs_packetsForPayloads_cons, hpush]
        exact fun heq => hout (List.cons.inj heq).2
    · have hpush (marker : Bool) := push_uncountable marker hcarries (by omega) hexpects
        hunits hwf hp hfirst
      cases plan with
      | nil =>
        obtain rfl : payloads = [] := List.length_eq_zero_iff.1 (length_of_written hwritten')
        rw [markLast, outputs_packetsForPayloads_cons]
        intro heq
        obtain ⟨heq, -⟩ := List.cons.inj heq
        rcases hpush true with hpanic | hreturned
        · rw [hpanic] at heq
          cases heq
        · rw [hreturned] at heq
          cases heq
      | cons q plan =>
        obtain ⟨payload, payloads, rfl⟩ : ∃ payload payloads', payloads = payload :: payloads' :=
          List.exists_cons_of_length_eq_add_one (length_of_written hwritten')
        have hlen := length_of_written hwritten'
        rw [markLast, outputs_packetsForPayloads_cons]
        intro heq
        obtain ⟨heq, htail⟩ := List.cons.inj heq
        rcases hpush false with hpanic | hreturned
        · rw [hpanic] at heq
          cases heq
        · rw [hreturned] at htail
          have hout := outputs_discarding (b := b) { st with sequence := st.sequence + 1 }
            (payload_ne_nil_of_written hwritten')
          have hmem : Except.ok (some f) ∈ List.replicate (payload :: payloads).length
              (Except.ok none : Fallible PacketError (Option Bytes)) := by
            rw [← hout]
            refine htail ▸ List.mem_map_of_mem ?_
            exact List.mem_append_right _ (List.mem_singleton_self (some f))
          rw [List.mem_replicate] at hmem
          cases hmem.2

/-- The elements of the packets of a plan are counted, as read from the payloads. -/
theorem countablePlan_iff {index : ℕ}
    (hcarried : Carried (obus.map AV1Obu.wire) m z vs plan false [])
    (hwritten : writtenFrom b obus index plan = payloads.map .ok) :
    CountablePlan b plan ↔ ∀ payload ∈ payloads, ∀ a, parseAggregation payload = some a →
      Countable b a.z a.elements.length := by
  induction plan generalizing index payloads z vs with
  | nil =>
    obtain rfl := List.length_eq_zero_iff.1 (length_of_written hwritten)
    simp [CountablePlan]
  | cons p plan ih =>
    obtain ⟨whole, last, rest, ws, hcarries, -, rfl, rfl, hrest⟩ := carried_cons hcarried
    obtain ⟨payloads, rfl, hwritten'⟩ := written_cons hcarries hwritten
    have hp : Countable b (decide (0 < p.firstObuOffset)) p.numObuElements ↔
        ∀ a, parseAggregation (aggregate (decide (0 < p.firstObuOffset)) (!rest.isEmpty)
          (decide (index = 0) && startsSequence obus) whole last) = some a →
          Countable b a.z a.elements.length := by
      rw [parseAggregation_aggregate, hcarries.count]
      simp
    rw [CountablePlan, List.forall_mem_cons, List.forall_mem_cons, hp]
    exact and_congr_right fun _ => ih hrest hwritten'

end Run

/-! ## Round trips -/

/-- The units `obus` of a frame come through: the pushes return a frame at the last packet and
nothing before, and the frame has these units, up to the bit that says whether a size follows. -/
def RoundTrips (b : Build) (obus : List AV1Obu) (packets : List MediaPacket) : Prop :=
  ∃ frame obus', outputs (pushMedia (pushPacket b)) new packets = due packets.length frame ∧
    parseAv1Obus b frame = .ok obus' ∧
    obus'.map (AV1Obu.withSize · true) = obus.map (AV1Obu.withSize · true)

variable {τ ρ : Type} (clock : TickClock τ ρ)

/-- A frame comes through if and only if the elements of its packets are counted. -/
theorem packetize_roundTrips_iff (b : Build) {p : AV1Packetizer ρ} (hmtu : p.mtu = DEFAULT_MTU)
    {frame : Bytes} (hframe : frame.length < 2 ^ 63) {obus : List AV1Obu}
    (hparse : parseAv1Obus b frame = .ok obus) (hobus : obus ≠ []) (frameTimeMs : τ) :
    ∃ plan payloads packets, packetizeObus b DEFAULT_MTU obus = .ok plan ∧
      (packetize clock b p frame frameTimeMs).1 = .ok packets ∧
      packets.map MediaPacket.payload = payloads ∧
      Carried (obus.map AV1Obu.wire) (DEFAULT_MTU - 1) false (obus.map AV1Obu.wire) plan false [] ∧
      writtenFrom b obus 0 plan = payloads.map .ok ∧
      (RoundTrips b obus packets ↔ CountablePlan b plan) := by
  obtain ⟨plan, payloads, hplan, hcarried, hwritten, hpackets⟩ :=
    packetize_eq clock b hmtu hparse hobus frameTimeMs
  obtain ⟨hall, hlen⟩ := parseAv1Obus_spec (by omega) hparse
  have hlen := hlen hobus
  have hglue : glue ([] : Bytes) (obus.map AV1Obu.wire) = obus.map AV1Obu.wire :=
    glue_nil (by simpa using hobus)
  have hexpects := Expects.new p.timestamp (p.sequence + 1)
  have hne : plan ≠ [] := by
    rintro rfl
    obtain ⟨-, hnil⟩ := carried_nil hcarried
    exact hobus (List.map_eq_nil_iff.1 hnil)
  have hcount : (p.packetsForPayloads (markLast true payloads)).1.length = plan.length := by
    rw [PacketizerState.length_packetsForPayloads, length_markLast, length_of_written hwritten]
  refine ⟨plan, payloads, _, hplan, congrArg Prod.fst hpackets, ?_, hcarried, hwritten, ?_, ?_⟩
  · have := congrArg (List.map Prod.fst) (p.map_packetsForPayloads (markLast true payloads))
    rwa [List.map_map, map_fst_markLast] at this
  · rintro ⟨f, obus', hout, -⟩
    by_contra huncountable
    rw [hcount] at hout
    exact outputs_uncountable (by decide) p hcarried hwritten (fun _ => rfl) huncountable hexpects
      hglue (fun o ho => (hall o ho).1) f hout
  · intro hcountable
    obtain ⟨hout, -⟩ := outputs_of_carried (by decide) p hne hcarried hwritten (fun _ => rfl)
      hcountable hexpects hglue fun o ho => (hall o ho).1
    refine ⟨AV1Obu.rebuiltFrame obus, AV1Obu.sizedUnits obus, ?_,
      parseAv1Obus_rebuiltFrame b hobus hall (by omega), AV1Obu.map_withSize_sizedUnits obus⟩
    rw [hout, hcount, List.nil_append]

/-- **The round trip of a frame.** For both builds and every frame that is read as a list of units
that are sent, `packetize` returns packets, and pushing them into a new depacketizer returns at the
last one, and only there, a frame that is read as the same units, if and only if the depacketizer
can count the elements of every packet: at most 255 with overflow checks, and at most 256 without
them in a packet that continues a unit. -/
theorem av1_round_trip_iff (b : Build) (ssrc : UInt32) (payloadType : UInt8) (sequence : UInt16)
    (timestamp : UInt32) {frame : Bytes} (hframe : frame.length < 2 ^ 63) {obus : List AV1Obu}
    (hparse : parseAv1Obus b frame = .ok obus) (hobus : obus ≠ []) (frameTimeMs : τ) :
    let p := AV1Packetizer.new clock ssrc payloadType sequence timestamp
    ∃ packets, (packetize clock b p frame frameTimeMs).1 = .ok packets ∧
      (RoundTrips b obus packets ↔ ∀ q ∈ packets, ∀ a, parseAggregation q.payload = some a →
        Countable b a.z a.elements.length) := by
  intro p
  obtain ⟨plan, payloads, packets, -, hpackets, rfl, hcarried, hwritten, hiff⟩ :=
    packetize_roundTrips_iff clock b (p := p) rfl hframe hparse hobus frameTimeMs
  refine ⟨packets, hpackets, ?_⟩
  rw [hiff, countablePlan_iff hcarried hwritten]
  simp

/-- A frame of two units in one packet. -/
theorem av1_round_trip_iff_two_units :
    ∃ packets, (packetize TickClock.exact .release (AV1Packetizer.new TickClock.exact 1 2 3 4)
      [0x32, 1, 7, 0x30, 9] (some 20)).1 = .ok packets ∧
      RoundTrips .release [⟨0x32, none, [7]⟩, ⟨0x30, none, [9]⟩] packets := by
  obtain ⟨packets, hpackets, hiff⟩ := av1_round_trip_iff TickClock.exact .release 1 2 3 4
    (show ([0x32, 1, 7, 0x30, 9] : Bytes).length < 2 ^ 63 by decide)
    (show parseAv1Obus .release [0x32, 1, 7, 0x30, 9] =
      .ok [⟨0x32, none, [7]⟩, ⟨0x30, none, [9]⟩] by decide +kernel) (by decide)
    (some 20)
  refine ⟨packets, hpackets, hiff.2 ?_⟩
  have hconcrete : (packetize TickClock.exact .release (AV1Packetizer.new TickClock.exact 1 2 3 4)
      [0x32, 1, 7, 0x30, 9] (some 20)).1.map (List.map MediaPacket.payload) =
        .ok [[32, 2, 48, 7, 48, 9]] := by decide +kernel
  rw [hpackets] at hconcrete
  have hpayloads : packets.map MediaPacket.payload = [[32, 2, 48, 7, 48, 9]] :=
    Except.ok.inj hconcrete
  intro q hq a ha
  have hpayload : q.payload = [32, 2, 48, 7, 48, 9] := by
    have := List.mem_map_of_mem (f := MediaPacket.payload) hq
    rw [hpayloads] at this
    simpa using this
  have hread : parseAggregation [32, 2, 48, 7, 48, 9] =
      some ⟨false, false, 2, false, [[48, 7], [48, 9]]⟩ := by decide
  rw [hpayload, hread] at ha
  obtain rfl := Option.some.inj ha
  decide

/-- A unit of 1299 bytes, which takes two packets, and 300 units of one byte. -/
def manyUnits : List AV1Obu :=
  ⟨0x30, none, List.replicate 1298 0⟩ :: List.replicate 300 ⟨0x30, none, []⟩

/-- The 300 units share a packet with the end of the first one, and the frame does not come
through. -/
theorem av1_round_trip_many_units :
    parseAv1Obus .release (AV1Obu.rebuiltFrame manyUnits) = .ok (AV1Obu.sizedUnits manyUnits) ∧
      ∃ packets, (packetize TickClock.exact .release (AV1Packetizer.new TickClock.exact 1 2 3 4)
        (AV1Obu.rebuiltFrame manyUnits) (some 20)).1 = .ok packets ∧
        ¬ RoundTrips .release (AV1Obu.sizedUnits manyUnits) packets := by
  have hlen : (AV1Obu.rebuiltFrame manyUnits).length < 2 ^ 63 := by decide +kernel
  have hunits : ∀ o ∈ manyUnits, o.WellFormed ∧ shouldTransmitObu o.header := by
    intro o ho
    rcases List.mem_cons.1 ho with rfl | ho
    · exact ⟨rfl, rfl⟩
    · obtain rfl := List.eq_of_mem_replicate ho
      exact ⟨rfl, rfl⟩
  have hne : manyUnits ≠ [] := List.cons_ne_nil _ _
  have hparse := parseAv1Obus_rebuiltFrame .release hne hunits (by omega)
  obtain ⟨plan, payloads, packets, hplan, hpackets, -, -, -, hiff⟩ :=
    packetize_roundTrips_iff TickClock.exact .release
      (p := AV1Packetizer.new TickClock.exact 1 2 3 4) rfl hlen hparse (by decide) (some 20)
  refine ⟨hparse, packets, hpackets, fun h => ?_⟩
  have hconcrete : packetizeObus .release DEFAULT_MTU (AV1Obu.sizedUnits manyUnits) =
      .ok [⟨0, 0, 1, 951, 951⟩, ⟨0, 951, 301, 1, 950⟩] := by decide +kernel
  rw [hconcrete] at hplan
  obtain rfl := Except.ok.inj hplan
  exact absurd (hiff.1 h ⟨0, 951, 301, 1, 950⟩ (by simp)) (by decide)

/-! ## Resynchronisation -/

/-- The first packet of a frame with another timestamp, if a unit of an earlier frame has begun. -/
theorem pushPacket_stale (b : Build) {d : AV1Depacketizer} {t : UInt32} (n : UInt16)
    (marker : Bool) (ht : d.state.timestamp ≠ some t) (hobu : d.obu ≠ []) {y first : Bool}
    {whole : List Bytes} {last : Bytes} (hlast : last ≠ [])
    (hlen : (aggregate false y first whole last).length < 2 ^ 64) :
    (pushPacket b d (aggregate false y first whole last) marker n t).1 =
      .error (.err .invalidPayload) := by
  have hbegin : d.state.beginPacket n t =
      { timestamp := some t, lastSequence := some n, discarding := false, frame := [] } := by
    rw [DepacketizerState.beginPacket, if_pos ht]
    rfl
  rw [pushPacket, if_neg (by simp [aggregate])]
  dsimp only
  rw [hbegin, DepacketizerState.isDiscarding, if_neg (by simp),
    pushPayload_misplaced b (d := ⟨⟨some t, some n, false, []⟩, d.obu⟩) hlen hlast hobu]

/-- A packet of a frame that is expected is not rejected. -/
theorem push_ne_err {b : Build} {obus : List AV1Obu} {p : AV1Packet} {whole : List Bytes}
    {last rest : Bytes} {ws : List Bytes} {os : List AV1Obu} {d : AV1Depacketizer} {t : UInt32}
    {n : UInt16} {frame : Bytes} {first marker : Bool} {e : PacketError}
    (hcarries : Carries (obus.map AV1Obu.wire) p whole last rest ws)
    (hsize : p.packetSize + 1 < 2 ^ 64)
    (hexpects : d.Expects t n frame (decide (0 < p.firstObuOffset)))
    (hunits : glue d.obu (remaining (obus.map AV1Obu.wire) p.firstObu p.firstObuOffset) =
      os.map AV1Obu.wire) (hwf : ∀ o ∈ os, o.WellFormed)
    (hfirst : first → decide (0 < p.firstObuOffset) = false) (hmarker : marker → rest = []) :
    (pushPacket b d (aggregate (decide (0 < p.firstObuOffset)) (!rest.isEmpty) first whole last)
      marker n t).1 ≠ .error (.err e) := by
  by_cases hcount : Countable b (decide (0 < p.firstObuOffset)) p.numObuElements
  · obtain ⟨_, _, _, -, hpush, -⟩ :=
      push_carried _ hcarries hsize hexpects hunits hwf hcount hfirst hmarker
    rw [hpush]
    cases marker <;> simp [finishIf]
  · rcases push_uncountable marker hcarries hsize hexpects hunits hwf hcount hfirst with
      hpush | hpush <;> simp [hpush]

/-- With no unit begun, a packet with another timestamp is treated as by a new depacketizer. -/
theorem pushPacket_reset (b : Build) {d : AV1Depacketizer} {t : UInt32}
    (ht : d.state.timestamp ≠ some t) (hobu : d.obu = []) {payload : Bytes}
    (hpayload : payload ≠ [])
    (n : UInt16) :
    pushPacket b d payload marker n t = pushPacket b new payload marker n t := by
  have hbegin : d.state.beginPacket n t = new.state.beginPacket n t := by
    rw [DepacketizerState.beginPacket, if_pos ht]
    rfl
  have hne : ¬ payload.isEmpty = true := by simpa using hpayload
  rw [pushPacket, pushPacket, if_neg hne, if_neg hne]
  dsimp only
  rw [hbegin, hobu]
  rfl

/-- The packets of a frame with another timestamp than the one that `d` holds. -/
theorem outputs_eq_new_iff (b : Build) {p : AV1Packetizer ρ} (hmtu : p.mtu = DEFAULT_MTU)
    {d : AV1Depacketizer} (htimestamp : d.state.timestamp ≠ some p.timestamp) {frame : Bytes}
    (hframe : frame.length < 2 ^ 63) {obus : List AV1Obu}
    (hparse : parseAv1Obus b frame = .ok obus) (hobus : obus ≠ []) (frameTimeMs : τ) :
    ∃ packets, (packetize clock b p frame frameTimeMs).1 = .ok packets ∧
      (outputs (pushMedia (pushPacket b)) d packets =
        outputs (pushMedia (pushPacket b)) new packets ↔ d.obu = []) := by
  obtain ⟨plan, payloads, -, hcarried, hwritten, hpackets⟩ :=
    packetize_eq clock b hmtu hparse hobus frameTimeMs
  refine ⟨_, congrArg Prod.fst hpackets, ?_⟩
  obtain ⟨hall, -⟩ := parseAv1Obus_spec (by omega) hparse
  cases plan with
  | nil =>
    obtain ⟨-, hnil⟩ := carried_nil hcarried
    exact absurd (List.map_eq_nil_iff.1 hnil) hobus
  | cons q plan =>
    obtain ⟨whole, last, rest, ws, hcarries, hsize, hz, hvs, hrest⟩ := carried_cons hcarried
    obtain ⟨payloads, rfl, hwritten'⟩ := written_cons hcarries hwritten
    obtain ⟨payload, hpayload⟩ : ∃ payload, aggregate (decide (0 < q.firstObuOffset))
      (!rest.isEmpty) (decide (0 = 0) && startsSequence obus) whole last = payload := ⟨_, rfl⟩
    have hmark : markLast true (payload :: payloads) =
        (payload, payloads.isEmpty) :: markLast true payloads := by
      cases payloads <;> rfl
    have hlen : payload.length = q.packetSize + 1 := by
      rw [← hpayload, length_aggregate_of_carries hcarries]
    have hmtu : DEFAULT_MTU - 1 + 1 < 2 ^ 64 := by decide
    rw [hpayload, hmark, outputs_packetsForPayloads_cons, outputs_packetsForPayloads_cons]
    constructor
    · intro heq
      by_contra hobu
      -- The first packet is rejected, which a new depacketizer does not do.
      have hmarker : payloads.isEmpty → rest = [] := by
        intro hlast
        obtain rfl := List.isEmpty_iff.1 hlast
        obtain rfl := List.length_eq_zero_iff.1 (length_of_written hwritten').symm
        simpa using (carried_nil hrest).1
      have hfresh := push_ne_err (b := b) (d := new) (e := .invalidPayload) hcarries (by omega)
        (by rw [← hz]; exact Expects.new p.timestamp (p.sequence + 1))
        (by rw [← hvs]; exact glue_nil (by simpa using hobus)) (fun o ho => (hall o ho).1)
        (show (decide (0 = 0) && startsSequence obus) = true → _ from fun _ => hz.symm) hmarker
      have hstale := pushPacket_stale b (p.sequence + 1) payloads.isEmpty htimestamp hobu
        (y := !rest.isEmpty) hcarries.last_ne (by rw [hz, hpayload]; omega)
      rw [hz, hpayload] at hstale
      rw [hpayload, ← (List.cons.inj heq).1, hstale] at hfresh
      exact hfresh rfl
    · intro hobu
      rw [pushPacket_reset b htimestamp hobu (by rw [← List.length_pos_iff]; omega)]

/-- **Resynchronisation.** After any history of pushes, also of rejected and of lossy ones, the
packets of a frame with another timestamp than the one the depacketizer holds give the results that
they give with a new depacketizer if and only if no unit of an earlier frame has begun. -/
theorem av1_resynchronises_iff (b : Build) (history : List MediaPacket) (ssrc : UInt32)
    (payloadType : UInt8) (sequence : UInt16) (timestamp : UInt32) {frame : Bytes}
    (hframe : frame.length < 2 ^ 63) {obus : List AV1Obu}
    (hparse : parseAv1Obus b frame = .ok obus) (hobus : obus ≠ []) (frameTimeMs : τ)
    (htimestamp : (final (pushMedia (pushPacket b)) new history).state.timestamp ≠
      some timestamp) :
    let p := AV1Packetizer.new clock ssrc payloadType sequence timestamp
    let d := final (pushMedia (pushPacket b)) new history
    ∃ packets, (packetize clock b p frame frameTimeMs).1 = .ok packets ∧
      (outputs (pushMedia (pushPacket b)) d packets =
        outputs (pushMedia (pushPacket b)) new packets ↔ d.obu = []) :=
  outputs_eq_new_iff clock b rfl htimestamp hframe hparse hobus frameTimeMs

/-- After a packet that ends with a whole unit, the next frame comes through. -/
theorem av1_resynchronises_iff_whole :
    ∃ packets, (packetize TickClock.exact .release (AV1Packetizer.new TickClock.exact 1 2 3 4)
      [0x30, 9] (some 20)).1 = .ok packets ∧
      outputs (pushMedia (pushPacket .release))
        (final (pushMedia (pushPacket .release)) new [unmarked [0x10, 0x30, 1]]) packets =
      outputs (pushMedia (pushPacket .release)) new packets := by
  obtain ⟨packets, hpackets, hiff⟩ := av1_resynchronises_iff TickClock.exact .release
    [unmarked [0x10, 0x30, 1]] 1 2 3 4 (show ([0x30, 9] : Bytes).length < 2 ^ 63 by decide)
    (show parseAv1Obus .release [0x30, 9] = .ok [⟨0x30, none, [9]⟩] by decide +kernel) (by decide)
    (some 20) (by decide +kernel)
  exact ⟨packets, hpackets, hiff.2 (by decide +kernel)⟩

/-- After a packet that ends with a unit that is continued, and the loss of the rest of its frame,
the only packet of the next frame is rejected. -/
theorem av1_resynchronises_continued :
    let packets := (packetize TickClock.exact .release (AV1Packetizer.new TickClock.exact 1 2 3 4)
      [0x30, 9] (some 20)).1.toOption.getD []
    let d := final (pushMedia (pushPacket .release)) new [unmarked [0x50, 0x30, 1]]
    d.state.timestamp ≠ some 4 ∧
      outputs (pushMedia (pushPacket .release)) new packets = [.ok (some [0x30, 9])] ∧
      outputs (pushMedia (pushPacket .release)) d packets = [.error (.err .invalidPayload)] := by
  decide +kernel

end AV1Depacketizer

end NativeVoice.Video
