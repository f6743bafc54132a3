import NativeVoice.Lib.Transducer
import NativeVoice.Video.AV1.Elements
import NativeVoice.Video.Stream

/-!
# AV1 parsing of untrusted bytes

When `parse_av1_obus` and `push_packet` do not panic in a build with overflow checks, that is, when
no addition wraps, the element counter does not overflow and every slice is in range.

* `SizeFits data offset`: a size that is read at `offset` can be added to the offset behind it.
* `FrameFits`, `StepFits`: this holds where the parser of a frame and where a push get to, and the
  elements can be counted.
* `av1_parsing_safe_iff`: these are exactly the conditions; under them a build without overflow
  checks computes the same.
-/

namespace NativeVoice

/-! ## The two builds -/

section Agrees

variable {ε α β : Type}

/-- Unless `x` panics, `y` is the same. -/
def Agrees (x y : Fallible ε α) : Prop := x ≠ .error .panic → y = x

theorem Agrees.refl (x : Fallible ε α) : Agrees x x := fun _ => rfl

theorem Agrees.bind {x y : Fallible ε α} {f g : α → Fallible ε β} (h : Agrees x y)
    (hf : ∀ a, x = .ok a → Agrees (f a) (g a)) : Agrees (x >>= f) (y >>= g) := by
  intro hne
  cases x with
  | error e =>
    rw [h fun he => hne (by rw [Except.error.inj he]; rfl)]
    rfl
  | ok a =>
    rw [h (by simp)]
    exact hf a rfl hne

theorem agrees_addUsize (x y : ℕ) :
    Agrees (Build.addUsize .debug x y : Fallible ε ℕ) (Build.addUsize .release x y) := by
  by_cases h : x + y < 2 ^ 64
  · rw [Build.addUsize_of_lt _ h, Build.addUsize_of_lt _ h]
    exact .refl _
  · intro hne
    exact absurd (by rw [Build.addUsize, Build.wrap, if_neg h]) hne

theorem agrees_incrU8 (x : UInt8) :
    Agrees (Build.incrU8 .debug x : Fallible ε UInt8) (Build.incrU8 .release x) := by
  by_cases h : x = 255
  · intro hne
    exact absurd (by rw [Build.incrU8, if_pos h]) hne
  · rw [Build.incrU8_of_ne _ h, Build.incrU8_of_ne _ h]
    exact .refl _

end Agrees

theorem addUsize_debug_of_le {ε : Type} {x y : ℕ} (h : 2 ^ 64 ≤ x + y) :
    Build.addUsize .debug x y = (.error .panic : Fallible ε ℕ) := by
  rw [Build.addUsize, Build.wrap, if_neg (by omega)]

namespace Video

open Lib.Transducer

/-! ## Sizes -/

/-- The size that is read at `offset`, if there is one, can be added to the offset behind it. -/
def SizeFits (data : Bytes) (offset : ℕ) : Prop :=
  ∀ n len, readLeb128 (data.drop offset) = .ok (n, len) → offset + len + n < 2 ^ 64

/-- What `readSize` does, in exact arithmetic. -/
theorem readSize_debug {data : Bytes} {offset : ℕ} (h : offset ≤ data.length) :
    readSize .debug data offset =
      match readLeb128 (data.drop offset) with
      | .error e => .error e
      | .ok (n, len) =>
        if 2 ^ 64 ≤ offset + len + n then .error .panic
        else if data.length < offset + len + n then .error (.err .invalidPayload)
        else .ok (n, offset + len) := by
  rw [readSize, sliceFrom_of_le h, ok_bind]
  cases readLeb128 (data.drop offset) with
  | error e => rfl
  | ok r =>
    obtain ⟨n, len⟩ := r
    rw [ok_bind]
    dsimp only
    by_cases hfits : 2 ^ 64 ≤ offset + len + n
    · rw [addUsize_debug_of_le hfits, if_pos hfits, error_bind]
    · rw [Build.addUsize_of_lt _ (by omega), if_neg hfits, ok_bind]
      rfl

theorem readSize_debug_panic_iff {data : Bytes} {offset : ℕ} (h : offset ≤ data.length) :
    readSize .debug data offset = .error .panic ↔ ¬ SizeFits data offset := by
  rw [readSize_debug h, SizeFits]
  have hne := readLeb128_ne_panic (data.drop offset)
  cases hread : readLeb128 (data.drop offset) with
  | error e =>
    rw [hread] at hne
    simpa using hne
  | ok r =>
    obtain ⟨n, len⟩ := r
    simp only [Except.ok.injEq, Prod.mk.injEq, and_imp]
    constructor
    · intro hpanic hall
      rw [if_neg (by have := hall n len rfl rfl; omega)] at hpanic
      split at hpanic <;> cases hpanic
    · intro hnot
      rw [if_pos]
      by_contra hlt
      exact hnot fun n' len' hn hlen => by subst hn hlen; omega

theorem readSize_debug_eq_ok {data : Bytes} (hdata : data.length < 2 ^ 64) {offset n offset' : ℕ}
    (h : offset ≤ data.length) :
    readSize .debug data offset = .ok (n, offset') ↔
      ∃ len, readLeb128 (data.drop offset) = .ok (n, len) ∧ offset' = offset + len ∧
        offset + len + n ≤ data.length := by
  rw [readSize_debug h]
  cases readLeb128 (data.drop offset) with
  | error e => simp
  | ok r =>
    obtain ⟨m, len⟩ := r
    dsimp only
    constructor
    · intro hread
      split_ifs at hread with hwrap hend
      obtain ⟨rfl, rfl⟩ := Prod.mk.inj (Except.ok.inj hread)
      exact ⟨len, rfl, rfl, by omega⟩
    · rintro ⟨len', hread, rfl, hend⟩
      obtain ⟨rfl, rfl⟩ := Prod.mk.inj (Except.ok.inj hread)
      rw [if_neg (by omega), if_neg (by omega)]

theorem agrees_readSize (data : Bytes) (offset : ℕ) :
    Agrees (readSize .debug data offset) (readSize .release data offset) :=
  Agrees.bind (.refl _) fun _ _ => Agrees.bind (.refl _) fun _ _ =>
    Agrees.bind (agrees_addUsize _ _) fun _ _ => .refl _

theorem readExtension_ne_panic (frame : Bytes) (header : UInt8) (offset : ℕ) :
    readExtension frame header offset ≠ .error .panic := by
  unfold readExtension
  split
  · split
    · simp
    · rename_i h
      rw [index_of_lt (not_le.1 h), ok_bind]
      simp
  · simp

/-! ## Frames -/

/-- The size of the payload of the unit at `offset`, if it has one, fits. -/
def UnitFits (frame : Bytes) (offset : ℕ) : Prop :=
  ∀ header e offset', frame[offset]? = some header →
    readExtension frame header (offset + 1) = .ok (e, offset') → obuHasSize header →
    SizeFits frame offset'

/-- `Units frame offset target`: reading units from `offset` on, the parser gets to the one at
`target`. A unit without a size is the last one. -/
inductive Units (frame : Bytes) : ℕ → ℕ → Prop
  | here (offset : ℕ) : Units frame offset offset
  | next {offset offset' target n len : ℕ} {header : UInt8} {e : Option UInt8}
    (hheader : frame[offset]? = some header)
    (hext : readExtension frame header (offset + 1) = .ok (e, offset'))
    (hsize : obuHasSize header) (hread : readLeb128 (frame.drop offset') = .ok (n, len))
    (hle : offset' + len + n ≤ frame.length) (h : Units frame (offset' + len + n) target) :
    Units frame offset target

/-- All sizes that the parser of a frame gets to fit. -/
def FrameFits (frame : Bytes) : Prop := ∀ offset, Units frame 0 offset → UnitFits frame offset

theorem payloadExtent_debug_end {frame : Bytes} (hframe : frame.length < 2 ^ 64) {header : UInt8}
    {offset n offset' : ℕ} (h : offset ≤ frame.length)
    (hextent : payloadExtent .debug frame header offset = .ok (n, offset')) :
    offset' + n ≤ frame.length := by
  unfold payloadExtent at hextent
  split at hextent
  · obtain ⟨len, -, rfl, hend⟩ := (readSize_debug_eq_ok hframe h).1 hextent
    exact hend
  · obtain ⟨rfl, rfl⟩ := Prod.mk.inj (Except.ok.inj hextent)
    omega

theorem payloadExtent_debug_panic_iff {frame : Bytes} {header : UInt8} {offset : ℕ}
    (h : offset ≤ frame.length) : payloadExtent .debug frame header offset = .error .panic ↔
      obuHasSize header ∧ ¬ SizeFits frame offset := by
  unfold payloadExtent
  split
  · rename_i hs
    rw [readSize_debug_panic_iff h]
    simp [hs]
  · rename_i hs
    simp [hs]

/-- **One round of the parser** panics if and only if the size of its unit does not fit. -/
theorem parseObu_debug_panic_iff {frame : Bytes} (hframe : frame.length < 2 ^ 64) {offset : ℕ}
    (hlt : offset < frame.length) :
    parseObu .debug frame offset = .error .panic ↔ ¬ UnitFits frame offset := by
  constructor
  · intro hpanic hfits
    rcases bind_eq_error.1 hpanic with h | ⟨header, hheader, h⟩
    · rw [index_of_lt hlt] at h
      cases h
    · have hheader := index_eq_ok.1 hheader
      rcases bind_eq_error.1 h with h | ⟨⟨e, offset₁⟩, hext, h⟩
      · exact readExtension_ne_panic _ _ _ h
      · have hle := (readExtension_bounds hext).2.2 hlt
        rcases bind_eq_error.1 h with h | ⟨⟨n, offset₂⟩, hextent, h⟩
        · obtain ⟨hs, hsize⟩ := (payloadExtent_debug_panic_iff hle).1 h
          exact hsize (hfits header e offset₁ hheader hext hs)
        · have hend := payloadExtent_debug_end hframe hle hextent
          dsimp only at h
          rw [Build.addUsize_of_lt _ (by omega), ok_bind, slice_of_le (by omega) hend] at h
          cases h
  · intro hnot
    rw [UnitFits] at hnot
    push Not at hnot
    obtain ⟨header, e, offset₁, hheader, hext, hs, hsize⟩ := hnot
    have hle := (readExtension_bounds hext).2.2 hlt
    rw [parseObu, index_eq_ok.2 hheader, ok_bind, hext, ok_bind]
    dsimp only
    rw [(payloadExtent_debug_panic_iff hle).2 ⟨hs, hsize⟩, error_bind]

/-- The units that the parser gets to behind one that is read. -/
theorem units_iff {frame : Bytes} (hframe : frame.length < 2 ^ 64) {offset offset' : ℕ}
    {obu : AV1Obu} (hlt : offset < frame.length)
    (hparse : parseObu .debug frame offset = .ok (obu, offset')) {target : ℕ}
    (htarget : target < frame.length) :
    Units frame offset target ↔ target = offset ∨ Units frame offset' target := by
  obtain ⟨header, hheader, h⟩ := bind_eq_ok.1 hparse
  obtain ⟨⟨e, offset₁⟩, hext, h⟩ := bind_eq_ok.1 h
  obtain ⟨⟨n, offset₂⟩, hextent, h⟩ := bind_eq_ok.1 h
  obtain ⟨sum, -, h⟩ := bind_eq_ok.1 h
  obtain ⟨payload, -, h⟩ := bind_eq_ok.1 h
  obtain ⟨-, rfl⟩ := Prod.mk.inj (Except.ok.inj h)
  have hheader := index_eq_ok.1 hheader
  have hle := (readExtension_bounds hext).2.2 hlt
  unfold payloadExtent at hextent
  constructor
  · intro hunits
    cases hunits with
    | here => exact .inl rfl
    | next hheader' hext' hs hread hend hrest =>
      obtain rfl := Option.some.inj (hheader.symm.trans hheader')
      obtain ⟨-, rfl⟩ := Prod.mk.inj (Except.ok.inj (hext.symm.trans hext'))
      rw [if_pos hs] at hextent
      obtain ⟨len, hread', rfl, -⟩ := (readSize_debug_eq_ok hframe hle).1 hextent
      obtain ⟨rfl, rfl⟩ := Prod.mk.inj (Except.ok.inj (hread.symm.trans hread'))
      exact .inr hrest
  · rintro (rfl | hunits)
    · exact .here target
    · split at hextent
      · rename_i hs
        obtain ⟨len, hread, rfl, hend⟩ := (readSize_debug_eq_ok hframe hle).1 hextent
        exact .next hheader hext hs hread hend hunits
      · obtain ⟨rfl, rfl⟩ := Prod.mk.inj (Except.ok.inj hextent)
        rw [show offset₁ + (frame.length - offset₁) = frame.length by omega] at hunits
        -- The unit reaches to the end of the frame, and none begins there.
        cases hunits with
        | here => omega
        | next hheader' =>
          rw [List.getElem?_eq_none le_rfl] at hheader'
          cases hheader'

/-- If the parser stops at a unit, it gets to no other one. -/
theorem units_of_error {frame : Bytes} (hframe : frame.length < 2 ^ 64) {offset target : ℕ}
    (hlt : offset < frame.length) {e : Stop PacketError}
    (hparse : parseObu .debug frame offset = .error e) (h : Units frame offset target) :
    target = offset := by
  cases h with
  | here => rfl
  | next hheader hext hs hread hend hrest =>
    have hle := (readExtension_bounds hext).2.2 hlt
    have hextent := (readSize_debug_eq_ok hframe hle).2 ⟨_, hread, rfl, hend⟩
    rw [parseObu, index_eq_ok.2 hheader, ok_bind, hext, ok_bind] at hparse
    dsimp only at hparse
    rw [payloadExtent, if_pos hs, hextent, ok_bind] at hparse
    dsimp only at hparse
    rw [Build.addUsize_of_lt _ (by omega), ok_bind, slice_of_le (by omega) hend] at hparse
    cases hparse

/-- **The parser** panics if and only if it gets to a unit whose size does not fit. -/
theorem parseObus_debug_panic_iff {frame : Bytes} (hframe : frame.length < 2 ^ 64) (offset : ℕ) :
    parseObus .debug frame offset = .error .panic ↔
      ∃ target, Units frame offset target ∧ target < frame.length ∧ ¬ UnitFits frame target := by
  induction hn : frame.length - offset using Nat.strongRecOn generalizing offset with
  | ind n ih =>
    by_cases hlt : offset < frame.length
    · have hround := parseObu_debug_panic_iff hframe hlt
      cases hparse : parseObu .debug frame offset with
      | error e =>
        have hrun : parseObus .debug frame offset = .error e := by
          rw [parseObus, if_pos hlt]
          split <;> simp_all
        rw [hrun]
        constructor
        · intro he
          obtain rfl := Except.error.inj he
          exact ⟨offset, .here offset, hlt, hround.1 hparse⟩
        · rintro ⟨target, hunits, -, hnot⟩
          obtain rfl := units_of_error hframe hlt hparse hunits
          rw [Except.error.inj (hparse.symm.trans (hround.2 hnot))]
      | ok r =>
        obtain ⟨obu, offset'⟩ := r
        have hgt := parseObu_lt hparse
        have hfits : UnitFits frame offset := by
          by_contra hnot
          rw [hround.2 hnot] at hparse
          cases hparse
        have hrest : parseObus .debug frame offset = .error .panic ↔
            parseObus .debug frame offset' = .error .panic := by
          rw [parseObus_of_ok hlt hparse, bind_eq_error]
          simp
        rw [hrest, ih (frame.length - offset') (by omega) offset' rfl]
        refine exists_congr fun target => ?_
        constructor
        · rintro ⟨hunits, htarget, hnot⟩
          exact ⟨(units_iff hframe hlt hparse htarget).2 (.inr hunits), htarget, hnot⟩
        · rintro ⟨hunits, htarget, hnot⟩
          rcases (units_iff hframe hlt hparse htarget).1 hunits with rfl | hunits
          · exact absurd hfits hnot
          · exact ⟨hunits, htarget, hnot⟩
    · rw [parseObus_of_end (by omega)]
      constructor
      · intro h
        cases h
      · rintro ⟨target, hunits, htarget, -⟩
        cases hunits with
        | here => omega
        | next hheader =>
          rw [List.getElem?_eq_none (by omega)] at hheader
          cases hheader

theorem parseAv1Obus_debug_panic_iff {frame : Bytes} (hframe : frame.length < 2 ^ 64) :
    parseAv1Obus .debug frame = .error .panic ↔ ¬ FrameFits frame := by
  have hfits : FrameFits frame ↔
      ¬ ∃ target, Units frame 0 target ∧ target < frame.length ∧ ¬ UnitFits frame target := by
    constructor
    · rintro h ⟨target, hunits, -, hnot⟩
      exact hnot (h target hunits)
    · intro h target hunits header e offset' hheader
      obtain ⟨hlt, -⟩ := List.getElem?_eq_some_iff.1 hheader
      by_contra hnot
      refine h ⟨target, hunits, hlt, fun hunit => hnot ?_⟩
      exact hunit header e offset' hheader
  rw [hfits, not_not, ← parseObus_debug_panic_iff hframe, parseAv1Obus]
  split
  · rename_i hempty
    have hend : parseObus .debug frame 0 = .ok [] := by
      rw [List.isEmpty_iff.1 hempty]
      exact parseObus_of_end (by simp)
    simp [hend]
  · rfl

/-! ## Packets -/

/-- The size within a unit that has come whole, if it has one, fits. -/
def RebuildFits (obu : Bytes) : Prop :=
  ∀ header rest e offset, obu = header :: rest → readExtension rest header 0 = .ok (e, offset) →
    obuHasSize header → SizeFits rest offset

theorem rebuiltPayload_debug_panic_iff {rest : Bytes} {header : UInt8} {offset : ℕ}
    (h : offset ≤ rest.length) : rebuiltPayload .debug rest header offset = .error .panic ↔
      obuHasSize header ∧ ¬ SizeFits rest offset := by
  unfold rebuiltPayload
  split
  · rename_i hs
    rw [sliceFrom_of_le h, ok_bind, SizeFits]
    have hne := readLeb128_ne_panic (rest.drop offset)
    cases hread : readLeb128 (rest.drop offset) with
    | error e =>
      rw [hread] at hne
      simpa using hne
    | ok r =>
      obtain ⟨n, len⟩ := r
      rw [ok_bind]
      dsimp only
      by_cases hfits : offset + len + n < 2 ^ 64
      · have hpayload : (Build.addUsize .debug (offset + len) n >>= fun end_ =>
            if end_ ≠ rest.length then .error (.err .invalidPayload)
            else sliceFrom rest (offset + len) : Fallible PacketError Bytes) ≠ .error .panic := by
          rw [Build.addUsize_of_lt _ hfits, ok_bind]
          split
          · simp
          · rw [sliceFrom_of_le (by omega)]
            simp
        refine iff_of_false hpayload fun h => h.2 fun n' len' heq => ?_
        obtain ⟨rfl, rfl⟩ := Prod.mk.inj (Except.ok.inj heq)
        exact hfits
      · rw [addUsize_debug_of_le (by omega), error_bind]
        exact iff_of_true rfl ⟨hs, fun h => hfits (h n len rfl)⟩
  · rename_i hs
    rw [sliceFrom_of_le h]
    simp [hs]

theorem rebuildObu_debug_panic_iff (obu : Bytes) (omitSize : Bool) :
    rebuildObu .debug obu omitSize = .error .panic ↔ ¬ RebuildFits obu := by
  cases obu with
  | nil => simp [rebuildObu, RebuildFits]
  | cons header rest =>
    rw [rebuildObu]
    constructor
    · intro hpanic hfits
      rcases bind_eq_error.1 hpanic with h | ⟨⟨e, offset⟩, hext, h⟩
      · exact readExtension_ne_panic _ _ _ h
      · have hle := (readExtension_bounds hext).2.2 (Nat.zero_le _)
        rcases bind_eq_error.1 h with h | ⟨payload, -, h⟩
        · obtain ⟨hs, hsize⟩ := (rebuiltPayload_debug_panic_iff hle).1 h
          exact hsize (hfits header rest e offset rfl hext hs)
        · cases h
    · intro hnot
      rw [RebuildFits] at hnot
      push Not at hnot
      obtain ⟨header', rest', e, offset, heq, hext, hs, hsize⟩ := hnot
      obtain ⟨rfl, rfl⟩ := List.cons.inj heq
      have hle := (readExtension_bounds hext).2.2 (Nat.zero_le _)
      rw [hext, ok_bind]
      dsimp only
      rw [(rebuiltPayload_debug_panic_iff hle).2 ⟨hs, hsize⟩, error_bind]

namespace AV1Depacketizer

section Rounds

variable {payload : Bytes} {marker z y : Bool} {w : UInt8}

theorem elementExtent_debug_end (hpayload : payload.length < 2 ^ 64) {elementIndex : UInt8}
    {offset n offset' : ℕ} (h : offset ≤ payload.length)
    (hextent : elementExtent .debug payload w elementIndex offset = .ok (n, offset')) :
    offset' + n ≤ payload.length := by
  unfold elementExtent at hextent
  split at hextent
  · obtain ⟨len, -, rfl, hend⟩ := (readSize_debug_eq_ok hpayload h).1 hextent
    exact hend
  · obtain ⟨rfl, rfl⟩ := Prod.mk.inj (Except.ok.inj hextent)
    omega

theorem readElement_debug_panic_iff (hpayload : payload.length < 2 ^ 64) (elementIndex : UInt8)
    {offset : ℕ} (h : offset ≤ payload.length) :
    readElement .debug payload w elementIndex offset = .error .panic ↔
      (w = 0 ∨ elementIndex ≠ w) ∧ ¬ SizeFits payload offset := by
  rw [readElement]
  constructor
  · intro hpanic
    rcases bind_eq_error.1 hpanic with h' | ⟨⟨n, offset₁⟩, hextent, h'⟩
    · unfold elementExtent at h'
      split at h'
      · rename_i hsized
        exact ⟨hsized, (readSize_debug_panic_iff h).1 h'⟩
      · cases h'
    · have hend := elementExtent_debug_end hpayload h hextent
      dsimp only at h'
      rw [Build.addUsize_of_lt _ (by omega), ok_bind, slice_of_le (by omega) hend, ok_bind] at h'
      cases h'
  · rintro ⟨hsized, hsize⟩
    rw [elementExtent, if_pos hsized, (readSize_debug_panic_iff h).2 hsize, error_bind]

theorem finishObu_debug_panic_iff (d : AV1Depacketizer) (omitSize : Bool) :
    (finishObu .debug d omitSize).1 = .error .panic ↔ ¬ RebuildFits d.obu := by
  rw [finishObu]
  split
  · rename_i hempty
    rw [List.isEmpty_iff.1 hempty]
    simp [RebuildFits]
  · have hrebuild := rebuildObu_debug_panic_iff d.obu omitSize
    cases h : rebuildObu .debug d.obu omitSize with
    | error e =>
      rw [← hrebuild, h]
      simp
    | ok rebuilt =>
      rw [← hrebuild, h]
      simp

/-- The element ends a unit: it takes its place and is not continued. -/
def Completes (d : AV1Depacketizer) (continuesPrevious continuesNext : Bool) : Prop :=
  continuesPrevious = !d.obu.isEmpty ∧ continuesNext = false

theorem takeElement_debug_panic_iff (d : AV1Depacketizer) (element : Bytes)
    (continuesPrevious continuesNext omitSize marker : Bool) :
    (takeElement .debug d element continuesPrevious continuesNext omitSize marker).1 =
        .error .panic ↔
      Completes d continuesPrevious continuesNext ∧ ¬ RebuildFits (d.obu ++ element) := by
  by_cases hprev : continuesPrevious = !d.obu.isEmpty
  · -- The element takes its place.
    rw [takeElement, if_neg (by simp [hprev]), if_neg (by simp [hprev]), Completes]
    dsimp only
    cases continuesNext with
    | true => simp
    | false =>
      rw [if_neg (by simp), ← finishObu_debug_panic_iff { d with obu := d.obu ++ element } omitSize]
      simp only [hprev, true_and]
      split <;> simp_all
  · have hne : (takeElement .debug d element continuesPrevious continuesNext omitSize marker).1 ≠
        .error .panic := by
      cases hc : continuesPrevious with
      | true =>
        have hobu : d.obu = [] := by simpa [hc] using hprev
        rw [takeElement_headless continuesNext hobu]
        simp
      | false =>
        have hobu : d.obu ≠ [] := by simpa [hc] using hprev
        rw [takeElement_misplaced continuesNext hobu]
        simp
    exact iff_of_false hne fun h => hprev h.1.1

/-- What a round needs: the element is counted, its size fits, and so does the size within the unit
that it ends. -/
structure RoundFits (payload : Bytes) (z y : Bool) (w : UInt8) (d : AV1Depacketizer)
    (elementIndex : UInt8) (offset : ℕ) : Prop where
  counter : elementIndex ≠ 255
  size : w = 0 ∨ elementIndex + 1 ≠ w → SizeFits payload offset
  unit : ∀ element offset', readElement .debug payload w (elementIndex + 1) offset =
      .ok (element, offset') →
    Completes d (decide (elementIndex + 1 = 1) && z) (decide (offset' = payload.length) && y) →
    RebuildFits (d.obu ++ element)

variable (marker) in
/-- **One round** panics if and only if something in it does not fit. -/
theorem pushElement_debug_panic_iff (hpayload : payload.length < 2 ^ 64) (d : AV1Depacketizer)
    (elementIndex : UInt8) {offset : ℕ} (h : offset ≤ payload.length) :
    (pushElement .debug payload marker z y w d elementIndex offset).1 = .error .panic ↔
      ¬ RoundFits payload z y w d elementIndex offset := by
  by_cases hcounter : elementIndex = 255
  · refine iff_of_true ?_ fun hfits => hfits.counter hcounter
    subst hcounter
    rfl
  · have hincr : (Build.incrU8 .debug elementIndex : Fallible PacketError UInt8) =
        .ok (elementIndex + 1) := Build.incrU8_of_ne _ hcounter
    have hread := readElement_debug_panic_iff (w := w) hpayload (elementIndex + 1) h
    cases helement : readElement .debug payload w (elementIndex + 1) offset with
    | error e =>
      have hround : (pushElement .debug payload marker z y w d elementIndex offset).1 =
          .error e := by
        rw [pushElement, hincr]
        dsimp only
        rw [helement]
      rw [hround]
      constructor
      · rintro he hfits
        rw [Except.error.inj he] at helement
        obtain ⟨hsized, hsize⟩ := hread.1 helement
        exact hsize (hfits.size hsized)
      · intro hnot
        by_contra hne
        refine hnot ⟨hcounter, fun hsized => ?_, fun element offset' hok => ?_⟩
        · by_contra hsize
          rw [hread.2 ⟨hsized, hsize⟩] at helement
          exact hne (by rw [Except.error.inj helement])
        · rw [helement] at hok
          cases hok
    | ok r =>
      obtain ⟨element, offset'⟩ := r
      have htake := takeElement_debug_panic_iff d element (decide (elementIndex + 1 = 1) && z)
        (decide (offset' = payload.length) && y)
        (marker && decide (offset' = payload.length)) marker
      have hround : (pushElement .debug payload marker z y w d elementIndex offset).1 =
          .error .panic ↔ (takeElement .debug d element (decide (elementIndex + 1 = 1) && z)
            (decide (offset' = payload.length) && y)
            (marker && decide (offset' = payload.length)) marker).1 = .error .panic := by
        rw [pushElement_of_read _ hincr helement]
        split <;> simp_all
      rw [hround, htake]
      constructor
      · rintro ⟨hcompletes, hrebuild⟩ hfits
        exact hrebuild (hfits.unit element offset' helement hcompletes)
      · intro hnot
        by_contra hgood
        refine hnot ⟨hcounter, fun hsized => ?_, fun element' offset'' hok hcompletes => ?_⟩
        · by_contra hsize
          rw [hread.2 ⟨hsized, hsize⟩] at helement
          cases helement
        · rw [helement] at hok
          obtain ⟨rfl, rfl⟩ := Prod.mk.inj (Except.ok.inj hok)
          by_contra hrebuild
          exact hgood ⟨hcompletes, hrebuild⟩

/-- The rounds that the loop gets to: `Reaches … d i offset d' i' offset'` if it gets from the round
that begins with `d`, `i` and `offset` to the one that begins with `d'`, `i'` and `offset'`. -/
inductive Reaches (payload : Bytes) (marker z y : Bool) (w : UInt8) :
    AV1Depacketizer → UInt8 → ℕ → AV1Depacketizer → UInt8 → ℕ → Prop
  | here (d : AV1Depacketizer) (i : UInt8) (offset : ℕ) :
    Reaches payload marker z y w d i offset d i offset
  | next {d d₁ d' : AV1Depacketizer} {i i₁ i' : UInt8} {offset offset₁ offset' : ℕ}
    (hlt : offset < payload.length)
    (hround : pushElement .debug payload marker z y w d i offset = (.ok (.next i₁ offset₁), d₁))
    (h : Reaches payload marker z y w d₁ i₁ offset₁ d' i' offset') :
    Reaches payload marker z y w d i offset d' i' offset'

/-- **The loop** panics if and only if it gets to a round in which something does not fit. -/
theorem pushElements_debug_panic_iff (hpayload : payload.length < 2 ^ 64) (d : AV1Depacketizer)
    (i : UInt8) (offset : ℕ) :
    (pushElements .debug payload marker z y w d i offset).1 = .error .panic ↔
      ∃ d' i' offset', Reaches payload marker z y w d i offset d' i' offset' ∧
        offset' < payload.length ∧ ¬ RoundFits payload z y w d' i' offset' := by
  induction hn : payload.length - offset using Nat.strongRecOn generalizing d i offset with
  | ind n ih =>
    by_cases hlt : offset < payload.length
    · have hround := pushElement_debug_panic_iff marker (z := z) (y := y) (w := w)
        hpayload d i hlt.le
      cases hpush : pushElement .debug payload marker z y w d i offset with
      | mk r d₁ =>
      rw [hpush] at hround
      -- A round that is not the last one is followed by the rounds behind it.
      by_cases hnext : ∃ i₁ offset₁, r = .ok (.next i₁ offset₁)
      · obtain ⟨i₁, offset₁, rfl⟩ := hnext
        have hgt := lt_of_pushElement hlt hpush
        have hfits : RoundFits payload z y w d i offset := by
          by_contra hnot
          cases hround.2 hnot
        rw [pushElements_of_next hlt hpush, ih _ (by omega) d₁ i₁ offset₁ rfl]
        constructor
        · rintro ⟨d', i', offset', hreach, hlt', hnot⟩
          exact ⟨d', i', offset', .next hlt hpush hreach, hlt', hnot⟩
        · rintro ⟨d', i', offset', hreach, hlt', hnot⟩
          cases hreach with
          | here => exact absurd hfits hnot
          | next _ hpush' hreach =>
            rw [hpush] at hpush'
            obtain ⟨hr, rfl⟩ := Prod.mk.inj hpush'
            obtain ⟨rfl, rfl⟩ := Round.next.inj (Except.ok.inj hr)
            exact ⟨d', i', offset', hreach, hlt', hnot⟩
      · have hrun : (pushElements .debug payload marker z y w d i offset).1 = .error .panic ↔
            r = .error .panic := by
          cases r with
          | error e =>
            rw [pushElements_of_error hlt hpush]
            simp
          | ok round =>
            cases round with
            | returned frame =>
              rw [pushElements_of_returned hlt hpush]
              simp
            | next i₁ offset₁ => exact absurd ⟨i₁, offset₁, rfl⟩ hnext
        rw [hrun, hround]
        constructor
        · exact fun hnot => ⟨d, i, offset, .here d i offset, hlt, hnot⟩
        · rintro ⟨d', i', offset', hreach, -, hnot⟩
          cases hreach with
          | here => exact hnot
          | next _ hpush' _ =>
            rw [hpush] at hpush'
            exact absurd ⟨_, _, (Prod.mk.inj hpush').1⟩ hnext
    · rw [pushElements_of_end (by omega)]
      constructor
      · intro h
        cases h
      · rintro ⟨d', i', offset', hreach, hlt', -⟩
        cases hreach with
        | here => exact absurd hlt' hlt
        | next hlt'' => exact absurd hlt'' hlt

end Rounds

/-- What a push needs: wherever its loop gets to, nothing overflows. -/
def StepFits (d : AV1Depacketizer) (p : MediaPacket) : Prop :=
  let d := { d with state := d.state.beginPacket p.sequence p.timestamp }
  ∀ header rest, p.payload = header :: rest → d.state.isDiscarding = false →
    (header &&& 0x08 != 0 && header &&& 0x80 != 0) = false →
    ∀ d' i' offset',
      Reaches p.payload p.marker (header &&& 0x80 != 0) (header &&& 0x40 != 0)
        (header >>> 4 &&& 0x03) d 0 1 d' i' offset' → offset' < p.payload.length →
      RoundFits p.payload (header &&& 0x80 != 0) (header &&& 0x40 != 0) (header >>> 4 &&& 0x03) d'
        i' offset'

theorem finishIf_ne_error (d : AV1Depacketizer) (marker : Bool) (e : Stop PacketError) :
    (d.finishIf marker).1 ≠ .error e := by
  unfold finishIf
  split <;> simp

theorem pushPayload_debug_panic_iff {header : UInt8} {rest : Bytes} (d : AV1Depacketizer)
    (marker : Bool) :
    (pushPayload .debug d (header :: rest) marker).1 = .error .panic ↔
      (header &&& 0x08 != 0 && header &&& 0x80 != 0) = false ∧
        (pushElements .debug (header :: rest) marker (header &&& 0x80 != 0) (header &&& 0x40 != 0)
          (header >>> 4 &&& 0x03) d 0 1).1 = .error .panic := by
  rw [pushPayload]
  split
  · rename_i hflags
    simp [hflags]
  · rename_i hflags
    rw [Bool.not_eq_true] at hflags
    rw [hflags]
    simp only [true_and]
    split
    · rename_i h
      rw [h]
      simp
    · rename_i h
      rw [h]
      simp
    · rename_i d' h
      rw [h]
      refine iff_of_false ?_ (by simp)
      split
      · simp
      · split
        · simp
        · exact finishIf_ne_error _ _ _

/-- **A push** panics if and only if something overflows where its loop gets to. -/
theorem pushPacket_debug_panic_iff (d : AV1Depacketizer) {p : MediaPacket}
    (hpayload : p.payload.length < 2 ^ 64) :
    (pushMedia (pushPacket .debug) d p).1 = .error .panic ↔ ¬ StepFits d p := by
  rw [pushMedia, pushPacket, StepFits]
  cases hbytes : p.payload with
  | nil => simp
  | cons header rest =>
    rw [hbytes] at hpayload
    rw [if_neg (by simp)]
    dsimp only
    by_cases hdiscarding : (d.state.beginPacket p.sequence p.timestamp).isDiscarding
    · rw [if_pos hdiscarding]
      refine iff_of_false (finishIf_ne_error _ _ _) fun hnot => hnot ?_
      intro header' rest' _ hd
      rw [hdiscarding] at hd
      cases hd
    · rw [if_neg hdiscarding, pushPayload_debug_panic_iff,
        pushElements_debug_panic_iff hpayload]
      constructor
      · rintro ⟨hflags, d', i', offset', hreach, hlt, hnot⟩ hfits
        exact hnot (hfits header rest rfl (by simpa using hdiscarding) hflags d' i' offset' hreach
          hlt)
      · intro hnot
        push Not at hnot
        obtain ⟨header', rest', heq, -, hflags, d', i', offset', hreach, hlt, hfits⟩ := hnot
        obtain ⟨rfl, rfl⟩ := List.cons.inj heq
        exact ⟨hflags, d', i', offset', hreach, hlt, hfits⟩

/-! ## A build without overflow checks -/

theorem agrees_rebuildObu (obu : Bytes) (omitSize : Bool) :
    Agrees (rebuildObu .debug obu omitSize) (rebuildObu .release obu omitSize) := by
  cases obu with
  | nil => exact .refl _
  | cons header rest =>
    refine Agrees.bind (.refl _) fun a _ => Agrees.bind ?_ fun _ _ => .refl _
    unfold rebuiltPayload
    split
    · exact Agrees.bind (.refl _) fun _ _ => Agrees.bind (.refl _) fun _ _ =>
        Agrees.bind (agrees_addUsize _ _) fun _ _ => .refl _
    · exact .refl _

theorem agrees_readElement (payload : Bytes) (w elementIndex : UInt8) (offset : ℕ) :
    Agrees (readElement .debug payload w elementIndex offset)
      (readElement .release payload w elementIndex offset) := by
  refine Agrees.bind ?_ fun _ _ => Agrees.bind (agrees_addUsize _ _) fun _ _ => .refl _
  unfold elementExtent
  split
  · exact agrees_readSize payload offset
  · exact .refl _

theorem finishObu_release {d : AV1Depacketizer} {omitSize : Bool}
    (h : (finishObu .debug d omitSize).1 ≠ .error .panic) :
    finishObu .release d omitSize = finishObu .debug d omitSize := by
  rw [ne_eq, finishObu_debug_panic_iff, ← rebuildObu_debug_panic_iff d.obu omitSize] at h
  rw [finishObu, finishObu, agrees_rebuildObu d.obu omitSize h]

theorem takeElement_release {d : AV1Depacketizer} {element : Bytes}
    {continuesPrevious continuesNext omitSize marker : Bool}
    (h : (takeElement .debug d element continuesPrevious continuesNext omitSize marker).1 ≠
      .error .panic) :
    takeElement .release d element continuesPrevious continuesNext omitSize marker =
      takeElement .debug d element continuesPrevious continuesNext omitSize marker := by
  rw [ne_eq, takeElement_debug_panic_iff, not_and, not_not] at h
  rw [takeElement, takeElement]
  split
  · rfl
  · split
    · rfl
    · rename_i hlost hmisplaced
      dsimp only
      split
      · rfl
      · rename_i hnext
        rw [finishObu_release]
        rw [ne_eq, finishObu_debug_panic_iff, not_not]
        refine h ⟨?_, by simpa using hnext⟩
        cases continuesPrevious <;> simp_all

theorem pushElement_release {payload : Bytes} {marker z y : Bool} {w : UInt8}
    {d : AV1Depacketizer} {i : UInt8} {offset : ℕ}
    (h : (pushElement .debug payload marker z y w d i offset).1 ≠ .error .panic) :
    pushElement .release payload marker z y w d i offset =
      pushElement .debug payload marker z y w d i offset := by
  have hincr := agrees_incrU8 (ε := PacketError) i
  cases hi : (Build.incrU8 .debug i : Fallible PacketError UInt8) with
  | error e =>
    have hdebug : pushElement .debug payload marker z y w d i offset = (.error e, d) := by
      rw [pushElement, hi]
    rw [hdebug] at h ⊢
    rw [pushElement, hincr (by rw [hi]; exact fun he => h (by rw [Except.error.inj he])), hi]
  | ok i' =>
    have hi' : (Build.incrU8 .release i : Fallible PacketError UInt8) = .ok i' := by
      rw [hincr (by simp [hi]), hi]
    have hread := agrees_readElement payload w i' offset
    cases helement : readElement .debug payload w i' offset with
    | error e =>
      have hdebug : pushElement .debug payload marker z y w d i offset = (.error e, d) := by
        rw [pushElement, hi]
        dsimp only
        rw [helement]
      rw [hdebug] at h ⊢
      rw [pushElement, hi']
      dsimp only
      rw [hread (by rw [helement]; exact fun he => h (by rw [Except.error.inj he])), helement]
    | ok r =>
      obtain ⟨element, offset'⟩ := r
      rw [pushElement_of_read _ hi helement] at h ⊢
      rw [pushElement_of_read _ hi' ((hread (by simp [helement])).trans helement),
        takeElement_release]
      intro hpanic
      apply h
      split <;> simp_all

theorem pushElements_release {payload : Bytes} {marker z y : Bool} {w : UInt8}
    (d : AV1Depacketizer) (i : UInt8) (offset : ℕ)
    (h : (pushElements .debug payload marker z y w d i offset).1 ≠ .error .panic) :
    pushElements .release payload marker z y w d i offset =
      pushElements .debug payload marker z y w d i offset := by
  induction hn : payload.length - offset using Nat.strongRecOn generalizing d i offset with
  | ind n ih =>
    by_cases hlt : offset < payload.length
    · cases hpush : pushElement .debug payload marker z y w d i offset with
      | mk r d₁ =>
      have hround : r ≠ .error .panic → pushElement .release payload marker z y w d i offset =
          (r, d₁) := fun hr => (pushElement_release (by rwa [hpush])).trans hpush
      cases r with
      | error e =>
        rw [pushElements_of_error hlt hpush] at h ⊢
        exact pushElements_of_error hlt (hround fun he => h (by rw [Except.error.inj he]))
      | ok round =>
        cases round with
        | returned frame =>
          rw [pushElements_of_returned hlt hpush]
          exact pushElements_of_returned hlt (hround (by simp))
        | next i₁ offset₁ =>
          have hgt := lt_of_pushElement hlt hpush
          rw [pushElements_of_next hlt hpush] at h ⊢
          rw [pushElements_of_next hlt (hround (by simp))]
          exact ih _ (by omega) d₁ i₁ offset₁ h rfl
    · rw [pushElements_of_end (by omega), pushElements_of_end (by omega)]

theorem pushPayload_release {d : AV1Depacketizer} {payload : Bytes} {marker : Bool}
    (h : (pushPayload .debug d payload marker).1 ≠ .error .panic) :
    pushPayload .release d payload marker = pushPayload .debug d payload marker := by
  cases payload with
  | nil => rfl
  | cons header rest =>
    rw [ne_eq, pushPayload_debug_panic_iff, not_and] at h
    rw [pushPayload, pushPayload]
    cases hflags : (header &&& 0x08 != 0 && header &&& 0x80 != 0) with
    | true => rfl
    | false =>
      rw [if_neg (by simp), if_neg (by simp), pushElements_release _ _ _ (h hflags)]

/-- **A push** that does not overflow is the same without overflow checks. -/
theorem pushPacket_release {d : AV1Depacketizer} {p : MediaPacket}
    (h : (pushMedia (pushPacket .debug) d p).1 ≠ .error .panic) :
    pushMedia (pushPacket .release) d p = pushMedia (pushPacket .debug) d p := by
  rw [pushMedia, pushPacket] at h ⊢
  rw [pushMedia, pushPacket]
  split
  · rfl
  · rename_i hne
    rw [if_neg hne] at h
    dsimp only at h ⊢
    split
    · rfl
    · rename_i hdiscarding
      rw [if_neg hdiscarding] at h
      exact pushPayload_release h

theorem outputs_release {packets : List MediaPacket} {d : AV1Depacketizer}
    (h : ∀ r ∈ outputs (pushMedia (pushPacket .debug)) d packets, r ≠ .error .panic) :
    outputs (pushMedia (pushPacket .release)) d packets =
      outputs (pushMedia (pushPacket .debug)) d packets := by
  induction packets generalizing d with
  | nil => rw [outputs_nil, outputs_nil]
  | cons p packets ih =>
    obtain ⟨hstep, hrest⟩ := List.forall_mem_cons.1 h
    have heq := pushPacket_release hstep
    rw [outputs_cons, outputs_cons, heq]
    exact congrArg _ (ih hrest)

theorem agrees_parseObu (frame : Bytes) (offset : ℕ) :
    Agrees (parseObu .debug frame offset) (parseObu .release frame offset) := by
  refine Agrees.bind (.refl _) fun _ _ => Agrees.bind (.refl _) fun _ _ => Agrees.bind ?_ fun _ _ =>
    Agrees.bind (agrees_addUsize _ _) fun _ _ => .refl _
  unfold payloadExtent
  split
  · exact agrees_readSize _ _
  · exact .refl _

theorem agrees_parseObus (frame : Bytes) (offset : ℕ) :
    Agrees (parseObus .debug frame offset) (parseObus .release frame offset) := by
  induction hn : frame.length - offset using Nat.strongRecOn generalizing offset with
  | ind n ih =>
    by_cases hlt : offset < frame.length
    · have hround := agrees_parseObu frame offset
      cases hparse : parseObu .debug frame offset with
      | error e =>
        have hrun (b : Build) (hb : parseObu b frame offset = .error e) :
            parseObus b frame offset = .error e := by
          rw [parseObus, if_pos hlt]
          split <;> simp_all
        rw [hrun .debug hparse]
        intro hne
        refine hrun .release ((hround fun he => hne ?_).trans hparse)
        rw [Except.error.inj (hparse.symm.trans he)]
      | ok r =>
        obtain ⟨obu, offset'⟩ := r
        have hgt := parseObu_lt hparse
        rw [parseObus_of_ok hlt hparse,
          parseObus_of_ok hlt ((hround (by simp [hparse])).trans hparse)]
        exact Agrees.bind (ih _ (by omega) offset' rfl) fun _ _ => .refl _
    · rw [parseObus_of_end (by omega), parseObus_of_end (by omega)]
      exact .refl _

/-- **Parsing untrusted bytes is safe** exactly if nothing overflows where the parsers get to: over
every run of pushes, each step from the state that the ones before it leave, and for every frame.
Without overflow checks, a run in which nothing overflows returns the same. -/
theorem av1_parsing_safe_iff (packets : List MediaPacket) (frame : Bytes) :
    ((∀ p ∈ packets, p.payload.length < 2 ^ 63) →
      ((∀ r ∈ outputs (pushMedia (pushPacket .debug)) new packets, r ≠ .error .panic) ↔
        ∀ pre p post, packets = pre ++ p :: post →
          StepFits (final (pushMedia (pushPacket .debug)) new pre) p) ∧
      ((∀ r ∈ outputs (pushMedia (pushPacket .debug)) new packets, r ≠ .error .panic) →
        outputs (pushMedia (pushPacket .release)) new packets =
          outputs (pushMedia (pushPacket .debug)) new packets)) ∧
    (frame.length < 2 ^ 63 →
      (parseAv1Obus .debug frame ≠ .error .panic ↔ FrameFits frame) ∧
      (parseAv1Obus .debug frame ≠ .error .panic →
        parseAv1Obus .release frame = parseAv1Obus .debug frame)) := by
  refine ⟨fun hpackets => ⟨?_, outputs_release⟩, fun hframe => ⟨?_, ?_⟩⟩
  · rw [forall_mem_outputs_iff]
    refine forall_congr' fun pre => forall_congr' fun p => forall_congr' fun post =>
      forall_congr' fun hsplit => ?_
    have hp : p.payload.length < 2 ^ 64 := by
      have := hpackets p (by rw [hsplit]; simp)
      omega
    rw [ne_eq, pushPacket_debug_panic_iff _ hp, not_not]
  · rw [ne_eq, parseAv1Obus_debug_panic_iff (by omega), not_not]
  · intro h
    unfold parseAv1Obus at *
    split
    · rfl
    · rename_i hne
      rw [if_neg hne] at h
      exact agrees_parseObus frame 0 h

/-- A packet and a frame of one unit. -/
theorem av1_parsing_safe_iff_one_unit :
    StepFits new (unmarked [0x10, 0x30, 9]) ∧ FrameFits [0x32, 1, 9] := by
  constructor
  · refine ((av1_parsing_safe_iff [unmarked [0x10, 0x30, 9]] []).1 (by simp [unmarked])).1.1 ?_
      [] _ [] rfl
    decide +kernel
  · exact ((av1_parsing_safe_iff [] [0x32, 1, 9]).2 (by decide)).1.1 (by decide +kernel)

/-- The size `2 ^ 64 - 1`, as that of an element of a packet and as that of a unit of a frame. -/
theorem av1_parsing_overflows :
    (∀ b, (pushMedia (pushPacket b) new
      (unmarked (0x00 :: (List.replicate 9 0xFF ++ [0x01])))).1 = .error .panic) ∧
    ∀ b, parseAv1Obus b (0x32 :: (List.replicate 9 0xFF ++ [0x01])) = .error .panic := by
  constructor <;> intro b <;> cases b <;> decide +kernel

end AV1Depacketizer

end Video

end NativeVoice
