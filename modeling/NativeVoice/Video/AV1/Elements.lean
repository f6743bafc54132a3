import NativeVoice.Video.AV1.Depacketizer
import NativeVoice.Video.AV1.Grammar

/-!
# The AV1 depacketizer on written payloads

What the loop over the elements does with a payload of the format, while the units `os` are being
received: the depacketizer holds the beginning of the first one in `obu` and the payload goes on
with it.

* One lemma for each thing that can become of an element, and one for a round.
* `pushElements_sized`: the rounds for elements that are whole units.
* `pushElements_aggregate`: a whole payload, if its elements can be counted (`Countable`).
* `pushElements_uncountable`: what the loop does otherwise.
-/

namespace NativeVoice.Video

open Lib Lib.Packing

/-- Whether a counter of 8 bits is enough for the elements of a payload that continues a unit if `z`
is set. With overflow checks, it must not overflow; without them, the 257th element, whose index is
1 again, must not be taken for one that continues a unit. -/
def Countable (b : Build) (z : Bool) (count : ℕ) : Prop :=
  match b with
  | .debug => count ≤ 255
  | .release => z → count ≤ 256

instance (b : Build) (z : Bool) (count : ℕ) : Decidable (Countable b z count) :=
  match b with
  | .debug => inferInstanceAs (Decidable (count ≤ 255))
  | .release => inferInstanceAs (Decidable (z = true → count ≤ 256))

/-- The number of elements that are counted as they should be. -/
def countLimit : Build → ℕ
  | .debug => 255
  | .release => 256

theorem countable_countLimit (b : Build) (z : Bool) : Countable b z (countLimit b) := by
  cases b with
  | debug => exact Nat.le_refl 255
  | release => exact fun _ => Nat.le_refl 256

theorem countLimit_lt {b : Build} {z : Bool} {count : ℕ} (h : ¬ Countable b z count) :
    countLimit b < count := by
  cases b with
  | debug => exact not_le.1 h
  | release => exact not_le.1 fun hle => h fun _ => hle

theorem Countable.mono {b : Build} {z : Bool} {m n : ℕ} (h : Countable b z n) (hm : m ≤ n) :
    Countable b z m := by
  cases b with
  | debug => exact Nat.le_trans hm h
  | release => exact fun hz => Nat.le_trans hm (h hz)

theorem incrU8_ofNat {b : Build} {z : Bool} {i : ℕ} (h : Countable b z (i + 1)) :
    b.incrU8 (UInt8.ofNat i) = (.ok (UInt8.ofNat (i + 1)) : Fallible PacketError UInt8) := by
  by_cases hi : UInt8.ofNat i = 255
  · cases b with
    | debug =>
      have := congrArg UInt8.toNat hi
      rw [UInt8.toNat_ofNat'] at this
      change i + 1 ≤ 255 at h
      change i % 256 = 255 at this
      omega
    | release =>
      rw [UInt8.ofNat_add, hi]
      rfl
  · rw [b.incrU8_of_ne hi, UInt8.ofNat_add]
    rfl

/-- Only the first element has the index 1. -/
theorem ofNat_eq_one {b : Build} {z : Bool} {i : ℕ} (h : Countable b z (i + 1)) :
    (decide (UInt8.ofNat (i + 1) = 1) && z) = (decide (i = 0) && z) := by
  cases z with
  | false => simp
  | true =>
    have hi : i + 1 ≤ 256 := by
      cases b with
      | debug => exact Nat.le_trans h (by omega)
      | release => exact h rfl
    have : UInt8.ofNat (i + 1) = 1 ↔ i = 0 := by
      constructor
      · intro h1
        have := congrArg UInt8.toNat h1
        rw [UInt8.toNat_ofNat'] at this
        change (i + 1) % 256 = 1 at this
        omega
      · rintro rfl
        rfl
    rw [decide_eq_decide.2 this]

/-! ## Reading an element -/

theorem readElement_sized (b : Build) {pre post e : Bytes} {w elementIndex : UInt8}
    (hsized : w = 0 ∨ elementIndex ≠ w)
    (hlen : (pre ++ (Leb128.encode e.length ++ (e ++ post))).length < 2 ^ 64) :
    AV1Depacketizer.readElement b (pre ++ (Leb128.encode e.length ++ (e ++ post))) w elementIndex
      pre.length = .ok (e, (pre ++ (Leb128.encode e.length ++ e)).length) := by
  have hread := AV1Obu.readSize_append b pre e post hlen
  simp only [List.length_append] at hlen hread
  rw [AV1Depacketizer.readElement, AV1Depacketizer.elementExtent, if_pos hsized, hread, ok_bind]
  dsimp only
  rw [b.addUsize_of_lt (by omega), ok_bind, ← List.append_assoc, ← List.length_append,
    slice_append, ok_bind]
  simp [Nat.add_assoc]

theorem readElement_unsized (b : Build) {pre e : Bytes} {w : UInt8} (hw : w ≠ 0)
    (hlen : (pre ++ e).length < 2 ^ 64) :
    AV1Depacketizer.readElement b (pre ++ e) w w pre.length = .ok (e, (pre ++ e).length) := by
  have hslice := slice_append (ε := PacketError) pre e []
  rw [List.append_nil] at hslice
  rw [List.length_append] at hlen
  rw [AV1Depacketizer.readElement, AV1Depacketizer.elementExtent, if_neg (by simp [hw]), ok_bind]
  dsimp only
  rw [List.length_append, Nat.add_sub_cancel_left, b.addUsize_of_lt hlen, ok_bind, hslice, ok_bind]
  rfl

namespace AV1Depacketizer

/-! ## Taking an element -/

section TakeElement

variable {b : Build} {d : AV1Depacketizer} {e : Bytes} {continuesPrevious omitSize marker : Bool}

/-- The element ends its unit, which is rebuilt. -/
theorem takeElement_rebuilt {rebuilt : Bytes} (hprev : continuesPrevious = !d.obu.isEmpty)
    (hrebuild : rebuildObu b (d.obu ++ e) omitSize = .ok rebuilt) :
    takeElement b d e continuesPrevious false omitSize marker =
      (.ok none, { state := { d.state with frame := d.state.frame ++ rebuilt }
                   obu := [] }) := by
  have hne : ¬ (d.obu ++ e).isEmpty = true := by
    intro hempty
    rw [List.isEmpty_iff.1 hempty] at hrebuild
    cases hrebuild
  rw [takeElement, hprev, if_neg (by simp), if_neg (by simp)]
  dsimp only
  rw [if_neg (by simp), finishObu, if_neg hne, hrebuild]

/-- The element ends its unit, which becomes part of the frame. -/
theorem takeElement_whole {obu : AV1Obu} (hprev : continuesPrevious = !d.obu.isEmpty)
    (hunit : d.obu ++ e = obu.wire) (hwf : obu.WellFormed) :
    takeElement b d e continuesPrevious false omitSize marker =
      (.ok none, { state := { d.state with frame := d.state.frame ++ obu.rebuilt omitSize }
                   obu := [] }) :=
  takeElement_rebuilt hprev (by rw [hunit, AV1Obu.rebuildObu_wire b hwf])

/-- The element is continued in the next packet. -/
theorem takeElement_part (hprev : continuesPrevious = !d.obu.isEmpty) :
    takeElement b d e continuesPrevious true omitSize marker =
      (.ok none, { d with obu := d.obu ++ e }) := by
  rw [takeElement, hprev, if_neg (by simp), if_neg (by simp)]
  rfl

/-- The element does not continue the unit that has begun. -/
theorem takeElement_misplaced (continuesNext : Bool) (hobu : d.obu ≠ []) :
    takeElement b d e false continuesNext omitSize marker = (.error (.err .invalidPayload), d) := by
  rw [takeElement, if_neg (by simp), if_pos (by simp [hobu])]

/-- The element continues a unit that has not begun. -/
theorem takeElement_headless (continuesNext : Bool) (hobu : d.obu = []) :
    takeElement b d e true continuesNext omitSize marker =
      (.ok (some none), if marker then new
        else { d with state := d.state.discardFrame }) := by
  rw [takeElement, hobu, if_pos (by simp)]
  cases marker with
  | true => rfl
  | false => rw [finishIf, if_neg (by simp), if_neg (by simp)]

end TakeElement

/-! ## Rounds -/

section Rounds

variable {b : Build} {payload e : Bytes} {marker z y : Bool} {w elementIndex elementIndex' : UInt8}
  {d d' : AV1Depacketizer} {offset offset' : ℕ}

theorem pushElements_of_end (h : payload.length ≤ offset) :
    pushElements b payload marker z y w d elementIndex offset =
      (.ok (.counted elementIndex), d) := by
  rw [pushElements, dif_neg (by omega)]

theorem pushElements_of_error {e : Stop PacketError} (hlt : offset < payload.length)
    (h : pushElement b payload marker z y w d elementIndex offset = (.error e, d')) :
    pushElements b payload marker z y w d elementIndex offset = (.error e, d') := by
  rw [pushElements, dif_pos hlt]
  split <;> simp_all

theorem pushElements_of_returned {frame : Option Bytes} (hlt : offset < payload.length)
    (h : pushElement b payload marker z y w d elementIndex offset =
      (.ok (.returned frame), d')) :
    pushElements b payload marker z y w d elementIndex offset =
      (.ok (.returned frame), d') := by
  rw [pushElements, dif_pos hlt]
  split <;> simp_all

theorem pushElements_of_next (hlt : offset < payload.length)
    (h : pushElement b payload marker z y w d elementIndex offset =
      (.ok (.next elementIndex' offset'), d')) :
    pushElements b payload marker z y w d elementIndex offset =
      pushElements b payload marker z y w d' elementIndex' offset' := by
  rw [pushElements, dif_pos hlt]
  split <;> simp_all

variable (marker) in
/-- A round for an element that is read, by what becomes of the element. -/
theorem pushElement_of_read
    (hincr : b.incrU8 elementIndex = (.ok elementIndex' : Fallible PacketError UInt8))
    (hread : readElement b payload w elementIndex' offset = .ok (e, offset')) :
    pushElement b payload marker z y w d elementIndex offset =
      match takeElement b d e (decide (elementIndex' = 1) && z)
        (decide (offset' = payload.length) && y) (marker && decide (offset' = payload.length))
        marker with
      | (.error e, d) => (.error e, d)
      | (.ok (some frame), d) => (.ok (.returned frame), d)
      | (.ok none, d) => (.ok (.next elementIndex' offset'), d) := by
  rcases h : takeElement b d e (decide (elementIndex' = 1) && z)
    (decide (offset' = payload.length) && y) (marker && decide (offset' = payload.length))
    marker with ⟨_ | _ | _, _⟩ <;> simp only [pushElement, hincr, hread, h]

end Rounds

/-! ## The elements of a payload -/

section Payload

variable {b : Build} {marker z y : Bool} {w : UInt8}

/-- The rounds for elements `whole` that end units of `os`, with further ones behind them. -/
theorem pushElements_sized {whole : List Bytes} {pre post : Bytes} {v : Bytes}
    {vs : List Bytes} {os : List AV1Obu} {i : ℕ} {d : AV1Depacketizer} (hpost : post ≠ [])
    (hlen : (pre ++ (sizedFields whole ++ post)).length < 2 ^ 64)
    (hsized : w = 0 ∨ ∀ j, j < i + whole.length → UInt8.ofNat (j + 1) ≠ w)
    (hcount : Countable b z (i + whole.length)) (hwf : ∀ o ∈ os, o.WellFormed)
    (hprev : d.obu.isEmpty = !(decide (i = 0) && z))
    (hunits : glue d.obu (whole ++ v :: vs) = os.map AV1Obu.wire) :
    ∃ done os' d', os = done ++ os' ∧
      pushElements b (pre ++ (sizedFields whole ++ post)) marker z y w d (UInt8.ofNat i)
          pre.length =
        pushElements b (pre ++ (sizedFields whole ++ post)) marker z y w d'
          (UInt8.ofNat (i + whole.length)) (pre ++ sizedFields whole).length ∧
      d'.state = { d.state with frame := d.state.frame ++ done.flatMap (AV1Obu.rebuilt · false) } ∧
      (d'.obu.isEmpty = !(decide (i + whole.length = 0) && z)) ∧
      glue d'.obu (v :: vs) = os'.map AV1Obu.wire := by
  induction whole generalizing pre os i d with
  | nil => exact ⟨[], os, d, rfl, by simp, by simp, hprev, hunits⟩
  | cons e whole ih =>
    -- The element ends the first unit.
    obtain ⟨o, os₁, rfl⟩ : ∃ o os₁, os = o :: os₁ := by
      cases os with
      | nil => simp [glue] at hunits
      | cons o os₁ => exact ⟨o, os₁, rfl⟩
    obtain ⟨hunit, hrest⟩ := List.cons.inj hunits
    rw [List.length_cons, Nat.add_comm whole.length, ← Nat.add_assoc] at hsized hcount
    have hcount₁ : Countable b z (i + 1) := hcount.mono (by omega)
    have hpayload : pre ++ (sizedFields (e :: whole) ++ post) =
        pre ++ (Leb128.encode e.length ++ (e ++ (sizedFields whole ++ post))) := by
      rw [sizedFields_cons]
      simp
    have hpayload' : pre ++ (sizedFields (e :: whole) ++ post) =
        (pre ++ (Leb128.encode e.length ++ e)) ++ (sizedFields whole ++ post) := by
      rw [sizedFields_cons]
      simp
    have hread : readElement b (pre ++ (sizedFields (e :: whole) ++ post)) w
        (UInt8.ofNat (i + 1)) pre.length =
          .ok (e, (pre ++ (Leb128.encode e.length ++ e)).length) := by
      rw [hpayload] at hlen ⊢
      refine readElement_sized b (hsized.imp id fun h => h i ?_) hlen
      omega
    have hnotlast : (pre ++ (Leb128.encode e.length ++ e)).length ≠
        (pre ++ (sizedFields (e :: whole) ++ post)).length := by
      have := List.length_pos_iff.2 hpost
      rw [hpayload']
      simp only [List.length_append]
      omega
    have hround := pushElement_of_read marker (z := z) (y := y) (d := d)
      (incrU8_ofNat hcount₁) hread
    rw [ofNat_eq_one hcount₁, decide_eq_false hnotlast, Bool.false_and, Bool.and_false,
      takeElement_whole (by rw [hprev, Bool.not_not]) hunit (hwf o (by simp))] at hround
    have hlt : pre.length < (pre ++ (sizedFields (e :: whole) ++ post)).length := by
      have := List.length_pos_iff.2 hpost
      simp only [List.length_append]
      omega
    obtain ⟨done, os', d', hos, hrun, hstate, hobu, hglue⟩ :=
      ih (i := i + 1)
        (d := ⟨{ d.state with frame := d.state.frame ++ o.rebuilt false }, []⟩)
        (by rw [← hpayload']; exact hlen) hsized hcount
        (fun o ho => hwf o (List.mem_cons_of_mem _ ho)) (by simp)
        (by rw [glue_nil (by simp)]; exact hrest)
    refine ⟨o :: done, os', d', by rw [hos, List.cons_append], ?_, ?_, ?_, hglue⟩
    · rw [pushElements_of_next hlt hround, hpayload', hrun]
      congr 1
      · rw [List.length_cons, Nat.add_comm whole.length, Nat.add_assoc]
      · simp [sizedFields_cons]
    · rw [hstate]
      simp
    · rw [hobu, List.length_cons, Nat.add_comm whole.length, Nat.add_assoc]

theorem sized_of_countField {whole : List Bytes} {j : ℕ}
    (hw : UInt8.ofNat (countField (whole.length + 1)) ≠ 0) (hj : j < whole.length) :
    UInt8.ofNat (j + 1) ≠ UInt8.ofNat (countField (whole.length + 1)) := by
  unfold countField at hw ⊢
  split at hw
  · rename_i h
    rw [if_pos h]
    intro heq
    have := congrArg UInt8.toNat heq
    simp only [UInt8.toNat_ofNat'] at this
    omega
  · exact absurd rfl hw

/-- The last element of a payload is read. -/
theorem readElement_last (b : Build) {pre last : Bytes} {count : ℕ} (hpos : 0 < count)
    {elementIndex : UInt8} (hindex : count ≤ 3 → elementIndex = UInt8.ofNat count)
    (hlen : (pre ++ ((if count ≤ 3 then [] else Leb128.encode last.length) ++ last)).length <
      2 ^ 64) :
    readElement b (pre ++ ((if count ≤ 3 then [] else Leb128.encode last.length) ++ last))
      (UInt8.ofNat (countField count)) elementIndex pre.length =
      .ok (last,
        (pre ++ ((if count ≤ 3 then [] else Leb128.encode last.length) ++ last)).length) := by
  by_cases h : count ≤ 3
  · have hw : UInt8.ofNat count ≠ 0 := by
      intro h0
      have := congrArg UInt8.toNat h0
      rw [UInt8.toNat_ofNat'] at this
      change count % 256 = 0 at this
      omega
    simp only [countField, if_pos h, List.nil_append] at hlen ⊢
    rw [hindex h]
    exact readElement_unsized b hw hlen
  · simp only [countField, if_neg h] at hlen ⊢
    have := readElement_sized b (e := last)
      (show UInt8.ofNat 0 = 0 ∨ elementIndex ≠ UInt8.ofNat 0 from .inl rfl)
      (by rwa [List.append_nil])
    rwa [List.append_nil] at this

/-- **The elements of a payload**: the units that end in it become part of the frame, without a size
field for the last one of the frame. -/
theorem pushElements_aggregate {n : Bool} {whole : List Bytes} {last rest : Bytes}
    {ws : List Bytes} {os : List AV1Obu} {d : AV1Depacketizer} (hlast : last ≠ [])
    (hlen : (aggregate z (!rest.isEmpty) n whole last).length < 2 ^ 64)
    (hcount : Countable b z (whole.length + 1)) (hwf : ∀ o ∈ os, o.WellFormed)
    (hprev : d.obu.isEmpty = !z) (hmarker : marker → rest = [])
    (hunits : glue d.obu (whole ++ (last ++ rest) :: ws) = os.map AV1Obu.wire) :
    ∃ done os' d', os = done ++ os' ∧
      pushElements b (aggregate z (!rest.isEmpty) n whole last) marker z (!rest.isEmpty)
        (UInt8.ofNat (countField (whole.length + 1))) d 0 1 =
          (.ok (.counted (UInt8.ofNat (whole.length + 1))), d') ∧
      d'.state = { d.state with frame := d.state.frame ++
        if marker then AV1Obu.rebuiltFrame done else done.flatMap (AV1Obu.rebuilt · false) } ∧
      d'.obu.isEmpty = rest.isEmpty ∧
      (leave rest ws ≠ [] → glue d'.obu (leave rest ws) = os'.map AV1Obu.wire) ∧
      (leave rest ws = [] → os' = []) := by
  obtain ⟨header, hpayload⟩ : ∃ header, aggregate z (!rest.isEmpty) n whole last = [header] ++
      (sizedFields whole ++
        ((if whole.length + 1 ≤ 3 then [] else Leb128.encode last.length) ++ last)) := ⟨_, rfl⟩
  rw [hpayload] at hlen ⊢
  obtain ⟨done, os₁, d₁, rfl, hrun, hstate, hobu, hglue⟩ :=
    pushElements_sized (b := b) (z := z) (y := !rest.isEmpty)
      (w := UInt8.ofNat (countField (whole.length + 1)))
      (i := 0)
      (d := d) (by simp [hlast]) hlen
      (or_iff_not_imp_left.2 fun hw j hj => sized_of_countField hw (by rwa [Nat.zero_add] at hj))
      (hcount.mono (by omega)) hwf (by simp [hprev]) hunits
  rw [Nat.zero_add] at hrun hobu
  -- The last element ends its unit or is continued.
  have hassoc : [header] ++ (sizedFields whole ++
      ((if whole.length + 1 ≤ 3 then [] else Leb128.encode last.length) ++ last)) =
      ([header] ++ sizedFields whole) ++
        ((if whole.length + 1 ≤ 3 then [] else Leb128.encode last.length) ++ last) :=
    (List.append_assoc ..).symm
  rw [hassoc] at hlen hrun ⊢
  have hread := readElement_last b
    (by omega)
    (fun _ => rfl) hlen
  have hround := pushElement_of_read marker (z := z) (y := !rest.isEmpty) (d := d₁)
    (incrU8_ofNat hcount) hread
  have hlt : ([header] ++ sizedFields whole).length < ([header] ++ sizedFields whole ++
      ((if whole.length + 1 ≤ 3 then [] else Leb128.encode last.length) ++ last)).length := by
    have := List.length_pos_iff.2 hlast
    simp only [List.length_append]
    omega
  rw [ofNat_eq_one hcount, decide_eq_true rfl, Bool.true_and, Bool.and_true] at hround
  cases rest with
  | nil =>
    obtain ⟨o, os', rfl⟩ : ∃ o os', os₁ = o :: os' := by
      cases os₁ with
      | nil => simp [glue] at hglue
      | cons o os' => exact ⟨o, os', rfl⟩
    obtain ⟨hunit, hrest⟩ := List.cons.inj hglue
    rw [List.append_nil] at hunit
    rw [List.isEmpty_nil, Bool.not_true, takeElement_whole (by rw [hobu, Bool.not_not]) hunit
      (hwf o (by simp))] at hround
    refine ⟨done ++ [o], os',
      ⟨{ d₁.state with frame := d₁.state.frame ++ o.rebuilt marker }, []⟩,
      by simp, ?_, ?_, rfl, ?_, ?_⟩
    · change pushElements _ _ _ _ _ _ _ (UInt8.ofNat 0) [header].length = _
      rw [hrun, List.isEmpty_nil, Bool.not_true, pushElements_of_next hlt hround,
        pushElements_of_end le_rfl]
    · rw [hstate]
      cases marker with
      | true => simp [AV1Obu.rebuiltFrame_append done, AV1Obu.rebuiltFrame]
      | false => simp
    · intro hne
      rw [glue_nil hne]
      exact hrest
    · intro hws
      have hws : ws = [] := hws
      rw [hws] at hrest
      exact List.map_eq_nil_iff.1 hrest.symm
  | cons x rest =>
    obtain rfl : marker = false := by
      cases marker with
      | true => exact absurd (hmarker rfl) (by simp)
      | false => rfl
    rw [List.isEmpty_cons, Bool.not_false, takeElement_part (by rw [hobu, Bool.not_not])] at hround
    refine ⟨done, os₁, { d₁ with obu := d₁.obu ++ last }, rfl, ?_, hstate, ?_, ?_, ?_⟩
    · change pushElements _ _ _ _ _ _ _ (UInt8.ofNat 0) [header].length = _
      rw [hrun, List.isEmpty_cons, Bool.not_false, pushElements_of_next hlt hround,
        pushElements_of_end le_rfl]
    · simp [hlast]
    · intro _
      rw [← hglue]
      change glue (d₁.obu ++ last) ((x :: rest) :: ws) = _
      simp [glue]
    · intro h
      cases h

variable (marker) in
/-- **Too many elements**: with overflow checks the loop panics; without them it takes the 257th
element for one that continues a unit, and gives up on the frame. -/
theorem pushElements_uncountable {n : Bool} {whole : List Bytes} {last rest : Bytes}
    {ws : List Bytes} {os : List AV1Obu} {d : AV1Depacketizer}
    (hlen : (aggregate z (!rest.isEmpty) n whole last).length < 2 ^ 64)
    (hcount : ¬ Countable b z (whole.length + 1)) (hwf : ∀ o ∈ os, o.WellFormed)
    (hprev : d.obu.isEmpty = !z)
    (hunits : glue d.obu (whole ++ (last ++ rest) :: ws) = os.map AV1Obu.wire) :
    (b = .debug ∧ (pushElements b (aggregate z (!rest.isEmpty) n whole last) marker z
      (!rest.isEmpty) (UInt8.ofNat (countField (whole.length + 1))) d 0 1).1 = .error .panic) ∨
    pushElements b (aggregate z (!rest.isEmpty) n whole last) marker z
      (!rest.isEmpty) (UInt8.ofNat (countField (whole.length + 1))) d 0 1 =
        (.ok (.returned none), if marker then new
          else { state := { d.state with discarding := true, frame := [] }, obu := [] }) := by
  -- The elements `whole.take k` are counted and `e` is not.
  obtain ⟨k, hk⟩ : ∃ k, countLimit b = k := ⟨_, rfl⟩
  have hcounted : Countable b z k := hk ▸ countable_countLimit b z
  have hle : k ≤ whole.length := by
    have := countLimit_lt hcount
    omega
  have hk3 : 3 ≤ k := by
    rw [← hk]
    cases b <;> decide
  obtain ⟨header, hpayload⟩ : ∃ header, aggregate z (!rest.isEmpty) n whole last =
      [header] ++ sizedFields (whole ++ [last]) := by
    refine ⟨headerByte z (!rest.isEmpty) (countField (whole.length + 1)) n, ?_⟩
    rw [aggregate, elementFields, if_neg (by omega), sizedFields_append, sizedFields_cons,
      sizedFields_nil, List.append_nil]
    rfl
  obtain ⟨e, tail, htail⟩ : ∃ e tail, whole.drop k ++ [last] = e :: tail :=
    List.exists_cons_of_ne_nil (by simp)
  have hall : whole ++ [last] = whole.take k ++ e :: tail := by
    rw [← htail, ← List.append_assoc, List.take_append_drop]
  obtain ⟨v, vs, hvs⟩ : ∃ v vs, whole.drop k ++ (last ++ rest) :: ws = v :: vs :=
    List.exists_cons_of_ne_nil (by simp)
  have hsplit : whole ++ (last ++ rest) :: ws = whole.take k ++ v :: vs := by
    rw [← hvs, ← List.append_assoc, List.take_append_drop]
  have hw : countField (whole.length + 1) = 0 := if_neg (by omega)
  have hlenk : (whole.take k).length = k := List.length_take_of_le hle
  rw [hpayload, hall, sizedFields_append] at hlen
  rw [hpayload, hall, sizedFields_append, hw]
  obtain ⟨done, os', d', rfl, hrun, hstate, hobu, -⟩ :=
    pushElements_sized (b := b) (z := z) (y := !rest.isEmpty)
      (w := UInt8.ofNat 0) (i := 0) (d := d)
      (by simp [Leb128.encode_ne_nil]) hlen (.inl rfl)
      (by rwa [Nat.zero_add, hlenk]) hwf (by simp [hprev])
      (by rwa [← hsplit])
  rw [Nat.zero_add, hlenk] at hrun hobu
  change (b = .debug ∧ (pushElements _ _ _ _ _ _ _ (UInt8.ofNat 0) [header].length).1 = _) ∨
    pushElements _ _ _ _ _ _ _ (UInt8.ofNat 0) [header].length = _
  rw [hrun]
  have hlt : ([header] ++ sizedFields (whole.take k)).length <
      ([header] ++ (sizedFields (whole.take k) ++ sizedFields (e :: tail))).length := by
    have := List.length_pos_iff.2 (Leb128.encode_ne_nil e.length)
    simp only [sizedFields_cons, List.length_append]
    omega
  subst hk
  cases b with
  | debug =>
    left
    refine ⟨rfl, ?_⟩
    rw [pushElements_of_error hlt (e := .panic)]
    rfl
  | release =>
    right
    obtain rfl : z = true := by
      by_contra hz
      exact hcount fun h => absurd h hz
    have hobu : d'.obu = [] := by simpa [countLimit] using hobu
    obtain ⟨offset, hread⟩ : ∃ offset, readElement .release
        ([header] ++ (sizedFields (whole.take (countLimit .release)) ++ sizedFields (e :: tail)))
        (UInt8.ofNat 0) 1 ([header] ++ sizedFields (whole.take (countLimit .release))).length =
          .ok (e, offset) := by
      rw [sizedFields_cons, ← List.append_assoc] at hlen ⊢
      exact ⟨_, readElement_sized .release (.inl rfl) hlen⟩
    have hround := pushElement_of_read marker (z := true) (y := !rest.isEmpty) (d := d')
      (show Build.incrU8 .release (UInt8.ofNat (countLimit .release)) = _ from rfl) hread
    have hfirst : decide (UInt8.ofNat (countLimit .release) + 1 = 1) = true := by decide
    rw [hfirst, Bool.true_and, takeElement_headless _ hobu] at hround
    rw [pushElements_of_returned hlt hround]
    cases marker with
    | true => rfl
    | false =>
      dsimp only
      rw [if_neg (by simp), if_neg (by simp), hobu, hstate]
      rfl

/-- The first element of a payload is read. -/
theorem readElement_first (b : Build) {n : Bool} {whole : List Bytes} {last : Bytes}
    (hlen : (aggregate z y n whole last).length < 2 ^ 64) :
    ∃ e offset, readElement b (aggregate z y n whole last)
      (UInt8.ofNat (countField (whole.length + 1))) 1 1 = .ok (e, offset) := by
  have hpayload : aggregate z y n whole last =
      [headerByte z y (countField (whole.length + 1)) n] ++ elementFields whole last := rfl
  rw [hpayload] at hlen ⊢
  cases whole with
  | nil =>
    exact ⟨_, _, readElement_last b Nat.one_pos (fun _ => rfl) hlen⟩
  | cons e whole =>
    rw [elementFields, sizedFields_cons, List.append_assoc, List.append_assoc] at hlen ⊢
    refine ⟨_, _, readElement_sized b ?_ hlen⟩
    rw [or_iff_not_imp_left]
    exact fun hw => sized_of_countField (j := 0) hw (by simp)

/-! ## Payloads -/

/-- What `push_payload` makes of the result of the loop, for a payload of the format. -/
theorem pushPayload_eq (b : Build) {d : AV1Depacketizer} {n : Bool} (hn : n → z = false)
    (whole : List Bytes) (last : Bytes) :
    pushPayload b d (aggregate z y n whole last) marker =
      match pushElements b (aggregate z y n whole last) marker z y
        (UInt8.ofNat (countField (whole.length + 1))) d 0 1 with
      | (.error e, d) => (.error e, d)
      | (.ok (.returned frame), d) => (.ok frame, d)
      | (.ok (.counted elementIndex), d) =>
        if UInt8.ofNat (countField (whole.length + 1)) ≠ 0 ∧
            elementIndex ≠ UInt8.ofNat (countField (whole.length + 1)) then
          (.error (.err .invalidPayload), d)
        else if marker && y then (.error (.err .invalidPayload), d)
        else d.finishIf marker := by
  obtain ⟨hz, hy, hw, hn'⟩ := headerByte_bits z y n (countField_lt (whole.length + 1))
  have hnz : (n && z) = false := by
    cases n with
    | false => rfl
    | true => rw [hn rfl, Bool.and_false]
  rcases h : pushElements b (aggregate z y n whole last) marker z y
      (UInt8.ofNat (countField (whole.length + 1))) d 0 1 with ⟨_ | _ | _, _⟩ <;>
    simp only [aggregate, pushPayload, hz, hy, hw, hn', hnz, Bool.false_eq_true,
      if_false] at h ⊢ <;>
    simp only [h]

/-- **A payload of the format**, if its elements are counted. -/
theorem pushPayload_aggregate {n : Bool} {whole : List Bytes} {last rest : Bytes}
    {ws : List Bytes} {os : List AV1Obu} {d : AV1Depacketizer} (hn : n → z = false)
    (hlast : last ≠ []) (hlen : (aggregate z (!rest.isEmpty) n whole last).length < 2 ^ 64)
    (hcount : Countable b z (whole.length + 1)) (hwf : ∀ o ∈ os, o.WellFormed)
    (hprev : d.obu.isEmpty = !z) (hmarker : marker → rest = [])
    (hunits : glue d.obu (whole ++ (last ++ rest) :: ws) = os.map AV1Obu.wire) :
    ∃ (done os' : List AV1Obu) (d' : AV1Depacketizer), os = done ++ os' ∧
      pushPayload b d (aggregate z (!rest.isEmpty) n whole last) marker = d'.finishIf marker ∧
      d'.state = { d.state with frame := d.state.frame ++
        if marker then AV1Obu.rebuiltFrame done else done.flatMap (AV1Obu.rebuilt · false) } ∧
      d'.obu.isEmpty = rest.isEmpty ∧
      (leave rest ws ≠ [] → glue d'.obu (leave rest ws) = os'.map AV1Obu.wire) ∧
      (leave rest ws = [] → os' = []) := by
  obtain ⟨done, os', d', hos, hrun, h⟩ :=
    pushElements_aggregate (n := n) hlast hlen hcount hwf hprev hmarker hunits
  refine ⟨done, os', d', hos, ?_, h⟩
  have hmarker : (marker && !rest.isEmpty) = false := by
    cases marker with
    | false => rfl
    | true => simp [hmarker rfl]
  have hcounted : ¬ (UInt8.ofNat (countField (whole.length + 1)) ≠ 0 ∧
      UInt8.ofNat (whole.length + 1) ≠ UInt8.ofNat (countField (whole.length + 1))) := by
    unfold countField
    split <;> simp
  rw [pushPayload_eq b hn, hrun]
  dsimp only
  rw [if_neg hcounted, hmarker, if_neg (by simp)]

theorem pushPayload_uncountable {n : Bool} {whole : List Bytes} {last rest : Bytes}
    {ws : List Bytes} {os : List AV1Obu} {d : AV1Depacketizer} (hn : n → z = false)
    (hlen : (aggregate z (!rest.isEmpty) n whole last).length < 2 ^ 64)
    (hcount : ¬ Countable b z (whole.length + 1)) (hwf : ∀ o ∈ os, o.WellFormed)
    (hprev : d.obu.isEmpty = !z)
    (hunits : glue d.obu (whole ++ (last ++ rest) :: ws) = os.map AV1Obu.wire) :
    (pushPayload b d (aggregate z (!rest.isEmpty) n whole last) marker).1 = .error .panic ∨
    pushPayload b d (aggregate z (!rest.isEmpty) n whole last) marker =
      (.ok none, if marker then new
        else { state := { d.state with discarding := true, frame := [] }, obu := [] }) := by
  rw [pushPayload_eq b hn]
  rcases pushElements_uncountable marker (n := n) hlen hcount hwf hprev hunits with
    ⟨-, hpanic⟩ | hreturned
  · left
    split <;> simp_all
  · right
    rw [hreturned]

/-- A payload that does not continue the unit that has begun. -/
theorem pushPayload_misplaced (b : Build) {n : Bool} {whole : List Bytes} {last : Bytes}
    {d : AV1Depacketizer} (hlen : (aggregate false y n whole last).length < 2 ^ 64)
    (hlast : last ≠ []) (hobu : d.obu ≠ []) :
    pushPayload b d (aggregate false y n whole last) marker =
      (.error (.err .invalidPayload), d) := by
  obtain ⟨e, offset, hread⟩ := readElement_first b hlen
  have hround := pushElement_of_read marker (z := false) (y := y) (d := d)
    (b.incrU8_of_ne (show (0 : UInt8) ≠ 255 by decide)) hread
  rw [Bool.and_false, takeElement_misplaced _ hobu] at hround
  have hlt : 1 < (aggregate false y n whole last).length := by
    have := List.length_pos_iff.2 hlast
    simp only [aggregate, elementFields, List.length_cons, List.length_append]
    omega
  rw [pushPayload_eq b (fun _ => rfl), pushElements_of_error hlt hround]

end Payload

end AV1Depacketizer

end NativeVoice.Video
