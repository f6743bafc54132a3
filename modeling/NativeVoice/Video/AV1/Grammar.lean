import NativeVoice.Lib.Leb128
import NativeVoice.Lib.Packing
import NativeVoice.Rtp.Packet

/-!
# The AV1 RTP payload format

The format of an AV1 payload as a grammar of its own, with nothing of the packetizer in it: an
aggregation header with the bits Z, Y, W and N, and OBU elements. If W is 0, every element has its
length in front, and there are as many as the payload holds; otherwise there are W elements and the
last one has no length.

* `parseAggregation` reads a payload, `aggregate` writes one.
* `parseAggregation_aggregate` is the round trip.
-/

namespace NativeVoice.Video

open Lib

/-- An aggregation header and the elements behind it. -/
structure Aggregation where
  z : Bool
  y : Bool
  w : ℕ
  n : Bool
  elements : List Bytes
  deriving DecidableEq

namespace Aggregation

/-- The elements with the flags of the fragments at both ends. -/
def group (a : Aggregation) : Packing.Elements UInt8 := ⟨a.z, a.elements, a.y⟩

end Aggregation

/-! ## Reading -/

/-- An element behind its length, and the bytes after it. -/
def readSized (data : Bytes) : Option (Bytes × Bytes) := do
  let (length, data) ← Leb128.decode data
  if length ≤ data.length then return (data.take length, data.drop length) else none

theorem readSized_shorter {data element rest : Bytes} (h : readSized data = some (element, rest)) :
    rest.length < data.length := by
  have hdecode : ∀ (data : Bytes) (n : ℕ) (rest : Bytes),
      Leb128.decode data = some (n, rest) → rest.length < data.length := by
    intro data
    induction data with
    | nil => intro n rest h; simp [Leb128.decode] at h
    | cons byte data ih =>
      intro n rest h
      rw [Leb128.decode] at h
      split at h
      · obtain ⟨-, rfl⟩ := Prod.mk.inj (Option.some.inj h)
        simp
      · obtain ⟨⟨m, rest'⟩, hm, heq⟩ := Option.map_eq_some_iff.1 h
        obtain ⟨-, rfl⟩ := Prod.mk.inj heq
        have := ih _ _ hm
        rw [List.length_cons]
        omega
  obtain ⟨⟨n, data'⟩, hn, h⟩ := Option.bind_eq_some_iff.1 h
  dsimp only at h
  split at h
  · obtain ⟨-, rfl⟩ := Prod.mk.inj (Option.some.inj h)
    have := hdecode _ _ _ hn
    rw [List.length_drop]
    omega
  · cases h

/-- Elements with lengths, up to the end. -/
def readUncounted (data : Bytes) : Option (List Bytes) :=
  if data = [] then some []
  else match _h : readSized data with
    | none => none
    | some (element, rest) => (readUncounted rest).map (element :: ·)
termination_by data.length
decreasing_by exact readSized_shorter _h

/-- A number of elements, the last one without a length. -/
def readCounted : ℕ → Bytes → Option (List Bytes)
  | 0, _ => none
  | 1, data => some [data]
  | w + 2, data => do
    let (element, rest) ← readSized data
    return element :: (← readCounted (w + 1) rest)

/-- The elements behind a header with the count `w`. -/
def readElements (w : ℕ) (data : Bytes) : Option (List Bytes) :=
  if w = 0 then readUncounted data else readCounted w data

def parseAggregation : Bytes → Option Aggregation
  | [] => none
  | header :: data => do
    let w := (header >>> 4 &&& 0x03).toNat
    let elements ← readElements w data
    return { z := header &&& 0x80 != 0
             y := header &&& 0x40 != 0
             w
             n := header &&& 0x08 != 0
             elements }

/-! ## Writing -/

def headerByte (z y : Bool) (w : ℕ) (n : Bool) : UInt8 :=
  (if z then 0x80 else 0) ||| (if y then 0x40 else 0) ||| UInt8.ofNat w <<< (4 : UInt8) |||
    if n then 0x08 else 0

def sizedFields (elements : List Bytes) : Bytes :=
  elements.flatMap fun element => Leb128.encode element.length ++ element

/-- The number of elements, if two bits are enough for it. -/
def countField (count : ℕ) : ℕ := if count ≤ 3 then count else 0

/-- The fields of the elements `whole` and, behind them, `last`. -/
def elementFields (whole : List Bytes) (last : Bytes) : Bytes :=
  sizedFields whole ++ ((if whole.length + 1 ≤ 3 then [] else Leb128.encode last.length) ++ last)

/-- The payload of the elements `whole` and, behind them, `last`. -/
def aggregate (z y n : Bool) (whole : List Bytes) (last : Bytes) : Bytes :=
  headerByte z y (countField (whole.length + 1)) n :: elementFields whole last

@[simp] theorem sizedFields_nil : sizedFields [] = [] := rfl

@[simp] theorem sizedFields_cons (e : Bytes) (es : List Bytes) :
    sizedFields (e :: es) = Leb128.encode e.length ++ (e ++ sizedFields es) := by
  simp [sizedFields]

@[simp] theorem sizedFields_append (es es' : List Bytes) :
    sizedFields (es ++ es') = sizedFields es ++ sizedFields es' := List.flatMap_append

/-- The bits of a header are read back. -/
theorem headerByte_bits (z y n : Bool) {w : ℕ} (hw : w < 4) :
    (headerByte z y w n &&& 0x80 != 0) = z ∧ (headerByte z y w n &&& 0x40 != 0) = y ∧
      headerByte z y w n >>> 4 &&& 0x03 = UInt8.ofNat w ∧
      (headerByte z y w n &&& 0x08 != 0) = n := by
  obtain rfl | rfl | rfl | rfl : w = 0 ∨ w = 1 ∨ w = 2 ∨ w = 3 := by omega
  all_goals
    revert z y n
    decide

theorem countField_lt (count : ℕ) : countField count < 4 := by
  unfold countField
  split <;> omega

theorem readSized_append (e rest : Bytes) :
    readSized (Leb128.encode e.length ++ (e ++ rest)) = some (e, rest) := by
  simp [readSized, Leb128.decode_encode]

theorem readUncounted_sizedFields (es : List Bytes) :
    readUncounted (sizedFields es) = some es := by
  induction es with
  | nil => rw [readUncounted, sizedFields_nil, if_pos rfl]
  | cons e es ih =>
    have hread : readSized (sizedFields (e :: es)) = some (e, sizedFields es) := by
      rw [sizedFields_cons, readSized_append]
    have hne : sizedFields (e :: es) ≠ [] := by
      simp [Leb128.encode_ne_nil]
    rw [readUncounted, if_neg hne]
    split
    · rename_i h
      rw [hread] at h
      cases h
    · rename_i h
      rw [hread] at h
      obtain ⟨rfl, rfl⟩ := Prod.mk.inj (Option.some.inj h)
      rw [ih, Option.map_some]

theorem readCounted_sizedFields (es : List Bytes) (last : Bytes) :
    readCounted (es.length + 1) (sizedFields es ++ last) = some (es ++ [last]) := by
  induction es with
  | nil => rfl
  | cons e es ih =>
    rw [List.length_cons, readCounted, sizedFields_cons, List.append_assoc, List.append_assoc,
      readSized_append]
    simp [ih]

theorem readElements_elementFields (whole : List Bytes) (last : Bytes) :
    readElements (countField (whole.length + 1)) (elementFields whole last) =
      some (whole ++ [last]) := by
  by_cases h : whole.length + 1 ≤ 3
  · simp only [countField, elementFields, if_pos h, List.nil_append]
    rw [readElements, if_neg (by omega), readCounted_sizedFields]
  · have hfields : elementFields whole last = sizedFields (whole ++ [last]) := by
      rw [elementFields, if_neg h, sizedFields_append, sizedFields_cons, sizedFields_nil,
        List.append_nil]
    rw [countField, if_neg h, readElements, if_pos rfl, hfields, readUncounted_sizedFields]

/-- **Round trip**: what is written is read back. -/
theorem parseAggregation_aggregate (z y n : Bool) (whole : List Bytes) (last : Bytes) :
    parseAggregation (aggregate z y n whole last) =
      some ⟨z, y, countField (whole.length + 1), n, whole ++ [last]⟩ := by
  obtain ⟨hz, hy, hw, hn⟩ := headerByte_bits z y n (countField_lt (whole.length + 1))
  have hnat : (UInt8.ofNat (countField (whole.length + 1))).toNat =
      countField (whole.length + 1) := by
    have := countField_lt (whole.length + 1)
    rw [UInt8.toNat_ofNat']
    omega
  rw [aggregate, parseAggregation, hw, hnat, readElements_elementFields, hz, hy, hn]
  rfl

end NativeVoice.Video
