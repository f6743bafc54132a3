import NativeVoice.Video.VP8
import NativeVoice.Video.VP9

/-!
# Payload descriptors

The payload descriptors of RTP payloads of VP8 and VP9, as the formats lay them out: `VP8Descriptor`
and `VP9Descriptor` are descriptors taken apart into their fields, and `bytes` puts the fields
together in the order of the format. The depacketizers take no field but the flags; what they have
to find is where the descriptor ends.

Each part of a descriptor has a reader of its own here, from offset to offset, and both
`payload_offset` functions are shown to be those readers in a row. A reader is then described by
where it stops behind its part (`skipPictureId_eq`, `skipPdiffs_eq`, …), whatever follows, and by
that it never panics.
-/

namespace NativeVoice.Video

open BitVec (ofBool)

/-- The byte with the given fields, the first field in the highest bits. -/
def octet (fields : BitVec 8) : UInt8 := ⟨fields⟩

/-- A picture id of seven or of fifteen bits, behind the bit that says which. -/
inductive PictureId
  | short (id : BitVec 7)
  | long (id : BitVec 15)

def PictureId.bytes : PictureId → Bytes
  | short id => [octet (0#1 ++ id)]
  | long id => [octet (1#1 ++ id.extractLsb' 8 7), octet (id.extractLsb' 0 8)]

/-! ## VP8 -/

/-- The extension of a VP8 descriptor. The byte of the temporal layer and of the key frame index is
there when either of the two is. -/
structure VP8Extension where
  pictureId : Option PictureId
  tl0PicIdx : Option UInt8
  hasTid : Bool
  hasKeyIdx : Bool
  reserved : BitVec 4
  tid : BitVec 2
  layerSync : Bool
  keyIdx : BitVec 5

structure VP8Descriptor where
  reserved : Bool
  nonReference : Bool
  start : Bool
  reserved' : Bool
  partitionIndex : BitVec 3
  extension : Option VP8Extension

namespace VP8Extension

variable (x : VP8Extension)

def flags : UInt8 :=
  octet (ofBool x.pictureId.isSome ++ ofBool x.tl0PicIdx.isSome ++ ofBool x.hasTid ++
    ofBool x.hasKeyIdx ++ x.reserved)

def layer : Bytes :=
  if x.hasTid || x.hasKeyIdx then [octet (x.tid ++ ofBool x.layerSync ++ x.keyIdx)] else []

def bytes : Bytes :=
  x.flags :: (x.pictureId.elim [] PictureId.bytes ++ x.tl0PicIdx.toList ++ x.layer)

end VP8Extension

namespace VP8Descriptor

variable (d : VP8Descriptor)

def flags : UInt8 :=
  octet (ofBool d.extension.isSome ++ ofBool d.reserved ++ ofBool d.nonReference ++
    ofBool d.start ++ ofBool d.reserved' ++ d.partitionIndex)

def bytes : Bytes := d.flags :: d.extension.elim [] VP8Extension.bytes

end VP8Descriptor

/-! ## VP9 -/

/-- A picture of a group of frames, with the distances to at most three reference pictures. -/
structure GofPicture where
  tid : BitVec 3
  switchingUp : Bool
  reserved : BitVec 2
  pdiffs : List UInt8
  references : pdiffs.length < 4

def GofPicture.bytes (p : GofPicture) : Bytes :=
  octet (p.tid ++ ofBool p.switchingUp ++ BitVec.ofNat 2 p.pdiffs.length ++ p.reserved) :: p.pdiffs

/-- A scalability structure: the number of spatial layers less one, for each of them a width and a
height, and the pictures of a group of frames. -/
structure ScalabilityStructure where
  spatialLayers : BitVec 3
  resolutions : Option {rs : List (UInt16 × UInt16) // rs.length = spatialLayers.toNat + 1}
  pictures : Option {ps : List GofPicture // ps.length < 2 ^ 8}
  reserved : BitVec 3

/-- The distances of the reference pictures of the flexible mode: those with the bit that says that
another one follows, and the last one. -/
structure ReferenceIndices where
  init : List (BitVec 7)
  last : BitVec 7

/-- In the flexible mode a picture that is predicted names its reference pictures. -/
inductive PredictionMode
  | nonFlexible (predicted : Bool)
  | flexible (references : Option ReferenceIndices)

/-- The layer indices. Only the non-flexible mode writes `TL0PICIDX`. -/
structure LayerIndices where
  tid : BitVec 3
  switchingUp : Bool
  sid : BitVec 3
  interLayer : Bool
  tl0PicIdx : UInt8

structure VP9Descriptor where
  pictureId : Option PictureId
  layer : Option LayerIndices
  mode : PredictionMode
  start : Bool
  ends : Bool
  nonReference : Bool
  scalability : Option ScalabilityStructure

namespace ScalabilityStructure

variable (ss : ScalabilityStructure)

def flags : UInt8 :=
  octet
    (ss.spatialLayers ++ ofBool ss.resolutions.isSome ++ ofBool ss.pictures.isSome ++ ss.reserved)

def resolutionBytes : Bytes :=
  ss.resolutions.elim [] fun rs => rs.1.flatMap fun r => u16BeBytes r.1 ++ u16BeBytes r.2

def pictureBytes : Bytes :=
  ss.pictures.elim [] fun ps => UInt8.ofNat ps.1.length :: ps.1.flatMap GofPicture.bytes

def bytes : Bytes := ss.flags :: (ss.resolutionBytes ++ ss.pictureBytes)

end ScalabilityStructure

def ReferenceIndices.bytes (r : ReferenceIndices) : Bytes :=
  r.init.map (fun pdiff => octet (pdiff ++ 1#1)) ++ [octet (r.last ++ 0#1)]

namespace PredictionMode

def predicted : PredictionMode → Bool
  | nonFlexible predicted => predicted
  | flexible references => references.isSome

def isFlexible : PredictionMode → Bool
  | nonFlexible _ => false
  | flexible _ => true

def bytes : PredictionMode → Bytes
  | flexible (some references) => references.bytes
  | _ => []

end PredictionMode

def LayerIndices.bytes (l : LayerIndices) (flexible : Bool) : Bytes :=
  octet (l.tid ++ ofBool l.switchingUp ++ l.sid ++ ofBool l.interLayer) ::
    if flexible then [] else [l.tl0PicIdx]

namespace VP9Descriptor

variable (d : VP9Descriptor)

def flags : UInt8 :=
  octet (ofBool d.pictureId.isSome ++ ofBool d.mode.predicted ++ ofBool d.layer.isSome ++
    ofBool d.mode.isFlexible ++ ofBool d.start ++ ofBool d.ends ++ ofBool d.scalability.isSome ++
    ofBool d.nonReference)

def pictureIdBytes : Bytes := d.pictureId.elim [] PictureId.bytes

def layerBytes : Bytes := d.layer.elim [] fun l => l.bytes d.mode.isFlexible

def scalabilityBytes : Bytes := d.scalability.elim [] ScalabilityStructure.bytes

def bytes : Bytes :=
  d.flags :: (d.pictureIdBytes ++ d.layerBytes ++ d.mode.bytes ++ d.scalabilityBytes)

end VP9Descriptor

/-! ## Reading at an offset -/

section Offsets

variable {payload code rest : Bytes} {offset : ℕ} {b : UInt8}

/-- What is behind a code is what is left of the payload behind its end. -/
theorem drop_add_length (h : payload.drop offset = code ++ rest) :
    payload.drop (offset + code.length) = rest := by
  rw [← List.drop_drop, h, List.drop_left]

theorem lt_length_of_drop (h : payload.drop offset = b :: rest) : offset < payload.length := by
  by_contra hle
  rw [List.drop_eq_nil_of_le (Nat.not_lt.mp hle)] at h
  cases h

theorem index_of_drop (h : payload.drop offset = b :: rest) :
    index payload offset = (.ok b : Fallible PacketError UInt8) := by
  rw [index_eq_ok, ← List.head?_drop, h, List.head?_cons]

theorem drop_succ_of_drop (h : payload.drop offset = b :: rest) :
    payload.drop (offset + 1) = rest := by
  rw [← List.drop_drop, h, List.drop_one, List.tail_cons]

theorem add_length_le_of_drop (hne : code ≠ []) (h : payload.drop offset = code ++ rest) :
    offset + code.length ≤ payload.length := by
  have hlen := congrArg List.length h
  have hpos := List.length_pos_of_ne_nil hne
  rw [List.length_drop, List.length_append] at hlen
  omega

end Offsets

/-- A descriptor is refused, or read to an offset that the payload has; nothing is sliced out of
range. -/
def Within {α : Type} (payload : Bytes) (result : Fallible PacketError (ℕ × α)) : Prop :=
  result ≠ .error .panic ∧ ∀ offset flags, result = .ok (offset, flags) → offset ≤ payload.length

section Within

variable {α β : Type} {payload : Bytes}

theorem within_error (payload : Bytes) (e : PacketError) :
    Within payload (.error (.err e) : Fallible PacketError (ℕ × α)) := by
  simp [Within]

theorem within_ok {offset : ℕ} {flags : α} (h : offset ≤ payload.length) :
    Within payload (.ok (offset, flags)) := by
  refine ⟨by simp, fun offset' flags' heq => ?_⟩
  obtain ⟨rfl, -⟩ := Prod.mk.inj (Except.ok.inj heq)
  exact h

/-- The check at the end of both functions. -/
theorem within_checked (payload : Bytes) (offset : ℕ) (flags : α) : Within payload (do
    if offset > payload.length then
      throw (.err .invalidPayload)
    return (offset, flags)) := by
  by_cases h : offset > payload.length
  · rw [if_pos h]
    exact within_error _ _
  · rw [if_neg h]
    exact within_ok (Nat.not_lt.mp h)

theorem within_bind {x : Fallible PacketError β} {f : β → Fallible PacketError (ℕ × α)}
    (hx : x ≠ .error .panic) (hf : ∀ b, Within payload (f b)) : Within payload (x >>= f) := by
  refine ⟨bind_ne_panic hx fun b _ => (hf b).1, fun offset flags h => ?_⟩
  obtain ⟨b, -, h⟩ := bind_eq_ok.mp h
  exact (hf b).2 offset flags h

end Within

/-- The offset behind the picture id at `offset`, if there is one. -/
def skipPictureId (payload : Bytes) (present : Bool) (offset : ℕ) : Fallible PacketError ℕ :=
  if present then
    if offset ≥ payload.length then .error (.err .invalidPayload)
    else do
      let pictureId ← index payload offset
      return offset + if pictureId &&& 0x80 != 0 then 2 else 1
  else .ok offset

/-- The first byte of a picture id says how long it is. -/
theorem PictureId.exists_bytes (id : PictureId) :
    ∃ first rest, id.bytes = first :: rest ∧
      id.bytes.length = if first &&& 0x80 != 0 then 2 else 1 := by
  have hshort : ∀ id : BitVec 7, (octet (0#1 ++ id) &&& 0x80 != 0) = false := by decide
  have hlong : ∀ id : BitVec 7, (octet (1#1 ++ id) &&& 0x80 != 0) = true := by decide
  cases id with
  | short id => exact ⟨_, _, rfl, by rw [hshort]; rfl⟩
  | long id => exact ⟨_, _, rfl, by rw [hlong]; rfl⟩

theorem skipPictureId_eq {payload rest : Bytes} {offset : ℕ} {id : Option PictureId}
    (h : payload.drop offset = id.elim [] PictureId.bytes ++ rest) :
    skipPictureId payload id.isSome offset =
      .ok (offset + (id.elim [] PictureId.bytes).length) := by
  cases id with
  | none => rfl
  | some id =>
    obtain ⟨first, bytes, hbytes, hlength⟩ := id.exists_bytes
    rw [Option.elim_some] at h ⊢
    rw [hbytes, List.cons_append] at h
    rw [hlength, skipPictureId, Option.isSome_some, if_pos rfl,
      if_neg (Nat.not_le.mpr (lt_length_of_drop h)), index_of_drop h]
    rfl

theorem skipPictureId_ne_panic (payload : Bytes) (present : Bool) (offset : ℕ) :
    skipPictureId payload present offset ≠ .error .panic := by
  unfold skipPictureId
  split
  · split
    · simp
    · exact bind_ne_panic (index_ne_panic (by omega)) (by simp)
  · simp

/-! ## VP8 -/

theorem VP8Descriptor.flags_bits (d : VP8Descriptor) :
    (d.flags &&& 0x80 != 0) = d.extension.isSome ∧ (d.flags &&& 0x10 != 0) = d.start := by
  have h : ∀ (x r n s r' : Bool) (pid : BitVec 3),
      let b := octet (ofBool x ++ ofBool r ++ ofBool n ++ ofBool s ++ ofBool r' ++ pid)
      (b &&& 0x80 != 0) = x ∧ (b &&& 0x10 != 0) = s := by
    decide
  exact h ..

theorem VP8Extension.flags_bits (x : VP8Extension) :
    (x.flags &&& 0x80 != 0) = x.pictureId.isSome ∧
      (x.flags &&& 0x40 != 0) = x.tl0PicIdx.isSome ∧
      (x.flags &&& 0x30 != 0) = (x.hasTid || x.hasKeyIdx) := by
  have h : ∀ (i l t k : Bool) (reserved : BitVec 4),
      let b := octet (ofBool i ++ ofBool l ++ ofBool t ++ ofBool k ++ reserved)
      (b &&& 0x80 != 0) = i ∧ (b &&& 0x40 != 0) = l ∧ (b &&& 0x30 != 0) = (t || k) := by
    decide
  exact h ..

namespace VP8Depacketizer

theorem payloadOffset_short {b : UInt8} (hx : (b &&& 0x80 != 0) = false) (rest : Bytes) :
    payloadOffset (b :: rest) = .ok (1, b &&& 0x10 != 0) := by
  have hx' : b &&& 0x80 = 0 := by simpa using hx
  simp [payloadOffset, index, hx']

/-- `payload_offset` of an extended descriptor, one field after the other. -/
theorem payloadOffset_extended {b : UInt8} (hx : (b &&& 0x80 != 0) = true) (ext : UInt8)
    (rest : Bytes) :
    payloadOffset (b :: ext :: rest) = do
      let offset ← skipPictureId (b :: ext :: rest) (ext &&& 0x80 != 0) 2
      let offset :=
        offset + (if ext &&& 0x40 != 0 then 1 else 0) + if ext &&& 0x30 != 0 then 1 else 0
      if offset > (b :: ext :: rest).length then
        throw (.err .invalidPayload)
      return (offset, b &&& 0x10 != 0) := by
  have hrest : rest = [] ∨ ∃ pictureId rest', rest = pictureId :: rest' := by
    cases rest <;> simp
  unfold payloadOffset skipPictureId
  simp only [List.isEmpty_cons, index, List.getElem?_cons_succ, List.getElem?_cons_zero, ok_bind,
    hx]
  generalize (ext &&& 0x80 != 0) = i
  generalize (ext &&& 0x40 != 0) = l
  generalize (ext &&& 0x30 != 0) = t
  obtain rfl | ⟨pictureId, rest, rfl⟩ := hrest
  · cases i <;> cases l <;> cases t <;> rfl
  · cases i <;> cases l <;> cases t <;> rfl

/-- `payload_offset` finds the end of every descriptor of the format. -/
theorem payloadOffset_bytes (d : VP8Descriptor) (data : Bytes) :
    payloadOffset (d.bytes ++ data) = .ok (d.bytes.length, d.start) := by
  obtain ⟨hextended, hstart⟩ := d.flags_bits
  cases hx : d.extension with
  | none =>
    rw [hx, Option.isSome_none] at hextended
    have hbytes : d.bytes = [d.flags] := by rw [VP8Descriptor.bytes, hx]; rfl
    rw [hbytes, List.singleton_append, payloadOffset_short hextended, hstart]
    rfl
  | some x =>
    obtain ⟨hpictureId, htl0, hlayer⟩ := x.flags_bits
    rw [hx, Option.isSome_some] at hextended
    have hbytes : d.bytes = d.flags :: x.flags ::
        (x.pictureId.elim [] PictureId.bytes ++ x.tl0PicIdx.toList ++ x.layer) := by
      rw [VP8Descriptor.bytes, hx]
      rfl
    have htail : x.tl0PicIdx.toList.length = (if x.tl0PicIdx.isSome then 1 else 0) ∧
        x.layer.length = if x.hasTid || x.hasKeyIdx then 1 else 0 := by
      constructor
      · cases x.tl0PicIdx <;> rfl
      · rw [VP8Extension.layer]
        split <;> rfl
    have hlength : d.bytes.length = 2 + (x.pictureId.elim [] PictureId.bytes).length +
        (if x.tl0PicIdx.isSome then 1 else 0) + if x.hasTid || x.hasKeyIdx then 1 else 0 := by
      rw [hbytes, ← htail.1, ← htail.2]
      simp only [List.length_cons, List.length_append]
      omega
    have hle : ¬ d.bytes.length > (d.bytes ++ data).length := by simp
    rw [hlength] at hle ⊢
    rw [hbytes] at hle ⊢
    simp only [List.cons_append, List.append_assoc] at hle ⊢
    rw [payloadOffset_extended hextended, hpictureId, htl0, hlayer, hstart, skipPictureId_eq rfl,
      ok_bind]
    dsimp only
    rw [if_neg hle]
    rfl

theorem payloadOffset_within (payload : Bytes) : Within payload (payloadOffset payload) := by
  match payload with
  | [] => exact within_error _ _
  | [b] =>
    cases hx : (b &&& 0x80 != 0) with
    | false =>
      rw [payloadOffset_short hx]
      exact within_ok (by simp)
    | true =>
      have hx' : b &&& 0x80 ≠ 0 := by simpa using hx
      have herr : payloadOffset [b] = .error (.err .invalidPayload) := by
        simp [payloadOffset, index, hx']
      rw [herr]
      exact within_error _ _
  | b :: ext :: rest =>
    cases hx : (b &&& 0x80 != 0) with
    | false =>
      rw [payloadOffset_short hx]
      exact within_ok (by simp)
    | true =>
      rw [payloadOffset_extended hx]
      exact within_bind (skipPictureId_ne_panic _ _ _) fun offset => within_checked _ _ _

end VP8Depacketizer

/-! ## VP9 -/

theorem VP9Descriptor.flags_bits (d : VP9Descriptor) :
    (d.flags &&& 0x80 != 0) = d.pictureId.isSome ∧ (d.flags &&& 0x40 != 0) = d.mode.predicted ∧
      (d.flags &&& 0x20 != 0) = d.layer.isSome ∧ (d.flags &&& 0x10 != 0) = d.mode.isFlexible ∧
      (d.flags &&& 0x08 != 0) = d.start ∧ (d.flags &&& 0x04 != 0) = d.ends ∧
      (d.flags &&& 0x02 != 0) = d.scalability.isSome := by
  have h : ∀ i p l f b e v z : Bool,
      let byte := octet (ofBool i ++ ofBool p ++ ofBool l ++ ofBool f ++ ofBool b ++ ofBool e ++
        ofBool v ++ ofBool z)
      (byte &&& 0x80 != 0) = i ∧ (byte &&& 0x40 != 0) = p ∧ (byte &&& 0x20 != 0) = l ∧
        (byte &&& 0x10 != 0) = f ∧ (byte &&& 0x08 != 0) = b ∧ (byte &&& 0x04 != 0) = e ∧
        (byte &&& 0x02 != 0) = v := by
    decide
  exact h ..

/-- The number of reference pictures stands in the first byte of a picture. -/
theorem GofPicture.exists_bytes (p : GofPicture) : ∃ first, p.bytes = first :: p.pdiffs ∧
    ((first >>> 2) &&& 0x03).toNat = p.pdiffs.length := by
  have h : ∀ (tid : BitVec 3) (u : Bool) (r reserved : BitVec 2),
      ((octet (tid ++ ofBool u ++ r ++ reserved) >>> 2) &&& 0x03).toNat = r.toNat := by
    decide
  refine ⟨_, rfl, ?_⟩
  rw [h, BitVec.toNat_ofNat, Nat.mod_eq_of_lt p.references]

theorem skipVp9Pictures_eq {payload rest : Bytes} {ps : List GofPicture} {offset : ℕ}
    (h : payload.drop offset = ps.flatMap GofPicture.bytes ++ rest) :
    skipVp9Pictures payload ps.length offset =
      .ok (offset + (ps.flatMap GofPicture.bytes).length) := by
  induction ps generalizing offset with
  | nil => rfl
  | cons p ps ih =>
    obtain ⟨first, hbytes, hrefs⟩ := p.exists_bytes
    rw [List.flatMap_cons, List.append_assoc] at h
    have hle := add_length_le_of_drop (by rw [hbytes]; simp) h
    have hrest := ih (drop_add_length h)
    rw [List.flatMap_cons, List.length_append, ← Nat.add_assoc, ← hrest]
    rw [hbytes, List.length_cons] at hle ⊢
    rw [hbytes, List.cons_append] at h
    have hlt := lt_length_of_drop h
    simp only [List.length_cons, skipVp9Pictures, index_of_drop h, ok_bind, hrefs]
    rw [if_neg (by omega), if_neg (by omega), Nat.add_comm 1]

theorem ScalabilityStructure.flags_bits (ss : ScalabilityStructure) :
    (ss.flags >>> 5).toNat = ss.spatialLayers.toNat ∧
      (ss.flags &&& 0x10 != 0) = ss.resolutions.isSome ∧
      (ss.flags &&& 0x08 != 0) = ss.pictures.isSome := by
  have h : ∀ (n : BitVec 3) (y g : Bool) (reserved : BitVec 3),
      let b := octet (n ++ ofBool y ++ ofBool g ++ reserved)
      (b >>> 5).toNat = n.toNat ∧ (b &&& 0x10 != 0) = y ∧ (b &&& 0x08 != 0) = g := by
    decide
  exact h ..

/-- The offset behind the resolutions at `offset`, if there are any. -/
def skipResolutions (payload : Bytes) (layers : ℕ) (present : Bool) (offset : ℕ) :
    Fallible PacketError ℕ :=
  if present then
    if offset + layers * 4 > payload.length then .error (.err .invalidPayload)
    else .ok (offset + layers * 4)
  else .ok offset

/-- The offset behind the group of frames at `offset`, if there is one. -/
def skipGroupOfFrames (payload : Bytes) (present : Bool) (offset : ℕ) : Fallible PacketError ℕ :=
  if present then
    if offset ≥ payload.length then .error (.err .invalidPayload)
    else do
      let frames ← index payload offset
      skipVp9Pictures payload frames.toNat (offset + 1)
  else .ok offset

/-- `skip_vp9_scalability_structure`, one part after the other. -/
theorem skipVp9ScalabilityStructure_of_drop {payload rest : Bytes} {offset : ℕ} {b : UInt8}
    (h : payload.drop offset = b :: rest) : skipVp9ScalabilityStructure payload offset =
      skipResolutions payload ((b >>> 5).toNat + 1) (b &&& 0x10 != 0) (offset + 1) >>=
        skipGroupOfFrames payload (b &&& 0x08 != 0) := by
  unfold skipVp9ScalabilityStructure skipResolutions skipGroupOfFrames
  rw [if_neg (Nat.not_le.mpr (lt_length_of_drop h))]
  simp only [index_of_drop h, ok_bind]
  generalize (b &&& 0x10 != 0) = y
  generalize (b &&& 0x08 != 0) = g
  cases y with
  | false => cases g <;> simp
  | true =>
    rw [if_pos rfl, if_pos rfl]
    split
    · rfl
    · cases g <;> simp

theorem skipResolutions_eq {payload rest : Bytes} {ss : ScalabilityStructure} {offset : ℕ}
    (h : payload.drop offset = ss.resolutionBytes ++ rest) :
    skipResolutions payload (ss.spatialLayers.toNat + 1) ss.resolutions.isSome offset =
      .ok (offset + ss.resolutionBytes.length) := by
  cases hr : ss.resolutions with
  | none =>
    rw [ScalabilityStructure.resolutionBytes, hr]
    rfl
  | some rs =>
    have hbytes : ss.resolutionBytes = rs.1.flatMap fun r => u16BeBytes r.1 ++ u16BeBytes r.2 := by
      rw [ScalabilityStructure.resolutionBytes, hr, Option.elim_some]
    have hlength : ss.resolutionBytes.length = (ss.spatialLayers.toNat + 1) * 4 := by
      rw [hbytes, List.length_flatMap]
      simp [u16BeBytes, rs.2]
    have hle := add_length_le_of_drop (List.ne_nil_of_length_pos (by omega)) h
    rw [skipResolutions, Option.isSome_some, if_pos rfl, ← hlength, if_neg (Nat.not_lt.mpr hle)]

theorem skipGroupOfFrames_eq {payload rest : Bytes} {ss : ScalabilityStructure} {offset : ℕ}
    (h : payload.drop offset = ss.pictureBytes ++ rest) :
    skipGroupOfFrames payload ss.pictures.isSome offset =
      .ok (offset + ss.pictureBytes.length) := by
  cases hp : ss.pictures with
  | none =>
    rw [ScalabilityStructure.pictureBytes, hp]
    rfl
  | some ps =>
    have hbytes : ss.pictureBytes = UInt8.ofNat ps.1.length :: ps.1.flatMap GofPicture.bytes := by
      rw [ScalabilityStructure.pictureBytes, hp, Option.elim_some]
    have hcount : (UInt8.ofNat ps.1.length).toNat = ps.1.length := by
      rw [UInt8.toNat_ofNat', Nat.mod_eq_of_lt ps.2]
    rw [hbytes, List.cons_append] at h
    rw [skipGroupOfFrames, Option.isSome_some, if_pos rfl,
      if_neg (Nat.not_le.mpr (lt_length_of_drop h)), index_of_drop h, ok_bind, hcount,
      skipVp9Pictures_eq (drop_succ_of_drop h), hbytes, List.length_cons, Nat.add_assoc,
      Nat.add_comm 1]

theorem skipVp9ScalabilityStructure_eq {payload rest : Bytes} {ss : ScalabilityStructure}
    {offset : ℕ} (h : payload.drop offset = ss.bytes ++ rest) :
    skipVp9ScalabilityStructure payload offset = .ok (offset + ss.bytes.length) := by
  obtain ⟨hlayers, hres, hgof⟩ := ss.flags_bits
  have hres' : payload.drop (offset + 1) = ss.resolutionBytes ++ (ss.pictureBytes ++ rest) := by
    rw [← List.append_assoc]
    exact drop_succ_of_drop (h : payload.drop offset = ss.flags :: _)
  rw [skipVp9ScalabilityStructure_of_drop (h : payload.drop offset = ss.flags :: _), hlayers, hres,
    hgof, skipResolutions_eq hres', ok_bind, skipGroupOfFrames_eq (drop_add_length hres'),
    ScalabilityStructure.bytes, List.length_cons, List.length_append, Except.ok.injEq]
  omega

theorem skipVp9Pictures_ne_panic (payload : Bytes) (frames offset : ℕ) :
    skipVp9Pictures payload frames offset ≠ .error .panic := by
  induction frames generalizing offset with
  | zero => simp [skipVp9Pictures]
  | succ frames ih =>
    unfold skipVp9Pictures
    split
    · simp
    · refine bind_ne_panic (index_ne_panic (by omega)) fun frameDescriptor _ => ?_
      dsimp only
      split
      · simp
      · exact ih _

theorem skipVp9ScalabilityStructure_ne_panic (payload : Bytes) (offset : ℕ) :
    skipVp9ScalabilityStructure payload offset ≠ .error .panic := by
  by_cases hlt : offset < payload.length
  · rw [skipVp9ScalabilityStructure_of_drop (List.drop_eq_getElem_cons hlt)]
    refine bind_ne_panic ?_ fun offset _ => ?_
    · unfold skipResolutions
      split
      · split <;> simp
      · simp
    · unfold skipGroupOfFrames
      split
      · split
        · simp
        · exact bind_ne_panic (index_ne_panic (by omega)) fun _ _ => skipVp9Pictures_ne_panic _ _ _
      · simp
  · unfold skipVp9ScalabilityStructure
    rw [if_pos (Nat.not_lt.mp hlt)]
    simp

namespace VP9Depacketizer

/-- The offset behind the reference indices at `offset`, if there are any. -/
def skipReferences (payload : Bytes) (present : Bool) (offset : ℕ) : Fallible PacketError ℕ :=
  if present then skipPdiffs payload offset else .ok offset

/-- The offset behind the scalability structure at `offset`, if there is one. -/
def skipScalability (payload : Bytes) (present : Bool) (offset : ℕ) : Fallible PacketError ℕ :=
  if present then skipVp9ScalabilityStructure payload offset else .ok offset

/-- `payload_offset`, one field after the other. -/
theorem payloadOffset_cons (b : UInt8) (rest : Bytes) :
    payloadOffset (b :: rest) = do
      let offset ← skipPictureId (b :: rest) (b &&& 0x80 != 0) 1
      let offset := offset + if b &&& 0x20 != 0 then if b &&& 0x10 != 0 then 1 else 2 else 0
      let offset ← skipReferences (b :: rest) ((b &&& 0x10 != 0) && (b &&& 0x40 != 0)) offset
      let offset ← skipScalability (b :: rest) (b &&& 0x02 != 0) offset
      if offset > (b :: rest).length then
        throw (.err .invalidPayload)
      return (offset, b &&& 0x08 != 0, b &&& 0x04 != 0) := by
  have hrest : rest = [] ∨ ∃ pictureId rest', rest = pictureId :: rest' := by
    cases rest <;> simp
  unfold payloadOffset skipPictureId skipReferences skipScalability
  simp only [List.isEmpty_cons, index, List.getElem?_cons_succ, List.getElem?_cons_zero, ok_bind]
  generalize (b &&& 0x80 != 0) = i
  generalize (b &&& 0x40 != 0) = p
  generalize (b &&& 0x20 != 0) = l
  generalize (b &&& 0x10 != 0) = f
  generalize (b &&& 0x02 != 0) = v
  obtain rfl | ⟨pictureId, rest, rfl⟩ := hrest
  · cases i <;> cases p <;> cases l <;> cases f <;> cases v <;> rfl
  · cases i <;> cases p <;> cases l <;> cases f <;> cases v <;> rfl

theorem skipPdiffs_of_drop {payload rest : Bytes} {offset : ℕ} {b : UInt8}
    (h : payload.drop offset = b :: rest) : skipPdiffs payload offset =
      if b &&& 0x01 = 0 then .ok (offset + 1) else skipPdiffs payload (offset + 1) := by
  have hlt := lt_length_of_drop h
  rw [List.drop_eq_getElem_cons hlt] at h
  rw [skipPdiffs, dif_pos hlt, List.head_eq_of_cons_eq h]

/-- The loop ends behind the reference index that says so. -/
theorem skipPdiffs_eq {payload rest : Bytes} {r : ReferenceIndices} {offset : ℕ}
    (h : payload.drop offset = r.bytes ++ rest) :
    skipPdiffs payload offset = .ok (offset + r.bytes.length) := by
  obtain ⟨init, last⟩ := r
  have hmore : ∀ pdiff : BitVec 7, octet (pdiff ++ 1#1) &&& 0x01 ≠ 0 := by decide
  have hlast : ∀ pdiff : BitVec 7, octet (pdiff ++ 0#1) &&& 0x01 = 0 := by decide
  induction init generalizing offset with
  | nil => rw [skipPdiffs_of_drop h, if_pos (hlast last)]; rfl
  | cons pdiff init ih =>
    rw [skipPdiffs_of_drop h, if_neg (hmore pdiff), ih (drop_succ_of_drop h)]
    simp only [ReferenceIndices.bytes, List.map_cons, List.cons_append, List.length_cons]
    rw [Nat.add_assoc, Nat.add_comm 1]

section Parts

variable {d : VP9Descriptor} {payload rest : Bytes} {offset : ℕ}

theorem length_layerBytes :
    (if d.layer.isSome then if d.mode.isFlexible then 1 else 2 else 0) = d.layerBytes.length := by
  unfold VP9Descriptor.layerBytes
  cases d.layer with
  | none => rfl
  | some l => cases d.mode.isFlexible <;> rfl

theorem skipReferences_eq (h : payload.drop offset = d.mode.bytes ++ rest) :
    skipReferences payload (d.mode.isFlexible && d.mode.predicted) offset =
      .ok (offset + d.mode.bytes.length) := by
  cases hm : d.mode with
  | nonFlexible predicted => rfl
  | flexible references =>
    cases references with
    | none => rfl
    | some r =>
      rw [hm] at h
      exact skipPdiffs_eq h

theorem skipScalability_eq (h : payload.drop offset = d.scalabilityBytes ++ rest) :
    skipScalability payload d.scalability.isSome offset =
      .ok (offset + d.scalabilityBytes.length) := by
  unfold VP9Descriptor.scalabilityBytes at h ⊢
  cases hs : d.scalability with
  | none => rfl
  | some ss =>
    rw [hs] at h
    exact skipVp9ScalabilityStructure_eq h

end Parts

/-- `payload_offset` finds the end of every descriptor of the format. -/
theorem payloadOffset_bytes (d : VP9Descriptor) (data : Bytes) :
    payloadOffset (d.bytes ++ data) = .ok (d.bytes.length, d.start, d.ends) := by
  obtain ⟨hi, hp, hl, hf, hb, he, hv⟩ := d.flags_bits
  have hpay : d.bytes ++ data = d.flags :: (d.pictureIdBytes ++ (d.layerBytes ++ (d.mode.bytes ++
      (d.scalabilityBytes ++ data)))) := by
    simp only [VP9Descriptor.bytes, List.cons_append, List.append_assoc]
  have hlength : 1 + d.pictureIdBytes.length + d.layerBytes.length + d.mode.bytes.length +
      d.scalabilityBytes.length = d.bytes.length := by
    simp only [VP9Descriptor.bytes, List.length_cons, List.length_append]
    omega
  have hle : d.bytes.length ≤ (d.bytes ++ data).length := by simp
  generalize d.bytes ++ data = payload at hpay hle
  have h₁ : payload.drop 1 = d.pictureIdBytes ++ (d.layerBytes ++ (d.mode.bytes ++
      (d.scalabilityBytes ++ data))) := by rw [hpay]; rfl
  have h₂ := drop_add_length h₁
  have h₃ := drop_add_length h₂
  have h₄ := drop_add_length h₃
  rw [hpay, payloadOffset_cons, ← hpay, hi, hp, hl, hf, hb, he, hv, skipPictureId_eq h₁, ok_bind,
    length_layerBytes]
  dsimp only
  rw [← VP9Descriptor.pictureIdBytes, skipReferences_eq h₃, ok_bind, skipScalability_eq h₄, ok_bind,
    hlength, if_neg (Nat.not_lt.mpr hle)]
  rfl

theorem skipPdiffs_ne_panic (payload : Bytes) (offset : ℕ) :
    skipPdiffs payload offset ≠ .error .panic := by
  fun_induction skipPdiffs payload offset with
  | case1 => simp
  | case2 offset hlt hmore ih => exact ih
  | case3 => simp

theorem payloadOffset_within (payload : Bytes) : Within payload (payloadOffset payload) := by
  match payload with
  | [] => exact within_error _ _
  | b :: rest =>
    rw [payloadOffset_cons]
    refine within_bind (skipPictureId_ne_panic _ _ _) fun offset => ?_
    refine within_bind ?_ fun offset => within_bind ?_ fun offset => within_checked _ _ _
    · unfold skipReferences
      split
      · exact skipPdiffs_ne_panic _ _
      · simp
    · unfold skipScalability
      split
      · exact skipVp9ScalabilityStructure_ne_panic _ _
      · simp

end VP9Depacketizer

/-! ## Both formats -/

/-- **Payload descriptors**: both depacketizers find the end and the flags of every descriptor of
their format, whatever follows it, and of no byte string do they read beyond the end. -/
theorem vp8_vp9_payloadOffset (data payload : Bytes) :
    (∀ d : VP8Descriptor,
      VP8Depacketizer.payloadOffset (d.bytes ++ data) = .ok (d.bytes.length, d.start)) ∧
    (∀ d : VP9Descriptor,
      VP9Depacketizer.payloadOffset (d.bytes ++ data) = .ok (d.bytes.length, d.start, d.ends)) ∧
    Within payload (VP8Depacketizer.payloadOffset payload) ∧
    Within payload (VP9Depacketizer.payloadOffset payload) :=
  ⟨fun d => VP8Depacketizer.payloadOffset_bytes d data,
    fun d => VP9Depacketizer.payloadOffset_bytes d data,
    VP8Depacketizer.payloadOffset_within payload, VP9Depacketizer.payloadOffset_within payload⟩

end NativeVoice.Video
