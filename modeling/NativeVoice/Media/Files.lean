import NativeVoice.Rtp.Packet

/-!
# Files

What the sinks of `src/discord/ext/native_voice/media.py` use of binary files: writes at a position,
which is sought and told.
-/

namespace NativeVoice.Media

/-- A write at a position of a file, which is filled up with zeros if it is shorter. -/
def writeAt (file : Bytes) (start : ℕ) (data : Bytes) : Bytes :=
  file.take start ++ List.replicate (start - file.length) 0 ++ data ++
    file.drop (start + data.length)

/-- A file that is opened for writing. -/
structure BinaryFile where
  contents : Bytes := []
  position : ℕ := 0
  deriving DecidableEq

def BinaryFile.write (file : BinaryFile) (data : Bytes) : BinaryFile where
  contents := writeAt file.contents file.position data
  position := file.position + data.length

def BinaryFile.seek (file : BinaryFile) (position : ℕ) : BinaryFile := { file with position }

theorem writeAt_length (file data : Bytes) : writeAt file file.length data = file ++ data := by
  simp [writeAt]

/-- A write that stays within the file. -/
theorem writeAt_append (front old behind data : Bytes) (h : data.length = old.length) :
    writeAt (front ++ old ++ behind) front.length data = front ++ data ++ behind := by
  have hdrop : (front ++ old ++ behind).drop (front.length + data.length) = behind := by
    rw [h, ← List.length_append, List.drop_left]
  have htake : (front ++ old ++ behind).take front.length = front := by
    rw [List.append_assoc, List.take_left]
  have hfill : front.length - (front ++ old ++ behind).length = 0 := by
    simp only [List.length_append]
    omega
  rw [writeAt, hdrop, htake, hfill, List.replicate_zero, List.append_nil]

end NativeVoice.Media
