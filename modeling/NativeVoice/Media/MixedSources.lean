import NativeVoice.Lib.Columns
import NativeVoice.Media.MixedSamples

/-!
# Sources that are mixed

`PCMMediaSource`, `AudioFrameSource` and the sound of `MultiMediaSource` in
`src/discord/ext/native_voice/media.py`, which reads a frame of every source that has not ended and
mixes them.

* `framesOf` are the frames that a source still gives; `read_spec` says that a read takes the first.
* `reads_eq`: the reads of sources of PCM mix their frames column by column.
* `files_run`: what is read from files is the sums of their samples, clamped, and as long as the
  longest of them, in whole frames.
-/

namespace NativeVoice.Media

open Lib Chunks

/-- The bytes of a frame, `OpusEncoder.FRAME_SIZE`. -/
def FRAME_SIZE : ℕ := 3840

/-- A frame that is too short, filled up with silence. -/
def padFrame (data : Bytes) : Bytes := data ++ List.replicate (FRAME_SIZE - data.length) 0

/-! ## Sources -/

/-- A source over a file, with what has not been read of it. -/
structure PCMMediaSource where
  stream : Bytes
  closed : Bool := false

def PCMMediaSource.read (s : PCMMediaSource) : Bytes × PCMMediaSource :=
  if s.closed then ([], s)
  else
    let data := s.stream.take FRAME_SIZE
    let s := { s with stream := s.stream.drop FRAME_SIZE }
    if data = [] then ([], { s with closed := true })
    else if data.length < FRAME_SIZE then (padFrame data, { s with closed := true })
    else (data, s)

/-- A source over an iterator, with what it still yields. -/
structure AudioFrameSource where
  frames : List Bytes
  opus : Bool := false
  closed : Bool := false

def AudioFrameSource.read (s : AudioFrameSource) : Bytes × AudioFrameSource :=
  if s.closed then ([], s)
  else match s.frames with
  | [] => ([], { s with closed := true })
  | data :: frames =>
    let s := { s with frames }
    if data = [] then (data, { s with closed := true })
    else if !s.opus ∧ data.length < FRAME_SIZE then (padFrame data, { s with closed := true })
    else (data, s)

inductive AudioSource
  | pcm (source : PCMMediaSource)
  | frames (source : AudioFrameSource)

namespace AudioSource

def read : AudioSource → Bytes × AudioSource
  | pcm s => let (data, s) := s.read; (data, pcm s)
  | frames s => let (data, s) := s.read; (data, frames s)

def hasAudio : AudioSource → Bool
  | pcm s => !s.closed
  | frames s => !s.closed

def isFinished : AudioSource → Bool
  | pcm s => s.closed
  | frames s => s.closed

def isOpus : AudioSource → Bool
  | pcm _ => false
  | frames s => s.opus

end AudioSource

/-! ## `MultiMediaSource` -/

inductive SourceError
  /-- `TypeError('sources must not be empty')`. -/
  | empty
  /-- `ClientException('Opus audio cannot be mixed with other media sources')`. -/
  | opusMixed
  deriving DecidableEq

/-- The sources of sound, and whether they are in `_finished_audio_sources`. -/
abbrev MultiMediaSource := List (AudioSource × Bool)

namespace MultiMediaSource

def new (sources : List AudioSource) : Except SourceError MultiMediaSource :=
  if sources = [] then .error .empty
  else
    let audioSources := sources.filter AudioSource.hasAudio
    if audioSources.any AudioSource.isOpus ∧ audioSources.length ≠ 1 then .error .opusMixed
    else .ok (audioSources.map (·, false))

/-- `_audio_source_done`. -/
def done (s : AudioSource × Bool) : Bool := s.2 || s.1.isFinished

/-- Reads a source, which is finished if it gives nothing. -/
def readSource (s : AudioSource × Bool) : Bytes × AudioSource × Bool :=
  let (data, source) := s.1.read
  (data, source, s.2 || data.isEmpty)

/-- The loop over the sources that are not done. -/
def readAll : MultiMediaSource → List Bytes × MultiMediaSource
  | [] => ([], [])
  | s :: rest =>
    let (chunks, rest') := readAll rest
    if done s then (chunks, s :: rest')
    else
      let (chunk, s) := readSource s
      (if chunk = [] then chunks else chunk :: chunks, s :: rest')

/-- The read of the first Opus source. -/
def readOpus : MultiMediaSource → Bytes × MultiMediaSource
  | [] => ([], [])
  | s :: rest =>
    if s.1.isOpus then
      let (data, s) := readSource s
      (data, s :: rest)
    else
      let (data, rest) := readOpus rest
      (data, s :: rest)

def isOpus (m : MultiMediaSource) : Bool := m.any fun s => s.1.isOpus && !done s

def read (m : MultiMediaSource) : Except AudioError Bytes × MultiMediaSource :=
  if m.all done then (.ok [], m)
  else if m.isOpus then
    let (data, m) := m.readOpus
    (.ok data, m)
  else
    let (chunks, m) := m.readAll
    (if chunks = [] then .ok [] else pcm16Mix chunks, m)

/-- The results of some reads. -/
def reads (m : MultiMediaSource) (n : ℕ) : List (Except AudioError Bytes) :=
  Transducer.outputs (fun m _ => m.read) m (List.replicate n ())

end MultiMediaSource

/-! ## The frames of a source -/

/-- What a source makes of the frames of an iterator: it ends with one that is empty or too
short. -/
def playable (opus : Bool) : List Bytes → List Bytes
  | [] => []
  | data :: frames =>
    if data = [] then []
    else if !opus ∧ data.length < FRAME_SIZE then [padFrame data]
    else data :: playable opus frames

/-- The frames that a source still gives. -/
def framesOf : AudioSource → List Bytes
  | .pcm s => if s.closed then [] else (chunksOf FRAME_SIZE s.stream).map padFrame
  | .frames s => if s.closed then [] else playable s.opus s.frames

theorem padFrame_ne_nil {data : Bytes} (h : data ≠ []) : padFrame data ≠ [] :=
  List.append_ne_nil_of_left_ne_nil h _

theorem padFrame_of_length {data : Bytes} (h : data.length = FRAME_SIZE) :
    padFrame data = data := by
  rw [padFrame, h, Nat.sub_self, List.replicate_zero, List.append_nil]

theorem length_padFrame {data : Bytes} (h : data.length ≤ FRAME_SIZE) :
    (padFrame data).length = FRAME_SIZE := by
  rw [padFrame, List.length_append, List.length_replicate]
  omega

/-- **A read takes the first frame of a source.** -/
theorem read_spec (s : AudioSource) :
    s.read.1 = (framesOf s).headD [] ∧ framesOf s.read.2 = (framesOf s).tail ∧
      s.read.2.isOpus = s.isOpus := by
  cases s with
  | pcm s =>
    obtain ⟨stream, closed⟩ := s
    cases closed with
    | true => exact ⟨rfl, rfl, rfl⟩
    | false =>
      rcases eq_or_ne stream [] with rfl | hne
      · refine ⟨?_, ?_, rfl⟩ <;> simp [AudioSource.read, PCMMediaSource.read, framesOf]
      · have hsize : 0 < FRAME_SIZE := by decide
        have hdata : stream.take FRAME_SIZE ≠ [] := by simp [hne, hsize.ne']
        have hframes : framesOf (.pcm { stream }) = padFrame (stream.take FRAME_SIZE) ::
            (chunksOf FRAME_SIZE (stream.drop FRAME_SIZE)).map padFrame := by
          rw [framesOf, if_neg (by simp), chunksOf_of_ne_nil hsize hne, List.map_cons]
        rw [hframes]
        simp only [AudioSource.read, PCMMediaSource.read, hdata, Bool.false_eq_true, if_false]
        split
        · rename_i hshort
          have hlast : stream.drop FRAME_SIZE = [] := by
            rw [List.length_take] at hshort
            exact List.drop_eq_nil_of_le (by omega)
          refine ⟨rfl, ?_, rfl⟩
          rw [hlast]
          simp [framesOf]
        · rename_i hwhole
          have hlen : (stream.take FRAME_SIZE).length = FRAME_SIZE := by
            have hle := List.length_take_le FRAME_SIZE stream
            omega
          exact ⟨(padFrame_of_length hlen).symm, rfl, rfl⟩
  | frames s =>
    obtain ⟨frames, opus, closed⟩ := s
    cases closed with
    | true => exact ⟨rfl, rfl, rfl⟩
    | false =>
      cases frames with
      | nil => exact ⟨rfl, rfl, rfl⟩
      | cons data frames =>
        by_cases hdata : data = []
        · simp [AudioSource.read, AudioFrameSource.read, framesOf, playable, hdata]
          rfl
        · by_cases hshort : opus = false ∧ data.length < FRAME_SIZE
          · simp [AudioSource.read, AudioFrameSource.read, framesOf, playable, hdata, hshort]
            rfl
          · simp [AudioSource.read, AudioFrameSource.read, framesOf, playable, hdata, hshort]
            rfl

theorem ne_nil_of_mem_framesOf {s : AudioSource} {frame : Bytes} (h : frame ∈ framesOf s) :
    frame ≠ [] := by
  cases s with
  | pcm s =>
    rw [framesOf] at h
    split at h
    · exact absurd h (by simp)
    · obtain ⟨data, hdata, rfl⟩ := List.mem_map.1 h
      exact padFrame_ne_nil (mem_chunksOf (by decide) hdata).1
  | frames s =>
    rw [framesOf] at h
    split at h
    · exact absurd h (by simp)
    · generalize s.frames = frames at h
      induction frames with
      | nil => exact absurd h (by simp [playable])
      | cons data frames ih =>
        rw [playable] at h
        split_ifs at h with hdata hshort
        · exact absurd h (by simp)
        · rw [List.mem_singleton.1 h]
          exact padFrame_ne_nil hdata
        · rcases List.mem_cons.1 h with rfl | h
          · exact hdata
          · exact ih h

theorem framesOf_of_isFinished {s : AudioSource} (h : s.isFinished = true) : framesOf s = [] := by
  cases s <;> exact if_pos h

namespace MultiMediaSource

/-- The frames that a source of a mix still gives. -/
def pending (s : AudioSource × Bool) : List Bytes := if done s then [] else framesOf s.1

/-- A read of a source that is not done. -/
theorem readSource_spec {s : AudioSource × Bool} (h : done s = false) :
    (readSource s).1 = (pending s).headD [] ∧ pending (readSource s).2 = (pending s).tail ∧
      (readSource s).2.1.isOpus = s.1.isOpus := by
  obtain ⟨hhead, htail, hopus⟩ := read_spec s.1
  have hpending : pending s = framesOf s.1 := if_neg (by simp [h])
  obtain ⟨hflag, -⟩ : s.2 = false ∧ s.1.isFinished = false := by
    simpa [done] using h
  refine ⟨by rw [hpending]; exact hhead, ?_, hopus⟩
  rw [hpending, ← htail, readSource, pending]
  dsimp only
  split
  · rename_i hdone
    -- A source that gives nothing, or says that it has ended, has no frames left.
    simp only [done, hflag, Bool.false_or, Bool.or_eq_true, List.isEmpty_iff] at hdone
    rcases hdone with hempty | hfinished
    · rw [htail]
      rw [hempty] at hhead
      cases hframes : framesOf s.1 with
      | nil => rfl
      | cons frame frames =>
        rw [hframes, List.headD_cons] at hhead
        exact absurd hhead.symm (ne_nil_of_mem_framesOf (s := s.1) (by rw [hframes]; simp))
    · exact (framesOf_of_isFinished hfinished).symm
  · rfl

/-- The loop over the sources takes the first frame of each. -/
theorem readAll_spec (m : MultiMediaSource) :
    m.readAll.1 = (m.map pending).filterMap List.head? ∧
      m.readAll.2.map pending = (m.map pending).map List.tail ∧
      (m.all (fun s => !s.1.isOpus) → m.readAll.2.all fun s => !s.1.isOpus) := by
  induction m with
  | nil => exact ⟨rfl, rfl, fun _ => rfl⟩
  | cons s rest ih =>
    obtain ⟨hchunks, hrest, hopus⟩ := ih
    rw [readAll, List.map_cons, List.filterMap_cons, List.map_cons]
    dsimp only
    cases hdone : done s with
    | true =>
      have hpending : pending s = [] := if_pos hdone
      rw [if_pos rfl, hpending]
      refine ⟨hchunks, ?_, fun h => ?_⟩
      · rw [List.map_cons, hrest, hpending]
        rfl
      · rw [List.all_cons, Bool.and_eq_true] at h ⊢
        exact ⟨h.1, hopus h.2⟩
    | false =>
      obtain ⟨hread, hnext, hkind⟩ := readSource_spec hdone
      rw [if_neg (by simp)]
      refine ⟨?_, ?_, fun h => ?_⟩
      · rw [hread, hchunks]
        cases hframes : pending s with
        | nil => rfl
        | cons frame frames =>
          have hne : frame ≠ [] := by
            refine ne_nil_of_mem_framesOf (s := s.1) ?_
            have hpending : pending s = framesOf s.1 := if_neg (by simp [hdone])
            rw [← hpending, hframes]
            simp
          rw [List.headD_cons, if_neg hne]
          rfl
      · rw [List.map_cons, hnext, hrest]
      · rw [List.all_cons, Bool.and_eq_true] at h ⊢
        rw [hkind]
        exact ⟨h.1, hopus h.2⟩

theorem pending_of_all_done {m : MultiMediaSource} (h : m.all done = true) :
    (m.map pending).filterMap List.head? = [] ∧ (m.map pending).map List.tail = m.map pending := by
  have hpending : ∀ s ∈ m, pending s = [] := fun s hs => if_pos (List.all_eq_true.1 h s hs)
  constructor
  · rw [List.filterMap_map, List.filterMap_eq_nil_iff]
    intro s hs
    simp [hpending s hs]
  · rw [List.map_map]
    refine List.map_congr_left fun s hs => ?_
    simp [hpending s hs]

/-- **The reads of sources of PCM mix their frames column by column.** -/
theorem reads_eq {m : MultiMediaSource} (h : m.all fun s => !s.1.isOpus) (n : ℕ) :
    m.reads n = (List.range n).map fun k => pcm16Mix ((m.map pending).filterMap (·[k]?)) := by
  rw [← Columns.outputs_columns, reads]
  refine Transducer.outputs_eq_of_simulation (A := fun _ => True)
    (R := fun m rows => m.map pending = rows ∧ m.all (fun s => !s.1.isOpus) = true)
    ?_ ⟨rfl, h⟩ fun _ _ => trivial
  rintro m rows - ⟨rfl, hopus⟩ -
  have hisOpus : m.isOpus = false := by
    rw [isOpus, List.any_eq_false]
    intro s hs
    have hs' := List.all_eq_true.1 hopus s hs
    simp only [Bool.not_eq_true'] at hs'
    simp [hs']
  obtain ⟨hchunks, hnext, hkept⟩ := readAll_spec m
  unfold read Columns.step
  dsimp only
  split
  · rename_i hdone
    obtain ⟨hnone, hsame⟩ := pending_of_all_done hdone
    rw [hnone]
    exact ⟨rfl, hsame.symm, hopus⟩
  · rw [hisOpus, if_neg (by simp)]
    dsimp only
    refine ⟨?_, hnext, hkept hopus⟩
    rw [← hchunks]
    split
    · rename_i hempty
      rw [hempty]
      rfl
    · rfl

/-- The reads of a source of Opus pass its frames on. -/
theorem reads_opus {s : AudioSource × Bool} (h : s.1.isOpus = true) (n : ℕ) :
    MultiMediaSource.reads [s] n =
      (List.range n).map fun k => .ok (([pending s].filterMap (·[k]?)).headD []) := by
  refine Eq.trans ?_
    (Columns.outputs_columns (fun column : List Bytes => Except.ok (column.headD [])) [pending s] n)
  refine Transducer.outputs_eq_of_simulation (A := fun _ => True)
    (R := fun m rows => ∃ s, s.1.isOpus = true ∧ m = [s] ∧ rows = [pending s])
    ?_ ⟨s, h, rfl, rfl⟩ fun _ _ => trivial
  rintro m rows - ⟨s, hs, rfl, rfl⟩ -
  unfold read Columns.step isOpus readOpus
  rw [List.all_cons, List.all_nil, Bool.and_true, List.any_cons, List.any_nil, Bool.or_false, hs,
    Bool.true_and]
  cases hdone : done s with
  | true =>
    have hpending : pending s = [] := if_pos hdone
    refine ⟨?_, s, hs, rfl, ?_⟩
    · rw [hpending]
      rfl
    · rw [hpending]
      rfl
  | false =>
    obtain ⟨hread, hnext, hkind⟩ := readSource_spec hdone
    refine ⟨?_, (readSource s).2, hkind.trans hs, rfl, ?_⟩
    · show Except.ok (readSource s).1 = _
      rw [hread]
      cases pending s <;> rfl
    · rw [hnext]
      rfl

end MultiMediaSource

/-- What some sources give in a read. -/
def column (sources : List AudioSource) (k : ℕ) : List Bytes :=
  (sources.map framesOf).filterMap (·[k]?)

theorem framesOf_of_not_hasAudio {s : AudioSource} (h : s.hasAudio = false) : framesOf s = [] := by
  cases s <;> exact if_pos (by simpa [AudioSource.hasAudio] using h)

/-- Sources that have no sound give nothing. -/
theorem column_filter (sources : List AudioSource) (k : ℕ) :
    column (sources.filter AudioSource.hasAudio) k = column sources k := by
  induction sources with
  | nil => rfl
  | cons s sources ih =>
    unfold column at ih ⊢
    cases hs : s.hasAudio with
    | true => rw [List.filter_cons_of_pos hs, List.map_cons, List.map_cons, List.filterMap_cons,
        List.filterMap_cons, ih]
    | false =>
      rw [List.filter_cons_of_neg (by simp [hs]), ih, List.map_cons, List.filterMap_cons,
        framesOf_of_not_hasAudio hs]
      rfl

theorem pending_new (s : AudioSource) : MultiMediaSource.pending (s, false) = framesOf s := by
  unfold MultiMediaSource.pending MultiMediaSource.done
  split
  · rename_i hdone
    exact (framesOf_of_isFinished (by simpa using hdone)).symm
  · rfl

/-- **What is read from some sources**: the frames of the only one, if it is of Opus, and the mix of
their frames otherwise. -/
theorem reads_new {sources : List AudioSource} {m : MultiMediaSource}
    (h : MultiMediaSource.new sources = .ok m) (n : ℕ) :
    m.reads n = (List.range n).map fun k =>
      if (sources.filter AudioSource.hasAudio).any AudioSource.isOpus then
        .ok ((column sources k).headD [])
      else pcm16Mix (column sources k) := by
  unfold MultiMediaSource.new at h
  split at h
  · cases h
  · dsimp only at h
    split at h
    · cases h
    · rename_i hkinds
      obtain rfl := Except.ok.inj h
      simp only [← column_filter sources]
      generalize sources.filter AudioSource.hasAudio = audioSources at hkinds
      cases hopus : audioSources.any AudioSource.isOpus with
      | true =>
        obtain ⟨s, rfl⟩ : ∃ s, audioSources = [s] :=
          List.length_eq_one_iff.1 (by simpa [hopus] using hkinds)
        have hs : s.isOpus = true := by simpa using hopus
        rw [List.map_singleton, MultiMediaSource.reads_opus hs, pending_new]
        rfl
      | false =>
        have hall : (audioSources.map (·, false)).all fun s => !s.1.isOpus := by
          rw [List.all_map, List.all_eq_true]
          intro s hs
          simpa using List.any_eq_false.1 hopus s hs
        rw [MultiMediaSource.reads_eq hall]
        refine List.map_congr_left fun k _ => ?_
        rw [if_neg (by simp), List.map_map]
        congr 2
        refine List.map_congr_left fun s _ => pending_new s

/-! ## Files -/

/-- The frames of a file. -/
theorem getElem?_framesOf_file (stream : Bytes) (k : ℕ) :
    (framesOf (.pcm { stream }))[k]? =
      if FRAME_SIZE * k < stream.length then
        some (padFrame ((stream.drop (FRAME_SIZE * k)).take FRAME_SIZE))
      else none := by
  rw [framesOf, if_neg (by simp), List.getElem?_map, Columns.getElem?_chunksOf (by decide)]
  split <;> rfl

theorem getD_padFrame (data : Bytes) (i : ℕ) : (padFrame data).getD i 0 = data.getD i 0 := by
  unfold padFrame
  rcases Nat.lt_or_ge i data.length with hlt | hge
  · rw [List.getD_append _ _ _ _ hlt]
  · rw [List.getD_append_right _ _ _ _ hge, List.getD_eq_default _ _ hge]
    simp [List.getD_eq_getElem?_getD, List.getElem?_replicate]
    split <;> rfl

/-- A sample of a frame of a file. -/
theorem sampleAt_frame (stream : Bytes) (k : ℕ) {i : ℕ} (hi : 2 * i + 1 < FRAME_SIZE) :
    sampleAt (padFrame ((stream.drop (FRAME_SIZE * k)).take FRAME_SIZE)) i =
      sampleAt stream (FRAME_SIZE / 2 * k + i) := by
  have hbyte {j : ℕ} (hj : j < FRAME_SIZE) :
      (padFrame ((stream.drop (FRAME_SIZE * k)).take FRAME_SIZE)).getD j 0 =
        stream.getD (FRAME_SIZE * k + j) 0 := by
    rw [getD_padFrame, List.getD_eq_getElem?_getD, List.getElem?_take_of_lt hj, List.getElem?_drop,
      List.getD_eq_getElem?_getD]
  have htwo : 2 * (FRAME_SIZE / 2 * k + i) = FRAME_SIZE * k + 2 * i := by
    have hsize : FRAME_SIZE / 2 = 1920 ∧ FRAME_SIZE = 3840 := by decide
    rw [hsize.1, hsize.2]
    omega
  rw [sampleAt, sampleAt, hbyte (by omega), hbyte hi, htwo, add_assoc]

/-- A sample of frames that are put together. -/
theorem sampleAt_flatten {blocks : List Bytes}
    (hblocks : ∀ block ∈ blocks, block.length = FRAME_SIZE) (k : ℕ) :
    sampleAt blocks.flatten k =
      sampleAt (blocks.getD (k / (FRAME_SIZE / 2)) []) (k % (FRAME_SIZE / 2)) := by
  have hsize : FRAME_SIZE / 2 = 1920 ∧ FRAME_SIZE = 3840 := by decide
  rw [sampleAt, sampleAt, Columns.getD_flatten (by decide) hblocks,
    Columns.getD_flatten (by decide) hblocks, hsize.1, hsize.2]
  have hdiv : 2 * k / 3840 = k / 1920 ∧ (2 * k + 1) / 3840 = k / 1920 := by omega
  have hmod : 2 * k % 3840 = 2 * (k % 1920) ∧ (2 * k + 1) % 3840 = 2 * (k % 1920) + 1 := by omega
  rw [hdiv.1, hdiv.2, hmod.1, hmod.2]

/-- The number of frames of a file. -/
def frameCount (stream : Bytes) : ℕ := (stream.length + FRAME_SIZE - 1) / FRAME_SIZE

theorem lt_frameCount {stream : Bytes} {k : ℕ} :
    k < frameCount stream ↔ FRAME_SIZE * k < stream.length := by
  have hsize : FRAME_SIZE = 3840 := rfl
  rw [frameCount, hsize]
  omega

/-- A file is silent behind its last frame. -/
theorem sampleAt_of_frameCount_le {stream : Bytes} {k : ℕ}
    (h : frameCount stream ≤ k / (FRAME_SIZE / 2)) : sampleAt stream k = 0 := by
  have hsize : FRAME_SIZE / 2 = 1920 ∧ FRAME_SIZE = 3840 := by decide
  refine sampleAt_of_le ?_
  rw [frameCount, hsize.1, hsize.2] at h
  omega

/-- **A read of files** that have not all ended gives a whole frame, with the sums of the samples
that they have there. -/
theorem exists_mixed_frame (files : List Bytes) {k : ℕ} (hk : ∃ file ∈ files, k < frameCount file) :
    ∃ mixed, pcm16Mix (column (files.map fun stream => .pcm { stream }) k) = .ok mixed ∧
      mixed.length = FRAME_SIZE ∧ ∀ i, 2 * i + 1 < FRAME_SIZE → sampleAt mixed i =
        clampI16 (Saturation.sum (-2 ^ 31) (2 ^ 31 - 1)
          (files.map (sampleAt · (FRAME_SIZE / 2 * k + i)))) := by
  have hcolumn : column (files.map fun stream => .pcm { stream }) k =
      files.filterMap fun stream => if FRAME_SIZE * k < stream.length then
        some (padFrame ((stream.drop (FRAME_SIZE * k)).take FRAME_SIZE)) else none := by
    rw [column, List.map_map, List.filterMap_map]
    congr 1
    funext stream
    exact getElem?_framesOf_file stream k
  have hlen : ∀ chunk ∈ column (files.map fun stream => .pcm { stream }) k,
      chunk.length = FRAME_SIZE := by
    rw [hcolumn]
    intro chunk hchunk
    obtain ⟨stream, -, hstream⟩ := List.mem_filterMap.1 hchunk
    split at hstream
    · obtain rfl := Option.some.inj hstream
      exact length_padFrame (List.length_take_le _ _)
    · cases hstream
  obtain ⟨mixed, hmixed, hmixedLen, hsample⟩ := pcm16Mix_eq fun chunk hchunk => by
    rw [hlen chunk hchunk]
    decide
  refine ⟨mixed, hmixed, ?_, fun i hi => ?_⟩
  · -- All chunks are as long as a frame, and there is one.
    obtain ⟨file, hfile, hlt⟩ := hk
    obtain ⟨hle, hmem⟩ := foldl_max
      ((column (files.map fun stream => .pcm { stream }) k).map List.length)
    rw [hmixedLen]
    have hthere : padFrame ((file.drop (FRAME_SIZE * k)).take FRAME_SIZE) ∈
        column (files.map fun stream => .pcm { stream }) k := by
      rw [hcolumn]
      exact List.mem_filterMap.2 ⟨file, hfile, if_pos (lt_frameCount.1 hlt)⟩
    have hleast := hle _ (List.mem_map_of_mem hthere)
    rw [hlen _ hthere] at hleast
    rcases hmem with hzero | hmem
    · rw [hzero] at hleast
      exact absurd hleast (by decide)
    · obtain ⟨chunk, hchunk, hmax⟩ := List.mem_map.1 hmem
      rw [← hmax]
      exact hlen chunk hchunk
  · rw [hsample, hcolumn]
    congr 1
    refine Saturation.sum_filterMap (by omega) (by omega) (fun stream hstream => ?_)
      (fun stream chunk hstream => ?_) files
    · split at hstream
      · cases hstream
      · rename_i hend
        have hsize : FRAME_SIZE / 2 = 1920 ∧ FRAME_SIZE = 3840 := by decide
        have hcount := Nat.not_lt.1 (mt lt_frameCount.1 hend)
        refine sampleAt_of_frameCount_le ?_
        rw [hsize.1]
        rw [hsize.2] at hi
        omega
    · split at hstream
      · obtain rfl := Option.some.inj hstream
        exact sampleAt_frame stream k hi
      · cases hstream

/-- The mix of files that have all ended. -/
theorem column_files_nil {files : List Bytes} {k : ℕ} (hk : ∀ file ∈ files, frameCount file ≤ k) :
    column (files.map fun stream => .pcm { stream }) k = [] := by
  rw [column, List.map_map, List.filterMap_map, List.filterMap_eq_nil_iff]
  intro file hfile
  have hend := mt lt_frameCount.2 (Nat.not_lt.2 (hk file hfile))
  exact (getElem?_framesOf_file file k).trans (if_neg hend)

/-- Files can be mixed, and none of them is Opus. -/
theorem new_files {files : List Bytes} (hne : files ≠ []) :
    (∃ m, MultiMediaSource.new (files.map fun stream => .pcm { stream }) = .ok m) ∧
      ((files.map fun stream => .pcm { stream }).filter AudioSource.hasAudio).any
        AudioSource.isOpus = false := by
  have hopus : ((files.map fun stream => .pcm { stream }).filter AudioSource.hasAudio).any
      AudioSource.isOpus = false := by
    rw [List.any_eq_false]
    intro s hs
    obtain ⟨stream, -, rfl⟩ := List.mem_map.1 (List.mem_of_mem_filter hs)
    simp [AudioSource.isOpus]
  refine ⟨⟨((files.map fun stream => .pcm { stream }).filter AudioSource.hasAudio).map (·, false),
    ?_⟩, hopus⟩
  unfold MultiMediaSource.new
  rw [if_neg (by simpa using hne)]
  dsimp only
  rw [hopus, if_neg (by simp)]

/-- The frames that are mixed of files, as long as they have not all ended. -/
theorem exists_mixed_frames (files : List Bytes) {total : ℕ}
    (hmem : total = 0 ∨ total ∈ files.map frameCount) : ∃ frame : ℕ → Bytes, ∀ k < total,
      pcm16Mix (column (files.map fun stream => .pcm { stream }) k) = .ok (frame k) ∧
        (frame k).length = FRAME_SIZE ∧ ∀ i, 2 * i + 1 < FRAME_SIZE → sampleAt (frame k) i =
          clampI16 (Saturation.sum (-2 ^ 31) (2 ^ 31 - 1)
            (files.map (sampleAt · (FRAME_SIZE / 2 * k + i)))) := by
  have hsome {k : ℕ} (hk : k < total) : ∃ file ∈ files, k < frameCount file := by
    rcases hmem with hzero | hmem
    · omega
    · obtain ⟨file, hfile, hcount⟩ := List.mem_map.1 hmem
      exact ⟨file, hfile, hcount ▸ hk⟩
  choose frame hframe using fun k (hk : k < total) => exists_mixed_frame files (hsome hk)
  refine ⟨fun k => if hk : k < total then frame k hk else [], fun k hk => ?_⟩
  dsimp only
  rw [dif_pos hk]
  exact hframe k hk

/-- **What is read from files**: as many whole frames as the longest of them has, and then nothing,
and every sample is the sum of the samples of the files there, which saturates and is clamped. A
file that has ended is silent. -/
theorem files_run (file : Bytes) (files : List Bytes) :
    ∃ m pcm, MultiMediaSource.new ((file :: files).map fun stream => .pcm { stream }) = .ok m ∧
      (∀ n, m.reads n =
        (List.range n).map fun k => .ok ((pcm.drop (FRAME_SIZE * k)).take FRAME_SIZE)) ∧
      pcm.length = FRAME_SIZE * ((file :: files).map frameCount).foldl max 0 ∧
      ∀ k, sampleAt pcm k =
        clampI16 (Saturation.sum (-2 ^ 31) (2 ^ 31 - 1) ((file :: files).map (sampleAt · k))) := by
  obtain ⟨⟨m, hm⟩, hopus⟩ := new_files (List.cons_ne_nil file files)
  generalize file :: files = all at hm hopus ⊢
  obtain ⟨hle, hmem⟩ := foldl_max (all.map frameCount)
  generalize (all.map frameCount).foldl max 0 = total at hle hmem ⊢
  have hended {k : ℕ} (hk : total ≤ k) : ∀ file ∈ all, frameCount file ≤ k := fun file hfile =>
    (hle _ (List.mem_map_of_mem hfile)).trans hk
  obtain ⟨frame, hframe⟩ := exists_mixed_frames all hmem
  have hblocks : ∀ block ∈ (List.range total).map frame, block.length = FRAME_SIZE := by
    intro block hblock
    obtain ⟨k, hk, rfl⟩ := List.mem_map.1 hblock
    exact (hframe k (List.mem_range.1 hk)).2.1
  have hsize : FRAME_SIZE / 2 = 1920 ∧ FRAME_SIZE = 3840 := by decide
  refine ⟨m, ((List.range total).map frame).flatten, hm, fun n => ?_, ?_, fun k => ?_⟩
  · rw [reads_new hm]
    refine List.map_congr_left fun k _ => ?_
    rw [hopus, if_neg (by simp), Columns.take_drop_flatten (by decide) hblocks,
      List.getD_eq_getElem?_getD, List.getElem?_map]
    rcases Nat.lt_or_ge k total with hlt | hge
    · rw [List.getElem?_range hlt]
      exact (hframe k hlt).1
    · rw [column_files_nil (hended hge), List.getElem?_eq_none (by simpa using hge)]
      rfl
  · have hlens : ((List.range total).map frame).map List.length =
        (List.range total).map fun _ => FRAME_SIZE := by
      rw [List.map_map]
      exact List.map_congr_left fun k hk => (hframe k (List.mem_range.1 hk)).2.1
    rw [List.length_flatten, hlens]
    simp [mul_comm]
  · rw [sampleAt_flatten hblocks, List.getD_eq_getElem?_getD, List.getElem?_map, hsize.1]
    rcases Nat.lt_or_ge (k / 1920) total with hlt | hge
    · rw [List.getElem?_range hlt, Option.map_some, Option.getD_some,
        (hframe _ hlt).2.2 _ (by rw [hsize.2]; omega), hsize.1, Nat.div_add_mod]
    · have hsilent : ∀ file ∈ all, sampleAt file k = 0 := fun file hfile =>
        sampleAt_of_frameCount_le (hsize.1 ▸ hended hge file hfile)
      rw [List.getElem?_eq_none (by simpa using hge),
        List.map_congr_left (g := fun _ => (0 : ℤ)) hsilent, List.map_const',
        Saturation.sum_replicate_zero (by omega) (by omega), Option.map_none, Option.getD_none,
        sampleAt_of_le (Nat.zero_le _)]
      rfl

end NativeVoice.Media
