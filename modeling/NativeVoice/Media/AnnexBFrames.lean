import NativeVoice.Media.AnnexBScan

/-!
# Access units across reads

What `_AnnexBFrameReader` should return for a stream, and what it does once it has met a delimiter.

* `accessUnits`: the slices of the stream from each access unit delimiter to the next, and to its
  end.
* `ReadsAccessUnits`: the frames are these, up to the empty one at the end.
* `Following`: the reader with a delimiter at the start of its buffer, and
  `Following.readFrames_iff`: what it returns are the slices from there on exactly when the reads
  leave the search undisturbed.

The reader remembers its cursor across reads. It errs where that is the second byte of a start code
of four bytes, for then the scan finds the delimiter once more, as one of three bytes.
-/

namespace NativeVoice.Media

open AnnexBFrameReader

/-! ## The access units of a stream -/

/-- The access unit delimiters from `c` on. -/
def audsFrom (codec : NalCodec) (S : Bytes) (c : ℕ) : List ℕ :=
  (List.range' c (S.length - c)).filter fun i => (audLength codec S 0 i).isSome

/-- The bytes from each position to the next, and from the last to the end. -/
def slices (S : Bytes) : List ℕ → List Bytes
  | [] => []
  | [o] => [S.drop o]
  | o :: p :: rest => (S.take p).drop o :: slices S (p :: rest)

def accessUnits (codec : NalCodec) (S : Bytes) : List Bytes :=
  slices S (audsFrom codec S 0)

/-- Where the delimiter at `p` ends, with the header of its NAL unit. -/
def audEnd (codec : NalCodec) (S : Bytes) (p : ℕ) : ℕ :=
  p + (audLength codec S 0 p).getD 0 + codec.headerLength

/-- The places at which the reader asks for one of these chunks, the first of them at `n`. -/
def cutsFrom : ℕ → List Bytes → List ℕ
  | _, [] => []
  | n, chunk :: chunks => n :: cutsFrom (n + chunk.length) chunks

/-- No chunk ends with the byte behind a start code of four bytes of a delimiter, but for the
last. -/
def Undisturbed (codec : NalCodec) (S : Bytes) (n : ℕ) (chunks : List Bytes) : Prop :=
  ∀ b ∈ cutsFrom n chunks, ∀ p, audLength codec S 0 p = some 4 → b ≠ p + 5

/-- The frames of a stream that is read in these chunks are its access units, and then none. -/
def ReadsAccessUnits (codec : NalCodec) (chunks : List Bytes) : Prop :=
  readFrames ((accessUnits codec chunks.flatten).length + 1) { codec } chunks =
    accessUnits codec chunks.flatten ++ [[]]

instance (codec : NalCodec) (chunks : List Bytes) : Decidable (ReadsAccessUnits codec chunks) :=
  inferInstanceAs (Decidable (_ = _))

section Delimiters

variable {codec : NalCodec} {S : Bytes} {c i p length : ℕ} {rest : List ℕ}

theorem length_of_audLength (h : audLength codec S c p = some length) :
    length = 3 ∨ length = 4 := by
  rw [audLength_eq_some, codeLength_eq_some] at h
  obtain ⟨⟨-, h | h⟩, -⟩ := h
  · exact .inr h.2
  · exact .inl h.2.2

theorem le_of_audLength (h : audLength codec S c p = some length) : c ≤ p :=
  (codeLength_eq_some.1 (audLength_eq_some.1 h).1).1

/-- A delimiter lies within the stream, with its header. -/
theorem audLength_le (h : audLength codec S 0 p = some length) :
    p + length + codec.headerLength ≤ S.length := by
  have hwindow : audLength codec ((S.take S.length).drop 0) 0 p = some length ↔ _ :=
    audLength_window
  rw [List.take_length, List.drop_zero, Nat.zero_add, Nat.zero_add] at hwindow
  exact (hwindow.1 h).2

theorem audLength_separated {length' : ℕ} (hp : audLength codec S c p = some length)
    (hi : audLength codec S c i = some length') (hlt : p < i) : p + length ≤ i :=
  codeLength_separated (audLength_eq_some.1 hp).1 (audLength_eq_some.1 hi).1 hlt

/-- The second byte of a start code of four bytes is not where a delimiter starts. -/
theorem audLength_second (h : audLength codec S 0 p = some 4) :
    audLength codec S 0 (p + 1) = none := by
  rw [Option.eq_none_iff_forall_ne_some]
  intro length hsecond
  have := audLength_separated h hsecond (Nat.lt_succ_self p)
  omega

/-- But a search that begins there sees one. -/
theorem audLength_from_second (h : audLength codec S 0 p = some 4) :
    audLength codec S (p + 1) (p + 1) = some 3 := by
  rw [audLength_eq_some, codeLength_eq_some] at h ⊢
  obtain ⟨⟨-, ⟨hfour, -⟩ | ⟨-, -, hlength⟩⟩, htype⟩ := h
  · exact ⟨⟨le_rfl, .inr ⟨hfour.2, fun h => absurd h.1 (lt_irrefl _), rfl⟩⟩, htype⟩
  · cases hlength

theorem audsFrom_eq_nil : audsFrom codec S c = [] ↔ ∀ i, c ≤ i → audLength codec S 0 i = none := by
  rw [audsFrom, List.filter_eq_nil_iff]
  constructor
  · intro h i hi
    rw [← Option.not_isSome_iff_eq_none]
    intro hsome
    obtain ⟨length, hlength⟩ := Option.isSome_iff_exists.1 hsome
    have := audLength_le hlength
    have := length_of_audLength hlength
    exact h i (List.mem_range'_1.2 (by omega)) hsome
  · intro h i hi
    rw [h i (List.mem_range'_1.1 hi).1]
    exact Bool.false_ne_true

theorem audsFrom_eq_cons (h : audsFrom codec S c = p :: rest) :
    c ≤ p ∧ (∃ length, audLength codec S 0 p = some length) ∧
      (∀ j, c ≤ j → j < p → audLength codec S 0 j = none) ∧ audsFrom codec S (p + 1) = rest := by
  rw [audsFrom, List.filter_eq_cons_iff] at h
  obtain ⟨before, after, hrange, hbefore, hp, hrest⟩ := h
  obtain ⟨k, hk, hbefore', hafter⟩ := List.range'_eq_append_iff.1 hrange
  obtain ⟨hpk, hlength, hafter'⟩ := List.range'_eq_cons_iff.1 hafter.symm
  refine ⟨by omega, Option.isSome_iff_exists.1 hp, fun j hj hjp => ?_, ?_⟩
  · rw [← Option.not_isSome_iff_eq_none]
    refine hbefore j ?_
    rw [hbefore', List.mem_range'_1]
    omega
  · rw [← hrest, hafter', audsFrom]
    congr 2
    omega

theorem mem_audsFrom :
    p ∈ audsFrom codec S c ↔ c ≤ p ∧ ∃ length, audLength codec S 0 p = some length := by
  rw [audsFrom, List.mem_filter, List.mem_range'_1, Option.isSome_iff_exists]
  constructor
  · rintro ⟨hrange, hp⟩
    exact ⟨hrange.1, hp⟩
  · rintro ⟨hle, length, hp⟩
    have := audLength_le hp
    have := length_of_audLength hp
    exact ⟨by omega, length, hp⟩

theorem audEnd_eq (h : audLength codec S 0 p = some length) :
    audEnd codec S p = p + length + codec.headerLength := by
  rw [audEnd, h, Option.getD_some]

theorem audEnd_le (hp : p ∈ audsFrom codec S c) : audEnd codec S p ≤ S.length := by
  obtain ⟨-, length, hlength⟩ := mem_audsFrom.1 hp
  rw [audEnd_eq hlength]
  exact audLength_le hlength

theorem exists_complete {n : ℕ} (h : ¬ ∀ q ∈ rest.head?, n < audEnd codec S q) :
    ∃ q rest', rest = q :: rest' ∧ audEnd codec S q ≤ n := by
  cases rest with
  | nil => exact absurd (fun q hq => by cases hq) h
  | cons q rest' =>
    refine ⟨q, rest', rfl, Nat.le_of_not_lt fun hlt => h fun q' hq' => ?_⟩
    cases hq'
    exact hlt

/-- Where the first delimiter is not complete, none is. -/
theorem lt_audEnd {n : ℕ} (h : ∀ q ∈ (audsFrom codec S c).head?, n < audEnd codec S q) (hc : c ≤ p)
    (hp : audLength codec S 0 p = some length) : n < p + length + codec.headerLength := by
  match hauds : audsFrom codec S c with
  | [] =>
    rw [audsFrom_eq_nil.1 hauds p hc] at hp
    cases hp
  | q :: rest =>
    obtain ⟨-, ⟨length', hq⟩, hfirst, -⟩ := audsFrom_eq_cons hauds
    have hn := h q (by rw [hauds]; rfl)
    rw [audEnd_eq hq] at hn
    rcases Nat.lt_trichotomy p q with hlt | rfl | hlt
    · rw [hfirst p hc hlt] at hp
      cases hp
    · rw [hq] at hp
      cases hp
      exact hn
    · have := audLength_separated hq hp hlt
      have := length_of_audLength hp
      omega

/-! ## The cursor -/

/-- A cursor that is not at the second byte of the start code of a delimiter. -/
def Clean (codec : NalCodec) (S : Bytes) (c : ℕ) : Prop :=
  ∀ p, audLength codec S 0 p = some 4 → c ≠ p + 1

/-- From such a cursor a search sees the delimiters that follow. -/
theorem Clean.audLength (hc : Clean codec S c) :
    audLength codec S c i = some length ↔ c ≤ i ∧ audLength codec S 0 i = some length := by
  rw [audLength_eq_some, audLength_eq_some, codeLength_eq_some, codeLength_eq_some]
  constructor
  · rintro ⟨⟨hle, hfour | ⟨hthree, hnot, rfl⟩⟩, htype⟩
    · exact ⟨hle, ⟨Nat.zero_le i, .inl hfour⟩, htype⟩
    · refine ⟨hle, ⟨Nat.zero_le i, .inr ⟨hthree, fun h => ?_, rfl⟩⟩, htype⟩
      -- the start code has four bytes, and the cursor is at the second
      obtain rfl : c = i := Nat.le_antisymm hle (Nat.le_of_not_lt fun hlt => hnot ⟨hlt, h.2⟩)
      refine hc (c - 1) (audLength_eq_some.2
        ⟨codeLength_eq_some.2 ⟨Nat.zero_le _, .inl ⟨h.2, rfl⟩⟩, ?_⟩) (Nat.sub_add_cancel h.1).symm
      rw [show c - 1 + 4 = c + 3 by omega]
      exact htype
  · rintro ⟨hle, ⟨-, hfour | ⟨hthree, hnot, rfl⟩⟩, htype⟩
    · exact ⟨⟨hle, .inl hfour⟩, htype⟩
    · exact ⟨⟨hle, .inr ⟨hthree, fun h => hnot ⟨by omega, h.2⟩, rfl⟩⟩, htype⟩

theorem clean_zero : Clean codec S 0 := fun p _ => (Nat.succ_ne_zero p).symm

theorem clean_behind (hp : audLength codec S 0 p = some length) : Clean codec S (p + length) := by
  intro q hq heq
  have hlength := length_of_audLength hp
  rcases Nat.lt_trichotomy p q with hlt | rfl | hlt
  · have := audLength_separated hp hq hlt
    omega
  · omega
  · have := audLength_separated hq hp hlt
    omega

/-- The last four bytes begin at such a cursor, unless the bytes end with the first of the header of
a delimiter with a start code of four bytes. -/
theorem clean_last {n : ℕ} (hn : ∀ p, audLength codec S 0 p = some 4 → n ≠ p + 5) :
    Clean codec S (n - 4) := by
  intro p hp heq
  have := hn p hp
  omega

/-- There no delimiter is behind, when none is complete. -/
theorem last_le {n : ℕ} (hn : ∀ p, audLength codec S 0 p = some 4 → n ≠ p + 5)
    (hp : audLength codec S 0 p = some length) (hend : n < p + length + codec.headerLength) :
    n - 4 ≤ p := by
  have hthree := length_of_audLength hp
  have hfour (h4 : length = 4) := hn p (h4 ▸ hp)
  cases codec with
  | h264 =>
    simp only [NalCodec.headerLength] at hend
    omega
  | h265 =>
    simp only [NalCodec.headerLength] at hend
    omega

end Delimiters

/-! ## Slices -/

section Slices

variable {codec : NalCodec} {S : Bytes} {c o : ℕ} {positions rest : List ℕ}

theorem length_slices : (slices S positions).length = positions.length := by
  induction positions using slices.induct with
  | case1 => rfl
  | case2 o => rfl
  | case3 o p rest ih => rw [slices, List.length_cons, ih, List.length_cons (a := o)]

/-- The slices at the delimiters are the stream from the first of them on. -/
theorem flatten_slices (h : audsFrom codec S c = o :: rest) :
    (slices S (o :: rest)).flatten = S.drop o := by
  induction rest generalizing c o with
  | nil => rw [slices, List.flatten_singleton]
  | cons p rest ih =>
    obtain ⟨-, -, -, hrest⟩ := audsFrom_eq_cons h
    obtain ⟨hop, ⟨length, hp⟩, -, -⟩ := audsFrom_eq_cons hrest
    have hle := audLength_le hp
    rw [slices, List.flatten_cons, ih hrest]
    calc (S.take p).drop o ++ S.drop p
        = (S.take p ++ S.drop p).drop o := by
          rw [List.drop_append_of_le_length]
          rw [List.length_take]
          omega
      _ = S.drop o := by rw [List.take_append_drop]

theorem le_length_slices {p : ℕ} (hp : p ∈ audsFrom codec S c) :
    S.length - p ≤ (slices S (audsFrom codec S c)).flatten.length := by
  match hauds : audsFrom codec S c with
  | [] =>
    rw [hauds] at hp
    cases hp
  | q :: rest =>
    obtain ⟨-, -, hfirst, -⟩ := audsFrom_eq_cons hauds
    obtain ⟨hcp, length, hlength⟩ := mem_audsFrom.1 hp
    have hqp : q ≤ p := by
      by_contra hlt
      rw [hfirst p hcp (by omega)] at hlength
      cases hlength
    rw [flatten_slices hauds, List.length_drop]
    omega

end Slices

/-! ## Calls of `read_frame` -/

section Calls

variable {d e : AnnexBFrameReader} {k : ℕ} {frame chunk : Bytes} {chunks : List Bytes}

theorem readFrame_nil (d : AnnexBFrameReader) : d.readFrame [] =
    if d.extractFrame.1.getD [] ≠ [] then (d.extractFrame.1.getD [], d.extractFrame.2, [])
    else (d.extractFrame.2.finish.1, d.extractFrame.2.finish.2, []) := by
  rw [readFrame]

theorem readFrame_cons (d : AnnexBFrameReader) : d.readFrame (chunk :: chunks) =
    if d.extractFrame.1.getD [] ≠ [] then
      (d.extractFrame.1.getD [], d.extractFrame.2, chunk :: chunks)
    else if chunk = [] then (d.extractFrame.2.finish.1, d.extractFrame.2.finish.2, chunks)
    else readFrame { d.extractFrame.2 with buffer := d.extractFrame.2.buffer ++ chunk } chunks := by
  rw [readFrame]

theorem readFrames_succ (d : AnnexBFrameReader) : readFrames (k + 1) d chunks =
    (d.readFrame chunks).1 :: readFrames k (d.readFrame chunks).2.1 (d.readFrame chunks).2.2 := rfl

theorem readFrames_congr (h : d.extractFrame = e.extractFrame) :
    readFrames k d chunks = readFrames k e chunks := by
  cases k with
  | zero => rfl
  | succ k =>
    have hread : d.readFrame chunks = e.readFrame chunks := by
      cases chunks with
      | nil => rw [readFrame_nil, readFrame_nil, h]
      | cons chunk chunks => rw [readFrame_cons, readFrame_cons, h]
    rw [readFrames_succ, readFrames_succ, hread]

theorem readFrames_of_frame (h : d.extractFrame = (some frame, e)) (hframe : frame ≠ []) :
    readFrames (k + 1) d chunks = frame :: readFrames k e chunks := by
  cases chunks with
  | nil => simp only [readFrames_succ, readFrame_nil, h, Option.getD_some, if_pos hframe]
  | cons chunk chunks =>
    simp only [readFrames_succ, readFrame_cons, h, Option.getD_some, if_pos hframe]

theorem readFrames_of_chunk (h : d.extractFrame = (none, e)) (hchunk : chunk ≠ []) :
    readFrames (k + 1) d (chunk :: chunks) =
      readFrames (k + 1) { e with buffer := e.buffer ++ chunk } chunks := by
  simp only [readFrames_succ, readFrame_cons, h, Option.getD_none, ne_eq, not_true, if_false,
    if_neg hchunk]

theorem readFrames_of_end (h : d.extractFrame = (none, e)) :
    readFrames (k + 1) d [] = e.buffer :: readFrames k { e with buffer := [] } [] := by
  simp only [readFrames_succ, readFrame_nil, h, Option.getD_none, ne_eq, not_true, if_false, finish]

/-- The scan keeps the bytes, and the positions there are. -/
theorem scanForAuds_keeps (d : AnnexBFrameReader) :
    d.scanForAuds.buffer = d.buffer ∧ d.audPositions <+: d.scanForAuds.audPositions := by
  induction d using scanForAuds.induct with
  | case1 d h hstart =>
    rw [scanForAuds, if_pos h]
    split
    · exact ⟨rfl, List.prefix_rfl⟩
    · rename_i heq
      rw [hstart] at heq
      cases heq
  | case2 d h start length hstart ih =>
    rw [scanForAuds, if_pos h]
    split
    · exact ⟨rfl, List.prefix_rfl⟩
    · rename_i heq
      rw [hstart] at heq
      cases heq
      refine ⟨ih.1, List.IsPrefix.trans ?_ ih.2⟩
      dsimp only
      split
      · exact List.prefix_append _ _
      · exact List.prefix_rfl
  | case3 d h =>
    rw [scanForAuds, if_neg h]
    exact ⟨rfl, List.prefix_rfl⟩

/-- Where the first position is not the start of the buffer, the bytes before it are cut off. -/
theorem extractFrame_of_pos {first : ℕ} {positions : List ℕ}
    (h : d.scanForAuds.audPositions = first :: positions) (hfirst : 0 < first) :
    d.extractFrame = (none, { d.scanForAuds with
      buffer := d.scanForAuds.buffer.drop first
      audPositions := (first :: positions).map (· - first)
      searchPos := d.scanForAuds.searchPos - first }) := by
  rw [extractFrame]
  split
  · rename_i heq
    rw [h] at heq
    cases heq
  · rename_i heq
    rw [h] at heq
    cases heq
    rw [if_pos hfirst]

/-- A pass makes no bytes. -/
theorem extractFrame_length_le (d : AnnexBFrameReader) :
    (d.extractFrame.1.getD []).length + d.extractFrame.2.buffer.length ≤ d.buffer.length := by
  rw [← (scanForAuds_keeps d).1, extractFrame]
  split
  · split <;> simp
  · split
    · simp
    · split
      · simp
      · simp
        omega

theorem readFrame_length_le (d : AnnexBFrameReader) (chunks : List Bytes) :
    (d.readFrame chunks).1.length + (d.readFrame chunks).2.1.buffer.length +
      (d.readFrame chunks).2.2.flatten.length ≤ d.extractFrame.2.buffer.length +
        (d.extractFrame.1.getD []).length + chunks.flatten.length := by
  induction chunks generalizing d with
  | nil =>
    rw [readFrame_nil]
    split
    · dsimp only
      omega
    · simp [finish]
  | cons chunk chunks ih =>
    rw [readFrame_cons]
    split
    · dsimp only
      omega
    · split
      · simp [finish]
        omega
      · have hread := ih { d.extractFrame.2 with buffer := d.extractFrame.2.buffer ++ chunk }
        have hpass := extractFrame_length_le
          { d.extractFrame.2 with buffer := d.extractFrame.2.buffer ++ chunk }
        rw [List.length_append] at hpass
        rw [List.flatten_cons, List.length_append]
        omega

/-- The frames hold no more bytes than there are left after the pass of the first call. -/
theorem readFrames_length_le (k : ℕ) (d : AnnexBFrameReader) (chunks : List Bytes) :
    (readFrames k d chunks).flatten.length ≤
    d.extractFrame.2.buffer.length + (d.extractFrame.1.getD []).length + chunks.flatten.length := by
  induction k generalizing d chunks with
  | zero => exact Nat.zero_le _
  | succ k ih =>
    have hread := readFrame_length_le d chunks
    have hrest := ih (d.readFrame chunks).2.1 (d.readFrame chunks).2.2
    have hpass := extractFrame_length_le (d.readFrame chunks).2.1
    rw [readFrames_succ, List.flatten_cons, List.length_append]
    omega

/-- At the end of the stream, with nothing in the buffer. -/
theorem readFrames_of_empty (h : d.buffer = []) : readFrames 1 d [] = [[]] := by
  have hlength := readFrames_length_le 1 d []
  have hpass := extractFrame_length_le d
  rw [h] at hpass
  rw [readFrames_succ, readFrames] at hlength ⊢
  simp only [List.flatten_cons, List.flatten_nil, List.append_nil, List.length_nil] at hlength hpass
  have hnil : (d.readFrame []).1 = [] := List.length_eq_zero_iff.1 (by omega)
  rw [hnil]

end Calls

/-! ## Passes over a window -/

section Passes

variable {codec : NalCodec} {S : Bytes} {o n c p q length : ℕ} {rest : List ℕ}

theorem extractFrame_congr {d e : AnnexBFrameReader} (h : d.scanForAuds = e.scanForAuds) :
    d.extractFrame = e.extractFrame := by
  rw [extractFrame, extractFrame, h]

theorem scanForAuds_window_two :
    (window codec S o n c [p, q]).scanForAuds = window codec S o n c [p, q] := by
  rw [scanForAuds]
  exact if_neg (Nat.lt_irrefl 2)

/-- Between two delimiters, the first of them at the start of the window, is a frame. -/
theorem extractFrame_of_two (hop : o ≤ p) (hpn : p ≤ n) :
    (window codec S o n c [o, p]).extractFrame =
      (some ((S.take p).drop o), window codec S p n c [p]) := by
  have hframe : ((S.take n).drop o).take (p - o) = (S.take p).drop o := by
    rw [List.take_drop, List.take_take, Nat.add_sub_of_le hop, Nat.min_eq_left hpn]
  rw [extractFrame, scanForAuds_window_two]
  simp only [window, List.map_cons, List.map_nil, Nat.sub_self, gt_iff_lt, lt_irrefl, if_false,
    hframe, List.drop_drop, Nat.add_sub_of_le hop, Nat.sub_sub_sub_cancel_right hop]

/-- The bytes before the first delimiter are cut off. -/
theorem extractFrame_of_before (positions : List ℕ) (hoq : o < q)
    (hpositions : ∀ r ∈ positions, q ≤ r)
    (hscan : (window codec S o n c []).scanForAuds = window codec S o n p (q :: positions)) :
    (window codec S o n c []).extractFrame = (none, window codec S q n p (q :: positions)) := by
  have hcut : positions.map ((· - (q - o)) ∘ (· - o)) = positions.map (· - q) := by
    refine List.map_congr_left fun r hr => ?_
    have := hpositions r hr
    simp only [Function.comp_apply]
    omega
  rw [extractFrame_of_pos (by rw [hscan]; rfl) (Nat.sub_pos_of_lt hoq), hscan]
  simp only [window, List.map_cons, List.map_map, hcut, List.drop_drop, Nat.add_sub_of_le hoq.le,
    Nat.sub_sub_sub_cancel_right hoq.le, Nat.sub_self]

/-- With one delimiter, at the start of the window, there is no frame yet. -/
theorem extractFrame_of_one {c' : ℕ}
    (hscan : (window codec S o n c [o]).scanForAuds = window codec S o n c' [o]) :
    (window codec S o n c [o]).extractFrame = (none, window codec S o n c' [o]) := by
  rw [extractFrame, hscan]
  simp only [window, List.map_cons, List.map_nil, Nat.sub_self, gt_iff_lt, lt_irrefl, if_false]

/-- With none, at most the window is cut to its last bytes. -/
theorem extractFrame_of_nil (hn : n ≤ S.length) (ho : o = 0 ∨ o + 5 ≤ n)
    (hscan : (window codec S o n c []).scanForAuds = window codec S o n (n - 4) []) :
    ∃ o', (o' = 0 ∨ o' + 5 ≤ n) ∧
      (window codec S o n c []).extractFrame = (none, window codec S o' n (n - 4) []) := by
  rw [extractFrame, hscan, length_window hn]
  simp only [window, List.map_nil]
  split
  · refine ⟨n - 1024, by omega, ?_⟩
    rw [List.drop_drop, show o + (n - o - 1024) = n - 1024 by omega,
      show n - 4 - o - (n - o - 1024) = n - 4 - (n - 1024) by omega]
  · exact ⟨o, ho, rfl⟩

end Passes

/-! ## Behind the first delimiter -/

/-- The reader has a delimiter at the start of its window, and `rest` are those that follow it. -/
structure Following (codec : NalCodec) (S : Bytes) (o n c : ℕ) (rest : List ℕ) : Prop where
  le : n ≤ S.length
  cursor : o ≤ c
  clean : Clean codec S c
  auds : audsFrom codec S (o + 1) = rest
  ahead : ∀ p length, o < p → audLength codec S 0 p = some length → c ≤ p
  aud : ∃ length, audLength codec S 0 o = some length ∧ o + length + codec.headerLength ≤ n

section Following

variable {codec : NalCodec} {S chunk : Bytes} {o n c p : ℕ} {rest : List ℕ} {chunks : List Bytes}

/-- The delimiter that follows is complete: the scan stops behind it. -/
theorem Following.scan_found (h : Following codec S o n c (p :: rest)) (hp : audEnd codec S p ≤ n)
    {o' : ℕ} (ho' : o' ≤ o) :
    ∃ c', (window codec S o' n c [o]).scanForAuds = window codec S o' n c' [o, p] ∧
      Following codec S p n c' rest := by
  obtain ⟨hle, ⟨length, hlength⟩, hfirst, hrest⟩ := audsFrom_eq_cons h.auds
  rw [audEnd_eq hlength] at hp
  have hcursor := h.cursor
  refine ⟨p + length, ?_, ?_⟩
  · rw [← scanForAuds_window_two]
    refine scanForAuds_window_of_new [o] (by omega) (Nat.lt_succ_self 1) (by simpa)
      (h.clean.audLength.2 ⟨h.ahead p length hle hlength, hlength⟩) hp (by simp; omega)
      fun j length' hj hlength' _ => ?_
    obtain ⟨hcj, hj'⟩ := h.clean.audLength.1 hlength'
    obtain rfl : o = j := by
      by_contra hne
      rw [hfirst j (by omega) hj] at hj'
      cases hj'
    rfl
  · exact ⟨h.le, Nat.le_add_right p length, clean_behind hlength, hrest,
      fun p' length' hlt hp' => audLength_separated hlength hp' hlt, length, hlength, hp⟩

/-- It is not, or there is none: the cursor is left at the last four bytes. -/
theorem Following.scan_last (h : Following codec S o n c rest)
    (hrest : ∀ q ∈ rest.head?, n < audEnd codec S q) {o' : ℕ} (ho' : o' ≤ o) :
    (window codec S o' n c [o]).scanForAuds = window codec S o' n (n - 4) [o] := by
  rw [← h.auds] at hrest
  obtain ⟨length, hlength, hn⟩ := h.aud
  have hcursor := h.cursor
  have hfour : o + 4 ≤ n := by
    have := length_of_audLength hlength
    have := codec.one_le_headerLength
    omega
  have hnone (j length' : ℕ) (hj : audLength codec S c j = some length')
      (hle : j + length' + codec.headerLength ≤ n) : [o].getLast? = some j := by
    obtain ⟨hcj, hj'⟩ := h.clean.audLength.1 hj
    obtain rfl : o = j := by
      by_contra hne
      have := lt_audEnd hrest (by omega) hj'
      omega
    rfl
  have hscan := scanForAuds_window_of_none (o := o') [o] h.le (by omega)
    (Nat.lt_succ_self 1) (by simpa) hnone
  rw [show o' + (n - o' - 4) = n - 4 by omega] at hscan
  exact hscan

theorem Following.found (h : Following codec S o n c (p :: rest)) (hp : audEnd codec S p ≤ n) :
    ∃ c', (window codec S o n c [o]).extractFrame =
      (some ((S.take p).drop o), window codec S p n c' [p]) ∧ Following codec S p n c' rest := by
  obtain ⟨c', hscan, hnext⟩ := h.scan_found hp le_rfl
  obtain ⟨hle, -⟩ := audsFrom_eq_cons h.auds
  obtain ⟨length, -, haud⟩ := hnext.aud
  rw [← scanForAuds_window_two] at hscan
  refine ⟨c', ?_, hnext⟩
  rw [extractFrame_congr hscan]
  exact extractFrame_of_two (by omega) (by omega)

theorem Following.last (h : Following codec S o n c rest)
    (hrest : ∀ q ∈ rest.head?, n < audEnd codec S q) :
    (window codec S o n c [o]).extractFrame = (none, window codec S o n (n - 4) [o]) :=
  extractFrame_of_one (h.scan_last hrest le_rfl)

/-- Then the next chunk is read, if the cursor is not at the second byte of a start code. -/
theorem Following.read (h : Following codec S o n c rest)
    (hrest : ∀ q ∈ rest.head?, n < audEnd codec S q)
    (hn : ∀ p, audLength codec S 0 p = some 4 → n ≠ p + 5) {n' : ℕ} (hn' : n ≤ n')
    (hle : n' ≤ S.length) :
    Following codec S o n' (n - 4) rest := by
  rw [← h.auds] at hrest
  obtain ⟨length, hlength, haud⟩ := h.aud
  have hthree := length_of_audLength hlength
  have hheader := codec.one_le_headerLength
  exact ⟨hle, by omega, clean_last hn, h.auds,
    fun p length' hlt hp => last_le hn hp (lt_audEnd hrest hlt hp), length, hlength, haud.trans hn'⟩

theorem Following.mono (h : Following codec S o n c rest) {n' : ℕ} (hn' : n ≤ n')
    (hle : n' ≤ S.length) : Following codec S o n' c rest := by
  obtain ⟨length, hlength, haud⟩ := h.aud
  exact ⟨hle, h.cursor, h.clean, h.auds, h.ahead, length, hlength, haud.trans hn'⟩

/-- If it is, the frame that is found ends behind the first byte of that start code. -/
theorem Following.disturbed (h : Following codec S o n c rest) (hp : audLength codec S 0 p = some 4)
    (hn : n = p + 5) {n' : ℕ} (hn' : n < n') :
    o ≤ p ∧ ∃ e,
      (window codec S o n' (n - 4) [o]).extractFrame = (some ((S.take (p + 1)).drop o), e) := by
  obtain ⟨length, hlength, haud⟩ := h.aud
  have hthree := length_of_audLength hlength
  have hop : o ≤ p := by
    by_contra hlt
    have := audLength_separated hp hlength (by omega)
    have := codec.one_le_headerLength
    omega
  refine ⟨hop, ?_⟩
  have hscan := scanForAuds_window_of_new (n := n') [o] (by omega : o ≤ p + 1)
    (Nat.lt_succ_self 1) (by simp) (audLength_from_second hp)
    (by cases codec <;> simp only [NalCodec.headerLength] <;> omega) (by simp; omega)
    (fun j length' hj hlength' _ => absurd (le_of_audLength hlength') (by omega))
  rw [show n - 4 = p + 1 by omega, extractFrame_congr hscan]
  exact ⟨_, extractFrame_of_two (by omega) (by omega)⟩

theorem length_le_of_drop_nil (hstream : S.drop n = [].flatten) : S.length ≤ n := by
  rw [List.flatten_nil, List.drop_eq_nil_iff] at hstream
  exact hstream

theorem undisturbed_nil : Undisturbed codec S n [] := by
  simp [Undisturbed, cutsFrom]

theorem undisturbed_cons : Undisturbed codec S n (chunk :: chunks) ↔
    (∀ p, audLength codec S 0 p = some 4 → n ≠ p + 5) ∧
      Undisturbed codec S (n + chunk.length) chunks := by
  simp [Undisturbed, cutsFrom]

theorem length_le_of_drop (hstream : S.drop n = (chunk :: chunks).flatten) (hn : n ≤ S.length) :
    n + chunk.length ≤ S.length := by
  have hlength := congrArg List.length hstream
  rw [List.length_drop, List.flatten_cons, List.length_append] at hlength
  omega

theorem drop_of_drop (hstream : S.drop n = (chunk :: chunks).flatten) :
    S.drop (n + chunk.length) = chunks.flatten := by
  rw [← List.drop_drop, hstream, List.flatten_cons, List.drop_left]

/-- A first frame that ends behind the first byte of a start code is not one of the slices. -/
theorem ne_slices (hrest : audsFrom codec S (o + 1) = rest) (hp : audLength codec S 0 p = some 4)
    (hop : o ≤ p) (frames tail : List Bytes) :
    (S.take (p + 1)).drop o :: frames ≠ slices S (o :: rest) ++ tail := by
  intro heq
  have hp' := audLength_le hp
  cases rest with
  | nil =>
    rw [slices, List.singleton_append] at heq
    have hlength := congrArg List.length (List.cons.inj heq).1
    rw [List.length_drop, List.length_take, List.length_drop] at hlength
    omega
  | cons r rest =>
    rw [slices, List.cons_append] at heq
    obtain ⟨-, ⟨length, hr⟩, -, -⟩ := audsFrom_eq_cons hrest
    have hr' := audLength_le hr
    have hlength := congrArg List.length (List.cons.inj heq).1
    rw [List.length_drop, List.length_take, List.length_drop, List.length_take] at hlength
    obtain rfl : r = p + 1 := by omega
    rw [audLength_second hp] at hr
    cases hr

/-- **The reader behind a delimiter.** The frames that follow are the slices at the delimiters
exactly when no chunk disturbs the search. -/
theorem Following.readFrames_iff (h : Following codec S o n c rest)
    (hstream : S.drop n = chunks.flatten) (hchunks : ∀ chunk ∈ chunks, chunk ≠ []) :
    readFrames (rest.length + 2) (window codec S o n c [o]) chunks = slices S (o :: rest) ++ [[]] ↔
      Undisturbed codec S n chunks := by
  induction hk : chunks.length + rest.length using Nat.strong_induction_on
    generalizing o n c rest chunks with
  | h k ih =>
    subst hk
    by_cases hrest : ∀ q ∈ rest.head?, n < audEnd codec S q
    · have hlast := h.last hrest
      cases chunks with
      | nil =>
        have hn := length_le_of_drop_nil hstream
        cases rest with
        | nil =>
          have hframes := readFrames_of_end (k := 1) hlast
          rw [readFrames_of_empty rfl, buffer_window_of_le hn] at hframes
          exact iff_of_true hframes undisturbed_nil
        | cons q rest =>
          have hend := hrest q rfl
          have hq : q ∈ audsFrom codec S (o + 1) := by
            rw [h.auds]
            exact List.mem_cons_self
          have hle := audEnd_le hq
          omega
      | cons chunk chunks =>
        have hle := length_le_of_drop hstream h.le
        have hon : o ≤ n := by
          obtain ⟨length, -, haud⟩ := h.aud
          omega
        have hpos : 0 < chunk.length := List.length_pos_of_ne_nil (hchunks chunk List.mem_cons_self)
        rw [readFrames_of_chunk hlast (hchunks chunk List.mem_cons_self), undisturbed_cons,
          window_append h.le hon (hstream.trans List.flatten_cons)]
        by_cases hn : ∀ p, audLength codec S 0 p = some 4 → n ≠ p + 5
        · rw [and_iff_right hn]
          exact ih _ (by simp) (h.read hrest hn (Nat.le_add_right _ _) hle) (drop_of_drop hstream)
            (fun chunk' h' => hchunks chunk' (List.mem_cons_of_mem _ h')) rfl
        · refine iff_of_false ?_ fun h => hn h.1
          push Not at hn
          obtain ⟨p, hp, hnp⟩ := hn
          obtain ⟨hop, e, hframe⟩ := h.disturbed hp hnp (by omega : n < n + chunk.length)
          have hp' := audLength_le hp
          rw [readFrames_of_frame hframe]
          · exact ne_slices h.auds hp hop _ _
          · rw [ne_eq, List.drop_eq_nil_iff, List.length_take]
            omega
    · obtain ⟨p, rest, rfl, hp⟩ := exists_complete hrest
      obtain ⟨c', hframe, hnext⟩ := h.found hp
      obtain ⟨hop, ⟨length, hlength⟩, -, -⟩ := audsFrom_eq_cons h.auds
      have hle := audLength_le hlength
      rw [readFrames_of_frame hframe, slices, List.cons_append, List.cons_eq_cons,
        and_iff_right rfl]
      · exact ih _ (by simp) hnext hstream hchunks rfl
      · rw [ne_eq, List.drop_eq_nil_iff, List.length_take]
        omega

end Following

end NativeVoice.Media
