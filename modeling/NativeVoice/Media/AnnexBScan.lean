import NativeVoice.Media.AnnexBFrameReader

/-!
# The search for access unit delimiters

What `scanForAuds` finds, in terms of the bytes: the delimiters behind the cursor in turn, as far as
they are in the buffer.

* `codeLength` and `audLength`: the start code, or the delimiter, at a position as a search from a
  cursor sees it. A search that begins at the second byte of a start code of four bytes sees one of
  three.
* `scanForAuds_of_none` and `scanForAuds_of_new`: the loop, by what is there to be found.
* `window`: a reader whose buffer is a window of the stream. It sees what lies within.
* `scanForAuds_window_of_none` and `scanForAuds_window_of_new`: the loop in terms of the stream.
-/

namespace NativeVoice.Media

/-! ## Start codes -/

/-- `00 00 01`. -/
def ThreeAt (l : Bytes) (i : ℕ) : Prop := l[i]? = some 0 ∧ l[i + 1]? = some 0 ∧ l[i + 2]? = some 1

/-- `00 00 00 01`. -/
def FourAt (l : Bytes) (i : ℕ) : Prop := l[i]? = some 0 ∧ ThreeAt l (i + 1)

instance (l : Bytes) (i : ℕ) : Decidable (ThreeAt l i) := inferInstanceAs (Decidable (_ ∧ _))

instance (l : Bytes) (i : ℕ) : Decidable (FourAt l i) := inferInstanceAs (Decidable (_ ∧ _))

/-- The length of the start code at `i`, as a search from the cursor `c` sees it. -/
def codeLength (l : Bytes) (c i : ℕ) : Option ℕ :=
  if c ≤ i ∧ FourAt l i then some 4
  else if c ≤ i ∧ ThreeAt l i ∧ ¬ (c < i ∧ FourAt l (i - 1)) then some 3
  else none

/-- The length of the start code of the access unit delimiter at `i`, as a search from the cursor
`c` sees it. -/
def audLength (codec : NalCodec) (l : Bytes) (c i : ℕ) : Option ℕ :=
  (codeLength l c i).filter fun length => nalType codec l (i + length) = some codec.audType

/-- The bytes of a NAL unit header. -/
def NalCodec.headerLength : NalCodec → ℕ
  | h264 => 1
  | h265 => 2

theorem NalCodec.one_le_headerLength (codec : NalCodec) : 1 ≤ codec.headerLength := by
  cases codec <;> decide

section Find

variable {pattern l : Bytes} {c i : ℕ}

theorem ThreeAt.lt_length (h : ThreeAt l i) : i < l.length :=
  (List.getElem?_eq_some_iff.1 h.1).1

theorem FourAt.lt_length (h : FourAt l i) : i < l.length :=
  (List.getElem?_eq_some_iff.1 h.1).1

theorem isPrefixOf_drop : pattern.isPrefixOf (l.drop i) = true ↔
    ∀ j (h : j < pattern.length), l[i + j]? = some pattern[j] := by
  rw [List.isPrefixOf_iff_prefix, List.prefix_iff_getElem?]
  simp only [List.getElem?_drop]

theorem isPrefixOf_three : [0, 0, 1].isPrefixOf (l.drop i) = true ↔ ThreeAt l i := by
  rw [isPrefixOf_drop, ThreeAt]
  constructor
  · intro h
    exact ⟨h 0 (by decide), h 1 (by decide), h 2 (by decide)⟩
  · rintro ⟨h0, h1, h2⟩ j hj
    match j, hj with
    | 0, _ => exact h0
    | 1, _ => exact h1
    | 2, _ => exact h2

theorem isPrefixOf_four : [0, 0, 0, 1].isPrefixOf (l.drop i) = true ↔ FourAt l i := by
  rw [isPrefixOf_drop, FourAt, ThreeAt]
  constructor
  · intro h
    exact ⟨h 0 (by decide), h 1 (by decide), h 2 (by decide), h 3 (by decide)⟩
  · rintro ⟨h0, h1, h2, h3⟩ j hj
    match j, hj with
    | 0, _ => exact h0
    | 1, _ => exact h1
    | 2, _ => exact h2
    | 3, _ => exact h3

/-- `find` gives the first place of a pattern, whatever says that the pattern stands there. -/
theorem find_spec {At : ℕ → Prop} (hAt : ∀ j, pattern.isPrefixOf (l.drop j) = true ↔ At j)
    (hlt : ∀ j, At j → j < l.length) :
    match find pattern l c with
    | none => ∀ j, c ≤ j → ¬ At j
    | some i => c ≤ i ∧ At i ∧ ∀ j, c ≤ j → j < i → ¬ At j := by
  cases hfind : find pattern l c with
  | none =>
    rw [find, List.find?_range'_eq_none] at hfind
    intro j hj hat
    have hno := hfind j hj (by have := hlt j hat; omega)
    rw [(hAt j).2 hat] at hno
    cases hno
  | some i =>
    rw [find, List.find?_range'_eq_some] at hfind
    obtain ⟨hat, hmem, hmin⟩ := hfind
    rw [List.mem_range'_1] at hmem
    refine ⟨hmem.1, (hAt i).1 hat, fun j hj hji hat' => ?_⟩
    have hno := hmin j hj hji
    rw [(hAt j).2 hat'] at hno
    cases hno

theorem codeLength_eq_none : codeLength l c i = none ↔
    (c ≤ i → ¬ FourAt l i ∧ (ThreeAt l i → c < i ∧ FourAt l (i - 1))) := by
  unfold codeLength
  grind

theorem FourAt.not_three (h : FourAt l i) : ¬ ThreeAt l i := by
  unfold FourAt ThreeAt at *
  grind

theorem codeLength_eq_some {length : ℕ} : codeLength l c i = some length ↔
    c ≤ i ∧ (FourAt l i ∧ length = 4 ∨
      ThreeAt l i ∧ ¬ (c < i ∧ FourAt l (i - 1)) ∧ length = 3) := by
  have hnot := @FourAt.not_three l i
  unfold codeLength
  grind

/-- `findStartCode` gives the first start code. -/
theorem findStartCode_spec :
    match findStartCode l c with
    | none => ∀ j, codeLength l c j = none
    | some (i, length) =>
      codeLength l c i = some length ∧ ∀ j, j < i → codeLength l c j = none := by
  have hthree := find_spec (c := c) (fun j => isPrefixOf_three (l := l) (i := j))
    fun j => ThreeAt.lt_length
  have hfour := find_spec (c := c) (fun j => isPrefixOf_four (l := l) (i := j))
    fun j => FourAt.lt_length
  have hnext (j : ℕ) (h : FourAt l j) : ThreeAt l (j + 1) := h.2
  unfold findStartCode
  by_cases hc : c ≥ l.length
  · rw [if_pos hc]
    intro j
    rw [codeLength_eq_none]
    intro hj
    exact ⟨fun h => absurd h.lt_length (by omega), fun h => absurd h.lt_length (by omega)⟩
  rw [if_neg hc]
  cases h3 : find [0, 0, 1] l c with
  | none =>
    rw [h3] at hthree
    have hno (j : ℕ) (hj : c ≤ j) : ¬ FourAt l j := fun h => hthree (j + 1) (by omega) (hnext j h)
    cases h4 : find [0, 0, 0, 1] l c with
    | none =>
      intro j
      rw [codeLength_eq_none]
      exact fun hj => ⟨hno j hj, fun h => absurd h (hthree j hj)⟩
    | some four =>
      rw [h4] at hfour
      exact absurd hfour.2.1 (hno four hfour.1)
  | some three =>
    rw [h3] at hthree
    obtain ⟨hle3, hat3, hmin3⟩ := hthree
    cases h4 : find [0, 0, 0, 1] l c with
    | none =>
      rw [h4] at hfour
      refine ⟨?_, fun j hj => ?_⟩
      · rw [codeLength, if_neg fun h => hfour three h.1 h.2,
          if_pos ⟨hle3, hat3, fun h => hfour (three - 1) (by omega) h.2⟩]
      · rw [codeLength_eq_none]
        exact fun hcj => ⟨hfour j hcj, fun h => absurd h (hmin3 j hcj hj)⟩
    | some four =>
      rw [h4] at hfour
      obtain ⟨hle4, hat4, hmin4⟩ := hfour
      dsimp only
      by_cases hle : four ≤ three
      · rw [if_pos hle]
        refine ⟨by rw [codeLength, if_pos ⟨hle4, hat4⟩], fun j hj => ?_⟩
        rw [codeLength_eq_none]
        exact fun hcj => ⟨hmin4 j hcj hj, fun h => absurd h (hmin3 j hcj (by omega))⟩
      · rw [if_neg hle]
        refine ⟨?_, fun j hj => ?_⟩
        · rw [codeLength, if_neg fun h => hmin4 three h.1 (by omega) h.2,
            if_pos ⟨hle3, hat3, fun h => hmin4 (three - 1) (by omega) (by omega) h.2⟩]
        · rw [codeLength_eq_none]
          exact fun hcj => ⟨hmin4 j hcj (by omega), fun h => absurd h (hmin3 j hcj hj)⟩

/-- Start codes do not overlap. -/
theorem codeLength_separated {j lengthI lengthJ : ℕ} (hj : codeLength l c j = some lengthJ)
    (hi : codeLength l c i = some lengthI) (hlt : j < i) : j + lengthJ ≤ i := by
  rw [codeLength_eq_some] at hj hi
  by_contra hover
  obtain ⟨hcj, ⟨hfour, rfl⟩ | ⟨hthree, -, rfl⟩⟩ := hj
  · obtain rfl | rfl | rfl : i = j + 1 ∨ i = j + 2 ∨ i = j + 3 := by omega
    · -- the second byte of the start code, which is not the beginning of one of three
      obtain ⟨-, ⟨hfour', -⟩ | ⟨-, hnot, -⟩⟩ := hi
      · exact hfour'.not_three hfour.2
      · exact hnot ⟨by omega, hfour⟩
    · unfold FourAt ThreeAt at *
      grind
    · unfold FourAt ThreeAt at *
      grind
  · obtain rfl | rfl : i = j + 1 ∨ i = j + 2 := by omega
    · unfold FourAt ThreeAt at *
      grind
    · unfold FourAt ThreeAt at *
      grind

/-- A search from behind a start code sees the start codes that follow as the search before did. -/
theorem codeLength_behind {j length : ℕ} (hj : codeLength l c j = some length)
    (hle : j + length ≤ i) : codeLength l (j + length) i = codeLength l c i := by
  -- the last byte of a start code is not zero
  have hbyte : ¬ FourAt l (j + length - 1) := by
    rw [codeLength_eq_some] at hj
    unfold FourAt ThreeAt at *
    grind
  have hcj := (codeLength_eq_some.1 hj).1
  ext length'
  rw [codeLength_eq_some, codeLength_eq_some]
  obtain rfl | hlt := Nat.eq_or_lt_of_le hle
  · have hle' : c ≤ j + length := by omega
    simp only [le_refl, hle', true_and, hbyte, and_false, not_false_eq_true]
  · have hle' : c ≤ i := by omega
    have hlt' : c < i := by omega
    simp only [hle, hle', hlt, hlt', true_and]

end Find

/-! ## Delimiters -/

section Delimiters

variable {codec : NalCodec} {l S : Bytes} {c i length n o : ℕ}

theorem audLength_eq_some : audLength codec l c i = some length ↔
    codeLength l c i = some length ∧ nalType codec l (i + length) = some codec.audType := by
  simp [audLength, Option.filter_eq_some_iff]

theorem audLength_behind {j length' : ℕ} (hj : codeLength l c j = some length')
    (hle : j + length' ≤ i) : audLength codec l (j + length') i = audLength codec l c i := by
  rw [audLength, codeLength_behind hj hle, audLength]

theorem nalType_h264 : nalType .h264 l i = l[i]?.map (· &&& 0x1F) := by
  rw [← List.head?_drop]
  cases h : l.drop i with
  | nil => simp [nalType, h]
  | cons header rest => simp [nalType, h]

theorem nalType_h265 : nalType .h265 l i =
    l[i + 1]?.bind fun _ => l[i]?.map fun header : UInt8 => header >>> 1 &&& 0x3F := by
  have hsecond : l[i + 1]? = (l.drop i)[1]? := by rw [List.getElem?_drop]
  rw [hsecond, ← List.head?_drop (l := l)]
  match h : l.drop i with
  | [] => simp [nalType, h]
  | [_] => simp [nalType, h]
  | _ :: _ :: _ => simp [nalType, h]

theorem getElem?_window : ((S.take n).drop o)[i]? = if o + i < n then S[o + i]? else none := by
  rw [List.getElem?_drop, List.getElem?_take]

theorem nalType_window {type : UInt8} : nalType codec ((S.take n).drop o) i = some type ↔
    nalType codec S (o + i) = some type ∧ o + i + codec.headerLength ≤ n := by
  cases codec with
  | h264 =>
    rw [nalType_h264, nalType_h264, getElem?_window, NalCodec.headerLength]
    split <;> grind
  | h265 =>
    rw [nalType_h265, nalType_h265, getElem?_window, getElem?_window, NalCodec.headerLength,
      ← Nat.add_assoc]
    split <;> grind

theorem threeAt_window : ThreeAt ((S.take n).drop o) i ↔ ThreeAt S (o + i) ∧ o + i + 3 ≤ n := by
  unfold ThreeAt
  simp only [getElem?_window]
  grind

theorem fourAt_window : FourAt ((S.take n).drop o) i ↔ FourAt S (o + i) ∧ o + i + 4 ≤ n := by
  unfold FourAt
  rw [threeAt_window, getElem?_window]
  grind

theorem codeLength_window : codeLength ((S.take n).drop o) c i = some length ↔
    codeLength S (o + c) (o + i) = some length ∧ o + i + length ≤ n := by
  rw [codeLength_eq_some, codeLength_eq_some, fourAt_window, threeAt_window, fourAt_window]
  rcases Nat.eq_zero_or_pos i with rfl | hi
  · grind
  · rw [← Nat.add_sub_assoc hi]
    grind

theorem audLength_window : audLength codec ((S.take n).drop o) c i = some length ↔
    audLength codec S (o + c) (o + i) = some length ∧ o + i + length + codec.headerLength ≤ n := by
  rw [audLength_eq_some, audLength_eq_some, codeLength_window, nalType_window, ← Nat.add_assoc]
  constructor
  · rintro ⟨⟨hcode, -⟩, htype, hle⟩
    exact ⟨⟨hcode, htype⟩, hle⟩
  · rintro ⟨⟨hcode, htype⟩, hle⟩
    exact ⟨⟨hcode, by omega⟩, htype, hle⟩

end Delimiters

/-! ## The loop -/

namespace AnnexBFrameReader

/-- The delimiter at `i` is one that the scan of `d` appends, if it comes to it. -/
def Finds (d : AnnexBFrameReader) (i length : ℕ) : Prop :=
  audLength d.codec d.buffer d.searchPos i = some length ∧ d.audPositions.getLast? ≠ some i

theorem findStartCode_of_finds {d : AnnexBFrameReader} {i length : ℕ}
    (hi : codeLength d.buffer d.searchPos i = some length) :
    ∃ start length', findStartCode d.buffer d.searchPos = some (start, length') ∧ start ≤ i ∧
      codeLength d.buffer d.searchPos start = some length' := by
  have hspec := findStartCode_spec (l := d.buffer) (c := d.searchPos)
  match hfind : findStartCode d.buffer d.searchPos with
  | none =>
    rw [hfind] at hspec
    rw [hspec i] at hi
    cases hi
  | some (start, length') =>
    rw [hfind] at hspec
    refine ⟨start, length', rfl, ?_, hspec.1⟩
    by_contra hlt
    rw [hspec.2 i (by omega)] at hi
    cases hi

theorem scanForAuds_skip {d : AnnexBFrameReader} {start length : ℕ}
    (hpositions : d.audPositions.length < 2)
    (hstart : findStartCode d.buffer d.searchPos = some (start, length))
    (hcode : codeLength d.buffer d.searchPos start = some length) (hold : ¬ d.Finds start length) :
    d.scanForAuds = scanForAuds { d with searchPos := start + length } := by
  rw [scanForAuds, if_pos hpositions]
  split
  · rename_i heq
    rw [hstart] at heq
    cases heq
  · rename_i heq
    rw [hstart] at heq
    cases heq
    rw [if_neg fun h => hold ⟨audLength_eq_some.2 ⟨hcode, h.1⟩, h.2⟩]

theorem scanForAuds_take {d : AnnexBFrameReader} {start length : ℕ}
    (hpositions : d.audPositions.length < 2)
    (hstart : findStartCode d.buffer d.searchPos = some (start, length))
    (hnew : d.Finds start length) :
    d.scanForAuds = scanForAuds { d with
      searchPos := start + length
      audPositions := d.audPositions ++ [start] } := by
  rw [scanForAuds, if_pos hpositions]
  split
  · rename_i heq
    rw [hstart] at heq
    cases heq
  · rename_i heq
    rw [hstart] at heq
    cases heq
    rw [if_pos ⟨(audLength_eq_some.1 hnew.1).2, hnew.2⟩]

/-- Behind a start code the scan finds what it found before. -/
theorem finds_behind {d : AnnexBFrameReader} {start length i length' : ℕ}
    (hstart : codeLength d.buffer d.searchPos start = some length) (hle : start + length ≤ i) :
    Finds { d with searchPos := start + length } i length' ↔ d.Finds i length' := by
  unfold Finds
  rw [audLength_behind hstart hle]

theorem le_of_finds {d : AnnexBFrameReader} {i length : ℕ} (h : d.Finds i length) :
    d.searchPos ≤ i :=
  (codeLength_eq_some.1 (audLength_eq_some.1 h.1).1).1

/-- Where the scan finds nothing new, only the cursor moves, to the last four bytes. -/
theorem scanForAuds_of_none (d : AnnexBFrameReader) (hpositions : d.audPositions.length < 2)
    (hnone : ∀ i length, ¬ d.Finds i length) :
    d.scanForAuds = { d with searchPos := d.buffer.length - 4 } := by
  induction hk : d.buffer.length - d.searchPos using Nat.strong_induction_on generalizing d with
  | h k ih =>
    match hfind : findStartCode d.buffer d.searchPos with
    | none =>
      rw [scanForAuds, if_pos hpositions]
      split
      · rfl
      · rename_i heq
        rw [hfind] at heq
        cases heq
    | some (start, length) =>
      have hcode : codeLength d.buffer d.searchPos start = some length := by
        have hspec := findStartCode_spec (l := d.buffer) (c := d.searchPos)
        rw [hfind] at hspec
        exact hspec.1
      have hle := le_of_findStartCode hfind
      rw [scanForAuds_skip hpositions hfind hcode (hnone start length)]
      refine ih _ ?_ _ hpositions (fun i length' h => ?_) rfl
      · dsimp only
        omega
      · exact hnone i length' ((finds_behind hcode (le_of_finds h)).1 h)

/-- Otherwise the scan goes on from the first new delimiter. -/
theorem scanForAuds_of_new (d : AnnexBFrameReader) {i length : ℕ}
    (hpositions : d.audPositions.length < 2) (hnew : d.Finds i length)
    (hfirst : ∀ j, j < i → ∀ length', ¬ d.Finds j length') :
    d.scanForAuds =
      scanForAuds { d with searchPos := i + length, audPositions := d.audPositions ++ [i] } := by
  induction hk : d.buffer.length - d.searchPos using Nat.strong_induction_on generalizing d with
  | h k ih =>
    have hcodeI := (audLength_eq_some.1 hnew.1).1
    obtain ⟨start, length', hfind, hstart, hcode⟩ := findStartCode_of_finds hcodeI
    obtain hlt | rfl := Nat.lt_or_eq_of_le hstart
    · have hle := le_of_findStartCode hfind
      have hbehind := codeLength_separated hcode hcodeI hlt
      have hrest := ih (d.buffer.length - (start + length')) (by omega)
        { d with searchPos := start + length' } hpositions ((finds_behind hcode hbehind).2 hnew)
        (fun j hj length'' h => hfirst j hj length'' ((finds_behind hcode (le_of_finds h)).1 h)) rfl
      rw [scanForAuds_skip hpositions hfind hcode (hfirst start hlt length'), hrest]
    · obtain rfl : length' = length := by
        rw [hcode] at hcodeI
        exact Option.some.inj hcodeI
      exact scanForAuds_take hpositions hfind hnew

/-! ## Windows of a stream -/

/-- The reader that holds the bytes of `S` from `o` up to `n`, with its places counted in `S`. -/
def window (codec : NalCodec) (S : Bytes) (o n c : ℕ) (positions : List ℕ) : AnnexBFrameReader where
  codec
  buffer := (S.take n).drop o
  searchPos := c - o
  audPositions := positions.map (· - o)

section Window

variable {codec : NalCodec} {S chunk rest : Bytes} {o n c i length : ℕ} {positions : List ℕ}

theorem length_window (hn : n ≤ S.length) :
    (window codec S o n c positions).buffer.length = n - o := by
  rw [window, List.length_drop, List.length_take, Nat.min_eq_left hn]

theorem buffer_window_of_le (hn : S.length ≤ n) :
    (window codec S o n c positions).buffer = S.drop o := by
  rw [window, List.take_of_length_le hn]

theorem window_append (hn : n ≤ S.length) (ho : o ≤ n) (hrest : S.drop n = chunk ++ rest) :
    { window codec S o n c positions with
      buffer := (window codec S o n c positions).buffer ++ chunk } =
      window codec S o (n + chunk.length) c positions := by
  have htake : S.take (n + chunk.length) = S.take n ++ chunk := by
    rw [List.take_add, hrest, List.take_left]
  have hlength : o ≤ (S.take n).length := by
    rw [List.length_take]
    omega
  unfold window
  rw [htake, List.drop_append_of_le_length hlength]

theorem finds_window (hc : o ≤ c) (hpositions : ∀ p ∈ positions, o ≤ p) (hi : o ≤ i) :
    (window codec S o n c positions).Finds (i - o) length ↔
      (audLength codec S c i = some length ∧ i + length + codec.headerLength ≤ n) ∧
        positions.getLast? ≠ some i := by
  have hlast : (positions.map (· - o)).getLast? = some (i - o) ↔ positions.getLast? = some i := by
    rw [List.getLast?_map]
    cases h : positions.getLast? with
    | none => simp
    | some p =>
      have hp := hpositions p (List.mem_of_getLast? h)
      simp only [Option.map_some, Option.some.injEq]
      omega
  unfold Finds window
  rw [audLength_window, Nat.add_sub_of_le hc, Nat.add_sub_of_le hi, Ne, Ne, hlast]

theorem not_finds_window (hc : o ≤ c) (hpositions : ∀ p ∈ positions, o ≤ p) {bound : ℕ}
    (hnone : ∀ j length, j < bound → audLength codec S c j = some length →
      j + length + codec.headerLength ≤ n → positions.getLast? = some j) (hj : o + i < bound) :
    ¬ (window codec S o n c positions).Finds i length := by
  intro h
  rw [show i = o + i - o by omega, finds_window hc hpositions (Nat.le_add_right o i)] at h
  exact h.2 (hnone (o + i) length hj h.1.1 h.1.2)

/-- A scan that finds nothing new in the window. -/
theorem scanForAuds_window_of_none (positions : List ℕ) (hn : n ≤ S.length) (hc : o ≤ c)
    (hcount : positions.length < 2) (hpositions : ∀ p ∈ positions, o ≤ p)
    (hnone : ∀ j length, audLength codec S c j = some length → j + length + codec.headerLength ≤ n →
      positions.getLast? = some j) :
    (window codec S o n c positions).scanForAuds =
      window codec S o n (o + (n - o - 4)) positions := by
  have hcount' : (window codec S o n c positions).audPositions.length < 2 := by
    rw [window, List.length_map]
    exact hcount
  rw [scanForAuds_of_none _ hcount' fun i length => not_finds_window hc hpositions
    (fun j length _ => hnone j length) (Nat.lt_succ_self (o + i)), length_window hn, window, window]
  rw [Nat.add_sub_cancel_left]

/-- A scan that finds a new delimiter in the window. -/
theorem scanForAuds_window_of_new (positions : List ℕ) (hc : o ≤ c) (hcount : positions.length < 2)
    (hpositions : ∀ p ∈ positions, o ≤ p) (hnew : audLength codec S c i = some length)
    (hn : i + length + codec.headerLength ≤ n) (hlast : positions.getLast? ≠ some i)
    (hfirst : ∀ j length, j < i → audLength codec S c j = some length →
      j + length + codec.headerLength ≤ n → positions.getLast? = some j) :
    (window codec S o n c positions).scanForAuds =
      (window codec S o n (i + length) (positions ++ [i])).scanForAuds := by
  have hi : o ≤ i := hc.trans (codeLength_eq_some.1 (audLength_eq_some.1 hnew).1).1
  have hcount' : (window codec S o n c positions).audPositions.length < 2 := by
    rw [window, List.length_map]
    exact hcount
  rw [scanForAuds_of_new _ hcount' ((finds_window hc hpositions hi).2 ⟨⟨hnew, hn⟩, hlast⟩)
    fun j hj length => not_finds_window hc hpositions hfirst (by omega)]
  congr 1
  unfold window
  rw [List.map_append, List.map_singleton, Nat.sub_add_comm hi]

end Window

end AnnexBFrameReader

end NativeVoice.Media
