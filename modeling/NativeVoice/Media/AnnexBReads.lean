import NativeVoice.Media.AnnexBFrames

/-!
# Access units, whatever the reads

* `Leading`: the reader before the first delimiter, which ends in one of three ways. The stream
  ends; the delimiter is at its start, and the reader goes on from there; or the bytes before it are
  cut off, and the reader reads on before it gives a frame.
* `CutsApart`: what the reads have to be for the frames to be the access units.
* `readsAccessUnits_iff`: the frames are the access units exactly then.
-/

namespace NativeVoice.Media

open AnnexBFrameReader

/-! ## The reads -/

/-- At `b` the bytes before the first delimiter are cut off, with the second delimiter complete. The
reader then leaves its cursor behind that. -/
def CutsOff (codec : NalCodec) (S : Bytes) (cuts : List ℕ) (b : ℕ) : Prop :=
  ∃ q r rest, audsFrom codec S 0 = q :: r :: rest ∧ 0 < q ∧ audEnd codec S r ≤ b ∧
    ∀ b' ∈ cuts, b' < b → b' < audEnd codec S q

/-- The reads for which the frames are the access units. There is a delimiter, unless there is
nothing at all; where bytes are cut off before the first of several, the reader has something left
to read; and no read but the last ends with the byte behind a start code of four bytes of a
delimiter, except the one at which those bytes are cut off. -/
structure CutsApart (codec : NalCodec) (S : Bytes) (n : ℕ) (chunks : List Bytes) : Prop where
  delimited : S = [] ∨ audsFrom codec S 0 ≠ []
  readOn : ∀ q r rest, audsFrom codec S 0 = q :: r :: rest → 0 < q →
    ∃ b ∈ cutsFrom n chunks, audEnd codec S q ≤ b
  undisturbed : ∀ b ∈ cutsFrom n chunks, ∀ p, audLength codec S 0 p = some 4 → b = p + 5 →
    CutsOff codec S (cutsFrom n chunks) b

section Reads

variable {codec : NalCodec} {S chunk : Bytes} {n q r : ℕ} {rest : List ℕ} {chunks : List Bytes}

theorem le_of_mem_cutsFrom {b : ℕ} (hb : b ∈ cutsFrom n chunks) : n ≤ b := by
  induction chunks generalizing n with
  | nil => cases hb
  | cons chunk chunks ih =>
    rw [cutsFrom, List.mem_cons] at hb
    obtain rfl | hb := hb
    · exact le_rfl
    · exact (Nat.le_add_right n _).trans (ih hb)

theorem audEnd_lt (hauds : audsFrom codec S 0 = q :: r :: rest) :
    audEnd codec S q < audEnd codec S r := by
  obtain ⟨-, ⟨length, hq⟩, -, hrest⟩ := audsFrom_eq_cons hauds
  obtain ⟨hlt, ⟨length', hr⟩, -, -⟩ := audsFrom_eq_cons hrest
  have hle := audLength_separated hq hr hlt
  have hthree := length_of_audLength hr
  rw [audEnd_eq hq, audEnd_eq hr]
  omega

/-- Once the first delimiter is complete, nothing more is cut off behind the next read. -/
theorem not_cutsOff (hauds : audsFrom codec S 0 = q :: rest) {cuts : List ℕ} {b b' : ℕ}
    (hmem : b' ∈ cuts) (hlt : b' < b) (hq : audEnd codec S q ≤ b') : ¬ CutsOff codec S cuts b := by
  rintro ⟨q', r, rest', hauds', -, -, hcuts⟩
  rw [hauds] at hauds'
  cases hauds'
  exact absurd (hcuts b' hmem hlt) (by omega)

/-- There is no delimiter, and the stream ends. -/
theorem cutsApart_of_nil (hauds : audsFrom codec S 0 = []) : CutsApart codec S n [] ↔ S = [] := by
  constructor
  · intro h
    exact h.delimited.resolve_right fun hne => hne hauds
  · intro h
    refine ⟨.inl h, fun q r rest hauds' => ?_, fun b hb => by cases hb⟩
    rw [hauds] at hauds'
    cases hauds'

/-- The first delimiter is at the start of the stream. -/
theorem cutsApart_of_zero (hauds : audsFrom codec S 0 = 0 :: rest) :
    CutsApart codec S n chunks ↔ Undisturbed codec S n chunks := by
  constructor
  · intro h b hb p hp hbp
    obtain ⟨q, r, rest', hauds', hq, -⟩ := h.undisturbed b hb p hp hbp
    rw [hauds] at hauds'
    cases hauds'
    exact absurd hq (lt_irrefl 0)
  · intro h
    refine ⟨.inr (by rw [hauds]; exact List.cons_ne_nil _ _), fun q r rest' hauds' hq => ?_,
      fun b hb p hp hbp => absurd hbp (h b hb p hp)⟩
    rw [hauds] at hauds'
    cases hauds'
    exact absurd hq (lt_irrefl 0)

/-- The first delimiter is complete, the second is not. -/
theorem cutsApart_of_one (hauds : audsFrom codec S 0 = q :: rest) (hq : audEnd codec S q ≤ n)
    (hrest : ∀ r ∈ rest.head?, n < audEnd codec S r) (hend : chunks = [] → rest = []) :
    CutsApart codec S n chunks ↔ Undisturbed codec S n chunks := by
  constructor
  · intro h b hb p hp hbp
    have hcuts := h.undisturbed b hb p hp hbp
    obtain rfl | hlt := Nat.eq_or_lt_of_le (le_of_mem_cutsFrom hb)
    · obtain ⟨q', r, rest', hauds', -, hr, -⟩ := hcuts
      rw [hauds] at hauds'
      cases hauds'
      exact absurd (hrest r rfl) (by omega)
    · cases chunks with
      | nil => cases hb
      | cons chunk chunks => exact not_cutsOff hauds List.mem_cons_self hlt hq hcuts
  · intro h
    refine ⟨.inr (by rw [hauds]; exact List.cons_ne_nil _ _), fun q' r rest' hauds' _ => ?_,
      fun b hb p hp hbp => absurd hbp (h b hb p hp)⟩
    rw [hauds] at hauds'
    cases hauds'
    cases chunks with
    | nil => cases hend rfl
    | cons chunk chunks => exact ⟨n, List.mem_cons_self, hq⟩

/-- Both are complete, and the stream ends. -/
theorem not_cutsApart_of_two (hauds : audsFrom codec S 0 = q :: r :: rest) (hq : 0 < q) :
    ¬ CutsApart codec S n [] := by
  intro h
  obtain ⟨b, hb, -⟩ := h.readOn q r rest hauds hq
  cases hb

/-- Both are complete, and there is a chunk to read. -/
theorem cutsApart_of_two (hauds : audsFrom codec S 0 = q :: r :: rest) (hq : 0 < q)
    (hr : audEnd codec S r ≤ n) (hchunk : chunk ≠ []) :
    CutsApart codec S n (chunk :: chunks) ↔ Undisturbed codec S (n + chunk.length) chunks := by
  have hpos := List.length_pos_of_ne_nil hchunk
  have hlt := audEnd_lt hauds
  constructor
  · intro h b hb p hp hbp
    have hle := le_of_mem_cutsFrom hb
    exact not_cutsOff hauds (List.mem_cons_self (a := n)) (by omega) (by omega)
      (h.undisturbed b (List.mem_cons_of_mem n hb) p hp hbp)
  · intro h
    refine ⟨.inr (by rw [hauds]; exact List.cons_ne_nil _ _), fun q' r' rest' hauds' _ => ?_,
      fun b hb p hp hbp => ?_⟩
    · rw [hauds] at hauds'
      cases hauds'
      exact ⟨n, List.mem_cons_self, by omega⟩
    · rw [cutsFrom, List.mem_cons] at hb
      obtain rfl | hb := hb
      · refine ⟨q, r, rest, hauds, hq, hr, fun b' hb' hlt' => ?_⟩
        have := le_of_mem_cutsFrom hb'
        omega
      · exact absurd hbp (h b hb p hp)

/-- None is complete: the next chunk is read. -/
theorem cutsApart_of_none (hfirst : ∀ q ∈ (audsFrom codec S 0).head?, n < audEnd codec S q) :
    CutsApart codec S n (chunk :: chunks) ↔
      (∀ p, audLength codec S 0 p = some 4 → n ≠ p + 5) ∧
        CutsApart codec S (n + chunk.length) chunks := by
  have hlt (q r : ℕ) (rest : List ℕ) (hauds : audsFrom codec S 0 = q :: r :: rest) :
      n < audEnd codec S q := hfirst q (by rw [hauds]; rfl)
  constructor
  · intro h
    refine ⟨fun p hp hn => ?_, h.delimited, fun q r rest hauds hq => ?_, fun b hb p hp hbp => ?_⟩
    · obtain ⟨q, r, rest, hauds, -, hr, -⟩ := h.undisturbed n List.mem_cons_self p hp hn
      have := hlt q r rest hauds
      have := audEnd_lt hauds
      omega
    · obtain ⟨b, hb, hle⟩ := h.readOn q r rest hauds hq
      rw [cutsFrom, List.mem_cons] at hb
      obtain rfl | hb := hb
      · exact absurd (hlt q r rest hauds) (by omega)
      · exact ⟨b, hb, hle⟩
    · obtain ⟨q, r, rest, hauds, hq, hr, hcuts⟩ :=
        h.undisturbed b (List.mem_cons_of_mem n hb) p hp hbp
      exact ⟨q, r, rest, hauds, hq, hr, fun b' hb' => hcuts b' (List.mem_cons_of_mem n hb')⟩
  · rintro ⟨hn, h⟩
    refine ⟨h.delimited, fun q r rest hauds hq => ?_, fun b hb p hp hbp => ?_⟩
    · obtain ⟨b, hb, hle⟩ := h.readOn q r rest hauds hq
      exact ⟨b, List.mem_cons_of_mem n hb, hle⟩
    · rw [cutsFrom, List.mem_cons] at hb
      obtain rfl | hb := hb
      · exact absurd hbp (hn p hp)
      · obtain ⟨q, r, rest, hauds, hq, hr, hcuts⟩ := h.undisturbed b hb p hp hbp
        refine ⟨q, r, rest, hauds, hq, hr, fun b' hb' hlt' => ?_⟩
        rw [cutsFrom, List.mem_cons] at hb'
        obtain rfl | hb' := hb'
        · exact hlt q r rest hauds
        · exact hcuts b' hb' hlt'

end Reads

/-! ## Before the first delimiter -/

/-- The reader has no delimiter yet, and none lies before its cursor. -/
structure Leading (codec : NalCodec) (S : Bytes) (o n c : ℕ) : Prop where
  le : n ≤ S.length
  start : o = 0 ∨ o < c ∧ o + 5 ≤ n
  clean : Clean codec S c
  ahead : ∀ p length, audLength codec S 0 p = some length → c ≤ p

section Leading

variable {codec : NalCodec} {S chunk : Bytes} {o n c p q : ℕ} {rest : List ℕ} {chunks : List Bytes}

theorem leading_zero : Leading codec S 0 0 0 :=
  ⟨Nat.zero_le _, .inl rfl, clean_zero, fun p _ _ => Nat.zero_le p⟩

/-- No delimiter is complete. -/
theorem Leading.none (h : Leading codec S o n c)
    (hfirst : ∀ q ∈ (audsFrom codec S 0).head?, n < audEnd codec S q) :
    ∃ o', (o' = 0 ∨ o' + 5 ≤ n) ∧
      (window codec S o n c []).extractFrame = (none, window codec S o' n (n - 4) []) := by
  have hstart := h.start
  have hscan := scanForAuds_window_of_none [] h.le (by omega : o ≤ c) Nat.two_pos (by simp)
    fun j length hj hle =>
      absurd (lt_audEnd hfirst (Nat.zero_le j) (h.clean.audLength.1 hj).2) (by omega)
  rw [show o + (n - o - 4) = n - 4 by omega] at hscan
  exact extractFrame_of_nil h.le (by omega) hscan

/-- Then the next chunk is read. -/
theorem leading_read (hfirst : ∀ q ∈ (audsFrom codec S 0).head?, n < audEnd codec S q)
    (hn : ∀ p, audLength codec S 0 p = some 4 → n ≠ p + 5) {o' n' : ℕ} (ho' : o' = 0 ∨ o' + 5 ≤ n)
    (hn' : n ≤ n') (hle : n' ≤ S.length) : Leading codec S o' n' (n - 4) := by
  exact ⟨hle, by omega, clean_last hn, fun p length hp =>
    last_le hn hp (lt_audEnd hfirst (Nat.zero_le p) hp)⟩

/-- The first delimiter is complete: the scan goes on behind it. -/
theorem Leading.found (h : Leading codec S o n c) (hauds : audsFrom codec S 0 = q :: rest)
    (hq : audEnd codec S q ≤ n) :
    ∃ c', (window codec S o n c []).scanForAuds = (window codec S o n c' [q]).scanForAuds ∧
      Following codec S q n c' rest := by
  obtain ⟨-, ⟨length, hlength⟩, hbefore, hrest⟩ := audsFrom_eq_cons hauds
  rw [audEnd_eq hlength] at hq
  have hstart := h.start
  refine ⟨q + length, ?_, ?_⟩
  · refine scanForAuds_window_of_new [] (by omega) Nat.two_pos (by simp)
      (h.clean.audLength.2 ⟨h.ahead q length hlength, hlength⟩) hq (by simp)
      fun j length' hj hlength' _ => ?_
    have hj' := (h.clean.audLength.1 hlength').2
    rw [hbefore j (Nat.zero_le j) hj] at hj'
    cases hj'
  · exact ⟨h.le, Nat.le_add_right q length, clean_behind hlength, hrest,
      fun p' length' hlt hp' => audLength_separated hlength hp' hlt, length, hlength, hq⟩

/-- A search from the second byte of the start code of a delimiter loses the first. -/
theorem length_of_disturbed (hop : o ≤ p) (hp : audLength codec S 0 p = some 4) (hn : p + 5 < n)
    (hle : n ≤ S.length) (hstream : S.drop n = chunks.flatten) (k : ℕ) :
    (readFrames k (window codec S o n (p + 1) []) chunks).flatten.length < S.length - p := by
  have hscan := scanForAuds_window_of_new (o := o) (n := n) [] (by omega : o ≤ p + 1)
    Nat.two_pos (by simp) (audLength_from_second hp)
    (by cases codec <;> simp only [NalCodec.headerLength] <;> omega) (by simp)
    (fun j length' hj hlength' _ => absurd (le_of_audLength hlength') (by omega))
  obtain ⟨hbuffer, hpositions⟩ := scanForAuds_keeps (window codec S o n (p + 1 + 3) [p + 1])
  obtain ⟨more, hmore⟩ := hpositions
  have hfirst : (window codec S o n (p + 1) []).scanForAuds.audPositions = (p + 1 - o) :: more := by
    rw [hscan, List.nil_append, ← hmore]
    rfl
  have hlength := readFrames_length_le k (window codec S o n (p + 1) []) chunks
  rw [extractFrame_of_pos hfirst (by omega), hscan, List.nil_append, hbuffer, Option.getD_none,
    List.length_drop, length_window hle, List.length_nil] at hlength
  have htail := congrArg List.length hstream
  rw [List.length_drop] at htail
  omega

/-- The reader when the first delimiter is complete. -/
theorem Leading.readFrames_iff_of_found (h : Leading codec S o n c)
    (hauds : audsFrom codec S 0 = q :: rest) (hq : audEnd codec S q ≤ n)
    (hstream : S.drop n = chunks.flatten) (hchunks : ∀ chunk ∈ chunks, chunk ≠ []) :
    readFrames (rest.length + 2) (window codec S o n c []) chunks = slices S (q :: rest) ++ [[]] ↔
      CutsApart codec S n chunks := by
  obtain ⟨c', hscan, hnext⟩ := h.found hauds hq
  obtain ⟨length, hlength, haud⟩ := hnext.aud
  have hstart := h.start
  have hahead := h.ahead q length hlength
  rcases Nat.eq_zero_or_pos q with rfl | hpos
  · -- the delimiter is at the start: the reader goes on from it in the same pass
    obtain rfl : o = 0 := by omega
    rw [readFrames_congr (extractFrame_congr hscan), cutsApart_of_zero hauds]
    exact hnext.readFrames_iff hstream hchunks
  have hoq : o < q := by omega
  by_cases hrest : ∀ r ∈ rest.head?, n < audEnd codec S r
  · -- the bytes before it are cut off, as they would be if the reader had begun with it
    have hbefore := extractFrame_of_before [] hoq (by simp)
      (hscan.trans (hnext.scan_last hrest hoq.le))
    have hend (hnil : chunks = []) : rest = [] := by
      cases rest with
      | nil => rfl
      | cons r rest =>
        have hr : audEnd codec S r ≤ S.length := audEnd_le (by rw [hauds]; simp)
        have hn := length_le_of_drop_nil (hnil ▸ hstream)
        exact absurd (hrest r rfl) (by omega)
    rw [readFrames_congr (hbefore.trans (hnext.last hrest).symm),
      cutsApart_of_one hauds hq hrest hend]
    exact hnext.readFrames_iff hstream hchunks
  · -- the scan has the second as well, and the pass gives no frame
    obtain ⟨r, rest, rfl, hr⟩ := exists_complete hrest
    obtain ⟨c'', hscan', hnext'⟩ := hnext.scan_found hr hoq.le
    obtain ⟨hqr, ⟨length', hlength'⟩, -, -⟩ := audsFrom_eq_cons hnext.auds
    have hle := audLength_le hlength'
    have hthree := length_of_audLength hlength'
    have hbefore := extractFrame_of_before [r] hoq (by simp; omega) (hscan.trans hscan')
    cases chunks with
    | nil =>
      refine iff_of_false ?_ (not_cutsApart_of_two hauds hpos)
      intro heq
      rw [readFrames_of_end hbefore, buffer_window_of_le (length_le_of_drop_nil hstream), slices,
        List.cons_append, List.cons_eq_cons] at heq
      have hlengths := congrArg List.length heq.1
      rw [List.length_drop, List.length_drop, List.length_take] at hlengths
      omega
    | cons chunk chunks =>
      have hchunk := hchunks chunk List.mem_cons_self
      have hle' := length_le_of_drop hstream h.le
      have hend := audEnd_eq hlength'
      have hframe : (window codec S q (n + chunk.length) c'' [q, r]).extractFrame =
          (some ((S.take r).drop q), window codec S r (n + chunk.length) c'' [r]) :=
        extractFrame_of_two (by omega) (by omega)
      rw [readFrames_of_chunk hbefore hchunk,
        window_append h.le (by omega) (hstream.trans List.flatten_cons), readFrames_of_frame hframe,
        slices, List.cons_append, List.cons_eq_cons, and_iff_right rfl,
        cutsApart_of_two hauds hpos hr hchunk]
      · exact (hnext'.mono (Nat.le_add_right n _) hle').readFrames_iff (drop_of_drop hstream)
          fun chunk' h' => hchunks chunk' (List.mem_cons_of_mem _ h')
      · rw [ne_eq, List.drop_eq_nil_iff, List.length_take]
        omega

/-- **The reader before the first delimiter.** The frames are the slices at the delimiters exactly
when the cuts of the chunks that are still to be read are apart from these. -/
theorem Leading.readFrames_iff (h : Leading codec S o n c) (hstream : S.drop n = chunks.flatten)
    (hchunks : ∀ chunk ∈ chunks, chunk ≠ []) :
    readFrames ((audsFrom codec S 0).length + 1) (window codec S o n c []) chunks =
      slices S (audsFrom codec S 0) ++ [[]] ↔ CutsApart codec S n chunks := by
  induction chunks generalizing o n c with
  | nil =>
    by_cases hfirst : ∀ q ∈ (audsFrom codec S 0).head?, n < audEnd codec S q
    · have hn := length_le_of_drop_nil hstream
      have hauds : audsFrom codec S 0 = [] := by
        cases hauds : audsFrom codec S 0 with
        | nil => rfl
        | cons q rest =>
          rw [hauds] at hfirst
          have hq : q ∈ audsFrom codec S 0 := by
            rw [hauds]
            exact List.mem_cons_self
          have hle := audEnd_le hq
          exact absurd (hfirst q rfl) (by omega)
      obtain ⟨o', ho', hnone⟩ := h.none hfirst
      have hframes := readFrames_of_end (k := 0) hnone
      rw [buffer_window_of_le hn, readFrames] at hframes
      rw [hauds, List.length_nil, Nat.zero_add, hframes, slices, List.nil_append, List.cons_eq_cons,
        and_iff_left rfl, cutsApart_of_nil hauds, List.drop_eq_nil_iff, ← List.length_eq_zero_iff]
      have hle := h.le
      omega
    · obtain ⟨q, rest, hauds, hq⟩ := exists_complete hfirst
      rw [hauds]
      exact h.readFrames_iff_of_found hauds hq hstream hchunks
  | cons chunk chunks ih =>
    by_cases hfirst : ∀ q ∈ (audsFrom codec S 0).head?, n < audEnd codec S q
    · have hle := length_le_of_drop hstream h.le
      have hpos : 0 < chunk.length := List.length_pos_of_ne_nil (hchunks chunk List.mem_cons_self)
      obtain ⟨o', ho', hnone⟩ := h.none hfirst
      rw [readFrames_of_chunk hnone (hchunks chunk List.mem_cons_self), cutsApart_of_none hfirst,
        window_append h.le (by omega) (hstream.trans List.flatten_cons)]
      by_cases hn : ∀ p, audLength codec S 0 p = some 4 → n ≠ p + 5
      · rw [and_iff_right hn]
        exact ih (leading_read hfirst hn ho' (Nat.le_add_right n _) hle) (drop_of_drop hstream)
          fun chunk' h' => hchunks chunk' (List.mem_cons_of_mem _ h')
      · refine iff_of_false ?_ fun h => hn h.1
        push Not at hn
        obtain ⟨p, hp, hnp⟩ := hn
        rw [show n - 4 = p + 1 by omega]
        intro heq
        have hframes := length_of_disturbed (by omega : o' ≤ p) hp
          (by omega : p + 5 < n + chunk.length) hle (drop_of_drop hstream)
          ((audsFrom codec S 0).length + 1)
        have hmem : p ∈ audsFrom codec S 0 := mem_audsFrom.2 ⟨Nat.zero_le p, 4, hp⟩
        rw [heq, List.flatten_append, List.flatten_singleton, List.append_nil] at hframes
        exact absurd hframes (Nat.not_lt_of_le (le_length_slices hmem))
    · obtain ⟨q, rest, hauds, hq⟩ := exists_complete hfirst
      rw [hauds]
      exact h.readFrames_iff_of_found hauds hq hstream hchunks

end Leading

/-! ## The whole stream -/

/-- **Frames and access units.** The frames are the access units of the stream, whatever their
number, exactly when the reads cut it apart from its delimiters. -/
theorem readsAccessUnits_iff (codec : NalCodec) (chunks : List Bytes)
    (hchunks : ∀ chunk ∈ chunks, chunk ≠ []) :
    ReadsAccessUnits codec chunks ↔ CutsApart codec chunks.flatten 0 chunks := by
  have hinit : ({ codec } : AnnexBFrameReader) = window codec chunks.flatten 0 0 0 [] := rfl
  rw [ReadsAccessUnits, accessUnits, length_slices, hinit]
  exact leading_zero.readFrames_iff (List.drop_zero (l := chunks.flatten)) hchunks

theorem readsAccessUnits_iff_twoUnits :
    CutsApart .h264 [0, 0, 0, 1, 9, 0xF0, 0, 0, 1, 0x65, 0, 0, 0, 1, 9, 0xF0] 0
      [[0, 0, 0], [1, 9, 0xF0, 0], [0, 1, 0x65, 0, 0, 0, 1], [9, 0xF0]] :=
  (readsAccessUnits_iff .h264 [[0, 0, 0], [1, 9, 0xF0, 0], [0, 1, 0x65, 0, 0, 0, 1], [9, 0xF0]]
    (by decide)).1 (by decide +kernel)

/-- A read that ends between the header byte of a delimiter and what follows it splits the access
unit. -/
theorem not_readsAccessUnits : ¬ ∀ codec chunks, (∀ chunk ∈ chunks, chunk ≠ []) →
    ReadsAccessUnits codec chunks := by
  intro h
  have hread := h .h264 [[0, 0, 0, 1, 9], [0xF0]] (by decide)
  revert hread
  decide +kernel

end NativeVoice.Media
