import Mathlib.Data.List.Basic

/-!
# Annex B start codes

A byte stream in which units are preceded by a start code, `00 00 01` or `00 00 00 01`.

* `cut` splits a stream at the start codes that a scan from left to right finds: the bytes before
  the first one, and the segments behind each of them.
* A `Clean` string is one without a start code. All pieces of a cut are clean (`clean_cut`), and
  clean segments put behind four-byte start codes are cut back into themselves
  (`cut_flatMap_startCode`), also where segments end in zero bytes.
-/

namespace Lib.StartCode

def startCode : List UInt8 := [0, 0, 0, 1]

/-- The length of the start code that a string begins with, 0 if it does not begin with one. -/
def codeLength (l : List UInt8) : ℕ :=
  if l.take 4 = [0, 0, 0, 1] then 4 else if l.take 3 = [0, 0, 1] then 3 else 0

theorem codeLength_le (l : List UInt8) : codeLength l ≤ l.length := by
  unfold codeLength
  split
  · rename_i h
    have := congrArg List.length h
    simp at this
    omega
  · split
    · rename_i h
      have := congrArg List.length h
      simp at this
      omega
    · omega

theorem codeLength_eq_zero {l : List UInt8} :
    codeLength l = 0 ↔ l.take 4 ≠ [0, 0, 0, 1] ∧ l.take 3 ≠ [0, 0, 1] := by
  unfold codeLength
  split <;> [simp_all; split <;> simp_all]

def cut : List UInt8 → List UInt8 × List (List UInt8)
  | [] => ([], [])
  | b :: l =>
    if codeLength (b :: l) = 0 then (b :: (cut l).1, (cut l).2)
    else
      let c := cut (l.drop (codeLength (b :: l) - 1))
      ([], c.1 :: c.2)
termination_by l => l.length
decreasing_by
  · simp
  · simp only [List.length_drop, List.length_cons]
    omega

@[simp] theorem cut_nil : cut [] = ([], []) := by
  rw [cut]

theorem cut_cons_of_zero {b : UInt8} {l : List UInt8} (h : codeLength (b :: l) = 0) :
    cut (b :: l) = (b :: (cut l).1, (cut l).2) := by
  rw [cut, if_pos h]

theorem cut_of_ne_zero {l : List UInt8} (h : codeLength l ≠ 0) :
    cut l = ([], (cut (l.drop (codeLength l))).1 :: (cut (l.drop (codeLength l))).2) := by
  cases l with
  | nil => simp [codeLength] at h
  | cons b l =>
    obtain ⟨n, hn⟩ := Nat.exists_eq_succ_of_ne_zero h
    rw [cut, if_neg h, hn]
    rfl

/-- A string in which no start code begins. -/
def Clean (l : List UInt8) : Prop := cut l = (l, [])

theorem clean_nil : Clean [] := cut_nil

theorem clean_cons {b : UInt8} {l : List UInt8} :
    Clean (b :: l) ↔ codeLength (b :: l) = 0 ∧ Clean l := by
  by_cases h : codeLength (b :: l) = 0
  · simp [Clean, cut_cons_of_zero h, h, Prod.ext_iff]
  · simp [Clean, cut_of_ne_zero h, h]

theorem clean_iff_snd_nil {l : List UInt8} : Clean l ↔ (cut l).2 = [] := by
  induction l with
  | nil => simp [clean_nil]
  | cons b l ih =>
    by_cases h : codeLength (b :: l) = 0
    · simp [clean_cons, h, cut_cons_of_zero h, ih]
    · simp [clean_cons, h, cut_of_ne_zero h]

/-- The bytes before the first start code are a prefix of the stream. -/
theorem cut_fst_prefix (l : List UInt8) : (cut l).1 <+: l := by
  induction l with
  | nil => simp
  | cons b l ih =>
    by_cases h : codeLength (b :: l) = 0
    · simpa [cut_cons_of_zero h] using ih
    · simp [cut_of_ne_zero h]

theorem codeLength_eq_zero_mono {l m : List UInt8} (hlm : l <+: m) (h : codeLength m = 0) :
    codeLength l = 0 := by
  obtain ⟨r, rfl⟩ := hlm
  rw [codeLength_eq_zero] at h ⊢
  refine ⟨fun h4 => h.1 ?_, fun h3 => h.2 ?_⟩
  · have := congrArg List.length h4
    simp at this
    rw [List.take_append_of_le_length (by omega), h4]
  · have := congrArg List.length h3
    simp at this
    rw [List.take_append_of_le_length (by omega), h3]

/-- **The pieces of a cut are clean.** -/
theorem clean_cut (l : List UInt8) : Clean (cut l).1 ∧ ∀ s ∈ (cut l).2, Clean s := by
  induction h : l.length using Nat.strongRecOn generalizing l with
  | ind n ih =>
    cases l with
    | nil => simp [clean_nil]
    | cons b l =>
      by_cases hc : codeLength (b :: l) = 0
      · obtain ⟨h₁, h₂⟩ := ih l.length (by simp at h; omega) l rfl
        rw [cut_cons_of_zero hc]
        have hp : b :: (cut l).1 <+: b :: l := by simpa using cut_fst_prefix l
        exact ⟨clean_cons.2 ⟨codeLength_eq_zero_mono hp hc, h₁⟩, h₂⟩
      · obtain ⟨h₁, h₂⟩ := ih ((b :: l).drop (codeLength (b :: l))).length
          (by rw [List.length_drop]; simp at h ⊢; omega) _ rfl
        rw [cut_of_ne_zero hc]
        exact ⟨clean_nil, by simpa using ⟨h₁, h₂⟩⟩

/-- What may follow a clean string without completing a start code in it. -/
def Boundary (l : List UInt8) : Prop := l = [] ∨ startCode <+: l

theorem codeLength_append_of_boundary {b : UInt8} {l r : List UInt8} (h : codeLength (b :: l) = 0)
    (hr : Boundary r) : codeLength (b :: (l ++ r)) = 0 := by
  rcases hr with rfl | ⟨r, rfl⟩
  · simpa using h
  · rw [codeLength_eq_zero] at h ⊢
    -- a code that begins in `b :: l` and reaches into the start code would end in one of its zeros
    match l, h with
    | [], _ => simp [startCode]
    | [c], _ => simp [startCode]
    | [c, d], h => simpa [startCode] using h
    | c :: d :: e :: l, h => simpa using h

theorem cut_append_of_boundary {l r : List UInt8} (hl : Clean l) (hr : Boundary r) :
    cut (l ++ r) = (l ++ (cut r).1, (cut r).2) := by
  induction l with
  | nil => rfl
  | cons b l ih =>
    obtain ⟨h, hl⟩ := clean_cons.1 hl
    rw [List.cons_append, cut_cons_of_zero (codeLength_append_of_boundary h hr), ih hl]
    rfl

theorem boundary_flatMap (ss : List (List UInt8)) : Boundary (ss.flatMap (startCode ++ ·)) := by
  cases ss with
  | nil => exact .inl rfl
  | cons s ss => exact .inr ⟨s ++ ss.flatMap (startCode ++ ·), by simp⟩

theorem cut_startCode_append (l : List UInt8) :
    cut (startCode ++ l) = ([], (cut l).1 :: (cut l).2) :=
  cut_of_ne_zero (l := startCode ++ l) (by simp [codeLength, startCode])

/-- **Round trip**: clean segments behind four-byte start codes are cut back into themselves. -/
theorem cut_flatMap_startCode {ss : List (List UInt8)} (h : ∀ s ∈ ss, Clean s) :
    cut (ss.flatMap (startCode ++ ·)) = ([], ss) := by
  induction ss with
  | nil => simp
  | cons s ss ih =>
    rw [List.flatMap_cons, List.append_assoc, cut_startCode_append,
      cut_append_of_boundary (h s (by simp)) (boundary_flatMap ss),
      ih fun t ht => h t (by simp [ht]), List.append_nil]

/-! ## Codes of both lengths -/

/-- A start code of three or of four bytes. -/
def IsCode (c : List UInt8) : Prop := c = startCode ∨ c = [0, 0, 1]

/-- Up to a zero byte that has become the first one of a longer start code. -/
def UpToZero (s' s : List UInt8) : Prop := s' = s ∨ s' ++ [0] = s

theorem isCode_take_codeLength {l : List UInt8} (h : codeLength l ≠ 0) :
    IsCode (l.take (codeLength l)) := by
  unfold codeLength at h ⊢
  split
  case isTrue h₄ => exact .inl h₄
  case isFalse h₄ =>
    split
    case isTrue h₃ => exact .inr h₃
    case isFalse h₃ => rw [if_neg h₄, if_neg h₃] at h; exact absurd rfl h

theorem cut_code_append {c : List UInt8} (hc : IsCode c) (l : List UInt8) :
    cut (c ++ l) = ([], (cut l).1 :: (cut l).2) := by
  rcases hc with rfl | rfl
  · exact cut_startCode_append l
  · have hlen : codeLength ([0, 0, 1] ++ l) = 3 := by
      unfold codeLength
      rw [if_neg (by cases l <;> simp), if_pos (by simp)]
    rw [cut_of_ne_zero (by omega), hlen]
    rfl

theorem Clean.left {s t : List UInt8} (h : Clean (s ++ t)) : Clean s := by
  induction s with
  | nil => exact clean_nil
  | cons b s ih =>
    obtain ⟨hcode, hrest⟩ := clean_cons.1 h
    exact clean_cons.2 ⟨codeLength_eq_zero_mono (List.prefix_append _ t) hcode, ih hrest⟩

/-- In front of the short code, what does not end in a zero byte stays as it is. -/
theorem cut_append_short {s : List UInt8} (hs : Clean s) (hlast : s.getLast? ≠ some 0)
    (l : List UInt8) : cut (s ++ ([0, 0, 1] ++ l)) = (s, (cut ([0, 0, 1] ++ l)).2) := by
  induction s with
  | nil =>
    rw [List.nil_append, cut_code_append (.inr rfl)]
  | cons b s ih =>
    obtain ⟨hcode, hs⟩ := clean_cons.1 hs
    have hzero : codeLength (b :: (s ++ ([0, 0, 1] ++ l))) = 0 := by
      rw [codeLength_eq_zero] at hcode ⊢
      -- a code that begins in `b :: s` and reaches into the short one would end in one of its zeros
      match s, hlast, hcode with
      | [], hlast, _ => simpa using hlast
      | [c], _, _ => simp
      | [c, d], _, hcode => simpa using hcode
      | c :: d :: e :: s, _, hcode => simpa using hcode
    have hrest : cut (s ++ ([0, 0, 1] ++ l)) = (s, (cut ([0, 0, 1] ++ l)).2) := by
      cases s with
      | nil => rw [List.nil_append, cut_code_append (.inr rfl)]
      | cons c s => exact ih hs (by rwa [List.getLast?_cons_cons] at hlast)
    rw [List.cons_append, cut_cons_of_zero hzero, hrest]

/-- A clean string in front of a start code stays as it is, up to a zero byte at its end. -/
theorem cut_append_code {s c : List UInt8} (hs : Clean s) (hc : IsCode c) (l : List UInt8) :
    ∃ s', UpToZero s' s ∧ cut (s ++ (c ++ l)) = (s', (cut (c ++ l)).2) := by
  rcases hc with rfl | rfl
  · exact ⟨s, .inl rfl, by
      rw [cut_append_of_boundary hs (.inr ⟨l, rfl⟩), cut_startCode_append, List.append_nil]⟩
  · by_cases hlast : s.getLast? = some 0
    · obtain ⟨t, rfl⟩ := List.getLast?_eq_some_iff.1 hlast
      refine ⟨t, .inr rfl, ?_⟩
      have hlong : t ++ [0] ++ ([0, 0, 1] ++ l) = t ++ (startCode ++ l) := by simp [startCode]
      rw [hlong, cut_append_of_boundary hs.left (.inr ⟨l, rfl⟩), cut_startCode_append,
        List.append_nil, cut_code_append (.inr rfl)]
    · exact ⟨s, .inl rfl, cut_append_short hs hlast l⟩

/-- **Clean segments behind start codes** of either length are cut back into themselves, up to zero
bytes at their ends; the last one keeps these. -/
theorem cut_flatMap_code {ps : List (List UInt8 × List UInt8)}
    (h : ∀ p ∈ ps, IsCode p.1 ∧ Clean p.2) :
    ∃ ss, cut (ps.flatMap fun p => p.1 ++ p.2) = ([], ss) ∧
      List.Forall₂ UpToZero ss (ps.map Prod.snd) ∧ ss.getLast? = (ps.map Prod.snd).getLast? := by
  induction ps with
  | nil => exact ⟨[], by simp, .nil, rfl⟩
  | cons p ps ih =>
    obtain ⟨ss, hcut, hss, hlast⟩ := ih fun q hq => h q (List.mem_cons_of_mem _ hq)
    obtain ⟨hcode, hclean⟩ := h p (by simp)
    rw [List.flatMap_cons, List.append_assoc, cut_code_append hcode]
    cases ps with
    | nil =>
      have hsame : cut (p.2 ++ ([] : List (List UInt8 × List UInt8)).flatMap fun p => p.1 ++ p.2) =
          (p.2, []) := by rw [List.flatMap_nil, List.append_nil]; exact hclean
      exact ⟨[p.2], by rw [hsame], .cons (.inl rfl) .nil, rfl⟩
    | cons q ps =>
      obtain ⟨s', hs', hcut'⟩ := cut_append_code hclean (h q (by simp)).1
        (q.2 ++ ps.flatMap fun p => p.1 ++ p.2)
      rw [List.flatMap_cons, List.append_assoc] at hcut ⊢
      rw [hcut] at hcut'
      refine ⟨s' :: ss, by rw [hcut'], .cons hs' hss, ?_⟩
      cases hss with
      | cons _ _ =>
        rw [List.map_cons, List.map_cons, List.getLast?_cons_cons, List.getLast?_cons_cons, hlast,
          List.map_cons]

/-! ## Behind a start code -/

/-- What is behind the first start code of a string. -/
def behind : List UInt8 → Option (List UInt8)
  | [] => none
  | b :: l =>
    if codeLength (b :: l) = 0 then behind l else some ((b :: l).drop (codeLength (b :: l)))

theorem behind_of_zero {b : UInt8} {l : List UInt8} (h : codeLength (b :: l) = 0) :
    behind (b :: l) = behind l := by
  rw [behind, if_pos h]

theorem behind_of_ne_zero {l : List UInt8} (h : codeLength l ≠ 0) :
    behind l = some (l.drop (codeLength l)) := by
  cases l with
  | nil => exact absurd (by decide) h
  | cons b l => rw [behind, if_neg h]

theorem length_behind {l rest : List UInt8} (h : behind l = some rest) :
    rest.length < l.length := by
  induction l with
  | nil => cases h
  | cons b l ih =>
    by_cases hc : codeLength (b :: l) = 0
    · rw [behind_of_zero hc] at h
      exact Nat.lt_succ_of_lt (ih h)
    · rw [behind_of_ne_zero hc] at h
      cases h
      rw [List.length_drop, List.length_cons]
      omega

/-- The first segment of a cut begins there. -/
theorem cut_snd_eq (l : List UInt8) :
    (cut l).2 = match behind l with
      | none => []
      | some rest => (cut rest).1 :: (cut rest).2 := by
  induction l with
  | nil => simp [behind]
  | cons b l ih =>
    by_cases hc : codeLength (b :: l) = 0
    · rw [behind_of_zero hc, cut_cons_of_zero hc]
      exact ih
    · rw [behind_of_ne_zero hc, cut_of_ne_zero hc]

/-- Bytes of the piece before the first start code may be dropped. -/
theorem cut_snd_drop {l : List UInt8} {k : ℕ} (h : k ≤ (cut l).1.length) :
    (cut (l.drop k)).2 = (cut l).2 := by
  induction k generalizing l with
  | zero => rfl
  | succ k ih =>
    cases l with
    | nil => simp at h
    | cons b l =>
      by_cases hc : codeLength (b :: l) = 0
      · rw [cut_cons_of_zero hc] at h ⊢
        exact ih (Nat.le_of_succ_le_succ h)
      · rw [cut_of_ne_zero hc] at h
        simp at h

/-- Without its first byte a string has the same segments, or lacks the first one. -/
theorem cut_snd_tail_suffix (b : UInt8) (l : List UInt8) : (cut l).2 <:+ (cut (b :: l)).2 := by
  by_cases hc : codeLength (b :: l) = 0
  · have hsame : (cut (b :: l)).2 = (cut l).2 := by rw [cut_cons_of_zero hc]
    exact hsame ▸ List.suffix_refl _
  · rw [cut_of_ne_zero hc]
    unfold codeLength at hc ⊢
    split
    case isTrue h₄ =>
      obtain ⟨r, rfl⟩ : ∃ r, l = [0, 0, 1] ++ r :=
        ⟨l.drop 3, by
          rw [List.take_succ_cons, List.cons.injEq] at h₄
          rw [← h₄.2, List.take_append_drop]⟩
      rw [cut_code_append (.inr rfl)]
      exact List.suffix_refl _
    case isFalse h₄ =>
      rw [if_neg h₄] at hc
      split
      case isFalse h₃ => exact absurd (if_neg h₃) hc
      case isTrue h₃ =>
        obtain ⟨r, rfl⟩ : ∃ r, l = [0, 1] ++ r :=
          ⟨l.drop 2, by
            rw [List.take_succ_cons, List.cons.injEq] at h₃
            rw [← h₃.2, List.take_append_drop]⟩
        -- no start code begins in the last two bytes of this one
        have h₁ : codeLength (0 :: 1 :: r) = 0 := codeLength_eq_zero.2 (by simp)
        have h₀ : codeLength (1 :: r) = 0 := codeLength_eq_zero.2 (by simp)
        change (cut (0 :: 1 :: r)).2 <:+ _ :: (cut r).2
        rw [cut_cons_of_zero h₁, cut_cons_of_zero h₀]
        exact List.suffix_cons _ _

theorem cut_snd_drop_suffix (l : List UInt8) (k : ℕ) : (cut (l.drop k)).2 <:+ (cut l).2 := by
  induction k generalizing l with
  | zero => exact List.suffix_refl _
  | succ k ih =>
    cases l with
    | nil => exact List.suffix_refl _
    | cons b l => exact (ih l).trans (cut_snd_tail_suffix b l)

/-! ## Counting start codes -/

/-- The number of start codes in a string. -/
def codes : List UInt8 → ℕ
  | [] => 0
  | b :: l => (if (b :: l).take 3 = [0, 0, 1] then 1 else 0) + codes l

theorem codes_startCode_append (l : List UInt8) : codes (startCode ++ l) = codes l + 1 := by
  cases l <;> simp [startCode, codes, Nat.add_comm]

/-- **A cut has a segment for each start code.** -/
theorem length_cut (l : List UInt8) : (cut l).2.length = codes l := by
  induction h : l.length using Nat.strongRecOn generalizing l with
  | ind n ih =>
    cases l with
    | nil => simp [codes]
    | cons b l =>
      simp only [List.length_cons] at h
      by_cases h₄ : (b :: l).take 4 = [0, 0, 0, 1]
      · obtain ⟨r, hr⟩ : ∃ r, b :: l = startCode ++ r :=
          ⟨(b :: l).drop 4, by rw [startCode, ← h₄, List.take_append_drop]⟩
        have hlen : r.length < n := by
          have := congrArg List.length hr
          simp [startCode] at this
          omega
        rw [hr, cut_startCode_append, codes_startCode_append, List.length_cons, ih _ hlen r rfl]
      · by_cases h₃ : (b :: l).take 3 = [0, 0, 1]
        · obtain ⟨r, hr⟩ : ∃ r, b :: l = [0, 0, 1] ++ r :=
            ⟨(b :: l).drop 3, by rw [← h₃, List.take_append_drop]⟩
          have hlen : r.length < n := by
            have := congrArg List.length hr
            simp at this
            omega
          have hcode : codeLength (b :: l) = 3 := by rw [codeLength, if_neg h₄, if_pos h₃]
          rw [cut_of_ne_zero (by rw [hcode]; decide), hcode, hr]
          show (cut r).2.length + 1 = codes (0 :: 0 :: 1 :: r)
          rw [ih _ hlen r rfl]
          cases r <;> simp [codes, Nat.add_comm]
        · rw [cut_cons_of_zero (codeLength_eq_zero.2 ⟨h₄, h₃⟩), codes, if_neg h₃, Nat.zero_add]
          exact ih _ (by omega) l rfl

/-- Start codes stay when strings are put together; new ones may appear between them. -/
theorem codes_add_le (a b : List UInt8) : codes a + codes b ≤ codes (a ++ b) := by
  induction a with
  | nil => simp [codes]
  | cons x a ih =>
    have hhead : (if (x :: a).take 3 = [0, 0, 1] then 1 else 0) ≤
        if (x :: (a ++ b)).take 3 = [0, 0, 1] then 1 else 0 := by
      split
      · rename_i h
        have hlen := congrArg List.length h
        simp at hlen
        refine Nat.le_of_eq ?_
        rw [← List.cons_append, List.take_append_of_le_length (by simp; omega), if_pos h]
      · omega
    rw [List.cons_append, codes, codes]
    omega

end Lib.StartCode
