import Mathlib.Data.List.Induction
import NativeVoice.Receive.ReorderBuffer

/-!
# Runs of the reorder buffer

What becomes of the packets that are pushed into a `_VideoReceiveReorderBuffer`. A packet is named
by its place in the run.

* `reorder_buffer_safe`: packets are released in order and once, a bounded number of them is kept,
  and every packet is released, kept, a duplicate or old.
-/

namespace NativeVoice.Receive

open Lib

namespace ReorderBuffer

/-- A push: the sequence number of the packet, and the time. -/
structure Push where
  sequence : UInt16
  now : ℚ

/-- The packets that a run released, in their order, and the buffer after it. -/
structure Run where
  released : List ℕ := []
  buffer : ReorderBuffer ℕ

def Run.push (s : Run) (x : Push × ℕ) : Run :=
  let (ready, buffer) := s.buffer.push x.1.sequence x.2 x.1.now
  { released := s.released ++ ready, buffer }

variable (maxPackets : ℕ) (maxDelay : ℚ)

def run (pushes : List Push) : Run :=
  pushes.zipIdx.foldl Run.push { buffer := { maxPackets, maxDelay } }

/-! ## The fates of a packet -/

/-- The buffer when packet `i` arrives. -/
def before (pushes : List Push) (i : ℕ) : ReorderBuffer ℕ :=
  (run maxPackets maxDelay (pushes.take i)).buffer

def sequenceAt (pushes : List Push) (i : ℕ) : UInt16 := (pushes[i]?.map Push.sequence).getD 0

/-- The unwrapped sequence number that packet `i` gets. -/
def unwrappedAt (pushes : List Push) (i : ℕ) : ℤ :=
  (before maxPackets maxDelay pushes i).unwrapped (sequenceAt pushes i)

inductive Fate
  | released
  | buffered
  | duplicate
  | old

/-- Released or kept by the end of the run, or when it arrived, a duplicate of a packet that was
kept or older than the expected one. -/
def HasFate (pushes : List Push) (i : ℕ) : Fate → Prop
  | .released => i ∈ (run maxPackets maxDelay pushes).released
  | .buffered => ∃ k, (run maxPackets maxDelay pushes).buffer.packets.lookup k = some i
  | .duplicate =>
    unwrappedAt maxPackets maxDelay pushes i ∈ (before maxPackets maxDelay pushes i).packets
  | .old => ∃ expected, (before maxPackets maxDelay pushes i).expectedSequence = some expected ∧
    unwrappedAt maxPackets maxDelay pushes i < expected

/-- The packet is stored when it arrives. -/
def Stored (pushes : List Push) (i : ℕ) : Prop :=
  ¬HasFate maxPackets maxDelay pushes i .duplicate ∧ ¬HasFate maxPackets maxDelay pushes i .old

/-! ## The invariant -/

/-- The keys of the buffer lie above the expected sequence number. -/
def Ahead {α : Type} (b : ReorderBuffer α) : Prop :=
  ∀ k ∈ b.packets, ∃ expected, b.expectedSequence = some expected ∧ expected < k

structure Accounts (pushes : List Push) (s : Run) : Prop where
  maxPackets_eq : s.buffer.maxPackets = maxPackets
  ahead : Ahead s.buffer
  size : s.buffer.packets.size ≤ maxPackets
  buffered : ∀ k i, s.buffer.packets.lookup k = some i → i < pushes.length ∧
    unwrappedAt maxPackets maxDelay pushes i = k ∧ Stored maxPackets maxDelay pushes i
  released : ∀ i ∈ s.released, i < pushes.length ∧ Stored maxPackets maxDelay pushes i ∧
    ∃ expected, s.buffer.expectedSequence = some expected ∧
      unwrappedAt maxPackets maxDelay pushes i < expected
  sorted : (s.released.map (unwrappedAt maxPackets maxDelay pushes)).Pairwise (· < ·)
  stored : ∀ i < pushes.length, Stored maxPackets maxDelay pushes i →
    i ∈ s.released ∨ ∃ k, s.buffer.packets.lookup k = some i
  arrived : ∀ i < pushes.length, ∃ expected, s.buffer.expectedSequence = some expected ∧
    (unwrappedAt maxPackets maxDelay pushes i < expected ∨
      unwrappedAt maxPackets maxDelay pushes i ∈ s.buffer.packets)

/-- What a push does to a buffer whose keys lie ahead, unless the packet is old: the packet is
stored, and some first packets are popped. -/
theorem push_of_ahead {α : Type} {b : ReorderBuffer α} (h : Ahead b) (sequence : UInt16)
    (packet : α) (now : ℚ) :
    (b.unwrapped sequence < b.expectedSequence.getD sequence.toNat ∧
      b.push sequence packet now = ([], b)) ∨
    b.expectedSequence.getD sequence.toNat ≤ b.unwrapped sequence ∧
    ∃ lo hi ready kept blockedAt,
      b.expectedSequence.getD sequence.toNat ≤ lo ∧
      (∀ k ∈ b.storing sequence packet, lo ≤ k) ∧
      Pops (b.storing sequence packet) lo hi ready kept ∧
      (ready ≠ [] ∨ kept.size ≤ b.maxPackets) ∧
      b.push sequence packet now = (ready, { b with
        expectedSequence := some hi
        blockedAt := blockedAt
        packets := kept }) := by
  have hle : ∀ k ∈ b.storing sequence packet,
      b.expectedSequence.getD sequence.toNat ≤ b.unwrapped sequence →
        b.expectedSequence.getD sequence.toNat ≤ k := by
    intro k hk hnew
    rcases AList.mem_setdefault.1 hk with rfl | hk
    · exact hnew
    · obtain ⟨expected, hexpected, hlt⟩ := h k hk
      rw [hexpected]
      exact hlt.le
  have hspec := push_spec b sequence packet now
  generalize b.push sequence packet now = result at hspec ⊢
  cases hspec with
  | old hold => exact .inl ⟨hold, rfl⟩
  | released hexpected hnew hpops hready =>
    subst hexpected
    exact .inr ⟨hnew, _, _, _, _, _, le_rfl, fun k hk => hle k hk hnew, hpops, .inl hready, rfl⟩
  | waits hexpected hnew hgap hsize hdelay =>
    subst hexpected
    exact .inr ⟨hnew, _, _, _, _, _, le_rfl, fun k hk => hle k hk hnew, .none hgap, .inr hsize, rfl⟩
  | skips hexpected hnew hgap hlo hpops hready =>
    subst hexpected
    obtain ⟨hmem, hmin⟩ := AList.minKey_eq_some.1 hlo
    exact .inr ⟨hnew, _, _, _, _, _, hle _ hmem hnew, hmin, hpops, .inl hready, rfl⟩

/-! ### One more push -/

section

variable {maxPackets maxDelay} {pushes : List Push} {x : Push} {i : ℕ} {s : Run}

theorem run_concat : run maxPackets maxDelay (pushes ++ [x]) =
    (run maxPackets maxDelay pushes).push (x, pushes.length) := by
  rw [run, List.zipIdx_append, List.foldl_append]
  simp [run]

theorem before_concat (h : i ≤ pushes.length) :
    before maxPackets maxDelay (pushes ++ [x]) i = before maxPackets maxDelay pushes i := by
  rw [before, List.take_append_of_le_length h, before]

theorem unwrappedAt_concat (h : i < pushes.length) :
    unwrappedAt maxPackets maxDelay (pushes ++ [x]) i =
      unwrappedAt maxPackets maxDelay pushes i := by
  rw [unwrappedAt, before_concat h.le, sequenceAt, List.getElem?_append_left h, unwrappedAt,
    sequenceAt]

theorem map_unwrappedAt_concat {l : List ℕ} (h : ∀ i ∈ l, i < pushes.length) :
    l.map (unwrappedAt maxPackets maxDelay (pushes ++ [x])) =
      l.map (unwrappedAt maxPackets maxDelay pushes) :=
  List.map_congr_left fun i hi => unwrappedAt_concat (h i hi)

theorem stored_concat (h : i < pushes.length) :
    Stored maxPackets maxDelay (pushes ++ [x]) i ↔ Stored maxPackets maxDelay pushes i := by
  simp only [Stored, HasFate, unwrappedAt_concat h, before_concat h.le]

theorem before_length (hs : run maxPackets maxDelay pushes = s) :
    before maxPackets maxDelay (pushes ++ [x]) pushes.length = s.buffer := by
  rw [before_concat le_rfl, before, List.take_length, hs]

theorem unwrappedAt_length (hs : run maxPackets maxDelay pushes = s) :
    unwrappedAt maxPackets maxDelay (pushes ++ [x]) pushes.length =
      s.buffer.unwrapped x.sequence := by
  rw [unwrappedAt, before_length hs, sequenceAt, List.getElem?_concat_length]
  rfl

theorem stored_length (hs : run maxPackets maxDelay pushes = s) :
    Stored maxPackets maxDelay (pushes ++ [x]) pushes.length ↔
      s.buffer.unwrapped x.sequence ∉ s.buffer.packets ∧
      ¬s.buffer.unwrapped x.sequence < s.buffer.expectedSequence.getD x.sequence.toNat := by
  simp only [Stored, HasFate, unwrappedAt_length hs, before_length hs]
  refine and_congr_right fun _ => not_congr ?_
  unfold unwrapped
  cases s.buffer.expectedSequence <;> simp

theorem lt_or_eq_of_lt_concat (h : i < (pushes ++ [x]).length) :
    i < pushes.length ∨ i = pushes.length :=
  Nat.lt_succ_iff_lt_or_eq.1 (by simpa using h)

theorem lt_concat (h : i < pushes.length) : i < (pushes ++ [x]).length := by
  simp
  omega

theorem exists_expected_of_old {α : Type} {b : ReorderBuffer α} {sequence : UInt16}
    (h : b.unwrapped sequence < b.expectedSequence.getD sequence.toNat) :
    ∃ expected, b.expectedSequence = some expected :=
  ⟨_, (expectedSequence_of_old h).symm⟩

theorem lookup_storing_of_lookup {α : Type} {b : ReorderBuffer α} {sequence : UInt16}
    {packet packet' : α} {k : ℤ} (h : b.packets.lookup k = some packet') :
    (b.storing sequence packet).lookup k = some packet' := by
  unfold storing
  by_cases hmem : b.unwrapped sequence ∈ b.packets
  · rwa [AList.setdefault_of_mem hmem]
  · have hne : k ≠ b.unwrapped sequence := by
      rintro rfl
      exact hmem (AList.mem_of_lookup h)
    rwa [AList.lookup_setdefault_ne hne]

namespace Accounts

theorem init : Accounts maxPackets maxDelay [] { buffer := { maxPackets, maxDelay } } where
  maxPackets_eq := rfl
  ahead := by simp [Ahead]
  size := Nat.zero_le _
  buffered := by simp
  released := by simp
  sorted := .nil
  stored := by simp
  arrived := by simp

/-- An old packet changes nothing. -/
theorem old (h : Accounts maxPackets maxDelay pushes s) (hs : run maxPackets maxDelay pushes = s)
    (hold : s.buffer.unwrapped x.sequence < s.buffer.expectedSequence.getD x.sequence.toNat) :
    Accounts maxPackets maxDelay (pushes ++ [x]) s := by
  refine ⟨h.maxPackets_eq, h.ahead, h.size, fun k i hk => ?_, fun i hi => ?_, ?_,
    fun i hi hstored => ?_, fun i hi => ?_⟩
  · obtain ⟨hlt, hunwrapped, hstored⟩ := h.buffered k i hk
    refine ⟨lt_concat hlt, ?_, (stored_concat hlt).2 hstored⟩
    rwa [unwrappedAt_concat hlt]
  · obtain ⟨hlt, hstored, hreleased⟩ := h.released i hi
    refine ⟨lt_concat hlt, (stored_concat hlt).2 hstored, ?_⟩
    rwa [unwrappedAt_concat hlt]
  · rw [map_unwrappedAt_concat fun i hi => (h.released i hi).1]
    exact h.sorted
  · rcases lt_or_eq_of_lt_concat hi with hlt | rfl
    · exact h.stored i hlt ((stored_concat hlt).1 hstored)
    · exact absurd hold ((stored_length hs).1 hstored).2
  · rcases lt_or_eq_of_lt_concat hi with hlt | rfl
    · rw [unwrappedAt_concat hlt]
      exact h.arrived i hlt
    · obtain ⟨expected, hexpected⟩ := exists_expected_of_old hold
      rw [hexpected] at hold
      exact ⟨expected, hexpected, .inl ((unwrappedAt_length hs).trans_lt hold)⟩

/-- What is in the buffer after a packet was stored. -/
theorem entry (h : Accounts maxPackets maxDelay pushes s) (hs : run maxPackets maxDelay pushes = s)
    (hnew : s.buffer.expectedSequence.getD x.sequence.toNat ≤ s.buffer.unwrapped x.sequence)
    {k : ℤ} (hk : (s.buffer.storing x.sequence pushes.length).lookup k = some i) :
    i < (pushes ++ [x]).length ∧ unwrappedAt maxPackets maxDelay (pushes ++ [x]) i = k ∧
      Stored maxPackets maxDelay (pushes ++ [x]) i := by
  have hold : ∀ {k}, s.buffer.packets.lookup k = some i → i < (pushes ++ [x]).length ∧
      unwrappedAt maxPackets maxDelay (pushes ++ [x]) i = k ∧
      Stored maxPackets maxDelay (pushes ++ [x]) i := by
    intro k hk
    obtain ⟨hlt, hunwrapped, hstored⟩ := h.buffered k i hk
    exact ⟨lt_concat hlt, (unwrappedAt_concat hlt).trans hunwrapped, (stored_concat hlt).2 hstored⟩
  by_cases hmem : s.buffer.unwrapped x.sequence ∈ s.buffer.packets
  · rw [storing, AList.setdefault_of_mem hmem] at hk
    exact hold hk
  · rcases eq_or_ne k (s.buffer.unwrapped x.sequence) with rfl | hne
    · rw [storing, AList.lookup_setdefault_of_notMem hmem] at hk
      obtain rfl := Option.some.inj hk
      exact ⟨by simp, unwrappedAt_length hs, (stored_length hs).2 ⟨hmem, Int.not_lt.2 hnew⟩⟩
    · rw [storing, AList.lookup_setdefault_ne hne] at hk
      exact hold hk

/-- A packet is stored, or the place that it would have is taken, and then the buffer pops. -/
theorem pops (h : Accounts maxPackets maxDelay pushes s) (hs : run maxPackets maxDelay pushes = s)
    {lo hi : ℤ} {ready : List ℕ} {kept : Dict ℤ ℕ} (blockedAt : Option ℚ)
    (hnew : s.buffer.expectedSequence.getD x.sequence.toNat ≤ s.buffer.unwrapped x.sequence)
    (hlo : s.buffer.expectedSequence.getD x.sequence.toNat ≤ lo)
    (hmin : ∀ k ∈ s.buffer.storing x.sequence pushes.length, lo ≤ k)
    (hpops : Pops (s.buffer.storing x.sequence pushes.length) lo hi ready kept)
    (hsize : ready ≠ [] ∨ kept.size ≤ s.buffer.maxPackets) :
    Accounts maxPackets maxDelay (pushes ++ [x]) {
      released := s.released ++ ready
      buffer := { s.buffer with
        expectedSequence := some hi
        blockedAt := blockedAt
        packets := kept } } := by
  have hlohi := hpops.le
  have hexpected : ∀ expected, s.buffer.expectedSequence = some expected → expected ≤ lo := by
    intro expected heq
    rwa [heq] at hlo
  have hkeep : ∀ k i, (s.buffer.storing x.sequence pushes.length).lookup k = some i →
      k < hi ∧ i ∈ ready ∨ hi < k ∧ kept.lookup k = some i :=
    fun k i hk => hpops.mem_or hk (hmin k (AList.mem_of_lookup hk))
  refine ⟨h.maxPackets_eq, fun k hk => ?_, ?_, fun k i hk => ?_, fun i hmem => ?_, ?_,
    fun i hlen hstored => ?_, fun i hlen => ?_⟩
  · obtain ⟨i, hk⟩ := AList.exists_lookup hk
    have hmem := AList.mem_of_lookup (hpops.lookup_of_kept hk)
    exact ⟨hi, rfl, hpops.lt_of_kept hk (hmin k hmem)⟩
  · have hstore := s.buffer.packets.size_setdefault_le (s.buffer.unwrapped x.sequence) pushes.length
    have hpop := hpops.size
    have hbound := h.size
    rcases hsize with hready | hkept
    · have := List.length_pos_iff.2 hready
      rw [storing] at hpop
      show kept.size ≤ maxPackets
      omega
    · exact hkept.trans_eq h.maxPackets_eq
  · exact h.entry hs hnew (hpops.lookup_of_kept hk)
  · rcases List.mem_append.1 hmem with hmem | hmem
    · obtain ⟨hlt, hstored, expected, heq, hbelow⟩ := h.released i hmem
      have := hexpected expected heq
      refine ⟨lt_concat hlt, (stored_concat hlt).2 hstored, _, rfl, ?_⟩
      rw [unwrappedAt_concat hlt]
      omega
    · obtain ⟨k, -, hk, hlookup⟩ := hpops.exists_of_mem_ready hmem
      obtain ⟨hlt, hunwrapped, hstored⟩ := h.entry hs hnew hlookup
      exact ⟨hlt, hstored, _, rfl, hunwrapped ▸ hk⟩
  · rw [List.map_append, map_unwrappedAt_concat fun i hi => (h.released i hi).1,
      hpops.map_ready fun k i hk => (h.entry hs hnew hk).2.1]
    refine List.pairwise_append.2 ⟨h.sorted, ?_, ?_⟩
    · exact List.pairwise_lt_range.map _ fun i j hij => by omega
    · intro a ha c hc
      obtain ⟨i, hi, rfl⟩ := List.mem_map.1 ha
      obtain ⟨j, -, rfl⟩ := List.mem_map.1 hc
      obtain ⟨-, -, expected, heq, hbelow⟩ := h.released i hi
      have := hexpected expected heq
      omega
  · have hstays : (∃ k, (s.buffer.storing x.sequence pushes.length).lookup k = some i) →
        i ∈ s.released ++ ready ∨ ∃ k, kept.lookup k = some i := by
      rintro ⟨k, hk⟩
      rcases hkeep k i hk with ⟨-, hready⟩ | ⟨-, hkept⟩
      · exact .inl (List.mem_append_right _ hready)
      · exact .inr ⟨k, hkept⟩
    rcases lt_or_eq_of_lt_concat hlen with hlt | rfl
    · rcases h.stored i hlt ((stored_concat hlt).1 hstored) with hreleased | ⟨k, hk⟩
      · exact .inl (List.mem_append_left _ hreleased)
      · exact hstays ⟨k, lookup_storing_of_lookup hk⟩
    · exact hstays ⟨_, AList.lookup_setdefault_of_notMem ((stored_length hs).1 hstored).1⟩
  · have hstays : ∀ k ∈ s.buffer.storing x.sequence pushes.length, k < hi ∨ k ∈ kept := by
      intro k hk
      obtain ⟨i, hk⟩ := AList.exists_lookup hk
      rcases hkeep k i hk with ⟨hlt, -⟩ | ⟨-, hkept⟩
      · exact .inl hlt
      · exact .inr (AList.mem_of_lookup hkept)
    rcases lt_or_eq_of_lt_concat hlen with hlt | rfl
    · rw [unwrappedAt_concat hlt]
      obtain ⟨expected, heq, hbelow | hmem⟩ := h.arrived i hlt
      · have := hexpected expected heq
        exact ⟨_, rfl, .inl (by omega)⟩
      · exact ⟨_, rfl, hstays _ (AList.mem_setdefault.2 (.inr hmem))⟩
    · rw [unwrappedAt_length hs]
      exact ⟨_, rfl, hstays _ (AList.mem_setdefault_self ..)⟩

end Accounts

theorem accounts_run (maxPackets : ℕ) (maxDelay : ℚ) (pushes : List Push) :
    Accounts maxPackets maxDelay pushes (run maxPackets maxDelay pushes) := by
  induction pushes using List.reverseRecOn with
  | nil => exact .init
  | append_singleton pushes x ih =>
    rw [run_concat]
    rcases push_of_ahead ih.ahead x.sequence pushes.length x.now with ⟨hold, hpush⟩ |
      ⟨hnew, lo, hi, ready, kept, blockedAt, hlo, hmin, hpops, hsize, hpush⟩
    · simp only [Run.push, hpush, List.append_nil]
      exact ih.old rfl hold
    · simp only [Run.push, hpush]
      exact ih.pops rfl blockedAt hnew hlo hmin hpops hsize

/-! ## The results -/

/-- A push moves the expected sequence number on, if at all. -/
theorem expected_concat (maxPackets : ℕ) (maxDelay : ℚ) (pushes : List Push) (x : Push) :
    ∃ expected,
      (run maxPackets maxDelay (pushes ++ [x])).buffer.expectedSequence = some expected ∧
      (run maxPackets maxDelay pushes).buffer.expectedSequence.getD x.sequence.toNat ≤
        expected := by
  have hahead := (accounts_run maxPackets maxDelay pushes).ahead
  rw [run_concat]
  rcases push_of_ahead hahead x.sequence pushes.length x.now with
    ⟨hold, hpush⟩ | ⟨-, lo, hi, ready, kept, blockedAt, hlo, -, hpops, -, hpush⟩
  · simp only [Run.push, hpush]
    exact ⟨_, (expectedSequence_of_old hold).symm, le_rfl⟩
  · simp only [Run.push, hpush]
    exact ⟨hi, rfl, hlo.trans hpops.le⟩

theorem expected_append (post : List Push) {pre : List Push} {expected : ℤ}
    (h : (run maxPackets maxDelay pre).buffer.expectedSequence = some expected) :
    ∃ expected', (run maxPackets maxDelay (pre ++ post)).buffer.expectedSequence = some expected' ∧
      expected ≤ expected' := by
  induction post using List.reverseRecOn with
  | nil => exact ⟨expected, by rwa [List.append_nil], le_rfl⟩
  | append_singleton post x ih =>
    obtain ⟨middle, hmiddle, hle⟩ := ih
    obtain ⟨expected', hexpected', hle'⟩ := expected_concat maxPackets maxDelay (pre ++ post) x
    rw [hmiddle] at hle'
    exact ⟨expected', by rwa [← List.append_assoc], hle.trans hle'⟩

/-- The expected sequence number is not before the first one. -/
theorem first_le_expected {first : Push} {rest : List Push} {expected : ℤ}
    (h : (run maxPackets maxDelay (first :: rest)).buffer.expectedSequence = some expected) :
    first.sequence.toNat ≤ expected := by
  obtain ⟨after, hafter, hle⟩ := expected_concat maxPackets maxDelay [] first
  obtain ⟨expected', hexpected', hle'⟩ := expected_append rest hafter
  obtain rfl : expected' = expected := Option.some.inj (hexpected'.symm.trans h)
  exact le_trans hle hle'

theorem released_nodup (maxPackets : ℕ) (maxDelay : ℚ) (pushes : List Push) :
    (run maxPackets maxDelay pushes).released.Nodup :=
  List.Nodup.of_map _ ((accounts_run maxPackets maxDelay pushes).sorted.imp ne_of_lt)

/-- A packet is not a duplicate and old: what is kept is ahead. -/
theorem not_duplicate_of_old (h : HasFate maxPackets maxDelay pushes i .old) :
    ¬HasFate maxPackets maxDelay pushes i .duplicate := by
  intro hduplicate
  obtain ⟨expected, hexpected, hlt⟩ := h
  obtain ⟨_, heq, hlt'⟩ := (accounts_run maxPackets maxDelay (pushes.take i)).ahead _ hduplicate
  obtain rfl := Option.some.inj (hexpected.symm.trans heq)
  omega

/-- A packet is not both released and kept. -/
theorem not_buffered_of_released (h : HasFate maxPackets maxDelay pushes i .released) :
    ¬HasFate maxPackets maxDelay pushes i .buffered := by
  rintro ⟨k, hk⟩
  have haccounts := accounts_run maxPackets maxDelay pushes
  obtain ⟨-, -, expected, hexpected, hlt⟩ := haccounts.released i h
  obtain ⟨-, hunwrapped, -⟩ := haccounts.buffered k i hk
  obtain ⟨_, heq, hlt'⟩ := haccounts.ahead k (AList.mem_of_lookup hk)
  obtain rfl := Option.some.inj (hexpected.symm.trans heq)
  omega

theorem existsUnique_fate (h : i < pushes.length) :
    ∃! fate, HasFate maxPackets maxDelay pushes i fate := by
  have haccounts := accounts_run maxPackets maxDelay pushes
  have hstored : ∀ fate, HasFate maxPackets maxDelay pushes i fate →
      fate = .released ∨ fate = .buffered → Stored maxPackets maxDelay pushes i := by
    rintro _ hfate (rfl | rfl)
    · exact (haccounts.released i hfate).2.1
    · exact (haccounts.buffered hfate.choose i hfate.choose_spec).2.2
  by_cases hduplicate : HasFate maxPackets maxDelay pushes i .duplicate
  · refine ⟨.duplicate, hduplicate, fun fate hfate => ?_⟩
    cases fate with
    | released => exact absurd hduplicate (hstored _ hfate (.inl rfl)).1
    | buffered => exact absurd hduplicate (hstored _ hfate (.inr rfl)).1
    | duplicate => rfl
    | old => exact absurd hduplicate (not_duplicate_of_old hfate)
  by_cases hold : HasFate maxPackets maxDelay pushes i .old
  · refine ⟨.old, hold, fun fate hfate => ?_⟩
    cases fate with
    | released => exact absurd hold (hstored _ hfate (.inl rfl)).2
    | buffered => exact absurd hold (hstored _ hfate (.inr rfl)).2
    | duplicate => exact absurd hfate hduplicate
    | old => rfl
  rcases haccounts.stored i h ⟨hduplicate, hold⟩ with hreleased | hbuffered
  · refine ⟨.released, hreleased, fun fate hfate => ?_⟩
    cases fate with
    | released => rfl
    | buffered => exact absurd hfate (not_buffered_of_released hreleased)
    | duplicate => exact absurd hfate hduplicate
    | old => exact absurd hfate hold
  · refine ⟨.buffered, hbuffered, fun fate hfate => ?_⟩
    cases fate with
    | released => exact absurd hbuffered (not_buffered_of_released hfate)
    | buffered => rfl
    | duplicate => exact absurd hfate hduplicate
    | old => exact absurd hfate hold

/-- No gap below a packet is left for it to wait for, if all before it have arrived. -/
theorem lt_of_arrived {first : Push} {rest : List Push} {m : ℤ}
    (h : ∀ k, (first.sequence.toNat : ℤ) ≤ k → k ≤ m → ∃ i < (first :: rest).length,
      unwrappedAt maxPackets maxDelay (first :: rest) i = k) {k : ℤ}
    (hk : k ∈ (run maxPackets maxDelay (first :: rest)).buffer.packets) : m < k := by
  have haccounts := accounts_run maxPackets maxDelay (first :: rest)
  obtain ⟨expected, hexpected, hlt⟩ := haccounts.ahead k hk
  by_contra hle
  obtain ⟨i, hi, hunwrapped⟩ := h expected (first_le_expected hexpected) (by omega)
  obtain ⟨_, heq, hbelow⟩ := haccounts.arrived i hi
  obtain rfl := Option.some.inj (hexpected.symm.trans heq)
  rw [hunwrapped] at hbelow
  rcases hbelow with hlt | hmem
  · omega
  · obtain ⟨_, heq, hlt⟩ := haccounts.ahead expected hmem
    obtain rfl := Option.some.inj (hexpected.symm.trans heq)
    omega

end

/-- **Reorder buffer safety**, over all runs: packets are released in the order of their unwrapped
sequence numbers and once, the expected sequence number does not go back, the packets that are kept
are ahead of it and at most `max_packets`, and each packet has one fate. If all from the first one
up to `m` have arrived, none of them is kept. The unwrapped sequence numbers are those of the
packets, around the one that is expected when a packet arrives. -/
theorem reorder_buffer_safe (pushes : List Push) :
    let s := run maxPackets maxDelay pushes
    (s.released.map (unwrappedAt maxPackets maxDelay pushes)).Pairwise (· < ·) ∧
    s.released.Nodup ∧
    (∀ pre post expected, pushes = pre ++ post →
      (run maxPackets maxDelay pre).buffer.expectedSequence = some expected →
      ∃ expected', s.buffer.expectedSequence = some expected' ∧ expected ≤ expected') ∧
    (∀ k ∈ s.buffer.packets, ∃ expected, s.buffer.expectedSequence = some expected ∧
      expected < k) ∧
    s.buffer.packets.size ≤ maxPackets ∧
    (∀ i < pushes.length, ∃! fate, HasFate maxPackets maxDelay pushes i fate) ∧
    (∀ first rest (m : ℤ), pushes = first :: rest →
      (∀ k, (first.sequence.toNat : ℤ) ≤ k → k ≤ m → ∃ i < pushes.length,
        unwrappedAt maxPackets maxDelay pushes i = k) →
      ∀ k ∈ s.buffer.packets, m < k) ∧
    ∀ i x, pushes[i]? = some x →
      UnwrapsTo (before maxPackets maxDelay pushes i).expectedSequence x.sequence
        (unwrappedAt maxPackets maxDelay pushes i) := by
  intro s
  have haccounts := accounts_run maxPackets maxDelay pushes
  refine ⟨haccounts.sorted, released_nodup maxPackets maxDelay pushes, ?_, haccounts.ahead,
    haccounts.size, fun i hi => existsUnique_fate hi, ?_, fun i x hx => ?_⟩
  · rintro pre post expected rfl hexpected
    exact expected_append post hexpected
  · rintro first rest m rfl harrived k hk
    exact lt_of_arrived harrived hk
  · rw [← unwrapped_eq_iff, unwrappedAt, sequenceAt, hx]
    rfl

end ReorderBuffer

end NativeVoice.Receive
