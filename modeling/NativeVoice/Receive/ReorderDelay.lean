import Mathlib.Tactic.Linarith
import NativeVoice.Receive.ReorderRuns

/-!
# How long the reorder buffer holds a packet

`max_delay` is the time that `_VideoReceiveReorderBuffer` waits at a gap. The time is taken from
`_blocked_at`, one for the buffer, which every release and flush clears, and which is only looked
at when the packet that is pushed is not an old one.

* `holdBound_of_timely`: no packet is held for `max_delay` while no packets stay behind another gap
  when the timer is cleared, and no old packet comes when the timer has run out.
* `not_holdBound`: otherwise a packet may be held for longer.
-/

namespace NativeVoice.Receive

open Lib

namespace ReorderBuffer

/-- After the push of packet `i` no packet is held that was pushed `maxDelay` before it. -/
def HoldBound (maxPackets : ℕ) (maxDelay : ℚ) (pushes : List Push) : Prop :=
  ∀ i x, pushes[i]? = some x → ∀ k j y,
    (before maxPackets maxDelay pushes (i + 1)).packets.lookup k = some j →
    pushes[j]? = some y → x.now - maxDelay < y.now

/-! ## Pushes that respect the timer -/

section

variable {α : Type}

/-- There is no gap between the packets. -/
def Contiguous (packets : Dict ℤ α) : Prop :=
  ∀ lo ∈ packets, ∀ hi ∈ packets, ∀ k, lo ≤ k → k ≤ hi → k ∈ packets

instance (packets : Dict ℤ α) : Decidable (Contiguous packets) :=
  decidable_of_iff
    (∀ lo ∈ packets.keys, ∀ hi ∈ packets.keys, ∀ n ≤ (hi - lo).toNat, lo + n ≤ hi →
      lo + n ∈ packets) (by
    refine forall₂_congr fun lo _ => forall₂_congr fun hi _ => ⟨fun h k hlo hhi => ?_,
      fun h n _ hn => h _ (by omega) hn⟩
    have hk := h (k - lo).toNat (by omega) (by omega)
    rwa [show lo + ((k - lo).toNat : ℤ) = k by omega] at hk)

/-- The buffer is not blocked, or not yet for `max_delay`. -/
def InTime (b : ReorderBuffer α) (now : ℚ) : Prop := now - b.blockedAt.getD now < b.maxDelay

instance (b : ReorderBuffer α) (now : ℚ) : Decidable (b.InTime now) :=
  inferInstanceAs (Decidable (_ < _))

/-- What a push finds: an old packet finds the buffer empty or still in time; another one is stored
with a gap before all packets and the buffer still in time and not too full, or with no gap
between the packets. -/
def Timely (b : ReorderBuffer α) (sequence : UInt16) (packet : α) (now : ℚ) : Prop :=
  let expected := b.expectedSequence.getD sequence.toNat
  if b.unwrapped sequence < expected then b.packets.size = 0 ∨ b.InTime now
  else
    expected ∉ b.storing sequence packet ∧
      (b.storing sequence packet).size ≤ b.maxPackets ∧ b.InTime now ∨
    Contiguous (b.storing sequence packet)

instance (b : ReorderBuffer α) (sequence : UInt16) (packet : α) (now : ℚ) :
    Decidable (b.Timely sequence packet now) :=
  inferInstanceAs (Decidable (ite _ _ _))

theorem Pops.lo_mem {packets kept : Dict ℤ α} {lo hi : ℤ} {ready : List α}
    (h : Pops packets lo hi ready kept) (hready : ready ≠ []) : lo ∈ packets := by
  obtain ⟨packet, ready, rfl⟩ := List.exists_cons_of_ne_nil hready
  have hlookup := h.lookup_ready 0 packet rfl
  rw [Nat.cast_zero, add_zero] at hlookup
  exact AList.mem_of_lookup hlookup

/-- All packets that are stored with no gap between them are released. -/
theorem Pops.kept_eq_none {packets kept : Dict ℤ α} {lo hi : ℤ} {ready : List α}
    (h : Pops packets lo hi ready kept) (hlo : lo ∈ packets) (hmin : ∀ k ∈ packets, lo ≤ k)
    (hcontiguous : Contiguous packets) (k : ℤ) : kept.lookup k = .none := by
  cases hk : kept.lookup k with
  | none => rfl
  | some packet =>
    have hmem := AList.mem_of_lookup (h.lookup_of_kept hk)
    have hlt := h.lt_of_kept hk (hmin k hmem)
    have hhi := hcontiguous lo hlo k hmem hi h.le hlt.le
    exact absurd hhi (AList.lookup_eq_none.1 h.lookup_hi)

section

variable {b : ReorderBuffer α} {sequence : UInt16} {packet : α} {now : ℚ}

/-- A buffer whose keys lie ahead stores no packet before the expected one. -/
theorem le_of_mem_storing (hahead : Ahead b)
    (hnew : b.expectedSequence.getD sequence.toNat ≤ b.unwrapped sequence) {k : ℤ}
    (hk : k ∈ b.storing sequence packet) : b.expectedSequence.getD sequence.toNat ≤ k := by
  rcases AList.mem_setdefault.1 hk with rfl | hk
  · exact hnew
  · obtain ⟨expected, hexpected, hlt⟩ := hahead k hk
    rw [hexpected]
    exact hlt.le

/-- With a gap before all packets, in time and not too full, the buffer waits. -/
theorem push_of_waits (hnew : b.expectedSequence.getD sequence.toNat ≤ b.unwrapped sequence)
    (hgap : b.expectedSequence.getD sequence.toNat ∉ b.storing sequence packet)
    (hsize : (b.storing sequence packet).size ≤ b.maxPackets) (hdelay : b.InTime now) :
    b.push sequence packet now = ([], { b with
      expectedSequence := some (b.expectedSequence.getD sequence.toNat)
      blockedAt := some (b.blockedAt.getD now)
      packets := b.storing sequence packet }) := by
  have hgap' := AList.lookup_eq_none.2 hgap
  unfold storing at hgap' hsize ⊢
  unfold InTime at hdelay
  unfold push
  simp only [if_neg (Int.not_lt.2 hnew)]
  rw [popReady_of_none rfl hgap', if_neg (not_not_intro rfl), if_pos ⟨hsize, hdelay⟩]

/-- What a timely push does to the buffer: an old packet leaves it as it was; otherwise it waits
with the packet stored, or nothing is left in it. -/
theorem push_of_timely (hahead : Ahead b) (h : b.Timely sequence packet now) :
    (b.push sequence packet now).2 = b ∧ (b.packets.size = 0 ∨ b.InTime now) ∨
    (b.InTime now ∧ (b.push sequence packet now).2 = { b with
      expectedSequence := some (b.expectedSequence.getD sequence.toNat)
      blockedAt := some (b.blockedAt.getD now)
      packets := b.storing sequence packet }) ∨
    ((b.push sequence packet now).2.blockedAt = none ∧
      ∀ k, (b.push sequence packet now).2.packets.lookup k = none) := by
  unfold Timely at h
  dsimp only at h
  split_ifs at h with hold
  · have hpush : b.push sequence packet now = ([], b) := by
      rcases push_of_ahead hahead sequence packet now with ⟨-, hpush⟩ | ⟨hnew, -⟩
      · exact hpush
      · exact absurd hold (Int.not_lt.2 hnew)
    rw [hpush]
    exact .inl ⟨rfl, h⟩
  refine .inr ?_
  have hnew := Int.not_lt.1 hold
  rcases h with ⟨hgap, hsize, hdelay⟩ | hcontiguous
  · rw [push_of_waits hnew hgap hsize hdelay]
    exact .inl ⟨hdelay, rfl⟩
  -- the buffer is emptied, unless it waits
  have hspec := push_spec b sequence packet now
  generalize b.push sequence packet now = result at hspec ⊢
  cases hspec with
  | old hold' => exact absurd hold' hold
  | released hexpected _ hpops hready =>
    subst hexpected
    exact .inr ⟨rfl, hpops.kept_eq_none (hpops.lo_mem hready)
      (fun k hk => le_of_mem_storing hahead hnew hk) hcontiguous⟩
  | waits hexpected _ hgap hsize hdelay =>
    subst hexpected
    exact .inl ⟨hdelay, rfl⟩
  | skips hexpected _ hgap hlo hpops hready =>
    obtain ⟨hmem, hmin⟩ := AList.minKey_eq_some.1 hlo
    exact .inr ⟨rfl, hpops.kept_eq_none hmem hmin hcontiguous⟩

end

end

/-! ## The bound over a run -/

/-- The buffer after a run: packets of the run are held only while it is blocked, and they were
pushed no earlier than it was. -/
structure Blocked (pushes : List Push) (b : ReorderBuffer ℕ) : Prop where
  held : ∀ k j, b.packets.lookup k = some j → ∃ y blockedAt, pushes[j]? = some y ∧
    b.blockedAt = some blockedAt ∧ blockedAt ≤ y.now
  since : ∀ blockedAt, b.blockedAt = some blockedAt → ∃ y ∈ pushes, y.now = blockedAt

section

variable {maxPackets : ℕ} {maxDelay : ℚ} {pushes : List Push} {x : Push}

theorem Blocked.init : Blocked [] ({ maxPackets, maxDelay } : ReorderBuffer ℕ) where
  held := by simp
  since := by simp

/-- While the buffer is in time, so are the packets in it. -/
theorem Blocked.lt_of_inTime {b : ReorderBuffer ℕ} (h : Blocked pushes b) {now : ℚ}
    (hdelay : b.InTime now) {k : ℤ} {j : ℕ} {y : Push} (hk : b.packets.lookup k = some j)
    (hy : pushes[j]? = some y) : now - b.maxDelay < y.now := by
  obtain ⟨y', blockedAt, hy', hblocked, hle⟩ := h.held k j hk
  obtain rfl : y' = y := Option.some.inj (hy'.symm.trans hy)
  rw [InTime, hblocked, Option.getD_some] at hdelay
  linarith

theorem Blocked.concat {b : ReorderBuffer ℕ} (h : Blocked pushes b) (x : Push) :
    Blocked (pushes ++ [x]) b where
  held k j hk := by
    obtain ⟨y, blockedAt, hy, hblocked, hle⟩ := h.held k j hk
    have hlt := (List.getElem?_eq_some_iff.1 hy).1
    exact ⟨y, blockedAt, (List.getElem?_append_left hlt).trans hy, hblocked, hle⟩
  since blockedAt hblocked := by
    obtain ⟨y, hy, hnow⟩ := h.since blockedAt hblocked
    exact ⟨y, List.mem_append_left _ hy, hnow⟩

/-- One more packet is stored while the buffer waits. -/
theorem Blocked.storing {b : ReorderBuffer ℕ} (h : Blocked pushes b)
    (hlast : ∀ y ∈ pushes, y.now ≤ x.now) (expectedSequence : Option ℤ) :
    Blocked (pushes ++ [x]) { b with
      expectedSequence
      blockedAt := some (b.blockedAt.getD x.now)
      packets := b.storing x.sequence pushes.length } where
  held k j hk := by
    rcases AList.lookup_of_lookup_setdefault hk with rfl | hk
    · refine ⟨x, _, List.getElem?_concat_length, rfl, ?_⟩
      cases hblocked : b.blockedAt with
      | none => exact le_rfl
      | some blockedAt =>
        obtain ⟨y, hy, rfl⟩ := h.since blockedAt hblocked
        exact hlast y hy
    · obtain ⟨y, blockedAt, hy, hblocked, hle⟩ := (h.concat x).held k j hk
      exact ⟨y, blockedAt, hy, by rw [hblocked, Option.getD_some], hle⟩
  since blockedAt hblocked := by
    obtain rfl := Option.some.inj hblocked
    cases hblocked : b.blockedAt with
    | none => exact ⟨x, List.mem_append_right _ (List.mem_singleton_self x), rfl⟩
    | some blockedAt => exact (h.concat x).since blockedAt hblocked

/-- One more push, and what is held after it was pushed less than `max_delay` ago. -/
theorem Blocked.push {b : ReorderBuffer ℕ} (h : Blocked pushes b) (hahead : Ahead b)
    (hlast : ∀ y ∈ pushes, y.now ≤ x.now) (htimely : b.Timely x.sequence pushes.length x.now) :
    Blocked (pushes ++ [x]) (b.push x.sequence pushes.length x.now).2 ∧
    ∀ k j y, (b.push x.sequence pushes.length x.now).2.packets.lookup k = some j →
      (pushes ++ [x])[j]? = some y → x.now - b.maxDelay < y.now := by
  rcases push_of_timely hahead htimely with ⟨hpush, hin⟩ | ⟨hdelay, hpush⟩ | ⟨hblocked, hempty⟩
  · rw [hpush]
    refine ⟨h.concat x, fun k j y hk hy => ?_⟩
    rcases hin with hempty | hdelay
    · exact absurd (hk.symm.trans (AList.size_eq_zero.1 hempty k)) (by simp)
    · exact (h.concat x).lt_of_inTime hdelay hk hy
  · rw [hpush]
    have hstored := h.storing hlast (some (b.expectedSequence.getD x.sequence.toNat))
    exact ⟨hstored, fun k j y hk hy => hstored.lt_of_inTime hdelay hk hy⟩
  · refine ⟨⟨fun k j hk => ?_, fun blockedAt hblocked' => ?_⟩, fun k j y hk => ?_⟩
    · exact absurd (hk.symm.trans (hempty k)) (by simp)
    · exact absurd (hblocked'.symm.trans hblocked) (by simp)
    · exact absurd (hk.symm.trans (hempty k)) (by simp)

variable (maxPackets maxDelay) in
def TimelyRun (pushes : List Push) : Prop :=
  ∀ i x, pushes[i]? = some x → (before maxPackets maxDelay pushes i).Timely x.sequence i x.now

theorem run_maxDelay (pushes : List Push) :
    (run maxPackets maxDelay pushes).buffer.maxDelay = maxDelay := by
  induction pushes using List.reverseRecOn with
  | nil => rfl
  | append_singleton pushes x ih =>
    have hahead := (accounts_run maxPackets maxDelay pushes).ahead
    rw [run_concat]
    rcases push_of_ahead hahead x.sequence pushes.length x.now with
      ⟨-, hpush⟩ | ⟨-, lo, hi, ready, kept, blockedAt, -, -, -, -, hpush⟩
    · simp only [Run.push, hpush, ih]
    · simp only [Run.push, hpush, ih]

theorem TimelyRun.of_concat (h : TimelyRun maxPackets maxDelay (pushes ++ [x])) :
    TimelyRun maxPackets maxDelay pushes := by
  intro i y hy
  have hlt := (List.getElem?_eq_some_iff.1 hy).1
  have htimely := h i y ((List.getElem?_append_left hlt).trans hy)
  rwa [before_concat hlt.le] at htimely

/-- One more push keeps the bound if it holds of what is in the buffer then. -/
theorem HoldBound.concat (h : HoldBound maxPackets maxDelay pushes)
    (hnow : ∀ k j y, (run maxPackets maxDelay (pushes ++ [x])).buffer.packets.lookup k = some j →
      (pushes ++ [x])[j]? = some y → x.now - maxDelay < y.now) :
    HoldBound maxPackets maxDelay (pushes ++ [x]) := by
  intro i z hz k j y hk hy
  have hi := (List.getElem?_eq_some_iff.1 hz).1
  rcases lt_or_eq_of_lt_concat hi with hlt | rfl
  · rw [before_concat hlt] at hk
    rw [List.getElem?_append_left hlt] at hz
    have hj := ((accounts_run maxPackets maxDelay (pushes.take (i + 1))).buffered k j hk).1
    rw [List.length_take] at hj
    rw [List.getElem?_append_left (by omega)] at hy
    exact h i z hz k j y hk hy
  · obtain rfl : x = z := by
      rw [List.getElem?_concat_length] at hz
      exact Option.some.inj hz
    rw [before, List.take_of_length_le (by simp)] at hk
    exact hnow k j y hk hy

variable (maxPackets maxDelay) in
/-- **The hold bound of the reorder buffer**: in a run at times that do not decrease, in which every
push is timely, no packet is held for `max_delay`. -/
theorem holdBound_of_timely (htimes : (pushes.map Push.now).Pairwise (· ≤ ·))
    (htimely : TimelyRun maxPackets maxDelay pushes) : HoldBound maxPackets maxDelay pushes := by
  suffices h : Blocked pushes (run maxPackets maxDelay pushes).buffer ∧
      HoldBound maxPackets maxDelay pushes from h.2
  induction pushes using List.reverseRecOn with
  | nil => exact ⟨.init, by simp [HoldBound]⟩
  | append_singleton pushes x ih =>
    rw [List.map_append, List.pairwise_append] at htimes
    have hlast : ∀ y ∈ pushes, y.now ≤ x.now := fun y hy =>
      htimes.2.2 _ (List.mem_map_of_mem hy) _ (List.mem_singleton_self _)
    obtain ⟨hblocked, hbound⟩ := ih htimes.1 (htimely.of_concat)
    have hnow :
        (run maxPackets maxDelay pushes).buffer.Timely x.sequence pushes.length x.now := by
      have hx := htimely pushes.length x List.getElem?_concat_length
      rwa [before_length rfl] at hx
    obtain ⟨hblocked, hheld⟩ :=
      hblocked.push (accounts_run maxPackets maxDelay pushes).ahead hlast hnow
    rw [run_maxDelay] at hheld
    rw [run_concat]
    refine ⟨hblocked, hbound.concat ?_⟩
    rw [run_concat]
    exact hheld

end

/-- A gap that is filled in time: packet 2 waits for packet 1. -/
def oneGap : List Push := [⟨0, 0⟩, ⟨2, 1 / 100⟩, ⟨1, 1 / 20⟩]

theorem timelyRun_oneGap : TimelyRun 2048 (1 / 10) oneGap := by
  intro i x hx
  match i with
  | 0 =>
    obtain rfl : (⟨0, 0⟩ : Push) = x := Option.some.inj hx
    decide
  | 1 =>
    obtain rfl : (⟨2, 1 / 100⟩ : Push) = x := Option.some.inj hx
    decide +kernel
  | 2 =>
    obtain rfl : (⟨1, 1 / 20⟩ : Push) = x := Option.some.inj hx
    decide +kernel
  | i + 3 => exact absurd hx (by simp [oneGap])

theorem holdBound_oneGap : HoldBound 2048 (1 / 10) oneGap :=
  holdBound_of_timely 2048 (1 / 10) (by decide +kernel) timelyRun_oneGap

/-- Two gaps. When packet 1 fills the first one, packet 4 stays behind the second one, and from then
on waits for the whole of `max_delay` again. -/
def twoGaps : List Push := [⟨0, 0⟩, ⟨2, 0⟩, ⟨4, 0⟩, ⟨1, 1 / 20⟩, ⟨5, 1 / 10⟩]

/-- **A packet may be held for longer**, when there are two gaps. -/
theorem not_holdBound : ¬∀ (maxPackets : ℕ) (maxDelay : ℚ) (pushes : List Push),
    (pushes.map Push.now).Pairwise (· ≤ ·) → HoldBound maxPackets maxDelay pushes := by
  intro h
  have hlt := h 2048 (1 / 10) twoGaps (by decide +kernel) 4 ⟨5, 1 / 10⟩ rfl 4 2 ⟨4, 0⟩
    (by decide +kernel) rfl
  norm_num at hlt

end ReorderBuffer

end NativeVoice.Receive
