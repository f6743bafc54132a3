import Mathlib.Data.Int.Basic
import Mathlib.Data.Rat.Defs
import Mathlib.Tactic.Ring
import NativeVoice.Lib.Dict

/-!
# The reorder buffer

`_VideoReceiveReorderBuffer` of `src/discord/ext/native_voice/rtp.py`: packets are released in the
order of their sequence numbers, which are unwrapped around the next one that is expected. A gap is
skipped after `max_delay`, or with more than `max_packets` packets behind it.

* `push_spec`: what one push releases and keeps.
-/

namespace NativeVoice.Receive

open Lib

/-- `_unwrap_sequence`. -/
def unwrapSequence (sequence : UInt16) (reference : ℤ) : ℤ :=
  let delta := (sequence.toNat - reference % 0x10000) % 0x10000
  reference + if delta > 0x7FFF then delta - 0x10000 else delta

/-- A sequence number on the wire. -/
def wireSequence (sequence : ℤ) : UInt16 := UInt16.ofInt sequence

theorem toNat_wireSequence (sequence : ℤ) :
    ((wireSequence sequence).toNat : ℤ) = sequence % 2 ^ 16 := by
  simp [wireSequence, UInt16.ofInt]
  omega

/-- A sequence number is recovered around one that is near. -/
theorem unwrapSequence_wireSequence {sequence reference : ℤ} (hlo : reference - 2 ^ 15 ≤ sequence)
    (hhi : sequence ≤ reference + 2 ^ 15 - 1) :
    unwrapSequence (wireSequence sequence) reference = sequence := by
  unfold unwrapSequence
  rw [toNat_wireSequence]
  dsimp only
  split <;> omega

/-- A sequence number is unwrapped to the one near the reference that goes by it on the wire. -/
theorem unwrapSequence_eq_iff {sequence : UInt16} {reference unwrapped : ℤ} :
    unwrapSequence sequence reference = unwrapped ↔
      wireSequence unwrapped = sequence ∧ reference - 2 ^ 15 ≤ unwrapped ∧
        unwrapped < reference + 2 ^ 15 := by
  constructor
  · intro h
    have hlt : sequence.toNat < 2 ^ 16 := sequence.toNat_lt
    rw [unwrapSequence] at h
    refine ⟨UInt16.toNat_inj.1 ?_, by split at h <;> omega, by split at h <;> omega⟩
    have hwire := toNat_wireSequence unwrapped
    split at h <;> omega
  · rintro ⟨rfl, hlo, hhi⟩
    exact unwrapSequence_wireSequence hlo (by omega)

structure ReorderBuffer (α : Type) where
  maxPackets : ℕ := 2048
  maxDelay : ℚ := 1 / 10
  expectedSequence : Option ℤ := none
  blockedAt : Option ℚ := none
  packets : Dict ℤ α := ∅

namespace ReorderBuffer

variable {α : Type}

/-- The loop of `_pop_ready`, with the number of packets as a bound on its rounds: the packets from
`expected` on, the sequence number after them and the packets that stay. -/
def popLoop : ℕ → ℤ → Dict ℤ α → List α × ℤ × Dict ℤ α
  | 0, expected, packets => ([], expected, packets)
  | rounds + 1, expected, packets =>
    match packets.lookup expected with
    | none => ([], expected, packets)
    | some packet =>
      let (ready, expected, packets) := popLoop rounds (expected + 1) (packets.erase expected)
      (packet :: ready, expected, packets)

def popReady (b : ReorderBuffer α) : List α × ReorderBuffer α :=
  match b.expectedSequence with
  | none => ([], b)
  | some expected =>
    let (ready, expected, packets) := popLoop b.packets.size expected b.packets
    (ready, { b with expectedSequence := some expected, packets })

/-- The unwrapped sequence number of a packet that is pushed. -/
def unwrapped (b : ReorderBuffer α) (sequence : UInt16) : ℤ :=
  match b.expectedSequence with
  | none => sequence.toNat
  | some expected => unwrapSequence sequence expected

def push (b : ReorderBuffer α) (sequence : UInt16) (packet : α) (now : ℚ) :
    List α × ReorderBuffer α :=
  let expected := b.expectedSequence.getD sequence.toNat
  let unwrappedSequence := b.unwrapped sequence
  let b := { b with expectedSequence := some expected }
  if unwrappedSequence < expected then ([], b)
  else
    let b := { b with packets := b.packets.setdefault unwrappedSequence packet }
    let (ready, b) := b.popReady
    if ready ≠ [] then (ready, { b with blockedAt := none })
    else
      let blockedAt := b.blockedAt.getD now
      if b.packets.size ≤ b.maxPackets ∧ now - blockedAt < b.maxDelay then
        ([], { b with blockedAt := some blockedAt })
      else
        popReady { b with expectedSequence := b.packets.minKey, blockedAt := none }

/-! ## What is popped -/

/-- The packets of `packets` from `lo` up to `hi` are popped, and there is none at `hi`. -/
structure Pops (packets : Dict ℤ α) (lo hi : ℤ) (ready : List α) (kept : Dict ℤ α) : Prop where
  hi_eq : hi = lo + ready.length
  lookup_ready : ∀ (j : ℕ) packet, ready[j]? = some packet →
    packets.lookup (lo + j) = some packet
  lookup_kept : ∀ k, kept.lookup k = if lo ≤ k ∧ k < hi then none else packets.lookup k
  lookup_hi : packets.lookup hi = none
  size : kept.size + ready.length = packets.size

theorem Pops.none {packets : Dict ℤ α} {lo : ℤ} (h : packets.lookup lo = none) :
    Pops packets lo lo [] packets where
  hi_eq := by simp
  lookup_ready := by simp
  lookup_kept k := by rw [if_neg (by omega)]
  lookup_hi := h
  size := rfl

theorem Pops.cons {packets kept : Dict ℤ α} {lo hi : ℤ} {packet : α} {ready : List α}
    (hlo : packets.lookup lo = some packet)
    (h : Pops (packets.erase lo) (lo + 1) hi ready kept) :
    Pops packets lo hi (packet :: ready) kept := by
  have hhi : lo < hi := by
    rw [h.hi_eq]
    omega
  have hlookup : ∀ k, (packets.erase lo).lookup k = if k = lo then .none else packets.lookup k :=
    packets.lookup_erase_eq_ite lo
  refine ⟨?_, fun j packet' hj => ?_, fun k => ?_, ?_, ?_⟩
  · rw [h.hi_eq, List.length_cons]
    push_cast
    ring
  · cases j with
    | zero =>
      obtain rfl : packet = packet' := by simpa using hj
      rw [Nat.cast_zero, add_zero]
      exact hlo
    | succ j =>
      have := h.lookup_ready j packet' (by simpa using hj)
      rw [hlookup, if_neg (by omega)] at this
      rw [← this]
      congr 1
      push_cast
      ring
  · rw [h.lookup_kept, hlookup]
    split <;> split <;> first | rfl | (split <;> first | rfl | omega) | omega
  · rw [← h.lookup_hi, hlookup, if_neg (by omega)]
  · rw [← AList.size_erase (AList.mem_of_lookup hlo), List.length_cons]
    have := h.size
    omega

section Pops

variable {packets kept : Dict ℤ α} {lo hi : ℤ} {ready : List α} {packet : α} {k : ℤ}

theorem Pops.le (h : Pops packets lo hi ready kept) : lo ≤ hi := by
  rw [h.hi_eq]
  omega

/-- A packet at `lo` or behind it is popped or stays behind `hi`. -/
theorem Pops.mem_or (h : Pops packets lo hi ready kept) (hk : packets.lookup k = some packet)
    (hlo : lo ≤ k) : k < hi ∧ packet ∈ ready ∨ hi < k ∧ kept.lookup k = some packet := by
  rcases lt_trichotomy k hi with hlt | rfl | hgt
  · have hj : (k - lo).toNat < ready.length := by
      have := h.hi_eq
      omega
    have hlookup := h.lookup_ready (k - lo).toNat _ (List.getElem?_eq_getElem hj)
    rw [show lo + ((k - lo).toNat : ℤ) = k by omega, hk] at hlookup
    exact .inl ⟨hlt, Option.some.inj hlookup ▸ List.getElem_mem hj⟩
  · exact absurd (hk.symm.trans h.lookup_hi) (by simp)
  · exact .inr ⟨hgt, by rw [h.lookup_kept, if_neg (by omega), hk]⟩

theorem Pops.lookup_of_kept (h : Pops packets lo hi ready kept) (hk : kept.lookup k = some packet) :
    packets.lookup k = some packet := by
  rw [h.lookup_kept] at hk
  split at hk
  · simp at hk
  · exact hk

/-- What stays of the packets at `lo` or behind it is behind `hi`. -/
theorem Pops.lt_of_kept (h : Pops packets lo hi ready kept) (hk : kept.lookup k = some packet)
    (hlo : lo ≤ k) : hi < k := by
  rcases h.mem_or (h.lookup_of_kept hk) hlo with ⟨hlt, -⟩ | ⟨hlt, -⟩
  · rw [h.lookup_kept, if_pos ⟨hlo, hlt⟩] at hk
    exact absurd hk (by simp)
  · exact hlt

theorem Pops.exists_of_mem_ready (h : Pops packets lo hi ready kept) (hp : packet ∈ ready) :
    ∃ k, lo ≤ k ∧ k < hi ∧ packets.lookup k = some packet := by
  obtain ⟨j, hj, rfl⟩ := List.mem_iff_getElem.1 hp
  refine ⟨lo + j, by omega, ?_, h.lookup_ready j _ (List.getElem?_eq_getElem hj)⟩
  have := h.hi_eq
  omega

/-- The packets are popped in the order of their keys. -/
theorem Pops.map_ready (h : Pops packets lo hi ready kept) {f : α → ℤ}
    (hf : ∀ k packet, packets.lookup k = some packet → f packet = k) :
    ready.map f = (List.range ready.length).map fun j : ℕ => lo + j := by
  refine List.ext_getElem (by simp) fun j hj _ => ?_
  rw [List.length_map] at hj
  rw [List.getElem_map, List.getElem_map, List.getElem_range]
  exact hf _ _ (h.lookup_ready j _ (List.getElem?_eq_getElem hj))

end Pops

theorem popLoop_spec {rounds : ℕ} {expected : ℤ} {packets : Dict ℤ α}
    (h : packets.size ≤ rounds) :
    Pops packets expected (popLoop rounds expected packets).2.1
      (popLoop rounds expected packets).1 (popLoop rounds expected packets).2.2 := by
  induction rounds generalizing expected packets with
  | zero =>
    refine .none ?_
    cases hlookup : packets.lookup expected with
    | none => rfl
    | some packet =>
      have := AList.size_erase (AList.mem_of_lookup hlookup)
      omega
  | succ rounds ih =>
    unfold popLoop
    cases hlookup : packets.lookup expected with
    | none => exact .none hlookup
    | some packet =>
      refine .cons hlookup (ih ?_)
      have := AList.size_erase (AList.mem_of_lookup hlookup)
      omega

theorem popReady_spec {b : ReorderBuffer α} {expected : ℤ}
    (h : b.expectedSequence = some expected) : ∃ hi ready kept,
      Pops b.packets expected hi ready kept ∧
      b.popReady = (ready, { b with expectedSequence := some hi, packets := kept }) := by
  refine ⟨_, _, _, popLoop_spec le_rfl, ?_⟩
  simp only [popReady, h]

theorem popReady_of_none {b : ReorderBuffer α} {expected : ℤ}
    (h : b.expectedSequence = some expected) (hgap : b.packets.lookup expected = none) :
    b.popReady = ([], b) := by
  obtain ⟨maxPackets, maxDelay, _, blockedAt, packets⟩ := b
  obtain rfl := h
  simp only [popReady]
  cases packets.size with
  | zero => rfl
  | succ rounds => simp only [popLoop, hgap]

/-- A packet is unwrapped to a number that it goes by on the wire: the first one to a number of 16
bits, and another one to the nearest of the expected one. -/
def UnwrapsTo (expected : Option ℤ) (sequence : UInt16) (unwrapped : ℤ) : Prop :=
  wireSequence unwrapped = sequence ∧
    match expected with
    | none => 0 ≤ unwrapped ∧ unwrapped < 2 ^ 16
    | some expected => expected - 2 ^ 15 ≤ unwrapped ∧ unwrapped < expected + 2 ^ 15

theorem unwrapped_eq_iff {b : ReorderBuffer α} {sequence : UInt16} {unwrapped : ℤ} :
    b.unwrapped sequence = unwrapped ↔ UnwrapsTo b.expectedSequence sequence unwrapped := by
  unfold ReorderBuffer.unwrapped UnwrapsTo
  cases b.expectedSequence with
  | none =>
    have hwire := toNat_wireSequence unwrapped
    constructor
    · intro h
      have h : (sequence.toNat : ℤ) = unwrapped := h
      have hlt : sequence.toNat < 2 ^ 16 := sequence.toNat_lt
      exact ⟨UInt16.toNat_inj.1 (by omega), by omega, by omega⟩
    · rintro ⟨rfl, hlo, hhi⟩
      dsimp only
      omega
  | some expected => exact unwrapSequence_eq_iff

/-- The first packet is not an old one. -/
theorem expectedSequence_of_old {b : ReorderBuffer α} {sequence : UInt16}
    (h : b.unwrapped sequence < b.expectedSequence.getD sequence.toNat) :
    some (b.expectedSequence.getD sequence.toNat) = b.expectedSequence := by
  cases hexpected : b.expectedSequence with
  | none =>
    rw [unwrapped, hexpected] at h
    exact absurd h (lt_irrefl _)
  | some expected => rfl

/-! ## What a push does -/

/-- The packets with a new one, which does not replace another one. -/
def storing (b : ReorderBuffer α) (sequence : UInt16) (packet : α) : Dict ℤ α :=
  b.packets.setdefault (b.unwrapped sequence) packet

/-- The results of a push: an old packet is dropped; otherwise the packet is stored if there is none
in its place, and either packets are released from the expected one on, or the buffer waits for it,
or it goes on to the first packet that is there. -/
inductive Pushed (b : ReorderBuffer α) (sequence : UInt16) (packet : α) (now : ℚ) :
    List α × ReorderBuffer α → Prop
  | old (hold : b.unwrapped sequence < b.expectedSequence.getD sequence.toNat) :
    Pushed b sequence packet now ([], b)
  | released {expected hi : ℤ} {ready : List α} {kept : Dict ℤ α}
    (hexpected : b.expectedSequence.getD sequence.toNat = expected)
    (hnew : expected ≤ b.unwrapped sequence)
    (hpops : Pops (b.storing sequence packet) expected hi ready kept)
    (hready : ready ≠ []) :
    Pushed b sequence packet now
      (ready, { b with expectedSequence := some hi, blockedAt := none, packets := kept })
  | waits {expected : ℤ}
    (hexpected : b.expectedSequence.getD sequence.toNat = expected)
    (hnew : expected ≤ b.unwrapped sequence)
    (hgap : (b.storing sequence packet).lookup expected = none)
    (hsize : (b.storing sequence packet).size ≤ b.maxPackets)
    (hdelay : now - b.blockedAt.getD now < b.maxDelay) :
    Pushed b sequence packet now ([], { b with
      expectedSequence := some expected
      blockedAt := some (b.blockedAt.getD now)
      packets := b.storing sequence packet })
  | skips {expected lo hi : ℤ} {ready : List α} {kept : Dict ℤ α}
    (hexpected : b.expectedSequence.getD sequence.toNat = expected)
    (hnew : expected ≤ b.unwrapped sequence)
    (hgap : (b.storing sequence packet).lookup expected = none)
    (hlo : (b.storing sequence packet).minKey = some lo)
    (hpops : Pops (b.storing sequence packet) lo hi ready kept)
    (hready : ready ≠ []) :
    Pushed b sequence packet now
      (ready, { b with expectedSequence := some hi, blockedAt := none, packets := kept })

theorem Pops.ready_ne_nil {packets kept : Dict ℤ α} {lo hi : ℤ} {ready : List α}
    (h : Pops packets lo hi ready kept) (hlo : lo ∈ packets) : ready ≠ [] := by
  rintro rfl
  have hhi : hi = lo := by simpa using h.hi_eq
  exact AList.lookup_eq_none.1 (hhi ▸ h.lookup_hi) hlo

theorem push_spec (b : ReorderBuffer α) (sequence : UInt16) (packet : α) (now : ℚ) :
    Pushed b sequence packet now (b.push sequence packet now) := by
  unfold push
  by_cases hold : b.unwrapped sequence < b.expectedSequence.getD sequence.toNat
  · simp only [if_pos hold, expectedSequence_of_old hold]
    exact .old hold
  simp only [if_neg hold]
  have hnew := Int.not_lt.1 hold
  by_cases hgap : (b.packets.setdefault (b.unwrapped sequence) packet).lookup
      (b.expectedSequence.getD sequence.toNat) = none
  · rw [popReady_of_none rfl hgap, if_neg (not_not_intro rfl)]
    split
    · rename_i hwait
      exact .waits rfl hnew hgap hwait.1 hwait.2
    · obtain ⟨lo, hlo⟩ := AList.exists_minKey
        (b.packets.mem_setdefault_self (b.unwrapped sequence) packet)
      obtain ⟨hi, ready, kept, hpops, hpop⟩ := popReady_spec (b := { b with
        expectedSequence := some lo
        blockedAt := none
        packets := b.packets.setdefault (b.unwrapped sequence) packet }) rfl
      simp only [hlo, hpop]
      exact .skips rfl hnew hgap hlo hpops (hpops.ready_ne_nil (AList.minKey_eq_some.1 hlo).1)
  · obtain ⟨hi, ready, kept, hpops, hpop⟩ := popReady_spec (b := { b with
      expectedSequence := some (b.expectedSequence.getD sequence.toNat)
      packets := b.packets.setdefault (b.unwrapped sequence) packet }) rfl
    have hready : ready ≠ [] := hpops.ready_ne_nil (not_not.1 (hgap ∘ AList.lookup_eq_none.2))
    simp only [hpop, if_pos hready]
    exact .released rfl hnew hpops hready

/-- All packets in the buffer have a property. -/
def All (P : α → Prop) (b : ReorderBuffer α) : Prop :=
  ∀ k packet, b.packets.lookup k = some packet → P packet

/-- **A buffer releases packets as they were pushed**: what holds of all packets of the buffer and
of a new one, holds of all that are released with it and of those that stay. -/
theorem All.push {P : α → Prop} {b : ReorderBuffer α} (h : b.All P) {packet : α} (hp : P packet)
    (sequence : UInt16) (now : ℚ) :
    (∀ q ∈ (b.push sequence packet now).1, P q) ∧ (b.push sequence packet now).2.All P := by
  have hstoring : ∀ k q, (b.storing sequence packet).lookup k = some q → P q := fun k q hq =>
    (AList.lookup_of_lookup_setdefault hq).elim (fun heq => heq ▸ hp) (h k q)
  have hpops : ∀ {lo hi ready kept}, Pops (b.storing sequence packet) lo hi ready kept →
      (∀ q ∈ ready, P q) ∧ ∀ k q, kept.lookup k = some q → P q := by
    intro lo hi ready kept hpops
    refine ⟨fun q hq => ?_, fun k q hq => hstoring k q (hpops.lookup_of_kept hq)⟩
    obtain ⟨k, -, -, hk⟩ := hpops.exists_of_mem_ready hq
    exact hstoring k q hk
  have hpushed := push_spec b sequence packet now
  generalize b.push sequence packet now = result at hpushed ⊢
  cases hpushed with
  | old hold => exact ⟨fun _ hq => absurd hq List.not_mem_nil, h⟩
  | released _ _ hpopped _ => exact hpops hpopped
  | waits _ _ _ _ _ => exact ⟨fun _ hq => absurd hq List.not_mem_nil, hstoring⟩
  | skips _ _ _ _ hpopped _ => exact hpops hpopped

end ReorderBuffer

end NativeVoice.Receive
