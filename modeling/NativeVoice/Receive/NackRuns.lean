import Mathlib.Tactic.NormNum
import NativeVoice.Receive.PendingNacks
import NativeVoice.Rtp.Sequence

/-!
# Runs of the table of pending negative acknowledgements

* `pending_nacks_safe`: the bounds of the table, and the reasons for which an entry leaves it, over
  all runs.
-/

namespace NativeVoice.Receive

open Lib Chunks

namespace NackTracker

/-- The entry of a sequence number. -/
def entry (s : NackTracker) (ssrc : UInt32) (sequence : UInt16) : Option PendingVideoNack :=
  (s.pendingNacks.lookup ssrc).bind fun pending => pending.lookup sequence

/-- The sequence numbers of an SSRC that NACKs ask for. -/
def nacked (ssrc : UInt32) (sent : List Feedback) : List UInt16 :=
  sent.flatMap fun
    | .nack mediaSsrc sequences => if mediaSsrc = ssrc then sequences else []
    | .pli _ => []

/-- No map is empty or too large. -/
def Bounded (s : NackTracker) : Prop :=
  ∀ ssrc pending, s.pendingNacks.lookup ssrc = some pending →
    0 < pending.size ∧ pending.size ≤ VIDEO_NACK_MAX_OUTSTANDING

variable {s : NackTracker} {ssrc other : UInt32} {sequence : UInt16} {now : ℚ}
  {pending : Dict UInt16 PendingVideoNack}

/-! ## The table -/

theorem lookup_setPending : (s.setPending ssrc pending).pendingNacks.lookup other =
    if other = ssrc then some pending else s.pendingNacks.lookup other :=
  AList.lookup_set ..

theorem lookup_popPending : (s.popPending ssrc).pendingNacks.lookup other =
    if other = ssrc then none else s.pendingNacks.lookup other :=
  AList.lookup_erase_eq_ite ..

theorem entry_setPending : (s.setPending ssrc pending).entry ssrc sequence =
    pending.lookup sequence := by
  rw [entry, lookup_setPending, if_pos rfl]
  rfl

theorem entry_popPending : (s.popPending ssrc).entry ssrc sequence = none := by
  rw [entry, lookup_popPending, if_pos rfl]
  rfl

theorem entry_of_lookup (h : s.pendingNacks.lookup ssrc = some pending) :
    s.entry ssrc sequence = pending.lookup sequence := by
  rw [entry, h]
  rfl

theorem entry_of_lookup_none (h : s.pendingNacks.lookup ssrc = none) :
    s.entry ssrc sequence = none := by
  rw [entry, h]
  rfl

theorem nacked_append (sent sent' : List Feedback) :
    nacked ssrc (sent ++ sent') = nacked ssrc sent ++ nacked ssrc sent' :=
  List.flatMap_append ..

theorem nacked_map_nack (chunks : List (List UInt16)) :
    nacked other (chunks.map (.nack ssrc)) = if ssrc = other then chunks.flatten else [] := by
  rw [nacked, List.flatMap_map, List.flatten_eq_flatMap]
  split
  · rename_i h
    exact List.flatMap_congr fun chunk _ => if_pos h
  · rename_i h
    exact List.flatMap_eq_nil_iff.2 fun chunk _ => if_neg h

/-! ## Effects -/

/-- What becomes of an entry, and how often it is asked for. -/
abbrev EntryMap := UInt16 → Option PendingVideoNack → Option PendingVideoNack × ℕ

/-- A call changes the entries of one SSRC, and asks only for them. -/
structure Effect (ssrc : UInt32) (s : NackTracker) (f : EntryMap)
    (result : List Feedback × NackTracker) : Prop where
  entry : ∀ sequence, result.2.entry ssrc sequence = (f sequence (s.entry ssrc sequence)).1
  count : ∀ sequence, (nacked ssrc result.1).count sequence =
    (f sequence (s.entry ssrc sequence)).2
  lookup_other : ∀ other, other ≠ ssrc →
    result.2.pendingNacks.lookup other = s.pendingNacks.lookup other
  nacked_other : ∀ other, other ≠ ssrc → nacked other result.1 = []

namespace Effect

def idMap : EntryMap := fun _ entry => (entry, 0)

def comp (f g : EntryMap) : EntryMap := fun sequence entry =>
  ((g sequence (f sequence entry).1).1, (f sequence entry).2 + (g sequence (f sequence entry).1).2)

theorem refl (ssrc : UInt32) (s : NackTracker) : Effect ssrc s idMap ([], s) where
  entry _ := rfl
  count _ := rfl
  lookup_other _ _ := rfl
  nacked_other _ _ := rfl

theorem trans {f g : EntryMap} {sent sent' : List Feedback} {s' s'' : NackTracker}
    (hf : Effect ssrc s f (sent, s')) (hg : Effect ssrc s' g (sent', s'')) :
    Effect ssrc s (comp f g) (sent ++ sent', s'') where
  entry sequence := by rw [hg.entry, hf.entry, comp]
  count sequence := by rw [nacked_append, List.count_append, hf.count, hg.count, hf.entry, comp]
  lookup_other other h := (hg.lookup_other other h).trans (hf.lookup_other other h)
  nacked_other other h := by
    rw [nacked_append, hf.nacked_other other h, hg.nacked_other other h]
    rfl

theorem congr {f g : EntryMap} {result : List Feedback × NackTracker} (h : Effect ssrc s f result)
    (hfg : ∀ sequence, f sequence (s.entry ssrc sequence) = g sequence (s.entry ssrc sequence)) :
    Effect ssrc s g result where
  entry sequence := by rw [h.entry, hfg]
  count sequence := by rw [h.count, hfg]
  lookup_other := h.lookup_other
  nacked_other := h.nacked_other

theorem setPending (s : NackTracker) (ssrc : UInt32) (pending : Dict UInt16 PendingVideoNack) :
    Effect ssrc s (fun sequence _ => (pending.lookup sequence, 0))
      ([], s.setPending ssrc pending) where
  entry _ := entry_setPending
  count _ := rfl
  lookup_other _ h := lookup_setPending.trans (if_neg h)
  nacked_other _ _ := rfl

theorem popPending (s : NackTracker) (ssrc : UInt32) :
    Effect ssrc s (fun _ _ => (none, 0)) ([], s.popPending ssrc) where
  entry _ := entry_popPending
  count _ := rfl
  lookup_other _ h := lookup_popPending.trans (if_neg h)
  nacked_other _ _ := rfl

/-- The entries that are asked for. -/
def sendMap (sequences : List UInt16) (now : ℚ) : EntryMap := fun sequence entry =>
  match entry with
  | none => (none, 0)
  | some nack =>
    if sequence ∈ sequences then (some { sentAt := now, retries := nack.retries + 1 }, 1)
    else (some nack, 0)

end Effect

theorem foldl_markSent (chunks : List (List UInt16)) (now : ℚ)
    (pending : Dict UInt16 PendingVideoNack) :
    chunks.foldl (markSent now) pending = markSent now pending chunks.flatten := by
  rw [markSent, List.foldl_flatten]
  rfl

theorem sendPendingVideoNacks_of_some (h : s.pendingNacks.lookup ssrc = some pending)
    (sequences : List UInt16) (now : ℚ) : ∃ sent pending', pending'.size = pending.size ∧
      s.sendPendingVideoNacks ssrc sequences now = (sent, s.setPending ssrc pending') ∧
      Effect ssrc s (Effect.sendMap sequences now) (sent, s.setPending ssrc pending') := by
  have hsend : s.sendPendingVideoNacks ssrc sequences now =
      ((chunksOf RTCP_NACK_MAX_SEQUENCES
        (sequences.filter fun sequence => sequence ∈ pending).eraseDups).map (.nack ssrc),
      s.setPending ssrc (markSent now pending
        (sequences.filter fun sequence => sequence ∈ pending).eraseDups)) := by
    simp only [sendPendingVideoNacks, h]
    rw [foldl_markSent, flatten_chunksOf (by decide)]
  refine ⟨_, markSent now pending (sequences.filter fun sequence => sequence ∈ pending).eraseDups,
    AList.size_foldl_modify .., hsend, ?_⟩
  have hnodup := nodup_eraseDups (sequences.filter fun sequence => sequence ∈ pending)
  have hmem : ∀ sequence, sequence ∈ (sequences.filter fun sequence =>
      sequence ∈ pending).eraseDups ↔ sequence ∈ sequences ∧ sequence ∈ pending := by
    intro sequence
    simp [List.mem_eraseDups]
  refine ⟨fun sequence => ?_, fun sequence => ?_, fun other hother => ?_, fun other hother => ?_⟩
  · rw [entry_setPending, markSent, AList.lookup_foldl_modify hnodup, entry_of_lookup h]
    cases hlookup : pending.lookup sequence with
    | none => simp [Effect.sendMap]
    | some nack =>
      simp only [hmem, AList.mem_of_lookup hlookup, and_true, Effect.sendMap]
      split <;> rfl
  · rw [nacked_map_nack, if_pos rfl, flatten_chunksOf (by decide), entry_of_lookup h]
    cases hlookup : pending.lookup sequence with
    | none =>
      have hnot : sequence ∉ pending := AList.lookup_eq_none.1 hlookup
      exact List.count_eq_zero.2 fun hin => hnot ((hmem sequence).1 hin).2
    | some nack =>
      rw [hnodup.count]
      simp only [hmem, AList.mem_of_lookup hlookup, and_true, Effect.sendMap]
      split <;> rfl
  · rw [lookup_setPending, if_neg hother]
  · rw [nacked_map_nack, if_neg hother.symm]

/-! ## Retries -/

/-- A retry removes the entries that were asked for often enough, and asks for those that are
due. -/
def Effect.retryMap (now : ℚ) : EntryMap := fun _ entry =>
  match entry with
  | none => (none, 0)
  | some nack =>
    if isExpired nack then (none, 0)
    else if isDue now nack then (some { sentAt := now, retries := nack.retries + 1 }, 1)
    else (some nack, 0)

theorem mem_filter_items (pending : Dict UInt16 PendingVideoNack) (sequence : UInt16)
    (p : PendingVideoNack → Bool) :
    sequence ∈ (pending.items.filter fun item => p item.2).map Prod.fst ↔
      ∃ nack, pending.lookup sequence = some nack ∧ p nack = true := by
  simp only [List.mem_map, List.mem_filter]
  constructor
  · rintro ⟨⟨sequence, nack⟩, ⟨hmem, hp⟩, rfl⟩
    exact ⟨nack, AList.mem_items.1 hmem, hp⟩
  · rintro ⟨nack, hlookup, hp⟩
    exact ⟨(sequence, nack), ⟨AList.mem_items.2 hlookup, hp⟩, rfl⟩

/-- The map of an SSRC without the entries that were asked for often enough. -/
def unexpired (pending : Dict UInt16 PendingVideoNack) : Dict UInt16 PendingVideoNack :=
  ((pending.items.filter fun item => isExpired item.2).map Prod.fst).foldl
    (fun pending sequence => pending.erase sequence) pending

theorem lookup_unexpired : (unexpired pending).lookup sequence =
    (pending.lookup sequence).bind fun nack => if isExpired nack then none else some nack := by
  rw [unexpired, AList.lookup_foldl_erase]
  simp only [mem_filter_items]
  cases h : pending.lookup sequence with
  | none => simp
  | some nack => simp

theorem size_unexpired_le (pending : Dict UInt16 PendingVideoNack) :
    (unexpired pending).size ≤ pending.size :=
  AList.size_foldl_erase_le ..

theorem retryPendingVideoNacks_cases (h : s.pendingNacks.lookup ssrc = some pending) (now : ℚ) :
    ∃ sent s' pending', pending'.size = (unexpired pending).size ∧
      s'.pendingNacks.lookup ssrc = some pending' ∧
      Effect ssrc s (Effect.retryMap now) (sent, s') ∧
      s.retryPendingVideoNacks ssrc now =
        if (unexpired pending).size = 0 then (sent, s'.popPending ssrc) else (sent, s') := by
  have hset : (s.setPending ssrc (unexpired pending)).pendingNacks.lookup ssrc =
      some (unexpired pending) := lookup_setPending.trans (if_pos rfl)
  have hmap : ∀ sequence, Effect.comp (fun sequence _ => ((unexpired pending).lookup sequence, 0))
      (Effect.sendMap ((pending.items.filter fun item => isDue now item.2).map Prod.fst) now)
      sequence (s.entry ssrc sequence) =
        Effect.retryMap now sequence (s.entry ssrc sequence) := by
    intro sequence
    have hmem := mem_filter_items pending sequence (isDue now)
    simp only [Effect.comp, lookup_unexpired, entry_of_lookup h]
    cases hlookup : pending.lookup sequence with
    | none => rfl
    | some nack =>
      simp only [hlookup, Option.some.injEq, exists_eq_left'] at hmem
      simp only [Option.bind_some, Effect.retryMap]
      split
      · rfl
      · simp only [Effect.sendMap, hmem]
        split <;> rfl
  by_cases hdue : (pending.items.filter fun item => isDue now item.2).map Prod.fst = []
  · refine ⟨[], s.setPending ssrc (unexpired pending), unexpired pending, rfl, hset, ?_, ?_⟩
    · refine (Effect.setPending s ssrc (unexpired pending)).congr fun sequence => ?_
      rw [← hmap, hdue]
      simp only [Effect.comp, Effect.sendMap]
      cases (unexpired pending).lookup sequence <;> rfl
    · simp only [retryPendingVideoNacks, h, if_pos hdue]
      rfl
  · obtain ⟨sent, pending', hsize, hsend, heffect⟩ := sendPendingVideoNacks_of_some hset
      ((pending.items.filter fun item => isDue now item.2).map Prod.fst) now
    refine ⟨sent, _, pending', hsize, lookup_setPending.trans (if_pos rfl),
      ((Effect.setPending s ssrc (unexpired pending)).trans heffect).congr hmap, ?_⟩
    simp only [retryPendingVideoNacks, h, if_neg hdue]
    rw [unexpired] at hsend
    rw [hsend]
    rfl

theorem retryPendingVideoNacks_effect (s : NackTracker) (ssrc : UInt32) (now : ℚ) :
    Effect ssrc s (Effect.retryMap now) (s.retryPendingVideoNacks ssrc now) := by
  cases h : s.pendingNacks.lookup ssrc with
  | none =>
    simp only [retryPendingVideoNacks, h]
    refine (Effect.refl ssrc s).congr fun sequence => ?_
    rw [entry_of_lookup_none h]
    rfl
  | some pending =>
    obtain ⟨sent, s', pending', hsize, hlookup, heffect, hretry⟩ :=
      retryPendingVideoNacks_cases h now
    rw [hretry]
    split
    · rename_i hzero
      have hnone := AList.size_eq_zero.1 (hsize.trans hzero)
      have hpop := heffect.trans (Effect.popPending s' ssrc)
      rw [List.append_nil] at hpop
      refine hpop.congr fun sequence => ?_
      have hafter := heffect.entry sequence
      rw [entry_of_lookup hlookup, hnone] at hafter
      exact Prod.ext hafter rfl
    · exact heffect

theorem Effect.bounded {f : EntryMap} {result : List Feedback × NackTracker}
    (h : Effect ssrc s f result) (hs : Bounded s)
    (hssrc : ∀ pending, result.2.pendingNacks.lookup ssrc = some pending →
      0 < pending.size ∧ pending.size ≤ VIDEO_NACK_MAX_OUTSTANDING) : Bounded result.2 := by
  intro other pending hlookup
  rcases eq_or_ne other ssrc with rfl | hne
  · exact hssrc pending hlookup
  · exact hs other pending (h.lookup_other other hne ▸ hlookup)

theorem retryPendingVideoNacks_bounded (hs : Bounded s) (ssrc : UInt32) (now : ℚ) :
    Bounded (s.retryPendingVideoNacks ssrc now).2 := by
  refine (retryPendingVideoNacks_effect s ssrc now).bounded hs fun after hafter => ?_
  cases h : s.pendingNacks.lookup ssrc with
  | none =>
    simp only [retryPendingVideoNacks, h] at hafter
    exact absurd hafter (by simp)
  | some pending =>
    obtain ⟨sent, s', pending', hsize, hlookup, -, hretry⟩ := retryPendingVideoNacks_cases h now
    rw [hretry] at hafter
    split at hafter
    · rw [lookup_popPending, if_pos rfl] at hafter
      exact absurd hafter (by simp)
    · rename_i hpos
      obtain rfl : pending' = after := Option.some.inj (hlookup.symm.trans hafter)
      have hle := (hs ssrc pending h).2
      have := size_unexpired_le pending
      omega

/-! ## Received sequence numbers -/

def Effect.popMap (received : UInt16) : EntryMap := fun sequence entry =>
  (if sequence = received then none else entry, 0)

theorem popReceived_effect (s : NackTracker) (ssrc : UInt32) (received : UInt16) :
    Effect ssrc s (Effect.popMap received) ([], s.popReceived ssrc received) := by
  cases h : s.pendingNacks.lookup ssrc with
  | none =>
    simp only [popReceived, h]
    refine (Effect.refl ssrc s).congr fun sequence => ?_
    simp [entry_of_lookup_none h, Effect.idMap, Effect.popMap]
  | some pending =>
    simp only [popReceived, h, shrinkPending]
    have hlookup := pending.lookup_erase_eq_ite received
    split
    · rename_i hzero
      refine (Effect.popPending s ssrc).congr fun sequence => ?_
      rw [Effect.popMap, entry_of_lookup h, ← hlookup, AList.size_eq_zero.1 hzero]
    · refine (Effect.setPending s ssrc (pending.erase received)).congr fun sequence => ?_
      rw [Effect.popMap, entry_of_lookup h, ← hlookup]

theorem popReceived_bounded (hs : Bounded s) (ssrc : UInt32) (received : UInt16) :
    Bounded (s.popReceived ssrc received) := by
  refine (popReceived_effect s ssrc received).bounded hs fun after hafter => ?_
  cases h : s.pendingNacks.lookup ssrc with
  | none =>
    simp only [popReceived, h] at hafter
    exact absurd hafter (by simp)
  | some pending =>
    simp only [popReceived, h, shrinkPending] at hafter
    split at hafter
    · rw [lookup_popPending, if_pos rfl] at hafter
      exact absurd hafter (by simp)
    · rename_i hpos
      rw [lookup_setPending, if_pos rfl] at hafter
      obtain rfl := Option.some.inj hafter
      have hle := (hs ssrc pending h).2
      have := pending.size_erase_le received
      omega

/-! ## Missing sequence numbers -/

/-- The missing sequence numbers that are not in the map of an SSRC. -/
def newMissing (s : NackTracker) (ssrc : UInt32) (missing : List UInt16) : List UInt16 :=
  missing.eraseDups.filter fun sequence => sequence ∉ (s.pendingNacks.lookup ssrc).getD ∅

/-- The map of an SSRC would become too large. -/
def Overflows (s : NackTracker) (ssrc : UInt32) (missing : List UInt16) : Prop :=
  VIDEO_NACK_MAX_OUTSTANDING <
    ((s.pendingNacks.lookup ssrc).getD ∅).size + (s.newMissing ssrc missing).length

def Effect.addMap (missing : List UInt16) (now : ℚ) : EntryMap := fun sequence entry =>
  match entry with
  | none => if sequence ∈ missing then (some { sentAt := now, retries := 1 }, 1) else (none, 0)
  | some nack => (some nack, 0)

theorem lookup_getD (s : NackTracker) (ssrc : UInt32) (sequence : UInt16) :
    ((s.pendingNacks.lookup ssrc).getD ∅).lookup sequence = s.entry ssrc sequence := by
  cases h : s.pendingNacks.lookup ssrc with
  | none =>
    rw [entry_of_lookup_none h]
    rfl
  | some pending =>
    rw [entry_of_lookup h]
    rfl

theorem mem_newMissing {missing : List UInt16} :
    sequence ∈ s.newMissing ssrc missing ↔ sequence ∈ missing ∧ s.entry ssrc sequence = none := by
  rw [newMissing, List.mem_filter, List.mem_eraseDups, decide_eq_true_eq, ← AList.lookup_eq_none,
    lookup_getD]

theorem addPendingVideoNacks_nil (ssrc : UInt32) {missing : List UInt16}
    (h : s.newMissing ssrc missing = []) :
    (s.addPendingVideoNacks ssrc missing = ([], [], s)) ∨
    ∃ pending, s.pendingNacks.lookup ssrc = some pending ∧
      s.addPendingVideoNacks ssrc missing = ([], [], s.setPending ssrc pending) := by
  by_cases hunique : missing.eraseDups = []
  · exact .inl (by simp only [addPendingVideoNacks, if_pos hunique])
  · cases hpending : s.pendingNacks.lookup ssrc with
    | none => simp [newMissing, hpending, hunique] at h
    | some pending =>
      refine .inr ⟨pending, rfl, ?_⟩
      rw [newMissing, hpending] at h
      simp only [addPendingVideoNacks, if_neg hunique, hpending, Option.getD_some] at h ⊢
      rw [if_pos h]

/-- The map of an SSRC with its new missing sequence numbers. -/
def entered (s : NackTracker) (ssrc : UInt32) (missing : List UInt16) :
    Dict UInt16 PendingVideoNack :=
  (s.newMissing ssrc missing).foldl (fun pending sequence => pending.set sequence {})
    ((s.pendingNacks.lookup ssrc).getD ∅)

theorem addPendingVideoNacks_cons (ssrc : UInt32) {missing : List UInt16}
    (h : s.newMissing ssrc missing ≠ []) :
    s.addPendingVideoNacks ssrc missing =
      if ((s.pendingNacks.lookup ssrc).getD ∅).size + (s.newMissing ssrc missing).length >
        VIDEO_NACK_MAX_OUTSTANDING then ([], [.pli ssrc], s.popPending ssrc)
      else (s.newMissing ssrc missing, [], s.setPending ssrc (s.entered ssrc missing)) := by
  have hunique : missing.eraseDups ≠ [] := by
    intro hnil
    exact h (by rw [newMissing, hnil]; rfl)
  rw [addPendingVideoNacks, if_neg hunique]
  exact if_neg h

theorem addPendingVideoNacks_overflow {missing : List UInt16} (h : s.newMissing ssrc missing ≠ [])
    (hover : s.Overflows ssrc missing) :
    s.addPendingVideoNacks ssrc missing = ([], [.pli ssrc], s.popPending ssrc) :=
  (addPendingVideoNacks_cons ssrc h).trans (if_pos hover)

theorem addPendingVideoNacks_enter {missing : List UInt16} (h : s.newMissing ssrc missing ≠ [])
    (hover : ¬s.Overflows ssrc missing) : s.addPendingVideoNacks ssrc missing =
      (s.newMissing ssrc missing, [], s.setPending ssrc (s.entered ssrc missing)) :=
  (addPendingVideoNacks_cons ssrc h).trans (if_neg hover)

theorem lookup_entered {missing : List UInt16} : (s.entered ssrc missing).lookup sequence =
    if sequence ∈ s.newMissing ssrc missing then some {} else s.entry ssrc sequence := by
  rw [entered, AList.lookup_foldl_set, lookup_getD]

theorem size_entered {missing : List UInt16} : (s.entered ssrc missing).size =
    ((s.pendingNacks.lookup ssrc).getD ∅).size + (s.newMissing ssrc missing).length := by
  refine AList.size_foldl_set ((nodup_eraseDups missing).filter _) fun sequence hmem => ?_
  rw [← AList.lookup_eq_none, lookup_getD]
  exact (mem_newMissing.1 hmem).2

theorem setPending_bounded (hs : Bounded s) (h : 0 < pending.size)
    (h' : pending.size ≤ VIDEO_NACK_MAX_OUTSTANDING) : Bounded (s.setPending ssrc pending) := by
  refine (Effect.setPending s ssrc pending).bounded hs fun after hafter => ?_
  rw [lookup_setPending, if_pos rfl] at hafter
  rw [← Option.some.inj hafter]
  exact ⟨h, h'⟩

theorem popPending_bounded (hs : Bounded s) : Bounded (s.popPending ssrc) := by
  refine (Effect.popPending s ssrc).bounded hs fun after hafter => ?_
  rw [lookup_popPending, if_pos rfl] at hafter
  exact absurd hafter (by simp)

theorem addMap_of_newMissing_nil {missing : List UInt16} (h : s.newMissing ssrc missing = [])
    (now : ℚ) (sequence : UInt16) :
    Effect.addMap missing now sequence (s.entry ssrc sequence) = (s.entry ssrc sequence, 0) := by
  have hnot : sequence ∉ s.newMissing ssrc missing := by simp [h]
  rw [mem_newMissing] at hnot
  cases hentry : s.entry ssrc sequence with
  | none => exact if_neg fun hmem => hnot ⟨hmem, hentry⟩
  | some nack => rfl

theorem requestMissing_spec (hs : Bounded s) (ssrc : UInt32) (missing : List UInt16) (now : ℚ) :
    Bounded (s.requestMissing ssrc missing now).2 ∧
    (Effect ssrc s (Effect.addMap missing now) (s.requestMissing ssrc missing now) ∨
      s.Overflows ssrc missing ∧ .pli ssrc ∈ (s.requestMissing ssrc missing now).1 ∧
      Effect ssrc s (fun _ _ => (none, 0)) (s.requestMissing ssrc missing now)) := by
  by_cases hnil : s.newMissing ssrc missing = []
  · have hmap := addMap_of_newMissing_nil hnil now
    rcases addPendingVideoNacks_nil ssrc hnil with hadd | ⟨pending, hpending, hadd⟩
    · simp only [requestMissing, hadd, if_pos]
      exact ⟨hs, .inl ((Effect.refl ssrc s).congr fun sequence => (hmap sequence).symm)⟩
    · obtain ⟨hpos, hle⟩ := hs ssrc pending hpending
      simp only [requestMissing, hadd, if_pos]
      refine ⟨setPending_bounded hs hpos hle, .inl ((Effect.setPending s ssrc pending).congr
        fun sequence => ?_)⟩
      rw [hmap, entry_of_lookup hpending]
  by_cases hover : s.Overflows ssrc missing
  · have hadd := addPendingVideoNacks_overflow hnil hover
    simp only [requestMissing, hadd, if_pos]
    refine ⟨popPending_bounded hs, .inr ⟨hover, by simp, ?_⟩⟩
    have hpop := Effect.popPending s ssrc
    exact ⟨hpop.entry, fun _ => rfl, hpop.lookup_other, fun _ _ => rfl⟩
  · have hadd := addPendingVideoNacks_enter hnil hover
    have hset : (s.setPending ssrc (s.entered ssrc missing)).pendingNacks.lookup ssrc =
        some (s.entered ssrc missing) := lookup_setPending.trans (if_pos rfl)
    obtain ⟨sent, pending', hsize, hsend, heffect⟩ :=
      sendPendingVideoNacks_of_some hset (s.newMissing ssrc missing) now
    have hpos : 0 < (s.entered ssrc missing).size := by
      have := List.length_pos_iff.2 hnil
      rw [size_entered]
      omega
    have hle : (s.entered ssrc missing).size ≤ VIDEO_NACK_MAX_OUTSTANDING :=
      size_entered.trans_le (Nat.not_lt.1 hover)
    simp only [requestMissing, hadd, if_neg hnil, hsend, List.nil_append]
    refine ⟨setPending_bounded (setPending_bounded hs hpos hle) (hsize ▸ hpos) (hsize ▸ hle),
      .inl (((Effect.setPending s ssrc (s.entered ssrc missing)).trans heffect).congr
        fun sequence => ?_)⟩
    simp only [Effect.comp, lookup_entered, mem_newMissing]
    cases hentry : s.entry ssrc sequence with
    | none =>
      by_cases hmem : sequence ∈ missing
      · simp [Effect.sendMap, Effect.addMap, mem_newMissing, hmem, hentry]
      · simp [Effect.sendMap, Effect.addMap, hmem]
    | some nack => simp [Effect.sendMap, Effect.addMap, mem_newMissing, hentry]

/-! ## Calls -/

def withLast (s : NackTracker) (last : UInt32 → Option UInt16) : NackTracker :=
  { s with lastSequences := last }

theorem Bounded.withLast (h : Bounded s) (last : UInt32 → Option UInt16) :
    Bounded (s.withLast last) :=
  h

theorem Effect.withLast {f : EntryMap} {sent : List Feedback} {s' : NackTracker}
    (h : Effect ssrc s f (sent, s')) (last : UInt32 → Option UInt16) :
    Effect ssrc s f (sent, s'.withLast last) :=
  ⟨h.entry, h.count, h.lookup_other, h.nacked_other⟩

def Effect.retryIfMap (enabled : Bool) (now : ℚ) : EntryMap :=
  if enabled then retryMap now else idMap

theorem retryIfEnabled_effect (s : NackTracker) (ssrc : UInt32) (now : ℚ) :
    Effect ssrc s (Effect.retryIfMap s.rtxEnabled now) (s.retryIfEnabled ssrc now) := by
  unfold retryIfEnabled Effect.retryIfMap
  split
  · exact retryPendingVideoNacks_effect s ssrc now
  · exact Effect.refl ssrc s

theorem retryIfEnabled_bounded (hs : Bounded s) (ssrc : UInt32) (now : ℚ) :
    Bounded (s.retryIfEnabled ssrc now).2 := by
  unfold retryIfEnabled
  split
  · exact retryPendingVideoNacks_bounded hs ssrc now
  · exact hs

/-- The sequence number that was received is not a missing one. -/
theorem notMem_missingSequences (sequence previous : UInt16) :
    sequence ∉ missingSequences previous (sequenceDelta sequence previous) := by
  intro hmem
  obtain ⟨offset, hoffset, heq⟩ := List.mem_map.1 hmem
  have hlt : sequenceDelta sequence previous < 2 ^ 16 := (sequence - previous).toNat_lt
  have hsequence : previous + UInt16.ofNat (sequenceDelta sequence previous) = sequence := by
    rw [sequenceDelta, UInt16.ofNat_toNat, UInt16.add_comm, UInt16.sub_add_cancel]
  rw [List.mem_range] at hoffset
  rw [← hsequence] at heq
  have := (add_ofNat_inj previous (by omega) hlt).1 heq
  omega

/-- The sequence numbers that are missing when one is received. -/
def gap (s : NackTracker) (ssrc : UInt32) (received : UInt16) : List UInt16 :=
  match s.lastSequences ssrc with
  | none => []
  | some previous => missingSequences previous (sequenceDelta received previous)

/-- What becomes of the entries when a sequence number is received. -/
def Effect.trackMap (received : UInt16) (missing : List UInt16) (retried : Bool) (now : ℚ) :
    EntryMap :=
  comp (comp (popMap received) (addMap missing now)) (retryIfMap retried now)

/-- The map of the SSRC is emptied when too many numbers are missing. -/
def Effect.overflowMap (now : ℚ) : EntryMap := comp (fun _ _ => (none, 0)) (retryMap now)

theorem lastSequences_popReceived (s : NackTracker) (ssrc : UInt32) (received : UInt16) :
    (s.popReceived ssrc received).lastSequences = s.lastSequences := by
  unfold popReceived shrinkPending
  split
  · rfl
  · split <;> rfl

theorem Effect.trackMap_nil (received : UInt16) (retried : Bool) (now : ℚ) :
    trackMap received [] retried now = comp (popMap received) (retryIfMap retried now) := by
  funext sequence entry
  cases h : (popMap received sequence entry).1 <;> simp [trackMap, comp, addMap, h]

theorem retryIfEnabled_of_enabled (h : s.rtxEnabled = true) :
    s.retryIfEnabled ssrc now = s.retryPendingVideoNacks ssrc now :=
  if_pos h

theorem retryIfEnabled_of_disabled (h : s.rtxEnabled = false) :
    s.retryIfEnabled ssrc now = ([], s) := by
  rw [retryIfEnabled, h]
  rfl

/-- The number leaves the map, missing ones may be entered, and the map is retried. -/
theorem trackVideoReceiveSequence_cases (s : NackTracker) (ssrc : UInt32) (received : UInt16)
    (repaired : Bool) (now : ℚ) :
    ∃ last, s.trackVideoReceiveSequence ssrc received repaired now =
        ((s.popReceived ssrc received).withLast last).retryIfEnabled ssrc now ∨
      ∃ sent s' retried s'', ((s.popReceived ssrc received).withLast last).requestMissing ssrc
          (s.gap ssrc received) now = (sent, s') ∧
        s'.retryPendingVideoNacks ssrc now = (retried, s'') ∧
        s.trackVideoReceiveSequence ssrc received repaired now = (sent ++ retried, s'') := by
  have hlast := lastSequences_popReceived s ssrc received
  cases repaired with
  | true => exact ⟨(s.popReceived ssrc received).lastSequences, .inl rfl⟩
  | false =>
    simp only [trackVideoReceiveSequence, Bool.false_eq_true, if_false, hlast]
    cases hprevious : s.lastSequences ssrc with
    | none => exact ⟨_, .inl rfl⟩
    | some previous =>
      simp only
      by_cases hold : sequenceDelta received previous = 0 ∨ sequenceDelta received previous > 0x7FFF
      · rw [if_pos hold]
        exact ⟨(s.popReceived ssrc received).lastSequences, .inl rfl⟩
      rw [if_neg hold]
      refine ⟨Function.update s.lastSequences ssrc (some received), ?_⟩
      have hgap : s.gap ssrc received =
          missingSequences previous (sequenceDelta received previous) := by
        rw [gap, hprevious]
      by_cases henabled : (s.popReceived ssrc received).rtxEnabled = true
      · rw [if_neg (by simp [henabled])]
        by_cases hnext : sequenceDelta received previous = 1
        · rw [if_pos hnext]
          exact .inl (retryIfEnabled_of_enabled (show ((s.popReceived ssrc received).withLast
            (Function.update s.lastSequences ssrc (some received))).rtxEnabled = true
              from henabled)).symm
        · rw [if_neg hnext, hgap]
          exact .inr ⟨_, _, _, _, Prod.mk.eta.symm, Prod.mk.eta.symm, rfl⟩
      · rw [if_pos (by simp [henabled])]
        exact .inl (retryIfEnabled_of_disabled (show ((s.popReceived ssrc received).withLast
          (Function.update s.lastSequences ssrc (some received))).rtxEnabled = false
            from Bool.eq_false_of_not_eq_true henabled)).symm

/-- A received sequence number without missing ones before it. -/
theorem track_retry (hs : Bounded s) (ssrc : UInt32) (received : UInt16)
    (last : UInt32 → Option UInt16) (now : ℚ) :
    Bounded (((s.popReceived ssrc received).withLast last).retryIfEnabled ssrc now).2 ∧
    Effect ssrc s (Effect.trackMap received [] (s.popReceived ssrc received).rtxEnabled now)
      (((s.popReceived ssrc received).withLast last).retryIfEnabled ssrc now) := by
  have hpop := (popReceived_effect s ssrc received).withLast last
  have hpopped := (popReceived_bounded hs ssrc received).withLast last
  refine ⟨retryIfEnabled_bounded hpopped ssrc now, ?_⟩
  rw [Effect.trackMap_nil]
  exact hpop.trans (retryIfEnabled_effect _ ssrc now)

theorem notMem_gap (s : NackTracker) (ssrc : UInt32) (received : UInt16) :
    received ∉ s.gap ssrc received := by
  unfold gap
  split
  · simp
  · exact notMem_missingSequences _ _

theorem trackVideoReceiveSequence_spec (hs : Bounded s) (ssrc : UInt32) (received : UInt16)
    (repaired : Bool) (now : ℚ) :
    Bounded (s.trackVideoReceiveSequence ssrc received repaired now).2 ∧
    ((∃ missing retried, received ∉ missing ∧
      Effect ssrc s (Effect.trackMap received missing retried now)
        (s.trackVideoReceiveSequence ssrc received repaired now)) ∨
    (s.popReceived ssrc received).Overflows ssrc (s.gap ssrc received) ∧
      .pli ssrc ∈ (s.trackVideoReceiveSequence ssrc received repaired now).1 ∧
      Effect ssrc s (Effect.overflowMap now)
        (s.trackVideoReceiveSequence ssrc received repaired now)) := by
  obtain ⟨last, htrack | ⟨sent, s', retried, s'', hrequest, hretry, htrack⟩⟩ :=
    trackVideoReceiveSequence_cases s ssrc received repaired now
  · obtain ⟨hbounded, heffect⟩ := track_retry hs ssrc received last now
    rw [htrack]
    exact ⟨hbounded, .inl ⟨[], _, by simp, heffect⟩⟩
  · have hpop := (popReceived_effect s ssrc received).withLast last
    have hpopped := (popReceived_bounded hs ssrc received).withLast last
    obtain ⟨hbounded, hadd⟩ := requestMissing_spec hpopped ssrc (s.gap ssrc received) now
    have hretried := retryPendingVideoNacks_effect s' ssrc now
    rw [hrequest] at hbounded hadd
    rw [htrack]
    rw [hretry] at hretried
    refine ⟨?_, hadd.imp (fun hadd => ⟨s.gap ssrc received, true, notMem_gap s ssrc received, ?_⟩)
      fun ⟨hover, hpli, hadd⟩ => ⟨hover, List.mem_append_left _ hpli, ?_⟩⟩
    · have := retryPendingVideoNacks_bounded hbounded ssrc now
      rwa [hretry] at this
    · exact (hpop.trans hadd).trans hretried
    · exact ((hpop.trans hadd).trans hretried).congr fun _ => rfl

/-- The loop over the SSRCs of the table retries each of them once. -/
theorem foldl_retry (hs : Bounded s) {l : List UInt32} (hl : l.Nodup) (sent : List Feedback)
    (now : ℚ) :
    let result := l.foldl (fun (result : List Feedback × NackTracker) mediaSsrc =>
      let (sent, s) := result.2.retryPendingVideoNacks mediaSsrc now
      (result.1 ++ sent, s)) (sent, s)
    Bounded result.2 ∧ ∀ ssrc sequence,
      result.2.entry ssrc sequence =
        (Effect.retryIfMap (ssrc ∈ l) now sequence (s.entry ssrc sequence)).1 ∧
      (nacked ssrc result.1).count sequence = (nacked ssrc sent).count sequence +
        (Effect.retryIfMap (ssrc ∈ l) now sequence (s.entry ssrc sequence)).2 := by
  induction l generalizing s sent with
  | nil => exact ⟨hs, fun ssrc sequence => ⟨rfl, rfl⟩⟩
  | cons mediaSsrc l ih =>
    obtain ⟨hnot, hl⟩ := List.nodup_cons.1 hl
    have heffect := retryPendingVideoNacks_effect s mediaSsrc now
    have hrest := ih (retryPendingVideoNacks_bounded hs mediaSsrc now) hl
      (sent ++ (s.retryPendingVideoNacks mediaSsrc now).1)
    refine ⟨hrest.1, fun ssrc sequence => ?_⟩
    obtain ⟨hentry, hcount⟩ := hrest.2 ssrc sequence
    rw [nacked_append, List.count_append] at hcount
    rw [List.foldl_cons, hentry, hcount]
    rcases eq_or_ne ssrc mediaSsrc with rfl | hne
    · rw [heffect.entry, heffect.count]
      simp [hnot, Effect.retryIfMap, Effect.idMap]
    · have hother := heffect.lookup_other ssrc hne
      have hsame : (s.retryPendingVideoNacks mediaSsrc now).2.entry ssrc sequence =
          s.entry ssrc sequence := by
        rw [entry, hother, entry]
      rw [hsame, heffect.nacked_other ssrc hne]
      simp [hne]

theorem retryAll_spec (hs : Bounded s) (now : ℚ) :
    Bounded (s.retryAll now).2 ∧ ∀ ssrc sequence,
      (s.retryAll now).2.entry ssrc sequence =
        (Effect.retryMap now sequence (s.entry ssrc sequence)).1 ∧
      (nacked ssrc (s.retryAll now).1).count sequence =
        (Effect.retryMap now sequence (s.entry ssrc sequence)).2 := by
  have hnodup : s.pendingNacks.keys.reverse.Nodup :=
    List.nodup_reverse.2 s.pendingNacks.keys_nodup
  obtain ⟨hbounded, hall⟩ := foldl_retry hs hnodup [] now
  refine ⟨hbounded, fun ssrc sequence => ?_⟩
  have hmap : Effect.retryIfMap (ssrc ∈ s.pendingNacks.keys.reverse) now sequence
      (s.entry ssrc sequence) = Effect.retryMap now sequence (s.entry ssrc sequence) := by
    by_cases hmem : ssrc ∈ s.pendingNacks
    · simp [Effect.retryIfMap, AList.mem_keys.1 hmem]
    · rw [entry_of_lookup_none (AList.lookup_eq_none.2 hmem)]
      unfold Effect.retryIfMap
      split <;> rfl
  obtain ⟨hentry, hcount⟩ := hall ssrc sequence
  rw [hmap] at hentry hcount
  exact ⟨hentry, hcount.trans (Nat.zero_add _)⟩

/-! ## One call and one entry -/

/-- A call to the tracker, with the time that it reads. -/
inductive Call
  | track (ssrc : UInt32) (sequence : UInt16) (repaired : Bool) (now : ℚ)
  | tick (now : ℚ)

def Call.time : Call → ℚ
  | .track _ _ _ now => now
  | .tick now => now

def step (s : NackTracker) : Call → List Feedback × NackTracker
  | .track ssrc sequence repaired now => s.trackVideoReceiveSequence ssrc sequence repaired now
  | .tick now => s.retryAll now

/-- What can become of an entry in a call, and how often it is asked for. -/
inductive Outcome (now : ℚ) : Option PendingVideoNack → Option PendingVideoNack × ℕ → Prop
  | absent : Outcome now none (none, 0)
  | added : Outcome now none (some { sentAt := now, retries := 1 }, 1)
  | kept (nack : PendingVideoNack) : Outcome now (some nack) (some nack, 0)
  | retried (nack : PendingVideoNack) (hdue : isDue now nack = true) :
    Outcome now (some nack) (some { sentAt := now, retries := nack.retries + 1 }, 1)
  | left (nack : PendingVideoNack) : Outcome now (some nack) (none, 0)

theorem Outcome.idMap (now : ℚ) (sequence : UInt16) (e : Option PendingVideoNack) :
    Outcome now e (Effect.idMap sequence e) := by
  cases e with
  | none => exact .absent
  | some nack => exact .kept nack

theorem Outcome.retryMap (now : ℚ) (sequence : UInt16) (e : Option PendingVideoNack) :
    Outcome now e (Effect.retryMap now sequence e) := by
  cases e with
  | none => exact .absent
  | some nack =>
    simp only [Effect.retryMap]
    split
    · exact .left nack
    · split
      · rename_i hdue
        exact .retried nack hdue
      · exact .kept nack

theorem Outcome.retryIfMap (enabled : Bool) (e : Option PendingVideoNack) :
    Outcome now e (Effect.retryIfMap enabled now sequence e) := by
  cases enabled with
  | false => exact .idMap now sequence e
  | true => exact .retryMap now sequence e

theorem retryIfMap_none (enabled : Bool) (now : ℚ) (sequence : UInt16) :
    Effect.retryIfMap enabled now sequence none = (none, 0) := by
  cases enabled <;> rfl

/-- An entry that was just asked for is not asked for again. -/
theorem retryIfMap_added (enabled : Bool) (now : ℚ) (sequence : UInt16) :
    Effect.retryIfMap enabled now sequence (some { sentAt := now, retries := 1 }) =
      (some { sentAt := now, retries := 1 }, 0) := by
  cases enabled with
  | false => rfl
  | true =>
    have hdue : isDue now { sentAt := now, retries := 1 } = false := by
      norm_num [isDue, VIDEO_NACK_RETRY_INTERVAL]
    simp only [Effect.retryIfMap, if_true, Effect.retryMap, hdue]
    rfl

/-- What becomes of the entries of other sequence numbers than the received one. -/
theorem trackMap_of_ne {received : UInt16} {missing : List UInt16} {enabled : Bool}
    (h : sequence ≠ received) (e : Option PendingVideoNack) :
    Effect.trackMap received missing enabled now sequence e =
      match e with
      | none => if sequence ∈ missing then (some { sentAt := now, retries := 1 }, 1) else (none, 0)
      | some nack => Effect.retryIfMap enabled now sequence (some nack) := by
  have hpop : Effect.popMap received sequence e = (e, 0) := by simp [Effect.popMap, h]
  simp only [Effect.trackMap, Effect.comp, hpop]
  cases e with
  | none =>
    simp only [Effect.addMap]
    split
    · simp only [retryIfMap_added]
    · simp only [retryIfMap_none]
  | some nack => simp [Effect.addMap]

theorem trackMap_received {received : UInt16} {missing : List UInt16} {enabled : Bool}
    (h : received ∉ missing) (e : Option PendingVideoNack) :
    Effect.trackMap received missing enabled now received e = (none, 0) := by
  have hpop : Effect.popMap received received e = (none, 0) := by simp [Effect.popMap]
  simp only [Effect.trackMap, Effect.comp, hpop, Effect.addMap, if_neg h, retryIfMap_none]

theorem Outcome.trackMap {received : UInt16} {missing : List UInt16} {enabled : Bool}
    (h : received ∉ missing) (e : Option PendingVideoNack) :
    Outcome now e (Effect.trackMap received missing enabled now sequence e) := by
  rcases eq_or_ne sequence received with rfl | hne
  · rw [trackMap_received h]
    cases e with
    | none => exact .absent
    | some nack => exact .left nack
  · rw [trackMap_of_ne hne]
    cases e with
    | none =>
      simp only
      split
      · exact .added
      · exact .absent
    | some nack => exact .retryIfMap enabled (some nack)

theorem Outcome.overflowMap (e : Option PendingVideoNack) :
    Outcome now e (Effect.overflowMap now sequence e) := by
  cases e with
  | none => exact .absent
  | some nack => exact .left nack

theorem Effect.outcome {f : EntryMap} {result : List Feedback × NackTracker}
    (h : Effect ssrc s f result) (hf : ∀ sequence e, Outcome now e (f sequence e))
    (other : UInt32) (sequence : UInt16) :
    Outcome now (s.entry other sequence)
      (result.2.entry other sequence, (nacked other result.1).count sequence) := by
  rcases eq_or_ne other ssrc with rfl | hne
  · rw [h.entry, h.count]
    exact hf sequence _
  · have hsame : result.2.entry other sequence = s.entry other sequence := by
      rw [NackTracker.entry, h.lookup_other other hne, NackTracker.entry]
    rw [hsame, h.nacked_other other hne]
    exact .idMap now sequence _

/-- Only an entry of the SSRC can leave. -/
theorem Effect.ssrc_eq_of_left {f : EntryMap} {result : List Feedback × NackTracker}
    (h : Effect ssrc s f result) {other : UInt32} {nack : PendingVideoNack}
    (hnack : s.entry other sequence = some nack) (hleft : result.2.entry other sequence = none) :
    other = ssrc := by
  by_contra hne
  rw [NackTracker.entry, h.lookup_other other hne, ← NackTracker.entry, hnack] at hleft
  exact absurd hleft (by simp)

theorem expired_of_retryMap (sequence : UInt16) {nack : PendingVideoNack}
    (h : (Effect.retryMap now sequence (some nack)).1 = none) : isExpired nack = true := by
  by_contra hexpired
  simp only [Effect.retryMap, if_neg hexpired] at h
  split at h <;> exact absurd h (by simp)

theorem expired_of_retryIfMap {nack : PendingVideoNack} {enabled : Bool}
    (h : (Effect.retryIfMap enabled now sequence (some nack)).1 = none) :
    isExpired nack = true := by
  cases enabled with
  | false => exact absurd h (by simp [Effect.retryIfMap, Effect.idMap])
  | true => exact expired_of_retryMap sequence h

/-- What a call does to an entry, and why it may leave. -/
theorem step_spec (hs : Bounded s) (c : Call) :
    Bounded (s.step c).2 ∧ ∀ ssrc sequence,
      Outcome c.time (s.entry ssrc sequence)
        ((s.step c).2.entry ssrc sequence, (nacked ssrc (s.step c).1).count sequence) ∧
      ∀ nack, s.entry ssrc sequence = some nack → (s.step c).2.entry ssrc sequence = none →
        (∃ repaired now, c = .track ssrc sequence repaired now) ∨ isExpired nack = true ∨
        ∃ received repaired now, c = .track ssrc received repaired now ∧
          (s.popReceived ssrc received).Overflows ssrc (s.gap ssrc received) ∧
          .pli ssrc ∈ (s.step c).1 := by
  cases c with
  | track ssrc received repaired now =>
    obtain ⟨hbounded, ⟨missing, retried, hnot, heffect⟩ | ⟨hover, hpli, heffect⟩⟩ :=
      trackVideoReceiveSequence_spec hs ssrc received repaired now
    · refine ⟨hbounded, fun other sequence => ⟨heffect.outcome (fun _ => .trackMap hnot) other
        sequence, fun nack hnack hleft => ?_⟩⟩
      obtain rfl := heffect.ssrc_eq_of_left hnack hleft
      rcases eq_or_ne sequence received with rfl | hne
      · exact .inl ⟨repaired, now, rfl⟩
      · have hafter := (heffect.entry sequence).symm.trans hleft
        rw [hnack, trackMap_of_ne hne] at hafter
        exact .inr (.inl (expired_of_retryIfMap hafter))
    · refine ⟨hbounded, fun other sequence => ⟨heffect.outcome (fun _ => .overflowMap) other
        sequence, fun nack hnack hleft => ?_⟩⟩
      obtain rfl := heffect.ssrc_eq_of_left hnack hleft
      exact .inr (.inr ⟨received, repaired, now, rfl, hover, hpli⟩)
  | tick now =>
    obtain ⟨hbounded, hall⟩ := retryAll_spec hs now
    refine ⟨hbounded, fun ssrc sequence => ?_⟩
    obtain ⟨hentry, hcount⟩ := hall ssrc sequence
    refine ⟨?_, fun nack hnack hleft => ?_⟩
    · have hout := Outcome.retryMap now sequence (s.entry ssrc sequence)
      rwa [← Prod.mk.eta (p := Effect.retryMap now sequence _), ← hentry, ← hcount] at hout
    · have hafter := hentry.symm.trans hleft
      rw [hnack] at hafter
      exact .inr (.inl (expired_of_retryMap sequence hafter))

theorem entry_received (hs : Bounded s) (ssrc : UInt32) (received : UInt16) (repaired : Bool)
    (now : ℚ) : (s.trackVideoReceiveSequence ssrc received repaired now).2.entry ssrc received =
      none := by
  obtain ⟨-, ⟨missing, retried, hnot, heffect⟩ | ⟨-, -, heffect⟩⟩ :=
    trackVideoReceiveSequence_spec hs ssrc received repaired now
  · rw [heffect.entry, trackMap_received hnot]
  · exact heffect.entry received

/-! ## Runs -/

/-- A state, and for each entry of its table the times at which it was asked for since it entered
the table. -/
structure History where
  state : NackTracker
  times : UInt32 → UInt16 → List ℚ := fun _ _ => []

def History.step (h : History) (c : Call) : History where
  state := (h.state.step c).2
  times ssrc sequence :=
    (if (h.state.entry ssrc sequence).isSome then h.times ssrc sequence else []) ++
      List.replicate ((nacked ssrc (h.state.step c).1).count sequence) c.time

def run (rtxEnabled : Bool) (calls : List Call) : History :=
  calls.foldl History.step { state := { rtxEnabled } }

/-- The times at which an entry was asked for. -/
structure Recorded (times : List ℚ) (nack : PendingVideoNack) : Prop where
  length_eq : times.length = nack.retries
  pos : 0 < nack.retries
  le : nack.retries ≤ VIDEO_NACK_MAX_RETRIES
  last : times.getLast? = some nack.sentAt
  gaps : times.IsChain fun a b => VIDEO_NACK_RETRY_INTERVAL ≤ b - a

theorem Recorded.first (now : ℚ) : Recorded [now] { sentAt := now, retries := 1 } where
  length_eq := rfl
  pos := Nat.one_pos
  le := (by decide : 1 ≤ VIDEO_NACK_MAX_RETRIES)
  last := rfl
  gaps := .singleton now

/-- Asking again for an entry that is due. -/
theorem Recorded.again {times : List ℚ} {nack : PendingVideoNack} (h : Recorded times nack)
    (hdue : isDue now nack = true) :
    Recorded (times ++ [now]) { sentAt := now, retries := nack.retries + 1 } := by
  simp only [isDue, isExpired, Bool.and_eq_true, Bool.not_eq_true', decide_eq_false_iff_not,
    decide_eq_true_eq, ge_iff_le, not_le] at hdue
  refine ⟨?_, Nat.succ_pos _, hdue.1, by simp, ?_⟩
  · rw [List.length_append, h.length_eq, List.length_singleton]
  · refine List.isChain_append.2 ⟨h.gaps, .singleton now, fun a ha b hb => ?_⟩
    rw [h.last, Option.mem_some_iff] at ha
    rw [List.head?_cons, Option.mem_some_iff] at hb
    rw [← ha, ← hb]
    exact hdue.2

theorem Recorded.outcome {e e' : Option PendingVideoNack} {n : ℕ} {times : List ℚ}
    (hout : Outcome now e (e', n)) (h : ∀ nack, e = some nack → Recorded times nack)
    {nack : PendingVideoNack} (hnack : e' = some nack) :
    Recorded ((if e.isSome then times else []) ++ List.replicate n now) nack := by
  subst hnack
  cases hout with
  | added => exact .first now
  | kept nack => simpa using h nack rfl
  | retried before hdue => simpa using (h before rfl).again hdue

/-- The invariant of a run. -/
structure Kept (h : History) : Prop where
  bounded : Bounded h.state
  recorded : ∀ ssrc sequence nack, h.state.entry ssrc sequence = some nack →
    Recorded (h.times ssrc sequence) nack

theorem kept_run (rtxEnabled : Bool) (calls : List Call) : Kept (run rtxEnabled calls) := by
  induction calls using List.reverseRecOn with
  | nil => exact ⟨by simp [run, Bounded], by simp [run, entry]⟩
  | append_singleton calls c ih =>
    rw [run, List.foldl_concat, ← run]
    obtain ⟨hbounded, hstep⟩ := step_spec ih.bounded c
    exact ⟨hbounded, fun ssrc sequence nack hnack =>
      Recorded.outcome (hstep ssrc sequence).1 (ih.recorded ssrc sequence) hnack⟩

/-- **Pending negative acknowledgements**, over all runs. Each map has 1 to 1000 entries; a sequence
number that was received is not pending then; each entry was asked for between 1 and 100 times, at
times at least 0.1 s apart; and an entry leaves the table only if its packet arrived, it was asked
for 100 times, or the map of its SSRC would have become too large, and then a PLI is sent. -/
theorem pending_nacks_safe (rtxEnabled : Bool) (calls : List Call) :
    let h := run rtxEnabled calls
    (∀ ssrc pending, h.state.pendingNacks.lookup ssrc = some pending →
      0 < pending.size ∧ pending.size ≤ VIDEO_NACK_MAX_OUTSTANDING) ∧
    (∀ ssrc sequence repaired now,
      (h.state.trackVideoReceiveSequence ssrc sequence repaired now).2.entry ssrc sequence =
        none) ∧
    (∀ ssrc sequence nack, h.state.entry ssrc sequence = some nack →
      1 ≤ (h.times ssrc sequence).length ∧
      (h.times ssrc sequence).length ≤ VIDEO_NACK_MAX_RETRIES ∧
      (h.times ssrc sequence).IsChain fun a b => VIDEO_NACK_RETRY_INTERVAL ≤ b - a) ∧
    ∀ c ssrc sequence nack, h.state.entry ssrc sequence = some nack →
      (h.state.step c).2.entry ssrc sequence = none →
        (∃ repaired now, c = .track ssrc sequence repaired now) ∨
        (h.times ssrc sequence).length = VIDEO_NACK_MAX_RETRIES ∨
        ∃ received repaired now, c = .track ssrc received repaired now ∧
          (h.state.popReceived ssrc received).Overflows ssrc (h.state.gap ssrc received) ∧
          .pli ssrc ∈ (h.state.step c).1 := by
  intro h
  have hkept := kept_run rtxEnabled calls
  refine ⟨hkept.bounded, entry_received hkept.bounded, fun ssrc sequence nack hnack => ?_,
    fun c ssrc sequence nack hnack hleft => ?_⟩
  · have hrecorded := hkept.recorded ssrc sequence nack hnack
    exact ⟨hrecorded.length_eq ▸ hrecorded.pos, hrecorded.length_eq ▸ hrecorded.le,
      hrecorded.gaps⟩
  · have hrecorded := hkept.recorded ssrc sequence nack hnack
    rcases ((step_spec hkept.bounded c).2 ssrc sequence).2 nack hnack hleft with
      hreceived | hexpired | hover
    · exact .inl hreceived
    · have hle : VIDEO_NACK_MAX_RETRIES ≤ nack.retries := of_decide_eq_true hexpired
      exact .inr (.inl (hrecorded.length_eq.trans (le_antisymm hrecorded.le hle)))
    · exact .inr (.inr hover)

end NackTracker

end NativeVoice.Receive
