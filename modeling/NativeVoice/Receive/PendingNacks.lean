import Mathlib.Data.Rat.Defs
import Mathlib.Data.UInt
import Mathlib.Logic.Function.Basic
import NativeVoice.Lib.Chunks
import NativeVoice.Lib.Dict

/-!
# Pending negative acknowledgements

The table of the sequence numbers that `src/discord/ext/native_voice/client.py` asks for again
(`_track_video_receive_sequence` and the functions under it): when a number enters it, when it is
asked for, and when it leaves.

Times are exact here, and sends are outputs: the NACKs, as the lists of sequence numbers that
`_send_rtcp_nack` is given, and the PLIs.
-/

namespace NativeVoice.Receive

open Lib Chunks

def VIDEO_NACK_MAX_OUTSTANDING : ℕ := 1000
def VIDEO_NACK_MAX_RETRIES : ℕ := 100
def VIDEO_NACK_RETRY_INTERVAL : ℚ := 1 / 10
def RTCP_NACK_MAX_SEQUENCES : ℕ := 0xFD

/-- `_sequence_delta`. -/
def sequenceDelta (sequence previous : UInt16) : ℕ := (sequence - previous).toNat

/-- `_PendingVideoNack`. -/
structure PendingVideoNack where
  sentAt : ℚ := 0
  retries : ℕ := 0
  deriving DecidableEq

inductive Feedback
  | nack (mediaSsrc : UInt32) (sequences : List UInt16)
  | pli (mediaSsrc : UInt32)
  deriving DecidableEq

/-- The attributes of the client that the functions read and write. -/
structure NackTracker where
  rtxEnabled : Bool
  /-- `_video_receive_pending_nacks`. -/
  pendingNacks : Dict UInt32 (Dict UInt16 PendingVideoNack) := ∅
  /-- `_video_receive_last_sequences`. -/
  lastSequences : UInt32 → Option UInt16 := fun _ => none

namespace NackTracker

/-- The map of an SSRC after it was changed in its place, or entered. -/
def setPending (s : NackTracker) (mediaSsrc : UInt32) (pending : Dict UInt16 PendingVideoNack) :
    NackTracker :=
  { s with pendingNacks := s.pendingNacks.set mediaSsrc pending }

def popPending (s : NackTracker) (mediaSsrc : UInt32) : NackTracker :=
  { s with pendingNacks := s.pendingNacks.erase mediaSsrc }

/-- Changes the map of an SSRC and removes it when it is empty then. -/
def shrinkPending (s : NackTracker) (mediaSsrc : UInt32) (pending : Dict UInt16 PendingVideoNack) :
    NackTracker :=
  if pending.size = 0 then s.popPending mediaSsrc else s.setPending mediaSsrc pending

/-- `_add_pending_video_nacks`: the sequence numbers that were added. -/
def addPendingVideoNacks (s : NackTracker) (mediaSsrc : UInt32) (sequences : List UInt16) :
    List UInt16 × List Feedback × NackTracker :=
  let uniqueSequences := sequences.eraseDups
  if uniqueSequences = [] then ([], [], s)
  else
    let pending := (s.pendingNacks.lookup mediaSsrc).getD ∅
    let added := uniqueSequences.filter fun sequence => sequence ∉ pending
    if added = [] then ([], [], s.setPending mediaSsrc pending)
    else if pending.size + added.length > VIDEO_NACK_MAX_OUTSTANDING then
      ([], [.pli mediaSsrc], s.popPending mediaSsrc)
    else
      (added, [], s.setPending mediaSsrc
        (added.foldl (fun pending sequence => pending.set sequence {}) pending))

/-- What the loop of `_send_pending_video_nacks` does for a chunk that was sent. -/
def markSent (now : ℚ) (pending : Dict UInt16 PendingVideoNack) (chunk : List UInt16) :
    Dict UInt16 PendingVideoNack :=
  chunk.foldl (fun pending sequence => pending.modify sequence fun nack =>
    { sentAt := now, retries := nack.retries + 1 }) pending

/-- `_send_pending_video_nacks`. -/
def sendPendingVideoNacks (s : NackTracker) (mediaSsrc : UInt32) (sequences : List UInt16)
    (now : ℚ) : List Feedback × NackTracker :=
  match s.pendingNacks.lookup mediaSsrc with
  | none => ([], s)
  | some pending =>
    let sendable := (sequences.filter fun sequence => sequence ∈ pending).eraseDups
    let chunks := chunksOf RTCP_NACK_MAX_SEQUENCES sendable
    (chunks.map (.nack mediaSsrc), s.setPending mediaSsrc (chunks.foldl (markSent now) pending))

def isExpired (nack : PendingVideoNack) : Bool := nack.retries ≥ VIDEO_NACK_MAX_RETRIES

def isDue (now : ℚ) (nack : PendingVideoNack) : Bool :=
  !isExpired nack && now - nack.sentAt ≥ VIDEO_NACK_RETRY_INTERVAL

/-- `_retry_pending_video_nacks`. -/
def retryPendingVideoNacks (s : NackTracker) (mediaSsrc : UInt32) (now : ℚ) :
    List Feedback × NackTracker :=
  match s.pendingNacks.lookup mediaSsrc with
  | none => ([], s)
  | some pending =>
    let expired := (pending.items.filter fun item => isExpired item.2).map Prod.fst
    let due := (pending.items.filter fun item => isDue now item.2).map Prod.fst
    let pending := expired.foldl (fun pending sequence => pending.erase sequence) pending
    let s := s.setPending mediaSsrc pending
    let (sent, s) := if due = [] then ([], s) else s.sendPendingVideoNacks mediaSsrc due now
    -- sending keeps the keys of the map
    if pending.size = 0 then (sent, s.popPending mediaSsrc) else (sent, s)

/-- The retry on the way out of `_track_video_receive_sequence`. -/
def retryIfEnabled (s : NackTracker) (mediaSsrc : UInt32) (now : ℚ) :
    List Feedback × NackTracker :=
  if s.rtxEnabled then s.retryPendingVideoNacks mediaSsrc now else ([], s)

/-- The part of `_track_video_receive_sequence` that removes the sequence number. -/
def popReceived (s : NackTracker) (ssrc : UInt32) (sequence : UInt16) : NackTracker :=
  match s.pendingNacks.lookup ssrc with
  | none => s
  | some pending => s.shrinkPending ssrc (pending.erase sequence)

/-- The sequence numbers between `previous` and the one `delta` after it. -/
def missingSequences (previous : UInt16) (delta : ℕ) : List UInt16 :=
  (List.range (delta - 1)).map fun offset => previous + UInt16.ofNat (offset + 1)

/-- The part of `_track_video_receive_sequence` that enters missing sequence numbers and asks for
them. -/
def requestMissing (s : NackTracker) (ssrc : UInt32) (missing : List UInt16) (now : ℚ) :
    List Feedback × NackTracker :=
  let (missing, plis, s) := s.addPendingVideoNacks ssrc missing
  let (sent, s) := if missing = [] then ([], s) else s.sendPendingVideoNacks ssrc missing now
  (plis ++ sent, s)

/-- `_track_video_receive_sequence`. -/
def trackVideoReceiveSequence (s : NackTracker) (ssrc : UInt32) (sequence : UInt16)
    (repaired : Bool) (now : ℚ) : List Feedback × NackTracker :=
  let s := s.popReceived ssrc sequence
  if repaired then s.retryIfEnabled ssrc now
  else
    let last := { s with lastSequences := Function.update s.lastSequences ssrc (some sequence) }
    match s.lastSequences ssrc with
    | none => last.retryIfEnabled ssrc now
    | some previous =>
      let delta := sequenceDelta sequence previous
      if delta = 0 ∨ delta > 0x7FFF then s.retryIfEnabled ssrc now
      else if !s.rtxEnabled then ([], last)
      else if delta = 1 then last.retryPendingVideoNacks ssrc now
      else
        let (sent, s) := last.requestMissing ssrc (missingSequences previous delta) now
        let (retried, s) := s.retryPendingVideoNacks ssrc now
        (sent ++ retried, s)

/-- The body of the loop of the retry thread. -/
def retryAll (s : NackTracker) (now : ℚ) : List Feedback × NackTracker :=
  s.pendingNacks.keys.reverse.foldl (fun (result : List Feedback × NackTracker) mediaSsrc =>
    let (sent, s) := result.2.retryPendingVideoNacks mediaSsrc now
    (result.1 ++ sent, s)) ([], s)

end NackTracker

end NativeVoice.Receive
