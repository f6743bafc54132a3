import Mathlib.Algebra.BigOperators.Group.List.Basic
import Mathlib.Algebra.Ring.Nat
import NativeVoice.Lib.Transducer

/-!
# Queues of packets

`QueueSink` of `src/discord/ext/native_voice/media.py` under any number of writers and consumers.
The operations of a `queue.Queue` are atomic, and so is the update of the counter; between two of
them the other threads may do anything. A `WriteCall` is where a call of `write` has got to.

* `debt` is what a call still has to account for.
* `Accounted.step`: a step of any thread keeps the account, if a call that is about to count has
  lost exactly one packet.
* `queueSink_conserves`: no packet goes missing in a run in which there is room for the second put
  of a write if and only if its get has removed a packet.
* `not_queueSink_conserves`: a consumer between the first put and the get of a write is enough.
-/

namespace NativeVoice.Media

open Lib

variable {α : Type*}

/-! ## The sink -/

/-- What a `queue.Queue` holds. -/
structure Queue (α : Type*) where
  items : List α := []
  maxsize : ℤ
  unfinishedTasks : ℕ := 0

namespace Queue

def full (q : Queue α) : Bool := decide (0 < q.maxsize ∧ q.maxsize ≤ q.items.length)

/-- `put_nowait`, which raises `queue.Full`. -/
def putNowait (q : Queue α) (item : α) : Option (Queue α) :=
  if q.full then none
  else some { q with items := q.items ++ [item], unfinishedTasks := q.unfinishedTasks + 1 }

/-- `get_nowait`, which raises `queue.Empty`. -/
def getNowait (q : Queue α) : Option (α × Queue α) :=
  match q.items with
  | [] => none
  | item :: items => some (item, { q with items })

/-- `task_done`, which raises a `ValueError`. -/
def taskDone (q : Queue α) : Option (Queue α) :=
  if q.unfinishedTasks = 0 then none
  else some { q with unfinishedTasks := q.unfinishedTasks - 1 }

end Queue

structure QueueSink (α : Type*) where
  queue : Queue α
  dropOldest : Bool
  dropped : ℕ := 0
  closed : Bool := false

/-- What a call of `write` does next. Whether its get has removed a packet is kept along. -/
inductive WriteCall (α : Type*)
  | put (packet : α)
  | get (packet : α)
  | taskDone (packet : α)
  | putAgain (packet : α) (removed : Bool)
  | count (accepted removed : Bool)

/-- The next operation of a call: what it returns, or where it gets to. -/
def QueueSink.advance (s : QueueSink α) : WriteCall α → (Bool ⊕ WriteCall α) × QueueSink α
  | .put packet =>
    match s.queue.putNowait packet with
    | some queue => (.inl true, { s with queue })
    | none => (.inr (if !s.dropOldest then .count false false else .get packet), s)
  | .get packet =>
    match s.queue.getNowait with
    | some (_, queue) => (.inr (.taskDone packet), { s with queue })
    | none => (.inr (.putAgain packet false), s)
  | .taskDone packet =>
    match s.queue.taskDone with
    | some queue => (.inr (.putAgain packet true), { s with queue })
    | none => (.inr (.putAgain packet true), s)
  | .putAgain packet removed =>
    match s.queue.putNowait packet with
    | some queue => (.inr (.count true removed), { s with queue })
    | none => (.inr (.count false removed), s)
  | .count accepted _ => (.inl accepted, { s with dropped := s.dropped + 1 })

/-! ## Threads -/

/-- The sink with the calls that are in progress, the number of the packets that were written to it
while it was open, and the number of those that consumers have taken. -/
structure QueueThreads (α : Type*) where
  sink : QueueSink α
  calls : List (WriteCall α) := []
  written : ℕ := 0
  taken : ℕ := 0

inductive QueueAction (α : Type*)
  | write (packet : α)
  | advance (call : ℕ)
  | take
  | taskDone
  | cleanup

namespace QueueThreads

/-- An atomic step of some thread, and what a call of `write` returns in it. -/
def step (t : QueueThreads α) : QueueAction α → Option Bool × QueueThreads α
  | .write packet =>
    if t.sink.closed then (some false, t)
    else (none, { t with calls := t.calls ++ [.put packet], written := t.written + 1 })
  | .advance i =>
    match t.calls[i]? with
    | none => (none, t)
    | some call =>
      match t.sink.advance call with
      | (.inl accepted, sink) => (some accepted, { t with sink, calls := t.calls.eraseIdx i })
      | (.inr call, sink) => (none, { t with sink, calls := t.calls.set i call })
  | .take =>
    match t.sink.queue.getNowait with
    | none => (none, t)
    | some (_, queue) => (none, { t with sink := { t.sink with queue }, taken := t.taken + 1 })
  | .taskDone =>
    match t.sink.queue.taskDone with
    | none => (none, t)
    | some queue => (none, { t with sink := { t.sink with queue } })
  | .cleanup => (none, { t with sink := { t.sink with closed := true } })

/-- A sink that is new, and no call in progress. -/
def new (maxsize : ℤ) (dropOldest : Bool) : QueueThreads α :=
  { sink := { queue := { maxsize }, dropOldest } }

/-- Every packet has been taken, is in the queue, or has been counted. -/
def Conserved (t : QueueThreads α) : Prop :=
  t.written = t.taken + t.sink.queue.items.length + t.sink.dropped

instance (t : QueueThreads α) : Decidable t.Conserved :=
  inferInstanceAs (Decidable (_ = _))

end QueueThreads

/-! ## Accounts -/

/-- How many packets a call has written or removed that are neither in the queue nor counted. -/
def WriteCall.debt : WriteCall α → ℕ
  | .put _ => 1
  | .get _ => 1
  | .taskDone _ => 2
  | .putAgain _ removed => 1 + removed.toNat
  | .count accepted removed => (!accepted).toNat + removed.toNat

/-- A call that is about to count has lost one packet: its own, or the oldest. -/
def WriteCall.Right : WriteCall α → Prop
  | .count accepted removed => accepted = removed
  | _ => True

/-- What is left of a call behind a step of it. -/
def outcomeDebt : Bool ⊕ WriteCall α → ℕ
  | .inl _ => 0
  | .inr call => call.debt

section Calls

variable {q q' : Queue α} {packet : α} {s : QueueSink α} {call : WriteCall α}

theorem Queue.putNowait_eq_none : q.putNowait packet = none ↔ q.full = true := by
  unfold Queue.putNowait
  split
  · exact iff_of_true rfl ‹_›
  · exact iff_of_false (by simp) ‹_›

theorem Queue.length_putNowait (h : q.putNowait packet = some q') :
    q'.items.length = q.items.length + 1 := by
  unfold Queue.putNowait at h
  split at h
  · cases h
  · rw [← Option.some.inj h, List.length_append, List.length_singleton]

theorem Queue.length_getNowait (h : q.getNowait = some (packet, q')) :
    q.items.length = q'.items.length + 1 := by
  unfold Queue.getNowait at h
  cases hitems : q.items with
  | nil =>
    rw [hitems] at h
    cases h
  | cons item items =>
    rw [hitems] at h
    rw [← (Prod.mk.inj (Option.some.inj h)).2, List.length_cons]

theorem Queue.items_taskDone (h : q.taskDone = some q') : q'.items = q.items := by
  unfold Queue.taskDone at h
  split at h
  · cases h
  · rw [← Option.some.inj h]

/-- **A step of a call** moves packets between the queue, the counter and the call, unless the call
counts something else than one lost packet. -/
theorem QueueSink.advance_debt (h : call.Right) :
    (s.advance call).2.queue.items.length + (s.advance call).2.dropped +
        outcomeDebt (s.advance call).1 =
      s.queue.items.length + s.dropped + call.debt := by
  cases call with
  | put packet =>
    simp only [QueueSink.advance]
    cases hput : s.queue.putNowait packet with
    | some queue =>
      have hlen := Queue.length_putNowait hput
      simp only [outcomeDebt, WriteCall.debt]
      omega
    | none => cases s.dropOldest <;> simp [outcomeDebt, WriteCall.debt]
  | get packet =>
    simp only [QueueSink.advance]
    cases hget : s.queue.getNowait with
    | some removed =>
      have hlen := Queue.length_getNowait hget
      simp only [outcomeDebt, WriteCall.debt]
      omega
    | none => simp [outcomeDebt, WriteCall.debt]
  | taskDone packet =>
    simp only [QueueSink.advance]
    cases hdone : s.queue.taskDone with
    | some queue => simp [outcomeDebt, WriteCall.debt, Queue.items_taskDone hdone]
    | none => simp [outcomeDebt, WriteCall.debt]
  | putAgain packet removed =>
    simp only [QueueSink.advance]
    cases hput : s.queue.putNowait packet with
    | some queue =>
      have hlen := Queue.length_putNowait hput
      simp only [outcomeDebt, WriteCall.debt, Bool.not_true, Bool.toNat_false]
      omega
    | none => simp [outcomeDebt, WriteCall.debt]
  | count accepted removed =>
    obtain rfl : accepted = removed := h
    cases accepted <;>
      simp only [QueueSink.advance, outcomeDebt, WriteCall.debt, Bool.not_true, Bool.not_false,
        Bool.toNat_true, Bool.toNat_false] <;>
      omega

/-- **A call comes to count one packet that it has lost**, if there is room for its second put
exactly when its get has removed one. -/
theorem QueueSink.advance_right (h : ∀ packet removed, call = .putAgain packet removed →
    removed = !s.queue.full) (call' : WriteCall α) (hcall' : (s.advance call).1 = .inr call') :
    call'.Right := by
  cases call with
  | put packet =>
    simp only [QueueSink.advance] at hcall'
    cases hput : s.queue.putNowait packet with
    | some queue => simp [hput] at hcall'
    | none =>
      rw [hput] at hcall'
      rw [← Sum.inr.inj hcall']
      split
      · rfl
      · trivial
  | get packet =>
    simp only [QueueSink.advance] at hcall'
    cases hget : s.queue.getNowait with
    | some removed =>
      rw [hget] at hcall'
      rw [← Sum.inr.inj hcall']
      trivial
    | none =>
      rw [hget] at hcall'
      rw [← Sum.inr.inj hcall']
      trivial
  | taskDone packet =>
    simp only [QueueSink.advance] at hcall'
    cases hdone : s.queue.taskDone with
    | some queue =>
      rw [hdone] at hcall'
      rw [← Sum.inr.inj hcall']
      trivial
    | none =>
      rw [hdone] at hcall'
      rw [← Sum.inr.inj hcall']
      trivial
  | putAgain packet removed =>
    have hroom := h packet removed rfl
    simp only [QueueSink.advance] at hcall'
    cases hput : s.queue.putNowait packet with
    | some queue =>
      rw [hput] at hcall'
      rw [← Sum.inr.inj hcall']
      have hnotfull : s.queue.full = false := by
        rw [← Bool.not_eq_true, ← @Queue.putNowait_eq_none _ s.queue packet, hput]
        simp
      simp [WriteCall.Right, hroom, hnotfull]
    | none =>
      rw [hput] at hcall'
      rw [← Sum.inr.inj hcall']
      simp [WriteCall.Right, hroom, Queue.putNowait_eq_none.1 hput]
  | count accepted removed => cases hcall'

end Calls

section Sums

variable {calls : List (WriteCall α)} {i : ℕ} {call : WriteCall α}

theorem sum_debt_eraseIdx (h : calls[i]? = some call) :
    ((calls.eraseIdx i).map WriteCall.debt).sum + call.debt = (calls.map WriteCall.debt).sum := by
  induction calls generalizing i with
  | nil => cases h
  | cons c calls ih =>
    cases i with
    | zero =>
      obtain rfl := Option.some.inj h
      rw [List.eraseIdx_cons_zero, List.map_cons, List.sum_cons, Nat.add_comm]
    | succ i =>
      have hrest := ih h
      rw [List.eraseIdx_cons_succ, List.map_cons, List.map_cons, List.sum_cons, List.sum_cons]
      omega

theorem sum_debt_set (h : calls[i]? = some call) (call' : WriteCall α) :
    ((calls.set i call').map WriteCall.debt).sum + call.debt =
      (calls.map WriteCall.debt).sum + call'.debt := by
  induction calls generalizing i with
  | nil => cases h
  | cons c calls ih =>
    cases i with
    | zero =>
      obtain rfl := Option.some.inj h
      rw [List.set_cons_zero, List.map_cons, List.map_cons, List.sum_cons, List.sum_cons]
      omega
    | succ i =>
      have hrest := ih h
      rw [List.set_cons_succ, List.map_cons, List.map_cons, List.sum_cons, List.sum_cons]
      omega

end Sums

namespace QueueThreads

/-- What is in the books: taken, queued, counted, or still to be accounted for by a call. -/
def booked (t : QueueThreads α) : ℕ :=
  t.taken + t.sink.queue.items.length + t.sink.dropped + (t.calls.map WriteCall.debt).sum

/-- The second put of a write meets room if and only if its get has removed a packet. -/
def roomIffRemoved (t : QueueThreads α) : QueueAction α → Bool
  | .advance i =>
    match t.calls[i]? with
    | some (.putAgain _ removed) => removed == !t.sink.queue.full
    | _ => true
  | _ => true

/-- Every packet that was written is in the books, and every call counts what it has lost. -/
structure Accounted (t : QueueThreads α) : Prop where
  balance : t.written = t.booked
  right : ∀ call ∈ t.calls, call.Right

theorem new_accounted (maxsize : ℤ) (dropOldest : Bool) :
    (new maxsize dropOldest : QueueThreads α).Accounted :=
  ⟨rfl, fun _ h => absurd h List.not_mem_nil⟩

variable {t : QueueThreads α}

/-- **A step of any thread** keeps the account, if second puts meet room exactly when they
should. -/
theorem Accounted.step (h : t.Accounted) {action : QueueAction α}
    (hroom : t.roomIffRemoved action) : (t.step action).2.Accounted := by
  obtain ⟨hbalance, hright⟩ := h
  rw [booked] at hbalance
  cases action with
  | write packet =>
    rw [QueueThreads.step]
    split
    · exact ⟨hbalance, hright⟩
    · refine ⟨?_, fun call hcall => ?_⟩
      · simp only [booked, List.map_append, List.sum_append, List.map_singleton, List.sum_singleton,
          WriteCall.debt]
        omega
      · rcases List.mem_append.1 hcall with hold | hnew
        · exact hright call hold
        · rw [List.mem_singleton.1 hnew]
          trivial
  | advance i =>
    rw [QueueThreads.step]
    cases hcall : t.calls[i]? with
    | none => exact ⟨hbalance, hright⟩
    | some call =>
      have hmem := List.mem_of_getElem? hcall
      have hdebt := QueueSink.advance_debt (s := t.sink) (hright call hmem)
      have hnext := @QueueSink.advance_right _ t.sink call
        fun packet removed heq => by simpa [roomIffRemoved, hcall, heq] using hroom
      dsimp only
      generalize t.sink.advance call = result at hdebt hnext ⊢
      obtain ⟨outcome, sink⟩ := result
      cases outcome with
      | inl accepted =>
        refine ⟨?_, fun c hc => hright c (List.mem_of_mem_eraseIdx hc)⟩
        have hsum := sum_debt_eraseIdx hcall
        simp only [outcomeDebt] at hdebt
        simp only [booked]
        omega
      | inr call' =>
        refine ⟨?_, fun c hc => ?_⟩
        · have hsum := sum_debt_set hcall call'
          simp only [outcomeDebt] at hdebt
          simp only [booked]
          omega
        · rcases List.mem_or_eq_of_mem_set hc with hold | rfl
          · exact hright c hold
          · exact hnext c rfl
  | take =>
    rw [QueueThreads.step]
    cases hget : t.sink.queue.getNowait with
    | none => exact ⟨hbalance, hright⟩
    | some removed =>
      have hlen := Queue.length_getNowait hget
      refine ⟨?_, hright⟩
      simp only [booked]
      omega
  | taskDone =>
    rw [QueueThreads.step]
    cases hdone : t.sink.queue.taskDone with
    | none => exact ⟨hbalance, hright⟩
    | some queue =>
      refine ⟨?_, hright⟩
      simp only [booked, Queue.items_taskDone hdone]
      exact hbalance
  | cleanup => exact ⟨hbalance, hright⟩

/-- **A queue sink conserves packets** over any run of any threads in which every second put meets
room if and only if the get before it has removed a packet: when no write is in progress, a packet
that was written has been taken, is in the queue, or is counted. -/
theorem queueSink_conserves (maxsize : ℤ) (dropOldest : Bool) (actions : List (QueueAction α))
    (hroom : ∀ v ∈ Transducer.visits step (new maxsize dropOldest) actions,
      v.1.roomIffRemoved v.2)
    (hquiet : (Transducer.final step (new maxsize dropOldest) actions).calls = []) :
    (Transducer.final step (new maxsize dropOldest) actions).Conserved := by
  have h : (Transducer.final step (new maxsize dropOldest) actions).Accounted :=
    Transducer.final_of_visits (fun _ _ h hC => h.step hC) (new_accounted maxsize dropOldest) hroom
  have hbalance := h.balance
  rw [booked, hquiet, List.map_nil, List.sum_nil, Nat.add_zero] at hbalance
  exact hbalance

/-- A write that drops the oldest packet. -/
def oldestDropped : List (QueueAction ℕ) :=
  [.write 1, .advance 0, .write 2, .advance 0, .advance 0, .advance 0, .advance 0, .advance 0]

/-- The same write, where a consumer takes the oldest packet between the put and the get. -/
def oldestTaken : List (QueueAction ℕ) :=
  [.write 1, .advance 0, .write 2, .advance 0, .take, .advance 0, .advance 0, .advance 0]

theorem queueSink_conserves_oldestDropped :
    (Transducer.final step (new 1 true) oldestDropped).Conserved :=
  queueSink_conserves 1 true oldestDropped (by decide) rfl

/-- The second packet is in the queue and counted as dropped. -/
theorem not_queueSink_conserves : ¬ ∀ (maxsize : ℤ) (dropOldest : Bool)
    (actions : List (QueueAction ℕ)),
      (Transducer.final step (new maxsize dropOldest) actions).calls = [] →
        (Transducer.final step (new maxsize dropOldest) actions).Conserved := by
  intro h
  exact absurd (h 1 true oldestTaken rfl) (by decide)

end QueueThreads

end NativeVoice.Media
