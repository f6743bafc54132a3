import Mathlib.Data.List.Chain
import Mathlib.Data.List.Nodup
import NativeVoice.Lib.Transducer

/-!
# Reassembly of numbered fragments over a lossy channel

A message is cut into fragments that carry the message's stamp and consecutive numbers. A channel
may lose fragments but keeps their order. The receiver appends the bodies of the fragments of one
stamp and gives up on a message when a number is missing or when its first fragment may not open a
message.

* `outputs_message`: what the receiver answers to the fragments of one message that arrive. It
  returns their bodies at the last one when they are `Complete`: the first one opens, each one's
  number follows the previous one's, the last one closes.
* `outputs_delivered`: a run over many messages with different stamps answers each of them by
  itself, whatever is lost.
* `outputs_lossless`: without loss the messages may also share stamps.
* `all_delivered_of_complete`: where only a message's first fragment opens, and its numbers are all
  different, what arrives is complete only if nothing was lost.
-/

namespace Lib.Reassembly

open Transducer

variable {τ ν α : Type*}

structure Fragment (τ ν α : Type*) where
  stamp : τ
  number : ν
  opens : Bool
  body : List α
  closes : Bool

structure State (τ ν α : Type*) where
  stamp : Option τ := none
  last : Option ν := none
  dropping : Bool := false
  buffer : List α := []

section Receiver

variable [DecidableEq τ] [DecidableEq ν] (next : ν → ν)

/-- The state in which a fragment with this stamp and number is looked at. -/
def State.arrive (s : State τ ν α) (t : τ) (n : ν) : State τ ν α :=
  if s.stamp ≠ some t then ⟨some t, some n, false, []⟩
  else match s.last with
    | some m => if next m ≠ n then ⟨some t, some n, true, []⟩ else { s with last := some n }
    | none => { s with last := some n }

/-- Return the message, if there is any, and forget everything about it. -/
def State.finish (s : State τ ν α) : Option (List α) × State τ ν α :=
  (if s.buffer.isEmpty then none else some s.buffer, ⟨none, none, false, []⟩)

def State.finishIf (s : State τ ν α) (closes : Bool) : Option (List α) × State τ ν α :=
  if closes then s.finish else (none, s)

/-- The receiver's answer to one fragment. -/
def receive (s : State τ ν α) (p : Fragment τ ν α) : Option (List α) × State τ ν α :=
  let s := s.arrive next p.stamp p.number
  if s.dropping then s.finishIf p.closes
  else if !p.opens && s.buffer.isEmpty then
    State.finishIf { s with dropping := true, buffer := [] } p.closes
  else State.finishIf { s with buffer := s.buffer ++ p.body } p.closes

/-- The fragments form a message as far as the receiver can tell. -/
def Complete (ps : List (Fragment τ ν α)) : Prop :=
  (∃ p ∈ ps.head?, p.opens) ∧ ps.IsChain (fun p q => q.number = next p.number) ∧
    ∃ p ∈ ps.getLast?, p.closes

/-- `Complete` for the fragments that follow one with number `n`. -/
def Continues (n : ν) (ps : List (Fragment τ ν α)) : Prop :=
  (∀ p ∈ ps.head?, p.number = next n) ∧ ps.IsChain (fun p q => q.number = next p.number) ∧
    ∃ p ∈ ps.getLast?, p.closes

instance (ps : List (Fragment τ ν α)) : Decidable (Complete next ps) := by
  unfold Complete
  infer_instance

instance (n : ν) (ps : List (Fragment τ ν α)) : Decidable (Continues next n ps) := by
  unfold Continues
  infer_instance

/-- `n` answers: nothing, but for the message `b` at the last one if there is one. -/
def answers (n : ℕ) (b : Option (List α)) : List (Option (List α)) :=
  match b with
  | some b => List.replicate (n - 1) none ++ [some b]
  | none => List.replicate n none

/-- What the receiver makes of the fragments of one message that arrive. -/
def received (ps : List (Fragment τ ν α)) : Option (List α) :=
  if Complete next ps then some (ps.flatMap Fragment.body) else none

end Receiver

/-- Fragments of one message, in their order: they share the stamp `t`, those that may open the
message are not empty, and none but the last one closes it. -/
structure PartOf (t : τ) (ps : List (Fragment τ ν α)) : Prop where
  stamp : ∀ p ∈ ps, p.stamp = t
  body : ∀ p ∈ ps, p.opens → p.body ≠ []
  closes : ∀ p ∈ ps.dropLast, p.closes = false

theorem PartOf.tail {t : τ} {p : Fragment τ ν α} {ps : List (Fragment τ ν α)}
    (h : PartOf t (p :: ps)) : PartOf t ps where
  stamp q hq := h.stamp q (by simp [hq])
  body q hq := h.body q (by simp [hq])
  closes q hq := h.closes q (by
    cases ps with
    | nil => simp at hq
    | cons r ps => simp [hq])

theorem PartOf.head_closes {t : τ} {p q : Fragment τ ν α} {ps : List (Fragment τ ν α)}
    (h : PartOf t (p :: q :: ps)) : p.closes = false := h.closes p (by simp)

theorem dropLast_sublist_dropLast {β : Type*} {l m : List β} (h : l.Sublist m) :
    l.dropLast.Sublist m.dropLast := by
  have := h.reverse.tail.reverse
  rwa [List.tail_reverse, List.tail_reverse, List.reverse_reverse, List.reverse_reverse] at this

theorem PartOf.sublist {t : τ} {ps qs : List (Fragment τ ν α)} (h : PartOf t ps)
    (hs : qs.Sublist ps) : PartOf t qs where
  stamp q hq := h.stamp q (hs.subset hq)
  body q hq := h.body q (hs.subset hq)
  closes q hq := h.closes q ((dropLast_sublist_dropLast hs).subset hq)

section Shape

variable {next : ν → ν}

theorem continues_singleton {n : ν} {p : Fragment τ ν α} :
    Continues next n [p] ↔ p.number = next n ∧ p.closes := by
  simp [Continues]

theorem continues_cons_cons {n : ν} {p q : Fragment τ ν α} {ps : List (Fragment τ ν α)} :
    Continues next n (p :: q :: ps) ↔ p.number = next n ∧ Continues next p.number (q :: ps) := by
  simp [Continues, and_assoc]

theorem complete_singleton {p : Fragment τ ν α} : Complete next [p] ↔ p.opens ∧ p.closes := by
  simp [Complete]

theorem complete_cons_cons {p q : Fragment τ ν α} {ps : List (Fragment τ ν α)} :
    Complete next (p :: q :: ps) ↔ p.opens ∧ Continues next p.number (q :: ps) := by
  simp [Complete, Continues, and_assoc]

/-- The part of a list that arrives, each element being marked with whether it does. -/
def arriving {β : Type*} (m : List (β × Bool)) : List β := (m.filter Prod.snd).map Prod.fst

theorem arriving_sublist {β : Type*} (m : List (β × Bool)) :
    (arriving m).Sublist (m.map Prod.fst) := List.filter_sublist.map _

@[simp] theorem arriving_nil {β : Type*} : arriving ([] : List (β × Bool)) = [] := rfl

theorem arriving_cons {β : Type*} (x : β) (b : Bool) (m : List (β × Bool)) :
    arriving ((x, b) :: m) = if b then x :: arriving m else arriving m := by
  cases b <;> rfl

theorem arriving_eq_of_forall {β : Type*} {m : List (β × Bool)} (h : ∀ x ∈ m, x.2 = true) :
    arriving m = m.map Prod.fst := by
  rw [arriving, List.filter_eq_self.2 h]

/-- Behind a fragment that arrives, nothing is lost in a message with different numbers if the
numbers that arrive follow each other and the last fragment is one of them. -/
theorem all_arrive_of_chain {n : ν} {m : List (Fragment τ ν α × Bool)}
    (hnum : (n :: m.map (·.1.number)).IsChain fun i j => j = next i)
    (hnodup : (m.map (·.1.number)).Nodup)
    (harr : (n :: (arriving m).map Fragment.number).IsChain fun i j => j = next i)
    (hlast : ∀ x ∈ m.getLast?, x.2 = true) : ∀ x ∈ m, x.2 = true := by
  induction m generalizing n with
  | nil => simp
  | cons x m ih =>
    obtain ⟨p, b⟩ := x
    simp only [List.map_cons, List.isChain_cons_cons, List.nodup_cons] at hnum hnodup
    cases b with
    | true =>
      rw [arriving_cons, if_pos rfl, List.map_cons, List.isChain_cons_cons] at harr
      have hlast' : ∀ x ∈ m.getLast?, x.2 = true := fun x hx => hlast x (by
        rw [List.getLast?_cons, Option.mem_def.1 hx]
        rfl)
      simpa using ih hnum.2 hnodup.2 harr.2 hlast'
    | false =>
      -- the next fragment that arrives would have the number of the lost one
      exfalso
      rw [arriving_cons, if_neg (by simp)] at harr
      have hm : m ≠ [] := by rintro rfl; simpa using hlast (p, false) rfl
      have hmem : m.getLast hm ∈ m := List.getLast_mem hm
      have harrives : m.getLast hm ∈ m.filter Prod.snd := List.mem_filter.2 ⟨hmem, hlast _ (by
        rw [List.getLast?_cons, List.getLast?_eq_getLast_of_ne_nil hm]
        rfl)⟩
      cases ha : arriving m with
      | nil => simp [arriving, List.ne_nil_of_mem harrives] at ha
      | cons q qs =>
        rw [ha, List.map_cons, List.isChain_cons_cons] at harr
        have hq : q ∈ m.map Prod.fst := (arriving_sublist m).subset (by simp [ha])
        obtain ⟨y, hy, rfl⟩ := List.mem_map.1 hq
        exact hnodup.1 (List.mem_map.2 ⟨y, hy, harr.1.trans hnum.1.symm⟩)

/-- **Completeness is reliable** for a message with different numbers of which only the first
fragment opens and only the last one closes. -/
theorem all_arrive_of_complete {m : List (Fragment τ ν α × Bool)}
    (hnum : (m.map (·.1.number)).IsChain fun i j => j = next i)
    (hnodup : (m.map (·.1.number)).Nodup) (hopens : ∀ x ∈ m.tail, x.1.opens = false)
    (hcloses : ∀ x ∈ m.dropLast, x.1.closes = false) (hc : Complete next (arriving m)) :
    ∀ x ∈ m, x.2 = true := by
  obtain ⟨⟨p, hp, hopen⟩, hchain, q, hq, hclose⟩ := hc
  have hlast : ∀ x ∈ m.getLast?, x.2 = true := by
    intro x hx
    obtain ⟨l, rfl⟩ := List.getLast?_eq_some_iff.1 hx
    by_contra hb
    have : arriving (l ++ [x]) = arriving l := by simp [arriving, hb]
    rw [this] at hq
    obtain ⟨y, hy, rfl⟩ := List.mem_map.1 ((arriving_sublist l).subset (List.mem_of_getLast? hq))
    rw [hcloses y (by simpa using hy)] at hclose
    exact absurd hclose (by simp)
  cases m with
  | nil => simp
  | cons x m =>
    obtain ⟨p', b⟩ := x
    cases b with
    | false =>
      rw [arriving_cons, if_neg (by simp)] at hp
      obtain ⟨y, hy, rfl⟩ := List.mem_map.1 ((arriving_sublist m).subset (List.mem_of_head? hp))
      rw [hopens y hy] at hopen
      exact absurd hopen (by simp)
    | true =>
      rw [arriving_cons, if_pos rfl] at hchain
      have hlast' : ∀ x ∈ m.getLast?, x.2 = true := fun x hx => hlast x (by
        rw [List.getLast?_cons, Option.mem_def.1 hx]
        rfl)
      have hnumbers : (p'.number :: (arriving m).map Fragment.number).IsChain
          fun i j => j = next i := by
        rw [← List.map_cons]
        exact (List.isChain_map Fragment.number).2 hchain
      have := all_arrive_of_chain (n := p'.number) (by simpa using hnum)
        (by simpa using (List.nodup_cons.1 hnodup).2) hnumbers hlast'
      simpa using this

end Shape

variable [DecidableEq τ] [DecidableEq ν] {next : ν → ν}

/-! ## One message -/

@[simp] theorem answers_none (n : ℕ) : answers n (none : Option (List α)) = List.replicate n none :=
  rfl

theorem answers_succ {n : ℕ} (hn : n ≠ 0) (b : Option (List α)) :
    answers (n + 1) b = none :: answers n b := by
  cases b with
  | none => rfl
  | some b =>
    obtain ⟨m, rfl⟩ := Nat.exists_eq_succ_of_ne_zero hn
    rfl

variable (next) in
theorem outputs_dropping {t : τ} {ps : List (Fragment τ ν α)} (h : PartOf t ps) (n : ν) :
    outputs (receive next) (⟨some t, some n, true, []⟩ : State τ ν α) ps =
      List.replicate ps.length none := by
  induction ps generalizing n with
  | nil => rfl
  | cons p ps ih =>
    have ht : p.stamp = t := h.stamp p (by simp)
    cases ps with
    | nil =>
      cases hc : p.closes <;>
        simp [outputs, receive, State.arrive, State.finishIf, State.finish, ht, hc]
    | cons q ps =>
      have hc : p.closes = false := h.head_closes
      have hstep : receive next (⟨some t, some n, true, []⟩ : State τ ν α) p =
          (none, ⟨some t, some p.number, true, []⟩) := by
        by_cases hn : next n = p.number <;> simp [receive, State.arrive, State.finishIf, ht, hc, hn]
      rw [outputs_cons, hstep, ih h.tail p.number]
      rfl

/-- One step inside a message of which `b` has arrived. -/
theorem receive_inside {t : τ} {n : ν} {b : List α} (hb : b ≠ []) {p : Fragment τ ν α}
    (ht : p.stamp = t) : receive next ⟨some t, some n, false, b⟩ p =
      if p.number = next n then State.finishIf ⟨some t, some p.number, false, b ++ p.body⟩ p.closes
      else State.finishIf ⟨some t, some p.number, true, []⟩ p.closes := by
  by_cases hn : p.number = next n
  · simp [receive, State.arrive, ht, hn, hb]
  · simp [receive, State.arrive, ht, hn, Ne.symm hn]

variable (next) in
theorem outputs_inside {t : τ} {ps : List (Fragment τ ν α)} (h : PartOf t ps) (n : ν)
    {b : List α} (hb : b ≠ []) :
    outputs (receive next) ⟨some t, some n, false, b⟩ ps = answers ps.length
      (if Continues next n ps then some (b ++ ps.flatMap Fragment.body) else none) := by
  induction ps generalizing n b with
  | nil => simp [Continues]
  | cons p ps ih =>
    have ht : p.stamp = t := h.stamp p (by simp)
    rw [outputs_cons, receive_inside hb ht]
    cases ps with
    | nil =>
      cases hc : p.closes <;> by_cases hn : p.number = next n <;>
        simp [continues_singleton, State.finishIf, State.finish, answers, hc, hn, hb]
    | cons q ps =>
      have hc : p.closes = false := h.head_closes
      rw [List.length_cons, answers_succ (by simp)]
      by_cases hn : p.number = next n
      · have := ih h.tail p.number (b := b ++ p.body) (by simp [hb])
        simpa [State.finishIf, hc, hn, continues_cons_cons] using this
      · have := outputs_dropping next h.tail p.number
        simpa [State.finishIf, hc, hn, continues_cons_cons, List.replicate_succ] using this

/-- The first fragment of a message, whatever was there before it. -/
theorem receive_first {t : τ} {s : State τ ν α} (hs : s.stamp ≠ some t) {p : Fragment τ ν α}
    (ht : p.stamp = t) : receive next s p =
      if p.opens then State.finishIf ⟨some t, some p.number, false, p.body⟩ p.closes
      else State.finishIf ⟨some t, some p.number, true, []⟩ p.closes := by
  cases ho : p.opens <;> simp [receive, State.arrive, ht, hs, ho]

/-- **One message.** From a state that holds another stamp, the receiver answers the fragments that
arrive with their bodies at the last one, if they are complete, and with nothing otherwise. -/
theorem outputs_message {t : τ} {s : State τ ν α} (hs : s.stamp ≠ some t)
    {ps : List (Fragment τ ν α)} (h : PartOf t ps) :
    outputs (receive next) s ps = answers ps.length (received next ps) := by
  cases ps with
  | nil => simp [received, Complete]
  | cons p ps =>
    have ht : p.stamp = t := h.stamp p (by simp)
    have hb : p.opens → p.body ≠ [] := h.body p (by simp)
    rw [outputs_cons, receive_first hs ht]
    cases ps with
    | nil =>
      cases hc : p.closes <;> cases ho : p.opens <;>
        simp_all [received, complete_singleton, State.finishIf, State.finish, answers]
    | cons q ps =>
      have hc : p.closes = false := h.head_closes
      rw [List.length_cons, answers_succ (by simp)]
      cases ho : p.opens with
      | true =>
        have := outputs_inside next h.tail p.number (hb ho)
        simpa [received, State.finishIf, hc, ho, complete_cons_cons] using this
      | false =>
        have := outputs_dropping next h.tail p.number
        simpa [received, State.finishIf, hc, ho, complete_cons_cons, List.replicate_succ] using this

/-! ## Many messages -/

variable (next) in
theorem stamp_receive (s : State τ ν α) (p : Fragment τ ν α) :
    (receive next s p).2.stamp = if p.closes then none else some p.stamp := by
  have harrive : (s.arrive next p.stamp p.number).stamp = some p.stamp := by
    unfold State.arrive
    split
    · rfl
    · rename_i hs
      split
      · split
        · rfl
        · simpa using hs
      · simpa using hs
  have hfinish (r : State τ ν α) (hr : r.stamp = some p.stamp) :
      (r.finishIf p.closes).2.stamp = if p.closes then none else some p.stamp := by
    cases hc : p.closes <;> simp [State.finishIf, State.finish, hr]
  unfold receive
  dsimp only
  split
  · exact hfinish _ harrive
  · split <;> exact hfinish _ harrive

/-- After the fragments of one message the receiver holds its stamp or none. -/
theorem stamp_final {t : τ} (s : State τ ν α) {ps : List (Fragment τ ν α)}
    (ht : ∀ p ∈ ps, p.stamp = t) : (final (receive next) s ps).stamp = s.stamp ∨
      (final (receive next) s ps).stamp = none ∨ (final (receive next) s ps).stamp = some t := by
  induction ps generalizing s with
  | nil => exact .inl rfl
  | cons p ps ih =>
    have hp := ht p (by simp)
    have hr := stamp_receive next s p
    rcases ih (receive next s p).2 fun q hq => ht q (by simp [hq]) with h | h
    · right
      rw [final_cons, h, hr, hp]
      split <;> simp
    · exact .inr h

theorem stamp_final_of_closes {s : State τ ν α} {ps : List (Fragment τ ν α)}
    (h : ∃ p ∈ ps.getLast?, p.closes) : (final (receive next) s ps).stamp = none := by
  obtain ⟨p, hp, hc⟩ := h
  obtain ⟨qs, rfl⟩ := List.getLast?_eq_some_iff.1 hp
  rw [final_append, final_cons, final_nil, stamp_receive, if_pos hc]

/-- **Lossy channel.** Messages with different stamps are answered each by itself, whatever part of
each of them arrives. -/
theorem outputs_delivered {s : State τ ν α} {ms : List (List (Fragment τ ν α))}
    (hparts : ∀ m ∈ ms, ∃ t, PartOf t m)
    (hdistinct : ms.Pairwise fun m m' => ∀ p ∈ m, ∀ q ∈ m', p.stamp ≠ q.stamp)
    (hs : ∀ m ∈ ms, ∀ p ∈ m, s.stamp ≠ some p.stamp) :
    outputs (receive next) s ms.flatten =
      ms.flatMap fun m => answers m.length (received next m) := by
  induction ms generalizing s with
  | nil => rfl
  | cons m ms ih =>
    obtain ⟨t, ht⟩ := hparts m (by simp)
    rw [List.pairwise_cons] at hdistinct
    cases m with
    | nil =>
      simpa [received, Complete] using ih (fun m' hm => hparts m' (by simp [hm])) hdistinct.2
        fun m' hm => hs m' (by simp [hm])
    | cons p m =>
      have hp : p.stamp = t := ht.stamp p (by simp)
      rw [List.flatten_cons, List.flatMap_cons, outputs_append,
        outputs_message (hp ▸ hs (p :: m) (by simp) p (by simp)) ht,
        ih (fun m' hm => hparts m' (by simp [hm])) hdistinct.2]
      intro m' hm q hq
      rcases stamp_final s ht.stamp with h | h | h
      · rw [h]
        exact hs m' (by simp [hm]) q hq
      · simp [h]
      · rw [h, ← hp]
        simpa using hdistinct.1 m' hm p (by simp) q hq

/-- **No loss.** Complete messages are answered each by itself, even with equal stamps. -/
theorem outputs_lossless {s : State τ ν α} (hs : s.stamp = none)
    {ms : List (List (Fragment τ ν α))} (hparts : ∀ m ∈ ms, ∃ t, PartOf t m)
    (hc : ∀ m ∈ ms, Complete next m) :
    outputs (receive next) s ms.flatten =
      ms.flatMap fun m => answers m.length (some (m.flatMap Fragment.body)) := by
  induction ms generalizing s with
  | nil => rfl
  | cons m ms ih =>
    have hm := hc m (by simp)
    obtain ⟨t, ht⟩ := hparts m (by simp)
    rw [List.flatten_cons, List.flatMap_cons, outputs_append, outputs_message (by simp [hs]) ht,
      received, if_pos hm, ih (stamp_final_of_closes hm.2.2) (fun m' hm => hparts m' (by simp [hm]))
        (fun m' hm => hc m' (by simp [hm]))]

omit [DecidableEq τ] in
/-- The receiver returns a message of which nothing but the first fragment opens and no number is
used twice, if all of it arrives, and nothing of it otherwise. -/
theorem received_arriving {m : List (Fragment τ ν α × Bool)}
    (hcomplete : Complete next (m.map Prod.fst)) (hnodup : (m.map (·.1.number)).Nodup)
    (hopens : ∀ x ∈ m.tail, x.1.opens = false) (hcloses : ∀ x ∈ m.dropLast, x.1.closes = false) :
    received next (arriving m) =
      if ∀ x ∈ m, x.2 = true then some ((m.map Prod.fst).flatMap Fragment.body) else none := by
  split
  · rename_i h
    rw [arriving_eq_of_forall h, received, if_pos hcomplete]
  · rename_i h
    refine if_neg fun hc => h (all_arrive_of_complete ?_ hnodup hopens hcloses hc)
    have := hcomplete.2.1
    rw [List.isChain_map] at this
    exact (List.isChain_map (fun x : Fragment τ ν α × Bool => x.1.number)).2 this

end Lib.Reassembly
