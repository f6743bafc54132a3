import Mathlib.Logic.Function.Basic
import Mathlib.Data.List.Basic

/-!
# Sinks per user

`PerUserSink` of `src/discord/ext/native_voice/media.py`, which makes a child sink for every user,
and for every SSRC whose user is not known yet; the child of an SSRC becomes that of its user when
the user is known.

A child is named by the number of sinks that the factory made before it. Whether the factory makes
one when it is asked to, and whether a child wants a packet, is decided outside.

* `Routed` is the invariant: the packets of an SSRC were written to the child that it has now.
* `routing_stable_iff`: the packets of every SSRC go to one child, if and only if no SSRC with a
  child of its own turns out to belong to a user who has one already.
* `not_routing_stable`: two SSRCs of one user are enough.
-/

namespace NativeVoice.Media

/-- What the sink reads of a media packet. -/
structure MediaPacket where
  ssrc : UInt32
  userId : Option ℕ
  deriving DecidableEq

inductive ChildKey
  | user (userId : ℕ)
  | ssrc (ssrc : UInt32)
  deriving DecidableEq

structure PerUserSink where
  fallbackToSsrc : Bool := true
  childrenByKey : ChildKey → Option ℕ := fun _ => none
  userIdsBySsrc : UInt32 → Option ℕ := fun _ => none
  created : ℕ := 0
  closed : Bool := false

namespace PerUserSink

def packetKey (s : PerUserSink) (packet : MediaPacket) : Option ChildKey × PerUserSink :=
  match packet.userId with
  | some userId =>
    let s := { s with
      userIdsBySsrc := Function.update s.userIdsBySsrc packet.ssrc (some userId) }
    match s.childrenByKey (.ssrc packet.ssrc), s.childrenByKey (.user userId) with
    | some child, none =>
      (some (.user userId), { s with
        childrenByKey := Function.update (Function.update s.childrenByKey (.ssrc packet.ssrc) none)
          (.user userId) (some child) })
    | _, _ => (some (.user userId), s)
  | none => match s.userIdsBySsrc packet.ssrc with
    | some userId => (some (.user userId), s)
    | none => (if s.fallbackToSsrc then some (.ssrc packet.ssrc) else none, s)

/-- `_get_child`, with whether the factory makes a sink. -/
def getChild (s : PerUserSink) (key : ChildKey) (made : Bool) : Option ℕ × PerUserSink :=
  match s.childrenByKey key with
  | some child => (some child, s)
  | none =>
    if made then
      (some s.created, { s with
        childrenByKey := Function.update s.childrenByKey key (some s.created)
        created := s.created + 1 })
    else (none, s)

/-- The child that a packet is written to. -/
def write (s : PerUserSink) (packet : MediaPacket) (made wants : Bool) : Option ℕ × PerUserSink :=
  if s.closed then (none, s)
  else match s.packetKey packet with
  | (none, s) => (none, s)
  | (some key, s) => match s.getChild key made with
    | (none, s) => (none, s)
    | (some child, s) => (if wants then some child else none, s)

/-- The key that an SSRC has now. -/
def keyOf (s : PerUserSink) (ssrc : UInt32) : ChildKey :=
  match s.userIdsBySsrc ssrc with
  | some userId => .user userId
  | none => .ssrc ssrc

end PerUserSink

inductive SinkAct
  | write (packet : MediaPacket) (made wants : Bool)
  | cleanup
  deriving DecidableEq

/-- A sink, and the packets written so far, by their SSRC and the child that they were written
to. -/
structure Routing where
  sink : PerUserSink := {}
  written : List (UInt32 × ℕ) := []

namespace Routing

def step (r : Routing) : SinkAct → Routing
  | .write packet made wants =>
    let (child, sink) := r.sink.write packet made wants
    { sink, written := r.written ++ child.toList.map fun child => (packet.ssrc, child) }
  | .cleanup => { r with sink := { r.sink with closed := true } }

def run (r : Routing) (acts : List SinkAct) : Routing := acts.foldl step r

/-- All packets of an SSRC were written to one child. -/
def OneChild (r : Routing) : Prop :=
  ∀ ssrc child child', (ssrc, child) ∈ r.written → (ssrc, child') ∈ r.written → child = child'

/-- The packet does not tell that an SSRC with a child of its own belongs to a user with a child. -/
def Unclaimed (s : PerUserSink) : SinkAct → Prop
  | .write packet _ _ => s.closed = false → ∀ userId ∈ packet.userId,
      s.childrenByKey (.ssrc packet.ssrc) = none ∨ s.childrenByKey (.user userId) = none
  | .cleanup => True

instance (s : PerUserSink) : (act : SinkAct) → Decidable (Unclaimed s act)
  | .write packet _ _ => inferInstanceAs (Decidable (s.closed = false → ∀ userId ∈ packet.userId,
      s.childrenByKey (.ssrc packet.ssrc) = none ∨ s.childrenByKey (.user userId) = none))
  | .cleanup => isTrue trivial

/-- Every step of a run from `r` on is such. -/
def AlwaysUnclaimed : Routing → List SinkAct → Prop
  | _, [] => True
  | r, act :: acts => Unclaimed r.sink act ∧ AlwaysUnclaimed (r.step act) acts

instance decidableAlwaysUnclaimed :
    (r : Routing) → (acts : List SinkAct) → Decidable (AlwaysUnclaimed r acts)
  | _, [] => isTrue trivial
  | r, act :: acts =>
    @instDecidableAnd _ _ inferInstance (decidableAlwaysUnclaimed (r.step act) acts)

/-- The user of a packet, where it is known, is the owner of the SSRC. -/
def OwnedBy (owner : UInt32 → ℕ) : SinkAct → Prop
  | .write packet _ _ => ∀ userId, packet.userId = some userId → userId = owner packet.ssrc
  | .cleanup => True

/-- The child wants the packet. -/
def Wanted : SinkAct → Prop
  | .write _ _ wants => wants = true
  | .cleanup => True

/-! ## The invariant of a run that is always unclaimed -/

structure Routed (owner : UInt32 → ℕ) (s : PerUserSink) (written : List (UInt32 × ℕ)) : Prop where
  owned : ∀ ssrc userId, s.userIdsBySsrc ssrc = some userId → userId = owner ssrc
  promoted : ∀ ssrc userId, s.userIdsBySsrc ssrc = some userId → s.childrenByKey (.ssrc ssrc) = none
  current : ∀ ssrc child, (ssrc, child) ∈ written → s.childrenByKey (s.keyOf ssrc) = some child

variable {owner : UInt32 → ℕ} {s : PerUserSink} {written : List (UInt32 × ℕ)}

theorem routed_empty (owner : UInt32 → ℕ) : Routed owner {} [] where
  owned ssrc userId h := by cases h
  promoted ssrc userId h := by cases h
  current ssrc child h := by cases h

/-- An SSRC whose user is known has the key of the user. -/
theorem keyOf_of_known {ssrc : UInt32} {userId : ℕ} (h : s.userIdsBySsrc ssrc = some userId) :
    s.keyOf ssrc = .user userId := by
  rw [PerUserSink.keyOf, h]

theorem keyOf_of_unknown {ssrc : UInt32} (h : s.userIdsBySsrc ssrc = none) :
    s.keyOf ssrc = .ssrc ssrc := by
  rw [PerUserSink.keyOf, h]

/-- What is learned about one SSRC leaves the keys of the others alone. -/
theorem keyOf_learn {ssrc ssrc' : UInt32} (h : ssrc' ≠ ssrc) (userId : ℕ)
    (childrenByKey : ChildKey → Option ℕ) :
    ({ s with
      userIdsBySsrc := Function.update s.userIdsBySsrc ssrc (some userId)
      childrenByKey } : PerUserSink).keyOf ssrc' = s.keyOf ssrc' := by
  simp only [PerUserSink.keyOf, Function.update_of_ne h]

/-- The user of an SSRC without a child of its own is learned. -/
theorem Routed.learn (h : Routed owner s written) {ssrc : UInt32}
    (hnone : s.childrenByKey (.ssrc ssrc) = none) :
    Routed owner { s with
      userIdsBySsrc := Function.update s.userIdsBySsrc ssrc (some (owner ssrc)) } written where
  owned ssrc' userId huser := by
    dsimp only at huser
    by_cases hssrc : ssrc' = ssrc
    · subst hssrc
      rw [Function.update_self] at huser
      exact (Option.some.inj huser).symm
    · rw [Function.update_of_ne hssrc] at huser
      exact h.owned ssrc' userId huser
  promoted ssrc' userId huser := by
    dsimp only at huser ⊢
    by_cases hssrc : ssrc' = ssrc
    · rwa [hssrc]
    · rw [Function.update_of_ne hssrc] at huser
      exact h.promoted ssrc' userId huser
  current ssrc' child hmem := by
    have hcurrent := h.current ssrc' child hmem
    by_cases hssrc : ssrc' = ssrc
    · subst hssrc
      -- a packet of it was written, so its user was known before
      cases huser : s.userIdsBySsrc ssrc' with
      | none =>
        rw [keyOf_of_unknown huser, hnone] at hcurrent
        cases hcurrent
      | some userId =>
        rw [keyOf_of_known huser] at hcurrent
        rw [keyOf_of_known (Function.update_self ..), ← h.owned ssrc' userId huser]
        exact hcurrent
    · rw [keyOf_learn hssrc]
      exact hcurrent

/-- The child of an SSRC is promoted to the key of its user, which has none. -/
theorem Routed.promote (h : Routed owner s written) {ssrc : UInt32} {child : ℕ}
    (hchild : s.childrenByKey (.ssrc ssrc) = some child)
    (hnone : s.childrenByKey (.user (owner ssrc)) = none) :
    Routed owner { s with
      userIdsBySsrc := Function.update s.userIdsBySsrc ssrc (some (owner ssrc))
      childrenByKey := Function.update (Function.update s.childrenByKey (.ssrc ssrc) none)
        (.user (owner ssrc)) (some child) } written where
  owned ssrc' userId huser := by
    dsimp only at huser
    by_cases hssrc : ssrc' = ssrc
    · subst hssrc
      rw [Function.update_self] at huser
      exact (Option.some.inj huser).symm
    · rw [Function.update_of_ne hssrc] at huser
      exact h.owned ssrc' userId huser
  promoted ssrc' userId huser := by
    dsimp only at huser ⊢
    rw [Function.update_of_ne (by simp)]
    by_cases hssrc : ssrc' = ssrc
    · rw [hssrc, Function.update_self]
    · rw [Function.update_of_ne hssrc] at huser
      rw [Function.update_of_ne (by simpa using hssrc)]
      exact h.promoted ssrc' userId huser
  current ssrc' child' hmem := by
    have hcurrent := h.current ssrc' child' hmem
    by_cases hssrc : ssrc' = ssrc
    · subst hssrc
      have hunknown : s.userIdsBySsrc ssrc' = none := by
        by_contra hknown
        obtain ⟨userId, huser⟩ := Option.ne_none_iff_exists'.1 hknown
        rw [h.promoted ssrc' userId huser] at hchild
        cases hchild
      rw [keyOf_of_unknown hunknown, hchild] at hcurrent
      rw [keyOf_of_known (Function.update_self ..)]
      dsimp only
      rw [Function.update_self]
      exact hcurrent
    · rw [keyOf_learn hssrc]
      dsimp only
      cases huser : s.userIdsBySsrc ssrc' with
      | none =>
        rw [keyOf_of_unknown huser] at hcurrent ⊢
        rwa [Function.update_of_ne (by simp), Function.update_of_ne (by simpa using hssrc)]
      | some userId =>
        rw [keyOf_of_known huser] at hcurrent ⊢
        have hne : ChildKey.user userId ≠ .user (owner ssrc) := by
          intro heq
          rw [heq, hnone] at hcurrent
          cases hcurrent
        rwa [Function.update_of_ne hne, Function.update_of_ne (by simp)]

/-- **Finding the key of a packet** keeps the invariant, and finds the key that its SSRC then
has. -/
theorem Routed.packetKey (h : Routed owner s written) {packet : MediaPacket}
    (howner : ∀ userId, packet.userId = some userId → userId = owner packet.ssrc)
    (hunclaimed : ∀ userId, packet.userId = some userId →
      s.childrenByKey (.ssrc packet.ssrc) = none ∨ s.childrenByKey (.user userId) = none) :
    Routed owner (s.packetKey packet).2 written ∧
      ∀ key, (s.packetKey packet).1 = some key →
        (s.packetKey packet).2.keyOf packet.ssrc = key := by
  unfold PerUserSink.packetKey
  cases huser : packet.userId with
  | some userId =>
    obtain rfl := howner userId huser
    dsimp only
    cases hssrc : s.childrenByKey (.ssrc packet.ssrc) with
    | none =>
      refine ⟨h.learn hssrc, fun key hkey => ?_⟩
      rw [← Option.some.inj hkey]
      exact keyOf_of_known (Function.update_self ..)
    | some child =>
      have hnone := (hunclaimed _ huser).resolve_left (by simp [hssrc])
      rw [hnone]
      refine ⟨h.promote hssrc hnone, fun key hkey => ?_⟩
      rw [← Option.some.inj hkey]
      exact keyOf_of_known (Function.update_self ..)
  | none =>
    cases hknown : s.userIdsBySsrc packet.ssrc with
    | some userId =>
      refine ⟨h, fun key hkey => ?_⟩
      rw [← Option.some.inj hkey]
      exact keyOf_of_known hknown
    | none =>
      refine ⟨h, fun key hkey => ?_⟩
      dsimp only at hkey
      split at hkey
      · rw [← Option.some.inj hkey]
        exact keyOf_of_unknown hknown
      · cases hkey

/-- A packet is written to the child that its SSRC has. -/
theorem Routed.deliver (h : Routed owner s written) {ssrc : UInt32} {child : ℕ}
    (hchild : s.childrenByKey (s.keyOf ssrc) = some child) :
    Routed owner s (written ++ [(ssrc, child)]) where
  owned := h.owned
  promoted := h.promoted
  current ssrc' child' hmem := by
    rcases List.mem_append.1 hmem with hmem | hmem
    · exact h.current ssrc' child' hmem
    · obtain ⟨rfl, rfl⟩ := Prod.mk.inj (List.mem_singleton.1 hmem)
      exact hchild

/-- A child is made for an SSRC that has none. -/
theorem Routed.make (h : Routed owner s written) {ssrc : UInt32}
    (hnone : s.childrenByKey (s.keyOf ssrc) = none) (child created : ℕ) :
    Routed owner { s with
      childrenByKey := Function.update s.childrenByKey (s.keyOf ssrc) (some child)
      created } written where
  owned := h.owned
  promoted ssrc' userId huser := by
    have hpromoted := h.promoted ssrc' userId huser
    by_cases hkey : ChildKey.ssrc ssrc' = s.keyOf ssrc
    · -- only an SSRC whose user is not known has a key of its own
      cases hknown : s.userIdsBySsrc ssrc with
      | some userId' => rw [keyOf_of_known hknown] at hkey; cases hkey
      | none =>
        rw [keyOf_of_unknown hknown] at hkey
        obtain rfl := ChildKey.ssrc.inj hkey
        exact absurd (hknown.symm.trans huser) (by simp)
    · dsimp only
      rwa [Function.update_of_ne hkey]
  current ssrc' child' hmem := by
    have hcurrent := h.current ssrc' child' hmem
    have hne : s.keyOf ssrc' ≠ s.keyOf ssrc := by
      intro heq
      rw [heq, hnone] at hcurrent
      cases hcurrent
    exact (Function.update_of_ne hne _ _).trans hcurrent

/-- **Every step that is unclaimed keeps the invariant.** -/
theorem Routed.step {r : Routing} (h : Routed owner r.sink r.written) {act : SinkAct}
    (howner : OwnedBy owner act) (hunclaimed : Unclaimed r.sink act) :
    Routed owner (r.step act).sink (r.step act).written := by
  cases act with
  | cleanup => exact ⟨h.owned, h.promoted, h.current⟩
  | write packet made wants =>
    rw [Routing.step]
    unfold PerUserSink.write
    by_cases hclosed : r.sink.closed = true
    · simpa [hclosed] using h
    · rw [if_neg hclosed]
      obtain ⟨hrouted, hkey⟩ := h.packetKey howner (hunclaimed (by simpa using hclosed))
      generalize r.sink.packetKey packet = found at hrouted hkey ⊢
      obtain ⟨key, s⟩ := found
      cases key with
      | none => simpa using hrouted
      | some key =>
        have hrouted : Routed owner s r.written := hrouted
        have hkey : s.keyOf packet.ssrc = key := hkey key rfl
        subst hkey
        dsimp only
        unfold PerUserSink.getChild
        cases hchild : s.childrenByKey (s.keyOf packet.ssrc) with
        | some child =>
          cases wants with
          | false => simpa using hrouted
          | true => exact hrouted.deliver hchild
        | none =>
          cases made with
          | false => simpa using hrouted
          | true =>
            have hmade := hrouted.make hchild s.created (s.created + 1)
            cases wants with
            | false => simpa using hmade
            | true => exact hmade.deliver (Function.update_self ..)

theorem Routed.run {r : Routing} (h : Routed owner r.sink r.written) {acts : List SinkAct}
    (howner : ∀ act ∈ acts, OwnedBy owner act) (hunclaimed : AlwaysUnclaimed r acts) :
    Routed owner (r.run acts).sink (r.run acts).written := by
  induction acts generalizing r with
  | nil => exact h
  | cons act acts ih =>
    obtain ⟨hact, hacts⟩ := hunclaimed
    exact ih (h.step (howner act (by simp)) hact) (fun a ha => howner a (by simp [ha])) hacts

theorem Routed.oneChild {r : Routing} (h : Routed owner r.sink r.written) : r.OneChild := by
  intro ssrc child child' hmem hmem'
  exact Option.some.inj ((h.current ssrc child hmem).symm.trans (h.current ssrc child' hmem'))

/-! ## The invariant of every run -/

/-- The children are different sinks, and the child of an SSRC has got a packet of it. -/
structure Traced (s : PerUserSink) (written : List (UInt32 × ℕ)) : Prop where
  lt : ∀ key child, s.childrenByKey key = some child → child < s.created
  inj : ∀ key key' child, s.childrenByKey key = some child → s.childrenByKey key' = some child →
    key = key'
  ssrc : ∀ ssrc child, s.childrenByKey (.ssrc ssrc) = some child → (ssrc, child) ∈ written

theorem traced_empty : Traced {} [] where
  lt key child h := by cases h
  inj key key' child h := by cases h
  ssrc ssrc child h := by cases h

/-- Every child of the second table is in the first one, under a key that no other one comes
from. -/
theorem Traced.promote (h : Traced s written) {ssrc : UInt32} {userId child : ℕ}
    (hchild : s.childrenByKey (.ssrc ssrc) = some child) (userIdsBySsrc : UInt32 → Option ℕ) :
    Traced { s with
      userIdsBySsrc
      childrenByKey := Function.update (Function.update s.childrenByKey (.ssrc ssrc) none)
        (.user userId) (some child) } written := by
  -- where a child comes from
  have hfrom : ∀ key child', Function.update (Function.update s.childrenByKey (.ssrc ssrc) none)
      (.user userId) (some child) key = some child' →
      (key = .user userId ∧ child' = child) ∨
        (key ≠ .user userId ∧ key ≠ .ssrc ssrc ∧ s.childrenByKey key = some child') := by
    intro key child' hkey
    by_cases huser : key = .user userId
    · rw [huser, Function.update_self] at hkey
      exact .inl ⟨huser, (Option.some.inj hkey).symm⟩
    · rw [Function.update_of_ne huser] at hkey
      by_cases hssrc : key = .ssrc ssrc
      · rw [hssrc, Function.update_self] at hkey
        cases hkey
      · rw [Function.update_of_ne hssrc] at hkey
        exact .inr ⟨huser, hssrc, hkey⟩
  refine ⟨fun key child' hkey => ?_, fun key key' child' hkey hkey' => ?_,
    fun ssrc' child' hkey => ?_⟩
  · rcases hfrom key child' hkey with ⟨-, rfl⟩ | ⟨-, -, hold⟩
    · exact h.lt _ _ hchild
    · exact h.lt _ _ hold
  · rcases hfrom key child' hkey with ⟨rfl, rfl⟩ | ⟨-, hne, hold⟩
    · rcases hfrom key' child' hkey' with ⟨rfl, -⟩ | ⟨-, hne', hold'⟩
      · rfl
      · exact absurd (h.inj _ _ _ hold' hchild) hne'
    · rcases hfrom key' child' hkey' with ⟨rfl, rfl⟩ | ⟨-, -, hold'⟩
      · exact absurd (h.inj _ _ _ hold hchild) hne
      · exact h.inj _ _ _ hold hold'
  · rcases hfrom (.ssrc ssrc') child' hkey with ⟨heq, -⟩ | ⟨-, -, hold⟩
    · cases heq
    · exact h.ssrc ssrc' child' hold

theorem Traced.packetKey (h : Traced s written) (packet : MediaPacket) :
    Traced (s.packetKey packet).2 written ∧
      ∀ ssrc, (s.packetKey packet).1 = some (.ssrc ssrc) → ssrc = packet.ssrc := by
  unfold PerUserSink.packetKey
  cases packet.userId with
  | some userId =>
    dsimp only
    split
    · rename_i child hchild hnone
      exact ⟨h.promote hchild _, fun ssrc hkey => by cases hkey⟩
    · exact ⟨⟨h.lt, h.inj, h.ssrc⟩, fun ssrc hkey => by cases hkey⟩
  | none =>
    cases s.userIdsBySsrc packet.ssrc with
    | some userId => exact ⟨h, fun ssrc hkey => by cases hkey⟩
    | none =>
      refine ⟨h, fun ssrc hkey => ?_⟩
      dsimp only at hkey
      split at hkey
      · exact (ChildKey.ssrc.inj (Option.some.inj hkey)).symm
      · cases hkey

theorem Traced.deliver (h : Traced s written) (entry : UInt32 × ℕ) :
    Traced s (written ++ [entry]) where
  lt := h.lt
  inj := h.inj
  ssrc ssrc child hchild := List.mem_append_left _ (h.ssrc ssrc child hchild)

/-- A child is made and gets a packet. -/
theorem Traced.make (h : Traced s written) {key : ChildKey} {packetSsrc : UInt32}
    (hkey : ∀ ssrc, key = .ssrc ssrc → ssrc = packetSsrc) :
    Traced { s with
      childrenByKey := Function.update s.childrenByKey key (some s.created)
      created := s.created + 1 } (written ++ [(packetSsrc, s.created)]) := by
  have hfrom : ∀ key' child,
      Function.update s.childrenByKey key (some s.created) key' = some child →
      (key' = key ∧ child = s.created) ∨ (key' ≠ key ∧ s.childrenByKey key' = some child) := by
    intro key' child hchild
    by_cases heq : key' = key
    · rw [heq, Function.update_self] at hchild
      exact .inl ⟨heq, (Option.some.inj hchild).symm⟩
    · rw [Function.update_of_ne heq] at hchild
      exact .inr ⟨heq, hchild⟩
  refine ⟨fun key' child hchild => ?_, fun key' key'' child hchild hchild' => ?_,
    fun ssrc child hchild => ?_⟩
  · rcases hfrom key' child hchild with ⟨-, rfl⟩ | ⟨-, hold⟩
    · exact Nat.lt_succ_self _
    · exact Nat.lt_succ_of_lt (h.lt _ _ hold)
  · rcases hfrom key' child hchild with ⟨rfl, rfl⟩ | ⟨-, hold⟩
    · rcases hfrom key'' _ hchild' with ⟨rfl, -⟩ | ⟨-, hold'⟩
      · rfl
      · exact absurd (h.lt _ _ hold') (Nat.lt_irrefl _)
    · rcases hfrom key'' child hchild' with ⟨rfl, rfl⟩ | ⟨-, hold'⟩
      · exact absurd (h.lt _ _ hold) (Nat.lt_irrefl _)
      · exact h.inj _ _ _ hold hold'
  · rcases hfrom (.ssrc ssrc) child hchild with ⟨heq, rfl⟩ | ⟨-, hold⟩
    · rw [hkey ssrc heq.symm]
      exact List.mem_append_right _ (List.mem_singleton_self _)
    · exact List.mem_append_left _ (h.ssrc ssrc child hold)

theorem Traced.step {r : Routing} (h : Traced r.sink r.written) {act : SinkAct}
    (hwanted : Wanted act) : Traced (r.step act).sink (r.step act).written := by
  cases act with
  | cleanup => exact ⟨h.lt, h.inj, h.ssrc⟩
  | write packet made wants =>
    obtain rfl : wants = true := hwanted
    rw [Routing.step]
    unfold PerUserSink.write
    by_cases hclosed : r.sink.closed = true
    · simpa [hclosed] using h
    · rw [if_neg hclosed]
      obtain ⟨htraced, hssrc⟩ := h.packetKey packet
      generalize r.sink.packetKey packet = found at htraced hssrc ⊢
      obtain ⟨key, s⟩ := found
      cases key with
      | none => simpa using htraced
      | some key =>
        have htraced : Traced s r.written := htraced
        dsimp only
        unfold PerUserSink.getChild
        cases hchild : s.childrenByKey key with
        | some child => exact htraced.deliver _
        | none =>
          cases made with
          | false => simpa using htraced
          | true => exact htraced.make fun ssrc hkey => hssrc ssrc (congrArg some hkey)

/-- What was written stays written. -/
theorem written_run (r : Routing) (acts : List SinkAct) : r.written <+: (r.run acts).written := by
  induction acts generalizing r with
  | nil => exact List.prefix_rfl
  | cons act acts ih =>
    refine List.IsPrefix.trans ?_ (ih (r.step act))
    cases act with
    | cleanup => exact List.prefix_rfl
    | write packet made wants => exact List.prefix_append _ _

/-- **A claimed packet goes to another child** than the earlier ones of its SSRC. -/
theorem Traced.claimed {r : Routing} (h : Traced r.sink r.written) {act : SinkAct}
    (hwanted : Wanted act) (hclaimed : ¬Unclaimed r.sink act) : ¬(r.step act).OneChild := by
  cases act with
  | cleanup => exact absurd trivial hclaimed
  | write packet made wants =>
    obtain rfl : wants = true := hwanted
    simp only [Unclaimed, not_forall, not_or] at hclaimed
    obtain ⟨hopen, userId, huser, hssrc, huserChild⟩ := hclaimed
    rw [Option.mem_def] at huser
    obtain ⟨own, hown⟩ := Option.ne_none_iff_exists'.1 hssrc
    obtain ⟨child, hchild⟩ := Option.ne_none_iff_exists'.1 huserChild
    have hstep : (r.step (.write packet made true)).written =
        r.written ++ [(packet.ssrc, child)] := by
      simp [Routing.step, PerUserSink.write, PerUserSink.packetKey, PerUserSink.getChild, hopen,
        huser, hown, hchild]
    intro hone
    have hsame := hone packet.ssrc own child
      (hstep ▸ List.mem_append_left _ (h.ssrc packet.ssrc own hown))
      (hstep ▸ List.mem_append_right _ (List.mem_singleton_self _))
    exact absurd (h.inj _ _ _ (hsame ▸ hown) hchild) (by simp)

/-- In a run without refused packets, one child for every SSRC means that every step is
unclaimed. -/
theorem Traced.alwaysUnclaimed {r : Routing} (h : Traced r.sink r.written) {acts : List SinkAct}
    (hwanted : ∀ act ∈ acts, Wanted act) (hone : (r.run acts).OneChild) :
    AlwaysUnclaimed r acts := by
  induction acts generalizing r with
  | nil => trivial
  | cons act acts ih =>
    have hact := hwanted act (by simp)
    refine ⟨?_, ih (h.step hact) (fun a ha => hwanted a (by simp [ha])) hone⟩
    by_contra hclaimed
    refine h.claimed hact hclaimed fun ssrc child child' hmem hmem' => ?_
    have hkept := written_run (r.step act) acts
    exact hone ssrc child child' (hkept.subset hmem) (hkept.subset hmem')

end Routing

/-- **Routing is stable** in every run in which each SSRC belongs to one user, if no packet tells
that an SSRC with a child of its own belongs to a user who has a child already; and only then, where
the children want all packets. -/
theorem routing_stable_iff (owner : UInt32 → ℕ) (acts : List SinkAct)
    (howner : ∀ act ∈ acts, Routing.OwnedBy owner act) :
    (Routing.AlwaysUnclaimed {} acts → (Routing.run {} acts).OneChild) ∧
    ((∀ act ∈ acts, Routing.Wanted act) →
      ((Routing.run {} acts).OneChild ↔ Routing.AlwaysUnclaimed {} acts)) := by
  have hstable : Routing.AlwaysUnclaimed {} acts → (Routing.run {} acts).OneChild := fun h =>
    (Routing.Routed.run (Routing.routed_empty owner) howner h).oneChild
  exact ⟨hstable, fun hwanted =>
    ⟨Routing.Traced.alwaysUnclaimed Routing.traced_empty hwanted, hstable⟩⟩

/-- Two SSRCs of user 1, who becomes known afterwards, first for the one and then for the other. -/
def twoSsrcs : List SinkAct :=
  [.write ⟨10, none⟩ true true, .write ⟨11, none⟩ true true, .write ⟨10, some 1⟩ true true,
    .write ⟨11, some 1⟩ true true]

theorem routing_stable_iff_twoSsrcs :
    (Routing.run {} (twoSsrcs.take 3)).OneChild ∧ ¬Routing.AlwaysUnclaimed {} twoSsrcs := by
  have howner : ∀ act ∈ twoSsrcs, Routing.OwnedBy (fun _ => 1) act := by
    simp [twoSsrcs, Routing.OwnedBy]
  have hwanted : ∀ act ∈ twoSsrcs, Routing.Wanted act := by simp [twoSsrcs, Routing.Wanted]
  have hwritten : (Routing.run {} twoSsrcs).written = [(10, 0), (11, 1), (10, 0), (11, 0)] := by
    decide
  refine ⟨(routing_stable_iff (fun _ => 1) (twoSsrcs.take 3) fun act hact =>
      howner act (List.mem_of_mem_take hact)).1 (by decide), fun hunclaimed => ?_⟩
  have hone := ((routing_stable_iff (fun _ => 1) twoSsrcs howner).2 hwanted).2 hunclaimed 11 1 0
  rw [hwritten] at hone
  exact absurd (hone (by simp) (by simp)) (by simp)

/-- **The packets of an SSRC go to two children.** -/
theorem not_routing_stable : ¬∀ (owner : UInt32 → ℕ) (acts : List SinkAct),
    (∀ act ∈ acts, Routing.OwnedBy owner act) → (Routing.run {} acts).OneChild := by
  intro h
  have howner : ∀ act ∈ twoSsrcs, Routing.OwnedBy (fun _ => 1) act := by
    simp [twoSsrcs, Routing.OwnedBy]
  have hwritten : (Routing.run {} twoSsrcs).written = [(10, 0), (11, 1), (10, 0), (11, 0)] := by
    decide
  have hone := h (fun _ => 1) twoSsrcs howner 11 1 0
  rw [hwritten] at hone
  exact absurd (hone (by simp) (by simp)) (by simp)

end NativeVoice.Media
