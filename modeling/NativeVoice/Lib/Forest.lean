import Mathlib.Data.Finset.Card
import Mathlib.Logic.Function.Basic
import Mathlib.Logic.Relation

/-!
# Forests of parent pointers

Nodes with at most one parent each, given by a function `parent : α → Option α`.

* `Acyclic`: no node is above itself.
* `acyclic_link_iff`: a root that gets a parent closes a cycle just where it is above that parent.
* `exists_rank`: a relation without cycles on a finite set descends along a rank, so that a walk
  needs no more steps than there are nodes.
-/

namespace Lib.Forest

open Relation

variable {α : Type*} {parent : α → Option α} {a b c p : α}

/-- The parent of `a` is `b`. -/
def Under (parent : α → Option α) (a b : α) : Prop := parent a = some b

def Acyclic (parent : α → Option α) : Prop := ∀ a, ¬ TransGen (Under parent) a a

theorem acyclic_none : Acyclic fun _ : α => none := by
  intro a h
  cases h with
  | single h => cases h
  | tail _ h => cases h

/-! ## Roots -/

/-- Nothing else is above a root. -/
theorem eq_of_root (hroot : parent a = none) (h : ReflTransGen (Under parent) a b) : b = a := by
  rcases h.cases_head with heq | ⟨b', hab', -⟩
  · exact heq.symm
  · rw [Under, hroot] at hab'
    cases hab'

/-- There is one root above a node. -/
theorem root_unique (hb : parent b = none) (hc : parent c = none)
    (hab : ReflTransGen (Under parent) a b) (hac : ReflTransGen (Under parent) a c) : b = c := by
  induction hab using ReflTransGen.head_induction_on with
  | refl => exact (eq_of_root hb hac).symm
  | head h _ ih =>
    rcases hac.cases_head with rfl | ⟨b', hab', hb'c⟩
    · rw [Under, hc] at h
      cases h
    · have hsame : _ = b' := Option.some.inj (Eq.trans (Eq.symm h) hab')
      subst hsame
      exact ih hb'c

/-! ## A new parent -/

section Link

variable [DecidableEq α]

theorem under_link (hne : a ≠ c) :
    Under (Function.update parent c (some p)) a b ↔ Under parent a b := by
  rw [Under, Under, Function.update_of_ne hne]

/-- The way up from a node still exists, since it does not leave a root. -/
theorem reflTransGen_link (hc : parent c = none) (h : ReflTransGen (Under parent) a b) :
    ReflTransGen (Under (Function.update parent c (some p))) a b := by
  refine ReflTransGen.mono (fun x y hxy => (under_link ?_).2 hxy) _ _ h
  rintro rfl
  rw [Under, hc] at hxy
  cases hxy

/-- A way up is an old one, or it passes the new link. -/
theorem transGen_of_link (h : TransGen (Under (Function.update parent c (some p))) a b) :
    TransGen (Under parent) a b ∨
      ReflTransGen (Under parent) a c ∧ ReflTransGen (Under parent) p b := by
  induction h with
  | single h =>
    by_cases hac : a = c
    · subst hac
      rw [Under, Function.update_self] at h
      obtain rfl := Option.some.inj h
      exact .inr ⟨.refl, .refl⟩
    · exact .inl (.single ((under_link hac).1 h))
  | @tail b d _ hbd ih =>
    by_cases hbc : b = c
    · subst hbc
      rw [Under, Function.update_self] at hbd
      obtain rfl := Option.some.inj hbd
      rcases ih with hab | ⟨hab, -⟩
      · exact .inr ⟨hab.to_reflTransGen, .refl⟩
      · exact .inr ⟨hab, .refl⟩
    · have hbd := (under_link hbc).1 hbd
      rcases ih with hab | ⟨hac, hpb⟩
      · exact .inl (hab.tail hbd)
      · exact .inr ⟨hac, hpb.tail hbd⟩

/-- **A root with a new parent** closes a cycle just where it is above the parent. -/
theorem acyclic_link_iff (hc : parent c = none) :
    Acyclic (Function.update parent c (some p)) ↔
      Acyclic parent ∧ ¬ ReflTransGen (Under parent) p c := by
  constructor
  · intro h
    refine ⟨fun a ha => h a ?_, fun hpc => h c ?_⟩
    · obtain ⟨b, hab, hba⟩ := TransGen.head'_iff.1 ha
      have hne : a ≠ c := by
        rintro rfl
        rw [Under, hc] at hab
        cases hab
      exact .head' ((under_link hne).2 hab) (reflTransGen_link hc hba)
    · exact .head' (Function.update_self ..) (reflTransGen_link hc hpc)
  · rintro ⟨h, hpc⟩ a ha
    rcases transGen_of_link ha with ha | ⟨hac, hpa⟩
    · exact h a ha
    · exact hpc (hpa.trans hac)

end Link

/-! ## Ranks -/

/-- **A rank** for a relation without cycles that leaves a finite set only. -/
theorem exists_rank {r : α → α → Prop} (hr : ∀ a, ¬ TransGen r a a) {t : Finset α}
    (ht : ∀ a b, r a b → a ∈ t) :
    ∃ rank : α → ℕ, (∀ a b, r a b → rank a < rank b) ∧ ∀ a, rank a ≤ t.card := by
  classical
  -- the number of the elements below
  refine ⟨fun b => (t.filter fun a => TransGen r a b).card, fun a b hab => ?_, fun a => ?_⟩
  · refine Finset.card_lt_card (Finset.ssubset_iff_of_subset ?_ |>.2 ⟨a, ?_, ?_⟩)
    · intro x hx
      obtain ⟨hxt, hxa⟩ := Finset.mem_filter.1 hx
      exact Finset.mem_filter.2 ⟨hxt, hxa.tail hab⟩
    · exact Finset.mem_filter.2 ⟨ht a b hab, .single hab⟩
    · intro ha
      exact hr a (Finset.mem_filter.1 ha).2
  · exact Finset.card_filter_le _ _

end Lib.Forest
